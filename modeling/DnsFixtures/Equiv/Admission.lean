import DnsFixtures.Equiv.Access
import DnsFixtures.Equiv.Server

/-!
# From `DNS_ALLOWED_CLIENTS` to the sessions

The gate of the servers sees addresses as numbers, `verifyRequest` as texts.  `verifyRequest_eq`: both
decide alike.  `Gate.Run.checked`: in every run a request gets past its check exactly when this decides
for its address.  `Server.run_admission`: so the allowlist, as it is written, says which clients get a
session, whatever else the servers do.
-/

namespace DnsFixtures

open Concurrency

/-! ### Two views of an address -/

def IPAddress.toGate : IPAddress → Gate.IPAddress
  | .v4 ip => .v4 ip
  | .v6 ip => .v6 ip

def IPNetwork.toGate : IPNetwork → Gate.IPNetwork
  | .v4 n => .v4 n.address n.prefixlen
  | .v6 n => .v6 n.address n.prefixlen

/-- The gate with these networks. -/
def gateConfig (maxSessions : Nat) (networks : List IPNetwork) : Gate.Config :=
  ⟨maxSessions, networks.map IPNetwork.toGate⟩

theorem netmask_eq {w p : Nat} (hp : p ≤ w) : Gate.netmask w p = Cidr.netmask w p := by
  apply BitVec.eq_of_getLsbD_eq
  intro i hi
  rw [Cidr.getLsbD_netmask, Gate.netmask, BitVec.getLsbD_shiftLeft, BitVec.getLsbD_allOnes]
  by_cases hlow : i < w - p
  · have hno : ¬ w ≤ p + i := by omega
    simp [hlow, hno]
  · have hin : i - (w - p) < w := by omega
    have hyes : w ≤ p + i := by omega
    simp [hlow, hin, hyes, hi]

@[simp] theorem contains_toGate (n : IPNetwork) (a : IPAddress) :
    n.toGate.contains a.toGate = n.contains a := by
  cases n with
  | v4 n =>
    cases a with
    | v4 ip => rw [IPNetwork.toGate, IPAddress.toGate, Gate.IPNetwork.contains, netmask_eq n.le]; rfl
    | v6 ip => rfl
  | v6 n =>
    cases a with
    | v4 ip => rfl
    | v6 ip => rw [IPNetwork.toGate, IPAddress.toGate, Gate.IPNetwork.contains, netmask_eq n.le]; rfl

theorem unmapped_toGate (a : IPAddress) :
    a.toGate.ipv4Mapped.getD a.toGate = a.unmapped.toGate := by
  cases a with
  | v4 ip => rfl
  | v6 ip =>
    rw [IPAddress.toGate, Gate.IPAddress.ipv4Mapped, IPAddress.unmapped, ipv4Mapped]
    by_cases hmapped : ip >>> 32 = 0xFFFF
    · rw [if_pos hmapped, if_neg (not_not.mpr hmapped)]
      rfl
    · rw [if_neg hmapped, if_pos hmapped]
      rfl

/-- **Both checks decide alike.** -/
theorem verifyRequest_eq {networks : List IPNetwork} {client : String} {address : IPAddress}
    (hclient : ipAddress client.toList = some address) (maxSessions : Nat) :
    verifyRequest networks client
      = some (Gate.verifyRequest (gateConfig maxSessions networks) address.toGate) := by
  have hcontains : (fun network : IPNetwork => network.toGate.contains address.unmapped.toGate)
      = fun network => network.contains address.unmapped := funext fun n => contains_toGate n _
  rw [verifyRequest, hclient, Gate.verifyRequest, gateConfig, unmapped_toGate, List.any_map]
  show some _ = some _
  rw [← hcontains]
  rfl

/-- The client is a loopback address or lies in a network of the list, which is of its family; an
IPv4-mapped client is an IPv4 client. -/
def Permits (value : String) (address : IPAddress) : Prop :=
  address.unmapped = .v4 loopback4 ∨ address.unmapped = .v6 loopback6 ∨
    ∃ i, Listed value i ∧ i.Covers address.unmapped

theorem verifyRequest_toGate_iff {value : String} {networks : List IPNetwork}
    (h : allowedClients value = .ok networks) {client : String} {address : IPAddress}
    (hclient : ipAddress client.toList = some address) (maxSessions : Nat) :
    Gate.verifyRequest (gateConfig maxSessions networks) address.toGate = true ↔
      Permits value address := by
  have hiff := verifyRequest_eq_true_iff h hclient
  rwa [verifyRequest_eq hclient maxSessions, Option.some_inj] at hiff

/-! ### The check in a run -/

namespace Gate

variable {config : Config} {es : List Event} {s s' : State} {e : Event}

/-- The clients of the requests. -/
def clients (es : List Event) : List IPAddress :=
  es.filterMap fun
    | .arrive _ address => some address
    | .act _ _ => none

/-- The phase of a request agrees with the check of its address. -/
structure Request.Checked (config : Config) (r : Request) : Prop where
  rejected : r.phase = .accessRejected → verifyRequest config r.address = false
  permitted : r.phase ∉ [Phase.verifying, .accessRejected] → verifyRequest config r.address = true

theorem Acts.checked {r : Request} {gate gate' : BoundedSemaphore} {action : Action} {phase : Phase}
    (h : Acts config r.address gate r.phase action gate' phase) (hr : r.Checked config) :
    Request.Checked config { r with phase := phase } := by
  obtain ⟨transport, address, phase₀⟩ := r
  cases h with
  | rejectAccess hno => exact ⟨fun _ => hno, fun hne => absurd (by simp) hne⟩
  | permit hyes => exact ⟨nofun, fun _ => hyes⟩
  | _ => exact ⟨nofun, fun _ => hr.permitted (by simp)⟩

theorem Step.checked (hstep : Step config s e s') (hclients : s.requests.map Request.address = clients es)
    (hchecked : ∀ r ∈ s.requests, r.Checked config) :
    s'.requests.map Request.address = clients (es ++ [e]) ∧ ∀ r ∈ s'.requests, r.Checked config := by
  have hconcat : clients (es ++ [e]) = clients es ++ clients [e] := List.filterMap_append
  rw [hconcat, ← hclients]
  cases hstep with
  | arrive transport address =>
    refine ⟨List.map_append, fun r hr => ?_⟩
    rcases List.mem_append.mp hr with hr | hr
    · exact hchecked r hr
    · rw [List.mem_singleton.mp hr]
      exact ⟨nofun, fun hne => absurd List.mem_cons_self hne⟩
  | @act i r action gate' phase hr hacts =>
    have hmem := List.mem_of_getElem? hr
    have hnone : clients [.act i action] = [] := rfl
    rw [hnone, List.append_nil]
    refine ⟨Server.map_set_of_eq hr rfl, fun r' hr' => ?_⟩
    rcases List.mem_or_eq_of_mem_set hr' with hr' | rfl
    · exact hchecked r' hr'
    · exact hacts.checked (hchecked r hmem)

/-- **The check in a run**: the requests are those of the clients that came, each in a phase that
agrees with the check of its client. -/
theorem Run.checked (h : Run config es s) : s.requests.map Request.address = clients es ∧
    ∀ r ∈ s.requests, r.Checked config := by
  induction h with
  | nil => exact ⟨rfl, nofun⟩
  | snoc _ hstep ih => exact hstep.checked ih.1 ih.2

end Gate

/-! ### Clients and sessions -/

namespace Server

variable {d : Dnspython} {es : List Event} {s : State}

/-- The clients of the requests. -/
def clients (es : List Event) : List Gate.IPAddress :=
  es.filterMap fun
    | .arrive address _ => some address
    | _ => none

theorem clients_gateEvents (es : List Event) : Gate.clients (gateEvents es) = clients es := by
  rw [Gate.clients, gateEvents, clients, List.filterMap_filterMap]
  congr 1
  funext e
  cases e <;> rfl

/-- What the allowlist means for a request: behind the check it decides on the request, and a client that
it does not permit gets no more than the log line of its rejection. -/
structure Admission (value : String) (address : IPAddress) (actions : List Gate.Action)
    (r : Gate.Request) (trace : List DnsFixtures.Event) : Prop where
  decided : r.phase ≠ .verifying → (r.phase = .accessRejected ↔ ¬ Permits value address)
  actions : ¬ Permits value address → ∀ action ∈ actions, action = .rejectAccess
  silent : ¬ Permits value address → received trace = [] ∧ sent trace = [] ∧ forwarded trace = []
  logged : r.phase = .accessRejected → trace = [.logged (logEvent "rejected"
    (if r.transport = .tcp then "tcp" else "udp") .normal "access")]

/-- **Admission from end to end**: in every run of the servers, whatever other requests there are, the
allowlist as it is written decides which clients are let in. -/
theorem run_admission {value : String} {networks : List IPNetwork}
    (hnetworks : allowedClients value = .ok networks) {maxSessions : Nat}
    (h : Run (gateConfig maxSessions networks) d es s) {i : Nat} {client : String}
    {address : IPAddress} (hclient : ipAddress client.toList = some address)
    (hi : (clients es)[i]? = some address.toGate) :
    ∃ r session, s.gate.requests[i]? = some r ∧ s.sessions[i]? = some session ∧
      Admission value address ((gateEvents es).filterMap (Gate.Event.on i)) r
        (traceOf r session) := by
  have hinv := h.invariant
  obtain ⟨haddresses, hchecked⟩ := hinv.gate.checked
  have hverify := verifyRequest_toGate_iff hnetworks hclient maxSessions
  rw [clients_gateEvents] at haddresses
  rw [← haddresses, List.getElem?_map] at hi
  obtain ⟨r, hr, haddress⟩ := Option.map_eq_some_iff.mp hi
  obtain ⟨session, hsession⟩ : ∃ session, s.sessions[i]? = some session :=
    ⟨_, List.getElem?_eq_getElem
      (by rw [hinv.length_eq]; exact (List.getElem?_eq_some_iff.mp hr).1)⟩
  have hr' := hchecked r (List.mem_of_getElem? hr)
  have hok := hinv.sessions i r session hr hsession
  have hhistory := hinv.gate.invariant.history i
  rw [hr] at hhistory
  -- a client that is not permitted is in front of the check or rejected by it
  have hphase : ¬ Permits value address → r.phase = .verifying ∨ r.phase = .accessRejected := by
    intro hno
    by_contra hneither
    obtain ⟨hverifying, hrejected⟩ := not_or.mp hneither
    exact hno (hverify.mp (haddress ▸ hr'.permitted (by simp [hverifying, hrejected])))
  refine ⟨r, session, hr, hsession, fun hverifying => ⟨fun hrejected hyes => ?_, fun hno => ?_⟩,
    fun hno action haction => ?_, fun hno => ?_, fun hrejected => ?_⟩
  · have hfalse := hr'.rejected hrejected
    rw [haddress, hverify.mpr hyes] at hfalse
    cases hfalse
  · exact (hphase hno).resolve_left hverifying
  · rw [hhistory] at haction
    rcases hphase hno with heq | heq
    · simp [heq, Gate.Phase.history] at haction
    · simpa [heq, Gate.Phase.history] using haction
  · rcases hphase hno with heq | heq
    · have htrace := hok.untouched (by rw [heq]; rfl)
      rw [traceOf, heq]
      dsimp only
      rw [htrace]
      exact ⟨rfl, rfl, rfl⟩
    · rw [traceOf, heq]
      exact ⟨rfl, rfl, rfl⟩
  · rw [traceOf, hrejected]

/-- A client outside the network that is listed. -/
def rejectedEvents : List Event :=
  [.arrive (.v4 0xC6336407) (.tcp []), .act 0 .rejectAccess]

theorem run_admission_rejected : ∃ networks s r session,
    allowedClients "192.0.2.5/24" = .ok networks ∧
    Run (gateConfig 1 networks) Reference.dnspython rejectedEvents s ∧
    s.gate.requests[0]? = some r ∧ s.sessions[0]? = some session ∧
    Admission "192.0.2.5/24" (.v4 0xC6336407) [.rejectAccess] r (traceOf r session) := by
  let listed : Cidr.Interface 32 := ⟨0xC0000205, 24, by decide⟩
  let networks := LOOPBACK_CLIENTS ++ [.v4 listed.network]
  have hnetworks : allowedClients "192.0.2.5/24" = .ok networks := by decide +kernel
  have hclient : ipAddress "198.51.100.7".toList = some (.v4 0xC6336407) := by decide +kernel
  have hno : Gate.verifyRequest (gateConfig 1 networks) (.v4 0xC6336407) = false := by decide
  have h₀ : Run (gateConfig 1 networks) Reference.dnspython [] _ := .nil
  have h₁ := h₀.snoc (e := .arrive (.v4 0xC6336407) (.tcp [])) (.arrive (.arrive _ _ nofun))
  have h₂ := h₁.snoc (e := .act 0 .rejectAccess) (.act (.act rfl (.rejectAccess hno)) nofun)
  obtain ⟨r, session, hr, hsession, hadmission⟩ := @run_admission Reference.dnspython rejectedEvents _
    "192.0.2.5/24" networks hnetworks 1 h₂ 0 "198.51.100.7" (.v4 0xC6336407) hclient rfl
  exact ⟨networks, _, r, session, hnetworks, h₂, hr, hsession, hadmission⟩

end Server

end DnsFixtures
