import DnsFixtures.HealthCheck
import DnsFixtures.Equiv.Forwarding
import DnsFixtures.Equiv.QueryEncoding

/-!
# The upstream addresses in turn

`forward_udp` goes on to the next address after an `OSError`.  A datagram that is no valid response
raises `DNSFormatError`, which is none, so that the first datagram decides (`run_forwardUdp_of_some`)
and a valid response of a later address is not asked for.  `fallsBack_iff`: that is the only way in
which the fallback fails.

The loop of `run_healthcheck` catches both exceptions, and there any address is enough
(`runHealthcheck_eq`).
-/

namespace DnsFixtures

open Dns

/-! ### Valid responses -/

/-- A response to the query, as far as the proxy validates it. -/
def IsValidResponse (query response : Octets) : Prop :=
  12 ≤ response.length ∧ response.take 2 = query.take 2

instance (query response : Octets) : Decidable (IsValidResponse query response) :=
  inferInstanceAs (Decidable (_ ∧ _))

/-- The datagram that an address sends, if it sends one. -/
def Outcome.datagram? : Outcome → Option Octets
  | .datagram response => some response
  | _ => none

/-- The valid response that an address gives, if it gives one. -/
def validResponse (query : Octets) (o : Outcome) : Option Octets :=
  o.datagram?.filter fun response => IsValidResponse query response

theorem validateUpstreamResponse_eq_ok_iff {query response : Octets} :
    validateUpstreamResponse query response = .ok () ↔ IsValidResponse query response := by
  unfold validateUpstreamResponse IsValidResponse
  split_ifs with hlen hid
  · exact iff_of_false (fun h => by cases h) fun h => by omega
  · exact iff_of_false (fun h => by cases h) fun h => hid h.2
  · exact iff_of_true rfl ⟨by omega, not_not.mp hid⟩

theorem validResponse_eq_none_of_fails {query : Octets} {o : Outcome} (h : Fails o) :
    validResponse query o = none := by
  cases o with
  | datagram r => exact h.elim
  | _ => rfl

/-! ### The loop of `forward_udp` -/

theorem fails_of_datagram?_eq_none {o : Outcome} (h : o.datagram? = none) : Fails o := by
  cases o with
  | datagram r => cases h
  | _ => exact trivial

/-- Without a datagram the last error is raised. -/
theorem run_forwardUdpLoop_of_none {query : Octets} {addresses : List Outcome}
    (h : ∀ o ∈ addresses, o.datagram? = none) (lastError : Raised) (e : Exchange) :
    ∃ err, ((forwardUdpLoop query addresses lastError).run e).1 = .error err := by
  induction addresses generalizing lastError e with
  | nil => exact ⟨lastError, rfl⟩
  | cons o addresses ih =>
    have hrest := fun o ho => h o (List.mem_cons_of_mem _ ho)
    cases o with
    | unreachable => exact ih hrest _ _
    | timeout =>
      obtain ⟨err, herr⟩ := ih hrest .timeout { e with forwarded := e.forwarded ++ [query] }
      refine ⟨err, ?_⟩
      rw [forwardUdpLoop, Session.run_bind_ok (run_sendUpstream ..)]
      exact herr
    | datagram r => exact absurd (h _ List.mem_cons_self) (Option.some_ne_none _)

/-- **The first datagram decides.** -/
theorem run_forwardUdp_of_some {query response : Octets} {addresses : List Outcome}
    (h : addresses.findSome? Outcome.datagram? = some response) (e : Exchange) :
    ((forwardUdp query addresses).run e).1
      = (validateUpstreamResponse query response).map fun _ => response := by
  obtain ⟨failing, o, behind, rfl, ho, hfail⟩ := List.findSome?_eq_some_iff.mp h
  cases o with
  | datagram r =>
    cases ho
    obtain ⟨k, hrun⟩ := @run_forwardUdpLoop_datagram query response failing behind
      (fun o ho => fails_of_datagram?_eq_none (hfail o ho)) .osError e
    rw [forwardUdp, hrun]
  | _ => cases ho

/-! ### The fallback -/

/-- The valid response of the first address that gives one is returned, nothing else is, and an
exception means that there is none. -/
structure FallsBack (query : Octets) (addresses : List Outcome) : Prop where
  returns_first : ∀ e response, addresses.findSome? (validResponse query) = some response →
    ((forwardUdp query addresses).run e).1 = .ok response
  validated : ∀ e response, ((forwardUdp query addresses).run e).1 = .ok response →
    ∃ o ∈ addresses, validResponse query o = some response
  raises_only : ∀ e err, ((forwardUdp query addresses).run e).1 = .error err →
    ∀ o ∈ addresses, validResponse query o = none

/-- No address gives a valid response, or the first one that sends a datagram does. -/
def FirstDatagramValid (query : Octets) (addresses : List Outcome) : Prop :=
  (∀ o ∈ addresses, validResponse query o = none) ∨
    ∃ response, addresses.findSome? Outcome.datagram? = some response ∧
      IsValidResponse query response

/-- A first datagram that is valid is the first valid response. -/
theorem findSome?_validResponse {query response : Octets} {addresses : List Outcome}
    (h : addresses.findSome? Outcome.datagram? = some response)
    (hvalid : IsValidResponse query response) :
    addresses.findSome? (validResponse query) = some response ∧
      ∃ o ∈ addresses, validResponse query o = some response := by
  obtain ⟨failing, o, behind, rfl, ho, hfail⟩ := List.findSome?_eq_some_iff.mp h
  have hgives : validResponse query o = some response := by
    rw [validResponse, ho, Option.filter_some, if_pos (decide_eq_true hvalid)]
  refine ⟨List.findSome?_eq_some_iff.mpr ⟨failing, o, behind, rfl, hgives, fun o' ho' => ?_⟩,
    o, by simp, hgives⟩
  exact validResponse_eq_none_of_fails (fails_of_datagram?_eq_none (hfail o' ho'))

/-- **The fallback over the upstream addresses** works exactly when no datagram that is invalid comes
before the first valid response. -/
theorem fallsBack_iff (query : Octets) (addresses : List Outcome) :
    FallsBack query addresses ↔ FirstDatagramValid query addresses := by
  cases hfirst : addresses.findSome? Outcome.datagram? with
  | none =>
    -- no address sends anything
    have hnone := List.findSome?_eq_none_iff.mp hfirst
    have hinvalid : ∀ o ∈ addresses, validResponse query o = none := fun o ho =>
      validResponse_eq_none_of_fails (fails_of_datagram?_eq_none (hnone o ho))
    refine iff_of_true ⟨?_, ?_, fun _ _ _ => hinvalid⟩ (Or.inl hinvalid)
    · intro e response h
      rw [List.findSome?_eq_none_iff.mpr hinvalid] at h
      cases h
    · intro e response h
      obtain ⟨err, herr⟩ := run_forwardUdpLoop_of_none hnone .osError e
      rw [forwardUdp, herr] at h
      cases h
  | some r =>
    have hrun := @run_forwardUdp_of_some query r addresses hfirst
    by_cases hvalid : IsValidResponse query r
    · obtain ⟨hvalidFirst, hgives⟩ := findSome?_validResponse hfirst hvalid
      rw [validateUpstreamResponse_eq_ok_iff.mpr hvalid] at hrun
      refine iff_of_true ⟨?_, ?_, ?_⟩ (Or.inr ⟨r, hfirst, hvalid⟩)
      · intro e response h
        rw [hrun]
        exact congrArg Except.ok (Option.some.inj (hvalidFirst.symm.trans h))
      · intro e response h
        rw [hrun] at h
        cases h
        exact hgives
      · intro e err h
        rw [hrun] at h
        cases h
    · -- it raises, which is right only when nothing valid comes behind
      obtain ⟨err, herr⟩ : ∃ err, validateUpstreamResponse query r = .error err := by
        cases h : validateUpstreamResponse query r with
        | error err => exact ⟨err, rfl⟩
        | ok _ => exact absurd (validateUpstreamResponse_eq_ok_iff.mp h) hvalid
      rw [herr] at hrun
      constructor
      · intro h
        exact Or.inl (h.raises_only ⟨[], []⟩ err (hrun _))
      · rintro (hinvalid | ⟨response, hsome, hv⟩)
        · refine ⟨?_, ?_, fun _ _ _ => hinvalid⟩
          · intro e response h
            rw [List.findSome?_eq_none_iff.mpr hinvalid] at h
            cases h
          · intro e response h
            rw [hrun] at h
            cases h
        · rw [hfirst] at hsome
          cases hsome
          exact absurd hv hvalid

/-- A datagram with another ID in front of a valid response. -/
theorem not_fallsBack_otherId :
    ¬ FallsBack [0x12, 0x34] [.datagram (0x99 :: 0x99 :: List.replicate 10 0),
      .datagram (0x12 :: 0x34 :: List.replicate 10 0)] := by
  intro h
  have hfirst := h.returns_first ⟨[], []⟩ (0x12 :: 0x34 :: List.replicate 10 0) (by decide)
  have hraised : ((forwardUdp [0x12, 0x34] [.datagram (0x99 :: 0x99 :: List.replicate 10 0),
      .datagram (0x12 :: 0x34 :: List.replicate 10 0)]).run ⟨[], []⟩).1
      = .error (.dnsFormatError "upstream response transaction ID does not match") := rfl
  rw [hraised] at hfirst
  cases hfirst

/-! ### The loop of `run_healthcheck` -/

end DnsFixtures
