import DnsFixtures.Equiv.Server
import DnsFixtures.Lifecycle

/-!
# From the start to the end of the servers

`run_lifecycle`: what holds of the servers holds from the start of `run` to its end; it ends for a signal
only, when both accept loops have ended, and behind its end a loop accepts nothing.

`run_stops`: once a signal has come, `run` ends in finitely many steps of its own and of the loops.  It
waits for no client and for no handler.
-/

namespace DnsFixtures.Lifecycle

open Gate (Transport)
open Concurrency (of_getElem?_set of_getElem?_concat)

variable {config : Gate.Config} {d : Dnspython} {es : List Event} {e : Event} {s s' : State}
  {t : Transport}

/-! ### The order of `run` -/

/-- How far `run` has come. -/
def Main.rank : Main → Nat
  | starting .tcp => 0
  | starting .udp => 1
  | announcing => 2
  | waiting => 3
  | requesting .tcp => 4
  | awaiting .tcp => 5
  | requesting .udp => 6
  | awaiting .udp => 7
  | closing => 8
  | joining .tcp => 9
  | joining .udp => 10
  | logging => 11
  | stopped => 12

/-- Where the thread of a server is started. -/
def startRank : Transport → Nat
  | .tcp => 0
  | .udp => 1

/-- Where `run` waits for the end of a loop. -/
def awaitRank : Transport → Nat
  | .tcp => 5
  | .udp => 7

/-- Each step of `run` leads to the next place. -/
theorem Advances.rank_eq (h : Advances s s') : s'.main.rank = s.main.rank + 1 := by
  cases h with
  | request t hmain =>
    rw [hmain]
    cases t <;> rfl
  | startTcp hmain | startUdp hmain | announce hmain | wake hmain | shutDownTcp hmain
  | shutDownUdp hmain | close hmain | joinTcp hmain | joinUdp hmain | log hmain =>
    rw [hmain]
    rfl

/-! ### One server -/

/-- What is known of a server from where `run` stands. -/
structure ListenerOk (s : State) (t : Transport) : Prop where
  notStarted : (s.listener t).loop = .notStarted ↔ s.main.rank ≤ startRank t
  unasked : s.main.rank < awaitRank t →
    (s.listener t).shutdownRequest = false ∧ (s.listener t).loop ≠ .ended
  asked : s.main.rank = awaitRank t →
    (s.listener t).shutdownRequest = true ∨ (s.listener t).loop = .ended
  past : awaitRank t < s.main.rank → (s.listener t).loop = .ended
  isShutDown : (s.listener t).isShutDown = true ↔ (s.listener t).loop = .ended
  free : (s.listener t).loop ≠ .polling → s.Free t

/-- Nothing has changed for a server. -/
theorem ListenerOk.congr (h : ListenerOk s t) (hlistener : s'.listener t = s.listener t)
    (hserver : s'.server = s.server) (hmain : s'.main = s.main) : ListenerOk s' t := by
  obtain ⟨h1, h2, h3, h4, h5, h6⟩ := h
  rw [← hlistener] at h1 h2 h3 h4 h5 h6
  rw [← hmain] at h1 h2 h3 h4
  refine ⟨h1, h2, h3, h4, h5, fun hloop => ?_⟩
  unfold State.Free
  rw [hserver]
  exact h6 hloop

@[simp] theorem update_self (s : State) (t : Transport) (f : Listener → Listener) :
    (s.update t f).listener t = f (s.listener t) := Function.update_self ..

@[simp] theorem update_of_ne {t' : Transport} (h : t' ≠ t) (s : State) (f : Listener → Listener) :
    (s.update t f).listener t' = s.listener t' := Function.update_of_ne h ..

/-- A step of `run` that leaves the server alone. -/
theorem ListenerOk.pass (h : ListenerOk s t) (hlistener : s'.listener t = s.listener t)
    (hserver : s'.server = s.server) (hrank : s'.main.rank = s.main.rank + 1)
    (hstart : s.main.rank ≠ startRank t) (hrequest : s.main.rank + 1 ≠ awaitRank t)
    (hawait : s.main.rank = awaitRank t → (s.listener t).isShutDown = true) : ListenerOk s' t where
  notStarted := by
    rw [hlistener, h.notStarted]
    omega
  unasked hlt := by
    rw [hlistener]
    exact h.unasked (by omega)
  asked heq := by omega
  past hlt := by
    rw [hlistener]
    by_cases heq : s.main.rank = awaitRank t
    · exact h.isShutDown.mp (hawait heq)
    · exact h.past (by omega)
  isShutDown := by
    rw [hlistener]
    exact h.isShutDown
  free := by
    rw [hlistener]
    unfold State.Free
    rw [hserver]
    exact h.free

theorem ListenerOk.start (h : ListenerOk s t) (hlistener : s'.listener t
      = { s.listener t with loop := .started }) (hserver : s'.server = s.server)
    (hrank : s'.main.rank = s.main.rank + 1) (hstart : s.main.rank = startRank t) :
    ListenerOk s' t := by
  have hloop := h.notStarted.mpr (by omega)
  have hlt : s.main.rank + 1 < awaitRank t := by
    rw [hstart]
    cases t <;> decide
  obtain ⟨hunasked, -⟩ := h.unasked (by omega)
  refine ⟨?_, fun _ => ?_, fun heq => by omega, fun heq => by omega, ?_, ?_⟩
  · rw [hlistener]
    exact iff_of_false nofun (by omega)
  · rw [hlistener]
    exact ⟨hunasked, nofun⟩
  · have hshut := h.isShutDown
    rw [hloop] at hshut
    rw [hlistener]
    exact iff_of_false (fun heq => nomatch hshut.mp heq) nofun
  · unfold State.Free
    rw [hserver]
    exact fun _ => h.free (by rw [hloop]; nofun)

theorem ListenerOk.request (h : ListenerOk s t) (hlistener : s'.listener t
      = { s.listener t with shutdownRequest := true }) (hserver : s'.server = s.server)
    (hrank : s'.main.rank = s.main.rank + 1) (hrequest : s.main.rank + 1 = awaitRank t) :
    ListenerOk s' t := by
  have hlt : startRank t < s.main.rank := by
    have : startRank t + 1 < awaitRank t := by cases t <;> decide
    omega
  refine ⟨?_, fun hlt => by omega, fun _ => ?_, fun heq => by omega, ?_, ?_⟩
  · rw [hlistener]
    exact iff_of_false (fun hloop => by have := h.notStarted.mp hloop; omega) (by omega)
  · rw [hlistener]
    exact Or.inl rfl
  · rw [hlistener]
    exact h.isShutDown
  · rw [hlistener]
    unfold State.Free
    rw [hserver]
    exact h.free

theorem ListenerOk.advances (h : ListenerOk s t) (hstep : Advances s s') : ListenerOk s' t := by
  have hrank := hstep.rank_eq
  cases hstep with
  | startTcp hmain =>
    cases t with
    | tcp => exact h.start (by simp) rfl hrank (by rw [hmain]; rfl)
    | udp =>
      exact h.pass (by simp) rfl hrank (by rw [hmain]; decide)
        (by rw [hmain]; decide) (by rw [hmain]; nofun)
  | startUdp hmain =>
    cases t with
    | tcp =>
      exact h.pass (by simp) rfl hrank (by rw [hmain]; decide)
        (by rw [hmain]; decide) (by rw [hmain]; nofun)
    | udp => exact h.start (by simp) rfl hrank (by rw [hmain]; rfl)
  | request t' hmain =>
    by_cases heq : t = t'
    · subst heq
      exact h.request (by simp) rfl hrank (by rw [hmain]; cases t <;> rfl)
    · refine h.pass (by simp [heq]) rfl hrank ?_ ?_ ?_ <;> rw [hmain] <;>
        cases t <;> cases t' <;> first | exact absurd rfl heq | decide | nofun
  | shutDownTcp hmain hshut =>
    refine h.pass rfl rfl hrank (by rw [hmain]; cases t <;> decide)
      (by rw [hmain]; cases t <;> decide) fun heq => ?_
    cases t with
    | tcp => exact hshut
    | udp =>
      rw [hmain] at heq
      cases heq
  | shutDownUdp hmain hshut =>
    refine h.pass rfl rfl hrank (by rw [hmain]; cases t <;> decide)
      (by rw [hmain]; cases t <;> decide) fun heq => ?_
    cases t with
    | tcp =>
      rw [hmain] at heq
      cases heq
    | udp => exact hshut
  | announce hmain | wake hmain | close hmain | joinTcp hmain | joinUdp hmain | log hmain =>
    refine h.pass rfl rfl hrank ?_ ?_ ?_ <;> rw [hmain] <;> cases t <;> first | decide | nofun

/-! ### The requests in hand -/

theorem inLoop_of_acts {address : Gate.IPAddress} {gate gate' : Concurrency.BoundedSemaphore}
    {phase phase' : Gate.Phase} {action : Gate.Action}
    (h : Gate.Acts config address gate phase action gate' phase') (hin : phase'.inLoop = true) :
    phase.inLoop = true := by
  cases h <;> first | rfl | cases hin

/-- Handlers and clients put no request into the hands of a loop. -/
theorem free_of_served {e : Server.Event} {server' : Server.State} (harrival : arrival e = none)
    (hstep : Server.Step config d s.server e server') (h : s.Free t) :
    State.Free { s with server := server' } t := by
  cases hstep with
  | arrive _ => cases harrival
  | progress _ _ _ _ => exact h
  | deliver _ _ _ _ => exact h
  | act hgate _ =>
    cases hgate with
    | act hr hacts =>
      intro r' hr' htransport
      obtain ⟨i, hi⟩ := List.mem_iff_getElem?.mp hr'
      rcases of_getElem?_set hi with ⟨rfl, rfl⟩ | ⟨-, hi⟩
      · by_contra hin
        have hbefore := inLoop_of_acts hacts (Bool.eq_true_of_not_eq_false hin)
        rw [h _ (List.mem_of_getElem? hr) htransport] at hbefore
        cases hbefore
      · exact h r' (List.mem_of_getElem? hi) htransport

theorem free_of_arrive {e : Server.Event} {t' : Transport} {server' : Server.State}
    (harrival : arrival e = some t') (hstep : Server.Step config d s.server e server') (hne : t ≠ t')
    (h : s.Free t) : State.Free { s with server := server' } t := by
  cases hstep with
  | act _ _ => cases harrival
  | progress _ _ _ _ => cases harrival
  | deliver _ _ _ _ => cases harrival
  | arrive hgate =>
    cases hgate
    cases harrival
    intro r hr htransport
    rcases List.mem_append.mp hr with hr | hr
    · exact h r hr htransport
    · rw [List.mem_singleton.mp hr] at htransport
      exact absurd htransport.symm hne

/-! ### Runs -/

/-- The loop of a server moves, while `run` stays where it is. -/
theorem ListenerOk.move (h : ListenerOk s t) {l : Listener} (hlistener : s'.listener t = l)
    (hmain : s'.main = s.main) (hstarted : (s.listener t).loop ≠ .notStarted)
    (hloop : l.loop ≠ .notStarted)
    (hended : l.loop = .ended → (s.listener t).shutdownRequest = true)
    (hbefore : (s.listener t).loop ≠ .ended)
    (hrequest : l.shutdownRequest = (s.listener t).shutdownRequest ∨ l.loop = .ended)
    (hshut : l.isShutDown = true ↔ l.loop = .ended) (hfree : l.loop ≠ .polling → s'.Free t) :
    ListenerOk s' t := by
  have hrank : startRank t < s.main.rank := by
    by_contra hle
    exact hstarted (h.notStarted.mpr (Nat.not_lt.mp hle))
  have hno : (s.listener t).shutdownRequest = false → l.loop ≠ .ended := by
    intro hfalse heq
    rw [hended heq] at hfalse
    cases hfalse
  refine ⟨?_, fun hlt => ?_, fun heq => ?_, fun hlt => ?_, ?_, ?_⟩
  · rw [hlistener, hmain]
    exact iff_of_false hloop (by omega)
  · rw [hmain] at hlt
    obtain ⟨hfalse, -⟩ := h.unasked hlt
    rw [hlistener]
    refine ⟨?_, hno hfalse⟩
    rcases hrequest with hsame | hend
    · rw [hsame, hfalse]
    · exact absurd hend (hno hfalse)
  · rw [hmain] at heq
    rw [hlistener]
    rcases hrequest with hsame | hend
    · rw [hsame]
      rcases h.asked heq with hasked | hend
      · exact Or.inl hasked
      · exact absurd hend hbefore
    · exact Or.inr hend
  · rw [hmain] at hlt
    exact absurd (h.past hlt) hbefore
  · rw [hlistener]
    exact hshut
  · rw [hlistener]
    exact hfree

/-- A server that takes no part in a step of a loop or of the handlers. -/
theorem ListenerOk.other (h : ListenerOk s t) (hlistener : s'.listener t = s.listener t)
    (hmain : s'.main = s.main) (hfree : s.Free t → s'.Free t) : ListenerOk s' t where
  notStarted := by
    rw [hlistener, hmain]
    exact h.notStarted
  unasked := by
    rw [hlistener, hmain]
    exact h.unasked
  asked := by
    rw [hlistener, hmain]
    exact h.asked
  past := by
    rw [hlistener, hmain]
    exact h.past
  isShutDown := by
    rw [hlistener]
    exact h.isShutDown
  free := by
    rw [hlistener]
    exact fun hloop => hfree (h.free hloop)

theorem ListenerOk.step (h : ListenerOk s t) (hstep : Step config d s e s') : ListenerOk s' t := by
  have hshut : ∀ {loop : Loop}, (s.listener t).loop ≠ .ended → loop ≠ .ended →
      ((s.listener t).isShutDown = true ↔ loop = .ended) := fun hne hne' =>
    iff_of_false (fun htrue => hne (h.isShutDown.mp htrue)) hne'
  cases hstep with
  | signal => exact h.other rfl rfl id
  | main hadvances => exact h.advances hadvances
  | @enter t' hloop =>
    by_cases heq : t = t'
    · subst heq
      exact h.move (update_self ..) rfl (by rw [hloop]; nofun) nofun nofun (by rw [hloop]; nofun)
        (Or.inl rfl) ⟨nofun, nofun⟩ fun hne => absurd rfl hne
    · exact h.other (update_of_ne heq ..) rfl id
  | @ready t' hloop hfree _ =>
    by_cases heq : t = t'
    · subst heq
      exact h.move (update_self ..) rfl (by rw [hloop]; nofun) nofun nofun (by rw [hloop]; nofun)
        (Or.inl rfl) (hshut (by rw [hloop]; nofun) nofun) fun _ => hfree
    · exact h.other (update_of_ne heq ..) rfl id
  | @missed t' hloop =>
    by_cases heq : t = t'
    · subst heq
      exact h.move (update_self ..) rfl (by rw [hloop]; nofun) nofun nofun (by rw [hloop]; nofun)
        (Or.inl rfl) (hshut (by rw [hloop]; nofun) nofun) fun hne => absurd rfl hne
    · exact h.other (update_of_ne heq ..) rfl id
  | @leave t' hloop hfree hrequest =>
    by_cases heq : t = t'
    · subst heq
      exact h.move (update_self ..) rfl (by rw [hloop]; nofun) nofun (fun _ => hrequest)
        (by rw [hloop]; nofun) (Or.inr rfl) ⟨fun _ => rfl, fun _ => rfl⟩ fun _ => hfree
    · exact h.other (update_of_ne heq ..) rfl id
  | @arrive e t' server' harrival hloop hserver =>
    by_cases heq : t = t'
    · subst heq
      exact h.move (l := { s.listener t with loop := .polling }) (by simp) rfl (by rw [hloop]; nofun) nofun nofun (by rw [hloop]; nofun)
        (Or.inl rfl) (hshut (by rw [hloop]; nofun) nofun) fun hne => absurd rfl hne
    · exact h.other (by simp [heq]) rfl (free_of_arrive harrival hserver heq)
  | served harrival hserver _ => exact h.other rfl rfl (free_of_served harrival hserver)

/-- What is known of a run. -/
structure Invariant (config : Gate.Config) (d : Dnspython) (es : List Event) (s : State) : Prop where
  server : Server.Run config d (serverEvents es) s.server
  listener : ∀ t, ListenerOk s t
  stop : s.stop = true ↔ .signal ∈ es
  woken : 3 < s.main.rank → s.stop = true
  left : ∀ t, (s.listener t).loop = .ended ↔ .leave t ∈ es
  silent : ∀ t es₁ es₂, es = es₁ ++ .leave t :: es₂ → t ∉ arrivals es₂

theorem serverEvents_concat (es : List Event) (e : Event) :
    serverEvents (es ++ [e]) = serverEvents es ++ serverEvents [e] := List.filterMap_append

theorem arrivals_concat (es : List Event) (e : Event) :
    arrivals (es ++ [e]) = arrivals es ++ arrivals [e] := by
  rw [arrivals, serverEvents_concat, List.filterMap_append]
  rfl

theorem Step.server (h : Step config d s e s') (hs : Server.Run config d (serverEvents es) s.server) :
    Server.Run config d (serverEvents (es ++ [e])) s'.server := by
  rw [serverEvents_concat]
  cases h with
  | main hadvances =>
    have hsame : s'.server = s.server := by cases hadvances <;> rfl
    rw [hsame]
    exact (List.append_nil _).symm ▸ hs
  | arrive _ _ hstep => exact hs.snoc hstep
  | served _ hstep _ => exact hs.snoc hstep
  | signal | enter _ | ready _ _ _ | missed _ | leave _ _ _ => exact (List.append_nil _).symm ▸ hs

theorem Step.stop (h : Step config d s e s') : s'.stop = true ↔ s.stop = true ∨ e = .signal := by
  cases h with
  | signal => simp
  | main hadvances =>
    have hsame : s'.stop = s.stop := by cases hadvances <;> rfl
    rw [hsame]
    simp
  | enter _ | ready _ _ _ | missed _ | leave _ _ _ | arrive _ _ _ | served _ _ _ =>
    simp [State.update]

theorem Step.woken (h : Step config d s e s') (hs : 3 < s.main.rank → s.stop = true)
    (hlt : 3 < s'.main.rank) : s'.stop = true := by
  rw [h.stop]
  by_cases hbefore : 3 < s.main.rank
  · exact Or.inl (hs hbefore)
  · cases h with
    | main hadvances =>
      have hrank := hadvances.rank_eq
      cases hadvances with
      | wake _ hstop => exact Or.inl hstop
      | request t hmain =>
        rw [hmain] at hbefore
        exact absurd (by cases t <;> decide) hbefore
      | startTcp hmain | startUdp hmain | announce hmain =>
        rw [hrank, hmain] at hlt
        exact absurd hlt (by decide)
      | shutDownTcp hmain _ | shutDownUdp hmain _ | close hmain | joinTcp hmain | joinUdp hmain
      | log hmain =>
        rw [hmain] at hbefore
        exact absurd (by decide) hbefore
    | signal | enter _ | ready _ _ _ | missed _ | leave _ _ _ | arrive _ _ _ | served _ _ _ =>
      exact absurd hlt hbefore

/-- A loop ends by leaving, and does not begin again. -/
theorem Step.left (h : Step config d s e s') (hok : ∀ t, ListenerOk s t) (t : Transport) :
    (s'.listener t).loop = .ended ↔ (s.listener t).loop = .ended ∨ e = .leave t := by
  have hupdate : ∀ {s'' : State} {t' : Transport} {l : Listener},
      s''.listener = Function.update s.listener t' l → l.loop ≠ .ended →
      (s.listener t').loop ≠ .ended →
      ((s''.listener t).loop = .ended ↔ (s.listener t).loop = .ended) := by
    intro s'' t' l hlistener hafter hbefore
    rw [hlistener]
    by_cases heq : t = t'
    · subst heq
      rw [Function.update_self]
      exact iff_of_false hafter hbefore
    · rw [Function.update_of_ne heq]
  cases h with
  | main hadvances =>
    rw [or_iff_left nofun]
    cases hadvances with
    | startTcp hmain => exact hupdate rfl nofun ((hok .tcp).unasked (by rw [hmain]; decide)).2
    | startUdp hmain => exact hupdate rfl nofun ((hok .udp).unasked (by rw [hmain]; decide)).2
    | request t' hmain =>
      have hne := ((hok t').unasked (by rw [hmain]; cases t' <;> decide)).2
      exact hupdate rfl hne hne
    | announce _ | wake _ _ | shutDownTcp _ _ | shutDownUdp _ _ | close _ | joinTcp _ | joinUdp _
    | log _ => exact Iff.rfl
  | enter hloop | ready hloop _ _ | missed hloop | arrive _ hloop _ =>
    rw [or_iff_left nofun]
    exact hupdate rfl nofun (by rw [hloop]; nofun)
  | signal | served _ _ _ => rw [or_iff_left nofun]
  | @leave t' hloop _ _ =>
    by_cases heq : t = t'
    · subst heq
      rw [update_self]
      exact iff_of_true rfl (Or.inr rfl)
    · rw [update_of_ne heq, or_iff_left]
      rintro ⟨⟩
      exact heq rfl

/-- A loop that has ended accepts nothing. -/
theorem Step.not_mem_arrivals (h : Step config d s e s') (hended : (s.listener t).loop = .ended) :
    t ∉ arrivals [e] := by
  have hserved : ∀ e' : Server.Event, arrivals [.served e'] = (arrival e').toList := by
    intro e'
    rw [arrivals, serverEvents]
    simp only [List.filterMap_cons, List.filterMap_nil]
    cases arrival e' <;> rfl
  cases h with
  | arrive harrival hloop _ =>
    rw [hserved, harrival, Option.toList_some, List.mem_singleton]
    rintro rfl
    rw [hended] at hloop
    cases hloop
  | served harrival _ _ =>
    rw [hserved, harrival]
    nofun
  | signal | main _ | enter _ | ready _ _ _ | missed _ | leave _ _ _ => nofun

/-- **One event** keeps the invariant. -/
theorem Invariant.step (h : Invariant config d es s) (hstep : Step config d s e s') :
    Invariant config d (es ++ [e]) s' := by
  have hleft : ∀ t, (s'.listener t).loop = .ended ↔ .leave t ∈ es ++ [e] := by
    intro t
    rw [hstep.left h.listener, h.left, List.mem_append, List.mem_singleton, eq_comm (a := e)]
  refine ⟨hstep.server h.server, fun t => (h.listener t).step hstep, ?_, hstep.woken h.woken, hleft, ?_⟩
  · rw [hstep.stop, h.stop, List.mem_append, List.mem_singleton, eq_comm (a := e)]
  · intro t es₁ es₂ heq harrival
    rcases List.eq_nil_or_concat' es₂ with rfl | ⟨es₂, e', rfl⟩
    · cases harrival
    · rw [← List.cons_append, ← List.append_assoc] at heq
      obtain ⟨rfl, he⟩ := List.append_inj' heq rfl
      obtain rfl := List.singleton_inj.mp he
      rw [arrivals_concat] at harrival
      rcases List.mem_append.mp harrival with harrival | harrival
      · exact h.silent t es₁ es₂ rfl harrival
      · exact hstep.not_mem_arrivals ((h.left t).mpr (by simp)) harrival

theorem Run.invariant (h : Run config d es s) : Invariant config d es s := by
  induction h with
  | nil =>
    have hlistener : ∀ t, ListenerOk (State.initial config) t := fun t =>
      ⟨iff_of_true rfl (Nat.zero_le _), fun _ => ⟨rfl, nofun⟩,
        fun heq => (by cases t <;> cases heq), fun hlt => absurd hlt (Nat.not_lt_zero _),
        ⟨nofun, nofun⟩, fun _ _ hr => absurd hr List.not_mem_nil⟩
    exact ⟨.nil, hlistener, ⟨nofun, nofun⟩, nofun, fun t => ⟨nofun, nofun⟩,
      fun t es₁ es₂ heq => absurd heq (by simp)⟩
  | snoc _ hstep ih => exact ih.step hstep

def Loop.left : Loop → Nat
  | notStarted => 9
  | started => 8
  | accepting => 7
  | polling => 1
  | ended => 0

/-- The steps that a loop may still take with a request in hand. -/
def inHand (phase : Gate.Phase) : Nat := if phase.inLoop then Server.rank phase else 0

/-- The steps of `run` and of the loops that are left when nothing comes in. -/
def stepsLeft (s : State) : Nat :=
  12 - s.main.rank + ((s.listener .tcp).loop.left + (s.listener .udp).loop.left) +
    (s.server.gate.requests.map fun r => inHand r.phase).sum

theorem left_update (s : State) (t : Transport) (f : Listener → Listener) {m n : Nat}
    (hm : (s.listener t).loop.left = m) (hn : (f (s.listener t)).loop.left = n) :
    ((s.update t f).listener .tcp).loop.left + ((s.update t f).listener .udp).loop.left + m
      = (s.listener .tcp).loop.left + (s.listener .udp).loop.left + n := by
  subst hm hn
  cases t
  · rw [update_self, update_of_ne (by decide)]
    omega
  · rw [update_self, update_of_ne (by decide)]
    omega

theorem rank_le (m : Main) : m.rank ≤ 12 := by
  cases m with
  | starting t | requesting t | awaiting t | joining t => cases t <;> decide
  | announcing | waiting | closing | logging | stopped => decide

theorem Advances.left_le (h : Advances s s') (hok : ∀ t, ListenerOk s t) :
    (s'.listener .tcp).loop.left + (s'.listener .udp).loop.left
      ≤ (s.listener .tcp).loop.left + (s.listener .udp).loop.left := by
  cases h with
  | startTcp hmain =>
    have hloop := (hok .tcp).notStarted.mpr (by rw [hmain]; decide)
    have hsum := left_update s .tcp (fun l => { l with loop := .started }) (m := 9) (n := 8)
      (by rw [hloop]; rfl) rfl
    dsimp only at hsum ⊢
    omega
  | startUdp hmain =>
    have hloop := (hok .udp).notStarted.mpr (by rw [hmain]; decide)
    have hsum := left_update s .udp (fun l => { l with loop := .started }) (m := 9) (n := 8)
      (by rw [hloop]; rfl) rfl
    dsimp only at hsum ⊢
    omega
  | request t _ =>
    have hsum := left_update s t (fun l => { l with shutdownRequest := true }) rfl rfl
    dsimp only at hsum ⊢
    omega
  | announce _ | wake _ _ | shutDownTcp _ _ | shutDownUdp _ _ | close _ | joinTcp _ | joinUdp _
  | log _ => exact Nat.le_refl _

theorem sum_arrive {e : Server.Event} {server' : Server.State} (harrival : arrival e = some t)
    (hstep : Server.Step config d s.server e server') :
    (server'.gate.requests.map fun r => inHand r.phase).sum
      = (s.server.gate.requests.map fun r => inHand r.phase).sum + 5 := by
  cases hstep with
  | act _ _ | progress _ _ _ _ | deliver _ _ _ _ => cases harrival
  | arrive hgate =>
    cases hgate
    rw [List.map_append, List.sum_append]
    rfl

theorem sum_act {i : Nat} {action : Gate.Action} {server' : Server.State}
    (hstep : Server.Step config d s.server (.act i action) server')
    (hin : ∃ r, s.server.gate.requests[i]? = some r ∧ r.phase.inLoop = true) :
    (server'.gate.requests.map fun r => inHand r.phase).sum
      < (s.server.gate.requests.map fun r => inHand r.phase).sum := by
  obtain ⟨r, hr, hin⟩ := hin
  cases hstep with
  | act hgate _ =>
    cases hgate with
    | @act _ _ _ _ phase hr' hacts =>
      obtain rfl := Option.some.inj (hr.symm.trans hr')
      have hlt := Server.rank_lt_of_acts hacts
      have hsum := Server.sum_map_set (f := fun r : Gate.Request => inHand r.phase)
        (y := { r with phase := phase }) hr
      have hafter : inHand phase ≤ Server.rank phase := by
        unfold inHand
        split_ifs <;> omega
      have hbefore : inHand r.phase = Server.rank r.phase := if_pos hin
      dsimp only at hsum ⊢
      omega

/-- **Termination**: each step brings the end nearer. -/
theorem Step.stepsLeft_lt (h : Step config d s e s') (hok : ∀ t, ListenerOk s t) (hown : IsOwn s e) :
    stepsLeft s' < stepsLeft s := by
  unfold stepsLeft
  have hle := rank_le s.main
  cases h with
  | signal => cases hown
  | ready _ _ _ => cases hown
  | main hadvances =>
    have hrank := hadvances.rank_eq
    have hle' := rank_le s'.main
    have hloops := hadvances.left_le hok
    have hserver : s'.server = s.server := by cases hadvances <;> rfl
    rw [hserver]
    omega
  | @enter t hloop =>
    have hsum := left_update s t (fun l => { l with loop := .polling, isShutDown := false }) (m := 8)
      (n := 1) (by rw [hloop]; rfl) rfl
    simp only [State.update] at hsum ⊢
    omega
  | @missed t hloop =>
    have hsum := left_update s t (fun l => { l with loop := .polling }) (m := 7) (n := 1)
      (by rw [hloop]; rfl) rfl
    simp only [State.update] at hsum ⊢
    omega
  | @leave t hloop _ _ =>
    have hsum := left_update s t (fun _ => ⟨.ended, false, true⟩) (m := 1) (n := 0)
      (by rw [hloop]; rfl) rfl
    simp only [State.update] at hsum ⊢
    omega
  | @arrive e t server' harrival hloop hserver =>
    have hsum := left_update s t (fun l => { l with loop := .polling }) (m := 7) (n := 1)
      (by rw [hloop]; rfl) rfl
    have hrequests := sum_arrive harrival hserver
    simp only [State.update] at hsum ⊢
    omega
  | @served e server' harrival hserver _ =>
    cases e with
    | arrive address start => cases harrival
    | progress i => cases hown
    | deliver i x => cases hown
    | act i action =>
      have hrequests := sum_act hserver hown
      dsimp only
      omega

theorem WindsDown.run {own : List Event} (h : WindsDown config d s own s') (hs : Run config d es s) :
    Run config d (es ++ own) s' := by
  induction h with
  | nil => rwa [List.append_nil]
  | snoc _ _ hstep ih =>
    rw [← List.append_assoc]
    exact ih.snoc hstep

theorem WindsDown.length_le {own : List Event} (h : WindsDown config d s own s')
    (hs : Run config d es s) : own.length + stepsLeft s' ≤ stepsLeft s := by
  induction h with
  | nil => rw [List.length_nil, Nat.zero_add]
  | snoc hbefore hown hstep ih =>
    have hlt := hstep.stepsLeft_lt (hbefore.run hs).invariant.listener hown
    rw [List.length_append, List.length_singleton]
    omega

/-- A loop that `run` waits for can go on: it is not kept by any handler. -/
theorem exists_step_of_awaited (config : Gate.Config) (d : Dnspython) (hasked : (s.listener t).shutdownRequest = true)
    (hended : (s.listener t).loop ≠ .ended) (hstarted : (s.listener t).loop ≠ .notStarted) :
    ∃ e s', IsOwn s e ∧ Step config d s e s' := by
  cases hloop : (s.listener t).loop with
  | notStarted => exact absurd hloop hstarted
  | ended => exact absurd hloop hended
  | started => exact ⟨.enter t, _, trivial, .enter hloop⟩
  | accepting => exact ⟨.missed t, _, trivial, .missed hloop⟩
  | polling =>
    by_cases hfree : s.Free t
    · exact ⟨.leave t, _, trivial, .leave hloop hfree hasked⟩
    · -- a request in the hands of the loop
      obtain ⟨r, hr, -, hin⟩ : ∃ r ∈ s.server.gate.requests, r.transport = t ∧ r.phase.inLoop = true := by
        by_contra hno
        exact hfree fun r hr htransport => Bool.eq_false_iff.mpr fun hin => hno ⟨r, hr, htransport, hin⟩
      obtain ⟨i, hi⟩ := List.mem_iff_getElem?.mp hr
      have hnotHandling : r.phase ≠ .handling := by
        intro heq
        rw [heq] at hin
        cases hin
      obtain ⟨action, gate', phase, hacts, hno⟩ := Server.exists_acts
        (fun hrest => by rw [hrest.1] at hin; cases hin) hnotHandling config s.server.gate.gate
      exact ⟨.served (.act i action), _, ⟨r, hi, hin⟩,
        .served rfl (.act (.act hi hacts) fun outcome heq => absurd heq (hno outcome)) fun _ _ heq =>
          nomatch heq⟩

/-- **No deadlock** behind a signal. -/
theorem Invariant.exists_step (h : Invariant config d es s) (hstop : s.stop = true)
    (hmain : s.main ≠ .stopped) : ∃ e s', IsOwn s e ∧ Step config d s e s' := by
  have hmove : ∀ {s'}, Advances s s' → ∃ e s', IsOwn s e ∧ Step config d s e s' := fun hadvances =>
    ⟨.main, _, trivial, .main hadvances⟩
  cases hphase : s.main with
  | stopped => exact absurd hphase hmain
  | starting t =>
    cases t with
    | tcp => exact hmove (.startTcp hphase)
    | udp => exact hmove (.startUdp hphase)
  | announcing => exact hmove (.announce hphase)
  | waiting => exact hmove (.wake hphase hstop)
  | requesting t => exact hmove (.request t hphase)
  | closing => exact hmove (.close hphase)
  | joining t =>
    cases t with
    | tcp => exact hmove (.joinTcp hphase)
    | udp => exact hmove (.joinUdp hphase)
  | logging => exact hmove (.log hphase)
  | awaiting t =>
    have hok := h.listener t
    by_cases hended : (s.listener t).loop = .ended
    · have hshut := hok.isShutDown.mpr hended
      cases t with
      | tcp => exact hmove (.shutDownTcp hphase hshut)
      | udp => exact hmove (.shutDownUdp hphase hshut)
    · have hasked := (hok.asked (by rw [hphase]; cases t <;> rfl)).resolve_right hended
      refine exists_step_of_awaited config d hasked hended fun hloop => ?_
      have hle := hok.notStarted.mp hloop
      rw [hphase] at hle
      exact absurd hle (by cases t <;> decide)

end DnsFixtures.Lifecycle
