import DnsFixtures.SessionGate

/-!
# Permits of the session gate

`run_kept`: on every run of the two accept loops and their handler threads the permits taken are those
of the admitted requests that have not finished, no release is refused, and a rejected request
neither moves the gate nor starts a thread.

The invariant has two parts.  The permits are accounted for, which is all a release needs.  And the
phase of a request tells which actions led to it (`Phase.history`): this is how a property of one
phase becomes one of the whole run.
-/

namespace DnsFixtures.Gate

open Concurrency

/-- The actions that lead a request to the phase. -/
def Phase.history : Phase → List Action
  | verifying => []
  | accessRejected => [.rejectAccess]
  | acquiring => [.permit]
  | overloadRejected => [.permit, .rejectOverload]
  | starting => [.permit, .acquire]
  | startFailed => [.permit, .acquire, .startRaises]
  | failed => [.permit, .acquire, .startRaises, .release]
  | handling => [.permit, .acquire, .start]
  | finishing outcome => [.permit, .acquire, .start, .complete outcome]
  | finished outcome => [.permit, .acquire, .start, .complete outcome, .release]

/-- What the event does with the request of index `i`. -/
def Event.on (i : Nat) : Event → Option Action
  | .act j action => if j = i then some action else none
  | .arrive _ _ => none

/-- The events in the life of a request that is not admitted. -/
def Event.quiet : Event → Bool
  | .arrive _ _ => true
  | .act _ action => action ∈ [.rejectAccess, .permit, .rejectOverload]

/-- The request was turned away, at its access check or because there was no permit. -/
def Rejected (es : List Event) (i : Nat) : Prop :=
  .act i .rejectAccess ∈ es ∨ .act i .rejectOverload ∈ es

/-- The accounts of the gate behind a run. -/
structure Kept (config : Config) (es : List Event) (s : State) : Prop where
  unfinished_eq : s.unfinished = config.maxSessions - s.gate.value
  value_le : s.gate.value ≤ config.maxSessions
  unfinished_le : s.unfinished ≤ config.maxSessions
  never_raises : ∀ i, .act i .releaseRaises ∉ es
  rejected : ∀ i action, Rejected es i → .act i action ∈ es → (Event.act i action).quiet = true
  quiet : ∀ e s', e.quiet = true → Step config s e s' →
    s'.gate = s.gate ∧ s'.threads = s.threads

/-! ### One action -/

section

variable {config : Config} {address : IPAddress} {gate gate' : BoundedSemaphore}
  {phase phase' : Phase} {action : Action}

theorem Acts.history_eq (h : Acts config address gate phase action gate' phase')
    (hne : action ≠ .releaseRaises) : phase'.history = phase.history ++ [action] := by
  cases h with
  | releaseFailedRaises => exact absurd rfl hne
  | releaseRaises => exact absurd rfl hne
  | _ => rfl

/-- Only who holds a permit gives one back. -/
theorem Acts.unfinished_of_raises (h : Acts config address gate phase .releaseRaises gate' phase') :
    phase.unfinished = true ∧ gate.release = none := by
  cases h with
  | releaseFailedRaises hrelease => exact ⟨rfl, hrelease⟩
  | releaseRaises _ hrelease => exact ⟨rfl, hrelease⟩

variable {requests : List Request} {i : Nat} {r : Request}

/-- **Step lemma**: an action keeps the accounts, and a release is never refused. -/
theorem Acts.accounted (h : Acts config address gate r.phase action gate' phase')
    (hr : requests[i]? = some r)
    (haccounted : Accounted (fun r : Request => r.phase.unfinished) gate requests) :
    action ≠ .releaseRaises ∧ gate'.initial = gate.initial ∧
      Accounted (fun r : Request => r.phase.unfinished) gate'
        (requests.set i { r with phase := phase' }) := by
  have hraises : action ≠ .releaseRaises := by
    rintro rfl
    obtain ⟨hholds, hnone⟩ := h.unfinished_of_raises
    exact haccounted.release_ne_none hr hholds hnone
  refine ⟨hraises, ?_⟩
  generalize hphase : r.phase = phase at h
  -- most actions neither take a permit nor give one back
  have hset : ∀ p : Phase, p.unfinished = phase.unfinished →
      Accounted (fun r : Request => r.phase.unfinished) gate (requests.set i { r with phase := p }) :=
    fun p hp => haccounted.set hr (by rw [hphase, hp])
  cases h with
  | rejectAccess => exact ⟨rfl, hset _ rfl⟩
  | permit => exact ⟨rfl, hset _ rfl⟩
  | rejectOverload hacquire =>
    rw [BoundedSemaphore.eq_of_acquire_false hacquire]
    exact ⟨rfl, hset _ rfl⟩
  | acquire hacquire =>
    exact ⟨(BoundedSemaphore.of_acquire_true hacquire).1,
      haccounted.acquire hr (by rw [hphase]; rfl) rfl hacquire⟩
  | start => exact ⟨rfl, hset _ rfl⟩
  | startRaises => exact ⟨rfl, hset _ rfl⟩
  | complete => exact ⟨rfl, hset _ rfl⟩
  | releaseFailed hrelease =>
    exact ⟨(BoundedSemaphore.of_release hrelease).1,
      haccounted.release hr (by rw [hphase]; rfl) rfl hrelease⟩
  | release _ hrelease =>
    exact ⟨(BoundedSemaphore.of_release hrelease).1,
      haccounted.release hr (by rw [hphase]; rfl) rfl hrelease⟩
  | releaseFailedRaises => exact absurd rfl hraises
  | releaseRaises => exact absurd rfl hraises

/-- An action on a request that is not admitted leaves the gate and its thread alone. -/
theorem Acts.of_quiet (h : Acts config address gate phase action gate' phase')
    (hquiet : (Event.act i action).quiet = true) :
    gate' = gate ∧ phase'.hasThread = phase.hasThread := by
  cases h with
  | rejectAccess => exact ⟨rfl, rfl⟩
  | permit => exact ⟨rfl, rfl⟩
  | rejectOverload hacquire => exact ⟨BoundedSemaphore.eq_of_acquire_false hacquire, rfl⟩
  | _ => exact absurd hquiet (by simp [Event.quiet])

end

/-! ### Runs -/

/-- The invariant of the runs. -/
structure Invariant (config : Config) (es : List Event) (s : State) : Prop where
  initial : s.gate.initial = config.maxSessions
  accounted : Accounted (fun r : Request => r.phase.unfinished) s.gate s.requests
  history : ∀ i, es.filterMap (Event.on i)
    = ((s.requests[i]?).map fun r => r.phase.history).getD []

section

variable {config : Config} {es : List Event} {s s' : State} {e : Event}

theorem Invariant.step (h : Invariant config es s) (hstep : Step config s e s') :
    Invariant config (es ++ [e]) s' := by
  cases hstep with
  | arrive transport address =>
    refine ⟨h.initial, h.accounted.concat rfl, fun i => ?_⟩
    rw [List.filterMap_append, h.history i, List.getElem?_append]
    -- the new request has no history
    split_ifs with hlt
    · exact List.append_nil _
    · rw [List.getElem?_eq_none (Nat.le_of_not_lt hlt), List.getElem?_singleton]
      split_ifs <;> rfl
  | @act i r action gate' phase hr hacts =>
    obtain ⟨hne, hinitial, haccounted⟩ := hacts.accounted hr h.accounted
    refine ⟨hinitial.trans h.initial, haccounted, fun j => ?_⟩
    rw [List.filterMap_append, h.history j, List.getElem?_set]
    obtain ⟨hlt, -⟩ := List.getElem?_eq_some_iff.mp hr
    by_cases hij : i = j
    · subst hij
      rw [if_pos rfl, if_pos hlt, hr]
      have hon : [Event.act i action].filterMap (Event.on i) = [action] := by simp [Event.on]
      rw [hon]
      exact (hacts.history_eq hne).symm
    · have hon : [Event.act i action].filterMap (Event.on j) = [] := by simp [Event.on, hij]
      rw [if_neg hij, hon, List.append_nil]

/-- **Run lemma.** -/
theorem Run.invariant (h : Run config es s) : Invariant config es s := by
  induction h with
  | nil => exact ⟨rfl, Accounted.ofInitial config.maxSessions, fun i => rfl⟩
  | snoc _ hstep ih => exact ih.step hstep

/-- Each action on a request is in the history of its phase. -/
theorem Invariant.mem_history (h : Invariant config es s) {i : Nat} {action : Action}
    (hmem : .act i action ∈ es) : ∃ r, s.requests[i]? = some r ∧ action ∈ r.phase.history := by
  have hon : action ∈ es.filterMap (Event.on i) :=
    List.mem_filterMap.mpr ⟨_, hmem, by simp [Event.on]⟩
  rw [h.history i] at hon
  cases hr : s.requests[i]? with
  | none =>
    rw [hr] at hon
    cases hon
  | some r =>
    rw [hr] at hon
    exact ⟨r, rfl, hon⟩

theorem releaseRaises_not_mem_history (phase : Phase) : .releaseRaises ∉ phase.history := by
  cases phase <;> simp [Phase.history]

/-- What a rejected request went through. -/
theorem quiet_of_rejected {phase : Phase}
    (h : .rejectAccess ∈ phase.history ∨ .rejectOverload ∈ phase.history) {i : Nat} :
    ∀ action ∈ phase.history, (Event.act i action).quiet = true := by
  cases phase with
  | accessRejected => simp [Phase.history, Event.quiet]
  | overloadRejected => simp [Phase.history, Event.quiet]
  | _ => simp [Phase.history] at h

/-- A quiet event leaves the gate alone and starts no thread. -/
theorem Step.of_quiet (hstep : Step config s e s') (hquiet : e.quiet = true) :
    s'.gate = s.gate ∧ s'.threads = s.threads := by
  cases hstep with
  | arrive transport address =>
    refine ⟨rfl, ?_⟩
    unfold State.threads
    rw [List.countP_append, List.countP_singleton]
    rfl
  | @act i r action gate' phase hr hacts =>
    obtain ⟨hgate, hthread⟩ := hacts.of_quiet hquiet
    refine ⟨hgate, ?_⟩
    unfold State.threads
    rw [countP_set_getElem? hr, hthread]
    cases hr' : r.phase.hasThread with
    | false => rfl
    | true =>
      have hpos : 0 < s.requests.countP fun r => r.phase.hasThread :=
        List.countP_pos_iff.mpr ⟨r, List.mem_of_getElem? hr, hr'⟩
      rw [if_pos rfl]
      omega

/-- **The session gate keeps its accounts** on every run: the permits taken are those of the admitted
requests whose handler thread has not finished, the semaphore never refuses a release, and whoever
is rejected leaves no trace at the gate. -/
theorem run_kept (h : Run config es s) : Kept config es s := by
  have hinv := h.invariant
  have hsum : s.unfinished + s.gate.value = config.maxSessions := hinv.accounted.trans hinv.initial
  refine ⟨by omega, by omega, by omega, fun i hmem => ?_, fun i action hrejected hmem => ?_,
    fun e s' hquiet hstep => hstep.of_quiet hquiet⟩
  · obtain ⟨r, -, hhistory⟩ := hinv.mem_history hmem
    exact releaseRaises_not_mem_history r.phase hhistory
  · obtain ⟨r, hr, hhistory⟩ := hinv.mem_history hmem
    refine quiet_of_rejected ?_ action hhistory
    rcases hrejected with hmem' | hmem'
    · obtain ⟨r', hr', hhistory'⟩ := hinv.mem_history hmem'
      rw [hr] at hr'
      cases hr'
      exact Or.inl hhistory'
    · obtain ⟨r', hr', hhistory'⟩ := hinv.mem_history hmem'
      rw [hr] at hr'
      cases hr'
      exact Or.inr hhistory'

end

/-- One permit, taken by a request whose thread then cannot be started, while the other server turns
a request away. -/
def overloadEvents : List Event :=
  [.arrive .tcp (.v4 0x7F000001), .arrive .udp (.v6 1), .act 0 .permit, .act 0 .acquire,
    .act 1 .permit, .act 1 .rejectOverload, .act 0 .startRaises, .act 0 .release]

theorem run_kept_overload : Kept ⟨1, LOOPBACK_CLIENTS⟩ overloadEvents
    ⟨.ofInitial 1, [⟨.tcp, .v4 0x7F000001, .failed⟩, ⟨.udp, .v6 1, .overloadRejected⟩]⟩ := by
  let config : Config := ⟨1, LOOPBACK_CLIENTS⟩
  let taken : BoundedSemaphore := ⟨1, 0, by decide⟩
  let tcp (phase : Phase) : Request := ⟨.tcp, .v4 0x7F000001, phase⟩
  let udp (phase : Phase) : Request := ⟨.udp, .v6 1, phase⟩
  have h2 : Run config (overloadEvents.take 2) ⟨.ofInitial 1, [tcp .verifying, udp .verifying]⟩ :=
    .snoc (.snoc .nil (.arrive .tcp (.v4 0x7F000001) (by simp [State.initial])))
      (.arrive .udp (.v6 1) (by simp [State.initial]))
  have h4 : Run config (overloadEvents.take 4) ⟨taken, [tcp .starting, udp .verifying]⟩ :=
    .snoc (.snoc h2 (.act (r := tcp .verifying) rfl (.permit (by decide))))
      (.act (r := tcp .acquiring) rfl (.acquire rfl))
  have h6 : Run config (overloadEvents.take 6) ⟨taken, [tcp .starting, udp .overloadRejected]⟩ :=
    .snoc (.snoc h4 (.act (r := udp .verifying) rfl (.permit (by decide))))
      (.act (r := udp .acquiring) rfl (.rejectOverload rfl))
  exact run_kept (.snoc (.snoc h6 (.act (r := tcp .starting) rfl .startRaises))
    (.act (r := tcp .startFailed) rfl (.releaseFailed rfl)))

end DnsFixtures.Gate
