import DnsFixtures.Dialogue
import DnsFixtures.Equiv.SessionTrace

/-!
# Sessions follow the dialogue

`orderly_of_accepts` reads off the automaton what `Orderly` says, from an invariant of its phases
(`Phase.Holds`).  That the handler follows the automaton is shown with pre- and postconditions, one
`Triple` for each function of the handler.
-/

namespace DnsFixtures

open Dns Concurrency Phase

variable {d : Dnspython}

/-! ### Phases -/

namespace Phase

/-- The number of queries that may still come. -/
def toCome : Phase → Nat
  | idle n | fresh n | answered n | asked n _ _ | waiting n _ | relaying n _ => n + 2
  | batch k => k
  | closing | failed => 0

/-- The number of queries that are forwarded and not completed. -/
def outstanding : Phase → Nat
  | waiting _ _ | relaying _ _ => 1
  | _ => 0

/-- What has been forwarded, of what is to be. -/
def HasForwarded (messages wanted : List Octets) : Phase → Prop
  | idle _ | fresh _ | answered _ | waiting _ _ | relaying _ _ => messages = wanted
  | asked _ query _ => messages ++ [framed query] = wanted
  | batch _ | closing | failed => messages <+: wanted

end Phase

/-- What holds of the trace in a phase. -/
structure Phase.Holds (d : Dnspython) (trace : List Event) (φ : Phase) : Prop where
  bounded : (received trace).length + φ.toCome ≤ MAX_TCP_QUERIES + 2
  forwards : φ.HasForwarded (forwarded trace) (wanted d trace)
  completes : ∃ k ≤ 1, (loggedAs "completed" trace).length + k = (forwarded trace).length ∧
    (φ ≠ .failed → k = φ.outstanding)
  last : ∀ n query s, φ = .asked n query s → trace.getLast? = some (.received query)

section

variable {trace front behind : List Event} {e : Event} {φ ψ : Phase} {query part : Octets}
  {line : LogLine}

theorem wanted_concat_of_ne (h : received [e] = []) : wanted d (trace ++ [e]) = wanted d trace := by
  rw [wanted, received_append, h, List.append_nil, wanted]

theorem wanted_received (h : IsForwarded d query) :
    wanted d (trace ++ [.received query]) = wanted d trace ++ [framed query] := by
  have hreceived : received [.received query] = [query] := rfl
  rw [wanted, received_append, hreceived, List.filter_append, List.map_append, ← wanted,
    List.filter_cons_of_pos (by simpa using h), List.filter_nil, List.map_singleton]

theorem wanted_dropped (h : ¬ IsForwarded d query) :
    wanted d (trace ++ [.received query]) = wanted d trace := by
  have hreceived : received [.received query] = [query] := rfl
  rw [wanted, received_append, hreceived, List.filter_append, List.map_append, ← wanted,
    List.filter_cons_of_neg (by simpa using h), List.filter_nil, List.map_nil, List.append_nil]

theorem not_isForwarded (h : isFresh d query = .ok true) : ¬ IsForwarded d query := by
  rintro ⟨hfresh, -⟩
  rw [h] at hfresh
  cases hfresh

/-- A query that is read, whatever it is, keeps what is forwarded in front. -/
theorem prefix_wanted_received (trace : List Event) (query : Octets) :
    wanted d trace <+: wanted d (trace ++ [.received query]) := by
  by_cases h : IsForwarded d query
  · rw [wanted_received h]
    exact List.prefix_append _ _
  · rw [wanted_dropped h]

theorem loggedAs_concat (event : String) (h : logged [e] = []) :
    loggedAs event (trace ++ [e]) = loggedAs event trace := by
  rw [loggedAs, logged_append, h, List.append_nil, loggedAs]

theorem loggedAs_logged (event : String) : loggedAs event (trace ++ [.logged line])
    = loggedAs event trace ++ if line.event = event then [line] else [] := by
  have hlogged : logged [.logged line] = [line] := rfl
  rw [loggedAs, logged_append, hlogged, List.filter_append, ← loggedAs]
  split_ifs with h
  · rw [List.filter_cons_of_pos (by simpa using h), List.filter_nil]
  · rw [List.filter_cons_of_neg (by simpa using h), List.filter_nil]

/-- Where a query may be read nothing is outstanding and all is forwarded. -/
theorem left_cases {n : Nat} (h : φ.left = some n) : φ = .idle n ∨ φ = .answered n := by
  cases φ with
  | idle m =>
    cases h
    exact Or.inl rfl
  | answered m =>
    cases h
    exact Or.inr rfl
  | _ => cases h

/-- The invariant where a query may be read. -/
theorem Phase.Holds.idle (h : Holds d trace φ) {n : Nat} (hleft : φ.left = some n) :
    (received trace).length + (n + 2) ≤ MAX_TCP_QUERIES + 2 ∧ forwarded trace = wanted d trace ∧
      (loggedAs "completed" trace).length = (forwarded trace).length := by
  obtain ⟨k, -, hcount, hk⟩ := h.completes
  rcases left_cases hleft with rfl | rfl
  · exact ⟨h.bounded, h.forwards, by rw [← hcount, hk nofun]; rfl⟩
  · exact ⟨h.bounded, h.forwards, by rw [← hcount, hk nofun]; rfl⟩

theorem Phase.Holds.prefix_wanted (h : Holds d trace φ) : forwarded trace <+: wanted d trace := by
  have hforwards := h.forwards
  cases φ with
  | idle n | fresh n | answered n | waiting n s | relaying n s => exact hforwards ▸ List.prefix_refl _
  | asked n query s => exact ⟨_, hforwards⟩
  | batch k | closing | failed => exact hforwards

/-- A query is read. -/
theorem Phase.Holds.read (h : Holds d trace φ) {n : Nat} (hleft : φ.left = some (n + 1))
    (hcome : ψ.toCome ≤ n + 2) (hforwards : ψ.HasForwarded (wanted d trace)
      (wanted d (trace ++ [.received query]))) (hout : ψ.outstanding = 0)
    (hlast : ∀ m query' s, ψ = .asked m query' s → query' = query) :
    Holds d (trace ++ [.received query]) ψ := by
  obtain ⟨hbounded, hequal, hcount⟩ := h.idle hleft
  have hreceived : received [.received query] = [query] := rfl
  refine ⟨?_, ?_, ⟨0, Nat.zero_le _, ?_, fun _ => hout.symm⟩, ?_⟩
  · rw [received_append, hreceived, List.length_append, List.length_singleton]
    omega
  · rw [forwarded_append, forwarded_received, List.append_nil, hequal]
    exact hforwards
  · rw [loggedAs_concat _ rfl, forwarded_append, forwarded_received, List.append_nil]
    exact hcount
  · intro m query' s hψ
    rw [hlast m query' s hψ, List.getLast?_concat]

/-- Something is written to the client. -/
theorem Phase.Holds.wrote (h : Holds d trace φ) (hcome : ψ.toCome ≤ φ.toCome)
    (hforwards : φ.HasForwarded (forwarded trace) (wanted d trace) →
      ψ.HasForwarded (forwarded trace) (wanted d trace))
    (hout : φ ≠ .failed ∧ ψ.outstanding = φ.outstanding) (hlast : ∀ m query' s, ψ ≠ .asked m query' s) :
    Holds d (trace ++ [.sent part]) ψ := by
  obtain ⟨k, hle, hcount, hk⟩ := h.completes
  have hreceived : received [.sent part] = [] := rfl
  refine ⟨?_, ?_, ⟨k, hle, ?_, fun _ => (hk hout.1).trans hout.2.symm⟩, ?_⟩
  · rw [received_append, hreceived, List.append_nil]
    exact Nat.le_trans (Nat.add_le_add_left hcome _) h.bounded
  · rw [forwarded_append, forwarded_sent, List.append_nil, wanted_concat_of_ne rfl]
    exact hforwards h.forwards
  · rw [loggedAs_concat _ rfl, forwarded_append, forwarded_sent, List.append_nil]
    exact hcount
  · exact fun m query' s hψ => absurd hψ (hlast m query' s)

/-- Another query of a batch is read. -/
theorem Phase.Holds.next {k : Nat} (h : Holds d trace (.batch (k + 1))) :
    Holds d (trace ++ [.received query]) (.batch k) := by
  obtain ⟨j, hle, hcount, hj⟩ := h.completes
  have hreceived : received [.received query] = [query] := rfl
  refine ⟨?_, ?_, ⟨j, hle, ?_, fun _ => hj nofun⟩, nofun⟩
  · rw [received_append, hreceived, List.length_append, List.length_singleton]
    exact Nat.le_trans (Nat.le_of_eq (Nat.add_right_comm ..)) h.bounded
  · rw [forwarded_append, forwarded_received, List.append_nil]
    exact List.IsPrefix.trans h.forwards (prefix_wanted_received _ _)
  · rw [loggedAs_concat _ rfl, forwarded_append, forwarded_received, List.append_nil]
    exact hcount

/-- The query that was read is forwarded, and is outstanding. -/
theorem Phase.Holds.forward {n : Nat} {s : Scenario} (h : Holds d trace (.asked n query s)) :
    Holds d (trace ++ [.forwarded (framed query)]) (.waiting n s) := by
  obtain ⟨k, -, hcount, hk⟩ := h.completes
  have hreceived : received [.forwarded (framed query)] = [] := rfl
  refine ⟨?_, ?_, ⟨1, Nat.le_refl _, ?_, fun _ => rfl⟩, nofun⟩
  · rw [received_append, hreceived, List.append_nil]
    exact h.bounded
  · rw [wanted_concat_of_ne rfl, forwarded_append, forwarded_forwarded]
    exact h.forwards
  · rw [loggedAs_concat _ rfl, forwarded_append, forwarded_forwarded, List.length_append, ← hcount,
      hk nofun]
    rfl

/-- The outstanding query is completed. -/
theorem Phase.Holds.complete {n : Nat} {s : Scenario} (h : Holds d trace (.relaying n s)) :
    Holds d (trace ++ [.logged (completedLine s)]) (Phase.completed n s) := by
  obtain ⟨k, -, hcount, hk⟩ := h.completes
  have hone : k = 1 := hk nofun
  have hreceived : received [.logged (completedLine s)] = [] := rfl
  have hlogged : loggedAs "completed" (trace ++ [.logged (completedLine s)])
      = loggedAs "completed" trace ++ [completedLine s] := by
    rw [loggedAs_logged]
    exact congrArg _ (if_pos rfl)
  have hout : (Phase.completed n s).outstanding = 0 := by
    unfold Phase.completed
    split_ifs <;> rfl
  refine ⟨?_, ?_, ⟨0, Nat.zero_le _, ?_, fun _ => hout.symm⟩, ?_⟩
  · rw [received_append, hreceived, List.append_nil]
    refine Nat.le_trans (Nat.add_le_add_left ?_ _) h.bounded
    unfold Phase.completed
    split_ifs
    · exact Nat.le_refl _
    · exact Nat.zero_le _
  · rw [forwarded_append, forwarded_logged, List.append_nil, wanted_concat_of_ne rfl]
    unfold Phase.completed
    split_ifs
    · exact h.forwards
    · exact h.prefix_wanted
  · rw [hlogged, forwarded_append, forwarded_logged, List.append_nil, List.length_append, ← hcount,
      hone]
    rfl
  · intro m query' s' heq
    unfold Phase.completed at heq
    split_ifs at heq

/-- What is outstanding at a failure stays so. -/
theorem Phase.Holds.fail (h : Holds d trace φ) (hevent : line.event = "failed") :
    Holds d (trace ++ [.logged line]) .failed := by
  obtain ⟨k, hle, hcount, -⟩ := h.completes
  have hreceived : received [.logged line] = [] := rfl
  have hlogged : loggedAs "completed" (trace ++ [.logged line]) = loggedAs "completed" trace := by
    rw [loggedAs_logged, if_neg (by rw [hevent]; decide), List.append_nil]
  refine ⟨?_, ?_, ⟨k, hle, ?_, fun hfailed => absurd rfl hfailed⟩, nofun⟩
  · rw [received_append, hreceived, List.append_nil]
    exact Nat.le_trans (Nat.le_add_right ..) h.bounded
  · rw [forwarded_append, forwarded_logged, List.append_nil, wanted_concat_of_ne rfl]
    exact h.prefix_wanted
  · rw [hlogged, forwarded_append, forwarded_logged, List.append_nil]
    exact hcount

/-- **One event** keeps the invariant. -/
theorem Phase.Holds.moves (h : Holds d trace φ) (hmove : Moves d φ e ψ) :
    Holds d (trace ++ [e]) ψ := by
  cases hmove with
  | fresh hleft hfresh =>
    exact h.read hleft (Nat.le_refl _) (wanted_dropped (not_isForwarded hfresh)).symm rfl nofun
  | batch hleft hfresh =>
    exact h.read hleft (Nat.le_add_left 2 _) (prefix_wanted_received _ _) rfl
      nofun
  | asked hleft hfresh hs hopen =>
    refine h.read hleft (Nat.le_refl _) (wanted_received ⟨hfresh, _, hs, hopen⟩).symm rfl ?_
    intro m query' s heq
    cases heq
    rfl
  | dropped hleft hno =>
    exact h.read hleft (Nat.zero_le _) (prefix_wanted_received _ _) rfl nofun
  | answer => exact h.wrote (Nat.le_refl _) id ⟨nofun, rfl⟩ nofun
  | more => exact h.wrote (Nat.le_refl _) id ⟨nofun, rfl⟩ nofun
  | answerAll => exact h.wrote (Nat.le_refl _) id ⟨nofun, rfl⟩ nofun
  | relay => exact h.wrote (Nat.le_refl _) id ⟨nofun, rfl⟩ nofun
  | relayMore => exact h.wrote (Nat.le_refl _) id ⟨nofun, rfl⟩ nofun
  | next => exact h.next
  | forward => exact h.forward
  | complete => exact h.complete
  | fail _ hevent => exact h.fail hevent

theorem Phase.Accepts.holds (h : Accepts d trace φ) : Holds d trace φ := by
  induction h with
  | nil => exact ⟨Nat.le_refl _, rfl, ⟨0, Nat.zero_le _, rfl, fun _ => rfl⟩, nofun⟩
  | snoc _ hmove ih => exact ih.moves hmove

theorem Phase.Accepts.of_concat (h : Accepts d (trace ++ [e]) ψ) :
    ∃ φ, Accepts d trace φ ∧ Moves d φ e ψ := by
  generalize htrace : trace ++ [e] = es at h
  cases h with
  | nil => exact absurd htrace (List.append_ne_nil_of_right_ne_nil _ (List.cons_ne_nil _ _))
  | @snoc es' e' φ ψ hφ hmove =>
    obtain ⟨rfl, rfl⟩ := List.append_inj' htrace rfl |>.imp id List.singleton_inj.mp
    exact ⟨φ, hφ, hmove⟩

/-- The front of a trace is one itself. -/
theorem Phase.Accepts.of_append (h : Accepts d (front ++ behind) φ) : ∃ ψ, Accepts d front ψ := by
  induction behind using List.reverseRecOn generalizing φ with
  | nil => exact ⟨φ, by rwa [List.append_nil] at h⟩
  | append_singleton behind e ih =>
    rw [← List.append_assoc] at h
    obtain ⟨ψ, hψ, -⟩ := h.of_concat
    exact ih hψ

/-- The event behind the front of a trace. -/
theorem Phase.Accepts.split (h : Accepts d (front ++ e :: behind) φ) :
    ∃ ψ χ, Accepts d front ψ ∧ Moves d ψ e χ ∧ Accepts d (front ++ [e]) χ := by
  rw [List.append_cons] at h
  obtain ⟨χ, hχ⟩ := h.of_append
  obtain ⟨ψ, hψ, hmove⟩ := hχ.of_concat
  exact ⟨ψ, χ, hψ, hmove, hχ⟩

theorem Phase.not_moves_failed : ¬ Moves d .failed e ψ := by
  intro h
  cases h with
  | fresh hleft | batch hleft | asked hleft | dropped hleft => cases hleft
  | fail hne => exact hne rfl

theorem orderly_of_accepts (h : Accepts d trace φ) : Orderly d trace where
  accepted := ⟨φ, h⟩
  bounded := Nat.le_trans (Nat.le_add_right ..) h.holds.bounded
  in_order := h.holds.prefix_wanted
  outstanding := by
    obtain ⟨k, hle, hcount, -⟩ := h.holds.completes
    omega
  idle_at_query := by
    rintro front query behind rfl
    obtain ⟨ψ, χ, hψ, hmove, -⟩ := h.split
    obtain ⟨k, -, hcount, hk⟩ := hψ.holds.completes
    cases hmove with
    | fresh hleft | batch hleft | asked hleft | dropped hleft => exact (hψ.holds.idle hleft).2.2.symm
    | next _ =>
      rw [← hcount, hk nofun]
      rfl
  idle_at_forward := by
    rintro front message behind rfl
    obtain ⟨ψ, χ, hψ, hmove, -⟩ := h.split
    obtain ⟨k, -, hcount, hk⟩ := hψ.holds.completes
    cases hmove with
    | forward =>
      refine ⟨?_, _, hψ.holds.last _ _ _ rfl, rfl⟩
      rw [← hcount, hk nofun]
      rfl
  failure_last := by
    rintro front line behind rfl hevent
    rcases behind with _ | ⟨e, behind⟩
    · rfl
    · rw [List.append_cons] at h
      obtain ⟨χ, χ', hχ, hmove, -⟩ := h.split
      obtain ⟨ψ, hψ, hfail⟩ := hχ.of_concat
      cases hfail with
      | complete => exact absurd hevent (by decide : "completed" ≠ "failed")
      | fail _ _ => exact absurd hmove not_moves_failed

end

/-! ### The handler -/

/-- The frames of an input have a length that a frame can have. -/
def InputOk (input : List Input) : Prop :=
  ∀ query, .frame query ∈ input → 1 ≤ query.length ∧ query.length ≤ 65535

/-- The scenario of a phase, which the handler has assigned. -/
def Phase.scenario : Phase → Option Scenario
  | asked _ _ s | waiting _ s | relaying _ s => some s
  | _ => none

/-- The session is in this phase. -/
structure At (d : Dnspython) (φ : Phase) (s : SessionState) : Prop where
  accepts : Accepts d s.trace φ
  input : InputOk s.input
  scenario : ∀ sc, φ.scenario = some sc → s.scenario = sc

/-- The session may end here. -/
def MayEnd (d : Dnspython) (s : SessionState) : Prop := ∃ φ, φ ≠ .failed ∧ Accepts d s.trace φ

/-- The next query was read: what it is will say which phase this is. -/
structure HasRead (d : Dnspython) (n : Nat) (query : Octets) (s : SessionState) : Prop where
  front : ∃ es φ, s.trace = es ++ [.received query] ∧ Accepts d es φ ∧ φ.left = some (n + 1)
  size : query.length ≤ 65535
  input : InputOk s.input

section

variable {φ ψ : Phase} {s : SessionState} {n : Nat} {query : Octets}

theorem At.mayEnd (h : At d φ s) (hne : φ ≠ .failed) : MayEnd d s := ⟨φ, hne, h.accepts⟩

theorem At.record (h : At d φ s) {e : Event} (hmove : Moves d φ e ψ)
    (hscenario : ∀ sc, ψ.scenario = some sc → φ.scenario = some sc) : At d ψ (s.record e) where
  accepts := h.accepts.snoc hmove
  input := h.input
  scenario sc hsc := h.scenario sc (hscenario sc hsc)

theorem HasRead.accepts (h : HasRead d n query s) (hmove : ∀ φ, φ.left = some (n + 1) →
    Moves d φ (.received query) ψ) : Accepts d s.trace ψ := by
  obtain ⟨es, φ, htrace, hes, hleft⟩ := h.front
  rw [htrace]
  exact hes.snoc (hmove φ hleft)

/-- A query that gets no scenario. -/
theorem HasRead.at (h : HasRead d n query s) (hnone : ψ.scenario = none)
    (hmove : ∀ φ, φ.left = some (n + 1) → Moves d φ (.received query) ψ) : At d ψ s where
  accepts := h.accepts hmove
  input := h.input
  scenario sc hsc := by simp [hnone] at hsc

/-- A query that is not forwarded may be the last one. -/
theorem HasRead.mayEnd (h : HasRead d n query s) (hno : ¬ IsForwarded d query) : MayEnd d s :=
  ⟨.closing, nofun, h.accepts fun _ hleft => .dropped hleft hno⟩

theorem InputOk.tail {i : Input} {rest : List Input} (h : InputOk (i :: rest)) : InputOk rest :=
  fun query hmem => h query (List.mem_cons_of_mem _ hmem)

/-- Triples of handlers, which may end where a session may. -/
abbrev Does (d : Dnspython) {α : Type} (P : SessionState → Prop) (p : Handler α)
    (Q : α → SessionState → Prop) : Prop :=
  Program.Triple sessionEnv P p Q (MayEnd d)

theorem does_recvFrame (hleft : φ.left = some (n + 1)) :
    Does d (At d φ) (Handler.perform .recvFrame) fun query s => HasRead d n query s := by
  have hne : φ ≠ .failed := by
    rintro rfl
    cases hleft
  refine .perform fun s h => ?_
  rw [sessionEnv]
  rcases hinput : s.input with _ | ⟨query | ⟨trailing, ending⟩, rest⟩
  · exact h.mayEnd hne
  · have hok := h.input
    rw [hinput] at hok
    exact ⟨⟨s.trace, φ, rfl, h.accepts, hleft⟩, (hok query List.mem_cons_self).2, hok.tail⟩
  · exact h.mayEnd hne

theorem does_sendall {part : Octets} (hmove : Moves d φ (.sent part) ψ)
    (hscenario : ψ.scenario = φ.scenario) :
    Does d (At d φ) (Handler.perform (.sendall part)) fun _ => At d ψ :=
  .perform fun _ h => h.record hmove fun _ hsc => hscenario ▸ hsc

/-- Parts are written one behind the other, where there is one. -/
theorem does_sendParts {parts : List Octets} (hne : parts ≠ [])
    (hfirst : ∀ part ∈ parts, Moves d φ (.sent part) ψ)
    (hmore : ∀ part ∈ parts, Moves d ψ (.sent part) ψ) (hscenario : ψ.scenario = φ.scenario) :
    Does d (At d φ) (Handler.sendParts parts) fun _ => At d ψ := by
  rcases parts with _ | ⟨part, parts⟩
  · exact absurd rfl hne
  · refine (does_sendall (hfirst part List.mem_cons_self) hscenario).bind fun _ => ?_
    exact .forM fun p hp => does_sendall (hmore p (List.mem_cons_of_mem _ hp)) rfl

theorem does_ofExcept_bind {α β : Type} {P : SessionState → Prop} {x : Except Raised α}
    {f : α → Handler β} {Q : β → SessionState → Prop}
    (hend : ∀ e, x = .error e → ∀ s, P s → MayEnd d s) (h : ∀ a, x = .ok a → Does d P (f a) Q) :
    Does d P (Handler.ofExcept x >>= f) Q := by
  cases x with
  | ok a => exact h a rfl
  | error e => exact .raise (hend e rfl)

/-! ### Fresh queries -/

/-- Behind a fresh query the connection is kept, or it may end. -/
def AfterFresh (d : Dnspython) (n : Nat) : Bool → SessionState → Prop
  | true => At d (.answered n)
  | false => MayEnd d

theorem does_next {k : Nat} :
    Does d (At d (.batch (k + 1))) (Handler.perform .next) fun _ => At d (.batch k) := by
  refine .perform fun s h => ?_
  rw [sessionEnv]
  rcases hinput : s.input with _ | ⟨query | ⟨trailing, ending⟩, rest⟩
  · exact h.mayEnd (by simp)
  · dsimp only
    by_cases h12 : query.length < 12
    · rw [if_pos h12]
      exact h.mayEnd (by simp)
    · rw [if_neg h12]
      have hok := h.input
      rw [hinput] at hok
      have hrest : At d (.batch (k + 1)) { s with input := rest } :=
        ⟨h.accepts, hok.tail, h.scenario⟩
      exact hrest.record (.next (Nat.not_lt.mp h12)) fun _ hsc => hsc
  · exact h.mayEnd (by simp)

theorem ne_nil_of_frame {payload bs : Octets} (h : frame payload = .ok bs) : bs ≠ [] := by
  by_cases hlen : payload.length ≤ 65535
  · rw [frame_eq hlen] at h
    cases h
    exact List.ne_nil_of_length_pos (by rw [length_framed]; omega)
  · rw [frame, packLength, if_neg (by omega)] at h
    cases h

theorem frameParts_ne_nil {key : String} {framed : Octets} (h : framed ≠ []) :
    frameParts key framed ≠ [] := by
  unfold frameParts
  split_ifs
  · exact List.cons_ne_nil _ _
  · exact List.cons_ne_nil _ _
  · exact fun hnil => h (List.map_eq_nil_iff.mp hnil)
  · exact List.cons_ne_nil _ _

theorem does_serveFreshTcp (hfresh : isFresh d query = .ok true) :
    Does d (HasRead d n query) (Handler.serveFreshTcp d query) (AfterFresh d n) := by
  have hend : ∀ s, HasRead d n query s → MayEnd d s := fun s h => h.mayEnd (not_isForwarded hfresh)
  unfold Handler.serveFreshTcp
  refine does_ofExcept_bind (fun _ _ => hend) fun key hkey =>
    does_ofExcept_bind (fun _ _ => hend) fun reply _ => .ite (fun _ => .pure hend) fun _ =>
    does_ofExcept_bind (fun _ _ => hend) fun framed hframed => .ite (fun _ => .pure hend) fun _ =>
    .ite (fun hbatch => ?_) fun hbatch => ?_
  · -- a batch: two more queries, and one answer to all
    have hclosing : ∀ s, At d .closing s → MayEnd d s := fun s h => h.mayEnd (by simp)
    have hstart : ∀ s, HasRead d n query s → At d (.batch 2) s := by
      intro s h
      apply h.at rfl
      intro φ hleft
      exact .batch hleft hfresh hkey (by simpa [batchKeys] using hbatch)
    refine Program.Triple.before ?_ hstart
    refine does_next.bind fun second => does_next.bind fun third =>
      does_ofExcept_bind (fun _ _ s h => h.mayEnd (by simp)) fun frames _ => ?_
    exact (does_sendall .answerAll rfl).bind fun _ => .pure hclosing
  · have hanswered : ∀ s, At d (.answered n) s → MayEnd d s := fun s h => h.mayEnd (by simp)
    have hmayEnd : ∀ s, At d (.fresh n) s → MayEnd d s := fun s h => h.mayEnd (by simp)
    have hlast : ∀ part, Does d (At d (.fresh n))
        (Handler.perform (.sendall part) >>= fun _ => .pure false) (AfterFresh d n) :=
      fun part => (does_sendall .answer rfl).bind fun _ => .pure hanswered
    have hstart : ∀ s, HasRead d n query s → At d (.fresh n) s := by
      intro s h
      apply h.at rfl
      intro φ hleft
      exact .fresh hleft hfresh hkey (by simpa [batchKeys] using hbatch)
    refine Program.Triple.before ?_ hstart
    refine does_ofExcept_bind (fun _ _ => hmayEnd) fun changed hchanged => ?_
    refine .ite (fun _ => hlast _) fun _ => .ite (fun _ => hlast _) fun _ =>
      .ite (fun _ => ?_) fun _ => ?_
    · exact does_ofExcept_bind (fun _ _ => hmayEnd) fun size _ => hlast _
    · have hne : changed ≠ [] := by
        split_ifs at hchanged
        · exact ne_nil_of_frame hchanged
        · exact ne_nil_of_frame hchanged
        · cases hchanged
          exact ne_nil_of_frame hframed
      have hparts : frameParts key changed ≠ [] := frameParts_ne_nil hne
      refine (does_sendParts hparts (fun _ _ => .answer) (fun _ _ => .more) rfl).bind fun _ => ?_
      have hagain : ∀ part, Does d (At d (.answered n))
          (Handler.perform (.sendall part) >>= fun _ => .pure false) (AfterFresh d n) :=
        fun part => (does_sendall .more rfl).bind fun _ => .pure hanswered
      refine .ite (fun _ => hagain _) fun _ => .ite (fun _ => hagain _) fun _ => .pure fun s h => ?_
      cases decide (key ∉ ["mismatch-id", "mismatch-question"]) with
      | true => exact h
      | false => exact hanswered s h

/-! ### Queries that are forwarded -/

theorem does_forwardTcp {sc : Scenario} :
    Does d (fun s => At d (.asked n query sc) s ∧ query.length ≤ 65535) (Handler.forwardTcp query)
      fun _ => At d (.waiting n sc) := by
  refine Program.Triple.bind (Q := fun _ => At d (.waiting n sc)) ?_ fun response =>
    does_ofExcept_bind (fun _ _ _ h => h.mayEnd (by simp)) fun _ _ => .pure fun _ h => h
  refine .perform fun s hs => ?_
  obtain ⟨h, hlen⟩ := hs
  rw [sessionEnv]
  rcases s.answers with _ | ⟨_ | answer, rest⟩
  · exact h.mayEnd (by simp)
  · exact h.mayEnd (by simp)
  · rw [frame_eq hlen]
    have hrest : At d (.asked n query sc) { s with answers := rest } :=
      ⟨h.accepts, h.input, h.scenario⟩
    have hforward := hrest.record .forward fun _ hsc => hsc
    cases answer with
    | error e => exact hforward.mayEnd (by simp)
    | ok response => exact hforward

/-- Something is sent for every scenario that a query is forwarded for. -/
theorem filter_sentParts_ne_nil {payload : Octets} {sc : Scenario}
    (hopen : sc ∉ [Scenario.closeBeforeResponse, .stall]) :
    (sentParts payload sc).filter (fun part => part ≠ []) ≠ [] := by
  have hframed : framed payload ≠ [] := List.ne_nil_of_length_pos (by rw [length_framed]; omega)
  have hsize : packU16 (UInt16.ofNat payload.length) ≠ [] :=
    List.ne_nil_of_length_pos (by rw [length_packU16]; decide)
  have hfirst : ∃ part ∈ sentParts payload sc, part ≠ [] := by
    cases sc with
    | closeBeforeResponse | stall => exact absurd (by decide) hopen
    | normal | forceTcp | duplicateResponse | trailingBytes => exact ⟨_, List.mem_cons_self, hframed⟩
    | splitBody | delayed | closeAfterPrefix | closeMidBody => exact ⟨_, List.mem_cons_self, hsize⟩
    | splitPrefix => exact ⟨_, List.mem_cons_self, List.cons_ne_nil _ _⟩
    | lengthMismatch => exact ⟨_, List.mem_cons_self, List.cons_ne_nil _ _⟩
    | bytewise =>
      obtain ⟨byte, hbyte⟩ := List.exists_mem_of_ne_nil _ hframed
      exact ⟨[byte], List.mem_map_of_mem hbyte, List.cons_ne_nil _ _⟩
  obtain ⟨part, hmem, hne⟩ := hfirst
  exact List.ne_nil_of_mem (List.mem_filter.mpr ⟨hmem, by simpa using hne⟩)

theorem does_sendFrame {sc : Scenario} (hopen : sc ∉ [Scenario.closeBeforeResponse, .stall])
    (payload : Octets) :
    Does d (At d (.waiting n sc)) (Handler.sendFrame payload sc) fun _ => At d (.relaying n sc) := by
  have hend : ∀ s, At d (.waiting n sc) s → MayEnd d s := fun s h => h.mayEnd (by simp)
  unfold Handler.sendFrame
  refine .ite (fun _ => .raise hend) fun hlen =>
    does_ofExcept_bind (fun _ _ => hend) fun parts hparts => ?_
  rw [framedParts_eq (by omega)] at hparts
  cases hparts
  have hfilled : ∀ part ∈ (sentParts payload sc).filter fun part => part ≠ [], part ≠ [] :=
    fun part hmem => by simpa using (List.mem_filter.mp hmem).2
  exact does_sendParts (filter_sentParts_ne_nil hopen) (fun part hmem => .relay (hfilled part hmem))
    (fun part hmem => .relayMore (hfilled part hmem)) rfl

theorem does_assign {sc : Scenario} (hfresh : isFresh d query = .ok false)
    (hsc : queryScenario query = .ok sc) (hopen : sc ∉ [Scenario.closeBeforeResponse, .stall]) :
    Does d (HasRead d n query) (Handler.perform (.assign sc))
      fun _ s => At d (.asked n query sc) s ∧ query.length ≤ 65535 :=
  .perform fun _ h => ⟨⟨h.accepts fun _ hleft => .asked hleft hfresh hsc hopen, h.input,
    fun _ heq => Option.some.inj heq⟩, h.size⟩

theorem does_assign_closing {sc : Scenario} (hsc : queryScenario query = .ok sc)
    (hclosing : sc ∈ [Scenario.closeBeforeResponse, .stall]) :
    Does d (HasRead d n query) (Handler.perform (.assign sc)) fun _ => MayEnd d := by
  refine .perform fun _ h => h.mayEnd ?_
  rintro ⟨-, s', hs', hmem⟩
  rw [hsc] at hs'
  cases hs'
  exact hmem hclosing

theorem does_logEvent {sc : Scenario} : Does d (At d (.relaying n sc))
    (Handler.perform (.logEvent "completed" "tcp" "complete")) fun _ => At d (completed n sc) := by
  refine .perform fun s h => ?_
  have hline : logEvent "completed" "tcp" s.scenario "complete" = completedLine sc := by
    rw [h.scenario sc rfl]
    rfl
  rw [sessionEnv, hline]
  refine h.record .complete fun sc' hsc' => ?_
  unfold completed at hsc'
  split_ifs at hsc' <;> cases hsc'

/-! ### Sessions -/

/-- **The loop** follows the automaton. -/
theorem does_serveLoop (hleft : φ.left = some n) :
    Does d (At d φ) (Handler.serveLoop d n) fun _ => MayEnd d := by
  have hne : φ ≠ .failed := by
    rintro rfl
    cases hleft
  induction n generalizing φ with
  | zero => exact .pure fun s h => h.mayEnd hne
  | succ n ih =>
    refine (does_recvFrame hleft).bind fun query => does_ofExcept_bind ?_ fun fresh hfresh =>
      .ite (fun htrue => ?_) fun hfalse => ?_
    · intro e he s h
      refine h.mayEnd fun hno => ?_
      rw [hno.1] at he
      cases he
    · subst htrue
      refine (does_serveFreshTcp hfresh).bind fun reuse => ?_
      cases reuse with
      | true => exact ih rfl (by simp)
      | false => exact .pure fun s h => h
    · have hfresh' : isFresh d query = .ok false := by
        rw [hfresh, Bool.eq_false_iff.mpr hfalse]
      refine does_ofExcept_bind ?_ fun sc hsc => ?_
      · intro e he s h
        refine h.mayEnd fun hno => ?_
        obtain ⟨-, s', hs', -⟩ := hno
        rw [hs'] at he
        cases he
      · by_cases hclosing : sc ∈ [Scenario.closeBeforeResponse, .stall]
        · refine (does_assign_closing hsc hclosing).bind fun _ => .ite (fun _ => .pure fun _ h => h) ?_
          exact fun hno => absurd hclosing (by simpa using hno)
        · refine (does_assign hfresh' hsc hclosing).bind fun _ =>
            .ite (fun h => absurd (by simpa using h) hclosing) fun _ => ?_
          refine does_forwardTcp.bind fun response => (does_sendFrame hclosing response).bind fun _ =>
            does_logEvent.bind fun _ => ?_
          unfold completed
          refine .ite (fun hreuse => ?_) fun hreuse => ?_
          · rw [if_pos hreuse]
            exact ih rfl (by simp)
          · rw [if_neg hreuse]
            exact .pure fun _ h => h.mayEnd (by simp)

end

/-- An exception leaves one line in the log, or none. -/
theorem accepts_conclude {s : SessionState} (h : MayEnd d s) (result : Option (Except Raised Unit)) :
    ∃ φ, Accepts d (conclude true (result, s)).2 φ := by
  obtain ⟨φ, hne, hφ⟩ := h
  rcases result with _ | e | _
  · exact ⟨φ, hφ⟩
  · simp only [conclude, catchRaised]
    cases e.reason true with
    | none => exact ⟨φ, by rw [List.map_nil, List.append_nil]; exact hφ⟩
    | some reason => exact ⟨.failed, hφ.snoc (.fail hne rfl)⟩
  · simp only [conclude, catchRaised, List.map_nil, List.append_nil]
    exact ⟨φ, hφ⟩

theorem accepts_session (d : Dnspython) (answers : List Answer) {input : List Input}
    (h : InputOk input) : ∃ φ, Accepts d (session d (.tcp answers) input).2 φ := by
  have hstart : At d (.idle MAX_TCP_QUERIES) ((Start.tcp answers).state input) := ⟨.nil, h, nofun⟩
  exact accepts_conclude ((does_serveLoop rfl).run hstart) _

/-- The input that comes of a stream. -/
theorem inputOk_inputsOf (p : Peer) : InputOk (inputsOf p) := by
  intro query hmem
  rcases List.mem_append.mp hmem with hmem | hmem
  · obtain ⟨query', hmem, heq⟩ := List.mem_map.mp hmem
    cases heq
    exact (decomposes_parseFrames p.stream).lengths query hmem
  · cases List.mem_singleton.mp hmem

/-- **Every session** follows the automaton, on whatever input and whether or not this has come to its
end. -/
theorem session_orderly (d : Dnspython) (answers : List Answer) {input : List Input}
    (h : ∀ query, .frame query ∈ input → 1 ≤ query.length ∧ query.length ≤ 65535) :
    Orderly d (session d (.tcp answers) input).2 := by
  obtain ⟨φ, hφ⟩ := accepts_session d answers h
  exact orderly_of_accepts hφ

theorem session_orderly_two : Orderly Reference.dnspython
    (session Reference.dnspython (.tcp [some (.ok (Reference.ask Reference.host.labels RRType.A))])
      [.frame (Reference.ask Reference.host.labels RRType.A), .frame [0, 1]]).2 := by
  refine session_orderly _ _ fun query hmem => ?_
  rcases List.mem_cons.mp hmem with heq | hmem
  · cases heq
    decide
  · cases List.mem_singleton.mp hmem
    decide

end DnsFixtures
