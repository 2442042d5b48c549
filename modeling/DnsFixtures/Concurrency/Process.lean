import Mathlib

/-!
# Processes with input

A `Process` takes steps of its own, at most one in each state, and is fed input from outside.  What makes
it independent of the order of events is `step_feed`: input that comes behind a step could as well have
come before it.

In a pool of processes any one may take a step or be fed, and new ones may join.  Each of them ends up
where it would have come to by steps of its own, had all its input been there from the start
(`Pool.Run.steps`): what a process does is a function of its input, whatever the others do.
-/

namespace Concurrency

structure Process (ι : Type) where
  State : Type
  step : State → Option State
  feed : State → ι → State
  step_feed : ∀ {s t : State} (x : ι), step s = some t → step (feed s x) = some (feed t x)

namespace Process

variable {ι : Type} (P : Process ι)

def feeds (s : P.State) (xs : List ι) : P.State := xs.foldl P.feed s

abbrev Steps : P.State → P.State → Prop := Relation.ReflTransGen fun s t => P.step s = some t

variable {P}

@[simp] theorem feeds_nil (s : P.State) : P.feeds s [] = s := rfl

@[simp] theorem feeds_concat (s : P.State) (xs : List ι) (x : ι) :
    P.feeds s (xs ++ [x]) = P.feed (P.feeds s xs) x := by
  rw [feeds, List.foldl_append]
  rfl

/-- Input that comes behind steps could have come before them. -/
theorem Steps.feed {s t : P.State} (h : P.Steps s t) (x : ι) :
    P.Steps (P.feed s x) (P.feed t x) := by
  induction h with
  | refl => exact .refl
  | tail _ hstep ih => exact ih.tail (P.step_feed x hstep)

end Process

/-! ### Pools -/

theorem of_getElem?_concat {α : Type*} {xs : List α} {x y : α} {i : Nat}
    (h : (xs ++ [x])[i]? = some y) : xs[i]? = some y ∨ (i = xs.length ∧ y = x) := by
  rcases Nat.lt_or_ge i xs.length with hlt | hge
  · rw [List.getElem?_append_left hlt] at h
    exact Or.inl h
  · have hlt := (List.getElem?_eq_some_iff.mp h).1
    rw [List.length_append, List.length_singleton] at hlt
    obtain rfl : i = xs.length := by omega
    rw [List.getElem?_concat_length] at h
    exact Or.inr ⟨rfl, (Option.some.inj h).symm⟩

theorem of_getElem?_set {α : Type*} {xs : List α} {x y : α} {i j : Nat}
    (h : (xs.set j x)[i]? = some y) : (i = j ∧ y = x) ∨ (i ≠ j ∧ xs[i]? = some y) := by
  rw [List.getElem?_set] at h
  split_ifs at h with hij hlt
  · exact Or.inl ⟨hij.symm, (Option.some.inj h).symm⟩
  · exact Or.inr ⟨Ne.symm hij, h⟩

namespace Pool

variable {ι : Type} (P : Process ι)

inductive Event where
  | join (s : P.State)
  | step (i : Nat)
  | feed (i : Nat) (x : ι)

inductive Step (ss : List P.State) : Event P → List P.State → Prop
  | join (s : P.State) : Step ss (.join s) (ss ++ [s])
  | step {i : Nat} {s t : P.State} : ss[i]? = some s → P.step s = some t →
      Step ss (.step i) (ss.set i t)
  | feed {i : Nat} {s : P.State} (x : ι) : ss[i]? = some s →
      Step ss (.feed i x) (ss.set i (P.feed s x))

/-- The events of a run that starts without processes, and the processes it leads to. -/
inductive Run : List (Event P) → List P.State → Prop
  | nil : Run [] []
  | snoc {es : List (Event P)} {e : Event P} {ss ss' : List P.State} : Run es ss →
      Step P ss e ss' → Run (es ++ [e]) ss'

/-- How the processes were when they joined. -/
def joined (es : List (Event P)) : List P.State :=
  es.filterMap fun
    | .join s => some s
    | _ => none

/-- What a process was fed. -/
def fed (i : Nat) (es : List (Event P)) : List ι :=
  es.filterMap fun
    | .feed j x => if j = i then some x else none
    | _ => none

variable {P}

@[simp] theorem joined_concat (es : List (Event P)) (e : Event P) :
    joined P (es ++ [e]) = joined P es ++ joined P [e] := by
  rw [joined, List.filterMap_append]
  rfl

@[simp] theorem fed_concat (i : Nat) (es : List (Event P)) (e : Event P) :
    fed P i (es ++ [e]) = fed P i es ++ fed P i [e] := by
  rw [fed, List.filterMap_append]
  rfl

theorem Step.length_eq {ss ss' : List P.State} {e : Event P} (h : Step P ss e ss') :
    ss'.length = ss.length + (joined P [e]).length := by
  cases h with
  | join s => simp [joined]
  | step _ _ => simp [joined]
  | feed _ _ => simp [joined]

theorem Run.length_eq {es : List (Event P)} {ss : List P.State} (h : Run P es ss) :
    ss.length = (joined P es).length := by
  induction h with
  | nil => rfl
  | snoc _ hstep ih => rw [hstep.length_eq, joined_concat, List.length_append, ih]

/-- A process is fed only when it has joined. -/
theorem Run.fed_eq_nil {es : List (Event P)} {ss : List P.State} (h : Run P es ss) {i : Nat}
    (hi : ss.length ≤ i) : fed P i es = [] := by
  induction h with
  | nil => rfl
  | @snoc es e ss ss' _ hstep ih =>
    have hle : ss.length ≤ i := by
      rw [hstep.length_eq] at hi
      omega
    rw [fed_concat, ih hle]
    cases hstep with
    | join s => rfl
    | step _ _ => rfl
    | @feed j s x hj =>
      have hlt := (List.getElem?_eq_some_iff.mp hj).1
      simp [fed, show j ≠ i by omega]

/-- **What a process does depends on its input alone**: it ends up where its own steps lead from its
start with all input there. -/
theorem Run.steps {es : List (Event P)} {ss : List P.State} (h : Run P es ss) {i : Nat}
    {s : P.State} (hi : ss[i]? = some s) :
    ∃ start, (joined P es)[i]? = some start ∧ P.Steps (P.feeds start (fed P i es)) s := by
  induction h generalizing s with
  | nil => cases hi
  | @snoc es e ss ss' hrun hstep ih =>
    cases hstep with
    | join s₀ =>
      have hfed : fed P i [.join s₀] = [] := rfl
      have hjoined : joined P [.join s₀] = [s₀] := rfl
      rw [joined_concat, fed_concat, hfed, hjoined, List.append_nil]
      rcases of_getElem?_concat hi with hi | ⟨rfl, rfl⟩
      · obtain ⟨start, hstart, hsteps⟩ := ih hi
        have hlt := (List.getElem?_eq_some_iff.mp hstart).1
        exact ⟨start, by rw [List.getElem?_append_left hlt]; exact hstart, hsteps⟩
      · -- the one that has just joined
        refine ⟨s, ?_, ?_⟩
        · rw [hrun.length_eq, List.getElem?_concat_length]
        · rw [hrun.fed_eq_nil (Nat.le_refl _)]
          exact .refl
    | @step j s₀ t hj hst =>
      have hfed : fed P i [.step j] = [] := rfl
      have hjoined : joined P [.step j] = [] := rfl
      rw [joined_concat, fed_concat, hfed, hjoined, List.append_nil, List.append_nil]
      rcases of_getElem?_set hi with ⟨rfl, rfl⟩ | ⟨-, hi⟩
      · obtain ⟨start, hstart, hsteps⟩ := ih hj
        exact ⟨start, hstart, hsteps.tail hst⟩
      · exact ih hi
    | @feed j s₀ x hj =>
      have hjoined : joined P [.feed j x] = [] := rfl
      rw [joined_concat, fed_concat, hjoined, List.append_nil]
      rcases of_getElem?_set hi with ⟨rfl, rfl⟩ | ⟨hij, hi⟩
      · obtain ⟨start, hstart, hsteps⟩ := ih hj
        have hfed : fed P i [.feed i x] = [x] := by simp [fed]
        refine ⟨start, hstart, ?_⟩
        rw [hfed, Process.feeds_concat]
        exact hsteps.feed x
      · have hfed : fed P i [.feed j x] = [] := by simp [fed, Ne.symm hij]
        rw [hfed, List.append_nil]
        exact ih hi

end Pool

end Concurrency
