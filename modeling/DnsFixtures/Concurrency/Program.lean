import Mathlib

/-!
# Programs that call their environment

A `Program` returns, raises, or makes a call and goes on with the reply.  What a call does is the matter
of an `Env`, which keeps a state, may raise itself, and may leave the call without a reply (`none`): the
program is then blocked.  `Program.run` runs a program as far as it gets.

* `Triple`: pre- and postconditions, with a rule for each form of a program.
* `run_of_simulates`: environments that answer alike run every program alike.
* `run_of_extends`: an environment that knows more, because more input has come, does what the other
  one does and goes on from there.
* `run_of_step`: `run` is the result of the single steps of `step`, of which there are `steps`.
-/

namespace Concurrency

inductive Program (Call : Type) (Reply : Call → Type) (ε α : Type) where
  | pure (a : α)
  | raise (e : ε)
  | call (c : Call) (k : Reply c → Program Call Reply ε α)

/-- What comes of a call, and the state behind it. -/
abbrev Env (Call : Type) (Reply : Call → Type) (ε σ : Type) :=
  (c : Call) → σ → Option (Except ε (Reply c) × σ)

namespace Program

variable {Call : Type} {Reply : Call → Type} {ε α β σ τ : Type}

def bind : Program Call Reply ε α → (α → Program Call Reply ε β) → Program Call Reply ε β
  | .pure a, f => f a
  | .raise e, _ => .raise e
  | .call c k, f => .call c fun r => (k r).bind f

instance : Monad (Program Call Reply ε) where
  pure := .pure
  bind := .bind

def perform (c : Call) : Program Call Reply ε (Reply c) := .call c .pure

/-- What may raise without a call. -/
def ofExcept : Except ε α → Program Call Reply ε α
  | .ok a => .pure a
  | .error e => .raise e

@[simp] theorem pure_bind (a : α) (f : α → Program Call Reply ε β) : Program.pure a >>= f = f a := rfl

@[simp] theorem call_bind (c : Call) (k : Reply c → Program Call Reply ε α)
    (f : α → Program Call Reply ε β) : call c k >>= f = call c fun r => k r >>= f := rfl

@[simp] theorem perform_bind (c : Call) (f : Reply c → Program Call Reply ε β) :
    perform c >>= f = call c f := rfl

/-! ### Running -/

/-- The result, unless the program is blocked, and the state that is left. -/
def run (env : Env Call Reply ε σ) : Program Call Reply ε α → σ → Option (Except ε α) × σ
  | .pure a, s => (some (.ok a), s)
  | .raise e, s => (some (.error e), s)
  | .call c k, s =>
    match env c s with
    | none => (none, s)
    | some (.ok r, s) => (k r).run env s
    | some (.error e, s) => (some (.error e), s)

section

variable {env : Env Call Reply ε σ} {s s' : σ}

@[simp] theorem run_pure (a : α) : (Program.pure a : Program Call Reply ε α).run env s
    = (some (.ok a), s) := rfl

@[simp] theorem run_ofExcept (x : Except ε α) : (ofExcept x : Program Call Reply ε α).run env s
    = (some x, s) := by
  cases x <;> rfl

variable {c : Call} {k : Reply c → Program Call Reply ε α}

theorem run_call_none (h : env c s = none) : (call c k).run env s = (none, s) := by
  rw [run, h]

theorem run_call_ok {r : Reply c} (h : env c s = some (.ok r, s')) :
    (call c k).run env s = (k r).run env s' := by
  rw [run, h]

theorem run_call_error {e : ε} (h : env c s = some (.error e, s')) :
    (call c k).run env s = (some (.error e), s') := by
  rw [run, h]

theorem run_bind (p : Program Call Reply ε α) (f : α → Program Call Reply ε β) (s : σ) :
    (p >>= f).run env s = match p.run env s with
      | (some (.ok a), s) => (f a).run env s
      | (some (.error e), s) => (some (.error e), s)
      | (none, s) => (none, s) := by
  induction p generalizing s with
  | pure a => rfl
  | raise e => rfl
  | call c k ih =>
    rw [call_bind]
    cases h : env c s with
    | none => rw [run_call_none h, run_call_none h]
    | some r =>
      obtain ⟨r | r, s'⟩ := r
      · rw [run_call_error h, run_call_error h]
      · rw [run_call_ok h, run_call_ok h, ih]

theorem run_bind_ok {p : Program Call Reply ε α} {f : α → Program Call Reply ε β} {a : α}
    (h : p.run env s = (some (.ok a), s')) : (p >>= f).run env s = (f a).run env s' := by
  rw [run_bind, h]

end

/-! ### Pre- and postconditions -/

/-- From a state with `P` a program returns in one with `Q`, or it raises or is blocked in one with
`X`. -/
def Triple (env : Env Call Reply ε σ) (P : σ → Prop) (p : Program Call Reply ε α) (Q : α → σ → Prop)
    (X : σ → Prop) : Prop :=
  ∀ s, P s → match p.run env s with
    | (some (.ok a), t) => Q a t
    | (_, t) => X t

namespace Triple

variable {env : Env Call Reply ε σ} {P P' I X : σ → Prop} {p : Program Call Reply ε α}
  {Q : α → σ → Prop} {R : β → σ → Prop} {f : α → Program Call Reply ε β}

theorem pure {a : α} (h : ∀ s, P s → Q a s) : Triple env P (.pure a) Q X := h

theorem raise {e : ε} (h : ∀ s, P s → X s) : Triple env P (.raise e) Q X := h

theorem ofExcept {x : Except ε α} (hok : ∀ a, x = .ok a → ∀ s, P s → Q a s)
    (herror : ∀ e, x = .error e → ∀ s, P s → X s) : Triple env P (.ofExcept x) Q X := by
  cases x with
  | ok a => exact hok a rfl
  | error e => exact herror e rfl

theorem perform {c : Call} {Q : Reply c → σ → Prop} (h : ∀ s, P s → match env c s with
    | some (.ok r, t) => Q r t
    | some (.error _, t) => X t
    | none => X s) : Triple env P (.perform c) Q X := by
  intro s hs
  have hcall := h s hs
  rw [Program.perform, run]
  generalize env c s = x at hcall ⊢
  obtain _ | ⟨_ | r, t⟩ := x
  · exact hcall
  · exact hcall
  · exact hcall

theorem bind (hp : Triple env P p Q X) (hf : ∀ a, Triple env (Q a) (f a) R X) :
    Triple env P (p >>= f) R X := by
  intro s hs
  have hrun := hp s hs
  rw [run_bind]
  generalize p.run env s = x at hrun ⊢
  obtain ⟨_ | _ | a, t⟩ := x
  · exact hrun
  · exact hrun
  · exact hf a t hrun

theorem before (h : Triple env P p Q X) (hP : ∀ s, P' s → P s) : Triple env P' p Q X :=
  fun s hs => h s (hP s hs)

theorem ite {c : Prop} [Decidable c] {q : Program Call Reply ε α} (hp : c → Triple env P p Q X)
    (hq : ¬ c → Triple env P q Q X) : Triple env P (if c then p else q) Q X := by
  split_ifs with h
  · exact hp h
  · exact hq h

/-- A loop keeps what each of its turns keeps. -/
theorem forM {γ : Type} {xs : List γ} {f : γ → Program Call Reply ε PUnit}
    (h : ∀ x ∈ xs, Triple env I (f x) (fun _ => I) X) :
    Triple env I (xs.forM f) (fun _ => I) X := by
  induction xs with
  | nil => exact pure fun _ hs => hs
  | cons x xs ih =>
    exact (h x List.mem_cons_self).bind fun _ => ih fun y hy => h y (List.mem_cons_of_mem _ hy)

/-- What holds in every case. -/
theorem run (h : Triple env P p (fun _ => X) X) {s : σ} (hs : P s) : X (p.run env s).2 := by
  have hrun := h s hs
  generalize p.run env s = x at hrun ⊢
  obtain ⟨_ | _ | a, t⟩ := x
  · exact hrun
  · exact hrun
  · exact hrun

end Triple

/-! ### Two environments -/

/-- Both calls are blocked, both have this reply, or both raise this. -/
inductive Agrees {ρ : Type} (R Q : σ → τ → Prop) :
    Option (Except ε ρ × σ) → Option (Except ε ρ × τ) → Prop
  | blocked : Agrees R Q none none
  | ok {r : ρ} {s : σ} {t : τ} : R s t → Agrees R Q (some (.ok r, s)) (some (.ok r, t))
  | error {e : ε} {s : σ} {t : τ} : Q s t → Agrees R Q (some (.error e, s)) (some (.error e, t))

/-- The environments give the same replies in states that `R` relates.  Behind a reply the states are
related again; where the call raises, at least `Q` relates them. -/
structure Simulates (env : Env Call Reply ε σ) (env' : Env Call Reply ε τ) (R Q : σ → τ → Prop) :
    Prop where
  weaken : ∀ {s t}, R s t → Q s t
  call : ∀ c {s t}, R s t → Agrees R Q (env c s) (env' c t)

theorem run_of_simulates {env : Env Call Reply ε σ} {env' : Env Call Reply ε τ} {R Q : σ → τ → Prop}
    (h : Simulates env env' R Q) (p : Program Call Reply ε α) {s : σ} {t : τ} (hst : R s t) :
    (p.run env s).1 = (p.run env' t).1 ∧ Q (p.run env s).2 (p.run env' t).2 := by
  induction p generalizing s t with
  | pure a => exact ⟨rfl, h.weaken hst⟩
  | raise e => exact ⟨rfl, h.weaken hst⟩
  | call c k ih =>
    have hcall := h.call c hst
    rw [run, run]
    generalize env c s = x at hcall ⊢
    generalize env' c t = y at hcall ⊢
    cases hcall with
    | blocked => exact ⟨rfl, h.weaken hst⟩
    | ok hst' => exact ih _ hst'
    | error hst' => exact ⟨rfl, hst'⟩

/-! ### More input -/

/-- A call with less input and the same call, made in the state `t`, with more of it. -/
inductive Outlasts {ρ : Type} (Extends Shows : σ → σ → Prop) (t : σ) :
    Option (Except ε ρ × σ) → Option (Except ε ρ × σ) → Prop
  | blocked {y : Option (Except ε ρ × σ)} : Outlasts Extends Shows t none y
  | ok {r : ρ} {s' t' : σ} : Extends s' t' →
      Outlasts Extends Shows t (some (.ok r, s')) (some (.ok r, t'))
  | error {e : ε} {s' t' : σ} : Shows s' t' →
      Outlasts Extends Shows t (some (.error e, s')) (some (.error e, t'))
  /-- the input ended too early -/
  | ended {e : ε} {s' : σ} {y : Option (Except ε ρ × σ)} : Shows s' t →
      Outlasts Extends Shows t (some (.error e, s')) y

/-- `Extends s t`: the state `t` is `s` with more input to come.  `Shows s t`: all that `s` shows of
what was done is shown by `t`. -/
structure Monotone (env : Env Call Reply ε σ) (Extends Shows : σ → σ → Prop) : Prop where
  refl : ∀ s, Shows s s
  trans : ∀ {s t u}, Shows s t → Shows t u → Shows s u
  shows_of_extends : ∀ {s t}, Extends s t → Shows s t
  shows_of_call : ∀ {c s r s'}, env c s = some (r, s') → Shows s s'
  call : ∀ c {s t}, Extends s t → Outlasts Extends Shows t (env c s) (env c t)

section

variable {env : Env Call Reply ε σ} {Extends Shows : σ → σ → Prop}

theorem Monotone.shows_run (h : Monotone env Extends Shows) (p : Program Call Reply ε α) (s : σ) :
    Shows s (p.run env s).2 := by
  induction p generalizing s with
  | pure a => exact h.refl s
  | raise e => exact h.refl s
  | call c k ih =>
    cases hc : env c s with
    | none =>
      rw [run_call_none hc]
      exact h.refl s
    | some r =>
      obtain ⟨r | r, s'⟩ := r
      · rw [run_call_error hc]
        exact h.shows_of_call hc
      · rw [run_call_ok hc]
        exact h.trans (h.shows_of_call hc) (ih r s')

/-- **Causality**: with more input a program does all that it does with less, and a program that
returns with less input returns the same. -/
theorem run_of_extends (h : Monotone env Extends Shows) (p : Program Call Reply ε α) {s t : σ}
    (hst : Extends s t) : Shows (p.run env s).2 (p.run env t).2 ∧
      ∀ a, (p.run env s).1 = some (.ok a) →
        (p.run env t).1 = some (.ok a) ∧ Extends (p.run env s).2 (p.run env t).2 := by
  induction p generalizing s t with
  | pure a => exact ⟨h.shows_of_extends hst, fun a' ha' => ⟨ha', hst⟩⟩
  | raise e => exact ⟨h.shows_of_extends hst, fun a ha => by cases ha⟩
  | call c k ih =>
    have hcall := h.call c hst
    have hshows := h.shows_run (.call c k) t
    rw [run] at hshows ⊢
    rw [run]
    generalize env c s = x at hcall ⊢
    generalize env c t = y at hcall hshows ⊢
    cases hcall with
    | blocked => exact ⟨h.trans (h.shows_of_extends hst) hshows, fun a ha => by cases ha⟩
    | ok hst' => exact ih _ hst'
    | error hst' => exact ⟨hst', fun a ha => by cases ha⟩
    | ended hst' => exact ⟨h.trans hst' hshows, fun a ha => by cases ha⟩

end

/-! ### Single steps -/

/-- One call; there is no step behind the end of a program and while it is blocked. -/
def step (env : Env Call Reply ε σ) :
    Program Call Reply ε α × σ → Option (Program Call Reply ε α × σ)
  | (.pure _, _) => none
  | (.raise _, _) => none
  | (.call c k, s) => (env c s).map fun (r, s) =>
    match r with
    | .ok r => (k r, s)
    | .error e => (.raise e, s)

/-- The number of steps to the end of a program, or to where it is blocked. -/
def steps (env : Env Call Reply ε σ) : Program Call Reply ε α → σ → Nat
  | .pure _, _ => 0
  | .raise _, _ => 0
  | .call c k, s =>
    match env c s with
    | none => 0
    | some (.ok r, s) => (k r).steps env s + 1
    | some (.error _, _) => 1

section

variable {env : Env Call Reply ε σ} {p p' : Program Call Reply ε α} {s s' : σ}

/-- A step is a call with a reply. -/
theorem step_cases (h : step env (p, s) = some (p', s')) : ∃ c k, p = .call c k ∧
    ((∃ r, env c s = some (.ok r, s') ∧ p' = k r) ∨
      ∃ e, env c s = some (.error e, s') ∧ p' = .raise e) := by
  cases p with
  | pure a => cases h
  | raise e => cases h
  | call c k =>
    refine ⟨c, k, rfl, ?_⟩
    obtain ⟨⟨r, t⟩, ht, heq⟩ := Option.map_eq_some_iff.mp h
    cases r with
    | error e =>
      cases heq
      exact Or.inr ⟨e, ht, rfl⟩
    | ok r =>
      cases heq
      exact Or.inl ⟨r, ht, rfl⟩

theorem run_of_step (h : step env (p, s) = some (p', s')) : p.run env s = p'.run env s' := by
  obtain ⟨c, k, rfl, ⟨r, hr, rfl⟩ | ⟨e, he, rfl⟩⟩ := step_cases h
  · exact run_call_ok hr
  · exact run_call_error he

theorem steps_of_step (h : step env (p, s) = some (p', s')) :
    p.steps env s = p'.steps env s' + 1 := by
  obtain ⟨c, k, rfl, ⟨r, hr, rfl⟩ | ⟨e, he, rfl⟩⟩ := step_cases h
  · rw [steps, hr]
  · have hone : (call c k).steps env s = 1 := by rw [steps, he]
    exact hone

/-- Where there is no step the program has come to its end or is blocked. -/
theorem run_of_step_none (h : step env (p, s) = none) : (p.run env s).2 = s ∧
    ((∃ a, p = .pure a) ∨ (∃ e, p = .raise e) ∨ (p.run env s).1 = none) := by
  cases p with
  | pure a => exact ⟨rfl, Or.inl ⟨a, rfl⟩⟩
  | raise e => exact ⟨rfl, Or.inr (Or.inl ⟨e, rfl⟩)⟩
  | call c k =>
    rw [run_call_none (Option.map_eq_none_iff.mp h)]
    exact ⟨rfl, Or.inr (Or.inr rfl)⟩

/-- Steps do not change what a program comes to. -/
theorem run_of_steps (h : Relation.ReflTransGen (fun x y => step env x = some y) (p, s) (p', s')) :
    p.run env s = p'.run env s' := by
  generalize hx : (p, s) = x at h
  generalize hy : (p', s') = y at h
  induction h generalizing p' s' with
  | refl =>
    cases hx
    cases hy
    rfl
  | @tail y z _ hstep ih =>
    subst hy
    rw [ih rfl, run_of_step hstep]

/-- Where no call is blocked no program is. -/
theorem exists_run_eq_some {I : σ → Prop}
    (h : ∀ c s, I s → ∃ r s', env c s = some (r, s') ∧ I s') (p : Program Call Reply ε α) (hs : I s) :
    ∃ r, (p.run env s).1 = some r := by
  induction p generalizing s with
  | pure a => exact ⟨.ok a, rfl⟩
  | raise e => exact ⟨.error e, rfl⟩
  | call c k ih =>
    obtain ⟨r, t, hr, ht⟩ := h c s hs
    cases r with
    | error e => exact ⟨.error e, by rw [run_call_error hr]⟩
    | ok r =>
      rw [run_call_ok hr]
      exact ih r ht

end

end Program

end Concurrency
