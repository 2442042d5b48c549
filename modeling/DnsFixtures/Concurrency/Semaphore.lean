import Mathlib

/-!
# Bounded semaphores

A `BoundedSemaphore` starts with all its permits and refuses to take back more than it gave out.
Beside it stand the items that may hold a permit: threads, sessions, requests.  `Accounted` says that
the permits taken are exactly those held; it is kept by any change to one item that takes a permit
when it begins to hold one and gives it back when it ceases to (`Accounted.acquire`,
`Accounted.release`), and as long as some item holds a permit a release is accepted
(`Accounted.release_ne_none`).
-/

namespace Concurrency

@[ext] structure BoundedSemaphore where
  initial : Nat
  value : Nat
  value_le : value ≤ initial

instance : DecidableEq BoundedSemaphore := fun _ _ => decidable_of_iff _ BoundedSemaphore.ext_iff.symm

namespace BoundedSemaphore

def ofInitial (n : Nat) : BoundedSemaphore := ⟨n, n, Nat.le_refl n⟩

/-- Take a permit without waiting; whether there was one. -/
def acquire (s : BoundedSemaphore) : Bool × BoundedSemaphore :=
  if s.value = 0 then (false, s)
  else (true, ⟨s.initial, s.value - 1, Nat.le_trans (Nat.sub_le ..) s.value_le⟩)

/-- Give a permit back.  There is no result when all of them are there: this raises. -/
def release (s : BoundedSemaphore) : Option BoundedSemaphore :=
  if h : s.value < s.initial then some ⟨s.initial, s.value + 1, h⟩ else none

variable {s s' : BoundedSemaphore}

theorem eq_of_acquire_false (h : s.acquire = (false, s')) : s' = s := by
  unfold acquire at h
  split_ifs at h
  · exact (Prod.mk.inj h).2.symm
  · cases (Prod.mk.inj h).1

theorem of_acquire_true (h : s.acquire = (true, s')) :
    s'.initial = s.initial ∧ s'.value + 1 = s.value := by
  unfold acquire at h
  split_ifs at h with h0
  · cases (Prod.mk.inj h).1
  · obtain ⟨-, rfl⟩ := Prod.mk.inj h
    exact ⟨rfl, Nat.succ_pred_eq_of_ne_zero h0⟩

theorem of_release (h : s.release = some s') :
    s'.initial = s.initial ∧ s'.value = s.value + 1 := by
  unfold release at h
  split_ifs at h
  cases h
  exact ⟨rfl, rfl⟩

theorem release_ne_none (h : s.value < s.initial) : s.release ≠ none := by
  unfold release
  rw [dif_pos h]
  exact Option.some_ne_none _

end BoundedSemaphore

theorem countP_set_getElem? {α : Type*} {p : α → Bool} {items : List α} {i : Nat} {a b : α}
    (hi : items[i]? = some a) : (items.set i b).countP p
      = items.countP p - (if p a then 1 else 0) + if p b then 1 else 0 := by
  obtain ⟨hlt, rfl⟩ := List.getElem?_eq_some_iff.mp hi
  exact List.countP_set hlt

/-- The permits taken are those that items hold. -/
def Accounted {α : Type*} (holds : α → Bool) (s : BoundedSemaphore) (items : List α) : Prop :=
  items.countP holds + s.value = s.initial

namespace Accounted

variable {α : Type*} {holds : α → Bool} {s s' : BoundedSemaphore} {items : List α} {i : Nat} {a b : α}

theorem ofInitial (n : Nat) : Accounted holds (.ofInitial n) ([] : List α) := Nat.zero_add n

/-- A new item without a permit. -/
theorem concat (h : Accounted holds s items) (ha : holds a = false) :
    Accounted holds s (items ++ [a]) := by
  unfold Accounted at h ⊢
  rw [List.countP_append, List.countP_singleton, ha]
  exact h

theorem countP_pos (hi : items[i]? = some a) (ha : holds a = true) : 0 < items.countP holds :=
  List.countP_pos_iff.mpr ⟨a, List.mem_of_getElem? hi, ha⟩

/-- An item changes without taking a permit or giving one back. -/
theorem set (h : Accounted holds s items) (hi : items[i]? = some a) (hab : holds b = holds a) :
    Accounted holds s (items.set i b) := by
  unfold Accounted at h ⊢
  rw [countP_set_getElem? hi, hab]
  cases ha : holds a with
  | false => exact h
  | true =>
    have hpos := countP_pos hi ha
    rw [if_pos rfl]
    omega

theorem acquire (h : Accounted holds s items) (hi : items[i]? = some a) (ha : holds a = false)
    (hb : holds b = true) (hs : s.acquire = (true, s')) : Accounted holds s' (items.set i b) := by
  obtain ⟨hinitial, hvalue⟩ := BoundedSemaphore.of_acquire_true hs
  unfold Accounted at h ⊢
  rw [countP_set_getElem? hi, ha, hb, if_neg (by decide), if_pos rfl, hinitial]
  omega

/-- While a permit is held, giving one back cannot fail. -/
theorem release_ne_none (h : Accounted holds s items) (hi : items[i]? = some a)
    (ha : holds a = true) : s.release ≠ none := by
  have hpos := countP_pos hi ha
  unfold Accounted at h
  exact BoundedSemaphore.release_ne_none (by omega)

theorem release (h : Accounted holds s items) (hi : items[i]? = some a) (ha : holds a = true)
    (hb : holds b = false) (hs : s.release = some s') : Accounted holds s' (items.set i b) := by
  have hpos := countP_pos hi ha
  obtain ⟨hinitial, hvalue⟩ := BoundedSemaphore.of_release hs
  unfold Accounted at h ⊢
  rw [countP_set_getElem? hi, ha, hb, if_pos rfl, if_neg (by decide), hinitial]
  omega

end Accounted

end Concurrency
