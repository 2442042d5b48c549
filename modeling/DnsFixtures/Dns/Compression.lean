import DnsFixtures.Dns.Name

/-!
# Compressed names on the wire

`Expands w off ls ps` says what the name written at offset `off` of the message `w` is: its labels
`ls`, and the targets `ps` of the compression pointers followed on the way.  It says nothing of how
far a reader is willing to go; a reader is a bound on the walk:

* `Backward off ps`: every pointer leads strictly before the previous target, the first one before
  the name itself;
* the limits of `LegalLabels`.

`EndsAt w off stop`: the octets of the name itself end at `stop`, behind its root or first pointer;
`Segment` adds what they hold, which other octets may hold as well (`Segment.congr`).

`Expands.unique` makes two readers of one name agree wherever both succeed, and `expand` is the
reader that follows backward pointers only (`expand_sound`, `expand_complete`).
-/

namespace Dns

/-- The offset a compression pointer with these two octets leads to. -/
def pointerTarget (hi lo : UInt8) : Nat := hi.toNat % 64 * 256 + lo.toNat

/-- The name at `off` in `w` has the labels `ls` and leads through pointers to `ps`. -/
inductive Expands (w : Octets) : Nat → List Label → List Nat → Prop
  | root {off : Nat} : w[off]? = some 0 → Expands w off [] []
  | label {off : Nat} {len : UInt8} {ls : List Label} {ps : List Nat} :
      w[off]? = some len → 0 < len.toNat → len.toNat ≤ 63 → off + 1 + len.toNat ≤ w.length →
      Expands w (off + 1 + len.toNat) ls ps →
      Expands w off ((w.drop (off + 1)).take len.toNat :: ls) ps
  | pointer {off : Nat} {hi lo : UInt8} {ls : List Label} {ps : List Nat} :
      w[off]? = some hi → 192 ≤ hi.toNat → w[off + 1]? = some lo →
      Expands w (pointerTarget hi lo) ls ps →
      Expands w off ls (pointerTarget hi lo :: ps)

/-- Each target lies strictly before the previous one, the first before `bound`. -/
def Backward : Nat → List Nat → Prop
  | _, [] => True
  | bound, p :: ps => p < bound ∧ Backward p ps

instance Backward.decidable : ∀ (bound : Nat) (ps : List Nat), Decidable (Backward bound ps)
  | _, [] => inferInstanceAs (Decidable True)
  | bound, p :: ps =>
    have := Backward.decidable p ps
    inferInstanceAs (Decidable (p < bound ∧ Backward p ps))

theorem Backward.length_le {bound : Nat} {ps : List Nat} (h : Backward bound ps) :
    ps.length ≤ bound := by
  induction ps generalizing bound with
  | nil => exact Nat.zero_le _
  | cons p ps ih =>
    have := ih h.2
    have := h.1
    rw [List.length_cons]
    omega

/-! ### A name has one expansion -/

section

variable {w : Octets} {off : Nat} {ls ls' : List Label} {ps ps' : List Nat}

/-- A name starts with a zero, with the length of a label or with a pointer. -/
theorem Expands.first_octet (h : Expands w off ls ps) :
    ∃ b, w[off]? = some b ∧ (b.toNat ≤ 63 ∨ 192 ≤ b.toNat) := by
  cases h with
  | root h0 => exact ⟨0, h0, Or.inl (by decide)⟩
  | label h0 _ hle => exact ⟨_, h0, Or.inl hle⟩
  | pointer h0 hge => exact ⟨_, h0, Or.inr hge⟩

theorem Expands.of_zero (h : Expands w off ls ps) (h0 : w[off]? = some 0) : ls = [] ∧ ps = [] := by
  cases h with
  | root => exact ⟨rfl, rfl⟩
  | label h1 hpos =>
    rw [h0] at h1
    cases h1
    exact absurd hpos (by decide)
  | pointer h1 hge =>
    rw [h0] at h1
    cases h1
    exact absurd hge (by decide)

theorem Expands.of_length {len : UInt8} (h : Expands w off ls ps) (h0 : w[off]? = some len)
    (hpos : 0 < len.toNat) (hle : len.toNat ≤ 63) :
    ∃ ls', ls = (w.drop (off + 1)).take len.toNat :: ls' ∧
      Expands w (off + 1 + len.toNat) ls' ps := by
  cases h with
  | root h1 =>
    rw [h0] at h1
    cases h1
    exact absurd hpos (by decide)
  | label h1 _ _ _ hrest =>
    rw [h0] at h1
    cases h1
    exact ⟨_, rfl, hrest⟩
  | pointer h1 hge =>
    rw [h0] at h1
    cases h1
    omega

theorem Expands.of_pointer {hi lo : UInt8} (h : Expands w off ls ps) (h0 : w[off]? = some hi)
    (hge : 192 ≤ hi.toNat) (h1 : w[off + 1]? = some lo) :
    ∃ ps', ps = pointerTarget hi lo :: ps' ∧ Expands w (pointerTarget hi lo) ls ps' := by
  cases h with
  | root h2 =>
    rw [h0] at h2
    cases h2
    exact absurd hge (by decide)
  | label h2 _ hle =>
    rw [h0] at h2
    cases h2
    omega
  | pointer h2 _ h3 hrest =>
    rw [h0] at h2
    cases h2
    rw [h1] at h3
    cases h3
    exact ⟨_, rfl, hrest⟩

theorem Expands.unique (h : Expands w off ls ps) (h' : Expands w off ls' ps') :
    ls = ls' ∧ ps = ps' := by
  -- the first octet says how both go on
  induction h generalizing ls' ps' with
  | root h0 =>
    obtain ⟨rfl, rfl⟩ := h'.of_zero h0
    exact ⟨rfl, rfl⟩
  | label h0 hpos hle _ _ ih =>
    obtain ⟨_, rfl, hrest⟩ := h'.of_length h0 hpos hle
    obtain ⟨rfl, rfl⟩ := ih hrest
    exact ⟨rfl, rfl⟩
  | pointer h0 hge h1 _ ih =>
    obtain ⟨_, rfl, hrest⟩ := h'.of_pointer h0 hge h1
    obtain ⟨rfl, rfl⟩ := ih hrest
    exact ⟨rfl, rfl⟩

end

theorem Expands.label_bounds {w : Octets} {off : Nat} {ls : List Label} {ps : List Nat}
    (h : Expands w off ls ps) : ∀ l ∈ ls, l ≠ [] ∧ l.length ≤ 63 := by
  induction h with
  | root _ => simp
  | label _ hpos hle hin _ ih =>
    intro l hl
    rcases List.mem_cons.mp hl with rfl | hl
    · have hlen : ∀ off len : Nat, off + 1 + len ≤ w.length →
          ((w.drop (off + 1)).take len).length = len := by
        intro off len h
        rw [List.length_take, List.length_drop]
        omega
      rw [← List.length_pos_iff, hlen _ _ hin]
      exact ⟨hpos, hle⟩
    · exact ih l hl
  | pointer _ _ _ _ ih => exact ih

/-- Inside 255 octets, the labels of an expansion are legal. -/
theorem Expands.legal {w : Octets} {off : Nat} {ls : List Label} {ps : List Nat}
    (h : Expands w off ls ps) (hle : nameLength ls ≤ 255) : LegalLabels ls :=
  ⟨fun l hl => (h.label_bounds l hl).1, fun l hl => (h.label_bounds l hl).2, hle⟩

/-! ### The octets of a name -/

theorem Expands.lt_length {w : Octets} {off : Nat} {ls : List Label} {ps : List Nat}
    (h : Expands w off ls ps) : off < w.length := by
  obtain ⟨b, hb, -⟩ := h.first_octet
  exact (List.getElem?_eq_some_iff.mp hb).1

/-- No expansion leads back to its own offset. -/
theorem Expands.not_cons {w : Octets} {off : Nat} {ls ls' : List Label} {p : Nat} {ps : List Nat}
    (h : Expands w off ls (p :: ps)) : ¬ Expands w off ls' ps := by
  intro h'
  have := congrArg List.length (h.unique h').2
  simp at this

/-- The octets of the name at `off` end at `stop`: behind its root, or behind its first pointer. -/
inductive EndsAt (w : Octets) : Nat → Nat → Prop
  | root {off : Nat} : w[off]? = some 0 → EndsAt w off (off + 1)
  | label {off stop : Nat} {len : UInt8} : w[off]? = some len → 0 < len.toNat → len.toNat ≤ 63 →
      EndsAt w (off + 1 + len.toNat) stop → EndsAt w off stop
  | pointer {off : Nat} {hi : UInt8} : w[off]? = some hi → 192 ≤ hi.toNat → EndsAt w off (off + 2)

theorem Expands.exists_endsAt {w : Octets} {off : Nat} {ls : List Label} {ps : List Nat}
    (h : Expands w off ls ps) : ∃ stop, EndsAt w off stop := by
  induction h with
  | root h0 => exact ⟨_, .root h0⟩
  | label h0 hpos hle _ _ ih =>
    obtain ⟨stop, hstop⟩ := ih
    exact ⟨stop, .label h0 hpos hle hstop⟩
  | pointer h0 hge => exact ⟨_, .pointer h0 hge⟩

theorem EndsAt.lt {w : Octets} {off stop : Nat} (h : EndsAt w off stop) : off < stop := by
  induction h with
  | root => omega
  | label _ hpos _ _ ih => omega
  | pointer => omega

theorem EndsAt.unique {w : Octets} {off stop stop' : Nat} (h : EndsAt w off stop)
    (h' : EndsAt w off stop') : stop = stop' := by
  induction h with
  | root h0 =>
    cases h' with
    | root => rfl
    | label h1 hpos =>
      rw [h0] at h1
      cases h1
      exact absurd hpos (by decide)
    | pointer h1 hge =>
      rw [h0] at h1
      cases h1
      exact absurd hge (by decide)
  | label h0 hpos hle _ ih =>
    cases h' with
    | root h1 =>
      rw [h0] at h1
      cases h1
      exact absurd hpos (by decide)
    | label h1 _ _ hrest =>
      rw [h0] at h1
      cases h1
      exact ih hrest
    | pointer h1 hge =>
      rw [h0] at h1
      cases h1
      omega
  | pointer h0 hge =>
    cases h' with
    | root h1 =>
      rw [h0] at h1
      cases h1
      exact absurd hge (by decide)
    | label h1 _ hle =>
      rw [h0] at h1
      cases h1
      omega
    | pointer => rfl

/-! ### The part of a name in front of its first pointer -/

/-- The octets from `off` to `stop` hold the labels `front`, and behind them the root or a pointer to
`target`. -/
inductive Segment (w : Octets) : Nat → List Label → Option Nat → Nat → Prop
  | root {off : Nat} : w[off]? = some 0 → Segment w off [] none (off + 1)
  | label {off stop : Nat} {len : UInt8} {front : List Label} {target : Option Nat} :
      w[off]? = some len → 0 < len.toNat → len.toNat ≤ 63 →
      Segment w (off + 1 + len.toNat) front target stop →
      Segment w off ((w.drop (off + 1)).take len.toNat :: front) target stop
  | pointer {off : Nat} {hi lo : UInt8} : w[off]? = some hi → 192 ≤ hi.toNat →
      w[off + 1]? = some lo → Segment w off [] (some (pointerTarget hi lo)) (off + 2)

namespace Segment

variable {w w' : Octets} {off stop : Nat} {front : List Label} {target : Option Nat}

theorem lt_length (h : Segment w off front target stop) : off < w.length := by
  have hsome : ∃ b, w[off]? = some b := by
    cases h with
    | root h0 => exact ⟨_, h0⟩
    | label h0 => exact ⟨_, h0⟩
    | pointer h0 => exact ⟨_, h0⟩
  obtain ⟨b, hb⟩ := hsome
  exact (List.getElem?_eq_some_iff.mp hb).1

theorem endsAt (h : Segment w off front target stop) : EndsAt w off stop := by
  induction h with
  | root h0 => exact .root h0
  | label h0 hpos hle _ ih => exact .label h0 hpos hle ih
  | pointer h0 hge => exact .pointer h0 hge

theorem lt_stop (h : Segment w off front target stop) : off < stop := h.endsAt.lt

/-- Octets that agree up to `stop` hold the same. -/
theorem congr (h : Segment w off front target stop)
    (hw : ∀ i, off ≤ i → i < stop → w'[i]? = w[i]?) : Segment w' off front target stop := by
  induction h with
  | root h0 => exact .root ((hw _ (Nat.le_refl _) (by omega)).trans h0)
  | @label off stop len front target h0 hpos hle hrest ih =>
    have hlt := hrest.lt_stop
    have hslice : (w.drop (off + 1)).take len.toNat = (w'.drop (off + 1)).take len.toNat := by
      apply List.ext_getElem?
      intro i
      rw [List.getElem?_take, List.getElem?_take, List.getElem?_drop, List.getElem?_drop]
      split_ifs
      · exact (hw _ (by omega) (by omega)).symm
      · rfl
    rw [hslice]
    exact .label ((hw off (Nat.le_refl _) (by omega)).trans h0) hpos hle
      (ih fun i hi hlt => hw i (by omega) hlt)
  | pointer h0 hge h1 =>
    exact .pointer ((hw _ (Nat.le_refl _) (by omega)).trans h0) hge
      ((hw _ (by omega) (by omega)).trans h1)

/-- What a name with a first segment expands to. -/
theorem expands_iff (h : Segment w off front target stop) {ls : List Label} {ps : List Nat} :
    Expands w off ls ps ↔ match target with
      | none => ls = front ∧ ps = []
      | some p => ∃ back rest, Expands w p back rest ∧ ls = front ++ back ∧ ps = p :: rest := by
  induction h generalizing ls ps with
  | root h0 =>
    dsimp only
    constructor
    · exact fun h => h.of_zero h0
    · rintro ⟨rfl, rfl⟩
      exact .root h0
  | @label off stop len front target h0 hpos hle hrest ih =>
    have hin := hrest.lt_length
    -- the label, and what the rest of the segment expands to
    have hstep : Expands w off ls ps ↔ ∃ ls', Expands w (off + 1 + len.toNat) ls' ps ∧
        ls = (w.drop (off + 1)).take len.toNat :: ls' := by
      constructor
      · intro h
        obtain ⟨ls', rfl, hexp⟩ := h.of_length h0 hpos hle
        exact ⟨ls', hexp, rfl⟩
      · rintro ⟨ls', hexp, rfl⟩
        exact .label h0 hpos hle (by omega) hexp
    rw [hstep]
    cases target with
    | none =>
      constructor
      · rintro ⟨ls', hexp, rfl⟩
        obtain ⟨rfl, rfl⟩ := ih.mp hexp
        exact ⟨rfl, rfl⟩
      · rintro ⟨rfl, rfl⟩
        exact ⟨_, ih.mpr ⟨rfl, rfl⟩, rfl⟩
    | some p =>
      constructor
      · rintro ⟨ls', hexp, rfl⟩
        obtain ⟨back, rest, hback, rfl, rfl⟩ := ih.mp hexp
        exact ⟨back, rest, hback, rfl, rfl⟩
      · rintro ⟨back, rest, hback, rfl, rfl⟩
        exact ⟨_, ih.mpr ⟨back, rest, hback, rfl, rfl⟩, rfl⟩
  | @pointer off hi lo h0 hge h1 =>
    constructor
    · intro h
      obtain ⟨rest, rfl, hexp⟩ := h.of_pointer h0 hge h1
      exact ⟨ls, rest, hexp, rfl, rfl⟩
    · rintro ⟨back, rest, hback, rfl, rfl⟩
      exact .pointer h0 hge h1 hback

end Segment

theorem Expands.exists_segment {w : Octets} {off : Nat} {ls : List Label} {ps : List Nat}
    (h : Expands w off ls ps) : ∃ front target stop, Segment w off front target stop := by
  induction h with
  | root h0 => exact ⟨_, _, _, .root h0⟩
  | label h0 hpos hle _ _ ih =>
    obtain ⟨front, target, stop, hrest⟩ := ih
    exact ⟨_, _, _, .label h0 hpos hle hrest⟩
  | pointer h0 hge h1 => exact ⟨_, _, _, .pointer h0 hge h1⟩

/-! ### Uncompressed names -/

/-- Labels written out at `off` are their own expansion. -/
theorem expands_of_holdsAt {w : Octets} {ls : List Label} (hne : ∀ l ∈ ls, l ≠ [])
    (hle : ∀ l ∈ ls, l.length ≤ 63) {off : Nat} (h : HoldsAt w off (wireLabels ls)) :
    Expands w off ls [] := by
  induction ls generalizing off with
  | nil => exact .root h.getElem?
  | cons l ls ih =>
    have hl := hle l List.mem_cons_self
    have hpos := List.length_pos_iff.mpr (hne l List.mem_cons_self)
    have hlen : (UInt8.ofNat l.length).toNat = l.length := by
      rw [UInt8.toNat_ofNat', Nat.mod_eq_of_lt (by omega)]
    rw [wireLabels_cons] at h
    obtain ⟨hlab, hrest⟩ := (holdsAt_append _ _ _ _).mp h.tail
    have hin := hlab.length_le (List.length_pos_iff.mp hpos)
    have hslice := hlab.slice
    have hexp := Expands.label h.getElem? (by omega) (by omega) (by omega)
      (ih (fun x hx => hne x (List.mem_cons_of_mem _ hx))
        (fun x hx => hle x (List.mem_cons_of_mem _ hx)) (by rwa [hlen]))
    rwa [hlen, hslice] at hexp

/-- They end right behind the root. -/
theorem endsAt_of_holdsAt {w : Octets} {ls : List Label} (hne : ∀ l ∈ ls, l ≠ [])
    (hle : ∀ l ∈ ls, l.length ≤ 63) {off : Nat} (h : HoldsAt w off (wireLabels ls)) :
    EndsAt w off (off + nameLength ls) := by
  induction ls generalizing off with
  | nil => exact .root h.getElem?
  | cons l ls ih =>
    have hl := hle l List.mem_cons_self
    have hpos := List.length_pos_iff.mpr (hne l List.mem_cons_self)
    have hlen : (UInt8.ofNat l.length).toNat = l.length := by
      rw [UInt8.toNat_ofNat', Nat.mod_eq_of_lt (by omega)]
    rw [wireLabels_cons] at h
    obtain ⟨-, hrest⟩ := (holdsAt_append _ _ _ _).mp h.tail
    have hstop := ih (fun x hx => hne x (List.mem_cons_of_mem _ hx))
      (fun x hx => hle x (List.mem_cons_of_mem _ hx)) hrest
    have heq : off + nameLength (l :: ls) = off + 1 + l.length + nameLength ls := by
      rw [nameLength_cons]
      omega
    rw [heq]
    exact .label h.getElem? (by omega) (by omega) (by rwa [hlen])

/-! ### The reader of backward pointers -/

/-- The labels at `off` and the offset behind them, following pointers before `bound` only.  The
first argument bounds the steps. -/
def expand (w : Octets) : Nat → Nat → Nat → Option (List Label × Nat)
  | 0, _, _ => none
  | fuel + 1, off, bound =>
    match w[off]? with
    | none => none
    | some len =>
      if len.toNat = 0 then some ([], off + 1)
      else if 192 ≤ len.toNat then
        match w[off + 1]? with
        | none => none
        | some lo =>
          if pointerTarget len lo < bound then
            (expand w fuel (pointerTarget len lo) (pointerTarget len lo)).map fun r =>
              (r.1, off + 2)
          else none
      else if 64 ≤ len.toNat then none
      else if w.length < off + 1 + len.toNat then none
      else
        (expand w fuel (off + 1 + len.toNat) bound).map fun r =>
          ((w.drop (off + 1)).take len.toNat :: r.1, r.2)

theorem expand_sound {w : Octets} {fuel off bound : Nat} {ls : List Label} {e : Nat}
    (h : expand w fuel off bound = some (ls, e)) :
    ∃ ps, Expands w off ls ps ∧ Backward bound ps := by
  induction fuel generalizing off bound ls e with
  | zero => cases h
  | succ fuel ih =>
    rw [expand] at h
    split at h
    · cases h
    · rename_i len hlen
      split_ifs at h with h0 h192 h64 hlong
      · cases h
        have : len = 0 := UInt8.toNat_inj.mp h0
        exact ⟨[], .root (this ▸ hlen), trivial⟩
      · split at h
        · cases h
        · rename_i lo hlo
          split_ifs at h with hlt
          obtain ⟨⟨ls', e'⟩, hr, he⟩ := Option.map_eq_some_iff.mp h
          cases he
          obtain ⟨ps, hps, hb⟩ := ih hr
          exact ⟨_, .pointer hlen h192 hlo hps, hlt, hb⟩
      · obtain ⟨⟨ls', e'⟩, hr, he⟩ := Option.map_eq_some_iff.mp h
        cases he
        obtain ⟨ps, hps, hb⟩ := ih hr
        exact ⟨ps, .label hlen (by omega) (by omega) (by omega) hps, hb⟩

theorem expand_complete {w : Octets} {off : Nat} {ls : List Label} {ps : List Nat}
    (h : Expands w off ls ps) {bound fuel : Nat} (hb : Backward bound ps)
    (hfuel : ls.length + ps.length < fuel) : ∃ e, expand w fuel off bound = some (ls, e) := by
  induction h generalizing bound fuel with
  | root h0 =>
    obtain ⟨fuel, rfl⟩ : ∃ k, fuel = k + 1 := ⟨fuel - 1, by omega⟩
    exact ⟨_, by rw [expand, h0]; rfl⟩
  | @label off len ls ps h0 hpos hle hin _ ih =>
    obtain ⟨fuel, rfl⟩ : ∃ k, fuel = k + 1 := ⟨fuel - 1, by omega⟩
    rw [List.length_cons] at hfuel
    obtain ⟨e, he⟩ := ih hb (by omega : ls.length + ps.length < fuel)
    refine ⟨e, ?_⟩
    simp only [expand, h0]
    rw [if_neg (by omega), if_neg (by omega), if_neg (by omega), if_neg (by omega), he]
    rfl
  | @pointer off hi lo ls ps h0 hge h1 _ ih =>
    obtain ⟨fuel, rfl⟩ : ∃ k, fuel = k + 1 := ⟨fuel - 1, by omega⟩
    rw [List.length_cons] at hfuel
    obtain ⟨e, he⟩ := ih hb.2 (by omega : ls.length + ps.length < fuel)
    refine ⟨off + 2, ?_⟩
    simp only [expand, h0, h1]
    rw [if_neg (by omega), if_pos hge, if_pos hb.1, he]
    rfl

/-- The reader ends where the octets of the name do. -/
theorem expand_endsAt {w : Octets} {fuel off bound : Nat} {ls : List Label} {e : Nat}
    (h : expand w fuel off bound = some (ls, e)) : EndsAt w off e := by
  induction fuel generalizing off ls with
  | zero => cases h
  | succ fuel ih =>
    rw [expand] at h
    split at h
    · cases h
    · rename_i len hlen
      split_ifs at h with h0 h192 h64 hlong
      · cases h
        have hzero : len = 0 := UInt8.toNat_inj.mp h0
        exact .root (hzero ▸ hlen)
      · split at h
        · cases h
        · split_ifs at h with hlt
          obtain ⟨⟨ls', e'⟩, -, he⟩ := Option.map_eq_some_iff.mp h
          cases he
          exact .pointer hlen h192
      · obtain ⟨⟨ls', e'⟩, hr, he⟩ := Option.map_eq_some_iff.mp h
        cases he
        exact .label hlen (by omega) (by omega) (ih hr)

/-- Without pointers, the reader ends right behind the labels. -/
theorem expand_of_holdsAt {w : Octets} {ls : List Label} (hne : ∀ l ∈ ls, l ≠ [])
    (hle : ∀ l ∈ ls, l.length ≤ 63) {off bound fuel : Nat} (h : HoldsAt w off (wireLabels ls))
    (hfuel : ls.length < fuel) :
    expand w fuel off bound = some (ls, off + nameLength ls) := by
  induction ls generalizing off fuel with
  | nil =>
    obtain ⟨fuel, rfl⟩ : ∃ k, fuel = k + 1 := ⟨fuel - 1, by omega⟩
    rw [expand, h.getElem?]
    rfl
  | cons l ls ih =>
    obtain ⟨fuel, rfl⟩ : ∃ k, fuel = k + 1 := ⟨fuel - 1, by omega⟩
    rw [List.length_cons] at hfuel
    have hl := hle l List.mem_cons_self
    have hpos := List.length_pos_iff.mpr (hne l List.mem_cons_self)
    have hlen : (UInt8.ofNat l.length).toNat = l.length := by
      rw [UInt8.toNat_ofNat', Nat.mod_eq_of_lt (by omega)]
    rw [wireLabels_cons] at h
    obtain ⟨hlab, hrest⟩ := (holdsAt_append _ _ _ _).mp h.tail
    have hin := hlab.length_le (List.length_pos_iff.mp hpos)
    have hr := ih (fun x hx => hne x (List.mem_cons_of_mem _ hx))
      (fun x hx => hle x (List.mem_cons_of_mem _ hx)) hrest (by omega : ls.length < fuel)
    simp only [expand, h.getElem?, hlen]
    rw [if_neg (by omega), if_neg (by omega), if_neg (by omega), if_neg (by omega), hr,
      hlab.slice, nameLength_cons]
    simp only [Option.map_some, Option.some.injEq, Prod.mk.injEq, true_and]
    omega

end Dns
