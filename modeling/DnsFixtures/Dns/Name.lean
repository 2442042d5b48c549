import DnsFixtures.Dns.Octets

/-!
# Domain names

A `Name` is an absolute domain name: its labels from left to right, the root label left out.  The
limits of the wire format (labels of 1 to 63 octets, at most 255 octets in all) are a field of the
structure, so a `Name` that cannot be written on the wire does not exist.

Names are compared without regard to letter case: `SameAs` is equality of the folded labels, and
`IsSubdomain` is the suffix order on them.
-/

namespace Dns

abbrev Label := Octets

/-! ### Label sequences -/

/-- The octets a label sequence takes on the wire without compression, the root label included. -/
def nameLength (ls : List Label) : Nat := (ls.map fun l => l.length + 1).sum + 1

def foldCase (ls : List Label) : List Label := ls.map lower

/-- The limits every domain name obeys. -/
structure LegalLabels (ls : List Label) : Prop where
  label_ne_nil : ∀ l ∈ ls, l ≠ []
  label_le : ∀ l ∈ ls, l.length ≤ 63
  total_le : nameLength ls ≤ 255

theorem legalLabels_iff (ls : List Label) :
    LegalLabels ls ↔ (∀ l ∈ ls, l ≠ []) ∧ (∀ l ∈ ls, l.length ≤ 63) ∧ nameLength ls ≤ 255 :=
  ⟨fun h => ⟨h.1, h.2, h.3⟩, fun h => ⟨h.1, h.2.1, h.2.2⟩⟩

instance (ls : List Label) : Decidable (LegalLabels ls) :=
  decidable_of_iff' _ (legalLabels_iff ls)

@[simp] theorem nameLength_nil : nameLength [] = 1 := rfl

@[simp] theorem nameLength_cons (l : Label) (ls : List Label) :
    nameLength (l :: ls) = l.length + 1 + nameLength ls := by
  simp only [nameLength, List.map_cons, List.sum_cons]
  omega

theorem nameLength_append (a b : List Label) :
    nameLength (a ++ b) + 1 = nameLength a + nameLength b := by
  simp only [nameLength, List.map_append, List.sum_append]
  omega

theorem nameLength_pos (ls : List Label) : 0 < nameLength ls := Nat.succ_pos _

/-- Labels without an empty one are at most half as many as the octets they take. -/
theorem two_mul_length_lt_nameLength {ls : List Label} (h : ∀ l ∈ ls, l ≠ []) :
    2 * ls.length < nameLength ls := by
  induction ls with
  | nil => simp
  | cons l ls ih =>
    have hl := List.length_pos_iff.mpr (h l List.mem_cons_self)
    have := ih fun x hx => h x (List.mem_cons_of_mem _ hx)
    simp only [List.length_cons, nameLength_cons]
    omega

@[simp] theorem foldCase_nil : foldCase [] = [] := rfl

@[simp] theorem foldCase_cons (l : Label) (ls : List Label) :
    foldCase (l :: ls) = lower l :: foldCase ls := rfl

@[simp] theorem foldCase_append (a b : List Label) :
    foldCase (a ++ b) = foldCase a ++ foldCase b := List.map_append ..

@[simp] theorem length_foldCase (ls : List Label) : (foldCase ls).length = ls.length :=
  List.length_map ..

@[simp] theorem foldCase_foldCase (ls : List Label) : foldCase (foldCase ls) = foldCase ls := by
  simp [foldCase, List.map_map, Function.comp_def]

theorem foldCase_take (n : Nat) (ls : List Label) : foldCase (ls.take n) = (foldCase ls).take n :=
  List.map_take ..

theorem foldCase_drop (n : Nat) (ls : List Label) : foldCase (ls.drop n) = (foldCase ls).drop n :=
  List.map_drop ..

@[simp] theorem nameLength_foldCase (ls : List Label) : nameLength (foldCase ls) = nameLength ls := by
  simp [nameLength, foldCase, List.map_map, Function.comp_def]

theorem LegalLabels.of_append_right {a b : List Label} (h : LegalLabels (a ++ b)) :
    LegalLabels b := by
  refine ⟨fun l hl => h.label_ne_nil l (List.mem_append_right _ hl),
    fun l hl => h.label_le l (List.mem_append_right _ hl), ?_⟩
  have := nameLength_append a b
  have := nameLength_pos a
  have := h.total_le
  omega

theorem LegalLabels.of_append_left {a b : List Label} (h : LegalLabels (a ++ b)) :
    LegalLabels a := by
  refine ⟨fun l hl => h.label_ne_nil l (List.mem_append_left _ hl),
    fun l hl => h.label_le l (List.mem_append_left _ hl), ?_⟩
  have := nameLength_append a b
  have := nameLength_pos b
  have := h.total_le
  omega

/-! ### Names -/

/-- An absolute domain name, the root label left out of `labels`. -/
@[ext]
structure Name where
  labels : List Label
  legal : LegalLabels labels
  deriving DecidableEq

namespace Name

def root : Name := ⟨[], by decide⟩

/-- The name with these labels, when they obey the limits. -/
def ofLabels? (ls : List Label) : Option Name := if h : LegalLabels ls then some ⟨ls, h⟩ else none

theorem ofLabels?_of_legal {ls : List Label} (h : LegalLabels ls) :
    ofLabels? ls = some ⟨ls, h⟩ := dif_pos h

theorem ofLabels?_eq_some {ls : List Label} {n : Name} (h : ofLabels? ls = some n) :
    n.labels = ls := by
  unfold ofLabels? at h
  split_ifs at h
  cases h
  rfl

/-- Equality of names without regard to letter case. -/
def SameAs (a b : Name) : Prop := foldCase a.labels = foldCase b.labels

instance (a b : Name) : Decidable (a.SameAs b) := inferInstanceAs (Decidable (_ = _))

theorem SameAs.refl (a : Name) : a.SameAs a := rfl

theorem SameAs.symm {a b : Name} (h : a.SameAs b) : b.SameAs a := Eq.symm h

theorem SameAs.trans {a b c : Name} (hab : a.SameAs b) (hbc : b.SameAs c) : a.SameAs c :=
  Eq.trans hab hbc

/-- `a` is `b` or lies below it. -/
def IsSubdomain (a b : Name) : Prop := foldCase b.labels <:+ foldCase a.labels

instance (a b : Name) : Decidable (a.IsSubdomain b) := inferInstanceAs (Decidable (_ <:+ _))

/-- The labels of `a` in front of `origin`, when `a` is `origin` or lies below it. -/
def relativize (a origin : Name) : Option (List Label) :=
  if a.IsSubdomain origin then some (a.labels.take (a.labels.length - origin.labels.length))
  else none

/-- The name `pre` in front of `suffix`; there is none above 255 octets. -/
def concatenate (pre : List Label) (suffix : Name) : Option Name := ofLabels? (pre ++ suffix.labels)

theorem relativize_of_append {a origin : Name} {pre post : List Label}
    (ha : a.labels = pre ++ post) (ho : foldCase post = foldCase origin.labels) :
    a.relativize origin = some pre := by
  have hlen : origin.labels.length = post.length := by
    rw [← length_foldCase, ← ho, length_foldCase]
  have hsub : a.IsSubdomain origin := by
    refine ⟨foldCase pre, ?_⟩
    rw [ha, foldCase_append, ho]
  rw [relativize, if_pos hsub, ha, List.length_append, hlen, Nat.add_sub_cancel, List.take_left]

end Name

/-! ### The uncompressed wire form -/

/-- The labels, each behind its length octet, and the root label. -/
def wireLabels (ls : List Label) : Octets :=
  ls.flatMap (fun l => UInt8.ofNat l.length :: l) ++ [0]

@[simp] theorem wireLabels_nil : wireLabels [] = [0] := rfl

@[simp] theorem wireLabels_cons (l : Label) (ls : List Label) :
    wireLabels (l :: ls) = UInt8.ofNat l.length :: (l ++ wireLabels ls) := by
  simp [wireLabels]

@[simp] theorem length_wireLabels (ls : List Label) : (wireLabels ls).length = nameLength ls := by
  induction ls with
  | nil => rfl
  | cons l ls ih =>
    rw [wireLabels_cons, List.length_cons, List.length_append, ih, nameLength_cons]
    omega

end Dns
