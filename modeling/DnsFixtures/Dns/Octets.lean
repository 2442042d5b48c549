import Mathlib

/-!
# Octet strings

A message on the wire is a list of octets.  `packU16` and `packU32` write words in network order,
`readU16` and `readU32` read them back at an offset, and `HoldsAt w off bs` says that `w` holds the
octets `bs` at `off`; a reader of a composite field splits `HoldsAt` along `++`
(`holdsAt_append`).

ASCII text and its octets are exchanged by `decodeAscii` and `textOctets`
(`textOctets_of_decodeAscii`), and `lower` folds the case of the letters only.
-/

namespace Dns

abbrev Octets := List UInt8

/-- A quantifier over a list is decided along the list, not over all values of the type. -/
instance (priority := 2000) decidableForallMem {α : Type*} (p : α → Prop) [DecidablePred p]
    (l : List α) : Decidable (∀ x ∈ l, p x) := List.decidableBAll p l

/-! ### Network order words -/

def packU16 (x : UInt16) : Octets := [UInt8.ofNat (x.toNat / 256), UInt8.ofNat (x.toNat % 256)]

def packU32 (x : UInt32) : Octets :=
  packU16 (UInt16.ofNat (x.toNat / 65536)) ++ packU16 (UInt16.ofNat (x.toNat % 65536))

/-- The word with high octet `hi` and low octet `lo`. -/
def wordOf (hi lo : UInt8) : UInt16 := UInt16.ofNat (hi.toNat * 256 + lo.toNat)

def readU16 (w : Octets) (off : Nat) : Option UInt16 :=
  match w[off]?, w[off + 1]? with
  | some hi, some lo => some (wordOf hi lo)
  | _, _ => none

def readU32 (w : Octets) (off : Nat) : Option UInt32 :=
  match readU16 w off, readU16 w (off + 2) with
  | some hi, some lo => some (UInt32.ofNat (hi.toNat * 65536 + lo.toNat))
  | _, _ => none

@[simp] theorem length_packU16 (x : UInt16) : (packU16 x).length = 2 := rfl

@[simp] theorem length_packU32 (x : UInt32) : (packU32 x).length = 4 := rfl

theorem wordOf_pack (x : UInt16) :
    wordOf (UInt8.ofNat (x.toNat / 256)) (UInt8.ofNat (x.toNat % 256)) = x := by
  have hx := x.toNat_lt
  apply UInt16.toNat_inj.mp
  simp only [wordOf, UInt16.toNat_ofNat', UInt8.toNat_ofNat']
  omega

theorem packU16_wordOf (hi lo : UInt8) : packU16 (wordOf hi lo) = [hi, lo] := by
  have hh := hi.toNat_lt
  have hl := lo.toNat_lt
  have hw : (wordOf hi lo).toNat = hi.toNat * 256 + lo.toNat := by
    rw [wordOf, UInt16.toNat_ofNat', Nat.mod_eq_of_lt (by omega)]
  have h1 : (hi.toNat * 256 + lo.toNat) / 256 = hi.toNat := by omega
  have h2 : (hi.toNat * 256 + lo.toNat) % 256 = lo.toNat := by omega
  rw [packU16, hw, h1, h2, UInt8.ofNat_toNat, UInt8.ofNat_toNat]

theorem packU16_injective {x y : UInt16} (h : packU16 x = packU16 y) : x = y := by
  simp only [packU16, List.cons.injEq, and_true] at h
  rw [← wordOf_pack x, h.1, h.2, wordOf_pack]

/-! ### Octets at an offset -/

/-- `w` holds the octets `bs` at offset `off`. -/
def HoldsAt (w : Octets) (off : Nat) (bs : Octets) : Prop := bs <+: w.drop off

instance (w : Octets) (off : Nat) (bs : Octets) : Decidable (HoldsAt w off bs) :=
  inferInstanceAs (Decidable (_ <+: _))

theorem holdsAt_append (w : Octets) (off : Nat) (a b : Octets) :
    HoldsAt w off (a ++ b) ↔ HoldsAt w off a ∧ HoldsAt w (off + a.length) b := by
  unfold HoldsAt
  constructor
  · rintro ⟨t, ht⟩
    rw [List.append_assoc] at ht
    refine ⟨⟨b ++ t, ht⟩, t, ?_⟩
    rw [← List.drop_drop, ← ht, List.drop_left]
  · rintro ⟨⟨t, ht⟩, s, hs⟩
    refine ⟨s, ?_⟩
    rw [← List.drop_drop, ← ht, List.drop_left] at hs
    rw [List.append_assoc, hs, ht]

theorem holdsAt_of_split (pre bs post : Octets) : HoldsAt (pre ++ bs ++ post) pre.length bs := by
  refine ⟨post, ?_⟩
  rw [List.append_assoc, List.drop_left]

theorem holdsAt_zero_iff (w bs : Octets) : HoldsAt w 0 bs ↔ bs <+: w := Iff.rfl

/-- What is held lies inside the octet string. -/
theorem HoldsAt.length_le {w : Octets} {off : Nat} {bs : Octets} (h : HoldsAt w off bs)
    (hbs : bs ≠ []) : off + bs.length ≤ w.length := by
  have hle := List.IsPrefix.length_le h
  have hpos : 0 < bs.length := List.length_pos_iff.mpr hbs
  rw [List.length_drop] at hle
  omega

theorem HoldsAt.getElem? {w : Octets} {off : Nat} {b : UInt8} {bs : Octets}
    (h : HoldsAt w off (b :: bs)) : w[off]? = some b := by
  obtain ⟨t, ht⟩ := h
  have hd : (w.drop off)[0]? = some b := by rw [← ht]; rfl
  rwa [List.getElem?_drop, Nat.add_zero] at hd

theorem HoldsAt.tail {w : Octets} {off : Nat} {b : UInt8} {bs : Octets}
    (h : HoldsAt w off (b :: bs)) : HoldsAt w (off + 1) bs :=
  ((holdsAt_append w off [b] bs).mp h).2

theorem HoldsAt.slice {w : Octets} {off : Nat} {bs : Octets} (h : HoldsAt w off bs) :
    (w.drop off).take bs.length = bs :=
  (List.prefix_iff_eq_take.mp h).symm

theorem HoldsAt.readU16 {w : Octets} {off : Nat} {x : UInt16} (h : HoldsAt w off (packU16 x)) :
    readU16 w off = some x := by
  have h0 := HoldsAt.getElem? h
  have h1 := HoldsAt.getElem? (HoldsAt.tail h)
  simp only [Dns.readU16, h0, h1, wordOf_pack]

theorem HoldsAt.readU32 {w : Octets} {off : Nat} {x : UInt32} (h : HoldsAt w off (packU32 x)) :
    readU32 w off = some x := by
  have hx := x.toNat_lt
  obtain ⟨hhi, hlo⟩ := (holdsAt_append _ _ _ _).mp h
  have h1 := hhi.readU16
  have h2 := HoldsAt.readU16 hlo
  rw [length_packU16] at h2
  simp only [Dns.readU32, h1, h2, Option.some.injEq]
  apply UInt32.toNat_inj.mp
  simp only [UInt32.toNat_ofNat', UInt16.toNat_ofNat']
  omega

theorem readU16_eq_some_iff {w : Octets} {off : Nat} {x : UInt16} :
    readU16 w off = some x ↔ HoldsAt w off (packU16 x) := by
  refine ⟨fun h => ?_, HoldsAt.readU16⟩
  unfold readU16 at h
  split at h
  · rename_i hi lo h0 h1
    cases h
    rw [packU16_wordOf]
    have hlt : off + 1 < w.length := (List.getElem?_eq_some_iff.mp h1).1
    have e0 := (List.getElem?_eq_some_iff.mp h0).2
    have e1 := (List.getElem?_eq_some_iff.mp h1).2
    refine ⟨w.drop (off + 2), ?_⟩
    rw [List.drop_eq_getElem_cons (by omega : off < w.length), List.drop_eq_getElem_cons hlt,
      e0, e1]
    rfl
  · cases h

theorem readU16_append (front rest : Octets) :
    readU16 (front ++ rest) front.length = readU16 rest 0 := by
  unfold readU16
  rw [List.getElem?_append_right (Nat.le_refl _), List.getElem?_append_right (Nat.le_add_right _ 1),
    Nat.sub_self, Nat.add_sub_cancel_left]

theorem readU16_drop (w : Octets) (off : Nat) : readU16 (w.drop off) 0 = readU16 w off := by
  unfold readU16
  rw [List.getElem?_drop, List.getElem?_drop, Nat.add_zero]

/-- A word can be read exactly where two octets remain. -/
theorem readU16_isSome_iff (w : Octets) (off : Nat) :
    (readU16 w off).isSome ↔ off + 2 ≤ w.length := by
  constructor
  · intro h
    obtain ⟨x, hx⟩ := Option.isSome_iff_exists.mp h
    exact HoldsAt.length_le (readU16_eq_some_iff.mp hx) (by simp [packU16])
  · intro h
    have h0 : off < w.length := by omega
    have h1 : off + 1 < w.length := by omega
    simp [readU16, List.getElem?_eq_getElem h0, List.getElem?_eq_getElem h1]

/-! ### Letter case -/

/-- ASCII lower case of one octet; every octet that is no capital letter stays. -/
def lowerOctet (b : UInt8) : UInt8 := if 65 ≤ b ∧ b ≤ 90 then b + 32 else b

def lower (bs : Octets) : Octets := bs.map lowerOctet

@[simp] theorem length_lower (bs : Octets) : (lower bs).length = bs.length := List.length_map ..

@[simp] theorem lower_append (a b : Octets) : lower (a ++ b) = lower a ++ lower b :=
  List.map_append ..

/-- A property of octets holds of all of them once it is checked on the 256 numerals. -/
theorem forall_octet {p : UInt8 → Prop} (h : ∀ n < 256, p (UInt8.ofNat n)) (b : UInt8) : p b := by
  have hb := h b.toNat b.toNat_lt
  rwa [UInt8.ofNat_toNat] at hb

theorem lowerOctet_lowerOctet (b : UInt8) : lowerOctet (lowerOctet b) = lowerOctet b :=
  forall_octet (p := fun b => lowerOctet (lowerOctet b) = lowerOctet b) (by decide +kernel) b

/-- Lower case makes no octet ASCII. -/
theorem lt_of_lowerOctet_lt {b : UInt8} (h : (lowerOctet b).toNat < 128) : b.toNat < 128 := by
  revert h
  exact forall_octet (p := fun b => (lowerOctet b).toNat < 128 → b.toNat < 128) (by decide +kernel) b

@[simp] theorem lower_lower (bs : Octets) : lower (lower bs) = lower bs := by
  simp [lower, List.map_map, Function.comp_def, lowerOctet_lowerOctet]

/-! ### ASCII text -/

/-- Every character of the text is ASCII. -/
def IsAsciiText (s : String) : Prop := ∀ c ∈ s.toList, c.toNat < 128

instance (s : String) : Decidable (IsAsciiText s) := List.decidableBAll ..

/-- The text with one character for each octet. -/
def octetsText (bs : Octets) : String := String.ofList (bs.map fun b => Char.ofNat b.toNat)

/-- The text an octet string spells, when every octet of it is ASCII. -/
def decodeAscii (bs : Octets) : Option String :=
  if ∀ b ∈ bs, b.toNat < 128 then some (octetsText bs) else none

/-- The octets of an ASCII text. -/
def textOctets (s : String) : Octets := s.toList.map fun c => UInt8.ofNat c.toNat

def lowerText (s : String) : String := String.ofList (s.toList.map Char.toLower)

theorem toNat_charOfNat {n : Nat} (h : n < 256) : (Char.ofNat n).toNat = n := by
  have hv : n.isValidChar := Or.inl (by omega)
  simp [Char.ofNat, hv, Char.ofNatAux, Char.toNat]

@[simp] theorem textOctets_append (s t : String) :
    textOctets (s ++ t) = textOctets s ++ textOctets t := by
  simp [textOctets]

theorem isAsciiText_append {s t : String} :
    IsAsciiText (s ++ t) ↔ IsAsciiText s ∧ IsAsciiText t := by
  simp only [IsAsciiText, String.toList_append, List.mem_append]
  exact ⟨fun h => ⟨fun c hc => h c (.inl hc), fun c hc => h c (.inr hc)⟩,
    fun h c hc => hc.elim (h.1 c) (h.2 c)⟩

theorem isAsciiText_octetsText {bs : Octets} (h : ∀ b ∈ bs, b.toNat < 128) :
    IsAsciiText (octetsText bs) := by
  intro c hc
  rw [octetsText, String.toList_ofList, List.mem_map] at hc
  obtain ⟨b, hm, rfl⟩ := hc
  rw [toNat_charOfNat b.toNat_lt]
  exact h b hm

@[simp] theorem textOctets_octetsText (bs : Octets) : textOctets (octetsText bs) = bs := by
  rw [textOctets, octetsText, String.toList_ofList, List.map_map]
  calc bs.map _ = bs.map id := List.map_congr_left fun b _ => by
        simp [toNat_charOfNat b.toNat_lt]
    _ = bs := List.map_id bs

theorem decodeAscii_eq_some {bs : Octets} {s : String} (h : decodeAscii bs = some s) :
    (∀ b ∈ bs, b.toNat < 128) ∧ s = octetsText bs := by
  unfold decodeAscii at h
  split_ifs at h with hb
  exact ⟨hb, (Option.some.inj h).symm⟩

theorem isAsciiText_of_decodeAscii {bs : Octets} {s : String} (h : decodeAscii bs = some s) :
    IsAsciiText s := by
  obtain ⟨hb, rfl⟩ := decodeAscii_eq_some h
  exact isAsciiText_octetsText hb

theorem textOctets_of_decodeAscii {bs : Octets} {s : String} (h : decodeAscii bs = some s) :
    textOctets s = bs := by
  rw [(decodeAscii_eq_some h).2, textOctets_octetsText]

theorem mem_textOctets_lt {s : String} (hs : IsAsciiText s) {b : UInt8} (hb : b ∈ textOctets s) :
    b.toNat < 128 := by
  obtain ⟨c, hc, rfl⟩ := List.mem_map.mp hb
  have := hs c hc
  rw [UInt8.toNat_ofNat']
  omega

theorem decodeAscii_textOctets {s : String} (hs : IsAsciiText s) :
    decodeAscii (textOctets s) = some s := by
  rw [decodeAscii, if_pos fun b hb => mem_textOctets_lt hs hb, textOctets, octetsText,
    List.map_map]
  have hmap : s.toList.map ((fun b : UInt8 => Char.ofNat b.toNat) ∘ fun c => UInt8.ofNat c.toNat)
      = s.toList := by
    calc _ = s.toList.map id := List.map_congr_left fun c hc => by
          have := hs c hc
          simp only [Function.comp_apply, UInt8.toNat_ofNat', id_eq]
          rw [Nat.mod_eq_of_lt (by omega), Char.ofNat_toNat]
      _ = s.toList := List.map_id _
  rw [hmap, String.ofList_toList]

/-- ASCII texts are determined by their octets. -/
theorem textOctets_injective {s t : String} (hs : IsAsciiText s) (ht : IsAsciiText t)
    (h : textOctets s = textOctets t) : s = t := by
  have hs' := decodeAscii_textOctets hs
  rw [h, decodeAscii_textOctets ht] at hs'
  exact (Option.some.inj hs').symm

theorem ofNat_toNat_toLower {c : Char} (hc : c.toNat < 128) :
    UInt8.ofNat c.toLower.toNat = lowerOctet (UInt8.ofNat c.toNat) ∧ c.toLower.toNat < 128 := by
  have h : ∀ n < 128, UInt8.ofNat (Char.ofNat n).toLower.toNat = lowerOctet (UInt8.ofNat n) ∧
      (Char.ofNat n).toLower.toNat < 128 := by decide +kernel
  have hn := h c.toNat hc
  rwa [Char.ofNat_toNat] at hn

theorem textOctets_lowerText {s : String} (hs : IsAsciiText s) :
    textOctets (lowerText s) = lower (textOctets s) := by
  simp only [textOctets, lowerText, lower, String.toList_ofList, List.map_map]
  exact List.map_congr_left fun c hc => (ofNat_toNat_toLower (hs c hc)).1

theorem isAsciiText_lowerText {s : String} (hs : IsAsciiText s) : IsAsciiText (lowerText s) := by
  intro c hc
  rw [lowerText, String.toList_ofList, List.mem_map] at hc
  obtain ⟨d, hd, rfl⟩ := hc
  exact (ofNat_toNat_toLower (hs d hd)).2

end Dns
