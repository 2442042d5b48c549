import DnsFixtures.TcpProbe
import DnsFixtures.Equiv.Frames

/-!
# The frames of a stream

`parse_frames` cuts a stream into its frames.  `Decomposes` says what a cut has to satisfy, without
the loop: the stream is the frames and what trails them, and no frame is complete in the rest.
`parseFrames_decomposes`: there is one such cut for every stream, the loop ends, and it returns that
cut.  The two halves of the proof read the loop forwards (`parseFrames_eq`) and back
(`ParsesTo.decomposes`).
-/

namespace DnsFixtures

open Dns

/-! ### What trails the frames -/

/-- No frame is complete in these octets; this length they declare, if they declare one. -/
inductive Stops (rest : Octets) : Option Nat → Prop
  | short : rest.length < 2 → Stops rest none
  | incomplete {declared : UInt16} : readU16 rest 0 = some declared →
      declared = 0 ∨ rest.length < 2 + declared.toNat → Stops rest (some declared.toNat)

/-- The length that the first two octets declare. -/
def declaredLength : Octets → Option Nat
  | hi :: lo :: _ => some (hi.toNat * 256 + lo.toNat)
  | _ => none

/-- A complete frame that is not empty comes first. -/
def BeginsWithFrame (bs : Octets) : Prop :=
  ∃ body rest, bs = framed body ++ rest ∧ 1 ≤ body.length ∧ body.length ≤ 65535

theorem readU16_framed (body rest : Octets) :
    readU16 (framed body ++ rest) 0 = some (UInt16.ofNat body.length) := by
  refine HoldsAt.readU16 ?_
  rw [holdsAt_zero_iff, framed, List.append_assoc]
  exact List.prefix_append _ _

/-- Where the declared octets are there, they are a frame. -/
theorem eq_framed_append {bs : Octets} {declared : UInt16} (hread : readU16 bs 0 = some declared)
    (hzero : declared ≠ 0) (hfits : 2 + declared.toNat ≤ bs.length) :
    bs = framed ((bs.drop 2).take declared.toNat) ++ bs.drop (2 + declared.toNat) ∧
      1 ≤ ((bs.drop 2).take declared.toNat).length ∧
      ((bs.drop 2).take declared.toNat).length ≤ 65535 := by
  obtain ⟨rest, rfl⟩ := (holdsAt_zero_iff _ _).mp (readU16_eq_some_iff.mp hread)
  rw [List.length_append, length_packU16] at hfits
  have hdrop : (packU16 declared ++ rest).drop 2 = rest := List.drop_left' (length_packU16 _)
  have htake : (rest.take declared.toNat).length = declared.toNat := by
    rw [List.length_take]
    omega
  have hpos : 0 < declared.toNat := Nat.pos_of_ne_zero fun h => hzero (UInt16.toNat_inj.mp h)
  have hlt := declared.toNat_lt
  rw [← List.drop_drop, hdrop, htake]
  refine ⟨?_, by omega, by omega⟩
  rw [framed, htake, UInt16.ofNat_toNat, List.append_assoc, List.take_append_drop]

theorem declaredLength_eq (bs : Octets) : declaredLength bs = (readU16 bs 0).map UInt16.toNat := by
  match bs with
  | [] => rfl
  | [_] => rfl
  | hi :: lo :: rest =>
    have hh := hi.toNat_lt
    have hl := lo.toNat_lt
    show some _ = some (wordOf hi lo).toNat
    rw [wordOf, UInt16.toNat_ofNat', Nat.mod_eq_of_lt (by omega)]

theorem stops_iff {rest : Octets} {expected : Option Nat} :
    Stops rest expected ↔ ¬ BeginsWithFrame rest ∧ expected = declaredLength rest := by
  rw [declaredLength_eq]
  constructor
  · intro h
    cases h with
    | short hshort =>
      have hnone : readU16 rest 0 = none := by
        rw [← Option.not_isSome_iff_eq_none, readU16_isSome_iff]
        omega
      refine ⟨?_, by rw [hnone]; rfl⟩
      rintro ⟨body, more, rfl, -, -⟩
      rw [List.length_append, length_framed] at hshort
      omega
    | incomplete hread hstop =>
      refine ⟨?_, by rw [hread]; rfl⟩
      rintro ⟨body, more, rfl, hpos, hlen⟩
      have hsize := toNat_ofNat_length hlen
      rw [readU16_framed] at hread
      cases hread
      rw [List.length_append, length_framed, hsize] at hstop
      rcases hstop with hzero | hshort
      · rw [hzero] at hsize
        exact absurd hsize (Nat.ne_of_lt hpos)
      · omega
  · rintro ⟨hno, rfl⟩
    cases hread : readU16 rest 0 with
    | none =>
      have hshort := (readU16_isSome_iff rest 0).not.mp (by rw [hread]; decide)
      exact .short (by omega)
    | some declared =>
      refine .incomplete hread ?_
      by_contra hstop
      obtain ⟨hzero, hfits⟩ := not_or.mp hstop
      -- the declared octets would be a frame
      exact hno ⟨_, _, eq_framed_append hread hzero (by omega)⟩

/-- A length in front of too few octets. -/
theorem stops_of_length {n : Nat} {bs : Octets} (hn : n ≤ 65535) (hbs : bs.length < n) :
    Stops (packU16 (UInt16.ofNat n) ++ bs) (some n) := by
  have hread : readU16 (packU16 (UInt16.ofNat n) ++ bs) 0 = some (UInt16.ofNat n) :=
    HoldsAt.readU16 (List.prefix_append _ _)
  have hsize : (UInt16.ofNat n).toNat = n := by
    rw [UInt16.toNat_ofNat', Nat.mod_eq_of_lt (by omega)]
  have hstop := Stops.incomplete hread (Or.inr (by
    rw [hsize, List.length_append, length_packU16]
    omega))
  rwa [hsize] at hstop

/-! ### Forwards through the loop -/

theorem parseFramesLoop_stops {rest : Octets} {incomplete : Option Nat} (h : Stops rest incomplete)
    (front : Octets) (frames : List Octets) {fuel : Nat} (hfuel : rest.length ≤ fuel) :
    parseFramesLoop (front ++ rest) fuel front.length frames = (frames, rest, incomplete) := by
  have hdrop : (front ++ rest).drop front.length = rest := List.drop_left
  -- with the offset behind `front`, the loop sees what is left
  cases fuel with
  | zero =>
    obtain rfl := List.length_eq_zero_iff.mp (Nat.le_zero.mp hfuel)
    cases h with
    | short => rw [parseFramesLoop, hdrop]
    | incomplete hread => cases hread
  | succ fuel =>
    rw [parseFramesLoop, readU16_append, hdrop]
    cases h with
    | short hshort =>
      have hnone : readU16 rest 0 = none := by
        rw [← Option.not_isSome_iff_eq_none, readU16_isSome_iff]
        omega
      rw [hnone]
    | incomplete hread hstop =>
      rw [hread, List.length_append]
      dsimp only
      exact if_pos (hstop.imp_right fun h => by omega)

/-- One turn on a frame. -/
theorem parseFramesLoop_frame {f : Octets} (hne : f ≠ []) (hlen : f.length ≤ 65535)
    (front rest : Octets) (frames : List Octets) (fuel : Nat) :
    parseFramesLoop (front ++ (framed f ++ rest)) (fuel + 1) front.length frames
      = parseFramesLoop (front ++ framed f ++ rest) fuel (front ++ framed f).length
          (frames ++ [f]) := by
  have hsize := toNat_ofNat_length hlen
  have hpos := List.length_pos_iff.mpr hne
  have hzero : UInt16.ofNat f.length ≠ 0 := by
    intro h
    rw [h] at hsize
    exact absurd hsize (Nat.ne_of_lt hpos)
  have hbody : (front ++ (framed f ++ rest)).drop (front.length + 2) = f ++ rest := by
    rw [← List.drop_drop, List.drop_left, framed, List.append_assoc]
    exact List.drop_left' (length_packU16 _)
  rw [parseFramesLoop, readU16_append, readU16_framed]
  dsimp only
  have hend : front.length + 2 + f.length = (front ++ framed f).length := by
    rw [List.length_append, length_framed]
    omega
  rw [if_neg, hsize, hbody, List.take_left, List.append_assoc, hend]
  · rw [hsize, not_or, List.length_append, List.length_append, length_framed]
    exact ⟨hzero, by omega⟩

theorem parseFramesLoop_frames {frames : List Octets} {rest : Octets} {incomplete : Option Nat}
    (hframes : ∀ f ∈ frames, f ≠ [] ∧ f.length ≤ 65535) (hstop : Stops rest incomplete)
    (front : Octets) (before : List Octets) {fuel : Nat}
    (hfuel : frames.length + rest.length ≤ fuel) :
    parseFramesLoop (front ++ (frames.flatMap framed ++ rest)) fuel front.length before
      = (before ++ frames, rest, incomplete) := by
  induction frames generalizing front before fuel with
  | nil =>
    rw [List.append_nil]
    exact parseFramesLoop_stops hstop front before (by simpa using hfuel)
  | cons f frames ih =>
    rw [List.length_cons] at hfuel
    obtain ⟨fuel, rfl⟩ : ∃ n, fuel = n + 1 := ⟨fuel - 1, by omega⟩
    obtain ⟨hne, hlen⟩ := hframes f List.mem_cons_self
    rw [List.flatMap_cons, List.append_assoc, parseFramesLoop_frame hne hlen, ih, List.append_assoc]
    · rfl
    · exact fun f hf => hframes f (List.mem_cons_of_mem _ hf)
    · omega

theorem length_le_flatMap_framed (frames : List Octets) :
    frames.length ≤ (frames.flatMap framed).length := by
  induction frames with
  | nil => exact Nat.le_refl _
  | cons f frames ih =>
    rw [List.flatMap_cons, List.length_append, length_framed, List.length_cons]
    omega

/-- **What `parse_frames` returns**: the frames, and the octets in which no frame is complete. -/
theorem parseFrames_eq {frames : List Octets} {rest : Octets} {incomplete : Option Nat}
    (hframes : ∀ f ∈ frames, f ≠ [] ∧ f.length ≤ 65535) (hstop : Stops rest incomplete) :
    parseFrames (frames.flatMap framed ++ rest) = (frames, rest, incomplete) := by
  refine parseFramesLoop_frames hframes hstop [] [] ?_
  rw [List.length_append]
  exact Nat.add_le_add_right (length_le_flatMap_framed frames) _

/-! ### Back from its result -/

/-- The loop of `parse_frames` without a bound on its turns: from an offset and the frames so far it
ends with a result. -/
inductive ParsesTo (data : Octets) :
    Nat → List Octets → List Octets × Octets × Option Nat → Prop
  | done {offset : Nat} {frames : List Octets} : data.length < offset + 2 →
      ParsesTo data offset frames (frames, data.drop offset, none)
  | stop {offset : Nat} {frames : List Octets} {declared : UInt16} :
      readU16 data offset = some declared →
      declared = 0 ∨ data.length < offset + 2 + declared.toNat →
      ParsesTo data offset frames (frames, data.drop offset, some declared.toNat)
  | turn {offset : Nat} {frames : List Octets} {declared : UInt16}
      {result : List Octets × Octets × Option Nat} :
      readU16 data offset = some declared → declared ≠ 0 →
      offset + 2 + declared.toNat ≤ data.length →
      ParsesTo data (offset + 2 + declared.toNat)
        (frames ++ [(data.drop (offset + 2)).take declared.toNat]) result →
      ParsesTo data offset frames result

/-- **The loop ends**: every turn moves the offset, so that as many turns as octets are enough. -/
theorem parsesTo_parseFramesLoop (data : Octets) {fuel offset : Nat} (frames : List Octets)
    (hfuel : data.length ≤ offset + fuel) :
    ParsesTo data offset frames (parseFramesLoop data fuel offset frames) := by
  induction fuel generalizing offset frames with
  | zero => exact .done (by omega)
  | succ fuel ih =>
    rw [parseFramesLoop]
    cases hread : readU16 data offset with
    | none =>
      have hshort := (readU16_isSome_iff data offset).not.mp (by rw [hread]; decide)
      exact .done (by omega)
    | some declared =>
      dsimp only
      split_ifs with hstop
      · exact .stop hread hstop
      · obtain ⟨hzero, hfits⟩ := not_or.mp hstop
        exact .turn hread hzero (by omega) (ih _ (by omega))

/-- What the loop adds to its frames, and where it stops. -/
theorem ParsesTo.decomposes {data : Octets} {offset : Nat} {frames : List Octets}
    {result : List Octets × Octets × Option Nat} (h : ParsesTo data offset frames result) :
    ∃ more, result.1 = frames ++ more ∧ data.drop offset = more.flatMap framed ++ result.2.1 ∧
      (∀ f ∈ more, f ≠ [] ∧ f.length ≤ 65535) ∧ Stops result.2.1 result.2.2 := by
  induction h with
  | @done offset frames hend =>
    refine ⟨[], (List.append_nil _).symm, rfl, by simp, .short ?_⟩
    rw [List.length_drop]
    omega
  | @stop offset frames declared hread hstop =>
    have hhere := readU16_drop data offset
    rw [hread] at hhere
    refine ⟨[], (List.append_nil _).symm, rfl, by simp, .incomplete hhere (hstop.imp_right ?_)⟩
    rw [List.length_drop]
    omega
  | @turn offset frames declared result hread hzero hfits _ ih =>
    -- the frame of this turn stands in front of those behind it
    obtain ⟨more, hframes, hdrop, hlengths, hstops⟩ := ih
    have hhere := readU16_drop data offset
    rw [hread] at hhere
    obtain ⟨hframe, hpos, hlen⟩ := eq_framed_append hhere hzero (by rw [List.length_drop]; omega)
    rw [List.drop_drop] at hframe hpos hlen
    rw [List.drop_drop, ← Nat.add_assoc, hdrop] at hframe
    refine ⟨(data.drop (offset + 2)).take declared.toNat :: more, ?_, ?_, ?_, hstops⟩
    · rw [hframes, List.append_assoc, List.singleton_append]
    · rw [hframe, List.flatMap_cons, List.append_assoc]
    · intro f hf
      rcases List.mem_cons.mp hf with rfl | hf
      · exact ⟨List.length_pos_iff.mp hpos, hlen⟩
      · exact hlengths f hf

/-! ### The decomposition -/

/-- A stream is these frames, none of them empty, with these octets behind them, in which no frame is
complete and which declare this length. -/
structure Decomposes (data : Octets) (frames : List Octets) (trailing : Octets)
    (expected : Option Nat) : Prop where
  concat : data = frames.flatMap framed ++ trailing
  lengths : ∀ f ∈ frames, 1 ≤ f.length ∧ f.length ≤ 65535
  maximal : ¬ BeginsWithFrame trailing
  expected_eq : expected = declaredLength trailing

theorem Decomposes.parseFrames_eq {data : Octets} {frames : List Octets} {trailing : Octets}
    {expected : Option Nat} (h : Decomposes data frames trailing expected) :
    parseFrames data = (frames, trailing, expected) := by
  rw [h.concat]
  refine DnsFixtures.parseFrames_eq (fun f hf => ?_) (stops_iff.mpr ⟨h.maximal, h.expected_eq⟩)
  obtain ⟨hpos, hlen⟩ := h.lengths f hf
  exact ⟨List.length_pos_iff.mp hpos, hlen⟩

theorem decomposes_parseFrames (data : Octets) :
    Decomposes data (parseFrames data).1 (parseFrames data).2.1 (parseFrames data).2.2 := by
  obtain ⟨frames, hframes, hconcat, hlengths, hstops⟩ :=
    (parsesTo_parseFramesLoop data [] (Nat.le_add_left data.length 0)).decomposes
  rw [List.nil_append] at hframes
  obtain ⟨hmaximal, hexpected⟩ := stops_iff.mp hstops
  refine ⟨?_, ?_, hmaximal, hexpected⟩
  · rw [parseFrames, hframes]
    exact hconcat
  · intro f hf
    rw [parseFrames, hframes] at hf
    obtain ⟨hne, hlen⟩ := hlengths f hf
    exact ⟨List.length_pos_iff.mpr hne, hlen⟩

/-- **`parse_frames` is the frame decomposition**: its loop ends on every stream, what it returns is the
one decomposition there is, and payloads that were framed come back with whatever trails them. -/
theorem parseFrames_decomposes :
    (∀ data, ParsesTo data 0 [] (parseFrames data) ∧ ∀ frames trailing expected,
      parseFrames data = (frames, trailing, expected) ↔ Decomposes data frames trailing expected) ∧
    ∀ (payloads : List Octets) (trailing : Octets),
      (∀ p ∈ payloads, p ≠ [] ∧ p.length ≤ 65535) → ¬ BeginsWithFrame trailing →
      parseFrames (payloads.flatMap framed ++ trailing)
        = (payloads, trailing, declaredLength trailing) := by
  refine ⟨fun data => ⟨parsesTo_parseFramesLoop data [] (Nat.le_add_left data.length 0), ?_⟩, ?_⟩
  · intro frames trailing expected
    constructor
    · intro h
      have hdec := decomposes_parseFrames data
      rwa [h] at hdec
    · exact Decomposes.parseFrames_eq
  · intro payloads trailing hpayloads htrailing
    exact parseFrames_eq hpayloads (stops_iff.mpr ⟨htrailing, rfl⟩)

/-- One frame, and a length in front of too few octets. -/
theorem parseFrames_decomposes_incomplete :
    parseFrames ([[1, 2, 3]].flatMap framed ++ [0, 2, 9]) = ([[1, 2, 3]], [0, 2, 9], some 2) := by
  have hstop : Stops [0, 2, 9] (some 2) :=
    stops_of_length (by decide : 2 ≤ 65535) (by decide : [9].length < 2)
  exact parseFrames_decomposes.2 [[1, 2, 3]] [0, 2, 9] (by decide) (stops_iff.mp hstop).1

end DnsFixtures
