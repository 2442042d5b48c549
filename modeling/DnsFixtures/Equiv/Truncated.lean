import DnsFixtures.Equiv.Reflection

/-!
# The truncated response

`make_truncated_response` copies the octets of the question behind a header of its own when the query
has no additional section, and leaves the rest to dnspython otherwise.

A copied name may point into the header it came with.  `truncatedReply_copyOf_iff` says when the
copy still has the name of the query: without a pointer, or with one that leads to a zero octet of
the new header where the old one had no labels either.  With an additional section the response is
right whenever dnspython reads the query, and otherwise its exception is not the one the handler
expects (`truncates_iff`).
-/

namespace DnsFixtures

open Dns

/-! ### The octets of the copy -/

/-- The octets `r` start with the header of a truncated response to `q`. -/
structure Rewritten (q r : Octets) : Prop where
  first : ∀ i < 2, r[i]? = q[i]?
  flags : ∃ b, r[2]? = some b ∧ 128 ≤ b.toNat ∧ b.toNat < 192
  zero : ∀ i ∈ [3, 4, 6, 7, 8, 9, 10, 11], r[i]? = some 0
  one : r[5]? = some 1

/-- The flags of a truncated response. -/
def truncatedFlags (flags : UInt16) : UInt16 := 0x8600 ||| (flags &&& 0x0100)

theorem truncatedFlags_cases (flags : UInt16) :
    truncatedFlags flags = 0x8600 ∨ truncatedFlags flags = 0x8700 := by
  have hand : (flags &&& 0x0100).toNat = (flags.toNat.testBit 8).toNat * 2 ^ 8 := by
    rw [UInt16.toNat_and]
    exact Nat.and_two_pow flags.toNat 8
  unfold truncatedFlags
  cases hbit : flags.toNat.testBit 8 with
  | false =>
    rw [hbit] at hand
    have hzero : flags &&& 0x0100 = 0 := UInt16.toNat_inj.mp hand
    exact Or.inl (by rw [hzero]; rfl)
  | true =>
    rw [hbit] at hand
    have hone : flags &&& 0x0100 = 0x0100 := UInt16.toNat_inj.mp hand
    exact Or.inr (by rw [hone]; rfl)

/-- The copy of a question that ends at `stop`. -/
def copyOf (q : Octets) (h : Header) (stop : Nat) : Octets :=
  writeHeader ⟨h.id, truncatedFlags h.flags, 1, 0, 0, 0⟩ ++ (q.take stop).drop 12

theorem getElem?_copyOf {q : Octets} {h : Header} {stop i : Nat} (h12 : 12 ≤ i) (hi : i < stop) :
    (copyOf q h stop)[i]? = q[i]? := by
  rw [copyOf, List.getElem?_append_right (by rw [length_writeHeader]; exact h12),
    length_writeHeader, List.getElem?_drop, List.getElem?_take, Nat.add_sub_cancel' h12, if_pos hi]

theorem copyOf_eq (q : Octets) (h : Header) (stop : Nat) : ∃ b : UInt8, 128 ≤ b.toNat ∧ b.toNat < 192 ∧
    copyOf q h stop = packU16 h.id ++ ([b, 0, 0, 1, 0, 0, 0, 0, 0, 0] ++ (q.take stop).drop 12) := by
  have hcounts : packU16 1 ++ packU16 0 ++ packU16 0 ++ packU16 0 = [0, 1, 0, 0, 0, 0, 0, 0] := by
    decide
  obtain ⟨b, hlow, hhigh, hb⟩ : ∃ b : UInt8, 128 ≤ b.toNat ∧ b.toNat < 192 ∧
      packU16 (truncatedFlags h.flags) = [b, 0] := by
    rcases truncatedFlags_cases h.flags with hf | hf
    · exact ⟨0x86, by decide, by decide, by rw [hf]; decide⟩
    · exact ⟨0x87, by decide, by decide, by rw [hf]; decide⟩
  refine ⟨b, hlow, hhigh, ?_⟩
  have hheader : writeHeader ⟨h.id, truncatedFlags h.flags, 1, 0, 0, 0⟩
      = packU16 h.id ++ ([b, 0] ++ (packU16 1 ++ packU16 0 ++ packU16 0 ++ packU16 0)) := by
    rw [← hb]
    simp only [writeHeader, List.append_assoc]
  rw [copyOf, hheader, hcounts]
  simp only [List.append_assoc]
  rfl

theorem rewritten_copyOf {q : Octets} {h : Header} (hh : readHeader q = some h) (stop : Nat) :
    Rewritten q (copyOf q h stop) := by
  have hid : q.take 2 = packU16 h.id := take_of_readHeader hh
  obtain ⟨b, hlow, hhigh, hcopy⟩ := copyOf_eq q h stop
  rw [hcopy]
  refine ⟨fun i hi => ?_, ⟨b, rfl, hlow, hhigh⟩, ?_, rfl⟩
  · have htake : (q.take 2)[i]? = q[i]? := by rw [List.getElem?_take, if_pos hi]
    rw [← htake, hid, List.getElem?_append_left hi]
  · intro i hi
    simp only [List.mem_cons, List.not_mem_nil, or_false] at hi
    rcases hi with rfl | rfl | rfl | rfl | rfl | rfl | rfl | rfl <;> rfl

/-! ### Pointers into the header -/

/-- A pointer to `p` finds no labels in the header of `q`, and a zero in the rewritten one. -/
def HitsZero (q : Octets) (p : Nat) (rest : List Nat) : Prop :=
  Expands q p [] rest ∧ (p ∈ [3, 4, 6, 7, 8, 9, 10, 11] ∨ (p < 2 ∧ q[p]? = some 0))

/-- The name of the question reads the same in the copy. -/
def SelfContained (q : Octets) (ls : List Label) (ps : List Nat) : Prop :=
  nameLength ls ≤ 255 ∧ match ps with
    | [] => True
    | p :: rest => HitsZero q p rest

theorem HitsZero.expands {q r : Octets} {p : Nat} {rest : List Nat} (h : HitsZero q p rest)
    (hr : Rewritten q r) : p < 12 ∧ Expands r p [] [] := by
  rcases h.2 with hp | ⟨hlt, hp⟩
  · exact ⟨(by decide : ∀ p ∈ [3, 4, 6, 7, 8, 9, 10, 11], p < 12) p hp, .root (hr.zero p hp)⟩
  · exact ⟨by omega, .root ((hr.first p hlt).trans hp)⟩

/-- Letter case keeps the octets of ASCII apart from the others. -/
theorem lowerOctet_ne_of_ascii {a b : UInt8} (ha : a.toNat < 128) (hb : 128 ≤ b.toNat) :
    lowerOctet b ≠ lowerOctet a := by
  have hlow : ∀ a : UInt8, a.toNat < 128 → (lowerOctet a).toNat < 128 :=
    forall_octet (p := fun a => a.toNat < 128 → (lowerOctet a).toNat < 128) (by decide +kernel)
  have hhigh : ∀ b : UInt8, 128 ≤ b.toNat → 128 ≤ (lowerOctet b).toNat :=
    forall_octet (p := fun b => 128 ≤ b.toNat → 128 ≤ (lowerOctet b).toNat) (by decide +kernel)
  intro heq
  have h1 := hlow a ha
  have h2 := hhigh b hb
  rw [heq] at h2
  omega

/-- A label that covers the flags of the copy differs from that of the query. -/
theorem not_covers_flags {q r : Octets} (hr : Rewritten q r) (hqr : ∃ b, q[2]? = some b ∧ b.toNat < 128)
    {off n : Nat} (hoff : off ≤ 2) (hn : 2 < off + n) :
    lower ((r.drop off).take n) ≠ lower ((q.drop off).take n) := by
  intro heq
  obtain ⟨a, ha, hlt⟩ := hqr
  obtain ⟨b, hb, hge, -⟩ := hr.flags
  have hoctet : ∀ w : Octets, (lower ((w.drop off).take n))[2 - off]? = (w[2]?).map lowerOctet := by
    intro w
    rw [lower, List.getElem?_map, List.getElem?_take, List.getElem?_drop,
      Nat.add_sub_cancel' hoff, if_pos (by omega)]
  have hflags : (lower ((r.drop off).take n))[2 - off]? = (lower ((q.drop off).take n))[2 - off]? := by
    rw [heq]
  rw [hoctet, hoctet, ha, hb] at hflags
  exact lowerOctet_ne_of_ascii hlt hge (Option.some.inj hflags)

theorem foldCase_eq_nil {ls : List Label} (h : foldCase ls = []) : ls = [] := List.map_eq_nil_iff.mp h

section

variable {q r : Octets} (hr : Rewritten q r)
include hr

/-- No name starts at the flags of a response. -/
theorem Rewritten.not_expands_flags {ls : List Label} {ps : List Nat} : ¬ Expands r 2 ls ps := by
  intro h
  obtain ⟨b, hb, hge, hlt⟩ := hr.flags
  obtain ⟨b', hb', hcases⟩ := h.first_octet
  rw [hb] at hb'
  cases hb'
  omega

/-- A name that starts at QDCOUNT starts with a label of a zero octet. -/
theorem Rewritten.expands_qdcount {ls : List Label} {ps : List Nat} (h : Expands r 5 ls ps) :
    ∃ ls', ls = [0] :: ls' := by
  obtain ⟨ls', hls, -⟩ := h.of_length hr.one (by decide) (by decide)
  have h6 : (r.drop 6)[0]? = some 0 := by
    rw [List.getElem?_drop]
    exact hr.zero 6 (by decide)
  have htake : (r.drop 6).take 1 = [0] := by
    rw [List.take_one, List.head?_eq_getElem?, h6]
    rfl
  exact ⟨ls', hls.trans (congrArg (· :: ls') htake)⟩

/-- A label that starts in the identifier reaches the flags, where the two headers differ. -/
theorem Rewritten.not_label_id (hqr : ∃ b, q[2]? = some b ∧ b.toNat < 128) {p : Nat} (hp : p < 2)
    {len : UInt8} (hlen : r[p]? = some len) (hpos : 0 < len.toNat) (hle : len.toNat ≤ 63)
    {back back' : List Label} {rest rest' : List Nat} (hq : Expands q p back rest)
    (hexp : Expands r p back' rest') (hfold : foldCase back' = foldCase back) : False := by
  obtain ⟨ls', rfl, hrest⟩ := hexp.of_length hlen hpos hle
  obtain ⟨ls, rfl, -⟩ := hq.of_length ((hr.first p hp).symm.trans hlen) hpos hle
  by_cases hcover : 2 < p + 1 + len.toNat
  · exact not_covers_flags hr hqr (by omega) hcover (List.cons.inj hfold).1
  · -- the next length octet is that of the flags
    have h2 : p + 1 + len.toNat = 2 := by omega
    rw [h2] at hrest
    exact hr.not_expands_flags hrest

/-- **A pointer into the header** reads the same in the copy only where it hits a zero. -/
theorem hitsZero_of_expands (hqr : ∃ b, q[2]? = some b ∧ b.toNat < 128) {p : Nat} (hp : p < 12)
    {back back' : List Label} {rest rest' : List Nat} (hq : Expands q p back rest)
    (hexp : Expands r p back' rest') (hback : Backward p rest')
    (hfold : foldCase back' = foldCase back) (hzero : ∀ l ∈ back, (0 : UInt8) ∉ l) :
    back = [] ∧ HitsZero q p rest := by
  have hof : r[p]? = some 0 → back = [] := by
    intro h0
    obtain ⟨rfl, -⟩ := hexp.unique (.root h0)
    exact foldCase_eq_nil hfold.symm
  by_cases hmem : p ∈ [3, 4, 6, 7, 8, 9, 10, 11]
  · obtain rfl := hof (hr.zero p hmem)
    exact ⟨rfl, hq, Or.inl hmem⟩
  have hcases : p < 2 ∨ p = 2 ∨ p = 5 := by
    simp only [List.mem_cons, List.not_mem_nil, or_false] at hmem
    omega
  rcases hcases with hp2 | rfl | rfl
  · -- the identifier, which is kept; but nothing behind it is
    cases hexp with
    | root h0 =>
      obtain rfl := hof h0
      exact ⟨rfl, hq, Or.inr ⟨hp2, (hr.first p hp2).symm.trans h0⟩⟩
    | label h0 hpos hle hin hrest =>
      exact (hr.not_label_id hqr hp2 h0 hpos hle hq (.label h0 hpos hle hin hrest) hfold).elim
    | pointer h0 hge h1 _ =>
      -- its second octet would be that of the flags
      obtain ⟨b, hb, hge', hlt⟩ := hr.flags
      have htarget := hback.1
      unfold pointerTarget at htarget
      have hcases : p = 0 ∨ p = 1 := by omega
      rcases hcases with rfl | rfl
      · omega
      · rw [hb] at h1
        cases h1
        omega
  · exact (hr.not_expands_flags hexp).elim
  · obtain ⟨ls', rfl⟩ := hr.expands_qdcount hexp
    cases back with
    | nil => cases hfold
    | cons l ls =>
      have hl : lower [0] = lower l := (List.cons.inj hfold).1
      have hin : (0 : UInt8) ∈ lower l := hl ▸ (by decide : (0 : UInt8) ∈ lower [0])
      obtain ⟨c, hc, h0⟩ := List.mem_map.mp hin
      have hlower : ∀ c : UInt8, lowerOctet c = 0 → c = 0 :=
        forall_octet (p := fun c => lowerOctet c = 0 → c = 0) (by decide +kernel)
      rw [hlower c h0] at hc
      exact absurd hc (hzero l List.mem_cons_self)

end

/-! ### What a truncated response is -/

/-- A truncated response to the query: its header, and a question that reads as that of the query. -/
structure TruncatedReply (d : Dnspython) (q r : Octets) : Prop where
  header : ∃ hq hr, readHeader q = some hq ∧ readHeader r = some hr ∧ hr.id = hq.id ∧
    opcodeOf hr.flags = 0 ∧ hasFlag hr.flags Flag.QR ∧ hasFlag hr.flags Flag.AA ∧
    hasFlag hr.flags Flag.TC ∧ hr.flags &&& Flag.RD = hq.flags &&& Flag.RD ∧
    hr.flags &&& Flag.rcodeMask = 0 ∧ hr.qdcount = 1 ∧ hr.ancount = 0 ∧ hr.nscount = 0
  question : ∃ ls ps stop n used kind rdclass, Expands q 12 ls ps ∧ EndsAt q 12 stop ∧
    d.nameFromWire r 12 = .ok (n, used) ∧ foldCase n.labels = foldCase ls ∧
    readU16 q stop = some kind ∧ readU16 q (stop + 2) = some rdclass ∧
    readU16 r (12 + used) = some kind ∧ readU16 r (12 + used + 2) = some rdclass

/-- `make_truncated_response` raises the exception its callers expect, or makes a truncated
response. -/
def Truncates (d : Dnspython) (q : Octets) : Prop :=
  (∃ m, makeTruncatedResponse d q = .error (.dnsFormatError m)) ∨
    ∃ r, makeTruncatedResponse d q = .ok r ∧ TruncatedReply d q r

/-- Without an additional section, the response is the copy. -/
theorem makeTruncatedResponse_copy {d : Dnspython} {q : Octets} {h : Header} {ls : List Label} {ps : List Nat} {stop : Nat}
    (hh : readHeader q = some h) (hone : h.qdcount = 1) (hdec : Decodes q 12 ls ps stop)
    (hlen : stop + 4 ≤ q.length) (hcount : arcount q = 0) :
    makeTruncatedResponse d q = .ok (copyOf q h (stop + 4)) := by
  have hend : questionEnd q = .ok (labelsText ls, stop + 4) :=
    questionEnd_eq_ok_iff.mpr ⟨ls, ps, stop, ⟨h, hh, hone⟩, hdec, hlen, rfl, rfl⟩
  unfold makeTruncatedResponse
  rw [if_neg (show ¬ (readU16 q 10).getD 0 ≠ 0 from not_not_intro hcount), hend, hh]
  rfl

theorem octet_of_not_qr {q : Octets} {h : Header} (hh : readHeader q = some h)
    (hqr : ¬ hasFlag h.flags Flag.QR) : ∃ b, q[2]? = some b ∧ b.toNat < 128 := by
  have h12 : 12 ≤ q.length := (readHeader_isSome_iff q).mp (by rw [hh]; rfl)
  refine ⟨_, List.getElem?_eq_getElem (by omega : 2 < q.length), ?_⟩
  by_contra hge
  have hset : HasQr q := ⟨_, List.getElem?_eq_getElem (by omega : 2 < q.length), Nat.le_of_not_lt hge⟩
  obtain ⟨h', hh', hqr'⟩ := hset.isResponse h12
  rw [hh] at hh'
  cases hh'
  exact hqr hqr'

/-- The name of a scenario holds no zero octet. -/
theorem Spells.zero_not_mem {ls : List Label} {s : Scenario} (h : Spells ls s) :
    ∀ l ∈ ls, (0 : UInt8) ∉ l := by
  obtain ⟨k, hk⟩ := h
  intro l hl hmem
  have hlower : (0 : UInt8) ∈ lower l := List.mem_map.mpr ⟨0, hmem, by decide⟩
  have hdotted : (0 : UInt8) ∈ dotted (foldCase ls) :=
    List.mem_flatMap.mpr ⟨lower l, List.mem_map_of_mem hl, List.mem_append_left _ hlower⟩
  rw [hk] at hdotted
  have howner : (0 : UInt8) ∉ dotted (transportOwner s) := by cases s <;> decide
  rcases List.mem_append.mp hdotted with h0 | h0
  · exact howner h0
  · exact absurd (List.eq_of_mem_replicate h0) (by decide)

theorem nameLength_eq_of_foldCase {ls ls' : List Label} (h : foldCase ls = foldCase ls') :
    nameLength ls = nameLength ls' := by
  rw [← nameLength_foldCase ls, h, nameLength_foldCase]

section

variable {d : Dnspython} (hd : d.Documented) (hs : d.DocumentedSkeleton) {q : Octets}
include hd hs

/-- **The copy of a question** is a truncated response exactly when its name reads the same in it. -/
theorem truncatedReply_copyOf_iff {h : Header} {ls : List Label} {ps : List Nat} {stop : Nat}
    (hh : readHeader q = some h) (hqr : ¬ hasFlag h.flags Flag.QR) (hexp : Expands q 12 ls ps)
    (hend : EndsAt q 12 stop) (hlen : stop + 4 ≤ q.length) (hzero : ∀ l ∈ ls, (0 : UInt8) ∉ l) :
    TruncatedReply d q (copyOf q h (stop + 4)) ↔ SelfContained q ls ps := by
  obtain ⟨front, target, stop', hseg⟩ := hexp.exists_segment
  obtain rfl := hend.unique hseg.endsAt
  have hlt := hend.lt
  have hcopy : Segment (copyOf q h (stop + 4)) 12 front target stop :=
    hseg.congr fun i hi hlt => getElem?_copyOf hi (by omega)
  have hrewritten := rewritten_copyOf hh (stop + 4)
  constructor
  · intro hreply
    obtain ⟨ls', ps', _, n, used, _, _, hexp', -, hname, hfold, -⟩ := hreply.question
    obtain ⟨rfl, rfl⟩ := hexp.unique hexp'
    obtain ⟨ps', hread, hback⟩ := (hd.nameFromWire_iff _ 12 n).mp ⟨used, hname⟩
    refine ⟨nameLength_eq_of_foldCase hfold ▸ n.legal.total_le, ?_⟩
    cases target with
    | none =>
      obtain ⟨-, rfl⟩ := hseg.expands_iff.mp hexp
      trivial
    | some p =>
      obtain ⟨back, rest, hq, rfl, rfl⟩ := hseg.expands_iff.mp hexp
      obtain ⟨back', rest', hr, hlabels, rfl⟩ := hcopy.expands_iff.mp hread
      rw [hlabels, foldCase_append, foldCase_append, List.append_cancel_left_eq] at hfold
      exact (hitsZero_of_expands hrewritten (octet_of_not_qr hh hqr) hback.1 hq hr hback.2 hfold
        fun l hl => hzero l (List.mem_append_right _ hl)).2
  · rintro ⟨hle, hself⟩
    obtain ⟨ps', hread, hback⟩ :
        ∃ ps', Expands (copyOf q h (stop + 4)) 12 ls ps' ∧ Backward 12 ps' := by
      cases target with
      | none =>
        obtain ⟨rfl, -⟩ := hseg.expands_iff.mp hexp
        exact ⟨[], hcopy.expands_iff.mpr ⟨rfl, rfl⟩, trivial⟩
      | some p =>
        obtain ⟨back, rest, hq, rfl, rfl⟩ := hseg.expands_iff.mp hexp
        obtain ⟨hlt, hroot⟩ := hself.expands hrewritten
        obtain ⟨rfl, -⟩ := hq.unique hself.1
        exact ⟨[p], hcopy.expands_iff.mpr ⟨[], [], hroot, rfl, rfl⟩, hlt, trivial⟩
    obtain ⟨used, hname⟩ := (hd.nameFromWire_iff _ 12 ⟨ls, hexp.legal hle⟩).mpr ⟨ps', hread, hback⟩
    have hused := (hs.nameFromWire_used _ _ _ _ hname).unique hcopy.endsAt
    obtain ⟨kind, hkind⟩ :=
      Option.isSome_iff_exists.mp ((readU16_isSome_iff q stop).mpr (by omega))
    obtain ⟨rdclass, hclass⟩ :=
      Option.isSome_iff_exists.mp ((readU16_isSome_iff q (stop + 2)).mpr (by omega))
    have hword : ∀ i, stop ≤ i → i + 1 < stop + 4 →
        readU16 (copyOf q h (stop + 4)) i = readU16 q i := by
      intro i hi hlt
      rw [readU16, readU16, getElem?_copyOf (by omega) (by omega), getElem?_copyOf (by omega) hlt]
    refine ⟨⟨h, _, hh, readHeader_of_holdsAt ⟨_, rfl⟩, rfl, ?_⟩, ?_⟩
    · dsimp only
      have hRD : truncatedFlags h.flags &&& Flag.RD = h.flags &&& Flag.RD := by
        rw [truncatedFlags, or_and_distrib, UInt16.and_assoc]
        exact UInt16.zero_or
      have hflags : opcodeOf (truncatedFlags h.flags) = 0 ∧
          hasFlag (truncatedFlags h.flags) Flag.QR ∧ hasFlag (truncatedFlags h.flags) Flag.AA ∧
          hasFlag (truncatedFlags h.flags) Flag.TC ∧
          truncatedFlags h.flags &&& Flag.rcodeMask = 0 := by
        rcases truncatedFlags_cases h.flags with hf | hf
        · rw [hf]
          decide
        · rw [hf]
          decide
      exact ⟨hflags.1, hflags.2.1, hflags.2.2.1, hflags.2.2.2.1, hRD, hflags.2.2.2.2, rfl, rfl, rfl⟩
    · refine ⟨ls, ps, stop, _, used, kind, rdclass, hexp, hend, hname, rfl, hkind, hclass, ?_, ?_⟩
      · rw [hused, hword stop (Nat.le_refl _) (by omega), hkind]
      · rw [hused, hword (stop + 2) (by omega) (by omega), hclass]

omit hd hs in
/-- The flags of a response of dnspython with TC and AA set. -/
theorem truncated_flags {query reply : UInt16}
    (h : reply &&& ~~~Flag.CD = Flag.QR ||| (query &&& copiedMask)) (hop : opcodeOf query = 0) : opcodeOf (reply ||| (Flag.TC ||| Flag.AA)) = 0 ∧
      hasFlag (reply ||| (Flag.TC ||| Flag.AA)) Flag.QR ∧
      hasFlag (reply ||| (Flag.TC ||| Flag.AA)) Flag.AA ∧
      hasFlag (reply ||| (Flag.TC ||| Flag.AA)) Flag.TC ∧
      (reply ||| (Flag.TC ||| Flag.AA)) &&& Flag.RD = query &&& Flag.RD ∧
      (reply ||| (Flag.TC ||| Flag.AA)) &&& Flag.rcodeMask = 0 := by
  -- outside TC and AA the flags are those of the response
  have hmask : ∀ {mask : UInt16}, (Flag.TC ||| Flag.AA) &&& mask = 0 → ~~~Flag.CD &&& mask = mask →
      (reply ||| (Flag.TC ||| Flag.AA)) &&& mask
        = (Flag.QR &&& mask) ||| (query &&& (copiedMask &&& mask)) := by
    intro mask hdisjoint hfixed
    rw [and_or_mask_of_disjoint hdisjoint]
    exact and_eq_of_fixed h hfixed
  have hset : ∀ {mask : UInt16}, (Flag.TC ||| Flag.AA) &&& mask = mask → mask ≠ 0 →
      hasFlag (reply ||| (Flag.TC ||| Flag.AA)) mask := by
    intro mask hsub hne
    rw [hasFlag, or_and_distrib, hsub]
    exact fun h => hne (UInt16.or_eq_zero_iff.mp h).2
  refine ⟨?_, ?_, hset (by decide) (by decide), hset (by decide) (by decide), ?_, ?_⟩
  · have hopcode : (reply ||| (Flag.TC ||| Flag.AA)) &&& Flag.opcodeMask
        = query &&& Flag.opcodeMask := by
      rw [hmask (by decide) (by decide)]
      exact UInt16.zero_or
    rw [opcodeOf, hopcode]
    exact hop
  · have hzero : copiedMask &&& Flag.QR = 0 := by decide
    rw [hasFlag, hmask (by decide) (by decide), hzero, UInt16.and_zero, UInt16.or_zero]
    decide
  · rw [hmask (by decide) (by decide)]
    exact UInt16.zero_or
  · have hzero : copiedMask &&& Flag.rcodeMask = 0 := by decide
    rw [hmask (by decide) (by decide), hzero, UInt16.and_zero, UInt16.or_zero]
    decide

omit hd hs in
/-- The limit of `make_truncated_response` is one that dnspython keeps to. -/
theorem truncatedLimit_bounds (m : Message) :
    512 ≤ (if m.payload = 0 then 65535 else max 512 m.payload) ∧
      (if m.payload = 0 then 65535 else max 512 m.payload) ≤ 65535 := by
  have hpayload : m.payload ≤ 65535 := by
    unfold Message.payload
    cases m.opt with
    | none => exact Nat.zero_le _
    | some o => exact Nat.le_of_lt_succ o.payload.toNat_lt
  split_ifs <;> omega

omit hs in
/-- A message without records is written as a whole. -/
theorem toWire_of_empty {reply : Message} (hempty : reply.rrsetCount = 0)
    (hshort : (d.render reply).length ≤ 512) {limit : Nat} (hmin : 512 ≤ limit)
    (hmax : limit ≤ 65535) : d.toWire reply limit false = .ok (d.render reply) := by
  have hkeep : reply.keep 0 = reply := by rw [← hempty, Message.keep_rrsetCount]
  refine hd.toWire_whole reply limit false hmin hmax (by rw [hkeep]; omega) ?_
  have hle : fitting d.render reply limit ≤ reply.rrsetCount := written_le ..
  omega

omit hd in
/-- The question of a message is read back from the octets it is written in. -/
theorem readQuestion_render {reply : Message} {question : Question} {questions : List Question}
    (hreply : reply.question = question :: questions) :
    readHeader (d.render reply) = some reply.header ∧
      HoldsAt (d.render reply) 12 (wireLabels question.name.labels) ∧
      readU16 (d.render reply) (12 + nameLength question.name.labels) = some question.rdtype ∧
      readU16 (d.render reply) (12 + nameLength question.name.labels + 2)
        = some question.rdclass := by
  have hheld := hs.writesQuestion reply question (by rw [hreply]; rfl)
  obtain ⟨hheader, hname⟩ := (holdsAt_append _ _ _ _).mp hheld
  rw [length_writeHeader, Nat.zero_add, writeQuestion, holdsAt_append, holdsAt_append,
    List.length_append, length_packU16, length_wireLabels, ← Nat.add_assoc] at hname
  obtain ⟨⟨hname, hkind⟩, hclass⟩ := hname
  exact ⟨readHeader_of_holdsAt hheader, hname, hkind.readU16, hclass.readU16⟩

/-- **With an additional section** the response of dnspython is a truncated response. -/
theorem truncatedReply_of_parse {m : Message} (hparse : d.messageFromWire q = .ok m)
    (hqr : ¬ hasFlag m.flags Flag.QR) (hop : opcodeOf m.flags = 0) (hone : m.question.length = 1)
    (hcount : arcount q ≠ 0) :
    ∃ r, makeTruncatedResponse d q = .ok r ∧ TruncatedReply d q r := by
  obtain ⟨h, _, _, hh, hid, hflags, -, hquestions, -⟩ := hd.messageFromWire_header _ _ hparse
  obtain ⟨question, hquestion⟩ := List.length_eq_one_iff.mp hone
  obtain ⟨response, hmake, hrid, hrflags, hrquestion, hans, haut, hadd, -⟩ :=
    hd.makeResponse_query m hqr hop
  obtain ⟨reply, hreply⟩ : ∃ reply : Message, reply
      = { response with flags := response.flags ||| (Flag.TC ||| Flag.AA) } := ⟨_, rfl⟩
  have hsections : reply.answer = [] ∧ reply.authority = [] ∧ reply.additional = [] ∧
      reply.question = [question] := by
    rw [hreply]
    exact ⟨hans, haut, hadd, hrquestion.trans hquestion⟩
  have hempty : reply.rrsetCount = 0 := by
    rw [Message.rrsetCount, hsections.1, hsections.2.1, hsections.2.2.1]
    rfl
  have hshort : (d.render reply).length ≤ 512 := by
    rw [hreply]
    exact hs.makeResponse_fits m response _ hmake (by omega)
  obtain ⟨hmin, hmax⟩ := truncatedLimit_bounds m
  have hwire := toWire_of_empty hd hempty hshort hmin hmax
  obtain ⟨hheader, hname, hkind, hclass⟩ := readQuestion_render hs hsections.2.2.2
  refine ⟨d.render reply, ?_, ⟨h, reply.header, hh, hheader, ?_⟩, ?_⟩
  · unfold makeTruncatedResponse
    rw [if_pos (show (readU16 q 10).getD 0 ≠ 0 from hcount), hparse]
    show (d.makeResponse m >>= _) = _
    rw [hmake]
    show d.toWire { response with flags := response.flags ||| (Flag.TC ||| Flag.AA) } _ false = _
    rw [← hreply, hwire]
  · have hreplyFlags : reply.header.flags = response.flags ||| (Flag.TC ||| Flag.AA) :=
      congrArg Message.flags hreply
    obtain ⟨hopcode, hQR, hAA, hTC, hRD, hrcode⟩ := truncated_flags hrflags hop
    rw [hreplyFlags, ← hflags]
    refine ⟨?_, hopcode, hQR, hAA, hTC, hRD, hrcode, ?_, ?_, ?_⟩
    · rw [← hid, ← hrid, hreply]
      rfl
    · show UInt16.ofNat reply.question.length = 1
      rw [hsections.2.2.2]
      rfl
    · show UInt16.ofNat (recordCount reply.answer) = 0
      rw [hsections.1]
      rfl
    · show UInt16.ofNat (recordCount reply.authority) = 0
      rw [hsections.2.1]
      rfl
  · rw [hquestion] at hquestions
    cases hquestions with
    | @cons _ used _ n kind rdclass _ hat hkindq hclassq =>
      obtain ⟨ps, hexp, -⟩ := (hd.nameFromWire_iff q 12 n).mp ⟨used, hat⟩
      exact ⟨n.labels, ps, 12 + used, n, nameLength n.labels, kind, rdclass, hexp,
        hs.nameFromWire_used _ _ _ _ hat, hd.nameFromWire_plain _ _ n hname, rfl, hkindq, hclassq,
        hkind, hclass⟩

/-- **Truncated responses.**  With an additional section, one is made exactly when dnspython reads the
query; without one, exactly when the name of the question reads the same in the copy. -/
theorem truncates_iff (hqr : ∃ h, readHeader q = some h ∧ ¬ hasFlag h.flags Flag.QR)
    (hscenario : queryScenario q = .ok .forceTcp) : Truncates d q ↔
      (arcount q ≠ 0 ∧ ∃ m, d.messageFromWire q = .ok m) ∨
      (arcount q = 0 ∧ ∃ ls ps, ReadsQuestion q ls ps ∧ SelfContained q ls ps) := by
  obtain ⟨h, hh, hqr⟩ := hqr
  obtain ⟨ls, hasks⟩ := (queryScenario_iff (by decide)).mp hscenario
  obtain ⟨ps, hread⟩ := hasks.question
  obtain ⟨h', hh', hone⟩ := hread.qdcount
  rw [hh] at hh'
  cases hh'
  obtain ⟨h', hh', hop⟩ := hasks.opcode
  rw [hh] at hh'
  cases hh'
  obtain ⟨stop, hdec, hlen⟩ := hread.decodes
  by_cases hcount : arcount q = 0
  · have hmake : makeTruncatedResponse d q = .ok (copyOf q h (stop + 4)) :=
      makeTruncatedResponse_copy hh hone hdec hlen hcount
    have hcopy := truncatedReply_copyOf_iff hd hs hh hqr hdec.expands hdec.endsAt hlen
      hasks.spells.zero_not_mem
    constructor
    · rintro (⟨m, hraise⟩ | ⟨r, hr, hreply⟩)
      · rw [hmake] at hraise
        cases hraise
      · rw [hmake] at hr
        cases hr
        exact Or.inr ⟨hcount, ls, ps, hread, hcopy.mp hreply⟩
    · rintro (⟨hne, -⟩ | ⟨-, ls', ps', hread', hself⟩)
      · exact absurd hcount hne
      · obtain ⟨rfl, rfl⟩ := hread.unique hread'
        exact Or.inr ⟨_, hmake, hcopy.mpr hself⟩
  · constructor
    · intro htruncates
      refine Or.inl ⟨hcount, ?_⟩
      cases hparse : d.messageFromWire q with
      | ok m => exact ⟨m, rfl⟩
      | error e =>
        -- the exception is one of dnspython
        have hraise : makeTruncatedResponse d q = .error e := by
          unfold makeTruncatedResponse
          rw [if_pos (show (readU16 q 10).getD 0 ≠ 0 from hcount), hparse]
          rfl
        rcases htruncates with ⟨m, hformat⟩ | ⟨r, hr, -⟩
        · rw [hraise] at hformat
          cases hformat
          exact absurd (hd.messageFromWire_raises _ _ hparse) Bool.false_ne_true
        · rw [hraise] at hr
          cases hr
    · rintro (⟨-, m, hparse⟩ | ⟨hzero, -⟩)
      · obtain ⟨h', hh', -, hflags, hquestion⟩ := readHeader_of_parse hd hparse
        rw [hh] at hh'
        cases hh'
        refine Or.inr (truncatedReply_of_parse hd hs hparse (hflags ▸ hqr) ?_ ?_ hcount)
        · have hopcode : h.flags &&& Flag.opcodeMask = 0 := not_not.mp hop
          rw [hflags, opcodeOf, hopcode]
          rfl
        · rw [hquestion, hone]
          rfl
      · exact absurd hzero hcount

end

/-- The query for the owner of `force-tcp`. -/
theorem truncates_ask :
    Truncates Reference.dnspython (Reference.ask (transportOwner .forceTcp) RRType.A) := by
  have hlegal : LegalLabels (transportOwner .forceTcp) := by decide
  have hheld : HoldsAt (Reference.ask (transportOwner .forceTcp) RRType.A) 12
      (wireLabels (transportOwner .forceTcp)) := by decide
  have hread : ReadsQuestion (Reference.ask (transportOwner .forceTcp) RRType.A)
      (transportOwner .forceTcp) [] :=
    ⟨⟨⟨0x1234, 0x0100, 1, 0, 0, 0⟩, by decide, rfl⟩, 12 + nameLength (transportOwner .forceTcp),
      ⟨expands_of_holdsAt hlegal.label_ne_nil hlegal.label_le hheld, by decide, by decide,
        endsAt_of_holdsAt hlegal.label_ne_nil hlegal.label_le hheld⟩, by decide⟩
  exact (truncates_iff Reference.documented Reference.documentedSkeleton
    ⟨⟨0x1234, 0x0100, 1, 0, 0, 0⟩, by decide, by decide⟩ (by decide)).mpr
    (Or.inr ⟨by decide, _, _, hread, by decide, trivial⟩)

/-- A query that announces an additional record and ends. -/
def Reference.askWithout : Octets :=
  [0x12, 0x34, 1, 0, 0, 1, 0, 0, 0, 0, 0, 1] ++ wireLabels (transportOwner .forceTcp) ++
    [0, 1, 0, 1]

/-- A query whose name stands behind the question. -/
def Reference.askBehind : Octets :=
  [0x12, 0x34, 1, 0, 0, 1, 0, 0, 0, 0, 0, 0, 0xC0, 18, 0, 1, 0, 1] ++
    wireLabels (transportOwner .forceTcp)

/-- An exception that the handler does not catch, and a reply with a dangling question. -/
theorem not_truncates_forceTcp : Reference.dnspython.Documented ∧
    queryScenario Reference.askWithout = .ok .forceTcp ∧
    handleUdp Reference.dnspython Reference.askWithout []
      = (.error (.dnsException .formError), ⟨[], []⟩) ∧
    ¬ Truncates Reference.dnspython Reference.askWithout ∧
    queryScenario Reference.askBehind = .ok .forceTcp ∧
    ¬ Truncates Reference.dnspython Reference.askBehind := by
  have hwithout : makeTruncatedResponse Reference.dnspython Reference.askWithout
      = .error (.dnsException .formError) := by decide +kernel
  have hbehind : makeTruncatedResponse Reference.dnspython Reference.askBehind
      = .ok [0x12, 0x34, 0x87, 0, 0, 1, 0, 0, 0, 0, 0, 0, 0xC0, 18, 0, 1, 0, 1] := by decide +kernel
  refine ⟨Reference.documented, by decide, by decide +kernel, ?_, by decide, ?_⟩
  · rintro (⟨m, h⟩ | ⟨r, h, -⟩)
    · rw [hwithout] at h
      cases h
    · rw [hwithout] at h
      cases h
  · rintro (⟨m, h⟩ | ⟨r, h, hreply⟩)
    · rw [hbehind] at h
      cases h
    · rw [hbehind] at h
      cases h
      obtain ⟨_, _, _, n, used, _, _, -, -, hname, -⟩ := hreply.question
      have hdangling : Reference.dnspython.nameFromWire
          [0x12, 0x34, 0x87, 0, 0, 1, 0, 0, 0, 0, 0, 0, 0xC0, 18, 0, 1, 0, 1] 12
          = .error (.dnsException .formError) := by decide +kernel
      rw [hdangling] at hname
      cases hname

end DnsFixtures
