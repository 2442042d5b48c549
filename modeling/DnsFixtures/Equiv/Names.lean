import DnsFixtures.Zone

/-!
# Names and their keys

* `nameKey_eq_some_iff`: `_name_key` recognises exactly the names in the zone of a nonce.
* `nameFromText_target`: the texts that the fixtures build for their own hosts are read as the
  names of these hosts.
* `exists_nameFromText_key_iff`: for any other key, whether the text can be read at all is decided
  by `readableBefore`.
* `nameFromText_nameToText`: a name is read back from its own text, whatever its labels hold.
-/

namespace DnsFixtures

open Dns

/-! ### Keys -/

theorem isNonce_iff {l : Label} : isNonce l = true ↔ ∃ z : Nonce, z.label = l :=
  ⟨fun h => ⟨⟨l, h⟩, rfl⟩, fun ⟨z, hz⟩ => hz ▸ z.isNonce⟩

/-- The labels of a name in a zone, from the right. -/
theorem InZone.labels_eq {z : Nonce} {owner : Name} {front : List Label} (h : InZone z owner front) :
    ∃ nonce fresh example_ test, owner.labels = front ++ [nonce, fresh, example_, test] ∧
      lower nonce = z.label ∧ foldCase [fresh, example_, test] = SUFFIX := by
  obtain ⟨suffix, ho, hs⟩ := h.labels
  have hlen : suffix.length = 4 := by
    rw [← length_foldCase, hs]
    rfl
  obtain ⟨n, f, e, t, rfl⟩ : ∃ n f e t, suffix = [n, f, e, t] := by
    match suffix, hlen with
    | [n, f, e, t], _ => exact ⟨n, f, e, t, rfl⟩
  rw [foldCase_cons, Nonce.labels, List.cons.injEq] at hs
  exact ⟨n, f, e, t, ho, hs.1, hs.2⟩

/-- A name lies in at most one zone, in one way. -/
theorem InZone.unique {z z' : Nonce} {owner : Name} {front front' : List Label}
    (h : InZone z owner front) (h' : InZone z' owner front') : z = z' ∧ front = front' := by
  obtain ⟨suffix, ho, hs⟩ := h.labels
  obtain ⟨suffix', ho', hs'⟩ := h'.labels
  -- all zones have four labels
  have hlen : suffix.length = suffix'.length := by
    rw [← length_foldCase suffix, ← length_foldCase suffix', hs, hs']
    rfl
  obtain ⟨hfront, hsuffix⟩ := List.append_inj' (ho.symm.trans ho') hlen
  rw [hsuffix, hs', Nonce.labels, Nonce.labels, List.cons.injEq] at hs
  refine ⟨?_, hfront⟩
  cases z
  cases z'
  simp only [Nonce.mk.injEq]
  exact hs.1.symm

theorem keyOf_eq_some_iff {label : Label} {front : List Label} {key : String} :
    keyOf (front ++ [label]) = some key ↔ (decodeAscii label).map lowerText = some key := by
  rw [keyOf, List.getLast?_concat]

theorem keyOf_nil : keyOf [] = some "apex" := rfl

theorem nameKey_of_inZone {z : Nonce} {owner : Name} {front : List Label} (h : InZone z owner front) :
    nameKey owner = (keyOf front).map fun key => (key, octetsText z.label) := by
  obtain ⟨nonce, fresh, example_, test, ho, hn, hs⟩ := h.labels_eq
  have hcond : foldCase [fresh, example_, test] = SUFFIX ∧ isNonce (lower nonce) = true :=
    ⟨hs, isNonce_iff.mpr ⟨z, hn.symm⟩⟩
  have hrev : owner.labels.reverse = test :: example_ :: fresh :: nonce :: front.reverse := by
    rw [ho]
    simp
  unfold nameKey
  rw [hrev]
  dsimp only
  rw [if_pos hcond, hn]
  cases hf : front.reverse with
  | nil =>
    rw [List.reverse_eq_nil_iff] at hf
    rw [hf, keyOf_nil]
    rfl
  | cons label rest =>
    have hfront : front = rest.reverse ++ [label] := by
      rw [← List.reverse_reverse front, hf, List.reverse_cons]
    dsimp only
    rw [hfront, keyOf, List.getLast?_concat, Option.map_map]
    rfl

theorem inZone_of_nameKey {owner : Name} {key nonce : String} (h : nameKey owner = some (key, nonce)) :
    ∃ z front, InZone z owner front := by
  unfold nameKey at h
  split at h
  · rename_i test example_ fresh nonce front hrev
    split_ifs at h with hcond
    obtain ⟨z, hz⟩ := isNonce_iff.mp hcond.2
    refine ⟨z, front.reverse, ⟨[nonce, fresh, example_, test], ?_, ?_⟩⟩
    · rw [← List.reverse_reverse owner.labels, hrev]
      simp
    · rw [foldCase_cons, hcond.1, Nonce.labels, hz]
  · cases h

/-- `_name_key` recognises exactly the names in the zone of a nonce whose key is ASCII. -/
theorem nameKey_eq_some_iff {owner : Name} {key nonce : String} :
    nameKey owner = some (key, nonce) ↔
      ∃ z front, InZone z owner front ∧ keyOf front = some key ∧ nonce = octetsText z.label := by
  constructor
  · intro h
    obtain ⟨z, front, hz⟩ := inZone_of_nameKey h
    rw [nameKey_of_inZone hz, Option.map_eq_some_iff] at h
    obtain ⟨key', hkey, he⟩ := h
    cases he
    exact ⟨z, front, hz, hkey, rfl⟩
  · rintro ⟨z, front, hz, hkey, rfl⟩
    rw [nameKey_of_inZone hz, hkey]
    rfl

/-! ### Names of the zone -/

theorem lowerOctet_of_digit {c : UInt8} (h : (48 ≤ c ∧ c ≤ 57) ∨ (97 ≤ c ∧ c ≤ 102)) :
    lowerOctet c = c ∧ c ≠ 46 ∧ c ≠ 92 ∧ c.toNat < 128 := by
  revert h
  exact forall_octet (p := fun c => (48 ≤ c ∧ c ≤ 57) ∨ (97 ≤ c ∧ c ≤ 102) →
    lowerOctet c = c ∧ c ≠ 46 ∧ c ≠ 92 ∧ c.toNat < 128) (by decide +kernel) c

theorem Nonce.plainLabel (z : Nonce) : PlainLabel z.label := by
  have hz := z.length_label
  refine ⟨List.length_pos_iff.mp (by omega), fun c hc => ?_⟩
  have h := lowerOctet_of_digit (z.digit hc)
  exact ⟨h.2.1, h.2.2.1⟩

theorem Nonce.lower_label (z : Nonce) : lower z.label = z.label := by
  calc lower z.label = z.label.map id :=
        List.map_congr_left fun c hc => (lowerOctet_of_digit (z.digit hc)).1
    _ = z.label := List.map_id _

theorem Nonce.plainLabels (z : Nonce) : ∀ l ∈ z.labels, PlainLabel l := by
  intro l hl
  rcases List.mem_cons.mp hl with rfl | hl
  · exact z.plainLabel
  · exact (by decide : ∀ l ∈ SUFFIX, PlainLabel l) l hl

theorem Nonce.foldCase_labels (z : Nonce) : foldCase z.labels = z.labels := by
  rw [Nonce.labels, foldCase_cons, z.lower_label]
  rfl

theorem Nonce.isAsciiText (z : Nonce) : IsAsciiText z.text := by
  refine isAsciiText_append.mpr ⟨isAsciiText_octetsText fun b hb => ?_, by decide⟩
  exact (lowerOctet_of_digit (z.digit hb)).2.2.2

/-- The text of the zone is its labels with a dot behind each. -/
theorem Nonce.textOctets_text (z : Nonce) : textOctets z.text = dotted z.labels := by
  rw [Nonce.text, textOctets_append, textOctets_octetsText, Nonce.labels, dotted_cons]
  have h : textOctets ".fresh.example.test." = 46 :: dotted SUFFIX := by decide
  rw [h]

theorem Host.lower_label (h : Host) : lower h.label = h.label := by
  obtain ⟨ha, -, -, hl⟩ := h.isHost
  rw [Host.label, ← textOctets_lowerText ha, hl]

theorem Nonce.inZone_zone (z : Nonce) : InZone z z.zone [] :=
  ⟨z.labels, rfl, z.foldCase_labels⟩

theorem Nonce.inZone_host (z : Nonce) (h : Host) : InZone z (z.host h) [h.label] :=
  ⟨z.labels, rfl, z.foldCase_labels⟩

theorem Host.decodeAscii_label (h : Host) : decodeAscii h.label = some h.text :=
  decodeAscii_textOctets h.isHost.1

theorem keyOf_host (front : List Label) (h : Host) : keyOf (front ++ [h.label]) = some h.text := by
  rw [keyOf_eq_some_iff, h.decodeAscii_label, Option.map_some, h.isHost.2.2.2]

/-- A key is the text of the label in front of the nonce, in lower case. -/
theorem keyOf_concat_iff {init : List Label} {label : Label} {key : String} :
    keyOf (init ++ [label]) = some key ↔ IsAsciiText key ∧ textOctets key = lower label := by
  rw [keyOf_eq_some_iff]
  constructor
  · intro h
    obtain ⟨s, hs, rfl⟩ := Option.map_eq_some_iff.mp h
    have hascii := isAsciiText_of_decodeAscii hs
    exact ⟨isAsciiText_lowerText hascii,
      by rw [textOctets_lowerText hascii, textOctets_of_decodeAscii hs]⟩
  · rintro ⟨hkey, htext⟩
    -- what folds to ASCII is ASCII
    have hascii : ∀ b ∈ label, b.toNat < 128 := fun b hb =>
      lt_of_lowerOctet_lt (mem_textOctets_lt hkey (htext ▸ List.mem_map_of_mem hb))
    have hlabel := isAsciiText_octetsText hascii
    rw [decodeAscii, if_pos hascii, Option.map_some, Option.some.injEq]
    refine textOctets_injective (isAsciiText_lowerText hlabel) hkey ?_
    rw [textOctets_lowerText hlabel, textOctets_octetsText, htext]

theorem exists_concat {front : List Label} (hf : front ≠ []) :
    ∃ init label, front = init ++ [label] :=
  ⟨front.dropLast, front.getLast hf, (List.dropLast_append_getLast hf).symm⟩

/-- The label that a key was read from. -/
theorem label_of_keyOf {front : List Label} {key : String} (hf : front ≠ [])
    (h : keyOf front = some key) :
    ∃ init label, front = init ++ [label] ∧ (∀ b ∈ label, b.toNat < 128) ∧
      textOctets key = lower label ∧ IsAsciiText key := by
  obtain ⟨init, label, rfl⟩ := exists_concat hf
  obtain ⟨hascii, htext⟩ := keyOf_concat_iff.mp h
  refine ⟨init, label, rfl, fun b hb => ?_, htext, hascii⟩
  exact lt_of_lowerOctet_lt (mem_textOctets_lt hascii (htext ▸ List.mem_map_of_mem hb))

/-- A name in the zone is one of its hosts exactly when it is one label below the apex and that
label is its key. -/
theorem sameAs_host_iff {z : Nonce} {owner : Name} {front : List Label} {h : Host}
    (hz : InZone z owner front) : owner.SameAs (z.host h) ↔ ∃ l, front = [l] ∧ lower l = h.label := by
  obtain ⟨suffix, ho, hs⟩ := hz.labels
  unfold Name.SameAs
  rw [ho, foldCase_append, hs]
  change foldCase front ++ z.labels = foldCase (h.label :: z.labels) ↔ _
  rw [foldCase_cons, z.foldCase_labels, h.lower_label]
  have hcons : h.label :: z.labels = [h.label] ++ z.labels := rfl
  rw [hcons, List.append_cancel_right_eq]
  constructor
  · intro hf
    obtain ⟨l, rfl, hl⟩ := List.map_eq_singleton_iff.mp hf
    exact ⟨l, rfl, hl⟩
  · rintro ⟨l, rfl, hl⟩
    rw [foldCase_cons, foldCase_nil, hl]

theorem sameAs_zone_iff {z : Nonce} {owner : Name} {front : List Label}
    (hz : InZone z owner front) : owner.SameAs z.zone ↔ front = [] := by
  obtain ⟨suffix, ho, hs⟩ := hz.labels
  unfold Name.SameAs
  rw [ho, foldCase_append, hs]
  change foldCase front ++ z.labels = foldCase z.labels ↔ _
  rw [z.foldCase_labels, List.append_left_eq_self]
  exact List.map_eq_nil_iff

theorem sameAs_host_of_key {z : Nonce} {owner : Name} {front : List Label} {h : Host}
    (hz : InZone z owner front) (hf : front ≠ []) (hkey : keyOf front = some h.text) :
    owner.SameAs (z.host h) ↔ front.length = 1 := by
  rw [sameAs_host_iff hz]
  constructor
  · rintro ⟨l, rfl, -⟩
    rfl
  · intro hlen
    obtain ⟨l, rfl⟩ := List.length_eq_one_iff.mp hlen
    obtain ⟨init, label, hfront, -, hl, -⟩ := label_of_keyOf hf hkey
    have hnil : init = [] := by
      have := congrArg List.length hfront
      simp at this
      exact this
    subst hnil
    cases hfront
    exact ⟨_, rfl, hl.symm⟩

/-! ### Texts -/

section

variable {d : Dnspython} (hd : d.Documented)
include hd

theorem nameFromText_of_readName {s : String} (hs : IsAsciiText s) {n : Name}
    (h : readName (textOctets s) = .ok n) : d.nameFromText s = .ok n := by
  rw [hd.nameFromText_eq s hs, h]
  rfl

theorem isAsciiText_nameToText (n : Name) : IsAsciiText (d.nameToText n) := by
  rw [hd.nameToText_eq]
  exact isAsciiText_octetsText (writeName_ascii n)

theorem nameFromText_nameToText (n : Name) : d.nameFromText (d.nameToText n) = .ok n := by
  refine nameFromText_of_readName hd (isAsciiText_nameToText hd n) ?_
  rw [hd.nameToText_eq, textOctets_octetsText, readName_writeName]

theorem nameFromText_zone (z : Nonce) : d.nameFromText z.text = .ok z.zone := by
  refine nameFromText_of_readName hd z.isAsciiText ?_
  rw [z.textOctets_text]
  exact readName_dotted z.plainLabels (by simp [Nonce.labels]) z.legal

theorem nameFromText_target (z : Nonce) (s : String) (hs : IsHost s) :
    d.nameFromText (s ++ "." ++ z.text) = .ok (z.host ⟨s, hs⟩) := by
  have hascii : IsAsciiText (s ++ "." ++ z.text) :=
    isAsciiText_append.mpr ⟨isAsciiText_append.mpr ⟨hs.1, by decide⟩, z.isAsciiText⟩
  refine nameFromText_of_readName hd hascii ?_
  have hdot : textOctets "." = [46] := rfl
  have htext : textOctets (s ++ "." ++ z.text) = dotted (textOctets s :: z.labels) := by
    rw [textOctets_append, textOctets_append, z.textOctets_text, dotted_cons, hdot,
      List.append_assoc, List.singleton_append]
  rw [htext]
  refine readName_dotted (fun l hl => ?_) (List.cons_ne_nil _ _) (z.host ⟨s, hs⟩).legal
  rcases List.mem_cons.mp hl with rfl | hl
  · exact hs.2.1
  · exact z.plainLabels l hl

/-- A label with its dot in front of the zone. -/
theorem nameFromText_cons (z : Nonce) (t s : String) (hs : IsHost s)
    (ht : t = s ++ ".") : d.nameFromText (t ++ z.text) = .ok (z.host ⟨s, hs⟩) :=
  ht ▸ nameFromText_target hd z s hs

/-- A label with its dot in front of the text of a name. -/
theorem nameFromText_cons_nameToText (t s : String) (hs : IsHost s) (ht : t = s ++ ".")
    {n : Name} (hn : n.labels ≠ []) (h : LegalLabels (textOctets s :: n.labels)) :
    d.nameFromText (t ++ d.nameToText n) = .ok ⟨textOctets s :: n.labels, h⟩ := by
  subst ht
  refine nameFromText_of_readName hd (isAsciiText_append.mpr
    ⟨isAsciiText_append.mpr ⟨hs.1, by decide⟩, isAsciiText_nameToText hd n⟩) ?_
  have hdot : textOctets "." = [46] := rfl
  rw [textOctets_append, textOctets_append, hd.nameToText_eq, textOctets_octetsText, hdot,
    List.append_assoc, List.singleton_append, readName_cons_writeName hs.2.1.2 hn]

/-- Whether the text of a key in front of the zone can be read depends on the key alone. -/
theorem exists_nameFromText_key_iff (z : Nonce) {key : String} (hascii : IsAsciiText key)
    (hne : textOctets key ≠ []) (h63 : (textOctets key).length ≤ 63) :
    (∃ n, d.nameFromText (key ++ "." ++ z.text) = .ok n)
      ↔ readableBefore 32 (textOctets key) = true := by
  have htext : textOctets (key ++ "." ++ z.text)
      = textOctets key ++ 46 :: dotted (z.label :: SUFFIX) := by
    have hdot : textOctets "." = [46] := rfl
    rw [textOctets_append, textOctets_append, z.textOctets_text, hdot, List.append_assoc,
      List.singleton_append]
    rfl
  have hsplit : IsAsciiText (key ++ "." ++ z.text) :=
    isAsciiText_append.mpr ⟨isAsciiText_append.mpr ⟨hascii, by decide⟩, z.isAsciiText⟩
  have hlen : nameLength (z.label :: SUFFIX) = 53 := z.nameLength_labels
  rw [hd.nameFromText_eq _ hsplit, htext, ← z.length_label,
    ← exists_readName_front_iff hne h63 z.plainLabels z.legal (by omega)]
  cases readName (textOctets key ++ 46 :: dotted (z.label :: SUFFIX)) with
  | error e => simp [Except.mapError]
  | ok n => simp [Except.mapError]

end

end DnsFixtures
