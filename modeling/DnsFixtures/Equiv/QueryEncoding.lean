import DnsFixtures.HealthCheck
import DnsFixtures.TcpProbe
import DnsFixtures.Equiv.QuestionName

/-!
# The query builders and the question reader

The proxy and its probe each have a builder of queries.  Both write `queryOctets` of the labels of the
name, for the names of `IsQueryName` (`Proxy.buildQuery_eq_ok_iff`, `buildQuery_eq_ok_iff`), and
`questionEnd_queryOctets` reads the labels back.

A name of at most 255 octets has at most 127 labels, which with the root are the 128 turns of the
reader.
-/

namespace DnsFixtures

open Dns

/-! ### The names that can be asked for -/

/-- The labels of a name in characters; the name without any is written without a label. -/
def nameParts (name : String) : List (List Char) :=
  if rstripDots name.toList = [] then [] else (rstripDots name.toList).splitOn '.'

/-- The octets of the label. -/
def partOctets (part : List Char) : Label := textOctets (String.ofList part)

@[simp] theorem length_partOctets (part : List Char) : (partOctets part).length = part.length := by
  rw [partOctets, textOctets, List.length_map, String.toList_ofList]

/-- A label that both builders take. -/
def IsQueryLabel (part : List Char) : Prop :=
  (∀ c ∈ part, c.toNat < 128) ∧ 1 ≤ part.length ∧ part.length ≤ 63

instance (part : List Char) : Decidable (IsQueryLabel part) := inferInstanceAs (Decidable (_ ∧ _))

/-- Without the dots at its end the name is empty, or it splits at its dots into ASCII labels of 1 to
63 characters that take at most 255 octets, with their lengths and the root. -/
def IsQueryName (name : String) : Prop :=
  rstripDots name.toList = [] ∨
    (∀ part ∈ (rstripDots name.toList).splitOn '.', IsQueryLabel part) ∧
    (((rstripDots name.toList).splitOn '.').map fun part => part.length + 1).sum + 1 ≤ 255

instance (name : String) : Decidable (IsQueryName name) := inferInstanceAs (Decidable (_ ∨ _))

/-- The lower case of the name without the dots at its end. -/
def questionText (name : String) : String :=
  if rstripDots name.toList = [] then "." else lowerText (String.ofList (rstripDots name.toList))

theorem nameLength_partOctets (parts : List (List Char)) :
    nameLength (parts.map partOctets) = (parts.map fun part => part.length + 1).sum + 1 := by
  rw [nameLength, List.map_map]
  simp [Function.comp_def]

theorem isQueryName_iff (name : String) :
    IsQueryName name ↔ (∀ part ∈ nameParts name, IsQueryLabel part) ∧
      nameLength ((nameParts name).map partOctets) ≤ 255 := by
  unfold IsQueryName nameParts
  rw [nameLength_partOctets]
  by_cases hnil : rstripDots name.toList = []
  · simp [hnil]
  · simp [hnil]

/-- What a query name gives the reader. -/
structure QueryLabels (ls : List Label) : Prop where
  legal : LegalLabels ls
  ascii : ∀ l ∈ ls, ∀ b ∈ l, b.toNat < 128

theorem IsQueryLabel.isAsciiText {part : List Char} (h : IsQueryLabel part) :
    IsAsciiText (String.ofList part) := by
  intro c hc
  rw [String.toList_ofList] at hc
  exact h.1 c hc

theorem IsQueryName.queryLabels {name : String} (h : IsQueryName name) :
    QueryLabels ((nameParts name).map partOctets) := by
  obtain ⟨hparts, hlen⟩ := (isQueryName_iff name).mp h
  refine ⟨⟨fun l hl => ?_, fun l hl => ?_, hlen⟩, fun l hl b hb => ?_⟩
  all_goals
    obtain ⟨part, hpart, rfl⟩ := List.mem_map.mp hl
    have hlabel := hparts part hpart
  · rw [← List.length_pos_iff, length_partOctets]
    exact hlabel.2.1
  · rw [length_partOctets]
    exact hlabel.2.2
  · exact mem_textOctets_lt hlabel.isAsciiText hb

/-- The text of the labels is the name again. -/
theorem labelsText_nameParts {name : String} (h : IsQueryName name) :
    labelsText ((nameParts name).map partOctets) = questionText name := by
  obtain ⟨hparts, -⟩ := (isQueryName_iff name).mp h
  have htexts : ((nameParts name).map partOctets).map octetsText
      = (nameParts name).map String.ofList := by
    rw [List.map_map]
    refine List.map_congr_left fun part hpart => ?_
    have hascii := (hparts part hpart).isAsciiText
    exact (decodeAscii_eq_some (decodeAscii_textOctets hascii)).2.symm
  unfold labelsText joined questionText
  rw [htexts]
  by_cases hnil : rstripDots name.toList = []
  · rw [nameParts, if_pos hnil, if_pos hnil]
    rfl
  · rw [nameParts, if_neg hnil, if_neg hnil, if_neg (by simp)]
    congr 1
    rw [← String.toList_inj, String.toList_intercalate, String.toList_ofList, List.map_map]
    simp [Function.comp_def]

/-! ### What is written -/

/-- The octets of a query for these labels. -/
def queryOctets (ls : List Label) (kind id : UInt16) : Octets :=
  writeHeader ⟨id, 0x0100, 1, 0, 0, 0⟩ ++ wireLabels ls ++ (packU16 kind ++ packU16 1)

theorem length_queryOctets (ls : List Label) (kind id : UInt16) :
    (queryOctets ls kind id).length = 12 + nameLength ls + 4 := by
  rw [queryOctets, List.length_append, List.length_append, length_writeHeader, length_wireLabels]
  rfl

/-- The labels behind their length octets, as the builders put them together. -/
theorem flatten_parts (parts : List (List Char)) :
    (parts.map fun part => UInt8.ofNat part.length :: partOctets part).flatten ++ [0]
      = wireLabels (parts.map partOctets) := by
  rw [wireLabels, List.flatMap_map, List.flatMap]
  simp only [length_partOctets]

/-- What both builders do with an ASCII label. -/
theorem checkLabel_eq_ok_iff {ε : Type} (e : ε) {part : List Char} (hascii : ∀ c ∈ part, c.toNat < 128)
    (bs : Octets) :
    (if (partOctets part).length < 1 ∨ 63 < (partOctets part).length then throw e
        else return UInt8.ofNat (partOctets part).length :: partOctets part : Except ε Octets)
      = .ok bs ↔ IsQueryLabel part ∧ bs = UInt8.ofNat part.length :: partOctets part := by
  rw [length_partOctets, IsQueryLabel]
  split_ifs with hlen
  · exact iff_of_false (fun h => by cases h) fun h => by omega
  · constructor
    · intro h
      cases h
      exact ⟨⟨hascii, by omega, by omega⟩, rfl⟩
    · rintro ⟨-, rfl⟩
      rfl

theorem Proxy.buildLabel_eq_ok_iff (part : List Char) (bs : Octets) :
    Proxy.buildLabel part = .ok bs ↔
      IsQueryLabel part ∧ bs = UInt8.ofNat part.length :: partOctets part := by
  unfold Proxy.buildLabel Proxy.encodeAscii
  by_cases hascii : ∀ c ∈ part, c.toNat < 128
  · rw [if_pos hascii]
    exact checkLabel_eq_ok_iff _ hascii bs
  · rw [if_neg hascii]
    exact iff_of_false (fun h => by cases h) fun h => hascii h.1.1

theorem buildLabel_eq_ok_iff (part : List Char) (bs : Octets) :
    buildLabel part = .ok bs ↔
      IsQueryLabel part ∧ bs = UInt8.ofNat part.length :: partOctets part := by
  unfold buildLabel
  dsimp only
  by_cases hascii : ∀ c ∈ part, c.toNat < 128
  · rw [if_neg (by simpa using hascii)]
    exact checkLabel_eq_ok_iff _ hascii bs
  · rw [if_pos (by simpa using hascii)]
    exact iff_of_false (fun h => by cases h) fun h => hascii h.1.1

/-- **What `build_query` of the proxy writes.** -/
theorem Proxy.buildQuery_eq_ok_iff {name : String} {kind id : UInt16} {query : Octets} :
    Proxy.buildQuery name kind.toNat id.toNat = .ok query ↔
      IsQueryName name ∧ query = queryOctets ((nameParts name).map partOctets) kind id := by
  have hk := kind.toNat_lt
  have hi := id.toNat_lt
  rw [isQueryName_iff]
  unfold Proxy.buildQuery
  rw [if_neg (by omega), if_neg (by omega)]
  dsimp only
  rw [← nameParts]
  constructor
  · intro h
    obtain ⟨encoded, hencoded, h⟩ := bind_eq_ok h
    obtain ⟨hparts, rfl⟩ := (mapM_eq_ok_iff Proxy.buildLabel_eq_ok_iff).mp hencoded
    rw [flatten_parts, length_wireLabels] at h
    split_ifs at h with hlen
    cases h
    refine ⟨⟨hparts, by omega⟩, ?_⟩
    rw [Int.toNat_natCast, Int.toNat_natCast, UInt16.ofNat_toNat, UInt16.ofNat_toNat]
    rfl
  · rintro ⟨⟨hparts, hlen⟩, rfl⟩
    rw [(mapM_eq_ok_iff Proxy.buildLabel_eq_ok_iff).mpr ⟨hparts, rfl⟩]
    show (if _ then _ else _) = _
    rw [flatten_parts, length_wireLabels, if_neg (by omega), Int.toNat_natCast, Int.toNat_natCast,
      UInt16.ofNat_toNat, UInt16.ofNat_toNat]
    rfl

/-- **What `build_query` of the probe writes.** -/
theorem buildQuery_eq_ok_iff {name qtype : String} {kind id : UInt16} {query : Octets}
    (hkind : probeType qtype = .ok kind) :
    buildQuery name qtype id = .ok query ↔
      IsQueryName name ∧ query = queryOctets ((nameParts name).map partOctets) kind id := by
  rw [isQueryName_iff]
  unfold buildQuery buildName
  rw [hkind]
  dsimp only
  rw [← nameParts]
  constructor
  · intro h
    obtain ⟨wireName, hname, h⟩ := bind_eq_ok h
    obtain ⟨encoded, hencoded, hname⟩ := bind_eq_ok hname
    obtain ⟨hparts, rfl⟩ := (mapM_eq_ok_iff buildLabel_eq_ok_iff).mp hencoded
    rw [flatten_parts, length_wireLabels] at hname
    split_ifs at hname with hlen
    cases hname
    cases h
    exact ⟨⟨hparts, by omega⟩, rfl⟩
  · rintro ⟨⟨hparts, hlen⟩, rfl⟩
    rw [(mapM_eq_ok_iff buildLabel_eq_ok_iff).mpr ⟨hparts, rfl⟩]
    show ((if _ then _ else _) >>= _) = _
    rw [flatten_parts, length_wireLabels, if_neg (by omega)]
    rfl

theorem exists_probeType {name qtype : String} {id : UInt16} {query : Octets}
    (h : buildQuery name qtype id = .ok query) : ∃ kind, probeType qtype = .ok kind := by
  obtain ⟨_, _, h⟩ := bind_eq_ok h
  obtain ⟨kind, hkind, -⟩ := bind_eq_ok h
  exact ⟨kind, hkind⟩

/-! ### What is read -/

theorem readHeader_queryOctets (ls : List Label) (kind id : UInt16) (rest : Octets) :
    readHeader (queryOctets ls kind id ++ rest) = some ⟨id, 0x0100, 1, 0, 0, 0⟩ := by
  refine readHeader_of_holdsAt ?_
  rw [holdsAt_zero_iff, queryOctets, List.append_assoc, List.append_assoc]
  exact List.prefix_append _ _

theorem QueryLabels.decodes {ls : List Label} (h : QueryLabels ls) (kind id : UInt16)
    (rest : Octets) : Decodes (queryOctets ls kind id ++ rest) 12 ls [] (12 + nameLength ls) := by
  have hholds : HoldsAt (queryOctets ls kind id ++ rest) 12 (wireLabels ls) := by
    rw [queryOctets, List.append_assoc]
    exact holdsAt_of_split _ _ _
  -- a legal name leaves the reader a turn for the root
  have hsteps : ls.length + ([] : List Nat).length < 128 := by
    have hshort := two_mul_length_lt_nameLength h.legal.label_ne_nil
    have hle := h.legal.total_le
    rw [List.length_nil]
    omega
  exact ⟨expands_of_holdsAt h.legal.label_ne_nil h.legal.label_le hholds, hsteps, h.ascii,
    endsAt_of_holdsAt h.legal.label_ne_nil h.legal.label_le hholds⟩

theorem QueryLabels.readsQuestion {ls : List Label} (h : QueryLabels ls) (kind id : UInt16) :
    ReadsQuestion (queryOctets ls kind id) ls [] := by
  have hheader := readHeader_queryOctets ls kind id []
  have hdecodes := h.decodes kind id []
  rw [List.append_nil] at hheader hdecodes
  exact ⟨⟨_, hheader, rfl⟩, _, hdecodes, (length_queryOctets ls kind id).ge⟩

/-- **The reader takes the labels back**, whatever stands behind the query. -/
theorem questionEnd_queryOctets {ls : List Label} (h : QueryLabels ls) (kind id : UInt16)
    (rest : Octets) :
    questionEnd (queryOctets ls kind id ++ rest)
      = .ok (labelsText ls, (queryOctets ls kind id).length) := by
  have hlen := length_queryOctets ls kind id
  refine questionEnd_eq_ok_iff.mpr ⟨ls, [], 12 + nameLength ls,
    ⟨_, readHeader_queryOctets ls kind id rest, rfl⟩, h.decodes kind id rest, ?_, rfl, hlen⟩
  rw [List.length_append]
  omega

/-- **Building a query and reading its name are inverse**: which names can be asked for, what the
reader returns for them with anything behind the query, and that the probe builds the same queries. -/
theorem buildQuery_questionEnd (name : String) (kind id : UInt16) :
    ((∃ query, Proxy.buildQuery name kind.toNat id.toNat = .ok query) ↔ IsQueryName name) ∧
    (∀ query, Proxy.buildQuery name kind.toNat id.toNat = .ok query → ∀ rest,
      questionEnd (query ++ rest) = .ok (questionText name, query.length)) ∧
    ∀ qtype, (qtype, kind) ∈ [("A", 1), ("TXT", 16)] → ∀ query,
      buildQuery name qtype id = .ok query ↔
        Proxy.buildQuery name kind.toNat id.toNat = .ok query := by
  refine ⟨⟨?_, ?_⟩, ?_, ?_⟩
  · rintro ⟨query, hquery⟩
    exact (Proxy.buildQuery_eq_ok_iff.mp hquery).1
  · intro hname
    exact ⟨_, Proxy.buildQuery_eq_ok_iff.mpr ⟨hname, rfl⟩⟩
  · intro query hquery rest
    obtain ⟨hname, rfl⟩ := Proxy.buildQuery_eq_ok_iff.mp hquery
    rw [questionEnd_queryOctets hname.queryLabels, labelsText_nameParts hname]
  · intro qtype hqtype query
    have hkind : probeType qtype = .ok kind := by
      rcases List.mem_cons.mp hqtype with h | h
      · cases h
        rfl
      · cases List.mem_singleton.mp h
        rfl
    rw [buildQuery_eq_ok_iff hkind, Proxy.buildQuery_eq_ok_iff]

/-- The characters of 127 labels of one octet. -/
def longName : List Char := ['.'].intercalate (List.replicate 127 ['A'])

/-- A name of 127 labels, with an octet behind the query. -/
theorem buildQuery_questionEnd_long : ∃ query,
    buildQuery (String.ofList longName) "TXT" 0x6313 = .ok query ∧
    questionEnd (query ++ [0]) = .ok (lowerText (String.ofList longName), query.length) := by
  have hstrip : rstripDots longName = longName := by decide +kernel
  have hname : IsQueryName (String.ofList longName) := by
    rw [IsQueryName, String.toList_ofList, hstrip]
    decide +kernel
  have htext : questionText (String.ofList longName) = lowerText (String.ofList longName) := by
    rw [questionText, String.toList_ofList, hstrip, if_neg (by decide)]
  obtain ⟨⟨-, hbuild⟩, hread, hprobe⟩ := buildQuery_questionEnd (String.ofList longName) 16 0x6313
  obtain ⟨query, hquery⟩ := hbuild hname
  exact ⟨query, (hprobe "TXT" (by decide) query).mpr hquery, htext ▸ hread query hquery [0]⟩

end DnsFixtures
