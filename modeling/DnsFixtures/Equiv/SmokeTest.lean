import DnsFixtures.SmokeTest

/-!
# What the parity check compares

`answerDigest` keeps all fields of a record but the second, its TTL (`fields_awkLine`), and `sort`
takes away the order of the records and nothing more.  `parityLoop_iff`: so the script gets past the
comparison if and only if, for every name and type, both queries are answered, and with the same
records as often, up to order and TTL.
-/

namespace DnsFixtures

open Dns Shell

/-! ### One record -/

/-- The fields of a record that count: all but the TTL. -/
def recordFields (line : Octets) : List Octets := (fields isIfs line).eraseIdx 1

/-- An output that `[[:space:]]` and the default field separator read alike. -/
def Plain (text : Octets) : Prop := ∀ b ∈ text, isSpaceOctet b = isIfs b

instance (text : Octets) : Decidable (Plain text) := by unfold Plain; infer_instance

/-- The text of the fields, the first of which is followed by a blank in any case. -/
def recordLine : List Octets → Octets
  | [] => [32]
  | first :: rest => first ++ 32 :: [32].intercalate rest

theorem subSpaces_append {text : Octets} (h : ∀ b ∈ text, isSpaceOctet b = false) {b : UInt8}
    (hb : isSpaceOctet b = true) (rest : Octets) :
    subSpaces (text ++ b :: rest) = text ++ 32 :: rest.dropWhile isSpaceOctet := by
  induction text with
  | nil => rw [List.nil_append, subSpaces, if_pos hb, List.nil_append]
  | cons c text ih =>
    obtain ⟨hc, htext⟩ := List.forall_mem_cons.mp h
    rw [List.cons_append, subSpaces, if_neg (by rw [hc]; exact Bool.false_ne_true), ih htext,
      List.cons_append]

/-- Texts that start with no blank are not cut when they are joined. -/
theorem dropWhile_intercalate {texts : List Octets}
    (h : ∀ text ∈ texts, text ≠ [] ∧ ∀ b ∈ text, isSpaceOctet b = false) :
    ([32].intercalate texts).dropWhile isSpaceOctet = [32].intercalate texts := by
  cases texts with
  | nil => rfl
  | cons text texts =>
    obtain ⟨hne, htext⟩ := h text List.mem_cons_self
    obtain ⟨b, text, rfl⟩ := List.exists_cons_of_ne_nil hne
    have hb : ¬ isSpaceOctet b = true := by
      rw [htext b List.mem_cons_self]
      exact Bool.false_ne_true
    cases texts with
    | nil => exact List.dropWhile_cons_of_neg hb
    | cons next texts =>
      rw [List.intercalate_cons_cons]
      exact List.dropWhile_cons_of_neg hb

/-- What is printed for a line is the text of the fields that count. -/
theorem subSpaces_emptySecondField {texts : List Octets}
    (h : ∀ text ∈ texts, text ≠ [] ∧ ∀ b ∈ text, isSpaceOctet b = false) :
    subSpaces ([32].intercalate (emptySecondField texts)) = recordLine (texts.eraseIdx 1) := by
  match texts with
  | [] => rfl
  | [first] => exact subSpaces_append (h first List.mem_cons_self).2 rfl []
  | [first, ttl] => exact subSpaces_append (h first List.mem_cons_self).2 rfl []
  | first :: ttl :: third :: rest =>
    have hrest : ∀ text ∈ third :: rest, text ≠ [] ∧ ∀ b ∈ text, isSpaceOctet b = false :=
      fun text ht => h text (List.mem_cons_of_mem _ (List.mem_cons_of_mem _ ht))
    have hjoin : [32].intercalate (emptySecondField (first :: ttl :: third :: rest))
        = first ++ 32 :: 32 :: [32].intercalate (third :: rest) := by
      rw [emptySecondField, List.intercalate_cons_cons, List.intercalate_cons_cons]
      simp
    rw [hjoin, subSpaces_append (h first List.mem_cons_self).2 rfl,
      List.dropWhile_cons_of_pos (by decide), dropWhile_intercalate hrest]
    rfl

/-- The fields of a plain line have no space of any kind. -/
theorem isSpaceOctet_of_mem_fields {line : Octets} (hline : Plain line) :
    ∀ field ∈ fields isIfs line, field ≠ [] ∧ ∀ b ∈ field, isSpaceOctet b = false := by
  intro field hfield
  obtain ⟨hne, hpart⟩ := mem_fields hfield
  refine ⟨hne, fun b hb => ?_⟩
  rw [hline b (hpart.subset hb)]
  exact not_blank_of_mem_fields hfield hb

theorem awkLine_eq {line : Octets} (hline : Plain line) :
    awkLine line = recordLine (recordFields line) :=
  subSpaces_emptySecondField (isSpaceOctet_of_mem_fields hline)

/-- A text of fields has these fields. -/
theorem fields_recordLine {texts : List Octets}
    (h : ∀ text ∈ texts, text ≠ [] ∧ ∀ b ∈ text, isIfs b = false) :
    fields isIfs (recordLine texts) = texts := by
  have hfields : ∀ ts : List Octets, (∀ text ∈ ts, text ≠ [] ∧ ∀ b ∈ text, isIfs b = false) →
      ts.flatMap (fields isIfs) = ts := by
    intro ts hts
    induction ts with
    | nil => rfl
    | cons t ts ih =>
      obtain ⟨⟨hne, ht⟩, hts⟩ := List.forall_mem_cons.mp hts
      rw [List.flatMap_cons, fields_of_not_blank ht hne, ih hts]
      rfl
  cases texts with
  | nil => rfl
  | cons first rest =>
    obtain ⟨⟨hne, hfirst⟩, hrest⟩ := List.forall_mem_cons.mp h
    rw [recordLine, fields_append_cons rfl, fields_intercalate rfl, fields_of_not_blank hfirst hne,
      hfields rest hrest]
    rfl

theorem not_isIfs_of_mem_recordFields {line : Octets} :
    ∀ field ∈ recordFields line, field ≠ [] ∧ ∀ b ∈ field, isIfs b = false := fun _ hfield =>
  have hmem := List.mem_of_mem_eraseIdx hfield
  ⟨(mem_fields hmem).1, fun _ hb => not_blank_of_mem_fields hmem hb⟩

/-- **All fields but the second** are left of a line. -/
theorem fields_awkLine {line : Octets} (hline : Plain line) :
    fields isIfs (awkLine line) = recordFields line := by
  rw [awkLine_eq hline, fields_recordLine not_isIfs_of_mem_recordFields]

/-- What is joined by blanks. -/
theorem mem_intercalate_blank {texts : List Octets} {b : UInt8}
    (h : b ∈ [32].intercalate texts) : b = 32 ∨ ∃ text ∈ texts, b ∈ text := by
  induction texts with
  | nil => cases h
  | cons text texts ih =>
    cases texts with
    | nil =>
      rw [List.intercalate_singleton] at h
      exact .inr ⟨text, List.mem_cons_self, h⟩
    | cons next texts =>
      rw [List.intercalate_cons_cons] at h
      rcases List.mem_append.mp h with h | h
      · rcases List.mem_append.mp h with h | h
        · exact .inr ⟨text, List.mem_cons_self, h⟩
        · exact .inl (List.mem_singleton.mp h)
      · refine (ih h).imp_right fun ⟨t, ht, hb⟩ => ⟨t, List.mem_cons_of_mem _ ht, hb⟩

/-- A printed line is a line, and not empty. -/
theorem awkLine_isLine {line : Octets} (hline : Plain line) :
    10 ∉ awkLine line ∧ awkLine line ≠ [] := by
  rw [awkLine_eq hline]
  have hfields := @not_isIfs_of_mem_recordFields line
  have hnewline : ∀ field ∈ recordFields line, 10 ∉ field := fun field hfield h10 =>
    absurd ((hfields field hfield).2 10 h10) (by decide)
  cases hrecord : recordFields line with
  | nil => exact ⟨by decide, by decide⟩
  | cons first rest =>
    rw [hrecord] at hnewline
    refine ⟨fun h10 => ?_, by simp [recordLine]⟩
    rcases List.mem_append.mp h10 with h10 | h10
    · exact hnewline first List.mem_cons_self h10
    rcases List.mem_cons.mp h10 with h10 | h10
    · exact absurd h10 (by decide)
    rcases mem_intercalate_blank h10 with h10 | ⟨field, hfield, h10⟩
    · exact absurd h10 (by decide)
    · exact hnewline field (List.mem_cons_of_mem _ hfield) h10

/-! ### One answer -/

/-- The lines that `awk` gets. -/
def answerLines (output : Octets) : List Octets := lines 10 (substitution output ++ [10])

/-- The records of an answer, as far as they are compared. -/
def comparedRecords (output : Octets) : List (List Octets) := (answerLines output).map recordFields

theorem substitution_subset (output : Octets) : substitution output ⊆ output := fun _ hb =>
  List.mem_reverse.mp ((List.dropWhile_sublist _).subset (List.mem_reverse.mp hb))

theorem plain_of_mem_answerLines {output line : Octets} (houtput : Plain output)
    (h : line ∈ answerLines output) : Plain line := by
  intro b hb
  rcases List.mem_append.mp (mem_of_mem_lines h hb) with hb | hb
  · exact houtput b (substitution_subset output hb)
  · rw [List.mem_singleton.mp hb]
    rfl

/-- The records can be read off the printed lines, and the printed lines are made of them. -/
theorem perm_awkLine_iff {output output' : Octets} (h : Plain output) (h' : Plain output') :
    ((answerLines output).map awkLine).Perm ((answerLines output').map awkLine) ↔
      (comparedRecords output).Perm (comparedRecords output') := by
  have hread : ∀ {o : Octets}, Plain o →
      ((answerLines o).map awkLine).map (fields isIfs) = comparedRecords o := fun ho => by
    rw [List.map_map]
    exact List.map_congr_left fun line hline => fields_awkLine (plain_of_mem_answerLines ho hline)
  have hwrite : ∀ {o : Octets}, Plain o →
      (comparedRecords o).map recordLine = (answerLines o).map awkLine := fun ho => by
    rw [comparedRecords, List.map_map]
    exact List.map_congr_left fun line hline => (awkLine_eq (plain_of_mem_answerLines ho hline)).symm
  constructor
  · intro hperm
    rw [← hread h, ← hread h']
    exact hperm.map _
  · intro hperm
    rw [← hwrite h, ← hwrite h']
    exact hperm.map _

section

variable {le : Octets → Octets → Bool} {query : String → String → String → Option Octets}

theorem answerDigest_of_some {transport name type : String} {output : Octets}
    (h : query transport name type = some output) :
    answerDigest le query transport name type
      = .ok (unlines 10 (((answerLines output).map awkLine).mergeSort le)) := by
  rw [answerDigest, h]
  rfl

/-- The sorted lines survive the command substitution. -/
theorem lines_substitution_digest {output : Octets} (h : Plain output) :
    lines 10 (substitution (unlines 10 (((answerLines output).map awkLine).mergeSort le)))
      = ((answerLines output).map awkLine).mergeSort le := by
  have hline : ∀ line ∈ ((answerLines output).map awkLine).mergeSort le,
      10 ∉ line ∧ line ≠ [] := fun line hmem => by
    obtain ⟨text, htext, rfl⟩ := List.mem_map.mp (List.mem_mergeSort.mp hmem)
    exact awkLine_isLine (plain_of_mem_answerLines h htext)
  exact lines_chomp_unlines (fun line hmem => (hline line hmem).1) fun line hmem => (hline line hmem).2

/-- Two digests agree if and only if the answers have the same records. -/
theorem substitution_digest_eq_iff (hle : IsSortOrder le) {output output' : Octets}
    (h : Plain output) (h' : Plain output') :
    substitution (unlines 10 (((answerLines output).map awkLine).mergeSort le))
        = substitution (unlines 10 (((answerLines output').map awkLine).mergeSort le)) ↔
      (comparedRecords output).Perm (comparedRecords output') := by
  rw [← perm_awkLine_iff h h', ← mergeSort_eq_iff hle]
  constructor
  · intro heq
    rw [← lines_substitution_digest h, heq, lines_substitution_digest h']
  · intro heq
    rw [heq]

/-! ### The comparisons -/

/-- Both queries are answered, and with the same records as often. -/
def SameRecords (query : String → String → String → Option Octets) (row : String × String) : Prop :=
  ∃ udpAnswer tcpAnswer, query "udp" row.1 row.2 = some udpAnswer ∧
    query "tcp" row.1 row.2 = some tcpAnswer ∧
    (comparedRecords udpAnswer).Perm (comparedRecords tcpAnswer)

/-- What is printed for a name and a type. -/
def passLine (row : String × String) : String :=
  pass ("canonical UDP/TCP parity for " ++ row.1 ++ " " ++ row.2)

/-- The rows that are not skipped. -/
def asked (rows : List (String × String)) : List (String × String) :=
  rows.filter fun row => row.1 ≠ ""

/-- One comparison succeeds if and only if the records are the same. -/
theorem expectParity_eq (hle : IsSortOrder le)
    (hplain : ∀ transport name type, ∀ output ∈ query transport name type, Plain output)
    (row : String × String) :
    (SameRecords query row → expectParity le query row.1 row.2 = .ok (passLine row)) ∧
    (¬ SameRecords query row → ∃ failure, expectParity le query row.1 row.2 = .error failure) := by
  rw [expectParity]
  cases hudp : query "udp" row.1 row.2 with
  | none =>
    refine ⟨fun ⟨_, _, h, _⟩ => absurd (hudp.symm.trans h) (by simp), fun _ => ?_⟩
    rw [answerDigest, hudp]
    exact ⟨_, rfl⟩
  | some udpAnswer =>
    cases htcp : query "tcp" row.1 row.2 with
    | none =>
      refine ⟨fun ⟨_, _, _, h, _⟩ => absurd (htcp.symm.trans h) (by simp), fun _ => ?_⟩
      rw [answerDigest_of_some hudp, answerDigest, htcp]
      exact ⟨_, rfl⟩
    | some tcpAnswer =>
      have hiff := substitution_digest_eq_iff hle (hplain _ _ _ udpAnswer hudp)
        (hplain _ _ _ tcpAnswer htcp)
      rw [answerDigest_of_some hudp, answerDigest_of_some htcp]
      refine ⟨fun ⟨udp, tcp, hu, ht, hperm⟩ => ?_, fun hnot => ?_⟩
      · rw [hudp] at hu
        rw [htcp] at ht
        cases hu
        cases ht
        exact if_pos (hiff.mpr hperm)
      · exact ⟨_, if_neg fun heq => hnot ⟨_, _, hudp, htcp, hiff.mp heq⟩⟩

/-- **The script gets past the comparison if and only if UDP and TCP give the same records**, for every
name and type; otherwise it stops at the first one for which they do not. -/
theorem parityLoop_iff (hle : IsSortOrder le)
    (hplain : ∀ transport name type, ∀ output ∈ query transport name type, Plain output)
    (rows : List (String × String)) :
    ((∀ row ∈ asked rows, SameRecords query row) →
      parityLoop le query rows = (.ok (), (asked rows).map passLine)) ∧
    ∀ before row after, asked rows = before ++ row :: after →
      (∀ r ∈ before, SameRecords query r) → ¬ SameRecords query row →
        ∃ failure, parityLoop le query rows = (.error failure, before.map passLine) := by
  induction rows with
  | nil => exact ⟨fun _ => rfl, fun before row after h => by simp [asked] at h⟩
  | cons head rest ih =>
    obtain ⟨hsame, hdiffers⟩ := expectParity_eq hle hplain head
    rw [parityLoop]
    by_cases hskip : head.1 = ""
    · have hasked : asked (head :: rest) = asked rest := List.filter_cons_of_neg (by simp [hskip])
      rw [if_pos hskip, hasked]
      exact ih
    · have hasked : asked (head :: rest) = head :: asked rest :=
        List.filter_cons_of_pos (by simp [hskip])
      rw [if_neg hskip, hasked]
      refine ⟨fun hall => ?_, fun before row after hrows hbefore hnot => ?_⟩
      · obtain ⟨hhead, hrest⟩ := List.forall_mem_cons.mp hall
        rw [hsame hhead, ih.1 hrest]
        rfl
      · rcases List.cons_eq_append_iff.mp hrows with ⟨rfl, hrow⟩ | ⟨before', rfl, hrest⟩
        · cases hrow
          obtain ⟨failure, hfailure⟩ := hdiffers hnot
          exact ⟨failure, by rw [hfailure]; rfl⟩
        · obtain ⟨hhead, hbefore'⟩ := List.forall_mem_cons.mp hbefore
          obtain ⟨failure, hfailure⟩ := ih.2 before' row after hrest hbefore' hnot
          exact ⟨failure, by rw [hsame hhead, hfailure]; rfl⟩

end

/-- The order of octets. -/
theorem isSortOrder_octets : IsSortOrder fun a b : Octets => decide (a ≤ b) where
  trans a b c hab hbc := by
    rw [decide_eq_true_iff] at *
    exact List.le_trans hab hbc
  total a b := by
    rw [Bool.or_eq_true, decide_eq_true_iff, decide_eq_true_iff]
    exact List.le_total a b
  antisymm a b hab hba := by
    rw [decide_eq_true_iff] at *
    exact List.le_antisymm hab hba

/-- Two records, whose order and TTL depend on the transport. -/
def twoRecords (transport : String) : Octets :=
  if transport = "udp" then
    textOctets "a.example.test.\t60\tIN\tA\t192.0.2.10\na.example.test.\t60\tIN\tA\t192.0.2.11\n"
  else textOctets "a.example.test. 58 IN A 192.0.2.11\na.example.test. 58 IN A 192.0.2.10\n"

theorem parityLoop_iff_twoRecords :
    parityLoop (fun a b => decide (a ≤ b)) (fun transport _ _ => some (twoRecords transport))
        [("a.example.test", "A"), ("", "A")]
      = (.ok (), [pass "canonical UDP/TCP parity for a.example.test A"]) :=
  (parityLoop_iff isSortOrder_octets
    (by
      intro transport name type output houtput
      rw [← Option.some_inj.mp houtput, twoRecords]
      split_ifs
      · decide
      · decide) _).1
    (fun _ _ => ⟨_, _, rfl, rfl, by decide⟩)

end DnsFixtures
