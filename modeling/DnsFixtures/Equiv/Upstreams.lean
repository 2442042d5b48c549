import DnsFixtures.RenderRecursion

/-!
# The upstreams of the recursion block

`render-recursion.sh` looks for empty addresses in the raw value and then splits at blanks with the
commas turned into blanks.  So it goes over the fields of all elements (`addressWords_eq`), and an
element with two fields becomes two forwarders, a blank one none.  `rendersUpstreams_iff`: this is where
the file differs from the value, and what is written has addresses only (`renderRecursion_cases`,
`count_recursionConf`).
-/

namespace DnsFixtures

open Dns Shell

/-! ### The words -/

/-- The comma-separated elements of the value. -/
def elements (value : Octets) : List Octets := value.splitOn 44

theorem trCommas_eq (value : Octets) : trCommas value = [32].intercalate (elements value) := by
  unfold elements
  induction value with
  | nil => rfl
  | cons b value ih =>
    obtain ⟨head, tail, hsplit⟩ := List.exists_cons_of_ne_nil (List.splitOn_ne_nil (44 : UInt8) value)
    rw [List.splitOn_cons_eq_if_modifyHead, trCommas, List.map_cons]
    rw [hsplit] at ih ⊢
    rw [trCommas] at ih
    rw [ih]
    -- a comma begins an element, anything else goes in front of the first
    by_cases hb : b = 44
    · rw [if_pos hb, if_pos (beq_iff_eq.mpr hb), List.intercalate_cons_cons]
      rfl
    · rw [if_neg hb, if_neg (fun h => hb (beq_iff_eq.mp h))]
      cases tail with
      | nil => simp
      | cons next tail => simp [List.intercalate_cons_cons]

theorem fields_substitution (output : Octets) :
    fields isIfs (substitution output) = fields isIfs output := by
  have hsplit : output = substitution output ++ (output.reverse.takeWhile (· = 10)).reverse := by
    rw [substitution, ← List.reverse_append, List.takeWhile_append_dropWhile, List.reverse_reverse]
  have hnewlines : ∀ b ∈ (output.reverse.takeWhile (· = 10)).reverse, isIfs b = true := by
    intro b hb
    have hten := List.all_eq_true.mp List.all_takeWhile b (List.mem_reverse.mp hb)
    rw [of_decide_eq_true hten]
    rfl
  conv_rhs => rw [hsplit]
  exact (fields_append_of_blank _ hnewlines).symm

/-- **The words are the fields of the elements.** -/
theorem addressWords_eq (value : Octets) :
    addressWords value = (elements value).flatMap (fields isIfs) := by
  rw [addressWords, fields_substitution, trCommas_eq, fields_intercalate rfl]

/-! ### The loop and the checks -/

theorem forwardersLoop_eq_ok_iff {words : List Octets} {before forwarders : Octets} :
    forwardersLoop words before = .ok forwarders ↔
      (∀ word ∈ words, ∀ b ∈ word, isAddressOctet b = true) ∧
        forwarders = before ++ words.flatMap forwarderEntry := by
  induction words generalizing before with
  | nil =>
    rw [forwardersLoop, List.flatMap_nil, List.append_nil]
    constructor
    · intro h
      cases h
      exact ⟨by simp, rfl⟩
    · rintro ⟨-, rfl⟩
      rfl
  | cons word words ih =>
    rw [forwardersLoop, List.forall_mem_cons]
    split_ifs with hbad
    · obtain ⟨b, hb, hnot⟩ := List.any_eq_true.mp hbad
      refine iff_of_false (fun h => by cases h) fun h => ?_
      rw [h.1.1 b hb] at hnot
      cases hnot
    · have hgood : ∀ b ∈ word, isAddressOctet b = true := by simpa using hbad
      rw [ih, List.flatMap_cons, List.append_assoc, and_iff_right hgood]

/-- The value passes the checks of the script. -/
structure Accepted (value : Octets) : Prop where
  ne_nil : value ≠ []
  commas : hasEmptyAddress value = false
  octets : ∀ word ∈ addressWords value, ∀ b ∈ word, isAddressOctet b = true
  words : addressWords value ≠ []

theorem flatMap_forwarderEntry_eq_nil_iff {words : List Octets} :
    words.flatMap forwarderEntry = [] ↔ words = [] := by
  cases words with
  | nil => simp
  | cons word words => simp [forwarderEntry]

theorem upstreamForwarders_eq_ok_iff {value forwarders : Octets} :
    upstreamForwarders value = .ok forwarders ↔
      Accepted value ∧ forwarders = (addressWords value).flatMap forwarderEntry := by
  unfold upstreamForwarders
  by_cases hnil : value = []
  · rw [if_pos hnil]
    exact iff_of_false (fun h => by cases h) fun h => h.1.ne_nil hnil
  rw [if_neg hnil]
  cases hcommas : hasEmptyAddress value with
  | true =>
    refine iff_of_false (fun h => by cases h) fun h => ?_
    rw [h.1.commas] at hcommas
    cases hcommas
  | false =>
    rw [if_neg Bool.false_ne_true]
    -- the loop is reached: it fails at a word with another octet
    cases hloop : forwardersLoop (addressWords value) [] with
    | error failure =>
      refine iff_of_false (fun h => by cases h) fun h => ?_
      rw [forwardersLoop_eq_ok_iff.mpr ⟨h.1.octets, rfl⟩] at hloop
      cases hloop
    | ok result =>
      obtain ⟨hoctets, rfl⟩ := forwardersLoop_eq_ok_iff.mp hloop
      show (if [] ++ _ = ([] : Octets) then _ else _) = _ ↔ _
      rw [List.nil_append]
      split_ifs with hempty
      · refine iff_of_false (fun h => by cases h) fun h => ?_
        exact h.1.words (flatMap_forwarderEntry_eq_nil_iff.mp hempty)
      · have hwords := fun h => hempty (flatMap_forwarderEntry_eq_nil_iff.mpr h)
        constructor
        · intro h
          cases h
          exact ⟨⟨hnil, hcommas, hoctets, hwords⟩, rfl⟩
        · rintro ⟨-, rfl⟩
          rfl

/-! ### The file -/

theorem temporary_ne (destination : Octets) : destination ≠ temporary destination := by
  intro h
  have hlen := congrArg List.length h
  rw [temporary, List.length_append] at hlen
  have htmp : (textOctets ".tmp").length = 4 := rfl
  omega

/-- **How the script can end**: with a failure and the file as it was, or with a value that passes the
checks and its words in the file. -/
theorem renderRecursion_cases (value destination : Octets) (writes : WriteResult) (moves : Bool)
    (files : Files) :
    ((∃ failure, (renderRecursion value destination writes moves files).1 = .error failure) ∧
        (renderRecursion value destination writes moves files).2 destination = files destination) ∨
      ((renderRecursion value destination writes moves files).1 = .ok () ∧ Accepted value ∧
        (renderRecursion value destination writes moves files).2 destination
          = some (recursionConf ((addressWords value).flatMap forwarderEntry))) := by
  -- what is written in front of the move is not the destination
  have htmp := temporary_ne destination
  unfold renderRecursion
  cases hforwarders : upstreamForwarders value with
  | error failure => exact Or.inl ⟨⟨failure, rfl⟩, rfl⟩
  | ok forwarders =>
    obtain ⟨haccepted, rfl⟩ := upstreamForwarders_eq_ok_iff.mp hforwarders
    dsimp only
    by_cases hnil : destination = []
    · rw [if_pos hnil]
      exact Or.inl ⟨⟨_, rfl⟩, rfl⟩
    rw [if_neg hnil]
    cases writes with
    | failed left => exact Or.inl ⟨⟨_, rfl⟩, Function.update_of_ne htmp _ _⟩
    | written =>
      dsimp only
      cases moves with
      | false => exact Or.inl ⟨⟨_, rfl⟩, Function.update_of_ne htmp _ _⟩
      | true =>
        exact Or.inr ⟨rfl, haccepted,
          (Function.update_of_ne htmp _ _).trans (Function.update_self _ _ _)⟩

/-- A value that passes the checks is written when nothing fails. -/
theorem renderRecursion_of_accepted {value destination : Octets} (h : Accepted value)
    (hdestination : destination ≠ []) (files : Files) :
    (renderRecursion value destination .written true files).1 = .ok () := by
  rw [renderRecursion, upstreamForwarders_eq_ok_iff.mpr ⟨h, rfl⟩]
  dsimp only
  rw [if_neg hdestination]
  rfl

/-- **Addresses neither close the block nor add a statement**: the braces of the file are those of the
script, and there is one more semicolon for each address. -/
theorem count_recursionConf {entries : List Octets}
    (h : ∀ entry ∈ entries, ∀ b ∈ entry, isAddressOctet b = true) :
    (recursionConf (entries.flatMap forwarderEntry)).count 123 = 3 ∧
      (recursionConf (entries.flatMap forwarderEntry)).count 125 = 3 ∧
      (recursionConf (entries.flatMap forwarderEntry)).count 59 = 10 + entries.length := by
  have hentries : ∀ c : UInt8, c ∉ [32, 59] → isAddressOctet c = false →
      (entries.flatMap forwarderEntry).count c = 0 := by
    intro c hc hoctet
    rw [List.count_eq_zero]
    intro hmem
    obtain ⟨entry, hentry, hmem⟩ := List.mem_flatMap.mp hmem
    rw [forwarderEntry, List.append_assoc, List.mem_append, List.mem_append] at hmem
    rcases hmem with hspace | hmem | hsemicolon
    · exact hc (List.mem_cons.mpr (Or.inl (List.mem_singleton.mp hspace)))
    · rw [h entry hentry c hmem] at hoctet
      cases hoctet
    · exact hc (List.mem_cons_of_mem _ hsemicolon)
  have hsemicolons : (entries.flatMap forwarderEntry).count 59 = entries.length := by
    clear hentries
    induction entries with
    | nil => rfl
    | cons entry entries ih =>
      have hentry : entry.count 59 = 0 := by
        rw [List.count_eq_zero]
        intro hmem
        exact absurd (h entry List.mem_cons_self 59 hmem) (by decide)
      rw [List.flatMap_cons, List.count_append, ih fun e he => h e (List.mem_cons_of_mem _ he),
        forwarderEntry, List.count_append, List.count_append, hentry, List.length_cons]
      simp
      omega
  simp only [recursionConf, List.count_append, hsemicolons]
  rw [hentries 123 (by decide) (by decide), hentries 125 (by decide) (by decide)]
  refine ⟨by decide +kernel, by decide +kernel, ?_⟩
  have hbefore : (textOctets ("recursion yes;\ndnssec-validation auto;\n" ++
    "allow-recursion \x7b localhost; localnets; \x7d;\n" ++
    "allow-query-cache \x7b localhost; localnets; \x7d;\n" ++
    "forward only;\nforwarders \x7b ")).count 59 = 9 := by decide +kernel
  have hbehind : (textOctets " \x7d;\n").count 59 = 1 := by decide +kernel
  rw [hbefore, hbehind]
  omega

/-! ### One entry for each element -/

/-- The element is empty or blank, or it has more than one word. -/
def IsBadElement (element : Octets) : Prop :=
  (∀ b ∈ element, isIfs b = true) ∨ 1 < (fields isIfs element).length

/-- A run fails and leaves the file as it was, or it writes one entry for each element; and it fails
where an element is bad. -/
structure RendersUpstreams (value : Octets) : Prop where
  outcome : ∀ destination writes moves files,
    ((∃ failure, (renderRecursion value destination writes moves files).1 = .error failure) ∧
        (renderRecursion value destination writes moves files).2 destination = files destination) ∨
      ((renderRecursion value destination writes moves files).1 = .ok () ∧
        ∃ entries, (renderRecursion value destination writes moves files).2 destination
            = some (recursionConf (entries.flatMap forwarderEntry)) ∧
          List.Forall₂ (fun element entry => entry <:+: element) (elements value) entries ∧
          ∀ entry ∈ entries, entry ≠ [] ∧ ∀ b ∈ entry, isAddressOctet b = true)
  rejects : (∃ element ∈ elements value, IsBadElement element) →
    ∀ destination writes moves files,
      ∃ failure, (renderRecursion value destination writes moves files).1 = .error failure

theorem isBadElement_iff {element : Octets} :
    IsBadElement element ↔ (fields isIfs element).length ≠ 1 := by
  rw [IsBadElement, ← fields_eq_nil_iff, ← List.length_eq_zero_iff]
  omega

theorem forall₂_fields {texts : List Octets} (h : ∀ s ∈ texts, (fields isIfs s).length = 1) :
    List.Forall₂ (fun s field => field <:+: s) texts (texts.flatMap (fields isIfs)) := by
  induction texts with
  | nil => exact .nil
  | cons s texts ih =>
    obtain ⟨field, hfield⟩ := List.length_eq_one_iff.mp (h s List.mem_cons_self)
    have hmem : field ∈ fields isIfs s := by
      rw [hfield]
      exact List.mem_singleton_self field
    rw [List.flatMap_cons, hfield]
    exact .cons (mem_fields hmem).2 (ih fun s hs => h s (List.mem_cons_of_mem _ hs))

/-- **When the forwarders are the elements of the value**: every element has one word, or the value does
not pass the checks. -/
theorem rendersUpstreams_iff (value : Octets) :
    RendersUpstreams value ↔
      ((∀ element ∈ elements value, (fields isIfs element).length = 1) ∨ ¬ Accepted value) := by
  constructor
  · intro h
    by_contra hnot
    obtain ⟨hword, haccepted⟩ := not_or.mp hnot
    obtain ⟨element, helement, hlen⟩ := by simpa only [not_forall] using hword
    -- an accepted value with a bad element would have to fail, but it is written
    obtain ⟨failure, hfailure⟩ := h.rejects ⟨element, helement, isBadElement_iff.mpr hlen⟩
      [47] .written true fun _ => none
    rw [renderRecursion_of_accepted (not_not.mp haccepted) (List.cons_ne_nil 47 [])] at hfailure
    cases hfailure
  · intro h
    refine ⟨fun destination writes moves files => ?_, fun hbad destination writes moves files => ?_⟩
    · refine (renderRecursion_cases value destination writes moves files).imp_right ?_
      rintro ⟨hok, haccepted, hfile⟩
      have hword := h.resolve_right (not_not_intro haccepted)
      refine ⟨hok, addressWords value, hfile, ?_, fun entry hentry => ⟨?_, haccepted.octets entry hentry⟩⟩
      · rw [addressWords_eq]
        exact forall₂_fields hword
      · exact (mem_fields hentry).1
    · rcases renderRecursion_cases value destination writes moves files with hfail | ⟨-, haccepted, -⟩
      · exact hfail.1
      · obtain ⟨element, helement, hbad⟩ := hbad
        have hword := h.resolve_right (not_not_intro haccepted)
        exact absurd (hword element helement) (isBadElement_iff.mp hbad)

/-- A blank element between two addresses. -/
theorem not_rendersUpstreams_blank :
    ¬ RendersUpstreams (textOctets "192.0.2.53, ,192.0.2.54") := by
  intro h
  obtain ⟨failure, hfailure⟩ :=
    h.rejects ⟨[32], by decide, Or.inl (by decide)⟩ [47] .written true fun _ => none
  have hok : (renderRecursion (textOctets "192.0.2.53, ,192.0.2.54") [47] .written true
      fun _ => none).1 = .ok () := by decide +kernel
  rw [hok] at hfailure
  cases hfailure

end DnsFixtures
