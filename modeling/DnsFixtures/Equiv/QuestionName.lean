import DnsFixtures.FaultProxy

/-!
# The question name, as the proxy reads it

The proxy has a reader of its own for the name of the question.  `decodeName_eq_ok_iff`: it accepts
any acyclic name of ASCII labels whose labels and pointers are less than 128, and returns the labels
joined with dots, in lower case.

The text does not keep the labels apart.  `scenarioFor_labelsText_iff` says in octets which labels
select a scenario, and `eq_transportOwner_of_dotted` that without a dot inside a label they are those
of its owner.
-/

namespace DnsFixtures

open Dns

/-! ### The reader -/

/-- The text of labels that were read. -/
def joined (labels : List String) : String :=
  lowerText (if labels = [] then "." else ".".intercalate labels)

def labelsText (ls : List Label) : String := joined (ls.map octetsText)

/-- The name at `off` as `_decode_name` reads it: its labels, the pointers on the way and the end of
its octets. -/
structure Decodes (w : Octets) (off : Nat) (ls : List Label) (ps : List Nat) (stop : Nat) : Prop where
  expands : Expands w off ls ps
  steps : ls.length + ps.length < 128
  ascii : ∀ l ∈ ls, ∀ b ∈ l, b.toNat < 128
  endsAt : EndsAt w off stop

/-- What the two top bits of a length octet say. -/
theorem topBits_iff (b : UInt8) : (b &&& 0xC0 = 0xC0 ↔ 192 ≤ b.toNat) ∧
    (b &&& 0xC0 ≠ 0 ↔ 64 ≤ b.toNat) :=
  forall_octet (p := fun b => (b &&& 0xC0 = 0xC0 ↔ 192 ≤ b.toNat) ∧ (b &&& 0xC0 ≠ 0 ↔ 64 ≤ b.toNat))
    (by decide +kernel) b

theorem octet_eq_zero_iff (b : UInt8) : b = 0 ↔ b.toNat = 0 := UInt8.toNat_inj.symm

theorem getD_orElse (o : Option Nat) (a b : Nat) : (o <|> some a).getD b = o.getD a := by
  cases o <;> rfl

section

variable {w : Octets}

theorem decodeNameLoop_sound {n cursor : Nat} {labels : List String} {endOffset : Option Nat}
    {visited : List Nat} {text : String} {e : Nat}
    (h : decodeNameLoop w n cursor labels endOffset visited = .ok (text, e)) :
    ∃ ls ps stop, Expands w cursor ls ps ∧ ls.length + ps.length < n ∧
      (∀ l ∈ ls, ∀ b ∈ l, b.toNat < 128) ∧ EndsAt w cursor stop ∧
      text = joined (labels ++ ls.map octetsText) ∧ e = endOffset.getD stop := by
  induction n generalizing cursor labels endOffset visited with
  | zero => cases h
  | succ n ih =>
    rw [decodeNameLoop] at h
    split at h
    · cases h
    · rename_i len hlen
      obtain ⟨hpointer, hlong⟩ := topBits_iff len
      -- a pointer: only the first one says where the name ends
      by_cases h192 : len &&& 0xC0 = 0xC0
      · rw [if_pos h192] at h
        split at h
        · cases h
        · rename_i lo hlo
          dsimp only at h
          split_ifs at h
          obtain ⟨ls, ps, stop, hexp, hsteps, hascii, -, htext, he⟩ := ih h
          refine ⟨ls, _, cursor + 2, .pointer hlen (hpointer.mp h192) hlo hexp, ?_, hascii,
            .pointer hlen (hpointer.mp h192), htext, ?_⟩
          · rw [List.length_cons]
            omega
          · rw [he, getD_orElse]
      rw [if_neg h192] at h
      by_cases h64 : len &&& 0xC0 ≠ 0
      · rw [if_pos h64] at h
        cases h
      rw [if_neg h64] at h
      -- the root label ends the walk
      by_cases h0 : len = 0
      · rw [if_pos h0] at h
        subst h0
        cases h
        refine ⟨[], [], cursor + 1, .root hlen, Nat.zero_lt_succ n, by simp, .root hlen, ?_, rfl⟩
        rw [List.map_nil, List.append_nil]
        rfl
      rw [if_neg h0] at h
      by_cases hin : w.length < cursor + 1 + len.toNat
      · rw [if_pos hin] at h
        cases h
      rw [if_neg hin] at h
      rw [hlong] at h64
      rw [octet_eq_zero_iff] at h0
      split at h
      · cases h
      · -- a label of ASCII octets; any other raises
        rename_i label hlabel
        obtain ⟨hb, rfl⟩ := decodeAscii_eq_some hlabel
        obtain ⟨ls, ps, stop, hexp, hsteps, hascii, hstop, htext, he⟩ := ih h
        refine ⟨_, ps, stop, .label hlen (by omega) (by omega) (by omega) hexp, ?_, ?_,
          .label hlen (by omega) (by omega) hstop, ?_, he⟩
        · rw [List.length_cons]
          omega
        · intro l hl
          rcases List.mem_cons.mp hl with rfl | hl
          · exact hb
          · exact hascii l hl
        · rw [htext, List.map_cons, List.append_assoc, List.singleton_append]

/-- The walk never meets a pointer again: behind each of those visited there are at least as many to
come as now. -/
theorem decodeNameLoop_complete {cursor stop : Nat} {ls : List Label} {ps : List Nat}
    (h : Expands w cursor ls ps) (hstop : EndsAt w cursor stop)
    (hascii : ∀ l ∈ ls, ∀ b ∈ l, b.toNat < 128) {n : Nat} (hsteps : ls.length + ps.length < n)
    {visited : List Nat}
    (hvisited : ∀ v ∈ visited, ∃ ls' ps', Expands w v ls' ps' ∧ ps.length ≤ ps'.length)
    (labels : List String) (endOffset : Option Nat) :
    decodeNameLoop w n cursor labels endOffset visited
      = .ok (joined (labels ++ ls.map octetsText), endOffset.getD stop) := by
  induction h generalizing n labels endOffset visited stop with
  | @root off h0 =>
    obtain ⟨n, rfl⟩ : ∃ k, n = k + 1 := ⟨n - 1, by omega⟩
    cases hstop with
    | label h1 hpos => rw [h0] at h1; cases h1; exact absurd hpos (by decide)
    | pointer h1 hge => rw [h0] at h1; cases h1; exact absurd hge (by decide)
    | root =>
      have hzero : (0 : UInt8) &&& 0xC0 = 0 := by decide
      rw [decodeNameLoop, h0]
      dsimp only
      rw [hzero, if_neg (by decide), if_neg (by decide), if_pos rfl, List.map_nil, List.append_nil]
      rfl
  | @label off len ls ps h0 hpos hle hin hexp ih =>
    obtain ⟨n, rfl⟩ : ∃ k, n = k + 1 := ⟨n - 1, by omega⟩
    obtain ⟨hpointer, hlong⟩ := topBits_iff len
    cases hstop with
    | root h1 => rw [h0] at h1; cases h1; exact absurd hpos (by decide)
    | pointer h1 hge => rw [h0] at h1; cases h1; omega
    | label h1 _ _ hstop =>
      rw [h0] at h1
      cases h1
      have hb := hascii _ List.mem_cons_self
      rw [List.length_cons] at hsteps
      have hrest := ih hstop (fun l hl => hascii l (List.mem_cons_of_mem _ hl))
        (by omega : ls.length + ps.length < n) hvisited
        (labels ++ [octetsText ((w.drop (off + 1)).take len.toNat)]) endOffset
      rw [decodeNameLoop, h0]
      dsimp only
      rw [if_neg (by rw [hpointer]; omega), if_neg (by rw [hlong]; omega),
        if_neg (by rw [octet_eq_zero_iff]; omega), if_neg (by omega), decodeAscii, if_pos hb]
      dsimp only
      rw [hrest, List.append_assoc, List.singleton_append, List.map_cons]
  | @pointer off hi lo ls ps h0 hge h1 hexp ih =>
    obtain ⟨n, rfl⟩ : ∃ k, n = k + 1 := ⟨n - 1, by omega⟩
    obtain ⟨hpointer, -⟩ := topBits_iff hi
    obtain ⟨behind, hbehind⟩ := hexp.exists_endsAt
    have hhere : Expands w off ls (pointerTarget hi lo :: ps) := .pointer h0 hge h1 hexp
    rw [List.length_cons] at hsteps
    -- an offset that was visited has more pointers to come than the target has
    have hnew : pointerTarget hi lo ∉ visited := by
      intro hmem
      obtain ⟨ls', ps', hexp', hle⟩ := hvisited _ hmem
      obtain ⟨-, rfl⟩ := hexp.unique hexp'
      rw [List.length_cons] at hle
      omega
    have hself : pointerTarget hi lo ≠ off := by
      intro heq
      exact hhere.not_cons (heq ▸ hexp)
    have hlt := hexp.lt_length
    have hvisited' : ∀ v ∈ pointerTarget hi lo :: visited,
        ∃ ls' ps', Expands w v ls' ps' ∧ ps.length ≤ ps'.length := by
      intro v hv
      rcases List.mem_cons.mp hv with rfl | hv
      · exact ⟨ls, ps, hexp, Nat.le_refl _⟩
      · obtain ⟨ls', ps', hexp', hle⟩ := hvisited v hv
        rw [List.length_cons] at hle
        exact ⟨ls', ps', hexp', by omega⟩
    have hrest := ih hbehind hascii (by omega : ls.length + ps.length < n) hvisited' labels
      (endOffset <|> some (off + 2))
    cases hstop with
    | root h2 => rw [h0] at h2; cases h2; exact absurd hge (by decide)
    | label h2 _ hle => rw [h0] at h2; cases h2; omega
    | pointer =>
      rw [decodeNameLoop, h0]
      dsimp only
      rw [if_pos (hpointer.mpr hge), h1]
      dsimp only
      rw [if_neg (by omega), if_neg (by simp [hnew, hself]), hrest, getD_orElse]

/-- **What `_decode_name` returns.** -/
theorem decodeName_eq_ok_iff {off stop : Nat} {text : String} :
    decodeName w off = .ok (text, stop) ↔
      ∃ ls ps, Decodes w off ls ps stop ∧ text = labelsText ls := by
  unfold decodeName
  constructor
  · intro h
    obtain ⟨ls, ps, e, hexp, hsteps, hascii, hends, htext, rfl⟩ := decodeNameLoop_sound h
    exact ⟨ls, ps, ⟨hexp, hsteps, hascii, hends⟩, htext⟩
  · rintro ⟨ls, ps, h, rfl⟩
    exact decodeNameLoop_complete h.expands h.endsAt h.ascii h.steps (by simp) [] none

/-! ### The question -/

/-- The proxy reads the name of the only question. -/
structure ReadsQuestion (w : Octets) (ls : List Label) (ps : List Nat) : Prop where
  qdcount : ∃ h, readHeader w = some h ∧ h.qdcount = 1
  decodes : ∃ stop, Decodes w 12 ls ps stop ∧ stop + 4 ≤ w.length

theorem questionEnd_eq_ok_iff {text : String} {e : Nat} :
    questionEnd w = .ok (text, e) ↔ ∃ ls ps stop, (∃ h, readHeader w = some h ∧ h.qdcount = 1) ∧
      Decodes w 12 ls ps stop ∧ stop + 4 ≤ w.length ∧ text = labelsText ls ∧ e = stop + 4 := by
  unfold questionEnd
  constructor
  · intro h
    split at h
    · cases h
    · rename_i hdr hhdr
      split_ifs at h with hcount
      cases hname : decodeName w 12 with
      | error e =>
        rw [hname] at h
        cases h
      | ok r =>
        obtain ⟨t, stop⟩ := r
        rw [hname] at h
        -- the four octets behind the name are its type and its class
        change (if w.length < stop + 4 then _ else _) = _ at h
        split_ifs at h with hlen
        cases h
        obtain ⟨ls, ps, hdec, rfl⟩ := decodeName_eq_ok_iff.mp hname
        exact ⟨ls, ps, stop, ⟨hdr, hhdr, not_not.mp hcount⟩, hdec, by omega, rfl, rfl⟩
  · rintro ⟨ls, ps, stop, ⟨hdr, hhdr, hcount⟩, hdec, hlen, rfl, rfl⟩
    rw [hhdr]
    dsimp only
    rw [if_neg (not_not_intro hcount), decodeName_eq_ok_iff.mpr ⟨ls, ps, hdec, rfl⟩]
    show (if w.length < stop + 4 then _ else _) = _
    rw [if_neg (by omega)]
    rfl

theorem parseQuestionName_eq_ok_iff {text : String} :
    parseQuestionName w = .ok text ↔ ∃ ls ps, ReadsQuestion w ls ps ∧ text = labelsText ls := by
  have hmap : parseQuestionName w = .ok text ↔ ∃ e, questionEnd w = .ok (text, e) := by
    unfold parseQuestionName
    cases questionEnd w with
    | error e => exact iff_of_false (fun h => by cases h) fun ⟨_, h⟩ => by cases h
    | ok r =>
      obtain ⟨t, e⟩ := r
      constructor
      · intro h
        cases h
        exact ⟨e, rfl⟩
      · rintro ⟨_, h⟩
        cases h
        rfl
  rw [hmap]
  constructor
  · rintro ⟨e, h⟩
    obtain ⟨ls, ps, stop, hcount, hdec, hlen, htext, -⟩ := questionEnd_eq_ok_iff.mp h
    exact ⟨ls, ps, ⟨hcount, stop, hdec, hlen⟩, htext⟩
  · rintro ⟨ls, ps, ⟨hcount, stop, hdec, hlen⟩, htext⟩
    exact ⟨stop + 4, questionEnd_eq_ok_iff.mpr ⟨ls, ps, stop, hcount, hdec, hlen, htext, rfl⟩⟩

theorem ReadsQuestion.unique {ls ls' : List Label} {ps ps' : List Nat} (h : ReadsQuestion w ls ps)
    (h' : ReadsQuestion w ls' ps') : ls = ls' ∧ ps = ps' := by
  obtain ⟨_, hdec, -⟩ := h.decodes
  obtain ⟨_, hdec', -⟩ := h'.decodes
  exact hdec.expands.unique hdec'.expands

end

/-! ### Scenarios in the text -/

/-- The labels of the owner of a scenario. -/
def transportOwner (s : Scenario) : List Label :=
  [textOctets s.value, textOctets "transport", textOctets "example", textOctets "test"]

/-- The labels spell the owner of the scenario when each is followed by a dot, up to dots at the
end. -/
def Spells (ls : List Label) (s : Scenario) : Prop :=
  ∃ k, dotted (foldCase ls) = dotted (transportOwner s) ++ List.replicate k 46

theorem lower_dotted (ls : List Label) : lower (dotted ls) = dotted (foldCase ls) := by
  induction ls with
  | nil => rfl
  | cons l ls ih =>
    have hdot : lowerOctet 46 = 46 := by decide
    rw [dotted_cons, foldCase_cons, dotted_cons, ← ih, lower, List.map_append, List.map_cons, hdot]
    rfl

theorem isAsciiText_replicate (k : Nat) : IsAsciiText (String.ofList (List.replicate k '.')) := by
  intro c hc
  rw [String.toList_ofList, List.mem_replicate] at hc
  rw [hc.2]
  decide

theorem textOctets_replicate (k : Nat) :
    textOctets (String.ofList (List.replicate k '.')) = List.replicate k 46 := by
  rw [textOctets, String.toList_ofList, List.map_replicate]
  rfl

/-- Labels joined with dots. -/
theorem intercalate_octetsText {ls : List Label} (hls : ls ≠ [])
    (hascii : ∀ l ∈ ls, ∀ b ∈ l, b.toNat < 128) :
    IsAsciiText (".".intercalate (ls.map octetsText)) ∧
      textOctets (".".intercalate (ls.map octetsText)) ++ [46] = dotted ls := by
  induction ls with
  | nil => exact absurd rfl hls
  | cons l ls ih =>
    have hl := isAsciiText_octetsText (hascii l List.mem_cons_self)
    by_cases hnil : ls = []
    · subst hnil
      rw [List.map_cons, List.map_nil, String.intercalate_singleton, textOctets_octetsText]
      exact ⟨hl, by simp⟩
    · obtain ⟨hrest, hdots⟩ := ih hnil fun l hl => hascii l (List.mem_cons_of_mem _ hl)
      have hne : ls.map octetsText ≠ [] := by simpa using hnil
      have hdot : textOctets "." = [46] := rfl
      rw [List.map_cons, String.intercalate_cons_of_ne_nil hne]
      refine ⟨isAsciiText_append.mpr ⟨isAsciiText_append.mpr ⟨hl, by decide⟩, hrest⟩, ?_⟩
      rw [textOctets_append, textOctets_append, List.append_assoc, hdots, textOctets_octetsText,
        hdot, dotted_cons, List.append_assoc]
      rfl

/-- The text of labels in octets. -/
theorem textOctets_labelsText {ls : List Label} (hls : ls ≠ [])
    (hascii : ∀ l ∈ ls, ∀ b ∈ l, b.toNat < 128) :
    IsAsciiText (labelsText ls) ∧ textOctets (labelsText ls) ++ [46] = dotted (foldCase ls) := by
  have hne : ls.map octetsText ≠ [] := by simpa using hls
  obtain ⟨htext, hdots⟩ := intercalate_octetsText hls hascii
  unfold labelsText joined
  rw [if_neg hne]
  refine ⟨isAsciiText_lowerText htext, ?_⟩
  rw [textOctets_lowerText htext, ← lower_dotted, ← hdots, lower, lower, List.map_append]
  rfl

/-! ### The selection of a scenario -/

theorem exists_rstripDots (cs : List Char) :
    ∃ k, cs = rstripDots cs ++ List.replicate k '.' := by
  have hdots : cs.reverse.takeWhile (· = '.')
      = List.replicate (cs.reverse.takeWhile (· = '.')).length '.' := by
    rw [List.eq_replicate_iff]
    have hall := List.all_takeWhile (p := fun c => decide (c = '.')) (l := cs.reverse)
    exact ⟨rfl, fun c hc => by simpa using List.all_eq_true.mp hall c hc⟩
  refine ⟨(cs.reverse.takeWhile (· = '.')).length, ?_⟩
  calc cs = (cs.reverse.takeWhile (· = '.') ++ cs.reverse.dropWhile (· = '.')).reverse := by
        rw [List.takeWhile_append_dropWhile, List.reverse_reverse]
    _ = _ := by
      rw [List.reverse_append, rstripDots]
      conv_lhs => rw [hdots, List.reverse_replicate]

theorem rstripDots_append_replicate {cs : List Char} {c : Char} (hc : c ≠ '.') (k : Nat) :
    rstripDots (cs ++ [c] ++ List.replicate k '.') = cs ++ [c] := by
  have hall : ∀ x ∈ List.replicate k '.', decide (x = '.') = true := by
    intro x hx
    rw [List.eq_of_mem_replicate hx]
    rfl
  rw [rstripDots, List.reverse_append, List.reverse_replicate, List.dropWhile_append_of_pos hall,
    List.reverse_append]
  simp [hc]

theorem value_byLabel (s : Scenario) : Scenario.byLabel s.value = some s := by
  cases s <;> decide

theorem value_of_byLabel {label : String} {s : Scenario} (h : Scenario.byLabel label = some s) :
    s.value = label := by
  simpa [Scenario.byLabel] using List.find?_some h

/-- The text behind the label of a scenario. -/
def TRANSPORT_SUFFIX : String := ".transport.example.test"

/-- **Which texts select a scenario.** -/
theorem scenarioFor_eq_iff {qname : String} {s : Scenario} (hs : s ≠ .normal) :
    scenarioFor qname = s ↔ ∃ k, (lowerText qname).toList
      = (s.value ++ TRANSPORT_SUFFIX).toList ++ List.replicate k '.' := by
  constructor
  · intro h
    unfold scenarioFor at h
    split at h
    · rename_i label l1 l2 l3 hsplit
      split_ifs at h with hsuffix
      · have hby : Scenario.byLabel (String.ofList label) = some s := by
          cases hlabel : Scenario.byLabel (String.ofList label) with
          | none =>
            rw [hlabel] at h
            exact absurd h.symm hs
          | some s' =>
            rw [hlabel] at h
            exact congrArg some h
        have hvalue := value_of_byLabel hby
        -- the labels come back from joining them, and the dots were taken from the end
        have hjoin := @List.intercalate_splitOn _ (rstripDots (lowerText qname).toList) _ _ '.'
        obtain ⟨k, hk⟩ := exists_rstripDots (lowerText qname).toList
        refine ⟨k, ?_⟩
        rw [hsplit, (List.cons.inj hsuffix).1, (List.cons.inj (List.cons.inj hsuffix).2).1,
          (List.cons.inj (List.cons.inj (List.cons.inj hsuffix).2).2).1] at hjoin
        rw [hk, ← hjoin, hvalue]
        simp [TRANSPORT_SUFFIX]
      · exact absurd h.symm hs
    · exact absurd h.symm hs
  · rintro ⟨k, hk⟩
    have hnodot : '.' ∉ s.value.toList := by cases s <;> decide
    have hstrip : rstripDots (lowerText qname).toList = (s.value ++ TRANSPORT_SUFFIX).toList := by
      have hlast : (s.value ++ TRANSPORT_SUFFIX).toList
          = (s.value ++ ".transport.example.tes").toList ++ ['t'] := by
        rw [String.toList_append, String.toList_append, List.append_assoc]
        rfl
      rw [hk, hlast]
      exact rstripDots_append_replicate (by decide) k
    -- no label has a dot in it
    have hsplit : (s.value ++ TRANSPORT_SUFFIX).toList.splitOn '.'
        = [s.value.toList, "transport".toList, "example".toList, "test".toList] := by
      have hjoined : (s.value ++ TRANSPORT_SUFFIX).toList
          = ['.'].intercalate [s.value.toList, "transport".toList, "example".toList, "test".toList] := by
        simp [TRANSPORT_SUFFIX]
      rw [hjoined]
      refine List.splitOn_intercalate '.' (fun l hl => ?_) (List.cons_ne_nil _ _)
      rcases List.mem_cons.mp hl with rfl | hl
      · exact hnodot
      · exact (by decide : ∀ l ∈ ["transport".toList, "example".toList, "test".toList], '.' ∉ l) l hl
    rw [scenarioFor, hstrip, hsplit]
    dsimp only
    rw [if_pos rfl, String.ofList_toList, value_byLabel]
    rfl

theorem isAsciiText_value (s : Scenario) : IsAsciiText (s.value ++ TRANSPORT_SUFFIX) := by
  refine isAsciiText_append.mpr ⟨?_, by decide⟩
  cases s <;> decide

theorem textOctets_value (s : Scenario) :
    textOctets (s.value ++ TRANSPORT_SUFFIX) ++ [46] = dotted (transportOwner s) := by
  rw [textOctets_append, transportOwner, dotted_cons, List.append_assoc]
  have h : textOctets TRANSPORT_SUFFIX ++ [46]
      = 46 :: dotted [textOctets "transport", textOctets "example", textOctets "test"] := by decide
  rw [h]

theorem toList_inj_of_ascii {s t : String} (hs : IsAsciiText s) (ht : IsAsciiText t) :
    s.toList = t.toList ↔ textOctets s = textOctets t := by
  constructor
  · intro h
    rw [textOctets, textOctets, h]
  · intro h
    rw [textOctets_injective hs ht h]

/-- **Which labels select a scenario**: those that spell its owner. -/
theorem scenarioFor_labelsText_iff {ls : List Label} (hascii : ∀ l ∈ ls, ∀ b ∈ l, b.toNat < 128)
    {s : Scenario} (hs : s ≠ .normal) : scenarioFor (labelsText ls) = s ↔ Spells ls s := by
  have howner : dotted (transportOwner s) ≠ [] := by
    rw [← textOctets_value]
    simp
  by_cases hls : ls = []
  · subst hls
    have hroot : scenarioFor (labelsText []) = .normal := by decide
    rw [hroot]
    refine iff_of_false (Ne.symm hs) ?_
    rintro ⟨k, hk⟩
    exact howner (List.append_eq_nil_iff.mp hk.symm).1
  · obtain ⟨htext, hoctets⟩ := textOctets_labelsText hls hascii
    rw [scenarioFor_eq_iff hs]
    refine exists_congr fun k => ?_
    have hdots := isAsciiText_replicate k
    have hvalue := isAsciiText_value s
    have hchars : (s.value ++ TRANSPORT_SUFFIX).toList ++ List.replicate k '.'
        = (s.value ++ TRANSPORT_SUFFIX ++ String.ofList (List.replicate k '.')).toList := by
      rw [String.toList_append (s := s.value ++ TRANSPORT_SUFFIX), String.toList_ofList]
    have hlower : textOctets (lowerText (labelsText ls)) ++ [46] = dotted (foldCase ls) := by
      rw [textOctets_lowerText htext, ← foldCase_foldCase, ← lower_dotted, ← hoctets, lower, lower,
        List.map_append]
      rfl
    -- one more dot on both sides
    have hcommute : List.replicate k (46 : UInt8) ++ [46] = [46] ++ List.replicate k 46 := by
      rw [← List.replicate_succ', List.replicate_succ]
      rfl
    rw [hchars, toList_inj_of_ascii (isAsciiText_lowerText htext)
      (isAsciiText_append.mpr ⟨hvalue, hdots⟩), textOctets_append, textOctets_replicate,
      ← List.append_cancel_right_eq (textOctets _) [46], hlower, List.append_assoc,
      hcommute, ← List.append_assoc, textOctets_value]

/-! ### Labels without dots -/

theorem dotted_append (a b : List Label) : dotted (a ++ b) = dotted a ++ dotted b :=
  List.flatMap_append

theorem dotted_replicate_nil (k : Nat) : dotted (List.replicate k []) = List.replicate k 46 := by
  induction k with
  | zero => rfl
  | succ k ih =>
    rw [List.replicate_succ, dotted_cons, ih, List.replicate_succ]
    rfl

/-- Labels without dots can be told apart in dotted octets. -/
theorem dotted_injective {ls ls' : List Label} (hls : ∀ l ∈ ls, (46 : UInt8) ∉ l)
    (hls' : ∀ l ∈ ls', (46 : UInt8) ∉ l) (h : dotted ls = dotted ls') : ls = ls' := by
  induction ls generalizing ls' with
  | nil =>
    cases ls' with
    | nil => rfl
    | cons l' ls' => simp at h
  | cons l ls ih =>
    cases ls' with
    | nil => simp at h
    | cons l' ls' =>
      rw [dotted_cons, dotted_cons] at h
      have hl := hls l List.mem_cons_self
      have hl' := hls' l' List.mem_cons_self
      have hsplit := congrArg (List.takeWhile fun b => decide (b ≠ 46)) h
      have htake : ∀ {l : Label} (rest : Octets), (46 : UInt8) ∉ l →
          (l ++ 46 :: rest).takeWhile (fun b => decide (b ≠ 46)) = l := by
        intro l rest hl
        rw [List.takeWhile_append_of_pos fun b hb => by
          simpa using fun heq : b = 46 => hl (heq ▸ hb)]
        simp
      rw [htake _ hl, htake _ hl'] at hsplit
      subst hsplit
      obtain ⟨-, hrest⟩ := List.append_inj h rfl
      rw [ih (fun x hx => hls x (List.mem_cons_of_mem _ hx))
        (fun x hx => hls' x (List.mem_cons_of_mem _ hx)) (List.cons.inj hrest).2]

theorem not_mem_lower_iff (l : Label) : (46 : UInt8) ∉ lower l ↔ (46 : UInt8) ∉ l := by
  have hdot : ∀ b : UInt8, lowerOctet b = 46 ↔ b = 46 :=
    forall_octet (p := fun b => lowerOctet b = 46 ↔ b = 46) (by decide +kernel)
  rw [lower, List.mem_map, not_iff_not]
  constructor
  · rintro ⟨b, hb, h⟩
    rwa [← (hdot b).mp h]
  · exact fun h => ⟨46, h, (hdot 46).mpr rfl⟩

theorem not_mem_transportOwner (s : Scenario) : ∀ l ∈ transportOwner s, (46 : UInt8) ∉ l := by
  cases s <;> decide

/-- **Labels without dots** that spell the owner of a scenario are its labels. -/
theorem eq_transportOwner_of_dotted {ls : List Label} (hne : ∀ l ∈ ls, l ≠ [])
    (hdots : ∀ l ∈ ls, (46 : UInt8) ∉ l) {s : Scenario} (h : Spells ls s) :
    foldCase ls = transportOwner s := by
  obtain ⟨k, hk⟩ := h
  rw [← dotted_replicate_nil, ← dotted_append] at hk
  have hfold : ∀ l ∈ foldCase ls, (46 : UInt8) ∉ l := by
    intro l hl
    obtain ⟨l', hl', rfl⟩ := List.mem_map.mp hl
    exact (not_mem_lower_iff l').mpr (hdots l' hl')
  have howner : ∀ l ∈ transportOwner s ++ List.replicate k [], (46 : UInt8) ∉ l := by
    intro l hl
    rcases List.mem_append.mp hl with hl | hl
    · exact not_mem_transportOwner s l hl
    · rw [List.eq_of_mem_replicate hl]
      exact List.not_mem_nil
  have heq := dotted_injective hfold howner hk
  -- an empty label at the end is none of the name
  cases k with
  | zero => rw [heq, List.replicate_zero, List.append_nil]
  | succ k =>
    have hmem : [] ∈ foldCase ls := by
      rw [heq]
      exact List.mem_append_right _ (List.mem_replicate.mpr ⟨Nat.succ_ne_zero k, rfl⟩)
    obtain ⟨l, hl, hnil⟩ := List.mem_map.mp hmem
    exact absurd (List.map_eq_nil_iff.mp hnil) (hne l hl)

theorem spells_of_eq {ls : List Label} {s : Scenario} (h : foldCase ls = transportOwner s) :
    Spells ls s := ⟨0, by rw [h, List.replicate_zero, List.append_nil]⟩

/-- The text up to the first dot is the label of the scenario. -/
theorem Spells.unique {ls : List Label} {s s' : Scenario} (h : Spells ls s) (h' : Spells ls s') :
    s = s' := by
  obtain ⟨k, hk⟩ := h
  obtain ⟨k', hk'⟩ := h'
  have hlabel : ∀ (s : Scenario) (k : Nat), Scenario.byLabel (octetsText
      ((dotted (transportOwner s) ++ List.replicate k 46).takeWhile (· ≠ 46))) = some s := by
    intro s k
    have htake : (dotted (transportOwner s) ++ List.replicate k 46).takeWhile (· ≠ 46)
        = textOctets s.value := by
      cases s <;> rfl
    rw [htake]
    cases s <;> decide
  have hsame := hlabel s k
  rw [← hk, hk', hlabel] at hsame
  exact (Option.some.inj hsame).symm

end DnsFixtures
