import DnsFixtures.Equiv.QuestionName
import DnsFixtures.Equiv.Frames
import DnsFixtures.Equiv.Names
import DnsFixtures.Reference

/-!
# Which queries select a fault

`queryScenario_iff` and `scenario_iff` say in terms of the labels of the question what the two
selectors select.  The fresh one compares labels; the legacy one compares their text, where a dot
inside a label counts as one between labels.  `selectsExactly_iff`: otherwise a fault is selected by
its exact owner only.
-/

namespace DnsFixtures

open Dns

/-! ### The legacy selector -/

/-- The message is a QUERY whose only question spells the owner of a scenario. -/
structure AsksScenario (w : Octets) (ls : List Label) (s : Scenario) : Prop where
  opcode : ∃ h, readHeader w = some h ∧ ¬ hasFlag h.flags Flag.opcodeMask
  question : ∃ ps, ReadsQuestion w ls ps
  spells : Spells ls s

theorem ReadsQuestion.ascii {w : Octets} {ls : List Label} {ps : List Nat}
    (h : ReadsQuestion w ls ps) : ∀ l ∈ ls, ∀ b ∈ l, b.toNat < 128 := by
  obtain ⟨_, hdec, -⟩ := h.decodes
  exact hdec.ascii

theorem map_eq_ok_iff {α β : Type} {f : α → β} {x : Except Raised α} {b : β} :
    f <$> x = .ok b ↔ ∃ a, x = .ok a ∧ f a = b := by
  cases x with
  | error e => exact iff_of_false (fun h => by cases h) fun ⟨_, h, _⟩ => by cases h
  | ok a =>
    constructor
    · intro h
      exact ⟨a, rfl, Except.ok.inj h⟩
    · rintro ⟨_, h, rfl⟩
      cases h
      rfl

/-- **What the legacy selector selects.** -/
theorem queryScenario_iff {w : Octets} {s : Scenario} (hs : s ≠ .normal) :
    queryScenario w = .ok s ↔ ∃ ls, AsksScenario w ls s := by
  have hparse : scenarioFor <$> parseQuestionName w = .ok s ↔
      ∃ ls ps, ReadsQuestion w ls ps ∧ Spells ls s := by
    rw [map_eq_ok_iff]
    constructor
    · rintro ⟨text, htext, hscenario⟩
      obtain ⟨ls, ps, hread, rfl⟩ := parseQuestionName_eq_ok_iff.mp htext
      exact ⟨ls, ps, hread, (scenarioFor_labelsText_iff hread.ascii hs).mp hscenario⟩
    · rintro ⟨ls, ps, hread, hspells⟩
      exact ⟨_, parseQuestionName_eq_ok_iff.mpr ⟨ls, ps, hread, rfl⟩,
        (scenarioFor_labelsText_iff hread.ascii hs).mpr hspells⟩
  unfold queryScenario
  cases hh : readHeader w with
  | none =>
    dsimp only
    rw [hparse]
    constructor
    · rintro ⟨ls, ps, hread, -⟩
      obtain ⟨h, hh', -⟩ := hread.qdcount
      rw [hh] at hh'
      cases hh'
    · rintro ⟨ls, ⟨h, hh', -⟩, -⟩
      rw [hh] at hh'
      cases hh'
  | some h =>
    dsimp only
    split_ifs with hbypass
    · constructor
      · intro hnormal
        exact absurd (Except.ok.inj hnormal).symm hs
      · rintro ⟨ls, ⟨h', hh', hop⟩, ⟨ps, hread⟩, -⟩
        rw [hh] at hh'
        cases hh'
        obtain ⟨h', hh', hcount⟩ := hread.qdcount
        rw [hh] at hh'
        cases hh'
        refine absurd hbypass (not_or.mpr ⟨hop, ?_⟩)
        rw [hcount]
        decide
    · rw [hparse]
      rw [not_or] at hbypass
      constructor
      · rintro ⟨ls, ps, hread, hspells⟩
        exact ⟨ls, ⟨h, hh, hbypass.1⟩, ⟨ps, hread⟩, hspells⟩
      · rintro ⟨ls, -, ⟨ps, hread⟩, hspells⟩
        exact ⟨ls, ps, hread, hspells⟩

theorem AsksScenario.queryScenario {w : Octets} {ls : List Label} {s : Scenario}
    (h : AsksScenario w ls s) : queryScenario w = .ok s := by
  by_cases hs : s = .normal
  · subst hs
    obtain ⟨hdr, hh, hop⟩ := h.opcode
    obtain ⟨ps, hread⟩ := h.question
    obtain ⟨hdr', hh', hcount⟩ := hread.qdcount
    rw [hh] at hh'
    cases hh'
    have hbypass : ¬ (hasFlag hdr.flags Flag.opcodeMask ∨ hdr.qdcount = 0) := by
      rw [hcount]
      exact not_or.mpr ⟨hop, by decide⟩
    have htext := parseQuestionName_eq_ok_iff.mpr ⟨ls, ps, hread, rfl⟩
    unfold DnsFixtures.queryScenario
    rw [hh]
    dsimp only
    rw [if_neg hbypass, htext]
    show Except.ok _ = _
    rw [Except.ok.injEq]
    -- another scenario would be spelled by the same labels
    by_contra hother
    have hspells := (scenarioFor_labelsText_iff hread.ascii hother).mp rfl
    exact hother (Spells.unique hspells h.spells)
  · exact (queryScenario_iff hs).mpr ⟨ls, h⟩

/-! ### The fresh selector -/

/-- The only question of a QUERY asks in class IN for the name of one label in front of a nonce. -/
def SelectsKey (d : Dnspython) (w : Octets) (key : String) : Prop :=
  ∃ query z label n kind, d.messageFromWire w = .ok query ∧ opcodeOf query.flags = 0 ∧
    query.question = [⟨n, kind, RRClass.IN⟩] ∧ InZone z n [label] ∧ keyOf [label] = some key

theorem InZone.length_labels {z : Nonce} {n : Name} {front : List Label} (hz : InZone z n front) :
    n.labels.length = front.length + 4 := by
  obtain ⟨_, _, _, _, hlabels, -, -⟩ := hz.labels_eq
  rw [hlabels, List.length_append]
  rfl

section

variable {d : Dnspython} (hd : d.Documented) {w : Octets}

theorem scenarioKey_of_parse {query : Message} (hparse : d.messageFromWire w = .ok query) :
    scenarioKey d w = .ok (match query.question.head?.bind fun q => nameKey q.name, query.question with
      | some (key, _), [question] =>
        if question.name.labels.length = 5 ∧ question.rdclass = RRClass.IN
            ∧ opcodeOf query.flags = 0 then key else "ordinary"
      | _, _ => "ordinary") := by
  have hkey : freshKey d w = .ok (query.question.head?.bind fun q => nameKey q.name) := by
    unfold freshKey
    rw [hparse]
    show (pure query >>= _) = _
    rw [pure_bind]
    cases query.question with
    | nil => rfl
    | cons q qs => rfl
  unfold scenarioKey
  rw [hparse]
  show (freshKey d w >>= _) = _
  rw [hkey]
  show (match query.question.head?.bind fun q => nameKey q.name, query.question with
    | some (key, _), [question] => _ | _, _ => _) = _
  split
  · split_ifs
    · rfl
    · rfl
  · rfl

omit hd in
theorem selectsKey_iff_of_parse {query : Message} (hparse : d.messageFromWire w = .ok query)
    {key : String} : SelectsKey d w key ↔ ∃ q nonce, query.question = [q] ∧
      nameKey q.name = some (key, nonce) ∧ q.name.labels.length = 5 ∧ q.rdclass = RRClass.IN ∧
      opcodeOf query.flags = 0 := by
  constructor
  · rintro ⟨query', z, label, n, kind, hparse', hop, hq, hz, hkey⟩
    rw [hparse] at hparse'
    cases hparse'
    refine ⟨_, octetsText z.label, hq, ?_, hz.length_labels, rfl, hop⟩
    rw [nameKey_of_inZone hz, hkey]
    rfl
  · rintro ⟨⟨n, kind, rdclass⟩, nonce, hq, hname, hlen, hclass, hop⟩
    obtain ⟨z, front, hz, hkey, -⟩ := nameKey_eq_some_iff.mp hname
    have hfront : front.length = 1 := by
      have := hz.length_labels
      omega
    obtain ⟨label, rfl⟩ := List.length_eq_one_iff.mp hfront
    dsimp only at hclass
    subst hclass
    exact ⟨query, z, label, n, kind, hparse, hop, hq, hz, hkey⟩

omit hd in
theorem SelectsKey.scenario {key : String} (h : SelectsKey d w key) : scenario d w = .ok key := by
  obtain ⟨query, _, _, _, _, hparse, -⟩ := id h
  obtain ⟨⟨n, kind, rdclass⟩, nonce, hq, hname, hlen, hclass, hop⟩ :=
    (selectsKey_iff_of_parse hparse).mp h
  have hrun : scenarioKey d w = .ok key := by
    rw [scenarioKey_of_parse hparse, hq, List.head?_cons, Option.bind_some, hname]
    dsimp only
    rw [if_pos ⟨hlen, hclass, hop⟩]
  unfold DnsFixtures.scenario
  rw [hrun]
  rfl

include hd

theorem scenario_of_not_selectsKey (h : ∀ key, ¬ SelectsKey d w key) :
    scenario d w = .ok "ordinary" := by
  unfold scenario
  cases hparse : d.messageFromWire w with
  | error e =>
    have hrun : scenarioKey d w = .error e := by
      unfold scenarioKey
      rw [hparse]
      rfl
    rw [hrun]
    dsimp only
    rw [if_pos (hd.messageFromWire_raises _ _ hparse)]
    rfl
  | ok query =>
    rw [scenarioKey_of_parse hparse]
    show Except.ok _ = Except.ok _
    rw [Except.ok.injEq]
    split
    · rename_i found nonce q hname hq
      rw [hq] at hname
      refine if_neg fun hexact => h found ?_
      exact (selectsKey_iff_of_parse hparse).mpr ⟨q, nonce, hq, hname, hexact⟩
    · rfl

/-- **What the fresh selector selects**: the key of an exact name, and `ordinary` otherwise. -/
theorem scenario_iff {key : String} : scenario d w = .ok key ↔
    SelectsKey d w key ∨ (key = "ordinary" ∧ ∀ key', ¬ SelectsKey d w key') := by
  constructor
  · intro hrun
    by_cases h : ∃ key', SelectsKey d w key'
    · obtain ⟨key', hselect⟩ := h
      rw [hselect.scenario] at hrun
      exact Or.inl (Except.ok.inj hrun ▸ hselect)
    · rw [not_exists] at h
      rw [scenario_of_not_selectsKey hd h] at hrun
      exact Or.inr ⟨(Except.ok.inj hrun).symm, h⟩
  · rintro (hselect | ⟨rfl, h⟩)
    · exact hselect.scenario
    · exact scenario_of_not_selectsKey hd h

theorem scenario_total (w : Octets) : ∃ key, scenario d w = .ok key := by
  by_cases h : ∃ key, SelectsKey d w key
  · obtain ⟨key, hkey⟩ := h
    exact ⟨key, (scenario_iff hd).mpr (Or.inl hkey)⟩
  · exact ⟨"ordinary", (scenario_iff hd).mpr (Or.inr ⟨rfl, fun key hkey => h ⟨key, hkey⟩⟩)⟩

end

/-! ### Exact owners -/

/-- The keys that change what is written on the connection. -/
def faultKeys : List String :=
  batchKeys ++ ["close-before", "stall", "close-prefix", "close-body", "length-mismatch",
    "mismatch-id", "mismatch-question", "duplicate", "trailing", "split-prefix", "split-body",
    "bytewise"]

/-- The only question of a QUERY asks in class IN for the name with these labels. -/
structure AsksLabels (d : Dnspython) (w : Octets) (ls : List Label) : Prop where
  query : ∃ query n kind, d.messageFromWire w = .ok query ∧ opcodeOf query.flags = 0 ∧
    query.question = [⟨n, kind, RRClass.IN⟩] ∧ n.labels = ls
  wire : ∃ ps, Expands w 12 ls ps

/-- Both selectors select a fault by the labels of its owner only. -/
structure SelectsExactly (d : Dnspython) (w : Octets) : Prop where
  legacy : ∀ s, queryScenario w = .ok s → s ≠ .normal →
    ∃ ls ps, Expands w 12 ls ps ∧ foldCase ls = transportOwner s
  fresh : ∀ key, scenario d w = .ok key → key ∈ faultKeys → ∃ ls nonce, AsksLabels d w ls ∧
    isNonce nonce ∧ foldCase ls = [textOctets key, nonce] ++ SUFFIX

/-- The labels of a legacy scenario are spelled with a dot inside a label. -/
def SpellsWithDot (w : Octets) : Prop :=
  ∃ ls s, s ≠ .normal ∧ AsksScenario w ls s ∧ ∃ l ∈ ls, (46 : UInt8) ∈ l

theorem SelectsKey.asksLabels {d : Dnspython} (hd : d.Documented) {w : Octets} {key : String}
    (h : SelectsKey d w key) : ∃ ls nonce, AsksLabels d w ls ∧ isNonce nonce ∧
      foldCase ls = [textOctets key, nonce] ++ SUFFIX := by
  obtain ⟨query, z, label, n, kind, hparse, hop, hq, hz, hkey⟩ := h
  obtain ⟨_, stop, _, -, -, -, -, hquestions, -⟩ := hd.messageFromWire_header _ _ hparse
  rw [hq] at hquestions
  obtain ⟨suffix, hlabels, hsuffix⟩ := hz.labels
  refine ⟨n.labels, z.label, ⟨⟨query, n, kind, hparse, hop, hq, rfl⟩, ?_⟩, z.isNonce, ?_⟩
  · cases hquestions with
    | cons hname =>
      obtain ⟨ps, hexp, -⟩ := (hd.nameFromWire_iff w 12 n).mp ⟨_, hname⟩
      exact ⟨ps, hexp⟩
  · obtain ⟨-, htext⟩ := (@keyOf_concat_iff [] _ _).mp hkey
    rw [hlabels, foldCase_append, hsuffix, htext]
    rfl

/-- **Faults are selected by exact owner names only**, unless a label with a dot inside spells the
name of a legacy scenario. -/
theorem selectsExactly_iff {d : Dnspython} (hd : d.Documented) (w : Octets) :
    SelectsExactly d w ↔ ¬ SpellsWithDot w := by
  constructor
  · rintro hexact ⟨ls, s, hs, hasks, l, hl, hdot⟩
    obtain ⟨ls', ps', hexp, hfold⟩ :=
      hexact.legacy s ((queryScenario_iff hs).mpr ⟨ls, hasks⟩) hs
    obtain ⟨ps, hread⟩ := hasks.question
    obtain ⟨_, hdec, -⟩ := hread.decodes
    obtain ⟨rfl, -⟩ := hdec.expands.unique hexp
    have hmem : lower l ∈ transportOwner s := hfold ▸ List.mem_map_of_mem hl
    exact (not_mem_lower_iff l).mp (not_mem_transportOwner s _ hmem) hdot
  · intro hno
    refine ⟨fun s hrun hs => ?_, fun key hrun hkey => ?_⟩
    · obtain ⟨ls, hasks⟩ := (queryScenario_iff hs).mp hrun
      obtain ⟨ps, hread⟩ := hasks.question
      obtain ⟨_, hdec, -⟩ := hread.decodes
      refine ⟨ls, ps, hdec.expands, ?_⟩
      refine eq_transportOwner_of_dotted (fun l hl => (hdec.expands.label_bounds l hl).1)
        (fun l hl hdot => ?_) hasks.spells
      exact hno ⟨ls, s, hs, hasks, l, hl, hdot⟩
    · rcases (scenario_iff hd).mp hrun with hselect | ⟨rfl, -⟩
      · exact hselect.asksLabels hd
      · exact absurd hkey (by decide)

/-- At the owner of the key `close-body`. -/
theorem selectsExactly_iff_reference :
    SelectsExactly Reference.dnspython (Reference.askKey "close-body" RRType.A) ↔
      ¬ SpellsWithDot (Reference.askKey "close-body" RRType.A) :=
  selectsExactly_iff Reference.documented _

/-- The labels `stall.transport`, `example` and `test`. -/
def Reference.dottedLabels : List Label :=
  [textOctets "stall.transport", textOctets "example", textOctets "test"]

/-- Three labels select the scenario `stall`. -/
theorem not_selectsExactly_dotted : Reference.dnspython.Documented ∧
    queryScenario (Reference.ask Reference.dottedLabels RRType.A) = .ok .stall ∧
    ¬ SelectsExactly Reference.dnspython (Reference.ask Reference.dottedLabels RRType.A) := by
  have hrun : queryScenario (Reference.ask Reference.dottedLabels RRType.A) = .ok .stall := by
    decide +kernel
  have hlegal : LegalLabels Reference.dottedLabels := by decide
  have hholds : HoldsAt (Reference.ask Reference.dottedLabels RRType.A) 12
      (wireLabels Reference.dottedLabels) := by decide
  have hexp := expands_of_holdsAt hlegal.label_ne_nil hlegal.label_le hholds
  refine ⟨Reference.documented, hrun, fun hexact => ?_⟩
  obtain ⟨ls, ps, hexp', hfold⟩ := hexact.legacy _ hrun (by decide)
  obtain ⟨rfl, -⟩ := hexp.unique hexp'
  exact absurd hfold (by decide)

end DnsFixtures
