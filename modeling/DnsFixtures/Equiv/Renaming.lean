import DnsFixtures.Dns.Renaming
import DnsFixtures.Equiv.Aliases

/-!
# Two runs side by side

The resolver looks at the name in question only through its key and its depth, so two runs that agree
in these make the same response, place by place (`answer_rel`).  The relation between the names of
the two responses is a parameter: `r` relates the labels in front of the zones and `ends` the labels of
the zones (`Alongside`).  Three instances give `answer_laws`:

* another nonce in the place of the first one, everything else kept (`Renamed`);
* one run beside itself, which says what labels its names are made of (`KeepsScope`);
* one nonce and two spellings of a name.
-/

namespace DnsFixtures

open Dns

/-! ### Hosts of the catalogue -/

/-- The hosts of the part are shorter than a nonce. -/
def Part.short : Part → Bool
  | .name (.host h) => h.text.length < 32
  | .name (.ofOwner h) => h.text.length < 32
  | _ => true

def Template.short (t : Template) : Bool := t.data.all fun ps => ps.all Part.short

/-- No host of the catalogue could be taken for a nonce. -/
theorem short_fixture (key : String) : ∀ ts ∈ fixture key, ∀ t ∈ ts, t.short = true := by
  intro ts hts
  have hkeys : ∀ key ∈ fixtureKeys, ∀ ts ∈ fixture key, ∀ t ∈ ts, t.short = true := by
    decide +kernel
  exact hkeys key (mem_fixtureKeys hts) ts hts

theorem length_of_targetHost {ps : List Part} (hps : ps.all Part.short = true) {h : Host}
    (hh : targetHost ps = some h) : h.text.length < 32 := by
  induction ps with
  | nil => cases hh
  | cons p ps ih =>
    rw [List.all_cons, Bool.and_eq_true] at hps
    cases p with
    | octets bs => exact ih hps.2 hh
    | text kind s => exact ih hps.2 hh
    | strings count s => exact ih hps.2 hh
    | name n =>
      cases n with
      | root => cases hh
      | ofOwner g => cases hh
      | host g =>
        cases hh
        simpa [Part.short] using hps.1

theorem length_of_additionalHosts {t : Template} (ht : t.short = true) :
    ∀ h ∈ t.additionalHosts, h.text.length < 32 := by
  intro h hh
  unfold Template.additionalHosts at hh
  split_ifs at hh
  · obtain ⟨ps, hps, htarget⟩ := List.mem_filterMap.mp hh
    exact length_of_targetHost (List.all_eq_true.mp ht ps hps) htarget
  · cases hh

/-! ### Names side by side -/

/-- Two zones side by side: how labels in front of them are related, and the labels of the zones as
names spell them. -/
structure Alongside (r : Label → Label → Prop) (ends : List Label → List Label → Prop)
    (z z' : Nonce) : Prop where
  host : ∀ h : Host, h.text.length < 32 → r h.label h.label
  lower : ∀ a b, r a b → lower a = lower b
  labels : ends z.labels z'.labels
  zones : ∀ s s', ends s s' → foldCase s = z.labels ∧ foldCase s' = z'.labels

/-- The names `a` and `b` have `f` and `f'` in front of their zones. -/
structure Parallel (r : Label → Label → Prop) (ends : List Label → List Label → Prop)
    (a b : Name) (f f' : List Label) : Prop where
  front : List.Forall₂ r f f'
  suffix : ∃ s s', ends s s' ∧ a.labels = f ++ s ∧ b.labels = f' ++ s'

/-- The names stand in the same place of two responses. -/
inductive Twin (r : Label → Label → Prop) (ends : List Label → List Label → Prop) : Name → Name → Prop
  | root : Twin r ends Name.root Name.root
  | zone {a b : Name} {f f' : List Label} : Parallel r ends a b f f' → Twin r ends a b

section

variable {r : Label → Label → Prop} {ends : List Label → List Label → Prop} {z z' : Nonce}

namespace Alongside

variable (hw : Alongside r ends z z')
include hw

theorem zone : Parallel r ends z.zone z'.zone [] [] := ⟨.nil, _, _, hw.labels, rfl, rfl⟩

theorem atHost {h : Host} (hh : h.text.length < 32) :
    Parallel r ends (z.host h) (z'.host h) [h.label] [h.label] :=
  ⟨.cons (hw.host h hh) .nil, _, _, hw.labels, rfl, rfl⟩

theorem below {g h : Host} (hg : g.text.length < 32) (hh : h.text.length < 32) :
    Parallel r ends (z.below g h) (z'.below g h) [g.label, h.label] [g.label, h.label] :=
  ⟨.cons (hw.host g hg) (.cons (hw.host h hh) .nil), _, _, hw.labels, rfl, rfl⟩

end Alongside

namespace Parallel

variable {a b : Name} {f f' : List Label}

theorem length_eq (h : Parallel r ends a b f f') : f.length = f'.length := h.front.length_eq

section

variable (hw : Alongside r ends z z')
include hw

theorem foldCase_front (h : Parallel r ends a b f f') : foldCase f = foldCase f' := by
  obtain ⟨hfront, -⟩ := h
  induction hfront with
  | nil => rfl
  | cons hab _ ih => rw [foldCase_cons, foldCase_cons, hw.lower _ _ hab, ih]

theorem inZone_left (h : Parallel r ends a b f f') : InZone z a f := by
  obtain ⟨s, s', hs, ha, -⟩ := h.suffix
  exact ⟨s, ha, (hw.zones s s' hs).1⟩

theorem inZone_right (h : Parallel r ends a b f f') : InZone z' b f' := by
  obtain ⟨s, s', hs, -, hb⟩ := h.suffix
  exact ⟨s', hb, (hw.zones s s' hs).2⟩

/-- The keys are the same, whatever the spelling. -/
theorem keyOf_eq (h : Parallel r ends a b f f') : keyOf f = keyOf f' := by
  have hfold := h.foldCase_front hw
  -- the key is the label next to the zone
  rcases List.eq_nil_or_concat f with rfl | ⟨init, l, rfl⟩
  · rw [List.length_eq_zero_iff.mp (h.length_eq ▸ rfl : f'.length = 0)]
  · have hne : f' ≠ [] := by
      rintro rfl
      have := h.length_eq
      simp at this
    obtain ⟨init', l', rfl⟩ := exists_concat hne
    rw [List.concat_eq_append] at hfold ⊢
    rw [foldCase_append, foldCase_append] at hfold
    have hl : lower l = lower l' := by
      have := congrArg List.getLast? hfold
      simpa using this
    ext key
    rw [keyOf_concat_iff, keyOf_concat_iff, hl]

theorem nameLength_eq (h : Parallel r ends a b f f') : nameLength a.labels = nameLength b.labels := by
  obtain ⟨s, s', hs, ha, hb⟩ := h.suffix
  obtain ⟨hz, hz'⟩ := hw.zones s s' hs
  -- folding keeps lengths
  have hfront := nameLength_of_foldCase (h.foldCase_front hw)
  have hs1 := nameLength_of_foldCase (hz.trans z.foldCase_labels.symm)
  have hs2 := nameLength_of_foldCase (hz'.trans z'.foldCase_labels.symm)
  have h1 := nameLength_append f s
  have h2 := nameLength_append f' s'
  have hzone := z.nameLength_labels
  have hzone' := z'.nameLength_labels
  rw [ha, hb]
  omega

/-- A label in front of one name goes in front of the other. -/
theorem concatenate (h : Parallel r ends a b f f') {g : Host} (hg : g.text.length < 32) :
    (Name.concatenate [g.label] a = none ∧ Name.concatenate [g.label] b = none) ∨
      ∃ n n', Name.concatenate [g.label] a = some n ∧ Name.concatenate [g.label] b = some n' ∧
        Parallel r ends n n' (g.label :: f) (g.label :: f') := by
  have hlen := h.nameLength_eq hw
  have hlegal : ∀ n : Name, LegalLabels ([g.label] ++ n.labels) ↔
      g.label.length + 1 + nameLength n.labels ≤ 255 := by
    intro n
    rw [List.singleton_append, ← nameLength_cons]
    refine ⟨fun hl => hl.total_le, fun hle => ⟨fun x hx => ?_, fun x hx => ?_, hle⟩⟩
    · rcases List.mem_cons.mp hx with rfl | hx
      · exact (z.host g).legal.label_ne_nil _ List.mem_cons_self
      · exact n.legal.label_ne_nil x hx
    · rcases List.mem_cons.mp hx with rfl | hx
      · exact (z.host g).legal.label_le _ List.mem_cons_self
      · exact n.legal.label_le x hx
  -- both names have room for the label, or neither has
  by_cases hle : g.label.length + 1 + nameLength a.labels ≤ 255
  · have ha := (hlegal a).mpr hle
    have hb := (hlegal b).mpr (hlen ▸ hle)
    obtain ⟨s, s', hs, hla, hlb⟩ := h.suffix
    refine Or.inr ⟨⟨_, ha⟩, ⟨_, hb⟩, Name.ofLabels?_of_legal ha, Name.ofLabels?_of_legal hb,
      .cons (hw.host g hg) h.front, s, s', hs, ?_, ?_⟩
    · exact congrArg (g.label :: ·) hla
    · exact congrArg (g.label :: ·) hlb
  · have ha := mt (hlegal a).mp hle
    have hb := mt (hlegal b).mp (hlen ▸ hle)
    exact Or.inl ⟨dif_neg ha, dif_neg hb⟩

/-- The substituted names stand side by side. -/
theorem substituted {p p' : List Label} {l l' : Label}
    (h : Parallel r ends a b (p ++ [l]) (p' ++ [l'])) :
    (Zone.substituted z (p ++ [l]) = none ∧ Zone.substituted z' (p' ++ [l']) = none) ∨
      ∃ n n', Zone.substituted z (p ++ [l]) = some n ∧ Zone.substituted z' (p' ++ [l']) = some n' ∧
        Parallel r ends n n' (p ++ [targetTree.label]) (p' ++ [targetTree.label]) := by
  have hz := h.inZone_left hw
  have hz' := h.inZone_right hw
  have hlen := nameLength_substituted hz
  have hlen' := nameLength_substituted hz'
  have hname := h.nameLength_eq hw
  have hfront : List.Forall₂ r p p' := by
    have := List.forall₂_take p.length h.front
    have hl := h.length_eq
    simp only [List.length_append, List.length_singleton, Nat.add_right_cancel_iff] at hl
    rwa [List.take_left, hl, List.take_left] at this
  have hl : l.length = l'.length := by
    have := h.foldCase_front hw
    rw [foldCase_append, foldCase_append] at this
    have hlast : lower l = lower l' := by
      have := congrArg List.getLast? this
      simpa using this
    rw [← length_lower l, hlast, length_lower]
  cases hn : Zone.substituted z (p ++ [l]) with
  | none =>
    refine Or.inl ⟨rfl, Option.eq_none_iff_forall_ne_some.mpr fun n' hn' => ?_⟩
    obtain ⟨n, hn''⟩ := (exists_substituted_iff hz).mpr (by
      have := (exists_substituted_iff hz').mp ⟨n', hn'⟩
      omega)
    rw [hn] at hn''
    cases hn''
  | some n =>
    obtain ⟨n', hn'⟩ := (exists_substituted_iff hz').mpr (by
      have := (exists_substituted_iff hz).mp ⟨n, hn⟩
      omega)
    refine Or.inr ⟨n, n', rfl, hn', ?_, z.labels, z'.labels, hw.labels, ?_, ?_⟩
    · exact List.rel_append hfront (.cons (hw.host targetTree (by decide)) .nil)
    · rw [substituted_eq_some_iff.mp hn, List.append_assoc, List.singleton_append]
    · rw [substituted_eq_some_iff.mp hn', List.append_assoc, List.singleton_append]

end

end Parallel

/-! ### Templates side by side -/

variable (d : Dnspython) (hw : Alongside r ends z z')
include hw

theorem twin_fill {n : RelName} (hn : Part.short (.name n) = true) {a b : Name} {f f' : List Label}
    (h : Parallel r ends a b f f') : Twin r ends (n.fill z a) (n.fill z' b) := by
  cases n with
  | root => exact .root
  | host g => exact .zone (hw.atHost (by simpa [Part.short] using hn))
  | ofOwner g =>
    have hg : g.text.length < 32 := by simpa [Part.short] using hn
    unfold RelName.fill
    dsimp only
    rcases h.concatenate hw hg with ⟨ha, hb⟩ | ⟨n, n', ha, hb, hnn'⟩
    · rw [ha, hb]
      exact .zone h
    · rw [ha, hb]
      exact .zone hnn'

theorem rel_fill {t : Template} (ht : t.short = true) {a b : Name} {f f' : List Label}
    (h : Parallel r ends a b f f') : (t.fill d z a).Rel (Twin r ends) (t.fill d z' b) := by
  refine ⟨.zone h, rfl, rfl, rfl, ?_⟩
  rw [Template.fill, Template.fill, List.forall₂_map_left_iff, List.forall₂_map_right_iff,
    List.forall₂_same]
  intro ps hps
  rw [List.forall₂_map_left_iff, List.forall₂_map_right_iff, List.forall₂_same]
  intro p hp
  have hshort := List.all_eq_true.mp (List.all_eq_true.mp ht ps hps) p hp
  cases p with
  | octets bs => exact rfl
  | text kind s => exact rfl
  | strings count s => exact rfl
  | name n => exact twin_fill hw hshort h

end

/-! ### Nodes side by side -/

/-- The same template at owners that stand side by side. -/
structure PlacedAlike (r : Label → Label → Prop) (ends : List Label → List Label → Prop)
    (p p' : Placed) : Prop where
  owner : ∃ f f', Parallel r ends p.owner p'.owner f f'
  template : p.template = p'.template
  short : p.template.short = true

/-- Conclusions that differ in names only. -/
structure Conclusion.Rel (R : Name → Name → Prop) (c c' : Conclusion) : Prop where
  aa : c.aa = c'.aa
  rcode : c.rcode = c'.rcode
  answer : List.Forall₂ (RRset.Rel R) c.answer c'.answer
  authority : List.Forall₂ (RRset.Rel R) c.authority c'.authority
  additional : List.Forall₂ (RRset.Rel R) c.additional c'.additional

/-- Steps that differ in names only. -/
inductive StepAlike (r : Label → Label → Prop) (ends : List Label → List Label → Prop) :
    Step → Step → Prop
  | stop {c c' : Conclusion} : c.Rel (Twin r ends) c' → StepAlike r ends (.stop c) (.stop c')
  | follow {aliases aliases' : List RRset} {n n' : Name} {f f' : List Label} :
      List.Forall₂ (RRset.Rel (Twin r ends)) aliases aliases' → Parallel r ends n n' f f' →
      StepAlike r ends (.follow aliases n) (.follow aliases' n')

section

variable {r : Label → Label → Prop} {ends : List Label → List Label → Prop} {z z' : Nonce}
  (d : Dnspython) (kind : UInt16) (key : String) (hw : Alongside r ends z z')
include hw

theorem rel_rrset {p p' : Placed} (h : PlacedAlike r ends p p') :
    (Zone.rrset d z p).Rel (Twin r ends) (Zone.rrset d z' p') := by
  obtain ⟨f, f', howner⟩ := h.owner
  rw [Zone.rrset, Zone.rrset, ← h.template]
  exact rel_fill d hw h.short howner

theorem node_alike {a b : Name} {f f' : List Label} (h : Parallel r ends a b f f') (depth : Nat) :
    Option.Rel (List.Forall₂ (PlacedAlike r ends)) (Zone.node z a key depth)
      (Zone.node z' b key depth) := by
  unfold Zone.node
  split_ifs
  · have hsoa : Fixture.zoneSoa.short = true := by decide
    have hns : Fixture.ns.short = true := by decide
    exact .some (.cons ⟨⟨_, _, hw.zone⟩, rfl, hsoa⟩ (.cons ⟨⟨f, f', h⟩, rfl, hns⟩ .nil))
  · exact .none
  · cases hts : fixture key with
    | none => exact .none
    | some ts =>
      refine .some ?_
      rw [List.forall₂_map_left_iff, List.forall₂_map_right_iff, List.forall₂_same]
      exact fun t ht => ⟨⟨f, f', h⟩, rfl, short_fixture key ts hts t ht⟩

theorem rel_negativeSoa (depth : Nat) : (Zone.negativeSoa d z kind key depth).Rel (Twin r ends)
    (Zone.negativeSoa d z' kind key depth) := by
  have hzone : Fixture.zoneSoa.short = true := by decide
  have hns : Fixture.additionalNsSoa.short = true := by decide
  have hshort : ∀ h ∈ childApexes, h.text.length < 32 := by decide
  unfold Zone.negativeSoa
  cases hapex : Zone.apexOf kind key depth with
  | none => exact rel_fill d hw hzone hw.zone
  | some h =>
    have hmem : h ∈ childApexes := by
      obtain ⟨hin, -⟩ := Option.filter_eq_some_iff.mp hapex
      exact (hostIn_eq_some hin).1
    have hat := hw.atHost (hshort h hmem)
    dsimp only
    split_ifs
    · exact rel_fill d hw hns hat
    · exact rel_fill d hw hzone hat

theorem rel_addresses (h : Host) (hh : h.text.length < 32) :
    List.Forall₂ (RRset.Rel (Twin r ends)) (Zone.addresses d z h) (Zone.addresses d z' h) := by
  unfold Zone.addresses
  rw [List.forall₂_map_left_iff, List.forall₂_map_right_iff, List.forall₂_same]
  intro t ht
  have hmem := List.mem_of_mem_filter ht
  cases hts : fixture h.text with
  | none =>
    rw [hts] at hmem
    cases hmem
  | some ts =>
    rw [hts] at hmem
    exact rel_fill d hw (short_fixture h.text ts hts t hmem) (hw.atHost hh)

theorem rel_additionalOf {ps ps' : List Placed} (h : List.Forall₂ (PlacedAlike r ends) ps ps') :
    List.Forall₂ (RRset.Rel (Twin r ends)) (Zone.additionalOf d z ps)
      (Zone.additionalOf d z' ps') := by
  have hhosts : List.Forall₂ (fun h h' : Host => h = h' ∧ h.text.length < 32)
      (ps.flatMap fun p => p.template.additionalHosts)
      (ps'.flatMap fun p => p.template.additionalHosts) := by
    refine List.rel_flatMap h fun p p' hp => ?_
    rw [← hp.template, List.forall₂_same]
    exact fun g hg => ⟨rfl, length_of_additionalHosts hp.short g hg⟩
  refine List.rel_flatMap hhosts fun g g' hg => ?_
  obtain ⟨rfl, hshort⟩ := hg
  exact rel_addresses d hw g hshort

omit hw in
theorem select_alike {ps ps' : List Placed} (h : List.Forall₂ (PlacedAlike r ends) ps ps') :
    List.Forall₂ (PlacedAlike r ends) (Zone.select kind ps) (Zone.select kind ps') := by
  unfold Zone.select
  split_ifs
  · exact List.forall₂_take 1 h
  · refine List.rel_filter (fun p p' hp => ?_) h
    dsimp only
    rw [hp.template]

/-- At a node the resolver does the same in both runs. -/
theorem nodeStep_alike (depth : Nat) {ps? ps?' : Option (List Placed)}
    (h : Option.Rel (List.Forall₂ (PlacedAlike r ends)) ps? ps?') :
    StepAlike r ends (Zone.nodeStep d z kind key depth ps?)
      (Zone.nodeStep d z' kind key depth ps?') := by
  have hsoa := rel_negativeSoa d kind key hw depth
  unfold Zone.nodeStep
  cases h with
  | none => exact .stop ⟨rfl, rfl, .nil, .cons hsoa .nil, .nil⟩
  | @some ps ps' h =>
    have hfind := forall₂_find? (p := fun p : Placed => p.template.kind = RRType.CNAME)
      (q := fun p : Placed => p.template.kind = RRType.CNAME) h fun p p' hp => by rw [hp.template]
    dsimp only
    -- what was searched does not matter any more
    revert hfind
    generalize ps.find? (fun p => p.template.kind = RRType.CNAME) = p?
    generalize ps'.find? (fun p => p.template.kind = RRType.CNAME) = p?'
    intro hfind
    cases hfind with
    | @some p p' hp =>
      have hrr := rel_rrset d hw hp
      have hshort : ∀ g ∈ p.template.data.head?.bind targetHost, g.text.length < 32 := by
        intro g hg
        obtain ⟨parts, hparts, htarget⟩ := Option.bind_eq_some_iff.mp (Option.mem_def.mp hg)
        exact length_of_targetHost
          (List.all_eq_true.mp hp.short parts (List.mem_of_head? hparts)) htarget
      dsimp only
      rw [← hp.template]
      revert hshort
      generalize p.template.data.head?.bind targetHost = g?
      intro hshort
      cases g? with
      | none => exact .stop ⟨rfl, rfl, .cons hrr .nil, .nil, .nil⟩
      | some g =>
        dsimp only
        split_ifs
        · exact .stop ⟨rfl, rfl, .cons hrr .nil, .nil, .nil⟩
        · exact .follow (.cons hrr .nil) (hw.atHost (hshort g rfl))
    | none =>
      have hselect := select_alike kind h
      dsimp only
      by_cases hnil : Zone.select kind ps = []
      · have hnil' : Zone.select kind ps' = [] := by
          rw [hnil] at hselect
          exact List.forall₂_nil_left_iff.mp hselect
        rw [if_pos hnil, if_pos hnil']
        exact .stop ⟨rfl, rfl, .nil, .cons hsoa .nil, .nil⟩
      · have hnil' : Zone.select kind ps' ≠ [] := by
          intro hnil'
          rw [hnil'] at hselect
          exact hnil (List.forall₂_nil_right_iff.mp hselect)
        have hanswer : List.Forall₂ (RRset.Rel (Twin r ends))
            ((Zone.select kind ps).map (Zone.rrset d z))
            ((Zone.select kind ps').map (Zone.rrset d z')) :=
          List.rel_map (fun p p' hp => rel_rrset d hw hp) hselect
        rw [if_neg hnil, if_neg hnil']
        exact .stop ⟨rfl, rfl, hanswer, .nil, rel_additionalOf d hw hselect⟩

/-! ### Steps side by side -/

theorem rel_delegation {h : Host} (hmem : h ∈ referralHosts) :
    (Zone.delegation d z h).Rel (Twin r ends) (Zone.delegation d z' h) := by
  have hshort : ∀ h ∈ referralHosts, h.text.length < 32 := by decide
  have hns : (⟨"ns", by decide⟩ : Host).text.length < 32 := by decide
  have ha : (Fixture.a [53] 0).short = true := by decide
  have haaaa : (Fixture.aaaa [0x53] 0).short = true := by decide
  have hbelow := hw.below hns (hshort h hmem)
  refine ⟨rfl, rfl, .nil, .cons ⟨.zone (hw.atHost (hshort h hmem)), rfl, rfl, rfl, ?_⟩ .nil, ?_⟩
  · exact .cons (.cons (.zone hbelow) .nil) .nil
  · unfold Zone.delegation
    dsimp only
    split_ifs
    · exact .cons (rel_fill d hw ha hbelow) (.cons (rel_fill d hw haaaa hbelow) .nil)
    · exact .cons (rel_fill d hw ha hbelow) .nil

theorem dnameStep_alike {a b : Name} {p p' : List Label} {l l' : Label}
    (h : Parallel r ends a b (p ++ [l]) (p' ++ [l'])) {g : Host} (hmem : g ∈ dnameHosts) :
    StepAlike r ends (Zone.dnameStep d z kind a (p ++ [l]) g)
      (Zone.dnameStep d z' kind b (p' ++ [l']) g) := by
  have hshort : ∀ g ∈ dnameHosts, g.text.length < 32 := by decide
  have htree : (Fixture.target RRType.DNAME ⟨"target-tree", by decide⟩).short = true := by decide
  have hdname := rel_fill d hw htree (hw.atHost (hshort g hmem))
  unfold Zone.dnameStep
  rcases h.substituted hw with ⟨hn, hn'⟩ | ⟨n, n', hn, hn', hnn'⟩
  · rw [hn, hn']
    exact .stop ⟨rfl, rfl, .cons hdname .nil, .nil, .nil⟩
  · have hcname : List.Forall₂ (RRset.Rel (Twin r ends))
        [Zone.dname d z g, ⟨a, RRType.CNAME, RRClass.IN, 0, [[.name n]]⟩]
        [Zone.dname d z' g, ⟨b, RRType.CNAME, RRClass.IN, 0, [[.name n']]⟩] :=
      .cons hdname (.cons ⟨.zone h, rfl, rfl, rfl, .cons (.cons (.zone hnn') .nil) .nil⟩ .nil)
    rw [hn, hn']
    dsimp only
    split_ifs
    · exact .stop ⟨rfl, rfl, hcname, .nil, .nil⟩
    · exact .follow hcname hnn'

/-- **Step lemma**: side by side the resolver does the same. -/
theorem step_alike {a b : Name} {f f' : List Label} (h : Parallel r ends a b f f')
    (hkey : keyOf f = some key) :
    StepAlike r ends (Zone.step d z kind a f key) (Zone.step d z' kind b f' key) := by
  have hlen := h.length_eq
  have hsoa : Fixture.zoneSoa.short = true := by decide
  unfold Zone.step
  rw [← hlen]
  cases hr : hostIn referralHosts key with
  | some g =>
    dsimp only
    split_ifs
    · exact .stop ⟨rfl, rfl, .nil, .cons (rel_fill d hw hsoa hw.zone) .nil, .nil⟩
    · exact .stop (rel_delegation d hw (hostIn_eq_some hr).1)
  | none =>
    dsimp only
    split_ifs
    · exact .stop ⟨rfl, rfl, .nil, .nil, .nil⟩
    cases hg : (hostIn dnameHosts key).filter fun _ => f.length ≠ 1 with
    | none => exact nodeStep_alike d kind key hw f.length (node_alike key hw h f.length)
    | some g =>
      have hmem : g ∈ dnameHosts := (hostIn_eq_some (Option.filter_eq_some_iff.mp hg).1).1
      have hne : f ≠ [] := by
        rintro rfl
        obtain rfl := Option.some.inj hkey
        have hin := hostIn_eq_some (Option.filter_eq_some_iff.mp hg).1
        exact (by decide : ∀ g ∈ dnameHosts, g.text ≠ "apex") g hin.1 hin.2
      have hne' : f' ≠ [] := by
        rintro rfl
        exact hne (List.length_eq_zero_iff.mp hlen)
      obtain ⟨p, l, rfl⟩ := exists_concat hne
      obtain ⟨p', l', rfl⟩ := exists_concat hne'
      exact dnameStep_alike d kind hw h hmem

/-- **Run lemma**: side by side the chains and their conclusions are the same. -/
theorem Resolves.alike {n : Nat} {a b : Name} {f f' : List Label} {chain : List RRset}
    {c : Conclusion} (hres : Resolves d z kind n a chain c) (h : Parallel r ends a b f f') :
    ∃ chain' c', Resolves d z' kind n b chain' c' ∧
      List.Forall₂ (RRset.Rel (Twin r ends)) chain chain' ∧ c.Rel (Twin r ends) c' := by
  induction hres generalizing b f f' with
  | @stop a front key c hz hkey hstep =>
    obtain ⟨-, rfl⟩ := hz.unique (h.inZone_left hw)
    have halike := step_alike d kind key hw h hkey
    rw [hstep] at halike
    generalize hstep' : Zone.step d z' kind b f' key = s' at halike
    cases halike with
    | @stop _ c' hc =>
      exact ⟨[], c', .stop (h.inZone_right hw) (h.keyOf_eq hw ▸ hkey) hstep', .nil, hc⟩
  | @follow n a next front key aliases chain c hz hkey hstep _ ih =>
    obtain ⟨-, rfl⟩ := hz.unique (h.inZone_left hw)
    have halike := step_alike d kind key hw h hkey
    rw [hstep] at halike
    generalize hstep' : Zone.step d z' kind b f' key = s' at halike
    cases halike with
    | @follow _ aliases' _ next' _ _ haliases hnext =>
      obtain ⟨chain', c', hres', hchain, hc⟩ := ih hnext
      exact ⟨aliases' ++ chain', c',
        .follow (h.inZone_right hw) (h.keyOf_eq hw ▸ hkey) hstep' hres',
        List.rel_append haliases hchain, hc⟩

end

/-! ### Responses side by side -/

theorem Conclusion.Rel.mono {R S : Name → Name → Prop} (h : ∀ a b, R a b → S a b)
    {c c' : Conclusion} (hc : c.Rel R c') : c.Rel S c' :=
  ⟨hc.aa, hc.rcode, hc.answer.imp fun _ _ => RRset.Rel.mono h,
    hc.authority.imp fun _ _ => RRset.Rel.mono h, hc.additional.imp fun _ _ => RRset.Rel.mono h⟩

theorem Conclusion.Rel.apply {R : Name → Name → Prop} {c c' : Conclusion} (hc : c.Rel R c')
    {m m' : Message} (hm : m.Rel R m') : (c.apply m).Rel R (c'.apply m') := by
  have hplain : Message.Rel R
      { m with
        flags := if c.aa then m.flags else m.flags &&& ~~~Flag.AA
        answer := m.answer ++ c.answer
        authority := m.authority ++ c.authority
        additional := m.additional ++ c.additional }
      { m' with
        flags := if c'.aa then m'.flags else m'.flags &&& ~~~Flag.AA
        answer := m'.answer ++ c'.answer
        authority := m'.authority ++ c'.authority
        additional := m'.additional ++ c'.additional } := by
    refine ⟨hm.id, ?_, hm.question, List.rel_append hm.answer hc.answer,
      List.rel_append hm.authority hc.authority, List.rel_append hm.additional hc.additional, hm.opt⟩
    show (if c.aa then m.flags else m.flags &&& ~~~Flag.AA)
      = if c'.aa then m'.flags else m'.flags &&& ~~~Flag.AA
    rw [hc.aa, hm.flags]
  unfold Conclusion.apply
  dsimp only
  rw [← hc.rcode]
  by_cases hno : c.rcode = Rcode.NOERROR
  · rw [if_pos hno, if_pos hno]
    exact hplain
  · rw [if_neg hno, if_neg hno]
    exact hplain.setRcode c.rcode

section

variable {r : Label → Label → Prop} {ends : List Label → List Label → Prop} {z z' : Nonce}
  {d : Dnspython} (hd : d.Documented) (hw : Alongside r ends z z')
include hd hw

/-- Side by side the same keys can be read. -/
theorem Readable.alike {a b : Name} {f f' : List Label} (h : Parallel r ends a b f f')
    (hread : Readable d z a) : Readable d z' b := by
  obtain ⟨front, key, cut, hz, hkey, hcut⟩ := hread
  obtain ⟨-, rfl⟩ := hz.unique (h.inZone_left hw)
  have hkey' := h.keyOf_eq hw ▸ hkey
  by_cases hne : front = []
  · subst hne
    obtain rfl := Option.some.inj hkey
    exact ⟨f', "apex", _, h.inZone_right hw, hkey', nameFromText_target hd z' "apex" (by decide)⟩
  · obtain ⟨init, label, rfl, -, htext, hascii⟩ := label_of_keyOf hne hkey
    have hmem : label ∈ a.labels := by
      obtain ⟨suffix, ha, -⟩ := hz.labels
      rw [ha]
      simp
    have hne' : textOctets key ≠ [] := by
      rw [htext]
      exact fun hnil => a.legal.label_ne_nil label hmem (List.map_eq_nil_iff.mp hnil)
    have h63 : (textOctets key).length ≤ 63 := by
      rw [htext, length_lower]
      exact a.legal.label_le label hmem
    have hread := (exists_nameFromText_key_iff hd z hascii hne' h63).mp ⟨cut, hcut⟩
    obtain ⟨cut', hcut'⟩ := (exists_nameFromText_key_iff hd z' hascii hne' h63).mpr hread
    exact ⟨f', key, cut', h.inZone_right hw, hkey', hcut'⟩

/-- **Two runs of `_answer` side by side** make the same response. -/
theorem answer_rel {R : Name → Name → Prop} (hR : ∀ a b, Twin r ends a b → R a b) {a b : Name}
    {f f' : List Label} (h : Parallel r ends a b f f') (kind : UInt16) {start start' m : Message}
    (hempty : start.rrsets = []) (hstart : start.Rel R start')
    (hm : answer d start a kind z.text = .ok m) :
    ∃ m', answer d start' b kind z'.text = .ok m' ∧ m.Rel R m' := by
  have hempty' : start'.rrsets = [] := by
    have hrel := hstart.rrsets
    rw [hempty] at hrel
    exact List.forall₂_nil_left_iff.mp hrel
  obtain ⟨h12, hadditional⟩ := List.append_eq_nil_iff.mp hempty'
  obtain ⟨hanswer, -⟩ := List.append_eq_nil_iff.mp h12
  rcases answer_cases hd (h.inZone_left hw) hempty hm with
    ⟨hkey, rfl⟩ | ⟨n, chain, c, hread, hres, rfl⟩
  · -- a key that is no text ends the loop at once
    refine ⟨start', ?_, hstart⟩
    have hnone : nameKey b = none := by
      rw [nameKey_of_inZone (h.inZone_right hw), ← h.keyOf_eq hw, hkey]
      rfl
    unfold answer answerLoop answerStep
    rw [hnone]
    rfl
  · obtain ⟨chain', c', hres', hchain, hc⟩ := hres.alike d kind hw h
    obtain ⟨front, key, cut, hz, hkey, hcut⟩ := hread.alike hd hw h
    obtain ⟨n', chain'', c'', hres'', hrun⟩ := answer_eq hd kind hz hkey hcut hadditional
    obtain ⟨-, rfl, rfl⟩ := hres'.unique hres''
    rw [hanswer, List.nil_append] at hrun
    refine ⟨_, hrun, (hc.mono hR).apply ?_⟩
    exact ⟨hstart.id, hstart.flags, hstart.question, hchain.imp fun _ _ => RRset.Rel.mono hR,
      hstart.authority, hstart.additional, hstart.opt⟩

end

/-! ### The laws -/

/-- The name `b` is `a` with the nonce replaced in front of the suffix: its spelling `l` in the
question by `l'`, and the nonce itself by the other nonce. -/
inductive Renamed (z z' : Nonce) (l l' : Label) : Name → Name → Prop
  | root : Renamed z z' l l' Name.root Name.root
  | zone {a b : Name} {front tail : List Label} {x x' : Label} : foldCase tail = SUFFIX →
      (x = l ∧ x' = l') ∨ (x = z.label ∧ x' = z'.label) →
      a.labels = front ++ x :: tail → b.labels = front ++ x' :: tail → Renamed z z' l l' a b

/-- The response for another nonce is the response with the nonce replaced in every name. -/
def RenamesNonce (d : Dnspython) : Prop :=
  ∀ (z z' : Nonce) (p : List Label) (l l' : Label) (tail : List Label) (q q' : Name) (kind : UInt16)
    (start start' m : Message), lower l = z.label → lower l' = z'.label → foldCase tail = SUFFIX →
    q.labels = p ++ l :: tail → q'.labels = p ++ l' :: tail → start.rrsets = [] →
    start.Rel (Renamed z z' l l') start' → answer d start q kind z.text = .ok m →
    ∃ m', answer d start' q' kind z'.text = .ok m' ∧ m.Rel (Renamed z z' l l') m'

/-- Outside labels of the question no record mentions another nonce. -/
def KeepsScope (d : Dnspython) : Prop :=
  ∀ (z : Nonce) (p : List Label) (q : Name) (kind : UInt16) (start m : Message), InZone z q p →
    start.rrsets = [] → answer d start q kind z.text = .ok m →
    ∀ r ∈ m.rrsets, ∀ n ∈ r.names, ∀ x ∈ n.labels, isNonce (lower x) = true →
      x ∈ p ∨ lower x = z.label

/-- The spelling of the question does not matter but for the spelling of the names. -/
def IgnoresCase (d : Dnspython) : Prop :=
  ∀ (q q' : Name) (kind rdclass : UInt16) (start start' m : Message), q.SameAs q' →
    start.rrsets = [] → start.Rel Name.SameAs start' →
    resolveQuestion d ⟨q, kind, rdclass⟩ start = .ok m →
    ∃ m', resolveQuestion d ⟨q', kind, rdclass⟩ start' = .ok m' ∧ m.Rel Name.SameAs m'

section

variable {d : Dnspython} (hd : d.Documented)
include hd

theorem renamesNonce : RenamesNonce d := by
  intro z z' p l l' tail q q' kind start start' m hl hl' htail hq hq' hempty hstart hm
  let ends : List Label → List Label → Prop := fun s s' => ∃ tail x x', foldCase tail = SUFFIX ∧
    ((x = l ∧ x' = l') ∨ (x = z.label ∧ x' = z'.label)) ∧ s = x :: tail ∧ s' = x' :: tail
  have hw : Alongside Eq ends z z' := by
    refine ⟨fun h _ => rfl, fun a b hab => congrArg lower hab, ?_, ?_⟩
    · exact ⟨SUFFIX, z.label, z'.label, by decide, Or.inr ⟨rfl, rfl⟩, rfl, rfl⟩
    · rintro s s' ⟨tail, x, x', ht, hx, rfl, rfl⟩
      rw [foldCase_cons, foldCase_cons, ht]
      rcases hx with ⟨rfl, rfl⟩ | ⟨rfl, rfl⟩
      · rw [hl, hl']
        exact ⟨rfl, rfl⟩
      · rw [z.lower_label, z'.lower_label]
        exact ⟨rfl, rfl⟩
  have hR : ∀ a b, Twin Eq ends a b → Renamed z z' l l' a b := by
    rintro a b (_ | ⟨hfront, s, s', ⟨tail, x, x', ht, hx, rfl, rfl⟩, ha, hb⟩)
    · exact .root
    · rw [List.forall₂_eq_eq_eq] at hfront
      subst hfront
      exact .zone ht hx ha hb
  have hpar : Parallel Eq ends q q' p p :=
    ⟨List.forall₂_same.mpr fun _ _ => rfl, _, _,
      ⟨tail, l, l', htail, Or.inl ⟨rfl, rfl⟩, rfl, rfl⟩, hq, hq'⟩
  exact answer_rel hd hw hR hpar kind hempty hstart hm

/-- **Scope**: a run beside itself shows what labels its names are made of. -/
theorem keepsScope : KeepsScope d := by
  intro z p q kind start m hz hempty hm
  let r : Label → Label → Prop := fun a b => a = b ∧ (a ∈ p ∨ isNonce (lower a) = false)
  let ends : List Label → List Label → Prop := fun s s' => s = s' ∧ foldCase s = z.labels
  have hw : Alongside r ends z z := by
    refine ⟨fun h hh => ⟨rfl, Or.inr ?_⟩, fun a b hab => congrArg lower hab.1,
      ⟨rfl, z.foldCase_labels⟩, fun s s' hs => ⟨hs.2, hs.1 ▸ hs.2⟩⟩
    have hlen : h.label.length = h.text.length := by
      rw [Host.label, textOctets, List.length_map, String.length_toList]
    have h32 : (lower h.label).length ≠ 32 := by
      rw [length_lower, hlen]
      omega
    exact decide_eq_false fun hnonce => h32 hnonce.1
  obtain ⟨suffix, hq, hsuffix⟩ := hz.labels
  have hpar : Parallel r ends q q p p :=
    ⟨List.forall₂_same.mpr fun x hx => ⟨rfl, Or.inl hx⟩, suffix, suffix, ⟨rfl, hsuffix⟩, hq, hq⟩
  have hname : ∀ n, Twin r ends n n → ∀ x ∈ n.labels, isNonce (lower x) = true →
      x ∈ p ∨ lower x = z.label := by
    intro n hn x hx hnonce
    cases hn with
    | root => cases hx
    | @zone _ _ f f' h =>
      obtain ⟨s, s', ⟨-, hs⟩, hn, -⟩ := h.suffix
      rw [hn] at hx
      rcases List.mem_append.mp hx with hx | hx
      · obtain ⟨_, -, -, hp | hno⟩ := forall₂_exists_of_mem h.front hx
        · exact Or.inl hp
        · rw [hnonce] at hno
          cases hno
      · have hmem : lower x ∈ z.labels := hs ▸ List.mem_map_of_mem hx
        rcases List.mem_cons.mp hmem with hz | hsuffix
        · exact Or.inr hz
        · have hno : ∀ l ∈ SUFFIX, isNonce l = false := by decide
          rw [hno _ hsuffix] at hnonce
          cases hnonce
  obtain ⟨h12, hadditional⟩ := List.append_eq_nil_iff.mp hempty
  obtain ⟨hanswer, hauthority⟩ := List.append_eq_nil_iff.mp h12
  rcases answer_cases hd hz hempty hm with ⟨-, rfl⟩ | ⟨n, chain, c, -, hres, rfl⟩
  · rw [hempty]
    intro r hr
    cases hr
  · obtain ⟨chain', c', hres', hchain, hc⟩ := hres.alike d kind hw hpar
    obtain ⟨-, rfl, rfl⟩ := hres.unique hres'
    have hsections := List.rel_append (List.rel_append (List.rel_append hchain hc.answer)
      hc.authority) hc.additional
    rw [Message.rrsets, Conclusion.apply_answer, Conclusion.apply_authority,
      Conclusion.apply_additional, hauthority, hadditional, List.nil_append, List.nil_append]
    intro r hr n hn
    exact hname n ((List.forall₂_same.mp hsections r hr).forall_names n hn)

omit hd in
/-- Two spellings of a name in one zone. -/
theorem parallel_of_sameAs {z : Nonce} {q q' : Name} {f : List Label} (hz : InZone z q f)
    (h : q.SameAs q') : ∃ f', Parallel (fun a b => lower a = lower b)
      (fun s s' => foldCase s = z.labels ∧ foldCase s' = z.labels) q q' f f' := by
  obtain ⟨s, hq, hs⟩ := hz.labels
  have hfold : foldCase q'.labels = foldCase f ++ z.labels := by
    rw [← h, hq, foldCase_append, hs]
  have hsplit : q'.labels = q'.labels.take f.length ++ q'.labels.drop f.length :=
    (List.take_append_drop ..).symm
  have hfront : foldCase (q'.labels.take f.length) = foldCase f := by
    rw [foldCase_take, hfold, ← length_foldCase f, List.take_left]
  have hrest : foldCase (q'.labels.drop f.length) = z.labels := by
    rw [foldCase_drop, hfold, ← length_foldCase f, List.drop_left]
  refine ⟨q'.labels.take f.length, ?_, s, _, ⟨hs, hrest⟩, hq, hsplit⟩
  have hmap : List.Forall₂ Eq (foldCase f) (foldCase (q'.labels.take f.length)) := by
    rw [hfront]
    exact List.forall₂_same.mpr fun _ _ => rfl
  rwa [foldCase, foldCase, List.forall₂_map_left_iff, List.forall₂_map_right_iff] at hmap

omit hd in
theorem alongside_self (z : Nonce) : Alongside (fun a b => lower a = lower b)
    (fun s s' => foldCase s = z.labels ∧ foldCase s' = z.labels) z z :=
  ⟨fun _ _ => rfl, fun _ _ h => h, ⟨z.foldCase_labels, z.foldCase_labels⟩, fun _ _ h => h⟩

omit hd in
theorem nameKey_eq_of_sameAs {q q' : Name} (h : q.SameAs q') : nameKey q = nameKey q' := by
  have hsome : ∀ {a b : Name}, a.SameAs b → ∀ {k : String × String}, nameKey a = some k →
      nameKey b = some k := by
    intro a b hab k hk
    obtain ⟨z, f, hz⟩ := inZone_of_nameKey hk
    obtain ⟨f', hpar⟩ := parallel_of_sameAs hz hab
    rw [nameKey_of_inZone (hpar.inZone_right (alongside_self z)),
      ← hpar.keyOf_eq (alongside_self z), ← nameKey_of_inZone hz, hk]
  ext k
  exact ⟨hsome h, hsome h.symm⟩

omit hd in
theorem sameAs_of_twin {z : Nonce} {a b : Name} (h : Twin (fun a b => lower a = lower b)
    (fun s s' => foldCase s = z.labels ∧ foldCase s' = z.labels) a b) : a.SameAs b := by
  cases h with
  | root => exact Name.SameAs.refl _
  | zone h =>
    have hfront := h.foldCase_front (alongside_self z)
    obtain ⟨s, s', ⟨hs, hs'⟩, ha, hb⟩ := h.suffix
    show foldCase a.labels = foldCase b.labels
    rw [ha, hb, foldCase_append, foldCase_append, hfront, hs, hs']

theorem ignoresCase : IgnoresCase d := by
  intro q q' kind rdclass start start' m hqq' hempty hstart hm
  have hrefused : ∃ m', (Except.ok (start'.setRcode Rcode.REFUSED) : Except Raised Message) = .ok m' ∧
      (start.setRcode Rcode.REFUSED).Rel Name.SameAs m' := ⟨_, rfl, hstart.setRcode _⟩
  unfold resolveQuestion at hm ⊢
  dsimp only at hm ⊢
  rw [← nameKey_eq_of_sameAs hqq']
  cases hkey : nameKey q with
  | none =>
    rw [hkey] at hm
    cases hm
    exact hrefused
  | some k =>
    obtain ⟨key, nonce⟩ := k
    rw [hkey] at hm
    obtain ⟨z, f, hz, -, rfl⟩ := nameKey_eq_some_iff.mp hkey
    obtain ⟨f', hpar⟩ := parallel_of_sameAs hz hqq'
    dsimp only at hm ⊢
    by_cases hclass : rdclass ∉ [RRClass.IN, RRClass.ANY]
    · rw [if_pos hclass] at hm ⊢
      cases hm
      exact hrefused
    by_cases hkind : kind ∈ [RRType.AXFR, RRType.IXFR]
    · rw [if_neg hclass, if_pos hkind] at hm ⊢
      cases hm
      exact hrefused
    rw [if_neg hclass, if_neg hkind] at hm ⊢
    have hstart' : Message.Rel Name.SameAs { start with flags := start.flags ||| Flag.AA }
        { start' with flags := start'.flags ||| Flag.AA } :=
      ⟨hstart.id, congrArg (· ||| Flag.AA) hstart.flags, hstart.question, hstart.answer,
        hstart.authority, hstart.additional, hstart.opt⟩
    have hempty' : ({ start with flags := start.flags ||| Flag.AA } : Message).rrsets = [] := hempty
    exact answer_rel hd (alongside_self z) (fun _ _ => sameAs_of_twin) hpar kind hempty' hstart' hm

/-- **Nonces and case**: another nonce gives the same response renamed, no record mentions a nonce of
another question, and the spelling of the question changes that of names only. -/
theorem answer_laws : RenamesNonce d ∧ KeepsScope d ∧ IgnoresCase d :=
  ⟨renamesNonce hd, keepsScope hd, ignoresCase hd⟩

end

/-- The nonce of 32 ones. -/
def Nonce.ones : Nonce := ⟨List.replicate 32 49, by decide⟩

/-- A key of the catalogue in mixed case, under the nonce of zeros. -/
def mixedRp : Name := ⟨textOctets "rP" :: Nonce.zeros.labels, by decide⟩

/-- RP records hold two names of the zone. -/
theorem answer_laws_rp : ∃ m m' start, start.rrsets = [] ∧
    answer Reference.dnspython start (Nonce.zeros.host ⟨"rp", by decide⟩) RRType.RP
      Nonce.zeros.text = .ok m ∧
    answer Reference.dnspython start (Nonce.ones.host ⟨"rp", by decide⟩) RRType.RP
      Nonce.ones.text = .ok m' ∧
    m.Rel (Renamed Nonce.zeros Nonce.ones Nonce.zeros.label Nonce.ones.label) m' ∧
    (∀ r ∈ m.rrsets, ∀ n ∈ r.names, ∀ x ∈ n.labels, isNonce (lower x) = true →
      x ∈ [textOctets "rp"] ∨ lower x = Nonce.zeros.label) ∧
    ∃ k k', resolveQuestion Reference.dnspython
        ⟨Nonce.zeros.host ⟨"rp", by decide⟩, RRType.RP, RRClass.IN⟩ start = .ok k ∧
      resolveQuestion Reference.dnspython ⟨mixedRp, RRType.RP, RRClass.IN⟩ start = .ok k' ∧
      k.Rel Name.SameAs k' := by
  obtain ⟨hrenames, hscope, hcase⟩ := answer_laws Reference.documented
  let start : Message := ⟨0, Flag.AA, [], [], [], [], none⟩
  have hself : ∀ R, start.Rel R start := fun R => ⟨rfl, rfl, .nil, .nil, .nil, .nil, rfl⟩
  obtain ⟨m, hm⟩ := Reference.exists_of_isOk (x := answer Reference.dnspython start
    (Nonce.zeros.host ⟨"rp", by decide⟩) RRType.RP Nonce.zeros.text) (by decide +kernel)
  obtain ⟨k, hk⟩ := Reference.exists_of_isOk (x := resolveQuestion Reference.dnspython
    ⟨Nonce.zeros.host ⟨"rp", by decide⟩, RRType.RP, RRClass.IN⟩ start) (by decide +kernel)
  obtain ⟨m', hm', hrel⟩ := hrenames Nonce.zeros Nonce.ones [textOctets "rp"] _ _ SUFFIX _
    (Nonce.ones.host ⟨"rp", by decide⟩) RRType.RP start start m Nonce.zeros.lower_label
    Nonce.ones.lower_label (by decide) rfl rfl rfl (hself _) hm
  obtain ⟨k', hk', hkrel⟩ := hcase _ mixedRp RRType.RP RRClass.IN start start k (by decide) rfl
    (hself _) hk
  exact ⟨m, m', start, rfl, hm, hm', hrel,
    hscope _ _ _ _ start m (Nonce.zeros.inZone_host ⟨"rp", by decide⟩) rfl hm, k, k', hk, hk', hkrel⟩

end DnsFixtures
