import DnsFixtures.Equiv.Steps

/-!
# What the zone answers can be written

* `Template.renderable_fill`, `Template.size_fill_le`: the RRsets of the catalogue can be written and
  read back, and they are not longer than their template says.
* `Resolves.renderable`: so can every answer of the zone, within 63040 octets; no two RRsets of a
  section share a key.
-/

namespace DnsFixtures

open Dns

/-! ### Filled templates -/

section

variable {d : Dnspython} (hd : d.Documented) (z : Nonce) (owner : Name)

theorem RelName.nameLength_fill_le (n : RelName) :
    nameLength (n.fill z owner).labels ≤ n.size := by
  cases n with
  | root => exact Nat.le_refl 1
  | host h =>
    change nameLength (h.label :: z.labels) ≤ 54 + h.label.length
    rw [nameLength_cons, z.nameLength_labels]
    omega
  | ofOwner h => exact (RelName.fill z owner (.ofOwner h)).legal.total_le

include hd

/-- Fields in a layout stay in it, and texts among them are those of the fixtures. -/
theorem conforms_fill {kind : UInt16} {ps : List Piece} {fs : List Part}
    (h : partsConform kind ps fs = true) : d.Conforms kind ps (fs.map (Part.fill d z owner)) ∧
      ∀ k s, Part.text k s ∈ fs → (k, s) ∈ fixtureTexts := by
  fun_induction partsConform kind ps fs with
  | case1 => exact ⟨trivial, by simp⟩
  | case2 n ps bs fs ih =>
    simp only [Bool.and_eq_true, decide_eq_true_eq] at h
    obtain ⟨hfs, htexts⟩ := ih h.2
    exact ⟨⟨h.1, hfs⟩, by simpa using htexts⟩
  | case3 ps n fs ih =>
    obtain ⟨hfs, htexts⟩ := ih h
    exact ⟨hfs, by simpa using htexts⟩
  | case4 bs =>
    simp only [Bool.and_eq_true, decide_eq_true_eq] at h
    exact ⟨Or.inr h, by simp⟩
  | case5 k s =>
    simp only [Bool.and_eq_true, decide_eq_true_eq] at h
    obtain ⟨rfl, hmem⟩ := h
    refine ⟨Or.inl (Or.inl ⟨s, octetsFromText_ok hd hmem⟩), ?_⟩
    rintro k' s' hm
    rw [List.mem_singleton] at hm
    cases hm
    exact hmem
  | case6 count s =>
    simp only [Bool.and_eq_true, decide_eq_true_eq] at h
    obtain ⟨⟨rfl, hcount⟩, hlen⟩ := h
    refine ⟨Or.inl (Or.inr ⟨rfl, List.replicate count (textOctets s), ?_, ?_, rfl⟩), by simp⟩
    · rwa [ne_eq, List.replicate_eq_nil_iff]
    · intro x hx
      rwa [(List.mem_replicate.mp hx).2]
  | case7 => cases h

theorem size_part_fill_le {f : Part} (hf : ∀ k s, f = .text k s → (k, s) ∈ fixtureTexts) :
    (f.fill d z owner).size ≤ f.size := by
  cases f with
  | octets bs => exact Nat.le_refl _
  | name n => exact n.nameLength_fill_le z owner
  | text k s =>
    obtain ⟨bs, hbs, hlen⟩ := hd.octetsFromText_fixtures _ (hf k s rfl)
    change ((d.octetsFromText k s).toOption.getD []).length ≤ 2000
    rw [hbs]
    exact hlen
  | strings count s =>
    change (Dnspython.charStrings (List.replicate count (textOctets s))).length
      ≤ count * ((textOctets s).length + 1)
    rw [Dnspython.charStrings, List.length_flatMap]
    simp

theorem size_rdata_fill_le {fs : List Part}
    (hf : ∀ k s, Part.text k s ∈ fs → (k, s) ∈ fixtureTexts) :
    Rdata.size (fs.map (Part.fill d z owner)) ≤ (fs.map Part.size).sum := by
  induction fs with
  | nil => exact Nat.le_refl 0
  | cons f fs ih =>
    have hhead := size_part_fill_le hd z owner (f := f) fun k s h => hf k s (h ▸ List.mem_cons_self)
    have htail := ih fun k s h => hf k s (List.mem_cons_of_mem _ h)
    rw [Rdata.size, List.map_map] at htail ⊢
    rw [List.map_cons, List.map_cons, List.sum_cons, List.sum_cons]
    exact Nat.add_le_add hhead htail

omit hd in
/-- Octets that tell two templates of a record apart tell the records apart. -/
theorem not_sameAs_of_apart {fs gs : List Part} (h : apart fs gs = true) :
    ¬ Rdata.SameAs (fs.map (Part.fill d z owner)) (gs.map (Part.fill d z owner)) := by
  intro hs
  match fs, gs, h with
  | .octets a :: fs, .octets b :: gs, h =>
    rw [apart, decide_eq_true_eq] at h
    cases hs with
    | cons hhead _ => exact h hhead

theorem Template.WellFormed.renderable {t : Template} (ht : t.WellFormed) :
    d.RenderableRRset (t.fill d z owner) where
  rdclass := rfl
  rdtype := ht.kind
  ttl := ht.ttl
  ne_nil := by simpa [Template.fill] using ht.ne_nil
  nodup := by
    refine List.pairwise_map.mpr ?_
    rcases ht.distinct with hone | hpair
    · obtain ⟨fs, hfs⟩ := List.length_eq_one_iff.mp hone
      rw [hfs]
      exact List.pairwise_singleton ..
    · exact hpair.imp fun h => not_sameAs_of_apart z owner h
  singleton := fun h => by
    rw [Template.fill, List.length_map]
    exact ht.singleton h
  conforms := by
    intro x hx
    obtain ⟨fs, hfs, rfl⟩ := List.mem_map.mp hx
    exact (conforms_fill hd z owner (ht.conforms fs hfs)).1

theorem Template.WellFormed.size_fill_le {t : Template} (ht : t.WellFormed) :
    (t.fill d z owner).size ≤ t.size := by
  rw [RRset.size, Template.size, Template.fill, List.map_map]
  refine List.sum_le_sum fun fs hfs => ?_
  have howner := owner.legal.total_le
  have hdata := size_rdata_fill_le hd z owner (conforms_fill hd z owner (ht.conforms fs hfs)).2
  simp only [Function.comp_apply]
  omega

end

/-! ### Sections -/

/-- The octets of a section with no name compressed. -/
def sectionSize (s : List RRset) : Nat := (s.map RRset.size).sum

@[simp] theorem sectionSize_nil : sectionSize [] = 0 := rfl

@[simp] theorem sectionSize_cons (r : RRset) (s : List RRset) :
    sectionSize (r :: s) = r.size + sectionSize s := by
  rw [sectionSize, List.map_cons, List.sum_cons]
  rfl

@[simp] theorem sectionSize_append (s t : List RRset) :
    sectionSize (s ++ t) = sectionSize s + sectionSize t := by
  rw [sectionSize, List.map_append, List.sum_append]
  rfl

section

variable {d : Dnspython}

theorem renderableSection_nil : d.RenderableSection [] := ⟨List.Pairwise.nil, by simp⟩

theorem renderableSection_singleton {r : RRset} (hr : d.RenderableRRset r) :
    d.RenderableSection [r] := by
  refine ⟨List.pairwise_singleton .., fun r' hr' => ?_⟩
  rwa [List.mem_singleton.mp hr']

theorem renderableSection_append {s t : List RRset} (hs : d.RenderableSection s)
    (ht : d.RenderableSection t) (hst : ∀ a ∈ s, ∀ b ∈ t, ¬ a.SameKey b) :
    d.RenderableSection (s ++ t) := by
  refine ⟨List.pairwise_append.mpr ⟨hs.keys, ht.keys, hst⟩, fun r hr => ?_⟩
  exact (List.mem_append.mp hr).elim (hs.rrsets r) (ht.rrsets r)

theorem renderableSection_of_prefix {s t : List RRset} (h : s <+: t) (ht : d.RenderableSection t) :
    d.RenderableSection s :=
  ⟨ht.keys.sublist h.sublist, fun r hr => ht.rrsets r (h.subset hr)⟩

/-- An alias RRset holds one name. -/
theorem size_alias_le {r : RRset} (hr : d.RenderableRRset r)
    (ht : r.rdtype ∈ [RRType.CNAME, RRType.DNAME]) : r.size ≤ 520 := by
  have hsub : ∀ t ∈ [RRType.CNAME, RRType.DNAME], t ∈ [RRType.CNAME, RRType.SOA, RRType.DNAME] ∧
      Dnspython.layout t = [.name] := by decide
  obtain ⟨hsingle, hlayout⟩ := hsub r.rdtype ht
  obtain ⟨x, hx⟩ := List.length_eq_one_iff.mp (hr.singleton hsingle)
  have hc := hr.conforms x (by simp [hx])
  rw [hlayout] at hc
  match x, hc with
  | [.name n], _ =>
    have howner := r.name.legal.total_le
    have htarget := n.legal.total_le
    rw [RRset.size, hx]
    simp only [List.map_cons, List.map_nil, List.sum_cons, List.sum_nil, Rdata.size, Field.size]
    omega

theorem renderable_name {t : UInt16} (ht : t ∈ [RRType.NS, RRType.CNAME, RRType.DNAME])
    (owner target : Name) : d.RenderableRRset ⟨owner, t, RRClass.IN, 0, [[.name target]]⟩ := by
  have htypes : ∀ t ∈ [RRType.NS, RRType.CNAME, RRType.DNAME], t ∈ Dnspython.dataTypes ∧
      Dnspython.layout t = [.name] := by decide
  obtain ⟨hdata, hlayout⟩ := htypes t ht
  refine ⟨rfl, hdata, (by decide : (0 : UInt32).toNat < 2 ^ 31), by simp, List.pairwise_singleton ..,
    fun _ => rfl, ?_⟩
  intro x hx
  rw [List.mem_singleton.mp hx, hlayout]
  trivial

theorem renderable_synthesised (owner next : Name) :
    d.RenderableRRset (Zone.synthesised owner next) := renderable_name (by decide) owner next

variable (hd : d.Documented) (z : Nonce)
include hd

theorem renderable_dname (h : Host) : d.RenderableRRset (Zone.dname d z h) := by
  have ht : (Fixture.target RRType.DNAME ⟨"target-tree", by decide⟩).WellFormed :=
    Fixture.wellFormed_single (by decide) rfl (by decide)
  exact ht.renderable hd z (z.host h)

omit hd in
/-- The SOA record of a negative response is that of a served apex. -/
theorem negativeSoa_eq_fill (kind : UInt16) (key : String) (depth : Nat) :
    ∃ t ∈ [Fixture.zoneSoa, Fixture.additionalNsSoa], ∃ o : Name,
      Zone.negativeSoa d z kind key depth = t.fill d z o := by
  unfold Zone.negativeSoa
  cases Zone.apexOf kind key depth with
  | none => exact ⟨_, List.mem_cons_self, _, rfl⟩
  | some h =>
    dsimp only
    split_ifs
    · exact ⟨_, List.mem_cons_of_mem _ (List.mem_singleton_self _), _, rfl⟩
    · exact ⟨_, List.mem_cons_self, _, rfl⟩

theorem renderable_negativeSoa (kind : UInt16) (key : String) (depth : Nat) :
    d.RenderableRRset (Zone.negativeSoa d z kind key depth) ∧
      (Zone.negativeSoa d z kind key depth).size ≤ 15500 := by
  obtain ⟨t, ht, o, ho⟩ := negativeSoa_eq_fill z kind key depth
  have hwf : t.WellFormed ∧ t.fullSize ≤ 15500 := by
    rcases List.mem_cons.mp ht with rfl | ht
    · exact wellFormed_zoneSoa
    · rw [List.mem_singleton.mp ht]
      exact wellFormed_additionalNsSoa
  have hsize := hwf.1.size_fill_le hd z o
  have hfull : t.size ≤ t.fullSize := Nat.le_add_right ..
  rw [ho]
  exact ⟨hwf.1.renderable hd z o, by omega⟩

/-! ### Conclusions -/

omit hd in
theorem additionalOf_singleton (p : Placed) :
    Zone.additionalOf d z [p] = p.template.additionalHosts.flatMap (Zone.addresses d z) := by
  simp [Zone.additionalOf]

omit hd in
theorem addresses_eq (h : Host) :
    Zone.addresses d z h = (addressTemplates h).map (Template.fill d z (z.host h)) := rfl

omit hd in
theorem wellFormed_addressTemplates (h : Host) :
    ((addressTemplates h).map Template.kind).Nodup ∧ ∀ t ∈ addressTemplates h, t.WellFormed := by
  unfold addressTemplates
  cases hf : fixture h.text with
  | none => simp
  | some ts =>
    have hnode := fixture_wellFormed h.text ts hf
    rw [Option.getD_some]
    exact ⟨hnode.kinds.sublist (List.Sublist.map _ List.filter_sublist),
      fun t ht => hnode.templates t (List.mem_of_mem_filter ht)⟩

theorem renderableSection_addresses (h : Host) : d.RenderableSection (Zone.addresses d z h) := by
  obtain ⟨hkinds, hwf⟩ := wellFormed_addressTemplates h
  rw [addresses_eq]
  refine ⟨List.pairwise_map.mpr ?_, fun r hr => ?_⟩
  · exact (List.pairwise_map.mp hkinds).imp fun hne hkey => hne hkey.2.1
  · obtain ⟨t, ht, rfl⟩ := List.mem_map.mp hr
    exact (hwf t ht).renderable hd z (z.host h)

theorem renderableSection_additionalOf {p : Placed} (hp : p.template.WellFormed) :
    d.RenderableSection (Zone.additionalOf d z [p]) := by
  rw [additionalOf_singleton]
  refine ⟨List.pairwise_flatMap.mpr ⟨fun h _ => (renderableSection_addresses hd z h).keys, ?_⟩,
    fun r hr => ?_⟩
  · refine hp.targetsNodup.imp fun {g h} hgh a ha b hb hkey => ?_
    obtain ⟨_, _, rfl⟩ := List.mem_map.mp ha
    obtain ⟨_, _, rfl⟩ := List.mem_map.mp hb
    exact hgh (sameAs_host_eq hkey.1)
  · obtain ⟨h, -, hr⟩ := List.mem_flatMap.mp hr
    exact (renderableSection_addresses hd z h).rrsets r hr

theorem sectionSize_additionalOf_le {p : Placed} (hp : p.template.WellFormed) :
    (Zone.rrset d z p).size + sectionSize (Zone.additionalOf d z [p]) ≤ p.template.fullSize := by
  have hsize : ∀ hs : List Host, sectionSize (hs.flatMap (Zone.addresses d z))
      ≤ (hs.map fun h => ((addressTemplates h).map Template.size).sum).sum := by
    intro hs
    induction hs with
    | nil => exact Nat.le_refl 0
    | cons h hs ih =>
      have haddr : sectionSize (Zone.addresses d z h)
          ≤ ((addressTemplates h).map Template.size).sum := by
        rw [addresses_eq, sectionSize, List.map_map]
        exact List.sum_le_sum fun t ht =>
          ((wellFormed_addressTemplates h).2 t ht).size_fill_le hd z (z.host h)
      rw [List.flatMap_cons, sectionSize_append, List.map_cons, List.sum_cons]
      exact Nat.add_le_add haddr ih
  rw [additionalOf_singleton]
  exact Nat.add_le_add (hp.size_fill_le hd z p.owner) (hsize _)

/-- The sections of a conclusion can be written, within 62000 octets. -/
structure Conclusion.Renderable (d : Dnspython) (c : Conclusion) : Prop where
  answer : d.RenderableSection c.answer
  authority : d.RenderableSection c.authority
  additional : d.RenderableSection c.additional
  size : sectionSize c.answer + sectionSize c.authority + sectionSize c.additional ≤ 62000

omit hd in
theorem renderable_empty (aa : Bool) (rcode : UInt16) :
    (⟨aa, rcode, [], [], []⟩ : Conclusion).Renderable d :=
  ⟨renderableSection_nil, renderableSection_nil, renderableSection_nil, Nat.zero_le _⟩

omit hd in
theorem renderable_authority {aa : Bool} {rcode : UInt16} {soa : RRset} (hs : d.RenderableRRset soa)
    (hsize : soa.size ≤ 15500) : (⟨aa, rcode, [], [soa], []⟩ : Conclusion).Renderable d := by
  refine ⟨renderableSection_nil, renderableSection_singleton hs, renderableSection_nil, ?_⟩
  simp only [sectionSize_nil, sectionSize_cons]
  omega

omit hd in
theorem renderable_answer {aa : Bool} {rcode : UInt16} {rs : List RRset} (hs : d.RenderableSection rs)
    (hsize : sectionSize rs ≤ 62000) : (⟨aa, rcode, rs, [], []⟩ : Conclusion).Renderable d := by
  refine ⟨hs, renderableSection_nil, renderableSection_nil, ?_⟩
  simpa using hsize

omit hd in
/-- A DNAME record and the CNAME record synthesised from it. -/
theorem renderableSection_substitution (hd : d.Documented) (h : Host) (owner next : Name) :
    d.RenderableSection [Zone.dname d z h, Zone.synthesised owner next] ∧
      sectionSize [Zone.dname d z h, Zone.synthesised owner next] ≤ 1040 := by
  have hdname := renderable_dname hd z h
  have hcname : d.RenderableRRset (Zone.synthesised owner next) := renderable_synthesised owner next
  refine ⟨renderableSection_append (s := [Zone.dname d z h]) (renderableSection_singleton hdname)
    (renderableSection_singleton hcname) ?_, ?_⟩
  · intro a ha b hb hkey
    rw [List.mem_singleton.mp ha, List.mem_singleton.mp hb] at hkey
    exact absurd hkey.2.1 (by decide : RRType.DNAME ≠ RRType.CNAME)
  · have h1 := size_alias_le hdname (by decide : RRType.DNAME ∈ [RRType.CNAME, RRType.DNAME])
    have h2 := size_alias_le hcname (by decide : RRType.CNAME ∈ [RRType.CNAME, RRType.DNAME])
    simp only [sectionSize_cons, sectionSize_nil]
    omega

theorem renderable_delegation (h : Host) : (Zone.delegation d z h).Renderable d := by
  have hns : d.RenderableRRset
      ⟨z.host h, RRType.NS, RRClass.IN, 0, [[.name (z.below ⟨"ns", by decide⟩ h)]]⟩ :=
    renderable_name (by decide) _ _
  have hA : (Fixture.a [53] 0).WellFormed ∧ (Fixture.a [53] 0).size = 269 :=
    ⟨Fixture.wellFormed_a (by simp) (by simp) (by simp) (by decide), rfl⟩
  have hAAAA : (Fixture.aaaa [0x53] 0).WellFormed ∧ (Fixture.aaaa [0x53] 0).size = 281 :=
    ⟨Fixture.wellFormed_aaaa (by simp) (by simp) (by simp) (by decide), rfl⟩
  have ha := hA.1.renderable hd z (z.below ⟨"ns", by decide⟩ h)
  have haaaa := hAAAA.1.renderable hd z (z.below ⟨"ns", by decide⟩ h)
  have hsizeA := hA.1.size_fill_le hd z (z.below ⟨"ns", by decide⟩ h)
  have hsizeAAAA := hAAAA.1.size_fill_le hd z (z.below ⟨"ns", by decide⟩ h)
  have hsizeNs : (⟨z.host h, RRType.NS, RRClass.IN, 0,
      [[.name (z.below ⟨"ns", by decide⟩ h)]]⟩ : RRset).size ≤ 520 := by
    have howner := (z.host h).legal.total_le
    have htarget := (z.below ⟨"ns", by decide⟩ h).legal.total_le
    simp only [RRset.size, List.map_cons, List.map_nil, List.sum_cons, List.sum_nil, Rdata.size,
      Field.size]
    omega
  refine ⟨renderableSection_nil, renderableSection_singleton hns, ?_, ?_⟩
  · unfold Zone.delegation
    dsimp only
    split_ifs
    · refine renderableSection_append (s := [_]) (renderableSection_singleton ha)
        (renderableSection_singleton haaaa) ?_
      intro x hx y hy hkey
      rw [List.mem_singleton.mp hx, List.mem_singleton.mp hy] at hkey
      exact absurd hkey.2.1 (by decide : RRType.A ≠ RRType.AAAA)
    · exact renderableSection_singleton ha
  · unfold Zone.delegation
    dsimp only
    split_ifs
    all_goals
      simp only [sectionSize_cons, sectionSize_nil]
      omega

theorem size_le_of_mem_node {owner : Name} {key : String} {depth : Nat} {ps : List Placed}
    (hps : Zone.node z owner key depth = some ps) {p : Placed} (hp : p ∈ ps) :
    p.template.WellFormed ∧
      (Zone.rrset d z p).size + sectionSize (Zone.additionalOf d z [p]) ≤ 62000 := by
  have hnode := wellFormedNode_node z owner key depth ps hps
  have hmem : p.template ∈ ps.map Placed.template := List.mem_map_of_mem hp
  have hwf := hnode.templates p.template hmem
  have hfull := List.single_le_sum (by simp) _ (List.mem_map_of_mem (f := Template.fullSize) hmem)
  have hsize := hnode.size
  exact ⟨hwf, Nat.le_trans (sectionSize_additionalOf_le hd z hwf) (Nat.le_trans hfull hsize)⟩

/-- **Every conclusion can be written.** -/
theorem StepCase.renderable {kind : UInt16} {owner : Name} {front : List Label} {key : String}
    {s : Step} (h : StepCase d z kind owner front key s) {c : Conclusion} (hs : s = .stop c) :
    c.Renderable d := by
  cases h with
  | cut =>
    cases hs
    have hfull : Fixture.zoneSoa.size ≤ Fixture.zoneSoa.fullSize := Nat.le_add_right ..
    have hsize := wellFormed_zoneSoa.1.size_fill_le hd z z.zone
    have hle := wellFormed_zoneSoa.2
    exact renderable_authority (wellFormed_zoneSoa.1.renderable hd z z.zone) (by omega)
  | delegation =>
    cases hs
    exact renderable_delegation hd z _
  | refused =>
    cases hs
    exact renderable_empty ..
  | @tooLong h =>
    cases hs
    have hdname := renderable_dname hd z h
    have hsize := size_alias_le hdname (by decide : RRType.DNAME ∈ [RRType.CNAME, RRType.DNAME])
    refine renderable_answer (renderableSection_singleton hdname) ?_
    simp only [sectionSize_cons, sectionSize_nil]
    omega
  | dnameEnd =>
    cases hs
    obtain ⟨hrend, hsize⟩ := renderableSection_substitution z hd _ owner _
    exact renderable_answer hrend (by omega)
  | dnameNext => cases hs
  | absent =>
    cases hs
    obtain ⟨hrend, hsize⟩ := renderable_negativeSoa hd z kind key front.length
    exact renderable_authority hrend hsize
  | cnameEnd _ hps =>
    cases hs
    obtain ⟨hwf, hsize⟩ := size_le_of_mem_node hd z hps (List.mem_singleton_self _)
    refine renderable_answer (renderableSection_singleton (hwf.renderable hd z _)) ?_
    simp only [sectionSize_cons, sectionSize_nil]
    omega
  | cnameNext => cases hs
  | noData =>
    cases hs
    obtain ⟨hrend, hsize⟩ := renderable_negativeSoa hd z kind key front.length
    exact renderable_authority hrend hsize
  | data _ hps _ hp =>
    cases hs
    obtain ⟨hwf, hsize⟩ := size_le_of_mem_node hd z hps hp
    refine ⟨renderableSection_singleton (hwf.renderable hd z _), renderableSection_nil,
      renderableSection_additionalOf hd z hwf, ?_⟩
    simp only [Zone.data, List.map_singleton, sectionSize_cons, sectionSize_nil]
    omega

/-- The aliases in front of a conclusion can be written: they are short, and there are no aliases
behind the first but that of `chain-hop`. -/
theorem ChainCase.renderable {kind : UInt16} {owner last : Name} {chain : List RRset}
    (h : ChainCase d z kind owner chain last) :
    d.RenderableSection chain ∧ sectionSize chain ≤ 1040 ∧
      ∀ r ∈ chain, r.rdtype ∈ [RRType.CNAME, RRType.DNAME] := by
  cases h with
  | here => exact ⟨renderableSection_nil, by simp, by simp⟩
  | @cname p _ hkind hwf =>
    have hp : d.RenderableRRset (Zone.rrset d z p) := hwf.renderable hd z _
    have htype : (Zone.rrset d z p).rdtype ∈ [RRType.CNAME, RRType.DNAME] := by
      rw [rdtype_rrset, hkind]
      decide
    have hsize := size_alias_le hp htype
    refine ⟨renderableSection_singleton hp, ?_, by simpa using htype⟩
    simp only [sectionSize_cons, sectionSize_nil]
    omega
  | @hop p howner hkind hwf _ _ _ hne =>
    have hp : d.RenderableRRset (Zone.rrset d z p) := hwf.renderable hd z _
    have hhop : d.RenderableRRset (Zone.hop d z) :=
      (Fixture.wellFormed_single (by decide) rfl (by decide) :
        (Fixture.target RRType.CNAME aHost).WellFormed).renderable hd z _
    have htype : (Zone.rrset d z p).rdtype ∈ [RRType.CNAME, RRType.DNAME] := by
      rw [rdtype_rrset, hkind]
      decide
    have htype' : (Zone.hop d z).rdtype ∈ [RRType.CNAME, RRType.DNAME] :=
      (by decide : RRType.CNAME ∈ [RRType.CNAME, RRType.DNAME])
    have hsize := size_alias_le hp htype
    have hsize' := size_alias_le hhop htype'
    -- two CNAME records, of different owners
    refine ⟨renderableSection_append (s := [_]) (renderableSection_singleton hp)
      (renderableSection_singleton hhop) ?_, ?_, ?_⟩
    · intro a ha b hb hkey
      rw [List.mem_singleton.mp ha, List.mem_singleton.mp hb] at hkey
      refine hne ?_
      rw [← howner]
      exact hkey.1
    · simp only [sectionSize_cons, sectionSize_nil]
      omega
    · intro r hr
      rcases List.mem_cons.mp hr with rfl | hr
      · exact htype
      · rw [List.mem_singleton.mp hr]
        exact htype'
  | @dname h front next =>
    obtain ⟨hrend, hsize⟩ := renderableSection_substitution z hd h owner last
    refine ⟨hrend, hsize, ?_⟩
    intro r hr
    rcases List.mem_cons.mp hr with rfl | hr
    · exact (by decide : RRType.DNAME ∈ [RRType.CNAME, RRType.DNAME])
    · rw [List.mem_singleton.mp hr]
      exact (by decide : RRType.CNAME ∈ [RRType.CNAME, RRType.DNAME])

/-- **Every answer can be written**, within 63040 octets. -/
theorem Resolves.renderable {n : Nat} {kind : UInt16} {owner : Name} {chain : List RRset}
    {c : Conclusion} (h : Resolves d z kind n owner chain c) :
    d.RenderableSection (chain ++ c.answer) ∧ d.RenderableSection c.authority ∧
      d.RenderableSection c.additional ∧
      sectionSize (chain ++ c.answer) + sectionSize c.authority + sectionSize c.additional
        ≤ 63040 := by
  obtain ⟨last, front, key, -, hkey, hstep, hchain, hend⟩ := h.chain_cases
  have hc := (step_cases d z kind last front key).renderable hd z hstep
  obtain ⟨hrend, hsize, haliases⟩ := hchain.renderable hd z
  have htotal := hc.size
  refine ⟨?_, hc.authority, hc.additional, ?_⟩
  · rcases hend with rfl | hend
    · exact hc.answer
    refine renderableSection_append hrend hc.answer ?_
    intro a ha b hb hsame
    -- what ends a chain is no alias
    have hanswer : b.rdtype ∈ [RRType.A, RRType.AAAA] := by
      rcases hend.stop_cases hkey hstep with rfl | ⟨p, rfl, -, hp, -⟩
      · cases hb
      · rw [List.mem_singleton.mp hb]
        exact hp
    have halias := haliases a ha
    rw [hsame.2.1] at halias
    exact (by decide : ∀ t ∈ [RRType.A, RRType.AAAA], t ∉ [RRType.CNAME, RRType.DNAME]) _ hanswer
      halias
  · rw [sectionSize_append]
    omega

end

end DnsFixtures
