import DnsFixtures.Dns.Authority
import DnsFixtures.Equiv.Confinement
import DnsFixtures.Equiv.Consistency
import DnsFixtures.Equiv.Existence
import DnsFixtures.Equiv.Shape

/-!
# The database behind the replies

`database d z` holds every record that the fixtures have for a nonce: the catalogue under its hosts
and everywhere below the hosts of `descendantKeys`, and two delegations.  `database_wellFormed`: these
are well-formed zones, in which every host that a record names has addresses.
-/

namespace DnsFixtures

open Dns

/-! ### The database -/

/-- The fixtures have this RRset. -/
inductive Holds (d : Dnspython) (z : Nonce) : RRset → Prop
  | node {owner : Name} {front : List Label} {key : String} {ps : List Placed} {p : Placed} :
      InZone z owner front → keyOf front = some key →
      Zone.node z owner key front.length = some ps → p ∈ ps → Holds d z (Zone.rrset d z p)
  | delegation {h : Host} {r : RRset} : h ∈ referralHosts → r ∈ (Zone.delegation d z h).authority →
      Holds d z r
  | glue {h : Host} {r : RRset} : h ∈ referralHosts → r ∈ (Zone.delegation d z h).additional →
      Holds d z r

/-- What the service holds for a nonce.  Names below `refused` are not served. -/
def database (d : Dnspython) (z : Nonce) : Database where
  records := {r | Holds d z r}
  apexes := {a | ∃ b ∈ servedApexes z, a.SameAs b}
  served := {n | ∃ front key, InZone z n front ∧ keyOf front = some key ∧ key ≠ "refused"}

/-! ### The catalogue by types -/

/-- Name servers are at apexes, DNAMEs at their hosts, and nothing is at a delegation. -/
structure Sorted (key : String) (ts : List Template) : Prop where
  ne_nil : ts ≠ []
  ns : ∀ t ∈ ts, t.kind = RRType.NS → key ∈ childApexes.map Host.text
  dname : ∀ t ∈ ts, t.kind = RRType.DNAME → key ∈ dnameHosts.map Host.text
  referral : key ∉ referralHosts.map Host.text

theorem sorted_fixture (key : String) : ∀ ts ∈ fixture key, Sorted key ts := by
  intro ts hts
  have hkeys : ∀ key ∈ fixtureKeys, ∀ ts ∈ fixture key, ts ≠ [] ∧
      (∀ t ∈ ts, t.kind = RRType.NS → key ∈ childApexes.map Host.text) ∧
      (∀ t ∈ ts, t.kind = RRType.DNAME → key ∈ dnameHosts.map Host.text) ∧
      key ∉ referralHosts.map Host.text := by decide +kernel
  obtain ⟨h1, h2, h3, h4⟩ := hkeys key (mem_fixtureKeys hts) ts hts
  exact ⟨h1, h2, h3, h4⟩

theorem eq_of_mem_map_text {hosts : List Host} {key : String} (h : key ∈ hosts.map Host.text) :
    ∃ g ∈ hosts, key = g.text := by
  obtain ⟨g, hg, rfl⟩ := List.mem_map.mp h
  exact ⟨g, hg, rfl⟩

section

variable {d : Dnspython} {z : Nonce} {kind : UInt16} {n : Name} {front : List Label} {key : String}

/-- A name with data is the apex, or has a key of the catalogue. -/
theorem node_cases {ps : List Placed} (hps : Zone.node z n key front.length = some ps) :
    (front = [] ∧ ps = [⟨z.zone, Fixture.zoneSoa⟩, ⟨n, Fixture.ns⟩]) ∨
      front ≠ [] ∧ key ≠ "apex" ∧ (front.length = 1 ∨ key ∈ descendantKeys) ∧
        ∃ ts, fixture key = some ts ∧ ps = ts.map (Placed.mk n) := by
  unfold Zone.node at hps
  split_ifs at hps with h0 hno
  · cases hps
    exact Or.inl ⟨List.length_eq_zero_iff.mp h0, rfl⟩
  · obtain ⟨ts, hts, rfl⟩ := Option.map_eq_some_iff.mp hps
    refine Or.inr ⟨fun hnil => h0 (by rw [hnil]; rfl), fun h => hno (Or.inl h), ?_, ts, hts, rfl⟩
    by_contra hdeep
    rw [not_or] at hdeep
    exact hno (Or.inr hdeep)

theorem node_ne_nil {ps : List Placed} (hps : Zone.node z n key front.length = some ps) : ps ≠ [] := by
  rcases node_cases hps with ⟨-, rfl⟩ | ⟨-, -, -, ts, hts, rfl⟩
  · exact List.cons_ne_nil _ _
  · exact mt List.map_eq_nil_iff.mp (sorted_fixture key ts hts).ne_nil

/-- A delegated name has no data. -/
theorem node_referral {h : Host} (hmem : h ∈ referralHosts) (hf : front ≠ []) :
    Zone.node z n h.text front.length = none := by
  cases hps : Zone.node z n h.text front.length with
  | none => rfl
  | some ps =>
    rcases node_cases hps with ⟨hnil, -⟩ | ⟨-, -, -, ts, hts, -⟩
    · exact absurd hnil hf
    · exact absurd (List.mem_map_of_mem hmem) (sorted_fixture _ ts hts).referral

/-! ### The records of a name -/

/-- The RRset is among the data of the name, or part of a delegation. -/
inductive HeldAt (d : Dnspython) (z : Nonce) (n : Name) (front : List Label) (key : String)
    (r : RRset) : Prop
  | node {ps : List Placed} {p : Placed} : Zone.node z n key front.length = some ps → p ∈ ps →
      r.SameAs (Zone.rrset d z p) → HeldAt d z n front key r
  | delegation {h : Host} : h ∈ referralHosts → key = h.text → front.length = 1 →
      r ∈ (Zone.delegation d z h).authority → HeldAt d z n front key r
  | glue {h : Host} : h ∈ referralHosts → key = h.text → front.length ≠ 1 →
      r ∈ (Zone.delegation d z h).additional → HeldAt d z n front key r

theorem sameAs_of_rel {r r' : RRset} (h : r.Rel Name.SameAs r') : r.SameAs r' := by
  have hfield : ∀ f g : Field, f.Rel Name.SameAs g → f.SameAs g := by
    intro f g hfg
    cases f <;> cases g <;> exact hfg
  exact ⟨h.name, h.rdtype, h.rdclass, h.ttl, _, List.Perm.refl _,
    h.rdatas.imp fun _ _ hx => hx.imp fun f g => hfield f g⟩

/-- However a name is spelled, it has the same data. -/
theorem exists_mem_node {owner : Name} {front' : List Label} {key' : String} {ps : List Placed}
    {p : Placed} (hz' : InZone z owner front') (hkey' : keyOf front' = some key')
    (hps : Zone.node z owner key' front'.length = some ps) (hp : p ∈ ps) (hn : owner.SameAs n) :
    ∃ front, InZone z n front ∧ keyOf front = some key' ∧ front.length = front'.length ∧
      ∃ qs, Zone.node z n key' front.length = some qs ∧ ∃ q ∈ qs, q.template = p.template ∧
        (Zone.rrset d z p).SameAs (Zone.rrset d z q) := by
  obtain ⟨front, hpar⟩ := parallel_of_sameAs hz' hn
  have halike := node_alike key' (alongside_self z) hpar front'.length
  rw [hps, hpar.length_eq] at halike
  cases hqs : Zone.node z n key' front.length with
  | none =>
    rw [hqs] at halike
    cases halike
  | some qs =>
    rw [hqs] at halike
    cases halike with
    | some hall =>
      obtain ⟨q, hq, hpq⟩ := forall₂_exists_of_mem hall hp
      refine ⟨front, hpar.inZone_right (alongside_self z), ?_, hpar.length_eq.symm, qs, hqs, q, hq,
        hpq.template.symm, ?_⟩
      · rw [← hpar.keyOf_eq (alongside_self z), hkey']
      · exact sameAs_of_rel ((rel_rrset d (alongside_self z) hpq).mono fun _ _ => sameAs_of_twin)

theorem inZone_below (z : Nonce) (g h : Host) : InZone z (z.below g h) ([g.label] ++ [h.label]) :=
  ⟨z.labels, rfl, z.foldCase_labels⟩

theorem mem_authority_delegation {h : Host} {r : RRset}
    (hr : r ∈ (Zone.delegation d z h).authority) : r.name = z.host h ∧ r.rdtype = RRType.NS ∧
      r.hosts = [z.below ⟨"ns", by decide⟩ h] := by
  rw [List.mem_singleton.mp hr]
  exact ⟨rfl, rfl, rfl⟩

theorem Holds.heldAt {r : RRset} (h : Holds d z r) (hn : r.name.SameAs n) :
    ∃ front key, InZone z n front ∧ keyOf front = some key ∧ HeldAt d z n front key r := by
  cases h with
  | @node owner front' key' ps p hz' hkey' hps hp =>
    have howner : owner.SameAs n := (sameAs_of_mem_node hz' hps hp).symm.trans hn
    obtain ⟨front, hz, hkey, -, qs, hqs, q, hq, -, hsame⟩ :=
      exists_mem_node (d := d) hz' hkey' hps hp howner
    exact ⟨front, key', hz, hkey, .node hqs hq hsame⟩
  | @delegation h _ hmem hr =>
    obtain ⟨hname, -⟩ := mem_authority_delegation hr
    rw [hname] at hn
    obtain ⟨front, hz, hkey⟩ := (z.inZone_host h).of_sameAs hn
    rw [← List.nil_append [h.label], keyOf_host] at hkey
    have hone : front.length = 1 := by
      obtain ⟨l, rfl, -⟩ := (sameAs_host_iff hz).mp hn.symm
      rfl
    exact ⟨front, h.text, hz, hkey, .delegation hmem rfl hone hr⟩
  | @glue h _ hmem hr =>
    obtain ⟨hname, -⟩ := mem_additional_delegation hr
    rw [hname] at hn
    obtain ⟨front, hz, hkey⟩ := (inZone_below z ⟨"ns", by decide⟩ h).of_sameAs hn
    rw [keyOf_host] at hkey
    refine ⟨front, h.text, hz, hkey, .glue hmem rfl (fun hone => ?_) hr⟩
    obtain ⟨l, rfl⟩ := List.length_eq_one_iff.mp hone
    -- `ns` stands in front of the name that is delegated
    have hlen := hn.length_eq
    obtain ⟨suffix, hlabels, hsuffix⟩ := hz.labels
    rw [hlabels, List.length_append, ← length_foldCase suffix, hsuffix] at hlen
    have hbelow : (z.below ⟨"ns", by decide⟩ h).labels.length = z.labels.length + 2 := rfl
    rw [hbelow, List.length_singleton] at hlen
    omega

/-- A record stands at a name of the zone. -/
theorem Holds.inZone {r : RRset} (h : Holds d z r) : ∃ front key, InZone z r.name front ∧
    keyOf front = some key ∧ HeldAt d z r.name front key r := h.heldAt (Name.SameAs.refl _)

theorem HeldAt.unique {r : RRset} {front' : List Label} {key' : String}
    (h : HeldAt d z n front' key' r) (hz' : InZone z n front') (hkey' : keyOf front' = some key')
    (hz : InZone z n front) (hkey : keyOf front = some key) : HeldAt d z n front key r := by
  obtain ⟨rfl, rfl⟩ := hz.key_unique hkey hz' hkey'
  exact h

/-- The records at a name. -/
theorem heldAt_of_owns {r : RRset} (h : (database d z).Owns n r) (hz : InZone z n front)
    (hkey : keyOf front = some key) : HeldAt d z n front key r := by
  obtain ⟨front', key', hz', hkey', hheld⟩ := Holds.heldAt h.mem h.name
  exact hheld.unique hz' hkey' hz hkey

/-! ### The zones are well formed -/

theorem rdtype_of_mem_glue {h : Host} {r : RRset} (hr : r ∈ (Zone.delegation d z h).additional) :
    r.rdtype ≠ RRType.NS ∧ r.rdtype ≠ RRType.DNAME ∧ r.rdtype ≠ RRType.CNAME :=
  (by decide : ∀ t ∈ [RRType.A, RRType.AAAA],
    t ≠ RRType.NS ∧ t ≠ RRType.DNAME ∧ t ≠ RRType.CNAME) _ (mem_additional_delegation hr).2

theorem mem_apexes_zone {a : Name} (h : a.SameAs z.zone) : a ∈ (database d z).apexes :=
  ⟨z.zone, mem_servedApexes.mpr (Or.inl rfl), h⟩

theorem mem_apexes_host {a : Name} {h : Host} (hmem : h ∈ childApexes) (ha : a.SameAs (z.host h)) :
    a ∈ (database d z).apexes := ⟨z.host h, mem_servedApexes.mpr (Or.inr ⟨h, hmem, rfl⟩), ha⟩

/-- Name servers are those of an apex or of a delegation. -/
theorem HeldAt.ns {r : RRset} (h : HeldAt d z n front key r) (hz : InZone z n front)
    (hkey : keyOf front = some key) (hns : r.rdtype = RRType.NS) (hn : r.name.SameAs n) :
    r.name ∈ (database d z).apexes ∨ ∃ g ∈ referralHosts, key = g.text ∧ front.length = 1 ∧
      r ∈ (Zone.delegation d z g).authority := by
  cases h with
  | @node ps p hps hp hsame =>
    refine Or.inl ?_
    rcases node_cases hps with ⟨rfl, -⟩ | ⟨hf, -, hdepth, ts, hts, rfl⟩
    · exact mem_apexes_zone (hn.trans ((sameAs_zone_iff hz).mpr rfl))
    · obtain ⟨t, ht, rfl⟩ := List.mem_map.mp hp
      obtain ⟨g, hg, rfl⟩ := eq_of_mem_map_text
        ((sorted_fixture key ts hts).ns t ht (hsame.rdtype.symm.trans hns))
      have hone : front.length = 1 := hdepth.resolve_right
        ((by decide : ∀ g ∈ childApexes, g.text ∉ descendantKeys) g hg)
      exact mem_apexes_host hg (hn.trans ((sameAs_host_of_key hz hf hkey).mpr hone))
  | delegation hmem hkey' hone hr => exact Or.inr ⟨_, hmem, hkey', hone, hr⟩
  | glue _ _ _ hr => exact absurd hns (rdtype_of_mem_glue hr).1

/-- The DNAME records of the catalogue. -/
theorem eq_of_mem_node_dname {ps : List Placed} (hps : Zone.node z n key front.length = some ps)
    {p : Placed} (hp : p ∈ ps) (hk : p.template.kind = RRType.DNAME) :
    ∃ g ∈ dnameHosts, key = g.text ∧ front ≠ [] ∧ front.length = 1 ∧
      p = ⟨n, Fixture.target RRType.DNAME ⟨"target-tree", by decide⟩⟩ := by
  rcases node_cases hps with ⟨rfl, rfl⟩ | ⟨hf, -, hdepth, ts, hts, rfl⟩
  · have htypes : ∀ t ∈ [Fixture.zoneSoa, Fixture.ns], t.kind ≠ RRType.DNAME := by decide
    exact absurd hk (htypes p.template (List.mem_map_of_mem hp))
  · obtain ⟨t, ht, rfl⟩ := List.mem_map.mp hp
    obtain ⟨g, hg, rfl⟩ := eq_of_mem_map_text ((sorted_fixture key ts hts).dname t ht hk)
    -- the only record of such a host
    have hsingle : fixture g.text
        = some [Fixture.target RRType.DNAME ⟨"target-tree", by decide⟩] := by
      unfold fixture
      rw [if_pos ((by decide : ∀ g ∈ dnameHosts, g.text ∈ DNAME_KEYS) g hg)]
    rw [hsingle] at hts
    cases hts
    obtain rfl := List.mem_singleton.mp ht
    exact ⟨g, hg, rfl, hf, hdepth.resolve_right
      ((by decide : ∀ g ∈ dnameHosts, g.text ∉ descendantKeys) g hg), rfl⟩

/-- DNAMEs are those of their hosts. -/
theorem HeldAt.dname {r : RRset} (h : HeldAt d z n front key r) (hz : InZone z n front)
    (hkey : keyOf front = some key) (hdname : r.rdtype = RRType.DNAME) :
    ∃ g ∈ dnameHosts, key = g.text ∧ n.SameAs (z.host g) := by
  cases h with
  | node hps hp hsame =>
    obtain ⟨g, hg, rfl, hf, hone, -⟩ :=
      eq_of_mem_node_dname hps hp (hsame.rdtype.symm.trans hdname)
    exact ⟨g, hg, rfl, (sameAs_host_of_key hz hf hkey).mpr hone⟩
  | delegation _ _ _ hr =>
    rw [(mem_authority_delegation hr).2.1] at hdname
    exact absurd hdname (by decide)
  | glue _ _ _ hr => exact absurd hdname (rdtype_of_mem_glue hr).2.1

/-- Two RRsets of one name and type. -/
theorem HeldAt.coherent {r r' : RRset} (h : HeldAt d z n front key r) (hf : front ≠ [] ∨ key = "apex")
    (h' : HeldAt d z n front key r') (hkind : r.rdtype = r'.rdtype) : r.SameAs r' := by
  have hnone : ∀ {g : Host} {ps : List Placed}, g ∈ referralHosts → key = g.text →
      Zone.node z n key front.length ≠ some ps := by
    intro g ps hg hgkey hps
    subst hgkey
    have hne : front ≠ [] := hf.resolve_right
      ((by decide : ∀ g ∈ referralHosts, g.text ≠ "apex") g hg)
    rw [node_referral hg hne] at hps
    cases hps
  cases h with
  | @node ps p hps hp hsame =>
    cases h' with
    | @node ps' p' hps' hp' hsame' =>
      rw [hps] at hps'
      cases hps'
      have hkinds := (wellFormedNode_node z n key front.length ps hps).kinds
      rw [List.map_map] at hkinds
      have hpp' : p = p' := List.inj_on_of_nodup_map hkinds hp hp'
        (hsame.rdtype.symm.trans (hkind.trans hsame'.rdtype))
      exact hsame.trans (hpp' ▸ hsame'.symm)
    | delegation hg hgkey => exact absurd hps (hnone hg hgkey)
    | glue hg hgkey => exact absurd hps (hnone hg hgkey)
  | @delegation g hg hgkey hone hr =>
    cases h' with
    | node hps => exact absurd hps (hnone hg hgkey)
    | @delegation g' _ hgkey' _ hr' =>
      obtain rfl := host_eq_of_text (hgkey.symm.trans hgkey')
      rw [List.mem_singleton.mp hr, List.mem_singleton.mp hr']
      exact RRset.SameAs.refl _
    | glue _ _ hno => exact absurd hone hno
  | @glue g hg hgkey hno hr =>
    cases h' with
    | node hps => exact absurd hps (hnone hg hgkey)
    | delegation _ _ hone => exact absurd hone hno
    | @glue g' _ hgkey' _ hr' =>
      obtain rfl := host_eq_of_text (hgkey.symm.trans hgkey')
      -- A and AAAA
      have hadditional : ∀ {r : RRset}, r ∈ (Zone.delegation d z g).additional →
          r = (Fixture.a [53] 0).fill d z (z.below ⟨"ns", by decide⟩ g) ∨
          r = (Fixture.aaaa [0x53] 0).fill d z (z.below ⟨"ns", by decide⟩ g) := by
        intro r hr
        rcases List.mem_cons.mp hr with rfl | hr
        · exact Or.inl rfl
        · split_ifs at hr
          · exact Or.inr (List.mem_singleton.mp hr)
          · cases hr
      have htypes : RRType.A ≠ RRType.AAAA := by decide
      rcases hadditional hr with rfl | rfl
      · rcases hadditional hr' with rfl | rfl
        · exact RRset.SameAs.refl _
        · exact absurd hkind htypes
      · rcases hadditional hr' with rfl | rfl
        · exact absurd hkind.symm htypes
        · exact RRset.SameAs.refl _

/-! ### Addresses -/

theorem holds_of_host {h : Host} (hapex : h.text ≠ "apex") {ts : List Template}
    (hts : fixture h.text = some ts) {t : Template} (ht : t ∈ ts) :
    Holds d z (t.fill d z (z.host h)) := by
  have hps : Zone.node z (z.host h) h.text [h.label].length
      = some (ts.map (Placed.mk (z.host h))) := by
    rw [List.length_singleton, node_of_depth_pos (by decide) hapex (Or.inl rfl), hts]
    rfl
  exact .node (z.inZone_host h) (keyOf_host [] h) hps (List.mem_map_of_mem ht)

/-- The addresses of a host are all that the fixtures have. -/
theorem addresses_spec {h : Host} (hmem : h.text ∈ addressKeys) :
    (∀ r ∈ Zone.addresses d z h, Holds d z r ∧ r.rdtype ∈ [RRType.A, RRType.AAAA] ∧
      r.name = z.host h) ∧
    ∀ r, Holds d z r → r.rdtype ∈ [RRType.A, RRType.AAAA] → r.name.SameAs (z.host h) →
      ∃ r' ∈ Zone.addresses d z h, r'.SameAs r := by
  obtain ⟨ts, hts, -⟩ := fixture_addressKey h.text hmem
  have hts : fixture h.text = some ts := hts
  have hapex := ne_apex_of_mem_addressKeys hmem
  refine ⟨fun r hr => ?_, fun r hr hkind hname => ?_⟩
  · obtain ⟨t, ht, rfl⟩ := List.mem_map.mp hr
    rw [hts, Option.getD_some, List.mem_filter, decide_eq_true_eq] at ht
    exact ⟨holds_of_host hapex hts ht.1, ht.2, rfl⟩
  · obtain ⟨front, key, hz, hkey, hheld⟩ := hr.heldAt hname
    have hheld := hheld.unique hz hkey (z.inZone_host h) (keyOf_host [] h)
    cases hheld with
    | node hps hp hsame =>
      rcases node_cases hps with ⟨hnil, -⟩ | ⟨-, -, -, ts', hts', rfl⟩
      · cases hnil
      · rw [hts] at hts'
        cases hts'
        obtain ⟨t, ht, rfl⟩ := List.mem_map.mp hp
        refine ⟨t.fill d z (z.host h), List.mem_map_of_mem ?_, hsame.symm⟩
        rw [hts, Option.getD_some, List.mem_filter, decide_eq_true_eq]
        have hrdtype : r.rdtype = t.kind := hsame.rdtype
        exact ⟨ht, hrdtype ▸ hkind⟩
    | delegation _ _ _ hr' =>
      rw [(mem_authority_delegation hr').2.1] at hkind
      exact absurd hkind (by decide)
    | glue _ _ hno => exact absurd rfl hno

theorem addresses_ne_nil {h : Host} (hmem : h.text ∈ addressKeys) : Zone.addresses d z h ≠ [] := by
  have hkeys : ∀ key ∈ addressKeys, ((fixture key).getD []).filter
      (fun t => t.kind ∈ [RRType.A, RRType.AAAA]) ≠ [] := by decide +kernel
  exact mt List.map_eq_nil_iff.mp (hkeys h.text hmem)

/-- The hosts of a record of the catalogue. -/
theorem hosts_fill {t : Template} (ht : t.WellFormed) (o : Name) :
    (t.fill d z o).hosts = t.additionalHosts.map z.host := by
  unfold RRset.hosts Template.additionalHosts
  by_cases hk : t.kind ∈ [RRType.NS, RRType.MX, RRType.SRV]
  · have htargets : ∀ ps ∈ t.data, Rdata.target? (ps.map (Part.fill d z o))
        = (targetHost ps).map z.host := by
      intro ps hps
      obtain ⟨h, hh, -⟩ := ht.targets hk ps hps
      rw [Option.mem_def.mp hh, target?_fill d z o hh, Option.map_some]
    rw [if_pos hk, if_pos (show (t.fill d z o).rdtype ∈ _ from hk), Template.fill,
      List.filterMap_map, List.map_filterMap]
    exact List.filterMap_congr htargets
  · rw [if_neg hk, if_neg (show (t.fill d z o).rdtype ∉ _ from hk), List.map_nil]

theorem addresses_of_hosts_nil {r : RRset} (h : r.rdtype ∉ [RRType.NS, RRType.MX, RRType.SRV]) :
    (database d z).Addresses r.hosts [] := by
  have hnil : r.hosts = [] := by rw [RRset.hosts, if_neg h]
  rw [hnil]
  exact ⟨fun _ hr => absurd hr List.not_mem_nil,
    fun _ _ _ ⟨_, hh, _⟩ => absurd hh List.not_mem_nil, .nil⟩

theorem addresses_data (hd : d.Documented) {p : Placed} (hp : p.template.WellFormed) :
    (database d z).Addresses (Zone.rrset d z p).hosts (Zone.additionalOf d z [p]) := by
  have hkeys := (renderableSection_additionalOf hd z hp).keys
  rw [Zone.rrset, hosts_fill hp]
  rw [additionalOf_singleton] at hkeys ⊢
  refine ⟨fun r hr => ?_, fun r hr hkind hname => ?_, hkeys⟩
  · obtain ⟨h, hh, hr⟩ := List.mem_flatMap.mp hr
    obtain ⟨hholds, hkind, hname⟩ :=
      (addresses_spec (d := d) (z := z) (mem_addressKeys_of_mem hp hh)).1 r hr
    exact ⟨hholds, hkind, z.host h, List.mem_map_of_mem hh, hname ▸ Name.SameAs.refl _⟩
  · obtain ⟨_, hh, hname⟩ := hname
    obtain ⟨h, hmem, rfl⟩ := List.mem_map.mp hh
    obtain ⟨r', hr', hsame⟩ := (addresses_spec (mem_addressKeys_of_mem hp hmem)).2 r hr hkind hname
    exact ⟨r', List.mem_flatMap.mpr ⟨h, hmem, hr'⟩, hsame⟩

theorem addresses_delegation {h : Host} (hmem : h ∈ referralHosts) {r : RRset}
    (hr : r ∈ (Zone.delegation d z h).authority) :
    (database d z).Addresses r.hosts (Zone.delegation d z h).additional := by
  rw [(mem_authority_delegation hr).2.2]
  refine ⟨fun g hg => ?_, fun g hg hkind hname => ?_, ?_⟩
  · obtain ⟨hname, hkind⟩ := mem_additional_delegation hg
    exact ⟨.glue hmem hg, hkind, _, List.mem_cons_self, hname ▸ Name.SameAs.refl _⟩
  · obtain ⟨_, hh, hname⟩ := hname
    rw [List.mem_singleton.mp hh] at hname
    obtain ⟨front, key, hz, hkey, hheld⟩ := Holds.heldAt hg hname
    have hheld := hheld.unique hz hkey (inZone_below z ⟨"ns", by decide⟩ h) (keyOf_host _ h)
    cases hheld with
    | node hps =>
      rw [node_referral hmem (by simp)] at hps
      cases hps
    | delegation _ _ hone => cases hone
    | @glue h' _ htext _ hg' =>
      obtain rfl := host_eq_of_text htext
      exact ⟨g, hg', RRset.SameAs.refl g⟩
  · have htypes : ¬ RRType.A = RRType.AAAA := by decide
    show List.Pairwise _ (_ :: _)
    split_ifs
    · refine .cons (fun b hb hkey => ?_) (.cons (by simp) .nil)
      rw [List.mem_singleton.mp hb] at hkey
      exact htypes hkey.2.1
    · exact .cons (by simp) .nil

/-! ### Well-formed zones -/

theorem ne_nil_or_apex (hkey : keyOf front = some key) : front ≠ [] ∨ key = "apex" := by
  rcases List.eq_nil_or_concat front with rfl | ⟨init, l, rfl⟩
  · exact Or.inr (Option.some.inj hkey).symm
  · exact Or.inl (by simp)

/-- The key of a name below a host is that host. -/
theorem key_of_isSubdomain {g : Host} (hz : InZone z n front) (hkey : keyOf front = some key)
    (h : n.IsSubdomain (z.host g)) : front ≠ [] ∧ key = g.text := by
  have hf : front ≠ [] := by
    rintro rfl
    have hlen := h.length_le
    obtain ⟨suffix, hlabels, hsuffix⟩ := hz.labels
    rw [hlabels, List.nil_append, hsuffix, length_foldCase] at hlen
    exact absurd hlen (by show ¬ (g.label :: z.labels).length ≤ _; simp)
  rw [isSubdomain_host_iff hz hf, hkey] at h
  exact ⟨hf, Option.some.inj h⟩

theorem Holds.rdclass {r : RRset} (h : Holds d z r) : r.rdclass = RRClass.IN := by
  cases h with
  | node => rfl
  | delegation hmem hr => exact (lasts_delegation hmem (List.mem_append_left _ hr)).rdclass
  | glue hmem hr => exact (lasts_delegation hmem (List.mem_append_right _ hr)).rdclass

theorem Holds.target {r : RRset} (h : Holds d z r)
    (hkind : r.rdtype ∈ [RRType.CNAME, RRType.DNAME]) : ∃ target, r.rdatas = [[.name target]] := by
  cases h with
  | @node owner front key ps p hz hkey hps hp =>
    have hnode := wellFormedNode_node z owner key front.length ps hps
    have hmem := List.mem_map_of_mem hp (f := Placed.template)
    rcases List.mem_cons.mp hkind with hcname | hdname
    · obtain ⟨-, g, hg, -⟩ := hnode.cname p.template hmem hcname
      exact ⟨z.host g, rdatas_cname (hnode.templates _ hmem) hcname hg⟩
    · obtain ⟨-, -, -, -, -, rfl⟩ := eq_of_mem_node_dname hps hp (List.mem_singleton.mp hdname)
      exact ⟨_, rfl⟩
  | delegation _ hr =>
    rw [(mem_authority_delegation hr).2.1] at hkind
    exact absurd hkind (by decide)
  | glue _ hr =>
    exact absurd hkind ((by decide : ∀ t ∈ [RRType.A, RRType.AAAA],
      t ∉ [RRType.CNAME, RRType.DNAME]) _ (mem_additional_delegation hr).2)

/-- Beside a CNAME there is nothing. -/
theorem HeldAt.cname_alone {r r' : RRset} (h : HeldAt d z n front key r)
    (hf : front ≠ [] ∨ key = "apex") (h' : HeldAt d z n front key r')
    (hcname : r.rdtype = RRType.CNAME) : r'.rdtype = RRType.CNAME := by
  cases h with
  | @node ps p hps hp hsame =>
    have hkind : p.template.kind = RRType.CNAME := hsame.rdtype.symm.trans hcname
    obtain ⟨hone, -⟩ := (wellFormedNode_node z n key front.length ps hps).cname p.template
      (List.mem_map_of_mem hp) hkind
    cases h' with
    | @node ps' p' hps' hp' hsame' =>
      rw [hps] at hps'
      cases hps'
      have htemplate : p'.template ∈ [p.template] := hone ▸ List.mem_map_of_mem hp'
      rw [hsame'.rdtype, ← hkind, ← List.mem_singleton.mp htemplate]
      rfl
    | @delegation g hg hgkey =>
      subst hgkey
      rw [node_referral hg (hf.resolve_right
        ((by decide : ∀ g ∈ referralHosts, g.text ≠ "apex") g hg))] at hps
      cases hps
    | @glue g hg hgkey =>
      subst hgkey
      rw [node_referral hg (hf.resolve_right
        ((by decide : ∀ g ∈ referralHosts, g.text ≠ "apex") g hg))] at hps
      cases hps
  | delegation _ _ _ hr =>
    rw [(mem_authority_delegation hr).2.1] at hcname
    exact absurd hcname (by decide)
  | glue _ _ _ hr => exact absurd hcname (rdtype_of_mem_glue hr).2.2

/-- Below a DNAME there is nothing. -/
theorem HeldAt.sameAs_of_dname {r' : RRset} {g : Host} (h' : HeldAt d z n front key r')
    (hz : InZone z n front) (hkey : keyOf front = some key) (hg : g ∈ dnameHosts)
    (hsub : n.IsSubdomain (z.host g)) : n.SameAs (z.host g) := by
  obtain ⟨hf, rfl⟩ := key_of_isSubdomain hz hkey hsub
  have hapart : ∀ g ∈ dnameHosts, g.text ∉ descendantKeys ∧ ∀ h ∈ referralHosts, g.text ≠ h.text := by
    decide
  obtain ⟨h1, h2⟩ := hapart g hg
  cases h' with
  | node hps =>
    rcases node_cases hps with ⟨hnil, -⟩ | ⟨-, -, hdepth, -⟩
    · exact absurd hnil hf
    · exact (sameAs_host_of_key hz hf hkey).mpr (hdepth.resolve_right h1)
  | delegation hh htext => exact absurd htext (h2 _ hh)
  | glue hh htext => exact absurd htext (h2 _ hh)

/-- At a cut there is the delegation, and below it there is its glue. -/
theorem HeldAt.cut_bare {r' : RRset} {g : Host} (h' : HeldAt d z n front key r')
    (hz : InZone z n front) (hkey : keyOf front = some key) (hg : g ∈ referralHosts)
    (hsub : n.IsSubdomain (z.host g)) :
    if n.SameAs (z.host g) then r'.rdtype = RRType.NS else r'.rdtype ∈ [RRType.A, RRType.AAAA] := by
  obtain ⟨hf, rfl⟩ := key_of_isSubdomain hz hkey hsub
  rw [if_congr (sameAs_host_of_key hz hf hkey) rfl rfl]
  cases h' with
  | node hps =>
    rw [node_referral hg hf] at hps
    cases hps
  | delegation _ _ hone hr =>
    rw [if_pos hone]
    exact (mem_authority_delegation hr).2.1
  | glue _ _ hno hr =>
    rw [if_neg hno]
    exact (mem_additional_delegation hr).2

/-- An apex has an SOA record and name servers. -/
theorem exists_owns_apex {a : Name} (ha : a ∈ (database d z).apexes) {t : UInt16}
    (ht : t ∈ [RRType.SOA, RRType.NS]) : ∃ r, (database d z).Owns a r ∧ r.rdtype = t := by
  obtain ⟨b, hb, hab⟩ := ha
  rcases mem_servedApexes.mp hb with rfl | ⟨h, hh, rfl⟩
  · have hps : Zone.node z z.zone "apex" ([] : List Label).length
        = some [⟨z.zone, Fixture.zoneSoa⟩, ⟨z.zone, Fixture.ns⟩] := rfl
    rcases List.mem_cons.mp ht with rfl | ht
    · exact ⟨_, ⟨.node z.inZone_zone keyOf_nil hps List.mem_cons_self, hab.symm⟩, rfl⟩
    · obtain rfl := List.mem_singleton.mp ht
      exact ⟨_, ⟨.node z.inZone_zone keyOf_nil hps (List.mem_cons_of_mem _ List.mem_cons_self),
        hab.symm⟩, rfl⟩
  · have hkinds : ∀ h ∈ childApexes, ∀ t ∈ [RRType.SOA, RRType.NS],
        ∃ x ∈ (fixture h.text).getD [], x.kind = t := by decide +kernel
    obtain ⟨hapex, -, -, ts, hts, -⟩ := childApex_cases h hh
    obtain ⟨x, hx, rfl⟩ := hkinds h hh t ht
    rw [hts, Option.getD_some] at hx
    exact ⟨_, ⟨holds_of_host hapex hts hx, hab.symm⟩, rfl⟩

/-- The hosts of a record have addresses. -/
theorem Holds.exists_address {r : RRset} (h : Holds d z r) {host : Name} (hh : host ∈ r.hosts) :
    ∃ r', (database d z).Owns host r' ∧ r'.rdtype ∈ [RRType.A, RRType.AAAA] := by
  cases h with
  | @node owner front key ps p hz hkey hps hp =>
    have hwf := (wellFormedNode_node z owner key front.length ps hps).templates _
      (List.mem_map_of_mem hp)
    rw [Zone.rrset, hosts_fill hwf] at hh
    obtain ⟨g, hg, rfl⟩ := List.mem_map.mp hh
    have hmem := mem_addressKeys_of_mem hwf hg
    obtain ⟨r', hr'⟩ := List.exists_mem_of_ne_nil _ (addresses_ne_nil (d := d) (z := z) hmem)
    obtain ⟨hholds, hkind, hname⟩ := (addresses_spec hmem).1 r' hr'
    exact ⟨r', ⟨hholds, hname ▸ Name.SameAs.refl _⟩, hkind⟩
  | @delegation g r hmem hr =>
    rw [(mem_authority_delegation hr).2.2] at hh
    rw [List.mem_singleton.mp hh]
    have hglue : (Fixture.a [53] 0).fill d z (z.below ⟨"ns", by decide⟩ g)
        ∈ (Zone.delegation d z g).additional := List.mem_cons_self
    exact ⟨_, ⟨.glue hmem hglue, Name.SameAs.refl _⟩, List.mem_cons_self⟩
  | glue _ hr =>
    have hnil : r.hosts = [] := if_neg ((by decide : ∀ t ∈ [RRType.A, RRType.AAAA],
      t ∉ [RRType.NS, RRType.MX, RRType.SRV]) _ (mem_additional_delegation hr).2)
    rw [hnil] at hh
    cases hh

/-- **The zones of the database are well formed.** -/
theorem database_wellFormed (d : Dnspython) (z : Nonce) : (database d z).WellFormed where
  rdclass r hr := Holds.rdclass hr
  coherent r hr r' hr' hkey := by
    obtain ⟨front, key, hz, hk, hheld⟩ := Holds.inZone hr
    exact hheld.coherent (ne_nil_or_apex hk) (heldAt_of_owns ⟨hr', hkey.1.symm⟩ hz hk) hkey.2.1
  target r hr := Holds.target hr
  cname_alone r hr hcname r' hr' hname := by
    obtain ⟨front, key, hz, hk, hheld⟩ := Holds.inZone hr
    exact hheld.cname_alone (ne_nil_or_apex hk) (heldAt_of_owns ⟨hr', hname⟩ hz hk) hcname
  dname_bare r hr hdname r' hr' hsub := by
    obtain ⟨front, key, hz, hk, hheld⟩ := Holds.inZone hr
    obtain ⟨g, hg, -, hname⟩ := hheld.dname hz hk hdname
    obtain ⟨front', key', hz', hk', hheld'⟩ := Holds.inZone hr'
    exact (hheld'.sameAs_of_dname hz' hk' hg (hsub.congr (Name.SameAs.refl _) hname)).trans hname.symm
  cut_bare r hr hns hapex r' hr' hsub := by
    obtain ⟨front, key, hz, hk, hheld⟩ := Holds.inZone hr
    obtain ⟨g, hg, -, -, hauthority⟩ :=
      (hheld.ns hz hk hns (Name.SameAs.refl _)).resolve_left hapex
    obtain ⟨front', key', hz', hk', hheld'⟩ := Holds.inZone hr'
    rw [(mem_authority_delegation hauthority).1] at hsub ⊢
    exact hheld'.cut_bare hz' hk' hg hsub
  apex a ha t ht := exists_owns_apex ha ht
  inside r hr := by
    obtain ⟨front, key, hz, -⟩ := Holds.inZone hr
    exact ⟨z.zone, mem_apexes_zone (Name.SameAs.refl _), isSubdomain_zone hz⟩
  hosts r hr host hh := Holds.exists_address hr hh
  served_congr n hn n' hsame := by
    obtain ⟨front, key, hz, hkey, hserved⟩ := hn
    obtain ⟨front', hz', hkey'⟩ := hz.of_sameAs hsame
    exact ⟨front', key, hz', hkey'.trans hkey, hserved⟩

end

end DnsFixtures
