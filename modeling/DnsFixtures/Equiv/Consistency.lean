import DnsFixtures.Equiv.Response
import DnsFixtures.Reference

/-!
# Records are what a direct query gives

The same record reaches a response on several ways: as the data of a name, on an alias chain, as a
negative SOA or as an additional address.  `Served` says that a direct query for the RRset finds it;
`answer_consistent`: every RRset of an authoritative answer is served.
-/

namespace DnsFixtures

open Dns

/-- The key of the name can be read in front of the zone. -/
def Readable (d : Dnspython) (z : Nonce) (owner : Name) : Prop :=
  ∃ front key cut, InZone z owner front ∧ keyOf front = some key ∧
    d.nameFromText (key ++ "." ++ z.text) = .ok cut

/-- A query for this owner and type has this RRset in its answer. -/
structure Served (d : Dnspython) (z : Nonce) (r : RRset) : Prop where
  readable : Readable d z r.name
  resolves : ∃ n chain c, Resolves d z r.rdtype n r.name chain c ∧ r ∈ chain ++ c.answer

theorem readable_host {d : Dnspython} (hd : d.Documented) (z : Nonce) (h : Host) :
    Readable d z (z.host h) :=
  ⟨_, _, _, z.inZone_host h, keyOf_host [] h, nameFromText_target hd z h.text h.isHost⟩

theorem readable_zone {d : Dnspython} (hd : d.Documented) (z : Nonce) : Readable d z z.zone :=
  ⟨_, _, _, z.inZone_zone, keyOf_nil, nameFromText_target hd z "apex" (by decide)⟩

/-! ### Data of a name -/

section

variable {d : Dnspython} {z : Nonce} {owner : Name} {front : List Label} {key : String}

theorem not_any_of_dataType : ∀ t ∈ Dnspython.dataTypes, t ≠ RRType.ANY := by decide

/-- No name with a node of its own is delegated. -/
theorem HasNode.ne_referral {depth : Nat} (hnode : HasNode key depth) {h : Host}
    (hmem : h ∈ referralHosts) : key ≠ h.text := by
  rintro rfl
  exact hnode.referral
    ((by decide : ∀ h ∈ referralHosts, h.text ∈ ["referral", "additional-referral"]) h hmem)

/-- A name with a node of its own is not below a DNAME. -/
theorem HasNode.depth_eq_one {depth : Nat} (hnode : HasNode key depth) {h : Host}
    (hmem : h ∈ dnameHosts) (hkey : key = h.text) : depth = 1 :=
  hnode.dname (hkey ▸ (by decide : ∀ h ∈ dnameHosts, h.text ∈ DNAME_KEYS) h hmem)

/-- The step for the type of a record of the node. -/
theorem step_of_mem_node (hnode : HasNode key front.length) {ps : List Placed}
    (hps : Zone.node z owner key front.length = some ps) {p : Placed} (hp : p ∈ ps) :
    ∃ c, Zone.step d z p.template.kind owner front key = .stop c ∧ Zone.rrset d z p ∈ c.answer := by
  have hwf := wellFormedNode_node z owner key front.length ps hps
  have hany := not_any_of_dataType _ (hwf.templates _ (List.mem_map_of_mem hp)).kind
  have hcase := step_cases d z p.template.kind owner front key
  revert hcase
  generalize Zone.step d z p.template.kind owner front key = s
  intro hcase
  cases hcase with
  | cut hmem hkey => exact absurd hkey (hnode.ne_referral hmem)
  | delegation hmem hkey => exact absurd hkey (hnode.ne_referral hmem)
  | refused hkey => exact absurd hkey hnode.refused
  | tooLong hmem hkey h1 => exact absurd (hnode.depth_eq_one hmem hkey) h1
  | dnameEnd hmem hkey h1 => exact absurd (hnode.depth_eq_one hmem hkey) h1
  | dnameNext hmem hkey h1 => exact absurd (hnode.depth_eq_one hmem hkey) h1
  | absent _ hnone =>
    rw [hps] at hnone
    cases hnone
  | cnameEnd _ hps' =>
    rw [hps] at hps'
    cases hps'
    refine ⟨_, rfl, ?_⟩
    rw [List.mem_singleton.mp hp]
    exact List.mem_cons_self
  | cnameNext _ hps' hkind _ _ hno =>
    rw [hps] at hps'
    cases hps'
    rw [List.mem_singleton.mp hp, hkind] at hno
    exact absurd List.mem_cons_self hno
  | noData _ hps' _ hsel =>
    rw [hps] at hps'
    cases hps'
    rw [Zone.select, if_neg hany, List.filter_eq_nil_iff] at hsel
    exact absurd (by simp) (hsel p hp)
  | @data _ q _ hps' _ hq hsel =>
    rw [hps] at hps'
    cases hps'
    refine ⟨_, rfl, ?_⟩
    have hmem : p ∈ Zone.select p.template.kind ps := by
      rw [Zone.select, if_neg hany]
      exact List.mem_filter.mpr ⟨hp, by simp⟩
    rw [hsel] at hmem
    rw [List.mem_singleton.mp hmem]
    exact List.mem_cons_self

/-- The data of a name is served at that name. -/
theorem served_of_node (hread : Readable d z owner) (hz : InZone z owner front)
    (hkey : keyOf front = some key) (hnode : HasNode key front.length) {ps : List Placed}
    (hps : Zone.node z owner key front.length = some ps) {p : Placed} (hp : p ∈ ps)
    (howner : p.owner = owner) : Served d z (Zone.rrset d z p) := by
  obtain ⟨c, hstep, hmem⟩ := step_of_mem_node (d := d) hnode hps hp
  subst howner
  exact ⟨hread, 1, [], c, .stop hz hkey hstep, hmem⟩

variable (hd : d.Documented)
include hd

/-- The data of the apex is served. -/
theorem served_of_apex {p : Placed}
    (hp : p ∈ [(⟨z.zone, Fixture.zoneSoa⟩ : Placed), ⟨z.zone, Fixture.ns⟩])
    (howner : p.owner = z.zone) : Served d z (Zone.rrset d z p) := by
  have hapex : HasNode "apex" ([] : List Label).length := ⟨by decide, by decide, by decide⟩
  exact served_of_node (readable_zone hd z) z.inZone_zone keyOf_nil hapex rfl hp howner

/-- Whatever way the name is spelled, its data is served, at the apex included. -/
theorem served_of_mem_node (hread : Readable d z owner) (hz : InZone z owner front)
    (hkey : keyOf front = some key) (hnode : HasNode key front.length) {ps : List Placed}
    (hps : Zone.node z owner key front.length = some ps) {p : Placed} (hp : p ∈ ps) :
    Served d z (Zone.rrset d z p) := by
  rcases owner_of_mem_node hps hp with howner | ⟨-, rfl⟩
  · exact served_of_node hread hz hkey hnode hps hp howner
  · exact served_of_apex hd List.mem_cons_self rfl

/-- The data of a host of the catalogue is served. -/
theorem served_of_host {h : Host} (hapex : h.text ≠ "apex") (hnode : HasNode h.text 1)
    {ts : List Template} (hts : fixture h.text = some ts) {t : Template} (ht : t ∈ ts) :
    Served d z (t.fill d z (z.host h)) := by
  have hps : Zone.node z (z.host h) h.text [h.label].length
      = some (ts.map (Placed.mk (z.host h))) := by
    rw [List.length_singleton, node_of_depth_pos (by decide) hapex (Or.inl rfl), hts]
    rfl
  exact served_of_node (readable_host hd z h) (z.inZone_host h) (keyOf_host [] h) hnode hps
    (List.mem_map_of_mem ht) rfl

/-! ### Synthesised records -/

theorem served_dname {h : Host} (hmem : h ∈ dnameHosts) : Served d z (Zone.dname d z h) := by
  have hnode : ∀ h ∈ dnameHosts, h.text ≠ "apex" ∧ h.text ∉ ["referral", "additional-referral"] ∧
      h.text ≠ "refused" := by decide
  obtain ⟨hapex, h1, h2⟩ := hnode h hmem
  have hts : fixture h.text
      = some [Fixture.target RRType.DNAME ⟨"target-tree", by decide⟩] := by
    unfold fixture
    rw [if_pos ((by decide : ∀ h ∈ dnameHosts, h.text ∈ DNAME_KEYS) h hmem)]
  exact served_of_host hd hapex ⟨h1, h2, fun _ => rfl⟩ hts List.mem_cons_self

omit hd in
/-- The CNAME record below a DNAME is synthesised for its own type as well. -/
theorem served_synthesised {h : Host} {next : Name} (hread : Readable d z owner)
    (hz : InZone z owner front) (hkey : keyOf front = some h.text) (hmem : h ∈ dnameHosts) (h1 : front.length ≠ 1)
    (hsub : Zone.substituted z front = some next) : Served d z (Zone.synthesised owner next) := by
  have hcase := step_cases d z RRType.CNAME owner front h.text
  cases hstep : Zone.step d z RRType.CNAME owner front h.text with
  | follow aliases last =>
    rw [hstep] at hcase
    cases hcase with
    | dnameNext _ _ _ _ hno => exact absurd rfl hno
    | cnameNext _ _ _ _ _ hno => exact absurd List.mem_cons_self hno
  | stop c =>
    refine ⟨hread, 1, [], c, .stop hz hkey hstep, ?_⟩
    have hnotNode : ¬ HasNode h.text front.length := fun hnode =>
      h1 (hnode.dname ((by decide : ∀ h ∈ dnameHosts, h.text ∈ DNAME_KEYS) h hmem))
    have hspecial : ∀ h ∈ dnameHosts, h.text ≠ "refused" ∧ ∀ g ∈ referralHosts, h.text ≠ g.text := by
      decide
    obtain ⟨hrefused, hreferral⟩ := hspecial h hmem
    rw [hstep] at hcase
    cases hcase with
    | dnameEnd _ _ _ hsub' =>
      rw [hsub] at hsub'
      cases hsub'
      exact List.mem_cons_of_mem _ List.mem_cons_self
    | tooLong _ _ _ hsub' =>
      rw [hsub] at hsub'
      cases hsub'
    | cut hg hgkey => exact absurd hgkey (hreferral _ hg)
    | delegation hg hgkey => exact absurd hgkey (hreferral _ hg)
    | refused hgkey => exact absurd hgkey hrefused
    | absent hnode => exact absurd hnode hnotNode
    | cnameEnd hnode => exact absurd hnode hnotNode
    | noData hnode => exact absurd hnode hnotNode
    | data hnode => exact absurd hnode hnotNode

/-! ### SOA records and addresses -/

theorem served_zoneSoa : Served d z (Fixture.zoneSoa.fill d z z.zone) :=
  served_of_apex (p := ⟨z.zone, Fixture.zoneSoa⟩) hd List.mem_cons_self rfl

omit hd in
theorem childApex_cases : ∀ h ∈ childApexes, h.text ≠ "apex" ∧
    h.text ∉ ["referral", "additional-referral"] ∧ h.text ≠ "refused" ∧
    ∃ ts, fixture h.text = some ts ∧
      (if h.text = "additional-ns" then Fixture.additionalNsSoa else Fixture.zoneSoa) ∈ ts := by
  intro h hmem
  simp only [childApexes, List.mem_cons, List.not_mem_nil, or_false] at hmem
  rcases hmem with rfl | rfl | rfl
  · exact ⟨by decide, by decide, by decide, _, rfl, by decide⟩
  · exact ⟨by decide, by decide, by decide, _, rfl, by decide⟩
  · exact ⟨by decide, by decide, by decide, _, rfl, by decide⟩

/-- The SOA record of a negative response is that of its apex. -/
theorem served_negativeSoa (kind : UInt16) (depth : Nat) :
    Served d z (Zone.negativeSoa d z kind key depth) := by
  unfold Zone.negativeSoa
  cases hapex : Zone.apexOf kind key depth with
  | none => exact served_zoneSoa hd
  | some h =>
    obtain ⟨hmem, -⟩ := hostIn_eq_some (Option.filter_eq_some_iff.mp hapex).1
    obtain ⟨h1, h2, h3, ts, hts, ht⟩ := childApex_cases h hmem
    have hserved : Served d z
        ((if h.text = "additional-ns" then Fixture.additionalNsSoa else Fixture.zoneSoa).fill d z
          (z.host h)) := served_of_host hd h1 ⟨h2, h3, fun _ => rfl⟩ hts ht
    dsimp only
    split_ifs at hserved ⊢
    · exact hserved
    · exact hserved

theorem served_addresses {h : Host} (hmem : h.text ∈ addressKeys) {r : RRset}
    (hr : r ∈ Zone.addresses d z h) : Served d z r := by
  obtain ⟨t, ht, rfl⟩ := List.mem_map.mp hr
  obtain ⟨ts, hts, -⟩ := fixture_addressKey h.text hmem
  have hspecial : ∀ key ∈ addressKeys, key ∉ ["referral", "additional-referral"] ∧
      key ≠ "refused" := by decide +kernel
  obtain ⟨h1, h2⟩ := hspecial h.text hmem
  rw [Option.mem_def.mp hts] at ht
  exact served_of_host hd (ne_apex_of_mem_addressKeys hmem) ⟨h1, h2, fun _ => rfl⟩ hts
    (List.mem_of_mem_filter ht)

end

/-! ### Whole responses -/

section

variable {d : Dnspython} {z : Nonce} {kind : UInt16} {owner : Name} (hd : d.Documented)
include hd

/-- What concludes an authoritative answer is served. -/
theorem StepCase.served {front : List Label} {key : String} {c : Conclusion}
    (hread : Readable d z owner) (hz : InZone z owner front) (hkey : keyOf front = some key)
    (h : StepCase d z kind owner front key (.stop c)) (haa : c.aa = true) :
    ∀ r ∈ c.answer ++ c.authority ++ c.additional, Served d z r := by
  intro r hr
  cases h with
  | cut =>
    rw [List.mem_singleton.mp hr]
    exact served_zoneSoa hd
  | delegation => cases haa
  | refused => cases haa
  | tooLong hmem =>
    rw [List.mem_singleton.mp hr]
    exact served_dname hd hmem
  | dnameEnd hmem hh h1 hsub =>
    subst hh
    rcases List.mem_cons.mp hr with rfl | hr
    · exact served_dname hd hmem
    · rw [List.mem_singleton.mp hr]
      exact served_synthesised hread hz hkey hmem h1 hsub
  | absent =>
    rw [List.mem_singleton.mp hr]
    exact served_negativeSoa hd kind _
  | cnameEnd hnode hps =>
    rw [List.mem_singleton.mp hr]
    exact served_of_mem_node hd hread hz hkey hnode hps List.mem_cons_self
  | noData =>
    rw [List.mem_singleton.mp hr]
    exact served_negativeSoa hd kind _
  | @data ps p hnode hps _ hp =>
    rcases List.mem_cons.mp hr with rfl | hr
    · exact served_of_mem_node hd hread hz hkey hnode hps hp
    · -- the addresses of the hosts that the record leads to
      have hwf := (wellFormedNode_node z owner key front.length ps hps).templates p.template
        (List.mem_map_of_mem hp)
      have hadd : r ∈ Zone.additionalOf d z [p] := by
        simpa [Zone.data] using hr
      rw [additionalOf_singleton] at hadd
      obtain ⟨h, hh, hr⟩ := List.mem_flatMap.mp hadd
      exact served_addresses hd (mem_addressKeys_of_mem hwf hh) hr

/-- The aliases in front of it are served. -/
theorem ChainCase.served {chain : List RRset} {last : Name} (hread : Readable d z owner)
    (h : ChainCase d z kind owner chain last) : ∀ r ∈ chain, Served d z r := by
  intro r hr
  cases h with
  | here => cases hr
  | cname _ _ _ hwhere =>
    obtain ⟨front, key, hz, hkey, hnode, hps⟩ := hwhere
    rw [List.mem_singleton.mp hr]
    exact served_of_mem_node hd hread hz hkey hnode hps List.mem_cons_self
  | hop _ _ _ hwhere =>
    obtain ⟨front, key, hz, hkey, hnode, hps⟩ := hwhere
    rcases List.mem_cons.mp hr with rfl | hr
    · exact served_of_mem_node hd hread hz hkey hnode hps List.mem_cons_self
    · rw [List.mem_singleton.mp hr]
      exact served_of_host hd (by decide) ⟨by decide, by decide, fun _ => rfl⟩ (h := chainHop) rfl
        List.mem_cons_self
  | dname hmem hz hkey h1 hsub =>
    rcases List.mem_cons.mp hr with rfl | hr
    · exact served_dname hd hmem
    · rw [List.mem_singleton.mp hr]
      exact served_synthesised hread hz hkey hmem h1 hsub

/-- The name at the end of an alias chain is readable. -/
theorem readable_last {last : List Label} {key : String} {chain : List RRset} {n : Name}
    (hread : Readable d z owner) (hchain : ChainCase d z kind owner chain n) (hz : InZone z n last)
    (hkey : keyOf last = some key) (hend : chain = [] ∨ EndsChain last key) : Readable d z n := by
  rcases hend with rfl | hend
  · cases hchain
    exact hread
  · have hhost : IsHost key := (by decide : ∀ k ∈ ["a", "target-tree"], IsHost k) key hend.1
    exact ⟨last, key, _, hz, hkey, nameFromText_target hd z key hhost⟩

/-- **Every RRset of an authoritative answer is served.** -/
theorem Resolves.served {n : Nat} {chain : List RRset} {c : Conclusion}
    (h : Resolves d z kind n owner chain c) (hread : Readable d z owner) (haa : c.aa = true) :
    ∀ r ∈ chain ++ c.answer ++ c.authority ++ c.additional, Served d z r := by
  obtain ⟨last, front, key, hz, hkey, hstep, hchain, hend⟩ := h.chain_cases
  have hlast := readable_last hd hread hchain hz hkey hend
  have hcase := StepCase.of_step hstep
  intro r hr
  simp only [List.append_assoc] at hr
  rcases List.mem_append.mp hr with hr | hr
  · exact hchain.served hd hread r hr
  · refine hcase.served hd hlast hz hkey haa r ?_
    rwa [List.append_assoc]

/-- What `_answer` returns for a name in the zone, from an empty response. -/
theorem answer_cases {front : List Label} (hz : InZone z owner front) {start m : Message}
    (hstart : start.rrsets = []) (h : answer d start owner kind z.text = .ok m) :
    (keyOf front = none ∧ m = start) ∨ ∃ n chain c, Readable d z owner ∧
      Resolves d z kind n owner chain c ∧ m = c.apply { start with answer := chain } := by
  obtain ⟨h12, hadditional⟩ := List.append_eq_nil_iff.mp hstart
  obtain ⟨hanswer, -⟩ := List.append_eq_nil_iff.mp h12
  cases hkey : keyOf front with
  | none =>
    have hnone : nameKey owner = none := by
      rw [nameKey_of_inZone hz, hkey]
      rfl
    unfold answer answerLoop answerStep at h
    rw [hnone] at h
    cases h
    exact Or.inl ⟨rfl, rfl⟩
  | some key =>
    cases hcut : d.nameFromText (key ++ "." ++ z.text) with
    | error e =>
      rw [answer_error hd hz hkey hcut] at h
      cases h
    | ok cut =>
      obtain ⟨n, chain, c, hres, hrun⟩ := answer_eq hd kind hz hkey hcut hadditional
      rw [hrun, hanswer, List.nil_append] at h
      cases h
      exact Or.inr ⟨n, chain, c, ⟨front, key, cut, hz, hkey, hcut⟩, hres, rfl⟩

end

/-- **Record self-consistency**: each RRset of an authoritative answer stands in the answer to a
direct query for its owner and type. -/
theorem answer_consistent {d : Dnspython} (hd : d.Documented) {z : Nonce} {owner : Name}
    {front : List Label} (hz : InZone z owner front) (kind : UInt16) {start m : Message}
    (hstart : start.rrsets = []) (h : answer d start owner kind z.text = .ok m)
    (haa : hasFlag m.flags Flag.AA) : ∀ r ∈ m.rrsets,
      ∃ m', answer d start r.name r.rdtype z.text = .ok m' ∧ ∃ r' ∈ m'.answer, r'.SameAs r := by
  intro r hr
  obtain ⟨h12, hadditional⟩ := List.append_eq_nil_iff.mp hstart
  obtain ⟨hanswer, hauthority⟩ := List.append_eq_nil_iff.mp h12
  rcases answer_cases hd hz hstart h with ⟨-, rfl⟩ | ⟨n, chain, c, hread, hres, rfl⟩
  · rw [hstart] at hr
    cases hr
  · have haa' : c.aa = true := by
      by_contra hclear
      exact not_aa_apply (by simpa using hclear) _ haa
    rw [Message.rrsets, Conclusion.apply_answer, Conclusion.apply_authority,
      Conclusion.apply_additional, hauthority, hadditional, List.nil_append, List.nil_append] at hr
    -- the direct query resolves to one answer only
    obtain ⟨⟨front', key', cut', hz', hkey', hcut'⟩, n', chain', c', hres', hmem⟩ :=
      hres.served hd hread haa' r hr
    obtain ⟨n'', chain'', c'', hres'', hrun⟩ := answer_eq hd r.rdtype hz' hkey' hcut' hadditional
    obtain ⟨-, rfl, rfl⟩ := hres'.unique hres''
    refine ⟨_, hrun, r, ?_, RRset.SameAs.refl r⟩
    rw [Conclusion.apply_answer, hanswer, List.nil_append]
    exact hmem

/-- NS of `ns`, with the address of the server in the additional section. -/
theorem answer_consistent_ns : ∃ m, answer Reference.dnspython ⟨0, Flag.AA, [], [], [], [], none⟩
      (Nonce.zeros.host ⟨"ns", by decide⟩) RRType.NS Nonce.zeros.text = .ok m ∧
    ∀ r ∈ m.rrsets, ∃ m', answer Reference.dnspython ⟨0, Flag.AA, [], [], [], [], none⟩ r.name
      r.rdtype Nonce.zeros.text = .ok m' ∧ ∃ r' ∈ m'.answer, r'.SameAs r := by
  obtain ⟨m, hm⟩ := Reference.exists_of_isOk (x := answer Reference.dnspython
    ⟨0, Flag.AA, [], [], [], [], none⟩ (Nonce.zeros.host ⟨"ns", by decide⟩) RRType.NS
    Nonce.zeros.text) (by decide +kernel)
  have haa : (answer Reference.dnspython ⟨0, Flag.AA, [], [], [], [], none⟩
      (Nonce.zeros.host ⟨"ns", by decide⟩) RRType.NS Nonce.zeros.text).map Message.flags
        = .ok Flag.AA := by decide +kernel
  rw [hm] at haa
  have hflags : m.flags = Flag.AA := Except.ok.inj haa
  exact ⟨m, hm, answer_consistent Reference.documented (Nonce.zeros.inZone_host _) RRType.NS rfl hm
    (by rw [hflags]; decide)⟩

end DnsFixtures
