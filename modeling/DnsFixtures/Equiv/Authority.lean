import DnsFixtures.Equiv.Database

/-!
# One authoritative server behind all replies

`StepCase.at`: at every name the resolver does what an authoritative server does that holds the
database of the nonce.  `answerFresh_authoritative`: so the reply of `answer_fresh` to a question in a
zone is the answer of that server.
-/

namespace DnsFixtures

open Dns

/-! ### Steps and outcomes -/

def Conclusion.reply (c : Conclusion) : Dns.Reply :=
  ⟨c.aa, c.rcode, c.answer, c.authority, c.additional⟩

def Step.outcome : Step → Dns.Outcome
  | .stop c => .stop c.reply
  | .follow aliases next => .follow aliases next

section

variable {d : Dnspython} {z : Nonce} {kind : UInt16} {n : Name} {front : List Label} {key : String}

/-! ### Places -/

theorem not_delegates (hz : InZone z n front) (hkey : keyOf front = some key)
    (h : ∀ g ∈ referralHosts, key = g.text → kind = RRType.DS ∧ front.length = 1) (r : RRset) :
    ¬ (database d z).Delegates kind n r := by
  intro hr
  obtain ⟨front', key', hz', hkey', hheld⟩ := Holds.inZone hr.mem
  obtain ⟨g, hg, -, -, hauthority⟩ :=
    (hheld.ns hz' hkey' hr.rdtype (Name.SameAs.refl _)).resolve_left hr.not_apex
  obtain ⟨hname, -⟩ := mem_authority_delegation hauthority
  have hsub := hr.encloses
  rw [hname] at hsub
  obtain ⟨hf, rfl⟩ := key_of_isSubdomain hz hkey hsub
  obtain ⟨hds, hone⟩ := h g hg rfl
  exact hr.not_ds ⟨hds, hname ▸ (sameAs_host_of_key hz hf hkey).mpr hone⟩

theorem not_redirects (hz : InZone z n front) (hkey : keyOf front = some key)
    (h : ∀ g ∈ dnameHosts, key = g.text → front.length = 1) (r : RRset) :
    ¬ (database d z).Redirects n r := by
  intro hr
  obtain ⟨front', key', hz', hkey', hheld⟩ := Holds.inZone hr.mem
  obtain ⟨g, hg, -, hname⟩ := hheld.dname hz' hkey' hr.rdtype
  obtain ⟨hf, rfl⟩ := key_of_isSubdomain hz hkey (hr.encloses.congr (Name.SameAs.refl n) hname)
  exact hr.below (((sameAs_host_of_key hz hf hkey).mpr (h g hg rfl)).trans hname.symm)

theorem mem_served (hz : InZone z n front) (hkey : keyOf front = some key) (h : key ≠ "refused") :
    n ∈ (database d z).served := ⟨front, key, hz, hkey, h⟩

/-- A name with a node of its own is the server's. -/
theorem HasNode.own (hnode : HasNode key front.length) (hz : InZone z n front)
    (hkey : keyOf front = some key) : (database d z).InPlace kind n .own :=
  .own (mem_served hz hkey hnode.refused)
    (not_delegates hz hkey fun _ hg hgkey => absurd hgkey (hnode.ne_referral hg))
    (not_redirects hz hkey fun _ hg hgkey => hnode.depth_eq_one hg hgkey)

/-- A name below a DNAME. -/
theorem redirected {h : Host} (hmem : h ∈ dnameHosts) (hz : InZone z n front)
    (hkey : keyOf front = some h.text) (h1 : front.length ≠ 1) :
    (database d z).InPlace kind n (.redirected (Zone.dname d z h)) := by
  have hapart : ∀ h ∈ dnameHosts, h.text ≠ "apex" ∧ h.text ≠ "refused" ∧
      ∀ g ∈ referralHosts, h.text ≠ g.text := by decide
  obtain ⟨hapex, hrefused, hreferral⟩ := hapart h hmem
  have hts : fixture h.text
      = some [Fixture.target RRType.DNAME ⟨"target-tree", by decide⟩] := by
    unfold fixture
    rw [if_pos ((by decide : ∀ h ∈ dnameHosts, h.text ∈ DNAME_KEYS) h hmem)]
  refine .redirected (mem_served hz hkey hrefused)
    (not_delegates hz hkey fun g hg hgkey => absurd hgkey (hreferral g hg))
    ⟨holds_of_host hapex hts List.mem_cons_self, rfl, isSubdomain_of_key hz hkey hapex, ?_⟩
  exact fun hsame => h1 ((sameAs_host_of_key hz (ne_nil_of_keyOf hkey hapex) hkey).mp hsame)

/-- `_answer` substitutes as a DNAME does. -/
theorem substitute_dname {h : Host} (hz : InZone z n front) (hkey : keyOf front = some h.text)
    (hapex : h.text ≠ "apex") :
    n.substitute (z.host h) (z.host ⟨"target-tree", by decide⟩) = Zone.substituted z front := by
  obtain ⟨suffix, hlabels, hsuffix⟩ := hz.labels
  obtain ⟨init, l, rfl⟩ := exists_concat (ne_nil_of_keyOf hkey hapex)
  have hl : lower l = h.label := (keyOf_concat_iff.mp hkey).2.symm
  have hrel : n.relativize (z.host h) = some init := by
    have happend : n.labels = init ++ ([l] ++ suffix) := by rw [hlabels, List.append_assoc]
    refine Name.relativize_of_append happend ?_
    show foldCase ([l] ++ suffix) = foldCase ([h.label] ++ z.labels)
    rw [foldCase_append, foldCase_append, hsuffix, z.foldCase_labels, foldCase_cons, foldCase_cons,
      hl, h.lower_label]
  rw [Name.substitute, hrel, Option.bind_some, Zone.substituted, List.dropLast_concat]

/-! ### What is at a name -/

/-- A name with a node of its own exists when it has data. -/
theorem exists_iff_node (hnode : HasNode key front.length) (hz : InZone z n front)
    (hkey : keyOf front = some key) :
    (database d z).Exists n ↔ Zone.node z n key front.length ≠ none := by
  constructor
  · rintro ⟨r, hr, hsub⟩
    by_cases hf : front = []
    · subst hf
      exact Option.some_ne_none _
    -- the record has the key of the name above it
    obtain ⟨front', key', hz', hkey', hheld⟩ := Holds.inZone hr
    obtain ⟨init, last, hzr, hlast⟩ := hz.below hsub
    obtain ⟨-, rfl⟩ := hzr.unique hz'
    obtain rfl : key' = key := by
      rw [keyOf_below hf hlast, hkey] at hkey'
      exact (Option.some.inj hkey').symm
    cases hheld with
    | node hps =>
      rcases node_cases hps with ⟨hnil, -⟩ | ⟨-, hapex, hdepth, ts, hts, -⟩
      · obtain ⟨-, rfl⟩ := List.append_eq_nil_iff.mp hnil
        exact absurd (List.map_eq_nil_iff.mp hlast.symm) hf
      · have hlen : front.length ≤ (init ++ last).length := by
          rw [List.length_append, ← length_foldCase last, hlast, length_foldCase]
          exact Nat.le_add_left _ _
        have hpos := List.length_pos_iff.mpr hf
        rw [node_of_depth_pos (by omega) hapex (hdepth.imp_left fun h => by omega), hts]
        exact Option.some_ne_none _
    | delegation hg hgkey => exact absurd hgkey (hnode.ne_referral hg)
    | glue hg hgkey => exact absurd hgkey (hnode.ne_referral hg)
  · intro hsome
    obtain ⟨ps, hps⟩ := Option.ne_none_iff_exists'.mp hsome
    obtain ⟨p, hp⟩ := List.exists_mem_of_ne_nil ps (node_ne_nil hps)
    exact ⟨Zone.rrset d z p, .node hz hkey hps hp, (sameAs_of_mem_node hz hps hp).isSubdomain⟩

/-- The records of such a name are those of its node. -/
theorem HasNode.exists_mem (hnode : HasNode key front.length) (hz : InZone z n front)
    (hkey : keyOf front = some key) {ps : List Placed}
    (hps : Zone.node z n key front.length = some ps) {r : RRset} (h : (database d z).Owns n r) :
    ∃ p ∈ ps, r.SameAs (Zone.rrset d z p) := by
  cases heldAt_of_owns h hz hkey with
  | node hps' hp hsame =>
    rw [hps] at hps'
    cases hps'
    exact ⟨_, hp, hsame⟩
  | delegation hg hgkey => exact absurd hgkey (hnode.ne_referral hg)
  | glue hg hgkey => exact absurd hgkey (hnode.ne_referral hg)

theorem owns_of_mem_node (hz : InZone z n front) (hkey : keyOf front = some key) {ps : List Placed}
    (hps : Zone.node z n key front.length = some ps) {p : Placed} (hp : p ∈ ps) :
    (database d z).Owns n (Zone.rrset d z p) :=
  ⟨.node hz hkey hps hp, sameAs_of_mem_node hz hps hp⟩

theorem holds_negativeSoa (kind : UInt16) (key : String) (depth : Nat) :
    Holds d z (Zone.negativeSoa d z kind key depth) := by
  unfold Zone.negativeSoa
  cases hapex : Zone.apexOf kind key depth with
  | none =>
    exact .node (p := ⟨z.zone, Fixture.zoneSoa⟩) z.inZone_zone keyOf_nil rfl List.mem_cons_self
  | some h =>
    obtain ⟨hmem, -⟩ := hostIn_eq_some (Option.filter_eq_some_iff.mp hapex).1
    obtain ⟨hapex, -, -, ts, hts, ht⟩ := childApex_cases h hmem
    have hholds := holds_of_host (d := d) (z := z) hapex hts ht
    dsimp only
    split_ifs at hholds ⊢
    · exact hholds
    · exact hholds

/-- The SOA record of a negative response is that of the zone that answers. -/
theorem negativeSoa_inCharge (hz : InZone z n front) (hkey : keyOf front = some key) :
    (database d z).NegativeSoa kind n (Zone.negativeSoa d z kind key front.length) := by
  have hspec := @negativeSoa_spec d z kind n front key hz hkey
  have hholds := holds_negativeSoa (d := d) (z := z) kind key front.length
  have htop : ∀ a ∈ (database d z).apexes, z.zone.labels.length ≤ a.labels.length := by
    rintro a ⟨b, hb, hab⟩
    rw [hab.length_eq]
    rcases mem_servedApexes.mp hb with rfl | ⟨h, -, rfl⟩
    · exact Nat.le_refl _
    · exact Nat.le_succ _
  by_cases hparent : AsksParent z kind n
  · -- DS of a child apex
    obtain ⟨hds, h, hh, hsame⟩ := hparent
    have hname := hspec.parent ⟨hds, h, hh, hsame⟩
    have hlen := hsame.length_eq
    refine ⟨hholds, hspec.rdtype, ?_, ?_, ?_, ?_⟩
    · rw [hname]
      exact isSubdomain_zone hz
    · rintro a ⟨b, hb, hab⟩ hsub hno
      rw [hname, hab.length_eq]
      rcases mem_servedApexes.mp hb with rfl | ⟨g, -, rfl⟩
      · exact Nat.le_refl _
      · refine absurd ((Name.sameAs_of_isSubdomain_of_length
          (hsub.congr (Name.SameAs.refl n) hab) ?_).trans hab.symm) (hno hds)
        rw [hlen]
        exact Nat.le_refl _
    · rw [hname]
      exact mem_apexes_zone (Name.SameAs.refl _)
    · intro _ htop'
      rw [hname] at htop'
      rw [htop'.length_eq] at hlen
      exact absurd hlen (Nat.ne_of_lt (Nat.lt_succ_self z.labels.length))
  · obtain ⟨hserved, hencloses, hdeepest⟩ := hspec.apex hparent
    have hmem : (Zone.negativeSoa d z kind key front.length).name ∈ (database d z).apexes :=
      ⟨_, hserved, Name.SameAs.refl _⟩
    refine ⟨hholds, hspec.rdtype, hencloses, ?_, hmem, ?_⟩
    · rintro a ⟨b, hb, hab⟩ hsub -
      rw [hab.length_eq]
      exact hdeepest b hb (hsub.congr (Name.SameAs.refl n) hab)
    · intro hds hsame a ha hsub
      rcases mem_servedApexes.mp hserved with hname | ⟨g, hg, hname⟩
      · refine Name.sameAs_of_isSubdomain_of_length hsub ?_
        rw [hsame.length_eq, hname]
        exact htop a ha
      · exact absurd ⟨hds, g, hg, hname ▸ hsame⟩ hparent

/-! ### Every step is the server's -/

/-- DS at a cut is a question for the parent, which has nothing but the delegation. -/
theorem at_cut {g : Host} (hg : g ∈ referralHosts) (hz : InZone z n front)
    (hkey : keyOf front = some g.text) (hone : front.length = 1) (hds : kind = RRType.DS) :
    (database d z).At kind n (.stop ⟨true, Rcode.NOERROR, [],
      [Zone.negativeSoa d z kind g.text front.length], []⟩) := by
  have hsoa : (database d z).NegativeSoa kind n (Zone.negativeSoa d z kind g.text front.length) :=
    negativeSoa_inCharge hz hkey
  have hapart : ∀ g ∈ referralHosts, g.text ≠ "refused" ∧ g.text ≠ "apex" ∧
      ∀ h ∈ dnameHosts, g.text ≠ h.text := by decide
  obtain ⟨hrefused, hapex, hdname⟩ := hapart g hg
  have hf := ne_nil_of_keyOf hkey hapex
  have hauthority : _ ∈ (Zone.delegation d z g).authority := List.mem_cons_self
  have hname : (z.host g).IsSubdomain n :=
    ((sameAs_host_of_key hz hf hkey).mpr hone).symm.isSubdomain
  have hns : ∀ r, (database d z).Owns n r → r.rdtype = RRType.NS := by
    intro r hr
    cases heldAt_of_owns hr hz hkey with
    | node hps =>
      rw [node_referral hg hf] at hps
      cases hps
    | delegation _ _ _ hr' => exact (mem_authority_delegation hr').2.1
    | glue _ _ hno => exact absurd hone hno
  refine .own (.own (mem_served hz hkey hrefused) (not_delegates hz hkey fun _ _ _ => ⟨hds, hone⟩)
    (not_redirects hz hkey fun h hh hhkey => absurd hhkey (hdname h hh)))
    (.noData ⟨_, .delegation hg hauthority, hname⟩ (fun r hr hfollow => ?_)
      (fun r hr hmatch => ?_) hsoa)
  · rw [Database.IsFollowed, hns r hr] at hfollow
    exact absurd hfollow.1 (by decide)
  · rw [hns r hr, hds] at hmatch
    exact absurd hmatch (by decide)

/-- What else is asked at or below a cut is referred. -/
theorem at_delegation {g : Host} (hg : g ∈ referralHosts) (hz : InZone z n front)
    (hkey : keyOf front = some g.text) (hno : ¬ (front.length = 1 ∧ kind = RRType.DS)) :
    (database d z).At kind n (.stop (Zone.delegation d z g).reply) := by
  have hapart : ∀ g ∈ referralHosts, g.text ≠ "refused" ∧ g.text ≠ "apex" ∧
      ∀ h ∈ childApexes, g.text ≠ h.text := by decide
  obtain ⟨hrefused, hapex, hchild⟩ := hapart g hg
  have hauthority : _ ∈ (Zone.delegation d z g).authority := List.mem_cons_self
  refine .referral (.delegated (mem_served hz hkey hrefused)
    ⟨.delegation hg hauthority, rfl, ?_, isSubdomain_of_key hz hkey hapex, ?_⟩)
    (addresses_delegation hg hauthority)
  · rintro ⟨b, hb, hab⟩
    rcases mem_servedApexes.mp hb with rfl | ⟨h, hh, rfl⟩
    · exact absurd ((sameAs_zone_iff (z.inZone_host g)).mp hab) (List.cons_ne_nil _ _)
    · exact hchild h hh (congrArg Host.text (sameAs_host_eq hab))
  · rintro ⟨hds, hsame⟩
    exact hno ⟨(sameAs_host_of_key hz (ne_nil_of_keyOf hkey hapex) hkey).mp hsame, hds⟩

/-- A name below a DNAME goes where the substitution leads. -/
theorem at_redirected {h : Host} (hmem : h ∈ dnameHosts) (hz : InZone z n front)
    (hkey : keyOf front = some h.text) (h1 : front.length ≠ 1) {o : Dns.Outcome}
    (ho : Zone.substituted z front
        = n.substitute (z.host h) (z.host ⟨"target-tree", by decide⟩) →
      Dns.Database.Redirected kind n (Zone.dname d z h) o) : (database d z).At kind n o :=
  have hapex := (by decide : ∀ h ∈ dnameHosts, h.text ≠ "apex") h hmem
  .redirected (redirected hmem hz hkey h1) (ho (substitute_dname hz hkey hapex).symm)

/-- No record of the node is of the type. -/
theorem at_noData (hz : InZone z n front) (hkey : keyOf front = some key)
    (hnode : HasNode key front.length) {ps : List Placed}
    (hps : Zone.node z n key front.length = some ps)
    (hno : ∀ p ∈ ps, p.template.kind ≠ RRType.CNAME) (hsel : Zone.select kind ps = []) :
    (database d z).At kind n (.stop ⟨true, Rcode.NOERROR, [],
      [Zone.negativeSoa d z kind key front.length], []⟩) := by
  refine .own (hnode.own hz hkey) (.noData ((exists_iff_node hnode hz hkey).mpr
    (by rw [hps]; exact Option.some_ne_none _)) (fun r hr hfollow => ?_)
    (fun r hr hmatch => ?_) (negativeSoa_inCharge hz hkey))
  · obtain ⟨p, hp, hsame⟩ := hnode.exists_mem hz hkey hps hr
    exact hno p hp (hsame.rdtype.symm.trans hfollow.1)
  · obtain ⟨p, hp, hsame⟩ := hnode.exists_mem hz hkey hps hr
    unfold Zone.select at hsel
    split_ifs at hsel with hany
    · have hps' := List.take_eq_nil_iff.mp hsel
      exact absurd (hps'.resolve_left one_ne_zero) (node_ne_nil hps)
    · have hpk := List.filter_eq_nil_iff.mp hsel p hp
      rw [decide_eq_true_eq] at hpk
      exact hpk (hsame.rdtype.symm.trans (hmatch.resolve_right hany))

theorem StepCase.at (hd : d.Documented) {s : Step} (h : StepCase d z kind n front key s)
    (hz : InZone z n front) (hkey : keyOf front = some key) :
    (database d z).At kind n s.outcome := by
  have hsoa : (database d z).NegativeSoa kind n (Zone.negativeSoa d z kind key front.length) :=
    negativeSoa_inCharge hz hkey
  cases h with
  | cut hg hgkey hone hds =>
    have hcut := at_cut (d := d) hg hz (hgkey ▸ hkey) hone hds
    rw [negativeSoa_of_referral hg] at hcut
    exact hcut
  | delegation hg hgkey hno => exact at_delegation hg hz (hgkey ▸ hkey) hno
  | refused hrefused =>
    refine .refused (.outside ?_)
    rintro ⟨front', key', hz', hkey', hne⟩
    obtain ⟨-, rfl⟩ := hz.key_unique hkey hz' hkey'
    exact hne hrefused
  | tooLong hmem hhkey h1 hsub =>
    exact at_redirected hmem hz (hhkey ▸ hkey) h1 fun heq => .tooLong rfl (heq ▸ hsub)
  | dnameEnd hmem hhkey h1 hsub hk =>
    exact at_redirected hmem hz (hhkey ▸ hkey) h1 fun heq => .cname rfl (heq ▸ hsub) hk
  | dnameNext hmem hhkey h1 hsub hk =>
    exact at_redirected hmem hz (hhkey ▸ hkey) h1 fun heq => .follow rfl (heq ▸ hsub) hk
  | absent hnode hnone =>
    exact .own (hnode.own hz hkey)
      (.absent (fun hex => (exists_iff_node hnode hz hkey).mp hex hnone) hsoa)
  | @cnameEnd p g hnode hps hcname _ _ hk =>
    have howns := owns_of_mem_node (d := d) hz hkey hps List.mem_cons_self
    refine .own (hnode.own hz hkey) (.data (fun _ _ hfollow => hfollow.2 hk) howns ?_
      (addresses_of_hosts_nil ?_))
    · rcases List.mem_cons.mp hk with hk | hk
      · exact Or.inl (hcname.trans hk.symm)
      · exact Or.inr (List.mem_singleton.mp hk)
    · show p.template.kind ∉ _
      rw [hcname]
      decide
  | @cnameNext p g hnode hps hcname hg _ hk =>
    have howns := owns_of_mem_node (d := d) hz hkey hps List.mem_cons_self
    have hwf := (wellFormedNode_node z n key front.length _ hps).templates p.template (by simp)
    exact .own (hnode.own hz hkey) (.cname howns ⟨hcname, hk⟩ (rdatas_cname hwf hcname hg))
  | noData hnode hps hno hsel => exact at_noData hz hkey hnode hps hno hsel
  | @data ps p hnode hps hno hp hsel hpk =>
    have howns := owns_of_mem_node (d := d) hz hkey hps hp
    have hwf := (wellFormedNode_node z n key front.length ps hps).templates p.template
      (List.mem_map_of_mem hp)
    refine .own (hnode.own hz hkey) (.data (fun r hr hfollow => ?_) howns hpk.symm
      (addresses_data hd hwf))
    obtain ⟨q, hq, hsame⟩ := hnode.exists_mem hz hkey hps hr
    exact hno q hq (hsame.rdtype.symm.trans hfollow.1)

/-! ### Every resolution is the server's -/

/-- The answer behind an alias is authoritative. -/
theorem Resolves.aa_of_ne_nil {m : Nat} {chain : List RRset} {c : Conclusion}
    (h : Resolves d z kind m n chain c) (hne : chain ≠ []) : c.aa = true := by
  obtain ⟨last, front, key, hz, hkey, hstep, hchain, hend⟩ := h.chain_cases
  by_contra hclear
  exact hne (hchain.eq_nil hkey hstep hend (Or.inr (by simpa using hclear))).1

theorem Resolves.answers (hd : d.Documented) {m : Nat} {chain : List RRset} {c : Conclusion}
    (h : Resolves d z kind m n chain c) :
    (database d z).Answers kind n ⟨c.aa, c.rcode, chain ++ c.answer, c.authority, c.additional⟩ := by
  induction h with
  | stop hz hkey hstep => exact .stop ((StepCase.of_step hstep).at hd hz hkey)
  | @follow m n next front key aliases chain c hz hkey hstep hrest ih =>
    have hcase := StepCase.of_step hstep
    have haa : c.aa = true := by
      refine (Resolves.follow hz hkey hstep hrest).aa_of_ne_nil fun hnil => ?_
      obtain ⟨rfl, -⟩ := List.append_eq_nil_iff.mp hnil
      cases hcase
    have hbehind := Database.Answers.follow (hcase.at hd hz hkey) ih
    rw [Dns.Reply.behind, ← List.append_assoc] at hbehind
    rwa [haa]

end

/-! ### On the wire -/

/-- A reader of the message reads the reply. -/
structure Tells (m : Message) (reply : Dns.Reply) : Prop where
  rcode : m.rcode = reply.rcode
  aa : hasFlag m.flags Flag.AA ↔ reply.aa = true
  answer : List.Forall₂ RRset.SameAs m.answer reply.answer
  authority : List.Forall₂ RRset.SameAs m.authority reply.authority
  additional : List.Forall₂ RRset.SameAs m.additional reply.additional

section

variable {d : Dnspython} {query s m : Message}

theorem Tells.of_sameAs {t : Message} {reply : Dns.Reply} (h : Tells m reply) (ht : t.SameAs m) :
    Tells t reply where
  rcode := by
    rw [Message.rcode, Message.ednsflags, ht.flags, ht.opt]
    exact h.rcode
  aa := by
    rw [ht.flags]
    exact h.aa
  answer := forall₂_trans (r := RRset.SameAs) (fun _ _ _ => RRset.SameAs.trans) ht.answer h.answer
  authority :=
    forall₂_trans (r := RRset.SameAs) (fun _ _ _ => RRset.SameAs.trans) ht.authority h.authority
  additional :=
    forall₂_trans (r := RRset.SameAs) (fun _ _ _ => RRset.SameAs.trans) ht.additional h.additional

theorem tells_refused (hs : Skeleton query s) :
    Tells (s.setRcode Rcode.REFUSED) ⟨false, Rcode.REFUSED, [], [], []⟩ := by
  refine ⟨hs.isReplyOpt.rcode_setRcode (by decide) (by decide), ?_, ?_, ?_, ?_⟩
  · rw [hasFlag, Message.setRcode_flags_and s Rcode.REFUSED (by decide) (by decide)]
    exact iff_of_false hs.not_aa Bool.false_ne_true
  · rw [Message.setRcode_answer, hs.answer]
    exact .nil
  · rw [Message.setRcode_authority, hs.authority]
    exact .nil
  · rw [Message.setRcode_additional, hs.additional]
    exact .nil

theorem Resolves.tells {z : Nonce} {kind : UInt16} {n : Nat} {owner : Name} {chain : List RRset}
    {c : Conclusion} (h : Resolves d z kind n owner chain c) (hs : Skeleton query s) :
    Tells (concluded s chain c)
      ⟨c.aa, c.rcode, chain ++ c.answer, c.authority, c.additional⟩ := by
  obtain ⟨hrcode, hanswer, hauthority, hadditional⟩ := h.concluded_parts hs
  refine ⟨hrcode, concluded_aa s chain c, ?_, ?_, ?_⟩
  · rw [hanswer]
    exact forall₂_sameAs_refl _
  · rw [hauthority]
    exact forall₂_sameAs_refl _
  · rw [hadditional]
    exact forall₂_sameAs_refl _

variable (hd : d.Documented)
include hd

/-- What becomes of a question in a zone is what the server answers. -/
theorem QuestionCase.answers {q : Question} {z : Nonce} {front : List Label}
    (h : QuestionCase d q s (.ok m)) (hs : Skeleton query s) (hz : InZone z q.name front)
    (hclass : q.rdclass ∈ [RRClass.IN, RRClass.ANY])
    (hkind : q.rdtype ∉ [RRType.AXFR, RRType.IXFR]) :
    ∃ reply, Tells m reply ∧ (database d z).Answers q.rdtype q.name reply := by
  cases h with
  | refused hrefused =>
    refine ⟨_, tells_refused hs, .stop (.refused (.outside ?_))⟩
    -- a label that is not ASCII
    rintro ⟨front', key, hz', hkey, -⟩
    rcases hrefused with hnone | hno | hno
    · rw [nameKey_of_inZone hz', hkey] at hnone
      cases hnone
    · exact hno hclass
    · exact hkind hno
  | resolved _ hz' _ _ hres =>
    obtain ⟨rfl, -⟩ := hz.unique hz'
    exact ⟨_, hres.tells hs, hres.answers hd⟩

/-- **One authoritative server**: a nonce has well-formed zones, and the reply over TCP to a question in
them is an answer from their records; for every type but ANY it is the answer. -/
theorem answerFresh_authoritative {w r : Octets} {q : Question} (h : AsksOnce d w q query) {z : Nonce}
    {front : List Label} (hz : InZone z q.name front) (hclass : q.rdclass ∈ [RRClass.IN, RRClass.ANY])
    (hkind : q.rdtype ∉ [RRType.AXFR, RRType.IXFR]) (hr : answerFresh d w true = .ok r) :
    (database d z).WellFormed ∧ ∃ m reply, d.messageFromWire r = .ok m ∧ Tells m reply ∧
      (database d z).Answers q.rdtype q.name reply ∧ (q.rdtype ≠ RRType.ANY →
        ∀ n reply', n.SameAs q.name → (database d z).Answers q.rdtype n reply' →
          reply'.SameAs reply) := by
  obtain ⟨s, x, hs, hcase, hanswer, hsend⟩ := answerFresh_whole hd h
  rw [hanswer] at hr
  cases x with
  | error e => cases hr
  | ok m =>
    cases hr
    obtain ⟨reply, htells, hanswers⟩ := hcase.answers hd hs hz hclass hkind
    have hm := hsend m rfl
    obtain ⟨t, ht, hsame⟩ := hd.render_decodes m hm.renderable
      (Nat.le_trans (hd.render_length m hm.renderable) hm.size)
    have hwf := database_wellFormed d z
    exact ⟨hwf, t, reply, ht, htells.of_sameAs hsame, hanswers, fun hany n reply' hn hanswers' =>
      hanswers'.unique hwf hany hanswers hn⟩

end

/-- The address of `cname-chain`, two aliases away. -/
theorem answerFresh_authoritative_chain :
    let n := Nonce.zeros.host ⟨"cname-chain", by decide⟩
    ∃ r, answerFresh Reference.dnspython (Reference.ask n.labels RRType.A) true = .ok r ∧
      (database Reference.dnspython Nonce.zeros).WellFormed ∧
      ∃ m reply, Reference.dnspython.messageFromWire r = .ok m ∧ Tells m reply ∧
        (database Reference.dnspython Nonce.zeros).Answers RRType.A n reply ∧ (RRType.A ≠ RRType.ANY →
          ∀ n' reply', n'.SameAs n →
            (database Reference.dnspython Nonce.zeros).Answers RRType.A n' reply' →
              reply'.SameAs reply) := by
  obtain ⟨r, hr⟩ := Reference.exists_of_isOk (x := answerFresh Reference.dnspython
    (Reference.ask (Nonce.zeros.host ⟨"cname-chain", by decide⟩).labels RRType.A) true)
    (by decide +kernel)
  exact ⟨r, hr, answerFresh_authoritative Reference.documented
    ⟨Reference.messageFromWire_ask _ _, by decide, by decide, rfl, by decide⟩
    (Nonce.zeros.inZone_host _) List.mem_cons_self (by decide) hr⟩

end DnsFixtures
