import DnsFixtures.Equiv.Consistency

/-!
# Aliases

* `answer_alias`: the response for an alias is its alias RRsets in front of the response for the
  name it leads to.
* `answer_dname`: below a DNAME the response is decided by the length of the substituted name.

Both come down to one step of the resolver (`AliasNode.step`, `step_below_dname`); what follows the
step is the same for the alias and for the next name, since `Resolves` carries nothing along.
-/

namespace DnsFixtures

open Dns

/-- Where a CNAME of the catalogue leads. -/
def cnameTarget (key : String) : Host := if key = "cname-chain" then chainHop else aHost

theorem isHost_targetTree : IsHost "target-tree" := by decide

def targetTree : Host := ⟨"target-tree", isHost_targetTree⟩

/-- The name is an alias, with these RRsets in front of the name it leads to: a node with a CNAME
record, or a name below a DNAME for which the substituted one is legal. -/
inductive AliasNode (z : Nonce) (kind : UInt16) (owner : Name) : List RRset → Name → Prop
  | cname {l : Label} {key : String} : InZone z owner [l] → keyOf [l] = some key → key ∈ ALIASES →
      kind ≠ RRType.CNAME → kind ≠ RRType.ANY →
      AliasNode z kind owner
        [⟨owner, RRType.CNAME, RRClass.IN, 0, [[.name (z.host (cnameTarget key))]]⟩]
        (z.host (cnameTarget key))
  | dname {p : List Label} {l : Label} {h : Host} {next : Name} : p ≠ [] →
      InZone z owner (p ++ [l]) → keyOf (p ++ [l]) = some h.text → h ∈ dnameHosts →
      next.labels = p ++ targetTree.label :: z.labels → kind ≠ RRType.CNAME →
      AliasNode z kind owner
        [⟨z.host h, RRType.DNAME, RRClass.IN, 0, [[.name (z.host targetTree)]]⟩,
          ⟨owner, RRType.CNAME, RRClass.IN, 0, [[.name next]]⟩] next

/-! ### Substituted names -/

theorem nameLength_of_foldCase {a b : List Label} (h : foldCase a = foldCase b) :
    nameLength a = nameLength b := by
  rw [← nameLength_foldCase a, h, nameLength_foldCase]

theorem substituted_eq_some_iff {z : Nonce} {p : List Label} {l : Label} {next : Name} :
    Zone.substituted z (p ++ [l]) = some next ↔
      next.labels = p ++ targetTree.label :: z.labels := by
  rw [Zone.substituted, List.dropLast_concat, Name.concatenate]
  constructor
  · exact Name.ofLabels?_eq_some
  · intro h
    obtain ⟨labels, hlegal⟩ := next
    obtain rfl : labels = p ++ targetTree.label :: z.labels := h
    exact Name.ofLabels?_of_legal hlegal

section

variable {z : Nonce} {owner : Name} {p : List Label} {l : Label}

/-- Only the length decides whether there is a substituted name. -/
theorem exists_substituted_iff (hz : InZone z owner (p ++ [l])) :
    (∃ next, Zone.substituted z (p ++ [l]) = some next) ↔
      nameLength (p ++ targetTree.label :: z.labels) ≤ 255 := by
  obtain ⟨suffix, howner, -⟩ := hz.labels
  have hp : LegalLabels p := by
    have := owner.legal
    rw [howner] at this
    exact this.of_append_left.of_append_left
  have htree := (z.host targetTree).legal
  constructor
  · rintro ⟨next, h⟩
    rw [← substituted_eq_some_iff.mp h]
    exact next.legal.total_le
  · intro hlen
    refine ⟨⟨p ++ targetTree.label :: z.labels, ?_, ?_, hlen⟩, substituted_eq_some_iff.mpr rfl⟩
    · intro x hx
      exact (List.mem_append.mp hx).elim (hp.label_ne_nil x) (htree.label_ne_nil x)
    · intro x hx
      exact (List.mem_append.mp hx).elim (hp.label_le x) (htree.label_le x)

/-- How long the substituted name is, by the name it stands for. -/
theorem nameLength_substituted (hz : InZone z owner (p ++ [l])) :
    nameLength (p ++ targetTree.label :: z.labels) + l.length
      = nameLength owner.labels + targetTree.label.length := by
  obtain ⟨suffix, howner, hsuffix⟩ := hz.labels
  have hlen := nameLength_of_foldCase (hsuffix.trans z.foldCase_labels.symm)
  have h1 := nameLength_append p (targetTree.label :: z.labels)
  have h2 := nameLength_append p (l :: suffix)
  have hcons : owner.labels = p ++ l :: suffix := by
    rw [howner, List.append_assoc, List.singleton_append]
  rw [nameLength_cons] at h1 h2
  rw [hcons]
  omega

/-! ### The step at an alias -/

theorem length_of_keyOf {h : Host} (hkey : keyOf (p ++ [l]) = some h.text) :
    l.length = h.text.length := by
  obtain ⟨hascii, htext⟩ := keyOf_concat_iff.mp hkey
  rw [← length_lower, ← htext, textOctets, List.length_map, String.length_toList]

theorem step_below_dname (d : Dnspython) (z : Nonce) (kind : UInt16) (owner : Name)
    {front : List Label} {h : Host} (hmem : h ∈ dnameHosts) (hdepth : front.length ≠ 1) :
    Zone.step d z kind owner front h.text = Zone.dnameStep d z kind owner front h := by
  have hspecial : ∀ h ∈ dnameHosts, hostIn referralHosts h.text = none ∧ h.text ≠ "refused" ∧
      hostIn dnameHosts h.text = some h := by decide
  obtain ⟨h1, h2, h3⟩ := hspecial h hmem
  unfold Zone.step
  rw [h1]
  dsimp only
  rw [if_neg h2, h3, Option.filter_some, if_pos (by simpa using hdepth)]

variable {d : Dnspython} {kind : UInt16}

theorem fixture_alias {key : String} (hkey : key ∈ ALIASES) :
    fixture key = some [Fixture.target RRType.CNAME (cnameTarget key)] := by
  have hdname : key ∉ DNAME_KEYS := (by decide : ∀ k ∈ ALIASES, k ∉ DNAME_KEYS) key hkey
  unfold fixture cnameTarget
  rw [if_neg hdname, if_pos hkey]
  rfl

theorem step_cname {key : String} (hkey : key ∈ ALIASES) (h1 : kind ≠ RRType.CNAME)
    (h2 : kind ≠ RRType.ANY) : Zone.step d z kind owner [l] key
      = .follow [⟨owner, RRType.CNAME, RRClass.IN, 0, [[.name (z.host (cnameTarget key))]]⟩]
          (z.host (cnameTarget key)) := by
  have hspecial : ∀ k ∈ ALIASES, k ∉ ["referral", "additional-referral", "refused"] ∧
      k ∉ DNAME_KEYS ∧ k ≠ "apex" := by decide
  obtain ⟨hreferral, hdname, hapex⟩ := hspecial key hkey
  have hnode : Zone.node z owner key 1
      = some [⟨owner, Fixture.target RRType.CNAME (cnameTarget key)⟩] := by
    rw [node_of_depth_pos (by decide) hapex (Or.inl rfl), fixture_alias hkey]
    rfl
  have hkind : kind ∉ [RRType.CNAME, RRType.ANY] := by
    simp only [List.mem_cons, List.not_mem_nil, or_false, not_or]
    exact ⟨h1, h2⟩
  have hstep : Zone.nodeStep d z kind key 1
      (some [⟨owner, Fixture.target RRType.CNAME (cnameTarget key)⟩])
      = if kind ∈ [RRType.CNAME, RRType.ANY]
        then .stop (Zone.answered
          [⟨owner, RRType.CNAME, RRClass.IN, 0, [[.name (z.host (cnameTarget key))]]⟩])
        else .follow [⟨owner, RRType.CNAME, RRClass.IN, 0, [[.name (z.host (cnameTarget key))]]⟩]
          (z.host (cnameTarget key)) := rfl
  rw [step_eq_nodeStep hreferral hdname, List.length_singleton, hnode, hstep, if_neg hkind]

theorem length_concat_ne_one {p : List Label} {l : Label} (hp : p ≠ []) :
    (p ++ [l]).length ≠ 1 := by
  have := List.length_pos_iff.mpr hp
  simp only [List.length_append, List.length_singleton]
  omega

/-- **Step lemma**: at an alias the resolver goes on to the next name. -/
theorem AliasNode.step {aliases : List RRset} {next : Name}
    (h : AliasNode z kind owner aliases next) : ∃ front g, InZone z owner front ∧
      keyOf front = some (Host.text g) ∧
      Zone.step d z kind owner front g.text = .follow aliases next := by
  cases h with
  | @cname l key hz hkey hmem h1 h2 =>
    have hhost : IsHost key := (by decide : ∀ k ∈ ALIASES, IsHost k) key hmem
    exact ⟨[l], ⟨key, hhost⟩, hz, hkey, step_cname hmem h1 h2⟩
  | @dname p l h next hp hz hkey hmem hnext hk =>
    have hdepth := @length_concat_ne_one p l hp
    refine ⟨p ++ [l], h, hz, hkey, ?_⟩
    rw [step_below_dname d z kind owner hmem hdepth, Zone.dnameStep, substituted_eq_some_iff.mpr hnext]
    dsimp only
    rw [if_neg hk]
    rfl

end

/-! ### What the alias puts in front -/

theorem setRcode_append (m : Message) (rcode : UInt16) (rs : List RRset) :
    ({ m with answer := rs ++ m.answer } : Message).setRcode rcode
      = { m.setRcode rcode with answer := rs ++ (m.setRcode rcode).answer } := by
  have h := m.setRcode_sections rcode (rs ++ m.answer) m.authority m.additional
  rw [Message.setRcode_answer]
  refine h.trans ?_
  rw [← Message.setRcode_authority m rcode, ← Message.setRcode_additional m rcode]

/-- A conclusion goes behind whatever the answer section holds. -/
theorem Conclusion.apply_append (c : Conclusion) (m : Message) (rs : List RRset) :
    c.apply { m with answer := rs ++ m.answer }
      = { c.apply m with answer := rs ++ (c.apply m).answer } := by
  unfold Conclusion.apply
  dsimp only
  rw [List.append_assoc]
  by_cases hc : c.rcode = Rcode.NOERROR
  · rw [if_pos hc, if_pos hc]
  · rw [if_neg hc, if_neg hc]
    exact setRcode_append { m with
      flags := if c.aa then m.flags else m.flags &&& ~~~Flag.AA
      answer := m.answer ++ c.answer
      authority := m.authority ++ c.authority
      additional := m.additional ++ c.additional } c.rcode rs

section

variable {d : Dnspython} (hd : d.Documented) {z : Nonce} {kind : UInt16} {owner next : Name}
  {aliases : List RRset} {start : Message}
include hd

/-- **Aliases compose**: the response for an alias is the response for the name it leads to, with the
alias RRsets in front of the answer. -/
theorem answer_alias (h : AliasNode z kind owner aliases next) (hstart : start.rrsets = []) :
    ∃ m, answer d start next kind z.text = .ok m ∧
      answer d start owner kind z.text = .ok { m with answer := aliases ++ m.answer } := by
  obtain ⟨h12, hadditional⟩ := List.append_eq_nil_iff.mp hstart
  obtain ⟨hanswer, -⟩ := List.append_eq_nil_iff.mp h12
  obtain ⟨front, g, hz, hkey, hstep⟩ := h.step (d := d)
  obtain ⟨front', g', hz', hkey', -⟩ := (aliasTarget_of_step hstep).inZone
  obtain ⟨n, chain, c, hres, hrun⟩ := answer_eq hd kind hz' hkey'
    (nameFromText_target hd z g'.text g'.isHost) hadditional
  obtain ⟨n', chain', c', hres', hrun'⟩ := answer_eq hd kind hz hkey
    (nameFromText_target hd z g.text g.isHost) hadditional
  -- the chain of the alias goes on as that of the next name
  obtain ⟨-, rfl, rfl⟩ := hres'.unique (.follow hz hkey hstep hres)
  refine ⟨_, hrun, ?_⟩
  rw [hrun', hanswer, List.nil_append, List.nil_append]
  exact congrArg Except.ok (c'.apply_append { start with answer := chain } aliases)

end

/-- `cname-chain` leads to `chain-hop`, which is an alias itself. -/
theorem answer_alias_chain : ∃ m,
    answer Reference.dnspython ⟨0, Flag.AA, [], [], [], [], none⟩ (Nonce.zeros.host chainHop)
      RRType.A Nonce.zeros.text = .ok m ∧
    answer Reference.dnspython ⟨0, Flag.AA, [], [], [], [], none⟩
      (Nonce.zeros.host ⟨"cname-chain", by decide⟩) RRType.A Nonce.zeros.text
      = .ok { m with answer := [⟨Nonce.zeros.host ⟨"cname-chain", by decide⟩, RRType.CNAME,
          RRClass.IN, 0, [[.name (Nonce.zeros.host chainHop)]]⟩] ++ m.answer } :=
  answer_alias Reference.documented
    (.cname (Nonce.zeros.inZone_host ⟨"cname-chain", by decide⟩)
      (keyOf_host [] ⟨"cname-chain", by decide⟩) (by decide) (by decide) (by decide)) rfl

/-- What follows an alias is no error. -/
theorem Resolves.noError_of_tree {d : Dnspython} {z : Nonce} {kind : UInt16} {n : Nat} {next : Name}
    {p : List Label} {chain : List RRset} {c : Conclusion} (h : Resolves d z kind n next chain c)
    (hnext : next.labels = p ++ targetTree.label :: z.labels) : c.rcode = Rcode.NOERROR := by
  have hz : InZone z next (p ++ [targetTree.label]) :=
    ⟨z.labels, by rw [hnext]; simp, z.foldCase_labels⟩
  have hkey := keyOf_host p targetTree
  obtain ⟨-, hstep⟩ := h.eq_nil_of_stops hz hkey (endsChain_tree _)
  rcases (endsChain_tree (p ++ [targetTree.label])).stop_cases hkey hstep with rfl | ⟨q, rfl, -⟩
  · rfl
  · rfl

/-- Below a DNAME the chain starts with it and the synthesised CNAME, and ends without an error. -/
theorem Resolves.of_substituted {d : Dnspython} {z : Nonce} {kind : UInt16} {n : Nat}
    {owner next : Name} {p : List Label} {l : Label} {h : Host} {chain : List RRset} {c : Conclusion}
    (hres : Resolves d z kind n owner chain c) (hz : InZone z owner (p ++ [l]))
    (hkey : keyOf (p ++ [l]) = some h.text) (hmem : h ∈ dnameHosts) (hdepth : (p ++ [l]).length ≠ 1)
    (hsub : Zone.substituted z (p ++ [l]) = some next) : c.rcode = Rcode.NOERROR ∧
      ∃ rest, chain ++ c.answer = Zone.dname d z h :: Zone.synthesised owner next :: rest := by
  have hstep := step_below_dname d z kind owner hmem hdepth
  rw [Zone.dnameStep, hsub] at hstep
  dsimp only at hstep
  -- a query for CNAME ends at the synthesised record
  by_cases hk : kind = RRType.CNAME
  · rw [if_pos hk] at hstep
    obtain ⟨-, rfl, rfl⟩ := hres.unique (.stop hz hkey hstep)
    exact ⟨rfl, [], rfl⟩
  · rw [if_neg hk] at hstep
    obtain ⟨n', -, chain', c', hrest⟩ := resolves_aliasTarget d kind (aliasTarget_of_step hstep)
    obtain ⟨-, rfl, rfl⟩ := hres.unique (.follow hz hkey hstep hrest)
    exact ⟨hrest.noError_of_tree (substituted_eq_some_iff.mp hsub), chain' ++ c.answer, rfl⟩

/-- The message for a name below a DNAME: the substituted name and the records that lead to it, or
YXDOMAIN where that name would be too long. -/
structure BelowDname (z : Nonce) (owner : Name) (p : List Label) (h : Host) (m : Message) : Prop where
  fits : nameLength (p ++ targetTree.label :: z.labels) ≤ 255 →
    m.rcode = Rcode.NOERROR ∧ ∃ next rest,
      next.labels = p ++ targetTree.label :: z.labels ∧
      m.answer = ⟨z.host h, RRType.DNAME, RRClass.IN, 0, [[.name (z.host targetTree)]]⟩ ::
        ⟨owner, RRType.CNAME, RRClass.IN, 0, [[.name next]]⟩ :: rest
  tooLong : 255 < nameLength (p ++ targetTree.label :: z.labels) →
    m.rcode = Rcode.YXDOMAIN ∧
      m.answer = [⟨z.host h, RRType.DNAME, RRClass.IN, 0, [[.name (z.host targetTree)]]⟩]
  yxDomain : m.rcode = Rcode.YXDOMAIN ↔ h.text = "dname" ∧ 255 - 6 < nameLength owner.labels

section

variable {z : Nonce} {owner : Name} {p : List Label} {l : Label} {h : Host}

/-- Where the two labels have one length, a legal name has a legal substitute. -/
theorem tooLong_iff (hz : InZone z owner (p ++ [l])) (hkey : keyOf (p ++ [l]) = some h.text)
    (hmem : h ∈ dnameHosts) : 255 < nameLength (p ++ targetTree.label :: z.labels) ↔
      h.text = "dname" ∧ 255 - 6 < nameLength owner.labels := by
  have hlen := nameLength_substituted hz
  have htree : targetTree.label.length = 11 := by decide
  have hl := length_of_keyOf hkey
  have htotal := owner.legal.total_le
  have hcases : ∀ h ∈ dnameHosts, (h.text = "dname" ∧ h.text.length = 5) ∨
      (h.text ≠ "dname" ∧ h.text.length = 11) := by decide
  rcases hcases h hmem with ⟨htext, h5⟩ | ⟨htext, h11⟩
  · constructor
    · intro hlong
      exact ⟨htext, by omega⟩
    · rintro ⟨-, hlong⟩
      omega
  · refine iff_of_false ?_ fun hd => htext hd.1
    omega

variable {d : Dnspython} (hd : d.Documented)
include hd

/-- **DNAME substitution**: every label in front of the DNAME is kept octet by octet, and the response
is YXDOMAIN exactly when the substituted name is too long, which takes a name of 250 octets or more
below `dname` and never happens below `dname-child`. -/
theorem answer_dname (hp : p ≠ []) (hz : InZone z owner (p ++ [l]))
    (hkey : keyOf (p ++ [l]) = some h.text) (hmem : h ∈ dnameHosts) (kind : UInt16)
    {query s : Message} (hs : Skeleton query s) :
    ∃ m, answer d { s with flags := s.flags ||| Flag.AA } owner kind z.text = .ok m ∧
      BelowDname z owner p h m := by
  have hadditional : ({ s with flags := s.flags ||| Flag.AA } : Message).additional = [] :=
    hs.additional
  obtain ⟨n, chain, c, hres, hrun⟩ := answer_eq hd kind hz hkey
    (nameFromText_target hd z h.text h.isHost) hadditional
  have hmsg : c.apply { s with flags := s.flags ||| Flag.AA, answer := s.answer ++ chain }
      = concluded s chain c := by
    rw [hs.answer, List.nil_append]
    rfl
  refine ⟨concluded s chain c, hrun.trans (congrArg Except.ok hmsg), ?_⟩
  obtain ⟨hrcode, -⟩ := hres.concluded_parts hs
  have hdepth := @length_concat_ne_one p l hp
  have hstep := step_below_dname d z kind owner hmem hdepth
  -- by the length of the substituted name
  cases hsub : Zone.substituted z (p ++ [l]) with
  | none =>
    have hlong : 255 < nameLength (p ++ targetTree.label :: z.labels) := by
      refine Nat.lt_of_not_le fun hle => ?_
      obtain ⟨next, hnext⟩ := (exists_substituted_iff hz).mpr hle
      rw [hsub] at hnext
      cases hnext
    have hstop : Zone.step d z kind owner (p ++ [l]) h.text
        = .stop ⟨true, Rcode.YXDOMAIN, [Zone.dname d z h], [], []⟩ := by
      rw [hstep, Zone.dnameStep, hsub]
    obtain ⟨-, rfl, rfl⟩ := hres.unique (.stop hz hkey hstop)
    exact ⟨fun hle => absurd hlong (Nat.not_lt.mpr hle), fun _ => ⟨hrcode, concluded_answer ..⟩,
      iff_of_true hrcode ((tooLong_iff hz hkey hmem).mp hlong)⟩
  | some next =>
    have hle := (exists_substituted_iff hz).mp ⟨next, hsub⟩
    have hnext := substituted_eq_some_iff.mp hsub
    obtain ⟨hno, rest, hrest⟩ := hres.of_substituted hz hkey hmem hdepth hsub
    rw [hno] at hrcode
    refine ⟨fun _ => ⟨hrcode, next, rest, hnext, (concluded_answer ..).trans hrest⟩,
      fun hlong => absurd hle (Nat.not_le.mpr hlong), iff_of_false ?_ ?_⟩
    · rw [hrcode]
      exact (by decide : Rcode.NOERROR ≠ Rcode.YXDOMAIN)
    · intro hlong
      exact absurd hle (Nat.not_le.mpr ((tooLong_iff hz hkey hmem).mpr hlong))

end

/-- Octets that text must escape: a dot, a quote, a blank, a backslash and octet 255. -/
def oddLabel : Label := [46, 34, 32, 92, 255]

/-- A name below `dname`, which is spelled in mixed case. -/
def belowDname : Name := ⟨[oddLabel, textOctets "DName"] ++ Nonce.zeros.labels, by decide⟩

theorem answer_dname_odd : ∃ m,
    answer Reference.dnspython
      ⟨0x1234, Flag.QR ||| Flag.RD ||| Flag.AA, [⟨belowDname, RRType.A, RRClass.IN⟩], [], [], [],
        none⟩ belowDname RRType.A Nonce.zeros.text = .ok m ∧
    BelowDname Nonce.zeros belowDname [oddLabel] ⟨"dname", by decide⟩ m := by
  have hz : InZone Nonce.zeros belowDname ([oddLabel] ++ [textOctets "DName"]) :=
    ⟨Nonce.zeros.labels, rfl, Nonce.zeros.foldCase_labels⟩
  have hs : Skeleton (Reference.query belowDname RRType.A)
      ⟨0x1234, Flag.QR ||| Flag.RD, [⟨belowDname, RRType.A, RRClass.IN⟩], [], [], [], none⟩ :=
    ⟨rfl, by decide, rfl, rfl, rfl, rfl, rfl⟩
  have hkey : keyOf ([oddLabel] ++ [textOctets "DName"]) = some "dname" := by decide
  have h := answer_dname Reference.documented (List.cons_ne_nil oddLabel []) hz
    (h := ⟨"dname", by decide⟩) hkey List.mem_cons_self RRType.A hs
  exact h

end DnsFixtures
