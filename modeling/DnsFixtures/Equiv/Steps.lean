import DnsFixtures.Equiv.Answer

/-!
# What the resolver can do at a name

`step_cases` says once what a step of the resolver can be (`StepCase`), guards included; the shapes
of the responses, their size and their consistency are case analyses over it.

`chain_cases` does the same for what follows an alias: at most one more alias, that of `chain-hop`.
-/

namespace DnsFixtures

open Dns

/-- The name has a node of its own: it is neither delegated nor refused nor below a DNAME. -/
structure HasNode (key : String) (depth : Nat) : Prop where
  referral : key ∉ ["referral", "additional-referral"]
  refused : key ≠ "refused"
  dname : key ∈ DNAME_KEYS → depth = 1

/-- The synthesised CNAME of a name below a DNAME. -/
def Zone.synthesised (owner next : Name) : RRset :=
  ⟨owner, RRType.CNAME, RRClass.IN, 0, [[.name next]]⟩

inductive StepCase (d : Dnspython) (z : Nonce) (kind : UInt16) (owner : Name) (front : List Label)
    (key : String) : Step → Prop
  /-- DS of a delegated name is data of the zone above -/
  | cut {h : Host} : h ∈ referralHosts → key = h.text → front.length = 1 → kind = RRType.DS →
      StepCase d z kind owner front key (.stop (Zone.noData (Fixture.zoneSoa.fill d z z.zone)))
  | delegation {h : Host} : h ∈ referralHosts → key = h.text →
      ¬ (front.length = 1 ∧ kind = RRType.DS) →
      StepCase d z kind owner front key (.stop (Zone.delegation d z h))
  | refused : key = "refused" → StepCase d z kind owner front key (.stop Zone.refusal)
  /-- the name below `target-tree` would be too long -/
  | tooLong {h : Host} : h ∈ dnameHosts → key = h.text → front.length ≠ 1 →
      Zone.substituted z front = none →
      StepCase d z kind owner front key
        (.stop ⟨true, Rcode.YXDOMAIN, [Zone.dname d z h], [], []⟩)
  | dnameEnd {h : Host} {next : Name} : h ∈ dnameHosts → key = h.text → front.length ≠ 1 →
      Zone.substituted z front = some next → kind = RRType.CNAME →
      StepCase d z kind owner front key
        (.stop (Zone.answered [Zone.dname d z h, Zone.synthesised owner next]))
  | dnameNext {h : Host} {next : Name} : h ∈ dnameHosts → key = h.text → front.length ≠ 1 →
      Zone.substituted z front = some next → kind ≠ RRType.CNAME →
      StepCase d z kind owner front key
        (.follow [Zone.dname d z h, Zone.synthesised owner next] next)
  | absent : HasNode key front.length → Zone.node z owner key front.length = none →
      StepCase d z kind owner front key
        (.stop (Zone.nxDomain (Zone.negativeSoa d z kind key front.length)))
  | cnameEnd {p : Placed} {g : Host} : HasNode key front.length →
      Zone.node z owner key front.length = some [p] → p.template.kind = RRType.CNAME →
      p.template.data.head?.bind targetHost = some g → g.text ∈ ["a", "chain-hop"] →
      kind ∈ [RRType.CNAME, RRType.ANY] →
      StepCase d z kind owner front key (.stop (Zone.answered [Zone.rrset d z p]))
  | cnameNext {p : Placed} {g : Host} : HasNode key front.length →
      Zone.node z owner key front.length = some [p] → p.template.kind = RRType.CNAME →
      p.template.data.head?.bind targetHost = some g → g.text ∈ ["a", "chain-hop"] →
      kind ∉ [RRType.CNAME, RRType.ANY] →
      StepCase d z kind owner front key (.follow [Zone.rrset d z p] (z.host g))
  | noData {ps : List Placed} : HasNode key front.length →
      Zone.node z owner key front.length = some ps →
      (∀ p ∈ ps, p.template.kind ≠ RRType.CNAME) → Zone.select kind ps = [] →
      StepCase d z kind owner front key
        (.stop (Zone.noData (Zone.negativeSoa d z kind key front.length)))
  | data {ps : List Placed} {p : Placed} : HasNode key front.length →
      Zone.node z owner key front.length = some ps →
      (∀ p ∈ ps, p.template.kind ≠ RRType.CNAME) → p ∈ ps → Zone.select kind ps = [p] →
      (kind = RRType.ANY ∨ p.template.kind = kind) →
      StepCase d z kind owner front key (.stop (Zone.data d z [p]))

/-- The step at a name with a node of its own. -/
theorem nodeStep_cases (d : Dnspython) {z : Nonce} (kind : UInt16) {owner : Name}
    {front : List Label} {key : String} (hnode : HasNode key front.length) :
    StepCase d z kind owner front key
      (Zone.nodeStep d z kind key front.length (Zone.node z owner key front.length)) := by
  have hwf := wellFormedNode_node z owner key front.length
  cases hps : Zone.node z owner key front.length with
  | none => exact .absent hnode hps
  | some ps =>
    have hps' := hwf ps hps
    unfold Zone.nodeStep
    dsimp only
    cases hfind : ps.find? fun p => p.template.kind = RRType.CNAME with
    | some p =>
      have hmem := List.mem_of_find?_eq_some hfind
      have hkind : p.template.kind = RRType.CNAME := by simpa using List.find?_some hfind
      obtain ⟨hone, g, hg, htext⟩ := hps'.cname p.template (List.mem_map_of_mem hmem) hkind
      -- a node with an alias has nothing else
      have hsingle : ps = [p] := by
        obtain ⟨q, rfl⟩ : ∃ q, ps = [q] := by
          have hlen := congrArg List.length hone
          rw [List.length_map] at hlen
          exact List.length_eq_one_iff.mp hlen
        rw [List.mem_singleton.mp hmem]
      subst hsingle
      dsimp only
      rw [Option.mem_def.mp hg]
      dsimp only
      split_ifs with hk
      · exact .cnameEnd hnode hps hkind hg htext hk
      · exact .cnameNext hnode hps hkind hg htext hk
    | none =>
      have hne : ∀ p ∈ ps, p.template.kind ≠ RRType.CNAME := by
        intro p hp
        simpa using List.find?_eq_none.mp hfind p hp
      have hkinds : (ps.map fun p => p.template.kind).Nodup := by
        have := hps'.kinds
        rwa [List.map_map] at this
      dsimp only
      rcases select_cases kind hkinds with hsel | ⟨p, hp, hsel, hpk⟩
      · rw [if_pos hsel]
        exact .noData hnode hps hne hsel
      · rw [if_neg (by simp [hsel]), hsel]
        exact .data hnode hps hne hp hsel hpk

/-- **What a step can be.** -/
theorem step_cases (d : Dnspython) (z : Nonce) (kind : UInt16) (owner : Name) (front : List Label)
    (key : String) : StepCase d z kind owner front key (Zone.step d z kind owner front key) := by
  unfold Zone.step
  cases hr : hostIn referralHosts key with
  | some h =>
    obtain ⟨hmem, rfl⟩ := hostIn_eq_some hr
    dsimp only
    split_ifs with hds
    · exact .cut hmem rfl hds.1 hds.2
    · exact .delegation hmem rfl hds
  | none =>
    have hnot : key ∉ ["referral", "additional-referral"] := hostIn_eq_none.mp hr
    dsimp only
    split_ifs with href
    · exact .refused href
    cases hd : hostIn dnameHosts key with
    | none =>
      rw [Option.filter_none]
      exact nodeStep_cases d kind ⟨hnot, href, fun h => absurd h (hostIn_eq_none.mp hd)⟩
    | some h =>
      obtain ⟨hmem, rfl⟩ := hostIn_eq_some hd
      rw [Option.filter_some]
      -- at its own owner a DNAME is a record like any other
      by_cases h1 : front.length = 1
      · rw [if_neg (by simp [h1])]
        exact nodeStep_cases d kind ⟨hnot, href, fun _ => h1⟩
      · rw [if_pos (by simp [h1])]
        dsimp only
        unfold Zone.dnameStep
        cases hsub : Zone.substituted z front with
        | none => exact .tooLong hmem rfl h1 hsub
        | some next =>
          dsimp only
          split_ifs with hk
          · exact .dnameEnd hmem rfl h1 hsub hk
          · exact .dnameNext hmem rfl h1 hsub hk

theorem StepCase.of_step {d : Dnspython} {z : Nonce} {kind : UInt16} {owner : Name}
    {front : List Label} {key : String} {s : Step}
    (h : Zone.step d z kind owner front key = s) : StepCase d z kind owner front key s := by
  have hcase := step_cases d z kind owner front key
  rwa [h] at hcase

/-! ### Alias chains -/

theorem isHost_a : IsHost "a" := by decide

def aHost : Host := ⟨"a", isHost_a⟩

/-- The CNAME record of `chain-hop`. -/
def Zone.hop (d : Dnspython) (z : Nonce) : RRset :=
  (Fixture.target RRType.CNAME aHost).fill d z (z.host chainHop)

/-- The alias RRsets between a name and the last name of its chain. -/
inductive ChainCase (d : Dnspython) (z : Nonce) (kind : UInt16) (owner : Name) :
    List RRset → Name → Prop
  | here : ChainCase d z kind owner [] owner
  | cname {p : Placed} : p.owner = owner → p.template.kind = RRType.CNAME →
      p.template.WellFormed → (∃ front key, InZone z owner front ∧ keyOf front = some key ∧
        HasNode key front.length ∧ Zone.node z owner key front.length = some [p]) →
      p.template.data.head?.bind targetHost = some aHost → kind ∉ [RRType.CNAME, RRType.ANY] →
      ChainCase d z kind owner [Zone.rrset d z p] (z.host aHost)
  | hop {p : Placed} : p.owner = owner → p.template.kind = RRType.CNAME →
      p.template.WellFormed → (∃ front key, InZone z owner front ∧ keyOf front = some key ∧
        HasNode key front.length ∧ Zone.node z owner key front.length = some [p]) →
      p.template.data.head?.bind targetHost = some chainHop → kind ∉ [RRType.CNAME, RRType.ANY] →
      ¬ owner.SameAs (z.host chainHop) →
      ChainCase d z kind owner [Zone.rrset d z p, Zone.hop d z] (z.host aHost)
  | dname {h : Host} {front : List Label} {next : Name} : h ∈ dnameHosts → InZone z owner front →
      keyOf front = some h.text → front.length ≠ 1 → Zone.substituted z front = some next →
      kind ≠ RRType.CNAME →
      ChainCase d z kind owner [Zone.dname d z h, Zone.synthesised owner next] next

theorem owner_of_mem_node {z : Nonce} {owner : Name} {key : String} {depth : Nat} {ps : List Placed}
    (hps : Zone.node z owner key depth = some ps) {p : Placed} (hp : p ∈ ps) :
    p.owner = owner ∨ (depth = 0 ∧ p = ⟨z.zone, Fixture.zoneSoa⟩) := by
  unfold Zone.node at hps
  split_ifs at hps with h0
  · cases hps
    rcases List.mem_cons.mp hp with rfl | hp
    · exact Or.inr ⟨h0, rfl⟩
    · rw [List.mem_singleton.mp hp]
      exact Or.inl rfl
  · obtain ⟨ts, -, rfl⟩ := Option.map_eq_some_iff.mp hps
    obtain ⟨t, -, rfl⟩ := List.mem_map.mp hp
    exact Or.inl rfl

theorem node_chainHop (z : Nonce) (owner : Name) :
    Zone.node z owner chainHop.text 1
      = some [⟨owner, Fixture.target RRType.CNAME aHost⟩] := by
  rw [node_of_depth_pos (by decide) (by decide) (Or.inl rfl)]
  rfl

/-- `chain-hop` leads to `a`, for every type that follows aliases. -/
theorem step_chainHop (d : Dnspython) (z : Nonce) {kind : UInt16}
    (hk : kind ∉ [RRType.CNAME, RRType.ANY]) :
    Zone.step d z kind (z.host chainHop) [chainHop.label] chainHop.text
      = .follow [Zone.hop d z] (z.host aHost) := by
  have h : Zone.nodeStep d z kind chainHop.text 1
      (some [⟨z.host chainHop, Fixture.target RRType.CNAME aHost⟩])
      = if kind ∈ [RRType.CNAME, RRType.ANY] then .stop (Zone.answered [Zone.hop d z])
        else .follow [Zone.hop d z] (z.host aHost) := rfl
  rw [step_eq_nodeStep (by decide) (by decide), List.length_singleton, node_chainHop, h, if_neg hk]

section

variable {d : Dnspython} {z : Nonce} {kind : UInt16}

/-- The names an alias chain can end at: `a`, or a name below `target-tree`. -/
def EndsChain (front : List Label) (key : String) : Prop :=
  key ∈ ["a", "target-tree"] ∧ (front.length = 1 ∨ key ∈ descendantKeys)

theorem endsChain_a : EndsChain [aHost.label] aHost.text := ⟨by decide, Or.inl rfl⟩

theorem endsChain_tree (front : List Label) : EndsChain front "target-tree" :=
  ⟨by decide, Or.inr (by decide)⟩

/-- From `a` and from below `target-tree` there is no alias. -/
theorem Resolves.eq_nil_of_stops {n : Nat} {owner : Name} {front : List Label} {g : Host}
    {chain : List RRset} {c : Conclusion} (h : Resolves d z kind n owner chain c)
    (hz : InZone z owner front) (hkey : keyOf front = some g.text) (hend : EndsChain front g.text) :
    chain = [] ∧ Zone.step d z kind owner front g.text = .stop c := by
  obtain ⟨c', hstep⟩ := step_stops d kind hkey hend.1 hend.2
  obtain ⟨-, rfl, rfl⟩ := h.unique (.stop hz hkey hstep)
  exact ⟨rfl, hstep⟩

theorem host_eq_of_text {g h : Host} (hgh : g.text = h.text) : g = h := by
  cases g
  cases h
  simp only [Host.mk.injEq]
  exact hgh

/-- At the end of a chain there are addresses, or none of the type. -/
theorem EndsChain.stop_cases {last : Name} {front : List Label} {key : String} {c : Conclusion}
    (hend : EndsChain front key) (hkey : keyOf front = some key)
    (hstep : Zone.step d z kind last front key = .stop c) :
    (c = Zone.noData (Zone.negativeSoa d z kind key front.length)) ∨
      ∃ p, c = Zone.data d z [p] ∧ p.owner = last ∧ p.template.kind ∈ [RRType.A, RRType.AAAA] ∧
        (kind = RRType.ANY ∨ p.template.kind = kind) := by
  obtain ⟨ps, hps, hkinds⟩ := node_of_stops z last hkey hend.1 hend.2
  have hspecial : ∀ k ∈ ["a", "target-tree"], k ∉ ["referral", "additional-referral", "refused"] ∧
      k ∉ DNAME_KEYS := by decide
  obtain ⟨h1, h2⟩ := hspecial key hend.1
  -- neither node has an alias, so that the step selects among its addresses
  have hne : ∀ p ∈ ps, p.template.kind ≠ RRType.CNAME := fun p hp =>
    (by decide : ∀ t ∈ [RRType.A, RRType.AAAA], t ≠ RRType.CNAME) _ (hkinds p hp).2
  have hnodup : (ps.map fun p => p.template.kind).Nodup := by
    have := (wellFormedNode_node z last key front.length ps hps).kinds
    rwa [List.map_map] at this
  have hfind : ps.find? (fun p => p.template.kind = RRType.CNAME) = none := by
    rw [List.find?_eq_none]
    intro p hp
    simpa using hne p hp
  rw [step_eq_nodeStep h1 h2, hps, Zone.nodeStep, hfind] at hstep
  dsimp only at hstep
  rcases select_cases kind hnodup with hsel | ⟨p, hp, hsel, hpk⟩
  · rw [if_pos hsel] at hstep
    cases hstep
    exact Or.inl rfl
  · rw [if_neg (by simp [hsel]), hsel] at hstep
    cases hstep
    exact Or.inr ⟨p, rfl, (hkinds p hp).1, (hkinds p hp).2, hpk⟩

/-- **What an alias chain can be**, and the step at its last name. -/
theorem Resolves.chain_cases {n : Nat} {owner : Name} {chain : List RRset} {c : Conclusion}
    (h : Resolves d z kind n owner chain c) :
    ∃ last front key, InZone z last front ∧ keyOf front = some key ∧
      Zone.step d z kind last front key = .stop c ∧ ChainCase d z kind owner chain last ∧
      (chain = [] ∨ EndsChain front key) := by
  cases h with
  | @stop owner front key c hz hkey hstep =>
    exact ⟨owner, front, key, hz, hkey, hstep, .here, Or.inl rfl⟩
  | @follow n owner next front key aliases chain c hz hkey hstep hrest =>
    cases StepCase.of_step hstep with
    | @cnameNext p g hnode hps hkind hg htext hk =>
      have hwf := (wellFormedNode_node z owner key front.length _ hps).templates p.template
        (by simp)
      have howner : p.owner = owner := by
        rcases owner_of_mem_node hps (List.mem_singleton_self p) with h | ⟨-, rfl⟩
        · exact h
        · exact absurd hkind (by decide : RRType.SOA ≠ RRType.CNAME)
      have hwhere : ∃ front key, InZone z owner front ∧ keyOf front = some key ∧
          HasNode key front.length ∧ Zone.node z owner key front.length = some [p] :=
        ⟨front, key, hz, hkey, hnode, hps⟩
      -- the aliases of the catalogue lead to `a` or to `chain-hop`
      rcases List.mem_cons.mp htext with ha | hhop
      · obtain rfl : g = aHost := host_eq_of_text ha
        obtain ⟨rfl, hlast⟩ := hrest.eq_nil_of_stops (z.inZone_host aHost) (keyOf_host [] aHost)
          endsChain_a
        exact ⟨_, _, _, z.inZone_host aHost, keyOf_host [] aHost, hlast,
          .cname howner hkind hwf hwhere hg hk, Or.inr endsChain_a⟩
      · obtain rfl : g = chainHop := host_eq_of_text (List.mem_singleton.mp hhop)
        have hne : ¬ owner.SameAs (z.host chainHop) := by
          intro hs
          obtain ⟨l, rfl, hl⟩ := (sameAs_host_iff hz).mp hs
          have hkeyHop : keyOf [chainHop.label] = some chainHop.text := keyOf_host [] chainHop
          have hkeys : key = chainHop.text := by
            obtain ⟨init, label, hfront, -, htext, hascii⟩ :=
              label_of_keyOf (List.cons_ne_nil l []) hkey
            have hlabel : label = l := by
              have := congrArg List.getLast? hfront
              simpa using this.symm
            rw [hlabel, hl] at htext
            exact textOctets_injective hascii chainHop.isHost.1 htext
          subst hkeys
          rw [List.length_singleton, node_chainHop] at hps
          cases hps
          exact absurd hg (by decide : some aHost ≠ some chainHop)
        -- from `chain-hop` one more alias leads to `a`
        have hkeyHop : keyOf [chainHop.label] = some chainHop.text := keyOf_host [] chainHop
        obtain ⟨m, rest, rfl, rfl, hrest'⟩ :=
          hrest.of_follow (z.inZone_host chainHop) hkeyHop (step_chainHop d z hk)
        obtain ⟨rfl, hlast⟩ := hrest'.eq_nil_of_stops (z.inZone_host aHost) (keyOf_host [] aHost)
          endsChain_a
        exact ⟨_, _, _, z.inZone_host aHost, keyOf_host [] aHost, hlast,
          .hop howner hkind hwf hwhere hg hk hne, Or.inr endsChain_a⟩
    | @dnameNext h next hmem htext hdepth hsub hk =>
      subst htext
      -- the substituted name lies below `target-tree`, where no alias is
      have hlabels : next.labels
          = front.dropLast ++ textOctets "target-tree" :: z.labels := Name.ofLabels?_eq_some hsub
      have hznext : InZone z next (front.dropLast ++ [textOctets "target-tree"]) :=
        ⟨z.labels, by rw [hlabels]; simp, z.foldCase_labels⟩
      have hkeynext := keyOf_host front.dropLast ⟨"target-tree", by decide⟩
      obtain ⟨rfl, hlast⟩ := hrest.eq_nil_of_stops hznext hkeynext (endsChain_tree _)
      exact ⟨next, _, _, hznext, hkeynext, hlast, .dname hmem hz hkey hdepth hsub hk,
        Or.inr (endsChain_tree _)⟩

/-- A resolution ends with a step. -/
theorem Resolves.stop_case {n : Nat} {owner : Name} {chain : List RRset} {c : Conclusion}
    (h : Resolves d z kind n owner chain c) :
    ∃ last front key, StepCase d z kind last front key (.stop c) := by
  obtain ⟨last, front, key, -, -, hstep, -⟩ := h.chain_cases
  exact ⟨last, front, key, .of_step hstep⟩

end

end DnsFixtures
