import DnsFixtures.Equiv.Catalogue

/-!
# The alias loop

* `answerStep_eq`: one turn of the loop of `_answer` is one step of the resolver of the zone
  (`Zone.step`).
* `answerLoop_eq`: where the resolver reaches an end within the turns that remain, the loop puts the
  alias chain and that end into the response.
* `resolves_total`: it always does, within three turns.
* `answer_eq`: `_answer` therefore never runs out of turns.
-/

namespace DnsFixtures

open Dns

/-! ### Steps as turns -/

/-- Put a conclusion into the response. -/
def Conclusion.apply (c : Conclusion) (response : Message) : Message :=
  let response := { response with
    flags := if c.aa then response.flags else response.flags &&& ~~~Flag.AA
    answer := response.answer ++ c.answer
    authority := response.authority ++ c.authority
    additional := response.additional ++ c.additional }
  if c.rcode = Rcode.NOERROR then response else response.setRcode c.rcode

theorem Conclusion.apply_of_rcode {c : Conclusion} (haa : c.aa = true)
    (hrcode : c.rcode ≠ Rcode.NOERROR) (response : Message) :
    c.apply response = { response.setRcode c.rcode with
      answer := response.answer ++ c.answer
      authority := response.authority ++ c.authority
      additional := response.additional ++ c.additional } := by
  unfold Conclusion.apply
  dsimp only
  rw [if_pos haa, if_neg hrcode]
  exact Message.setRcode_sections response c.rcode _ _ _

def Step.turn (response : Message) : Step → Turn
  | .stop c => .done (c.apply response)
  | .follow aliases next => .next { response with answer := response.answer ++ aliases } next

theorem hostIn_eq_some {hosts : List Host} {key : String} {h : Host}
    (hh : hostIn hosts key = some h) : h ∈ hosts ∧ h.text = key := by
  refine ⟨List.mem_of_find?_eq_some hh, ?_⟩
  simpa using List.find?_some hh

theorem hostIn_eq_none {hosts : List Host} {key : String} :
    hostIn hosts key = none ↔ key ∉ hosts.map Host.text := by
  rw [hostIn, List.find?_eq_none, List.mem_map]
  constructor
  · rintro h ⟨x, hx, rfl⟩
    exact h x hx (by simp)
  · intro h x hx hp
    exact h ⟨x, hx, by simpa using hp⟩

/-! ### The records that answer -/

theorem rdtype_rrset (d : Dnspython) (z : Nonce) (p : Placed) :
    (Zone.rrset d z p).rdtype = p.template.kind := rfl

/-- At most one RRset of a node answers a question. -/
theorem select_cases (kind : UInt16) {ps : List Placed}
    (hps : (ps.map fun p => p.template.kind).Nodup) :
    Zone.select kind ps = [] ∨ ∃ p ∈ ps, Zone.select kind ps = [p] ∧
      (kind = RRType.ANY ∨ p.template.kind = kind) := by
  unfold Zone.select
  split_ifs with hk
  · cases ps with
    | nil => exact Or.inl rfl
    | cons p ps => exact Or.inr ⟨p, List.mem_cons_self, rfl, Or.inl hk⟩
  · induction ps with
    | nil => exact Or.inl rfl
    | cons p ps ih =>
      rw [List.map_cons, List.nodup_cons] at hps
      by_cases hp : p.template.kind = kind
      · have hnil : ps.filter (fun p => p.template.kind = kind) = [] := by
          rw [List.filter_eq_nil_iff]
          intro q hq hqk
          refine hps.1 (List.mem_map.mpr ⟨q, hq, ?_⟩)
          rw [hp]
          simpa using hqk
        rw [List.filter_cons_of_pos (by simpa using hp), hnil]
        exact Or.inr ⟨p, List.mem_cons_self, rfl, Or.inr hp⟩
      · rw [List.filter_cons_of_neg (by simpa using hp)]
        rcases ih hps.2 with h | ⟨q, hq, h⟩
        · exact Or.inl h
        · exact Or.inr ⟨q, List.mem_cons_of_mem _ hq, h⟩

theorem target?_fill (d : Dnspython) (z : Nonce) (owner : Name) {ps : List Part} {h : Host}
    (hh : targetHost ps = some h) : Rdata.target? (ps.map (Part.fill d z owner)) = some (z.host h) := by
  induction ps with
  | nil => cases hh
  | cons p ps ih =>
    cases p with
    | octets bs => exact ih hh
    | text kind s => exact ih hh
    | strings count s => exact ih hh
    | name n =>
      cases n with
      | root => cases hh
      | ofOwner g => cases hh
      | host g =>
        cases hh
        rfl

/-! ### Additional data -/

section

variable {d : Dnspython} (hd : d.Documented) {z : Nonce}

/-- Addresses of a host that is not in the additional section yet are all appended. -/
theorem addAddresses_fill {h : Host} {ts : List Template} (hts : (ts.map Template.kind).Nodup)
    {response : Message} (hnew : ∀ r ∈ response.additional, r.name = z.host h →
      r.rdtype ∉ ts.map Template.kind)
    (hname : ∀ r ∈ response.additional, r.name.SameAs (z.host h) → r.name = z.host h) :
    addAddresses response (ts.map (Template.fill d z (z.host h)))
      = { response with
          additional := response.additional ++
            (ts.filter fun t => t.kind ∈ [RRType.A, RRType.AAAA]).map
              (Template.fill d z (z.host h)) } := by
  induction ts generalizing response with
  | nil => simp [addAddresses]
  | cons t ts ih =>
    rw [List.map_cons, List.nodup_cons] at hts
    have hrest : ∀ r ∈ response.additional, r.name = z.host h → r.rdtype ∉ ts.map Template.kind :=
      fun r hr hn hm => hnew r hr hn (List.mem_cons_of_mem _ hm)
    rw [List.map_cons, addAddresses, List.foldl_cons]
    by_cases hk : t.kind ∈ [RRType.A, RRType.AAAA]
    · -- no set of the additional section has both this owner and this type
      have hfresh : ¬ ∃ r ∈ response.additional, (t.fill d z (z.host h)).Equals r := by
        rintro ⟨r, hr, heq⟩
        have hn := hname r hr heq.1.1.symm
        exact hnew r hr hn (List.mem_cons.mpr (Or.inl heq.1.2.1.symm))
      let response' := { response with
        additional := response.additional ++ [t.fill d z (z.host h)] }
      have hrun : addAddresses response' (ts.map (Template.fill d z (z.host h)))
          = { response' with
              additional := response'.additional ++ (ts.filter fun t => t.kind ∈ [RRType.A, RRType.AAAA]).map
                (Template.fill d z (z.host h)) } := by
        refine ih hts.2 (fun r hr hn => ?_) fun r hr hs => ?_
        · rcases List.mem_append.mp hr with hr | hr
          · exact hrest r hr hn
          · rw [List.mem_singleton.mp hr]
            exact hts.1
        · rcases List.mem_append.mp hr with hr | hr
          · exact hname r hr hs
          · rw [List.mem_singleton.mp hr]
            rfl
      rw [if_pos ⟨hk, hfresh⟩, List.filter_cons_of_pos (by simpa using hk), List.map_cons]
      refine Eq.trans hrun ?_
      simp only [response', List.append_assoc, List.singleton_append]
    · rw [if_neg (fun hc => hk hc.1), List.filter_cons_of_neg (by simpa using hk)]
      exact ih hts.2 hrest hname

theorem sameAs_host_eq {g h : Host} (hgh : (z.host g).SameAs (z.host h)) : g = h := by
  obtain ⟨l, hl, hlow⟩ := (sameAs_host_iff (z.inZone_host g)).mp hgh
  cases hl
  rw [g.lower_label] at hlow
  have htext := textOctets_injective g.isHost.1 h.isHost.1 hlow
  cases g
  cases h
  simp only [Host.mk.injEq]
  exact htext

/-- The additional section while it holds only addresses of the hosts `hosts`. -/
def AddressesOf (z : Nonce) (hosts : List Host) (response : Message) : Prop :=
  ∀ r ∈ response.additional, ∃ h ∈ hosts, r.name = z.host h

theorem ne_apex_of_mem_addressKeys {key : String} (h : key ∈ addressKeys) : key ≠ "apex" := by
  rintro rfl
  exact absurd h (by decide)

include hd

theorem records_host {h : Host} (hh : h.text ≠ "apex") : records d (z.host h) h.text z.text
    = .ok ((fixture h.text).map (List.map (Template.fill d z (z.host h)))) := by
  have hkey : keyOf [h.label] = some h.text := keyOf_host [] h
  rw [records_eq hd (z.inZone_host h) hkey (nameFromText_target hd z h.text h.isHost), Zone.node,
    if_neg (by simp), if_neg (by simp [hh])]
  cases fixture h.text with
  | none => rfl
  | some ts =>
    simp only [Option.map_some, List.map_map]
    rfl

/-- The inner loop of `_additional` over records that lead to new hosts. -/
theorem foldlM_additionalStep {r : RRset} (hr : r.rdtype ∈ [RRType.NS, RRType.MX, RRType.SRV])
    (owner : Name) {data : List (List Part)}
    (htargets : ∀ ps ∈ data, ∃ h ∈ targetHost ps, h.text ∈ addressKeys)
    {seen : List Host} (hnodup : (seen ++ data.filterMap targetHost).Nodup) {response : Message}
    (hseen : AddressesOf z seen response) :
    (data.map (List.map (Part.fill d z owner))).foldlM (additionalStep d z.text r) response
      = .ok { response with
          additional := response.additional ++
            (data.filterMap targetHost).flatMap (Zone.addresses d z) } := by
  induction data generalizing seen response with
  | nil => simp [pure, Except.pure]
  | cons ps data ih =>
    obtain ⟨h, hh, hkey⟩ := htargets ps List.mem_cons_self
    have hfm : (ps :: data).filterMap targetHost = h :: data.filterMap targetHost :=
      List.filterMap_cons_some hh
    rw [hfm] at hnodup ⊢
    have hnew : h ∉ seen := by
      intro hm
      exact (List.nodup_append.mp hnodup).2.2 h hm h List.mem_cons_self rfl
    have hnameKey : nameKey (z.host h) = some (h.text, octetsText z.label) := by
      rw [nameKey_of_inZone (z.inZone_host h)]
      have hk : keyOf [h.label] = some h.text := keyOf_host [] h
      rw [hk]
      rfl
    have hapex := ne_apex_of_mem_addressKeys hkey
    have hstep : additionalStep d z.text r response (ps.map (Part.fill d z owner))
        = .ok { response with additional := response.additional ++ Zone.addresses d z h } := by
      unfold additionalStep
      rw [additionalTarget, if_pos hr, target?_fill d z owner hh]
      simp only [Option.bind_some, hnameKey, Option.map_some, records_host hd hapex, bind,
        Except.bind, pure, Except.pure, Except.ok.injEq]
      have hfresh : ∀ x ∈ response.additional, ¬ x.name.SameAs (z.host h) := by
        intro x hx hs
        obtain ⟨g, hg, hn⟩ := hseen x hx
        rw [hn] at hs
        exact hnew (sameAs_host_eq hs ▸ hg)
      have hkinds : (((fixture h.text).getD []).map Template.kind).Nodup := by
        cases hf : fixture h.text with
        | none => exact List.nodup_nil
        | some ts => exact (fixture_wellFormed h.text ts hf).kinds
      have hmap : ((fixture h.text).map (List.map (Template.fill d z (z.host h)))).getD []
          = ((fixture h.text).getD []).map (Template.fill d z (z.host h)) := by
        cases fixture h.text <;> rfl
      rw [hmap, addAddresses_fill hkinds
        (fun x hx hn => absurd (hn ▸ Name.SameAs.refl _) (hfresh x hx))
        (fun x hx hs => absurd hs (hfresh x hx))]
      rfl
    rw [List.map_cons, List.foldlM_cons, hstep]
    have hseen' : AddressesOf z (seen ++ [h])
        { response with additional := response.additional ++ Zone.addresses d z h } := by
      intro x hx
      rcases List.mem_append.mp hx with hx | hx
      · obtain ⟨g, hg, hn⟩ := hseen x hx
        exact ⟨g, List.mem_append_left _ hg, hn⟩
      · obtain ⟨t, -, rfl⟩ := List.mem_map.mp hx
        exact ⟨h, List.mem_append_right _ (List.mem_singleton_self h), rfl⟩
    simp only [bind, Except.bind]
    rw [ih (fun ps hps => htargets ps (List.mem_cons_of_mem _ hps))
      (by rwa [List.append_assoc, List.singleton_append]) hseen', List.flatMap_cons,
      List.append_assoc]

theorem additional_eq {p : Placed} (hp : p.template.WellFormed) {response : Message}
    (hadd : response.additional = []) :
    additional d response [Zone.rrset d z p] z.text
      = .ok { response with additional := Zone.additionalOf d z [p] } := by
  have hone : Zone.additionalOf d z [p]
      = p.template.additionalHosts.flatMap (Zone.addresses d z) := by
    simp [Zone.additionalOf]
  have hfold : (Zone.rrset d z p).rdatas.foldlM (additionalStep d z.text (Zone.rrset d z p)) response
      = .ok { response with additional := Zone.additionalOf d z [p] } := by
    rw [hone, Template.additionalHosts]
    by_cases hk : p.template.kind ∈ [RRType.NS, RRType.MX, RRType.SRV]
    · have hnodup := hp.targetsNodup
      rw [Template.additionalHosts, if_pos hk] at hnodup
      rw [if_pos hk]
      have hseen : AddressesOf z [] response := by
        intro r hr
        rw [hadd] at hr
        cases hr
      have h := foldlM_additionalStep hd (r := Zone.rrset d z p) hk p.owner (hp.targets hk) hnodup
        hseen
      rw [hadd, List.nil_append] at h
      exact h
    · rw [if_neg hk]
      have hstep : ∀ x : Rdata, additionalStep d z.text (Zone.rrset d z p) response x
          = .ok response := by
        intro x
        have hk' : (Zone.rrset d z p).rdtype ∉ [RRType.NS, RRType.MX, RRType.SRV] := hk
        rw [additionalStep, additionalTarget, if_neg hk']
        rfl
      have hnil : ({ response with additional := ([] : List Host).flatMap (Zone.addresses d z) }
          : Message) = response := by
        rw [List.flatMap_nil, ← hadd]
      rw [hnil]
      induction (Zone.rrset d z p).rdatas with
      | nil => rfl
      | cons x xs ih =>
        rw [List.foldlM_cons, hstep]
        exact ih
  rw [additional, List.foldlM_cons, hfold]
  rfl

omit hd in
theorem wellFormedNode_apex : WellFormedNode [Fixture.zoneSoa, Fixture.ns] := by
  refine wellFormedNode_of_small (by decide : [RRType.SOA, RRType.NS].Nodup) ?_ (by simp)
    (by decide : RRType.CNAME ∉ [RRType.SOA, RRType.NS])
  simp only [List.forall_mem_cons, List.not_mem_nil, false_implies, implies_true, and_true]
  exact ⟨wellFormed_zoneSoa, wellFormed_ns⟩

omit hd in
theorem wellFormedNode_node (z : Nonce) (owner : Name) (key : String) (depth : Nat) :
    ∀ ps ∈ Zone.node z owner key depth, WellFormedNode (ps.map Placed.template) := by
  unfold Zone.node
  split_ifs
  · intro ps hps
    cases hps
    exact wellFormedNode_apex
  · intro ps hps
    cases hps
  · intro ps hps
    obtain ⟨ts, hts, rfl⟩ := Option.map_eq_some_iff.mp hps
    rw [List.map_map]
    have hid : (Placed.template ∘ Placed.mk owner) = id := rfl
    rw [hid, List.map_id]
    exact fixture_wellFormed key ts hts

/-- The turn for an owner whose data is in the record table. -/
theorem answerRecords_eq {kind : UInt16} {key : String} {depth : Nat} {ps? : Option (List Placed)}
    (hps : ∀ ps ∈ ps?, WellFormedNode (ps.map Placed.template)) {response : Message}
    (hadd : response.additional = []) :
    answerRecords d response (ps?.map (List.map (Zone.rrset d z)))
        (Zone.negativeSoa d z kind key depth) kind z.text
      = .ok ((Zone.nodeStep d z kind key depth ps?).turn response) := by
  cases ps? with
  | none =>
    have happly : (Zone.nxDomain (Zone.negativeSoa d z kind key depth)).apply response
        = { response.setRcode Rcode.NXDOMAIN with
            authority := response.authority ++ [Zone.negativeSoa d z kind key depth] } := by
      rw [Conclusion.apply_of_rcode rfl (by decide : Rcode.NXDOMAIN ≠ Rcode.NOERROR)]
      simp only [Zone.nxDomain, List.append_nil, Message.setRcode_answer,
        Message.setRcode_additional]
    rw [Zone.nodeStep, Step.turn, happly]
    rfl
  | some ps =>
    have hnode := hps ps rfl
    have hkinds : (ps.map fun p => p.template.kind).Nodup := by
      have := hnode.kinds
      rwa [List.map_map] at this
    have hfind : (ps.map (Zone.rrset d z)).find? (fun r => r.rdtype = RRType.CNAME)
        = (ps.find? fun p => p.template.kind = RRType.CNAME).map (Zone.rrset d z) :=
      List.find?_map ..
    unfold answerRecords Zone.nodeStep
    dsimp only [Option.map_some]
    rw [hfind]
    cases hcname : ps.find? fun p => p.template.kind = RRType.CNAME with
    | some p =>
      -- an alias
      have hmem := List.mem_of_find?_eq_some hcname
      have hkind : p.template.kind = RRType.CNAME := by simpa using List.find?_some hcname
      obtain ⟨-, h, hh, -⟩ := hnode.cname p.template (List.mem_map_of_mem hmem) hkind
      obtain ⟨parts, hparts, htarget⟩ := Option.bind_eq_some_iff.mp (Option.mem_def.mp hh)
      have hname : (Zone.rrset d z p).rdatas.head?.bind Rdata.target? = some (z.host h) := by
        have hhead : (Zone.rrset d z p).rdatas.head?
            = some (parts.map (Part.fill d z p.owner)) := by
          rw [Zone.rrset, Template.fill, List.head?_map, hparts]
          rfl
        rw [hhead, Option.bind_some, target?_fill d z p.owner htarget]
      dsimp only [Option.map_some]
      rw [hname, Option.mem_def.mp hh]
      dsimp only
      split_ifs
      · simp [Step.turn, Conclusion.apply, Zone.answered, pure, Except.pure]
      · rfl
    | none =>
      have hselect : (if kind = RRType.ANY then (ps.map (Zone.rrset d z)).take 1
          else (ps.map (Zone.rrset d z)).filter fun r => r.rdtype = kind)
          = (Zone.select kind ps).map (Zone.rrset d z) := by
        unfold Zone.select
        split_ifs
        · rw [List.map_take]
        · rw [List.filter_map]
          rfl
      dsimp only [Option.map_none]
      rw [hselect]
      rcases select_cases kind hkinds with hsel | ⟨p, hp, hsel, -⟩
      · -- no record of the type
        rw [hsel]
        simp [Step.turn, Conclusion.apply, Zone.noData, pure, Except.pure]
      · have hadd' : additional d { response with answer := response.answer ++ [Zone.rrset d z p] }
            [Zone.rrset d z p] z.text
            = .ok { response with
                answer := response.answer ++ [Zone.rrset d z p]
                additional := Zone.additionalOf d z [p] } :=
          additional_eq hd (hnode.templates p.template (List.mem_map_of_mem hp)) hadd
        rw [hsel, List.map_singleton]
        simp only [ne_eq, List.cons_ne_nil, not_false_eq_true, if_true, if_false, hadd', bind,
          Except.bind]
        simp [Step.turn, Conclusion.apply, Zone.data, pure, Except.pure, hadd]

/-! ### One turn -/

omit hd in
theorem ne_nil_of_keyOf {front : List Label} {key : String} (hkey : keyOf front = some key)
    (hne : key ≠ "apex") : front ≠ [] := by
  rintro rfl
  exact hne (Option.some.inj hkey).symm

/-- The SOA record that `_answer` prepares is that of the deepest served apex. -/
theorem authoritySoa_eq {owner : Name} {front : List Label} {key : String} (kind : UInt16)
    (hz : InZone z owner front) (hkey : keyOf front = some key) :
    authoritySoa d owner kind key z.text
      = .ok (Zone.negativeSoa d z kind key front.length) := by
  have hzone : soa d z.text (some (.text z.text)) none = .ok (Fixture.zoneSoa.fill d z z.zone) :=
    soa_zone hd z z.zone (nameFromText_zone hd z)
  unfold authoritySoa authorityOwner Zone.negativeSoa Zone.apexOf
  -- `ns`, `soa` and `additional-ns` have an apex of their own
  cases hc : hostIn childApexes key with
  | none =>
    have hnot : key ∉ ["ns", "soa", "additional-ns"] := hostIn_eq_none.mp hc
    have hne : key ≠ "additional-ns" := fun h => hnot (h ▸ by simp)
    rw [if_neg hnot]
    simp only [bind, Except.bind, pure, Except.pure, hne, false_and, if_false, hzone,
      Option.filter_none]
  | some h =>
    obtain ⟨hmem, rfl⟩ := hostIn_eq_some hc
    have hin : h.text ∈ ["ns", "soa", "additional-ns"] := List.mem_map_of_mem (f := Host.text) hmem
    have hapex : h.text ≠ "apex" := fun h' => absurd (h' ▸ hin) (by decide)
    have hexact : owner.SameAs (z.host h) ↔ front.length = 1 :=
      sameAs_host_of_key hz (ne_nil_of_keyOf hkey hapex) hkey
    have hchild : d.nameFromText (h.text ++ "." ++ z.text) = .ok (z.host h) :=
      nameFromText_target hd z h.text h.isHost
    rw [if_pos hin]
    simp only [bind, Except.bind, hchild, hexact, pure, Except.pure]
    -- only DS at the child's apex itself is answered from the parent
    by_cases hcond : ¬ front.length = 1 ∨ kind ≠ RRType.DS
    · rw [if_pos hcond, Option.filter_some, if_pos (by simpa using hcond)]
      dsimp only
      -- the source compares the texts of the two apexes
      have htext : d.nameToText (z.host h) ≠ z.text := by
        intro he
        have hn := nameFromText_nameToText hd (z.host h)
        rw [he, nameFromText_zone hd] at hn
        have hlen := congrArg (fun n : Name => n.labels.length) (Except.ok.inj hn)
        simp [Nonce.zone, Nonce.host] at hlen
      by_cases hadd : h.text = "additional-ns"
      · rw [if_pos ⟨hadd, htext⟩, if_pos hadd]
        refine soa_additionalNs hd z (List.cons_ne_nil _ _) ?_
          (nameFromText_cons hd z "additional-ns-host." "additional-ns-host" (by decide) rfl)
        have := z.nameLength_host_le h
        exact Nat.le_trans this (by omega)
      · rw [if_neg fun hc : _ ∧ _ => hadd hc.1, if_neg hadd]
        exact soa_zone hd z (z.host h) rfl
    · rw [if_neg hcond, Option.filter_some, if_neg (by simpa using hcond)]
      have hstr : ¬ (h.text = "additional-ns" ∧ (Owner.text z.text).str d ≠ z.text) :=
        fun hc => hc.2 rfl
      dsimp only
      rw [if_neg hstr]
      exact hzone

/-- The referral branch. -/
theorem referral_eq (h : Host) (response : Message) :
    referral d response (z.host h) h.text = .ok ((Zone.delegation d z h).apply response) := by
  have hlegal := (z.below ⟨"ns", by decide⟩ h).legal
  have hhost : d.nameFromText ("ns." ++ d.nameToText (z.host h))
      = .ok (z.below ⟨"ns", by decide⟩ h) :=
    nameFromText_cons_nameToText hd "ns." "ns" (by decide) rfl (n := z.host h)
      (List.cons_ne_nil _ _) hlegal
  have hns : rr d (.name (z.host h)) RRType.NS
      [nameData d ("ns." ++ d.nameToText (z.host h))] 0
      = .ok ⟨z.host h, RRType.NS, RRClass.IN, 0, [[.name (z.below ⟨"ns", by decide⟩ h)]]⟩ := by
    simp only [rr, Owner.parse, nameData, hhost, sequence, bind, Except.bind, pure, Except.pure,
      List.mapM_cons, List.mapM_nil, id]
  have ha := rr_a z (z.below ⟨"ns", by decide⟩ h)
    (o := .text ("ns." ++ d.nameToText (z.host h))) hhost [53] 0
  have haaaa := rr_aaaa z (z.below ⟨"ns", by decide⟩ h)
    (o := .text ("ns." ++ d.nameToText (z.host h))) hhost [0x53] 0
  rw [List.map_singleton] at ha haaaa
  unfold referral
  simp only [bind, Except.bind, pure, Except.pure, hns, ha]
  split_ifs with hadd
  · simp [haaaa, Conclusion.apply, Zone.delegation, hadd]
  · simp [Conclusion.apply, Zone.delegation, hadd]

/-- The DNAME branch below its owner. -/
theorem substitute_eq {owner : Name} {front : List Label} (kind : UInt16) {h : Host}
    (hz : InZone z owner front) (hf : front ≠ []) (hkey : keyOf front = some h.text)
    (response : Message) :
    substitute d response owner (z.host h) kind z.text
      = .ok ((Zone.dnameStep d z kind owner front h).turn response) := by
  have hrepl : d.nameFromText ("target-tree." ++ z.text) = .ok (z.host ⟨"target-tree", by decide⟩) :=
    nameFromText_cons hd z "target-tree." "target-tree" (by decide) rfl
  have hdname : rr d (.name (z.host h)) RRType.DNAME
      [nameData d (d.nameToText (z.host ⟨"target-tree", by decide⟩))] 0
      = .ok (Zone.dname d z h) := by
    refine rr_single z (z.host h) rfl ?_
    rw [nameData, nameFromText_nameToText hd]
    rfl
  have hcname : ∀ next : Name, rr d (.name owner) RRType.CNAME [nameData d (d.nameToText next)] 0
      = .ok ⟨owner, RRType.CNAME, RRClass.IN, 0, [[.name next]]⟩ := by
    intro next
    simp only [rr, Owner.parse, nameData, nameFromText_nameToText hd, sequence, bind, Except.bind,
      pure, Except.pure, List.mapM_cons, List.mapM_nil, id]
  -- what `relativize` leaves of the owner are the labels below the DNAME
  have hrel : owner.relativize (z.host h) = some front.dropLast := by
    obtain ⟨init, label, rfl, -, hlabel, -⟩ := label_of_keyOf hf hkey
    obtain ⟨suffix, ho, hs⟩ := hz.labels
    rw [List.dropLast_concat]
    have hcons : owner.labels = init ++ (label :: suffix) := by
      rw [ho]
      simp
    refine Name.relativize_of_append hcons ?_
    change _ = foldCase (h.label :: z.labels)
    rw [foldCase_cons, hs, foldCase_cons, z.foldCase_labels, h.lower_label, ← hlabel]
    rfl
  unfold substitute Zone.dnameStep
  simp only [bind, Except.bind, hrepl, hdname, hrel]
  cases hsub : Zone.substituted z front with
  | none =>
    rw [Zone.substituted] at hsub
    rw [hsub, Step.turn, Conclusion.apply_of_rcode rfl
      (by decide : Rcode.YXDOMAIN ≠ Rcode.NOERROR)]
    have hset := Message.setRcode_sections response Rcode.YXDOMAIN
      (response.answer ++ [Zone.dname d z h]) response.authority response.additional
    simp only [pure, Except.pure, List.append_nil]
    rw [hset]
  | some next =>
    rw [Zone.substituted] at hsub
    rw [hsub]
    simp only [hcname]
    split_ifs
    · simp [Step.turn, Conclusion.apply, Zone.answered, pure, Except.pure]
    · simp [Step.turn, pure, Except.pure]

/-- **One turn** of the loop of `_answer` is one step of the resolver. -/
theorem answerStep_eq {kind : UInt16} {owner : Name} {front : List Label} {key : String}
    {cut : Name} (hz : InZone z owner front) (hkey : keyOf front = some key)
    (hcut : d.nameFromText (key ++ "." ++ z.text) = .ok cut) {response : Message}
    (hadd : response.additional = []) :
    answerStep d kind z.text response owner
      = .ok ((Zone.step d z kind owner front key).turn response) := by
  have hnameKey : nameKey owner = some (key, octetsText z.label) := by
    rw [nameKey_of_inZone hz, hkey]
    rfl
  unfold answerStep Zone.step
  rw [hnameKey]
  simp only [bind, Except.bind, authoritySoa_eq hd kind hz hkey, hcut]
  -- the branches of the loop body, in the order of the source
  cases hr : hostIn referralHosts key with
  | some h =>
    obtain ⟨hmem, rfl⟩ := hostIn_eq_some hr
    have hin : h.text ∈ ["referral", "additional-referral"] :=
      List.mem_map_of_mem (f := Host.text) hmem
    have hapex : h.text ≠ "apex" := fun h' => absurd (h' ▸ hin) (by decide)
    have hexact := sameAs_host_of_key hz (ne_nil_of_keyOf hkey hapex) hkey
    obtain rfl : z.host h = cut :=
      Except.ok.inj ((nameFromText_target hd z h.text h.isHost).symm.trans hcut)
    have hzone : soa d z.text none none = .ok (Fixture.zoneSoa.fill d z z.zone) :=
      soa_zone hd z z.zone (nameFromText_zone hd z)
    simp only [hexact]
    by_cases hds : front.length = 1 ∧ kind = RRType.DS
    · rw [if_neg (fun h : _ ∧ ¬ _ => h.2 hds), if_pos hin, if_pos hds, hzone]
      simp [Step.turn, Conclusion.apply, Zone.noData, pure, Except.pure]
    · rw [if_pos ⟨hin, hds⟩, if_neg hds, referral_eq hd h response]
      rfl
  | none =>
    have hnot : key ∉ ["referral", "additional-referral"] := hostIn_eq_none.mp hr
    dsimp only
    rw [if_neg fun h : _ ∧ _ => hnot h.1, if_neg hnot]
    by_cases href : key = "refused"
    · rw [if_pos href, if_pos href]
      simp [Step.turn, Conclusion.apply, Zone.refusal, pure, Except.pure, Rcode.REFUSED,
        Rcode.NOERROR]
    rw [if_neg href, if_neg href]
    cases hd' : hostIn dnameHosts key with
    | none =>
      have hnot' : key ∉ DNAME_KEYS := hostIn_eq_none.mp hd'
      rw [if_neg fun h : _ ∧ _ => hnot' h.1, Option.filter_none,
        records_eq hd hz hkey hcut]
      exact answerRecords_eq hd (wellFormedNode_node z owner _ _) hadd
    | some h =>
      obtain ⟨hmem, rfl⟩ := hostIn_eq_some hd'
      have hin : h.text ∈ DNAME_KEYS := List.mem_map_of_mem (f := Host.text) hmem
      have hapex : h.text ≠ "apex" := fun h' => absurd (h' ▸ hin) (by decide)
      have hf := ne_nil_of_keyOf hkey hapex
      have hexact := sameAs_host_of_key hz hf hkey
      obtain rfl : z.host h = cut :=
        Except.ok.inj ((nameFromText_target hd z h.text h.isHost).symm.trans hcut)
      by_cases h1 : front.length = 1
      · rw [if_neg fun h : _ ∧ ¬ _ => h.2 (hexact.mpr h1), Option.filter_some, if_neg (by simp [h1]),
          records_eq hd hz hkey hcut]
        exact answerRecords_eq hd (wellFormedNode_node z owner _ _) hadd
      · rw [if_pos ⟨hin, fun h => h1 (hexact.mp h)⟩, Option.filter_some, if_pos (by simp [h1])]
        exact substitute_eq hd kind hz hf hkey response

end

/-! ### Alias chains -/

section

variable {d : Dnspython} {z : Nonce} {kind : UInt16}

/-- Where an alias leads: from a CNAME to `a` or `chain-hop`, from below a DNAME to below
`target-tree`. -/
inductive AliasTarget (z : Nonce) (next : Name) : Prop
  | host {h : Host} : h.text ∈ ["a", "chain-hop"] → next = z.host h → AliasTarget z next
  | tree {front : List Label} :
      next.labels = front ++ textOctets "target-tree" :: z.labels → AliasTarget z next

theorem AliasTarget.inZone {next : Name} (h : AliasTarget z next) :
    ∃ front g, InZone z next front ∧ keyOf front = some (Host.text g) ∧
      (g.text = "target-tree" ∨ (front.length = 1 ∧ g.text ∈ ["a", "chain-hop"])) := by
  cases h with
  | @host g hg hn =>
    subst hn
    exact ⟨[g.label], g, z.inZone_host g, keyOf_host [] g, Or.inr ⟨rfl, hg⟩⟩
  | @tree front hn =>
    refine ⟨front ++ [textOctets "target-tree"], ⟨"target-tree", by decide⟩,
      ⟨z.labels, by rw [hn]; simp, z.foldCase_labels⟩,
      keyOf_host front ⟨"target-tree", by decide⟩, Or.inl rfl⟩

theorem aliasTarget_of_nodeStep {key : String} {depth : Nat} {ps? : Option (List Placed)}
    (hps : ∀ ps ∈ ps?, WellFormedNode (ps.map Placed.template)) {aliases : List RRset} {next : Name}
    (h : Zone.nodeStep d z kind key depth ps? = .follow aliases next) :
    ∃ p ps g, ps? = some ps ∧ p ∈ ps ∧ ps.map Placed.template = [p.template] ∧
      p.template.kind = RRType.CNAME ∧ aliases = [Zone.rrset d z p] ∧ next = z.host g ∧
      p.template.data.head?.bind targetHost = some g ∧ g.text ∈ ["a", "chain-hop"] := by
  unfold Zone.nodeStep at h
  split at h
  · cases h
  · rename_i ps
    split at h
    · rename_i p hp
      have hmem := List.mem_of_find?_eq_some hp
      have hkind : p.template.kind = RRType.CNAME := by simpa using List.find?_some hp
      obtain ⟨hone, g, hg, htext⟩ :=
        (hps ps rfl).cname p.template (List.mem_map_of_mem hmem) hkind
      rw [Option.mem_def.mp hg] at h
      dsimp only at h
      split_ifs at h
      cases h
      exact ⟨p, ps, g, rfl, hmem, hone, hkind, rfl, rfl, hg, htext⟩
    · split_ifs at h

/-- **Step lemma** for aliases: an alias leads into the zone again. -/
theorem aliasTarget_of_step {owner : Name} {front : List Label} {key : String}
    {aliases : List RRset} {next : Name}
    (h : Zone.step d z kind owner front key = .follow aliases next) : AliasTarget z next := by
  unfold Zone.step at h
  split at h
  · split_ifs at h
  · split_ifs at h
    split at h
    · -- below a DNAME
      unfold Zone.dnameStep at h
      split at h
      · cases h
      · rename_i hsub
        dsimp only at h
        split_ifs at h
        cases h
        exact AliasTarget.tree (Name.ofLabels?_eq_some hsub)
    · obtain ⟨p, ps, g, -, -, -, -, -, rfl, -, hg⟩ :=
        aliasTarget_of_nodeStep (wellFormedNode_node z owner key front.length) h
      exact .host hg rfl

theorem step_eq_nodeStep {owner : Name} {front : List Label} {key : String}
    (hkey : key ∉ ["referral", "additional-referral", "refused"]) (hdname : key ∉ DNAME_KEYS) :
    Zone.step d z kind owner front key
      = Zone.nodeStep d z kind key front.length (Zone.node z owner key front.length) := by
  have h1 : hostIn referralHosts key = none := by
    refine hostIn_eq_none.mpr fun h => hkey ?_
    exact (by decide : ∀ k ∈ referralHosts.map Host.text,
      k ∈ ["referral", "additional-referral", "refused"]) key h
  have h2 : key ≠ "refused" := fun h => hkey (h ▸ by simp)
  have h3 : hostIn dnameHosts key = none := hostIn_eq_none.mpr hdname
  unfold Zone.step
  rw [h1]
  dsimp only
  rw [if_neg h2, h3, Option.filter_none]

/-- A node without a CNAME ends the chain. -/
theorem nodeStep_stop {key : String} {depth : Nat} {ps? : Option (List Placed)}
    (h : ∀ ps ∈ ps?, ∀ p ∈ ps, p.template.kind ≠ RRType.CNAME) :
    ∃ c, Zone.nodeStep d z kind key depth ps? = .stop c := by
  unfold Zone.nodeStep
  cases ps? with
  | none => exact ⟨_, rfl⟩
  | some ps =>
    have hnone : ps.find? (fun p => p.template.kind = RRType.CNAME) = none := by
      rw [List.find?_eq_none]
      intro p hp
      simpa using h ps rfl p hp
    dsimp only
    rw [hnone]
    dsimp only
    split_ifs
    · exact ⟨_, rfl⟩
    · exact ⟨_, rfl⟩

theorem node_of_depth_pos {owner : Name} {key : String} {depth : Nat} (hd : depth ≠ 0)
    (hkey : key ≠ "apex") (h : depth = 1 ∨ key ∈ descendantKeys) :
    Zone.node z owner key depth = (fixture key).map (List.map (Placed.mk owner)) := by
  unfold Zone.node
  rw [if_neg hd, if_neg]
  rintro (h' | ⟨h1, h2⟩)
  · exact hkey h'
  · exact h.elim h1 h2

theorem kind_of_mem_node {owner : Name} {key : String} {ps : List Placed}
    (hps : ps ∈ (fixture key).map (List.map (Placed.mk owner))) {p : Placed} (hp : p ∈ ps) :
    ∃ ts ∈ fixture key, p.template ∈ ts := by
  obtain ⟨ts, hts, rfl⟩ := Option.map_eq_some_iff.mp hps
  obtain ⟨t, ht, rfl⟩ := List.mem_map.mp hp
  exact ⟨ts, hts, ht⟩

/-- `a` and `target-tree` have addresses only. -/
theorem fixture_stops : ∀ key ∈ ["a", "target-tree"], ∃ ts, fixture key = some ts ∧
    ∀ t ∈ ts, t.kind ∈ [RRType.A, RRType.AAAA] := by
  intro key hkey
  rcases List.mem_cons.mp hkey with rfl | hkey
  · exact ⟨_, rfl, by decide⟩
  · rw [List.mem_singleton.mp hkey]
    exact ⟨_, rfl, by decide⟩

/-- The node of `a` or of a name below `target-tree`. -/
theorem node_of_stops (z : Nonce) (owner : Name) {front : List Label} {key : String}
    (hkey : keyOf front = some key) (hmem : key ∈ ["a", "target-tree"])
    (hdepth : front.length = 1 ∨ key ∈ descendantKeys) :
    ∃ ps, Zone.node z owner key front.length = some ps ∧
      ∀ p ∈ ps, p.owner = owner ∧ p.template.kind ∈ [RRType.A, RRType.AAAA] := by
  have hdepth0 : front.length ≠ 0 := by
    intro h0
    rw [List.length_eq_zero_iff.mp h0, keyOf_nil] at hkey
    exact absurd (Option.some.inj hkey ▸ hmem) (by decide)
  have hapex : key ≠ "apex" := fun h => absurd (h ▸ hmem) (by decide)
  obtain ⟨ts, hts, hkinds⟩ := fixture_stops key hmem
  refine ⟨ts.map (Placed.mk owner), ?_, ?_⟩
  · rw [node_of_depth_pos hdepth0 hapex hdepth, hts, Option.map_some]
  · intro p hp
    obtain ⟨t, ht, rfl⟩ := List.mem_map.mp hp
    exact ⟨rfl, hkinds t ht⟩

variable (d kind)

/-- At `a` and below `target-tree` the resolver stops. -/
theorem step_stops {owner : Name} {front : List Label} {key : String}
    (hkey : keyOf front = some key) (hmem : key ∈ ["a", "target-tree"])
    (hdepth : front.length = 1 ∨ key ∈ descendantKeys) :
    ∃ c, Zone.step d z kind owner front key = .stop c := by
  have h1 : key ∉ ["referral", "additional-referral", "refused"] :=
    (by decide : ∀ k ∈ ["a", "target-tree"],
      k ∉ ["referral", "additional-referral", "refused"]) key hmem
  have h2 : key ∉ DNAME_KEYS :=
    (by decide : ∀ k ∈ ["a", "target-tree"], k ∉ DNAME_KEYS) key hmem
  obtain ⟨ps, hps, hkinds⟩ := node_of_stops z owner hkey hmem hdepth
  rw [step_eq_nodeStep h1 h2, hps]
  refine nodeStep_stop fun ps' hps' p hp => ?_
  cases hps'
  exact (by decide : ∀ t ∈ [RRType.A, RRType.AAAA], t ≠ RRType.CNAME) _ (hkinds p hp).2

theorem isHost_chainHop : IsHost "chain-hop" := by decide

def chainHop : Host := ⟨"chain-hop", isHost_chainHop⟩

/-- `chain-hop` leads to `a`. -/
theorem resolves_chainHop : ∃ n ≤ 2, ∃ chain c, Resolves d z kind n (z.host chainHop) chain c := by
  have hz := z.inZone_host chainHop
  have hkey : keyOf [chainHop.label] = some chainHop.text := keyOf_host [] chainHop
  cases hstep : Zone.step d z kind (z.host chainHop) [chainHop.label] chainHop.text with
  | stop c => exact ⟨1, by omega, [], c, .stop hz hkey hstep⟩
  | follow aliases next =>
    have hnode := hstep
    rw [step_eq_nodeStep (by decide) (by decide)] at hnode
    obtain ⟨p, ps, g, hps, hp, -, -, -, rfl, hg, -⟩ :=
      aliasTarget_of_nodeStep (wellFormedNode_node z _ chainHop.text _) hnode
    rw [List.length_singleton, node_of_depth_pos (by decide) (by decide) (Or.inl rfl)] at hps
    obtain ⟨ts, hts, ht⟩ := kind_of_mem_node hps hp
    have hfix : fixture chainHop.text = some [Fixture.target RRType.CNAME ⟨"a", by decide⟩] := rfl
    rw [hfix] at hts
    cases hts
    rw [List.mem_singleton.mp ht] at hg
    obtain rfl : (⟨"a", by decide⟩ : Host) = g := Option.some.inj hg
    have hkeyA := keyOf_host [] ⟨"a", by decide⟩
    obtain ⟨c, hc⟩ := step_stops d kind hkeyA (by decide) (Or.inl rfl)
    exact ⟨2, by omega, aliases ++ [], c,
      .follow hz hkey hstep (.stop (z.inZone_host ⟨"a", by decide⟩) hkeyA hc)⟩

theorem resolves_aliasTarget {next : Name} (h : AliasTarget z next) :
    ∃ n ≤ 2, ∃ chain c, Resolves d z kind n next chain c := by
  cases h with
  | @host g hg hn =>
    subst hn
    rcases List.mem_cons.mp hg with ha | hchain
    · obtain ⟨c, hc⟩ := step_stops d kind (keyOf_host [] g) (by rw [ha]; decide) (Or.inl rfl)
      exact ⟨1, by omega, [], c, .stop (z.inZone_host g) (keyOf_host [] g) hc⟩
    · obtain rfl : g = chainHop := by
        cases g
        simp only [chainHop, Host.mk.injEq]
        exact List.mem_singleton.mp hchain
      exact resolves_chainHop d kind
  | @tree front hn =>
    have hz : InZone z next (front ++ [textOctets "target-tree"]) :=
      ⟨z.labels, by rw [hn]; simp, z.foldCase_labels⟩
    have hkey := keyOf_host front ⟨"target-tree", by decide⟩
    obtain ⟨c, hc⟩ := step_stops d kind hkey (by decide) (Or.inr (by decide))
    exact ⟨1, by omega, [], c, .stop hz hkey hc⟩

/-- **Every name in the zone resolves**, and no alias chain visits more than three names. -/
theorem resolves_total {owner : Name} {front : List Label} {key : String}
    (hz : InZone z owner front) (hkey : keyOf front = some key) :
    ∃ n ≤ 3, ∃ chain c, Resolves d z kind n owner chain c := by
  cases hstep : Zone.step d z kind owner front key with
  | stop c => exact ⟨1, by omega, [], c, .stop hz hkey hstep⟩
  | follow aliases next =>
    obtain ⟨n, hn, chain, c, h⟩ := resolves_aliasTarget d kind
      (aliasTarget_of_step hstep)
    exact ⟨n + 1, by omega, aliases ++ chain, c, .follow hz hkey hstep h⟩

variable {d kind}

/-- The labels in front of the zone and their key, in one way. -/
theorem InZone.key_unique {owner : Name} {front front' : List Label} {key key' : String}
    (hz : InZone z owner front) (hkey : keyOf front = some key) (hz' : InZone z owner front')
    (hkey' : keyOf front' = some key') : front' = front ∧ key' = key := by
  obtain ⟨-, rfl⟩ := hz.unique hz'
  rw [hkey] at hkey'
  exact ⟨rfl, (Option.some.inj hkey').symm⟩

theorem Resolves.of_stop {n : Nat} {owner : Name} {front : List Label} {key : String}
    {chain : List RRset} {c c' : Conclusion} (h : Resolves d z kind n owner chain c)
    (hz : InZone z owner front) (hkey : keyOf front = some key)
    (hstep : Zone.step d z kind owner front key = .stop c') : n = 1 ∧ chain = [] ∧ c = c' := by
  cases h with
  | stop hz' hkey' hstep' =>
    obtain ⟨rfl, rfl⟩ := hz.key_unique hkey hz' hkey'
    rw [hstep] at hstep'
    cases hstep'
    exact ⟨rfl, rfl, rfl⟩
  | follow hz' hkey' hstep' =>
    obtain ⟨rfl, rfl⟩ := hz.key_unique hkey hz' hkey'
    rw [hstep] at hstep'
    cases hstep'

theorem Resolves.of_follow {n : Nat} {owner next : Name} {front : List Label} {key : String}
    {aliases chain : List RRset} {c : Conclusion} (h : Resolves d z kind n owner chain c)
    (hz : InZone z owner front) (hkey : keyOf front = some key)
    (hstep : Zone.step d z kind owner front key = .follow aliases next) :
    ∃ m rest, n = m + 1 ∧ chain = aliases ++ rest ∧ Resolves d z kind m next rest c := by
  cases h with
  | stop hz' hkey' hstep' =>
    obtain ⟨rfl, rfl⟩ := hz.key_unique hkey hz' hkey'
    rw [hstep] at hstep'
    cases hstep'
  | follow hz' hkey' hstep' hrest =>
    obtain ⟨rfl, rfl⟩ := hz.key_unique hkey hz' hkey'
    rw [hstep] at hstep'
    cases hstep'
    exact ⟨_, _, rfl, rfl, hrest⟩

/-- A name resolves in one way. -/
theorem Resolves.unique {n n' : Nat} {owner : Name} {chain chain' : List RRset} {c c' : Conclusion}
    (h : Resolves d z kind n owner chain c) (h' : Resolves d z kind n' owner chain' c') :
    n = n' ∧ chain = chain' ∧ c = c' := by
  induction h generalizing n' chain' c' with
  | stop hz hkey hstep =>
    obtain ⟨rfl, rfl, rfl⟩ := h'.of_stop hz hkey hstep
    exact ⟨rfl, rfl, rfl⟩
  | follow hz hkey hstep _ ih =>
    obtain ⟨m, rest, rfl, rfl, hrest⟩ := h'.of_follow hz hkey hstep
    obtain ⟨rfl, rfl, rfl⟩ := ih hrest
    exact ⟨rfl, rfl, rfl⟩

end

/-! ### The loop -/

section

variable {d : Dnspython} (hd : d.Documented) {z : Nonce} {kind : UInt16}
include hd

/-- **Run lemma**: where the resolver ends within the turns that remain, the loop returns what it
found. -/
theorem answerLoop_eq {n m : Nat} {owner : Name} {chain : List RRset} {c : Conclusion}
    (h : Resolves d z kind n owner chain c) (hn : n ≤ m)
    (hcut : ∀ front key, InZone z owner front → keyOf front = some key →
      ∃ cut, d.nameFromText (key ++ "." ++ z.text) = .ok cut)
    {response : Message} (hadd : response.additional = []) :
    answerLoop d kind z.text m response owner
      = .ok (c.apply { response with answer := response.answer ++ chain }) := by
  induction h generalizing m response with
  | stop hz hkey hstep =>
    obtain ⟨m, rfl⟩ : ∃ k, m = k + 1 := ⟨m - 1, by omega⟩
    obtain ⟨cut, hcut⟩ := hcut _ _ hz hkey
    rw [answerLoop, answerStep_eq hd hz hkey hcut hadd, hstep, List.append_nil]
    rfl
  | @follow n owner next front key aliases chain c hz hkey hstep _ ih =>
    obtain ⟨m, rfl⟩ : ∃ k, m = k + 1 := ⟨m - 1, by omega⟩
    obtain ⟨cut, hcut⟩ := hcut _ _ hz hkey
    have hnext : ∀ front key, InZone z next front → keyOf front = some key →
        ∃ cut, d.nameFromText (key ++ "." ++ z.text) = .ok cut := by
      intro front' key' hz' hkey'
      obtain ⟨front'', g, hz'', hkey'', -⟩ := (aliasTarget_of_step hstep).inZone
      obtain ⟨-, rfl⟩ := hz''.key_unique hkey'' hz' hkey'
      exact ⟨_, nameFromText_target hd z g.text g.isHost⟩
    have hrun : answerLoop d kind z.text m { response with answer := response.answer ++ aliases } next
        = .ok (c.apply { response with answer := response.answer ++ aliases ++ chain }) :=
      ih (Nat.le_of_succ_le_succ hn) hnext hadd
    rw [answerLoop, answerStep_eq hd hz hkey hcut hadd, hstep]
    simp only [Step.turn, bind, Except.bind]
    rw [hrun, List.append_assoc]

/-- The text of a key that is no label of octets above 63 is read or raises; where it is read,
`_answer` returns what the resolver finds. -/
theorem answer_eq (kind : UInt16) {owner : Name} {front : List Label} {key : String} {cut : Name}
    (hz : InZone z owner front) (hkey : keyOf front = some key)
    (hcut : d.nameFromText (key ++ "." ++ z.text) = .ok cut) {response : Message}
    (hadd : response.additional = []) :
    ∃ n chain c, Resolves d z kind n owner chain c ∧ answer d response owner kind z.text
      = .ok (c.apply { response with answer := response.answer ++ chain }) := by
  obtain ⟨n, hn, chain, c, h⟩ := resolves_total d kind hz hkey
  refine ⟨n, chain, c, h, answerLoop_eq hd h (by omega) ?_ hadd⟩
  intro front' key' hz' hkey'
  obtain ⟨-, rfl⟩ := hz.key_unique hkey hz' hkey'
  exact ⟨cut, hcut⟩

/-- Where the text of the key cannot be read, `_answer` raises. -/
theorem answer_error {owner : Name} {front : List Label} {key : String} {e : Raised}
    (hz : InZone z owner front) (hkey : keyOf front = some key)
    (hcut : d.nameFromText (key ++ "." ++ z.text) = .error e) (response : Message) :
    answer d response owner kind z.text = .error e := by
  have hnameKey : nameKey owner = some (key, octetsText z.label) := by
    rw [nameKey_of_inZone hz, hkey]
    rfl
  rw [answer, answerLoop, answerStep, hnameKey]
  simp only [bind, Except.bind, authoritySoa_eq hd kind hz hkey, hcut]

end

end DnsFixtures
