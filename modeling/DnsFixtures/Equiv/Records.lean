import DnsFixtures.Equiv.Names

/-!
# The record table

`records_eq`: for a key whose text can be read, `_records` returns the data of `Zone.node`, and
raises for no key of the catalogue.  The proof goes through the branches of `_records` in their
order; `rr_a`, `rr_target` and the like are the readers of `dns.rrset.from_text` on the texts the
fixtures hand to them.
-/

namespace DnsFixtures

open Dns

/-! ### Sequences of readers -/

theorem sequence_of_forall₂ {α : Type} {xs : List (Except Raised α)} {as : List α}
    (h : List.Forall₂ (fun x a => x = .ok a) xs as) : sequence xs = .ok as := by
  induction h with
  | nil => rfl
  | cons hx _ ih =>
    unfold sequence at ih ⊢
    rw [List.mapM_cons, ih, hx]
    rfl

theorem sequence_map {α β : Type} {f : β → Except Raised α} {g : β → α} {bs : List β}
    (h : ∀ b ∈ bs, f b = .ok (g b)) : sequence (bs.map f) = .ok (bs.map g) := by
  refine sequence_of_forall₂ ?_
  rw [List.forall₂_map_left_iff, List.forall₂_map_right_iff]
  exact List.forall₂_same.mpr h

theorem srvTargets_zipIdx : (Fixture.srvTargets.zipIdx 1).map (fun p => (p.2, p.1.text))
    = (List.range' 1 64).map fun i => (i, "srv-" ++ toString i) := by decide +kernel

/-! ### Keys of the catalogue -/

theorem isHost_fixtureKey : ∀ key ∈ fixtureKeys, IsHost key := by decide +kernel

theorem fixture_eq_none {key : String} (h : key ∉ fixtureKeys) : fixture key = none := by
  have hsingle : Fixture.single.lookup key = none := by
    rw [List.lookup_eq_none_iff]
    intro p hp
    rw [bne_iff_ne]
    rintro rfl
    exact h (List.mem_append_right _ (List.mem_map_of_mem hp))
  simp only [fixtureKeys, List.mem_append, List.mem_cons, List.not_mem_nil, or_false, not_or] at h
  unfold fixture
  simp only [h, hsingle, List.mem_cons, List.not_mem_nil, or_false, or_self, if_false,
    Option.map_none]

theorem mem_fixtureKeys {key : String} {ts : List Template} (h : fixture key = some ts) :
    key ∈ fixtureKeys := by
  by_contra hk
  rw [fixture_eq_none hk] at h
  cases h

section

variable {d : Dnspython} (hd : d.Documented) (z : Nonce) (owner : Name)

/-! ### RRsets from text -/

/-- Readers of the data of a template make its RRset. -/
theorem rr_eq {o : Owner} (ho : o.parse d = .ok owner) {t : Template}
    {data : List (Except Raised Rdata)}
    (h : sequence data = .ok (t.data.map (List.map (Part.fill d z owner)))) :
    rr d o t.kind data t.ttl = .ok (t.fill d z owner) := by
  rw [rr, ho]
  simp only [bind, Except.bind, h, pure, Except.pure]
  rfl

theorem rr_a {o : Owner} (ho : o.parse d = .ok owner) (hosts : List Nat) (ttl : UInt32) :
    rr d o RRType.A (hosts.map aData) ttl = .ok ((Fixture.a hosts ttl).fill d z owner) := by
  refine rr_eq z owner ho (t := Fixture.a hosts ttl) ?_
  rw [Fixture.a, List.map_map]
  exact sequence_map fun _ _ => rfl

theorem rr_aaaa {o : Owner} (ho : o.parse d = .ok owner) (hosts : List Nat) (ttl : UInt32) :
    rr d o RRType.AAAA (hosts.map aaaaData) ttl = .ok ((Fixture.aaaa hosts ttl).fill d z owner) := by
  refine rr_eq z owner ho (t := Fixture.aaaa hosts ttl) ?_
  rw [Fixture.aaaa, List.map_map]
  exact sequence_map fun _ _ => rfl

theorem rr_single {o : Owner} (ho : o.parse d = .ok owner) {kind : UInt16} {parts : List Part}
    {x : Except Raised Rdata} (h : x = .ok (parts.map (Part.fill d z owner))) :
    rr d o kind [x] 0 = .ok ((⟨kind, 0, [parts]⟩ : Template).fill d z owner) :=
  rr_eq z owner ho (t := ⟨kind, 0, [parts]⟩) (sequence_of_forall₂ (.cons h .nil))

theorem rr_txt (count : Nat) (s : String) :
    rr d (.name owner) RRType.TXT [txtData (List.replicate count s)] 0
      = .ok ((Fixture.txt count s).fill d z owner) := by
  refine rr_single z owner rfl ?_
  rw [txtData, List.map_replicate]
  rfl

include hd

theorem octetsFromText_ok {kind : UInt16} {s : String} (h : (kind, s) ∈ fixtureTexts) :
    d.octetsFromText kind s = .ok ((d.octetsFromText kind s).toOption.getD []) := by
  obtain ⟨bs, hbs, -⟩ := hd.octetsFromText_fixtures _ h
  rw [hbs]
  rfl

theorem rr_target (kind : UInt16) (h : Host) :
    rr d (.name owner) kind [nameData d (h.text ++ "." ++ z.text)] 0
      = .ok ((Fixture.target kind h).fill d z owner) := by
  refine rr_single z owner rfl ?_
  rw [nameData, nameFromText_target hd z h.text h.isHost]
  rfl

theorem rr_exchange (kind preference : UInt16) (h : Host) :
    rr d (.name owner) kind [mxData d preference (h.text ++ "." ++ z.text)] 0
      = .ok ((Fixture.exchange kind preference h).fill d z owner) := by
  refine rr_single z owner rfl ?_
  rw [mxData, nameFromText_target hd z h.text h.isHost]
  rfl

theorem rr_srv (entries : List (UInt16 × UInt16 × Host)) :
    rr d (.name owner) RRType.SRV
        (entries.map fun e => srvData d 10 e.1 e.2.1 (e.2.2.text ++ "." ++ z.text)) 0
      = .ok ((Fixture.srv entries).fill d z owner) := by
  refine rr_eq z owner rfl (t := Fixture.srv entries) ?_
  rw [Fixture.srv, List.map_map]
  refine sequence_map fun e _ => ?_
  rw [srvData, nameFromText_target hd z e.2.2.text e.2.2.isHost]
  rfl

theorem rr_text (kind : UInt16) (s : String) (h : (kind, s) ∈ fixtureTexts) :
    rr d (.name owner) kind [textData d kind s] 0
      = .ok ((Fixture.text kind s).fill d z owner) := by
  refine rr_single z owner rfl ?_
  rw [textData, octetsFromText_ok hd h]
  rfl

theorem rr_service {kind : UInt16} (h : (kind, serviceParams) ∈ fixtureTexts) {target : String}
    {n : RelName} (hn : d.nameFromText target = .ok (n.fill z owner)) :
    rr d (.name owner) kind [svcbData d kind 1 target (some serviceParams)] 0
      = .ok ((Fixture.service kind n).fill d z owner) := by
  refine rr_single z owner rfl ?_
  rw [svcbData, hn, octetsFromText_ok hd h]
  rfl

theorem rr_serviceAlias (kind : UInt16) (h : Host) :
    rr d (.name owner) kind [svcbData d kind 0 (h.text ++ "." ++ z.text) none] 0
      = .ok ((Fixture.serviceAlias kind h).fill d z owner) := by
  refine rr_single z owner rfl ?_
  rw [svcbData, nameFromText_target hd z h.text h.isHost]
  rfl

/-- `_soa` with the primary server of the zone. -/
theorem soa_zone {o : Option Owner} (ho : (o.getD (.text z.text)).parse d = .ok owner) :
    soa d z.text o none = .ok (Fixture.zoneSoa.fill d z owner) := by
  refine rr_single z owner ho ?_
  rw [soaData, Option.getD_none, nameFromText_cons hd z "ns." "ns" (by decide) rfl,
    nameFromText_cons hd z "hostmaster." "hostmaster" (by decide) rfl]
  rfl

/-- `_soa` for `additional-ns`, with its own primary server and a mailbox below its own name. -/
theorem soa_additionalNs {primary : String} {o : Name} (ho : o.labels ≠ [])
    (hlen : nameLength o.labels ≤ 191)
    (hp : d.nameFromText primary = .ok (z.host ⟨"additional-ns-host", by decide⟩)) :
    soa d (d.nameToText o) none (some primary) = .ok (Fixture.additionalNsSoa.fill d z o) := by
  have hlegal := Fixture.hostmaster.legal_cons o.legal hlen
  have hparse : ((none : Option Owner).getD (.text (d.nameToText o))).parse d = .ok o :=
    nameFromText_nameToText hd o
  refine rr_single z o hparse ?_
  rw [soaData, Option.getD_some, hp,
    nameFromText_cons_nameToText hd "hostmaster." "hostmaster" (by decide) rfl ho hlegal]
  have hcat : (Name.concatenate [Fixture.hostmaster.label] o).getD o
      = ⟨Fixture.hostmaster.label :: o.labels, hlegal⟩ := by
    rw [Name.concatenate, List.singleton_append, Name.ofLabels?_of_legal hlegal, Option.getD_some]
  simp only [List.map_cons, List.map_nil, Part.fill, RelName.fill, hcat]
  rfl

/-! ### The branches of `_records` -/

omit hd in
/-- Branches under one condition on both sides. -/
theorem ite_eq_ok {α β : Type} {f : α → β} {c : Prop} [Decidable c] {x y : Except Raised β}
    {s t : α} (hx : c → x = .ok (f s)) (hy : ¬ c → y = .ok (f t)) :
    (if c then x else y) = .ok (f (if c then s else t)) := by
  split_ifs with h
  · exact hx h
  · exact hy h

omit hd in
theorem some_sequence {ts : List Template} {xs : List (Except Raised RRset)}
    (h : List.Forall₂ (fun x t => x = .ok (t.fill d z owner)) xs ts) :
    some <$> sequence xs = .ok ((some ts).map (List.map (Template.fill d z owner))) := by
  have hs : sequence xs = .ok (ts.map (Template.fill d z owner)) := by
    refine sequence_of_forall₂ ?_
    rwa [List.forall₂_map_right_iff]
  rw [hs]
  rfl

omit hd in
theorem lookup_of_forall₂ {β γ : Type} {r : β → γ → Prop} {xs : List (String × β)}
    {ys : List (String × γ)} (h : List.Forall₂ (fun x y => x.1 = y.1 ∧ r x.2 y.2) xs ys)
    (key : String) : Option.Rel r (xs.lookup key) (ys.lookup key) := by
  induction h with
  | nil => exact .none
  | @cons x y _ _ hxy _ ih =>
    obtain ⟨k, b⟩ := x
    obtain ⟨k', c⟩ := y
    obtain ⟨rfl, hr⟩ := hxy
    rw [List.lookup_cons, List.lookup_cons]
    cases key == k with
    | true => exact .some hr
    | false => exact ih

/-- The table `values`. -/
theorem values_eq : List.Forall₂ (fun x y => x.1 = y.1 ∧
      rr d (.name owner) x.2.1 [x.2.2] 0 = .ok (y.2.fill d z owner))
    (values d z.text) Fixture.single := by
  refine .cons ⟨rfl, rr_exchange hd z owner RRType.MX 10 ⟨"mail", by decide⟩⟩ <|
    .cons ⟨rfl, rr_txt z owner 1 "fresh DNS evidence fixture"⟩ <|
    .cons ⟨rfl, rr_target hd z owner RRType.PTR ⟨"a", by decide⟩⟩ <|
    .cons ⟨rfl, rr_target hd z owner RRType.PTR ⟨"a", by decide⟩⟩ <|
    .cons ⟨rfl, rr_text hd z owner RRType.HINFO hinfoText (by decide)⟩ <|
    .cons ⟨rfl, ?_⟩ <|
    .cons ⟨rfl, rr_txt z owner 1 "Fixture contact metadata"⟩ <|
    .cons ⟨rfl, rr_exchange hd z owner RRType.AFSDB 1 ⟨"service", by decide⟩⟩ <|
    .cons ⟨rfl, rr_text hd z owner RRType.LOC locText (by decide)⟩ <|
    .cons ⟨rfl, rr_text hd z owner RRType.NAPTR naptrText (by decide)⟩ <|
    .cons ⟨rfl, rr_text hd z owner RRType.CERT certText (by decide)⟩ <|
    .cons ⟨rfl, rr_text hd z owner RRType.SSHFP sshfpText (by decide)⟩ <|
    .cons ⟨rfl, rr_text hd z owner RRType.TLSA tlsaText (by decide)⟩ <|
    .cons ⟨rfl, rr_text hd z owner RRType.OPENPGPKEY OPENPGPKEY (by decide +kernel)⟩ <|
    .cons ⟨rfl, rr_text hd z owner RRType.SMIMEA SMIMEA (by decide)⟩ <|
    .cons ⟨rfl, rr_text hd z owner RRType.URI uriText (by decide)⟩ <|
    .cons ⟨rfl, rr_text hd z owner RRType.CAA caaText (by decide)⟩ <|
    .cons ⟨rfl, rr_text hd z owner TYPE65280 unknownText (by decide)⟩ .nil
  refine rr_single z owner rfl ?_
  dsimp only
  rw [rpData, nameFromText_cons hd z "hostmaster." "hostmaster" (by decide) rfl,
    nameFromText_cons hd z "contact." "contact" (by decide) rfl]
  rfl

/-- `_records` on a key of the table: the branches of the source in their order. -/
theorem fixtureRecords_eq {key : String} (hapex : key ≠ "apex")
    (hown : key = "additional-ns" → owner.labels ≠ [] ∧ nameLength owner.labels ≤ 191) :
    fixtureRecords d owner key z.text
      = .ok ((fixture key).map (List.map (Template.fill d z owner))) := by
  unfold fixtureRecords fixture
  dsimp only
  rw [if_neg hapex]
  refine ite_eq_ok (fun _ => ?_) fun _ => ite_eq_ok (fun _ => ?_) fun _ =>
    ite_eq_ok (fun _ => ?_) fun _ => ite_eq_ok (fun hk => ?_) fun _ =>
    ite_eq_ok (fun _ => ?_) fun _ => ite_eq_ok (fun _ => ?_) fun _ =>
    ite_eq_ok (fun _ => ?_) fun _ => ite_eq_ok (fun _ => ?_) fun _ =>
    ite_eq_ok (fun _ => ?_) fun _ => ite_eq_ok (fun _ => ?_) fun _ =>
    ite_eq_ok (fun _ => ?_) fun _ => ite_eq_ok (fun _ => ?_) fun _ =>
    ite_eq_ok (fun _ => ?_) fun _ => ite_eq_ok (fun _ => ?_) fun _ =>
    ite_eq_ok (fun _ => ?_) fun _ => ite_eq_ok (fun _ => ?_) fun _ =>
    ite_eq_ok (fun _ => ?_) fun _ => ite_eq_ok (fun _ => ?_) fun _ =>
    ite_eq_ok (fun _ => ?_) fun _ => ?_
  · -- DNAME
    exact some_sequence z owner (.cons (rr_target hd z owner _ ⟨"target-tree", by decide⟩) .nil)
  · -- aliases
    refine some_sequence z owner (.cons ?_ .nil)
    split_ifs
    · exact rr_target hd z owner _ ⟨"chain-hop", by decide⟩
    · exact rr_target hd z owner _ ⟨"a", by decide⟩
  · -- `ns` and `soa`
    refine some_sequence z owner (.cons (rr_target hd z owner _ ⟨"ns", by decide⟩)
      (.cons (soa_zone hd z owner rfl) ?_))
    split_ifs
    · exact .cons (rr_a z owner rfl [53] 0) .nil
    · exact .nil
  · -- `additional-ns`
    exact some_sequence z owner (.cons (rr_target hd z owner _ ⟨"additional-ns-host", by decide⟩)
      (.cons (soa_additionalNs hd z (hown hk).1 (hown hk).2
        (nameFromText_target hd z "additional-ns-host" (by decide))) .nil))
  · -- hosts of the additional section
    exact some_sequence z owner (.cons (rr_a z owner rfl [_] 0)
      (.cons (rr_aaaa z owner rfl [_] 0) .nil))
  · exact some_sequence z owner
      (.cons (rr_exchange hd z owner _ _ ⟨"additional-mail", by decide⟩) .nil)
  · refine some_sequence z owner (.cons ?_ .nil)
    split_ifs
    · exact rr_srv hd z owner [(60, 389, ⟨"additional-dc", by decide⟩)]
    · exact rr_srv hd z owner [(60, 8443, ⟨"additional-service", by decide⟩)]
  · -- addresses
    refine some_sequence z owner (.cons (rr_a z owner rfl [10] _) ?_)
    split_ifs
    · exact .nil
    all_goals exact .cons (rr_aaaa z owner rfl [0x10] _) .nil
  · exact some_sequence z owner (.cons (rr_aaaa z owner rfl [0x10] 0) .nil)
  · exact some_sequence z owner (.cons (rr_a z owner rfl [25] 0) .nil)
  · -- targets of SRV and SVCB records
    refine some_sequence z owner (.cons (rr_a z owner rfl [_] 0)
      (.cons (rr_aaaa z owner rfl [_] 0) ?_))
    split_ifs
    · have hroot : d.nameFromText "." = .ok Name.root :=
        nameFromText_of_readName hd (by decide) rfl
      exact .cons (rr_service hd z owner (by decide) hroot)
        (.cons (rr_service hd z owner (by decide) hroot) .nil)
    · exact .nil
  · exact some_sequence z owner (.cons (rr_a z owner rfl [10, 11] 0) .nil)
  · exact some_sequence z owner (.cons (rr_aaaa z owner rfl [0x10, 0x11] 0) .nil)
  · exact some_sequence z owner (.cons (rr_txt z owner _ _) .nil)
  · exact some_sequence z owner (.cons (rr_a z owner rfl (List.range' 1 128) 0) .nil)
  · exact some_sequence z owner (.cons (rr_aaaa z owner rfl (List.range' 1 128) 0) .nil)
  · -- `large-srv`
    refine some_sequence z owner (.cons ?_ .nil)
    have hlist : (List.range' 1 64).map (fun i =>
          srvData d 10 (UInt16.ofNat i) 8443 ("srv-" ++ toString i ++ "." ++ z.text))
        = ((List.range' 1 64).map fun i => (i, "srv-" ++ toString i)).map fun p =>
            srvData d 10 (UInt16.ofNat p.1) 8443 (p.2 ++ "." ++ z.text) := by
      rw [List.map_map]
      rfl
    rw [← rr_srv hd z owner, List.map_map, hlist, ← srvTargets_zipIdx, List.map_map]
    rfl
  · exact some_sequence z owner (.cons (rr_srv hd z owner [(60, srvPort key, ⟨"service", by decide⟩)])
      .nil)
  · -- SVCB and HTTPS
    refine some_sequence z owner (.cons ?_ .nil)
    have hsvc := nameFromText_target hd z "svc" (by decide)
    split_ifs
    · exact rr_serviceAlias hd z owner _ ⟨"svc", by decide⟩
    · exact rr_service hd z owner (by decide) hsvc
    · exact rr_serviceAlias hd z owner _ ⟨"svc", by decide⟩
    · exact rr_service hd z owner (by decide) hsvc
  · -- the table
    have h := lookup_of_forall₂
      (r := fun (x : UInt16 × Except Raised Rdata) (t : Template) =>
        rr d (.name owner) x.1 [x.2] 0 = .ok (t.fill d z owner))
      (values_eq hd z owner) key
    revert h
    generalize (values d z.text).lookup key = x
    generalize Fixture.single.lookup key = y
    rintro (hr | _)
    · exact some_sequence z owner (.cons hr .nil)
    · rfl

variable {z owner}

/-- **The record table**: `_records` returns the data of the node. -/
theorem records_eq {front : List Label} {key : String} {cut : Name} (hz : InZone z owner front)
    (hkey : keyOf front = some key) (hcut : d.nameFromText (key ++ "." ++ z.text) = .ok cut) :
    records d owner key z.text
      = .ok ((Zone.node z owner key front.length).map (List.map (Zone.rrset d z))) := by
  unfold records
  simp only [bind, Except.bind, hcut]
  by_cases hf : front = []
  · -- the apex
    subst hf
    obtain rfl : key = "apex" := (Option.some.inj hkey).symm
    have hzone : owner.SameAs z.zone := (sameAs_zone_iff hz).mpr rfl
    rw [if_neg (by simp), fixtureRecords]
    simp only [if_true, bind, Except.bind, nameFromText_zone hd, hzone, not_true_eq_false, if_false]
    have hseq : sequence [soa d z.text none none, rr d (.name owner) RRType.NS
        [nameData d ("ns" ++ "." ++ z.text)] 0]
        = .ok [Fixture.zoneSoa.fill d z z.zone, Fixture.ns.fill d z owner] :=
      sequence_of_forall₂ (.cons (soa_zone hd z z.zone (nameFromText_zone hd z))
        (.cons (rr_target hd z owner _ ⟨"ns", by decide⟩) .nil))
    rw [hseq]
    rfl
  · have hlen : front.length ≠ 0 := by simpa using hf
    rw [Zone.node, if_neg hlen]
    by_cases hapex : key = "apex"
    · -- the literal label
      subst hapex
      have hzone : ¬ owner.SameAs z.zone := fun h => hf ((sameAs_zone_iff hz).mp h)
      rw [if_neg (by simp), fixtureRecords, if_pos (Or.inl rfl)]
      simp only [if_true, bind, Except.bind, nameFromText_zone hd, hzone, not_false_eq_true]
      rfl
    · have hmap : ∀ ts : Option (List Template),
          (ts.map (List.map (Placed.mk owner))).map (List.map (Zone.rrset d z))
            = ts.map (List.map (Template.fill d z owner)) := by
        intro ts
        cases ts with
        | none => rfl
        | some ts =>
          simp only [Option.map_some, List.map_map]
          rfl
      have hdesc : key ∉ ["apex", "wildcard", "long-label", "long-name", "target-tree"]
          ↔ key ∉ descendantKeys := by
        rw [List.mem_cons, not_or]
        exact ⟨And.right, fun h => ⟨hapex, h⟩⟩
      simp only [hdesc]
      by_cases hk : key ∈ descendantKeys
      · rw [if_neg (fun h => h.2 hk), if_neg (by simp [hapex, hk]), hmap]
        refine fixtureRecords_eq hd z owner hapex fun h => ?_
        subst h
        exact absurd hk (by decide)
      · by_cases hhost : IsHost key
        · rw [nameFromText_target hd z key hhost] at hcut
          cases hcut
          have hexact : owner.SameAs (z.host ⟨key, hhost⟩) ↔ front.length = 1 :=
            sameAs_host_of_key hz hf hkey
          by_cases h1 : front.length = 1
          · rw [if_neg (fun h => h.1 (hexact.mpr h1)), if_neg (by simp [hapex, h1]), hmap]
            refine fixtureRecords_eq hd z owner hapex fun h => ?_
            obtain ⟨l, rfl⟩ := List.length_eq_one_iff.mp h1
            obtain ⟨suffix, ho, hs⟩ := hz.labels
            obtain ⟨l', hl', hlow⟩ := (sameAs_host_iff hz).mp (hexact.mpr h1)
            have h63 : l.length ≤ 63 := by
              cases hl'
              rw [← length_lower, hlow]
              exact hhost.2.2.1
            rw [ho, List.singleton_append, nameLength_cons, ← nameLength_foldCase suffix, hs,
              z.nameLength_labels]
            exact ⟨by simp, by omega⟩
          · rw [if_pos ⟨fun h => h1 (hexact.mp h), hk⟩, if_pos (Or.inr ⟨h1, hk⟩)]
            rfl
        · -- no key of the catalogue
          have hnone : fixture key = none :=
            fixture_eq_none fun h => hhost (isHost_fixtureKey key h)
          have hadd : key = "additional-ns" → owner.labels ≠ [] ∧ nameLength owner.labels ≤ 191 := by
            rintro rfl
            exact absurd (by decide) hhost
          rw [fixtureRecords_eq hd z owner hapex hadd, hnone]
          split_ifs <;> rfl

end

end DnsFixtures
