import DnsFixtures.Equiv.Records

/-!
# The catalogue is well formed

What every entry of the catalogue satisfies (`Template.WellFormed`, `WellFormedNode`), checked once
over all keys (`fixture_wellFormed`).  `Template.WellFormed` is about the templates; what follows for
the RRsets that they make at an owner is in `Equiv.Renderable`.
-/

namespace DnsFixtures

open Dns

/-! ### Well-formed templates -/

def RelName.size : RelName → Nat
  | .root => 1
  | .host h => 54 + h.label.length
  | .ofOwner _ => 255

/-- A bound on the octets of a field. -/
def Part.size : Part → Nat
  | .octets bs => bs.length
  | .name n => n.size
  | .text _ _ => 2000
  | .strings count s => count * ((textOctets s).length + 1)

/-- A bound on the octets of an RRset, whatever its owner. -/
def Template.size (t : Template) : Nat := (t.data.map fun ps => 265 + (ps.map Part.size).sum).sum

/-- The fields are in the layout of the record type. -/
def partsConform (kind : UInt16) : List Piece → List Part → Bool
  | [], [] => true
  | .fixed n :: ps, .octets bs :: fs => bs.length = n && partsConform kind ps fs
  | .name :: ps, .name _ :: fs => partsConform kind ps fs
  | [.rest], [.octets bs] => bs = [] && kind ∈ [RRType.SVCB, RRType.HTTPS]
  | [.rest], [.text k s] => k = kind && (kind, s) ∈ fixtureTexts
  | [.rest], [.strings count s] => kind = RRType.TXT && count ≠ 0 && (textOctets s).length ≤ 255
  | _, _ => false

/-- The octets in front of the first name tell two records apart. -/
def apart : List Part → List Part → Bool
  | .octets a :: _, .octets b :: _ => a ≠ b
  | _, _ => false

/-- The keys of the hosts that NS, MX and SRV records lead to. -/
def addressKeys : List String :=
  ["ns", "mail", "service", "additional-mail", "additional-service", "additional-dc",
    "additional-ns-host"] ++ SRV_TARGETS

structure Template.WellFormed (t : Template) : Prop where
  kind : t.kind ∈ Dnspython.dataTypes
  ttl : t.ttl.toNat < 2 ^ 31
  ne_nil : t.data ≠ []
  singleton : t.kind ∈ [RRType.CNAME, RRType.SOA, RRType.DNAME] → t.data.length = 1
  conforms : ∀ ps ∈ t.data, partsConform t.kind (Dnspython.layout t.kind) ps = true
  distinct : t.data.length = 1 ∨ t.data.Pairwise fun a b => apart a b = true
  targets : t.kind ∈ [RRType.NS, RRType.MX, RRType.SRV] →
    ∀ ps ∈ t.data, ∃ h ∈ targetHost ps, h.text ∈ addressKeys
  targetsNodup : t.additionalHosts.Nodup

/-- The addresses of a host, as templates. -/
def addressTemplates (h : Host) : List Template :=
  ((fixture h.text).getD []).filter fun t => t.kind ∈ [RRType.A, RRType.AAAA]

/-- A bound on the octets of an RRset and its additional records. -/
def Template.fullSize (t : Template) : Nat :=
  t.size + (t.additionalHosts.map fun h => ((addressTemplates h).map Template.size).sum).sum

structure WellFormedNode (ts : List Template) : Prop where
  kinds : (ts.map Template.kind).Nodup
  templates : ∀ t ∈ ts, t.WellFormed
  size : (ts.map Template.fullSize).sum ≤ 62000
  /-- a CNAME stands alone, and leads to `a` or to `chain-hop` -/
  cname : ∀ t ∈ ts, t.kind = RRType.CNAME →
    ts = [t] ∧ ∃ h ∈ t.data.head?.bind targetHost, h.text ∈ ["a", "chain-hop"]

/-! ### The addresses of a host -/

/-- The addresses of a host that records lead to are short. -/
theorem fixture_addressKey : ∀ key ∈ addressKeys, ∃ ts ∈ fixture key,
    ((ts.filter fun t => t.kind ∈ [RRType.A, RRType.AAAA]).map Template.size).sum ≤ 550 := by
  decide +kernel

theorem size_addressTemplates_le {h : Host} (hh : h.text ∈ addressKeys) :
    ((addressTemplates h).map Template.size).sum ≤ 550 := by
  obtain ⟨ts, hts, hsize⟩ := fixture_addressKey h.text hh
  rw [addressTemplates, Option.mem_def.mp hts]
  exact hsize

theorem sum_map_le {α : Type} {f : α → Nat} {n : Nat} {l : List α} (h : ∀ x ∈ l, f x ≤ n) :
    (l.map f).sum ≤ l.length * n := by
  induction l with
  | nil => simp
  | cons x l ih =>
    have := h x List.mem_cons_self
    have := ih fun y hy => h y (List.mem_cons_of_mem _ hy)
    rw [List.map_cons, List.sum_cons, List.length_cons, Nat.succ_mul]
    omega

theorem fullSize_eq {t : Template} (hk : t.kind ∉ [RRType.NS, RRType.MX, RRType.SRV]) :
    t.fullSize = t.size := by
  rw [Template.fullSize, Template.additionalHosts, if_neg hk]
  rfl

theorem mem_addressKeys_of_mem {t : Template} (ht : t.WellFormed) {h : Host}
    (hh : h ∈ t.additionalHosts) : h.text ∈ addressKeys := by
  unfold Template.additionalHosts at hh
  split_ifs at hh with hk
  · obtain ⟨ps, hps, hp⟩ := List.mem_filterMap.mp hh
    obtain ⟨h', hh', htext⟩ := ht.targets hk ps hps
    rw [hp] at hh'
    cases hh'
    exact htext
  · cases hh

theorem fullSize_le {t : Template} (ht : t.WellFormed) :
    t.fullSize ≤ t.size + t.data.length * 550 := by
  have hsum : (t.additionalHosts.map fun h => ((addressTemplates h).map Template.size).sum).sum
      ≤ t.additionalHosts.length * 550 :=
    sum_map_le fun h hh => size_addressTemplates_le (mem_addressKeys_of_mem ht hh)
  have hlen : t.additionalHosts.length ≤ t.data.length := by
    unfold Template.additionalHosts
    split_ifs
    · exact List.length_filterMap_le _ _
    · exact Nat.zero_le _
  have := Nat.mul_le_mul_right 550 hlen
  unfold Template.fullSize
  omega

/-! ### The kinds of templates -/

namespace Fixture

theorem size_a (hosts : List Nat) (ttl : UInt32) : (a hosts ttl).size = hosts.length * 269 := by
  induction hosts with
  | nil => rfl
  | cons i hosts ih =>
    have : (a (i :: hosts) ttl).size = 269 + (a hosts ttl).size := rfl
    rw [this, ih, List.length_cons]
    omega

theorem size_aaaa (hosts : List Nat) (ttl : UInt32) : (aaaa hosts ttl).size = hosts.length * 281 := by
  induction hosts with
  | nil => rfl
  | cons i hosts ih =>
    have : (aaaa (i :: hosts) ttl).size = 281 + (aaaa hosts ttl).size := rfl
    rw [this, ih, List.length_cons]
    omega

theorem additionalHosts_of_kind {t : Template} (hk : t.kind ∉ [RRType.NS, RRType.MX, RRType.SRV]) :
    t.additionalHosts = [] := if_neg hk

/-- Templates with a record for each number. -/
theorem wellFormed_numbered {kind : UInt16} {hosts : List Nat} {parts : Nat → List Part}
    (hk : kind ∈ [RRType.A, RRType.AAAA]) (hne : hosts ≠ []) (hnodup : hosts.Nodup)
    (hparts : ∀ i, partsConform kind (Dnspython.layout kind) (parts i) = true)
    (hapart : ∀ i ∈ hosts, ∀ j ∈ hosts, i ≠ j → apart (parts i) (parts j) = true) {ttl : UInt32}
    (httl : ttl.toNat < 2 ^ 31) : (⟨kind, ttl, hosts.map parts⟩ : Template).WellFormed := by
  have hhost : kind ∉ [RRType.NS, RRType.MX, RRType.SRV] :=
    (by decide : ∀ k ∈ [RRType.A, RRType.AAAA], k ∉ [RRType.NS, RRType.MX, RRType.SRV]) kind hk
  exact {
    kind := (by decide : ∀ k ∈ [RRType.A, RRType.AAAA], k ∈ Dnspython.dataTypes) kind hk
    ttl := httl
    ne_nil := by simpa using hne
    singleton := fun h => absurd h ((by decide : ∀ k ∈ [RRType.A, RRType.AAAA],
      k ∉ [RRType.CNAME, RRType.SOA, RRType.DNAME]) kind hk)
    conforms := by
      intro ps hps
      obtain ⟨i, -, rfl⟩ := List.mem_map.mp hps
      exact hparts i
    distinct := Or.inr (List.pairwise_map.mpr
      (hnodup.imp_of_mem fun {i j} hi hj hij => hapart i hi j hj hij))
    targets := fun h => absurd h hhost
    targetsNodup := by
      rw [additionalHosts_of_kind hhost]
      exact List.nodup_nil }

theorem wellFormed_a {hosts : List Nat} (hne : hosts ≠ []) (hnodup : hosts.Nodup)
    (hlt : ∀ i ∈ hosts, i < 256) {ttl : UInt32} (httl : ttl.toNat < 2 ^ 31) :
    (a hosts ttl).WellFormed := by
  refine wellFormed_numbered (by decide) hne hnodup (fun _ => rfl) (fun i hi j hj hij => ?_) httl
  have hne' : UInt8.ofNat i ≠ UInt8.ofNat j := by
    intro h
    have := congrArg UInt8.toNat h
    rw [UInt8.toNat_ofNat', UInt8.toNat_ofNat', Nat.mod_eq_of_lt (hlt i hi),
      Nat.mod_eq_of_lt (hlt j hj)] at this
    exact hij this
  simp [apart, hne']

theorem wellFormed_aaaa {hosts : List Nat} (hne : hosts ≠ []) (hnodup : hosts.Nodup)
    (hlt : ∀ i ∈ hosts, i < 65536) {ttl : UInt32} (httl : ttl.toNat < 2 ^ 31) :
    (aaaa hosts ttl).WellFormed := by
  refine wellFormed_numbered (by decide) hne hnodup (fun _ => rfl) (fun i hi j hj hij => ?_) httl
  have hne' : packU16 (UInt16.ofNat i) ≠ packU16 (UInt16.ofNat j) := by
    intro h
    have := congrArg UInt16.toNat (packU16_injective h)
    rw [UInt16.toNat_ofNat', UInt16.toNat_ofNat', Nat.mod_eq_of_lt (hlt i hi),
      Nat.mod_eq_of_lt (hlt j hj)] at this
    exact hij this
  simp [apart, hne']

/-- Templates with one record, which leads to no host of the additional section or to one of the
catalogue. -/
theorem wellFormed_record {kind : UInt16} {ps : List Part} (hk : kind ∈ Dnspython.dataTypes)
    (hc : partsConform kind (Dnspython.layout kind) ps = true)
    (htarget : kind ∈ [RRType.NS, RRType.MX, RRType.SRV] →
      ∃ h ∈ targetHost ps, h.text ∈ addressKeys) : (⟨kind, 0, [ps]⟩ : Template).WellFormed where
  kind := hk
  ttl := (by decide : (0 : UInt32).toNat < 2 ^ 31)
  ne_nil := by simp
  singleton := fun _ => rfl
  conforms := by
    intro ps' hps
    rwa [List.mem_singleton.mp hps]
  distinct := Or.inl rfl
  targets := by
    intro hkind ps' hps
    rw [List.mem_singleton.mp hps]
    exact htarget hkind
  targetsNodup := by
    unfold Template.additionalHosts
    split_ifs
    · cases hh : targetHost ps with
      | none => simp [hh]
      | some h => simp [hh]
    · exact List.nodup_nil

theorem wellFormed_single {kind : UInt16} {ps : List Part} (hk : kind ∈ Dnspython.dataTypes)
    (hc : partsConform kind (Dnspython.layout kind) ps = true)
    (hkind : kind ∉ [RRType.NS, RRType.MX, RRType.SRV]) :
    (⟨kind, 0, [ps]⟩ : Template).WellFormed :=
  wellFormed_record hk hc fun h => absurd h hkind

theorem wellFormed_target {kind : UInt16} {ps : List Part} (hk : kind ∈ Dnspython.dataTypes)
    (hc : partsConform kind (Dnspython.layout kind) ps = true) {h : Host}
    (hh : targetHost ps = some h) (htext : h.text ∈ addressKeys) :
    (⟨kind, 0, [ps]⟩ : Template).WellFormed :=
  wellFormed_record hk hc fun _ => ⟨h, hh, htext⟩

theorem wellFormed_srv {entries : List (UInt16 × UInt16 × Host)} (hne : entries ≠ [])
    (hweight : (entries.map Prod.fst).Nodup) (hhost : (entries.map fun e => e.2.2).Nodup)
    (htext : ∀ e ∈ entries, e.2.2.text ∈ addressKeys) : (srv entries).WellFormed where
  kind := (by decide : RRType.SRV ∈ Dnspython.dataTypes)
  ttl := (by decide : (0 : UInt32).toNat < 2 ^ 31)
  ne_nil := by simpa [srv] using hne
  singleton := fun h =>
    absurd h (by decide : RRType.SRV ∉ [RRType.CNAME, RRType.SOA, RRType.DNAME])
  conforms := by
    intro ps hps
    obtain ⟨i, -, rfl⟩ := List.mem_map.mp hps
    rfl
  distinct := by
    have hpair : entries.Pairwise fun e f => e.1 ≠ f.1 := List.pairwise_map.mp hweight
    refine Or.inr (List.pairwise_map.mpr (hpair.imp fun {e f} hef => ?_))
    have hne' : packU16 e.1 ≠ packU16 f.1 := fun h => hef (packU16_injective h)
    simp only [apart, decide_eq_true_eq]
    intro h
    have h2 := congrArg (List.take 2) (congrArg (List.drop 2) h)
    exact hne' h2
  targets := by
    intro _ ps hps
    obtain ⟨e, he, rfl⟩ := List.mem_map.mp hps
    exact ⟨e.2.2, rfl, htext e he⟩
  targetsNodup := by
    have hk : (srv entries).kind ∈ [RRType.NS, RRType.MX, RRType.SRV] :=
      (by decide : RRType.SRV ∈ [RRType.NS, RRType.MX, RRType.SRV])
    have h : (srv entries).additionalHosts = entries.map fun e => e.2.2 := by
      rw [Template.additionalHosts, if_pos hk, srv, List.filterMap_map, ← List.filterMap_eq_map]
      rfl
    rwa [h]

theorem size_srv_le (entries : List (UInt16 × UInt16 × Host)) :
    (srv entries).size ≤ entries.length * 388 := by
  rw [Template.size, srv, List.map_map]
  refine sum_map_le fun e _ => ?_
  obtain ⟨weight, port, h⟩ := e
  have := h.isHost.2.2.1
  simp only [Function.comp_apply, List.map_cons, List.map_nil, Part.size, RelName.size,
    List.length_append, length_packU16, List.sum_cons, List.sum_nil, Host.label]
  omega

end Fixture

/-! ### The catalogue -/

theorem host_size_le (h : Host) : (Part.name (.host h)).size ≤ 117 := by
  have := h.isHost.2.2.1
  simp only [Part.size, RelName.size, Host.label]
  omega

theorem wellFormedNode_of_ne_cname {ts : List Template} (hkinds : (ts.map Template.kind).Nodup)
    (hts : ∀ t ∈ ts, t.WellFormed) (hsize : (ts.map Template.fullSize).sum ≤ 62000)
    (hk : RRType.CNAME ∉ ts.map Template.kind) : WellFormedNode ts :=
  ⟨hkinds, hts, hsize, fun _ ht he => absurd (he ▸ List.mem_map_of_mem ht) hk⟩

theorem wellFormedNode_of_small {ts : List Template} (hkinds : (ts.map Template.kind).Nodup)
    (hts : ∀ t ∈ ts, t.WellFormed ∧ t.fullSize ≤ 15500) (hlen : ts.length ≤ 4)
    (hk : RRType.CNAME ∉ ts.map Template.kind) : WellFormedNode ts :=
  wellFormedNode_of_ne_cname hkinds (fun t ht => (hts t ht).1)
    (Nat.le_trans (sum_map_le fun t ht => (hts t ht).2) (by omega)) hk

theorem wellFormedNode_singleton {t : Template} (ht : t.WellFormed) (hk : t.kind ≠ RRType.CNAME)
    (hsize : t.fullSize ≤ 62000) : WellFormedNode [t] :=
  wellFormedNode_of_ne_cname (by simp) (by simpa using ht) (by simpa using hsize)
    (by simpa using Ne.symm hk)

theorem fullSize_single_le {kind : UInt16} {ps : List Part} {n : Nat}
    (ht : (⟨kind, 0, [ps]⟩ : Template).WellFormed) (hn : (ps.map Part.size).sum ≤ n) :
    (⟨kind, 0, [ps]⟩ : Template).fullSize ≤ n + 815 := by
  have h := fullSize_le ht
  simp only [Template.size, List.map_cons, List.map_nil, List.sum_cons, List.sum_nil,
    List.length_singleton] at h
  omega

theorem fullSize_a (hosts : List Nat) (ttl : UInt32) :
    (Fixture.a hosts ttl).fullSize = hosts.length * 269 := by
  rw [fullSize_eq (by decide : RRType.A ∉ [RRType.NS, RRType.MX, RRType.SRV]), Fixture.size_a]

theorem fullSize_aaaa (hosts : List Nat) (ttl : UInt32) :
    (Fixture.aaaa hosts ttl).fullSize = hosts.length * 281 := by
  rw [fullSize_eq (by decide : RRType.AAAA ∉ [RRType.NS, RRType.MX, RRType.SRV]), Fixture.size_aaaa]

theorem wellFormedNode_single {kind : UInt16} {ps : List Part}
    (ht : (⟨kind, 0, [ps]⟩ : Template).WellFormed) (hk : kind ≠ RRType.CNAME)
    (hsize : (ps.map Part.size).sum ≤ 61185) : WellFormedNode [⟨kind, 0, [ps]⟩] :=
  wellFormedNode_singleton ht hk (fullSize_single_le ht hsize)

theorem wellFormedNode_srv {entries : List (UInt16 × UInt16 × Host)} (hne : entries ≠ [])
    (hweight : (entries.map Prod.fst).Nodup) (hhost : (entries.map fun e => e.2.2).Nodup)
    (htext : ∀ e ∈ entries, e.2.2.text ∈ addressKeys) (hlen : entries.length ≤ 64) :
    WellFormedNode [Fixture.srv entries] := by
  have ht := Fixture.wellFormed_srv hne hweight hhost htext
  refine wellFormedNode_singleton ht (by decide : RRType.SRV ≠ RRType.CNAME) ?_
  have h1 := fullSize_le ht
  have h2 := Fixture.size_srv_le entries
  have h3 : (Fixture.srv entries).data.length = entries.length := List.length_map _
  omega

theorem wellFormed_a (hosts : List Nat) {ttl : UInt32} (h : hosts.Nodup ∧ hosts ≠ [] ∧
    (∀ i ∈ hosts, i < 256) ∧ hosts.length ≤ 50) (httl : ttl.toNat < 2 ^ 31) :
    (Fixture.a hosts ttl).WellFormed ∧ (Fixture.a hosts ttl).fullSize ≤ 15500 := by
  refine ⟨Fixture.wellFormed_a h.2.1 h.1 h.2.2.1 httl, ?_⟩
  rw [fullSize_a]
  omega

theorem wellFormed_aaaa (hosts : List Nat) {ttl : UInt32} (h : hosts.Nodup ∧ hosts ≠ [] ∧
    (∀ i ∈ hosts, i < 65536) ∧ hosts.length ≤ 50) (httl : ttl.toNat < 2 ^ 31) :
    (Fixture.aaaa hosts ttl).WellFormed ∧ (Fixture.aaaa hosts ttl).fullSize ≤ 15500 := by
  refine ⟨Fixture.wellFormed_aaaa h.2.1 h.1 h.2.2.1 httl, ?_⟩
  rw [fullSize_aaaa]
  omega

theorem wellFormedNode_addresses {i j : Nat} {ttl : UInt32} (hi : i < 256) (hj : j < 65536)
    (httl : ttl.toNat < 2 ^ 31) : WellFormedNode [Fixture.a [i] ttl, Fixture.aaaa [j] ttl] := by
  refine wellFormedNode_of_small (by decide : [RRType.A, RRType.AAAA].Nodup) ?_ (by simp)
    (by decide : RRType.CNAME ∉ [RRType.A, RRType.AAAA])
  simp only [List.forall_mem_cons, List.not_mem_nil, false_implies, implies_true, and_true]
  exact ⟨wellFormed_a [i] (by simpa using hi) httl, wellFormed_aaaa [j] (by simpa using hj) httl⟩

theorem wellFormedNode_cname {h : Host} (hh : h.text ∈ ["a", "chain-hop"]) :
    WellFormedNode [Fixture.target RRType.CNAME h] := by
  have ht : (Fixture.target RRType.CNAME h).WellFormed :=
    Fixture.wellFormed_single (by decide) rfl (by decide)
  refine ⟨by simp, by simpa using ht, ?_, fun t ht' _ => ?_⟩
  · have hsize : (Fixture.target RRType.CNAME h).fullSize ≤ 932 :=
      fullSize_single_le ht (by simpa using host_size_le h)
    rw [List.map_singleton, List.sum_singleton]
    omega
  · rw [List.mem_singleton.mp ht']
    exact ⟨rfl, h, rfl, hh⟩

theorem wellFormed_service {kind : UInt16} (hk : kind ∈ [RRType.SVCB, RRType.HTTPS]) {n : RelName}
    (hn : n.size ≤ 255) :
    (Fixture.service kind n).WellFormed ∧ (Fixture.service kind n).fullSize ≤ 15500 := by
  have hparts : partsConform kind (Dnspython.layout kind)
      [.octets (packU16 1), .name n, .text kind serviceParams] = true := by
    rcases List.mem_cons.mp hk with rfl | hk
    · exact (by decide : partsConform RRType.SVCB [.rest] [.text RRType.SVCB serviceParams] = true)
    · rw [List.mem_singleton.mp hk]
      exact (by decide : partsConform RRType.HTTPS [.rest] [.text RRType.HTTPS serviceParams] = true)
  have ht : (Fixture.service kind n).WellFormed := by
    refine Fixture.wellFormed_single ?_ hparts ?_
    · exact (by decide : ∀ k ∈ [RRType.SVCB, RRType.HTTPS], k ∈ Dnspython.dataTypes) kind hk
    · exact (by decide : ∀ k ∈ [RRType.SVCB, RRType.HTTPS],
        k ∉ [RRType.NS, RRType.MX, RRType.SRV]) kind hk
  refine ⟨ht, Nat.le_trans (fullSize_single_le (n := 2257) ht ?_) (by omega)⟩
  simp only [List.map_cons, List.map_nil, List.sum_cons, List.sum_nil, Part.size, length_packU16]
  omega

theorem wellFormed_ns : Fixture.ns.WellFormed ∧ Fixture.ns.fullSize ≤ 15500 := by
  have ht : Fixture.ns.WellFormed :=
    Fixture.wellFormed_target (by decide) rfl (h := ⟨"ns", by decide⟩) rfl (by decide)
  exact ⟨ht, fullSize_single_le (n := 14685) ht (by decide)⟩

theorem wellFormed_zoneSoa : Fixture.zoneSoa.WellFormed ∧ Fixture.zoneSoa.fullSize ≤ 15500 := by
  have ht : Fixture.zoneSoa.WellFormed := Fixture.wellFormed_single (by decide) rfl (by decide)
  exact ⟨ht, fullSize_single_le (n := 14685) ht (by decide)⟩

theorem wellFormed_additionalNsSoa :
    Fixture.additionalNsSoa.WellFormed ∧ Fixture.additionalNsSoa.fullSize ≤ 15500 := by
  have ht : Fixture.additionalNsSoa.WellFormed :=
    Fixture.wellFormed_single (by decide) rfl (by decide)
  exact ⟨ht, fullSize_single_le (n := 14685) ht (by decide)⟩

theorem forall_mem_ite {α : Type} {c : Prop} [Decidable c] {s t : Option α} {p : α → Prop}
    (hs : c → ∀ x ∈ s, p x) (ht : ¬ c → ∀ x ∈ t, p x) : ∀ x ∈ if c then s else t, p x := by
  split_ifs with h
  · exact hs h
  · exact ht h

theorem mem_addressKeys_of_srvTarget {h : Host} (hh : h ∈ Fixture.srvTargets) :
    h.text ∈ addressKeys := by
  obtain ⟨s, hs, rfl⟩ := List.mem_pmap.mp hh
  exact List.mem_append_right _ hs

theorem wellFormedNode_large : WellFormedNode [Fixture.a (List.range' 1 128) 0] ∧
    WellFormedNode [Fixture.aaaa (List.range' 1 128) 0] := by
  have hlen : (List.range' 1 128).length = 128 := List.length_range'
  have hne : List.range' 1 128 ≠ [] := List.ne_nil_of_length_pos (by omega)
  have hnodup : (List.range' 1 128).Nodup := List.nodup_range'
  have hrange : ∀ i ∈ List.range' 1 128, i < 129 := fun i hi => (List.mem_range'_1.mp hi).2
  -- from here on the list is not to be evaluated
  revert hlen hne hnodup hrange
  generalize List.range' 1 128 = hosts
  intro hlen hne hnodup hrange
  constructor
  · refine wellFormedNode_singleton (Fixture.wellFormed_a hne hnodup (fun i hi => ?_) (by decide))
      (by decide : RRType.A ≠ RRType.CNAME) (by rw [fullSize_a]; omega)
    exact Nat.lt_trans (hrange i hi) (by decide)
  · refine wellFormedNode_singleton (Fixture.wellFormed_aaaa hne hnodup (fun i hi => ?_) (by decide))
      (by decide : RRType.AAAA ≠ RRType.CNAME) (by rw [fullSize_aaaa]; omega)
    exact Nat.lt_trans (hrange i hi) (by decide)

theorem length_srvTargets : Fixture.srvTargets.length = 64 := by
  rw [Fixture.srvTargets, List.length_pmap, SRV_TARGETS, List.length_map, List.length_range']

theorem nodup_srvTargets : Fixture.srvTargets.Nodup := by
  have hn : SRV_TARGETS.Nodup := by decide +kernel
  have hmap : Fixture.srvTargets.map Host.text = SRV_TARGETS := by
    rw [Fixture.srvTargets, List.map_pmap, List.pmap_eq_map, List.map_id']
  exact List.Nodup.of_map Host.text (hmap ▸ hn)

theorem wellFormedNode_largeSrv :
    WellFormedNode [Fixture.srv ((Fixture.srvTargets.zipIdx 1).map fun (h, i) =>
      (UInt16.ofNat i, 8443, h))] := by
  have hhost : (Fixture.srvTargets.zipIdx 1).map Prod.fst = Fixture.srvTargets :=
    List.zipIdx_map_fst ..
  have hweight : ((Fixture.srvTargets.zipIdx 1).map Prod.snd).map UInt16.ofNat
      = (List.range' 1 64).map UInt16.ofNat := by
    rw [List.zipIdx_map_snd, length_srvTargets]
  refine wellFormedNode_srv ?_ ?_ ?_ (fun e he => ?_) ?_
  · apply List.ne_nil_of_length_pos
    rw [List.length_map, List.length_zipIdx, length_srvTargets]
    decide
  · rw [List.map_map] at hweight
    rw [List.map_map]
    exact hweight ▸ (by decide : ((List.range' 1 64).map UInt16.ofNat).Nodup)
  · rw [List.map_map]
    exact (hhost ▸ nodup_srvTargets : ((Fixture.srvTargets.zipIdx 1).map Prod.fst).Nodup)
  · obtain ⟨p, hp, rfl⟩ := List.mem_map.mp he
    exact mem_addressKeys_of_srvTarget (List.fst_mem_of_mem_zipIdx hp)
  · exact Nat.le_of_eq (by rw [List.length_map, List.length_zipIdx, length_srvTargets])

theorem wellFormedNode_txt {count : Nat} (h0 : count ≠ 0) (hcount : count ≤ 240) :
    WellFormedNode [Fixture.txt count (String.ofList (List.replicate 250 'x'))] := by
  -- the text is kept folded: only its length matters
  generalize hs : String.ofList (List.replicate 250 'x') = s
  have hlen : (textOctets s).length = 250 := by
    rw [← hs, textOctets, String.toList_ofList, List.length_map, List.length_replicate]
  have hlayout : Dnspython.layout RRType.TXT = [.rest] := by decide
  refine wellFormedNode_single (Fixture.wellFormed_single (by decide) ?_ (by decide)) (by decide) ?_
  · rw [hlayout]
    simp [partsConform, hlen, h0]
  · simp only [List.map_cons, List.map_nil, List.sum_cons, List.sum_nil, Part.size, hlen]
    omega

/-- The keys with a single RRset. -/
theorem wellFormedNode_of_mem_single : ∀ p ∈ Fixture.single, WellFormedNode [p.2] := by
  have text : ∀ (kind : UInt16) (s : String), kind ∈ Dnspython.dataTypes →
      partsConform kind (Dnspython.layout kind) [.text kind s] = true →
      kind ∉ [RRType.NS, RRType.MX, RRType.SRV] → kind ≠ RRType.CNAME →
      WellFormedNode [Fixture.text kind s] := fun kind s h1 h2 h3 h4 =>
    wellFormedNode_single (Fixture.wellFormed_single h1 h2 h3) h4 (by simp [Part.size])
  simp only [Fixture.single, List.forall_mem_cons, List.not_mem_nil, false_implies, implies_true,
    and_true]
  refine ⟨?_, ?_, ?_, ?_, text _ _ ?_ ?_ ?_ ?_, ?_, ?_, ?_, text _ _ ?_ ?_ ?_ ?_,
    text _ _ ?_ ?_ ?_ ?_, text _ _ ?_ ?_ ?_ ?_, text _ _ ?_ ?_ ?_ ?_, text _ _ ?_ ?_ ?_ ?_,
    text _ _ ?_ ?_ ?_ ?_, text _ _ ?_ ?_ ?_ ?_, text _ _ ?_ ?_ ?_ ?_, text _ _ ?_ ?_ ?_ ?_,
    text _ _ ?_ ?_ ?_ ?_⟩
  case refine_1 =>
    exact wellFormedNode_single (Fixture.wellFormed_target (by decide) rfl (h := ⟨"mail", by decide⟩)
      rfl (by decide)) (by decide) (by decide)
  all_goals first
    | decide +kernel
    | exact wellFormedNode_single (Fixture.wellFormed_single (by decide) (by decide) (by decide))
        (by decide) (by decide)

/-- Every entry of the catalogue is well formed. -/
theorem fixture_wellFormed (key : String) : ∀ ts ∈ fixture key, WellFormedNode ts := by
  have some_mem : ∀ {ts : List Template}, WellFormedNode ts → ∀ x ∈ some ts, WellFormedNode x := by
    intro ts h x hx
    cases hx
    exact h
  unfold fixture
  dsimp only
  -- one goal for each branch of `fixture`, in its order
  refine forall_mem_ite (fun _ => some_mem ?_) fun _ => forall_mem_ite (fun _ => some_mem ?_) fun _ =>
    forall_mem_ite (fun _ => some_mem ?_) fun _ => forall_mem_ite (fun _ => some_mem ?_) fun _ =>
    forall_mem_ite (fun _ => some_mem ?_) fun _ => forall_mem_ite (fun _ => some_mem ?_) fun _ =>
    forall_mem_ite (fun _ => some_mem ?_) fun _ => forall_mem_ite (fun _ => some_mem ?_) fun _ =>
    forall_mem_ite (fun _ => some_mem ?_) fun _ => forall_mem_ite (fun _ => some_mem ?_) fun _ =>
    forall_mem_ite (fun _ => some_mem ?_) fun _ => forall_mem_ite (fun _ => some_mem ?_) fun _ =>
    forall_mem_ite (fun _ => some_mem ?_) fun _ => forall_mem_ite (fun _ => some_mem ?_) fun _ =>
    forall_mem_ite (fun _ => some_mem ?_) fun _ => forall_mem_ite (fun _ => some_mem ?_) fun _ =>
    forall_mem_ite (fun _ => some_mem ?_) fun _ => forall_mem_ite (fun _ => some_mem ?_) fun _ =>
    forall_mem_ite (fun _ => some_mem ?_) fun _ => ?_
  · -- DNAME
    exact wellFormedNode_single (Fixture.wellFormed_single (by decide) rfl (by decide)) (by decide)
      (by decide)
  · -- aliases
    split_ifs
    · exact wellFormedNode_cname (by decide)
    · exact wellFormedNode_cname (by decide)
  · -- `ns` and `soa`
    split_ifs
    · refine wellFormedNode_of_small (by decide : [RRType.NS, RRType.SOA, RRType.A].Nodup) ?_
        (by simp) (by decide : RRType.CNAME ∉ [RRType.NS, RRType.SOA, RRType.A])
      simp only [List.cons_append, List.nil_append, List.forall_mem_cons, List.not_mem_nil,
        false_implies, implies_true, and_true]
      exact ⟨wellFormed_ns, wellFormed_zoneSoa, wellFormed_a [53] (by decide) (by decide)⟩
    · refine wellFormedNode_of_small (by decide : [RRType.NS, RRType.SOA].Nodup) ?_
        (by simp) (by decide : RRType.CNAME ∉ [RRType.NS, RRType.SOA])
      simp only [List.append_nil, List.forall_mem_cons, List.not_mem_nil, false_implies,
        implies_true, and_true]
      exact ⟨wellFormed_ns, wellFormed_zoneSoa⟩
  · -- `additional-ns`
    have h1 : (Fixture.target RRType.NS ⟨"additional-ns-host", by decide⟩).WellFormed :=
      Fixture.wellFormed_target (by decide) rfl rfl (by decide)
    refine wellFormedNode_of_small (by decide : [RRType.NS, RRType.SOA].Nodup) ?_
      (by simp) (by decide : RRType.CNAME ∉ [RRType.NS, RRType.SOA])
    simp only [List.forall_mem_cons, List.not_mem_nil, false_implies, implies_true, and_true]
    exact ⟨⟨h1, fullSize_single_le (n := 14685) h1 (by decide)⟩, wellFormed_additionalNsSoa⟩
  · -- hosts of the additional section
    split_ifs <;> exact wellFormedNode_addresses (by decide) (by decide) (by decide)
  · exact wellFormedNode_single
      (Fixture.wellFormed_target (by decide) rfl (h := ⟨"additional-mail", by decide⟩) rfl (by decide))
      (by decide) (by decide)
  · split_ifs <;>
      exact wellFormedNode_srv (by simp) (by simp) (by simp)
        (by rw [List.forall_mem_singleton]; decide) (by simp)
  · -- addresses
    have httl : (if key = "ttl-normal" then (60 : UInt32) else if key = "ttl-high" then 86400
        else 0).toNat < 2 ^ 31 := by split_ifs <;> decide
    revert httl
    generalize (if key = "ttl-normal" then (60 : UInt32) else if key = "ttl-high" then 86400
        else 0) = ttl
    intro httl
    split_ifs
    · exact wellFormedNode_singleton
        (Fixture.wellFormed_a (by simp) (by simp) (by simp) httl) (by decide : RRType.A ≠ RRType.CNAME)
        (by rw [fullSize_a]; decide)
    · exact wellFormedNode_addresses (by decide) (by decide) httl
  · exact wellFormedNode_singleton
      (Fixture.wellFormed_aaaa (by simp) (by simp) (by simp) (by decide)) (by decide) (by decide)
  · exact wellFormedNode_singleton
      (Fixture.wellFormed_a (by simp) (by simp) (by simp) (by decide)) (by decide) (by decide)
  · -- targets of SRV and SVCB records
    by_cases hsvc : key = "svc"
    · subst hsvc
      refine wellFormedNode_of_small
        (by decide : [RRType.A, RRType.AAAA, RRType.SVCB, RRType.HTTPS].Nodup) ?_ (by simp)
        (by decide : RRType.CNAME ∉ [RRType.A, RRType.AAAA, RRType.SVCB, RRType.HTTPS])
      simp only [if_pos, List.cons_append, List.nil_append, List.forall_mem_cons, List.not_mem_nil,
        false_implies, implies_true, and_true]
      exact ⟨wellFormed_a [_] (by decide) (by decide), wellFormed_aaaa [_] (by decide) (by decide),
        wellFormed_service (by simp) (by decide), wellFormed_service (by simp) (by decide)⟩
    · rw [if_neg hsvc, List.append_nil]
      split_ifs <;> exact wellFormedNode_addresses (by decide) (by decide) (by decide)
  · exact wellFormedNode_singleton
      (Fixture.wellFormed_a (by simp) (by simp) (by simp) (by decide)) (by decide) (by decide)
  · exact wellFormedNode_singleton
      (Fixture.wellFormed_aaaa (by simp) (by simp) (by simp) (by decide)) (by decide) (by decide)
  · -- long texts
    split_ifs
    · exact wellFormedNode_txt (by decide) (by decide)
    · exact wellFormedNode_txt (by decide) (by decide)
    · exact wellFormedNode_txt (by decide) (by decide)
  · exact wellFormedNode_large.1
  · exact wellFormedNode_large.2
  · exact wellFormedNode_largeSrv
  · refine wellFormedNode_srv (by simp) (by simp) (by simp) (fun e he => ?_) (by simp)
    rw [List.mem_singleton.mp he]
    exact (by decide : "service" ∈ addressKeys)
  · -- SVCB and HTTPS
    split_ifs <;>
      exact wellFormedNode_single (Fixture.wellFormed_single (by decide) (by decide) (by decide))
        (by decide) (by decide)
  · -- the table
    intro ts hts
    obtain ⟨t, ht, rfl⟩ := Option.map_eq_some_iff.mp hts
    obtain ⟨l₁, l₂, hl, -⟩ := List.lookup_eq_some_iff.mp ht
    exact wellFormedNode_of_mem_single (key, t) (hl ▸ by simp)

end DnsFixtures
