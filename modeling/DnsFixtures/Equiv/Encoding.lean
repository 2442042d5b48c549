import DnsFixtures.Equiv.Reply
import DnsFixtures.Reference

/-!
# When the encoder sets TC

`encodeResponse_signals`: for any message with distinct RRsets the encoder sends as many RRsets from the
front as fit, and TC says exactly that an answer or authority RRset is missing or that a referral
lost glue.

The proof reads `limited` as one prefix with one flags word (`limited_eq_keep`).  With distinct
RRsets, to be missing from a section is to stand behind the prefix (`missing_iff`), so that each
condition becomes a comparison of lengths.
-/

namespace DnsFixtures

open Dns

/-- No section holds two RRsets of one owner and type. -/
structure DistinctRRsets (m : Message) : Prop where
  answer : m.answer.Pairwise fun a b => ¬ RRset.SameKey a b
  authority : m.authority.Pairwise fun a b => ¬ RRset.SameKey a b
  additional : m.additional.Pairwise fun a b => ¬ RRset.SameKey a b

/-- The RRset is not among those of the section. -/
def Missing (r : RRset) (s : List RRset) : Prop := ∀ x ∈ s, ¬ r.SameKey x

/-- Addresses of a name server that lies at or below the owner of its NS record. -/
def IsRequiredGlue (m : Message) (r : RRset) : Prop :=
  r.rdtype ∈ [RRType.A, RRType.AAAA] ∧ ∃ ns ∈ m.authority, ns.rdtype = RRType.NS ∧
    ∃ x ∈ ns.rdatas, ∃ t, Rdata.target? x = some t ∧ t.IsSubdomain ns.name ∧ t.SameAs r.name

/-- What is sent for the message `m`: its first RRsets, with TC as the signal for what is missing. -/
structure Signals (m sent : Message) : Prop where
  kept : ∃ k, sent.SameAs { m.keep k with flags := sent.flags }
  flags : sent.flags &&& ~~~Flag.TC = m.flags &&& ~~~Flag.TC
  tc : hasFlag sent.flags Flag.TC ↔ hasFlag m.flags Flag.TC ∨
    (∃ r ∈ m.answer, Missing r sent.answer) ∨ (∃ r ∈ m.authority, Missing r sent.authority) ∨
    (m.answer = [] ∧ ¬ hasFlag m.flags Flag.AA ∧
      ∃ r ∈ m.additional, IsRequiredGlue m r ∧ Missing r sent.additional)

/-! ### Sections of distinct RRsets -/

section

variable {s sent : List RRset} (hkeys : s.Pairwise fun a b => ¬ RRset.SameKey a b)
include hkeys

theorem eq_of_sameKey {a b : RRset} (ha : a ∈ s) (hb : b ∈ s) (h : a.SameKey b) : a = b := by
  by_contra hne
  have hsymm : Std.Symm fun a b => ¬ RRset.SameKey a b := ⟨fun _ _ h h' => h h'.symm⟩
  exact hkeys.forall ha hb hne h

theorem nodup_of_distinct : s.Nodup := by
  refine hkeys.imp fun {a b} h hab => h ?_
  subst hab
  exact ⟨Name.SameAs.refl _, rfl, rfl⟩

/-- Where a prefix was sent, what is missing stands behind it. -/
theorem missing_iff {k : Nat} (hsent : List.Forall₂ RRset.SameAs sent (s.take k)) {r : RRset}
    (hr : r ∈ s) : Missing r sent ↔ r ∉ s.take k := by
  constructor
  · intro hmissing hmem
    obtain ⟨x, hx, hrx⟩ := forall₂_exists_of_mem hsent.flip hmem
    exact hmissing x hx (RRset.SameAs.symm hrx).sameKey
  · intro hno x hx hkey
    obtain ⟨y, hy, hxy⟩ := forall₂_exists_of_mem hsent hx
    have heq := eq_of_sameKey hkeys hr (List.mem_of_mem_take hy) (hkey.trans hxy.sameKey)
    exact hno (heq ▸ hy)

theorem exists_missing_iff {k : Nat} (hsent : List.Forall₂ RRset.SameAs sent (s.take k)) :
    (∃ r ∈ s, Missing r sent) ↔ k < s.length := by
  constructor
  · rintro ⟨r, hr, hmissing⟩
    have hno := (missing_iff hkeys hsent hr).mp hmissing
    by_contra hle
    exact hno (by rwa [List.take_of_length_le (Nat.le_of_not_lt hle)])
  · intro hlt
    -- the first RRset behind the prefix
    have hmem : s[k] ∈ s := List.getElem_mem hlt
    refine ⟨s[k], hmem, (missing_iff hkeys hsent hmem).mpr fun htake => ?_⟩
    have hnodup := nodup_of_distinct hkeys
    rw [← List.take_append_drop k s] at hnodup
    have hdrop : s[k] ∈ s.drop k := by
      rw [List.drop_eq_getElem_cons hlt]
      exact List.mem_cons_self
    exact (List.nodup_append.mp hnodup).2.2 _ htake _ hdrop rfl

end

theorem mem_requiredGlue {m : Message} {r : RRset} :
    r ∈ requiredGlue m ↔ r ∈ m.additional ∧ IsRequiredGlue m r := by
  unfold requiredGlue IsRequiredGlue glueTargets
  rw [List.mem_filter, decide_eq_true_eq]
  refine and_congr_right fun _ => ?_
  constructor
  · rintro ⟨⟨t, ht, htr⟩, hkind⟩
    obtain ⟨ns, hns, ht⟩ := List.mem_flatMap.mp ht
    obtain ⟨hmem, hkind'⟩ := List.mem_filter.mp hns
    obtain ⟨ht, hsub⟩ := List.mem_filter.mp ht
    obtain ⟨x, hx, hxt⟩ := List.mem_filterMap.mp ht
    exact ⟨hkind, ns, hmem, of_decide_eq_true hkind', x, hx, t, hxt, of_decide_eq_true hsub, htr⟩
  · rintro ⟨hkind, ns, hmem, hkind', x, hx, t, hxt, hsub, htr⟩
    refine ⟨⟨t, List.mem_flatMap.mpr ⟨ns, ?_, ?_⟩, htr⟩, hkind⟩
    · exact List.mem_filter.mpr ⟨hmem, decide_eq_true hkind'⟩
    · exact List.mem_filter.mpr ⟨List.mem_filterMap.mpr ⟨x, hx, hxt⟩, decide_eq_true hsub⟩

/-- Glue is lacking exactly when an RRset of it stands behind the prefix. -/
theorem lacksGlue_keep_iff {m : Message} (hm : DistinctRRsets m) {sent : List RRset} {k : Nat}
    (hsent : List.Forall₂ RRset.SameAs sent (m.keep k).additional) :
    LacksGlue m (m.keep k) ↔ ∃ r ∈ m.additional, IsRequiredGlue m r ∧ Missing r sent := by
  have hmissing : ∀ r ∈ m.additional,
      (¬ ∃ s ∈ (m.keep k).additional, r.Equals s) ↔ Missing r sent := by
    intro r hr
    rw [missing_iff hm.additional hsent hr]
    refine not_congr ⟨?_, fun hmem => ⟨r, hmem, (RRset.SameAs.refl r).equals⟩⟩
    rintro ⟨s, hs, hrs⟩
    -- no other RRset has its key
    have heq := eq_of_sameKey hm.additional hr (List.mem_of_mem_take hs) hrs.1
    exact heq ▸ hs
  constructor
  · rintro ⟨r, hr, hno⟩
    obtain ⟨hmem, hglue⟩ := mem_requiredGlue.mp hr
    exact ⟨r, hmem, hglue, (hmissing r hmem).mp hno⟩
  · rintro ⟨r, hmem, hglue, hno⟩
    exact ⟨r, mem_requiredGlue.mpr ⟨hmem, hglue⟩, (hmissing r hmem).mpr hno⟩

/-! ### The reply -/

section

variable {d : Dnspython}

/-- What is left of a response is a prefix of it, with the flags word as it was or with TC. -/
theorem limited_eq_keep (m : Message) (size : Nat) : ∃ f, (f = m.flags ∨ f = m.flags ||| Flag.TC) ∧
    limited d m size = { m.keep (fitting d.render m size) with flags := f } ∧
    (hasFlag f Flag.TC ↔ hasFlag m.flags Flag.TC ∨
      fitting d.render m size < m.answer.length + m.authority.length ∨
      (m.answer = [] ∧ ¬ hasFlag m.flags Flag.AA ∧
        LacksGlue m (m.keep (fitting d.render m size)))) := by
  have hset : ∀ f, hasFlag (f ||| Flag.TC) Flag.TC := fun f => hasFlag_or_right (by decide) f
  have hlacks : ∀ f, LacksGlue m { m.keep (fitting d.render m size) with flags := f } ↔
      LacksGlue m (m.keep (fitting d.render m size)) := fun f => Iff.rfl
  obtain ⟨h1, h2⟩ | ⟨h1, h2⟩ : (fitting d.render m size < m.answer.length + m.authority.length ∧
      truncate d.render m size
        = { m.keep (fitting d.render m size) with flags := m.flags ||| Flag.TC }) ∨
      (¬ fitting d.render m size < m.answer.length + m.authority.length ∧
        truncate d.render m size = m.keep (fitting d.render m size)) := by
    unfold truncate
    dsimp only
    split_ifs with h
    · exact Or.inl ⟨h, rfl⟩
    · exact Or.inr ⟨h, rfl⟩
  · -- the writer stopped before the additional section
    refine ⟨m.flags ||| Flag.TC, Or.inr rfl, ?_, iff_of_true (hset _) (Or.inr (Or.inl h1))⟩
    unfold limited
    rw [h2]
    dsimp only
    rw [UInt16.or_assoc, UInt16.or_self]
    split_ifs <;> rfl
  · by_cases hglue : m.answer = [] ∧ ¬ hasFlag m.flags Flag.AA ∧
        LacksGlue m (m.keep (fitting d.render m size))
    · refine ⟨m.flags ||| Flag.TC, Or.inr rfl, ?_, iff_of_true (hset _) (Or.inr (Or.inr hglue))⟩
      unfold limited
      rw [h2, if_pos hglue]
      rfl
    · refine ⟨m.flags, Or.inl rfl, ?_, ?_⟩
      · unfold limited
        rw [h2, if_neg hglue]
        rfl
      · constructor
        · exact Or.inl
        · rintro (h | h | h)
          · exact h
          · exact absurd h h1
          · exact absurd h hglue

theorem and_not_tc_of_cases {f g : UInt16} (h : f = g ∨ f = g ||| Flag.TC) :
    f &&& ~~~Flag.TC = g &&& ~~~Flag.TC := by
  rcases h with rfl | rfl
  · rfl
  · exact and_or_mask_of_disjoint (by decide) g

/-- **Exact truncation**: the reply keeps the limit, holds the first RRsets of the message, and TC is
set in it exactly when the message had it, an answer or authority RRset is missing, or a referral
lost an address of a name server below its cut. -/
theorem encodeResponse_signals (hd : d.Documented) {m : Message} (hm : DistinctRRsets m)
    (hreads : d.ReadsBack m) {size : Nat} (hlow : 512 ≤ size) (hhigh : size ≤ 65535)
    (hbase : (d.render (m.keep 0)).length ≤ size) :
    ∃ w sent, encodeResponse d m size = .ok w ∧ w.length ≤ size ∧
      d.messageFromWire w = .ok sent ∧ Signals m sent := by
  obtain ⟨f, hf, hlimited, htc⟩ := limited_eq_keep (d := d) m size
  have hlen := length_render_limited hd hbase
  have hencode := encodeResponse_of_readsBack hd hreads hbase hlow hhigh
  rw [hlimited] at hlen hencode
  obtain ⟨sent, hsent, hsame⟩ := hreads (fitting d.render m size) f hf (Nat.le_trans hlen hhigh)
  have hflags : sent.flags = f := hsame.flags
  refine ⟨_, sent, hencode, hlen, hsent, ⟨fitting d.render m size, ?_⟩, ?_, ?_⟩
  · rw [hflags]
    exact hsame
  · rw [hflags]
    exact and_not_tc_of_cases hf
  · rw [hflags, htc, exists_missing_iff hm.answer hsame.answer,
      exists_missing_iff hm.authority hsame.authority, ← lacksGlue_keep_iff hm hsame.additional]
    have hsplit : fitting d.render m size < m.answer.length + m.authority.length ↔
        fitting d.render m size < m.answer.length ∨
          fitting d.render m size - m.answer.length < m.authority.length := by omega
    rw [hsplit, or_assoc]

end

/-- A name of 255 octets below a delegation. -/
def deepName : Name :=
  ⟨List.replicate 2 (List.replicate 60 97) ++
    List.replicate 59 97 :: textOctets "additional-referral" :: Nonce.zeros.labels, by decide⟩

theorem isHost_additionalReferral : IsHost "additional-referral" := by decide

/-- The referral for it, which leaves no room for all the glue in 512 octets. -/
def deepReferral : Message :=
  let c := Zone.delegation Reference.dnspython Nonce.zeros ⟨"additional-referral", isHost_additionalReferral⟩
  ⟨0x1234, Flag.QR ||| Flag.RD, [⟨deepName, RRType.A, RRClass.IN⟩], [], c.authority, c.additional, none⟩

theorem encodeResponse_signals_deep : ∃ w sent,
    encodeResponse Reference.dnspython deepReferral 512 = .ok w ∧ w.length ≤ 512 ∧
      Reference.dnspython.messageFromWire w = .ok sent ∧ Signals deepReferral sent ∧
      hasFlag sent.flags Flag.TC := by
  have hc := renderable_delegation Reference.documented Nonce.zeros
    ⟨"additional-referral", isHost_additionalReferral⟩
  have hrend : Reference.dnspython.Renderable deepReferral := by
    refine ⟨Nat.le_refl 1, Or.inl (by decide), renderableSection_nil, hc.authority, hc.additional, ?_⟩
    intro o ho
    cases ho
  obtain ⟨w, sent, hw, hlen, hsent, hsignals⟩ := encodeResponse_signals Reference.documented
    ⟨List.Pairwise.nil, hc.authority.keys, hc.additional.keys⟩
    (readsBack_of_renderable Reference.documented hrend) (Nat.le_refl 512) (by decide)
    (length_render_keep_zero_le Reference.documented hrend)
  have hflags : (encodeResponse Reference.dnspython deepReferral 512).bind
      (fun w => (Reference.dnspython.messageFromWire w).map Message.flags)
        = .ok (Flag.QR ||| Flag.RD ||| Flag.TC) := by decide +kernel
  rw [hw, Except.bind, hsent] at hflags
  have hset : sent.flags = Flag.QR ||| Flag.RD ||| Flag.TC := Except.ok.inj hflags
  exact ⟨w, sent, hw, hlen, hsent, hsignals, hset ▸ hasFlag_or_right (by decide) _⟩

end DnsFixtures
