import DnsFixtures.Equiv.Response

/-!
# The reply on the wire

* `encodeResponse_eq`: a response that can be sent is written as what is left of it at the size limit
  (`limited`).
* `limited_of_not_tc`, `limited_of_tc`: without TC nothing is missing but additional records, and
  none of a referral; with TC an RRset is missing.
-/

namespace DnsFixtures

open Dns

section

variable {d : Dnspython} (hd : d.Documented)
include hd

/-! ### Flags on the wire -/

theorem render_eq (m : Message) : d.render m
    = packU16 m.id ++ packU16 m.flags ++ (d.render m).drop 4 := by
  have h := List.prefix_iff_eq_take.mp ((holdsAt_zero_iff _ _).mp (hd.render_header m).1)
  have hlen : (packU16 m.id ++ packU16 m.flags).length = 4 := rfl
  rw [hlen] at h
  rw [h, List.take_append_drop]

/-- The flags can be replaced in the octets. -/
theorem render_setFlags (m : Message) (f : UInt16) : d.render { m with flags := f }
    = (d.render m).take 2 ++ packU16 f ++ (d.render m).drop 4 := by
  have htake : (d.render m).take 2 = packU16 m.id := by
    rw [render_eq hd m]
    rfl
  have h := render_eq hd { m with flags := f }
  rw [hd.render_flags] at h
  rw [h, htake]

theorem length_render_setFlags (m : Message) (f : UInt16) :
    (d.render { m with flags := f }).length = (d.render m).length := by
  have hlen := (hd.render_header m).2
  rw [render_setFlags hd]
  simp only [List.length_append, List.length_take, List.length_drop, length_packU16]
  omega

end

/-! ### Truncation keeps a message renderable -/

section

variable {d : Dnspython}

theorem renderable_setTc {m : Message} (h : d.Renderable m) :
    d.Renderable { m with flags := m.flags ||| Flag.TC } := by
  have hop : opcodeOf (m.flags ||| Flag.TC) = opcodeOf m.flags := by
    rw [opcodeOf, opcodeOf, and_or_mask_of_disjoint (by decide)]
  exact ⟨h.question, h.opcode.imp (fun h => hop.trans h) id, h.answer, h.authority, h.additional,
    h.options⟩

theorem renderable_keep {m : Message} (h : d.Renderable m) (k : Nat) : d.Renderable (m.keep k) := by
  refine ⟨h.question, h.opcode.imp id ?_, renderableSection_of_prefix (List.take_prefix ..) h.answer,
    renderableSection_of_prefix (List.take_prefix ..) h.authority,
    renderableSection_of_prefix (List.take_prefix ..) h.additional, h.options⟩
  rintro ⟨hq, ha, hn, hr⟩
  exact ⟨hq, by simp [Message.keep, ha], by simp [Message.keep, hn], by simp [Message.keep, hr]⟩

theorem renderable_truncate {m : Message} (h : d.Renderable m) (limit : Nat) :
    d.Renderable (truncate d.render m limit) := by
  have hkeep := renderable_keep h (fitting d.render m limit)
  unfold truncate
  dsimp only
  split_ifs
  · exact renderable_setTc hkeep
  · exact hkeep

theorem length_render_keep_zero_le (hd : d.Documented) {m : Message} (h : d.Renderable m) :
    (d.render (m.keep 0)).length ≤ 512 := by
  have hkeep := renderable_keep h 0
  have hsize := size_le_of_sections (m := m.keep 0) h.question h.options
  have hlen := hd.render_length _ hkeep
  have hzero : sectionSize (m.keep 0).answer + sectionSize (m.keep 0).authority +
      sectionSize (m.keep 0).additional = 0 := by
    simp [Message.keep]
  omega

end

/-! ### What is left of a response -/

/-- Required glue of the response is missing in what is sent. -/
def LacksGlue (response sent : Message) : Prop :=
  ∃ r ∈ requiredGlue response, ¬ ∃ s ∈ sent.additional, r.Equals s

instance (response sent : Message) : Decidable (LacksGlue response sent) :=
  inferInstanceAs (Decidable (∃ r ∈ requiredGlue response, _))

/-- What is left of a response at a size limit: a referral that lost glue has TC set. -/
def limited (d : Dnspython) (response : Message) (size : Nat) : Message :=
  let sent := truncate d.render response size
  if response.answer = [] ∧ ¬ hasFlag response.flags Flag.AA ∧ LacksGlue response sent then
    { sent with flags := sent.flags ||| Flag.TC }
  else sent

section

variable {d : Dnspython} {m : Message} {size : Nat}

theorem requiredGlue_subset {r : RRset} (h : r ∈ requiredGlue m) : r ∈ m.additional :=
  List.mem_of_mem_filter h

theorem not_lacksGlue_self (m : Message) : ¬ LacksGlue m m := by
  rintro ⟨r, hr, hmissing⟩
  exact hmissing ⟨r, requiredGlue_subset hr, (RRset.SameAs.refl r).equals⟩

theorem limited_of_fits (h : fitting d.render m size = m.rrsetCount) : limited d m size = m := by
  unfold limited
  dsimp only
  rw [truncate_eq_self d.render h, if_neg fun hc : _ ∧ _ ∧ _ => not_lacksGlue_self m hc.2.2]

theorem lacksGlue_congr {sent sent' : Message}
    (h : List.Forall₂ RRset.SameAs sent'.additional sent.additional) :
    LacksGlue m sent' ↔ LacksGlue m sent := by
  have hiff : ∀ r : RRset, (∃ s ∈ sent'.additional, r.Equals s) ↔ ∃ s ∈ sent.additional, r.Equals s := by
    intro r
    constructor
    · rintro ⟨s, hs, hrs⟩
      obtain ⟨t, ht, hst⟩ := forall₂_exists_of_mem h hs
      exact ⟨t, ht, hrs.of_sameAs hst⟩
    · rintro ⟨s, hs, hrs⟩
      have hflip := h.flip
      obtain ⟨t, ht, hst⟩ := forall₂_exists_of_mem hflip hs
      exact ⟨t, ht, hrs.of_sameAs (RRset.SameAs.symm hst)⟩
  unfold LacksGlue
  simp only [hiff]

end

section

variable {d : Dnspython} (hd : d.Documented) {m : Message} {size : Nat}
include hd

theorem length_truncate_render_le (hbase : (d.render (m.keep 0)).length ≤ size) :
    (d.render (truncate d.render m size)).length ≤ size :=
  length_truncate_le d.render (length_render_setFlags hd) hbase

/-- A message with its flags word in place is read back as it was rendered. -/
theorem readsBack_of_renderable (hr : d.Renderable m) : d.ReadsBack m := by
  intro k f hf hlen
  have hkeep := renderable_keep hr k
  rcases hf with rfl | rfl
  · exact hd.render_decodes (m.keep k) hkeep hlen
  · exact hd.render_decodes _ (renderable_setTc hkeep) hlen

omit hd in
theorem truncate_eq_keep (m : Message) (size : Nat) : ∃ f, (f = m.flags ∨ f = m.flags ||| Flag.TC) ∧
    truncate d.render m size = { m.keep (fitting d.render m size) with flags := f } := by
  unfold truncate
  dsimp only
  split_ifs
  · exact ⟨_, Or.inr rfl, rfl⟩
  · exact ⟨_, Or.inl rfl, rfl⟩

/-- **The encoder**: what is left of the response at the size limit is written, and nothing
raises. -/
theorem encodeResponse_of_readsBack (hreads : d.ReadsBack m)
    (hbase : (d.render (m.keep 0)).length ≤ size) (hlow : 512 ≤ size) (hhigh : size ≤ 65535) :
    encodeResponse d m size = .ok (d.render (limited d m size)) := by
  unfold encodeResponse
  by_cases hfit : fitting d.render m size = m.rrsetCount
  · rw [hd.toWire_whole m size false hlow hhigh hbase hfit, limited_of_fits hfit]
    rfl
  · rw [hd.toWire_tooBig m size hlow hhigh hbase hfit]
    dsimp only
    rw [if_pos rfl, hd.toWire_truncates m size hlow hhigh hbase hfit]
    simp only [bind, Except.bind]
    have hlen := Nat.le_trans (length_truncate_render_le hd hbase) hhigh
    obtain ⟨f, hf, htruncate⟩ := truncate_eq_keep (d := d) m size
    rw [htruncate] at hlen
    obtain ⟨sent, hsent, hsame⟩ := hreads _ f hf hlen
    rw [← htruncate] at hsent hsame
    unfold limited
    dsimp only
    by_cases href : m.answer = [] ∧ ¬ hasFlag m.flags Flag.AA ∧ requiredGlue m ≠ []
    · rw [if_pos href, hsent]
      dsimp only
      have hcongr : (∃ r ∈ requiredGlue m, ¬ ∃ s ∈ sent.additional, r.Equals s) ↔
          LacksGlue m (truncate d.render m size) := lacksGlue_congr hsame.additional
      by_cases hlacks : LacksGlue m (truncate d.render m size)
      · have hset := render_setFlags hd (truncate d.render m size)
          ((truncate d.render m size).flags ||| Flag.TC)
        rw [if_pos (hcongr.mpr hlacks), if_pos ⟨href.1, href.2.1, hlacks⟩, hset, hsame.flags]
        rfl
      · rw [if_neg (fun h => hlacks (hcongr.mp h)), if_neg fun h : _ ∧ _ ∧ _ => hlacks h.2.2]
        rfl
    · rw [if_neg href, if_neg]
      · rfl
      · rintro ⟨hans, haa, r, hr', -⟩
        exact href ⟨hans, haa, List.ne_nil_of_mem hr'⟩

theorem encodeResponse_eq (hr : d.Renderable m) (hlow : 512 ≤ size) (hhigh : size ≤ 65535) :
    encodeResponse d m size = .ok (d.render (limited d m size)) :=
  encodeResponse_of_readsBack hd (readsBack_of_renderable hd hr)
    (Nat.le_trans (length_render_keep_zero_le hd hr) hlow) hlow hhigh

end

/-! ### What limiting changes -/

section

variable {d : Dnspython} {m : Message} {size : Nat}

theorem limited_sections (m : Message) (size : Nat) :
    (limited d m size).answer = (truncate d.render m size).answer ∧
      (limited d m size).authority = (truncate d.render m size).authority ∧
      (limited d m size).additional = (truncate d.render m size).additional := by
  unfold limited
  dsimp only
  split_ifs <;> exact ⟨rfl, rfl, rfl⟩

theorem limited_id (m : Message) (size : Nat) : (limited d m size).id = m.id := by
  unfold limited
  dsimp only
  split_ifs <;> exact truncate_id ..

theorem limited_question (m : Message) (size : Nat) :
    (limited d m size).question = m.question := by
  unfold limited
  dsimp only
  split_ifs <;> exact truncate_question ..

theorem limited_opt (m : Message) (size : Nat) : (limited d m size).opt = m.opt := by
  unfold limited
  dsimp only
  split_ifs <;> exact truncate_opt ..

theorem limited_isPrefix (m : Message) (size : Nat) :
    (limited d m size).answer <+: m.answer ∧ (limited d m size).authority <+: m.authority ∧
      (limited d m size).additional <+: m.additional := by
  obtain ⟨h1, h2, h3⟩ := limited_sections (d := d) m size
  rw [h1, h2, h3]
  exact truncate_isPrefix d.render m size

/-- Limiting changes no flag but TC. -/
theorem limited_flags_and (m : Message) (size : Nat) {mask : UInt16} (h : Flag.TC &&& mask = 0) :
    (limited d m size).flags &&& mask = m.flags &&& mask := by
  have htrunc : (truncate d.render m size).flags &&& mask = m.flags &&& mask := by
    rcases truncate_flags d.render m size with h' | h'
    · rw [h']
    · rw [h', and_or_mask_of_disjoint h]
  unfold limited
  dsimp only
  split_ifs
  · rw [and_or_mask_of_disjoint h, htrunc]
  · exact htrunc

theorem renderable_limited (h : d.Renderable m) (size : Nat) : d.Renderable (limited d m size) := by
  unfold limited
  dsimp only
  split_ifs
  · exact renderable_setTc (renderable_truncate h size)
  · exact renderable_truncate h size

theorem length_render_limited (hd : d.Documented) (hbase : (d.render (m.keep 0)).length ≤ size) :
    (d.render (limited d m size)).length ≤ size := by
  have hlen := length_truncate_render_le hd hbase
  unfold limited
  dsimp only
  split_ifs
  · rwa [length_render_setFlags hd]
  · exact hlen

theorem length_render_limited_le (hd : d.Documented) (h : d.Renderable m) (hlow : 512 ≤ size) :
    (d.render (limited d m size)).length ≤ size :=
  length_render_limited hd (Nat.le_trans (length_render_keep_zero_le hd h) hlow)

/-- A message that fits is left as it is. -/
theorem limited_of_size (hd : d.Documented) (h : d.Renderable m) (hsize : m.size ≤ size) :
    limited d m size = m := by
  refine limited_of_fits (written_eq_of_forall _ fun k _ _ => ?_)
  have hkeep := hd.render_length _ (renderable_keep h k)
  have hle : (m.keep k).size ≤ m.size := by
    have hprefix : ∀ {s t : List RRset}, s <+: t →
        (s.map RRset.size).sum ≤ (t.map RRset.size).sum := by
      rintro s t ⟨u, rfl⟩
      rw [List.map_append, List.sum_append]
      exact Nat.le_add_right ..
    have ha := hprefix (List.take_prefix k m.answer)
    have hn := hprefix (List.take_prefix (k - m.answer.length) m.authority)
    have hr := hprefix (List.take_prefix (k - (m.answer.length + m.authority.length)) m.additional)
    simp only [Message.size, Message.keep, List.map_append, List.sum_append]
    omega
  omega

/-- Without TC, nothing is missing but additional records, and none of a referral. -/
theorem limited_of_not_tc (hglue : m.answer = [] → ¬ hasFlag m.flags Flag.AA →
      requiredGlue m = m.additional) (hrend : d.Renderable m)
    (h : ¬ hasFlag (limited d m size).flags Flag.TC) :
    (limited d m size).flags = m.flags ∧ (limited d m size).answer = m.answer ∧
      (limited d m size).authority = m.authority ∧
      (m.answer = [] → ¬ hasFlag m.flags Flag.AA →
        (limited d m size).additional = m.additional) := by
  have hlimited : limited d m size = truncate d.render m size ∧
      ¬ (m.answer = [] ∧ ¬ hasFlag m.flags Flag.AA ∧ LacksGlue m (truncate d.render m size)) := by
    unfold limited at h ⊢
    dsimp only at h ⊢
    split_ifs at h ⊢ with hc
    · exact absurd (hasFlag_or_right (by decide) _) h
    · exact ⟨rfl, hc⟩
  obtain ⟨heq, hno⟩ := hlimited
  rw [heq] at h ⊢
  obtain ⟨hflags, hans, haut⟩ := truncate_of_not_tc d.render h
  refine ⟨hflags, hans, haut, fun ha haa => ?_⟩
  obtain ⟨rest, hrest⟩ := (truncate_isPrefix d.render m size).2.2
  -- a record behind the prefix would be missing glue
  have hnil : rest = [] := by
    by_contra hne
    obtain ⟨r, rest', rfl⟩ := List.exists_cons_of_ne_nil hne
    refine hno ⟨ha, haa, r, ?_, ?_⟩
    · rw [hglue ha haa, ← hrest]
      simp
    · rintro ⟨s, hs, hrs⟩
      have hkeys := hrend.additional.keys
      rw [← hrest] at hkeys
      have hne := (List.pairwise_append.mp hkeys).2.2 s hs r List.mem_cons_self
      exact hne ⟨hrs.1.1.symm, hrs.1.2.1.symm, hrs.1.2.2.symm⟩
  rw [← hrest, hnil, List.append_nil]

/-- With TC, an RRset is missing. -/
theorem limited_of_tc (hkeys : m.rrsets.Pairwise fun a b => ¬ RRset.SameKey a b)
    (hm : ¬ hasFlag m.flags Flag.TC) (h : hasFlag (limited d m size).flags Flag.TC) :
    ∃ r ∈ m.rrsets, ∀ s ∈ (limited d m size).rrsets, ¬ r.SameKey s := by
  obtain ⟨h1, h2, h3⟩ := limited_sections (d := d) m size
  obtain ⟨p1, p2, p3⟩ := limited_isPrefix (d := d) m size
  refine RRset.exists_missing ((p1.sublist.append p2.sublist).append p3.sublist) ?_ hkeys
  -- one of the sections is shorter
  have hshort : (limited d m size).answer.length < m.answer.length ∨
      (limited d m size).authority.length < m.authority.length ∨
      (limited d m size).additional.length < m.additional.length := by
    by_cases htc : hasFlag (truncate d.render m size).flags Flag.TC
    · rw [h1, h2]
      exact (truncate_incomplete d.render hm htc).imp id Or.inl
    · have hlacks : LacksGlue m (truncate d.render m size) := by
        unfold limited at h
        dsimp only at h
        split_ifs at h with hc
        · exact hc.2.2
        · exact absurd h htc
      obtain ⟨r, hr, hno⟩ := hlacks
      refine Or.inr (Or.inr (Nat.lt_of_le_of_ne p3.length_le fun hlen => hno ⟨r, ?_, ?_⟩))
      · rw [← h3, p3.eq_of_length hlen]
        exact requiredGlue_subset hr
      · exact (RRset.SameAs.refl r).equals
  have hle1 := p1.length_le
  have hle2 := p2.length_le
  have hle3 := p3.length_le
  simp only [Message.rrsets, List.length_append]
  omega

end

end DnsFixtures
