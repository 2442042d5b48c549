import DnsFixtures.Equiv.Renderable

/-!
# The response to a parsed query

`respond_cases` says what `answer_fresh` can put into the response to a query it could parse
(`ResponseCase`), starting from an empty response to it (`Skeleton`).  Every such response is
`Sendable`: it can be written in 65535 octets and read back, TC is clear, and a referral carries no
additional record but its glue (`ResponseCase.sendable`).
-/

namespace DnsFixtures

open Dns

/-! ### Flags -/

/-- The flags of a reply that are fixed by its query: all but AA, CD and the response code. -/
def envelopeMask : UInt16 := 0xFBE0

/-- The flags of a query that its reply copies. -/
def copiedMask : UInt16 := Flag.opcodeMask ||| Flag.RD

/-- QR is set, opcode and RD are those of the query, and TC, RA, Z and AD are clear. -/
def IsReplyTo (query reply : UInt16) : Prop :=
  reply &&& envelopeMask = Flag.QR ||| (query &&& copiedMask)

instance (query reply : UInt16) : Decidable (IsReplyTo query reply) :=
  inferInstanceAs (Decidable (_ = _))

/-- Changes outside the envelope do not matter. -/
theorem IsReplyTo.of_and {query reply reply' : UInt16} (h : IsReplyTo query reply)
    (he : reply' &&& envelopeMask = reply &&& envelopeMask) : IsReplyTo query reply' :=
  he.trans h

/-- Where the flags under `fixed` are QR and those copied from the query, so are those under a part
of it. -/
theorem and_eq_of_fixed {query reply fixed mask : UInt16}
    (h : reply &&& fixed = Flag.QR ||| (query &&& copiedMask)) (hmask : fixed &&& mask = mask) :
    reply &&& mask = (Flag.QR &&& mask) ||| (query &&& (copiedMask &&& mask)) := by
  rw [← UInt16.and_assoc, ← or_and_distrib, ← h, UInt16.and_assoc, hmask]

/-- A mask inside the envelope shows only what the query fixes. -/
theorem IsReplyTo.and_eq {query reply mask : UInt16} (h : IsReplyTo query reply)
    (hmask : envelopeMask &&& mask = mask) :
    reply &&& mask = (Flag.QR &&& mask) ||| (query &&& (copiedMask &&& mask)) :=
  and_eq_of_fixed h hmask

theorem IsReplyTo.not_tc {query reply : UInt16} (h : IsReplyTo query reply) :
    ¬ hasFlag reply Flag.TC := by
  have hm : reply &&& Flag.TC = _ := h.and_eq (by decide)
  have h1 : Flag.QR &&& Flag.TC = 0 := by decide
  have h2 : copiedMask &&& Flag.TC = 0 := by decide
  rw [h1, h2, UInt16.and_zero, UInt16.or_zero] at hm
  exact fun h => h hm

theorem IsReplyTo.opcode {query reply : UInt16} (h : IsReplyTo query reply) :
    opcodeOf reply = opcodeOf query := by
  have hm : reply &&& Flag.opcodeMask = _ := h.and_eq (by decide)
  have h1 : Flag.QR &&& Flag.opcodeMask = 0 := by decide
  have h2 : copiedMask &&& Flag.opcodeMask = Flag.opcodeMask := by decide
  rw [h1, h2, UInt16.zero_or] at hm
  rw [opcodeOf, opcodeOf, hm]

/-- The response code lies outside the envelope. -/
theorem IsReplyTo.setRcode {query : UInt16} {m : Message} (h : IsReplyTo query m.flags)
    (rcode : UInt16) : IsReplyTo query (m.setRcode rcode).flags := by
  exact h.of_and (m.setRcode_flags_and rcode (by decide) (by decide))

/-! ### The empty response -/

/-- The OPT record of a response, for the flags of the one in its query. -/
def replyOpt (ednsflags : UInt32) : Opt := ⟨1232, ednsflags &&& Flag.DO, []⟩

/-- The response to a query before anything is put into it. -/
structure Skeleton (query s : Message) : Prop where
  id : s.id = query.id
  flags : s.flags &&& ~~~Flag.CD = Flag.QR ||| (query.flags &&& copiedMask)
  question : s.question = query.question
  answer : s.answer = []
  authority : s.authority = []
  additional : s.additional = []
  opt : s.opt = (query.opt.map Opt.ednsflags).map replyOpt

/-- A mask without CD shows only what the query fixes. -/
theorem Skeleton.flags_and {query s : Message} (h : Skeleton query s) {mask : UInt16}
    (hmask : ~~~Flag.CD &&& mask = mask) :
    s.flags &&& mask = (Flag.QR &&& mask) ||| (query.flags &&& (copiedMask &&& mask)) :=
  and_eq_of_fixed h.flags hmask

theorem Skeleton.isReplyTo {query s : Message} (h : Skeleton query s) :
    IsReplyTo query.flags s.flags := by
  have h1 : Flag.QR &&& envelopeMask = Flag.QR := by decide
  have h2 : copiedMask &&& envelopeMask = copiedMask := by decide
  rw [IsReplyTo, h.flags_and (by decide), h1, h2]

theorem Skeleton.not_aa {query s : Message} (h : Skeleton query s) : ¬ hasFlag s.flags Flag.AA := by
  have h1 : Flag.QR &&& Flag.AA = 0 := by decide
  have h2 : copiedMask &&& Flag.AA = 0 := by decide
  rw [hasFlag, h.flags_and (by decide), h1, h2, UInt16.and_zero]
  exact fun h => h rfl

theorem Skeleton.flags_and_rcodeMask {query s : Message} (h : Skeleton query s) :
    s.flags &&& Flag.rcodeMask = 0 := by
  have h1 : Flag.QR &&& Flag.rcodeMask = 0 := by decide
  have h2 : copiedMask &&& Flag.rcodeMask = 0 := by decide
  rw [h.flags_and (by decide), h1, h2, UInt16.and_zero, UInt16.or_zero]

theorem edns_nonneg_iff (m : Message) : 0 ≤ m.edns ↔ m.opt ≠ none := by
  unfold Message.edns
  cases m.opt with
  | none => simp
  | some o => simp

section

variable {d : Dnspython} (hd : d.Documented)
include hd

/-- What `answer_fresh` makes of a query before it looks at the question. -/
theorem exists_skeleton {query : Message} (hqr : ¬ hasFlag query.flags Flag.QR)
    (hop : opcodeOf query.flags = 0) : ∃ s, Skeleton query s ∧
      (∀ question, query.question = [question] → respond d query
        = if 0 < query.edns then .ok (s.setRcode Rcode.BADVERS) else resolveQuestion d question s) ∧
      (query.question.length ≠ 1 → respond d query
        = .ok (({ s with question := [] } : Message).setRcode Rcode.FORMERR)) := by
  obtain ⟨r, hr, hid, hflags, hquestion, hans, haut, hadd, hopt⟩ :=
    hd.makeResponse_query query hqr hop
  obtain ⟨s, hs⟩ : ∃ s, s = if 0 ≤ query.edns
      then ({ r with flags := r.flags &&& ~~~(Flag.RA ||| Flag.AD) } : Message).useEdns 1232
        (query.ednsflags &&& Flag.DO)
      else { r with flags := r.flags &&& ~~~(Flag.RA ||| Flag.AD) } := ⟨_, rfl⟩
  refine ⟨s, ?_, fun question hq => ?_, fun hq => ?_⟩
  · -- what the query fixes lies outside RA and AD
    have hmask : r.flags &&& ~~~(Flag.RA ||| Flag.AD) &&& ~~~Flag.CD
        = Flag.QR ||| (query.flags &&& copiedMask) := by
      have hcomm : (~~~(Flag.RA ||| Flag.AD) : UInt16) &&& ~~~Flag.CD
          = ~~~Flag.CD &&& ~~~(Flag.RA ||| Flag.AD) := by decide
      have h1 : Flag.QR &&& ~~~(Flag.RA ||| Flag.AD) = Flag.QR := by decide
      have h2 : copiedMask &&& ~~~(Flag.RA ||| Flag.AD) = copiedMask := by decide
      rw [UInt16.and_assoc, hcomm, ← UInt16.and_assoc, hflags, or_and_distrib, UInt16.and_assoc, h1]
      exact congrArg (Flag.QR ||| query.flags &&& ·) h2
    by_cases hedns : 0 ≤ query.edns
    · rw [if_pos hedns] at hs
      obtain ⟨o, ho⟩ := Option.ne_none_iff_exists'.mp ((edns_nonneg_iff query).mp hedns)
      have hword : (o.ednsflags &&& Flag.DO) &&& 0xFF00FFFF = o.ednsflags &&& Flag.DO := by
        rw [UInt32.and_assoc]
        rfl
      subst hs
      refine ⟨hid, hmask, hquestion, hans, haut, hadd, ?_⟩
      rw [Message.useEdns, Message.ednsflags, ho]
      dsimp only
      rw [hword]
      rfl
    · rw [if_neg hedns] at hs
      have ho : query.opt = none := by
        by_contra h
        exact hedns ((edns_nonneg_iff query).mpr h)
      subst hs
      refine ⟨hid, hmask, hquestion, hans, haut, hadd, ?_⟩
      rw [ho]
      exact hopt ho
  · simp only [respond, hr, hq, bind, Except.bind, pure, Except.pure, ← hs]
  · simp only [respond, hr, bind, Except.bind, pure, Except.pure, ← hs]
    split
    · rename_i question hone
      exact absurd (by rw [hone, List.length_singleton]) hq
    · rfl

end

/-! ### Response codes and the OPT record -/

/-- The OPT record is that of a reply: `opt` gives payload and DO, and no more. -/
def IsReplyOpt (opt : Option Opt) : Prop := ∃ e : Option UInt32, opt = e.map replyOpt

theorem Skeleton.isReplyOpt {query s : Message} (h : Skeleton query s) : IsReplyOpt s.opt :=
  ⟨query.opt.map Opt.ednsflags, h.opt⟩

theorem toNat_and_do (e : UInt32) : (e &&& Flag.DO).toNat ≤ 32768 := by
  rw [UInt32.toNat_and]
  exact Nat.and_le_right

theorem IsReplyOpt.ednsflags_lt {m : Message} (h : IsReplyOpt m.opt) : m.ednsflags.toNat < 2 ^ 20 := by
  obtain ⟨e, he⟩ := h
  unfold Message.ednsflags
  rw [he]
  cases e with
  | none => exact (by decide : (0 : UInt32).toNat < 2 ^ 20)
  | some e =>
    have := toNat_and_do e
    change (e &&& Flag.DO).toNat < 2 ^ 20
    omega

/-- A response code of four bits leaves the OPT record of a reply as it is. -/
theorem IsReplyOpt.opt_setRcode {m : Message} (h : IsReplyOpt m.opt) {rcode : UInt16}
    (hr : rcode &&& 0x0FF0 = 0) : (m.setRcode rcode).opt = m.opt := by
  obtain ⟨e, he⟩ := h
  have hzero : ((rcode &&& 0x0FF0).toUInt32 <<< 20 : UInt32) = 0 := by
    rw [hr]
    rfl
  unfold Message.setRcode Message.setEdnsflags Message.ednsflags
  rw [hzero, UInt32.or_zero]
  dsimp only
  rw [he]
  cases e with
  | none =>
    dsimp only [Option.map_none]
    rw [if_pos UInt32.zero_and]
  | some e =>
    have hword : (e &&& Flag.DO) &&& (0x00FFFFFF : UInt32) = e &&& Flag.DO := by
      rw [UInt32.and_assoc]
      rfl
    dsimp only [Option.map_some, replyOpt]
    rw [hword]

/-- A response code of four bits is read back from a reply. -/
theorem IsReplyOpt.rcode_setRcode {m : Message} (h : IsReplyOpt m.opt) {rcode : UInt16}
    (hr : rcode &&& 0x0FF0 = 0) (hr' : rcode &&& Flag.rcodeMask = rcode) :
    (m.setRcode rcode).rcode = rcode := by
  have hopt : IsReplyOpt (m.setRcode rcode).opt := by
    rw [h.opt_setRcode hr]
    exact h
  rw [Message.rcode_eq_of_small hopt.ednsflags_lt, Message.setRcode_flags_and_rcodeMask, hr']

/-! ### The resolved response -/

namespace Conclusion

variable (c : Conclusion) (m : Message)

@[simp] theorem apply_id : (c.apply m).id = m.id := by
  unfold apply
  dsimp only
  split_ifs <;> simp

@[simp] theorem apply_question : (c.apply m).question = m.question := by
  unfold apply
  dsimp only
  split_ifs <;> simp

@[simp] theorem apply_answer : (c.apply m).answer = m.answer ++ c.answer := by
  unfold apply
  dsimp only
  split_ifs <;> simp

@[simp] theorem apply_authority : (c.apply m).authority = m.authority ++ c.authority := by
  unfold apply
  dsimp only
  split_ifs <;> simp

@[simp] theorem apply_additional : (c.apply m).additional = m.additional ++ c.additional := by
  unfold apply
  dsimp only
  split_ifs <;> simp

/-- Where a mask does not show the response code, the flags are those in front of it. -/
theorem apply_flags_and {mask : UInt16} (h : (0xFFF0 : UInt16) &&& mask = mask)
    (h' : (0x000F : UInt16) &&& mask = 0) : (c.apply m).flags &&& mask
      = (if c.aa then m.flags else m.flags &&& ~~~Flag.AA) &&& mask := by
  unfold apply
  dsimp only
  by_cases hr : c.rcode = Rcode.NOERROR
  · rw [if_pos hr]
  · rw [if_neg hr, Message.setRcode_flags_and _ _ h h']

end Conclusion

/-- Without authority, AA is clear. -/
theorem not_aa_apply {c : Conclusion} (h : c.aa = false) (m : Message) :
    ¬ hasFlag (c.apply m).flags Flag.AA := by
  have hclear : (~~~Flag.AA : UInt16) &&& Flag.AA = 0 := by decide
  rw [hasFlag, c.apply_flags_and m (by decide) (by decide), h, if_neg (by decide), UInt16.and_assoc,
    hclear, UInt16.and_zero]
  exact fun h => h rfl

/-- The response with an alias chain and its conclusion. -/
def concluded (s : Message) (chain : List RRset) (c : Conclusion) : Message :=
  c.apply { s with flags := s.flags ||| Flag.AA, answer := chain }

section

variable (s : Message) (chain : List RRset) (c : Conclusion)

theorem concluded_eq : concluded s chain c =
    let m := { s with
      flags := if c.aa then s.flags ||| Flag.AA else (s.flags ||| Flag.AA) &&& ~~~Flag.AA
      answer := chain ++ c.answer
      authority := s.authority ++ c.authority
      additional := s.additional ++ c.additional }
    if c.rcode = Rcode.NOERROR then m else m.setRcode c.rcode := rfl

@[simp] theorem concluded_id : (concluded s chain c).id = s.id := c.apply_id _

@[simp] theorem concluded_question : (concluded s chain c).question = s.question :=
  c.apply_question _

@[simp] theorem concluded_answer : (concluded s chain c).answer = chain ++ c.answer :=
  c.apply_answer _

theorem concluded_authority : (concluded s chain c).authority = s.authority ++ c.authority :=
  c.apply_authority _

theorem concluded_additional : (concluded s chain c).additional = s.additional ++ c.additional :=
  c.apply_additional _

theorem concluded_flags_and {mask : UInt16} (h : (0xFFF0 : UInt16) &&& mask = mask)
    (h' : (0x000F : UInt16) &&& mask = 0) : (concluded s chain c).flags &&& mask
      = (if c.aa then s.flags ||| Flag.AA else (s.flags ||| Flag.AA) &&& ~~~Flag.AA) &&& mask :=
  c.apply_flags_and _ h h'

theorem concluded_isReplyTo {query : UInt16} (h : IsReplyTo query s.flags) :
    IsReplyTo query (concluded s chain c).flags := by
  refine h.of_and ?_
  rw [concluded_flags_and s chain c (by decide) (by decide)]
  split_ifs
  · exact and_or_mask_of_disjoint (by decide) _
  · rw [and_and_mask_of_subset (by decide)]
    exact and_or_mask_of_disjoint (by decide) _

theorem concluded_aa : hasFlag (concluded s chain c).flags Flag.AA ↔ c.aa = true := by
  cases h : c.aa with
  | true =>
    rw [hasFlag, concluded_flags_and s chain c (by decide) (by decide), h, if_pos rfl]
    exact iff_of_true (hasFlag_or_right (by decide) s.flags) rfl
  | false => exact iff_of_false (not_aa_apply h _) (by decide)

/-- The response codes of conclusions fit into the flags word. -/
theorem concluded_opt {s : Message} (h : IsReplyOpt s.opt) (hr : c.rcode &&& 0x0FF0 = 0) :
    (concluded s chain c).opt = s.opt := by
  rw [concluded_eq]
  dsimp only
  by_cases hc : c.rcode = Rcode.NOERROR
  · rw [if_pos hc]
  · rw [if_neg hc]
    refine IsReplyOpt.opt_setRcode ?_ hr
    exact h

theorem concluded_rcode {s : Message} (h : IsReplyOpt s.opt) (hs : s.flags &&& Flag.rcodeMask = 0)
    (hr : c.rcode &&& 0x0FF0 = 0) (hr' : c.rcode &&& Flag.rcodeMask = c.rcode) :
    (concluded s chain c).rcode = c.rcode := by
  have hopt : IsReplyOpt (concluded s chain c).opt := by
    rw [concluded_opt chain c h hr]
    exact h
  rw [Message.rcode_eq_of_small hopt.ednsflags_lt, concluded_eq]
  dsimp only
  by_cases hc : c.rcode = Rcode.NOERROR
  · rw [if_pos hc, hc]
    dsimp only
    have hmask : (~~~Flag.AA : UInt16) &&& Flag.rcodeMask = Flag.rcodeMask := by decide
    split_ifs
    · rw [and_or_mask_of_disjoint (by decide), hs]
      rfl
    · rw [UInt16.and_assoc, hmask, and_or_mask_of_disjoint (by decide), hs]
      rfl
  · rw [if_neg hc, Message.setRcode_flags_and_rcodeMask, hr']

end

/-! ### What the response can be -/

/-- The response codes that conclude a chain. -/
def conclusionRcodes : List UInt16 :=
  [Rcode.NOERROR, Rcode.NXDOMAIN, Rcode.REFUSED, Rcode.YXDOMAIN]

theorem StepCase.rcode_mem {d : Dnspython} {z : Nonce} {kind : UInt16} {owner : Name}
    {front : List Label} {key : String} {c : Conclusion}
    (h : StepCase d z kind owner front key (.stop c)) :
    c.rcode ∈ conclusionRcodes := by
  have hnoError : Rcode.NOERROR ∈ conclusionRcodes := by decide
  cases h with
  | refused => exact (by decide : Rcode.REFUSED ∈ conclusionRcodes)
  | tooLong => exact (by decide : Rcode.YXDOMAIN ∈ conclusionRcodes)
  | absent => exact (by decide : Rcode.NXDOMAIN ∈ conclusionRcodes)
  | _ => exact hnoError

theorem Resolves.rcode_mem {d : Dnspython} {z : Nonce} {kind : UInt16} {n : Nat} {owner : Name}
    {chain : List RRset} {c : Conclusion} (h : Resolves d z kind n owner chain c) :
    c.rcode ∈ conclusionRcodes := by
  obtain ⟨last, front, key, hcase⟩ := h.stop_case
  exact hcase.rcode_mem

/-- They fit into the flags word. -/
theorem conclusionRcodes_small :
    ∀ r ∈ conclusionRcodes, r &&& 0x0FF0 = 0 ∧ r &&& Flag.rcodeMask = r := by decide

section

variable {d : Dnspython} {z : Nonce} {kind : UInt16} {n : Nat} {owner : Name} {chain : List RRset}
  {c : Conclusion} {query s : Message}

/-- The sections and the response code of a resolved response. -/
theorem Resolves.concluded_parts (h : Resolves d z kind n owner chain c) (hs : Skeleton query s) :
    (concluded s chain c).rcode = c.rcode ∧ (concluded s chain c).answer = chain ++ c.answer ∧
      (concluded s chain c).authority = c.authority ∧
      (concluded s chain c).additional = c.additional := by
  obtain ⟨h1, h2⟩ := conclusionRcodes_small _ h.rcode_mem
  refine ⟨concluded_rcode chain c hs.isReplyOpt hs.flags_and_rcodeMask h1 h2,
    concluded_answer s chain c, ?_, ?_⟩
  · rw [concluded_authority, hs.authority, List.nil_append]
  · rw [concluded_additional, hs.additional, List.nil_append]

/-- The OPT record is that of the response before. -/
theorem Resolves.opt_concluded (h : Resolves d z kind n owner chain c) (hs : Skeleton query s) :
    (concluded s chain c).opt = s.opt :=
  concluded_opt chain c hs.isReplyOpt (conclusionRcodes_small _ h.rcode_mem).1

end

/-! ### Record types in the sections -/

/-- The record types that the sections of a conclusion can hold. -/
structure Conclusion.Typed (c : Conclusion) : Prop where
  authority : ∀ r ∈ c.authority, r.rdtype ∈ [RRType.SOA, RRType.NS]
  additional : ∀ r ∈ c.additional, r.rdtype ∈ [RRType.A, RRType.AAAA]
  answer_of_authority : c.authority ≠ [] → c.answer = []
  answer_of_additional : c.additional ≠ [] →
    ∀ r ∈ c.answer, r.rdtype ∈ [RRType.NS, RRType.MX, RRType.SRV]

theorem typed_answer (aa : Bool) (rcode : UInt16) (rs : List RRset) :
    (⟨aa, rcode, rs, [], []⟩ : Conclusion).Typed :=
  ⟨by simp, by simp, by simp, by simp⟩

theorem typed_soa (aa : Bool) (rcode : UInt16) {soa : RRset} (h : soa.rdtype = RRType.SOA) :
    (⟨aa, rcode, [], [soa], []⟩ : Conclusion).Typed := by
  refine ⟨fun r hr => ?_, by simp, fun _ => rfl, by simp⟩
  rw [List.mem_singleton.mp hr, h]
  exact List.mem_cons_self

theorem rdtype_negativeSoa (d : Dnspython) (z : Nonce) (kind : UInt16) (key : String) (depth : Nat) :
    (Zone.negativeSoa d z kind key depth).rdtype = RRType.SOA := by
  unfold Zone.negativeSoa
  split
  · rfl
  · split_ifs <;> rfl

theorem rdtype_of_mem_addresses {d : Dnspython} {z : Nonce} {h : Host} {r : RRset}
    (hr : r ∈ Zone.addresses d z h) : r.rdtype ∈ [RRType.A, RRType.AAAA] := by
  obtain ⟨t, ht, rfl⟩ := List.mem_map.mp hr
  exact of_decide_eq_true (List.mem_filter.mp ht).2

theorem typed_data (d : Dnspython) (z : Nonce) (p : Placed) : (Zone.data d z [p]).Typed := by
  have hadditional : (Zone.data d z [p]).additional
      = p.template.additionalHosts.flatMap (Zone.addresses d z) := additionalOf_singleton z p
  refine ⟨fun r hr => ?_, fun r hr => ?_, fun h => absurd rfl h, fun hne r hr => ?_⟩
  · cases hr
  · rw [hadditional] at hr
    obtain ⟨h, -, hr⟩ := List.mem_flatMap.mp hr
    exact rdtype_of_mem_addresses hr
  · rw [List.mem_singleton.mp hr]
    by_contra hkind
    rw [hadditional, Fixture.additionalHosts_of_kind hkind] at hne
    exact hne rfl

/-- The additional records of a delegation are addresses of its server. -/
theorem mem_additional_delegation {d : Dnspython} {z : Nonce} {h : Host} {r : RRset}
    (hr : r ∈ (Zone.delegation d z h).additional) : r.name = z.below ⟨"ns", by decide⟩ h ∧
      r.rdtype ∈ [RRType.A, RRType.AAAA] := by
  unfold Zone.delegation at hr
  rcases List.mem_cons.mp hr with rfl | hr
  · exact ⟨rfl, (by decide : RRType.A ∈ [RRType.A, RRType.AAAA])⟩
  · split_ifs at hr
    · rw [List.mem_singleton.mp hr]
      exact ⟨rfl, (by decide : RRType.AAAA ∈ [RRType.A, RRType.AAAA])⟩
    · cases hr

theorem typed_delegation (d : Dnspython) (z : Nonce) (h : Host) : (Zone.delegation d z h).Typed := by
  refine ⟨fun r hr => ?_, fun r hr => (mem_additional_delegation hr).2, fun _ => rfl, fun _ r hr => ?_⟩
  · rw [List.mem_singleton.mp hr]
    exact (by decide : RRType.NS ∈ [RRType.SOA, RRType.NS])
  · cases hr

theorem StepCase.typed {d : Dnspython} {z : Nonce} {kind : UInt16} {owner : Name}
    {front : List Label} {key : String} {c : Conclusion}
    (h : StepCase d z kind owner front key (.stop c)) : c.Typed := by
  cases h with
  | cut => exact typed_soa _ _ rfl
  | delegation => exact typed_delegation ..
  | refused => exact typed_answer ..
  | tooLong => exact typed_answer ..
  | dnameEnd => exact typed_answer ..
  | absent => exact typed_soa _ _ (rdtype_negativeSoa ..)
  | cnameEnd => exact typed_answer ..
  | noData => exact typed_soa _ _ (rdtype_negativeSoa ..)
  | data => exact typed_data ..

theorem Resolves.typed {d : Dnspython} {z : Nonce} {kind : UInt16} {n : Nat} {owner : Name}
    {chain : List RRset} {c : Conclusion} (h : Resolves d z kind n owner chain c) : c.Typed := by
  obtain ⟨last, front, key, hcase⟩ := h.stop_case
  exact hcase.typed

/-- **No RRset occurs twice** in a response. -/
theorem Resolves.pairwise {d : Dnspython} (hd : d.Documented) {z : Nonce} {kind : UInt16} {n : Nat}
    {owner : Name} {chain : List RRset} {c : Conclusion} (h : Resolves d z kind n owner chain c) :
    (chain ++ c.answer ++ c.authority ++ c.additional).Pairwise fun a b => ¬ RRset.SameKey a b := by
  obtain ⟨hans, haut, hadd, -⟩ := h.renderable hd z
  have htyped := h.typed
  obtain ⟨last, front, key, -, -, -, hchain, -⟩ := h.chain_cases
  have haliases := (hchain.renderable hd z).2.2
  refine List.pairwise_append.mpr ⟨List.pairwise_append.mpr ⟨hans.keys, haut.keys, ?_⟩, hadd.keys, ?_⟩
  · -- authority: SOA and NS are no aliases
    intro a ha b hb hkey
    have hb' := htyped.authority b hb
    rw [htyped.answer_of_authority (List.ne_nil_of_mem hb), List.append_nil] at ha
    have ha' := haliases a ha
    rw [hkey.2.1] at ha'
    exact (by decide : ∀ t ∈ [RRType.SOA, RRType.NS], t ∉ [RRType.CNAME, RRType.DNAME]) _ hb' ha'
  · -- additional: addresses are neither aliases nor what leads to them, nor SOA and NS
    intro a ha b hb hkey
    have hb' := htyped.additional b hb
    rw [← hkey.2.1] at hb'
    rcases List.mem_append.mp ha with ha | ha
    · rcases List.mem_append.mp ha with ha | ha
      · exact (by decide : ∀ t ∈ [RRType.A, RRType.AAAA], t ∉ [RRType.CNAME, RRType.DNAME]) _ hb'
          (haliases a ha)
      · exact (by decide : ∀ t ∈ [RRType.A, RRType.AAAA], t ∉ [RRType.NS, RRType.MX, RRType.SRV]) _
          hb' (htyped.answer_of_additional (List.ne_nil_of_mem hb) a ha)
    · exact (by decide : ∀ t ∈ [RRType.A, RRType.AAAA], t ∉ [RRType.SOA, RRType.NS]) _ hb'
        (htyped.authority a ha)

/-! ### Questions -/

/-- The question is not answered from the fixtures. -/
def IsRefused (q : Question) : Prop :=
  nameKey q.name = none ∨ q.rdclass ∉ [RRClass.IN, RRClass.ANY] ∨
    q.rdtype ∈ [RRType.AXFR, RRType.IXFR]

/-- What becomes of a question. -/
inductive QuestionCase (d : Dnspython) (q : Question) (s : Message) : Except Raised Message → Prop
  | refused : IsRefused q → QuestionCase d q s (.ok (s.setRcode Rcode.REFUSED))
  | resolved {z : Nonce} {front : List Label} {key : String} {cut : Name} {n : Nat}
      {chain : List RRset} {c : Conclusion} : ¬ IsRefused q → InZone z q.name front →
      keyOf front = some key → d.nameFromText (key ++ "." ++ z.text) = .ok cut →
      Resolves d z q.rdtype n q.name chain c → QuestionCase d q s (.ok (concluded s chain c))
  /-- the label in front of the nonce cannot be read as text -/
  | unreadable {z : Nonce} {front : List Label} {key : String} {e : Raised} : ¬ IsRefused q →
      InZone z q.name front → keyOf front = some key →
      d.nameFromText (key ++ "." ++ z.text) = .error e → QuestionCase d q s (.error e)

section

variable {d : Dnspython} (hd : d.Documented)
include hd

/-- **What becomes of a question**, asked of a response with nothing in it. -/
theorem resolveQuestion_cases (q : Question) {s : Message} (hanswer : s.answer = [])
    (hadditional : s.additional = []) : QuestionCase d q s (resolveQuestion d q s) := by
  unfold resolveQuestion
  cases hkey : nameKey q.name with
  | none => exact .refused (Or.inl hkey)
  | some k =>
    obtain ⟨key, nonce⟩ := k
    dsimp only
    split_ifs with hclass htype
    · exact .refused (Or.inr (Or.inr htype))
    · have hplain : ¬ IsRefused q := by
        rintro (h | h | h)
        · rw [hkey] at h
          cases h
        · exact h hclass
        · exact htype h
      obtain ⟨z, front, hz, hfront, rfl⟩ := nameKey_eq_some_iff.mp hkey
      cases hcut : d.nameFromText (key ++ "." ++ z.text) with
      | error e =>
        have herror : answer d { s with flags := s.flags ||| Flag.AA } q.name q.rdtype z.text
            = .error e := answer_error hd hz hfront hcut _
        rw [Nonce.text] at herror
        rw [herror]
        exact .unreadable hplain hz hfront hcut
      | ok cut =>
        have hempty : ({ s with flags := s.flags ||| Flag.AA } : Message).additional = [] :=
          hadditional
        obtain ⟨n, chain, c, hres, hrun⟩ := answer_eq hd q.rdtype hz hfront hcut hempty
        rw [Nonce.text] at hrun
        rw [hrun, hanswer, List.nil_append]
        exact .resolved hplain hz hfront hcut hres
    · exact .refused (Or.inr (Or.inl hclass))

end

/-- What `answer_fresh` makes of a query that was parsed. -/
inductive ResponseCase (d : Dnspython) (query s : Message) : Except Raised Message → Prop
  | badVersion {q : Question} : query.question = [q] → 0 < query.edns →
      ResponseCase d query s (.ok (s.setRcode Rcode.BADVERS))
  | formErr : query.question.length ≠ 1 →
      ResponseCase d query s (.ok (({ s with question := [] } : Message).setRcode Rcode.FORMERR))
  | question {q : Question} {x : Except Raised Message} : query.question = [q] → ¬ 0 < query.edns →
      QuestionCase d q s x → ResponseCase d query s x

/-- **What the response to a query can be.** -/
theorem respond_cases {d : Dnspython} (hd : d.Documented) {query : Message}
    (hqr : ¬ hasFlag query.flags Flag.QR) (hop : opcodeOf query.flags = 0) :
    ∃ s, Skeleton query s ∧ ResponseCase d query s (respond d query) := by
  obtain ⟨s, hs, hone, hother⟩ := exists_skeleton hd hqr hop
  refine ⟨s, hs, ?_⟩
  by_cases hlen : query.question.length = 1
  · obtain ⟨q, hq⟩ := List.length_eq_one_iff.mp hlen
    rw [hone q hq]
    split_ifs with hedns
    · exact .badVersion hq hedns
    · exact .question hq hedns (resolveQuestion_cases hd q hs.answer hs.additional)
  · rw [hother hlen]
    exact .formErr hlen

/-! ### Responses that can be sent -/

/-- A response that can be written in 65535 octets and read back.  A referral has no additional
record but its glue, and no response has an RRset twice. -/
structure Sendable (d : Dnspython) (query : UInt16) (m : Message) : Prop where
  renderable : d.Renderable m
  size : m.size ≤ 65535
  isReplyTo : IsReplyTo query m.flags
  glue : m.answer = [] → ¬ hasFlag m.flags Flag.AA → requiredGlue m = m.additional
  keys : m.rrsets.Pairwise fun a b => ¬ RRset.SameKey a b

/-- Header, question and OPT record take at most 282 octets. -/
theorem size_le_of_sections {m : Message} (hq : m.question.length ≤ 1)
    (hopt : ∀ o, m.opt = some o → o.options = []) :
    m.size ≤ 282 + sectionSize m.answer + sectionSize m.authority + sectionSize m.additional := by
  have hquestion : (m.question.map fun q => nameLength q.name.labels + 4).sum ≤ 259 := by
    cases hqs : m.question with
    | nil => simp
    | cons q qs =>
      have hone : qs = [] := by
        rw [hqs, List.length_cons] at hq
        exact List.length_eq_zero_iff.mp (by omega)
      have := q.name.legal.total_le
      rw [hone]
      simp only [List.map_cons, List.map_nil, List.sum_cons, List.sum_nil]
      omega
  have hsections : ((m.answer ++ m.authority ++ m.additional).map RRset.size).sum
      = sectionSize m.answer + sectionSize m.authority + sectionSize m.additional := by
    rw [List.map_append, List.map_append, List.sum_append, List.sum_append]
    rfl
  unfold Message.size
  rw [hsections]
  cases ho : m.opt with
  | none =>
    dsimp only
    omega
  | some o =>
    have := congrArg List.length (hopt o ho)
    rw [List.length_nil] at this
    dsimp only
    omega

theorem IsReplyOpt.options {opt : Option Opt} (h : IsReplyOpt opt) :
    ∀ o, opt = some o → o.options = [] := by
  obtain ⟨e, he⟩ := h
  rintro o rfl
  cases e with
  | none => cases he
  | some e =>
    cases he
    rfl

theorem options_setRcode {m : Message} (h : ∀ o, m.opt = some o → o.options = []) (rcode : UInt16) :
    ∀ o, (m.setRcode rcode).opt = some o → o.options = [] := by
  intro o ho
  unfold Message.setRcode Message.setEdnsflags at ho
  dsimp only at ho
  split at ho
  · rename_i o' ho'
    cases ho
    exact h o' ho'
  · split_ifs at ho with hv
    · exact h o ho
    · cases ho
      rfl

section

variable {d : Dnspython}

/-- A response without records. -/
theorem sendable_of_nil {query : UInt16} {m : Message} (hq : m.question.length ≤ 1)
    (hop : opcodeOf query = 0 ∨ m.question = [])
    (hopt : ∀ o, m.opt = some o → o.options = []) (hflags : IsReplyTo query m.flags)
    (ha : m.answer = []) (hn : m.authority = []) (hr : m.additional = []) :
    Sendable d query m := by
  have hsize := size_le_of_sections hq hopt
  rw [ha, hn, hr] at hsize
  refine ⟨⟨hq, ?_, ?_, ?_, ?_, hopt⟩, ?_, hflags, fun _ _ => ?_, ?_⟩
  · rw [hflags.opcode]
    exact hop.imp id fun h => ⟨h, ha, hn, hr⟩
  · rw [ha]
    exact renderableSection_nil
  · rw [hn]
    exact renderableSection_nil
  · rw [hr]
    exact renderableSection_nil
  · simp only [sectionSize_nil] at hsize
    omega
  · rw [requiredGlue, hr]
    rfl
  · rw [Message.rrsets, ha, hn, hr]
    exact List.Pairwise.nil

/-- The additional records of a delegation are all glue. -/
theorem requiredGlue_delegation (d : Dnspython) (z : Nonce) (h : Host) {m : Message}
    (hn : m.authority = (Zone.delegation d z h).authority)
    (hr : m.additional = (Zone.delegation d z h).additional) : requiredGlue m = m.additional := by
  have htarget : z.below ⟨"ns", by decide⟩ h ∈ glueTargets m := by
    have hsub : (z.below ⟨"ns", by decide⟩ h).IsSubdomain (z.host h) := List.suffix_cons ..
    unfold glueTargets
    rw [hn]
    simp [Zone.delegation, Rdata.target?, hsub]
  unfold requiredGlue
  rw [List.filter_eq_self]
  intro r hrm
  obtain ⟨hname, htype⟩ := mem_additional_delegation (hr ▸ hrm)
  rw [decide_eq_true_eq]
  exact ⟨⟨_, htarget, hname ▸ Name.SameAs.refl _⟩, htype⟩

/-- A conclusion that is not authoritative is a delegation or a refusal. -/
theorem Resolves.of_not_aa {z : Nonce} {kind : UInt16} {n : Nat} {owner : Name} {chain : List RRset}
    {c : Conclusion} (h : Resolves d z kind n owner chain c) (haa : c.aa = false) :
    chain = [] ∧ (c = Zone.refusal ∨ ∃ h ∈ referralHosts, c = Zone.delegation d z h) := by
  obtain ⟨last, front, key, -, hkey, hstep, hchain, hend⟩ := h.chain_cases
  -- behind an alias the last step is authoritative
  have hnil : chain = [] := by
    refine hend.resolve_right fun hend => ?_
    rcases hend.stop_cases hkey hstep with rfl | ⟨p, rfl, -⟩
    · cases haa
    · cases haa
  refine ⟨hnil, ?_⟩
  cases StepCase.of_step hstep with
  | @delegation g hmem => exact Or.inr ⟨g, hmem, rfl⟩
  | refused => exact Or.inl rfl
  | _ => cases haa

/-- A refusal is all that a response with its code holds. -/
theorem Resolves.of_refused {z : Nonce} {kind : UInt16} {n : Nat} {owner : Name}
    {chain : List RRset} {c : Conclusion} (h : Resolves d z kind n owner chain c)
    (hr : c.rcode = Rcode.REFUSED) : chain = [] ∧ c = Zone.refusal := by
  have hrefusal : c = Zone.refusal := by
    obtain ⟨last, front, key, hcase⟩ := h.stop_case
    cases hcase with
    | refused => rfl
    | tooLong => exact absurd hr (by decide : Rcode.YXDOMAIN ≠ Rcode.REFUSED)
    | absent => exact absurd hr (by decide : Rcode.NXDOMAIN ≠ Rcode.REFUSED)
    | _ => exact absurd hr (by decide : Rcode.NOERROR ≠ Rcode.REFUSED)
  exact ⟨(h.of_not_aa (by rw [hrefusal]; rfl)).1, hrefusal⟩

/-- Nothing but a response code is put into it. -/
theorem Skeleton.sendable_setRcode {query s : Message} (hs : Skeleton query s)
    (hop : opcodeOf query.flags = 0) {qs : List Question} (hq : qs.length ≤ 1) (rcode : UInt16) :
    Sendable d query.flags (({ s with question := qs } : Message).setRcode rcode) := by
  have hflags : IsReplyTo query.flags ({ s with question := qs } : Message).flags := hs.isReplyTo
  have hopt : ∀ o, ({ s with question := qs } : Message).opt = some o → o.options = [] :=
    hs.isReplyOpt.options
  refine sendable_of_nil ?_ (Or.inl hop) (options_setRcode hopt _) (hflags.setRcode _) ?_ ?_ ?_
  · rw [Message.setRcode_question]
    exact hq
  · rw [Message.setRcode_answer]
    exact hs.answer
  · rw [Message.setRcode_authority]
    exact hs.authority
  · rw [Message.setRcode_additional]
    exact hs.additional

variable (hd : d.Documented)
include hd

/-- **The answers of the zone can be sent.** -/
theorem Resolves.sendable {query s : Message} (hs : Skeleton query s)
    (hop : opcodeOf query.flags = 0) (hq : query.question.length ≤ 1) {z : Nonce} {kind : UInt16}
    {n : Nat} {owner : Name} {chain : List RRset} {c : Conclusion}
    (h : Resolves d z kind n owner chain c) : Sendable d query.flags (concluded s chain c) := by
  obtain ⟨hans, haut, hadd, hsize⟩ := h.renderable hd z
  have hflags := concluded_isReplyTo s chain c hs.isReplyTo
  have hquestion : (concluded s chain c).question.length ≤ 1 := by
    rw [concluded_question, hs.question]
    exact hq
  have hopt : ∀ o, (concluded s chain c).opt = some o → o.options = [] := by
    rw [h.opt_concluded hs]
    exact hs.isReplyOpt.options
  obtain ⟨-, -, hauthority, hadditional⟩ := h.concluded_parts hs
  have htotal := size_le_of_sections hquestion hopt
  rw [concluded_answer, hauthority, hadditional] at htotal
  refine ⟨⟨hquestion, Or.inl (hflags.opcode.trans hop), ?_, ?_, ?_, hopt⟩, by omega, hflags, ?_, ?_⟩
  · rwa [concluded_answer]
  · rwa [hauthority]
  · rwa [hadditional]
  · -- a referral has its glue, and a refusal has nothing
    intro _ haa
    have hclear : c.aa = false := by
      rw [concluded_aa] at haa
      simpa using haa
    rcases (h.of_not_aa hclear).2 with rfl | ⟨g, -, rfl⟩
    · rw [requiredGlue, hadditional]
      rfl
    · exact requiredGlue_delegation d z g hauthority hadditional
  · rw [Message.rrsets, concluded_answer, hauthority, hadditional]
    exact h.pairwise hd

/-- **Every response to a parsed query can be sent.** -/
theorem ResponseCase.sendable {query s : Message} (hs : Skeleton query s)
    (hop : opcodeOf query.flags = 0) {x : Except Raised Message} (h : ResponseCase d query s x)
    {response : Message} (hx : x = .ok response) : Sendable d query.flags response := by
  have hone : ∀ {q}, query.question = [q] → s.question.length ≤ 1 := by
    intro q hq
    rw [hs.question, hq, List.length_singleton]
  cases h with
  | badVersion hq =>
    cases hx
    exact hs.sendable_setRcode hop (hone hq) _
  | formErr =>
    cases hx
    have hnil : ([] : List Question).length ≤ 1 := Nat.zero_le 1
    exact hs.sendable_setRcode hop hnil _
  | @question q x hq _ hcase =>
    cases hcase with
    | refused =>
      cases hx
      exact hs.sendable_setRcode hop (hone hq) _
    | resolved _ _ _ _ hres =>
      cases hx
      exact hres.sendable hd hs hop (by rw [hq, List.length_singleton])
    | unreadable => cases hx

end

end DnsFixtures
