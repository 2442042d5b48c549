import DnsFixtures.Equiv.Reply

/-!
# Recovery from queries that are not parsed

`_error_response` walks over the questions and the records of a query whose counts may lie.
`errorResponse_eq`: it never raises, and what it writes is `Recovered`: the question, if it is the
only one of a QUERY and can be read, and an OPT record exactly when the walk reaches one
(`ReachesOpt`).
-/

namespace DnsFixtures

open Dns

/-! ### The walk over the questions -/

section

variable {d : Dnspython} {wire : Octets}

theorem isParseError_of_isDNSException {e : Raised} (h : e.isDNSException = true) :
    e.isParseError = true := by
  cases e with
  | dnsException e => rfl
  | _ => cases h

/-- The walk either reads all questions, or ends with an error that is caught. -/
theorem walkQuestions_cases (hd : d.Documented) (wire : Octets) (keep : Bool) (n off : Nat) (acc : List Question) :
    ∃ qs out, walkQuestions d wire keep n off acc = (acc ++ (if keep then qs else []), out) ∧
      ((∃ stop, out = .ok stop ∧ qs.length = n ∧ QuestionsAt (d.NameAt wire) wire off qs stop) ∨
        ∃ e, out = .error e ∧ e.isParseError = true ∧ qs.length < n) := by
  induction n generalizing off acc with
  | zero => exact ⟨[], .ok off, by simp [walkQuestions], Or.inl ⟨off, rfl, rfl, .nil off⟩⟩
  | succ n ih =>
    rw [walkQuestions]
    split
    · rename_i e hname
      have he := isParseError_of_isDNSException (hd.nameFromWire_raises _ _ _ hname)
      exact ⟨[], .error e, by simp, Or.inr ⟨e, rfl, he, Nat.succ_pos n⟩⟩
    · rename_i name used hname
      split
      · rename_i t c ht hc
        obtain ⟨qs, out, hwalk, hcase⟩ := ih (off + used + 4)
          (if keep then acc ++ [⟨name, t, c⟩] else acc)
        refine ⟨⟨name, t, c⟩ :: qs, out, ?_, ?_⟩
        · rw [hwalk]
          cases keep <;> simp
        · rcases hcase with ⟨stop, rfl, hlen, hat⟩ | ⟨e, rfl, he, hlen⟩
          · exact Or.inl ⟨stop, rfl, by rw [List.length_cons, hlen], .cons hname ht hc hat⟩
          · exact Or.inr ⟨e, rfl, he, by rw [List.length_cons]; omega⟩
      · exact ⟨[], .error .structError, by simp, Or.inr ⟨_, rfl, rfl, Nat.succ_pos n⟩⟩

/-- Questions that stand in the query are all read. -/
theorem walkQuestions_of_questionsAt (keep : Bool) {off stop : Nat} {qs : List Question}
    (h : QuestionsAt (d.NameAt wire) wire off qs stop) (acc : List Question) :
    walkQuestions d wire keep qs.length off acc = (acc ++ (if keep then qs else []), .ok stop) := by
  induction h generalizing acc with
  | nil off => simp [walkQuestions]
  | cons hname ht hc _ ih =>
    rw [List.length_cons, walkQuestions, hname]
    dsimp only
    rw [ht, hc]
    dsimp only
    rw [ih]
    cases keep <;> simp

/-- So many questions end in one place only: the walk over them has one outcome. -/
theorem questionsAt_stop_unique {off stop stop' : Nat} {qs qs' : List Question}
    (h : QuestionsAt (d.NameAt wire) wire off qs stop)
    (h' : QuestionsAt (d.NameAt wire) wire off qs' stop') (hlen : qs'.length = qs.length) :
    stop' = stop := by
  have hwalk := walkQuestions_of_questionsAt false h []
  have hwalk' := walkQuestions_of_questionsAt false h' []
  rw [hlen, hwalk] at hwalk'
  exact (Except.ok.inj (congrArg Prod.snd hwalk')).symm

/-! ### The walk over the records -/

/-- Among the first `n` records from an offset on, the walk reaches an OPT record, whose TTL field
is `ttl`.  The data of the records in front of it lies inside the query. -/
inductive ReachesOpt (d : Dnspython) (wire : Octets) : Nat → Nat → UInt32 → Prop
  | here {n off used : Nat} {name : Name} {ttl : UInt32} {len : UInt16} :
      d.NameAt wire off name used → unpackRecord wire (off + used) = some (RRType.OPT, ttl, len) →
      ReachesOpt d wire (n + 1) off ttl
  | next {n off used : Nat} {name : Name} {kind : UInt16} {ttl ttl' : UInt32} {len : UInt16} :
      d.NameAt wire off name used → unpackRecord wire (off + used) = some (kind, ttl', len) →
      kind ≠ RRType.OPT → off + used + 10 + len.toNat ≤ wire.length →
      ReachesOpt d wire n (off + used + 10 + len.toNat) ttl → ReachesOpt d wire (n + 1) off ttl

/-- The first record of the walk. -/
theorem ReachesOpt.inv {n off : Nat} {ttl : UInt32} (h : ReachesOpt d wire (n + 1) off ttl)
    {name : Name} {used : Nat} (hname : d.nameFromWire wire off = .ok (name, used)) :
    ∃ kind ttl' len, unpackRecord wire (off + used) = some (kind, ttl', len) ∧
      (kind ≠ RRType.OPT → off + used + 10 + len.toNat ≤ wire.length ∧
        ReachesOpt d wire n (off + used + 10 + len.toNat) ttl) := by
  cases h with
  | here hn hu =>
    rw [Dnspython.NameAt, hname] at hn
    cases hn
    exact ⟨_, _, _, hu, fun hne => absurd rfl hne⟩
  | next hn hu _ hin hrest =>
    rw [Dnspython.NameAt, hname] at hn
    cases hn
    exact ⟨_, _, _, hu, fun _ => ⟨hin, hrest⟩⟩

theorem ReachesOpt.exists_name {n off : Nat} {ttl : UInt32} (h : ReachesOpt d wire (n + 1) off ttl) :
    ∃ name used, d.nameFromWire wire off = .ok (name, used) := by
  cases h with
  | here hn => exact ⟨_, _, hn⟩
  | next hn => exact ⟨_, _, hn⟩

theorem useEdns_eq (response : Message) (ttl : UInt32) :
    response.useEdns 1232 (ttl &&& Flag.DO) = { response with opt := some (replyOpt ttl) } := by
  have hword : (ttl &&& Flag.DO) &&& (0xFF00FFFF : UInt32) = ttl &&& Flag.DO := by
    rw [UInt32.and_assoc]
    rfl
  rw [Message.useEdns, hword, replyOpt]

theorem not_edns_neg {response : Message} (h : response.opt ≠ none) : ¬ response.edns < 0 := by
  have := (edns_nonneg_iff response).mpr h
  omega

theorem edns_neg {response : Message} (h : response.opt = none) : response.edns < 0 := by
  rw [Message.edns, h]
  decide

/-- Behind an OPT record the walk changes nothing. -/
theorem walkRecords_of_opt (hd : d.Documented) (wire : Octets) (n off : Nat) {response : Message}
    (hopt : response.opt ≠ none) : (walkRecords d wire n off response).1 = response ∧
      ∀ e, (walkRecords d wire n off response).2 = some e → e.isParseError = true := by
  induction n generalizing off with
  | zero => exact ⟨rfl, by simp [walkRecords]⟩
  | succ n ih =>
    rw [walkRecords]
    split
    · rename_i e hname
      refine ⟨rfl, fun e' he' => ?_⟩
      cases he'
      exact isParseError_of_isDNSException (hd.nameFromWire_raises _ _ _ hname)
    · split
      · refine ⟨rfl, fun e' he' => ?_⟩
        cases he'
        rfl
      · dsimp only
        rw [if_neg fun h : _ ∧ _ => not_edns_neg hopt h.2]
        split_ifs
        · exact ⟨rfl, by simp⟩
        · exact ih _

/-- **The walk over the records** keeps the first OPT record it reaches. -/
theorem walkRecords_cases (hd : d.Documented) (wire : Octets) (n off : Nat) {response : Message}
    (hopt : response.opt = none) :
    (∀ e, (walkRecords d wire n off response).2 = some e → e.isParseError = true) ∧
      (((walkRecords d wire n off response).1 = response ∧ ∀ ttl, ¬ ReachesOpt d wire n off ttl) ∨
        ∃ ttl, ReachesOpt d wire n off ttl ∧
          (walkRecords d wire n off response).1 = { response with opt := some (replyOpt ttl) }) := by
  induction n generalizing off with
  | zero =>
    refine ⟨by simp [walkRecords], Or.inl ⟨rfl, fun ttl h => ?_⟩⟩
    cases h
  | succ n ih =>
    rw [walkRecords]
    split
    · -- the name of the record cannot be read
      rename_i e hname
      refine ⟨fun e' he' => ?_, Or.inl ⟨rfl, fun ttl h => ?_⟩⟩
      · cases he'
        exact isParseError_of_isDNSException (hd.nameFromWire_raises _ _ _ hname)
      · obtain ⟨_, _, hn⟩ := h.exists_name
        rw [hname] at hn
        cases hn
    · rename_i name used hname
      split
      · -- the fixed fields behind the name are cut short
        rename_i hunpack
        refine ⟨fun e' he' => ?_, Or.inl ⟨rfl, fun ttl h => ?_⟩⟩
        · cases he'
          rfl
        · obtain ⟨_, _, _, hu, -⟩ := h.inv hname
          rw [hunpack] at hu
          cases hu
      · rename_i kind ttl len hunpack
        dsimp only
        by_cases hkind : kind = RRType.OPT
        · -- the first OPT record
          subst hkind
          have hfirst : RRType.OPT = RRType.OPT ∧ response.edns < 0 := ⟨rfl, edns_neg hopt⟩
          rw [if_pos hfirst, useEdns_eq]
          split_ifs
          · exact ⟨by simp, Or.inr ⟨ttl, .here hname hunpack, rfl⟩⟩
          · have hsome : ({ response with opt := some (replyOpt ttl) } : Message).opt ≠ none :=
              Option.some_ne_none _
            obtain ⟨hsame, herr⟩ := walkRecords_of_opt hd wire n (off + used + 10 + len.toNat) hsome
            exact ⟨herr, Or.inr ⟨ttl, .here hname hunpack, hsame⟩⟩
        · rw [if_neg fun h : _ ∧ _ => hkind h.1]
          -- an OPT record that is reached is reached behind this record
          have hreach : ∀ ttl', ReachesOpt d wire (n + 1) off ttl' →
              off + used + 10 + len.toNat ≤ wire.length ∧
                ReachesOpt d wire n (off + used + 10 + len.toNat) ttl' := by
            intro ttl' h
            obtain ⟨_, _, _, hu, hrest⟩ := h.inv hname
            rw [hunpack] at hu
            cases hu
            exact hrest hkind
          split_ifs with hout
          · exact ⟨by simp, Or.inl ⟨rfl, fun ttl' h => absurd (hreach ttl' h).1 (by omega)⟩⟩
          · obtain ⟨herr, hcase⟩ := ih (off + used + 10 + len.toNat)
            refine ⟨herr, ?_⟩
            rcases hcase with ⟨hsame, hnone⟩ | ⟨ttl', hr, hsame⟩
            · exact Or.inl ⟨hsame, fun ttl' h => hnone ttl' (hreach ttl' h).2⟩
            · exact Or.inr ⟨ttl', .next hname hunpack hkind (by omega) hr, hsame⟩

end

/-! ### The recovered response -/

/-- What `_error_response` makes of the query `wire` with header `h`. -/
structure Recovered (d : Dnspython) (wire : Octets) (h : Header) (rcode : UInt16) (m : Message) :
    Prop where
  id : m.id = h.id
  isReplyTo : IsReplyTo h.flags m.flags
  question_le : m.question.length ≤ 1
  question : ∀ q ∈ m.question, opcodeOf h.flags = 0 ∧ h.qdcount = 1 ∧
    ∃ stop, QuestionsAt (d.NameAt wire) wire 12 [q] stop
  answer : m.answer = []
  authority : m.authority = []
  additional : m.additional = []
  opt : IsReplyOpt m.opt
  /-- an OPT record that the walk behind the questions reaches -/
  reaches : ∀ qs stop ttl, qs.length = h.qdcount.toNat →
    QuestionsAt (d.NameAt wire) wire 12 qs stop →
    ReachesOpt d wire (h.ancount.toNat + h.nscount.toNat + h.arcount.toNat) stop ttl → m.opt ≠ none
  reached : ∀ o, m.opt = some o → ∃ qs stop ttl, qs.length = h.qdcount.toNat ∧
    QuestionsAt (d.NameAt wire) wire 12 qs stop ∧
    ReachesOpt d wire (h.ancount.toNat + h.nscount.toNat + h.arcount.toNat) stop ttl ∧
    o = replyOpt ttl
  rcode : m.rcode = rcode

theorem Recovered.sendable {d : Dnspython} {wire : Octets} {h : Header} {rcode : UInt16} {m : Message}
    (hm : Recovered d wire h rcode m) : Sendable d h.flags m := by
  refine sendable_of_nil hm.question_le ?_ hm.opt.options hm.isReplyTo hm.answer hm.authority
    hm.additional
  cases hq : m.question with
  | nil => exact Or.inr rfl
  | cons q qs => exact Or.inl (hm.question q (by simp [hq])).1

/-- The skeleton of an error response. -/
def errorSkeleton (h : Header) : Message where
  id := h.id
  flags := Flag.QR ||| (h.flags &&& (Flag.opcodeMask ||| Flag.RD ||| Flag.CD))
  question := []
  answer := []
  authority := []
  additional := []
  opt := none

theorem errorSkeleton_isReplyTo (h : Header) : IsReplyTo h.flags (errorSkeleton h).flags := by
  have h1 : Flag.QR &&& envelopeMask = Flag.QR := by decide
  have h2 : (Flag.opcodeMask ||| Flag.RD ||| Flag.CD) &&& envelopeMask = copiedMask := by decide
  rw [IsReplyTo, errorSkeleton, or_and_distrib, UInt16.and_assoc, h1, h2]

section

variable {d : Dnspython} {wire : Octets} (hd : d.Documented)
include hd

/-- What the two walks recover: a question that may be kept, and the first OPT record. -/
theorem recover_cases (wire : Octets) (h : Header) : ∃ qs opt,
    (recover d wire h (errorSkeleton h)).1 = { errorSkeleton h with question := qs, opt := opt } ∧
    (∀ e, (recover d wire h (errorSkeleton h)).2 = some e → e.isParseError = true) ∧
    qs.length ≤ 1 ∧
    (∀ q ∈ qs, opcodeOf h.flags = 0 ∧ h.qdcount = 1 ∧
      ∃ stop, QuestionsAt (d.NameAt wire) wire 12 [q] stop) ∧
    (∀ qs stop ttl, qs.length = h.qdcount.toNat → QuestionsAt (d.NameAt wire) wire 12 qs stop →
      ReachesOpt d wire (h.ancount.toNat + h.nscount.toNat + h.arcount.toNat) stop ttl →
      opt ≠ none) ∧
    ∀ o, opt = some o → ∃ qs stop ttl, qs.length = h.qdcount.toNat ∧
      QuestionsAt (d.NameAt wire) wire 12 qs stop ∧
      ReachesOpt d wire (h.ancount.toNat + h.nscount.toNat + h.arcount.toNat) stop ttl ∧
      o = replyOpt ttl := by
  obtain ⟨keep, hkeep⟩ : ∃ keep : Bool, keep = decide (h.qdcount = 1 ∧ opcodeOf h.flags = 0) :=
    ⟨_, rfl⟩
  obtain ⟨qs, out, hwalk, hcase⟩ :=
    walkQuestions_cases hd wire keep h.qdcount.toNat 12 []
  rw [List.nil_append] at hwalk
  rcases hcase with ⟨stop, rfl, hlen, hat⟩ | ⟨e, rfl, he, hlen⟩
  · -- all questions were read
    have hnone : ({ errorSkeleton h with question := if keep then qs else [] } : Message).opt = none :=
      rfl
    obtain ⟨herr, hopt⟩ := walkRecords_cases hd wire
      (h.ancount.toNat + h.nscount.toNat + h.arcount.toNat) stop hnone
    have hrun : recover d wire h (errorSkeleton h)
        = walkRecords d wire (h.ancount.toNat + h.nscount.toNat + h.arcount.toNat) stop
          { errorSkeleton h with question := if keep then qs else [] } := by
      unfold recover
      rw [← hkeep]
      dsimp only
      rw [hwalk]
    have hquestions : (if keep then qs else []).length ≤ 1 ∧
        ∀ q ∈ (if keep then qs else []), opcodeOf h.flags = 0 ∧ h.qdcount = 1 ∧
          ∃ stop, QuestionsAt (d.NameAt wire) wire 12 [q] stop := by
      cases hk : keep with
      | false => exact ⟨Nat.zero_le _, by simp⟩
      | true =>
        rw [hk] at hkeep
        obtain ⟨hone, hop⟩ := of_decide_eq_true hkeep.symm
        rw [hone] at hlen
        obtain ⟨q, rfl⟩ := List.length_eq_one_iff.mp hlen
        refine ⟨Nat.le_refl 1, fun q' hq' => ?_⟩
        rw [if_pos rfl, List.mem_singleton] at hq'
        subst hq'
        exact ⟨hop, hone, stop, hat⟩
    rcases hopt with ⟨hsame, hnone⟩ | ⟨ttl, hreach, hsame⟩
    · refine ⟨_, none, by rw [hrun, hsame]; rfl, by rw [hrun]; exact herr, hquestions.1,
        hquestions.2, ?_, by simp⟩
      intro qs' stop' ttl hlen' hat' hreach
      rw [questionsAt_stop_unique hat hat' (hlen'.trans hlen.symm)] at hreach
      exact absurd hreach (hnone ttl)
    · refine ⟨_, some (replyOpt ttl), by rw [hrun, hsame], by rw [hrun]; exact herr, hquestions.1,
        hquestions.2, by simp, ?_⟩
      intro o ho
      cases ho
      exact ⟨qs, stop, ttl, hlen, hat, hreach, rfl⟩
  · -- a question could not be read
    have hrun : recover d wire h (errorSkeleton h)
        = ({ errorSkeleton h with question := if keep then qs else [] }, some e) := by
      unfold recover
      rw [← hkeep]
      dsimp only
      rw [hwalk]
    have hnil : (if keep then qs else []) = [] := by
      cases hk : keep with
      | false => rfl
      | true =>
        rw [hk] at hkeep
        rw [(of_decide_eq_true hkeep.symm).1] at hlen
        exact List.length_eq_zero_iff.mp (Nat.lt_one_iff.mp hlen)
    rw [hnil] at hrun
    refine ⟨[], none, by rw [hrun]; rfl, ?_, Nat.zero_le _, by simp, ?_, by simp⟩
    · intro e' he'
      rw [hrun] at he'
      cases he'
      exact he
    · intro qs' stop' ttl hlen' hat'
      have h2 := walkQuestions_of_questionsAt keep hat' []
      rw [hlen', hwalk] at h2
      cases congrArg Prod.snd h2

/-- The response codes of errors that are found without parsing. -/
theorem recovered_setRcode (wire : Octets) (h : Header) {rcode : UInt16} (hr : rcode &&& 0x0FF0 = 0)
    (hr' : rcode &&& Flag.rcodeMask = rcode) :
    Recovered d wire h rcode ((recover d wire h (errorSkeleton h)).1.setRcode rcode) := by
  obtain ⟨qs, opt, hrec, -, hlen, hqs, hreaches, hreached⟩ := recover_cases hd wire h
  rw [hrec]
  have hreply : IsReplyOpt ({ errorSkeleton h with question := qs, opt := opt } : Message).opt := by
    cases ho : opt with
    | none => exact ⟨none, rfl⟩
    | some o =>
      obtain ⟨_, _, ttl, _, _, _, rfl⟩ := hreached o ho
      exact ⟨some ttl, rfl⟩
  have hopt := hreply.opt_setRcode hr
  refine ⟨Message.setRcode_id .., ?_, ?_, ?_, Message.setRcode_answer .., Message.setRcode_authority ..,
    Message.setRcode_additional .., ?_, ?_, ?_, ?_⟩
  · exact IsReplyTo.setRcode (m := { errorSkeleton h with question := qs, opt := opt })
      (errorSkeleton_isReplyTo h) rcode
  · rw [Message.setRcode_question]
    exact hlen
  · rw [Message.setRcode_question]
    exact hqs
  · rw [hopt]
    exact hreply
  · rw [hopt]
    exact hreaches
  · rw [hopt]
    exact hreached
  · exact hreply.rcode_setRcode hr hr'

/-- **Recovery never raises.** -/
theorem errorResponse_eq {h : Header} (hh : readHeader wire = some h) (rcode : UInt16)
    (hr : rcode &&& 0x0FF0 = 0) (hr' : rcode &&& Flag.rcodeMask = rcode) :
    ∃ m, Recovered d wire h rcode m ∧ errorResponse d wire rcode = .ok (d.render m) := by
  have hm := recovered_setRcode hd wire h hr hr'
  obtain ⟨-, -, -, herr, -⟩ := recover_cases hd wire h
  refine ⟨_, hm, ?_⟩
  have hlen : ¬ wire.length < 12 :=
    Nat.not_lt.mpr ((readHeader_isSome_iff wire).mp (by rw [hh]; rfl))
  have hwrite : toWireDefault d ((recover d wire h (errorSkeleton h)).1.setRcode rcode)
      = .ok (d.render ((recover d wire h (errorSkeleton h)).1.setRcode rcode)) := by
    have hrend := hm.sendable.renderable
    have hbase := length_render_keep_zero_le hd hrend
    have hlimit : ∀ n : Nat, n ≤ 65535 →
        512 ≤ (if n = 0 then 65535 else max 512 n) ∧ (if n = 0 then 65535 else max 512 n) ≤ 65535 := by
      intro n hn
      split_ifs <;> omega
    have hpayload : ((recover d wire h (errorSkeleton h)).1.setRcode rcode).payload ≤ 65535 := by
      unfold Message.payload
      split
      · exact Nat.zero_le _
      · rename_i o _
        have := o.payload.toNat_lt
        omega
    obtain ⟨hlow, hhigh⟩ := hlimit _ hpayload
    refine hd.toWire_whole _ _ false hlow hhigh (Nat.le_trans hbase hlow) ?_
    have hzero : ((recover d wire h (errorSkeleton h)).1.setRcode rcode).rrsetCount = 0 := by
      rw [Message.rrsetCount, hm.answer, hm.authority, hm.additional]
      rfl
    rw [fitting, hzero]
    rfl
  unfold errorResponse
  rw [if_neg hlen, hh]
  dsimp only
  rw [← errorSkeleton]
  cases hrec : recover d wire h (errorSkeleton h) with
  | mk response out =>
    rw [hrec] at hwrite herr
    cases out with
    | none => exact hwrite
    | some e =>
      dsimp only
      rw [if_pos (herr e rfl)]
      exact hwrite

end

end DnsFixtures
