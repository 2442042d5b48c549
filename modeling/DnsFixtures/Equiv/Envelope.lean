import DnsFixtures.Equiv.AnswerFresh
import DnsFixtures.Reference

/-!
# The envelope of a reply

Replies come from two builders: the response to a parsed query, and what `_error_response` recovers.
`answerFresh_envelope`: both give the same `Envelope`: identifier, flags, question and OPT record of
the query, and no records in an error.
-/

namespace DnsFixtures

open Dns

/-! ### The OPT record of a query -/

/-- The walk of `_error_response` over the sections reaches an OPT record with these flags. -/
def WalkReaches (d : Dnspython) (w : Octets) (ttl : UInt32) : Prop :=
  ∃ h qs stop, readHeader w = some h ∧ qs.length = h.qdcount.toNat ∧
    QuestionsAt (d.NameAt w) w 12 qs stop ∧
    ReachesOpt d w (h.ancount.toNat + h.nscount.toNat + h.arcount.toNat) stop ttl

/-- The query has an OPT record with these flags: it is parsed with one, or the walk reaches one. -/
def HasOpt (d : Dnspython) (w : Octets) (ttl : UInt32) : Prop :=
  (∃ query o, d.messageFromWire w = .ok query ∧ query.opt = some o ∧ o.ednsflags = ttl) ∨
    WalkReaches d w ttl

section

variable {d : Dnspython} {w : Octets}

/-- Among records that stand in the query, the walk reaches the first OPT record. -/
theorem reachesOpt_iff {off : Nat} {hs : List RRHeader} (h : RecordsAt (d.NameAt w) w off hs)
    (ttl : UInt32) : ReachesOpt d w hs.length off ttl ↔ ∃ payload, optOf hs = some (payload, ttl) := by
  induction h with
  | nil off =>
    refine iff_of_false (fun h => ?_) ?_
    · cases h
    · rintro ⟨_, h⟩
      cases h
  | @cons off used n t c len ttl' hs hname ht hc httl hlen hin _ ih =>
    have hunpack : unpackRecord w (off + used) = some (t, ttl', len) := by
      simp only [unpackRecord, ht, httl, hlen, Option.bind_eq_bind, Option.bind_some]
      rfl
    rw [List.length_cons]
    -- both look for the first OPT record
    by_cases hopt : t = RRType.OPT
    · subst hopt
      rw [optOf_cons_of_eq rfl]
      constructor
      · intro h
        cases h with
        | here hn hu =>
          rw [Dnspython.NameAt] at hn hname
          rw [hname] at hn
          cases hn
          rw [hunpack] at hu
          cases hu
          exact ⟨c, rfl⟩
        | next hn hu hne =>
          rw [Dnspython.NameAt] at hn hname
          rw [hname] at hn
          cases hn
          rw [hunpack] at hu
          cases hu
          exact absurd rfl hne
      · rintro ⟨payload, h⟩
        cases h
        exact .here hname hunpack
    · rw [optOf_cons_of_ne hopt, ← ih]
      constructor
      · intro h
        obtain ⟨_, _, _, hu, hrest⟩ := h.inv hname
        rw [hunpack] at hu
        cases hu
        exact (hrest hopt).2
      · exact fun h => .next hname hunpack hopt hin h

section

variable (hd : d.Documented) {query : Message}
include hd

/-- The walk reaches the OPT record of a query that was parsed. -/
theorem walkReaches_iff (h : d.messageFromWire w = .ok query) (ttl : UInt32) :
    WalkReaches d w ttl ↔ ∃ o, query.opt = some o ∧ o.ednsflags = ttl := by
  obtain ⟨hdr, stop, hs, hh, -, -, hlen, hquestions, hcount, hrecords, hopt⟩ :=
    hd.messageFromWire_header _ _ h
  have hreach : WalkReaches d w ttl ↔ ReachesOpt d w hs.length stop ttl := by
    rw [hcount]
    constructor
    · rintro ⟨hdr', qs, stop', hh', hlen', hquestions', hreach⟩
      rw [hh] at hh'
      cases hh'
      rwa [questionsAt_stop_unique hquestions hquestions' (hlen'.trans hlen.symm)] at hreach
    · exact fun hreach => ⟨hdr, query.question, stop, hh, hlen, hquestions, hreach⟩
  rw [hreach, reachesOpt_iff hrecords, ← hopt]
  constructor
  · rintro ⟨payload, hwords⟩
    obtain ⟨o, ho, heq⟩ := Option.map_eq_some_iff.mp hwords
    exact ⟨o, ho, congrArg Prod.snd heq⟩
  · rintro ⟨o, ho, rfl⟩
    exact ⟨o.payload, by rw [ho]; rfl⟩

/-- Both ways to an OPT record find the same. -/
theorem hasOpt_iff_walkReaches (ttl : UInt32) : HasOpt d w ttl ↔ WalkReaches d w ttl := by
  constructor
  · rintro (⟨query, o, hparse, ho, httl⟩ | hreach)
    · exact (walkReaches_iff hd hparse ttl).mpr ⟨o, ho, httl⟩
    · exact hreach
  · exact Or.inr

theorem hasOpt_iff (h : d.messageFromWire w = .ok query) (ttl : UInt32) :
    HasOpt d w ttl ↔ ∃ o, query.opt = some o ∧ o.ednsflags = ttl := by
  rw [hasOpt_iff_walkReaches hd, walkReaches_iff hd h]

end

end

/-! ### The envelope -/

/-- The response codes of replies without records. -/
def errorRcodes : List UInt16 := [Rcode.NOTIMP, Rcode.FORMERR, Rcode.BADVERS, Rcode.REFUSED]

/-- The envelope that the query `w` with the header `h` determines for its reply `m`. -/
structure Envelope (d : Dnspython) (w : Octets) (h : Header) (m : Message) : Prop where
  id : m.id = h.id
  qr : hasFlag m.flags Flag.QR
  opcode : opcodeOf m.flags = opcodeOf h.flags
  rd : hasFlag m.flags Flag.RD ↔ hasFlag h.flags Flag.RD
  ra : ¬ hasFlag m.flags Flag.RA
  ad : ¬ hasFlag m.flags Flag.AD
  reserved : ¬ hasFlag m.flags Flag.Z
  question : m.question = [] ∨ ∃ q asked stop, m.question = [q] ∧ opcodeOf h.flags = 0 ∧
    h.qdcount = 1 ∧ QuestionsAt (d.NameAt w) w 12 [asked] stop ∧ q.SameAs asked
  opt : ∀ o, m.opt = some o → o.version = 0 ∧ o.options = [] ∧
    ∃ ttl, HasOpt d w ttl ∧ o.ednsflags &&& 0xFFFF = ttl &&& Flag.DO
  hasOpt : ∀ ttl, HasOpt d w ttl → m.opt ≠ none
  empty : m.rcode ∈ errorRcodes → m.answer = [] ∧ m.authority = [] ∧ m.additional = []

/-- The flags of a reply on the wire that are fixed by its query. -/
def wireMask : UInt16 := 0xF9E0

/-- Flags, question, OPT record and errors of a reply, from which the envelope follows. -/
structure Enveloped (d : Dnspython) (w : Octets) (h : Header) (m : Message) : Prop where
  id : m.id = h.id
  flags : m.flags &&& wireMask = Flag.QR ||| (h.flags &&& copiedMask)
  question : m.question = [] ∨ ∃ q stop, m.question = [q] ∧ opcodeOf h.flags = 0 ∧
    h.qdcount = 1 ∧ QuestionsAt (d.NameAt w) w 12 [q] stop
  opt : ∀ o, m.opt = some o → o.options = [] ∧ ∃ ttl, HasOpt d w ttl ∧
    (o.ednsflags = ttl &&& Flag.DO ∨ o.ednsflags = (ttl &&& Flag.DO) ||| 0x01000000)
  hasOpt : ∀ ttl, HasOpt d w ttl → m.opt ≠ none
  empty : m.rcode ∈ errorRcodes → m.answer = [] ∧ m.authority = [] ∧ m.additional = []

theorem and_do_cases (e : UInt32) : e &&& Flag.DO = 0 ∨ e &&& Flag.DO = Flag.DO := by
  have h : (e &&& Flag.DO).toNat = (e.toNat.testBit 15).toNat * 2 ^ 15 := by
    rw [UInt32.toNat_and]
    exact Nat.and_two_pow e.toNat 15
  cases hbit : e.toNat.testBit 15 with
  | false =>
    rw [hbit, Bool.toNat_false, Nat.zero_mul] at h
    exact Or.inl (UInt32.toNat_inj.mp h)
  | true =>
    rw [hbit] at h
    exact Or.inr (UInt32.toNat_inj.mp h)

section

variable {d : Dnspython} {w : Octets} {h : Header} {m : Message}

/-- A message that reads like one in the envelope is in the envelope. -/
theorem Enveloped.envelope (hm : Enveloped d w h m) {sent : Message} (hsame : sent.SameAs m) :
    Envelope d w h sent := by
  have hflags : sent.flags &&& wireMask = Flag.QR ||| (h.flags &&& copiedMask) := by
    rw [hsame.flags, hm.flags]
  have hclear : ∀ mask, wireMask &&& mask = mask → Flag.QR &&& mask = 0 → copiedMask &&& mask = 0 →
      ¬ hasFlag sent.flags mask := by
    intro mask h1 h2 h3
    rw [hasFlag, and_eq_of_fixed hflags h1, h2, h3, UInt16.and_zero]
    exact fun h => h rfl
  have hcopied : ∀ mask, wireMask &&& mask = mask → Flag.QR &&& mask = 0 →
      copiedMask &&& mask = mask → sent.flags &&& mask = h.flags &&& mask := by
    intro mask h1 h2 h3
    rw [and_eq_of_fixed hflags h1, h2, h3, UInt16.zero_or]
  refine ⟨hsame.id.trans hm.id, ?_, ?_, ?_, hclear _ (by decide) (by decide) (by decide),
    hclear _ (by decide) (by decide) (by decide), hclear _ (by decide) (by decide) (by decide),
    ?_, ?_, ?_, ?_⟩
  · have h1 : Flag.QR &&& Flag.QR = Flag.QR := by decide
    have h2 : copiedMask &&& Flag.QR = 0 := by decide
    rw [hasFlag, and_eq_of_fixed hflags (by decide), h1, h2, UInt16.and_zero, UInt16.or_zero]
    decide
  · rw [opcodeOf, opcodeOf, hcopied _ (by decide) (by decide) (by decide)]
  · rw [hasFlag, hasFlag, hcopied _ (by decide) (by decide) (by decide)]
  · have hquestion := hsame.question
    rcases hm.question with hnil | ⟨q, stop, hq, hrest⟩
    · rw [hnil] at hquestion
      exact Or.inl (List.forall₂_nil_right_iff.mp hquestion)
    · rw [hq] at hquestion
      obtain ⟨q', qs, hqq, hqs, heq⟩ := List.forall₂_cons_right_iff.mp hquestion
      rw [List.forall₂_nil_right_iff.mp hqs] at heq
      exact Or.inr ⟨q', q, stop, heq, hrest.1, hrest.2.1, hrest.2.2, hqq⟩
  · intro o ho
    rw [hsame.opt] at ho
    obtain ⟨hoptions, ttl, httl, hword⟩ := hm.opt o ho
    -- the flags are none or DO, with or without the upper bits of BADVERS
    have hdo := and_do_cases ttl
    refine ⟨?_, hoptions, ttl, httl, ?_⟩
    · rw [Opt.version]
      rcases hword with hword | hword <;> rcases hdo with hdo | hdo <;> rw [hword, hdo] <;> decide
    · rcases hword with hword | hword <;> rcases hdo with hdo | hdo <;> rw [hword, hdo] <;> decide
  · intro ttl httl
    rw [hsame.opt]
    exact hm.hasOpt ttl httl
  · intro hrcode
    have hsameRcode : sent.rcode = m.rcode := by
      rw [Message.rcode, Message.rcode, Message.ednsflags, Message.ednsflags, hsame.opt, hsame.flags]
    rw [hsameRcode] at hrcode
    obtain ⟨h1, h2, h3⟩ := hm.empty hrcode
    have hanswer := hsame.answer
    have hauthority := hsame.authority
    have hadditional := hsame.additional
    rw [h1] at hanswer
    rw [h2] at hauthority
    rw [h3] at hadditional
    exact ⟨List.forall₂_nil_right_iff.mp hanswer, List.forall₂_nil_right_iff.mp hauthority,
      List.forall₂_nil_right_iff.mp hadditional⟩

theorem wireMask_flags {query reply : UInt16} (h : IsReplyTo query reply) :
    reply &&& wireMask = Flag.QR ||| (query &&& copiedMask) := by
  have h1 : Flag.QR &&& wireMask = Flag.QR := by decide
  have h2 : copiedMask &&& wireMask = copiedMask := by decide
  rw [h.and_eq (by decide), h1, h2]

/-- What is recovered is in the envelope. -/
theorem Recovered.enveloped (hd : d.Documented) (hh : readHeader w = some h) {rcode : UInt16}
    (hm : Recovered d w h rcode m) : Enveloped d w h m := by
  refine ⟨hm.id, wireMask_flags hm.isReplyTo, ?_, fun o ho => ?_, fun ttl httl => ?_,
    fun _ => ⟨hm.answer, hm.authority, hm.additional⟩⟩
  · cases hq : m.question with
    | nil => exact Or.inl rfl
    | cons q qs =>
      have hle := hm.question_le
      rw [hq, List.length_cons] at hle
      obtain ⟨hop, hcount, stop, hat⟩ := hm.question q (by rw [hq]; exact List.mem_cons_self)
      rw [List.length_eq_zero_iff.mp (by omega : qs.length = 0)]
      exact Or.inr ⟨q, stop, rfl, hop, hcount, hat⟩
  · obtain ⟨qs, stop, ttl, hlen, hat, hreach, rfl⟩ := hm.reached o ho
    exact ⟨rfl, ttl, Or.inr ⟨h, qs, stop, hh, hlen, hat, hreach⟩, Or.inl rfl⟩
  · obtain ⟨h', qs, stop, hh', hlen, hat, hreach⟩ := (hasOpt_iff_walkReaches hd ttl).mp httl
    rw [hh] at hh'
    cases hh'
    exact hm.reaches qs stop ttl hlen hat hreach

end

/-! ### The response to a parsed query -/

section

variable {d : Dnspython} {query s response : Message}

theorem ResponseCase.id_eq (h : ResponseCase d query s (.ok response)) : response.id = s.id := by
  cases h with
  | badVersion => exact Message.setRcode_id ..
  | formErr => exact Message.setRcode_id ..
  | question _ _ hcase =>
    cases hcase with
    | refused => exact Message.setRcode_id ..
    | resolved => exact concluded_id ..

theorem ResponseCase.question_cases (hs : Skeleton query s)
    (h : ResponseCase d query s (.ok response)) :
    response.question = [] ∨ ∃ q, query.question = [q] ∧ response.question = [q] := by
  cases h with
  | badVersion hq =>
    rw [Message.setRcode_question, hs.question]
    exact Or.inr ⟨_, hq, hq⟩
  | formErr => exact Or.inl (Message.setRcode_question ..)
  | question hq _ hcase =>
    refine Or.inr ⟨_, hq, ?_⟩
    cases hcase with
    | refused => rw [Message.setRcode_question, hs.question, hq]
    | resolved => rw [concluded_question, hs.question, hq]

/-- The OPT record of a response; an extended response code stands above its version. -/
theorem ResponseCase.opt_cases (hs : Skeleton query s) (h : ResponseCase d query s (.ok response)) :
    response.opt = s.opt ∨ ∃ o, query.opt = some o ∧
      response.opt = some ⟨1232, (o.ednsflags &&& Flag.DO) ||| 0x01000000, []⟩ := by
  cases h with
  | badVersion _ hedns =>
    -- the upper bits of BADVERS go into the OPT record
    obtain ⟨o, ho⟩ := Option.ne_none_iff_exists'.mp
      ((edns_nonneg_iff query).mp (Int.le_of_lt hedns))
    have hopt := hs.opt
    rw [ho, Option.map_some, Option.map_some] at hopt
    have hword : ((o.ednsflags &&& Flag.DO) &&& (0x00FFFFFF : UInt32))
        = o.ednsflags &&& Flag.DO := by
      rw [UInt32.and_assoc]
      rfl
    refine Or.inr ⟨o, ho, ?_⟩
    rw [Message.setRcode, Message.setEdnsflags]
    dsimp only
    rw [hopt]
    dsimp only [replyOpt]
    rw [Message.ednsflags, hopt]
    dsimp only [replyOpt]
    rw [hword]
    rfl
  | formErr =>
    exact Or.inl (IsReplyOpt.opt_setRcode (m := { s with question := [] }) hs.isReplyOpt (by decide))
  | question _ _ hcase =>
    cases hcase with
    | refused => exact Or.inl (hs.isReplyOpt.opt_setRcode (by decide))
    | resolved _ _ _ _ hres => exact Or.inl (hres.opt_concluded hs)

/-- A response with an error code has no records. -/
theorem ResponseCase.empty (hs : Skeleton query s) (h : ResponseCase d query s (.ok response))
    (hrcode : response.rcode ∈ errorRcodes) :
    response.answer = [] ∧ response.authority = [] ∧ response.additional = [] := by
  have hsetRcode : ∀ (m : Message) (rcode : UInt16), m.answer = [] → m.authority = [] →
      m.additional = [] → (m.setRcode rcode).answer = [] ∧ (m.setRcode rcode).authority = [] ∧
        (m.setRcode rcode).additional = [] := by
    intro m rcode h1 h2 h3
    rw [Message.setRcode_answer, Message.setRcode_authority, Message.setRcode_additional]
    exact ⟨h1, h2, h3⟩
  cases h with
  | badVersion => exact hsetRcode s _ hs.answer hs.authority hs.additional
  | formErr => exact hsetRcode { s with question := [] } _ hs.answer hs.authority hs.additional
  | question _ _ hcase =>
    cases hcase with
    | refused => exact hsetRcode s _ hs.answer hs.authority hs.additional
    | @resolved z front key cut n chain c _ _ _ _ hres =>
      obtain ⟨hc, hanswer, hauthority, hadditional⟩ := hres.concluded_parts hs
      rw [hc] at hrcode
      -- the only error that ends a chain is a refusal
      have hrefused := (by decide : ∀ r ∈ conclusionRcodes, r ∈ errorRcodes → r = Rcode.REFUSED) _
        hres.rcode_mem hrcode
      obtain ⟨rfl, rfl⟩ := hres.of_refused hrefused
      exact ⟨hanswer, hauthority, hadditional⟩

theorem limited_rcode (m : Message) (size : Nat) : (limited d m size).rcode = m.rcode := by
  rw [Message.rcode, Message.rcode, Message.ednsflags, Message.ednsflags, limited_opt,
    limited_flags_and m size (by decide)]

/-- What is left of a response to a parsed query is in the envelope. -/
theorem ResponseCase.enveloped (hd : d.Documented) {w : Octets} {h : Header}
    (hparse : d.messageFromWire w = .ok query) (hh : readHeader w = some h)
    (hop : opcodeOf query.flags = 0) (hs : Skeleton query s)
    (hcase : ResponseCase d query s (.ok response)) (size : Nat) :
    Enveloped d w h (limited d response size) := by
  have hsend := hcase.sendable hd hs hop rfl
  obtain ⟨h', stop, _, hh', hid, hflags, hlen, hquestions, -⟩ := hd.messageFromWire_header _ _ hparse
  rw [hh] at hh'
  cases hh'
  refine ⟨?_, ?_, ?_, fun o ho => ?_, fun ttl httl => ?_, fun hrcode => ?_⟩
  · rw [limited_id, hcase.id_eq, hs.id, hid]
  · rw [limited_flags_and response size (by decide), wireMask_flags hsend.isReplyTo, hflags]
  · rw [limited_question]
    rcases hcase.question_cases hs with hnil | ⟨q, hq, hq'⟩
    · exact Or.inl hnil
    · rw [hq] at hlen hquestions
      refine Or.inr ⟨q, stop, hq', hflags ▸ hop, ?_, hquestions⟩
      exact UInt16.toNat_inj.mp hlen.symm
  · rw [limited_opt] at ho
    rcases hcase.opt_cases hs with hopt | ⟨o', ho', hopt⟩
    · rw [hopt, hs.opt] at ho
      obtain ⟨ttl, httl, rfl⟩ := Option.map_eq_some_iff.mp ho
      obtain ⟨o', ho', rfl⟩ := Option.map_eq_some_iff.mp httl
      exact ⟨rfl, _, Or.inl ⟨query, o', hparse, ho', rfl⟩, Or.inl rfl⟩
    · rw [hopt] at ho
      cases ho
      exact ⟨rfl, _, Or.inl ⟨query, o', hparse, ho', rfl⟩, Or.inr rfl⟩
  · rw [limited_opt]
    obtain ⟨o, ho, -⟩ := (hasOpt_iff hd hparse ttl).mp httl
    rcases hcase.opt_cases hs with hopt | ⟨_, _, hopt⟩
    · rw [hopt, hs.opt, ho]
      exact Option.some_ne_none _
    · rw [hopt]
      exact Option.some_ne_none _
  · rw [limited_rcode] at hrcode
    obtain ⟨h1, h2, h3⟩ := hcase.empty hs hrcode
    obtain ⟨p1, p2, p3⟩ := limited_isPrefix (d := d) response size
    rw [h1] at p1
    rw [h2] at p2
    rw [h3] at p3
    exact ⟨List.prefix_nil.mp p1, List.prefix_nil.mp p2, List.prefix_nil.mp p3⟩

/-! ### Sizes and identifiers -/

theorem take_render (hd : d.Documented) (m : Message) : (d.render m).take 2 = packU16 m.id := by
  obtain ⟨t, ht⟩ := (hd.render_header m).1
  have hdrop : (d.render m).drop 0 = d.render m := rfl
  rw [hdrop] at ht
  rw [← ht, List.append_assoc]
  rfl

theorem take_of_readHeader {w : Octets} {h : Header} (hh : readHeader w = some h) :
    w.take 2 = packU16 h.id := by
  obtain ⟨t, ht⟩ := readU16_eq_some_iff.mp (readHeader_eq_some hh).1
  have hdrop : w.drop 0 = w := rfl
  rw [hdrop] at ht
  rw [← ht]
  rfl

/-- **A reply is a message in the envelope** of its query, rendered in at most 65535 octets.  The query
is not itself a response. -/
theorem answerFresh_rendered (hd : d.Documented) {w r : Octets} {tcp : Bool}
    (h : answerFresh d w tcp = .ok r) (hne : r ≠ []) :
    ∃ hdr m, readHeader w = some hdr ∧ ¬ hasFlag hdr.flags Flag.QR ∧ r = d.render m ∧
      d.Renderable m ∧ (d.render m).length ≤ 65535 ∧ Enveloped d w hdr m := by
  have hrecovered : ∀ {hdr : Header} {m : Message} {rcode : UInt16}, readHeader w = some hdr →
      Recovered d w hdr rcode m → d.Renderable m ∧ (d.render m).length ≤ 65535 ∧
        Enveloped d w hdr m := by
    intro hdr m rcode hh hm
    have hsend := hm.sendable
    exact ⟨hsend.renderable, Nat.le_trans (hd.render_length _ hsend.renderable) hsend.size,
      hm.enveloped hd hh⟩
  have hcase := answerFresh_cases hd w
  revert h hcase
  generalize answerFresh d w = f
  intro h hcase
  cases hcase with
  | ignored =>
    cases h
    exact absurd rfl hne
  | @notImplemented hdr m hh hqr _ hm =>
    cases h
    exact ⟨hdr, m, hh, hqr, rfl, hrecovered hh hm⟩
  | @malformed hdr e m hh hqr _ _ hm =>
    cases h
    exact ⟨hdr, m, hh, hqr, rfl, hrecovered hh hm⟩
  | @answered query s response hparse hqr hop hs hresponse =>
    cases h
    obtain ⟨hdr, hh, -, hflags, -⟩ := readHeader_of_parse hd hparse
    have hsend := hresponse.sendable hd hs hop rfl
    obtain ⟨hlow, hhigh⟩ := replySize_bounds query tcp
    exact ⟨hdr, _, hh, hflags ▸ hqr, rfl, renderable_limited hsend.renderable _,
      Nat.le_trans (length_render_limited_le hd hsend.renderable hlow) hhigh,
      hresponse.enveloped hd hparse hh hop hs _⟩
  | raised => cases h

/-- A reply has a whole header with the identifier of its query, and fits a frame. -/
theorem answerFresh_reply (hd : d.Documented) {w r : Octets} {tcp : Bool}
    (h : answerFresh d w tcp = .ok r) (hne : r ≠ []) : 12 ≤ r.length ∧ r.length ≤ 65535 ∧
      r.take 2 = w.take 2 ∧ ∃ hdr, readHeader w = some hdr ∧ ¬ hasFlag hdr.flags Flag.QR := by
  obtain ⟨hdr, m, hh, hqr, rfl, -, hlen, hm⟩ := answerFresh_rendered hd h hne
  refine ⟨(hd.render_header m).2, hlen, ?_, hdr, hh, hqr⟩
  rw [take_render hd, take_of_readHeader hh, hm.id]

end

/-- **The envelope of every reply** is that of its query. -/
theorem answerFresh_envelope {d : Dnspython} (hd : d.Documented) {w r : Octets} {tcp : Bool}
    (h : answerFresh d w tcp = .ok r) (hne : r ≠ []) : 12 ≤ w.length ∧
      ∃ hdr m, readHeader w = some hdr ∧ ¬ hasFlag hdr.flags Flag.QR ∧
        d.messageFromWire r = .ok m ∧ Envelope d w hdr m := by
  obtain ⟨hdr, m, hh, hqr, rfl, hrend, hlen, hm⟩ := answerFresh_rendered hd h hne
  have hwhole : 12 ≤ w.length := (readHeader_isSome_iff w).mp (by rw [hh]; rfl)
  -- what was rendered reads as a message like it
  obtain ⟨m', hparse, hsame⟩ := hd.render_decodes m hrend hlen
  exact ⟨hwhole, hdr, m', hh, hqr, hparse, hm.envelope hsame⟩

/-- A query for the addresses of `a`. -/
theorem answerFresh_envelope_a : ∃ r hdr m,
    answerFresh Reference.dnspython (Reference.askKey "a" RRType.A) true = .ok r ∧
      readHeader (Reference.askKey "a" RRType.A) = some hdr ∧
      Reference.dnspython.messageFromWire r = .ok m ∧
      Envelope Reference.dnspython (Reference.askKey "a" RRType.A) hdr m := by
  have hne : answerFresh Reference.dnspython (Reference.askKey "a" RRType.A) true ≠ .ok [] := by
    decide +kernel
  obtain ⟨r, hr⟩ := Reference.exists_of_isOk (x := answerFresh Reference.dnspython
    (Reference.askKey "a" RRType.A) true) (by decide +kernel)
  obtain ⟨-, hdr, m, hh, -, hm, henv⟩ := answerFresh_envelope Reference.documented hr
    fun hnil => hne (by rw [hr, hnil])
  exact ⟨r, hdr, m, hr, hh, hm, henv⟩

end DnsFixtures
