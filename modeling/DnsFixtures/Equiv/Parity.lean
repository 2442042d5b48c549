import DnsFixtures.Equiv.AnswerFresh
import DnsFixtures.Reference

/-!
# The replies over UDP and TCP

Both transports send the same response, over UDP within the limit that the query announces
(`udpLimit`).  `answerFresh_parity`: the reply over TCP is complete, and that over UDP either says the
same (`SameReply`) or has TC set and misses an RRset.
-/

namespace DnsFixtures

open Dns

/-- The limit on a UDP reply: 512 octets, or what the OPT record of the query advertises. -/
def udpLimit (d : Dnspython) (w : Octets) : Nat :=
  match d.messageFromWire w with
  | .error _ => 512
  | .ok query =>
    match query.opt with
    | none => 512
    | some o => max 512 (min o.payload.toNat 4096)

/-- The reply `u` says what the reply `t` says, but for additional records behind the first ones.
A referral has all of them. -/
structure SameReply (u t : Message) : Prop where
  id : u.id = t.id
  flags : u.flags = t.flags
  rcode : u.rcode = t.rcode
  question : List.Forall₂ Question.SameAs u.question t.question
  answer : List.Forall₂ RRset.SameAs u.answer t.answer
  authority : List.Forall₂ RRset.SameAs u.authority t.authority
  opt : u.opt = t.opt
  additional : ∃ rs, rs <+: t.additional ∧ List.Forall₂ RRset.SameAs u.additional rs
  referral : t.answer = [] → ¬ hasFlag t.flags Flag.AA →
    List.Forall₂ RRset.SameAs u.additional t.additional

/-! ### Limits -/

theorem udpLimit_ge (d : Dnspython) (w : Octets) : 512 ≤ udpLimit d w := by
  unfold udpLimit
  split
  · exact Nat.le_refl 512
  · split
    · exact Nat.le_refl 512
    · exact Nat.le_max_left ..

/-- The limit of a query that was parsed. -/
theorem replySize_eq_udpLimit {d : Dnspython} {w : Octets} {query : Message}
    (h : d.messageFromWire w = .ok query) : replySize query false = udpLimit d w := by
  unfold replySize udpLimit Message.payload
  rw [h]
  dsimp only
  rw [if_neg (by decide)]
  cases ho : query.opt with
  | none =>
    rw [if_neg]
    rw [edns_nonneg_iff]
    exact not_not_intro ho
  | some o =>
    rw [if_pos]
    rw [edns_nonneg_iff, ho]
    exact Option.some_ne_none o

/-! ### Two replies with one response -/

section

variable {α : Type*} {r : α → α → Prop}

theorem forall₂_symm (hr : ∀ a b, r a b → r b a) {as bs : List α} (h : List.Forall₂ r as bs) :
    List.Forall₂ r bs as :=
  List.Forall₂.flip (h.imp hr)

/-- What is the same as a third list is the same. -/
theorem forall₂_of_common (hsymm : ∀ a b, r a b → r b a) (htrans : ∀ a b c, r a b → r b c → r a c)
    {as bs cs : List α} (ha : List.Forall₂ r as cs) (hb : List.Forall₂ r bs cs) :
    List.Forall₂ r as bs :=
  forall₂_trans htrans ha (forall₂_symm hsymm hb)

end

theorem rrsets_of_common {as bs cs : List RRset} (ha : List.Forall₂ RRset.SameAs as cs)
    (hb : List.Forall₂ RRset.SameAs bs cs) : List.Forall₂ RRset.SameAs as bs :=
  forall₂_of_common (r := RRset.SameAs) (fun _ _ => RRset.SameAs.symm)
    (fun _ _ _ => RRset.SameAs.trans) ha hb

section

variable {d : Dnspython} (hd : d.Documented) {query : UInt16} {m : Message} {size : Nat}
include hd

/-- A response that can be sent reads back from a limited and from the whole reply. -/
theorem Sendable.parity (hm : Sendable d query m) (hlow : 512 ≤ size) (hhigh : size ≤ 65535) :
    ∃ mu mt, d.messageFromWire (d.render (limited d m size)) = .ok mu ∧
      d.messageFromWire (d.render m) = .ok mt ∧ ¬ hasFlag mt.flags Flag.TC ∧
      (¬ hasFlag mu.flags Flag.TC → SameReply mu mt) ∧
      (hasFlag mu.flags Flag.TC → ∃ r ∈ mt.rrsets, ∀ s ∈ mu.rrsets, ¬ r.SameKey s) := by
  have htc := hm.isReplyTo.not_tc
  have hlen := Nat.le_trans (length_render_limited_le hd hm.renderable hlow) hhigh
  obtain ⟨mu, hmu, hu⟩ := hd.render_decodes _ (renderable_limited hm.renderable size) hlen
  obtain ⟨mt, hmt, ht⟩ := hd.render_decodes _ hm.renderable
    (Nat.le_trans (hd.render_length _ hm.renderable) hm.size)
  have hopt : mu.opt = mt.opt := by
    rw [hu.opt, ht.opt, limited_opt]
  refine ⟨mu, mt, hmu, hmt, by rwa [ht.flags], fun hno => ?_, fun hyes => ?_⟩
  · rw [hu.flags] at hno
    -- without TC only optional additional records are missing
    obtain ⟨hflags, hans, haut, hadd⟩ := limited_of_not_tc hm.glue hm.renderable hno
    have hflags' : mu.flags = mt.flags := by
      rw [hu.flags, ht.flags, hflags]
    have hquestion := hu.question
    rw [limited_question] at hquestion
    have hanswer := hu.answer
    rw [hans] at hanswer
    have hauthority := hu.authority
    rw [haut] at hauthority
    refine ⟨?_, hflags', ?_, ?_, rrsets_of_common hanswer ht.answer,
      rrsets_of_common hauthority ht.authority, hopt, ?_, ?_⟩
    · rw [hu.id, ht.id, limited_id]
    · rw [Message.rcode, Message.rcode, Message.ednsflags, Message.ednsflags, hopt, hflags']
    · exact forall₂_of_common (r := Question.SameAs) (fun _ _ h => ⟨h.1.symm, h.2.1.symm, h.2.2.symm⟩)
        (fun _ _ _ h h' => ⟨h.1.trans h'.1, h.2.1.trans h'.2.1, h.2.2.trans h'.2.2⟩) hquestion
        ht.question
    · have hprefix := (limited_isPrefix (d := d) m size).2.2
      rw [List.prefix_iff_eq_take] at hprefix
      refine ⟨mt.additional.take (limited d m size).additional.length, List.take_prefix .., ?_⟩
      have htake := List.forall₂_take (limited d m size).additional.length ht.additional
      rw [← hprefix] at htake
      exact rrsets_of_common hu.additional htake
    · intro hnil haa
      rw [ht.flags] at haa
      have hmans : m.answer = [] := by
        have h := ht.answer
        rw [hnil] at h
        exact List.forall₂_nil_left_iff.mp h
      have hadditional := hu.additional
      rw [hadd hmans haa] at hadditional
      exact rrsets_of_common hadditional ht.additional
  · rw [hu.flags] at hyes
    -- with TC some RRset is missing, and reading back does not bring it
    obtain ⟨r, hr, hmissing⟩ := limited_of_tc hm.keys htc hyes
    obtain ⟨r', hr', hrr'⟩ := forall₂_exists_of_mem
      (forall₂_symm (r := RRset.SameAs) (fun _ _ => RRset.SameAs.symm) ht.rrsets) hr
    refine ⟨r', hr', fun s hs hkey => ?_⟩
    obtain ⟨s', hs', hss'⟩ := forall₂_exists_of_mem hu.rrsets hs
    exact hmissing s' hs' (hrr'.sameKey.trans (hkey.trans hss'.sameKey))

/-- **Parity of the transports**: the UDP reply keeps its limit, the TCP reply is complete, and the
UDP reply says the same unless it has TC set; then it misses an RRset. -/
theorem answerFresh_parity {w u t : Octets} (hu : answerFresh d w false = .ok u)
    (ht : answerFresh d w true = .ok t) :
    u.length ≤ udpLimit d w ∧ t.length ≤ 65535 ∧ (u = [] ↔ t = []) ∧
      (u ≠ [] → ∃ mu mt, d.messageFromWire u = .ok mu ∧ d.messageFromWire t = .ok mt ∧
        ¬ hasFlag mt.flags Flag.TC ∧
        (¬ hasFlag mu.flags Flag.TC → SameReply mu mt) ∧
        (hasFlag mu.flags Flag.TC → ∃ r ∈ mt.rrsets, ∀ s ∈ mu.rrsets, ¬ r.SameKey s)) := by
  have hge := udpLimit_ge d w
  -- a response without records is sent whole on both transports
  have hrecovered : ∀ {h : Header} {rcode : UInt16} {m : Message}, Recovered d w h rcode m →
      (d.render m).length ≤ 512 ∧ d.render m = d.render (limited d m 65535) ∧ Sendable d h.flags m := by
    intro h rcode m hm
    have hsend := hm.sendable
    have hsize := size_le_of_sections hm.question_le hm.opt.options
    have hlen := hd.render_length m hsend.renderable
    rw [hm.answer, hm.authority, hm.additional] at hsize
    simp only [sectionSize_nil] at hsize
    exact ⟨by omega, by rw [limited_of_size hd hsend.renderable hsend.size], hsend⟩
  have hcase := answerFresh_cases hd w
  revert hu ht hcase
  generalize answerFresh d w = f
  intro hu ht hcase
  cases hcase with
  | ignored =>
    cases hu
    cases ht
    exact ⟨Nat.zero_le _, Nat.zero_le _, Iff.rfl, fun h => absurd rfl h⟩
  | notImplemented _ _ _ hm =>
    cases hu
    cases ht
    obtain ⟨hlen, heq, hsend⟩ := hrecovered hm
    have hparity := hsend.parity hd (by decide : 512 ≤ 65535) (Nat.le_refl 65535)
    rw [← heq] at hparity
    exact ⟨by omega, by omega, Iff.rfl, fun _ => hparity⟩
  | malformed _ _ _ _ hm =>
    cases hu
    cases ht
    obtain ⟨hlen, heq, hsend⟩ := hrecovered hm
    have hparity := hsend.parity hd (by decide : 512 ≤ 65535) (Nat.le_refl 65535)
    rw [← heq] at hparity
    exact ⟨by omega, by omega, Iff.rfl, fun _ => hparity⟩
  | @answered query s response hparse hqr hop hs hresponse =>
    cases hu
    cases ht
    have hsend := hresponse.sendable hd hs hop rfl
    obtain ⟨hlow, hhigh⟩ := replySize_bounds query false
    have htcp : limited d response (replySize query true) = response :=
      limited_of_size hd hsend.renderable hsend.size
    have hu := length_render_limited_le hd hsend.renderable hlow
    have ht := Nat.le_trans (hd.render_length _ hsend.renderable) hsend.size
    rw [htcp]
    refine ⟨?_, ht, ?_, fun _ => hsend.parity hd hlow hhigh⟩
    · rwa [replySize_eq_udpLimit hparse] at hu ⊢
    · exact iff_of_false (render_ne_nil hd _) (render_ne_nil hd _)
  | raised => cases hu

end

/-- A query without EDNS. -/
theorem answerFresh_parity_multi_a : ∃ u t,
    answerFresh Reference.dnspython (Reference.askKey "multi-a" RRType.A) false = .ok u ∧
    answerFresh Reference.dnspython (Reference.askKey "multi-a" RRType.A) true = .ok t ∧
    u.length ≤ 512 ∧ t.length ≤ 65535 ∧ (u = [] ↔ t = []) := by
  have hlimit : udpLimit Reference.dnspython (Reference.askKey "multi-a" RRType.A) = 512 := by
    decide +kernel
  obtain ⟨u, hu⟩ := Reference.exists_of_isOk (x := answerFresh Reference.dnspython
    (Reference.askKey "multi-a" RRType.A) false) (by decide +kernel)
  obtain ⟨t, ht⟩ := Reference.exists_of_isOk (x := answerFresh Reference.dnspython
    (Reference.askKey "multi-a" RRType.A) true) (by decide +kernel)
  obtain ⟨h1, h2, h3, -⟩ := answerFresh_parity Reference.documented hu ht
  rw [hlimit] at h1
  exact ⟨u, t, hu, ht, h1, h2, h3⟩

end DnsFixtures
