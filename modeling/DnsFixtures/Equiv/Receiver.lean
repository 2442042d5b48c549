import DnsFixtures.Equiv.Selection
import DnsFixtures.Equiv.Transcript

/-!
# Faults as a receiver sees them

`run_serveFreshTcp` says what is written for each key that sends one reply.  Here the octets are read
back as a receiver does, frame by frame (`Seen`): whole replies under the keys that only cut them,
a changed reply, a reply twice, or octets in which no frame is complete.

Two faults depend on the reply: `length-mismatch` declares more octets than there are, and there is
room for that (`ResponseCase.size_le`); `mismatch-question` changes the first letter of the question,
which stands in full behind the header (`SelectsKey.reply`).
-/

namespace DnsFixtures

open Dns

/-! ### Octets without a whole frame -/

/-- No frame is complete. -/
def NoFrame (bs : Octets) : Prop := ∀ p rest, p.length ≤ 65535 → bs ≠ framed p ++ rest

/-- A length and fewer octets than it declares. -/
def IsCut (bs : Octets) : Prop :=
  ∃ (size : UInt16) (body : Octets), bs = packU16 size ++ body ∧ body.length < size.toNat

theorem IsCut.noFrame {bs : Octets} (h : IsCut bs) : NoFrame bs := by
  obtain ⟨size, body, rfl, hlt⟩ := h
  intro p rest hp heq
  rw [framed, List.append_assoc] at heq
  obtain ⟨hsize, hbody⟩ := List.append_inj heq rfl
  rw [packU16_injective hsize, toNat_ofNat_length hp, hbody, List.length_append] at hlt
  omega

theorem IsCut.ne_nil {bs : Octets} (h : IsCut bs) : bs ≠ [] := by
  obtain ⟨size, body, rfl, -⟩ := h
  exact List.cons_ne_nil _ _

/-- The front of a frame is cut. -/
theorem isCut_take_framed {bs : Octets} {n : Nat} (hlen : bs.length ≤ 65535) (hn : n < bs.length) :
    IsCut ((framed bs).take (2 + n)) := by
  refine ⟨UInt16.ofNat bs.length, bs.take n, take_framed bs n, ?_⟩
  rw [toNat_ofNat_length hlen, List.length_take]
  omega

/-! ### The reply for a key -/

section

variable {d : Dnspython} {query s response : Message}

/-- No response is longer than 63322 octets. -/
theorem ResponseCase.size_le (hd : d.Documented) (hs : Skeleton query s)
    (hop : opcodeOf query.flags = 0) (h : ResponseCase d query s (.ok response)) :
    response.size ≤ 63322 := by
  have hsend := h.sendable hd hs hop rfl
  have hsize := size_le_of_sections hsend.renderable.question hsend.renderable.options
  have hempty : ∀ (m : Message) (rcode : UInt16), m.answer = [] → m.authority = [] →
      m.additional = [] → sectionSize (m.setRcode rcode).answer
        + sectionSize (m.setRcode rcode).authority + sectionSize (m.setRcode rcode).additional = 0 := by
    intro m rcode h1 h2 h3
    rw [Message.setRcode_answer, Message.setRcode_authority, Message.setRcode_additional, h1, h2, h3]
    rfl
  cases h with
  | badVersion =>
    have := hempty s Rcode.BADVERS hs.answer hs.authority hs.additional
    omega
  | formErr =>
    have := hempty { s with question := [] } Rcode.FORMERR hs.answer hs.authority hs.additional
    omega
  | question _ _ hcase =>
    cases hcase with
    | refused =>
      have := hempty s Rcode.REFUSED hs.answer hs.authority hs.additional
      omega
    | resolved _ _ _ _ hres =>
      obtain ⟨-, -, -, hsections⟩ := hres.renderable hd _
      rw [concluded_answer, concluded_authority, concluded_additional, hs.authority, hs.additional,
        List.nil_append, List.nil_append] at hsize
      omega

/-- **The reply to a query for a key**: a short message with the question of the query. -/
theorem SelectsKey.reply (hd : d.Documented) {w r : Octets} {key : String} (h : SelectsKey d w key)
    (hreply : answerFresh d w true = .ok r) (hne : r ≠ []) : ∃ z label n kind response used,
      InZone z n [label] ∧ keyOf [label] = some key ∧ d.nameFromWire w 12 = .ok (n, used) ∧
      r = d.render response ∧ response.question = [⟨n, kind, RRClass.IN⟩] ∧ r.length ≤ 63322 := by
  obtain ⟨query, z, label, n, kind, hparse, hop, hq, hz, hkey⟩ := h
  obtain ⟨hdr, stop, _, hh, -, hflags, -, hquestions, -⟩ := hd.messageFromWire_header _ _ hparse
  rw [hq] at hquestions
  cases hquestions with
  | cons hname =>
    have hqr : ¬ hasFlag query.flags Flag.QR := by
      intro hqr
      have hnil := (answerFresh_eq_nil_iff hd true).mpr (Or.inr ⟨hdr, hh, hflags ▸ hqr⟩)
      rw [hreply] at hnil
      exact hne (Except.ok.inj hnil)
    obtain ⟨s, x, hs, hresponse, hrun⟩ := answerFresh_of_parse hd hparse hqr hop
    rw [hrun] at hreply
    cases x with
    | error => cases hreply
    | ok response =>
      have hsend := hresponse.sendable hd hs hop rfl
      have hwhole : limited d response (replySize query true) = response :=
        limited_of_size hd hsend.renderable hsend.size
      have hr : d.render (limited d response (replySize query true)) = r := Except.ok.inj hreply
      rw [hwhole] at hr
      subst hr
      refine ⟨z, label, n, kind, response, _, hz, hkey, hname, rfl, ?_, ?_⟩
      · cases hresponse with
        | badVersion => rw [Message.setRcode_question, hs.question, hq]
        | formErr hlen => exact absurd (by rw [hq, List.length_singleton]) hlen
        | question _ _ hcase =>
          cases hcase with
          | refused => rw [Message.setRcode_question, hs.question, hq]
          | resolved => rw [concluded_question, hs.question, hq]
      · exact Nat.le_trans (hd.render_length _ hsend.renderable) (hresponse.size_le hd hs hop)

theorem selectsKey_of_ne (hd : d.Documented) {w : Octets} {key : String}
    (h : scenario d w = .ok key) (hne : key ≠ "ordinary") : SelectsKey d w key :=
  ((scenario_iff hd).mp h).resolve_right fun h => hne h.1

end

/-! ### Changed replies -/

/-- The identifier behind another one is a different one. -/
theorem packU16_succ_ne (id : UInt16) :
    packU16 (UInt16.ofNat (intFromBytes (packU16 id) + 1)) ≠ packU16 id := by
  intro h
  have hid := id.toNat_lt
  have hint : intFromBytes (packU16 id) = id.toNat := by
    simp only [packU16, intFromBytes, List.foldl_cons, List.foldl_nil, UInt8.toNat_ofNat']
    omega
  have hnat := congrArg UInt16.toNat (packU16_injective h)
  rw [hint, UInt16.toNat_ofNat'] at hnat
  omega

theorem take_changeId_ne {r : Octets} (h : 2 ≤ r.length) : (changeId r).take 2 ≠ r.take 2 := by
  obtain ⟨id, hid⟩ := Option.isSome_iff_exists.mp ((readU16_isSome_iff r 0).mpr h)
  have htake : r.take 2 = packU16 id := by
    have hslice := (readU16_eq_some_iff.mp hid).slice
    rwa [List.drop_zero, length_packU16] at hslice
  rw [changeId, htake]
  exact packU16_succ_ne id

theorem drop_changeId (r : Octets) : (changeId r).drop 2 = r.drop 2 := rfl

/-- A name whose first letter is replaced by another one. -/
theorem changeQuestion_of_holdsAt {r : Octets} {h : Header} {c : UInt8} {cs : Label}
    {ls : List Label} {kind : UInt16} {n : Name} (hn : n.labels = (c :: cs) :: ls)
    (hr : HoldsAt r 0 (writeHeader h ++ writeQuestion ⟨n, kind, RRClass.IN⟩)) :
    changeQuestion r = r.set 13 122 ∧ r[13]? = some c ∧
      HoldsAt (changeQuestion r) 12 (wireLabels ((122 :: cs) :: ls)) := by
  obtain ⟨rest, hrest⟩ := hr
  -- fourteen octets, the last one the first letter of the name
  obtain ⟨front, hfront, hlen, hlast⟩ : ∃ front, r = front ++ c :: (cs ++ wireLabels ls ++
      (packU16 kind ++ packU16 RRClass.IN ++ rest)) ∧ front.length = 13 ∧
      front.drop 12 = [UInt8.ofNat (cs.length + 1)] := by
    refine ⟨writeHeader h ++ [UInt8.ofNat (cs.length + 1)], ?_, rfl, rfl⟩
    rw [List.drop_zero] at hrest
    rw [← hrest, writeQuestion, hn, wireLabels_cons]
    simp only [List.append_assoc, List.cons_append, List.nil_append, List.length_cons]
  have hset : changeQuestion r = r.set 13 122 := by
    unfold changeQuestion
    rw [if_pos]
    rw [hfront, List.length_append, hlen, List.length_cons]
    omega
  refine ⟨hset, ?_, ?_⟩
  · rw [hfront, List.getElem?_append_right (by omega), hlen]
    rfl
  · rw [hset, hfront, List.set_append_right _ _ (by omega), hlen]
    refine ⟨packU16 kind ++ packU16 RRClass.IN ++ rest, ?_⟩
    rw [List.drop_append_of_le_length (by omega), hlast, wireLabels_cons]
    simp only [List.append_assoc, List.cons_append, List.nil_append, List.length_cons,
      List.set_cons_zero, Nat.sub_self]

/-! ### What is seen -/

/-- What a receiver sees of the reply `r` to the query `q`: the octets sent for the key, and whether
the connection is kept. -/
inductive Seen (d : Dnspython) (q r : Octets) : String → Octets → Bool → Prop
  | whole {key : String} : key ∉ closingKeys → Seen d q r key (framed r) true
  | nothing {key : String} : key ∈ ["close-before", "stall"] → Seen d q r key [] false
  | cut {key : String} {bs : Octets} : key ∈ ["close-prefix", "close-body", "length-mismatch"] →
      bs ≠ [] → IsCut bs → NoFrame bs → Seen d q r key bs false
  | otherId {r' : Octets} : r'.length = r.length → r'.drop 2 = r.drop 2 → r'.take 2 ≠ q.take 2 →
      Seen d q r "mismatch-id" (framed r') false
  | otherQuestion {r' : Octets} {i : Nat} {b : UInt8} {n n' : Name} {used used' : Nat} :
      r' = r.set i b → r'.take 2 = q.take 2 → d.nameFromWire q 12 = .ok (n, used) →
      d.nameFromWire r' 12 = .ok (n', used') → ¬ n'.SameAs n →
      Seen d q r "mismatch-question" (framed r') false
  | twice : Seen d q r "duplicate" (framed r ++ framed r) false
  | trailing {bs : Octets} : bs ≠ [] → NoFrame bs → Seen d q r "trailing" (framed r ++ bs) false

/-- The reply under `mismatch-question`. -/
theorem seen_changeQuestion {d : Dnspython} (hd : d.Documented) (hwrites : d.WritesQuestion)
    {q r : Octets} (hkey : scenario d q = .ok "mismatch-question")
    (hreply : answerFresh d q true = .ok r) (hne : r ≠ []) :
    Seen d q r "mismatch-question" (framed (changeQuestion r)) false := by
  obtain ⟨z, label, n, kind, response, used, hz, hlabel, hname, rfl, hquestion, -⟩ :=
    (selectsKey_of_ne hd hkey (by decide)).reply hd hreply hne
  obtain ⟨-, hlower⟩ := (@keyOf_concat_iff [] _ _).mp hlabel
  obtain ⟨suffix, hlabels, -⟩ := hz.labels
  -- the label starts with an `m`, in either case
  obtain ⟨c, cs, rfl, hc⟩ : ∃ c cs, label = c :: cs ∧ lowerOctet c = 109 := by
    cases label with
    | nil => exact absurd hlower (by decide)
    | cons c cs => exact ⟨c, cs, rfl, (List.cons.inj hlower).1.symm⟩
  have hheld := hwrites response _ (by rw [hquestion]; rfl)
  obtain ⟨hset, -, hheld'⟩ := changeQuestion_of_holdsAt hlabels hheld
  have hlegal : LegalLabels ((122 :: cs) :: suffix) := by
    have hn := n.legal
    rw [hlabels] at hn
    refine ⟨?_, ?_, ?_⟩
    · intro l hl
      rcases List.mem_cons.mp hl with rfl | hl
      · exact List.cons_ne_nil _ _
      · exact hn.label_ne_nil l (List.mem_cons_of_mem _ hl)
    · intro l hl
      rcases List.mem_cons.mp hl with rfl | hl
      · exact hn.label_le (c :: cs) List.mem_cons_self
      · exact hn.label_le l (List.mem_cons_of_mem _ hl)
    · exact hn.total_le
  refine .otherQuestion hset ?_ hname (hd.nameFromWire_plain _ 12 ⟨_, hlegal⟩ hheld') ?_
  · rw [hset, List.take_set_of_le (by decide)]
    exact (answerFresh_reply hd hreply hne).2.2.1
  · intro hsame
    have hfold : foldCase ((122 :: cs) :: suffix) = foldCase n.labels := hsame
    rw [hlabels] at hfold
    have hhead : lowerOctet 122 = lowerOctet c := (List.cons.inj (List.cons.inj hfold).1).1
    rw [hc] at hhead
    exact absurd hhead (by decide)

/-- **Faults as a receiver sees them**, for every key that sends one reply. -/
theorem seen_serveFreshTcp {d : Dnspython} (hd : d.Documented) (hwrites : d.WritesQuestion)
    {q r : Octets} {key : String} (hkey : scenario d q = .ok key) (hbatch : key ∉ batchKeys)
    (hreply : answerFresh d q true = .ok r) (hne : r ≠ []) (s : Sock) :
    ∃ parts reuse, (serveFreshTcp d q).run s
        = (.ok reuse, { s with written := s.written ++ parts }) ∧ Seen d q r key parts.flatten reuse := by
  obtain ⟨h12, hlen, hid, -⟩ := answerFresh_reply hd hreply hne
  have hroom : key = "length-mismatch" → r.length + 16 ≤ 65535 := by
    rintro rfl
    obtain ⟨_, _, _, _, _, _, -, -, -, -, -, hle⟩ :=
      (selectsKey_of_ne hd hkey (by decide)).reply hd hreply hne
    omega
  refine ⟨_, _, run_serveFreshTcp hkey hreply (by omega) hlen hbatch hroom s, ?_⟩
  unfold delivery
  by_cases hclose : key ∈ ["close-before", "stall"]
  · rw [if_pos hclose]
    exact .nothing hclose
  rw [if_neg hclose]
  by_cases hprefix : key = "close-prefix"
  · subst hprefix
    have hcut : IsCut ((framed r).take 2) := @isCut_take_framed r 0 hlen (by omega)
    rw [if_pos rfl, List.flatten_singleton]
    exact .cut (by decide) hcut.ne_nil hcut hcut.noFrame
  rw [if_neg hprefix]
  by_cases hbody : key = "close-body"
  · subst hbody
    have hcut : IsCut ((framed r).take (2 + r.length / 2)) := isCut_take_framed hlen (by omega)
    rw [if_pos rfl, List.flatten_singleton]
    exact .cut (by decide) hcut.ne_nil hcut hcut.noFrame
  rw [if_neg hbody]
  by_cases hlength : key = "length-mismatch"
  · have hcut : IsCut (packU16 (UInt16.ofNat (r.length + 16)) ++ r) := by
      refine ⟨_, r, rfl, ?_⟩
      have := hroom hlength
      rw [UInt16.toNat_ofNat', Nat.mod_eq_of_lt (by omega)]
      omega
    rw [if_pos hlength, List.flatten_singleton, hlength]
    exact .cut (by decide) hcut.ne_nil hcut hcut.noFrame
  rw [if_neg hlength]
  by_cases hid' : key = "mismatch-id"
  · rw [if_pos hid', List.flatten_singleton, hid']
    refine .otherId (length_changeId (by omega)) (drop_changeId r) ?_
    rw [← hid]
    exact take_changeId_ne (by omega)
  rw [if_neg hid']
  by_cases hquestion : key = "mismatch-question"
  · subst hquestion
    rw [if_pos rfl, List.flatten_singleton]
    exact seen_changeQuestion hd hwrites hkey hreply hne
  rw [if_neg hquestion]
  by_cases htwice : key = "duplicate"
  · rw [if_pos htwice, htwice]
    show Seen d q r _ (framed r ++ (framed r ++ [])) _
    rw [List.append_nil]
    exact .twice
  rw [if_neg htwice]
  by_cases htrailing : key = "trailing"
  · have hcut : IsCut ([0, 16] ++ textOctets "garbage") := ⟨16, textOctets "garbage", rfl, by decide⟩
    rw [if_pos htrailing, htrailing]
    show Seen d q r _ (framed r ++ ([0, 16] ++ textOctets "garbage" ++ [])) _
    rw [List.append_nil]
    exact .trailing hcut.ne_nil hcut.noFrame
  rw [if_neg htrailing]
  show Seen d q r key (frameParts key (framed r)).flatten true
  rw [flatten_frameParts]
  refine .whole ?_
  simp only [List.mem_cons, List.not_mem_nil, or_false, not_or] at hclose
  simp only [closingKeys, List.mem_cons, List.not_mem_nil, or_false, not_or]
  exact ⟨hclose.1, hclose.2, hprefix, hbody, hlength, hid', hquestion, htwice, htrailing⟩

/-- A query for `mismatch-question`, its first letter a capital. -/
theorem seen_serveFreshTcp_mismatchQuestion : ∃ r reuse parts s',
    answerFresh Reference.dnspython (Reference.askKey "Mismatch-question" RRType.A) true = .ok r ∧
    (serveFreshTcp Reference.dnspython (Reference.askKey "Mismatch-question" RRType.A)).run
      ⟨⟨[], [], .closed⟩, []⟩ = (.ok reuse, s') ∧ s'.written = parts ∧
    Seen Reference.dnspython (Reference.askKey "Mismatch-question" RRType.A) r "mismatch-question"
      parts.flatten reuse := by
  obtain ⟨r, hreply⟩ := Reference.exists_of_isOk (by decide +kernel :
    (answerFresh Reference.dnspython (Reference.askKey "Mismatch-question" RRType.A) true).isOk = true)
  have hkey : scenario Reference.dnspython (Reference.askKey "Mismatch-question" RRType.A)
      = .ok "mismatch-question" := by decide +kernel
  obtain ⟨parts, reuse, hrun, hseen⟩ := seen_serveFreshTcp Reference.documented
    Reference.writesQuestion hkey (by decide) hreply (Reference.ne_nil_of_ask hreply)
    ⟨⟨[], [], .closed⟩, []⟩
  exact ⟨r, reuse, parts, _, hreply, hrun, rfl, hseen⟩

end DnsFixtures
