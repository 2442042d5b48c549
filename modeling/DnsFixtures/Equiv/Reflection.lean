import DnsFixtures.Equiv.Batch
import DnsFixtures.Equiv.Forwarding

/-!
# No reply to a reply

What the handlers send for a message with QR set.  `answer_fresh` ignores it and the forwarders relay
what the upstream answers; but `make_truncated_response` does not look at QR, so a message for
`force-tcp` is answered over UDP (`unanswered_iff`), and two instances of the service can go on for
ever (`not_unanswered_forceTcp`).
-/

namespace DnsFixtures

open Dns

/-! ### The two selectors -/

/-- The octets of a name under `fresh.example.test` end otherwise than those of a scenario's owner. -/
theorem not_spells_of_suffix {ls : List Label} (h : foldCase (ls.drop (ls.length - 3)) = SUFFIX)
    (s : Scenario) : ¬ Spells ls s := by
  rintro ⟨k, hk⟩
  have hfresh : dotted (foldCase ls)
      = dotted (foldCase (ls.take (ls.length - 3))) ++ textOctets "fresh.example.test." := by
    have htext : textOctets "fresh.example.test." = dotted SUFFIX := by decide
    rw [htext, ← h, ← dotted_append, ← foldCase_append, List.take_append_drop]
  have howner : ∀ s, ∃ front, dotted (transportOwner s)
      = front ++ textOctets "sport.example.test" ++ [46] := by
    intro s
    refine ⟨textOctets (s.value ++ ".tran"), ?_⟩
    cases s <;> decide
  obtain ⟨front, hfront⟩ := howner s
  rw [hfresh, hfront] at hk
  cases k with
  | zero =>
    rw [List.replicate_zero, List.append_nil, List.append_assoc] at hk
    obtain ⟨-, hend⟩ := List.append_inj' hk (by decide)
    exact absurd hend (by decide)
  | succ k =>
    -- the owner ends in two dots
    have hdots : [46] ++ List.replicate (k + 1) (46 : UInt8) = List.replicate k 46 ++ [46, 46] := by
      rw [show ([46, 46] : Octets) = List.replicate 2 46 from rfl, List.replicate_append_replicate]
      rfl
    have hsplit : textOctets "fresh.example.test." = textOctets "fresh.example.tes" ++ [116, 46] := by
      decide
    rw [List.append_assoc, hdots, hsplit, ← List.append_assoc, ← List.append_assoc] at hk
    obtain ⟨-, hend⟩ := List.append_inj' hk rfl
    exact absurd hend (by decide)

theorem AsksScenario.isFresh_eq_false {d : Dnspython} (hd : d.Documented) {w : Octets}
    {ls : List Label} {s : Scenario} (h : AsksScenario w ls s) : isFresh d w = .ok false := by
  obtain ⟨ps, hread⟩ := h.question
  obtain ⟨_, hdec, -⟩ := hread.decodes
  rw [isFresh_eq_false_iff hd, isFresh_iff hd]
  rintro ⟨_, ls', ps', -, -, hexp, -, -, hsuffix⟩
  obtain ⟨rfl, -⟩ := hexp.unique hdec.expands
  exact not_spells_of_suffix hsuffix s h.spells

/-- What selects a legacy scenario is no fresh query. -/
theorem isFresh_eq_false_of_scenario {d : Dnspython} (hd : d.Documented) {w : Octets} {s : Scenario}
    (hs : s ≠ .normal) (h : queryScenario w = .ok s) : isFresh d w = .ok false := by
  obtain ⟨ls, hasks⟩ := (queryScenario_iff hs).mp h
  exact hasks.isFresh_eq_false hd

/-! ### Messages with QR set -/

/-- QR is set, the top bit of the third octet. -/
def HasQr (w : Octets) : Prop := ∃ b, w[2]? = some b ∧ 128 ≤ b.toNat

theorem HasQr.ne_nil {w : Octets} (h : HasQr w) : w ≠ [] := by
  rintro rfl
  obtain ⟨b, hb, -⟩ := h
  cases hb

theorem HasQr.isResponse {w : Octets} (h : HasQr w) (h12 : 12 ≤ w.length) : IsResponse w := by
  obtain ⟨hdr, hh⟩ := Option.isSome_iff_exists.mp ((readHeader_isSome_iff w).mpr h12)
  obtain ⟨b, hb, hle⟩ := h
  refine ⟨hdr, hh, (hasFlag_qr_iff _).mpr ?_⟩
  have hflags := (readHeader_eq_some hh).2.1
  obtain ⟨lo, hlo⟩ : ∃ lo, w[2 + 1]? = some lo := ⟨_, List.getElem?_eq_getElem (by omega)⟩
  have hlt := lo.toNat_lt
  have hb' := b.toNat_lt
  rw [readU16, hb, hlo] at hflags
  rw [← Option.some.inj hflags, wordOf, UInt16.toNat_ofNat']
  omega

theorem HasQr.isIgnored {w : Octets} (h : HasQr w) : IsIgnored w := by
  by_cases h12 : w.length < 12
  · exact Or.inl h12
  · exact Or.inr (h.isResponse (Nat.not_lt.mp h12))

/-! ### The truncated response -/

/-- ARCOUNT of the header. -/
def arcount (w : Octets) : UInt16 := (readU16 w 10).getD 0

/-- A message with QR set and an additional section gets no truncated response. -/
theorem makeTruncatedResponse_raises {d : Dnspython} (hd : d.Documented) (hresp : d.RefusesResponses)
    {w : Octets} (hqr : IsResponse w) (hcount : arcount w ≠ 0) :
    ∃ e, makeTruncatedResponse d w = .error e := by
  unfold makeTruncatedResponse
  rw [if_pos (show (readU16 w 10).getD 0 ≠ 0 from hcount)]
  cases hparse : d.messageFromWire w with
  | error e => exact ⟨e, rfl⟩
  | ok m =>
    obtain ⟨h, hh, hflag⟩ := hqr
    obtain ⟨h', hh', -, hflags, -⟩ := readHeader_of_parse hd hparse
    rw [hh] at hh'
    cases hh'
    -- dnspython makes no response to a response
    obtain ⟨e, he⟩ := hresp m (hflags ▸ hflag)
    refine ⟨e, ?_⟩
    show (d.makeResponse m >>= _) = _
    rw [he]
    rfl

/-- Without an additional section, a question that the proxy reads is answered. -/
theorem makeTruncatedResponse_returns {d : Dnspython} {w : Octets} {text : String}
    (hparse : parseQuestionName w = .ok text) (hcount : arcount w = 0) :
    ∃ r, makeTruncatedResponse d w = .ok r := by
  obtain ⟨_, _, hread, -⟩ := parseQuestionName_eq_ok_iff.mp hparse
  obtain ⟨h, hh, -⟩ := hread.qdcount
  obtain ⟨⟨_, stop⟩, hend, -⟩ := map_eq_ok_iff.mp hparse
  unfold makeTruncatedResponse
  have hcount' : ¬ (readU16 w 10).getD 0 ≠ 0 := not_not_intro hcount
  rw [if_neg hcount', hend, hh]
  exact ⟨_, rfl⟩

/-! ### The handlers -/

theorem parseQuestionName_of_scenario {w : Octets} {s : Scenario} (hs : s ≠ .normal)
    (h : queryScenario w = .ok s) : ∃ text, parseQuestionName w = .ok text := by
  obtain ⟨ls, hasks⟩ := (queryScenario_iff hs).mp h
  obtain ⟨ps, hread⟩ := hasks.question
  exact ⟨_, parseQuestionName_eq_ok_iff.mpr ⟨ls, ps, hread, rfl⟩⟩

theorem replies_handleUdp (d : Dnspython) (w : Octets) (addresses : List Outcome) :
    (handleUdp d w addresses).2 = ((serveDatagram d w addresses).run ⟨[], []⟩).2 := by
  unfold handleUdp
  cases (serveDatagram d w addresses).run ⟨[], []⟩ with
  | mk result e =>
    cases result with
    | ok _ => rfl
    | error err =>
      dsimp only
      split_ifs
      · rfl
      · rfl

/-- What was written for the query is the response of the upstream, as the scenario sends it. -/
def IsRelay (c : Connection) (parts : List Octets) : Prop :=
  ∃ peer rest response behind s frames, c.upstreams = some peer :: rest ∧
    peer.stream = framed response ++ behind ∧ framedParts response s = .ok frames ∧
    parts = frames.filter fun part => part ≠ []

/-- No handler sends the client a message of its own for `w`: as a datagram, as a frame, or as a
frame of a batch. -/
structure Unanswered (d : Dnspython) (w : Octets) : Prop where
  udp : ∀ addresses, ∀ r ∈ (handleUdp d w addresses).2.replies, Outcome.datagram r ∈ addresses
  tcp : ∀ (c : Connection) rest n, c.client.peer.stream = framed w ++ rest → w.length ≤ 65535 →
    ∃ c' parts, c.client.After c'.client rest parts ∧ (parts = [] ∨ IsRelay c parts) ∧
      ((serveLoop d (n + 1)).run c = (serveLoop d n).run c' ∨
        ∃ result, (serveLoop d (n + 1)).run c = (result, c'))
  batch : ∀ q₁ key s s' result, scenario d q₁ = .ok key → key ∈ batchKeys →
    (serveFreshTcp d q₁).run s = (result, s') → s'.written = s.written ∨
      ∃ q₂ q₃ r₁ r₂ r₃ rest, s.peer.stream = framed q₂ ++ framed q₃ ++ rest ∧
        s'.written = s.written ++ [(inOrder key [framed r₁, framed r₂, framed r₃]).flatten] ∧
        (q₂ = w → r₂ = []) ∧ (q₃ = w → r₃ = [])

section

variable {d : Dnspython} (hd : d.Documented) {w : Octets} (hqr : HasQr w)
include hd hqr

theorem answerFresh_response (tcp : Bool) : answerFresh d w tcp = .ok [] :=
  (answerFresh_eq_nil_iff hd tcp).mpr hqr.isIgnored

/-- A datagram with QR set: the only answer made here is a truncated response. -/
theorem replies_response {addresses : List Outcome} {r : Octets}
    (h : r ∈ (handleUdp d w addresses).2.replies) : Outcome.datagram r ∈ addresses ∨
      (queryScenario w = .ok .forceTcp ∧ makeTruncatedResponse d w = .ok r) := by
  rw [replies_handleUdp, serveDatagram] at h
  obtain ⟨fresh, hfresh⟩ := isFresh_total hd w
  rw [Session.run_ofExcept_bind hfresh] at h
  cases fresh with
  | true =>
    rw [if_pos rfl, Session.run_ofExcept_bind (answerFresh_response hd hqr false)] at h
    exact absurd h List.not_mem_nil
  | false =>
    rw [if_neg Bool.false_ne_true] at h
    cases hs : queryScenario w with
    | error e =>
      rw [Session.run_ofExcept_bind_error hs] at h
      exact absurd h List.not_mem_nil
    | ok s =>
      rw [Session.run_ofExcept_bind hs] at h
      by_cases hclose : s = .closeBeforeResponse ∨ s = .stall
      · rw [if_pos hclose] at h
        exact absurd h List.not_mem_nil
      rw [if_neg hclose] at h
      by_cases hforce : s = .forceTcp
      · subst hforce
        rw [if_pos rfl] at h
        cases hmake : makeTruncatedResponse d w with
        | error e =>
          rw [Session.run_ofExcept_bind_error hmake] at h
          exact absurd h List.not_mem_nil
        | ok r' =>
          rw [Session.run_ofExcept_bind hmake] at h
          obtain rfl := List.mem_singleton.mp h
          exact Or.inr ⟨rfl, rfl⟩
      · rw [if_neg hforce, Session.run_bind] at h
        cases hrun : (forwardUdp w addresses).run ⟨[], []⟩ with
        | mk result e =>
          -- what is sent is what an upstream address has sent
          obtain ⟨hreplies, hmem⟩ := run_forwardUdpLoop_sound hrun
          rw [hrun] at h
          cases result with
          | error err =>
            dsimp only at h
            rw [hreplies] at h
            exact absurd h List.not_mem_nil
          | ok response =>
            have hsent : r ∈ e.replies ++ [response] := h
            rw [hreplies] at hsent
            obtain rfl := List.mem_singleton.mp hsent
            exact Or.inl (hmem r rfl)

/-- A frame with QR set: nothing is written, or what the upstream answers. -/
theorem run_serveLoop_response {c : Connection} {rest : Octets}
    (hc : c.client.peer.stream = framed w ++ rest) (hlen : w.length ≤ 65535) (n : Nat) :
    ∃ c' parts, c.client.After c'.client rest parts ∧ (parts = [] ∨ IsRelay c parts) ∧
      ((serveLoop d (n + 1)).run c = (serveLoop d n).run c' ∨
        ∃ result, (serveLoop d (n + 1)).run c = (result, c')) := by
  obtain ⟨sock, hrecv, hafter⟩ := run_recvFrame hc hqr.ne_nil hlen
  have hrecv' : (onClient recvFrame).run c = (.ok w, { c with client := sock }) := by
    rw [run_onClient, hrecv]
  obtain ⟨fresh, hfresh⟩ := isFresh_total hd w
  rw [serveLoop, Session.run_bind_ok hrecv', Session.run_ofExcept_bind hfresh]
  cases fresh with
  | true =>
    obtain ⟨key, hkey⟩ := scenario_total hd w
    refine ⟨{ c with client := sock }, [], hafter, Or.inl rfl, Or.inr ⟨.ok (), ?_⟩⟩
    rw [if_pos rfl, Session.run_bind, run_onClient,
      run_serveFreshTcp_nil hkey (answerFresh_response hd hqr true)]
    rfl
  | false =>
    rw [if_neg Bool.false_ne_true]
    cases hs : queryScenario w with
    | error e =>
      exact ⟨{ c with client := sock }, [], hafter, Or.inl rfl, Or.inr ⟨.error e, rfl⟩⟩
    | ok s =>
      rw [Session.run_ofExcept_bind rfl]
      by_cases hclose : s = .closeBeforeResponse ∨ s = .stall
      · rw [if_pos hclose]
        exact ⟨{ c with client := sock }, [], hafter, Or.inl rfl, Or.inr ⟨.ok (), rfl⟩⟩
      rw [if_neg hclose]
      cases hforward : (forwardTcp w).run { c with client := sock } with
      | mk result c₁ =>
        obtain ⟨hclient, hrelay⟩ := run_forwardTcp_sound hforward
        cases result with
        | error e =>
          refine ⟨c₁, [], hclient ▸ hafter, Or.inl rfl, Or.inr ⟨.error e, ?_⟩⟩
          rw [Session.run_bind_error hforward]
        | ok response =>
          obtain ⟨peer, rests, behind, hups, hstream⟩ := hrelay response rfl
          rw [Session.run_bind_ok hforward, Session.run_bind, run_onClient]
          cases hsend : (sendFrame response s).run c₁.client with
          | mk result sock' =>
            obtain ⟨hpeer, hsent⟩ := run_sendFrame_sound hsend
            -- neither `forward_tcp` nor `send_frame` reads from the client
            have hafter' : ∀ {parts}, sock'.written = sock.written ++ parts →
                c.client.After sock' rest parts := by
              intro parts hwritten
              refine ⟨?_, ?_, ?_⟩
              · rw [hpeer, hclient, hafter.stream]
              · rw [hpeer, hclient, hafter.ending]
              · rw [hwritten, hafter.written, List.append_nil]
            cases result with
            | error e =>
              refine ⟨{ c₁ with client := sock' }, [], hafter' ?_, Or.inl rfl, Or.inr ⟨.error e, rfl⟩⟩
              rw [(hsent.resolve_right (by rintro ⟨h, -⟩; cases h)).2, hclient, List.append_nil]
            | ok u =>
              obtain ⟨-, frames, hframes, hwritten⟩ := hsent.resolve_left
                (by rintro ⟨⟨_, h⟩, -⟩; cases h)
              rw [hclient] at hwritten
              refine ⟨{ c₁ with client := sock' }, _, hafter' hwritten,
                Or.inr ⟨peer, rests, response, behind, s, frames, hups, hstream, hframes, rfl⟩, ?_⟩
              by_cases hkeep : s = .normal ∨ s = .forceTcp
              · refine Or.inl ?_
                dsimp only
                rw [if_pos hkeep]
              · refine Or.inr ⟨.ok (), ?_⟩
                dsimp only
                rw [if_neg hkeep]
                rfl

/-- As a message of a batch it is answered by an empty frame. -/
theorem batch_response {q₁ : Octets} {key : String} {s s' : Sock} {result : Except Raised Bool}
    (hkey : scenario d q₁ = .ok key) (hbatch : key ∈ batchKeys)
    (hrun : (serveFreshTcp d q₁).run s = (result, s')) : s'.written = s.written ∨
      ∃ q₂ q₃ r₁ r₂ r₃ rest, s.peer.stream = framed q₂ ++ framed q₃ ++ rest ∧
        s'.written = s.written ++ [(inOrder key [framed r₁, framed r₂, framed r₃]).flatten] ∧
        (q₂ = w → r₂ = []) ∧ (q₃ = w → r₃ = []) := by
  cases h₁ : answerFresh d q₁ true with
  | error e =>
    unfold serveFreshTcp at hrun
    rw [Session.run_ofExcept_bind hkey, Session.run_ofExcept_bind_error h₁] at hrun
    cases hrun
    exact Or.inl rfl
  | ok r₁ =>
    by_cases hne : r₁ = []
    · subst hne
      rw [run_serveFreshTcp_nil hkey h₁] at hrun
      cases hrun
      exact Or.inl rfl
    obtain hwritten | ⟨q₂, q₃, r₂, r₃, rest, hstream, -, -, h₂, h₃, -, hwritten⟩ :=
      run_serveFreshTcp_batch_sound hd hkey hbatch h₁ hne hrun
    · exact Or.inl hwritten
    · refine Or.inr ⟨q₂, q₃, r₁, r₂, r₃, rest, hstream, hwritten, ?_, ?_⟩
      · rintro rfl
        exact Except.ok.inj (h₂.symm.trans (answerFresh_response hd hqr true))
      · rintro rfl
        exact Except.ok.inj (h₃.symm.trans (answerFresh_response hd hqr true))

end

/-- A datagram for which the truncated response is made. -/
theorem replies_forceTcp {d : Dnspython} (hd : d.Documented) {w r : Octets}
    (hs : queryScenario w = .ok .forceTcp) (hmake : makeTruncatedResponse d w = .ok r)
    (addresses : List Outcome) : handleUdp d w addresses = (.ok (), ⟨[], [r]⟩) := by
  have hfresh := isFresh_eq_false_of_scenario hd (by decide) hs
  have hrun : (serveDatagram d w addresses).run ⟨[], []⟩ = (.ok (), ⟨[], [r]⟩) := by
    rw [serveDatagram, Session.run_ofExcept_bind hfresh, if_neg Bool.false_ne_true,
      Session.run_ofExcept_bind hs, if_neg (by decide), if_pos rfl, Session.run_ofExcept_bind hmake]
    rfl
  rw [handleUdp, hrun]

/-- **No reply to a reply**, unless it asks for `force-tcp` and has no additional section. -/
theorem unanswered_iff {d : Dnspython} (hd : d.Documented) (hresp : d.RefusesResponses) {w : Octets}
    (hqr : HasQr w) :
    Unanswered d w ↔ ¬ (queryScenario w = .ok .forceTcp ∧ arcount w = 0) := by
  constructor
  · rintro h ⟨hs, hcount⟩
    obtain ⟨text, hparse⟩ := parseQuestionName_of_scenario (by decide) hs
    obtain ⟨r, hmake⟩ := makeTruncatedResponse_returns hparse hcount
    have hreply : r ∈ (handleUdp d w []).2.replies := by
      rw [replies_forceTcp hd hs hmake]
      exact List.mem_singleton_self r
    exact absurd (h.udp [] r hreply) List.not_mem_nil
  · intro h
    refine ⟨fun addresses r hr => ?_, fun c rest n hc hlen => run_serveLoop_response hd hqr hc hlen n,
      fun q₁ key s s' result hkey hbatch hrun => batch_response hd hqr hkey hbatch hrun⟩
    obtain hmem | ⟨hs, hmake⟩ := replies_response hd hqr hr
    · exact hmem
    · have h12 : 12 ≤ w.length := by
        obtain ⟨_, hasks⟩ := (queryScenario_iff (by decide)).mp hs
        obtain ⟨hdr, hh, -⟩ := hasks.opcode
        exact (readHeader_isSome_iff w).mp (by rw [hh]; rfl)
      obtain ⟨e, he⟩ := makeTruncatedResponse_raises hd hresp (hqr.isResponse h12) fun hcount =>
        h ⟨hs, hcount⟩
      rw [he] at hmake
      cases hmake

/-- The response to a query for `a` under the nonce of zeros is not answered. -/
theorem unanswered_a : Unanswered Reference.dnspython
    ([0x12, 0x34, 0x85] ++ (Reference.askKey "a" RRType.A).drop 3) := by
  have hqr : HasQr ([0x12, 0x34, 0x85] ++ (Reference.askKey "a" RRType.A).drop 3) :=
    ⟨0x85, rfl, by decide⟩
  refine (unanswered_iff Reference.documented Reference.refusesResponses hqr).mpr ?_
  rintro ⟨hs, -⟩
  exact absurd hs (by decide)

/-- A response for `force-tcp.transport.example.test`. -/
def Reference.forceTcpResponse : Octets :=
  [0x12, 0x34, 0x86, 0, 0, 1, 0, 0, 0, 0, 0, 0] ++ wireLabels (transportOwner .forceTcp) ++
    [0, 1, 0, 1]

/-- It is answered by itself, and so for ever. -/
theorem not_unanswered_forceTcp : Reference.dnspython.Documented ∧
    HasQr Reference.forceTcpResponse ∧
    handleUdp Reference.dnspython Reference.forceTcpResponse []
      = (.ok (), ⟨[], [Reference.forceTcpResponse]⟩) ∧
    ¬ Unanswered Reference.dnspython Reference.forceTcpResponse := by
  have hs : queryScenario Reference.forceTcpResponse = .ok .forceTcp := by decide
  have hmake : makeTruncatedResponse Reference.dnspython Reference.forceTcpResponse
      = .ok Reference.forceTcpResponse := by decide
  have hreply := replies_forceTcp Reference.documented hs hmake []
  refine ⟨Reference.documented, ⟨0x86, rfl, by decide⟩, hreply, fun h => ?_⟩
  have hmem := h.udp [] Reference.forceTcpResponse
  rw [hreply] at hmem
  exact absurd (hmem (List.mem_singleton_self _)) List.not_mem_nil

end DnsFixtures
