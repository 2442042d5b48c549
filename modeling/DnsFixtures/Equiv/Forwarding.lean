import DnsFixtures.Equiv.Routing
import DnsFixtures.Equiv.Selection

/-!
# Forwarding

What the handlers do with a query that is not fresh.  `run_serveLoop_forwarded` and
`run_forwardUdp` are the exchanges with the upstream; `relayed_or_dropped`: a request goes through them
unchanged, unless it is a QUERY with several questions or with a label that is not ASCII, which the
proxy does not read.
-/

namespace DnsFixtures

open Dns

/-! ### What cannot be read -/

theorem decodeNameLoop_error {w : Octets} {n cursor : Nat} {labels : List String}
    {endOffset : Option Nat} {visited : List Nat} {e : Raised}
    (h : decodeNameLoop w n cursor labels endOffset visited = .error e) :
    ∃ m, e = .dnsFormatError m := by
  -- every exit of the loop raises the same exception, but that with the name
  induction n generalizing cursor labels endOffset visited with
  | zero =>
    cases h
    exact ⟨_, rfl⟩
  | succ n ih =>
    rw [decodeNameLoop] at h
    split at h
    · cases h
      exact ⟨_, rfl⟩
    · rename_i len hlen
      by_cases h192 : len &&& 0xC0 = 0xC0
      · rw [if_pos h192] at h
        split at h
        · cases h
          exact ⟨_, rfl⟩
        · dsimp only at h
          split_ifs at h
          · cases h
            exact ⟨_, rfl⟩
          · cases h
            exact ⟨_, rfl⟩
          · exact ih h
      rw [if_neg h192] at h
      by_cases h64 : len &&& 0xC0 ≠ 0
      · rw [if_pos h64] at h
        cases h
        exact ⟨_, rfl⟩
      rw [if_neg h64] at h
      by_cases h0 : len = 0
      · rw [if_pos h0] at h
        cases h
      rw [if_neg h0] at h
      split_ifs at h
      · cases h
        exact ⟨_, rfl⟩
      · split at h
        · cases h
          exact ⟨_, rfl⟩
        · exact ih h

/-- The proxy's parser raises its own exception only. -/
theorem parseQuestionName_error {w : Octets} {e : Raised} (h : parseQuestionName w = .error e) :
    ∃ m, e = .dnsFormatError m := by
  unfold parseQuestionName questionEnd at h
  split at h
  · cases h
    exact ⟨_, rfl⟩
  · split_ifs at h
    · cases h
      exact ⟨_, rfl⟩
    · cases hname : decodeName w 12 with
      | error e' =>
        rw [hname] at h
        cases h
        exact decodeNameLoop_error hname
      | ok r =>
        rw [hname] at h
        change Prod.fst <$> (if w.length < r.2 + 4 then _ else _) = _ at h
        split_ifs at h
        · cases h
          exact ⟨_, rfl⟩
        · cases h

/-- A QUERY with a question is read, or the proxy's own exception is raised. -/
theorem queryScenario_error {w : Octets} {h : Header} (hh : readHeader w = some h)
    (hop : ¬ hasFlag h.flags Flag.opcodeMask) (hcount : h.qdcount ≠ 0)
    (hread : ∀ ls ps, ¬ ReadsQuestion w ls ps) :
    ∃ m, queryScenario w = .error (.dnsFormatError m) := by
  cases hparse : parseQuestionName w with
  | ok text =>
    obtain ⟨ls, ps, hread', -⟩ := parseQuestionName_eq_ok_iff.mp hparse
    exact absurd hread' (hread ls ps)
  | error e =>
    obtain ⟨m, rfl⟩ := parseQuestionName_error hparse
    refine ⟨m, ?_⟩
    unfold queryScenario
    rw [hh]
    dsimp only
    rw [if_neg (not_or.mpr ⟨hop, hcount⟩), hparse]
    rfl

/-! ### Exchanges with the upstream -/

theorem flatten_filter_ne_nil (parts : List Octets) :
    (parts.filter fun part => part ≠ []).flatten = parts.flatten := by
  induction parts with
  | nil => rfl
  | cons p parts ih =>
    by_cases hp : p = []
    · subst hp
      rw [List.filter_cons_of_neg (by simp), ih]
      rfl
    · rw [List.filter_cons_of_pos (by simpa using hp), List.flatten_cons, List.flatten_cons, ih]

theorem run_sendFrame {payload : Octets} {scenario : Scenario} {parts : List Octets}
    (hne : payload ≠ []) (hlen : payload.length ≤ 65535)
    (hparts : framedParts payload scenario = .ok parts) (s : Sock) :
    (sendFrame payload scenario).run s = (.ok (),
      { s with written := s.written ++ parts.filter fun part => part ≠ [] }) := by
  have hpos := List.length_pos_iff.mpr hne
  unfold sendFrame
  rw [if_neg (by omega), Session.run_ofExcept_bind hparts, writeParts, run_sendParts]

/-- What `send_frame` writes when it returns; otherwise nothing. -/
theorem run_sendFrame_sound {payload : Octets} {scenario : Scenario} {s s' : Sock}
    {result : Except Raised Unit} (h : (sendFrame payload scenario).run s = (result, s')) :
    s'.peer = s.peer ∧ ((∃ e, result = .error e) ∧ s'.written = s.written ∨
      result = .ok () ∧ ∃ parts, framedParts payload scenario = .ok parts ∧
        s'.written = s.written ++ parts.filter fun part => part ≠ []) := by
  unfold sendFrame at h
  by_cases hlen : payload.length < 1 ∨ 65535 < payload.length
  · rw [if_pos hlen, Session.run_throw] at h
    cases h
    exact ⟨rfl, Or.inl ⟨⟨_, rfl⟩, rfl⟩⟩
  rw [if_neg hlen] at h
  cases hparts : framedParts payload scenario with
  | error e =>
    rw [Session.run_ofExcept_bind_error hparts] at h
    cases h
    exact ⟨rfl, Or.inl ⟨⟨e, rfl⟩, rfl⟩⟩
  | ok parts =>
    rw [Session.run_ofExcept_bind hparts, writeParts, run_sendParts] at h
    cases h
    exact ⟨rfl, Or.inr ⟨rfl, parts, rfl, rfl⟩⟩

/-- The parts of `send_frame` for a payload that has a length. -/
def sentParts (payload : Octets) : Scenario → List Octets
  | .normal | .forceTcp => [framed payload]
  | .splitPrefix =>
    let size := packU16 (UInt16.ofNat payload.length)
    [size.take 1, size.drop 1, payload]
  | .splitBody => packU16 (UInt16.ofNat payload.length) :: slices 64 payload
  | .bytewise => (framed payload).map fun byte => [byte]
  | .delayed => packU16 (UInt16.ofNat payload.length) :: slices 256 payload
  | .closeBeforeResponse | .stall => []
  | .closeAfterPrefix => [packU16 (UInt16.ofNat payload.length)]
  | .closeMidBody =>
    [packU16 (UInt16.ofNat payload.length), payload.take (payload.length / 2)]
  | .lengthMismatch =>
    [packU16 (UInt16.ofNat (min 65535 (payload.length + 16))), payload.take (payload.length / 2)]
  | .duplicateResponse => [framed payload, framed payload]
  | .trailingBytes => [framed payload, TRAILING_BYTES]

theorem framedParts_eq {payload : Octets} (hlen : payload.length ≤ 65535) (scenario : Scenario) :
    framedParts payload scenario = .ok (sentParts payload scenario) := by
  have hsize := packLength_of_le hlen
  have hmismatch := packLength_of_le (Nat.min_le_left 65535 (payload.length + 16))
  have hframe := frame_eq hlen
  cases scenario with
  | normal | forceTcp | bytewise | duplicateResponse | trailingBytes =>
    rw [framedParts, hframe]
    rfl
  | splitPrefix | splitBody | delayed | closeAfterPrefix | closeMidBody =>
    rw [framedParts, hsize]
    rfl
  | lengthMismatch =>
    rw [framedParts, hmismatch]
    rfl
  | closeBeforeResponse | stall => rfl

/-- The scenarios that send the response as one frame, in one or several writes. -/
theorem flatten_sentParts (payload : Octets) {scenario : Scenario}
    (hscenario : scenario ∈ [Scenario.normal, .forceTcp, .splitPrefix, .splitBody, .bytewise, .delayed]) :
    (sentParts payload scenario).flatten = framed payload := by
  simp only [List.mem_cons, List.not_mem_nil, or_false] at hscenario
  rcases hscenario with rfl | rfl | rfl | rfl | rfl | rfl
  · exact List.append_nil _
  · exact List.append_nil _
  · rw [sentParts, List.flatten_cons, List.flatten_cons, List.flatten_singleton,
      ← List.append_assoc, List.take_append_drop]
    rfl
  · rw [sentParts, List.flatten_cons, flatten_slices (by decide)]
    rfl
  · exact flatten_map_singleton _
  · rw [sentParts, List.flatten_cons, flatten_slices (by decide)]
    rfl

/-- The upstream's answer to a query, a whole header with the query's identifier. -/
structure Answers (query response : Octets) : Prop where
  header : 12 ≤ response.length
  size : response.length ≤ 65535
  id : response.take 2 = query.take 2

theorem Answers.ne_nil {query response : Octets} (h : Answers query response) : response ≠ [] :=
  List.length_pos_iff.mp (Nat.lt_of_lt_of_le (by decide) h.header)

theorem Answers.validate {query response : Octets} (h : Answers query response) :
    validateUpstreamResponse query response = .ok () := by
  unfold validateUpstreamResponse
  rw [if_neg (Nat.not_lt.mpr h.header), if_neg (not_not_intro h.id)]
  rfl

/-- The next upstream connection answers with this frame. -/
structure Connection.Upstream (c : Connection) (response : Octets) (rest : List (Option Peer)) :
    Prop where
  upstreams : ∃ peer behind, c.upstreams = some peer :: rest ∧
    peer.stream = framed response ++ behind

section

variable {query : Octets} {c : Connection} {rest : List (Option Peer)}

theorem run_connectAndExchange_nil (h : c.upstreams = []) :
    (connectAndExchange query).run c = (.error .osError, c) := by
  show connectAndExchange query c = _
  simp only [connectAndExchange, h]

theorem run_connectAndExchange_none (h : c.upstreams = none :: rest) :
    (connectAndExchange query).run c = (.error .osError, { c with upstreams := rest }) := by
  show connectAndExchange query c = _
  simp only [connectAndExchange, h]

theorem run_connectAndExchange_some {peer : Peer} (h : c.upstreams = some peer :: rest) :
    (connectAndExchange query).run c = (((exchange query).run ⟨peer, []⟩).1,
      { c with
        upstreams := rest
        forwarded := c.forwarded ++ [((exchange query).run ⟨peer, []⟩).2.written.flatten] }) := by
  show connectAndExchange query c = _
  simp only [connectAndExchange, h]

end

/-- `forward_tcp` sends the query as it is and returns the answer as it is. -/
theorem run_forwardTcp {query response : Octets} {c : Connection} {rest : List (Option Peer)}
    (hup : c.Upstream response rest) (hquery : query.length ≤ 65535)
    (hans : Answers query response) :
    (forwardTcp query).run c = (.ok response,
      { c with upstreams := rest, forwarded := c.forwarded ++ [framed query] }) := by
  obtain ⟨peer, behind, hups, hstream⟩ := hup.upstreams
  have hexchange : ∃ s, (exchange query).run ⟨peer, []⟩ = (.ok response, s) ∧
      s.written = [framed query] := by
    unfold exchange
    rw [Session.run_ofExcept_bind (frame_eq hquery), Session.run_bind_ok (run_sendall ..)]
    obtain ⟨s, hrun, hafter⟩ := run_recvFrame (s := ⟨peer, [framed query]⟩) hstream hans.ne_nil
      hans.size
    exact ⟨s, hrun, hafter.written⟩
  obtain ⟨s, hrun, hwritten⟩ := hexchange
  have hconnect : (connectAndExchange query).run c = (.ok response,
      { c with upstreams := rest, forwarded := c.forwarded ++ [framed query] }) := by
    rw [run_connectAndExchange_some hups, hrun, hwritten]
    simp
  unfold forwardTcp
  rw [Session.run_bind_ok hconnect, Session.run_ofExcept_bind hans.validate, Session.run_pure]

/-- What `forward_tcp` returns was sent by the upstream, and the client sees nothing of it. -/
theorem run_forwardTcp_sound {query : Octets} {c c' : Connection} {result : Except Raised Octets}
    (h : (forwardTcp query).run c = (result, c')) : c'.client = c.client ∧
      ∀ response, result = .ok response → ∃ peer rest behind, c.upstreams = some peer :: rest ∧
        peer.stream = framed response ++ behind := by
  -- the exchange runs on the upstream socket: that of the client is left alone
  have hconnect : ∀ {result c'}, (connectAndExchange query).run c = (result, c') →
      c'.client = c.client ∧ ∀ response, result = .ok response → ∃ peer rest behind,
        c.upstreams = some peer :: rest ∧ peer.stream = framed response ++ behind := by
    intro result c' hrun
    cases hups : c.upstreams with
    | nil =>
      rw [run_connectAndExchange_nil hups] at hrun
      cases hrun
      exact ⟨rfl, by rintro response ⟨⟩⟩
    | cons peer rest =>
      cases peer with
      | none =>
        rw [run_connectAndExchange_none hups] at hrun
        cases hrun
        exact ⟨rfl, by rintro response ⟨⟩⟩
      | some peer =>
        rw [run_connectAndExchange_some hups] at hrun
        cases hrun
        refine ⟨rfl, fun response hok => ?_⟩
        have hexchange : (exchange query).run ⟨peer, []⟩
            = (.ok response, ((exchange query).run ⟨peer, []⟩).2) := Prod.ext hok rfl
        obtain ⟨bs, s₁, hframe, hrun₁⟩ := Session.run_bind_eq_ok hexchange
        obtain ⟨-, rfl⟩ := Prod.ext_iff.mp hframe
        rw [Session.run_bind_ok (run_sendall ..)] at hrun₁
        exact ⟨peer, rest, _, rfl, (run_recvFrame_sound hrun₁).1⟩
  unfold forwardTcp at h
  cases hrun : (connectAndExchange query).run c with
  | mk result₁ c₁ =>
    obtain ⟨hclient, hresponse⟩ := hconnect hrun
    cases result₁ with
    | error e =>
      rw [Session.run_bind_error hrun] at h
      cases h
      exact ⟨hclient, by rintro response ⟨⟩⟩
    | ok response =>
      rw [Session.run_bind_ok hrun] at h
      cases hvalid : validateUpstreamResponse query response with
      | error e =>
        rw [Session.run_ofExcept_bind_error hvalid] at h
        cases h
        exact ⟨hclient, by rintro response ⟨⟩⟩
      | ok _ =>
        rw [Session.run_ofExcept_bind hvalid, Session.run_pure] at h
        cases h
        refine ⟨hclient, ?_⟩
        rintro _ ⟨⟩
        exact hresponse response rfl

theorem run_sendUpstream (query : Octets) (e : Exchange) :
    (sendUpstream query).run e = (.ok (), { e with forwarded := e.forwarded ++ [query] }) := rfl

/-- The addresses before the first answer fail without one. -/
def Fails : Outcome → Prop
  | .datagram _ => False
  | _ => True

/-- The first datagram decides what `forward_udp` does: it is validated, and nothing behind it is
tried. -/
theorem run_forwardUdpLoop_datagram {query response : Octets} {failing behind : List Outcome}
    (hfail : ∀ o ∈ failing, Fails o) (lastError : Raised) (e : Exchange) :
    ∃ k, (forwardUdpLoop query (failing ++ .datagram response :: behind) lastError).run e
      = ((validateUpstreamResponse query response).map fun _ => response,
        { e with forwarded := e.forwarded ++ List.replicate (k + 1) query }) := by
  induction failing generalizing lastError e with
  | nil =>
    refine ⟨0, ?_⟩
    show (sendUpstream query >>= _).run e = _
    rw [Session.run_bind_ok (run_sendUpstream ..)]
    cases validateUpstreamResponse query response with
    | error err => rfl
    | ok _ => rfl
  | cons o failing ih =>
    have hrest := fun o ho => hfail o (List.mem_cons_of_mem _ ho)
    cases o with
    | unreachable => exact ih hrest _ _
    -- a timeout has sent the query once more
    | timeout =>
      obtain ⟨k, hk⟩ := ih hrest .timeout { e with forwarded := e.forwarded ++ [query] }
      refine ⟨k + 1, ?_⟩
      show (sendUpstream query >>= _).run e = _
      rw [Session.run_bind_ok (run_sendUpstream ..)]
      show (forwardUdpLoop query (failing ++ .datagram response :: behind) .timeout).run _ = _
      rw [hk]
      dsimp only
      rw [List.append_assoc, List.replicate_succ (n := k + 1)]
      rfl
    | datagram r => exact (hfail _ List.mem_cons_self).elim

/-- `forward_udp` sends the query as it is and returns the first answer as it is. -/
theorem run_forwardUdpLoop {query response : Octets} {failing behind : List Outcome}
    (hfail : ∀ o ∈ failing, Fails o)
    (hans : validateUpstreamResponse query response = .ok ()) (lastError : Raised) (e : Exchange) :
    ∃ k, (forwardUdpLoop query (failing ++ .datagram response :: behind) lastError).run e
      = (.ok response, { e with forwarded := e.forwarded ++ List.replicate (k + 1) query }) := by
  have hrun := @run_forwardUdpLoop_datagram query response failing behind hfail lastError e
  rwa [hans] at hrun

/-- `forward_udp` returns a datagram of the upstream and sends the client nothing. -/
theorem run_forwardUdpLoop_sound {query : Octets} {addresses : List Outcome} {lastError : Raised}
    {e e' : Exchange} {result : Except Raised Octets}
    (h : (forwardUdpLoop query addresses lastError).run e = (result, e')) :
    e'.replies = e.replies ∧ ∀ r, result = .ok r → Outcome.datagram r ∈ addresses := by
  induction addresses generalizing lastError e with
  | nil =>
    rw [forwardUdpLoop, Session.run_throw] at h
    cases h
    exact ⟨rfl, by rintro r ⟨⟩⟩
  | cons o addresses ih =>
    cases o with
    | unreachable =>
      obtain ⟨hreplies, hmem⟩ := ih h
      exact ⟨hreplies, fun r hr => List.mem_cons_of_mem _ (hmem r hr)⟩
    | timeout =>
      rw [forwardUdpLoop, Session.run_bind_ok (run_sendUpstream ..)] at h
      obtain ⟨hreplies, hmem⟩ := ih h
      exact ⟨hreplies, fun r hr => List.mem_cons_of_mem _ (hmem r hr)⟩
    | datagram response =>
      rw [forwardUdpLoop, Session.run_bind_ok (run_sendUpstream ..)] at h
      cases hvalid : validateUpstreamResponse query response with
      | error err =>
        rw [Session.run_ofExcept_bind_error hvalid] at h
        cases h
        exact ⟨rfl, by rintro r ⟨⟩⟩
      | ok _ =>
        rw [Session.run_ofExcept_bind hvalid, Session.run_pure] at h
        cases h
        refine ⟨rfl, ?_⟩
        rintro r ⟨⟩
        exact List.mem_cons_self

/-! ### The handlers -/

section

variable {d : Dnspython} {w : Octets}

/-- The TCP handler on a query that is forwarded: it goes on, or it ends behind what its scenario
sends. -/
theorem run_serveLoop_sent (hfresh : isFresh d w = .ok false) {s : Scenario}
    (hs : queryScenario w = .ok s) (hopen : ¬ (s = .closeBeforeResponse ∨ s = .stall))
    {response rest : Octets} {rests : List (Option Peer)} {c : Connection}
    (hc : c.client.peer.stream = framed w ++ rest) (hne : w ≠ []) (hlen : w.length ≤ 65535)
    (hup : c.Upstream response rests) (hans : Answers w response) (n : Nat) :
    ∃ c', c.client.After c'.client rest ((sentParts response s).filter fun part => part ≠ []) ∧
      c'.upstreams = rests ∧ c'.forwarded = c.forwarded ++ [framed w] ∧
      (serveLoop d (n + 1)).run c
        = if s = .normal ∨ s = .forceTcp then (serveLoop d n).run c' else (.ok (), c') := by
  obtain ⟨sock, hrecv, hafter⟩ := run_recvFrame hc hne hlen
  have hrecv' : (onClient recvFrame).run c = (.ok w, { c with client := sock }) := by
    rw [run_onClient, hrecv]
  have hforward := @run_forwardTcp w response { c with client := sock } rests ⟨hup.upstreams⟩
    hlen hans
  have hsend := run_sendFrame hans.ne_nil hans.size (framedParts_eq hans.size s) sock
  refine ⟨⟨{ sock with
      written := sock.written ++ (sentParts response s).filter fun part => part ≠ [] }, rests,
    c.forwarded ++ [framed w]⟩, ?_, rfl, rfl, ?_⟩
  · exact ⟨hafter.stream, hafter.ending, by rw [hafter.written, List.append_nil]⟩
  · rw [serveLoop, Session.run_bind_ok hrecv', Session.run_ofExcept_bind hfresh,
      if_neg Bool.false_ne_true, Session.run_ofExcept_bind hs, if_neg hopen,
      Session.run_bind_ok hforward, Session.run_bind, run_onClient, hsend]
    dsimp only
    split_ifs
    · rfl
    · rfl

/-- The TCP handler on a query that is relayed: it goes on, or it ends behind the relayed frame. -/
theorem run_serveLoop_forwarded (hfresh : isFresh d w = .ok false) {s : Scenario}
    (hs : queryScenario w = .ok s)
    (hrelay : s ∈ [Scenario.normal, .forceTcp, .splitPrefix, .splitBody, .bytewise, .delayed])
    {response rest : Octets} {rests : List (Option Peer)} {c : Connection}
    (hc : c.client.peer.stream = framed w ++ rest) (hne : w ≠ []) (hlen : w.length ≤ 65535)
    (hup : c.Upstream response rests) (hans : Answers w response) (n : Nat) :
    ∃ c' parts, parts.flatten = framed response ∧ c.client.After c'.client rest parts ∧
      c'.upstreams = rests ∧ c'.forwarded = c.forwarded ++ [framed w] ∧
      (serveLoop d (n + 1)).run c
        = if s = .normal ∨ s = .forceTcp then (serveLoop d n).run c' else (.ok (), c') := by
  have hopen : ¬ (s = .closeBeforeResponse ∨ s = .stall) := by
    rintro (rfl | rfl)
    · exact absurd hrelay (by decide)
    · exact absurd hrelay (by decide)
  obtain ⟨c', hafter, hups, hforwarded, hrun⟩ :=
    run_serveLoop_sent hfresh hs hopen hc hne hlen hup hans n
  refine ⟨c', _, ?_, hafter, hups, hforwarded, hrun⟩
  rw [flatten_filter_ne_nil, flatten_sentParts response hrelay]

/-- The TCP handler on a query that the proxy cannot read. -/
theorem run_serveLoop_unread (hfresh : isFresh d w = .ok false) {e : Raised}
    (hs : queryScenario w = .error e) {rest : Octets} {c : Connection}
    (hc : c.client.peer.stream = framed w ++ rest) (hne : w ≠ []) (hlen : w.length ≤ 65535) (n : Nat) :
    ∃ c', c.client.After c'.client rest [] ∧ c'.forwarded = c.forwarded ∧
      (serveLoop d (n + 1)).run c = (.error e, c') := by
  obtain ⟨sock, hrecv, hafter⟩ := run_recvFrame hc hne hlen
  have hrecv' : (onClient recvFrame).run c = (.ok w, { c with client := sock }) := by
    rw [run_onClient, hrecv]
  refine ⟨{ c with client := sock }, hafter, rfl, ?_⟩
  rw [serveLoop, Session.run_bind_ok hrecv', Session.run_ofExcept_bind hfresh,
    if_neg Bool.false_ne_true, Session.run_ofExcept_bind_error hs]

/-- The UDP handler on a query that is relayed. -/
theorem handleUdp_forwarded (hfresh : isFresh d w = .ok false) {s : Scenario}
    (hs : queryScenario w = .ok s)
    (hrelay : s ∉ [Scenario.closeBeforeResponse, .stall, .forceTcp]) {response : Octets}
    {failing behind : List Outcome} (hfail : ∀ o ∈ failing, Fails o)
    (hans : validateUpstreamResponse w response = .ok ()) :
    ∃ k, handleUdp d w (failing ++ .datagram response :: behind)
      = (.ok (), ⟨List.replicate (k + 1) w, [response]⟩) := by
  simp only [List.mem_cons, List.not_mem_nil, or_false, not_or] at hrelay
  obtain ⟨hclose, hstall, htcp⟩ := hrelay
  obtain ⟨k, hk⟩ := @run_forwardUdpLoop _ _ _ behind hfail hans .osError ⟨[], []⟩
  refine ⟨k, ?_⟩
  have hrun : (serveDatagram d w (failing ++ .datagram response :: behind)).run ⟨[], []⟩
      = (.ok (), ⟨List.replicate (k + 1) w, [response]⟩) := by
    rw [serveDatagram, Session.run_ofExcept_bind hfresh, if_neg Bool.false_ne_true,
      Session.run_ofExcept_bind hs, if_neg (not_or.mpr ⟨hclose, hstall⟩), if_neg htcp, forwardUdp,
      Session.run_bind_ok hk]
    rfl
  rw [handleUdp, hrun]

/-- The UDP handler on a query that the proxy cannot read. -/
theorem handleUdp_unread (hfresh : isFresh d w = .ok false) {m : String}
    (hs : queryScenario w = .error (.dnsFormatError m)) (addresses : List Outcome) :
    handleUdp d w addresses = (.ok (), ⟨[], []⟩) := by
  have hrun : (serveDatagram d w addresses).run ⟨[], []⟩ = (.error (.dnsFormatError m), ⟨[], []⟩) := by
    rw [serveDatagram, Session.run_ofExcept_bind hfresh, if_neg Bool.false_ne_true,
      Session.run_ofExcept_bind_error hs]
  rw [handleUdp, hrun]
  rfl

end

/-! ### Requests -/

/-- A well-formed request: a whole header and, if it has a question, the name and the words of the
first one.  The first name of a message has nothing to point to, so its labels are written out. -/
structure Request (w : Octets) (h : Header) (first : Option Name) : Prop where
  header : readHeader w = some h
  eq_none_iff : first = none ↔ h.qdcount = 0
  holds : ∀ n, first = some n → HoldsAt w 12 (wireLabels n.labels) ∧
    12 + nameLength n.labels + 4 ≤ w.length

/-- The proxy can read the request, or does not try. -/
def IsRead (h : Header) (first : Option Name) : Prop :=
  hasFlag h.flags Flag.opcodeMask ∨ h.qdcount = 0 ∨
    (h.qdcount = 1 ∧ ∀ n, first = some n → ∀ l ∈ n.labels, ∀ b ∈ l, b.toNat < 128)

/-- The first question is for neither a fresh name nor a fault of the legacy scenarios. -/
structure Foreign (first : Option Name) : Prop where
  not_fresh : ∀ n, first = some n → foldCase (lastLabels n) ≠ SUFFIX
  not_fault : ∀ n, first = some n → ∀ s, s ∉ [Scenario.normal, .delayed] → ¬ Spells n.labels s

theorem length_labels_lt (n : Name) : n.labels.length < 128 := by
  have hshort := two_mul_length_lt_nameLength n.legal.label_ne_nil
  have hle := n.legal.total_le
  omega

section

variable {w : Octets} {h : Header} {first : Option Name}

theorem Request.expands (hw : Request w h first) {n : Name} (hn : first = some n) :
    Expands w 12 n.labels [] :=
  expands_of_holdsAt n.legal.label_ne_nil n.legal.label_le (hw.holds n hn).1

/-- The proxy reads the first question of a request when it is the only one and its labels are
ASCII. -/
theorem Request.readsQuestion_iff (hw : Request w h first) {n : Name} (hn : first = some n) :
    (∃ ls ps, ReadsQuestion w ls ps) ↔ h.qdcount = 1 ∧ ∀ l ∈ n.labels, ∀ b ∈ l, b.toNat < 128 := by
  constructor
  · rintro ⟨ls, ps, hread⟩
    obtain ⟨h', hh', hcount⟩ := hread.qdcount
    rw [hw.header] at hh'
    cases hh'
    obtain ⟨_, hdec, -⟩ := hread.decodes
    obtain ⟨rfl, -⟩ := hdec.expands.unique (hw.expands hn)
    exact ⟨hcount, hdec.ascii⟩
  · rintro ⟨hcount, hascii⟩
    obtain ⟨hholds, hlen⟩ := hw.holds n hn
    exact ⟨n.labels, [], ⟨h, hw.header, hcount⟩, _, ⟨hw.expands hn, length_labels_lt n, hascii,
      endsAt_of_holdsAt n.legal.label_ne_nil n.legal.label_le hholds⟩, hlen⟩

/-- What the proxy selects for a request that it can read. -/
theorem Request.queryScenario_of_isRead (hw : Request w h first) (hforeign : Foreign first)
    (hread : IsRead h first) : ∃ s ∈ [Scenario.normal, .delayed], queryScenario w = .ok s := by
  by_cases hbypass : hasFlag h.flags Flag.opcodeMask ∨ h.qdcount = 0
  · refine ⟨.normal, List.mem_cons_self, ?_⟩
    unfold queryScenario
    rw [hw.header]
    dsimp only
    rw [if_pos hbypass]
    rfl
  rw [not_or] at hbypass
  obtain ⟨n, hn⟩ := Option.ne_none_iff_exists'.mp (mt hw.eq_none_iff.mp hbypass.2)
  have hone := (hread.resolve_left hbypass.1).resolve_left hbypass.2
  obtain ⟨ls, ps, hquestion⟩ := (hw.readsQuestion_iff hn).mpr ⟨hone.1, hone.2 n hn⟩
  have hrun : queryScenario w = .ok (scenarioFor (labelsText ls)) := by
    unfold queryScenario
    rw [hw.header]
    dsimp only
    rw [if_neg (not_or.mpr hbypass), parseQuestionName_eq_ok_iff.mpr ⟨ls, ps, hquestion, rfl⟩]
    rfl
  refine ⟨_, ?_, hrun⟩
  -- a fault would be spelt by the first question
  by_contra hfault
  have hnormal : scenarioFor (labelsText ls) ≠ .normal := fun heq =>
    hfault (heq ▸ List.mem_cons_self)
  obtain ⟨_, hdec, -⟩ := hquestion.decodes
  obtain ⟨rfl, -⟩ := hdec.expands.unique (hw.expands hn)
  exact hforeign.not_fault n hn _ hfault
    ((scenarioFor_labelsText_iff hquestion.ascii hnormal).mp rfl)

/-- A request that the proxy cannot read raises its own exception. -/
theorem Request.queryScenario_of_not_isRead (hw : Request w h first) (hread : ¬ IsRead h first) :
    ∃ m, queryScenario w = .error (.dnsFormatError m) := by
  unfold IsRead at hread
  rw [not_or, not_or] at hread
  obtain ⟨hop, hcount, hother⟩ := hread
  obtain ⟨n, hn⟩ := Option.ne_none_iff_exists'.mp (mt hw.eq_none_iff.mp hcount)
  refine queryScenario_error hw.header hop hcount fun ls ps hquestion => hother ?_
  obtain ⟨hone, hascii⟩ := (hw.readsQuestion_iff hn).mp ⟨ls, ps, hquestion⟩
  refine ⟨hone, fun n' hn' => ?_⟩
  rw [hn] at hn'
  cases hn'
  exact hascii

theorem Request.isFresh_eq {d : Dnspython} (hd : d.Documented) (hw : Request w h first)
    (hforeign : Foreign first) : isFresh d w = .ok false := by
  rw [isFresh_eq_false_iff hd, isFresh_iff hd]
  rintro ⟨h', ls, ps, hh', hcount, hexp, -, -, hsuffix⟩
  rw [hw.header] at hh'
  cases hh'
  obtain ⟨n, hn⟩ := Option.ne_none_iff_exists'.mp (mt hw.eq_none_iff.mp hcount)
  obtain ⟨rfl, -⟩ := hexp.unique (hw.expands hn)
  exact hforeign.not_fresh n hn hsuffix

end

/-- Both handlers pass the request and its answer on as they are. -/
structure Relayed (d : Dnspython) (w : Octets) : Prop where
  udp : ∀ failing response behind, (∀ o ∈ failing, Fails o) → 12 ≤ response.length →
    response.take 2 = w.take 2 →
    ∃ k, handleUdp d w (failing ++ .datagram response :: behind)
      = (.ok (), ⟨List.replicate (k + 1) w, [response]⟩)
  tcp : ∀ (c : Connection) response rest rests n, c.client.peer.stream = framed w ++ rest →
    w.length ≤ 65535 → c.Upstream response rests → Answers w response →
    ∃ c' parts, parts.flatten = framed response ∧ c.client.After c'.client rest parts ∧
      c'.forwarded = c.forwarded ++ [framed w] ∧
      ((serveLoop d (n + 1)).run c = (serveLoop d n).run c' ∨
        (serveLoop d (n + 1)).run c = (.ok (), c'))

/-- Both handlers drop the request: nothing is sent, to the upstream or to the client. -/
structure Dropped (d : Dnspython) (w : Octets) : Prop where
  udp : ∀ addresses, handleUdp d w addresses = (.ok (), ⟨[], []⟩)
  tcp : ∀ (c : Connection) rest, c.client.peer.stream = framed w ++ rest → w.length ≤ 65535 →
    ∃ c', handleTcp d c = (.ok (), c') ∧ c.client.After c'.client rest [] ∧
      c'.forwarded = c.forwarded

/-- **Requests are relayed as they are** when the proxy reads them or need not; a QUERY with several
questions or a label that is not ASCII is dropped. -/
theorem relayed_or_dropped {d : Dnspython} (hd : d.Documented) {w : Octets} {h : Header}
    {first : Option Name} (hw : Request w h first) (hforeign : Foreign first) :
    (IsRead h first → Relayed d w) ∧ (¬ IsRead h first → Dropped d w) := by
  have hfresh := hw.isFresh_eq hd hforeign
  have hne : w ≠ [] := by
    rintro rfl
    cases hw.header
  constructor
  · intro hread
    obtain ⟨s, hs, hscenario⟩ := hw.queryScenario_of_isRead hforeign hread
    refine ⟨fun failing response behind hfail h12 hid => ?_,
      fun c response rest rests n hc hlen hup hans => ?_⟩
    · have hans : validateUpstreamResponse w response = .ok () := by
        rw [validateUpstreamResponse, if_neg (Nat.not_lt.mpr h12), if_neg (not_not_intro hid)]
        rfl
      have hudp : s ∉ [Scenario.closeBeforeResponse, .stall, .forceTcp] :=
        (by decide : ∀ s ∈ [Scenario.normal, .delayed],
          s ∉ [Scenario.closeBeforeResponse, .stall, .forceTcp]) s hs
      exact handleUdp_forwarded hfresh hscenario hudp hfail hans
    · have htcp : s ∈ [Scenario.normal, .forceTcp, .splitPrefix, .splitBody, .bytewise, .delayed] :=
        (by decide : ∀ s ∈ [Scenario.normal, .delayed],
          s ∈ [Scenario.normal, .forceTcp, .splitPrefix, .splitBody, .bytewise, .delayed]) s hs
      obtain ⟨c', parts, hparts, hafter, -, hforwarded, hrun⟩ :=
        run_serveLoop_forwarded hfresh hscenario htcp hc hne hlen hup hans n
      refine ⟨c', parts, hparts, hafter, hforwarded, ?_⟩
      split_ifs at hrun
      · exact Or.inl hrun
      · exact Or.inr hrun
  · intro hread
    obtain ⟨m, hscenario⟩ := hw.queryScenario_of_not_isRead hread
    refine ⟨handleUdp_unread hfresh hscenario, fun c rest hc hlen => ?_⟩
    obtain ⟨c', hafter, hforwarded, hrun⟩ :=
      run_serveLoop_unread hfresh hscenario hc hne hlen (MAX_TCP_QUERIES - 1)
    refine ⟨c', ?_, hafter, hforwarded⟩
    have hrun' : (serveLoop d MAX_TCP_QUERIES).run c = (.error (.dnsFormatError m), c') := hrun
    rw [handleTcp, hrun']
    rfl

/-! ### Examples of requests -/

theorem request_ask (n : Name) (kind : UInt16) :
    Request (Reference.ask n.labels kind) ⟨0x1234, 0x0100, 1, 0, 0, 0⟩ (some n) := by
  have hask : Reference.ask n.labels kind = [0x12, 0x34, 1, 0, 0, 1, 0, 0, 0, 0, 0, 0] ++
      wireLabels n.labels ++ (packU16 kind ++ [0, 1]) := by
    rw [Reference.ask, List.append_assoc _ (packU16 kind)]
  refine ⟨?_, iff_of_false (Option.some_ne_none n) (by decide : (1 : UInt16) ≠ 0), ?_⟩
  · rw [hask, List.append_assoc]
    exact readHeader_of_holdsAt ⟨_, rfl⟩
  · rintro _ ⟨⟩
    rw [hask]
    refine ⟨holdsAt_of_split _ _ _, ?_⟩
    simp only [List.length_append, length_wireLabels, length_packU16, List.length_cons,
      List.length_nil]
    omega

theorem foreign_of_ne {n : Name} (hfresh : foldCase (lastLabels n) ≠ SUFFIX)
    (hdots : ∀ l ∈ n.labels, (46 : UInt8) ∉ l) (howner : ∀ s, foldCase n.labels ≠ transportOwner s) :
    Foreign (some n) := by
  refine ⟨?_, ?_⟩
  · rintro _ ⟨⟩
    exact hfresh
  · rintro _ ⟨⟩ s - hspells
    exact howner s (eq_transportOwner_of_dotted n.legal.label_ne_nil hdots hspells)

/-- The name `host.example.test`. -/
def Reference.host : Name :=
  ⟨[textOctets "host", textOctets "example", textOctets "test"], by decide⟩

/-- The name of one label, the octet 255. -/
def Reference.octet : Name := ⟨[[255]], by decide⟩

/-- A query for `host.example.test` is relayed. -/
theorem relayed_host : Relayed Reference.dnspython (Reference.ask Reference.host.labels RRType.A) := by
  have hforeign : Foreign (some Reference.host) :=
    foreign_of_ne (by decide) (by decide) (by intro s; cases s <;> decide)
  obtain ⟨hrelayed, -⟩ := relayed_or_dropped Reference.documented
    (request_ask Reference.host RRType.A) hforeign
  exact hrelayed (Or.inr (Or.inr ⟨rfl, by rintro _ ⟨⟩; decide⟩))

/-- A query for the label of the octet 255 is not sent upstream. -/
theorem not_relayed_octet : Reference.dnspython.Documented ∧ ∃ h first,
    Request (Reference.ask Reference.octet.labels RRType.A) h first ∧ Foreign first ∧
    ¬ Relayed Reference.dnspython (Reference.ask Reference.octet.labels RRType.A) := by
  refine ⟨Reference.documented, _, _, request_ask Reference.octet RRType.A,
    foreign_of_ne (by decide) (by decide) (by intro s; cases s <;> decide), fun hrelayed => ?_⟩
  obtain ⟨k, hk⟩ := hrelayed.udp [] (Reference.ask Reference.octet.labels RRType.A) [] (by simp)
    (by decide) rfl
  have hrun : handleUdp Reference.dnspython (Reference.ask Reference.octet.labels RRType.A)
      [.datagram (Reference.ask Reference.octet.labels RRType.A)] = (.ok (), ⟨[], []⟩) := by
    decide +kernel
  have heq := hrun.symm.trans hk
  cases heq

end DnsFixtures
