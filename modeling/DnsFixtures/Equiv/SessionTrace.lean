import DnsFixtures.SessionTrace
import DnsFixtures.Equiv.FrameStream
import DnsFixtures.Equiv.Handlers

/-!
# Sessions on events are the handlers on sockets

`sessionEnv` answers a handler as `connectionEnv` and `exchangeEnv` do, so that the handlers, with all
that a stream is cut into, are the sessions on the frames of the stream (`handleTcp_eq_session`,
`handleUdp_eq_session`).  What a session does on the front of its input it does on all of it
(`monotone_sessionEnv`); on sockets this says that the octets behind those that have come change nothing
that was done before (`handleTcp_causal`).
-/

namespace DnsFixtures

open Dns Concurrency

/-! ### Reading where no frame is left -/

theorem run_recvLoop_short {size : Nat} (eof : Raised) {fuel : Nat} {received : Octets} {p : Peer}
    (hsize : received.length + p.stream.length < size) (hfuel : size ≤ received.length + fuel) :
    ∃ p', (recvLoop size eof fuel received).run p = (.error (p.ending.raised eof), p') := by
  induction fuel generalizing received p with
  | zero => omega
  | succ fuel ih =>
    rw [recvLoop, if_pos (by omega)]
    by_cases hnil : p.stream = []
    · cases hend : p.ending with
      | closed =>
        have hrecv : (recv (size - received.length)).run p = (.ok [], p) := by
          rw [run_recv, if_pos hnil, hend]
        refine ⟨p, ?_⟩
        rw [Session.run_bind_ok hrecv, if_pos rfl, Session.run_throw]
        rfl
      | silent => exact ⟨p, Session.run_bind_error (by rw [run_recv, if_pos hnil, hend]; rfl)⟩
      | broken => exact ⟨p, Session.run_bind_error (by rw [run_recv, if_pos hnil, hend]; rfl)⟩
    · obtain ⟨n, cuts, hn, -, hrecv⟩ :=
        run_recv_of_ne_nil hnil (by omega : 0 < size - received.length)
      have hpos := List.length_pos_iff.mpr hnil
      have hchunk : p.stream.take n ≠ [] := by
        rw [Ne, List.take_eq_nil_iff]
        exact not_or.mpr ⟨Nat.ne_of_gt hn, hnil⟩
      have hleft : (received ++ p.stream.take n).length + (p.stream.drop n).length
          = received.length + p.stream.length := by
        rw [List.length_append, Nat.add_assoc, ← List.length_append, List.take_append_drop]
      have hgain : received.length + 1 ≤ (received ++ p.stream.take n).length := by
        rw [List.length_append]
        exact Nat.add_le_add_left (List.length_pos_iff.mpr hchunk) _
      obtain ⟨p', hrun⟩ : ∃ p', (recvLoop size eof fuel (received ++ p.stream.take n)).run
          { p with stream := p.stream.drop n, cuts := cuts } = (.error (p.ending.raised eof), p') :=
        ih (by rw [hleft]; exact hsize) (by omega)
      exact ⟨p', by rw [Session.run_bind_ok hrecv, if_neg hchunk, hrun]⟩

theorem run_recvAll_short {size : Nat} (eof : Raised) {s : Sock} (h : s.peer.stream.length < size) :
    ∃ s', (Sock.recvAll size eof).run s = (.error (s.peer.ending.raised eof), s') ∧
      s'.written = s.written := by
  obtain ⟨p, hrun⟩ : ∃ p, (recvAll size eof).run s.peer = (.error (s.peer.ending.raised eof), p) :=
    run_recvLoop_short eof (by simpa using h) (by simp)
  refine ⟨{ s with peer := p }, ?_, rfl⟩
  rw [Sock.recvAll, Session.run_zoom, hrun]

/-- Two octets are there, and what they declare is read. -/
theorem run_recvAll_two {s : Sock} {declared : UInt16} (hread : readU16 s.peer.stream 0 = some declared) :
    ∃ s', (Sock.recvAll 2 .eofError).run s = (.ok (packU16 declared), s') ∧
      s.After s' (s.peer.stream.drop 2) [] ∧ readU16 (packU16 declared) 0 = some declared := by
  obtain ⟨rest, hrest⟩ := (holdsAt_zero_iff _ _).mp (readU16_eq_some_iff.mp hread)
  obtain ⟨s', hrun, hafter⟩ := run_recvAll_sock .eofError hrest.symm
  rw [length_packU16] at hrun
  have hdrop : s.peer.stream.drop 2 = rest := by
    rw [← hrest]
    exact List.drop_left' (length_packU16 _)
  rw [hdrop]
  exact ⟨s', hrun, hafter, HoldsAt.readU16 (List.prefix_refl _)⟩

theorem lt_two_of_readU16 {bs : Octets} (h : readU16 bs 0 = none) : bs.length < 2 := by
  have hshort := (readU16_isSome_iff bs 0).not.mp (by rw [h]; decide)
  omega

/-- The octets that are declared, where they are not all there. -/
theorem lt_of_not_beginsWithFrame {bs : Octets} {declared : UInt16} (h : ¬ BeginsWithFrame bs)
    (hread : readU16 bs 0 = some declared) (hzero : declared ≠ 0) :
    (bs.drop 2).length < declared.toNat := by
  by_contra hle
  have h2 := (readU16_isSome_iff bs 0).mp (by rw [hread]; rfl)
  rw [List.length_drop] at hle
  exact h ⟨_, _, eq_framed_append hread hzero (by omega)⟩

theorem run_recvFrame_tail {s : Sock} (h : ¬ BeginsWithFrame s.peer.stream) :
    ∃ s', recvFrame.run s = (.error (frameError s.peer.stream s.peer.ending), s') ∧
      s'.written = s.written := by
  rw [frameError]
  cases hread : readU16 s.peer.stream 0 with
  | none =>
    obtain ⟨s', hrun, hwritten⟩ := run_recvAll_short .eofError (lt_two_of_readU16 hread)
    exact ⟨s', Session.run_bind_error hrun, hwritten⟩
  | some declared =>
    obtain ⟨s₁, hrun₁, h₁, hsize⟩ := run_recvAll_two hread
    unfold recvFrame
    rw [Session.run_bind_ok hrun₁, hsize]
    dsimp only
    by_cases hzero : declared = 0
    · rw [if_pos hzero, if_pos hzero]
      exact ⟨s₁, Session.run_throw .., by rw [h₁.written, List.append_nil]⟩
    · rw [if_neg hzero, if_neg hzero, ← h₁.ending]
      obtain ⟨s₂, hrun₂, h₂⟩ := run_recvAll_short (s := s₁) .eofError
        (by rw [h₁.stream]; exact lt_of_not_beginsWithFrame h hread hzero)
      exact ⟨s₂, hrun₂, by rw [h₂, h₁.written, List.append_nil]⟩

theorem run_next_tail {s : Sock} (h : ¬ BeginsWithFrame s.peer.stream) :
    ∃ s', next.run s = (.error (nextError s.peer.stream s.peer.ending), s') ∧
      s'.written = s.written := by
  rw [nextError]
  cases hread : readU16 s.peer.stream 0 with
  | none =>
    obtain ⟨s', hrun, hwritten⟩ := run_recvAll_short .eofError (lt_two_of_readU16 hread)
    exact ⟨s', Session.run_bind_error hrun, hwritten⟩
  | some declared =>
    obtain ⟨s₁, hrun₁, h₁, hsize⟩ := run_recvAll_two hread
    unfold next
    rw [Session.run_bind_ok hrun₁, hsize]
    dsimp only
    by_cases h12 : declared < 12
    · rw [if_pos h12, if_pos h12]
      exact ⟨s₁, Session.run_throw .., by rw [h₁.written, List.append_nil]⟩
    · rw [if_neg h12, if_neg h12, ← h₁.ending]
      have hzero : declared ≠ 0 := by
        rintro rfl
        exact h12 (by decide)
      obtain ⟨s₂, hrun₂, h₂⟩ := run_recvAll_short (s := s₁) .eofError
        (by rw [h₁.stream]; exact lt_of_not_beginsWithFrame h hread hzero)
      exact ⟨s₂, hrun₂, by rw [h₂, h₁.written, List.append_nil]⟩

theorem run_next_short {s : Sock} {bs rest : Octets} (hs : s.peer.stream = framed bs ++ rest)
    (hlen : bs.length < 12) :
    ∃ s', next.run s = (.error .eofError, s') ∧ s'.written = s.written := by
  obtain ⟨s₁, hrun₁, h₁, hsize⟩ := run_recvAll_two (by rw [hs, readU16_framed])
  refine ⟨s₁, ?_, by rw [h₁.written, List.append_nil]⟩
  have h12 : UInt16.ofNat bs.length < 12 := by
    rw [UInt16.lt_iff_toNat_lt, toNat_ofNat_length (by omega)]
    exact hlen
  unfold next
  rw [Session.run_bind_ok hrun₁, hsize]
  dsimp only
  rw [if_pos h12, Session.run_throw]

/-! ### The input of a connection -/

theorem inputsOf_of_decomposes {p : Peer} {frames : List Octets} {trailing : Octets}
    {expected : Option Nat} (h : Decomposes p.stream frames trailing expected) :
    inputsOf p = frames.map .frame ++ [.tail trailing p.ending] := by
  rw [inputsOf, h.parseFrames_eq]

/-- However a stream is cut, its input is the same. -/
theorem inputsOf_congr {p p' : Peer} (hstream : p'.stream = p.stream) (hending : p'.ending = p.ending) :
    inputsOf p' = inputsOf p := by
  rw [inputsOf, inputsOf, hstream, hending]

theorem inputsOf_tail {p : Peer} (h : ¬ BeginsWithFrame p.stream) :
    inputsOf p = [.tail p.stream p.ending] := by
  have hall : Decomposes p.stream [] p.stream _ :=
    ⟨rfl, fun _ hf => absurd hf List.not_mem_nil, h, rfl⟩
  exact inputsOf_of_decomposes hall

theorem inputsOf_frame {p p' : Peer} {bs : Octets} (hs : p.stream = framed bs ++ p'.stream)
    (hending : p'.ending = p.ending) (hpos : 1 ≤ bs.length) (hlen : bs.length ≤ 65535) :
    inputsOf p = .frame bs :: inputsOf p' := by
  have h := decomposes_parseFrames p'.stream
  have hp : Decomposes p.stream (bs :: (parseFrames p'.stream).1) (parseFrames p'.stream).2.1
      (parseFrames p'.stream).2.2 := by
    refine ⟨?_, ?_, h.maximal, h.expected_eq⟩
    · rw [hs, List.flatMap_cons, List.append_assoc, ← h.concat]
    · intro f hf
      rcases List.mem_cons.mp hf with rfl | hf
      · exact ⟨hpos, hlen⟩
      · exact h.lengths f hf
  rw [inputsOf_of_decomposes hp, inputsOf_of_decomposes h, hending]
  rfl

theorem inputsOf_cases (p : Peer) :
    (inputsOf p = [.tail p.stream p.ending] ∧ ¬ BeginsWithFrame p.stream) ∨
      ∃ bs rest, p.stream = framed bs ++ rest ∧ 1 ≤ bs.length ∧ bs.length ≤ 65535 ∧
        inputsOf p = .frame bs :: inputsOf { p with stream := rest } := by
  by_cases h : BeginsWithFrame p.stream
  · obtain ⟨bs, rest, hs, hpos, hlen⟩ := h
    exact Or.inr ⟨bs, rest, hs, hpos, hlen, inputsOf_frame hs rfl hpos hlen⟩
  · exact Or.inl ⟨inputsOf_tail h, h⟩

/-! ### What traces show -/

section

variable (t t' : List Event) (bs : Octets) (line : LogLine)

@[simp] theorem sent_append : sent (t ++ t') = sent t ++ sent t' := List.filterMap_append

@[simp] theorem forwarded_append : forwarded (t ++ t') = forwarded t ++ forwarded t' :=
  List.filterMap_append

@[simp] theorem received_append : received (t ++ t') = received t ++ received t' :=
  List.filterMap_append

@[simp] theorem logged_append : logged (t ++ t') = logged t ++ logged t' := List.filterMap_append

@[simp] theorem sent_sent : sent [.sent bs] = [bs] := rfl

@[simp] theorem sent_received : sent [.received bs] = [] := rfl

@[simp] theorem sent_forwarded : sent [.forwarded bs] = [] := rfl

@[simp] theorem sent_logged : sent [.logged line] = [] := rfl

@[simp] theorem forwarded_sent : forwarded [.sent bs] = [] := rfl

@[simp] theorem forwarded_received : forwarded [.received bs] = [] := rfl

@[simp] theorem forwarded_forwarded : forwarded [.forwarded bs] = [bs] := rfl

@[simp] theorem forwarded_logged : forwarded [.logged line] = [] := rfl

@[simp] theorem sent_map_logged (lines : List LogLine) : sent (lines.map .logged) = [] := by
  induction lines with
  | nil => rfl
  | cons line lines ih => exact ih

@[simp] theorem forwarded_map_logged (lines : List LogLine) : forwarded (lines.map .logged) = [] := by
  induction lines with
  | nil => rfl
  | cons line lines ih => exact ih

end

/-! ### TCP -/

/-- The outputs of a connection, behind `w` and `f`, are those of the trace. -/
structure ShowsTrace (w f : List Octets) (c : Connection) (s : SessionState) : Prop where
  written : c.client.written = w ++ sent s.trace
  forwarded : c.forwarded = f ++ forwarded s.trace

/-- The connection and the session are in the same state. -/
structure SameConnection (w f : List Octets) (c : Connection) (s : SessionState) : Prop
    extends ShowsTrace w f c s where
  input : s.input = inputsOf c.client.peer
  answers : s.answers = c.upstreams.map answerOf
  addresses : s.addresses = []

section

variable {w f : List Octets} {c : Connection} {s : SessionState}

/-- A step that writes nothing to the client. -/
theorem ShowsTrace.of_written (h : ShowsTrace w f c s) {sock : Sock}
    (hwritten : sock.written = c.client.written) : ShowsTrace w f { c with client := sock } s :=
  ⟨hwritten.trans h.written, h.forwarded⟩

/-- A frame is received. -/
theorem SameConnection.received (h : SameConnection w f c s) {sock : Sock} {rest bs : Octets}
    (hafter : c.client.After sock rest []) :
    SameConnection w f { c with client := sock }
      ({ s with input := inputsOf { c.client.peer with stream := rest } }.record (.received bs)) where
  written := by
    rw [SessionState.record, sent_append, sent_received, List.append_nil, hafter.written,
      List.append_nil]
    exact h.written
  forwarded := by
    rw [SessionState.record, forwarded_append, forwarded_received, List.append_nil]
    exact h.forwarded
  input := inputsOf_congr hafter.stream.symm hafter.ending.symm
  answers := h.answers
  addresses := h.addresses

/-- Something is written to the client. -/
theorem SameConnection.wrote (h : SameConnection w f c s) (part : Octets) :
    SameConnection w f { c with client := { c.client with written := c.client.written ++ [part] } }
      (s.record (.sent part)) where
  written := by
    rw [SessionState.record, sent_append, sent_sent, ← List.append_assoc, ← h.written]
  forwarded := by
    rw [SessionState.record, forwarded_append, forwarded_sent, List.append_nil]
    exact h.forwarded
  input := h.input
  answers := h.answers
  addresses := h.addresses

theorem exists_answerOf (peer : Peer) : ∃ answer, answerOf (some peer) = some answer := by
  rcases inputsOf_cases peer with ⟨hinput, -⟩ | ⟨bs, rest, -, -, -, hinput⟩
  · exact ⟨_, by rw [answerOf, hinput]⟩
  · exact ⟨_, by rw [answerOf, hinput]⟩

/-- What an exchange returns is the first frame of the upstream. -/
theorem run_exchange {query framed : Octets} (hframe : frame query = .ok framed) (peer : Peer) :
    ∃ result sock, (exchange query).run ⟨peer, []⟩ = (result, sock) ∧ sock.written = [framed] ∧
      answerOf (some peer) = some result := by
  unfold exchange
  rw [Session.run_ofExcept_bind hframe, Session.run_bind_ok (run_sendall framed _)]
  rcases inputsOf_cases peer with ⟨hinput, hstop⟩ | ⟨bs, rest, hs, hpos, hlen, hinput⟩
  · obtain ⟨sock, hrun, hwritten⟩ := run_recvFrame_tail (s := ⟨peer, [framed]⟩) hstop
    exact ⟨_, sock, hrun, hwritten, by rw [answerOf, hinput]⟩
  · obtain ⟨sock, hrun, hafter⟩ := run_recvFrame (s := ⟨peer, [framed]⟩) hs
      (List.length_pos_iff.mp hpos) hlen
    exact ⟨_, sock, hrun, by rw [hafter.written, List.append_nil], by rw [answerOf, hinput]⟩

/-- An upstream connection is used up, and something was written to it. -/
theorem SameConnection.exchanged (h : SameConnection w f c s) (message : Octets)
    (rest : List (Option Peer)) :
    SameConnection w f { c with upstreams := rest, forwarded := c.forwarded ++ [message] }
      ({ s with answers := rest.map answerOf }.record (.forwarded message)) where
  written := by
    rw [SessionState.record, sent_append, sent_forwarded, List.append_nil]
    exact h.written
  forwarded := by
    rw [SessionState.record, forwarded_append, forwarded_forwarded, ← List.append_assoc, ← h.forwarded]
  input := h.input
  answers := rfl
  addresses := h.addresses

theorem SameConnection.exchange (h : SameConnection w f c s) (query : Octets) :
    Program.Agrees (SameConnection w f) (ShowsTrace w f) (connectionEnv (.exchange query) c)
      (sessionEnv (.exchange query) s) := by
  rw [connectionEnv, sessionEnv, h.answers]
  rcases hup : c.upstreams with _ | ⟨_ | peer, rest⟩
  · rw [run_connectAndExchange_nil hup]
    exact .error h.toShowsTrace
  · rw [run_connectAndExchange_none hup]
    exact .error ⟨h.written, h.forwarded⟩
  · rw [run_connectAndExchange_some hup]
    cases hframe : frame query with
    | error e =>
      have hrun : (DnsFixtures.exchange query).run ⟨peer, []⟩ = (.error e, ⟨peer, []⟩) :=
        Session.run_ofExcept_bind_error hframe _ _
      obtain ⟨answer, hanswer⟩ := exists_answerOf peer
      rw [List.map_cons, hanswer, hrun]
      exact .error (h.exchanged [] rest).toShowsTrace
    | ok framed =>
      obtain ⟨result, sock, hrun, hwritten, hanswer⟩ := run_exchange hframe peer
      have hsame := h.exchanged framed rest
      rw [List.map_cons, hanswer, hrun, hwritten, List.flatten_singleton]
      cases result with
      | error e => exact .error hsame.toShowsTrace
      | ok response => exact .ok hsame

end

/-- **Sockets and events**: the calls of a handler have the same replies. -/
theorem simulates_connectionEnv (w f : List Octets) :
    Program.Simulates connectionEnv sessionEnv (SameConnection w f) (ShowsTrace w f) := by
  refine ⟨SameConnection.toShowsTrace, fun call c s h => ?_⟩
  cases call with
  | recvFrame =>
    rw [connectionEnv, sessionEnv, h.input, onClient, Session.run_zoom]
    rcases inputsOf_cases c.client.peer with ⟨hinput, hstop⟩ | ⟨bs, rest, hs, hpos, hlen, hinput⟩
    · obtain ⟨sock, hrun, hwritten⟩ := run_recvFrame_tail hstop
      rw [hinput, hrun]
      exact .error (h.of_written hwritten)
    · obtain ⟨sock, hrun, hafter⟩ := run_recvFrame hs (List.length_pos_iff.mp hpos) hlen
      rw [hinput, hrun]
      exact .ok (h.received hafter)
  | next =>
    rw [connectionEnv, sessionEnv, h.input, onClient, Session.run_zoom]
    rcases inputsOf_cases c.client.peer with ⟨hinput, hstop⟩ | ⟨bs, rest, hs, hpos, hlen, hinput⟩
    · obtain ⟨sock, hrun, hwritten⟩ := run_next_tail hstop
      rw [hinput, hrun]
      exact .error (h.of_written hwritten)
    · rw [hinput]
      dsimp only
      by_cases h12 : bs.length < 12
      · obtain ⟨sock, hrun, hwritten⟩ := run_next_short hs h12
        rw [hrun, if_pos h12]
        exact .error (h.of_written hwritten)
      · obtain ⟨sock, hrun, hafter⟩ := run_next hs (Nat.not_lt.mp h12) hlen
        rw [hrun, if_neg h12]
        exact .ok (h.received hafter)
  | sendall part => exact .ok (h.wrote part)
  | sendto part => exact .ok (h.wrote part)
  | exchange query => exact h.exchange query
  | getaddrinfo =>
    rw [connectionEnv, sessionEnv, h.addresses]
    exact .ok h
  | sendUpstream query =>
    rw [connectionEnv, sessionEnv, h.addresses]
    exact .error h.toShowsTrace
  | assign scenario => exact .ok ⟨⟨h.written, h.forwarded⟩, h.input, h.answers, h.addresses⟩
  | logEvent event transport reason =>
    refine .ok ⟨⟨?_, ?_⟩, h.input, h.answers, h.addresses⟩
    · rw [SessionState.record, sent_append, sent_logged, List.append_nil]
      exact h.written
    · rw [SessionState.record, forwarded_append, forwarded_logged, List.append_nil]
      exact h.forwarded

/-! ### UDP -/

/-- The exchange and the session are in the same state. -/
structure SameExchange (state : Exchange × List Outcome) (s : SessionState) : Prop where
  replies : state.1.replies = sent s.trace
  forwarded : state.1.forwarded = forwarded s.trace
  addresses : s.addresses = state.2
  input : s.input = []
  answers : s.answers = []

section

variable {state : Exchange × List Outcome} {s : SessionState}

theorem SameExchange.wrote (h : SameExchange state s) (response : Octets) :
    SameExchange ({ state.1 with replies := state.1.replies ++ [response] }, state.2)
      (s.record (.sent response)) where
  replies := by
    rw [SessionState.record, sent_append, sent_sent, ← h.replies]
  forwarded := by
    rw [SessionState.record, forwarded_append, forwarded_sent, List.append_nil]
    exact h.forwarded
  addresses := h.addresses
  input := h.input
  answers := h.answers

theorem SameExchange.asked (h : SameExchange state s) (query : Octets) (rest : List Outcome) :
    SameExchange ({ state.1 with forwarded := state.1.forwarded ++ [query] }, rest)
      ({ s with addresses := rest }.record (.forwarded query)) where
  replies := by
    rw [SessionState.record, sent_append, sent_forwarded, List.append_nil]
    exact h.replies
  forwarded := by
    rw [SessionState.record, forwarded_append, forwarded_forwarded, ← h.forwarded]
  addresses := rfl
  input := h.input
  answers := h.answers

end

/-- **Datagrams and events**: the calls of a handler have the same replies. -/
theorem simulates_exchangeEnv :
    Program.Simulates exchangeEnv sessionEnv SameExchange SameExchange := by
  refine ⟨id, fun call state s h => ?_⟩
  obtain ⟨e, addresses⟩ := state
  cases call with
  | recvFrame =>
    rw [exchangeEnv, sessionEnv, h.input]
    exact .blocked
  | next =>
    rw [exchangeEnv, sessionEnv, h.input]
    exact .blocked
  | sendall part => exact .ok (h.wrote part)
  | sendto part => exact .ok (h.wrote part)
  | exchange query =>
    rw [exchangeEnv, sessionEnv, h.answers]
    exact .error h
  | getaddrinfo =>
    rw [exchangeEnv, sessionEnv, h.addresses]
    exact .ok h
  | sendUpstream query =>
    rw [sessionEnv, h.addresses]
    rcases addresses with _ | ⟨_ | _ | response, rest⟩
    · exact .error h
    · exact .ok ⟨h.replies, h.forwarded, rfl, h.input, h.answers⟩
    · exact .ok (h.asked query rest)
    · exact .ok (h.asked query rest)
  | assign scenario => exact .ok ⟨h.replies, h.forwarded, h.addresses, h.input, h.answers⟩
  | logEvent event transport reason =>
    refine .ok ⟨?_, ?_, h.addresses, h.input, h.answers⟩
    · rw [SessionState.record, sent_append, sent_logged, List.append_nil]
      exact h.replies
    · rw [SessionState.record, forwarded_append, forwarded_logged, List.append_nil]
      exact h.forwarded

/-! ### The handlers are the sessions -/

theorem catchRaised_fst (tcp : Bool) (s s' : Scenario) (result : Except Raised Unit) :
    (catchRaised tcp s result).1 = (catchRaised tcp s' result).1 := by
  cases result with
  | ok _ => rfl
  | error e =>
    simp only [catchRaised]
    cases e.reason tcp <;> rfl

theorem conclude_some (tcp : Bool) (result : Except Raised Unit) (s : SessionState) :
    conclude tcp (some result, s) = (some (catchRaised tcp .normal result).1,
      s.trace ++ (catchRaised tcp s.scenario result).2.map .logged) := by
  rw [conclude, catchRaised_fst tcp .normal s.scenario]

theorem run_serveLoop_session (d : Dnspython) (c : Connection) : ∃ result c' s,
    (Handler.serveLoop d MAX_TCP_QUERIES).run sessionEnv
        ((Start.tcp (c.upstreams.map answerOf)).state (inputsOf c.client.peer)) = (some result, s) ∧
      handleTcp d c = ((catchRaised true .normal result).1, c') ∧
      ShowsTrace c.client.written c.forwarded c' s := by
  obtain ⟨result, c', hrun, hhandle⟩ := run_serveLoop d c
  have hsame : SameConnection c.client.written c.forwarded c
      ((Start.tcp (c.upstreams.map answerOf)).state (inputsOf c.client.peer)) :=
    ⟨⟨(List.append_nil _).symm, (List.append_nil _).symm⟩, rfl, rfl, rfl⟩
  obtain ⟨hresult, hshows⟩ := Program.run_of_simulates (simulates_connectionEnv _ _)
    (Handler.serveLoop d MAX_TCP_QUERIES) hsame
  rw [hrun] at hresult hshows
  exact ⟨result, c', _, Prod.ext hresult.symm rfl, hhandle, hshows⟩

theorem run_serveDatagram_session (d : Dnspython) (query : Octets) (addresses : List Outcome) :
    ∃ result e s, (Handler.serveDatagram d query).run sessionEnv
        ((Start.udp query addresses).state []) = (some result, s) ∧
      handleUdp d query addresses = ((catchRaised false .normal result).1, e) ∧
      e.replies = sent s.trace ∧ e.forwarded = forwarded s.trace := by
  obtain ⟨result, e, rest, hrun, hhandle⟩ := run_serveDatagram d query addresses
  have hsame : SameExchange (⟨[], []⟩, addresses) ((Start.udp query addresses).state []) :=
    ⟨rfl, rfl, rfl, rfl, rfl⟩
  obtain ⟨hresult, hshows⟩ := Program.run_of_simulates simulates_exchangeEnv
    (Handler.serveDatagram d query) hsame
  rw [hrun] at hresult hshows
  exact ⟨result, e, _, Prod.ext hresult.symm rfl, hhandle, hshows.replies, hshows.forwarded⟩

/-- **Two levels**: a connection is handled as the session on its frames, however its streams and those
of the upstreams are cut, and a datagram as its session. -/
theorem handlers_eq_sessions (d : Dnspython) :
    (∀ c : Connection, ∃ result trace,
      session d (.tcp (c.upstreams.map answerOf)) (inputsOf c.client.peer) = (some result, trace) ∧
      (handleTcp d c).1 = result ∧
      (handleTcp d c).2.client.written = c.client.written ++ sent trace ∧
      (handleTcp d c).2.forwarded = c.forwarded ++ forwarded trace) ∧
    ∀ query addresses, ∃ result trace,
      session d (.udp query addresses) [] = (some result, trace) ∧
      handleUdp d query addresses = (result, ⟨forwarded trace, sent trace⟩) := by
  constructor
  · intro c
    obtain ⟨result, c', s, hrun, hhandle, hshows⟩ := run_serveLoop_session d c
    rw [session, Start.handler, Start.isTcp, hrun, conclude_some, hhandle]
    refine ⟨_, _, rfl, rfl, ?_, ?_⟩
    · rw [sent_append, sent_map_logged, List.append_nil, hshows.written]
    · rw [forwarded_append, forwarded_map_logged, List.append_nil, hshows.forwarded]
  · intro query addresses
    obtain ⟨result, e, s, hrun, hhandle, hreplies, hforwarded⟩ :=
      run_serveDatagram_session d query addresses
    rw [session, Start.handler, Start.isTcp, hrun, conclude_some, hhandle]
    refine ⟨_, _, rfl, ?_⟩
    rw [sent_append, sent_map_logged, List.append_nil, forwarded_append, forwarded_map_logged,
      List.append_nil, ← hreplies, ← hforwarded]

/-! ### More input -/

/-- The second input has all the frames of the first one, and may go on where that one ends. -/
inductive Continues : List Input → List Input → Prop
  | nil {more : List Input} : Continues [] more
  | tail {trailing : Octets} {ending : Ending} {rest more : List Input} :
      Continues (.tail trailing ending :: rest) more
  | frame {query : Octets} {rest more : List Input} : Continues rest more →
      Continues (.frame query :: rest) (.frame query :: more)

theorem continues_append {frames : List Octets} {input more : List Input}
    (h : Continues input more) : Continues (frames.map .frame ++ input) (frames.map .frame ++ more) := by
  induction frames with
  | nil => exact h
  | cons query frames ih => exact .frame ih

/-- The same state, with an input that goes on. -/
def SessionState.Extends (s t : SessionState) : Prop :=
  ∃ more, Continues s.input more ∧ t = { s with input := more }

theorem SessionState.prefix_record (s : SessionState) (e : Event) :
    s.trace <+: (s.record e).trace := List.prefix_append ..

theorem prefix_sessionEnv {c : Call} {s s' : SessionState} {r : Except Raised (Reply c)}
    (h : sessionEnv c s = some (r, s')) : s.trace <+: s'.trace := by
  cases c with
  | recvFrame =>
    rw [sessionEnv] at h
    split at h
    · cases h
    · cases h
      exact s.prefix_record _
    · cases h
      exact List.prefix_refl _
  | next =>
    rw [sessionEnv] at h
    split at h
    · cases h
    · split_ifs at h
      · cases h
        exact List.prefix_refl _
      · cases h
        exact s.prefix_record _
    · cases h
      exact List.prefix_refl _
  | exchange query =>
    rw [sessionEnv] at h
    split at h
    · cases h
      exact List.prefix_refl _
    · cases h
      exact List.prefix_refl _
    · split at h
      · cases h
        exact s.prefix_record _
      · cases h
        exact s.prefix_record _
  | sendUpstream query =>
    rw [sessionEnv] at h
    split at h
    · cases h
      exact List.prefix_refl _
    · cases h
      exact List.prefix_refl _
    · cases h
      exact s.prefix_record _
  | getaddrinfo | assign scenario =>
    cases h
    exact List.prefix_refl _
  | sendall part | sendto part | logEvent event transport reason =>
    cases h
    exact s.prefix_record _

/-- **More input**: with it a session does what it did, and goes on. -/
theorem monotone_sessionEnv : Program.Monotone sessionEnv SessionState.Extends
    fun s t => s.trace <+: t.trace := by
  refine ⟨fun _ => List.prefix_refl _, List.IsPrefix.trans, ?_, prefix_sessionEnv, ?_⟩
  · rintro s t ⟨more, -, rfl⟩
    exact List.prefix_refl _
  · rintro c s t ⟨more, hmore, rfl⟩
    obtain ⟨input, answers, addresses, scenario, trace⟩ := s
    cases c with
    | recvFrame =>
      cases hmore with
      | nil => exact .blocked
      | tail => exact .ended (List.prefix_refl _)
      | frame hmore => exact .ok ⟨_, hmore, rfl⟩
    | next =>
      cases hmore with
      | nil => exact .blocked
      | tail => exact .ended (List.prefix_refl _)
      | @frame query rest more hmore =>
        simp only [sessionEnv]
        split_ifs
        · exact .error (List.prefix_refl _)
        · exact .ok ⟨_, hmore, rfl⟩
    | exchange query =>
      rcases answers with _ | ⟨_ | answer, answers⟩
      · exact .error (List.prefix_refl _)
      · exact .error (List.prefix_refl _)
      · simp only [sessionEnv]
        cases frame query with
        | error e => exact .error (List.prefix_refl _)
        | ok framed =>
          cases answer with
          | error e => exact .error (List.prefix_refl _)
          | ok response => exact .ok ⟨more, hmore, rfl⟩
    | sendUpstream query =>
      rcases addresses with _ | ⟨_ | _ | response, addresses⟩
      · exact .error (List.prefix_refl _)
      · exact .ok ⟨more, hmore, rfl⟩
      · exact .ok ⟨more, hmore, rfl⟩
      · exact .ok ⟨more, hmore, rfl⟩
    | getaddrinfo | assign scenario => exact .ok ⟨more, hmore, rfl⟩
    | sendall part | sendto part | logEvent event transport reason => exact .ok ⟨more, hmore, rfl⟩

/-- The frames of the front of a stream are the first frames of the stream. -/
theorem continues_inputsOf {p p' : Peer} (h : p.stream <+: p'.stream) :
    Continues (inputsOf p) (inputsOf p') := by
  obtain ⟨more, hmore⟩ := h
  have hp := decomposes_parseFrames p.stream
  obtain ⟨frames, trailing, expected, hp'⟩ : ∃ frames trailing expected,
      Decomposes ((parseFrames p.stream).2.1 ++ more) frames trailing expected :=
    ⟨_, _, _, decomposes_parseFrames _⟩
  rw [hp.concat, List.append_assoc] at hmore
  have hall : Decomposes p'.stream ((parseFrames p.stream).1 ++ frames) trailing expected := by
    refine ⟨?_, ?_, hp'.maximal, hp'.expected_eq⟩
    · rw [← hmore, List.flatMap_append, List.append_assoc, ← hp'.concat]
    · intro f hf
      rcases List.mem_append.mp hf with hf | hf
      · exact hp.lengths f hf
      · exact hp'.lengths f hf
  rw [inputsOf_of_decomposes hall, inputsOf, List.map_append, List.append_assoc]
  exact continues_append .tail

theorem prefix_sent {t t' : List Event} (h : t <+: t') : sent t <+: sent t' := by
  obtain ⟨more, rfl⟩ := h
  rw [sent_append]
  exact List.prefix_append _ _

theorem prefix_forwarded {t t' : List Event} (h : t <+: t') : forwarded t <+: forwarded t' := by
  obtain ⟨more, rfl⟩ := h
  rw [forwarded_append]
  exact List.prefix_append _ _

/-- **Causality**: what was written for the front of a stream, to the client and upstream, is written
first for the whole stream.  How the front ends, how the streams are cut and what is behind the first
frame of an upstream does not matter. -/
theorem handleTcp_causal (d : Dnspython) {c c' : Connection}
    (hstream : c.client.peer.stream <+: c'.client.peer.stream)
    (hupstreams : c.upstreams.map answerOf = c'.upstreams.map answerOf)
    (hwritten : c.client.written = c'.client.written) (hforwarded : c.forwarded = c'.forwarded) :
    (handleTcp d c).2.client.written <+: (handleTcp d c').2.client.written ∧
      (handleTcp d c).2.forwarded <+: (handleTcp d c').2.forwarded := by
  obtain ⟨result, c₁, s₁, hrun, hhandle, hshows⟩ := run_serveLoop_session d c
  obtain ⟨result', c₁', s₁', hrun', hhandle', hshows'⟩ := run_serveLoop_session d c'
  have hextends : ((Start.tcp (c.upstreams.map answerOf)).state (inputsOf c.client.peer)).Extends
      ((Start.tcp (c'.upstreams.map answerOf)).state (inputsOf c'.client.peer)) :=
    ⟨_, continues_inputsOf hstream, by rw [hupstreams]; rfl⟩
  have htrace := (Program.run_of_extends monotone_sessionEnv
    (Handler.serveLoop d MAX_TCP_QUERIES) hextends).1
  rw [hrun, hrun'] at htrace
  rw [hhandle, hhandle', hshows.written, hshows'.written, hshows.forwarded, hshows'.forwarded,
    hwritten, hforwarded]
  exact ⟨(List.prefix_append_right_inj _).mpr (prefix_sent htrace),
    (List.prefix_append_right_inj _).mpr (prefix_forwarded htrace)⟩

theorem handleTcp_causal_cut :
    let stream := framed (Reference.ask Reference.host.labels RRType.A)
    let c : Connection := ⟨⟨⟨stream.take 9, [0, 3], .broken⟩, []⟩, [none], []⟩
    let c' : Connection := ⟨⟨⟨stream, [], .silent⟩, []⟩, [none], []⟩
    (handleTcp Reference.dnspython c).2.client.written
        <+: (handleTcp Reference.dnspython c').2.client.written ∧
      (handleTcp Reference.dnspython c).2.forwarded
        <+: (handleTcp Reference.dnspython c').2.forwarded :=
  handleTcp_causal Reference.dnspython (List.take_prefix ..) rfl rfl rfl

end DnsFixtures
