import DnsFixtures.Handlers
import DnsFixtures.TcpProbe

/-!
# Sessions as sequences of events

What a handler does is described here without sockets.  The stream of a client is a list of frames and,
where no whole frame is left, its `tail`; an upstream connection is the frame it answers with.
`sessionEnv` answers the calls of a handler on such a state and records its events in their order, and
`session` is the whole trace of a session, with the line that an exception leaves in the log.

A session whose input has not ended may have to wait for more of it; it has no result then.
-/

namespace DnsFixtures

open Dns Concurrency

/-- What the connection of a client holds next. -/
inductive Input where
  | frame (query : Octets)
  /-- no whole frame any more: the octets that are left, and what comes behind them -/
  | tail (trailing : Octets) (ending : Ending)
  deriving DecidableEq, Repr

/-- An upstream connection to come: `none` when it is refused, or else what its first frame is read
as. -/
abbrev Answer := Option (Except Raised Octets)

inductive Event where
  | received (query : Octets)
  /-- a `sendall` or `sendto` to the client -/
  | sent (part : Octets)
  /-- what was written to an upstream connection, or a datagram sent upstream -/
  | forwarded (message : Octets)
  | logged (line : LogLine)
  deriving DecidableEq, Repr

structure SessionState where
  input : List Input
  answers : List Answer
  /-- what comes of each upstream address that is left -/
  addresses : List Outcome
  scenario : Scenario
  trace : List Event

def SessionState.record (s : SessionState) (e : Event) : SessionState :=
  { s with trace := s.trace ++ [e] }

/-- What `recv_frame` raises where no whole frame is left. -/
def frameError (trailing : Octets) (ending : Ending) : Raised :=
  match readU16 trailing 0 with
  | none => ending.raised .eofError
  | some length =>
    if length = 0 then .dnsFormatError "zero-length DNS-over-TCP frame"
    else ending.raised .eofError

/-- What `_next` raises there. -/
def nextError (trailing : Octets) (ending : Ending) : Raised :=
  match readU16 trailing 0 with
  | none => ending.raised .eofError
  | some length => if length < 12 then .eofError else ending.raised .eofError

def sessionEnv : Env Call Reply Raised SessionState
  | .recvFrame, s =>
    match s.input with
    | [] => none
    | .frame query :: rest => some (.ok query, { s with input := rest }.record (.received query))
    | .tail trailing ending :: _ => some (.error (frameError trailing ending), s)
  | .next, s =>
    match s.input with
    | [] => none
    | .frame query :: rest =>
      if query.length < 12 then some (.error .eofError, s)
      else some (.ok query, { s with input := rest }.record (.received query))
    | .tail trailing ending :: _ => some (.error (nextError trailing ending), s)
  | .sendall part, s => some (.ok (), s.record (.sent part))
  | .exchange query, s =>
    match s.answers with
    | [] => some (.error .osError, s)
    | none :: rest => some (.error .osError, { s with answers := rest })
    | some answer :: rest =>
      match frame query with
      | .ok framed => some (answer, { s with answers := rest }.record (.forwarded framed))
      | .error e => some (.error e, { s with answers := rest }.record (.forwarded []))
  | .getaddrinfo, s => some (.ok s.addresses.length, s)
  | .sendUpstream query, s =>
    match s.addresses with
    | [] => some (.error .osError, s)
    | .unreachable :: rest => some (.ok .unreachable, { s with addresses := rest })
    | outcome :: rest => some (.ok outcome, { s with addresses := rest }.record (.forwarded query))
  | .sendto response, s => some (.ok (), s.record (.sent response))
  | .assign scenario, s => some (.ok (), { s with scenario := scenario })
  | .logEvent event transport reason, s =>
    some (.ok (), s.record (.logged (logEvent event transport s.scenario reason)))

/-! ### Sessions -/

/-- What a session starts with: a connection with the upstream connections to come, or a datagram with
what comes of each upstream address. -/
inductive Start where
  | tcp (answers : List Answer)
  | udp (query : Octets) (addresses : List Outcome)

namespace Start

def isTcp : Start → Bool
  | tcp _ => true
  | udp _ _ => false

/-- The handler of the session. -/
def handler (d : Dnspython) : Start → Handler Unit
  | tcp _ => Handler.serveLoop d MAX_TCP_QUERIES
  | udp query _ => Handler.serveDatagram d query

def state (input : List Input) : Start → SessionState
  | tcp answers => ⟨input, answers, [], .normal, []⟩
  | udp _ addresses => ⟨input, [], addresses, .normal, []⟩

end Start

/-- The `except` clauses behind the result of a handler, and the trace with what they log. -/
def conclude (tcp : Bool) :
    Option (Except Raised Unit) × SessionState → Option (Except Raised Unit) × List Event
  | (none, s) => (none, s.trace)
  | (some result, s) =>
    let (result, lines) := catchRaised tcp s.scenario result
    (some result, s.trace ++ lines.map .logged)

/-- A session on this input: how the handler ends, unless it has to wait for more, and all that has
happened. -/
def session (d : Dnspython) (start : Start) (input : List Input) :
    Option (Except Raised Unit) × List Event :=
  conclude start.isTcp ((start.handler d).run sessionEnv (start.state input))

/-! ### What a trace shows -/

def received (trace : List Event) : List Octets :=
  trace.filterMap fun
    | .received query => some query
    | _ => none

/-- What the client got. -/
def sent (trace : List Event) : List Octets :=
  trace.filterMap fun
    | .sent part => some part
    | _ => none

/-- What the upstream got. -/
def forwarded (trace : List Event) : List Octets :=
  trace.filterMap fun
    | .forwarded message => some message
    | _ => none

def logged (trace : List Event) : List LogLine :=
  trace.filterMap fun
    | .logged line => some line
    | _ => none

/-! ### Connections as input -/

/-- The frames that a peer sends, and what is behind them. -/
def inputsOf (peer : Peer) : List Input :=
  (parseFrames peer.stream).1.map .frame ++ [.tail (parseFrames peer.stream).2.1 peer.ending]

/-- The first frame that an upstream peer sends, or what reading it raises. -/
def answerOf : Option Peer → Answer
  | none => none
  | some peer =>
    match inputsOf peer with
    | .frame response :: _ => some (.ok response)
    | .tail trailing ending :: _ => some (.error (frameError trailing ending))
    | [] => none

end DnsFixtures
