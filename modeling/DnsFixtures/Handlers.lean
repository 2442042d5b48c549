import DnsFixtures.Concurrency.Program
import DnsFixtures.FaultProxy

/-!
# The handlers of `dns_fault_proxy.py`, call by call

`_TCPHandler.handle` and `_UDPHandler.handle` as programs that call sockets and the log.  Each call is
one step, so that sessions can be interleaved and the order of what a session does can be spoken of;
`serveLoop` and `serveDatagram` tell only what has been written at the end.

`assign` is the assignment to the variable `scenario`, which the log lines name.  Pauses are not
modelled.
-/

namespace DnsFixtures

open Dns Concurrency

/-! ### The log -/

/-- What a line of the log says. -/
structure LogLine where
  event : String
  reason : String
  scenario : Scenario
  transport : String
  deriving DecidableEq, Repr

def allowedReasons : List String :=
  ["", "complete", "overload", "format", "timeout", "eof", "network", "shutdown", "access"]

/-- `log_event`. -/
def logEvent (event transport : String) (scenario : Scenario) (reason : String) : LogLine :=
  ⟨event, if reason ∈ allowedReasons then reason else "network", scenario, transport⟩

/-! ### Calls -/

inductive Call where
  /-- `recv_frame(self.request)` -/
  | recvFrame
  /-- `_next(sock)` -/
  | next
  /-- `sendall` on the connection of the client -/
  | sendall (part : Octets)
  /-- open an upstream connection, send the framed query and receive a frame -/
  | exchange (query : Octets)
  /-- the number of upstream addresses -/
  | getaddrinfo
  /-- send a datagram to the next upstream address and wait for one -/
  | sendUpstream (query : Octets)
  /-- `sock.sendto(response, self.client_address)` -/
  | sendto (response : Octets)
  | assign (scenario : Scenario)
  /-- `log_event` with the value of `scenario` -/
  | logEvent (event transport reason : String)

abbrev Reply : Call → Type
  | .recvFrame | .next | .exchange _ => Octets
  | .getaddrinfo => Nat
  | .sendUpstream _ => Outcome
  | .sendall _ | .sendto _ | .assign _ | .logEvent .. => Unit

abbrev Handler := Program Call Reply Raised

namespace Handler

abbrev perform (c : Call) : Handler (Reply c) := Program.perform c

abbrev ofExcept {α : Type} (x : Except Raised α) : Handler α := Program.ofExcept x

variable (d : Dnspython)

/-! ### `fresh_transport.py` -/

def sendParts (parts : List Octets) : Handler Unit :=
  parts.forM fun part => perform (.sendall part)

/-- `serve_fresh_tcp`. -/
def serveFreshTcp (query : Octets) : Handler Bool := do
  let key ← ofExcept (scenario d query)
  let reply ← ofExcept (answerFresh d query true)
  if reply = [] then return false
  else
    let framed ← ofExcept (frame reply)
    if key = "close-before" ∨ key = "stall" then return false
    else if key = "reordered" ∨ key = "coalesced" then do
      let second ← perform .next
      let third ← perform .next
      let frames ← ofExcept <|
        [query, second, third].mapM fun item => do frame (← answerFresh d item true)
      perform (.sendall (if key = "reordered" then frames.reverse else frames).flatten)
      return false
    else
      let framed ← ofExcept <|
        if key = "mismatch-id" then frame (changeId reply)
        else if key = "mismatch-question" then frame (changeQuestion reply)
        else return framed
      if key = "close-prefix" then do
        perform (.sendall (framed.take 2))
        return false
      else if key = "close-body" then do
        perform (.sendall (framed.take (2 + reply.length / 2)))
        return false
      else if key = "length-mismatch" then do
        let size ← ofExcept (packLength (reply.length + 16))
        perform (.sendall (size ++ reply))
        return false
      else do
        sendParts (frameParts key framed)
        if key = "duplicate" then do
          perform (.sendall framed)
          return false
        else if key = "trailing" then do
          perform (.sendall ([0, 16] ++ textOctets "garbage"))
          return false
        else return decide (key ∉ ["mismatch-id", "mismatch-question"])

/-! ### `_TCPHandler` -/

/-- `send_frame`. -/
def sendFrame (payload : Octets) (scenario : Scenario) : Handler Unit :=
  if payload.length < 1 ∨ 65535 < payload.length then
    .raise (.dnsFormatError "response payload length is outside 1..65535")
  else do
    let parts ← ofExcept (framedParts payload scenario)
    sendParts (parts.filter fun part => part ≠ [])

/-- `forward_tcp`. -/
def forwardTcp (query : Octets) : Handler Octets := do
  let response ← perform (.exchange query)
  ofExcept (validateUpstreamResponse query response)
  return response

/-- The loop of `_TCPHandler.handle` with at most `n` queries to go. -/
def serveLoop : Nat → Handler Unit
  | 0 => .pure ()
  | n + 1 => do
    let query ← perform .recvFrame
    if ← ofExcept (isFresh d query) then
      if ← serveFreshTcp d query then serveLoop n else return ()
    else
      let scenario ← ofExcept (queryScenario query)
      perform (.assign scenario)
      if scenario = .closeBeforeResponse ∨ scenario = .stall then return ()
      else
        let response ← forwardTcp query
        sendFrame response scenario
        perform (.logEvent "completed" "tcp" "complete")
        if scenario = .normal ∨ scenario = .forceTcp then serveLoop n else return ()

/-! ### `_UDPHandler` -/

/-- The loop of `forward_udp` over `n` addresses that are left, with the last error. -/
def forwardUdpLoop (query : Octets) : Nat → Raised → Handler Octets
  | 0, lastError => .raise lastError
  | n + 1, _ => do
    match ← perform (.sendUpstream query) with
    | .unreachable => forwardUdpLoop query n .osError
    | .timeout => forwardUdpLoop query n .timeout
    | .datagram response =>
      ofExcept (validateUpstreamResponse query response)
      return response

/-- `forward_udp`. -/
def forwardUdp (query : Octets) : Handler Octets := do
  let addresses ← perform .getaddrinfo
  forwardUdpLoop query addresses .osError

/-- The body of `_UDPHandler.handle` inside its `try`. -/
def serveDatagram (query : Octets) : Handler Unit := do
  if ← ofExcept (isFresh d query) then
    let response ← ofExcept (answerFresh d query false)
    if response ≠ [] then perform (.sendto response) else return ()
  else
    let scenario ← ofExcept (queryScenario query)
    perform (.assign scenario)
    if scenario = .closeBeforeResponse ∨ scenario = .stall then return ()
    else
      let response ← if scenario = .forceTcp then ofExcept (makeTruncatedResponse d query)
        else forwardUdp query
      perform (.sendto response)
      perform (.logEvent "completed" "udp" "complete")

end Handler

/-! ### Exceptions -/

/-- The reason that the `except` clauses of a handler log; without one the exception is not caught. -/
def Raised.reason (tcp : Bool) : Raised → Option String
  | .dnsFormatError _ => some "format"
  | .timeout => some "timeout"
  | .eofError => if tcp then some "eof" else none
  | .osError => some "network"
  | .dnsException _ | .structError => none

/-- The `except` clauses, with the value of `scenario`: what is logged, and what is not caught. -/
def catchRaised (tcp : Bool) (scenario : Scenario) :
    Except Raised Unit → Except Raised Unit × List LogLine
  | .ok () => (.ok (), [])
  | .error e =>
    match e.reason tcp with
    | some reason =>
      (.ok (), [logEvent "failed" (if tcp then "tcp" else "udp") scenario reason])
    | none => (.error e, [])

end DnsFixtures
