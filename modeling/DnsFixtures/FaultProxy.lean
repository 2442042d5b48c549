import DnsFixtures.FreshTransport

/-!
# `dns_fault_proxy.py`

The client-facing proxy: its own reader of the question name (`decodeName`), the selection of a
fault by that name (`queryScenario`), the forwarders and the two handlers.  Logging and pauses are
not modelled.

A `Connection` is a TCP session: the client's socket, the upstream connections that will be opened
and what was written to them.
-/

namespace DnsFixtures

open Dns

/-! ### Scenarios -/

inductive Scenario where
  | normal | forceTcp | splitPrefix | splitBody | bytewise | delayed | closeBeforeResponse
  | closeAfterPrefix | closeMidBody | lengthMismatch | stall | duplicateResponse | trailingBytes
  deriving DecidableEq, Repr

namespace Scenario

def value : Scenario → String
  | normal => "normal"
  | forceTcp => "force-tcp"
  | splitPrefix => "split-prefix"
  | splitBody => "split-body"
  | bytewise => "bytewise"
  | delayed => "delayed"
  | closeBeforeResponse => "close-before-response"
  | closeAfterPrefix => "close-after-prefix"
  | closeMidBody => "close-mid-body"
  | lengthMismatch => "length-mismatch"
  | stall => "stall"
  | duplicateResponse => "duplicate-response"
  | trailingBytes => "trailing-bytes"

def all : List Scenario :=
  [normal, forceTcp, splitPrefix, splitBody, bytewise, delayed, closeBeforeResponse,
    closeAfterPrefix, closeMidBody, lengthMismatch, stall, duplicateResponse, trailingBytes]

/-- `SCENARIO_BY_LABEL.get(label)`. -/
def byLabel (label : String) : Option Scenario := all.find? fun s => s.value = label

end Scenario

/-! ### The question name -/

/-- The loop of `_decode_name` with at most `n` turns to go: the labels so far, the offset behind
the name once a pointer was followed, and the pointers followed. -/
def decodeNameLoop (message : Octets) :
    Nat → Nat → List String → Option Nat → List Nat → Except Raised (String × Nat)
  | 0, _, _, _, _ => throw (.dnsFormatError "compression pointer loop or excessive depth")
  | n + 1, cursor, labels, endOffset, visited =>
    match message[cursor]? with
    | none => throw (.dnsFormatError "truncated DNS name")
    | some length =>
      if length &&& 0xC0 = 0xC0 then
        match message[cursor + 1]? with
        | none => throw (.dnsFormatError "truncated compression pointer")
        | some low =>
          let pointer := pointerTarget length low
          if message.length ≤ pointer then
            throw (.dnsFormatError "compression pointer is out of bounds")
          else if pointer ∈ visited ∨ pointer = cursor then
            throw (.dnsFormatError "compression pointer loop")
          else
            -- the offset behind the name is that behind its first pointer
            decodeNameLoop message n pointer labels (endOffset <|> some (cursor + 2))
              (pointer :: visited)
      else if length &&& 0xC0 ≠ 0 then throw (.dnsFormatError "invalid DNS label length")
      else if length = 0 then
        let name := if labels = [] then "." else ".".intercalate labels
        return (lowerText name, endOffset.getD (cursor + 1))
      else if message.length < cursor + 1 + length.toNat then
        throw (.dnsFormatError "truncated DNS label")
      else
        match decodeAscii ((message.drop (cursor + 1)).take length.toNat) with
        | none => throw (.dnsFormatError "DNS label is not ASCII")
        | some label =>
          decodeNameLoop message n (cursor + 1 + length.toNat) (labels ++ [label]) endOffset visited

/-- `_decode_name`. -/
def decodeName (message : Octets) (offset : Nat) : Except Raised (String × Nat) :=
  decodeNameLoop message 128 offset [] none []

/-- `_question_end`. -/
def questionEnd (message : Octets) : Except Raised (String × Nat) :=
  match readHeader message with
  | none => throw (.dnsFormatError "DNS header is truncated")
  | some h =>
    if h.qdcount ≠ 1 then throw (.dnsFormatError "exactly one question is required")
    else do
      let (qname, nameEnd) ← decodeName message 12
      if message.length < nameEnd + 4 then throw (.dnsFormatError "truncated DNS question")
      else return (qname, nameEnd + 4)

def parseQuestionName (message : Octets) : Except Raised String := Prod.fst <$> questionEnd message

/-- `s.rstrip(".")`. -/
def rstripDots (s : List Char) : List Char := (s.reverse.dropWhile (· = '.')).reverse

def scenarioFor (qname : String) : Scenario :=
  match (rstripDots (lowerText qname).toList).splitOn '.' with
  | [label, l1, l2, l3] =>
    if [l1, l2, l3] = ["transport".toList, "example".toList, "test".toList] then
      (Scenario.byLabel (String.ofList label)).getD .normal
    else .normal
  | _ => .normal

/-- `_query_scenario`. -/
def queryScenario (query : Octets) : Except Raised Scenario :=
  match readHeader query with
  | some h =>
    -- IQUERY and a QUERY without questions have no scenario name
    if hasFlag h.flags Flag.opcodeMask ∨ h.qdcount = 0 then return .normal
    else scenarioFor <$> parseQuestionName query
  | none => scenarioFor <$> parseQuestionName query

variable (d : Dnspython)

/-- `make_truncated_response`. -/
def makeTruncatedResponse (query : Octets) : Except Raised Octets :=
  if (readU16 query 10).getD 0 ≠ 0 then do
    let message ← d.messageFromWire query
    let response ← d.makeResponse message
    d.toWire { response with flags := response.flags ||| (Flag.TC ||| Flag.AA) }
      (if message.payload = 0 then 65535 else max 512 message.payload) false
  else do
    let (_, questionEnd) ← questionEnd query
    match readHeader query with
    | none => throw .structError
    | some h =>
      -- QR, AA, TC, optional RD
      return packU16 h.id ++ packU16 (0x8600 ||| (h.flags &&& 0x0100)) ++ packU16 1 ++
        packU16 0 ++ packU16 0 ++ packU16 0 ++ (query.take questionEnd).drop 12

/-! ### Frames -/

/-- `recv_frame`. -/
def recvFrame : Session Sock Octets := do
  let size ← Sock.recvAll 2 .eofError
  match readU16 size 0 with
  | none => throw .structError
  | some length =>
    if length = 0 then throw (.dnsFormatError "zero-length DNS-over-TCP frame")
    else Sock.recvAll length.toNat .eofError

/-- `_write_parts`: empty parts are left out. -/
def writeParts (parts : List Octets) : Session Sock Unit :=
  sendParts (parts.filter fun part => part ≠ [])

def TRAILING_BYTES : Octets := textOctets "DNSLAB-TRAILING"

/-- What `send_frame` writes. -/
def framedParts (payload : Octets) : Scenario → Except Raised (List Octets)
  | .normal | .forceTcp => return [← frame payload]
  | .splitPrefix => do
    let size ← packLength payload.length
    return [size.take 1, size.drop 1, payload]
  | .splitBody => return (← packLength payload.length) :: slices 64 payload
  | .bytewise => return (← frame payload).map fun byte => [byte]
  | .delayed => return (← packLength payload.length) :: slices 256 payload
  | .closeBeforeResponse | .stall => return []
  | .closeAfterPrefix => return [← packLength payload.length]
  | .closeMidBody => return [← packLength payload.length, payload.take (payload.length / 2)]
  | .lengthMismatch =>
    return [← packLength (min 65535 (payload.length + 16)), payload.take (payload.length / 2)]
  | .duplicateResponse => do
    let framed ← frame payload
    return [framed, framed]
  | .trailingBytes => return [← frame payload, TRAILING_BYTES]

/-- `send_frame`. -/
def sendFrame (payload : Octets) (scenario : Scenario) : Session Sock Unit :=
  if payload.length < 1 ∨ 65535 < payload.length then
    throw (.dnsFormatError "response payload length is outside 1..65535")
  else do
    let parts ← Session.ofExcept (framedParts payload scenario)
    writeParts parts

/-! ### Forwarding -/

/-- `_validate_upstream_response`. -/
def validateUpstreamResponse (query response : Octets) : Except Raised Unit :=
  if response.length < 12 then throw (.dnsFormatError "upstream response header is truncated")
  else if response.take 2 ≠ query.take 2 then
    throw (.dnsFormatError "upstream response transaction ID does not match")
  else return ()

/-- A TCP session. -/
structure Connection where
  client : Sock
  /-- the upstream connections to come; one that is `none` is refused -/
  upstreams : List (Option Peer)
  /-- what was written to each upstream connection -/
  forwarded : List Octets
  deriving DecidableEq, Repr

/-- A computation on the client's socket. -/
def onClient {α : Type} (m : Session Sock α) : Session Connection α :=
  Session.zoom Connection.client (fun s c => { c with client := s }) m

/-- The exchange of `forward_tcp` on an open upstream connection. -/
def exchange (query : Octets) : Session Sock Octets := do
  let framed ← Session.ofExcept (frame query)
  sendall framed
  recvFrame

/-- Open an upstream connection and run the exchange on it. -/
def connectAndExchange (query : Octets) : Session Connection Octets := fun c =>
  match c.upstreams with
  | some peer :: rest =>
    let r := (exchange query).run ⟨peer, []⟩
    (r.1, { c with upstreams := rest, forwarded := c.forwarded ++ [r.2.written.flatten] })
  | none :: rest => (.error .osError, { c with upstreams := rest })
  | [] => (.error .osError, c)

/-- `forward_tcp`. -/
def forwardTcp (query : Octets) : Session Connection Octets := do
  let response ← connectAndExchange query
  Session.ofExcept (validateUpstreamResponse query response)
  return response

/-- What comes of sending a datagram to one upstream address. -/
inductive Outcome where
  /-- the socket cannot be made, or does not send -/
  | unreachable
  | timeout
  | datagram (response : Octets)
  deriving DecidableEq, Repr

/-- A UDP request: what its handler sent upstream and to the client. -/
structure Exchange where
  forwarded : List Octets
  replies : List Octets
  deriving DecidableEq, Repr

def sendUpstream (query : Octets) : Session Exchange Unit :=
  Session.modifyState fun e => { e with forwarded := e.forwarded ++ [query] }

def sendClient (response : Octets) : Session Exchange Unit :=
  Session.modifyState fun e => { e with replies := e.replies ++ [response] }

/-- The loop of `forward_udp` over the addresses that are left, with the last error. -/
def forwardUdpLoop (query : Octets) : List Outcome → Raised → Session Exchange Octets
  | [], lastError => throw lastError
  | .unreachable :: rest, _ => forwardUdpLoop query rest .osError
  | .timeout :: rest, _ => do
    sendUpstream query
    forwardUdpLoop query rest .timeout
  -- only `OSError` is caught: what the validation raises ends the loop
  | .datagram response :: _, _ => do
    sendUpstream query
    Session.ofExcept (validateUpstreamResponse query response)
    return response

/-- `forward_udp`; without an address it raises `OSError`. -/
def forwardUdp (query : Octets) (addresses : List Outcome) : Session Exchange Octets :=
  forwardUdpLoop query addresses .osError

/-! ### The handlers -/

/-- `MAX_TCP_QUERIES` -/
def MAX_TCP_QUERIES : Nat := 64

/-- The loop of `_TCPHandler.handle` with at most `n` queries to go. -/
def serveLoop : Nat → Session Connection Unit
  | 0 => pure ()
  | n + 1 => do
    let query ← onClient recvFrame
    if ← Session.ofExcept (isFresh d query) then
      if ← onClient (serveFreshTcp d query) then serveLoop n else return ()
    else
      let scenario ← Session.ofExcept (queryScenario query)
      if scenario = .closeBeforeResponse ∨ scenario = .stall then return ()
      else
        let response ← forwardTcp query
        onClient (sendFrame response scenario)
        -- every other scenario ends the connection behind its response
        if scenario = .normal ∨ scenario = .forceTcp then serveLoop n else return ()

/-- The exceptions that both handlers log. -/
def Raised.isLogged : Raised → Bool
  | .dnsFormatError _ | .timeout | .osError => true
  | _ => false

/-- `_TCPHandler.handle`: the connection it leaves, and the exception it does not catch. -/
def handleTcp (c : Connection) : Except Raised Unit × Connection :=
  match (serveLoop d MAX_TCP_QUERIES).run c with
  | (.ok (), c) => (.ok (), c)
  | (.error e, c) => if e.isLogged ∨ e = .eofError then (.ok (), c) else (.error e, c)

/-- The body of `_UDPHandler.handle` inside its `try`. -/
def serveDatagram (query : Octets) (addresses : List Outcome) : Session Exchange Unit := do
  if ← Session.ofExcept (isFresh d query) then
    let response ← Session.ofExcept (answerFresh d query false)
    if response ≠ [] then sendClient response else return ()
  else
    let scenario ← Session.ofExcept (queryScenario query)
    if scenario = .closeBeforeResponse ∨ scenario = .stall then return ()
    else
      let response ← if scenario = .forceTcp then Session.ofExcept (makeTruncatedResponse d query)
        else forwardUdp query addresses
      sendClient response

/-- `_UDPHandler.handle`. -/
def handleUdp (query : Octets) (addresses : List Outcome) : Except Raised Unit × Exchange :=
  match (serveDatagram d query addresses).run ⟨[], []⟩ with
  | (.ok (), e) => (.ok (), e)
  | (.error err, e) => if err.isLogged then (.ok (), e) else (.error err, e)

end DnsFixtures
