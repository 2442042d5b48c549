import DnsFixtures.FaultProxy

/-!
# `tcp-probe.py` and the fault scenarios of `smoke-test.sh`

The probe sends one query over TCP and reads until the handler closes the connection or the client's
timeout expires.  `observe` runs the handler of the fault proxy behind the probe's socket and records
what the probe sees of it, and `evaluate` compares this with what the smoke test expects.

Each write of the handler is taken to be read in pieces of at most 4096 octets, apart from the next
one; the pauses between writes are not modelled, and the time that has passed is a parameter.
-/

namespace DnsFixtures

open Dns

inductive Expectation where
  | normal | splitPrefix | splitBody | bytewise | delayed | eofBeforeResponse | eofAfterPrefix
  | eofMidBody | lengthMismatch | stall | duplicateResponse | trailingBytes
  deriving DecidableEq, Repr

inductive RequestPattern where
  | whole | splitPrefix | splitBody | bytewise
  deriving DecidableEq, Repr

structure Observation where
  frames : List Octets
  readSizes : List Nat
  eof : Bool
  timedOut : Bool
  trailing : Octets
  incompleteExpected : Option Nat
  elapsedMs : Nat
  deriving DecidableEq, Repr

/-- The exceptions of the probe. -/
inductive ProbeError where
  | unicodeEncodeError
  | valueError (message : String)
  | structError
  | assertionError (message : String)
  deriving DecidableEq, Repr

/-! ### The query -/

/-- One label of `build_query`. -/
def buildLabel (label : List Char) : Except ProbeError Octets :=
  let encoded := textOctets (String.ofList label)
  if ¬ label.all fun c => c.toNat < 128 then throw .unicodeEncodeError
  else if encoded.length < 1 ∨ 63 < encoded.length then
    throw (.valueError "DNS labels must contain 1..63 ASCII bytes")
  else return UInt8.ofNat encoded.length :: encoded

/-- `QTYPE[qtype.upper()]`. -/
def probeType (qtype : String) : Except ProbeError UInt16 :=
  let upper := String.ofList (qtype.toList.map Char.toUpper)
  if upper = "A" then return 1
  else if upper = "TXT" then return 16
  else throw (.valueError s!"unsupported probe query type: {qtype}")

/-- The name of `build_query`. -/
def buildName (name : String) : Except ProbeError Octets := do
  let stripped := rstripDots name.toList
  let labels := if stripped = [] then [] else stripped.splitOn '.'
  let encoded ← labels.mapM buildLabel
  let wireName := encoded.flatten ++ [0]
  if 255 < wireName.length then throw (.valueError "encoded DNS name exceeds 255 bytes")
  else return wireName

/-- `build_query`. -/
def buildQuery (name qtype : String) (transactionId : UInt16) : Except ProbeError Octets := do
  let wireName ← buildName name
  let typeNumber ← probeType qtype
  return writeHeader ⟨transactionId, 0x0100, 1, 0, 0, 0⟩ ++ wireName ++
    (packU16 typeNumber ++ packU16 1)

/-- `request_parts`. -/
def requestParts (frame : Octets) (pattern : RequestPattern) : Except ProbeError (List Octets) :=
  if frame.length < 3 then throw (.valueError "framed DNS request is too short")
  else
    match pattern with
    | .whole => return [frame]
    | .splitPrefix => return [frame.take 1, (frame.take 2).drop 1, frame.drop 2]
    | .splitBody =>
      let midpoint := 2 + max 1 ((frame.length - 2) / 2)
      return [frame.take 2, (frame.take midpoint).drop 2, frame.drop midpoint]
    | .bytewise => return frame.map fun byte => [byte]

/-! ### What is observed -/

/-- The loop of `parse_frames` with at most `fuel` turns to go. -/
def parseFramesLoop (data : Octets) :
    Nat → Nat → List Octets → List Octets × Octets × Option Nat
  | 0, offset, frames => (frames, data.drop offset, none)
  | fuel + 1, offset, frames =>
    match readU16 data offset with
    | none => (frames, data.drop offset, none)
    | some declared =>
      let frameEnd := offset + 2 + declared.toNat
      -- an empty frame and one that is not complete end the loop
      if declared = 0 ∨ data.length < frameEnd then
        (frames, data.drop offset, some declared.toNat)
      else
        parseFramesLoop data fuel frameEnd
          (frames ++ [(data.drop (offset + 2)).take declared.toNat])

/-- `parse_frames`: the frames, the octets behind them and the length they declare. -/
def parseFrames (data : Octets) : List Octets × Octets × Option Nat :=
  parseFramesLoop data data.length 0 []

/-- What successive calls of `connection.recv(4096)` return. -/
def readChunks (written : List Octets) : List Octets := written.flatMap (slices 4096)

/-- The end of `observe`: what was read, and whether the client's timeout or the end of the stream came
behind it. -/
def observation (chunks : List Octets) (timedOut : Bool) (elapsedMs : Nat) : Observation :=
  let (frames, trailing, incompleteExpected) := parseFrames chunks.flatten
  ⟨frames, chunks.map List.length, !timedOut, timedOut, trailing, incompleteExpected, elapsedMs⟩

/-- Whether the handler ended because nothing came in until the timeout of its socket. -/
def waitedForInput : Except Raised Unit → Bool
  | .error .timeout => true
  | _ => false

variable (d : Dnspython)

/-- What is observed of the handler on a connection: the client's timeout expires when the handler is
still waiting for input, and otherwise the handler closes the connection. -/
def observeHandler (timeout ioTimeout elapsedMs : Nat) (c : Connection) : Observation :=
  let (result, c') := (serveLoop d MAX_TCP_QUERIES).run c
  observation (readChunks c'.client.written)
    (waitedForInput result && decide (timeout < ioTimeout)) elapsedMs

/-- `observe`: the query is sent and the connection is kept open; the handler receives it in pieces
given by `cuts`, and opens its upstream connections among `upstreams`. -/
def observe (query : Octets) (pattern : RequestPattern) (cuts : List Nat)
    (upstreams : List (Option Peer)) (timeout ioTimeout elapsedMs : Nat) :
    Except ProbeError Observation := do
  let framedQuery ← (frame query).mapError fun _ => .structError
  let parts ← requestParts framedQuery pattern
  return observeHandler d timeout ioTimeout elapsedMs
    ⟨⟨⟨parts.flatten, cuts, .silent⟩, []⟩, upstreams, []⟩

/-! ### What is expected -/

/-- `if condition: raise AssertionError(message)`. -/
def refuse (condition : Bool) (message : String) : Except ProbeError Unit :=
  if condition then throw (.assertionError message) else return ()

/-- `evaluate`. -/
def evaluate (o : Observation) (expectation : Expectation) (stallSeconds : Nat) :
    Except ProbeError Unit := do
  refuse (!o.eof || o.timedOut) "expected EOF before the client timeout"
  match expectation with
  | .normal =>
    refuse (o.frames.length ≠ 1 || o.trailing ≠ [])
      "normal response must contain exactly one frame and no trailing bytes"
  | .splitPrefix | .splitBody | .bytewise | .delayed =>
    refuse (o.frames.length ≠ 1 || o.trailing ≠ []) "split response must contain one complete frame"
    let minimumReads := if expectation = .bytewise then 3 else 2
    refuse (o.readSizes.length < minimumReads)
      "split response was not visible across multiple reads"
  | .eofBeforeResponse =>
    refuse (o.frames ≠ [] || o.trailing ≠ [] || !o.eof) "expected EOF before any response bytes"
  | .eofAfterPrefix =>
    refuse (o.frames ≠ [] || o.trailing.length ≠ 2 || !o.eof)
      "expected EOF immediately after the length prefix"
  | .eofMidBody | .lengthMismatch =>
    refuse (o.frames ≠ [] || o.trailing.length ≤ 2 || o.incompleteExpected.isNone || !o.eof)
      "expected EOF with an incomplete declared payload"
  | .stall =>
    refuse (o.frames ≠ [] || o.trailing ≠ []) "stall scenario must not return response bytes"
    refuse (o.elapsedMs < stallSeconds * 900) "stall scenario ended before its configured bound"
    refuse (stallSeconds * 1500 + 500 < o.elapsedMs) "stall scenario exceeded its configured bound"
  | .duplicateResponse =>
    refuse (o.frames.length ≠ 2 || o.trailing ≠ [])
      "duplicate scenario must return exactly two frames"
  | .trailingBytes =>
    refuse (o.frames.length ≠ 1 || o.trailing = [])
      "trailing scenario must return one frame plus bounded bytes"

/-- A row of the table: the scenario whose label is asked for, what is expected, and the client's
timeout in seconds. -/
structure Row where
  label : Scenario
  expectation : Expectation
  timeout : Nat
  deriving DecidableEq, Repr

/-- The fault scenarios of `smoke-test.sh`. -/
def scenarioTable (stallSeconds : Nat) : List Row :=
  [⟨.normal, .normal, 4⟩,
    ⟨.splitPrefix, .splitPrefix, 4⟩,
    ⟨.splitBody, .splitBody, 4⟩,
    ⟨.bytewise, .bytewise, 4⟩,
    ⟨.delayed, .delayed, 4⟩,
    ⟨.closeBeforeResponse, .eofBeforeResponse, 4⟩,
    ⟨.closeAfterPrefix, .eofAfterPrefix, 4⟩,
    ⟨.closeMidBody, .eofMidBody, 4⟩,
    ⟨.lengthMismatch, .lengthMismatch, 4⟩,
    ⟨.stall, .stall, stallSeconds + 2⟩,
    ⟨.duplicateResponse, .duplicateResponse, 4⟩,
    ⟨.trailingBytes, .trailingBytes, 4⟩]

/-- The default of `IO_TIMEOUT_SECONDS`. -/
def IO_TIMEOUT_SECONDS : Nat := 5

end DnsFixtures
