import DnsFixtures.FreshFixtures
import DnsFixtures.Socket

/-!
# `fresh_transport.py`

Replies to fresh queries over TCP, and the faults that a key selects.  Pauses between writes are not
modelled: `serveFreshTcp` is the sequence of writes and whether the connection stays open.
-/

namespace DnsFixtures

open Dns

variable (d : Dnspython)

/-- The last three labels of a name. -/
def lastLabels (name : Name) : List Label := name.labels.drop (name.labels.length - 3)

/-- `is_fresh`. -/
def isFresh (query : Octets) : Except Raised Bool :=
  if query.length < 12 ∨ readU16 query 4 = some 0 then return false
  else
    match d.nameFromWire query 12 with
    | .error e => if e.isDNSException then return false else throw e
    | .ok (name, _) => return foldCase (lastLabels name) = SUFFIX

/-- `_frame`. -/
def frame (payload : Octets) : Except Raised Octets :=
  return (← packLength payload.length) ++ payload

/-- `_next`: the next query on the connection. -/
def next : Session Sock Octets := do
  let size ← Sock.recvAll 2 .eofError
  match readU16 size 0 with
  | none => throw .structError
  | some length =>
    if length < 12 then throw .eofError
    else Sock.recvAll length.toNat .eofError

/-- `_scenario` inside its `try`. -/
def scenarioKey (query : Octets) : Except Raised String := do
  let message ← d.messageFromWire query
  let parsed ← freshKey d query
  match parsed, message.question with
  | some (key, _), [question] =>
    if question.name.labels.length = 5 ∧ question.rdclass = RRClass.IN
        ∧ opcodeOf message.flags = 0 then
      return key
    else return "ordinary"
  | _, _ => return "ordinary"

/-- `_scenario`. -/
def scenario (query : Octets) : Except Raised String :=
  match scenarioKey d query with
  | .ok key => return key
  | .error e => if e.isDNSException then return "ordinary" else throw e

/-- `int.from_bytes(bs, "big")`. -/
def intFromBytes (bs : Octets) : Nat := bs.foldl (fun n b => n * 256 + b.toNat) 0

/-- The reply with its identifier increased by one. -/
def changeId (reply : Octets) : Octets :=
  packU16 (UInt16.ofNat (intFromBytes (reply.take 2) + 1)) ++ reply.drop 2

/-- The reply with the first octet of its first label replaced. -/
def changeQuestion (reply : Octets) : Octets :=
  if 13 < reply.length then reply.set 13 122 else reply

/-- `[bs[i:i + size] for i in range(0, len(bs), size)]`. -/
def slices (size : Nat) (bs : Octets) : List Octets :=
  (List.range ((bs.length + size - 1) / size)).map fun i => (bs.drop (i * size)).take size

/-- How a frame is cut into writes. -/
def frameParts (key : String) (frame : Octets) : List Octets :=
  if key = "split-prefix" then
    [frame.take 1, (frame.drop 1).take 1, frame.drop 2]
  else if key = "split-body" then frame.take 2 :: slices 16 (frame.drop 2)
  else if key = "bytewise" then frame.map fun byte => [byte]
  else [frame]

def sendParts (parts : List Octets) : Session Sock Unit := parts.forM sendall

/-- `serve_fresh_tcp`: send the reply, or the fault its key names; whether to reuse the
connection. -/
def serveFreshTcp (query : Octets) : Session Sock Bool := do
  let key ← Session.ofExcept (scenario d query)
  let reply ← Session.ofExcept (answerFresh d query true)
  if reply = [] then return false
  else
    let framed ← Session.ofExcept (frame reply)
    if key = "close-before" ∨ key = "stall" then return false
    else if key = "reordered" ∨ key = "coalesced" then do
      let second ← next
      let third ← next
      let frames ← Session.ofExcept <|
        [query, second, third].mapM fun item => do frame (← answerFresh d item true)
      sendall (if key = "reordered" then frames.reverse else frames).flatten
      return false
    else
      let framed ← Session.ofExcept <|
        if key = "mismatch-id" then frame (changeId reply)
        else if key = "mismatch-question" then frame (changeQuestion reply)
        else return framed
      if key = "close-prefix" then do
        sendall (framed.take 2)
        return false
      else if key = "close-body" then do
        sendall (framed.take (2 + reply.length / 2))
        return false
      else if key = "length-mismatch" then do
        let size ← Session.ofExcept (packLength (reply.length + 16))
        sendall (size ++ reply)
        return false
      else do
        sendParts (frameParts key framed)
        if key = "duplicate" then do
          sendall framed
          return false
        else if key = "trailing" then do
          sendall ([0, 16] ++ textOctets "garbage")
          return false
        else return decide (key ∉ ["mismatch-id", "mismatch-question"])

end DnsFixtures
