import DnsFixtures.FaultProxy

/-!
# The health check of `dns_fault_proxy.py`

The query that the proxy sends to itself, what it accepts as a reply, and the loop over the addresses
of its own listener.  `Proxy.buildQuery` is the query builder of the proxy; the probe has another one.
-/

namespace DnsFixtures

open Dns

/-- `raise SystemExit(message)`. -/
structure SystemExit where
  message : String
  deriving DecidableEq, Repr

/-! ### The query -/

namespace Proxy

/-- `label.encode("ascii")`. -/
def encodeAscii (label : List Char) : Option Octets :=
  if ∀ c ∈ label, c.toNat < 128 then some (textOctets (String.ofList label)) else none

/-- One label of `build_query`. -/
def buildLabel (label : List Char) : Except Raised Octets :=
  match encodeAscii label with
  | none => throw (.dnsFormatError "query labels must be ASCII")
  | some encoded =>
    if encoded.length < 1 ∨ 63 < encoded.length then
      throw (.dnsFormatError "query label length must be 1..63")
    else return UInt8.ofNat encoded.length :: encoded

/-- `build_query`. -/
def buildQuery (qname : String) (qtype transactionId : Int) : Except Raised Octets :=
  if ¬ (0 ≤ transactionId ∧ transactionId ≤ 0xFFFF) then
    throw (.dnsFormatError "transaction ID is out of range")
  else if ¬ (0 ≤ qtype ∧ qtype ≤ 0xFFFF) then
    throw (.dnsFormatError "query type is out of range")
  else do
    let stripped := rstripDots qname.toList
    let labels := if stripped = [] then [] else stripped.splitOn '.'
    let encoded ← labels.mapM buildLabel
    let encodedName := encoded.flatten ++ [0]
    if 255 < encodedName.length then
      throw (.dnsFormatError "encoded query name exceeds 255 bytes")
    else
      return writeHeader ⟨UInt16.ofNat transactionId.toNat, 0x0100, 1, 0, 0, 0⟩ ++ encodedName ++
        (packU16 (UInt16.ofNat qtype.toNat) ++ packU16 1)

end Proxy

/-! ### The reply -/

end DnsFixtures
