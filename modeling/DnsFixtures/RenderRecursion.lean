import DnsFixtures.Dns.Octets
import DnsFixtures.Shell.Fields

/-!
# `render-recursion.sh`

The script that writes the recursion block of the BIND configuration.  `DNS_UPSTREAMS` and the path are
octet strings; one that is not set is empty, which `:?` takes for the same.  The shell is the POSIX
shell with the default `IFS` and bracket ranges by octet.

The status of a failure is not modelled, only that it is not zero.  `cat` and `mv` may fail, as
`WriteResult` and the argument `moves` say; `set -e` then ends the script.
-/

namespace DnsFixtures

open Dns

/-- What a script that ends with a non-zero status has written to standard error, if anything. -/
structure Failure where
  message : String
  deriving DecidableEq, Repr

/-- The contents of the regular files. -/
abbrev Files := Octets → Option Octets

/-- What comes of `cat > path`. -/
inductive WriteResult where
  | written
  /-- it failed, and this is what is there now -/
  | failed (left : Option Octets)
  deriving DecidableEq, Repr

/-! ### The addresses -/

/-- The pattern `,*|*,|*,,*`. -/
def hasEmptyAddress (value : Octets) : Bool :=
  value.head? = some 44 ∨ value.getLast? = some 44 ∨ [44, 44] <:+: value

/-- `[0-9a-fA-F:.]` -/
def isAddressOctet (b : UInt8) : Bool :=
  (48 ≤ b && b ≤ 57) || (97 ≤ b && b ≤ 102) || (65 ≤ b && b ≤ 70) || b = 58 || b = 46

/-- The default `IFS`: space, tab and newline. -/
def isIfs (b : UInt8) : Bool := b = 32 || b = 9 || b = 10

/-- `tr ',' ' '` -/
def trCommas (value : Octets) : Octets := value.map fun b => if b = 44 then 32 else b

/-- What `$(...)` leaves of an output: the newlines at its end are cut off. -/
def substitution (output : Octets) : Octets := (output.reverse.dropWhile (· = 10)).reverse

/-- The words that the loop goes over. -/
def addressWords (value : Octets) : List Octets :=
  Shell.fields isIfs (substitution (trCommas value))

/-- ` address;` -/
def forwarderEntry (address : Octets) : Octets := [32] ++ address ++ [59]

/-- The loop over the addresses, with the forwarders so far. -/
def forwardersLoop : List Octets → Octets → Except Failure Octets
  | [], forwarders => return forwarders
  | address :: rest, forwarders =>
    if address.any fun b => !isAddressOctet b then
      throw ⟨"DNS_UPSTREAMS accepts IP addresses only"⟩
    else forwardersLoop rest (forwarders ++ forwarderEntry address)

/-- The value of `forwarders` behind the loop and its check. -/
def upstreamForwarders (value : Octets) : Except Failure Octets :=
  if value = [] then
    throw ⟨"Set DNS_UPSTREAMS to comma-separated resolver IP addresses"⟩
  else if hasEmptyAddress value then throw ⟨"DNS_UPSTREAMS contains an empty address"⟩
  else do
    let forwarders ← forwardersLoop (addressWords value) []
    if forwarders = [] then throw ⟨"DNS_UPSTREAMS must not be empty"⟩
    else return forwarders

/-! ### The file -/

/-- The here-document. -/
def recursionConf (forwarders : Octets) : Octets :=
  textOctets ("recursion yes;\ndnssec-validation auto;\n" ++
    "allow-recursion \x7b localhost; localnets; \x7d;\n" ++
    "allow-query-cache \x7b localhost; localnets; \x7d;\n" ++
    "forward only;\nforwarders \x7b ") ++ forwarders ++ textOctets " \x7d;\n"

/-- `"$destination.tmp"` -/
def temporary (destination : Octets) : Octets := destination ++ textOctets ".tmp"

/-- The script: how it ends, and the files that it leaves. -/
def renderRecursion (value destination : Octets) (writes : WriteResult) (moves : Bool)
    (files : Files) : Except Failure Unit × Files :=
  match upstreamForwarders value with
  | .error failure => (.error failure, files)
  | .ok forwarders =>
    -- `${1:?...}` is reached behind all checks of the value
    if destination = [] then (.error ⟨"Output path required"⟩, files)
    else
      match writes with
      -- `set -e`: nothing is moved
      | .failed left => (.error ⟨""⟩, Function.update files (temporary destination) left)
      | .written =>
        let files :=
          Function.update files (temporary destination) (some (recursionConf forwarders))
        if moves then
          (.ok (), Function.update (Function.update files destination
            (some (recursionConf forwarders))) (temporary destination) none)
        else (.error ⟨""⟩, files)

end DnsFixtures
