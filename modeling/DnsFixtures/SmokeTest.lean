import DnsFixtures.RenderRecursion
import DnsFixtures.Shell.Lines

/-!
# `smoke-test.sh`: the parity of UDP and TCP

The part of the script that compares the answers that `dig` prints over UDP and over TCP.  What `dig`
prints is an argument, `none` where it fails; it has no NUL.  `awk` has the character classes of the C
locale, and the order of `sort` is an argument.

A failure has the text that `fail` writes.
-/

namespace DnsFixtures

open Dns

/-- `fail` -/
def fail (text : String) : Failure := ⟨"FAIL: " ++ text⟩

/-- `pass` -/
def pass (text : String) : String := "PASS: " ++ text

/-! ### The digest of an answer -/

/-- `[[:space:]]` -/
def isSpaceOctet (b : UInt8) : Bool := b = 32 || (9 ≤ b && b ≤ 13)

/-- The fields behind `$2=""`, which makes a second one where there is none. -/
def emptySecondField : List Octets → List Octets
  | [] => [[], []]
  | [first] => [first, []]
  | first :: _ :: rest => first :: [] :: rest

/-- `sub(/[[:space:]]+/, " ")` -/
def subSpaces : Octets → Octets
  | [] => []
  | b :: text => if isSpaceOctet b then 32 :: text.dropWhile isSpaceOctet else b :: subSpaces text

/-- `{$2=""; sub(/[[:space:]]+/, " "); print}`: the fields of `awk` are those of the default `IFS`. -/
def awkLine (line : Octets) : Octets :=
  subSpaces ([32].intercalate (emptySecondField (Shell.fields isIfs line)))

section

variable (le : Octets → Octets → Bool) (query : String → String → String → Option Octets)

/-- What is left of an answer: owner, class, type and data of its records, in the order of `sort`. -/
def answerDigest (transport name type : String) : Except Failure Octets :=
  match query transport name type with
  | none =>
    throw (fail (transport ++ " " ++ name ++ " " ++ type ++ " query failed during parity comparison"))
  | some output =>
    let rawAnswer := substitution output
    let records := (Shell.lines 10 (rawAnswer ++ [10])).map awkLine
    return Shell.unlines 10 (records.mergeSort le)

/-- The line that is printed when the two agree.  With `set -e` a failure of `answer_digest` ends the
script. -/
def expectParity (name type : String) : Except Failure String := do
  let udpAnswer ← answerDigest le query "udp" name type
  let tcpAnswer ← answerDigest le query "tcp" name type
  if substitution udpAnswer = substitution tcpAnswer then
    return pass ("canonical UDP/TCP parity for " ++ name ++ " " ++ type)
  else throw (fail ("UDP/TCP answers differ for " ++ name ++ " " ++ type))

/-- The loop over names and types: how it ends, and what it has printed. -/
def parityLoop : List (String × String) → Except Failure Unit × List String
  | [] => (.ok (), [])
  | (name, type) :: rest =>
    if name = "" then parityLoop rest
    else
      match expectParity le query name type with
      | .error failure => (.error failure, [])
      | .ok line =>
        let (outcome, printed) := parityLoop rest
        (outcome, line :: printed)

end

end DnsFixtures
