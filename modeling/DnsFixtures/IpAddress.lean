import DnsFixtures.Cidr.Block

/-!
# The `ipaddress` module of Python

How `ip_address` and `ip_network` read a text.  What raises `ValueError` is `none`; the programs do not
look at the text of that exception.  The scope of an IPv6 address is read and left out, as no
comparison depends on it.

`ip_network(text, strict=False)` reads an address and a prefix length and masks the bits behind the
prefix, so that it is the network of the interface which the same text gives (`ipInterface`).
-/

namespace DnsFixtures

open Cidr

inductive IPAddress where
  | v4 (ip : BitVec 32)
  | v6 (ip : BitVec 128)
  deriving DecidableEq

inductive IPInterface where
  | v4 (i : Interface 32)
  | v6 (i : Interface 128)
  deriving DecidableEq

inductive IPNetwork where
  | v4 (n : Network 32)
  | v6 (n : Network 128)
  deriving DecidableEq

/-! ### Numbers -/

def isHexDigit (c : Char) : Bool :=
  c.isDigit || ('a' ≤ c && c ≤ 'f') || ('A' ≤ c && c ≤ 'F')

def digitValue (c : Char) : Nat :=
  if c.isDigit then c.toNat - 48 else if 'a' ≤ c then c.toNat - 87 else c.toNat - 55

/-- `int(s, base)` of a text of digits. -/
def intOf (base : Nat) (s : List Char) : Nat := s.foldl (fun n c => n * base + digitValue c) 0

/-! ### IPv4 -/

/-- `_parse_octet`. -/
def parseOctet (s : List Char) : Option Nat :=
  if s = [] ∨ ¬ s.all Char.isDigit then none
  else if 3 < s.length then none
  else if s ≠ ['0'] ∧ s.head? = some '0' then none
  else if 255 < intOf 10 s then none
  else some (intOf 10 s)

/-- `_ip_int_from_string` of `IPv4Address`. -/
def ipv4Int (s : List Char) : Option (BitVec 32) :=
  let octets := s.splitOn '.'
  if octets.length ≠ 4 then none
  else do
    let values ← octets.mapM parseOctet
    return BitVec.ofNat 32 (values.foldl (fun n octet => n * 256 + octet) 0)

/-- `IPv4Address`. -/
def ipv4Address (s : List Char) : Option (BitVec 32) := if '/' ∈ s then none else ipv4Int s

/-! ### IPv6 -/

/-- `_split_scope_id`, without the scope. -/
def splitScopeId (s : List Char) : Option (List Char) :=
  match s.splitOn '%' with
  | [addr] => some addr
  | [addr, scopeId] => if scopeId = [] then none else some addr
  | _ => none

/-- `_parse_hextet`. -/
def parseHextet (s : List Char) : Option Nat :=
  if ¬ s.all isHexDigit then none
  else if 4 < s.length then none
  else if s = [] then none
  else some (intOf 16 s)

/-- An IPv4 address in place of the last part becomes two parts. -/
def expandSuffix (parts : List (List Char)) : Option (List (List Char)) :=
  if '.' ∈ parts.getLastD [] then
    (ipv4Address (parts.getLastD [])).map fun ip =>
      parts.dropLast ++ [Nat.toDigits 16 (ip.toNat / 65536), Nat.toDigits 16 (ip.toNat % 65536)]
  else some parts

/-- The positions of an empty part, the two ends left out. -/
def skipIndices (parts : List (List Char)) : List Nat :=
  (List.range parts.length).filter fun i =>
    1 ≤ i ∧ i + 1 < parts.length ∧ parts[i]? = some []

def packHextets (hextets : List Nat) : BitVec 128 :=
  BitVec.ofNat 128 (hextets.foldl (fun n hextet => n * 65536 + hextet) 0)

/-- `_ip_int_from_string` of `IPv6Address`. -/
def ipv6Int (s : List Char) : Option (BitVec 128) :=
  if (s.splitOn ':').length < 3 then none
  else do
    let parts ← expandSuffix (s.splitOn ':')
    if 9 < parts.length then none
    else
      let first := parts.headD []
      let last := parts.getLastD []
      match skipIndices parts with
      | [] =>
        if parts.length ≠ 8 ∨ first = [] ∨ last = [] then none
        else packHextets <$> parts.mapM parseHextet
      | [skipIndex] =>
        let partsHi := if first = [] then skipIndex - 1 else skipIndex
        let partsLo := parts.length - skipIndex - (if last = [] then 2 else 1)
        if first = [] ∧ partsHi ≠ 0 then none
        else if last = [] ∧ partsLo ≠ 0 then none
        else if 8 ≤ partsHi + partsLo then none
        else do
          let hi ← (parts.take partsHi).mapM parseHextet
          let lo ← (parts.drop (parts.length - partsLo)).mapM parseHextet
          return packHextets (hi ++ List.replicate (8 - (partsHi + partsLo)) 0 ++ lo)
      | _ => none

/-- `IPv6Address`. -/
def ipv6Address (s : List Char) : Option (BitVec 128) :=
  if '/' ∈ s then none
  else do
    let addr ← splitScopeId s
    ipv6Int addr

/-- `ipv4_mapped`. -/
def ipv4Mapped (ip : BitVec 128) : Option (BitVec 32) :=
  if ip >>> 32 ≠ 0xFFFF then none else some (ip.setWidth 32)

/-! ### Netmasks -/

/-- `_count_righthand_zero_bits`. -/
def countRighthandZeroBits {w : Nat} (number : BitVec w) : Nat :=
  ((List.range w).find? number.getLsbD).getD w

/-- `_prefix_from_ip_int`. -/
def prefixFromIpInt (ip : BitVec 32) : Option (Fin 33) :=
  let trailingZeroes := countRighthandZeroBits ip
  if ip.toNat / 2 ^ trailingZeroes ≠ 2 ^ (32 - trailingZeroes) - 1 then none
  else some ⟨32 - trailingZeroes, by omega⟩

/-- `_prefix_from_ip_string`: a netmask or a hostmask. -/
def prefixFromIpString (s : List Char) : Option (Fin 33) := do
  let ip ← ipv4Int s
  prefixFromIpInt ip <|> prefixFromIpInt (ip ^^^ BitVec.allOnes 32)

/-- `_prefix_from_prefix_string`; `int` takes no more than 4300 digits. -/
def prefixFromPrefixString (maxPrefixlen : Nat) (s : List Char) : Option (Fin (maxPrefixlen + 1)) :=
  if s = [] ∨ ¬ s.all Char.isDigit ∨ 4300 < s.length then none
  else if h : intOf 10 s ≤ maxPrefixlen then some ⟨intOf 10 s, Nat.lt_succ_of_le h⟩
  else none

/-- `_split_optional_netmask`. -/
def splitOptionalNetmask (s : List Char) : Option (List Char × Option (List Char)) :=
  match s.splitOn '/' with
  | [addr] => some (addr, none)
  | [addr, mask] => some (addr, some mask)
  | _ => none

/-- `_make_netmask` of `IPv4Network`. -/
def makeNetmask4 : Option (List Char) → Option (Fin 33)
  | none => some 32
  | some arg => prefixFromPrefixString 32 arg <|> prefixFromIpString arg

/-- `_make_netmask` of `IPv6Network`. -/
def makeNetmask6 : Option (List Char) → Option (Fin 129)
  | none => some 128
  | some arg => prefixFromPrefixString 128 arg

def ipv4Interface (s : List Char) : Option (Interface 32) := do
  let (addr, mask) ← splitOptionalNetmask s
  let ip ← ipv4Address addr
  let prefixlen ← makeNetmask4 mask
  return ⟨ip, prefixlen.val, Nat.le_of_lt_succ prefixlen.isLt⟩

def ipv6Interface (s : List Char) : Option (Interface 128) := do
  let (addr, mask) ← splitOptionalNetmask s
  let ip ← ipv6Address addr
  let prefixlen ← makeNetmask6 mask
  return ⟨ip, prefixlen.val, Nat.le_of_lt_succ prefixlen.isLt⟩

/-! ### Both families -/

/-- `ip_address`. -/
def ipAddress (s : List Char) : Option IPAddress :=
  (ipv4Address s).map .v4 <|> (ipv6Address s).map .v6

/-- The address and the prefix length that `ip_network` reads. -/
def ipInterface (s : List Char) : Option IPInterface :=
  (ipv4Interface s).map .v4 <|> (ipv6Interface s).map .v6

def IPInterface.network : IPInterface → IPNetwork
  | .v4 i => .v4 i.network
  | .v6 i => .v6 i.network

/-- `ip_network(s, strict=False)`. -/
def ipNetwork (s : List Char) : Option IPNetwork := (ipInterface s).map IPInterface.network

def IPNetwork.prefixlen : IPNetwork → Nat
  | .v4 n => n.prefixlen
  | .v6 n => n.prefixlen

/-- `address in network`: never across the families. -/
def IPNetwork.contains : IPNetwork → IPAddress → Bool
  | .v4 n, .v4 ip => n.contains ip
  | .v6 n, .v6 ip => n.contains ip
  | _, _ => false

end DnsFixtures
