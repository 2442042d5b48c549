import DnsFixtures.HealthCheck
import DnsFixtures.IpAddress

/-!
# Client access in `dns_fault_proxy.py`

`DNS_ALLOWED_CLIENTS` is read once (`allowedClients`), and `verifyRequest` decides on each client before
a handler is started.  Its log line is not modelled.
-/

namespace DnsFixtures

open Cidr

/-- What `str.strip` takes off. -/
def isSpace (c : Char) : Bool :=
  c.toNat ∈ [0x20, 0x85, 0xA0, 0x1680, 0x2028, 0x2029, 0x202F, 0x205F, 0x3000] ||
    (9 ≤ c.toNat && c.toNat ≤ 13) || (0x1C ≤ c.toNat && c.toNat ≤ 0x1F) ||
    (0x2000 ≤ c.toNat && c.toNat ≤ 0x200A)

/-- `s.strip()`. -/
def strip (s : List Char) : List Char := ((s.dropWhile isSpace).reverse.dropWhile isSpace).reverse

/-- 127.0.0.1 -/
def loopback4 : BitVec 32 := 0x7F000001

/-- ::1 -/
def loopback6 : BitVec 128 := 1

def LOOPBACK_CLIENTS : List IPNetwork :=
  [.v4 (Interface.network ⟨loopback4, 32, Nat.le_refl 32⟩),
    .v6 (Interface.network ⟨loopback6, 128, Nat.le_refl 128⟩)]

/-- The elements of `DNS_ALLOWED_CLIENTS`. -/
def clientItems (value : String) : List (List Char) := (value.toList.splitOn ',').map strip

/-- `_allowed_clients`. -/
def allowedClients (value : String) : Except SystemExit (List IPNetwork) :=
  let exit := SystemExit.mk
    "DNS_ALLOWED_CLIENTS must list explicit IP addresses or CIDRs, without /0 networks"
  match (clientItems value).mapM ipNetwork with
  | none => throw exit
  | some networks =>
    if networks.any fun network => network.prefixlen = 0 then throw exit
    else return LOOPBACK_CLIENTS ++ networks

/-- The address that a client is looked up by: an IPv4-mapped address is an IPv4 address. -/
def IPAddress.unmapped : IPAddress → IPAddress
  | .v4 ip => .v4 ip
  | .v6 ip =>
    match ipv4Mapped ip with
    | some mapped => .v4 mapped
    | none => .v6 ip

/-- `verify_request`. -/
def verifyRequest (allowedClients : List IPNetwork) (clientAddress : String) : Option Bool := do
  let address ← ipAddress clientAddress.toList
  return allowedClients.any fun network => network.contains address.unmapped

example : ["127.0.0.1/32", "::1/128"].filterMap (fun s => ipNetwork s.toList) = LOOPBACK_CLIENTS := by
  decide +kernel

end DnsFixtures
