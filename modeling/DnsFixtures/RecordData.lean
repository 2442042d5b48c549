import DnsFixtures.Dnspython

/-!
# Records from text

`dns.rrset.from_text` as the fixtures use it: an owner, a type and one text for each record.  Each
type of data has a reader of its own.  A name in the data is read by `dns.name.from_text`, so it may
raise; addresses and character strings stand here as their octets.
-/

namespace DnsFixtures

open Dns

/-- Run the readers one after another. -/
def sequence {α : Type} (xs : List (Except Raised α)) : Except Raised (List α) := xs.mapM id

/-- An owner: text, or a name. -/
inductive Owner where
  | text (s : String)
  | name (n : Name)

variable (d : Dnspython)

def Owner.parse : Owner → Except Raised Name
  | .text s => d.nameFromText s
  | .name n => .ok n

def Owner.str : Owner → String
  | .text s => s
  | .name n => d.nameToText n

/-! ### Record data -/

/-- The address `192.0.2.<host>`. -/
def aData (host : Nat) : Except Raised Rdata := .ok [.octets [192, 0, 2, UInt8.ofNat host]]

/-- The address `2001:db8::<host>`. -/
def aaaaData (host : Nat) : Except Raised Rdata :=
  .ok [.octets ([0x20, 0x01, 0x0d, 0xb8] ++ List.replicate 10 0 ++ packU16 (UInt16.ofNat host))]

/-- Data of NS, CNAME, PTR and DNAME records. -/
def nameData (target : String) : Except Raised Rdata :=
  return [.name (← d.nameFromText target)]

/-- Data of MX and AFSDB records. -/
def mxData (preference : UInt16) (exchange : String) : Except Raised Rdata :=
  return [.octets (packU16 preference), .name (← d.nameFromText exchange)]

def srvData (priority weight port : UInt16) (target : String) : Except Raised Rdata :=
  return [.octets (packU16 priority ++ packU16 weight ++ packU16 port),
    .name (← d.nameFromText target)]

def rpData (mbox txt : String) : Except Raised Rdata :=
  return [.name (← d.nameFromText mbox), .name (← d.nameFromText txt)]

def soaData (mname rname : String) (serial refresh retry expire minimum : UInt32) :
    Except Raised Rdata :=
  return [.name (← d.nameFromText mname), .name (← d.nameFromText rname),
    .octets (packU32 serial ++ packU32 refresh ++ packU32 retry ++ packU32 expire ++
      packU32 minimum)]

/-- Data of SVCB and HTTPS records; alias mode has no parameters. -/
def svcbData (kind : UInt16) (priority : UInt16) (target : String) (params : Option String) :
    Except Raised Rdata :=
  match params with
  | none => return [.octets (packU16 priority), .name (← d.nameFromText target), .octets []]
  | some text =>
    return [.octets (packU16 priority), .name (← d.nameFromText target),
      .octets (← d.octetsFromText kind text)]

def txtData (strings : List String) : Except Raised Rdata :=
  .ok [.octets (Dnspython.charStrings (strings.map textOctets))]

/-- Data without domain names, as the parser of its type reads it. -/
def textData (kind : UInt16) (text : String) : Except Raised Rdata :=
  return [.octets (← d.octetsFromText kind text)]

/-! ### RRsets -/

/-- `_rr`. -/
def rr (owner : Owner) (kind : UInt16) (data : List (Except Raised Rdata)) (ttl : UInt32) :
    Except Raised RRset := do
  let name ← owner.parse d
  return ⟨name, kind, RRClass.IN, ttl, ← sequence data⟩

/-- `_soa`. -/
def soa (zone : String) (owner : Option Owner) (primary : Option String) : Except Raised RRset :=
  rr d (owner.getD (.text zone)) RRType.SOA
    [soaData d (primary.getD ("ns." ++ zone)) ("hostmaster." ++ zone) 2026092101 60 60 3600 0] 0

end DnsFixtures
