import DnsFixtures.FreshFixtures

/-!
# The fixture zone

What the fresh responder serves, stated without text, parsing or exceptions.  `fixture` is the
catalogue: the record data of each key, with names relative to the zone of the nonce (`Template`).
`Template.fill` places it at an owner in one zone.  `Zone.step` is what the resolver does at one
name, and `Resolves` follows the alias chain from it to its end.

`Equiv.Answer` proves that `_answer` computes exactly this.
-/

namespace DnsFixtures

open Dns

/-! ### Zones and hosts -/

/-- A nonce: 32 hexadecimal digits, in lower case. -/
structure Nonce where
  label : Label
  isNonce : isNonce label = true
  deriving DecidableEq

/-- The text is a label of the fixtures: lower-case ASCII without dots or backslashes. -/
def IsHost (s : String) : Prop :=
  IsAsciiText s ∧ PlainLabel (textOctets s) ∧ (textOctets s).length ≤ 63 ∧ lowerText s = s

instance (s : String) : Decidable (IsHost s) := inferInstanceAs (Decidable (_ ∧ _))

structure Host where
  text : String
  isHost : IsHost text
  deriving DecidableEq

def Host.label (h : Host) : Label := textOctets h.text

theorem Nonce.length_label (z : Nonce) : z.label.length = 32 := by
  have h := z.isNonce
  simp only [DnsFixtures.isNonce, decide_eq_true_eq] at h
  exact h.1

theorem Nonce.digit (z : Nonce) {c : UInt8} (hc : c ∈ z.label) :
    (48 ≤ c ∧ c ≤ 57) ∨ (97 ≤ c ∧ c ≤ 102) := by
  have h := z.isNonce
  simp only [DnsFixtures.isNonce, decide_eq_true_eq] at h
  exact h.2 c hc

/-- The labels of the zone of a nonce. -/
def Nonce.labels (z : Nonce) : List Label := z.label :: SUFFIX

theorem Nonce.nameLength_labels (z : Nonce) : nameLength z.labels = 53 := by
  have hs : nameLength SUFFIX = 20 := by decide
  rw [Nonce.labels, nameLength_cons, z.length_label, hs]

theorem Nonce.legal (z : Nonce) : LegalLabels z.labels := by
  have hs : LegalLabels SUFFIX := by decide
  have hz := z.length_label
  refine ⟨fun l hl => ?_, fun l hl => ?_, by rw [z.nameLength_labels]; omega⟩
  · rcases List.mem_cons.mp hl with rfl | hl
    · exact List.length_pos_iff.mp (by omega)
    · exact hs.label_ne_nil l hl
  · rcases List.mem_cons.mp hl with rfl | hl
    · omega
    · exact hs.label_le l hl

theorem Host.legal_cons (h : Host) {ls : List Label} (hls : LegalLabels ls)
    (hlen : nameLength ls ≤ 191) : LegalLabels (h.label :: ls) := by
  obtain ⟨-, hp, h63, -⟩ := h.isHost
  refine ⟨fun l hl => ?_, fun l hl => ?_, ?_⟩
  · rcases List.mem_cons.mp hl with rfl | hl
    · exact hp.1
    · exact hls.label_ne_nil l hl
  · rcases List.mem_cons.mp hl with rfl | hl
    · exact h63
    · exact hls.label_le l hl
  · rw [nameLength_cons, Host.label]
    omega

theorem Nonce.nameLength_host_le (z : Nonce) (h : Host) :
    nameLength (h.label :: z.labels) ≤ 117 := by
  have := h.isHost.2.2.1
  rw [nameLength_cons, z.nameLength_labels, Host.label]
  omega

namespace Nonce

variable (z : Nonce)

/-- The apex of the zone. -/
def zone : Name := ⟨z.labels, z.legal⟩

/-- The name of a host in the zone. -/
def host (h : Host) : Name :=
  ⟨h.label :: z.labels, h.legal_cons z.legal (by rw [z.nameLength_labels]; omega)⟩

/-- The name of a host below another one. -/
def below (g h : Host) : Name :=
  ⟨g.label :: h.label :: z.labels, g.legal_cons (z.host h).legal (by
    have := z.nameLength_host_le h
    exact Nat.le_trans this (by omega))⟩

/-- The text of the zone, as `answer_fresh` builds it. -/
def text : String := octetsText z.label ++ ".fresh.example.test."

/-- The nonce of 32 zeros. -/
def zeros : Nonce := ⟨List.replicate 32 48, by decide⟩

end Nonce

/-! ### Names in a zone -/

/-- `owner` is `front` in front of the zone, whose labels may be spelled in any case. -/
structure InZone (z : Nonce) (owner : Name) (front : List Label) : Prop where
  labels : ∃ suffix, owner.labels = front ++ suffix ∧ foldCase suffix = z.labels

/-- The key of a name in a zone: `apex`, or the label directly in front of the nonce. -/
def keyOf (front : List Label) : Option String :=
  match front.getLast? with
  | none => some "apex"
  | some label => (decodeAscii label).map lowerText

/-! ### Templates -/

/-- A name relative to a zone and an owner in it. -/
inductive RelName where
  | root
  | host (h : Host)
  /-- a label in front of the owner -/
  | ofOwner (h : Host)
  deriving DecidableEq

/-- One field of record data, names relative. -/
inductive Part where
  | octets (bs : Octets)
  | name (n : RelName)
  /-- text for the parser of a record type -/
  | text (kind : UInt16) (s : String)
  /-- one character string, `count` times -/
  | strings (count : Nat) (s : String)
  deriving DecidableEq

/-- An RRset without its owner. -/
structure Template where
  kind : UInt16
  ttl : UInt32
  data : List (List Part)
  deriving DecidableEq

section

variable (d : Dnspython) (z : Nonce) (owner : Name)

def RelName.fill : RelName → Name
  | .root => Name.root
  | .host h => z.host h
  | .ofOwner h => (Name.concatenate [h.label] owner).getD owner

def Part.fill : Part → Field
  | .octets bs => .octets bs
  | .name n => .name (n.fill z owner)
  | .text kind s => .octets ((d.octetsFromText kind s).toOption.getD [])
  | .strings count s => .octets (Dnspython.charStrings (List.replicate count (textOctets s)))

def Template.fill (t : Template) : RRset :=
  ⟨owner, t.kind, RRClass.IN, t.ttl, t.data.map (List.map (Part.fill d z owner))⟩

end

/-! ### The catalogue -/

namespace Fixture

def a (hosts : List Nat) (ttl : UInt32) : Template :=
  ⟨RRType.A, ttl, hosts.map fun i => [.octets [192, 0, 2, UInt8.ofNat i]]⟩

def aaaa (hosts : List Nat) (ttl : UInt32) : Template :=
  ⟨RRType.AAAA, ttl, hosts.map fun i =>
    [.octets ([0x20, 0x01, 0x0d, 0xb8] ++ List.replicate 10 0 ++ packU16 (UInt16.ofNat i))]⟩

/-- NS, CNAME, PTR and DNAME. -/
def target (kind : UInt16) (h : Host) : Template := ⟨kind, 0, [[.name (.host h)]]⟩

/-- MX and AFSDB. -/
def exchange (kind : UInt16) (preference : UInt16) (h : Host) : Template :=
  ⟨kind, 0, [[.octets (packU16 preference), .name (.host h)]]⟩

def srv (entries : List (UInt16 × UInt16 × Host)) : Template :=
  ⟨RRType.SRV, 0, entries.map fun (weight, port, h) =>
    [.octets (packU16 10 ++ packU16 weight ++ packU16 port), .name (.host h)]⟩

def soaTimes : Octets :=
  packU32 2026092101 ++ packU32 60 ++ packU32 60 ++ packU32 3600 ++ packU32 0

def hostmaster : Host := ⟨"hostmaster", by decide⟩

/-- The SOA record of the zone, of `ns` and of `soa`. -/
def zoneSoa : Template :=
  ⟨RRType.SOA, 0, [[.name (.host ⟨"ns", by decide⟩), .name (.host hostmaster), .octets soaTimes]]⟩

/-- The SOA record of `additional-ns`, with a mailbox below its own name. -/
def additionalNsSoa : Template :=
  ⟨RRType.SOA, 0,
    [[.name (.host ⟨"additional-ns-host", by decide⟩), .name (.ofOwner hostmaster),
      .octets soaTimes]]⟩

def ns : Template := target RRType.NS ⟨"ns", by decide⟩

/-- SVCB and HTTPS in service mode. -/
def service (kind : UInt16) (n : RelName) : Template :=
  ⟨kind, 0, [[.octets (packU16 1), .name n, .text kind serviceParams]]⟩

/-- SVCB and HTTPS in alias mode. -/
def serviceAlias (kind : UInt16) (h : Host) : Template :=
  ⟨kind, 0, [[.octets (packU16 0), .name (.host h), .octets []]]⟩

def txt (count : Nat) (s : String) : Template := ⟨RRType.TXT, 0, [[.strings count s]]⟩

def text (kind : UInt16) (s : String) : Template := ⟨kind, 0, [[.text kind s]]⟩

theorem isHost_srvTarget : ∀ s ∈ SRV_TARGETS, IsHost s := by decide +kernel

/-- The targets of `large-srv`. -/
def srvTargets : List Host := SRV_TARGETS.pmap Host.mk isHost_srvTarget

/-- The keys with a single RRset, the table `values` of the source. -/
def single : List (String × Template) :=
  [("mx", exchange RRType.MX 10 ⟨"mail", by decide⟩), ("txt", txt 1 "fresh DNS evidence fixture"),
    ("ptr", target RRType.PTR ⟨"a", by decide⟩), ("ad-ptr", target RRType.PTR ⟨"a", by decide⟩),
    ("hinfo", text RRType.HINFO hinfoText),
    ("rp", ⟨RRType.RP, 0, [[.name (.host hostmaster), .name (.host ⟨"contact", by decide⟩)]]⟩),
    ("contact", txt 1 "Fixture contact metadata"),
    ("afsdb", exchange RRType.AFSDB 1 ⟨"service", by decide⟩), ("loc", text RRType.LOC locText),
    ("naptr", text RRType.NAPTR naptrText), ("cert", text RRType.CERT certText),
    ("sshfp", text RRType.SSHFP sshfpText), ("tlsa", text RRType.TLSA tlsaText),
    ("openpgpkey", text RRType.OPENPGPKEY OPENPGPKEY), ("smimea", text RRType.SMIMEA SMIMEA),
    ("uri", text RRType.URI uriText), ("caa", text RRType.CAA caaText),
    ("unknown", text TYPE65280 unknownText)]

end Fixture

open Fixture in
/-- The data of each key of the catalogue. -/
def fixture (key : String) : Option (List Template) :=
  if key ∈ DNAME_KEYS then some [target RRType.DNAME ⟨"target-tree", by decide⟩]
  else if key ∈ ALIASES then
    some [target RRType.CNAME
      (if key = "cname-chain" then ⟨"chain-hop", by decide⟩ else ⟨"a", by decide⟩)]
  else if key ∈ ["ns", "soa"] then
    some ([ns, zoneSoa] ++ if key = "ns" then [a [53] 0] else [])
  else if key = "additional-ns" then
    some [target RRType.NS ⟨"additional-ns-host", by decide⟩, additionalNsSoa]
  else if key ∈ ["additional-mail", "additional-service", "additional-dc", "additional-ns-host"] then
    let address := if key = "additional-mail" then (25, 0x25)
      else if key = "additional-service" then (40, 0x40)
      else if key = "additional-dc" then (60, 0x60) else (53, 0x53)
    some [a [address.1] 0, aaaa [address.2] 0]
  else if key = "additional-mx" then
    some [Fixture.exchange RRType.MX 10 ⟨"additional-mail", by decide⟩]
  else if key ∈ ["additional-srv", "additional-ad"] then
    some [srv [if key = "additional-ad" then (60, 389, ⟨"additional-dc", by decide⟩)
      else (60, 8443, ⟨"additional-service", by decide⟩)]]
  else if key ∈ ADDRESS_KEYS then
    let ttl := if key = "ttl-normal" then 60 else if key = "ttl-high" then 86400 else 0
    some ([a [10] ttl] ++ if key ∈ ["nodata", "unsupported"] then [] else [aaaa [0x10] ttl])
  else if key = "aaaa" then some [aaaa [0x10] 0]
  else if key = "mail" then some [a [25] 0]
  else if key ∈ ["service", "svc", "target-tree"] ∨ key ∈ SRV_TARGETS then
    let address := if key = "target-tree" then (30, 0x30) else (40, 0x40)
    some ([a [address.1] 0, aaaa [address.2] 0] ++
      if key = "svc" then [service RRType.SVCB .root, service RRType.HTTPS .root] else [])
  else if key = "multi-a" then some [a [10, 11] 0]
  else if key = "multi-aaaa" then some [aaaa [0x10, 0x11] 0]
  else if key ∈ ["large-512", "large-1232", "near-max"] then
    let count := if key = "large-512" then 4 else if key = "large-1232" then 7 else 240
    some [txt count (String.ofList (List.replicate 250 'x'))]
  else if key = "large-multi-a" then some [a (List.range' 1 128) 0]
  else if key = "large-multi-aaaa" then some [aaaa (List.range' 1 128) 0]
  else if key = "large-srv" then
    some [srv ((srvTargets.zipIdx 1).map fun (h, i) => (UInt16.ofNat i, 8443, h))]
  else if key ∈ ["srv", "ad-ldap", "ad-site", "ad-pdc", "ad-kerberos", "ad-kpasswd", "ad-gc"] then
    some [srv [(60, srvPort key, ⟨"service", by decide⟩)]]
  else if key ∈ ["https", "svcb", "https-alias", "svcb-alias"] then
    let kind := if key ∈ ["https", "https-alias"] then RRType.HTTPS else RRType.SVCB
    let svc : Host := ⟨"svc", by decide⟩
    some [if key ∈ ["https-alias", "svcb-alias"] then serviceAlias kind svc
      else service kind (.host svc)]
  else (single.lookup key).map fun t => [t]

/-- The catalogued keys. -/
def fixtureKeys : List String :=
  DNAME_KEYS ++ ALIASES ++
    ["ns", "soa", "additional-ns", "additional-mail", "additional-service", "additional-dc",
      "additional-ns-host", "additional-mx", "additional-srv", "additional-ad"] ++
    ADDRESS_KEYS ++ ["aaaa", "mail", "service", "svc", "target-tree"] ++ SRV_TARGETS ++
    ["multi-a", "multi-aaaa", "large-512", "large-1232", "near-max", "large-multi-a",
      "large-multi-aaaa", "large-srv", "srv", "ad-ldap", "ad-site", "ad-pdc", "ad-kerberos",
      "ad-kpasswd", "ad-gc", "https", "svcb", "https-alias", "svcb-alias"] ++
    Fixture.single.map Prod.fst

/-- The keys with data at every name below them. -/
def descendantKeys : List String := ["wildcard", "long-label", "long-name", "target-tree"]

/-- The host of a list with this text. -/
def hostIn (hosts : List Host) (key : String) : Option Host := hosts.find? fun h => h.text = key

def referralHosts : List Host := [⟨"referral", by decide⟩, ⟨"additional-referral", by decide⟩]

/-- The served apexes below that of the nonce. -/
def childApexes : List Host :=
  [⟨"ns", by decide⟩, ⟨"soa", by decide⟩, ⟨"additional-ns", by decide⟩]

def dnameHosts : List Host := [⟨"dname", by decide⟩, ⟨"dname-child", by decide⟩]

/-! ### Resolution -/

/-- What the end of an alias chain puts into the response. -/
structure Conclusion where
  aa : Bool
  rcode : UInt16
  answer : List RRset
  authority : List RRset
  additional : List RRset

/-- What the resolver does at one name: it stops, or follows an alias. -/
inductive Step where
  | stop (c : Conclusion)
  | follow (aliases : List RRset) (next : Name)

/-- A template at an owner. -/
structure Placed where
  owner : Name
  template : Template
  deriving DecidableEq

/-- The host a record leads to. -/
def targetHost : List Part → Option Host
  | [] => none
  | .name (.host h) :: _ => some h
  | .name _ :: _ => none
  | _ :: rest => targetHost rest

/-- The hosts whose addresses belong into the additional section. -/
def Template.additionalHosts (t : Template) : List Host :=
  if t.kind ∈ [RRType.NS, RRType.MX, RRType.SRV] then t.data.filterMap targetHost else []

namespace Zone

variable (d : Dnspython) (z : Nonce)

def rrset (p : Placed) : RRset := p.template.fill d z p.owner

/-- The records of a name `depth` labels below the apex; `none` denotes a nonexistent one. -/
def node (owner : Name) (key : String) (depth : Nat) : Option (List Placed) :=
  if depth = 0 then some [⟨z.zone, Fixture.zoneSoa⟩, ⟨owner, Fixture.ns⟩]
  else if key = "apex" ∨ (depth ≠ 1 ∧ key ∉ descendantKeys) then none
  else (fixture key).map (List.map (Placed.mk owner))

/-- The deepest served apex below the nonce's that encloses the name.  DS of an apex is data of
the zone above. -/
def apexOf (kind : UInt16) (key : String) (depth : Nat) : Option Host :=
  (hostIn childApexes key).filter fun _ => depth ≠ 1 ∨ kind ≠ RRType.DS

/-- The SOA record of a negative response. -/
def negativeSoa (kind : UInt16) (key : String) (depth : Nat) : RRset :=
  match apexOf kind key depth with
  | none => Fixture.zoneSoa.fill d z z.zone
  | some h =>
    if h.text = "additional-ns" then Fixture.additionalNsSoa.fill d z (z.host h)
    else Fixture.zoneSoa.fill d z (z.host h)

/-- The delegation at a cut. -/
def delegation (h : Host) : Conclusion where
  aa := false
  rcode := Rcode.NOERROR
  answer := []
  authority := [⟨z.host h, RRType.NS, RRClass.IN, 0, [[.name (z.below ⟨"ns", by decide⟩ h)]]⟩]
  additional :=
    (Fixture.a [53] 0).fill d z (z.below ⟨"ns", by decide⟩ h) ::
      if h.text = "additional-referral" then
        [(Fixture.aaaa [0x53] 0).fill d z (z.below ⟨"ns", by decide⟩ h)]
      else []

/-- The target of a substituted name: the labels in front of the DNAME owner, below
`target-tree`. -/
def substituted (front : List Label) : Option Name :=
  Name.concatenate front.dropLast (z.host ⟨"target-tree", by decide⟩)

def dname (h : Host) : RRset :=
  (Fixture.target RRType.DNAME ⟨"target-tree", by decide⟩).fill d z (z.host h)

/-- The addresses of a host of the catalogue. -/
def addresses (h : Host) : List RRset :=
  (((fixture h.text).getD []).filter fun t => t.kind ∈ [RRType.A, RRType.AAAA]).map
    (Template.fill d z (z.host h))

def additionalOf (ps : List Placed) : List RRset :=
  (ps.flatMap fun p => p.template.additionalHosts).flatMap (addresses d z)

/-- The records that answer a question. -/
def select (kind : UInt16) (ps : List Placed) : List Placed :=
  if kind = RRType.ANY then ps.take 1 else ps.filter fun p => p.template.kind = kind

def noData (soa : RRset) : Conclusion := ⟨true, Rcode.NOERROR, [], [soa], []⟩

def nxDomain (soa : RRset) : Conclusion := ⟨true, Rcode.NXDOMAIN, [], [soa], []⟩

def refusal : Conclusion := ⟨false, Rcode.REFUSED, [], [], []⟩

/-- A complete answer without additional records. -/
def answered (rrsets : List RRset) : Conclusion := ⟨true, Rcode.NOERROR, rrsets, [], []⟩

def data (ps : List Placed) : Conclusion :=
  ⟨true, Rcode.NOERROR, ps.map (rrset d z), [], additionalOf d z ps⟩

/-- The resolver at a name with the records `ps`. -/
def nodeStep (kind : UInt16) (key : String) (depth : Nat) : Option (List Placed) → Step
  | none => .stop (nxDomain (negativeSoa d z kind key depth))
  | some ps =>
    match ps.find? fun p => p.template.kind = RRType.CNAME with
    | some p =>
      match p.template.data.head?.bind targetHost with
      | some h =>
        if kind ∈ [RRType.CNAME, RRType.ANY] then .stop (answered [rrset d z p])
        else .follow [rrset d z p] (z.host h)
      | none => .stop (answered [rrset d z p])
    | none =>
      if select kind ps = [] then .stop (noData (negativeSoa d z kind key depth))
      else .stop (data d z (select kind ps))

/-- The resolver below a DNAME. -/
def dnameStep (kind : UInt16) (owner : Name) (front : List Label) (h : Host) : Step :=
  match substituted z front with
  | none => .stop ⟨true, Rcode.YXDOMAIN, [dname d z h], [], []⟩
  | some next =>
    let cname : RRset := ⟨owner, RRType.CNAME, RRClass.IN, 0, [[.name next]]⟩
    if kind = RRType.CNAME then .stop (answered [dname d z h, cname])
    else .follow [dname d z h, cname] next

/-- The resolver at the name `owner`, which is `front` in front of the zone. -/
def step (kind : UInt16) (owner : Name) (front : List Label) (key : String) : Step :=
  match hostIn referralHosts key with
  | some h =>
    if front.length = 1 ∧ kind = RRType.DS then .stop (noData (Fixture.zoneSoa.fill d z z.zone))
    else .stop (delegation d z h)
  | none =>
    if key = "refused" then .stop refusal
    else
      match (hostIn dnameHosts key).filter fun _ => front.length ≠ 1 with
      | some h => dnameStep d z kind owner front h
      | none => nodeStep d z kind key front.length (node z owner key front.length)

end Zone

/-- The alias chain from a name: how many names it visits, the alias RRsets on it, and its end. -/
inductive Resolves (d : Dnspython) (z : Nonce) (kind : UInt16) :
    Nat → Name → List RRset → Conclusion → Prop
  | stop {owner : Name} {front : List Label} {key : String} {c : Conclusion} :
      InZone z owner front → keyOf front = some key →
      Zone.step d z kind owner front key = .stop c → Resolves d z kind 1 owner [] c
  | follow {n : Nat} {owner next : Name} {front : List Label} {key : String}
      {aliases chain : List RRset} {c : Conclusion} :
      InZone z owner front → keyOf front = some key →
      Zone.step d z kind owner front key = .follow aliases next →
      Resolves d z kind n next chain c → Resolves d z kind (n + 1) owner (aliases ++ chain) c

end DnsFixtures
