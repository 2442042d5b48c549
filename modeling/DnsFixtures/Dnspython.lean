import DnsFixtures.Dns.Codec
import DnsFixtures.Dns.Presentation
import DnsFixtures.Dns.Truncation
import DnsFixtures.Python
import DnsFixtures.RecordTexts

/-!
# What the programs use of dnspython

dnspython is not part of the repository, so its readers and writers are a parameter:
`Dnspython` lists the functions the programs call and `Dnspython.Documented` what its documentation
promises of them.  The general formats behind these promises are the definitions of `Dns`:
`readName` and `writeName` for presentation text, `Expands` for names on the wire, `truncate` for
`to_wire` with a size limit.

`render` is not a function of dnspython: it is the wire form `to_wire` gives with no size limit.
`to_wire` writes the records of one RRset in an order of its own choice; a `Dnspython` makes one
choice for each message, and `RRset.SameAs` does not see it.
-/

namespace DnsFixtures

open Dns

structure Dnspython where
  /-- `dns.name.from_wire`: the name and the octets it takes -/
  nameFromWire : Octets → Nat → Except Raised (Name × Nat)
  /-- `dns.name.from_text` -/
  nameFromText : String → Except Raised Name
  /-- `Name.to_text` -/
  nameToText : Name → String
  /-- the record parsers of `dns.rrset.from_text`, for data without domain names -/
  octetsFromText : UInt16 → String → Except Raised Octets
  /-- `dns.message.from_wire` -/
  messageFromWire : Octets → Except Raised Message
  /-- `dns.message.make_response` -/
  makeResponse : Message → Except Raised Message
  /-- `Message.to_wire`, with `max_size` and `prefer_truncation` -/
  toWire : Message → Nat → Bool → Except Raised Octets
  render : Message → Octets

namespace Dnspython

variable (d : Dnspython)

/-- `dns.name.from_wire` finds the name `n` at `off`. -/
def NameAt (w : Octets) (off : Nat) (n : Name) (used : Nat) : Prop :=
  d.nameFromWire w off = .ok (n, used)

/-! ### Messages that can be written and read back -/

/-- The octets of character strings, each behind its length. -/
def charStrings (ss : List Octets) : Octets := ss.flatMap fun s => UInt8.ofNat s.length :: s

/-- Octets that are record data of type `t`: parsed from text, or the strings of a TXT record. -/
def ValidOctets (t : UInt16) (bs : Octets) : Prop :=
  (∃ s, d.octetsFromText t s = .ok bs) ∨
    (t = RRType.TXT ∧ ∃ ss : List Octets, ss ≠ [] ∧ (∀ s ∈ ss, s.length ≤ 255) ∧ bs = charStrings ss)

/-- The layout of each record type. -/
def layout (t : UInt16) : List Piece :=
  if t = RRType.A then [.fixed 4]
  else if t = RRType.AAAA then [.fixed 16]
  else if t ∈ [RRType.NS, RRType.CNAME, RRType.PTR, RRType.DNAME] then [.name]
  else if t = RRType.SOA then [.name, .name, .fixed 20]
  else if t ∈ [RRType.MX, RRType.AFSDB] then [.fixed 2, .name]
  else if t = RRType.SRV then [.fixed 6, .name]
  else if t = RRType.RP then [.name, .name]
  else if t ∈ [RRType.SVCB, RRType.HTTPS] then [.fixed 2, .name, .rest]
  else [.rest]

/-- Data in the layout of its type.  The rest of an alias-mode SVCB record is empty. -/
def Conforms (t : UInt16) : List Piece → Rdata → Prop
  | [], [] => True
  | .fixed n :: ps, .octets bs :: fs => bs.length = n ∧ Conforms t ps fs
  | .name :: ps, .name _ :: fs => Conforms t ps fs
  | [.rest], [.octets bs] => d.ValidOctets t bs ∨ (bs = [] ∧ t ∈ [RRType.SVCB, RRType.HTTPS])
  | _, _ => False

/-- The record types of ordinary data. -/
def dataTypes : List UInt16 :=
  [RRType.A, RRType.NS, RRType.CNAME, RRType.SOA, RRType.PTR, RRType.HINFO, RRType.MX, RRType.TXT,
    RRType.RP, RRType.AFSDB, RRType.AAAA, RRType.LOC, RRType.SRV, RRType.NAPTR, RRType.CERT,
    RRType.DNAME, RRType.SSHFP, RRType.TLSA, RRType.SMIMEA, RRType.OPENPGPKEY, RRType.SVCB,
    RRType.HTTPS, RRType.URI, RRType.CAA, TYPE65280]

/-- An RRset a message can carry: of a data type in class IN, with at least one record, no record
twice, and only one record of a type that admits one. -/
structure RenderableRRset (r : RRset) : Prop where
  rdclass : r.rdclass = RRClass.IN
  rdtype : r.rdtype ∈ dataTypes
  ttl : r.ttl.toNat < 2 ^ 31
  ne_nil : r.rdatas ≠ []
  nodup : r.rdatas.Pairwise fun a b => ¬ Rdata.SameAs a b
  singleton : r.rdtype ∈ [RRType.CNAME, RRType.SOA, RRType.DNAME] → r.rdatas.length = 1
  conforms : ∀ x ∈ r.rdatas, d.Conforms r.rdtype (layout r.rdtype) x

structure RenderableSection (s : List RRset) : Prop where
  keys : s.Pairwise fun a b => ¬ RRset.SameKey a b
  rrsets : ∀ r ∈ s, d.RenderableRRset r

/-- A response whose sections read back as they were written. -/
structure Renderable (m : Message) : Prop where
  question : m.question.length ≤ 1
  opcode : opcodeOf m.flags = 0 ∨
    (m.question = [] ∧ m.answer = [] ∧ m.authority = [] ∧ m.additional = [])
  answer : d.RenderableSection m.answer
  authority : d.RenderableSection m.authority
  additional : d.RenderableSection m.additional
  options : ∀ o, m.opt = some o → o.options = []

/-! ### The documentation -/

/-- What `dns.name.from_text` raises for a malformed text. -/
def raisedOf : TextError → Raised
  | .emptyLabel => .dnsException .emptyLabel
  | .badEscape => .dnsException .badEscape
  | .labelTooLong => .dnsException .labelTooLong
  | .nameTooLong => .dnsException .nameTooLong
  | .octetOverflow => .structError

/-- The documented behaviour of dnspython that the programs rely on. -/
structure Documented : Prop where
  /-- names on the wire: pointers lead strictly backwards, and the limits of names hold -/
  nameFromWire_iff : ∀ w off n, (∃ used, d.nameFromWire w off = .ok (n, used)) ↔
    ∃ ps, Expands w off n.labels ps ∧ Backward off ps
  nameFromWire_plain : ∀ w off (n : Name), HoldsAt w off (wireLabels n.labels) →
    d.nameFromWire w off = .ok (n, nameLength n.labels)
  nameFromWire_raises : ∀ w off e, d.nameFromWire w off = .error e → e.isDNSException
  /-- names as text -/
  nameFromText_eq : ∀ s, IsAsciiText s →
    d.nameFromText s = (readName (textOctets s)).mapError raisedOf
  nameToText_eq : ∀ n, d.nameToText n = octetsText (writeName n)
  /-- the record texts of the fixtures are well formed, and none is long -/
  octetsFromText_fixtures : ∀ p ∈ fixtureTexts, ∃ bs, d.octetsFromText p.1 p.2 = .ok bs ∧
    bs.length ≤ 2000
  /-- a message that is read: its header, its questions and the headers of its records -/
  messageFromWire_raises : ∀ w e, d.messageFromWire w = .error e → e.isDNSException
  messageFromWire_header : ∀ w m, d.messageFromWire w = .ok m → ∃ h stop hs,
    readHeader w = some h ∧ m.id = h.id ∧ m.flags = h.flags ∧
    m.question.length = h.qdcount.toNat ∧ QuestionsAt (d.NameAt w) w 12 m.question stop ∧
    hs.length = h.ancount.toNat + h.nscount.toNat + h.arcount.toNat ∧
    RecordsAt (d.NameAt w) w stop hs ∧ m.opt.map Opt.words = optOf hs
  /-- a response skeleton for a query with QR clear; it may keep the CD bit -/
  makeResponse_query : ∀ q, ¬ hasFlag q.flags Flag.QR → opcodeOf q.flags = 0 → ∃ r,
    d.makeResponse q = .ok r ∧ r.id = q.id ∧
    r.flags &&& ~~~Flag.CD = Flag.QR ||| (q.flags &&& (Flag.opcodeMask ||| Flag.RD)) ∧
    r.question = q.question ∧ r.answer = [] ∧ r.authority = [] ∧ r.additional = [] ∧
    (q.opt = none → r.opt = none)
  /-- the wire form starts with identifier and flags, which nothing behind them depends on -/
  render_header : ∀ m, HoldsAt (d.render m) 0 (packU16 m.id ++ packU16 m.flags) ∧
    12 ≤ (d.render m).length
  render_flags : ∀ m f, (d.render { m with flags := f }).drop 4 = (d.render m).drop 4
  /-- name compression makes nothing longer -/
  render_length : ∀ m, d.Renderable m → (d.render m).length ≤ m.size
  /-- `from_wire` undoes `to_wire`, up to the case of names written through a pointer -/
  render_decodes : ∀ m, d.Renderable m → (d.render m).length ≤ 65535 →
    ∃ m', d.messageFromWire (d.render m) = .ok m' ∧ m'.SameAs m
  /-- `to_wire` with a size limit that header, question and OPT keep -/
  toWire_whole : ∀ m limit p, 512 ≤ limit → limit ≤ 65535 →
    (d.render (m.keep 0)).length ≤ limit → fitting d.render m limit = m.rrsetCount →
    d.toWire m limit p = .ok (d.render m)
  toWire_tooBig : ∀ m limit, 512 ≤ limit → limit ≤ 65535 →
    (d.render (m.keep 0)).length ≤ limit → fitting d.render m limit ≠ m.rrsetCount →
    d.toWire m limit false = .error (.dnsException .tooBig)
  toWire_truncates : ∀ m limit, 512 ≤ limit → limit ≤ 65535 →
    (d.render (m.keep 0)).length ≤ limit → fitting d.render m limit ≠ m.rrsetCount →
    d.toWire m limit true = .ok (d.render (truncate d.render m limit))

/-- The wire form starts with the header; behind it stands the first question, its name in full: there
is nothing in front that it could point to. -/
def WritesQuestion : Prop :=
  ∀ m q, m.question.head? = some q → HoldsAt (d.render m) 0 (writeHeader m.header ++ writeQuestion q)

/-- What is relied on to build a truncated response: how many octets a name takes, where the question
stands, and that a response skeleton is short, its OPT record being padded to 468 octets at most. -/
structure DocumentedSkeleton : Prop where
  nameFromWire_used : ∀ w off n used, d.nameFromWire w off = .ok (n, used) →
    EndsAt w off (off + used)
  writesQuestion : d.WritesQuestion
  makeResponse_fits : ∀ q r f, d.makeResponse q = .ok r → q.question.length ≤ 1 →
    (d.render { r with flags := f }).length ≤ 512

/-- `from_wire` undoes `to_wire` on the message, also when RRsets are left out at its end and TC is
set. -/
def ReadsBack (m : Message) : Prop :=
  ∀ k f, f = m.flags ∨ f = m.flags ||| Flag.TC →
    (d.render { m.keep k with flags := f }).length ≤ 65535 →
    ∃ m', d.messageFromWire (d.render { m.keep k with flags := f }) = .ok m' ∧
      m'.SameAs { m.keep k with flags := f }

/-- `make_response` raises for a message that is itself a response. -/
def RefusesResponses : Prop :=
  ∀ q, hasFlag q.flags Flag.QR → ∃ e, d.makeResponse q = .error e

end Dnspython

end DnsFixtures
