import DnsFixtures.RecordData

/-!
# `fresh_fixtures.py`

Nonce-scoped answers without network input or output.  `records` is the data at one node,
`answerStep` one turn of the alias loop of `_answer`, `answerLoop` the loop with the turns that
remain, and `answerFresh` the entry point.  What raises in the source is an `Except.error` here.

Names of the source without their leading underscore are the names here.
-/

namespace DnsFixtures

open Dns

/-! ### Keys -/

/-- The labels of `fresh.example.test`, the root left out. -/
def SUFFIX : List Label := [textOctets "fresh", textOctets "example", textOctets "test"]

def TRANSPORT_KEYS : List String :=
  ["split-prefix", "split-body", "bytewise", "request-split-prefix", "request-split-body",
    "request-bytewise", "persistent", "pipeline", "reordered", "coalesced", "close-before",
    "close-prefix", "close-body", "length-mismatch", "stall", "duplicate", "trailing",
    "mismatch-id", "mismatch-question", "zero-prefix", "partial-prefix", "partial-body"]

def ADDRESS_KEYS : List String :=
  TRANSPORT_KEYS ++
    ["a", "exact", "wildcard", "mixed-case", "long-label", "long-name", "ttl-zero", "ttl-normal",
      "ttl-high", "signed", "do-off", "cd", "ad", "any", "nodata", "unsupported"]

def ALIASES : List String := ["cname", "cname-a", "cname-chain", "chain-hop", "ad-guid"]

def DNAME_KEYS : List String := ["dname", "dname-child"]

/-- The keys that `srv-(?:[1-9]|[1-5][0-9]|6[0-4])` matches. -/
def SRV_TARGETS : List String := (List.range' 1 64).map fun i => "srv-" ++ toString i

/-- The label is 32 lower-case hexadecimal digits. -/
def isNonce (l : Label) : Bool :=
  l.length = 32 ∧ ∀ c ∈ l, (48 ≤ c ∧ c ≤ 57) ∨ (97 ≤ c ∧ c ≤ 102)

/-- `_name_key`: the label in front of the nonce as text, and the nonce. -/
def nameKey (name : Name) : Option (String × String) :=
  -- from the root: the suffix, the nonce, and behind them the label of the key
  match name.labels.reverse with
  | test :: example_ :: fresh :: nonce :: front =>
    if foldCase [fresh, example_, test] = SUFFIX ∧ isNonce (lower nonce) then
      match front with
      | [] => some ("apex", octetsText (lower nonce))
      | label :: _ => (decodeAscii label).map fun s => (lowerText s, octetsText (lower nonce))
    else none
  | _ => none

variable (d : Dnspython)

def freshKey (queryWire : Octets) : Except Raised (Option (String × String)) := do
  let query ← d.messageFromWire queryWire
  match query.question with
  | [] => return none
  | question :: _ => return nameKey question.name

/-! ### The data at one node -/

/-- The port of the SRV records that lead to `service`. -/
def srvPort (key : String) : UInt16 :=
  (([("ad-ldap", 389), ("ad-site", 389), ("ad-pdc", 389), ("ad-kerberos", 88),
    ("ad-kpasswd", 464), ("ad-gc", 3268)] : List (String × UInt16)).lookup key).getD 8443

/-- The table `values` of `_records`. -/
def values (zone : String) : List (String × UInt16 × Except Raised Rdata) :=
  let target := fun label => label ++ "." ++ zone
  [("mx", RRType.MX, mxData d 10 (target "mail")),
    ("txt", RRType.TXT, txtData ["fresh DNS evidence fixture"]),
    ("ptr", RRType.PTR, nameData d (target "a")), ("ad-ptr", RRType.PTR, nameData d (target "a")),
    ("hinfo", RRType.HINFO, textData d RRType.HINFO hinfoText),
    ("rp", RRType.RP, rpData d ("hostmaster." ++ zone) ("contact." ++ zone)),
    ("contact", RRType.TXT, txtData ["Fixture contact metadata"]),
    ("afsdb", RRType.AFSDB, mxData d 1 (target "service")),
    ("loc", RRType.LOC, textData d RRType.LOC locText),
    ("naptr", RRType.NAPTR, textData d RRType.NAPTR naptrText),
    ("cert", RRType.CERT, textData d RRType.CERT certText),
    ("sshfp", RRType.SSHFP, textData d RRType.SSHFP sshfpText),
    ("tlsa", RRType.TLSA, textData d RRType.TLSA tlsaText),
    ("openpgpkey", RRType.OPENPGPKEY, textData d RRType.OPENPGPKEY OPENPGPKEY),
    ("smimea", RRType.SMIMEA, textData d RRType.SMIMEA SMIMEA),
    ("uri", RRType.URI, textData d RRType.URI uriText),
    ("caa", RRType.CAA, textData d RRType.CAA caaText),
    ("unknown", TYPE65280, textData d TYPE65280 unknownText)]

/-- `_records` behind its first test: the data of a node that is one of the fixtures. -/
def fixtureRecords (owner : Name) (key zone : String) : Except Raised (Option (List RRset)) :=
  let target := fun label => label ++ "." ++ zone
  let own := Owner.name owner
  if key = "apex" then do
    let apex ← d.nameFromText zone
    if ¬ owner.SameAs apex then return none
    else
      some <$> sequence [soa d zone none none, rr d own RRType.NS [nameData d (target "ns")] 0]
  else if key ∈ DNAME_KEYS then
    some <$> sequence [rr d own RRType.DNAME [nameData d (target "target-tree")] 0]
  else if key ∈ ALIASES then
    some <$> sequence
      [rr d own RRType.CNAME
        [nameData d (target (if key = "cname-chain" then "chain-hop" else "a"))] 0]
  else if key ∈ ["ns", "soa"] then
    some <$> sequence
      ([rr d own RRType.NS [nameData d (target "ns")] 0, soa d zone (some own) none] ++
        if key = "ns" then [rr d own RRType.A [aData 53] 0] else [])
  else if key = "additional-ns" then
    some <$> sequence
      [rr d own RRType.NS [nameData d (target "additional-ns-host")] 0,
        soa d (d.nameToText owner) none (some (target "additional-ns-host"))]
  else if key ∈ ["additional-mail", "additional-service", "additional-dc", "additional-ns-host"] then
    let address := if key = "additional-mail" then (25, 0x25)
      else if key = "additional-service" then (40, 0x40)
      else if key = "additional-dc" then (60, 0x60) else (53, 0x53)
    some <$> sequence
      [rr d own RRType.A [aData address.1] 0, rr d own RRType.AAAA [aaaaData address.2] 0]
  else if key = "additional-mx" then
    some <$> sequence [rr d own RRType.MX [mxData d 10 (target "additional-mail")] 0]
  else if key ∈ ["additional-srv", "additional-ad"] then
    let host := if key = "additional-ad" then ("additional-dc", 389)
      else ("additional-service", 8443)
    some <$> sequence [rr d own RRType.SRV [srvData d 10 60 host.2 (target host.1)] 0]
  else if key ∈ ADDRESS_KEYS then
    let ttl := if key = "ttl-normal" then 60 else if key = "ttl-high" then 86400 else 0
    some <$> sequence
      ([rr d own RRType.A [aData 10] ttl] ++
        if key ∈ ["nodata", "unsupported"] then []
        else [rr d own RRType.AAAA [aaaaData 0x10] ttl])
  else if key = "aaaa" then
    some <$> sequence [rr d own RRType.AAAA [aaaaData 0x10] 0]
  else if key = "mail" then
    some <$> sequence [rr d own RRType.A [aData 25] 0]
  else if key ∈ ["service", "svc", "target-tree"] ∨ key ∈ SRV_TARGETS then
    let address := if key = "target-tree" then (30, 0x30) else (40, 0x40)
    some <$> sequence
      ([rr d own RRType.A [aData address.1] 0, rr d own RRType.AAAA [aaaaData address.2] 0] ++
        if key = "svc" then
          [rr d own RRType.SVCB [svcbData d RRType.SVCB 1 "." (some serviceParams)] 0,
            rr d own RRType.HTTPS [svcbData d RRType.HTTPS 1 "." (some serviceParams)] 0]
        else [])
  else if key = "multi-a" then
    some <$> sequence [rr d own RRType.A [aData 10, aData 11] 0]
  else if key = "multi-aaaa" then
    some <$> sequence [rr d own RRType.AAAA [aaaaData 0x10, aaaaData 0x11] 0]
  else if key ∈ ["large-512", "large-1232", "near-max"] then
    let count := if key = "large-512" then 4 else if key = "large-1232" then 7 else 240
    some <$> sequence
      [rr d own RRType.TXT
        [txtData (List.replicate count (String.ofList (List.replicate 250 'x')))] 0]
  else if key = "large-multi-a" then
    some <$> sequence [rr d own RRType.A ((List.range' 1 128).map aData) 0]
  else if key = "large-multi-aaaa" then
    some <$> sequence [rr d own RRType.AAAA ((List.range' 1 128).map aaaaData) 0]
  else if key = "large-srv" then
    some <$> sequence
      [rr d own RRType.SRV
        ((List.range' 1 64).map fun i =>
          srvData d 10 (UInt16.ofNat i) 8443 (target ("srv-" ++ toString i))) 0]
  else if key ∈ ["srv", "ad-ldap", "ad-site", "ad-pdc", "ad-kerberos", "ad-kpasswd", "ad-gc"] then
    some <$> sequence [rr d own RRType.SRV [srvData d 10 60 (srvPort key) (target "service")] 0]
  else if key ∈ ["https", "svcb", "https-alias", "svcb-alias"] then
    let kind := if key ∈ ["https", "https-alias"] then RRType.HTTPS else RRType.SVCB
    let data := if key ∈ ["https-alias", "svcb-alias"] then svcbData d kind 0 (target "svc") none
      else svcbData d kind 1 (target "svc") (some serviceParams)
    some <$> sequence [rr d own kind [data] 0]
  else
    match (values d zone).lookup key with
    | some (kind, data) => some <$> sequence [rr d own kind [data] 0]
    | none => return none

/-- `_records`: the data at one node; `none` denotes a nonexistent node. -/
def records (owner : Name) (key zone : String) : Except Raised (Option (List RRset)) := do
  let cut ← d.nameFromText (key ++ "." ++ zone)
  -- only these families have descendants
  if ¬ owner.SameAs cut ∧ key ∉ ["apex", "wildcard", "long-label", "long-name", "target-tree"] then
    return none
  else
    fixtureRecords d owner key zone

/-! ### Additional data -/

/-- The name an NS, MX or SRV record leads to. -/
def additionalTarget (rrset : RRset) (rdata : Rdata) : Option Name :=
  if rrset.rdtype ∈ [RRType.NS, RRType.MX, RRType.SRV] then Rdata.target? rdata else none

/-- Append the addresses that are not there yet. -/
def addAddresses (response : Message) (addresses : List RRset) : Message :=
  addresses.foldl
    (fun response address =>
      if address.rdtype ∈ [RRType.A, RRType.AAAA] ∧ ¬ ∃ r ∈ response.additional, address.Equals r then
        { response with additional := response.additional ++ [address] }
      else response)
    response

/-- One turn of the inner loop of `_additional`. -/
def additionalStep (zone : String) (rrset : RRset) (response : Message) (rdata : Rdata) :
    Except Raised Message :=
  match (additionalTarget rrset rdata).bind fun t => (nameKey t).map fun k => (t, k.1) with
  -- only targets in the fixture zones have addresses here
  | none => return response
  | some (target, key) => do
    let addresses ← records d target key zone
    return addAddresses response (addresses.getD [])

/-- `_additional`. -/
def additional (response : Message) (rrsets : List RRset) (zone : String) :
    Except Raised Message :=
  rrsets.foldlM (fun response rrset => rrset.rdatas.foldlM (additionalStep d zone rrset) response)
    response

/-! ### The alias loop -/

/-- How one turn of the loop of `_answer` ends: it returns, or goes on with another owner. -/
inductive Turn where
  | done (response : Message)
  | next (response : Message) (owner : Name)

def Turn.response : Turn → Message
  | done r => r
  | next r _ => r

/-- `authority_owner`: the apex of the served zone that holds the owner. -/
def authorityOwner (owner : Name) (kind : UInt16) (key zone : String) : Except Raised Owner :=
  if key ∈ ["ns", "soa", "additional-ns"] then do
    let childZone ← d.nameFromText (key ++ "." ++ zone)
    -- DS of a child apex is data of its parent
    if ¬ owner.SameAs childZone ∨ kind ≠ RRType.DS then return .name childZone
    else return .text zone
  else return .text zone

def authoritySoa (owner : Name) (kind : UInt16) (key zone : String) : Except Raised RRset := do
  let apex ← authorityOwner d owner kind key zone
  if key = "additional-ns" ∧ apex.str d ≠ zone then
    soa d (apex.str d) none (some ("additional-ns-host." ++ zone))
  else soa d zone (some apex) none

def referral (response : Message) (cut : Name) (key : String) : Except Raised Message := do
  let host := "ns." ++ d.nameToText cut
  let ns ← rr d (.name cut) RRType.NS [nameData d host] 0
  let a ← rr d (.text host) RRType.A [aData 53] 0
  let response := { response with
    flags := response.flags &&& ~~~Flag.AA
    authority := response.authority ++ [ns]
    additional := response.additional ++ [a] }
  if key = "additional-referral" then
    let aaaa ← rr d (.text host) RRType.AAAA [aaaaData 0x53] 0
    return { response with additional := response.additional ++ [aaaa] }
  else return response

/-- The DNAME branch for an owner below `parent`. -/
def substitute (response : Message) (owner parent : Name) (kind : UInt16) (zone : String) :
    Except Raised Turn := do
  let replacement ← d.nameFromText ("target-tree." ++ zone)
  let dname ← rr d (.name parent) RRType.DNAME [nameData d (d.nameToText replacement)] 0
  let response := { response with answer := response.answer ++ [dname] }
  match owner.relativize parent with
  | none => throw (.dnsException .absoluteConcatenation)
  | some front =>
    match Name.concatenate front replacement with
    -- `NameTooLong`
    | none => return .done (response.setRcode Rcode.YXDOMAIN)
    | some canonical =>
      let cname ← rr d (.name owner) RRType.CNAME [nameData d (d.nameToText canonical)] 0
      let response := { response with answer := response.answer ++ [cname] }
      if kind = RRType.CNAME then return .done response
      else return .next response canonical

/-- The turn for an owner whose data is in the record table. -/
def answerRecords (response : Message) (rrsets : Option (List RRset)) (soa : RRset) (kind : UInt16)
    (zone : String) : Except Raised Turn :=
  match rrsets with
  | none =>
    return .done { response.setRcode Rcode.NXDOMAIN with
      authority := response.authority ++ [soa] }
  | some rrsets =>
    match rrsets.find? fun r => r.rdtype = RRType.CNAME with
    | some cname =>
      let response := { response with answer := response.answer ++ [cname] }
      if kind ∈ [RRType.CNAME, RRType.ANY] then return .done response
      else
        match cname.rdatas.head?.bind Rdata.target? with
        | some target => return .next response target
        | none => return .done response
    | none => do
      let selected := if kind = RRType.ANY then rrsets.take 1
        else rrsets.filter fun r => r.rdtype = kind
      if selected ≠ [] then
        let response := { response with answer := response.answer ++ selected }
        return .done (← additional d response selected zone)
      else return .done { response with authority := response.authority ++ [soa] }

/-- One turn of the loop of `_answer`. -/
def answerStep (kind : UInt16) (zone : String) (response : Message) (owner : Name) :
    Except Raised Turn :=
  match nameKey owner with
  | none => return .done response
  | some (key, _) => do
    let authoritySoa ← authoritySoa d owner kind key zone
    let cut ← d.nameFromText (key ++ "." ++ zone)
    if key ∈ ["referral", "additional-referral"] ∧ ¬ (owner.SameAs cut ∧ kind = RRType.DS) then
      return .done (← referral d response cut key)
    else if key ∈ ["referral", "additional-referral"] then
      return .done { response with authority := response.authority ++ [← soa d zone none none] }
    else if key = "refused" then
      return .done ({ response with flags := response.flags &&& ~~~Flag.AA }.setRcode Rcode.REFUSED)
    else if key ∈ DNAME_KEYS ∧ ¬ owner.SameAs cut then
      substitute d response owner cut kind zone
    else
      answerRecords d response (← records d owner key zone) authoritySoa kind zone

/-- The loop of `_answer` with `n` turns to go. -/
def answerLoop (kind : UInt16) (zone : String) : Nat → Message → Name → Except Raised Message
  | 0, response, _ => return response.setRcode Rcode.SERVFAIL
  | n + 1, response, owner => do
    match ← answerStep d kind zone response owner with
    | .done response => return response
    | .next response owner => answerLoop kind zone n response owner

/-- `_answer`. -/
def answer (response : Message) (owner : Name) (kind : UInt16) (zone : String) :
    Except Raised Message :=
  -- these finite alias chains need at most two CNAME hops and one DNAME
  answerLoop d kind zone 4 response owner

/-! ### Errors without a parsed query -/

/-- The exceptions that `_error_response` handles. -/
def Raised.isParseError : Raised → Bool
  | .dnsException _ => true
  | .structError => true
  | _ => false

/-- The questions from an offset on; each is kept when `keep` holds.  The offset behind them, or
the exception that ended the walk. -/
def walkQuestions (wire : Octets) (keep : Bool) :
    Nat → Nat → List Question → List Question × Except Raised Nat
  | 0, offset, question => (question, .ok offset)
  | n + 1, offset, question =>
    match d.nameFromWire wire offset with
    | .error e => (question, .error e)
    | .ok (name, used) =>
      match readU16 wire (offset + used), readU16 wire (offset + used + 2) with
      | some kind, some rdclass =>
        walkQuestions wire keep n (offset + used + 4)
          (if keep then question ++ [⟨name, kind, rdclass⟩] else question)
      | _, _ => (question, .error .structError)

/-- The type, time to live and data length of a record: `struct.unpack_from("!HHIH", ...)`. -/
def unpackRecord (wire : Octets) (offset : Nat) : Option (UInt16 × UInt32 × UInt16) := do
  let kind ← readU16 wire offset
  let ttl ← readU32 wire (offset + 4)
  let length ← readU16 wire (offset + 8)
  return (kind, ttl, length)

/-- The records from an offset on; the first OPT becomes the OPT of the response. -/
def walkRecords (wire : Octets) : Nat → Nat → Message → Message × Option Raised
  | 0, _, response => (response, none)
  | n + 1, offset, response =>
    match d.nameFromWire wire offset with
    | .error e => (response, some e)
    | .ok (_, used) =>
      match unpackRecord wire (offset + used) with
      | none => (response, some .structError)
      | some (kind, ttl, length) =>
        let response := if kind = RRType.OPT ∧ response.edns < 0
          then response.useEdns 1232 (ttl &&& Flag.DO) else response
        let offset := offset + used + 10 + length.toNat
        -- data that runs past the end stops the walk without an exception
        if wire.length < offset then (response, none) else walkRecords wire n offset response

/-- The two loops of `_error_response`. -/
def recover (wire : Octets) (h : Header) (response : Message) : Message × Option Raised :=
  let keep : Bool := h.qdcount = 1 ∧ opcodeOf h.flags = 0
  match walkQuestions d wire keep h.qdcount.toNat 12 [] with
  | (question, .error e) => ({ response with question := question }, some e)
  | (question, .ok offset) =>
    walkRecords d wire (h.ancount.toNat + h.nscount.toNat + h.arcount.toNat) offset
      { response with question := question }

/-- `Message.to_wire` without arguments: the limit is the payload of the OPT record, if any. -/
def toWireDefault (response : Message) : Except Raised Octets :=
  d.toWire response (if response.payload = 0 then 65535 else max 512 response.payload) false

/-- `_error_response`: the bounded question and OPT of a query that is not parsed. -/
def errorResponse (wire : Octets) (rcode : UInt16) : Except Raised Octets :=
  if wire.length < 12 then return []
  else
    match readHeader wire with
    | none => throw .structError
    | some h =>
      let response : Message :=
        { id := h.id
          flags := Flag.QR ||| (h.flags &&& (Flag.opcodeMask ||| Flag.RD ||| Flag.CD))
          question := [], answer := [], authority := [], additional := [], opt := none }
      match recover d wire h response with
      | (response, none) => toWireDefault d (response.setRcode rcode)
      | (response, some e) =>
        if e.isParseError then toWireDefault d (response.setRcode rcode) else throw e

/-! ### The reply on the wire -/

/-- The targets of NS records of the authority section at or below the owner of the record. -/
def glueTargets (response : Message) : List Name :=
  (response.authority.filter fun r => r.rdtype = RRType.NS).flatMap fun r =>
    (r.rdatas.filterMap Rdata.target?).filter fun t => t.IsSubdomain r.name

/-- The additional RRsets that are addresses of these targets. -/
def requiredGlue (response : Message) : List RRset :=
  response.additional.filter fun r =>
    (∃ t ∈ glueTargets response, t.SameAs r.name) ∧ r.rdtype ∈ [RRType.A, RRType.AAAA]

/-- `_encode_response`. -/
def encodeResponse (response : Message) (size : Nat) : Except Raised Octets :=
  match d.toWire response size false with
  | .ok wire => return wire
  | .error e =>
    if e = .dnsException .tooBig then do
      let wire ← d.toWire response size true
      if response.answer = [] ∧ ¬ hasFlag response.flags Flag.AA ∧ requiredGlue response ≠ [] then
        let sent ← d.messageFromWire wire
        -- the available in-domain glue of a referral is not optional
        if ∃ r ∈ requiredGlue response, ¬ ∃ s ∈ sent.additional, r.Equals s then
          return wire.take 2 ++ packU16 (sent.flags ||| Flag.TC) ++ wire.drop 4
        else return wire
      else return wire
    else throw e

/-! ### `answer_fresh` -/

/-- The reply to the only question of a query of EDNS version 0 or without EDNS. -/
def resolveQuestion (question : Question) (response : Message) : Except Raised Message :=
  match nameKey question.name with
  | none => return response.setRcode Rcode.REFUSED
  | some (_, nonce) =>
    if question.rdclass ∉ [RRClass.IN, RRClass.ANY] then return response.setRcode Rcode.REFUSED
    else if question.rdtype ∈ [RRType.AXFR, RRType.IXFR] then
      return response.setRcode Rcode.REFUSED
    else
      answer d { response with flags := response.flags ||| Flag.AA } question.name question.rdtype
        (nonce ++ ".fresh.example.test.")

/-- The response to a parsed query. -/
def respond (query : Message) : Except Raised Message := do
  let response ← d.makeResponse query
  let response := { response with flags := response.flags &&& ~~~(Flag.RA ||| Flag.AD) }
  let response := if 0 ≤ query.edns then response.useEdns 1232 (query.ednsflags &&& Flag.DO)
    else response
  match query.question with
  | [question] =>
    if 0 < query.edns then return response.setRcode Rcode.BADVERS
    else resolveQuestion d question response
  | _ => return { response with question := [] }.setRcode Rcode.FORMERR

/-- The size limit of a reply. -/
def replySize (query : Message) (tcp : Bool) : Nat :=
  if tcp then 65535 else if 0 ≤ query.edns then max 512 (min query.payload 4096) else 512

/-- `answer_fresh`. -/
def answerFresh (queryWire : Octets) (tcp : Bool) : Except Raised Octets :=
  if queryWire.length < 12 then return []
  else
    match readU16 queryWire 2 with
    | none => throw .structError
    | some flags =>
      if hasFlag flags Flag.QR then return []
      -- bodies of UPDATE and NOTIFY are not parsed as questions
      else if opcodeOf flags ≠ 0 then errorResponse d queryWire Rcode.NOTIMP
      else
        match d.messageFromWire queryWire with
        | .error e =>
          if e.isDNSException then errorResponse d queryWire Rcode.FORMERR else throw e
        | .ok query => do encodeResponse d (← respond d query) (replySize query tcp)

end DnsFixtures
