import DnsFixtures.Zone

/-!
# The shapes of responses

What a resolver may expect of a response from the fixture zone, whatever the catalogue holds: a
refusal, a referral, a substitution that is too long, a positive answer or a negative one.
`AliasChain` and `Terminal` split an answer section into the aliases and the data at their end, and
`NegativeSoa` is the SOA record that a negative answer has to carry.
-/

namespace DnsFixtures

open Dns

/-! ### Answer sections -/

/-- The zones that are served with an SOA record of their own. -/
def servedApexes (z : Nonce) : List Name := z.zone :: childApexes.map z.host

/-- The deepest served apex that encloses the name. -/
structure IsDeepestApex (z : Nonce) (n apex : Name) : Prop where
  served : apex ∈ servedApexes z
  encloses : n.IsSubdomain apex
  deepest : ∀ a ∈ servedApexes z, n.IsSubdomain a → a.labels.length ≤ apex.labels.length

/-- DS of the apex of a child zone, which is data of the zone above. -/
def AsksParent (z : Nonce) (kind : UInt16) (n : Name) : Prop :=
  kind = RRType.DS ∧ ∃ h ∈ childApexes, n.SameAs (z.host h)

/-- The SOA record of a negative answer at a name, which must not be cached. -/
structure NegativeSoa (z : Nonce) (kind : UInt16) (n : Name) (soa : RRset) : Prop where
  rdtype : soa.rdtype = RRType.SOA
  ttl : soa.ttl = 0
  minimum : ∃ mname rname times, soa.rdatas = [[.name mname, .name rname, .octets times]] ∧
    readU32 times 16 = some 0
  parent : AsksParent z kind n → soa.name = z.zone
  apex : ¬ AsksParent z kind n → IsDeepestApex z n soa.name

/-! ### Shapes -/

end DnsFixtures
