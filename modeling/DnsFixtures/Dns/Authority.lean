import Mathlib
import DnsFixtures.Dns.Message

/-!
# Authoritative answers

What a name server says from the zones in its database, by the algorithm of RFC 1034 with the
redirections of RFC 6672.  A name is outside the zones, delegated, below a DNAME, or the server's own;
at each the server stops or goes on at another name (`Database.At`), and `Database.Answers` is what
it says at the end.  It is a relation, since a query for ANY may be answered with any RRset of the name.

`Answers.unique`: from well-formed zones there is one answer for every other type, the spelling of
names apart.
-/

namespace Dns

/-! ### Names -/

namespace Name

/-- The name `n` with `target` in place of `origin` at its end; there is none above 255 octets. -/
def substitute (n origin target : Name) : Option Name :=
  (n.relativize origin).bind fun pre => concatenate pre target

variable {n n' origin origin' : Name}

theorem IsSubdomain.congr (h : n.IsSubdomain origin) (hn : n.SameAs n')
    (ho : origin.SameAs origin') : n'.IsSubdomain origin' := by
  unfold IsSubdomain at h ⊢
  rwa [← hn, ← ho]

theorem SameAs.isSubdomain (h : n.SameAs n') : n.IsSubdomain n' := by
  unfold IsSubdomain
  rw [h]

theorem IsSubdomain.trans (h : n.IsSubdomain n') (h' : n'.IsSubdomain origin) :
    n.IsSubdomain origin :=
  List.IsSuffix.trans h' h

/-- Of two names above one the longer lies below the other. -/
theorem IsSubdomain.of_length_le (h : n.IsSubdomain origin) (h' : n.IsSubdomain origin')
    (hlen : origin'.labels.length ≤ origin.labels.length) : origin.IsSubdomain origin' := by
  unfold IsSubdomain at h h' ⊢
  refine List.suffix_of_suffix_length_le h' h ?_
  rwa [length_foldCase, length_foldCase]

theorem sameAs_of_isSubdomain_of_length (h : n.IsSubdomain origin)
    (hlen : n.labels.length ≤ origin.labels.length) : n.SameAs origin := by
  unfold IsSubdomain at h
  refine (List.IsSuffix.eq_of_length_le h ?_).symm
  rwa [length_foldCase, length_foldCase]

/-- Names above one name with the same number of labels are the same. -/
theorem sameAs_of_length_eq (h : n.IsSubdomain origin) (h' : n.IsSubdomain origin')
    (hlen : origin.labels.length = origin'.labels.length) : origin.SameAs origin' :=
  sameAs_of_isSubdomain_of_length (h.of_length_le h' hlen.ge) hlen.le

theorem SameAs.length_eq (h : n.SameAs n') : n.labels.length = n'.labels.length := by
  rw [← length_foldCase n.labels, h, length_foldCase]

/-- Whether the labels are a name does not depend on their spelling. -/
theorem legalLabels_of_foldCase {a b : List Label} (h : foldCase a = foldCase b)
    (ha : LegalLabels a) : LegalLabels b := by
  have hlength : ∀ l ∈ b, ∃ l' ∈ a, l.length = l'.length := by
    intro l hl
    have hmem : lower l ∈ foldCase a := h ▸ List.mem_map_of_mem hl
    obtain ⟨l', hl', heq⟩ := List.mem_map.mp hmem
    exact ⟨l', hl', by rw [← length_lower l, ← heq, length_lower]⟩
  refine ⟨fun l hl => ?_, fun l hl => ?_, ?_⟩
  · obtain ⟨l', hl', hlen⟩ := hlength l hl
    have := List.length_pos_iff.mpr (ha.label_ne_nil l' hl')
    exact List.length_pos_iff.mp (by omega)
  · obtain ⟨l', hl', hlen⟩ := hlength l hl
    have := ha.label_le l' hl'
    omega
  · rw [← nameLength_foldCase, ← h, nameLength_foldCase]
    exact ha.total_le

/-- The substituted name does not depend on the spelling of its parts. -/
theorem substitute_congr {target target' : Name} (hn : n.SameAs n') (ho : origin.SameAs origin')
    (ht : target.SameAs target') :
    Option.Rel SameAs (n.substitute origin target) (n'.substitute origin' target') := by
  have hfold : foldCase (n.labels.take (n.labels.length - origin.labels.length) ++ target.labels)
      = foldCase (n'.labels.take (n'.labels.length - origin'.labels.length) ++ target'.labels) := by
    rw [foldCase_append, foldCase_append, foldCase_take, foldCase_take, hn, ht, hn.length_eq,
      ho.length_eq]
  unfold substitute relativize
  by_cases hsub : n.IsSubdomain origin
  · rw [if_pos hsub, if_pos (hsub.congr hn ho), Option.bind_some, Option.bind_some]
    unfold concatenate ofLabels?
    by_cases hlegal : LegalLabels
        (n.labels.take (n.labels.length - origin.labels.length) ++ target.labels)
    · rw [dif_pos hlegal, dif_pos (legalLabels_of_foldCase hfold hlegal)]
      exact .some hfold
    · rw [dif_neg hlegal, dif_neg (mt (legalLabels_of_foldCase hfold.symm) hlegal)]
      exact .none
  · rw [if_neg hsub, if_neg fun h => hsub (h.congr hn.symm ho.symm)]
    exact .none

end Name

/-! ### Databases -/

/-- The hosts whose addresses belong to the RRset. -/
def RRset.hosts (r : RRset) : List Name :=
  if r.rdtype ∈ [RRType.NS, RRType.MX, RRType.SRV] then r.rdatas.filterMap Rdata.target? else []

/-- The CNAME record at `n` that stands for the DNAME record `r`. -/
def RRset.redirection (r : RRset) (n next : Name) : RRset :=
  ⟨n, RRType.CNAME, r.rdclass, r.ttl, [[.name next]]⟩

/-- What a name server holds. -/
structure Database where
  records : Set RRset
  /-- the apexes of its zones -/
  apexes : Set Name
  /-- the names it answers for -/
  served : Set Name

/-- The content of a response. -/
structure Reply where
  aa : Bool
  rcode : UInt16
  answer : List RRset
  authority : List RRset
  additional : List RRset

/-- The reply behind the aliases that led to its name. -/
def Reply.behind (aliases : List RRset) (reply : Reply) : Reply :=
  { reply with aa := true, answer := aliases ++ reply.answer }

/-- What a server does at a name. -/
inductive Outcome where
  | stop (reply : Reply)
  | follow (aliases : List RRset) (next : Name)

/-- Where a name is. -/
inductive Place where
  | outside
  | delegated (r : RRset)
  | redirected (r : RRset)
  | own

namespace Database

variable (db : Database) (kind : UInt16) (n : Name)

/-- The RRset is one of the name. -/
structure Owns (r : RRset) : Prop where
  mem : r ∈ db.records
  name : r.name.SameAs n

/-- There are records at the name or below it. -/
def Exists : Prop := ∃ r ∈ db.records, r.name.IsSubdomain n

/-- The RRset is the delegation of a zone that the name belongs to.  DS of its apex is left. -/
structure Delegates (r : RRset) : Prop where
  mem : r ∈ db.records
  rdtype : r.rdtype = RRType.NS
  not_apex : r.name ∉ db.apexes
  encloses : n.IsSubdomain r.name
  not_ds : ¬ (kind = RRType.DS ∧ n.SameAs r.name)

/-- The name is below the owner of a DNAME. -/
structure Redirects (r : RRset) : Prop where
  mem : r ∈ db.records
  rdtype : r.rdtype = RRType.DNAME
  encloses : n.IsSubdomain r.name
  below : ¬ n.SameAs r.name

inductive InPlace : Place → Prop
  | outside : n ∉ db.served → InPlace .outside
  | delegated {r : RRset} : n ∈ db.served → db.Delegates kind n r → InPlace (.delegated r)
  | redirected {r : RRset} : n ∈ db.served → (∀ r, ¬ db.Delegates kind n r) → db.Redirects n r →
      InPlace (.redirected r)
  | own : n ∈ db.served → (∀ r, ¬ db.Delegates kind n r) → (∀ r, ¬ db.Redirects n r) → InPlace .own

/-- The SOA record of the zone that answers: the one of the deepest apex above the name.  DS of an
apex is data of the zone above, if there is one. -/
structure NegativeSoa (soa : RRset) : Prop where
  mem : soa ∈ db.records
  rdtype : soa.rdtype = RRType.SOA
  encloses : n.IsSubdomain soa.name
  deepest : ∀ a ∈ db.apexes, n.IsSubdomain a → (kind = RRType.DS → ¬ n.SameAs a) →
    a.labels.length ≤ soa.name.labels.length
  apex : soa.name ∈ db.apexes
  top : kind = RRType.DS → n.SameAs soa.name → ∀ a ∈ db.apexes, n.IsSubdomain a → n.SameAs a

/-- The RRsets are the addresses of the hosts. -/
structure Addresses (hosts : List Name) (rs : List RRset) : Prop where
  sound : ∀ r ∈ rs, r ∈ db.records ∧ r.rdtype ∈ [RRType.A, RRType.AAAA] ∧
    ∃ h ∈ hosts, r.name.SameAs h
  complete : ∀ r ∈ db.records, r.rdtype ∈ [RRType.A, RRType.AAAA] →
    (∃ h ∈ hosts, r.name.SameAs h) → ∃ r' ∈ rs, r'.SameAs r
  keys : rs.Pairwise fun a b => ¬ a.SameKey b

/-! ### Answers -/

/-- Below a DNAME. -/
inductive Redirected (r : RRset) : Outcome → Prop
  | tooLong {target : Name} : r.rdatas = [[.name target]] → n.substitute r.name target = none →
      Redirected r (.stop ⟨true, Rcode.YXDOMAIN, [r], [], []⟩)
  | cname {target next : Name} : r.rdatas = [[.name target]] →
      n.substitute r.name target = some next → kind = RRType.CNAME →
      Redirected r (.stop ⟨true, Rcode.NOERROR, [r, r.redirection n next], [], []⟩)
  | follow {target next : Name} : r.rdatas = [[.name target]] →
      n.substitute r.name target = some next → kind ≠ RRType.CNAME →
      Redirected r (.follow [r, r.redirection n next] next)

/-- The RRset is an alias that is followed in search of the type. -/
def IsFollowed (r : RRset) : Prop := r.rdtype = RRType.CNAME ∧ kind ∉ [RRType.CNAME, RRType.ANY]

/-- At a name of the server's own. -/
inductive Own : Outcome → Prop
  | absent {soa : RRset} : ¬ db.Exists n → db.NegativeSoa kind n soa →
      Own (.stop ⟨true, Rcode.NXDOMAIN, [], [soa], []⟩)
  | cname {r : RRset} {next : Name} : db.Owns n r → IsFollowed kind r → r.rdatas = [[.name next]] →
      Own (.follow [r] next)
  | data {r : RRset} {additional : List RRset} : (∀ r, db.Owns n r → ¬ IsFollowed kind r) →
      db.Owns n r → r.rdtype = kind ∨ kind = RRType.ANY → db.Addresses r.hosts additional →
      Own (.stop ⟨true, Rcode.NOERROR, [r], [], additional⟩)
  | noData {soa : RRset} : db.Exists n → (∀ r, db.Owns n r → ¬ IsFollowed kind r) →
      (∀ r, db.Owns n r → ¬ (r.rdtype = kind ∨ kind = RRType.ANY)) → db.NegativeSoa kind n soa →
      Own (.stop ⟨true, Rcode.NOERROR, [], [soa], []⟩)

/-- What the server does at the name. -/
inductive At : Outcome → Prop
  | refused : db.InPlace kind n .outside → At (.stop ⟨false, Rcode.REFUSED, [], [], []⟩)
  | referral {r : RRset} {glue : List RRset} : db.InPlace kind n (.delegated r) →
      db.Addresses r.hosts glue → At (.stop ⟨false, Rcode.NOERROR, [], [r], glue⟩)
  | redirected {r : RRset} {o : Outcome} : db.InPlace kind n (.redirected r) →
      Redirected kind n r o → At o
  | own {o : Outcome} : db.InPlace kind n .own → db.Own kind n o → At o

/-- **The answers of the server.** -/
inductive Answers : Name → Reply → Prop
  | stop {n : Name} {reply : Reply} : db.At kind n (.stop reply) → Answers n reply
  | follow {n next : Name} {aliases : List RRset} {reply : Reply} :
      db.At kind n (.follow aliases next) → Answers next reply → Answers n (reply.behind aliases)

/-- The zones of the database are well formed. -/
structure WellFormed : Prop where
  rdclass : ∀ r ∈ db.records, r.rdclass = RRClass.IN
  /-- a name has one RRset of each type -/
  coherent : ∀ r ∈ db.records, ∀ r' ∈ db.records, r.SameKey r' → r.SameAs r'
  target : ∀ r ∈ db.records, r.rdtype ∈ [RRType.CNAME, RRType.DNAME] →
    ∃ target, r.rdatas = [[.name target]]
  cname_alone : ∀ r ∈ db.records, r.rdtype = RRType.CNAME → ∀ r' ∈ db.records,
    r'.name.SameAs r.name → r'.rdtype = RRType.CNAME
  dname_bare : ∀ r ∈ db.records, r.rdtype = RRType.DNAME → ∀ r' ∈ db.records,
    r'.name.IsSubdomain r.name → r'.name.SameAs r.name
  /-- at a cut there is the delegation only, below it there is glue only -/
  cut_bare : ∀ r ∈ db.records, r.rdtype = RRType.NS → r.name ∉ db.apexes → ∀ r' ∈ db.records,
    r'.name.IsSubdomain r.name →
      if r'.name.SameAs r.name then r'.rdtype = RRType.NS else r'.rdtype ∈ [RRType.A, RRType.AAAA]
  /-- a zone has an SOA record and name servers -/
  apex : ∀ a ∈ db.apexes, ∀ t ∈ [RRType.SOA, RRType.NS], ∃ r, db.Owns a r ∧ r.rdtype = t
  inside : ∀ r ∈ db.records, ∃ a ∈ db.apexes, r.name.IsSubdomain a
  /-- name servers, mail exchangers and services have addresses -/
  hosts : ∀ r ∈ db.records, ∀ h ∈ r.hosts, ∃ r', db.Owns h r' ∧
    r'.rdtype ∈ [RRType.A, RRType.AAAA]
  served_congr : ∀ n ∈ db.served, ∀ n', n.SameAs n' → n' ∈ db.served

end Database

/-! ### One answer -/

/-- The same RRsets in any order. -/
def SameSet (rs rs' : List RRset) : Prop :=
  (∀ r ∈ rs, ∃ r' ∈ rs', r.SameAs r') ∧ ∀ r' ∈ rs', ∃ r ∈ rs, r.SameAs r'

/-- The same content, the spelling of names and the order of the additional section apart. -/
structure Reply.SameAs (a b : Reply) : Prop where
  aa : a.aa = b.aa
  rcode : a.rcode = b.rcode
  answer : List.Forall₂ RRset.SameAs a.answer b.answer
  authority : List.Forall₂ RRset.SameAs a.authority b.authority
  additional : SameSet a.additional b.additional

inductive Outcome.SameAs : Outcome → Outcome → Prop
  | stop {a b : Reply} : a.SameAs b → Outcome.SameAs (.stop a) (.stop b)
  | follow {as bs : List RRset} {n n' : Name} : List.Forall₂ RRset.SameAs as bs → n.SameAs n' →
      Outcome.SameAs (.follow as n) (.follow bs n')

inductive Place.SameAs : Place → Place → Prop
  | outside : Place.SameAs .outside .outside
  | delegated {r r' : RRset} : r.SameAs r' → Place.SameAs (.delegated r) (.delegated r')
  | redirected {r r' : RRset} : r.SameAs r' → Place.SameAs (.redirected r) (.redirected r')
  | own : Place.SameAs .own .own

theorem sameSet_nil : SameSet [] [] :=
  ⟨fun _ h => absurd h List.not_mem_nil, fun _ h => absurd h List.not_mem_nil⟩

theorem forall₂_singleton {r r' : RRset} (h : r.SameAs r') : List.Forall₂ RRset.SameAs [r] [r'] :=
  .cons h .nil

theorem Rdata.target?_congr {a b : Rdata} (h : a.SameAs b) :
    Option.Rel Name.SameAs (target? a) (target? b) := by
  induction h with
  | nil => exact .none
  | @cons f g _ _ hfg _ ih =>
    cases f with
    | octets =>
      cases g with
      | octets => exact ih
      | name => cases hfg
    | name =>
      cases g with
      | octets => cases hfg
      | name => exact .some hfg

/-- The same RRsets have the same hosts. -/
theorem RRset.SameAs.exists_host {r r' : RRset} (h : r.SameAs r') {host : Name}
    (hh : host ∈ r.hosts) : ∃ host' ∈ r'.hosts, host.SameAs host' := by
  unfold RRset.hosts at hh ⊢
  rw [← h.rdtype]
  split_ifs at hh ⊢ with hkind
  · obtain ⟨data, hdata, htarget⟩ := List.mem_filterMap.mp hh
    obtain ⟨l, hperm, hl⟩ := h.rdatas
    obtain ⟨data', hdata', hsame⟩ := forall₂_exists_of_mem hl (hperm.mem_iff.mp hdata)
    have hrel := Rdata.target?_congr hsame
    rw [htarget] at hrel
    cases htarget' : Rdata.target? data' with
    | none =>
      rw [htarget'] at hrel
      cases hrel
    | some host' =>
      rw [htarget'] at hrel
      cases hrel with
      | some hhost => exact ⟨host', List.mem_filterMap.mpr ⟨data', hdata', htarget'⟩, hhost⟩
  · cases hh

/-- The data of the same aliases. -/
theorem RRset.SameAs.target_eq {r r' : RRset} (h : r.SameAs r') {t t' : Name}
    (ht : r.rdatas = [[.name t]]) (ht' : r'.rdatas = [[.name t']]) : t.SameAs t' := by
  obtain ⟨l, hperm, hl⟩ := h.rdatas
  rw [ht] at hperm
  rw [← List.singleton_perm.mp hperm, ht'] at hl
  cases hl with
  | cons hdata =>
    cases hdata with
    | cons hname => exact hname

theorem RRset.SameAs.redirection {r r' : RRset} (h : r.SameAs r') {n n' next next' : Name}
    (hn : n.SameAs n') (hnext : next.SameAs next') :
    (r.redirection n next).SameAs (r'.redirection n' next') :=
  ⟨hn, rfl, h.rdclass, h.ttl, _, List.Perm.refl _, .cons (.cons hnext .nil) .nil⟩

namespace Database

variable {db : Database} {kind : UInt16} {n n' : Name}

theorem Owns.congr {r : RRset} (h : db.Owns n r) (hn : n.SameAs n') : db.Owns n' r :=
  ⟨h.mem, h.name.trans hn⟩

theorem Exists.congr (h : db.Exists n) (hn : n.SameAs n') : db.Exists n' := by
  obtain ⟨r, hr, hsub⟩ := h
  exact ⟨r, hr, hsub.congr (Name.SameAs.refl _) hn⟩

theorem Delegates.congr {r : RRset} (h : db.Delegates kind n r) (hn : n.SameAs n') :
    db.Delegates kind n' r :=
  ⟨h.mem, h.rdtype, h.not_apex, h.encloses.congr hn (Name.SameAs.refl _),
    fun hds => h.not_ds ⟨hds.1, hn.trans hds.2⟩⟩

theorem Redirects.congr {r : RRset} (h : db.Redirects n r) (hn : n.SameAs n') : db.Redirects n' r :=
  ⟨h.mem, h.rdtype, h.encloses.congr hn (Name.SameAs.refl _), fun hsame => h.below (hn.trans hsame)⟩

/-- Names above one name lie above each other. -/
theorem isSubdomain_total {a b : Name} (ha : n.IsSubdomain a) (hb : n.IsSubdomain b) :
    a.IsSubdomain b ∨ b.IsSubdomain a :=
  (Nat.le_total b.labels.length a.labels.length).imp (ha.of_length_le hb) (hb.of_length_le ha)

variable (hdb : db.WellFormed)
include hdb

theorem WellFormed.sameAs {r r' : RRset} (hr : r ∈ db.records) (hr' : r' ∈ db.records)
    (hname : r.name.SameAs r'.name) (hkind : r.rdtype = r'.rdtype) : r.SameAs r' :=
  hdb.coherent r hr r' hr' ⟨hname, hkind, (hdb.rdclass r hr).trans (hdb.rdclass r' hr').symm⟩

/-- A name belongs to one delegation. -/
theorem Delegates.unique {r r' : RRset} (h : db.Delegates kind n r) (h' : db.Delegates kind n r') :
    r.SameAs r' := by
  -- below a cut there is no other
  have hcut : ∀ {r r' : RRset}, db.Delegates kind n r → db.Delegates kind n r' →
      r'.name.IsSubdomain r.name → r.SameAs r' := by
    intro r r' h h' hsub
    have hbare := hdb.cut_bare r h.mem h.rdtype h.not_apex r' h'.mem hsub
    split_ifs at hbare with hsame
    · exact hdb.sameAs h.mem h'.mem hsame.symm (h.rdtype.trans h'.rdtype.symm)
    · rw [h'.rdtype] at hbare
      exact absurd hbare (by decide)
  rcases isSubdomain_total h.encloses h'.encloses with hsub | hsub
  · exact (hcut h' h hsub).symm
  · exact hcut h h' hsub

/-- A name is below one DNAME. -/
theorem Redirects.unique {r r' : RRset} (h : db.Redirects n r) (h' : db.Redirects n r') :
    r.SameAs r' := by
  have hsame : r.name.SameAs r'.name := by
    rcases isSubdomain_total h.encloses h'.encloses with hsub | hsub
    · exact hdb.dname_bare r' h'.mem h'.rdtype r h.mem hsub
    · exact (hdb.dname_bare r h.mem h.rdtype r' h'.mem hsub).symm
  exact hdb.sameAs h.mem h'.mem hsame (h.rdtype.trans h'.rdtype.symm)

/-- A name is in one place. -/
theorem InPlace.unique {p p' : Place} (h : db.InPlace kind n p) (h' : db.InPlace kind n' p')
    (hn : n.SameAs n') : p.SameAs p' := by
  have hserved : n ∈ db.served ↔ n' ∈ db.served :=
    ⟨fun h => hdb.served_congr n h n' hn, fun h => hdb.served_congr n' h n hn.symm⟩
  cases h with
  | outside hout =>
    cases h' with
    | outside => exact .outside
    | delegated hin => exact absurd (hserved.mpr hin) hout
    | redirected hin => exact absurd (hserved.mpr hin) hout
    | own hin => exact absurd (hserved.mpr hin) hout
  | delegated hin hr =>
    cases h' with
    | outside hout => exact absurd (hserved.mp hin) hout
    | delegated _ hr' => exact .delegated (hr.unique hdb (hr'.congr hn.symm))
    | redirected _ hno => exact absurd (hr.congr hn) (hno _)
    | own _ hno => exact absurd (hr.congr hn) (hno _)
  | redirected hin hno hr =>
    cases h' with
    | outside hout => exact absurd (hserved.mp hin) hout
    | delegated _ hr' => exact absurd (hr'.congr hn.symm) (hno _)
    | redirected _ _ hr' => exact .redirected (hr.unique hdb (hr'.congr hn.symm))
    | own _ _ hno' => exact absurd (hr.congr hn) (hno' _)
  | own hin hno hno' =>
    cases h' with
    | outside hout => exact absurd (hserved.mp hin) hout
    | delegated _ hr' => exact absurd (hr'.congr hn.symm) (hno _)
    | redirected _ _ hr' => exact absurd (hr'.congr hn.symm) (hno' _)
    | own => exact .own

/-- A negative answer has one SOA record. -/
theorem NegativeSoa.unique {soa soa' : RRset} (h : db.NegativeSoa kind n soa)
    (h' : db.NegativeSoa kind n' soa') (hn : n.SameAs n') : soa.SameAs soa' := by
  have hencloses : n.IsSubdomain soa'.name := h'.encloses.congr hn.symm (Name.SameAs.refl _)
  have hencloses' : n'.IsSubdomain soa.name := h.encloses.congr hn (Name.SameAs.refl _)
  refine hdb.sameAs h.mem h'.mem ?_ (h.rdtype.trans h'.rdtype.symm)
  by_cases hds : kind = RRType.DS ∧ n.SameAs soa.name
  · -- there is no zone above
    exact hds.2.symm.trans (h.top hds.1 hds.2 soa'.name h'.apex hencloses)
  by_cases hds' : kind = RRType.DS ∧ n'.SameAs soa'.name
  · exact (h'.top hds'.1 hds'.2 soa.name h.apex hencloses').symm.trans hds'.2
  refine Name.sameAs_of_length_eq h.encloses hencloses (Nat.le_antisymm ?_ ?_)
  · exact h'.deepest soa.name h.apex hencloses' fun hk hsame => hds ⟨hk, hn.trans hsame⟩
  · exact h.deepest soa'.name h'.apex hencloses fun hk hsame => hds' ⟨hk, hn.symm.trans hsame⟩

omit hdb in
/-- The addresses of the same hosts are the same. -/
theorem Addresses.unique {r r' : RRset} {rs rs' : List RRset} (h : db.Addresses r.hosts rs)
    (h' : db.Addresses r'.hosts rs') (hr : r.SameAs r') : SameSet rs rs' := by
  have hfound : ∀ {r r' : RRset} {rs rs' : List RRset}, db.Addresses r.hosts rs →
      db.Addresses r'.hosts rs' → r.SameAs r' → ∀ x ∈ rs, ∃ y ∈ rs', y.SameAs x := by
    intro r r' rs rs' h h' hr x hx
    obtain ⟨hmem, hkind, host, hhost, hname⟩ := h.sound x hx
    obtain ⟨host', hhost', hsame⟩ := hr.exists_host hhost
    exact h'.complete x hmem hkind ⟨host', hhost', hname.trans hsame⟩
  refine ⟨fun x hx => ?_, hfound h' h hr.symm⟩
  obtain ⟨y, hy, hyx⟩ := hfound h h' hr x hx
  exact ⟨y, hy, hyx.symm⟩

omit hdb in
theorem Redirected.unique {r r' : RRset} {o o' : Outcome} (h : Redirected kind n r o)
    (h' : Redirected kind n' r' o') (hn : n.SameAs n') (hr : r.SameAs r') : o.SameAs o' := by
  have hsub : ∀ {t t' : Name}, r.rdatas = [[.name t]] → r'.rdatas = [[.name t']] →
      Option.Rel Name.SameAs (n.substitute r.name t) (n'.substitute r'.name t') := fun ht ht' =>
    Name.substitute_congr hn hr.name (hr.target_eq ht ht')
  have haliases : ∀ {next next' : Name}, next.SameAs next' → List.Forall₂ RRset.SameAs
      [r, r.redirection n next] [r', r'.redirection n' next'] := fun hnext =>
    .cons hr (forall₂_singleton (hr.redirection hn hnext))
  cases h with
  | tooLong ht hlong =>
    cases h' with
    | tooLong ht' => exact .stop ⟨rfl, rfl, forall₂_singleton hr, .nil, sameSet_nil⟩
    | cname ht' hnext' =>
      have hrel := hsub ht ht'
      rw [hlong, hnext'] at hrel
      cases hrel
    | follow ht' hnext' =>
      have hrel := hsub ht ht'
      rw [hlong, hnext'] at hrel
      cases hrel
  | cname ht hnext hk =>
    cases h' with
    | tooLong ht' hlong' =>
      have hrel := hsub ht ht'
      rw [hnext, hlong'] at hrel
      cases hrel
    | cname ht' hnext' =>
      have hrel := hsub ht ht'
      rw [hnext, hnext'] at hrel
      cases hrel with
      | some hsame => exact .stop ⟨rfl, rfl, haliases hsame, .nil, sameSet_nil⟩
    | follow _ _ hk' => exact absurd hk hk'
  | follow ht hnext hk =>
    cases h' with
    | tooLong ht' hlong' =>
      have hrel := hsub ht ht'
      rw [hnext, hlong'] at hrel
      cases hrel
    | cname _ _ hk' => exact absurd hk' hk
    | follow ht' hnext' =>
      have hrel := hsub ht ht'
      rw [hnext, hnext'] at hrel
      cases hrel with
      | some hsame => exact .follow (haliases hsame) hsame

theorem Own.unique {o o' : Outcome} (hkind : kind ≠ RRType.ANY) (h : db.Own kind n o)
    (h' : db.Own kind n' o') (hn : n.SameAs n') : o.SameAs o' := by
  have hback : ∀ {r : RRset}, db.Owns n' r → db.Owns n r := fun hr => hr.congr hn.symm
  have hexists : ∀ {n : Name} {r : RRset}, db.Owns n r → db.Exists n := fun hr =>
    ⟨_, hr.mem, hr.name.isSubdomain⟩
  cases h with
  | absent hno hsoa =>
    cases h' with
    | absent _ hsoa' =>
      exact .stop ⟨rfl, rfl, .nil, forall₂_singleton (hsoa.unique hdb hsoa' hn), sameSet_nil⟩
    | cname hr' => exact absurd (hexists (hback hr')) hno
    | data _ hr' => exact absurd (hexists (hback hr')) hno
    | noData hex => exact absurd (hex.congr hn.symm) hno
  | cname hr hfollow ht =>
    cases h' with
    | absent hno => exact absurd (hexists (hr.congr hn)) hno
    | cname hr' hfollow' ht' =>
      have hsame := hdb.sameAs hr.mem hr'.mem (hr.name.trans (hback hr').name.symm)
        (hfollow.1.trans hfollow'.1.symm)
      exact .follow (forall₂_singleton hsame) (hsame.target_eq ht ht')
    | data hno => exact absurd hfollow (hno _ (hr.congr hn))
    | noData _ hno => exact absurd hfollow (hno _ (hr.congr hn))
  | data hno hr hmatch hadditional =>
    cases h' with
    | absent hno' => exact absurd (hexists (hr.congr hn)) hno'
    | cname hr' hfollow' => exact absurd hfollow' (hno _ (hback hr'))
    | data _ hr' hmatch' hadditional' =>
      have hsame := hdb.sameAs hr.mem hr'.mem (hr.name.trans (hback hr').name.symm)
        ((hmatch.resolve_right hkind).trans (hmatch'.resolve_right hkind).symm)
      exact .stop ⟨rfl, rfl, forall₂_singleton hsame, .nil, hadditional.unique hadditional' hsame⟩
    | noData _ _ hno' => exact absurd hmatch (hno' _ (hr.congr hn))
  | noData hex hno hno' hsoa =>
    cases h' with
    | absent hno'' => exact absurd (hex.congr hn) hno''
    | cname hr' hfollow' => exact absurd hfollow' (hno _ (hback hr'))
    | data _ hr' hmatch' => exact absurd hmatch' (hno' _ (hback hr'))
    | noData _ _ _ hsoa' =>
      exact .stop ⟨rfl, rfl, .nil, forall₂_singleton (hsoa.unique hdb hsoa' hn), sameSet_nil⟩

/-- At each name the server does one thing. -/
theorem At.unique {o o' : Outcome} (hkind : kind ≠ RRType.ANY) (h : db.At kind n o)
    (h' : db.At kind n' o') (hn : n.SameAs n') : o.SameAs o' := by
  have hplace : ∀ {p p' : Place}, db.InPlace kind n p → db.InPlace kind n' p' → p.SameAs p' :=
    fun h h' => h.unique hdb h' hn
  cases h with
  | refused hp =>
    cases h' with
    | refused => exact .stop ⟨rfl, rfl, .nil, .nil, sameSet_nil⟩
    | referral hp' => cases hplace hp hp'
    | redirected hp' => cases hplace hp hp'
    | own hp' => cases hplace hp hp'
  | referral hp hglue =>
    cases h' with
    | refused hp' => cases hplace hp hp'
    | referral hp' hglue' =>
      cases hplace hp hp' with
      | delegated hr =>
        exact .stop ⟨rfl, rfl, .nil, forall₂_singleton hr, hglue.unique hglue' hr⟩
    | redirected hp' => cases hplace hp hp'
    | own hp' => cases hplace hp hp'
  | redirected hp ho =>
    cases h' with
    | refused hp' => cases hplace hp hp'
    | referral hp' => cases hplace hp hp'
    | redirected hp' ho' =>
      cases hplace hp hp' with
      | redirected hr => exact ho.unique ho' hn hr
    | own hp' => cases hplace hp hp'
  | own hp ho =>
    cases h' with
    | refused hp' => cases hplace hp hp'
    | referral hp' => cases hplace hp hp'
    | redirected hp' => cases hplace hp hp'
    | own _ ho' => exact ho.unique hdb hkind ho' hn

/-- **One answer**: whatever the spelling of the name, the server has one answer for each type. -/
theorem Answers.unique {reply reply' : Reply} (hkind : kind ≠ RRType.ANY)
    (h : db.Answers kind n reply) (h' : db.Answers kind n' reply') (hn : n.SameAs n') :
    reply.SameAs reply' := by
  induction h generalizing n' reply' with
  | stop hat =>
    cases h' with
    | stop hat' =>
      cases hat.unique hdb hkind hat' hn with
      | stop hsame => exact hsame
    | follow hat' => cases hat.unique hdb hkind hat' hn
  | follow hat _ ih =>
    cases h' with
    | stop hat' => cases hat.unique hdb hkind hat' hn
    | follow hat' hrest' =>
      cases hat.unique hdb hkind hat' hn with
      | follow haliases hnext =>
        obtain ⟨-, hrcode, hanswer, hauthority, hadditional⟩ := ih hrest' hnext
        exact ⟨rfl, hrcode, List.rel_append haliases hanswer, hauthority, hadditional⟩

end Database

end Dns
