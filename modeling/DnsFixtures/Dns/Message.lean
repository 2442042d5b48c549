import DnsFixtures.Dns.Name

/-!
# DNS messages

A `Message` is the content of a DNS message: identifier, flags word, question, the three sections of
RRsets and the OPT record.  Record data is a sequence of fields, each raw octets or a domain name,
which is all that compression, comparison and renaming of names have to know about it.

Names are compared without regard to case throughout (`RRset.SameAs`, `Message.SameAs`), and the
records of an RRset without regard to their order, which a writer may choose.  `Message.keep k` keeps
the first `k` RRsets in section order, and `Message.size` is the length of the message with no name
compressed.
-/

namespace Dns

/-! ### The flags word -/

namespace Flag

def QR : UInt16 := 0x8000
def AA : UInt16 := 0x0400
def TC : UInt16 := 0x0200
def RD : UInt16 := 0x0100
def RA : UInt16 := 0x0080
def Z : UInt16 := 0x0040
def AD : UInt16 := 0x0020
def CD : UInt16 := 0x0010
def opcodeMask : UInt16 := 0x7800
def rcodeMask : UInt16 := 0x000F

/-- The DNSSEC OK bit in the flags half of an OPT record's TTL. -/
def DO : UInt32 := 0x8000

end Flag

/-- Some bit of `mask` is set in `flags`. -/
def hasFlag (flags mask : UInt16) : Prop := flags &&& mask ≠ 0

instance (flags mask : UInt16) : Decidable (hasFlag flags mask) := inferInstanceAs (Decidable (_ ≠ _))

def opcodeOf (flags : UInt16) : UInt16 := (flags &&& Flag.opcodeMask) >>> 11

theorem and_or_mask_of_disjoint {m mask : UInt16} (h : m &&& mask = 0) (f : UInt16) :
    (f ||| m) &&& mask = f &&& mask := by
  apply UInt16.toBitVec_inj.mp
  have h' : m.toBitVec &&& mask.toBitVec = 0 := UInt16.toBitVec_inj.mpr h
  rw [UInt16.toBitVec_and, UInt16.toBitVec_or, BitVec.and_or_distrib_right, h',
    UInt16.toBitVec_and]
  exact BitVec.or_zero

theorem and_and_mask_of_subset {k mask : UInt16} (h : k &&& mask = mask) (f : UInt16) :
    (f &&& k) &&& mask = f &&& mask := by
  rw [UInt16.and_assoc, h]

theorem or_and_distrib (a b mask : UInt16) : (a ||| b) &&& mask = a &&& mask ||| b &&& mask := by
  apply UInt16.toBitVec_inj.mp
  simp only [UInt16.toBitVec_and, UInt16.toBitVec_or, BitVec.and_or_distrib_right]

/-- QR is the top bit. -/
theorem hasFlag_qr_iff (f : UInt16) : hasFlag f Flag.QR ↔ 32768 ≤ f.toNat := by
  have hf := f.toNat_lt
  have hand : (f &&& Flag.QR).toNat = (f.toNat.testBit 15).toNat * 2 ^ 15 := by
    rw [UInt16.toNat_and]
    exact Nat.and_two_pow f.toNat 15
  have hbit : f.toNat.testBit 15 = decide (32768 ≤ f.toNat) := by
    rw [Nat.testBit_eq_decide_div_mod_eq, decide_eq_decide]
    omega
  rw [hasFlag, ne_eq, ← UInt16.toNat_inj, hand, hbit]
  by_cases h : 32768 ≤ f.toNat
  · simp [h]
  · simp [h]

theorem hasFlag_or_right {m : UInt16} (hm : m ≠ 0) (f : UInt16) : hasFlag (f ||| m) m := by
  unfold hasFlag
  rw [or_and_distrib, UInt16.and_self]
  exact fun h => hm (UInt16.or_eq_zero_iff.mp h).2

/-! ### Record types and classes -/

namespace RRType

def A : UInt16 := 1
def NS : UInt16 := 2
def CNAME : UInt16 := 5
def SOA : UInt16 := 6
def PTR : UInt16 := 12
def HINFO : UInt16 := 13
def MX : UInt16 := 15
def TXT : UInt16 := 16
def RP : UInt16 := 17
def AFSDB : UInt16 := 18
def AAAA : UInt16 := 28
def LOC : UInt16 := 29
def SRV : UInt16 := 33
def NAPTR : UInt16 := 35
def CERT : UInt16 := 37
def DNAME : UInt16 := 39
def OPT : UInt16 := 41
def DS : UInt16 := 43
def SSHFP : UInt16 := 44
def TLSA : UInt16 := 52
def SMIMEA : UInt16 := 53
def OPENPGPKEY : UInt16 := 61
def SVCB : UInt16 := 64
def HTTPS : UInt16 := 65
def TSIG : UInt16 := 250
def IXFR : UInt16 := 251
def AXFR : UInt16 := 252
def ANY : UInt16 := 255
def URI : UInt16 := 256
def CAA : UInt16 := 257

end RRType

namespace RRClass

def IN : UInt16 := 1
def ANY : UInt16 := 255

end RRClass

namespace Rcode

def NOERROR : UInt16 := 0
def FORMERR : UInt16 := 1
def SERVFAIL : UInt16 := 2
def NXDOMAIN : UInt16 := 3
def NOTIMP : UInt16 := 4
def REFUSED : UInt16 := 5
def YXDOMAIN : UInt16 := 6
def BADVERS : UInt16 := 16

end Rcode

/-! ### Lists up to a relation -/

theorem forall₂_trans {α : Type*} {r : α → α → Prop} (hr : ∀ a b c, r a b → r b c → r a c)
    {as bs cs : List α} (h : List.Forall₂ r as bs) (h' : List.Forall₂ r bs cs) :
    List.Forall₂ r as cs := by
  induction h generalizing cs with
  | nil => exact h'
  | cons hab _ ih =>
    cases h' with
    | cons hbc hrest => exact .cons (hr _ _ _ hab hbc) (ih hrest)

theorem forall₂_exists_of_mem {α : Type*} {r : α → α → Prop} {as bs : List α}
    (h : List.Forall₂ r as bs) {a : α} (ha : a ∈ as) : ∃ b ∈ bs, r a b := by
  induction h with
  | nil => cases ha
  | cons hab _ ih =>
    rcases List.mem_cons.mp ha with rfl | ha
    · exact ⟨_, List.mem_cons_self, hab⟩
    · obtain ⟨b, hb, hr⟩ := ih ha
      exact ⟨b, List.mem_cons_of_mem _ hb, hr⟩

/-! ### Records -/

/-- One field of record data. -/
inductive Field where
  | octets (bs : Octets)
  | name (n : Name)
  deriving DecidableEq

namespace Field

def SameAs : Field → Field → Prop
  | octets a, octets b => a = b
  | name a, name b => a.SameAs b
  | _, _ => False

instance : DecidableRel SameAs
  | octets a, octets b => inferInstanceAs (Decidable (a = b))
  | name a, name b => inferInstanceAs (Decidable (a.SameAs b))
  | octets _, name _ => inferInstanceAs (Decidable False)
  | name _, octets _ => inferInstanceAs (Decidable False)

theorem SameAs.refl : ∀ f : Field, f.SameAs f
  | octets _ => rfl
  | name n => Name.SameAs.refl n

theorem SameAs.symm : ∀ {a b : Field}, a.SameAs b → b.SameAs a
  | octets _, octets _, h => Eq.symm h
  | name _, name _, h => Name.SameAs.symm h

theorem SameAs.trans : ∀ {a b c : Field}, a.SameAs b → b.SameAs c → a.SameAs c
  | octets _, octets _, octets _, h, h' => Eq.trans h h'
  | name _, name _, name _, h, h' => Name.SameAs.trans h h'

def size : Field → Nat
  | octets bs => bs.length
  | name n => nameLength n.labels

end Field

abbrev Rdata := List Field

namespace Rdata

def SameAs (a b : Rdata) : Prop := List.Forall₂ Field.SameAs a b

instance : DecidableRel SameAs := fun a b => inferInstanceAs (Decidable (List.Forall₂ _ a b))

theorem SameAs.refl (a : Rdata) : a.SameAs a := List.forall₂_same.mpr fun f _ => Field.SameAs.refl f

theorem SameAs.symm {a b : Rdata} (h : a.SameAs b) : b.SameAs a :=
  List.Forall₂.flip (h.imp fun _ _ => Field.SameAs.symm)

theorem SameAs.trans {a b c : Rdata} (h : a.SameAs b) (h' : b.SameAs c) : a.SameAs c :=
  forall₂_trans (r := Field.SameAs) (fun _ _ _ => Field.SameAs.trans) h h'

def size (r : Rdata) : Nat := (r.map Field.size).sum

/-- The first domain name in the data: the target of an NS, MX or SRV record. -/
def target? : Rdata → Option Name
  | [] => none
  | .name n :: _ => some n
  | .octets _ :: rest => target? rest

end Rdata

/-- The records of one owner, class and type. -/
structure RRset where
  name : Name
  rdtype : UInt16
  rdclass : UInt16
  ttl : UInt32
  rdatas : List Rdata
  deriving DecidableEq

namespace RRset

/-- Two RRsets that a reader of one section would merge into one. -/
def SameKey (a b : RRset) : Prop :=
  a.name.SameAs b.name ∧ a.rdtype = b.rdtype ∧ a.rdclass = b.rdclass

instance : DecidableRel SameKey := fun _ _ => inferInstanceAs (Decidable (_ ∧ _ ∧ _))

/-- The same records: owner, type, class, time to live and data, names without regard to case and
the data in any order. -/
structure SameAs (a b : RRset) : Prop where
  name : a.name.SameAs b.name
  rdtype : a.rdtype = b.rdtype
  rdclass : a.rdclass = b.rdclass
  ttl : a.ttl = b.ttl
  rdatas : ∃ l, a.rdatas.Perm l ∧ List.Forall₂ Rdata.SameAs l b.rdatas

theorem SameAs.refl (a : RRset) : a.SameAs a :=
  ⟨Name.SameAs.refl _, rfl, rfl, rfl, _, List.Perm.refl _,
    List.forall₂_same.mpr fun x _ => Rdata.SameAs.refl x⟩

theorem SameAs.symm {a b : RRset} (h : a.SameAs b) : b.SameAs a := by
  obtain ⟨l, hp, hf⟩ := h.rdatas
  have hcomp : Relation.Comp (List.Forall₂ Rdata.SameAs) List.Perm b.rdatas a.rdatas :=
    ⟨l, List.Forall₂.flip (hf.imp fun _ _ => Rdata.SameAs.symm), hp.symm⟩
  rw [List.forall₂_comp_perm_eq_perm_comp_forall₂] at hcomp
  obtain ⟨k, hk, hka⟩ := hcomp
  exact ⟨h.name.symm, h.rdtype.symm, h.rdclass.symm, h.ttl.symm, k, hk, hka⟩

theorem SameAs.trans {a b c : RRset} (h : a.SameAs b) (h' : b.SameAs c) : a.SameAs c := by
  obtain ⟨l, hp, hf⟩ := h.rdatas
  obtain ⟨k, hq, hg⟩ := h'.rdatas
  have hcomp : Relation.Comp (List.Forall₂ Rdata.SameAs) List.Perm l k := ⟨b.rdatas, hf, hq⟩
  rw [List.forall₂_comp_perm_eq_perm_comp_forall₂] at hcomp
  obtain ⟨m, hm, hmk⟩ := hcomp
  exact ⟨h.name.trans h'.name, h.rdtype.trans h'.rdtype, h.rdclass.trans h'.rdclass,
    h.ttl.trans h'.ttl, m, hp.trans hm,
    forall₂_trans (r := Rdata.SameAs) (fun _ _ _ => Rdata.SameAs.trans) hmk hg⟩

theorem SameKey.symm {a b : RRset} (h : a.SameKey b) : b.SameKey a :=
  ⟨h.1.symm, h.2.1.symm, h.2.2.symm⟩

theorem SameAs.sameKey {a b : RRset} (h : a.SameAs b) : a.SameKey b := ⟨h.name, h.rdtype, h.rdclass⟩

theorem SameKey.trans {a b c : RRset} (h : a.SameKey b) (h' : b.SameKey c) : a.SameKey c :=
  ⟨h.1.trans h'.1, h.2.1.trans h'.2.1, h.2.2.trans h'.2.2⟩

/-- A proper part of distinct RRsets misses one of them. -/
theorem exists_missing {rs ss : List RRset} (h : ss.Sublist rs) (hlen : ss.length < rs.length)
    (hkeys : rs.Pairwise fun a b => ¬ SameKey a b) : ∃ r ∈ rs, ∀ s ∈ ss, ¬ SameKey r s := by
  induction h with
  | slnil => cases hlen
  | cons r hsub _ =>
    exact ⟨r, List.mem_cons_self, fun s hs =>
      (List.pairwise_cons.mp hkeys).1 s (hsub.subset hs)⟩
  | cons_cons r hsub ih =>
    obtain ⟨hfirst, hrest⟩ := List.pairwise_cons.mp hkeys
    obtain ⟨x, hx, hmissing⟩ := ih (Nat.lt_of_succ_lt_succ hlen) hrest
    refine ⟨x, List.mem_cons_of_mem _ hx, fun s hs => ?_⟩
    rcases List.mem_cons.mp hs with rfl | hs
    · exact fun hxs => hfirst x hx hxs.symm
    · exact hmissing s hs

/-- Equality of RRsets as sets of records, without regard to their time to live. -/
def Equals (a b : RRset) : Prop :=
  a.SameKey b ∧ a.rdatas.length = b.rdatas.length ∧ ∀ x ∈ a.rdatas, ∃ y ∈ b.rdatas, x.SameAs y

instance : DecidableRel Equals := fun _ _ => inferInstanceAs (Decidable (_ ∧ _ ∧ _))

theorem SameAs.equals {a b : RRset} (h : a.SameAs b) : a.Equals b := by
  obtain ⟨l, hp, hf⟩ := h.rdatas
  refine ⟨⟨h.name, h.rdtype, h.rdclass⟩, by rw [hp.length_eq, hf.length_eq], fun x hx => ?_⟩
  exact forall₂_exists_of_mem hf (hp.mem_iff.mp hx)

theorem Equals.of_sameAs {a b c : RRset} (h : a.Equals b) (h' : b.SameAs c) : a.Equals c := by
  obtain ⟨⟨hname, htype, hclass⟩, hlen, hmem⟩ := h
  obtain ⟨⟨hname', htype', hclass'⟩, hlen', hmem'⟩ := h'.equals
  refine ⟨⟨hname.trans hname', htype.trans htype', hclass.trans hclass'⟩, hlen.trans hlen', ?_⟩
  intro x hx
  obtain ⟨y, hy, hxy⟩ := hmem x hx
  obtain ⟨v, hv, hyv⟩ := hmem' y hy
  exact ⟨v, hv, hxy.trans hyv⟩

/-- The octets of the RRset without compression: owner, ten octets and data for each record. -/
def size (r : RRset) : Nat :=
  (r.rdatas.map fun d => nameLength r.name.labels + 10 + d.size).sum

end RRset

structure Question where
  name : Name
  rdtype : UInt16
  rdclass : UInt16
  deriving DecidableEq

def Question.SameAs (a b : Question) : Prop :=
  a.name.SameAs b.name ∧ a.rdtype = b.rdtype ∧ a.rdclass = b.rdclass

/-- The OPT record: advertised payload, the TTL word (extended rcode, version, flags) and the
octets of the options. -/
structure Opt where
  payload : UInt16
  ednsflags : UInt32
  options : Octets
  deriving DecidableEq

def Opt.version (o : Opt) : Nat := o.ednsflags.toNat / 65536 % 256

/-! ### Messages -/

structure Message where
  id : UInt16
  flags : UInt16
  question : List Question
  answer : List RRset
  authority : List RRset
  additional : List RRset
  opt : Option Opt
  deriving DecidableEq

namespace Message

/-- The EDNS version, `-1` without OPT. -/
def edns (m : Message) : Int :=
  match m.opt with
  | none => -1
  | some o => o.version

def payload (m : Message) : Nat :=
  match m.opt with
  | none => 0
  | some o => o.payload.toNat

def ednsflags (m : Message) : UInt32 :=
  match m.opt with
  | none => 0
  | some o => o.ednsflags

/-- The twelve-bit response code: four bits of the flags word, eight of the OPT record. -/
def rcode (m : Message) : UInt16 :=
  (m.flags &&& Flag.rcodeMask) ||| ((m.ednsflags >>> 20).toUInt16 &&& 0x0FF0)

def setEdnsflags (m : Message) (v : UInt32) : Message :=
  match m.opt with
  | some o => { m with opt := some { o with ednsflags := v } }
  | none => if v = 0 then m else { m with opt := some ⟨1232, v, []⟩ }

def setRcode (m : Message) (rcode : UInt16) : Message :=
  ({ m with flags := (m.flags &&& 0xFFF0) ||| (rcode &&& 0x000F) }).setEdnsflags
    ((m.ednsflags &&& (0x00FFFFFF : UInt32)) ||| ((rcode &&& 0x0FF0).toUInt32 <<< 20))

section

variable (m : Message) (v : UInt32) (rcode : UInt16)

@[simp] theorem setEdnsflags_id : (m.setEdnsflags v).id = m.id := by
  unfold setEdnsflags
  split
  · rfl
  · split_ifs <;> rfl

@[simp] theorem setEdnsflags_flags : (m.setEdnsflags v).flags = m.flags := by
  unfold setEdnsflags
  split
  · rfl
  · split_ifs <;> rfl

@[simp] theorem setEdnsflags_question : (m.setEdnsflags v).question = m.question := by
  unfold setEdnsflags
  split
  · rfl
  · split_ifs <;> rfl

@[simp] theorem setEdnsflags_answer : (m.setEdnsflags v).answer = m.answer := by
  unfold setEdnsflags
  split
  · rfl
  · split_ifs <;> rfl

@[simp] theorem setEdnsflags_authority : (m.setEdnsflags v).authority = m.authority := by
  unfold setEdnsflags
  split
  · rfl
  · split_ifs <;> rfl

@[simp] theorem setEdnsflags_additional : (m.setEdnsflags v).additional = m.additional := by
  unfold setEdnsflags
  split
  · rfl
  · split_ifs <;> rfl

@[simp] theorem setRcode_id : (m.setRcode rcode).id = m.id := setEdnsflags_id ..

@[simp] theorem setRcode_flags :
    (m.setRcode rcode).flags = (m.flags &&& 0xFFF0) ||| (rcode &&& 0x000F) := setEdnsflags_flags ..

@[simp] theorem setRcode_question : (m.setRcode rcode).question = m.question :=
  setEdnsflags_question ..

@[simp] theorem setRcode_answer : (m.setRcode rcode).answer = m.answer := setEdnsflags_answer ..

@[simp] theorem setRcode_authority : (m.setRcode rcode).authority = m.authority :=
  setEdnsflags_authority ..

@[simp] theorem setRcode_additional : (m.setRcode rcode).additional = m.additional :=
  setEdnsflags_additional ..

end

/-- Below the eight bits of the OPT record, the response code stands in the flags word. -/
theorem rcode_eq_of_small {m : Message} (h : m.ednsflags.toNat < 2 ^ 20) :
    m.rcode = m.flags &&& Flag.rcodeMask := by
  have hshift : m.ednsflags >>> 20 = 0 := by
    apply UInt32.toNat_inj.mp
    rw [UInt32.toNat_shiftRight]
    exact Nat.shiftRight_eq_zero _ _ h
  rw [rcode, hshift]
  exact UInt16.or_zero

theorem setRcode_flags_and (m : Message) (rcode : UInt16) {mask : UInt16}
    (h : (0xFFF0 : UInt16) &&& mask = mask) (h' : (0x000F : UInt16) &&& mask = 0) :
    (m.setRcode rcode).flags &&& mask = m.flags &&& mask := by
  rw [setRcode_flags, or_and_distrib, UInt16.and_assoc, UInt16.and_assoc, h, h', UInt16.and_zero,
    UInt16.or_zero]

theorem setRcode_flags_and_rcodeMask (m : Message) (rcode : UInt16) :
    (m.setRcode rcode).flags &&& Flag.rcodeMask = rcode &&& Flag.rcodeMask := by
  have h1 : (0xFFF0 : UInt16) &&& Flag.rcodeMask = 0 := by decide
  have h2 : (0x000F : UInt16) &&& Flag.rcodeMask = Flag.rcodeMask := by decide
  rw [setRcode_flags, or_and_distrib, UInt16.and_assoc, UInt16.and_assoc, h1, h2, UInt16.and_zero,
    UInt16.zero_or]

/-- The response code lies in flags and OPT alone. -/
theorem setRcode_sections (m : Message) (rcode : UInt16) (answer authority additional : List RRset) :
    ({ m with answer := answer, authority := authority, additional := additional }).setRcode rcode
      = { m.setRcode rcode with
          answer := answer, authority := authority, additional := additional } := by
  obtain ⟨id, flags, question, _, _, _, opt⟩ := m
  unfold setRcode setEdnsflags ednsflags
  cases opt with
  | none =>
    dsimp only
    split_ifs <;> rfl
  | some o => rfl

/-- Attach an OPT record of version 0 without options. -/
def useEdns (m : Message) (payload : UInt16) (ednsflags : UInt32) : Message :=
  { m with opt := some ⟨payload, ednsflags &&& 0xFF00FFFF, []⟩ }

/-- The same message, names without regard to case. -/
structure SameAs (a b : Message) : Prop where
  id : a.id = b.id
  flags : a.flags = b.flags
  question : List.Forall₂ Question.SameAs a.question b.question
  answer : List.Forall₂ RRset.SameAs a.answer b.answer
  authority : List.Forall₂ RRset.SameAs a.authority b.authority
  additional : List.Forall₂ RRset.SameAs a.additional b.additional
  opt : a.opt = b.opt

theorem SameAs.refl (m : Message) : m.SameAs m :=
  ⟨rfl, rfl, List.forall₂_same.mpr fun _ _ => ⟨Name.SameAs.refl _, rfl, rfl⟩,
    List.forall₂_same.mpr fun r _ => RRset.SameAs.refl r,
    List.forall₂_same.mpr fun r _ => RRset.SameAs.refl r,
    List.forall₂_same.mpr fun r _ => RRset.SameAs.refl r, rfl⟩

/-- All RRsets of a message, in section order. -/
def rrsets (m : Message) : List RRset := m.answer ++ m.authority ++ m.additional

theorem SameAs.rrsets {a b : Message} (h : a.SameAs b) :
    List.Forall₂ RRset.SameAs a.rrsets b.rrsets :=
  List.rel_append (List.rel_append h.answer h.authority) h.additional

/-- The length of the message with no name compressed. -/
def size (m : Message) : Nat :=
  12 + (m.question.map fun q => nameLength q.name.labels + 4).sum +
    ((m.answer ++ m.authority ++ m.additional).map RRset.size).sum +
    match m.opt with
    | none => 0
    | some o => 11 + o.options.length

/-! ### Prefixes of a message -/

def rrsetCount (m : Message) : Nat :=
  m.answer.length + m.authority.length + m.additional.length

/-- The message with only its first `k` RRsets, in section order. -/
def keep (m : Message) (k : Nat) : Message :=
  { m with
    answer := m.answer.take k
    authority := m.authority.take (k - m.answer.length)
    additional := m.additional.take (k - (m.answer.length + m.authority.length)) }

theorem keep_rrsetCount (m : Message) : m.keep m.rrsetCount = m := by
  unfold keep rrsetCount
  rw [List.take_of_length_le (by omega), List.take_of_length_le (by omega),
    List.take_of_length_le (by omega)]

@[simp] theorem keep_id (m : Message) (k : Nat) : (m.keep k).id = m.id := rfl
@[simp] theorem keep_flags (m : Message) (k : Nat) : (m.keep k).flags = m.flags := rfl
@[simp] theorem keep_question (m : Message) (k : Nat) : (m.keep k).question = m.question := rfl
@[simp] theorem keep_opt (m : Message) (k : Nat) : (m.keep k).opt = m.opt := rfl

theorem keep_answer_of_le {m : Message} {k : Nat} (h : m.answer.length + m.authority.length ≤ k) :
    (m.keep k).answer = m.answer ∧ (m.keep k).authority = m.authority :=
  ⟨List.take_of_length_le (by omega), List.take_of_length_le (by omega)⟩

end Message

end Dns
