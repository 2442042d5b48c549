import DnsFixtures.Dns.Compression
import DnsFixtures.Dns.Message

/-!
# Messages on the wire

`writeMessage` writes a message with no name compressed, and `readMessage` reads one, following
backward pointers.  Which octets of record data are names is a parameter of the reader, the `layout`
of each record type.

* `length_writeMessage`: the length of the written message is `Message.size`.
* `readMessage_writeMessage`: a `Writable` message that fits into 65535 octets is read back.
* `readMessage_sound`: a message that is read has the questions, the records and the OPT record that
  stand in the octets (`QuestionsAt`, `RecordsAt`).
-/

namespace Dns

/-! ### Headers -/

structure Header where
  id : UInt16
  flags : UInt16
  qdcount : UInt16
  ancount : UInt16
  nscount : UInt16
  arcount : UInt16
  deriving DecidableEq

/-- `struct.unpack("!6H", w[:12])`. -/
def readHeader (w : Octets) : Option Header := do
  some ⟨← readU16 w 0, ← readU16 w 2, ← readU16 w 4, ← readU16 w 6, ← readU16 w 8, ← readU16 w 10⟩

/-- The fixed part of a resource record on the wire. -/
structure RRHeader where
  rdtype : UInt16
  rdclass : UInt16
  ttl : UInt32
  deriving DecidableEq

/-- The payload and the flags that an OPT record has in place of class and time to live. -/
def recordOpt (h : RRHeader) : UInt16 × UInt32 := (h.rdclass, h.ttl)

def writeHeader (h : Header) : Octets :=
  packU16 h.id ++ packU16 h.flags ++ packU16 h.qdcount ++ packU16 h.ancount ++ packU16 h.nscount ++
    packU16 h.arcount

@[simp] theorem length_writeHeader (h : Header) : (writeHeader h).length = 12 := rfl

/-- A header can be read from twelve octets. -/
theorem readHeader_isSome_iff (w : Octets) : (readHeader w).isSome ↔ 12 ≤ w.length := by
  constructor
  · intro h
    obtain ⟨hd, hh⟩ := Option.isSome_iff_exists.mp h
    have h10 : (readU16 w 10).isSome := by
      unfold readHeader at hh
      cases hx : readU16 w 10 with
      | some x => rfl
      | none => simp [hx] at hh
    exact (readU16_isSome_iff w 10).mp h10
  · intro h
    have hget : ∀ off, off + 2 ≤ w.length → ∃ x, readU16 w off = some x := fun off ho =>
      Option.isSome_iff_exists.mp ((readU16_isSome_iff w off).mpr ho)
    obtain ⟨a, ha⟩ := hget 0 (by omega)
    obtain ⟨b, hb⟩ := hget 2 (by omega)
    obtain ⟨c, hc⟩ := hget 4 (by omega)
    obtain ⟨d, hd⟩ := hget 6 (by omega)
    obtain ⟨e, he⟩ := hget 8 (by omega)
    obtain ⟨f, hf⟩ := hget 10 (by omega)
    simp [readHeader, ha, hb, hc, hd, he, hf]

/-- The words of a header. -/
theorem readHeader_eq_some {w : Octets} {h : Header} (hh : readHeader w = some h) :
    readU16 w 0 = some h.id ∧ readU16 w 2 = some h.flags ∧ readU16 w 4 = some h.qdcount ∧
      readU16 w 6 = some h.ancount ∧ readU16 w 8 = some h.nscount ∧
      readU16 w 10 = some h.arcount := by
  unfold readHeader at hh
  simp only [Option.bind_eq_bind, Option.bind_eq_some_iff, Option.some.injEq] at hh
  obtain ⟨a, ha, b, hb, c, hc, d, hd, e, he, f, hf, rfl⟩ := hh
  exact ⟨ha, hb, hc, hd, he, hf⟩

theorem readHeader_of_holdsAt {w : Octets} {h : Header} (hw : HoldsAt w 0 (writeHeader h)) :
    readHeader w = some h := by
  unfold writeHeader at hw
  simp only [holdsAt_append, length_packU16, List.length_append] at hw
  obtain ⟨⟨⟨⟨⟨h0, h2⟩, h4⟩, h6⟩, h8⟩, h10⟩ := hw
  simp only [readHeader, h0.readU16, HoldsAt.readU16 h2, HoldsAt.readU16 h4, HoldsAt.readU16 h6,
    HoldsAt.readU16 h8, HoldsAt.readU16 h10, Option.bind_eq_bind, Option.bind_some]

/-! ### Names -/

/-- The name at an offset and the octets it takes there. -/
def readNameAt (w : Octets) (off : Nat) : Option (Name × Nat) :=
  (expand w (off + 129) off off).bind fun r => (Name.ofLabels? r.1).map fun n => (n, r.2 - off)

theorem readNameAt_endsAt {w : Octets} {off : Nat} {n : Name} {used : Nat}
    (h : readNameAt w off = some (n, used)) : EndsAt w off (off + used) := by
  obtain ⟨⟨ls, stop⟩, he, hn⟩ := Option.bind_eq_some_iff.mp h
  obtain ⟨n', hn', heq⟩ := Option.map_eq_some_iff.mp hn
  cases heq
  have hend := expand_endsAt he
  have hlt := hend.lt
  rwa [Nat.add_sub_cancel' (Nat.le_of_lt hlt)]

theorem readNameAt_iff {w : Octets} {off : Nat} {n : Name} :
    (∃ used, readNameAt w off = some (n, used)) ↔
      ∃ ps, Expands w off n.labels ps ∧ Backward off ps := by
  constructor
  · rintro ⟨used, h⟩
    obtain ⟨⟨ls, stop⟩, he, hn⟩ := Option.bind_eq_some_iff.mp h
    obtain ⟨n', hn', heq⟩ := Option.map_eq_some_iff.mp hn
    cases heq
    rw [Name.ofLabels?_eq_some hn']
    exact expand_sound he
  · rintro ⟨ps, he, hb⟩
    have hlabels := two_mul_length_lt_nameLength n.legal.label_ne_nil
    have hps := hb.length_le
    have htotal := n.legal.total_le
    obtain ⟨stop, hs⟩ : ∃ stop, expand w (off + 129) off off = some (n.labels, stop) :=
      expand_complete he hb (by omega)
    exact ⟨stop - off, by rw [readNameAt, hs, Option.bind_some, Name.ofLabels?_of_legal n.legal]; rfl⟩

theorem readNameAt_of_holdsAt {w : Octets} {off : Nat} {n : Name}
    (h : HoldsAt w off (wireLabels n.labels)) :
    readNameAt w off = some (n, nameLength n.labels) := by
  have hlabels := two_mul_length_lt_nameLength n.legal.label_ne_nil
  have htotal := n.legal.total_le
  rw [readNameAt, expand_of_holdsAt n.legal.label_ne_nil n.legal.label_le h (by omega),
    Option.bind_some, Name.ofLabels?_of_legal n.legal, Option.map_some, Nat.add_sub_cancel_left]

/-! ### Questions and records -/

section

variable (nameAt : Nat → Name → Nat → Prop) (w : Octets)

/-- The questions written from one offset to another.  `nameAt off n used` says that the name `n`
stands at `off` and takes `used` octets there. -/
inductive QuestionsAt : Nat → List Question → Nat → Prop
  | nil (off : Nat) : QuestionsAt off [] off
  | cons {off used stop : Nat} {n : Name} {t c : UInt16} {qs : List Question} :
      nameAt off n used → readU16 w (off + used) = some t → readU16 w (off + used + 2) = some c →
      QuestionsAt (off + used + 4) qs stop → QuestionsAt off (⟨n, t, c⟩ :: qs) stop

/-- The resource records written one behind the other from an offset on. -/
inductive RecordsAt : Nat → List RRHeader → Prop
  | nil (off : Nat) : RecordsAt off []
  | cons {off used : Nat} {n : Name} {t c len : UInt16} {ttl : UInt32} {hs : List RRHeader} :
      nameAt off n used → readU16 w (off + used) = some t → readU16 w (off + used + 2) = some c →
      readU32 w (off + used + 4) = some ttl → readU16 w (off + used + 8) = some len →
      off + used + 10 + len.toNat ≤ w.length → RecordsAt (off + used + 10 + len.toNat) hs →
      RecordsAt off (⟨t, c, ttl⟩ :: hs)

end

/-! ### Record data -/

/-- A field in the layout of a record type: octets of fixed number, a name, or the rest of the
data. -/
inductive Piece where
  | fixed (n : Nat)
  | name
  | rest
  deriving DecidableEq

/-- Data in a layout. -/
def Fits : List Piece → Rdata → Prop
  | [], [] => True
  | .fixed n :: ps, .octets bs :: fs => bs.length = n ∧ Fits ps fs
  | .name :: ps, .name _ :: fs => Fits ps fs
  | .rest :: _, [.octets _] => True
  | _, _ => False

theorem length_le_length_flatMap {α : Type*} {f : α → Octets} (hf : ∀ x, f x ≠ []) (xs : List α) :
    xs.length ≤ (xs.flatMap f).length := by
  induction xs with
  | nil => exact Nat.zero_le _
  | cons x xs ih =>
    have := List.length_pos_iff.mpr (hf x)
    rw [List.flatMap_cons, List.length_append, List.length_cons]
    omega

def writeField : Field → Octets
  | .octets bs => bs
  | .name n => wireLabels n.labels

def writeRdata (x : Rdata) : Octets := x.flatMap writeField

theorem length_writeField : ∀ f : Field, (writeField f).length = f.size
  | .octets _ => rfl
  | .name n => length_wireLabels n.labels

theorem length_flatMap {α : Type*} (f : α → Octets) (xs : List α) :
    (xs.flatMap f).length = (xs.map fun x => (f x).length).sum := by
  induction xs with
  | nil => rfl
  | cons x xs ih => rw [List.flatMap_cons, List.length_append, ih, List.map_cons, List.sum_cons]

theorem length_writeRdata (x : Rdata) : (writeRdata x).length = x.size := by
  simp only [writeRdata, length_flatMap, length_writeField]
  rfl

/-- The fields from one offset to another. -/
def readFields (w : Octets) : List Piece → Nat → Nat → Option Rdata
  | [], off, stop => if off = stop then some [] else none
  | .fixed n :: ps, off, stop =>
    if off + n ≤ stop then
      (readFields w ps (off + n) stop).map (Field.octets ((w.drop off).take n) :: ·)
    else none
  | .name :: ps, off, stop =>
    match readNameAt w off with
    | none => none
    | some (n, used) => (readFields w ps (off + used) stop).map (Field.name n :: ·)
  | .rest :: _, off, stop => some [.octets ((w.drop off).take (stop - off))]

theorem readFields_writeRdata {w : Octets} {ps : List Piece} {x : Rdata} (hx : Fits ps x)
    {off stop : Nat} (hw : HoldsAt w off (writeRdata x)) (hstop : stop = off + x.size) :
    readFields w ps off stop = some x := by
  induction ps generalizing x off with
  | nil =>
    cases x with
    | nil =>
      rw [readFields, if_pos]
      rw [hstop]
      rfl
    | cons f fs => cases hx
  | cons p ps ih =>
    cases x with
    | nil => cases p <;> cases hx
    | cons f fs =>
      have hsize : Rdata.size (f :: fs) = f.size + Rdata.size fs := by
        rw [Rdata.size, List.map_cons, List.sum_cons]
        rfl
      rw [writeRdata, List.flatMap_cons] at hw
      -- the first field, and the others behind it
      obtain ⟨hf, hfs⟩ := (holdsAt_append _ _ _ _).mp hw
      rw [length_writeField] at hfs
      cases p with
      | fixed n =>
        cases f with
        | name _ => cases hx
        | octets bs =>
          obtain ⟨rfl, hx⟩ := hx
          rw [hsize] at hstop
          have hslice : (w.drop off).take bs.length = bs := hf.slice
          have hrest : readFields w ps (off + bs.length) stop = some fs :=
            ih hx hfs (by rw [hstop, Field.size]; omega)
          rw [readFields, if_pos (by rw [hstop, Field.size]; omega), hrest, hslice]
          rfl
      | name =>
        cases f with
        | octets _ => cases hx
        | name n =>
          rw [hsize] at hstop
          rw [readFields, readNameAt_of_holdsAt hf]
          dsimp only
          have hrest := ih hx hfs (by rw [hstop]; omega)
          rw [Field.size] at hrest
          rw [hrest]
          rfl
      | rest =>
        cases f with
        | name _ => cases hx
        | octets bs =>
          -- a field of the last kind takes the rest, so no field follows it
          cases fs with
          | cons _ _ => cases hx
          | nil =>
            have hlen : stop - off = bs.length := by
              rw [hstop, hsize]
              simp [Field.size, Rdata.size]
            have hslice : (w.drop off).take bs.length = bs := hf.slice
            rw [readFields, hlen, hslice]

/-! ### Writing -/

def writeQuestion (q : Question) : Octets :=
  wireLabels q.name.labels ++ packU16 q.rdtype ++ packU16 q.rdclass

/-- The fixed part of a record and the length of its data. -/
def writeRRHeader (h : RRHeader) (len : Nat) : Octets :=
  packU16 h.rdtype ++ packU16 h.rdclass ++ packU32 h.ttl ++ packU16 (UInt16.ofNat len)

def writeRecord (n : Name) (h : RRHeader) (data : Octets) : Octets :=
  wireLabels n.labels ++ writeRRHeader h data.length ++ data

def RRset.header (r : RRset) : RRHeader := ⟨r.rdtype, r.rdclass, r.ttl⟩

def writeRRset (r : RRset) : Octets :=
  r.rdatas.flatMap fun x => writeRecord r.name r.header (writeRdata x)

def writeOpt : Option Opt → Octets
  | none => []
  | some o => writeRecord Name.root ⟨RRType.OPT, o.payload, o.ednsflags⟩ o.options

def recordCount (s : List RRset) : Nat := (s.map fun r => r.rdatas.length).sum

def optCount : Option Opt → Nat
  | none => 0
  | some _ => 1

def Message.header (m : Message) : Header where
  id := m.id
  flags := m.flags
  qdcount := UInt16.ofNat m.question.length
  ancount := UInt16.ofNat (recordCount m.answer)
  nscount := UInt16.ofNat (recordCount m.authority)
  arcount := UInt16.ofNat (recordCount m.additional + optCount m.opt)

/-- The message with no name compressed, its OPT record at the end. -/
def writeMessage (m : Message) : Octets :=
  writeHeader m.header ++ m.question.flatMap writeQuestion ++ m.answer.flatMap writeRRset ++
    m.authority.flatMap writeRRset ++ m.additional.flatMap writeRRset ++ writeOpt m.opt

theorem length_writeRecord (n : Name) (h : RRHeader) (data : Octets) :
    (writeRecord n h data).length = nameLength n.labels + 10 + data.length := by
  simp only [writeRecord, writeRRHeader, List.length_append, length_wireLabels, length_packU16,
    length_packU32]

theorem length_writeRRset (r : RRset) : (writeRRset r).length = r.size := by
  simp only [writeRRset, length_flatMap, length_writeRecord, length_writeRdata]
  rfl

theorem length_writeOpt_some (o : Opt) : (writeOpt (some o)).length = 11 + o.options.length := by
  rw [writeOpt, length_writeRecord]
  rfl

/-- The length of the written message. -/
theorem length_writeMessage (m : Message) : (writeMessage m).length = m.size := by
  have hq : ∀ q : Question, (writeQuestion q).length = nameLength q.name.labels + 4 := by
    intro q
    simp [writeQuestion]
  have hr : (fun r => (writeRRset r).length) = RRset.size := funext length_writeRRset
  rw [Message.size, List.map_append, List.map_append, List.sum_append, List.sum_append]
  simp only [writeMessage, List.length_append, length_flatMap, length_writeHeader, hr, hq]
  cases m.opt with
  | none =>
    dsimp only [writeOpt, List.length_nil]
    omega
  | some o =>
    rw [length_writeOpt_some]
    dsimp only
    omega

theorem writeRecord_ne_nil (n : Name) (h : RRHeader) (data : Octets) : writeRecord n h data ≠ [] := by
  simp [writeRecord, writeRRHeader, packU16]

theorem recordCount_le (s : List RRset) : recordCount s ≤ (s.flatMap writeRRset).length := by
  induction s with
  | nil => exact Nat.zero_le _
  | cons r s ih =>
    have hr : r.rdatas.length ≤ (writeRRset r).length :=
      length_le_length_flatMap (fun x => writeRecord_ne_nil r.name r.header (writeRdata x)) _
    rw [recordCount] at ih ⊢
    rw [List.map_cons, List.sum_cons, List.flatMap_cons, List.length_append]
    omega

/-! ### Reading -/

/-- A record that was read: its owner, its fixed part and where its data stands. -/
structure Record where
  name : Name
  header : RRHeader
  start : Nat
  stop : Nat

/-- The records of one RRset are put together when they stand one behind the other. -/
def addRecord (rs : List RRset) (n : Name) (h : RRHeader) (x : Rdata) : List RRset :=
  match rs.getLast? with
  | none => [⟨n, h.rdtype, h.rdclass, h.ttl, [x]⟩]
  | some r =>
    if r.SameKey ⟨n, h.rdtype, h.rdclass, h.ttl, [x]⟩ then
      rs.dropLast ++ [{ r with rdatas := r.rdatas ++ [x] }]
    else rs ++ [⟨n, h.rdtype, h.rdclass, h.ttl, [x]⟩]

section

variable (layout : UInt16 → List Piece) (w : Octets)

def readQuestions : Nat → Nat → Option (List Question × Nat)
  | 0, off => some ([], off)
  | n + 1, off =>
    match readNameAt w off with
    | none => none
    | some (name, used) =>
      match readU16 w (off + used), readU16 w (off + used + 2) with
      | some t, some c =>
        (readQuestions n (off + used + 4)).map fun r => (⟨name, t, c⟩ :: r.1, r.2)
      | _, _ => none

def readRecord (off : Nat) : Option Record :=
  match readNameAt w off with
  | none => none
  | some (name, used) =>
    match readU16 w (off + used), readU16 w (off + used + 2), readU32 w (off + used + 4),
      readU16 w (off + used + 8) with
    | some t, some c, some ttl, some len =>
      if off + used + 10 + len.toNat ≤ w.length then
        some ⟨name, ⟨t, c, ttl⟩, off + used + 10, off + used + 10 + len.toNat⟩
      else none
    | _, _, _, _ => none

/-- `n` records; an OPT record is accepted in the last section only, and only once. -/
def readRecords (last : Bool) :
    Nat → Nat → List RRset → Option Opt → Option (List RRset × Option Opt × Nat)
  | 0, off, rs, opt => some (rs, opt, off)
  | n + 1, off, rs, opt =>
    match readRecord w off with
    | none => none
    | some r =>
      if r.header.rdtype = RRType.OPT then
        if last ∧ opt = none ∧ r.name = Name.root then
          readRecords last n r.stop rs
            (some ⟨r.header.rdclass, r.header.ttl, (w.drop r.start).take (r.stop - r.start)⟩)
        else none
      else if r.header.rdtype = RRType.TSIG then none
      else
        match readFields w (layout r.header.rdtype) r.start r.stop with
        | none => none
        | some x => readRecords last n r.stop (addRecord rs r.name r.header x) opt

/-- The message, when nothing is left behind it. -/
def readMessage : Option Message :=
  match readHeader w with
  | none => none
  | some h =>
    match readQuestions w h.qdcount.toNat 12 with
    | none => none
    | some (question, off) =>
      match readRecords layout w false h.ancount.toNat off [] none with
      | none => none
      | some (answer, _, off) =>
        match readRecords layout w false h.nscount.toNat off [] none with
        | none => none
        | some (authority, _, off) =>
          match readRecords layout w true h.arcount.toNat off [] none with
          | none => none
          | some (additional, opt, off) =>
            if off = w.length then
              some ⟨h.id, h.flags, question, answer, authority, additional, opt⟩
            else none

end

/-! ### What is written is read back -/

/-- An RRset whose records are read back as they were written. -/
structure WritableRRset (layout : UInt16 → List Piece) (r : RRset) : Prop where
  rdtype : r.rdtype ≠ RRType.OPT ∧ r.rdtype ≠ RRType.TSIG
  ne_nil : r.rdatas ≠ []
  fits : ∀ x ∈ r.rdatas, Fits (layout r.rdtype) x

structure WritableSection (layout : UInt16 → List Piece) (s : List RRset) : Prop where
  keys : s.Pairwise fun a b => ¬ RRset.SameKey a b
  rrsets : ∀ r ∈ s, WritableRRset layout r

section

variable {layout : UInt16 → List Piece} {w : Octets}

theorem toNat_ofNat_of_lt {n : Nat} (h : n < 65536) : (UInt16.ofNat n).toNat = n := by
  rw [UInt16.toNat_ofNat', Nat.mod_eq_of_lt h]

theorem readQuestions_write {qs : List Question} {off : Nat}
    (hw : HoldsAt w off (qs.flatMap writeQuestion)) :
    readQuestions w qs.length off = some (qs, off + (qs.flatMap writeQuestion).length) := by
  induction qs generalizing off with
  | nil => rfl
  | cons q qs ih =>
    rw [List.flatMap_cons] at hw
    obtain ⟨hq, hqs⟩ := (holdsAt_append _ _ _ _).mp hw
    unfold writeQuestion at hq
    simp only [holdsAt_append, List.length_append, length_packU16, length_wireLabels] at hq
    obtain ⟨⟨hn, ht⟩, hc⟩ := hq
    have hlen : (writeQuestion q).length = nameLength q.name.labels + 4 := by simp [writeQuestion]
    rw [hlen, ← Nat.add_assoc] at hqs
    rw [List.length_cons, readQuestions, readNameAt_of_holdsAt hn]
    dsimp only
    rw [← Nat.add_assoc] at hc
    rw [ht.readU16, HoldsAt.readU16 hc]
    dsimp only
    rw [ih hqs, List.flatMap_cons, List.length_append, hlen]
    simp only [Option.map_some, Option.some.injEq, Prod.mk.injEq, true_and]
    omega

theorem readRecord_write {n : Name} {h : RRHeader} {data : Octets} {off : Nat}
    (hw : HoldsAt w off (writeRecord n h data)) (hlen : data.length < 65536) :
    readRecord w off = some ⟨n, h, off + nameLength n.labels + 10,
      off + nameLength n.labels + 10 + data.length⟩ := by
  have hin := hw.length_le (writeRecord_ne_nil _ _ _)
  rw [length_writeRecord] at hin
  unfold writeRecord writeRRHeader at hw
  simp only [holdsAt_append, List.length_append, length_packU16, length_packU32,
    length_wireLabels] at hw
  obtain ⟨⟨hn, ⟨⟨ht, hc⟩, httl⟩, hl⟩, -⟩ := hw
  simp only [← Nat.add_assoc] at hc httl hl
  rw [readRecord, readNameAt_of_holdsAt hn]
  dsimp only
  rw [ht.readU16, HoldsAt.readU16 hc, HoldsAt.readU32 httl, HoldsAt.readU16 hl]
  dsimp only
  rw [toNat_ofNat_of_lt hlen, if_pos (by omega)]

theorem addRecord_of_ne {rs : List RRset} {r : RRset} {x : Rdata}
    (h : ∀ a ∈ rs, ¬ a.SameKey r) :
    addRecord rs r.name r.header x = rs ++ [{ r with rdatas := [x] }] := by
  unfold addRecord
  cases hl : rs.getLast? with
  | none =>
    rw [List.getLast?_eq_none_iff] at hl
    rw [hl]
    rfl
  | some a =>
    have hne : ¬ a.SameKey ⟨r.name, r.header.rdtype, r.header.rdclass, r.header.ttl, [x]⟩ :=
      h a (List.mem_of_getLast? hl)
    dsimp only
    rw [if_neg hne]
    rfl

theorem addRecord_concat {rs : List RRset} {r : RRset} {xs : List Rdata} {x : Rdata} :
    addRecord (rs ++ [{ r with rdatas := xs }]) r.name r.header x
      = rs ++ [{ r with rdatas := xs ++ [x] }] := by
  unfold addRecord
  rw [List.getLast?_concat]
  have hkey : RRset.SameKey { r with rdatas := xs }
      ⟨r.name, r.header.rdtype, r.header.rdclass, r.header.ttl, [x]⟩ :=
    ⟨Name.SameAs.refl _, rfl, rfl⟩
  dsimp only
  rw [if_pos hkey, List.dropLast_concat]

/-- One written record is read, whatever follows it. -/
theorem readRecords_cons {last : Bool} {r : RRset} (hr : WritableRRset layout r) {x : Rdata}
    (hx : x ∈ r.rdatas) {off k : Nat} (rs : List RRset) (opt : Option Opt)
    (hw : HoldsAt w off (writeRecord r.name r.header (writeRdata x))) (hlen : w.length ≤ 65535) :
    readRecords layout w last (k + 1) off rs opt
      = readRecords layout w last k
          (off + (writeRecord r.name r.header (writeRdata x)).length)
          (addRecord rs r.name r.header x) opt := by
  have hin := hw.length_le (writeRecord_ne_nil _ _ _)
  rw [length_writeRecord] at hin ⊢
  have hdata : HoldsAt w (off + nameLength r.name.labels + 10) (writeRdata x) := by
    have h := ((holdsAt_append _ _ _ _).mp hw).2
    rw [List.length_append, length_wireLabels, ← Nat.add_assoc] at h
    exact h
  have hstop : off + nameLength r.name.labels + 10 + (writeRdata x).length
      = off + nameLength r.name.labels + 10 + x.size := by
    rw [length_writeRdata]
  have hfields := readFields_writeRdata (hr.fits x hx) hdata hstop
  rw [readRecords, readRecord_write hw (by omega)]
  dsimp only [RRset.header]
  rw [if_neg hr.rdtype.1, if_neg hr.rdtype.2, hfields]
  dsimp only
  rw [← Nat.add_assoc, ← Nat.add_assoc]

/-- The records of an RRset are put together again. -/
theorem readRecords_rrset {last : Bool} {r : RRset} (hr : WritableRRset layout r)
    {xs : List Rdata} (hxs : ∀ x ∈ xs, x ∈ r.rdatas) {off k : Nat} (done : List Rdata)
    (rs : List RRset) (opt : Option Opt)
    (hw : HoldsAt w off (xs.flatMap fun x => writeRecord r.name r.header (writeRdata x)))
    (hlen : w.length ≤ 65535) :
    readRecords layout w last (xs.length + k) off (rs ++ [{ r with rdatas := done }]) opt
      = readRecords layout w last k
          (off + (xs.flatMap fun x => writeRecord r.name r.header (writeRdata x)).length)
          (rs ++ [{ r with rdatas := done ++ xs }]) opt := by
  induction xs generalizing off done with
  | nil => simp
  | cons x xs ih =>
    rw [List.flatMap_cons] at hw ⊢
    obtain ⟨hx, hrest⟩ := (holdsAt_append _ _ _ _).mp hw
    have hk : (x :: xs).length + k = (xs.length + k) + 1 := by
      rw [List.length_cons]
      omega
    rw [hk, readRecords_cons hr (hxs x List.mem_cons_self) _ _ hx hlen, addRecord_concat,
      ih (fun y hy => hxs y (List.mem_cons_of_mem _ hy)) (done ++ [x]) hrest, List.append_assoc,
      List.singleton_append, List.length_append, Nat.add_assoc]

/-- The RRsets of a section are read back, whatever follows them. -/
theorem readRecords_section (last : Bool) {s : List RRset}
    (hs : ∀ r ∈ s, WritableRRset layout r) {off : Nat} (k : Nat) (rs : List RRset)
    (hkeys : (rs ++ s).Pairwise fun a b => ¬ RRset.SameKey a b) (opt : Option Opt)
    (hw : HoldsAt w off (s.flatMap writeRRset)) (hlen : w.length ≤ 65535) :
    readRecords layout w last (recordCount s + k) off rs opt
      = readRecords layout w last k (off + (s.flatMap writeRRset).length) (rs ++ s) opt := by
  induction s generalizing off rs with
  | nil => simp [recordCount]
  | cons r s ih =>
    have hr := hs r List.mem_cons_self
    -- the first record of an RRset opens it, the others are added to it
    obtain ⟨x, xs, hxs⟩ := List.exists_cons_of_ne_nil hr.ne_nil
    have hnew : ∀ a ∈ rs, ¬ a.SameKey r := fun a ha =>
      (List.pairwise_append.mp hkeys).2.2 a ha r List.mem_cons_self
    rw [List.flatMap_cons] at hw ⊢
    obtain ⟨hhead, hrest⟩ := (holdsAt_append _ _ _ _).mp hw
    have hhead' := hhead
    rw [writeRRset, hxs, List.flatMap_cons] at hhead'
    obtain ⟨hx, htail⟩ := (holdsAt_append _ _ _ _).mp hhead'
    have hcount : recordCount (r :: s) + k = (xs.length + (recordCount s + k)) + 1 := by
      rw [recordCount, List.map_cons, List.sum_cons, hxs, List.length_cons, ← recordCount]
      omega
    have hall : ({ r with rdatas := [x] ++ xs } : RRset) = r := by
      rw [List.singleton_append, ← hxs]
    have hlength : off + (writeRecord r.name r.header (writeRdata x)).length
          + (xs.flatMap fun x => writeRecord r.name r.header (writeRdata x)).length
        = off + (writeRRset r).length := by
      rw [writeRRset, hxs, List.flatMap_cons, List.length_append]
      omega
    have happ : rs ++ r :: s = rs ++ [r] ++ s := by simp
    rw [hcount, readRecords_cons hr (hxs ▸ List.mem_cons_self) _ _ hx hlen, addRecord_of_ne hnew,
      readRecords_rrset hr (fun y hy => hxs ▸ List.mem_cons_of_mem _ hy) _ _ _ htail hlen, hall,
      hlength, ih (fun a ha => hs a (List.mem_cons_of_mem _ ha)) _ (happ ▸ hkeys) hrest, happ,
      List.length_append, Nat.add_assoc]

theorem readRecords_opt {o : Option Opt} {off : Nat} (rs : List RRset)
    (hw : HoldsAt w off (writeOpt o)) (hlen : w.length ≤ 65535) :
    readRecords layout w true (optCount o) off rs none
      = some (rs, o, off + (writeOpt o).length) := by
  cases o with
  | none => rfl
  | some o =>
    have hin := hw.length_le (writeRecord_ne_nil _ _ _)
    rw [length_writeOpt_some] at hin
    have hdata : HoldsAt w (off + 1 + 10) o.options := by
      have h := ((holdsAt_append _ _ _ _).mp hw).2
      rwa [List.length_append, length_wireLabels, ← Nat.add_assoc] at h
    have hroot : nameLength Name.root.labels = 1 := rfl
    rw [optCount, readRecords, readRecord_write hw (by omega), hroot]
    dsimp only
    rw [if_pos rfl, if_pos ⟨rfl, rfl, rfl⟩, readRecords, Nat.add_sub_cancel_left, hdata.slice,
      length_writeOpt_some]
    simp only [Option.some.injEq, Prod.mk.injEq, true_and]
    omega

/-- **Round trip**: a message that fits into 65535 octets is read back as it was written. -/
theorem readMessage_writeMessage {m : Message} (ha : WritableSection layout m.answer)
    (hn : WritableSection layout m.authority) (hr : WritableSection layout m.additional)
    (hlen : (writeMessage m).length ≤ 65535) :
    readMessage layout (writeMessage m) = some m := by
  obtain ⟨w, hw⟩ : ∃ w, w = writeMessage m := ⟨_, rfl⟩
  have hsplit : HoldsAt w 0 (writeMessage m) := ⟨[], by rw [List.append_nil, hw]; rfl⟩
  have htotal := congrArg List.length hw
  rw [← hw] at hlen ⊢
  unfold writeMessage at hsplit htotal
  simp only [holdsAt_append, List.length_append, length_writeHeader, Nat.zero_add,
    ← Nat.add_assoc] at hsplit htotal
  -- each part of the message at its offset
  obtain ⟨⟨⟨⟨⟨hh, hq⟩, hans⟩, haut⟩, hadd⟩, hopt⟩ := hsplit
  -- every record takes an octet, so the counts fit in their words
  have hcount := recordCount_le m.answer
  have hcount' := recordCount_le m.authority
  have hcount'' := recordCount_le m.additional
  have hquestions : m.question.length ≤ (m.question.flatMap writeQuestion).length :=
    length_le_length_flatMap (fun q => by simp [writeQuestion, packU16]) _
  have hoptCount : optCount m.opt ≤ (writeOpt m.opt).length := by
    cases m.opt with
    | none => exact Nat.zero_le _
    | some o =>
      rw [length_writeOpt_some, optCount]
      omega
  -- three sections, the OPT record behind the last one
  have hanswer := readRecords_section false ha.rrsets 0 [] ha.keys none hans hlen
  have hauthority := readRecords_section false hn.rrsets 0 [] hn.keys none haut hlen
  have hadditional := readRecords_section true hr.rrsets (optCount m.opt) [] hr.keys none hadd
    hlen
  rw [readRecords_opt _ hopt hlen] at hadditional
  rw [Nat.add_zero, readRecords] at hanswer hauthority
  unfold readMessage
  rw [readHeader_of_holdsAt hh]
  dsimp only [Message.header]
  rw [toNat_ofNat_of_lt (by omega), readQuestions_write hq]
  dsimp only
  rw [toNat_ofNat_of_lt (by omega), hanswer]
  dsimp only
  rw [toNat_ofNat_of_lt (by omega), hauthority]
  dsimp only
  rw [toNat_ofNat_of_lt (by omega), hadditional]
  dsimp only
  rw [if_pos htotal.symm]
  rfl

end

/-! ### What is read stands in the octets -/

section

variable {layout : UInt16 → List Piece} {w : Octets}

/-- The names that `readNameAt` reads. -/
def NameAt (w : Octets) (off : Nat) (n : Name) (used : Nat) : Prop := readNameAt w off = some (n, used)

theorem readQuestions_sound {n off : Nat} {qs : List Question} {stop : Nat}
    (h : readQuestions w n off = some (qs, stop)) :
    qs.length = n ∧ QuestionsAt (NameAt w) w off qs stop := by
  induction n generalizing off qs stop with
  | zero =>
    cases h
    exact ⟨rfl, .nil _⟩
  | succ n ih =>
    rw [readQuestions] at h
    split at h
    · cases h
    · rename_i name used hname
      split at h
      · rename_i t c ht hc
        obtain ⟨⟨qs', stop'⟩, hr, he⟩ := Option.map_eq_some_iff.mp h
        cases he
        obtain ⟨hlen, hat⟩ := ih hr
        exact ⟨by rw [List.length_cons, hlen], .cons hname ht hc hat⟩
      · cases h

/-- One record that was read, in front of others. -/
theorem readRecord_sound {off : Nat} {r : Record} (h : readRecord w off = some r)
    {hs : List RRHeader} (hrest : RecordsAt (NameAt w) w r.stop hs) :
    RecordsAt (NameAt w) w off (r.header :: hs) := by
  unfold readRecord at h
  split at h
  · cases h
  · rename_i name used hname
    split at h
    · rename_i t c ttl len ht hc httl hlen
      split_ifs at h with hin
      cases h
      exact .cons hname ht hc httl hlen hin hrest
    · cases h

/-- The OPT record among some records. -/
def optOf (hs : List RRHeader) : Option (UInt16 × UInt32) :=
  (hs.find? fun h => h.rdtype = RRType.OPT).map recordOpt

def Opt.words (o : Opt) : UInt16 × UInt32 := (o.payload, o.ednsflags)

theorem optOf_cons_of_ne {h : RRHeader} (hh : h.rdtype ≠ RRType.OPT) (hs : List RRHeader) :
    optOf (h :: hs) = optOf hs := by
  rw [optOf, List.find?_cons_of_neg (by simpa using hh), optOf]

theorem optOf_cons_of_eq {h : RRHeader} (hh : h.rdtype = RRType.OPT) (hs : List RRHeader) :
    optOf (h :: hs) = some (recordOpt h) := by
  rw [optOf, List.find?_cons_of_pos (by simpa using hh)]
  rfl

theorem optOf_append_of_none {as bs : List RRHeader} (h : optOf as = none) :
    optOf (as ++ bs) = optOf bs := by
  rw [optOf, Option.map_eq_none_iff] at h
  rw [optOf, List.find?_append, h, Option.none_or, optOf]

/-- **Run lemma** for the records of a section: they stand in the octets, and an OPT record among
them is the one that is kept. -/
theorem readRecords_sound {last : Bool} {n off : Nat} {rs rs' : List RRset} {opt opt' : Option Opt}
    {stop : Nat} (h : readRecords layout w last n off rs opt = some (rs', opt', stop))
    {rest : List RRHeader} (hrest : RecordsAt (NameAt w) w stop rest) :
    ∃ hs, hs.length = n ∧ RecordsAt (NameAt w) w off (hs ++ rest) ∧
      (last = false ∨ opt ≠ none → optOf hs = none ∧ opt' = opt) ∧
      (opt = none → opt'.map Opt.words = optOf hs) := by
  induction n generalizing off rs opt with
  | zero =>
    cases h
    refine ⟨[], rfl, hrest, fun _ => ⟨rfl, rfl⟩, ?_⟩
    rintro rfl
    rfl
  | succ n ih =>
    rw [readRecords] at h
    split at h
    · cases h
    · rename_i r hr
      split_ifs at h with hopt haccept htsig
      · -- the OPT record
        obtain ⟨hs, hlen, hat, hkept, -⟩ := ih h
        obtain ⟨hnone, rfl⟩ := hkept (Or.inr (by simp))
        refine ⟨r.header :: hs, by rw [List.length_cons, hlen], readRecord_sound hr hat, ?_, ?_⟩
        · rintro (hf | hf)
          · rw [haccept.1] at hf
            cases hf
          · exact absurd haccept.2.1 hf
        · intro _
          rw [optOf_cons_of_eq hopt]
          rfl
      · -- any other record
        split at h
        · cases h
        · obtain ⟨hs, hlen, hat, hkept, hread⟩ := ih h
          refine ⟨r.header :: hs, by rw [List.length_cons, hlen], readRecord_sound hr hat, ?_, ?_⟩
          · rw [optOf_cons_of_ne hopt]
            exact hkept
          · rw [optOf_cons_of_ne hopt]
            exact hread

theorem readMessage_sound {m : Message} (h : readMessage layout w = some m) :
    ∃ hd stop hs, readHeader w = some hd ∧ m.id = hd.id ∧ m.flags = hd.flags ∧
      m.question.length = hd.qdcount.toNat ∧ QuestionsAt (NameAt w) w 12 m.question stop ∧
      hs.length = hd.ancount.toNat + hd.nscount.toNat + hd.arcount.toNat ∧
      RecordsAt (NameAt w) w stop hs ∧ m.opt.map Opt.words = optOf hs := by
  unfold readMessage at h
  split at h
  · cases h
  rename_i hd hhd
  split at h
  · cases h
  rename_i question off hquestion
  split at h
  · cases h
  rename_i answer opt1 off1 hanswer
  split at h
  · cases h
  rename_i authority opt2 off2 hauthority
  split at h
  · cases h
  rename_i additional opt off3 hadditional
  split_ifs at h
  cases h
  -- from the last section to the first, each in front of the records behind it
  obtain ⟨hlen, hat⟩ := readQuestions_sound hquestion
  obtain ⟨hs3, hlen3, hat3, -, hopt3⟩ := readRecords_sound hadditional (.nil off3)
  rw [List.append_nil] at hat3
  obtain ⟨hs2, hlen2, hat2, hopt2, -⟩ := readRecords_sound hauthority hat3
  obtain ⟨hs1, hlen1, hat1, hopt1, -⟩ := readRecords_sound hanswer hat2
  refine ⟨hd, off, hs1 ++ (hs2 ++ hs3), hhd, rfl, rfl, hlen, hat, ?_, hat1, ?_⟩
  · rw [List.length_append, List.length_append, hlen1, hlen2, hlen3]
    omega
  · rw [optOf_append_of_none (hopt1 (Or.inl rfl)).1, optOf_append_of_none (hopt2 (Or.inl rfl)).1]
    exact hopt3 rfl

end

end Dns
