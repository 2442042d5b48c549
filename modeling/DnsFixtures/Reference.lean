import DnsFixtures.Dnspython

/-!
# A reference for dnspython

`Reference.dnspython` answers every call of `Dnspython` by the definitions of `Dns`: the name reader
of backward pointers, the presentation format and the message codec, which compresses nothing.
`Reference.documented` checks that it has the documented behaviour, so that the assumptions on
dnspython contradict neither each other nor the formats.

The data of the record parsers is not interpreted: a text stands for its first 2000 octets.
-/

namespace DnsFixtures.Reference

open Dns

def nameFromWire (w : Octets) (off : Nat) : Except Raised (Name × Nat) :=
  match readNameAt w off with
  | some r => .ok r
  | none => .error (.dnsException .formError)

def nameFromText (s : String) : Except Raised Name :=
  (readName (textOctets s)).mapError Dnspython.raisedOf

def messageFromWire (w : Octets) : Except Raised Message :=
  match readMessage Dnspython.layout w with
  | some m => .ok m
  | none => .error (.dnsException .formError)

def makeResponse (query : Message) : Except Raised Message :=
  if hasFlag query.flags Flag.QR then .error (.dnsException .formError)
  else .ok
    { id := query.id
      flags := Flag.QR ||| (query.flags &&& (Flag.opcodeMask ||| Flag.RD))
      question := query.question
      answer := []
      authority := []
      additional := []
      opt := query.opt.map fun _ => ⟨8192, 0, []⟩ }

def toWire (m : Message) (limit : Nat) (preferTruncation : Bool) : Except Raised Octets :=
  if fitting writeMessage m limit = m.rrsetCount then .ok (writeMessage m)
  else if preferTruncation then .ok (writeMessage (truncate writeMessage m limit))
  else .error (.dnsException .tooBig)

def dnspython : Dnspython where
  nameFromWire := nameFromWire
  nameFromText := nameFromText
  nameToText := fun n => octetsText (writeName n)
  octetsFromText := fun _ s => .ok ((textOctets s).take 2000)
  messageFromWire := messageFromWire
  makeResponse := makeResponse
  toWire := toWire
  render := writeMessage

/-! ### It behaves as documented -/

theorem nameFromWire_eq_ok_iff {w : Octets} {off : Nat} {n : Name} {used : Nat} :
    nameFromWire w off = .ok (n, used) ↔ readNameAt w off = some (n, used) := by
  unfold nameFromWire
  cases readNameAt w off <;> simp

theorem messageFromWire_eq_ok_iff {w : Octets} {m : Message} :
    messageFromWire w = .ok m ↔ readMessage Dnspython.layout w = some m := by
  unfold messageFromWire
  cases readMessage Dnspython.layout w <;> simp

theorem nameAt_eq (w : Octets) : dnspython.NameAt w = NameAt w := by
  funext off n used
  exact propext nameFromWire_eq_ok_iff

theorem fits_of_conforms {d : Dnspython} {t : UInt16} {ps : List Piece} {x : Rdata}
    (h : d.Conforms t ps x) : Fits ps x := by
  induction ps generalizing x with
  | nil =>
    cases x with
    | nil => trivial
    | cons f fs => cases h
  | cons p ps ih =>
    cases x with
    | nil => cases p <;> cases ps <;> cases h
    | cons f fs =>
      cases p with
      | fixed n =>
        cases f with
        | octets bs => exact ⟨h.1, ih h.2⟩
        | name _ => cases h
      | name =>
        cases f with
        | octets bs => cases h
        | name n => exact ih h
      | rest => cases f <;> cases fs <;> cases ps <;> trivial

theorem writableSection {s : List RRset} (h : dnspython.RenderableSection s) :
    WritableSection Dnspython.layout s := by
  refine ⟨h.keys, fun r hr => ?_⟩
  have hr' := h.rrsets r hr
  have hkind : ∀ t ∈ Dnspython.dataTypes, t ≠ RRType.OPT ∧ t ≠ RRType.TSIG := by decide
  exact ⟨hkind r.rdtype hr'.rdtype, hr'.ne_nil, fun x hx => fits_of_conforms (hr'.conforms x hx)⟩

theorem and_cd_of_query (f : UInt16) :
    (Flag.QR ||| (f &&& (Flag.opcodeMask ||| Flag.RD))) &&& ~~~Flag.CD
      = Flag.QR ||| (f &&& (Flag.opcodeMask ||| Flag.RD)) := by
  rw [or_and_distrib, UInt16.and_assoc]
  rfl

/-- Identifier and flags stand in front of everything else. -/
theorem writeMessage_eq (m : Message) : ∃ rest, (∀ f, writeMessage { m with flags := f }
    = packU16 m.id ++ packU16 f ++ rest) ∧ 8 ≤ rest.length := by
  refine ⟨packU16 m.header.qdcount ++ packU16 m.header.ancount ++ packU16 m.header.nscount ++
    packU16 m.header.arcount ++ m.question.flatMap writeQuestion ++ m.answer.flatMap writeRRset ++
    m.authority.flatMap writeRRset ++ m.additional.flatMap writeRRset ++ writeOpt m.opt,
    fun f => ?_, ?_⟩
  · simp only [writeMessage, writeHeader, Message.header, List.append_assoc]
  · simp only [List.length_append, length_packU16]
    omega

theorem messageFromWire_eq : dnspython.messageFromWire = messageFromWire := rfl

theorem render_eq : dnspython.render = writeMessage := rfl

theorem render_decodes {m : Message} (hm : dnspython.Renderable m)
    (hlen : (writeMessage m).length ≤ 65535) : messageFromWire (writeMessage m) = .ok m :=
  messageFromWire_eq_ok_iff.mpr (readMessage_writeMessage (writableSection hm.answer)
    (writableSection hm.authority) (writableSection hm.additional) hlen)

theorem toWire_of_ne {m : Message} {limit : Nat} (h : fitting writeMessage m limit ≠ m.rrsetCount)
    (p : Bool) : toWire m limit p
      = if p then .ok (writeMessage (truncate writeMessage m limit))
        else .error (.dnsException .tooBig) := if_neg h

theorem documented : dnspython.Documented where
  nameFromWire_iff := by
    intro w off n
    rw [← readNameAt_iff]
    exact exists_congr fun used => nameFromWire_eq_ok_iff
  nameFromWire_plain := fun w off n h => nameFromWire_eq_ok_iff.mpr (readNameAt_of_holdsAt h)
  nameFromWire_raises := by
    intro w off e h
    change nameFromWire w off = .error e at h
    unfold nameFromWire at h
    split at h
    · cases h
    · cases h
      rfl
  nameFromText_eq := fun s _ => rfl
  nameToText_eq := fun n => rfl
  octetsFromText_fixtures := by
    intro p _
    refine ⟨_, rfl, ?_⟩
    rw [List.length_take]
    exact Nat.min_le_left ..
  messageFromWire_raises := by
    intro w e h
    change messageFromWire w = .error e at h
    unfold messageFromWire at h
    split at h
    · cases h
    · cases h
      rfl
  messageFromWire_header := by
    intro w m h
    rw [nameAt_eq]
    exact readMessage_sound (messageFromWire_eq_ok_iff.mp h)
  makeResponse_query := by
    intro q hqr _
    exact ⟨_, if_neg hqr, rfl, and_cd_of_query q.flags, rfl, rfl, rfl, rfl, fun h => by simp [h]⟩
  render_header := by
    intro m
    obtain ⟨rest, hrest, hlen⟩ := writeMessage_eq m
    have hm : dnspython.render m = packU16 m.id ++ packU16 m.flags ++ rest := hrest m.flags
    rw [hm]
    refine ⟨⟨rest, rfl⟩, ?_⟩
    rw [List.length_append, List.length_append, length_packU16, length_packU16]
    omega
  render_flags := by
    intro m f
    obtain ⟨rest, hrest, -⟩ := writeMessage_eq m
    have hm : dnspython.render m = packU16 m.id ++ packU16 m.flags ++ rest := hrest m.flags
    have hf : dnspython.render { m with flags := f } = packU16 m.id ++ packU16 f ++ rest := hrest f
    rw [hm, hf]
    rfl
  render_length := fun m _ => Nat.le_of_eq (length_writeMessage m)
  render_decodes := by
    intro m hm hlen
    rw [render_eq] at hlen
    rw [messageFromWire_eq, render_eq]
    exact ⟨m, render_decodes hm hlen, Message.SameAs.refl m⟩
  toWire_whole := fun m limit p _ _ _ h => if_pos h
  toWire_tooBig := fun m limit _ _ _ h => toWire_of_ne h false
  toWire_truncates := fun m limit _ _ _ h => toWire_of_ne h true

theorem writesQuestion : dnspython.WritesQuestion := by
  intro m q hq
  obtain ⟨qs, hqs⟩ : ∃ qs, m.question = q :: qs := by
    cases hm : m.question with
    | nil =>
      rw [hm] at hq
      cases hq
    | cons q' qs =>
      rw [hm] at hq
      cases hq
      exact ⟨qs, rfl⟩
  rw [render_eq, writeMessage, hqs, List.flatMap_cons]
  simp only [List.append_assoc]
  rw [← List.append_assoc]
  exact List.prefix_append ..

theorem documentedSkeleton : dnspython.DocumentedSkeleton where
  nameFromWire_used := fun w off n used h => readNameAt_endsAt (nameFromWire_eq_ok_iff.mp h)
  writesQuestion := writesQuestion
  makeResponse_fits := by
    intro q r f h hq
    change makeResponse q = .ok r at h
    unfold makeResponse at h
    split_ifs at h
    cases h
    have hquestion : (q.question.map fun q => nameLength q.name.labels + 4).sum ≤ 259 := by
      cases hqs : q.question with
      | nil => simp
      | cons q' qs =>
        rw [hqs, List.length_cons] at hq
        obtain rfl := List.length_eq_zero_iff.mp (by omega : qs.length = 0)
        have hname := q'.name.legal.total_le
        simp only [List.map_cons, List.map_nil, List.sum_cons, List.sum_nil]
        omega
    rw [render_eq, length_writeMessage, Message.size]
    cases q.opt with
    | none =>
      simp only [Option.map_none, List.append_nil, List.map_nil, List.sum_nil]
      omega
    | some o =>
      simp only [Option.map_some, List.append_nil, List.map_nil, List.sum_nil, List.length_nil]
      omega

theorem refusesResponses : dnspython.RefusesResponses := fun _ h => ⟨_, if_pos h⟩

/-! ### Queries -/

/-- A query with one question in class IN, identifier `0x1234` and RD set, on the wire. -/
def ask (ls : List Label) (kind : UInt16) : Octets :=
  [0x12, 0x34, 1, 0, 0, 1, 0, 0, 0, 0, 0, 0] ++ wireLabels ls ++ packU16 kind ++ [0, 1]

/-- The labels of a name under the nonce of 32 zeros. -/
def underZeros (front : List Label) : List Label :=
  front ++ List.replicate 32 48 :: [textOctets "fresh", textOctets "example", textOctets "test"]

/-- A query for a key under this nonce. -/
def askKey (key : String) (kind : UInt16) : Octets := ask (underZeros [textOctets key]) kind

/-- This query as a message. -/
def query (n : Name) (kind : UInt16) : Message where
  id := 0x1234
  flags := Flag.RD
  question := [⟨n, kind, RRClass.IN⟩]
  answer := []
  authority := []
  additional := []
  opt := none

theorem ask_eq (n : Name) (kind : UInt16) : ask n.labels kind = writeMessage (query n kind) := by
  have hheader : (query n kind).header = ⟨0x1234, Flag.RD, 1, 0, 0, 0⟩ := rfl
  have hwrite : writeHeader ⟨0x1234, Flag.RD, 1, 0, 0, 0⟩
      = [0x12, 0x34, 1, 0, 0, 1, 0, 0, 0, 0, 0, 0] := by decide
  have hclass : packU16 RRClass.IN = [0, 1] := by decide
  rw [writeMessage, hheader, hwrite, ask]
  simp only [query, List.flatMap_cons, List.flatMap_nil, writeQuestion, hclass, writeOpt,
    List.append_nil, List.append_assoc]

theorem length_ask_le (n : Name) (kind : UInt16) : (ask n.labels kind).length ≤ 271 := by
  have hname := n.legal.total_le
  simp only [ask, List.length_append, length_wireLabels, length_packU16, List.length_cons,
    List.length_nil]
  omega

/-- It is read back. -/
theorem messageFromWire_ask (n : Name) (kind : UInt16) :
    dnspython.messageFromWire (ask n.labels kind) = .ok (query n kind) := by
  have hnil : WritableSection Dnspython.layout [] := writableSection ⟨by simp, by simp⟩
  have hlen : (writeMessage (query n kind)).length ≤ 65535 :=
    Nat.le_trans (ask_eq n kind ▸ length_ask_le n kind) (by decide)
  rw [messageFromWire_eq, ask_eq, messageFromWire_eq_ok_iff]
  exact readMessage_writeMessage hnil hnil hnil hlen

theorem exists_of_isOk {ε α : Type} {x : Except ε α} (h : x.isOk = true) : ∃ a, x = .ok a := by
  cases x with
  | ok a => exact ⟨a, rfl⟩
  | error e => cases h

end DnsFixtures.Reference
