import DnsFixtures.Dns.Name

/-!
# The presentation format of domain names

`readName` reads a name from master-file text: an unescaped dot ends a label, a backslash takes the
next octet literally or three decimal digits as an octet.  `writeName` is the text of a name, with
everything that is not a plain printing octet escaped.

The reader is a fold of `Scan.step` over the octets, so texts are composed by `scan_append`:

* `readName_writeName`: every name is read back from its text, whatever octets its labels hold;
* `readName_dotted`: labels free of dots and backslashes are read as they stand;
* `exists_readName_front_iff`: whether arbitrary octets in front of such labels can be read, which
  `readableBefore` decides from those octets alone.
-/

namespace Dns

/-! ### Reading -/

inductive TextError where
  | emptyLabel | badEscape | octetOverflow | labelTooLong | nameTooLong
  deriving DecidableEq, Repr

/-- How much of an escape has been read: nothing, the backslash, or `count` digits. -/
inductive Escape where
  | none
  | start
  | digits (count total : Nat)
  deriving DecidableEq, Repr

/-- The reader between two octets: the labels that are complete and the one being read. -/
structure Scan where
  labels : List Label
  label : Label
  escape : Escape
  deriving DecidableEq

def isDigit (c : UInt8) : Bool := 48 ≤ c && c ≤ 57

def Scan.init : Scan := ⟨[], [], .none⟩

def Scan.step (s : Scan) (c : UInt8) : Except TextError Scan :=
  match s.escape with
  | .none =>
    if c = 46 then
      if s.label = [] then .error .emptyLabel else .ok ⟨s.labels ++ [s.label], [], .none⟩
    else if c = 92 then .ok { s with escape := .start }
    else .ok { s with label := s.label ++ [c] }
  | .start =>
    if isDigit c then .ok { s with escape := .digits 1 (c.toNat - 48) }
    else .ok ⟨s.labels, s.label ++ [c], .none⟩
  | .digits count total =>
    if isDigit c then
      let total := total * 10 + (c.toNat - 48)
      if count = 2 then
        if 255 < total then .error .octetOverflow
        else .ok ⟨s.labels, s.label ++ [UInt8.ofNat total], .none⟩
      else .ok { s with escape := .digits (count + 1) total }
    else .error .badEscape

def scan (s : Scan) (text : Octets) : Except TextError Scan := text.foldlM Scan.step s

/-- The labels at the end of the text; an escape must be complete there. -/
def Scan.finish (s : Scan) : Except TextError (List Label) :=
  if s.escape = .none then .ok (if s.label = [] then s.labels else s.labels ++ [s.label])
  else .error .badEscape

def checkLabels (ls : List Label) : Except TextError Name :=
  match Name.ofLabels? ls with
  | some n => .ok n
  | none => .error (if ∃ l ∈ ls, 63 < l.length then .labelTooLong else .nameTooLong)

/-- The absolute name a text denotes; `@` alone and the dot alone denote the root. -/
def readName (text : Octets) : Except TextError Name :=
  if text = [64] ∨ text = [46] then .ok Name.root
  else do
    let s ← scan .init text
    checkLabels (← s.finish)

/-! ### Writing -/

/-- The octets `"().;\@$`, which carry meaning in master files. -/
def specialOctets : List UInt8 := [34, 40, 41, 46, 59, 92, 64, 36]

def escapeOctet (c : UInt8) : Octets :=
  if c ∈ specialOctets then [92, c]
  else if 32 < c ∧ c < 127 then [c]
  else [92, UInt8.ofNat (48 + c.toNat / 100), UInt8.ofNat (48 + c.toNat / 10 % 10),
    UInt8.ofNat (48 + c.toNat % 10)]

def writeLabel (l : Label) : Octets := l.flatMap escapeOctet

def writeName (n : Name) : Octets :=
  if n.labels = [] then [46] else n.labels.flatMap fun l => writeLabel l ++ [46]

/-! ### Composing scans -/

theorem scan_nil (s : Scan) : scan s [] = .ok s := rfl

theorem scan_append (s : Scan) (a b : Octets) :
    scan s (a ++ b) = (scan s a).bind fun t => scan t b := List.foldlM_append ..

theorem scan_append_ok {s t : Scan} {a : Octets} (b : Octets) (h : scan s a = .ok t) :
    scan s (a ++ b) = scan t b := by
  rw [scan_append, h]
  rfl

theorem scan_append_error {s : Scan} {e : TextError} {a : Octets} (b : Octets)
    (h : scan s a = .error e) : scan s (a ++ b) = .error e := by
  rw [scan_append, h]
  rfl

theorem scan_cons_ok {s t : Scan} {c : UInt8} (b : Octets) (h : s.step c = .ok t) :
    scan s (c :: b) = scan t b := by
  rw [scan, List.foldlM_cons, h]
  rfl

theorem scan_cons_error {s : Scan} {e : TextError} {c : UInt8} (b : Octets)
    (h : s.step c = .error e) : scan s (c :: b) = .error e := by
  rw [scan, List.foldlM_cons, h]
  rfl

theorem scan_dot {ls : List Label} {l : Label} (hl : l ≠ []) (b : Octets) :
    scan ⟨ls, l, .none⟩ (46 :: b) = scan ⟨ls ++ [l], [], .none⟩ b :=
  scan_cons_ok b (by simp [Scan.step, hl])

/-- Octets that mean nothing to the reader are taken over. -/
theorem scan_plain {p : Octets} (hp : ∀ c ∈ p, c ≠ 46 ∧ c ≠ 92) (ls : List Label) (l : Label)
    (b : Octets) : scan ⟨ls, l, .none⟩ (p ++ b) = scan ⟨ls, l ++ p, .none⟩ b := by
  induction p generalizing l with
  | nil => simp
  | cons c p ih =>
    have hc := hp c List.mem_cons_self
    have hstep : Scan.step ⟨ls, l, .none⟩ c = .ok ⟨ls, l ++ [c], .none⟩ := by
      simp [Scan.step, hc.1, hc.2]
    rw [List.cons_append, scan_cons_ok _ hstep, ih fun x hx => hp x (List.mem_cons_of_mem _ hx),
      List.append_assoc, List.singleton_append]

theorem scan_escapeOctet (ls : List Label) (l : Label) (c : UInt8) (b : Octets) :
    scan ⟨ls, l, .none⟩ (escapeOctet c ++ b) = scan ⟨ls, l ++ [c], .none⟩ b := by
  unfold escapeOctet
  split_ifs with hs hp
  · -- a special octet behind a backslash
    have hd : isDigit c = false := by
      revert hs
      exact forall_octet (p := fun c => c ∈ specialOctets → isDigit c = false)
        (by decide +kernel) c
    have h1 : Scan.step ⟨ls, l, .none⟩ 92 = .ok ⟨ls, l, .start⟩ := by simp [Scan.step]
    have h2 : Scan.step ⟨ls, l, .start⟩ c = .ok ⟨ls, l ++ [c], .none⟩ := by simp [Scan.step, hd]
    rw [List.cons_append, scan_cons_ok _ h1, List.cons_append, scan_cons_ok _ h2, List.nil_append]
  · refine scan_plain (p := [c]) (fun x hx => ?_) ls l b
    rw [List.mem_singleton] at hx
    subst hx
    constructor <;> (rintro rfl; exact hs (by decide))
  · -- three decimal digits behind a backslash
    have hc := c.toNat_lt
    have digit : ∀ n < 10, isDigit (UInt8.ofNat (48 + n)) = true ∧
        (UInt8.ofNat (48 + n)).toNat = 48 + n := by decide
    obtain ⟨d1, e1⟩ := digit (c.toNat / 100) (by omega)
    obtain ⟨d2, e2⟩ := digit (c.toNat / 10 % 10) (by omega)
    obtain ⟨d3, e3⟩ := digit (c.toNat % 10) (by omega)
    have h0 : Scan.step ⟨ls, l, .none⟩ 92 = .ok ⟨ls, l, .start⟩ := by simp [Scan.step]
    have h1 : Scan.step ⟨ls, l, .start⟩ (UInt8.ofNat (48 + c.toNat / 100))
        = .ok ⟨ls, l, .digits 1 (c.toNat / 100)⟩ := by
      simp only [Scan.step, d1, if_true, e1, Nat.add_sub_cancel_left]
    have h2 : Scan.step ⟨ls, l, .digits 1 (c.toNat / 100)⟩ (UInt8.ofNat (48 + c.toNat / 10 % 10))
        = .ok ⟨ls, l, .digits 2 (c.toNat / 10)⟩ := by
      have hval : c.toNat / 100 * 10 + c.toNat / 10 % 10 = c.toNat / 10 := by omega
      simp only [Scan.step, d2, if_true, e2, Nat.add_sub_cancel_left, hval, Nat.reduceEqDiff,
        if_false, Nat.reduceAdd]
    have h3 : Scan.step ⟨ls, l, .digits 2 (c.toNat / 10)⟩ (UInt8.ofNat (48 + c.toNat % 10))
        = .ok ⟨ls, l ++ [c], .none⟩ := by
      have hval : c.toNat / 10 * 10 + c.toNat % 10 = c.toNat := by omega
      have hle : ¬ 255 < c.toNat := by omega
      simp only [Scan.step, d3, if_true, e3, Nat.add_sub_cancel_left, hval, hle, if_false,
        UInt8.ofNat_toNat]
    simp only [List.cons_append, List.nil_append]
    rw [scan_cons_ok _ h0, scan_cons_ok _ h1, scan_cons_ok _ h2, scan_cons_ok _ h3]

theorem scan_writeLabel (ls : List Label) (l r : Label) (b : Octets) :
    scan ⟨ls, l, .none⟩ (writeLabel r ++ b) = scan ⟨ls, l ++ r, .none⟩ b := by
  induction r generalizing l with
  | nil => simp [writeLabel]
  | cons c r ih =>
    rw [writeLabel, List.flatMap_cons, List.append_assoc, scan_escapeOctet]
    have := ih (l ++ [c])
    rwa [writeLabel, List.append_assoc] at this

theorem scan_writeLabels {rs : List Label} (hrs : ∀ l ∈ rs, l ≠ []) (ls : List Label) :
    scan ⟨ls, [], .none⟩ (rs.flatMap fun l => writeLabel l ++ [46]) = .ok ⟨ls ++ rs, [], .none⟩ := by
  induction rs generalizing ls with
  | nil => simp [scan_nil]
  | cons r rs ih =>
    have hr := hrs r List.mem_cons_self
    rw [List.flatMap_cons, List.append_assoc, scan_writeLabel, List.nil_append,
      List.singleton_append, scan_dot hr, ih fun l hl => hrs l (List.mem_cons_of_mem _ hl)]
    simp

/-! ### Round trip -/

theorem checkLabels_of_legal {ls : List Label} (h : LegalLabels ls) :
    checkLabels ls = .ok ⟨ls, h⟩ := by
  rw [checkLabels, Name.ofLabels?_of_legal h]

theorem writeName_ne {n : Name} (h : n.labels ≠ []) :
    ¬ (writeName n = [64] ∨ writeName n = [46]) := by
  rw [writeName, if_neg h]
  obtain ⟨l, ls, hls⟩ := List.exists_cons_of_ne_nil h
  have hl := n.legal.label_ne_nil l (hls ▸ List.mem_cons_self)
  obtain ⟨c, cs, rfl⟩ := List.exists_cons_of_ne_nil hl
  have hpos : ∃ x xs, escapeOctet c = x :: xs := by
    unfold escapeOctet
    split_ifs <;> exact ⟨_, _, rfl⟩
  obtain ⟨x, xs, hx⟩ := hpos
  -- at least one octet stands in front of the dot
  simp only [hls, List.flatMap_cons, writeLabel, hx, List.cons_append, List.cons.injEq,
    List.append_eq_nil_iff, reduceCtorEq, and_false, false_and, or_self, not_false_eq_true]

/-- **Round trip**: a name is read back from its text. -/
theorem readName_writeName (n : Name) : readName (writeName n) = .ok n := by
  by_cases h : n.labels = []
  · have hroot : n = Name.root := Name.ext h
    subst hroot
    rfl
  · rw [readName, if_neg (writeName_ne h), writeName, if_neg h, Scan.init,
      scan_writeLabels n.legal.label_ne_nil]
    exact checkLabels_of_legal n.legal

/-- A plain label in front of the text of a name. -/
theorem readName_cons_writeName {l : Label} (hl : ∀ c ∈ l, c ≠ 46 ∧ c ≠ 92) {n : Name}
    (hn : n.labels ≠ []) (h : LegalLabels (l :: n.labels)) :
    readName (l ++ 46 :: writeName n) = .ok ⟨l :: n.labels, h⟩ := by
  have hne := h.label_ne_nil l List.mem_cons_self
  have hnot : ¬ (l ++ 46 :: writeName n = [64] ∨ l ++ 46 :: writeName n = [46]) := by
    obtain ⟨c, cs, rfl⟩ := List.exists_cons_of_ne_nil hne
    simp
  rw [readName, if_neg hnot, Scan.init, scan_plain hl, List.nil_append, scan_dot hne, writeName,
    if_neg hn, scan_writeLabels n.legal.label_ne_nil]
  exact checkLabels_of_legal h

theorem escapeOctet_ascii (c : UInt8) : ∀ b ∈ escapeOctet c, b.toNat < 128 :=
  forall_octet (p := fun c => ∀ b ∈ escapeOctet c, b.toNat < 128) (by decide +kernel) c

theorem writeName_ascii (n : Name) : ∀ b ∈ writeName n, b.toNat < 128 := by
  intro b hb
  unfold writeName at hb
  split_ifs at hb
  · rw [List.mem_singleton.mp hb]
    decide
  · obtain ⟨l, -, hl⟩ := List.mem_flatMap.mp hb
    rcases List.mem_append.mp hl with hl | hl
    · obtain ⟨c, -, hc⟩ := List.mem_flatMap.mp hl
      exact escapeOctet_ascii c b hc
    · rw [List.mem_singleton.mp hl]
      decide

/-! ### Plain labels -/

/-- A label without dots and backslashes. -/
def PlainLabel (l : Label) : Prop := l ≠ [] ∧ ∀ c ∈ l, c ≠ 46 ∧ c ≠ 92

instance (l : Label) : Decidable (PlainLabel l) := inferInstanceAs (Decidable (_ ∧ _))

/-- The labels as they stand, each followed by a dot. -/
def dotted (ls : List Label) : Octets := ls.flatMap fun l => l ++ [46]

@[simp] theorem dotted_nil : dotted [] = [] := rfl

@[simp] theorem dotted_cons (l : Label) (ls : List Label) :
    dotted (l :: ls) = l ++ 46 :: dotted ls := by
  simp [dotted]

theorem scan_dotted {rs : List Label} (hrs : ∀ l ∈ rs, PlainLabel l) (ls : List Label) :
    scan ⟨ls, [], .none⟩ (dotted rs) = .ok ⟨ls ++ rs, [], .none⟩ := by
  induction rs generalizing ls with
  | nil => simp [scan_nil]
  | cons r rs ih =>
    have hr := hrs r List.mem_cons_self
    rw [dotted_cons, scan_plain hr.2, List.nil_append, scan_dot hr.1,
      ih fun l hl => hrs l (List.mem_cons_of_mem _ hl)]
    simp

theorem dotted_ne {l : Label} (hl : l ≠ []) (t : Octets) (ls : List Label) :
    ¬ (l ++ 46 :: (t ++ dotted ls) = [64] ∨ l ++ 46 :: (t ++ dotted ls) = [46]) := by
  obtain ⟨c, cs, rfl⟩ := List.exists_cons_of_ne_nil hl
  simp

theorem readName_dotted {ls : List Label} (hp : ∀ l ∈ ls, PlainLabel l) (hne : ls ≠ [])
    (h : LegalLabels ls) : readName (dotted ls) = .ok ⟨ls, h⟩ := by
  obtain ⟨l, rs, rfl⟩ := List.exists_cons_of_ne_nil hne
  have hnot := dotted_ne (hp l List.mem_cons_self).1 [] rs
  rw [List.nil_append, ← dotted_cons] at hnot
  rw [readName, if_neg hnot, Scan.init, scan_dotted hp]
  exact checkLabels_of_legal h

/-! ### Arbitrary octets in front of plain labels -/

/-- Whether `front`, a dot and a plain label of `n` octets can be read: every escape in `front` is
complete and none exceeds 255, no label between two dots is empty, and where `front` ends in a
backslash, which takes the dot, the joined label is not too long. -/
def readableBefore (n : Nat) (front : Octets) : Bool :=
  match scan .init front with
  | .ok ⟨_, l, .none⟩ => l ≠ []
  | .ok ⟨_, l, .start⟩ => l.length + 1 + n ≤ 63
  | _ => false

/-- The octets the labels of a scan account for. -/
def Scan.size (s : Scan) : Nat := nameLength s.labels + s.label.length

theorem Scan.step_size {s t : Scan} {c : UInt8} (h : s.step c = .ok t) :
    t.size ≤ s.size + 1 ∧ ((∀ l ∈ s.labels, l ≠ []) → ∀ l ∈ t.labels, l ≠ []) := by
  obtain ⟨ls, l, e⟩ := s
  have hpush := nameLength_append ls [l]
  rw [nameLength_cons, nameLength_nil] at hpush
  cases e with
  | none =>
    simp only [Scan.step] at h
    split_ifs at h with hd hl hb <;> cases h
    · refine ⟨by simp only [Scan.size, List.length_nil]; omega, fun hls x hx => ?_⟩
      rcases List.mem_append.mp hx with hx | hx
      · exact hls x hx
      · exact List.mem_singleton.mp hx ▸ hl
    · exact ⟨Nat.le_succ _, id⟩
    · exact ⟨by simp [Scan.size]; omega, id⟩
  | start =>
    simp only [Scan.step] at h
    split_ifs at h <;> cases h
    · exact ⟨Nat.le_succ _, id⟩
    · exact ⟨by simp [Scan.size]; omega, id⟩
  | digits count total =>
    simp only [Scan.step] at h
    split_ifs at h <;> cases h
    · exact ⟨by simp [Scan.size]; omega, id⟩
    · exact ⟨Nat.le_succ _, id⟩

theorem scan_size {s t : Scan} {text : Octets} (h : scan s text = .ok t) :
    t.size ≤ s.size + text.length ∧ ((∀ l ∈ s.labels, l ≠ []) → ∀ l ∈ t.labels, l ≠ []) := by
  induction text generalizing s with
  | nil =>
    cases h
    exact ⟨Nat.le_refl _, id⟩
  | cons c text ih =>
    cases hstep : s.step c with
    | error e => rw [scan_cons_error _ hstep] at h; cases h
    | ok u =>
      rw [scan_cons_ok _ hstep] at h
      obtain ⟨h1, h2⟩ := Scan.step_size hstep
      obtain ⟨h3, h4⟩ := ih h
      exact ⟨by rw [List.length_cons]; omega, fun hs => h4 (h2 hs)⟩

theorem length_lt_nameLength {ls : List Label} {l : Label} (h : l ∈ ls) :
    l.length + 1 < nameLength ls := by
  induction ls with
  | nil => cases h
  | cons x ls ih =>
    rw [nameLength_cons]
    rcases List.mem_cons.mp h with rfl | h
    · have := nameLength_pos ls
      omega
    · have := ih h
      omega

/-- Labels already read in front of legal ones are legal while their octets are few. -/
theorem legalLabels_front {ls : List Label} {rest : List Label} (hne : ∀ l ∈ ls, l ≠ [])
    (h63 : nameLength ls ≤ 65) (hrest : LegalLabels rest)
    (htotal : nameLength ls + nameLength rest ≤ 256) : LegalLabels (ls ++ rest) := by
  refine ⟨fun l hl => ?_, fun l hl => ?_, ?_⟩
  · exact (List.mem_append.mp hl).elim (hne l) (hrest.label_ne_nil l)
  · rcases List.mem_append.mp hl with hl | hl
    · have := length_lt_nameLength hl
      omega
    · exact hrest.label_le l hl
  · have := nameLength_append ls rest
    omega

theorem exists_checkLabels_iff (ls : List Label) :
    (∃ n, checkLabels ls = .ok n) ↔ LegalLabels ls := by
  constructor
  · rintro ⟨n, hn⟩
    unfold checkLabels at hn
    cases ho : Name.ofLabels? ls with
    | none => rw [ho] at hn; cases hn
    | some m => exact Name.ofLabels?_eq_some ho ▸ m.legal
  · exact fun h => ⟨_, checkLabels_of_legal h⟩

/-- **Arbitrary octets in front of plain labels** are read exactly when `readableBefore` says so:
what decides is `front` and the length of the label behind it. -/
theorem exists_readName_front_iff {front : Octets} {first : Label} {rest : List Label}
    (hfront : front ≠ []) (h63 : front.length ≤ 63) (hp : ∀ l ∈ first :: rest, PlainLabel l)
    (hrest : LegalLabels (first :: rest)) (htotal : nameLength (first :: rest) ≤ 191) :
    (∃ n, readName (front ++ 46 :: dotted (first :: rest)) = .ok n)
      ↔ readableBefore first.length front = true := by
  have hnot : ¬ (front ++ 46 :: dotted (first :: rest) = [64]
      ∨ front ++ 46 :: dotted (first :: rest) = [46]) := by
    obtain ⟨c, cs, rfl⟩ := List.exists_cons_of_ne_nil hfront
    simp
  have hpf := hp first List.mem_cons_self
  have hpr : ∀ l ∈ rest, PlainLabel l := fun l hl => hp l (List.mem_cons_of_mem _ hl)
  rw [readName, if_neg hnot]
  unfold readableBefore
  cases hs : scan .init front with
  | error e =>
    rw [scan_append_error _ hs]
    simp [Bind.bind, Except.bind]
  | ok s =>
    obtain ⟨ls, l, e⟩ := s
    obtain ⟨hsize, hlabels⟩ := scan_size hs
    have hne : ∀ x ∈ ls, x ≠ [] := hlabels (by simp [Scan.init])
    clear hlabels
    simp only [Scan.size, Scan.init, nameLength_nil, List.length_nil] at hsize
    rw [scan_append_ok _ hs]
    cases e with
    | none =>
      by_cases hl : l = []
      · -- the dot ends an empty label
        subst hl
        rw [scan_cons_error (e := .emptyLabel) _ (by simp [Scan.step])]
        simp [Bind.bind, Except.bind]
      · rw [scan_dot hl, scan_dotted hp]
        have hlen := nameLength_append ls [l]
        rw [nameLength_cons, nameLength_nil] at hlen
        have hlegal : LegalLabels ((ls ++ [l]) ++ first :: rest) := by
          refine legalLabels_front (fun x hx => ?_) (by omega) hrest (by omega)
          rcases List.mem_append.mp hx with hx | hx
          · exact hne x hx
          · exact List.mem_singleton.mp hx ▸ hl
        simp only [Bind.bind, Except.bind, Scan.finish, if_true, hl, ne_eq, not_false_eq_true,
          decide_true, iff_true]
        exact (exists_checkLabels_iff _).mpr hlegal
    | start =>
      -- the backslash takes the dot into the label
      have hstep : Scan.step ⟨ls, l, .start⟩ 46 = .ok ⟨ls, l ++ [46], .none⟩ := rfl
      rw [scan_cons_ok _ hstep, dotted_cons, scan_plain hpf.2, scan_dot (by simp),
        scan_dotted hpr]
      simp only [Bind.bind, Except.bind, Scan.finish, if_true, decide_eq_true_eq]
      rw [exists_checkLabels_iff]
      have hlen := nameLength_append ls [l ++ [46] ++ first]
      rw [nameLength_cons, nameLength_nil, List.length_append, List.length_append,
        List.length_singleton] at hlen
      rw [nameLength_cons] at htotal
      constructor
      · intro h
        have := h.label_le (l ++ [46] ++ first) (by simp)
        simp only [List.length_append, List.length_singleton] at this
        omega
      · intro h
        have hlegal : LegalLabels ([l ++ [46] ++ first] ++ rest) := by
          have hr := LegalLabels.of_append_right (a := [first]) hrest
          refine legalLabels_front (by simp) ?_ hr ?_
          · simp only [nameLength_cons, nameLength_nil, List.length_append, List.length_singleton]
            omega
          · simp only [nameLength_cons, nameLength_nil, List.length_append, List.length_singleton]
            omega
        rw [List.append_assoc]
        refine legalLabels_front hne (by omega) hlegal ?_
        have := nameLength_append [l ++ [46] ++ first] rest
        simp only [nameLength_cons, nameLength_nil, List.length_append, List.length_singleton]
          at this ⊢
        omega
    | digits count total =>
      -- a dot is no digit
      rw [scan_cons_error (e := .badEscape) _ (by simp [Scan.step, isDigit])]
      simp [Bind.bind, Except.bind]

end Dns
