import DnsFixtures.Dns.Octets

/-!
# Python exceptions

The exceptions that decide what the programs do: which handler catches what.  `DNSException` is the
root class of dnspython's exceptions.
-/

namespace DnsFixtures

inductive DNSException where
  | formError | nameTooLong | labelTooLong | emptyLabel | badEscape | absoluteConcatenation | tooBig
  deriving DecidableEq, Repr

inductive Raised where
  | dnsException (e : DNSException)
  /-- `struct.error` -/
  | structError
  /-- `DNSFormatError` of the proxy, with its text -/
  | dnsFormatError (message : String)
  | eofError
  /-- `socket.timeout` -/
  | timeout
  /-- any other `OSError` -/
  | osError
  deriving DecidableEq, Repr

def Raised.isDNSException : Raised → Bool
  | .dnsException _ => true
  | _ => false

/-- A computation that returns has returned from its first part. -/
theorem bind_eq_ok {ε α β : Type} {x : Except ε α} {f : α → Except ε β} {b : β}
    (h : x >>= f = .ok b) : ∃ a, x = .ok a ∧ f a = .ok b := by
  cases x with
  | error e => cases h
  | ok a => exact ⟨a, rfl, h⟩

/-- A loop over a list returns when its body does on every element. -/
theorem mapM_eq_ok_iff {ε α β : Type} {f : α → Except ε β} {p : α → Prop} {g : α → β}
    (hf : ∀ a b, f a = .ok b ↔ p a ∧ b = g a) {as : List α} {bs : List β} :
    as.mapM f = .ok bs ↔ (∀ a ∈ as, p a) ∧ bs = as.map g := by
  induction as generalizing bs with
  | nil =>
    rw [List.mapM_nil]
    constructor
    · intro h
      cases h
      exact ⟨by simp, rfl⟩
    · rintro ⟨-, rfl⟩
      rfl
  | cons a as ih =>
    rw [List.mapM_cons, List.forall_mem_cons]
    constructor
    · intro h
      obtain ⟨b, hb, h⟩ := bind_eq_ok h
      obtain ⟨bs', hbs, h⟩ := bind_eq_ok h
      obtain ⟨ha, rfl⟩ := (hf a b).mp hb
      obtain ⟨has, rfl⟩ := ih.mp hbs
      cases h
      exact ⟨⟨ha, has⟩, rfl⟩
    · rintro ⟨⟨ha, has⟩, rfl⟩
      rw [(hf a (g a)).mpr ⟨ha, rfl⟩, ih.mpr ⟨has, rfl⟩]
      rfl

/-- `struct.pack("!H", n)`. -/
def packLength (n : Nat) : Except Raised Dns.Octets :=
  if n < 65536 then .ok (Dns.packU16 (UInt16.ofNat n)) else .error .structError

theorem packLength_of_lt {n : Nat} (h : n < 65536) :
    packLength n = .ok (Dns.packU16 (UInt16.ofNat n)) := if_pos h

end DnsFixtures
