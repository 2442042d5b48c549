import Mathlib

/-!
# Blocks of addresses

Addresses of `w` bits.  The block of a prefix is the interval of the addresses that have their first
`p` bits in common with it (`InBlock`).  A program finds out by a mask: `and_netmask_eq_iff` says that
this is the same, whatever the bits behind the prefix are.

An `Interface` is an address as it is written, with the length of its prefix, and a `Network` is the
interface without the bits behind the prefix, which it carries as a field.
`Interface.contains_network` is the membership test of a network, stated on the interface.

`inBlock_append` embeds the addresses of a smaller width behind a fixed prefix.
-/

namespace Cidr

/-! ### Blocks and masks -/

section

variable {w : Nat}

/-- `a` lies between the first and the last address that start with the first `p` bits of `b`. -/
def InBlock (b : BitVec w) (p : Nat) (a : BitVec w) : Prop :=
  b.toNat / 2 ^ (w - p) * 2 ^ (w - p) ≤ a.toNat ∧
    a.toNat < b.toNat / 2 ^ (w - p) * 2 ^ (w - p) + 2 ^ (w - p)

instance (b : BitVec w) (p : Nat) (a : BitVec w) : Decidable (InBlock b p a) :=
  inferInstanceAs (Decidable (_ ∧ _))

/-- The mask with `p` leading ones. -/
def netmask (w p : Nat) : BitVec w := BitVec.allOnes w ^^^ (BitVec.allOnes w >>> p)

theorem inBlock_iff_div {b a : BitVec w} {p : Nat} :
    InBlock b p a ↔ a.toNat / 2 ^ (w - p) = b.toNat / 2 ^ (w - p) := by
  have hpos : 0 < 2 ^ (w - p) := Nat.two_pow_pos _
  unfold InBlock
  rw [← Nat.succ_mul, ← Nat.le_div_iff_mul_le hpos, ← Nat.div_lt_iff_lt_mul hpos]
  omega

theorem inBlock_iff_shift {b a : BitVec w} {p : Nat} :
    InBlock b p a ↔ a >>> (w - p) = b >>> (w - p) := by
  rw [inBlock_iff_div, ← BitVec.toNat_inj, BitVec.toNat_ushiftRight, BitVec.toNat_ushiftRight,
    Nat.shiftRight_eq_div_pow, Nat.shiftRight_eq_div_pow]

/-- The mask keeps the bits from `w - p` on. -/
theorem getLsbD_netmask (w p i : Nat) :
    (netmask w p).getLsbD i = (decide (i < w) && decide (w ≤ p + i)) := by
  rw [netmask, BitVec.getLsbD_xor, BitVec.getLsbD_ushiftRight, BitVec.getLsbD_allOnes,
    BitVec.getLsbD_allOnes]
  by_cases hi : i < w
  · by_cases hp : p + i < w
    · simp [hi, hp, Nat.not_le.mpr hp]
    · simp [hi, hp, Nat.not_lt.mp hp]
  · simp [hi, show ¬ p + i < w by omega]

/-- The addresses of a block have the bits of the prefix in common. -/
theorem inBlock_iff_bits {b a : BitVec w} {p : Nat} (hp : p ≤ w) :
    InBlock b p a ↔ ∀ i, w ≤ p + i → a.getLsbD i = b.getLsbD i := by
  rw [inBlock_iff_shift]
  constructor
  · intro h i hi
    have hbit := congrArg (fun x => BitVec.getLsbD x (i - (w - p))) h
    simp only [BitVec.getLsbD_ushiftRight] at hbit
    rwa [show w - p + (i - (w - p)) = i by omega] at hbit
  · intro h
    apply BitVec.eq_of_getLsbD_eq
    intro i hi
    rw [BitVec.getLsbD_ushiftRight, BitVec.getLsbD_ushiftRight]
    exact h _ (by omega)

/-- **Masked addresses agree** exactly when one lies in the block of the other. -/
theorem and_netmask_eq_iff {a b : BitVec w} {p : Nat} (hp : p ≤ w) :
    a &&& netmask w p = b &&& netmask w p ↔ InBlock b p a := by
  rw [inBlock_iff_bits hp]
  constructor
  · intro h i hi
    have hbit := congrArg (fun x => BitVec.getLsbD x i) h
    simp only [BitVec.getLsbD_and, getLsbD_netmask] at hbit
    by_cases hlt : i < w
    · simpa [hlt, hi] using hbit
    · rw [BitVec.getLsbD_of_ge _ _ (Nat.not_lt.mp hlt), BitVec.getLsbD_of_ge _ _ (Nat.not_lt.mp hlt)]
  · intro h
    apply BitVec.eq_of_getLsbD_eq
    intro i hi
    rw [BitVec.getLsbD_and, BitVec.getLsbD_and, getLsbD_netmask]
    by_cases hle : w ≤ p + i
    · rw [h i hle]
    · simp [hle]

theorem InBlock.refl (b : BitVec w) (p : Nat) : InBlock b p b := inBlock_iff_div.mpr rfl

/-- **Nested blocks**: one block lies in another when its prefix is no shorter and its address lies
there. -/
theorem forall_inBlock_iff {b c : BitVec w} {p q : Nat} (hp : p ≤ w) (hq : q ≤ w) :
    (∀ a, InBlock b p a → InBlock c q a) ↔ q ≤ p ∧ InBlock c q b := by
  constructor
  · intro h
    refine ⟨?_, h b (.refl b p)⟩
    by_contra hlt
    -- the address with the last bit of the longer prefix flipped
    have hflip : InBlock b p (b ^^^ BitVec.twoPow w (w - q)) := by
      rw [inBlock_iff_bits hp]
      intro i hi
      have hne : w - q ≠ i := by omega
      simp [BitVec.getLsbD_xor, BitVec.getLsbD_twoPow, hne]
    have h1 := (inBlock_iff_bits hq).mp (h _ hflip) (w - q) (by omega)
    have h2 := (inBlock_iff_bits hq).mp (h b (.refl b p)) (w - q) (by omega)
    rw [← h2, BitVec.getLsbD_xor, BitVec.getLsbD_twoPow] at h1
    have hin : w - q < w := by omega
    simp [hin] at h1
  · rintro ⟨hle, hb⟩ a ha
    rw [inBlock_iff_bits hq] at hb ⊢
    intro i hi
    rw [← hb i hi]
    exact (inBlock_iff_bits hp).mp ha i (by omega)

theorem and_netmask_idem (a : BitVec w) (p : Nat) :
    a &&& netmask w p &&& netmask w p = a &&& netmask w p := by
  rw [BitVec.and_assoc, BitVec.and_self]

end

/-! ### Interfaces and networks -/

/-- An address with the length of its prefix. -/
structure Interface (w : Nat) where
  address : BitVec w
  prefixlen : Nat
  le : prefixlen ≤ w
  deriving DecidableEq

/-- A network: its first address and the length of its prefix. -/
structure Network (w : Nat) where
  address : BitVec w
  prefixlen : Nat
  le : prefixlen ≤ w
  /-- there are no bits behind the prefix -/
  masked : address &&& netmask w prefixlen = address
  deriving DecidableEq

section

variable {w : Nat}

/-- The network that the interface lies in. -/
def Interface.network (i : Interface w) : Network w :=
  ⟨i.address &&& netmask w i.prefixlen, i.prefixlen, i.le, and_netmask_idem ..⟩

/-- `a in n`. -/
def Network.contains (n : Network w) (a : BitVec w) : Bool := a &&& netmask w n.prefixlen = n.address

/-- **Membership in the network of an interface** is membership in its block. -/
theorem Interface.contains_network (i : Interface w) (a : BitVec w) :
    i.network.contains a = true ↔ InBlock i.address i.prefixlen a := by
  rw [Network.contains, decide_eq_true_iff]
  exact and_netmask_eq_iff i.le

/-- The whole prefix: one address. -/
theorem inBlock_width {b a : BitVec w} : InBlock b w a ↔ a = b := by
  rw [inBlock_iff_shift, Nat.sub_self, BitVec.ushiftRight_zero, BitVec.ushiftRight_zero]

end

/-! ### Addresses behind a fixed prefix -/

section

variable {u v : Nat}

/-- Behind a prefix of `u` bits the blocks are those of the smaller width. -/
theorem inBlock_append {h : BitVec u} {b a : BitVec v} {p : Nat} (hp : p ≤ v) :
    InBlock (h ++ b) (u + p) (h ++ a) ↔ InBlock b p a := by
  have hwidth : u + v - (u + p) = v - p := by omega
  have hpow : 2 ^ v = 2 ^ p * 2 ^ (v - p) := by
    rw [← Nat.pow_add]
    congr 1
    omega
  have hdiv : ∀ x : BitVec v, (h ++ x).toNat / 2 ^ (v - p)
      = h.toNat * 2 ^ p + x.toNat / 2 ^ (v - p) := by
    intro x
    have hsplit : h.toNat * 2 ^ v + x.toNat = h.toNat * 2 ^ p * 2 ^ (v - p) + x.toNat := by
      rw [hpow, Nat.mul_assoc]
    rw [BitVec.toNat_append, Nat.shiftLeft_eq, ← Nat.mul_comm (2 ^ v),
      ← Nat.two_pow_add_eq_or_of_lt x.isLt, Nat.mul_comm, hsplit,
      Nat.add_comm, Nat.add_mul_div_right _ _ (Nat.two_pow_pos _), Nat.add_comm]
  rw [inBlock_iff_div, inBlock_iff_div, hwidth, hdiv, hdiv, Nat.add_left_cancel_iff]

end

end Cidr
