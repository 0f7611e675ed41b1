import Adventure.Number.Binary64
import Mathlib.Algebra.Group.Nat.Defs

/-!
# Whole numbers as doubles

A whole number of 64 bits is a finite double.
-/

namespace Adventure.Binary64

/-- A significand has 53 bits, or is the next power of two. -/
theorem significand_le {n exponent : Nat} (h : n < 2 ^ (exponent + 1)) :
    significand n exponent ≤ 2 ^ 53 := by
  unfold significand
  split
  · next he =>
    have hpow : 2 ^ (exponent + 1) * 2 ^ (52 - exponent) = 2 ^ 53 := by
      rw [← Nat.pow_add]
      congr 1
      omega
    rw [← hpow, Nat.pow_eq]
    exact Nat.mul_le_mul_right _ (Nat.le_of_lt h)
  · next he =>
    have hpow : 2 ^ (exponent + 1) = 2 ^ (exponent - 52) * 2 ^ 53 := by
      rw [← Nat.pow_add]
      congr 1
      omega
    have hfloor : n / 2 ^ (exponent - 52) < 2 ^ 53 :=
      Nat.div_lt_of_lt_mul (by rw [← hpow]; exact h)
    dsimp only
    rw [Nat.pow_eq]
    split <;> omega

theorem magnitudeBits_lt {n : Nat} (h : n < 2 ^ 65) : magnitudeBits n < 0x7ff0000000000000 := by
  unfold magnitudeBits
  split
  · decide
  · next hn =>
    have hlog : n.log2 < 65 := (Nat.log2_lt hn).2 h
    have hsignificand : significand n n.log2 ≤ 2 ^ 53 := significand_le Nat.lt_log2_self
    omega

theorem isFinite_ofInt {n : Int} (h : n.natAbs < 2 ^ 65) : (ofInt n).isFinite = true := by
  have hbits := magnitudeBits_lt h
  have hfield : (ofInt n).exponentField.toNat ≠ 0x7ff := by
    have hmask : ∀ k, k &&& 0x7ff = k % 2 ^ 11 := fun k => Nat.and_two_pow_sub_one_eq_mod k 11
    have hshift : (52 : UInt64).toNat % 64 = 52 := rfl
    rw [exponentField, ofInt, UInt64.toNat_and, UInt64.toNat_shiftRight, UInt64.toNat_ofNat',
      show (0x7ff : UInt64).toNat = 0x7ff from rfl, hmask, hshift, Nat.shiftRight_eq_div_pow]
    split <;> omega
  rw [isFinite, bne_iff_ne]
  intro heq
  exact hfield (congrArg UInt64.toNat heq)

end Adventure.Binary64
