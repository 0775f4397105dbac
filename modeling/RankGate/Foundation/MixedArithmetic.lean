/- Module: RankGate/Foundation/MixedArithmetic
   layer: foundation
   digest: Sums and differences of bitwise operations, on naturals and on machine words. -/

import Mathlib.Tactic.Common

set_option autoImplicit false
set_option relaxedAutoImplicit false

namespace MixedArithmetic

theorem xor_add_two_mul_and (a b : Nat) : (a ^^^ b) + 2 * (a &&& b) = a + b := by
  induction a using Nat.strongRecOn generalizing b with
  | ind a ih =>
    by_cases ha : a = 0
    · rw [ha, Nat.zero_xor, Nat.zero_and]
      omega
    · have hrest := ih (a / 2) (by omega) (b / 2)
      rw [← Nat.xor_div_two, ← Nat.and_div_two] at hrest
      have hxor : (a ^^^ b) % 2 = 1 ↔ ¬(a % 2 = 1 ↔ b % 2 = 1) := Nat.xor_mod_two_eq_one
      have hand : (a &&& b) % 2 = 1 ↔ a % 2 = 1 ∧ b % 2 = 1 := Nat.and_mod_two_eq_one
      omega

theorem or_eq_xor_add_and (a b : Nat) : a ||| b = (a ^^^ b) + (a &&& b) := by
  induction a using Nat.strongRecOn generalizing b with
  | ind a ih =>
    by_cases ha : a = 0
    · rw [ha, Nat.zero_xor, Nat.zero_and, Nat.zero_or]
      omega
    · have hrest := ih (a / 2) (by omega) (b / 2)
      rw [← Nat.xor_div_two, ← Nat.and_div_two, ← Nat.or_div_two] at hrest
      have hor : (a ||| b) % 2 = 1 ↔ a % 2 = 1 ∨ b % 2 = 1 := Nat.or_mod_two_eq_one
      have hxor : (a ^^^ b) % 2 = 1 ↔ ¬(a % 2 = 1 ↔ b % 2 = 1) := Nat.xor_mod_two_eq_one
      have hand : (a &&& b) % 2 = 1 ↔ a % 2 = 1 ∧ b % 2 = 1 := Nat.and_mod_two_eq_one
      omega

/-- Words add as their bits do, carries doubled. -/
theorem word_xor_add_two_mul_and (a b : UInt64) : (a ^^^ b) + 2 * (a &&& b) = a + b := by
  apply UInt64.toNat_inj.mp
  have hnat := xor_add_two_mul_and a.toNat b.toNat
  simp only [UInt64.toNat_add, UInt64.toNat_mul, UInt64.toNat_xor, UInt64.toNat_and]
  rw [show (2 : UInt64).toNat = 2 from rfl]
  omega

theorem word_or_sub_and (a b : UInt64) : (a ||| b) - (a &&& b) = a ^^^ b := by
  have hle : a.toNat &&& b.toNat ≤ a.toNat ||| b.toNat := by
    rw [or_eq_xor_add_and]
    omega
  apply UInt64.toNat_inj.mp
  rw [UInt64.toNat_sub_of_le _ _ (by rw [UInt64.le_iff_toNat_le]; simpa using hle),
    UInt64.toNat_or, UInt64.toNat_and, UInt64.toNat_xor, or_eq_xor_add_and]
  omega

end MixedArithmetic
