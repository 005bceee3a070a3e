import Mathlib.Data.Nat.Bitwise

/-!
# Flag words and their halves

A 64-bit flag word may travel as two 32-bit halves. `join_halves` puts them together
again; the other lemmas say which masks see which half, and that flags which are added
are invisible to the masks that do not name them.
-/
namespace Fex.Foundation

/-- The lower half of a word, as a word. -/
def lowHalf (x : UInt64) : UInt64 := x.toUInt32.toUInt64

theorem toNat_lowHalf (x : UInt64) : (lowHalf x).toNat = x.toNat % 2 ^ 32 := by
  simp only [lowHalf, UInt32.toNat_toUInt64, UInt64.toNat_toUInt32]

theorem join_halves (x : UInt64) :
    lowHalf x ||| ((x >>> 32).toUInt32.toUInt64 <<< 32) = x := by
  have bound := x.toNat_lt
  have high : x.toNat / 2 ^ 32 < 2 ^ 32 := by omega
  have low : x.toNat % 2 ^ 32 < 2 ^ 32 := Nat.mod_lt _ (by decide)
  have shifted : (x.toNat / 2 ^ 32) <<< 32 < 2 ^ 64 := by
    rw [Nat.shiftLeft_eq]
    omega
  have distance : (32 : UInt64).toNat % 64 = 32 := rfl
  apply UInt64.toNat_inj.mp
  simp only [UInt64.toNat_or, UInt64.toNat_shiftLeft, UInt32.toNat_toUInt64,
    UInt64.toNat_toUInt32, UInt64.toNat_shiftRight, toNat_lowHalf, distance,
    Nat.shiftRight_eq_div_pow]
  -- The halves do not overlap, so joining them is an addition.
  rw [Nat.mod_eq_of_lt high, Nat.mod_eq_of_lt shifted, Nat.or_comm,
    ← Nat.shiftLeft_add_eq_or_of_lt low, Nat.shiftLeft_eq]
  omega

/-- A mask of the lower half does not need the upper one. -/
theorem lowHalf_and_of_low (x : UInt64) {mask : UInt64} (low : mask.toNat < 2 ^ 32) :
    lowHalf x &&& mask = x &&& mask := by
  apply UInt64.toNat_inj.mp
  simp only [UInt64.toNat_and, toNat_lowHalf]
  apply Nat.eq_of_testBit_eq
  intro i
  simp only [Nat.testBit_and, Nat.testBit_mod_two_pow]
  by_cases inside : i < 32
  · simp [inside]
  · have clear : mask.toNat.testBit i = false :=
      Nat.testBit_lt_two_pow (Nat.lt_of_lt_of_le low (Nat.pow_le_pow_right (by decide) (by omega)))
    simp [clear]

/-- A mask of the upper half finds nothing in the lower one. -/
theorem lowHalf_and_of_high (x : UInt64) {mask : UInt64} (high : mask.toNat % 2 ^ 32 = 0) :
    lowHalf x &&& mask = 0 := by
  apply UInt64.toNat_inj.mp
  simp only [UInt64.toNat_and, toNat_lowHalf, UInt64.toNat_zero]
  apply Nat.eq_of_testBit_eq
  intro i
  simp only [Nat.testBit_and, Nat.testBit_mod_two_pow, Nat.zero_testBit]
  by_cases inside : i < 32
  · have clear : (mask.toNat % 2 ^ 32).testBit i = false := by
      rw [high]
      exact Nat.zero_testBit i
    simp only [Nat.testBit_mod_two_pow, inside, decide_true, Bool.true_and] at clear
    simp [clear]
  · simp [inside]

/-- A mask that does not name the added flags does not see them. -/
theorem or_and_of_disjoint (x : UInt64) {added mask : UInt64} (disjoint : added &&& mask = 0) :
    (x ||| added) &&& mask = x &&& mask := by
  have none := congrArg UInt64.toNat disjoint
  apply UInt64.toNat_inj.mp
  simp only [UInt64.toNat_and, UInt64.toNat_or, UInt64.toNat_zero] at none ⊢
  rw [Nat.and_or_distrib_right, none, Nat.or_zero]

theorem or_and_added (x added : UInt64) : (x ||| added) &&& added = added := by
  apply UInt64.toNat_inj.mp
  simp only [UInt64.toNat_and, UInt64.toNat_or]
  apply Nat.eq_of_testBit_eq
  intro i
  simp only [Nat.testBit_and, Nat.testBit_or]
  cases added.toNat.testBit i <;> simp

end Fex.Foundation
