import Mathlib.Algebra.Ring.Nat
import BeltHeap.Word

/-
  The arithmetic meaning of the masks that align words to a
  power of two.

  Main statements:
    * `Word.isPowerOfTwo_iff`
    * `Word.alignDown_two_pow`
    * `Word.alignUp_two_pow`
    * `Word.isAligned_two_pow`
    * `Word.alignUp_bounds`
-/

------------------------------------------------------------
-- Masks
------------------------------------------------------------

namespace BeltHeap

namespace Word

theorem limit_eq : limit = 2 ^ 64 := by
  decide

/- The numbers that are found to be powers of two are those. -/
theorem isPowerOfTwo_iff
    {n : Nat} :
    isPowerOfTwo n = true ↔ ∃ k, n = 2 ^ k := by
  unfold isPowerOfTwo
  rw [Bool.and_eq_true, bne_iff_ne, beq_iff_eq,
    Nat.one_shiftLeft]
  constructor
  · exact fun hPower => ⟨_, hPower.2⟩
  · rintro ⟨k, rfl⟩
    rw [Nat.log2_two_pow]
    exact ⟨Nat.ne_of_gt (Nat.two_pow_pos k), rfl⟩

/- A shift of one within the word loses nothing. -/
theorem shiftLeft_one
    {k : Nat}
    (hk : k < 64) :
    shiftLeft 1 k = .ok (1 <<< k) := by
  have hLt : 1 <<< k < limit := by
    rw [Nat.one_shiftLeft, limit_eq]
    exact Nat.pow_lt_pow_right (by decide) hk
  unfold shiftLeft wrap
  rw [if_pos hk, Nat.mod_eq_of_lt hLt]

/- The bits below a power of two are one less than it. -/
theorem lowBits_two_pow
    {k : Nat}
    (hk : k < 64) :
    lowBits (2 ^ k) = 2 ^ k - 1 := by
  have hPos : 0 < 2 ^ k := Nat.two_pow_pos k
  have hLt : 2 ^ k < 2 ^ 64 :=
    Nat.pow_lt_pow_right (by decide) hk
  unfold lowBits wrap
  rw [limit_eq]
  have hSum :
      2 ^ k + (2 ^ 64 - 1) = (2 ^ k - 1) + 2 ^ 64 := by
    omega
  rw [hSum, Nat.add_mod_right, Nat.mod_eq_of_lt (by omega)]

/- Clearing the bits below a power of two divides it out. -/
theorem and_highBits
    {k : Nat}
    (hk : k < 64)
    {n : Nat}
    (hValue : n < limit) :
    n &&& highBits (2 ^ k) = n / 2 ^ k * 2 ^ k := by
  have hPos : 0 < 2 ^ k := Nat.two_pow_pos k
  have hLt : 2 ^ k < 2 ^ 64 :=
    Nat.pow_lt_pow_right (by decide) hk
  have hMask :
      highBits (2 ^ k) = 2 ^ 64 - (2 ^ k - 1 + 1) := by
    unfold highBits
    rw [lowBits_two_pow hk, limit_eq]
    omega
  rw [hMask]
  rw [limit_eq] at hValue
  apply Nat.eq_of_testBit_eq
  intro i
  rw [Nat.testBit_and,
    Nat.testBit_two_pow_sub_succ (by omega),
    Nat.testBit_two_pow_sub_one, Nat.testBit_mul_two_pow]
  by_cases hHigh : i < 64
  · by_cases hLow : i < k
    · have hNot : ¬ k ≤ i := by omega
      simp [hLow, hNot]
    · have hLe : k ≤ i := by omega
      simp [hHigh, hLow, hLe, Nat.testBit_div_two_pow]
  · have hZero : n.testBit i = false := by
      apply Nat.testBit_lt_two_pow
      exact Nat.lt_of_lt_of_le hValue
        (Nat.pow_le_pow_right (by decide) (by omega))
    by_cases hLow : k ≤ i
    · simp [hZero, hLow, Nat.testBit_div_two_pow]
    · simp [hZero, hLow]

------------------------------------------------------------
-- Alignment
------------------------------------------------------------

/- Aligning down drops the remainder. -/
theorem alignDown_two_pow
    {k : Nat}
    (hk : k < 64)
    {n : Nat}
    (hValue : n < limit) :
    alignDown n (2 ^ k) = n / 2 ^ k * 2 ^ k :=
  and_highBits hk hValue

/- Aligning up wraps first and drops the remainder then. -/
theorem alignUp_two_pow
    {k : Nat}
    (hk : k < 64)
    (n : Nat) :
    alignUp n (2 ^ k) =
      (n + (2 ^ k - 1)) % limit / 2 ^ k * 2 ^ k := by
  have hPos : 0 < 2 ^ k := Nat.two_pow_pos k
  have hWrap :
      wrap (n + 2 ^ k + (limit - 1)) =
        (n + (2 ^ k - 1)) % limit := by
    have hLimit : 0 < limit := by decide
    have hSum :
        n + 2 ^ k + (limit - 1) =
          n + (2 ^ k - 1) + limit := by
      omega
    unfold wrap
    rw [hSum, Nat.add_mod_right]
  unfold alignUp
  rw [hWrap]
  exact and_highBits hk (Nat.mod_lt _ (by decide))

/- A word is aligned when nothing remains. -/
theorem isAligned_two_pow
    {k : Nat}
    (hk : k < 64)
    (n : Nat) :
    isAligned n (2 ^ k) = decide (n % 2 ^ k = 0) := by
  unfold isAligned
  rw [lowBits_two_pow hk, Nat.and_two_pow_sub_one_eq_mod]
  rfl

/-
  Where nothing wraps, aligning up gives the first multiple that
  is not below the word.
-/
theorem alignUp_bounds
    {k : Nat}
    (hk : k < 64)
    {n : Nat}
    (hFits : n + (2 ^ k - 1) < limit) :
    alignUp n (2 ^ k) % 2 ^ k = 0 ∧
      n ≤ alignUp n (2 ^ k) ∧
      alignUp n (2 ^ k) < n + 2 ^ k := by
  have hPos : 0 < 2 ^ k := Nat.two_pow_pos k
  rw [alignUp_two_pow hk, Nat.mod_eq_of_lt hFits]
  have hSplit :=
    Nat.div_add_mod' (n + (2 ^ k - 1)) (2 ^ k)
  have hRest :=
    Nat.mod_lt (n + (2 ^ k - 1)) hPos
  refine ⟨Nat.mul_mod_left _ _, ?_, ?_⟩ <;> omega

/-
  Where nothing wraps, aligning down gives the last multiple
  that is not above the word.
-/
theorem alignDown_bounds
    {k : Nat}
    (hk : k < 64)
    {n : Nat}
    (hValue : n < limit) :
    alignDown n (2 ^ k) % 2 ^ k = 0 ∧
      alignDown n (2 ^ k) ≤ n ∧
      n < alignDown n (2 ^ k) + 2 ^ k := by
  have hPos : 0 < 2 ^ k := Nat.two_pow_pos k
  rw [alignDown_two_pow hk hValue]
  have hSplit := Nat.div_add_mod' n (2 ^ k)
  have hRest := Nat.mod_lt n hPos
  refine ⟨Nat.mul_mod_left _ _, ?_, ?_⟩ <;> omega

end Word

end BeltHeap
