import Mathlib.Order.Bounds.Basic
import BeltHeap.Proofs.Alignment

/-
  Alignment as rounding: down to the greatest multiple that is
  not above a word, and up to the least multiple that is not
  below it, or to zero where that multiple is no word.

  Main statements:
    * `Word.isAligned_iff_dvd`
    * `Word.isGreatest_alignDown`
    * `Word.isLeast_multipleAbove`
    * `Word.alignUp_eq`
    * `Word.masks_round_to_multiples`
-/

------------------------------------------------------------
-- Multiples
------------------------------------------------------------

namespace BeltHeap

namespace Word

/- The least multiple that is not below a number. -/
def multipleAbove
    (n : Nat)
    (align : Nat) : Nat :=
  (n + (align - 1)) / align * align

/- The multiple above a number is the least one not below it. -/
theorem isLeast_multipleAbove
    {align : Nat}
    (hPos : 0 < align)
    (n : Nat) :
    IsLeast {m | align ∣ m ∧ n ≤ m} (multipleAbove n align) := by
  have hSplit := Nat.div_add_mod' (n + (align - 1)) align
  have hRest := Nat.mod_lt (n + (align - 1)) hPos
  have hDvd : align ∣ multipleAbove n align :=
    Nat.dvd_mul_left _ _
  unfold multipleAbove at hDvd ⊢
  refine ⟨⟨hDvd, by omega⟩, ?_⟩
  rintro m ⟨hMultiple, hAbove⟩
  exact Nat.le_of_lt_add_of_dvd (by omega) hDvd hMultiple

/- A multiple is the least one that is not below itself. -/
theorem multipleAbove_of_dvd
    {n align : Nat}
    (hPos : 0 < align)
    (hDvd : align ∣ n) :
    multipleAbove n align = n :=
  (isLeast_multipleAbove hPos n).unique
    ⟨⟨hDvd, Nat.le_refl n⟩, fun _ hAbove => hAbove.2⟩

/- Between two neighbouring multiples lies no multiple. -/
theorem multipleAbove_of_not_dvd
    {n align : Nat}
    (hPos : 0 < align)
    (hNot : ¬ align ∣ n) :
    multipleAbove n align = n / align * align + align := by
  have hSplit := Nat.div_add_mod' n align
  have hRest := Nat.mod_lt n hPos
  have hSome : n % align ≠ 0 := fun hZero =>
    hNot (Nat.dvd_of_mod_eq_zero hZero)
  have hBelow : align ∣ n / align * align :=
    Nat.dvd_mul_left _ _
  refine (isLeast_multipleAbove hPos n).unique
    ⟨⟨Nat.dvd_add_self_right.mpr hBelow, by omega⟩, ?_⟩
  rintro m ⟨hMultiple, hAbove⟩
  have hLt : n / align * align < m := by omega
  by_contra hLess
  have hLe :=
    Nat.le_of_lt_add_of_dvd (Nat.lt_of_not_le hLess) hMultiple
      hBelow
  omega

------------------------------------------------------------
-- Masks as Roundings
------------------------------------------------------------

variable {n k : Nat}

theorem isAligned_iff_dvd
    (hk : k < 64)
    (n : Nat) :
    isAligned n (2 ^ k) = true ↔ 2 ^ k ∣ n := by
  rw [isAligned_two_pow hk, decide_eq_true_iff,
    Nat.dvd_iff_mod_eq_zero]

/- Aligning down gives the greatest multiple below a word. -/
theorem isGreatest_alignDown
    (hk : k < 64)
    (hValue : n < limit) :
    IsGreatest {m | 2 ^ k ∣ m ∧ m ≤ n} (alignDown n (2 ^ k)) := by
  rcases alignDown_bounds hk hValue with
    ⟨hMultiple, hBelow, hNext⟩
  have hDvd := Nat.dvd_of_mod_eq_zero hMultiple
  refine ⟨⟨hDvd, hBelow⟩, ?_⟩
  rintro m ⟨hOther, hLe⟩
  exact Nat.le_of_lt_add_of_dvd (by omega) hOther hDvd

/-
  Aligning up gives the least multiple above a word.  Where it
  is no word, the sum wraps around to less than the alignment,
  and nothing is left of it.
-/
theorem alignUp_eq
    (hk : k < 64)
    (hValue : n < limit) :
    alignUp n (2 ^ k) =
      if multipleAbove n (2 ^ k) < limit
      then multipleAbove n (2 ^ k) else 0 := by
  have hPos : 0 < 2 ^ k := Nat.two_pow_pos k
  have hAlign : 2 ^ k < limit :=
    Nat.pow_lt_pow_right (by decide) hk
  have hSplit := Nat.div_add_mod' (n + (2 ^ k - 1)) (2 ^ k)
  have hRest := Nat.mod_lt (n + (2 ^ k - 1)) hPos
  rw [alignUp_two_pow hk]
  unfold multipleAbove
  by_cases hFits : n + (2 ^ k - 1) < limit
  · rw [Nat.mod_eq_of_lt hFits, if_pos (by omega)]
  · have hWraps :
        (n + (2 ^ k - 1)) % limit = n + (2 ^ k - 1) - limit := by
      rw [Nat.mod_eq_sub_mod (by omega),
        Nat.mod_eq_of_lt (by omega)]
    -- the limit is a multiple itself, so the sum stays above it
    have hLimit : 2 ^ k ∣ limit :=
      Nat.pow_dvd_pow 2 (Nat.le_of_lt hk)
    have hAbove :
        limit ≤ (n + (2 ^ k - 1)) / 2 ^ k * 2 ^ k :=
      Nat.le_of_lt_add_of_dvd (by omega) hLimit
        (Nat.dvd_mul_left _ _)
    rw [hWraps, if_neg (by omega),
      Nat.div_eq_of_lt (by omega), Nat.zero_mul]

theorem aligned_eq_self
    (hk : k < 64)
    (hValue : n < limit)
    (hDvd : 2 ^ k ∣ n) :
    alignUp n (2 ^ k) = n ∧ alignDown n (2 ^ k) = n := by
  constructor
  · rw [alignUp_eq hk hValue,
      multipleAbove_of_dvd (Nat.two_pow_pos k) hDvd,
      if_pos hValue]
  · rw [alignDown_two_pow hk hValue, Nat.div_mul_cancel hDvd]

/-
  A word that is no multiple is rounded up to the next one, or
  to 0 where that is no word.
-/
theorem alignUp_of_not_dvd
    (hk : k < 64)
    (hValue : n < limit)
    (hNot : ¬ 2 ^ k ∣ n) :
    alignUp n (2 ^ k) =
      if alignDown n (2 ^ k) + 2 ^ k < limit
      then alignDown n (2 ^ k) + 2 ^ k else 0 := by
  rw [alignUp_eq hk hValue, alignDown_two_pow hk hValue,
    multipleAbove_of_not_dvd (Nat.two_pow_pos k) hNot]

/-
  The two directions differ for a word that is no multiple, also
  where the upper one wraps.
-/
theorem alignUp_ne_alignDown
    (hk : k < 64)
    (hValue : n < limit)
    (hNot : ¬ 2 ^ k ∣ n) :
    alignUp n (2 ^ k) ≠ alignDown n (2 ^ k) := by
  have hPos : 0 < 2 ^ k := Nat.two_pow_pos k
  have hAlign : 2 ^ k < limit :=
    Nat.pow_lt_pow_right (by decide) hk
  rw [alignUp_of_not_dvd hk hValue hNot]
  split <;> omega

/-
  For every word and every power of two that is a word, aligning
  down gives the greatest multiple that is not above the word,
  exactly the multiples are aligned, and aligning up gives the
  least multiple that is not below the word, or zero where that
  is no word.  So both directions agree on the words that are
  aligned, and on any other one they are one alignment apart
  unless the upper multiple is no word.
-/
theorem masks_round_to_multiples
    (value align : Nat)
    (hValue : value < limit)
    (hAlign : align < limit)
    (hPower : ∃ k, align = 2 ^ k) :
    IsGreatest {m | align ∣ m ∧ m ≤ value}
        (alignDown value align) ∧
      (isAligned value align = true ↔ align ∣ value) ∧
      (∃ up, IsLeast {m | align ∣ m ∧ value ≤ m} up ∧
        alignUp value align = if up < limit then up else 0) ∧
      (alignUp value align = alignDown value align ↔
        isAligned value align = true) ∧
      (isAligned value align = false →
        alignUp value align =
          if alignDown value align + align < limit
          then alignDown value align + align else 0) := by
  rcases hPower with ⟨k, rfl⟩
  have hk : k < 64 :=
    (Nat.pow_lt_pow_iff_right (a := 2) (by decide)).mp hAlign
  have hDvd := isAligned_iff_dvd hk value
  refine
    ⟨isGreatest_alignDown hk hValue, hDvd,
      ⟨_, isLeast_multipleAbove (Nat.two_pow_pos k) value,
        alignUp_eq hk hValue⟩,
      ?_, ?_⟩
  · constructor
    · intro hSame
      by_contra hNot
      exact
        alignUp_ne_alignDown hk hValue
          (fun hMultiple => hNot (hDvd.mpr hMultiple)) hSame
    · intro hAligned
      rcases aligned_eq_self hk hValue (hDvd.mp hAligned) with
        ⟨hUp, hDown⟩
      rw [hUp, hDown]
  · intro hNot
    refine alignUp_of_not_dvd hk hValue fun hMultiple => ?_
    exact Bool.false_ne_true (hNot.symm.trans (hDvd.mpr hMultiple))

/-
  The last word is rounded down to the last page, and rounding
  it up to a page wraps around.
-/
theorem masks_round_to_multiples_last :
    limit - 1 < limit ∧ pageBytes < limit ∧
      (∃ k, pageBytes = 2 ^ k) ∧
      IsGreatest {m | pageBytes ∣ m ∧ m ≤ limit - 1}
        (limit - pageBytes) ∧
      alignUp (limit - 1) pageBytes = 0 := by
  have hPower : ∃ k, pageBytes = 2 ^ k := ⟨12, rfl⟩
  rcases masks_round_to_multiples (limit - 1) pageBytes
      (by decide) (by decide) hPower with
    ⟨hDown, -, -, -, hApart⟩
  have hLast :
      alignDown (limit - 1) pageBytes = limit - pageBytes := by
    decide
  rw [hLast] at hDown hApart
  exact
    ⟨by decide, by decide, hPower, hDown, hApart (by decide)⟩

end Word

end BeltHeap
