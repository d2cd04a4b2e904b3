import BeltHeap.Text.Blank
import BeltHeap.Text.Decimal

/-
  The texts that are read as numbers, and what is left of a text
  without the blanks around it.

  Main declarations:
    * `Text.Digits`, `Text.Numeral`
    * `Text.readNumber_eq_ok_iff`
    * `Text.digits_toDigits`
    * `Text.Trims`, `Text.trims_iff`
-/

------------------------------------------------------------
-- Digits
------------------------------------------------------------

namespace BeltHeap

namespace Text

/- At least one decimal digit, and the value of all of them. -/
structure Digits (cs : List Char) (n : Nat) : Prop where
  nonempty : cs ≠ []
  digits : ∀ c ∈ cs, c.isDigit = true
  value : Nat.ofDigitChars 10 cs 0 = n

variable {c : Char}
variable {cs core part : List Char}
variable {bound value d n : Nat}

/- The characters that have a value are the decimal digits. -/
theorem digitValue?_eq_some_iff :
    digitValue? c = some d ↔
      c.isDigit = true ∧ c.toNat - '0'.toNat = d := by
  have hDigit : '0' ≤ c ∧ c ≤ '9' ↔ c.isDigit = true :=
    Char.isDigit_iff_toNat.symm
  unfold digitValue?
  simp only [hDigit]
  split <;> simp [*]

/- Further digits do not make a value smaller. -/
theorem le_ofDigitChars
    (cs : List Char)
    (value : Nat) :
    value ≤ Nat.ofDigitChars 10 cs value := by
  induction cs generalizing value with
  | nil => exact Nat.le_refl value
  | cons c cs ih =>
      rw [Nat.ofDigitChars_cons]
      exact Nat.le_trans (by omega) (ih _)

/- Digits are read, if their value is within the bound. -/
theorem readDigits_eq_ok_iff
    (hValue : value ≤ bound) :
    readDigits bound value cs = .ok n ↔
      (∀ c ∈ cs, c.isDigit = true) ∧
        Nat.ofDigitChars 10 cs value = n ∧ n ≤ bound := by
  induction cs generalizing value with
  | nil =>
      simp only [readDigits, Except.ok.injEq, List.not_mem_nil,
        false_implies, implies_true, true_and]
      constructor
      · rintro rfl
        exact ⟨rfl, hValue⟩
      · exact And.left
  | cons c cs ih =>
      rw [List.forall_mem_cons, Nat.ofDigitChars_cons,
        Nat.mul_comm 10]
      unfold readDigits
      cases hDigit : digitValue? c with
      | none =>
          have hNone : c.isDigit ≠ true := fun hIs =>
            nomatch hDigit.symm.trans
              (digitValue?_eq_some_iff.mpr ⟨hIs, rfl⟩)
          simp [hNone]
      | some d =>
          rcases digitValue?_eq_some_iff.mp hDigit with ⟨hIs, rfl⟩
          dsimp only
          split
          · rename_i hLe
            rw [ih hLe]
            simp [hIs]
          · -- What follows only makes the value larger.
            rename_i hLarge
            have hMore := le_ofDigitChars cs
              (value * 10 + (c.toNat - '0'.toNat))
            constructor
            · nofun
            · rintro ⟨-, rfl, hLe⟩
              exact absurd (Nat.le_trans hMore hLe) hLarge

/- The digits of a number have its value. -/
theorem digits_toDigits
    (n : Nat) :
    Digits (Nat.toDigits 10 n) n where
  nonempty := Nat.toDigits_ne_nil
  digits := fun _ hMem =>
    Nat.isDigit_of_mem_toDigits (by decide) (by decide) hMem
  value := Nat.ofDigitChars_ten_toDigits

------------------------------------------------------------
-- Numerals
------------------------------------------------------------

/- How a number is written: digits, maybe after a plus sign. -/
inductive Numeral : List Char → Nat → Prop where
| plain {cs : List Char} {n : Nat} :
    Digits cs n → Numeral cs n
| signed {cs : List Char} {n : Nat} :
    Digits cs n → Numeral ('+' :: cs) n

/- No digits start with a plus sign. -/
theorem not_digits_plus :
    ¬ Digits ('+' :: cs) n :=
  fun h => absurd (h.digits '+' (by simp)) (by decide)

/- Digits within the bound are read from their first one on. -/
theorem readDigits_zero_eq_ok_iff
    (hCons : cs ≠ []) :
    readDigits bound 0 cs = .ok n ↔ Digits cs n ∧ n ≤ bound := by
  rw [readDigits_eq_ok_iff (Nat.zero_le bound)]
  constructor
  · rintro ⟨hDigits, hValue, hLe⟩
    exact ⟨⟨hCons, hDigits, hValue⟩, hLe⟩
  · rintro ⟨hDigits, hLe⟩
    exact ⟨hDigits.digits, hDigits.value, hLe⟩

/-
  A text is read as a number exactly if it is one, and is within
  the bound.
-/
theorem readNumber_eq_ok_iff :
    readNumber bound cs = .ok n ↔ Numeral cs n ∧ n ≤ bound := by
  fun_cases readNumber bound cs with
  | case1 =>
      constructor
      · nofun
      · rintro ⟨⟨hDigits⟩, -⟩
        exact absurd rfl hDigits.nonempty
  | case2 =>
      constructor
      · nofun
      · rintro ⟨hDigits | hDigits, -⟩
        · exact absurd hDigits not_digits_plus
        · exact absurd rfl hDigits.nonempty
  | case3 cs hCons =>
      have hCons : cs ≠ [] := fun hNil => by simp_all
      rw [readDigits_zero_eq_ok_iff hCons]
      refine and_congr_left' ⟨.signed, ?_⟩
      rintro (hDigits | hDigits)
      · exact absurd hDigits not_digits_plus
      · exact hDigits
  | case4 cs hCons hSingle hPlus =>
      rw [readDigits_zero_eq_ok_iff hCons]
      refine and_congr_left' ⟨.plain, ?_⟩
      rintro (hDigits | hDigits)
      · exact hDigits
      · exact absurd rfl (hPlus _)

------------------------------------------------------------
-- Blanks
------------------------------------------------------------

theorem not_isBlank_of_isDigit
    (hDigit : c.isDigit = true) :
    isBlank c = false := by
  have hRange : 48 ≤ c.toNat ∧ c.toNat ≤ 57 :=
    Char.isDigit_iff_toNat.mp hDigit
  simp only [isBlank, Bool.or_eq_false_iff, Bool.and_eq_false_iff,
    decide_eq_false_iff_not, beq_eq_false_iff_ne]
  omega

/-
  The rest of a text from its first character on that is not
  blank.
-/
theorem dropBlanks_iff :
    cs.dropWhile isBlank = core ↔
      ∃ before,
        cs = before ++ core ∧
          (∀ c ∈ before, isBlank c = true) ∧
          ∀ c ∈ core.head?, isBlank c = false := by
  constructor
  · rintro rfl
    refine
      ⟨cs.takeWhile isBlank, List.takeWhile_append_dropWhile.symm,
        List.all_eq_true.mp List.all_takeWhile, fun c hHead => ?_⟩
    have hFirst := List.head?_dropWhile_not isBlank cs
    rw [Option.mem_def.mp hHead] at hFirst
    exact hFirst
  · rintro ⟨before, rfl, hBlank, hHead⟩
    rw [List.dropWhile_append_of_pos hBlank]
    cases core with
    | nil => rfl
    | cons c core =>
        rw [List.dropWhile_cons, hHead c rfl]
        rfl

/-
  A part of a text with only blanks before it and after it, and
  none at its two ends.
-/
def Trims (part core : List Char) : Prop :=
  ∃ before after,
    part = before ++ core ++ after ∧
      (∀ c ∈ before, isBlank c = true) ∧
      (∀ c ∈ after, isBlank c = true) ∧
      (∀ c ∈ core.head?, isBlank c = false) ∧
      ∀ c ∈ core.getLast?, isBlank c = false

/- A text has just one part that is left when it is trimmed. -/
theorem trims_iff :
    Trims part core ↔ trimBlanks part = core := by
  have hReverse :
      trimBlanks part = core ↔
        (part.dropWhile isBlank).reverse.dropWhile isBlank =
          core.reverse := by
    unfold trimBlanks
    rw [List.reverse_eq_iff]
  rw [hReverse, dropBlanks_iff, List.head?_reverse]
  constructor
  · rintro ⟨before, after, rfl, hBefore, hAfter, hHead, hLast⟩
    -- In a text of blanks, those after it are dropped first.
    cases core with
    | nil =>
        have hNil :
            (before ++ [] ++ after).dropWhile isBlank = [] := by
          rw [dropBlanks_iff]
          refine ⟨before ++ [] ++ after, by simp, ?_, by simp⟩
          intro c hMem
          simp only [List.append_nil, List.mem_append] at hMem
          exact hMem.elim (hBefore c) (hAfter c)
        exact ⟨[], by rw [hNil]; rfl, nofun, nofun⟩
    | cons c core =>
        have hDrop :
            (before ++ c :: core ++ after).dropWhile isBlank =
              c :: core ++ after := by
          rw [dropBlanks_iff]
          exact ⟨before, by simp, hBefore, by simpa using hHead⟩
        rw [hDrop, List.reverse_append]
        exact ⟨after.reverse, rfl, by simpa using hAfter, hLast⟩
  · rintro ⟨after, hSplit, hAfter, hLast⟩
    rcases dropBlanks_iff.mp (Eq.refl (part.dropWhile isBlank)) with
      ⟨before, hPart, hBefore, hHead⟩
    have hRest : part.dropWhile isBlank = core ++ after.reverse := by
      rw [← List.reverse_inj, hSplit]
      simp
    rw [hRest] at hPart hHead
    refine
      ⟨before, after.reverse, by simpa using hPart, hBefore,
        by simpa using hAfter, fun c hFirst => ?_, hLast⟩
    exact hHead c (by simp [Option.mem_def.mp hFirst])

end Text

end BeltHeap
