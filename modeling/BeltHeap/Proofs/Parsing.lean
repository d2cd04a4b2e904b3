import Mathlib.Data.List.Forall2
import BeltHeap.Percentages
import BeltHeap.Proofs.Numerals

/-
  The texts that are read as percentages.  What a list of
  percentages is written as is read as the same list, and a text
  that is no such list is refused for its first part that is no
  percentage.

  Main declarations:
    * `Percentages.Parts`, `Percentages.parts_iff`
    * `Percentages.Denotes`, `Percentages.readPart_eq_ok_iff`
    * `Percentages.FirstBad`, `Percentages.readParts_eq_error_iff`
    * `Percentages.parsing_follows_grammar`
-/

------------------------------------------------------------
-- Parts
------------------------------------------------------------

namespace BeltHeap

namespace Percentages

open Text

/- The parts of a text that are separated by commas. -/
structure Parts
    (cs : List Char)
    (parts : List (List Char)) : Prop where
  nonempty : parts ≠ []
  whole : ∀ part ∈ parts, ',' ∉ part
  joined : [','].intercalate parts = cs

variable {cs part : List Char}
variable {parts : List (List Char)}
variable {p : Percentages}
variable {n : Nat}

/- No part has a comma in it. -/
theorem comma_not_mem_splitOn
    (cs : List Char) :
    ∀ part ∈ cs.splitOn ',', ',' ∉ part := by
  induction cs with
  | nil => simp
  | cons c cs ih =>
      rw [List.splitOn_cons_eq_if_modifyHead]
      split
      · simpa using ih
      · rename_i hComma
        cases hSplit : cs.splitOn ',' with
        | nil => exact absurd hSplit (List.splitOn_ne_nil ',' cs)
        | cons part parts =>
            rw [hSplit, List.forall_mem_cons] at ih
            rw [List.modifyHead_cons, List.forall_mem_cons,
              List.mem_cons, not_or]
            exact ⟨⟨fun hEq => hComma (beq_iff_eq.mpr hEq.symm), ih.1⟩, ih.2⟩

theorem parts_iff :
    Parts cs parts ↔ cs.splitOn ',' = parts := by
  constructor
  · rintro ⟨hCons, hWhole, rfl⟩
    exact List.splitOn_intercalate ',' hWhole hCons
  · rintro rfl
    exact
      ⟨List.splitOn_ne_nil ',' cs, comma_not_mem_splitOn cs,
        List.intercalate_splitOn ','⟩

------------------------------------------------------------
-- Percentages
------------------------------------------------------------

/-
  What a part of a text stands for: a number that a byte can
  hold, maybe with blanks around it.
-/
def Denotes (part : List Char) (n : Nat) : Prop :=
  ∃ core, Trims part core ∧ Numeral core n ∧ n ≤ partLimit

theorem readPart_eq_ok_iff :
    readPart part = .ok n ↔ Denotes part n := by
  have hDenotes :
      Denotes part n ↔
        readNumber partLimit (trimBlanks part) = .ok n := by
    simp only [Denotes, trims_iff, readNumber_eq_ok_iff,
      exists_eq_left']
  rw [hDenotes]
  unfold readPart
  split <;> rename_i hRead <;> simp [hRead]

/- A part that stands for nothing is refused as it is. -/
theorem readPart_error
    {e : PartError}
    (hRead : readPart part = .error e) :
    e.part = part ∧ ¬ ∃ n, Denotes part n := by
  constructor
  · unfold readPart at hRead
    split at hRead
    · cases hRead
    · cases hRead
      rfl
  · rintro ⟨n, hDenotes⟩
    rw [readPart_eq_ok_iff.mpr hDenotes] at hRead
    cases hRead

/- The first of some parts that is no percentage. -/
def FirstBad
    (parts : List (List Char))
    (part : List Char) : Prop :=
  ∃ before after,
    parts = before ++ part :: after ∧
      (∀ good ∈ before, ∃ n, Denotes good n) ∧
      ¬ ∃ n, Denotes part n

/- A part before the first bad one is a percentage. -/
theorem firstBad_cons_iff
    {first : List Char}
    (hDenotes : Denotes first n) :
    FirstBad (first :: parts) part ↔ FirstBad parts part := by
  constructor
  · rintro ⟨before, after, hParts, hGood, hBad⟩
    cases before with
    | nil =>
        cases hParts
        exact absurd ⟨n, hDenotes⟩ hBad
    | cons good before =>
        cases hParts
        exact
          ⟨before, after, rfl,
            fun g hMem => hGood g (List.mem_cons_of_mem _ hMem),
            hBad⟩
  · rintro ⟨before, after, rfl, hGood, hBad⟩
    refine ⟨first :: before, after, rfl, ?_, hBad⟩
    rw [List.forall_mem_cons]
    exact ⟨⟨n, hDenotes⟩, hGood⟩

/- Parts are read one after the other. -/
theorem readParts_cons :
    readParts (part :: parts) =
      (match readPart part with
      | .error e => .error e
      | .ok n => (readParts parts).map (n :: ·)) := by
  unfold readParts
  rw [List.mapM_cons]
  cases readPart part with
  | error e => rfl
  | ok n => cases parts.mapM readPart <;> rfl

/- Parts are read if the first is read and then the others. -/
theorem readParts_cons_eq_ok_iff :
    readParts (part :: parts) = .ok p ↔
      ∃ n ns,
        readPart part = .ok n ∧ readParts parts = .ok ns ∧
          p = n :: ns := by
  rw [readParts_cons]
  cases readPart part with
  | error e => simp
  | ok n =>
      cases readParts parts with
      | error e => simp [Except.map]
      | ok ns => simp [Except.map, eq_comm]

/- Parts are read if each of them stands for a percentage. -/
theorem readParts_eq_ok_iff :
    readParts parts = .ok p ↔ List.Forall₂ Denotes parts p := by
  induction parts generalizing p with
  | nil => simp [readParts, pure, Except.pure, eq_comm]
  | cons part parts ih =>
      simp only [readParts_cons_eq_ok_iff,
        List.forall₂_cons_left_iff, readPart_eq_ok_iff, ih]

/- Parts are refused for the first that is no percentage. -/
theorem readParts_eq_error_iff :
    (∃ cause, readParts parts = .error ⟨part, cause⟩) ↔
      FirstBad parts part := by
  induction parts with
  | nil => simp [readParts, pure, Except.pure, FirstBad]
  | cons first parts ih =>
      rw [readParts_cons]
      cases hFirst : readPart first with
      | error e =>
          rcases readPart_error hFirst with ⟨hPart, hBad⟩
          constructor
          · rintro ⟨cause, hError⟩
            cases hError
            cases hPart
            exact ⟨[], parts, rfl, nofun, hBad⟩
          · rintro ⟨before, after, hParts, hGood, -⟩
            cases before with
            | nil =>
                cases hParts
                exact ⟨e.cause, by rw [← hPart]⟩
            | cons good before =>
                cases hParts
                exact absurd (hGood first (by simp)) hBad
      | ok n =>
          rw [firstBad_cons_iff (readPart_eq_ok_iff.mp hFirst), ← ih]
          cases readParts parts with
          | error e => simp [Except.map]
          | ok ns => simp [Except.map]

------------------------------------------------------------
-- Texts
------------------------------------------------------------

/- The digits of a number stand for it. -/
theorem denotes_toDigits
    (hLe : n ≤ partLimit) :
    Denotes (Nat.toDigits 10 n) n := by
  have hDigits := digits_toDigits n
  have hBlank :
      ∀ c ∈ Nat.toDigits 10 n, isBlank c = false :=
    fun c hMem => not_isBlank_of_isDigit (hDigits.digits c hMem)
  refine ⟨_, ⟨[], [], ?_, nofun, nofun, ?_, ?_⟩,
    .plain hDigits, hLe⟩
  · simp
  · exact fun c hHead => hBlank c (List.mem_of_mem_head? hHead)
  · exact fun c hLast => hBlank c (List.mem_of_mem_getLast? hLast)

/- What percentages are written as has their digits as parts. -/
theorem parts_text
    (hCons : p ≠ []) :
    Parts (text p).toList (p.map (Nat.toDigits 10)) := by
  refine ⟨by simpa using hCons, ?_, ?_⟩
  · intro part hMem hComma
    rcases List.mem_map.mp hMem with ⟨n, -, rfl⟩
    have hDigit := (digits_toDigits n).digits ',' hComma
    exact absurd hDigit (by decide)
  · have hDigits :
        (p.map toString).map String.toList =
          p.map (Nat.toDigits 10) := by
      simp
    rw [text, String.toList_intercalate, hDigits]
    rfl

/- Percentages are read back from what they are written as. -/
theorem parse_text
    (hCons : p ≠ [])
    (hBytes : ∀ n ∈ p, n ≤ partLimit) :
    parse (text p) = .ok p := by
  have hParts := parts_iff.mp (parts_text hCons)
  rw [parse, hParts, readParts_eq_ok_iff,
    List.forall₂_map_left_iff, List.forall₂_same]
  exact fun n hMem => denotes_toDigits (hBytes n hMem)

/-
  Percentages are read back from what they are written as.  Any
  text has one list of parts; if all of them stand for
  percentages, then the text is read as those, in order, and
  else it is refused for the first part that does not.
-/
theorem parsing_follows_grammar :
    (∀ p : Percentages, p ≠ [] → (∀ n ∈ p, n ≤ partLimit) →
        parse (text p) = .ok p) ∧
      ∀ s : String,
        ∃ parts,
          (∀ other, Parts s.toList other ↔ other = parts) ∧
          (∀ p,
            parse s = .ok p ↔ List.Forall₂ Denotes parts p) ∧
          ∀ part,
            (∃ cause, parse s = .error ⟨part, cause⟩) ↔
              FirstBad parts part := by
  refine ⟨fun _ => parse_text, fun s => ?_⟩
  refine
    ⟨s.toList.splitOn ',', fun other => ?_,
      fun p => readParts_eq_ok_iff,
      fun part => readParts_eq_error_iff⟩
  rw [parts_iff, eq_comm]

/-
  A list is read back, and the second of three parts is refused
  with the blank before it.
-/
theorem parsing_follows_grammar_spaced :
    parse (text [70, 30]) = .ok [70, 30] ∧
      ∃ cause,
        parse "+070, x,256" = .error ⟨[' ', 'x'], cause⟩ := by
  refine
    ⟨parsing_follows_grammar.1 [70, 30] (by decide) (by decide),
      ?_⟩
  rcases parsing_follows_grammar.2 "+070, x,256" with
    ⟨parts, hParts, -, hError⟩
  have hSplit :
      [['+', '0', '7', '0'], [' ', 'x'], ['2', '5', '6']] =
        parts :=
    (hParts _).mp ⟨by decide, by decide, by decide⟩
  subst hSplit
  refine (hError _).mpr ⟨[_], [_], rfl, ?_, ?_⟩
  · rw [List.forall_mem_singleton]
    exact ⟨70, readPart_eq_ok_iff.mp (by decide)⟩
  · rintro ⟨n, hDenotes⟩
    exact nomatch readPart_eq_ok_iff.mpr hDenotes

end Percentages

end BeltHeap
