/-
  Reading and writing unsigned decimal numbers with an upper
  bound.

  Key definitions include:
    * `Text.NumberError`
    * `Text.readDigits`
    * `Text.readNumber`
-/

------------------------------------------------------------
-- Bounded Decimal Numbers
------------------------------------------------------------

namespace BeltHeap

namespace Text

/- Why a text is not a number. -/
inductive NumberError where
| empty : NumberError
| invalidDigit : NumberError
| tooLarge : NumberError
deriving DecidableEq, Repr

/- The sentence for a text that is not a number. -/
def NumberError.message : NumberError → String
| .empty => "cannot parse integer from empty string"
| .invalidDigit => "invalid digit found in string"
| .tooLarge => "number too large to fit in target type"

/- The value of an ASCII decimal digit. -/
def digitValue? (c : Char) : Option Nat :=
  if '0' ≤ c ∧ c ≤ '9' then some (c.toNat - '0'.toNat) else none

/-
  Read digits from the left, with the value of the digits read
  so far.  The first character that is no digit and the first
  value above the bound stop the reading, whichever comes first.
-/
def readDigits
    (bound : Nat) : Nat → List Char → Except NumberError Nat
| value, [] => .ok value
| value, c :: cs =>
    match digitValue? c with
    | none => .error .invalidDigit
    | some d =>
        if value * 10 + d ≤ bound then
          readDigits bound (value * 10 + d) cs
        else .error .tooLarge

/-
  Read a number of at most `bound`: an optional plus sign and
  at least one digit.
-/
def readNumber
    (bound : Nat) : List Char → Except NumberError Nat
| [] => .error .empty
| ['+'] => .error .invalidDigit
| '+' :: cs => readDigits bound 0 cs
| cs => readDigits bound 0 cs

end Text

end BeltHeap
