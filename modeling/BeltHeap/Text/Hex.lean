/-
  Numbers written in base sixteen.

  Key definitions include:
    * `Text.hexDigits`
    * `Text.hex`
-/

------------------------------------------------------------
-- Hexadecimal Text
------------------------------------------------------------

namespace BeltHeap

namespace Text

/- The digits of a number in base sixteen, in lower case. -/
def hexDigits (n : Nat) : String :=
  String.ofList (Nat.toDigits 16 n)

/- The digits of a number in base sixteen, in upper case. -/
def hexDigitsUpper (n : Nat) : String :=
  String.ofList ((Nat.toDigits 16 n).map Char.toUpper)

/- A number in base sixteen, marked as such by `0x`. -/
def hex (n : Nat) : String :=
  "0x" ++ hexDigits n

end Text

end BeltHeap
