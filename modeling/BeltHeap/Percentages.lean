import BeltHeap.Fault
import BeltHeap.Text.Blank
import BeltHeap.Text.Decimal
import BeltHeap.Text.Quoted

/-
  The split of the heap between belts, as whole percentages in
  address order, and its text form `70,30`.

  Key definitions include:
    * `Percentages.sumFrom`, `Percentages.isValid`
    * `Percentages.parse`
    * `Percentages.text`
    * `Percentages.PartError`
-/

------------------------------------------------------------
-- Lists of Percentages
------------------------------------------------------------

namespace BeltHeap

/- One percentage for each belt. -/
abbrev Percentages := List Nat

namespace Percentages

/- The largest number that a percentage is stored as. -/
def partLimit : Nat := 255

/- The first number that is too large for a sum of percentages. -/
def sumLimit : Nat := 0x100000000

/- Percentages added to a sum one by one, if each sum is one. -/
def sumFrom : Nat → Percentages → Except Fault Nat
| sum, [] => .ok sum
| sum, p :: ps =>
    if sum + p < sumLimit then sumFrom (sum + p) ps
    else .error .addOverflow

/-
  Does each belt get something, and do they get all of the heap?
  Only percentages all of which are positive are added up.
-/
def isValid (p : Percentages) : Except Fault Bool :=
  if p.isEmpty || p.contains 0 then .ok false
  else do
    let sum ← sumFrom 0 p
    pure (sum == 100)

------------------------------------------------------------
-- Reading
------------------------------------------------------------

/- A part of the text that is no percentage. -/
structure PartError where
  part : List Char
  cause : Text.NumberError
deriving DecidableEq, Repr

/- The sentence for a part that is no percentage. -/
def PartError.message (e : PartError) : String :=
  "Failed to parse belt percentage " ++
    Text.quoted (String.ofList e.part) ++ ": " ++ e.cause.message

/- Read one part, which may be surrounded by blanks. -/
def readPart (part : List Char) : Except PartError Nat :=
  match Text.readNumber partLimit (Text.trimBlanks part) with
  | .ok n => .ok n
  | .error cause => .error ⟨part, cause⟩

/- Read all parts, and fail with the first that is no number. -/
def readParts
    (parts : List (List Char)) : Except PartError Percentages :=
  parts.mapM readPart

/- Read percentages that are separated by commas. -/
def parse (s : String) : Except PartError Percentages :=
  readParts (s.toList.splitOn ',')

------------------------------------------------------------
-- Writing
------------------------------------------------------------

/- The percentages, separated by commas. -/
def text (p : Percentages) : String :=
  ",".intercalate (p.map toString)

end Percentages

end BeltHeap
