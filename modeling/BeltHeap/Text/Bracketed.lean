/-
  Lists of numbers as messages show them.

  Key definitions include:
    * `Text.bracketed`
-/

------------------------------------------------------------
-- Lists of Numbers
------------------------------------------------------------

namespace BeltHeap

namespace Text

/- Numbers in square brackets, with commas between them. -/
def bracketed (ns : List Nat) : String :=
  "[" ++ ", ".intercalate (ns.map toString) ++ "]"

end Text

end BeltHeap
