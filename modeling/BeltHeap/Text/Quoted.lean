import BeltHeap.Text.Hex
import BeltHeap.Text.Invisible

/-
  A text in double quotes, with everything that would not show
  as itself written as an escape.

  Key definitions include:
    * `Text.escape`
    * `Text.quoted`
-/

------------------------------------------------------------
-- Quoted Text
------------------------------------------------------------

namespace BeltHeap

namespace Text

/-
  One character as it stands between double quotes.  Quotes,
  backslashes and the common controls have short escapes, other
  invisible characters are written by code point, and all else
  stands for itself.
-/
def escape (c : Char) : String :=
  if c = '\x00' then "\\0"
  else if c = '\t' then "\\t"
  else if c = '\n' then "\\n"
  else if c = '\r' then "\\r"
  else if c = '"' then "\\\""
  else if c = '\\' then "\\\\"
  else if isInvisible c then
    "\\u\x7b" ++ hexDigits c.toNat ++ "\x7d"
  else c.toString

/- A text in double quotes. -/
def quoted (s : String) : String :=
  "\"" ++ String.join (s.toList.map escape) ++ "\""

end Text

end BeltHeap
