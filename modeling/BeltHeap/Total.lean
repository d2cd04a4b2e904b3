/-
  The sum of a list of numbers.

  Key definitions include:
    * `total`
-/

------------------------------------------------------------
-- Sums
------------------------------------------------------------

namespace BeltHeap

/- The sum of all numbers in a list. -/
def total : List Nat → Nat
| [] => 0
| n :: ns => n + total ns

@[simp]
theorem total_append
    (ns ms : List Nat) :
    total (ns ++ ms) = total ns + total ms := by
  induction ns with
  | nil => simp [total]
  | cons n ns ih => simp [total, ih, Nat.add_assoc]

end BeltHeap
