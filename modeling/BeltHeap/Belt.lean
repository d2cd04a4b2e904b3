import BeltHeap.Log.Activity
import BeltHeap.Memory

/-
  Belts: contiguous regions of the heap that are allocated by
  bumping a mark.  Objects lie in `[start, mark)`, and
  `[mark, stop)` is free.

  Key definitions include:
    * `Belt`
    * `Belt.make`
    * `Belt.bump`, `Belt.allocate`
    * `Belt.setMark`, `Belt.takeSnapshot`
    * `Belt.reset`
    * `Belt.setBounds`
-/

------------------------------------------------------------
-- Belts
------------------------------------------------------------

namespace BeltHeap

/-
  A belt has a place in address order, bounds, a mark, and the
  mark as of the start of the last collection.  An expandable
  belt may grow into the belt above it.
-/
structure Belt where
  index : Nat
  start : Nat
  stop : Nat
  mark : Nat
  snapshot : Nat
  expandable : Bool
deriving DecidableEq, Repr, Inhabited

namespace Belt

/- An empty belt of `size` bytes. -/
def make
    (index start size : Nat) : Except Fault Belt := do
  let stop ← Word.add start size
  pure
    {
      index, start, stop, mark := start, snapshot := start,
      expandable := false
    }

/- The number of bytes in a belt. -/
def size (b : Belt) : Nat :=
  b.stop - b.start

/- The number of bytes below the mark. -/
def used (b : Belt) : Nat :=
  b.mark - b.start

/- The number of bytes above the mark. -/
def remaining (b : Belt) : Nat :=
  b.stop - b.mark

/- Is nothing allocated in the belt? -/
def isEmpty (b : Belt) : Bool :=
  b.mark == b.start

/- The addresses of a belt. -/
def span (b : Belt) : Span :=
  ⟨b.start, b.stop⟩

/- The addresses that are allocated. -/
def usedSpan (b : Belt) : Span :=
  ⟨b.start, b.mark⟩

/- Is the address within the bounds of the belt? -/
def contains
    (b : Belt)
    (a : Nat) : Bool :=
  b.span.contains a

/- Is the address within the allocated part of the belt? -/
def containsAllocated
    (b : Belt)
    (a : Nat) : Bool :=
  b.usedSpan.contains a

------------------------------------------------------------
-- Allocation
------------------------------------------------------------

/-
  Bump the mark by `size` bytes.  The answer is the old mark,
  or nothing where the request does not fit.
-/
def bump
    (b : Belt)
    (size : Nat) : Except Fault (Option (Nat × Belt)) := do
  let mark ← Word.add b.mark size
  if mark ≤ b.stop then
    pure (some (b.mark, { b with mark }))
  else pure none

/- Bump the mark, and report a request that does not fit. -/
def allocate
    {σ : Type}
    (b : Belt)
    (size : Nat) : Activity Fault σ (Option (Nat × Belt)) := do
  match ← b.bump size with
  | some r => pure (some r)
  | none => do
      Activity.emit (.beltFull b.index size b.mark b.stop)
      pure none

/- Move the mark to a place within the belt. -/
def setMark
    (b : Belt)
    (mark : Nat) : Except Fault Belt :=
  if b.start ≤ mark ∧ mark ≤ b.stop then .ok { b with mark }
  else .error (.markOutsideBelt mark b.index b.start b.stop)

/- Remember the mark. -/
def takeSnapshot (b : Belt) : Belt :=
  { b with snapshot := b.mark }

------------------------------------------------------------
-- Emptying and Moving a Belt
------------------------------------------------------------

/- A belt in which nothing is allocated any more. -/
def emptied (b : Belt) : Belt :=
  { b with mark := b.start, snapshot := b.start }

/-
  Forget everything allocated in a belt, and clear the bytes
  below its mark so that the next round starts from zeros.
-/
def reset
    (b : Belt)
    (m : Memory) : Belt × Memory :=
  (b.emptied, m.clear b.start b.used)

/- Move the bounds of a belt.  The mark stays within them. -/
def setBounds
    (b : Belt)
    (start stop : Nat) : Except Fault Belt :=
  if stop < start then .error .reversedBounds
  else if b.mark < start then
    .ok { b with start, stop, mark := start, snapshot := start }
  else .ok { b with start, stop }

/- Report the state of a belt under a description. -/
def report
    {ε σ : Type}
    (b : Belt)
    (description : String) : Activity ε σ Unit :=
  Activity.emit
    (.beltState description b.index b.span b.mark b.used
      b.remaining b.expandable)

end Belt

end BeltHeap
