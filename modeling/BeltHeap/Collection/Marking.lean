import Std.Data.HashSet
import BeltHeap.Heap.State
import BeltHeap.Total

/-
  Finding the objects that a collection has to keep: those in
  the condemned part of the heap that can be reached from given
  references through other such objects.

  Key definitions include:
    * `Collection.condemned`
    * `Collection.Marking`
    * `Collection.Marking.visit`
    * `Collection.Marking.drain`
    * `Collection.findLive`
    * `Collection.Reachable`
-/

------------------------------------------------------------
-- Condemned Spans
------------------------------------------------------------

namespace BeltHeap

namespace Collection

/- The parts of the heap that a collection empties or compacts. -/
def condemned
    (kind : Kind)
    (nursery mature : Belt) : List Span :=
  match kind with
  | .minor => [nursery.usedSpan]
  | .major => [mature.usedSpan]
  | .fullHeap => [mature.usedSpan, nursery.usedSpan]

/- Does the reference lie in one of the spans? -/
def isCondemned
    (spans : List Span)
    (object : Nat) : Bool :=
  spans.any fun s => s.contains object

/- The number of addresses in the spans. -/
def totalLength (spans : List Span) : Nat :=
  total (spans.map Span.length)

------------------------------------------------------------
-- Marking
------------------------------------------------------------

/- An object that survives, with its size. -/
abbrev LiveObject := Nat × Nat

/-
  The objects marked so far, the same with their sizes and the
  last one first, and those whose fields are yet to be visited.
-/
structure Marking where
  marked : Std.HashSet Nat := {}
  live : List LiveObject := []
  queue : List Nat := []

namespace Marking

/-
  Visit a reference.  Null, objects outside of the condemned
  spans and marked objects are passed by.
-/
def visit
    (spans : List Span)
    (sizeOf : Nat → Nat)
    (m : Marking)
    (object : Nat) : Marking :=
  if object = 0 || !isCondemned spans object ||
      m.marked.contains object then m
  else
    {
      marked := m.marked.insert object
      live := (object, sizeOf object) :: m.live
      queue := object :: m.queue
    }

/-
  Visit the references in the fields of queued objects until
  none is queued.  An object is queued once at most, so as many
  rounds as there are condemned addresses are enough.
-/
def drain
    (spans : List Span)
    (sizeOf : Nat → Nat)
    (refs : Nat → List Nat) :
    Nat → Marking → Marking
| 0, m => m
| rounds + 1, m =>
    match m.queue with
    | [] => m
    | object :: queue =>
        drain spans sizeOf refs rounds
          ((refs object).foldl (visit spans sizeOf)
            { m with queue })

end Marking

/- The references in the fields of an object. -/
def references
    (rt : Runtime)
    (m : Memory)
    (object : Nat) : List Nat :=
  (rt.fields m object).map m.load

/-
  The condemned objects that are reachable from the seeds
  through condemned objects, with their sizes.
-/
def findLive
    (rt : Runtime)
    (m : Memory)
    (spans : List Span)
    (seeds : List Nat) : List LiveObject :=
  let start := seeds.foldl (Marking.visit spans (Object.size m)) {}
  (Marking.drain spans (Object.size m) (references rt m)
    (totalLength spans) start).live

------------------------------------------------------------
-- Reachability
------------------------------------------------------------

/-
  A condemned object is reachable when it is a seed or is
  referred to by a reachable object.
-/
inductive Reachable
    (rt : Runtime)
    (m : Memory)
    (spans : List Span)
    (seeds : List Nat) : Nat → Prop where
| seed
    {object : Nat}
    (hSeed : object ∈ seeds)
    (hNull : object ≠ 0)
    (hIn : isCondemned spans object = true) :
    Reachable rt m spans seeds object
| step
    {source object : Nat}
    (hSource : Reachable rt m spans seeds source)
    (hRef : object ∈ references rt m source)
    (hNull : object ≠ 0)
    (hIn : isCondemned spans object = true) :
    Reachable rt m spans seeds object

end Collection

end BeltHeap
