import BeltHeap.Log.Activity

/-
  The two counters that tell an observer whether the heap is
  stable.  The collection epoch is raised when a collection
  begins, and the root epoch catches up with it at the end.

  Key definitions include:
    * `Epochs`
    * `Epochs.begun`, `Epochs.ended`
    * `Epochs.isCollecting`
    * `Epochs.begin`, `Epochs.finish`
-/

------------------------------------------------------------
-- Epochs
------------------------------------------------------------

namespace BeltHeap

/- The epoch of the last collection begun and of the last ended. -/
structure Epochs where
  collection : Nat := 0
  root : Nat := 0
deriving DecidableEq, Repr, Inhabited

namespace Epochs

/- The epochs after a collection began. -/
def begun (e : Epochs) : Epochs :=
  { e with collection := e.collection + 1 }

/- The epochs after all collections ended. -/
def ended (e : Epochs) : Epochs :=
  { e with root := e.collection }

/- Is a collection under way? -/
def isCollecting (e : Epochs) : Bool :=
  e.root < e.collection

/-
  Begin a collection, given how to look at and to change the
  epochs.  The answer is the epoch of the new collection.
-/
def begin
    {ε σ : Type}
    (look : σ → Epochs)
    (update : (Epochs → Epochs) → Activity ε σ Unit) :
    Activity ε σ Nat := do
  update begun
  let epoch ← Activity.reading fun s => (look s).collection
  Activity.emit (.epochBegins epoch)
  pure epoch

/- End the collection under way. -/
def finish
    {ε σ : Type}
    (look : σ → Epochs)
    (update : (Epochs → Epochs) → Activity ε σ Unit) :
    Activity ε σ Unit := do
  update ended
  let epoch ← Activity.reading fun s => (look s).collection
  Activity.emit (.epochEnds epoch)

end Epochs

end BeltHeap
