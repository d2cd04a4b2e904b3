import BeltHeap.Endian
import BeltHeap.Log.Activity
import BeltHeap.Observer.Error

/-
  Where the memory of a target comes from.  A source has an
  epoch that never decreases; memory that was read stays valid
  until the epoch advances.

  Key definitions include:
    * `ProcessState`
    * `ObserverM`
    * `MemorySource`
-/

------------------------------------------------------------
-- Processes
------------------------------------------------------------

namespace BeltHeap

/-
  What is known about the process behind a source: its memory
  can be used only while it is stopped, and an image has none.
-/
inductive ProcessState where
| stopped : ProcessState
| running : ProcessState
| terminated : ProcessState
| noProcess : ProcessState
deriving DecidableEq, Repr

/- The name of a state of a process. -/
def ProcessState.name : ProcessState → String
| .stopped => "STOPPED"
| .running => "RUNNING"
| .terminated => "TERMINATED"
| .noProcess => "NO_PROCESS"

------------------------------------------------------------
-- The Work of Observers
------------------------------------------------------------

/- Work of an observer, which may end with an interruption. -/
abbrev ObserverM (σ : Type) := Activity Interruption σ

/- A fault interrupts the work of an observer. -/
instance {σ : Type} : MonadLift (Except Fault) (ObserverM σ) where
  monadLift
  | .ok a => pure a
  | .error f => throw (.fault f)

namespace ObserverM

variable {σ α : Type}

/- End the work with an error. -/
def fail (e : ObserverError) : ObserverM σ α :=
  throw (.error e)

end ObserverM

------------------------------------------------------------
-- Sources
------------------------------------------------------------

/-
  Sources answer a read with all the bytes that were asked for
  or fail without a partial result.
-/
class MemorySource (σ : Type) where
  epoch : σ → Nat
  pageSize : σ → Nat
  byteOrder : σ → ByteOrder
  wordSize : σ → Nat
  processState : σ → ProcessState
  read : Nat → Nat → ObserverM σ (List UInt8)
  write : Nat → List UInt8 → ObserverM σ Unit
  suspend : ObserverM σ Unit
  resume : ObserverM σ Unit
  kill : ObserverM σ Unit
  threads : ObserverM σ (List Nat)

end BeltHeap
