import BeltHeap.Log.Activity

/-
  A worker that runs the tasks it is given one at a time and
  hands each result back to whoever waits for it.

  Key definitions include:
    * `Place`
    * `Executor.spawn`
    * `Executor.execute`
-/

------------------------------------------------------------
-- Where Work Runs
------------------------------------------------------------

namespace BeltHeap

/- Work runs outside of workers, or on the worker with a name. -/
inductive Place where
| outside : Place
| worker (name : String) : Place
deriving DecidableEq, Repr

/- An executor is known by the name of its worker. -/
structure Executor where
  name : String
deriving DecidableEq, Repr

namespace Executor

/- An executor, unless there is a zero byte in its name. -/
def spawn (name : String) : Except Fault Executor :=
  let bytes := name.toUTF8.toList.map UInt8.toNat
  match bytes.idxOf? 0 with
  | none => .ok ⟨name⟩
  | some position => .error (.zeroInName position bytes)

/- Is this place the worker of the executor? -/
def isWorker
    (e : Executor)
    (p : Place) : Bool :=
  p == .worker e.name

/-
  Run a task on the worker and wait for its result.  A task
  handed over by the worker itself runs on the spot.  A task
  that breaks off breaks off the work that waits for it.
-/
def execute
    {ε σ α : Type}
    (e : Executor)
    (p : Place)
    (task : Place → Activity ε σ α) : Activity ε σ α := do
  if e.isWorker p then task p
  else
    Activity.emit (.requestSent e.name)
    let result ← task (.worker e.name)
    Activity.emit (.replyReceived e.name)
    pure result

end Executor

end BeltHeap
