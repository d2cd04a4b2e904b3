import BeltHeap.Observer.LiveProcess

/-
  A simulated target to try observers on: a run of memory whose
  bytes, epoch and refusals are set from outside, and which
  keeps a list of the requests it gets, the last one first.

  Key definitions include:
    * `SimulatedTarget`
    * `SimulatedTarget.transferable`
    * the instance `MemorySource SimulatedTarget`
    * the instance `ProcessChannel SimulatedTarget`
-/

------------------------------------------------------------
-- Requests
------------------------------------------------------------

namespace BeltHeap

/- What can be asked of a target. -/
inductive TargetRequest where
| read : TargetRequest
| write : TargetRequest
| suspend : TargetRequest
| resume : TargetRequest
| kill : TargetRequest
| threads : TargetRequest
deriving DecidableEq, Repr

namespace TargetRequest

/- The name of a request. -/
def name : TargetRequest → String
| .read => "read"
| .write => "write"
| .suspend => "suspend"
| .resume => "resume"
| .kill => "kill"
| .threads => "threads"

/- All requests. -/
def all : List TargetRequest :=
  [.read, .write, .suspend, .resume, .kill, .threads]

/- The request with a name. -/
def ofName? (name : String) : Option TargetRequest :=
  all.find? fun r => r.name == name

end TargetRequest

------------------------------------------------------------
-- Targets
------------------------------------------------------------

/-
  A target with memory from `base` on.  It refuses the requests
  in `refused`.  Without `described`, a channel to it does not
  tell how large its pages and words are.
-/
structure SimulatedTarget where
  base : Nat
  memory : Array UInt8
  pageSize : Nat := Word.pageBytes
  wordSize : Nat := Word.bytes
  byteOrder : ByteOrder := .littleEndian
  epoch : Nat := 0
  described : Bool := true
  refused : List TargetRequest := []
  calls : List TargetRequest := []
deriving DecidableEq, Repr

namespace SimulatedTarget

/- How many bytes of a range exist, counted from its start. -/
def transferable
    (t : SimulatedTarget)
    (a count : Nat) : Nat :=
  if t.base ≤ a ∧ a < t.base + t.memory.size then
    min count (t.base + t.memory.size - a)
  else 0

/- The bytes of a range that exist. -/
def peek
    (t : SimulatedTarget)
    (a count : Nat) : List UInt8 :=
  let start := a - t.base
  (t.memory.extract start (start + t.transferable a count)).toList

/- Set the bytes of a range that exist. -/
def poke
    (a : Nat)
    (bs : List UInt8)
    (t : SimulatedTarget) : SimulatedTarget :=
  let count := t.transferable a bs.length
  let start := a - t.base
  { t with
    memory :=
      if count = 0 then t.memory
      else
        t.memory.extract 0 start ++ bs.take count ++
          t.memory.extract (start + count) t.memory.size }

/- Refuse these requests and no others. -/
def refuse
    (requests : List TargetRequest)
    (t : SimulatedTarget) : SimulatedTarget :=
  { t with refused := requests }

/- Forget the requests so far. -/
def forgetCalls (t : SimulatedTarget) : SimulatedTarget :=
  { t with calls := [] }

/- Move to an epoch. -/
def atEpoch
    (epoch : Nat)
    (t : SimulatedTarget) : SimulatedTarget :=
  { t with epoch }

/-
  Receive a request, which is noted in any case.  The answer is
  worked out by `answer` unless the request is refused.
-/
def receive
    {α : Type}
    (r : TargetRequest)
    (answer : StateM SimulatedTarget α) :
    StateM SimulatedTarget (Except String α) :=
  fun t =>
    let t := { t with calls := r :: t.calls }
    if r ∈ t.refused then
      (.error s!"cannot {r.name} target", t)
    else
      let (a, t) := answer t
      (.ok a, t)

------------------------------------------------------------
-- Targets as Channels
------------------------------------------------------------

/- Read the bytes of a range that exist. -/
def transferOut
    (a count : Nat) : StateM SimulatedTarget (List UInt8) :=
  fun t => (t.peek a count, t)

/- Write the bytes of a range that exist. -/
def transferIn
    (a : Nat)
    (bs : List UInt8) : StateM SimulatedTarget Nat :=
  fun t => (t.transferable a bs.length, t.poke a bs)

end SimulatedTarget

/- A simulated target behind a channel. -/
instance : ProcessChannel SimulatedTarget where
  read a count :=
    SimulatedTarget.receive .read (SimulatedTarget.transferOut a count)
  write a bs :=
    SimulatedTarget.receive .write (SimulatedTarget.transferIn a bs)
  suspend := SimulatedTarget.receive .suspend (pure ())
  resume := SimulatedTarget.receive .resume (pure ())
  kill := SimulatedTarget.receive .kill (pure ())
  threads := SimulatedTarget.receive .threads (pure [7, 8])
  pageSize t := if t.described then t.pageSize else Word.pageBytes
  byteOrder t := if t.described then t.byteOrder else .littleEndian
  wordSize t := if t.described then t.wordSize else Word.bytes

------------------------------------------------------------
-- Targets as Sources
------------------------------------------------------------

namespace SimulatedTarget

variable {α : Type}

/- Answer a request of an observer; a refusal is an error. -/
def serve
    (r : TargetRequest)
    (answer : StateM SimulatedTarget (Except ObserverError α)) :
    ObserverM SimulatedTarget α :=
  fun s =>
    let (result, t) := receive r answer s.state
    let s := { s with state := t }
    match result with
    | .error text => (.error (.error (.io text)), s)
    | .ok (.error e) => (.error (.error e), s)
    | .ok (.ok a) => (.ok a, s)

/- Transfer a range only if all of it exists. -/
def whole
    (a count : Nat)
    (transfer : StateM SimulatedTarget α) :
    StateM SimulatedTarget (Except ObserverError α) :=
  fun t =>
    if t.transferable a count = count then
      let (b, t) := transfer t
      (.ok b, t)
    else (.error (.unmapped a count), t)

/- Read all of a range. -/
def read
    (a count : Nat) :
    ObserverM SimulatedTarget (List UInt8) :=
  serve .read (whole a count (transferOut a count))

/- Write all of a range. -/
def write
    (a : Nat)
    (bs : List UInt8) : ObserverM SimulatedTarget Unit :=
  serve .write
    (whole a bs.length (modify (poke a bs)))

end SimulatedTarget

/- A simulated target that answers observers itself. -/
instance : MemorySource SimulatedTarget where
  epoch := SimulatedTarget.epoch
  pageSize := SimulatedTarget.pageSize
  byteOrder := SimulatedTarget.byteOrder
  wordSize := SimulatedTarget.wordSize
  processState _ := .stopped
  read := SimulatedTarget.read
  write := SimulatedTarget.write
  suspend := SimulatedTarget.serve .suspend (pure (.ok ()))
  resume := SimulatedTarget.serve .resume (pure (.ok ()))
  kill := SimulatedTarget.serve .kill (pure (.ok ()))
  threads := SimulatedTarget.serve .threads (pure (.ok [1]))

end BeltHeap
