import BeltHeap.Executor
import BeltHeap.Observer.Source

/-
  A process that runs or is stopped.  Its memory can be used
  only while it is stopped, and every stop after a run begins a
  new epoch.

  Key definitions include:
    * `ProcessChannel`
    * `LiveProcess`, `Destination`, `Caller`
    * `LiveProcess.read`, `LiveProcess.write`
    * `LiveProcess.control`
    * the instance `MemorySource (LiveProcess σ)`
-/

------------------------------------------------------------
-- Channels
------------------------------------------------------------

namespace BeltHeap

/-
  The way to a process.  A request is granted or refused with a
  text.  Reads and writes may stop short: a read answers with
  the bytes it got and a write with how many it wrote.
-/
class ProcessChannel (σ : Type) where
  read : Nat → Nat → StateM σ (Except String (List UInt8))
  write : Nat → List UInt8 → StateM σ (Except String Nat)
  suspend : StateM σ (Except String Unit)
  resume : StateM σ (Except String Unit)
  kill : StateM σ (Except String Unit)
  threads : StateM σ (Except String (List Nat))
  pageSize : σ → Nat := fun _ => Word.pageBytes
  byteOrder : σ → ByteOrder := fun _ => .littleEndian
  wordSize : σ → Nat := fun _ => Word.bytes

------------------------------------------------------------
-- Processes
------------------------------------------------------------

/- A process behind a channel, and what is known about it. -/
structure LiveProcess (σ : Type) where
  channel : σ
  state : ProcessState
  epoch : Nat := 0
  pageSize : Nat
  byteOrder : ByteOrder
  wordSize : Nat
deriving DecidableEq, Repr

/-
  A buffer that a read is to fill.  One that was just made is
  all zeros, which are not stored.
-/
inductive Destination where
| zeros (size : Nat) : Destination
| bytes (bs : List UInt8) : Destination
deriving DecidableEq, Repr

namespace Destination

/- The number of bytes in a buffer. -/
def size : Destination → Nat
| .zeros size => size
| .bytes bs => bs.length

/- The bytes in a buffer. -/
def contents : Destination → List UInt8
| .zeros size => List.replicate size 0
| .bytes bs => bs

end Destination

/- A process, and the buffer of whoever uses it. -/
structure Caller (σ : Type) where
  process : LiveProcess σ
  buffer : Destination
deriving DecidableEq, Repr

namespace LiveProcess

variable {σ α : Type} [ProcessChannel σ]

/- A process that is in a state now. -/
def attach
    (channel : σ)
    (state : ProcessState) : LiveProcess σ where
  channel := channel
  state := state
  pageSize := ProcessChannel.pageSize channel
  byteOrder := ProcessChannel.byteOrder channel
  wordSize := ProcessChannel.wordSize channel

/- The worker that all requests to a process go through. -/
def worker : Executor := ⟨"beltway-tele"⟩

/- Ask something of the channel. -/
def ask
    (question : StateM σ α) : ObserverM (LiveProcess σ) α :=
  fun s =>
    let r := question s.state.channel
    (.ok r.1, { s with state := { s.state with channel := r.2 } })

/- Send a request to the process; a refusal is an error. -/
def request
    (question : StateM σ (Except String α)) :
    ObserverM (LiveProcess σ) α := do
  match ← worker.execute .outside fun _ => ask question with
  | .ok a => pure a
  | .error text => .fail (.io text)

/- Fail unless the process is stopped. -/
def checkStopped
    (operation : String) : ObserverM (LiveProcess σ) Unit := do
  match ← Activity.reading (·.state) with
  | .stopped => pure ()
  | .terminated => .fail .terminated
  | .running => .fail (.notStopped operation)
  | .noProcess => .fail (.notStopped operation)

/- Fail unless all of a range was transferred. -/
def checkWhole
    (a count transferred : Nat) :
    ObserverM (LiveProcess σ) Unit := do
  if transferred < count then
    let missing ← Word.add a transferred
    .fail (.unmapped missing (count - transferred))
  else pure ()

/- Note that the process is in a state now. -/
def enter
    (state : ProcessState) : ObserverM (LiveProcess σ) Unit :=
  Activity.change fun p => { p with state }

------------------------------------------------------------
-- Memory
------------------------------------------------------------

/- Work on the process that a caller uses. -/
def onProcess
    (work : ObserverM (LiveProcess σ) α) :
    ObserverM (Caller σ) α :=
  Activity.within (·.process)
    (fun c process => { c with process }) work

/-
  Fill the buffer of the caller with the memory from `a` on.
  The channel transfers into a buffer of its own, of the same
  size, which is copied once all of it is there.
-/
def read (a : Nat) : ObserverM (Caller σ) Unit := do
  onProcess (checkStopped "read its memory")
  let count ← Activity.reading (·.buffer.size)
  let bs ← onProcess (request (ProcessChannel.read a count))
  onProcess (checkWhole a count bs.length)
  Activity.change fun c =>
    { c with buffer := .bytes (bs.take count) }

/- All of a range, read into a buffer that starts out as zeros. -/
def readBytes
    (a count : Nat) :
    ObserverM (LiveProcess σ) (List UInt8) :=
  fun s =>
    let r := read a ⟨⟨s.state, .zeros count⟩, s.log⟩
    (r.1.map fun _ => r.2.state.buffer.contents,
      ⟨r.2.state.process, r.2.log⟩)

/- Write all of a range. -/
def write
    (a : Nat)
    (bs : List UInt8) : ObserverM (LiveProcess σ) Unit := do
  checkStopped "write its memory"
  let written ← request (ProcessChannel.write a bs)
  checkWhole a bs.length written

------------------------------------------------------------
-- Control
------------------------------------------------------------

/-
  Bring the process into a state, by a request if it is not
  there already, and note what follows from that.  A process
  that has terminated gets into no other state.
-/
def control
    (state : ProcessState)
    (question : StateM σ (Except String Unit))
    (note : ObserverM (LiveProcess σ) Unit) :
    ObserverM (LiveProcess σ) Unit := do
  let present ← Activity.reading (·.state)
  if present = state then pure ()
  else if present = .terminated then .fail .terminated
  else do
    request question
    enter state
    note

/- Stop the process, which begins a new epoch if it was running. -/
def suspend : ObserverM (LiveProcess σ) Unit :=
  control .stopped ProcessChannel.suspend do
    Activity.change fun p => { p with epoch := p.epoch + 1 }
    let epoch ← Activity.reading (·.epoch)
    Activity.emit (.targetStopped epoch)

/- Let the process run. -/
def resume : ObserverM (LiveProcess σ) Unit :=
  control .running ProcessChannel.resume
    (Activity.emit .targetResumed)

/- End the process. -/
def kill : ObserverM (LiveProcess σ) Unit :=
  control .terminated ProcessChannel.kill
    (Activity.emit .targetKilled)

/- The threads of the process. -/
def threads : ObserverM (LiveProcess σ) (List Nat) := do
  match ← Activity.reading (·.state) with
  | .terminated => .fail .terminated
  | _ => request ProcessChannel.threads

end LiveProcess

/- A process is a source of memory. -/
instance {σ : Type} [ProcessChannel σ] :
    MemorySource (LiveProcess σ) where
  epoch := LiveProcess.epoch
  pageSize := LiveProcess.pageSize
  byteOrder := LiveProcess.byteOrder
  wordSize := LiveProcess.wordSize
  processState := LiveProcess.state
  read := LiveProcess.readBytes
  write := LiveProcess.write
  suspend := LiveProcess.suspend
  resume := LiveProcess.resume
  kill := LiveProcess.kill
  threads := LiveProcess.threads

end BeltHeap
