import BeltHeap.Executor
import BeltHeap.Heap.Collecting

/-
  What a runtime may do with a heap: allocate, store references
  through the write barrier, keep roots, ask for collections and
  grow the mature belt.

  Key definitions include:
    * `AllocationError`
    * `HeapM.alloc`
    * `HeapM.writeReference`
    * `HeapM.collect`, `HeapM.collectOnRequest`
    * `HeapM.addRoot`, `HeapM.setRoot`, `HeapM.removeRoot`
    * `HeapM.expandMature`
-/

------------------------------------------------------------
-- Errors
------------------------------------------------------------

namespace BeltHeap

/- Why an allocation fails. -/
inductive AllocationError where
| heapExhausted (requested : Nat) : AllocationError
| outOfMemoryLatched (requested : Nat) : AllocationError
deriving DecidableEq, Repr

/- The sentence for a failed allocation. -/
def AllocationError.message : AllocationError → String
| .heapExhausted requested =>
    s!"heap exhausted: no room for {requested} bytes " ++
      "after collecting"
| .outOfMemoryLatched requested =>
    s!"heap is out of memory, {requested} bytes requested; " ++
      "the mature belt must be expanded first"

namespace HeapM

------------------------------------------------------------
-- Collections on Request
------------------------------------------------------------

/- The worker that runs the collections. -/
def collector : Executor :=
  ⟨"beltway-collector"⟩

/-
  Collect on the worker, so that the nursery has room for
  `bytes` bytes.  The answer tells whether it has.
-/
def collect
    (rt : Runtime)
    (bytes : Nat) : HeapM Bool :=
  collector.execute .outside fun _ => collectGarbage rt bytes

/- Collect, and tell whether the nursery is empty afterwards. -/
def collectOnRequest (rt : Runtime) : HeapM Bool := do
  let success ← collect rt 0
  if success then reading fun h => h.nursery.isEmpty
  else pure false

------------------------------------------------------------
-- Allocation
------------------------------------------------------------

/- Bump the mark of the belt that plays a role. -/
def allocateIn
    (role size : Nat) : HeapM (Option Nat) := do
  let b ← reading fun h => h.beltOf role
  match ← b.allocate size with
  | none => pure none
  | some (object, b) => do
      update (Heap.setBelt b)
      pure (some object)

/- Allocate in the nursery. -/
def allocateNursery (size : Nat) : HeapM (Option Nat) :=
  allocateIn Role.nursery size

/-
  Allocate straight in the mature belt, for requests that the
  nursery cannot hold.
-/
def allocateMature (size : Nat) : HeapM (Option Nat) := do
  match ← allocateIn Role.mature size with
  | none => pure none
  | some object => do
      recordObject object size
      pure (some object)

/-
  The number of bytes that are allocated for a request: a whole
  number of alignments and at least one.  Requests just below
  the limit of words wrap around to nothing.
-/
def roundedSize
    (rt : Runtime)
    (bytes : Nat) : Nat :=
  Word.alignUp (max bytes rt.alignment) rt.alignment

/- Fall back on the mature belt once the nursery is no help. -/
def allocPretenured
    (size : Nat) : HeapM (Except AllocationError Nat) := do
  if ← reading (·.outOfMemory) then
    pure (.error (.heapExhausted size))
  else
    match ← allocateMature size with
    | some object => do
        Activity.emit (.pretenured size object)
        pure (.ok object)
    | none => pure (.error (.heapExhausted size))

/- Allocate after a collection. -/
def allocCollecting
    (rt : Runtime)
    (size : Nat) : HeapM (Except AllocationError Nat) := do
  if ← collect rt size then
    match ← allocateNursery size with
    | some object => pure (.ok object)
    | none => allocPretenured size
  else allocPretenured size

/- Allocate where the nursery had no room at first. -/
def allocSlowly
    (rt : Runtime)
    (size : Nat) : HeapM (Except AllocationError Nat) := do
  match ← allocateNursery size with
  | some object => pure (.ok object)
  | none =>
      if ← reading (·.outOfMemory) then
        pure (.error (.outOfMemoryLatched size))
      else allocCollecting rt size

/- Allocate at least `bytes` bytes, all of them zero. -/
def alloc
    (rt : Runtime)
    (bytes : Nat) : HeapM (Except AllocationError Nat) := do
  let size := roundedSize rt bytes
  match ← allocateNursery size with
  | some object => pure (.ok object)
  | none => allocSlowly rt size

------------------------------------------------------------
-- The Write Barrier
------------------------------------------------------------

/- Make the card of an address dirty. -/
def dirtyCardOf (a : Nat) : HeapM Unit := do
  let card ← reading fun h => h.cards.index a
  let card ← card
  update fun h => { h with cards := h.cards.dirtied card }

/-
  A reference into the nursery that was stored in the mature
  belt makes its card dirty, so that the next minor collection
  finds the slot.
-/
def noteStore
    (slot target : Nat) : HeapM Unit := do
  if target = 0 then pure ()
  else
    let remember ← reading fun h =>
      h.mature.contains slot && h.nursery.contains target
    if remember then dirtyCardOf slot

/- Store a reference in the slot at an offset of an object. -/
def writeReference
    (source offset target : Nat) : HeapM Unit := do
  let slot ← Word.add source offset
  update fun h => h.writeSlot (.field slot) target
  noteStore slot target

------------------------------------------------------------
-- Roots
------------------------------------------------------------

/-
  Keep an object alive.  The answer is a handle, or nothing
  where the root table is full.
-/
def addRoot (object : Nat) : HeapM (Option Nat) := do
  match ← reading fun h => h.roots.vacant? with
  | some handle => do
      update fun h =>
        { h with roots := h.roots.occupy handle object }
      pure (some handle)
  | none => do
      Activity.emit
        (.rootTableFull (← reading fun h => h.roots.capacity))
      pure none

/- The object behind a handle. -/
def getRoot (handle : Nat) : HeapM Nat := do
  let object ← reading fun h => h.roots.get handle
  object

/- Put another object behind a handle. -/
def setRoot (handle object : Nat) : HeapM Unit := do
  let _ ← getRoot handle
  update fun h => h.writeSlot (.entry handle) object

/- Give up a handle. -/
def removeRoot (handle : Nat) : HeapM Unit := do
  setRoot handle 0
  if ← reading fun h => h.roots.free.contains handle then
    throw .handleFreedTwice
  else
    update fun h => { h with roots := h.roots.release handle }

/- Put an object into a register of the runtime. -/
def setRegister (number object : Nat) : HeapM Unit :=
  update fun h => h.writeSlot (.register number) object

------------------------------------------------------------
-- Growing the Mature Belt
------------------------------------------------------------

/-
  Grow the mature belt into the empty belt above it, and let
  collections run again after the heap ran out of memory.
-/
def expandMature
    (bytes : Nat) : HeapM (Except ExpansionError Unit) := do
  let layout ← reading (·.layout)
  match ← layout.expand Role.mature bytes with
  | .error e => pure (.error e)
  | .ok layout => do
      update fun h => { h with layout }
      update fun h => { h with outOfMemory := false }
      publishRegions
      pure (.ok ())

end HeapM

end BeltHeap
