import BeltHeap.FirstObjects
import BeltHeap.Heap.Object
import BeltHeap.Layout
import BeltHeap.Mapping
import BeltHeap.Regions

/-
  The state of a heap, the slots in it that hold references,
  and work on it.

  Key definitions include:
    * `Slot`
    * `Runtime`
    * `Heap`
    * `Heap.readSlot`, `Heap.writeSlot`
    * `HeapRun`, `HeapM`
    * `HeapM.update`
-/

------------------------------------------------------------
-- Slots
------------------------------------------------------------

namespace BeltHeap

/-
  A place that holds a reference: an entry of the root table, a
  register of the runtime outside of the heap, or a field of an
  object.
-/
inductive Slot where
| entry (handle : Nat) : Slot
| register (number : Nat) : Slot
| field (address : Nat) : Slot
deriving DecidableEq, Repr, Hashable

namespace Slot

/- The kind of a slot, and its number among those of its kind. -/
def key : Slot → Nat × Nat
| .entry h => (0, h)
| .register n => (1, n)
| .field a => (2, a)

/- Slots in order of their kind and then of their number. -/
def le (s t : Slot) : Bool :=
  s.key.1 < t.key.1 || (s.key.1 == t.key.1 && s.key.2 ≤ t.key.2)

/- A list without those members that equal the one before. -/
def dropRepeats : List Slot → List Slot
| [] => []
| [s] => [s]
| s :: t :: rest =>
    if s = t then dropRepeats (t :: rest)
    else s :: dropRepeats (t :: rest)

/- The slots of a list in order, each of them once. -/
def sortUnique (slots : List Slot) : List Slot :=
  dropRepeats (slots.mergeSort le)

end Slot

------------------------------------------------------------
-- The Runtime
------------------------------------------------------------

/-
  What the runtime tells the collector: the alignment of
  objects, the slots it reports as roots besides the root
  table, and where the reference slots of an object are.
-/
structure Runtime where
  alignment : Nat := Word.bytes
  reports : List Slot := []
  fields : Memory → Nat → List Nat := Object.fields

instance : Inhabited Runtime := ⟨{}⟩

------------------------------------------------------------
-- Heaps
------------------------------------------------------------

/- Counters of the collections run so far. -/
structure CollectionStats where
  minor : Nat := 0
  major : Nat := 0
  fullHeap : Nat := 0
  promotedBytes : Nat := 0
deriving DecidableEq, Repr, Inhabited

/- Where the operating system puts the parts of a heap. -/
structure Placement where
  heap : Nat
  roots : Nat
  info : Nat
deriving DecidableEq, Repr, Inhabited

/-
  A heap with its tables.  `memory` holds the objects,
  `registers` the roots that the runtime keeps outside of the
  root table, and `outOfMemory` is latched by a collection that
  found no room.
-/
structure Heap where
  config : HeapConfig
  placement : Placement
  memory : Memory
  layout : Layout
  cards : CardTable
  firstObjects : FirstObjects
  roots : RootTable
  registers : Array Nat
  info : HeapInfo
  runtimeRegions : List MemoryRegion
  outOfMemory : Bool
  stats : CollectionStats
deriving Inhabited

namespace Heap

/- The belt that plays a role, in a layout that has the role. -/
def beltOf
    (h : Heap)
    (role : Nat) : Belt :=
  h.layout.belts.getD (h.layout.roles.getD role 0) default

/- The belt that mutators allocate into. -/
def nursery (h : Heap) : Belt :=
  h.beltOf Role.nursery

/- The belt that survivors are promoted into. -/
def mature (h : Heap) : Belt :=
  h.beltOf Role.mature

/- Put a belt in the place of the one with its index. -/
def setBelt
    (b : Belt)
    (h : Heap) : Heap :=
  { h with layout := h.layout.setBelt b }

/- Change the memory. -/
def mapMemory
    (f : Memory → Memory)
    (h : Heap) : Heap :=
  { h with memory := f h.memory }

/- Change the counters. -/
def mapStats
    (f : CollectionStats → CollectionStats)
    (h : Heap) : Heap :=
  { h with stats := f h.stats }

/- Change the published information. -/
def mapInfo
    (f : HeapInfo → HeapInfo)
    (h : Heap) : Heap :=
  { h with info := f h.info }

/- Change the epochs. -/
def mapEpochs
    (f : Epochs → Epochs)
    (h : Heap) : Heap :=
  h.mapInfo fun i => { i with epochs := f i.epochs }

/- The reference in a slot. -/
def readSlot
    (h : Heap) : Slot → Nat
| .entry handle => h.roots.entries.getD handle 0
| .register n => h.registers.getD n 0
| .field a => h.memory.load a

/- Put a reference into a slot. -/
def writeSlot
    (s : Slot)
    (object : Nat)
    (h : Heap) : Heap :=
  match s with
  | .entry handle => { h with roots := h.roots.write handle object }
  | .register n =>
      { h with registers := h.registers.setIfInBounds n object }
  | .field a => h.mapMemory fun m => m.store a object

end Heap

------------------------------------------------------------
-- Work on a Heap
------------------------------------------------------------

/-
  A heap in use.  `scans` holds the two epochs as of each time
  the runtime was asked for its roots.  With a `trail`, every
  state the heap passes through is kept, the last one first.
-/
structure HeapRun where
  heap : Heap
  scans : Array (Nat × Nat) := #[]
  trail : Option (List Heap) := none
deriving Inhabited

/- Work on a heap, which may break off with a fault. -/
abbrev HeapM := Activity Fault HeapRun

namespace HeapM

/- A value read off the heap. -/
def reading
    {α : Type}
    (f : Heap → α) : HeapM α :=
  Activity.reading fun r => f r.heap

/- One write to the heap. -/
def update (f : Heap → Heap) : HeapM Unit :=
  Activity.change fun
    | ⟨heap, scans, none⟩ => ⟨f heap, scans, none⟩
    | ⟨heap, scans, some trail⟩ =>
        let heap := f heap
        ⟨heap, scans, some (heap :: trail)⟩

/- Note that the runtime is asked for its roots. -/
def noteScan : HeapM Unit :=
  Activity.change fun r =>
    { r with
      scans :=
        r.scans.push
          (r.heap.info.epochs.collection,
            r.heap.info.epochs.root) }

end HeapM

end BeltHeap
