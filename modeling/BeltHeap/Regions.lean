import BeltHeap.Epochs
import BeltHeap.Options
import BeltHeap.Roots

/-
  What the collector publishes about its heap: the epochs, the
  place of the root table and the regions of the heap.  The
  part with a fixed layout is read by observers as plain words.

  Key definitions include:
    * `MemoryRegion`
    * `HeapInfo`
    * `HeapInfo.register`
    * `HeapInfo.words`
-/

------------------------------------------------------------
-- Regions
------------------------------------------------------------

namespace BeltHeap

/- A range of memory that an observer may want to look at. -/
structure MemoryRegion where
  description : String
  start : Nat
  size : Nat
deriving DecidableEq, Repr, Inhabited

/- The first address behind a region. -/
def MemoryRegion.stop (r : MemoryRegion) : Except Fault Nat :=
  Word.add r.start r.size

------------------------------------------------------------
-- Published Information
------------------------------------------------------------

/-
  The published words: the two epochs, where the root table is
  and how many entries it has, and records of the regions.
  Only the first `regionCount` records count; the others keep
  what they held before.  The full list of regions, with their
  descriptions, is not part of the fixed layout.
-/
structure HeapInfo where
  epochs : Epochs := {}
  rootsAddress : Nat
  rootsCapacity : Nat
  regionCount : Nat := 0
  records : Array (Nat × Nat) :=
    Array.replicate Limits.inspectableRegions (0, 0)
  regions : List MemoryRegion := []
deriving DecidableEq, Repr, Inhabited

namespace HeapInfo

/- Show no records. -/
def hide (i : HeapInfo) : HeapInfo :=
  { i with regionCount := 0 }

/- Write one record. -/
def writeRecord
    (k : Nat)
    (r : MemoryRegion)
    (i : HeapInfo) : HeapInfo :=
  { i with records := i.records.setIfInBounds k (r.start, r.size) }

/- Show the first `count` records. -/
def reveal
    (count : Nat)
    (i : HeapInfo) : HeapInfo :=
  { i with regionCount := count }

/- Keep the full list of regions. -/
def describe
    (regions : List MemoryRegion)
    (i : HeapInfo) : HeapInfo :=
  { i with regions }

/- Write records from the one with index `k` on. -/
def writeRecords
    {ε σ : Type}
    (update : (HeapInfo → HeapInfo) → Activity ε σ Unit) :
    Nat → List MemoryRegion → Activity ε σ Unit
| _, [] => pure ()
| k, r :: rs => do
    update (writeRecord k r)
    writeRecords update (k + 1) rs

/- Report where each region ends. -/
def reportRegions
    {σ : Type} : List MemoryRegion → Activity Fault σ Unit
| [] => pure ()
| r :: rs => do
    let stop ← r.stop
    Activity.emit (.regionRegistered r.description ⟨r.start, stop⟩)
    reportRegions rs

/-
  Publish regions instead of those published before, given how
  to change the published information.  Only as many as there
  are records become visible to observers.  No record is shown
  while the records are rewritten.
-/
def register
    {σ : Type}
    (update : (HeapInfo → HeapInfo) → Activity Fault σ Unit)
    (regions : List MemoryRegion) : Activity Fault σ Unit := do
  let shown := regions.take Limits.inspectableRegions
  if Limits.inspectableRegions < regions.length then
    Activity.emit
      (.regionsTruncated regions.length Limits.inspectableRegions)
  update hide
  writeRecords update 0 shown
  update (reveal shown.length)
  if ← Activity.keeps .debug then
    reportRegions regions
  update (describe regions)

------------------------------------------------------------
-- The Fixed Layout
------------------------------------------------------------

/- Where the collection epoch is, from the start of the words. -/
def collectionEpochOffset : Nat := 0

/- Where the root epoch is. -/
def rootEpochOffset : Nat := 8

/- Where the address of the root table is. -/
def rootsAddressOffset : Nat := 16

/- Where the number of entries of the root table is. -/
def rootsCapacityOffset : Nat := 24

/- Where the number of visible records is. -/
def regionCountOffset : Nat := 32

/- Where the first record is. -/
def regionsOffset : Nat := 40

/- The published words in order. -/
def words (i : HeapInfo) : List Nat :=
  [
    i.epochs.collection, i.epochs.root, i.rootsAddress,
    i.rootsCapacity, i.regionCount
  ] ++ i.records.toList.flatMap fun r => [r.1, r.2]

end HeapInfo

end BeltHeap
