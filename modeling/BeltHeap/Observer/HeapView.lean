import BeltHeap.Observer.PageCache
import BeltHeap.Regions

/-
  The heap of a target as seen from outside, read word by word
  from the information that the target publishes about it.

  Key definitions include:
    * `ObservedRegion`
    * `HeapView`
    * `HeapView.regions`, `HeapView.roots`
    * `HeapView.snapshot`
-/

------------------------------------------------------------
-- Observed Heaps
------------------------------------------------------------

namespace BeltHeap

/- A region of the heap of a target. -/
structure ObservedRegion where
  start : Nat
  size : Nat
deriving DecidableEq, Repr

/-
  Is an address in a region?  The end of the region is only
  looked at for addresses that are not below it.
-/
def ObservedRegion.contains
    (r : ObservedRegion)
    (a : Nat) : Except Fault Bool :=
  if r.start ≤ a then do
    let stop ← Word.add r.start r.size
    pure (decide (a < stop))
  else .ok false

/- The heap of a target as of a root epoch. -/
structure ObservedHeap where
  rootEpoch : Nat
  regions : List ObservedRegion
  roots : List Nat
deriving DecidableEq, Repr

------------------------------------------------------------
-- Published Words
------------------------------------------------------------

/- A view of the information published at an address. -/
structure HeapView where
  address : Nat
deriving DecidableEq, Repr

namespace HeapView

variable {σ : Type} [MemorySource σ]

/- The word at an offset of the published information. -/
def wordAt
    (v : HeapView)
    (offset : Nat) : ObserverM (PageCache σ) Nat := do
  let a ← Word.add v.address offset
  PageCache.readWord a

/- The epoch of the last collection that the target began. -/
def collectionEpoch
    (v : HeapView) : ObserverM (PageCache σ) Nat := do
  let a ← Word.add v.address HeapInfo.collectionEpochOffset
  PageCache.readNumber 8 a

/- The epoch of the last collection that the target ended. -/
def rootEpoch
    (v : HeapView) : ObserverM (PageCache σ) Nat := do
  let a ← Word.add v.address HeapInfo.rootEpochOffset
  PageCache.readNumber 8 a

/- Is the target in the middle of a collection? -/
def isCollecting
    (v : HeapView) : ObserverM (PageCache σ) Bool := do
  let root ← v.rootEpoch
  let collection ← v.collectionEpoch
  pure (decide (root < collection))

------------------------------------------------------------
-- Regions and Roots
------------------------------------------------------------

/- The record of a region, given how wide words are. -/
def regionAt
    (v : HeapView)
    (width k : Nat) :
    ObserverM (PageCache σ) ObservedRegion := do
  let distance ← Word.mul (k * 2) width
  let record ← Word.add HeapInfo.regionsOffset distance
  let start ← v.wordAt record
  let next ← Word.add record width
  let size ← v.wordAt next
  pure ⟨start, size⟩

/- How wide the words of the target are. -/
def wordWidth : ObserverM (PageCache σ) Nat :=
  Activity.reading fun c => MemorySource.wordSize c.source

/- The published regions, as many as there is room for. -/
def regions
    (v : HeapView) :
    ObserverM (PageCache σ) (List ObservedRegion) := do
  let count ← v.wordAt HeapInfo.regionCountOffset
  let width ← wordWidth
  (List.range (min count Limits.inspectableRegions)).mapM
    (v.regionAt width)

/-
  The entries of a root table that are not null, from the one
  with index `k` on.  The entries before it come in reverse.
-/
def rootsFrom
    (table width : Nat) :
    Nat → Nat → List Nat → ObserverM (PageCache σ) (List Nat)
| 0, _, before => pure before.reverse
| count + 1, k, before => do
    let distance ← Word.mul k width
    let a ← Word.add table distance
    let root ← PageCache.readWord a
    rootsFrom table width count (k + 1)
      (if root = 0 then before else root :: before)

/- The objects in the root table of the target. -/
def roots
    (v : HeapView) : ObserverM (PageCache σ) (List Nat) := do
  let table ← v.wordAt HeapInfo.rootsAddressOffset
  let capacity ← v.wordAt HeapInfo.rootsCapacityOffset
  let width ← wordWidth
  rootsFrom table width capacity 0 []

/-
  Everything that the target publishes about its heap.  Roots
  and regions are not to be trusted during a collection.
-/
def snapshot
    (v : HeapView) : ObserverM (PageCache σ) ObservedHeap := do
  let collection ← v.collectionEpoch
  let root ← v.rootEpoch
  if root < collection then .fail (.collecting collection root)
  else
    let regions ← v.regions
    let roots ← v.roots
    pure { rootEpoch := root, regions, roots }

end HeapView

end BeltHeap
