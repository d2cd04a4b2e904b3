import BeltHeap.Heap.State

/-
  Publishing the regions of a heap to observers: the belts in
  address order, and after them the regions of the runtime.

  Key definitions include:
    * `Heap.beltRegions`
    * `Heap.allRegions`
    * `HeapM.publishRegions`
    * `HeapM.registerRegions`
-/

------------------------------------------------------------
-- Regions of a Heap
------------------------------------------------------------

namespace BeltHeap

namespace Heap

/- A belt as a region that is described by the role it plays. -/
def beltRegion
    (h : Heap)
    (b : Belt) : Except Fault MemoryRegion := do
  let role ← h.layout.roleOf b
  pure
    {
      description := Role.description role
      start := b.start
      size := b.size
    }

/- The belts as regions, in address order. -/
def beltRegions (h : Heap) : Except Fault (List MemoryRegion) :=
  h.layout.belts.toList.mapM h.beltRegion

/- All regions of the heap: the belts and those of the runtime. -/
def allRegions (h : Heap) : Except Fault (List MemoryRegion) := do
  let belts ← h.beltRegions
  pure (belts ++ h.runtimeRegions)

end Heap

------------------------------------------------------------
-- Publishing
------------------------------------------------------------

namespace HeapM

/- Change the published information. -/
def updateInfo (f : HeapInfo → HeapInfo) : HeapM Unit :=
  update fun h => h.mapInfo f

/- Change the epochs. -/
def updateEpochs (f : Epochs → Epochs) : HeapM Unit :=
  update fun h => h.mapEpochs f

/- Begin a collection epoch. -/
def beginEpoch : HeapM Nat :=
  Epochs.begin (fun r => r.heap.info.epochs) updateEpochs

/- End the collection epoch. -/
def finishEpoch : HeapM Unit :=
  Epochs.finish (fun r => r.heap.info.epochs) updateEpochs

/- Report the state of every belt under its role. -/
def reportBelts : HeapM Unit := do
  let layout ← reading (·.layout)
  layout.belts.toList.forM fun b => do
    let role ← layout.roleOf b
    b.report (Role.description role)

/- Publish the regions of the heap as they are now. -/
def publishRegions : HeapM Unit := do
  let regions ← reading (·.allRegions)
  HeapInfo.register updateInfo (← regions)
  reportBelts

/- Publish regions of the runtime, after the belts. -/
def registerRegions
    (regions : List MemoryRegion) : HeapM Unit := do
  update fun h => { h with runtimeRegions := regions }
  publishRegions

end HeapM

end BeltHeap
