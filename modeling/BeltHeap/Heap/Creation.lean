import BeltHeap.Heap.Publishing

/-
  Laying out a new heap from a configuration.

  Key definitions include:
    * `Heap.layOut`
    * `Heap.create`
-/

------------------------------------------------------------
-- New Heaps
------------------------------------------------------------

namespace BeltHeap

namespace Heap

/- A belt layout in which the mature belt may grow or not. -/
def setExpandable
    (l : Layout)
    (expandable : Bool) : Except Fault Layout := do
  let mature ← l.belt Role.mature
  pure (l.setBelt { mature with expandable })

/-
  An empty heap, with as many registers as the runtime has, and
  nothing published yet.
-/
def layOut
    (placement : Placement)
    (registers : Nat)
    (config : HeapConfig) :
    ExceptT HeapInitError (Except Fault) Heap := do
  match config.validate with
  | .error e => throw e
  | .ok _ => pure ()
  let mapping ←
    match Mapping.reserve placement.heap config.maxHeapSize with
    | .error cause => throw (.unmapped cause)
    | .ok mapping => pure mapping
  let layout ←
    match ←
        (Layout.carve mapping.start config.maxHeapSize
          config.beltPercentages).run with
    | .error cause => throw (.layout cause)
    | .ok layout => pure layout
  let layout ← setExpandable layout config.matureExpandable
  let cards ← CardTable.make layout.heap config.logCardBytes
  let firstObjects ←
    FirstObjects.make layout.heap config.logCardBytes
  let roots ← RootTable.make config.rootCapacity
  pure
    {
      config, placement, layout, cards, firstObjects, roots
      memory := mapping.memory
      registers := Array.replicate registers 0
      info :=
        {
          rootsAddress := placement.roots
          rootsCapacity := config.rootCapacity
        }
      runtimeRegions := []
      outOfMemory := false
      stats := {}
    }

/- An empty heap that is published to observers. -/
def create
    (placement : Placement)
    (registers : Nat)
    (config : HeapConfig) :
    ExceptT HeapInitError (Except Fault) Heap := do
  let heap ← layOut placement registers config
  let (result, after) :=
    (HeapM.publishRegions).run.run { state := { heap } }
  match result with
  | .ok () => pure after.state.heap
  | .error f => (Except.error f : Except Fault Heap)

end Heap

end BeltHeap
