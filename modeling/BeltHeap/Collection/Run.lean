import BeltHeap.Collection.Placing
import BeltHeap.Collection.Remembered
import BeltHeap.Heap.Publishing

/-
  One collection.  Everything reachable in the condemned spans
  is found first, then given a new address, then every slot that
  refers to it is rewritten, and only then are the objects
  copied.  A collection whose survivors do not fit fails before
  anything changes.

  Key definitions include:
    * `Collection.Summary`
    * `HeapM.findRootSlots`
    * `HeapM.forwardSlot`, `HeapM.forwardSlots`
    * `HeapM.moveObjects`
    * `HeapM.settle`
    * `HeapM.runCollection`
-/

------------------------------------------------------------
-- Root Slots
------------------------------------------------------------

namespace BeltHeap

/- What a collection did. -/
structure Collection.Summary where
  kind : Collection.Kind
  objects : Nat
  promotedBytes : Nat
deriving DecidableEq, Repr

namespace Heap

/-
  The slots of the root table that hold references and those
  that the runtime reports, each once.
-/
def rootSlots
    (rt : Runtime)
    (h : Heap) : List Slot :=
  Slot.sortUnique (h.roots.liveEntries.map .entry ++ rt.reports)

end Heap

namespace HeapM

/- Ask for the slots that hold roots. -/
def findRootSlots (rt : Runtime) : HeapM (List Slot) := do
  noteScan
  reading fun h => h.rootSlots rt

------------------------------------------------------------
-- Forwarding
------------------------------------------------------------

/- Point a slot at the new address of its object, if it moves. -/
def forwardSlot
    (moved : Std.HashMap Nat Nat)
    (s : Slot) : HeapM Unit := do
  match moved[← reading fun h => h.readSlot s]? with
  | some object => update fun h => h.writeSlot s object
  | none => pure ()

/- Point the fields of an object at new addresses. -/
def forwardFields
    (rt : Runtime)
    (moved : Std.HashMap Nat Nat)
    (object : Nat) : HeapM Unit := do
  let fields ← reading fun h => rt.fields h.memory object
  fields.forM fun a => forwardSlot moved (.field a)

/-
  Point slots, and the fields of the survivors, at the new
  addresses of their objects.  The fields are rewritten in
  place, before the survivors are copied.
-/
def forwardSlots
    (rt : Runtime)
    (slots : List Slot)
    (moves : List Collection.Move) : HeapM Unit := do
  let moved := Collection.forwarding moves
  slots.forM (forwardSlot moved)
  moves.forM fun m => forwardFields rt moved m.source

/- Copy the survivors to their new addresses. -/
def moveObjects
    (moves : List Collection.Move) : HeapM Unit :=
  moves.forM fun m =>
    if m.source = m.dest then pure ()
    else update fun h => h.mapMemory fun mem => mem.copyObject m

------------------------------------------------------------
-- Settling the Belts
------------------------------------------------------------

/- Move the mark of a belt. -/
def setMark
    (b : Belt)
    (mark : Nat) : HeapM Unit := do
  let b ← b.setMark mark
  update (Heap.setBelt b)

/- Forget everything in a belt. -/
def resetBelt (b : Belt) : HeapM Unit := do
  update fun h => h.mapMemory fun m => (b.reset m).2
  update (Heap.setBelt b.emptied)

/- Forget the objects noted for the cards of a span. -/
def forgetObjects (s : Span) : HeapM Unit := do
  let run ← reading fun h => h.firstObjects.cardsIn s
  let run ← run
  update fun h =>
    { h with firstObjects := h.firstObjects.fill run 0 }

/- Note an object of the mature belt. -/
def recordObject
    (start size : Nat) : HeapM Unit := do
  let run ← reading fun h => h.firstObjects.cardsUnder start size
  let run ← run
  update fun h =>
    { h with firstObjects := h.firstObjects.fill run start }

/- Set whether the belt that is mature now may grow. -/
def setMatureExpandable (expandable : Bool) : HeapM Unit := do
  let mature ← reading (·.mature)
  update (Heap.setBelt { mature with expandable })

/-
  Swap the roles of the two belts.  Whether a belt may grow goes
  with the role of the mature belt.
-/
def swapRoles : HeapM Unit := do
  let mature ← reading (·.mature)
  setMatureExpandable false
  let layout ← reading (·.layout)
  let layout ← layout.swap Role.nursery Role.mature
  update fun h => { h with layout }
  setMatureExpandable mature.expandable

/- Bring marks and roles in line with the moved survivors. -/
def settleBelts
    (kind : Collection.Kind)
    (destination : Collection.Destination)
    (moves : List Collection.Move) : HeapM Unit := do
  let nursery ← reading (·.nursery)
  let mature ← reading (·.mature)
  let stop? := Collection.lastStop? moves
  match destination with
  | .appendToMature => do
      match stop? with
      | some stop => setMark mature stop
      | none => pure ()
      resetBelt nursery
  | .evacuateToNursery => do
      forgetObjects mature.span
      setMark nursery (stop?.getD nursery.start)
      resetBelt mature
      swapRoles
  | .slideInMature => do
      let mark := stop?.getD mature.start
      forgetObjects mature.span
      if mark < mature.mark then
        update fun h =>
          h.mapMemory fun m => m.clear mark (mature.mark - mark)
      setMark mature mark
      if kind = .fullHeap then resetBelt nursery

/- Note the survivors in their new places in the mature belt. -/
def recordSurvivors
    (moves : List Collection.Move) : HeapM Unit :=
  moves.forM fun m => do
    let mature ← reading (·.mature)
    if mature.contains m.dest then recordObject m.dest m.size
    else throw .survivorOutsideMature

/- Finish a collection whose survivors have been copied. -/
def settle
    (kind : Collection.Kind)
    (destination : Collection.Destination)
    (moves : List Collection.Move) : HeapM Unit := do
  settleBelts kind destination moves
  recordSurvivors moves

------------------------------------------------------------
-- Collections
------------------------------------------------------------

/-
  Find the slots that a collection starts from: the root slots,
  and for a minor collection the remembered slots as well.
-/
def findStartSlots
    (rt : Runtime)
    (kind : Collection.Kind) : HeapM (List Slot) := do
  let roots ← findRootSlots rt
  let remembered ←
    if kind = .minor then rememberedSlots rt else pure []
  Activity.emit (.slotsFound roots.length remembered.length)
  pure (roots ++ remembered.map .field)

/- The survivors of a collection that starts from some slots. -/
def findSurvivors
    (rt : Runtime)
    (spans : List Span)
    (slots : List Slot) : HeapM (List Collection.LiveObject) :=
  reading fun h =>
    Collection.findLive rt h.memory spans (slots.map h.readSlot)

/- Run a collection. -/
def runCollection
    (rt : Runtime)
    (kind : Collection.Kind) :
    HeapM (Except Collection.Shortfall Collection.Summary) := do
  let nursery ← reading (·.nursery)
  let mature ← reading (·.mature)
  let spans := Collection.condemned kind nursery mature
  Activity.emit (.collectionStarts kind spans)
  let slots ← findStartSlots rt kind
  let live ← findSurvivors rt spans slots
  match ← Collection.place kind nursery mature live with
  | .error shortfall => pure (.error shortfall)
  | .ok plan => do
      Activity.emit
        (.survivorsPlaced live.length plan.bytes plan.destination
          plan.start)
      forwardSlots rt slots plan.moves
      moveObjects plan.moves
      settle kind plan.destination plan.moves
      pure
        (.ok
          {
            kind
            objects := plan.moves.length
            promotedBytes :=
              Collection.promotedBytes nursery plan.moves
          })

end HeapM

end BeltHeap
