import BeltHeap.Collection.Run

/-
  When a heap is collected, and how.  A minor collection falls
  back on a full-heap one where the survivors do not fit, and is
  followed by a major one once the mature belt holds half of the
  heap.

  Key definitions include:
    * `HeapM.minorCollect`
    * `HeapM.majorCollect`
    * `HeapM.collectGarbage`
-/

------------------------------------------------------------
-- Minor Collections
------------------------------------------------------------

namespace BeltHeap

namespace HeapM

/- Remember the marks of all belts. -/
def snapshotMarks : HeapM Unit :=
  update fun h =>
    { h with
      layout :=
        { h.layout with
          belts := h.layout.belts.map Belt.takeSnapshot } }

/- Latch that the heap is out of memory. -/
def latchOutOfMemory : HeapM Unit :=
  update fun h => { h with outOfMemory := true }

/-
  Promote the survivors of the nursery, or compact the whole
  heap where they do not fit.
-/
def promoteSurvivors
    (rt : Runtime) :
    HeapM (Except Collection.Shortfall Collection.Summary) := do
  match ← runCollection rt .minor with
  | .ok summary => pure (.ok summary)
  | .error failure => do
      Activity.emit (.collectionEscalates failure)
      update fun h =>
        h.mapStats fun s => { s with fullHeap := s.fullHeap + 1 }
      runCollection rt .fullHeap

/- Count what a minor collection did, or latch its failure. -/
def concludeMinor
    (epoch : Nat)
    (outcome : Except Collection.Shortfall Collection.Summary) :
    HeapM Unit := do
  match outcome with
  | .ok summary => do
      update fun h =>
        h.mapStats fun s =>
          { s with
            promotedBytes :=
              s.promotedBytes + summary.promotedBytes }
      let mature ← reading (·.mature)
      Activity.emit
        (.minorCollected epoch summary.kind summary.objects
          summary.promotedBytes mature.used mature.size)
  | .error failure => do
      Activity.emit (.minorFailed epoch failure)
      latchOutOfMemory

/-
  Promote the live part of the nursery.  The answer tells
  whether the nursery has room for `bytes` bytes afterwards.
-/
def minorCollect
    (rt : Runtime)
    (bytes : Nat) : HeapM Bool := do
  if ← reading (·.outOfMemory) then
    Activity.emit .collectionSkipped
    pure false
  else
    let epoch ← beginEpoch
    snapshotMarks
    update fun h =>
      h.mapStats fun s => { s with minor := s.minor + 1 }
    let outcome ← promoteSurvivors rt
    concludeMinor epoch outcome
    publishRegions
    finishEpoch
    reading fun h =>
      !h.outOfMemory && bytes ≤ h.nursery.remaining

------------------------------------------------------------
-- Major Collections
------------------------------------------------------------

/- Report what a major collection did, or latch its failure. -/
def concludeMajor
    (epoch : Nat)
    (outcome : Except Collection.Shortfall Collection.Summary) :
    HeapM Unit := do
  match outcome with
  | .ok summary => do
      let mature ← reading (·.mature)
      Activity.emit
        (.majorCollected epoch summary.kind summary.objects
          mature.used mature.size)
  | .error failure => do
      Activity.emit (.majorFailed epoch failure)
      latchOutOfMemory

/- Latch a mature belt without room for `bytes` bytes. -/
def checkMatureRoom (bytes : Nat) : HeapM Unit := do
  let mature ← reading (·.mature)
  if mature.remaining < bytes then
    Activity.emit (.matureShort mature.remaining bytes)
    latchOutOfMemory

/-
  Compact the mature belt.  The answer tells whether it has room
  for `bytes` bytes afterwards.
-/
def majorCollect
    (rt : Runtime)
    (bytes : Nat) : HeapM Bool := do
  if ← reading (·.outOfMemory) then pure false
  else
    let epoch ← beginEpoch
    snapshotMarks
    update fun h =>
      h.mapStats fun s => { s with major := s.major + 1 }
    let outcome ← runCollection rt .major
    concludeMajor epoch outcome
    checkMatureRoom bytes
    publishRegions
    finishEpoch
    reading fun h => !h.outOfMemory

------------------------------------------------------------
-- Whole Collections
------------------------------------------------------------

/- Is the mature belt full enough for a major collection? -/
def matureIsHalfFull (h : Heap) : Bool :=
  h.config.usableMemory ≤ h.mature.used

/-
  Make every card clean where the nursery is empty, since no
  mature slot can refer to it then.  A failed collection left
  objects in the nursery, and the cards are still needed.
-/
def clearCards : HeapM Unit := do
  if ← reading fun h => h.nursery.isEmpty then
    update fun h => { h with cards := h.cards.clearAll }

/-
  Collect so that the nursery has room for `bytes` bytes.  The
  answer tells whether it has.
-/
def collectGarbage
    (rt : Runtime)
    (bytes : Nat) : HeapM Bool := do
  let minor ← minorCollect rt bytes
  let half ← reading matureIsHalfFull
  let success ←
    if minor && half then do
      Activity.emit (.matureHalfFull (← reading (·.mature.used)))
      majorCollect rt bytes
    else pure minor
  clearCards
  pure success

end HeapM

end BeltHeap
