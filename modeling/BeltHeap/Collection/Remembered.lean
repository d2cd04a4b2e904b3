import BeltHeap.Heap.State

/-
  The slots of mature objects that lie on dirty cards.  A minor
  collection treats them as roots instead of scanning the whole
  mature belt.

  Key definitions include:
    * `Collection.walk`
    * `Heap.slotsOnCard`
    * `HeapM.rememberedSlots`
    * `Heap.allMatureSlots`
-/

------------------------------------------------------------
-- Walking Objects
------------------------------------------------------------

namespace BeltHeap

namespace Collection

/-
  The slots within `window` of the objects that lie one after
  the other from `cursor` up to `limit`.
-/
def walk
    (rt : Runtime)
    (m : Memory)
    (window : Span)
    (limit cursor : Nat) : Except Fault (List Nat) :=
  if _hLimit : cursor < limit then
    let size := Object.size m cursor
    if _hSize : size = 0 then .error (.sizelessObject cursor)
    else
      let slots := (rt.fields m cursor).filter window.contains
      if Word.limit ≤ cursor + size then .error .addOverflow
      else do
        let rest ← walk rt m window limit (cursor + size)
        pure (slots ++ rest)
  else .ok []
termination_by limit - cursor
decreasing_by omega

end Collection

------------------------------------------------------------
-- Dirty Cards
------------------------------------------------------------

namespace Heap

/- What the scan of a card comes to. -/
inductive CardScan where
| unused : CardScan
| noObject (start : Nat) : CardScan
| slots (addresses : List Nat) : CardScan
deriving DecidableEq, Repr

/-
  The slots of mature objects on a card.  A card outside of the
  allocated part of the mature belt has none; on any other one
  the walk starts at the object that covers its first byte.
-/
def slotsOnCard
    (rt : Runtime)
    (h : Heap)
    (card : Nat) : Except Fault CardScan := do
  let used := h.mature.usedSpan
  let start ← h.cards.cardStart card
  let stop ← Word.add start h.cards.cardBytes
  if used.stop ≤ start || stop ≤ used.start then pure .unused
  else
    match ← h.firstObjects.first card with
    | none => pure (.noObject start)
    | some object => do
        let slots ←
          Collection.walk rt h.memory ⟨start, stop⟩
            (min stop used.stop) object
        pure (.slots slots)

end Heap

namespace HeapM

/-
  The remembered slots of the given cards, in order.  A card
  without an object is reported and passed by.
-/
def slotsOnCards
    (rt : Runtime) : List Nat → HeapM (List Nat)
| [] => pure []
| card :: cards => do
    let scan ← reading fun h => h.slotsOnCard rt card
    let slots ←
      match ← scan with
      | .unused => pure []
      | .noObject start => do
          Activity.emit (.cardWithoutObject card start)
          pure []
      | .slots slots => pure slots
    let rest ← slotsOnCards rt cards
    pure (slots ++ rest)

/- The slots of mature objects on all dirty cards. -/
def rememberedSlots (rt : Runtime) : HeapM (List Nat) := do
  slotsOnCards rt (← reading fun h => h.cards.dirtyCards)

end HeapM

------------------------------------------------------------
-- The Whole Mature Belt
------------------------------------------------------------

namespace Heap

/- The slots of all objects in the mature belt, one by one. -/
def allMatureSlots
    (rt : Runtime)
    (h : Heap) : Except Fault (List Nat) :=
  Collection.walk rt h.memory h.layout.heap h.mature.mark
    h.mature.start

end Heap

end BeltHeap
