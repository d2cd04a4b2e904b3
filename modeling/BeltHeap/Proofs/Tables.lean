import BeltHeap.Proofs.Blocks

/-
  The two tables beside the heap, in every state that a program
  reaches: the card table remembers all references from the
  mature belt into the nursery, and the first-object table holds
  the object under the first byte of each card.

  Main declarations:
    * `Heap.MatureObjects`
    * `Heap.RemembersNursery`
    * `Heap.KnowsFirstObjects`
    * `Program.remembers_nursery`
    * `Program.knows_first_objects`
-/

------------------------------------------------------------
-- Exact Tables
------------------------------------------------------------

namespace BeltHeap

namespace Heap

/-
  The used part of the mature belt is tiled by objects, live or
  dead, one right after the other.
-/
def MatureObjects
    (h : Heap)
    (objects : List Nat) : Prop :=
  Object.Tiles h.memory h.mature.mark h.mature.start objects

/-
  Every slot of the objects that refers into the nursery is on a
  dirty card.
-/
def RemembersNursery
    (h : Heap)
    (objects : List Nat) : Prop :=
  ∀ object ∈ objects, ∀ a ∈ Object.fields h.memory object,
    h.nursery.contains (h.memory.load a) = true →
      ∃ card, h.cards.index a = .ok card ∧
        h.cards.isDirty card = .ok true

/- Is an address in the used part of the mature belt? -/
def InUsedMature
    (h : Heap)
    (a : Nat) : Prop :=
  h.mature.start ≤ a ∧ a < h.mature.mark

/-
  The first-object table holds the object that covers the first
  byte of a card where that byte is in the used part of the
  mature belt, and nothing elsewhere.
-/
structure KnowsFirstObjects
    (h : Heap)
    (objects : List Nat) : Prop where
  starts :
    ∀ card < h.cards.size, ∃ a, h.cards.cardStart card = .ok a
  covered :
    ∀ card a, h.cards.cardStart card = .ok a →
      h.InUsedMature a →
        ∃ object ∈ objects,
          h.firstObjects.first card = .ok (some object) ∧
            object ≤ a ∧ a < object + Object.size h.memory object
  uncovered :
    ∀ card a, h.cards.cardStart card = .ok a →
      ¬ h.InUsedMature a →
        h.firstObjects.first card = .ok none

namespace Sound

variable {rt : Runtime}
variable {h : Heap}
variable {nursery mature : Belt}
variable {old young objects : List Nat}

/- The mature objects of a sound heap tile its mature belt. -/
theorem matureObjects
    (hSound : Sound rt h nursery mature old young) :
    h.MatureObjects old := by
  unfold MatureObjects
  rw [hSound.shape.mature_eq]
  exact hSound.oldTiles

/- The mature objects are those that the mature belt has. -/
theorem matureObjects_eq
    (hSound : Sound rt h nursery mature old young)
    (hObjects : h.MatureObjects objects) :
    objects = old :=
  hObjects.unique hSound.matureObjects

/- The card table of a sound heap remembers the nursery. -/
theorem remembersNursery
    (hSound : Sound rt h nursery mature old young) :
    h.RemembersNursery old := by
  intro object hObject a ha hIn
  rw [hSound.shape.nursery_eq] at hIn
  have hPos := hSound.shape.fits.start_pos
  have hBounds := hSound.shape.fits.bounds
  have hMember : h.memory.load a ∈ old ++ young := by
    refine
      (hSound.fields object (List.mem_append_left _ hObject) a
        ha).resolve_left ?_
    intro hNull
    rw [hNull, Belt.contains_iff] at hIn
    omega
  have hYoung : h.memory.load a ∈ young :=
    (hSound.nursery_contains_iff hMember).mp hIn
  exact
    (CardTable.onDirtyCard_iff hSound.shape.cards).mp
      (hSound.remembered object hObject a ha hYoung)

/- The first-object table of a sound heap is exact. -/
theorem knowsFirstObjects
    (hSound : Sound rt h nursery mature old young) :
    h.KnowsFirstObjects old := by
  have hStart :
      ∀ card a, h.cards.cardStart card = .ok a →
        card < h.firstObjects.starts.size ∧
          h.firstObjects.startOf card = a := by
    intro card a hCard
    have hLt : card < h.cards.size := by
      unfold CardTable.cardStart at hCard
      split at hCard
      · assumption
      · cases hCard
    rw [hSound.scannable.cardStart_eq hLt] at hCard
    cases hCard
    exact ⟨hSound.scannable.size_eq ▸ hLt, rfl⟩
  constructor
  · intro card hCard
    exact ⟨_, hSound.scannable.cardStart_eq hCard⟩
  · intro card a hCard hIn
    rcases hStart card a hCard with ⟨hLt, rfl⟩
    unfold InUsedMature at hIn
    rw [hSound.shape.mature_eq] at hIn
    rcases hSound.scannable.first_covered hLt hIn.1 hIn.2 with
      ⟨object, hObject, hFirst, hLow, hHigh⟩
    exact ⟨object, hObject, hFirst, hLow, hHigh⟩
  · intro card a hCard hOut
    rcases hStart card a hCard with ⟨hLt, rfl⟩
    unfold InUsedMature at hOut
    rw [hSound.shape.mature_eq] at hOut
    exact hSound.scannable.first_uncovered hLt hOut

end Sound

end Heap

------------------------------------------------------------
-- Tables of Programs
------------------------------------------------------------

namespace Program

variable {rt : Runtime}
variable {s : State}

/-
  Every slot of every object in the mature belt that refers into
  the nursery is on a dirty card, whatever a program did before.
-/
theorem remembers_nursery
    (hReached : Reached rt s) :
    (∃ objects, s.heap.MatureObjects objects) ∧
      ∀ objects, s.heap.MatureObjects objects →
        s.heap.RemembersNursery objects := by
  rcases hReached.invariant with
    ⟨nursery, mature, old, young, hSound, -⟩
  refine ⟨⟨old, hSound.matureObjects⟩, ?_⟩
  intro objects hObjects
  rw [hSound.matureObjects_eq hObjects]
  exact hSound.remembersNursery

/- The small run has a mature object that refers to a new one. -/
theorem remembers_nursery_small :
    (∃ objects, small.heap.MatureObjects objects) ∧
      ∀ objects, small.heap.MatureObjects objects →
        small.heap.RemembersNursery objects :=
  remembers_nursery reached_small

/-
  The mature belt is tiled by objects and the first-object table
  is exact, whatever a program did before.  No scan of a card
  misses its object, now or in a collection, and no action meets
  a dirty card without an object.
-/
theorem knows_first_objects
    (hReached : Reached rt s) :
    (∃ objects, s.heap.MatureObjects objects) ∧
      (∀ objects, s.heap.MatureObjects objects →
        s.heap.KnowsFirstObjects objects) ∧
      (∀ card < s.heap.cards.size, ∀ a,
        s.heap.slotsOnCard rt card ≠ .ok (.noObject a)) ∧
      (∀ bytes,
        s.run.log.AddsNoGap
          (HeapM.collectGarbage rt bytes s.run).2.log) ∧
      ∀ action answer t, Step rt s action answer t →
        s.run.log.AddsNoGap t.run.log := by
  have hStandard := hReached.standard
  rcases hReached.invariant with
    ⟨nursery, mature, old, young, hSound, -⟩
  refine ⟨⟨old, hSound.matureObjects⟩, ?_, ?_, ?_, ?_⟩
  · intro objects hObjects
    rw [hSound.matureObjects_eq hObjects]
    exact hSound.knowsFirstObjects
  · intro card hCard a
    exact
      hSound.scannable.slotsOnCard_ne_noObject
        hStandard.listsFields hCard a
  · intro bytes
    rcases HeapM.yields_collectGarbage bytes hStandard hSound
      with ⟨success, g, -, -, -, -, hYields, -⟩
    rcases hYields s.run rfl with ⟨t, hRun, -, hLog⟩
    rw [hRun]
    exact hLog
  · intro action answer t hStep
    exact (hStep.leaves hStandard hReached.invariant).2

/- The small run has an object under the first bytes of cards. -/
theorem knows_first_objects_small :
    (∃ objects, small.heap.MatureObjects objects) ∧
      (∀ objects, small.heap.MatureObjects objects →
        small.heap.KnowsFirstObjects objects) ∧
      (∀ card < small.heap.cards.size, ∀ a,
        small.heap.slotsOnCard {} card ≠ .ok (.noObject a)) ∧
      (∀ bytes,
        small.run.log.AddsNoGap
          (HeapM.collectGarbage {} bytes small.run).2.log) ∧
      ∀ action answer t, Step {} small action answer t →
        small.run.log.AddsNoGap t.run.log :=
  knows_first_objects reached_small

end Program

end BeltHeap
