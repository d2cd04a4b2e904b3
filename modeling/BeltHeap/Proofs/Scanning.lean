import BeltHeap.Proofs.Tables

/-
  The scan of the dirty cards against a walk over the whole
  mature belt.  Whichever cards are dirty, both find the same
  slots.

  Main declarations:
    * `Heap.withMarks`
    * `Heap.Scannable.withMarks`
    * `Heap.Scannable.allMatureSlots_eq`
    * `Heap.IsSlotOnDirtyCard`
    * `Program.card_scans_match_walks`
-/

------------------------------------------------------------
-- Other Dirty Cards
------------------------------------------------------------

namespace BeltHeap

namespace Heap

/- The heap with other marks in its card table. -/
def withMarks
    (marks : Array Bool)
    (h : Heap) : Heap :=
  { h with cards := { h.cards with marks } }

theorem memory_withMarks
    (marks : Array Bool)
    (h : Heap) :
    (h.withMarks marks).memory = h.memory :=
  rfl

/- Is it a slot of one of the objects, on a dirty card? -/
def IsSlotOnDirtyCard
    (rt : Runtime)
    (h : Heap)
    (objects : List Nat)
    (a : Nat) : Prop :=
  (∃ object ∈ objects, a ∈ rt.fields h.memory object) ∧
    ∃ card, h.cards.index a = .ok card ∧
      h.cards.isDirty card = .ok true

namespace Scannable

variable {rt : Runtime}
variable {h : Heap}
variable {nursery mature : Belt}
variable {old : List Nat}

/- The scan does not rely on which cards are dirty. -/
theorem withMarks
    (hScan : Scannable h nursery mature old)
    {marks : Array Bool}
    (hMarks : marks.size = h.cards.size) :
    Scannable (h.withMarks marks) nursery mature old := by
  have hShape := hScan.shape
  have hCards :
      (h.withMarks marks).cards.Covers h.layout.heap :=
    ⟨hShape.cards.covered, hShape.cards.log,
      hMarks.trans hShape.cards.size⟩
  exact
    ⟨⟨hShape.layout, hShape.fits, hCards, hShape.starts,
        hShape.sameCards, hShape.regions⟩,
      hScan.oldTiles, hScan.firsts⟩

/- A walk over the whole mature belt finds all of its slots. -/
theorem allMatureSlots_eq
    (hScan : Scannable h nursery mature old)
    (hStandard : rt.Standard) :
    h.allMatureSlots rt = .ok (h.matureSlots old) := by
  have hBounds := hScan.shape.fits.bounds
  have hMark := hScan.shape.fits.matureMark
  have hInHeap :
      (h.matureSlots old).filter h.layout.heap.contains =
        h.matureSlots old :=
    List.filter_eq_self.mpr fun _ ha =>
      hScan.matureSlots_in_heap ha
  unfold allMatureSlots
  rw [hScan.shape.mature_eq,
    Collection.walk_eq hStandard.listsFields mature.mark
      hScan.oldTiles (by omega) (Nat.le_refl _)
      (fun _ ha _ => ha)]
  have hListed := listedSlots_eq hStandard h old
  unfold listedSlots at hListed
  rw [hListed, hInHeap]

theorem nodup_dirtySlots
    (hScan : Scannable h nursery mature old) :
    ((h.matureSlots old).filter h.cards.onDirtyCard).Nodup := by
  refine List.Nodup.filter _ ?_
  refine hScan.oldTiles.pairwise_slots.imp ?_
  intro a b hab
  unfold Word.bytes at hab
  omega

/-
  The slots that are listed are those of mature objects on dirty
  cards.
-/
theorem mem_dirtySlots
    (hScan : Scannable h nursery mature old)
    (hStandard : rt.Standard)
    (a : Nat) :
    a ∈ (h.matureSlots old).filter h.cards.onDirtyCard ↔
      h.IsSlotOnDirtyCard rt old a := by
  unfold IsSlotOnDirtyCard matureSlots
  rw [List.mem_filter, List.mem_flatMap, hStandard.fields,
    CardTable.onDirtyCard_iff hScan.shape.cards]

end Scannable

end Heap

------------------------------------------------------------
-- Scans of Programs
------------------------------------------------------------

namespace Program

open Heap

variable {rt : Runtime}
variable {s : State}

/-
  Whatever a program did before and whichever cards are dirty,
  the scan of the cards does not break off.  It finds the slots
  of mature objects on dirty cards, each of them once, which are
  those that a walk over the whole mature belt finds on them.
-/
theorem card_scans_match_walks
    (hReached : Reached rt s)
    {marks : Array Bool}
    (hMarks : marks.size = s.heap.cards.size) :
    ∃ objects slots walked,
      s.heap.MatureObjects objects ∧
        HeapM.Yields (HeapM.rememberedSlots rt)
          (s.heap.withMarks marks) (.ok slots)
          (s.heap.withMarks marks) ∧
        slots.Nodup ∧
        (∀ a,
          a ∈ slots ↔
            (s.heap.withMarks marks).IsSlotOnDirtyCard rt
              objects a) ∧
        (s.heap.withMarks marks).allMatureSlots rt =
          .ok walked ∧
        slots =
          walked.filter
            (s.heap.withMarks marks).cards.onDirtyCard := by
  have hStandard := hReached.standard
  rcases hReached.invariant with
    ⟨nursery, mature, old, young, hSound, -⟩
  have hScan := hSound.scannable.withMarks hMarks
  exact
    ⟨old, _, _, hSound.matureObjects,
      (hScan.quiet_rememberedSlots hStandard).yields,
      hScan.nodup_dirtySlots, hScan.mem_dirtySlots hStandard,
      hScan.allMatureSlots_eq hStandard, rfl⟩

/-
  With all cards dirty, the slot of the mature object of the
  small run is found once, though the object is on many cards.
-/
theorem card_scans_match_walks_small :
    ∃ slots walked,
      HeapM.Yields (HeapM.rememberedSlots {})
          (smallBoth.heap.withMarks (Array.replicate 128 true))
          (.ok slots)
          (smallBoth.heap.withMarks
            (Array.replicate 128 true)) ∧
        slots.count 81936 = 1 ∧
        (smallBoth.heap.withMarks
            (Array.replicate 128 true)).allMatureSlots {} =
          .ok walked ∧
        slots =
          walked.filter
            (smallBoth.heap.withMarks
              (Array.replicate 128 true)).cards.onDirtyCard := by
  have hMarks :
      (Array.replicate 128 true).size =
        smallBoth.heap.cards.size := by
    decide +kernel
  have hBelt :
      smallBoth.heap.mature.start = 81920 ∧
        smallBoth.heap.mature.mark = 101920 := by
    decide +kernel
  rcases card_scans_match_walks
      (.step reached_smallOld step_smallBoth) hMarks with
    ⟨objects, slots, walked, hObjects, hYields, hNodup, hSlots,
      hWalk, hEq⟩
  have hFirst : 81920 ∈ objects := by
    unfold MatureObjects at hObjects
    rw [hBelt.1, hBelt.2] at hObjects
    rcases hObjects.exists_cover (Nat.le_refl _) (by decide) with
      ⟨object, hObject, hLow, -⟩
    have hBounds := hObjects.mem hObject
    rwa [Nat.le_antisymm hLow hBounds.2.1] at hObject
  have hField :
      81936 ∈ Object.fields smallBoth.heap.memory 81920 := by
    unfold Object.fields
    rw [refCount_smallBoth]
    decide
  have hCard :
      (smallBoth.heap.withMarks
            (Array.replicate 128 true)).cards.index 81936 =
          .ok 32 ∧
        (smallBoth.heap.withMarks
            (Array.replicate 128 true)).cards.isDirty 32 =
          .ok true := by
    decide +kernel
  have hFound : 81936 ∈ slots := by
    rw [hSlots]
    refine ⟨⟨81920, hFirst, ?_⟩, 32, hCard⟩
    rw [memory_withMarks]
    dsimp only
    exact hField
  exact
    ⟨slots, walked, hYields,
      List.count_eq_one_of_mem hNodup hFound, hWalk, hEq⟩

end Program

end BeltHeap
