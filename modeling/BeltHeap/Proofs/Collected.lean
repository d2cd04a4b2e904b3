import BeltHeap.Mutator
import BeltHeap.Proofs.Blocks

/-
  Whatever a program did before, a collection returns and
  preserves the graph of the objects that are reachable from the
  root slots.

  Main declarations:
    * `Heap.Sound.isWellFormed`
    * `Heap.Sound.mem_of_reachable`
    * `Heap.KeepsGraph`
    * `Program.collect_preserves_graph`
-/

------------------------------------------------------------
-- Objects of Sound Heaps
------------------------------------------------------------

namespace BeltHeap

namespace Layout

variable {nursery mature : Belt}

/- The first belt of a pair that has some property. -/
theorem find_pair
    (heap : Span)
    {p : Belt → Bool}
    (hOne : ¬ (p nursery = true ∧ p mature = true)) :
    (p nursery = true →
        (pair nursery mature heap).belts.find? p =
          some nursery) ∧
      (p mature = true →
        (pair nursery mature heap).belts.find? p =
          some mature) := by
  unfold pair
  constructor
  · intro hNursery
    have hMature : p mature = false := by
      rw [← Bool.not_eq_true]
      exact fun hMature => hOne ⟨hNursery, hMature⟩
    split <;> simp [hNursery, hMature]
  · intro hMature
    have hNursery : p nursery = false := by
      rw [← Bool.not_eq_true]
      exact fun hNursery => hOne ⟨hNursery, hMature⟩
    split <;> simp [hNursery, hMature]

end Layout

namespace Heap

namespace Sound

variable {rt : Runtime}
variable {h : Heap}
variable {nursery mature : Belt}
variable {old young : List Nat}
variable {object : Nat}

/- The mark above an object is that of its belt. -/
theorem markAbove
    (hSound : Sound rt h nursery mature old young)
    (hMem : object ∈ old ++ young) :
    ∃ mark, h.markAbove? object = some mark ∧
      object + Object.size h.memory object ≤ mark := by
  have hFits := hSound.shape.fits
  have hBounds := hFits.bounds
  have hNursery := hFits.nurseryMark
  have hMature := hFits.matureMark
  have hHeader := (hSound.proper hMem).header_le
  have hUsed (b : Belt) :
      b.containsAllocated object = true ↔
        b.start ≤ object ∧ object < b.mark :=
    Span.contains_iff
  have hOne :
      ¬ (nursery.containsAllocated object = true ∧
        mature.containsAllocated object = true) := by
    rw [hUsed, hUsed]
    omega
  rcases Layout.find_pair h.layout.heap
      (p := fun b => b.containsAllocated object) hOne with
    ⟨hFirst, hSecond⟩
  rw [← hSound.shape.layout] at hFirst hSecond
  unfold markAbove?
  rcases List.mem_append.mp hMem with hOld | hYoung
  · have hRange := hSound.mem_old hOld
    rw [hSecond ((hUsed mature).mpr (by omega))]
    exact ⟨mature.mark, rfl, hRange.2.2⟩
  · have hRange := hSound.mem_young hYoung
    rw [hFirst ((hUsed nursery).mpr (by omega))]
    exact ⟨nursery.mark, rfl, hRange.2.2⟩

/- The objects of a sound heap are well-formed. -/
theorem isWellFormed
    (hSound : Sound rt h nursery mature old young)
    (hMem : object ∈ old ++ young) :
    h.isWellFormed object = true := by
  rcases hSound.markAbove hMem with ⟨mark, hMark, hStop⟩
  have hAligned := hSound.aligned hMem
  have hProper := hSound.proper hMem
  have hHeader := hProper.header_le
  have hWhole := hProper.whole
  have hRoom := hProper.room
  unfold Object.bytesFor Object.headerWords at hRoom
  unfold Word.bytes at hAligned hWhole hRoom
  unfold Heap.isWellFormed
  rw [hMark]
  unfold Object.bytesFor Object.headerWords Word.bytes
  simp only [Bool.and_eq_true, beq_iff_eq, decide_eq_true_eq]
  omega

theorem mem_of_reachable
    (hSound : Sound rt h nursery mature old young)
    (hStandard : rt.Standard)
    (hObject : Reachable rt h object) :
    object ∈ old ++ young := by
  induction hObject with
  | root hSlot hNull =>
      exact (hSound.roots _ hSlot).resolve_left hNull
  | field _ hField hNull ih =>
      rw [hStandard.fields] at hField
      exact (hSound.fields _ ih _ hField).resolve_left hNull

end Sound

end Heap

------------------------------------------------------------
-- Preserved Graphs
------------------------------------------------------------

namespace Heap

variable {rt : Runtime}
variable {h g : Heap}
variable {nursery mature : Belt}
variable {old young : List Nat}

/-
  A map takes the reachable objects of one heap one by one to
  those of another: root slots and fields refer to the images of
  what they referred to, sizes and payloads are the same, and
  the images are well-formed objects that do not overlap.
-/
structure KeepsGraph
    (rt : Runtime)
    (f : Nat → Nat)
    (h g : Heap) : Prop where
  carries : Carries rt f h g
  images :
    ∀ object, Reachable rt g object ↔
      ∃ origin, Reachable rt h origin ∧ f origin = object
  wellFormed :
    ∀ object, Reachable rt g object →
      g.isWellFormed object = true
  apart :
    ∀ object other, Reachable rt g object →
      Reachable rt g other → object ≠ other →
        Object.Apart g.memory object other

/- What collections lead to keeps the graph. -/
theorem Follows.keepsGraph
    (hStandard : rt.Standard)
    (hFollows : Follows rt h g nursery mature old young) :
    ∃ f, KeepsGraph rt f h g := by
  rcases hFollows.carries with ⟨f, hCarries⟩
  have hAfter := hFollows.sound
  have hMember :
      ∀ object, Reachable rt g object → object ∈ old ++ young :=
    fun _ => hAfter.mem_of_reachable hStandard
  refine ⟨f, hCarries, ?_, ?_, ?_⟩
  · intro object
    constructor
    · exact hCarries.reachable_preimage hStandard
    · rintro ⟨origin, hOrigin, rfl⟩
      exact hCarries.reachable_image hStandard hOrigin
  · intro object hObject
    exact hAfter.isWellFormed (hMember object hObject)
  · intro object other hObject hOther hNe
    exact
      hAfter.apart_of_ne (hMember object hObject)
        (hMember other hOther) hNe

end Heap

namespace Program

variable {rt : Runtime}
variable {s : State}

/-
  A collection of any heap that a program reaches returns and
  keeps the graph, for every requested size and whatever its
  answer is.
-/
theorem collect_preserves_graph
    (hReached : Reached rt s)
    (bytes : Nat) :
    ∃ success t u f,
      HeapM.collectGarbage rt bytes s.run = (.ok success, t) ∧
        HeapM.collect rt bytes s.run = (.ok success, u) ∧
        u.state.heap = t.state.heap ∧
        Heap.KeepsGraph rt f s.heap t.state.heap := by
  have hStandard := hReached.standard
  rcases hReached.invariant with
    ⟨nursery, mature, old, young, hSound, -⟩
  rcases HeapM.yields_collectGarbage bytes hStandard hSound with
    ⟨success, g, nursery', mature', old', young', hYields,
      hFollows, -, -⟩
  rcases hYields s.run rfl with ⟨t, hRun, ht, -⟩
  rcases HeapM.yields_collect hYields s.run rfl with
    ⟨u, hExecute, hu, -⟩
  rcases hFollows.keepsGraph hStandard with ⟨f, hKeeps⟩
  subst ht
  exact ⟨success, t, u, f, hRun, hExecute, hu, hKeeps⟩

/- In the small run, only a mature object keeps a new one. -/
theorem collect_preserves_graph_small :
    ∃ success t u f,
      HeapM.collectGarbage {} 0 small.run = (.ok success, t) ∧
        HeapM.collect {} 0 small.run = (.ok success, u) ∧
        u.state.heap = t.state.heap ∧
        Heap.KeepsGraph {} f small.heap t.state.heap :=
  collect_preserves_graph reached_small 0

end Program

end BeltHeap
