import Mathlib.Data.List.Pairwise
import BeltHeap.Proofs.ObjectStarts
import BeltHeap.Proofs.RootSlots

/-
  What holds of a heap between any two operations of a mutator
  that keeps to its references: both belts are made of whole
  objects with nothing but zeros behind them, every reference is
  null or an object, mature slots that refer into the nursery
  lie on dirty cards, and the first-object table is exact.

  Main declarations:
    * `Heap.Shape`
    * `Heap.Sound`
    * `Heap.Sound.mem_old`, `Heap.Sound.mem_young`
    * `Heap.Sound.apart`
    * `Heap.Sound.frame`
-/

------------------------------------------------------------
-- Shapes
------------------------------------------------------------

namespace BeltHeap

namespace Heap

/-
  A heap is made up of a nursery and a mature belt, and both of
  its tables have the cards that cover it.
-/
structure Shape
    (h : Heap)
    (nursery mature : Belt) : Prop where
  layout :
    h.layout = Layout.pair nursery mature h.layout.heap
  fits : Layout.Fits nursery mature h.layout.heap
  cards : h.cards.Covers h.layout.heap
  starts : h.firstObjects.Covers h.layout.heap
  sameCards :
    h.firstObjects.logCardBytes = h.cards.logCardBytes
  regions :
    ∀ r ∈ h.runtimeRegions, r.start + r.size < Word.limit

namespace Shape

variable {h g : Heap}
variable {nursery mature : Belt}

theorem nursery_eq
    (hShape : Shape h nursery mature) :
    h.nursery = nursery :=
  nursery_of_pair hShape.fits hShape.layout

theorem mature_eq
    (hShape : Shape h nursery mature) :
    h.mature = mature :=
  mature_of_pair hShape.fits hShape.layout

/- A page is a whole number of words. -/
theorem start_aligned
    (hShape : Shape h nursery mature) :
    nursery.start % Word.bytes = 0 ∧
      mature.start % Word.bytes = 0 := by
  have hNursery := hShape.fits.nurseryPage
  have hMature := hShape.fits.maturePage
  unfold Word.pageBytes at hNursery hMature
  unfold Word.bytes
  omega

/- A heap that is laid out as a pair of fitting belts. -/
theorem of_pair
    {heap : Span}
    (hLayout : g.layout = Layout.pair nursery mature heap)
    (hFits : Layout.Fits nursery mature heap)
    (hCards : g.cards.Covers heap)
    (hStarts : g.firstObjects.Covers heap)
    (hSame :
      g.firstObjects.logCardBytes = g.cards.logCardBytes)
    (hRegions :
      ∀ r ∈ g.runtimeRegions, r.start + r.size < Word.limit) :
    Shape g nursery mature := by
  have hHeap : g.layout.heap = heap := by
    rw [hLayout]
    rfl
  subst hHeap
  exact ⟨hLayout, hFits, hCards, hStarts, hSame, hRegions⟩

end Shape

------------------------------------------------------------
-- Sound Heaps
------------------------------------------------------------

/-
  A heap of the given shape whose mature belt is made of the
  objects `old` and whose nursery is made of the objects
  `young`.
-/
structure Sound
    (rt : Runtime)
    (h : Heap)
    (nursery mature : Belt)
    (old young : List Nat) : Prop where
  shape : Shape h nursery mature
  oldTiles :
    Object.Tiles h.memory mature.mark mature.start old
  youngTiles :
    Object.Tiles h.memory nursery.mark nursery.start young
  matureFree :
    ∀ a, mature.mark ≤ a → a < mature.stop →
      h.memory.byte a = 0
  nurseryFree :
    ∀ a, nursery.mark ≤ a → a < nursery.stop →
      h.memory.byte a = 0
  fields :
    ∀ object ∈ old ++ young,
      ∀ a ∈ Object.fields h.memory object,
        h.memory.load a = 0 ∨ h.memory.load a ∈ old ++ young
  roots :
    ∀ s ∈ h.rootSlots rt,
      h.readSlot s = 0 ∨ h.readSlot s ∈ old ++ young
  remembered :
    ∀ object ∈ old, ∀ a ∈ Object.fields h.memory object,
      h.memory.load a ∈ young → h.cards.onDirtyCard a = true
  firsts :
    h.firstObjects.Exact (Object.size h.memory) old

namespace Sound

variable {rt : Runtime}
variable {h g : Heap}
variable {nursery mature : Belt}
variable {old young : List Nat}
variable {object : Nat}

theorem mem_old
    (hSound : Sound rt h nursery mature old young)
    (hMem : object ∈ old) :
    Object.Proper h.memory object ∧ mature.start ≤ object ∧
      object + Object.size h.memory object ≤ mature.mark :=
  hSound.oldTiles.mem hMem

theorem mem_young
    (hSound : Sound rt h nursery mature old young)
    (hMem : object ∈ young) :
    Object.Proper h.memory object ∧ nursery.start ≤ object ∧
      object + Object.size h.memory object ≤ nursery.mark :=
  hSound.youngTiles.mem hMem

/- All objects are proper. -/
theorem proper
    (hSound : Sound rt h nursery mature old young)
    (hMem : object ∈ old ++ young) :
    Object.Proper h.memory object := by
  rcases List.mem_append.mp hMem with hOld | hYoung
  · exact (hSound.mem_old hOld).1
  · exact (hSound.mem_young hYoung).1

/- All objects lie in the heap, above null. -/
theorem in_heap
    (hSound : Sound rt h nursery mature old young)
    (hMem : object ∈ old ++ young) :
    0 < object ∧ h.layout.heap.start ≤ object ∧
      object + Object.size h.memory object ≤
        h.layout.heap.stop := by
  have hBounds := hSound.shape.fits.bounds
  have hNursery := hSound.shape.fits.nurseryMark
  have hMature := hSound.shape.fits.matureMark
  have hPos := hSound.shape.fits.start_pos
  rcases List.mem_append.mp hMem with hOld | hYoung
  · have hIn := hSound.mem_old hOld
    omega
  · have hIn := hSound.mem_young hYoung
    omega

/- No object is null. -/
theorem ne_null
    (hSound : Sound rt h nursery mature old young)
    (hMem : object ∈ old ++ young) :
    object ≠ 0 :=
  Nat.ne_of_gt (hSound.in_heap hMem).1

/- All objects are aligned to words. -/
theorem aligned
    (hSound : Sound rt h nursery mature old young)
    (hMem : object ∈ old ++ young) :
    object % Word.bytes = 0 := by
  have hAligned := hSound.shape.start_aligned
  rcases List.mem_append.mp hMem with hOld | hYoung
  · exact hSound.oldTiles.aligned hAligned.2 object hOld
  · exact hSound.youngTiles.aligned hAligned.1 object hYoung

/- No two objects overlap. -/
theorem apart
    (hSound : Sound rt h nursery mature old young) :
    (old ++ young).Pairwise (Object.Apart h.memory) := by
  have hBounds := hSound.shape.fits.bounds
  have hNursery := hSound.shape.fits.nurseryMark
  have hMature := hSound.shape.fits.matureMark
  rw [List.pairwise_append]
  refine ⟨?_, ?_, ?_⟩
  · exact hSound.oldTiles.pairwise.imp Or.inl
  · exact hSound.youngTiles.pairwise.imp Or.inl
  · intro o ho p hp
    have hOld := hSound.mem_old ho
    have hYoung := hSound.mem_young hp
    unfold Object.Apart
    omega

theorem apart_of_ne
    (hSound : Sound rt h nursery mature old young)
    {other : Nat}
    (hMem : object ∈ old ++ young)
    (hOther : other ∈ old ++ young)
    (hNe : object ≠ other) :
    Object.Apart h.memory object other :=
  hSound.apart.forall hMem hOther hNe

theorem nodup
    (hSound : Sound rt h nursery mature old young) :
    (old ++ young).Nodup := by
  refine hSound.apart.imp_of_mem ?_
  intro o p ho hp hApart hEq
  have hHeader := (hSound.proper ho).header_le
  unfold Object.Apart at hApart
  subst hEq
  omega

theorem not_mem_old
    (hSound : Sound rt h nursery mature old young)
    (hMem : object ∈ young) :
    object ∉ old := by
  intro hOld
  exact
    (List.nodup_append.mp hSound.nodup).2.2 object hOld
      object hMem rfl

theorem nursery_contains_iff
    (hSound : Sound rt h nursery mature old young)
    (hMem : object ∈ old ++ young) :
    nursery.contains object = true ↔ object ∈ young := by
  have hBounds := hSound.shape.fits.bounds
  have hNursery := hSound.shape.fits.nurseryMark
  have hMature := hSound.shape.fits.matureMark
  have hHeader := (hSound.proper hMem).header_le
  rw [Belt.contains_iff]
  constructor
  · intro hIn
    rcases List.mem_append.mp hMem with hOld | hYoung
    · have hRange := hSound.mem_old hOld
      omega
    · exact hYoung
  · intro hYoung
    have hRange := hSound.mem_young hYoung
    omega

theorem young_eq_nil
    (hSound : Sound rt h nursery mature old young)
    (hEmpty : nursery.isEmpty = true) :
    young = [] := by
  unfold Belt.isEmpty at hEmpty
  rw [beq_iff_eq] at hEmpty
  refine List.eq_nil_iff_forall_not_mem.mpr fun o ho => ?_
  rcases hSound.mem_young ho with ⟨hProper, hStart, hStop⟩
  have hHeader := hProper.header_le
  omega

/-
  What else is in the heap does not matter: its statistics, its
  epochs, what is published and whether it ran out of memory.
-/
theorem frame
    (hSound : Sound rt h nursery mature old young)
    (hLayout : g.layout = h.layout)
    (hMemory : g.memory = h.memory)
    (hCards : g.cards = h.cards)
    (hStarts : g.firstObjects = h.firstObjects)
    (hRoots : g.roots = h.roots)
    (hRegisters : g.registers = h.registers)
    (hRegions : g.runtimeRegions = h.runtimeRegions) :
    Sound rt g nursery mature old young := by
  cases g
  dsimp only at hLayout hMemory hCards hStarts
  dsimp only at hRoots hRegisters hRegions
  subst hLayout hMemory hCards hStarts hRoots hRegisters hRegions
  have hShape := hSound.shape
  exact
    ⟨⟨hShape.layout, hShape.fits, hShape.cards, hShape.starts,
        hShape.sameCards, hShape.regions⟩,
      hSound.oldTiles, hSound.youngTiles, hSound.matureFree,
      hSound.nurseryFree, hSound.fields, hSound.roots,
      hSound.remembered, hSound.firsts⟩

/-
  The runtime may report other slots, if they hold objects as
  well.
-/
theorem reported
    (hSound : Sound rt h nursery mature old young)
    {rt' : Runtime}
    (hRoots :
      ∀ s ∈ h.rootSlots rt',
        h.readSlot s = 0 ∨ h.readSlot s ∈ old ++ young) :
    Sound rt' h nursery mature old young :=
  { hSound with roots := hRoots }

end Sound

end Heap

end BeltHeap
