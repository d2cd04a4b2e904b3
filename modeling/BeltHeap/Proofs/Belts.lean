import BeltHeap.Heap.State

/-
  The two belts of a heap: one is the nursery and the other is
  mature, and together they make up the heap.

  Main declarations:
    * `Layout.pair`
    * `Layout.Fits`
    * `Layout.pair_setBelt_nursery`, `Layout.pair_setBelt_mature`
    * `Layout.swapped_pair`
    * `Heap.nursery_of_pair`, `Heap.mature_of_pair`
-/

------------------------------------------------------------
-- Addresses of Belts
------------------------------------------------------------

namespace BeltHeap

theorem Span.contains_iff
    {s : Span}
    {a : Nat} :
    s.contains a = true ↔ s.start ≤ a ∧ a < s.stop := by
  simp [Span.contains]

theorem Belt.contains_iff
    {b : Belt}
    {a : Nat} :
    b.contains a = true ↔ b.start ≤ a ∧ a < b.stop :=
  Span.contains_iff

theorem Belt.size_of_span
    {b c : Belt}
    (hSpan : b.span = c.span) :
    b.size = c.size := by
  have hStart : b.start = c.start := congrArg Span.start hSpan
  have hStop : b.stop = c.stop := congrArg Span.stop hSpan
  unfold Belt.size
  rw [hStart, hStop]

------------------------------------------------------------
-- Pairs of Belts
------------------------------------------------------------

namespace Layout

/- A nursery and a mature belt, in the order of their indexes. -/
def pair
    (nursery mature : Belt)
    (heap : Span) : Layout where
  belts :=
    if nursery.index = 0 then #[nursery, mature]
    else #[mature, nursery]
  roles := #[nursery.index, mature.index]
  heap := heap

/- One belt lies first in the heap and the other one last. -/
def Adjoin
    (first last : Belt)
    (heap : Span) : Prop :=
  first.index = 0 ∧ last.index = 1 ∧
    heap.start = first.start ∧ first.stop = last.start ∧
    last.stop = heap.stop

/-
  A nursery and a mature belt make up a heap: they start on
  pages, their marks lie within their bounds, and no address
  near the heap is null or wraps around.
-/
structure Fits
    (nursery mature : Belt)
    (heap : Span) : Prop where
  place :
    Adjoin nursery mature heap ∨ Adjoin mature nursery heap
  nurseryPage : nursery.start % Word.pageBytes = 0
  maturePage : mature.start % Word.pageBytes = 0
  nurseryMark :
    nursery.start ≤ nursery.mark ∧ nursery.mark ≤ nursery.stop
  matureMark :
    mature.start ≤ mature.mark ∧ mature.mark ≤ mature.stop
  start_pos : 0 < heap.start
  stop_le : heap.stop + Word.pageBytes ≤ Word.limit

namespace Fits

variable {nursery mature b : Belt}
variable {heap : Span}

/- The belts of a pair lie in the heap, one above the other. -/
theorem bounds
    (h : Fits nursery mature heap) :
    (nursery.stop ≤ mature.start ∨
        mature.stop ≤ nursery.start) ∧
      heap.start ≤ nursery.start ∧
      heap.start ≤ mature.start ∧
      nursery.stop ≤ heap.stop ∧ mature.stop ≤ heap.stop ∧
      heap.stop < Word.limit := by
  have hNursery := h.nurseryMark
  have hMature := h.matureMark
  have hPlace := h.place
  have hLimit := h.stop_le
  unfold Adjoin at hPlace
  unfold Word.pageBytes at hLimit
  omega

/- The roles may be swapped. -/
theorem swap
    (h : Fits nursery mature heap) :
    Fits mature nursery heap where
  place := h.place.symm
  nurseryPage := h.maturePage
  maturePage := h.nurseryPage
  nurseryMark := h.matureMark
  matureMark := h.nurseryMark
  start_pos := h.start_pos
  stop_le := h.stop_le

/- The nursery may be replaced by a belt with its bounds. -/
theorem setNursery
    (h : Fits nursery mature heap)
    (hIndex : b.index = nursery.index)
    (hStart : b.start = nursery.start)
    (hStop : b.stop = nursery.stop)
    (hMark : b.start ≤ b.mark ∧ b.mark ≤ b.stop) :
    Fits b mature heap where
  place := by
    have hPlace := h.place
    unfold Adjoin at hPlace ⊢
    rw [hIndex, hStart, hStop]
    exact hPlace
  nurseryPage := by
    rw [hStart]
    exact h.nurseryPage
  maturePage := h.maturePage
  nurseryMark := hMark
  matureMark := h.matureMark
  start_pos := h.start_pos
  stop_le := h.stop_le

theorem setMature
    (h : Fits nursery mature heap)
    (hIndex : b.index = mature.index)
    (hStart : b.start = mature.start)
    (hStop : b.stop = mature.stop)
    (hMark : b.start ≤ b.mark ∧ b.mark ≤ b.stop) :
    Fits nursery b heap :=
  (h.swap.setNursery hIndex hStart hStop hMark).swap

end Fits

------------------------------------------------------------
-- Replacing Belts
------------------------------------------------------------

variable {nursery mature b : Belt}
variable {heap : Span}

/- A belt with the index of the nursery takes its place. -/
theorem pair_setBelt_nursery
    (hFits : Fits nursery mature heap)
    (hIndex : b.index = nursery.index) :
    (pair nursery mature heap).setBelt b =
      pair b mature heap := by
  unfold setBelt pair
  rcases hFits.place with hPlace | hPlace
  · simp [hIndex, hPlace.1]
  · simp [hIndex, hPlace.2.1]

/- A belt with the index of the mature belt takes its place. -/
theorem pair_setBelt_mature
    (hFits : Fits nursery mature heap)
    (hIndex : b.index = mature.index) :
    (pair nursery mature heap).setBelt b =
      pair nursery b heap := by
  unfold setBelt pair
  rcases hFits.place with hPlace | hPlace
  · simp [hIndex, hPlace.1, hPlace.2.1]
  · simp [hIndex, hPlace.1, hPlace.2.1]

/- Swapped roles make a pair in which the belts changed sides. -/
theorem swapped_pair
    (hFits : Fits nursery mature heap) :
    (pair nursery mature heap).swapped Role.nursery Role.mature =
      .ok (pair mature nursery heap) := by
  unfold swapped indexOf pair Role.nursery Role.mature
  rcases hFits.place with hPlace | hPlace
  · simp [hPlace.1, hPlace.2.1, pure, bind, Except.pure,
      Except.bind]
  · simp [hPlace.1, hPlace.2.1, pure, bind, Except.pure,
      Except.bind]

/- All marks are remembered at once. -/
theorem map_takeSnapshot_pair :
    { pair nursery mature heap with
        belts :=
          (pair nursery mature heap).belts.map
            Belt.takeSnapshot } =
      pair nursery.takeSnapshot mature.takeSnapshot heap := by
  unfold pair Belt.takeSnapshot
  by_cases hIndex : nursery.index = 0
  · simp [hIndex]
  · simp [hIndex]

------------------------------------------------------------
-- Looking Up
------------------------------------------------------------

theorem mem_belts_pair :
    b ∈ (pair nursery mature heap).belts ↔
      b = nursery ∨ b = mature := by
  unfold pair
  by_cases hIndex : nursery.index = 0
  · simp [hIndex]
  · simp [hIndex, or_comm]

/- The nursery of a pair plays its role. -/
theorem roleOf_nursery :
    (pair nursery mature heap).roleOf nursery =
      .ok Role.nursery := by
  unfold roleOf pair Role.nursery
  simp [List.idxOf?, List.findIdx?, List.findIdx?.go]

theorem roleOf_mature
    (hFits : Fits nursery mature heap) :
    (pair nursery mature heap).roleOf mature =
      .ok Role.mature := by
  unfold roleOf pair Role.mature
  rcases hFits.place with hPlace | hPlace <;>
    simp [hPlace.1, hPlace.2.1, List.idxOf?, List.findIdx?,
      List.findIdx?.go]

/- Both belts of a pair have a role. -/
theorem roleOf_pair
    (hFits : Fits nursery mature heap)
    (hBelt : b ∈ (pair nursery mature heap).belts) :
    ∃ r, (pair nursery mature heap).roleOf b = .ok r := by
  rcases mem_belts_pair.mp hBelt with rfl | rfl
  · exact ⟨_, roleOf_nursery⟩
  · exact ⟨_, roleOf_mature hFits⟩

/- The mature belt of a pair plays its role. -/
theorem belt_mature_pair
    (hFits : Fits nursery mature heap) :
    (pair nursery mature heap).belt Role.mature =
      .ok mature := by
  unfold Layout.belt indexOf beltAt pair Role.mature
  rcases hFits.place with hPlace | hPlace
  · simp [hPlace.1, hPlace.2.1, bind, Except.bind]
  · simp [hPlace.1, hPlace.2.1, bind, Except.bind]

/- Only the nursery can be the belt above the mature belt. -/
theorem neighbour_pair
    (hFits : Fits nursery mature heap)
    (hBelt :
      (pair nursery mature heap).belts[mature.index + 1]? =
        some b) :
    b = nursery ∧ Adjoin mature nursery heap := by
  unfold pair at hBelt
  rcases hFits.place with hPlace | hPlace
  · simp [hPlace.1, hPlace.2.1] at hBelt
  · simp only [hPlace.1, hPlace.2.1] at hBelt
    simp at hBelt
    exact ⟨hBelt.symm, hPlace⟩

end Layout

------------------------------------------------------------
-- The Belts of a Heap
------------------------------------------------------------

namespace Heap

/- The heap with other belts. -/
def withLayout
    (layout : Layout)
    (h : Heap) : Heap :=
  { h with layout }

variable {h : Heap}
variable {nursery mature b : Belt}
variable {heap : Span}

/- Replacing the nursery of a pair. -/
theorem setBelt_nursery
    (hFits : Layout.Fits nursery mature heap)
    (hLayout : h.layout = Layout.pair nursery mature heap)
    (hIndex : b.index = nursery.index) :
    h.setBelt b =
      h.withLayout (Layout.pair b mature heap) := by
  unfold setBelt withLayout
  rw [hLayout, Layout.pair_setBelt_nursery hFits hIndex]

/- Replacing the mature belt of a pair. -/
theorem setBelt_mature
    (hFits : Layout.Fits nursery mature heap)
    (hLayout : h.layout = Layout.pair nursery mature heap)
    (hIndex : b.index = mature.index) :
    h.setBelt b =
      h.withLayout (Layout.pair nursery b heap) := by
  unfold setBelt withLayout
  rw [hLayout, Layout.pair_setBelt_mature hFits hIndex]

theorem nursery_of_pair
    (hFits : Layout.Fits nursery mature heap)
    (hLayout : h.layout = Layout.pair nursery mature heap) :
    h.nursery = nursery := by
  unfold Heap.nursery beltOf Role.nursery
  rw [hLayout]
  unfold Layout.pair
  rcases hFits.place with hPlace | hPlace
  · simp [hPlace.1]
  · simp [hPlace.2.1]

theorem mature_of_pair
    (hFits : Layout.Fits nursery mature heap)
    (hLayout : h.layout = Layout.pair nursery mature heap) :
    h.mature = mature := by
  unfold Heap.mature beltOf Role.mature
  rw [hLayout]
  unfold Layout.pair
  rcases hFits.place with hPlace | hPlace
  · simp [hPlace.1, hPlace.2.1]
  · simp [hPlace.1, hPlace.2.1]

end Heap

end BeltHeap
