import BeltHeap.Proofs.Accounting
import BeltHeap.Proofs.Blocks
import BeltHeap.Proofs.Handling

/-
  What an observer may rely on that looks at the heap after any
  single write of a collection.  Either a collection is under
  way, and the epochs tell so, or the published regions are those
  that the heap has and the root table refers to objects.

  Main declarations:
    * `Heap.Published`, `Heap.RootsAreObjects`
    * `Heap.Observable`
    * `Heap.Stable`, `Heap.Stable.observable`
    * `Heap.NotBehind`
    * `HeapM.shows_collectGarbage`
    * `Program.observers_see_stable_heaps`
-/

------------------------------------------------------------
-- What Observers See
------------------------------------------------------------

namespace BeltHeap

/- Where a belt starts and how long it is. -/
def Belt.record (b : Belt) : Nat × Nat :=
  (b.start, b.size)

namespace Heap

/-
  The belts lie in address order, and observers see the records
  of the belts and then those of the runtime's regions, up to
  the number of records.
-/
structure Published (h : Heap) : Prop where
  order :
    h.layout.belts.toList.Pairwise fun b c => b.stop ≤ c.start
  visible :
    h.info.visible =
      (h.layout.belts.toList.map Belt.record ++
          h.runtimeRegions.map MemoryRegion.record).take
        Limits.inspectableRegions

/-
  Every entry of the root table is null or the start of one of
  the objects that fill a belt up to its mark.
-/
def RootsAreObjects (h : Heap) : Prop :=
  ∀ handle, h.readSlot (.entry handle) ≠ 0 →
    ∃ b ∈ h.layout.belts, ∃ objects,
      Object.Tiles h.memory b.mark b.start objects ∧
        h.readSlot (.entry handle) ∈ objects

/-
  The root epoch is not ahead of the collection epoch, and where
  they are equal, regions and roots can be relied on.
-/
def Observable (h : Heap) : Prop :=
  h.epochs.root ≤ h.epochs.collection ∧
    (h.epochs.root = h.epochs.collection →
      Published h ∧ RootsAreObjects h)

/- While a collection is under way there is nothing to rely on. -/
theorem observable_of_collecting
    {h : Heap}
    (hCollecting : h.epochs.isCollecting = true) :
    Observable h := by
  have hBehind := of_decide_eq_true hCollecting
  exact
    ⟨Nat.le_of_lt hBehind,
      fun hSame => absurd hSame (Nat.ne_of_lt hBehind)⟩

------------------------------------------------------------
-- Stable Heaps
------------------------------------------------------------

/-
  What holds of a heap between operations: it is sound, accounts
  for itself, and its root table is tidy.
-/
structure Stable
    (rt : Runtime)
    (h : Heap)
    (nursery mature : Belt)
    (old young : List Nat) : Prop where
  sound : Sound rt h nursery mature old young
  accounts : Accounts h
  tidy : h.roots.Tidy

variable {rt : Runtime}
variable {h g : Heap}
variable {nursery mature nursery' mature' : Belt}
variable {old young old' young' : List Nat}
variable {bytes : Nat}
variable {success : Bool}

/- The belts of a sound heap lie in address order. -/
theorem Shape.order
    (hShape : Shape h nursery mature) :
    h.layout.belts.toList.Pairwise
      fun b c => b.stop ≤ c.start := by
  rw [hShape.layout]
  unfold Layout.pair
  rcases hShape.fits.place with
    ⟨hFirst, -, -, hAdjoin, -⟩ | ⟨-, hLast, -, hAdjoin, -⟩
  · dsimp only
    rw [if_pos hFirst]
    exact List.pairwise_pair.mpr (Nat.le_of_eq hAdjoin)
  · dsimp only
    rw [if_neg (by omega)]
    exact List.pairwise_pair.mpr (Nat.le_of_eq hAdjoin)

/- The records of the regions are those of the belts. -/
theorem Shape.records
    (hShape : Shape h nursery mature) :
    (h.regionsOf nursery mature).map MemoryRegion.record =
      h.layout.belts.toList.map Belt.record ++
        h.runtimeRegions.map MemoryRegion.record := by
  unfold regionsOf Layout.pairRegions
  rw [hShape.layout, List.map_append]
  congr 1
  unfold Layout.pair
  split <;> rfl

namespace Stable

/- Regions of a stable heap are published as they are. -/
theorem published
    (hStable : Stable rt h nursery mature old young) :
    Published h := by
  have hShape := hStable.sound.shape
  refine ⟨hShape.order, ?_⟩
  rcases hStable.accounts.published with
    ⟨regions, hRegions, hSame⟩
  rw [HeapM.allRegions_of_pair hShape] at hRegions
  cases hRegions
  rw [← hSame,
    HeapInfo.visible_published hStable.accounts.records,
    hShape.records]

/- The root table of a stable heap refers to objects. -/
theorem rootsAreObjects
    (hStable : Stable rt h nursery mature old young) :
    RootsAreObjects h := by
  have hSound := hStable.sound
  have hLayout := hSound.shape.layout
  intro handle hNull
  have hHandle : handle < h.roots.highWater := by
    refine Nat.lt_of_not_le fun hUnused => hNull ?_
    exact hStable.tidy.unused handle hUnused
  have hSlot : Slot.entry handle ∈ h.rootSlots rt :=
    mem_rootSlots.mpr (Or.inl ⟨handle, hHandle, hNull, rfl⟩)
  have hObject := (hSound.roots _ hSlot).resolve_left hNull
  have hBelts :
      nursery ∈ h.layout.belts ∧ mature ∈ h.layout.belts := by
    rw [hLayout]
    unfold Layout.pair
    dsimp only
    split <;> simp
  rcases List.mem_append.mp hObject with hOld | hYoung
  · exact ⟨mature, hBelts.2, old, hSound.oldTiles, hOld⟩
  · exact ⟨nursery, hBelts.1, young, hSound.youngTiles, hYoung⟩

/- A stable heap may be observed. -/
theorem observable
    (hStable : Stable rt h nursery mature old young) :
    Observable h :=
  ⟨Nat.le_of_eq hStable.accounts.settled,
    fun _ => ⟨hStable.published, hStable.rootsAreObjects⟩⟩

/- A stable heap stays stable when its cards are cleared. -/
theorem cleared
    (hStable : Stable rt h nursery mature old young) :
    Stable rt (h.cleared nursery) nursery mature old young where
  sound := hStable.sound.cleared.sound
  accounts := hStable.accounts.cleared
  tidy := hStable.tidy.sameUse hStable.sound.cleared.entries

/- A heap is stable again after a minor collection. -/
theorem minor
    (hStandard : rt.Standard)
    (hStable : Stable rt h nursery mature old young)
    (hMinor :
      MinorCollects rt bytes h nursery mature old young success
        g nursery' mature' old' young') :
    Stable rt g nursery' mature' old' young' := by
  have hFollows := (hMinor.follows hStandard hStable.sound).1
  exact
    ⟨hFollows.sound,
      hMinor.accounts hStandard hStable.sound hStable.accounts,
      hStable.tidy.sameUse hFollows.entries⟩

/- A heap is stable again after a major collection. -/
theorem major
    (hStandard : rt.Standard)
    (hStable : Stable rt h nursery mature old [])
    (hMajor :
      MajorCollects rt bytes h nursery mature old success g
        nursery' mature' old') :
    Stable rt g nursery' mature' old' [] := by
  have hFollows := (hMajor.follows hStandard hStable.sound).1
  exact
    ⟨hFollows.sound, hMajor.accounts hStable.accounts,
      hStable.tidy.sameUse hFollows.entries⟩

end Stable

end Heap

------------------------------------------------------------
-- Collections Under Observation
------------------------------------------------------------

namespace HeapM

open Heap

variable {α : Type}
variable {rt : Runtime}
variable {h g : Heap}
variable {nursery mature : Belt}
variable {old young : List Nat}
variable {bytes : Nat}

/- Heaps between collections may be observed if the last may. -/
theorem Shows.observable
    {work : HeapM α}
    (hShows :
      Shows work h fun k =>
        k.epochs.isCollecting = true ∨ k = g)
    (hLast : Observable g) :
    Shows work h Observable := by
  intro s before hStart hBefore
  rcases hShows s before hStart hBefore with
    ⟨during, hEnd, hAll⟩
  refine ⟨during, hEnd, fun k hk => ?_⟩
  rcases hAll k hk with hCollecting | rfl
  · exact observable_of_collecting hCollecting
  · exact hLast

/- Clearing the cards shows at most the heap with clean cards. -/
theorem shows_clearCards
    (hStable : Stable rt h nursery mature old young) :
    Shows clearCards h Observable := by
  have hCleared := hStable.cleared.observable
  have hShape := hStable.sound.shape
  unfold clearCards
  apply shows_read
  rw [hShape.nursery_eq]
  unfold Heap.cleared at hCleared
  split
  · rename_i hEmpty
    rw [if_pos hEmpty] at hCleared
    exact shows_update hCleared
  · exact shows_of_same fun _ => rfl

theorem shows_conclude
    (hStable : Stable rt h nursery mature old young)
    (success : Bool) :
    Shows
      (do
        clearCards
        pure success)
      h Observable :=
  shows_bind (yields_clearCards hStable.sound.shape)
    (shows_clearCards hStable) (shows_of_same fun _ => rfl)

/- A collection shows nothing more where no major one follows. -/
theorem shows_collectGarbage_minor
    {success : Bool}
    (hMinor : Yields (minorCollect rt bytes) h (.ok success) g)
    (hShows : Shows (minorCollect rt bytes) h Observable)
    (hStable : Stable rt g nursery mature old young)
    (hEnough : (success && matureIsHalfFull g) = false) :
    Shows (collectGarbage rt bytes) h Observable := by
  unfold collectGarbage
  refine shows_bind hMinor hShows ?_
  apply shows_read
  rw [hEnough]
  refine shows_bind (yields_pure success)
    (shows_of_same fun _ => rfl) ?_
  exact shows_conclude hStable success

theorem shows_collectGarbage_major
    {success : Bool}
    {k : Heap}
    (hMinor : Yields (minorCollect rt bytes) h (.ok true) k)
    (hShows : Shows (minorCollect rt bytes) h Observable)
    (hHalf : matureIsHalfFull k = true)
    (hMajor : Yields (majorCollect rt bytes) k (.ok success) g)
    (hShowsMajor : Shows (majorCollect rt bytes) k Observable)
    (hStable : Stable rt g nursery mature old young) :
    Shows (collectGarbage rt bytes) h Observable := by
  unfold collectGarbage
  refine shows_bind hMinor hShows ?_
  apply shows_read
  rw [hHalf]
  apply shows_read
  refine shows_bind (yields_emit rfl)
    (shows_of_same fun _ => rfl) ?_
  refine shows_bind hMajor hShowsMajor ?_
  exact shows_conclude hStable success

/- All heaps that a collection passes through may be observed. -/
theorem shows_collectGarbage
    (hStandard : rt.Standard)
    (hStable : Stable rt h nursery mature old young)
    (bytes : Nat) :
    Shows (collectGarbage rt bytes) h Observable := by
  have hSound := hStable.sound
  have hOrder := hStable.observable.1
  cases hLatched : h.outOfMemory with
  | true =>
      refine shows_collectGarbage_minor
        (yields_minorCollect_latched hLatched) ?_ hStable rfl
      unfold minorCollect
      apply shows_read
      rw [hLatched]
      exact shows_of_same fun _ => rfl
  | false =>
      rcases yields_minorCollect bytes hStandard hSound
          hLatched with
        ⟨minor, k, nursery₁, mature₁, old₁, young₁, hRunMinor,
          hMinor⟩
      have hFirst := hStable.minor hStandard hMinor
      have hShows :=
        (shows_minorCollect hLatched hOrder hRunMinor).observable
          hFirst.observable
      by_cases hHalf : (minor && matureIsHalfFull k) = true
      · rw [Bool.and_eq_true] at hHalf
        rcases hHalf with ⟨rfl, hFull⟩
        rcases hMinor.of_success with ⟨rfl, hLatch, -⟩
        have hUsable := hLatch.trans hLatched
        rcases yields_majorCollect bytes hStandard hFirst.sound
            hUsable with
          ⟨success, g, nursery', mature', old', hRunMajor,
            hMajor⟩
        have hSecond := hFirst.major hStandard hMajor
        have hShowsMajor :=
          (shows_majorCollect hUsable hFirst.observable.1
            hRunMajor).observable hSecond.observable
        exact
          shows_collectGarbage_major hRunMinor hShows hFull
            hRunMajor hShowsMajor hSecond
      · rw [Bool.not_eq_true] at hHalf
        exact
          shows_collectGarbage_minor hRunMinor hShows hFirst
            hHalf

end HeapM

------------------------------------------------------------
-- Epochs of Programs
------------------------------------------------------------

/- Neither epoch is behind what it was in an earlier heap. -/
def Heap.NotBehind (h g : Heap) : Prop :=
  h.epochs.collection ≤ g.epochs.collection ∧
    h.epochs.root ≤ g.epochs.root

/- Epochs that advance in the right order never fall behind. -/
theorem HeapRun.Leads.notBehind
    {r q : HeapRun}
    (hLeads : Leads Heap.Advances r q)
    (hOrder : r.heap.epochs.root ≤ r.heap.epochs.collection) :
    Leads Heap.NotBehind r q := by
  have hFrom {k g : Heap}
      (hFirst : k.epochs.root ≤ k.epochs.collection)
      (hAdvances : Heap.Advances k g) :
      Heap.NotBehind k g :=
    (hAdvances hFirst).2
  refine ⟨hFrom hOrder hLeads.last, ?_⟩
  intro before hBefore
  rcases hLeads.trail before hBefore with
    ⟨during, hEnd, hPairs, hLast⟩
  have hSince :
      ∀ k ∈ during ++ [r.heap],
        k.epochs.root ≤ k.epochs.collection := by
    intro k hk
    rcases List.mem_append.mp hk with hIn | hStart
    · have hPair :=
        (List.pairwise_append.mp hPairs).2.2 k hIn r.heap
          (List.mem_singleton_self _)
      exact (hPair hOrder).1
    · rw [List.mem_singleton.mp hStart]
      exact hOrder
  refine ⟨during, hEnd, ?_, ?_⟩
  · refine hPairs.imp_of_mem ?_
    intro later earlier _ hEarlier hAdvances
    exact hFrom (hSince earlier hEarlier) hAdvances
  · intro k hk
    exact
      hFrom (hSince k (List.mem_append_left _ hk)) (hLast k hk)

namespace Program

open Heap

variable {rt : Runtime}
variable {s : State}

/- The heap of an orderly program is stable. -/
theorem Orderly.stable
    (hOrderly : Orderly rt s) :
    ∃ nursery mature old young,
      Stable rt s.heap nursery mature old young := by
  have hReached := hOrderly.reached
  rcases hReached.invariant with
    ⟨nursery, mature, old, young, hSound, -⟩
  exact
    ⟨nursery, mature, old, young, hSound, hReached.accounts,
      hOrderly.tidy⟩

/-
  Between the operations of an orderly program both epochs are
  the number of collections so far, and no state that it passes
  through is behind an earlier one.  All states that a collection
  passes through may be observed.
-/
theorem observers_see_stable_heaps
    (hOrderly : Orderly rt s) :
    (s.heap.epochs.root = s.heap.epochs.collection ∧
        s.heap.epochs.collection =
          s.heap.stats.minor + s.heap.stats.major) ∧
      (∀ action,
        s.run.state.Leads NotBehind
          (perform rt action s.run).2.state) ∧
      ∀ bytes,
        s.run.state.Leads NotBehind
            (HeapM.collectGarbage rt bytes s.run).2.state ∧
          HeapM.Shows (HeapM.collectGarbage rt bytes) s.heap
            Observable := by
  rcases hOrderly.stable with
    ⟨nursery, mature, old, young, hStable⟩
  have hOrder := hStable.observable.1
  refine
    ⟨⟨hStable.accounts.settled, hStable.accounts.counted⟩,
      fun action => ?_, fun bytes => ⟨?_, ?_⟩⟩
  · exact (respects_perform action s.run).notBehind hOrder
  · exact
      (HeapM.respects_collectGarbage bytes s.run).notBehind
        hOrder
  · exact
      HeapM.shows_collectGarbage hOrderly.reached.standard
        hStable bytes

/- The small run is orderly. -/
theorem orderly_small : Orderly {} small := by
  have hStart : Orderly {} smallStart :=
    .start standard_default starts_small
  have hOld : Orderly {} smallOld :=
    hStart.step (by exact trivial) step_smallOld
  have hBoth : Orderly {} smallBoth :=
    hOld.step (by exact trivial) step_smallBoth
  have hLinked : Orderly {} smallLinked :=
    hBoth.step (by exact trivial) step_smallLinked
  exact hLinked.step (by exact trivial) step_small

/- The collections of the small heap may be observed. -/
theorem observers_see_stable_heaps_small :
    (small.heap.epochs.root = small.heap.epochs.collection ∧
        small.heap.epochs.collection =
          small.heap.stats.minor + small.heap.stats.major) ∧
      (∀ action,
        small.run.state.Leads NotBehind
          (perform {} action small.run).2.state) ∧
      ∀ bytes,
        small.run.state.Leads NotBehind
            (HeapM.collectGarbage {} bytes small.run).2.state ∧
          HeapM.Shows (HeapM.collectGarbage {} bytes) small.heap
            Observable :=
  observers_see_stable_heaps orderly_small

end Program

end BeltHeap
