import BeltHeap.Heap.Mutating
import BeltHeap.Proofs.Records
import BeltHeap.Proofs.Respecting

/-
  What the parts of a collection write, in every state that they
  pass through: a pass touches nothing that is published, and
  publishing regions does not touch the epochs.  So a minor or a
  major collection is under way in all of its states but the
  last one.

  Main declarations:
    * `Heap.Same`, `Heap.outline`
    * `HeapM.respects_runCollection`
    * `HeapM.respects_publishRegions`
    * `HeapM.Closes`
    * `HeapM.shows_minorCollect`, `HeapM.shows_majorCollect`
-/

------------------------------------------------------------
-- Looking the Same
------------------------------------------------------------

namespace BeltHeap

namespace Heap

variable {β γ : Type}

/- Two heaps look the same. -/
def Same
    (look : Heap → β)
    (h g : Heap) : Prop :=
  look g = look h

instance
    {look : Heap → β} :
    IsPreorder Heap (Same look) where
  refl _ := rfl
  trans _ _ _ h₁ h₂ := h₂.trans h₁

/- The epochs of a heap. -/
def epochs (h : Heap) : Epochs :=
  h.info.epochs

/-
  What is published, and what it is derived from: the counters
  of collections and the regions of the heap.
-/
def account
    (h : Heap) :
    HeapInfo × CollectionStats × Except Fault (List MemoryRegion) :=
  (h.info, h.stats, h.allRegions)

/- A heap without what is published about its regions. -/
def unpublished (h : Heap) : Heap :=
  h.mapInfo fun i =>
    { i with regionCount := 0, records := #[], regions := [] }

/-
  What a collection leaves alone until it publishes the regions:
  what is published, where the heap is, and how many entries its
  root table has.
-/
def outline (h : Heap) : HeapInfo × Placement × Nat :=
  (h.info, h.placement, h.roots.entries.size)

/- Writing a slot leaves all of this alone. -/
theorem outline_writeSlot
    (h : Heap)
    (s : Slot)
    (object : Nat) :
    (h.writeSlot s object).outline = h.outline := by
  cases s with
  | entry handle =>
      refine congrArg (fun n => (h.info, h.placement, n)) ?_
      exact Array.size_setIfInBounds
  | register n => rfl
  | field a => rfl

end Heap

open Heap

namespace HeapM

variable {rt : Runtime}
variable {kind : Collection.Kind}
variable {destination : Collection.Destination}
variable {moves : List Collection.Move}
variable {moved : Std.HashMap Nat Nat}
variable {slots : List Slot}

------------------------------------------------------------
-- Finding Survivors
------------------------------------------------------------

/- Scanning cards writes nothing. -/
theorem respects_slotsOnCards
    (cards : List Nat) :
    Respects (Same outline) (slotsOnCards rt cards) := by
  induction cards with
  | nil => exact respects_pure []
  | cons card cards ih =>
      unfold slotsOnCards
      refine respects_read fun scan => ?_
      refine respects_computed fun result => ?_
      have hRest (slots : List Nat) :
          Respects (Same outline)
            (do
              let rest ← slotsOnCards rt cards
              pure (slots ++ rest)) :=
        respects_bind ih fun _ => respects_pure _
      cases result with
      | unused => exact hRest []
      | noObject start => exact respects_report (hRest [])
      | slots found => exact hRest found

theorem respects_findStartSlots :
    Respects (Same outline) (findStartSlots rt kind) := by
  have hRemembered :
      Respects (Same outline) (rememberedSlots rt) :=
    respects_read fun cards => respects_slotsOnCards cards
  unfold findStartSlots findRootSlots
  refine respects_bind
    (respects_bind respects_noteScan
      fun _ => respects_reading _) fun roots => ?_
  split
  · refine respects_bind hRemembered fun _ => ?_
    exact respects_report (respects_pure _)
  · refine respects_bind (respects_pure _) fun _ => ?_
    exact respects_report (respects_pure _)

------------------------------------------------------------
-- Moving Survivors
------------------------------------------------------------

/- Forwarding writes slots. -/
theorem respects_forwardSlot
    (s : Slot) :
    Respects (Same outline) (forwardSlot moved s) := by
  unfold forwardSlot
  refine respects_read fun object => ?_
  split
  · exact respects_update fun h => outline_writeSlot h s _
  · exact respects_pure ()

theorem respects_forwardSlots :
    Respects (Same outline) (forwardSlots rt slots moves) := by
  unfold forwardSlots forwardFields
  refine respects_bind
    (respects_forM fun s _ => respects_forwardSlot s) fun _ => ?_
  refine respects_forM fun m _ => ?_
  refine respects_read fun fields => ?_
  exact respects_forM fun a _ => respects_forwardSlot _

/- Copying writes memory. -/
theorem respects_moveObjects :
    Respects (Same outline) (moveObjects moves) := by
  refine respects_forM fun m _ => ?_
  split
  · exact respects_pure ()
  · exact respects_update fun _ => rfl

/- Setting a mark writes a belt. -/
theorem respects_setMark
    (b : Belt)
    (mark : Nat) :
    Respects (Same outline) (setMark b mark) :=
  respects_computed fun _ => respects_update fun _ => rfl

/- Resetting a belt writes memory and the belt. -/
theorem respects_resetBelt
    (b : Belt) :
    Respects (Same outline) (resetBelt b) :=
  respects_write (fun _ => rfl) (respects_update fun _ => rfl)

/- Forgetting objects writes the first-object table. -/
theorem respects_forgetObjects
    (s : Span) :
    Respects (Same outline) (forgetObjects s) :=
  respects_read fun _ =>
    respects_computed fun _ => respects_update fun _ => rfl

theorem respects_recordObject
    (start size : Nat) :
    Respects (Same outline) (recordObject start size) :=
  respects_read fun _ =>
    respects_computed fun _ => respects_update fun _ => rfl

/- Swapping the roles writes the layout. -/
theorem respects_swapRoles :
    Respects (Same outline) swapRoles := by
  have hSet (expandable : Bool) :
      Respects (Same outline)
        (setMatureExpandable expandable) :=
    respects_read fun _ => respects_update fun _ => rfl
  unfold swapRoles Layout.swap
  refine respects_read fun mature => ?_
  refine respects_bind (hSet _) fun _ => ?_
  refine respects_read fun layout => ?_
  refine respects_bind ?_ fun layout => ?_
  · refine respects_computed fun _ => ?_
    refine respects_computed fun _ => ?_
    exact respects_report (respects_lift _)
  · exact respects_write (fun _ => rfl) (hSet _)

/- Settling the belts writes memory, tables and belts. -/
theorem respects_settleBelts :
    Respects (Same outline)
      (settleBelts kind destination moves) := by
  unfold settleBelts
  refine respects_read fun nursery => ?_
  refine respects_read fun mature => ?_
  dsimp only
  cases destination with
  | appendToMature =>
      dsimp only
      split
      · exact
          respects_bind (respects_setMark _ _) fun _ =>
            respects_resetBelt _
      · exact respects_resetBelt _
  | evacuateToNursery =>
      refine respects_bind (respects_forgetObjects _) fun _ => ?_
      refine respects_bind (respects_setMark _ _) fun _ => ?_
      refine respects_bind (respects_resetBelt _) fun _ => ?_
      exact respects_swapRoles
  | slideInMature =>
      have hMark :
          Respects (Same outline)
            (do
              setMark mature
                ((Collection.lastStop? moves).getD mature.start)
              if kind = .fullHeap then resetBelt nursery) := by
        refine respects_bind (respects_setMark _ _) fun _ => ?_
        split
        · exact respects_resetBelt _
        · exact respects_pure ()
      refine respects_bind (respects_forgetObjects _) fun _ => ?_
      split
      · exact respects_write (fun _ => rfl) hMark
      · exact hMark

/- Noting the survivors writes the first-object table. -/
theorem respects_recordSurvivors :
    Respects (Same outline) (recordSurvivors moves) := by
  refine respects_forM fun m _ => ?_
  refine respects_read fun mature => ?_
  split
  · exact respects_recordObject _ _
  · exact respects_throw _

/- A pass touches nothing that is published. -/
theorem respects_runCollection :
    Respects (Same outline) (runCollection rt kind) := by
  unfold runCollection findSurvivors settle
  refine respects_read fun nursery => ?_
  refine respects_read fun mature => ?_
  refine respects_report ?_
  refine respects_bind respects_findStartSlots fun slots => ?_
  refine respects_read fun live => ?_
  refine respects_computed fun placed => ?_
  split
  · exact respects_pure _
  · refine respects_report ?_
    refine respects_bind respects_forwardSlots fun _ => ?_
    refine respects_bind respects_moveObjects fun _ => ?_
    refine respects_bind ?_ fun _ => respects_pure _
    exact
      respects_bind respects_settleBelts fun _ =>
        respects_recordSurvivors

------------------------------------------------------------
-- Around a Pass
------------------------------------------------------------

/- Promoting touches nothing that is published. -/
theorem respects_promoteSurvivors :
    Respects (Same outline) (promoteSurvivors rt) := by
  unfold promoteSurvivors
  refine respects_bind respects_runCollection fun outcome => ?_
  split
  · exact respects_pure _
  · refine respects_report ?_
    exact respects_write (fun _ => rfl) respects_runCollection

theorem respects_concludeMinor
    (epoch : Nat)
    (outcome :
      Except Collection.Shortfall Collection.Summary) :
    Respects (Same outline) (concludeMinor epoch outcome) := by
  unfold concludeMinor
  split
  · refine respects_write (fun _ => rfl) ?_
    exact respects_read fun _ => respects_emit _
  · exact respects_report (respects_update fun _ => rfl)

theorem respects_concludeMajor
    (epoch : Nat)
    (outcome :
      Except Collection.Shortfall Collection.Summary) :
    Respects (Same outline) (concludeMajor epoch outcome) := by
  unfold concludeMajor
  split
  · exact respects_read fun _ => respects_emit _
  · exact respects_report (respects_update fun _ => rfl)

theorem respects_checkMatureRoom
    (bytes : Nat) :
    Respects (Same outline) (checkMatureRoom bytes) := by
  unfold checkMatureRoom
  refine respects_read fun mature => ?_
  split
  · exact respects_report (respects_update fun _ => rfl)
  · exact respects_pure ()

------------------------------------------------------------
-- Publishing
------------------------------------------------------------

/- Work that leaves something alone leaves its parts alone. -/
theorem Respects.part
    {α γ δ : Type}
    {look : Heap → γ}
    {work : HeapM α}
    (hWork : Respects (Same look) work)
    (f : γ → δ) :
    Respects (Same fun h => f (look h)) work :=
  hWork.mono fun _ _ hSame =>
    congrArg f (show _ = _ from hSame)

/- Records are part of what is published of the regions. -/
theorem respects_writeRecords
    (k : Nat)
    (regions : List MemoryRegion) :
    Respects (Same unpublished)
      (HeapInfo.writeRecords updateInfo k regions) := by
  induction regions generalizing k with
  | nil => exact respects_pure ()
  | cons r rs ih =>
      exact respects_write (fun _ => rfl) (ih (k + 1))

/- Reports leave the heap as it is. -/
theorem respects_reportRegions
    (regions : List MemoryRegion) :
    Respects (Same id)
      (HeapInfo.reportRegions regions : HeapM Unit) := by
  induction regions with
  | nil => exact respects_pure ()
  | cons r rs ih =>
      exact respects_computed fun _ => respects_report ih

theorem respects_reportBelts :
    Respects (Same id) reportBelts := by
  refine respects_read fun layout => ?_
  refine respects_forM fun b _ => ?_
  exact respects_computed fun _ => respects_emit _

/- Publishing the regions touches nothing else. -/
theorem respects_publishing :
    Respects (Same unpublished) publishRegions := by
  have hShow (regions : List MemoryRegion) :
      Respects (Same unpublished)
        (HeapInfo.present updateInfo regions) := by
    refine respects_write (fun _ => rfl) ?_
    refine respects_bind (respects_writeRecords _ _) fun _ => ?_
    refine respects_write (fun _ => rfl) ?_
    refine respects_bind (respects_keeps _) fun kept => ?_
    cases kept with
    | false => exact respects_update fun _ => rfl
    | true =>
        exact
          respects_bind
            ((respects_reportRegions regions).part unpublished)
            fun _ => respects_update fun _ => rfl
  unfold publishRegions
  refine respects_read fun regions => ?_
  refine respects_computed fun regions => ?_
  refine respects_bind ?_ fun _ =>
    respects_reportBelts.part unpublished
  rcases HeapInfo.register_cases updateInfo regions with
    hQuiet | hWarned
  · rw [hQuiet]
    exact hShow regions
  · rw [hWarned]
    exact respects_report (hShow regions)

/- Publishing the regions does not touch the epochs. -/
theorem respects_publishRegions :
    Respects (Same (·.epochs)) publishRegions :=
  respects_publishing.part fun h => h.info.epochs

------------------------------------------------------------
-- Brackets
------------------------------------------------------------

variable {α β : Type}

/-
  Work that started while a collection was under way shows no
  heap between collections, except for the one it leaves.
-/
def Closes (work : HeapM α) : Prop :=
  ∀ (s : Logged HeapRun) (before : List Heap),
    s.state.heap.epochs.isCollecting = true →
      s.state.trail = some before →
        ∃ during,
          (work s).2.state.trail = some (during ++ before) ∧
            ∀ k ∈ during,
              k.epochs.isCollecting = true ∨
                k = (work s).2.state.heap

/- Work comes before what closes if it leaves the epochs alone. -/
theorem closes_bind
    {work : HeapM α}
    {next : α → HeapM β}
    (hWork : Respects (Same (·.epochs)) work)
    (hNext : ∀ a, Closes (next a)) :
    Closes (work >>= next) := by
  intro s before hOpen hBefore
  have hSame : (work s).2.state.heap.epochs = s.state.heap.epochs :=
    (hWork s).last
  rcases (hWork s).from_start hBefore with
    ⟨early, hEarly, hFirst⟩
  have hInside :
      ∀ k ∈ early, k.epochs.isCollecting = true := by
    intro k hk
    have hEpochs : k.epochs = s.state.heap.epochs := hFirst k hk
    rw [hEpochs]
    exact hOpen
  rw [Activity.run_bind]
  cases (work s).1 with
  | error f =>
      exact ⟨early, hEarly, fun k hk => Or.inl (hInside k hk)⟩
  | ok a =>
      rw [← hSame] at hOpen
      rcases hNext a _ _ hOpen hEarly with
        ⟨late, hLate, hSecond⟩
      refine ⟨late ++ early, ?_, ?_⟩
      · rw [List.append_assoc]
        exact hLate
      · intro k hk
        rcases List.mem_append.mp hk with hIn | hIn
        · exact hSecond k hIn
        · exact Or.inl (hInside k hIn)

/- Ending the epoch closes a collection. -/
theorem closes_finish
    (look : Heap → α) :
    Closes
      (do
        finishEpoch
        reading look) := by
  rintro ⟨⟨heap, scans, trail⟩, log⟩ before - ⟨⟩
  refine ⟨[heap.mapEpochs Epochs.ended], rfl, fun k hk => ?_⟩
  rw [List.mem_singleton.mp hk]
  exact Or.inr rfl

/- What leaves the published information leaves the epochs. -/
theorem Respects.epochs
    {work : HeapM α}
    (hWork : Respects (Same outline) work) :
    Respects (Same (·.epochs)) work :=
  hWork.part fun o => o.1.epochs

variable {h : Heap}

/-
  Whatever follows the beginning of an epoch and closes it shows
  no heap between collections but the one it leaves.
-/
theorem shows_bracket
    {next : Nat → HeapM α}
    {result : Except Fault α}
    {g : Heap}
    (hNext : ∀ epoch, Closes (next epoch))
    (hYields : Yields (beginEpoch >>= next) h result g)
    (hOrder : h.epochs.root ≤ h.epochs.collection) :
    Shows (beginEpoch >>= next) h fun k =>
      k.epochs.isCollecting = true ∨ k = g := by
  rintro s before rfl hBefore
  rcases hYields s rfl with ⟨t, hRun, rfl, -⟩
  have hBegun :
      (s.state.heap.mapEpochs Epochs.begun).epochs.isCollecting =
        true :=
    decide_eq_true (Nat.lt_succ_of_le hOrder)
  rcases s with ⟨⟨heap, scans, trail⟩, log⟩
  cases hBefore
  let u : Logged HeapRun :=
    { state :=
        ⟨heap.mapEpochs Epochs.begun, scans,
          some (heap.mapEpochs Epochs.begun :: before)⟩
      log := log.add (.epochBegins (heap.epochs.collection + 1)) }
  have hRest :
      next (heap.epochs.collection + 1) u = (result, t) :=
    hRun
  rcases hNext _ u _ hBegun rfl with ⟨during, hEnd, hInside⟩
  rw [hRest] at hEnd hInside
  refine ⟨during ++ [heap.mapEpochs Epochs.begun], ?_, ?_⟩
  · rw [hRun, hEnd, List.append_assoc]
    rfl
  · intro k hk
    rcases List.mem_append.mp hk with hIn | hIn
    · exact hInside k hIn
    · rw [List.mem_singleton.mp hIn]
      exact Or.inl hBegun

variable {bytes : Nat}
variable {result : Except Fault Bool}
variable {g : Heap}

/-
  A minor collection shows no heap between collections but the
  one that it leaves.
-/
theorem shows_minorCollect
    (hFree : h.outOfMemory = false)
    (hOrder : h.epochs.root ≤ h.epochs.collection)
    (hYields : Yields (minorCollect rt bytes) h result g) :
    Shows (minorCollect rt bytes) h fun k =>
      k.epochs.isCollecting = true ∨ k = g := by
  unfold minorCollect at hYields ⊢
  have hRest := yields_of_read hYields
  apply shows_read
  rw [hFree] at hRest ⊢
  refine shows_bracket (fun epoch => ?_) hRest hOrder
  refine closes_bind (respects_update fun _ => rfl) fun _ => ?_
  refine closes_bind (respects_update fun _ => rfl) fun _ => ?_
  refine closes_bind respects_promoteSurvivors.epochs fun _ => ?_
  refine closes_bind
    (respects_concludeMinor _ _).epochs fun _ => ?_
  exact
    closes_bind respects_publishRegions fun _ => closes_finish _

theorem shows_majorCollect
    (hFree : h.outOfMemory = false)
    (hOrder : h.epochs.root ≤ h.epochs.collection)
    (hYields : Yields (majorCollect rt bytes) h result g) :
    Shows (majorCollect rt bytes) h fun k =>
      k.epochs.isCollecting = true ∨ k = g := by
  unfold majorCollect at hYields ⊢
  have hRest := yields_of_read hYields
  apply shows_read
  rw [hFree] at hRest ⊢
  refine shows_bracket (fun epoch => ?_) hRest hOrder
  refine closes_bind (respects_update fun _ => rfl) fun _ => ?_
  refine closes_bind (respects_update fun _ => rfl) fun _ => ?_
  refine closes_bind respects_runCollection.epochs fun _ => ?_
  refine closes_bind
    (respects_concludeMajor _ _).epochs fun _ => ?_
  refine closes_bind
    (respects_checkMatureRoom _).epochs fun _ => ?_
  exact
    closes_bind respects_publishRegions fun _ => closes_finish _

end HeapM

end BeltHeap
