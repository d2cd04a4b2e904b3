import BeltHeap.Proofs.Agreeing

/-
  What a heap does to itself without asking the runtime: it does
  the same on heaps that are alike.

  Main declarations:
    * `HeapM.uniform_publishRegions`
    * `HeapM.uniform_moveObjects`, `HeapM.uniform_settle`
    * `HeapM.uniform_concludeMinor`
    * `HeapM.uniform_allocateMature`
    * `HeapM.uniform_allocPretenured`
    * `HeapM.uniform_writeReference`
    * `HeapM.uniform_expandMature`
-/

------------------------------------------------------------
-- Publishing
------------------------------------------------------------

namespace BeltHeap

namespace HeapM

/- Beginning a collection epoch. -/
theorem uniform_beginEpoch : Uniform beginEpoch := by
  unfold beginEpoch Epochs.begin
  refine uniform_write (fun _ _ => rfl) ?_
  refine uniform_read (f := fun h => h.info.epochs.collection)
    (fun _ _ => rfl) fun epoch => ?_
  exact uniform_report (uniform_pure epoch)

theorem uniform_finishEpoch : Uniform finishEpoch := by
  unfold finishEpoch Epochs.finish
  refine uniform_write (fun _ _ => rfl) ?_
  exact
    uniform_read (f := fun h => h.info.epochs.collection)
      (fun _ _ => rfl) fun _ => uniform_emit _

/- Writing records. -/
theorem uniform_writeRecords
    (k : Nat)
    (regions : List MemoryRegion) :
    Uniform (HeapInfo.writeRecords updateInfo k regions) := by
  induction regions generalizing k with
  | nil => exact uniform_pure ()
  | cons r rs ih =>
      exact uniform_write (fun _ _ => rfl) (ih (k + 1))

/- Reporting where regions end. -/
theorem uniform_reportRegions
    (regions : List MemoryRegion) :
    Uniform (HeapInfo.reportRegions regions) := by
  induction regions with
  | nil => exact uniform_pure ()
  | cons r rs ih =>
      exact uniform_computed fun _ => uniform_report ih

/- Registering regions. -/
theorem uniform_register
    (regions : List MemoryRegion) :
    Uniform (HeapInfo.register updateInfo regions) := by
  have hShow :
      Uniform (HeapInfo.present updateInfo regions) := by
    unfold HeapInfo.present
    refine uniform_write (fun _ _ => rfl) ?_
    refine uniform_bind (uniform_writeRecords _ _) fun _ => ?_
    refine uniform_write (fun _ _ => rfl) ?_
    refine uniform_bind (uniform_keeps _) fun kept => ?_
    cases kept with
    | false => exact uniform_change fun _ _ => rfl
    | true =>
        refine uniform_bind (uniform_reportRegions _) fun _ => ?_
        exact uniform_change fun _ _ => rfl
  rcases HeapInfo.register_cases updateInfo regions with
    hQuiet | hWarned
  · rw [hQuiet]
    exact hShow
  · rw [hWarned]
    exact uniform_report hShow

/- Publishing the regions of the heap. -/
theorem uniform_publishRegions : Uniform publishRegions := by
  unfold publishRegions reportBelts
  refine uniform_read (fun _ _ => rfl) fun regions => ?_
  refine uniform_computed fun regions => ?_
  refine uniform_bind (uniform_register regions) fun _ => ?_
  refine uniform_read (fun _ _ => rfl) fun layout => ?_
  refine uniform_forM (fun b => ?_) _
  exact uniform_computed fun _ => uniform_emit _

/- Publishing regions of the runtime. -/
theorem uniform_registerRegions
    (regions : List MemoryRegion) :
    Uniform (registerRegions regions) :=
  uniform_write (fun _ _ => rfl) uniform_publishRegions

------------------------------------------------------------
-- Settling
------------------------------------------------------------

/- Copying survivors. -/
theorem uniform_moveObjects
    (moves : List Collection.Move) :
    Uniform (moveObjects moves) := by
  refine uniform_forM (fun move => ?_) moves
  split
  · exact uniform_pure ()
  · exact
      uniform_mapMemory fun _ _ hSame => hSame.copyObject move

/- Moving the mark of a belt. -/
theorem uniform_setMark
    (b : Belt)
    (mark : Nat) :
    Uniform (setMark b mark) :=
  uniform_computed fun _ => uniform_change fun _ _ => rfl

/- Forgetting everything in a belt. -/
theorem uniform_resetBelt
    (b : Belt) :
    Uniform (resetBelt b) := by
  refine uniform_bind ?_ fun _ => uniform_change fun _ _ => rfl
  exact
    uniform_mapMemory fun _ _ hSame => hSame.clear b.start b.used

/- Forgetting the objects noted for the cards of a span. -/
theorem uniform_forgetObjects
    (s : Span) :
    Uniform (forgetObjects s) := by
  refine uniform_read (fun _ _ => rfl) fun _ => ?_
  exact uniform_computed fun _ => uniform_change fun _ _ => rfl

/- Noting an object of the mature belt. -/
theorem uniform_recordObject
    (start size : Nat) :
    Uniform (recordObject start size) := by
  refine uniform_read (fun _ _ => rfl) fun _ => ?_
  exact uniform_computed fun _ => uniform_change fun _ _ => rfl

/- Setting whether the mature belt may grow. -/
theorem uniform_setMatureExpandable
    (expandable : Bool) :
    Uniform (setMatureExpandable expandable) := by
  refine uniform_read (fun _ _ => rfl) fun _ => ?_
  exact uniform_change fun _ _ => rfl

/- Swapping the roles of the belts. -/
theorem uniform_swapRoles : Uniform swapRoles := by
  have hSwap (layout : Layout) :
      Uniform (layout.swap Role.nursery Role.mature) := by
    unfold Layout.swap
    refine uniform_computed fun _ => ?_
    refine uniform_computed fun _ => ?_
    exact uniform_report (uniform_lift _)
  unfold swapRoles
  refine uniform_read (fun _ _ => rfl) fun mature => ?_
  refine uniform_bind (uniform_setMatureExpandable _) fun _ => ?_
  refine uniform_read (fun _ _ => rfl) fun layout => ?_
  refine uniform_bind (hSwap layout) fun layout => ?_
  refine uniform_write (fun _ _ => rfl) ?_
  exact uniform_setMatureExpandable _

/- Bringing marks and roles in line with the survivors. -/
theorem uniform_settleBelts
    (kind : Collection.Kind)
    (destination : Collection.Destination)
    (moves : List Collection.Move) :
    Uniform (settleBelts kind destination moves) := by
  unfold settleBelts
  refine uniform_read (fun _ _ => rfl) fun nursery => ?_
  refine uniform_read (fun _ _ => rfl) fun mature => ?_
  have hFull :
      Uniform
        (if kind = .fullHeap then resetBelt nursery
          else pure ()) := by
    split
    · exact uniform_resetBelt nursery
    · exact uniform_pure ()
  cases destination with
  | appendToMature =>
      cases hLast : Collection.lastStop? moves with
      | none => exact uniform_resetBelt nursery
      | some stop =>
          exact
            uniform_bind (uniform_setMark mature stop) fun _ =>
              uniform_resetBelt nursery
  | evacuateToNursery =>
      refine uniform_bind (uniform_forgetObjects _) fun _ => ?_
      refine uniform_bind (uniform_setMark _ _) fun _ => ?_
      refine uniform_bind (uniform_resetBelt _) fun _ => ?_
      exact uniform_swapRoles
  | slideInMature =>
      refine uniform_bind (uniform_forgetObjects _) fun _ => ?_
      have hRest (mark : Nat) :
          Uniform
            (do
              setMark mature mark
              if kind = .fullHeap then resetBelt nursery) :=
        uniform_bind (uniform_setMark mature mark) fun _ => hFull
      dsimp only
      split
      · refine uniform_bind ?_ fun _ => hRest _
        exact uniform_mapMemory fun _ _ hSame => hSame.clear _ _
      · exact hRest _

/- Noting the survivors in their new places. -/
theorem uniform_recordSurvivors
    (moves : List Collection.Move) :
    Uniform (recordSurvivors moves) := by
  refine uniform_forM (fun move => ?_) moves
  refine uniform_read (fun _ _ => rfl) fun mature => ?_
  split
  · exact uniform_recordObject _ _
  · exact uniform_throw _

/- Finishing a pass. -/
theorem uniform_settle
    (kind : Collection.Kind)
    (destination : Collection.Destination)
    (moves : List Collection.Move) :
    Uniform (settle kind destination moves) :=
  uniform_bind (uniform_settleBelts kind destination moves)
    fun _ => uniform_recordSurvivors moves

------------------------------------------------------------
-- Concluding Collections
------------------------------------------------------------

/- Latching that the heap is out of memory. -/
theorem uniform_latchOutOfMemory : Uniform latchOutOfMemory :=
  uniform_change fun _ _ => rfl

/- Concluding a minor collection. -/
theorem uniform_concludeMinor
    (epoch : Nat)
    (outcome :
      Except Collection.Shortfall Collection.Summary) :
    Uniform (concludeMinor epoch outcome) := by
  unfold concludeMinor
  cases outcome with
  | ok summary =>
      refine uniform_write (fun _ _ => rfl) ?_
      exact
        uniform_read (fun _ _ => rfl) fun _ => uniform_emit _
  | error failure =>
      exact uniform_report uniform_latchOutOfMemory

/- Concluding a major collection. -/
theorem uniform_concludeMajor
    (epoch : Nat)
    (outcome :
      Except Collection.Shortfall Collection.Summary) :
    Uniform (concludeMajor epoch outcome) := by
  unfold concludeMajor
  cases outcome with
  | ok summary =>
      exact
        uniform_read (fun _ _ => rfl) fun _ => uniform_emit _
  | error failure =>
      exact uniform_report uniform_latchOutOfMemory

/- Checking the room in the mature belt. -/
theorem uniform_checkMatureRoom
    (bytes : Nat) :
    Uniform (checkMatureRoom bytes) := by
  refine uniform_read (fun _ _ => rfl) fun mature => ?_
  split
  · exact uniform_report uniform_latchOutOfMemory
  · exact uniform_pure ()

/- Making the cards clean. -/
theorem uniform_clearCards : Uniform clearCards := by
  refine uniform_read (fun _ _ => rfl) fun empty => ?_
  split
  · exact uniform_change fun _ _ => rfl
  · exact uniform_pure ()

------------------------------------------------------------
-- Allocating
------------------------------------------------------------

/- Bumping the mark of a belt. -/
theorem uniform_allocateIn
    (role size : Nat) :
    Uniform (allocateIn role size) := by
  have hBump (b : Belt) : Uniform (b.allocate size) := by
    refine uniform_computed fun result => ?_
    cases result with
    | none => exact uniform_report (uniform_pure none)
    | some r => exact uniform_pure (some r)
  refine uniform_read (fun _ _ => rfl) fun b => ?_
  refine uniform_bind (hBump b) fun result => ?_
  cases result with
  | none => exact uniform_pure none
  | some r =>
      exact uniform_write (fun _ _ => rfl) (uniform_pure _)

/- Allocating in the mature belt. -/
theorem uniform_allocateMature
    (size : Nat) :
    Uniform (allocateMature size) := by
  refine uniform_bind (uniform_allocateIn _ _) fun result => ?_
  cases result with
  | none => exact uniform_pure none
  | some object =>
      exact
        uniform_bind (uniform_recordObject object size) fun _ =>
          uniform_pure _

/- Falling back on the mature belt. -/
theorem uniform_allocPretenured
    (size : Nat) :
    Uniform (allocPretenured size) := by
  refine uniform_read (fun _ _ => rfl) fun full => ?_
  cases full with
  | true => exact uniform_pure _
  | false =>
      refine uniform_bind (uniform_allocateMature size)
        fun result => ?_
      cases result with
      | none => exact uniform_pure _
      | some object => exact uniform_report (uniform_pure _)

------------------------------------------------------------
-- Storing and Rooting
------------------------------------------------------------

/- Storing a reference through the barrier. -/
theorem uniform_writeReference
    (source offset target : Nat) :
    Uniform (writeReference source offset target) := by
  have hCard (slot : Nat) : Uniform (dirtyCardOf slot) := by
    refine uniform_read (fun _ _ => rfl) fun _ => ?_
    exact uniform_computed fun _ => uniform_change fun _ _ => rfl
  have hNote (slot : Nat) : Uniform (noteStore slot target) := by
    unfold noteStore
    split
    · exact uniform_pure ()
    · refine uniform_read (fun _ _ => rfl) fun remember => ?_
      split
      · exact hCard slot
      · exact uniform_pure ()
  refine uniform_computed fun slot => ?_
  refine uniform_bind ?_ fun _ => hNote slot
  exact
    uniform_update fun _ _ hAlike => hAlike.writeSlot _ target

theorem uniform_addRoot
    (object : Nat) :
    Uniform (addRoot object) := by
  refine uniform_read (fun _ _ => rfl) fun handle => ?_
  cases handle with
  | none =>
      refine uniform_read (fun _ _ => rfl) fun _ => ?_
      exact uniform_report (uniform_pure none)
  | some handle =>
      exact uniform_write (fun _ _ => rfl) (uniform_pure _)

/- Putting another object behind a handle. -/
theorem uniform_setRoot
    (handle object : Nat) :
    Uniform (setRoot handle object) := by
  have hGet : Uniform (getRoot handle) :=
    uniform_read (fun _ _ => rfl) fun _ => uniform_lift _
  refine uniform_bind hGet fun _ => ?_
  exact
    uniform_update fun _ _ hAlike => hAlike.writeSlot _ object

/- Giving up a handle. -/
theorem uniform_removeRoot
    (handle : Nat) :
    Uniform (removeRoot handle) := by
  refine uniform_bind (uniform_setRoot handle 0) fun _ => ?_
  refine uniform_read (fun _ _ => rfl) fun free => ?_
  split
  · exact uniform_throw _
  · exact uniform_change fun _ _ => rfl

/- Growing the mature belt. -/
theorem uniform_expandMature
    (bytes : Nat) :
    Uniform (expandMature bytes) := by
  have hExpand (layout : Layout) :
      Uniform (layout.expand Role.mature bytes) := by
    refine uniform_computed fun result => ?_
    cases result with
    | error e => exact uniform_pure _
    | ok belts => exact uniform_report (uniform_pure _)
  refine uniform_read (fun _ _ => rfl) fun layout => ?_
  refine uniform_bind (hExpand layout) fun result => ?_
  cases result with
  | error e => exact uniform_pure _
  | ok layout =>
      refine uniform_write (fun _ _ => rfl) ?_
      refine uniform_write (fun _ _ => rfl) ?_
      exact
        uniform_bind uniform_publishRegions fun _ =>
          uniform_pure _

end HeapM

end BeltHeap
