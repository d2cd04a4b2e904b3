import BeltHeap.Proofs.Bracketing
import BeltHeap.Proofs.Running

/-
  Whatever a program does, the epochs only advance, from each
  state of its heap to every later one.

  Main declarations:
    * `Epochs.Advance`
    * `HeapM.respects_collectGarbage`
    * `HeapM.respects_alloc`
    * `Program.respects_perform`
-/

------------------------------------------------------------
-- Advancing Epochs
------------------------------------------------------------

namespace BeltHeap

/-
  Neither epoch goes back, and the root epoch does not get ahead
  of the collection epoch unless it was ahead before.
-/
def Epochs.Advance (e f : Epochs) : Prop :=
  e.root ≤ e.collection →
    f.root ≤ f.collection ∧ e.collection ≤ f.collection ∧
      e.root ≤ f.root

namespace Heap

/- The epochs of one heap advance to those of another one. -/
def Advances (h g : Heap) : Prop :=
  h.epochs.Advance g.epochs

instance : IsPreorder Heap Advances where
  refl _ hOrder := ⟨hOrder, Nat.le_refl _, Nat.le_refl _⟩
  trans _ _ _ h₁ h₂ hOrder := by
    rcases h₁ hOrder with ⟨hMid, hCollection, hRoot⟩
    rcases h₂ hMid with ⟨hLast, hCollection', hRoot'⟩
    exact
      ⟨hLast, Nat.le_trans hCollection hCollection',
        Nat.le_trans hRoot hRoot'⟩

end Heap

open Heap

namespace HeapM

variable {α : Type}
variable {rt : Runtime}

/- Work that leaves the epochs alone lets them advance. -/
theorem Respects.advances
    {work : HeapM α}
    (hWork : Respects (Same (·.epochs)) work) :
    Respects Advances work := by
  refine hWork.mono fun h g hSame => ?_
  have hEpochs : g.epochs = h.epochs := hSame
  unfold Advances
  rw [hEpochs]
  exact refl_of Advances h

/- Looking at the collection epoch. -/
theorem respects_lookEpoch
    {R : Heap → Heap → Prop}
    [IsPreorder Heap R] :
    Respects R
      (Activity.reading fun r : HeapRun =>
        r.heap.info.epochs.collection) :=
  respects_reading fun h => h.info.epochs.collection

/- An epoch that begins. -/
theorem respects_beginEpoch : Respects Advances beginEpoch := by
  have hWrite (h : Heap) :
      Advances h (h.mapEpochs Epochs.begun) := fun hOrder =>
    ⟨Nat.le_succ_of_le hOrder, Nat.le_succ _, Nat.le_refl _⟩
  refine respects_write hWrite ?_
  refine respects_bind respects_lookEpoch fun epoch => ?_
  exact respects_report (respects_pure _)

/- An epoch that ends. -/
theorem respects_finishEpoch :
    Respects Advances finishEpoch := by
  have hWrite (h : Heap) :
      Advances h (h.mapEpochs Epochs.ended) := fun hOrder =>
    ⟨Nat.le_refl _, Nat.le_refl _, hOrder⟩
  refine respects_write hWrite ?_
  exact
    respects_bind respects_lookEpoch fun _ => respects_emit _

/- A minor collection. -/
theorem respects_minorCollect
    (bytes : Nat) :
    Respects Advances (minorCollect rt bytes) := by
  unfold minorCollect
  refine respects_read fun latched => ?_
  split
  · exact respects_report (respects_pure _)
  · refine respects_bind respects_beginEpoch fun epoch => ?_
    refine respects_write (fun h => refl_of Advances h) ?_
    refine respects_write (fun h => refl_of Advances h) ?_
    refine respects_bind
      respects_promoteSurvivors.epochs.advances fun _ => ?_
    refine respects_bind
      (respects_concludeMinor _ _).epochs.advances fun _ => ?_
    refine respects_bind
      respects_publishRegions.advances fun _ => ?_
    exact
      respects_bind respects_finishEpoch fun _ =>
        respects_reading _

/- A major collection. -/
theorem respects_majorCollect
    (bytes : Nat) :
    Respects Advances (majorCollect rt bytes) := by
  unfold majorCollect
  refine respects_read fun latched => ?_
  split
  · exact respects_pure _
  · refine respects_bind respects_beginEpoch fun epoch => ?_
    refine respects_write (fun h => refl_of Advances h) ?_
    refine respects_write (fun h => refl_of Advances h) ?_
    refine respects_bind
      respects_runCollection.epochs.advances fun _ => ?_
    refine respects_bind
      (respects_concludeMajor _ _).epochs.advances fun _ => ?_
    refine respects_bind
      (respects_checkMatureRoom _).epochs.advances fun _ => ?_
    refine respects_bind
      respects_publishRegions.advances fun _ => ?_
    exact
      respects_bind respects_finishEpoch fun _ =>
        respects_reading _

/- A whole collection. -/
theorem respects_collectGarbage
    (bytes : Nat) :
    Respects Advances (collectGarbage rt bytes) := by
  have hClear (success : Bool) :
      Respects Advances
        (do
          clearCards
          pure success) := by
    unfold clearCards
    refine respects_bind ?_ fun _ => respects_pure _
    refine respects_read fun empty => ?_
    split
    · exact respects_update fun h => refl_of Advances h
    · exact respects_pure _
  unfold collectGarbage
  refine respects_bind (respects_minorCollect _) fun _ => ?_
  refine respects_read fun half => ?_
  split
  · refine respects_read fun used => ?_
    refine respects_report ?_
    exact
      respects_bind (respects_majorCollect _) fun _ => hClear _
  · exact respects_bind (respects_pure _) fun _ => hClear _

/- A collection on the worker. -/
theorem respects_collect
    (bytes : Nat) :
    Respects Advances (collect rt bytes) := by
  unfold collect Executor.execute
  rw [if_neg (by decide)]
  refine respects_report ?_
  refine respects_bind (respects_collectGarbage _) fun _ => ?_
  exact respects_report (respects_pure _)

------------------------------------------------------------
-- Operations of Mutators
------------------------------------------------------------

/- Bumping a belt writes the belt. -/
theorem respects_allocateIn
    (role size : Nat) :
    Respects (Same outline) (allocateIn role size) := by
  unfold allocateIn Belt.allocate
  refine respects_read fun b => ?_
  refine respects_bind ?_ fun bumped => ?_
  · refine respects_computed fun bumped => ?_
    split
    · exact respects_pure _
    · exact respects_report (respects_pure _)
  · split
    · exact respects_pure _
    · exact respects_write (fun _ => rfl) (respects_pure _)

theorem respects_allocateMature
    (size : Nat) :
    Respects (Same outline) (allocateMature size) := by
  refine respects_bind (respects_allocateIn _ _) fun a? => ?_
  split
  · exact respects_pure _
  · exact
      respects_bind (respects_recordObject _ _) fun _ =>
        respects_pure _

/- An allocation collects at most once. -/
theorem respects_alloc
    (bytes : Nat) :
    Respects Advances (alloc rt bytes) := by
  have hNursery (size : Nat) :
      Respects Advances (allocateNursery size) :=
    (respects_allocateIn _ _).epochs.advances
  have hPretenured (size : Nat) :
      Respects Advances (allocPretenured size) := by
    refine respects_read fun latched => ?_
    split
    · exact respects_pure _
    · refine respects_bind
        (respects_allocateMature size).epochs.advances
        fun a? => ?_
      split
      · exact respects_report (respects_pure _)
      · exact respects_pure _
  have hCollecting (size : Nat) :
      Respects Advances (allocCollecting rt size) := by
    refine respects_bind (respects_collect _) fun success => ?_
    split
    · refine respects_bind (hNursery _) fun a? => ?_
      split
      · exact respects_pure _
      · exact hPretenured _
    · exact hPretenured _
  unfold alloc
  refine respects_bind (hNursery _) fun a? => ?_
  split
  · exact respects_pure _
  · refine respects_bind (hNursery _) fun a? => ?_
    split
    · exact respects_pure _
    · refine respects_read fun latched => ?_
      split
      · exact respects_pure _
      · exact hCollecting _

/- A store writes memory and a card. -/
theorem respects_writeReference
    (source offset target : Nat) :
    Respects (Same outline)
      (writeReference source offset target) := by
  unfold writeReference noteStore dirtyCardOf
  refine respects_computed fun slot => ?_
  refine respects_write (fun _ => rfl) ?_
  split
  · exact respects_pure _
  · refine respects_read fun remember => ?_
    split
    · refine respects_read fun card => ?_
      exact
        respects_computed fun _ => respects_update fun _ => rfl
    · exact respects_pure _

/- A new root writes the root table. -/
theorem respects_addRoot
    (object : Nat) :
    Respects (Same fun h => (h.outline, h.memory))
      (addRoot object) := by
  have hOccupy (handle : Nat) (h : Heap) :
      Same (fun h => (h.outline, h.memory)) h
        { h with roots := h.roots.occupy handle object } := by
    refine
      congrArg (fun n => ((h.info, h.placement, n), h.memory)) ?_
    unfold RootTable.occupy
    split <;> exact Array.size_setIfInBounds
  unfold addRoot
  refine respects_read fun vacant? => ?_
  split
  · exact respects_write (hOccupy _) (respects_pure _)
  · refine respects_read fun capacity => ?_
    exact respects_report (respects_pure _)

theorem respects_setRoot
    (handle object : Nat) :
    Respects (Same outline) (setRoot handle object) := by
  unfold setRoot getRoot
  refine respects_bind ?_ fun _ => ?_
  · exact respects_read fun _ => respects_lift _
  · exact respects_update fun h => outline_writeSlot h _ _

theorem respects_removeRoot
    (handle : Nat) :
    Respects (Same outline) (removeRoot handle) := by
  unfold removeRoot
  refine respects_bind (respects_setRoot _ _) fun _ => ?_
  refine respects_read fun freed => ?_
  split
  · exact respects_throw _
  · exact respects_update fun _ => rfl

/- A mature belt that grows is published. -/
theorem respects_expandMature
    (bytes : Nat) :
    Respects (Same (·.epochs)) (expandMature bytes) := by
  unfold expandMature Layout.expand
  refine respects_read fun layout => ?_
  refine respects_bind ?_ fun expanded => ?_
  · refine respects_computed fun grown => ?_
    split
    · exact respects_pure _
    · exact respects_report (respects_pure _)
  · split
    · exact respects_pure _
    · refine respects_write (fun _ => rfl) ?_
      refine respects_write (fun _ => rfl) ?_
      exact
        respects_bind respects_publishRegions fun _ =>
          respects_pure _

theorem respects_registerRegions
    (regions : List MemoryRegion) :
    Respects (Same (·.epochs)) (registerRegions regions) :=
  respects_write (fun _ => rfl) respects_publishRegions

end HeapM

------------------------------------------------------------
-- Actions of Programs
------------------------------------------------------------

namespace Program

open HeapM

variable {rt : Runtime}

/- Whatever a program does, the epochs advance. -/
theorem respects_perform
    (action : Action) :
    Respects Advances (perform rt action) := by
  have hSilent
      {α : Type}
      {work : HeapM α}
      (hWork : Respects Advances work) :
      Respects Advances
        (do
          let _ ← work
          pure none : HeapM (Option Nat)) :=
    respects_bind hWork fun _ => respects_pure _
  cases action with
  | alloc bytes refs =>
      refine respects_bind (respects_alloc _) fun result => ?_
      split
      · exact respects_pure _
      · exact
          respects_write (fun h => refl_of Advances h)
            (respects_pure _)
  | store source field target =>
      exact
        hSilent
          (respects_writeReference _ _ _).epochs.advances
  | putWord object word value =>
      exact
        hSilent (respects_update fun h => refl_of Advances h)
  | addRoot object =>
      exact
        hSilent
          ((respects_addRoot _).part Prod.fst).epochs.advances
  | setRoot handle object =>
      exact hSilent (respects_setRoot _ _).epochs.advances
  | removeRoot handle =>
      exact hSilent (respects_removeRoot _).epochs.advances
  | setRegister number object =>
      exact
        hSilent (respects_update fun h => refl_of Advances h)
  | collect bytes => exact hSilent (respects_collect _)
  | collectOnRequest =>
      refine hSilent ?_
      refine respects_bind (respects_collect _) fun success => ?_
      split
      · exact respects_reading _
      · exact respects_pure _
  | expand bytes =>
      exact hSilent (respects_expandMature _).advances
  | register regions =>
      exact hSilent (respects_registerRegions _).advances

end Program

end BeltHeap
