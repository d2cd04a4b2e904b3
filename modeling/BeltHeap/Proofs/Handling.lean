import BeltHeap.Proofs.Performing

/-
  Programs that use no handles but those they were given.  Their
  root tables stay tidy: an entry that was never handed out is
  null.

  Main declarations:
    * `Program.Orderly`
    * `Program.Performs.tidy`
    * `Program.Orderly.tidy`
-/

------------------------------------------------------------
-- Root Tables of Allocations
------------------------------------------------------------

namespace BeltHeap

namespace Heap

variable {rt : Runtime}
variable {h g : Heap}
variable {nursery mature : Belt}
variable {old young : List Nat}
variable {size : Nat}
variable {result : Except AllocationError Nat}

/- Allocations use the same entries of the root table. -/
theorem Allocation.entries
    (hStandard : rt.Standard)
    (hSound : Sound rt h nursery mature old young)
    (hAllocation :
      Allocation rt h nursery mature old young size result g) :
    h.roots.SameUse g.roots := by
  have hAllots := hAllocation.allots hStandard hSound
  cases result with
  | error e =>
      rcases hAllots with ⟨_, _, _, _, hSince⟩
      exact hSince.follows.entries
  | ok a =>
      rcases hAllots with ⟨k, _, _, _, _, hSince, hCut, -⟩
      have hEntries := hSince.follows.entries
      cases hCut with
      | nursery _ hHeap =>
          subst hHeap
          exact hEntries
      | mature _ hHeap =>
          subst hHeap
          exact hEntries

theorem tidy_of_create
    {placement : Placement}
    {registers : Nat}
    {config : HeapConfig}
    (hMapped : placement.Mapped config.maxHeapSize)
    (hMakes : Makes (create placement registers config) h) :
    h.roots.Tidy := by
  rcases published_of_create hMapped hMakes {} with
    ⟨new, _, _, hLayOut, -, rfl⟩
  exact (unused_of_layOut hLayOut).2.2.2

end Heap

------------------------------------------------------------
-- Orderly Programs
------------------------------------------------------------

namespace Program

open Heap

/- The handles that an action uses were given out before. -/
def Action.Handled (h : Heap) : Action → Prop
| .setRoot handle _ => handle < h.roots.highWater
| .removeRoot handle => handle < h.roots.highWater
| _ => True

/- The runs of programs that use only handles they were given. -/
inductive Orderly : Runtime → State → Prop where
| start
    {rt : Runtime}
    {s : State}
    (hStandard : rt.Standard)
    (hStarts : Starts s) :
    Orderly rt s
| step
    {rt : Runtime}
    {s t : State}
    {action : Action}
    {answer : Option Nat}
    (hOrderly : Orderly rt s)
    (hHandled : action.Handled s.heap)
    (hStep : Step rt s action answer t) :
    Orderly rt t
| report
    {rt rt' : Runtime}
    {s : State}
    (hOrderly : Orderly rt s)
    (hReports : Reports rt s rt') :
    Orderly rt' s

variable {rt : Runtime}
variable {h g : Heap}
variable {nursery mature : Belt}
variable {old young : List Nat}
variable {s : State}
variable {action : Action}
variable {answer : Option Nat}

theorem Orderly.reached
    (hOrderly : Orderly rt s) :
    Reached rt s := by
  induction hOrderly with
  | start hStandard hStarts => exact .start hStandard hStarts
  | step _ _ hStep ih => exact .step ih hStep
  | report _ hReports ih => exact .report ih hReports

/- Actions that use given handles keep the root table tidy. -/
theorem Performs.tidy
    (hStandard : rt.Standard)
    (hSound : Sound rt h nursery mature old young)
    (hTidy : h.roots.Tidy)
    (hHandled : action.Handled h)
    (hPerforms :
      Performs rt h nursery mature old young action answer g) :
    g.roots.Tidy := by
  cases hPerforms with
  | refused hAllocation =>
      exact hTidy.sameUse (hAllocation.entries hStandard hSound)
  | allocated hAllocation =>
      have hEntries := hAllocation.entries hStandard hSound
      have hAfter := hTidy.sameUse hEntries
      exact hAfter
  | stored _ => exact hTidy
  | put _ => exact hTidy
  | rooted object => exact hTidy.joined
  | rootSet handle object => exact hTidy.write hHandled
  | unrooted handle =>
      have hWritten : (h.roots.write handle 0).Tidy :=
        hTidy.write hHandled
      exact hWritten.release hHandled
  | registered number object => exact hTidy
  | collected hAction hCollects =>
      exact
        hTidy.sameUse
          (hCollects.follows hStandard hSound).1.entries
  | kept bytes => exact hTidy
  | expanded _ _ hAgain =>
      rw [hAgain.roots]
      exact hTidy
  | reported _ _ hAgain =>
      rw [hAgain.roots]
      exact hTidy

/- The root table of an orderly program is tidy. -/
theorem Orderly.tidy
    (hOrderly : Orderly rt s) :
    s.heap.roots.Tidy := by
  induction hOrderly with
  | start _ hStarts =>
      rcases hStarts with
        ⟨placement, registers, config, hMapped, hCreate, -⟩
      exact tidy_of_create hMapped hCreate
  | step hOrderly hHandled hStep ih =>
      have hReached := hOrderly.reached
      rcases hStep.performs hReached.standard
          hReached.invariant with
        ⟨nursery, mature, old, young, hSound, hPerforms⟩
      exact
        hPerforms.tidy hReached.standard hSound ih hHandled
  | report _ _ ih => exact ih

end Program

end BeltHeap
