import BeltHeap.Proofs.Advancing
import BeltHeap.Proofs.Performing

/-
  What is known about a heap between any two operations: no
  collection is under way, the epochs tell how many were run,
  and the regions are published as they are.

  Main declarations:
    * `Heap.Accounts`
    * `Heap.Collects.accounts`, `Heap.Allocation.accounts`
    * `Program.Performs.accounts`
    * `Program.Reached.accounts`
-/

------------------------------------------------------------
-- Accounts
------------------------------------------------------------

namespace BeltHeap

namespace Heap

/-
  The account that a heap gives of itself between operations.
  Publishing its regions once more would not change anything.
-/
structure Accounts (h : Heap) : Prop where
  settled : h.epochs.root = h.epochs.collection
  counted :
    h.epochs.collection = h.stats.minor + h.stats.major
  records : h.info.records.size = Limits.inspectableRegions
  published :
    ∃ regions, h.allRegions = .ok regions ∧
      h.info.published regions = h.info

variable {rt : Runtime}
variable {h g k : Heap}
variable {nursery mature nursery' mature' : Belt}
variable {old young old' young' : List Nat}
variable {success : Bool}
variable {bytes size a : Nat}
variable {result : Except AllocationError Nat}

theorem Accounts.of_same
    (hAccounts : Accounts h)
    (hSame : Same (·.account) h g) :
    Accounts g := by
  unfold Same account at hSame
  rw [Prod.mk.injEq, Prod.mk.injEq] at hSame
  rcases hSame with ⟨hInfo, hStats, hRegions⟩
  constructor
  · unfold epochs
    rw [hInfo]
    exact hAccounts.settled
  · unfold epochs
    rw [hInfo, hStats]
    exact hAccounts.counted
  · rw [hInfo]
    exact hAccounts.records
  · rw [hInfo, hRegions]
    exact hAccounts.published

/- Publishing the regions of a heap keeps its account. -/
theorem Accounts.republished
    (hAccounts : Accounts h)
    (hShape : Shape g nursery mature)
    (hAgain : Republished h g nursery mature) :
    Accounts g := by
  constructor
  · unfold epochs
    rw [hAgain.info]
    exact hAccounts.settled
  · unfold epochs
    rw [hAgain.info, hAgain.stats]
    exact hAccounts.counted
  · rw [hAgain.info]
    exact HeapInfo.size_recorded.trans hAccounts.records
  · refine ⟨_, HeapM.allRegions_of_pair hShape, ?_⟩
    rw [hAgain.info]
    exact HeapInfo.published_published

------------------------------------------------------------
-- Collections
------------------------------------------------------------

/- Wrapping up a collection that was counted accounts for it. -/
theorem accounts_wrappedUp
    (hShape : Shape h nursery mature)
    (hCounted :
      h.epochs.collection = h.stats.minor + h.stats.major)
    (hRecords : h.info.records.size = Limits.inspectableRegions) :
    Accounts (h.wrappedUp nursery mature) := by
  have hShape' :
      Shape (h.wrappedUp nursery mature) nursery mature :=
    ⟨hShape.layout, hShape.fits, hShape.cards, hShape.starts,
      hShape.sameCards, hShape.regions⟩
  constructor
  · rfl
  · exact hCounted
  · exact HeapInfo.size_recorded.trans hRecords
  · refine ⟨_, HeapM.allRegions_of_pair hShape', ?_⟩
    have hAgain :
        (h.info.published (h.regionsOf nursery mature)).published
            (h.regionsOf nursery mature) =
          h.info.published (h.regionsOf nursery mature) :=
      HeapInfo.published_published
    exact
      congrArg
        (fun i : HeapInfo =>
          { i with epochs := i.epochs.ended })
        hAgain

/- A minor collection accounts for itself. -/
theorem MinorCollects.accounts
    (hStandard : rt.Standard)
    (hSound : Sound rt h nursery mature old young)
    (hAccounts : Accounts h)
    (hMinor :
      MinorCollects rt bytes h nursery mature old young success
        g nursery' mature' old' young') :
    Accounts g := by
  have hCounted := hSound.counted hStandard countMinor
  have hPromoted :
      ∀ {outcome k nursery' mature' old' young'},
        Promotes rt (h.counted countMinor) nursery.takeSnapshot
            mature.takeSnapshot old young outcome k nursery'
            mature' old' young' →
          k.epochs.collection = k.stats.minor + k.stats.major ∧
            k.info.records.size = Limits.inspectableRegions := by
    intro outcome k nursery' mature' old' young' hPromotes
    have hBefore := hAccounts.counted
    rcases hPromotes.rest with ⟨-, hInfo, -, hMinors, hMajors⟩
    unfold epochs
    rw [hInfo, hMinors, hMajors]
    refine ⟨?_, hAccounts.records⟩
    change
      h.epochs.collection + 1 =
        h.stats.minor + 1 + h.stats.major
    omega
  cases hMinor with
  | promoted hPromotes =>
      have hAfter :=
        (hPromotes.follows hStandard hCounted.sound).sound
      rcases hPromoted hPromotes with ⟨hEpochs, hRecords⟩
      exact
        accounts_wrappedUp
          (sameObjects_promoted.sound hAfter).shape hEpochs
          hRecords
  | stuck hPromotes =>
      have hAfter :=
        (hPromotes.follows hStandard hCounted.sound).sound
      rcases hPromoted hPromotes with ⟨hEpochs, hRecords⟩
      exact
        accounts_wrappedUp
          (sameObjects_latched.sound hAfter).shape hEpochs
          hRecords

theorem MajorCollects.accounts
    (hAccounts : Accounts h)
    (hMajor :
      MajorCollects rt bytes h nursery mature old success g
        nursery' mature' old') :
    Accounts g := by
  have hPassed :
      ∀ {k nursery' mature' found moves start table},
        Pass rt (h.counted countMajor) k nursery.takeSnapshot
            mature.takeSnapshot nursery' mature' old [] .major
            found moves start table →
          k.epochs.collection = k.stats.minor + k.stats.major ∧
            k.info.records.size = Limits.inspectableRegions := by
    intro k nursery' mature' found moves start table hPass
    have hBefore := hAccounts.counted
    unfold epochs
    rw [hPass.rest.info, hPass.rest.stats]
    refine ⟨?_, hAccounts.records⟩
    change
      h.epochs.collection + 1 =
        h.stats.minor + (h.stats.major + 1)
    omega
  cases hMajor with
  | roomy hPass _ =>
      rcases hPassed hPass with ⟨hEpochs, hRecords⟩
      exact
        accounts_wrappedUp hPass.sound.shape hEpochs hRecords
  | tight hPass _ =>
      rcases hPassed hPass with ⟨hEpochs, hRecords⟩
      exact
        accounts_wrappedUp
          (sameObjects_latched.sound hPass.sound).shape hEpochs
          hRecords

/- Clearing the cards does not touch the account. -/
theorem Accounts.cleared
    (hAccounts : Accounts h) :
    Accounts (h.cleared nursery) := by
  refine hAccounts.of_same ?_
  unfold Heap.cleared
  split <;> rfl

/- Whatever a collection comes to, the heap accounts for it. -/
theorem Collects.accounts
    (hStandard : rt.Standard)
    (hSound : Sound rt h nursery mature old young)
    (hAccounts : Accounts h)
    (hCollects :
      Collects rt bytes h nursery mature old young success g
        nursery' mature' old' young') :
    Accounts g := by
  cases hCollects with
  | skipped _ => exact hAccounts.cleared
  | minor _ hMinor _ =>
      exact (hMinor.accounts hStandard hSound hAccounts).cleared
  | major _ hMinor _ hMajor =>
      have hMid := hMinor.accounts hStandard hSound hAccounts
      exact (hMajor.accounts hMid).cleared

------------------------------------------------------------
-- Allocations
------------------------------------------------------------

/- A block that is cut off a belt leaves the account alone. -/
theorem Cut.account
    (hShape : Shape h nursery mature)
    (hCut : Cut nursery mature size h g a) :
    Same (·.account) h g := by
  have hNursery := hShape.fits.nurseryMark
  have hMature := hShape.fits.matureMark
  have hBefore := HeapM.allRegions_of_pair hShape
  cases hCut with
  | nursery hRoom hHeap =>
      subst hHeap
      have hFits :
          Layout.Fits
            { nursery with mark := nursery.mark + size } mature
            h.layout.heap :=
        hShape.fits.setNursery rfl rfl rfl
          ⟨by dsimp only; omega, hRoom⟩
      have hShape' :
          Shape (h.cutNursery nursery mature size)
            { nursery with mark := nursery.mark + size }
            mature :=
        Shape.of_pair rfl hFits hShape.cards hShape.starts
          hShape.sameCards hShape.regions
      have hSame :
          (h.cutNursery nursery mature size).allRegions =
            h.allRegions :=
        (HeapM.allRegions_of_pair hShape').trans hBefore.symm
      exact congrArg (fun r => (h.info, h.stats, r)) hSame
  | mature hRoom hHeap =>
      subst hHeap
      have hFits :
          Layout.Fits nursery
            { mature with mark := mature.mark + size }
            h.layout.heap :=
        hShape.fits.setMature rfl rfl rfl
          ⟨by dsimp only; omega, hRoom⟩
      have hShape' :
          Shape (h.withLayout
              (Layout.pair nursery
                { mature with mark := mature.mark + size }
                h.layout.heap))
            nursery
            { mature with mark := mature.mark + size } :=
        Shape.of_pair rfl hFits hShape.cards hShape.starts
          hShape.sameCards hShape.regions
      have hSame :
          (h.cutMature nursery mature size).allRegions =
            h.allRegions :=
        (HeapM.allRegions_of_pair hShape').trans hBefore.symm
      exact congrArg (fun r => (h.info, h.stats, r)) hSame

/- Whatever an allocation comes to, the heap accounts for it. -/
theorem Allocation.accounts
    (hStandard : rt.Standard)
    (hSound : Sound rt h nursery mature old young)
    (hAccounts : Accounts h)
    (hAllocation :
      Allocation rt h nursery mature old young size result g) :
    Accounts g := by
  cases hAllocation with
  | bumped hRoom =>
      exact
        hAccounts.of_same
          (Cut.account hSound.shape (.nursery hRoom rfl))
  | latched _ _ => exact hAccounts
  | collected _ _ hCollects hRoom =>
      have hAfter := (hCollects.follows hStandard hSound).1
      exact
        (hCollects.accounts hStandard hSound hAccounts).of_same
          (Cut.account hAfter.sound.shape (.nursery hRoom rfl))
  | pretenured _ _ hCollects _ _ hRoom =>
      have hAfter := (hCollects.follows hStandard hSound).1
      exact
        (hCollects.accounts hStandard hSound hAccounts).of_same
          (Cut.account hAfter.sound.shape (.mature hRoom rfl))
  | exhausted _ _ hCollects _ _ =>
      exact hCollects.accounts hStandard hSound hAccounts

/- A new heap accounts for itself. -/
theorem accounts_of_create
    {placement : Placement}
    {registers : Nat}
    {config : HeapConfig}
    (hMapped : placement.Mapped config.maxHeapSize)
    (hMakes : Makes (create placement registers config) h) :
    Accounts h := by
  rcases published_of_create hMapped hMakes {} with
    ⟨new, nursery, mature, hLayOut, hSound, rfl⟩
  have hShape : Shape (new.mapInfo _) nursery mature :=
    ((HeapM.sameObjects_info
      (new.info.published (new.regionsOf nursery mature))).sound
        hSound).shape
  rcases unused_of_layOut hLayOut with
    ⟨hEpochs, hStats, hRecords, -⟩
  constructor
  · change new.info.epochs.root = new.info.epochs.collection
    rw [hEpochs]
  · change
      new.info.epochs.collection =
        new.stats.minor + new.stats.major
    rw [hEpochs, hStats]
    rfl
  · exact HeapInfo.size_recorded.trans hRecords
  · exact
      ⟨_, HeapM.allRegions_of_pair hShape,
        HeapInfo.published_published⟩

end Heap

------------------------------------------------------------
-- Runs
------------------------------------------------------------

namespace Program

open Heap

variable {rt : Runtime}
variable {h g : Heap}
variable {nursery mature : Belt}
variable {old young : List Nat}
variable {s : State}
variable {action : Action}
variable {answer : Option Nat}

/- Whatever an action comes to, the heap accounts for it. -/
theorem Performs.accounts
    (hStandard : rt.Standard)
    (hSound : Sound rt h nursery mature old young)
    (hAccounts : Accounts h)
    (hPerforms :
      Performs rt h nursery mature old young action answer g) :
    Accounts g := by
  cases hPerforms with
  | refused hAllocation =>
      exact hAllocation.accounts hStandard hSound hAccounts
  | allocated hAllocation =>
      exact
        (hAllocation.accounts hStandard hSound hAccounts).of_same
          rfl
  | stored _ => exact hAccounts.of_same rfl
  | put _ => exact hAccounts.of_same rfl
  | rooted object => exact hAccounts.of_same rfl
  | rootSet handle object => exact hAccounts.of_same rfl
  | unrooted handle => exact hAccounts.of_same rfl
  | registered number object => exact hAccounts.of_same rfl
  | collected hAction hCollects =>
      exact hCollects.accounts hStandard hSound hAccounts
  | kept bytes => exact hAccounts
  | expanded _ hShape hAgain =>
      exact hAccounts.republished hShape hAgain
  | reported _ hShape hAgain =>
      exact hAccounts.republished hShape hAgain

/- Every heap that a program reaches accounts for itself. -/
theorem Reached.accounts
    (hReached : Reached rt s) :
    s.heap.Accounts := by
  induction hReached with
  | start _ hStarts =>
      rcases hStarts with
        ⟨placement, registers, config, hMapped, hCreate, -⟩
      exact accounts_of_create hMapped hCreate
  | step hReached hStep ih =>
      rcases hStep.performs hReached.standard
          hReached.invariant with
        ⟨nursery, mature, old, young, hSound, hPerforms⟩
      exact hPerforms.accounts hReached.standard hSound ih
  | report _ _ ih => exact ih

end Program

end BeltHeap
