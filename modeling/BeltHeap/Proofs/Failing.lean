import BeltHeap.Proofs.Accounting
import BeltHeap.Proofs.Blocks
import BeltHeap.Proofs.LiveBytes

/-
  A collection that fails changes nothing.  Where neither the
  minor pass nor the full-heap pass finds room for the survivors,
  every object, belt, root and table stays as it was, and so do
  the published regions.  Only the snapshots of the marks, the
  epochs, the counters and the latch tell of the failure.

  Main declarations:
    * `HeapM.minorCollect_eq`
    * `Heap.exhausted`
    * `Heap.Accounts.wrappedUp_stuck`
    * `Program.BothPassesFail`
    * `Program.failed_collection_changes_nothing`
-/

------------------------------------------------------------
-- The Parts of a Minor Collection
------------------------------------------------------------

namespace BeltHeap

namespace HeapM

/-
  What a minor collection does before its first pass.  The
  answer is its epoch.
-/
def openMinor : HeapM Nat := do
  let epoch ← beginEpoch
  snapshotMarks
  update (Heap.mapStats Heap.countMinor)
  pure epoch

/- What promoting does between its two passes. -/
def escalate (failure : Collection.Shortfall) : HeapM Unit := do
  Activity.emit (.collectionEscalates failure)
  update Heap.escalated

/- A minor collection is opened before anything is promoted. -/
theorem minorCollect_eq
    (rt : Runtime)
    (bytes : Nat) :
    minorCollect rt bytes = (do
      if ← reading (·.outOfMemory) then
        Activity.emit .collectionSkipped
        pure false
      else
        let epoch ← openMinor
        let outcome ← promoteSurvivors rt
        concludeMinor epoch outcome
        publishRegions
        finishEpoch
        reading fun h =>
          !h.outOfMemory && bytes ≤ h.nursery.remaining) := by
  unfold minorCollect openMinor
  simp only [bind_assoc, pure_bind]
  rfl

/- Promoting is a minor pass, or that and a full-heap one. -/
theorem promoteSurvivors_eq
    (rt : Runtime) :
    promoteSurvivors rt = (do
      match ← runCollection rt .minor with
      | .ok summary => pure (.ok summary)
      | .error failure => do
          escalate failure
          runCollection rt .fullHeap) := by
  unfold promoteSurvivors escalate
  simp only [bind_assoc]
  rfl

/- What comes before the first pass changes no object. -/
theorem yields_openMinor
    {h : Heap} :
    Yields openMinor h (.ok (h.info.epochs.collection + 1))
      (h.counted Heap.countMinor) := by
  refine yields_bind yields_beginEpoch ?_
  apply yields_write
  apply yields_write
  exact yields_pure _

/- What comes between the two passes counts the second one. -/
theorem yields_escalate
    {h : Heap}
    (failure : Collection.Shortfall) :
    Yields (escalate failure) h (.ok ()) h.escalated :=
  yields_report rfl (yields_update _)

end HeapM

------------------------------------------------------------
-- Heaps After a Failure
------------------------------------------------------------

namespace Heap

/-
  The heap after a collection that failed.  The marks of the
  belts are remembered, one more epoch began and ended, a minor
  collection and a full-heap pass are counted, and the heap is
  out of memory.
-/
def exhausted (h : Heap) : Heap :=
  { h with
    layout :=
      { h.layout with
        belts := h.layout.belts.map Belt.takeSnapshot }
    info :=
      { h.info with
        epochs :=
          ⟨h.info.epochs.collection + 1,
            h.info.epochs.collection + 1⟩ }
    stats :=
      { h.stats with
        minor := h.stats.minor + 1
        fullHeap := h.stats.fullHeap + 1 }
    outOfMemory := true }

variable {rt : Runtime}
variable {h g : Heap}
variable {nursery mature nursery' mature' : Belt}
variable {old young old' young' found : List Nat}
variable {failure : Collection.Shortfall}

/- The regions that a sound heap published are those it has. -/
theorem Accounts.published_regionsOf
    (hAccounts : Accounts h)
    (hShape : Shape h nursery mature) :
    h.info.published (h.regionsOf nursery mature) = h.info := by
  rcases hAccounts.published with ⟨regions, hRegions, hSame⟩
  rw [HeapM.allRegions_of_pair hShape] at hRegions
  cases hRegions
  exact hSame

/- No minor pass is short of room where the nursery is empty. -/
theorem Short.young_ne_nil
    (hShort :
      Short rt h nursery mature old young .minor found) :
    young ≠ [] := by
  rintro rfl
  have hFound : found = [] :=
    List.eq_nil_iff_forall_not_mem.mpr fun o ho =>
      List.not_mem_nil (hShort.survey.condemned o ho)
  subst hFound
  exact absurd hShort.tight (Nat.not_lt_zero _)

/- A minor pass that is short of room keeps the cards. -/
theorem Short.cleared_eq
    (hShort :
      Short rt h nursery mature old young .minor found)
    (hSound : Sound rt h nursery mature old young)
    (g : Heap) :
    g.cleared nursery = g := by
  unfold cleared
  refine if_neg fun hEmpty => ?_
  exact hShort.young_ne_nil (hSound.young_eq_nil hEmpty)

/- Where promoting is stuck, both of its passes were. -/
theorem Promotes.of_error
    (hPromotes :
      Promotes rt h nursery mature old young (.error failure) g
        nursery' mature' old' young') :
    g = h.escalated ∧ nursery' = nursery ∧ mature' = mature ∧
      ∃ short found,
        Short rt h nursery mature old young .minor short ∧
          Short rt h.escalated nursery mature old young
            .fullHeap found := by
  cases hPromotes with
  | stuck hShort hAgain =>
      exact ⟨rfl, rfl, rfl, _, _, hShort, hAgain⟩

/-
  Once more publishing the regions after a failure changes
  nothing.
-/
theorem Accounts.wrappedUp_stuck
    (hAccounts : Accounts h)
    (hShape : Shape h nursery mature) :
    (h.counted countMinor).escalated.latched.wrappedUp
        nursery.takeSnapshot mature.takeSnapshot =
      h.exhausted := by
  have hSame := hAccounts.published_regionsOf hShape
  exact
    congrArg
      (fun i : HeapInfo => { h.exhausted with
        info :=
          { i with
            epochs :=
              ⟨h.info.epochs.collection + 1,
                h.info.epochs.collection + 1⟩ } })
      hSame

/- A full-heap pass is short of room for the live bytes. -/
theorem Short.lt_of_fullHeap
    {bytes : Nat}
    (hStandard : rt.Standard)
    (hShort :
      Short rt h nursery mature old young .fullHeap found)
    (hLive : LiveBytes rt h bytes) :
    mature.size < bytes := by
  have hFound :=
    hShort.survey.liveBytes hStandard (by decide)
      hShort.survivors
  rw [hLive.unique hFound]
  exact hShort.tight

/-
  A minor or full-heap pass that succeeds has no more live bytes
  to place than the mature belt has.
-/
theorem Pass.liveBytes_le
    {kind : Collection.Kind}
    {moves : List Collection.Move}
    {start bytes : Nat}
    {table : FirstObjects}
    (hKind : kind ≠ .major)
    (hStandard : rt.Standard)
    (hSound : Sound rt h nursery mature old young)
    (hPass :
      Pass rt h g nursery mature nursery' mature' old young kind
        found moves start table)
    (hLive : LiveBytes rt h bytes) :
    bytes ≤ mature.size := by
  have hMark := hSound.shape.fits.matureMark
  have hSurvey := hPass.relocation.survey
  cases kind with
  | minor =>
      have hLe := hSurvey.liveBytes_minor hStandard hSound hLive
      cases hPass.lands with
      | append _ hRoom =>
          unfold Belt.used at hLe
          unfold Belt.size
          omega
      | evacuate hMajor _ => cases hMajor
      | slide hMinor _ _ => exact absurd rfl hMinor
  | major => exact absurd rfl hKind
  | fullHeap =>
      have hFound :=
        hSurvey.liveBytes hStandard (by decide) hPass.survivors
      rw [hLive.unique hFound]
      cases hPass.lands with
      | append hMinor _ => cases hMinor
      | evacuate hMajor _ => cases hMajor
      | slide _ _ hRoom =>
          unfold Belt.size
          omega

end Heap

theorem HeapM.yields_runCollection_short
    {rt : Runtime}
    {h : Heap}
    {nursery mature : Belt}
    {old young : List Nat}
    {bytes : Nat}
    (kind : Collection.Kind)
    (hKind : kind ≠ .major)
    (hStandard : rt.Standard)
    (hSound : Heap.Sound rt h nursery mature old young)
    (hLive : Heap.LiveBytes rt h bytes)
    (hTight : mature.size < bytes) :
    ∃ shortfall,
      Yields (runCollection rt kind) h (.ok (.error shortfall))
        h := by
  rcases yields_runCollection kind hStandard hSound
      (fun hMajor => absurd hMajor hKind) with
    ⟨shortfall, _, hRun, -⟩ |
      ⟨g, nursery', mature', found, moves, start, table, -,
        hPass⟩
  · exact ⟨shortfall, hRun⟩
  · exact
      absurd (hPass.liveBytes_le hKind hStandard hSound hLive)
        (Nat.not_le_of_lt hTight)

------------------------------------------------------------
-- Failed Collections
------------------------------------------------------------

namespace Program

open Heap

variable {rt : Runtime}
variable {s : State}

/-
  Both passes of a minor collection report survivors that do
  not fit: the minor pass after the collection was opened, and
  then the full-heap pass.
-/
def BothPassesFail
    (rt : Runtime)
    (r : Logged HeapRun) : Prop :=
  r.state.heap.outOfMemory = false ∧
    ∃ epoch first second begun tried escalated stuck,
      HeapM.openMinor r = (.ok epoch, begun) ∧
        HeapM.runCollection rt .minor begun =
          (.ok (.error first), tried) ∧
        HeapM.escalate first tried = (.ok (), escalated) ∧
        HeapM.runCollection rt .fullHeap escalated =
          (.ok (.error second), stuck)

/- Where both passes fail nothing is promoted. -/
theorem BothPassesFail.stuck
    {r : Logged HeapRun}
    (hFail : BothPassesFail rt r) :
    ∃ begun failure stuck,
      begun.state.heap = r.state.heap.counted countMinor ∧
        HeapM.promoteSurvivors rt begun =
          (.ok (.error failure), stuck) := by
  rcases hFail with
    ⟨-, epoch, first, second, begun, tried, escalated, stuck,
      hOpen, hMinor, hEscalate, hFull⟩
  refine
    ⟨begun, second, stuck,
      (HeapM.yields_openMinor.unique hOpen).2.1, ?_⟩
  rw [HeapM.promoteSurvivors_eq, Activity.run_bind, hMinor]
  dsimp only
  rw [Activity.run_bind, hEscalate]
  exact hFull

/- Promoting comes to the same on every sound heap. -/
theorem BothPassesFail.promotes
    {r : Logged HeapRun}
    {nursery mature : Belt}
    {old young : List Nat}
    (hFail : BothPassesFail rt r)
    (hStandard : rt.Standard)
    (hSound : Sound rt r.state.heap nursery mature old young) :
    ∃ failure old' young',
      HeapM.Yields (HeapM.promoteSurvivors rt)
          (r.state.heap.counted countMinor)
          (.ok (.error failure))
          (r.state.heap.counted countMinor).escalated ∧
        Promotes rt (r.state.heap.counted countMinor)
          nursery.takeSnapshot mature.takeSnapshot old young
          (.error failure)
          (r.state.heap.counted countMinor).escalated
          nursery.takeSnapshot mature.takeSnapshot old'
          young' := by
  have hCounted := hSound.counted hStandard countMinor
  rcases HeapM.yields_promoteSurvivors hStandard
      hCounted.sound with
    ⟨outcome, k, nursery', mature', old', young', hPromote,
      hPromotes⟩
  rcases hFail.stuck with
    ⟨begun, failure, stuck, hBegun, hStuck⟩
  rcases hPromote begun hBegun with ⟨t, hRun, -⟩
  rw [hStuck] at hRun
  cases hRun
  rcases hPromotes.of_error with ⟨rfl, rfl, rfl, -⟩
  exact ⟨failure, old', young', hPromote, hPromotes⟩

/-
  Both passes fail exactly where the reachable objects take up
  more bytes than the mature belt has.
-/
theorem bothPassesFail_iff
    {r : Logged HeapRun}
    {nursery mature : Belt}
    {old young : List Nat}
    {bytes : Nat}
    (hStandard : rt.Standard)
    (hSound : Sound rt r.state.heap nursery mature old young)
    (hFree : r.state.heap.outOfMemory = false)
    (hLive : LiveBytes rt r.state.heap bytes) :
    BothPassesFail rt r ↔ mature.size < bytes := by
  have hCounted := hSound.counted hStandard countMinor
  have hBegun := hCounted.liveBytes hStandard hLive
  have hEscalated :
      LiveBytes rt (r.state.heap.counted countMinor).escalated
        bytes :=
    sameObjects_escalated.liveBytes hStandard hBegun
  constructor
  · intro hFail
    rcases hFail.promotes hStandard hSound with
      ⟨failure, old', young', -, hPromotes⟩
    rcases hPromotes.of_error with ⟨-, -, -, _, _, -, hShort⟩
    have hTight := hShort.lt_of_fullHeap hStandard hEscalated
    exact hTight
  · intro hTight
    rcases HeapM.yields_runCollection_short .minor (by decide)
        hStandard hCounted.sound hBegun hTight with
      ⟨first, hMinor⟩
    rcases HeapM.yields_runCollection_short .fullHeap (by decide)
        hStandard
        (sameObjects_escalated.sound hCounted.sound)
        hEscalated hTight with
      ⟨second, hFull⟩
    rcases HeapM.yields_openMinor r rfl with
      ⟨begun, hOpen, hHeap, -⟩
    rcases hMinor begun hHeap with ⟨tried, hRunMinor, hTried, -⟩
    rcases HeapM.yields_escalate first tried hTried with
      ⟨escalated, hEscalate, hAgain, -⟩
    rcases hFull escalated hAgain with ⟨stuck, hRunFull, -⟩
    exact
      ⟨hFree, _, _, _, _, _, _, _, hOpen, hRunMinor, hEscalate,
        hRunFull⟩

/-
  A collection of any heap that a program reaches, whose minor
  pass and full-heap pass both fail, changes neither an object
  nor a belt, a root slot, a table or a published region.
-/
theorem failed_collection_changes_nothing
    (hReached : Reached rt s)
    (hFail : BothPassesFail rt s.run)
    (bytes : Nat) :
    ∃ t u,
      HeapM.collectGarbage rt bytes s.run = (.ok false, t) ∧
        HeapM.collect rt bytes s.run = (.ok false, u) ∧
        t.state.heap = s.heap.exhausted ∧
        u.state.heap = s.heap.exhausted := by
  have hStandard := hReached.standard
  rcases hReached.invariant with
    ⟨nursery, mature, old, young, hSound, -⟩
  have hCounted := hSound.counted hStandard countMinor
  rcases hFail.promotes hStandard hSound with
    ⟨failure, old', young', hPromote, hPromotes⟩
  rcases hPromotes.of_error with ⟨-, -, -, _, _, hShort, -⟩
  have hShape :=
    (hPromotes.follows hStandard hCounted.sound).sound.shape
  have hMinor :
      HeapM.Yields (HeapM.minorCollect rt bytes) s.heap
        (.ok false) s.heap.exhausted := by
    rw [← hReached.accounts.wrappedUp_stuck hSound.shape]
    exact
      HeapM.yields_minorCollect_stuck bytes hFail.1 hShape
        hPromote
  have hAfter :
      Shape s.heap.exhausted nursery.takeSnapshot
        mature.takeSnapshot :=
    ⟨hShape.layout, hShape.fits, hShape.cards, hShape.starts,
      hShape.sameCards, hShape.regions⟩
  have hCollect :=
    HeapM.yields_collectGarbage_minor hMinor hAfter rfl
  rw [hShort.cleared_eq hCounted.sound] at hCollect
  rcases hCollect s.run rfl with ⟨t, hRun, ht, -⟩
  rcases HeapM.yields_collect hCollect s.run rfl with
    ⟨u, hExecute, hu, -⟩
  exact ⟨t, u, hRun, hExecute, ht, hu⟩

------------------------------------------------------------
-- A Crowded Heap
------------------------------------------------------------

/- A new root does not touch the memory. -/
theorem memory_after_addRoot
    (object : Nat) :
    (s.after rt (.addRoot object)).heap.memory =
      s.heap.memory := by
  have hRespects :
      HeapM.Respects (Same (·.memory))
        (perform rt (.addRoot object)) :=
    HeapM.respects_bind
      ((HeapM.respects_addRoot object).part Prod.snd) fun _ =>
        HeapM.respects_pure _
  exact (hRespects s.run).last

/- The settings of a heap with a small mature belt. -/
def crowdedConfig : HeapConfig where
  maxHeapSize := 65536
  beltPercentages := [75, 25]
  rootCapacity := 1

/- A new heap with a small mature belt. -/
def crowdedHeap : Heap :=
  match (Heap.create smallPlace 1 crowdedConfig).run with
  | .ok (.ok h) => h
  | _ => default

/- A program that has not done anything with it yet. -/
def crowdedStart : State :=
  ⟨{ state := { heap := crowdedHeap } }, []⟩

/- The mature belt cannot hold the object that is allocated. -/
def crowdedBelt : State :=
  crowdedStart.after {} (.alloc 20000 0)

/- The root slot comes to refer to the object. -/
def crowded : State :=
  crowdedBelt.after {} (.addRoot 65536)

/- The crowded run starts. -/
theorem reached_crowdedStart : Reached {} crowdedStart :=
  .start standard_default
    ⟨smallPlace, 1, crowdedConfig,
      ⟨by decide, by decide, by decide⟩,
      makes_created (by decide +kernel), rfl⟩

/- The object is allocated. -/
theorem step_crowdedBelt :
    Step {} crowdedStart (.alloc 20000 0) (some 65536)
      crowdedBelt :=
  step_after
    (show Object.bytesFor 0 0 ≤ HeapM.roundedSize {} 20000 by
      decide)
    (by decide +kernel)

/- The crowded run is a run. -/
theorem reached_crowded : Reached {} crowded := by
  have hRooted :
      Step {} crowdedBelt (.addRoot 65536) none crowded := by
    refine step_after (Known.fresh ?_) ?_
    · decide +kernel
    · decide +kernel
  exact
    .step (.step reached_crowdedStart step_crowdedBelt) hRooted

/- The object of the crowded heap is reachable. -/
theorem reachable_crowded : Reachable {} crowded.heap 65536 := by
  have hEntry : crowded.heap.readSlot (.entry 0) = 65536 := by
    decide +kernel
  have hSlot : Slot.entry 0 ∈ crowded.heap.rootSlots {} :=
    mem_rootSlots.mpr
      (Or.inl ⟨0, by decide +kernel, by rw [hEntry]; decide, rfl⟩)
  rw [← hEntry]
  exact .root hSlot (by rw [hEntry]; decide)

theorem size_crowded :
    Object.size crowded.heap.memory 65536 = 20000 := by
  have hKept :
      crowded.heap.memory = crowdedBelt.heap.memory :=
    memory_after_addRoot 65536
  rw [hKept]
  exact
    step_crowdedBelt.size_new standard_default
      reached_crowdedStart.invariant

/- Neither pass finds room for the object of the crowded heap. -/
theorem crowded_fails : BothPassesFail {} crowded.run := by
  rcases reached_crowded.invariant with
    ⟨nursery, mature, old, young, hSound, -⟩
  rcases hSound.exists_liveBytes standard_default with
    ⟨bytes, hLive⟩
  have hMature : mature.size = 16384 := by
    rw [← hSound.shape.mature_eq]
    decide +kernel
  have hReachable :
      ∀ o ∈ [65536], Reachable {} crowded.heap o := by
    intro o ho
    rw [List.mem_singleton.mp ho]
    exact reachable_crowded
  have hBytes := hLive.ge (List.nodup_singleton _) hReachable
  rw [List.map_singleton, size_crowded] at hBytes
  change 20000 + 0 ≤ bytes at hBytes
  rw [bothPassesFail_iff standard_default hSound
    (by decide +kernel) hLive, hMature]
  omega

/- A collection of the crowded heap fails and changes nothing. -/
theorem failed_collection_changes_nothing_crowded :
    ∃ t u,
      HeapM.collectGarbage {} 0 crowded.run = (.ok false, t) ∧
        HeapM.collect {} 0 crowded.run = (.ok false, u) ∧
        t.state.heap = crowded.heap.exhausted ∧
        u.state.heap = crowded.heap.exhausted :=
  failed_collection_changes_nothing reached_crowded
    crowded_fails 0

end Program

end BeltHeap
