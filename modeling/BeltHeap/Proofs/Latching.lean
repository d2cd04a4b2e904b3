import BeltHeap.Proofs.Exhausting

/-
  When a collection latches that the heap is out of memory.  A
  minor one does exactly where the reachable objects of both
  belts take up more than the mature belt has, and a major one
  only where the mature belt has no room for the request: its own
  pass always finds room for the survivors.

  Main declarations:
    * `HeapM.openMajor`, `HeapM.majorCollect_eq`
    * `HeapM.TurnsMajor`, `HeapM.collectGarbage_of_turnsMajor`
    * `Heap.MinorCollects.latches_iff`
    * `Heap.MajorCollects.latches_iff`
    * `Program.latches_only_when_short`
-/

------------------------------------------------------------
-- The Parts of a Major Collection
------------------------------------------------------------

namespace BeltHeap

namespace HeapM

open Heap

/-
  What a major collection does before its pass.  The answer is
  its epoch.
-/
def openMajor : HeapM Nat := do
  let epoch ← beginEpoch
  snapshotMarks
  update (Heap.mapStats Heap.countMajor)
  pure epoch

/- A major collection is opened before anything moves. -/
theorem majorCollect_eq
    (rt : Runtime)
    (bytes : Nat) :
    majorCollect rt bytes = (do
      if ← reading (·.outOfMemory) then pure false
      else
        let epoch ← openMajor
        let outcome ← runCollection rt .major
        concludeMajor epoch outcome
        checkMatureRoom bytes
        publishRegions
        finishEpoch
        reading fun h => !h.outOfMemory) := by
  unfold majorCollect openMajor
  simp only [bind_assoc, pure_bind]
  rfl

/-
  A collection goes on to a major one: the minor one made room,
  and it left the mature belt half full, which is reported.
-/
inductive TurnsMajor
    (rt : Runtime)
    (bytes : Nat)
    (r begun : Logged HeapRun) : Prop where
| halfFull
    {mid : Logged HeapRun}
    (hMinor : minorCollect rt bytes r = (.ok true, mid))
    (hHalf : matureIsHalfFull mid.state.heap = true)
    (hReport :
      Activity.emit
          (.matureHalfFull mid.state.heap.mature.used) mid =
        ((.ok (), begun) : Except Fault Unit × _)) :
    TurnsMajor rt bytes r begun

variable {rt : Runtime}
variable {h : Heap}
variable {nursery mature : Belt}
variable {old : List Nat}
variable {r begun : Logged HeapRun}
variable {bytes : Nat}

/-
  Of a collection that turns to a major one, only that and the
  cards are left.
-/
theorem collectGarbage_of_turnsMajor
    (hTurns : TurnsMajor rt bytes r begun) :
    collectGarbage rt bytes r =
      (do
        let success ← majorCollect rt bytes
        clearCards
        pure success) begun := by
  cases hTurns with
  | @halfFull mid hMinor hHalf hReport =>
      have hRead :
          reading matureIsHalfFull mid =
            ((.ok true, mid) : Except Fault Bool × _) := by
        rw [← hHalf]
        rfl
      unfold collectGarbage
      rw [Activity.run_bind, hMinor]
      dsimp only
      rw [Activity.run_bind, hRead]
      simp only [Bool.and_self, if_true]
      rw [Activity.run_bind]
      change
        (Activity.emit
            (.matureHalfFull mid.state.heap.mature.used) >>=
          _) mid = _
      rw [Activity.run_bind, hReport]

/- Only a heap that is not out of memory turns to a major pass. -/
theorem TurnsMajor.free
    (hTurns : TurnsMajor rt bytes r begun) :
    r.state.heap.outOfMemory = false := by
  cases hTurns with
  | halfFull hMinor _ _ =>
      cases hLatched : r.state.heap.outOfMemory with
      | false => rfl
      | true =>
          cases
            ((yields_minorCollect_latched hLatched).unique
              hMinor).1

/-
  What comes before the pass of a major collection changes no
  object.
-/
theorem yields_openMajor :
    Yields openMajor h (.ok (h.info.epochs.collection + 1))
      (h.counted countMajor) := by
  refine yields_bind yields_beginEpoch ?_
  apply yields_write
  apply yields_write
  exact yields_pure _

/- The pass of a major collection succeeds. -/
theorem yields_majorPass
    (hStandard : rt.Standard)
    (hSound : Sound rt h nursery mature old []) :
    ∃ g nursery' mature' found moves start table,
      Yields (runCollection rt .major) h
          (.ok
            (.ok
              ⟨.major, moves.length,
                Collection.promotedBytes nursery moves⟩)) g ∧
        Pass rt h g nursery mature nursery' mature' old []
          .major found moves start table := by
  rcases yields_runCollection .major hStandard hSound
      (fun _ => rfl) with
    ⟨-, found, -, hShort⟩ | hPasses
  · exact absurd hShort hSound.not_short_major
  · exact hPasses

end HeapM

------------------------------------------------------------
-- Latches
------------------------------------------------------------

namespace Heap

variable {rt : Runtime}
variable {h g : Heap}
variable {nursery mature nursery' mature' : Belt}
variable {old young old' young' : List Nat}
variable {live bytes : Nat}
variable {success : Bool}

/-
  A minor collection runs out of memory exactly where the
  reachable objects take up more than the mature belt has.
-/
theorem MinorCollects.latches_iff
    (hStandard : rt.Standard)
    (hSound : Sound rt h nursery mature old young)
    (hFree : h.outOfMemory = false)
    (hLive : LiveBytes rt h live)
    (hMinor :
      MinorCollects rt bytes h nursery mature old young success
        g nursery' mature' old' young') :
    g.outOfMemory = true ↔ mature.size < live := by
  have hCounted := hSound.counted hStandard countMinor
  have hBegun := hCounted.liveBytes hStandard hLive
  have hEscalated :
      LiveBytes rt (h.counted countMinor).escalated live :=
    sameObjects_escalated.liveBytes hStandard hBegun
  cases hMinor with
  | promoted hPromotes =>
      have hUsable := hPromotes.rest.2.2.1.trans hFree
      have hFits : live ≤ mature.takeSnapshot.size := by
        cases hPromotes with
        | minor hPass =>
            exact
              hPass.liveBytes_le
                (show Collection.Kind.minor ≠ .major by decide)
                hStandard hCounted.sound hBegun
        | fullHeap _ hPass =>
            exact
              hPass.liveBytes_le
                (show Collection.Kind.fullHeap ≠ .major by
                  decide)
                hStandard
                (sameObjects_escalated.sound hCounted.sound)
                hEscalated
      constructor
      · intro hLatched
        exact
          absurd (hUsable.symm.trans hLatched)
            Bool.false_ne_true
      · intro hTight
        exact absurd hFits (Nat.not_le_of_lt hTight)
  | stuck hPromotes =>
      rcases hPromotes.of_error with
        ⟨-, -, -, _, _, -, hShort⟩
      have hTight := hShort.lt_of_fullHeap hStandard hEscalated
      exact iff_of_true rfl hTight

/-
  A major collection runs out of memory exactly where it leaves
  less room in the mature belt than was asked for.
-/
theorem MajorCollects.latches_iff
    (hFree : h.outOfMemory = false)
    (hMajor :
      MajorCollects rt bytes h nursery mature old success g
        nursery' mature' old') :
    g.outOfMemory = true ↔ mature'.remaining < bytes := by
  cases hMajor with
  | roomy hPass hRoom =>
      have hUsable := hPass.rest.outOfMemory.trans hFree
      constructor
      · intro hLatched
        exact
          absurd (hUsable.symm.trans hLatched)
            Bool.false_ne_true
      · intro hTight
        exact absurd hRoom (Nat.not_le_of_lt hTight)
  | tight _ hTight => exact iff_of_true rfl hTight

end Heap

------------------------------------------------------------
-- Collections of Programs
------------------------------------------------------------

namespace Program

open Heap

variable {rt : Runtime}
variable {s : State}

/-
  A collection that goes on to a major one leaves a sound heap
  with an empty nursery in between, which is not out of memory.
-/
theorem sound_of_turnsMajor
    {r begun : Logged HeapRun}
    {nursery mature : Belt}
    {old young : List Nat}
    {bytes : Nat}
    (hStandard : rt.Standard)
    (hSound : Sound rt r.state.heap nursery mature old young)
    (hTurns : HeapM.TurnsMajor rt bytes r begun) :
    ∃ nursery' mature' old',
      MinorCollects rt bytes r.state.heap nursery mature old
          young true begun.state.heap nursery' mature' old' [] ∧
        Sound rt begun.state.heap nursery' mature' old' [] ∧
        begun.state.heap.outOfMemory = false := by
  have hFree := hTurns.free
  rcases HeapM.yields_minorCollect bytes hStandard hSound
      hFree with
    ⟨success, g, nursery', mature', old', young', hYields,
      hMinor⟩
  cases hTurns with
  | halfFull hRun _ hReport =>
      rcases hYields.unique hRun with ⟨hSuccess, rfl, -⟩
      cases hSuccess
      rcases hMinor.of_success with ⟨rfl, hLatch, -⟩
      cases hReport
      exact
        ⟨nursery', mature', old', hMinor,
          (hMinor.follows hStandard hSound).1.sound,
          hLatch.trans hFree⟩

/-
  For every request, a collection of a heap that a program
  reaches latches that the heap is out of memory only as said.
  Its minor part does exactly where the reachable objects take up
  more than the mature belt has.  The pass of its major part does
  succeed, and that part latches exactly where the mature belt
  has less room than was asked for.
-/
theorem latches_only_when_short
    (hReached : Reached rt s)
    (hFree : s.heap.outOfMemory = false)
    (bytes : Nat) :
    ∃ live, LiveBytes rt s.heap live ∧
      (∃ room t,
        HeapM.minorCollect rt bytes s.run = (.ok room, t) ∧
          (t.state.heap.outOfMemory = true ↔
            s.heap.mature.size < live)) ∧
      ∀ begun, HeapM.TurnsMajor rt bytes s.run begun →
        (∃ epoch opened summary t,
          HeapM.openMajor begun = (.ok epoch, opened) ∧
            HeapM.runCollection rt .major opened =
              (.ok (.ok summary), t)) ∧
        ∃ room t,
          HeapM.majorCollect rt bytes begun = (.ok room, t) ∧
            (t.state.heap.outOfMemory = true ↔
              t.state.heap.mature.remaining < bytes) := by
  have hStandard := hReached.standard
  rcases hReached.invariant with
    ⟨nursery, mature, old, young, hSound, -⟩
  rcases hSound.exists_liveBytes hStandard with ⟨live, hLive⟩
  refine ⟨live, hLive, ?_, ?_⟩
  · rcases HeapM.yields_minorCollect bytes hStandard hSound
        hFree with
      ⟨room, g, _, _, _, _, hYields, hMinor⟩
    rcases hYields s.run rfl with ⟨t, hRun, rfl, -⟩
    rw [hSound.shape.mature_eq]
    exact
      ⟨room, t, hRun,
        hMinor.latches_iff hStandard hSound hFree hLive⟩
  · intro begun hTurns
    rcases sound_of_turnsMajor hStandard hSound hTurns with
      ⟨nursery', mature', old', -, hMid, hUsable⟩
    constructor
    · rcases HeapM.yields_openMajor begun rfl with
        ⟨opened, hOpen, hHeap, -⟩
      rcases HeapM.yields_majorPass hStandard
          (hMid.counted hStandard countMajor).sound with
        ⟨g, _, _, _, _, _, _, hPass, -⟩
      rcases hPass opened hHeap with ⟨t, hRun, -⟩
      exact ⟨_, opened, _, t, hOpen, hRun⟩
    · rcases HeapM.yields_majorCollect bytes hStandard hMid
          hUsable with
        ⟨room, g, _, _, _, hYields, hMajor⟩
      rcases hYields begun rfl with ⟨t, hRun, rfl, -⟩
      have hAfter := (hMajor.follows hStandard hMid).1.sound
      refine ⟨room, t, hRun, ?_⟩
      rw [hAfter.shape.mature_eq]
      exact hMajor.latches_iff hUsable

/-
  The half full heap has a collection that goes on to a major one.
-/
theorem turnsMajor_halfFull :
    ∃ begun,
      HeapM.TurnsMajor {} 10000 halfFull.run begun := by
  rcases reached_halfFull.invariant with
    ⟨nursery, mature, old, young, hSound, -⟩
  rcases belts_halfFull with
    ⟨hFree, hUsable, -, hNursery, hMature⟩
  rw [hSound.shape.nursery_eq] at hNursery
  rw [hSound.shape.mature_eq] at hMature
  subst hNursery
  subst hMature
  rcases HeapM.yields_minorCollect 10000 standard_default hSound
      hFree with
    ⟨room, g, nursery', mature', _, _, hYields, hMinor⟩
  rcases hMinor.of_room standard_default hSound (by decide)
      (by decide) with
    ⟨rfl, hUsed, hConfig⟩
  have hShape :=
    (hMinor.follows standard_default hSound).1.sound.shape
  rcases hYields halfFull.run rfl with ⟨mid, hRun, rfl, -⟩
  refine ⟨_, .halfFull hRun ?_ rfl⟩
  unfold HeapM.matureIsHalfFull
  rw [decide_eq_true_eq, hConfig, hUsable, hShape.mature_eq]
  exact Nat.le_trans (by decide) hUsed

/- The collections of the half full heap set the latch as said. -/
theorem latches_only_when_short_halfFull :
    (∃ begun,
      HeapM.TurnsMajor {} 10000 halfFull.run begun) ∧
    ∃ live, LiveBytes {} halfFull.heap live ∧
      (∃ room t,
        HeapM.minorCollect {} 10000 halfFull.run =
            (.ok room, t) ∧
          (t.state.heap.outOfMemory = true ↔
            halfFull.heap.mature.size < live)) ∧
      ∀ begun, HeapM.TurnsMajor {} 10000 halfFull.run begun →
        (∃ epoch opened summary t,
          HeapM.openMajor begun = (.ok epoch, opened) ∧
            HeapM.runCollection {} .major opened =
              (.ok (.ok summary), t)) ∧
        ∃ room t,
          HeapM.majorCollect {} 10000 begun = (.ok room, t) ∧
            (t.state.heap.outOfMemory = true ↔
              t.state.heap.mature.remaining < 10000) :=
  ⟨turnsMajor_halfFull,
    latches_only_when_short reached_halfFull belts_halfFull.1
      10000⟩

end Program

end BeltHeap
