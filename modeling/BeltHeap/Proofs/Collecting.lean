import BeltHeap.Heap.Mutating
import BeltHeap.Proofs.Following

/-
  What whole collections come to: minor ones with their
  escalation, the major ones that follow, and the clearing of
  the cards at the end.  None of them breaks off, and whatever
  they do the graph of reachable objects is carried over.

  Main declarations:
    * `Heap.Promotes`
    * `Heap.MinorCollects`, `Heap.MajorCollects`
    * `Heap.Collects`, `Heap.Collects.follows`
    * `HeapM.yields_collects`
    * `HeapM.yields_collectGarbage`
    * `HeapM.yields_collect`
-/

------------------------------------------------------------
-- Outcomes
------------------------------------------------------------

namespace BeltHeap

namespace Heap

/-
  What promoting the survivors of the nursery comes to.  A minor
  pass succeeds, or a full-heap pass after a minor one that
  failed, or both fail.
-/
inductive Promotes
    (rt : Runtime)
    (h : Heap)
    (nursery mature : Belt)
    (old young : List Nat) :
    Except Collection.Shortfall Collection.Summary → Heap →
      Belt → Belt → List Nat → List Nat → Prop where
| minor
    {g : Heap}
    {nursery' mature' : Belt}
    {found : List Nat}
    {moves : List Collection.Move}
    {start : Nat}
    {table : FirstObjects}
    (hPass :
      Pass rt h g nursery mature nursery' mature' old young
        .minor found moves start table) :
    Promotes rt h nursery mature old young
      (.ok
        ⟨.minor, moves.length,
          Collection.promotedBytes nursery moves⟩)
      g nursery' mature'
      ((Collection.kept .minor old ++ found).map
        (Collection.forward moves)) []
| fullHeap
    {g : Heap}
    {nursery' mature' : Belt}
    {short found : List Nat}
    {moves : List Collection.Move}
    {start : Nat}
    {table : FirstObjects}
    (hShort : Short rt h nursery mature old young .minor short)
    (hPass :
      Pass rt h.escalated g nursery mature nursery' mature' old
        young .fullHeap found moves start table) :
    Promotes rt h nursery mature old young
      (.ok
        ⟨.fullHeap, moves.length,
          Collection.promotedBytes nursery moves⟩)
      g nursery' mature'
      ((Collection.kept .fullHeap old ++ found).map
        (Collection.forward moves)) []
| stuck
    {failure : Collection.Shortfall}
    {short found : List Nat}
    (hShort : Short rt h nursery mature old young .minor short)
    (hAgain :
      Short rt h.escalated nursery mature old young .fullHeap
        found) :
    Promotes rt h nursery mature old young (.error failure)
      h.escalated nursery mature old young

/-
  What a minor collection comes to that tells whether the
  nursery has room for `bytes` bytes.
-/
inductive MinorCollects
    (rt : Runtime)
    (bytes : Nat)
    (h : Heap)
    (nursery mature : Belt)
    (old young : List Nat) :
    Bool → Heap → Belt → Belt → List Nat → List Nat →
      Prop where
| promoted
    {summary : Collection.Summary}
    {k : Heap}
    {nursery' mature' : Belt}
    {old' : List Nat}
    (hPromotes :
      Promotes rt (h.counted countMinor) nursery.takeSnapshot
        mature.takeSnapshot old young (.ok summary) k nursery'
        mature' old' []) :
    MinorCollects rt bytes h nursery mature old young
      (decide (bytes ≤ nursery'.remaining))
      ((k.promoted summary.promotedBytes).wrappedUp nursery'
        mature')
      nursery' mature' old' []
| stuck
    {failure : Collection.Shortfall}
    {k : Heap}
    {nursery' mature' : Belt}
    {old' young' : List Nat}
    (hPromotes :
      Promotes rt (h.counted countMinor) nursery.takeSnapshot
        mature.takeSnapshot old young (.error failure) k
        nursery' mature' old' young') :
    MinorCollects rt bytes h nursery mature old young false
      (k.latched.wrappedUp nursery' mature') nursery' mature'
      old' young'

/-
  What a major collection of a heap with an empty nursery comes
  to.  It tells whether the mature belt has room for `bytes`
  bytes, and latches a mature belt that has not.
-/
inductive MajorCollects
    (rt : Runtime)
    (bytes : Nat)
    (h : Heap)
    (nursery mature : Belt)
    (old : List Nat) :
    Bool → Heap → Belt → Belt → List Nat → Prop where
| roomy
    {k : Heap}
    {nursery' mature' : Belt}
    {found : List Nat}
    {moves : List Collection.Move}
    {start : Nat}
    {table : FirstObjects}
    (hPass :
      Pass rt (h.counted countMajor) k nursery.takeSnapshot
        mature.takeSnapshot nursery' mature' old [] .major found
        moves start table)
    (hRoom : bytes ≤ mature'.remaining) :
    MajorCollects rt bytes h nursery mature old true
      (k.wrappedUp nursery' mature') nursery' mature'
      ((Collection.kept .major old ++ found).map
        (Collection.forward moves))
| tight
    {k : Heap}
    {nursery' mature' : Belt}
    {found : List Nat}
    {moves : List Collection.Move}
    {start : Nat}
    {table : FirstObjects}
    (hPass :
      Pass rt (h.counted countMajor) k nursery.takeSnapshot
        mature.takeSnapshot nursery' mature' old [] .major found
        moves start table)
    (hTight : mature'.remaining < bytes) :
    MajorCollects rt bytes h nursery mature old false
      (k.latched.wrappedUp nursery' mature') nursery' mature'
      ((Collection.kept .major old ++ found).map
        (Collection.forward moves))

/-
  What a whole collection comes to.  Nothing is collected after
  the heap ran out of memory.  A major collection follows a
  minor one that succeeded where the mature belt is half full.
-/
inductive Collects
    (rt : Runtime)
    (bytes : Nat)
    (h : Heap)
    (nursery mature : Belt)
    (old young : List Nat) :
    Bool → Heap → Belt → Belt → List Nat → List Nat →
      Prop where
| skipped
    (hLatched : h.outOfMemory = true) :
    Collects rt bytes h nursery mature old young false
      (h.cleared nursery) nursery mature old young
| minor
    {success : Bool}
    {g : Heap}
    {nursery' mature' : Belt}
    {old' young' : List Nat}
    (hFree : h.outOfMemory = false)
    (hMinor :
      MinorCollects rt bytes h nursery mature old young success
        g nursery' mature' old' young')
    (hEnough :
      (success && HeapM.matureIsHalfFull g) = false) :
    Collects rt bytes h nursery mature old young success
      (g.cleared nursery') nursery' mature' old' young'
| major
    {success : Bool}
    {k g : Heap}
    {nursery₁ mature₁ nursery' mature' : Belt}
    {old₁ old' : List Nat}
    (hFree : h.outOfMemory = false)
    (hMinor :
      MinorCollects rt bytes h nursery mature old young true k
        nursery₁ mature₁ old₁ [])
    (hHalf : HeapM.matureIsHalfFull k = true)
    (hMajor :
      MajorCollects rt bytes k nursery₁ mature₁ old₁ success g
        nursery' mature' old') :
    Collects rt bytes h nursery mature old young success
      (g.cleared nursery') nursery' mature' old' []

------------------------------------------------------------
-- What Every Outcome Preserves
------------------------------------------------------------

variable {rt : Runtime}
variable {bytes : Nat}
variable {h g : Heap}
variable {nursery mature nursery' mature' : Belt}
variable {old young old' young' : List Nat}
variable {success : Bool}
variable {outcome : Except Collection.Shortfall Collection.Summary}

/- Promoting carries over the graph of reachable objects. -/
theorem Promotes.follows
    (hStandard : rt.Standard)
    (hSound : Sound rt h nursery mature old young)
    (hPromotes :
      Promotes rt h nursery mature old young outcome g nursery'
        mature' old' young') :
    Follows rt h g nursery' mature' old' young' := by
  have hEscalated :
      Follows rt h h.escalated nursery mature old young :=
    Follows.start (sameObjects_escalated.sound hSound)
      sameObjects_escalated (Nat.le_refl _)
  cases hPromotes with
  | minor hPass => exact hPass.follows
  | fullHeap _ hPass =>
      exact hEscalated.trans hStandard hPass.follows
  | stuck _ _ => exact hEscalated

/- Promoting publishes nothing and counts full-heap passes. -/
theorem Promotes.rest
    (hPromotes :
      Promotes rt h nursery mature old young outcome g nursery'
        mature' old' young') :
    g.config = h.config ∧ g.info = h.info ∧
      g.outOfMemory = h.outOfMemory ∧
      g.stats.minor = h.stats.minor ∧
      g.stats.major = h.stats.major := by
  cases hPromotes with
  | minor hPass =>
      have hRest := hPass.rest
      exact
        ⟨hRest.config, hRest.info, hRest.outOfMemory,
          by rw [hRest.stats], by rw [hRest.stats]⟩
  | fullHeap _ hPass =>
      have hRest := hPass.rest
      exact
        ⟨hRest.config, hRest.info, hRest.outOfMemory,
          by rw [hRest.stats]; rfl, by rw [hRest.stats]; rfl⟩
  | stuck _ _ => exact ⟨rfl, rfl, rfl, rfl, rfl⟩

/-
  A minor collection leaves a sound heap in the next epoch, and
  runs out of memory where it fails to promote.
-/
theorem MinorCollects.follows
    (hStandard : rt.Standard)
    (hSound : Sound rt h nursery mature old young)
    (hMinor :
      MinorCollects rt bytes h nursery mature old young success
        g nursery' mature' old' young') :
    Follows rt h g nursery' mature' old' young' ∧
      g.epoch = h.epoch + 1 := by
  have hCounted := hSound.counted hStandard countMinor
  have hPromoted :
      ∀ {outcome k nursery' mature' old' young'},
        Promotes rt (h.counted countMinor) nursery.takeSnapshot
            mature.takeSnapshot old young outcome k nursery'
            mature' old' young' →
          Follows rt h k nursery' mature' old' young' ∧
            k.epoch = h.epoch + 1 := by
    intro outcome k nursery' mature' old' young' hPromotes
    refine
      ⟨hCounted.trans hStandard
        (hPromotes.follows hStandard hCounted.sound), ?_⟩
    unfold epoch
    rw [hPromotes.rest.2.1]
    rfl
  cases hMinor with
  | promoted hPromotes =>
      rcases hPromoted hPromotes with ⟨hFollows, hEpoch⟩
      exact
        ⟨hFollows.wrappedUp hStandard sameObjects_promoted rfl,
          hEpoch⟩
  | stuck hPromotes =>
      rcases hPromoted hPromotes with ⟨hFollows, hEpoch⟩
      exact
        ⟨hFollows.wrappedUp hStandard sameObjects_latched rfl,
          hEpoch⟩

/-
  A minor collection that answers that there is room promoted
  the survivors of the nursery, and did not run out of memory.
-/
theorem MinorCollects.of_success
    (hMinor :
      MinorCollects rt bytes h nursery mature old young true g
        nursery' mature' old' young') :
    young' = [] ∧ g.outOfMemory = h.outOfMemory ∧
      bytes ≤ nursery'.remaining := by
  generalize hTrue : true = success at hMinor
  cases hMinor with
  | promoted hPromotes =>
      exact
        ⟨rfl, hPromotes.rest.2.2.1,
          of_decide_eq_true hTrue.symm⟩
  | stuck _ => cases hTrue

/- A major collection leaves a sound heap in the next epoch. -/
theorem MajorCollects.follows
    (hStandard : rt.Standard)
    (hSound : Sound rt h nursery mature old [])
    (hMajor :
      MajorCollects rt bytes h nursery mature old success g
        nursery' mature' old') :
    Follows rt h g nursery' mature' old' [] ∧
      g.epoch = h.epoch + 1 := by
  have hCounted := hSound.counted hStandard countMajor
  have hPassed :
      ∀ {k nursery' mature' found moves start table},
        Pass rt (h.counted countMajor) k nursery.takeSnapshot
            mature.takeSnapshot nursery' mature' old [] .major
            found moves start table →
          Follows rt h k nursery' mature'
              ((Collection.kept .major old ++ found).map
                (Collection.forward moves)) [] ∧
            k.epoch = h.epoch + 1 := by
    intro k nursery' mature' found moves start table hPass
    refine ⟨hCounted.trans hStandard hPass.follows, ?_⟩
    unfold epoch
    rw [hPass.rest.info]
    rfl
  cases hMajor with
  | roomy hPass _ =>
      rcases hPassed hPass with ⟨hFollows, hEpoch⟩
      exact
        ⟨hFollows.wrappedUp hStandard SameObjects.refl rfl,
          hEpoch⟩
  | tight hPass _ =>
      rcases hPassed hPass with ⟨hFollows, hEpoch⟩
      exact
        ⟨hFollows.wrappedUp hStandard sameObjects_latched rfl,
          hEpoch⟩

/- Clearing the cards at the end starts no epoch. -/
theorem epoch_cleared :
    (h.cleared nursery).epoch = h.epoch := by
  unfold cleared
  split <;> rfl

/-
  A collection leaves a sound heap with the same graph of
  reachable objects.  No object moves where no epoch began, and
  one does begin unless the heap ran out of memory before.
-/
theorem Collects.follows
    (hStandard : rt.Standard)
    (hSound : Sound rt h nursery mature old young)
    (hCollects :
      Collects rt bytes h nursery mature old young success g
        nursery' mature' old' young') :
    Follows rt h g nursery' mature' old' young' ∧
      (g.epoch = h.epoch →
        nursery' = nursery ∧ old' = old ∧ young' = young) ∧
      (h.outOfMemory = false → h.epoch < g.epoch) := by
  cases hCollects with
  | skipped hLatched =>
      refine
        ⟨hSound.cleared, fun _ => ⟨rfl, rfl, rfl⟩,
          fun hFree => ?_⟩
      rw [hLatched] at hFree
      cases hFree
  | minor _ hMinor _ =>
      rcases hMinor.follows hStandard hSound with
        ⟨hFollows, hEpoch⟩
      rw [epoch_cleared, hEpoch]
      exact
        ⟨hFollows.trans hStandard hFollows.sound.cleared,
          by omega, by omega⟩
  | major _ hMinor _ hMajor =>
      rcases hMinor.follows hStandard hSound with
        ⟨hFirst, hEarlier⟩
      rcases hMajor.follows hStandard hFirst.sound with
        ⟨hSecond, hLater⟩
      have hFollows := hFirst.trans hStandard hSecond
      rw [epoch_cleared, hLater, hEarlier]
      exact
        ⟨hFollows.trans hStandard hFollows.sound.cleared,
          by omega, by omega⟩

/-
  The survivors of a major collection with an empty nursery are
  mature objects, and the mature belt has room for them.
-/
theorem Sound.not_short_major
    (hSound : Sound rt h nursery mature old [])
    {found : List Nat} :
    ¬ Short rt h nursery mature old [] .major found := by
  intro hShort
  have hFits :=
    hSound.liveBytes_le
      (List.nodup_append.mp hShort.survey.nodup).2.1
      fun o ho =>
        hShort.survey.members (List.mem_append_right _ ho)
  have hEmpty := hSound.youngTiles.start_eq
  have hMature := hSound.shape.fits.matureMark
  have hTight := hShort.tight
  unfold Collection.chooseDestination at hTight
  unfold Belt.used at hFits
  simp only at hTight
  split at hTight
  · rename_i hChosen
    rw [Bool.and_eq_true, decide_eq_true_eq] at hChosen
    exact Nat.not_lt.mpr hChosen.2 hTight
  · change mature.stop - mature.start < _ at hTight
    omega

end Heap

------------------------------------------------------------
-- Minor Collections
------------------------------------------------------------

namespace HeapM

open Heap

variable {rt : Runtime}
variable {h : Heap}
variable {nursery mature : Belt}
variable {old young : List Nat}
variable {bytes : Nat}

/-
  Survivors of the nursery are promoted, if not by a minor
  collection then by a full-heap one, or nothing changes.
-/
theorem yields_promoteSurvivors
    (hStandard : rt.Standard)
    (hSound : Sound rt h nursery mature old young) :
    ∃ outcome g nursery' mature' old' young',
      Yields (promoteSurvivors rt) h (.ok outcome) g ∧
        Promotes rt h nursery mature old young outcome g
          nursery' mature' old' young' := by
  unfold promoteSurvivors
  rcases yields_runCollection .minor hStandard hSound
      (fun hKind => nomatch hKind) with
    ⟨shortfall, short, hFail, hShort⟩ |
      ⟨g, nursery', mature', found, moves, start, table, hRun,
        hPass⟩
  · rcases yields_runCollection .fullHeap hStandard
        (sameObjects_escalated.sound hSound)
        (fun hKind => nomatch hKind) with
      ⟨again, found, hFailAgain, hAgain⟩ |
        ⟨g, nursery', mature', found, moves, start, table,
          hRun, hPass⟩
    · refine
        ⟨.error again, _, _, _, _, _, ?_,
          .stuck hShort hAgain⟩
      refine yields_bind hFail ?_
      refine yields_report rfl ?_
      exact yields_write hFailAgain
    · refine ⟨_, _, _, _, _, _, ?_, .fullHeap hShort hPass⟩
      refine yields_bind hFail ?_
      refine yields_report rfl ?_
      exact yields_write hRun
  · exact
      ⟨_, _, _, _, _, _, yields_bind hRun (yields_pure _),
        .minor hPass⟩

/- Promoted bytes are counted. -/
theorem yields_concludeMinor_ok
    (epoch : Nat)
    (summary : Collection.Summary) :
    Yields (concludeMinor epoch (.ok summary)) h (.ok ())
      (h.promoted summary.promotedBytes) := by
  unfold concludeMinor
  apply yields_write
  apply yields_read
  exact yields_emit rfl

/- The failure of a minor collection is latched. -/
theorem yields_concludeMinor_error
    (epoch : Nat)
    (failure : Collection.Shortfall) :
    Yields (concludeMinor epoch (.error failure)) h (.ok ())
      h.latched := by
  unfold concludeMinor
  exact yields_report rfl (yields_update _)

/- Publishing regions and ending the epoch come last. -/
theorem yields_wrapUp
    (hShape : Shape h nursery mature)
    (look : Heap → Bool) :
    Yields
      (do
        publishRegions
        finishEpoch
        reading look)
      h (.ok (look (h.wrappedUp nursery mature)))
      (h.wrappedUp nursery mature) := by
  refine yields_bind (yields_publishRegions hShape) ?_
  exact yields_bind yields_finishEpoch (yields_reading look)

/- After the heap ran out of memory nothing is collected. -/
theorem yields_minorCollect_latched
    (hLatched : h.outOfMemory = true) :
    Yields (minorCollect rt bytes) h (.ok false) h := by
  unfold minorCollect
  apply yields_read
  rw [hLatched]
  exact yields_report rfl (yields_pure false)

/- A minor collection goes on after its survivors were promoted. -/
theorem yields_minorCollect_of
    {outcome :
      Except Collection.Shortfall Collection.Summary}
    {k g : Heap}
    {success : Bool}
    (hFree : h.outOfMemory = false)
    (hPromote :
      Yields (promoteSurvivors rt) (h.counted countMinor)
        (.ok outcome) k)
    (hRest :
      Yields
        (do
          concludeMinor (h.info.epochs.collection + 1) outcome
          publishRegions
          finishEpoch
          reading fun h =>
            !h.outOfMemory && bytes ≤ h.nursery.remaining)
        k (.ok success) g) :
    Yields (minorCollect rt bytes) h (.ok success) g := by
  unfold minorCollect
  apply yields_read
  rw [hFree]
  refine yields_bind yields_beginEpoch ?_
  apply yields_write
  apply yields_write
  exact yields_bind hPromote hRest

/- A minor collection that promoted tells of the room it made. -/
theorem yields_minorCollect_promoted
    {summary : Collection.Summary}
    {k : Heap}
    (bytes : Nat)
    (hFree : h.outOfMemory = false)
    (hShape : Shape k nursery mature)
    (hUsable : k.outOfMemory = false)
    (hPromote :
      Yields (promoteSurvivors rt) (h.counted countMinor)
        (.ok (.ok summary)) k) :
    Yields (minorCollect rt bytes) h
      (.ok (decide (bytes ≤ nursery.remaining)))
      ((k.promoted summary.promotedBytes).wrappedUp nursery
        mature) := by
  have hShape' :
      Shape (k.promoted summary.promotedBytes) nursery mature :=
    ⟨hShape.layout, hShape.fits, hShape.cards, hShape.starts,
      hShape.sameCards, hShape.regions⟩
  have hWrap :=
    yields_wrapUp hShape' fun h =>
      !h.outOfMemory && bytes ≤ h.nursery.remaining
  have hLook :
      (!k.outOfMemory && decide (bytes ≤ k.nursery.remaining)) =
        decide (bytes ≤ nursery.remaining) := by
    rw [hUsable, hShape.nursery_eq, Bool.not_false,
      Bool.true_and]
  refine yields_minorCollect_of hFree hPromote ?_
  refine yields_bind (yields_concludeMinor_ok _ _) ?_
  rw [← hLook]
  exact hWrap

theorem yields_minorCollect_stuck
    {failure : Collection.Shortfall}
    {k : Heap}
    (bytes : Nat)
    (hFree : h.outOfMemory = false)
    (hShape : Shape k nursery mature)
    (hPromote :
      Yields (promoteSurvivors rt) (h.counted countMinor)
        (.ok (.error failure)) k) :
    Yields (minorCollect rt bytes) h (.ok false)
      (k.latched.wrappedUp nursery mature) := by
  have hShape' : Shape k.latched nursery mature :=
    ⟨hShape.layout, hShape.fits, hShape.cards, hShape.starts,
      hShape.sameCards, hShape.regions⟩
  refine yields_minorCollect_of hFree hPromote ?_
  refine yields_bind (yields_concludeMinor_error _ _) ?_
  exact
    yields_wrapUp hShape' fun h =>
      !h.outOfMemory && bytes ≤ h.nursery.remaining

/- What a minor collection of a sound heap comes to. -/
theorem yields_minorCollect
    (bytes : Nat)
    (hStandard : rt.Standard)
    (hSound : Sound rt h nursery mature old young)
    (hFree : h.outOfMemory = false) :
    ∃ success g nursery' mature' old' young',
      Yields (minorCollect rt bytes) h (.ok success) g ∧
        MinorCollects rt bytes h nursery mature old young
          success g nursery' mature' old' young' := by
  have hCounted := hSound.counted hStandard countMinor
  rcases yields_promoteSurvivors hStandard hCounted.sound with
    ⟨outcome, k, nursery', mature', old', young', hPromote,
      hPromotes⟩
  have hShape :=
    (hPromotes.follows hStandard hCounted.sound).sound.shape
  cases outcome with
  | ok summary =>
      have hYoung : young' = [] := by
        cases hPromotes <;> rfl
      subst hYoung
      have hUsable : k.outOfMemory = false :=
        hPromotes.rest.2.2.1.trans hFree
      exact
        ⟨_, _, _, _, _, _,
          yields_minorCollect_promoted bytes hFree hShape
            hUsable hPromote,
          .promoted hPromotes⟩
  | error failure =>
      exact
        ⟨_, _, _, _, _, _,
          yields_minorCollect_stuck bytes hFree hShape hPromote,
          .stuck hPromotes⟩

------------------------------------------------------------
-- Major Collections
------------------------------------------------------------

/- A mature belt with enough room is left alone. -/
theorem yields_checkMatureRoom_roomy
    (hShape : Shape h nursery mature)
    (hRoom : bytes ≤ mature.remaining) :
    Yields (checkMatureRoom bytes) h (.ok ()) h := by
  unfold checkMatureRoom
  apply yields_read
  rw [hShape.mature_eq, if_neg (Nat.not_lt.mpr hRoom)]
  exact yields_pure ()

theorem yields_checkMatureRoom_tight
    (hShape : Shape h nursery mature)
    (hTight : mature.remaining < bytes) :
    Yields (checkMatureRoom bytes) h (.ok ()) h.latched := by
  unfold checkMatureRoom
  apply yields_read
  rw [hShape.mature_eq, if_pos hTight]
  exact yields_report rfl (yields_update _)

/-
  What a major collection of a sound heap with an empty nursery
  comes to.
-/
theorem yields_majorCollect
    (bytes : Nat)
    (hStandard : rt.Standard)
    (hSound : Sound rt h nursery mature old [])
    (hFree : h.outOfMemory = false) :
    ∃ success g nursery' mature' old',
      Yields (majorCollect rt bytes) h (.ok success) g ∧
        MajorCollects rt bytes h nursery mature old success g
          nursery' mature' old' := by
  have hCounted := hSound.counted hStandard countMajor
  rcases yields_runCollection .major hStandard hCounted.sound
      (fun _ => rfl) with
    ⟨-, found, -, hShort⟩ |
      ⟨k, nursery', mature', found, moves, start, table, hRun,
        hPass⟩
  · exact absurd hShort hCounted.sound.not_short_major
  have hShape := hPass.sound.shape
  have hShape' : Shape k.latched nursery' mature' :=
    ⟨hShape.layout, hShape.fits, hShape.cards, hShape.starts,
      hShape.sameCards, hShape.regions⟩
  have hStart :
      ∀ {result g},
        Yields
            (do
              checkMatureRoom bytes
              publishRegions
              finishEpoch
              reading fun h => !h.outOfMemory)
            k (.ok result) g →
          Yields (majorCollect rt bytes) h (.ok result) g := by
    intro result g hRest
    unfold majorCollect concludeMajor
    apply yields_read
    rw [hFree]
    refine yields_bind yields_beginEpoch ?_
    apply yields_write
    apply yields_write
    refine yields_bind hRun ?_
    refine yields_bind (yields_read (yields_emit rfl)) ?_
    exact hRest
  by_cases hRoom : bytes ≤ mature'.remaining
  · refine ⟨true, _, _, _, _, hStart ?_, .roomy hPass hRoom⟩
    refine yields_bind
      (yields_checkMatureRoom_roomy hShape hRoom) ?_
    have hWrap := yields_wrapUp hShape fun h => !h.outOfMemory
    have hLook :
        (!(k.wrappedUp nursery' mature').outOfMemory) = true := by
      change (!k.outOfMemory) = true
      rw [hPass.rest.outOfMemory]
      change (!h.outOfMemory) = true
      rw [hFree]
      rfl
    rw [hLook] at hWrap
    exact hWrap
  · have hTight := Nat.lt_of_not_le hRoom
    refine ⟨false, _, _, _, _, hStart ?_, .tight hPass hTight⟩
    refine yields_bind
      (yields_checkMatureRoom_tight hShape hTight) ?_
    exact yields_wrapUp hShape' fun h => !h.outOfMemory

------------------------------------------------------------
-- Whole Collections
------------------------------------------------------------

/- Cards are cleared where the nursery is empty. -/
theorem yields_clearCards
    (hShape : Shape h nursery mature) :
    Yields clearCards h (.ok ()) (h.cleared nursery) := by
  unfold clearCards Heap.cleared
  apply yields_read
  rw [hShape.nursery_eq]
  split
  · exact yields_update _
  · exact yields_pure ()

/- No major collection follows where there is no call for it. -/
theorem yields_collectGarbage_minor
    {success : Bool}
    {g : Heap}
    (hMinor : Yields (minorCollect rt bytes) h (.ok success) g)
    (hShape : Shape g nursery mature)
    (hEnough : (success && matureIsHalfFull g) = false) :
    Yields (collectGarbage rt bytes) h (.ok success)
      (g.cleared nursery) := by
  unfold collectGarbage
  refine yields_bind hMinor ?_
  apply yields_read
  rw [hEnough]
  refine yields_bind (yields_pure success) ?_
  exact
    yields_bind (yields_clearCards hShape) (yields_pure success)

/- A heap that is out of memory only has its cards cleared. -/
theorem yields_collectGarbage_latched
    (hShape : Shape h nursery mature)
    (hLatched : h.outOfMemory = true) :
    Yields (collectGarbage rt bytes) h (.ok false)
      (h.cleared nursery) :=
  yields_collectGarbage_minor
    (yields_minorCollect_latched hLatched) hShape rfl

theorem yields_collectGarbage_major
    {success : Bool}
    {k g : Heap}
    (hMinor : Yields (minorCollect rt bytes) h (.ok true) k)
    (hHalf : matureIsHalfFull k = true)
    (hMajor : Yields (majorCollect rt bytes) k (.ok success) g)
    (hShape : Shape g nursery mature) :
    Yields (collectGarbage rt bytes) h (.ok success)
      (g.cleared nursery) := by
  unfold collectGarbage
  refine yields_bind hMinor ?_
  apply yields_read
  rw [hHalf]
  apply yields_read
  refine yields_report rfl ?_
  refine yields_bind hMajor ?_
  exact
    yields_bind (yields_clearCards hShape) (yields_pure success)

/-
  A collection of a sound heap does not break off.  What it comes
  to is one of the outcomes.
-/
theorem yields_collects
    (bytes : Nat)
    (hStandard : rt.Standard)
    (hSound : Sound rt h nursery mature old young) :
    ∃ success g nursery' mature' old' young',
      Yields (collectGarbage rt bytes) h (.ok success) g ∧
        Collects rt bytes h nursery mature old young success g
          nursery' mature' old' young' := by
  cases hLatched : h.outOfMemory with
  | true =>
      exact
        ⟨_, _, _, _, _, _,
          yields_collectGarbage_latched hSound.shape hLatched,
          .skipped hLatched⟩
  | false =>
      rcases yields_minorCollect bytes hStandard hSound
          hLatched with
        ⟨minor, k, nursery₁, mature₁, old₁, young₁, hRunMinor,
          hMinor⟩
      have hFirst := (hMinor.follows hStandard hSound).1.sound
      by_cases hHalf : (minor && matureIsHalfFull k) = true
      · rw [Bool.and_eq_true] at hHalf
        rcases hHalf with ⟨rfl, hFull⟩
        rcases hMinor.of_success with ⟨rfl, hLatch, -⟩
        rcases yields_majorCollect bytes hStandard hFirst
            (hLatch.trans hLatched) with
          ⟨success, g, nursery', mature', old', hRunMajor,
            hMajor⟩
        have hSecond := (hMajor.follows hStandard hFirst).1.sound
        exact
          ⟨_, _, _, _, _, _,
            yields_collectGarbage_major hRunMinor hFull
              hRunMajor hSecond.shape,
            .major hLatched hMinor hFull hMajor⟩
      · rw [Bool.not_eq_true] at hHalf
        exact
          ⟨_, _, _, _, _, _,
            yields_collectGarbage_minor hRunMinor hFirst.shape
              hHalf,
            .minor hLatched hMinor hHalf⟩

/-
  A collection of a sound heap does not break off.  It leaves a
  sound heap with the same graph of reachable objects.  No
  object moves where no collection epoch began, and one does
  begin unless the heap ran out of memory before.
-/
theorem yields_collectGarbage
    (bytes : Nat)
    (hStandard : rt.Standard)
    (hSound : Sound rt h nursery mature old young) :
    ∃ success g nursery' mature' old' young',
      Yields (collectGarbage rt bytes) h (.ok success) g ∧
        Follows rt h g nursery' mature' old' young' ∧
        (g.epoch = h.epoch →
          nursery' = nursery ∧ old' = old ∧ young' = young) ∧
        (h.outOfMemory = false → h.epoch < g.epoch) := by
  rcases yields_collects bytes hStandard hSound with
    ⟨success, g, nursery', mature', old', young', hRun,
      hCollects⟩
  exact
    ⟨success, g, nursery', mature', old', young', hRun,
      hCollects.follows hStandard hSound⟩

/- The worker collects like whoever asks it to. -/
theorem yields_collect
    {success : Bool}
    {g : Heap}
    (hCollect :
      Yields (collectGarbage rt bytes) h (.ok success) g) :
    Yields (collect rt bytes) h (.ok success) g := by
  unfold collect Executor.execute
  rw [if_neg (by decide)]
  refine yields_report rfl ?_
  refine yields_bind hCollect ?_
  exact yields_report rfl (yields_pure success)

end HeapM

end BeltHeap
