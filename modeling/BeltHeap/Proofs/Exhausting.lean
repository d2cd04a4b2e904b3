import BeltHeap.Proofs.Failing

/-
  When an allocation finds the heap exhausted.  Either the
  reachable objects leave no room in the mature belt, or the
  request is too large for the nursery and no collection looked
  for garbage in the mature belt, or the survivors were evacuated
  into a nursery belt that is too small for the request as well.

  Main declarations:
    * `Heap.Exhausts`
    * `Heap.Pass.fills`
    * `Heap.Allocation.exhausts`
    * `Heap.Allocation.exhausted_of_evacuated`
    * `Program.exhausted_heap_has_no_room`
    * `Program.exhausted_heap_may_have_room`
-/

------------------------------------------------------------
-- Reasons
------------------------------------------------------------

namespace BeltHeap

namespace Heap

/-
  Why there is no room for a block of `size` bytes in a heap with
  `live` bytes of reachable objects, once a collection has turned
  it into another one.
-/
inductive Exhausts
    (h g : Heap)
    (live size : Nat) : Prop where
| full
    (hTight : h.mature.size < live + size) :
    Exhausts h g live size
| uncollected
    (hLarge : h.nursery.size < size)
    (hMinor :
      g.stats.major = h.stats.major ∧
        g.stats.fullHeap = h.stats.fullHeap)
    (hBelt : g.mature.span = h.mature.span)
    (hTight : h.mature.size < g.mature.used + size) :
    Exhausts h g live size
| evacuated
    (hSmall : size ≤ h.nursery.size)
    (hMajor : g.stats.major = h.stats.major + 1)
    (hBelt : g.mature.span = h.nursery.span)
    (hTight : h.nursery.size < live + size) :
    Exhausts h g live size

variable {rt : Runtime}
variable {h g : Heap}
variable {nursery mature nursery' mature' : Belt}
variable {old young old' young' found : List Nat}
variable {kind : Collection.Kind}
variable {moves : List Collection.Move}
variable {start live size bytes : Nat}
variable {table : FirstObjects}
variable {success : Bool}
variable {summary : Collection.Summary}

------------------------------------------------------------
-- Belts After a Pass
------------------------------------------------------------

/- Clearing the cards does not touch the latch. -/
theorem outOfMemory_cleared :
    (h.cleared nursery).outOfMemory = h.outOfMemory := by
  unfold cleared
  split <;> rfl

/-
  A pass that condemned the mature belt leaves nothing but the
  live bytes in it.  Only a major one may swap the belts, and
  does where the live bytes fit into the nursery belt.
-/
theorem Pass.fills
    (hKind : kind ≠ .minor)
    (hStandard : rt.Standard)
    (hPass :
      Pass rt h g nursery mature nursery' mature' old young kind
        found moves start table)
    (hLive : LiveBytes rt h live) :
    mature'.mark = mature'.start + live ∧
      ((mature'.span = mature.span ∧
          (kind = .major → nursery.size < live)) ∨
        (kind = .major ∧ mature'.span = nursery.span)) := by
  have hFound :=
    hPass.relocation.survey.liveBytes hStandard hKind
      hPass.survivors
  rw [hLive.unique hFound]
  cases hPass.lands with
  | append hMinor _ => exact absurd hMinor hKind
  | evacuate hMajor _ => exact ⟨rfl, Or.inr ⟨hMajor, rfl⟩⟩
  | slide _ hChoice _ => exact ⟨rfl, Or.inl ⟨rfl, hChoice⟩⟩

/-
  Where promoting succeeds, the nursery is empty and the mature
  belt lies where it did.  Nothing but live bytes is left in it
  if a full-heap pass was counted.
-/
theorem Promotes.of_ok
    (hStandard : rt.Standard)
    (hPromotes :
      Promotes rt h nursery mature old young (.ok summary) g
        nursery' mature' old' young')
    (hLive : LiveBytes rt h live) :
    nursery' = nursery.emptied ∧ mature'.span = mature.span ∧
      (g.stats = h.stats ∨
        mature'.mark = mature'.start + live) := by
  cases hPromotes with
  | minor hPass =>
      cases hPass.lands with
      | append _ _ => exact ⟨rfl, rfl, Or.inl hPass.rest.stats⟩
      | evacuate hMajor _ => cases hMajor
      | slide hMinor _ _ => exact absurd rfl hMinor
  | fullHeap _ hPass =>
      have hEscalated : LiveBytes rt h.escalated live :=
        sameObjects_escalated.liveBytes hStandard hLive
      have hMark :=
        (hPass.fills (by decide) hStandard hEscalated).1
      cases hPass.lands with
      | append hMinor _ => cases hMinor
      | evacuate hMajor _ => cases hMajor
      | slide _ _ _ => exact ⟨rfl, rfl, Or.inr hMark⟩

------------------------------------------------------------
-- Collections Without Room
------------------------------------------------------------

/- The reasons do not depend on the cards. -/
theorem Exhausts.cleared
    (hExhausts : Exhausts h g live size) :
    Exhausts h (g.cleared nursery) live size := by
  unfold Heap.cleared
  split
  · cases hExhausts with
    | full hTight => exact .full hTight
    | uncollected hLarge hMinor hBelt hTight =>
        exact .uncollected hLarge hMinor hBelt hTight
    | evacuated hSmall hMajor hBelt hTight =>
        exact .evacuated hSmall hMajor hBelt hTight
  · exact hExhausts

/-
  A minor collection without room for the request had too many
  live bytes to promote, or it was asked for more than the whole
  nursery.
-/
theorem MinorCollects.exhausts
    (hStandard : rt.Standard)
    (hSound : Sound rt h nursery mature old young)
    (hFree : h.outOfMemory = false)
    (hLive : LiveBytes rt h live)
    (hMinor :
      MinorCollects rt size h nursery mature old young success g
        nursery' mature' old' young')
    (hNoHelp :
      success = true → nursery'.stop < nursery'.mark + size)
    (hNone :
      g.outOfMemory = true ∨
        mature'.stop < mature'.mark + size) :
    Exhausts h g live size := by
  have hCounted := hSound.counted hStandard countMinor
  have hBegun := hCounted.liveBytes hStandard hLive
  have hShape := (hMinor.follows hStandard hSound).1.sound.shape
  have hMature := hSound.shape.mature_eq
  have hNursery := hSound.shape.nursery_eq
  have hAfter := hShape.mature_eq
  have hMarks := hSound.shape.fits.nurseryMark
  have hMarks' := hShape.fits.matureMark
  cases hMinor with
  | stuck hPromotes =>
      rcases hPromotes.of_error with
        ⟨-, -, -, _, _, -, hShort⟩
      have hTight :=
        hShort.lt_of_fullHeap hStandard
          (sameObjects_escalated.liveBytes hStandard hBegun)
      refine .full ?_
      rw [hMature]
      exact Nat.lt_add_right size hTight
  | @promoted _ k _ _ _ hPromotes =>
      have hFull : mature'.stop < mature'.mark + size := by
        refine hNone.resolve_left fun hLatched => ?_
        have hUsable := hPromotes.rest.2.2.1.trans hFree
        exact Bool.false_ne_true (hUsable.symm.trans hLatched)
      rcases hPromotes.of_ok hStandard hBegun with
        ⟨rfl, hBelt, hOutcome⟩
      have hBelt' : mature'.span = mature.span := hBelt
      have hStarts : mature'.start = mature.start :=
        congrArg Span.start hBelt
      have hStops : mature'.stop = mature.stop :=
        congrArg Span.stop hBelt
      have hLarge : nursery.size < size := by
        by_contra hFits
        have hRoom :
            size ≤ nursery.takeSnapshot.emptied.remaining :=
          Nat.le_of_not_lt hFits
        have hNot := hNoHelp (decide_eq_true hRoom)
        change nursery.stop < nursery.start + size at hNot
        change size ≤ nursery.stop - nursery.start at hRoom
        omega
      rcases hOutcome with hStats | hMark
      · refine .uncollected ?_ ?_ ?_ ?_
        · rw [hNursery]
          exact hLarge
        · change
            k.stats.major = h.stats.major ∧
              k.stats.fullHeap = h.stats.fullHeap
          rw [hStats]
          exact ⟨rfl, rfl⟩
        · rw [hAfter, hMature]
          exact hBelt'
        · rw [hAfter, hMature]
          unfold Belt.size Belt.used
          omega
      · refine .full ?_
        rw [hMature]
        unfold Belt.size
        omega

/-
  A minor collection that made room emptied the nursery, left
  the mature belt where it was and counted no major collection.
-/
theorem MinorCollects.belts_of_success
    (hStandard : rt.Standard)
    (hSound : Sound rt h nursery mature old young)
    (hLive : LiveBytes rt h live)
    (hMinor :
      MinorCollects rt size h nursery mature old young true g
        nursery' mature' old' young') :
    size ≤ nursery.size ∧ nursery'.span = nursery.span ∧
      mature'.span = mature.span ∧
      g.stats.major = h.stats.major := by
  have hCounted := hSound.counted hStandard countMinor
  have hBegun := hCounted.liveBytes hStandard hLive
  have hRoom := hMinor.of_success.2.2
  generalize hTrue : true = success at hMinor
  cases hMinor with
  | promoted hPromotes =>
      rcases hPromotes.of_ok hStandard hBegun with
        ⟨rfl, hBelt, -⟩
      exact ⟨hRoom, rfl, hBelt, hPromotes.rest.2.2.2.2⟩
  | stuck _ => cases hTrue

/-
  A major collection without room for the request left too many
  live bytes in the mature belt, or in the nursery belt that it
  evacuated them into.
-/
theorem MajorCollects.tight_of_none
    (hStandard : rt.Standard)
    (hSound : Sound rt h nursery mature old [])
    (hFree : h.outOfMemory = false)
    (hLive : LiveBytes rt h live)
    (hMajor :
      MajorCollects rt size h nursery mature old success g
        nursery' mature' old')
    (hNone :
      g.outOfMemory = true ∨
        mature'.stop < mature'.mark + size) :
    mature.size < live + size ∨
      (g.stats.major = h.stats.major + 1 ∧
        mature'.span = nursery.span ∧
        nursery.size < live + size) := by
  have hCounted := hSound.counted hStandard countMajor
  have hBegun := hCounted.liveBytes hStandard hLive
  have hShape := (hMajor.follows hStandard hSound).1.sound.shape
  have hMark := hShape.fits.matureMark
  cases hMajor with
  | roomy hPass hRoom =>
      have hUsable := hPass.rest.outOfMemory.trans hFree
      have hTight :=
        hNone.resolve_left fun hLatched =>
          Bool.false_ne_true (hUsable.symm.trans hLatched)
      unfold Belt.remaining at hRoom
      omega
  | tight hPass hTight =>
      have hFull : ∀ b : Belt, mature'.span = b.span →
          b.size < live + size := by
        intro b hSpan
        have hFilled :=
          (hPass.fills (by decide) hStandard hBegun).1
        rw [← Belt.size_of_span hSpan]
        unfold Belt.remaining at hTight
        unfold Belt.size
        omega
      rcases (hPass.fills (by decide) hStandard hBegun).2 with
        ⟨hBelt, -⟩ | ⟨-, hBelt⟩
      · exact Or.inl (hFull mature hBelt)
      · exact
          Or.inr
            ⟨congrArg CollectionStats.major hPass.rest.stats,
              hBelt, hFull nursery hBelt⟩

/-
  A whole collection without room for the request has one of the
  reasons.
-/
theorem Collects.exhausts
    (hStandard : rt.Standard)
    (hSound : Sound rt h nursery mature old young)
    (hFree : h.outOfMemory = false)
    (hLive : LiveBytes rt h live)
    (hCollects :
      Collects rt size h nursery mature old young success g
        nursery' mature' old' young')
    (hNoHelp :
      success = true → nursery'.stop < nursery'.mark + size)
    (hNone :
      g.outOfMemory = true ∨
        mature'.stop < mature'.mark + size) :
    Exhausts h g live size := by
  cases hCollects with
  | skipped hLatched =>
      exact
        absurd (hFree.symm.trans hLatched) Bool.false_ne_true
  | minor _ hMinor _ =>
      rw [outOfMemory_cleared] at hNone
      exact
        (hMinor.exhausts hStandard hSound hFree hLive hNoHelp
          hNone).cleared
  | @major _ _ g _ _ _ _ _ _ _ hMinor _ hMajor =>
      rw [outOfMemory_cleared] at hNone
      have hFirst := (hMinor.follows hStandard hSound).1
      rcases hMinor.belts_of_success hStandard hSound hLive with
        ⟨hSize, hNursery, hMature, hMajors⟩
      rcases hMajor.tight_of_none hStandard hFirst.sound
          (hMinor.of_success.2.1.trans hFree)
          (hFirst.liveBytes hStandard hLive) hNone with
        hTight | ⟨hCounted, hBelt, hTight⟩
      · refine .full ?_
        rw [hSound.shape.mature_eq, ← Belt.size_of_span hMature]
        exact hTight
      · have hEvacuated : Exhausts h g live size := by
          refine .evacuated ?_ (hCounted.trans ?_) ?_ ?_
          · rw [hSound.shape.nursery_eq]
            exact hSize
          · rw [hMajors]
          · have hAfter :=
              (hMajor.follows hStandard hFirst.sound).1
            rw [hAfter.sound.shape.mature_eq,
              hSound.shape.nursery_eq]
            exact hBelt.trans hNursery
          · rw [hSound.shape.nursery_eq,
              ← Belt.size_of_span hNursery]
            exact hTight
        exact hEvacuated.cleared

/-
  An allocation finds the heap exhausted for one of the reasons
  only.
-/
theorem Allocation.exhausts
    (hStandard : rt.Standard)
    (hSound : Sound rt h nursery mature old young)
    (hLive : LiveBytes rt h live)
    {requested : Nat}
    (hAllocation :
      Allocation rt h nursery mature old young size
        (.error (.heapExhausted requested)) g) :
    Exhausts h g live size := by
  cases hAllocation with
  | exhausted _ hFree hCollects hNoHelp hNone =>
      exact
        hCollects.exhausts hStandard hSound hFree hLive hNoHelp
          hNone

------------------------------------------------------------
-- Evacuating Into a Small Belt
------------------------------------------------------------

/- A minor pass is not short of room for a whole nursery. -/
theorem Sound.not_short_minor
    (hSound : Sound rt h nursery mature old young)
    (hRoom : nursery.used ≤ mature.remaining) :
    ¬ Short rt h nursery mature old young .minor found := by
  intro hShort
  have hNodup :=
    (List.nodup_append.mp hShort.survey.nodup).2.1
  have hYoung : ∀ o ∈ found, o ∈ young :=
    hShort.survey.condemned
  have hTotal :=
    Collection.total_le_of_subset (Object.size h.memory) hNodup
      hYoung
  have hTiles := Collection.total_tiles hSound.youngTiles
  have hTight := hShort.tight
  rw [liveBytes_sized] at hTight
  change mature.remaining < _ at hTight
  unfold Belt.used at hRoom
  omega

/-
  A minor collection that has room for the whole nursery makes
  room for a request that is no larger.
-/
theorem MinorCollects.of_room
    (hStandard : rt.Standard)
    (hSound : Sound rt h nursery mature old young)
    (hRoom : nursery.used ≤ mature.remaining)
    (hFits : size ≤ nursery.size)
    (hMinor :
      MinorCollects rt size h nursery mature old young success g
        nursery' mature' old' young') :
    success = true ∧ mature.used ≤ mature'.used ∧
      g.config = h.config := by
  have hCounted := hSound.counted hStandard countMinor
  have hNotShort :
      ∀ {short},
        ¬ Short rt (h.counted countMinor) nursery.takeSnapshot
          mature.takeSnapshot old young .minor short :=
    hCounted.sound.not_short_minor hRoom
  cases hMinor with
  | promoted hPromotes =>
      cases hPromotes with
      | fullHeap hShort _ => exact absurd hShort hNotShort
      | minor hPass =>
          have hConfig := hPass.rest.config
          cases hPass.lands with
          | evacuate hMajor _ => cases hMajor
          | slide hMinor _ _ => exact absurd rfl hMinor
          | append _ _ =>
              refine ⟨decide_eq_true hFits, ?_, hConfig⟩
              change
                mature.mark - mature.start ≤
                  mature.mark + _ - mature.start
              omega
  | stuck hPromotes =>
      rcases hPromotes.of_error with
        ⟨-, -, -, _, _, hShort, -⟩
      exact absurd hShort hNotShort

/-
  A major collection evacuates survivors that fit into the
  nursery belt, and it has no room for the request if they leave
  none there.
-/
theorem MajorCollects.latched_of_evacuated
    (hStandard : rt.Standard)
    (hSound : Sound rt h nursery mature old [])
    (hLive : LiveBytes rt h live)
    (hEvacuable : live ≤ nursery.size)
    (hTight : nursery.size < live + size)
    (hMajor :
      MajorCollects rt size h nursery mature old success g
        nursery' mature' old') :
    success = false ∧ g.outOfMemory = true := by
  have hCounted := hSound.counted hStandard countMajor
  have hBegun := hCounted.liveBytes hStandard hLive
  cases hMajor with
  | roomy hPass hRoom =>
      rcases hPass.fills (by decide) hStandard hBegun with
        ⟨hFilled, ⟨-, hChoice⟩ | ⟨-, hBelt⟩⟩
      · exact absurd hEvacuable (Nat.not_le_of_lt (hChoice rfl))
      · have hSize : mature'.size = nursery.size :=
          Belt.size_of_span hBelt
        unfold Belt.remaining at hRoom
        unfold Belt.size at hSize hTight hEvacuable
        omega
  | tight _ _ => exact ⟨rfl, rfl⟩

/-
  An allocation finds the heap exhausted where the mature belt
  is half full and its survivors leave no room in the nursery
  belt, however much there is in the mature belt.
-/
theorem Allocation.exhausted_of_evacuated
    {result : Except AllocationError Nat}
    (hStandard : rt.Standard)
    (hSound : Sound rt h nursery mature old young)
    (hFree : h.outOfMemory = false)
    (hLive : LiveBytes rt h live)
    (hFull : nursery.stop < nursery.mark + size)
    (hFits : size ≤ nursery.size)
    (hRoom : nursery.used ≤ mature.remaining)
    (hHalf : h.config.usableMemory ≤ mature.used)
    (hEvacuable : live ≤ nursery.size)
    (hTight : nursery.size < live + size)
    (hAllocation :
      Allocation rt h nursery mature old young size result g) :
    result = .error (.heapExhausted size) := by
  have hLatched :
      ∀ {success k nursery' mature' old' young'},
        Collects rt size h nursery mature old young success k
            nursery' mature' old' young' →
          success = false ∧ k.outOfMemory = true := by
    intro success k nursery' mature' old' young' hCollects
    cases hCollects with
    | skipped hLatched =>
        exact
          absurd (hFree.symm.trans hLatched)
            Bool.false_ne_true
    | minor _ hMinor hEnough =>
        rcases hMinor.of_room hStandard hSound hRoom hFits with
          ⟨rfl, hUsed, hConfig⟩
        have hShape :=
          (hMinor.follows hStandard hSound).1.sound.shape
        unfold HeapM.matureIsHalfFull at hEnough
        rw [Bool.true_and, decide_eq_false_iff_not, hConfig,
          hShape.mature_eq] at hEnough
        exact absurd (Nat.le_trans hHalf hUsed) hEnough
    | major _ hMinor _ hMajor =>
        have hFirst := (hMinor.follows hStandard hSound).1
        have hSize :=
          Belt.size_of_span
            (hMinor.belts_of_success hStandard hSound
              hLive).2.1
        rw [outOfMemory_cleared]
        exact
          hMajor.latched_of_evacuated hStandard hFirst.sound
            (hFirst.liveBytes hStandard hLive)
            (by rw [hSize]; exact hEvacuable)
            (by rw [hSize]; exact hTight)
  cases hAllocation with
  | bumped hRoom => omega
  | latched _ hLatch =>
      exact absurd (hFree.symm.trans hLatch) Bool.false_ne_true
  | collected _ _ hCollects _ =>
      exact absurd (hLatched hCollects).1.symm Bool.false_ne_true
  | pretenured _ _ hCollects _ hUsable _ =>
      exact
        absurd (hUsable.symm.trans (hLatched hCollects).2)
          Bool.false_ne_true
  | exhausted _ _ _ _ _ => rfl

end Heap

------------------------------------------------------------
-- Exhausted Heaps
------------------------------------------------------------

namespace Program

open Heap

variable {rt : Runtime}
variable {s : State}

/-
  A program that is told that the heap is exhausted has too many
  reachable objects for the mature belt, or asked for more than
  the nursery and the mature belt was not collected, or the
  reachable objects fill the belt that they were evacuated into.
-/
theorem exhausted_heap_has_no_room
    (hReached : Reached rt s)
    {bytes requested : Nat}
    {t : Logged HeapRun}
    (hBytes : bytes + Word.bytes ≤ Word.limit)
    (hRun :
      HeapM.alloc rt bytes s.run =
        (.ok (.error (.heapExhausted requested)), t)) :
    requested = HeapM.roundedSize rt bytes ∧
      ∃ live, LiveBytes rt s.heap live ∧
        Exhausts s.heap t.state.heap live
          (HeapM.roundedSize rt bytes) := by
  have hStandard := hReached.standard
  rcases hReached.invariant with
    ⟨nursery, mature, old, young, hSound, -⟩
  rcases hSound.exists_liveBytes hStandard with ⟨live, hLive⟩
  have hSize : 0 < HeapM.roundedSize rt bytes := by
    have hSpec := HeapM.roundedSize_spec hStandard hBytes
    have hWord : 0 < Word.bytes := by decide
    omega
  rcases (HeapM.ends_allocation hStandard hSound hSize).ensures
      s.run t _ rfl hRun with
    ⟨hAllocation, -⟩
  refine ⟨?_, live, hLive, ?_⟩
  · cases hAllocation with
    | exhausted _ _ _ _ _ => rfl
  · exact hAllocation.exhausts hStandard hSound hLive

------------------------------------------------------------
-- Garbage in the Mature Belt
------------------------------------------------------------

/-
  The small heap with two objects that the nursery cannot hold.
  They fill most of the mature belt, and nothing refers to them.
-/
def smallLittered : State :=
  smallOld.after {} (.alloc 20000 0)

/- The small run may go on like this. -/
theorem reached_smallLittered : Reached {} smallLittered := by
  have hStep :
      Step {} smallOld (.alloc 20000 0) (some 101920)
        smallLittered :=
    step_after
      (show Object.bytesFor 0 0 ≤ HeapM.roundedSize {} 20000 by
        decide)
      (by decide +kernel)
  exact .step reached_smallOld hStep

/- The littered heap has no room for a third such object. -/
theorem alloc_smallLittered :
    ∃ t, HeapM.alloc {} 20000 smallLittered.run =
      (.ok (.error (.heapExhausted 20000)), t) := by
  have hRun :
      (HeapM.alloc {} 20000 smallLittered.run).1 =
        .ok (.error (.heapExhausted 20000)) := by
    decide +kernel
  cases hCase : HeapM.alloc {} 20000 smallLittered.run with
  | mk result t =>
      rw [hCase] at hRun
      dsimp only at hRun
      rw [hRun]
      exact ⟨t, rfl⟩

/- The littered heap is exhausted for one of the reasons. -/
theorem exhausted_heap_has_no_room_littered :
    ∃ t,
      HeapM.alloc {} 20000 smallLittered.run =
          (.ok (.error (.heapExhausted 20000)), t) ∧
        ∃ live, LiveBytes {} smallLittered.heap live ∧
          Exhausts smallLittered.heap t.state.heap live
            (HeapM.roundedSize {} 20000) := by
  rcases alloc_smallLittered with ⟨t, hRun⟩
  exact
    ⟨t, hRun,
      (exhausted_heap_has_no_room reached_smallLittered
        (by decide) hRun).2⟩

/- No object is reachable where all root slots are null. -/
theorem liveBytes_of_unrooted
    {h : Heap}
    (hNone : ∀ slot ∈ h.rootSlots rt, h.readSlot slot = 0) :
    LiveBytes rt h 0 := by
  refine ⟨[], List.nodup_nil, fun o => ⟨nofun, ?_⟩, rfl⟩
  intro hReachable
  induction hReachable with
  | root hSlot hNull => exact absurd (hNone _ hSlot) hNull
  | field _ _ _ ih => cases ih

------------------------------------------------------------
-- Survivors in the Nursery Belt
------------------------------------------------------------

/-
  The small heap with an unreachable object that fills more than
  half of the mature belt.
-/
def halfLittered : State :=
  smallStart.after {} (.alloc 33000 0)

/- The littered heap with another object in the nursery. -/
def halfNew : State :=
  halfLittered.after {} (.alloc 12000 0)

/- The root slot comes to refer to the object in the nursery. -/
def halfFull : State :=
  halfNew.after {} (.addRoot 65536)

/- The unreachable object is allocated. -/
theorem step_halfLittered :
    Step {} smallStart (.alloc 33000 0) (some 81920)
      halfLittered :=
  step_after
    (show Object.bytesFor 0 0 ≤ HeapM.roundedSize {} 33000 by
      decide)
    (by decide +kernel)

/- The object in the nursery is allocated. -/
theorem step_halfNew :
    Step {} halfLittered (.alloc 12000 0) (some 65536) halfNew :=
  step_after
    (show Object.bytesFor 0 0 ≤ HeapM.roundedSize {} 12000 by
      decide)
    (by decide +kernel)

theorem reached_halfLittered : Reached {} halfLittered :=
  .step reached_smallStart step_halfLittered

theorem reached_halfFull : Reached {} halfFull := by
  have hRooted :
      Step {} halfNew (.addRoot 65536) none halfFull := by
    refine step_after (Known.fresh ?_) ?_
    · decide +kernel
    · decide +kernel
  exact .step (.step reached_halfLittered step_halfNew) hRooted

/-
  From a single root without references nothing but its object
  is reached.
-/
theorem reachable_iff_of_one_root
    {h : Heap}
    {slot : Slot}
    {object : Nat}
    (hStandard : rt.Standard)
    (hSlots : h.rootSlots rt = [slot])
    (hEntry : h.readSlot slot = object)
    (hNull : object ≠ 0)
    (hRefs : Object.refCount h.memory object = 0)
    {o : Nat} :
    Reachable rt h o ↔ o = object := by
  constructor
  · intro hReachable
    induction hReachable with
    | root hSlot _ =>
        rw [hSlots, List.mem_singleton] at hSlot
        rw [hSlot, hEntry]
    | field _ hField _ ih =>
        rw [ih, hStandard.fields] at hField
        unfold Object.fields at hField
        rw [hRefs] at hField
        cases hField
  · rintro rfl
    rw [← hEntry] at hNull ⊢
    refine .root ?_ hNull
    rw [hSlots]
    exact List.mem_singleton_self _

/-
  The live bytes are those of the object behind a single root,
  if it has no references.
-/
theorem liveBytes_of_one_root
    {h : Heap}
    (slot : Slot)
    (object : Nat)
    (hStandard : rt.Standard)
    (hSlots : h.rootSlots rt = [slot])
    (hEntry : h.readSlot slot = object)
    (hNull : object ≠ 0)
    (hRefs : Object.refCount h.memory object = 0) :
    LiveBytes rt h (Object.size h.memory object) := by
  refine
    ⟨[object], List.nodup_singleton _, fun o => ?_,
      Nat.add_zero _⟩
  rw [List.mem_singleton]
  exact
    (reachable_iff_of_one_root hStandard hSlots hEntry hNull
      hRefs).symm

/- The object in the nursery is the only one that is live. -/
theorem liveBytes_halfFull : LiveBytes {} halfFull.heap 12000 := by
  have hKept : halfFull.heap.memory = halfNew.heap.memory :=
    memory_after_addRoot 65536
  have hInvariant := reached_halfLittered.invariant
  have hSize : Object.size halfFull.heap.memory 65536 = 12000 := by
    rw [hKept]
    exact step_halfNew.size_new standard_default hInvariant
  rw [← hSize]
  refine
    liveBytes_of_one_root (.entry 0) 65536 standard_default ?_
      ?_ (by decide) ?_
  · decide +kernel
  · decide +kernel
  · rw [hKept]
    exact step_halfNew.refCount_new standard_default hInvariant

/- The nursery and more than half of the mature belt are used. -/
theorem belts_halfFull :
    halfFull.heap.outOfMemory = false ∧
      halfFull.heap.config.usableMemory = 32768 ∧
      halfFull.heap.layout.heap.stop = 131072 ∧
      halfFull.heap.nursery =
        ⟨0, 65536, 81920, 77536, 65536, false⟩ ∧
      halfFull.heap.mature =
        ⟨1, 81920, 131072, 114920, 81920, true⟩ := by
  decide +kernel

/-
  The half full heap has no room for another object of that
  size.
-/
theorem alloc_halfFull :
    ∃ t, HeapM.alloc {} 10000 halfFull.run =
      (.ok (.error (.heapExhausted 10000)), t) := by
  rcases reached_halfFull.invariant with
    ⟨nursery, mature, old, young, hSound, -⟩
  rcases belts_halfFull with
    ⟨hFree, hUsable, hStop, hNursery, hMature⟩
  rw [hSound.shape.nursery_eq] at hNursery
  rw [hSound.shape.mature_eq] at hMature
  subst hNursery
  subst hMature
  have hSize : HeapM.roundedSize {} 10000 = 10000 := by decide
  have hEnds :
      HeapM.Ends _ (HeapM.alloc {} 10000) halfFull.heap _ :=
    HeapM.ends_allocation standard_default hSound (by decide)
  rw [hSize] at hEnds
  have hWords : ∀ f, ¬ halfFull.heap.Overflows 10000 f := by
    rintro f ⟨-, hOver⟩
    rw [hStop] at hOver
    exact absurd hOver (by decide)
  rcases hEnds.returns hWords with
    ⟨result, g, hYields, hAllocation⟩
  rcases hYields halfFull.run rfl with ⟨t, hRun, -⟩
  rw [hRun,
    hAllocation.exhausted_of_evacuated standard_default hSound
      hFree liveBytes_halfFull (by decide) (by decide)
      (by decide) (by rw [hUsable]; decide) (by decide)
      (by decide)]
  exact ⟨t, rfl⟩

/-
  The littered heap and the half full one are exhausted, though
  the reachable objects and the block would fit into the mature
  belt.
-/
theorem exhausted_heap_may_have_room :
    (Reached {} smallLittered ∧
      smallLittered.heap.outOfMemory = false ∧
      (∃ t, HeapM.alloc {} 20000 smallLittered.run =
        (.ok (.error (.heapExhausted 20000)), t)) ∧
      LiveBytes {} smallLittered.heap 0 ∧
      0 + HeapM.roundedSize {} 20000 ≤
        smallLittered.heap.mature.size) ∧
    Reached {} halfFull ∧
      halfFull.heap.outOfMemory = false ∧
      (∃ t, HeapM.alloc {} 10000 halfFull.run =
        (.ok (.error (.heapExhausted 10000)), t)) ∧
      LiveBytes {} halfFull.heap 12000 ∧
      12000 + HeapM.roundedSize {} 10000 ≤
        halfFull.heap.mature.size := by
  have hRoom :
      12000 + HeapM.roundedSize {} 10000 ≤
        halfFull.heap.mature.size := by
    rw [belts_halfFull.2.2.2.2]
    decide
  exact
    ⟨⟨reached_smallLittered, by decide +kernel,
        alloc_smallLittered,
        liveBytes_of_unrooted (by decide +kernel),
        by decide +kernel⟩,
      reached_halfFull, belts_halfFull.1, alloc_halfFull,
      liveBytes_halfFull, hRoom⟩

end Program

end BeltHeap
