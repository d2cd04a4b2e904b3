import BeltHeap.Proofs.Collected
import BeltHeap.Proofs.Exhausting

/-
  What a collection that answers that there is room has done to
  the nursery.  It is empty, and it has room for the request, but
  for one exception: in a heap of odd size without live bytes,
  the major collection may exchange belts that differ by one
  byte, after the room in the nursery was looked at.

  Main declarations:
    * `Heap.SamePlace`
    * `Heap.AsLongAsConfigured`
    * `Program.Reached.asLongAsConfigured`
    * `Heap.OneByteShort`
    * `Heap.Collects.vacates`
    * `Heap.Collects.exchanges`
    * `Program.collection_vacates_nursery`
    * `Program.collection_may_leave_nursery_short`
-/

------------------------------------------------------------
-- The Size of the Heap
------------------------------------------------------------

namespace BeltHeap

namespace Heap

/- One heap lies where another one does, with its settings. -/
structure SamePlace (h g : Heap) : Prop where
  config : g.config = h.config
  place : g.layout.heap = h.layout.heap

/- The belts share as many bytes as were asked for. -/
def AsLongAsConfigured (h : Heap) : Prop :=
  h.layout.heap.stop = h.layout.heap.start + h.config.maxHeapSize

variable {rt : Runtime}
variable {h g k : Heap}
variable {nursery mature nursery' mature' : Belt}
variable {old young old' young' : List Nat}
variable {success : Bool}
variable {bytes live size : Nat}

theorem SamePlace.trans
    (h₁ : SamePlace h g)
    (h₂ : SamePlace g k) :
    SamePlace h k :=
  ⟨h₂.config.trans h₁.config, h₂.place.trans h₁.place⟩

/- The size stays what was asked for. -/
theorem SamePlace.asLongAsConfigured
    (hSame : SamePlace h g)
    (hLong : AsLongAsConfigured h) :
    AsLongAsConfigured g := by
  unfold AsLongAsConfigured
  rw [hSame.place, hSame.config]
  exact hLong

/- What the one belt does not have, the other one has. -/
theorem Shape.size_add_size
    (hShape : Shape h nursery mature)
    (hLong : AsLongAsConfigured h) :
    nursery.size + mature.size = h.config.maxHeapSize := by
  have hPlace := hShape.fits.place
  have hNursery := hShape.fits.nurseryMark
  have hMature := hShape.fits.matureMark
  unfold Layout.Adjoin at hPlace
  unfold AsLongAsConfigured at hLong
  unfold Belt.size
  omega

/- A minor collection keeps the settings. -/
theorem MinorCollects.config
    (hMinor :
      MinorCollects rt bytes h nursery mature old young success
        g nursery' mature' old' young') :
    g.config = h.config := by
  cases hMinor with
  | promoted hPromotes => exact hPromotes.rest.1
  | stuck hPromotes => exact hPromotes.rest.1

theorem MajorCollects.config
    (hMajor :
      MajorCollects rt bytes h nursery mature old success g
        nursery' mature' old') :
    g.config = h.config := by
  cases hMajor with
  | roomy hPass _ => exact hPass.rest.config
  | tight hPass _ => exact hPass.rest.config

/- Clearing the cards does not touch the settings. -/
theorem config_cleared :
    (h.cleared nursery).config = h.config := by
  unfold cleared
  split <;> rfl

/- A whole collection keeps the settings and the place. -/
theorem Collects.samePlace
    (hStandard : rt.Standard)
    (hSound : Sound rt h nursery mature old young)
    (hCollects :
      Collects rt bytes h nursery mature old young success g
        nursery' mature' old' young') :
    SamePlace h g := by
  refine ⟨?_, (hCollects.follows hStandard hSound).1.place⟩
  cases hCollects with
  | skipped _ => exact config_cleared
  | minor _ hMinor _ => exact config_cleared.trans hMinor.config
  | major _ hMinor _ hMajor =>
      exact
        config_cleared.trans (hMajor.config.trans hMinor.config)

theorem Allocation.samePlace
    {result : Except AllocationError Nat}
    (hStandard : rt.Standard)
    (hSound : Sound rt h nursery mature old young)
    (hAllocation :
      Allocation rt h nursery mature old young size result g) :
    SamePlace h g := by
  cases hAllocation with
  | bumped _ => exact ⟨rfl, rfl⟩
  | latched _ _ => exact ⟨rfl, rfl⟩
  | collected _ _ hCollects _ =>
      exact
        (hCollects.samePlace hStandard hSound).trans ⟨rfl, rfl⟩
  | pretenured _ _ hCollects _ _ _ =>
      exact
        (hCollects.samePlace hStandard hSound).trans ⟨rfl, rfl⟩
  | exhausted _ _ hCollects _ _ =>
      exact hCollects.samePlace hStandard hSound

/- A new heap is as long as configured. -/
theorem asLongAsConfigured_of_create
    {placement : Placement}
    {registers : Nat}
    {config : HeapConfig}
    (hMapped : placement.Mapped config.maxHeapSize)
    (hMakes : Makes (create placement registers config) h) :
    AsLongAsConfigured h := by
  rcases published_of_create hMapped hMakes {} with
    ⟨new, nursery, mature, hLayOut, -, rfl⟩
  rcases parts_of_layOut hLayOut with
    ⟨mapping, first, layout, cards, table, roots, hValid, -,
      hCarve, hLayout, -, -, -, rfl⟩
  rcases valid_config hValid with ⟨p, q, hBoth, -⟩
  rw [hBoth] at hCarve
  rcases Layout.makes_carve hCarve with ⟨middle, -, -, -, -, rfl⟩
  unfold setExpandable at hLayout
  rcases bind_eq_ok hLayout with ⟨b, -, hSet⟩
  cases hSet
  rfl

end Heap

namespace Program

open Heap

variable {rt : Runtime}
variable {h g : Heap}
variable {nursery mature : Belt}
variable {old young : List Nat}
variable {s : State}
variable {action : Action}
variable {answer : Option Nat}

/- Whatever an action comes to keeps settings and place. -/
theorem Performs.samePlace
    (hStandard : rt.Standard)
    (hSound : Sound rt h nursery mature old young)
    (hPerforms :
      Performs rt h nursery mature old young action answer g) :
    SamePlace h g := by
  cases hPerforms with
  | refused hAllocation =>
      exact hAllocation.samePlace hStandard hSound
  | allocated hAllocation =>
      exact
        (hAllocation.samePlace hStandard hSound).trans
          ⟨rfl, rfl⟩
  | stored _ => exact ⟨rfl, rfl⟩
  | put _ => exact ⟨rfl, rfl⟩
  | rooted _ => exact ⟨rfl, rfl⟩
  | rootSet _ _ => exact ⟨rfl, rfl⟩
  | unrooted _ => exact ⟨rfl, rfl⟩
  | registered _ _ => exact ⟨rfl, rfl⟩
  | collected _ hCollects =>
      exact hCollects.samePlace hStandard hSound
  | kept _ => exact ⟨rfl, rfl⟩
  | expanded _ _ hAgain => exact ⟨hAgain.config, hAgain.place⟩
  | reported _ _ hAgain => exact ⟨hAgain.config, hAgain.place⟩

/-
  However often the roles were swapped and the mature belt grew,
  the belts share the whole heap.
-/
theorem Reached.asLongAsConfigured
    (hReached : Reached rt s) :
    s.heap.AsLongAsConfigured := by
  induction hReached with
  | start _ hStarts =>
      rcases hStarts with
        ⟨placement, registers, config, hMapped, hCreate, -⟩
      exact asLongAsConfigured_of_create hMapped hCreate
  | step hReached hStep ih =>
      rcases hStep.performs hReached.standard
          hReached.invariant with
        ⟨nursery, mature, old, young, hSound, hPerforms⟩
      exact
        (hPerforms.samePlace hReached.standard
          hSound).asLongAsConfigured ih
  | report _ _ ih => exact ih

end Program

------------------------------------------------------------
-- Room in the Nursery
------------------------------------------------------------

namespace Heap

variable {rt : Runtime}
variable {h g k : Heap}
variable {nursery mature nursery' mature' : Belt}
variable {old young old' young' : List Nat}
variable {success : Bool}
variable {bytes live size : Nat}

/-
  The one heap whose nursery has less room than was asked for.
  No object of it was reachable, and its belts, which changed
  sides, share an odd number of bytes as evenly as they can: the
  nursery is smaller by the one byte that is missing.
-/
structure OneByteShort
    (rt : Runtime)
    (h g : Heap)
    (bytes : Nat) : Prop where
  unused : LiveBytes rt h 0
  swapped :
    g.nursery.span = h.mature.span ∧
      g.mature.span = h.nursery.span
  odd : h.config.maxHeapSize = 2 * g.nursery.size + 1
  missing : bytes = g.nursery.remaining + 1

/-
  A major pass slides the survivors and leaves the nursery where
  it is, or evacuates them and exchanges the belts.
-/
theorem Pass.exchanges_or_slides
    {found : List Nat}
    {moves : List Collection.Move}
    {start : Nat}
    {table : FirstObjects}
    (hStandard : rt.Standard)
    (hPass :
      Pass rt h g nursery mature nursery' mature' old young
        .major found moves start table)
    (hLive : LiveBytes rt h live) :
    (nursery' = nursery ∧ nursery.size < live) ∨
      (nursery'.span = mature.span ∧
        nursery'.mark = nursery'.start ∧
        mature'.span = nursery.span ∧
        mature'.mark = nursery.start + live) := by
  have hFound :=
    hPass.relocation.survey.liveBytes hStandard
      (show Collection.Kind.major ≠ .minor by decide)
      hPass.survivors
  rw [hLive.unique hFound]
  cases hPass.lands with
  | append hMinor _ => cases hMinor
  | slide _ hChoice _ => exact Or.inl ⟨rfl, hChoice rfl⟩
  | evacuate _ _ => exact Or.inr ⟨rfl, rfl, rfl, rfl⟩

/-
  A major collection that made room kept the nursery, or it has
  exchanged the belts and the request fits behind the live bytes
  in what was the nursery.
-/
theorem MajorCollects.belts_of_success
    (hStandard : rt.Standard)
    (hSound : Sound rt h nursery mature old [])
    (hLive : LiveBytes rt h live)
    (hMajor :
      MajorCollects rt bytes h nursery mature old true g nursery'
        mature' old') :
    nursery'.remaining = nursery.remaining ∨
      (nursery'.span = mature.span ∧
        nursery'.mark = nursery'.start ∧
        mature'.span = nursery.span ∧
        bytes ≤ nursery.size - live) := by
  have hCounted := hSound.counted hStandard countMajor
  have hBegun := hCounted.liveBytes hStandard hLive
  generalize hTrue : true = success at hMajor
  cases hMajor with
  | tight _ _ => cases hTrue
  | roomy hPass hRoom =>
      rcases hPass.exchanges_or_slides hStandard hBegun with
        ⟨rfl, -⟩ | ⟨hBelt, hEmpty, hOther, hMark⟩
      · exact Or.inl rfl
      · refine Or.inr ⟨hBelt, hEmpty, hOther, ?_⟩
        have hStop : mature'.stop = nursery.stop :=
          congrArg Span.stop hOther
        change mature'.mark = nursery.start + live at hMark
        unfold Belt.remaining at hRoom
        unfold Belt.size
        omega

/- A nursery without objects is empty. -/
theorem Sound.isEmpty_nursery
    (hSound : Sound rt h nursery mature old []) :
    nursery.isEmpty = true := by
  unfold Belt.isEmpty
  rw [beq_iff_eq]
  exact hSound.youngTiles.start_eq.symm

/-
  A mature belt that is smaller than half of the heap is not half
  full.  So belts that were exchanged are of nearly the same size.
-/
theorem Shape.size_le_of_halfFull
    (hShape : Shape h nursery mature)
    (hLong : AsLongAsConfigured h)
    (hHalf : HeapM.matureIsHalfFull h = true) :
    nursery.size ≤ mature.size + 1 := by
  have hSizes := hShape.size_add_size hLong
  have hMark := hShape.fits.matureMark
  unfold HeapM.matureIsHalfFull at hHalf
  rw [decide_eq_true_eq, hShape.mature_eq] at hHalf
  unfold HeapConfig.usableMemory Belt.used at hHalf
  unfold Belt.size at hSizes ⊢
  omega

/-
  Belts of nearly the same size that were exchanged leave room in
  the nursery, or else nothing was live and one byte is missing.
-/
theorem room_or_oneByteShort
    (hBefore : Shape h nursery mature)
    (hAfter : Shape g nursery' mature')
    (hLong : AsLongAsConfigured h)
    (hLive : LiveBytes rt h live)
    (hEven : nursery.size ≤ mature.size + 1)
    (hBelt : nursery'.span = mature.span)
    (hMark : nursery'.mark = nursery'.start)
    (hOther : mature'.span = nursery.span)
    (hRoom : bytes ≤ nursery.size - live) :
    bytes ≤ nursery'.remaining ∨ OneByteShort rt h g bytes := by
  have hSizes := hBefore.size_add_size hLong
  have hSize : nursery'.size = mature.size :=
    Belt.size_of_span hBelt
  have hEmpty : nursery'.remaining = nursery'.size := by
    unfold Belt.remaining Belt.size
    rw [hMark]
  by_cases hEnough : bytes ≤ nursery'.remaining
  · exact Or.inl hEnough
  · right
    have hNone : live = 0 := by omega
    subst hNone
    refine ⟨hLive, ⟨?_, ?_⟩, ?_, ?_⟩
    · rw [hAfter.nursery_eq, hBefore.mature_eq]
      exact hBelt
    · rw [hAfter.mature_eq, hBefore.nursery_eq]
      exact hOther
    · rw [hAfter.nursery_eq]
      omega
    · rw [hAfter.nursery_eq]
      omega

/-
  A collection that answers that there is room empties the
  nursery, which has it but for the one exception.
-/
theorem Collects.vacates
    (hStandard : rt.Standard)
    (hSound : Sound rt h nursery mature old young)
    (hLong : AsLongAsConfigured h)
    (hCollects :
      Collects rt bytes h nursery mature old young true g
        nursery' mature' old' young') :
    nursery'.isEmpty = true ∧
      (bytes ≤ nursery'.remaining ∨
        OneByteShort rt h g bytes) := by
  have hAfter := (hCollects.follows hStandard hSound).1.sound
  rcases hSound.exists_liveBytes hStandard with ⟨live, hLive⟩
  generalize hTrue : true = success at hCollects
  cases hCollects with
  | skipped _ => cases hTrue
  | minor _ hMinor _ =>
      subst hTrue
      rcases hMinor.of_success with ⟨rfl, -, hRoom⟩
      exact ⟨hAfter.isEmpty_nursery, Or.inl hRoom⟩
  | @major _ k _ _ _ _ _ _ _ _ hMinor hHalf hMajor =>
      subst hTrue
      have hFirst := (hMinor.follows hStandard hSound).1
      have hKept : SamePlace h k :=
        ⟨hMinor.config, hFirst.place⟩
      rcases hMinor.belts_of_success hStandard hSound hLive with
        ⟨hFits, hNursery, hMature, -⟩
      have hEven :=
        hFirst.sound.shape.size_le_of_halfFull
          (hKept.asLongAsConfigured hLong) hHalf
      rw [Belt.size_of_span hNursery,
        Belt.size_of_span hMature] at hEven
      refine ⟨hAfter.isEmpty_nursery, ?_⟩
      rcases hMajor.belts_of_success hStandard hFirst.sound
          (hFirst.liveBytes hStandard hLive) with
        hSame | ⟨hBelt, hMark, hOther, hRoom⟩
      · left
        rw [hSame]
        exact hMinor.of_success.2.2
      · rw [Belt.size_of_span hNursery] at hRoom
        exact
          room_or_oneByteShort hSound.shape hAfter.shape hLong
            hLive hEven (hBelt.trans hMature) hMark
            (hOther.trans hNursery) hRoom

end Heap

------------------------------------------------------------
-- Collections of Programs
------------------------------------------------------------

namespace Program

open Heap

variable {rt : Runtime}
variable {s : State}

/-
  After a program was told that a collection made room, the
  nursery is empty.  It has as much room as was asked for, or it
  lacks one byte: then nothing was reachable, the belts share an
  odd number of bytes and they changed sides.
-/
theorem collection_vacates_nursery
    (hReached : Reached rt s)
    {bytes : Nat}
    {t : Logged HeapRun}
    (hRun : HeapM.collect rt bytes s.run = (.ok true, t)) :
    t.state.heap.nursery.isEmpty = true ∧
      (bytes ≤ t.state.heap.nursery.remaining ∨
        OneByteShort rt s.heap t.state.heap bytes) := by
  have hStandard := hReached.standard
  rcases hReached.invariant with
    ⟨nursery, mature, old, young, hSound, -⟩
  rcases HeapM.yields_collects bytes hStandard hSound with
    ⟨success, g, nursery', mature', old', young', hYields,
      hCollects⟩
  rcases (HeapM.yields_collect hYields).unique hRun with
    ⟨hSuccess, rfl, -⟩
  cases hSuccess
  have hAfter := (hCollects.follows hStandard hSound).1.sound
  rw [hAfter.shape.nursery_eq]
  exact
    hCollects.vacates hStandard hSound
      hReached.asLongAsConfigured

/-
  A collection of a heap with garbage in its mature belt makes
  room.
-/
theorem collection_vacates_nursery_littered :
    ∃ t,
      HeapM.collect {} 10000 halfLittered.run = (.ok true, t) ∧
        t.state.heap.nursery.isEmpty = true ∧
        (10000 ≤ t.state.heap.nursery.remaining ∨
          OneByteShort {} halfLittered.heap t.state.heap
            10000) := by
  have hRun :
      (HeapM.collect {} 10000 halfLittered.run).1 =
        .ok true := by
    decide +kernel
  cases hCase : HeapM.collect {} 10000 halfLittered.run with
  | mk result t =>
      rw [hCase] at hRun
      dsimp only at hRun
      subst hRun
      exact
        ⟨t, rfl,
          collection_vacates_nursery reached_halfLittered hCase⟩

end Program

------------------------------------------------------------
-- Exchanged Belts
------------------------------------------------------------

namespace Heap

variable {rt : Runtime}
variable {h g : Heap}
variable {nursery mature nursery' mature' : Belt}
variable {old young old' young' : List Nat}
variable {success : Bool}
variable {bytes live : Nat}

/- With an empty nursery all live bytes are in the mature belt. -/
theorem Sound.liveBytes_le_used
    (hStandard : rt.Standard)
    (hSound : Sound rt h nursery mature old [])
    (hLive : LiveBytes rt h live) :
    live ≤ mature.used := by
  have hLe :=
    hLive.le fun o ho => hSound.mem_of_reachable hStandard ho
  have hTiles := Collection.total_tiles hSound.oldTiles
  rw [List.append_nil] at hLe
  unfold Belt.used
  omega

/-
  A major collection exchanges the belts where the live bytes fit
  into the nursery belt.
-/
theorem MajorCollects.exchanges
    (hStandard : rt.Standard)
    (hSound : Sound rt h nursery mature old [])
    (hFree : h.outOfMemory = false)
    (hLive : LiveBytes rt h live)
    (hEvacuable : bytes + live ≤ nursery.size)
    (hMajor :
      MajorCollects rt bytes h nursery mature old success g
        nursery' mature' old') :
    success = true ∧ g.outOfMemory = false ∧
      nursery'.span = mature.span ∧
      nursery'.mark = nursery'.start ∧
      mature'.span = nursery.span ∧
      mature'.mark = nursery.start + live := by
  have hCounted := hSound.counted hStandard countMajor
  have hBegun := hCounted.liveBytes hStandard hLive
  have hNotSlid : ¬ nursery.takeSnapshot.size < live := by
    change ¬ nursery.size < live
    omega
  cases hMajor with
  | roomy hPass _ =>
      refine ⟨rfl, hPass.rest.outOfMemory.trans hFree, ?_⟩
      exact
        (hPass.exchanges_or_slides hStandard
          hBegun).resolve_left fun hSlides =>
            hNotSlid hSlides.2
  | tight hPass hTight =>
      rcases hPass.exchanges_or_slides hStandard hBegun with
        ⟨-, hSlides⟩ | ⟨-, -, hOther, hMark⟩
      · exact absurd hSlides hNotSlid
      · have hStop : mature'.stop = nursery.stop :=
          congrArg Span.stop hOther
        change mature'.mark = nursery.start + live at hMark
        unfold Belt.remaining at hTight
        unfold Belt.size at hEvacuable
        omega

/-
  A collection exchanges the belts, if the mature belt has room
  for the nursery and is half full, with the live bytes in it at
  last.
-/
theorem Collects.exchanges
    (hStandard : rt.Standard)
    (hSound : Sound rt h nursery mature old young)
    (hFree : h.outOfMemory = false)
    (hLive : LiveBytes rt h live)
    (hRoom : nursery.used ≤ mature.remaining)
    (hHalf :
      h.config.usableMemory ≤ mature.used ∨
        h.config.usableMemory ≤ live)
    (hEvacuable : bytes + live ≤ nursery.size)
    (hCollects :
      Collects rt bytes h nursery mature old young success g
        nursery' mature' old' young') :
    success = true ∧ g.outOfMemory = false ∧
      nursery'.span = mature.span ∧
      nursery'.mark = nursery'.start ∧
      mature'.span = nursery.span ∧
      mature'.mark = nursery.start + live := by
  have hFits : bytes ≤ nursery.size := by omega
  cases hCollects with
  | skipped hLatched =>
      exact
        absurd (hFree.symm.trans hLatched) Bool.false_ne_true
  | @minor _ k _ mature₁ _ _ _ hMinor hEnough =>
      rcases hMinor.of_room hStandard hSound hRoom hFits with
        ⟨rfl, hUsed, hConfig⟩
      have hFirst := (hMinor.follows hStandard hSound).1
      rcases hMinor.of_success with ⟨rfl, -, -⟩
      have hPlaced :=
        hFirst.sound.liveBytes_le_used hStandard
          (hFirst.liveBytes hStandard hLive)
      unfold HeapM.matureIsHalfFull at hEnough
      rw [Bool.true_and, decide_eq_false_iff_not, hConfig,
        hFirst.sound.shape.mature_eq] at hEnough
      omega
  | major _ hMinor _ hMajor =>
      have hFirst := (hMinor.follows hStandard hSound).1
      rcases hMinor.belts_of_success hStandard hSound hLive with
        ⟨-, hNursery, hMature, -⟩
      have hStart := congrArg Span.start hNursery
      rw [← Belt.size_of_span hNursery] at hEvacuable
      rcases hMajor.exchanges hStandard hFirst.sound
          (hMinor.of_success.2.1.trans hFree)
          (hFirst.liveBytes hStandard hLive) hEvacuable with
        ⟨hSuccess, hUsable, hBelt, hEmpty, hOther, hMark⟩
      refine
        ⟨hSuccess, outOfMemory_cleared.trans hUsable,
          hBelt.trans hMature, hEmpty, hOther.trans hNursery, ?_⟩
      rw [hMark]
      exact congrArg (· + live) hStart

end Heap

namespace Program

open Heap

variable {rt : Runtime}
variable {s : State}

/- A register that is null is, and the rest is as it was. -/
theorem writeSlot_register
    {h g : Heap}
    {number object : Nat}
    (hWrite : g = h.writeSlot (.register number) object) :
    g.memory = h.memory ∧ g.nursery = h.nursery ∧
      g.mature = h.mature ∧ g.config = h.config ∧
      g.outOfMemory = h.outOfMemory ∧
      (∀ rt, g.rootSlots rt = h.rootSlots rt) ∧
      (object = 0 → g.readSlot (.register number) = 0) := by
  subst hWrite
  refine ⟨rfl, rfl, rfl, rfl, rfl, fun _ => rfl, ?_⟩
  rintro rfl
  have hNull :
      (h.registers.setIfInBounds number 0).getD number 0 = 0 ∨
        (h.registers.setIfInBounds number 0).getD number 0 ∈
          [] :=
    getD_setIfInBounds (Or.inl rfl) fun hOther => absurd rfl hOther
  exact hNull.resolve_right List.not_mem_nil

/- A runtime that reports a register. -/
def oneRegister : Runtime where
  reports := [.register 0]

theorem standard_oneRegister : oneRegister.Standard := by
  constructor
  · rfl
  · dsimp only [oneRegister]
  · intro a hReport
    cases List.mem_singleton.mp hReport

/- The settings of a heap with an odd number of bytes. -/
def oddConfig : HeapConfig where
  maxHeapSize := 65537
  beltPercentages := [50, 50]
  rootCapacity := 1

/- A new heap with an odd number of bytes. -/
def oddHeap : Heap :=
  match (Heap.create smallPlace 1 oddConfig).run with
  | .ok (.ok h) => h
  | _ => default

/- A program that has not done anything with it yet. -/
def oddStart : State :=
  ⟨{ state := { heap := oddHeap } }, []⟩

/- An object fills the nursery. -/
def oddNew : State :=
  oddStart.after oneRegister (.alloc 32768 0)

/- The register comes to refer to the object. -/
def oddUsed : State :=
  oddNew.after oneRegister (.setRegister 0 65536)

/- A collection promotes the object, and exchanges the belts. -/
def oddMoved : State :=
  oddUsed.after oneRegister (.collect 0)

/- The register does not refer to the object any more. -/
def oddUnused : State :=
  oddMoved.after oneRegister (.setRegister 0 0)

/- The object is allocated. -/
theorem step_oddNew :
    Step oneRegister oddStart (.alloc 32768 0) (some 65536)
      oddNew :=
  step_after
    (show
      Object.bytesFor 0 0 ≤
        HeapM.roundedSize oneRegister 32768 by
      decide)
    (by decide +kernel)

/- The odd run starts. -/
theorem reached_oddStart : Reached oneRegister oddStart :=
  .start standard_oneRegister
    ⟨smallPlace, 1, oddConfig,
      ⟨by decide, by decide, by decide⟩,
      makes_created (by decide +kernel), rfl⟩

/- A register is written. -/
theorem step_oddUsed :
    oddUsed.heap = oddNew.heap.writeSlot (.register 0) 65536 ∧
      Step oneRegister oddNew (.setRegister 0 65536) none
        oddUsed :=
  step_setRegister 0 (.fresh (by decide +kernel))

theorem reached_oddUsed : Reached oneRegister oddUsed :=
  .step (.step reached_oddStart step_oddNew) step_oddUsed.2

/- The register is the only root slot. -/
theorem rootSlots_oddUsed :
    oddUsed.heap.rootSlots oneRegister = [.register 0] := by
  decide +kernel

/- The object takes up half of the heap. -/
theorem liveBytes_oddUsed :
    LiveBytes oneRegister oddUsed.heap 32768 := by
  have hKept : oddUsed.heap.memory = oddNew.heap.memory :=
    (writeSlot_register step_oddUsed.1).1
  have hInvariant := reached_oddStart.invariant
  have hSize : Object.size oddUsed.heap.memory 65536 = 32768 := by
    rw [hKept]
    exact step_oddNew.size_new standard_oneRegister hInvariant
  rw [← hSize]
  refine
    liveBytes_of_one_root (.register 0) 65536
      standard_oneRegister rootSlots_oddUsed ?_ (by decide) ?_
  · decide +kernel
  · rw [hKept]
    exact
      step_oddNew.refCount_new standard_oneRegister hInvariant

/- The belts before they are exchanged. -/
theorem belts_oddUsed :
    oddUsed.heap.outOfMemory = false ∧
      oddUsed.heap.config.usableMemory = 32768 ∧
      oddUsed.heap.nursery =
        ⟨0, 65536, 98304, 98304, 65536, false⟩ ∧
      oddUsed.heap.mature =
        ⟨1, 98304, 131073, 98304, 98304, true⟩ := by
  decide +kernel

/-
  After the collection the mature belt is full, and the nursery
  has one byte more than that.
-/
theorem belts_oddMoved :
    oddMoved.heap.outOfMemory = false ∧
      oddMoved.heap.config.usableMemory = 32768 ∧
      oddMoved.heap.nursery.span = ⟨98304, 131073⟩ ∧
      oddMoved.heap.nursery.isEmpty = true ∧
      oddMoved.heap.mature.span = ⟨65536, 98304⟩ ∧
      oddMoved.heap.mature.mark = 98304 ∧
      oddMoved.heap.rootSlots oneRegister = [.register 0] ∧
      Reached oneRegister oddMoved := by
  rcases reached_oddUsed.invariant with
    ⟨nursery, mature, old, young, hSound, -⟩
  rcases belts_oddUsed with ⟨hFree, hUsable, hNursery, hMature⟩
  rw [hSound.shape.nursery_eq] at hNursery
  rw [hSound.shape.mature_eq] at hMature
  subst hNursery
  subst hMature
  rcases step_collect standard_oneRegister hSound 0 with
    ⟨success, nursery', mature', old', young', hCollects,
      hStep⟩
  have hFollows :=
    (hCollects.follows standard_oneRegister hSound).1
  have hKept :=
    hCollects.samePlace standard_oneRegister hSound
  rcases hCollects.exchanges standard_oneRegister hSound hFree
      liveBytes_oddUsed (by decide) (Or.inr (by rw [hUsable]))
      (by decide) with
    ⟨-, hAfter, hBelt, hEmpty, hOther, hMark⟩
  change oddMoved.heap.outOfMemory = false at hAfter
  unfold oddMoved
  rw [hFollows.sound.shape.nursery_eq,
    hFollows.sound.shape.mature_eq, hKept.config,
    rootSlots_congr hFollows.entries]
  unfold Belt.isEmpty
  rw [beq_iff_eq]
  exact
    ⟨hAfter, hUsable, hBelt, hEmpty, hOther, hMark,
      rootSlots_oddUsed, .step reached_oddUsed hStep⟩

/- At last the register is null. -/
theorem step_oddUnused :
    oddUnused.heap = oddMoved.heap.writeSlot (.register 0) 0 ∧
      Step oneRegister oddMoved (.setRegister 0 0) none
        oddUnused :=
  step_setRegister 0 .null

/- Nothing is reachable once the register is cleared. -/
theorem liveBytes_oddUnused :
    LiveBytes oneRegister oddUnused.heap 0 := by
  rcases belts_oddMoved with ⟨-, -, -, -, -, -, hSlots, -⟩
  rcases writeSlot_register step_oddUnused.1 with
    ⟨-, -, -, -, -, hSame, hNull⟩
  refine liveBytes_of_unrooted fun slot hSlot => ?_
  rw [hSame, hSlots] at hSlot
  rw [List.mem_singleton.mp hSlot]
  exact hNull rfl

/- The odd run ends here. -/
theorem reached_oddUnused : Reached oneRegister oddUnused := by
  rcases belts_oddMoved with ⟨-, -, -, -, -, -, -, hReached⟩
  exact .step hReached step_oddUnused.2

/-
  A collection of this heap answers that there is room, though
  the nursery lacks one byte.
-/
theorem collect_oddUnused :
    ∃ t,
      HeapM.collect oneRegister 32769 oddUnused.run =
          (.ok true, t) ∧
        t.state.heap.nursery.remaining = 32768 := by
  rcases belts_oddMoved with
    ⟨hFree, hUsable, hNursery, hEmpty, hMature, hMark, -, -⟩
  rcases writeSlot_register step_oddUnused.1 with
    ⟨-, hNursery', hMature', hConfig, hLatch, -, -⟩
  rw [← hNursery'] at hNursery hEmpty
  rw [← hMature'] at hMature hMark
  rw [← hConfig] at hUsable
  rw [← hLatch] at hFree
  rcases reached_oddUnused.invariant with
    ⟨nursery, mature, old, young, hSound, -⟩
  rw [hSound.shape.nursery_eq] at hNursery hEmpty
  rw [hSound.shape.mature_eq] at hMature hMark
  have hMarks : nursery.mark = nursery.start := beq_iff_eq.mp hEmpty
  have hStart : nursery.start = 98304 :=
    congrArg Span.start hNursery
  have hStop : nursery.stop = 131073 := congrArg Span.stop hNursery
  have hLow : mature.start = 65536 := congrArg Span.start hMature
  have hHigh : mature.stop = 98304 := congrArg Span.stop hMature
  rcases HeapM.yields_collects 32769 standard_oneRegister hSound
    with
    ⟨success, g, nursery', mature', old', young', hYields,
      hCollects⟩
  have hShape :=
    (hCollects.follows standard_oneRegister hSound).1.sound.shape
  rcases hCollects.exchanges standard_oneRegister hSound hFree
      liveBytes_oddUnused
      (by unfold Belt.used Belt.remaining; omega)
      (Or.inl (by unfold Belt.used; omega))
      (by unfold Belt.size; omega) with
    ⟨rfl, -, hBelt, hEmptied, -, -⟩
  rcases HeapM.yields_collect hYields oddUnused.run rfl with
    ⟨t, hRun, rfl, -⟩
  refine ⟨t, hRun, ?_⟩
  rw [hMature] at hBelt
  rw [hShape.nursery_eq]
  unfold Belt.remaining
  rw [hEmptied]
  exact
    congrArg (fun b : Span => b.stop - b.start) hBelt

/-
  The odd run is told that there is room for one byte more than
  the nursery has.
-/
theorem collection_may_leave_nursery_short :
    Reached oneRegister oddUnused ∧
      ∃ t,
        HeapM.collect oneRegister 32769 oddUnused.run =
            (.ok true, t) ∧
          t.state.heap.nursery.remaining < 32769 := by
  rcases collect_oddUnused with ⟨t, hRun, hRoom⟩
  refine ⟨reached_oddUnused, t, hRun, ?_⟩
  rw [hRoom]
  decide

end Program

end BeltHeap
