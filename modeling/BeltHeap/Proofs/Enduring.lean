import BeltHeap.Proofs.Latching
import BeltHeap.Proofs.Tables

/-
  A heap that ran out of memory stays so until its mature belt
  grows.  Nothing is collected, no object moves, and memory and
  roots change by what the program itself writes.  Allocations go
  on in the nursery as long as there is room, and are refused
  from then on.

  Main declarations:
    * `Heap.Contents`, `Program.Action.write`
    * `Heap.StaysOut`
    * `Program.Performs.staysOut`
    * `Program.GoesOn`, `Program.GoesOn.staysOut`
    * `Program.OutOfMemory`
    * `Program.out_of_memory_endures`
-/

------------------------------------------------------------
-- What a Program Writes
------------------------------------------------------------

namespace BeltHeap

/- The parts of a heap that a program writes itself. -/
structure Heap.Contents where
  memory : Memory
  roots : RootTable
  registers : Array Nat

/- What a program has written into a heap. -/
def Heap.contents (h : Heap) : Contents :=
  ⟨h.memory, h.roots, h.registers⟩

namespace Program

open Heap

/-
  What a program itself writes with an action that answered: the
  header and null references of a new object, a reference or a
  payload word, a root or a register.
-/
def Action.write
    (rt : Runtime)
    (answer : Option Nat) : Action → Contents → Contents
| .alloc bytes refs, c =>
    match answer with
    | some object =>
        { c with
          memory :=
            Object.format object (HeapM.roundedSize rt bytes)
              refs c.memory }
    | none => c
| .store source field target, c =>
    { c with
      memory :=
        c.memory.store (Object.field source field) target }
| .putWord object word value, c =>
    { c with
      memory :=
        c.memory.store (Object.payload c.memory object word)
          value }
| .addRoot object, c =>
    { c with roots := c.roots.joined object }
| .setRoot handle object, c =>
    { c with roots := c.roots.write handle object }
| .removeRoot handle, c =>
    { c with roots := (c.roots.write handle 0).release handle }
| .setRegister number object, c =>
    { c with
      registers := c.registers.setIfInBounds number object }
| .collect _, c => c
| .collectOnRequest, c => c
| .expand _, c => c
| .register _, c => c

/- An action that was done, for what runtime and with what answer. -/
structure Deed where
  rt : Runtime
  action : Action
  answer : Option Nat

/- What the program itself wrote then. -/
def Deed.write (d : Deed) : Contents → Contents :=
  d.action.write d.rt d.answer

/- An action that makes the mature belt grow. -/
def Action.Expands
    (s : State)
    (action : Action) : Prop :=
  ∃ bytes,
    action = .expand bytes ∧
      (HeapM.expandMature bytes s.run).1 = .ok (.ok ())

/-
  A program goes on, without an action that makes the mature belt
  grow.
-/
inductive GoesOn
    (rt : Runtime)
    (s : State) : List Deed → Runtime → State → Prop where
| start : GoesOn rt s [] rt s
| step
    {deeds : List Deed}
    {rt' : Runtime}
    {t u : State}
    {action : Action}
    {answer : Option Nat}
    (hGoesOn : GoesOn rt s deeds rt' t)
    (hStep : Step rt' t action answer u)
    (hNone : ¬ action.Expands t) :
    GoesOn rt s (deeds ++ [⟨rt', action, answer⟩]) rt' u
| report
    {deeds : List Deed}
    {rt' rt'' : Runtime}
    {t : State}
    (hGoesOn : GoesOn rt s deeds rt' t)
    (hReports : Reports rt' t rt'') :
    GoesOn rt s deeds rt'' t

end Program

------------------------------------------------------------
-- Heaps That Stay Out of Memory
------------------------------------------------------------

namespace Heap

/- The objects of a heap, of its mature belt and its nursery. -/
structure ObjectsAre
    (h : Heap)
    (old young : List Nat) : Prop where
  mature : h.MatureObjects old
  nursery :
    Object.Tiles h.memory h.nursery.mark h.nursery.start young

/-
  A heap is still out of memory: it was not collected, the belts
  play the same roles and lie where they did, the mature belt is
  as it was, and every object is where it was and as large, with
  new ones behind those in the nursery.
-/
structure StaysOut (h g : Heap) : Prop where
  latched : g.outOfMemory = true
  epochs : g.epochs = h.epochs
  stats : g.stats = h.stats
  roles : g.layout.roles = h.layout.roles
  mature : g.mature = h.mature
  nursery : g.nursery.span = h.nursery.span
  mark : h.nursery.mark ≤ g.nursery.mark
  objects :
    ∀ old young, h.ObjectsAre old young →
      ∃ new, g.ObjectsAre old (young ++ new) ∧
        ∀ object ∈ old ++ young,
          Object.size g.memory object =
            Object.size h.memory object

variable {rt : Runtime}
variable {h g k : Heap}
variable {nursery mature nursery' mature' : Belt}
variable {old young old' young' : List Nat}
variable {success : Bool}
variable {bytes size live : Nat}

/- The objects of a sound heap are those it is sound with. -/
theorem Sound.objectsAre
    (hSound : Sound rt h nursery mature old young) :
    h.ObjectsAre old young := by
  refine ⟨hSound.matureObjects, ?_⟩
  rw [hSound.shape.nursery_eq]
  exact hSound.youngTiles

theorem ObjectsAre.unique
    (h₁ : h.ObjectsAre old young)
    (h₂ : h.ObjectsAre old' young') :
    old' = old ∧ young' = young :=
  ⟨h₂.mature.unique h₁.mature, h₂.nursery.unique h₁.nursery⟩

theorem StaysOut.trans
    (h₁ : StaysOut h g)
    (h₂ : StaysOut g k) :
    StaysOut h k where
  latched := h₂.latched
  epochs := h₂.epochs.trans h₁.epochs
  stats := h₂.stats.trans h₁.stats
  roles := h₂.roles.trans h₁.roles
  mature := h₂.mature.trans h₁.mature
  nursery := h₂.nursery.trans h₁.nursery
  mark := Nat.le_trans h₁.mark h₂.mark
  objects := by
    intro old young hObjects
    rcases h₁.objects old young hObjects with
      ⟨new, hMid, hFirst⟩
    rcases h₂.objects old _ hMid with ⟨newer, hLast, hSecond⟩
    rw [List.append_assoc] at hLast
    refine ⟨new ++ newer, hLast, fun object hMem => ?_⟩
    have hStill : object ∈ old ++ (young ++ new) := by
      rw [← List.append_assoc]
      exact List.mem_append_left new hMem
    exact (hSecond object hStill).trans (hFirst object hMem)

/- The objects stay where they are if no memory is written. -/
theorem staysOut_of_same
    (hLatched : g.outOfMemory = true)
    (hEpochs : g.epochs = h.epochs)
    (hStats : g.stats = h.stats)
    (hLayout : g.layout = h.layout)
    (hMemory : g.memory = h.memory) :
    StaysOut h g := by
  have hNursery : g.nursery = h.nursery := by
    unfold Heap.nursery beltOf
    rw [hLayout]
  have hMature : g.mature = h.mature := by
    unfold Heap.mature beltOf
    rw [hLayout]
  refine
    ⟨hLatched, hEpochs, hStats, by rw [hLayout], hMature,
      by rw [hNursery], by rw [hNursery], ?_⟩
  intro old young hObjects
  refine ⟨[], ?_, fun object _ => by rw [hMemory]⟩
  rw [List.append_nil]
  refine ⟨?_, ?_⟩
  · have hOld := hObjects.mature
    unfold MatureObjects at hOld ⊢
    rw [hMature, hMemory]
    exact hOld
  · rw [hNursery, hMemory]
    exact hObjects.nursery

theorem Sound.staysOut
    {new : List Nat}
    (hSound : Sound rt h nursery mature old young)
    (hAfter :
      Sound rt g { nursery with mark := nursery.mark + size }
        mature old (young ++ new))
    (hKept :
      Object.Tiles g.memory nursery.mark nursery.start young)
    (hLatched : g.outOfMemory = true)
    (hEpochs : g.epochs = h.epochs)
    (hStats : g.stats = h.stats) :
    StaysOut h g := by
  have hBefore := hSound.shape
  have hShape := hAfter.shape
  refine ⟨hLatched, hEpochs, hStats, ?_, ?_, ?_, ?_, ?_⟩
  · rw [hBefore.layout, hShape.layout]
    rfl
  · rw [hBefore.mature_eq, hShape.mature_eq]
  · rw [hBefore.nursery_eq, hShape.nursery_eq]
    rfl
  · rw [hBefore.nursery_eq, hShape.nursery_eq]
    exact Nat.le_add_right _ _
  · intro old' young' hObjects
    rcases hSound.objectsAre.unique hObjects with ⟨rfl, rfl⟩
    refine ⟨new, hAfter.objectsAre, fun object hMem => ?_⟩
    rcases List.mem_append.mp hMem with hOld | hYoung
    · exact
        hSound.oldTiles.size_unique hAfter.oldTiles object hOld
    · exact hSound.youngTiles.size_unique hKept object hYoung

/- Or with the same ones. -/
theorem Sound.staysOut_kept
    (hSound : Sound rt h nursery mature old young)
    (hAfter : Sound rt g nursery mature old young)
    (hLatched : g.outOfMemory = true)
    (hEpochs : g.epochs = h.epochs)
    (hStats : g.stats = h.stats) :
    StaysOut h g := by
  have hNoNew :
      Sound rt g { nursery with mark := nursery.mark + 0 } mature
        old (young ++ []) := by
    rw [List.append_nil]
    exact hAfter
  exact
    hSound.staysOut hNoNew hAfter.youngTiles hLatched hEpochs
      hStats

/- Clearing the cards touches neither belts nor objects. -/
theorem staysOut_cleared
    (hLatched : h.outOfMemory = true) :
    StaysOut h (h.cleared nursery) ∧
      (h.cleared nursery).contents = h.contents := by
  unfold cleared
  split
  · exact ⟨staysOut_of_same hLatched rfl rfl rfl rfl, rfl⟩
  · exact ⟨staysOut_of_same hLatched rfl rfl rfl rfl, rfl⟩

theorem Republished.staysOut
    (hBefore : Shape h nursery mature)
    (hShape : Shape g nursery mature)
    (hAgain : Republished h g nursery mature)
    (hLatched : g.outOfMemory = true) :
    StaysOut h g ∧ g.contents = h.contents := by
  have hEpochs : g.epochs = h.epochs := by
    unfold Heap.epochs
    rw [hAgain.info]
    rfl
  have hLayout : g.layout = h.layout := by
    rw [hShape.layout, hBefore.layout, hAgain.place]
  refine
    ⟨staysOut_of_same hLatched hEpochs hAgain.stats hLayout
      hAgain.memory, ?_⟩
  unfold contents
  rw [hAgain.memory, hAgain.roots, hAgain.registers]

end Heap

------------------------------------------------------------
-- Steps
------------------------------------------------------------

namespace Program

open Heap

variable {rt rt' : Runtime}
variable {h g : Heap}
variable {nursery mature : Belt}
variable {old young fresh : List Nat}
variable {s t : State}
variable {action : Action}
variable {answer : Option Nat}
variable {deeds : List Deed}

/- An object that is made in the nursery lies behind the others. -/
theorem staysOut_format
    {bytes refs : Nat}
    (hStandard : rt.Standard)
    (hSound : Sound rt h nursery mature old young)
    (hLatched : h.outOfMemory = true)
    (hRefs :
      Object.bytesFor refs 0 ≤ HeapM.roundedSize rt bytes)
    (hRoom :
      nursery.mark + HeapM.roundedSize rt bytes ≤ nursery.stop) :
    StaysOut h
      ((h.cutNursery nursery mature
          (HeapM.roundedSize rt bytes)).mapMemory
        (Object.format nursery.mark (HeapM.roundedSize rt bytes)
          refs)) := by
  have hWhole := HeapM.roundedSize_mod hStandard bytes
  have hCut :
      Cut nursery mature (HeapM.roundedSize rt bytes) h
        (h.cutNursery nursery mature (HeapM.roundedSize rt bytes))
        nursery.mark :=
    .nursery hRoom rfl
  have hFormatted :=
    Object.formatted_format (hCut.block hSound).zero hRefs
      (HeapM.roundedSize_lt hStandard bytes)
  have hAfter :=
    hSound.format_nursery hStandard hRoom hWhole hRefs hFormatted
  exact
    hSound.staysOut hAfter hAfter.youngTiles.of_append_singleton
      hLatched rfl rfl

/-
  Whatever an action comes to in a heap that is out of memory, it
  stays so unless its mature belt grew, and what changes is what
  the program itself writes.
-/
theorem Performs.staysOut
    (hStandard : rt.Standard)
    (hSound : Sound rt h nursery mature old young)
    (hLatched : h.outOfMemory = true)
    (hAllowed : action.Allowed rt h fresh)
    (hNone :
      ∀ bytes, action = .expand bytes → g.outOfMemory = true)
    (hPerforms :
      Performs rt h nursery mature old young action answer g) :
    StaysOut h g ∧
      g.contents = action.write rt answer h.contents := by
  have hNotFree : h.outOfMemory ≠ false := by
    rw [hLatched]
    decide
  have hSame : StaysOut h h :=
    staysOut_of_same hLatched rfl rfl rfl rfl
  cases hPerforms with
  | refused hAllocation =>
      cases hAllocation with
      | latched _ _ => exact ⟨hSame, rfl⟩
      | exhausted _ hFree _ _ _ => exact absurd hFree hNotFree
  | allocated hAllocation =>
      cases hAllocation with
      | bumped hRoom =>
          exact
            ⟨staysOut_format hStandard hSound hLatched hAllowed
              hRoom, rfl⟩
      | collected _ hFree _ _ => exact absurd hFree hNotFree
      | pretenured _ hFree _ _ _ _ => exact absurd hFree hNotFree
  | stored hAfter =>
      exact
        ⟨hSound.staysOut_kept hAfter hLatched rfl rfl, rfl⟩
  | put hAfter =>
      exact
        ⟨hSound.staysOut_kept hAfter hLatched rfl rfl, rfl⟩
  | rooted object =>
      exact ⟨staysOut_of_same hLatched rfl rfl rfl rfl, rfl⟩
  | rootSet handle object =>
      exact ⟨staysOut_of_same hLatched rfl rfl rfl rfl, rfl⟩
  | unrooted handle =>
      exact ⟨staysOut_of_same hLatched rfl rfl rfl rfl, rfl⟩
  | registered number object =>
      exact ⟨staysOut_of_same hLatched rfl rfl rfl rfl, rfl⟩
  | collected hAction hCollects =>
      cases hCollects with
      | skipped _ =>
          rcases hAction with rfl | ⟨rfl, -⟩
          · exact staysOut_cleared hLatched
          · exact staysOut_cleared hLatched
      | minor hFree _ _ => exact absurd hFree hNotFree
      | major hFree _ _ _ => exact absurd hFree hNotFree
  | kept bytes => exact ⟨hSame, rfl⟩
  | expanded hUsable _ _ =>
      have hStill := hNone _ rfl
      exact
        absurd (hUsable.symm.trans hStill) Bool.false_ne_true
  | reported hLatch hShape hAgain =>
      exact
        hAgain.staysOut hSound.shape hShape
          (hLatch.trans hLatched)

theorem Step.staysOut
    (hStandard : rt.Standard)
    (hInvariant : Invariant rt s)
    (hLatched : s.heap.outOfMemory = true)
    (hNone : ¬ action.Expands s)
    (hStep : Step rt s action answer t) :
    StaysOut s.heap t.heap ∧
      t.heap.contents = action.write rt answer s.heap.contents := by
  rcases hStep.performs hStandard hInvariant with
    ⟨nursery, mature, old, young, hSound, hPerforms⟩
  cases hStep with
  | @perform t hAllowed hRun =>
      refine
        hPerforms.staysOut hStandard hSound hLatched hAllowed ?_
      rintro bytes rfl
      rcases HeapM.yields_expandMature hSound bytes with
        ⟨result, g, nursery', mature', hExpand, -, hOutcome, -⟩
      rcases hOutcome with ⟨-, rfl, -, -⟩ | ⟨rfl, -, -⟩
      · have hPerform :
            HeapM.Yields (Program.perform rt (.expand bytes))
              s.heap (.ok none) s.heap :=
          HeapM.yields_bind hExpand (HeapM.yields_pure none)
        have hSame : t.state.heap = s.heap :=
          (hPerform.unique hRun).2.1
        exact (congrArg Heap.outOfMemory hSame).trans hLatched
      · rcases hExpand s.run rfl with ⟨u, hGrown, -⟩
        exact
          absurd ⟨bytes, rfl, congrArg Prod.fst hGrown⟩ hNone

------------------------------------------------------------
-- Runs
------------------------------------------------------------

/- A program that goes on reaches what it reaches. -/
theorem GoesOn.reached
    (hReached : Reached rt s)
    (hGoesOn : GoesOn rt s deeds rt' t) :
    Reached rt' t := by
  induction hGoesOn with
  | start => exact hReached
  | step _ hStep _ ih => exact .step ih hStep
  | report _ hReports ih => exact .report ih hReports

theorem GoesOn.staysOut
    (hReached : Reached rt s)
    (hLatched : s.heap.outOfMemory = true)
    (hGoesOn : GoesOn rt s deeds rt' t) :
    StaysOut s.heap t.heap ∧
      t.heap.contents =
        deeds.foldl (fun c d => d.write c) s.heap.contents := by
  induction hGoesOn with
  | start =>
      exact
        ⟨staysOut_of_same hLatched rfl rfl rfl rfl, rfl⟩
  | step hGoesOn hStep hNone ih =>
      have hMid := hGoesOn.reached hReached
      rcases hStep.staysOut hMid.standard hMid.invariant
          ih.1.latched hNone with
        ⟨hStays, hWrites⟩
      refine ⟨ih.1.trans hStays, ?_⟩
      rw [hWrites, ih.2, List.foldl_append]
      rfl
  | report _ _ ih => exact ih

------------------------------------------------------------
-- Requests
------------------------------------------------------------

end Program

/-
  An allocation in a heap that is out of memory bumps the mark of
  the nursery or is refused, unless the mark overflows.
-/
theorem HeapM.yields_alloc_latched
    {rt : Runtime}
    {h : Heap}
    {bytes : Nat}
    (hLatched : h.outOfMemory = true)
    (hFits :
      h.nursery.mark + roundedSize rt bytes < Word.limit) :
    (h.nursery.mark + roundedSize rt bytes ≤ h.nursery.stop ∧
      Yields (alloc rt bytes) h (.ok (.ok h.nursery.mark))
        (h.setBelt
          { h.nursery with
            mark := h.nursery.mark + roundedSize rt bytes })) ∨
    (h.nursery.stop < h.nursery.mark + roundedSize rt bytes ∧
      Yields (alloc rt bytes) h
        (.ok
          (.error
            (.outOfMemoryLatched (roundedSize rt bytes))))
        h) := by
  have hTry :
      Ends (fun _ => False)
        (allocateIn Role.nursery (roundedSize rt bytes)) h _ :=
    ends_allocateIn Role.nursery (roundedSize rt bytes)
      (Nat.not_le_of_lt hFits)
  rcases hTry.returns (fun _ => id) with
    ⟨a?, g, hAllocate, ⟨hFull, rfl, rfl⟩ | ⟨hRoom, rfl, rfl⟩⟩
  · refine Or.inr ⟨hFull, ?_⟩
    refine yields_bind hAllocate ?_
    refine yields_bind hAllocate ?_
    apply yields_read
    rw [hLatched]
    exact yields_pure _
  · exact
      Or.inl ⟨hRoom, yields_bind hAllocate (yields_pure _)⟩

namespace Program

open Heap

variable {rt rt' : Runtime}
variable {s t : State}
variable {deeds : List Deed}

/-
  What a request for a block comes to in a heap that is out of
  memory.  The block is in the nursery and no part of the mature
  belt, or the heap is left alone.
-/
inductive BumpsOrRefuses
    (rt : Runtime)
    (s : State)
    (bytes : Nat) : Prop where
| bumps
    {t : Logged HeapRun}
    (hRun :
      HeapM.alloc rt bytes s.run =
        (.ok (.ok s.heap.nursery.mark), t))
    (hHeap :
      t.state.heap =
        s.heap.setBelt
          { s.heap.nursery with
            mark :=
              s.heap.nursery.mark + HeapM.roundedSize rt bytes })
    (hRoom :
      s.heap.nursery.mark + HeapM.roundedSize rt bytes ≤
        s.heap.nursery.stop)
    (hApart :
      s.heap.mature.contains s.heap.nursery.mark = false) :
    BumpsOrRefuses rt s bytes
| refuses
    {t : Logged HeapRun}
    (hRun :
      HeapM.alloc rt bytes s.run =
        (.ok
          (.error
            (.outOfMemoryLatched (HeapM.roundedSize rt bytes))),
          t))
    (hHeap : t.state.heap = s.heap)
    (hFull :
      s.heap.nursery.stop <
        s.heap.nursery.mark + HeapM.roundedSize rt bytes) :
    BumpsOrRefuses rt s bytes

/-
  What requests come to in a heap that is out of memory.  Blocks
  may be allocated whose ends are words.
-/
structure OutOfMemory
    (rt : Runtime)
    (s : State) : Prop where
  collects :
    ∀ bytes,
      (HeapM.collectGarbage rt bytes s.run).1 = .ok false ∧
        (HeapM.collect rt bytes s.run).1 = .ok false
  allocates :
    ∀ bytes, bytes + Word.bytes ≤ Word.limit →
      s.heap.nursery.mark + HeapM.roundedSize rt bytes <
          Word.limit →
        BumpsOrRefuses rt s bytes
  expands :
    ∀ bytes, ∃ result t,
      HeapM.expandMature bytes s.run = (.ok result, t) ∧
        (result = .ok () → t.state.heap.outOfMemory = false) ∧
        ∀ e, result = .error e → t.state.heap = s.heap

/- A block in the nursery is no part of the mature belt. -/
theorem bumpsOrRefuses_of_latched
    {nursery mature : Belt}
    {old young : List Nat}
    {bytes : Nat}
    (hStandard : rt.Standard)
    (hSound : Sound rt s.heap nursery mature old young)
    (hLatched : s.heap.outOfMemory = true)
    (hBytes : bytes + Word.bytes ≤ Word.limit)
    (hFits :
      s.heap.nursery.mark + HeapM.roundedSize rt bytes <
        Word.limit) :
    BumpsOrRefuses rt s bytes := by
  have hSize := HeapM.roundedSize_spec hStandard hBytes
  unfold Word.bytes at hSize
  rcases HeapM.yields_alloc_latched hLatched hFits with
    ⟨hRoom, hAlloc⟩ | ⟨hFull, hAlloc⟩
  · rcases hAlloc s.run rfl with ⟨t, hRun, hHeap, -⟩
    refine .bumps hRun hHeap hRoom ?_
    have hBounds := hSound.shape.fits.bounds
    have hMark := hSound.shape.fits.nurseryMark
    rw [hSound.shape.nursery_eq] at hRoom
    rw [Bool.eq_false_iff, hSound.shape.mature_eq,
      hSound.shape.nursery_eq]
    intro hIn
    rw [Belt.contains_iff] at hIn
    omega
  · rcases hAlloc s.run rfl with ⟨t, hRun, hHeap, -⟩
    exact .refuses hRun hHeap hFull

/-
  A heap with the latch set that a program reaches is out of
  memory.
-/
theorem Reached.outOfMemory
    (hReached : Reached rt s)
    (hLatched : s.heap.outOfMemory = true) :
    OutOfMemory rt s := by
  have hStandard := hReached.standard
  rcases hReached.invariant with
    ⟨nursery, mature, old, young, hSound, -⟩
  constructor
  · intro bytes
    have hCollect :
        HeapM.Yields (HeapM.collectGarbage rt bytes) s.heap
          (.ok false) (s.heap.cleared nursery) :=
      HeapM.yields_collectGarbage_latched hSound.shape hLatched
    rcases hCollect s.run rfl with ⟨t, hRun, -⟩
    rcases HeapM.yields_collect hCollect s.run rfl with
      ⟨u, hExecute, -⟩
    exact ⟨congrArg Prod.fst hRun, congrArg Prod.fst hExecute⟩
  · intro bytes hBytes hFits
    exact
      bumpsOrRefuses_of_latched hStandard hSound hLatched hBytes
        hFits
  · intro bytes
    rcases HeapM.yields_expandMature hSound bytes with
      ⟨result, g, nursery', mature', hExpand, -, hOutcome, -⟩
    rcases hExpand s.run rfl with ⟨t, hRun, rfl, -⟩
    refine ⟨result, t, hRun, ?_⟩
    rcases hOutcome with
      ⟨⟨e, rfl⟩, hSame, -⟩ | ⟨rfl, hUsable, -⟩
    · exact ⟨nofun, fun _ _ => hSame⟩
    · exact ⟨fun _ => hUsable, nofun⟩

end Program

end BeltHeap
