import BeltHeap.Proofs.Allocating
import BeltHeap.Proofs.Creating
import BeltHeap.Proofs.Expanding
import BeltHeap.Proofs.Rooting
import BeltHeap.Proofs.Storing

/-
  Programs that keep to their references: they start from a new
  heap, write the header of every object they allocate, store
  references through the barrier, and use no reference that a
  collection may have made stale.

  Main declarations:
    * `Program.Known`
    * `Program.Action`, `Program.Step`
    * `Program.Reports`
    * `Program.Reached`
    * `Program.Invariant`
    * `Program.Step.invariant`
    * `Program.Reached.invariant`
-/

------------------------------------------------------------
-- Actions
------------------------------------------------------------

namespace BeltHeap

namespace Program

/-
  What a program may refer to: null, objects that it allocated
  since the last collection, whatever the root slots hold, and
  what the fields of such objects refer to.
-/
inductive Known
    (rt : Runtime)
    (h : Heap)
    (fresh : List Nat) : Nat → Prop where
| null : Known rt h fresh 0
| fresh
    {object : Nat}
    (hFresh : object ∈ fresh) :
    Known rt h fresh object
| root
    {s : Slot}
    (hSlot : s ∈ h.rootSlots rt) :
    Known rt h fresh (h.readSlot s)
| field
    {object a : Nat}
    (hObject : Known rt h fresh object)
    (hNull : object ≠ 0)
    (hField : a ∈ rt.fields h.memory object) :
    Known rt h fresh (h.memory.load a)

/-
  What a program may do.  An allocation asks for a number of
  bytes and makes an object with some references of them.
-/
inductive Action where
| alloc (bytes refs : Nat) : Action
| store (source field target : Nat) : Action
| putWord (object word value : Nat) : Action
| addRoot (object : Nat) : Action
| setRoot (handle object : Nat) : Action
| removeRoot (handle : Nat) : Action
| setRegister (number object : Nat) : Action
| collect (bytes : Nat) : Action
| collectOnRequest : Action
| expand (bytes : Nat) : Action
| register (regions : List MemoryRegion) : Action
deriving DecidableEq, Repr

/- Allocate a block, and write the header of an object into it. -/
def allocObject
    (rt : Runtime)
    (bytes refs : Nat) : HeapM (Option Nat) := do
  match ← HeapM.alloc rt bytes with
  | .error _ => pure none
  | .ok object => do
      let size := HeapM.roundedSize rt bytes
      HeapM.update fun h =>
        h.mapMemory (Object.format object size refs)
      pure (some object)

/- Store a payload word of an object. -/
def putWord
    (object word value : Nat) : HeapM Unit :=
  HeapM.update fun h =>
    h.mapMemory fun m => m.store (Object.payload m object word) value

/- Do what an action says.  The answer is the new object, if any. -/
def perform
    (rt : Runtime) : Action → HeapM (Option Nat)
| .alloc bytes refs => allocObject rt bytes refs
| .store source field target => do
    HeapM.writeReference source (Object.fieldOffset field) target
    pure none
| .putWord object word value => do
    putWord object word value
    pure none
| .addRoot object => do
    let _ ← HeapM.addRoot object
    pure none
| .setRoot handle object => do
    HeapM.setRoot handle object
    pure none
| .removeRoot handle => do
    HeapM.removeRoot handle
    pure none
| .setRegister number object => do
    HeapM.setRegister number object
    pure none
| .collect bytes => do
    let _ ← HeapM.collect rt bytes
    pure none
| .collectOnRequest => do
    let _ ← HeapM.collectOnRequest rt
    pure none
| .expand bytes => do
    let _ ← HeapM.expandMature bytes
    pure none
| .register regions => do
    HeapM.registerRegions regions
    pure none

/-
  The actions of a program that keeps to its references: the
  object fits into its block, stores go into fields and payload
  words of known objects, and regions end at addresses.
-/
def Action.Allowed
    (rt : Runtime)
    (h : Heap)
    (fresh : List Nat) : Action → Prop
| .alloc bytes refs =>
    Object.bytesFor refs 0 ≤ HeapM.roundedSize rt bytes
| .store source field target =>
    Known rt h fresh source ∧ source ≠ 0 ∧
      field < Object.refCount h.memory source ∧
      Known rt h fresh target
| .putWord object word _ =>
    Known rt h fresh object ∧ object ≠ 0 ∧
      word < Object.payloadWords h.memory object
| .addRoot object => Known rt h fresh object
| .setRoot _ object => Known rt h fresh object
| .removeRoot _ => True
| .setRegister _ object => Known rt h fresh object
| .collect _ => True
| .collectOnRequest => True
| .expand _ => True
| .register regions =>
    ∀ r ∈ regions, r.start + r.size < Word.limit

------------------------------------------------------------
-- Runs
------------------------------------------------------------

/- A heap in use, with the objects allocated since the last
   collection. -/
structure State where
  run : Logged HeapRun
  fresh : List Nat

/- The heap of a program. -/
def State.heap (s : State) : Heap :=
  s.run.state.heap

/-
  The objects that were allocated since the last collection,
  once an action turned one heap into another.
-/
def freshAfter
    (h g : Heap)
    (fresh : List Nat)
    (answer : Option Nat) : List Nat :=
  answer.toList ++ (if g.epoch = h.epoch then fresh else [])

/- A program starts from a new heap at a place that is mapped. -/
def Starts (s : State) : Prop :=
  ∃ placement registers config,
    placement.Mapped config.maxHeapSize ∧
      Makes (Heap.create placement registers config) s.heap ∧
      s.fresh = []

/- One action that is allowed and does not break off. -/
inductive Step
    (rt : Runtime)
    (s : State)
    (action : Action)
    (answer : Option Nat) : State → Prop where
| perform
    {t : Logged HeapRun}
    (hAllowed : action.Allowed rt s.heap s.fresh)
    (hRun : perform rt action s.run = (.ok answer, t)) :
    Step rt s action answer
      ⟨t, freshAfter s.heap t.state.heap s.fresh answer⟩

/-
  From time to time the runtime reports other slots, which hold
  no more than the program may refer to.
-/
structure Reports
    (rt : Runtime)
    (s : State)
    (rt' : Runtime) : Prop where
  standard : rt'.Standard
  known :
    ∀ slot ∈ s.heap.rootSlots rt',
      Known rt s.heap s.fresh (s.heap.readSlot slot)

/- The states of all runs of all programs. -/
inductive Reached : Runtime → State → Prop where
| start
    {rt : Runtime}
    {s : State}
    (hStandard : rt.Standard)
    (hStarts : Starts s) :
    Reached rt s
| step
    {rt : Runtime}
    {s t : State}
    {action : Action}
    {answer : Option Nat}
    (hReached : Reached rt s)
    (hStep : Step rt s action answer t) :
    Reached rt t
| report
    {rt rt' : Runtime}
    {s : State}
    (hReached : Reached rt s)
    (hReports : Reports rt s rt') :
    Reached rt' s

------------------------------------------------------------
-- The Invariant
------------------------------------------------------------

variable {rt : Runtime}
variable {h g : Heap}
variable {nursery mature nursery' mature' : Belt}
variable {old young old' young' fresh : List Nat}

/- The heap is sound, and the new objects are objects of it. -/
def Holds
    (rt : Runtime)
    (h : Heap)
    (fresh : List Nat) : Prop :=
  ∃ nursery mature old young,
    Heap.Sound rt h nursery mature old young ∧
      ∀ o ∈ fresh, o ∈ old ++ young

/- What holds of every state that a program reaches. -/
def Invariant
    (rt : Runtime)
    (s : State) : Prop :=
  Holds rt s.heap s.fresh

/-
  Whatever a program may refer to is null or one of the objects,
  if that is so for the root slots and the fields of objects.
-/
theorem Known.mem
    {objects : List Nat}
    (hStandard : rt.Standard)
    (hRoots :
      ∀ s ∈ h.rootSlots rt,
        h.readSlot s = 0 ∨ h.readSlot s ∈ objects)
    (hFields :
      ∀ object ∈ objects,
        ∀ a ∈ Object.fields h.memory object,
          h.memory.load a = 0 ∨ h.memory.load a ∈ objects)
    (hFresh : ∀ o ∈ fresh, o ∈ objects)
    {object : Nat}
    (hKnown : Known rt h fresh object) :
    object = 0 ∨ object ∈ objects := by
  induction hKnown with
  | null => exact Or.inl rfl
  | fresh hMem => exact Or.inr (hFresh _ hMem)
  | root hSlot => exact hRoots _ hSlot
  | @field source a _ hNull hField ih =>
      rw [hStandard.fields] at hField
      exact hFields source (ih.resolve_left hNull) a hField

/- Objects stay fresh as long as there is no collection. -/
theorem mem_freshAfter
    {answer : Option Nat}
    (hFresh :
      g.epoch = h.epoch → ∀ o ∈ fresh, o ∈ old ++ young)
    (hAnswer : ∀ a, answer = some a → a ∈ old ++ young) :
    ∀ o ∈ freshAfter h g fresh answer, o ∈ old ++ young := by
  intro o ho
  unfold freshAfter at ho
  rcases List.mem_append.mp ho with hNew | hKept
  · exact hAnswer o (Option.mem_toList.mp hNew)
  · split at hKept
    · exact hFresh ‹_› o hKept
    · cases hKept

/-
  What every action leaves behind: the invariant, and a nursery
  that keeps its mark unless something was allocated in it or
  a collection ran or the nursery was empty.
-/
structure Leaves
    (rt : Runtime)
    (h : Heap)
    (fresh : List Nat)
    (answer : Option Nat)
    (g : Heap) : Prop where
  holds : Holds rt g (freshAfter h g fresh answer)
  mark :
    answer = none → g.epoch = h.epoch →
      h.nursery.isEmpty = false → g.nursery = h.nursery

/- An action that moves no object leaves the invariant. -/
theorem leaves_of_sound
    (hSound : Heap.Sound rt h nursery mature old young)
    (hFresh : ∀ o ∈ fresh, o ∈ old ++ young)
    (hAfter : Heap.Sound rt g nursery' mature' old young)
    (hNursery :
      nursery.isEmpty = false → nursery' = nursery) :
    Leaves rt h fresh none g := by
  constructor
  · exact
      ⟨nursery', mature', old, young, hAfter,
        mem_freshAfter (fun _ => hFresh) nofun⟩
  · intro _ _ hUsed
    rw [hSound.shape.nursery_eq] at hUsed ⊢
    rw [hAfter.shape.nursery_eq]
    exact hNursery hUsed

------------------------------------------------------------
-- Steps
------------------------------------------------------------

/- Allocating an object. -/
theorem ensures_allocObject
    (hStandard : rt.Standard)
    (hSound : Heap.Sound rt h nursery mature old young)
    (hFresh : ∀ o ∈ fresh, o ∈ old ++ young)
    {bytes refs : Nat}
    (hRefs :
      Object.bytesFor refs 0 ≤ HeapM.roundedSize rt bytes) :
    HeapM.Ensures (allocObject rt bytes refs) h
      (Leaves rt h fresh) := by
  have hSize := Object.pos_of_bytesFor_le hRefs
  have hWhole := HeapM.roundedSize_mod hStandard bytes
  unfold allocObject
  refine HeapM.ensures_bind
    (HeapM.ensures_alloc hStandard hSound hSize) ?_
  intro result g hAllots
  cases result with
  | error e =>
      rcases hAllots with
        ⟨nursery', mature', old', young', hSince⟩
      refine
        HeapM.ensures_of_yields (HeapM.yields_pure none)
          ⟨⟨nursery', mature', old', young',
            hSince.follows.sound, ?_⟩, ?_⟩
      · refine mem_freshAfter ?_ nofun
        intro hEpoch
        rcases hSince.same hEpoch with ⟨-, rfl, rfl⟩
        exact hFresh
      · intro _ hEpoch _
        rw [(hSince.same hEpoch).1]
  | ok a =>
      rcases hAllots with
        ⟨k, nursery', mature', old', young', hSince, hCut, -⟩
      have hBlock := hCut.block hSince.follows.sound
      have hBounds := hSince.follows.sound.shape.fits.bounds
      have hInHeap := hBlock.inHeap
      have hFormatted :=
        Object.formatted_format hBlock.zero hRefs (by omega)
      refine
        HeapM.ensures_of_yields
          (HeapM.yields_write (HeapM.yields_pure (some a)))
          ⟨?_, nofun⟩
      have hKept :
          k.epoch = h.epoch → ∀ o ∈ fresh, o ∈ old' ++ young' := by
        intro hEpoch
        rcases hSince.same hEpoch with ⟨-, rfl, rfl⟩
        exact hFresh
      cases hCut with
      | nursery hRoom hHeap =>
          subst hHeap
          refine ⟨_, _, _, _,
            hSince.follows.sound.format_nursery hStandard hRoom
              hWhole hRefs hFormatted, ?_⟩
          refine mem_freshAfter ?_ ?_
          · intro hEpoch o ho
            have hMem := hKept hEpoch o ho
            rw [← List.append_assoc]
            exact List.mem_append_left _ hMem
          · rintro b hb
            cases hb
            simp
      | mature hRoom hHeap =>
          subst hHeap
          refine ⟨_, _, _, _,
            hSince.follows.sound.format_mature hStandard hRoom
              hWhole hRefs hFormatted, ?_⟩
          refine mem_freshAfter ?_ ?_
          · intro hEpoch o ho
            rcases List.mem_append.mp (hKept hEpoch o ho) with
              hOld | hYoung
            · simp [hOld]
            · simp [hYoung]
          · rintro b hb
            cases hb
            simp

/- Collecting garbage. -/
theorem ensures_collect
    (hStandard : rt.Standard)
    (hSound : Heap.Sound rt h nursery mature old young)
    (hFresh : ∀ o ∈ fresh, o ∈ old ++ young)
    (bytes : Nat) :
    HeapM.Ensures (HeapM.collect rt bytes) h fun _ g =>
      Leaves rt h fresh none g := by
  rcases HeapM.yields_collectGarbage bytes hStandard hSound with
    ⟨success, g, nursery', mature', old', young', hRun,
      hFollows, hSame, -⟩
  refine
    HeapM.ensures_of_yields (HeapM.yields_collect hRun)
      ⟨⟨nursery', mature', old', young', hFollows.sound, ?_⟩,
        ?_⟩
  · refine mem_freshAfter ?_ nofun
    intro hEpoch
    rcases hSame hEpoch with ⟨-, rfl, rfl⟩
    exact hFresh
  · intro _ hEpoch _
    rw [hFollows.sound.shape.nursery_eq,
      hSound.shape.nursery_eq]
    exact (hSame hEpoch).1

/- An action that answers nothing is what it ensures. -/
theorem ensures_silent
    {α : Type}
    {work : HeapM α}
    {post : Heap → Prop}
    {last : Option Nat → Heap → Prop}
    (hWork : HeapM.Ensures work h fun _ g => post g)
    (hPost : ∀ g, post g → last none g) :
    HeapM.Ensures
      (do
        let _ ← work
        pure none)
      h last := by
  refine HeapM.ensures_bind hWork fun _ g hg => ?_
  exact
    HeapM.ensures_of_yields (HeapM.yields_pure none)
      (hPost g hg)

/- Every allowed action leaves the invariant. -/
theorem ensures_perform
    (hStandard : rt.Standard)
    (hHolds : Holds rt h fresh)
    {action : Action}
    (hAllowed : action.Allowed rt h fresh) :
    HeapM.Ensures (perform rt action) h (Leaves rt h fresh) := by
  rcases hHolds with
    ⟨nursery, mature, old, young, hSound, hFresh⟩
  have hSame :
      ∀ g, Heap.Sound rt g nursery mature old young →
        Leaves rt h fresh none g :=
    fun g hAfter =>
      leaves_of_sound hSound hFresh hAfter fun _ => rfl
  have hMember :
      ∀ o, Known rt h fresh o → o = 0 ∨ o ∈ old ++ young :=
    fun o ho =>
      ho.mem hStandard hSound.roots hSound.fields hFresh
  cases action with
  | alloc bytes refs =>
      exact ensures_allocObject hStandard hSound hFresh hAllowed
  | store source field target =>
      rcases hAllowed with ⟨hSource, hNull, hField, hTarget⟩
      rcases HeapM.yields_writeReference hStandard hSound
          ((hMember source hSource).resolve_left hNull) hField
          (hMember target hTarget) with
        ⟨cards, hWrite, hAfter⟩
      exact
        ensures_silent
          (HeapM.ensures_of_yields hWrite hAfter) hSame
  | putWord object word value =>
      rcases hAllowed with ⟨hObject, hNull, hWord⟩
      exact
        ensures_silent
          (HeapM.ensures_of_yields (HeapM.yields_update _)
            (hSound.putWord hStandard
              ((hMember object hObject).resolve_left hNull)
              hWord value))
          hSame
  | addRoot object =>
      exact
        ensures_silent
          (HeapM.ensures_addRoot hSound
            (hMember object hAllowed))
          fun g hAfter => hSame g hAfter.1
  | setRoot handle object =>
      exact
        ensures_silent
          (HeapM.ensures_setRoot hSound
            (hMember object hAllowed) handle)
          fun g hAfter => hSame g hAfter.1
  | removeRoot handle =>
      exact
        ensures_silent (HeapM.ensures_removeRoot hSound handle)
          fun g hAfter => hSame g hAfter.1
  | setRegister number object =>
      exact
        ensures_silent
          (HeapM.ensures_setRegister hSound
            (hMember object hAllowed) number)
          hSame
  | collect bytes =>
      exact
        ensures_silent
          (ensures_collect hStandard hSound hFresh bytes)
          fun _ hLeaves => hLeaves
  | collectOnRequest =>
      refine ensures_silent ?_ fun _ hLeaves => hLeaves
      unfold HeapM.collectOnRequest
      refine HeapM.ensures_bind
        (ensures_collect hStandard hSound hFresh 0) ?_
      intro success g hLeaves
      cases success with
      | false =>
          exact
            HeapM.ensures_of_yields (HeapM.yields_pure false)
              hLeaves
      | true =>
          rw [if_pos rfl]
          exact
            HeapM.ensures_of_yields (HeapM.yields_reading _)
              hLeaves
  | expand bytes =>
      rcases HeapM.yields_expandMature hSound bytes with
        ⟨result, g, nursery', mature', hExpand, hAfter, -,
          hNursery⟩
      exact
        ensures_silent
          (HeapM.ensures_of_yields hExpand
            (leaves_of_sound hSound hFresh hAfter hNursery))
          fun _ hLeaves => hLeaves
  | register regions =>
      rcases HeapM.yields_registerRegions hSound hAllowed with
        ⟨g, hRegister, hAfter, -⟩
      exact
        ensures_silent
          (HeapM.ensures_of_yields hRegister hAfter) hSame

------------------------------------------------------------
-- Invariants of Runs
------------------------------------------------------------

variable {s t : State}
variable {action : Action}
variable {answer : Option Nat}

/-
  What a step leaves behind.  No dirty card without an object is
  met on the way.
-/
theorem Step.leaves
    (hStandard : rt.Standard)
    (hInvariant : Invariant rt s)
    (hStep : Step rt s action answer t) :
    Leaves rt s.heap s.fresh answer t.heap ∧
      s.run.log.AddsNoGap t.run.log := by
  cases hStep with
  | perform hAllowed hRun =>
      exact
        ensures_perform hStandard hInvariant hAllowed s.run _
          answer rfl hRun

/- A step preserves the invariant. -/
theorem Step.invariant
    (hStandard : rt.Standard)
    (hInvariant : Invariant rt s)
    (hStep : Step rt s action answer t) :
    Invariant rt t := by
  have hLeaves := (hStep.leaves hStandard hInvariant).1
  cases hStep with
  | perform _ _ => exact hLeaves.holds

/-
  The invariant holds no matter which slots the runtime reports.
-/
theorem Reports.invariant
    {rt' : Runtime}
    (hStandard : rt.Standard)
    (hInvariant : Invariant rt s)
    (hReports : Reports rt s rt') :
    Invariant rt' s := by
  rcases hInvariant with
    ⟨nursery, mature, old, young, hSound, hFresh⟩
  refine
    ⟨nursery, mature, old, young,
      hSound.reported fun slot hSlot => ?_, hFresh⟩
  exact
    (hReports.known slot hSlot).mem hStandard hSound.roots
      hSound.fields hFresh

/- The runtimes of all runs lay out objects in the same way. -/
theorem Reached.standard
    (hReached : Reached rt s) :
    rt.Standard := by
  induction hReached with
  | start hStandard _ => exact hStandard
  | step _ _ ih => exact ih
  | report _ hReports _ => exact hReports.standard

/- The invariant holds of every state that is reached. -/
theorem Reached.invariant
    (hReached : Reached rt s) :
    Invariant rt s := by
  induction hReached with
  | @start rt s hStandard hStarts =>
      rcases hStarts with
        ⟨placement, registers, config, hMapped, hCreate, hFresh⟩
      rcases Heap.sound_of_create hMapped hCreate rt with
        ⟨nursery, mature, hSound⟩
      refine ⟨nursery, mature, [], [], hSound, ?_⟩
      rw [hFresh]
      exact fun _ ho => absurd ho List.not_mem_nil
  | step hReached hStep ih =>
      exact hStep.invariant hReached.standard ih
  | report hReached hReports ih =>
      exact hReports.invariant hReached.standard ih

end Program

end BeltHeap
