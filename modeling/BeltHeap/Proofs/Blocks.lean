import Mathlib.Data.List.Chain
import BeltHeap.Proofs.Running

/-
  The blocks that allocations give out: what is known of one
  block and of the object in it, and how the blocks between two
  collections lie, with a small run that allocates both ways.

  Main declarations:
    * `Program.IsBlockSize`
    * `Program.Allotted`
    * `Program.Step.allotted`
    * `Program.Allocates`
    * `Program.Bumped`
    * `Program.alloc_gives_blocks`
    * `Program.small`
-/

------------------------------------------------------------
-- Blocks
------------------------------------------------------------

namespace BeltHeap

namespace Program

/- The least number of whole words for a request, one at least. -/
def IsBlockSize (bytes size : Nat) : Prop :=
  size % Word.bytes = 0 ∧ max bytes Word.bytes ≤ size ∧
    ∀ n, n % Word.bytes = 0 → max bytes Word.bytes ≤ n →
      size ≤ n

/-
  What is known of a block right after it was allocated: it is
  aligned, lies below the mark of a belt, consists of zeros, and
  touches no object that the program may refer to.  Unless there
  was a collection, only the mark of the nursery was moved.
-/
structure Allotted
    (rt : Runtime)
    (h : Heap)
    (fresh : List Nat)
    (size a : Nat)
    (g : Heap) : Prop where
  aligned : a % Word.bytes = 0
  inBelt :
    ∃ b ∈ g.layout.belts,
      b.start ≤ a ∧ a + size ≤ b.mark ∧ b.mark ≤ b.stop
  zero : ∀ b, a ≤ b → b < a + size → g.memory.byte b = 0
  apart :
    ∀ object, Known rt g (freshAfter h g fresh none) object →
      object ≠ 0 →
        object + Object.size g.memory object ≤ a ∨
          a + size ≤ object
  bumped :
    g.epoch = h.epoch →
      a = h.nursery.mark ∧ a + size ≤ h.nursery.stop ∧
        g = h.setBelt { h.nursery with mark := a + size }

variable {rt : Runtime}
variable {h g : Heap}
variable {nursery mature : Belt}
variable {old young fresh : List Nat}
variable {bytes size a : Nat}

/- Requests are rounded up to whole words. -/
theorem isBlockSize_roundedSize
    (hStandard : rt.Standard)
    (hBytes : bytes + Word.bytes ≤ Word.limit) :
    IsBlockSize bytes (HeapM.roundedSize rt bytes) := by
  rcases HeapM.roundedSize_spec hStandard hBytes with
    ⟨hWhole, hLow, hHigh⟩
  refine ⟨hWhole, hLow, ?_⟩
  intro n hn hLe
  unfold Word.bytes at *
  omega

/- A cut leaves the epochs and the memory alone. -/
theorem kept_of_cut
    (hCut : Heap.Cut nursery mature size h g a) :
    g.epoch = h.epoch ∧ g.memory = h.memory := by
  cases hCut with
  | nursery _ hHeap =>
      subst hHeap
      exact ⟨rfl, rfl⟩
  | mature _ hHeap =>
      subst hHeap
      exact ⟨rfl, rfl⟩

/- Programs can refer to the same objects after a cut. -/
theorem known_of_cut
    (hStandard : rt.Standard)
    (hSound : Heap.Sound rt h nursery mature old young)
    (hCut : Heap.Cut nursery mature size h g a)
    (hFresh : ∀ o ∈ fresh, o ∈ old ++ young)
    {object : Nat}
    (hKnown : Known rt g fresh object) :
    object = 0 ∨ object ∈ old ++ young := by
  refine hKnown.mem hStandard ?_ ?_ hFresh
  · cases hCut with
    | nursery _ hHeap =>
        subst hHeap
        exact hSound.roots
    | mature _ hHeap =>
        subst hHeap
        exact hSound.roots
  · rw [(kept_of_cut hCut).2]
    exact hSound.fields

/- A cut lies below the mark of its belt. -/
theorem belt_of_cut
    (hSound : Heap.Sound rt h nursery mature old young)
    (hCut : Heap.Cut nursery mature size h g a) :
    ∃ b ∈ g.layout.belts,
      b.start ≤ a ∧ a + size ≤ b.mark ∧ b.mark ≤ b.stop := by
  have hNursery := hSound.shape.fits.nurseryMark
  have hMature := hSound.shape.fits.matureMark
  cases hCut with
  | nursery hRoom hHeap =>
      subst hHeap
      exact
        ⟨_, Layout.mem_belts_pair.mpr (Or.inl rfl), hNursery.1,
          Nat.le_refl _, hRoom⟩
  | mature hRoom hHeap =>
      subst hHeap
      exact
        ⟨_, Layout.mem_belts_pair.mpr (Or.inr rfl), hMature.1,
          Nat.le_refl _, hRoom⟩

/- What an allocation allots is a block. -/
theorem allotted_of_allots
    (hStandard : rt.Standard)
    (hSound : Heap.Sound rt h nursery mature old young)
    (hFresh : ∀ o ∈ fresh, o ∈ old ++ young)
    (hAllots : Heap.Allots rt h old young size (.ok a) g) :
    Allotted rt h fresh size a g := by
  rcases hAllots with
    ⟨k, nursery', mature', old', young', hSince, hCut, hBump⟩
  have hAfter := hSince.follows.sound
  have hBlock := hCut.block hAfter
  rcases kept_of_cut hCut with ⟨hEpoch, hMemory⟩
  constructor
  · exact hBlock.aligned
  · exact belt_of_cut hAfter hCut
  · rw [hMemory]
    exact hBlock.zero
  · intro object hKnown hNull
    have hMember : object = 0 ∨ object ∈ old' ++ young' := by
      refine known_of_cut hStandard hAfter hCut ?_ hKnown
      refine mem_freshAfter ?_ nofun
      intro hSame
      rcases hSince.same (hEpoch.symm.trans hSame) with
        ⟨-, rfl, rfl⟩
      exact hFresh
    rw [hMemory]
    exact hBlock.apart object (hMember.resolve_left hNull)
  · intro hSame
    have hNone : k.epoch = h.epoch := hEpoch.symm.trans hSame
    rcases hSince.same hNone with ⟨hHeap, -, -⟩
    rcases hBump hNone with ⟨hStart, hRoom, hCutNursery⟩
    subst hHeap hStart
    have hShape := hAfter.shape
    rw [hShape.nursery_eq]
    refine ⟨rfl, hRoom, ?_⟩
    rw [hCutNursery]
    exact
      (Heap.setBelt_nursery
        (b :=
          { nursery' with mark := nursery'.mark + size })
        hShape.fits hShape.layout rfl).symm

/- An allocation that answers with a block allots it. -/
theorem ensures_allotted
    (hStandard : rt.Standard)
    (hSound : Heap.Sound rt h nursery mature old young)
    (hFresh : ∀ o ∈ fresh, o ∈ old ++ young)
    (hSize : 0 < HeapM.roundedSize rt bytes) :
    HeapM.Ensures (HeapM.alloc rt bytes) h fun result g =>
      ∀ a, result = .ok a →
        Allotted rt h fresh (HeapM.roundedSize rt bytes) a g := by
  refine (HeapM.ensures_alloc hStandard hSound hSize).imp ?_
  rintro result g hAllots a rfl
  exact allotted_of_allots hStandard hSound hFresh hAllots

/- The nursery after its mark was moved up. -/
theorem nursery_of_bumped
    (hSound : Heap.Sound rt h nursery mature old young)
    (hAllotted : Allotted rt h fresh size a g)
    (hEpoch : g.epoch = h.epoch) :
    g.nursery = { h.nursery with mark := a + size } := by
  rcases hAllotted.bumped hEpoch with ⟨hStart, hRoom, hHeap⟩
  have hShape := hSound.shape
  have hMark := hShape.fits.nurseryMark
  rw [hShape.nursery_eq] at hStart hRoom hHeap ⊢
  have hFits :
      Layout.Fits { nursery with mark := a + size } mature
        h.layout.heap :=
    hShape.fits.setNursery rfl rfl rfl ⟨by dsimp only; omega, hRoom⟩
  rw [hHeap,
    Heap.setBelt_nursery
      (b := { nursery with mark := a + size }) hShape.fits
      hShape.layout rfl]
  exact Heap.nursery_of_pair hFits rfl

/- A new object is an allotted block with a header. -/
theorem ensures_newObject
    (hStandard : rt.Standard)
    (hSound : Heap.Sound rt h nursery mature old young)
    (hFresh : ∀ o ∈ fresh, o ∈ old ++ young)
    (hSize : 0 < HeapM.roundedSize rt bytes)
    (refs : Nat) :
    HeapM.Ensures (allocObject rt bytes refs) h fun answer k =>
      ∀ a, answer = some a →
        ∃ g,
          Allotted rt h fresh (HeapM.roundedSize rt bytes) a g ∧
            k =
              g.mapMemory
                (Object.format a (HeapM.roundedSize rt bytes)
                  refs) := by
  unfold allocObject
  refine HeapM.ensures_bind
    (ensures_allotted hStandard hSound hFresh hSize) ?_
  intro result g hAllotted
  cases result with
  | error e =>
      exact
        HeapM.ensures_of_yields (HeapM.yields_pure none) nofun
  | ok b =>
      refine
        HeapM.ensures_of_yields
          (HeapM.yields_write (HeapM.yields_pure (some b))) ?_
      rintro a ⟨⟩
      exact ⟨g, hAllotted b rfl, rfl⟩

variable {s t : State}
variable {refs : Nat}

/-
  A step that allocates an object writes its header into a block
  that was allotted.
-/
theorem Step.allotted
    (hStandard : rt.Standard)
    (hInvariant : Invariant rt s)
    (hStep : Step rt s (.alloc bytes refs) (some a) t) :
    ∃ g,
      0 < HeapM.roundedSize rt bytes ∧
        Allotted rt s.heap s.fresh
          (HeapM.roundedSize rt bytes) a g ∧
        t.heap =
          g.mapMemory
            (Object.format a (HeapM.roundedSize rt bytes)
              refs) ∧
        Object.Formatted g.memory a
          (HeapM.roundedSize rt bytes) refs t.heap.memory := by
  rcases hInvariant with
    ⟨nursery, mature, old, young, hSound, hFresh⟩
  cases hStep with
  | @perform t hRefs hRun =>
      have hSize : 0 < HeapM.roundedSize rt bytes :=
        Object.pos_of_bytesFor_le hRefs
      have hNew :=
        ensures_newObject hStandard hSound hFresh hSize refs
          s.run t (some a) rfl hRun
      rcases hNew.1 a rfl with ⟨g, hAllotted, hHeap⟩
      have hFormatted :=
        Object.formatted_format hAllotted.zero hRefs
          (HeapM.roundedSize_lt hStandard bytes)
      refine ⟨g, hSize, hAllotted, hHeap, ?_⟩
      change Object.Formatted _ _ _ _ t.state.heap.memory
      rw [hHeap]
      exact hFormatted

/- The new object has the references that were asked for. -/
theorem Step.refCount_new
    (hStandard : rt.Standard)
    (hInvariant : Invariant rt s)
    (hStep : Step rt s (.alloc bytes refs) (some a) t) :
    Object.refCount t.heap.memory a = refs := by
  rcases hStep.allotted hStandard hInvariant with
    ⟨g, -, -, -, hFormatted⟩
  exact hFormatted.refCount

/- A new object has the size that was rounded up for it. -/
theorem Step.size_new
    (hStandard : rt.Standard)
    (hInvariant : Invariant rt s)
    (hStep : Step rt s (.alloc bytes refs) (some a) t) :
    Object.size t.heap.memory a = HeapM.roundedSize rt bytes := by
  rcases hStep.allotted hStandard hInvariant with
    ⟨g, -, -, -, hFormatted⟩
  exact hFormatted.size

/-
  Without a collection, objects outside of the block have the
  references that they had.
-/
theorem Step.refCount_kept
    (hStandard : rt.Standard)
    (hInvariant : Invariant rt s)
    (hStep : Step rt s (.alloc bytes refs) (some a) t)
    (hEpoch : t.heap.epoch = s.heap.epoch)
    {object : Nat}
    (hApart :
      object + 16 ≤ a ∨
        a + HeapM.roundedSize rt bytes ≤ object) :
    Object.refCount t.heap.memory object =
      Object.refCount s.heap.memory object := by
  rcases hStep.allotted hStandard hInvariant with
    ⟨g, -, hAllotted, hHeap, hFormatted⟩
  rw [hHeap] at hEpoch
  have hMemory : g.memory = s.heap.memory := by
    rw [(hAllotted.bumped hEpoch).2.2]
    rfl
  rw [← hMemory]
  apply Memory.Matches.load_eq
  intro k hk
  unfold Word.bytes at hk ⊢
  exact hFormatted.outside _ (by omega)

------------------------------------------------------------
-- Blocks Between Collections
------------------------------------------------------------

/-
  What a program does without a collection, with the starts and
  the sizes of the blocks that it allocates, in order.
-/
inductive Allocates
    (rt : Runtime)
    (s : State) :
    List (Nat × Nat) → Runtime → State → Prop where
| none : Allocates rt s [] rt s
| block
    {blocks : List (Nat × Nat)}
    {rt' : Runtime}
    {t u : State}
    {bytes refs a : Nat}
    (hBefore : Allocates rt s blocks rt' t)
    (hStep : Step rt' t (.alloc bytes refs) (some a) u)
    (hEpoch : u.heap.epoch = t.heap.epoch) :
    Allocates rt s
      (blocks ++ [(a, HeapM.roundedSize rt' bytes)]) rt' u
| other
    {blocks : List (Nat × Nat)}
    {rt' : Runtime}
    {t u : State}
    {action : Action}
    (hBefore : Allocates rt s blocks rt' t)
    (hStep : Step rt' t action none u)
    (hEpoch : u.heap.epoch = t.heap.epoch) :
    Allocates rt s blocks rt' u
| report
    {blocks : List (Nat × Nat)}
    {rt' rt'' : Runtime}
    {t : State}
    (hBefore : Allocates rt s blocks rt' t)
    (hReports : Reports rt' t rt'') :
    Allocates rt s blocks rt'' t

/- One block is right behind another one. -/
def Adjoins (b c : Nat × Nat) : Prop :=
  b.1 < c.1 ∧ b.1 + b.2 = c.1

/-
  What holds between two collections: the blocks so far adjoin
  each other, and the mark of the nursery is right behind the
  last one.
-/
structure Bumped
    (rt : Runtime)
    (blocks : List (Nat × Nat))
    (s : State) : Prop where
  standard : rt.Standard
  invariant : Invariant rt s
  chain : blocks.IsChain Adjoins
  last :
    ∀ b ∈ blocks.getLast?,
      s.heap.nursery.start ≤ b.1 ∧ 0 < b.2 ∧
        s.heap.nursery.mark = b.1 + b.2

variable {blocks : List (Nat × Nat)}

/- An allocation without a collection adds a block. -/
theorem Bumped.block
    (hBumped : Bumped rt blocks s)
    (hStep : Step rt s (.alloc bytes refs) (some a) t)
    (hEpoch : t.heap.epoch = s.heap.epoch) :
    Bumped rt (blocks ++ [(a, HeapM.roundedSize rt bytes)]) t := by
  have hStandard := hBumped.standard
  have hAfter := hStep.invariant hStandard hBumped.invariant
  rcases hStep.allotted hStandard hBumped.invariant with
    ⟨g, hSize, hAllotted, hHeap, -⟩
  rcases hBumped.invariant with
    ⟨nursery, mature, old, young, hSound, -⟩
  have hMark := hSound.shape.fits.nurseryMark
  rw [← hSound.shape.nursery_eq] at hMark
  rw [hHeap] at hEpoch
  have hStart := (hAllotted.bumped hEpoch).1
  have hNursery := nursery_of_bumped hSound hAllotted hEpoch
  have hAfterMark :
      t.heap.nursery.start = s.heap.nursery.start ∧
        t.heap.nursery.mark =
          a + HeapM.roundedSize rt bytes := by
    rw [hHeap]
    change g.nursery.start = _ ∧ g.nursery.mark = _
    rw [hNursery]
    exact ⟨rfl, rfl⟩
  refine ⟨hStandard, hAfter, ?_, ?_⟩
  · refine hBumped.chain.append (.singleton _) ?_
    rintro b hb c ⟨⟩
    rcases hBumped.last b hb with ⟨-, hPos, hEnd⟩
    unfold Adjoins
    dsimp only
    omega
  · intro b hb
    rw [List.getLast?_concat] at hb
    cases hb
    dsimp only
    omega

/-
  A step that allocates nothing leaves the blocks, unless it
  collects.
-/
theorem Bumped.other
    (hBumped : Bumped rt blocks s)
    {action : Action}
    (hStep : Step rt s action none t)
    (hEpoch : t.heap.epoch = s.heap.epoch) :
    Bumped rt blocks t := by
  have hStandard := hBumped.standard
  have hLeaves := (hStep.leaves hStandard hBumped.invariant).1
  refine
    ⟨hStandard, hStep.invariant hStandard hBumped.invariant,
      hBumped.chain, ?_⟩
  intro b hb
  rcases hBumped.last b hb with ⟨hStart, hPos, hMark⟩
  have hUsed : s.heap.nursery.isEmpty = false := by
    unfold Belt.isEmpty
    rw [beq_eq_false_iff_ne]
    omega
  rw [hLeaves.mark rfl hEpoch hUsed]
  exact ⟨hStart, hPos, hMark⟩

/- The blocks are the same whatever slots the runtime reports. -/
theorem Bumped.report
    {rt' : Runtime}
    (hBumped : Bumped rt blocks s)
    (hReports : Reports rt s rt') :
    Bumped rt' blocks s :=
  ⟨hReports.standard,
    hReports.invariant hBumped.standard hBumped.invariant,
    hBumped.chain, hBumped.last⟩

theorem Allocates.bumped
    {rt' : Runtime}
    (hReached : Reached rt s)
    (hAllocates : Allocates rt s blocks rt' t) :
    Bumped rt' blocks t := by
  induction hAllocates with
  | none =>
      exact
        ⟨hReached.standard, hReached.invariant, .nil, nofun⟩
  | block _ hStep hEpoch ih => exact ih.block hStep hEpoch
  | other _ hStep hEpoch ih => exact ih.other hStep hEpoch
  | report _ hReports ih => exact ih.report hReports

------------------------------------------------------------
-- Actions as Steps
------------------------------------------------------------

/- A state after an action, whatever the action came to. -/
def State.after
    (rt : Runtime)
    (s : State)
    (action : Action) : State :=
  let r := perform rt action s.run
  ⟨r.2,
    freshAfter s.heap r.2.state.heap s.fresh
      (r.1.toOption.bind id)⟩

/- An allowed action that answers is a step. -/
theorem step_after
    {action : Action}
    {answer : Option Nat}
    (hAllowed : action.Allowed rt s.heap s.fresh)
    (hRun : (perform rt action s.run).1 = .ok answer) :
    Step rt s action answer (s.after rt action) := by
  have hStep :=
    Step.perform (t := (perform rt action s.run).2) hAllowed
      (Prod.ext hRun rfl)
  unfold State.after
  dsimp only
  rw [hRun]
  exact hStep

/- An allowed action that yields a heap is a step to it. -/
theorem step_of_yields
    {action : Action}
    {answer : Option Nat}
    {g : Heap}
    (hAllowed : action.Allowed rt s.heap s.fresh)
    (hYields :
      HeapM.Yields (perform rt action) s.heap (.ok answer) g) :
    (s.after rt action).heap = g ∧
      Step rt s action answer (s.after rt action) := by
  rcases hYields s.run rfl with ⟨t, hRun, hHeap, -⟩
  refine ⟨?_, step_after hAllowed (congrArg Prod.fst hRun)⟩
  unfold State.after State.heap
  rw [hRun]
  exact hHeap

/- A collection is a step to what it comes to. -/
theorem step_collect
    {nursery mature : Belt}
    {old young : List Nat}
    (hStandard : rt.Standard)
    (hSound : Heap.Sound rt s.heap nursery mature old young)
    (bytes : Nat) :
    ∃ success nursery' mature' old' young',
      Heap.Collects rt bytes s.heap nursery mature old young
          success (s.after rt (.collect bytes)).heap
          nursery' mature' old' young' ∧
        Step rt s (.collect bytes) none
          (s.after rt (.collect bytes)) := by
  rcases HeapM.yields_collects bytes hStandard hSound with
    ⟨success, g, nursery', mature', old', young', hYields,
      hCollects⟩
  have hPerform :
      HeapM.Yields (perform rt (.collect bytes)) s.heap
        (.ok none) g :=
    HeapM.yields_bind (HeapM.yields_collect hYields)
      (HeapM.yields_pure _)
  have hAllowed :
      (Action.collect bytes).Allowed rt s.heap s.fresh :=
    trivial
  rcases step_of_yields hAllowed hPerform with ⟨rfl, hStep⟩
  exact
    ⟨success, nursery', mature', old', young', hCollects, hStep⟩

/- Writing a register is a step of the program. -/
theorem step_setRegister
    (number : Nat)
    {object : Nat}
    (hKnown : Known rt s.heap s.fresh object) :
    (s.after rt (.setRegister number object)).heap =
        s.heap.writeSlot (.register number) object ∧
      Step rt s (.setRegister number object) none
        (s.after rt (.setRegister number object)) :=
  step_of_yields hKnown
    (HeapM.yields_bind (HeapM.yields_update _)
      (HeapM.yields_pure _))

------------------------------------------------------------
-- A Small Run
------------------------------------------------------------

/- The settings of the smallest heap with a small nursery. -/
def smallConfig : HeapConfig where
  maxHeapSize := 65536
  beltPercentages := [25, 75]
  rootCapacity := 1

/- Where the smallest heap is. -/
def smallPlace : Placement :=
  ⟨65536, 0, 0⟩

/- The smallest heap, when it is new. -/
def smallHeap : Heap :=
  match (Heap.create smallPlace 1 smallConfig).run with
  | .ok (.ok h) => h
  | _ => default

/- A program that has not done anything yet. -/
def smallStart : State :=
  ⟨{ state := { heap := smallHeap } }, []⟩

/-
  The nursery cannot hold the object that is allocated, so that
  there is a collection and it goes to the mature belt.
-/
def smallOld : State :=
  smallStart.after {} (.alloc 20000 1)

/- Another object is allocated in the nursery. -/
def smallBoth : State :=
  smallOld.after {} (.alloc 24 1)

/- The mature object comes to refer to the new one. -/
def smallLinked : State :=
  smallBoth.after {} (.store 81920 0 65536)

/- At last a root slot comes to refer to the mature object. -/
def small : State :=
  smallLinked.after {} (.addRoot 81920)

/- The small run works with the layout of objects it assumes. -/
theorem standard_default : Runtime.Standard {} := by
  constructor
  · rfl
  · dsimp only
  · exact fun _ => List.not_mem_nil

/- A heap that is created is made. -/
theorem makes_created
    {placement : Placement}
    {registers : Nat}
    {config : HeapConfig}
    (hMade :
      (match (Heap.create placement registers config).run with
        | .ok (.ok _) => true
        | _ => false) = true) :
    Makes (Heap.create placement registers config)
      (match (Heap.create placement registers config).run with
        | .ok (.ok h) => h
        | _ => default) := by
  unfold Makes
  revert hMade
  generalize
    (Heap.create placement registers config).run = made
  intro hMade
  rcases made with fault | (error | h)
  · cases hMade
  · cases hMade
  · rfl

/- The smallest heap is made. -/
theorem makes_small :
    Makes (Heap.create smallPlace 1 smallConfig) smallHeap :=
  makes_created (by decide +kernel)

/- The mature object is allocated. -/
theorem step_smallOld :
    Step {} smallStart (.alloc 20000 1) (some 81920) smallOld :=
  step_after
    (show Object.bytesFor 1 0 ≤ HeapM.roundedSize {} 20000 by
      decide)
    (by decide +kernel)

/- The object in the nursery is allocated. -/
theorem step_smallBoth :
    Step {} smallOld (.alloc 24 1) (some 65536) smallBoth :=
  step_after
    (show Object.bytesFor 1 0 ≤ HeapM.roundedSize {} 24 by
      decide)
    (by decide +kernel)

/- The small run starts from a new heap. -/
theorem starts_small : Starts smallStart :=
  ⟨smallPlace, 1, smallConfig,
    ⟨by decide, by decide, by decide⟩, makes_small, rfl⟩

theorem reached_smallStart : Reached {} smallStart :=
  .start standard_default starts_small

theorem reached_smallOld : Reached {} smallOld :=
  .step reached_smallStart step_smallOld

/- The mature object still has its one field. -/
theorem refCount_smallBoth :
    Object.refCount smallBoth.heap.memory 81920 = 1 := by
  have hOld : Object.refCount smallOld.heap.memory 81920 = 1 :=
    step_smallOld.refCount_new standard_default
      reached_smallStart.invariant
  have hKept :
      Object.refCount smallBoth.heap.memory 81920 =
        Object.refCount smallOld.heap.memory 81920 :=
    step_smallBoth.refCount_kept standard_default
      reached_smallOld.invariant (by decide +kernel)
      (Or.inr (by decide))
  exact hKept.trans hOld

/- The reference to the new object is stored. -/
theorem step_smallLinked :
    Step {} smallBoth (.store 81920 0 65536) none
      smallLinked := by
  refine step_after ⟨.fresh ?_, by decide, ?_, .fresh ?_⟩ ?_
  · decide +kernel
  · rw [refCount_smallBoth]
    decide
  · decide +kernel
  · decide +kernel

/- The mature object is put behind a handle. -/
theorem step_small :
    Step {} smallLinked (.addRoot 81920) none small := by
  refine step_after (Known.fresh ?_) ?_
  · decide +kernel
  · decide +kernel

/- The small run is a run. -/
theorem reached_small : Reached {} small :=
  .step
    (.step (.step reached_smallOld step_smallBoth)
      step_smallLinked)
    step_small

------------------------------------------------------------
-- Allocations of Programs
------------------------------------------------------------

/-
  Whatever a program did before, every block that an allocation
  of less than the limit of words answers with is allotted, and
  the blocks between two collections adjoin each other.
-/
theorem alloc_gives_blocks
    (hReached : Reached rt s) :
    (∀ bytes a t, bytes + Word.bytes ≤ Word.limit →
      HeapM.alloc rt bytes s.run = (.ok (.ok a), t) →
        ∃ size, IsBlockSize bytes size ∧
          Allotted rt s.heap s.fresh size a t.state.heap) ∧
      (∀ bytes, bytes + Word.bytes ≤ Word.limit →
        IsBlockSize bytes (HeapM.roundedSize rt bytes)) ∧
      ∀ blocks rt' t, Allocates rt s blocks rt' t →
        blocks.IsChain Adjoins := by
  have hStandard := hReached.standard
  refine ⟨?_, ?_, ?_⟩
  · intro bytes a t hBytes hRun
    rcases hReached.invariant with
      ⟨nursery, mature, old, young, hSound, hFresh⟩
    have hSpec := HeapM.roundedSize_spec hStandard hBytes
    unfold Word.bytes at hSpec
    rcases
        ensures_allotted hStandard hSound hFresh
          (by omega) s.run t (.ok a) rfl hRun
      with ⟨hAllotted, -⟩
    exact
      ⟨_, isBlockSize_roundedSize hStandard hBytes,
        hAllotted a rfl⟩
  · intro bytes hBytes
    exact isBlockSize_roundedSize hStandard hBytes
  · intro blocks rt' t hAllocates
    exact (hAllocates.bumped hReached).chain

/- The small run has room for one more block. -/
theorem alloc_gives_blocks_small :
    ∃ t, HeapM.alloc {} 24 small.run = (.ok (.ok 65560), t) ∧
      ∃ size, IsBlockSize 24 size ∧
        Allotted {} small.heap small.fresh size 65560
          t.state.heap := by
  have hRun :
      (HeapM.alloc {} 24 small.run).1 = .ok (.ok 65560) := by
    decide +kernel
  cases hCase : HeapM.alloc {} 24 small.run with
  | mk result t =>
      rw [hCase] at hRun
      dsimp only at hRun
      subst hRun
      exact
        ⟨t, rfl,
          (alloc_gives_blocks reached_small).1 24 65560 t
            (by decide) hCase⟩

end Program

end BeltHeap
