import BeltHeap.Proofs.Enduring
import BeltHeap.Proofs.Vacating

/-
  Growing the mature belt is all or nothing.  Collections move
  the role of the mature belt from one belt to the other, and
  whether a belt may grow goes with it.

  Main declarations:
    * `Heap.GrowsAsConfigured`
    * `Program.Reached.growsAsConfigured`
    * `Heap.MayGrow`, `Heap.Grown`
    * `Program.expansion_is_all_or_nothing`
-/

------------------------------------------------------------
-- Belts that May Grow
------------------------------------------------------------

namespace BeltHeap

/- A pair of belts determines both of them. -/
theorem Layout.pair_injective
    {nursery mature nursery' mature' : Belt}
    {heap heap' : Span}
    (hSame :
      pair nursery mature heap = pair nursery' mature' heap') :
    nursery = nursery' ∧ mature = mature' := by
  unfold pair at hSame
  rw [Layout.mk.injEq] at hSame
  rcases hSame with ⟨hBelts, hRoles, -⟩
  have hIndex : nursery.index = nursery'.index :=
    congrArg (·.getD 0 0) hRoles
  rw [hIndex] at hBelts
  split at hBelts
  · exact
      ⟨congrArg (·.getD 0 default) hBelts,
        congrArg (·.getD 1 default) hBelts⟩
  · exact
      ⟨congrArg (·.getD 1 default) hBelts,
        congrArg (·.getD 0 default) hBelts⟩

namespace Heap

/-
  The belt that is mature now may grow if that was configured,
  and the other one may not.
-/
def GrowsAsConfigured (h : Heap) : Prop :=
  ∃ nursery mature,
    h.layout = Layout.pair nursery mature h.layout.heap ∧
      mature.expandable = h.config.matureExpandable ∧
      nursery.expandable = false

/-
  Whether belts may grow went along with their roles, from one
  pair of belts to another one.
-/
structure SameGrowth
    (nursery mature nursery' mature' : Belt) : Prop where
  mature : mature'.expandable = mature.expandable
  nursery :
    nursery.expandable = false → nursery'.expandable = false

variable {rt : Runtime}
variable {h g : Heap}
variable {nursery mature nursery₁ mature₁ : Belt}
variable {nursery' mature' : Belt}
variable {old young old' young' : List Nat}
variable {success : Bool}
variable {bytes size : Nat}

theorem SameGrowth.trans
    (h₁ : SameGrowth nursery mature nursery₁ mature₁)
    (h₂ : SameGrowth nursery₁ mature₁ nursery' mature') :
    SameGrowth nursery mature nursery' mature' :=
  ⟨h₂.mature.trans h₁.mature,
    fun hFixed => h₂.nursery (h₁.nursery hFixed)⟩

/- The belts of a heap that grows as configured do. -/
theorem Shape.grows
    (hShape : Shape h nursery mature)
    (hGrows : h.GrowsAsConfigured) :
    mature.expandable = h.config.matureExpandable ∧
      nursery.expandable = false := by
  rcases hGrows with ⟨n, m, hLayout, hMature, hNursery⟩
  rw [hShape.layout] at hLayout
  rcases Layout.pair_injective hLayout with ⟨rfl, rfl⟩
  exact ⟨hMature, hNursery⟩

/-
  Heaps grow as configured with other belts, if the roles took
  their growth along.
-/
theorem GrowsAsConfigured.move
    (hGrows : h.GrowsAsConfigured)
    (hShape : Shape h nursery mature)
    (hSame : SameGrowth nursery mature nursery' mature')
    (hLayout :
      g.layout = Layout.pair nursery' mature' g.layout.heap)
    (hConfig : g.config = h.config) :
    g.GrowsAsConfigured := by
  rcases hShape.grows hGrows with ⟨hMature, hNursery⟩
  refine ⟨nursery', mature', hLayout, ?_, hSame.nursery hNursery⟩
  rw [hSame.mature, hMature, hConfig]

theorem GrowsAsConfigured.of_eq
    (hGrows : h.GrowsAsConfigured)
    (hLayout : g.layout = h.layout)
    (hConfig : g.config = h.config) :
    g.GrowsAsConfigured := by
  unfold GrowsAsConfigured
  rw [hLayout, hConfig]
  exact hGrows

/- A new heap grows as configured. -/
theorem growsAsConfigured_of_create
    {placement : Placement}
    {registers : Nat}
    {config : HeapConfig}
    (hMapped : placement.Mapped config.maxHeapSize)
    (hMakes : Makes (create placement registers config) h) :
    h.GrowsAsConfigured := by
  rcases published_of_create hMapped hMakes {} with
    ⟨new, nursery, mature, hLayOut, -, rfl⟩
  rcases parts_of_layOut hLayOut with
    ⟨mapping, first, layout, cards, table, roots, hValid, -,
      hCarve, hLayout, -, -, -, rfl⟩
  rcases valid_config hValid with ⟨p, q, hBoth, -⟩
  rw [hBoth] at hCarve
  rcases Layout.makes_carve hCarve with ⟨middle, -, -, -, -, rfl⟩
  cases hLayout
  exact
    ⟨Layout.emptyBelt 0 mapping.start middle false,
      Layout.emptyBelt 1 middle
        (mapping.start + config.maxHeapSize)
        config.matureExpandable,
      rfl, rfl, rfl⟩

------------------------------------------------------------
-- Growing After Collections
------------------------------------------------------------

/- The survivors of a pass land where roles take growth along. -/
theorem Lands.sameGrowth
    {kind : Collection.Kind}
    (hLands :
      Lands kind nursery mature bytes nursery' mature') :
    SameGrowth nursery mature nursery' mature' := by
  cases hLands with
  | append _ _ => exact ⟨rfl, id⟩
  | evacuate _ _ => exact ⟨rfl, fun _ => rfl⟩
  | slide _ _ _ =>
      refine ⟨rfl, fun hFixed => ?_⟩
      split
      · exact hFixed
      · exact hFixed

theorem Promotes.sameGrowth
    {outcome :
      Except Collection.Shortfall Collection.Summary}
    (hPromotes :
      Promotes rt h nursery mature old young outcome g nursery'
        mature' old' young') :
    SameGrowth nursery mature nursery' mature' := by
  cases hPromotes with
  | minor hPass => exact hPass.lands.sameGrowth
  | fullHeap _ hPass => exact hPass.lands.sameGrowth
  | stuck _ _ => exact ⟨rfl, id⟩

theorem MinorCollects.sameGrowth
    (hMinor :
      MinorCollects rt bytes h nursery mature old young success
        g nursery' mature' old' young') :
    SameGrowth nursery mature nursery' mature' := by
  cases hMinor with
  | promoted hPromotes =>
      rcases hPromotes.sameGrowth with ⟨hMature, hNursery⟩
      exact ⟨hMature, hNursery⟩
  | stuck hPromotes =>
      rcases hPromotes.sameGrowth with ⟨hMature, hNursery⟩
      exact ⟨hMature, hNursery⟩

theorem MajorCollects.sameGrowth
    (hMajor :
      MajorCollects rt bytes h nursery mature old success g
        nursery' mature' old') :
    SameGrowth nursery mature nursery' mature' := by
  cases hMajor with
  | roomy hPass _ =>
      rcases hPass.lands.sameGrowth with ⟨hMature, hNursery⟩
      exact ⟨hMature, hNursery⟩
  | tight hPass _ =>
      rcases hPass.lands.sameGrowth with ⟨hMature, hNursery⟩
      exact ⟨hMature, hNursery⟩

theorem Collects.sameGrowth
    (hCollects :
      Collects rt bytes h nursery mature old young success g
        nursery' mature' old' young') :
    SameGrowth nursery mature nursery' mature' := by
  cases hCollects with
  | skipped _ => exact ⟨rfl, id⟩
  | minor _ hMinor _ => exact hMinor.sameGrowth
  | major _ hMinor _ hMajor =>
      exact hMinor.sameGrowth.trans hMajor.sameGrowth

/- After a collection the heap still grows as configured. -/
theorem Collects.growsAsConfigured
    (hStandard : rt.Standard)
    (hSound : Sound rt h nursery mature old young)
    (hGrows : h.GrowsAsConfigured)
    (hCollects :
      Collects rt bytes h nursery mature old young success g
        nursery' mature' old' young') :
    g.GrowsAsConfigured := by
  have hAfter := (hCollects.follows hStandard hSound).1.sound
  exact
    hGrows.move hSound.shape hCollects.sameGrowth
      hAfter.shape.layout
      (hCollects.samePlace hStandard hSound).config

/- Cutting a block off a belt only moves the mark of the belt. -/
theorem GrowsAsConfigured.cut
    {a : Nat}
    (hGrows : h.GrowsAsConfigured)
    (hShape : Shape h nursery mature)
    (hCut : Cut nursery mature size h g a) :
    g.GrowsAsConfigured := by
  cases hCut with
  | nursery _ hHeap =>
      subst hHeap
      have hSame :
          SameGrowth nursery mature
            { nursery with mark := nursery.mark + size }
            mature :=
        ⟨rfl, id⟩
      exact hGrows.move hShape hSame rfl rfl
  | mature _ hHeap =>
      subst hHeap
      have hSame :
          SameGrowth nursery mature nursery
            { mature with mark := mature.mark + size } :=
        ⟨rfl, id⟩
      exact hGrows.move hShape hSame rfl rfl

theorem Allocation.growsAsConfigured
    {result : Except AllocationError Nat}
    (hStandard : rt.Standard)
    (hSound : Sound rt h nursery mature old young)
    (hGrows : h.GrowsAsConfigured)
    (hAllocation :
      Allocation rt h nursery mature old young size result g) :
    g.GrowsAsConfigured := by
  have hCollected :
      ∀ {success k nursery' mature' old' young'},
        Collects rt size h nursery mature old young success k
            nursery' mature' old' young' →
          Shape k nursery' mature' ∧ k.GrowsAsConfigured :=
    fun hCollects =>
      ⟨(hCollects.follows hStandard hSound).1.sound.shape,
        hCollects.growsAsConfigured hStandard hSound hGrows⟩
  cases hAllocation with
  | bumped hRoom =>
      exact hGrows.cut hSound.shape (.nursery hRoom rfl)
  | latched _ _ => exact hGrows
  | collected _ _ hCollects hRoom =>
      rcases hCollected hCollects with ⟨hShape, hAfter⟩
      exact hAfter.cut hShape (.nursery hRoom rfl)
  | pretenured _ _ hCollects _ _ hRoom =>
      rcases hCollected hCollects with ⟨hShape, hAfter⟩
      exact hAfter.cut hShape (.mature hRoom rfl)
  | exhausted _ _ hCollects _ _ => exact (hCollected hCollects).2

------------------------------------------------------------
-- Growing into the Belt Above
------------------------------------------------------------

/-
  When the mature belt grows by some bytes: it is expandable, the
  bytes make up pages, and the belt right above it is empty and
  keeps a page.
-/
structure MayGrow
    (h : Heap)
    (bytes : Nat) : Prop where
  expandable : h.mature.expandable = true
  positive : 0 < bytes
  pages : bytes % Word.pageBytes = 0
  above :
    ∃ belt ∈ h.layout.belts,
      belt.start = h.mature.stop ∧ belt.isEmpty = true ∧
        bytes + Word.pageBytes ≤ belt.size

/-
  What a heap comes to whose mature belt grew by some bytes.  The
  boundary below the nursery moved, the bytes gained are zero,
  the heap may be collected again and its regions were published
  once more.  All else is as it was.
-/
structure Grown
    (h : Heap)
    (bytes : Nat)
    (g : Heap) : Prop where
  mature :
    g.mature = { h.mature with stop := h.mature.stop + bytes }
  nursery :
    g.nursery =
      { h.nursery with
        start := h.nursery.start + bytes
        mark := h.nursery.mark + bytes
        snapshot := h.nursery.start + bytes }
  roles : g.layout.roles = h.layout.roles
  objects :
    ∀ old young, g.ObjectsAre old young ↔ h.ObjectsAre old young
  cards : g.cards = h.cards
  firstObjects : g.firstObjects = h.firstObjects
  epochs : g.epochs = h.epochs
  zero :
    ∀ a, h.mature.stop ≤ a → a < h.mature.stop + bytes →
      g.memory.byte a = 0
  usable : g.outOfMemory = false
  published : Republished h g g.nursery g.mature

/- Only the nursery can be right above the mature belt. -/
theorem Shape.mayGrow_iff
    (hShape : Shape h nursery mature) :
    h.MayGrow bytes ↔
      mature.expandable = true ∧
        Layout.MayGrow nursery mature h.layout.heap bytes := by
  have hFits := hShape.fits
  have hPlace := hFits.place
  have hNursery := hFits.nurseryMark
  have hMature := hFits.matureMark
  unfold Layout.Adjoin at hPlace
  constructor
  · rintro ⟨hExpandable, hPositive, hPages, belt, hBelt, hMeet,
      hEmpty, hRoom⟩
    rw [hShape.mature_eq] at hExpandable hMeet
    rw [hShape.layout, Layout.mem_belts_pair] at hBelt
    unfold Belt.size at hRoom
    rcases hBelt with rfl | rfl
    · have hAdjoin : Layout.Adjoin mature belt h.layout.heap := by
        unfold Layout.Adjoin
        omega
      exact
        ⟨hExpandable, hAdjoin, hEmpty, hPositive, hPages,
          by omega⟩
    · omega
  · rintro ⟨hExpandable, hAdjoin, hEmpty, hPositive, hPages,
      hRoom⟩
    rw [← hShape.mature_eq] at hExpandable
    refine
      ⟨hExpandable, hPositive, hPages, nursery, ?_, ?_, hEmpty,
        ?_⟩
    · rw [hShape.layout]
      exact Layout.mem_belts_pair.mpr (Or.inl rfl)
    · rw [hShape.mature_eq]
      exact hAdjoin.2.2.2.1.symm
    · unfold Belt.size
      omega

/- The heap after its mature belt grew is such a heap. -/
theorem Sound.grown
    (hSound : Sound rt h nursery mature old young)
    (hGrow :
      Layout.MayGrow nursery mature h.layout.heap bytes) :
    h.Grown bytes (h.grownBy nursery mature bytes) := by
  have hAfter :
      Sound rt (h.grownBy nursery mature bytes) _ _ old young :=
    (HeapM.sameObjects_info _).sound (hSound.expanded hGrow)
  have hAbove := hGrow.above
  have hEmpty := hGrow.empty
  have hRoom := hGrow.room
  unfold Layout.Adjoin at hAbove
  unfold Belt.isEmpty at hEmpty
  rw [beq_iff_eq] at hEmpty
  have hMature := hAfter.shape.mature_eq
  have hNursery := hAfter.shape.nursery_eq
  constructor
  · rw [hMature, hSound.shape.mature_eq]
    rfl
  · rw [hNursery, hSound.shape.nursery_eq, hEmpty,
      ← hAbove.2.2.2.1]
    rfl
  · rw [hSound.shape.layout]
    rfl
  · intro old' young'
    constructor
    · intro hObjects
      rcases hAfter.objectsAre.unique hObjects with ⟨rfl, rfl⟩
      exact hSound.objectsAre
    · intro hObjects
      rcases hSound.objectsAre.unique hObjects with ⟨rfl, rfl⟩
      exact hAfter.objectsAre
  · rfl
  · rfl
  · rfl
  · intro a hLow hHigh
    rw [hSound.shape.mature_eq] at hLow hHigh
    exact hSound.nurseryFree a (by omega) (by omega)
  · rfl
  · rw [hMature, hNursery]
    exact ⟨rfl, rfl, rfl, rfl, rfl, rfl, rfl⟩

end Heap

namespace HeapM

open Heap

variable {rt : Runtime}
variable {h : Heap}
variable {nursery mature : Belt}
variable {old young : List Nat}

/-
  The mature belt grows where it may, and else there is an error
  and the heap is left alone.
-/
theorem yields_grown
    (hSound : Sound rt h nursery mature old young)
    (bytes : Nat) :
    (h.MayGrow bytes ∧
        Yields (expandMature bytes) h (.ok (.ok ()))
          (h.grownBy nursery mature bytes) ∧
        h.Grown bytes (h.grownBy nursery mature bytes)) ∨
      (¬ h.MayGrow bytes ∧
        ∃ e, Yields (expandMature bytes) h (.ok (.error e)) h) := by
  have hShape := hSound.shape
  by_cases hMay : h.MayGrow bytes
  · left
    rcases hShape.mayGrow_iff.mp hMay with
      ⟨hExpandable, hGrow⟩
    exact
      ⟨hMay,
        yields_expandMature_ok hSound hGrow
          (hGrow.grown hShape.fits hExpandable),
        hSound.grown hGrow⟩
  · right
    refine ⟨hMay, ?_⟩
    rcases Layout.grown_pair bytes hShape.fits with
      ⟨e, hError⟩ | ⟨hGrow, -⟩
    · exact ⟨e, yields_expandMature_error hShape hError⟩
    · have hFixed : mature.expandable = false := by
        rw [← Bool.not_eq_true]
        intro hExpandable
        exact hMay (hShape.mayGrow_iff.mpr ⟨hExpandable, hGrow⟩)
      exact
        ⟨_, yields_expandMature_error hShape
          (Layout.grown_of_fixed bytes
            (Layout.belt_mature_pair hShape.fits) hFixed)⟩

end HeapM

------------------------------------------------------------
-- Growing in Runs
------------------------------------------------------------

namespace Program

open Heap

variable {rt : Runtime}
variable {s t : State}
variable {h g : Heap}
variable {nursery mature : Belt}
variable {old young : List Nat}
variable {bytes : Nat}
variable {action : Action}
variable {answer : Option Nat}

/- Growing does not change which belt may grow. -/
theorem growsAsConfigured_grownBy
    (hSound : Sound rt h nursery mature old young)
    (hGrows : h.GrowsAsConfigured) :
    (h.grownBy nursery mature bytes).GrowsAsConfigured := by
  have hSame :
      SameGrowth nursery mature
        (Layout.shrunkNursery nursery (mature.stop + bytes))
        (Layout.grownMature mature bytes) :=
    ⟨rfl, id⟩
  exact hGrows.move hSound.shape hSame rfl rfl

theorem ensures_growsAsConfigured
    (hSound : Sound rt h nursery mature old young)
    (hGrows : h.GrowsAsConfigured)
    (bytes : Nat) :
    HeapM.Ensures (perform rt (.expand bytes)) h fun _ g =>
      g.GrowsAsConfigured := by
  rcases HeapM.yields_grown hSound bytes with
    ⟨-, hYields, -⟩ | ⟨-, e, hYields⟩
  · exact
      HeapM.ensures_of_yields
        (HeapM.yields_bind hYields (HeapM.yields_pure none))
        (growsAsConfigured_grownBy hSound hGrows)
  · exact
      HeapM.ensures_of_yields
        (HeapM.yields_bind hYields (HeapM.yields_pure none))
        hGrows

/- Every step keeps which belt may grow. -/
theorem Step.growsAsConfigured
    (hStandard : rt.Standard)
    (hInvariant : Invariant rt s)
    (hGrows : s.heap.GrowsAsConfigured)
    (hStep : Step rt s action answer t) :
    t.heap.GrowsAsConfigured := by
  rcases hStep.performs hStandard hInvariant with
    ⟨nursery, mature, old, young, hSound, hPerforms⟩
  generalize hAfter : t.heap = g at hPerforms
  cases hPerforms with
  | refused hAllocation =>
      exact
        hAllocation.growsAsConfigured hStandard hSound hGrows
  | allocated hAllocation =>
      exact
        (hAllocation.growsAsConfigured hStandard hSound
          hGrows).of_eq rfl rfl
  | stored _ => exact hGrows.of_eq rfl rfl
  | put _ => exact hGrows.of_eq rfl rfl
  | rooted _ => exact hGrows.of_eq rfl rfl
  | rootSet _ _ => exact hGrows.of_eq rfl rfl
  | unrooted _ => exact hGrows.of_eq rfl rfl
  | registered _ _ => exact hGrows.of_eq rfl rfl
  | collected _ hCollects =>
      exact hCollects.growsAsConfigured hStandard hSound hGrows
  | kept _ => exact hGrows
  | expanded _ _ _ =>
      subst hAfter
      cases hStep with
      | perform _ hRun =>
          exact
            (ensures_growsAsConfigured hSound hGrows _ s.run _
              none rfl hRun).1
  | reported _ hShape hAgain =>
      exact
        hGrows.move hSound.shape ⟨rfl, id⟩ hShape.layout
          hAgain.config

/- In a run the mature belt is the one that may grow, if any. -/
theorem Reached.growsAsConfigured
    (hReached : Reached rt s) :
    s.heap.GrowsAsConfigured := by
  induction hReached with
  | start _ hStarts =>
      rcases hStarts with
        ⟨placement, registers, config, hMapped, hCreate, -⟩
      exact growsAsConfigured_of_create hMapped hCreate
  | step hReached hStep ih =>
      exact
        hStep.growsAsConfigured hReached.standard
          hReached.invariant ih
  | report _ _ ih => exact ih

------------------------------------------------------------
-- A Run that Grows
------------------------------------------------------------

/- The smallest heap again, with a mature belt that may grow. -/
def growingConfig : HeapConfig :=
  { smallConfig with matureExpandable := true }

/- A new heap with that belt.  No belt is above the mature one. -/
def growingHeap : Heap :=
  match (Heap.create smallPlace 1 growingConfig).run with
  | .ok (.ok h) => h
  | _ => default

/- A program that has not done anything with it yet. -/
def growingStart : State :=
  ⟨{ state := { heap := growingHeap } }, []⟩

/- An unreachable object fills half of the mature belt. -/
def growingFull : State :=
  growingStart.after {} (.alloc 33000 0)

/- A major collection exchanges the belts. -/
def growingSwapped : State :=
  growingFull.after {} (.collect 0)

theorem reached_growingSwapped : Reached {} growingSwapped := by
  have hMakes :
      Makes (Heap.create smallPlace 1 growingConfig)
        growingHeap :=
    makes_created (by decide +kernel)
  have hStart : Reached {} growingStart :=
    .start standard_default
      ⟨smallPlace, 1, growingConfig,
        ⟨by decide, by decide, by decide⟩, hMakes, rfl⟩
  have hFull :
      Step {} growingStart (.alloc 33000 0) (some 81920)
        growingFull :=
    step_after
      (show Object.bytesFor 0 0 ≤ HeapM.roundedSize {} 33000 by
        decide)
      (by decide +kernel)
  have hSwapped :
      Step {} growingFull (.collect 0) none growingSwapped :=
    step_after trivial (by decide +kernel)
  exact .step (.step hStart hFull) hSwapped

/- Now the mature belt is the lower one, and may grow by a page. -/
theorem mayGrow_growingSwapped :
    growingSwapped.heap.MayGrow 4096 := by
  have hBelts :
      growingSwapped.heap.mature.expandable = true ∧
        growingSwapped.heap.nursery ∈
          growingSwapped.heap.layout.belts ∧
        growingSwapped.heap.nursery.start =
          growingSwapped.heap.mature.stop ∧
        growingSwapped.heap.nursery.isEmpty = true ∧
        4096 + Word.pageBytes ≤
          growingSwapped.heap.nursery.size := by
    decide +kernel
  rcases hBelts with ⟨hExpandable, hBelt, hAbove⟩
  exact
    ⟨hExpandable, by decide, by decide,
      growingSwapped.heap.nursery, hBelt, hAbove⟩

------------------------------------------------------------
-- All or Nothing
------------------------------------------------------------

/-
  Whatever a program did before, growing the mature belt is all
  or nothing.  It succeeds exactly where the belt may grow, which
  the mature belt alone can, and only if that was configured.
-/
theorem expansion_is_all_or_nothing
    (hReached : Reached rt s)
    (bytes : Nat) :
    ∃ result g,
      HeapM.Yields (HeapM.expandMature bytes) s.heap
          (.ok result) g ∧
        (result = .ok () ↔ s.heap.MayGrow bytes) ∧
        (∀ e, result = .error e → g = s.heap) ∧
        (result = .ok () → s.heap.Grown bytes g) ∧
        g.mature.expandable = g.config.matureExpandable ∧
        g.nursery.expandable = false := by
  rcases hReached.invariant with
    ⟨nursery, mature, old, young, hSound, -⟩
  have hGrows := hReached.growsAsConfigured
  rcases HeapM.yields_grown hSound bytes with
    ⟨hMay, hYields, hGrown⟩ | ⟨hNot, e, hYields⟩
  · refine
      ⟨_, _, hYields, ⟨fun _ => hMay, fun _ => rfl⟩, nofun,
        fun _ => hGrown, ?_⟩
    rw [hGrown.mature, hGrown.nursery, hSound.shape.mature_eq,
      hSound.shape.nursery_eq, hGrown.published.config]
    exact hSound.shape.grows hGrows
  · refine
      ⟨_, _, hYields, ⟨nofun, fun hMay => absurd hMay hNot⟩,
        fun _ _ => rfl, nofun, ?_⟩
    rw [hSound.shape.mature_eq, hSound.shape.nursery_eq]
    exact hSound.shape.grows hGrows

/- The run above grows its mature belt by a page. -/
theorem expansion_is_all_or_nothing_swapped :
    ∃ g,
      HeapM.Yields (HeapM.expandMature 4096)
          growingSwapped.heap (.ok (.ok ())) g ∧
        growingSwapped.heap.Grown 4096 g ∧
        g.mature.expandable = g.config.matureExpandable := by
  rcases expansion_is_all_or_nothing reached_growingSwapped
      4096 with
    ⟨result, g, hYields, hIff, -, hGrown, hMature, -⟩
  have hOk := hIff.mpr mayGrow_growingSwapped
  rw [hOk] at hYields
  exact ⟨g, hYields, hGrown hOk, hMature⟩

end Program

end BeltHeap
