import BeltHeap.Heap.Mutating
import BeltHeap.Proofs.Publishing

/-
  The mature belt of a sound heap grows into an empty nursery,
  or nothing changes but what is published.

  Main declarations:
    * `Layout.grown_cases`, `Layout.grown_pair`
    * `Layout.MayGrow.grown`
    * `Heap.Sound.expanded`
    * `HeapM.yields_expandMature`
    * `HeapM.yields_registerRegions`
-/

------------------------------------------------------------
-- Moved Boundaries
------------------------------------------------------------

namespace BeltHeap

namespace Layout

variable {nursery mature : Belt}
variable {heap : Span}
variable {bytes : Nat}

/- The mature belt after it grew. -/
def grownMature
    (mature : Belt)
    (bytes : Nat) : Belt :=
  { mature with stop := mature.stop + bytes }

/- The nursery after its start moved up. -/
def shrunkNursery
    (nursery : Belt)
    (boundary : Nat) : Belt :=
  { nursery with
    start := boundary
    mark := boundary
    snapshot := boundary }

/- When the mature belt may grow by some bytes. -/
structure MayGrow
    (nursery mature : Belt)
    (heap : Span)
    (bytes : Nat) : Prop where
  above : Adjoin mature nursery heap
  empty : nursery.isEmpty = true
  positive : 0 < bytes
  pages : bytes % Word.pageBytes = 0
  room : nursery.start + bytes + Word.pageBytes ≤ nursery.stop

/- The belts still make up the heap after the boundary moved. -/
theorem MayGrow.fits
    (hGrow : MayGrow nursery mature heap bytes)
    (hFits : Fits nursery mature heap) :
    Fits (shrunkNursery nursery (mature.stop + bytes))
      (grownMature mature bytes) heap := by
  have hAbove := hGrow.above
  have hRoom := hGrow.room
  have hPages := hGrow.pages
  have hPage := hFits.nurseryPage
  have hMark := hFits.matureMark
  unfold Adjoin at hAbove
  unfold Word.pageBytes at hPages hPage hRoom
  unfold shrunkNursery grownMature
  constructor
  · right
    unfold Adjoin
    dsimp only
    omega
  · dsimp only
    unfold Word.pageBytes
    omega
  · exact hFits.maturePage
  · dsimp only
    omega
  · dsimp only
    omega
  · exact hFits.start_pos
  · exact hFits.stop_le

/- The boundary moves up between a belt and an empty one. -/
theorem moved_bounds
    {belt above : Belt}
    (hMeet : belt.stop = above.start)
    (hMark : belt.start ≤ belt.mark ∧ belt.mark ≤ belt.stop)
    (hEmpty : above.isEmpty = true)
    (hPositive : 0 < bytes)
    (hRoom : above.start + bytes ≤ above.stop)
    (hLimit : above.stop < Word.limit) :
    Word.add belt.stop bytes = .ok (belt.stop + bytes) ∧
      belt.setBounds belt.start (belt.stop + bytes) =
        .ok (grownMature belt bytes) ∧
      above.setBounds (belt.stop + bytes) above.stop =
        .ok (shrunkNursery above (belt.stop + bytes)) := by
  unfold Belt.isEmpty at hEmpty
  rw [beq_iff_eq] at hEmpty
  refine ⟨?_, ?_, ?_⟩
  · unfold Word.add
    rw [if_pos (by omega)]
  · unfold Belt.setBounds
    rw [if_neg (by omega), if_neg (by omega)]
    rfl
  · unfold Belt.setBounds
    rw [if_neg (by omega), if_pos (by omega)]
    rfl

/- The bounds of both belts are moved. -/
theorem MayGrow.setBounds
    (hGrow : MayGrow nursery mature heap bytes)
    (hFits : Fits nursery mature heap) :
    Word.add mature.stop bytes = .ok (mature.stop + bytes) ∧
      mature.setBounds mature.start (mature.stop + bytes) =
        .ok (grownMature mature bytes) ∧
      nursery.setBounds (mature.stop + bytes) nursery.stop =
        .ok
          (shrunkNursery nursery (mature.stop + bytes)) := by
  have hAbove := hGrow.above
  have hRoom := hGrow.room
  have hBounds := hFits.bounds
  unfold Adjoin at hAbove
  exact
    moved_bounds hAbove.2.2.2.1 hFits.matureMark hGrow.empty
      hGrow.positive (by omega) (by omega)

/-
  A belt of any layout grows if the belt above it is empty and
  keeps a page, and else there is an error.
-/
theorem grown_cases
    {l : Layout}
    {r : Nat}
    {belt : Belt}
    (bytes : Nat)
    (hBelt : l.belt r = .ok belt) :
    (∃ e, (l.grown r bytes).run = .ok (.error e)) ∨
    ∃ above,
      l.belts[belt.index + 1]? = some above ∧
        above.isEmpty = true ∧ 0 < bytes ∧
        bytes % Word.pageBytes = 0 ∧
        above.start + bytes + Word.pageBytes ≤ above.stop ∧
        (l.grown r bytes).run = (do
          let boundary ← Word.add belt.stop bytes
          let belt ← belt.setBounds belt.start boundary
          let above ← above.setBounds boundary above.stop
          pure (.ok (belt, above))) := by
  unfold grown
  rw [hBelt]
  simp only [bind, ExceptT.bind, ExceptT.run, ExceptT.mk, liftM,
    monadLift, MonadLift.monadLift, ExceptT.lift, Functor.map,
    Except.map, Except.bind, ExceptT.bindCont]
  by_cases hExpandable : (!belt.expandable) = true
  · rw [if_pos hExpandable]
    exact Or.inl ⟨_, rfl⟩
  rw [if_neg hExpandable]
  by_cases hBytes :
      (decide (bytes = 0) ||
        !Word.isAligned bytes Word.pageBytes) = true
  · rw [if_pos hBytes]
    exact Or.inl ⟨_, rfl⟩
  rw [if_neg hBytes]
  cases hAbove : l.belts[belt.index + 1]? with
  | none => exact Or.inl ⟨_, rfl⟩
  | some above =>
      dsimp only
      by_cases hUsed : (!above.isEmpty) = true
      · rw [if_pos hUsed]
        exact Or.inl ⟨_, rfl⟩
      rw [if_neg hUsed]
      by_cases hSmall : above.size - Word.pageBytes < bytes
      · rw [if_pos hSmall]
        exact Or.inl ⟨_, rfl⟩
      rw [if_neg hSmall]
      right
      have hAligned :=
        Word.isAligned_two_pow (k := 12) (by decide) bytes
      change
        Word.isAligned bytes Word.pageBytes =
          decide (bytes % Word.pageBytes = 0) at hAligned
      rw [Bool.or_eq_true, hAligned, decide_eq_true_eq] at hBytes
      rw [Bool.not_eq_true', decide_eq_false_iff_not] at hBytes
      rw [Bool.not_eq_true', Bool.not_eq_false] at hUsed
      unfold Belt.size at hSmall
      refine
        ⟨above, rfl, hUsed, by omega, by omega, by omega, ?_⟩
      cases Word.add belt.stop bytes with
      | error f => rfl
      | ok boundary =>
          dsimp only
          cases belt.setBounds belt.start boundary with
          | error f => rfl
          | ok b =>
              dsimp only
              cases above.setBounds boundary above.stop <;> rfl

/- A belt grows into the belt above it, or there is an error. -/
theorem grown_pair
    (bytes : Nat)
    (hFits : Fits nursery mature heap) :
    (∃ e,
      ((pair nursery mature heap).grown Role.mature bytes).run =
        .ok (.error e)) ∨
    (MayGrow nursery mature heap bytes ∧
      ((pair nursery mature heap).grown Role.mature bytes).run =
        .ok
          (.ok
            (grownMature mature bytes,
              shrunkNursery nursery (mature.stop + bytes)))) := by
  refine
    (grown_cases bytes (belt_mature_pair hFits)).imp_right ?_
  rintro
    ⟨above, hAbove, hEmpty, hPositive, hPages, hRoom, hRun⟩
  rcases neighbour_pair hFits hAbove with ⟨rfl, hAdjoin⟩
  have hGrow : MayGrow above mature heap bytes :=
    ⟨hAdjoin, hEmpty, hPositive, hPages, hRoom⟩
  rcases hGrow.setBounds hFits with ⟨hAdd, hMature, hNursery⟩
  refine ⟨hGrow, hRun.trans ?_⟩
  rw [hAdd]
  simp only [bind, Except.bind]
  rw [hMature]
  dsimp only
  rw [hNursery]
  rfl

/- A belt that may not grow does not. -/
theorem grown_of_fixed
    {l : Layout}
    {r : Nat}
    {belt : Belt}
    (bytes : Nat)
    (hBelt : l.belt r = .ok belt)
    (hFixed : belt.expandable = false) :
    (l.grown r bytes).run = .ok (.error (.notExpandable r)) := by
  unfold grown
  rw [hBelt]
  simp only [bind, ExceptT.bind, ExceptT.run, ExceptT.mk, liftM,
    monadLift, MonadLift.monadLift, ExceptT.lift, Functor.map,
    Except.map, Except.bind, ExceptT.bindCont]
  rw [hFixed]
  rfl

/- The nursery is the belt above a mature belt that may grow. -/
theorem MayGrow.neighbour
    (hGrow : MayGrow nursery mature heap bytes) :
    (pair nursery mature heap).belts[mature.index + 1]? =
      some nursery := by
  have hAbove := hGrow.above
  unfold Adjoin at hAbove
  unfold pair
  rw [hAbove.1, hAbove.2.1]
  rfl

/- An expandable belt that may grow does. -/
theorem MayGrow.grown
    (hGrow : MayGrow nursery mature heap bytes)
    (hFits : Fits nursery mature heap)
    (hExpandable : mature.expandable = true) :
    ((pair nursery mature heap).grown Role.mature bytes).run =
      .ok
        (.ok
          (grownMature mature bytes,
            shrunkNursery nursery (mature.stop + bytes))) := by
  rcases hGrow.setBounds hFits with ⟨hAdd, hMature, hNursery⟩
  have hPositive := hGrow.positive
  have hRoom := hGrow.room
  have hPages : Word.isAligned bytes Word.pageBytes = true := by
    have hAligned :=
      Word.isAligned_two_pow (k := 12) (by decide) bytes
    exact hAligned.trans (decide_eq_true hGrow.pages)
  have hEnough : ¬ nursery.size - Word.pageBytes < bytes := by
    unfold Belt.size
    omega
  unfold Layout.grown
  rw [belt_mature_pair hFits]
  simp only [bind, ExceptT.bind, ExceptT.run, ExceptT.mk, liftM,
    monadLift, MonadLift.monadLift, ExceptT.lift, Functor.map,
    Except.map, Except.bind, ExceptT.bindCont]
  rw [hExpandable, hPages, decide_eq_false (by omega),
    hGrow.neighbour]
  dsimp only
  rw [hGrow.empty, if_neg hEnough, hAdd]
  dsimp only
  rw [hMature]
  dsimp only
  rw [hNursery]
  rfl

/-
  Putting back the grown belt and the shrunk nursery makes a
  pair of them.
-/
theorem MayGrow.setBelts
    (hGrow : MayGrow nursery mature heap bytes)
    (hFits : Fits nursery mature heap) :
    ((pair nursery mature heap).setBelt
          (grownMature mature bytes)).setBelt
        (shrunkNursery nursery (mature.stop + bytes)) =
      pair (shrunkNursery nursery (mature.stop + bytes))
        (grownMature mature bytes) heap := by
  rw [pair_setBelt_mature (b := grownMature mature bytes)
    hFits rfl]
  unfold setBelt pair
  have hAbove := hGrow.above
  unfold grownMature shrunkNursery
  simp [hAbove.1, hAbove.2.1]

end Layout

------------------------------------------------------------
-- Sound Heaps
------------------------------------------------------------

namespace Heap

variable {rt : Runtime}
variable {h : Heap}
variable {nursery mature : Belt}
variable {old young : List Nat}
variable {bytes : Nat}

/-
  The heap after its mature belt grew.  It may be collected
  again.
-/
def expanded
    (h : Heap)
    (nursery mature : Belt)
    (bytes : Nat) : Heap :=
  { h with
    layout :=
      Layout.pair
        (Layout.shrunkNursery nursery (mature.stop + bytes))
        (Layout.grownMature mature bytes) h.layout.heap
    outOfMemory := false }

/- The heap after that was published as well. -/
def grownBy
    (h : Heap)
    (nursery mature : Belt)
    (bytes : Nat) : Heap :=
  (h.expanded nursery mature bytes).mapInfo
    (HeapInfo.published
      ((h.expanded nursery mature bytes).regionsOf
        (Layout.shrunkNursery nursery (mature.stop + bytes))
        (Layout.grownMature mature bytes)))

/- A heap stays sound when its mature belt grows. -/
theorem Sound.expanded
    (hSound : Sound rt h nursery mature old young)
    (hGrow :
      Layout.MayGrow nursery mature h.layout.heap bytes) :
    Sound rt (h.expanded nursery mature bytes)
      (Layout.shrunkNursery nursery (mature.stop + bytes))
      (Layout.grownMature mature bytes) old young := by
  have hYoung := hSound.young_eq_nil hGrow.empty
  subst hYoung
  have hShape := hSound.shape
  have hEmpty := hGrow.empty
  have hRoom := hGrow.room
  have hAbove := hGrow.above
  unfold Belt.isEmpty at hEmpty
  rw [beq_iff_eq] at hEmpty
  unfold Layout.Adjoin at hAbove
  constructor
  · exact Shape.of_pair rfl (hGrow.fits hShape.fits)
      hShape.cards hShape.starts hShape.sameCards hShape.regions
  · exact hSound.oldTiles
  · exact Object.Tiles.nil
  · intro a hLow hHigh
    change mature.mark ≤ a at hLow
    change a < mature.stop + bytes at hHigh
    by_cases hBelow : a < mature.stop
    · exact hSound.matureFree a hLow hBelow
    · exact hSound.nurseryFree a (by omega) (by omega)
  · intro a hLow hHigh
    change mature.stop + bytes ≤ a at hLow
    exact hSound.nurseryFree a (by omega) hHigh
  · exact hSound.fields
  · exact hSound.roots
  · intro _ _ _ _ hMem
    exact absurd hMem List.not_mem_nil
  · exact hSound.firsts

end Heap

------------------------------------------------------------
-- Operations
------------------------------------------------------------

namespace HeapM

open Heap

variable {rt : Runtime}
variable {h : Heap}
variable {nursery mature : Belt}
variable {old young : List Nat}

/- The heap is left alone where no belt grows. -/
theorem yields_expandMature_error
    {bytes : Nat}
    {e : ExpansionError}
    (hShape : Shape h nursery mature)
    (hError :
      ((Layout.pair nursery mature h.layout.heap).grown
          Role.mature bytes).run =
        .ok (.error e)) :
    Yields (expandMature bytes) h (.ok (.error e)) h := by
  rw [← hShape.layout] at hError
  have hExpand :
      Yields (h.layout.expand Role.mature bytes) h
        (.ok (.error e)) h :=
    yields_computed hError (yields_pure _)
  unfold expandMature
  apply yields_read
  exact yields_bind hExpand (yields_pure _)

/- Where the mature belt grows the heap is published as well. -/
theorem yields_expandMature_ok
    {bytes : Nat}
    (hSound : Sound rt h nursery mature old young)
    (hGrow :
      Layout.MayGrow nursery mature h.layout.heap bytes)
    (hGrown :
      ((Layout.pair nursery mature h.layout.heap).grown
          Role.mature bytes).run =
        .ok
          (.ok
            (Layout.grownMature mature bytes,
              Layout.shrunkNursery nursery
                (mature.stop + bytes)))) :
    Yields (expandMature bytes) h (.ok (.ok ()))
      (h.grownBy nursery mature bytes) := by
  have hLayout := hSound.shape.layout
  have hExpand :
      Yields (h.layout.expand Role.mature bytes) h
        (.ok
          (.ok
            (Layout.pair
              (Layout.shrunkNursery nursery
                (mature.stop + bytes))
              (Layout.grownMature mature bytes)
              h.layout.heap))) h := by
    rw [← hGrow.setBelts hSound.shape.fits, ← hLayout]
    rw [← hLayout] at hGrown
    refine yields_computed hGrown ?_
    exact yields_report rfl (yields_pure _)
  unfold expandMature
  apply yields_read
  refine yields_bind hExpand ?_
  apply yields_write
  apply yields_write
  exact
    yields_bind
      (yields_publishRegions (hSound.expanded hGrow).shape)
      (yields_pure _)

/-
  The mature belt grows, the heap is published and may be
  collected again, or the heap is left alone.  The nursery stays
  where it is unless it is empty.
-/
theorem yields_expandMature
    (hSound : Sound rt h nursery mature old young)
    (bytes : Nat) :
    ∃ result g nursery' mature',
      Yields (expandMature bytes) h (.ok result) g ∧
        Sound rt g nursery' mature' old young ∧
        ((∃ e, result = .error e) ∧ g = h ∧
            nursery' = nursery ∧ mature' = mature ∨
          result = .ok () ∧ g.outOfMemory = false ∧
            Republished h g nursery' mature') ∧
        (nursery.isEmpty = false → nursery' = nursery) := by
  rcases Layout.grown_pair bytes hSound.shape.fits with
    ⟨e, hError⟩ | ⟨hGrow, hGrown⟩
  · exact
      ⟨.error e, h, nursery, mature,
        yields_expandMature_error hSound.shape hError, hSound,
        Or.inl ⟨⟨e, rfl⟩, rfl, rfl, rfl⟩, fun _ => rfl⟩
  · refine
      ⟨.ok (), h.grownBy nursery mature bytes, _, _,
        yields_expandMature_ok hSound hGrow hGrown,
        (sameObjects_info _).sound (hSound.expanded hGrow),
        Or.inr ⟨rfl, rfl, rfl, rfl, rfl, rfl, rfl, rfl, rfl⟩,
        fun hUsed => ?_⟩
    rw [hGrow.empty] at hUsed
    cases hUsed

/- Regions of the runtime are published. -/
theorem yields_registerRegions
    (hSound : Sound rt h nursery mature old young)
    {regions : List MemoryRegion}
    (hEnds : ∀ r ∈ regions, r.start + r.size < Word.limit) :
    ∃ g,
      Yields (registerRegions regions) h (.ok ()) g ∧
        Sound rt g nursery mature old young ∧
        g.outOfMemory = h.outOfMemory ∧
        Republished h g nursery mature := by
  have hShape := hSound.shape
  have hSound' :
      Sound rt { h with runtimeRegions := regions } nursery
        mature old young :=
    ⟨⟨hShape.layout, hShape.fits, hShape.cards, hShape.starts,
        hShape.sameCards, hEnds⟩,
      hSound.oldTiles, hSound.youngTiles, hSound.matureFree,
      hSound.nurseryFree, hSound.fields, hSound.roots,
      hSound.remembered, hSound.firsts⟩
  exact
    ⟨_, yields_write (yields_publishRegions hSound'.shape),
      (sameObjects_info _).sound hSound', rfl, rfl, rfl, rfl,
        rfl, rfl, rfl, rfl⟩

end HeapM

end BeltHeap
