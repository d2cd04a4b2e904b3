import BeltHeap.Proofs.Outcome

/-
  One collection of a sound heap, of any kind: it does not break
  off, and either its survivors do not fit and nothing changes,
  or it relocates them and leaves a sound heap.

  Main declarations:
    * `Heap.Lands`, `Heap.Short`, `Heap.Pass`
    * `Heap.Pass.sound`, `Heap.Pass.carries`
    * `HeapM.yields_refusedPass`, `HeapM.yields_placedPass`
    * `HeapM.yields_runCollection`
-/

------------------------------------------------------------
-- Passes
------------------------------------------------------------

namespace BeltHeap

namespace Heap

/- What belongs to neither objects nor belts is left alone. -/
structure SameRest (h g : Heap) : Prop where
  config : g.config = h.config
  info : g.info = h.info
  outOfMemory : g.outOfMemory = h.outOfMemory
  stats : g.stats = h.stats

/-
  The belts once survivors of a number of bytes were placed: they
  lie behind the mature objects, or in what was the nursery belt,
  or at the start of the mature belt.
-/
inductive Lands
    (kind : Collection.Kind)
    (nursery mature : Belt)
    (bytes : Nat) : Belt → Belt → Prop where
| append
    (hKind : kind = .minor)
    (hRoom : mature.mark + bytes ≤ mature.stop) :
    Lands kind nursery mature bytes nursery.emptied
      { mature with mark := mature.mark + bytes }
| evacuate
    (hKind : kind = .major)
    (hRoom : nursery.start + bytes ≤ nursery.stop) :
    Lands kind nursery mature bytes
      { mature.emptied with expandable := false }
      { nursery with
        mark := nursery.start + bytes
        expandable := mature.expandable }
| slide
    (hKind : kind ≠ .minor)
    (hChoice : kind = .major → nursery.size < bytes)
    (hRoom : mature.start + bytes ≤ mature.stop) :
    Lands kind nursery mature bytes
      (if kind = .fullHeap then nursery.emptied else nursery)
      { mature with mark := mature.start + bytes }

/-
  A collection that failed: its survivors need more room than
  there is where they would go.
-/
structure Short
    (rt : Runtime)
    (h : Heap)
    (nursery mature : Belt)
    (old young : List Nat)
    (kind : Collection.Kind)
    (found : List Nat) : Prop where
  survey :
    Survey rt h old young kind found (h.startSlots rt kind old)
  survivors :
    ∀ o, o ∈ found ↔ Survives rt h nursery mature kind old o
  tight :
    (Collection.chooseDestination kind nursery mature
        (Collection.liveBytes (h.sized found))).available <
      Collection.liveBytes (h.sized found)

/-
  A collection that succeeded: it found exactly the survivors, in
  the order of placing, relocated them and settled the belts.
-/
structure Pass
    (rt : Runtime)
    (h g : Heap)
    (nursery mature nursery' mature' : Belt)
    (old young : List Nat)
    (kind : Collection.Kind)
    (found : List Nat)
    (moves : List Collection.Move)
    (start : Nat)
    (table : FirstObjects) : Prop where
  relocation :
    Relocation rt h nursery mature old young kind found
      (h.startSlots rt kind old) moves
  settled :
    Relocation.Settled h g nursery' mature'
      (Collection.kept kind old) found
      (h.startSlots rt kind old) moves start table
  survivors :
    ∀ o, o ∈ found ↔ Survives rt h nursery mature kind old o
  placed :
    Sound.placed rt h nursery mature kind old = h.sized found
  lands :
    Lands kind nursery mature
      (Collection.liveBytes (h.sized found)) nursery' mature'
  rest : SameRest h g

namespace Pass

variable {rt : Runtime}
variable {h g : Heap}
variable {nursery mature nursery' mature' : Belt}
variable {old young found : List Nat}
variable {kind : Collection.Kind}
variable {moves : List Collection.Move}
variable {start : Nat}
variable {table : FirstObjects}

/- A collection leaves a sound heap with an empty nursery. -/
theorem sound
    (hPass :
      Pass rt h g nursery mature nursery' mature' old young kind
        found moves start table) :
    Sound rt g nursery' mature'
      ((Collection.kept kind old ++ found).map
        (Collection.forward moves)) [] :=
  hPass.settled.sound hPass.relocation

/- A collection carries over the graph of reachable objects. -/
theorem carries
    (hPass :
      Pass rt h g nursery mature nursery' mature' old young kind
        found moves start table) :
    Carries rt (Collection.forward moves) h g :=
  hPass.settled.carries hPass.relocation

end Pass

end Heap

namespace HeapM

open Heap

variable {rt : Runtime}
variable {h : Heap}
variable {nursery mature : Belt}
variable {old young found : List Nat}
variable {kind : Collection.Kind}
variable {slots : List Slot}
variable {moves : List Collection.Move}

------------------------------------------------------------
-- Finding and Forwarding
------------------------------------------------------------

/- The slots that a collection starts from are found. -/
theorem yields_findStartSlots
    (hSound : Sound rt h nursery mature old young)
    (hStandard : rt.Standard) :
    Yields (findStartSlots rt kind) h
      (.ok (h.startSlots rt kind old)) h := by
  have hRoots :
      Yields (findRootSlots rt) h (.ok (h.rootSlots rt)) h :=
    yields_bind yields_noteScan (yields_reading _)
  unfold findStartSlots startSlots rememberedFor
  refine yields_bind hRoots ?_
  by_cases hMinor : kind = .minor
  · rw [if_pos hMinor]
    simp only [if_pos hMinor]
    refine yields_bind
      (hSound.scannable.quiet_rememberedSlots hStandard).yields
      ?_
    exact yields_report rfl (yields_pure _)
  · rw [if_neg hMinor]
    simp only [if_neg hMinor]
    refine yields_bind (yields_pure []) ?_
    exact yields_report rfl (yields_pure _)

/- A pass whose survivors do not fit leaves the heap alone. -/
theorem yields_refusedPass
    {shortfall : Collection.Shortfall}
    (hShape : Shape h nursery mature)
    (hStart : Yields (findStartSlots rt kind) h (.ok slots) h)
    (hPlace :
      Collection.place kind nursery mature
          (Collection.findLive rt h.memory
            (Collection.condemned kind nursery mature)
            (slots.map h.readSlot)) =
        .ok (.error shortfall)) :
    Yields (runCollection rt kind) h (.ok (.error shortfall))
      h := by
  unfold runCollection
  apply yields_read
  apply yields_read
  rw [hShape.nursery_eq, hShape.mature_eq]
  refine yields_report rfl ?_
  refine yields_bind hStart ?_
  refine yields_bind (yields_reading _) ?_
  exact yields_computed hPlace (yields_pure _)

theorem yields_placedPass
    {plan : Collection.Plan}
    {g k : Heap}
    (hShape : Shape h nursery mature)
    (hStart : Yields (findStartSlots rt kind) h (.ok slots) h)
    (hPlace :
      Collection.place kind nursery mature
          (Collection.findLive rt h.memory
            (Collection.condemned kind nursery mature)
            (slots.map h.readSlot)) =
        .ok (.ok plan))
    (hForward :
      Yields (forwardSlots rt slots plan.moves) h (.ok ()) k)
    (hSettle :
      Yields (settle kind plan.destination plan.moves)
        (k.mapMemory fun m => m.copyAll plan.moves) (.ok ())
        g) :
    Yields (runCollection rt kind) h
      (.ok
        (.ok
          ⟨kind, plan.moves.length,
            Collection.promotedBytes nursery plan.moves⟩))
      g := by
  unfold runCollection
  apply yields_read
  apply yields_read
  rw [hShape.nursery_eq, hShape.mature_eq]
  refine yields_report rfl ?_
  refine yields_bind hStart ?_
  refine yields_bind (yields_reading _) ?_
  refine yields_computed hPlace ?_
  refine yields_report rfl ?_
  refine yields_bind hForward ?_
  refine yields_bind (yields_moveObjects plan.moves k) ?_
  exact yields_bind hSettle (yields_pure _)

/- The sources of a relocation are proper objects. -/
theorem proper_sources
    (hMove :
      Relocation rt h nursery mature old young kind found slots
        moves) :
    ∀ o ∈ moves.map Collection.Move.source,
      Object.Proper h.memory o := by
  rw [hMove.routes.map_source]
  intro o ho
  exact
    hMove.sound.proper
      (hMove.survey.members (List.mem_append_right _ ho))

/- The slots of a relocation lie apart from all headers. -/
theorem off_headers
    (hMove :
      Relocation rt h nursery mature old young kind found slots
        moves) :
    ∀ o ∈ moves.map Collection.Move.source,
      ∀ s ∈ forwardable h slots moves, s.OffHeader o := by
  unfold forwardable
  rw [hMove.routes.map_source]
  intro o ho s hs
  cases s with
  | entry k => exact ⟨Slot.noConfusion, Slot.noConfusion⟩
  | register n => exact ⟨Slot.noConfusion, Slot.noConfusion⟩
  | field a =>
      have hMember :=
        hMove.survey.members (List.mem_append_right _ ho)
      rcases hMove.survey.field_mem hs with
        ⟨other, hOther, hField⟩
      have hOther' := hMove.survey.members hOther
      have hHeader := (hMove.sound.proper hMember).header_le
      have hBounds :=
        (hMove.sound.proper hOther').slot_bounds hField
      unfold Slot.OffHeader Slot.Apart Object.WordsApart
      unfold Word.bytes at hBounds ⊢
      by_cases hEq : o = other
      · omega
      · have hApart :=
          hMove.sound.apart_of_ne hMember hOther' hEq
        unfold Object.Apart at hApart
        omega

/- Forwarding rewrites the slots of a relocation. -/
theorem quiet_forwardedAll
    (hMove :
      Relocation rt h nursery mature old young kind found slots
        moves) :
    Quiet (forwardSlots rt slots moves) h ()
      (h.forwardedAll (Collection.forwarding moves)
        (slots ++ Slot.ofObjects h.memory found)) := by
  rcases quiet_forwardSlots hMove.standard.listsFields
      (proper_sources hMove) (off_headers hMove) with
    ⟨all, -, hAll, hQuiet⟩
  rw [hAll hMove.standard.fields] at hQuiet
  unfold forwardable at hQuiet
  rw [hMove.routes.map_source] at hQuiet
  exact hQuiet

------------------------------------------------------------
-- Settling
------------------------------------------------------------

/- Relocated belts lie where they did. -/
theorem relocated_shape
    (hSound : Sound rt h nursery mature old young)
    (slots : List Slot)
    (found : List Nat)
    (moves : List Collection.Move) :
    (h.relocated slots found moves).layout =
        Layout.pair nursery mature h.layout.heap ∧
      (h.relocated slots found moves).firstObjects =
        h.firstObjects ∧
      SameRest h (h.relocated slots found moves) := by
  rcases Relocation.relocated_frame h slots found moves with
    ⟨memory, entries, registers, hFrame⟩
  rw [hFrame]
  exact ⟨hSound.shape.layout, rfl, rfl, rfl, rfl, rfl⟩

/- Settled belts are left after the survivors were noted. -/
theorem yields_settle
    {destination : Collection.Destination}
    {g : Heap}
    {nursery' mature' : Belt}
    {start : Nat}
    {table : FirstObjects}
    (hMove :
      Relocation rt h nursery mature old young kind found slots
        moves)
    (hBelts :
      Yields (settleBelts kind destination moves)
        (h.relocated slots found moves) (.ok ()) g)
    (hLayout :
      g.layout = Layout.pair nursery' mature' h.layout.heap)
    (hTable : g.firstObjects = table)
    (hSettled :
      Relocation.Settled h
        { g with firstObjects := recordedAll table moves }
        nursery' mature' (Collection.kept kind old) found slots
        moves start table) :
    Yields (settle kind destination moves)
      (h.relocated slots found moves) (.ok ())
      { g with firstObjects := recordedAll table moves } := by
  have hCovers := hSettled.covers
  rw [← hTable] at hCovers ⊢
  refine yields_bind hBelts
    (yields_recordSurvivors hSettled.fits hLayout hCovers ?_)
  intro move hIn
  rcases hMove.routes.size_eq hIn with ⟨hFound, hSize⟩
  have hHeader :=
    (hMove.sound.proper
      (hMove.survey.members
        (List.mem_append_right _ hFound))).header_le
  rw [hSettled.packed] at hIn
  have hBounds := Collection.pack_bounds hIn
  have hStart := hSettled.keptTiles.le
  have hMark := hSettled.mark
  have hStop := hSettled.fits.matureMark.2
  omega

/-
  The moves of a survey are routes, and settling the belts after
  them comes to a settled heap.
-/
def CarriedOut
    (rt : Runtime)
    (h : Heap)
    (nursery mature : Belt)
    (old young : List Nat)
    (kind : Collection.Kind)
    (found : List Nat)
    (destination : Collection.Destination)
    (moves : List Collection.Move) : Prop :=
  Relocation rt h nursery mature old young kind found
      (h.startSlots rt kind old) moves ∧
    ∃ g nursery' mature' start table,
      Yields (settle kind destination moves)
          (h.relocated (h.startSlots rt kind old) found moves)
          (.ok ()) g ∧
        Relocation.Settled h g nursery' mature'
          (Collection.kept kind old) found
          (h.startSlots rt kind old) moves start table ∧
        Lands kind nursery mature
          (Collection.liveBytes (h.sized found)) nursery'
          mature' ∧
        SameRest h g

/- Promoting nursery survivors. -/
theorem carriedOut_append
    (hStandard : rt.Standard)
    (hSound : Sound rt h nursery mature old young)
    (hSurvey :
      Survey rt h old young .minor found
        (h.startSlots rt .minor old))
    (hRoom :
      mature.mark + Collection.liveBytes (h.sized found) ≤
        mature.stop) :
    CarriedOut rt h nursery mature old young .minor found
      .appendToMature
      (Collection.pack mature.mark (h.sized found)) := by
  have hMove :
      Relocation rt h nursery mature old young .minor found
        (h.startSlots rt .minor old)
        (Collection.pack mature.mark (h.sized found)) :=
    ⟨hStandard, hSound, hSurvey,
      hSound.routes_append hSurvey.condemned hRoom⟩
  rcases relocated_shape hSound (h.startSlots rt .minor old)
      found (Collection.pack mature.mark (h.sized found)) with
    ⟨hLayout, hTable, hRest⟩
  have hBelts :=
    yields_settle_append .minor hSound.shape.fits
      hLayout
      (Collection.lastStop_getD_pack mature.mark
        (h.sized found)).symm
      ⟨Nat.le_add_right _ _, hRoom⟩
  have hSettled := hMove.settled_append hRoom rfl
  refine ⟨hMove, _, _, _, _, _,
    yields_settle hMove hBelts rfl hTable hSettled, hSettled,
    .append rfl hRoom, ?_⟩
  exact
    ⟨hRest.config, hRest.info, hRest.outOfMemory, hRest.stats⟩

/- Evacuating mature survivors. -/
theorem carriedOut_evacuate
    (hStandard : rt.Standard)
    (hSound : Sound rt h nursery mature old [])
    (hSurvey :
      Survey rt h old [] .major found
        (h.startSlots rt .major old))
    (hRoom :
      nursery.start + Collection.liveBytes (h.sized found) ≤
        nursery.stop) :
    CarriedOut rt h nursery mature old [] .major found
      .evacuateToNursery
      (Collection.pack nursery.start (h.sized found)) := by
  have hMove :
      Relocation rt h nursery mature old [] .major found
        (h.startSlots rt .major old)
        (Collection.pack nursery.start (h.sized found)) :=
    ⟨hStandard, hSound, hSurvey,
      hSound.routes_evacuate hSurvey.condemned hRoom⟩
  rcases relocated_shape hSound (h.startSlots rt .major old)
      found (Collection.pack nursery.start (h.sized found)) with
    ⟨hLayout, hTable, hRest⟩
  have hCovers := hSound.shape.starts
  rw [← hTable] at hCovers
  have hBelts :=
    yields_settle_evacuate .major hSound.shape.fits
      hLayout hCovers
      (Collection.lastStop_getD_pack nursery.start
        (h.sized found)).symm
      ⟨Nat.le_add_right _ _, hRoom⟩
  have hSettled := hMove.settled_evacuate hRoom rfl
  refine ⟨hMove, _, _, _, _, _,
    yields_settle hMove hBelts rfl
      (congrArg (·.forgotten mature.span) hTable) hSettled,
    hSettled, .evacuate rfl hRoom, ?_⟩
  exact
    ⟨hRest.config, hRest.info, hRest.outOfMemory, hRest.stats⟩

/- Sliding survivors down in the mature belt. -/
theorem carriedOut_slide
    (hStandard : rt.Standard)
    (hSound : Sound rt h nursery mature old young)
    (hAllowed : Collection.Allowed kind young)
    (hKind : kind ≠ .minor)
    (hChoice :
      kind = .major →
        nursery.size < Collection.liveBytes (h.sized found))
    (hSurvey :
      Survey rt h old young kind found
        (h.startSlots rt kind old))
    (hRoom :
      mature.start + Collection.liveBytes (h.sized found) ≤
        mature.stop) :
    CarriedOut rt h nursery mature old young kind found
      .slideInMature
      (Collection.pack mature.start (h.sized found)) := by
  have hMove :
      Relocation rt h nursery mature old young kind found
        (h.startSlots rt kind old)
        (Collection.pack mature.start (h.sized found)) :=
    ⟨hStandard, hSound, hSurvey,
      hSound.routes_slide hSurvey.condemned hSurvey.order hKind
        hRoom⟩
  rcases relocated_shape hSound (h.startSlots rt kind old)
      found (Collection.pack mature.start (h.sized found)) with
    ⟨hLayout, hTable, hRest⟩
  have hCovers := hSound.shape.starts
  rw [← hTable] at hCovers
  have hBelts :=
    yields_settle_slide kind hSound.shape.fits
      hLayout hCovers
      (Collection.lastStop_getD_pack mature.start
        (h.sized found)).symm
      ⟨Nat.le_add_right _ _, hRoom⟩
  have hSettled :=
    hMove.settled_slide hKind hAllowed hRoom rfl rfl
  refine ⟨hMove, _, _, _, _, _,
    yields_settle hMove hBelts rfl
      (congrArg (·.forgotten mature.span) hTable) hSettled,
    hSettled, .slide hKind hChoice hRoom, ?_⟩
  exact
    ⟨hRest.config, hRest.info, hRest.outOfMemory, hRest.stats⟩

/- Whatever destination is chosen, survivors that fit get there. -/
theorem carriedOut
    (hStandard : rt.Standard)
    (hSound : Sound rt h nursery mature old young)
    (hAllowed : Collection.Allowed kind young)
    (hSurvey :
      Survey rt h old young kind found
        (h.startSlots rt kind old))
    {target : Collection.Target}
    (hTarget :
      target =
        Collection.chooseDestination kind nursery mature
          (Collection.liveBytes (h.sized found)))
    (hRoom :
      Collection.liveBytes (h.sized found) ≤
        target.available) :
    CarriedOut rt h nursery mature old young kind found
      target.destination
      (Collection.pack target.start (h.sized found)) := by
  have hNursery := hSound.shape.fits.nurseryMark
  have hMature := hSound.shape.fits.matureMark
  subst hTarget
  cases kind with
  | minor =>
      apply carriedOut_append hStandard hSound hSurvey
      change _ ≤ mature.stop - mature.mark at hRoom
      omega
  | major =>
      have hYoung := hAllowed rfl
      subst hYoung
      have hEmpty : nursery.isEmpty = true := by
        unfold Belt.isEmpty
        rw [beq_iff_eq]
        exact hSound.youngTiles.start_eq.symm
      unfold Collection.chooseDestination at hRoom ⊢
      simp only at hRoom ⊢
      split at hRoom
      · rename_i hFits
        rw [if_pos hFits]
        apply carriedOut_evacuate hStandard hSound hSurvey
        change _ ≤ nursery.stop - nursery.start at hRoom
        omega
      · rename_i hFull
        have hChoice :
            nursery.size <
              Collection.liveBytes (h.sized found) := by
          rw [hEmpty, Bool.true_and, decide_eq_true_eq] at hFull
          omega
        rw [if_neg hFull]
        refine carriedOut_slide hStandard hSound hAllowed
          (by decide) (fun _ => hChoice) hSurvey ?_
        change _ ≤ mature.stop - mature.start at hRoom
        omega
  | fullHeap =>
      refine carriedOut_slide hStandard hSound hAllowed
        (by decide) (fun hMajor => nomatch hMajor) hSurvey ?_
      change _ ≤ mature.stop - mature.start at hRoom
      omega

------------------------------------------------------------
-- Whole Collections
------------------------------------------------------------

/-
  The survivors of a collection do not fit, or are placed so
  that their moves can be carried out.
-/
theorem place_cases
    (kind : Collection.Kind)
    (hStandard : rt.Standard)
    (hSound : Sound rt h nursery mature old young)
    (hAllowed : Collection.Allowed kind young) :
    ∃ found,
      (∀ o, o ∈ found ↔ Survives rt h nursery mature kind old o) ∧
        Sound.placed rt h nursery mature kind old =
          h.sized found ∧
        ((∃ shortfall,
          Collection.place kind nursery mature
              (Collection.findLive rt h.memory
                (Collection.condemned kind nursery mature)
                ((h.startSlots rt kind old).map h.readSlot)) =
            .ok (.error shortfall) ∧
          Short rt h nursery mature old young kind found) ∨
        ∃ plan,
          Collection.place kind nursery mature
              (Collection.findLive rt h.memory
                (Collection.condemned kind nursery mature)
                ((h.startSlots rt kind old).map h.readSlot)) =
            .ok (.ok plan) ∧
          CarriedOut rt h nursery mature old young kind found
            plan.destination plan.moves) := by
  rcases Sound.placed_spec rt h nursery mature kind old with
    ⟨found, hPlaced, hNodup, hFound⟩
  have hSurvey :=
    hSound.survey hStandard hAllowed hPlaced hNodup hFound
  have hPlace :=
    hSound.place_eq kind hPlaced hNodup fun o ho =>
      hSurvey.members (List.mem_append_right _ ho)
  refine ⟨found, hFound, hPlaced, ?_⟩
  by_cases hRoom :
      (Collection.chooseDestination kind nursery mature
          (Collection.liveBytes (h.sized found))).available <
        Collection.liveBytes (h.sized found)
  · simp only [if_pos hRoom] at hPlace
    exact .inl ⟨_, hPlace, hSurvey, hFound, hRoom⟩
  · simp only [if_neg hRoom] at hPlace
    exact
      .inr
        ⟨_, hPlace,
          carriedOut hStandard hSound hAllowed hSurvey rfl
            (Nat.le_of_not_lt hRoom)⟩

/-
  A collection of a sound heap does not break off.  Its
  survivors do not fit and the heap is left alone, or they fit
  and are relocated.
-/
theorem yields_runCollection
    (kind : Collection.Kind)
    (hStandard : rt.Standard)
    (hSound : Sound rt h nursery mature old young)
    (hAllowed : Collection.Allowed kind young) :
    (∃ shortfall found,
      Yields (runCollection rt kind) h
          (.ok (.error shortfall)) h ∧
        Short rt h nursery mature old young kind found) ∨
    ∃ g nursery' mature' found moves start table,
      Yields (runCollection rt kind) h
          (.ok
            (.ok
              ⟨kind, moves.length,
                Collection.promotedBytes nursery moves⟩)) g ∧
        Pass rt h g nursery mature nursery' mature' old young
          kind found moves start table := by
  have hStart :
      Yields (findStartSlots rt kind) h
        (.ok (h.startSlots rt kind old)) h :=
    yields_findStartSlots hSound hStandard
  rcases place_cases kind hStandard hSound hAllowed with
    ⟨found, hFound, hPlaced, ⟨shortfall, hPlace, hShort⟩ |
      ⟨plan, hPlace, hMove, g, nursery', mature', start, table,
        hSettle, hSettled, hLands, hRest⟩⟩
  · left
    exact
      ⟨shortfall, found,
        yields_refusedPass hSound.shape hStart hPlace, hShort⟩
  · right
    refine ⟨g, nursery', mature', found, plan.moves, start, table,
      ?_, ⟨hMove, hSettled, hFound, hPlaced, hLands, hRest⟩⟩
    exact
      yields_placedPass hSound.shape hStart hPlace
        (quiet_forwardedAll hMove).yields hSettle

end HeapM

end BeltHeap
