import BeltHeap.Proofs.Placing

/-
  What settling the belts after a collection comes to, for each
  of the three destinations.

  Main declarations:
    * `HeapM.yields_forgetObjects`, `HeapM.yields_recordObject`
    * `HeapM.yields_swapRoles`
    * `HeapM.yields_settle_append`
    * `HeapM.yields_settle_evacuate`
    * `HeapM.yields_settle_slide`
    * `HeapM.yields_recordSurvivors`
-/

------------------------------------------------------------
-- Single Steps
------------------------------------------------------------

namespace BeltHeap

namespace HeapM

variable {h : Heap}
variable {nursery mature b : Belt}
variable {heap : Span}

/- A mark within the bounds of a belt is set. -/
theorem yields_setMark
    {mark : Nat}
    (hMark : b.start ≤ mark ∧ mark ≤ b.stop) :
    Yields (setMark b mark) h (.ok ())
      (h.setBelt { b with mark }) := by
  unfold setMark
  refine yields_computed (a := { b with mark }) ?_
    (yields_update _)
  unfold Belt.setMark
  rw [if_pos hMark]

/- Resetting a belt clears its objects. -/
theorem yields_resetBelt :
    Yields (resetBelt b) h (.ok ())
      ((h.mapMemory fun m =>
        m.clear b.start b.used).setBelt b.emptied) :=
  yields_write (yields_update _)

/- The objects noted in a span of the heap are forgotten. -/
theorem yields_forgetObjects
    {s : Span}
    (hCovers : h.firstObjects.Covers heap)
    (hStart : heap.start ≤ s.start)
    (hStop : s.stop ≤ heap.stop) :
    Yields (forgetObjects s) h (.ok ())
      { h with firstObjects := h.firstObjects.forgotten s } := by
  rcases hCovers.lines.cardsIn_spec hStart hStop with
    ⟨run, hRun, -⟩
  unfold forgetObjects FirstObjects.forgotten
  rw [hRun]
  apply yields_read
  exact yields_computed hRun (yields_update _)

/- An object in the heap is noted. -/
theorem yields_recordObject
    {start size : Nat}
    (hCovers : h.firstObjects.Covers heap)
    (hSize : 0 < size)
    (hStart : heap.start ≤ start)
    (hStop : start + size ≤ heap.stop) :
    Yields (recordObject start size) h (.ok ())
      { h with
        firstObjects :=
          h.firstObjects.recorded start size } := by
  rcases hCovers.lines.cardsUnder_spec hSize hStart hStop with
    ⟨run, hRun, -⟩
  unfold recordObject FirstObjects.recorded
  rw [hRun]
  apply yields_read
  exact yields_computed hRun (yields_update _)

/- Whether the mature belt may grow is set. -/
theorem yields_setMatureExpandable
    (hFits : Layout.Fits nursery mature heap)
    (hLayout : h.layout = Layout.pair nursery mature heap)
    (expandable : Bool) :
    Yields (setMatureExpandable expandable) h (.ok ())
      (h.withLayout
        (Layout.pair nursery { mature with expandable }
          heap)) := by
  unfold setMatureExpandable
  apply yields_read
  rw [Heap.mature_of_pair hFits hLayout,
    ← Heap.setBelt_mature (b := { mature with expandable })
      hFits hLayout rfl]
  exact yields_update _

/- The roles of a pair are swapped. -/
theorem yields_swap
    (hFits : Layout.Fits nursery mature heap) :
    Yields
      ((Layout.pair nursery mature heap).swap Role.nursery
        Role.mature)
      h (.ok (Layout.pair mature nursery heap)) h := by
  unfold Layout.swap
  refine yields_computed (a := nursery.index) rfl ?_
  refine yields_computed (a := mature.index) rfl ?_
  refine yields_report rfl ?_
  exact yields_lift (Layout.swapped_pair hFits)

/-
  Swapping the roles exchanges the belts of a pair.  Only the
  belt that is mature afterwards may grow.
-/
theorem yields_swapRoles
    (hFits : Layout.Fits nursery mature heap)
    (hLayout : h.layout = Layout.pair nursery mature heap) :
    Yields swapRoles h (.ok ())
      (h.withLayout
        (Layout.pair { mature with expandable := false }
          { nursery with expandable := mature.expandable }
          heap)) := by
  have hFits' :
      Layout.Fits nursery { mature with expandable := false }
        heap :=
    hFits.setMature rfl rfl rfl hFits.matureMark
  unfold swapRoles
  apply yields_read
  rw [Heap.mature_of_pair hFits hLayout]
  refine yields_bind
    (yields_setMatureExpandable hFits hLayout false) ?_
  apply yields_read
  refine yields_bind (yields_swap hFits') ?_
  apply yields_write
  exact
    yields_setMatureExpandable hFits'.swap rfl
      mature.expandable

------------------------------------------------------------
-- Settling
------------------------------------------------------------

variable {moves : List Collection.Move}
variable {mark : Nat}
variable {kind : Collection.Kind}

/- The heap after objects in a span were forgotten. -/
def forgetting
    (s : Span)
    (h : Heap) : Heap :=
  { h with firstObjects := h.firstObjects.forgotten s }

/-
  After a promotion the mature belt ends behind the promoted
  objects, and the nursery is empty.
-/
theorem yields_settle_append
    (kind : Collection.Kind)
    (hFits : Layout.Fits nursery mature heap)
    (hLayout : h.layout = Layout.pair nursery mature heap)
    (hMark : mark =
      (Collection.lastStop? moves).getD mature.mark)
    (hRoom : mature.mark ≤ mark ∧ mark ≤ mature.stop) :
    Yields (settleBelts kind .appendToMature moves) h (.ok ())
      ((h.mapMemory fun m =>
          m.clear nursery.start nursery.used).withLayout
        (Layout.pair nursery.emptied { mature with mark }
          heap)) := by
  have hLow := hFits.matureMark.1
  have hFits' :
      Layout.Fits nursery { mature with mark } heap :=
    hFits.setMature rfl rfl rfl ⟨by simp only; omega, hRoom.2⟩
  have hReset :=
    yields_resetBelt (b := nursery)
      (h := h.withLayout
        (Layout.pair nursery { mature with mark } heap))
  rw [Heap.setBelt_nursery (b := nursery.emptied) hFits' rfl
    rfl] at hReset
  unfold settleBelts
  apply yields_read
  apply yields_read
  rw [Heap.nursery_of_pair hFits hLayout,
    Heap.mature_of_pair hFits hLayout]
  cases hCase : Collection.lastStop? moves with
  | some stop =>
      rw [hCase, Option.getD_some] at hMark
      subst hMark
      refine yields_bind (yields_setMark ⟨by omega, hRoom.2⟩) ?_
      rw [Heap.setBelt_mature (b := { mature with mark })
        hFits hLayout rfl]
      exact hReset
  | none =>
      rw [hCase, Option.getD_none] at hMark
      subst hMark
      have hSame :
          h.withLayout (Layout.pair nursery mature heap) = h := by
        rw [← hLayout]
        rfl
      rw [hSame] at hReset
      exact hReset

/-
  After an evacuation the two belts have swapped their roles,
  and the one that was mature before is empty.
-/
theorem yields_settle_evacuate
    (kind : Collection.Kind)
    (hFits : Layout.Fits nursery mature heap)
    (hLayout : h.layout = Layout.pair nursery mature heap)
    (hCovers : h.firstObjects.Covers heap)
    (hMark : mark =
      (Collection.lastStop? moves).getD nursery.start)
    (hRoom : nursery.start ≤ mark ∧ mark ≤ nursery.stop) :
    Yields (settleBelts kind .evacuateToNursery moves) h (.ok ())
      (((forgetting mature.span h).mapMemory fun m =>
          m.clear mature.start mature.used).withLayout
        (Layout.pair
          { mature.emptied with expandable := false }
          { nursery with
            mark
            expandable := mature.expandable }
          heap)) := by
  have hBounds := hFits.bounds
  have hMature := hFits.matureMark
  have hFits' :
      Layout.Fits { nursery with mark } mature heap :=
    hFits.setNursery rfl rfl rfl hRoom
  have hFits'' :
      Layout.Fits { nursery with mark } mature.emptied heap :=
    hFits'.setMature rfl rfl rfl
      ⟨Nat.le_refl _, Nat.le_trans hMature.1 hMature.2⟩
  have hMarked :
      Yields (setMark nursery mark) (forgetting mature.span h)
        (.ok ())
        ((forgetting mature.span h).withLayout
          (Layout.pair { nursery with mark } mature heap)) := by
    rw [← Heap.setBelt_nursery (b := { nursery with mark })
      (h := forgetting mature.span h) hFits hLayout rfl]
    exact yields_setMark hRoom
  have hReset :=
    yields_resetBelt (b := mature)
      (h := (forgetting mature.span h).withLayout
        (Layout.pair { nursery with mark } mature heap))
  rw [Heap.setBelt_mature (b := mature.emptied) hFits' rfl
    rfl] at hReset
  unfold settleBelts
  apply yields_read
  apply yields_read
  rw [Heap.nursery_of_pair hFits hLayout,
    Heap.mature_of_pair hFits hLayout]
  refine yields_bind
    (yields_forgetObjects hCovers hBounds.2.2.1
      hBounds.2.2.2.2.1) ?_
  rw [← hMark]
  refine yields_bind hMarked ?_
  refine yields_bind hReset ?_
  exact yields_swapRoles hFits'' rfl

/-
  After survivors slid down, what lay above the last one is
  cleared, and so is the nursery if it was condemned, too.
-/
theorem yields_settle_slide
    (kind : Collection.Kind)
    (hFits : Layout.Fits nursery mature heap)
    (hLayout : h.layout = Layout.pair nursery mature heap)
    (hCovers : h.firstObjects.Covers heap)
    (hMark : mark =
      (Collection.lastStop? moves).getD mature.start)
    (hRoom : mature.start ≤ mark ∧ mark ≤ mature.stop) :
    Yields (settleBelts kind .slideInMature moves) h (.ok ())
      (((forgetting mature.span h).mapMemory fun m =>
          let m :=
            if mark < mature.mark then
              m.clear mark (mature.mark - mark)
            else m
          if kind = .fullHeap then
            m.clear nursery.start nursery.used
          else m).withLayout
        (Layout.pair
          (if kind = .fullHeap then nursery.emptied else nursery)
          { mature with mark } heap)) := by
  have hBounds := hFits.bounds
  have hFits' :
      Layout.Fits nursery { mature with mark } heap :=
    hFits.setMature rfl rfl rfl hRoom
  have hRest (f : Memory → Memory) :
      Yields
        (do
          setMark mature mark
          if kind = .fullHeap then resetBelt nursery)
        ((forgetting mature.span h).mapMemory f) (.ok ())
        (((forgetting mature.span h).mapMemory fun m =>
          if kind = .fullHeap then
            (f m).clear nursery.start nursery.used
          else f m).withLayout
            (Layout.pair
              (if kind = .fullHeap then nursery.emptied
                else nursery)
              { mature with mark } heap)) := by
    refine yields_bind (yields_setMark hRoom) ?_
    rw [Heap.setBelt_mature (b := { mature with mark })
      hFits (by exact hLayout) rfl]
    by_cases hFull : kind = .fullHeap
    · simp only [if_pos hFull]
      have hReset :=
        yields_resetBelt (b := nursery)
          (h := ((forgetting mature.span h).mapMemory f
            ).withLayout
              (Layout.pair nursery { mature with mark } heap))
      rw [Heap.setBelt_nursery (b := nursery.emptied) hFits'
        rfl rfl] at hReset
      exact hReset
    · simp only [if_neg hFull]
      exact yields_pure ()
  unfold settleBelts
  apply yields_read
  apply yields_read
  rw [Heap.nursery_of_pair hFits hLayout,
    Heap.mature_of_pair hFits hLayout]
  refine yields_bind
    (yields_forgetObjects hCovers hBounds.2.2.1
      hBounds.2.2.2.2.1) ?_
  rw [← hMark]
  by_cases hBelow : mark < mature.mark
  · simp only [if_pos hBelow]
    exact yields_write (hRest _)
  · simp only [if_neg hBelow]
    exact hRest fun m => m

------------------------------------------------------------
-- Noting Survivors
------------------------------------------------------------

/- The table after all moved objects were noted. -/
def recordedAll
    (t : FirstObjects)
    (moves : List Collection.Move) : FirstObjects :=
  moves.foldl (fun t move => t.recorded move.dest move.size) t

/- Survivors within the mature belt are noted one by one. -/
theorem yields_recordSurvivors
    (hFits : Layout.Fits nursery mature heap)
    (hLayout : h.layout = Layout.pair nursery mature heap)
    (hCovers : h.firstObjects.Covers heap)
    (hMoves :
      ∀ move ∈ moves,
        0 < move.size ∧ mature.start ≤ move.dest ∧
          move.stop ≤ mature.stop) :
    Yields (recordSurvivors moves) h (.ok ())
      { h with
        firstObjects := recordedAll h.firstObjects moves } := by
  have hBounds := hFits.bounds
  have hFold :
      { h with
          firstObjects := recordedAll h.firstObjects moves } =
        moves.foldl
          (fun (g : Heap) move =>
            { g with
              firstObjects :=
                g.firstObjects.recorded move.dest move.size })
          h := by
    unfold recordedAll
    clear hMoves hCovers hLayout
    induction moves generalizing h with
    | nil => rfl
    | cons move moves ih =>
        rw [List.foldl_cons, List.foldl_cons, ← ih]
  rw [hFold]
  unfold recordSurvivors
  refine yields_forM
    (fun g rest =>
      g.layout = h.layout ∧ g.firstObjects.Covers heap ∧
        ∀ move ∈ rest,
          0 < move.size ∧ mature.start ≤ move.dest ∧
            move.stop ≤ mature.stop)
    ?_ moves ⟨rfl, hCovers, hMoves⟩
  rintro g move rest ⟨hSame, hCard, hRest⟩
  rcases hRest move List.mem_cons_self with
    ⟨hSize, hStart, hStop⟩
  unfold Collection.Move.stop at hStop
  refine ⟨?_, hSame, hCard.recorded _ _, ?_⟩
  · apply yields_read
    rw [Heap.mature_of_pair hFits (hSame.trans hLayout),
      if_pos (Belt.contains_iff.mpr ⟨hStart, by omega⟩)]
    exact yields_recordObject hCard hSize (by omega) (by omega)
  · intro later hLater
    exact hRest later (List.mem_cons_of_mem _ hLater)

end HeapM

end BeltHeap
