import BeltHeap.Proofs.Settling

/-
  A heap whose survivors have been relocated and whose belts
  have been settled is sound again: its mature belt is made of
  the kept and moved objects, and its nursery is empty.

  Main declarations:
    * `Heap.Relocation.Settled`
    * `Heap.Relocation.Settled.sound`
    * `Heap.Relocation.Settled.carries`
    * `Heap.Relocation.settled_append`
    * `Heap.Relocation.settled_evacuate`
    * `Heap.Relocation.settled_slide`
-/

------------------------------------------------------------
-- Settled Heaps
------------------------------------------------------------

namespace BeltHeap

/- Noting packed objects one by one keeps a table exact. -/
theorem FirstObjects.Exact.recordedAll
    {t : FirstObjects}
    {heap : Span}
    {sizeOf : Nat → Nat}
    {os : List Nat}
    (h : Exact t sizeOf os)
    (hCovers : Covers t heap)
    (moves : List Collection.Move)
    (hMoves :
      ∀ move ∈ moves,
        move.size = sizeOf move.dest ∧ 0 < move.size ∧
          heap.start ≤ move.dest ∧ move.stop ≤ heap.stop)
    (hApart :
      (os ++ moves.map Collection.Move.dest).Pairwise
        fun o p => o + sizeOf o ≤ p) :
    Exact (HeapM.recordedAll t moves) sizeOf
        (os ++ moves.map Collection.Move.dest) ∧
      Covers (HeapM.recordedAll t moves) heap ∧
      (HeapM.recordedAll t moves).logCardBytes =
        t.logCardBytes := by
  induction moves generalizing t os with
  | nil =>
      rw [List.map_nil, List.append_nil]
      exact ⟨h, hCovers, rfl⟩
  | cons move moves ih =>
      rcases hMoves move List.mem_cons_self with
        ⟨hSize, hPos, hStart, hStop⟩
      unfold Collection.Move.stop at hStop
      rw [List.map_cons, List.append_cons] at hApart
      have hNoted :
          Exact (t.recorded move.dest move.size) sizeOf
            (os ++ [move.dest]) := by
        rw [hSize]
        refine h.recorded hCovers (by omega) hStart (by omega) ?_
        intro p hp
        exact Or.inl
          ((List.pairwise_append.mp
            (List.pairwise_append.mp hApart).1).2.2 p hp
              move.dest List.mem_cons_self)
      rcases ih hNoted (hCovers.recorded _ _)
          (fun later hLater =>
            hMoves later (List.mem_cons_of_mem _ hLater))
          hApart with
        ⟨hExact, hRest, hLog⟩
      rw [List.map_cons, List.append_cons]
      exact ⟨hExact, hRest,
        hLog.trans (FirstObjects.logCardBytes_recorded _ _ _)⟩

namespace Heap

namespace Relocation

/-
  The survivors were packed from `start` on behind the kept
  objects, the nursery is empty, and what is not used is zero.
-/
structure Settled
    (h g : Heap)
    (nursery mature : Belt)
    (kept found : List Nat)
    (slots : List Slot)
    (moves : List Collection.Move)
    (start : Nat)
    (table : FirstObjects) : Prop where
  packed :
    moves = Collection.pack start (h.sized found)
  layout :
    g.layout = Layout.pair nursery mature h.layout.heap
  fits : Layout.Fits nursery mature h.layout.heap
  keptTiles :
    Object.Tiles h.memory start mature.start kept
  mark :
    mature.mark =
      start + Collection.liveBytes (h.sized found)
  empty : nursery.mark = nursery.start
  matureFree :
    ∀ a, mature.mark ≤ a → a < mature.stop →
      g.memory.byte a = 0
  nurseryFree :
    ∀ a, nursery.start ≤ a → a < nursery.stop →
      g.memory.byte a = 0
  used :
    ∀ a, mature.start ≤ a → a < mature.mark →
      g.memory.byte a =
        (h.relocated slots found moves).memory.byte a
  roots : g.roots = (h.relocated slots found moves).roots
  registers :
    g.registers = (h.relocated slots found moves).registers
  cards : g.cards = h.cards
  regions : g.runtimeRegions = h.runtimeRegions
  covers : table.Covers h.layout.heap
  sameCards : table.logCardBytes = h.cards.logCardBytes
  known : table.Exact (Object.size h.memory) kept
  firsts :
    g.firstObjects = HeapM.recordedAll table moves

namespace Settled

variable {rt : Runtime}
variable {h g : Heap}
variable {nursery mature nursery' mature' : Belt}
variable {old young found : List Nat}
variable {kind : Collection.Kind}
variable {slots : List Slot}
variable {moves : List Collection.Move}
variable {start : Nat}
variable {table : FirstObjects}
variable {object : Nat}

/- Kept objects stay, and the others go to their new places. -/
theorem map_forward
    (hMove :
      Relocation rt h nursery mature old young kind found slots
        moves) :
    (Collection.kept kind old ++ found).map
        (Collection.forward moves) =
      Collection.kept kind old ++
        moves.map Collection.Move.dest := by
  rw [List.map_append]
  congr 1
  · refine (List.map_congr_left ?_).trans (List.map_id _)
    intro o ho
    exact hMove.forward_of_not_found
      (hMove.survey.not_mem_found ho)
  · rw [← hMove.routes.map_source]
    exact Collection.map_forward hMove.nodup_sources

/- The new places lie in the used part of the mature belt. -/
theorem forward_bounds
    (hMove :
      Relocation rt h nursery mature old young kind found slots
        moves)
    (hSettled :
      Settled h g nursery' mature' (Collection.kept kind old)
        found slots moves start table)
    (hMem : object ∈ Collection.kept kind old ++ found) :
    mature'.start ≤ Collection.forward moves object ∧
      Collection.forward moves object +
          Object.size h.memory object ≤
        mature'.mark := by
  have hLe := hSettled.keptTiles.le
  have hMark := hSettled.mark
  rcases List.mem_append.mp hMem with hKept | hFound
  · have hIn := hSettled.keptTiles.mem hKept
    rw [hMove.forward_of_not_found
      (hMove.survey.not_mem_found hKept)]
    omega
  · rcases hMove.exists_move hFound with
      ⟨move, hIn, -, hSize, hDest⟩
    rw [hSettled.packed] at hIn
    have hBounds := Collection.pack_bounds hIn
    unfold Collection.Move.stop at hBounds
    rw [hDest, ← hSize]
    omega

/- Settling does not disturb the relocated objects. -/
theorem carried
    (hMove :
      Relocation rt h nursery mature old young kind found slots
        moves)
    (hSettled :
      Settled h g nursery' mature' (Collection.kept kind old)
        found slots moves start table)
    (hMem : object ∈ Collection.kept kind old ++ found) :
    Object.Carried h.memory object g.memory
      (Collection.forward moves) := by
  have hBounds := hSettled.forward_bounds hMove hMem
  refine (hMove.carried hMem).copied
    (hMove.sound.proper (hMove.survey.members hMem)) ?_
  intro k hk
  exact (hSettled.used _ (by omega) (by omega)).symm

/- The graph of reachable objects is carried over. -/
theorem carries
    (hMove :
      Relocation rt h nursery mature old young kind found slots
        moves)
    (hSettled :
      Settled h g nursery' mature' (Collection.kept kind old)
        found slots moves start table) :
    Carries rt (Collection.forward moves) h g := by
  have hCarries := hMove.carries
  have hRootSlots :
      g.rootSlots rt =
        (h.relocated slots found moves).rootSlots rt := by
    unfold rootSlots
    rw [hSettled.roots]
  constructor
  · exact hCarries.null
  · exact hRootSlots.trans hCarries.rootSlots
  · intro s hs
    rw [← hCarries.roots s hs]
    cases s with
    | entry k =>
        unfold readSlot
        rw [hSettled.roots]
    | register n =>
        unfold readSlot
        rw [hSettled.registers]
    | field a =>
        exact absurd rfl
          (not_field_of_mem_rootSlots hMove.standard hs a)
  · intro o ho
    exact hSettled.carried hMove
      (hMove.survey.mem_of_reachable hMove.standard ho)
  · exact hCarries.live
  · exact hCarries.injective

/- The mature belt is tiled by kept and moved objects. -/
theorem tiles
    (hMove :
      Relocation rt h nursery mature old young kind found slots
        moves)
    (hSettled :
      Settled h g nursery' mature' (Collection.kept kind old)
        found slots moves start table) :
    Object.Tiles g.memory mature'.mark mature'.start
      (Collection.kept kind old ++
        moves.map Collection.Move.dest) := by
  have hKept :
      Object.Tiles g.memory start mature'.start
        (Collection.kept kind old) := by
    refine hSettled.keptTiles.congr ?_
    intro o ho
    have hCarried :=
      hSettled.carried hMove (List.mem_append_left _ ho)
    have hStay :=
      hMove.forward_of_not_found (hMove.survey.not_mem_found ho)
    refine ⟨?_, ?_⟩
    · have hSize := hCarried.size
      rw [hStay] at hSize
      exact hSize
    · have hRefs := hCarried.refCount
      rw [hStay] at hRefs
      exact hRefs
  refine hKept.append ?_
  rw [hSettled.mark, hSettled.packed]
  apply Collection.tiles_pack
  intro move hIn
  rw [← hSettled.packed] at hIn
  rcases hMove.routes.size_eq hIn with ⟨hFound, hSize⟩
  have hMem := List.mem_append_right
    (Collection.kept kind old) hFound
  have hCarried := hSettled.carried hMove hMem
  have hProper :=
    hCarried.proper
      (hMove.sound.proper (hMove.survey.members hMem))
  have hDest :=
    Collection.forward_of_mem hMove.nodup_sources hIn
  rw [hDest] at hProper
  refine ⟨hProper, ?_⟩
  have hSame := hCarried.size
  rw [hDest] at hSame
  rw [hSame, hSize]

/- A settled heap is sound. -/
theorem sound
    (hMove :
      Relocation rt h nursery mature old young kind found slots
        moves)
    (hSettled :
      Settled h g nursery' mature' (Collection.kept kind old)
        found slots moves start table) :
    Sound rt g nursery' mature'
      ((Collection.kept kind old ++ found).map
        (Collection.forward moves)) [] := by
  have hTiles := hSettled.tiles hMove
  have hCarries := hSettled.carries hMove
  have hBounds := hSettled.fits.bounds
  have hMark := hSettled.fits.matureMark
  have hExact :
      table.Exact (Object.size g.memory)
        (Collection.kept kind old) := by
    refine hSettled.known.congr ?_
    intro o ho
    have hSize :=
      (hSettled.carried hMove (List.mem_append_left _ ho)).size
    rw [hMove.forward_of_not_found
      (hMove.survey.not_mem_found ho)] at hSize
    exact hSize
  have hRecorded :=
    hExact.recordedAll hSettled.covers moves (by
      intro move hIn
      have hMem :
          move.dest ∈ Collection.kept kind old ++
            moves.map Collection.Move.dest :=
        List.mem_append_right _ (List.mem_map_of_mem hIn)
      rcases hTiles.mem hMem with ⟨hProper, hLow, hHigh⟩
      have hHeader := hProper.header_le
      rcases hMove.routes.size_eq hIn with ⟨hFound, hSize⟩
      have hSame :=
        (hSettled.carried hMove
          (List.mem_append_right _ hFound)).size
      rw [Collection.forward_of_mem hMove.nodup_sources hIn,
        ← hSize] at hSame
      unfold Collection.Move.stop
      omega) hTiles.pairwise
  rw [map_forward hMove]
  constructor
  · refine Shape.of_pair hSettled.layout hSettled.fits ?_ ?_ ?_ ?_
    · rw [hSettled.cards]
      exact hMove.sound.shape.cards
    · rw [hSettled.firsts]
      exact hRecorded.2.1
    · rw [hSettled.firsts, hSettled.cards]
      exact hRecorded.2.2.trans hSettled.sameCards
    · rw [hSettled.regions]
      exact hMove.sound.shape.regions
  · exact hTiles
  · rw [hSettled.empty]
    exact Object.Tiles.nil
  · exact hSettled.matureFree
  · rw [hSettled.empty]
    exact hSettled.nurseryFree
  · rw [List.append_nil, ← map_forward hMove]
    intro p hp a ha
    rcases List.mem_map.mp hp with ⟨o, ho, rfl⟩
    have hCarried := hSettled.carried hMove ho
    rcases Object.mem_fields.mp ha with ⟨i, hi, rfl⟩
    rw [hCarried.refCount] at hi
    rw [hCarried.fields i hi]
    have hField := Object.mem_fields.mpr ⟨i, hi, rfl⟩
    rcases hMove.survey.fields o ho _ hField with hZero | hMem
    · rw [hZero]
      exact Or.inl hMove.forward_null
    · exact Or.inr (List.mem_map_of_mem hMem)
  · rw [List.append_nil, ← map_forward hMove]
    intro s hs
    rw [hCarries.rootSlots] at hs
    rw [hCarries.roots s hs]
    rcases (hMove.survey.roots s hs).2 with hZero | hMem
    · rw [hZero]
      exact Or.inl hMove.forward_null
    · exact Or.inr (List.mem_map_of_mem hMem)
  · intro o _ a _ hYoung
    cases hYoung
  · rw [hSettled.firsts]
    exact hRecorded.1

end Settled

------------------------------------------------------------
-- The Three Destinations
------------------------------------------------------------

variable {rt : Runtime}
variable {h : Heap}
variable {nursery mature : Belt}
variable {old young found : List Nat}
variable {kind : Collection.Kind}
variable {slots : List Slot}
variable {start : Nat}

/- A relocation changes memory, roots and registers only. -/
theorem relocated_frame
    (h : Heap)
    (slots : List Slot)
    (found : List Nat)
    (moves : List Collection.Move) :
    ∃ memory entries registers,
      h.relocated slots found moves =
        { h with
          memory
          roots := { h.roots with entries }
          registers } := by
  rcases forwardedAll_frame (Collection.forwarding moves) h
      (slots ++ Slot.ofObjects h.memory found) with
    ⟨memory, entries, registers, hFrame⟩
  unfold relocated
  rw [hFrame]
  exact ⟨memory.copyAll moves, entries, registers, rfl⟩

/- Bytes that were and are not used stay as they were. -/
theorem byte_unused
    (hMove :
      Relocation rt h nursery mature old young kind found slots
        (Collection.pack start (h.sized found)))
    {a : Nat}
    (hMature : a < mature.start ∨ mature.mark ≤ a)
    (hNursery : a < nursery.start ∨ nursery.mark ≤ a)
    (hPacked :
      a < start ∨
        start + Collection.liveBytes (h.sized found) ≤ a) :
    (h.relocated slots found
        (Collection.pack start (h.sized found))).memory.byte a =
      h.memory.byte a := by
  apply hMove.byte_outside
  · intro o ho
    rcases List.mem_append.mp (hMove.survey.members ho) with
      hOld | hYoung
    · have hIn := hMove.sound.mem_old hOld
      omega
    · have hIn := hMove.sound.mem_young hYoung
      omega
  · intro move hIn
    have hBounds := Collection.pack_bounds hIn
    omega

/- What a cleared range of a belt reads as. -/
theorem byte_cleared
    (hSound : Sound rt h nursery mature old young)
    (m : Memory)
    {low high : Nat}
    (hLow : low ≤ high)
    (hHigh : high ≤ h.layout.heap.stop)
    (a : Nat) :
    (m.clear low (high - low)).byte a =
      if low ≤ a ∧ a < high then 0 else m.byte a := by
  have hPage : 0 < Word.pageBytes := by decide
  have hLimit := hSound.shape.fits.stop_le
  rw [Memory.byte_clear m (by omega)]
  have hSum : low + (high - low) = high := by omega
  rw [hSum]

/- Survivors that were appended to the mature belt. -/
theorem settled_append
    (hMove :
      Relocation rt h nursery mature old young .minor found
        slots (Collection.pack mature.mark (h.sized found)))
    (hRoom :
      mature.mark + Collection.liveBytes (h.sized found) ≤
        mature.stop)
    {g : Heap}
    (hResult :
      g =
        { ((h.relocated slots found
              (Collection.pack mature.mark
                (h.sized found))).mapMemory fun m =>
            m.clear nursery.start nursery.used).withLayout
              (Layout.pair nursery.emptied
                { mature with
                  mark :=
                    mature.mark +
                      Collection.liveBytes (h.sized found) }
                h.layout.heap) with
          firstObjects :=
            HeapM.recordedAll h.firstObjects
              (Collection.pack mature.mark
                (h.sized found)) }) :
    Settled h g nursery.emptied
      { mature with
        mark :=
          mature.mark +
            Collection.liveBytes (h.sized found) }
      old found slots
      (Collection.pack mature.mark (h.sized found))
      mature.mark h.firstObjects := by
  have hSound := hMove.sound
  have hShape := hSound.shape
  have hBounds := hShape.fits.bounds
  have hNursery := hShape.fits.nurseryMark
  have hMature := hShape.fits.matureMark
  rcases relocated_frame h slots found
      (Collection.pack mature.mark (h.sized found)) with
    ⟨memory, entries, registers, hFrame⟩
  have hByte (a : Nat) :
      g.memory.byte a =
        if nursery.start ≤ a ∧ a < nursery.mark then 0
        else
          (h.relocated slots found
            (Collection.pack mature.mark
              (h.sized found))).memory.byte a := by
    rw [hResult]
    exact byte_cleared hSound _ hNursery.1 (by omega) a
  constructor
  · rfl
  · rw [hResult]
    rfl
  · have hFits :
        Layout.Fits nursery.emptied mature h.layout.heap :=
      hShape.fits.setNursery rfl rfl rfl
        ⟨Nat.le_refl _, Nat.le_trans hNursery.1 hNursery.2⟩
    exact hFits.setMature rfl rfl rfl
      ⟨Nat.le_trans hMature.1 (Nat.le_add_right _ _), hRoom⟩
  · exact hSound.oldTiles
  · rfl
  · rfl
  · intro a hLow hHigh
    simp only at hLow hHigh
    rw [hByte, if_neg (by omega),
      hMove.byte_unused (by omega) (by omega) (by omega)]
    exact hSound.matureFree a (by omega) hHigh
  · intro a hLow hHigh
    change nursery.start ≤ a at hLow
    change a < nursery.stop at hHigh
    rw [hByte]
    split
    · rfl
    · rw [hMove.byte_unused (by omega) (by omega) (by omega)]
      exact hSound.nurseryFree a (by omega) hHigh
  · intro a hLow hHigh
    simp only at hLow hHigh
    rw [hByte, if_neg (by omega)]
  · rw [hResult]
    rfl
  · rw [hResult]
    rfl
  · rw [hResult, hFrame]
    rfl
  · rw [hResult, hFrame]
    rfl
  · exact hShape.starts
  · exact hShape.sameCards
  · exact hSound.firsts
  · rw [hResult]

/- The table of a heap whose mature belt was emptied. -/
theorem forgotten_spec
    (hSound : Sound rt h nursery mature old young) :
    (h.firstObjects.forgotten mature.span).Covers
        h.layout.heap ∧
      (h.firstObjects.forgotten mature.span).logCardBytes =
        h.cards.logCardBytes ∧
      (h.firstObjects.forgotten mature.span).Exact
        (Object.size h.memory) [] := by
  have hShape := hSound.shape
  have hBounds := hShape.fits.bounds
  have hMature := hShape.fits.matureMark
  refine ⟨hShape.starts.forgotten _, ?_, ?_⟩
  · rw [FirstObjects.logCardBytes_forgotten]
    exact hShape.sameCards
  · refine hSound.firsts.forgotten hShape.starts hBounds.2.2.1
      hBounds.2.2.2.2.1 ?_
    intro o ho
    have hIn := hSound.mem_old ho
    exact ⟨hIn.2.1, Nat.le_trans hIn.2.2 hMature.2⟩

/- Survivors that were evacuated into the nursery. -/
theorem settled_evacuate
    (hMove :
      Relocation rt h nursery mature old [] .major found slots
        (Collection.pack nursery.start (h.sized found)))
    (hRoom :
      nursery.start + Collection.liveBytes (h.sized found) ≤
        nursery.stop)
    {g : Heap}
    (hResult :
      g =
        { ((h.relocated slots found
              (Collection.pack nursery.start
                (h.sized found))).mapMemory fun m =>
            m.clear mature.start mature.used).withLayout
              (Layout.pair
                { mature.emptied with expandable := false }
                { nursery with
                  mark :=
                    nursery.start +
                      Collection.liveBytes (h.sized found)
                  expandable := mature.expandable }
                h.layout.heap) with
          firstObjects :=
            HeapM.recordedAll
              (h.firstObjects.forgotten mature.span)
              (Collection.pack nursery.start
                (h.sized found)) }) :
    Settled h g
      { mature.emptied with expandable := false }
      { nursery with
        mark :=
          nursery.start +
            Collection.liveBytes (h.sized found)
        expandable := mature.expandable }
      [] found slots
      (Collection.pack nursery.start (h.sized found))
      nursery.start
      (h.firstObjects.forgotten mature.span) := by
  have hSound := hMove.sound
  have hShape := hSound.shape
  have hBounds := hShape.fits.bounds
  have hNursery := hShape.fits.nurseryMark
  have hMature := hShape.fits.matureMark
  have hEmpty := hSound.youngTiles.start_eq
  rcases forgotten_spec hSound with ⟨hCovers, hLog, hExact⟩
  rcases relocated_frame h slots found
      (Collection.pack nursery.start (h.sized found)) with
    ⟨memory, entries, registers, hFrame⟩
  have hByte (a : Nat) :
      g.memory.byte a =
        if mature.start ≤ a ∧ a < mature.mark then 0
        else
          (h.relocated slots found
            (Collection.pack nursery.start
              (h.sized found))).memory.byte a := by
    rw [hResult]
    exact byte_cleared hSound _ hMature.1 (by omega) a
  constructor
  · rfl
  · rw [hResult]
    rfl
  · have hFits :
        Layout.Fits { mature.emptied with expandable := false }
          nursery h.layout.heap :=
      hShape.fits.swap.setNursery rfl rfl rfl
        ⟨Nat.le_refl _, Nat.le_trans hMature.1 hMature.2⟩
    exact hFits.setMature rfl rfl rfl
      ⟨Nat.le_add_right _ _, hRoom⟩
  · exact Object.Tiles.nil
  · rfl
  · rfl
  · intro a hLow hHigh
    simp only at hLow hHigh
    rw [hByte, if_neg (by omega),
      hMove.byte_unused (by omega) (by omega) (by omega)]
    exact hSound.nurseryFree a (by omega) hHigh
  · intro a hLow hHigh
    change mature.start ≤ a at hLow
    change a < mature.stop at hHigh
    rw [hByte]
    split
    · rfl
    · rw [hMove.byte_unused (by omega) (by omega) (by omega)]
      exact hSound.matureFree a (by omega) hHigh
  · intro a hLow hHigh
    simp only at hLow hHigh
    rw [hByte, if_neg (by omega)]
  · rw [hResult]
    rfl
  · rw [hResult]
    rfl
  · rw [hResult, hFrame]
    rfl
  · rw [hResult, hFrame]
    rfl
  · exact hCovers
  · exact hLog
  · exact hExact
  · rw [hResult]

/-
  The nursery beside a mature belt that slid is empty: it was
  condemned, or it was empty before.
-/
theorem slid_nursery
    (hSound : Sound rt h nursery mature old young)
    (hKind : kind ≠ .minor)
    (hAllowed : Collection.Allowed kind young) :
    (if kind = .fullHeap then nursery.emptied
          else nursery).index = nursery.index ∧
      (if kind = .fullHeap then nursery.emptied
          else nursery).start = nursery.start ∧
      (if kind = .fullHeap then nursery.emptied
          else nursery).stop = nursery.stop ∧
      (if kind = .fullHeap then nursery.emptied
          else nursery).mark = nursery.start ∧
      (kind = .fullHeap ∨ nursery.mark = nursery.start) := by
  cases kind with
  | minor => exact absurd rfl hKind
  | major =>
      have hYoung := hAllowed rfl
      subst hYoung
      have hEmpty := hSound.youngTiles.start_eq.symm
      exact ⟨rfl, rfl, rfl, hEmpty, Or.inr hEmpty⟩
  | fullHeap => exact ⟨rfl, rfl, rfl, rfl, Or.inl rfl⟩

/-
  What is cleared when the mature belt slid: its used part above
  the new mark, and the nursery if it was condemned.
-/
theorem byte_slid
    (hSound : Sound rt h nursery mature old young)
    (hEither :
      kind = .fullHeap ∨ nursery.mark = nursery.start)
    (m : Memory)
    (mark a : Nat) :
    (if kind = .fullHeap then
        (if mark < mature.mark then
          m.clear mark (mature.mark - mark)
        else m).clear nursery.start nursery.used
      else if mark < mature.mark then
        m.clear mark (mature.mark - mark)
      else m).byte a =
      if nursery.start ≤ a ∧ a < nursery.mark then 0
      else if mark ≤ a ∧ a < mature.mark then 0
      else m.byte a := by
  have hBounds := hSound.shape.fits.bounds
  have hNursery := hSound.shape.fits.nurseryMark
  have hMature := hSound.shape.fits.matureMark
  have hSlide :
      (if mark < mature.mark then
          m.clear mark (mature.mark - mark)
        else m).byte a =
        if mark ≤ a ∧ a < mature.mark then 0
        else m.byte a := by
    by_cases hBelow : mark < mature.mark
    · rw [if_pos hBelow]
      exact byte_cleared hSound m (by omega) (by omega) a
    · rw [if_neg hBelow, if_neg (by omega)]
  rw [← hSlide]
  by_cases hFull : kind = .fullHeap
  · rw [if_pos hFull]
    exact byte_cleared hSound _ hNursery.1 (by omega) a
  · have hNone :
        ¬ (nursery.start ≤ a ∧ a < nursery.mark) := by
      rcases hEither with hFull' | hSame
      · exact absurd hFull' hFull
      · omega
    rw [if_neg hFull, if_neg hNone]

/- Survivors that slid down to the start of the mature belt. -/
theorem settled_slide
    (hMove :
      Relocation rt h nursery mature old young kind found slots
        (Collection.pack mature.start (h.sized found)))
    (hKind : kind ≠ .minor)
    (hAllowed : Collection.Allowed kind young)
    (hRoom :
      mature.start + Collection.liveBytes (h.sized found) ≤
        mature.stop)
    {mark : Nat}
    (hMark :
      mark =
        mature.start + Collection.liveBytes (h.sized found))
    {g : Heap}
    (hResult :
      g =
        { ((h.relocated slots found
              (Collection.pack mature.start
                (h.sized found))).mapMemory fun m =>
            let m :=
              if mark < mature.mark then
                m.clear mark (mature.mark - mark)
              else m
            if kind = .fullHeap then
              m.clear nursery.start nursery.used
            else m).withLayout
              (Layout.pair
                (if kind = .fullHeap then nursery.emptied
                  else nursery)
                { mature with mark } h.layout.heap) with
          firstObjects :=
            HeapM.recordedAll
              (h.firstObjects.forgotten mature.span)
              (Collection.pack mature.start
                (h.sized found)) }) :
    Settled h g
      (if kind = .fullHeap then nursery.emptied else nursery)
      { mature with mark }
      (Collection.kept kind old) found slots
      (Collection.pack mature.start (h.sized found))
      mature.start
      (h.firstObjects.forgotten mature.span) := by
  have hSound := hMove.sound
  have hShape := hSound.shape
  have hBounds := hShape.fits.bounds
  have hNursery := hShape.fits.nurseryMark
  have hMature := hShape.fits.matureMark
  have hKept : Collection.kept kind old = [] := by
    cases kind with
    | minor => exact absurd rfl hKind
    | major => rfl
    | fullHeap => rfl
  rcases slid_nursery hSound hKind hAllowed with
    ⟨hIndex, hStart, hStop, hEmpty, hEither⟩
  rcases forgotten_spec hSound with ⟨hCovers, hLog, hExact⟩
  rcases relocated_frame h slots found
      (Collection.pack mature.start (h.sized found)) with
    ⟨memory, entries, registers, hFrame⟩
  have hByte (a : Nat) :
      g.memory.byte a =
        if nursery.start ≤ a ∧ a < nursery.mark then 0
        else if mark ≤ a ∧ a < mature.mark then 0
        else
          (h.relocated slots found
            (Collection.pack mature.start
              (h.sized found))).memory.byte a := by
    rw [hResult]
    exact byte_slid hSound hEither _ mark a
  rw [hKept]
  constructor
  · rfl
  · rw [hResult]
    rfl
  · have hFits :
        Layout.Fits
          (if kind = .fullHeap then nursery.emptied
            else nursery)
          mature h.layout.heap :=
      hShape.fits.setNursery hIndex hStart hStop
        (by rw [hStart, hStop, hEmpty]; omega)
    exact hFits.setMature rfl rfl rfl
      (by simp only; omega)
  · exact Object.Tiles.nil
  · exact hMark
  · rw [hStart]
    exact hEmpty
  · intro a hLow hHigh
    simp only at hLow hHigh
    rw [hByte, if_neg (by omega)]
    split
    · rfl
    · rw [hMove.byte_unused (by omega) (by omega) (by omega)]
      exact hSound.matureFree a (by omega) hHigh
  · intro a hLow hHigh
    rw [hStart] at hLow
    rw [hStop] at hHigh
    rw [hByte]
    split
    · rfl
    · rw [if_neg (by omega),
        hMove.byte_unused (by omega) (by omega) (by omega)]
      exact hSound.nurseryFree a (by omega) hHigh
  · intro a hLow hHigh
    simp only at hLow hHigh
    rw [hByte, if_neg (by omega), if_neg (by omega)]
  · rw [hResult]
    rfl
  · rw [hResult]
    rfl
  · rw [hResult, hFrame]
    rfl
  · rw [hResult, hFrame]
    rfl
  · exact hCovers
  · exact hLog
  · exact hExact
  · rw [hResult]

end Relocation

end Heap

end BeltHeap
