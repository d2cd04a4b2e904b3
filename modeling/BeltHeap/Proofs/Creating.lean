import BeltHeap.Heap.Creation
import BeltHeap.Proofs.Publishing

/-
  A heap that is created at a place the operating system may
  give to it is sound, and has no objects.

  Main declarations:
    * `Makes`
    * `Placement.Mapped`
    * `Layout.makes_carve`
    * `Heap.sound_of_create`
-/

------------------------------------------------------------
-- Work that Succeeds
------------------------------------------------------------

namespace BeltHeap

variable {ε α β : Type}

/- Work in sequence succeeds where each part of it does. -/
theorem bind_eq_ok
    {x : Except ε α}
    {f : α → Except ε β}
    {b : β}
    (hBind : (x >>= f) = .ok b) :
    ∃ a, x = .ok a ∧ f a = .ok b := by
  cases x with
  | error e => cases hBind
  | ok a => exact ⟨a, rfl, hBind⟩

/- Work without faults and errors makes a value. -/
def Makes
    (work : ExceptT ε (Except Fault) α)
    (a : α) : Prop :=
  work.run = .ok (.ok a)

theorem makes_bind
    {x : ExceptT ε (Except Fault) α}
    {f : α → ExceptT ε (Except Fault) β}
    {b : β}
    (hMakes : Makes (x >>= f) b) :
    ∃ a, Makes x a ∧ Makes (f a) b := by
  unfold Makes at hMakes ⊢
  rw [ExceptT.run_bind] at hMakes
  rcases bind_eq_ok hMakes with ⟨r, hFirst, hRest⟩
  cases r with
  | error e => cases hRest
  | ok a => exact ⟨a, hFirst, hRest⟩

/- Lifted work makes what it comes to. -/
theorem makes_lift
    {x : Except Fault α}
    {a : α}
    (hMakes : Makes (liftM x : ExceptT ε (Except Fault) α) a) :
    x = .ok a := by
  cases x with
  | error f => cases hMakes
  | ok b =>
      cases hMakes
      rfl

theorem makes_pure
    {a b : α}
    (hMakes : Makes (pure a : ExceptT ε (Except Fault) α) b) :
    a = b := by
  cases hMakes
  rfl

/- An error makes nothing. -/
theorem not_makes_throw
    {e : ε}
    {a : α} :
    ¬ Makes (throw e : ExceptT ε (Except Fault) α) a :=
  nofun

------------------------------------------------------------
-- Checked Arithmetic
------------------------------------------------------------

namespace Word

/- A share of a number of bytes consists of whole pages. -/
theorem pageShare_mod
    {n percent share : Nat}
    (hShare : pageShare n percent = .ok share) :
    share % pageBytes = 0 := by
  unfold pageShare at hShare
  rcases bind_eq_ok hShare with ⟨hundreds, -, hShare⟩
  rcases bind_eq_ok hShare with ⟨rest, -, hShare⟩
  rcases bind_eq_ok hShare with ⟨sum, hSum, hShare⟩
  cases hShare
  have hLimit : sum < limit := by
    rcases eq_of_add hSum with ⟨rfl, hLt⟩
    exact hLt
  exact (alignDown_bounds (k := 12) (by decide) hLimit).1

end Word

------------------------------------------------------------
-- Places
------------------------------------------------------------

/-
  The operating system maps whole pages.  None of them is the
  first page, and none reaches the end of all addresses.
-/
structure Placement.Mapped
    (p : Placement)
    (size : Nat) : Prop where
  page : p.heap % Word.pageBytes = 0
  positive : 0 < p.heap
  below : p.heap + Mapping.roundedSize size < Word.limit

/- A heap that is mapped keeps a page away from the limit. -/
theorem Placement.Mapped.stop_le
    {p : Placement}
    {size : Nat}
    (hMapped : p.Mapped size)
    (hSome : Mapping.roundedSize size ≠ 0)
    (hSize : p.heap + size < Word.limit) :
    p.heap + size + Word.pageBytes ≤ Word.limit := by
  have hPage := hMapped.page
  have hBelow := hMapped.below
  have hUp :=
    Word.alignUp_two_pow (k := 12) (by decide) (max size 1)
  change Mapping.roundedSize size = _ at hUp
  unfold Word.pageBytes at hPage ⊢
  unfold Word.limit at hBelow hSize hUp ⊢
  rw [hUp] at hBelow hSome
  omega

------------------------------------------------------------
-- Belts
------------------------------------------------------------

namespace Layout

/- An empty belt between two addresses. -/
def emptyBelt
    (index start stop : Nat)
    (expandable : Bool) : Belt :=
  ⟨index, start, stop, start, start, expandable⟩

/-
  The first percentage makes an empty belt with some bytes, and
  the others make the belts behind it.  It has whole pages,
  unless it is the last one, which reaches up to the stop.
-/
theorem makes_carveFrom_cons
    {heapSize stop index start p : Nat}
    {ps : Percentages}
    {belts : List Belt}
    (hMakes :
      Makes (carveFrom heapSize stop index start (p :: ps))
        belts) :
    ∃ size rest,
      size ≠ 0 ∧
        belts =
          emptyBelt index start (start + size) false :: rest ∧
        Makes
          (carveFrom heapSize stop (index + 1) (start + size) ps)
          rest ∧
        (ps = [] → start + size = stop) ∧
        (ps ≠ [] → size % Word.pageBytes = 0) := by
  have hSized :
      ∃ size,
        (ps = [] → start + size = stop) ∧
          (ps ≠ [] → size % Word.pageBytes = 0) ∧
          Makes
            (if size = 0 then
              throw (.beltTooSmall heapSize index)
            else do
              let belt ← Belt.make index start size
              let next ← Word.add start size
              let belts ←
                carveFrom heapSize stop (index + 1) next ps
              pure (belt :: belts) :
              ExceptT LayoutError (Except Fault) (List Belt))
            belts := by
    unfold carveFrom at hMakes
    cases ps with
    | nil =>
        rcases makes_bind hMakes with ⟨size, hSize, hRest⟩
        rcases Word.eq_of_distance (makes_lift hSize) with
          ⟨rfl, hLe⟩
        exact
          ⟨_, fun _ => Nat.add_sub_cancel' hLe,
            fun hMore => absurd rfl hMore, hRest⟩
    | cons q ps =>
        rcases makes_bind hMakes with ⟨size, hSize, hRest⟩
        exact
          ⟨size, nofun,
            fun _ => Word.pageShare_mod (makes_lift hSize),
            hRest⟩
  rcases hSized with ⟨size, hStop, hPages, hMade⟩
  split at hMade
  · exact absurd hMade not_makes_throw
  rcases makes_bind hMade with ⟨belt, hBelt, hMade⟩
  rcases makes_bind hMade with ⟨next, hNext, hMade⟩
  rcases Word.eq_of_add (makes_lift hNext) with ⟨rfl, -⟩
  rcases makes_bind hMade with ⟨rest, hRest, hMade⟩
  cases makes_pure hMade
  rcases bind_eq_ok (makes_lift hBelt) with
    ⟨last, hLast, hMake⟩
  rcases Word.eq_of_add hLast with ⟨rfl, -⟩
  cases hMake
  exact ⟨size, rest, ‹_›, rfl, hRest, hStop, hPages⟩

/- Two percentages make two belts, the first of whole pages. -/
theorem makes_carveFrom
    {heapSize stop start p q : Nat}
    {belts : List Belt}
    (hMakes :
      Makes (carveFrom heapSize stop 0 start [p, q]) belts) :
    ∃ middle,
      (middle - start) % Word.pageBytes = 0 ∧
        start ≤ middle ∧ middle ≤ stop ∧
        belts =
          [emptyBelt 0 start middle false,
            emptyBelt 1 middle stop false] := by
  rcases makes_carveFrom_cons hMakes with
    ⟨size, rest, -, rfl, hRest, -, hPages⟩
  rcases makes_carveFrom_cons hRest with
    ⟨last, none, -, rfl, hNone, hStop, -⟩
  cases makes_pure hNone
  have hEnd := hStop rfl
  refine
    ⟨start + size, ?_, Nat.le_add_right _ _,
      Nat.le.intro hEnd, ?_⟩
  · rw [Nat.add_sub_cancel_left]
    exact hPages nofun
  · rw [hEnd]

/- Two percentages make a pair of empty belts. -/
theorem makes_carve
    {start heapSize p q : Nat}
    {layout : Layout}
    (hMakes : Makes (carve start heapSize [p, q]) layout) :
    ∃ middle,
      (middle - start) % Word.pageBytes = 0 ∧
        start ≤ middle ∧ middle ≤ start + heapSize ∧
        start + heapSize < Word.limit ∧
        layout =
          pair (emptyBelt 0 start middle false)
            (emptyBelt 1 middle (start + heapSize) false)
            ⟨start, start + heapSize⟩ := by
  unfold carve at hMakes
  rcases makes_bind hMakes with ⟨valid, -, hMakes⟩
  split at hMakes
  · exact absurd hMakes not_makes_throw
  rcases makes_bind hMakes with ⟨stop, hStop, hMakes⟩
  rcases Word.eq_of_add (makes_lift hStop) with ⟨rfl, hLimit⟩
  rcases makes_bind hMakes with ⟨belts, hBelts, hMakes⟩
  rcases makes_carveFrom hBelts with
    ⟨middle, hPages, hLow, hHigh, rfl⟩
  cases makes_pure hMakes
  exact ⟨middle, hPages, hLow, hHigh, hLimit, rfl⟩

theorem mem_of_belt
    {layout : Layout}
    {role : Nat}
    {b : Belt}
    (hBelt : layout.belt role = .ok b) :
    b ∈ layout.belts := by
  rcases bind_eq_ok hBelt with ⟨index, -, hAt⟩
  unfold beltAt at hAt
  split at hAt
  · cases hAt
    exact Array.getElem_mem _
  · cases hAt

/- Empty belts make up a heap that is mapped. -/
theorem fits_emptyBelts
    {start middle stop : Nat}
    (hPositive : 0 < start)
    (hPage : start % Word.pageBytes = 0)
    (hPages : (middle - start) % Word.pageBytes = 0)
    (hLow : start ≤ middle)
    (hHigh : middle ≤ stop)
    (hLimit : stop + Word.pageBytes ≤ Word.limit)
    (expandable : Bool) :
    Fits (emptyBelt 0 start middle false)
      (emptyBelt 1 middle stop expandable) ⟨start, stop⟩ where
  place := Or.inl ⟨rfl, rfl, rfl, rfl, rfl⟩
  nurseryPage := hPage
  maturePage := by
    change middle % Word.pageBytes = 0
    unfold Word.pageBytes at hPage hPages ⊢
    omega
  nurseryMark := ⟨Nat.le_refl _, hLow⟩
  matureMark := ⟨Nat.le_refl _, hHigh⟩
  start_pos := hPositive
  stop_le := hLimit

end Layout

------------------------------------------------------------
-- Tables
------------------------------------------------------------

/- A new card table covers its heap. -/
theorem CardTable.covers_of_make
    {heap : Span}
    {log : Nat}
    {t : CardTable}
    (hLog : log ≤ Word.logPageBytes)
    (hMake : make heap log = .ok t) :
    Covers t heap ∧ t.logCardBytes = log := by
  unfold make at hMake
  rw [Word.shiftLeft_one
    (Nat.lt_of_le_of_lt hLog (by decide))] at hMake
  rcases bind_eq_ok hMake with ⟨cardBytes, hBytes, hMake⟩
  cases hBytes
  split at hMake
  · cases hMake
  rcases bind_eq_ok hMake with ⟨bytes, hDistance, hMake⟩
  rcases bind_eq_ok hMake with ⟨cards, hCards, hMake⟩
  cases hMake
  rcases Word.eq_of_distance hDistance with ⟨rfl, -⟩
  cases Word.eq_of_entries hCards
  exact ⟨⟨rfl, hLog, Array.size_replicate⟩, rfl⟩

/- A new first-object table covers its heap and is exact. -/
theorem FirstObjects.covers_of_make
    {heap : Span}
    {log : Nat}
    {t : FirstObjects}
    (hLog : log ≤ Word.logPageBytes)
    (hPage : heap.start % Word.pageBytes = 0)
    (hLimit : heap.stop + Word.pageBytes ≤ Word.limit)
    (hMake : make heap log = .ok t)
    (sizeOf : Nat → Nat) :
    Covers t heap ∧ t.logCardBytes = log ∧
      Exact t sizeOf [] := by
  rcases make_eq_ok_iff.mp hMake with ⟨-, -, -, rfl⟩
  refine
    ⟨⟨rfl, hLog, Array.size_replicate, hPage, hLimit⟩, rfl, ?_⟩
  constructor
  · intro _ _ object hMem
    exact absurd hMem List.not_mem_nil
  · intro card _ _
    exact entry_blank card

------------------------------------------------------------
-- Heaps
------------------------------------------------------------

namespace Heap

variable {placement : Placement}
variable {registers : Nat}
variable {config : HeapConfig}
variable {h : Heap}

/- What holds of a configuration that is valid. -/
theorem valid_config
    (hValid : config.validate = .ok ()) :
    ∃ p q,
      config.beltPercentages = [p, q] ∧
        config.logCardBytes ≤ Word.logPageBytes := by
  unfold HeapConfig.validate at hValid
  split at hValid
  · cases hValid
  rename_i hTwo
  split at hValid
  · cases hValid
  split at hValid
  · cases hValid
  rename_i hLog
  rw [Decidable.not_not] at hTwo
  rcases List.length_eq_two.mp hTwo with ⟨p, q, hBoth⟩
  refine ⟨p, q, hBoth, ?_⟩
  rw [Bool.not_eq_true', Bool.not_eq_false] at hLog
  unfold Options.logCardBytesValid at hLog
  rw [Bool.and_eq_true, decide_eq_true_eq,
    decide_eq_true_eq] at hLog
  exact hLog.2

/- The parts that a new heap is made of. -/
theorem parts_of_layOut
    (hMakes : Makes (layOut placement registers config) h) :
    ∃ mapping first layout cards table roots,
      config.validate = .ok () ∧
        Mapping.reserve placement.heap config.maxHeapSize =
          .ok mapping ∧
        Makes
          (Layout.carve mapping.start config.maxHeapSize
            config.beltPercentages)
          first ∧
        setExpandable first config.matureExpandable =
          .ok layout ∧
        CardTable.make layout.heap config.logCardBytes =
          .ok cards ∧
        FirstObjects.make layout.heap config.logCardBytes =
          .ok table ∧
        RootTable.make config.rootCapacity = .ok roots ∧
        h =
          {
            config, placement, layout, cards, roots
            memory := mapping.memory
            firstObjects := table
            registers := Array.replicate registers 0
            info :=
              {
                rootsAddress := placement.roots
                rootsCapacity := config.rootCapacity
              }
            runtimeRegions := []
            outOfMemory := false
            stats := {}
          } := by
  unfold layOut at hMakes
  cases hValid : config.validate with
  | error e =>
      rw [hValid] at hMakes
      rcases makes_bind hMakes with ⟨_, hThrow, -⟩
      exact absurd hThrow not_makes_throw
  | ok _ =>
      rw [hValid] at hMakes
      cases hReserve :
          Mapping.reserve placement.heap config.maxHeapSize with
      | error e =>
          rw [hReserve] at hMakes
          rcases makes_bind hMakes with ⟨_, hThrow, -⟩
          exact absurd hThrow not_makes_throw
      | ok mapping =>
          rw [hReserve] at hMakes
          rcases makes_bind hMakes with ⟨_, hPure, hMakes⟩
          cases makes_pure hPure
          rcases makes_bind hMakes with ⟨result, hRun, hMakes⟩
          have hCarve := makes_lift hRun
          cases result with
          | error cause =>
              rcases makes_bind hMakes with ⟨_, hThrow, -⟩
              exact absurd hThrow not_makes_throw
          | ok first =>
              rcases makes_bind hMakes with ⟨_, hPure, hMakes⟩
              cases makes_pure hPure
              rcases makes_bind hMakes with
                ⟨layout, hLayout, hMakes⟩
              rcases makes_bind hMakes with
                ⟨cards, hCards, hMakes⟩
              rcases makes_bind hMakes with
                ⟨table, hTable, hMakes⟩
              rcases makes_bind hMakes with
                ⟨roots, hRoots, hMakes⟩
              exact
                ⟨mapping, first, layout, cards, table, roots,
                  rfl, rfl, hCarve, makes_lift hLayout,
                  makes_lift hCards, makes_lift hTable,
                  makes_lift hRoots, (makes_pure hMakes).symm⟩

/-
  A new heap has run no collection, has room for all records
  that observers look at, and has used no entry of its root
  table.
-/
theorem unused_of_layOut
    (hMakes : Makes (layOut placement registers config) h) :
    h.info.epochs = {} ∧ h.stats = {} ∧
      h.info.records.size = Limits.inspectableRegions ∧
      h.roots.Tidy := by
  rcases parts_of_layOut hMakes with
    ⟨_, _, _, _, _, roots, -, -, -, -, -, -, hRoots, rfl⟩
  rcases bind_eq_ok hRoots with ⟨count, -, hEntries⟩
  cases hEntries
  refine ⟨rfl, rfl, Array.size_replicate, ?_, nofun⟩
  intro handle _
  rw [Array.getD_eq_getD_getElem?, Array.getElem?_replicate]
  split <;> rfl

/- The memory of a mapping is as long as was asked for. -/
theorem reserved
    {size : Nat}
    {mapping : Mapping}
    (hReserve :
      Mapping.reserve placement.heap size = .ok mapping) :
    mapping.start = placement.heap ∧ mapping.memory = {} ∧
      Mapping.roundedSize size ≠ 0 := by
  unfold Mapping.reserve at hReserve
  dsimp only at hReserve
  split at hReserve
  · cases hReserve
  split at hReserve
  · cases hReserve
  · cases hReserve
    exact ⟨rfl, rfl, ‹_›⟩

/- A new heap is sound.  It has neither objects nor roots. -/
theorem sound_of_layOut
    (hMapped : placement.Mapped config.maxHeapSize)
    (hMakes : Makes (layOut placement registers config) h)
    (rt : Runtime) :
    ∃ nursery mature, Sound rt h nursery mature [] [] := by
  rcases parts_of_layOut hMakes with
    ⟨mapping, first, layout, cards, table, roots, hValid,
      hReserve, hCarve, hLayout, hCards, hTable, hRoots, rfl⟩
  rcases valid_config hValid with ⟨p, q, hBoth, hLog⟩
  rcases reserved hReserve with ⟨hStart, hMemory, hSome⟩
  rw [hStart, hBoth] at hCarve
  rcases Layout.makes_carve hCarve with
    ⟨middle, hPages, hLow, hHigh, hLimit, rfl⟩
  have hStop := hMapped.stop_le hSome hLimit
  have hFits :=
    Layout.fits_emptyBelts hMapped.positive hMapped.page hPages
      hLow hHigh hStop
  have hPair :
      layout =
        Layout.pair
          (Layout.emptyBelt 0 placement.heap middle false)
          (Layout.emptyBelt 1 middle
            (placement.heap + config.maxHeapSize)
            config.matureExpandable)
          ⟨placement.heap,
            placement.heap + config.maxHeapSize⟩ := by
    unfold setExpandable at hLayout
    rw [Layout.belt_mature_pair (hFits false)] at hLayout
    cases hLayout
    exact Layout.pair_setBelt_mature (hFits false) rfl
  subst hPair
  rcases CardTable.covers_of_make hLog hCards with
    ⟨hCardsCover, hCardsLog⟩
  rcases FirstObjects.covers_of_make hLog hMapped.page hStop
      hTable (Object.size mapping.memory) with
    ⟨hTableCovers, hTableLog, hExact⟩
  rcases bind_eq_ok hRoots with ⟨count, -, hEntries⟩
  cases hEntries
  have hZero : ∀ a, mapping.memory.byte a = 0 := by
    intro a
    rw [hMemory]
    exact Std.HashMap.getD_empty
  refine
    ⟨_, _,
      ⟨Shape.of_pair rfl (hFits _) hCardsCover hTableCovers
          (hTableLog.trans hCardsLog.symm)
          (fun _ hr => absurd hr List.not_mem_nil),
        Object.Tiles.nil, Object.Tiles.nil,
        fun a _ _ => hZero a, fun a _ _ => hZero a,
        fun _ hMem => absurd hMem List.not_mem_nil, ?_,
        fun _ hMem => absurd hMem List.not_mem_nil, hExact⟩⟩
  intro s _
  left
  cases s with
  | entry k =>
      change (Array.replicate count 0).getD k 0 = 0
      rw [Array.getD_eq_getD_getElem?, Array.getElem?_replicate]
      split <;> rfl
  | register n =>
      change (Array.replicate registers 0).getD n 0 = 0
      rw [Array.getD_eq_getD_getElem?, Array.getElem?_replicate]
      split <;> rfl
  | field a => exact Memory.load_eq_zero fun k _ => hZero _

/- A new heap is laid out first, and then published. -/
theorem published_of_create
    (hMapped : placement.Mapped config.maxHeapSize)
    (hMakes : Makes (create placement registers config) h)
    (rt : Runtime) :
    ∃ new nursery mature,
      Makes (layOut placement registers config) new ∧
        Sound rt new nursery mature [] [] ∧
        h =
          new.mapInfo
            (HeapInfo.published
              (new.regionsOf nursery mature)) := by
  unfold create at hMakes
  rcases makes_bind hMakes with ⟨heap, hLayOut, hMakes⟩
  rcases sound_of_layOut hMapped hLayOut rt with
    ⟨nursery, mature, hSound⟩
  rcases HeapM.yields_publishRegions hSound.shape
      { state := { heap } } rfl with
    ⟨after, hRun, hHeap, -⟩
  change
    HeapM.publishRegions.run.run { state := { heap } } =
      (.ok (), after) at hRun
  rw [hRun] at hMakes
  cases makes_pure hMakes
  exact ⟨heap, nursery, mature, hLayOut, hSound, hHeap⟩

/- A new heap is sound, also once it is published. -/
theorem sound_of_create
    (hMapped : placement.Mapped config.maxHeapSize)
    (hMakes : Makes (create placement registers config) h)
    (rt : Runtime) :
    ∃ nursery mature, Sound rt h nursery mature [] [] := by
  rcases published_of_create hMapped hMakes rt with
    ⟨new, nursery, mature, -, hSound, rfl⟩
  exact
    ⟨nursery, mature,
      (HeapM.sameObjects_info _).sound hSound⟩

end Heap

end BeltHeap
