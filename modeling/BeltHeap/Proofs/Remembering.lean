import Mathlib.Data.List.Sort
import BeltHeap.Collection.Remembered
import BeltHeap.Proofs.Soundness

/-
  The scan of the dirty cards of a heap finds exactly the slots
  of mature objects on dirty cards, each of them once, and never
  a card without an object.  No matter which cards are dirty, it
  relies on the mature belt and on the first-object table only.

  Main declarations:
    * `Runtime.ListsFields.flatMap`
    * `Collection.walk_eq`
    * `Heap.Scannable`
    * `Heap.Scannable.first_covered`
    * `Heap.Scannable.first_uncovered`
    * `Heap.Scannable.slotsOnCard_eq`
    * `Heap.Scannable.flatMap_dirtyCards`
    * `Heap.Scannable.quiet_rememberedSlots`
-/

------------------------------------------------------------
-- Walking Objects
------------------------------------------------------------

namespace BeltHeap

/- The standard order of fields is one of their orders. -/
theorem Runtime.Standard.listsFields
    {rt : Runtime}
    (hStandard : rt.Standard) :
    rt.ListsFields := by
  intro m object _
  rw [hStandard.fields]

/- The slots of all objects are listed in some order. -/
theorem Runtime.ListsFields.flatMap
    {rt : Runtime}
    (hLists : rt.ListsFields)
    {m : Memory}
    {objects : List Nat}
    (hProper : ∀ o ∈ objects, Object.Proper m o) :
    (objects.flatMap (rt.fields m)).Perm
      (objects.flatMap (Object.fields m)) :=
  List.Perm.flatMap_left objects fun o ho =>
    hLists m o (hProper o ho)

namespace Collection

/-
  A walk over a tiling finds its slots in the window, if it does
  not end before the window does.
-/
theorem walk_eq
    {rt : Runtime}
    (hLists : rt.ListsFields)
    {m : Memory}
    {window : Span}
    (limit : Nat)
    {cursor stop : Nat}
    {os : List Nat}
    (hTiles : Object.Tiles m stop cursor os)
    (hWord : stop < Word.limit)
    (hStop : limit ≤ stop)
    (hWindow :
      ∀ a, a < stop → window.contains a = true → a < limit) :
    walk rt m window limit cursor =
      .ok ((os.flatMap (rt.fields m)).filter
        window.contains) := by
  induction hTiles with
  | nil =>
      rw [walk, dif_neg (by omega)]
      rfl
  | @cons object rest hProper hRest ih =>
      have hHeader := hProper.header_le
      have hLe := hRest.le
      rw [walk]
      by_cases hLimit : object < limit
      · rw [dif_pos hLimit, dif_neg (by omega),
          if_neg (by omega), ih, List.flatMap_cons,
          List.filter_append]
        rfl
      · rw [dif_neg hLimit]
        have hTiles := Object.Tiles.cons hProper hRest
        have hNone :
            ((object :: rest).flatMap
              (rt.fields m)).filter window.contains = [] := by
          rw [List.filter_eq_nil_iff]
          intro a ha hIn
          have hSlots :=
            hLists.flatMap fun o ho => (hTiles.mem ho).1
          have hBounds :=
            hTiles.slot_bounds (hSlots.mem_iff.mp ha)
          have hBelow := hWindow a hBounds.2 hIn
          omega
        rw [hNone]

end Collection

------------------------------------------------------------
-- Single Cards
------------------------------------------------------------

namespace Heap

/- The addresses of a card. -/
def cardSpan
    (h : Heap)
    (card : Nat) : Span :=
  ⟨h.firstObjects.startOf card,
    h.firstObjects.startOf card + h.firstObjects.cardBytes⟩

/- The slots of mature objects. -/
def matureSlots
    (h : Heap)
    (old : List Nat) : List Nat :=
  old.flatMap (Object.fields h.memory)

/- The slots of mature objects, in the order of the runtime. -/
def listedSlots
    (rt : Runtime)
    (h : Heap)
    (old : List Nat) : List Nat :=
  old.flatMap (rt.fields h.memory)

/-
  What the scan of cards relies on: the shape of the heap, the
  objects of its mature belt, and that the first-object table is
  exact.
-/
structure Scannable
    (h : Heap)
    (nursery mature : Belt)
    (old : List Nat) : Prop where
  shape : Shape h nursery mature
  oldTiles :
    Object.Tiles h.memory mature.mark mature.start old
  firsts :
    h.firstObjects.Exact (Object.size h.memory) old

/- The cards of a sound heap can be scanned. -/
theorem Sound.scannable
    {rt : Runtime}
    {h : Heap}
    {nursery mature : Belt}
    {old young : List Nat}
    (hSound : Sound rt h nursery mature old young) :
    Scannable h nursery mature old :=
  ⟨hSound.shape, hSound.oldTiles, hSound.firsts⟩

/- The standard order of slots is the one of the fields. -/
theorem listedSlots_eq
    {rt : Runtime}
    (hStandard : rt.Standard)
    (h : Heap)
    (old : List Nat) :
    h.listedSlots rt old = h.matureSlots old := by
  unfold listedSlots matureSlots
  rw [hStandard.fields]

namespace Scannable

variable {rt : Runtime}
variable {h : Heap}
variable {nursery mature : Belt}
variable {old : List Nat}
variable {card : Nat}

/- Both tables have cards of the same size. -/
theorem cardBytes_eq
    (hScan : Scannable h nursery mature old) :
    h.cards.cardBytes = h.firstObjects.cardBytes := by
  unfold CardTable.cardBytes FirstObjects.cardBytes
  rw [hScan.shape.sameCards]

/- Both tables have the same number of cards. -/
theorem size_eq
    (hScan : Scannable h nursery mature old) :
    h.cards.size = h.firstObjects.starts.size := by
  rw [hScan.shape.cards.size, hScan.shape.starts.size,
    hScan.cardBytes_eq]

/- Where a card starts, by either table. -/
theorem cardStart_eq
    (hScan : Scannable h nursery mature old)
    (hCard : card < h.cards.size) :
    h.cards.cardStart card =
      .ok (h.firstObjects.startOf card) := by
  have hLimit := hScan.shape.fits.stop_le
  rw [hScan.shape.cards.cardStart_eq (by omega) hCard,
    hScan.cardBytes_eq]
  unfold FirstObjects.startOf
  rw [hScan.shape.starts.start]

/-
  The object noted for a card whose first byte is in the used
  part of the mature belt covers that byte.
-/
theorem first_covered
    (hScan : Scannable h nursery mature old)
    (hCard : card < h.firstObjects.starts.size)
    (hLow : mature.start ≤ h.firstObjects.startOf card)
    (hHigh : h.firstObjects.startOf card < mature.mark) :
    ∃ object ∈ old,
      h.firstObjects.first card = .ok (some object) ∧
        object ≤ h.firstObjects.startOf card ∧
        h.firstObjects.startOf card <
          object + Object.size h.memory object := by
  rcases hScan.oldTiles.exists_cover hLow hHigh with
    ⟨object, hObject, hStart, hStop⟩
  have hEntry :=
    hScan.firsts.covered card hCard object hObject hStart hStop
  have hNull : object ≠ 0 := by
    have hPos := hScan.shape.fits.start_pos
    have hBounds := hScan.shape.fits.bounds
    have hIn := hScan.oldTiles.mem hObject
    omega
  refine ⟨object, hObject, ?_, hStart, hStop⟩
  rw [FirstObjects.first_eq _ hCard, hEntry, if_neg hNull]

/- No object is noted for any other card. -/
theorem first_uncovered
    (hScan : Scannable h nursery mature old)
    (hCard : card < h.firstObjects.starts.size)
    (hOut :
      ¬ (mature.start ≤ h.firstObjects.startOf card ∧
        h.firstObjects.startOf card < mature.mark)) :
    h.firstObjects.first card = .ok none := by
  have hEntry : h.firstObjects.entry card = 0 := by
    apply hScan.firsts.uncovered card hCard
    intro object hObject hCover
    have hIn := hScan.oldTiles.mem hObject
    omega
  rw [FirstObjects.first_eq _ hCard, hEntry, if_pos rfl]

/- Objects that end before a card or start behind it have no
   slots on it. -/
theorem slots_off_card
    (hLists : rt.ListsFields)
    {start stop : Nat}
    {os : List Nat}
    (hTiles : Object.Tiles h.memory stop start os)
    (hOff :
      stop ≤ h.firstObjects.startOf card ∨
        h.firstObjects.startOf card +
          h.firstObjects.cardBytes ≤ start) :
    (os.flatMap (rt.fields h.memory)).filter
      (h.cardSpan card).contains = [] := by
  rw [List.filter_eq_nil_iff]
  intro a ha hIn
  have hSlots := hLists.flatMap fun o ho => (hTiles.mem ho).1
  have hSlot := hTiles.slot_bounds (hSlots.mem_iff.mp ha)
  rw [Span.contains_iff] at hIn
  unfold cardSpan at hIn
  simp only at hIn
  omega

/-
  A card is either outside of the used part of the mature belt,
  and then holds no slot of it, or is walked from an object.
-/
theorem slotsOnCard_eq
    (hScan : Scannable h nursery mature old)
    (hLists : rt.ListsFields)
    (hCard : card < h.cards.size) :
    h.slotsOnCard rt card = .ok .unused ∧
        (h.listedSlots rt old).filter
          (h.cardSpan card).contains = [] ∨
      h.slotsOnCard rt card =
        .ok (.slots
          ((h.listedSlots rt old).filter
            (h.cardSpan card).contains)) := by
  have hStarts := hScan.shape.starts
  have hLimit := hScan.shape.fits.stop_le
  have hMark := hScan.shape.fits.matureMark
  have hBounds := hScan.shape.fits.bounds
  have hCardBytes := hScan.shape.cards.cardBytes_le
  have hCard' := hCard
  rw [hScan.size_eq] at hCard'
  have hInHeap := hStarts.lines.lt_size.mp hCard'
  unfold slotsOnCard Word.add
  rw [hScan.cardStart_eq hCard, hScan.cardBytes_eq,
    hScan.shape.mature_eq]
  rw [hScan.cardBytes_eq] at hCardBytes
  simp only [bind, Except.bind]
  rw [if_pos (by omega)]
  simp only
  have hUsed :
      (mature.usedSpan.stop ≤ h.firstObjects.startOf card ||
          h.firstObjects.startOf card +
            h.firstObjects.cardBytes ≤
              mature.usedSpan.start) = true ↔
        mature.mark ≤ h.firstObjects.startOf card ∨
          h.firstObjects.startOf card +
            h.firstObjects.cardBytes ≤ mature.start := by
    rw [Bool.or_eq_true, decide_eq_true_eq, decide_eq_true_eq]
    exact Iff.rfl
  by_cases hUnused :
      (mature.mark ≤ h.firstObjects.startOf card ∨
        h.firstObjects.startOf card +
          h.firstObjects.cardBytes ≤ mature.start)
  · left
    constructor
    · rw [if_pos (hUsed.mpr hUnused)]
      rfl
    · exact slots_off_card hLists hScan.oldTiles hUnused
  · right
    rw [if_neg (mt hUsed.mp hUnused)]
    have hLow : mature.start ≤ h.firstObjects.startOf card := by
      apply Word.le_of_lt_add _ (hStarts.lines.startOf_mod card)
      · omega
      · rw [← hScan.cardBytes_eq]
        exact
          hScan.shape.cards.page_mod hScan.shape.fits.maturePage
    rcases hScan.first_covered hCard' hLow (by omega) with
      ⟨object, hObject, hFirst, hStart, hStop⟩
    rcases hScan.oldTiles.split hObject with
      ⟨before, behind, hEq, hBefore, hBehind⟩
    rw [hFirst]
    simp only
    rw [Collection.walk_eq
      hLists
      (min
        (h.firstObjects.startOf card +
          h.firstObjects.cardBytes)
        mature.usedSpan.stop)
      hBehind (by omega)
      (Nat.min_le_right _ _)]
    · unfold listedSlots
      rw [hEq, List.flatMap_append, List.filter_append,
        slots_off_card hLists hBefore (Or.inl hStart),
        List.nil_append]
      rfl
    · intro a ha hIn
      exact Nat.lt_min.mpr ⟨(Span.contains_iff.mp hIn).2, ha⟩

/- No card is without the object that its scan starts from. -/
theorem slotsOnCard_ne_noObject
    (hScan : Scannable h nursery mature old)
    (hLists : rt.ListsFields)
    (hCard : card < h.cards.size)
    (start : Nat) :
    h.slotsOnCard rt card ≠ .ok (.noObject start) := by
  rcases hScan.slotsOnCard_eq hLists hCard with
    ⟨hUnused, -⟩ | hSlots
  · rw [hUnused]
    intro hEq
    cases hEq
  · rw [hSlots]
    intro hEq
    cases hEq

------------------------------------------------------------
-- All Dirty Cards
------------------------------------------------------------

/- The slots on some cards are found card by card. -/
theorem quiet_slotsOnCards
    (hScan : Scannable h nursery mature old)
    (hLists : rt.ListsFields)
    {cards : List Nat}
    (hCards : ∀ card ∈ cards, card < h.cards.size) :
    HeapM.Quiet (HeapM.slotsOnCards rt cards) h
      (cards.flatMap fun card =>
        (h.listedSlots rt old).filter
          (h.cardSpan card).contains)
      h := by
  induction cards with
  | nil => exact HeapM.quiet_pure _
  | cons card cards ih =>
      have hRest := ih fun c hc =>
        hCards c (List.mem_cons_of_mem _ hc)
      have hCard := hCards card List.mem_cons_self
      unfold HeapM.slotsOnCards
      apply HeapM.quiet_read
      rw [List.flatMap_cons]
      rcases hScan.slotsOnCard_eq hLists hCard with
        ⟨hUnused, hNone⟩ | hSlots
      · refine HeapM.quiet_computed hUnused ?_
        refine HeapM.quiet_bind (HeapM.quiet_pure []) ?_
        refine HeapM.quiet_bind hRest ?_
        rw [hNone]
        exact HeapM.quiet_pure _
      · refine HeapM.quiet_computed hSlots ?_
        refine HeapM.quiet_bind (HeapM.quiet_pure _) ?_
        exact HeapM.quiet_bind hRest (HeapM.quiet_pure _)

/- A slot lies on a dirty card when it is on one of them. -/
theorem onDirtyCard_iff_exists
    (hScan : Scannable h nursery mature old)
    {a : Nat}
    (ha : h.layout.heap.contains a = true) :
    h.cards.onDirtyCard a = true ↔
      ∃ card ∈ h.cards.dirtyCards,
        (h.cardSpan card).contains a = true := by
  have hCovers := hScan.shape.cards
  rw [CardTable.onDirtyCard_iff hCovers]
  have hSpan (card : Nat) :
      h.cards.index a = .ok card ↔
        (h.cardSpan card).contains a = true := by
    rw [hCovers.index_eq_ok_iff, and_iff_right ha,
      Span.contains_iff]
    unfold cardSpan FirstObjects.startOf
    rw [hScan.cardBytes_eq, hScan.shape.starts.start]
  constructor
  · rintro ⟨card, hIndex, hDirty⟩
    exact ⟨card, CardTable.mem_dirtyCards.mpr hDirty,
      (hSpan card).mp hIndex⟩
  · rintro ⟨card, hDirty, hIn⟩
    exact ⟨card, (hSpan card).mpr hIn,
      CardTable.mem_dirtyCards.mp hDirty⟩

/- The slots of mature objects lie in the heap. -/
theorem matureSlots_in_heap
    (hScan : Scannable h nursery mature old)
    {a : Nat}
    (ha : a ∈ h.matureSlots old) :
    h.layout.heap.contains a = true := by
  have hBounds := hScan.shape.fits.bounds
  have hMark := hScan.shape.fits.matureMark
  have hSlot := hScan.oldTiles.slot_bounds ha
  rw [Span.contains_iff]
  omega

/-
  Card by card, the slots on all dirty cards are those that a
  walk over the whole mature belt finds: both lists are in
  order and have the same members.
-/
theorem flatMap_dirtyCards
    (hScan : Scannable h nursery mature old) :
    (h.cards.dirtyCards.flatMap fun card =>
        (h.matureSlots old).filter (h.cardSpan card).contains) =
      (h.matureSlots old).filter h.cards.onDirtyCard := by
  have hSlots : (h.matureSlots old).Pairwise (· < ·) := by
    refine hScan.oldTiles.pairwise_slots.imp ?_
    intro a b hab
    unfold Word.bytes at hab
    omega
  have hCards :
      (h.cards.dirtyCards.flatMap fun card =>
        (h.matureSlots old).filter
          (h.cardSpan card).contains).Pairwise (· < ·) := by
    rw [List.pairwise_flatMap]
    refine ⟨fun card _ => hSlots.filter _, ?_⟩
    refine h.cards.pairwise_dirtyCards.imp ?_
    intro card other hLt a ha b hb
    have hMono := h.firstObjects.startOf_mono
      (Nat.succ_le_of_lt hLt)
    rw [Nat.succ_eq_add_one, FirstObjects.startOf_succ] at hMono
    have hInA := Span.contains_iff.mp (List.mem_filter.mp ha).2
    have hInB := Span.contains_iff.mp (List.mem_filter.mp hb).2
    unfold cardSpan at hInA hInB
    simp only at hInA hInB
    omega
  have hDirty :
      ((h.matureSlots old).filter
        h.cards.onDirtyCard).Pairwise (· < ·) :=
    hSlots.filter _
  refine List.Perm.eq_of_pairwise
    (fun a b _ _ hab hba => absurd hab (Nat.lt_asymm hba))
    hCards hDirty ?_
  rw [List.perm_ext_iff_of_nodup (hCards.imp Nat.ne_of_lt)
    (hDirty.imp Nat.ne_of_lt)]
  intro a
  rw [List.mem_flatMap, List.mem_filter]
  constructor
  · rintro ⟨card, hCard, ha⟩
    rcases List.mem_filter.mp ha with ⟨hSlot, hIn⟩
    refine ⟨hSlot, ?_⟩
    rw [hScan.onDirtyCard_iff_exists
      (hScan.matureSlots_in_heap hSlot)]
    exact ⟨card, hCard, hIn⟩
  · rintro ⟨hSlot, hOn⟩
    rw [hScan.onDirtyCard_iff_exists
      (hScan.matureSlots_in_heap hSlot)] at hOn
    rcases hOn with ⟨card, hCard, hIn⟩
    exact ⟨card, hCard, List.mem_filter.mpr ⟨hSlot, hIn⟩⟩

/- The slots on all dirty cards are found. -/
theorem quiet_dirtySlots
    (hScan : Scannable h nursery mature old)
    (hLists : rt.ListsFields) :
    HeapM.Quiet (HeapM.rememberedSlots rt) h
      (h.cards.dirtyCards.flatMap fun card =>
        (h.listedSlots rt old).filter
          (h.cardSpan card).contains)
      h := by
  unfold HeapM.rememberedSlots
  apply HeapM.quiet_read
  apply hScan.quiet_slotsOnCards hLists
  intro card hCard
  exact (CardTable.isDirty_eq_true_iff.mp
    (CardTable.mem_dirtyCards.mp hCard)).1

/-
  The remembered slots are the slots of mature objects on dirty
  cards, in the order of their addresses.
-/
theorem quiet_rememberedSlots
    (hScan : Scannable h nursery mature old)
    (hStandard : rt.Standard) :
    HeapM.Quiet (HeapM.rememberedSlots rt) h
      ((h.matureSlots old).filter h.cards.onDirtyCard) h := by
  rw [← hScan.flatMap_dirtyCards, ← listedSlots_eq hStandard]
  exact hScan.quiet_dirtySlots hStandard.listsFields

end Scannable

end Heap

end BeltHeap
