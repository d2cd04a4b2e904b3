import BeltHeap.FirstObjects
import BeltHeap.Proofs.Alignment
import BeltHeap.Proofs.Cards

/-
  The first-object table is exact: for each card it knows the
  object that covers the first byte of the card, and that there
  is none where no object does.

  Main declarations:
    * `FirstObjects.Covers`, `FirstObjects.Lines`
    * `FirstObjects.Lines.cardsUnder_spec`
    * `FirstObjects.Lines.cardsIn_spec`
    * `FirstObjects.Exact`
    * `FirstObjects.Exact.record`, `FirstObjects.Exact.forget`
-/

------------------------------------------------------------
-- Filling Entries
------------------------------------------------------------

namespace BeltHeap

namespace FirstObjects

/- The entry of a card; zero where the table has none. -/
def entry
    (t : FirstObjects)
    (card : Nat) : Nat :=
  t.starts.getD card 0

/- The card is one of a run. -/
def CardRun.Has
    (run : CardRun)
    (card : Nat) : Prop :=
  run.first ≤ card ∧ card < run.first + run.count

/- The card is the last one of a run or one before it. -/
theorem foldl_setIfInBounds
    (cards : List Nat)
    (starts : Array Nat)
    (value : Nat)
    {card : Nat}
    (hCard : card < starts.size) :
    (cards.foldl
        (fun starts k => starts.setIfInBounds k value)
        starts).size = starts.size ∧
      (cards.foldl
          (fun starts k => starts.setIfInBounds k value)
          starts).getD card 0 =
        if card ∈ cards then value else starts.getD card 0 := by
  induction cards generalizing starts with
  | nil => exact ⟨rfl, by simp⟩
  | cons k cards ih =>
      have hSize :
          (starts.setIfInBounds k value).size = starts.size :=
        Array.size_setIfInBounds
      rcases ih (starts.setIfInBounds k value)
          (by rw [hSize]; exact hCard) with
        ⟨hRest, hEntry⟩
      rw [List.foldl_cons]
      refine ⟨hRest.trans hSize, hEntry.trans ?_⟩
      by_cases hMem : card ∈ cards
      · rw [if_pos hMem, if_pos (List.mem_cons_of_mem _ hMem)]
      · rw [if_neg hMem]
        by_cases hEq : k = card
        · subst hEq
          rw [if_pos List.mem_cons_self]
          simp [Array.getD_eq_getD_getElem?, hCard]
        · have hNot : card ∉ k :: cards := by
            simp [hMem, Ne.symm hEq]
          rw [if_neg hNot]
          simp [Array.getD_eq_getD_getElem?, hEq]

/- Filling changes the entries of a run and no others. -/
theorem entry_fill
    (t : FirstObjects)
    (run : CardRun)
    (value : Nat)
    {card : Nat}
    (hCard : card < t.starts.size) :
    (run.Has card → (t.fill run value).entry card = value) ∧
      (¬ run.Has card →
        (t.fill run value).entry card = t.entry card) := by
  have hEntry :=
    (foldl_setIfInBounds (List.range' run.first run.count)
      t.starts value hCard).2
  constructor
  · intro hHas
    exact hEntry.trans (if_pos (List.mem_range'_1.mpr hHas))
  · intro hHas
    refine hEntry.trans (if_neg fun hMem => hHas ?_)
    exact List.mem_range'_1.mp hMem

theorem size_fill
    (t : FirstObjects)
    (run : CardRun)
    (value : Nat) :
    (t.fill run value).starts.size = t.starts.size := by
  unfold fill
  simp only
  generalize List.range' run.first run.count = cards
  generalize t.starts = starts
  induction cards generalizing starts with
  | nil => rfl
  | cons k cards ih =>
      rw [List.foldl_cons, ih]
      exact Array.size_setIfInBounds

------------------------------------------------------------
-- Covering a Heap
------------------------------------------------------------

/- A table has the cards of a heap, none larger than a page. -/
structure Covers
    (t : FirstObjects)
    (heap : Span) : Prop where
  start : t.coveredStart = heap.start
  log : t.logCardBytes ≤ Word.logPageBytes
  size :
    t.starts.size = CardTable.cardsFor heap.length t.cardBytes
  page : heap.start % Word.pageBytes = 0
  limit : heap.stop + Word.pageBytes ≤ Word.limit

/-
  A table has the cards of a span, of any size that the start of
  the span is a multiple of.
-/
structure Lines
    (t : FirstObjects)
    (heap : Span) : Prop where
  start : t.coveredStart = heap.start
  log : t.logCardBytes < 64
  size :
    t.starts.size = CardTable.cardsFor heap.length t.cardBytes
  aligned : heap.start % t.cardBytes = 0
  limit : heap.stop + t.cardBytes ≤ Word.limit

/- A table that is blank: it knows of no object. -/
def blank
    (covered : Span)
    (log : Nat) : FirstObjects where
  coveredStart := covered.start
  logCardBytes := log
  starts :=
    Array.replicate
      (CardTable.cardsFor covered.length (1 <<< log)) 0

/- A table that is not too large is made, and is blank. -/
theorem make_eq_ok_iff
    {covered : Span}
    {log : Nat}
    {t : FirstObjects} :
    make covered log = .ok t ↔
      covered.start ≤ covered.stop ∧ log < 64 ∧
        CardTable.cardsFor covered.length (1 <<< log) *
            Word.bytes < Word.signedLimit ∧
        t = blank covered log := by
  unfold make Word.distance
  by_cases hOrder : covered.start ≤ covered.stop
  case neg => simp [hOrder, bind, Except.bind]
  by_cases hLog : log < 64
  case neg =>
    simp [hOrder, hLog, Word.shiftLeft, bind, Except.bind]
  rw [if_pos hOrder, Word.shiftLeft_one hLog]
  change (Word.entries _ Word.bytes >>= _) = _ ↔ _
  unfold Word.entries
  split
  · rename_i hFits
    constructor
    · intro hMake
      exact ⟨hOrder, hLog, hFits, (Except.ok.inj hMake).symm⟩
    · rintro ⟨-, -, -, rfl⟩
      rfl
  · rename_i hLarge
    constructor
    · intro hMake
      cases hMake
    · rintro ⟨-, -, hFits, -⟩
      exact absurd hFits hLarge

/- A blank table has no entry but zero. -/
theorem entry_blank
    {covered : Span}
    {log : Nat}
    (card : Nat) :
    (blank covered log).entry card = 0 := by
  unfold entry blank
  rw [Array.getD_eq_getD_getElem?, Array.getElem?_replicate]
  split <;> rfl

/- Where a card starts. -/
def startOf
    (t : FirstObjects)
    (card : Nat) : Nat :=
  t.coveredStart + card * t.cardBytes

/- The size of a card is a power of two. -/
theorem cardBytes_eq
    (t : FirstObjects) :
    t.cardBytes = 2 ^ t.logCardBytes :=
  Nat.one_shiftLeft t.logCardBytes

theorem cardBytes_pos
    (t : FirstObjects) :
    0 < t.cardBytes := by
  rw [cardBytes_eq]
  exact Nat.two_pow_pos _

/- The next card starts one card further on. -/
theorem startOf_succ
    (t : FirstObjects)
    (card : Nat) :
    t.startOf (card + 1) = t.startOf card + t.cardBytes := by
  unfold startOf
  rw [Nat.succ_mul, Nat.add_assoc]

theorem startOf_mono
    (t : FirstObjects)
    {card other : Nat}
    (hLe : card ≤ other) :
    t.startOf card ≤ t.startOf other :=
  Nat.add_le_add_left (Nat.mul_le_mul_right _ hLe) _

theorem cardStart_eq
    (t : FirstObjects)
    {card : Nat}
    (hCard : t.startOf card < Word.limit) :
    t.cardStart card = .ok (t.startOf card) := by
  unfold startOf at hCard
  have hWrap :
      Word.wrap (card * t.cardBytes) = card * t.cardBytes :=
    Nat.mod_eq_of_lt (by omega)
  unfold cardStart Word.add startOf
  rw [hWrap, if_pos hCard]

namespace Covers

variable {t : FirstObjects}
variable {heap : Span}

/- A filled table covers what it did. -/
theorem fill
    (h : Covers t heap)
    (run : CardRun)
    (value : Nat) :
    Covers (t.fill run value) heap where
  start := h.start
  log := h.log
  size := (size_fill t run value).trans h.size
  page := h.page
  limit := h.limit

/- The cards of a table that covers a heap line it. -/
theorem lines
    (h : Covers t heap) :
    Lines t heap := by
  have hDvd : t.cardBytes ∣ Word.pageBytes := by
    rw [cardBytes_eq]
    exact Nat.pow_dvd_pow 2 h.log
  have hLe := Nat.le_of_dvd (by decide) hDvd
  have hLimit := h.limit
  exact
    { start := h.start
      log := Nat.lt_of_le_of_lt h.log (by decide)
      size := h.size
      aligned :=
        Nat.mod_eq_zero_of_dvd
          (Nat.dvd_trans hDvd
            (Nat.dvd_of_mod_eq_zero h.page))
      limit := by omega }

end Covers

namespace Lines

variable {t : FirstObjects}
variable {heap : Span}

/- A filled table lines what it did. -/
theorem fill
    (h : Lines t heap)
    (run : CardRun)
    (value : Nat) :
    Lines (t.fill run value) heap where
  start := h.start
  log := h.log
  size := (size_fill t run value).trans h.size
  aligned := h.aligned
  limit := h.limit

/- The cards of a table are those that start in the heap. -/
theorem lt_size
    (h : Lines t heap)
    {card : Nat} :
    card < t.starts.size ↔ t.startOf card < heap.stop := by
  rw [h.size, CardTable.lt_cardsFor t.cardBytes_pos]
  unfold startOf Span.length
  rw [h.start]
  omega

theorem index_eq
    (h : Lines t heap)
    {a : Nat}
    (ha : heap.start ≤ a) :
    t.index a = .ok ((a - heap.start) / t.cardBytes) := by
  unfold index Word.distance
  rw [h.start, if_pos ha]
  rfl

/- A card does not start above an address that its index has. -/
theorem le_index_iff
    (h : Lines t heap)
    {a card : Nat}
    (ha : heap.start ≤ a) :
    card ≤ (a - heap.start) / t.cardBytes ↔
      t.startOf card ≤ a := by
  rw [Nat.le_div_iff_mul_le t.cardBytes_pos]
  unfold startOf
  rw [h.start]
  omega

/- The next card starts above the address. -/
theorem lt_next
    (h : Lines t heap)
    {a : Nat}
    (ha : heap.start ≤ a) :
    a < t.startOf ((a - heap.start) / t.cardBytes) +
      t.cardBytes := by
  rw [← startOf_succ, ← Nat.not_le, ← h.le_index_iff ha]
  exact Nat.not_succ_le_self _

/- A run of cards of the table. -/
theorem cardRun_spec
    (first last : Nat)
    (hLast : last < t.starts.size) :
    ∃ run, t.cardRun first last = .ok run ∧
      ∀ card, run.Has card ↔ first ≤ card ∧ card ≤ last := by
  unfold cardRun
  by_cases hEmpty : last < first
  · rw [if_pos hEmpty]
    refine ⟨_, rfl, fun card => ?_⟩
    unfold CardRun.Has
    simp only
    omega
  · rw [if_neg hEmpty, if_pos hLast]
    refine ⟨_, rfl, fun card => ?_⟩
    unfold CardRun.Has
    simp only
    omega

/-
  The first card that does not start below an address is its own
  card or the next one.
-/
theorem first_le_iff
    (h : Lines t heap)
    {a : Nat}
    (ha : heap.start ≤ a)
    (card : Nat) :
    (if t.startOf ((a - heap.start) / t.cardBytes) < a
        then (a - heap.start) / t.cardBytes + 1
        else (a - heap.start) / t.cardBytes) ≤ card ↔
      a ≤ t.startOf card := by
  have hOwn := (h.le_index_iff ha).mp (Nat.le_refl _)
  have hNext := h.lt_next ha
  rw [← startOf_succ] at hNext
  generalize (a - heap.start) / t.cardBytes = own at *
  by_cases hBelow : t.startOf own < a
  · rw [if_pos hBelow]
    constructor
    · intro hLe
      have hMono := t.startOf_mono hLe
      omega
    · intro hLe
      rw [← Nat.not_lt]
      intro hLt
      have hMono := t.startOf_mono (Nat.le_of_lt_succ hLt)
      omega
  · rw [if_neg hBelow]
    constructor
    · intro hLe
      have hMono := t.startOf_mono hLe
      omega
    · intro hLe
      rw [← Nat.not_lt]
      intro hLt
      have hMono := t.startOf_mono (Nat.succ_le_of_lt hLt)
      rw [Nat.succ_eq_add_one, startOf_succ] at hMono
      have hPos := t.cardBytes_pos
      omega

/- Every card starts at a multiple of the card size. -/
theorem startOf_mod
    (h : Lines t heap)
    (card : Nat) :
    t.startOf card % t.cardBytes = 0 := by
  unfold startOf
  rw [h.start, Nat.add_mul_mod_self_right]
  exact h.aligned

------------------------------------------------------------
-- Cards of a Span
------------------------------------------------------------

/- The cards under an object are those that start in it. -/
theorem cardsUnder_spec
    (h : Lines t heap)
    {start size : Nat}
    (hSize : 0 < size)
    (hStart : heap.start ≤ start)
    (hStop : start + size ≤ heap.stop) :
    ∃ run, t.cardsUnder start size = .ok run ∧
      ∀ card,
        run.Has card ↔
          start ≤ t.startOf card ∧
            t.startOf card < start + size := by
  have hLimit := h.limit
  have hPos := t.cardBytes_pos
  have hOwn := (h.le_index_iff hStart).mp (Nat.le_refl _)
  have hFinal (card : Nat) :
      card ≤ (start + size - 1 - heap.start) / t.cardBytes ↔
        t.startOf card ≤ start + size - 1 :=
    h.le_index_iff (by omega)
  have hLast :
      (start + size - 1 - heap.start) / t.cardBytes <
        t.starts.size := by
    have hLe := (hFinal _).mp (Nat.le_refl _)
    rw [h.lt_size]
    omega
  rcases cardRun_spec (t := t)
      (if t.startOf ((start - heap.start) / t.cardBytes) < start
        then (start - heap.start) / t.cardBytes + 1
        else (start - heap.start) / t.cardBytes)
      _ hLast with
    ⟨run, hRun, hHas⟩
  refine ⟨run, ?_, ?_⟩
  · unfold cardsUnder Word.add Word.sub
    rw [if_neg (by omega), h.index_eq hStart,
      if_pos (by omega)]
    simp only [bind, Except.bind]
    rw [t.cardStart_eq (by omega), if_pos (by omega)]
    simp only
    rw [h.index_eq (by omega)]
    exact hRun
  · intro card
    rw [hHas, h.first_le_iff hStart, hFinal]
    omega

/- An empty span has no cards, wherever it is. -/
theorem cardsIn_empty
    {s : Span}
    (hEmpty : s.stop ≤ s.start) :
    ∃ run, t.cardsIn s = .ok run ∧
      ∀ card,
        run.Has card ↔
          s.start ≤ t.startOf card ∧
            t.startOf card < s.stop := by
  unfold cardsIn
  rw [if_pos hEmpty]
  refine ⟨_, rfl, fun card => ?_⟩
  unfold CardRun.Has
  simp only
  omega

/- The cards in a span are those that start in it. -/
theorem cardsIn_spec
    (h : Lines t heap)
    {s : Span}
    (hStart : heap.start ≤ s.start)
    (hStop : s.stop ≤ heap.stop) :
    ∃ run, t.cardsIn s = .ok run ∧
      ∀ card,
        run.Has card ↔
          s.start ≤ t.startOf card ∧
            t.startOf card < s.stop := by
  by_cases hEmpty : s.stop ≤ s.start
  · exact cardsIn_empty hEmpty
  · have hLimit := h.limit
    have hPos := t.cardBytes_pos
    have hAligned := h.startOf_mod
    rcases Word.alignUp_bounds h.log (n := s.start)
        (by rw [← cardBytes_eq]; omega) with
      ⟨hUpMod, hUpLow, hUpHigh⟩
    rw [← cardBytes_eq] at hUpMod hUpLow hUpHigh
    unfold cardsIn
    rw [if_neg hEmpty]
    generalize Word.alignUp s.start t.cardBytes = up at *
    have hUp : heap.start ≤ up := by omega
    have hFirst (card : Nat) :
        (up - heap.start) / t.cardBytes ≤ card ↔
          s.start ≤ t.startOf card := by
      have hLe := h.first_le_iff hUp card
      have hNot :
          ¬ t.startOf ((up - heap.start) / t.cardBytes) < up :=
        Nat.not_lt.mpr
          (Word.le_of_lt_add hUpMod (hAligned _) (h.lt_next hUp))
      rw [if_neg hNot] at hLe
      rw [hLe]
      constructor
      · omega
      · intro hCard
        exact
          Word.le_of_lt_add hUpMod (hAligned card) (by omega)
    have hFinal (card : Nat) :
        card ≤ (s.stop - 1 - heap.start) / t.cardBytes ↔
          t.startOf card ≤ s.stop - 1 :=
      h.le_index_iff (by omega)
    have hLast :
        (s.stop - 1 - heap.start) / t.cardBytes <
          t.starts.size := by
      have hLe := (hFinal _).mp (Nat.le_refl _)
      rw [h.lt_size]
      omega
    rcases cardRun_spec (t := t)
        ((up - heap.start) / t.cardBytes) _ hLast with
      ⟨run, hRun, hHas⟩
    refine ⟨run, ?_, ?_⟩
    · unfold Word.sub
      rw [h.index_eq hUp]
      simp only [bind, Except.bind]
      rw [if_pos (by omega)]
      simp only
      rw [h.index_eq (by omega)]
      simp only
      rw [if_pos (Nat.one_le_of_lt hLast)]
      -- The last card of the table is never the smaller one.
      simp only
      rw [Nat.min_eq_left (Nat.le_sub_one_of_lt hLast)]
      exact hRun
    · intro card
      rw [hHas, hFirst, hFinal]
      omega

end Lines

------------------------------------------------------------
-- Exact Tables
------------------------------------------------------------

/-
  The entry of every card is the object that covers the first
  byte of the card, or zero where none of the objects does.
-/
structure Exact
    (t : FirstObjects)
    (sizeOf : Nat → Nat)
    (os : List Nat) : Prop where
  covered :
    ∀ card, card < t.starts.size → ∀ object ∈ os,
      object ≤ t.startOf card →
        t.startOf card < object + sizeOf object →
          t.entry card = object
  uncovered :
    ∀ card, card < t.starts.size →
      (∀ object ∈ os,
        ¬ (object ≤ t.startOf card ∧
          t.startOf card < object + sizeOf object)) →
        t.entry card = 0

namespace Exact

variable {t : FirstObjects}
variable {heap : Span}
variable {sizeOf : Nat → Nat}
variable {os : List Nat}

theorem congr
    {other : Nat → Nat}
    (h : Exact t sizeOf os)
    (hSizes : ∀ object ∈ os, other object = sizeOf object) :
    Exact t other os where
  covered := by
    intro card hCard object hObject hLow hHigh
    rw [hSizes object hObject] at hHigh
    exact h.covered card hCard object hObject hLow hHigh
  uncovered := by
    intro card hCard hNone
    apply h.uncovered card hCard
    intro object hObject
    rw [← hSizes object hObject]
    exact hNone object hObject

/- Noting one more object, apart from the others. -/
theorem record
    {run : CardRun}
    {object : Nat}
    (h : Exact t sizeOf os)
    (hHas :
      ∀ card,
        run.Has card ↔
          object ≤ t.startOf card ∧
            t.startOf card < object + sizeOf object)
    (hApart :
      ∀ p ∈ os,
        p + sizeOf p ≤ object ∨ object + sizeOf object ≤ p) :
    Exact (t.fill run object) sizeOf (os ++ [object]) := by
  constructor
  · intro card hCard p hp hLow hHigh
    rw [size_fill] at hCard
    change p ≤ t.startOf card at hLow
    change t.startOf card < p + sizeOf p at hHigh
    rcases List.mem_append.mp hp with hOld | hNew
    · have hNot : ¬ run.Has card := by
        have hDisjoint := hApart p hOld
        rw [hHas]
        omega
      rw [(entry_fill t run object hCard).2 hNot]
      exact h.covered card hCard p hOld hLow hHigh
    · rw [List.mem_singleton.mp hNew] at hLow hHigh ⊢
      exact (entry_fill t run object hCard).1
        ((hHas card).mpr ⟨hLow, hHigh⟩)
  · intro card hCard hNone
    rw [size_fill] at hCard
    change
      ∀ p ∈ os ++ [object],
        ¬ (p ≤ t.startOf card ∧ t.startOf card < p + sizeOf p)
      at hNone
    have hNot : ¬ run.Has card := by
      rw [hHas]
      exact hNone object (by simp)
    rw [(entry_fill t run object hCard).2 hNot]
    apply h.uncovered card hCard
    intro p hp
    exact hNone p (List.mem_append_left _ hp)

/- Forgetting a span in which all objects lie. -/
theorem forget
    {run : CardRun}
    {s : Span}
    (h : Exact t sizeOf os)
    (hHas :
      ∀ card,
        run.Has card ↔
          s.start ≤ t.startOf card ∧
            t.startOf card < s.stop)
    (hInside :
      ∀ object ∈ os,
        s.start ≤ object ∧ object + sizeOf object ≤ s.stop) :
    Exact (t.fill run 0) sizeOf [] := by
  constructor
  · intro card _ object hMem
    cases hMem
  intro card hCard _
  rw [size_fill] at hCard
  by_cases hRun : run.Has card
  · exact (entry_fill t run 0 hCard).1 hRun
  · rw [(entry_fill t run 0 hCard).2 hRun]
    apply h.uncovered card hCard
    intro object hObject hCover
    have hIn := hInside object hObject
    apply hRun
    rw [hHas]
    omega

end Exact

------------------------------------------------------------
-- Noting and Forgetting
------------------------------------------------------------

/- The table after an object of `size` bytes was noted. -/
def recorded
    (t : FirstObjects)
    (start size : Nat) : FirstObjects :=
  match t.cardsUnder start size with
  | .ok run => t.fill run start
  | .error _ => t

/- The table after the objects in a span were forgotten. -/
def forgotten
    (t : FirstObjects)
    (s : Span) : FirstObjects :=
  match t.cardsIn s with
  | .ok run => t.fill run 0
  | .error _ => t

/- A table in which an object is noted covers what it did. -/
theorem Covers.recorded
    {t : FirstObjects}
    {heap : Span}
    (h : Covers t heap)
    (start size : Nat) :
    Covers (t.recorded start size) heap := by
  unfold FirstObjects.recorded
  cases t.cardsUnder start size with
  | ok run => exact h.fill run start
  | error _ => exact h

theorem Covers.forgotten
    {t : FirstObjects}
    {heap : Span}
    (h : Covers t heap)
    (s : Span) :
    Covers (t.forgotten s) heap := by
  unfold FirstObjects.forgotten
  cases t.cardsIn s with
  | ok run => exact h.fill run 0
  | error _ => exact h

/- The cards keep their size. -/
theorem logCardBytes_recorded
    (t : FirstObjects)
    (start size : Nat) :
    (t.recorded start size).logCardBytes = t.logCardBytes := by
  unfold recorded
  cases t.cardsUnder start size <;> rfl

theorem logCardBytes_forgotten
    (t : FirstObjects)
    (s : Span) :
    (t.forgotten s).logCardBytes = t.logCardBytes := by
  unfold forgotten
  cases t.cardsIn s <;> rfl

namespace Exact

variable {t : FirstObjects}
variable {heap : Span}
variable {sizeOf : Nat → Nat}
variable {os : List Nat}

/- An exact table in which one more object is noted is exact. -/
theorem recorded
    {object : Nat}
    (h : Exact t sizeOf os)
    (hCovers : Covers t heap)
    (hSize : 0 < sizeOf object)
    (hStart : heap.start ≤ object)
    (hStop : object + sizeOf object ≤ heap.stop)
    (hApart :
      ∀ p ∈ os,
        p + sizeOf p ≤ object ∨ object + sizeOf object ≤ p) :
    Exact (t.recorded object (sizeOf object)) sizeOf
      (os ++ [object]) := by
  rcases hCovers.lines.cardsUnder_spec hSize hStart hStop with
    ⟨run, hRun, hHas⟩
  unfold FirstObjects.recorded
  rw [hRun]
  exact h.record hHas hApart

/- Once all objects are forgotten, the table has none. -/
theorem forgotten
    {s : Span}
    (h : Exact t sizeOf os)
    (hCovers : Covers t heap)
    (hStart : heap.start ≤ s.start)
    (hStop : s.stop ≤ heap.stop)
    (hInside :
      ∀ object ∈ os,
        s.start ≤ object ∧ object + sizeOf object ≤ s.stop) :
    Exact (t.forgotten s) sizeOf [] := by
  rcases hCovers.lines.cardsIn_spec hStart hStop with
    ⟨run, hRun, hHas⟩
  unfold FirstObjects.forgotten
  rw [hRun]
  exact h.forget hHas hInside

end Exact

/- What the table says about a card of the heap. -/
theorem first_eq
    (t : FirstObjects)
    {card : Nat}
    (hCard : card < t.starts.size) :
    t.first card =
      .ok (if t.entry card = 0 then none
        else some (t.entry card)) := by
  have hEntry : t.entry card = t.starts[card] := by
    unfold entry
    rw [Array.getD_eq_getD_getElem?,
      Array.getElem?_eq_getElem hCard]
    rfl
  unfold first
  rw [dif_pos hCard, hEntry]

end FirstObjects

end BeltHeap
