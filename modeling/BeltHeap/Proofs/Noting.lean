import BeltHeap.Proofs.ObjectStarts

/-
  A first-object table over its whole life.  However objects are
  noted in a table and spans of it are forgotten, the table knows
  for each card the object that was noted last at the first byte
  of the card, unless that byte was forgotten since.

  Main declarations:
    * `FirstObjects.Operation`, `FirstObjects.performAll`
    * `FirstObjects.LastNoted`, `FirstObjects.latest`
    * `FirstObjects.Lines.setsExactly`
    * `FirstObjects.Reflects`
    * `FirstObjects.Reflects.step`, `FirstObjects.Reflects.run`
    * `FirstObjects.first_tells_last_noted`
-/

------------------------------------------------------------
-- Operations
------------------------------------------------------------

namespace BeltHeap

namespace FirstObjects

/- What is done to a table. -/
inductive Operation where
  | record (start size : Nat)
  | forget (s : Span)
deriving DecidableEq, Repr

namespace Operation

/- The bytes of the object, or those that are forgotten. -/
def span : Operation → Span
| record start size => ⟨start, start + size⟩
| forget s => s

/- Is the address one of these bytes? -/
def touches
    (op : Operation)
    (a : Nat) : Bool :=
  op.span.contains a

/- The entry that the operation gives to a card. -/
def value : Operation → Nat
| record start _ => start
| forget _ => 0

/- An object with bytes in a span, or a part of the span. -/
def Within
    (covered : Span) : Operation → Prop
| record start size =>
    0 < size ∧ covered.start ≤ start ∧
      start + size ≤ covered.stop
| forget s =>
    ∀ a, s.contains a = true → covered.contains a = true

/- An operation within a span touches nothing outside of it. -/
theorem Within.contains
    {op : Operation}
    {covered : Span}
    {a : Nat}
    (hWithin : op.Within covered)
    (hTouches : op.touches a = true) :
    covered.contains a = true := by
  cases op with
  | record start size =>
      rcases hWithin with ⟨-, hStart, hStop⟩
      have hBounds : start ≤ a ∧ a < start + size :=
        Span.contains_iff.mp hTouches
      rw [Span.contains_iff]
      omega
  | forget s => exact hWithin a hTouches

end Operation

/- The cards that an operation is about. -/
def cardsOf
    (t : FirstObjects) : Operation → Except Fault CardRun
| .record start size => t.cardsUnder start size
| .forget s => t.cardsIn s

/- Carry out one operation. -/
def perform
    (t : FirstObjects) : Operation → Except Fault FirstObjects
| .record start size => t.record start size
| .forget s => t.forget s

/- Carry out one operation after another. -/
def performAll
    (t : FirstObjects)
    (ops : List Operation) : Except Fault FirstObjects :=
  ops.foldlM perform t

/- An operation fills the cards that it is about. -/
theorem perform_eq
    {t : FirstObjects}
    {op : Operation}
    {run : CardRun}
    (hRun : t.cardsOf op = .ok run) :
    t.perform op = .ok (t.fill run op.value) := by
  have hPerform :
      t.perform op =
        t.cardsOf op >>= fun run =>
          .ok (t.fill run op.value) := by
    cases op <;> rfl
  rw [hPerform, hRun]
  rfl

------------------------------------------------------------
-- The Latest Operation
------------------------------------------------------------

/-
  The last operation at an address noted an object there: no
  later one has to do with the address.
-/
def LastNoted
    (ops : List Operation)
    (a start : Nat) : Prop :=
  ∃ before size after,
    ops = before ++ .record start size :: after ∧
      (start ≤ a ∧ a < start + size) ∧
      ∀ later ∈ after, later.touches a = false

/- The last one of the operations that touch an address. -/
def latest
    (ops : List Operation)
    (a : Nat) : Option Operation :=
  ops.reverse.find? fun op => op.touches a

/- The object of a last operation is that of the latest one. -/
theorem lastNoted_iff
    {ops : List Operation}
    {a start : Nat} :
    LastNoted ops a start ↔
      ∃ size, latest ops a = some (.record start size) := by
  unfold LastNoted latest
  simp only [List.find?_eq_some_iff_append, Bool.not_eq_true']
  constructor
  · rintro ⟨before, size, after, rfl, hIn, hAfter⟩
    refine
      ⟨size, Span.contains_iff.mpr hIn, after.reverse,
        before.reverse, by simp, fun later hLater => ?_⟩
    exact hAfter later (List.mem_reverse.mp hLater)
  · rintro ⟨size, hIn, behind, ahead, hEq, hBehind⟩
    refine
      ⟨ahead.reverse, size, behind.reverse, ?_,
        Span.contains_iff.mp hIn, fun later hLater => ?_⟩
    · simpa using congrArg List.reverse hEq
    · exact hBehind later (List.mem_reverse.mp hLater)

/- The last operation is the latest one wherever it touches. -/
theorem latest_concat
    (ops : List Operation)
    (op : Operation)
    (a : Nat) :
    latest (ops ++ [op]) a =
      if op.touches a = true then some op
      else latest ops a := by
  unfold latest
  rw [List.reverse_concat, List.find?_cons]
  cases op.touches a <;> rfl

/- The latest operation is one of the operations. -/
theorem mem_of_latest
    {ops : List Operation}
    {a : Nat}
    {op : Operation}
    (hLatest : latest ops a = some op) :
    op ∈ ops :=
  List.mem_reverse.mp (List.mem_of_find?_eq_some hLatest)

------------------------------------------------------------
-- Single Operations
------------------------------------------------------------

/-
  The cards of an operation are all in the table, and they are
  those of its cards whose first byte the operation touches.
-/
def SetsExactly
    (t : FirstObjects)
    (op : Operation) : Prop :=
  ∃ run,
    t.cardsOf op = .ok run ∧
      ∀ card,
        run.Has card ↔
          card < t.starts.size ∧
            op.touches (t.startOf card) = true

variable {t : FirstObjects}
variable {covered : Span}
variable {op : Operation}

/-
  An operation within the span of a table sets exactly its
  cards.
-/
theorem Lines.setsExactly
    (h : Lines t covered)
    (hWithin : op.Within covered) :
    t.SetsExactly op := by
  have hInside (card : Nat)
      (hTouches : op.touches (t.startOf card) = true) :
      card < t.starts.size := by
    rw [h.lt_size]
    exact (Span.contains_iff.mp (hWithin.contains hTouches)).2
  suffices hCards :
      ∃ run,
        t.cardsOf op = .ok run ∧
          ∀ card,
            run.Has card ↔
              op.touches (t.startOf card) = true by
    rcases hCards with ⟨run, hRun, hHas⟩
    refine ⟨run, hRun, fun card => ?_⟩
    rw [hHas]
    exact ⟨fun hTouches => ⟨hInside card hTouches, hTouches⟩,
      And.right⟩
  unfold Operation.touches
  simp only [Span.contains_iff]
  cases op with
  | record start size =>
      rcases hWithin with ⟨hSize, hStart, hStop⟩
      exact h.cardsUnder_spec hSize hStart hStop
  | forget s =>
      by_cases hEmpty : s.stop ≤ s.start
      · exact Lines.cardsIn_empty hEmpty
      · have hFirst :=
          Span.contains_iff.mp
            (hWithin s.start (Span.contains_iff.mpr (by omega)))
        have hLast :=
          Span.contains_iff.mp
            (hWithin (s.stop - 1)
              (Span.contains_iff.mpr (by omega)))
        exact h.cardsIn_spec hFirst.1 (by omega)

/- The entries are what the latest operations gave to them. -/
def Reflects
    (t : FirstObjects)
    (ops : List Operation) : Prop :=
  ∀ card, card < t.starts.size →
    t.entry card =
      (latest ops (t.startOf card)).elim 0 Operation.value

/- A blank table reflects that nothing was done. -/
theorem reflects_blank
    (covered : Span)
    (log : Nat) :
    Reflects (blank covered log) [] :=
  fun card _ => entry_blank card

/- A table reflects its operations after one more of them. -/
theorem Reflects.step
    {done : List Operation}
    (h : Reflects t done)
    (hLines : Lines t covered)
    (hWithin : op.Within covered) :
    ∃ u,
      t.perform op = .ok u ∧ Reflects u (done ++ [op]) ∧
        Lines u covered ∧ u.logCardBytes = t.logCardBytes := by
  rcases hLines.setsExactly hWithin with ⟨run, hRun, hHas⟩
  refine
    ⟨t.fill run op.value, perform_eq hRun, ?_,
      hLines.fill run op.value, rfl⟩
  intro card hCard
  rw [size_fill] at hCard
  change
    _ = (latest _ (t.startOf card)).elim 0 Operation.value
  rw [latest_concat]
  by_cases hTouches : op.touches (t.startOf card) = true
  · rw [if_pos hTouches]
    exact (entry_fill t run op.value hCard).1
      ((hHas card).mpr ⟨hCard, hTouches⟩)
  · rw [if_neg hTouches,
      (entry_fill t run op.value hCard).2 fun hMem =>
        hTouches ((hHas card).mp hMem).2]
    exact h card hCard

/- Any number of operations within the span of a table. -/
theorem Reflects.run
    {done ops : List Operation}
    (h : Reflects t done)
    (hLines : Lines t covered)
    (hWithin : ∀ op ∈ ops, op.Within covered) :
    ∃ u,
      t.performAll ops = .ok u ∧ Reflects u (done ++ ops) ∧
        Lines u covered ∧ u.logCardBytes = t.logCardBytes := by
  induction ops generalizing t done with
  | nil =>
      rw [List.append_nil]
      exact ⟨t, rfl, h, hLines, rfl⟩
  | cons op ops ih =>
      rw [List.forall_mem_cons] at hWithin
      rcases h.step hLines hWithin.1 with
        ⟨v, hPerform, hStep, hStepLines, hStepLog⟩
      rcases ih hStep hStepLines hWithin.2 with
        ⟨u, hAll, hRun, hRunLines, hRunLog⟩
      rw [List.append_assoc, List.singleton_append] at hRun
      refine
        ⟨u, ?_, hRun, hRunLines, hRunLog.trans hStepLog⟩
      unfold performAll
      rw [List.foldlM_cons, hPerform]
      exact hAll

/- What a table tells that reflects what was done to it. -/
theorem Reflects.first_iff
    {ops : List Operation}
    {card : Nat}
    (h : Reflects t ops)
    (hWithin : ∀ op ∈ ops, op.Within covered)
    (hStart : 0 < covered.start)
    (hCard : card < t.starts.size) :
    (∀ s, t.first card = .ok (some s) ↔
        LastNoted ops (t.startOf card) s) ∧
      (t.first card = .ok none ↔
        ∀ s, ¬ LastNoted ops (t.startOf card) s) := by
  simp only [lastNoted_iff]
  rw [first_eq t hCard, h card hCard]
  cases hLatest : latest ops (t.startOf card) with
  | none => simp
  | some op =>
      cases op with
      | forget s => simp [Operation.value]
      | record start size =>
          have hObject := hWithin _ (mem_of_latest hLatest)
          have hPos : start ≠ 0 :=
            Nat.ne_of_gt (Nat.lt_of_lt_of_le hStart hObject.2.1)
          simp [Operation.value, hPos]

------------------------------------------------------------
-- Tables
------------------------------------------------------------

/-
  The cards of a blank table line a span that starts at a
  multiple of their size.
-/
theorem lines_blank
    {log : Nat}
    (hStart : 0 < covered.start)
    (hOrder : covered.start ≤ covered.stop)
    (hStop : covered.stop ≤ Word.signedLimit)
    (hAligned : covered.start % 2 ^ log = 0) :
    Lines (blank covered log) covered := by
  have hLe : 2 ^ log ≤ Word.signedLimit :=
    Nat.le_trans
      (Nat.le_of_dvd hStart (Nat.dvd_of_mod_eq_zero hAligned))
      (Nat.le_trans hOrder hStop)
  have hBytes : (blank covered log).cardBytes = 2 ^ log :=
    cardBytes_eq _
  exact
    { start := rfl
      log := by
        change log < 64
        rw [← Nat.pow_lt_pow_iff_right (a := 2) (by decide)]
        exact Nat.lt_of_le_of_lt hLe (by decide)
      size := Array.size_replicate
      aligned := by rw [hBytes]; exact hAligned
      limit := by
        rw [hBytes]
        unfold Word.signedLimit at hLe hStop
        unfold Word.limit
        omega }

/-
  A table for a span below half of all addresses, with cards of
  a size that the start of the span is a multiple of.  It can be
  made if its entries take less than half of all addresses.  Any
  objects with bytes in the span can then be noted, and any parts
  of the span forgotten.  Each time the table sets the entries of
  the cards whose first byte is concerned, and of no others, in
  or outside of the table.  After that the table tells of each
  card the object that was noted last at its first byte, unless
  that byte was forgotten since.
-/
theorem first_tells_last_noted
    {covered : Span}
    {log : Nat}
    (hStart : 0 < covered.start)
    (hOrder : covered.start ≤ covered.stop)
    (hStop : covered.stop ≤ Word.signedLimit)
    (hAligned : covered.start % 2 ^ log = 0) :
    ((∃ t, make covered log = .ok t) ↔
        CardTable.cardsFor covered.length (2 ^ log) *
          Word.bytes < Word.signedLimit) ∧
      ∀ t, make covered log = .ok t →
        ∀ ops : List Operation,
          (∀ op ∈ ops, op.Within covered) →
            (∀ before op after,
              ops = before ++ op :: after →
                ∃ v,
                  t.performAll before = .ok v ∧
                    v.SetsExactly op) ∧
            ∃ u,
              t.performAll ops = .ok u ∧
                ∀ card a,
                  a = covered.start + card * 2 ^ log →
                    (card < u.starts.size ↔
                      a < covered.stop) ∧
                    (a < covered.stop →
                      (∀ s,
                        u.first card = .ok (some s) ↔
                          LastNoted ops a s) ∧
                      (u.first card = .ok none ↔
                        ∀ s, ¬ LastNoted ops a s)) := by
  have hLines := lines_blank hStart hOrder hStop hAligned
  rw [← Nat.one_shiftLeft]
  constructor
  · simp only [make_eq_ok_iff]
    constructor
    · rintro ⟨t, -, -, hFits, -⟩
      exact hFits
    · intro hFits
      exact ⟨_, hOrder, hLines.log, hFits, rfl⟩
  intro t hMake ops hWithin
  rcases make_eq_ok_iff.mp hMake with ⟨-, -, -, rfl⟩
  have hBlank := reflects_blank covered log
  constructor
  · rintro before op after rfl
    have hBefore : ∀ op ∈ before, op.Within covered :=
      fun op hOp => hWithin op (List.mem_append_left _ hOp)
    rcases hBlank.run hLines hBefore with
      ⟨v, hPerform, -, hLeft, -⟩
    refine ⟨v, hPerform, hLeft.setsExactly (hWithin op ?_)⟩
    exact List.mem_append_right _ List.mem_cons_self
  · rcases hBlank.run hLines hWithin with
      ⟨u, hPerform, hReflects, hLeft, hLog⟩
    refine ⟨u, hPerform, ?_⟩
    rintro card a rfl
    have hCardStart :
        covered.start + card * 1 <<< log = u.startOf card := by
      unfold startOf cardBytes
      rw [hLeft.start, hLog]
      rfl
    rw [hCardStart]
    refine ⟨hLeft.lt_size, fun hLow => ?_⟩
    exact
      hReflects.first_iff hWithin hStart (hLeft.lt_size.mpr hLow)

/- An object on three cards is noted, then a part forgotten. -/
def notedInPart : List Operation :=
  [.record 0x40000000 0x500, .forget ⟨0x40000100, 0x40000400⟩]

/-
  Only the card that starts in the forgotten part has lost the
  object.  The one after it, which the span cuts short, keeps it.
-/
theorem first_tells_last_noted_in_part :
    ∃ t u,
      make ⟨0x40000000, 0x40000500⟩ 9 = .ok t ∧
        t.performAll notedInPart = .ok u ∧
        u.first 0 = .ok (some 0x40000000) ∧
        u.first 1 = .ok none ∧
        u.first 2 = .ok (some 0x40000000) := by
  have hTable :=
    @first_tells_last_noted ⟨0x40000000, 0x40000500⟩ 9
      (by decide) (by decide) (by decide) (by decide)
  rcases hTable.1.mpr (by decide) with ⟨t, hMake⟩
  have hWithin :
      ∀ op ∈ notedInPart,
        op.Within ⟨0x40000000, 0x40000500⟩ := by
    unfold notedInPart
    rw [List.forall_mem_cons, List.forall_mem_singleton]
    constructor
    · change 0 < 0x500 ∧ _ ≤ _ ∧ _ ≤ _
      decide
    · intro a ha
      rw [Span.contains_iff] at ha ⊢
      simp only at ha ⊢
      omega
  rcases hTable.2 t hMake notedInPart hWithin with
    ⟨-, u, hPerform, hCards⟩
  have hNoted (a : Nat)
      (hLatest :
        latest notedInPart a =
          some (.record 0x40000000 0x500)) :
      LastNoted notedInPart a 0x40000000 :=
    lastNoted_iff.mpr ⟨0x500, hLatest⟩
  have hForgotten (s : Nat) :
      ¬ LastNoted notedInPart 0x40000200 s := by
    have hLatest :
        latest notedInPart 0x40000200 =
          some (.forget ⟨0x40000100, 0x40000400⟩) := by
      decide
    rw [lastNoted_iff, hLatest]
    rintro ⟨size, hSize⟩
    cases hSize
  have hFirst := (hCards 0 0x40000000 rfl).2 (by decide)
  have hSecond := (hCards 1 0x40000200 rfl).2 (by decide)
  have hThird := (hCards 2 0x40000400 rfl).2 (by decide)
  exact
    ⟨t, u, hMake, hPerform,
      (hFirst.1 _).mpr (hNoted _ (by decide)),
      hSecond.2.mpr hForgotten,
      (hThird.1 _).mpr (hNoted _ (by decide))⟩

end FirstObjects

end BeltHeap
