import BeltHeap.Proofs.Belts

/-
  Belts that lie one right after the other, and what may be done
  to one or two of them so that they go on to do so.

  Main declarations:
    * `Belt.Proper`, `Belt.Row`
    * `Belt.Row.mem`, `Belt.Row.exists_contains`
    * `Belt.Row.set`, `Belt.Row.move`
-/

------------------------------------------------------------
-- Rows of Belts
------------------------------------------------------------

namespace BeltHeap

namespace Belt

/- A belt has some bytes, and its mark lies among them. -/
structure Proper (b : Belt) : Prop where
  low : b.start ≤ b.mark
  high : b.mark ≤ b.stop
  filled : b.start < b.stop

/- A proper belt with an index that starts at an address. -/
structure Stands
    (b : Belt)
    (index start : Nat) : Prop where
  index : b.index = index
  start : b.start = start
  proper : b.Proper

/-
  Belts in the order of their indexes, from an index and an
  address on: each begins where the one before it ends, and the
  last one ends at `stop`.  All but the last one are made of
  whole pages.
-/
inductive Row (stop : Nat) : Nat → Nat → List Belt → Prop where
| last
    {index start : Nat}
    {b : Belt}
    (hStands : b.Stands index start)
    (hStop : b.stop = stop) :
    Row stop index start [b]
| cons
    {index start : Nat}
    {b c : Belt}
    {bs : List Belt}
    (hStands : b.Stands index start)
    (hPages : (b.stop - b.start) % Word.pageBytes = 0)
    (hRest : Row stop (index + 1) b.stop (c :: bs)) :
    Row stop index start (b :: c :: bs)

namespace Row

variable {stop index start k a : Nat}
variable {b c d e : Belt}
variable {bs : List Belt}

/- A row has some bytes. -/
theorem lt
    (hRow : Row stop index start bs) :
    start < stop := by
  induction hRow with
  | last hStands hStop =>
      rw [← hStop, ← hStands.start]
      exact hStands.proper.filled
  | cons hStands _ _ ih =>
      rw [← hStands.start]
      exact Nat.lt_trans hStands.proper.filled ih

/- The belts of a row are proper and lie between its ends. -/
theorem mem
    (hRow : Row stop index start bs)
    (hMem : b ∈ bs) :
    b.Proper ∧ start ≤ b.start ∧ b.stop ≤ stop ∧
      (b.start - start) % Word.pageBytes = 0 := by
  unfold Word.pageBytes
  induction hRow with
  | last hStands hStop =>
      cases List.mem_singleton.mp hMem
      have hStart := hStands.start
      exact ⟨hStands.proper, by omega, by omega, by omega⟩
  | cons hStands hPages hRest ih =>
      have hStart := hStands.start
      have hFilled := hStands.proper.filled
      rcases List.mem_cons.mp hMem with rfl | hMem
      · have hBehind := hRest.lt
        exact ⟨hStands.proper, by omega, by omega, by omega⟩
      · rcases ih hMem with ⟨hProper, hLow, hHigh, hWhole⟩
        unfold Word.pageBytes at hPages
        exact ⟨hProper, by omega, hHigh, by omega⟩

/- The belts of a row are indexed in their order. -/
theorem index_eq
    (hRow : Row stop index start bs)
    (hBelt : bs[k]? = some b) :
    b.index = index + k := by
  induction hRow generalizing k with
  | last hStands _ =>
      cases k with
      | zero =>
          cases hBelt
          exact hStands.index
      | succ k => cases hBelt
  | cons hStands _ _ ih =>
      cases k with
      | zero =>
          cases hBelt
          exact hStands.index
      | succ k =>
          rw [ih hBelt]
          omega

/- Each belt begins where the one before it ends. -/
theorem next
    (hRow : Row stop index start bs)
    (hBelt : bs[k]? = some b)
    (hNext : bs[k + 1]? = some c) :
    c.start = b.stop := by
  induction hRow generalizing k with
  | last _ _ => cases hNext
  | cons _ _ hRest ih =>
      cases k with
      | zero =>
          cases hBelt
          cases hNext
          cases hRest with
          | last hStands _ => exact hStands.start
          | cons hStands _ _ => exact hStands.start
      | succ k => exact ih hBelt hNext

/- An address between the ends of a row is in one of its belts. -/
theorem exists_contains
    (hRow : Row stop index start bs)
    (hLow : start ≤ a)
    (hHigh : a < stop) :
    ∃ b ∈ bs, b.contains a = true := by
  induction hRow with
  | @last _ _ b hStands hStop =>
      have hStart := hStands.start
      refine ⟨b, List.mem_cons_self, ?_⟩
      rw [contains_iff]
      omega
  | @cons _ _ b _ _ hStands _ _ ih =>
      have hStart := hStands.start
      by_cases hIn : a < b.stop
      · refine ⟨b, List.mem_cons_self, ?_⟩
        rw [contains_iff]
        omega
      · rcases ih (Nat.le_of_not_lt hIn) with
          ⟨c, hMem, hContains⟩
        exact ⟨c, List.mem_cons_of_mem _ hMem, hContains⟩

/- No address lies in two belts of a row. -/
theorem eq_of_contains
    (hRow : Row stop index start bs)
    (hMem : b ∈ bs)
    (hOther : c ∈ bs)
    (hIn : b.contains a = true)
    (hInOther : c.contains a = true) :
    b = c := by
  rw [contains_iff] at hIn hInOther
  induction hRow with
  | last _ _ =>
      rw [List.mem_singleton.mp hMem, List.mem_singleton.mp hOther]
  | cons _ _ hRest ih =>
      rcases List.mem_cons.mp hMem with rfl | hBehind <;>
        rcases List.mem_cons.mp hOther with rfl | hOtherBehind
      · rfl
      · have hLow := (hRest.mem hOtherBehind).2.1
        omega
      · have hLow := (hRest.mem hBehind).2.1
        omega
      · exact ih hBehind hOtherBehind

------------------------------------------------------------
-- Changed Rows
------------------------------------------------------------

/- A belt may be replaced by one that stands in its place. -/
theorem set
    (hRow : Row stop index start bs)
    (hBelt : bs[k]? = some b)
    (hIndex : c.index = b.index)
    (hSpan : c.span = b.span)
    (hProper : c.Proper) :
    Row stop index start (bs.set k c) := by
  have hStart : c.start = b.start := congrArg Span.start hSpan
  have hStop : c.stop = b.stop := congrArg Span.stop hSpan
  have hStands :
      ∀ {i s}, b.Stands i s → c.Stands i s := fun hStands =>
    ⟨hIndex.trans hStands.index, hStart.trans hStands.start,
      hProper⟩
  induction hRow generalizing k with
  | last hFirst hEnd =>
      cases k with
      | zero =>
          cases hBelt
          exact .last (hStands hFirst) (hStop.trans hEnd)
      | succ k => cases hBelt
  | @cons _ _ f g rest hFirst hPages hRest ih =>
      cases k with
      | zero =>
          cases hBelt
          rw [← hStop] at hRest hPages
          rw [← hStart] at hPages
          exact .cons (hStands hFirst) hPages hRest
      | succ k =>
          have hChanged := ih hBelt
          cases k with
          | zero => exact .cons hFirst hPages hChanged
          | succ k => exact .cons hFirst hPages hChanged

/-
  The boundary between two belts may move by whole pages, if
  both are proper with their new bounds.
-/
theorem move
    (hRow : Row stop index start bs)
    (hBelt : bs[k]? = some b)
    (hNext : bs[k + 1]? = some c)
    (hFirst : d.Stands b.index b.start)
    (hSecond : e.Stands c.index d.stop)
    (hStop : e.stop = c.stop)
    (hLow : b.stop ≤ d.stop)
    (hMoved : (d.stop - b.stop) % Word.pageBytes = 0) :
    Row stop index start ((bs.set k d).set (k + 1) e) := by
  have hStart := hFirst.start
  have hOther := hSecond.start
  unfold Word.pageBytes at hMoved
  induction hRow generalizing k with
  | last _ _ =>
      cases hNext
  | @cons _ _ f g rest hStands hPages hRest ih =>
      have hAt := hStands.start
      have hFilled := hStands.proper.filled
      unfold Word.pageBytes at hPages
      cases k with
      | zero =>
          cases hBelt
          cases hNext
          have hPlaced : d.Stands _ _ :=
            ⟨hFirst.index.trans hStands.index,
              hStart.trans hAt, hFirst.proper⟩
          have hWhole :
              (d.stop - d.start) % Word.pageBytes = 0 := by
            unfold Word.pageBytes
            omega
          refine .cons hPlaced hWhole ?_
          cases hRest with
          | last hNextStands hEnd =>
              exact
                .last
                  ⟨hSecond.index.trans hNextStands.index,
                    hOther, hSecond.proper⟩
                  (hStop.trans hEnd)
          | cons hNextStands hNextPages hBehind =>
              have hFrom := hNextStands.start
              have hSize := hSecond.proper.filled
              unfold Word.pageBytes at hNextPages
              rw [← hStop] at hBehind
              refine
                .cons
                  ⟨hSecond.index.trans hNextStands.index,
                    hOther, hSecond.proper⟩
                  ?_ hBehind
              unfold Word.pageBytes
              omega
      | succ k =>
          have hChanged := ih hBelt hNext
          cases k with
          | zero => exact .cons hStands hPages hChanged
          | succ k => exact .cons hStands hPages hChanged

end Row

end Belt

end BeltHeap
