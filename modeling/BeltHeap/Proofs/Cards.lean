import Mathlib.Algebra.Ring.Nat
import BeltHeap.Cards
import BeltHeap.Proofs.Belts

/-
  Which cards hold which addresses, for a card table that covers
  a heap with cards no larger than pages.

  Main declarations:
    * `CardTable.Covers`
    * `CardTable.Covers.index_eq`
    * `CardTable.Covers.index_eq_ok_iff`
    * `CardTable.Covers.cardStart_eq`
    * `CardTable.onDirtyCard_iff`
    * `CardTable.Covers.onDirtyCard_dirtied`
-/

------------------------------------------------------------
-- Counting Cards
------------------------------------------------------------

namespace BeltHeap

/- A card belongs to a table when its first byte is covered. -/
theorem CardTable.lt_cardsFor
    {bytes cardBytes card : Nat}
    (hCard : 0 < cardBytes) :
    card < cardsFor bytes cardBytes ↔
      card * cardBytes < bytes := by
  unfold cardsFor
  rw [Nat.lt_iff_add_one_le, Nat.le_div_iff_mul_le hCard,
    Nat.add_mul]
  omega

/- A number between two neighbouring multiples. -/
theorem Word.div_eq_iff_bounds
    {n d q : Nat}
    (hd : 0 < d) :
    n / d = q ↔ q * d ≤ n ∧ n < q * d + d := by
  rw [Nat.div_eq_iff hd]
  omega

/- Multiples that are less than one unit apart are in order. -/
theorem Word.le_of_lt_add
    {n k d : Nat}
    (hn : n % d = 0)
    (hk : k % d = 0)
    (hLt : n < k + d) :
    n ≤ k := by
  rcases Nat.dvd_of_mod_eq_zero hn with ⟨a, rfl⟩
  rcases Nat.dvd_of_mod_eq_zero hk with ⟨b, rfl⟩
  rw [← Nat.mul_succ] at hLt
  exact Nat.mul_le_mul_left d
    (Nat.le_of_lt_succ (Nat.lt_of_mul_lt_mul_left hLt))

------------------------------------------------------------
-- Covering a Heap
------------------------------------------------------------

namespace CardTable

/- A table has the cards of a heap, none larger than a page. -/
structure Covers
    (t : CardTable)
    (heap : Span) : Prop where
  covered : t.covered = heap
  log : t.logCardBytes ≤ Word.logPageBytes
  size : t.size = cardsFor heap.length t.cardBytes

/- The size of a card is a power of two. -/
theorem cardBytes_eq
    (t : CardTable) :
    t.cardBytes = 2 ^ t.logCardBytes :=
  Nat.one_shiftLeft t.logCardBytes

theorem cardBytes_pos
    (t : CardTable) :
    0 < t.cardBytes := by
  rw [cardBytes_eq]
  exact Nat.two_pow_pos _

namespace Covers

variable {t : CardTable}
variable {heap : Span}
variable {a card : Nat}

/- A page is a whole number of cards. -/
theorem page_mod
    (h : Covers t heap)
    (hPage : a % Word.pageBytes = 0) :
    a % t.cardBytes = 0 := by
  rw [cardBytes_eq]
  apply Nat.mod_eq_zero_of_dvd
  refine Nat.dvd_trans ?_ (Nat.dvd_of_mod_eq_zero hPage)
  exact Nat.pow_dvd_pow 2 h.log

theorem cardBytes_le
    (h : Covers t heap) :
    t.cardBytes ≤ Word.pageBytes := by
  rw [cardBytes_eq]
  exact Nat.pow_le_pow_right (by decide) h.log

/- The cards of a table are those that start in the heap. -/
theorem lt_size
    (h : Covers t heap) :
    card < t.size ↔
      heap.start + card * t.cardBytes < heap.stop := by
  rw [h.size, lt_cardsFor t.cardBytes_pos]
  unfold Span.length
  omega

/- An address of the heap lies on a card. -/
theorem index_eq
    (h : Covers t heap)
    (ha : heap.contains a = true) :
    t.index a = .ok ((a - heap.start) / t.cardBytes) := by
  unfold index index?
  rw [h.covered, if_pos ha]

/- The address lies between the ends of its card. -/
theorem index_eq_ok_iff
    (h : Covers t heap) :
    t.index a = .ok card ↔
      heap.contains a = true ∧
        heap.start + card * t.cardBytes ≤ a ∧
        a < heap.start + card * t.cardBytes + t.cardBytes := by
  constructor
  · intro hIndex
    by_cases ha : heap.contains a = true
    · rw [h.index_eq ha] at hIndex
      have hDiv := Except.ok.inj hIndex
      rw [Word.div_eq_iff_bounds t.cardBytes_pos] at hDiv
      rw [Span.contains_iff] at ha
      rw [Span.contains_iff]
      omega
    · unfold index index? at hIndex
      rw [h.covered, if_neg ha] at hIndex
      cases hIndex
  · rintro ⟨ha, hLow, hHigh⟩
    rw [h.index_eq ha]
    refine congrArg Except.ok ?_
    rw [Word.div_eq_iff_bounds t.cardBytes_pos]
    rw [Span.contains_iff] at ha
    omega

theorem index_lt
    (h : Covers t heap)
    (hIndex : t.index a = .ok card) :
    card < t.size := by
  rw [h.lt_size]
  rcases h.index_eq_ok_iff.mp hIndex with ⟨ha, hLow, -⟩
  rw [Span.contains_iff] at ha
  omega

/- Where a card of the table starts. -/
theorem cardStart_eq
    (h : Covers t heap)
    (hLimit : heap.stop ≤ Word.limit)
    (hCard : card < t.size) :
    t.cardStart card =
      .ok (heap.start + card * t.cardBytes) := by
  have hLt := h.lt_size.mp hCard
  have hWrap :
      Word.wrap (card * t.cardBytes) = card * t.cardBytes :=
    Nat.mod_eq_of_lt (by omega)
  unfold cardStart Word.add
  rw [if_pos hCard, h.covered, hWrap, if_pos (by omega)]

end Covers

------------------------------------------------------------
-- Dirty Cards
------------------------------------------------------------

/- Does the address lie on a dirty card? -/
def onDirtyCard
    (t : CardTable)
    (a : Nat) : Bool :=
  match t.index a with
  | .ok card => t.marks.getD card false
  | .error _ => false

theorem isDirty_eq_true_iff
    {t : CardTable}
    {card : Nat} :
    t.isDirty card = .ok true ↔
      card < t.size ∧ t.marks.getD card false = true := by
  unfold isDirty size
  by_cases hCard : card < t.marks.size
  · rw [dif_pos hCard, Array.getD_eq_getD_getElem?,
      Array.getElem?_eq_getElem hCard]
    simp [hCard]
  · rw [dif_neg hCard]
    simp [hCard]

theorem mem_dirtyCards
    {t : CardTable}
    {card : Nat} :
    card ∈ t.dirtyCards ↔ t.isDirty card = .ok true := by
  rw [isDirty_eq_true_iff]
  unfold dirtyCards size
  rw [List.mem_filter, List.mem_range]

/- The dirty cards are listed in increasing order. -/
theorem pairwise_dirtyCards
    (t : CardTable) :
    t.dirtyCards.Pairwise (· < ·) :=
  List.pairwise_lt_range.filter _

/- An address on a dirty card is on some card that is dirty. -/
theorem onDirtyCard_iff
    {t : CardTable}
    {heap : Span}
    {a : Nat}
    (h : Covers t heap) :
    t.onDirtyCard a = true ↔
      ∃ card, t.index a = .ok card ∧ t.isDirty card = .ok true := by
  unfold onDirtyCard
  cases hIndex : t.index a with
  | error _ => simp
  | ok card =>
      have hCard := h.index_lt hIndex
      constructor
      · intro hMark
        exact ⟨card, rfl, isDirty_eq_true_iff.mpr ⟨hCard, hMark⟩⟩
      · rintro ⟨other, hOther, hDirty⟩
        cases hOther
        exact (isDirty_eq_true_iff.mp hDirty).2

/- A table with one more dirty card covers what it did. -/
theorem Covers.dirtied
    {t : CardTable}
    {heap : Span}
    (h : Covers t heap)
    (card : Nat) :
    Covers (t.dirtied card) heap where
  covered := h.covered
  log := h.log
  size := Array.size_setIfInBounds.trans h.size

/- A clean table covers what it did. -/
theorem Covers.clearAll
    {t : CardTable}
    {heap : Span}
    (h : Covers t heap) :
    Covers t.clearAll heap where
  covered := h.covered
  log := h.log
  size := Array.size_replicate.trans h.size

/- Making the card of an address dirty adds that address. -/
theorem Covers.onDirtyCard_dirtied
    {t : CardTable}
    {heap : Span}
    {card a b : Nat}
    (h : Covers t heap)
    (hIndex : t.index a = .ok card)
    (hb : t.onDirtyCard b = true ∨ b = a) :
    (t.dirtied card).onDirtyCard b = true := by
  have hCard : card < t.marks.size := h.index_lt hIndex
  have hKeep : (t.dirtied card).index b = t.index b := rfl
  have hMark :
      ∀ other,
        (t.dirtied card).marks.getD other false =
          if card = other then true
          else t.marks.getD other false := by
    intro other
    unfold CardTable.dirtied
    simp only [Array.getD_eq_getD_getElem?,
      Array.getElem?_setIfInBounds]
    by_cases hEq : card = other
    · rw [if_pos hEq, if_pos hEq, if_pos hCard]
      rfl
    · rw [if_neg hEq, if_neg hEq]
  unfold onDirtyCard at hb ⊢
  rw [hKeep]
  rcases hb with hOld | hNew
  · cases hOther : t.index b with
    | error _ =>
        rw [hOther] at hOld
        cases hOld
    | ok other =>
        rw [hOther] at hOld
        simp only [hMark]
        split
        · rfl
        · exact hOld
  · rw [hNew, hIndex]
    simp only [hMark, if_true]

end CardTable

end BeltHeap
