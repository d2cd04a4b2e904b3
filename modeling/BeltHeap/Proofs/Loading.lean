import BeltHeap.Endian.Lemmas
import BeltHeap.Memory
import BeltHeap.Proofs.Alignment

/-
  What words and cleared ranges of a memory read as.

  Main declarations:
    * `Memory.Matches`
    * `Memory.load_store` and `Memory.load_store_apart`
    * `Memory.Discards`, `Memory.wholePages`
    * `Memory.byte_clearWith` and `Memory.byte_clear`
-/

------------------------------------------------------------
-- Matching Runs of Bytes
------------------------------------------------------------

namespace BeltHeap

namespace Memory

/-
  The `count` bytes of one memory from `a` on are those of
  another memory from `b` on.
-/
def Matches
    (m : Memory)
    (a : Nat)
    (other : Memory)
    (b : Nat)
    (count : Nat) : Prop :=
  ∀ k, k < count → m.byte (a + k) = other.byte (b + k)

namespace Matches

variable {m n : Memory}
variable {a b count : Nat}

/- Parts of matching runs match. -/
theorem slice
    (h : Matches m a n b count)
    (offset part : Nat)
    (hPart : offset + part ≤ count) :
    Matches m (a + offset) n (b + offset) part := by
  intro k hk
  have hByte := h (offset + k) (by omega)
  rw [Nat.add_assoc, Nat.add_assoc]
  exact hByte

theorem read_eq
    (h : Matches m a n b count) :
    m.read a count = n.read b count := by
  apply List.ext_getElem
  · simp
  · intro k hk _
    rw [length_read] at hk
    simpa [read] using h k hk

theorem load_eq
    (h : Matches m a n b Word.bytes) :
    m.load a = n.load b := by
  unfold load
  rw [h.read_eq]

end Matches

------------------------------------------------------------
-- Words
------------------------------------------------------------

theorem load_eq_zero
    {m : Memory}
    {a : Nat}
    (hZero : ∀ k, k < Word.bytes → m.byte (a + k) = 0) :
    m.load a = 0 := by
  have hRead :
      m.read a Word.bytes = List.replicate Word.bytes 0 := by
    apply List.ext_getElem
    · simp
    · intro k hk _
      rw [length_read] at hk
      simpa [read] using hZero k hk
  unfold load
  rw [hRead]
  decide

/- A stored word changes its own bytes only. -/
theorem byte_store_apart
    (m : Memory)
    {a b : Nat}
    (value : Nat)
    (hApart : b < a ∨ a + Word.bytes ≤ b) :
    (m.store a value).byte b = m.byte b := by
  unfold store
  rw [byte_write]
  split
  · rw [List.getElem?_eq_none]
    · rfl
    · rw [length_littleBytes]
      omega
  · rfl

/- A stored word is loaded again. -/
theorem load_store
    (m : Memory)
    (a : Nat)
    {value : Nat}
    (hValue : value < Word.limit) :
    (m.store a value).load a = value := by
  have hRead :
      (m.store a value).read a Word.bytes =
        littleBytes Word.bytes value := by
    apply List.ext_getElem
    · rw [length_read, length_littleBytes]
    · intro k hk hk'
      have hk8 := hk
      rw [length_read] at hk8
      simp [read, store, byte_write, List.getElem?_eq_getElem hk']
  unfold load
  rw [hRead, littleValue_littleBytes]
  exact Nat.mod_eq_of_lt hValue

/- A stored word leaves the words beside it alone. -/
theorem load_store_apart
    (m : Memory)
    {a b : Nat}
    (value : Nat)
    (hApart : b + Word.bytes ≤ a ∨ a + Word.bytes ≤ b) :
    (m.store a value).load b = m.load b := by
  apply Matches.load_eq
  intro k hk
  exact byte_store_apart m value (by omega)

------------------------------------------------------------
-- Clearing
------------------------------------------------------------

/-
  If pages are discarded, they read as zero and all else reads
  as before.
-/
def Discards
    (discard : Memory → Nat → Nat → Option Memory)
    (m : Memory)
    (pages : Span) : Prop :=
  ∀ cleared : Memory,
    discard m pages.start pages.length = some cleared →
      ∀ b,
        cleared.byte b =
          if pages.start ≤ b ∧ b < pages.start + pages.length
          then 0
          else m.byte b

/- The whole pages of a range. -/
def wholePages
    (a count : Nat) : Span where
  start := Word.alignUp a Word.pageBytes
  stop := Word.alignDown (a + count) Word.pageBytes

/-
  A large range has whole pages, which begin and end within the
  range.
-/
theorem wholePages_bounds
    {a count : Nat}
    (hLarge : discardThreshold ≤ count)
    (hWord : a + count < Word.limit) :
    (wholePages a count).start % Word.pageBytes = 0 ∧
      (wholePages a count).stop % Word.pageBytes = 0 ∧
      a ≤ (wholePages a count).start ∧
      (wholePages a count).start < (wholePages a count).stop ∧
      (wholePages a count).stop ≤ a + count := by
  have hPage : 2 ^ 12 = Word.pageBytes := by decide
  have hRoom : discardThreshold = 16 * 2 ^ 12 := by decide
  have hUp :=
    Word.alignUp_bounds (k := 12) (n := a) (by decide)
      (by omega)
  have hDown :=
    Word.alignDown_bounds (k := 12) (by decide) hWord
  have hGap :
      Word.alignUp a (2 ^ 12) <
        Word.alignDown (a + count) (2 ^ 12) := by
    omega
  rw [hPage] at hUp hDown hGap
  exact ⟨hUp.1, hDown.1, hUp.2.1, hGap, hDown.2.1⟩

/- Clearing a range zeroes it and nothing else. -/
theorem byte_clearWith
    {discard : Memory → Nat → Nat → Option Memory}
    {m : Memory}
    {a count : Nat}
    (hDiscard :
      discardThreshold ≤ count →
        Discards discard m (wholePages a count))
    (hWord : a + count < Word.limit)
    (b : Nat) :
    (m.clearWith discard a count).byte b =
      if a ≤ b ∧ b < a + count then 0 else m.byte b := by
  unfold clearWith
  dsimp only
  by_cases hLarge : discardThreshold ≤ count
  case neg =>
    rw [if_pos (Or.inl (Nat.lt_of_not_le hLarge))]
    exact byte_zero m a b count
  case pos =>
    have hPages := hDiscard hLarge
    rcases wholePages_bounds hLarge hWord with
      ⟨-, -, hLow, hSome, hHigh⟩
    unfold Discards Span.length at hPages
    unfold wholePages at hPages hLow hSome hHigh
    dsimp only at hPages hLow hSome hHigh
    rw [if_neg (by omega)]
    generalize Word.alignUp a Word.pageBytes = start at *
    generalize
      Word.alignDown (a + count) Word.pageBytes = stop at *
    cases hCase : discard m start (stop - start) with
    | none => exact byte_zero m a b count
    | some cleared =>
        -- the pages, the part before them and the part behind
        simp only [byte_zero, hPages cleared hCase b]
        repeat' split
        all_goals first | rfl | omega

/- Discarding pages succeeds, and they read as zero. -/
theorem discards_discardPages
    (m : Memory)
    (pages : Span) :
    Discards discardPages m pages := by
  intro cleared hCleared b
  cases hCleared
  exact byte_zero m pages.start b pages.length

/- Clearing zeroes a range and nothing else. -/
theorem byte_clear
    (m : Memory)
    {a count : Nat}
    (hWord : a + count < Word.limit)
    (b : Nat) :
    (m.clear a count).byte b =
      if a ≤ b ∧ b < a + count then 0 else m.byte b :=
  byte_clearWith (fun _ => discards_discardPages m _) hWord b

end Memory

end BeltHeap
