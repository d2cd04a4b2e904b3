import BeltHeap.Mapping
import BeltHeap.Proofs.Loading

/-
  Clearing a range of mapped memory.  Whole pages may be handed
  back to the operating system or not; what the memory reads as
  afterwards is the same as if each byte had been zeroed by
  itself.

  Main statements:
    * `Mapping.clearing_agrees_with_zeroing`
-/

------------------------------------------------------------
-- Clearing by Pages
------------------------------------------------------------

namespace BeltHeap

namespace Mapping

open Memory

variable {discard : Memory → Nat → Nat → Option Memory}

/-
  However a range lies in a mapping and however large it is, and
  whether its whole pages are discarded or the discarding fails,
  the memory reads as if the range was zeroed byte by byte: all
  of the range is zero, and all else is as it was.
-/
theorem clearing_agrees_with_zeroing
    {m : Mapping}
    (hDiscard :
      ∀ pages : Span,
        pages.start % Word.pageBytes = 0 →
        pages.stop % Word.pageBytes = 0 →
        m.start ≤ pages.start → pages.start < pages.stop →
        pages.stop ≤ m.span.stop →
          Discards discard m.memory pages)
    (hMapped : m.span.stop < Word.limit)
    {a count : Nat}
    (hLow : m.start ≤ a)
    (hHigh : a + count ≤ m.span.stop) :
    (∀ b,
      (m.memory.clearWith discard a count).byte b =
        (m.memory.zero a count).byte b) ∧
      (∀ b, a ≤ b → b < a + count →
        (m.memory.clearWith discard a count).byte b = 0) ∧
      ∀ b, b < a ∨ a + count ≤ b →
        (m.memory.clearWith discard a count).byte b =
          m.memory.byte b := by
  have hWord : a + count < Word.limit :=
    Nat.lt_of_le_of_lt hHigh hMapped
  have hPages :
      discardThreshold ≤ count →
        Discards discard m.memory (wholePages a count) := by
    intro hLarge
    rcases wholePages_bounds hLarge hWord with
      ⟨hStart, hStop, hFirst, hSome, hLast⟩
    exact
      hDiscard _ hStart hStop (Nat.le_trans hLow hFirst) hSome
        (Nat.le_trans hLast hHigh)
  have hByte := byte_clearWith hPages hWord
  refine ⟨fun b => ?_, fun b hFrom hTo => ?_, fun b hOut => ?_⟩
  · rw [hByte, byte_zero]
  · rw [hByte, if_pos ⟨hFrom, hTo⟩]
  · rw [hByte, if_neg (by omega)]

/- Memory of 32 pages with two bytes that are not zero. -/
def stained : Mapping where
  start := 0x10000
  size := 0x20000
  memory := ({} : Memory).write 0x10006 [0xab, 0xab]

/-
  A large range is cleared from within its first page to within
  its last one.  The byte before it stays.
-/
theorem clearing_agrees_with_zeroing_unaligned :
    discardThreshold ≤ 0x1ffec ∧
      (stained.memory.clear 0x10007 0x1ffec).byte 0x10007 = 0 ∧
      (stained.memory.clear 0x10007 0x1ffec).byte 0x10006 =
        0xab := by
  rcases @clearing_agrees_with_zeroing discardPages stained
      (fun _ _ _ _ _ _ => discards_discardPages _ _)
      (by decide) 0x10007 0x1ffec (by decide) (by decide) with
    ⟨-, hIn, hOut⟩
  refine ⟨by decide, hIn _ (by decide) (by decide), ?_⟩
  have hBefore := hOut 0x10006 (by decide)
  exact hBefore.trans (byte_write _ _ _ _)

end Mapping

end BeltHeap
