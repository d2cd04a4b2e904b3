import Std.Data.HashMap
import BeltHeap.Endian

/-
  Memory, one byte for each address.  A memory starts out with
  every byte zero, and only the others are stored.

  Key definitions include:
    * `Memory`
    * `Memory.byte`
    * `Memory.read`, `Memory.write`
    * `Memory.load`, `Memory.store`
    * `Memory.zero`, `Memory.copy`
    * `Memory.clear`
-/

------------------------------------------------------------
-- Bytes
------------------------------------------------------------

namespace BeltHeap

/- A memory stores the bytes that are not zero. -/
structure Memory where
  cells : Std.HashMap Nat UInt8 := {}

namespace Memory

instance : Inhabited Memory := ⟨{}⟩

/- The byte at an address. -/
def byte
    (m : Memory)
    (a : Nat) : UInt8 :=
  m.cells.getD a 0

/- Change the byte at an address. -/
def setByte
    (m : Memory)
    (a : Nat)
    (b : UInt8) : Memory :=
  if b = 0 then ⟨m.cells.erase a⟩ else ⟨m.cells.insert a b⟩

/- Make `count` bytes from an address on zero. -/
def zero
    (m : Memory)
    (a : Nat)
    (count : Nat) : Memory :=
  ⟨m.cells.filter fun k _ => !(a ≤ k && k < a + count)⟩

/- In a new memory every byte is zero. -/
@[simp]
theorem byte_empty
    (a : Nat) :
    ({} : Memory).byte a = 0 := by
  simp [byte]

/- A changed byte reads as changed, and the others as before. -/
theorem byte_setByte
    (m : Memory)
    (a b : Nat)
    (v : UInt8) :
    (m.setByte a v).byte b = if a = b then v else m.byte b := by
  unfold setByte byte
  split
  · by_cases h : a = b <;>
      simp_all [Std.HashMap.getD_erase]
  · by_cases h : a = b <;>
      simp_all [Std.HashMap.getD_insert]

/- Zeroed bytes are zero, and the others as before. -/
theorem byte_zero
    (m : Memory)
    (a b : Nat)
    (count : Nat) :
    (m.zero a count).byte b =
      if a ≤ b ∧ b < a + count then 0 else m.byte b := by
  unfold zero byte
  rw [Std.HashMap.getD_eq_getD_getElem?,
    Std.HashMap.getElem?_filter,
    Std.HashMap.getD_eq_getD_getElem?]
  simp only [Std.HashMap.getKey_eq]
  cases m.cells[b]? with
  | none => simp
  | some v =>
      by_cases hLow : a ≤ b <;>
        by_cases hHigh : b < a + count <;>
        simp [Option.pfilter, hLow, hHigh]

------------------------------------------------------------
-- Runs of Bytes
------------------------------------------------------------

/- The bytes of `count` addresses from `a` on. -/
def read
    (m : Memory)
    (a : Nat)
    (count : Nat) : List UInt8 :=
  (List.range' a count).map m.byte

/- Store bytes at the addresses from `a` on. -/
def write
    (m : Memory)
    (a : Nat) : List UInt8 → Memory
| [] => m
| b :: bs => write (m.setByte a b) (a + 1) bs

/- The stored bytes of a run, at the places they are copied to. -/
def shifted
    (m : Memory)
    (source dest : Nat)
    (count : Nat) : List (Nat × UInt8) :=
  (m.cells.toList.filter fun cell =>
      source ≤ cell.1 && cell.1 < source + count).map
    fun cell => (dest + (cell.1 - source), cell.2)

/-
  Copy `count` bytes.  They are all read before the first is
  written, so the two places may overlap.  Of a run with more
  bytes than the whole memory stores, only the stored ones are
  copied, after the others have been zeroed.
-/
def copy
    (m : Memory)
    (source dest : Nat)
    (count : Nat) : Memory :=
  if count ≤ m.cells.size then m.write dest (m.read source count)
  else
    ⟨(m.zero dest count).cells.insertMany
      (m.shifted source dest count)⟩

@[simp]
theorem length_read
    (m : Memory)
    (a : Nat)
    (count : Nat) :
    (m.read a count).length = count := by
  simp [read]

/- Written bytes are those of the list, and the others as before. -/
theorem byte_write
    (m : Memory)
    (a b : Nat)
    (bs : List UInt8) :
    (m.write a bs).byte b =
      if a ≤ b then (bs[b - a]?).getD (m.byte b)
      else m.byte b := by
  induction bs generalizing m a with
  | nil => simp [write]
  | cons c bs ih =>
      rw [write, ih, byte_setByte]
      by_cases hLt : b < a
      · have h1 : ¬ a + 1 ≤ b := by omega
        have h2 : ¬ a ≤ b := by omega
        have h3 : ¬ a = b := by omega
        simp [h1, h2, h3]
      · by_cases hEq : a = b
        · subst hEq
          have h1 : ¬ a + 1 ≤ a := by omega
          simp [h1]
        · have h1 : a + 1 ≤ b := by omega
          have h2 : a ≤ b := by omega
          have h3 : b - a = (b - (a + 1)) + 1 := by omega
          simp [h1, h2, hEq, h3]

/- Bytes that are all read first are those before the copy. -/
theorem byte_write_read
    (m : Memory)
    (source dest b : Nat)
    (count : Nat) :
    (m.write dest (m.read source count)).byte b =
      if dest ≤ b ∧ b < dest + count
      then m.byte (source + (b - dest))
      else m.byte b := by
  rw [byte_write]
  by_cases h1 : dest ≤ b
  · by_cases h2 : b - dest < count
    · have h3 : b < dest + count := by omega
      simp [h1, h2, h3, read]
    · have h3 : ¬ b < dest + count := by omega
      have h4 : (m.read source count)[b - dest]? = none := by
        rw [List.getElem?_eq_none]
        simp only [length_read]
        omega
      simp [h1, h3, h4]
  · simp [h1]

/- A stored byte of a run is copied to its place in the copy. -/
theorem mem_shifted_iff
    (m : Memory)
    (source dest count k : Nat)
    (v : UInt8) :
    (k, v) ∈ m.shifted source dest count ↔
      dest ≤ k ∧ k < dest + count ∧
        m.cells[source + (k - dest)]? = some v := by
  simp only [shifted, List.mem_map, List.mem_filter,
    Bool.and_eq_true, decide_eq_true_eq, Prod.exists,
    Prod.mk.injEq, Std.HashMap.mem_toList_iff_getElem?_eq_some]
  constructor
  · rintro ⟨a, w, ⟨hCell, hLow, hHigh⟩, rfl, rfl⟩
    have h : source + (dest + (a - source) - dest) = a := by omega
    rw [h]
    exact ⟨by omega, by omega, hCell⟩
  · rintro ⟨hLow, hHigh, hCell⟩
    exact
      ⟨source + (k - dest), v, ⟨hCell, by omega, by omega⟩,
        by omega, rfl⟩

/- No two stored bytes are copied to the same place. -/
theorem shifted_distinct
    (m : Memory)
    (source dest count : Nat) :
    (m.shifted source dest count).Pairwise
      fun x y => (x.1 == y.1) = false := by
  rw [shifted, List.pairwise_map]
  refine
    ((Std.HashMap.distinct_keys_toList (m := m.cells)).filter _
      ).imp_of_mem ?_
  intro x y hx hy hKeys
  simp only [List.mem_filter, Bool.and_eq_true,
    decide_eq_true_eq] at hx hy
  simp only [beq_eq_false_iff_ne, ne_eq] at hKeys ⊢
  omega

/- Copied bytes are those of the source before the copy. -/
theorem byte_copy
    (m : Memory)
    (source dest b : Nat)
    (count : Nat) :
    (m.copy source dest count).byte b =
      if dest ≤ b ∧ b < dest + count
      then m.byte (source + (b - dest))
      else m.byte b := by
  rw [copy]
  split
  · exact byte_write_read m source dest b count
  · rw [byte]
    by_cases hMem :
      ∃ v, (b, v) ∈ m.shifted source dest count
    · obtain ⟨v, hv⟩ := hMem
      rw [Std.HashMap.getD_insertMany_list_of_mem (beq_self_eq_true b)
        (m.shifted_distinct source dest count) hv]
      obtain ⟨hLow, hHigh, hCell⟩ := (m.mem_shifted_iff ..).1 hv
      rw [if_pos ⟨hLow, hHigh⟩, byte,
        Std.HashMap.getD_eq_getD_getElem?, hCell]
      rfl
    · rw [Std.HashMap.getD_insertMany_list_of_contains_eq_false]
      · have hZero := m.byte_zero dest b count
        rw [byte] at hZero
        rw [hZero]
        by_cases hIn : dest ≤ b ∧ b < dest + count
        · have hCell : m.cells[source + (b - dest)]? = none := by
            cases h : m.cells[source + (b - dest)]? with
            | none => rfl
            | some v =>
                exact absurd
                  ⟨v, (m.mem_shifted_iff ..).2 ⟨hIn.1, hIn.2, h⟩⟩ hMem
          rw [if_pos hIn, if_pos hIn, byte,
            Std.HashMap.getD_eq_getD_getElem?, hCell]
          rfl
        · rw [if_neg hIn, if_neg hIn]
      · rw [List.contains_eq_mem, decide_eq_false_iff_not]
        intro hKey
        obtain ⟨cell, hCell, rfl⟩ := List.mem_map.1 hKey
        exact hMem ⟨cell.2, hCell⟩

------------------------------------------------------------
-- Words
------------------------------------------------------------

/- The word stored at an address, its lowest byte first. -/
def load
    (m : Memory)
    (a : Nat) : Nat :=
  littleValue (m.read a Word.bytes)

/- Store a word at an address, its lowest byte first. -/
def store
    (m : Memory)
    (a : Nat)
    (value : Nat) : Memory :=
  m.write a (littleBytes Word.bytes value)

------------------------------------------------------------
-- Clearing Large Ranges
------------------------------------------------------------

/- Ranges at least this large are cleared page by page. -/
def discardThreshold : Nat :=
  16 * Word.pageBytes

/-
  Make `count` bytes from `a` on zero.  Of a large range, the
  whole pages are handed to `discard`, which may refuse them;
  the parts of pages at the two ends are zeroed by themselves.
-/
def clearWith
    (discard : Memory → Nat → Nat → Option Memory)
    (m : Memory)
    (a : Nat)
    (count : Nat) : Memory :=
  let stop := a + count
  let innerStart := Word.alignUp a Word.pageBytes
  let innerStop := Word.alignDown stop Word.pageBytes
  if count < discardThreshold ∨ innerStop ≤ innerStart then
    m.zero a count
  else
    match discard m innerStart (innerStop - innerStart) with
    | none => m.zero a count
    | some cleared =>
        (cleared.zero a (innerStart - a)).zero innerStop
          (stop - innerStop)

/- Discarded pages read as zero from then on. -/
def discardPages
    (m : Memory)
    (a : Nat)
    (count : Nat) : Option Memory :=
  some (m.zero a count)

/- Make `count` bytes from `a` on zero. -/
def clear
    (m : Memory)
    (a : Nat)
    (count : Nat) : Memory :=
  m.clearWith discardPages a count

end Memory

end BeltHeap
