import BeltHeap.Fault

/-
  Arithmetic on machine words of 64 bits.  A word is a natural
  number below `Word.limit`.  The plain operations fail where
  the result is no word; the operations on alignment wrap
  around instead, since they only mask bits.

  Key definitions include:
    * `Word.limit`
    * `Word.add`, `Word.sub`, `Word.mul`
    * `Word.distance`
    * `Word.entries`
    * `Word.addSigned`, `Word.shift`
    * `Word.alignUp`, `Word.alignDown`, `Word.isAligned`
    * `Word.pageShare`
-/

------------------------------------------------------------
-- Checked Arithmetic
------------------------------------------------------------

namespace BeltHeap

namespace Word

/- The first number that is no word: two to the power of 64. -/
def limit : Nat := 0x10000000000000000

/- The first number that is no positive signed word. -/
def signedLimit : Nat := 0x8000000000000000

/- The remainder of a number among the words. -/
def wrap (n : Nat) : Nat :=
  n % limit

/- The sum of two words, if it is a word. -/
def add
    (a : Nat)
    (b : Nat) : Except Fault Nat :=
  if a + b < limit then .ok (a + b) else .error .addOverflow

/- The difference of two words, if it is a word. -/
def sub
    (a : Nat)
    (b : Nat) : Except Fault Nat :=
  if b ≤ a then .ok (a - b) else .error .subOverflow

/- The product of two words, if it is a word. -/
def mul
    (a : Nat)
    (b : Nat) : Except Fault Nat :=
  if a * b < limit then .ok (a * b) else .error .mulOverflow

/-
  A word shifted to the left.  Bits that leave the word are
  lost; only a shift by the whole word or more is a fault.
-/
def shiftLeft
    (a : Nat)
    (s : Nat) : Except Fault Nat :=
  if s < 64 then .ok (wrap (a <<< s))
  else .error .shiftLeftOverflow

/- A word shifted to the right. -/
def shiftRight
    (a : Nat)
    (s : Nat) : Except Fault Nat :=
  if s < 64 then .ok (a >>> s) else .error .shiftRightOverflow

/- The number of bytes from address `b` up to address `a`. -/
def distance
    (a : Nat)
    (b : Nat) : Except Fault Nat :=
  if b ≤ a then .ok (a - b) else .error (.reversedAddresses a b)

/-
  The number of entries of a table, each of them `width` bytes
  wide.  A table has to be smaller than half of all addresses.
-/
def entries
    (count : Nat)
    (width : Nat) : Except Fault Nat :=
  if count * width < signedLimit then .ok count
  else .error .capacityOverflow

theorem eq_of_add
    {a b c : Nat}
    (hAdd : add a b = .ok c) :
    c = a + b ∧ a + b < limit := by
  unfold add at hAdd
  split at hAdd
  · cases hAdd
    exact ⟨rfl, ‹_›⟩
  · cases hAdd

theorem limit_le_of_add
    {a b : Nat}
    {f : Fault}
    (hAdd : add a b = .error f) :
    limit ≤ a + b := by
  unfold add at hAdd
  split at hAdd
  · cases hAdd
  · exact Nat.le_of_not_lt ‹_›

theorem eq_of_mul
    {a b c : Nat}
    (hMul : mul a b = .ok c) :
    c = a * b := by
  unfold mul at hMul
  split at hMul
  · cases hMul
    rfl
  · cases hMul

theorem limit_le_of_mul
    {a b : Nat}
    {f : Fault}
    (hMul : mul a b = .error f) :
    limit ≤ a * b := by
  unfold mul at hMul
  split at hMul
  · cases hMul
  · exact Nat.le_of_not_lt ‹_›

theorem eq_of_distance
    {a b c : Nat}
    (hDistance : distance a b = .ok c) :
    c = a - b ∧ b ≤ a := by
  unfold distance at hDistance
  split at hDistance
  · cases hDistance
    exact ⟨rfl, ‹_›⟩
  · cases hDistance

theorem eq_of_entries
    {count width n : Nat}
    (hEntries : entries count width = .ok n) :
    n = count := by
  unfold entries at hEntries
  split at hEntries
  · cases hEntries
    rfl
  · cases hEntries

theorem signedLimit_le_of_entries
    {count width : Nat}
    {f : Fault}
    (hEntries : entries count width = .error f) :
    signedLimit ≤ count * width := by
  unfold entries at hEntries
  split at hEntries
  · cases hEntries
  · exact Nat.le_of_not_lt ‹_›

/- Is the number a power of two? -/
def isPowerOfTwo (n : Nat) : Bool :=
  n != 0 && n == 1 <<< n.log2

theorem pos_of_isPowerOfTwo
    {n : Nat}
    (hPower : isPowerOfTwo n = true) :
    0 < n := by
  unfold isPowerOfTwo at hPower
  rw [Bool.and_eq_true, bne_iff_ne] at hPower
  exact Nat.pos_of_ne_zero hPower.1

/- The number of the chunk that holds an address. -/
def chunkIndex
    (a : Nat)
    (size : Nat) : Except Fault Nat :=
  if isPowerOfTwo size then .ok (a / size)
  else .error .chunkSizeNotPowerOfTwo

------------------------------------------------------------
-- Signed Offsets
------------------------------------------------------------

/- The signed number with the same 64 bits as a word. -/
def toSigned (a : Nat) : Int :=
  if a < signedLimit then (a : Int) else (a : Int) - (limit : Int)

/- The word with the same 64 bits as a signed number. -/
def ofSigned (i : Int) : Nat :=
  (i % (limit : Int)).toNat

/- Is the number a signed word? -/
def isSigned (i : Int) : Bool :=
  -(signedLimit : Int) ≤ i && i < (signedLimit : Int)

/-
  An address moved by a signed number of bytes.  The sum is
  taken among the signed words and must be one of them.
-/
def addSigned
    (a : Nat)
    (offset : Int) : Except Fault Nat :=
  let sum := toSigned a + offset
  if isSigned sum then .ok (ofSigned sum) else .error .addOverflow

/- An address moved over a signed number of items of one size. -/
def shift
    (a : Nat)
    (size : Nat)
    (count : Int) : Except Fault Nat :=
  let offset := (size : Int) * count
  if isSigned offset then addSigned a offset
  else .error .mulOverflow

------------------------------------------------------------
-- Alignment
------------------------------------------------------------

/- The bits below an alignment that is a power of two. -/
def lowBits (align : Nat) : Nat :=
  wrap (align + (limit - 1))

/- The bits of a word that are not below an alignment. -/
def highBits (align : Nat) : Nat :=
  limit - 1 - lowBits align

/- A word with the bits below the alignment cleared. -/
def alignDown
    (value : Nat)
    (align : Nat) : Nat :=
  value &&& highBits align

/-
  A word raised by one less than the alignment, with the bits
  below the alignment cleared.  The sum wraps around.
-/
def alignUp
    (value : Nat)
    (align : Nat) : Nat :=
  wrap (value + align + (limit - 1)) &&& highBits align

/- Are all bits below the alignment clear? -/
def isAligned
    (value : Nat)
    (align : Nat) : Bool :=
  value &&& lowBits align == 0

------------------------------------------------------------
-- Units
------------------------------------------------------------

/- The number of bytes in a word. -/
def bytes : Nat := 8

/- The number of bytes in a page. -/
def pageBytes : Nat := 4096

/- The binary logarithm of the number of bytes in a page. -/
def logPageBytes : Nat := 12

/- The number of bytes in a kilobyte. -/
def kilobyte : Nat := 1024

/- The number of bytes in a megabyte. -/
def megabyte : Nat := 1024 * 1024

/- The number of pages that hold a number of bytes. -/
def pagesUp (n : Nat) : Except Fault Nat := do
  let raised ← add n pageBytes
  let last ← sub raised 1
  shiftRight last logPageBytes

/-
  A percentage of a number of bytes, rounded down to whole
  pages.  The hundreds and the rest are taken apart, so that a
  percentage of at most a hundred cannot overflow.
-/
def pageShare
    (n : Nat)
    (percent : Nat) : Except Fault Nat := do
  let hundreds ← mul (n / 100) percent
  let rest ← mul (n % 100) percent
  let share ← add hundreds (rest / 100)
  pure (alignDown share pageBytes)

end Word

------------------------------------------------------------
-- Spans
------------------------------------------------------------

/- The addresses from `start` up to and without `stop`. -/
structure Span where
  start : Nat
  stop : Nat
deriving DecidableEq, Repr, Inhabited

namespace Span

/- Does the address lie in the span? -/
def contains
    (s : Span)
    (a : Nat) : Bool :=
  s.start ≤ a && a < s.stop

/- The number of addresses in a span. -/
def length (s : Span) : Nat :=
  s.stop - s.start

end Span

end BeltHeap
