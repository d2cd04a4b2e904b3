import BeltHeap.Config
import BeltHeap.Memory

/-
  Private memory asked from the operating system, which hands
  it out in whole pages, every byte zero.

  Key definitions include:
    * `Mapping`
    * `Mapping.roundedSize`
    * `Mapping.reserve`
-/

------------------------------------------------------------
-- Mappings
------------------------------------------------------------

namespace BeltHeap

/- Memory of whole pages at some place. -/
structure Mapping where
  start : Nat
  size : Nat
  memory : Memory := {}

namespace Mapping

/-
  The first size that no mapping has.  A program lies at two
  thirds of the 47 bits of addresses that a process has, and no
  free range is longer than the one below it.
-/
def sizeLimit : Nat := 0x555555554000

/-
  The number of bytes that are mapped for a request: whole
  pages, and at least one.  Requests just below the limit of
  words wrap around to nothing.
-/
def roundedSize (size : Nat) : Nat :=
  Word.alignUp (max size 1) Word.pageBytes

/- Map at least `size` bytes at a place. -/
def reserve
    (place : Nat)
    (size : Nat) : Except MapError Mapping :=
  let rounded := roundedSize size
  if rounded = 0 then .error .emptyRange
  else if sizeLimit ≤ rounded then .error .outOfMemory
  else .ok { start := place, size := rounded }

/- The addresses of a mapping. -/
def span (m : Mapping) : Span :=
  ⟨m.start, m.start + m.size⟩

/- Clear part of a mapping. -/
def clear
    (m : Mapping)
    (a : Nat)
    (count : Nat) : Mapping :=
  { m with memory := m.memory.clear a count }

end Mapping

end BeltHeap
