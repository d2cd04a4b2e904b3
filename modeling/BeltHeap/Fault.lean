import BeltHeap.Text.Bracketed
import BeltHeap.Text.Hex

/-
  The faults of the collector: broken promises that end the
  work at hand at once, unlike errors, which are answers.

  An address is a number below `Word.limit`.  The operations on
  addresses check that bound where it could be passed.

  Key definitions include:
    * `Fault`
    * `Fault.message`
-/

------------------------------------------------------------
-- Faults
------------------------------------------------------------

namespace BeltHeap

/- What can break off a piece of work. -/
inductive Fault where
| addOverflow : Fault
| subOverflow : Fault
| mulOverflow : Fault
| shiftLeftOverflow : Fault
| shiftRightOverflow : Fault
| capacityOverflow : Fault
| indexOutOfBounds (length index : Nat) : Fault
| reversedAddresses (a b : Nat) : Fault
| markOutsideBelt
    (mark : Nat)
    (belt : Nat)
    (start stop : Nat) : Fault
| reversedBounds : Fault
| beltWithoutRole (belt : Nat) : Fault
| chunkSizeNotPowerOfTwo : Fault
| coveredAreaUnaligned : Fault
| cardOutsideTable : Fault
| uncoveredAddress (address start stop : Nat) : Fault
| emptyObject : Fault
| sizelessObject (object : Nat) : Fault
| survivorOutsideMature : Fault
| handleFreedTwice : Fault
| lengthsDiffer (left right : Nat) : Fault
| pageOverrun (bytes offset page : Nat) : Fault
| pageSizeNotPowerOfTwo (size : Nat) : Fault
| pagesInDoubt : Fault
| zeroInName (position : Nat) (bytes : List Nat) : Fault
| taskFailed (text : String) : Fault
deriving DecidableEq, Repr

namespace Fault

/-
  The report of a fault.  Addresses are written by `at_`, so a
  reader who knows where the heap lies may show them relative
  to it.
-/
def message
    (at_ : Nat → String) : Fault → String
| .addOverflow => "attempt to add with overflow"
| .subOverflow => "attempt to subtract with overflow"
| .mulOverflow => "attempt to multiply with overflow"
| .shiftLeftOverflow => "attempt to shift left with overflow"
| .shiftRightOverflow => "attempt to shift right with overflow"
| .capacityOverflow => "capacity overflow"
| .indexOutOfBounds length index =>
    s!"index out of bounds: the len is {length} but the index is {index}"
| .reversedAddresses a b =>
    s!"for (addr_a - addr_b), a({at_ a}) needs to be larger than b({at_ b})"
| .markOutsideBelt mark belt start stop =>
    s!"mark {at_ mark} outside belt {belt} [{at_ start}, {at_ stop})"
| .reversedBounds => "assertion failed: start <= end"
| .beltWithoutRole belt => s!"belt {belt} plays no role"
| .chunkSizeNotPowerOfTwo =>
    "assertion failed: chunk_size.is_power_of_two()"
| .coveredAreaUnaligned =>
    "assertion failed: " ++
      "covered.start.is_aligned_to(1 << log_bytes_in_card)"
| .cardOutsideTable => "assertion failed: index < self.num_cards()"
| .uncoveredAddress address start stop =>
    s!"address {at_ address} is outside the area " ++
      s!"[{at_ start}, {at_ stop}) covered by the card table"
| .emptyObject => "assertion failed: size > 0"
| .sizelessObject object =>
    s!"object {at_ object} in the mature belt has size 0"
| .survivorOutsideMature =>
    "assertion failed: plan.mature().contains(m.to)"
| .handleFreedTwice =>
    "assertion failed: !state.free.contains(&handle.0)"
| .lengthsDiffer left right =>
    "assertion `left == right` failed\n" ++
      s!"  left: {left}\n right: {right}"
| .pageOverrun bytes offset page =>
    s!"read of {bytes} bytes at offset {offset} overruns page {page}"
| .pageSizeNotPowerOfTwo size =>
    s!"page size {size} is not a power of two"
| .pagesInDoubt =>
    "called `Result::unwrap()` on an `Err` value: " ++
      "PoisonError \x7b .. \x7d"
| .zeroInName position bytes =>
    "thread name may not contain interior null bytes: " ++
      s!"NulError({position}, {Text.bracketed bytes})"
| .taskFailed text => text

end Fault

end BeltHeap
