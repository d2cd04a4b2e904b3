import BeltHeap.Percentages
import BeltHeap.Word

/-
  What can go wrong on the side of the observer.

  Key definitions include:
    * `BootImageError`
    * `ObserverError`
    * `Interruption`
-/

------------------------------------------------------------
-- Boot Images
------------------------------------------------------------

namespace BeltHeap

/- Why bytes are no boot image. -/
inductive BootImageError where
| io (text : String) : BootImageError
| badMagic (magic : List UInt8) : BootImageError
| badByteOrder (flag : Nat) : BootImageError
| badWordSize (size : Nat) : BootImageError
| unsupportedVersion (version : Nat) : BootImageError
| badPageSize (size : Nat) : BootImageError
| badHeapOffset (offset : Nat) : BootImageError
| unaligned (start mappedSize pageSize : Nat) : BootImageError
| truncated (needed actual : Nat) : BootImageError
deriving DecidableEq, Repr

namespace BootImageError

/- The version of boot images that can be read. -/
def expectedVersion : Nat := 1

/- The sentence for bytes that are no boot image. -/
def message : BootImageError → String
| .io text => s!"error reading boot image: {text}"
| .badMagic magic =>
    "not a boot image: magic " ++
      Text.bracketed (magic.map UInt8.toNat)
| .badByteOrder flag => s!"unknown byte order flag {flag}"
| .badWordSize size => s!"unsupported word width {size}"
| .unsupportedVersion version =>
    s!"boot image version {version}, expected {expectedVersion}"
| .badPageSize size => s!"page size {size} is not a power of two"
| .badHeapOffset offset =>
    s!"heap at file offset {offset} overlaps the header"
| .unaligned start mappedSize pageSize =>
    s!"heap at {Text.hex start} with {mappedSize} bytes " ++
      "of heap and code is not made of whole " ++
      s!"{pageSize} byte pages"
| .truncated needed actual =>
    s!"boot image needs {needed} bytes, the file has {actual}"

end BootImageError

------------------------------------------------------------
-- Observers
------------------------------------------------------------

/- Why an observer gets no answer. -/
inductive ObserverError where
| notStopped (operation : String) : ObserverError
| terminated : ObserverError
| unmapped (address length : Nat) : ObserverError
| io (text : String) : ObserverError
| readOnly (operation : String) : ObserverError
| bootImage (cause : BootImageError) : ObserverError
| collecting (collectionEpoch rootEpoch : Nat) : ObserverError
deriving DecidableEq, Repr

/- The sentence for an observer that gets no answer. -/
def ObserverError.message : ObserverError → String
| .notStopped operation =>
    s!"the target process must be stopped to {operation}"
| .terminated => "the target process has terminated"
| .unmapped address length =>
    s!"{length} bytes at {Text.hex address} " ++
      "are not mapped in the target"
| .io text => s!"remote I/O error: {text}"
| .readOnly operation =>
    s!"attempt to {operation} a read-only boot image " ++
      "with no live process"
| .bootImage cause => cause.message
| .collecting collectionEpoch rootEpoch =>
    "the target is collecting " ++
      s!"(collection epoch {collectionEpoch}, " ++
      s!"root epoch {rootEpoch})"

/- The work of an observer ends with an error or with a fault. -/
inductive Interruption where
| error (cause : ObserverError) : Interruption
| fault (cause : Fault) : Interruption
deriving DecidableEq, Repr

end BeltHeap
