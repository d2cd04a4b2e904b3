import BeltHeap.Endian
import BeltHeap.Observer.Error

/-
  Boot image files: a header of 48 bytes, and at the offset that
  it names the heap and the code.

  Key definitions include:
    * `BootImageHeader`
    * `BootImageHeader.make`
    * `BootImageHeader.parse`, `BootImageHeader.readFrom`
    * `BootImageHeader.toBytes`
    * `BootImageHeader.writeImage`
-/

------------------------------------------------------------
-- Headers
------------------------------------------------------------

namespace BeltHeap

/-
  The header of a boot image.  The heap and the code follow each
  other in the file from `heapOffset` on, and were built to lie
  at `bootHeapStart`.
-/
structure BootImageHeader where
  byteOrder : ByteOrder
  wordSize : Nat
  version : Nat
  pageSize : Nat
  heapSize : Nat
  codeSize : Nat
  heapOffset : Nat
  bootHeapStart : Nat
deriving DecidableEq, Repr

namespace BootImageHeader

/- The number of bytes in a header. -/
def size : Nat := 48

/- The bytes that every boot image starts with. -/
def magic : List UInt8 := [0x42, 0x45, 0x4c, 0x54]

/-
  A header for a heap and code that follow at the first page
  boundary behind it.
-/
def make
    (byteOrder : ByteOrder)
    (wordSize pageSize heapSize codeSize bootHeapStart : Nat) :
    BootImageHeader where
  byteOrder := byteOrder
  wordSize := wordSize
  version := BootImageError.expectedVersion
  pageSize := pageSize
  heapSize := heapSize
  codeSize := codeSize
  heapOffset := Word.alignUp size pageSize
  bootHeapStart := bootHeapStart

/- The number of bytes of heap and code. -/
def mappedSize (h : BootImageHeader) : Except Fault Nat :=
  Word.add h.heapSize h.codeSize

/- The number of bytes that the file has to have. -/
def imageSize (h : BootImageHeader) : Except Fault Nat := do
  let mapped ← h.mappedSize
  Word.add h.heapOffset mapped

------------------------------------------------------------
-- Writing
------------------------------------------------------------

/- The flag that stands for a byte order. -/
def orderFlag : ByteOrder → UInt8
| .littleEndian => 0
| .bigEndian => 1

/- The header as bytes. -/
def toBytes (h : BootImageHeader) : List UInt8 :=
  magic ++ [orderFlag h.byteOrder, UInt8.ofNat h.wordSize, 0, 0] ++
    h.byteOrder.encode 4 h.version ++
    h.byteOrder.encode 4 h.pageSize ++
    h.byteOrder.encode 8 h.heapSize ++
    h.byteOrder.encode 8 h.codeSize ++
    h.byteOrder.encode 8 h.heapOffset ++
    h.byteOrder.encode 8 h.bootHeapStart

/-
  The whole file: the header, zeros up to the offset of the
  heap, and the heap and code, which have to be as large as the
  header says.
-/
def writeImage
    (h : BootImageHeader)
    (contents : List UInt8) : Except Fault (List UInt8) := do
  let mapped ← h.mappedSize
  if contents.length ≠ mapped then
    throw (.lengthsDiffer contents.length mapped)
  else
    let padding ← Word.sub h.heapOffset size
    let zeros ← Word.entries padding 1
    pure (h.toBytes ++ List.replicate zeros 0 ++ contents)

------------------------------------------------------------
-- Reading
------------------------------------------------------------

/- Some bytes out of others. -/
def slice
    (bs : List UInt8)
    (offset count : Nat) : List UInt8 :=
  (bs.drop offset).take count

/- The byte order that a flag stands for. -/
def orderOfFlag?
    (flag : Nat) : Except BootImageError ByteOrder :=
  if flag = 0 then .ok .littleEndian
  else if flag = 1 then .ok .bigEndian
  else .error (.badByteOrder flag)

/- The fields of a header in a byte order, not checked yet. -/
def fields
    (order : ByteOrder)
    (wordSize : Nat)
    (bs : List UInt8) : BootImageHeader where
  byteOrder := order
  wordSize := wordSize
  version := order.decode (slice bs 8 4)
  pageSize := order.decode (slice bs 12 4)
  heapSize := order.decode (slice bs 16 8)
  codeSize := order.decode (slice bs 24 8)
  heapOffset := order.decode (slice bs 32 8)
  bootHeapStart := order.decode (slice bs 40 8)

/- The first thing wrong with the fields of a header, if any. -/
def check
    (h : BootImageHeader) :
    ExceptT BootImageError (Except Fault) Unit := do
  if h.version ≠ BootImageError.expectedVersion then
    throw (.unsupportedVersion h.version)
  else if !Word.isPowerOfTwo h.pageSize then
    throw (.badPageSize h.pageSize)
  else
    let mapped ← h.mappedSize
    if h.bootHeapStart % h.pageSize ≠ 0 ∨
        mapped % h.pageSize ≠ 0 then
      throw (.unaligned h.bootHeapStart mapped h.pageSize)
    else if h.heapOffset < size then
      throw (.badHeapOffset h.heapOffset)
    else pure ()

/- Read a header from exactly as many bytes as it has. -/
def parse
    (bs : List UInt8) :
    ExceptT BootImageError (Except Fault) BootImageHeader := do
  let found := slice bs 0 4
  if found ≠ magic then throw (.badMagic found)
  else
    let flag := (bs.getD 4 0).toNat
    match orderOfFlag? flag with
    | .error e => throw e
    | .ok order =>
        let wordSize := (bs.getD 5 0).toNat
        if wordSize ≠ 4 ∧ wordSize ≠ 8 then
          throw (.badWordSize wordSize)
        else
          let header := fields order wordSize bs
          header.check
          pure header

/- Read a header from the start of a run of bytes. -/
def readFrom
    (bs : List UInt8) :
    ExceptT BootImageError (Except Fault) BootImageHeader :=
  if bs.length < size then
    throw (.io "failed to fill whole buffer")
  else parse (bs.take size)

end BootImageHeader

end BeltHeap
