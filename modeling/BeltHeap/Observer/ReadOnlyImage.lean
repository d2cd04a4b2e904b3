import BeltHeap.Observer.BootImage
import BeltHeap.Observer.Source

/-
  The heap and code of a boot image file, seen at the address
  that they were built for.  There is no process: the memory
  never changes and the epoch never advances.

  Key definitions include:
    * `ReadOnlyImage`
    * `ReadOnlyImage.ofFile`
    * the instance `MemorySource ReadOnlyImage`
-/

------------------------------------------------------------
-- Images
------------------------------------------------------------

namespace BeltHeap

/- A header with the heap and code that belong to it. -/
structure ReadOnlyImage where
  header : BootImageHeader
  contents : Array UInt8
deriving DecidableEq, Repr

namespace ReadOnlyImage

/-
  The image in a file, given the bytes of the file if there is
  one.  A file may be longer than its header says.
-/
def ofFile
    (file : Option (List UInt8)) :
    ExceptT BootImageError (Except Fault) ReadOnlyImage := do
  match file with
  | none => throw (.io "No such file or directory (os error 2)")
  | some bs => do
      let header ← BootImageHeader.readFrom bs
      let needed ← header.imageSize
      if bs.length < needed then
        throw (.truncated needed bs.length)
      else
        let mapped ← header.mappedSize
        pure
          { header
            contents :=
              (BootImageHeader.slice bs header.heapOffset
                mapped).toArray }

/- The first address of the image. -/
def start (i : ReadOnlyImage) : Nat :=
  i.header.bootHeapStart

/- The first address behind the image. -/
def stop (i : ReadOnlyImage) : Except Fault Nat :=
  Word.add i.start i.contents.size

/- Does a range lie in the image? -/
def covers
    (i : ReadOnlyImage)
    (a count : Nat) : Bool :=
  i.start ≤ a && a - i.start + count ≤ i.contents.size

/- Read all of a range. -/
def read
    (a count : Nat) : ObserverM ReadOnlyImage (List UInt8) := do
  let i ← Activity.state
  if i.covers a count then
    let start := a - i.start
    pure (i.contents.extract start (start + count)).toList
  else .fail (.unmapped a count)

/- What an image cannot do. -/
def unsupported
    {α : Type}
    (operation : String) : ObserverM ReadOnlyImage α :=
  .fail (.readOnly operation)

end ReadOnlyImage

/- An image is a source of memory that cannot be written. -/
instance : MemorySource ReadOnlyImage where
  epoch _ := 0
  pageSize i := i.header.pageSize
  byteOrder i := i.header.byteOrder
  wordSize i := i.header.wordSize
  processState _ := .noProcess
  read := ReadOnlyImage.read
  write _ _ := ReadOnlyImage.unsupported "write"
  suspend := ReadOnlyImage.unsupported "suspend"
  resume := ReadOnlyImage.unsupported "resume"
  kill := ReadOnlyImage.unsupported "kill"
  threads := ReadOnlyImage.unsupported "enumerate the threads of"

end BeltHeap
