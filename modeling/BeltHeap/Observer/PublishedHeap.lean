import BeltHeap.Heap.State
import BeltHeap.Observer.HeapView

/-
  The words that a heap publishes as a source of memory: the
  published information and the root table, each at its place.
  All other bytes are zero.

  Key definitions include:
    * `WordRun`
    * `PublishedHeap`
    * `PublishedHeap.ofHeap`
    * the instance `MemorySource PublishedHeap`
-/

------------------------------------------------------------
-- Runs of Words
------------------------------------------------------------

namespace BeltHeap

/- Words in memory, one after the other from `start` on. -/
structure WordRun where
  start : Nat
  words : Array Nat
deriving DecidableEq, Repr

/- The byte at an address, if the run covers it. -/
def WordRun.byte?
    (r : WordRun)
    (a : Nat) : Option UInt8 :=
  if a < r.start then none
  else
    let offset := a - r.start
    r.words[offset / Word.bytes]?.map fun word =>
      UInt8.ofNat (word >>> (8 * (offset % Word.bytes)))

------------------------------------------------------------
-- Published Heaps
------------------------------------------------------------

/- The published words of a heap, and an epoch set from outside. -/
structure PublishedHeap where
  epoch : Nat
  runs : List WordRun
deriving DecidableEq, Repr

namespace PublishedHeap

/- What a heap publishes now. -/
def ofHeap
    (epoch : Nat)
    (h : Heap) : PublishedHeap where
  epoch := epoch
  runs :=
    [
      ⟨h.placement.info, h.info.words.toArray⟩,
      ⟨h.placement.roots, h.roots.entries⟩
    ]

/- The byte at an address. -/
def byte
    (p : PublishedHeap)
    (a : Nat) : UInt8 :=
  (p.runs.findSome? fun r => r.byte? a).getD 0

/- Read a range. -/
def read
    (a count : Nat) : ObserverM PublishedHeap (List UInt8) :=
  Activity.reading fun p => (List.range' a count).map p.byte

/- What cannot be done to a heap through what it publishes. -/
def unsupported
    {α : Type}
    (operation : String) : ObserverM PublishedHeap α :=
  .fail (.readOnly operation)

end PublishedHeap

/- The published words of a heap can only be read. -/
instance : MemorySource PublishedHeap where
  epoch := PublishedHeap.epoch
  pageSize _ := Word.pageBytes
  byteOrder _ := .littleEndian
  wordSize _ := Word.bytes
  processState _ := .noProcess
  read := PublishedHeap.read
  write _ _ := PublishedHeap.unsupported "write"
  suspend := PublishedHeap.unsupported "suspend"
  resume := PublishedHeap.unsupported "resume"
  kill := PublishedHeap.unsupported "kill"
  threads := PublishedHeap.unsupported "enumerate the threads of"

end BeltHeap
