import Std.Data.HashSet
import BeltHeap.Heap.Creation
import BeltHeap.Heap.Mutating

/-
  A mutator: a program that works on a heap through unrooted
  locals, handles of roots and registers, and follows
  references from there.

  Key definitions include:
    * `Reference`
    * `Locals`
    * `Heap.isWellFormed`
    * `Heap.resolve`
    * `ObjectView`
    * `Heap.graph`
    * `Mutator.Operation`, `Mutator.Answer`
    * `Mutator.perform`
-/

------------------------------------------------------------
-- References
------------------------------------------------------------

namespace BeltHeap

/- Where a path of references starts. -/
inductive Reference.Base where
| var (name : String) : Reference.Base
| root (handle : Nat) : Reference.Base
| register (number : Nat) : Reference.Base
| offset (bytes : Nat) : Reference.Base
| absolute (address : Nat) : Reference.Base
deriving DecidableEq, Repr

/-
  Null, or the object at the end of a path: from its start on,
  each number is a field of the object reached so far.
-/
inductive Reference where
| null : Reference
| path (base : Reference.Base) (fields : List Nat) : Reference
deriving DecidableEq, Repr

/- The unrooted locals of a mutator, the last one set first. -/
abbrev Locals := List (String × Nat)

/- The object that a local refers to. -/
def Locals.get?
    (locals : Locals)
    (name : String) : Option Nat :=
  (locals.find? fun l => l.1 == name).map (·.2)

/- The locals after one of them was set. -/
def Locals.set
    (locals : Locals)
    (name : String)
    (object : Nat) : Locals :=
  (name, object) :: locals

------------------------------------------------------------
-- Well-Formed Objects
------------------------------------------------------------

namespace Heap

/- The mark of the belt in whose allocated part an address is. -/
def markAbove?
    (h : Heap)
    (a : Nat) : Option Nat :=
  (h.layout.belts.find? fun b => b.containsAllocated a).map (·.mark)

/-
  An object that a mutator may use: aligned to words, with a
  header and all of its bytes below the mark of its belt, a size
  in whole words, and no more references than fit.
-/
def isWellFormed
    (h : Heap)
    (object : Nat) : Bool :=
  match h.markAbove? object with
  | none => false
  | some mark =>
      let size := Object.size h.memory object
      let refs := Object.refCount h.memory object
      let header := Object.bytesFor 0 0
      object % Word.bytes == 0 && header ≤ mark - object &&
        header ≤ size && size % Word.bytes == 0 &&
        size ≤ mark - object &&
        refs ≤ size / Word.bytes - Object.headerWords

/- Does a well-formed object have a field? -/
def hasField
    (h : Heap)
    (object i : Nat) : Bool :=
  h.isWellFormed object && i < Object.refCount h.memory object

/- Does a well-formed object have a payload word? -/
def hasPayload
    (h : Heap)
    (object i : Nat) : Bool :=
  h.isWellFormed object && i < Object.payloadWords h.memory object

/- Was the handle ever handed out? -/
def knowsHandle
    (h : Heap)
    (handle : Nat) : Bool :=
  handle < h.roots.highWater

/- The object at the start of a path. -/
def resolveBase
    (h : Heap)
    (locals : Locals) : Reference.Base → Option Nat
| .var name => locals.get? name
| .root handle =>
    if h.knowsHandle handle then
      some (h.roots.entries.getD handle 0)
    else none
| .register n =>
    if n < h.registers.size then some (h.registers.getD n 0)
    else none
| .offset bytes => some (h.layout.heap.start + bytes)
| .absolute a => some a

/- The object that is reached from another one through fields. -/
def follow
    (h : Heap)
    (object : Nat) : List Nat → Option Nat
| [] => some object
| i :: rest =>
    if h.hasField object i then
      h.follow (h.memory.load (Object.field object i)) rest
    else none

/- The object that a reference stands for, if it is found. -/
def resolve
    (h : Heap)
    (locals : Locals) : Reference → Option Nat
| .null => some 0
| .path base fields => do
    let object ← h.resolveBase locals base
    h.follow object fields

------------------------------------------------------------
-- Views of Objects
------------------------------------------------------------

end Heap

/- What an object holds, with the start of its payload. -/
structure ObjectView where
  object : Nat
  size : Nat
  refs : List Nat
  words : List Nat
deriving DecidableEq, Repr

namespace Heap

/- The number of payload words that a view shows. -/
def viewedWords : Nat := 16

/- What a well-formed object holds. -/
def view
    (h : Heap)
    (object : Nat) : ObjectView where
  object := object
  size := Object.size h.memory object
  refs := (Object.fields h.memory object).map h.memory.load
  words :=
    (List.range
      (min viewedWords (Object.payloadWords h.memory object))).map
      fun i => h.memory.load (Object.payload h.memory object i)

/- What a well-formed object holds, if it is one. -/
def view?
    (h : Heap)
    (object : Nat) : Option ObjectView :=
  if h.isWellFormed object then some (h.view object) else none

/- The objects in the root table and in the registers. -/
def rootObjects (h : Heap) : List Nat :=
  let entries :=
    h.roots.liveEntries.map fun i => h.roots.entries.getD i 0
  entries ++ h.registers.toList.filter (· != 0)

/-
  A queue in two halves, the back one in reverse, with all that
  was ever put into it.
-/
structure Frontier where
  front : List Nat := []
  back : List Nat := []
  seen : Std.HashSet Nat := {}

/- Put a reference at the end of the queue, unless it was there. -/
def Frontier.push
    (f : Frontier)
    (object : Nat) : Frontier :=
  if object = 0 || f.seen.contains object then f
  else
    { f with
      back := object :: f.back
      seen := f.seen.insert object }

/- Take the first reference out of the queue. -/
def Frontier.pop? (f : Frontier) : Option (Nat × Frontier) :=
  match f.front with
  | object :: front => some (object, { f with front })
  | [] =>
      match f.back.reverse with
      | [] => none
      | object :: front => some (object, { f with front, back := [] })

/- The objects in a queue and all that are reached from them. -/
def graphFrom
    (h : Heap) :
    Nat → Frontier → List (Nat × Option ObjectView)
| 0, _ => []
| fuel + 1, f =>
    match f.pop? with
    | none => []
    | some (object, f) =>
        let view := h.view? object
        let refs := (view.map (·.refs)).getD []
        (object, view) ::
          h.graphFrom fuel (refs.foldl Frontier.push f)

/-
  All objects reached from the roots, breadth first.  Each of
  them was found in a root or in a word of the heap.
-/
def graph (h : Heap) : List (Nat × Option ObjectView) :=
  let roots := h.rootObjects
  h.graphFrom (roots.length + h.layout.heap.length)
    (roots.foldl Frontier.push {})

/- The dirty cards of a heap. -/
def dirtyCount (h : Heap) : Nat :=
  h.cards.dirtyCount

end Heap

------------------------------------------------------------
-- Operations
------------------------------------------------------------

namespace Mutator

/- What a mutator may ask for. -/
inductive Operation where
| alloc (refs words : Nat) (name : Option String) : Operation
| allocBytes (bytes : Nat) : Operation
| allocMature (bytes : Nat) : Operation
| bumpMature (bytes : Nat) : Operation
| setField
    (source : Reference)
    (field : Nat)
    (target : Reference) : Operation
| putWord
    (source : Reference)
    (word value : Nat) : Operation
| view (source : Reference) : Operation
| addRoot (source : Reference) : Operation
| setRoot (handle : Nat) (source : Reference) : Operation
| getRoot (handle : Nat) : Operation
| removeRoot (handle : Nat) : Operation
| setRegister (number : Nat) (source : Reference) : Operation
| collect (bytes : Nat) : Operation
| collectOnRequest : Operation
| collectDirectly (bytes : Nat) : Operation
| minor (bytes : Nat) : Operation
| major (bytes : Nat) : Operation
| expand (bytes : Nat) : Operation
| dirtyCard (card : Nat) : Operation
| cardOf (offset : Nat) : Operation
| peek (offset count : Nat) : Operation
| register (regions : List MemoryRegion) : Operation
| regions : Operation
| graph : Operation
deriving DecidableEq, Repr

/- What a mutator is answered. -/
inductive Answer where
| done : Answer
| flag (value : Bool) : Answer
| count (value : Nat) : Answer
| handle (value : Option Nat) : Answer
| address (value : Option Nat) : Answer
| allocated (object : Nat) (zeroed : Bool) : Answer
| object (view : ObjectView) : Answer
| words (values : List Nat) : Answer
| regions (list : List MemoryRegion) : Answer
| graph (objects : List (Nat × Option ObjectView)) : Answer
| allocationFailed (error : AllocationError) : Answer
| expansionFailed (error : ExpansionError) : Answer
| noSuchObject : Answer
| outsideHeap : Answer
deriving DecidableEq, Repr

------------------------------------------------------------
-- Allocating Operations
------------------------------------------------------------

/- The number of words of a new object that are looked at. -/
def inspectedWords : Nat := 256

/- Are the first words of a block of some bytes all zero? -/
def isZeroed
    (m : Memory)
    (object size : Nat) : Bool :=
  (List.range (min (size / Word.bytes) inspectedWords)).all fun i =>
    m.load (object + i * Word.bytes) == 0

/-
  Write the header of a block without references, as far as the
  block has room for it.
-/
def formatBlock
    (object size : Nat)
    (m : Memory) : Memory :=
  let m := if Word.bytes ≤ size then m.store object size else m
  if Object.bytesFor 0 0 ≤ size then
    m.store (object + Word.bytes) 0
  else m

/- Allocate an object and write its header. -/
def allocObject
    (rt : Runtime)
    (refs words : Nat) : HeapM Answer := do
  let bytes ← Object.checkedBytesFor refs words
  let size := Word.alignUp bytes rt.alignment
  match ← HeapM.alloc rt size with
  | .error e => pure (.allocationFailed e)
  | .ok object => do
      let zeroed ← HeapM.reading fun h =>
        isZeroed h.memory object size
      HeapM.update fun h => h.mapMemory (Object.format object size refs)
      pure (.allocated object zeroed)

/- Allocate a block and write the header of an object into it. -/
def allocBlock
    (rt : Runtime)
    (bytes : Nat) : HeapM Answer := do
  match ← HeapM.alloc rt bytes with
  | .error e => pure (.allocationFailed e)
  | .ok object => do
      let size := HeapM.roundedSize rt bytes
      HeapM.update fun h => h.mapMemory (formatBlock object size)
      pure (.address (some object))

/- Allocate a block in the mature belt and write a header. -/
def allocMatureBlock (bytes : Nat) : HeapM Answer := do
  let object? ← HeapM.allocateMature bytes
  match object? with
  | none => pure ()
  | some object =>
      HeapM.update fun h => h.mapMemory (formatBlock object bytes)
  pure (.address object?)

------------------------------------------------------------
-- Performing Operations
------------------------------------------------------------

/- Work with the object that a reference stands for. -/
def withObject
    (locals : Locals)
    (r : Reference)
    (next : Nat → HeapM Answer) : HeapM Answer := do
  match ← HeapM.reading fun h => h.resolve locals r with
  | none => pure .noSuchObject
  | some object => next object

/- Work under a condition on the heap. -/
def whenever
    (condition : Heap → Bool)
    (next : HeapM Answer) : HeapM Answer := do
  if ← HeapM.reading condition then next
  else pure .noSuchObject

/- The number of dirty cards as an answer. -/
def dirtyCount : HeapM Answer := do
  pure (.count (← HeapM.reading Heap.dirtyCount))

/- The number of roots in use as an answer. -/
def usedRoots : HeapM Answer := do
  pure (.count (← HeapM.reading fun h => h.roots.used))

/- Perform an operation with the given locals. -/
def answer
    (rt : Runtime)
    (locals : Locals) : Operation → HeapM Answer
| .alloc refs words _ => allocObject rt refs words
| .allocBytes bytes => allocBlock rt bytes
| .allocMature bytes => allocMatureBlock bytes
| .bumpMature bytes => do
    pure (.address (← HeapM.allocateIn Role.mature bytes))
| .setField source field target =>
    withObject locals source fun object =>
      withObject locals target fun value =>
        whenever (fun h => h.hasField object field) do
          HeapM.writeReference object (Object.fieldOffset field) value
          dirtyCount
| .putWord source word value =>
    withObject locals source fun object =>
      whenever (fun h => h.hasPayload object word) do
        HeapM.update fun h =>
          h.mapMemory fun m =>
            let place := Object.payload m object word
            m.store place value
        pure .done
| .view source =>
    withObject locals source fun object => do
      match ← HeapM.reading fun h => h.view? object with
      | none => pure .noSuchObject
      | some view => pure (.object view)
| .addRoot source =>
    withObject locals source fun object => do
      pure (.handle (← HeapM.addRoot object))
| .setRoot handle source =>
    whenever (fun h => h.knowsHandle handle) <|
      withObject locals source fun object => do
        HeapM.setRoot handle object
        usedRoots
| .getRoot handle =>
    whenever (fun h => h.knowsHandle handle) do
      pure (.address (some (← HeapM.getRoot handle)))
| .removeRoot handle =>
    whenever (fun h => h.knowsHandle handle) do
      HeapM.removeRoot handle
      usedRoots
| .setRegister number source =>
    whenever (fun h => number < h.registers.size) <|
      withObject locals source fun object => do
        HeapM.setRegister number object
        pure .done
| .collect bytes => do pure (.flag (← HeapM.collect rt bytes))
| .collectOnRequest => do
    pure (.flag (← HeapM.collectOnRequest rt))
| .collectDirectly bytes => do
    pure (.flag (← HeapM.collectGarbage rt bytes))
| .minor bytes => do pure (.flag (← HeapM.minorCollect rt bytes))
| .major bytes => do pure (.flag (← HeapM.majorCollect rt bytes))
| .expand bytes => do
    match ← HeapM.expandMature bytes with
    | .error e => pure (.expansionFailed e)
    | .ok () => pure .done
| .dirtyCard card => do
    let dirty ← HeapM.reading fun h => h.cards.isDirty card
    let _ ← dirty
    HeapM.update fun h => { h with cards := h.cards.dirtied card }
    dirtyCount
| .cardOf offset => do
    let card ← HeapM.reading fun h =>
      h.cards.index? (h.layout.heap.start + offset)
    match card with
    | .ok card => pure (.count card)
    | .error _ => pure .outsideHeap
| .peek offset count =>
    whenever
      (fun h =>
        offset % Word.bytes == 0 &&
          offset + count * Word.bytes ≤ h.layout.heap.length) do
      let words ← HeapM.reading fun h =>
        (List.range count).map fun i =>
          h.memory.load
            (h.layout.heap.start + offset + i * Word.bytes)
      pure (.words words)
| .register regions => do
    HeapM.registerRegions regions
    pure (.regions (← HeapM.reading fun h => h.info.regions))
| .regions => do
    pure (.regions (← HeapM.reading fun h => h.info.regions))
| .graph => do
    pure (.graph (← HeapM.reading Heap.graph))

/-
  The locals after an operation.  All are dropped when a
  collection may have moved their objects, but an allocation
  that fails keeps them.  A new object may become a local.
-/
def localsAfter
    (locals : Locals)
    (collected : Bool) : Operation → Answer → Locals
| .alloc .., .allocationFailed _ => locals
| .alloc _ _ name, .allocated object _ =>
    let kept := if collected then [] else locals
    match name with
    | none => kept
    | some name => Locals.set kept name object
| _, _ => if collected then [] else locals

/- Perform an operation, and bring the locals up to date. -/
def perform
    (rt : Runtime)
    (locals : Locals)
    (op : Operation) : HeapM (Answer × Locals) := do
  let before ← HeapM.reading fun h => h.info.epochs.collection
  let a ← answer rt locals op
  let after ← HeapM.reading fun h => h.info.epochs.collection
  pure (a, localsAfter locals (before != after) op a)

end Mutator

end BeltHeap
