import BeltHeap.Options

/-
  What a heap is laid out from, and why a heap may not come
  about.

  Key definitions include:
    * `HeapConfig`
    * `HeapConfig.validate`
    * `HeapConfig.usableMemory`
    * `LayoutError`
    * `MapError`
    * `HeapInitError`
-/

------------------------------------------------------------
-- Errors
------------------------------------------------------------

namespace BeltHeap

/- Why belts cannot be laid out. -/
inductive LayoutError where
| invalidPercentages (percentages : Percentages) : LayoutError
| beltTooSmall (heapSize belt : Nat) : LayoutError
deriving DecidableEq, Repr

/- The sentence for belts that cannot be laid out. -/
def LayoutError.message : LayoutError → String
| .invalidPercentages p =>
    s!"belt percentages {Text.bracketed p} " ++
      "must be positive and add up to 100"
| .beltTooSmall heapSize belt =>
    s!"a heap of {heapSize} bytes leaves belt {belt} " ++
      "without a single page"

/- Why memory cannot be mapped. -/
inductive MapError where
| outOfMemory : MapError
| emptyRange : MapError
deriving DecidableEq, Repr

/- The sentence of the operating system for such a refusal. -/
def MapError.message : MapError → String
| .outOfMemory => "Cannot allocate memory (os error 12)"
| .emptyRange => "Invalid argument (os error 22)"

/- Why a heap does not come about. -/
inductive HeapInitError where
| beltCount (count : Nat) : HeapInitError
| heapTooSmall (size : Nat) : HeapInitError
| cardSize (logCardBytes : Nat) : HeapInitError
| emptyRootTable : HeapInitError
| layout (cause : LayoutError) : HeapInitError
| unmapped (cause : MapError) : HeapInitError
deriving DecidableEq, Repr

/- The sentence for a heap that does not come about. -/
def HeapInitError.message : HeapInitError → String
| .beltCount count =>
    s!"the collector needs exactly two belts, {count} configured"
| .heapTooSmall size =>
    s!"heap size {size} is below the minimum of " ++
      s!"{Limits.minHeapSize} bytes"
| .cardSize n =>
    s!"log card size {n} is outside " ++
      s!"[{Limits.minLogCardBytes}, {Limits.maxLogCardBytes}]"
| .emptyRootTable =>
    "the root table needs room for at least one entry"
| .layout cause => cause.message
| .unmapped cause =>
    s!"failed to reserve the heap: {cause.message}"

------------------------------------------------------------
-- Configurations
------------------------------------------------------------

/- Everything that is needed to lay out a heap. -/
structure HeapConfig where
  maxHeapSize : Nat
  beltPercentages : Percentages
  logCardBytes : Nat := Limits.defaultLogCardBytes
  matureExpandable : Bool := true
  rootCapacity : Nat := Limits.defaultRootCapacity
deriving DecidableEq, Repr, Inhabited

namespace HeapConfig

/- The configuration that options ask for. -/
def ofOptions (o : Options) : HeapConfig where
  maxHeapSize := o.maxHeapSize
  beltPercentages := o.beltPercentages
  logCardBytes := o.logCardBytes
  matureExpandable := o.matureExpandable
  rootCapacity := o.rootCapacity

/-
  A minor collection is followed by a major one once the mature
  belt holds this much, half of the heap.
-/
def usableMemory (c : HeapConfig) : Nat :=
  c.maxHeapSize / 2

/- The first thing wrong with a configuration, if any. -/
def validate (c : HeapConfig) : Except HeapInitError Unit :=
  if c.beltPercentages.length ≠ 2 then
    .error (.beltCount c.beltPercentages.length)
  else if c.maxHeapSize < Limits.minHeapSize then
    .error (.heapTooSmall c.maxHeapSize)
  else if !Options.logCardBytesValid c.logCardBytes then
    .error (.cardSize c.logCardBytes)
  else if c.rootCapacity = 0 then .error .emptyRootTable
  else .ok ()

end HeapConfig

end BeltHeap
