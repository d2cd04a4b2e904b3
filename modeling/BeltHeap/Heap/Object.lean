import BeltHeap.Memory

/-
  How objects lie in memory: a word with the size in bytes, a
  word with the number of references, the references, and the
  payload.

  Key definitions include:
    * `Object.bytesFor`, `Object.checkedBytesFor`
    * `Object.size`, `Object.refCount`
    * `Object.field`, `Object.fields`
    * `Object.format`
-/

------------------------------------------------------------
-- The Layout of Objects
------------------------------------------------------------

namespace BeltHeap

namespace Object

/- The number of words before the references. -/
def headerWords : Nat := 2

/- The number of bytes of an object. -/
def bytesFor (refs words : Nat) : Nat :=
  (headerWords + refs + words) * Word.bytes

/- The number of bytes of an object, if that is a word. -/
def checkedBytesFor
    (refs words : Nat) : Except Fault Nat := do
  let before ← Word.add headerWords refs
  let all ← Word.add before words
  Word.mul all Word.bytes

/- Where reference `i` is, from the start of the object. -/
def fieldOffset (i : Nat) : Nat :=
  (headerWords + i) * Word.bytes

/- The number of bytes that an object says it has. -/
def size
    (m : Memory)
    (object : Nat) : Nat :=
  m.load object

/- The number of references that an object says it has. -/
def refCount
    (m : Memory)
    (object : Nat) : Nat :=
  m.load (object + Word.bytes)

/- The slot of reference `i` of an object. -/
def field (object i : Nat) : Nat :=
  object + fieldOffset i

/- The slots of all references of an object, in order. -/
def fields
    (m : Memory)
    (object : Nat) : List Nat :=
  (List.range (refCount m object)).map (field object)

/- The number of payload words of an object. -/
def payloadWords
    (m : Memory)
    (object : Nat) : Nat :=
  size m object / Word.bytes - headerWords - refCount m object

/- The address of payload word `i` of an object. -/
def payload
    (m : Memory)
    (object i : Nat) : Nat :=
  field object (refCount m object + i)

/-
  Write the header of an object, and null into each of its
  references.
-/
def format
    (object size refs : Nat)
    (m : Memory) : Memory :=
  let m := m.store object size
  let m := m.store (object + Word.bytes) refs
  (List.range refs).foldl (fun m i => m.store (field object i) 0) m

end Object

end BeltHeap
