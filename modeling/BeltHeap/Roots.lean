import BeltHeap.Log.Activity

/-
  The root table: references that the runtime keeps alive, at
  places that never change.  The collector treats every entry
  that is not null as a root and rewrites it when the object
  moves.

  Key definitions include:
    * `RootTable`
    * `RootTable.make`
    * `RootTable.insert`, `RootTable.add`
    * `RootTable.get`, `RootTable.set`, `RootTable.remove`
    * `RootTable.used`, `RootTable.liveEntries`
-/

------------------------------------------------------------
-- Root Tables
------------------------------------------------------------

namespace BeltHeap

/-
  The entries, the number of entries ever used, and the used
  entries that are free again, the last one freed first.  A
  handle is the index of an entry.
-/
structure RootTable where
  entries : Array Nat
  highWater : Nat
  free : List Nat
deriving DecidableEq, Repr, Inhabited

namespace RootTable

/- An unused table. -/
def make (capacity : Nat) : Except Fault RootTable := do
  let entries ← Word.entries capacity Word.bytes
  pure
    {
      entries := Array.replicate entries 0
      highWater := 0
      free := []
    }

/- The number of entries of a table. -/
def capacity (t : RootTable) : Nat :=
  t.entries.size

/- The number of entries in use. -/
def used (t : RootTable) : Nat :=
  t.highWater - t.free.length

/- The unused entry that is taken next, if there is one. -/
def vacant? (t : RootTable) : Option Nat :=
  match t.free with
  | handle :: _ => some handle
  | [] => if t.highWater < t.entries.size then some t.highWater else none

/- Put a reference into the unused entry that is taken next. -/
def occupy
    (t : RootTable)
    (handle object : Nat) : RootTable :=
  match t.free with
  | _ :: free =>
      { t with
        entries := t.entries.setIfInBounds handle object
        free }
  | [] =>
      { t with
        entries := t.entries.setIfInBounds handle object
        highWater := t.highWater + 1 }

/- Put a reference into an unused entry, if there is one. -/
def insert
    (t : RootTable)
    (object : Nat) : Option (Nat × RootTable) :=
  t.vacant?.map fun handle => (handle, t.occupy handle object)

/- Put a reference into an unused entry, and report a full table. -/
def add
    {ε σ : Type}
    (t : RootTable)
    (object : Nat) :
    Activity ε σ (Option (Nat × RootTable)) := do
  match t.insert object with
  | some r => pure (some r)
  | none => do
      Activity.emit (.rootTableFull t.capacity)
      pure none

/- The reference in an entry. -/
def get
    (t : RootTable)
    (handle : Nat) : Except Fault Nat :=
  if h : handle < t.entries.size then .ok t.entries[handle]
  else .error (.indexOutOfBounds t.entries.size handle)

/- The table with another reference in an entry. -/
def write
    (t : RootTable)
    (handle object : Nat) : RootTable :=
  { t with entries := t.entries.setIfInBounds handle object }

/- Replace the reference in an entry. -/
def set
    (t : RootTable)
    (handle object : Nat) : Except Fault RootTable := do
  let _ ← t.get handle
  pure (t.write handle object)

/- The table with one more free entry. -/
def release
    (t : RootTable)
    (handle : Nat) : RootTable :=
  { t with free := handle :: t.free }

/- Make an entry null and free. -/
def remove
    (t : RootTable)
    (handle : Nat) : Except Fault RootTable := do
  let t ← t.set handle 0
  if t.free.contains handle then throw .handleFreedTwice
  else pure (t.release handle)

/- The entries that hold a reference, in increasing order. -/
def liveEntries (t : RootTable) : List Nat :=
  (List.range t.highWater).filter fun handle =>
    t.entries.getD handle 0 != 0

end RootTable

end BeltHeap
