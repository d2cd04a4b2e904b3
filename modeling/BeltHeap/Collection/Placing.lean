import BeltHeap.Collection.Marking

/-
  Giving the survivors of a collection their new addresses,
  packed without gaps in the order of their old ones.

  Key definitions include:
    * `Collection.Move`
    * `Collection.inOrder`
    * `Collection.chooseDestination`
    * `Collection.pack`
    * `Collection.place`
    * `Memory.copyAll`, `Memory.copyAtOnce`
-/

------------------------------------------------------------
-- Moves
------------------------------------------------------------

namespace BeltHeap

namespace Collection

/- An object that moves. -/
structure Move where
  source : Nat
  dest : Nat
  size : Nat
deriving DecidableEq, Repr, Inhabited

/- The first address behind the moved object. -/
def Move.stop (m : Move) : Nat :=
  m.dest + m.size

/-
  The order in which survivors are placed: by address, but those
  in the nursery after all others.
-/
def precedes
    (nursery : Belt)
    (a b : LiveObject) : Bool :=
  if nursery.contains a.1 = nursery.contains b.1 then a.1 ≤ b.1
  else nursery.contains b.1

/- The survivors in the order in which they are placed. -/
def inOrder
    (nursery : Belt)
    (live : List LiveObject) : List LiveObject :=
  live.mergeSort (precedes nursery)

/- The number of bytes of all survivors. -/
def liveBytes (live : List LiveObject) : Nat :=
  total (live.map (·.2))

/- Where the survivors go, from which address, with what room. -/
structure Target where
  destination : Destination
  start : Nat
  available : Nat
deriving DecidableEq, Repr

/-
  Minor survivors are appended to the mature belt.  Major ones
  are evacuated into the nursery belt where it is empty and
  large enough.  All others slide down in the mature belt.
-/
def chooseDestination
    (kind : Kind)
    (nursery mature : Belt)
    (bytes : Nat) : Target :=
  match kind with
  | .minor => ⟨.appendToMature, mature.mark, mature.remaining⟩
  | .major =>
      if nursery.isEmpty && bytes ≤ nursery.size then
        ⟨.evacuateToNursery, nursery.start, nursery.size⟩
      else ⟨.slideInMature, mature.start, mature.size⟩
  | .fullHeap => ⟨.slideInMature, mature.start, mature.size⟩

/- Place objects one after the other from `cursor` on. -/
def pack
    (cursor : Nat) : List LiveObject → List Move
| [] => []
| (object, size) :: rest =>
    ⟨object, cursor, size⟩ :: pack (cursor + size) rest

/- The survivors of a collection with their new addresses. -/
structure Plan where
  destination : Destination
  start : Nat
  bytes : Nat
  moves : List Move
deriving DecidableEq, Repr

/-
  Place the survivors of a collection, unless they need more
  room than there is.
-/
def place
    (kind : Kind)
    (nursery mature : Belt)
    (live : List LiveObject) :
    Except Fault (Except Shortfall Plan) :=
  let ordered := inOrder nursery live
  let bytes := liveBytes ordered
  let target := chooseDestination kind nursery mature bytes
  if Word.limit ≤ bytes then .error .addOverflow
  else if target.available < bytes then
    .ok (.error ⟨kind, bytes, target.available⟩)
  else
    .ok
      (.ok
        ⟨target.destination, target.start, bytes,
          pack target.start ordered⟩)

/- The number of bytes that move out of the nursery. -/
def promotedBytes
    (nursery : Belt)
    (moves : List Move) : Nat :=
  total
    (moves.map fun m =>
      if nursery.contains m.source && !nursery.contains m.dest
      then m.size else 0)

/- The new address of each object that moves. -/
def forwarding (moves : List Move) : Std.HashMap Nat Nat :=
  Std.HashMap.ofList (moves.map fun m => (m.source, m.dest))

/- The address behind the last moved object, if there is one. -/
def lastStop? (moves : List Move) : Option Nat :=
  moves.getLast?.map Move.stop

end Collection

------------------------------------------------------------
-- Copying
------------------------------------------------------------

namespace Memory

/- Copy one object to its new address. -/
def copyObject
    (m : Memory)
    (move : Collection.Move) : Memory :=
  if move.source = move.dest then m
  else m.copy move.source move.dest move.size

/- Copy objects to their new addresses, one after the other. -/
def copyAll
    (m : Memory)
    (moves : List Collection.Move) : Memory :=
  moves.foldl copyObject m

/-
  The byte at an address after all objects have been copied at
  once, each from the memory as it was before.
-/
def copyAtOnce
    (m : Memory)
    (moves : List Collection.Move)
    (a : Nat) : UInt8 :=
  match
    moves.find? fun move => move.dest ≤ a && a < move.stop with
  | some move => m.byte (move.source + (a - move.dest))
  | none => m.byte a

end Memory

end BeltHeap
