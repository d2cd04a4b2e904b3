import BeltHeap.Belt
import BeltHeap.Config

/-
  The belts of a heap, one after the other in address order,
  and the roles they play.  Roles move between belts; memory
  does not.

  Key definitions include:
    * `Role.nursery`, `Role.mature`
    * `Layout`
    * `Layout.carve`
    * `Layout.belt`, `Layout.roleOf`
    * `Layout.swap`
    * `Layout.expand`
    * `ExpansionError`
-/

------------------------------------------------------------
-- Roles
------------------------------------------------------------

namespace BeltHeap

/- A role is known by its number. -/
namespace Role

/- The role of the belt that mutators allocate into. -/
def nursery : Nat := 0

/- The role of the belt that survivors are promoted into. -/
def mature : Nat := 1

/- The description of a belt that plays a role. -/
def description (r : Nat) : String :=
  if r = nursery then "Nursery Belt"
  else if r = mature then "Mature Belt"
  else "Belt"

end Role

------------------------------------------------------------
-- Errors
------------------------------------------------------------

/- Why a belt does not grow. -/
inductive ExpansionError where
| notExpandable (role : Nat) : ExpansionError
| noNeighbour (role : Nat) : ExpansionError
| notPageAligned (bytes : Nat) : ExpansionError
| neighbourInUse (role : Nat) : ExpansionError
| neighbourTooSmall
    (role requested available : Nat) : ExpansionError
deriving DecidableEq, Repr

/- The sentence for a belt that does not grow. -/
def ExpansionError.message : ExpansionError → String
| .notExpandable role =>
    s!"the belt playing role {role} is not expandable"
| .noNeighbour role =>
    s!"the belt playing role {role} has no neighbour above it"
| .notPageAligned bytes =>
    s!"belts grow by whole pages, {bytes} bytes requested"
| .neighbourInUse role =>
    s!"the neighbour of the belt playing role {role} " ++
      "still holds objects"
| .neighbourTooSmall role requested available =>
    s!"the neighbour of the belt playing role {role} " ++
      s!"has only {available} bytes, {requested} requested"

------------------------------------------------------------
-- Layouts
------------------------------------------------------------

/-
  The belts in address order, and for each role the index of
  the belt that plays it.
-/
structure Layout where
  belts : Array Belt
  roles : Array Nat
  heap : Span
deriving DecidableEq, Repr, Inhabited

namespace Layout

/-
  Belts for the given percentages from `cursor` on.  Every belt
  but the last gets its share in whole pages; the last takes
  what is left up to `stop`.
-/
def carveFrom
    (heapSize stop : Nat) :
    Nat → Nat → Percentages →
      ExceptT LayoutError (Except Fault) (List Belt)
| _, _, [] => pure []
| index, cursor, p :: ps => do
    let size : Nat ←
      if ps.isEmpty then Word.distance stop cursor
      else Word.pageShare heapSize p
    if size = 0 then throw (.beltTooSmall heapSize index)
    else
      let belt ← Belt.make index cursor size
      let next ← Word.add cursor size
      let belts ← carveFrom heapSize stop (index + 1) next ps
      pure (belt :: belts)

/-
  Split `heapSize` bytes from `start` on between belts.  Role
  `i` is first played by belt `i`.
-/
def carve
    (start heapSize : Nat)
    (percentages : Percentages) :
    ExceptT LayoutError (Except Fault) Layout := do
  let valid ← percentages.isValid
  if !valid then throw (.invalidPercentages percentages)
  else
    let stop ← Word.add start heapSize
    let belts ← carveFrom heapSize stop 0 start percentages
    pure
      {
        belts := belts.toArray
        roles := Array.range belts.length
        heap := ⟨start, stop⟩
      }

------------------------------------------------------------
-- Looking Up
------------------------------------------------------------

/- The index of the belt that plays a role. -/
def indexOf
    (l : Layout)
    (r : Nat) : Except Fault Nat :=
  if h : r < l.roles.size then .ok l.roles[r]
  else .error (.indexOutOfBounds l.roles.size r)

/- The belt with an index. -/
def beltAt
    (l : Layout)
    (index : Nat) : Except Fault Belt :=
  if h : index < l.belts.size then .ok l.belts[index]
  else .error (.indexOutOfBounds l.belts.size index)

/- The belt that plays a role. -/
def belt
    (l : Layout)
    (r : Nat) : Except Fault Belt := do
  l.beltAt (← l.indexOf r)

/- The role that a belt plays. -/
def roleOf
    (l : Layout)
    (b : Belt) : Except Fault Nat :=
  match l.roles.idxOf? b.index with
  | some r => .ok r
  | none => .error (.beltWithoutRole b.index)

/- Is the address in the heap? -/
def contains
    (l : Layout)
    (a : Nat) : Bool :=
  l.heap.contains a

/- The first belt that contains an address. -/
def beltContaining?
    (l : Layout)
    (a : Nat) : Option Belt :=
  l.belts.find? fun b => b.contains a

/- Put a belt in the place of the one with its index. -/
def setBelt
    (l : Layout)
    (b : Belt) : Layout :=
  { l with belts := l.belts.setIfInBounds b.index b }

------------------------------------------------------------
-- Roles and Bounds
------------------------------------------------------------

/- Swap the belts that play two roles. -/
def swapped
    (l : Layout)
    (a b : Nat) : Except Fault Layout := do
  let beltOfA ← l.indexOf a
  let beltOfB ← l.indexOf b
  pure
    { l with
      roles :=
        (l.roles.setIfInBounds a beltOfB).setIfInBounds b beltOfA }

/- Swap the belts that play two roles, and report it. -/
def swap
    {σ : Type}
    (l : Layout)
    (a b : Nat) : Activity Fault σ Layout := do
  let beltOfA ← l.indexOf a
  let beltOfB ← l.indexOf b
  Activity.emit (.rolesSwapped a b beltOfB beltOfA)
  l.swapped a b

/-
  The belts around the boundary that moves when the belt that
  plays a role grows by `bytes`, both with their new bounds.
  The neighbour has to be empty and keeps at least a page.
-/
def grown
    (l : Layout)
    (r : Nat)
    (bytes : Nat) :
    ExceptT ExpansionError (Except Fault) (Belt × Belt) := do
  let belt ← l.belt r
  if !belt.expandable then throw (.notExpandable r)
  else if bytes = 0 || !Word.isAligned bytes Word.pageBytes then
    throw (.notPageAligned bytes)
  else
    match l.belts[belt.index + 1]? with
    | none => throw (.noNeighbour r)
    | some neighbour =>
        let available := neighbour.size - Word.pageBytes
        if !neighbour.isEmpty then throw (.neighbourInUse r)
        else if available < bytes then
          throw (.neighbourTooSmall r bytes available)
        else
          let boundary ← Word.add belt.stop bytes
          let belt ← belt.setBounds belt.start boundary
          let neighbour ←
            neighbour.setBounds boundary neighbour.stop
          pure (belt, neighbour)

/-
  Grow the belt that plays a role by `bytes` into the belt
  directly above it, and report it.
-/
def expand
    {σ : Type}
    (l : Layout)
    (r : Nat)
    (bytes : Nat) :
    Activity Fault σ (Except ExpansionError Layout) := do
  match ← (l.grown r bytes).run with
  | .error e => pure (.error e)
  | .ok (belt, neighbour) => do
      Activity.emit (.beltExpanded belt.index bytes belt.span)
      pure (.ok ((l.setBelt belt).setBelt neighbour))

end Layout

end BeltHeap
