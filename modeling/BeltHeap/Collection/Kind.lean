import BeltHeap.Word

/-
  What a collection is asked to do, where it puts the survivors,
  and how it fails.

  Key definitions include:
    * `Collection.Kind`
    * `Collection.Destination`
    * `Collection.Shortfall`
-/

------------------------------------------------------------
-- Kinds of Collections
------------------------------------------------------------

namespace BeltHeap

namespace Collection

/-
  A minor collection promotes nursery survivors to the end of
  the mature belt.  A major one compacts the mature belt.  A
  full-heap one compacts both belts into the mature belt.
-/
inductive Kind where
| minor : Kind
| major : Kind
| fullHeap : Kind
deriving DecidableEq, Repr

/- The name of a kind of collection. -/
def Kind.name : Kind → String
| .minor => "Minor"
| .major => "Major"
| .fullHeap => "FullHeap"

/-
  Survivors are appended to the mature belt, or evacuated into
  the empty nursery belt, which then becomes the mature belt,
  or slid down to the start of the mature belt.
-/
inductive Destination where
| appendToMature : Destination
| evacuateToNursery : Destination
| slideInMature : Destination
deriving DecidableEq, Repr

/- The name of a destination. -/
def Destination.name : Destination → String
| .appendToMature => "AppendToMature"
| .evacuateToNursery => "EvacuateToNursery"
| .slideInMature => "SlideInMature"

------------------------------------------------------------
-- Failed Collections
------------------------------------------------------------

/- The survivors need more room than their destination has. -/
structure Shortfall where
  kind : Kind
  liveBytes : Nat
  available : Nat
deriving DecidableEq, Repr

/- The sentence for a failed collection. -/
def Shortfall.message (s : Shortfall) : String :=
  s!"{s.kind.name} collection found {s.liveBytes} live bytes, " ++
    s!"only {s.available} bytes available"

end Collection

end BeltHeap
