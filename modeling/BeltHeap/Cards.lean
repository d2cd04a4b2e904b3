import BeltHeap.Word

/-
  The card table: one mark for each card, a small aligned piece
  of the heap.  A dirty card may hold a slot of a mature object
  that refers into the nursery; a clean card holds none.

  Key definitions include:
    * `CardTable`
    * `CardTable.make`
    * `CardTable.index?`, `CardTable.index`
    * `CardTable.markDirty`, `CardTable.isDirty`
    * `CardTable.clearAll`, `CardTable.dirtyCards`
    * `CardError`
-/

------------------------------------------------------------
-- Errors
------------------------------------------------------------

namespace BeltHeap

/- An address that a card table does not cover. -/
structure CardError where
  address : Nat
  covered : Span
deriving DecidableEq, Repr

namespace CardError

/- The fault of relying on a card that does not exist. -/
def fault (e : CardError) : Fault :=
  .uncoveredAddress e.address e.covered.start e.covered.stop

/- The sentence for an address that is not covered. -/
def message
    (at_ : Nat → String)
    (e : CardError) : String :=
  e.fault.message at_

end CardError

------------------------------------------------------------
-- Card Tables
------------------------------------------------------------

/- The marks of the cards that cover a span. -/
structure CardTable where
  covered : Span
  logCardBytes : Nat
  marks : Array Bool
deriving DecidableEq, Repr, Inhabited

namespace CardTable

/- The number of cards that cover a number of bytes. -/
def cardsFor (bytes cardBytes : Nat) : Nat :=
  (bytes + (cardBytes - 1)) / cardBytes

/- A table of clean cards that covers a span. -/
def make
    (covered : Span)
    (logCardBytes : Nat) : Except Fault CardTable := do
  let cardBytes ← Word.shiftLeft 1 logCardBytes
  if !Word.isAligned covered.start cardBytes then
    throw .coveredAreaUnaligned
  else
    let bytes ← Word.distance covered.stop covered.start
    let cards ← Word.entries (cardsFor bytes cardBytes) 1
    pure
      {
        covered, logCardBytes
        marks := Array.replicate cards false
      }

/- The number of bytes in a card. -/
def cardBytes (t : CardTable) : Nat :=
  1 <<< t.logCardBytes

/- The number of cards. -/
def size (t : CardTable) : Nat :=
  t.marks.size

/- The card that holds an address. -/
def index?
    (t : CardTable)
    (a : Nat) : Except CardError Nat :=
  if t.covered.contains a then
    .ok ((a - t.covered.start) / t.cardBytes)
  else .error ⟨a, t.covered⟩

/- The card that holds an address the table has to cover. -/
def index
    (t : CardTable)
    (a : Nat) : Except Fault Nat :=
  match t.index? a with
  | .ok card => .ok card
  | .error e => .error e.fault

/- The first address of a card. -/
def cardStart
    (t : CardTable)
    (card : Nat) : Except Fault Nat :=
  if card < t.size then
    Word.add t.covered.start (Word.wrap (card * t.cardBytes))
  else .error .cardOutsideTable

/- Is a card dirty? -/
def isDirty
    (t : CardTable)
    (card : Nat) : Except Fault Bool :=
  if h : card < t.marks.size then .ok t.marks[card]
  else .error (.indexOutOfBounds t.marks.size card)

/- The table with one more dirty card. -/
def dirtied
    (t : CardTable)
    (card : Nat) : CardTable :=
  { t with marks := t.marks.setIfInBounds card true }

/- Make a card dirty. -/
def markDirty
    (t : CardTable)
    (card : Nat) : Except Fault CardTable := do
  let _ ← t.isDirty card
  pure (t.dirtied card)

/- Make every card clean. -/
def clearAll (t : CardTable) : CardTable :=
  { t with marks := Array.replicate t.marks.size false }

/- The dirty cards in increasing order. -/
def dirtyCards (t : CardTable) : List Nat :=
  (List.range t.marks.size).filter fun card =>
    t.marks.getD card false

/- The number of dirty cards. -/
def dirtyCount (t : CardTable) : Nat :=
  t.marks.count true

/- A card table in words, given where its marks are kept. -/
def text
    (at_ : Nat → String)
    (place : String)
    (t : CardTable) : String :=
  s!"card table @{place} = " ++
    s!"[{at_ t.covered.start}, {at_ t.covered.stop}]"

end CardTable

end BeltHeap
