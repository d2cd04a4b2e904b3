import BeltHeap.Cards

/-
  For each card the object that covers its first byte, if any.
  The scan of a dirty card starts from that object instead of
  walking the belt from its start.

  Key definitions include:
    * `FirstObjects`
    * `FirstObjects.make`
    * `FirstObjects.cardsUnder`, `FirstObjects.cardsIn`
    * `FirstObjects.record`
    * `FirstObjects.first`, `FirstObjects.firsts`
    * `FirstObjects.forget`
-/

------------------------------------------------------------
-- First-Object Tables
------------------------------------------------------------

namespace BeltHeap

/- The starts of objects; zero stands for no object. -/
structure FirstObjects where
  coveredStart : Nat
  logCardBytes : Nat
  starts : Array Nat
deriving DecidableEq, Repr, Inhabited

namespace FirstObjects

/- A table without objects for the cards that cover a span. -/
def make
    (covered : Span)
    (logCardBytes : Nat) : Except Fault FirstObjects := do
  let bytes ← Word.distance covered.stop covered.start
  let cardBytes ← Word.shiftLeft 1 logCardBytes
  let cards ←
    Word.entries (CardTable.cardsFor bytes cardBytes) Word.bytes
  pure
    {
      coveredStart := covered.start, logCardBytes
      starts := Array.replicate cards 0
    }

/- The number of bytes in a card. -/
def cardBytes (t : FirstObjects) : Nat :=
  1 <<< t.logCardBytes

/- The number of the card that an address would lie on. -/
def index
    (t : FirstObjects)
    (a : Nat) : Except Fault Nat := do
  let offset ← Word.distance a t.coveredStart
  pure (offset / t.cardBytes)

/- The first address of a card. -/
def cardStart
    (t : FirstObjects)
    (card : Nat) : Except Fault Nat :=
  Word.add t.coveredStart (Word.wrap (card * t.cardBytes))

/- Consecutive cards. -/
structure CardRun where
  first : Nat
  count : Nat
deriving DecidableEq, Repr, Inhabited

/-
  The cards from `first` through `last`, all of which have to
  be in the table.
-/
def cardRun
    (t : FirstObjects)
    (first last : Nat) : Except Fault CardRun :=
  if last < first then .ok ⟨first, 0⟩
  else if last < t.starts.size then .ok ⟨first, last + 1 - first⟩
  else
    .error
      (.indexOutOfBounds t.starts.size (max first t.starts.size))

/- Set the entries of consecutive cards. -/
def fill
    (t : FirstObjects)
    (run : CardRun)
    (value : Nat) : FirstObjects :=
  { t with
    starts :=
      (List.range' run.first run.count).foldl
        (fun starts card => starts.setIfInBounds card value)
        t.starts }

/- The cards whose first byte an object of `size` bytes covers. -/
def cardsUnder
    (t : FirstObjects)
    (start size : Nat) : Except Fault CardRun := do
  if size = 0 then throw .emptyObject
  else
    let card ← t.index start
    let cardStart ← t.cardStart card
    let first := if cardStart < start then card + 1 else card
    let stop ← Word.add start size
    let final ← Word.sub stop 1
    let last ← t.index final
    t.cardRun first last

/- Note an object of `size` bytes. -/
def record
    (t : FirstObjects)
    (start size : Nat) : Except Fault FirstObjects := do
  let run ← t.cardsUnder start size
  pure (t.fill run start)

/- The object that covers the first byte of a card. -/
def first
    (t : FirstObjects)
    (card : Nat) : Except Fault (Option Nat) :=
  if h : card < t.starts.size then
    .ok (if t.starts[card] = 0 then none else some t.starts[card])
  else .error (.indexOutOfBounds t.starts.size card)

/-
  The objects that cover the first bytes of the cards from
  `start` up to `stop`.  The card behind the table is a fault,
  so none behind that one is ever asked for.
-/
def firsts
    (t : FirstObjects)
    (start stop : Nat) : Except Fault (List (Option Nat)) :=
  (List.range' start (min (stop - start) (t.starts.size + 1))).mapM
    t.first

/- The cards of the table that start in a span. -/
def cardsIn
    (t : FirstObjects)
    (s : Span) : Except Fault CardRun := do
  if s.stop ≤ s.start then pure ⟨0, 0⟩
  else
    let first ← t.index (Word.alignUp s.start t.cardBytes)
    let final ← Word.sub s.stop 1
    let last ← t.index final
    let limit ← Word.sub t.starts.size 1
    t.cardRun first (min last limit)

/- Forget the objects of the cards that start in a span. -/
def forget
    (t : FirstObjects)
    (s : Span) : Except Fault FirstObjects := do
  let run ← t.cardsIn s
  pure (t.fill run 0)

end FirstObjects

end BeltHeap
