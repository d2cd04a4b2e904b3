import BeltHeap.Collection.Kind

/-
  The events that the collector, its tables and the observer
  report, each with its level and its wording.

  Key definitions include:
    * `Level`
    * `Event`
    * `Event.level`
    * `Event.message`
-/

------------------------------------------------------------
-- Levels
------------------------------------------------------------

namespace BeltHeap

/- How much attention an event asks for, the most first. -/
inductive Level where
| warn : Level
| info : Level
| debug : Level
| trace : Level
deriving DecidableEq, Repr

namespace Level

/- The place of a level in the order of attention. -/
def rank : Level → Nat
| .warn => 0
| .info => 1
| .debug => 2
| .trace => 3

/- The name of a level. -/
def name : Level → String
| .warn => "WARN"
| .info => "INFO"
| .debug => "DEBUG"
| .trace => "TRACE"

end Level

------------------------------------------------------------
-- Events
------------------------------------------------------------

/- The events worth a report. -/
inductive Event where
| optionInvalid (name value : String) : Event
| optionUnreadable (name value : String) : Event
| optionUnknown (name : String) : Event
| beltFull
    (belt size : Nat)
    (mark stop : Nat) : Event
| beltState
    (description : String)
    (belt : Nat)
    (bounds : Span)
    (mark : Nat)
    (used remaining : Nat)
    (expandable : Bool) : Event
| rolesSwapped (a b beltOfA beltOfB : Nat) : Event
| beltExpanded (belt bytes : Nat) (bounds : Span) : Event
| rootTableFull (capacity : Nat) : Event
| epochBegins (epoch : Nat) : Event
| epochEnds (epoch : Nat) : Event
| regionsTruncated (count published : Nat) : Event
| regionRegistered
    (description : String)
    (bounds : Span) : Event
| collectionStarts
    (kind : Collection.Kind)
    (condemned : List Span) : Event
| slotsFound (roots remembered : Nat) : Event
| cardWithoutObject (card : Nat) (start : Nat) : Event
| survivorsPlaced
    (objects bytes : Nat)
    (destination : Collection.Destination)
    (start : Nat) : Event
| matureHalfFull (bytes : Nat) : Event
| collectionSkipped : Event
| collectionEscalates (failure : Collection.Shortfall) : Event
| minorCollected
    (epoch : Nat)
    (kind : Collection.Kind)
    (objects promoted used size : Nat) : Event
| minorFailed
    (epoch : Nat)
    (failure : Collection.Shortfall) : Event
| majorCollected
    (epoch : Nat)
    (kind : Collection.Kind)
    (objects used size : Nat) : Event
| majorFailed
    (epoch : Nat)
    (failure : Collection.Shortfall) : Event
| matureShort (free needed : Nat) : Event
| pretenured (bytes : Nat) (object : Nat) : Event
| requestSent (executor : String) : Event
| replyReceived (executor : String) : Event
| targetStopped (epoch : Nat) : Event
| targetResumed : Event
| targetKilled : Event
| pageRefreshed
    (page : Nat)
    (address : Nat)
    (old : Option Nat)
    (new : Nat) : Event
deriving DecidableEq, Repr

namespace Event

/- The level at which an event is reported. -/
def level : Event → Level
| .optionInvalid .. => .warn
| .optionUnreadable .. => .warn
| .optionUnknown .. => .warn
| .beltFull .. => .trace
| .beltState .. => .debug
| .rolesSwapped .. => .debug
| .beltExpanded .. => .info
| .rootTableFull .. => .warn
| .epochBegins .. => .trace
| .epochEnds .. => .trace
| .regionsTruncated .. => .warn
| .regionRegistered .. => .debug
| .collectionStarts .. => .debug
| .slotsFound .. => .trace
| .cardWithoutObject .. => .warn
| .survivorsPlaced .. => .debug
| .matureHalfFull .. => .debug
| .collectionSkipped => .debug
| .collectionEscalates .. => .info
| .minorCollected .. => .info
| .minorFailed .. => .warn
| .majorCollected .. => .info
| .majorFailed .. => .warn
| .matureShort .. => .warn
| .pretenured .. => .debug
| .requestSent .. => .trace
| .replyReceived .. => .trace
| .targetStopped .. => .debug
| .targetResumed => .debug
| .targetKilled => .info
| .pageRefreshed .. => .trace

/- The bounds of a span, separated by a comma. -/
def boundsText
    (at_ : Nat → String)
    (s : Span) : String :=
  s!"[{at_ s.start}, {at_ s.stop})"

/- The bounds of a span, separated by two dots. -/
def spanText
    (at_ : Nat → String)
    (s : Span) : String :=
  s!"{at_ s.start}..{at_ s.stop}"

/- An epoch that may be missing. -/
def epochText : Option Nat → String
| none => "None"
| some epoch => s!"Some({epoch})"

/- The wording of an event.  Addresses are written by `at_`. -/
def message
    (at_ : Nat → String) : Event → String
| .optionInvalid name value =>
    s!"unable to set {name}={value}. Invalid value. " ++
      "Default value will be used."
| .optionUnreadable name value =>
    s!"unable to set {name}={value}. Cant parse value. " ++
      "Default value will be used."
| .optionUnknown name => s!"unknown option {name}"
| .beltFull belt size mark stop =>
    s!"belt {belt} cannot fit {size} bytes: " ++
      s!"mark {at_ mark} end {at_ stop}"
| .beltState description belt bounds mark used remaining expandable =>
    s!"{description} (belt {belt}): {boundsText at_ bounds} " ++
      s!"mark {at_ mark} used {used} remaining {remaining}" ++
      (if expandable then " expandable" else "")
| .rolesSwapped a b beltOfA beltOfB =>
    s!"swapped roles {a} and {b}: now belts {beltOfA} and {beltOfB}"
| .beltExpanded belt bytes bounds =>
    s!"expanded belt {belt} by {bytes} bytes to " ++
      boundsText at_ bounds
| .rootTableFull capacity =>
    s!"root table is full ({capacity} entries)"
| .epochBegins epoch => s!"collection epoch {epoch} begins"
| .epochEnds epoch => s!"collection epoch {epoch} ends"
| .regionsTruncated count published =>
    s!"{count} heap regions registered, " ++
      s!"only the first {published} are published"
| .regionRegistered description bounds =>
    s!"registered heap region {description}: {boundsText at_ bounds}"
| .collectionStarts kind condemned =>
    s!"{kind.name} collection: condemned [" ++
      ", ".intercalate (condemned.map (spanText at_)) ++ "]"
| .slotsFound roots remembered =>
    s!"{roots} root slots, {remembered} remembered slots"
| .cardWithoutObject card start =>
    s!"dirty card {card} at {at_ start} has no first object"
| .survivorsPlaced objects bytes destination start =>
    s!"{objects} live objects, {bytes} bytes, " ++
      s!"to {destination.name} at {at_ start}"
| .matureHalfFull bytes =>
    s!"mature belt holds {bytes} bytes, " ++
      "at least half the heap: collecting it"
| .collectionSkipped =>
    "out of memory: skipping minor collection"
| .collectionEscalates failure =>
    s!"{failure.message}: escalating to a full-heap collection"
| .minorCollected epoch kind objects promoted used size =>
    s!"collection {epoch} ({kind.name}): {objects} objects, " ++
      s!"{promoted} bytes promoted, mature {used} / {size} bytes"
| .minorFailed epoch failure =>
    s!"collection {epoch} failed: {failure.message}. " ++
      "Heap is out of memory"
| .majorCollected epoch kind objects used size =>
    s!"collection {epoch} ({kind.name}): {objects} objects, " ++
      s!"mature {used} / {size} bytes"
| .majorFailed epoch failure =>
    s!"collection {epoch} failed: {failure.message}"
| .matureShort free needed =>
    s!"mature belt has {free} bytes free after a major collection, " ++
      s!"{needed} needed. Heap is out of memory"
| .pretenured bytes object =>
    s!"pretenured {bytes} bytes at {at_ object}"
| .requestSent executor => s!"[{executor}: request sent]"
| .replyReceived executor => s!"[{executor}: reply received]"
| .targetStopped epoch => s!"target stopped, epoch {epoch}"
| .targetResumed => "target resumed"
| .targetKilled => "target killed"
| .pageRefreshed page address old new =>
    s!"page {page} at {at_ address} refreshed: " ++
      s!"epoch {epochText old} -> {new}"

/- An event as one line of a log. -/
def line
    (at_ : Nat → String)
    (e : Event) : String :=
  e.level.name ++ ": " ++ e.message at_

end Event

end BeltHeap
