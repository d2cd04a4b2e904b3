import BeltHeap.Log.Activity
import BeltHeap.Percentages

/-
  The options of the collector and of the observer, which are
  set by name from text, and their defaults, which the
  environment may override.

  Key definitions include:
    * `Options`
    * `Options.Setting`
    * `Options.assign`
    * `Options.set`
    * `Options.environment`, `Options.readEnvironment`
-/

------------------------------------------------------------
-- Limits and Defaults
------------------------------------------------------------

namespace BeltHeap

namespace Limits

/- The smallest heap that belts are laid out in. -/
def minHeapSize : Nat := 64 * Word.kilobyte

/- The binary logarithm of the smallest card. -/
def minLogCardBytes : Nat := 3

/- The binary logarithm of the largest card, a page. -/
def maxLogCardBytes : Nat := Word.logPageBytes

/- The number of regions that an observer can be shown. -/
def inspectableRegions : Nat := 16

/- The size of the heap unless one is asked for. -/
def defaultHeapSize : Nat := 256 * Word.megabyte

/- The split of the heap unless one is asked for. -/
def defaultPercentages : Percentages := [70, 30]

/- The binary logarithm of the size of a card by default. -/
def defaultLogCardBytes : Nat := 9

/- The number of entries of the root table by default. -/
def defaultRootCapacity : Nat := Word.megabyte / Word.bytes

/- The number of bytes in the pool of page buffers by default. -/
def defaultPoolSize : Nat := 100 * Word.megabyte

end Limits

------------------------------------------------------------
-- Options
------------------------------------------------------------

/- The options, all of which have a default. -/
structure Options where
  maxHeapSize : Nat := Limits.defaultHeapSize
  beltPercentages : Percentages := Limits.defaultPercentages
  logCardBytes : Nat := Limits.defaultLogCardBytes
  matureExpandable : Bool := true
  rootCapacity : Nat := Limits.defaultRootCapacity
  ownBuffersOnly : Bool := false
  poolSize : Nat := Limits.defaultPoolSize
deriving DecidableEq, Repr, Inhabited

namespace Options

/- The options that exist. -/
inductive Setting where
| maxHeapSize : Setting
| beltPercentages : Setting
| logCardBytes : Setting
| matureExpandable : Setting
| rootCapacity : Setting
| ownBuffersOnly : Setting
| poolSize : Setting
deriving DecidableEq, Repr

namespace Setting

/- The name of an option. -/
def name : Setting → String
| .maxHeapSize => "max_heap_size"
| .beltPercentages => "belt_percentages"
| .logCardBytes => "log_bytes_in_card"
| .matureExpandable => "mature_expandable"
| .rootCapacity => "root_table_capacity"
| .ownBuffersOnly => "no_direct_buffers"
| .poolSize => "direct_buffer_pool_size"

/- All options. -/
def all : List Setting :=
  [
    .maxHeapSize, .beltPercentages, .logCardBytes,
    .matureExpandable, .rootCapacity, .ownBuffersOnly, .poolSize
  ]

/- The option with a name. -/
def ofName? (s : String) : Option Setting :=
  all.find? fun o => o.name == s

end Setting

------------------------------------------------------------
-- Values
------------------------------------------------------------

/- Why an option keeps its value. -/
inductive SettingError where
| unknown (name : String) : SettingError
| unreadable (name value : String) : SettingError
| invalid (name shown : String) : SettingError
deriving DecidableEq, Repr

/- The event that reports why an option keeps its value. -/
def SettingError.event : SettingError → Event
| .unknown name => .optionUnknown name
| .unreadable name value =>
    .optionUnreadable name (Text.quoted value)
| .invalid name shown => .optionInvalid name shown

/- Read a word from text. -/
def readWord (s : String) : Option Nat :=
  (Text.readNumber (Word.limit - 1) s.toList).toOption

/- Read a truth value from text. -/
def readFlag : String → Option Bool
| "true" => some true
| "false" => some false
| _ => none

/- Heaps are at least as large as the smallest heap. -/
def heapSizeValid (n : Nat) : Bool :=
  Limits.minHeapSize ≤ n

/- Cards hold at least a word and at most a page. -/
def logCardBytesValid (n : Nat) : Bool :=
  Limits.minLogCardBytes ≤ n && n ≤ Limits.maxLogCardBytes

/- Root tables have room for something. -/
def rootCapacityValid (n : Nat) : Bool :=
  0 < n

/-
  A value read from text, if there is one and it is valid, which
  may be at fault to find out.  `shown` is the value as it stands
  in a report.
-/
def accept
    {α : Type}
    (o : Setting)
    (value : String)
    (read : Option α)
    (valid : α → Except Fault Bool)
    (shown : α → String) :
    ExceptT SettingError (Except Fault) α :=
  match read with
  | none => throw (.unreadable o.name value)
  | some a => do
      let valid ← valid a
      if valid then pure a
      else throw (.invalid o.name (shown a))

/- Percentages as they stand in a report. -/
def shownPercentages (p : Percentages) : String :=
  "BeltPercentages(" ++ Text.bracketed p ++ ")"

/- The options with one of them read from text. -/
def assignTo
    (options : Options)
    (o : Setting)
    (value : String) :
    ExceptT SettingError (Except Fault) Options :=
  match o with
  | .maxHeapSize => do
      let n ← accept o value (readWord value)
        (pure ∘ heapSizeValid) toString
      pure { options with maxHeapSize := n }
  | .beltPercentages => do
      let p ← accept o value (Percentages.parse value).toOption
        Percentages.isValid shownPercentages
      pure { options with beltPercentages := p }
  | .logCardBytes => do
      let n ← accept o value (readWord value)
        (pure ∘ logCardBytesValid) toString
      pure { options with logCardBytes := n }
  | .matureExpandable => do
      let b ← accept o value (readFlag value)
        (fun _ => pure true) toString
      pure { options with matureExpandable := b }
  | .rootCapacity => do
      let n ← accept o value (readWord value)
        (pure ∘ rootCapacityValid) toString
      pure { options with rootCapacity := n }
  | .ownBuffersOnly => do
      let b ← accept o value (readFlag value)
        (fun _ => pure true) toString
      pure { options with ownBuffersOnly := b }
  | .poolSize => do
      let n ← accept o value (readWord value)
        (fun _ => pure true) toString
      pure { options with poolSize := n }

/- The options with the named one read from text. -/
def assign
    (options : Options)
    (name value : String) :
    ExceptT SettingError (Except Fault) Options :=
  match Setting.ofName? name with
  | none => throw (.unknown name)
  | some o => options.assignTo o value

/-
  Set the named option from text, and report why where it keeps
  its value.  The answer tells whether it was set.
-/
def set
    (name value : String) : Activity Fault Options Bool := do
  let options ← Activity.state
  match ← (options.assign name value).run with
  | .ok options => do
      Activity.change fun _ => options
      pure true
  | .error e => do
      Activity.emit e.event
      pure false

------------------------------------------------------------
-- The Environment
------------------------------------------------------------

/- Names of environment variables for options start like this. -/
def variableStart : String := "BELTWAY_"

/-
  The option that an environment variable sets, if any.  The
  rest of its name is the name of the option in any case.
-/
def Setting.ofVariable? (variable_ : String) : Option Setting :=
  if variableStart.toList.isPrefixOf variable_.toList then
    let rest := variable_.toList.drop variableStart.length
    Setting.ofName? (String.ofList (rest.map Char.toLower))
  else none

/-
  An environment after a variable was set in it.  A variable
  that was there before keeps its place.
-/
def setVariable
    (variable_ value : String) :
    List (String × String) → List (String × String)
| [] => [(variable_, value)]
| (name, old) :: rest =>
    if name = variable_ then (name, value) :: rest
    else (name, old) :: setVariable variable_ value rest

/- The environment after variables were set one by one. -/
def environment
    (assignments : List (String × String)) :
    List (String × String) :=
  assignments.foldl (fun env a => setVariable a.1 a.2 env) []

/-
  Set the options that variables of the environment name, one
  after the other.
-/
def readEnvironment :
    List (String × String) → Activity Fault Options Unit
| [] => pure ()
| (variable_, value) :: rest => do
    match Setting.ofVariable? variable_ with
    | none => pure ()
    | some o => do
        let _ ← set o.name value
    readEnvironment rest

end Options

end BeltHeap
