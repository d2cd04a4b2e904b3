import BeltHeap.Proofs.Carving
import BeltHeap.Proofs.Parsing

/-
  Options that are set from text.  A call sets the option that
  it names to what its text stands for, or nothing at all, and
  no option ever gets a value that the heap would refuse.

  Main declarations:
    * `Options.Value`, `Options.value`, `Options.put`
    * `Options.Means`, `Options.Setting.Takes`
    * `Options.assign_eq_ok_iff`, `Options.BreaksOff`
    * `Options.Valid`, `Options.Answered`, `Options.Answers`
    * `Options.settings_stay_valid`
-/

------------------------------------------------------------
-- Splits of the Heap
------------------------------------------------------------

namespace BeltHeap

/- A complete split is never refused for its percentages. -/
theorem Layout.carve_of_complete_ne
    {ps qs : Percentages}
    (hComplete : ps.Complete)
    (start heapSize : Nat) :
    (carve start heapSize ps).run ≠
      .ok (.error (.invalidPercentages qs)) := by
  by_cases hBelow : start + heapSize < Word.limit
  · rcases carve_of_complete hComplete hBelow with
      ⟨sizes, -, ⟨-, l, hMakes, -⟩ | ⟨k, -, -, hSmall⟩⟩
    · exact fun hInvalid => nomatch hMakes.symm.trans hInvalid
    · rw [hSmall]
      nofun
  · have hStop : Word.add start heapSize = .error .addOverflow :=
      if_neg hBelow
    unfold carve
    rw [Percentages.isValid_iff.mpr hComplete, hStop]
    nofun

------------------------------------------------------------
-- Values
------------------------------------------------------------

namespace Options

open Percentages Text

/- The values of options of any kind. -/
inductive Value where
| number (n : Nat) : Value
| percentages (p : Percentages) : Value
| flag (b : Bool) : Value

/- The value of one of the options. -/
def value (options : Options) : Setting → Value
| .maxHeapSize => .number options.maxHeapSize
| .beltPercentages => .percentages options.beltPercentages
| .logCardBytes => .number options.logCardBytes
| .matureExpandable => .flag options.matureExpandable
| .rootCapacity => .number options.rootCapacity
| .ownBuffersOnly => .flag options.ownBuffersOnly
| .poolSize => .number options.poolSize

/- The options with another value of one of them. -/
def put (options : Options) : Setting → Value → Options
| .maxHeapSize, .number n => { options with maxHeapSize := n }
| .beltPercentages, .percentages p =>
    { options with beltPercentages := p }
| .logCardBytes, .number n => { options with logCardBytes := n }
| .matureExpandable, .flag b =>
    { options with matureExpandable := b }
| .rootCapacity, .number n => { options with rootCapacity := n }
| .ownBuffersOnly, .flag b =>
    { options with ownBuffersOnly := b }
| .poolSize, .number n => { options with poolSize := n }
| _, _ => options

/- The values that an option may have. -/
def Setting.Takes : Setting → Value → Prop
| .maxHeapSize, .number n => Limits.minHeapSize ≤ n
| .beltPercentages, .percentages p => Complete p
| .logCardBytes, .number n =>
    Limits.minLogCardBytes ≤ n ∧ n ≤ Limits.maxLogCardBytes
| .matureExpandable, .flag _ => True
| .rootCapacity, .number n => 0 < n
| .ownBuffersOnly, .flag _ => True
| .poolSize, .number _ => True
| _, _ => False

/- What a text stands for. -/
inductive Means (text : String) : Value → Prop where
| number {n : Nat} :
    Numeral text.toList n → n < Word.limit →
      Means text (.number n)
| percentages {parts : List (List Char)} {p : Percentages} :
    Parts text.toList parts → List.Forall₂ Denotes parts p →
      Means text (.percentages p)
| flag {b : Bool} : text = toString b → Means text (.flag b)

variable {options options' : Options}
variable {s t : Setting}
variable {v : Value}
variable {name text : String}

/- The option that was changed has its new value. -/
theorem value_put_self
    (hTakes : s.Takes v) :
    (options.put s v).value s = v := by
  cases s <;> cases v <;> first | rfl | cases hTakes

/- Options that were not changed have their old values. -/
theorem value_put_of_ne
    (hNe : t ≠ s) :
    (options.put s v).value t = options.value t := by
  cases s <;> cases v <;> first | rfl | skip
  all_goals cases t <;> first | rfl | exact absurd rfl hNe

theorem readWord_eq_some_iff
    {n : Nat} :
    readWord text = some n ↔ Means text (.number n) := by
  have hMeans :
      Means text (.number n) ↔
        Numeral text.toList n ∧ n ≤ Word.limit - 1 := by
    have hLimit : 0 < Word.limit := by decide
    constructor
    · rintro (⟨hNumeral, hLt⟩)
      exact ⟨hNumeral, Nat.le_sub_one_of_lt hLt⟩
    · rintro ⟨hNumeral, hLe⟩
      exact .number hNumeral (by omega)
  rw [hMeans, ← readNumber_eq_ok_iff]
  unfold readWord
  cases readNumber (Word.limit - 1) text.toList <;>
    simp [Except.toOption]

theorem parse_toOption_eq_some_iff
    {p : Percentages} :
    (parse text).toOption = some p ↔
      Means text (.percentages p) := by
  have hMeans :
      Means text (.percentages p) ↔ parse text = .ok p := by
    rw [parse, readParts_eq_ok_iff]
    constructor
    · rintro (_ | ⟨hParts, hAll⟩)
      rwa [parts_iff.mp hParts]
    · exact .percentages (parts_iff.mpr rfl)
  rw [hMeans]
  cases parse text <;> simp [Except.toOption]

theorem readFlag_eq_some_iff
    {b : Bool} :
    readFlag text = some b ↔ Means text (.flag b) := by
  have hMeans : Means text (.flag b) ↔ text = toString b :=
    ⟨fun hFlag => by cases hFlag; assumption, .flag⟩
  rw [hMeans]
  fun_cases readFlag text with
  | case1 => cases b <;> decide
  | case2 => cases b <;> decide
  | case3 _ hTrue hFalse =>
      refine ⟨nofun, fun hText => ?_⟩
      cases b with
      | true => exact absurd hText hTrue
      | false => exact absurd hText hFalse

/- A value that was read is stored if it is found valid. -/
theorem run_stored
    {α : Type}
    {read : Option α}
    {valid : α → Except Fault Bool}
    {shown : α → String}
    {store : α → Options} :
    (ExceptT.run do
      let a ← accept s text read valid shown
      pure (store a)) =
      (match read with
      | none => .ok (.error (.unreadable s.name text))
      | some a =>
          match valid a with
          | .error f => .error f
          | .ok true => .ok (.ok (store a))
          | .ok false =>
              .ok (.error (.invalid s.name (shown a)))) := by
  cases read with
  | none => rfl
  | some a =>
      dsimp only [accept]
      cases valid a with
      | error f => rfl
      | ok valid => cases valid <;> rfl

/- Only a value that is found valid is stored. -/
theorem stored_eq_ok_iff
    {α : Type}
    {read : Option α}
    {valid : α → Except Fault Bool}
    {shown : α → String}
    {store : α → Options} :
    (ExceptT.run do
      let a ← accept s text read valid shown
      pure (store a)) = .ok (.ok options') ↔
      ∃ a,
        read = some a ∧ valid a = .ok true ∧
          options' = store a := by
  rw [run_stored]
  cases read with
  | none => simp
  | some a =>
      dsimp only
      cases hValid : valid a with
      | error f => simp [hValid]
      | ok valid => cases valid <;> simp [hValid, eq_comm]

/- The check of a value is all that can be at fault. -/
theorem stored_eq_error_iff
    {α : Type}
    {read : Option α}
    {valid : α → Except Fault Bool}
    {shown : α → String}
    {store : α → Options}
    {f : Fault} :
    (ExceptT.run do
      let a ← accept s text read valid shown
      pure (store a)) = .error f ↔
      ∃ a, read = some a ∧ valid a = .error f := by
  rw [run_stored]
  cases read with
  | none => simp
  | some a =>
      dsimp only
      cases hValid : valid a with
      | error e => simp [hValid]
      | ok valid => cases valid <;> simp [hValid]

/- A value is of one of the three kinds. -/
theorem exists_value_iff
    {P : Value → Prop} :
    (∃ v, P v) ↔
      (∃ n, P (.number n)) ∨ (∃ p, P (.percentages p)) ∨
        ∃ b, P (.flag b) := by
  constructor
  · rintro ⟨n | p | b, h⟩
    · exact .inl ⟨n, h⟩
    · exact .inr (.inl ⟨p, h⟩)
    · exact .inr (.inr ⟨b, h⟩)
  · rintro (⟨n, h⟩ | ⟨p, h⟩ | ⟨b, h⟩) <;> exact ⟨_, h⟩

/-
  An option is assigned exactly if its text stands for a value
  that it takes.
-/
theorem assignTo_eq_ok_iff :
    (options.assignTo s text).run = .ok (.ok options') ↔
      ∃ v,
        Means text v ∧ s.Takes v ∧ options' = options.put s v := by
  unfold assignTo
  cases s <;>
    simp only [stored_eq_ok_iff, readWord_eq_some_iff,
      readFlag_eq_some_iff, parse_toOption_eq_some_iff,
      exists_value_iff]
  all_goals
    simp [Setting.Takes, put, heapSizeValid, logCardBytesValid,
      rootCapacityValid, isValid_iff, and_assoc, pure,
      Except.pure]

/- Percentages that cannot be added up break off. -/
theorem assignTo_eq_error_iff
    {f : Fault} :
    (options.assignTo s text).run = .error f ↔
      f = .addOverflow ∧ s = .beltPercentages ∧
        ∃ p, Means text (.percentages p) ∧ Excessive p := by
  unfold assignTo
  cases s <;>
    simp only [stored_eq_error_iff, parse_toOption_eq_some_iff,
      isValid_eq_error_iff]
  all_goals simp [pure, Except.pure]
  constructor
  · rintro ⟨p, hMeans, rfl, hExcessive⟩
    exact ⟨rfl, p, hMeans, hExcessive⟩
  · rintro ⟨rfl, p, hMeans, hExcessive⟩
    exact ⟨p, hMeans, rfl, hExcessive⟩

------------------------------------------------------------
-- Calls
------------------------------------------------------------

/- The option with a name has that name. -/
theorem Setting.ofName?_eq_some_iff :
    Setting.ofName? name = some s ↔ s.name = name := by
  constructor
  · intro hFind
    unfold Setting.ofName? at hFind
    simpa using List.find?_some hFind
  · rintro rfl
    cases s <;> decide

/- Options are assigned by name exactly as they are by number. -/
theorem assign_eq_ok_iff :
    (options.assign name text).run = .ok (.ok options') ↔
      ∃ s v,
        s.name = name ∧ Means text v ∧ s.Takes v ∧
          options' = options.put s v := by
  unfold assign
  cases hName : Setting.ofName? name with
  | none =>
      constructor
      · nofun
      · rintro ⟨s, v, hNamed, -⟩
        rw [Setting.ofName?_eq_some_iff.mpr hNamed] at hName
        cases hName
  | some s =>
      dsimp only
      rw [assignTo_eq_ok_iff]
      constructor
      · rintro ⟨v, hValue⟩
        exact ⟨s, v, Setting.ofName?_eq_some_iff.mp hName, hValue⟩
      · rintro ⟨t, v, hNamed, hValue⟩
        rw [Setting.ofName?_eq_some_iff.mpr hNamed] at hName
        cases hName
        exact ⟨v, hValue⟩

/- The call is for percentages that cannot be added up. -/
def BreaksOff (name text : String) : Prop :=
  Setting.beltPercentages.name = name ∧
    ∃ p, Means text (.percentages p) ∧ Excessive p

/-
  An assignment breaks off only at percentages that cannot be
  added up.
-/
theorem assign_eq_error_iff
    {f : Fault} :
    (options.assign name text).run = .error f ↔
      f = .addOverflow ∧ BreaksOff name text := by
  unfold assign
  cases hName : Setting.ofName? name with
  | none =>
      constructor
      · nofun
      · rintro ⟨-, hNamed, -⟩
        rw [Setting.ofName?_eq_some_iff.mpr hNamed] at hName
        cases hName
  | some s =>
      dsimp only
      rw [assignTo_eq_error_iff]
      unfold BreaksOff
      rw [← Setting.ofName?_eq_some_iff, hName, Option.some.injEq]

/-
  What a call answers and does.  It sets the option it names to
  what its text stands for and leaves the others, or there is no
  such option or value and it leaves all of them.  It leaves them
  as well where it breaks off.
-/
inductive Answered
    (options : Options)
    (name text : String) :
    Except Fault Bool → Options → Prop where
| changed {options' : Options} {s : Setting} {v : Value} :
    s.name = name → Means text v → s.Takes v →
      options'.value s = v →
      (∀ t, t ≠ s → options'.value t = options.value t) →
      Answered options name text (.ok true) options'
| kept :
    ¬ BreaksOff name text →
      (∀ (s : Setting) (v : Value),
        s.name = name → Means text v → ¬ s.Takes v) →
      Answered options name text (.ok false) options
| brokenOff :
    BreaksOff name text →
      Answered options name text (.error .addOverflow) options

/-
  What calls answer and do one after the other, up to the first
  that breaks off.
-/
inductive Answers :
    Options → List (String × String) →
      Except Fault (List Bool) → Options → Prop where
| none {options : Options} : Answers options [] (.ok []) options
| call
    {options middle options' : Options}
    {name text : String}
    {rest : List (String × String)}
    {answer : Bool}
    {answers : Except Fault (List Bool)} :
    Answered options name text (.ok answer) middle →
      Answers middle rest answers options' →
      Answers options ((name, text) :: rest)
        (answers.map (answer :: ·)) options'
| brokenOff
    {options options' : Options}
    {name text : String}
    {rest : List (String × String)}
    {f : Fault} :
    Answered options name text (.error f) options' →
      Answers options ((name, text) :: rest) (.error f) options'

section Runs

variable {log : Log}

/- A call looks at the options that there are. -/
theorem run_state
    {ε : Type}
    (options : Options)
    (log : Log) :
    (Activity.state : Activity ε Options Options)
        ⟨options, log⟩ = (.ok options, ⟨options, log⟩) :=
  rfl

/- A call that assigns an option changes the options. -/
theorem set_of_assign
    (hAssign :
      (options.assign name text).run = .ok (.ok options')) :
    set name text ⟨options, log⟩ =
      (.ok true, ⟨options', log⟩) := by
  unfold set
  rw [Activity.run_bind, run_state]
  dsimp only
  rw [hAssign]
  rfl

/- A call that assigns nothing only reports why. -/
theorem set_of_assign_error
    {e : SettingError}
    (hAssign :
      (options.assign name text).run = .ok (.error e)) :
    set name text ⟨options, log⟩ =
      (.ok false, ⟨options, log.add e.event⟩) := by
  unfold set
  rw [Activity.run_bind, run_state]
  dsimp only
  rw [hAssign]
  rfl

/- A call that breaks off does not even report. -/
theorem set_of_assign_fault
    {f : Fault}
    (hAssign : (options.assign name text).run = .error f) :
    set name text ⟨options, log⟩ = (.error f, ⟨options, log⟩) := by
  unfold set
  rw [Activity.run_bind, run_state]
  dsimp only
  rw [hAssign]
  rfl

end Runs

/- Each call has an answer, or it breaks off. -/
theorem set_answers
    (options : Options)
    (log : Log)
    (name text : String) :
    ∃ answer options' log',
      set name text ⟨options, log⟩ =
          (answer, ⟨options', log'⟩) ∧
        Answered options name text answer options' := by
  cases hAssign : (options.assign name text).run with
  | error f =>
      rcases assign_eq_error_iff.mp hAssign with ⟨rfl, hBreaks⟩
      exact
        ⟨_, options, log, set_of_assign_fault hAssign,
          .brokenOff hBreaks⟩
  | ok result =>
      cases result with
      | ok options' =>
          refine
            ⟨.ok true, options', log, set_of_assign hAssign, ?_⟩
          rcases assign_eq_ok_iff.mp hAssign with
            ⟨s, v, hName, hMeans, hTakes, rfl⟩
          exact
            .changed hName hMeans hTakes (value_put_self hTakes)
              fun _ hNe => value_put_of_ne hNe
      | error e =>
          refine
            ⟨.ok false, options, _, set_of_assign_error hAssign,
              .kept ?_ ?_⟩
          · intro hBreaks
            rw [assign_eq_error_iff.mpr ⟨rfl, hBreaks⟩] at hAssign
            cases hAssign
          · intro s v hName hMeans hTakes
            rw [assign_eq_ok_iff.mpr
              ⟨s, v, hName, hMeans, hTakes, rfl⟩] at hAssign
            cases hAssign

------------------------------------------------------------
-- Valid Options
------------------------------------------------------------

/- Options all of which have values that they take. -/
def Valid (options : Options) : Prop :=
  ∀ s : Setting, s.Takes (options.value s)

/- The defaults are valid. -/
theorem valid_default : Valid {} := by
  intro s
  cases s with
  | beltPercentages => exact isValid_iff.mp (by decide)
  | _ => simp [Setting.Takes, value]; try decide

/- No call makes valid options invalid. -/
theorem Answered.valid
    {answer : Except Fault Bool}
    (hAnswered : Answered options name text answer options')
    (hValid : Valid options) :
    Valid options' := by
  cases hAnswered with
  | kept | brokenOff => exact hValid
  | changed hName hMeans hTakes hValue hOthers =>
      rename_i s v
      intro t
      by_cases hSame : t = s
      · subst t
        rwa [hValue]
      · rw [hOthers t hSame]
        exact hValid t

/- Calls leave valid options valid, however many they are. -/
theorem Answers.valid
    {calls : List (String × String)}
    {answers : Except Fault (List Bool)}
    (hAnswers : Answers options calls answers options')
    (hValid : Valid options) :
    Valid options' := by
  induction hAnswers with
  | none => exact hValid
  | brokenOff hFirst => exact hFirst.valid hValid
  | call hFirst hRest ih => exact ih (hFirst.valid hValid)

/- All that may be wrong with valid options is their belts. -/
theorem Valid.validate
    (hValid : Valid options) :
    (HeapConfig.ofOptions options).validate =
      if options.beltPercentages.length = 2 then .ok ()
      else .error (.beltCount options.beltPercentages.length) := by
  have hSize : Limits.minHeapSize ≤ options.maxHeapSize :=
    hValid .maxHeapSize
  have hCards :
      Limits.minLogCardBytes ≤ options.logCardBytes ∧
        options.logCardBytes ≤ Limits.maxLogCardBytes :=
    hValid .logCardBytes
  have hRoots : 0 < options.rootCapacity := hValid .rootCapacity
  have hLog : logCardBytesValid options.logCardBytes = true := by
    simpa [logCardBytesValid] using hCards
  simp [HeapConfig.validate, HeapConfig.ofOptions, hLog,
    Nat.not_lt_of_le hSize, Nat.ne_of_gt hRoots]

------------------------------------------------------------
-- Histories of Calls
------------------------------------------------------------

/- Calls are answered one after the other. -/
theorem mapM_set_answers
    (options : Options)
    (log : Log)
    (calls : List (String × String)) :
    ∃ answers options' log',
      (calls.mapM fun call => set call.1 call.2) ⟨options, log⟩ =
          (answers, ⟨options', log'⟩) ∧
        Answers options calls answers options' := by
  induction calls generalizing options log with
  | nil => exact ⟨.ok [], options, log, rfl, .none⟩
  | cons call calls ih =>
      rcases set_answers options log call.1 call.2 with
        ⟨f | answer, middle, log₁, hSet, hFirst⟩
      · refine ⟨.error f, middle, log₁, ?_, .brokenOff hFirst⟩
        rw [List.mapM_cons, Activity.run_bind, hSet]
      · rcases ih middle log₁ with
          ⟨answers, options', log₂, hCalls, hRest⟩
        refine ⟨_, options', log₂, ?_, .call hFirst hRest⟩
        rw [List.mapM_cons, Activity.run_bind, hSet]
        dsimp only
        rw [Activity.run_bind, hCalls]
        cases answers <;> rfl

/- The calls that the variables of an environment stand for. -/
def callsOf (env : List (String × String)) :
    List (String × String) :=
  env.filterMap fun entry =>
    (Setting.ofVariable? entry.1).map fun s => (s.name, entry.2)

/- Reading an environment makes those calls. -/
theorem readEnvironment_answers
    (options : Options)
    (log : Log)
    (env : List (String × String)) :
    ∃ answers options' log',
      readEnvironment env ⟨options, log⟩ =
          (answers.map fun _ => (), ⟨options', log'⟩) ∧
        Answers options (callsOf env) answers options' := by
  induction env generalizing options log with
  | nil => exact ⟨.ok [], options, log, rfl, .none⟩
  | cons entry env ih =>
      unfold readEnvironment callsOf
      rw [List.filterMap_cons]
      cases hSetting : Setting.ofVariable? entry.1 with
      | none =>
          rcases ih options log with
            ⟨answers, options', log₁, hEnv, hRest⟩
          refine ⟨answers, options', log₁, ?_, hRest⟩
          exact hEnv
      | some s =>
          dsimp only
          rcases set_answers options log s.name entry.2 with
            ⟨f | answer, middle, log₁, hSet, hFirst⟩
          · refine ⟨.error f, middle, log₁, ?_, .brokenOff hFirst⟩
            rw [Activity.run_bind, hSet]
            rfl
          · rcases ih middle log₁ with
              ⟨answers, options', log₂, hEnv, hRest⟩
            refine ⟨_, options', log₂, ?_, .call hFirst hRest⟩
            rw [Activity.run_bind, hSet]
            refine hEnv.trans ?_
            cases answers <;> rfl

/-
  Whatever the environment is and whatever is set after that,
  each call answers, and sets the option it names to what its
  text stands for or changes nothing.  Only percentages that
  cannot be added up make a call break off, which changes nothing
  either.  The options that come of it are valid.  Nothing but
  the number of belts may be wrong with the configuration that
  they ask for, and no layout of it is refused for its
  percentages.
-/
theorem settings_stay_valid
    (log : Log)
    (env calls : List (String × String)) :
    ∃ first started log₁ answers options log₂,
      readEnvironment env ⟨{}, log⟩ =
          (first.map fun _ => (), ⟨started, log₁⟩) ∧
        Answers {} (callsOf env) first started ∧
        (calls.mapM fun call => set call.1 call.2)
            ⟨started, log₁⟩ =
          (answers, ⟨options, log₂⟩) ∧
        Answers started calls answers options ∧
        Valid options ∧
        (HeapConfig.ofOptions options).validate =
          (if options.beltPercentages.length = 2 then .ok ()
          else
            .error (.beltCount options.beltPercentages.length)) ∧
        ∀ start heapSize percentages,
          (Layout.carve start heapSize
              (HeapConfig.ofOptions options).beltPercentages).run ≠
            .ok (.error (.invalidPercentages percentages)) := by
  rcases readEnvironment_answers {} log env with
    ⟨first, started, log₁, hEnv, hFirst⟩
  rcases mapM_set_answers started log₁ calls with
    ⟨answers, options, log₂, hCalls, hAnswers⟩
  have hValid := hAnswers.valid (hFirst.valid valid_default)
  exact
    ⟨first, started, log₁, answers, options, log₂, hEnv, hFirst,
      hCalls, hAnswers, hValid, hValid.validate,
      fun start heapSize _ =>
        Layout.carve_of_complete_ne (hValid .beltPercentages)
          start heapSize⟩

/-
  A text of more than sixteen million percentages is read, but
  then it is neither set nor refused.
-/
theorem long_texts_break_off :
    parse (Percentages.text longSplit) = .ok longSplit ∧
      set "belt_percentages" (Percentages.text longSplit)
          ⟨{}, {}⟩ =
        (.error .addOverflow, ⟨{}, {}⟩) := by
  rcases excessive_longSplit with ⟨hBytes, hExcessive⟩
  have hRead := parse_text hExcessive.some hBytes
  have hMeans :
      Means (Percentages.text longSplit)
        (.percentages longSplit) :=
    parse_toOption_eq_some_iff.mp
      (congrArg Except.toOption hRead)
  refine ⟨hRead, set_of_assign_fault ?_⟩
  exact
    assign_eq_error_iff.mpr
      ⟨rfl, rfl, longSplit, hMeans, hExcessive⟩

end Options

end BeltHeap
