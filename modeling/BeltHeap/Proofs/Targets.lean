import BeltHeap.Observer.LiveProcess
import BeltHeap.Proofs.Upholding

/-
  What a process behind a channel does to a target, if the memory
  of the target changes only while it runs or where it is written
  to, and a request that is refused does not start or stop it.

  Main declarations:
    * `View`, `Target`
    * `LiveProcess.Attached`
    * `LiveProcess.reads`, `LiveProcess.writes`
    * `LiveProcess.suspends`
    * `LiveProcess.resumes`, `LiveProcess.kills`
    * `Debuggee`, `Debuggee.target`
-/

------------------------------------------------------------
-- Targets
------------------------------------------------------------

namespace BeltHeap

/- The bytes are those of a memory from an address on. -/
def Shows
    (memory : Nat → Option UInt8)
    (a : Nat)
    (bs : List UInt8) : Prop :=
  ∀ i b, bs[i]? = some b → memory (a + i) = some b

/-
  What there is to see of a target: the bytes at the addresses
  that are mapped, and whether it is stopped.
-/
structure View (σ : Type) where
  memory : σ → Nat → Option UInt8
  stopped : σ → Bool

/-
  A target goes on running, or it stays stopped and its memory
  is the same.
-/
def View.GoesOn
    {σ : Type}
    (v : View σ)
    (c d : σ) : Prop :=
  v.stopped d = v.stopped c ∧
    (v.stopped c = true → v.memory d = v.memory c)

/-
  A request that stops a target or lets it go, or is refused and
  does neither.
-/
def View.Controls
    {σ : Type}
    (v : View σ)
    (question : StateM σ (Except String Unit))
    (halts : Bool) : Prop :=
  ∀ c,
    (question c).1 = .ok () ∧ v.stopped (question c).2 = halts ∨
      (∃ text, (question c).1 = .error text) ∧
        v.GoesOn c (question c).2

/-
  A target that stays as it is while it is stopped.  What a
  channel reads is there, what it writes changes nothing outside
  of the range, and it may refuse any request.
-/
structure Target
    (σ : Type)
    [ProcessChannel σ] extends View σ where
  reads :
    ∀ c a count, stopped c = true →
      toView.GoesOn c (ProcessChannel.read a count c).2 ∧
        ∀ bs, (ProcessChannel.read a count c).1 = .ok bs →
          bs.length ≤ count ∧ Shows (memory c) a bs
  writes :
    ∀ c a bs, stopped c = true →
      stopped (ProcessChannel.write a bs c).2 = true ∧
        ∀ b, b < a ∨ a + bs.length ≤ b →
          memory (ProcessChannel.write a bs c).2 b = memory c b
  suspends : toView.Controls ProcessChannel.suspend true
  resumes : toView.Controls ProcessChannel.resume false
  kills : toView.Controls ProcessChannel.kill false

------------------------------------------------------------
-- Processes
------------------------------------------------------------

namespace LiveProcess

open ObserverM

variable {σ α : Type}
variable {view : View σ}
variable {p q : LiveProcess σ}

/- A process is known to be stopped when the target is. -/
def Attached
    (view : View σ)
    (p : LiveProcess σ) : Prop :=
  p.state = .stopped ↔ view.stopped p.channel = true

/- Two processes in the same state, with targets in the same. -/
structure Alike
    (view : View σ)
    (p q : LiveProcess σ) : Prop where
  state : q.state = p.state
  epoch : q.epoch = p.epoch
  byteOrder : q.byteOrder = p.byteOrder
  wordSize : q.wordSize = p.wordSize
  stopped : view.stopped q.channel = view.stopped p.channel

/-
  A process whose target, if it is stopped, changed in no more
  than a range.
-/
structure Wrote
    (view : View σ)
    (p : LiveProcess σ)
    (a count : Nat)
    (q : LiveProcess σ) : Prop extends Alike view p q where
  memory :
    view.stopped p.channel = true →
      ∀ b, b < a ∨ a + count ≤ b →
        view.memory q.channel b = view.memory p.channel b

/- A process that only went on, like its target. -/
structure GoesOn
    (view : View σ)
    (p q : LiveProcess σ) : Prop extends Alike view p q where
  memory :
    view.stopped p.channel = true →
      view.memory q.channel = view.memory p.channel

/- A process that was stopped, at the start of a new epoch. -/
structure Stopped
    (view : View σ)
    (p q : LiveProcess σ) : Prop where
  state : q.state = .stopped
  stopped : view.stopped q.channel = true
  epoch : q.epoch = p.epoch + 1

/- A process that was let go, or ended. -/
structure LetGo
    (view : View σ)
    (p q : LiveProcess σ) : Prop where
  state : q.state ≠ .stopped
  stopped : view.stopped q.channel = false
  epoch : q.epoch = p.epoch

theorem GoesOn.refl : GoesOn view p p :=
  ⟨⟨rfl, rfl, rfl, rfl, rfl⟩, fun _ => rfl⟩

theorem GoesOn.trans
    {r : LiveProcess σ}
    (hFirst : GoesOn view p q)
    (hSecond : GoesOn view q r) :
    GoesOn view p r :=
  ⟨⟨hSecond.state.trans hFirst.state,
      hSecond.epoch.trans hFirst.epoch,
      hSecond.byteOrder.trans hFirst.byteOrder,
      hSecond.wordSize.trans hFirst.wordSize,
      hSecond.stopped.trans hFirst.stopped⟩,
    fun hStopped =>
      (hSecond.memory (hFirst.stopped.trans hStopped)).trans
        (hFirst.memory hStopped)⟩

/- What only went on changed in no more than a range. -/
theorem GoesOn.wrote
    {a count : Nat}
    (hGoesOn : GoesOn view p q) :
    Wrote view p a count q :=
  ⟨hGoesOn.toAlike, fun hStopped b _ => by
    rw [hGoesOn.memory hStopped]⟩

/- A channel that goes on takes its process along. -/
theorem goesOn_of_channel
    {channel : σ}
    (hGoesOn : view.GoesOn p.channel channel) :
    GoesOn view p { p with channel } :=
  ⟨⟨rfl, rfl, rfl, rfl, hGoesOn.1⟩, hGoesOn.2⟩

/- Processes stay attached where targets stay in their state. -/
theorem Alike.attached
    (hAlike : Alike view p q)
    (hAttached : Attached view p) :
    Attached view q := by
  unfold Attached
  rw [hAlike.state, hAlike.stopped]
  exact hAttached

/- A process that was stopped is attached. -/
theorem Stopped.attached
    (hStopped : Stopped view p q) :
    Attached view q :=
  ⟨fun _ => hStopped.stopped, fun _ => hStopped.state⟩

/- A process that was let go is attached. -/
theorem LetGo.attached
    (hLetGo : LetGo view p q) :
    Attached view q := by
  refine ⟨fun hState => absurd hState hLetGo.state, fun h => ?_⟩
  rw [hLetGo.stopped] at h
  cases h

------------------------------------------------------------
-- Requests
------------------------------------------------------------

variable {kept : LiveProcess σ → Prop}
variable {post : α → LiveProcess σ → Prop}

/- A request comes to whatever the channel answers. -/
theorem upholds_request
    {question : StateM σ (Except String α)}
    (hOk :
      ∀ a, (question p.channel).1 = .ok a →
        post a { p with channel := (question p.channel).2 })
    (hError :
      ∀ text, (question p.channel).1 = .error text →
        kept { p with channel := (question p.channel).2 }) :
    Upholds kept (request question) p post := by
  have hAsk :
      Upholds kept (ask question) p fun r g =>
        r = (question p.channel).1 ∧
          g = { p with channel := (question p.channel).2 } :=
    fun _ => ⟨rfl, rfl⟩
  have hExecute :
      Upholds kept (worker.execute .outside fun _ => ask question)
        p fun r g =>
          r = (question p.channel).1 ∧
            g = { p with channel := (question p.channel).2 } := by
    unfold Executor.execute
    rw [if_neg (by decide)]
    apply upholds_report
    refine upholds_bind hAsk fun r g hr => ?_
    apply upholds_report
    exact upholds_pure hr
  unfold request
  refine upholds_bind hExecute ?_
  rintro r g ⟨rfl, rfl⟩
  cases hAnswer : (question p.channel).1 with
  | ok a => exact upholds_pure (hOk a hAnswer)
  | error text => exact upholds_fail (hError text hAnswer)

/- Only a process that is stopped passes the check. -/
theorem upholds_checkStopped
    {operation : String}
    (hKept : kept p) :
    Upholds kept (checkStopped operation) p fun _ g =>
      g = p ∧ p.state = .stopped := by
  unfold checkStopped
  apply upholds_read
  cases hState : p.state with
  | stopped => exact upholds_pure ⟨rfl, rfl⟩
  | running => exact upholds_fail hKept
  | terminated => exact upholds_fail hKept
  | noProcess => exact upholds_fail hKept

/- Only a whole transfer passes the check. -/
theorem upholds_checkWhole
    {a count transferred : Nat}
    (hKept : kept p) :
    Upholds kept (checkWhole a count transferred) p fun _ g =>
      g = p ∧ count ≤ transferred := by
  unfold checkWhole
  split
  · exact upholds_computed fun _ _ => upholds_fail hKept
  · exact upholds_pure ⟨rfl, by omega⟩

/-
  A request that is granted does to the target what it is for,
  and one that is refused does nothing.
-/
theorem upholds_control
    {question : StateM σ (Except String Unit)}
    {halts : Bool}
    (hControls : view.Controls question halts) :
    Upholds (GoesOn view p) (request question) p fun _ q =>
      q.epoch = p.epoch ∧ view.stopped q.channel = halts := by
  rcases hControls p.channel with
    ⟨hOk, hDone⟩ | ⟨⟨text, hError⟩, hGoesOn⟩
  · refine upholds_request (fun _ _ => ⟨rfl, hDone⟩) ?_
    intro text hError
    rw [hOk] at hError
    cases hError
  · refine upholds_request ?_ fun _ _ => goesOn_of_channel hGoesOn
    intro a hOk
    rw [hError] at hOk
    cases hOk

/-
  A process that is to get into a state is left alone, or its
  channel grants that and what follows from it is noted.
-/
theorem upholds_enter
    {state : ProcessState}
    {question : StateM σ (Except String Unit)}
    {note : ObserverM (LiveProcess σ) Unit}
    {halts : Bool}
    {entered : LiveProcess σ → Prop}
    (hControls : view.Controls question halts)
    (hNote :
      ∀ q : LiveProcess σ,
        q.state = state → view.stopped q.channel = halts →
          q.epoch = p.epoch →
            Upholds (GoesOn view p) note q fun _ => entered) :
    Upholds (GoesOn view p) (control state question note) p
      fun _ q => GoesOn view p q ∨ entered q := by
  unfold control
  apply upholds_read
  split
  · exact upholds_pure (Or.inl GoesOn.refl)
  · split
    · exact upholds_fail GoesOn.refl
    · refine upholds_bind (upholds_control hControls) ?_
      rintro _ q ⟨hEpoch, hHalts⟩
      apply upholds_write
      exact
        (hNote { q with state } rfl hHalts hEpoch).imp
          (fun _ hKept => hKept) fun _ _ => Or.inr

------------------------------------------------------------
-- Memory
------------------------------------------------------------

variable [ProcessChannel σ]
variable {target : Target σ}

/- Bytes of a range go through the buffer that they fill. -/
theorem readBytes_eq
    (a count : Nat) :
    readBytes (σ := σ) a count =
      (do
        checkStopped "read its memory"
        let bs ← request (ProcessChannel.read a count)
        checkWhole a count bs.length
        pure (bs.take count)) := by
  funext s
  unfold readBytes read
  simp only [Activity.run_bind, onProcess, Activity.within,
    Activity.reading, Activity.change, Destination.size]
  cases (checkStopped "read its memory" s).1 with
  | error e => rfl
  | ok _ =>
      dsimp only
      cases hRequest :
          (request (ProcessChannel.read a count)
            (checkStopped "read its memory" s).2).1 with
      | error e => rfl
      | ok bs =>
          dsimp only
          cases
            (checkWhole a count bs.length
              (request (ProcessChannel.read a count)
                (checkStopped "read its memory" s).2).2).1 <;>
            rfl

/-
  Reading leaves the process alone.  The answer is what was asked
  for, and it is only given while the target is stopped.
-/
theorem reads
    {a count : Nat}
    (hAttached : Attached target.toView p) :
    Upholds (GoesOn target.toView p) (readBytes a count) p
      fun bs q =>
      GoesOn target.toView p q ∧
        target.stopped p.channel = true ∧
        bs.length = count ∧
        Shows (target.memory p.channel) a bs := by
  rw [readBytes_eq]
  refine upholds_bind (upholds_checkStopped GoesOn.refl) ?_
  rintro _ g ⟨rfl, hState⟩
  have hStopped := hAttached.mp hState
  rcases target.reads g.channel a count hStopped with
    ⟨hGoesOn, hBytes⟩
  have hRequest :
      Upholds (GoesOn target.toView g)
        (request (ProcessChannel.read a count)) g fun bs q =>
          GoesOn target.toView g q ∧ bs.length ≤ count ∧
            Shows (target.memory g.channel) a bs :=
    upholds_request
      (fun bs hOk => ⟨goesOn_of_channel hGoesOn, hBytes bs hOk⟩)
      fun _ _ => goesOn_of_channel hGoesOn
  refine upholds_bind hRequest ?_
  rintro bs q ⟨hQ, hLength, hShows⟩
  refine upholds_bind (upholds_checkWhole hQ) ?_
  rintro _ k ⟨rfl, hWhole⟩
  rw [List.take_of_length_le hLength]
  exact
    upholds_pure
      ⟨hQ, hStopped, Nat.le_antisymm hLength hWhole, hShows⟩

/- Writing changes no more than the range, whatever comes of it. -/
theorem writes
    {a : Nat}
    {bs : List UInt8}
    (hAttached : Attached target.toView p) :
    Upholds (Wrote target.toView p a bs.length) (write a bs) p
      fun _ => Wrote target.toView p a bs.length := by
  unfold write
  refine upholds_bind (upholds_checkStopped GoesOn.refl.wrote) ?_
  rintro _ g ⟨rfl, hState⟩
  have hStopped := hAttached.mp hState
  rcases target.writes g.channel a bs hStopped with
    ⟨hStill, hOutside⟩
  have hWrote :
      Wrote target.toView g a bs.length
        { g with
          channel := (ProcessChannel.write a bs g.channel).2 } :=
    ⟨⟨rfl, rfl, rfl, rfl, hStill.trans hStopped.symm⟩,
      fun _ => hOutside⟩
  have hRequest :
      Upholds (Wrote target.toView g a bs.length)
        (request (ProcessChannel.write a bs)) g fun _ =>
          Wrote target.toView g a bs.length :=
    upholds_request (fun _ _ => hWrote) fun _ _ => hWrote
  refine upholds_bind hRequest fun written q hQ => ?_
  refine (upholds_checkWhole hQ).imp (fun _ hKept => hKept) ?_
  rintro _ k ⟨rfl, -⟩
  exact hQ

------------------------------------------------------------
-- Control
------------------------------------------------------------

/- Suspending a process stops it, or leaves it alone. -/
theorem suspends :
    Upholds (GoesOn target.toView p) suspend p fun _ q =>
      GoesOn target.toView p q ∨ Stopped target.toView p q := by
  refine upholds_enter target.suspends ?_
  intro q hState hStopped hEpoch
  apply upholds_write
  apply upholds_read
  exact
    upholds_emit ⟨hState, hStopped, congrArg (· + 1) hEpoch⟩

/- A process that gets into no new epoch is let go. -/
theorem upholds_letGo
    {state : ProcessState}
    {question : StateM σ (Except String Unit)}
    {e : Event}
    (hState : state ≠ .stopped)
    (hControls : target.toView.Controls question false) :
    Upholds (GoesOn target.toView p)
      (control state question (Activity.emit e)) p fun _ q =>
        GoesOn target.toView p q ∨ LetGo target.toView p q :=
  upholds_enter hControls fun _ hEnters hRuns hEpoch =>
    upholds_emit ⟨hEnters ▸ hState, hRuns, hEpoch⟩

/- Resuming a process lets it go, or leaves it alone. -/
theorem resumes :
    Upholds (GoesOn target.toView p) resume p fun _ q =>
      GoesOn target.toView p q ∨ LetGo target.toView p q :=
  upholds_letGo nofun target.resumes

/- Ending a process lets it go, or leaves it alone. -/
theorem kills :
    Upholds (GoesOn target.toView p) kill p fun _ q =>
      GoesOn target.toView p q ∨ LetGo target.toView p q :=
  upholds_letGo nofun target.kills

end LiveProcess

------------------------------------------------------------
-- A Small Target
------------------------------------------------------------

/-
  A small target with memory from address zero on, which gives no
  access to it while it runs.
-/
structure Debuggee where
  memory : List UInt8
  stopped : Bool
deriving DecidableEq, Repr

namespace Debuggee

/- A request that needs the target to be stopped. -/
def whileStopped
    {α : Type}
    (answer : Debuggee → α × Debuggee) :
    StateM Debuggee (Except String α) :=
  fun d =>
    if d.stopped then (.ok (answer d).1, (answer d).2)
    else (.error "target is running", d)

/- The bytes of a range that are there. -/
def peek
    (a count : Nat)
    (d : Debuggee) : List UInt8 × Debuggee :=
  ((d.memory.drop a).take count, d)

/- Change the bytes of a range that are there. -/
def poke
    (a : Nat)
    (bs : List UInt8)
    (d : Debuggee) : Nat × Debuggee :=
  let room := d.memory.length - a
  (min bs.length room,
    { d with
      memory :=
        d.memory.take a ++ bs.take room ++
          d.memory.drop (a + bs.length) })

/- Let a target run, or stop it. -/
def control
    (stopped : Bool) : StateM Debuggee (Except String Unit) :=
  fun d => (.ok (), { d with stopped })

instance : ProcessChannel Debuggee where
  read a count := whileStopped (peek a count)
  write a bs := whileStopped (poke a bs)
  suspend := control true
  resume := control false
  kill := control false
  threads := fun d => (.ok [1], d)
  pageSize := fun _ => 4

/- What there is to see of a debuggee. -/
def view : View Debuggee where
  memory d a := d.memory[a]?
  stopped := Debuggee.stopped

/- The bytes that are read are those of the memory. -/
theorem shows_peek
    (a count : Nat)
    (d : Debuggee) :
    Shows (view.memory d) a (peek a count d).1 := by
  intro i b hByte
  change ((d.memory.drop a).take count)[i]? = some b at hByte
  change d.memory[a + i]? = some b
  rw [List.getElem?_take] at hByte
  split at hByte
  · rwa [List.getElem?_drop] at hByte
  · cases hByte

/- Bytes outside of a range that is written stay. -/
theorem memory_poke
    {a b : Nat}
    {bs : List UInt8}
    (d : Debuggee)
    (hOutside : b < a ∨ a + bs.length ≤ b) :
    view.memory (poke a bs d).2 b = view.memory d b := by
  change
    (d.memory.take a ++ bs.take (d.memory.length - a) ++
      d.memory.drop (a + bs.length))[b]? = d.memory[b]?
  grind

/- A debuggee stays as it is while it is stopped. -/
def target : Target Debuggee where
  toView := view
  reads := by
    intro d a count hStopped
    have hRun :
        ProcessChannel.read a count d =
          (.ok (peek a count d).1, d) :=
      if_pos hStopped
    rw [hRun]
    refine ⟨⟨rfl, fun _ => rfl⟩, ?_⟩
    rintro bs ⟨⟩
    exact ⟨List.length_take_le _ _, shows_peek a count d⟩
  writes := by
    intro d a bs hStopped
    have hRun :
        ProcessChannel.write a bs d =
          (.ok (poke a bs d).1, (poke a bs d).2) :=
      if_pos hStopped
    rw [hRun]
    exact ⟨hStopped, fun b hOutside => memory_poke d hOutside⟩
  suspends := fun _ => Or.inl ⟨rfl, rfl⟩
  resumes := fun _ => Or.inl ⟨rfl, rfl⟩
  kills := fun _ => Or.inl ⟨rfl, rfl⟩

end Debuggee

end BeltHeap
