import BeltHeap.Log.Event

/-
  Work on a state that reports events to a log and may break
  off.  What was done and reported before it broke off stays
  done and reported.

  Key definitions include:
    * `Log`
    * `Logged`
    * `Activity`
    * `Activity.emit`
    * `Activity.within`
-/

------------------------------------------------------------
-- Logs
------------------------------------------------------------

namespace BeltHeap

/-
  The events reported so far.  A log keeps the events that ask
  for at least the attention of its level, and none without one.
-/
structure Log where
  level : Option Level := none
  events : Array Event := #[]
deriving DecidableEq, Repr, Inhabited

namespace Log

/- Does the log keep events of a level? -/
def keeps
    (log : Log)
    (level : Level) : Bool :=
  match log.level with
  | none => false
  | some bound => level.rank ≤ bound.rank

/- A log with one more event, if it keeps events of its level. -/
def add
    (log : Log)
    (e : Event) : Log :=
  if log.keeps e.level then
    { log with events := log.events.push e }
  else log

end Log

------------------------------------------------------------
-- Activities
------------------------------------------------------------

/- A state with the log of the work done on it. -/
structure Logged (σ : Type) where
  state : σ
  log : Log := {}

/- Work on a logged state that may break off with an `ε`. -/
abbrev Activity (ε σ : Type) :=
  ExceptT ε (StateM (Logged σ))

namespace Activity

variable {ε σ τ α β : Type}

/- The present state. -/
def state : Activity ε σ σ := do
  return (← get).state

/- A value read off the present state. -/
def reading (f : σ → α) : Activity ε σ α :=
  fun s => (.ok (f s.state), s)

/- Change the state. -/
def change (f : σ → σ) : Activity ε σ Unit :=
  fun s => (.ok (), { s with state := f s.state })

/- Does the log keep events of a level? -/
def keeps (level : Level) : Activity ε σ Bool :=
  fun s => (.ok (s.log.keeps level), s)

/- Report an event. -/
def emit (e : Event) : Activity ε σ Unit :=
  fun s => (.ok (), { s with log := s.log.add e })

/- Work on a part of the state. -/
def within
    (part : τ → σ)
    (replace : τ → σ → τ)
    (work : Activity ε σ α) : Activity ε τ α :=
  fun s =>
    let r := work { state := part s.state, log := s.log }
    (r.1, { state := replace s.state r.2.state, log := r.2.log })

/- The result of work, and its failure as a value. -/
def attempt
    (work : Activity ε σ α) : Activity ε σ (Except ε α) :=
  fun s =>
    let r := work s
    (.ok r.1, r.2)

/- Work in sequence goes on only where nothing broke off. -/
theorem run_bind
    (work : Activity ε σ α)
    (next : α → Activity ε σ β)
    (s : Logged σ) :
    (work >>= next) s =
      (match (work s).1 with
        | .ok a => next a (work s).2
        | .error e => (.error e, (work s).2)) := by
  cases hCase : work s with
  | mk r v =>
      simp only [bind, ExceptT.bind, ExceptT.mk, StateT.bind,
        hCase]
      cases r with
      | ok a => rfl
      | error e => rfl

end Activity

/- A computed failure breaks off the work. -/
instance {ε σ : Type} : MonadLift (Except ε) (Activity ε σ) where
  monadLift
  | .ok a => pure a
  | .error e => throw e

end BeltHeap
