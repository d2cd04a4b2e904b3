import BeltHeap.Observer.Source

/-
  What the work of an observer keeps up: its answers satisfy a
  condition together with the state they leave, and so does
  whatever state an error leaves.  Nothing is said of faults.

  Main declarations:
    * `ObserverM.Outcome`
    * `ObserverM.Upholds`
    * `ObserverM.upholds_bind`
    * `ObserverM.upholds_within`
    * `ObserverM.upholds_attempt`
-/

------------------------------------------------------------
-- Outcomes
------------------------------------------------------------

namespace BeltHeap

namespace ObserverM

variable {τ ι α β : Type}

/-
  An answer satisfies `post` and an error leaves a state that
  satisfies `kept`.
-/
def Outcome
    (kept : τ → Prop)
    (post : α → τ → Prop) : Except Interruption α → τ → Prop
| .ok a, s => post a s
| .error (.error _), s => kept s
| .error (.fault _), _ => True

/- Whatever was logged, work on a state has such an outcome. -/
def Upholds
    (kept : τ → Prop)
    (work : ObserverM τ α)
    (s : τ)
    (post : α → τ → Prop) : Prop :=
  ∀ log,
    Outcome kept post (work ⟨s, log⟩).1 (work ⟨s, log⟩).2.state

variable {kept kept' : τ → Prop}
variable {s : τ}
variable {mid post : α → τ → Prop}
variable {last : β → τ → Prop}

theorem Upholds.of_ok
    {work : ObserverM τ α}
    {r t : Logged τ}
    {a : α}
    (hUpholds : Upholds kept work r.state post)
    (hRun : work r = (.ok a, t)) :
    post a t.state := by
  have hOutcome := hUpholds r.log
  change Outcome kept post (work r).1 (work r).2.state
    at hOutcome
  rw [hRun] at hOutcome
  exact hOutcome

/-
  Work that upholds something leaves it after any result but a
  fault.
-/
theorem Upholds.of_run
    {work : ObserverM τ α}
    {r t : Logged τ}
    {result : Except Interruption α}
    (hUpholds : Upholds kept work r.state fun _ => kept)
    (hRun : work r = (result, t))
    (hSafe : ∀ f, result ≠ .error (.fault f)) :
    kept t.state := by
  have hOutcome := hUpholds r.log
  change Outcome kept _ (work r).1 (work r).2.state at hOutcome
  rw [hRun] at hOutcome
  rcases result with (e | f) | a
  · exact hOutcome
  · exact absurd rfl (hSafe f)
  · exact hOutcome

theorem Upholds.imp
    {work : ObserverM τ α}
    (hUpholds : Upholds kept work s mid)
    (hKept : ∀ g, kept g → kept' g)
    (hPost : ∀ a g, mid a g → post a g) :
    Upholds kept' work s post := by
  intro log
  have hOutcome := hUpholds log
  generalize work ⟨s, log⟩ = r at hOutcome ⊢
  rcases r with ⟨(e | f) | a, t⟩
  · exact hKept _ hOutcome
  · trivial
  · exact hPost _ _ hOutcome

------------------------------------------------------------
-- Single Steps
------------------------------------------------------------

theorem upholds_pure
    {a : α}
    (hPost : post a s) :
    Upholds kept (pure a) s post :=
  fun _ => hPost

/- Ending with an error. -/
theorem upholds_fail
    {e : ObserverError}
    (hKept : kept s) :
    Upholds kept (fail e : ObserverM τ α) s post :=
  fun _ => hKept

/- Breaking off with a fault. -/
theorem upholds_fault
    {f : Fault} :
    Upholds kept (throw (.fault f) : ObserverM τ α) s post :=
  fun _ => trivial

/- Changing the state. -/
theorem upholds_change
    {f : τ → τ}
    {post : Unit → τ → Prop}
    (hPost : post () (f s)) :
    Upholds kept (Activity.change f) s post :=
  fun _ => hPost

/- Reporting an event. -/
theorem upholds_emit
    {e : Event}
    {post : Unit → τ → Prop}
    (hPost : post () s) :
    Upholds kept (Activity.emit e) s post :=
  fun _ => hPost

------------------------------------------------------------
-- Work in Sequence
------------------------------------------------------------

theorem upholds_bind
    {work : ObserverM τ α}
    {next : α → ObserverM τ β}
    (hWork : Upholds kept work s mid)
    (hNext : ∀ a g, mid a g → Upholds kept (next a) g last) :
    Upholds kept (work >>= next) s last := by
  intro log
  have hOutcome := hWork log
  rw [Activity.run_bind]
  generalize work ⟨s, log⟩ = r at hOutcome ⊢
  rcases r with ⟨(e | f) | a, t⟩
  · exact hOutcome
  · trivial
  · exact hNext a t.state hOutcome t.log

theorem run_read
    {f : τ → α}
    {next : α → ObserverM τ β}
    {r : Logged τ} :
    (Activity.reading f >>= next) r = next (f r.state) r :=
  rfl

theorem run_computed
    {x : Except Fault α}
    {a : α}
    {next : α → ObserverM τ β}
    {r : Logged τ}
    (hOk : x = .ok a) :
    ((monadLift x : ObserverM τ α) >>= next) r = next a r := by
  subst hOk
  rfl

/- Work whose answer is left out upholds what it upheld. -/
theorem upholds_leftOut
    {work : ObserverM τ α}
    (hWork : Upholds kept work s fun _ => kept) :
    Upholds kept
      (do
        let _ ← work
        pure ())
      s fun _ => kept :=
  upholds_bind hWork fun _ _ hKept => upholds_pure hKept

theorem upholds_read
    {f : τ → α}
    {next : α → ObserverM τ β}
    (hNext : Upholds kept (next (f s)) s last) :
    Upholds kept (Activity.reading f >>= next) s last :=
  fun log => hNext log

theorem upholds_write
    {f : τ → τ}
    {next : Unit → ObserverM τ β}
    (hNext : Upholds kept (next ()) (f s) last) :
    Upholds kept (Activity.change f >>= next) s last :=
  fun log => hNext log

theorem upholds_report
    {e : Event}
    {next : Unit → ObserverM τ β}
    (hNext : Upholds kept (next ()) s last) :
    Upholds kept (Activity.emit e >>= next) s last :=
  fun log => hNext (log.add e)

theorem upholds_computed
    {x : Except Fault α}
    {next : α → ObserverM τ β}
    (hNext : ∀ a, x = .ok a → Upholds kept (next a) s last) :
    Upholds kept ((monadLift x : ObserverM τ α) >>= next) s
      last := by
  cases x with
  | error f => exact fun _ => trivial
  | ok a => exact hNext a rfl

/- Work on a part of the state. -/
theorem upholds_within
    {part : τ → ι}
    {replace : τ → ι → τ}
    {work : ObserverM ι α}
    (hWork :
      Upholds (fun g => kept (replace s g)) work (part s)
        fun a g => post a (replace s g)) :
    Upholds kept (Activity.within part replace work) s post := by
  intro log
  have hOutcome := hWork log
  change
    Outcome kept post (work ⟨part s, log⟩).1
      (replace s (work ⟨part s, log⟩).2.state)
  generalize work ⟨part s, log⟩ = r at hOutcome ⊢
  rcases r with ⟨(e | f) | a, t⟩
  · exact hOutcome
  · trivial
  · exact hOutcome

/- Work goes on after a failure as well as after an answer. -/
theorem upholds_attempt
    {work : ObserverM τ α}
    {next : Except Interruption α → ObserverM τ β}
    (hWork : Upholds kept' work s mid)
    (hOk : ∀ a g, mid a g → Upholds kept (next (.ok a)) g last)
    (hError :
      ∀ e g, kept' g →
        Upholds kept (next (.error (.error e))) g last)
    (hFault :
      ∀ f g, Upholds kept (next (.error (.fault f))) g last) :
    Upholds kept (Activity.attempt work >>= next) s last := by
  intro log
  have hOutcome := hWork log
  change
    Outcome kept last
      (next (work ⟨s, log⟩).1 (work ⟨s, log⟩).2).1
      (next (work ⟨s, log⟩).1 (work ⟨s, log⟩).2).2.state
  generalize work ⟨s, log⟩ = r at hOutcome ⊢
  rcases r with ⟨(e | f) | a, t⟩
  · exact hError e t.state hOutcome t.log
  · exact hFault f t.state t.log
  · exact hOk a t.state hOutcome t.log

end ObserverM

end BeltHeap
