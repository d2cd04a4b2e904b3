import BeltHeap.Proofs.Upholding

/-
  What the work of an observer comes to: besides what it keeps
  up, whether it can be at fault.  Work that can neither fail nor
  be at fault comes to an answer.

  Main declarations:
    * `ObserverM.Meets`
    * `ObserverM.Meets.answers`
    * `ObserverM.meets_bind`
    * `ObserverM.meets_within`
-/

------------------------------------------------------------
-- Conditions on Faults
------------------------------------------------------------

namespace BeltHeap

namespace ObserverM

variable {τ ι α β : Type}

/-
  Work upholds its conditions, and is at fault only if it may be.
-/
structure Meets
    (faulty : Prop)
    (kept : τ → Prop)
    (work : ObserverM τ α)
    (s : τ)
    (post : α → τ → Prop) : Prop where
  upholds : Upholds kept work s post
  faults :
    ∀ log f, (work ⟨s, log⟩).1 = .error (.fault f) → faulty

variable {faulty faulty' : Prop}
variable {kept kept' : τ → Prop}
variable {s : τ}
variable {mid post : α → τ → Prop}
variable {last : β → τ → Prop}

/- Whatever work upholds it meets if it may be at fault. -/
theorem Upholds.meets
    {work : ObserverM τ α}
    (hUpholds : Upholds kept work s post)
    (hFaulty : faulty) :
    Meets faulty kept work s post :=
  ⟨hUpholds, fun _ _ _ => hFaulty⟩

theorem Meets.imp
    {work : ObserverM τ α}
    (hMeets : Meets faulty kept work s mid)
    (hFaulty : faulty → faulty')
    (hKept : ∀ g, kept g → kept' g)
    (hPost : ∀ a g, mid a g → post a g) :
    Meets faulty' kept' work s post :=
  ⟨hMeets.upholds.imp hKept hPost,
    fun log f hRun => hFaulty (hMeets.faults log f hRun)⟩

/- Work that may neither fail nor be at fault is answered. -/
theorem Meets.answers
    {work : ObserverM τ α}
    {r : Logged τ}
    (hMeets : Meets False (fun _ => False) work r.state post) :
    ∃ a t, work r = (.ok a, t) ∧ post a t.state := by
  have hOutcome := hMeets.upholds r.log
  have hFaults := hMeets.faults r.log
  change Outcome _ post (work r).1 (work r).2.state at hOutcome
  change ∀ f, (work r).1 = _ → False at hFaults
  rcases hRun : work r with ⟨(e | f) | a, t⟩
  · rw [hRun] at hOutcome
    exact hOutcome.elim
  · rw [hRun] at hFaults
    exact (hFaults f rfl).elim
  · rw [hRun] at hOutcome
    exact ⟨a, t, rfl, hOutcome⟩

------------------------------------------------------------
-- Single Steps
------------------------------------------------------------

theorem meets_pure
    {a : α}
    (hPost : post a s) :
    Meets faulty kept (pure a) s post :=
  ⟨upholds_pure hPost, nofun⟩

/- Ending with an error. -/
theorem meets_fail
    {e : ObserverError}
    (hKept : kept s) :
    Meets faulty kept (fail e : ObserverM τ α) s post :=
  ⟨upholds_fail hKept, nofun⟩

/- Breaking off with a fault. -/
theorem meets_fault
    {f : Fault}
    (hFaulty : faulty) :
    Meets faulty kept (throw (.fault f) : ObserverM τ α) s post :=
  upholds_fault.meets hFaulty

------------------------------------------------------------
-- Work in Sequence
------------------------------------------------------------

theorem meets_bind
    {work : ObserverM τ α}
    {next : α → ObserverM τ β}
    (hWork : Meets faulty kept work s mid)
    (hNext :
      ∀ a g, mid a g → Meets faulty kept (next a) g last) :
    Meets faulty kept (work >>= next) s last := by
  refine
    ⟨upholds_bind hWork.upholds
      fun a g hMid => (hNext a g hMid).upholds, ?_⟩
  intro log f hRun
  have hOutcome := hWork.upholds log
  have hFaults := hWork.faults log
  rw [Activity.run_bind] at hRun
  generalize work ⟨s, log⟩ = r at hOutcome hFaults hRun
  rcases r with ⟨(e | g) | a, t⟩
  · cases hRun
  · exact hFaults g rfl
  · exact (hNext a t.state hOutcome).faults t.log f hRun

theorem meets_read
    {f : τ → α}
    {next : α → ObserverM τ β}
    (hNext : Meets faulty kept (next (f s)) s last) :
    Meets faulty kept (Activity.reading f >>= next) s last :=
  ⟨upholds_read hNext.upholds, fun log => hNext.faults log⟩

theorem meets_write
    {f : τ → τ}
    {next : Unit → ObserverM τ β}
    (hNext : Meets faulty kept (next ()) (f s) last) :
    Meets faulty kept (Activity.change f >>= next) s last :=
  ⟨upholds_write hNext.upholds, fun log => hNext.faults log⟩

theorem meets_report
    {e : Event}
    {next : Unit → ObserverM τ β}
    (hNext : Meets faulty kept (next ()) s last) :
    Meets faulty kept (Activity.emit e >>= next) s last :=
  ⟨upholds_report hNext.upholds,
    fun log => hNext.faults (log.add e)⟩

theorem meets_computed
    {x : Except Fault α}
    {next : α → ObserverM τ β}
    (hFault : ∀ f, x = .error f → faulty)
    (hNext :
      ∀ a, x = .ok a → Meets faulty kept (next a) s last) :
    Meets faulty kept ((monadLift x : ObserverM τ α) >>= next) s
      last := by
  cases x with
  | error f => exact upholds_fault.meets (hFault f rfl)
  | ok a => exact hNext a rfl

/- Work goes on with a sum that is a word. -/
theorem meets_sum
    {a b : Nat}
    {next : Nat → ObserverM τ β}
    (hFits : a + b < Word.limit)
    (hNext : Meets faulty kept (next (a + b)) s last) :
    Meets faulty kept (do next (← Word.add a b)) s last := by
  apply meets_computed
  · intro f hAdd
    have hFar := Word.limit_le_of_add hAdd
    omega
  · intro c hAdd
    rw [(Word.eq_of_add hAdd).1]
    exact hNext

/- Work goes on with a product that is a word. -/
theorem meets_product
    {a b : Nat}
    {next : Nat → ObserverM τ β}
    (hFits : a * b < Word.limit)
    (hNext : Meets faulty kept (next (a * b)) s last) :
    Meets faulty kept (do next (← Word.mul a b)) s last := by
  apply meets_computed
  · intro f hMul
    have hFar := Word.limit_le_of_mul hMul
    omega
  · intro c hMul
    rw [Word.eq_of_mul hMul]
    exact hNext

/- Work on a part of the state. -/
theorem meets_within
    {part : τ → ι}
    {replace : τ → ι → τ}
    {work : ObserverM ι α}
    (hWork :
      Meets faulty (fun g => kept (replace s g)) work (part s)
        fun a g => post a (replace s g)) :
    Meets faulty kept (Activity.within part replace work) s
      post :=
  ⟨upholds_within hWork.upholds, fun log => hWork.faults log⟩

end ObserverM

end BeltHeap
