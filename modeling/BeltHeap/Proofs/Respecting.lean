import Mathlib.Order.Defs.Unbundled
import BeltHeap.Proofs.Yielding

/-
  What holds of every state that work on a heap passes through.
  Work respects a relation if each of its writes does: then each
  state on the trail is related to all states that came before
  it, wherever the work started and even where it breaks off.

  Main declarations:
    * `HeapRun.Leads`
    * `HeapM.Respects`
    * `HeapM.respects_bind`, `HeapM.respects_update`
    * `HeapM.respects_forM`
    * `HeapM.Shows`
    * `HeapM.shows_bind`
-/

------------------------------------------------------------
-- Trails
------------------------------------------------------------

namespace BeltHeap

variable {R S : Heap → Heap → Prop}

/-
  One state of a heap in use leads to another.  The states in
  between, the last one first, are related in the order in which
  they were passed through.
-/
structure HeapRun.Leads
    (R : Heap → Heap → Prop)
    (r q : HeapRun) : Prop where
  last : R r.heap q.heap
  trail :
    ∀ before, r.trail = some before →
      ∃ during, q.trail = some (during ++ before) ∧
        (during ++ [r.heap]).Pairwise
          (fun later earlier => R earlier later) ∧
        ∀ k ∈ during, R k q.heap

namespace HeapRun.Leads

variable {p q r : HeapRun}

theorem trans
    [IsPreorder Heap R]
    (h₁ : Leads R p q)
    (h₂ : Leads R q r) :
    Leads R p r where
  last := trans_of R h₁.last h₂.last
  trail := by
    intro before hBefore
    rcases h₁.trail before hBefore with
      ⟨early, hMid, hFirst, hUpTo⟩
    rcases h₂.trail _ hMid with ⟨late, hEnd, hSecond, hLast⟩
    rw [List.pairwise_append] at hFirst hSecond
    refine ⟨late ++ early, ?_, ?_, ?_⟩
    · rw [hEnd, List.append_assoc]
    · rw [List.append_assoc, List.pairwise_append]
      refine
        ⟨hSecond.1, List.pairwise_append.mpr hFirst, ?_⟩
      -- All of the first stretch comes before its last state.
      intro k hk g hg
      have hFrom :=
        hSecond.2.2 k hk q.heap (List.mem_singleton_self _)
      rcases List.mem_append.mp hg with hEarly | hStart
      · exact trans_of R (hUpTo g hEarly) hFrom
      · rw [List.mem_singleton.mp hStart]
        exact trans_of R h₁.last hFrom
    · intro k hk
      rcases List.mem_append.mp hk with hLate | hEarly
      · exact hLast k hLate
      · exact trans_of R (hUpTo k hEarly) h₂.last

/- States that are closely related are loosely related. -/
theorem mono
    (hImp : ∀ h g, R h g → S h g)
    (hLeads : Leads R p q) :
    Leads S p q where
  last := hImp _ _ hLeads.last
  trail := by
    intro before hBefore
    rcases hLeads.trail before hBefore with
      ⟨during, hEnd, hOrder, hLast⟩
    exact
      ⟨during, hEnd, hOrder.imp fun h => hImp _ _ h,
        fun k hk => hImp _ _ (hLast k hk)⟩

/- Every state in between is related to the first one. -/
theorem from_start
    (hLeads : Leads R p q)
    {before : List Heap}
    (hBefore : p.trail = some before) :
    ∃ during, q.trail = some (during ++ before) ∧
      ∀ k ∈ during, R p.heap k := by
  rcases hLeads.trail before hBefore with
    ⟨during, hEnd, hOrder, -⟩
  exact
    ⟨during, hEnd, fun k hk =>
      (List.pairwise_append.mp hOrder).2.2 k hk p.heap
        (List.mem_singleton_self _)⟩

end HeapRun.Leads

------------------------------------------------------------
-- Work that Respects a Relation
------------------------------------------------------------

namespace HeapM

variable {α β : Type}

/- Wherever it starts, the work leads on by the relation. -/
def Respects
    (R : Heap → Heap → Prop)
    (work : HeapM α) : Prop :=
  ∀ s : Logged HeapRun, s.state.Leads R (work s).2.state

/- Work that respects a relation respects any looser one. -/
theorem Respects.mono
    {work : HeapM α}
    (hWork : Respects R work)
    (hImp : ∀ h g, R h g → S h g) :
    Respects S work :=
  fun s => (hWork s).mono hImp

section

variable [IsPreorder Heap R]

/- Work that does not touch the heap. -/
theorem respects_of_same
    {work : HeapM α}
    (hSame :
      ∀ s : Logged HeapRun,
        (work s).2.state.heap = s.state.heap ∧
          (work s).2.state.trail = s.state.trail) :
    Respects R work := by
  intro s
  rcases hSame s with ⟨hHeap, hTrail⟩
  constructor
  · rw [hHeap]
    exact refl_of R _
  · intro before hBefore
    exact
      ⟨[], hTrail.trans hBefore, List.pairwise_singleton _ _,
        nofun⟩

theorem respects_pure
    (a : α) :
    Respects R (pure a) :=
  respects_of_same fun _ => ⟨rfl, rfl⟩

/- Breaking off. -/
theorem respects_throw
    (f : Fault) :
    Respects R (throw f : HeapM α) :=
  respects_of_same fun _ => ⟨rfl, rfl⟩

/- A computed result or fault. -/
theorem respects_lift
    (work : Except Fault α) :
    Respects R (liftM work : HeapM α) := by
  cases work with
  | ok a => exact respects_pure a
  | error f => exact respects_throw f

/- A value read off the heap. -/
theorem respects_reading
    (f : Heap → α) :
    Respects R (reading f) :=
  respects_of_same fun _ => ⟨rfl, rfl⟩

/- A report. -/
theorem respects_emit
    (e : Event) :
    Respects R (Activity.emit e : HeapM Unit) :=
  respects_of_same fun _ => ⟨rfl, rfl⟩

/- Asking what the log keeps. -/
theorem respects_keeps
    (level : Level) :
    Respects R (Activity.keeps level : HeapM Bool) :=
  respects_of_same fun _ => ⟨rfl, rfl⟩

/- Noting that the roots are asked for. -/
theorem respects_noteScan : Respects R noteScan :=
  respects_of_same fun _ => ⟨rfl, rfl⟩

theorem respects_update
    {f : Heap → Heap}
    (hWrite : ∀ h, R h (f h)) :
    Respects R (update f) := by
  rintro ⟨⟨heap, scans, trail⟩, log⟩
  cases trail with
  | none =>
      exact ⟨hWrite heap, fun before hBefore => nomatch hBefore⟩
  | some before =>
      refine ⟨hWrite heap, ?_⟩
      rintro _ ⟨⟩
      refine ⟨[f heap], rfl, ?_, ?_⟩
      · exact List.pairwise_pair.mpr (hWrite heap)
      · intro k hk
        rw [List.mem_singleton.mp hk]
        exact refl_of R _

theorem respects_bind
    {work : HeapM α}
    {next : α → HeapM β}
    (hWork : Respects R work)
    (hNext : ∀ a, Respects R (next a)) :
    Respects R (work >>= next) := by
  intro s
  rw [Activity.run_bind]
  cases hCase : (work s).1 with
  | ok a => exact (hWork s).trans (hNext a _)
  | error f => exact hWork s

/- Work on each member of a list. -/
theorem respects_forM
    {work : α → HeapM Unit}
    {xs : List α}
    (hWork : ∀ x ∈ xs, Respects R (work x)) :
    Respects R (xs.forM work) := by
  induction xs with
  | nil => exact respects_pure ()
  | cons x xs ih =>
      exact
        respects_bind (hWork x List.mem_cons_self) fun _ =>
          ih fun y hy => hWork y (List.mem_cons_of_mem _ hy)

theorem respects_read
    {f : Heap → α}
    {next : α → HeapM β}
    (hNext : ∀ a, Respects R (next a)) :
    Respects R (reading f >>= next) :=
  respects_bind (respects_reading f) hNext

theorem respects_write
    {f : Heap → Heap}
    {next : Unit → HeapM β}
    (hWrite : ∀ h, R h (f h))
    (hNext : Respects R (next ())) :
    Respects R (update f >>= next) :=
  respects_bind (respects_update hWrite) fun _ => hNext

theorem respects_report
    {e : Event}
    {next : Unit → HeapM β}
    (hNext : Respects R (next ())) :
    Respects R (Activity.emit e >>= next) :=
  respects_bind (respects_emit e) fun _ => hNext

theorem respects_computed
    {work : Except Fault α}
    {next : α → HeapM β}
    (hNext : ∀ a, Respects R (next a)) :
    Respects R (liftM work >>= next) :=
  respects_bind (respects_lift work) hNext

end

------------------------------------------------------------
-- Work that Shows a Property
------------------------------------------------------------

variable {P : Heap → Prop}
variable {h mid : Heap}

/-
  All states that the work passes through once it started on a
  heap have a property.
-/
def Shows
    (work : HeapM α)
    (h : Heap)
    (P : Heap → Prop) : Prop :=
  ∀ (s : Logged HeapRun) (before : List Heap),
    s.state.heap = h → s.state.trail = some before →
      ∃ during,
        (work s).2.state.trail = some (during ++ before) ∧
          ∀ k ∈ during, P k

/- What is read before the rest shows nothing. -/
theorem shows_read
    {f : Heap → α}
    {next : α → HeapM β}
    (hNext : Shows (next (f h)) h P) :
    Shows (reading f >>= next) h P := by
  rintro s before rfl hBefore
  exact hNext s before rfl hBefore

theorem shows_update
    {f : Heap → Heap}
    (hWrite : P (f h)) :
    Shows (update f) h P := by
  rintro ⟨⟨heap, scans, trail⟩, log⟩ before rfl ⟨⟩
  refine ⟨[f heap], rfl, fun k hk => ?_⟩
  rw [List.mem_singleton.mp hk]
  exact hWrite

theorem shows_bind
    {work : HeapM α}
    {next : α → HeapM β}
    {a : α}
    (hYields : Yields work h (.ok a) mid)
    (hWork : Shows work h P)
    (hNext : Shows (next a) mid P) :
    Shows (work >>= next) h P := by
  intro s before hStart hBefore
  rcases hYields s hStart with ⟨t, hRun, hMid, -⟩
  rcases hWork s before hStart hBefore with
    ⟨early, hEarly, hFirst⟩
  rw [hRun] at hEarly
  rcases hNext t _ hMid hEarly with ⟨late, hLate, hSecond⟩
  refine ⟨late ++ early, ?_, ?_⟩
  · rw [Activity.run_bind, hRun, hLate, List.append_assoc]
  · intro k hk
    rcases List.mem_append.mp hk with hIn | hIn
    · exact hSecond k hIn
    · exact hFirst k hIn

/- Work that does not write shows nothing. -/
theorem shows_of_same
    {work : HeapM α}
    (hSame :
      ∀ s : Logged HeapRun,
        (work s).2.state.trail = s.state.trail) :
    Shows work h P :=
  fun s _ _ hBefore =>
    ⟨[], (hSame s).trans hBefore, nofun⟩

end HeapM

end BeltHeap
