import BeltHeap.Proofs.Yielding

/-
  What work on a heap leaves behind, wherever it ends: work that
  is answered leaves a heap with one property, and work that
  breaks off leaves one with another property.

  Main declarations:
    * `HeapM.Turns`, `HeapM.turns_bind`
    * `HeapM.turns_of_yields`, `HeapM.turns_of_fault`
    * `HeapM.Keeps`, `HeapM.keeps_bind`
    * `HeapM.keeps_forM`
-/

------------------------------------------------------------
-- Both Ways to End
------------------------------------------------------------

namespace BeltHeap

namespace HeapM

variable {α β : Type}
variable {P Q R E : Heap → Prop}
variable {h g : Heap}

/-
  Work that starts on a heap with a property `P` leaves one with
  `Q` where it is answered, and one with `E` where it breaks off.
-/
def Turns
    (P : Heap → Prop)
    (work : HeapM α)
    (Q E : Heap → Prop) : Prop :=
  ∀ s : Logged HeapRun,
    P s.state.heap →
      (∀ a, (work s).1 = .ok a → Q (work s).2.state.heap) ∧
        ∀ f, (work s).1 = .error f → E (work s).2.state.heap

theorem turns_of_each
    {work : HeapM α}
    (hEach : ∀ h, P h → Turns (· = h) work Q E) :
    Turns P work Q E :=
  fun s hStart => hEach s.state.heap hStart s rfl

/- Work with a known result leaves the heap that it yields. -/
theorem turns_of_yields
    {work : HeapM α}
    {a : α}
    (hYields : Yields work h (.ok a) g)
    (hAfter : Q g) :
    Turns (· = h) work Q E := by
  intro s hStart
  rcases hYields s hStart with ⟨t, hRun, hHeap, -⟩
  rw [hRun]
  refine ⟨fun b _ => ?_, nofun⟩
  rw [hHeap]
  exact hAfter

theorem turns_of_fault
    {work : HeapM α}
    {f : Fault}
    (hYields : Yields work h (.error f) g)
    (hAfter : E g) :
    Turns (· = h) work Q E := by
  intro s hStart
  rcases hYields s hStart with ⟨t, hRun, hHeap, -⟩
  rw [hRun]
  refine ⟨nofun, fun e _ => ?_⟩
  rw [hHeap]
  exact hAfter

theorem turns_bind
    {work : HeapM α}
    {next : α → HeapM β}
    (hWork : Turns P work Q E)
    (hNext : ∀ a, Turns Q (next a) R E) :
    Turns P (work >>= next) R E := by
  intro s hStart
  rcases hWork s hStart with ⟨hOk, hError⟩
  rw [Activity.run_bind]
  cases hCase : (work s).1 with
  | ok a => exact hNext a _ (hOk a hCase)
  | error f =>
      exact ⟨nofun, fun _ _ => hError f hCase⟩

------------------------------------------------------------
-- Kept Properties
------------------------------------------------------------

variable {mid post : α → Prop}
variable {last : β → Prop}

/-
  Work keeps a property of the heap, whether it is answered or
  breaks off, and its values satisfy a condition.
-/
def Keeps
    (P : Heap → Prop)
    (work : HeapM α)
    (post : α → Prop) : Prop :=
  ∀ s : Logged HeapRun,
    P s.state.heap →
      P (work s).2.state.heap ∧
        ∀ a, (work s).1 = .ok a → post a

/- Work that leaves the heap alone keeps everything. -/
theorem keeps_of_same
    {work : HeapM α}
    (hSame :
      ∀ s : Logged HeapRun,
        (work s).2.state.heap = s.state.heap)
    (hPost : ∀ s a, P s.state.heap →
      (work s).1 = .ok a → post a) :
    Keeps P work post := by
  intro s hStart
  rw [hSame s]
  exact ⟨hStart, fun a => hPost s a hStart⟩

theorem keeps_pure
    {a : α}
    (hPost : post a) :
    Keeps P (pure a) post := by
  refine keeps_of_same (fun _ => rfl) ?_
  rintro s _ - ⟨⟩
  exact hPost

/- Returning any value. -/
theorem keeps_done
    (a : α) :
    Keeps P (pure a) fun _ => True :=
  keeps_pure trivial

/- Breaking off. -/
theorem keeps_throw
    (f : Fault) :
    Keeps P (throw f : HeapM α) post :=
  keeps_of_same (fun _ => rfl) nofun

/- A computed result or fault. -/
theorem keeps_lift
    {work : Except Fault α}
    (hPost : ∀ a, work = .ok a → post a) :
    Keeps P (liftM work : HeapM α) post := by
  cases work with
  | ok a => exact keeps_pure (hPost a rfl)
  | error f => exact keeps_throw f

/- A value read off the heap. -/
theorem keeps_reading
    {f : Heap → α}
    (hPost : ∀ h, P h → post (f h)) :
    Keeps P (reading f) post := by
  refine keeps_of_same (fun _ => rfl) ?_
  rintro s _ hStart ⟨⟩
  exact hPost _ hStart

/- A report. -/
theorem keeps_emit
    (e : Event) :
    Keeps P (Activity.emit e : HeapM Unit) fun _ => True :=
  keeps_of_same (fun _ => rfl) fun _ _ _ _ => trivial

/- Asking what the log keeps. -/
theorem keeps_noteScan :
    Keeps P noteScan fun _ => True :=
  keeps_of_same (fun _ => rfl) fun _ _ _ _ => trivial

theorem keeps_update
    {f : Heap → Heap}
    (hWrite : ∀ h, P h → P (f h)) :
    Keeps P (update f) fun _ => True := by
  rintro ⟨⟨heap, scans, trail⟩, log⟩ hStart
  cases trail <;> exact ⟨hWrite heap hStart, fun _ _ => trivial⟩

theorem keeps_bind
    {work : HeapM α}
    {next : α → HeapM β}
    (hWork : Keeps P work mid)
    (hNext : ∀ a, mid a → Keeps P (next a) last) :
    Keeps P (work >>= next) last := by
  intro s hStart
  rcases hWork s hStart with ⟨hMid, hPost⟩
  rw [Activity.run_bind]
  cases hCase : (work s).1 with
  | ok a => exact hNext a (hPost a hCase) _ hMid
  | error f => exact ⟨hMid, nofun⟩

theorem keeps_read
    {f : Heap → α}
    {next : α → HeapM β}
    (hNext : ∀ h, P h → Keeps P (next (f h)) last) :
    Keeps P (reading f >>= next) last := by
  have hRead :
      Keeps P (reading f) fun a => Keeps P (next a) last :=
    keeps_reading hNext
  exact keeps_bind hRead fun _ hNext => hNext

theorem keeps_write
    {f : Heap → Heap}
    {next : Unit → HeapM β}
    (hWrite : ∀ h, P h → P (f h))
    (hNext : Keeps P (next ()) last) :
    Keeps P (update f >>= next) last :=
  keeps_bind (keeps_update hWrite) fun _ _ => hNext

theorem keeps_report
    {e : Event}
    {next : Unit → HeapM β}
    (hNext : Keeps P (next ()) last) :
    Keeps P (Activity.emit e >>= next) last :=
  keeps_bind (keeps_emit e) fun _ _ => hNext

theorem keeps_computed
    {work : Except Fault α}
    {next : α → HeapM β}
    (hNext : ∀ a, work = .ok a → Keeps P (next a) last) :
    Keeps P (liftM work >>= next) last :=
  keeps_bind (keeps_lift fun _ hRun => hRun) hNext

/- Work on each member of a list. -/
theorem keeps_forM
    {work : α → HeapM Unit}
    {xs : List α}
    (hWork : ∀ x ∈ xs, Keeps P (work x) fun _ => True) :
    Keeps P (xs.forM work) fun _ => True := by
  induction xs with
  | nil => exact keeps_done _
  | cons x xs ih =>
      exact
        keeps_bind (hWork x List.mem_cons_self) fun _ _ =>
          ih fun y hy => hWork y (List.mem_cons_of_mem _ hy)

end HeapM

end BeltHeap
