import BeltHeap.Heap.Publishing

/-
  What work on a heap comes to: its result and the heap it
  leaves, for every log, every list of scans and every trail,
  and that it reports no dirty card without an object.

  Main declarations:
    * `Log.AddsNoGap`
    * `HeapM.Yields`
    * `HeapM.Yields.unique`
    * `HeapM.yields_bind`
    * `HeapM.yields_forM`
    * `HeapM.Quiet`, `HeapM.Quiet.yields`
    * `HeapM.Ensures`
    * `HeapM.ensures_bind`
    * `HeapM.Ends`
-/

------------------------------------------------------------
-- Reports of Missing Objects
------------------------------------------------------------

namespace BeltHeap

/- Does an event tell of a dirty card without an object? -/
def Event.isGap : Event → Bool
| .cardWithoutObject .. => true
| _ => false

namespace Log

variable {log mid after : Log}

/- No dirty card without an object was reported in between. -/
def AddsNoGap (log after : Log) : Prop :=
  ∀ e ∈ after.events, e.isGap = true → e ∈ log.events

theorem AddsNoGap.refl : AddsNoGap log log :=
  fun _ he _ => he

theorem AddsNoGap.trans
    (hFirst : AddsNoGap log mid)
    (hSecond : AddsNoGap mid after) :
    AddsNoGap log after :=
  fun e he hGap => hFirst e (hSecond e he hGap) hGap

/- Reporting any other event reports no gap. -/
theorem addsNoGap_add
    {e : Event}
    (hOther : e.isGap = false) :
    AddsNoGap log (log.add e) := by
  unfold Log.add
  split
  · intro d hd hGap
    rcases Array.mem_push.mp hd with hOld | rfl
    · exact hOld
    · rw [hOther] at hGap
      cases hGap
  · exact AddsNoGap.refl

end Log

------------------------------------------------------------
-- Results of Work
------------------------------------------------------------

namespace HeapM

variable {α β : Type}
variable {h mid after : Heap}

/-
  Started on a heap, the work ends with a result and leaves
  another heap.  Neither depends on what has been logged, and no
  dirty card without an object is met.
-/
def Yields
    (work : HeapM α)
    (h : Heap)
    (result : Except Fault α)
    (after : Heap) : Prop :=
  ∀ s : Logged HeapRun,
    s.state.heap = h →
      ∃ t, work s = (result, t) ∧ t.state.heap = after ∧
        s.log.AddsNoGap t.log

theorem Yields.unique
    {work : HeapM α}
    {result other : Except Fault α}
    {s t : Logged HeapRun}
    (hYields : Yields work s.state.heap result after)
    (hRun : work s = (other, t)) :
    other = result ∧ t.state.heap = after ∧
      s.log.AddsNoGap t.log := by
  rcases hYields s rfl with ⟨u, hWork, hHeap⟩
  rw [hRun] at hWork
  cases hWork
  exact ⟨rfl, hHeap⟩

theorem yields_pure
    (a : α) :
    Yields (pure a) h (.ok a) h :=
  fun s hs => ⟨s, rfl, hs, .refl⟩

theorem yields_bind
    {work : HeapM α}
    {next : α → HeapM β}
    {a : α}
    {result : Except Fault β}
    (hWork : Yields work h (.ok a) mid)
    (hNext : Yields (next a) mid result after) :
    Yields (work >>= next) h result after := by
  intro s hs
  rcases hWork s hs with ⟨t, hRun, ht, hFirst⟩
  rcases hNext t ht with ⟨u, hRest, hu, hSecond⟩
  refine ⟨u, ?_, hu, hFirst.trans hSecond⟩
  rw [Activity.run_bind, hRun]
  exact hRest

/- A fault breaks off everything that was to follow. -/
theorem yields_bind_error
    {work : HeapM α}
    {next : α → HeapM β}
    {f : Fault}
    (hWork : Yields work h (.error f) after) :
    Yields (work >>= next) h (.error f) after := by
  intro s hs
  rcases hWork s hs with ⟨t, hRun, ht⟩
  refine ⟨t, ?_, ht⟩
  rw [Activity.run_bind, hRun]

------------------------------------------------------------
-- Single Steps
------------------------------------------------------------

/- A value read off the heap. -/
theorem yields_reading
    (f : Heap → α) :
    Yields (reading f) h (.ok (f h)) h := by
  intro s hs
  refine ⟨s, ?_, hs, .refl⟩
  rw [← hs]
  rfl

theorem yields_update
    (f : Heap → Heap) :
    Yields (update f) h (.ok ()) (f h) := by
  rintro ⟨⟨heap, scans, trail⟩, log⟩ rfl
  cases trail <;> exact ⟨_, rfl, rfl, .refl⟩

/- A report leaves the heap alone. -/
theorem yields_emit
    {e : Event}
    (hOther : e.isGap = false) :
    Yields (Activity.emit e) h (.ok ()) h :=
  fun _ hs => ⟨_, rfl, hs, Log.addsNoGap_add hOther⟩

theorem yields_noteScan :
    Yields noteScan h (.ok ()) h :=
  fun _ hs => ⟨_, rfl, hs, .refl⟩

/- A computed result becomes the result of the work. -/
theorem yields_lift
    {work : Except Fault α}
    {a : α}
    (hWork : work = .ok a) :
    Yields (liftM work) h (.ok a) h := by
  subst hWork
  exact fun s hs => ⟨s, rfl, hs, .refl⟩

theorem yields_lift_error
    {work : Except Fault α}
    {f : Fault}
    (hWork : work = .error f) :
    Yields (liftM work) h (.error f) h := by
  subst hWork
  exact fun s hs => ⟨s, rfl, hs, .refl⟩

/-
  What is only done for some levels of the log comes to the same
  as what is done for the others, or else depends on the log.
-/
theorem yields_keeps
    {next : Bool → HeapM β}
    {level : Level}
    {result : Except Fault β}
    (hNext : ∀ kept, Yields (next kept) h result after) :
    Yields (Activity.keeps level >>= next) h result after := by
  intro s hs
  exact hNext (s.log.keeps level) s hs

------------------------------------------------------------
-- Common Sequences
------------------------------------------------------------

theorem yields_read
    {f : Heap → α}
    {next : α → HeapM β}
    {result : Except Fault β}
    (hNext : Yields (next (f h)) h result after) :
    Yields (reading f >>= next) h result after :=
  yields_bind (yields_reading f) hNext

/- What comes after a value was read comes to the same. -/
theorem yields_of_read
    {f : Heap → α}
    {next : α → HeapM β}
    {result : Except Fault β}
    (hYields : Yields (reading f >>= next) h result after) :
    Yields (next (f h)) h result after := by
  rintro s rfl
  exact hYields s rfl

theorem yields_write
    {f : Heap → Heap}
    {next : Unit → HeapM β}
    {result : Except Fault β}
    (hNext : Yields (next ()) (f h) result after) :
    Yields (update f >>= next) h result after :=
  yields_bind (yields_update f) hNext

theorem yields_report
    {e : Event}
    {next : Unit → HeapM β}
    {result : Except Fault β}
    (hOther : e.isGap = false)
    (hNext : Yields (next ()) h result after) :
    Yields (Activity.emit e >>= next) h result after :=
  yields_bind (yields_emit hOther) hNext

theorem yields_computed
    {work : Except Fault α}
    {next : α → HeapM β}
    {a : α}
    {result : Except Fault β}
    (hWork : work = .ok a)
    (hNext : Yields (next a) h result after) :
    Yields (liftM work >>= next) h result after :=
  yields_bind (yields_lift hWork) hNext

/-
  Work on each member of a list.  An invariant of the heaps in
  between may be used for every single member.
-/
theorem yields_forM
    {work : α → HeapM Unit}
    {step : Heap → α → Heap}
    (Holds : Heap → List α → Prop)
    (hStep :
      ∀ (g : Heap) (x : α) (xs : List α),
        Holds g (x :: xs) →
          Yields (work x) g (.ok ()) (step g x) ∧
            Holds (step g x) xs)
    (xs : List α)
    (hHolds : Holds h xs) :
    Yields (xs.forM work) h (.ok ()) (xs.foldl step h) := by
  induction xs generalizing h with
  | nil => exact yields_pure ()
  | cons x xs ih =>
      rcases hStep h x xs hHolds with ⟨hWork, hRest⟩
      exact yields_bind hWork (ih hRest)

------------------------------------------------------------
-- Work that Reports Nothing
------------------------------------------------------------

/-
  Started on a heap, the work comes to an answer and leaves
  another heap.  It reports nothing, and does not ask for roots.
-/
def Quiet
    (work : HeapM α)
    (h : Heap)
    (a : α)
    (after : Heap) : Prop :=
  ∀ s : Logged HeapRun,
    s.state.heap = h →
      ∃ t, work s = (.ok a, t) ∧ t.state.heap = after ∧
        t.state.scans = s.state.scans ∧ t.log = s.log

/- Where nothing is reported, no gap is. -/
theorem Quiet.yields
    {work : HeapM α}
    {a : α}
    (hQuiet : Quiet work h a after) :
    Yields work h (.ok a) after := by
  intro s hs
  rcases hQuiet s hs with ⟨t, hRun, hHeap, -, hLog⟩
  refine ⟨t, hRun, hHeap, ?_⟩
  rw [hLog]
  exact .refl

theorem quiet_pure
    (a : α) :
    Quiet (pure a) h a h :=
  fun s hs => ⟨s, rfl, hs, rfl, rfl⟩

/- A value read off the heap. -/
theorem quiet_reading
    (f : Heap → α) :
    Quiet (reading f) h (f h) h := by
  rintro s rfl
  exact ⟨s, rfl, rfl, rfl, rfl⟩

theorem quiet_update
    (f : Heap → Heap) :
    Quiet (update f) h () (f h) := by
  rintro ⟨⟨heap, scans, trail⟩, log⟩ rfl
  cases trail <;> exact ⟨_, rfl, rfl, rfl, rfl⟩

theorem quiet_bind
    {work : HeapM α}
    {next : α → HeapM β}
    {a : α}
    {b : β}
    (hWork : Quiet work h a mid)
    (hNext : Quiet (next a) mid b after) :
    Quiet (work >>= next) h b after := by
  intro s hs
  rcases hWork s hs with ⟨t, hRun, ht, hScans, hLog⟩
  rcases hNext t ht with ⟨u, hRest, hu, hScans', hLog'⟩
  refine
    ⟨u, ?_, hu, hScans'.trans hScans, hLog'.trans hLog⟩
  rw [Activity.run_bind, hRun]
  exact hRest

theorem quiet_read
    {f : Heap → α}
    {next : α → HeapM β}
    {b : β}
    (hNext : Quiet (next (f h)) h b after) :
    Quiet (reading f >>= next) h b after :=
  quiet_bind (quiet_reading f) hNext

theorem quiet_computed
    {work : Except Fault α}
    {next : α → HeapM β}
    {a : α}
    {b : β}
    (hWork : work = .ok a)
    (hNext : Quiet (next a) h b after) :
    Quiet (liftM work >>= next) h b after := by
  subst hWork
  exact hNext

/- Work on each member of a list. -/
theorem quiet_forM
    {work : α → HeapM Unit}
    {step : Heap → α → Heap}
    (hStep : ∀ g x, Quiet (work x) g () (step g x))
    (xs : List α) :
    Quiet (xs.forM work) h () (xs.foldl step h) := by
  induction xs generalizing h with
  | nil => exact quiet_pure ()
  | cons x xs ih => exact quiet_bind (hStep h x) ih

------------------------------------------------------------
-- Work that May Break Off
------------------------------------------------------------

/-
  Where the work started on a heap does not break off, its
  answer and the heap it leaves satisfy a condition, and no
  dirty card without an object is met.
-/
def Ensures
    (work : HeapM α)
    (h : Heap)
    (post : α → Heap → Prop) : Prop :=
  ∀ (s t : Logged HeapRun) (a : α),
    s.state.heap = h →
      work s = (.ok a, t) →
        post a t.state.heap ∧ s.log.AddsNoGap t.log

variable {post : α → Heap → Prop}

theorem ensures_of_yields
    {work : HeapM α}
    {a : α}
    (hYields : Yields work h (.ok a) after)
    (hPost : post a after) :
    Ensures work h post := by
  rintro s t b rfl hRun
  rcases hYields.unique hRun with ⟨hAnswer, hHeap, hLog⟩
  cases hAnswer
  rw [hHeap]
  exact ⟨hPost, hLog⟩

theorem ensures_of_error
    {work : HeapM α}
    {f : Fault}
    (hYields : Yields work h (.error f) after) :
    Ensures work h post := by
  rintro s t b rfl hRun
  cases (hYields.unique hRun).1

theorem Ensures.imp
    {work : HeapM α}
    {other : α → Heap → Prop}
    (hEnsures : Ensures work h post)
    (hImp : ∀ a g, post a g → other a g) :
    Ensures work h other :=
  fun s t a hs hRun =>
    (hEnsures s t a hs hRun).imp_left (hImp a _)

theorem ensures_bind
    {work : HeapM α}
    {next : α → HeapM β}
    {last : β → Heap → Prop}
    (hWork : Ensures work h post)
    (hNext : ∀ a g, post a g → Ensures (next a) g last) :
    Ensures (work >>= next) h last := by
  intro s t b hs hRun
  cases hCase : work s with
  | mk r v =>
      rw [Activity.run_bind, hCase] at hRun
      cases r with
      | error f => cases hRun
      | ok a =>
          rcases hWork s v a hs hCase with ⟨hMid, hFirst⟩
          rcases hNext a v.state.heap hMid v t b rfl hRun with
            ⟨hLast, hSecond⟩
          exact ⟨hLast, hFirst.trans hSecond⟩

theorem ensures_read
    {f : Heap → α}
    {next : α → HeapM β}
    {last : β → Heap → Prop}
    (hNext : Ensures (next (f h)) h last) :
    Ensures (reading f >>= next) h last := by
  have hRead :
      Ensures (reading f) h fun a g => a = f h ∧ g = h :=
    ensures_of_yields (yields_reading f) ⟨rfl, rfl⟩
  refine ensures_bind hRead ?_
  rintro a g ⟨rfl, rfl⟩
  exact hNext

------------------------------------------------------------
-- Work that Breaks Off for a Reason
------------------------------------------------------------

/-
  Started on a heap, the work comes to an answer and a heap that
  satisfy a condition, or breaks off with a fault for which there
  is a reason.
-/
def Ends
    (reason : Fault → Prop)
    (work : HeapM α)
    (h : Heap)
    (post : α → Heap → Prop) : Prop :=
  (∃ a g, Yields work h (.ok a) g ∧ post a g) ∨
    (∃ f g, reason f ∧ Yields work h (.error f) g)

variable {reason : Fault → Prop}

/- Work satisfies its condition where it does not break off. -/
theorem Ends.ensures
    {work : HeapM α}
    (hEnds : Ends reason work h post) :
    Ensures work h post := by
  rcases hEnds with ⟨a, g, hYields, hPost⟩ | ⟨f, g, -, hYields⟩
  · exact ensures_of_yields hYields hPost
  · exact ensures_of_error hYields

/- Work that has no reason to break off comes to something. -/
theorem Ends.returns
    {work : HeapM α}
    (hEnds : Ends reason work h post)
    (hNo : ∀ f, ¬ reason f) :
    ∃ a g, Yields work h (.ok a) g ∧ post a g :=
  hEnds.resolve_right fun ⟨f, _, hReason, _⟩ => hNo f hReason

theorem ends_of_yields
    {work : HeapM α}
    {a : α}
    (hYields : Yields work h (.ok a) after)
    (hPost : post a after) :
    Ends reason work h post :=
  Or.inl ⟨a, after, hYields, hPost⟩

/- Work that breaks off ends so, where there is a reason. -/
theorem ends_of_error
    {work : HeapM α}
    {f : Fault}
    (hReason : reason f)
    (hYields : Yields work h (.error f) after) :
    Ends reason work h post :=
  Or.inr ⟨f, after, hReason, hYields⟩

theorem ends_bind
    {work : HeapM α}
    {next : α → HeapM β}
    {last : β → Heap → Prop}
    (hWork : Ends reason work h post)
    (hNext : ∀ a g, post a g → Ends reason (next a) g last) :
    Ends reason (work >>= next) h last := by
  rcases hWork with
    ⟨a, g, hYields, hPost⟩ | ⟨f, g, hReason, hYields⟩
  · rcases hNext a g hPost with
      ⟨b, k, hRest, hLast⟩ | ⟨f, k, hReason, hRest⟩
    · exact Or.inl ⟨b, k, yields_bind hYields hRest, hLast⟩
    · exact
        Or.inr ⟨f, k, hReason, yields_bind hYields hRest⟩
  · exact Or.inr ⟨f, g, hReason, yields_bind_error hYields⟩

theorem ends_read
    {f : Heap → α}
    {next : α → HeapM β}
    {last : β → Heap → Prop}
    (hNext : Ends reason (next (f h)) h last) :
    Ends reason (reading f >>= next) h last := by
  have hRead :
      Ends reason (reading f) h fun a g => a = f h ∧ g = h :=
    ends_of_yields (yields_reading f) ⟨rfl, rfl⟩
  refine ends_bind hRead ?_
  rintro a g ⟨rfl, rfl⟩
  exact hNext

end HeapM

end BeltHeap
