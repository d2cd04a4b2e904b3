import BeltHeap.Heap.Mutating
import BeltHeap.Proofs.Forwarding
import BeltHeap.Proofs.Records

/-
  Two pieces of work that come to the same on heaps that differ
  in nothing but how the bytes of their memories are kept.

  Main declarations:
    * `Memory.Same`
    * `Heap.Alike`
    * `Heap.Alike.forwardedAll`
    * `HeapM.InStep`
    * `HeapM.Agree`, `HeapM.agree_bind`, `HeapM.agree_after`
    * `HeapM.agree_of_quiet`
    * `HeapM.Uniform`, `HeapM.uniform_bind`
-/

------------------------------------------------------------
-- The Same Bytes
------------------------------------------------------------

namespace BeltHeap

namespace Memory

/- Two memories have the same bytes. -/
def Same (m n : Memory) : Prop :=
  ∀ a, n.byte a = m.byte a

namespace Same

variable {m n : Memory}

/- The same bytes are read. -/
theorem read
    (hSame : Same m n)
    (a count : Nat) :
    n.read a count = m.read a count :=
  List.map_congr_left fun b _ => hSame b

/- The same words are loaded. -/
theorem load
    (hSame : Same m n)
    (a : Nat) :
    n.load a = m.load a := by
  unfold Memory.load
  rw [hSame.read]

/- Writing the same bytes. -/
theorem write
    (hSame : Same m n)
    (a : Nat)
    (bs : List UInt8) :
    Same (m.write a bs) (n.write a bs) := by
  intro b
  rw [byte_write, byte_write, hSame]

/- Storing the same word. -/
theorem store
    (hSame : Same m n)
    (a value : Nat) :
    Same (m.store a value) (n.store a value) :=
  hSame.write a _

/- Zeroing the same bytes. -/
theorem zero
    (hSame : Same m n)
    (a count : Nat) :
    Same (m.zero a count) (n.zero a count) := by
  intro b
  rw [byte_zero, byte_zero, hSame]

/- Clearing the same range, be it large or not. -/
theorem clear
    (hSame : Same m n)
    (a count : Nat) :
    Same (m.clear a count) (n.clear a count) := by
  unfold Memory.clear clearWith discardPages
  dsimp only
  split
  · exact hSame.zero a count
  · exact ((hSame.zero _ _).zero _ _).zero _ _

/- Copying the same object. -/
theorem copyObject
    (hSame : Same m n)
    (move : Collection.Move) :
    Same (m.copyObject move) (n.copyObject move) := by
  unfold Memory.copyObject
  split
  · exact hSame
  · intro b
    rw [byte_copy, byte_copy, hSame, hSame]

/- Changing the same bytes step by step. -/
theorem foldl
    {α : Type}
    {step : Memory → α → Memory}
    (hStep :
      ∀ {m n} x, Same m n → Same (step m x) (step n x))
    (hSame : Same m n)
    (xs : List α) :
    Same (xs.foldl step m) (xs.foldl step n) := by
  induction xs generalizing m n with
  | nil => exact hSame
  | cons x xs ih => exact ih (hStep x hSame)

/- Writing the same header. -/
theorem format
    (hSame : Same m n)
    (object size refs : Nat) :
    Same (Object.format object size refs m)
      (Object.format object size refs n) :=
  foldl (fun i hSame => hSame.store (Object.field object i) 0)
    ((hSame.store _ _).store _ _) _

/- Objects have the same fields. -/
theorem fields
    (hSame : Same m n)
    (object : Nat) :
    Object.fields n object = Object.fields m object := by
  unfold Object.fields Object.refCount
  rw [hSame.load]

/- Proper objects are proper objects. -/
theorem proper
    (hSame : Same m n)
    {object : Nat}
    (hProper : Object.Proper m object) :
    Object.Proper n object :=
  hProper.congr (hSame.load _) (hSame.load _)

end Same

/- A stored byte depends on the byte that was there, if at all. -/
theorem byte_store_congr
    {m n : Memory}
    {c : Nat}
    (hByte : n.byte c = m.byte c)
    (a value : Nat) :
    (n.store a value).byte c = (m.store a value).byte c := by
  unfold store
  rw [byte_write, byte_write, hByte]

theorem store_comm
    (m : Memory)
    {a b : Nat}
    (hApart : Object.WordsApart a b)
    (x y : Nat) :
    Same ((m.store a x).store b y) ((m.store b y).store a x) := by
  intro c
  unfold Object.WordsApart at hApart
  by_cases hOff : c < a ∨ a + Word.bytes ≤ c
  · rw [byte_store_apart _ x hOff]
    exact
      (byte_store_congr (byte_store_apart m x hOff) b y).symm
  · have hOff' : c < b ∨ b + Word.bytes ≤ c := by omega
    rw [byte_store_apart _ y hOff']
    exact byte_store_congr (byte_store_apart m y hOff') a x

end Memory

------------------------------------------------------------
-- Heaps That Are Alike
------------------------------------------------------------

namespace Heap

/- The heap with another memory. -/
def withMemory
    (m : Memory)
    (h : Heap) : Heap :=
  { h with memory := m }

/- Two heaps have the same bytes and are equal otherwise. -/
structure Alike (h k : Heap) : Prop where
  memory : h.memory.Same k.memory
  rest : k = h.withMemory k.memory

namespace Alike

variable {h k l : Heap}

theorem refl : Alike h h :=
  ⟨fun _ => rfl, rfl⟩

theorem symm (hAlike : Alike h k) : Alike k h := by
  refine ⟨fun a => (hAlike.memory a).symm, ?_⟩
  rw [hAlike.rest]
  rfl

theorem trans
    (h₁ : Alike h k)
    (h₂ : Alike k l) :
    Alike h l := by
  refine ⟨fun a => (h₂.memory a).trans (h₁.memory a), ?_⟩
  rw [h₂.rest, h₁.rest]
  rfl

/- What does not depend on the memory is the same. -/
theorem reads
    {β : Type}
    {f : Heap → β}
    (hBlind : ∀ h m, f (h.withMemory m) = f h)
    (hAlike : Alike h k) :
    f k = f h := by
  rw [hAlike.rest]
  exact hBlind h _

/- Changes of anything but the memory. -/
theorem change
    {f : Heap → Heap}
    (hBlind : ∀ h m, f (h.withMemory m) = (f h).withMemory m)
    (hAlike : Alike h k) :
    Alike (f h) (f k) := by
  have hSelf := congrArg Heap.memory (hBlind h h.memory)
  have hMemory : (f h).memory = h.memory := hSelf
  have hSame := hAlike.memory
  rw [hAlike.rest, hBlind]
  rw [← hMemory] at hSame
  exact ⟨hSame, rfl⟩

/- Changes of the memory. -/
theorem mapMemory
    {f : Memory → Memory}
    (hSame : ∀ m n, m.Same n → (f m).Same (f n))
    (hAlike : Alike h k) :
    Alike (h.mapMemory f) (k.mapMemory f) := by
  have hAfter := hSame _ _ hAlike.memory
  rw [hAlike.rest]
  exact ⟨hAfter, rfl⟩

/- Slots hold the same references. -/
theorem readSlot
    (hAlike : Alike h k)
    (s : Slot) :
    k.readSlot s = h.readSlot s := by
  cases s with
  | entry handle =>
      exact
        hAlike.reads (f := (Heap.readSlot · (.entry handle)))
          fun _ _ => rfl
  | register n =>
      exact
        hAlike.reads (f := (Heap.readSlot · (.register n)))
          fun _ _ => rfl
  | field a => exact hAlike.memory.load a

/- Storing the same reference. -/
theorem writeSlot
    (hAlike : Alike h k)
    (s : Slot)
    (object : Nat) :
    Alike (h.writeSlot s object) (k.writeSlot s object) := by
  cases s with
  | entry handle =>
      exact
        hAlike.change (f := Heap.writeSlot (.entry handle) object)
          fun _ _ => rfl
  | register n =>
      exact
        hAlike.change (f := Heap.writeSlot (.register n) object)
          fun _ _ => rfl
  | field a =>
      exact hAlike.mapMemory fun _ _ hSame => hSame.store a object

end Alike

------------------------------------------------------------
-- Forwarding in Any Order
------------------------------------------------------------

variable {h k : Heap}
variable {s t : Slot}
variable {moved : Std.HashMap Nat Nat}

theorem writeSlot_comm
    (hApart : Slot.Apart s t)
    (h : Heap)
    (x y : Nat) :
    Alike ((h.writeSlot s x).writeSlot t y)
      ((h.writeSlot t y).writeSlot s x) := by
  cases s with
  | entry i =>
      cases t with
      | entry j =>
          have hNe : i ≠ j := fun hEq => hApart (by rw [hEq])
          simp only [writeSlot, RootTable.write,
            Array.setIfInBounds_comm x y hNe]
          exact .refl
      | register n => exact .refl
      | field a => exact .refl
  | register n =>
      cases t with
      | entry j => exact .refl
      | register j =>
          have hNe : n ≠ j := fun hEq => hApart (by rw [hEq])
          simp only [writeSlot, Array.setIfInBounds_comm x y hNe]
          exact .refl
      | field a => exact .refl
  | field a =>
      cases t with
      | entry j => exact .refl
      | register n => exact .refl
      | field b =>
          have hWords : Object.WordsApart a b := hApart
          exact ⟨h.memory.store_comm hWords x y, rfl⟩

/- Forwarding the same slot. -/
theorem Alike.forwarded
    (hAlike : Alike h k)
    (s : Slot) :
    Alike (h.forwarded moved s) (k.forwarded moved s) := by
  unfold Heap.forwarded
  rw [hAlike.readSlot]
  cases moved[h.readSlot s]? with
  | none => exact hAlike
  | some object => exact hAlike.writeSlot s object

theorem forwarded_comm
    (hApart : Slot.Apart s t)
    (h : Heap) :
    Alike ((h.forwarded moved s).forwarded moved t)
      ((h.forwarded moved t).forwarded moved s) := by
  have hS :
      (h.forwarded moved s).readSlot t = h.readSlot t :=
    readSlot_forwarded_apart hApart
  have hT :
      (h.forwarded moved t).readSlot s = h.readSlot s :=
    readSlot_forwarded_apart hApart.symm
  unfold forwarded at hS hT ⊢
  rw [hS, hT]
  cases moved[h.readSlot s]? with
  | none => exact .refl
  | some x =>
      cases moved[h.readSlot t]? with
      | none => exact .refl
      | some y => exact writeSlot_comm hApart h x y

/- Forwarding the same slots in the same order. -/
theorem Alike.forwardedEach
    (hAlike : Alike h k)
    (slots : List Slot) :
    Alike (h.forwardedAll moved slots)
      (k.forwardedAll moved slots) := by
  unfold Heap.forwardedAll
  induction slots generalizing h k with
  | nil => exact hAlike
  | cons s slots ih => exact ih (hAlike.forwarded s)

/-
  Slots that are all apart from each other are forwarded in any
  order.
-/
theorem Alike.forwardedAll
    {slots others : List Slot}
    (hPerm : others.Perm slots)
    (hApart : slots.Pairwise Slot.Apart)
    (hAlike : Alike h k) :
    Alike (h.forwardedAll moved slots)
      (k.forwardedAll moved others) := by
  induction hPerm generalizing h k with
  | nil => exact hAlike
  | cons s _ ih =>
      exact
        ih (List.pairwise_cons.mp hApart).2 (hAlike.forwarded s)
  | swap s t rest =>
      rcases List.pairwise_cons.mp hApart with ⟨hFirst, -⟩
      have hSwapped :
          Alike ((h.forwarded moved s).forwarded moved t)
            ((h.forwarded moved t).forwarded moved s) :=
        forwarded_comm (hFirst t List.mem_cons_self) h
      have hBoth :=
        hSwapped.trans ((hAlike.forwarded t).forwarded s)
      exact hBoth.forwardedEach rest
  | trans hFirst hSecond ih₁ ih₂ =>
      have hMid :=
        (hSecond.pairwise_iff Slot.Apart.symm).mpr hApart
      exact (ih₂ hApart .refl).trans (ih₁ hMid hAlike)

end Heap

------------------------------------------------------------
-- Agreeing Work
------------------------------------------------------------

namespace HeapM

open Heap

variable {α β : Type}

/- Two heaps in use that are alike, with the same log. -/
structure InStep (s s' : Logged HeapRun) : Prop where
  heap : s.state.heap.Alike s'.state.heap
  scans : s'.state.scans = s.state.scans
  log : s'.log = s.log

theorem InStep.refl
    {s : Logged HeapRun} :
    InStep s s :=
  ⟨.refl, rfl, rfl⟩

/- Two heaps in use are in step if a third one is with both. -/
theorem InStep.join
    {s t u : Logged HeapRun}
    (h₁ : InStep s t)
    (h₂ : InStep s u) :
    InStep t u :=
  ⟨h₁.heap.symm.trans h₂.heap, h₂.scans.trans h₁.scans.symm,
    h₂.log.trans h₁.log.symm⟩

/- Both results are the same fault, or answers that are related. -/
inductive Agreed
    (R : α → α → Prop) :
    Except Fault α → Except Fault α → Prop where
| ok
    {a b : α}
    (hRelated : R a b) :
    Agreed R (.ok a) (.ok b)
| error
    (f : Fault) :
    Agreed R (.error f) (.error f)

/-
  Started on a heap and on one like it, two pieces of work come
  to related answers or break off with the same fault.  They
  leave heaps that are alike, and report the same events.
-/
def Agree
    (R : α → α → Prop)
    (work other : HeapM α)
    (h : Heap) : Prop :=
  ∀ s s', s.state.heap = h → InStep s s' →
    Agreed R (work s).1 (other s').1 ∧
      InStep (work s).2 (other s').2

/- Work that agrees with itself on heaps that are alike. -/
def Uniform (work : HeapM α) : Prop :=
  ∀ h, Agree Eq work work h

section

variable {R : α → α → Prop}
variable {S : β → β → Prop}
variable {h mid after : Heap}
variable {work other : HeapM α}
variable {next next' : α → HeapM β}

/-
  What the first piece of work answers is related to an answer
  of the second one.
-/
theorem Agree.returns
    (hAgree : Agree R work other h)
    {s s' t : Logged HeapRun}
    {a : α}
    (hStart : s.state.heap = h)
    (hStep : InStep s s')
    (hRun : work s = (.ok a, t)) :
    ∃ b t', other s' = (.ok b, t') ∧ R a b ∧ InStep t t' := by
  rcases hAgree s s' hStart hStep with ⟨hResults, hAfter⟩
  rw [hRun] at hResults hAfter
  generalize hOther : other s' = r at hResults hAfter
  rcases r with ⟨result, t'⟩
  cases hResults with
  | ok hRelated => exact ⟨_, t', rfl, hRelated, hAfter⟩

/-
  What the second piece of work answers is related to an answer
  of the first one.
-/
theorem Agree.returned
    (hAgree : Agree R work other h)
    {s s' t' : Logged HeapRun}
    {b : α}
    (hStart : s.state.heap = h)
    (hStep : InStep s s')
    (hRun : other s' = (.ok b, t')) :
    ∃ a t, work s = (.ok a, t) ∧ R a b ∧ InStep t t' := by
  rcases hAgree s s' hStart hStep with ⟨hResults, hAfter⟩
  rw [hRun] at hResults hAfter
  generalize hWork : work s = r at hResults hAfter
  rcases r with ⟨result, t⟩
  cases hResults with
  | ok hRelated => exact ⟨_, t, rfl, hRelated, hAfter⟩

/- Work that comes to something without a report agrees. -/
theorem agree_of_quiet
    {a : α}
    (hWork : Quiet work h a after)
    (hOther :
      ∀ k, h.Alike k →
        ∃ b g, Quiet other k b g ∧ R a b ∧ after.Alike g) :
    Agree R work other h := by
  intro s s' hStart hStep
  have hAlike := hStep.heap
  rw [hStart] at hAlike
  rcases hOther _ hAlike with
    ⟨b, g, hQuiet, hRelated, hAfter⟩
  rcases hWork s hStart with ⟨t, hRun, rfl, hScans, hLog⟩
  rcases hQuiet s' rfl with ⟨t', hRun', rfl, hScans', hLog'⟩
  rw [hRun, hRun']
  refine ⟨.ok hRelated, hAfter, ?_, ?_⟩
  · exact (hScans'.trans hStep.scans).trans hScans.symm
  · exact (hLog'.trans hStep.log).trans hLog.symm

theorem agree_bind
    (hWork : Agree R work other h)
    (hNext : ∀ a b g, R a b → Agree S (next a) (next' b) g) :
    Agree S (work >>= next) (other >>= next') h := by
  intro s s' hStart hStep
  rcases hWork s s' hStart hStep with ⟨hResults, hMid⟩
  rw [Activity.run_bind, Activity.run_bind]
  generalize (work s).1 = r, (other s').1 = r' at hResults
  cases hResults with
  | ok hRelated => exact hNext _ _ _ hRelated _ _ rfl hMid
  | error f => exact ⟨.error f, hMid⟩

/- Work in sequence, where it is known what the first part does. -/
theorem agree_after
    {a : α}
    (hYields : Yields work h (.ok a) mid)
    (hWork : Agree R work other h)
    (hNext : ∀ b, R a b → Agree S (next a) (next' b) mid) :
    Agree S (work >>= next) (other >>= next') h := by
  intro s s' hStart hStep
  rcases hYields s hStart with ⟨t, hRun, hMid, -⟩
  rcases hWork.returns hStart hStep hRun with
    ⟨b, t', hRun', hRelated, hAfter⟩
  rw [Activity.run_bind, Activity.run_bind, hRun, hRun']
  exact hNext b hRelated t t' hMid hAfter

end

------------------------------------------------------------
-- Uniform Work
------------------------------------------------------------

section

variable {h k : Heap}
variable {work : HeapM α}
variable {next : α → HeapM β}

theorem uniform_pure
    (a : α) :
    Uniform (pure a) :=
  fun _ _ _ _ hStep => ⟨.ok rfl, hStep⟩

/- Breaking off. -/
theorem uniform_throw
    (f : Fault) :
    Uniform (throw f : HeapM α) :=
  fun _ _ _ _ hStep => ⟨.error f, hStep⟩

/- A computed result or fault. -/
theorem uniform_lift
    (work : Except Fault α) :
    Uniform (liftM work : HeapM α) := by
  cases work with
  | ok a => exact uniform_pure a
  | error f => exact uniform_throw f

/- A value that does not depend on the memory. -/
theorem uniform_reading
    {f : Heap → α}
    (hBlind : ∀ h m, f (h.withMemory m) = f h) :
    Uniform (reading f) := by
  intro _ s s' _ hStep
  have hSame := hStep.heap.reads hBlind
  refine ⟨?_, hStep⟩
  change Agreed Eq (.ok (f s.state.heap)) (.ok (f s'.state.heap))
  rw [hSame]
  exact .ok rfl

/- A write that keeps heaps alike. -/
theorem uniform_update
    {f : Heap → Heap}
    (hWrite : ∀ h k, h.Alike k → (f h).Alike (f k)) :
    Uniform (update f) := by
  rintro _ ⟨⟨heap, scans, trail⟩, log⟩
    ⟨⟨heap', scans', trail'⟩, log'⟩ - ⟨hHeap, rfl, rfl⟩
  have hAfter := hWrite heap heap' hHeap
  cases trail <;> cases trail' <;>
    exact ⟨.ok rfl, hAfter, rfl, rfl⟩

/- A change of anything but the memory. -/
theorem uniform_change
    {f : Heap → Heap}
    (hBlind : ∀ h m, f (h.withMemory m) = (f h).withMemory m) :
    Uniform (update f) :=
  uniform_update fun _ _ hAlike => hAlike.change hBlind

/- A change of the memory. -/
theorem uniform_mapMemory
    {f : Memory → Memory}
    (hSame : ∀ m n, m.Same n → (f m).Same (f n)) :
    Uniform (update fun h => h.mapMemory f) :=
  uniform_update fun _ _ hAlike => hAlike.mapMemory hSame

/- A report. -/
theorem uniform_emit
    (e : Event) :
    Uniform (Activity.emit e : HeapM Unit) := by
  rintro _ s s' - ⟨hHeap, hScans, hLog⟩
  refine ⟨.ok rfl, hHeap, hScans, ?_⟩
  change s'.log.add e = s.log.add e
  rw [hLog]

/- Asking what the log keeps. -/
theorem uniform_keeps
    (level : Level) :
    Uniform (Activity.keeps level : HeapM Bool) := by
  rintro _ s s' - hStep
  refine ⟨?_, hStep⟩
  change
    Agreed Eq (.ok (s.log.keeps level)) (.ok (s'.log.keeps level))
  rw [hStep.log]
  exact .ok rfl

/- Noting that the roots are asked for. -/
theorem uniform_noteScan : Uniform noteScan := by
  rintro _ s s' - ⟨hHeap, hScans, hLog⟩
  refine ⟨.ok rfl, hHeap, ?_, hLog⟩
  have hInfo : s'.state.heap.info = s.state.heap.info :=
    hHeap.reads (f := Heap.info) fun _ _ => rfl
  change s'.state.scans.push _ = s.state.scans.push _
  rw [hScans, hInfo]

theorem uniform_bind
    (hWork : Uniform work)
    (hNext : ∀ a, Uniform (next a)) :
    Uniform (work >>= next) := by
  intro h
  refine agree_bind (hWork h) ?_
  rintro a _ g rfl
  exact hNext a g

theorem uniform_read
    {f : Heap → α}
    (hBlind : ∀ h m, f (h.withMemory m) = f h)
    (hNext : ∀ a, Uniform (next a)) :
    Uniform (reading f >>= next) :=
  uniform_bind (uniform_reading hBlind) hNext

theorem uniform_write
    {f : Heap → Heap}
    {next : Unit → HeapM β}
    (hBlind : ∀ h m, f (h.withMemory m) = (f h).withMemory m)
    (hNext : Uniform (next ())) :
    Uniform (update f >>= next) :=
  uniform_bind (uniform_change hBlind) fun _ => hNext

theorem uniform_report
    {e : Event}
    {next : Unit → HeapM β}
    (hNext : Uniform (next ())) :
    Uniform (Activity.emit e >>= next) :=
  uniform_bind (uniform_emit e) fun _ => hNext

theorem uniform_computed
    {work : Except Fault α}
    (hNext : ∀ a, Uniform (next a)) :
    Uniform (liftM work >>= next) :=
  uniform_bind (uniform_lift work) hNext

/- Work on each member of a list. -/
theorem uniform_forM
    {work : α → HeapM Unit}
    (hWork : ∀ x, Uniform (work x))
    (xs : List α) :
    Uniform (xs.forM work) := by
  induction xs with
  | nil => exact uniform_pure ()
  | cons x xs ih => exact uniform_bind (hWork x) fun _ => ih

end

------------------------------------------------------------
-- Agreeing in Part
------------------------------------------------------------

section

variable {S : β → β → Prop}
variable {h : Heap}
variable {work other : HeapM α}
variable {next next' : α → HeapM β}

theorem agree_pure
    {R : α → α → Prop}
    {a b : α}
    (hRelated : R a b) :
    Agree R (pure a) (pure b) h :=
  fun _ _ _ hStep => ⟨.ok hRelated, hStep⟩

/- Agreeing work goes on in the same way. -/
theorem agree_then
    (hWork : Agree Eq work other h)
    (hNext : ∀ a, Uniform (next a)) :
    Agree Eq (work >>= next) (other >>= next) h := by
  refine agree_bind hWork ?_
  rintro a _ g rfl
  exact hNext a g

theorem agree_known
    {a : α}
    {mid : Heap}
    (hYields : Yields work h (.ok a) mid)
    (hWork : Agree Eq work other h)
    (hNext : Agree S (next a) (next' a) mid) :
    Agree S (work >>= next) (other >>= next') h := by
  refine agree_after hYields hWork ?_
  rintro _ rfl
  exact hNext

theorem agree_ends
    {reason : Fault → Prop}
    {post : α → Heap → Prop}
    (hEnds : Ends reason work h post)
    (hWork : Agree Eq work other h)
    (hNext : ∀ a g, post a g → Agree S (next a) (next' a) g) :
    Agree S (work >>= next) (other >>= next') h := by
  rcases hEnds with
    ⟨a, g, hYields, hPost⟩ | ⟨f, g, -, hYields⟩
  · exact agree_known hYields hWork (hNext a g hPost)
  · intro s s' hStart hStep
    rcases hYields s hStart with ⟨t, hRun, -, -⟩
    rcases hWork s s' hStart hStep with ⟨hResults, hMid⟩
    rw [Activity.run_bind, Activity.run_bind]
    rw [hRun] at hResults hMid ⊢
    generalize (other s').1 = r at hResults
    cases hResults with
    | error => exact ⟨.error f, hMid⟩

theorem agree_read
    {f : Heap → α}
    (hBlind : ∀ h m, f (h.withMemory m) = f h)
    (hNext : Agree S (next (f h)) (next' (f h)) h) :
    Agree S (reading f >>= next) (reading f >>= next') h :=
  agree_known (yields_reading f) (uniform_reading hBlind h) hNext

theorem agree_write
    {f : Heap → Heap}
    {next next' : Unit → HeapM β}
    (hBlind : ∀ h m, f (h.withMemory m) = (f h).withMemory m)
    (hNext : Agree S (next ()) (next' ()) (f h)) :
    Agree S (update f >>= next) (update f >>= next') h :=
  agree_known (yields_update f) (uniform_change hBlind h) hNext

theorem agree_report
    {e : Event}
    {next next' : Unit → HeapM β}
    (hOther : e.isGap = false)
    (hNext : Agree S (next ()) (next' ()) h) :
    Agree S (Activity.emit e >>= next) (Activity.emit e >>= next')
      h :=
  agree_known (yields_emit hOther) (uniform_emit e h) hNext

theorem agree_computed
    {work : Except Fault α}
    {a : α}
    (hWork : work = .ok a)
    (hNext : Agree S (next a) (next' a) h) :
    Agree S (liftM work >>= next) (liftM work >>= next') h :=
  agree_known (yields_lift hWork) (uniform_lift work h) hNext

end

end HeapM

end BeltHeap
