import BeltHeap.Proofs.Running

/-
  What the actions of a program come to, one by one.  Whatever
  is to hold throughout a run is shown for these outcomes.

  Main declarations:
    * `Program.Performs`
    * `Program.ensures_performs`
    * `Program.Step.performs`
-/

------------------------------------------------------------
-- Outcomes of Actions
------------------------------------------------------------

namespace BeltHeap

namespace Program

open Heap

/-
  What an action on a sound heap comes to: its answer, and the
  heap that it leaves.
-/
inductive Performs
    (rt : Runtime)
    (h : Heap)
    (nursery mature : Belt)
    (old young : List Nat) :
    Action → Option Nat → Heap → Prop where
| refused
    {bytes refs : Nat}
    {e : AllocationError}
    {g : Heap}
    (hAllocation :
      Allocation rt h nursery mature old young
        (HeapM.roundedSize rt bytes) (.error e) g) :
    Performs rt h nursery mature old young (.alloc bytes refs)
      none g
| allocated
    {bytes refs a : Nat}
    {g : Heap}
    (hAllocation :
      Allocation rt h nursery mature old young
        (HeapM.roundedSize rt bytes) (.ok a) g) :
    Performs rt h nursery mature old young (.alloc bytes refs)
      (some a)
      (g.mapMemory
        (Object.format a (HeapM.roundedSize rt bytes) refs))
| stored
    {source field target : Nat}
    {cards : CardTable}
    (hSound :
      Sound rt
        { h with
          memory :=
            h.memory.store (Object.field source field) target
          cards }
        nursery mature old young) :
    Performs rt h nursery mature old young
      (.store source field target) none
      { h with
        memory :=
          h.memory.store (Object.field source field) target
        cards }
| put
    {object word value : Nat}
    (hSound :
      Sound rt
        (h.mapMemory fun m =>
          m.store (Object.payload m object word) value)
        nursery mature old young) :
    Performs rt h nursery mature old young
      (.putWord object word value) none
      (h.mapMemory fun m =>
        m.store (Object.payload m object word) value)
| rooted
    (object : Nat) :
    Performs rt h nursery mature old young (.addRoot object)
      none { h with roots := h.roots.joined object }
| rootSet
    (handle object : Nat) :
    Performs rt h nursery mature old young
      (.setRoot handle object) none
      (h.writeSlot (.entry handle) object)
| unrooted
    (handle : Nat) :
    Performs rt h nursery mature old young (.removeRoot handle)
      none
      { h with
        roots := (h.roots.write handle 0).release handle }
| registered
    (number object : Nat) :
    Performs rt h nursery mature old young
      (.setRegister number object) none
      (h.writeSlot (.register number) object)
| collected
    {action : Action}
    {bytes : Nat}
    {success : Bool}
    {g : Heap}
    {nursery' mature' : Belt}
    {old' young' : List Nat}
    (hAction :
      action = .collect bytes ∨
        action = .collectOnRequest ∧ bytes = 0)
    (hCollects :
      Collects rt bytes h nursery mature old young success g
        nursery' mature' old' young') :
    Performs rt h nursery mature old young action none g
| kept
    (bytes : Nat) :
    Performs rt h nursery mature old young (.expand bytes) none h
| expanded
    {bytes : Nat}
    {g : Heap}
    {nursery' mature' : Belt}
    (hUsable : g.outOfMemory = false)
    (hShape : Shape g nursery' mature')
    (hAgain : Republished h g nursery' mature') :
    Performs rt h nursery mature old young (.expand bytes) none g
| reported
    {regions : List MemoryRegion}
    {g : Heap}
    (hLatch : g.outOfMemory = h.outOfMemory)
    (hShape : Shape g nursery mature)
    (hAgain : Republished h g nursery mature) :
    Performs rt h nursery mature old young (.register regions)
      none g

variable {rt : Runtime}
variable {h : Heap}
variable {nursery mature : Belt}
variable {old young fresh : List Nat}

------------------------------------------------------------
-- Performing Actions
------------------------------------------------------------

/- An allocation is refused, or its block becomes an object. -/
theorem ensures_performs_alloc
    (hStandard : rt.Standard)
    (hSound : Sound rt h nursery mature old young)
    {bytes refs : Nat}
    (hSize : 0 < HeapM.roundedSize rt bytes) :
    HeapM.Ensures (allocObject rt bytes refs) h
      (Performs rt h nursery mature old young
        (.alloc bytes refs)) := by
  unfold allocObject
  refine HeapM.ensures_bind
    (HeapM.ends_allocation hStandard hSound hSize).ensures ?_
  intro result g hAllocation
  cases result with
  | error e =>
      exact
        HeapM.ensures_of_yields (HeapM.yields_pure none)
          (.refused hAllocation)
  | ok a =>
      exact
        HeapM.ensures_of_yields
          (HeapM.yields_write (HeapM.yields_pure (some a)))
          (.allocated hAllocation)

/- Every allowed action comes to one of the outcomes. -/
theorem ensures_performs
    (hStandard : rt.Standard)
    (hSound : Sound rt h nursery mature old young)
    (hFresh : ∀ o ∈ fresh, o ∈ old ++ young)
    {action : Action}
    (hAllowed : action.Allowed rt h fresh) :
    HeapM.Ensures (perform rt action) h
      (Performs rt h nursery mature old young action) := by
  have hMember :
      ∀ o, Known rt h fresh o → o = 0 ∨ o ∈ old ++ young :=
    fun o ho =>
      ho.mem hStandard hSound.roots hSound.fields hFresh
  have hCollect (bytes : Nat) :
      ∃ success g nursery' mature' old' young',
        HeapM.Yields (HeapM.collect rt bytes) h (.ok success) g ∧
          Collects rt bytes h nursery mature old young success g
            nursery' mature' old' young' := by
    rcases HeapM.yields_collects bytes hStandard hSound with
      ⟨success, g, nursery', mature', old', young', hRun,
        hCollects⟩
    exact
      ⟨success, g, nursery', mature', old', young',
        HeapM.yields_collect hRun, hCollects⟩
  cases action with
  | alloc bytes refs =>
      exact
        ensures_performs_alloc hStandard hSound
          (Object.pos_of_bytesFor_le hAllowed)
  | store source field target =>
      rcases hAllowed with ⟨hSource, hNull, hField, hTarget⟩
      rcases HeapM.yields_writeReference hStandard hSound
          ((hMember source hSource).resolve_left hNull) hField
          (hMember target hTarget) with
        ⟨cards, hWrite, hAfter⟩
      exact
        ensures_silent
          (HeapM.ensures_of_yields hWrite (.stored hAfter))
          fun _ hLast => hLast
  | putWord object word value =>
      rcases hAllowed with ⟨hObject, hNull, hWord⟩
      have hAfter :=
        hSound.putWord hStandard
          ((hMember object hObject).resolve_left hNull) hWord
          value
      exact
        ensures_silent
          (HeapM.ensures_of_yields (HeapM.yields_update _)
            (.put hAfter))
          fun _ hLast => hLast
  | addRoot object =>
      refine
        ensures_silent
          (HeapM.ensures_addRoot hSound
            (hMember object hAllowed)) ?_
      rintro g ⟨-, rfl⟩
      exact .rooted object
  | setRoot handle object =>
      refine
        ensures_silent
          (HeapM.ensures_setRoot hSound
            (hMember object hAllowed) handle) ?_
      rintro g ⟨-, rfl⟩
      exact .rootSet handle object
  | removeRoot handle =>
      refine
        ensures_silent
          (HeapM.ensures_removeRoot hSound handle) ?_
      rintro g ⟨-, rfl⟩
      exact .unrooted handle
  | setRegister number object =>
      exact
        ensures_silent
          (HeapM.ensures_of_yields (HeapM.yields_update _)
            (.registered number object))
          fun _ hLast => hLast
  | collect bytes =>
      rcases hCollect bytes with
        ⟨success, g, _, _, _, _, hRun, hCollects⟩
      exact
        ensures_silent
          (HeapM.ensures_of_yields hRun
            (.collected (Or.inl rfl) hCollects))
          fun _ hLast => hLast
  | collectOnRequest =>
      rcases hCollect 0 with
        ⟨success, g, _, _, _, _, hRun, hCollects⟩
      have hRequest :
          ∃ answer,
            HeapM.Yields (HeapM.collectOnRequest rt) h
              (.ok answer) g := by
        unfold HeapM.collectOnRequest
        cases success with
        | false =>
            exact
              ⟨_, HeapM.yields_bind hRun (HeapM.yields_pure _)⟩
        | true =>
            refine ⟨g.nursery.isEmpty,
              HeapM.yields_bind hRun ?_⟩
            rw [if_pos rfl]
            exact HeapM.yields_reading _
      rcases hRequest with ⟨answer, hRequest⟩
      exact
        ensures_silent
          (HeapM.ensures_of_yields hRequest
            (.collected (Or.inr ⟨rfl, rfl⟩) hCollects))
          fun _ hLast => hLast
  | expand bytes =>
      rcases HeapM.yields_expandMature hSound bytes with
        ⟨result, g, nursery', mature', hExpand, hAfter,
          hOutcome, -⟩
      refine
        ensures_silent (HeapM.ensures_of_yields hExpand ?_)
          fun _ hLast => hLast
      rcases hOutcome with ⟨-, rfl, -, -⟩ | ⟨-, hUsable, hAgain⟩
      · exact .kept bytes
      · exact .expanded hUsable hAfter.shape hAgain
  | register regions =>
      rcases HeapM.yields_registerRegions hSound hAllowed with
        ⟨g, hRegister, hAfter, hLatch, hAgain⟩
      exact
        ensures_silent
          (HeapM.ensures_of_yields hRegister
            (.reported hLatch hAfter.shape hAgain))
          fun _ hLast => hLast

variable {s t : State}
variable {action : Action}
variable {answer : Option Nat}

theorem Step.performs
    (hStandard : rt.Standard)
    (hInvariant : Invariant rt s)
    (hStep : Step rt s action answer t) :
    ∃ nursery mature old young,
      Sound rt s.heap nursery mature old young ∧
        Performs rt s.heap nursery mature old young action answer
          t.heap := by
  rcases hInvariant with
    ⟨nursery, mature, old, young, hSound, hFresh⟩
  cases hStep with
  | perform hAllowed hRun =>
      exact
        ⟨nursery, mature, old, young, hSound,
          (ensures_performs hStandard hSound hFresh hAllowed
            s.run _ answer rfl hRun).1⟩

end Program

end BeltHeap
