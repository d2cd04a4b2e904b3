import BeltHeap.Proofs.Blocks
import BeltHeap.Proofs.Reordering

/-
  Programs whose runtime changes the order in which it reports
  slots.  They reach what they reach with the standard order,
  and a collection there does not depend on the order either.

  Main declarations:
    * `Program.agree_perform`
    * `Program.Known.alike`, `Program.Action.Allowed.alike`
    * `Program.Shuffled`, `Program.Shuffled.reached`
    * `Program.collections_ignore_slot_order`
-/

------------------------------------------------------------
-- Allocating
------------------------------------------------------------

namespace BeltHeap

namespace HeapM

open Heap

variable {rt rt' : Runtime}
variable {h : Heap}
variable {nursery mature : Belt}
variable {old young : List Nat}

theorem roundedSize_congr
    (hReorders : rt.Reorders rt')
    (bytes : Nat) :
    roundedSize rt' bytes = roundedSize rt bytes := by
  unfold roundedSize
  rw [hReorders.alignment]

/- An allocation after a collection comes to the same. -/
theorem agree_allocCollecting
    (size : Nat)
    (hStandard : rt.Standard)
    (hReorders : rt.Reorders rt')
    (hSound : Sound rt h nursery mature old young) :
    Agree Eq (allocCollecting rt size) (allocCollecting rt' size)
      h := by
  refine agree_then
    (agree_collect size hStandard hReorders hSound)
    fun success => ?_
  split
  · refine uniform_bind (uniform_allocateIn _ size)
      fun result => ?_
    cases result with
    | none => exact uniform_allocPretenured size
    | some object => exact uniform_pure _
  · exact uniform_allocPretenured size

theorem agree_alloc
    (bytes : Nat)
    (hStandard : rt.Standard)
    (hReorders : rt.Reorders rt')
    (hSound : Sound rt h nursery mature old young) :
    Agree Eq (alloc rt bytes) (alloc rt' bytes) h := by
  have hSlowly (size : Nat) :
      Agree Eq (allocSlowly rt size) (allocSlowly rt' size) h := by
    refine agree_ends (ends_allocateNursery hSound size)
      (uniform_allocateIn _ size h) ?_
    rintro result g (⟨-, rfl, rfl⟩ | ⟨-, rfl, rfl⟩)
    · refine agree_read (fun _ _ => rfl) ?_
      split
      · exact uniform_pure _ _
      · exact
          agree_allocCollecting size hStandard hReorders hSound
    · exact uniform_pure _ _
  unfold alloc
  dsimp only
  rw [roundedSize_congr hReorders]
  refine agree_ends (ends_allocateNursery hSound _)
    (uniform_allocateIn _ _ h) ?_
  rintro result g (⟨-, rfl, rfl⟩ | ⟨-, rfl, rfl⟩)
  · exact hSlowly _
  · exact uniform_pure _ _

end HeapM

------------------------------------------------------------
-- Actions
------------------------------------------------------------

namespace Program

open Heap

variable {rt rt' : Runtime}
variable {h k : Heap}
variable {nursery mature : Belt}
variable {old young fresh : List Nat}

/- Allocating an object comes to the same. -/
theorem agree_allocObject
    (bytes refs : Nat)
    (hStandard : rt.Standard)
    (hReorders : rt.Reorders rt')
    (hSound : Sound rt h nursery mature old young) :
    HeapM.Agree Eq (allocObject rt bytes refs)
      (allocObject rt' bytes refs) h := by
  unfold allocObject
  rw [HeapM.roundedSize_congr hReorders]
  refine HeapM.agree_then
    (HeapM.agree_alloc bytes hStandard hReorders hSound)
    fun result => ?_
  cases result with
  | error e => exact HeapM.uniform_pure none
  | ok object =>
      refine HeapM.uniform_bind ?_ fun _ =>
        HeapM.uniform_pure (some object)
      exact
        HeapM.uniform_mapMemory fun _ _ hSame =>
          hSame.format object _ refs

theorem agree_perform
    (hStandard : rt.Standard)
    (hReorders : rt.Reorders rt')
    (hSound : Sound rt h nursery mature old young)
    (action : Action) :
    HeapM.Agree Eq (perform rt action) (perform rt' action)
      h := by
  have hCollect (bytes : Nat) :=
    HeapM.agree_collect bytes hStandard hReorders hSound
  have hSilent
      {α : Type}
      {work : HeapM α}
      (hWork : HeapM.Uniform work) :
      HeapM.Uniform
        (do
          let _ ← work
          pure (none : Option Nat)) :=
    HeapM.uniform_bind hWork fun _ => HeapM.uniform_pure none
  cases action with
  | alloc bytes refs =>
      exact agree_allocObject bytes refs hStandard hReorders hSound
  | store source field target =>
      exact hSilent (HeapM.uniform_writeReference _ _ _) h
  | putWord object word value =>
      refine hSilent (HeapM.uniform_mapMemory ?_) h
      intro m n hSame
      have hPayload :
          Object.payload n object word =
            Object.payload m object word := by
        unfold Object.payload Object.refCount
        rw [hSame.load]
      rw [hPayload]
      exact hSame.store _ value
  | addRoot object => exact hSilent (HeapM.uniform_addRoot _) h
  | setRoot handle object =>
      exact hSilent (HeapM.uniform_setRoot _ _) h
  | removeRoot handle =>
      exact hSilent (HeapM.uniform_removeRoot _) h
  | setRegister number object =>
      refine hSilent (HeapM.uniform_update ?_) h
      intro _ _ hAlike
      exact hAlike.writeSlot _ object
  | collect bytes =>
      exact
        HeapM.agree_then (hCollect bytes) fun _ =>
          HeapM.uniform_pure none
  | collectOnRequest =>
      refine HeapM.agree_then ?_ fun _ => HeapM.uniform_pure none
      refine HeapM.agree_then (hCollect 0) fun success => ?_
      split
      · exact HeapM.uniform_reading fun _ _ => rfl
      · exact HeapM.uniform_pure false
  | expand bytes =>
      exact hSilent (HeapM.uniform_expandMature _) h
  | register regions =>
      exact hSilent (HeapM.uniform_registerRegions _) h

------------------------------------------------------------
-- What a Program May Refer To
------------------------------------------------------------

/- A program may refer to the same objects. -/
theorem Known.alike
    (hStandard : rt.Standard)
    (hReorders : rt.Reorders rt')
    (hSound : Sound rt h nursery mature old young)
    (hFresh : ∀ o ∈ fresh, o ∈ old ++ young)
    (hAlike : h.Alike k)
    {object : Nat}
    (hKnown : Known rt' k fresh object) :
    Known rt h fresh object := by
  induction hKnown with
  | null => exact .null
  | fresh hIn => exact .fresh hIn
  | root hSlot =>
      rw [hAlike.rootSlots hReorders] at hSlot
      rw [hAlike.readSlot]
      exact .root hSlot
  | @field source a _ hNull hField ih =>
      have hMember :=
        (ih.mem hStandard hSound.roots hSound.fields
          hFresh).resolve_left hNull
      have hFields :=
        hReorders.listsFields hStandard k.memory source
          (hAlike.memory.proper (hSound.proper hMember))
      rw [hAlike.memory.fields, ← hStandard.fields] at hFields
      rw [hAlike.memory.load]
      exact .field ih hNull (hFields.mem_iff.mp hField)

/-
  What may be done to a heap may be done to one that is like it.
-/
theorem Action.Allowed.alike
    (hStandard : rt.Standard)
    (hReorders : rt.Reorders rt')
    (hSound : Sound rt h nursery mature old young)
    (hFresh : ∀ o ∈ fresh, o ∈ old ++ young)
    (hAlike : h.Alike k)
    {action : Action}
    (hAllowed : action.Allowed rt' k fresh) :
    action.Allowed rt h fresh := by
  have hKnown (o : Nat) (ho : Known rt' k fresh o) :
      Known rt h fresh o :=
    ho.alike hStandard hReorders hSound hFresh hAlike
  have hLoad : k.memory.load = h.memory.load :=
    funext hAlike.memory.load
  cases action with
  | alloc bytes refs =>
      change Object.bytesFor refs 0 ≤ HeapM.roundedSize _ bytes
        at hAllowed ⊢
      rw [← HeapM.roundedSize_congr hReorders]
      exact hAllowed
  | store source field target =>
      rcases hAllowed with ⟨hSource, hNull, hField, hTarget⟩
      unfold Object.refCount at hField
      rw [hLoad] at hField
      exact
        ⟨hKnown _ hSource, hNull, hField, hKnown _ hTarget⟩
  | putWord object word value =>
      rcases hAllowed with ⟨hObject, hNull, hWord⟩
      unfold Object.payloadWords Object.refCount Object.size
        at hWord
      rw [hLoad] at hWord
      exact ⟨hKnown _ hObject, hNull, hWord⟩
  | addRoot object => exact hKnown _ hAllowed
  | setRoot handle object => exact hKnown _ hAllowed
  | removeRoot handle => trivial
  | setRegister number object => exact hKnown _ hAllowed
  | collect bytes => trivial
  | collectOnRequest => trivial
  | expand bytes => trivial
  | register regions => exact hAllowed

------------------------------------------------------------
-- Runs
------------------------------------------------------------

/-
  The states of all runs of programs whose runtime reports slots
  in an order of its own, and in another one at every step.
-/
inductive Shuffled : Runtime → State → Prop where
| start
    {rt : Runtime}
    {s : State}
    (hStandard : rt.Standard)
    (hStarts : Starts s) :
    Shuffled rt s
| step
    {rt rt' : Runtime}
    {s t : State}
    {action : Action}
    {answer : Option Nat}
    (hShuffled : Shuffled rt s)
    (hReorders : rt.Reorders rt')
    (hStep : Step rt' s action answer t) :
    Shuffled rt t
| report
    {rt rt' next : Runtime}
    {s : State}
    (hShuffled : Shuffled rt s)
    (hReorders : rt.Reorders rt')
    (hReports : Reports rt' s next) :
    Shuffled next s

/- Two states are in step, with the same new objects. -/
structure State.InStep (s t : State) : Prop where
  run : HeapM.InStep s.run t.run
  fresh : t.fresh = s.fresh

variable {r s t : State}
variable {action : Action}
variable {answer : Option Nat}

/- A step in another order is a step in the standard one. -/
theorem Step.alike
    (hStandard : rt.Standard)
    (hReorders : rt.Reorders rt')
    (hInvariant : Invariant rt r)
    (hInStep : r.InStep s)
    (hStep : Step rt' s action answer t) :
    ∃ u, Step rt r action answer u ∧ u.InStep t := by
  rcases hInvariant with
    ⟨nursery, mature, old, young, hSound, hFresh⟩
  rcases hInStep with ⟨hRuns, hSame⟩
  cases hStep with
  | perform hAllowed hRun =>
      rw [hSame] at hAllowed
      have hAllowed' :=
        hAllowed.alike hStandard hReorders hSound hFresh
          hRuns.heap
      rcases (agree_perform hStandard hReorders hSound
          action).returned rfl hRuns hRun with
        ⟨_, u, hRun', rfl, hAfter⟩
      refine ⟨_, .perform hAllowed' hRun', hAfter, ?_⟩
      have hEpoch
          {h k : Heap}
          (hAlike : h.Alike k) :
          k.epoch = h.epoch :=
        hAlike.reads (f := Heap.epoch) fun _ _ => rfl
      unfold freshAfter State.heap
      dsimp only
      rw [hSame, hEpoch hAfter.heap, hEpoch hRuns.heap]

/- Reporting other slots is that in any order. -/
theorem Reports.alike
    {next : Runtime}
    (hStandard : rt.Standard)
    (hReorders : rt.Reorders rt')
    (hInvariant : Invariant rt r)
    (hInStep : r.InStep s)
    (hReports : Reports rt' s next) :
    Reports rt r next := by
  rcases hInvariant with
    ⟨nursery, mature, old, young, hSound, hFresh⟩
  rcases hInStep with ⟨hRuns, hSame⟩
  refine ⟨hReports.standard, fun slot hSlot => ?_⟩
  have hKnown := hReports.known slot
  unfold State.heap at hSlot hKnown ⊢
  rw [hRuns.heap.rootSlots .refl, hRuns.heap.readSlot, hSame]
    at hKnown
  exact
    (hKnown hSlot).alike hStandard hReorders hSound hFresh
      hRuns.heap

/-
  What a program reaches in any order, it reaches in the
  standard one.
-/
theorem Shuffled.reached
    (hShuffled : Shuffled rt s) :
    ∃ r, Reached rt r ∧ r.InStep s := by
  induction hShuffled with
  | @start rt s hStandard hStarts =>
      exact ⟨s, .start hStandard hStarts, .refl, rfl⟩
  | step _ hReorders hStep ih =>
      rcases ih with ⟨r, hReached, hInStep⟩
      rcases hStep.alike hReached.standard hReorders
          hReached.invariant hInStep with
        ⟨u, hStep', hAfter⟩
      exact ⟨u, .step hReached hStep', hAfter⟩
  | report _ hReorders hReports ih =>
      rcases ih with ⟨r, hReached, hInStep⟩
      exact
        ⟨r,
          .report hReached
            (hReports.alike hReached.standard hReorders
              hReached.invariant hInStep),
          hInStep⟩

/- The standard order is one of all orders. -/
theorem Reached.shuffled
    (hReached : Reached rt s) :
    Shuffled rt s := by
  induction hReached with
  | start hStandard hStarts => exact .start hStandard hStarts
  | step _ hStep ih => exact .step ih .refl hStep
  | report _ hReports ih => exact .report ih .refl hReports

------------------------------------------------------------
-- Collections of Programs
------------------------------------------------------------

/-
  Whatever a program did before, with whatever orders of slots,
  a collection gives the same answer for any two orders, and
  leaves the same bytes, and a heap that is equal otherwise.
-/
theorem collections_ignore_slot_order
    {rt₁ rt₂ : Runtime}
    (hShuffled : Shuffled rt s)
    (h₁ : rt.Reorders rt₁)
    (h₂ : rt.Reorders rt₂)
    (bytes : Nat) :
    ∃ success t₁ t₂,
      HeapM.collect rt₁ bytes s.run = (.ok success, t₁) ∧
        HeapM.collect rt₂ bytes s.run = (.ok success, t₂) ∧
        HeapM.InStep t₁ t₂ := by
  rcases hShuffled.reached with ⟨r, hReached, hInStep, -⟩
  have hStandard := hReached.standard
  rcases hReached.invariant with
    ⟨nursery, mature, old, young, hSound, -⟩
  rcases HeapM.yields_collects bytes hStandard hSound with
    ⟨success, g, _, _, _, _, hCollect, -⟩
  rcases HeapM.yields_collect hCollect r.run rfl with
    ⟨t, hRun, -⟩
  rcases (HeapM.agree_collect bytes hStandard h₁ hSound).returns
      rfl hInStep hRun with
    ⟨_, t₁, hRun₁, rfl, hAfter₁⟩
  rcases (HeapM.agree_collect bytes hStandard h₂ hSound).returns
      rfl hInStep hRun with
    ⟨_, t₂, hRun₂, rfl, hAfter₂⟩
  exact
    ⟨success, t₁, t₂, hRun₁, hRun₂, hAfter₁.join hAfter₂⟩

------------------------------------------------------------
-- A Small Run in Two Orders
------------------------------------------------------------

/- A runtime that reports slots of both kinds. -/
def smallRuntime : Runtime where
  reports := [.register 0, .entry 0]

/- A runtime that lists slots backwards and reports one twice. -/
def backwardRuntime : Runtime where
  reports := [.entry 0, .register 0, .entry 0]
  fields m object := (Object.fields m object).reverse

/- The small run goes on with an object of two fields. -/
def smallPair : State :=
  small.after backwardRuntime (.alloc 32 2)

/- A register comes to refer to it. -/
def smallKept : State :=
  smallPair.after smallRuntime (.setRegister 0 65560)

/- The first runtime keeps to the standard order. -/
theorem standard_small : smallRuntime.Standard := by
  constructor
  · rfl
  · dsimp only [smallRuntime]
  · intro a hReport
    rcases List.mem_pair.mp hReport with hEq | hEq
    · cases hEq
    · cases hEq

/- The second one reorders what it reports. -/
theorem reorders_backward :
    smallRuntime.Reorders backwardRuntime := by
  constructor
  · rfl
  · intro s
    unfold smallRuntime backwardRuntime
    simp only [List.mem_cons, List.not_mem_nil, or_false]
    tauto
  · intro m object _
    dsimp only [smallRuntime, backwardRuntime]
    exact List.reverse_perm _

/- Both reported slots hold what the program may refer to. -/
theorem reports_small : Reports {} small smallRuntime := by
  refine ⟨standard_small, fun slot hSlot => ?_⟩
  rcases mem_rootSlots.mp hSlot with hEntry | hReport
  · exact .root (mem_rootSlots.mpr (.inl hEntry))
  · rcases List.mem_pair.mp hReport with rfl | rfl
    · have hNull : small.heap.readSlot (.register 0) = 0 := by
        decide +kernel
      rw [hNull]
      exact .null
    · exact .root (by decide +kernel)

/- The object of two fields is allocated. -/
theorem step_smallPair :
    Step backwardRuntime small (.alloc 32 2) (some 65560)
      smallPair :=
  step_after
    (show Object.bytesFor 2 0 ≤
        HeapM.roundedSize backwardRuntime 32 by
      decide)
    (by decide +kernel)

/- The object of two fields is put into the register. -/
theorem step_smallKept :
    Step smallRuntime smallPair (.setRegister 0 65560) none
      smallKept := by
  refine step_after (Known.fresh ?_) ?_
  · decide +kernel
  · decide +kernel

/- The small run may change the order of slots on its way. -/
theorem shuffled_smallKept : Shuffled smallRuntime smallKept :=
  .step
    (.step (.report reached_small.shuffled .refl reports_small)
      reorders_backward step_smallPair)
    .refl step_smallKept

/-
  A collection at the end of the small run ignores the order of
  slots.
-/
theorem collections_ignore_slot_order_small :
    ∃ success t₁ t₂,
      HeapM.collect smallRuntime 0 smallKept.run =
          (.ok success, t₁) ∧
        HeapM.collect backwardRuntime 0 smallKept.run =
          (.ok success, t₂) ∧
        HeapM.InStep t₁ t₂ :=
  collections_ignore_slot_order shuffled_smallKept .refl
    reorders_backward 0

end Program

end BeltHeap
