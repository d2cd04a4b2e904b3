import BeltHeap.Mutator
import BeltHeap.Proofs.Blocks
import BeltHeap.Proofs.Listing

/-
  What is published of the regions of a heap after any
  operations: its belts, and after them the regions that the
  runtime registered last.

  Main declarations:
    * `Mutator.Operation.registered`
    * `Mutator.stays_answer`, `Mutator.turns_perform`
    * `Heap.Registered`, `Heap.Registered.lists`
    * `Heap.Registered.regions_published`
-/

------------------------------------------------------------
-- Operations of Mutators
------------------------------------------------------------

namespace BeltHeap

namespace Mutator

open HeapM
open Heap

variable {rt : Runtime}
variable {locals : Locals}
variable {regions : List MemoryRegion}
variable {next : HeapM Answer}

/- The regions registered last, after one more operation. -/
def Operation.registered
    (before : List MemoryRegion) : Operation → List MemoryRegion
| .register regions => regions
| _ => before

/- An operation whose regions, if any, end at addresses. -/
def Operation.EndsAtAddresses (op : Operation) : Prop :=
  ∀ regions, op = .register regions →
    ∀ r ∈ regions, r.start + r.size < Word.limit

/- What is done with an object. -/
theorem stays_withObject
    {r : Reference}
    {next : Nat → HeapM Answer}
    (hNext : ∀ object, Stays regions (next object)) :
    Stays regions (withObject locals r next) := by
  refine stays_read fun object? => ?_
  split
  · exact stays_pure _
  · exact hNext _

/- What is done under a condition. -/
theorem stays_whenever
    {condition : Heap → Bool}
    (hNext : Stays regions next) :
    Stays regions (whenever condition next) := by
  refine stays_read fun holds => ?_
  split
  · exact hNext
  · exact stays_pure _

/- Work that is followed by an answer. -/
theorem stays_told
    {α : Type}
    {work : HeapM α}
    {answer : α → Answer}
    (hWork : Stays regions work) :
    Stays regions
      (do
        let a ← work
        pure (answer a)) :=
  stays_bind hWork fun _ => stays_pure _

/-
  Every operation but a registration leaves the same regions
  registered.
-/
theorem stays_answer
    {op : Operation}
    (hOther : ∀ list, op ≠ .register list) :
    Stays regions (answer rt locals op) := by
  cases op with
  | alloc refs words name =>
      refine stays_bind (stays_lift _) fun bytes => ?_
      refine stays_bind (stays_alloc _) fun result => ?_
      split
      · exact stays_pure _
      · exact stays_read fun zeroed => stays_memory (stays_pure _)
  | allocBytes bytes =>
      refine stays_bind (stays_alloc _) fun result => ?_
      split
      · exact stays_pure _
      · exact stays_memory (stays_pure _)
  | allocMature bytes =>
      refine stays_bind
        (stays_of_charted fun _ _ => charted_allocateMature _)
        fun object? => ?_
      cases object? with
      | none => exact stays_pure _
      | some object => exact stays_memory (stays_pure _)
  | bumpMature bytes =>
      exact
        stays_told
          (stays_of_charted fun _ _ =>
            charted_allocateIn (by decide) _)
  | setField source field target =>
      refine stays_withObject fun object => ?_
      refine stays_withObject fun value => ?_
      refine stays_whenever ?_
      exact
        stays_bind
          (stays_of_charted fun _ _ => charted_writeReference _ _ _)
          fun _ => stays_told (stays_reading _)
  | putWord source word value =>
      refine stays_withObject fun object => ?_
      exact stays_whenever (stays_memory (stays_pure _))
  | view source =>
      refine stays_withObject fun object => ?_
      refine stays_read fun view? => ?_
      split <;> exact stays_pure _
  | addRoot source =>
      refine stays_withObject fun object => ?_
      exact
        stays_told (stays_of_charted fun _ _ => charted_addRoot _)
  | setRoot handle source =>
      refine stays_whenever ?_
      refine stays_withObject fun object => ?_
      exact
        stays_bind (stays_of_charted fun _ _ => charted_setRoot _ _)
          fun _ => stays_told (stays_reading _)
  | getRoot handle =>
      refine stays_whenever ?_
      exact
        stays_told (stays_of_charted fun _ _ => charted_getRoot _)
  | removeRoot handle =>
      refine stays_whenever ?_
      exact
        stays_bind
          (stays_of_charted fun _ _ => charted_removeRoot _)
          fun _ => stays_told (stays_reading _)
  | setRegister number source =>
      refine stays_whenever ?_
      refine stays_withObject fun object => ?_
      exact
        stays_bind
          (stays_of_charted fun _ _ =>
            keeps_update fun _ hOther => hOther.writeSlot _ _)
          fun _ => stays_pure _
  | collect bytes => exact stays_told (stays_collect _)
  | collectOnRequest =>
      refine stays_told ?_
      refine stays_bind (stays_collect _) fun success => ?_
      split
      · exact stays_reading _
      · exact stays_pure _
  | collectDirectly bytes =>
      exact stays_told (stays_collectGarbage _)
  | minor bytes => exact stays_told (stays_minorCollect _)
  | major bytes => exact stays_told (stays_majorCollect _)
  | expand bytes =>
      refine stays_bind (stays_expandMature _) fun result => ?_
      split <;> exact stays_pure _
  | dirtyCard card =>
      refine stays_read fun dirty => ?_
      refine stays_bind (stays_lift dirty) fun _ => ?_
      refine stays_bind
        (stays_of_charted fun _ _ =>
          keeps_update fun _ hOther => hOther.aside rfl rfl rfl)
        fun _ => ?_
      exact stays_told (stays_reading _)
  | cardOf offset =>
      refine stays_read fun card => ?_
      split <;> exact stays_pure _
  | peek offset count =>
      exact stays_whenever (stays_told (stays_reading _))
  | register list => exact absurd rfl (hOther list)
  | regions => exact stays_told (stays_reading _)
  | graph => exact stays_told (stays_reading _)

/- A registration is answered, and lists the new regions. -/
theorem yields_register_answer
    {h : Heap}
    {list : List MemoryRegion}
    (hLists : Lists regions h)
    (hEnds : ∀ r ∈ list, r.start + r.size < Word.limit)
    (rt : Runtime)
    (locals : Locals) :
    ∃ a g, Yields (perform rt locals (.register list)) h (.ok a) g ∧
      Lists list g := by
  rcases yields_registerRegions_of_lists hLists hEnds with
    ⟨g, hRegister, hAfter⟩
  have hAnswer :
      Yields (answer rt locals (.register list)) h
        (.ok (.regions g.info.regions)) g :=
    yields_bind hRegister (yields_read (yields_pure _))
  exact
    ⟨_, g,
      yields_read
        (yields_bind hAnswer (yields_read (yields_pure _))),
      hAfter⟩

/- Every operation leaves the last regions registered. -/
theorem turns_perform
    {op : Operation}
    (hEnds : op.EndsAtAddresses)
    (rt : Runtime)
    (locals : Locals) :
    Turns (Lists regions) (perform rt locals op)
      (Lists (op.registered regions)) (Broken regions) := by
  by_cases hRegister : ∃ list, op = .register list
  · rcases hRegister with ⟨list, rfl⟩
    refine turns_of_each fun h hLists => ?_
    rcases yields_register_answer hLists (hEnds list rfl) rt
      locals with ⟨a, g, hYields, hAfter⟩
    exact turns_of_yields hYields hAfter
  · have hOther : ∀ list, op ≠ .register list :=
      fun list hSame => hRegister ⟨list, hSame⟩
    have hSame : op.registered regions = regions := by
      cases op <;> first | rfl | exact absurd rfl (hOther _)
    rw [hSame]
    unfold perform
    refine stays_read fun before => ?_
    refine stays_bind (stays_answer hOther) fun a => ?_
    exact stays_read fun after => stays_pure _

end Mutator

------------------------------------------------------------
-- Runs of Operations
------------------------------------------------------------

namespace Heap

variable {h : Heap}
variable {regions : List MemoryRegion}

/- A heap that was laid out is framed. -/
theorem framed_of_layOut
    {placement : Placement}
    {registers : Nat}
    {config : HeapConfig}
    (hMakes : Makes (layOut placement registers config) h) :
    Framed [] h ∧ h.info.epochs = {} := by
  rcases parts_of_layOut hMakes with
    ⟨mapping, first, layout, _, _, _, hValid, -, hCarve, hLayout,
      -, -, -, rfl⟩
  rcases valid_config hValid with ⟨p, q, hTwo, -⟩
  rcases Layout.Arranged.of_carve hCarve with
    ⟨hArranged, -, hSize⟩
  rw [hTwo] at hSize
  have hRole : Role.mature < first.roles.size := by
    rw [hArranged.size_roles, hSize]
    exact Nat.lt_add_one 1
  rcases hArranged.belt_eq hRole with ⟨mature, hMem, -, hBelt⟩
  unfold setExpandable at hLayout
  rw [hBelt] at hLayout
  cases hLayout
  have hProper := (hArranged.mem hMem).1
  have hChanges :
      first.Changes
        (first.setBelt
          { mature with expandable := config.matureExpandable }) :=
    .replaced (hArranged.getElem?_index hMem) rfl rfl
      ⟨hProper.low, hProper.high, hProper.filled⟩
  exact
    ⟨⟨hArranged.changes hChanges, hChanges.same.2.trans hSize, rfl,
        nofun, Array.size_replicate⟩, rfl⟩

/- The regions of a new heap are listed. -/
theorem lists_of_create
    {placement : Placement}
    {registers : Nat}
    {config : HeapConfig}
    (hMakes : Makes (create placement registers config) h) :
    Lists [] h := by
  unfold create at hMakes
  rcases makes_bind hMakes with ⟨new, hLayOut, hMakes⟩
  rcases framed_of_layOut hLayOut with ⟨hFramed, hEpochs⟩
  rcases hFramed.yields_publishRegions with
    ⟨list, hList, hPublish⟩
  rcases hPublish { state := { heap := new } } rfl with
    ⟨after, hRun, hHeap, -⟩
  have hRun' :
      HeapM.publishRegions.run.run { state := { heap := new } } =
        (.ok (), after) :=
    hRun
  rw [hRun'] at hMakes
  cases makes_pure hMakes
  rw [hHeap]
  refine hFramed.lists hList ?_
  rw [hEpochs]

/-
  The heaps of a run of any operations, with the regions that
  the runtime registered last.  All of them end at addresses.
  A run goes on after an operation that was answered, and after
  one that broke off without leaving a collection under way.
-/
inductive Registered : List MemoryRegion → Heap → Prop where
| created
    {placement : Placement}
    {registers : Nat}
    {config : HeapConfig}
    {h : Heap}
    (hMakes : Makes (create placement registers config) h) :
    Registered [] h
| performed
    {regions : List MemoryRegion}
    {rt : Runtime}
    {locals : Locals}
    {op : Mutator.Operation}
    {s t : Logged HeapRun}
    {a : Mutator.Answer × Locals}
    (hRest : Registered regions s.state.heap)
    (hEnds : op.EndsAtAddresses)
    (hRun : Mutator.perform rt locals op s = (.ok a, t)) :
    Registered (op.registered regions) t.state.heap
| brokenOff
    {regions : List MemoryRegion}
    {rt : Runtime}
    {locals : Locals}
    {op : Mutator.Operation}
    {s t : Logged HeapRun}
    {f : Fault}
    (hRest : Registered regions s.state.heap)
    (hEnds : op.EndsAtAddresses)
    (hRun : Mutator.perform rt locals op s = (.error f, t))
    (hSettled : t.state.heap.info.epochs.isCollecting = false) :
    Registered regions t.state.heap

/- Registered heaps list their regions. -/
theorem Registered.lists
    (hRegistered : Registered regions h) :
    Lists regions h := by
  induction hRegistered with
  | created hMakes => exact lists_of_create hMakes
  | @performed _ rt locals op s t a _ hEnds hRun ih =>
      have hAfter :=
        (Mutator.turns_perform hEnds rt locals s ih).1 a
      rw [hRun] at hAfter
      exact hAfter rfl
  | @brokenOff _ rt locals op s t f _ hEnds hRun hSettled ih =>
      have hAfter :=
        (Mutator.turns_perform hEnds rt locals s ih).2 f
      rw [hRun] at hAfter
      rcases hAfter rfl with hCollecting | hLists
      · rw [hSettled] at hCollecting
        cases hCollecting
      · exact hLists

/- The regions that are listed are published in the records. -/
theorem Lists.records_eq
    (hLists : Lists regions h) :
    h.info.regionCount =
        min Limits.inspectableRegions h.info.regions.length ∧
      ∀ i < h.info.regionCount,
        ∃ r, h.info.regions[i]? = some r ∧
          h.info.records[i]? = some (r.start, r.size) := by
  have hCount :
      h.info.regionCount =
        min Limits.inspectableRegions h.info.regions.length := by
    conv_lhs => rw [← hLists.again]
    exact List.length_take
  refine ⟨hCount, ?_⟩
  intro i hLt
  rw [hCount] at hLt
  have hListed : i < h.info.regions.length := by omega
  have hRegion :
      h.info.regions[i]? = some (h.info.regions.get ⟨i, hListed⟩) :=
    List.getElem?_eq_getElem hListed
  refine ⟨_, hRegion, ?_⟩
  conv_lhs => rw [← hLists.again]
  change
    (HeapInfo.recorded 0 (HeapInfo.shown h.info.regions)
      h.info.records)[i]? = _
  have hShown :
      (HeapInfo.shown h.info.regions)[i]? = h.info.regions[i]? :=
    List.getElem?_take_of_lt (by omega)
  have hLength :
      (HeapInfo.shown h.info.regions).length =
        min Limits.inspectableRegions h.info.regions.length :=
    List.length_take
  rw [HeapInfo.getElem?_recorded, hLists.records, hLength,
    if_pos (by omega), Nat.sub_zero, hShown, hRegion]
  rfl

/-
  After any operations of a run, the regions of the heap are the
  belts in address order, each described by the role that it
  plays, and behind them the regions that were registered last.
  Observers see the first of them, as many as there are records.
  The next regions that end at addresses are registered as well.
-/
theorem Registered.regions_published
    (hRegistered : Registered regions h) :
    (h.layout.belts.toList.Pairwise fun b c => b.stop ≤ c.start) ∧
      (∃ belts,
        h.info.regions = belts ++ regions ∧
          List.Forall₂ h.Describes h.layout.belts.toList belts) ∧
      h.info.regionCount =
        min Limits.inspectableRegions h.info.regions.length ∧
      (∀ i < h.info.regionCount,
        ∃ r, h.info.regions[i]? = some r ∧
          h.info.records[i]? = some (r.start, r.size)) ∧
      ∀ (rt : Runtime) (locals : Locals) (s : Logged HeapRun) list,
        s.state.heap = h →
          (∀ r ∈ list, r.start + r.size < Word.limit) →
            ∃ a t,
              Mutator.perform rt locals (.register list) s =
                (.ok a, t) := by
  have hLists := hRegistered.lists
  rcases hLists.records_eq with ⟨hCount, hRecords⟩
  refine
    ⟨hLists.arranged.row.pairwise, ?_, hCount, hRecords, ?_⟩
  · rcases hLists.beltRegions_eq with ⟨belts, hBelts, hAll, -⟩
    refine ⟨belts, ?_, hAll⟩
    have hListed := hLists.listed
    unfold allRegions at hListed
    rw [hBelts, hLists.runtime] at hListed
    exact (Except.ok.inj hListed).symm
  · intro rt locals s list hStart hEnds
    rcases Mutator.yields_register_answer hLists hEnds rt locals
      with ⟨a, g, hYields, -⟩
    rcases hYields s hStart with ⟨t, hRun, -⟩
    exact ⟨a, t, hRun⟩

/-
  Behind the two belts of a small heap, seventeen regions are
  registered.  Observers see the first sixteen of them all.
-/
theorem Registered.regions_published_small :
    ∃ list h,
      list.length = 17 ∧ Registered list h ∧
        h.info.regions.length = 19 ∧ h.info.regionCount = 16 ∧
        ∃ r, h.info.regions[15]? = some r ∧
          h.info.records[15]? = some (r.start, r.size) := by
  let list : List MemoryRegion :=
    List.replicate 17 ⟨"runtime", 131072, 64⟩
  have hEnds : ∀ r ∈ list, r.start + r.size < Word.limit := by
    intro r hr
    rw [List.eq_of_mem_replicate hr]
    decide
  have hNew : Registered [] Program.smallHeap :=
    .created Program.makes_small
  rcases hNew.regions_published with ⟨-, -, -, -, hAnswered⟩
  rcases hAnswered {} [] ⟨{ heap := Program.smallHeap }, {}⟩ list
    rfl hEnds with ⟨a, t, hRun⟩
  have hOperation :
      Mutator.Operation.EndsAtAddresses (.register list) := by
    rintro _ ⟨⟩
    exact hEnds
  have hAfter : Registered list t.state.heap :=
    .performed hNew hOperation hRun
  rcases hAfter.regions_published with
    ⟨-, ⟨belts, hAll, hBelts⟩, hCount, hRecords, -⟩
  have hLength : t.state.heap.info.regions.length = 19 := by
    rw [hAll, List.length_append, ← hBelts.length_eq,
      Array.length_toList, hAfter.lists.pair]
    rfl
  rw [hLength] at hCount
  exact
    ⟨list, _, rfl, hAfter, hLength, hCount,
      hRecords 15 (hCount ▸ by decide)⟩

end Heap

end BeltHeap
