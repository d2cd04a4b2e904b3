import BeltHeap.Proofs.Charting
import BeltHeap.Proofs.Publishing

/-
  Heaps whose regions are published as they are now: the belts
  in address order, each described by the role it plays, and
  after them the regions of the runtime.  They stay so, whatever
  is allocated or collected and however the belts grow.

  Main declarations:
    * `Heap.Describes`, `Heap.Framed`, `Heap.Lists`
    * `Heap.Framed.yields_publishRegions`
    * `HeapM.Stays`
    * `HeapM.stays_collect`, `HeapM.stays_alloc`
    * `HeapM.stays_expandMature`
    * `HeapM.yields_registerRegions_of_lists`
-/

------------------------------------------------------------
-- Regions of Belts
------------------------------------------------------------

namespace BeltHeap

/- The belts of a row are in address order. -/
theorem Belt.Row.pairwise
    {stop index start : Nat}
    {belts : List Belt}
    (hRow : Row stop index start belts) :
    belts.Pairwise fun b c => b.stop ≤ c.start := by
  induction hRow with
  | last _ _ => exact List.pairwise_singleton _ _
  | cons _ _ hRest ih =>
      exact
        List.pairwise_cons.mpr
          ⟨fun c hc => (hRest.mem hc).2.1, ih⟩

namespace Heap

variable {h g : Heap}
variable {regions : List MemoryRegion}
variable {b : Belt}

/- The region of a belt under the role that it plays. -/
def Describes
    (h : Heap)
    (b : Belt)
    (r : MemoryRegion) : Prop :=
  (b = h.nursery ∧ r = b.region Role.nursery) ∨
    (b = h.mature ∧ r = b.region Role.mature)

/-
  A heap with two belts in a row, with room for all records that
  observers look at, and with regions of the runtime that end
  at addresses.
-/
structure Framed
    (regions : List MemoryRegion)
    (h : Heap) : Prop where
  arranged : h.layout.Arranged
  pair : h.layout.belts.size = 2
  runtime : h.runtimeRegions = regions
  ends : ∀ r ∈ regions, r.start + r.size < Word.limit
  records : h.info.records.size = Limits.inspectableRegions

/-
  The regions of a heap are published as they are now, and no
  collection is under way.
-/
structure Lists
    (regions : List MemoryRegion)
    (h : Heap) : Prop extends Framed regions h where
  listed : h.allRegions = .ok h.info.regions
  again : h.info.published h.info.regions = h.info
  settled : h.info.epochs.root = h.info.epochs.collection

/- A collection of the heap is under way. -/
structure Open
    (regions : List MemoryRegion)
    (h : Heap) : Prop extends Framed regions h where
  collecting : h.info.epochs.isCollecting = true

/- The regions are published, and the collection is about to end. -/
structure Closing
    (regions : List MemoryRegion)
    (h : Heap) : Prop extends Framed regions h where
  listed : h.allRegions = .ok h.info.regions
  again : h.info.published h.info.regions = h.info

/-
  What work may leave that breaks off: nothing is lost unless it
  was a collection.
-/
def Broken
    (regions : List MemoryRegion)
    (h : Heap) : Prop :=
  h.info.epochs.isCollecting = true ∨ Lists regions h

/- Where the belts are, and what is published of them. -/
def chart (h : Heap) : Chart where
  places := h.layout.belts.toList.map Belt.place
  info := h.info
  regions := h.runtimeRegions

/- The region of a belt, by where the belt is. -/
def regionAt
    (roles : Array Nat)
    (place : Nat × Span) : Except Fault MemoryRegion :=
  match roles.idxOf? place.1 with
  | some r =>
      .ok ⟨Role.description r, place.2.start, place.2.length⟩
  | none => .error (.beltWithoutRole place.1)

/- Only roles and places of belts decide about their regions. -/
theorem allRegions_eq
    (h : Heap) :
    h.allRegions =
      (h.layout.belts.toList.map Belt.place).mapM
          (regionAt h.layout.roles) >>= fun belts =>
        pure (belts ++ h.runtimeRegions) := by
  have hEach (b : Belt) :
      h.beltRegion b = regionAt h.layout.roles b.place := by
    unfold beltRegion regionAt Layout.roleOf Belt.place
    dsimp only
    cases h.layout.roles.idxOf? b.index <;> rfl
  have hBelts :
      h.beltRegions =
        (h.layout.belts.toList.map Belt.place).mapM
          (regionAt h.layout.roles) := by
    unfold beltRegions
    rw [List.mapM_map]
    exact congrArg (List.mapM · _) (funext hEach)
  unfold allRegions
  rw [hBelts]

namespace Framed

variable (hFramed : Framed regions h)

include hFramed

/-
  Every belt of the heap is described by the role that it plays.
-/
theorem describes
    (hMem : b ∈ h.layout.belts) :
    ∃ r, h.beltRegion b = .ok r ∧ h.Describes b r ∧
      r.start + r.size < Word.limit := by
  have hArranged := hFramed.arranged
  rcases hArranged.roleOf_eq hMem with ⟨role, hRole, hBelt⟩
  rcases hArranged.mem hMem with ⟨hProper, -, hStop, -⟩
  have hLt : role < 2 := by
    rcases bind_eq_ok hBelt with ⟨index, hIndex, -⟩
    unfold Layout.indexOf at hIndex
    split at hIndex
    · rename_i hLt
      rw [hArranged.size_roles, hFramed.pair] at hLt
      exact hLt
    · cases hIndex
  have hFound := (hArranged.beltOf_eq (hFramed.pair ▸ hLt)).2
  rw [hBelt] at hFound
  refine ⟨b.region role, ?_, ?_, ?_⟩
  · unfold beltRegion
    rw [hRole]
    rfl
  · have hCases : role = Role.nursery ∨ role = Role.mature := by
      unfold Role.nursery Role.mature
      omega
    rcases hCases with rfl | rfl
    · exact Or.inl ⟨Except.ok.inj hFound, rfl⟩
    · exact Or.inr ⟨Except.ok.inj hFound, rfl⟩
  · have hFilled := hProper.filled
    have hBelow := hArranged.below
    unfold Belt.region Belt.size
    dsimp only
    omega

theorem beltRegions_eq :
    ∃ belts,
      h.beltRegions = .ok belts ∧
        List.Forall₂ h.Describes h.layout.belts.toList belts ∧
        ∀ r ∈ belts, r.start + r.size < Word.limit := by
  have hBelts :
      ∀ bs : List Belt, (∀ b ∈ bs, b ∈ h.layout.belts) →
        ∃ belts,
          bs.mapM h.beltRegion = .ok belts ∧
            List.Forall₂ h.Describes bs belts ∧
            ∀ r ∈ belts, r.start + r.size < Word.limit := by
    intro bs hIn
    induction bs with
    | nil => exact ⟨[], rfl, .nil, nofun⟩
    | cons b bs ih =>
        rcases hFramed.describes (hIn b List.mem_cons_self) with
          ⟨r, hRegion, hDescribes, hEnd⟩
        rcases ih fun c hc => hIn c (List.mem_cons_of_mem _ hc)
          with ⟨rest, hRest, hAll, hEnds⟩
        refine ⟨r :: rest, ?_, .cons hDescribes hAll, ?_⟩
        · rw [List.mapM_cons, hRegion, hRest]
          rfl
        · exact List.forall_mem_cons.mpr ⟨hEnd, hEnds⟩
  exact hBelts _ fun b hb => Array.mem_toList_iff.mp hb

/- A heap has regions, and all of them end at addresses. -/
theorem allRegions_ok :
    ∃ list, h.allRegions = .ok list ∧
      ∀ r ∈ list, r.start + r.size < Word.limit := by
  rcases hFramed.beltRegions_eq with ⟨belts, hBelts, -, hEnds⟩
  refine ⟨belts ++ h.runtimeRegions, ?_, ?_⟩
  · unfold allRegions
    rw [hBelts]
    rfl
  · rw [hFramed.runtime]
    exact List.forall_mem_append.mpr ⟨hEnds, hFramed.ends⟩

/- Belts that keep their places keep a heap framed. -/
theorem of_charted
    {R : Array Nat → Prop}
    (hCharted : Charted h.chart R g) :
    Framed regions g :=
  ⟨hCharted.arranged, hCharted.pair,
    hCharted.regions.trans hFramed.runtime, hFramed.ends,
    hCharted.info ▸ hFramed.records⟩

/- Any framed heap is charted. -/
theorem charted
    {R : Array Nat → Prop}
    (hRoles : R h.layout.roles) :
    Charted h.chart R h :=
  ⟨hFramed.arranged, hFramed.pair, rfl, hRoles, rfl, rfl⟩

/- Published regions are no part of the frame. -/
theorem published
    (list : List MemoryRegion) :
    Framed regions (h.mapInfo (HeapInfo.published list)) :=
  ⟨hFramed.arranged, hFramed.pair, hFramed.runtime, hFramed.ends,
    HeapInfo.size_recorded.trans hFramed.records⟩

theorem mapEpochs
    (f : Epochs → Epochs) :
    Framed regions (h.mapEpochs f) :=
  ⟨hFramed.arranged, hFramed.pair, hFramed.runtime, hFramed.ends,
    hFramed.records⟩

/- The belts are reported. -/
theorem yields_reportBelts :
    HeapM.Yields HeapM.reportBelts h (.ok ()) h := by
  have hEach :
      ∀ bs : List Belt, (∀ b ∈ bs, b ∈ h.layout.belts) →
        HeapM.Yields
          (bs.forM fun b => do
            let role ← h.layout.roleOf b
            b.report (Role.description role))
          h (.ok ()) h := by
    intro bs hIn
    induction bs with
    | nil => exact HeapM.yields_pure ()
    | cons b bs ih =>
        rcases hFramed.arranged.roleOf_eq
          (hIn b List.mem_cons_self) with ⟨role, hRole, -⟩
        exact
          HeapM.yields_bind
            (HeapM.yields_computed hRole (HeapM.yields_emit rfl))
            (ih fun c hc => hIn c (List.mem_cons_of_mem _ hc))
  exact
    HeapM.yields_read
      (hEach _ fun b hb => Array.mem_toList_iff.mp hb)

/- The regions of the heap as they are now are published. -/
theorem yields_publishRegions :
    ∃ list, h.allRegions = .ok list ∧
      HeapM.Yields HeapM.publishRegions h (.ok ())
        (h.mapInfo (HeapInfo.published list)) := by
  rcases hFramed.allRegions_ok with ⟨list, hList, hEnds⟩
  refine ⟨list, hList, ?_⟩
  unfold HeapM.publishRegions
  refine HeapM.yields_read (HeapM.yields_computed hList ?_)
  exact
    HeapM.yields_bind (HeapM.yields_register hEnds)
      (hFramed.published list).yields_reportBelts

end Framed

/-
  The regions of a framed heap are listed once they are
  published.
-/
theorem Framed.lists
    (hFramed : Framed regions h)
    {list : List MemoryRegion}
    (hList : h.allRegions = .ok list)
    (hSettled : h.info.epochs.root = h.info.epochs.collection) :
    Lists regions (h.mapInfo (HeapInfo.published list)) :=
  ⟨hFramed.published list, hList, HeapInfo.published_published,
    hSettled⟩

/- Belts that keep their places and roles stay listed. -/
theorem Lists.of_charted
    (hLists : Lists regions h)
    (hCharted : Charted h.chart (· = h.layout.roles) g) :
    Lists regions g := by
  have hRegions : g.allRegions = h.allRegions := by
    rw [allRegions_eq, allRegions_eq, hCharted.places,
      hCharted.roles, hCharted.regions]
    rfl
  have hInfo : g.info = h.info := hCharted.info
  refine ⟨hLists.toFramed.of_charted hCharted, ?_, ?_, ?_⟩
  · rw [hRegions, hInfo]
    exact hLists.listed
  · rw [hInfo]
    exact hLists.again
  · rw [hInfo]
    exact hLists.settled

end Heap

------------------------------------------------------------
-- Work between Collections
------------------------------------------------------------

namespace HeapM

open Heap

variable {α β : Type}
variable {rt : Runtime}
variable {regions : List MemoryRegion}

/-
  Work leaves the regions published that were published before,
  wherever it ends, unless it breaks off in a collection.
-/
abbrev Stays
    (regions : List MemoryRegion)
    (work : HeapM α) : Prop :=
  Turns (Lists regions) work (Lists regions) (Broken regions)

theorem stays_bind
    {work : HeapM α}
    {next : α → HeapM β}
    (hWork : Stays regions work)
    (hNext : ∀ a, Stays regions (next a)) :
    Stays regions (work >>= next) :=
  turns_bind hWork hNext

/- Work that leaves the belts in their places and roles. -/
theorem stays_of_charted
    {work : HeapM α}
    (hWork :
      ∀ c R, Keeps (Charted c R) work fun _ => True) :
    Stays regions work := by
  refine turns_of_each fun h hLists => ?_
  have hTurns :
      Turns (Charted h.chart (· = h.layout.roles)) work
        (Lists regions) (Broken regions) := by
    intro s hStart
    have hAfter := (hWork _ _ s hStart).1
    have hListed := hLists.of_charted hAfter
    exact ⟨fun _ _ => hListed, fun _ _ => Or.inr hListed⟩
  rintro s rfl
  exact hTurns s (hLists.charted rfl)

theorem stays_pure
    (a : α) :
    Stays regions (pure a) :=
  stays_of_charted fun _ _ => keeps_done a

/- A computed result or fault. -/
theorem stays_lift
    (work : Except Fault α) :
    Stays regions (liftM work : HeapM α) :=
  stays_of_charted fun _ _ => keeps_lift fun _ _ => trivial

/- A value read off the heap. -/
theorem stays_reading
    (f : Heap → α) :
    Stays regions (reading f) :=
  stays_of_charted fun _ _ => keeps_reading fun _ _ => trivial

theorem stays_read
    {f : Heap → α}
    {next : α → HeapM β}
    (hNext : ∀ a, Stays regions (next a)) :
    Stays regions (reading f >>= next) :=
  stays_bind (stays_reading f) hNext

theorem stays_report
    {e : Event}
    {next : Unit → HeapM β}
    (hNext : Stays regions (next ())) :
    Stays regions (Activity.emit e >>= next) :=
  stays_bind (stays_of_charted fun _ _ => keeps_emit e)
    fun _ => hNext

theorem stays_memory
    {f : Heap → Memory → Memory}
    {next : Unit → HeapM β}
    (hNext : Stays regions (next ())) :
    Stays regions
      ((update fun h => h.mapMemory (f h)) >>= next) :=
  stays_bind
    (stays_of_charted fun _ _ =>
      keeps_update fun _ hOther => hOther.mapMemory _)
    fun _ => hNext

------------------------------------------------------------
-- Collections
------------------------------------------------------------

/- A collection is opened where none is under way. -/
theorem opens_beginEpoch :
    Turns (Lists regions) beginEpoch (Open regions)
      (Broken regions) := by
  refine turns_of_each fun h hLists => ?_
  refine turns_of_yields yields_beginEpoch ?_
  refine ⟨hLists.mapEpochs _, ?_⟩
  have hSettled := hLists.settled
  exact decide_eq_true (Nat.lt_succ_of_le (Nat.le_of_eq hSettled))

/-
  What a collection does until it publishes the regions may
  break off, since it is under way then.
-/
theorem open_of_charted
    {work : HeapM α}
    (hWork :
      ∀ c, Keeps (Charted c Unassigned) work fun _ => True) :
    Turns (Open regions) work (Open regions)
      (Broken regions) := by
  intro s hOpen
  have hAfter :=
    (hWork _ s (hOpen.charted trivial)).1
  have hCollecting :
      (work s).2.state.heap.info.epochs.isCollecting = true := by
    rw [hAfter.info]
    exact hOpen.collecting
  exact
    ⟨fun _ _ => ⟨hOpen.of_charted hAfter, hCollecting⟩,
      fun _ _ => Or.inl hCollecting⟩

/- Publishing the regions lists them. -/
theorem closing_publishRegions :
    Turns (Open regions) publishRegions (Closing regions)
      (Broken regions) := by
  refine turns_of_each fun h hOpen => ?_
  rcases hOpen.yields_publishRegions with ⟨list, hList, hYields⟩
  refine turns_of_yields hYields ?_
  exact
    ⟨hOpen.published list, hList, HeapInfo.published_published⟩

theorem closes_finishEpoch :
    Turns (Closing regions) finishEpoch (Lists regions)
      (Broken regions) := by
  refine turns_of_each fun h hClosing => ?_
  refine turns_of_yields yields_finishEpoch ?_
  refine ⟨hClosing.mapEpochs _, hClosing.listed, ?_, rfl⟩
  exact
    congrArg (fun i : HeapInfo => { i with epochs := i.epochs.ended })
      hClosing.again

/- What wraps up a collection leaves the regions listed. -/
theorem closes_wrapUp
    (look : Heap → α) :
    Turns (Open regions)
      (do
        publishRegions
        finishEpoch
        reading look)
      (Lists regions) (Broken regions) :=
  turns_bind closing_publishRegions fun _ =>
    turns_bind closes_finishEpoch fun _ => stays_reading look

/- A minor collection. -/
theorem stays_minorCollect
    (bytes : Nat) :
    Stays regions (minorCollect rt bytes) := by
  unfold minorCollect
  refine stays_read fun latched => ?_
  split
  · exact stays_report (stays_pure _)
  · refine turns_bind opens_beginEpoch fun epoch => ?_
    refine turns_bind
      (open_of_charted fun _ => charted_snapshotMarks) fun _ => ?_
    refine turns_bind
      (open_of_charted fun _ =>
        keeps_update fun _ hOther => hOther.aside rfl rfl rfl)
      fun _ => ?_
    refine turns_bind
      (open_of_charted fun _ => charted_promoteSurvivors)
      fun outcome => ?_
    refine turns_bind
      (open_of_charted fun _ => charted_concludeMinor _ _)
      fun _ => ?_
    exact closes_wrapUp _

/- A major one. -/
theorem stays_majorCollect
    (bytes : Nat) :
    Stays regions (majorCollect rt bytes) := by
  unfold majorCollect
  refine stays_read fun latched => ?_
  split
  · exact stays_pure _
  · refine turns_bind opens_beginEpoch fun epoch => ?_
    refine turns_bind
      (open_of_charted fun _ => charted_snapshotMarks) fun _ => ?_
    refine turns_bind
      (open_of_charted fun _ =>
        keeps_update fun _ hOther => hOther.aside rfl rfl rfl)
      fun _ => ?_
    refine turns_bind
      (open_of_charted fun _ => charted_runCollection)
      fun outcome => ?_
    refine turns_bind
      (open_of_charted fun _ => charted_concludeMajor _ _)
      fun _ => ?_
    refine turns_bind
      (open_of_charted fun _ => charted_checkMatureRoom _)
      fun _ => ?_
    exact closes_wrapUp _

/- A whole collection keeps the regions listed. -/
theorem stays_collectGarbage
    (bytes : Nat) :
    Stays regions (collectGarbage rt bytes) := by
  have hClear (success : Bool) :
      Stays regions
        (do
          clearCards
          pure success) :=
    stays_of_charted fun _ _ =>
      keeps_bind charted_clearCards fun _ _ => keeps_done _
  unfold collectGarbage
  refine stays_bind (stays_minorCollect _) fun minor => ?_
  refine stays_read fun half => ?_
  split
  · refine stays_read fun used => ?_
    refine stays_report ?_
    exact stays_bind (stays_majorCollect _) fun _ => hClear _
  · exact stays_bind (stays_pure _) fun _ => hClear _

theorem stays_collect
    (bytes : Nat) :
    Stays regions (collect rt bytes) := by
  unfold collect Executor.execute
  rw [if_neg (by decide)]
  refine stays_report ?_
  refine stays_bind (stays_collectGarbage _) fun _ => ?_
  exact stays_report (stays_pure _)

------------------------------------------------------------
-- Allocations, Expansions and Registrations
------------------------------------------------------------

/- An allocation may collect. -/
theorem stays_alloc
    (bytes : Nat) :
    Stays regions (alloc rt bytes) := by
  have hNursery (size : Nat) :
      Stays regions (allocateNursery size) :=
    stays_of_charted fun _ _ => charted_allocateIn (by decide) _
  have hPretenured (size : Nat) :
      Stays regions (allocPretenured size) := by
    refine stays_read fun latched => ?_
    split
    · exact stays_pure _
    · refine stays_bind
        (stays_of_charted fun _ _ => charted_allocateMature _)
        fun a? => ?_
      split
      · exact stays_report (stays_pure _)
      · exact stays_pure _
  have hCollecting (size : Nat) :
      Stays regions (allocCollecting rt size) := by
    refine stays_bind (stays_collect _) fun success => ?_
    split
    · refine stays_bind (hNursery _) fun a? => ?_
      split
      · exact stays_pure _
      · exact hPretenured _
    · exact hPretenured _
  unfold alloc
  refine stays_bind (hNursery _) fun a? => ?_
  split
  · exact stays_pure _
  · refine stays_bind (hNursery _) fun a? => ?_
    split
    · exact stays_pure _
    · refine stays_read fun latched => ?_
      split
      · exact stays_pure _
      · exact hCollecting _

/- A belt that grows leaves the heap alone so far. -/
theorem yields_expand
    {h : Heap}
    {l : Layout}
    (hArranged : l.Arranged)
    (role bytes : Nat) :
    ∃ result,
      Yields (l.expand role bytes) h result h ∧
        ∀ k, result = .ok (.ok k) → l.Changes k := by
  have hSettles := hArranged.settles_expand role bytes ⟨{}, {}⟩
  unfold Layout.expand at hSettles ⊢
  cases hGrown : (l.grown role bytes).run with
  | error f =>
      exact
        ⟨.error f, yields_bind_error (yields_lift_error rfl),
          nofun⟩
  | ok result =>
      rw [hGrown] at hSettles
      rcases result with e | ⟨b, c⟩
      · exact
          ⟨.ok (.error e), yields_computed rfl (yields_pure _),
            nofun⟩
      · refine
          ⟨.ok (.ok ((l.setBelt b).setBelt c)),
            yields_computed rfl (yields_report rfl (yields_pure _)),
            ?_⟩
        rintro k ⟨⟩
        rcases hSettles with
          ⟨-, r, t, hRun, hChanges⟩ | ⟨-, f, t, hRun⟩
        · cases hRun
          exact hChanges
        · cases hRun

/- A mature belt that grows is published. -/
theorem stays_expandMature
    (bytes : Nat) :
    Stays regions (expandMature bytes) := by
  refine turns_of_each fun h hLists => ?_
  rcases yields_expand (h := h) hLists.arranged Role.mature bytes
    with ⟨result, hExpand, hChanges⟩
  unfold expandMature
  rcases result with f | e | k
  · exact
      turns_of_fault (yields_read (yields_bind_error hExpand))
        (Or.inr hLists)
  · exact
      turns_of_yields
        (yields_read (yields_bind hExpand (yields_pure _))) hLists
  · have hChange := hChanges k rfl
    have hFramed :
        Framed regions { h with layout := k, outOfMemory := false } :=
      ⟨hLists.arranged.changes hChange,
        hChange.same.2.trans hLists.pair, hLists.runtime,
        hLists.ends, hLists.records⟩
    rcases hFramed.yields_publishRegions with
      ⟨list, hList, hPublish⟩
    exact
      turns_of_yields
        (yields_read (yields_bind hExpand
          (yields_write (yields_write
            (yields_bind hPublish (yields_pure _))))))
        (hFramed.lists hList hLists.settled)

/-
  Regions of the runtime that end at addresses are registered
  without a fault.
-/
theorem yields_registerRegions_of_lists
    {h : Heap}
    {list : List MemoryRegion}
    (hLists : Lists regions h)
    (hEnds : ∀ r ∈ list, r.start + r.size < Word.limit) :
    ∃ g, Yields (registerRegions list) h (.ok ()) g ∧
      Lists list g := by
  have hFramed : Framed list { h with runtimeRegions := list } :=
    ⟨hLists.arranged, hLists.pair, rfl, hEnds, hLists.records⟩
  rcases hFramed.yields_publishRegions with
    ⟨all, hAll, hPublish⟩
  exact
    ⟨_, yields_write hPublish, hFramed.lists hAll hLists.settled⟩

end HeapM

end BeltHeap
