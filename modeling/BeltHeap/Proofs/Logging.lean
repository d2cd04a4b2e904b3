import BeltHeap.Mutator
import BeltHeap.Proofs.Blocks
import BeltHeap.Proofs.Indifference

/-
  What a log keeps changes nothing but the log, with one
  exception: a runtime may register a region that has no end,
  which is a fault where debugging events are kept, and no
  fault where they are not.

  Main declarations:
    * `HeapM.indifferent_runCollection`
    * `HeapM.indifferent_collectGarbage`
    * `Mutator.indifferent_perform`
    * `Mutator.performAll`
    * `Mutator.logs_change_nothing`
    * `Mutator.logs_may_change_answers`
-/

------------------------------------------------------------
-- Passes
------------------------------------------------------------

namespace BeltHeap

namespace HeapM

variable {l l' : Option Level}
variable {rt : Runtime}
variable {kind : Collection.Kind}
variable {destination : Collection.Destination}
variable {moves : List Collection.Move}
variable {moved : Std.HashMap Nat Nat}
variable {slots : List Slot}

/- The dirty cards are scanned. -/
theorem indifferent_slotsOnCards
    (cards : List Nat) :
    Indifferent l l' (slotsOnCards rt cards) fun _ => True := by
  induction cards with
  | nil => exact indifferent_done _
  | cons card cards ih =>
      unfold slotsOnCards
      refine indifferent_read fun h _ => ?_
      refine indifferent_computed fun result _ => ?_
      have hRest (slots : List Nat) :
          Indifferent l l'
            (do
              let rest ← slotsOnCards rt cards
              pure (slots ++ rest))
            fun _ => True :=
        indifferent_bind ih fun _ _ => indifferent_done _
      cases result with
      | unused => exact hRest []
      | noObject start => exact indifferent_report (hRest [])
      | slots found => exact hRest found

/- The slots that a collection starts from are found. -/
theorem indifferent_findStartSlots :
    Indifferent l l' (findStartSlots rt kind) fun _ => True := by
  have hRemembered :
      Indifferent l l' (rememberedSlots rt) fun _ => True :=
    indifferent_read fun _ _ => indifferent_slotsOnCards _
  have hRoots :
      Indifferent l l' (findRootSlots rt) fun _ => True :=
    indifferent_bind indifferent_noteScan fun _ _ =>
      indifferent_reading fun _ _ => trivial
  unfold findStartSlots
  refine indifferent_bind hRoots fun roots _ => ?_
  split
  · refine indifferent_bind hRemembered fun _ _ => ?_
    exact indifferent_report (indifferent_done _)
  · refine indifferent_bind (indifferent_done _) fun _ _ => ?_
    exact indifferent_report (indifferent_done _)

/- Slots are forwarded. -/
theorem indifferent_forwardSlot
    (s : Slot) :
    Indifferent l l' (forwardSlot moved s) fun _ => True := by
  unfold forwardSlot
  refine indifferent_read fun h _ => ?_
  split
  · exact indifferent_update fun _ hHeap => hHeap.writeSlot s _
  · exact indifferent_done _

theorem indifferent_forwardSlots :
    Indifferent l l' (forwardSlots rt slots moves)
      fun _ => True := by
  unfold forwardSlots forwardFields
  refine indifferent_bind
    (indifferent_forM fun s _ => indifferent_forwardSlot s)
    fun _ _ => ?_
  refine indifferent_forM fun m _ => ?_
  refine indifferent_read fun _ _ => ?_
  exact indifferent_forM fun a _ => indifferent_forwardSlot _

/- Survivors are copied. -/
theorem indifferent_moveObjects :
    Indifferent l l' (moveObjects moves) fun _ => True := by
  refine indifferent_forM fun m _ => ?_
  split
  · exact indifferent_done _
  · exact indifferent_update fun _ hHeap => hHeap.mapMemory _

/- The mark of a belt is set. -/
theorem indifferent_setMark
    {b : Belt}
    (hBelt : b.Reportable l l')
    (mark : Nat) :
    Indifferent l l' (setMark b mark) fun _ => True := by
  refine indifferent_computed fun marked hMarked => ?_
  refine indifferent_update fun _ hHeap => hHeap.setBelt ?_
  unfold Belt.setMark at hMarked
  split at hMarked
  · cases hMarked
    exact hBelt
  · cases hMarked

/- A belt is reset. -/
theorem indifferent_resetBelt
    {b : Belt}
    (hBelt : b.Reportable l l') :
    Indifferent l l' (resetBelt b) fun _ => True :=
  indifferent_write (fun _ hHeap => hHeap.mapMemory _)
    (indifferent_update fun _ hHeap =>
      hHeap.setBelt (show b.emptied.Reportable l l' from hBelt))

/- Objects noted for cards are forgotten. -/
theorem indifferent_forgetObjects
    (s : Span) :
    Indifferent l l' (forgetObjects s) fun _ => True :=
  indifferent_read fun _ _ => indifferent_computed fun _ _ =>
    indifferent_update fun _ hHeap => hHeap.aside rfl rfl

/- An object is noted. -/
theorem indifferent_recordObject
    (start size : Nat) :
    Indifferent l l' (recordObject start size) fun _ => True :=
  indifferent_read fun _ _ => indifferent_computed fun _ _ =>
    indifferent_update fun _ hHeap => hHeap.aside rfl rfl

/- The roles are swapped. -/
theorem indifferent_swapRoles :
    Indifferent l l' swapRoles fun _ => True := by
  have hSet (expandable : Bool) :
      Indifferent l l' (setMatureExpandable expandable)
        fun _ => True := by
    refine indifferent_read fun h hHeap => ?_
    refine indifferent_update fun _ hOther => hOther.setBelt ?_
    exact hHeap.beltOf Role.mature
  have hSwap
      {h : Heap}
      (hHeap : h.Reportable l l') :
      Indifferent l l'
        (h.layout.swap Role.nursery Role.mature)
        fun layout =>
          ∀ b ∈ layout.belts, b.Reportable l l' := by
    refine indifferent_computed fun _ _ => ?_
    refine indifferent_computed fun _ _ => ?_
    refine indifferent_report (indifferent_lift ?_)
    intro layout hSwapped
    rcases bind_eq_ok hSwapped with ⟨_, -, hSwapped⟩
    rcases bind_eq_ok hSwapped with ⟨_, -, hSwapped⟩
    cases hSwapped
    exact hHeap.belts
  unfold swapRoles
  refine indifferent_read fun _ _ => ?_
  refine indifferent_bind (hSet _) fun _ _ => ?_
  refine indifferent_read fun h hHeap => ?_
  refine indifferent_bind (hSwap hHeap) fun layout hBelts => ?_
  exact
    indifferent_write (fun _ hOther => ⟨hBelts, hOther.regions⟩)
      (hSet _)

/- The belts are settled. -/
theorem indifferent_settleBelts :
    Indifferent l l' (settleBelts kind destination moves)
      fun _ => True := by
  unfold settleBelts
  refine indifferent_read fun h hHeap => ?_
  have hNursery : h.nursery.Reportable l l' :=
    hHeap.beltOf Role.nursery
  refine indifferent_read fun g hOther => ?_
  have hMature : g.mature.Reportable l l' :=
    hOther.beltOf Role.mature
  dsimp only
  cases destination with
  | appendToMature =>
      dsimp only
      split
      · exact
          indifferent_bind (indifferent_setMark hMature _)
            fun _ _ => indifferent_resetBelt hNursery
      · exact indifferent_resetBelt hNursery
  | evacuateToNursery =>
      refine indifferent_bind
        (indifferent_forgetObjects _) fun _ _ => ?_
      refine indifferent_bind
        (indifferent_setMark hNursery _) fun _ _ => ?_
      exact
        indifferent_bind (indifferent_resetBelt hMature)
          fun _ _ => indifferent_swapRoles
  | slideInMature =>
      have hMark :
          Indifferent l l'
            (do
              setMark g.mature
                ((Collection.lastStop? moves).getD
                  g.mature.start)
              if kind = .fullHeap then resetBelt h.nursery)
            fun _ => True := by
        refine indifferent_bind
          (indifferent_setMark hMature _) fun _ _ => ?_
        split
        · exact indifferent_resetBelt hNursery
        · exact indifferent_done _
      refine indifferent_bind
        (indifferent_forgetObjects _) fun _ _ => ?_
      split
      · exact
          indifferent_write (fun _ hAny => hAny.mapMemory _)
            hMark
      · exact hMark

/- The survivors are noted. -/
theorem indifferent_recordSurvivors :
    Indifferent l l' (recordSurvivors moves) fun _ => True := by
  refine indifferent_forM fun m _ => ?_
  refine indifferent_read fun _ _ => ?_
  split
  · exact indifferent_recordObject _ _
  · exact indifferent_throw _

/- A pass is run. -/
theorem indifferent_runCollection :
    Indifferent l l' (runCollection rt kind) fun _ => True := by
  unfold runCollection findSurvivors settle
  refine indifferent_read fun _ _ => ?_
  refine indifferent_read fun _ _ => ?_
  refine indifferent_report ?_
  refine indifferent_bind
    indifferent_findStartSlots fun slots _ => ?_
  refine indifferent_read fun _ _ => ?_
  refine indifferent_computed fun placed _ => ?_
  split
  · exact indifferent_done _
  · refine indifferent_report ?_
    refine indifferent_bind
      indifferent_forwardSlots fun _ _ => ?_
    refine indifferent_bind
      indifferent_moveObjects fun _ _ => ?_
    refine indifferent_bind
      (indifferent_bind indifferent_settleBelts
        fun _ _ => indifferent_recordSurvivors) fun _ _ => ?_
    exact indifferent_done _

------------------------------------------------------------
-- Collections
------------------------------------------------------------

/- Survivors are promoted, in one pass or two. -/
theorem indifferent_promoteSurvivors :
    Indifferent l l' (promoteSurvivors rt) fun _ => True := by
  unfold promoteSurvivors
  refine indifferent_bind
    indifferent_runCollection fun outcome _ => ?_
  split
  · exact indifferent_done _
  · refine indifferent_report ?_
    exact
      indifferent_write (fun _ hHeap => hHeap.aside rfl rfl)
        indifferent_runCollection

/- A minor collection is concluded. -/
theorem indifferent_concludeMinor
    (epoch : Nat)
    (outcome :
      Except Collection.Shortfall Collection.Summary) :
    Indifferent l l' (concludeMinor epoch outcome)
      fun _ => True := by
  unfold concludeMinor
  split
  · refine indifferent_write (fun _ hHeap => hHeap.aside rfl rfl) ?_
    exact indifferent_read fun _ _ => indifferent_emit _
  · exact
      indifferent_report
        (indifferent_update fun _ hHeap => hHeap.aside rfl rfl)

/- A major collection is concluded. -/
theorem indifferent_concludeMajor
    (epoch : Nat)
    (outcome :
      Except Collection.Shortfall Collection.Summary) :
    Indifferent l l' (concludeMajor epoch outcome)
      fun _ => True := by
  unfold concludeMajor
  split
  · exact indifferent_read fun _ _ => indifferent_emit _
  · exact
      indifferent_report
        (indifferent_update fun _ hHeap => hHeap.aside rfl rfl)

/- The room in the mature belt is checked. -/
theorem indifferent_checkMatureRoom
    (bytes : Nat) :
    Indifferent l l' (checkMatureRoom bytes) fun _ => True := by
  unfold checkMatureRoom
  refine indifferent_read fun _ _ => ?_
  split
  · exact
      indifferent_report
        (indifferent_update fun _ hHeap => hHeap.aside rfl rfl)
  · exact indifferent_done _

/- The collection epoch is looked at. -/
theorem indifferent_lookEpoch :
    Indifferent l l'
      (Activity.reading fun r : HeapRun =>
        r.heap.info.epochs.collection)
      fun _ => True := by
  have hRead :
      Indifferent l l' (reading fun h => h.info.epochs.collection)
        fun _ => True :=
    indifferent_reading fun _ _ => trivial
  exact hRead

/- An epoch begins. -/
theorem indifferent_beginEpoch :
    Indifferent l l' beginEpoch fun _ => True := by
  refine indifferent_write (fun _ hHeap => hHeap.aside rfl rfl) ?_
  refine indifferent_bind indifferent_lookEpoch fun epoch _ => ?_
  exact indifferent_report (indifferent_done _)

/- An epoch ends. -/
theorem indifferent_finishEpoch :
    Indifferent l l' finishEpoch fun _ => True := by
  refine indifferent_write (fun _ hHeap => hHeap.aside rfl rfl) ?_
  exact
    indifferent_bind indifferent_lookEpoch fun _ _ =>
      indifferent_emit _

/- The marks of all belts are remembered. -/
theorem indifferent_snapshotMarks :
    Indifferent l l' snapshotMarks fun _ => True := by
  refine indifferent_update fun h hHeap => ?_
  refine ⟨fun b hMem => ?_, hHeap.regions⟩
  rcases Array.mem_map.mp hMem with ⟨c, hOld, rfl⟩
  exact hHeap.belts c hOld

/- A minor collection is run. -/
theorem indifferent_minorCollect
    (bytes : Nat) :
    Indifferent l l' (minorCollect rt bytes) fun _ => True := by
  unfold minorCollect
  refine indifferent_read fun _ _ => ?_
  split
  · exact indifferent_report (indifferent_done _)
  · refine indifferent_bind indifferent_beginEpoch fun _ _ => ?_
    refine indifferent_bind indifferent_snapshotMarks fun _ _ => ?_
    refine indifferent_write (fun _ hHeap => hHeap.aside rfl rfl) ?_
    refine indifferent_bind
      indifferent_promoteSurvivors fun _ _ => ?_
    refine indifferent_bind
      (indifferent_concludeMinor _ _) fun _ _ => ?_
    refine indifferent_bind
      indifferent_publishRegions fun _ _ => ?_
    exact
      indifferent_bind indifferent_finishEpoch fun _ _ =>
        indifferent_reading fun _ _ => trivial

/- A major collection is run. -/
theorem indifferent_majorCollect
    (bytes : Nat) :
    Indifferent l l' (majorCollect rt bytes) fun _ => True := by
  unfold majorCollect
  refine indifferent_read fun _ _ => ?_
  split
  · exact indifferent_done _
  · refine indifferent_bind indifferent_beginEpoch fun _ _ => ?_
    refine indifferent_bind indifferent_snapshotMarks fun _ _ => ?_
    refine indifferent_write (fun _ hHeap => hHeap.aside rfl rfl) ?_
    refine indifferent_bind
      indifferent_runCollection fun _ _ => ?_
    refine indifferent_bind
      (indifferent_concludeMajor _ _) fun _ _ => ?_
    refine indifferent_bind
      (indifferent_checkMatureRoom _) fun _ _ => ?_
    refine indifferent_bind
      indifferent_publishRegions fun _ _ => ?_
    exact
      indifferent_bind indifferent_finishEpoch fun _ _ =>
        indifferent_reading fun _ _ => trivial

/- A whole collection is run. -/
theorem indifferent_collectGarbage
    (bytes : Nat) :
    Indifferent l l' (collectGarbage rt bytes) fun _ => True := by
  have hCards :
      Indifferent l l' clearCards fun _ => True := by
    refine indifferent_read fun _ _ => ?_
    split
    · exact indifferent_update fun _ hHeap => hHeap.aside rfl rfl
    · exact indifferent_done _
  have hClear (success : Bool) :
      Indifferent l l'
        (do
          clearCards
          pure success)
        fun _ => True :=
    indifferent_bind hCards fun _ _ => indifferent_done _
  unfold collectGarbage
  refine indifferent_bind (indifferent_minorCollect _) fun _ _ => ?_
  refine indifferent_read fun _ _ => ?_
  split
  · refine indifferent_read fun _ _ => ?_
    refine indifferent_report ?_
    exact
      indifferent_bind (indifferent_majorCollect _) fun _ _ =>
        hClear _
  · exact
      indifferent_bind (indifferent_done _) fun _ _ => hClear _

/- A collection is run on the worker. -/
theorem indifferent_collect
    (bytes : Nat) :
    Indifferent l l' (collect rt bytes) fun _ => True := by
  unfold collect Executor.execute
  rw [if_neg (by decide)]
  refine indifferent_report ?_
  refine indifferent_bind
    (indifferent_collectGarbage _) fun _ _ => ?_
  exact indifferent_report (indifferent_done _)

------------------------------------------------------------
-- Requests of Mutators
------------------------------------------------------------

/- A belt is bumped. -/
theorem indifferent_allocateIn
    (role size : Nat) :
    Indifferent l l' (allocateIn role size) fun _ => True := by
  have hBump
      {b : Belt}
      (hBelt : b.Reportable l l') :
      Indifferent l l' (b.allocate size) fun bumped =>
        ∀ object c,
          bumped = some (object, c) → c.Reportable l l' := by
    refine indifferent_computed fun bumped hBumped => ?_
    rcases bind_eq_ok hBumped with ⟨mark, -, hBumped⟩
    split
    · refine indifferent_pure ?_
      rintro object c ⟨⟩
      split at hBumped
      · cases hBumped
        exact hBelt
      · cases hBumped
    · exact indifferent_report (indifferent_pure nofun)
  unfold allocateIn
  refine indifferent_read fun h hHeap => ?_
  refine indifferent_bind
    (hBump (hHeap.beltOf role)) fun bumped hAfter => ?_
  split
  · exact indifferent_done _
  · exact
      indifferent_write
        (fun _ hOther => hOther.setBelt (hAfter _ _ rfl))
        (indifferent_done _)

/- A block is allocated in the mature belt. -/
theorem indifferent_allocateMature
    (size : Nat) :
    Indifferent l l' (allocateMature size) fun _ => True := by
  refine indifferent_bind
    (indifferent_allocateIn _ _) fun object? _ => ?_
  split
  · exact indifferent_done _
  · exact
      indifferent_bind (indifferent_recordObject _ _) fun _ _ =>
        indifferent_done _

/- A block is allocated, after a collection if need be. -/
theorem indifferent_alloc
    (bytes : Nat) :
    Indifferent l l' (alloc rt bytes) fun _ => True := by
  have hNursery (size : Nat) :
      Indifferent l l' (allocateNursery size) fun _ => True :=
    indifferent_allocateIn _ _
  have hPretenured (size : Nat) :
      Indifferent l l' (allocPretenured size) fun _ => True := by
    refine indifferent_read fun _ _ => ?_
    split
    · exact indifferent_done _
    · refine indifferent_bind
        (indifferent_allocateMature size) fun object? _ => ?_
      split
      · exact indifferent_report (indifferent_done _)
      · exact indifferent_done _
  have hCollecting (size : Nat) :
      Indifferent l l' (allocCollecting rt size)
        fun _ => True := by
    refine indifferent_bind (indifferent_collect _) fun _ _ => ?_
    split
    · refine indifferent_bind (hNursery _) fun object? _ => ?_
      split
      · exact indifferent_done _
      · exact hPretenured _
    · exact hPretenured _
  unfold alloc
  refine indifferent_bind (hNursery _) fun object? _ => ?_
  split
  · exact indifferent_done _
  · refine indifferent_bind (hNursery _) fun object? _ => ?_
    split
    · exact indifferent_done _
    · refine indifferent_read fun _ _ => ?_
      split
      · exact indifferent_done _
      · exact hCollecting _

/- A reference is stored. -/
theorem indifferent_writeReference
    (source offset target : Nat) :
    Indifferent l l' (writeReference source offset target)
      fun _ => True := by
  unfold writeReference noteStore dirtyCardOf
  refine indifferent_computed fun slot _ => ?_
  refine indifferent_write (fun _ hHeap => hHeap.writeSlot _ _) ?_
  split
  · exact indifferent_done _
  · refine indifferent_read fun _ _ => ?_
    split
    · refine indifferent_read fun _ _ => ?_
      exact indifferent_computed fun _ _ =>
        indifferent_update fun _ hHeap => hHeap.aside rfl rfl
    · exact indifferent_done _

theorem indifferent_addRoot
    (object : Nat) :
    Indifferent l l' (addRoot object) fun _ => True := by
  unfold addRoot
  refine indifferent_read fun _ _ => ?_
  split
  · exact
      indifferent_write (fun _ hHeap => hHeap.aside rfl rfl)
        (indifferent_done _)
  · refine indifferent_read fun _ _ => ?_
    exact indifferent_report (indifferent_done _)

/- The object behind a handle is read. -/
theorem indifferent_getRoot
    (handle : Nat) :
    Indifferent l l' (getRoot handle) fun _ => True :=
  indifferent_read fun _ _ => indifferent_lift fun _ _ => trivial

/- Another object is put behind a handle. -/
theorem indifferent_setRoot
    (handle object : Nat) :
    Indifferent l l' (setRoot handle object) fun _ => True :=
  indifferent_bind (indifferent_getRoot handle) fun _ _ =>
    indifferent_update fun _ hHeap => hHeap.writeSlot _ _

/- A handle is given up. -/
theorem indifferent_removeRoot
    (handle : Nat) :
    Indifferent l l' (removeRoot handle) fun _ => True := by
  unfold removeRoot
  refine indifferent_bind
    (indifferent_setRoot _ _) fun _ _ => ?_
  refine indifferent_read fun _ _ => ?_
  split
  · exact indifferent_throw _
  · exact indifferent_update fun _ hHeap => hHeap.aside rfl rfl

/- The mature belt grows. -/
theorem indifferent_expandMature
    (bytes : Nat) :
    Indifferent l l' (expandMature bytes) fun _ => True := by
  have hExpand
      {h : Heap}
      (hHeap : h.Reportable l l') :
      Indifferent l l'
        (h.layout.expand Role.mature bytes)
        fun expanded =>
          ∀ layout, expanded = .ok layout →
            ∀ b ∈ layout.belts, b.Reportable l l' := by
    refine indifferent_computed fun grown hGrown => ?_
    split
    · exact indifferent_pure nofun
    · refine indifferent_report (indifferent_pure ?_)
      rintro layout ⟨⟩ b hMem
      rcases Layout.reportable_grown hHeap.belts hGrown with
        ⟨hLow, hHigh⟩
      rcases Array.mem_or_eq_of_mem_setIfInBounds hMem with
        hMem | rfl
      · rcases Array.mem_or_eq_of_mem_setIfInBounds hMem with
          hMem | rfl
        · exact hHeap.belts b hMem
        · exact hLow
      · exact hHigh
  unfold expandMature
  refine indifferent_read fun h hHeap => ?_
  refine indifferent_bind
    (hExpand hHeap) fun expanded hBelts => ?_
  split
  · exact indifferent_done _
  · refine indifferent_write
      (fun _ hOther => ⟨hBelts _ rfl, hOther.regions⟩) ?_
    refine indifferent_write (fun _ hHeap => hHeap.aside rfl rfl) ?_
    exact
      indifferent_bind indifferent_publishRegions fun _ _ =>
        indifferent_done _

end HeapM

------------------------------------------------------------
-- Operations of Mutators
------------------------------------------------------------

namespace Mutator

open HeapM

variable {l l' : Option Level}
variable {rt : Runtime}
variable {locals : Locals}

theorem indifferent_withObject
    {r : Reference}
    {next : Nat → HeapM Answer}
    (hNext : ∀ a, Indifferent l l' (next a) fun _ => True) :
    Indifferent l l' (withObject locals r next)
      fun _ => True := by
  refine indifferent_read fun _ _ => ?_
  split
  · exact indifferent_done _
  · exact hNext _

theorem indifferent_whenever
    {condition : Heap → Bool}
    {next : HeapM Answer}
    (hNext : Indifferent l l' next fun _ => True) :
    Indifferent l l' (whenever condition next)
      fun _ => True := by
  refine indifferent_read fun _ _ => ?_
  split
  · exact hNext
  · exact indifferent_done _

/- A value of the heap as an answer. -/
theorem indifferent_told
    {α : Type}
    {f : Heap → α}
    {g : α → Answer} :
    Indifferent l l' (do pure (g (← reading f)))
      fun _ => True :=
  indifferent_read fun _ _ => indifferent_done _

/- What some work came to as an answer. -/
theorem indifferent_reply
    {α : Type}
    {work : HeapM α}
    {g : α → Answer}
    (hWork : Indifferent l l' work fun _ => True) :
    Indifferent l l' (do pure (g (← work))) fun _ => True :=
  indifferent_bind hWork fun _ _ => indifferent_done _

/- An object is allocated and formatted. -/
theorem indifferent_allocObject
    (refs words : Nat) :
    Indifferent l l' (allocObject rt refs words)
      fun _ => True := by
  unfold allocObject
  refine indifferent_computed fun bytes _ => ?_
  refine indifferent_bind
    (indifferent_alloc _) fun result _ => ?_
  split
  · exact indifferent_done _
  · refine indifferent_read fun _ _ => ?_
    exact
      indifferent_write (fun _ hHeap => hHeap.mapMemory _)
        (indifferent_done _)

/- A block is allocated and formatted. -/
theorem indifferent_allocBlock
    (bytes : Nat) :
    Indifferent l l' (allocBlock rt bytes) fun _ => True := by
  unfold allocBlock
  refine indifferent_bind
    (indifferent_alloc _) fun result _ => ?_
  split
  · exact indifferent_done _
  · exact
      indifferent_write (fun _ hHeap => hHeap.mapMemory _)
        (indifferent_done _)

theorem indifferent_allocMatureBlock
    (bytes : Nat) :
    Indifferent l l' (allocMatureBlock bytes)
      fun _ => True := by
  unfold allocMatureBlock
  refine indifferent_bind
    (indifferent_allocateMature _) fun object? _ => ?_
  cases object? with
  | none => exact indifferent_done _
  | some object =>
      exact
        indifferent_write (fun _ hHeap => hHeap.mapMemory _)
          (indifferent_done _)

/- An operation whose regions, if any, end at addresses. -/
def Operation.Reportable
    (l l' : Option Level)
    (op : Operation) : Prop :=
  ∀ regions, op = .register regions →
    ∀ r ∈ regions, Addressable l l' (r.start + r.size)

/- An operation is answered whatever the log keeps. -/
theorem indifferent_answer
    {op : Operation}
    (hOp : op.Reportable l l') :
    Indifferent l l' (answer rt locals op) fun _ => True := by
  cases op with
  | alloc refs words name => exact indifferent_allocObject _ _
  | allocBytes bytes => exact indifferent_allocBlock _
  | allocMature bytes => exact indifferent_allocMatureBlock _
  | bumpMature bytes =>
      exact indifferent_reply (indifferent_allocateIn _ _)
  | setField source field target =>
      refine indifferent_withObject fun object => ?_
      refine indifferent_withObject fun value => ?_
      refine indifferent_whenever ?_
      exact
        indifferent_bind (indifferent_writeReference _ _ _)
          fun _ _ => indifferent_told
  | putWord source word value =>
      refine indifferent_withObject fun object => ?_
      refine indifferent_whenever ?_
      exact
        indifferent_write (fun _ hHeap => hHeap.mapMemory _)
          (indifferent_done _)
  | view source =>
      refine indifferent_withObject fun object => ?_
      refine indifferent_read fun _ _ => ?_
      split <;> exact indifferent_done _
  | addRoot source =>
      refine indifferent_withObject fun object => ?_
      exact indifferent_reply (indifferent_addRoot _)
  | setRoot handle source =>
      refine indifferent_whenever ?_
      refine indifferent_withObject fun object => ?_
      exact
        indifferent_bind (indifferent_setRoot _ _) fun _ _ =>
          indifferent_told
  | getRoot handle =>
      refine indifferent_whenever ?_
      exact indifferent_reply (indifferent_getRoot _)
  | removeRoot handle =>
      refine indifferent_whenever ?_
      exact
        indifferent_bind (indifferent_removeRoot _) fun _ _ =>
          indifferent_told
  | setRegister number source =>
      refine indifferent_whenever ?_
      refine indifferent_withObject fun object => ?_
      exact
        indifferent_write (fun _ hHeap => hHeap.writeSlot _ _)
          (indifferent_done _)
  | collect bytes =>
      exact indifferent_reply (indifferent_collect _)
  | collectOnRequest =>
      refine indifferent_reply ?_
      refine indifferent_bind
        (indifferent_collect _) fun success _ => ?_
      split
      · exact indifferent_reading fun _ _ => trivial
      · exact indifferent_done _
  | collectDirectly bytes =>
      exact indifferent_reply (indifferent_collectGarbage _)
  | minor bytes =>
      exact indifferent_reply (indifferent_minorCollect _)
  | major bytes =>
      exact indifferent_reply (indifferent_majorCollect _)
  | expand bytes =>
      refine indifferent_bind
        (indifferent_expandMature _) fun result _ => ?_
      split <;> exact indifferent_done _
  | dirtyCard card =>
      refine indifferent_read fun _ _ => ?_
      refine indifferent_computed fun _ _ => ?_
      exact
        indifferent_write (fun _ hHeap => hHeap.aside rfl rfl)
          indifferent_told
  | cardOf offset =>
      refine indifferent_read fun _ _ => ?_
      split <;> exact indifferent_done _
  | peek offset count =>
      exact indifferent_whenever indifferent_told
  | register regions =>
      exact
        indifferent_bind
          (indifferent_registerRegions (hOp regions rfl))
          fun _ _ => indifferent_told
  | regions => exact indifferent_told
  | graph => exact indifferent_told

theorem indifferent_perform
    {op : Operation}
    (hOp : op.Reportable l l') :
    Indifferent l l' (perform rt locals op) fun _ => True := by
  refine indifferent_read fun _ _ => ?_
  refine indifferent_bind (indifferent_answer hOp) fun _ _ => ?_
  exact indifferent_read fun _ _ => indifferent_done _

------------------------------------------------------------
-- Runs of Operations
------------------------------------------------------------

/-
  Perform operations one after the other, the locals of each
  being those that the one before it left.  The first fault is
  the last result.
-/
def performAll
    (rt : Runtime) :
    Locals → List Operation → Logged HeapRun →
      List (Except Fault Answer) × HeapRun
| _, [], s => ([], s.state)
| locals, op :: ops, s =>
    match perform rt locals op s with
    | (.ok (a, locals'), t) =>
        let rest := performAll rt locals' ops t
        (.ok a :: rest.1, rest.2)
    | (.error f, t) => ([.error f], t.state)

/- All operations come to the same under logs of two levels. -/
theorem performAll_eq
    {ops : List Operation}
    {s s' : Logged HeapRun}
    (hOps : ∀ op ∈ ops, op.Reportable l l')
    (hTogether : Together l l' s s') :
    performAll rt locals ops s' = performAll rt locals ops s := by
  induction ops generalizing locals s s' with
  | nil => exact congrArg (Prod.mk []) hTogether.state
  | cons op ops ih =>
      have hPerform :
          Indifferent l l' (perform rt locals op)
            fun _ => True :=
        indifferent_perform (hOps op List.mem_cons_self)
      rcases hPerform s s' hTogether with ⟨hResult, hAfter, -⟩
      unfold performAll
      cases hRun : perform rt locals op s with
      | mk result t =>
      cases hRun' : perform rt locals op s' with
      | mk result' t' =>
          rw [hRun, hRun'] at hResult hAfter
          cases hResult
          cases result with
          | error f =>
              exact congrArg (Prod.mk _) hAfter.state
          | ok a =>
              dsimp only
              rw [ih (fun op hMem =>
                hOps op (List.mem_cons_of_mem _ hMem)) hAfter]

/-
  On a new heap, any operations with any arguments come to the
  same results and to the same heap, through the same heaps,
  whichever of two levels the log has.  The regions that are
  registered have to end at addresses, unless the levels agree
  on debugging events.
-/
theorem logs_change_nothing
    {placement : Placement}
    {registers : Nat}
    {config : HeapConfig}
    {h : Heap}
    {ops : List Operation}
    (hMakes : Makes (Heap.create placement registers config) h)
    (hOps : ∀ op ∈ ops, op.Reportable l l')
    (rt : Runtime)
    (locals : Locals) :
    performAll rt locals ops
        ⟨{ heap := h, trail := some [] }, { level := l' }⟩ =
      performAll rt locals ops
        ⟨{ heap := h, trail := some [] }, { level := l }⟩ :=
  performAll_eq hOps ⟨rfl, rfl, rfl, .of_create hMakes⟩

/- A region is registered, and the heap is collected. -/
theorem logs_change_nothing_small :
    let ops :=
      [.register [⟨"runtime", 131072, 64⟩], .collect 0]
    (∀ op ∈ ops, op.Reportable none (some .trace)) ∧
      performAll {} [] ops
          ⟨{ heap := Program.smallHeap, trail := some [] },
            { level := some .trace }⟩ =
        performAll {} [] ops
          ⟨{ heap := Program.smallHeap, trail := some [] }, {}⟩ := by
  have hOps :
      ∀ op ∈
          [
            .register [⟨"runtime", 131072, 64⟩],
            Operation.collect 0
          ],
        op.Reportable none (some .trace) := by
    intro op hMem
    rcases List.mem_cons.mp hMem with rfl | hMem
    · rintro regions ⟨⟩ r hr
      rcases List.mem_singleton.mp hr with rfl
      exact .inr (by decide)
    · rcases List.mem_singleton.mp hMem with rfl
      nofun
  exact
    ⟨hOps, logs_change_nothing Program.makes_small hOps {} []⟩

/-
  A region that has no end is registered where no events are
  kept, and is a fault where debugging events are.
-/
theorem logs_may_change_answers :
    let ops := [.register [⟨"runtime", Word.limit - 1, 1⟩]]
    let silent :=
      performAll {} [] ops
        ⟨{ heap := Program.smallHeap, trail := some [] }, {}⟩
    let loud :=
      performAll {} [] ops
        ⟨{ heap := Program.smallHeap, trail := some [] },
          { level := some .debug }⟩
    silent.1.map Except.isOk = [true] ∧
      silent.2.heap.info.regions.length = 3 ∧
        loud.1 = [.error .addOverflow] ∧
          loud.2.heap.info.regions.length = 2 := by
  decide +kernel

end Mutator

end BeltHeap
