import BeltHeap.Proofs.Collecting
import BeltHeap.Proofs.Mirroring

/-
  Collections for runtimes that differ in the order in which
  they report slots.  They find the same objects in another
  order, put them in the same order again, and rewrite the same
  slots, each of them once.

  Main declarations:
    * `Runtime.Reorders`
    * `Collection.findLive_perm`, `Collection.place_congr`
    * `HeapM.agree_findStartSlots`, `HeapM.agree_findSurvivors`
    * `HeapM.agree_forwardSlots`
    * `HeapM.agree_runCollection`
    * `HeapM.agree_collect`
-/

------------------------------------------------------------
-- Orders of Slots
------------------------------------------------------------

namespace BeltHeap

/-
  A runtime reports the same root slots as another one, in
  another order or more often, and lists the fields of each
  object in another order.
-/
structure Runtime.Reorders (rt rt' : Runtime) : Prop where
  alignment : rt'.alignment = rt.alignment
  reports : ∀ s, s ∈ rt'.reports ↔ s ∈ rt.reports
  fields :
    ∀ m object, Object.Proper m object →
      (rt'.fields m object).Perm (rt.fields m object)

theorem Runtime.Reorders.refl
    {rt : Runtime} :
    rt.Reorders rt :=
  ⟨rfl, fun _ => Iff.rfl, fun _ _ _ => .refl _⟩

/- Every field is listed in any order of the standard one. -/
theorem Runtime.Reorders.listsFields
    {rt rt' : Runtime}
    (hReorders : rt.Reorders rt')
    (hStandard : rt.Standard) :
    rt'.ListsFields := by
  intro m object hProper
  rw [← hStandard.fields]
  exact hReorders.fields m object hProper

namespace Heap

variable {rt rt' : Runtime}
variable {h k : Heap}
variable {nursery mature : Belt}
variable {old young : List Nat}
variable {kind : Collection.Kind}

/- The root slots are the same. -/
theorem Alike.rootSlots
    (hAlike : h.Alike k)
    (hReorders : rt.Reorders rt') :
    k.rootSlots rt' = h.rootSlots rt := by
  have hRoots : k.roots = h.roots :=
    hAlike.reads (f := Heap.roots) fun _ _ => rfl
  unfold Heap.rootSlots
  rw [hRoots]
  apply Slot.sortUnique_congr
  intro s
  rw [List.mem_append, List.mem_append, hReorders.reports]

/- Cards are scanned alike. -/
theorem Alike.scannable
    (hAlike : h.Alike k)
    (hScan : Scannable h nursery mature old) :
    Scannable k nursery mature old := by
  have hMemory := hAlike.memory
  have hSize : Object.size k.memory = Object.size h.memory :=
    funext hMemory.load
  have hTiles :
      Object.Tiles k.memory mature.mark mature.start old :=
    hScan.oldTiles.congr fun o _ =>
      ⟨hMemory.load o, hMemory.load _⟩
  have hFirsts : k.firstObjects = h.firstObjects :=
    hAlike.reads (f := Heap.firstObjects) fun _ _ => rfl
  refine ⟨?_, hTiles, ?_⟩
  · have hShape := hScan.shape
    rw [hAlike.rest]
    exact
      ⟨hShape.layout, hShape.fits, hShape.cards, hShape.starts,
        hShape.sameCards, hShape.regions⟩
  · rw [hFirsts, hSize]
    exact hScan.firsts

/- The slots on dirty cards are listed in some order. -/
theorem Alike.dirtySlots
    (hAlike : h.Alike k)
    (hScan : Scannable h nursery mature old)
    (hLists : rt'.ListsFields) :
    (k.cards.dirtyCards.flatMap fun card =>
        (k.listedSlots rt' old).filter
          (k.cardSpan card).contains).Perm
      ((h.matureSlots old).filter h.cards.onDirtyCard) := by
  have hTiles := (hAlike.scannable hScan).oldTiles
  have hCards : k.cards = h.cards :=
    hAlike.reads (f := Heap.cards) fun _ _ => rfl
  have hSpan : k.cardSpan = h.cardSpan :=
    hAlike.reads (f := Heap.cardSpan) fun _ _ => rfl
  have hListed :
      (k.listedSlots rt' old).Perm (h.matureSlots old) := by
    have hSlots :=
      hLists.flatMap fun o ho => (hTiles.mem ho).1
    have hFields :
        Object.fields k.memory = Object.fields h.memory :=
      funext hAlike.memory.fields
    rw [hFields] at hSlots
    exact hSlots
  rw [hCards, hSpan, ← hScan.flatMap_dirtyCards]
  exact
    List.Perm.flatMap_left _ fun card _ => hListed.filter _

end Heap

------------------------------------------------------------
-- Survivors
------------------------------------------------------------

namespace Collection

variable {rt rt' : Runtime}
variable {m n : Memory}
variable {spans : List Span}
variable {seeds others : List Nat}

/- Where the same objects are reachable, the same are found. -/
theorem findLive_perm
    (hSame : m.Same n)
    (hReach :
      ∀ o,
        Reachable rt' n spans others o ↔
          Reachable rt m spans seeds o) :
    (findLive rt m spans seeds).Perm
      (findLive rt' n spans others) := by
  have hSize : Object.size n = Object.size m :=
    funext hSame.load
  rw [findLive_eq_sized, @findLive_eq_sized rt', hSize]
  refine List.Perm.map _ ?_
  rw [List.perm_ext_iff_of_nodup nodup_findLive nodup_findLive]
  intro o
  rw [mem_findLive_iff, mem_findLive_iff]
  exact (hReach o).symm

theorem place_congr
    {live found : List LiveObject}
    (hPerm : live.Perm found)
    (hNodup : (live.map Prod.fst).Nodup)
    (kind : Kind)
    (nursery mature : Belt) :
    place kind nursery mature found =
      place kind nursery mature live := by
  unfold place
  rw [inOrder_congr hPerm.symm hNodup]

end Collection

namespace Heap

namespace Sound

variable {rt rt' : Runtime}
variable {h k : Heap}
variable {nursery mature : Belt}
variable {old young : List Nat}
variable {kind : Collection.Kind}
variable {slots : List Slot}

/- The references of a survivor are listed in some order. -/
theorem references_perm
    (hSound : Sound rt h nursery mature old young)
    (hStandard : rt.Standard)
    (hReorders : rt.Reorders rt')
    (hAlike : h.Alike k)
    {source : Nat}
    (hSource : Survives rt h nursery mature kind old source) :
    (Collection.references rt' k.memory source).Perm
      (Collection.references rt h.memory source) := by
  have hProper :=
    hSound.proper
      (Collection.mem_of_emptied
        (hSound.emptied_of_survives hStandard hSource))
  have hFields :=
    hReorders.listsFields hStandard k.memory source
      (hAlike.memory.proper hProper)
  rw [hAlike.memory.fields, ← hStandard.fields] at hFields
  have hLoad : k.memory.load = h.memory.load :=
    funext hAlike.memory.load
  unfold Collection.references
  rw [hLoad]
  exact hFields.map _

/- The same objects survive in whatever order slots are listed. -/
theorem reachable_iff
    (hSound : Sound rt h nursery mature old young)
    (hStandard : rt.Standard)
    (hReorders : rt.Reorders rt')
    (hAlike : h.Alike k)
    (hSlots : (h.startSlots rt kind old).Perm slots)
    (object : Nat) :
    Collection.Reachable rt' k.memory
        (Collection.condemned kind nursery mature)
        (slots.map k.readSlot) object ↔
      Survives rt h nursery mature kind old object := by
  have hRead : k.readSlot = h.readSlot :=
    funext hAlike.readSlot
  have hSeeds (o : Nat) :
      o ∈ slots.map k.readSlot ↔
        o ∈ (h.startSlots rt kind old).map h.readSlot := by
    rw [hRead]
    exact (hSlots.map _).mem_iff.symm
  constructor
  · intro hReach
    induction hReach with
    | seed hSeed hNull hIn =>
        exact .seed ((hSeeds _).mp hSeed) hNull hIn
    | step _ hRef hNull hIn ih =>
        have hRefs :=
          hSound.references_perm hStandard hReorders hAlike ih
        exact .step ih (hRefs.mem_iff.mp hRef) hNull hIn
  · intro hReach
    induction hReach with
    | seed hSeed hNull hIn =>
        exact .seed ((hSeeds _).mpr hSeed) hNull hIn
    | step hSource hRef hNull hIn ih =>
        have hRefs :=
          hSound.references_perm hStandard hReorders hAlike
            hSource
        exact .step ih (hRefs.mem_iff.mpr hRef) hNull hIn

end Sound

end Heap

------------------------------------------------------------
-- Starting
------------------------------------------------------------

namespace HeapM

open Heap

variable {rt rt' : Runtime}
variable {h : Heap}
variable {nursery mature : Belt}
variable {old young : List Nat}
variable {kind : Collection.Kind}

theorem agree_findRootSlots
    (hReorders : rt.Reorders rt') :
    Agree Eq (findRootSlots rt) (findRootSlots rt') h := by
  refine agree_known yields_noteScan (uniform_noteScan h) ?_
  refine agree_of_quiet (quiet_reading _) fun k hAlike => ?_
  exact
    ⟨_, _, quiet_reading _, (hAlike.rootSlots hReorders).symm,
      hAlike⟩

theorem agree_findStartSlots
    (hStandard : rt.Standard)
    (hReorders : rt.Reorders rt')
    (hSound : Sound rt h nursery mature old young) :
    Agree List.Perm (findStartSlots rt kind)
      (findStartSlots rt' kind) h := by
  have hScan := hSound.scannable
  have hLists := hReorders.listsFields hStandard
  have hRemembered :
      Agree List.Perm (rememberedSlots rt) (rememberedSlots rt')
        h := by
    refine agree_of_quiet
      (hScan.quiet_rememberedSlots hStandard)
      fun k hAlike => ?_
    exact
      ⟨_, _, (hAlike.scannable hScan).quiet_dirtySlots hLists,
        (hAlike.dirtySlots hScan hLists).symm, hAlike⟩
  have hRoots :
      Yields (findRootSlots rt) h (.ok (h.rootSlots rt)) h :=
    yields_bind yields_noteScan (yields_reading _)
  unfold findStartSlots
  refine agree_known hRoots (agree_findRootSlots hReorders) ?_
  by_cases hMinor : kind = .minor
  · rw [if_pos hMinor, if_pos hMinor]
    refine agree_after
      (hScan.quiet_rememberedSlots hStandard).yields hRemembered
      fun other hPerm => ?_
    dsimp only
    rw [← hPerm.length_eq]
    refine agree_report rfl ?_
    exact agree_pure ((hPerm.map _).append_left _)
  · rw [if_neg hMinor, if_neg hMinor]
    refine agree_known (yields_pure []) (uniform_pure [] h) ?_
    exact agree_report rfl (agree_pure (.refl _))

theorem agree_findSurvivors
    (hStandard : rt.Standard)
    (hReorders : rt.Reorders rt')
    (hSound : Sound rt h nursery mature old young)
    {slots : List Slot}
    (hSlots : (h.startSlots rt kind old).Perm slots) :
    Agree List.Perm
      (findSurvivors rt
        (Collection.condemned kind nursery mature)
        (h.startSlots rt kind old))
      (findSurvivors rt'
        (Collection.condemned kind nursery mature) slots) h := by
  refine agree_of_quiet (quiet_reading _) fun k hAlike => ?_
  refine ⟨_, _, quiet_reading _, ?_, hAlike⟩
  exact
    Collection.findLive_perm hAlike.memory
      (hSound.reachable_iff hStandard hReorders hAlike hSlots)

------------------------------------------------------------
-- Passes
------------------------------------------------------------

theorem agree_forwardSlots
    (hReorders : rt.Reorders rt')
    {found : List Nat}
    {slots others : List Slot}
    {moves : List Collection.Move}
    (hMove :
      Relocation rt h nursery mature old young kind found slots
        moves)
    (hSlots : slots.Perm others) :
    Agree Eq (forwardSlots rt slots moves)
      (forwardSlots rt' others moves) h := by
  refine agree_of_quiet (quiet_forwardedAll hMove)
    fun k hAlike => ?_
  have hFields :
      Slot.ofObjects k.memory = Slot.ofObjects h.memory := by
    funext objects
    unfold Slot.ofObjects
    rw [funext hAlike.memory.fields]
  have hAll :
      (forwardable k others moves).Perm
        (forwardable h slots moves) := by
    unfold forwardable
    rw [hFields]
    exact hSlots.symm.append_right _
  rcases quiet_forwardSlots
      (hReorders.listsFields hMove.standard)
      (fun o ho => hAlike.memory.proper (proper_sources hMove o ho))
      (fun o ho s hs =>
        off_headers hMove o ho s (hAll.mem_iff.mp hs)) with
    ⟨all, hPerm, -, hQuiet⟩
  have hApart := hMove.survey.apart
  have hBoth := hPerm.trans hAll
  unfold forwardable at hBoth
  rw [hMove.routes.map_source] at hBoth
  exact
    ⟨(), _, hQuiet, rfl, hAlike.forwardedAll hBoth hApart⟩

/- A pass comes to the same for both. -/
theorem agree_runCollection
    (kind : Collection.Kind)
    (hStandard : rt.Standard)
    (hReorders : rt.Reorders rt')
    (hSound : Sound rt h nursery mature old young)
    (hAllowed : Collection.Allowed kind young) :
    Agree Eq (runCollection rt kind) (runCollection rt' kind)
      h := by
  unfold runCollection
  refine agree_read (fun _ _ => rfl) ?_
  refine agree_read (fun _ _ => rfl) ?_
  rw [hSound.shape.nursery_eq, hSound.shape.mature_eq]
  refine agree_report rfl ?_
  refine agree_after (yields_findStartSlots hSound hStandard)
    (agree_findStartSlots hStandard hReorders hSound)
    fun slots hSlots => ?_
  refine agree_after (yields_reading _)
    (agree_findSurvivors hStandard hReorders hSound hSlots)
    fun live hLive => ?_
  rw [Collection.place_congr hLive Collection.nodup_findLive,
    ← hLive.length_eq]
  rcases place_cases kind hStandard hSound hAllowed with
    ⟨found, -, -, ⟨shortfall, hPlace, -⟩ |
      ⟨plan, hPlace, hMove, -⟩⟩
  · exact agree_computed hPlace (uniform_pure _ h)
  · refine agree_computed hPlace ?_
    refine agree_report rfl ?_
    refine agree_then
      (agree_forwardSlots hReorders hMove hSlots) fun _ => ?_
    refine uniform_bind (uniform_moveObjects _) fun _ => ?_
    exact
      uniform_bind (uniform_settle _ _ _) fun _ =>
        uniform_pure _

------------------------------------------------------------
-- Whole Collections
------------------------------------------------------------

theorem agree_promoteSurvivors
    (hStandard : rt.Standard)
    (hReorders : rt.Reorders rt')
    (hSound : Sound rt h nursery mature old young) :
    Agree Eq (promoteSurvivors rt) (promoteSurvivors rt') h := by
  have hMinor :=
    agree_runCollection .minor hStandard hReorders hSound
      fun hKind => nomatch hKind
  unfold promoteSurvivors
  rcases yields_runCollection .minor hStandard hSound
      (fun hKind => nomatch hKind) with
    ⟨shortfall, -, hFail, -⟩ | ⟨g, _, _, _, _, _, _, hRun, -⟩
  · refine agree_known hFail hMinor ?_
    refine agree_report rfl ?_
    refine agree_write (fun _ _ => rfl) ?_
    exact
      agree_runCollection .fullHeap hStandard hReorders
        (sameObjects_escalated.sound hSound)
        fun hKind => nomatch hKind
  · exact agree_known hRun hMinor (uniform_pure _ g)

theorem agree_minorCollect
    (bytes : Nat)
    (hStandard : rt.Standard)
    (hReorders : rt.Reorders rt')
    (hSound : Sound rt h nursery mature old young) :
    Agree Eq (minorCollect rt bytes) (minorCollect rt' bytes)
      h := by
  unfold minorCollect
  refine agree_read (fun _ _ => rfl) ?_
  cases h.outOfMemory with
  | true => exact agree_report rfl (uniform_pure false h)
  | false =>
      refine agree_known yields_beginEpoch
        (uniform_beginEpoch h) ?_
      refine agree_write (fun _ _ => rfl) ?_
      refine agree_write (fun _ _ => rfl) ?_
      refine agree_then
        (agree_promoteSurvivors hStandard hReorders
          (hSound.counted hStandard countMinor).sound)
        fun outcome => ?_
      refine uniform_bind (uniform_concludeMinor _ _) fun _ => ?_
      refine uniform_bind uniform_publishRegions fun _ => ?_
      refine uniform_bind uniform_finishEpoch fun _ => ?_
      exact uniform_reading fun _ _ => rfl

theorem agree_majorCollect
    (bytes : Nat)
    (hStandard : rt.Standard)
    (hReorders : rt.Reorders rt')
    (hSound : Sound rt h nursery mature old []) :
    Agree Eq (majorCollect rt bytes) (majorCollect rt' bytes)
      h := by
  unfold majorCollect
  refine agree_read (fun _ _ => rfl) ?_
  cases h.outOfMemory with
  | true => exact uniform_pure false h
  | false =>
      refine agree_known yields_beginEpoch
        (uniform_beginEpoch h) ?_
      refine agree_write (fun _ _ => rfl) ?_
      refine agree_write (fun _ _ => rfl) ?_
      refine agree_then
        (agree_runCollection .major hStandard hReorders
          (hSound.counted hStandard countMajor).sound
          fun _ => rfl)
        fun outcome => ?_
      refine uniform_bind (uniform_concludeMajor _ _) fun _ => ?_
      refine uniform_bind (uniform_checkMatureRoom _) fun _ => ?_
      refine uniform_bind uniform_publishRegions fun _ => ?_
      refine uniform_bind uniform_finishEpoch fun _ => ?_
      exact uniform_reading fun _ _ => rfl

theorem agree_collectGarbage
    (bytes : Nat)
    (hStandard : rt.Standard)
    (hReorders : rt.Reorders rt')
    (hSound : Sound rt h nursery mature old young) :
    Agree Eq (collectGarbage rt bytes) (collectGarbage rt' bytes)
      h := by
  have hMinor :=
    agree_minorCollect bytes hStandard hReorders hSound
  have hEnd (success : Bool) :
      Uniform
        (do
          clearCards
          pure success) :=
    uniform_bind uniform_clearCards fun _ => uniform_pure success
  unfold collectGarbage
  cases hLatched : h.outOfMemory with
  | true =>
      refine agree_known (yields_minorCollect_latched hLatched)
        hMinor ?_
      exact agree_read (fun _ _ => rfl) (hEnd false h)
  | false =>
      rcases yields_minorCollect bytes hStandard hSound
          hLatched with
        ⟨success, k, _, _, _, _, hRun, hCollects⟩
      have hFirst := (hCollects.follows hStandard hSound).1.sound
      refine agree_known hRun hMinor ?_
      refine agree_read (fun _ _ => rfl) ?_
      by_cases hHalf : (success && matureIsHalfFull k) = true
      · rw [Bool.and_eq_true] at hHalf
        rcases hHalf with ⟨rfl, hFull⟩
        rcases hCollects.of_success with ⟨rfl, -, -⟩
        rw [hFull]
        refine agree_read (fun _ _ => rfl) ?_
        refine agree_report rfl ?_
        exact
          agree_then
            (agree_majorCollect bytes hStandard hReorders hFirst)
            hEnd
      · rw [Bool.not_eq_true] at hHalf
        rw [hHalf]
        exact hEnd success k

theorem agree_collect
    (bytes : Nat)
    (hStandard : rt.Standard)
    (hReorders : rt.Reorders rt')
    (hSound : Sound rt h nursery mature old young) :
    Agree Eq (collect rt bytes) (collect rt' bytes) h := by
  unfold collect Executor.execute
  rw [if_neg (by decide)]
  refine agree_report rfl ?_
  refine agree_then
    (agree_collectGarbage bytes hStandard hReorders hSound)
    fun success => ?_
  exact uniform_report (uniform_pure success)

end HeapM

end BeltHeap
