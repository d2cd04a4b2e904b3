import BeltHeap.Heap.Mutating
import BeltHeap.Proofs.Arranging
import BeltHeap.Proofs.Keeping

/-
  Belts that keep their places.  Allocations, stores and
  collections bump marks, empty belts and swap roles, but leave
  every belt where it is, even where they break off, and publish
  nothing.

  Main declarations:
    * `Heap.Chart`, `Heap.Charted`
    * `Heap.Charted.beltOf`, `Heap.Charted.setBelt`
    * `HeapM.charted_runCollection`
    * `HeapM.charted_allocateMature`
    * `HeapM.charted_writeReference`
-/

------------------------------------------------------------
-- Charts
------------------------------------------------------------

namespace BeltHeap

/- Where a belt is: its index and its addresses. -/
def Belt.place (b : Belt) : Nat × Span :=
  (b.index, b.span)

/-
  Where the belts of a heap are, what is published, and which
  regions the runtime registered.
-/
structure Heap.Chart where
  places : List (Nat × Span)
  info : HeapInfo
  regions : List MemoryRegion

/- A proper belt that is where the chart has one of its index. -/
structure Belt.Charted
    (c : Heap.Chart)
    (b : Belt) : Prop where
  proper : b.Proper
  place : c.places[b.index]? = some b.place

/-
  The two belts of a heap are arranged, and all is as charted.
  Their roles satisfy a condition.
-/
structure Heap.Charted
    (c : Heap.Chart)
    (R : Array Nat → Prop)
    (h : Heap) : Prop where
  arranged : h.layout.Arranged
  pair : h.layout.belts.size = 2
  places : h.layout.belts.toList.map Belt.place = c.places
  roles : R h.layout.roles
  info : h.info = c.info
  regions : h.runtimeRegions = c.regions

------------------------------------------------------------
-- Charted Belts
------------------------------------------------------------

namespace Belt.Charted

variable {c : Heap.Chart}
variable {b d : Belt}

/- Only the index and the bounds make out where a belt is. -/
theorem moved
    (hBelt : b.Charted c)
    (hPlace : d.place = b.place)
    (hProper : d.Proper) :
    d.Charted c := by
  refine ⟨hProper, ?_⟩
  have hIndex : d.index = b.index := congrArg Prod.fst hPlace
  rw [hIndex, hPlace]
  exact hBelt.place

/- A belt whose mark is bumped stays where it is. -/
theorem bump
    {size object : Nat}
    (hBelt : b.Charted c)
    (hBump : b.bump size = .ok (some (object, d))) :
    d.Charted c := by
  unfold Belt.bump at hBump
  rcases bind_eq_ok hBump with ⟨mark, hMark, hBump⟩
  rcases Word.eq_of_add hMark with ⟨rfl, -⟩
  split at hBump
  · rename_i hFits
    cases hBump
    exact
      hBelt.moved rfl
        ⟨Nat.le_add_right_of_le hBelt.proper.low, hFits,
          hBelt.proper.filled⟩
  · cases hBump

theorem setMark
    {mark : Nat}
    (hBelt : b.Charted c)
    (hMark : b.setMark mark = .ok d) :
    d.Charted c := by
  unfold Belt.setMark at hMark
  split at hMark
  · rename_i hIn
    cases hMark
    exact hBelt.moved rfl ⟨hIn.1, hIn.2, hBelt.proper.filled⟩
  · cases hMark

theorem emptied
    (hBelt : b.Charted c) :
    b.emptied.Charted c :=
  hBelt.moved rfl
    ⟨Nat.le_refl _, Nat.le_of_lt hBelt.proper.filled,
      hBelt.proper.filled⟩

/- Whether a belt may grow has nothing to do with its place. -/
theorem withExpandable
    (hBelt : b.Charted c)
    (expandable : Bool) :
    Belt.Charted c { b with expandable } :=
  hBelt.moved rfl
    ⟨hBelt.proper.low, hBelt.proper.high, hBelt.proper.filled⟩

end Belt.Charted

------------------------------------------------------------
-- Charted Heaps
------------------------------------------------------------

theorem Layout.Arranged.size_roles
    {l : Layout}
    (hArranged : l.Arranged) :
    l.roles.size = l.belts.size :=
  hArranged.roles.size_eq.trans Array.size_range

/- A belt is found in the role that it plays. -/
theorem Layout.Arranged.beltOf_eq
    {h : Heap}
    {role : Nat}
    (hArranged : h.layout.Arranged)
    (hRole : role < h.layout.belts.size) :
    h.beltOf role ∈ h.layout.belts ∧
      h.layout.belt role = .ok (h.beltOf role) := by
  rw [← hArranged.size_roles] at hRole
  rcases hArranged.belt_eq hRole with ⟨b, hMem, hAt, hBelt⟩
  have hSame : h.beltOf role = b := by
    unfold Heap.beltOf
    rw [Array.getD_eq_getD_getElem?, Array.getD_eq_getD_getElem?,
      Array.getElem?_eq_getElem hRole, Option.getD_some, hAt,
      hArranged.getElem?_index hMem, Option.getD_some]
  rw [hSame]
  exact ⟨hMem, hBelt⟩

/- Remembered marks leave a row of belts where it is. -/
theorem Belt.Row.takeSnapshot
    {stop index start : Nat}
    {belts : List Belt}
    (hRow : Row stop index start belts) :
    Row stop index start (belts.map Belt.takeSnapshot) := by
  have hStands :
      ∀ {b : Belt} {i s : Nat}, b.Stands i s →
        b.takeSnapshot.Stands i s := fun hStands =>
    ⟨hStands.index, hStands.start,
      ⟨hStands.proper.low, hStands.proper.high,
        hStands.proper.filled⟩⟩
  induction hRow with
  | last hFirst hStop => exact .last (hStands hFirst) hStop
  | cons hFirst hPages _ ih =>
      exact .cons (hStands hFirst) hPages ih

namespace Heap.Charted

variable {c : Heap.Chart}
variable {R : Array Nat → Prop}
variable {h g : Heap}
variable {b : Belt}

/- The belt that plays a role is charted. -/
theorem beltOf
    (hCharted : Charted c R h)
    {role : Nat}
    (hRole : role < 2) :
    (h.beltOf role).Charted c := by
  rw [← hCharted.pair] at hRole
  have hMem := (hCharted.arranged.beltOf_eq hRole).1
  refine ⟨(hCharted.arranged.mem hMem).1, ?_⟩
  rw [← hCharted.places, List.getElem?_map,
    Array.getElem?_toList, hCharted.arranged.getElem?_index hMem]
  rfl

/- Only the layout and what is published matter. -/
theorem aside
    (hCharted : Charted c R h)
    (hLayout : g.layout = h.layout)
    (hInfo : g.info = h.info)
    (hRegions : g.runtimeRegions = h.runtimeRegions) :
    Charted c R g := by
  constructor
  · rw [hLayout]
    exact hCharted.arranged
  · rw [hLayout]
    exact hCharted.pair
  · rw [hLayout]
    exact hCharted.places
  · rw [hLayout]
    exact hCharted.roles
  · exact hInfo.trans hCharted.info
  · exact hRegions.trans hCharted.regions

/- Memory that changes. -/
theorem mapMemory
    (hCharted : Charted c R h)
    (f : Memory → Memory) :
    Charted c R (h.mapMemory f) :=
  hCharted.aside rfl rfl rfl

/- A slot that is written. -/
theorem writeSlot
    (hCharted : Charted c R h)
    (s : Slot)
    (object : Nat) :
    Charted c R (h.writeSlot s object) := by
  cases s <;> exact hCharted.aside rfl rfl rfl

/- A belt may be put where one of its index is. -/
theorem setBelt
    (hCharted : Charted c R h)
    (hBelt : b.Charted c) :
    Charted c R (h.setBelt b) := by
  have hPlace := hBelt.place
  rw [← hCharted.places, List.getElem?_map, Option.map_eq_some_iff]
    at hPlace
  rcases hPlace with ⟨old, hOld, hSame⟩
  have hSpan : b.span = old.span :=
    (congrArg Prod.snd hSame).symm
  have hIndex : b.index = old.index :=
    (congrArg Prod.fst hSame).symm
  rw [Array.getElem?_toList, hIndex] at hOld
  refine
    ⟨hCharted.arranged.changes
        (.replaced hOld hIndex hSpan hBelt.proper), ?_, ?_,
      hCharted.roles, hCharted.info, hCharted.regions⟩
  · exact Array.size_setIfInBounds.trans hCharted.pair
  · change ((h.layout.belts.setIfInBounds b.index b).toList).map
      Belt.place = _
    rw [Array.toList_setIfInBounds, List.map_set,
      hCharted.places]
    rcases List.getElem?_eq_some_iff.mp hBelt.place with
      ⟨hLt, hAt⟩
    rw [← hAt]
    exact List.set_getElem_self hLt

/- Marks that are remembered. -/
theorem snapshot
    (hCharted : Charted c R h) :
    Charted c R
      { h with
        layout :=
          { h.layout with
            belts := h.layout.belts.map Belt.takeSnapshot } } := by
  have hArranged := hCharted.arranged
  have hSize :
      (h.layout.belts.map Belt.takeSnapshot).size =
        h.layout.belts.size :=
    Array.size_map
  refine
    ⟨⟨?_, ?_, hArranged.below⟩, hSize.trans hCharted.pair, ?_,
      hCharted.roles, hCharted.info, hCharted.regions⟩
  · change Belt.Row _ 0 _ (h.layout.belts.map _).toList
    rw [Array.toList_map]
    exact hArranged.row.takeSnapshot
  · change h.layout.roles.Perm (Array.range (Array.map _ _).size)
    rw [hSize]
    exact hArranged.roles
  · change ((h.layout.belts.map _).toList).map Belt.place = _
    rw [Array.toList_map, List.map_map]
    exact hCharted.places

end Heap.Charted

------------------------------------------------------------
-- Allocations and Stores
------------------------------------------------------------

namespace HeapM

open Heap

variable {rt : Runtime}
variable {c : Chart}
variable {R : Array Nat → Prop}
variable {g : Heap}
variable {kind : Collection.Kind}
variable {destination : Collection.Destination}
variable {moves : List Collection.Move}

/- Bumping the mark of a belt. -/
theorem charted_allocateIn
    {role : Nat}
    (hRole : role < 2)
    (size : Nat) :
    Keeps (Charted c R) (allocateIn role size)
      fun _ => True := by
  unfold allocateIn Belt.allocate
  refine keeps_read fun h hCharted => ?_
  have hBelt := hCharted.beltOf hRole
  have hAllocate :
      Keeps (Charted c R)
        ((h.beltOf role).allocate size :
          HeapM (Option (Nat × Belt)))
        fun r => ∀ object b, r = some (object, b) →
          b.Charted c := by
    refine keeps_computed fun bumped hBump => ?_
    cases bumped with
    | none => exact keeps_report (keeps_pure nofun)
    | some r =>
        refine keeps_pure ?_
        rintro object b ⟨⟩
        exact hBelt.bump hBump
  refine keeps_bind hAllocate fun bumped hBumped => ?_
  cases bumped with
  | none => exact keeps_done _
  | some r =>
      exact
        keeps_write (fun _ hOther => hOther.setBelt
          (hBumped r.1 r.2 rfl)) (keeps_done _)

/- Noting an object of the mature belt. -/
theorem charted_recordObject
    (start size : Nat) :
    Keeps (Charted c R) (recordObject start size)
      fun _ => True :=
  keeps_read fun _ _ => keeps_computed fun _ _ =>
    keeps_update fun _ hOther => hOther.aside rfl rfl rfl

/- Allocating in the mature belt. -/
theorem charted_allocateMature
    (size : Nat) :
    Keeps (Charted c R) (allocateMature size)
      fun _ => True := by
  refine keeps_bind
    (charted_allocateIn (by decide) _) fun object? _ => ?_
  cases object? with
  | none => exact keeps_done _
  | some object =>
      exact
        keeps_bind (charted_recordObject _ _) fun _ _ =>
          keeps_done _

/- Storing a reference. -/
theorem charted_writeReference
    (source offset target : Nat) :
    Keeps (Charted c R) (writeReference source offset target)
      fun _ => True := by
  unfold writeReference noteStore dirtyCardOf
  refine keeps_computed fun slot _ => ?_
  refine keeps_write (fun _ hOther => hOther.writeSlot _ _) ?_
  split
  · exact keeps_done _
  · refine keeps_read fun h _ => ?_
    split
    · refine keeps_read fun _ _ => keeps_computed fun _ _ => ?_
      exact
        keeps_update fun _ hOther => hOther.aside rfl rfl rfl
    · exact keeps_done _

/- Putting an object behind a new handle. -/
theorem charted_addRoot
    (object : Nat) :
    Keeps (Charted c R) (addRoot object) fun _ => True := by
  unfold addRoot
  refine keeps_read fun h _ => ?_
  split
  · exact
      keeps_write (fun _ hOther => hOther.aside rfl rfl rfl)
        (keeps_done _)
  · exact keeps_read fun _ _ => keeps_report (keeps_done _)

/- Reading a handle. -/
theorem charted_getRoot
    (handle : Nat) :
    Keeps (Charted c R) (getRoot handle) fun _ => True :=
  keeps_read fun _ _ => keeps_lift fun _ _ => trivial

/- Putting another object behind a handle. -/
theorem charted_setRoot
    (handle object : Nat) :
    Keeps (Charted c R) (setRoot handle object)
      fun _ => True :=
  keeps_bind (charted_getRoot _) fun _ _ =>
    keeps_update fun _ hOther => hOther.writeSlot _ _

/- Giving up a handle. -/
theorem charted_removeRoot
    (handle : Nat) :
    Keeps (Charted c R) (removeRoot handle) fun _ => True := by
  unfold removeRoot
  refine keeps_bind (charted_setRoot _ _) fun _ _ => ?_
  refine keeps_read fun h _ => ?_
  split
  · exact keeps_throw _
  · exact keeps_update fun _ hOther => hOther.aside rfl rfl rfl

------------------------------------------------------------
-- Passes over the Heap
------------------------------------------------------------

/- Scanning cards. -/
theorem charted_slotsOnCards
    (cards : List Nat) :
    Keeps (Charted c R) (slotsOnCards rt cards)
      fun _ => True := by
  induction cards with
  | nil => exact keeps_done _
  | cons card cards ih =>
      unfold slotsOnCards
      refine keeps_read fun h _ => ?_
      refine keeps_computed fun scan _ => ?_
      have hRest (slots : List Nat) :
          Keeps (Charted c R)
            (do
              let rest ← slotsOnCards rt cards
              pure (slots ++ rest))
            fun _ => True :=
        keeps_bind ih fun _ _ => keeps_done _
      cases scan with
      | unused => exact hRest []
      | noObject start => exact keeps_report (hRest [])
      | slots found => exact hRest found

/- Finding the slots that a collection starts from. -/
theorem charted_findStartSlots :
    Keeps (Charted c R) (findStartSlots rt kind)
      fun _ => True := by
  have hRemembered :
      Keeps (Charted c R) (rememberedSlots rt) fun _ => True :=
    keeps_read fun _ _ => charted_slotsOnCards _
  have hRoots :
      Keeps (Charted c R) (findRootSlots rt) fun _ => True :=
    keeps_bind keeps_noteScan fun _ _ =>
      keeps_reading fun _ _ => trivial
  unfold findStartSlots
  refine keeps_bind hRoots fun roots _ => ?_
  split
  · exact
      keeps_bind hRemembered fun _ _ =>
        keeps_report (keeps_done _)
  · exact
      keeps_bind (keeps_done _) fun _ _ =>
        keeps_report (keeps_done _)

/- Forwarding a slot. -/
theorem charted_forwardSlot
    {moved : Std.HashMap Nat Nat}
    (s : Slot) :
    Keeps (Charted c R) (forwardSlot moved s)
      fun _ => True := by
  unfold forwardSlot
  refine keeps_read fun h _ => ?_
  split
  · exact keeps_update fun _ hOther => hOther.writeSlot _ _
  · exact keeps_done _

/- Forwarding all slots and survivors. -/
theorem charted_forwardSlots
    (slots : List Slot) :
    Keeps (Charted c R) (forwardSlots rt slots moves)
      fun _ => True := by
  unfold forwardSlots forwardFields
  refine keeps_bind
    (keeps_forM fun s _ => charted_forwardSlot s) fun _ _ => ?_
  refine keeps_forM fun m _ => ?_
  refine keeps_read fun h _ => ?_
  exact keeps_forM fun a _ => charted_forwardSlot _

/- Copying survivors. -/
theorem charted_moveObjects :
    Keeps (Charted c R) (moveObjects moves) fun _ => True := by
  refine keeps_forM fun m _ => ?_
  split
  · exact keeps_done _
  · exact keeps_update fun _ hOther => hOther.mapMemory _

/- Setting the mark of a belt. -/
theorem charted_setMark
    {b : Belt}
    (hBelt : b.Charted c)
    (mark : Nat) :
    Keeps (Charted c R) (setMark b mark) fun _ => True :=
  keeps_computed fun _ hMark =>
    keeps_update fun _ hOther =>
      hOther.setBelt (hBelt.setMark hMark)

/- Emptying a belt. -/
theorem charted_resetBelt
    {b : Belt}
    (hBelt : b.Charted c) :
    Keeps (Charted c R) (resetBelt b) fun _ => True :=
  keeps_write (fun _ hOther => hOther.mapMemory _)
    (keeps_update fun _ hOther => hOther.setBelt hBelt.emptied)

/- Forgetting objects. -/
theorem charted_forgetObjects
    (s : Span) :
    Keeps (Charted c R) (forgetObjects s) fun _ => True :=
  keeps_read fun _ _ => keeps_computed fun _ _ =>
    keeps_update fun _ hOther => hOther.aside rfl rfl rfl

/- Noting the survivors. -/
theorem charted_recordSurvivors :
    Keeps (Charted c R) (recordSurvivors moves)
      fun _ => True := by
  refine keeps_forM fun m _ => ?_
  refine keeps_read fun h _ => ?_
  split
  · exact charted_recordObject _ _
  · exact keeps_throw _

------------------------------------------------------------
-- Collections
------------------------------------------------------------

/- No condition on roles. -/
abbrev Unassigned : Array Nat → Prop :=
  fun _ => True

/- Roles that were swapped are roles of the same belts. -/
theorem charted_swap
    {l : Layout}
    {h : Heap}
    (hCharted : Charted c Unassigned h)
    (hSwap : h.layout.swapped Role.nursery Role.mature = .ok l)
    (hOther : Charted c Unassigned g) :
    Charted c Unassigned { g with layout := l } := by
  rcases bind_eq_ok hSwap with ⟨first, hFirst, hRest⟩
  rcases bind_eq_ok hRest with ⟨second, hSecond, hRest⟩
  have hSettles :=
    Layout.settles_swap (l := h.layout) Role.nursery Role.mature
      ⟨{}, {}⟩
  unfold Layout.swap at hSettles
  rw [hFirst, hSecond, hSwap] at hSettles
  rcases hSettles with ⟨-, r, t, hRun, hChanges⟩ | ⟨-, f, t, hRun⟩
  · cases hRun
    have hArranged := hCharted.arranged.changes hChanges
    cases hRest
    exact
      ⟨hArranged, hCharted.pair, hCharted.places, trivial,
        hOther.info, hOther.regions⟩
  · cases hRun

/- Swapping the roles. -/
theorem charted_swapRoles :
    Keeps (Charted c Unassigned) swapRoles fun _ => True := by
  have hSet (expandable : Bool) :
      Keeps (Charted c Unassigned)
        (setMatureExpandable expandable) fun _ => True := by
    refine keeps_read fun h hCharted => ?_
    have hMature : h.mature.Charted c :=
      hCharted.beltOf (by decide)
    exact
      keeps_update fun _ hOther =>
        hOther.setBelt (hMature.withExpandable expandable)
  unfold swapRoles
  refine keeps_read fun _ _ => ?_
  refine keeps_bind (hSet _) fun _ _ => ?_
  refine keeps_read fun h hCharted => ?_
  have hSwap :
      Keeps (Charted c Unassigned)
        (h.layout.swap Role.nursery Role.mature : HeapM Layout)
        fun l => ∀ g, Charted c Unassigned g →
          Charted c Unassigned { g with layout := l } :=
    keeps_computed fun _ _ => keeps_computed fun _ _ =>
      keeps_report (keeps_lift fun _ hSwapped _ hOther =>
        charted_swap hCharted hSwapped hOther)
  refine keeps_bind hSwap fun l hSwapped => ?_
  exact keeps_write hSwapped (hSet _)

/- Bringing marks and roles in line with moved survivors. -/
theorem charted_settleBelts :
    Keeps (Charted c Unassigned)
      (settleBelts kind destination moves) fun _ => True := by
  unfold settleBelts
  refine keeps_read fun h hCharted => ?_
  have hNursery : h.nursery.Charted c :=
    hCharted.beltOf (by decide)
  refine keeps_read fun g hOther => ?_
  have hMature : g.mature.Charted c :=
    hOther.beltOf (by decide)
  dsimp only
  cases destination with
  | appendToMature =>
      dsimp only
      split
      · exact
          keeps_bind (charted_setMark hMature _) fun _ _ =>
            charted_resetBelt hNursery
      · exact charted_resetBelt hNursery
  | evacuateToNursery =>
      refine keeps_bind (charted_forgetObjects _) fun _ _ => ?_
      refine keeps_bind (charted_setMark hNursery _) fun _ _ => ?_
      refine keeps_bind (charted_resetBelt hMature) fun _ _ => ?_
      exact charted_swapRoles
  | slideInMature =>
      have hMark :
          Keeps (Charted c Unassigned)
            (do
              setMark g.mature
                ((Collection.lastStop? moves).getD g.mature.start)
              if kind = .fullHeap then resetBelt h.nursery)
            fun _ => True := by
        refine keeps_bind (charted_setMark hMature _) fun _ _ => ?_
        split
        · exact charted_resetBelt hNursery
        · exact keeps_done _
      refine keeps_bind (charted_forgetObjects _) fun _ _ => ?_
      split
      · exact
          keeps_write (fun _ hOther => hOther.mapMemory _) hMark
      · exact hMark

/- Finishing a collection. -/
theorem charted_settle :
    Keeps (Charted c Unassigned) (settle kind destination moves)
      fun _ => True :=
  keeps_bind charted_settleBelts fun _ _ =>
    charted_recordSurvivors

/- Running a collection. -/
theorem charted_runCollection :
    Keeps (Charted c Unassigned) (runCollection rt kind)
      fun _ => True := by
  unfold runCollection findSurvivors
  refine keeps_read fun _ _ => keeps_read fun _ _ => ?_
  refine keeps_report ?_
  refine keeps_bind charted_findStartSlots fun slots _ => ?_
  refine keeps_read fun _ _ => ?_
  refine keeps_computed fun placed _ => ?_
  split
  · exact keeps_done _
  · refine keeps_report ?_
    refine keeps_bind (charted_forwardSlots _) fun _ _ => ?_
    refine keeps_bind charted_moveObjects fun _ _ => ?_
    exact keeps_bind charted_settle fun _ _ => keeps_done _

/- Promoting survivors. -/
theorem charted_promoteSurvivors :
    Keeps (Charted c Unassigned) (promoteSurvivors rt)
      fun _ => True := by
  unfold promoteSurvivors
  refine keeps_bind charted_runCollection fun outcome _ => ?_
  split
  · exact keeps_done _
  · refine keeps_report ?_
    exact
      keeps_write (fun _ hOther => hOther.aside rfl rfl rfl)
        charted_runCollection

/- Concluding a minor collection. -/
theorem charted_concludeMinor
    (epoch : Nat)
    (outcome :
      Except Collection.Shortfall Collection.Summary) :
    Keeps (Charted c R) (concludeMinor epoch outcome)
      fun _ => True := by
  unfold concludeMinor latchOutOfMemory
  split
  · refine keeps_write (fun _ hOther => hOther.aside rfl rfl rfl) ?_
    exact keeps_read fun _ _ => keeps_emit _
  · refine keeps_report ?_
    exact keeps_update fun _ hOther => hOther.aside rfl rfl rfl

/- Concluding a major one. -/
theorem charted_concludeMajor
    (epoch : Nat)
    (outcome :
      Except Collection.Shortfall Collection.Summary) :
    Keeps (Charted c R) (concludeMajor epoch outcome)
      fun _ => True := by
  unfold concludeMajor latchOutOfMemory
  split
  · exact keeps_read fun _ _ => keeps_emit _
  · refine keeps_report ?_
    exact keeps_update fun _ hOther => hOther.aside rfl rfl rfl

/- Checking the room in the mature belt. -/
theorem charted_checkMatureRoom
    (bytes : Nat) :
    Keeps (Charted c R) (checkMatureRoom bytes)
      fun _ => True := by
  unfold checkMatureRoom latchOutOfMemory
  refine keeps_read fun h _ => ?_
  split
  · refine keeps_report ?_
    exact keeps_update fun _ hOther => hOther.aside rfl rfl rfl
  · exact keeps_done _

/- Remembering the marks of all belts. -/
theorem charted_snapshotMarks :
    Keeps (Charted c R) snapshotMarks fun _ => True :=
  keeps_update fun _ hOther => hOther.snapshot

/- Making cards clean. -/
theorem charted_clearCards :
    Keeps (Charted c R) clearCards fun _ => True := by
  unfold clearCards
  refine keeps_read fun h _ => ?_
  split
  · exact keeps_update fun _ hOther => hOther.aside rfl rfl rfl
  · exact keeps_done _

end HeapM

end BeltHeap
