import Mathlib.Data.Finset.Card
import Mathlib.Data.Finset.Range
import Mathlib.Data.Finset.SDiff
import BeltHeap.Proofs.RootSlots

/-
  The root table as a bounded map from handles to references.
  Whatever is added, replaced and removed, and whatever a
  collection writes to the entries it visits, a table answers
  as the map does, and nothing that is done breaks off as long
  as only handles in use are named.

  Main declarations:
    * `HandleMap`, `HandleMap.Permits`, `HandleMap.Accepts`
    * `RootTable.Operation`, `RootTable.perform`
    * `RootTable.Represents`
    * `RootTable.Represents.perform`
    * `RootTable.Serves`, `RootTable.Serves.represents`
    * `RootTable.Serves.refines`
-/

------------------------------------------------------------
-- Operations
------------------------------------------------------------

namespace BeltHeap

namespace RootTable

/-
  What is done to a root table.  A collection puts an object of
  its own choice into each entry that it visits.
-/
inductive Operation where
  | add (object : Nat)
  | get (handle : Nat)
  | set (handle object : Nat)
  | remove (handle : Nat)
  | rewrite (objects : Nat → Nat)

/- What it is answered with. -/
inductive Answer where
  | handle (handle : Option Nat)
  | object (object : Nat)
  | visited (handles : List Nat)
  | done

/- The table with other references in some of its entries. -/
def rewritten
    (t : RootTable)
    (objects : Nat → Nat)
    (handles : List Nat) : RootTable :=
  handles.foldl (fun t handle => t.write handle (objects handle)) t

/- Carry out one operation on a table. -/
def carryOut
    (t : RootTable) : Operation → Activity Fault RootTable Answer
| .add object => do
    match ← t.add object with
    | some (handle, t) => do
        Activity.change fun _ => t
        pure (.handle handle)
    | none => pure (.handle none)
| .get handle => do
    let object ← t.get handle
    pure (.object object)
| .set handle object => do
    let t ← t.set handle object
    Activity.change fun _ => t
    pure .done
| .remove handle => do
    let t ← t.remove handle
    Activity.change fun _ => t
    pure .done
| .rewrite objects => do
    let handles := t.liveEntries
    Activity.change fun _ => t.rewritten objects handles
    pure (.visited handles)

/- Carry out one operation on the present table. -/
def perform
    (op : Operation) : Activity Fault RootTable Answer := do
  (← Activity.state).carryOut op

end RootTable

------------------------------------------------------------
-- Bounded Maps
------------------------------------------------------------

/-
  Handles in use, no more of them than the map has room for,
  and the reference behind each of them.
-/
structure HandleMap where
  capacity : Nat
  inUse : Finset Nat
  object : Nat → Nat

namespace HandleMap

open RootTable (Operation Answer)

/- A map without handles. -/
def empty (capacity : Nat) : HandleMap where
  capacity := capacity
  inUse := ∅
  object := fun _ => 0

/- The map with one more handle, or another object behind it. -/
def put
    (m : HandleMap)
    (handle object : Nat) : HandleMap :=
  { m with
    inUse := insert handle m.inUse
    object := Function.update m.object handle object }

/- The map with one handle less. -/
def erase
    (m : HandleMap)
    (handle : Nat) : HandleMap :=
  { m with inUse := m.inUse.erase handle }

/- Is there an object behind the handle, and not null? -/
def Live
    (m : HandleMap)
    (handle : Nat) : Prop :=
  handle ∈ m.inUse ∧ m.object handle ≠ 0

/- An operation may only name handles in use. -/
def Permits
    (m : HandleMap) : Operation → Prop
| .get handle => handle ∈ m.inUse
| .set handle _ => handle ∈ m.inUse
| .remove handle => handle ∈ m.inUse
| .add _ => True
| .rewrite _ => True

/-
  The right answers.  A new handle may be any that is not in
  use; it is refused where the map is full and nowhere else.
-/
def Accepts
    (m : HandleMap) : Operation → Answer → Prop
| .add _, .handle none => m.inUse.card = m.capacity
| .add _, .handle (some handle) =>
    m.inUse.card < m.capacity ∧ handle ∉ m.inUse
| .get handle, .object object => object = m.object handle
| .set _ _, .done => True
| .remove _, .done => True
| .rewrite _, .visited handles =>
    handles.Pairwise (· < ·) ∧
      ∀ handle, handle ∈ handles ↔ m.Live handle
| _, _ => False

/- The map after an operation was answered. -/
def after
    (m : HandleMap) : Operation → Answer → HandleMap
| .add object, .handle (some handle) => m.put handle object
| .set handle object, _ => m.put handle object
| .remove handle, _ => m.erase handle
| .rewrite objects, .visited handles =>
    { m with
      object := fun handle =>
        if handle ∈ handles then objects handle
        else m.object handle }
| _, _ => m

variable {m : HandleMap}
variable {handle object k : Nat}

theorem mem_put :
    k ∈ (m.put handle object).inUse ↔ k = handle ∨ k ∈ m.inUse :=
  Finset.mem_insert

theorem mem_erase :
    k ∈ (m.erase handle).inUse ↔ k ≠ handle ∧ k ∈ m.inUse :=
  Finset.mem_erase

theorem object_put_self :
    (m.put handle object).object handle = object :=
  Function.update_self ..

/- Behind the other handles is what was there before. -/
theorem object_put_of_ne
    (hNe : k ≠ handle) :
    (m.put handle object).object k = m.object k :=
  Function.update_of_ne hNe ..

end HandleMap

------------------------------------------------------------
-- Tables as Maps
------------------------------------------------------------

namespace RootTable

variable {t u : RootTable}
variable {m : HandleMap}
variable {handle object : Nat}

/-
  A table stands for a map.  An entry is in use if it was handed
  out and is not free; a free entry is null and listed as free
  once.
-/
structure Represents
    (t : RootTable)
    (m : HandleMap) : Prop where
  tidy : t.Tidy
  capacity : t.entries.size = m.capacity
  bounded : t.highWater ≤ t.entries.size
  nodup : t.free.Nodup
  null : ∀ k ∈ t.free, t.entries.getD k 0 = 0
  inUse : ∀ k, k ∈ m.inUse ↔ k < t.highWater ∧ k ∉ t.free
  object : ∀ k ∈ m.inUse, t.entries.getD k 0 = m.object k

theorem size_write :
    (t.write handle object).entries.size = t.entries.size :=
  Array.size_setIfInBounds

theorem getD_write_self
    (hHandle : handle < t.entries.size) :
    (t.write handle object).entries.getD handle 0 = object := by
  unfold write
  rw [Array.getD_eq_getD_getElem?,
    Array.getElem?_setIfInBounds_self_of_lt hHandle,
    Option.getD_some]

/- Writing an entry leaves all others what they hold. -/
theorem getD_write_of_ne
    {k : Nat}
    (hNe : k ≠ handle) :
    (t.write handle object).entries.getD k 0 =
      t.entries.getD k 0 := by
  unfold write
  rw [Array.getD_eq_getD_getElem?,
    Array.getElem?_setIfInBounds_ne (Ne.symm hNe),
    Array.getD_eq_getD_getElem?]

/- Replacing the object in an entry that is there. -/
theorem set_eq
    (hHandle : handle < t.entries.size) :
    t.set handle object = .ok (t.write handle object) := by
  unfold set get
  rw [dif_pos hHandle]
  rfl

/- Making an entry null and free that is not free yet. -/
theorem remove_eq
    (hHandle : handle < t.entries.size)
    (hFree : handle ∉ t.free) :
    t.remove handle = .ok ((t.write handle 0).release handle) := by
  have hContains :
      (t.write handle 0).free.contains handle = false := by
    change t.free.contains handle = false
    rw [← Bool.not_eq_true, List.contains_iff_mem]
    exact hFree
  unfold remove
  rw [set_eq hHandle]
  change (if (t.write handle 0).free.contains handle = true
    then _ else _) = _
  rw [hContains]
  rfl

/- Only the entries that are rewritten change. -/
theorem getD_rewritten
    {objects : Nat → Nat}
    {handles : List Nat}
    (hHandles : ∀ k ∈ handles, k < t.entries.size)
    (k : Nat) :
    (t.rewritten objects handles).entries.getD k 0 =
      if k ∈ handles then objects k else t.entries.getD k 0 := by
  induction handles generalizing t with
  | nil => rfl
  | cons first rest ih =>
      have hFirst := hHandles first List.mem_cons_self
      have hRest :
          ∀ k ∈ rest,
            k < (t.write first (objects first)).entries.size := by
        intro k hk
        rw [size_write]
        exact hHandles k (List.mem_cons_of_mem _ hk)
      refine (ih hRest).trans ?_
      by_cases hMem : k ∈ rest
      · rw [if_pos hMem, if_pos (List.mem_cons_of_mem _ hMem)]
      · rw [if_neg hMem]
        by_cases hEq : k = first
        · subst hEq
          rw [if_pos List.mem_cons_self, getD_write_self hFirst]
        · have hOther : k ∉ first :: rest := by
            rw [List.mem_cons]
            exact not_or.mpr ⟨hEq, hMem⟩
          rw [if_neg hOther, getD_write_of_ne hEq]

/- Rewriting entries frees none and puts none into use. -/
theorem rewritten_frame
    (t : RootTable)
    (objects : Nat → Nat)
    (handles : List Nat) :
    (t.rewritten objects handles).entries.size =
        t.entries.size ∧
      (t.rewritten objects handles).highWater = t.highWater ∧
      (t.rewritten objects handles).free = t.free := by
  unfold rewritten
  induction handles generalizing t with
  | nil => exact ⟨rfl, rfl, rfl⟩
  | cons first rest ih =>
      rcases ih (t.write first (objects first)) with
        ⟨hSize, hHigh, hFree⟩
      exact ⟨hSize.trans size_write, hHigh, hFree⟩

/-
  An entry that is taken next was the last one freed, or else
  none is free and it is the first one never handed out.
-/
theorem occupy_cases
    (hVacant : t.vacant? = some handle)
    (object : Nat) :
    (∃ rest, t.free = handle :: rest ∧
      t.occupy handle object =
        { t.write handle object with free := rest }) ∨
    (t.free = [] ∧ handle = t.highWater ∧
      handle < t.entries.size ∧
      t.occupy handle object =
        { t.write handle object with
          highWater := t.highWater + 1 }) := by
  unfold vacant? at hVacant
  unfold occupy write
  cases hFree : t.free with
  | cons first rest =>
      rw [hFree] at hVacant
      cases hVacant
      exact Or.inl ⟨rest, rfl, rfl⟩
  | nil =>
      rw [hFree] at hVacant
      dsimp only at hVacant
      split at hVacant
      · rename_i hHigh
        cases hVacant
        exact Or.inr ⟨rfl, rfl, hHigh, rfl⟩
      · cases hVacant

namespace Represents

variable (hRep : Represents t m)

include hRep

/- A handle in use is the index of an entry. -/
theorem lt_size
    (hUse : handle ∈ m.inUse) :
    handle < t.entries.size :=
  Nat.lt_of_lt_of_le ((hRep.inUse handle).mp hUse).1
    hRep.bounded

/- The entries in use are those handed out and not free. -/
theorem inUse_eq :
    m.inUse = Finset.range t.highWater \ t.free.toFinset := by
  ext k
  rw [hRep.inUse k, Finset.mem_sdiff, Finset.mem_range,
    List.mem_toFinset]

/- The entries in use and the free ones were all handed out. -/
theorem card_add :
    m.inUse.card + t.free.length = t.highWater := by
  have hFree : t.free.toFinset ⊆ Finset.range t.highWater := by
    intro k hk
    rw [List.mem_toFinset] at hk
    exact Finset.mem_range.mpr (hRep.tidy.free k hk)
  rw [hRep.inUse_eq, ← List.toFinset_card_of_nodup hRep.nodup,
    Finset.card_sdiff_add_card_eq_card hFree,
    Finset.card_range]

/- The table counts the handles in use. -/
theorem used_eq :
    t.used = m.inUse.card := by
  have hCard := hRep.card_add
  unfold used
  omega

/- A table holds no more objects than there is room for. -/
theorem card_le :
    m.inUse.card ≤ m.capacity := by
  have hCard := hRep.card_add
  have hBounded := hRep.bounded
  rw [hRep.capacity] at hBounded
  omega

/- Behind a handle is the object of the map. -/
theorem get_eq
    (hUse : handle ∈ m.inUse) :
    t.get handle = .ok (m.object handle) := by
  have hLt := hRep.lt_size hUse
  have hObject := hRep.object handle hUse
  rw [Array.getD_eq_getD_getElem?,
    Array.getElem?_eq_getElem hLt, Option.getD_some] at hObject
  unfold get
  rw [dif_pos hLt, hObject]

/- A collection visits the entries with an object, in order. -/
theorem liveEntries_spec :
    t.liveEntries.Pairwise (· < ·) ∧
      ∀ k, k ∈ t.liveEntries ↔ m.Live k := by
  refine ⟨List.Pairwise.filter _ List.pairwise_lt_range, ?_⟩
  intro k
  rw [Heap.mem_liveEntries]
  constructor
  · rintro ⟨hLt, hNull⟩
    have hUse : k ∈ m.inUse :=
      (hRep.inUse k).mpr
        ⟨hLt, fun hFree => hNull (hRep.null k hFree)⟩
    exact ⟨hUse, hRep.object k hUse ▸ hNull⟩
  · rintro ⟨hUse, hNull⟩
    exact
      ⟨((hRep.inUse k).mp hUse).1,
        (hRep.object k hUse).symm ▸ hNull⟩

------------------------------------------------------------
-- One Operation
------------------------------------------------------------

/- Another object is put behind a handle in use. -/
theorem write
    (hUse : handle ∈ m.inUse) :
    Represents (t.write handle object)
      (m.put handle object) where
  tidy := hRep.tidy.write ((hRep.inUse handle).mp hUse).1
  capacity := size_write.trans hRep.capacity
  bounded := by
    rw [size_write]
    exact hRep.bounded
  nodup := hRep.nodup
  null := by
    intro k hFree
    have hNe : k ≠ handle := by
      rintro rfl
      exact ((hRep.inUse k).mp hUse).2 hFree
    rw [getD_write_of_ne hNe]
    exact hRep.null k hFree
  inUse := by
    intro k
    rw [HandleMap.mem_put,
      or_iff_right_of_imp fun hEq => hEq ▸ hUse]
    exact hRep.inUse k
  object := by
    intro k hk
    by_cases hEq : k = handle
    · subst hEq
      rw [getD_write_self (hRep.lt_size hUse),
        HandleMap.object_put_self]
    · rw [getD_write_of_ne hEq, HandleMap.object_put_of_ne hEq]
      exact
        hRep.object k ((HandleMap.mem_put.mp hk).resolve_left hEq)

/- A handle that was made null is given up. -/
theorem release
    (hUse : handle ∈ m.inUse) :
    Represents ((t.write handle 0).release handle)
      (m.erase handle) := by
  have hWritten : Represents (t.write handle 0) (m.put handle 0) :=
    hRep.write hUse
  rcases (hRep.inUse handle).mp hUse with ⟨hLt, hFree⟩
  refine
    ⟨hWritten.tidy.release hLt, hWritten.capacity,
      hWritten.bounded, List.nodup_cons.mpr ⟨hFree, hRep.nodup⟩,
      ?_, ?_, ?_⟩
  · intro k hk
    rcases List.mem_cons.mp hk with rfl | hOld
    · exact getD_write_self (hRep.lt_size hUse)
    · exact hWritten.null k hOld
  · intro k
    change _ ↔ k < t.highWater ∧ k ∉ handle :: t.free
    rw [HandleMap.mem_erase, hRep.inUse k, List.mem_cons]
    tauto
  · intro k hk
    rcases HandleMap.mem_erase.mp hk with ⟨hNe, hOld⟩
    have hObject :=
      hWritten.object k (HandleMap.mem_put.mpr (Or.inr hOld))
    rw [HandleMap.object_put_of_ne hNe] at hObject
    exact hObject

/- A collection may write to the entries that it visits. -/
theorem rewritten
    {objects : Nat → Nat} :
    Represents (t.rewritten objects t.liveEntries)
      { m with
        object := fun k =>
          if k ∈ t.liveEntries then objects k
          else m.object k } := by
  have hLive := hRep.liveEntries_spec.2
  have hLt : ∀ k ∈ t.liveEntries, k < t.entries.size :=
    fun k hk => hRep.lt_size ((hLive k).mp hk).1
  rcases rewritten_frame t objects t.liveEntries with
    ⟨hSize, hHigh, hFree⟩
  have hOther :
      ∀ k, k ∉ m.inUse →
        (t.rewritten objects t.liveEntries).entries.getD k 0 =
          t.entries.getD k 0 := by
    intro k hk
    rw [getD_rewritten hLt, if_neg fun h => hk ((hLive k).mp h).1]
  refine ⟨⟨?_, ?_⟩, ?_, ?_, ?_, ?_, ?_, ?_⟩
  · intro k hk
    rw [hHigh] at hk
    rw [hOther k fun hUse =>
      absurd ((hRep.inUse k).mp hUse).1 (by omega)]
    exact hRep.tidy.unused k hk
  · rw [hFree, hHigh]
    exact hRep.tidy.free
  · rw [hSize]
    exact hRep.capacity
  · rw [hSize, hHigh]
    exact hRep.bounded
  · rw [hFree]
    exact hRep.nodup
  · intro k hk
    rw [hFree] at hk
    rw [hOther k fun hUse => ((hRep.inUse k).mp hUse).2 hk]
    exact hRep.null k hk
  · rw [hHigh, hFree]
    exact hRep.inUse
  · intro k hk
    dsimp only at hk ⊢
    rw [getD_rewritten hLt, hRep.object k hk]

/- No entry is vacant where the map is full. -/
theorem vacant_none
    (hVacant : t.vacant? = none) :
    m.inUse.card = m.capacity := by
  have hCard := hRep.card_add
  have hBounded := hRep.bounded
  have hCapacity := hRep.capacity
  unfold vacant? at hVacant
  cases hFree : t.free with
  | cons first rest =>
      rw [hFree] at hVacant
      cases hVacant
  | nil =>
      rw [hFree] at hVacant hCard
      dsimp only at hVacant
      split at hVacant
      · cases hVacant
      · rw [List.length_nil] at hCard
        omega

/- A vacant entry is there and is not in use. -/
theorem vacant_some
    (hVacant : t.vacant? = some handle) :
    m.inUse.card < m.capacity ∧ handle ∉ m.inUse ∧
      handle < t.entries.size := by
  have hCard := hRep.card_add
  have hBounded := hRep.bounded
  have hCapacity := hRep.capacity
  rw [hRep.inUse handle]
  rcases occupy_cases hVacant 0 with
    ⟨rest, hFree, -⟩ | ⟨hFree, hHigh, hLt, -⟩
  · have hMem : handle ∈ t.free := by
      rw [hFree]
      exact List.mem_cons_self
    have hBelow := hRep.tidy.free handle hMem
    rw [hFree, List.length_cons] at hCard
    exact ⟨by omega, fun h => h.2 hMem, by omega⟩
  · rw [hFree, List.length_nil] at hCard
    exact ⟨by omega, fun h => by omega, hLt⟩

/- Putting an object into an entry brings it into use. -/
theorem occupy
    (hVacant : t.vacant? = some handle) :
    Represents (t.occupy handle object)
      (m.put handle object) := by
  rcases hRep.vacant_some hVacant with ⟨-, hNew, hLt⟩
  have hObject :
      ∀ k ∈ (m.put handle object).inUse,
        (t.write handle object).entries.getD k 0 =
          (m.put handle object).object k := by
    intro k hk
    rcases HandleMap.mem_put.mp hk with rfl | hOld
    · rw [getD_write_self hLt, HandleMap.object_put_self]
    · have hNe : k ≠ handle := fun h => hNew (h ▸ hOld)
      rw [getD_write_of_ne hNe, HandleMap.object_put_of_ne hNe]
      exact hRep.object k hOld
  have hCapacity :
      (t.write handle object).entries.size = m.capacity :=
    size_write.trans hRep.capacity
  have hTidy : Tidy (t.occupy handle object) :=
    hRep.tidy.occupy hVacant
  rcases occupy_cases hVacant object with
    ⟨rest, hFree, hEq⟩ | ⟨hFree, rfl, -, hEq⟩
  · have hNodup := hRep.nodup
    rw [hFree, List.nodup_cons] at hNodup
    have hHandle : handle < t.highWater := by
      refine hRep.tidy.free handle ?_
      rw [hFree]
      exact List.mem_cons_self
    rw [hEq] at hTidy ⊢
    refine
      ⟨hTidy, hCapacity, ?_, hNodup.2, ?_, ?_, hObject⟩
    · rw [size_write]
      exact hRep.bounded
    · intro k hk
      have hNe : k ≠ handle := fun h => hNodup.1 (h ▸ hk)
      refine (getD_write_of_ne hNe).trans (hRep.null k ?_)
      rw [hFree]
      exact List.mem_cons_of_mem _ hk
    · intro k
      rw [HandleMap.mem_put, hRep.inUse k, hFree, List.mem_cons]
      by_cases hSame : k = handle
      · subst hSame
        exact iff_of_true (Or.inl rfl) ⟨hHandle, hNodup.1⟩
      · tauto
  · rw [hEq] at hTidy ⊢
    refine
      ⟨hTidy, hCapacity, ?_, hRep.nodup, ?_, ?_, hObject⟩
    · rw [size_write]
      exact hLt
    · intro k hk
      change k ∈ t.free at hk
      rw [hFree] at hk
      exact absurd hk List.not_mem_nil
    · intro k
      change _ ↔ k < t.highWater + 1 ∧ k ∉ t.free
      rw [HandleMap.mem_put, hRep.inUse k, hFree]
      simp only [List.not_mem_nil, not_false_eq_true, and_true]
      omega

/-
  Every operation that names only handles in use is answered,
  and rightly, and leaves a table that stands for the map after
  it.
-/
theorem perform
    {op : Operation}
    (hPermits : m.Permits op)
    (log : Log) :
    ∃ answer after,
      RootTable.perform op ⟨t, log⟩ = (.ok answer, after) ∧
        m.Accepts op answer ∧
        Represents after.state (m.after op answer) := by
  change ∃ answer after, t.carryOut op ⟨t, log⟩ = _ ∧ _
  cases op with
  | add object =>
      unfold carryOut RootTable.add insert
      cases hVacant : t.vacant? with
      | none =>
          exact
            ⟨.handle none, ⟨t, log.add (.rootTableFull t.capacity)⟩,
              rfl, hRep.vacant_none hVacant, hRep⟩
      | some handle =>
          rcases hRep.vacant_some hVacant with ⟨hRoom, hNew, -⟩
          exact
            ⟨.handle (some handle), ⟨t.occupy handle object, log⟩,
              rfl, ⟨hRoom, hNew⟩, hRep.occupy hVacant⟩
  | get handle =>
      dsimp only [carryOut]
      rw [hRep.get_eq hPermits]
      exact ⟨.object (m.object handle), ⟨t, log⟩, rfl, rfl, hRep⟩
  | set handle object =>
      dsimp only [carryOut]
      rw [set_eq (hRep.lt_size hPermits)]
      exact
        ⟨.done, ⟨t.write handle object, log⟩, rfl, trivial,
          hRep.write hPermits⟩
  | remove handle =>
      dsimp only [carryOut]
      rw [remove_eq (hRep.lt_size hPermits)
        ((hRep.inUse handle).mp hPermits).2]
      exact
        ⟨.done, ⟨(t.write handle 0).release handle, log⟩, rfl,
          trivial, hRep.release hPermits⟩
  | rewrite objects =>
      exact
        ⟨.visited t.liveEntries,
          ⟨t.rewritten objects t.liveEntries, log⟩, rfl,
          hRep.liveEntries_spec, hRep.rewritten⟩

end Represents

------------------------------------------------------------
-- Histories
------------------------------------------------------------

/- A table that was just made stands for a map without handles. -/
theorem represents_make
    {capacity : Nat}
    (hMake : make capacity = .ok t) :
    Represents t (.empty capacity) := by
  unfold make at hMake
  cases hEntries : Word.entries capacity Word.bytes with
  | error f =>
      rw [hEntries] at hMake
      cases hMake
  | ok entries =>
      rw [hEntries] at hMake
      cases hMake
      cases Word.eq_of_entries hEntries
      have hNull :
          ∀ k, (Array.replicate capacity 0).getD k 0 = 0 := by
        intro k
        rw [Array.getD_eq_getD_getElem?, Array.getElem?_replicate]
        split <;> rfl
      exact
        ⟨⟨fun k _ => hNull k, fun k hk => nomatch hk⟩,
          Array.size_replicate, Nat.zero_le _, List.nodup_nil,
          fun k _ => hNull k,
          fun k => ⟨fun h => (Finset.notMem_empty k h).elim,
            fun h => absurd h.1 (Nat.not_lt_zero k)⟩,
          fun k _ => hNull k⟩

/-
  The history of a table: what was done to it since it was made,
  with the map that its answers so far amount to.  An operation
  that breaks off ends the history.
-/
inductive Serves
    (capacity : Nat) : HandleMap → Logged RootTable → Prop
| made
    {t : RootTable}
    (hMake : make capacity = .ok t)
    (log : Log) :
    Serves capacity (.empty capacity) ⟨t, log⟩
| operated
    {m : HandleMap}
    {s after : Logged RootTable}
    {answer : Answer}
    (hServes : Serves capacity m s)
    (op : Operation)
    (hPermits : m.Permits op)
    (hRun : perform op s = (.ok answer, after)) :
    Serves capacity (m.after op answer) after

/- Whatever its history, a table stands for its map. -/
theorem Serves.represents
    {capacity : Nat}
    {s : Logged RootTable}
    (hServes : Serves capacity m s) :
    Represents s.state m ∧ m.capacity = capacity := by
  induction hServes with
  | made hMake log => exact ⟨represents_make hMake, rfl⟩
  | @operated m s after answer _ op hPermits hRun ih =>
      rcases ih with ⟨hRep, hCapacity⟩
      rcases hRep.perform hPermits s.log with
        ⟨answer', after', hRun', -, hAfter⟩
      rw [hRun] at hRun'
      cases hRun'
      refine ⟨hAfter, Eq.trans ?_ hCapacity⟩
      unfold HandleMap.after
      split <;> rfl

/-
  Whatever was done to a table before, the next operation that
  names only handles in use is answered as by the map, which has
  at most as many handles as the table has entries.  The table
  counts the handles in use, and the entries that a collection
  visits are, in order, those with an object behind them.
-/
theorem Serves.refines
    {capacity : Nat}
    {s : Logged RootTable}
    (hServes : Serves capacity m s) :
    (∀ op, m.Permits op →
      ∃ answer after,
        perform op s = (.ok answer, after) ∧
          m.Accepts op answer ∧
          Serves capacity (m.after op answer) after) ∧
      m.capacity = capacity ∧
      s.state.used = m.inUse.card ∧
      m.inUse.card ≤ capacity ∧
      s.state.liveEntries.Pairwise (· < ·) ∧
      ∀ handle, handle ∈ s.state.liveEntries ↔ m.Live handle := by
  rcases hServes.represents with ⟨hRep, hCapacity⟩
  refine
    ⟨?_, hCapacity, hRep.used_eq, hCapacity ▸ hRep.card_le,
      hRep.liveEntries_spec⟩
  intro op hPermits
  rcases hRep.perform hPermits s.log with
    ⟨answer, after, hRun, hAccepts, -⟩
  exact
    ⟨answer, after, hRun, hAccepts,
      hServes.operated op hPermits hRun⟩

/- A table of two entries that has handed out the first one. -/
def started
    (object : Nat)
    (free : List Nat) : Logged RootTable where
  state := { entries := #[object, 0], highWater := 1, free }

/-
  A handle that was given up is handed out again.  The object
  that is then behind it is the one that a collection put there.
-/
theorem refines_reused :
    ∃ m,
      Serves 2 m (started 0x5000 []) ∧ 0 ∈ m.inUse ∧
        m.object 0 = 0x5000 ∧
        ∃ answer after,
          perform (.get 0) (started 0x5000 []) =
            (.ok answer, after) ∧
          m.Accepts (.get 0) answer := by
  have hMade :
      Serves 2 (.empty 2) ⟨⟨#[0, 0], 0, []⟩, {}⟩ :=
    .made rfl {}
  have hAdded :
      Serves 2 ((HandleMap.empty 2).put 0 0x1000)
        (started 0x1000 []) :=
    hMade.operated (.add 0x1000) trivial rfl
  obtain ⟨m, hRemoved⟩ : ∃ m, Serves 2 m (started 0 [0]) :=
    ⟨_, hAdded.operated (.remove 0)
      (HandleMap.mem_put.mpr (Or.inl rfl)) rfl⟩
  have hAgain : Serves 2 (m.put 0 0x2000) (started 0x2000 []) :=
    hRemoved.operated (.add 0x2000) trivial rfl
  have hMoved : Serves 2 _ (started 0x5000 []) :=
    hAgain.operated (.rewrite fun _ => 0x5000) trivial rfl
  have hUse : 0 ∈ (m.put 0 0x2000).inUse :=
    HandleMap.mem_put.mpr (Or.inl rfl)
  rcases hMoved.refines.1 (.get 0) hUse with
    ⟨answer, after, hRun, hAccepts, -⟩
  exact ⟨_, hMoved, hUse, rfl, answer, after, hRun, hAccepts⟩

end RootTable

end BeltHeap
