import BeltHeap.Heap.Mutating
import BeltHeap.Proofs.Soundness
import BeltHeap.Proofs.Yielding

/-
  Objects and null may be put behind handles and into registers
  of a sound heap, in any order and whatever the handle.

  Main declarations:
    * `RootTable.joined`
    * `Heap.Sound.rooted`
    * `HeapM.ensures_addRoot`, `HeapM.ensures_setRoot`
    * `HeapM.ensures_removeRoot`, `HeapM.ensures_setRegister`
-/

------------------------------------------------------------
-- Other Roots
------------------------------------------------------------

namespace BeltHeap

namespace RootTable

/-
  The table with an object behind a new handle, if there is one.
-/
def joined
    (t : RootTable)
    (object : Nat) : RootTable :=
  match t.vacant? with
  | some handle => t.occupy handle object
  | none => t

/- A tidy table stays tidy when an object joins it. -/
theorem Tidy.joined
    {t : RootTable}
    {object : Nat}
    (hTidy : Tidy t) :
    Tidy (t.joined object) := by
  unfold RootTable.joined
  cases hVacant : t.vacant? with
  | some handle => exact hTidy.occupy hVacant
  | none => exact hTidy

end RootTable

namespace Heap

variable {rt : Runtime}
variable {h : Heap}
variable {nursery mature : Belt}
variable {old young : List Nat}
variable {object handle : Nat}

/- An entry that was written is as new, and others as before. -/
theorem getD_setIfInBounds
    {values : Array Nat}
    {place other value : Nat}
    {members : List Nat}
    (hValue : value = 0 ∨ value ∈ members)
    (hOther :
      other ≠ place →
        values.getD other 0 = 0 ∨
          values.getD other 0 ∈ members) :
    (values.setIfInBounds place value).getD other 0 = 0 ∨
      (values.setIfInBounds place value).getD other 0 ∈
        members := by
  simp only [Array.getD_eq_getD_getElem?,
    Array.getElem?_setIfInBounds] at hOther ⊢
  by_cases hEq : place = other
  · rw [if_pos hEq]
    by_cases hIn : place < values.size
    · rw [if_pos hIn]
      exact hValue
    · rw [if_neg hIn]
      exact Or.inl rfl
  · rw [if_neg hEq]
    exact hOther (Ne.symm hEq)

namespace Sound

/-
  An object or null may be put into any entry of the root
  table, which may come into use that way.
-/
theorem rooted
    (hSound : Sound rt h nursery mature old young)
    (handle : Nat)
    (hObject : object = 0 ∨ object ∈ old ++ young)
    {t : RootTable}
    (hEntries :
      t.entries = h.roots.entries.setIfInBounds handle object)
    (hHigh :
      ∀ k, k < t.highWater →
        k = handle ∨ k < h.roots.highWater) :
    Sound rt { h with roots := t } nursery mature old young := by
  have hShape := hSound.shape
  refine
    ⟨⟨hShape.layout, hShape.fits, hShape.cards, hShape.starts,
        hShape.sameCards, hShape.regions⟩,
      hSound.oldTiles, hSound.youngTiles, hSound.matureFree,
      hSound.nurseryFree, hSound.fields, ?_, hSound.remembered,
      hSound.firsts⟩
  intro s hs
  rcases mem_rootSlots.mp hs with
    ⟨k, hLt, hNull, rfl⟩ | hReport
  · unfold readSlot at hNull ⊢
    dsimp only at hNull ⊢
    rw [hEntries] at hNull ⊢
    refine getD_setIfInBounds hObject fun hOther => ?_
    by_cases hZero : h.roots.entries.getD k 0 = 0
    · exact Or.inl hZero
    · have hOld := (hHigh k hLt).resolve_left hOther
      exact
        hSound.roots (.entry k)
          (mem_rootSlots.mpr (Or.inl ⟨k, hOld, hZero, rfl⟩))
  · have hRoot :=
      hSound.roots s (mem_rootSlots.mpr (Or.inr hReport))
    cases s with
    | entry k =>
        unfold readSlot
        dsimp only
        rw [hEntries]
        exact getD_setIfInBounds hObject fun _ => hRoot
    | register n => exact hRoot
    | field a => exact hRoot

/- An object of the heap may be put into any register. -/
theorem registered
    (hSound : Sound rt h nursery mature old young)
    (hObject : object = 0 ∨ object ∈ old ++ young)
    (number : Nat) :
    Sound rt (h.writeSlot (.register number) object) nursery
      mature old young := by
  have hShape := hSound.shape
  refine
    ⟨⟨hShape.layout, hShape.fits, hShape.cards, hShape.starts,
        hShape.sameCards, hShape.regions⟩,
      hSound.oldTiles, hSound.youngTiles, hSound.matureFree,
      hSound.nurseryFree, hSound.fields, ?_, hSound.remembered,
      hSound.firsts⟩
  intro s hs
  have hRoot := hSound.roots s hs
  cases s with
  | entry k => exact hRoot
  | register n => exact getD_setIfInBounds hObject fun _ => hRoot
  | field a => exact hRoot

end Sound

end Heap

------------------------------------------------------------
-- Operations on Roots
------------------------------------------------------------

namespace HeapM

open Heap

variable {rt : Runtime}
variable {h : Heap}
variable {nursery mature : Belt}
variable {old young : List Nat}
variable {object : Nat}

/- An object is put behind a new handle, if there is one. -/
theorem ensures_addRoot
    (hSound : Sound rt h nursery mature old young)
    (hObject : object = 0 ∨ object ∈ old ++ young) :
    Ensures (addRoot object) h fun _ g =>
      Sound rt g nursery mature old young ∧
        g = { h with roots := h.roots.joined object } := by
  unfold RootTable.joined
  cases hVacant : h.roots.vacant? with
  | none =>
      have hAdd : Yields (addRoot object) h (.ok none) h := by
        unfold addRoot
        apply yields_read
        rw [hVacant]
        apply yields_read
        exact yields_report rfl (yields_pure none)
      exact ensures_of_yields hAdd ⟨hSound, rfl⟩
  | some handle =>
      have hAdd :
          Yields (addRoot object) h (.ok (some handle))
            { h with roots := h.roots.occupy handle object } := by
        unfold addRoot
        apply yields_read
        rw [hVacant]
        apply yields_write
        exact yields_pure _
      refine ensures_of_yields hAdd ⟨?_, rfl⟩
      unfold RootTable.vacant? at hVacant
      unfold RootTable.occupy
      cases hFree : h.roots.free with
      | cons first rest =>
          exact
            hSound.rooted handle hObject rfl
              fun _ hk => Or.inr hk
      | nil =>
          rw [hFree] at hVacant
          refine hSound.rooted handle hObject rfl ?_
          intro k hk
          dsimp only at hk hVacant
          split at hVacant
          · cases hVacant
            omega
          · cases hVacant

/- Reading a handle leaves the heap alone. -/
theorem yields_getRoot
    (handle : Nat) :
    ∃ result, Yields (getRoot handle) h result h := by
  unfold getRoot
  cases hGet : h.roots.get handle with
  | ok object =>
      refine ⟨.ok object, ?_⟩
      apply yields_read
      exact yields_lift hGet
  | error f =>
      refine ⟨.error f, ?_⟩
      apply yields_read
      exact yields_lift_error hGet

/- Another object is put behind a handle. -/
theorem ensures_setRoot
    (hSound : Sound rt h nursery mature old young)
    (hObject : object = 0 ∨ object ∈ old ++ young)
    (handle : Nat) :
    Ensures (setRoot handle object) h fun _ g =>
      Sound rt g nursery mature old young ∧
        g = h.writeSlot (.entry handle) object := by
  rcases yields_getRoot (h := h) handle with ⟨result, hGet⟩
  unfold setRoot
  cases result with
  | error f => exact ensures_of_error (yields_bind_error hGet)
  | ok before =>
      refine ensures_of_yields (yields_bind hGet
        (yields_update _)) ⟨?_, rfl⟩
      exact
        hSound.rooted handle hObject rfl
          fun _ hk => Or.inr hk

/- A handle is given up. -/
theorem ensures_removeRoot
    (hSound : Sound rt h nursery mature old young)
    (handle : Nat) :
    Ensures (removeRoot handle) h fun _ g =>
      Sound rt g nursery mature old young ∧
        g =
          { h with
            roots := (h.roots.write handle 0).release handle } := by
  unfold removeRoot
  refine ensures_bind
    (ensures_setRoot hSound (Or.inl rfl) handle) ?_
  rintro - g ⟨hSound', rfl⟩
  apply ensures_read
  generalize hWritten : h.writeSlot (.entry handle) 0 = g
    at hSound'
  cases hFree : g.roots.free.contains handle with
  | true =>
      have hThrow :
          Yields (throw .handleFreedTwice : HeapM Unit) g
            (.error .handleFreedTwice) g :=
        fun s hs => ⟨s, rfl, hs, .refl⟩
      exact ensures_of_error hThrow
  | false =>
      refine ensures_of_yields (yields_update _) ⟨?_, ?_⟩
      · have hEntries :
            g.roots.entries =
              g.roots.entries.setIfInBounds
                g.roots.entries.size 0 :=
          (Array.setIfInBounds_eq_of_size_le
            (Nat.le_refl _)).symm
        exact
          hSound'.rooted _ (Or.inl rfl) hEntries
            fun _ hk => Or.inr hk
      · rw [← hWritten]
        rfl

/- An object is put into a register. -/
theorem ensures_setRegister
    (hSound : Sound rt h nursery mature old young)
    (hObject : object = 0 ∨ object ∈ old ++ young)
    (number : Nat) :
    Ensures (setRegister number object) h fun _ g =>
      Sound rt g nursery mature old young :=
  ensures_of_yields (yields_update _)
    (hSound.registered hObject number)

end HeapM

end BeltHeap
