import BeltHeap.Proofs.Forwarding

/-
  The root slots of a heap: the entries of the root table that
  hold references and the slots that the runtime reports, each
  of them once.

  Main declarations:
    * `Slot.mem_sortUnique`, `Slot.nodup_sortUnique`
    * `Slot.sortUnique_congr`
    * `Runtime.Standard`
    * `Heap.mem_rootSlots`
    * `Heap.pairwise_rootSlots`
    * `RootTable.SameUse`, `RootTable.Tidy`
    * `Heap.rootSlots_congr`
-/

------------------------------------------------------------
-- Sorting Slots
------------------------------------------------------------

namespace BeltHeap

namespace Slot

theorem le_trans
    {r s t : Slot}
    (h₁ : le r s = true)
    (h₂ : le s t = true) :
    le r t = true := by
  simp only [le, Bool.or_eq_true, Bool.and_eq_true,
    decide_eq_true_eq, beq_iff_eq] at *
  omega

/- Any two slots can be compared. -/
theorem le_total
    (s t : Slot) :
    (le s t || le t s) = true := by
  simp only [le, Bool.or_eq_true, Bool.and_eq_true,
    decide_eq_true_eq, beq_iff_eq]
  omega

theorem le_antisymm
    {s t : Slot}
    (h₁ : le s t = true)
    (h₂ : le t s = true) :
    s = t := by
  have hKind : s.key.1 = t.key.1 ∧ s.key.2 = t.key.2 := by
    simp only [le, Bool.or_eq_true, Bool.and_eq_true,
      decide_eq_true_eq, beq_iff_eq] at h₁ h₂
    omega
  cases s <;> cases t <;> simp_all [key]

theorem mem_dropRepeats
    {s : Slot}
    {slots : List Slot} :
    s ∈ dropRepeats slots ↔ s ∈ slots := by
  induction slots using dropRepeats.induct with
  | case1 => exact Iff.rfl
  | case2 t => exact Iff.rfl
  | case3 t rest ih =>
      rw [dropRepeats, if_pos rfl, ih]
      simp
  | case4 r t rest hNe ih =>
      rw [dropRepeats, if_neg hNe, List.mem_cons,
        List.mem_cons, ih]

theorem nodup_dropRepeats
    {slots : List Slot}
    (hOrder : slots.Pairwise fun s t => le s t = true) :
    (dropRepeats slots).Nodup := by
  induction slots using dropRepeats.induct with
  | case1 => exact List.nodup_nil
  | case2 t => exact List.pairwise_singleton _ t
  | case3 t rest ih =>
      rw [dropRepeats, if_pos rfl]
      exact ih (List.pairwise_cons.mp hOrder).2
  | case4 r t rest hNe ih =>
      rcases List.pairwise_cons.mp hOrder with ⟨hFirst, hRest⟩
      rw [dropRepeats, if_neg hNe]
      refine List.nodup_cons.mpr ⟨?_, ih hRest⟩
      rw [mem_dropRepeats, List.mem_cons]
      rintro (hHead | hTail)
      · exact hNe hHead
      · have hAbove := (List.pairwise_cons.mp hRest).1 r hTail
        exact hNe
          (le_antisymm (hFirst t List.mem_cons_self) hAbove)

theorem dropRepeats_sublist
    (slots : List Slot) :
    (dropRepeats slots).Sublist slots := by
  induction slots using dropRepeats.induct with
  | case1 => exact .slnil
  | case2 t => exact .refl _
  | case3 t rest ih =>
      rw [dropRepeats, if_pos rfl]
      exact ih.cons t
  | case4 r t rest hNe ih =>
      rw [dropRepeats, if_neg hNe]
      exact ih.cons_cons r

theorem mem_sortUnique
    {s : Slot}
    {slots : List Slot} :
    s ∈ sortUnique slots ↔ s ∈ slots := by
  unfold sortUnique
  rw [mem_dropRepeats]
  exact List.mem_mergeSort

/- Sorting puts slots in order. -/
theorem pairwise_mergeSort
    (slots : List Slot) :
    (slots.mergeSort le).Pairwise fun s t => le s t = true :=
  List.pairwise_mergeSort (fun s t u => @le_trans s t u)
    le_total slots

theorem nodup_sortUnique
    (slots : List Slot) :
    (sortUnique slots).Nodup :=
  nodup_dropRepeats (pairwise_mergeSort slots)

/-
  Slots are sorted alike in whatever order and however often
  they are listed.
-/
theorem sortUnique_congr
    {slots others : List Slot}
    (hSame : ∀ s, s ∈ others ↔ s ∈ slots) :
    sortUnique others = sortUnique slots := by
  have hOrder (slots : List Slot) :
      (sortUnique slots).Pairwise fun s t => le s t = true :=
    (pairwise_mergeSort slots).sublist (dropRepeats_sublist _)
  refine List.Perm.eq_of_pairwise
    (fun s t _ _ h₁ h₂ => le_antisymm h₁ h₂)
    (hOrder others) (hOrder slots) ?_
  rw [List.perm_ext_iff_of_nodup (nodup_sortUnique _)
    (nodup_sortUnique _)]
  intro s
  rw [mem_sortUnique, mem_sortUnique]
  exact hSame s

end Slot

------------------------------------------------------------
-- Root Slots
------------------------------------------------------------

/-
  A runtime that aligns objects to words, reports no slot inside
  of the heap as a root, and knows the fields of objects by
  their reference counts.
-/
structure Runtime.Standard (rt : Runtime) : Prop where
  alignment : rt.alignment = Word.bytes
  fields : rt.fields = Object.fields
  outside : ∀ a, Slot.field a ∉ rt.reports

namespace Heap

variable {rt : Runtime}
variable {h : Heap}
variable {s : Slot}

theorem mem_liveEntries
    {t : RootTable}
    {handle : Nat} :
    handle ∈ t.liveEntries ↔
      handle < t.highWater ∧ t.entries.getD handle 0 ≠ 0 := by
  unfold RootTable.liveEntries
  rw [List.mem_filter, List.mem_range, bne_iff_ne]

theorem mem_rootSlots :
    s ∈ h.rootSlots rt ↔
      (∃ handle, handle < h.roots.highWater ∧
        h.readSlot (.entry handle) ≠ 0 ∧ s = .entry handle) ∨
      s ∈ rt.reports := by
  unfold rootSlots
  rw [Slot.mem_sortUnique, List.mem_append, List.mem_map]
  constructor
  · rintro (⟨handle, hLive, rfl⟩ | hReport)
    · rcases mem_liveEntries.mp hLive with ⟨hLt, hSome⟩
      exact Or.inl ⟨handle, hLt, hSome, rfl⟩
    · exact Or.inr hReport
  · rintro (⟨handle, hLt, hSome, rfl⟩ | hReport)
    · exact Or.inl
        ⟨handle, mem_liveEntries.mpr ⟨hLt, hSome⟩, rfl⟩
    · exact Or.inr hReport

/- No root slot lies in the heap. -/
theorem not_field_of_mem_rootSlots
    (hStandard : rt.Standard)
    (hSlot : s ∈ h.rootSlots rt)
    (a : Nat) :
    s ≠ .field a := by
  rintro rfl
  rcases mem_rootSlots.mp hSlot with hEntry | hReport
  · rcases hEntry with ⟨_, _, _, hEq⟩
    cases hEq
  · exact hStandard.outside a hReport

/- The root slots are all apart from each other. -/
theorem pairwise_rootSlots
    (hStandard : rt.Standard) :
    (h.rootSlots rt).Pairwise Slot.Apart := by
  have hNodup : (h.rootSlots rt).Nodup := Slot.nodup_sortUnique _
  refine List.Pairwise.imp_of_mem ?_ hNodup
  intro s t hs ht hNe
  cases s with
  | entry k => exact hNe
  | register n => exact hNe
  | field a =>
      exact absurd rfl
        (not_field_of_mem_rootSlots hStandard hs a)

end Heap

------------------------------------------------------------
-- Entries in Use
------------------------------------------------------------

/- The same entries of two root tables are in use. -/
structure RootTable.SameUse (t u : RootTable) : Prop where
  highWater : u.highWater = t.highWater
  free : u.free = t.free
  null :
    ∀ handle,
      u.entries.getD handle 0 = 0 ↔ t.entries.getD handle 0 = 0

namespace RootTable.SameUse

variable {t u v : RootTable}

theorem refl : SameUse t t :=
  ⟨rfl, rfl, fun _ => Iff.rfl⟩

theorem trans
    (h₁ : SameUse t u)
    (h₂ : SameUse u v) :
    SameUse t v :=
  ⟨h₂.highWater.trans h₁.highWater, h₂.free.trans h₁.free,
    fun handle => (h₂.null handle).trans (h₁.null handle)⟩

theorem of_eq
    (hSame : u = t) :
    SameUse t u := by
  subst hSame
  exact refl

end RootTable.SameUse

/-
  All entries that were never handed out are null, and only such
  entries are free that were handed out once.
-/
structure RootTable.Tidy (t : RootTable) : Prop where
  unused :
    ∀ handle, t.highWater ≤ handle →
      t.entries.getD handle 0 = 0
  free : ∀ handle ∈ t.free, handle < t.highWater

namespace RootTable.Tidy

variable {t u : RootTable}
variable {handle object : Nat}

/- A table with the same entries in use is as tidy. -/
theorem sameUse
    (hTidy : Tidy t)
    (hUse : SameUse t u) :
    Tidy u where
  unused := by
    intro handle hHandle
    rw [hUse.highWater] at hHandle
    exact (hUse.null handle).mpr (hTidy.unused handle hHandle)
  free := by
    rw [hUse.free, hUse.highWater]
    exact hTidy.free

/- Writing an entry that was handed out keeps a table tidy. -/
theorem write
    (hTidy : Tidy t)
    (hHandle : handle < t.highWater) :
    Tidy (t.write handle object) where
  unused := by
    intro other hOther
    change t.highWater ≤ other at hOther
    have hNull := hTidy.unused other hOther
    unfold RootTable.write
    rw [Array.getD_eq_getD_getElem?] at hNull ⊢
    rw [Array.getElem?_setIfInBounds_ne (by omega)]
    exact hNull
  free := hTidy.free

/- Putting a reference into an unused entry keeps a table tidy. -/
theorem occupy
    (hTidy : Tidy t)
    (hVacant : t.vacant? = some handle) :
    Tidy (t.occupy handle object) := by
  unfold RootTable.vacant? at hVacant
  unfold RootTable.occupy
  cases hFree : t.free with
  | cons first rest =>
      rw [hFree] at hVacant
      cases hVacant
      have hHandle :=
        hTidy.free handle
          (by rw [hFree]; exact List.mem_cons_self)
      have hWritten : Tidy (t.write handle object) :=
        hTidy.write hHandle
      exact
        ⟨hWritten.unused, fun other hOther =>
          hTidy.free other
            (by rw [hFree]; exact List.mem_cons_of_mem _ hOther)⟩
  | nil =>
      rw [hFree] at hVacant
      dsimp only at hVacant ⊢
      split at hVacant
      · cases hVacant
        refine ⟨?_, fun _ hOther => nomatch hOther⟩
        intro other hOther
        change t.highWater + 1 ≤ other at hOther
        have hNull := hTidy.unused other (by omega)
        rw [Array.getD_eq_getD_getElem?] at hNull ⊢
        rw [Array.getElem?_setIfInBounds_ne (by omega)]
        exact hNull
      · cases hVacant

/- Freeing an entry that was handed out keeps a table tidy. -/
theorem release
    (hTidy : Tidy t)
    (hHandle : handle < t.highWater) :
    Tidy (t.release handle) where
  unused := hTidy.unused
  free := by
    intro other hOther
    rcases List.mem_cons.mp hOther with rfl | hOld
    · exact hHandle
    · exact hTidy.free other hOld

end RootTable.Tidy

/-
  Which slots are root slots depends on which entries of the
  root table are in use and on nothing else.
-/
theorem Heap.rootSlots_congr
    {rt : Runtime}
    {h g : Heap}
    (hUse : h.roots.SameUse g.roots) :
    g.rootSlots rt = h.rootSlots rt := by
  have hLive : g.roots.liveEntries = h.roots.liveEntries := by
    unfold RootTable.liveEntries
    rw [hUse.highWater]
    apply List.filter_congr
    intro handle _
    rw [Bool.eq_iff_iff, bne_iff_ne, bne_iff_ne]
    exact not_congr (hUse.null handle)
  unfold rootSlots
  rw [hLive]

end BeltHeap
