import BeltHeap.Regions

/-
  The published information after regions were published: which
  records observers see, and that publishing the same regions
  again changes nothing.

  Main declarations:
    * `HeapInfo.recorded`
    * `HeapInfo.published`
    * `HeapInfo.visible`
    * `HeapInfo.published_published`
    * `HeapInfo.visible_published`
    * `HeapInfo.register_cases`
-/

------------------------------------------------------------
-- Writing Records
------------------------------------------------------------

namespace BeltHeap

/- The record of a region: where it starts and how long it is. -/
def MemoryRegion.record (r : MemoryRegion) : Nat × Nat :=
  (r.start, r.size)

namespace HeapInfo

/- The records after those from index `k` on were written. -/
def recorded : Nat → List MemoryRegion →
    Array (Nat × Nat) → Array (Nat × Nat)
| _, [], records => records
| k, r :: rs, records =>
    recorded (k + 1) rs (records.setIfInBounds k r.record)

variable {regions : List MemoryRegion}
variable {records : Array (Nat × Nat)}
variable {i : HeapInfo}
variable {k : Nat}

@[simp] theorem size_recorded :
    (recorded k regions records).size = records.size := by
  induction regions generalizing k records with
  | nil => rfl
  | cons r rs ih =>
      unfold recorded
      rw [ih, Array.size_setIfInBounds]

/- Each record is the one that was written, or as before. -/
theorem getElem?_recorded
    (j : Nat) :
    (recorded k regions records)[j]? =
      if k ≤ j ∧ j < k + regions.length ∧ j < records.size then
        regions[j - k]?.map MemoryRegion.record
      else records[j]? := by
  induction regions generalizing k records with
  | nil =>
      rw [if_neg (by rw [List.length_nil]; omega)]
      rfl
  | cons r rs ih =>
      unfold recorded
      rw [ih, Array.size_setIfInBounds, List.length_cons]
      by_cases hLater :
          k + 1 ≤ j ∧ j < k + 1 + rs.length ∧ j < records.size
      · have hNext : j - k = (j - (k + 1)) + 1 := by omega
        rw [if_pos hLater, if_pos (by omega), hNext,
          List.getElem?_cons_succ]
      · rw [if_neg hLater, Array.getElem?_setIfInBounds]
        by_cases hHere : k = j
        · subst hHere
          rw [if_pos rfl, Nat.sub_self, List.getElem?_cons_zero]
          by_cases hIn : k < records.size
          · rw [if_pos hIn, if_pos (by omega)]
            rfl
          · rw [if_neg hIn, if_neg (by omega),
              Array.getElem?_eq_none (by omega)]
        · rw [if_neg hHere, if_neg (by omega)]

/- Writing the same records again changes nothing. -/
theorem recorded_recorded :
    recorded k regions (recorded k regions records) =
      recorded k regions records := by
  apply Array.ext_getElem?
  intro j
  rw [getElem?_recorded, size_recorded]
  split
  · rename_i hIn
    rw [getElem?_recorded, if_pos hIn]
  · rfl

------------------------------------------------------------
-- Publishing
------------------------------------------------------------

/- The regions that have a record. -/
def shown (regions : List MemoryRegion) : List MemoryRegion :=
  regions.take Limits.inspectableRegions

/- The information after regions were published. -/
def published
    (regions : List MemoryRegion)
    (i : HeapInfo) : HeapInfo :=
  { i with
    regionCount := (shown regions).length
    records := recorded 0 (shown regions) i.records
    regions }

/- The records that observers look at. -/
def visible (i : HeapInfo) : List (Nat × Nat) :=
  i.records.toList.take i.regionCount

/- Publishing the same regions again changes nothing. -/
theorem published_published :
    (i.published regions).published regions =
      i.published regions := by
  unfold published
  simp only [recorded_recorded]

/-
  Where there is room for enough records, observers see those of
  the regions that were published, up to the number of records.
-/
theorem visible_published
    (hRoom : i.records.size = Limits.inspectableRegions) :
    (i.published regions).visible =
      (regions.map MemoryRegion.record).take
        Limits.inspectableRegions := by
  have hLength :
      (shown regions).length ≤ Limits.inspectableRegions :=
    List.length_take_le _ _
  rw [← List.map_take]
  apply List.ext_getElem?
  intro j
  change
    ((recorded 0 (shown regions) i.records).toList.take
        (shown regions).length)[j]? =
      ((shown regions).map MemoryRegion.record)[j]?
  rw [List.getElem?_take, Array.getElem?_toList,
    getElem?_recorded, List.getElem?_map]
  by_cases hIn : j < (shown regions).length
  · rw [if_pos hIn, if_pos (by omega), Nat.sub_zero]
  · rw [if_neg hIn, List.getElem?_eq_none (by omega)]
    rfl

------------------------------------------------------------
-- Registering
------------------------------------------------------------

/- Registering regions, but for the warning about too many. -/
def present
    {σ : Type}
    (update : (HeapInfo → HeapInfo) → Activity Fault σ Unit)
    (regions : List MemoryRegion) : Activity Fault σ Unit := do
  update hide
  writeRecords update 0 (shown regions)
  update (reveal (shown regions).length)
  if ← Activity.keeps .debug then
    reportRegions regions
  update (describe regions)

/- Regions are registered with such a warning, or without it. -/
theorem register_cases
    {σ : Type}
    (update : (HeapInfo → HeapInfo) → Activity Fault σ Unit)
    (regions : List MemoryRegion) :
    register update regions = present update regions ∨
      register update regions =
        Activity.emit
            (.regionsTruncated regions.length
              Limits.inspectableRegions) >>= fun _ =>
          present update regions := by
  unfold register
  dsimp only
  split
  · exact .inr rfl
  · exact .inl rfl

end HeapInfo

end BeltHeap
