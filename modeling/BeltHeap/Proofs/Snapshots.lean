import BeltHeap.Observer.HeapView
import BeltHeap.Proofs.Headers
import BeltHeap.Proofs.Stocking
import Mathlib.Data.List.Forall2

/-
  What a snapshot of a heap is made of.  Every number in it is
  decoded from the bytes that the source supplies at its place,
  and no place that is looked at has an address that is no word:
  a table that runs up to the last address is given up at the
  entry before.

  Main declarations:
    * `Supply.Says`, `Supply.Reaches`
    * `HeapView.meets_regions`
    * `HeapView.meets_rootsFrom`
    * `HeapView.Observes`, `HeapView.meets_snapshot`
-/

------------------------------------------------------------
-- Numbers in Memory
------------------------------------------------------------

namespace BeltHeap

/-
  A number below the last address, as the bytes of its range
  give it.
-/
def Supply.Says
    {σ : Type}
    [MemorySource σ]
    (supply : Supply σ)
    (width a value : Nat) : Prop :=
  a + width < Word.limit ∧
    ∃ bs, bs.length = width ∧ Bears supply.holds a bs ∧
      value = supply.byteOrder.decode bs

/-
  A range that is supplied if it ends before the last address.
  Reads that may not fail need it to end there.
-/
structure Supply.Reaches
    {σ : Type}
    [MemorySource σ]
    (supply : Supply σ)
    (a n : Nat) : Prop where
  covers : a + n < Word.limit → supply.Covers a n
  near : supply.mayFail ∨ a + n < Word.limit

------------------------------------------------------------
-- Work on Lists
------------------------------------------------------------

/- What holds of the answer for each item holds of all answers. -/
theorem ObserverM.meets_mapM
    {τ α β : Type}
    {faulty : Prop}
    {kept inv : τ → Prop}
    {answers : α → β → Prop}
    {f : α → ObserverM τ β}
    (xs : List α)
    {s : τ}
    (hInv : inv s)
    (hEach :
      ∀ x ∈ xs, ∀ g, inv g →
        Meets faulty kept (f x) g fun y d => inv d ∧ answers x y) :
    Meets faulty kept (xs.mapM f) s fun ys d =>
      inv d ∧ List.Forall₂ answers xs ys := by
  induction xs generalizing s with
  | nil =>
      rw [List.mapM_nil]
      exact meets_pure ⟨hInv, .nil⟩
  | cons x xs ih =>
      rw [List.mapM_cons]
      refine meets_bind (hEach x List.mem_cons_self s hInv) ?_
      rintro y g ⟨hOn, hFirst⟩
      refine meets_bind
        (ih hOn fun z hMem => hEach z (List.mem_cons_of_mem x hMem))
        ?_
      rintro ys d ⟨hLater, hRest⟩
      exact meets_pure ⟨hLater, .cons hFirst hRest⟩

------------------------------------------------------------
-- Reading Numbers
------------------------------------------------------------

namespace PageCache

open ObserverM

variable {σ : Type} [MemorySource σ]
variable {supply : Supply σ}
variable {c : PageCache σ}

/- What is read as a number is a number in memory. -/
theorem meets_saysNumber
    (width a : Nat)
    (hStocks : supply.Stocks c)
    (hReaches : supply.Reaches a width) :
    Meets supply.mayFault supply.Spares (readNumber width a) c
      fun value d => supply.Stocks d ∧ supply.Says width a value := by
  by_cases hNear : a + width < Word.limit
  · refine
      (meets_readNumber width a hStocks (hReaches.covers hNear)
        (.inr hNear)).imp id (fun _ hKept => hKept) ?_
    exact fun value d hPost => ⟨hPost.1, hNear, hPost.2⟩
  -- No page is looked at for a range that ends behind.
  · have hSpares : supply.Spares c :=
      ⟨hReaches.near.resolve_right hNear, hStocks⟩
    unfold readNumber readInto
    rw [if_pos (Nat.le_of_not_lt hNear)]
    change
      Meets _ _ (fail (.unmapped a width) : ObserverM _ Nat) c _
    exact meets_fail hSpares

theorem meets_saysWord
    (a : Nat)
    (hWidth : supply.wordSize = 4 ∨ supply.wordSize = 8)
    (hStocks : supply.Stocks c)
    (hReaches : supply.Reaches a supply.wordSize) :
    Meets supply.mayFault supply.Spares (readWord a) c
      fun value d =>
        supply.Stocks d ∧ supply.Says supply.wordSize a value := by
  have hSize :
      (if supply.wordSize = 4 then 4 else 8) = supply.wordSize := by
    rcases hWidth with hFour | hEight
    · rw [hFour, if_pos rfl]
    · rw [hEight, if_neg (by decide)]
  unfold readWord
  apply meets_read
  rw [supply.wordSize_eq hStocks.alive, hSize]
  exact meets_saysNumber _ a hStocks hReaches

end PageCache

------------------------------------------------------------
-- Regions
------------------------------------------------------------

namespace HeapView

open ObserverM PageCache HeapInfo

variable {σ : Type} [MemorySource σ]
variable {supply : Supply σ}
variable {c : PageCache σ}
variable {v : HeapView}

/- The number of bytes that are published. -/
def extent : Nat :=
  regionsOffset + 16 * Limits.inspectableRegions

/- All that is published is supplied. -/
structure Published
    (supply : Supply σ)
    (v : HeapView) : Prop where
  width : supply.wordSize = 4 ∨ supply.wordSize = 8
  ends : v.address + extent < Word.limit
  covers : supply.Covers v.address extent

/- Each part of a published description is supplied. -/
theorem Published.reaches
    {offset width : Nat}
    (hPublished : Published supply v)
    (hPart : offset + width ≤ extent) :
    supply.Reaches (v.address + offset) width := by
  have hEnds := hPublished.ends
  refine ⟨fun _ index hLow hHigh => ?_, .inr (by omega)⟩
  exact hPublished.covers index (by omega) (by omega)

/- The word at an offset. -/
theorem meets_wordAt
    {offset : Nat}
    (hPublished : Published supply v)
    (hStocks : supply.Stocks c)
    (hPart : offset + supply.wordSize ≤ extent) :
    Meets supply.mayFault supply.Spares (v.wordAt offset) c
      fun value d =>
        supply.Stocks d ∧
          supply.Says supply.wordSize (v.address + offset)
            value := by
  have hEnds := hPublished.ends
  unfold wordAt
  apply meets_sum (by omega)
  exact
    meets_saysWord _ hPublished.width hStocks
      (hPublished.reaches hPart)

/- Where the record of a region is. -/
def recordOffset (width k : Nat) : Nat :=
  regionsOffset + k * 2 * width

/- Is this what a record says of its region? -/
def Records
    (supply : Supply σ)
    (v : HeapView)
    (k : Nat)
    (o : ObservedRegion) : Prop :=
  supply.Says supply.wordSize
      (v.address + recordOffset supply.wordSize k) o.start ∧
    supply.Says supply.wordSize
      (v.address +
        (recordOffset supply.wordSize k + supply.wordSize))
      o.size

/- The record of a region that there is room for. -/
theorem meets_regionAt
    {k : Nat}
    (hPublished : Published supply v)
    (hStocks : supply.Stocks c)
    (hRoom : k < Limits.inspectableRegions) :
    Meets supply.mayFault supply.Spares
      (v.regionAt supply.wordSize k) c fun o d =>
        supply.Stocks d ∧ Records supply v k o := by
  have hEnds := hPublished.ends
  have hWord : supply.wordSize ≤ 8 := by
    rcases hPublished.width with hFour | hEight <;> omega
  have hDistance : k * 2 * supply.wordSize ≤ k * 2 * 8 :=
    Nat.mul_le_mul_left _ hWord
  have hPart :
      recordOffset supply.wordSize k + supply.wordSize +
          supply.wordSize ≤
        extent := by
    unfold recordOffset extent regionsOffset
    unfold Limits.inspectableRegions at hRoom ⊢
    omega
  have hRecord :
      recordOffset supply.wordSize k =
        regionsOffset + k * 2 * supply.wordSize :=
    rfl
  unfold regionAt
  apply meets_product (by omega)
  apply meets_sum (by omega)
  rw [← hRecord]
  refine meets_bind
    (meets_wordAt hPublished hStocks (by omega)) ?_
  rintro start d ⟨hOn, hStart⟩
  apply meets_sum (by omega)
  refine meets_bind
    (meets_wordAt hPublished hOn (by omega)) ?_
  rintro size g ⟨hLater, hSize⟩
  exact meets_pure ⟨hLater, hStart, hSize⟩

/- The source says how wide words are. -/
theorem meets_wordWidth
    {α : Type}
    {post : α → PageCache σ → Prop}
    {next : Nat → ObserverM (PageCache σ) α}
    (hStocks : supply.Stocks c)
    (hNext :
      Meets supply.mayFault supply.Spares (next supply.wordSize) c
        post) :
    Meets supply.mayFault supply.Spares (wordWidth >>= next) c
      post := by
  apply meets_read
  rw [supply.wordSize_eq hStocks.alive]
  exact hNext

/- The published regions, as many as there is room for. -/
theorem meets_regions
    (hPublished : Published supply v)
    (hStocks : supply.Stocks c) :
    Meets supply.mayFault supply.Spares v.regions c fun os d =>
      supply.Stocks d ∧
        ∃ count,
          supply.Says supply.wordSize
              (v.address + regionCountOffset) count ∧
            List.Forall₂ (Records supply v)
              (List.range (min count Limits.inspectableRegions))
              os := by
  have hPart : regionCountOffset + supply.wordSize ≤ extent := by
    rcases hPublished.width with hWidth | hWidth <;>
      rw [hWidth] <;> decide
  unfold regions
  refine meets_bind (meets_wordAt hPublished hStocks hPart) ?_
  rintro count d ⟨hOn, hCount⟩
  apply meets_wordWidth hOn
  refine
    (meets_mapM _ hOn fun k hMem g hStill =>
      meets_regionAt hPublished hStill ?_).imp id
      (fun _ hKept => hKept)
      fun os g hPost => ⟨hPost.1, count, hCount, hPost.2⟩
  exact
    Nat.lt_of_lt_of_le (List.mem_range.mp hMem)
      (Nat.min_le_right _ _)

------------------------------------------------------------
-- Roots
------------------------------------------------------------

/- The entry of a table of words. -/
def Entry
    (supply : Supply σ)
    (table k value : Nat) : Prop :=
  supply.Says supply.wordSize (table + k * supply.wordSize) value

/-
  Entries are read one after the other.  Each of them that was
  read ends before the last address, so the next one begins at
  an address.
-/
theorem meets_rootsFrom
    {table : Nat}
    (count k : Nat)
    (before : List Nat)
    (hWidth : supply.wordSize = 4 ∨ supply.wordSize = 8)
    (hStocks : supply.Stocks c)
    (hBegins : table + k * supply.wordSize < Word.limit)
    (hReaches :
      ∀ i, i < k + count →
        supply.Reaches (table + i * supply.wordSize)
          supply.wordSize) :
    Meets supply.mayFault supply.Spares
      (rootsFrom table supply.wordSize count k before) c
      fun roots d =>
        supply.Stocks d ∧
          ∃ values,
            List.Forall₂ (Entry supply table)
                (List.range' k count) values ∧
              roots = before.reverse ++ values.filter (· ≠ 0) := by
  induction count generalizing c k before with
  | zero =>
      refine meets_pure ⟨hStocks, [], .nil, ?_⟩
      exact (List.append_nil _).symm
  | succ count ih =>
      unfold rootsFrom
      apply meets_product (by omega)
      apply meets_sum hBegins
      refine meets_bind
        (meets_saysWord _ hWidth hStocks (hReaches k (by omega)))
        ?_
      rintro root d ⟨hOn, hSays⟩
      have hNext :
          table + (k + 1) * supply.wordSize < Word.limit := by
        rw [Nat.succ_mul, ← Nat.add_assoc]
        exact hSays.1
      refine
        (ih (k + 1) _ hOn hNext
          fun i hLt => hReaches i (by omega)).imp id
          (fun _ hKept => hKept) ?_
      rintro roots g ⟨hLater, values, hEntries, rfl⟩
      refine ⟨hLater, root :: values, .cons hSays hEntries, ?_⟩
      by_cases hNull : root = 0
      · rw [if_pos hNull, List.filter_cons_of_neg (by simpa)]
      · rw [if_neg hNull, List.filter_cons_of_pos (by simpa),
          List.reverse_cons, List.append_assoc]
        rfl

/- The word that says where the root table is. -/
def SaysTable
    (supply : Supply σ)
    (v : HeapView)
    (table : Nat) : Prop :=
  supply.Says supply.wordSize (v.address + rootsAddressOffset)
    table

/- The word that says how many entries it has. -/
def SaysCapacity
    (supply : Supply σ)
    (v : HeapView)
    (capacity : Nat) : Prop :=
  supply.Says supply.wordSize (v.address + rootsCapacityOffset)
    capacity

/- Every entry of the published root table is supplied. -/
def Rooted
    (supply : Supply σ)
    (v : HeapView) : Prop :=
  ∀ table capacity, SaysTable supply v table →
    SaysCapacity supply v capacity →
      ∀ k, k < capacity →
        supply.Reaches (table + k * supply.wordSize)
          supply.wordSize

/- Words of a machine are words. -/
theorem lt_of_saysWord
    {a value : Nat}
    (hWidth : supply.wordSize = 4 ∨ supply.wordSize = 8)
    (hSays : supply.Says supply.wordSize a value) :
    value < Word.limit := by
  rcases hSays with ⟨_, bs, hLength, _, rfl⟩
  have hWord : bs.length ≤ 8 := by
    rcases hWidth with hFour | hEight <;> omega
  exact BootImageHeader.decode_lt _ _ hWord

/- The entries of the root table that are not null. -/
theorem meets_roots
    (hPublished : Published supply v)
    (hRooted : Rooted supply v)
    (hStocks : supply.Stocks c) :
    Meets supply.mayFault supply.Spares v.roots c fun roots d =>
      supply.Stocks d ∧
        ∃ table capacity values,
          SaysTable supply v table ∧
            SaysCapacity supply v capacity ∧
            List.Forall₂ (Entry supply table)
              (List.range capacity) values ∧
            roots = values.filter (· ≠ 0) := by
  have hWidth := hPublished.width
  have hTable : rootsAddressOffset + supply.wordSize ≤ extent := by
    rcases hWidth with hWidth | hWidth <;> rw [hWidth] <;> decide
  have hCapacity :
      rootsCapacityOffset + supply.wordSize ≤ extent := by
    rcases hWidth with hWidth | hWidth <;> rw [hWidth] <;> decide
  unfold roots
  refine meets_bind (meets_wordAt hPublished hStocks hTable) ?_
  rintro table d ⟨hOn, hSaysTable⟩
  refine meets_bind (meets_wordAt hPublished hOn hCapacity) ?_
  rintro capacity g ⟨hStill, hSaysCapacity⟩
  apply meets_wordWidth hStill
  have hBegins := lt_of_saysWord hWidth hSaysTable
  refine
    (meets_rootsFrom capacity 0 [] hWidth hStill (by omega) ?_).imp
      id (fun _ hKept => hKept) ?_
  · intro k hLt
    exact
      hRooted table capacity hSaysTable hSaysCapacity k (by omega)
  · rintro roots e ⟨hLater, values, hEntries, rfl⟩
    rw [← List.range_eq_range'] at hEntries
    exact
      ⟨hLater, table, capacity, values, hSaysTable,
        hSaysCapacity, hEntries, rfl⟩

------------------------------------------------------------
-- Snapshots
------------------------------------------------------------

/- The number that stands for one of the epochs. -/
theorem meets_epochAt
    {offset : Nat}
    (hStocks : supply.Stocks c)
    (hWord : v.address + offset < Word.limit)
    (hReaches : supply.Reaches (v.address + offset) 8) :
    Meets supply.mayFault supply.Spares
      (do
        let a ← Word.add v.address offset
        readNumber 8 a)
      c fun value d =>
        supply.Stocks d ∧
          supply.Says 8 (v.address + offset) value :=
  meets_sum hWord (meets_saysNumber 8 _ hStocks hReaches)

/- What the words of a heap say of it between collections. -/
structure Observes
    (supply : Supply σ)
    (v : HeapView)
    (o : ObservedHeap) : Prop where
  epochs :
    ∃ collection,
      supply.Says 8 (v.address + collectionEpochOffset)
          collection ∧
        supply.Says 8 (v.address + rootEpochOffset) o.rootEpoch ∧
        collection ≤ o.rootEpoch
  regions :
    ∃ count,
      supply.Says supply.wordSize (v.address + regionCountOffset)
          count ∧
        List.Forall₂ (Records supply v)
          (List.range (min count Limits.inspectableRegions))
          o.regions
  roots :
    ∃ table capacity values,
      SaysTable supply v table ∧
        SaysCapacity supply v capacity ∧
        List.Forall₂ (Entry supply table) (List.range capacity)
          values ∧
        o.roots = values.filter (· ≠ 0)

/- The epochs are not those of a collection that goes on. -/
def Settled
    (supply : Supply σ)
    (v : HeapView) : Prop :=
  ∀ collection root,
    supply.Says 8 (v.address + collectionEpochOffset) collection →
      supply.Says 8 (v.address + rootEpochOffset) root →
        collection ≤ root

/-
  A snapshot is made of what the words say.  It may fail only
  where reads may, or where a collection may go on.
-/
theorem meets_snapshot
    (hPublished : Published supply v)
    (hRooted : Rooted supply v)
    (hSettled : supply.mayFail ∨ Settled supply v)
    (hStocks : supply.Stocks c) :
    Meets supply.mayFault supply.Spares v.snapshot c fun o d =>
      supply.Stocks d ∧ Observes supply v o := by
  have hEnds := hPublished.ends
  unfold extent regionsOffset Limits.inspectableRegions at hEnds
  have hEpoch
      {offset : Nat}
      {d : PageCache σ}
      (hPart : offset + 8 ≤ 16)
      (hOn : supply.Stocks d) :
      Meets supply.mayFault supply.Spares
        (do
          let a ← Word.add v.address offset
          readNumber 8 a)
        d fun value g =>
          supply.Stocks g ∧
            supply.Says 8 (v.address + offset) value :=
    meets_epochAt hOn (by omega)
      (hPublished.reaches (Nat.le_trans hPart (by decide)))
  unfold snapshot
  refine meets_bind (hEpoch (by decide) hStocks) ?_
  rintro collection d ⟨hOn, hCollection⟩
  refine meets_bind (hEpoch (by decide) hOn) ?_
  rintro root g ⟨hStill, hRoot⟩
  split
  · rename_i hBusy
    have hMayFail : supply.mayFail :=
      hSettled.resolve_right fun hQuiet =>
        absurd hBusy
          (Nat.not_lt_of_le (hQuiet _ _ hCollection hRoot))
    exact meets_fail ⟨hMayFail, hStill⟩
  · rename_i hQuiet
    refine meets_bind (meets_regions hPublished hStill) ?_
    rintro regions e ⟨hNext, hRegions⟩
    refine meets_bind (meets_roots hPublished hRooted hNext) ?_
    rintro roots k ⟨hLast, hRoots⟩
    exact
      meets_pure
        ⟨hLast,
          ⟨collection, hCollection, hRoot, Nat.le_of_not_lt hQuiet⟩,
          hRegions, hRoots⟩

end HeapView

end BeltHeap
