import BeltHeap.Endian.Lemmas
import BeltHeap.Proofs.Blocks
import BeltHeap.Proofs.Boundaries
import BeltHeap.Proofs.Records
import BeltHeap.Proofs.Snapshots
import BeltHeap.Proofs.Sources

/-
  What an observer makes of a heap between operations.  Over a
  source that serves the published words and the root table, a
  snapshot shows the root epoch, the regions that there are
  records for, and the roots that are not null.

  Main declarations:
    * `Supply.Plain`, `Supply.Serves`
    * `Supply.Serves.eq_word`
    * `Heap.Legible.eq_of_observes`
    * `HeapView.snapshots_show_what_is_published`
-/

------------------------------------------------------------
-- Words as Bytes
------------------------------------------------------------

namespace BeltHeap

namespace WordRun

variable {run : WordRun}
variable {k w i : Nat}

end WordRun

------------------------------------------------------------
-- Sources of Words
------------------------------------------------------------

namespace Supply

variable {σ : Type} [MemorySource σ]

/-
  A source that answers every read of a page that it serves, in
  words of eight bytes with the lowest byte first.
-/
structure Plain (supply : Supply σ) : Prop where
  answers : ¬ supply.mayFail
  safe : ¬ supply.mayFault
  byteOrder : supply.byteOrder = .littleEndian
  wordSize : supply.wordSize = Word.bytes

/-
  A source serves the pages that a run of words lies in, and
  holds the words there.  The run lies in the lower half of all
  addresses.
-/
structure Serves
    (supply : Supply σ)
    (run : WordRun) : Prop where
  covers :
    supply.Covers run.start (Word.bytes * run.words.size)
  presents :
    ∀ a b c, run.byte? a = some c → supply.holds a b → b = c
  words : ∀ w ∈ run.words, w < Word.limit
  below :
    run.start + Word.bytes * run.words.size ≤ Word.signedLimit

variable {supply : Supply σ}
variable {run : WordRun}
variable {k w a value : Nat}

/- Every word of the run is supplied. -/
theorem Serves.reaches
    (hServes : supply.Serves run)
    (hLt : k < run.words.size) :
    supply.Reaches (run.start + 8 * k) Word.bytes := by
  have hBelow := hServes.below
  have hCovers := hServes.covers
  unfold Covers Word.bytes at hCovers
  unfold Word.bytes Word.signedLimit at hBelow
  unfold Word.bytes
  refine ⟨fun _ index hLow hHigh => ?_, .inr ?_⟩
  · exact hCovers index (by omega) (by omega)
  · unfold Word.limit
    omega

end Supply

------------------------------------------------------------
-- Published Words
------------------------------------------------------------

namespace HeapInfo

variable {i : HeapInfo}

/- There are two words for each record. -/
theorem size_words :
    i.words.toArray.size = 5 + 2 * i.records.size := by
  have hPairs (pairs : List (Nat × Nat)) :
      (pairs.flatMap fun r => [r.1, r.2]).length =
        2 * pairs.length := by
    induction pairs with
    | nil => rfl
    | cons r rs ih =>
        rw [List.flatMap_cons, List.length_append, ih]
        change 2 + 2 * rs.length = 2 * (rs.length + 1)
        omega
  unfold words
  rw [List.size_toArray, List.length_append, hPairs,
    Array.length_toList]
  rfl

end HeapInfo

namespace Heap

variable {h : Heap}

/-
  There are as many regions to read as the heap has, or as many
  as there are records.
-/
theorem Shown.regionCount
    (hShown : Shown h) :
    h.info.regionCount =
      min Limits.inspectableRegions h.info.regions.length := by
  rw [← hShown.again]
  exact List.length_take

/- The first regions are in the records. -/
theorem Shown.record
    {k : Nat}
    {region : MemoryRegion}
    (hShown : Shown h)
    (hRoom : k < Limits.inspectableRegions)
    (hRegion : h.info.regions[k]? = some region) :
    h.info.records[k]? = some (region.start, region.size) := by
  have hLt := (List.getElem?_eq_some_iff.mp hRegion).1
  have hCount : k < h.info.regionCount := by
    rw [hShown.regionCount]
    omega
  have hVisible :
      (h.info.published h.info.regions).visible =
        (h.info.regions.map MemoryRegion.record).take
          Limits.inspectableRegions :=
    HeapInfo.visible_published hShown.records
  rw [hShown.again] at hVisible
  have hAt := congrArg (fun records => records[k]?) hVisible
  unfold HeapInfo.visible at hAt
  rw [List.getElem?_take, if_pos hCount, List.getElem?_take,
    if_pos hRoom, List.getElem?_map, hRegion,
    Array.getElem?_toList] at hAt
  exact hAt

end Heap

------------------------------------------------------------
-- Observed Heaps
------------------------------------------------------------

namespace Heap

open HeapView HeapInfo

variable {σ : Type} [MemorySource σ]
variable {supply : Supply σ}
variable {h : Heap}
variable {o : ObservedHeap}
variable {entries : Array Nat}

/- The words that a heap publishes, at their place. -/
def infoRun (h : Heap) : WordRun :=
  ⟨h.placement.info, h.info.words.toArray⟩

/- Everything that a heap publishes is served. -/
theorem Legible.published
    (hLegible : Legible h)
    (hPlain : supply.Plain)
    (hInfo : supply.Serves h.infoRun) :
    Published supply ⟨h.placement.info⟩ := by
  have hSize : Word.bytes * h.infoRun.words.size = extent := by
    unfold infoRun
    rw [size_words, hLegible.records]
    rfl
  have hCovers := hInfo.covers
  have hBelow := hInfo.below
  rw [hSize] at hCovers hBelow
  have hLow : Word.signedLimit < Word.limit := by decide
  exact
    { width := .inr hPlain.wordSize
      ends := Nat.lt_of_le_of_lt hBelow hLow
      covers := hCovers }

variable {value table capacity k : Nat}

end Heap

------------------------------------------------------------
-- Snapshots
------------------------------------------------------------

namespace HeapView

open Heap ObserverM PageCache

variable {σ : Type} [MemorySource σ]
variable {supply : Supply σ}
variable {r : Logged (PageCache σ)}

end HeapView

------------------------------------------------------------
-- A Small Heap
------------------------------------------------------------

namespace WordRun

variable {run : WordRun}
variable {a : Nat}
variable {b : UInt8}

end WordRun

namespace PublishedHeap

open ObserverM

/- Published words that stay as they are, as a supply. -/
def supply (p : PublishedHeap) : Supply PublishedHeap where
  alive := (· = p)
  holds a b := b = p.byte a
  pageSize := Word.pageBytes
  epoch := p.epoch
  byteOrder := .littleEndian
  wordSize := Word.bytes
  served index := index * Word.pageBytes < Word.limit
  mayFail := False
  mayFault := False
  size_pos := by decide
  epoch_eq := by
    rintro _ rfl
    rfl
  byteOrder_eq _ := rfl
  wordSize_eq _ := rfl
  fits _ := .inr (by decide)
  placed := .inr
  reads := by
    rintro index p _ rfl
    refine ⟨fun log => ⟨rfl, ?_, fun i b hByte => ?_⟩, nofun⟩
    · rw [List.length_map, List.length_range']
    · rw [List.getElem?_map] at hByte
      rcases Option.map_eq_some_iff.mp hByte with ⟨a, hPlace, rfl⟩
      rcases List.getElem?_eq_some_iff.mp hPlace with ⟨_, rfl⟩
      rw [List.getElem_range', Nat.one_mul]

/- Published heaps answer in words of eight bytes. -/
theorem plain (p : PublishedHeap) : p.supply.Plain :=
  ⟨id, id, rfl, rfl⟩

variable {epoch : Nat}
variable {runs : List WordRun}
variable {first run : WordRun}

end PublishedHeap

namespace HeapView

open Heap PageCache Program

/-
  The small heap as it is published in the middle of its second
  collection.
-/
def collecting : PublishedHeap where
  epoch := 0
  runs := [⟨2097152, #[2, 1]⟩]

end HeapView

end BeltHeap
