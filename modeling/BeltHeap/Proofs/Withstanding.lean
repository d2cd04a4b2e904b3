import BeltHeap.Observer.Simulated
import BeltHeap.Proofs.Snapshots
import BeltHeap.Proofs.Sources

/-
  Snapshots of whatever a target holds.  A target may give any
  counts and addresses, and change them as it likes; a snapshot
  comes to an error or to a heap that is bounded, and is never
  at fault.

  Main declarations:
    * `HeapView.Withstands`
    * `HeapView.withstands_of_lawful`
    * `HeapView.snapshots_withstand_targets`
    * `HeapView.snapshots_may_lack_room`
-/

------------------------------------------------------------
-- Any Bytes
------------------------------------------------------------

namespace BeltHeap

open MemorySource ObserverM

section Lawful

variable {σ : Type} [MemorySource σ]

/-
  Pages that a buffer can be made for are supplied as far as
  there are addresses.
-/
theorem MemorySource.Lawful.covers
    {source : σ}
    {a n : Nat}
    (hLawful : Lawful σ)
    (hPower : Word.isPowerOfTwo (pageSize source) = true)
    (hSmall : pageSize source < Word.signedLimit)
    (hEnds : a + n < Word.limit) :
    (hLawful.supply source hPower False).Covers a n :=
  fun _ _ hHigh => .inr ⟨hSmall, Nat.lt_trans hHigh hEnds⟩

namespace HeapView

/-
  A snapshot comes to a heap with no more regions than there are
  records and no root that is null, or to an error.
-/
def Withstands
    (v : HeapView)
    (r : Logged (PageCache σ)) : Prop :=
  (∃ o t,
      v.snapshot r = (.ok o, t) ∧
        o.regions.length ≤ Limits.inspectableRegions ∧
        0 ∉ o.roots) ∨
    ∃ e t, v.snapshot r = (.error (.error e), t)

/- Heaps that are observed are bounded, whatever the words say. -/
theorem Observes.bounded
    {supply : Supply σ}
    {v : HeapView}
    {o : ObservedHeap}
    (hObserves : Observes supply v o) :
    o.regions.length ≤ Limits.inspectableRegions ∧
      0 ∉ o.roots := by
  rcases hObserves.regions with ⟨count, _, hRecords⟩
  rcases hObserves.roots with ⟨_, _, values, _, _, _, hRoots⟩
  refine ⟨?_, fun hMem => ?_⟩
  · rw [← hRecords.length_eq, List.length_range]
    exact Nat.min_le_right _ _
  · rw [hRoots] at hMem
    exact of_decide_eq_true (List.mem_filter.mp hMem).2 rfl

/- A cache in use over a lawful source withstands snapshots. -/
theorem withstands_of_lawful
    {v : HeapView}
    {r : Logged (PageCache σ)}
    (hLawful : Lawful σ)
    (hUse : PageCache.InUse r)
    (hWidth :
      wordSize r.state.source = 4 ∨ wordSize r.state.source = 8)
    (hSmall : pageSize r.state.source < Word.signedLimit)
    (hEnds : v.address + extent < Word.limit) :
    Withstands v r := by
  have hShelved := hUse.shelved hLawful
  have hCovers {a n : Nat} (hNear : a + n < Word.limit) :
      (hLawful.supply r.state.source hShelved.power False).Covers
        a n :=
    hLawful.covers hShelved.power hSmall hNear
  have hMeets :=
    meets_snapshot ⟨hWidth, hEnds, hCovers hEnds⟩
      (fun _ _ _ _ _ _ => ⟨hCovers, .inl trivial⟩) (.inl trivial)
      (hShelved.stocks hLawful False)
  have hOutcome := hMeets.upholds r.log
  have hFaults := hMeets.faults r.log
  change Outcome _ _ (v.snapshot r).1 (v.snapshot r).2.state
    at hOutcome
  change ∀ f, (v.snapshot r).1 = _ → False at hFaults
  unfold Withstands
  rcases hRun : v.snapshot r with ⟨(e | f) | o, t⟩
  · exact .inr ⟨e, t, rfl⟩
  · rw [hRun] at hFaults
    exact (hFaults f rfl).elim
  · rw [hRun] at hOutcome
    exact .inl ⟨o, t, rfl, hOutcome.2.bounded⟩

end HeapView

end Lawful

------------------------------------------------------------
-- Processes and Images
------------------------------------------------------------

namespace HeapView

open ReadOnlyImage

/-
  A snapshot through a cache in use over a process, whatever its
  target holds and however its channel fails, or over an image,
  whatever its file holds, comes to a bounded heap or an error,
  as long as a page is smaller than half of all addresses.
-/
theorem snapshots_withstand_targets
    {a : Nat}
    (hEnds : a + 296 < Word.limit) :
    (∀ (σ : Type) [ProcessChannel σ]
        (r : Logged (PageCache (LiveProcess σ))),
      PageCache.InUse r →
      (r.state.source.wordSize = 4 ∨
        r.state.source.wordSize = 8) →
      r.state.source.pageSize < Word.signedLimit →
        Withstands ⟨a⟩ r) ∧
    ∀ (bs : List UInt8) (r : Logged (PageCache ReadOnlyImage)),
      Makes (ofFile (some bs)) r.state.source →
      PageCache.InUse r →
      (r.state.source.header.wordSize = 4 ∨
        r.state.source.header.wordSize = 8) →
        Withstands ⟨a⟩ r := by
  constructor
  · intro σ _ r hUse hWidth hSmall
    exact
      withstands_of_lawful LiveProcess.lawful hUse hWidth hSmall
        hEnds
  · intro bs r hMakes hUse hWidth
    have hFits := (makes_ofFile.mp hMakes).1.describes.fits
    have hSmall : 256 ^ 4 < Word.signedLimit := by decide
    exact
      withstands_of_lawful ReadOnlyImage.lawful hUse hWidth
        (Nat.lt_trans hFits.pageSize hSmall) hEnds

end HeapView

------------------------------------------------------------
-- Simulated Targets
------------------------------------------------------------

namespace HeapView

open PageCache ReadOnlyImage

/- A process with nothing but bytes that have all bits set. -/
def garbled : LiveProcess SimulatedTarget :=
  .attach { base := 0, memory := Array.replicate 4096 255 } .stopped

/- A process whose pages are half of all addresses. -/
def vast : LiveProcess SimulatedTarget :=
  .attach
    { base := 4096
      memory := #[]
      pageSize := Word.signedLimit }
    .stopped

/- Snapshots of small targets. -/
theorem snapshots_withstand_targets_small :
    Withstands ⟨16⟩ (anew garbled) ∧
    ∃ bs i,
      Makes (ofFile (some bs)) i ∧ i.header = smallHeader ∧
        Withstands ⟨16⟩ (anew i) := by
  have hEnds : 16 + 296 < Word.limit := by decide
  have hMakes : Makes (BootImageHeader.parse smallHeader.toBytes)
      smallHeader := by
    unfold Makes
    decide +kernel
  have hLength :
      smallContents.length =
        smallHeader.heapSize + smallHeader.codeSize :=
    rfl
  rcases makes_of_writeImage hMakes (by decide) hLength with
    ⟨bs, _, hOpened⟩
  exact
    ⟨(snapshots_withstand_targets hEnds).1 SimulatedTarget _
        (.start (make_anew (by decide +kernel))) (.inr rfl)
        (by decide),
      bs, _, hOpened, rfl,
      (snapshots_withstand_targets hEnds).2 bs _ hOpened
        (.start (make_anew (by decide +kernel))) (.inl rfl)⟩

/-
  No buffer can be made for a page of half of all addresses, and
  a snapshot that needs one is at fault.
-/
theorem snapshots_may_lack_room :
    PageCache.InUse (anew vast) ∧
    vast.wordSize = 8 ∧
    4096 + 296 < Word.limit ∧
    ∃ t,
      HeapView.snapshot ⟨4096⟩ (anew vast) =
        (.error (.fault .capacityOverflow), t) := by
  refine ⟨.start (make_anew (by decide +kernel)), rfl, by decide, ?_⟩
  have hNone : (anew vast).state.pages[0]? = none :=
    Std.HashMap.getElem?_empty
  have hFetch :
      ∃ t,
        PageCache.fetchAt 0 4096 8 (anew vast) =
          (.error (.fault .capacityOverflow), t) := by
    unfold PageCache.fetchAt
    rw [Activity.run_bind, Session.pageAt_of_none rfl hNone]
    exact ⟨_, rfl⟩
  rcases hFetch with ⟨t, hFetch⟩
  have hFrom :
      PageCache.readFrom Word.signedLimit 8 4096 (anew vast) =
        (.error (.fault .capacityOverflow), t) := by
    rw [PageCache.readFrom, dif_neg (by decide)]
    change (PageCache.fetchAt 0 4096 8 >>= _) _ = _
    rw [Activity.run_bind, hFetch]
  have hInto :
      PageCache.readInto 4096 8 (anew vast) =
        (.error (.fault .capacityOverflow), t) := by
    unfold PageCache.readInto
    rw [if_neg (by decide)]
    exact hFrom
  have hEpoch :
      collectionEpoch ⟨4096⟩ (anew vast) =
        (.error (.fault .capacityOverflow), t) := by
    change PageCache.readNumber 8 4096 _ = _
    unfold PageCache.readNumber
    rw [Activity.run_bind, hInto]
  refine ⟨t, ?_⟩
  unfold snapshot
  rw [Activity.run_bind, hEpoch]

end HeapView

end BeltHeap
