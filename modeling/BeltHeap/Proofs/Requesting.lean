import BeltHeap.Proofs.Blocks

/-
  Requests of any size.  They are met by a block or refused, but
  for those just below the limit of words: some are rounded up
  to nothing and answered with no block, and others break off,
  since a mark behind their block is no word.

  Main declarations:
    * `Program.MetOrRefused`
    * `Program.ends_metOrRefused`
    * `Program.requests_are_met_or_refused`
    * `Program.requests_may_wrap_around`
-/

------------------------------------------------------------
-- Answers to Requests
------------------------------------------------------------

namespace BeltHeap

namespace Program

open Heap

/-
  A request is refused for the bytes it was rounded up to, or a
  block of at least the bytes asked for lies below the mark of
  a belt.
-/
def MetOrRefused
    (bytes size : Nat) :
    Except AllocationError Nat → Heap → Prop
| .error e, _ =>
    e = .heapExhausted size ∨ e = .outOfMemoryLatched size
| .ok a, g =>
    ∃ b ∈ g.layout.belts,
      b.start ≤ a ∧ a + bytes ≤ b.mark ∧ b.mark ≤ b.stop

variable {rt : Runtime}
variable {h g : Heap}
variable {nursery mature : Belt}
variable {old young : List Nat}
variable {bytes size : Nat}
variable {result : Except AllocationError Nat}

/- Every outcome of an allocation meets or refuses the request. -/
theorem metOrRefused_of_allocation
    (hStandard : rt.Standard)
    (hSound : Sound rt h nursery mature old young)
    (hBytes : bytes ≤ size)
    (hAllocation :
      Allocation rt h nursery mature old young size result g) :
    MetOrRefused bytes size result g := by
  cases result with
  | error e =>
      cases hAllocation with
      | latched _ _ => exact Or.inr rfl
      | exhausted _ _ _ _ _ => exact Or.inl rfl
  | ok a =>
      rcases hAllocation.allots hStandard hSound with
        ⟨k, nursery', mature', old', young', hSince, hCut, -⟩
      rcases belt_of_cut hSince.follows.sound hCut with
        ⟨b, hBelt, hStart, hMark, hStop⟩
      exact ⟨b, hBelt, hStart, by omega, hStop⟩

/-
  A request that can be rounded up is met or refused, unless the
  end of its block is no word.
-/
theorem ends_metOrRefused
    (hStandard : rt.Standard)
    (hSound : Sound rt h nursery mature old young)
    (hBytes : bytes + Word.bytes ≤ Word.limit) :
    HeapM.Ends (h.Overflows (HeapM.roundedSize rt bytes))
      (HeapM.alloc rt bytes) h
      (MetOrRefused bytes (HeapM.roundedSize rt bytes)) := by
  rcases HeapM.roundedSize_spec hStandard hBytes with
    ⟨-, hLow, -⟩
  have hWord : 0 < Word.bytes := by decide
  rcases HeapM.ends_allocation hStandard hSound
      (show 0 < HeapM.roundedSize rt bytes by omega) with
    ⟨result, g, hYields, hAllocation⟩ |
      ⟨f, g, hOver, hYields⟩
  · exact
      HeapM.ends_of_yields hYields
        (metOrRefused_of_allocation hStandard hSound (by omega)
          hAllocation)
  · exact HeapM.ends_of_error hOver hYields

------------------------------------------------------------
-- Sizes that are No Words
------------------------------------------------------------

/- Requests just below the limit are rounded up to nothing. -/
theorem roundedSize_eq_zero
    (hStandard : rt.Standard)
    (hWord : bytes < Word.limit)
    (hLarge : Word.limit < bytes + Word.bytes) :
    HeapM.roundedSize rt bytes = 0 := by
  rw [HeapM.roundedSize_eq hStandard]
  unfold Word.bytes Word.limit at *
  omega

theorem yields_alloc_nothing
    (hSound : Sound rt h nursery mature old young)
    (hNone : HeapM.roundedSize rt bytes = 0) :
    HeapM.Yields (HeapM.alloc rt bytes) h
      (.ok (.ok nursery.mark)) h := by
  have hBounds := hSound.shape.fits.bounds
  have hMark := hSound.shape.fits.nurseryMark
  have hStop := hSound.shape.fits.stop_le
  have hSame :
      h.cutNursery nursery mature 0 = h := by
    unfold cutNursery withLayout
    rw [Nat.add_zero, ← hSound.shape.layout]
  have hPage : 0 < Word.pageBytes := by decide
  have hTry :
      HeapM.Ends (h.Overflows 0) (HeapM.allocateNursery 0) h
        fun a? g => a? = some nursery.mark ∧ g = h := by
    rcases HeapM.ends_allocateNursery hSound 0 with
      ⟨a?, g, hYields, ⟨hFull, -⟩ | ⟨-, hSome, hHeap⟩⟩ | hOver
    · omega
    · exact
        HeapM.ends_of_yields hYields
          ⟨hSome, hHeap.trans hSame⟩
    · exact Or.inr hOver
  have hFits : ∀ f, ¬ h.Overflows 0 f := by
    rintro f ⟨-, hOver⟩
    omega
  rcases hTry.returns hFits with ⟨_, _, hYields, rfl, rfl⟩
  unfold HeapM.alloc
  rw [hNone]
  exact HeapM.yields_bind hYields (HeapM.yields_pure _)

/- The mark of the nursery cannot be moved beyond all words. -/
theorem yields_alloc_overflow
    (hSound : Sound rt h nursery mature old young)
    (hOver :
      Word.limit ≤ nursery.mark + HeapM.roundedSize rt bytes) :
    HeapM.Yields (HeapM.alloc rt bytes) h
      (.error .addOverflow) h := by
  have hBump :
      nursery.bump (HeapM.roundedSize rt bytes) =
        .error .addOverflow := by
    unfold Belt.bump Word.add
    rw [if_neg (Nat.not_lt.mpr hOver)]
    rfl
  have hNursery : h.beltOf Role.nursery = nursery :=
    hSound.shape.nursery_eq
  unfold HeapM.alloc HeapM.allocateNursery HeapM.allocateIn
  refine HeapM.yields_bind_error ?_
  apply HeapM.yields_read
  rw [hNursery]
  exact
    HeapM.yields_bind_error
      (HeapM.yields_bind_error (HeapM.yields_lift_error hBump))

/- No belt of a sound heap has nearly as many bytes as a word. -/
theorem not_metOrRefused
    (hSound : Sound rt h nursery mature old young)
    (hLarge : Word.limit < bytes + Word.bytes)
    (a : Nat) :
    ¬ MetOrRefused bytes size (.ok a) h := by
  rintro ⟨b, hBelt, -, hMark, hStop⟩
  have hBounds := hSound.shape.fits.bounds
  have hLimit := hSound.shape.fits.stop_le
  have hPage : Word.bytes < Word.pageBytes := by decide
  rw [hSound.shape.layout, Layout.mem_belts_pair] at hBelt
  rcases hBelt with rfl | rfl
  · omega
  · omega

------------------------------------------------------------
-- Requests of Programs
------------------------------------------------------------

variable {s : State}

/-
  Whatever a program did before, a request of up to eight bytes
  below the limit of words is met or refused, unless the end of
  a block behind the heap is no word.  Then it may break off,
  and does if the mark of the nursery cannot be moved so far.
  Larger requests come to no block and change nothing.
-/
theorem requests_are_met_or_refused
    (hReached : Reached rt s)
    {bytes : Nat}
    (hWord : bytes < Word.limit) :
    (bytes + Word.bytes ≤ Word.limit →
      HeapM.Ends
          (s.heap.Overflows (HeapM.roundedSize rt bytes))
          (HeapM.alloc rt bytes) s.heap
          (MetOrRefused bytes (HeapM.roundedSize rt bytes)) ∧
        (Word.limit ≤
            s.heap.nursery.mark + HeapM.roundedSize rt bytes →
          HeapM.Yields (HeapM.alloc rt bytes) s.heap
            (.error .addOverflow) s.heap)) ∧
      (Word.limit < bytes + Word.bytes →
        HeapM.Yields (HeapM.alloc rt bytes) s.heap
            (.ok (.ok s.heap.nursery.mark)) s.heap ∧
          ¬ MetOrRefused bytes (HeapM.roundedSize rt bytes)
            (.ok s.heap.nursery.mark) s.heap) := by
  have hStandard := hReached.standard
  rcases hReached.invariant with
    ⟨nursery, mature, old, young, hSound, -⟩
  rw [hSound.shape.nursery_eq]
  refine ⟨fun hBytes => ⟨?_, ?_⟩, fun hLarge => ⟨?_, ?_⟩⟩
  · exact ends_metOrRefused hStandard hSound hBytes
  · exact yields_alloc_overflow hSound
  · exact
      yields_alloc_nothing hSound
        (roundedSize_eq_zero hStandard hWord hLarge)
  · exact not_metOrRefused hSound hLarge _

/- A request of three words is met in the small run. -/
theorem requests_are_met_or_refused_small :
    ∃ result g,
      HeapM.Yields (HeapM.alloc {} 24) small.heap (.ok result)
          g ∧
        MetOrRefused 24 24 result g := by
  have hStop : small.heap.layout.heap.stop = 131072 := by
    decide +kernel
  have hWords : ∀ f, ¬ small.heap.Overflows 24 f := by
    rintro f ⟨-, hOver⟩
    rw [hStop] at hOver
    exact absurd hOver (by decide)
  have hSize : HeapM.roundedSize {} 24 = 24 := by decide
  have hEnds :=
    ((requests_are_met_or_refused reached_small
      (show 24 < Word.limit by decide)).1 (by decide)).1
  rw [hSize] at hEnds
  exact hEnds.returns hWords

/-
  In a new heap, a request for sixteen bytes less than the limit
  breaks off, and one for a byte less is answered with the start
  of the nursery, where no belt has so many bytes.
-/
theorem requests_may_wrap_around :
    Reached {} smallStart ∧
      (HeapM.alloc {} 18446744073709551600 smallStart.run).1 =
        .error .addOverflow ∧
      (HeapM.alloc {} 18446744073709551615 smallStart.run).1 =
        .ok (.ok 65536) ∧
      ∀ b ∈ (HeapM.alloc {} 18446744073709551615
          smallStart.run).2.state.heap.layout.belts,
        b.mark < 65536 + 18446744073709551615 :=
  ⟨reached_smallStart, by decide +kernel, by decide +kernel,
    by decide +kernel⟩

end Program

end BeltHeap
