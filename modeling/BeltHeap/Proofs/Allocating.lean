import BeltHeap.Proofs.Collecting
import BeltHeap.Proofs.Formatting

/-
  What an allocation comes to: a block that was cut off the
  nursery at once, or off either belt after a collection, or an
  error that leaves a sound heap.

  Main declarations:
    * `Heap.Allocation`
    * `Heap.Since`, `Heap.Allots`
    * `Heap.Allocation.allots`
    * `Heap.Overflows`
    * `HeapM.ends_allocateNursery`
    * `HeapM.ends_allocation`
    * `HeapM.ensures_alloc`
-/

------------------------------------------------------------
-- Rounded Sizes
------------------------------------------------------------

namespace BeltHeap

/-
  The bytes that are allocated for a request: the least multiple
  of the alignment that is no less than the request.
-/
theorem HeapM.roundedSize_spec
    {rt : Runtime}
    (hStandard : rt.Standard)
    {bytes : Nat}
    (hBytes : bytes + Word.bytes ≤ Word.limit) :
    roundedSize rt bytes % Word.bytes = 0 ∧
      max bytes Word.bytes ≤ roundedSize rt bytes ∧
      roundedSize rt bytes < max bytes Word.bytes + Word.bytes := by
  unfold roundedSize
  rw [hStandard.alignment]
  apply Word.alignUp_bounds (k := 3) (by decide)
  unfold Word.bytes Word.limit at *
  omega

/- The bytes that are allocated, where sums may wrap around. -/
theorem HeapM.roundedSize_eq
    {rt : Runtime}
    (hStandard : rt.Standard)
    (bytes : Nat) :
    roundedSize rt bytes =
      (max bytes Word.bytes + 7) % Word.limit / 8 * 8 := by
  unfold roundedSize
  rw [hStandard.alignment]
  exact
    Word.alignUp_two_pow (k := 3) (by decide)
      (max bytes Word.bytes)

/- Rounded sizes are multiples of the alignment. -/
theorem HeapM.roundedSize_mod
    {rt : Runtime}
    (hStandard : rt.Standard)
    (bytes : Nat) :
    roundedSize rt bytes % Word.bytes = 0 := by
  rw [roundedSize_eq hStandard]
  exact Nat.mul_mod_left _ _

/- Rounded sizes are words. -/
theorem HeapM.roundedSize_lt
    {rt : Runtime}
    (hStandard : rt.Standard)
    (bytes : Nat) :
    roundedSize rt bytes < Word.limit := by
  have hWord :
      (max bytes Word.bytes + 7) % Word.limit < Word.limit :=
    Nat.mod_lt _ (by decide)
  rw [roundedSize_eq hStandard]
  exact Nat.lt_of_le_of_lt (Nat.div_mul_le_self _ _) hWord

/- A belt is bumped, or has no room, or its mark overflows. -/
theorem Belt.bump_cases
    (b : Belt)
    (size : Nat) :
    (Word.limit ≤ b.mark + size ∧
        b.bump size = .error .addOverflow) ∨
      (b.stop < b.mark + size ∧ b.bump size = .ok none) ∨
      (b.mark + size ≤ b.stop ∧
        b.bump size =
          .ok
            (some (b.mark, { b with mark := b.mark + size }))) := by
  unfold bump Word.add
  by_cases hLimit : b.mark + size < Word.limit
  · rw [if_pos hLimit]
    by_cases hRoom : b.mark + size ≤ b.stop
    · right
      right
      refine ⟨hRoom, ?_⟩
      change (if _ then _ else _) = _
      rw [if_pos hRoom]
      rfl
    · right
      left
      refine ⟨Nat.lt_of_not_le hRoom, ?_⟩
      change (if _ then _ else _) = _
      rw [if_neg hRoom]
      rfl
  · rw [if_neg hLimit]
    exact Or.inl ⟨Nat.le_of_not_lt hLimit, rfl⟩

------------------------------------------------------------
-- Outcomes
------------------------------------------------------------

namespace Heap

/-
  A heap is the one from before, or a collection has made a
  sound heap of it, in a later epoch.
-/
structure Since
    (rt : Runtime)
    (h : Heap)
    (old young : List Nat)
    (k : Heap)
    (nursery' mature' : Belt)
    (old' young' : List Nat) : Prop where
  follows : Follows rt h k nursery' mature' old' young'
  same :
    k.epoch = h.epoch → k = h ∧ old' = old ∧ young' = young

/-
  What an allocation of `size` bytes comes to.  Only where the
  nursery is too full and the heap did not run out of memory is
  there a collection, and only where it did not make enough room
  in the nursery is the mature belt tried.
-/
inductive Allocation
    (rt : Runtime)
    (h : Heap)
    (nursery mature : Belt)
    (old young : List Nat)
    (size : Nat) :
    Except AllocationError Nat → Heap → Prop where
| bumped
    (hRoom : nursery.mark + size ≤ nursery.stop) :
    Allocation rt h nursery mature old young size
      (.ok nursery.mark) (h.cutNursery nursery mature size)
| latched
    (hFull : nursery.stop < nursery.mark + size)
    (hLatched : h.outOfMemory = true) :
    Allocation rt h nursery mature old young size
      (.error (.outOfMemoryLatched size)) h
| collected
    {k : Heap}
    {nursery' mature' : Belt}
    {old' young' : List Nat}
    (hFull : nursery.stop < nursery.mark + size)
    (hFree : h.outOfMemory = false)
    (hCollects :
      Collects rt size h nursery mature old young true k nursery'
        mature' old' young')
    (hRoom : nursery'.mark + size ≤ nursery'.stop) :
    Allocation rt h nursery mature old young size
      (.ok nursery'.mark) (k.cutNursery nursery' mature' size)
| pretenured
    {success : Bool}
    {k : Heap}
    {nursery' mature' : Belt}
    {old' young' : List Nat}
    (hFull : nursery.stop < nursery.mark + size)
    (hFree : h.outOfMemory = false)
    (hCollects :
      Collects rt size h nursery mature old young success k
        nursery' mature' old' young')
    (hNoHelp :
      success = true → nursery'.stop < nursery'.mark + size)
    (hUsable : k.outOfMemory = false)
    (hRoom : mature'.mark + size ≤ mature'.stop) :
    Allocation rt h nursery mature old young size
      (.ok mature'.mark) (k.cutMature nursery' mature' size)
| exhausted
    {success : Bool}
    {k : Heap}
    {nursery' mature' : Belt}
    {old' young' : List Nat}
    (hFull : nursery.stop < nursery.mark + size)
    (hFree : h.outOfMemory = false)
    (hCollects :
      Collects rt size h nursery mature old young success k
        nursery' mature' old' young')
    (hNoHelp :
      success = true → nursery'.stop < nursery'.mark + size)
    (hNone :
      k.outOfMemory = true ∨
        mature'.stop < mature'.mark + size) :
    Allocation rt h nursery mature old young size
      (.error (.heapExhausted size)) k

/-
  What an allocation of some bytes leaves.  No collection ran
  unless the epoch changed, and then the block is cut off the
  nursery.
-/
def Allots
    (rt : Runtime)
    (h : Heap)
    (old young : List Nat)
    (size : Nat) :
    Except AllocationError Nat → Heap → Prop
| .error _, g =>
    ∃ nursery' mature' old' young',
      Since rt h old young g nursery' mature' old' young'
| .ok a, g =>
    ∃ k nursery' mature' old' young',
      Since rt h old young k nursery' mature' old' young' ∧
        Cut nursery' mature' size k g a ∧
        (k.epoch = h.epoch →
          a = nursery'.mark ∧
            nursery'.mark + size ≤ nursery'.stop ∧
              g = k.cutNursery nursery' mature' size)

variable {rt : Runtime}
variable {h g k : Heap}
variable {nursery mature nursery' mature' : Belt}
variable {old young old' young' : List Nat}
variable {size : Nat}
variable {success : Bool}
variable {result : Except AllocationError Nat}

/-
  A sum is no word, for a block of this size behind the heap is
  not made of words.
-/
def Overflows
    (h : Heap)
    (size : Nat)
    (f : Fault) : Prop :=
  f = .addOverflow ∧ Word.limit ≤ h.layout.heap.stop + size

/- Collections do not change where the heap ends. -/
theorem Follows.overflows
    (hFollows : Follows rt h g nursery mature old young) :
    g.Overflows size = h.Overflows size := by
  funext f
  unfold Overflows
  rw [hFollows.place]

/- A collection makes a sound heap in a later epoch. -/
theorem Collects.since
    (hStandard : rt.Standard)
    (hSound : Sound rt h nursery mature old young)
    (hFree : h.outOfMemory = false)
    (hCollects :
      Collects rt size h nursery mature old young success k
        nursery' mature' old' young') :
    Since rt h old young k nursery' mature' old' young' ∧
      k.epoch ≠ h.epoch := by
  rcases hCollects.follows hStandard hSound with
    ⟨hFollows, -, hLater⟩
  have hNe : k.epoch ≠ h.epoch :=
    Nat.ne_of_gt (hLater hFree)
  exact ⟨⟨hFollows, fun hEq => absurd hEq hNe⟩, hNe⟩

/- Whatever an allocation comes to leaves a sound heap. -/
theorem Allocation.allots
    (hStandard : rt.Standard)
    (hSound : Sound rt h nursery mature old young)
    (hAllocation :
      Allocation rt h nursery mature old young size result g) :
    Allots rt h old young size result g := by
  have hSince :
      Since rt h old young h nursery mature old young :=
    ⟨Follows.start hSound SameObjects.refl (Nat.le_refl _),
      fun _ => ⟨rfl, rfl, rfl⟩⟩
  cases hAllocation with
  | bumped hRoom =>
      exact
        ⟨h, nursery, mature, old, young, hSince,
          .nursery hRoom rfl, fun _ => ⟨rfl, hRoom, rfl⟩⟩
  | latched _ _ => exact ⟨nursery, mature, old, young, hSince⟩
  | collected _ hFree hCollects hRoom =>
      rcases hCollects.since hStandard hSound hFree with
        ⟨hSince, hNe⟩
      exact
        ⟨_, _, _, _, _, hSince, .nursery hRoom rfl,
          fun hEq => absurd hEq hNe⟩
  | pretenured _ hFree hCollects _ _ hRoom =>
      rcases hCollects.since hStandard hSound hFree with
        ⟨hSince, hNe⟩
      exact
        ⟨_, _, _, _, _, hSince, .mature hRoom rfl,
          fun hEq => absurd hEq hNe⟩
  | exhausted _ hFree hCollects _ _ =>
      exact
        ⟨_, _, _, _,
          (hCollects.since hStandard hSound hFree).1⟩

end Heap

------------------------------------------------------------
-- Allocating in Belts
------------------------------------------------------------

namespace HeapM

open Heap

variable {rt : Runtime}
variable {h : Heap}
variable {nursery mature : Belt}
variable {old young : List Nat}

/-
  The belt that plays a role is bumped or has no room, unless
  its mark overflows.
-/
theorem ends_allocateIn
    {reason : Fault → Prop}
    (role size : Nat)
    (hReason :
      Word.limit ≤ (h.beltOf role).mark + size →
        reason .addOverflow) :
    Ends reason (allocateIn role size) h fun a? g =>
      ((h.beltOf role).stop < (h.beltOf role).mark + size ∧
        a? = none ∧ g = h) ∨
        ((h.beltOf role).mark + size ≤ (h.beltOf role).stop ∧
          a? = some (h.beltOf role).mark ∧
          g =
            h.setBelt
              { h.beltOf role with
                mark := (h.beltOf role).mark + size }) := by
  unfold allocateIn
  apply ends_read
  generalize h.beltOf role = b at hReason ⊢
  rcases b.bump_cases size with
    ⟨hOver, hFault⟩ | ⟨hFull, hNone⟩ | ⟨hRoom, hFits⟩
  · exact
      ends_of_error (hReason hOver)
        (yields_bind_error
          (yields_bind_error (yields_lift_error hFault)))
  · have hAllocate : Yields (b.allocate size) h (.ok none) h := by
      refine yields_computed hNone ?_
      exact yields_report rfl (yields_pure none)
    exact
      ends_of_yields (yields_bind hAllocate (yields_pure none))
        (Or.inl ⟨hFull, rfl, rfl⟩)
  · have hAllocate :
        Yields (b.allocate size) h
          (.ok (some (b.mark, { b with mark := b.mark + size })))
          h :=
      yields_computed hFits (yields_pure _)
    exact
      ends_of_yields
        (yields_bind hAllocate
          (yields_write (yields_pure _)))
        (Or.inr ⟨hRoom, rfl, rfl⟩)

/- The nursery of a sound heap is bumped or has no room. -/
theorem ends_allocateNursery
    (hSound : Sound rt h nursery mature old young)
    (size : Nat) :
    Ends (h.Overflows size) (allocateNursery size) h fun a? g =>
      (nursery.stop < nursery.mark + size ∧ a? = none ∧
        g = h) ∨
        (nursery.mark + size ≤ nursery.stop ∧
          a? = some nursery.mark ∧
          g = h.cutNursery nursery mature size) := by
  have hShape := hSound.shape
  have hNursery : h.beltOf Role.nursery = nursery :=
    hShape.nursery_eq
  have hMark := hShape.fits.nurseryMark
  have hBounds := hShape.fits.bounds
  have hOver :
      Word.limit ≤ nursery.mark + size →
        h.Overflows size .addOverflow :=
    fun hLimit => ⟨rfl, by omega⟩
  rw [← hNursery] at hOver
  have hIn := ends_allocateIn Role.nursery size hOver
  rw [hNursery,
    setBelt_nursery
      (b := { nursery with mark := nursery.mark + size })
      hShape.fits hShape.layout rfl] at hIn
  exact hIn

/-
  A block of the mature belt of a sound heap is noted, if there
  is room for it.
-/
theorem ends_allocateMature
    (hSound : Sound rt h nursery mature old young)
    {size : Nat}
    (hSize : 0 < size) :
    Ends (h.Overflows size) (allocateMature size) h fun a? g =>
      (mature.stop < mature.mark + size ∧ a? = none ∧
        g = h) ∨
        (mature.mark + size ≤ mature.stop ∧
          a? = some mature.mark ∧
          g = h.cutMature nursery mature size) := by
  have hShape := hSound.shape
  have hBounds := hShape.fits.bounds
  have hMark := hShape.fits.matureMark
  have hMature : h.beltOf Role.mature = mature :=
    hShape.mature_eq
  have hOver :
      Word.limit ≤ mature.mark + size →
        h.Overflows size .addOverflow :=
    fun hLimit => ⟨rfl, by omega⟩
  rw [← hMature] at hOver
  have hIn := ends_allocateIn Role.mature size hOver
  rw [hMature,
    setBelt_mature
      (b := { mature with mark := mature.mark + size })
      hShape.fits hShape.layout rfl] at hIn
  unfold allocateMature
  refine ends_bind hIn ?_
  rintro a? g (⟨hFull, rfl, rfl⟩ | ⟨hRoom, rfl, rfl⟩)
  · exact
      ends_of_yields (yields_pure none)
        (Or.inl ⟨hFull, rfl, rfl⟩)
  · have hRecord :=
      yields_recordObject
        (h := h.withLayout
          (Layout.pair nursery
            { mature with mark := mature.mark + size }
            h.layout.heap))
        hShape.starts hSize
        (Nat.le_trans hBounds.2.2.1 hMark.1)
        (Nat.le_trans hRoom hBounds.2.2.2.2.1)
    exact
      ends_of_yields (yields_bind hRecord (yields_pure _))
        (Or.inr ⟨hRoom, rfl, rfl⟩)

------------------------------------------------------------
-- Allocating
------------------------------------------------------------

/- The mature belt is the last resort after a collection. -/
theorem ends_allocPretenured
    {k : Heap}
    {nursery' mature' : Belt}
    {old' young' : List Nat}
    {size : Nat}
    {success : Bool}
    (hStandard : rt.Standard)
    (hSound : Sound rt h nursery mature old young)
    (hSize : 0 < size)
    (hFull : nursery.stop < nursery.mark + size)
    (hFree : h.outOfMemory = false)
    (hCollects :
      Collects rt size h nursery mature old young success k
        nursery' mature' old' young')
    (hNoHelp :
      success = true → nursery'.stop < nursery'.mark + size) :
    Ends (h.Overflows size) (allocPretenured size) k
      (Allocation rt h nursery mature old young size) := by
  have hAfter := (hCollects.follows hStandard hSound).1.sound
  have hOver : k.Overflows size = h.Overflows size :=
    (hCollects.follows hStandard hSound).1.overflows
  unfold allocPretenured
  apply ends_read
  cases hLatched : k.outOfMemory with
  | true =>
      exact
        ends_of_yields (yields_pure _)
          (.exhausted hFull hFree hCollects hNoHelp
            (Or.inl hLatched))
  | false =>
      have hTry := ends_allocateMature hAfter hSize
      rw [hOver] at hTry
      refine ends_bind hTry ?_
      rintro a? g (⟨hTight, rfl, rfl⟩ | ⟨hRoom, rfl, rfl⟩)
      · exact
          ends_of_yields (yields_pure _)
            (.exhausted hFull hFree hCollects hNoHelp
              (Or.inr hTight))
      · exact
          ends_of_yields (yields_report rfl (yields_pure _))
            (.pretenured hFull hFree hCollects hNoHelp hLatched
              hRoom)

/- Collecting first makes room, or does not. -/
theorem ends_allocCollecting
    {size : Nat}
    (hStandard : rt.Standard)
    (hSound : Sound rt h nursery mature old young)
    (hSize : 0 < size)
    (hFull : nursery.stop < nursery.mark + size)
    (hFree : h.outOfMemory = false) :
    Ends (h.Overflows size) (allocCollecting rt size) h
      (Allocation rt h nursery mature old young size) := by
  rcases yields_collects size hStandard hSound with
    ⟨success, k, nursery', mature', old', young', hRun,
      hCollects⟩
  have hAfter := (hCollects.follows hStandard hSound).1.sound
  have hOver : k.Overflows size = h.Overflows size :=
    (hCollects.follows hStandard hSound).1.overflows
  have hCollect :
      Ends (h.Overflows size) (collect rt size) h fun b g =>
        b = success ∧ g = k :=
    ends_of_yields (yields_collect hRun) ⟨rfl, rfl⟩
  unfold allocCollecting
  refine ends_bind hCollect ?_
  rintro b g ⟨rfl, rfl⟩
  cases b with
  | false =>
      exact
        ends_allocPretenured hStandard hSound hSize hFull
          hFree hCollects nofun
  | true =>
      have hTry := ends_allocateNursery hAfter size
      rw [hOver] at hTry
      refine ends_bind hTry ?_
      rintro a? g (⟨hTight, rfl, rfl⟩ | ⟨hRoom, rfl, rfl⟩)
      · exact
          ends_allocPretenured hStandard hSound hSize hFull
            hFree hCollects fun _ => hTight
      · exact
          ends_of_yields (yields_pure _)
            (.collected hFull hFree hCollects hRoom)

/-
  An allocation has an outcome, unless the end of its block
  overflows.
-/
theorem ends_allocation
    (hStandard : rt.Standard)
    (hSound : Sound rt h nursery mature old young)
    {bytes : Nat}
    (hSize : 0 < roundedSize rt bytes) :
    Ends (h.Overflows (roundedSize rt bytes)) (alloc rt bytes) h
      (Allocation rt h nursery mature old young
        (roundedSize rt bytes)) := by
  have hTry :=
    ends_allocateNursery hSound (roundedSize rt bytes)
  unfold alloc
  refine ends_bind hTry ?_
  rintro a? g (⟨hFull, rfl, rfl⟩ | ⟨hRoom, rfl, rfl⟩)
  · unfold allocSlowly
    refine ends_bind hTry ?_
    rintro a? g (⟨-, rfl, rfl⟩ | ⟨hRoom, rfl, rfl⟩)
    · apply ends_read
      cases hLatched : g.outOfMemory with
      | true =>
          exact
            ends_of_yields (yields_pure _)
              (.latched hFull hLatched)
      | false =>
          exact
            ends_allocCollecting hStandard hSound hSize hFull
              hLatched
    · exact ends_of_yields (yields_pure _) (.bumped hRoom)
  · exact ends_of_yields (yields_pure _) (.bumped hRoom)

/- An allocation that does not break off allots a block. -/
theorem ensures_alloc
    (hStandard : rt.Standard)
    (hSound : Sound rt h nursery mature old young)
    {bytes : Nat}
    (hSize : 0 < roundedSize rt bytes) :
    Ensures (alloc rt bytes) h
      (Allots rt h old young (roundedSize rt bytes)) :=
  (ends_allocation hStandard hSound hSize).ensures.imp
    fun _ _ hAllocation => hAllocation.allots hStandard hSound

end HeapM

end BeltHeap
