import BeltHeap.Proofs.Passing
import BeltHeap.Proofs.Publishing

/-
  Sound heaps that come out of each other, with the graph of the
  reachable objects carried over, and what surrounds the passes
  of a collection: the marks are remembered, the collection is
  counted, a failure is latched, and at the end the regions are
  published and the epoch ends.

  Main declarations:
    * `Heap.Follows`
    * `Heap.Pass.follows`
    * `Heap.counted`, `Heap.escalated`
    * `Heap.promoted`, `Heap.latched`
    * `Heap.wrappedUp`
    * `Heap.cleared`
-/

------------------------------------------------------------
-- Heaps that Follow
------------------------------------------------------------

namespace BeltHeap

namespace Heap

/- The number of collections that were begun. -/
def epoch (h : Heap) : Nat :=
  h.info.epochs.collection

/-
  A sound heap came out of another one in the same place, with
  the graph of the reachable objects carried over and the same
  entries of the root table in use.
-/
structure Follows
    (rt : Runtime)
    (h g : Heap)
    (nursery mature : Belt)
    (old young : List Nat) : Prop where
  sound : Sound rt g nursery mature old young
  carries : ∃ f, Carries rt f h g
  entries : h.roots.SameUse g.roots
  place : g.layout.heap = h.layout.heap
  epoch : h.epoch ≤ g.epoch

variable {rt : Runtime}
variable {h g k : Heap}
variable {nursery mature nursery' mature' : Belt}
variable {old young old' young' found : List Nat}

namespace Follows

/- A heap with the same objects follows at no earlier epoch. -/
theorem start
    (hSound : Sound rt h nursery mature old young)
    (hSame : SameObjects g h)
    (hEpoch : g.epoch ≤ h.epoch) :
    Follows rt g h nursery mature old young :=
  ⟨hSound, ⟨id, hSame.carries⟩, .of_eq hSame.roots,
    congrArg (·.heap) hSame.layout, hEpoch⟩

theorem trans
    (hStandard : rt.Standard)
    (h₁ : Follows rt h g nursery mature old young)
    (h₂ : Follows rt g k nursery' mature' old' young') :
    Follows rt h k nursery' mature' old' young' := by
  rcases h₁.carries with ⟨f₁, hFirst⟩
  rcases h₂.carries with ⟨f₂, hSecond⟩
  exact
    ⟨h₂.sound, ⟨f₂ ∘ f₁, hFirst.trans hStandard hSecond⟩,
      h₁.entries.trans h₂.entries, h₂.place.trans h₁.place,
      Nat.le_trans h₁.epoch h₂.epoch⟩

/- A heap that follows may change in all but its objects. -/
theorem aside
    (hStandard : rt.Standard)
    (hFollows : Follows rt h g nursery mature old young)
    (hSame : SameObjects g k)
    (hEpoch : g.epoch ≤ k.epoch) :
    Follows rt h k nursery mature old young :=
  hFollows.trans hStandard
    (start (hSame.sound hFollows.sound) hSame hEpoch)

end Follows

/- A collection that succeeded is followed by a sound heap. -/
theorem Pass.follows
    {kind : Collection.Kind}
    {moves : List Collection.Move}
    {start : Nat}
    {table : FirstObjects}
    (hPass :
      Pass rt h g nursery mature nursery' mature' old young kind
        found moves start table) :
    Follows rt h g nursery' mature'
      ((Collection.kept kind old ++ found).map
        (Collection.forward moves)) [] where
  sound := hPass.sound
  carries := ⟨_, hPass.carries⟩
  entries := by
    rw [hPass.settled.roots]
    exact hPass.relocation.sameUse
  place := by
    rw [hPass.settled.layout]
    rfl
  epoch := by
    unfold Heap.epoch
    rw [hPass.rest.info]

------------------------------------------------------------
-- Before a Pass
------------------------------------------------------------

/- The heap after the marks of its belts were remembered. -/
def snapshotted (h : Heap) : Heap :=
  { h with
    layout :=
      { h.layout with
        belts := h.layout.belts.map Belt.takeSnapshot } }

/- Remembering the marks of the belts changes no object. -/
theorem Sound.snapshotted
    (hSound : Sound rt h nursery mature old young) :
    Follows rt h h.snapshotted nursery.takeSnapshot
      mature.takeSnapshot old young := by
  have hShape := hSound.shape
  have hFits :
      Layout.Fits nursery.takeSnapshot mature.takeSnapshot
        h.layout.heap :=
    (hShape.fits.setNursery (b := nursery.takeSnapshot) rfl
      rfl rfl hShape.fits.nurseryMark).setMature rfl rfl rfl
      hShape.fits.matureMark
  have hLayout :
      h.snapshotted.layout =
        Layout.pair nursery.takeSnapshot mature.takeSnapshot
          h.layout.heap := by
    unfold Heap.snapshotted
    rw [hShape.layout]
    exact Layout.map_takeSnapshot_pair
  refine
    ⟨?_, ⟨id, Carries.of_eq rfl rfl rfl⟩, .refl, rfl,
      Nat.le_refl _⟩
  exact
    ⟨Shape.of_pair hLayout hFits hShape.cards hShape.starts
        hShape.sameCards hShape.regions,
      hSound.oldTiles, hSound.youngTiles, hSound.matureFree,
      hSound.nurseryFree, hSound.fields, hSound.roots,
      hSound.remembered, hSound.firsts⟩

/-
  The heap that a collection starts from: the epoch began,
  marks are remembered and the collection is counted.
-/
def counted
    (count : CollectionStats → CollectionStats)
    (h : Heap) : Heap :=
  (h.mapEpochs Epochs.begun).snapshotted.mapStats count

/- What comes before a collection changes no object. -/
theorem Sound.counted
    (hSound : Sound rt h nursery mature old young)
    (hStandard : rt.Standard)
    (count : CollectionStats → CollectionStats) :
    Follows rt h (h.counted count) nursery.takeSnapshot
      mature.takeSnapshot old young := by
  have hBegun :
      Follows rt h (h.mapEpochs Epochs.begun) nursery mature old
        young :=
    Follows.start ((HeapM.sameObjects_info _).sound hSound)
      (HeapM.sameObjects_info _) (Nat.le_succ _)
  exact
    (hBegun.trans hStandard hBegun.sound.snapshotted).aside
      hStandard ⟨rfl, rfl, rfl, rfl, rfl, rfl, rfl⟩
      (Nat.le_refl _)

/- The counters once a minor collection is counted. -/
def countMinor (s : CollectionStats) : CollectionStats :=
  { s with minor := s.minor + 1 }

/- The counters once a major collection is counted. -/
def countMajor (s : CollectionStats) : CollectionStats :=
  { s with major := s.major + 1 }

/- The heap once a full-heap pass is counted. -/
def escalated (h : Heap) : Heap :=
  h.mapStats fun s => { s with fullHeap := s.fullHeap + 1 }

/- Counting a full-heap pass changes no object. -/
theorem sameObjects_escalated : SameObjects h h.escalated :=
  ⟨rfl, rfl, rfl, rfl, rfl, rfl, rfl⟩

------------------------------------------------------------
-- After a Pass
------------------------------------------------------------

/- The heap once bytes that were promoted are counted. -/
def promoted
    (bytes : Nat)
    (h : Heap) : Heap :=
  h.mapStats fun s =>
    { s with promotedBytes := s.promotedBytes + bytes }

/- Counting promoted bytes changes no object. -/
theorem sameObjects_promoted
    {bytes : Nat} :
    SameObjects h (h.promoted bytes) :=
  ⟨rfl, rfl, rfl, rfl, rfl, rfl, rfl⟩

/- The heap once it ran out of memory. -/
def latched (h : Heap) : Heap :=
  { h with outOfMemory := true }

/- Running out of memory changes no object. -/
theorem sameObjects_latched : SameObjects h h.latched :=
  ⟨rfl, rfl, rfl, rfl, rfl, rfl, rfl⟩

/- The heap once its regions are published and the epoch ended. -/
def wrappedUp
    (nursery mature : Belt)
    (h : Heap) : Heap :=
  (h.mapInfo
    (HeapInfo.published (h.regionsOf nursery mature))).mapEpochs
      Epochs.ended

/- The end of a collection changes no object. -/
theorem Follows.wrappedUp
    (hFollows : Follows rt h g nursery mature old young)
    (hStandard : rt.Standard)
    (hSame : SameObjects g k)
    (hEpoch : k.epoch = g.epoch) :
    Follows rt h (k.wrappedUp nursery mature) nursery mature old
      young :=
  (hFollows.aside hStandard hSame (Nat.le_of_eq hEpoch.symm)
    ).aside hStandard (HeapM.sameObjects_info _)
      (Nat.le_refl _)

/-
  The heap after a collection: every card is clean where the
  nursery is empty.
-/
def cleared
    (nursery : Belt)
    (h : Heap) : Heap :=
  if nursery.isEmpty then
    { h with cards := h.cards.clearAll }
  else h

/- Cards may be clean where the nursery has no objects. -/
theorem Sound.cleared
    (hSound : Sound rt h nursery mature old young) :
    Follows rt h (h.cleared nursery) nursery mature old
      young := by
  have hShape := hSound.shape
  unfold Heap.cleared
  split
  · rename_i hEmpty
    have hYoung := hSound.young_eq_nil hEmpty
    subst hYoung
    refine
      ⟨?_, ⟨id, Carries.of_eq rfl rfl rfl⟩, .refl, rfl,
        Nat.le_refl _⟩
    exact
      ⟨⟨hShape.layout, hShape.fits, hShape.cards.clearAll,
          hShape.starts, hShape.sameCards, hShape.regions⟩,
        hSound.oldTiles, hSound.youngTiles, hSound.matureFree,
        hSound.nurseryFree, hSound.fields, hSound.roots,
        fun _ _ _ _ hMem => absurd hMem List.not_mem_nil,
        hSound.firsts⟩
  · exact
      Follows.start hSound SameObjects.refl (Nat.le_refl _)

end Heap

end BeltHeap
