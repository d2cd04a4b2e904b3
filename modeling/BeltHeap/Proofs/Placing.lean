import BeltHeap.Proofs.Relocating

/-
  The three destinations of survivors: behind the mature
  objects, in the empty nursery, and at the start of the mature
  belt.  Each of them makes for moves that can be carried out
  one after the other.

  Main declarations:
    * `Heap.Sound.liveBytes_lt`
    * `Heap.Sound.place_eq`
    * `Heap.Sound.routes_append`
    * `Heap.Sound.routes_evacuate`
    * `Heap.Sound.routes_slide`
    * `Heap.Sound.routes_chosen`
-/

------------------------------------------------------------
-- Live Bytes
------------------------------------------------------------

namespace BeltHeap

namespace Heap

/- The objects found, each with its size. -/
def sized
    (h : Heap)
    (found : List Nat) : List Collection.LiveObject :=
  found.map fun o => (o, Object.size h.memory o)

/- The live bytes of sized objects are the sum of their sizes. -/
theorem liveBytes_sized
    {h : Heap}
    {found : List Nat} :
    Collection.liveBytes (h.sized found) =
      total (found.map (Object.size h.memory)) := by
  unfold Collection.liveBytes sized
  rw [List.map_map]
  rfl

namespace Sound

variable {rt : Runtime}
variable {h : Heap}
variable {nursery mature : Belt}
variable {old young found : List Nat}
variable {kind : Collection.Kind}
variable {start : Nat}

/- The survivors fill no more than the used parts of belts. -/
theorem liveBytes_le
    (hSound : Sound rt h nursery mature old young)
    (hNodup : found.Nodup)
    (hMembers : ∀ o ∈ found, o ∈ old ++ young) :
    Collection.liveBytes (h.sized found) ≤
      mature.used + nursery.used := by
  have hOld := Collection.total_tiles hSound.oldTiles
  have hYoung := Collection.total_tiles hSound.youngTiles
  have hTotal :=
    Collection.total_le_of_subset (Object.size h.memory) hNodup
      hMembers
  rw [List.map_append, total_append] at hTotal
  rw [liveBytes_sized]
  unfold Belt.used
  omega

/- The number of live bytes is a word. -/
theorem liveBytes_lt
    (hSound : Sound rt h nursery mature old young)
    (hNodup : found.Nodup)
    (hMembers : ∀ o ∈ found, o ∈ old ++ young) :
    Collection.liveBytes (h.sized found) < Word.limit := by
  have hLe := hSound.liveBytes_le hNodup hMembers
  have hBounds := hSound.shape.fits.bounds
  have hNursery := hSound.shape.fits.nurseryMark
  have hMature := hSound.shape.fits.matureMark
  unfold Belt.used at hLe
  omega

/-
  Survivors are placed at their destination unless they do not
  fit.
-/
theorem place_eq
    (hSound : Sound rt h nursery mature old young)
    (kind : Collection.Kind)
    {live : List Collection.LiveObject}
    (hPlaced :
      Collection.inOrder nursery live = h.sized found)
    (hNodup : found.Nodup)
    (hMembers : ∀ o ∈ found, o ∈ old ++ young) :
    Collection.place kind nursery mature live =
      .ok
        (let bytes := Collection.liveBytes (h.sized found)
        let target :=
          Collection.chooseDestination kind nursery mature bytes
        if target.available < bytes then
          .error ⟨kind, bytes, target.available⟩
        else
          .ok
            ⟨target.destination, target.start, bytes,
              Collection.pack target.start (h.sized found)⟩) := by
  have hBytes := hSound.liveBytes_lt hNodup hMembers
  unfold Collection.place
  rw [hPlaced]
  simp only
  rw [if_neg (by omega)]
  split
  · rfl
  · rfl

------------------------------------------------------------
-- Routes
------------------------------------------------------------

/-
  Packed survivors can be moved one after the other when none of
  them is put on one that comes later.
-/
theorem routes_of_pairwise
    {kept : List Nat}
    (hStart : 0 < start)
    (hStop :
      start + Collection.liveBytes (h.sized found) <
        Word.limit)
    (hKept :
      ∀ o ∈ kept, o + Object.size h.memory o ≤ start)
    (hSources :
      (Collection.pack start (h.sized found)).Pairwise
        fun a b =>
          a.stop ≤ b.source ∨ b.source + b.size ≤ a.dest) :
    Routes h kept found
      (Collection.pack start (h.sized found)) where
  sources := Collection.map_pack _ _
  clears := by
    have hPacked :=
      Collection.pairwise_pack start (h.sized found)
    refine (hSources.and hPacked).imp ?_
    intro a b hBoth
    exact ⟨hBoth.1, Or.inl hBoth.2⟩
  apart := by
    intro move hMove o ho
    have hBounds := Collection.pack_bounds hMove
    have hBelow := hKept o ho
    omega
  bounds := by
    intro move hMove
    have hBounds := Collection.pack_bounds hMove
    omega

theorem mem_found_of_pack
    {move : Collection.Move}
    (hMove :
      move ∈ Collection.pack start (h.sized found)) :
    move.source ∈ found ∧
      move.size = Object.size h.memory move.source := by
  have hMem :
      (move.source, move.size) ∈
        (Collection.pack start (h.sized found)).map
          fun m => (m.source, m.size) :=
    List.mem_map_of_mem hMove
  rw [Collection.map_pack] at hMem
  rcases List.mem_map.mp hMem with ⟨o, ho, hEq⟩
  rw [Prod.mk.injEq] at hEq
  rw [← hEq.1, ← hEq.2]
  exact ⟨ho, rfl⟩

theorem routes_append
    (hSound : Sound rt h nursery mature old young)
    (hEmptied :
      ∀ o ∈ found, o ∈ Collection.emptied .minor old young)
    (hRoom :
      mature.mark + Collection.liveBytes (h.sized found) ≤
        mature.stop) :
    Routes h (Collection.kept .minor old) found
      (Collection.pack mature.mark (h.sized found)) := by
  have hBounds := hSound.shape.fits.bounds
  have hNursery := hSound.shape.fits.nurseryMark
  have hMature := hSound.shape.fits.matureMark
  have hPos := hSound.shape.fits.start_pos
  refine routes_of_pairwise (by omega) (by omega) ?_ ?_
  · exact fun o ho => (hSound.mem_old ho).2.2
  · refine (Collection.pairwise_pack _ _).imp_of_mem ?_
    intro a b ha hb _
    have hA := Collection.pack_bounds ha
    rcases mem_found_of_pack hb with ⟨hFound, hSize⟩
    have hB := hSound.mem_young (hEmptied _ hFound)
    rw [hSize]
    unfold Collection.Move.stop at hA ⊢
    omega

/- Mature survivors are evacuated into the nursery. -/
theorem routes_evacuate
    (hSound : Sound rt h nursery mature old young)
    (hEmptied :
      ∀ o ∈ found, o ∈ Collection.emptied .major old young)
    (hRoom :
      nursery.start + Collection.liveBytes (h.sized found) ≤
        nursery.stop) :
    Routes h (Collection.kept .major old) found
      (Collection.pack nursery.start (h.sized found)) := by
  have hBounds := hSound.shape.fits.bounds
  have hNursery := hSound.shape.fits.nurseryMark
  have hMature := hSound.shape.fits.matureMark
  have hPos := hSound.shape.fits.start_pos
  refine routes_of_pairwise (by omega) (by omega) ?_ ?_
  · exact fun o ho => nomatch ho
  · refine (Collection.pairwise_pack _ _).imp_of_mem ?_
    intro a b ha hb _
    have hA := Collection.pack_bounds ha
    rcases mem_found_of_pack hb with ⟨hFound, hSize⟩
    have hB := hSound.mem_old (hEmptied _ hFound)
    rw [hSize]
    unfold Collection.Move.stop at hA ⊢
    omega

/-
  Survivors slide down in the mature belt.  Those of the mature
  belt come first and never move up, so none of them is put on
  one that comes later.
-/
theorem routes_slide
    (hSound : Sound rt h nursery mature old young)
    (hEmptied :
      ∀ o ∈ found, o ∈ Collection.emptied kind old young)
    (hAscends :
      found.Pairwise fun o p =>
        p ∈ old → o ∈ old ∧ o + Object.size h.memory o ≤ p)
    (hKind : kind ≠ .minor)
    (hRoom :
      mature.start + Collection.liveBytes (h.sized found) ≤
        mature.stop) :
    Routes h (Collection.kept kind old) found
      (Collection.pack mature.start (h.sized found)) := by
  have hBounds := hSound.shape.fits.bounds
  have hNursery := hSound.shape.fits.nurseryMark
  have hMature := hSound.shape.fits.matureMark
  have hPos := hSound.shape.fits.start_pos
  have hOrder :
      (h.sized found).Pairwise fun a b =>
        b.1 ∈ old → a.1 ∈ old ∧ a.1 + a.2 ≤ b.1 :=
    List.pairwise_map.mpr hAscends
  have hDown :
      ∀ move ∈ Collection.pack mature.start (h.sized found),
        move.source ∈ old → move.dest ≤ move.source := by
    intro move hMove hLow
    refine Collection.pack_le_source (· ∈ old) hOrder
      ?_ hMove hLow
    intro x _ hOld
    exact (hSound.mem_old hOld).2.1
  have hSources := hOrder
  rw [← Collection.map_pack mature.start (h.sized found),
    List.pairwise_map] at hSources
  refine routes_of_pairwise (by omega) (by omega) ?_ ?_
  · intro o ho
    exact absurd (Collection.mem_old_of_kept ho).1 hKind
  · refine hSources.imp_of_mem ?_
    intro a b ha hb hAbove
    have hA := Collection.pack_bounds ha
    rcases mem_found_of_pack hb with ⟨hFound, hSize⟩
    rcases List.mem_append.mp
        (Collection.mem_of_emptied (hEmptied _ hFound)) with
      hOld | hYoung
    · have hBelow := hAbove hOld
      have hDest := hDown a ha hBelow.1
      unfold Collection.Move.stop
      exact Or.inl
        (Nat.le_trans (Nat.add_le_add_right hDest _) hBelow.2)
    · have hB := hSound.mem_young hYoung
      rw [hSize]
      unfold Collection.Move.stop at hA ⊢
      omega

/-
  Survivors that fit at the chosen destination can be moved
  there one after the other.
-/
theorem routes_chosen
    (hSound : Sound rt h nursery mature old young)
    (hEmptied :
      ∀ o ∈ found, o ∈ Collection.emptied kind old young)
    (hAscends :
      found.Pairwise fun o p =>
        p ∈ old → o ∈ old ∧ o + Object.size h.memory o ≤ p)
    {target : Collection.Target}
    (hTarget :
      target =
        Collection.chooseDestination kind nursery mature
          (Collection.liveBytes (h.sized found)))
    (hRoom :
      Collection.liveBytes (h.sized found) ≤
        target.available) :
    Routes h (Collection.kept kind old) found
      (Collection.pack target.start (h.sized found)) := by
  have hNursery := hSound.shape.fits.nurseryMark
  have hMature := hSound.shape.fits.matureMark
  subst hTarget
  cases kind with
  | minor =>
      apply hSound.routes_append hEmptied
      change _ ≤ mature.stop - mature.mark at hRoom
      omega
  | major =>
      unfold Collection.chooseDestination at hRoom ⊢
      simp only at hRoom ⊢
      split at hRoom
      · rename_i hFits
        rw [if_pos hFits]
        apply hSound.routes_evacuate hEmptied
        change _ ≤ nursery.stop - nursery.start at hRoom
        omega
      · rename_i hFull
        rw [if_neg hFull]
        apply hSound.routes_slide hEmptied hAscends (by decide)
        change _ ≤ mature.stop - mature.start at hRoom
        omega
  | fullHeap =>
      apply hSound.routes_slide hEmptied hAscends (by decide)
      change _ ≤ mature.stop - mature.start at hRoom
      omega

end Sound

end Heap

end BeltHeap
