import BeltHeap.Proofs.Copying
import BeltHeap.Proofs.Survivors

/-
  Rewriting the slots of a survey and copying its survivors
  carries over the graph of all kept and moved objects.

  Main declarations:
    * `Heap.Routes`
    * `Heap.relocated`
    * `Heap.Relocation.carried`
    * `Heap.Relocation.separate`
    * `Heap.Relocation.readSlot_root`
    * `Heap.Relocation.carries`
-/

------------------------------------------------------------
-- Routes
------------------------------------------------------------

namespace BeltHeap

/- The new places of two moves do not overlap. -/
def Collection.Move.Apart (a b : Collection.Move) : Prop :=
  a.stop ≤ b.dest ∨ b.stop ≤ a.dest

instance : Std.Symm Collection.Move.Apart where
  symm _ _ h := Or.symm h

namespace Heap

/-
  Moves for the objects of a survey: their new places are not
  null, lie apart from the kept objects, and can be filled one
  after the other.
-/
structure Routes
    (h : Heap)
    (kept found : List Nat)
    (moves : List Collection.Move) : Prop where
  sources :
    moves.map (fun move => (move.source, move.size)) =
      found.map fun o => (o, Object.size h.memory o)
  clears : moves.Pairwise Collection.Move.Clears
  apart :
    ∀ move ∈ moves, ∀ object ∈ kept,
      move.stop ≤ object ∨
        object + Object.size h.memory object ≤ move.dest
  bounds :
    ∀ move ∈ moves, 0 < move.dest ∧ move.stop < Word.limit

namespace Routes

variable {h : Heap}
variable {kept found : List Nat}
variable {moves : List Collection.Move}

/- The new places of the moves do not overlap. -/
theorem pairwise_apart
    (hRoutes : Routes h kept found moves) :
    moves.Pairwise Collection.Move.Apart :=
  hRoutes.clears.imp fun hClears => hClears.2

/- The sources of the moves are the objects found. -/
theorem map_source
    (hRoutes : Routes h kept found moves) :
    moves.map Collection.Move.source = found := by
  have hFirst := congrArg (List.map Prod.fst) hRoutes.sources
  rw [List.map_map, List.map_map] at hFirst
  have hId :
      (Prod.fst ∘ fun o => (o, Object.size h.memory o)) = id :=
    rfl
  rw [hId, List.map_id] at hFirst
  exact hFirst

/- Every object found has a move of its size. -/
theorem exists_move
    (hRoutes : Routes h kept found moves)
    {object : Nat}
    (hFound : object ∈ found) :
    ∃ move ∈ moves,
      move.source = object ∧
        move.size = Object.size h.memory object := by
  have hMem :
      (object, Object.size h.memory object) ∈
        found.map fun o => (o, Object.size h.memory o) :=
    List.mem_map_of_mem hFound
  rw [← hRoutes.sources] at hMem
  rcases List.mem_map.mp hMem with ⟨move, hMove, hEq⟩
  rw [Prod.mk.injEq] at hEq
  exact ⟨move, hMove, hEq.1, hEq.2⟩

theorem size_eq
    (hRoutes : Routes h kept found moves)
    {move : Collection.Move}
    (hMove : move ∈ moves) :
    move.source ∈ found ∧
      move.size = Object.size h.memory move.source := by
  have hMem :
      (move.source, move.size) ∈
        moves.map fun m => (m.source, m.size) :=
    List.mem_map_of_mem hMove
  rw [hRoutes.sources] at hMem
  rcases List.mem_map.mp hMem with ⟨o, ho, hEq⟩
  rw [Prod.mk.injEq] at hEq
  rw [← hEq.1, ← hEq.2]
  exact ⟨ho, rfl⟩

/- Null does not move, and new addresses are words. -/
theorem forwards
    (hRoutes : Routes h kept found moves)
    (hNodup : found.Nodup)
    (hNull : 0 ∉ found) :
    Forwards (Collection.forwarding moves) := by
  rw [← hRoutes.map_source] at hNodup hNull
  constructor
  · exact Collection.forwarding_of_not_mem hNull
  · intro object dest hDest
    by_cases hMem : object ∈ moves.map Collection.Move.source
    · rcases List.mem_map.mp hMem with ⟨move, hMove, rfl⟩
      rw [Collection.forwarding_of_mem hNodup hMove] at hDest
      have hBounds := (hRoutes.bounds move hMove).2
      unfold Collection.Move.stop at hBounds
      cases hDest
      omega
    · rw [Collection.forwarding_of_not_mem hMem] at hDest
      cases hDest

end Routes

------------------------------------------------------------
-- Relocated Heaps
------------------------------------------------------------

/- The heap after slots were rewritten and objects copied. -/
def relocated
    (h : Heap)
    (slots : List Slot)
    (found : List Nat)
    (moves : List Collection.Move) : Heap :=
  (h.forwardedAll (Collection.forwarding moves)
      (slots ++ Slot.ofObjects h.memory found)).mapMemory
    fun m => m.copyAll moves

/- What a relocation of a sound heap starts from. -/
structure Relocation
    (rt : Runtime)
    (h : Heap)
    (nursery mature : Belt)
    (old young : List Nat)
    (kind : Collection.Kind)
    (found : List Nat)
    (slots : List Slot)
    (moves : List Collection.Move) : Prop where
  standard : rt.Standard
  sound : Sound rt h nursery mature old young
  survey : Survey rt h old young kind found slots
  routes :
    Routes h (Collection.kept kind old) found moves

namespace Relocation

variable {rt : Runtime}
variable {h : Heap}
variable {nursery mature : Belt}
variable {old young found : List Nat}
variable {kind : Collection.Kind}
variable {slots : List Slot}
variable {moves : List Collection.Move}
variable {object other a : Nat}

theorem nodup_sources
    (hMove :
      Relocation rt h nursery mature old young kind found slots
        moves) :
    (moves.map Collection.Move.source).Nodup := by
  rw [hMove.routes.map_source]
  exact (List.nodup_append.mp hMove.survey.nodup).2.1

/- A moved object arrives where its move ends. -/
theorem exists_move
    (hMove :
      Relocation rt h nursery mature old young kind found slots
        moves)
    (hFound : object ∈ found) :
    ∃ move ∈ moves,
      move.source = object ∧
        move.size = Object.size h.memory object ∧
        Collection.forward moves object = move.dest := by
  rcases hMove.routes.exists_move hFound with
    ⟨move, hMem, rfl, hSize⟩
  exact ⟨move, hMem, rfl, hSize,
    Collection.forward_of_mem hMove.nodup_sources hMem⟩

/- Whatever is not moved stays where it is. -/
theorem forward_of_not_found
    (hMove :
      Relocation rt h nursery mature old young kind found slots
        moves)
    (hNot : object ∉ found) :
    Collection.forward moves object = object := by
  apply Collection.forward_of_not_mem
  rw [hMove.routes.map_source]
  exact hNot

/- Null stays null. -/
theorem forward_null
    (hMove :
      Relocation rt h nursery mature old young kind found slots
        moves) :
    Collection.forward moves 0 = 0 := by
  apply hMove.forward_of_not_found
  intro hFound
  exact
    hMove.sound.ne_null
      (hMove.survey.members (List.mem_append_right _ hFound)) rfl

/- Addresses are rewritten once and correctly. -/
theorem forwards
    (hMove :
      Relocation rt h nursery mature old young kind found slots
        moves) :
    Forwards (Collection.forwarding moves) := by
  refine hMove.routes.forwards
    (List.nodup_append.mp hMove.survey.nodup).2.1 ?_
  intro hFound
  exact
    hMove.sound.ne_null
      (hMove.survey.members (List.mem_append_right _ hFound)) rfl

/- No kept or moved object becomes null. -/
theorem forward_ne_null
    (hMove :
      Relocation rt h nursery mature old young kind found slots
        moves)
    (hMem : object ∈ Collection.kept kind old ++ found) :
    Collection.forward moves object ≠ 0 := by
  by_cases hFound : object ∈ found
  · rcases hMove.exists_move hFound with
      ⟨move, hMem, -, -, hDest⟩
    rw [hDest]
    exact Nat.ne_of_gt (hMove.routes.bounds move hMem).1
  · rw [hMove.forward_of_not_found hFound]
    exact hMove.sound.ne_null (hMove.survey.members hMem)

------------------------------------------------------------
-- Rewritten Slots
------------------------------------------------------------

/- The slots of two objects are the same or do not overlap. -/
theorem fields_apart
    (hMove :
      Relocation rt h nursery mature old young kind found slots
        moves)
    {b : Nat}
    (hMem : object ∈ Collection.kept kind old ++ found)
    (ha : a ∈ Object.fields h.memory object)
    (hOther : other ∈ Collection.kept kind old ++ found)
    (hb : b ∈ Object.fields h.memory other)
    (hNe : a ≠ b) :
    Object.WordsApart a b := by
  have hObject := hMove.survey.members hMem
  have hOther' := hMove.survey.members hOther
  by_cases hEq : object = other
  · subst hEq
    have hFields := Object.pairwise_fields h.memory object
    exact
      (hFields.imp (S := Object.WordsApart) Or.inl).forall
        ha hb hNe
  · have hApart := hMove.sound.apart_of_ne hObject hOther' hEq
    have hA := (hMove.sound.proper hObject).slot_bounds ha
    have hB := (hMove.sound.proper hOther').slot_bounds hb
    unfold Object.Apart at hApart
    unfold Object.WordsApart
    omega

/- Rewriting slots leaves headers and payload alone. -/
theorem byte_forwarded
    (hMove :
      Relocation rt h nursery mature old young kind found slots
        moves)
    (hMem : object ∈ Collection.kept kind old ++ found)
    {k : Nat}
    (hk : k < Object.size h.memory object)
    (hNoField :
      k < 16 ∨
        Object.bytesFor (Object.refCount h.memory object) 0 ≤
          k) :
    (h.forwardedAll (Collection.forwarding moves)
        (slots ++ Slot.ofObjects h.memory found)).memory.byte
          (object + k) =
      h.memory.byte (object + k) := by
  apply byte_forwardedAll
  intro b hb
  rcases hMove.survey.field_mem hb with ⟨other, hOther, hField⟩
  have hObject := hMove.survey.members hMem
  have hOther' := hMove.survey.members hOther
  have hBounds :=
    (hMove.sound.proper hOther').slot_bounds hField
  by_cases hEq : object = other
  · subst hEq
    rcases Object.mem_fields.mp hField with ⟨i, hi, rfl⟩
    unfold Object.bytesFor Object.headerWords Word.bytes
      at hNoField
    unfold Object.field Object.fieldOffset Object.headerWords
      Word.bytes at hBounds ⊢
    omega
  · have hApart := hMove.sound.apart_of_ne hObject hOther' hEq
    unfold Object.Apart at hApart
    omega

/- Rewriting slots rewrites every field of these objects. -/
theorem load_forwarded
    (hMove :
      Relocation rt h nursery mature old young kind found slots
        moves)
    (hMem : object ∈ Collection.kept kind old ++ found)
    (ha : a ∈ Object.fields h.memory object) :
    (h.forwardedAll (Collection.forwarding moves)
        (slots ++ Slot.ofObjects h.memory found)).memory.load a =
      Collection.forward moves (h.memory.load a) := by
  by_cases hSlot :
      Slot.field a ∈ slots ++ Slot.ofObjects h.memory found
  · exact
      readSlot_forwardedAll (s := .field a) hMove.forwards h
        hMove.survey.apart hSlot
  · -- such a field belongs to a kept object and to no young one
    have hKept : object ∈ Collection.kept kind old := by
      rcases List.mem_append.mp hMem with hKept | hFound
      · exact hKept
      · refine absurd ?_ hSlot
        apply List.mem_append_right
        exact Slot.mem_ofObjects.mpr
          ⟨object, hFound, a, ha, rfl⟩
    have hStay : h.memory.load a ∉ found := fun hFound =>
      hSlot
        (List.mem_append_left _
          (hMove.survey.noted object hKept a ha hFound))
    rw [hMove.forward_of_not_found hStay]
    refine
      readSlot_forwardedAll_apart (t := .field a) h ?_
    intro s hs
    cases s with
    | entry k => exact Slot.noConfusion
    | register n => exact Slot.noConfusion
    | field b =>
        rcases hMove.survey.field_mem hs with
          ⟨other, hOther, hb⟩
        have hNe : a ≠ b := fun hEq => hSlot (by rw [hEq]; exact hs)
        exact (hMove.fields_apart hMem ha hOther hb hNe).symm

------------------------------------------------------------
-- Carried Objects
------------------------------------------------------------

/- Rewriting slots keeps the header of an object. -/
theorem header_forwarded
    (hMove :
      Relocation rt h nursery mature old young kind found slots
        moves)
    (hMem : object ∈ Collection.kept kind old ++ found) :
    Object.size
          (h.forwardedAll (Collection.forwarding moves)
            (slots ++ Slot.ofObjects h.memory found)).memory
          object =
        Object.size h.memory object ∧
      Object.refCount
          (h.forwardedAll (Collection.forwarding moves)
            (slots ++ Slot.ofObjects h.memory found)).memory
          object =
        Object.refCount h.memory object := by
  have hHeader :=
    (hMove.sound.proper (hMove.survey.members hMem)).header_le
  constructor
  · apply Memory.Matches.load_eq
    intro k hk
    unfold Word.bytes at hk
    exact hMove.byte_forwarded hMem (by omega)
      (Or.inl (by omega))
  · apply Memory.Matches.load_eq
    intro k hk
    unfold Word.bytes at hk ⊢
    rw [Nat.add_assoc]
    exact hMove.byte_forwarded hMem (by omega)
      (Or.inl (by omega))

/- The bytes of an object arrive at its new place. -/
theorem matches_copied
    (hMove :
      Relocation rt h nursery mature old young kind found slots
        moves)
    (hMem : object ∈ Collection.kept kind old ++ found) :
    (h.forwardedAll (Collection.forwarding moves)
        (slots ++ Slot.ofObjects h.memory found)).memory.Matches
      object (h.relocated slots found moves).memory
      (Collection.forward moves object)
      (Object.size h.memory object) := by
  rcases List.mem_append.mp hMem with hKept | hFound
  · rw [hMove.forward_of_not_found
      (hMove.survey.not_mem_found hKept)]
    intro k hk
    symm
    apply Memory.byte_copyAll_apart
    intro move hIn
    have hApart := hMove.routes.apart move hIn object hKept
    omega
  · rcases hMove.exists_move hFound with
      ⟨move, hIn, hSource, hSize, hDest⟩
    rw [hDest, ← hSize, ← hSource]
    exact Memory.byte_copyAll_mem _ hMove.routes.clears hIn

/- Every kept or moved object is carried over. -/
theorem carried
    (hMove :
      Relocation rt h nursery mature old young kind found slots
        moves)
    (hMem : object ∈ Collection.kept kind old ++ found) :
    Object.Carried h.memory object
      (h.relocated slots found moves).memory
      (Collection.forward moves) := by
  rcases hMove.header_forwarded hMem with ⟨hSize, hRefs⟩
  have hProper := hMove.sound.proper (hMove.survey.members hMem)
  have hBefore := hProper.congr hSize hRefs
  have hCopy := hMove.matches_copied hMem
  rw [← hSize] at hCopy
  constructor
  · exact (hBefore.size_eq hCopy).trans hSize
  · exact (hBefore.refCount_eq hCopy).trans hRefs
  · intro i hi
    rw [hBefore.load_field hCopy (by rw [hRefs]; exact hi)]
    exact hMove.load_forwarded hMem
      (Object.mem_fields.mpr ⟨i, hi, rfl⟩)
  · intro k hLow hHigh
    rw [← hCopy k (by rw [hSize]; exact hHigh)]
    exact hMove.byte_forwarded hMem hHigh (Or.inr hLow)

/- Different objects have new places that do not overlap. -/
theorem separate
    (hMove :
      Relocation rt h nursery mature old young kind found slots
        moves)
    (hMem : object ∈ Collection.kept kind old ++ found)
    (hOther : other ∈ Collection.kept kind old ++ found)
    (hNe : object ≠ other) :
    Collection.forward moves object +
          Object.size h.memory object ≤
        Collection.forward moves other ∨
      Collection.forward moves other +
          Object.size h.memory other ≤
        Collection.forward moves object := by
  rcases List.mem_append.mp hMem with hKept | hFound <;>
    rcases List.mem_append.mp hOther with hKept' | hFound'
  · rw [hMove.forward_of_not_found
        (hMove.survey.not_mem_found hKept),
      hMove.forward_of_not_found
        (hMove.survey.not_mem_found hKept')]
    exact hMove.sound.apart_of_ne (hMove.survey.members hMem)
      (hMove.survey.members hOther) hNe
  · rcases hMove.exists_move hFound' with
      ⟨move, hIn, -, hSize, hDest⟩
    rw [hMove.forward_of_not_found
      (hMove.survey.not_mem_found hKept), hDest, ← hSize]
    exact (hMove.routes.apart move hIn object hKept).symm
  · rcases hMove.exists_move hFound with
      ⟨move, hIn, -, hSize, hDest⟩
    rw [hMove.forward_of_not_found
      (hMove.survey.not_mem_found hKept'), hDest, ← hSize]
    exact hMove.routes.apart move hIn other hKept'
  · rcases hMove.exists_move hFound with
      ⟨move, hIn, hSource, hSize, hDest⟩
    rcases hMove.exists_move hFound' with
      ⟨move', hIn', hSource', hSize', hDest'⟩
    rw [hDest, hDest', ← hSize, ← hSize']
    have hNeMove : move ≠ move' := by
      intro hEq
      apply hNe
      rw [← hSource, ← hSource', hEq]
    exact hMove.routes.pairwise_apart.forall hIn hIn' hNeMove

/- No two objects are moved to the same place. -/
theorem injective
    (hMove :
      Relocation rt h nursery mature old young kind found slots
        moves)
    (hMem : object ∈ Collection.kept kind old ++ found)
    (hOther : other ∈ Collection.kept kind old ++ found)
    (hEq :
      Collection.forward moves object =
        Collection.forward moves other) :
    object = other := by
  by_contra hNe
  have hApart := hMove.separate hMem hOther hNe
  have hHeader :=
    (hMove.sound.proper (hMove.survey.members hMem)).header_le
  have hHeader' :=
    (hMove.sound.proper (hMove.survey.members hOther)).header_le
  omega

/-
  Bytes outside of the objects and their new places are left
  alone.
-/
theorem byte_outside
    (hMove :
      Relocation rt h nursery mature old young kind found slots
        moves)
    (hObjects :
      ∀ object ∈ Collection.kept kind old ++ found,
        a < object ∨
          object + Object.size h.memory object ≤ a)
    (hMoves : ∀ move ∈ moves, a < move.dest ∨ move.stop ≤ a) :
    (h.relocated slots found moves).memory.byte a =
      h.memory.byte a := by
  refine (Memory.byte_copyAll_apart _ hMoves).trans ?_
  apply byte_forwardedAll
  intro b hb
  rcases hMove.survey.field_mem hb with ⟨object, hMem, hField⟩
  have hOutside := hObjects object hMem
  have hBounds :=
    (hMove.sound.proper
      (hMove.survey.members hMem)).slot_bounds hField
  omega

------------------------------------------------------------
-- Roots
------------------------------------------------------------

/- Root slots are rewritten. -/
theorem readSlot_root
    (hMove :
      Relocation rt h nursery mature old young kind found slots
        moves)
    {s : Slot}
    (hSlot : s ∈ h.rootSlots rt) :
    (h.relocated slots found moves).readSlot s =
      Collection.forward moves (h.readSlot s) := by
  have hForwarded :=
    readSlot_forwardedAll hMove.forwards h hMove.survey.apart
      (List.mem_append_left _ (hMove.survey.roots s hSlot).1)
  cases s with
  | entry k => exact hForwarded
  | register n => exact hForwarded
  | field a =>
      exact absurd rfl
        (not_field_of_mem_rootSlots hMove.standard hSlot a)

theorem sameUse
    (hMove :
      Relocation rt h nursery mature old young kind found slots
        moves) :
    h.roots.SameUse (h.relocated slots found moves).roots := by
  rcases forwardedAll_frame (Collection.forwarding moves) h
      (slots ++ Slot.ofObjects h.memory found) with
    ⟨_, _, _, hFrame⟩
  refine
    ⟨by unfold relocated; rw [hFrame]; rfl,
      by unfold relocated; rw [hFrame]; rfl, ?_⟩
  intro handle
  change
    (h.relocated slots found moves).readSlot
          (.entry handle) = 0 ↔
      h.readSlot (.entry handle) = 0
  by_cases hSlot :
      Slot.entry handle ∈
        slots ++ Slot.ofObjects h.memory found
  · have hRoot : Slot.entry handle ∈ h.rootSlots rt := by
      rcases List.mem_append.mp hSlot with hStart | hField
      · exact hMove.survey.inRoots _ hStart fun _ =>
          Slot.noConfusion
      · rcases Slot.mem_ofObjects.mp hField with
          ⟨_, _, _, _, hEq⟩
        cases hEq
    rw [hMove.readSlot_root hRoot]
    rcases (hMove.survey.roots _ hRoot).2 with hZero | hMem
    · rw [hZero, hMove.forward_null]
    · constructor
      · exact fun hZero =>
          absurd hZero (hMove.forward_ne_null hMem)
      · exact fun hZero =>
          absurd hZero
            (hMove.sound.ne_null (hMove.survey.members hMem))
  · have hSame :
        (h.forwardedAll (Collection.forwarding moves)
            (slots ++ Slot.ofObjects h.memory found)).readSlot
              (.entry handle) =
          h.readSlot (.entry handle) :=
      readSlot_forwardedAll_apart h
        fun s hs => by
          have hNe : s ≠ .entry handle := fun hEq =>
            hSlot (by rw [← hEq]; exact hs)
          cases s with
          | entry k => exact hNe
          | register n => exact hNe
          | field a => exact hNe
    change
      (h.forwardedAll (Collection.forwarding moves)
          (slots ++ Slot.ofObjects h.memory found)).readSlot
            (.entry handle) = 0 ↔ _
    rw [hSame]

/- A relocation leaves the root slots what they were. -/
theorem rootSlots_eq
    (hMove :
      Relocation rt h nursery mature old young kind found slots
        moves) :
    (h.relocated slots found moves).rootSlots rt =
      h.rootSlots rt :=
  rootSlots_congr hMove.sameUse

/-
  A relocation carries over the graph of all objects that are
  reachable from the root slots.
-/
theorem carries
    (hMove :
      Relocation rt h nursery mature old young kind found slots
        moves) :
    Carries rt (Collection.forward moves) h
      (h.relocated slots found moves) where
  null := hMove.forward_null
  rootSlots := hMove.rootSlots_eq
  roots := fun _ hSlot => hMove.readSlot_root hSlot
  objects := fun _ hObject =>
    hMove.carried
      (hMove.survey.mem_of_reachable hMove.standard hObject)
  live := fun _ hObject =>
    hMove.forward_ne_null
      (hMove.survey.mem_of_reachable hMove.standard hObject)
  injective := fun _ _ hObject hOther hEq =>
    hMove.injective
      (hMove.survey.mem_of_reachable hMove.standard hObject)
      (hMove.survey.mem_of_reachable hMove.standard hOther) hEq

end Relocation

end Heap

end BeltHeap
