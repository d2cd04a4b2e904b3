import BeltHeap.Collection.Run
import BeltHeap.Proofs.Loading
import BeltHeap.Proofs.Yielding

/-
  Copying objects one after the other comes to the same as
  copying all of them at once, where no copy destroys what is
  still to be copied.

  Main declarations:
    * `Collection.Move.Clears`
    * `Memory.byte_copyAll_mem`
    * `Memory.byte_copyAll_apart`
    * `Memory.byte_copyAll`
    * `HeapM.yields_moveObjects`
-/

------------------------------------------------------------
-- Single Copies
------------------------------------------------------------

namespace BeltHeap

/-
  A move that comes first clears a later one: it touches neither
  the old place nor the new place of the later object.
-/
def Collection.Move.Clears (a b : Collection.Move) : Prop :=
  (a.stop ≤ b.source ∨ b.source + b.size ≤ a.dest) ∧
    (a.stop ≤ b.dest ∨ b.stop ≤ a.dest)

namespace Memory

theorem byte_copyObject_self
    (m : Memory)
    (move : Collection.Move)
    {k : Nat}
    (hk : k < move.size) :
    (m.copyObject move).byte (move.dest + k) =
      m.byte (move.source + k) := by
  unfold copyObject
  by_cases hStay : move.source = move.dest
  · rw [if_pos hStay, hStay]
  · rw [if_neg hStay, byte_copy, if_pos (by omega)]
    rw [Nat.add_sub_cancel_left]

/- Bytes outside of the new place of an object are left alone. -/
theorem byte_copyObject_apart
    (m : Memory)
    (move : Collection.Move)
    {a : Nat}
    (ha : a < move.dest ∨ move.stop ≤ a) :
    (m.copyObject move).byte a = m.byte a := by
  unfold Collection.Move.stop at ha
  unfold copyObject
  by_cases hStay : move.source = move.dest
  · rw [if_pos hStay]
  · rw [if_neg hStay, byte_copy, if_neg (by omega)]

------------------------------------------------------------
-- All Copies
------------------------------------------------------------

variable {moves : List Collection.Move}

/- Bytes outside of all new places are left alone. -/
theorem byte_copyAll_apart
    (m : Memory)
    {a : Nat}
    (ha : ∀ move ∈ moves, a < move.dest ∨ move.stop ≤ a) :
    (m.copyAll moves).byte a = m.byte a := by
  unfold copyAll
  induction moves generalizing m with
  | nil => rfl
  | cons first rest ih =>
      rw [List.foldl_cons]
      rw [ih _ fun move hMove =>
        ha move (List.mem_cons_of_mem _ hMove)]
      exact byte_copyObject_apart m first
        (ha first List.mem_cons_self)

/-
  Every object arrives as it was before the first copy, if each
  move clears those that come after it.
-/
theorem byte_copyAll_mem
    (m : Memory)
    (hClears : moves.Pairwise Collection.Move.Clears)
    {move : Collection.Move}
    (hMove : move ∈ moves) :
    m.Matches move.source (m.copyAll moves) move.dest
      move.size := by
  induction moves generalizing m with
  | nil => cases hMove
  | cons first rest ih =>
      rcases List.pairwise_cons.mp hClears with ⟨hFirst, hRest⟩
      have hStep :
          m.copyAll (first :: rest) =
            (m.copyObject first).copyAll rest := rfl
      rw [hStep]
      intro k hk
      rcases List.mem_cons.mp hMove with hHead | hTail
      · subst hHead
        rw [byte_copyAll_apart]
        · exact (byte_copyObject_self m move hk).symm
        · intro later hLater
          have hApart := (hFirst later hLater).2
          unfold Collection.Move.stop at hApart ⊢
          omega
      · have hClear := (hFirst move hTail).1
        rw [← ih (m.copyObject first) hRest hTail k hk]
        symm
        apply byte_copyObject_apart
        omega

/-
  Moves that clear those after them put every byte where copying
  all objects at once puts it.
-/
theorem byte_copyAll
    (m : Memory)
    (hClears : moves.Pairwise Collection.Move.Clears)
    (a : Nat) :
    (m.copyAll moves).byte a = m.copyAtOnce moves a := by
  unfold copyAtOnce
  cases hFind :
      moves.find? fun move => move.dest ≤ a && a < move.stop with
  | none =>
      apply byte_copyAll_apart
      intro move hMove
      have hOut := List.find?_eq_none.mp hFind move hMove
      simp only [Bool.and_eq_true, decide_eq_true_eq] at hOut
      omega
  | some move =>
      have hMove := List.mem_of_find?_eq_some hFind
      have hIn := List.find?_some hFind
      simp only [Bool.and_eq_true, decide_eq_true_eq] at hIn
      unfold Collection.Move.stop at hIn
      have hArrived :=
        byte_copyAll_mem m hClears hMove (a - move.dest)
          (by omega)
      rw [Nat.add_sub_cancel' hIn.1] at hArrived
      exact hArrived.symm

end Memory

------------------------------------------------------------
-- Moving Objects
------------------------------------------------------------

/- Moving the survivors copies them all. -/
theorem HeapM.yields_moveObjects
    (moves : List Collection.Move)
    (h : Heap) :
    Yields (moveObjects moves) h (.ok ())
      (h.mapMemory fun m => m.copyAll moves) := by
  have hForM :
      Yields (moveObjects moves) h (.ok ())
        (moves.foldl
          (fun g move => g.mapMemory fun m => m.copyObject move)
          h) := by
    unfold moveObjects
    refine yields_forM (fun _ _ => True) ?_ moves trivial
    intro g move _ _
    refine ⟨?_, trivial⟩
    by_cases hStay : move.source = move.dest
    · rw [if_pos hStay]
      have hSame :
          (g.mapMemory fun m => m.copyObject move) = g := by
        simp [Heap.mapMemory, Memory.copyObject, hStay]
      rw [hSame]
      exact yields_pure ()
    · rw [if_neg hStay]
      exact yields_update _
  have hFold :
      moves.foldl
          (fun g move => g.mapMemory fun m => m.copyObject move)
          h =
        h.mapMemory fun m => m.copyAll moves := by
    clear hForM
    induction moves generalizing h with
    | nil => rfl
    | cons move moves ih =>
        rw [List.foldl_cons, ih]
        rfl
  rw [← hFold]
  exact hForM

end BeltHeap
