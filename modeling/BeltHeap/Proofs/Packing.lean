import Mathlib.Data.List.Nodup
import Mathlib.Data.List.Perm.Subperm
import BeltHeap.Collection.Placing
import BeltHeap.Proofs.Belts
import BeltHeap.Proofs.Tiling

/-
  Survivors are packed in order and without gaps, and each of
  them is forwarded to its new place.

  Main declarations:
    * `Collection.inOrder_perm`, `Collection.pairwise_inOrder`
    * `Collection.inOrder_congr`
    * `Collection.pack_bounds`, `Collection.pairwise_pack`
    * `Collection.pack_le_source`, `Collection.lastStop_pack`
    * `Collection.forward`
    * `Collection.forward_of_mem`, `Collection.forward_of_not_mem`
-/

------------------------------------------------------------
-- Ordering Survivors
------------------------------------------------------------

namespace BeltHeap

namespace Collection

/- The survivors in order are the same survivors. -/
theorem inOrder_perm
    (nursery : Belt)
    (live : List LiveObject) :
    (inOrder nursery live).Perm live :=
  List.mergeSort_perm live (precedes nursery)

/- Any earlier survivor in order precedes any later one. -/
theorem pairwise_inOrder
    (nursery : Belt)
    (live : List LiveObject) :
    (inOrder nursery live).Pairwise fun a b =>
      precedes nursery a b = true := by
  apply List.pairwise_mergeSort
  · intro a b c hab hbc
    unfold precedes at *
    cases hA : nursery.contains a.1 <;>
      cases hB : nursery.contains b.1 <;>
      cases hC : nursery.contains c.1 <;>
      simp_all
    all_goals omega
  · intro a b
    unfold precedes
    cases hA : nursery.contains a.1 <;>
      cases hB : nursery.contains b.1 <;> simp
    all_goals omega

theorem inOrder_congr
    {live others : List LiveObject}
    (hPerm : others.Perm live)
    (hNodup : (live.map Prod.fst).Nodup)
    (nursery : Belt) :
    inOrder nursery others = inOrder nursery live := by
  have hBoth := hPerm.trans (inOrder_perm nursery live).symm
  refine List.Perm.eq_of_pairwise ?_
    (pairwise_inOrder nursery others)
    (pairwise_inOrder nursery live)
    ((inOrder_perm nursery others).trans hBoth)
  intro a b ha hb hab hba
  have hA :=
    hPerm.mem_iff.mp ((inOrder_perm nursery others).mem_iff.mp ha)
  have hB := (inOrder_perm nursery live).mem_iff.mp hb
  refine List.inj_on_of_nodup_map hNodup hA hB ?_
  unfold precedes at hab hba
  cases hInA : nursery.contains a.1 <;>
    cases hInB : nursery.contains b.1 <;>
    simp_all
  all_goals omega

------------------------------------------------------------
-- Packing
------------------------------------------------------------

variable {cursor : Nat}
variable {live : List LiveObject}

/- The moved objects are the survivors, in order. -/
theorem map_pack
    (cursor : Nat)
    (live : List LiveObject) :
    (pack cursor live).map (fun m => (m.source, m.size)) =
      live := by
  induction live generalizing cursor with
  | nil => rfl
  | cons x live ih => exact congrArg (x :: ·) (ih _)

/- All new places lie between the cursor and the end. -/
theorem pack_bounds
    {move : Move}
    (hMove : move ∈ pack cursor live) :
    cursor ≤ move.dest ∧
      move.stop ≤ cursor + liveBytes live := by
  unfold liveBytes
  induction live generalizing cursor with
  | nil => cases hMove
  | cons x live ih =>
      rw [List.map_cons, total]
      rcases List.mem_cons.mp hMove with hHead | hTail
      · rw [hHead]
        unfold Move.stop
        simp only
        omega
      · have hRest := ih hTail
        omega

/- Earlier objects are packed below later ones. -/
theorem pairwise_pack
    (cursor : Nat)
    (live : List LiveObject) :
    (pack cursor live).Pairwise fun a b => a.stop ≤ b.dest := by
  induction live generalizing cursor with
  | nil => exact List.Pairwise.nil
  | cons x live ih =>
      refine List.Pairwise.cons ?_ (ih _)
      intro move hMove
      exact (pack_bounds hMove).1

/- Packed objects tile their part of a belt. -/
theorem tiles_pack
    {m : Memory}
    (hPacked :
      ∀ move ∈ pack cursor live,
        Object.Proper m move.dest ∧
          Object.size m move.dest = move.size) :
    Object.Tiles m (cursor + liveBytes live) cursor
      ((pack cursor live).map Move.dest) := by
  unfold liveBytes
  induction live generalizing cursor with
  | nil => exact Object.Tiles.nil
  | cons x live ih =>
      rcases hPacked _ List.mem_cons_self with ⟨hProper, hSize⟩
      have hRest :=
        ih fun move hMove =>
          hPacked move (List.mem_cons_of_mem _ hMove)
      rw [Nat.add_assoc] at hRest
      refine Object.Tiles.cons hProper ?_
      rw [hSize]
      exact hRest

/- The last object ends where all sizes are used up. -/
theorem lastStop_pack
    (cursor : Nat)
    {live : List LiveObject}
    (hSome : live ≠ []) :
    lastStop? (pack cursor live) =
      some (cursor + liveBytes live) := by
  unfold lastStop? liveBytes
  induction live generalizing cursor with
  | nil => exact absurd rfl hSome
  | cons x live ih =>
      cases live with
      | nil => simp [pack, Move.stop, total]
      | cons y live =>
          have hRest := ih (cursor + x.2) (List.cons_ne_nil _ _)
          rw [List.map_cons, total, ← Nat.add_assoc, ← hRest]
          rfl

/-
  Packed objects stop as far behind the cursor as they are long.
-/
theorem lastStop_getD_pack
    (cursor : Nat)
    (live : List LiveObject) :
    (lastStop? (pack cursor live)).getD cursor =
      cursor + liveBytes live := by
  cases live with
  | nil => rfl
  | cons x live =>
      rw [lastStop_pack cursor (List.cons_ne_nil x live)]
      rfl

/-
  Objects that are packed from below the first of them move
  down.  This holds for the lower part of the survivors also
  where others follow.
-/
theorem pack_le_source
    (low : Nat → Prop)
    (hOrder :
      live.Pairwise fun a b =>
        low b.1 → low a.1 ∧ a.1 + a.2 ≤ b.1)
    (hStart : ∀ x ∈ live, low x.1 → cursor ≤ x.1)
    {move : Move}
    (hMove : move ∈ pack cursor live)
    (hLow : low move.source) :
    move.dest ≤ move.source := by
  induction live generalizing cursor with
  | nil => cases hMove
  | cons x live ih =>
      rcases List.pairwise_cons.mp hOrder with ⟨hFirst, hRest⟩
      rcases List.mem_cons.mp hMove with hHead | hTail
      · rw [hHead] at hLow ⊢
        exact hStart x List.mem_cons_self hLow
      · refine ih hRest ?_ hTail
        intro y hy hLowY
        have hAbove := hFirst y hy hLowY
        have hCursor :=
          hStart x List.mem_cons_self hAbove.1
        omega

------------------------------------------------------------
-- Forwarding
------------------------------------------------------------

/- The new address of an object; the same one if it stays. -/
def forward
    (moves : List Move)
    (object : Nat) : Nat :=
  (forwarding moves)[object]?.getD object

variable {moves : List Move}

theorem forwarding_of_mem
    (hNodup : (moves.map Move.source).Nodup)
    {move : Move}
    (hMove : move ∈ moves) :
    (forwarding moves)[move.source]? = some move.dest := by
  unfold forwarding
  refine Std.HashMap.getElem?_ofList_of_mem (k := move.source)
    (beq_self_eq_true _) ?_ (List.mem_map_of_mem hMove)
  rw [List.pairwise_map]
  rw [List.nodup_iff_pairwise_ne, List.pairwise_map] at hNodup
  refine hNodup.imp ?_
  intro a b hNe
  exact beq_false_of_ne hNe

theorem forwarding_of_not_mem
    {object : Nat}
    (hNot : object ∉ moves.map Move.source) :
    (forwarding moves)[object]? = none := by
  unfold forwarding
  apply Std.HashMap.getElem?_ofList_of_contains_eq_false
  rw [List.contains_eq_mem, decide_eq_false_iff_not,
    List.map_map]
  exact hNot

theorem forward_of_mem
    (hNodup : (moves.map Move.source).Nodup)
    {move : Move}
    (hMove : move ∈ moves) :
    forward moves move.source = move.dest := by
  unfold forward
  rw [forwarding_of_mem hNodup hMove]
  rfl

theorem forward_of_not_mem
    {object : Nat}
    (hNot : object ∉ moves.map Move.source) :
    forward moves object = object := by
  unfold forward
  rw [forwarding_of_not_mem hNot]
  rfl

/- The moved objects are forwarded to their new places. -/
theorem map_forward
    (hNodup : (moves.map Move.source).Nodup) :
    (moves.map Move.source).map (forward moves) =
      moves.map Move.dest := by
  rw [List.map_map]
  apply List.map_congr_left
  intro move hMove
  exact forward_of_mem hNodup hMove

------------------------------------------------------------
-- Sizes
------------------------------------------------------------

theorem total_le_of_subperm
    {ns ms : List Nat}
    (hSub : ns.Subperm ms) :
    total ns ≤ total ms := by
  rcases hSub with ⟨ks, hPerm, hSublist⟩
  have hPermTotal : total ks = total ns := by
    clear hSublist
    induction hPerm with
    | nil => rfl
    | cons x _ ih => rw [total, total, ih]
    | swap x y l =>
        simp only [total]
        omega
    | trans _ _ ih₁ ih₂ => exact ih₁.trans ih₂
  rw [← hPermTotal]
  clear hPermTotal hPerm
  induction hSublist with
  | slnil => exact Nat.le_refl _
  | cons x _ ih =>
      rw [total]
      omega
  | cons_cons x _ ih =>
      rw [total, total]
      omega

theorem total_le_of_subset
    (f : Nat → Nat)
    {os ps : List Nat}
    (hNodup : os.Nodup)
    (hSub : ∀ o ∈ os, o ∈ ps) :
    total (os.map f) ≤ total (ps.map f) := by
  rcases List.subperm_of_subset hNodup hSub with
    ⟨others, hPerm, hSublist⟩
  exact
    total_le_of_subperm ⟨_, hPerm.map f, hSublist.map f⟩

/- The sizes of a tiling add up to its length. -/
theorem total_tiles
    {m : Memory}
    {start stop : Nat}
    {os : List Nat}
    (h : Object.Tiles m stop start os) :
    start + total (os.map (Object.size m)) = stop := by
  induction h with
  | nil => rfl
  | cons hProper hRest ih =>
      rw [List.map_cons, total]
      omega

end Collection

end BeltHeap
