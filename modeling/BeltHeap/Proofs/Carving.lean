import BeltHeap.Proofs.Arranging
import BeltHeap.Proofs.Blocks
import BeltHeap.Proofs.Boundaries

/-
  How a heap is split between belts.  Each belt but the last one
  gets its percentage in whole pages, and the last one gets what
  is left.  The split is never at fault for a heap that ends
  below the limit of words.  Only the last belt may be left
  without a whole page.

  Main declarations:
    * `Word.pageShare_eq`
    * `Percentages.Complete`, `Percentages.Excessive`
    * `Percentages.isValid_eq`
    * `Percentages.Splits`
    * `Percentages.taken`
    * `Layout.carved_carveFrom`
    * `Layout.carve_splits_heap`
    * `Layout.Scrap`, `Layout.Paged`
    * `Layout.new_belts_have_pages`
-/

------------------------------------------------------------
-- Shares
------------------------------------------------------------

namespace BeltHeap

/- A percentage of a number of bytes, rounded down to pages. -/
def Percentages.share
    (heapSize percent : Nat) : Nat :=
  heapSize * percent / 100 / Word.pageBytes * Word.pageBytes

/- A share of a heap is no more than the percentage says. -/
theorem Percentages.share_le
    (heapSize percent : Nat) :
    100 * share heapSize percent ≤ heapSize * percent := by
  have hPages :
      share heapSize percent ≤ heapSize * percent / 100 :=
    Nat.div_mul_le_self _ _
  omega

/-
  Taking the hundreds and the rest of a number apart gives the
  same percentage, without any number that is not a word.
-/
theorem Word.pageShare_eq
    {n percent : Nat}
    (hWord : n < limit)
    (hPercent : percent ≤ 100) :
    pageShare n percent = .ok (Percentages.share n percent) := by
  have hLimit : 100 * 100 < limit := by decide
  have hSplit := Nat.div_add_mod n 100
  have hRest : n % 100 < 100 := Nat.mod_lt n (by decide)
  have hHundreds : n / 100 * percent ≤ n / 100 * 100 :=
    Nat.mul_le_mul_left _ hPercent
  have hProduct : n % 100 * percent ≤ 100 * 100 :=
    Nat.mul_le_mul (Nat.le_of_lt hRest) hPercent
  have hSum :
      n / 100 * percent + n % 100 * percent / 100 =
        n * percent / 100 := by
    have hTaken :
        n * percent =
          n % 100 * percent + 100 * (n / 100 * percent) := by
      rw [← Nat.mul_assoc, ← Nat.add_mul, Nat.add_comm, hSplit]
    rw [hTaken, Nat.add_mul_div_left _ _ (by decide),
      Nat.add_comm]
  have hShare : n * percent / 100 < limit := by
    have hMost : n * percent ≤ n * 100 :=
      Nat.mul_le_mul_left n hPercent
    omega
  unfold pageShare mul add
  rw [if_pos (by omega), if_pos (by omega)]
  simp only [bind, Except.bind]
  rw [hSum, if_pos hShare]
  exact
    congrArg Except.ok
      (alignDown_two_pow (k := 12) (by decide) hShare)

------------------------------------------------------------
-- Splits
------------------------------------------------------------

namespace Percentages

/- Each belt gets something, and together they get everything. -/
structure Complete (ps : Percentages) : Prop where
  some : ps ≠ []
  positive : 0 ∉ ps
  whole : total ps = 100

/-
  Each belt gets something, but together they get more than a sum
  of percentages can be.
-/
structure Excessive (ps : Percentages) : Prop where
  some : ps ≠ []
  positive : 0 ∉ ps
  large : sumLimit ≤ total ps

/- A sum is exact, or it is too large. -/
theorem sumFrom_eq
    (ps : Percentages)
    {sum : Nat}
    (hSum : sum < sumLimit) :
    sumFrom sum ps =
      if sum + total ps < sumLimit then .ok (sum + total ps)
      else .error .addOverflow := by
  induction ps generalizing sum with
  | nil => exact (if_pos hSum).symm
  | cons p ps ih =>
      unfold sumFrom total
      rw [← Nat.add_assoc]
      split
      · rename_i hNext
        exact ih hNext
      · rename_i hFar
        exact (if_neg fun hNear => hFar (by omega)).symm

/- Percentages are added up only if each belt gets something. -/
theorem isValid_eq
    (ps : Percentages) :
    isValid ps =
      if ps = [] ∨ 0 ∈ ps then .ok false
      else if total ps < sumLimit then .ok (total ps == 100)
      else .error .addOverflow := by
  unfold isValid
  rw [sumFrom_eq ps (by decide), Nat.zero_add]
  by_cases hLacks : ps = [] ∨ 0 ∈ ps
  · rw [if_pos hLacks, if_pos (by simpa using hLacks)]
  · rw [if_neg hLacks, if_neg (by simpa using hLacks)]
    split <;> rfl

/- Splits that are valid are complete. -/
theorem isValid_iff
    {ps : Percentages} :
    isValid ps = .ok true ↔ Complete ps := by
  rw [isValid_eq]
  constructor
  · intro hValid
    split at hValid
    · cases hValid
    rename_i hShares
    rcases not_or.mp hShares with ⟨hSome, hPositive⟩
    split at hValid
    · have hWhole := Except.ok.inj hValid
      exact ⟨hSome, hPositive, beq_iff_eq.mp hWhole⟩
    · cases hValid
  · intro hComplete
    have hShares :=
      not_or.mpr ⟨hComplete.some, hComplete.positive⟩
    rw [if_neg hShares, hComplete.whole]
    rfl

/- Only excessive splits cannot be checked. -/
theorem isValid_eq_error_iff
    {ps : Percentages}
    {f : Fault} :
    isValid ps = .error f ↔ f = .addOverflow ∧ Excessive ps := by
  rw [isValid_eq]
  constructor
  · intro hFault
    split at hFault
    · cases hFault
    rename_i hShares
    rcases not_or.mp hShares with ⟨hSome, hPositive⟩
    split at hFault
    · cases hFault
    · cases hFault
      rename_i hFar
      exact ⟨rfl, hSome, hPositive, Nat.le_of_not_lt hFar⟩
  · rintro ⟨rfl, hExcessive⟩
    have hShares :=
      not_or.mpr ⟨hExcessive.some, hExcessive.positive⟩
    rw [if_neg hShares,
      if_neg (Nat.not_lt_of_le hExcessive.large)]

/-
  A split that can be added up is invalid if it is not complete.
-/
theorem isValid_eq_false
    {ps : Percentages}
    (hNot : ¬ Complete ps)
    (hSum : ¬ Excessive ps) :
    isValid ps = .ok false := by
  cases hValid : isValid ps with
  | error f => exact absurd (isValid_eq_error_iff.mp hValid).2 hSum
  | ok valid =>
      cases valid with
      | false => rfl
      | true => exact absurd (isValid_iff.mp hValid) hNot

/- A complete split is not excessive. -/
theorem Complete.not_excessive
    {ps : Percentages}
    (hComplete : Complete ps) :
    ¬ Excessive ps := by
  intro hExcessive
  have hLarge := hExcessive.large
  rw [hComplete.whole] at hLarge
  exact absurd hLarge (by decide)

/- The sum of equal numbers. -/
theorem total_replicate
    (count n : Nat) :
    total (List.replicate count n) = count * n := by
  induction count with
  | zero => exact (Nat.zero_mul n).symm
  | succ count ih =>
      rw [List.replicate_succ, total, ih, Nat.succ_mul,
        Nat.add_comm]

/- Many equal percentages are excessive. -/
theorem excessive_replicate
    {count p : Nat}
    (hPositive : 0 < p)
    (hLarge : sumLimit ≤ count * p) :
    Excessive (List.replicate count p) where
  some hNil := by
    rw [(List.replicate_eq_nil_iff p).mp hNil,
      Nat.zero_mul] at hLarge
    exact absurd hLarge (by decide)
  positive hMem :=
    Nat.ne_of_lt hPositive (List.eq_of_mem_replicate hMem)
  large := by
    rw [total_replicate]
    exact hLarge

/- The shortest list of bytes that has no sum. -/
def longSplit : Percentages :=
  List.replicate 16843010 partLimit

/- The long split consists of bytes and is excessive. -/
theorem excessive_longSplit :
    (∀ p ∈ longSplit, p ≤ partLimit) ∧ Excessive longSplit :=
  ⟨fun _ hMem => Nat.le_of_eq (List.eq_of_mem_replicate hMem),
    excessive_replicate (by decide) (by decide)⟩

/-
  Sizes that the belts get out of some room: all but the last
  one get their shares of the heap, and together they fill it.
-/
structure Splits
    (heapSize room : Nat)
    (ps : Percentages)
    (sizes : List Nat) : Prop where
  count : sizes.length = ps.length
  shares :
    ∀ k p, ps[k]? = some p → k + 1 < ps.length →
      sizes[k]? = some (share heapSize p)
  whole : total sizes = room

variable {heapSize room p q : Nat}
variable {ps : Percentages}
variable {sizes : List Nat}

/- The only belt gets all of it. -/
theorem splits_last
    (heapSize room p : Nat) :
    Splits heapSize room [p] [room] where
  count := rfl
  shares := fun _ _ _ hMore => absurd hMore (by simp)
  whole := Nat.add_zero room

/- A belt in front of others gets its share. -/
theorem Splits.cons
    (hSplits : Splits heapSize room (q :: ps) sizes) :
    Splits heapSize (share heapSize p + room) (p :: q :: ps)
      (share heapSize p :: sizes) where
  count := congrArg (· + 1) hSplits.count
  shares := by
    intro k r hPart hMore
    cases k with
    | zero =>
        cases hPart
        rfl
    | succ k =>
        exact
          hSplits.shares k r hPart (Nat.lt_of_succ_lt_succ hMore)
  whole := congrArg (share heapSize p + ·) hSplits.whole

/- The first of several belts gets its share and no more. -/
theorem Splits.behind
    (hSplits : Splits heapSize room (p :: q :: ps) sizes) :
    ∃ rest,
      sizes = share heapSize p :: rest ∧
        room = share heapSize p + total rest ∧
        Splits heapSize (total rest) (q :: ps) rest := by
  have hFirst := hSplits.shares 0 p rfl (by simp)
  cases sizes with
  | nil => cases hFirst
  | cons size rest =>
      cases hFirst
      refine ⟨rest, rfl, hSplits.whole.symm, ?_, ?_, rfl⟩
      · exact Nat.succ.inj hSplits.count
      · intro k r hPart hMore
        exact
          hSplits.shares (k + 1) r hPart (Nat.succ_lt_succ hMore)

theorem Splits.unique
    {others : List Nat}
    (hSplits : Splits heapSize room ps sizes)
    (hOthers : Splits heapSize room ps others) :
    sizes = others := by
  induction ps generalizing room sizes others with
  | nil =>
      rw [List.eq_nil_of_length_eq_zero hSplits.count,
        List.eq_nil_of_length_eq_zero hOthers.count]
  | cons p ps ih =>
      cases ps with
      | nil =>
          rcases List.length_eq_one_iff.mp hSplits.count with
            ⟨size, rfl⟩
          rcases List.length_eq_one_iff.mp hOthers.count with
            ⟨other, rfl⟩
          have hWhole := hSplits.whole.trans hOthers.whole.symm
          exact congrArg (fun n => [n]) hWhole
      | cons q ps =>
          rcases hSplits.behind with
            ⟨rest, rfl, hRoom, hRest⟩
          rcases hOthers.behind with
            ⟨rest', rfl, hRoom', hRest'⟩
          have hSame : total rest = total rest' := by omega
          rw [hSame] at hRest
          rw [ih hRest hRest']

/-
  If there is room for all percentages, the last belt has room
  for its own, since the others get no more than theirs.
-/
theorem Splits.last_le
    {size : Nat}
    (hSplits : Splits heapSize room ps sizes)
    (hRoom : heapSize * total ps ≤ 100 * room)
    (hLast : sizes.getLast? = some size) :
    heapSize * ps.getLastD 0 ≤ 100 * size := by
  induction ps generalizing room sizes with
  | nil => exact Nat.zero_le _
  | cons p ps ih =>
      cases ps with
      | nil =>
          rcases List.length_eq_one_iff.mp hSplits.count with
            ⟨only, rfl⟩
          cases hLast
          rw [← hSplits.whole] at hRoom
          exact hRoom
      | cons q ps =>
          have hShare := share_le heapSize p
          rcases hSplits.behind with ⟨rest, rfl, rfl, hRest⟩
          rw [total, Nat.mul_add] at hRoom
          cases rest with
          | nil => cases hRest.count
          | cons other rest =>
              exact ih hRest (by omega) hLast

/- What all belts but the last one get together. -/
def taken
    (heapSize : Nat)
    (ps : Percentages) : Nat :=
  total (ps.dropLast.map (share heapSize))

/- The last belt gets what the others leave. -/
theorem Splits.taken_add
    {size : Nat}
    (hSplits : Splits heapSize room ps sizes)
    (hLast : sizes.getLast? = some size) :
    taken heapSize ps + size = room := by
  induction ps generalizing room sizes with
  | nil =>
      rw [List.eq_nil_of_length_eq_zero hSplits.count] at hLast
      cases hLast
  | cons p ps ih =>
      cases ps with
      | nil =>
          rcases List.length_eq_one_iff.mp hSplits.count with
            ⟨only, rfl⟩
          cases hLast
          exact (Nat.zero_add _).trans hSplits.whole
      | cons q ps =>
          rcases hSplits.behind with ⟨rest, rfl, rfl, hRest⟩
          cases rest with
          | nil => cases hRest.count
          | cons other rest =>
              rw [← ih hRest hLast, ← Nat.add_assoc]
              rfl

end Percentages

------------------------------------------------------------
-- Carving Belts
------------------------------------------------------------

namespace Layout

open Percentages

variable {start stop heapSize index : Nat}
variable {ps : Percentages}
variable {sizes : List Nat}
variable {l : Layout}

/- Empty belts of some sizes, one right after the other. -/
def emptyRow : Nat → Nat → List Nat → List Belt
| _, _, [] => []
| index, start, size :: sizes =>
    emptyBelt index start (start + size) false ::
      emptyRow (index + 1) (start + size) sizes

/-
  What comes of carving belts of some sizes: the belts, or an
  error that names the first one that would have no bytes.
-/
inductive Carved
    (heapSize index start : Nat)
    (sizes : List Nat) :
    Except Fault (Except LayoutError (List Belt)) → Prop where
| laid
    (hSome : 0 ∉ sizes) :
    Carved heapSize index start sizes
      (.ok (.ok (emptyRow index start sizes)))
| refused
    {k : Nat}
    (hZero : sizes[k]? = some 0)
    (hFirst : 0 ∉ sizes.take k) :
    Carved heapSize index start sizes
      (.ok (.error (.beltTooSmall heapSize (index + k))))

/- A belt in front of the others comes out first, or is refused. -/
theorem Carved.cons
    {size : Nat}
    {rest : Nat → ExceptT LayoutError (Except Fault) (List Belt)}
    (hBelow : start + size < Word.limit)
    (hRest :
      Carved heapSize (index + 1) (start + size) sizes
        (rest (start + size)).run) :
    Carved heapSize index start (size :: sizes)
      (ExceptT.run
        (if size = 0 then throw (.beltTooSmall heapSize index)
        else do
          let belt ← Belt.make index start size
          let next ← Word.add start size
          let belts ← rest next
          pure (belt :: belts))) := by
  split
  · rename_i hZero
    exact .refused (k := 0) (by simp [hZero]) (by simp)
  rename_i hSome
  have hNext : Word.add start size = .ok (start + size) :=
    if_pos hBelow
  have hMake :
      Belt.make index start size =
        .ok (emptyBelt index start (start + size) false) := by
    unfold Belt.make
    rw [hNext]
    rfl
  rw [hMake, hNext]
  generalize hRun : (rest (start + size)).run = outcome at hRest
  change
    Carved heapSize index start (size :: sizes)
      (ExceptT.run
        (rest (start + size) >>= fun belts =>
          pure
            (emptyBelt index start (start + size) false ::
              belts)))
  rw [ExceptT.run_bind, hRun]
  cases hRest with
  | laid hOthers =>
      refine .laid fun hMem => ?_
      rcases List.mem_cons.mp hMem with hZero | hMem
      · exact hSome hZero.symm
      · exact hOthers hMem
  | @refused k hZero hFirst =>
      have hNumber : index + 1 + k = index + (k + 1) := by omega
      rw [hNumber]
      refine .refused hZero fun hMem => ?_
      rcases List.mem_cons.mp hMem with hZero | hMem
      · exact hSome hZero.symm
      · exact hFirst hMem

/-
  Percentages of which at most a hundred are left, and for which
  there is room, split the room between belts.  Each belt leaves
  enough of it for the percentages behind it.
-/
theorem carved_carveFrom
    (index start p : Nat)
    (hRoom : heapSize * total (p :: ps) ≤ 100 * (stop - start))
    (hMost : total (p :: ps) ≤ 100)
    (hWord : heapSize < Word.limit)
    (hOrder : start ≤ stop)
    (hBelow : stop < Word.limit) :
    ∃ sizes,
      Splits heapSize (stop - start) (p :: ps) sizes ∧
        Carved heapSize index start sizes
          (carveFrom heapSize stop index start (p :: ps)).run := by
  induction ps generalizing p index start with
  | nil =>
      have hEnd : start + (stop - start) = stop :=
        Nat.add_sub_cancel' hOrder
      have hSize :
          Word.distance stop start = .ok (stop - start) :=
        if_pos hOrder
      refine ⟨_, splits_last heapSize (stop - start) p, ?_⟩
      unfold carveFrom
      rw [List.isEmpty_nil, if_pos rfl, hSize]
      exact
        Carved.cons (by rw [hEnd]; exact hBelow)
          (.laid List.not_mem_nil)
  | cons q ps ih =>
      have hShare := share_le heapSize p
      unfold total at hRoom hMost
      rw [Nat.mul_add] at hRoom
      have hEnd :
          stop - start =
            share heapSize p +
              (stop - (start + share heapSize p)) := by
        omega
      have hSize :
          Word.pageShare heapSize p = .ok (share heapSize p) :=
        Word.pageShare_eq hWord (by omega)
      rcases ih (index + 1) (start + share heapSize p) q
          (by omega) (by omega) (by omega) with
        ⟨sizes, hSplits, hCarved⟩
      refine ⟨share heapSize p :: sizes, ?_, ?_⟩
      · rw [hEnd]
        exact hSplits.cons
      · unfold carveFrom
        rw [List.isEmpty_cons, if_neg Bool.false_ne_true, hSize]
        exact Carved.cons (by omega) hCarved

------------------------------------------------------------
-- New Layouts
------------------------------------------------------------

/- Belts in a row have the sizes that they were given. -/
theorem map_size_emptyRow
    (index start : Nat)
    (sizes : List Nat) :
    (emptyRow index start sizes).map Belt.size = sizes := by
  induction sizes generalizing index start with
  | nil => rfl
  | cons size sizes ih =>
      have hSize :
          (emptyBelt index start (start + size) false).size =
            size :=
        Nat.add_sub_cancel_left start size
      unfold emptyRow
      rw [List.map_cons, hSize, ih]

/- All belts in an empty row are empty. -/
theorem mark_of_mem_emptyRow
    {b : Belt}
    (hMem : b ∈ emptyRow index start sizes) :
    b.mark = b.start := by
  induction sizes generalizing index start with
  | nil => cases hMem
  | cons size sizes ih =>
      rcases List.mem_cons.mp hMem with rfl | hMem
      · rfl
      · exact ih hMem

/-
  A new layout over a heap: its belts have some sizes, lie one
  right after the other over the whole heap, and are empty, and
  each of them plays the role with its own number.
-/
structure Laid
    (start heapSize : Nat)
    (sizes : List Nat)
    (l : Layout) : Prop where
  heap : l.heap = ⟨start, start + heapSize⟩
  row : Belt.Row l.heap.stop 0 l.heap.start l.belts.toList
  sizes : l.belts.toList.map Belt.size = sizes
  empty : ∀ b ∈ l.belts, b.mark = b.start
  roles : l.roles = Array.range l.belts.size

/- A split that cannot be added up breaks off. -/
theorem carve_of_excessive
    (start heapSize : Nat)
    (hExcessive : Excessive ps) :
    (carve start heapSize ps).run = .error .addOverflow := by
  unfold carve
  rw [isValid_eq_error_iff.mpr ⟨rfl, hExcessive⟩]
  rfl

/-
  A split that can be added up is refused if it is not complete.
-/
theorem carve_of_incomplete
    (start heapSize : Nat)
    (hNot : ¬ Complete ps)
    (hSum : ¬ Excessive ps) :
    (carve start heapSize ps).run =
      .ok (.error (.invalidPercentages ps)) := by
  unfold carve
  rw [isValid_eq_false hNot hSum]
  rfl

/- A complete split makes a layout of the belts it carves. -/
theorem run_carve
    (hComplete : Complete ps)
    (hBelow : start + heapSize < Word.limit) :
    (carve start heapSize ps).run =
      (ExceptT.run do
        let belts ←
          carveFrom heapSize (start + heapSize) 0 start ps
        pure
          { belts := belts.toArray
            roles := Array.range belts.length
            heap := ⟨start, start + heapSize⟩ }) := by
  have hStop : Word.add start heapSize = .ok (start + heapSize) :=
    if_pos hBelow
  unfold carve
  rw [isValid_iff.mpr hComplete, hStop]
  rfl

/- Belts are laid out, or one of them would have no bytes. -/
theorem carve_of_complete
    (hComplete : Complete ps)
    (hBelow : start + heapSize < Word.limit) :
    ∃ sizes,
      Splits heapSize heapSize ps sizes ∧
        ((0 ∉ sizes ∧
          ∃ l, Makes (carve start heapSize ps) l ∧
            Laid start heapSize sizes l) ∨
          ∃ k,
            sizes[k]? = some 0 ∧ 0 ∉ sizes.take k ∧
              (carve start heapSize ps).run =
                .ok (.error (.beltTooSmall heapSize k))) := by
  have hRoom : start + heapSize - start = heapSize :=
    Nat.add_sub_cancel_left start heapSize
  have hCarve := run_carve hComplete hBelow
  cases ps with
  | nil => exact absurd rfl hComplete.some
  | cons p ps =>
      have hFull :
          heapSize * total (p :: ps) ≤
            100 * (start + heapSize - start) := by
        rw [hComplete.whole]
        omega
      rcases carved_carveFrom 0 start p hFull
          (Nat.le_of_eq hComplete.whole) (by omega)
          (Nat.le_add_right _ _) hBelow with
        ⟨sizes, hSplits, hCarved⟩
      rw [hRoom] at hSplits
      refine ⟨sizes, hSplits, ?_⟩
      generalize hRun :
        (carveFrom heapSize (start + heapSize) 0 start
          (p :: ps)).run = outcome at hCarved
      rw [ExceptT.run_bind, hRun] at hCarve
      cases hCarved with
      | laid hSome =>
          have hMakes : Makes (carve start heapSize (p :: ps)) _ :=
            hCarve
          rcases Arranged.of_carve hMakes with ⟨hArranged, hHeap, -⟩
          refine
            .inl
              ⟨hSome, _, hMakes, hHeap, hArranged.row,
                map_size_emptyRow _ _ _, fun b hMem => ?_, ?_⟩
          · exact mark_of_mem_emptyRow (List.mem_toArray.mp hMem)
          · rfl
      | @refused k hZero hFirst =>
          rw [Nat.zero_add] at hCarve
          exact .inr ⟨k, hZero, hFirst, hCarve⟩

/- Carving breaks off only at splits that cannot be added up. -/
theorem carve_eq_error_iff
    {f : Fault}
    (hBelow : start + heapSize < Word.limit) :
    (carve start heapSize ps).run = .error f ↔
      f = .addOverflow ∧ Excessive ps := by
  constructor
  · intro hFault
    by_cases hSum : Excessive ps
    · cases (carve_of_excessive start heapSize hSum).symm.trans
        hFault
      exact ⟨rfl, hSum⟩
    by_cases hComplete : Complete ps
    · rcases carve_of_complete hComplete hBelow with
        ⟨-, -, ⟨-, l, hMakes, -⟩ | ⟨k, -, -, hRun⟩⟩
      · cases hMakes.symm.trans hFault
      · cases hRun.symm.trans hFault
    · cases
        (carve_of_incomplete start heapSize hComplete hSum).symm.trans
          hFault
  · rintro ⟨rfl, hSum⟩
    exact carve_of_excessive start heapSize hSum

/-
  A heap that ends below the limit of words is split by any
  percentages, unless they are excessive: then, and only then,
  their sum breaks off.  They are refused if they leave a belt
  without a share or do not make up the whole heap.  If not, each
  belt but the last is due its percentage in whole pages and the
  last one is due what is left.  The belts come out like that,
  unless one of them is due nothing; the error names the first
  such belt.
-/
theorem carve_splits_heap
    {start heapSize : Nat}
    (ps : Percentages)
    (hBelow : start + heapSize < Word.limit) :
    (∀ f,
      (carve start heapSize ps).run = .error f ↔
        f = .addOverflow ∧ Excessive ps) ∧
      (¬ Excessive ps →
        ∃ answer,
          (carve start heapSize ps).run = .ok answer ∧
            (answer = .error (.invalidPercentages ps) ↔
              ¬ Complete ps) ∧
            (Complete ps →
              ∃ sizes,
                Splits heapSize heapSize ps sizes ∧
                  ((0 ∉ sizes ∧
                    ∃ l, answer = .ok l ∧
                      Laid start heapSize sizes l) ∨
                    ∃ k,
                      sizes[k]? = some 0 ∧ 0 ∉ sizes.take k ∧
                        answer =
                          .error (.beltTooSmall heapSize k)))) := by
  refine ⟨fun f => carve_eq_error_iff hBelow, fun hSum => ?_⟩
  by_cases hComplete : Complete ps
  case neg =>
    exact
      ⟨_, carve_of_incomplete start heapSize hComplete hSum,
        ⟨fun _ => hComplete, fun _ => rfl⟩,
        fun hAll => absurd hAll hComplete⟩
  case pos =>
    rcases carve_of_complete hComplete hBelow with
      ⟨sizes, hSplits,
        ⟨hSome, l, hMakes, hLaid⟩ | ⟨k, hZero, hFirst, hRun⟩⟩
    · exact
        ⟨.ok l, hMakes, ⟨nofun, fun hNot => absurd hComplete hNot⟩,
          fun _ => ⟨sizes, hSplits, .inl ⟨hSome, l, rfl, hLaid⟩⟩⟩
    · exact
        ⟨_, hRun, ⟨nofun, fun hNot => absurd hComplete hNot⟩,
          fun _ =>
            ⟨sizes, hSplits, .inr ⟨k, hZero, hFirst, rfl⟩⟩⟩

/- Three belts of a heap that is a byte longer than its pages. -/
theorem carve_splits_heap_uneven :
    ∃ l,
      Makes (carve 0x10000000 0x100001 [33, 33, 34]) l ∧
        Laid 0x10000000 0x100001 [344064, 344064, 360449] l := by
  have hComplete : Complete [33, 33, 34] :=
    isValid_iff.mp (by decide)
  have hSizes :
      Splits 0x100001 0x100001 [33, 33, 34]
        [344064, 344064, 360449] :=
    (splits_last 0x100001 360449 34).cons (p := 33) |>.cons
      (p := 33)
  rcases (@carve_splits_heap 0x10000000 0x100001 [33, 33, 34]
      (by decide)).2 hComplete.not_excessive with
    ⟨answer, hRun, -, hAnswer⟩
  rcases hAnswer hComplete with ⟨sizes, hSplits, hCases⟩
  cases hSplits.unique hSizes
  rcases hCases with
    ⟨-, l, rfl, hLaid⟩ | ⟨k, hZero, -, -⟩
  · exact ⟨l, hRun, hLaid⟩
  · exact absurd (List.mem_of_getElem? hZero) (by decide)

/-
  More than sixteen million percentages, each of them the largest
  that a byte can hold, do not add up to a hundred, but instead of
  being refused they break off.
-/
theorem many_percentages_break_off :
    (∀ p ∈ longSplit, p ≤ partLimit) ∧
      65536 + 65536 < Word.limit ∧
      ¬ Complete longSplit ∧
      (carve 65536 65536 longSplit).run = .error .addOverflow :=
  ⟨excessive_longSplit.1, by decide,
    fun hComplete =>
      hComplete.not_excessive excessive_longSplit.2,
    carve_of_excessive 65536 65536 excessive_longSplit.2⟩

------------------------------------------------------------
-- Whole Pages
------------------------------------------------------------

/-
  The belt is the last one, and all it gets are the bytes of the
  heap beyond its whole pages.  It has some, and its percentage
  of the heap is less than a page.
-/
structure Scrap
    (heapSize percent stop : Nat)
    (b : Belt) : Prop where
  last : b.stop = stop
  some : 0 < b.size
  size : b.size = heapSize % Word.pageBytes
  percent : heapSize * percent < 100 * Word.pageBytes

/- In a row all belts but the last one have whole pages. -/
theorem page_le_of_row
    {b : Belt}
    {bs : List Belt}
    (hRow : Belt.Row stop index start bs)
    (hMem : b ∈ bs) :
    Word.pageBytes ≤ b.size ∨
      b.stop = stop ∧ bs.getLast? = some b := by
  induction hRow with
  | last hStands hStop =>
      cases List.mem_singleton.mp hMem
      exact .inr ⟨hStop, rfl⟩
  | cons hStands hPages hRest ih =>
      rcases List.mem_cons.mp hMem with rfl | hMem
      · have hFilled := hStands.proper.filled
        left
        unfold Word.pageBytes at hPages ⊢
        unfold Belt.size
        omega
      · rcases ih hMem with hPage | ⟨hStop, hLast⟩
        · exact .inl hPage
        · refine .inr ⟨hStop, ?_⟩
          rw [List.getLast?_cons_cons]
          exact hLast

/-
  Each belt of a layout has a whole page exactly if the others
  leave one to the last belt.  If they do not, the last belt is
  the only one that lacks a page, and is such a scrap.
-/
structure Paged
    (heapSize : Nat)
    (ps : Percentages)
    (l : Layout) : Prop where
  all_iff :
    (∀ b ∈ l.belts, Word.pageBytes ≤ b.size) ↔
      taken heapSize ps + Word.pageBytes ≤ heapSize
  otherwise :
    ∀ b ∈ l.belts,
      Word.pageBytes ≤ b.size ∨
        Scrap heapSize (ps.getLastD 0) l.heap.stop b

/- Only complete splits make a layout. -/
theorem complete_of_carve
    (hMakes : Makes (carve start heapSize ps) l) :
    Complete ps := by
  by_contra hNot
  by_cases hSum : Excessive ps
  · cases hMakes.symm.trans
      (carve_of_excessive start heapSize hSum)
  · cases hMakes.symm.trans
      (carve_of_incomplete start heapSize hNot hSum)

/- The last belt that is carved is due what the others leave. -/
theorem last_of_carve
    {b : Belt}
    (hMakes : Makes (carve start heapSize ps) l)
    (hBelow : start + heapSize < Word.limit)
    (hLast : l.belts.toList.getLast? = some b) :
    taken heapSize ps + b.size = heapSize ∧
      heapSize * ps.getLastD 0 ≤ 100 * b.size := by
  have hComplete := complete_of_carve hMakes
  rcases carve_of_complete hComplete hBelow with
    ⟨sizes, hSplits, ⟨-, k, hOther, hLaid⟩ | ⟨k, -, -, hRun⟩⟩
  · cases hMakes.symm.trans hOther
    have hLastSize : sizes.getLast? = some b.size := by
      rw [← hLaid.sizes, List.getLast?_map, hLast]
      rfl
    have hRoom : heapSize * total ps ≤ 100 * heapSize := by
      rw [hComplete.whole, Nat.mul_comm]
    exact
      ⟨hSplits.taken_add hLastSize,
        hSplits.last_le hRoom hLastSize⟩
  · cases hMakes.symm.trans hRun

/- Every layout that is carved has its pages like that. -/
theorem paged_of_carve
    (hMakes : Makes (carve start heapSize ps) l) :
    Paged heapSize ps l := by
  rcases Arranged.of_carve hMakes with ⟨hArranged, hHeap, -⟩
  have hBelow := hArranged.below
  rw [hHeap] at hBelow
  have hPages {b : Belt} (hMem : b ∈ l.belts) :=
    page_le_of_row hArranged.row hMem.val
  constructor
  · constructor
    · intro hAll
      have hSome : l.belts.toList ≠ [] := by
        intro hNil
        have hRow := hArranged.row
        rw [hNil] at hRow
        cases hRow
      have hLast := List.getLast?_eq_some_getLast hSome
      have hMem := Array.mem_toList_iff.mp (List.getLast_mem hSome)
      generalize l.belts.toList.getLast hSome = b at hLast hMem
      have hRest := (last_of_carve hMakes hBelow hLast).1
      have hPage := hAll b hMem
      omega
    · intro hRoom b hMem
      rcases hPages hMem with hPage | ⟨-, hLast⟩
      · exact hPage
      · have hRest := (last_of_carve hMakes hBelow hLast).1
        omega
  · intro b hMem
    rcases hPages hMem with hPage | ⟨hStop, hLast⟩
    · exact .inl hPage
    by_cases hPage : Word.pageBytes ≤ b.size
    · exact .inl hPage
    rcases hArranged.mem hMem with ⟨hProper, hLow, -, hAligned⟩
    have hFilled := hProper.filled
    have hShare := (last_of_carve hMakes hBelow hLast).2
    have hRest : b.size = heapSize % Word.pageBytes := by
      rw [hHeap] at hLow hAligned hStop
      unfold Word.pageBytes at hAligned hPage ⊢
      unfold Belt.size at hPage ⊢
      dsimp only at hLow hAligned hStop
      omega
    exact
      .inr ⟨hStop, Nat.sub_pos_of_lt hFilled, hRest, by omega⟩

------------------------------------------------------------
-- New Heaps
------------------------------------------------------------

/- Belts in the same places, in the same order. -/
structure SameSpans
    (l l' : Layout) : Prop where
  heap : l'.heap = l.heap
  spans : l'.belts.map Belt.span = l.belts.map Belt.span

/- Each belt has a belt of the other layout in the same place. -/
theorem SameSpans.exists_mem
    {l' : Layout}
    {b : Belt}
    (hSame : SameSpans l l')
    (hMem : b ∈ l.belts) :
    ∃ c ∈ l'.belts, c.span = b.span := by
  have hSpan : b.span ∈ l'.belts.map Belt.span :=
    hSame.spans ▸ Array.mem_map_of_mem hMem
  exact Array.mem_map.mp hSpan

theorem SameSpans.symm
    {l' : Layout}
    (hSame : SameSpans l l') :
    SameSpans l' l :=
  ⟨hSame.heap.symm, hSame.spans.symm⟩

theorem Paged.congr
    {l' : Layout}
    (hPaged : Paged heapSize ps l)
    (hSame : SameSpans l l') :
    Paged heapSize ps l' := by
  constructor
  · rw [← hPaged.all_iff]
    constructor
    · intro hAll b hMem
      rcases hSame.exists_mem hMem with ⟨c, hOther, hSpan⟩
      rw [← Belt.size_of_span hSpan]
      exact hAll c hOther
    · intro hAll b hMem
      rcases hSame.symm.exists_mem hMem with
        ⟨c, hOther, hSpan⟩
      rw [← Belt.size_of_span hSpan]
      exact hAll c hOther
  · intro b hMem
    rcases hSame.symm.exists_mem hMem with ⟨c, hOther, hSpan⟩
    have hStop : c.stop = b.stop := congrArg Span.stop hSpan
    rw [hSame.heap, ← Belt.size_of_span hSpan]
    refine (hPaged.otherwise c hOther).imp_right fun hScrap => ?_
    have hSize := Belt.size_of_span hSpan
    exact
      ⟨hStop ▸ hScrap.last, hSize ▸ hScrap.some,
        hSize ▸ hScrap.size, hScrap.percent⟩

/- Whether a belt may grow does not move it. -/
theorem sameSpans_setExpandable
    {l' : Layout}
    {expandable : Bool}
    (hArranged : Arranged l)
    (hSet : Heap.setExpandable l expandable = .ok l') :
    SameSpans l l' := by
  rcases bind_eq_ok hSet with ⟨mature, hMature, hSet⟩
  cases hSet
  refine ⟨rfl, Array.ext_getElem? fun k => ?_⟩
  have hAt := hArranged.getElem?_index (mem_of_belt hMature)
  unfold setBelt
  rw [Array.getElem?_map, Array.getElem?_map,
    Array.getElem?_setIfInBounds]
  by_cases hIndex : mature.index = k
  · have hLt := (Array.getElem?_eq_some_iff.mp hAt).1
    rw [if_pos hIndex, ← hIndex, if_pos hLt, hAt]
    rfl
  · rw [if_neg hIndex]

/- A new heap has the belts that were carved for it. -/
theorem exists_carved_of_layOut
    {placement : Placement}
    {registers : Nat}
    {config : HeapConfig}
    {h : Heap}
    (hMakes : Makes (Heap.layOut placement registers config) h) :
    ∃ l,
      Makes
        (carve placement.heap config.maxHeapSize
          config.beltPercentages) l ∧
        SameSpans l h.layout := by
  rcases Heap.parts_of_layOut hMakes with
    ⟨mapping, first, layout, cards, table, roots, -, hReserve,
      hCarve, hLayout, -, -, -, rfl⟩
  rw [(Heap.reserved hReserve).1] at hCarve
  exact
    ⟨first, hCarve,
      sameSpans_setExpandable (Arranged.of_carve hCarve).1
        hLayout⟩

theorem layout_of_create
    {placement : Placement}
    {registers : Nat}
    {config : HeapConfig}
    {h : Heap}
    (hMakes : Makes (Heap.create placement registers config) h) :
    ∃ new,
      Makes (Heap.layOut placement registers config) new ∧
        h.layout = new.layout := by
  unfold Heap.create at hMakes
  rcases makes_bind hMakes with ⟨new, hLayOut, hMakes⟩
  have hLeaves :
      HeapM.Leaves (· = new) HeapM.publishRegions
        (·.layout = new.layout) :=
    HeapM.leaves_publishRegions fun g _ hNew =>
      show g.layout = new.layout from congrArg Heap.layout hNew
  generalize hRun :
    HeapM.publishRegions.run.run
      ({ state := { heap := new } } : Logged HeapRun) = ran
    at hMakes
  rcases ran with ⟨f | a, after⟩
  · cases hMakes
  · cases makes_pure hMakes
    exact ⟨new, hLayOut, hLeaves _ a after rfl hRun⟩

/-
  Each belt of a new layout has a whole page exactly if the
  others leave one to the last belt, and so it is in every new
  heap.  If they do not, only the last belt lacks a page: it gets
  the bytes beyond the whole pages of the heap, of which it is
  due less than a page.
-/
theorem new_belts_have_pages
    (heapSize : Nat)
    (ps : Percentages) :
    (∀ start l,
      Makes (carve start heapSize ps) l →
        Paged heapSize ps l) ∧
    ∀ placement registers config h,
      config.maxHeapSize = heapSize →
        config.beltPercentages = ps →
          Makes (Heap.create placement registers config) h →
            Paged heapSize ps h.layout := by
  refine ⟨fun start l hMakes => paged_of_carve hMakes, ?_⟩
  rintro placement registers config h rfl rfl hMakes
  rcases layout_of_create hMakes with ⟨new, hLayOut, hLayout⟩
  rw [hLayout]
  rcases exists_carved_of_layOut hLayOut with
    ⟨l, hCarve, hSame⟩
  exact (paged_of_carve hCarve).congr hSame

/- The smallest heap is made of pages, and so are its belts. -/
theorem new_belts_have_pages_small :
    Makes (Heap.create Program.smallPlace 1 Program.smallConfig)
      Program.smallHeap ∧
      ∀ b ∈ Program.smallHeap.layout.belts,
        Word.pageBytes ≤ b.size := by
  have hPaged :=
    (new_belts_have_pages _ _).2 _ _ _ _ rfl rfl
      Program.makes_small
  exact ⟨Program.makes_small, hPaged.all_iff.mpr (by decide)⟩

/- The settings of a heap with 16 pages and 664 bytes. -/
def raggedConfig : HeapConfig where
  maxHeapSize := 66200
  beltPercentages := [99, 1]
  rootCapacity := 1

/- A new heap of such a size. -/
def raggedHeap : Heap :=
  match
    (Heap.create Program.smallPlace 1 raggedConfig).run
  with
  | .ok (.ok h) => h
  | _ => default

/- The layout in which all pages go to the first belt. -/
def raggedLayout (expandable : Bool) : Layout where
  belts :=
    #[emptyBelt 0 65536 131072 false,
      emptyBelt 1 131072 131736 expandable]
  roles := #[0, 1]
  heap := ⟨65536, 131736⟩

/-
  The second belt may lack a page, in a layout as well as in a
  new heap.
-/
theorem last_belt_may_lack_page :
    (∃ l,
      Makes (carve 65536 66200 [99, 1]) l ∧
        ∃ b ∈ l.belts, b.size < Word.pageBytes) ∧
      raggedConfig.validate = .ok () ∧
      ∃ h,
        Makes (Heap.create Program.smallPlace 1 raggedConfig) h ∧
          ∃ b ∈ h.layout.belts, b.size < Word.pageBytes := by
  have hLacks (expandable : Bool) :
      ∃ b ∈ (raggedLayout expandable).belts,
        b.size < Word.pageBytes :=
    ⟨emptyBelt 1 131072 131736 expandable,
      by simp [raggedLayout],
      show 131736 - 131072 < 4096 by decide⟩
  have hCarve :
      Makes (carve 65536 66200 [99, 1]) (raggedLayout false) := by
    unfold Makes
    decide +kernel
  have hCreate :
      Makes (Heap.create Program.smallPlace 1 raggedConfig)
        raggedHeap :=
    Program.makes_created (by decide +kernel)
  have hLayout : raggedHeap.layout = raggedLayout true := by
    decide +kernel
  refine
    ⟨⟨_, hCarve, hLacks false⟩, by decide, _, hCreate, ?_⟩
  rw [hLayout]
  exact hLacks true

end Layout

end BeltHeap
