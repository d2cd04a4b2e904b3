import BeltHeap.Proofs.Creating
import BeltHeap.Proofs.Expanding
import BeltHeap.Proofs.Rows

/-
  Layouts of any number of belts, and what becomes of them when
  roles are swapped, belts grow, and belts are filled or emptied
  in any order: the belts go on to tile the whole heap, each of
  them in one role.

  Main declarations:
    * `Layout.Arranged`, `Layout.Arranged.of_carve`
    * `Layout.Operation`, `Layout.performAll`
    * `Layout.Changes`, `Layout.Arranged.changes`
    * `Layout.Arranged.perform_spec`
    * `Layout.TilesHeap`
    * `Layout.operations_keep_tiling`
-/

------------------------------------------------------------
-- New Layouts
------------------------------------------------------------

namespace BeltHeap

namespace Layout

/-
  The belts of a layout are a row over its whole heap, and each
  of them plays one role.
-/
structure Arranged (l : Layout) : Prop where
  row : Belt.Row l.heap.stop 0 l.heap.start l.belts.toList
  roles : l.roles.Perm (Array.range l.belts.size)
  below : l.heap.stop < Word.limit

variable {l k : Layout}
variable {b c : Belt}
variable {a index r bytes : Nat}

/- An empty belt with some bytes stands in its place. -/
theorem stands_emptyBelt
    {start size : Nat}
    (hSome : size ≠ 0) :
    (emptyBelt index start (start + size) false).Stands index
      start :=
  ⟨rfl, rfl,
    ⟨Nat.le_refl _, Nat.le_add_right _ _,
      Nat.lt_add_of_pos_right (Nat.pos_of_ne_zero hSome)⟩⟩

/- Percentages make a row of belts. -/
theorem row_of_carveFrom
    {heapSize stop start p : Nat}
    {ps : Percentages}
    {belts : List Belt}
    (hMakes :
      Makes (carveFrom heapSize stop index start (p :: ps))
        belts) :
    Belt.Row stop index start belts ∧
      belts.length = (p :: ps).length := by
  induction ps generalizing p index start belts with
  | nil =>
      rcases makes_carveFrom_cons hMakes with
        ⟨size, rest, hSome, rfl, hRest, hStop, -⟩
      cases makes_pure hRest
      exact ⟨.last (stands_emptyBelt hSome) (hStop rfl), rfl⟩
  | cons q ps ih =>
      rcases makes_carveFrom_cons hMakes with
        ⟨size, rest, hSome, rfl, hRest, -, hPages⟩
      rcases ih hRest with ⟨hBehind, hLength⟩
      cases rest with
      | nil => cases hBehind
      | cons c rest =>
          refine
            ⟨.cons (stands_emptyBelt hSome) ?_ hBehind,
              congrArg (· + 1) hLength⟩
          unfold emptyBelt
          rw [Nat.add_sub_cancel_left]
          exact hPages nofun

/- New layouts are arranged. -/
theorem Arranged.of_carve
    {start heapSize : Nat}
    {percentages : Percentages}
    (hMakes : Makes (carve start heapSize percentages) l) :
    Arranged l ∧ l.heap = ⟨start, start + heapSize⟩ ∧
      l.belts.size = percentages.length := by
  unfold carve at hMakes
  rcases makes_bind hMakes with ⟨valid, hCheck, hMakes⟩
  split at hMakes
  · exact absurd hMakes not_makes_throw
  rename_i hValid
  rcases makes_bind hMakes with ⟨stop, hStop, hMakes⟩
  rcases Word.eq_of_add (makes_lift hStop) with ⟨rfl, hLimit⟩
  rcases makes_bind hMakes with ⟨belts, hBelts, hMakes⟩
  cases makes_pure hMakes
  cases percentages with
  | nil =>
      cases makes_lift hCheck
      exact absurd rfl hValid
  | cons p ps =>
      rcases row_of_carveFrom hBelts with ⟨hRow, hLength⟩
      exact ⟨⟨hRow, .refl _, hLimit⟩, rfl, hLength⟩

namespace Arranged

theorem index_eq
    (hArranged : Arranged l)
    (hBelt : l.belts[index]? = some b) :
    b.index = index := by
  rw [← Array.getElem?_toList] at hBelt
  rw [hArranged.row.index_eq hBelt, Nat.zero_add]

/- Every belt is found under its index. -/
theorem getElem?_index
    (hArranged : Arranged l)
    (hBelt : b ∈ l.belts) :
    l.belts[b.index]? = some b := by
  rcases Array.getElem?_of_mem hBelt with ⟨i, hi⟩
  rw [hArranged.index_eq hi]
  exact hi

/- What a belt of an arranged layout is like. -/
theorem mem
    (hArranged : Arranged l)
    (hBelt : b ∈ l.belts) :
    b.Proper ∧ l.heap.start ≤ b.start ∧
      b.stop ≤ l.heap.stop ∧
      (b.start - l.heap.start) % Word.pageBytes = 0 :=
  hArranged.row.mem hBelt.val

theorem belt_eq
    (hArranged : Arranged l)
    (hRole : r < l.roles.size) :
    ∃ b ∈ l.belts, l.roles[r] = b.index ∧ l.belt r = .ok b := by
  have hMem : l.roles[r] ∈ Array.range l.belts.size :=
    hArranged.roles.mem_iff.mp (Array.getElem_mem hRole)
  have hLt := Array.mem_range.mp hMem
  refine ⟨l.belts[l.roles[r]], Array.getElem_mem hLt, ?_, ?_⟩
  · exact
      (hArranged.index_eq (Array.getElem?_eq_getElem hLt)).symm
  · unfold belt indexOf beltAt
    rw [dif_pos hRole]
    exact dif_pos hLt

/- Every belt plays a role, in which it is found. -/
theorem roleOf_eq
    (hArranged : Arranged l)
    (hBelt : b ∈ l.belts) :
    ∃ r, l.roleOf b = .ok r ∧ l.belt r = .ok b := by
  have hAt := hArranged.getElem?_index hBelt
  have hPlays : b.index ∈ l.roles := by
    rw [hArranged.roles.mem_iff, Array.mem_range]
    exact (Array.getElem?_eq_some_iff.mp hAt).1
  cases hRole : l.roles.idxOf? b.index with
  | none =>
      exact absurd hPlays (Array.idxOf?_eq_none_iff.mp hRole)
  | some r =>
      have hPlace := hRole
      rw [Array.idxOf?_eq_map_finIdxOf?_val,
        Option.map_eq_some_iff] at hPlace
      rcases hPlace with ⟨place, hFirst, rfl⟩
      rw [Array.finIdxOf?_eq_some_iff] at hFirst
      rcases hArranged.belt_eq place.isLt with
        ⟨c, hMem, hPlayed, hFound⟩
      have hSame : c = b := by
        have hOther := hArranged.getElem?_index hMem
        rw [← hPlayed, ← Fin.getElem_fin, hFirst.1, hAt]
          at hOther
        exact (Option.some.inj hOther).symm
      rw [hSame] at hFound
      refine ⟨place, ?_, hFound⟩
      unfold roleOf
      rw [hRole]

/- The belt that contains an address is the only one. -/
theorem containing
    (hArranged : Arranged l)
    (hIn : l.contains a = true) :
    ∃ b ∈ l.belts, l.beltContaining? a = some b ∧
      ∀ c ∈ l.belts, c.contains a = true ↔ c = b := by
  have hRow := hArranged.row
  rcases Span.contains_iff.mp hIn with ⟨hLow, hHigh⟩
  rcases hRow.exists_contains hLow hHigh with
    ⟨b, hBelt, hContains⟩
  have hOnly :
      ∀ c ∈ l.belts, c.contains a = true ↔ c = b := by
    intro c hOther
    constructor
    · intro hAlso
      exact
        hRow.eq_of_contains hOther.val hBelt hAlso hContains
    · rintro rfl
      exact hContains
  refine ⟨b, ⟨hBelt⟩, ?_, hOnly⟩
  unfold beltContaining?
  cases hFind : l.belts.find? fun c => c.contains a with
  | none =>
      rw [Array.find?_eq_none] at hFind
      exact absurd hContains (hFind b ⟨hBelt⟩)
  | some c =>
      have hAlso : c.contains a = true :=
        Array.find?_some
          (p := fun b : Belt => b.contains a) hFind
      have hMem := Array.mem_of_find?_eq_some hFind
      rw [(hOnly c hMem).mp hAlso]

end Arranged

------------------------------------------------------------
-- Operations
------------------------------------------------------------

/- What is done to the belts of a layout. -/
inductive Operation where
| swap (a b : Nat)
| expand (role bytes : Nat)
| setExpandable (index : Nat) (expandable : Bool)
| allocate (index size : Nat)
| gcAllocate (index size : Nat)
| setMark (index mark : Nat)
| reset (index : Nat)

/- The layout after an allocation, which may not have fitted. -/
def afterAllocation
    (l : Layout) :
    Option (Nat × Belt) → Layout
| some (_, b) => l.setBelt b
| none => l

/- The layout after an expansion, which may not have been made. -/
def afterExpansion
    (l : Layout) :
    Except ExpansionError Layout → Layout
| .ok k => k
| .error _ => l

/-
  Perform an operation, which may clear memory.  A collector
  allocates as a mutator does, but does not report that a
  request does not fit.
-/
def Operation.perform
    (l : Layout) :
    Operation → Activity Fault Memory Layout
| .swap a b => l.swap a b
| .expand role bytes => do
    return l.afterExpansion (← l.expand role bytes)
| .setExpandable index expandable => do
    let b ← l.beltAt index
    pure (l.setBelt { b with expandable })
| .allocate index size => do
    let b ← l.beltAt index
    return l.afterAllocation (← b.allocate size)
| .gcAllocate index size => do
    let b ← l.beltAt index
    return l.afterAllocation (← b.bump size)
| .setMark index mark => do
    let b ← l.beltAt index
    return l.setBelt (← b.setMark mark)
| .reset index => do
    let b ← l.beltAt index
    Activity.change fun m => (b.reset m).2
    pure (l.setBelt b.emptied)

/- Perform operations one after the other. -/
def performAll
    (operations : List Operation)
    (l : Layout) : Activity Fault Memory Layout :=
  operations.foldlM Operation.perform l

/-
  When an operation is not at fault: its roles and belts exist,
  the sum of a mark and a size is a word, and a new mark lies in
  its belt.
-/
def Operation.Suits
    (l : Layout) : Operation → Prop
| .swap a b => a < l.roles.size ∧ b < l.roles.size
| .expand role _ => role < l.roles.size
| .setExpandable index _ => index < l.belts.size
| .allocate index size =>
    ∃ b, l.belts[index]? = some b ∧ b.mark + size < Word.limit
| .gcAllocate index size =>
    ∃ b, l.belts[index]? = some b ∧ b.mark + size < Word.limit
| .setMark index mark =>
    ∃ b, l.belts[index]? = some b ∧
      b.start ≤ mark ∧ mark ≤ b.stop
| .reset index => index < l.belts.size

/- What an operation may come to. -/
inductive Changes (l : Layout) : Layout → Prop where
| kept : Changes l l
| swapped
    {a b : Nat}
    (ha : a < l.roles.size)
    (hb : b < l.roles.size) :
    Changes l { l with roles := l.roles.swap a b }
| replaced
    {b c : Belt}
    (hBelt : l.belts[b.index]? = some b)
    (hIndex : c.index = b.index)
    (hSpan : c.span = b.span)
    (hProper : c.Proper) :
    Changes l (l.setBelt c)
| moved
    {b c : Belt}
    {bytes : Nat}
    (hBelt : l.belts[b.index]? = some b)
    (hNext : l.belts[b.index + 1]? = some c)
    (hPages : bytes % Word.pageBytes = 0)
    (hRoom : c.start + bytes + Word.pageBytes ≤ c.stop) :
    Changes l
      ((l.setBelt (grownMature b bytes)).setBelt
        (shrunkNursery c (b.stop + bytes)))

------------------------------------------------------------
-- What Operations Come To
------------------------------------------------------------

namespace Arranged

/- Layouts stay arranged, whatever an operation has come to. -/
theorem changes
    (hArranged : Arranged l)
    (hChanges : Changes l k) :
    Arranged k := by
  cases hChanges with
  | kept => exact hArranged
  | @swapped a b ha hb =>
      exact
        ⟨hArranged.row,
          (Array.swap_perm ha hb).trans hArranged.roles,
          hArranged.below⟩
  | @replaced b c hBelt hIndex hSpan hProper =>
      rw [← Array.getElem?_toList] at hBelt
      have hRow :=
        hArranged.row.set hBelt hIndex hSpan hProper
      rw [← Array.toList_setIfInBounds, ← hIndex] at hRow
      refine ⟨hRow, ?_, hArranged.below⟩
      unfold setBelt
      rw [Array.size_setIfInBounds]
      exact hArranged.roles
  | @moved b c bytes hBelt hNext hPages hRoom =>
      have hIndex := hArranged.index_eq hNext
      have hBelow :=
        (hArranged.mem (Array.mem_of_getElem? hBelt)).1
      have hLow := hBelow.low
      have hHigh := hBelow.high
      have hFilled := hBelow.filled
      rw [← Array.getElem?_toList] at hBelt hNext
      have hMeet := hArranged.row.next hBelt hNext
      unfold Word.pageBytes at hRoom
      have hFirst :
          (grownMature b bytes).Stands b.index b.start :=
        ⟨rfl, rfl,
          ⟨hLow, Nat.le_add_right_of_le hHigh,
            Nat.lt_add_right _ hFilled⟩⟩
      have hSecond :
          (shrunkNursery c (b.stop + bytes)).Stands c.index
            (b.stop + bytes) := by
        refine ⟨rfl, rfl, ⟨Nat.le_refl _, ?_, ?_⟩⟩
        · change b.stop + bytes ≤ c.stop
          omega
        · change b.stop + bytes < c.stop
          omega
      have hRow :=
        hArranged.row.move hBelt hNext hFirst hSecond rfl
          (Nat.le_add_right _ _)
          (by
            change (b.stop + bytes - b.stop) % _ = 0
            rw [Nat.add_sub_cancel_left]
            exact hPages)
      rw [← hIndex, ← Array.toList_setIfInBounds,
        ← Array.toList_setIfInBounds] at hRow
      refine ⟨hRow, ?_, hArranged.below⟩
      unfold setBelt
      rw [Array.size_setIfInBounds, Array.size_setIfInBounds]
      exact hArranged.roles

end Arranged

variable {α : Type}
variable {suits other : Prop}
variable {after : α → Layout}
variable {s : Logged Memory}

/-
  Work comes to a result after which one of the changes is made,
  where it is suitable, and else it is at fault.
-/
def Settles
    (l : Layout)
    (suits : Prop)
    (after : α → Layout)
    (outcome : Except Fault α × Logged Memory) : Prop :=
  (suits ∧
      ∃ r t, outcome = (.ok r, t) ∧ Changes l (after r)) ∨
    (¬ suits ∧ ∃ f t, outcome = (.error f, t))

theorem Settles.congr
    {outcome : Except Fault α × Logged Memory}
    (hSettles : Settles l suits after outcome)
    (hSame : suits ↔ other) :
    Settles l other after outcome := by
  unfold Settles at hSettles ⊢
  rwa [hSame] at hSettles

/- The layout may be returned instead of the result. -/
theorem Settles.returned
    {work : Activity Fault Memory α}
    (hSettles : Settles l suits after (work s)) :
    Settles l suits id
      ((do return after (← work) :
          Activity Fault Memory Layout) s) := by
  rcases hSettles with
    ⟨hSuits, r, t, hRun, hChanges⟩ | ⟨hNot, f, t, hRun⟩
  · refine Or.inl ⟨hSuits, after r, t, ?_, hChanges⟩
    rw [Activity.run_bind, hRun]
    rfl
  · refine Or.inr ⟨hNot, f, t, ?_⟩
    rw [Activity.run_bind, hRun]

/- Work on a belt is suitable where the belt exists. -/
theorem settles_beltAt
    {suits : Belt → Prop}
    {next : Belt → Activity Fault Memory Layout}
    (hNext :
      ∀ b, l.belts[index]? = some b →
        Settles l (suits b) id (next b s)) :
    Settles l (∃ b, l.belts[index]? = some b ∧ suits b) id
      ((do
        let b ← l.beltAt index
        next b :
          Activity Fault Memory Layout) s) := by
  by_cases hIndex : index < l.belts.size
  · have hBelt := Array.getElem?_eq_getElem hIndex
    have hAt : l.beltAt index = .ok l.belts[index] :=
      dif_pos hIndex
    rw [hAt]
    refine (hNext _ hBelt).congr ?_
    rw [hBelt]
    constructor
    · exact fun hSuits => ⟨_, rfl, hSuits⟩
    · rintro ⟨b, hSame, hSuits⟩
      cases hSame
      exact hSuits
  · have hNone : l.belts[index]? = none :=
      Array.getElem?_eq_none (Nat.le_of_not_lt hIndex)
    have hAt :
        l.beltAt index =
          .error (.indexOutOfBounds l.belts.size index) :=
      dif_neg hIndex
    rw [hAt, hNone]
    exact Or.inr ⟨nofun, _, _, rfl⟩

/- Swapping roles. -/
theorem settles_swap
    (a b : Nat)
    (s : Logged Memory) :
    Settles l (a < l.roles.size ∧ b < l.roles.size) id
      (l.swap a b s) := by
  have hIndex :
      ∀ r (hRole : r < l.roles.size),
        l.indexOf r = .ok l.roles[r] :=
    fun _ hRole => dif_pos hRole
  have hFault :
      ∀ r, ¬ r < l.roles.size →
        l.indexOf r =
          .error (.indexOutOfBounds l.roles.size r) :=
    fun _ hRole => dif_neg hRole
  unfold swap
  by_cases ha : a < l.roles.size
  · by_cases hb : b < l.roles.size
    · have hSwapped :
          l.swapped a b =
            .ok { l with roles := l.roles.swap a b } := by
        unfold swapped
        rw [hIndex a ha, hIndex b hb]
        simp only [Array.setIfInBounds, ha, hb, dif_pos,
          Array.size_set]
        rfl
      rw [hIndex a ha, hIndex b hb, hSwapped]
      exact Or.inl ⟨⟨ha, hb⟩, _, _, rfl, .swapped ha hb⟩
    · rw [hIndex a ha, hFault b hb]
      exact Or.inr ⟨fun hBoth => hb hBoth.2, _, _, rfl⟩
  · rw [hFault a ha]
    exact Or.inr ⟨fun hBoth => ha hBoth.1, _, _, rfl⟩

/- Growing a belt. -/
theorem Arranged.settles_expand
    (hArranged : Arranged l)
    (role bytes : Nat)
    (s : Logged Memory) :
    Settles l (role < l.roles.size) l.afterExpansion
      (l.expand role bytes s) := by
  unfold expand
  by_cases hRole : role < l.roles.size
  · left
    refine ⟨hRole, ?_⟩
    rcases hArranged.belt_eq hRole with ⟨b, hMem, -, hBelt⟩
    have hAt := hArranged.getElem?_index hMem
    rcases hArranged.mem hMem with ⟨hProper, -, -, -⟩
    rcases grown_cases bytes hBelt with
      ⟨e, hRun⟩ |
        ⟨c, hNext, hEmpty, hPositive, hPages, hRoom, hRun⟩
    · rw [hRun]
      exact ⟨_, _, rfl, .kept⟩
    · have hAbove := hArranged.mem (Array.mem_of_getElem? hNext)
      have hBelow := hArranged.below
      have hMeet : b.stop = c.start := by
        have hFirst := hAt
        have hSecond := hNext
        rw [← Array.getElem?_toList] at hFirst hSecond
        exact (hArranged.row.next hFirst hSecond).symm
      rcases moved_bounds hMeet ⟨hProper.low, hProper.high⟩
          hEmpty hPositive (by omega) (by omega) with
        ⟨hAdd, hGrown, hShrunk⟩
      rw [hAdd] at hRun
      simp only [bind, Except.bind, hGrown, hShrunk] at hRun
      rw [hRun]
      exact ⟨_, _, rfl, .moved hAt hNext hPages hRoom⟩
  · have hFault :
        l.indexOf role =
          .error (.indexOutOfBounds l.roles.size role) :=
      dif_neg hRole
    unfold grown belt
    rw [hFault]
    exact Or.inr ⟨hRole, _, _, rfl⟩

/- Bumping a mark. -/
theorem settles_bump
    (hBelt : l.belts[b.index]? = some b)
    (hProper : b.Proper)
    (size : Nat)
    (s : Logged Memory) :
    Settles l (b.mark + size < Word.limit) l.afterAllocation
      ((liftM (b.bump size) :
          Activity Fault Memory _) s) := by
  unfold Belt.bump Word.add
  by_cases hWord : b.mark + size < Word.limit
  · left
    refine ⟨hWord, ?_⟩
    rw [if_pos hWord]
    by_cases hFits : b.mark + size ≤ b.stop
    · simp only [bind, Except.bind, if_pos hFits]
      exact
        ⟨_, _, rfl,
          .replaced hBelt rfl rfl
            ⟨Nat.le_add_right_of_le hProper.low, hFits,
              hProper.filled⟩⟩
    · simp only [bind, Except.bind, if_neg hFits]
      exact ⟨_, _, rfl, .kept⟩
  · rw [if_neg hWord]
    exact Or.inr ⟨hWord, _, _, rfl⟩

/- A mutator also reports what does not fit. -/
theorem Settles.allocate
    {size : Nat}
    (hSettles :
      Settles l suits l.afterAllocation
        ((liftM (b.bump size) :
            Activity Fault Memory _) s)) :
    Settles l suits l.afterAllocation (b.allocate size s) := by
  unfold Belt.allocate
  rcases hSettles with
    ⟨hSuits, r, t, hRun, hChanges⟩ | ⟨hNot, f, t, hRun⟩
  · rw [Activity.run_bind, hRun]
    cases r with
    | none => exact Or.inl ⟨hSuits, _, _, rfl, hChanges⟩
    | some r => exact Or.inl ⟨hSuits, _, _, rfl, hChanges⟩
  · rw [Activity.run_bind, hRun]
    exact Or.inr ⟨hNot, _, _, rfl⟩

/- Setting a mark. -/
theorem settles_setMark
    (hBelt : l.belts[b.index]? = some b)
    (hProper : b.Proper)
    (mark : Nat)
    (s : Logged Memory) :
    Settles l (b.start ≤ mark ∧ mark ≤ b.stop) l.setBelt
      ((liftM (b.setMark mark) :
          Activity Fault Memory _) s) := by
  unfold Belt.setMark
  by_cases hIn : b.start ≤ mark ∧ mark ≤ b.stop
  · rw [if_pos hIn]
    exact
      Or.inl
        ⟨hIn, _, _, rfl,
          .replaced hBelt rfl rfl
            ⟨hIn.1, hIn.2, hProper.filled⟩⟩
  · rw [if_neg hIn]
    exact Or.inr ⟨hIn, _, _, rfl⟩

/- An operation does what suits the layout, or is at fault. -/
theorem Arranged.perform_spec
    (hArranged : Arranged l)
    (operation : Operation)
    (s : Logged Memory) :
    Settles l (operation.Suits l) id
      (operation.perform l s) := by
  have hExists (index : Nat) :
      (∃ b, l.belts[index]? = some b ∧ True) ↔
        index < l.belts.size :=
    ⟨fun ⟨_, hBelt, _⟩ =>
        (Array.getElem?_eq_some_iff.mp hBelt).1,
      fun hLt => ⟨_, Array.getElem?_eq_getElem hLt, trivial⟩⟩
  have hFound :
      ∀ {index : Nat} {b : Belt}, l.belts[index]? = some b →
        l.belts[b.index]? = some b ∧ b.Proper := by
    intro index b hBelt
    have hMem := Array.mem_of_getElem? hBelt
    exact
      ⟨hArranged.getElem?_index hMem, (hArranged.mem hMem).1⟩
  cases operation with
  | swap a b => exact settles_swap a b s
  | expand role bytes =>
      exact (hArranged.settles_expand role bytes s).returned
  | setExpandable index expandable =>
      refine
        (settles_beltAt fun b hBelt => ?_).congr (hExists index)
      rcases hFound hBelt with ⟨hAt, hProper⟩
      exact
        Or.inl
          ⟨trivial, _, _, rfl,
            .replaced hAt rfl rfl
              ⟨hProper.low, hProper.high, hProper.filled⟩⟩
  | allocate index size =>
      refine settles_beltAt fun b hBelt => ?_
      rcases hFound hBelt with ⟨hAt, hProper⟩
      exact (settles_bump hAt hProper size s).allocate.returned
  | gcAllocate index size =>
      refine settles_beltAt fun b hBelt => ?_
      rcases hFound hBelt with ⟨hAt, hProper⟩
      exact (settles_bump hAt hProper size s).returned
  | setMark index mark =>
      refine settles_beltAt fun b hBelt => ?_
      rcases hFound hBelt with ⟨hAt, hProper⟩
      exact (settles_setMark hAt hProper mark s).returned
  | reset index =>
      refine
        (settles_beltAt fun b hBelt => ?_).congr (hExists index)
      rcases hFound hBelt with ⟨hAt, hProper⟩
      exact
        Or.inl
          ⟨trivial, _, _, rfl,
            .replaced hAt rfl rfl
              ⟨Nat.le_refl _, Nat.le_of_lt hProper.filled,
                hProper.filled⟩⟩

------------------------------------------------------------
-- Sequences of Operations
------------------------------------------------------------

/- No operation changes the heap or the number of belts. -/
theorem Changes.same
    (hChanges : Changes l k) :
    k.heap = l.heap ∧ k.belts.size = l.belts.size := by
  cases hChanges with
  | kept => exact ⟨rfl, rfl⟩
  | swapped _ _ => exact ⟨rfl, rfl⟩
  | replaced _ _ _ _ => exact ⟨rfl, Array.size_setIfInBounds⟩
  | moved _ _ _ _ =>
      exact
        ⟨rfl,
          Array.size_setIfInBounds.trans
            Array.size_setIfInBounds⟩

/- A sequence of operations leaves a layout arranged. -/
theorem Arranged.performAll
    {operations : List Operation}
    {t : Logged Memory}
    (hArranged : Arranged l)
    (hRun : performAll operations l s = (.ok k, t)) :
    Arranged k ∧ k.heap = l.heap ∧
      k.belts.size = l.belts.size := by
  unfold Layout.performAll at hRun
  induction operations generalizing l s with
  | nil =>
      cases hRun
      exact ⟨hArranged, rfl, rfl⟩
  | cons operation operations ih =>
      rw [List.foldlM_cons, Activity.run_bind] at hRun
      rcases hArranged.perform_spec operation s with
        ⟨-, m, u, hFirst, hChanges⟩ | ⟨-, f, u, hFirst⟩
      · rw [hFirst] at hRun
        rcases ih (hArranged.changes hChanges) hRun with
          ⟨hAfter, hHeap, hSize⟩
        exact
          ⟨hAfter, hHeap.trans hChanges.same.1,
            hSize.trans hChanges.same.2⟩
      · rw [hFirst] at hRun
        cases hRun

/-
  What a layout is like at any time: its belts lie one right
  after the other over the whole heap, with their marks in their
  bounds and all inner boundaries on whole pages.  Each belt is
  found in the role that it plays, and each address of the heap
  in the only belt that contains it.  An operation on roles and
  belts that exist is at fault only for a mark that is no word
  or out of bounds.
-/
structure TilesHeap (l : Layout) : Prop where
  row : Belt.Row l.heap.stop 0 l.heap.start l.belts.toList
  belts :
    ∀ b ∈ l.belts,
      b.Proper ∧
        (b.start - l.heap.start) % Word.pageBytes = 0
  roles : l.roles.Perm (Array.range l.belts.size)
  roleOf :
    ∀ b ∈ l.belts, ∃ r, l.roleOf b = .ok r ∧ l.belt r = .ok b
  contained :
    ∀ a, l.contains a = true →
      ∃ b ∈ l.belts, l.beltContaining? a = some b ∧
        ∀ c ∈ l.belts, c.contains a = true ↔ c = b
  performs :
    ∀ (operation : Operation) (s : Logged Memory),
      operation.Suits l ↔
        ∃ k t, operation.perform l s = (.ok k, t)

/- Arranged layouts are like that. -/
theorem Arranged.tilesHeap
    (hArranged : Arranged l) :
    TilesHeap l where
  row := hArranged.row
  belts := fun _ hBelt =>
    ⟨(hArranged.mem hBelt).1, (hArranged.mem hBelt).2.2.2⟩
  roles := hArranged.roles
  roleOf := fun _ hBelt => hArranged.roleOf_eq hBelt
  contained := fun _ hIn => hArranged.containing hIn
  performs := by
    intro operation s
    rcases hArranged.perform_spec operation s with
      ⟨hSuits, m, v, hPerform, -⟩ | ⟨hNot, f, v, hPerform⟩
    · exact ⟨fun _ => ⟨m, v, hPerform⟩, fun _ => hSuits⟩
    · refine ⟨fun hSuits => absurd hSuits hNot, ?_⟩
      rintro ⟨m, w, hOther⟩
      rw [hPerform] at hOther
      cases hOther

/-
  Whatever is done to a new layout with any number of belts, as
  long as nothing is at fault, its belts tile the same heap.
-/
theorem operations_keep_tiling
    {start heapSize : Nat}
    {percentages : Percentages}
    {operations : List Operation}
    {t : Logged Memory}
    (hCarve : Makes (carve start heapSize percentages) l)
    (hRun : performAll operations l s = (.ok k, t)) :
    TilesHeap k ∧ k.heap = ⟨start, start + heapSize⟩ ∧
      k.belts.size = percentages.length := by
  rcases Arranged.of_carve hCarve with ⟨hNew, hPlace, hCount⟩
  rcases hNew.performAll hRun with ⟨hArranged, hHeap, hSize⟩
  exact
    ⟨hArranged.tilesHeap, hHeap.trans hPlace,
      hSize.trans hCount⟩

/- Three belts that are new. -/
def threeBelts : Layout where
  belts :=
    #[emptyBelt 0 65536 98304 false,
      emptyBelt 1 98304 114688 false,
      emptyBelt 2 114688 131072 false]
  roles := #[0, 1, 2]
  heap := ⟨65536, 131072⟩

/-
  The lowest belt grows, changes roles with the highest one, is
  used and emptied, and cannot grow into the used belt above it.
-/
def mixedOperations : List Operation :=
  [.setExpandable 0 true, .expand 0 4096, .swap 0 2, .swap 1 1,
    .allocate 0 100, .gcAllocate 2 8, .setMark 1 102408,
    .reset 0, .expand 2 4096]

/- The layout that the mixed operations leave. -/
def mixedBelts : Layout where
  belts :=
    #[⟨0, 65536, 102400, 65536, 65536, true⟩,
      ⟨1, 102400, 114688, 102408, 102400, false⟩,
      ⟨2, 114688, 131072, 114696, 114688, false⟩]
  roles := #[2, 1, 0]
  heap := ⟨65536, 131072⟩

/-
  The mixed operations on three belts leave them tiling the
  heap.
-/
theorem operations_keep_tiling_mixed :
    ∃ t,
      Makes (carve 65536 65536 [50, 25, 25]) threeBelts ∧
        performAll mixedOperations threeBelts ⟨{}, {}⟩ =
          (.ok mixedBelts, t) ∧
        TilesHeap mixedBelts := by
  have hCarve :
      Makes (carve 65536 65536 [50, 25, 25]) threeBelts := by
    unfold Makes
    decide +kernel
  have hRun :
      (performAll mixedOperations threeBelts ⟨{}, {}⟩).1 =
        .ok mixedBelts := by
    decide +kernel
  cases hCase : performAll mixedOperations threeBelts ⟨{}, {}⟩
    with
  | mk result t =>
      rw [hCase] at hRun
      dsimp only at hRun
      subst hRun
      exact
        ⟨t, hCarve, rfl, (operations_keep_tiling hCarve hCase).1⟩

end Layout

end BeltHeap
