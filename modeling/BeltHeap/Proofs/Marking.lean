import BeltHeap.Collection.Marking

/-
  Marking finds exactly the condemned objects that are reachable
  from the seeds, each of them once.

  Main declarations:
    * `Collection.Marking.Coherent`
    * `Collection.Marking.Complete`
    * `Collection.mem_findLive_iff`
    * `Collection.nodup_findLive`
    * `Collection.size_of_mem_findLive`
-/

------------------------------------------------------------
-- Counting Condemned Objects
------------------------------------------------------------

namespace BeltHeap

namespace Collection

/- The addresses in some spans, one by one. -/
def addressesIn (spans : List Span) : List Nat :=
  spans.flatMap fun s => List.range' s.start s.length

theorem length_addressesIn
    (spans : List Span) :
    (addressesIn spans).length = totalLength spans := by
  induction spans with
  | nil => rfl
  | cons s spans ih =>
      unfold addressesIn totalLength at ih ⊢
      rw [List.flatMap_cons, List.length_append, ih]
      simp [total]

theorem mem_addressesIn
    {spans : List Span}
    {object : Nat}
    (hIn : isCondemned spans object = true) :
    object ∈ addressesIn spans := by
  unfold isCondemned at hIn
  rcases List.any_eq_true.mp hIn with ⟨s, hs, hContains⟩
  simp only [Span.contains, Bool.and_eq_true,
    decide_eq_true_eq] at hContains
  apply List.mem_flatMap.mpr
  refine ⟨s, hs, List.mem_range'_1.mpr ?_⟩
  unfold Span.length
  omega

/- No more objects are condemned than there are addresses. -/
theorem length_le_totalLength
    {spans : List Span}
    {objects : List Nat}
    (hNodup : objects.Nodup)
    (hIn :
      ∀ object ∈ objects, isCondemned spans object = true) :
    objects.length ≤ totalLength spans := by
  rw [← length_addressesIn]
  apply hNodup.length_le_of_subset
  intro object hObject
  exact mem_addressesIn (hIn object hObject)

------------------------------------------------------------
-- Visiting
------------------------------------------------------------

namespace Marking

/- The objects marked so far. -/
def objects (g : Marking) : List Nat :=
  g.live.map Prod.fst

/-
  The parts of a marking agree: every marked object is listed
  once, is condemned and comes with its size, and only marked
  objects are queued.
-/
structure Coherent
    (spans : List Span)
    (sizeOf : Nat → Nat)
    (g : Marking) : Prop where
  marked :
    ∀ object,
      g.marked.contains object = true ↔ object ∈ g.objects
  nodup : g.objects.Nodup
  condemned :
    ∀ object ∈ g.objects,
      object ≠ 0 ∧ isCondemned spans object = true
  sized : ∀ x ∈ g.live, x.2 = sizeOf x.1
  queued : ∀ object ∈ g.queue, object ∈ g.objects

/- A reference that marking has not to follow any more. -/
def Handled
    (spans : List Span)
    (g : Marking)
    (object : Nat) : Prop :=
  object ≠ 0 → isCondemned spans object = true →
    object ∈ g.objects

/-
  A later marking keeps what was marked and queued before.  What
  is new in it is queued and comes from the visited references.
-/
structure Extends
    (visited : List Nat)
    (g later : Marking) : Prop where
  objects : ∀ object ∈ g.objects, object ∈ later.objects
  queue : ∀ object ∈ g.queue, object ∈ later.queue
  fresh :
    ∀ object ∈ later.objects,
      object ∈ g.objects ∨
        object ∈ later.queue ∧ object ∈ visited
  balance :
    later.queue.length + g.objects.length =
      later.objects.length + g.queue.length

variable {spans : List Span}
variable {sizeOf : Nat → Nat}
variable {g later : Marking}

theorem Extends.refl : Extends [] g g where
  objects := fun _ h => h
  queue := fun _ h => h
  fresh := fun _ h => Or.inl h
  balance := Nat.add_comm _ _

theorem Extends.trans
    {visited others : List Nat}
    {last : Marking}
    (h₁ : Extends visited g later)
    (h₂ : Extends others later last) :
    Extends (visited ++ others) g last where
  objects := fun object h =>
    h₂.objects object (h₁.objects object h)
  queue := fun object h => h₂.queue object (h₁.queue object h)
  fresh := by
    intro object hObject
    rcases h₂.fresh object hObject with hLater | hNew
    · rcases h₁.fresh object hLater with hOld | hMid
      · exact Or.inl hOld
      · exact Or.inr
          ⟨h₂.queue object hMid.1,
            List.mem_append_left _ hMid.2⟩
    · exact Or.inr
        ⟨hNew.1, List.mem_append_right _ hNew.2⟩
  balance := by
    have hFirst := h₁.balance
    have hSecond := h₂.balance
    omega

/- What was handled stays handled. -/
theorem Handled.extends
    {visited : List Nat}
    {object : Nat}
    (h : Handled spans g object)
    (hExtends : Extends visited g later) :
    Handled spans later object :=
  fun hNull hIn => hExtends.objects object (h hNull hIn)

/- A visited reference is handled, and nothing gets lost. -/
theorem visit_spec
    (hCoherent : Coherent spans sizeOf g)
    (object : Nat) :
    Coherent spans sizeOf (visit spans sizeOf g object) ∧
      Extends [object] g (visit spans sizeOf g object) ∧
      Handled spans (visit spans sizeOf g object) object := by
  unfold visit
  by_cases hSkip :
      (object = 0 || !isCondemned spans object ||
        g.marked.contains object) = true
  · rw [if_pos hSkip]
    refine ⟨hCoherent, ?_, ?_⟩
    · exact
        { Extends.refl with
          fresh := fun _ h => Or.inl h }
    · intro hNull hIn
      simp only [Bool.or_eq_true, decide_eq_true_eq,
        Bool.not_eq_true'] at hSkip
      rcases hSkip with (hZero | hOut) | hMarked
      · exact absurd hZero hNull
      · rw [hIn] at hOut
        cases hOut
      · exact (hCoherent.marked object).mp hMarked
  · rw [if_neg hSkip]
    simp only [Bool.or_eq_true, decide_eq_true_eq,
      Bool.not_eq_true', not_or] at hSkip
    rcases hSkip with ⟨⟨hNull, hIn⟩, hNew⟩
    have hIn' : isCondemned spans object = true := by
      simpa using hIn
    have hNotMem : object ∉ g.objects := fun hMem =>
      hNew ((hCoherent.marked object).mpr hMem)
    refine ⟨⟨?_, ?_, ?_, ?_, ?_⟩, ⟨?_, ?_, ?_, ?_⟩, ?_⟩
    · intro p
      have hOld := hCoherent.marked p
      simp only [objects] at hOld ⊢
      rw [Std.HashSet.contains_insert, Bool.or_eq_true,
        beq_iff_eq, hOld, List.map_cons, List.mem_cons]
      exact or_congr_left eq_comm
    · exact List.nodup_cons.mpr ⟨hNotMem, hCoherent.nodup⟩
    · intro p hp
      rcases List.mem_cons.mp hp with hHead | hTail
      · rw [hHead]
        exact ⟨hNull, hIn'⟩
      · exact hCoherent.condemned p hTail
    · intro x hx
      rcases List.mem_cons.mp hx with hHead | hTail
      · rw [hHead]
      · exact hCoherent.sized x hTail
    · intro p hp
      rcases List.mem_cons.mp hp with hHead | hTail
      · rw [hHead]
        exact List.mem_cons_self
      · exact List.mem_cons_of_mem _ (hCoherent.queued p hTail)
    · intro p hp
      exact List.mem_cons_of_mem _ hp
    · intro p hp
      exact List.mem_cons_of_mem _ hp
    · intro p hp
      rcases List.mem_cons.mp hp with hHead | hTail
      · have hEq : p = object := hHead
        rw [hEq]
        exact Or.inr
          ⟨List.mem_cons_self, List.mem_singleton_self _⟩
      · exact Or.inl hTail
    · simp only [objects, List.length_map, List.length_cons]
      omega
    · intro _ _
      exact List.mem_cons_self

/- All references that are visited in a row are handled. -/
theorem visitAll_spec
    (hCoherent : Coherent spans sizeOf g)
    (refs : List Nat) :
    Coherent spans sizeOf (refs.foldl (visit spans sizeOf) g) ∧
      Extends refs g (refs.foldl (visit spans sizeOf) g) ∧
      ∀ object ∈ refs,
        Handled spans (refs.foldl (visit spans sizeOf) g)
          object := by
  induction refs generalizing g with
  | nil => exact ⟨hCoherent, Extends.refl, by simp⟩
  | cons r refs ih =>
      rcases visit_spec hCoherent r with
        ⟨hFirst, hFirstExt, hFirstHandled⟩
      rcases ih hFirst with ⟨hRest, hRestExt, hRestHandled⟩
      refine ⟨hRest, hFirstExt.trans hRestExt, ?_⟩
      intro object hObject
      rcases List.mem_cons.mp hObject with hHead | hTail
      · rw [hHead]
        exact hFirstHandled.extends hRestExt
      · exact hRestHandled object hTail

------------------------------------------------------------
-- Draining the Queue
------------------------------------------------------------

/-
  Every marked object that is not queued any more has all its
  references handled.
-/
def Complete
    (spans : List Span)
    (refs : Nat → List Nat)
    (g : Marking) : Prop :=
  ∀ object ∈ g.objects, object ∉ g.queue →
    ∀ r ∈ refs object, Handled spans g r

/- Taking an object out of the queue keeps the parts in line. -/
theorem Coherent.unqueue
    {object : Nat}
    {queue : List Nat}
    (h : Coherent spans sizeOf g)
    (hQueue : g.queue = object :: queue) :
    Coherent spans sizeOf { g with queue } where
  marked := h.marked
  nodup := h.nodup
  condemned := h.condemned
  sized := h.sized
  queued := fun p hp =>
    h.queued p (by rw [hQueue]; exact List.mem_cons_of_mem _ hp)

/-
  One round takes an object out of the queue and visits its
  references.
-/
theorem Complete.round
    {refs : Nat → List Nat}
    {object : Nat}
    {queue : List Nat}
    (hComplete : Complete spans refs g)
    (hCoherent : Coherent spans sizeOf g)
    (hQueue : g.queue = object :: queue) :
    Complete spans refs
      ((refs object).foldl (visit spans sizeOf)
        { g with queue }) := by
  rcases visitAll_spec (hCoherent.unqueue hQueue) (refs object)
    with ⟨-, hExtends, hHandled⟩
  intro p hp hNotQueued r hr
  rcases hExtends.fresh p hp with hOld | hNew
  · by_cases hEq : p = object
    · rw [hEq] at hr
      exact hHandled r hr
    · -- `p` was off the queue before this round as well
      have hOff : p ∉ g.queue := by
        rw [hQueue]
        intro hMem
        rcases List.mem_cons.mp hMem with hHead | hTail
        · exact hEq hHead
        · exact hNotQueued (hExtends.queue p hTail)
      have hBefore : Handled spans { g with queue } r :=
        hComplete p hOld hOff r hr
      exact hBefore.extends hExtends
  · exact absurd hNew.1 hNotQueued

/-
  With as many rounds as there are unmarked condemned addresses
  and queued objects, the queue runs empty: each round uses up
  one of the objects that were ever queued.
-/
theorem drain_spec
    (refs : Nat → List Nat)
    {Reach : Nat → Prop}
    (hStep :
      ∀ p r, Reach p → r ∈ refs p → r ≠ 0 →
        isCondemned spans r = true → Reach r)
    (rounds : Nat)
    (hCoherent : Coherent spans sizeOf g)
    (hComplete : Complete spans refs g)
    (hReach : ∀ object ∈ g.objects, Reach object)
    (hRounds :
      totalLength spans + g.queue.length ≤
        rounds + g.objects.length) :
    ∃ last,
      drain spans sizeOf refs rounds g = last ∧
        Coherent spans sizeOf last ∧
        (∀ object ∈ last.objects,
          ∀ r ∈ refs object, Handled spans last r) ∧
        (∀ object ∈ last.objects, Reach object) ∧
        ∀ object ∈ g.objects, object ∈ last.objects := by
  induction rounds generalizing g with
  | zero =>
      have hBound :=
        length_le_totalLength hCoherent.nodup
          fun p hp => (hCoherent.condemned p hp).2
      have hEmpty : g.queue = [] := by
        apply List.eq_nil_of_length_eq_zero
        omega
      refine ⟨g, rfl, hCoherent, ?_, hReach, fun _ h => h⟩
      intro object hObject
      exact hComplete object hObject (by simp [hEmpty])
  | succ rounds ih =>
      cases hCase : g.queue with
      | nil =>
          refine ⟨g, ?_, hCoherent, ?_, hReach, fun _ h => h⟩
          · rw [drain, hCase]
          · intro object hObject
            exact hComplete object hObject (by simp [hCase])
      | cons object queue =>
          have hMem : object ∈ g.objects :=
            hCoherent.queued object (by simp [hCase])
          rcases visitAll_spec (hCoherent.unqueue hCase)
              (refs object) with
            ⟨hNext, hExtends, -⟩
          have hReachNext :
              ∀ p ∈ ((refs object).foldl (visit spans sizeOf)
                { g with queue }).objects, Reach p := by
            intro p hp
            rcases hExtends.fresh p hp with hOld | hNew
            · exact hReach p hOld
            · have hCond := hNext.condemned p hp
              exact hStep object p (hReach object hMem)
                hNew.2 hCond.1 hCond.2
          have hRoundsNext :
              totalLength spans +
                  ((refs object).foldl (visit spans sizeOf)
                    { g with queue }).queue.length ≤
                rounds +
                  ((refs object).foldl (visit spans sizeOf)
                    { g with queue }).objects.length := by
            have hBalance := hExtends.balance
            have hObjects :
                Marking.objects { g with queue } = g.objects :=
              rfl
            rw [hObjects] at hBalance
            rw [hCase, List.length_cons] at hRounds
            simp only at hBalance
            omega
          rcases ih hNext (hComplete.round hCoherent hCase)
              hReachNext hRoundsNext with
            ⟨last, hDrain, hLast, hClosed, hSound, hKept⟩
          refine ⟨last, ?_, hLast, hClosed, hSound, ?_⟩
          · rw [drain, hCase]
            exact hDrain
          · intro p hp
            exact hKept p (hExtends.objects p hp)

end Marking

------------------------------------------------------------
-- Live Objects
------------------------------------------------------------

variable {rt : Runtime}
variable {m : Memory}
variable {spans : List Span}
variable {seeds : List Nat}

/-
  What marking comes to: a marking whose parts agree and whose
  objects are the reachable ones.
-/
theorem findLive_spec
    (rt : Runtime)
    (m : Memory)
    (spans : List Span)
    (seeds : List Nat) :
    ∃ last : Marking,
      findLive rt m spans seeds = last.live ∧
        last.Coherent spans (Object.size m) ∧
        ∀ object,
          object ∈ last.objects ↔
            Reachable rt m spans seeds object := by
  have hEmpty :
      Marking.Coherent spans (Object.size m) {} := by
    constructor <;> simp [Marking.objects]
  rcases Marking.visitAll_spec hEmpty seeds with
    ⟨hStart, hExtends, hHandled⟩
  have hFresh :
      ∀ object ∈ (seeds.foldl
          (Marking.visit spans (Object.size m)) {}).objects,
        object ∈ (seeds.foldl
            (Marking.visit spans (Object.size m)) {}).queue ∧
          object ∈ seeds := by
    intro object hObject
    rcases hExtends.fresh object hObject with hOld | hNew
    · cases hOld
    · exact hNew
  have hReach :
      ∀ object ∈ (seeds.foldl
          (Marking.visit spans (Object.size m)) {}).objects,
        Reachable rt m spans seeds object := by
    intro object hObject
    have hCond := hStart.condemned object hObject
    exact Reachable.seed (hFresh object hObject).2
      hCond.1 hCond.2
  have hBalance := hExtends.balance
  rcases Marking.drain_spec (references rt m)
      (fun p r hp hr hNull hIn =>
        Reachable.step hp hr hNull hIn)
      (totalLength spans) hStart
      (fun object hObject hOff =>
        absurd (hFresh object hObject).1 hOff)
      hReach
      (by simp [Marking.objects] at hBalance ⊢; omega) with
    ⟨last, hDrain, hLast, hClosed, hSound, hKept⟩
  refine ⟨last, ?_, hLast, ?_⟩
  · exact congrArg Marking.live hDrain
  · intro object
    refine ⟨hSound object, ?_⟩
    intro hObject
    induction hObject with
    | seed hSeed hNull hIn =>
        exact hKept _ (hHandled _ hSeed hNull hIn)
    | step hSource hRef hNull hIn ih =>
        exact hClosed _ ih _ hRef hNull hIn

/- Marking finds exactly the reachable objects. -/
theorem mem_findLive_iff
    {object : Nat} :
    object ∈ (findLive rt m spans seeds).map Prod.fst ↔
      Reachable rt m spans seeds object := by
  rcases findLive_spec rt m spans seeds with
    ⟨last, hLive, -, hIff⟩
  rw [hLive]
  exact hIff object

theorem nodup_findLive :
    ((findLive rt m spans seeds).map Prod.fst).Nodup := by
  rcases findLive_spec rt m spans seeds with
    ⟨last, hLive, hLast, -⟩
  rw [hLive]
  exact hLast.nodup

theorem size_of_mem_findLive
    {x : LiveObject}
    (hMem : x ∈ findLive rt m spans seeds) :
    x.2 = Object.size m x.1 := by
  rcases findLive_spec rt m spans seeds with
    ⟨last, hLive, hLast, -⟩
  rw [hLive] at hMem
  exact hLast.sized x hMem

/-
  The objects that are found determine the sizes that are listed
  with them.
-/
theorem findLive_eq_sized :
    findLive rt m spans seeds =
      ((findLive rt m spans seeds).map Prod.fst).map
        fun o => (o, Object.size m o) := by
  rw [List.map_map]
  refine (List.map_id _).symm.trans ?_
  apply List.map_congr_left
  intro x hx
  have hSize := size_of_mem_findLive hx
  simp only [Function.comp_apply, id_eq, ← hSize]

end Collection

end BeltHeap
