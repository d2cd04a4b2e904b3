import BeltHeap.Proofs.Reclaiming

/-
  The survivors of a pass are copied one after the other, and
  each of them may be put over its own old place or over those
  of others.  They are placed in an order in which none is put
  over one that is still to be copied, so that the memory ends
  up as if all of them had been copied at once.

  Main declarations:
    * `Heap.CopiedAtOnce`
    * `HeapM.placeSurvivors`, `HeapM.carryOut`
    * `HeapM.runCollection_eq`
    * `Heap.Sound.place_routes`
    * `HeapM.Passes`
    * `Program.copying_in_turn_copies_at_once`
-/

------------------------------------------------------------
-- Copies at Once
------------------------------------------------------------

namespace BeltHeap

namespace Heap

/-
  One heap is another with some objects copied all at once.
  Their new places do not overlap, each has the bytes that its
  object had before, and all other bytes are those from before,
  as is everything else in the heap.
-/
structure CopiedAtOnce
    (h g : Heap)
    (moves : List Collection.Move) : Prop where
  apart : moves.Pairwise Collection.Move.Apart
  arrived :
    ∀ move ∈ moves, ∀ k < move.size,
      g.memory.byte (move.dest + k) =
        h.memory.byte (move.source + k)
  stayed :
    ∀ a, (∀ move ∈ moves, a < move.dest ∨ move.stop ≤ a) →
      g.memory.byte a = h.memory.byte a
  atOnce : ∀ a, g.memory.byte a = h.memory.copyAtOnce moves a
  rest : g = { h with memory := g.memory }

/- Moves that clear those after them copy all objects at once. -/
theorem copiedAtOnce_of_clears
    {moves : List Collection.Move}
    (hClears : moves.Pairwise Collection.Move.Clears)
    (h : Heap) :
    CopiedAtOnce h (h.mapMemory fun m => m.copyAll moves)
      moves where
  apart := hClears.imp fun hBoth => hBoth.2
  arrived := fun _ hMove k hk =>
    (Memory.byte_copyAll_mem h.memory hClears hMove k hk).symm
  stayed := fun _ hOutside =>
    Memory.byte_copyAll_apart h.memory hOutside
  atOnce := Memory.byte_copyAll h.memory hClears
  rest := rfl

end Heap

------------------------------------------------------------
-- The Parts of a Pass
------------------------------------------------------------

namespace HeapM

/-
  The first part of a pass: the slots that it starts from, the
  survivors, and their new places if there is room for them.
-/
def placeSurvivors
    (rt : Runtime)
    (kind : Collection.Kind)
    (nursery mature : Belt) :
    HeapM
      (List Slot × List Collection.LiveObject ×
        Except Collection.Shortfall Collection.Plan) := do
  let spans := Collection.condemned kind nursery mature
  Activity.emit (.collectionStarts kind spans)
  let slots ← findStartSlots rt kind
  let live ← findSurvivors rt spans slots
  let placed ← Collection.place kind nursery mature live
  pure (slots, live, placed)

/-
  The second part: the slots are rewritten, the survivors are
  copied, and the belts are settled.
-/
def carryOut
    (rt : Runtime)
    (kind : Collection.Kind)
    (nursery : Belt)
    (slots : List Slot)
    (live : List Collection.LiveObject)
    (plan : Collection.Plan) :
    HeapM (Except Collection.Shortfall Collection.Summary) := do
  Activity.emit
    (.survivorsPlaced live.length plan.bytes plan.destination
      plan.start)
  forwardSlots rt slots plan.moves
  moveObjects plan.moves
  settle kind plan.destination plan.moves
  pure
    (.ok
      {
        kind
        objects := plan.moves.length
        promotedBytes :=
          Collection.promotedBytes nursery plan.moves
      })

/- A pass is its two parts, or only the first one. -/
theorem runCollection_eq
    (rt : Runtime)
    (kind : Collection.Kind) :
    runCollection rt kind = (do
      let nursery ← reading (·.nursery)
      let mature ← reading (·.mature)
      let (slots, live, placed) ←
        placeSurvivors rt kind nursery mature
      match placed with
      | .error shortfall => pure (.error shortfall)
      | .ok plan => carryOut rt kind nursery slots live plan) := by
  unfold runCollection placeSurvivors
  refine bind_congr fun nursery => bind_congr fun mature => ?_
  symm
  refine (bind_assoc _ _ _).trans (bind_congr fun _ => ?_)
  refine (bind_assoc _ _ _).trans (bind_congr fun slots => ?_)
  refine (bind_assoc _ _ _).trans (bind_congr fun live => ?_)
  refine (bind_assoc _ _ _).trans (bind_congr fun placed => ?_)
  exact pure_bind _ _

/- Once survivors are placed, the pass carries that out. -/
theorem runCollection_of_placed
    {rt : Runtime}
    {kind : Collection.Kind}
    {begun t : Logged HeapRun}
    {slots : List Slot}
    {live : List Collection.LiveObject}
    {plan : Collection.Plan}
    (hRun :
      placeSurvivors rt kind begun.state.heap.nursery
          begun.state.heap.mature begun =
        (.ok (slots, live, .ok plan), t)) :
    runCollection rt kind begun =
      carryOut rt kind begun.state.heap.nursery slots live plan
        t := by
  rw [runCollection_eq]
  change
    (placeSurvivors rt kind begun.state.heap.nursery
        begun.state.heap.mature >>= _) begun = _
  rw [Activity.run_bind, hRun]

end HeapM

------------------------------------------------------------
-- Places of Survivors
------------------------------------------------------------

namespace Heap

variable {rt : Runtime}
variable {h : Heap}
variable {nursery mature : Belt}
variable {old young : List Nat}

/-
  Whatever the kind of a pass, its survivors do not fit or have
  new places that can be filled one after the other.
-/
theorem Sound.place_routes
    (kind : Collection.Kind)
    (hStandard : rt.Standard)
    (hSound : Sound rt h nursery mature old young) :
    ∃ found placed,
      Collection.place kind nursery mature
          (Collection.findLive rt h.memory
            (Collection.condemned kind nursery mature)
            ((h.startSlots rt kind old).map h.readSlot)) =
        .ok placed ∧
      ∀ plan, placed = .ok plan →
        Routes h (Collection.kept kind old) found
          plan.moves := by
  rcases Sound.placed_spec rt h nursery mature kind old with
    ⟨found, hPlaced, hNodup, hFound⟩
  have hEmptied :
      ∀ o ∈ found, o ∈ Collection.emptied kind old young :=
    fun o ho =>
      hSound.emptied_of_survives hStandard ((hFound o).mp ho)
  have hMembers : ∀ o ∈ found, o ∈ old ++ young := fun o ho =>
    Collection.mem_of_emptied (hEmptied o ho)
  refine
    ⟨found, _, hSound.place_eq kind hPlaced hNodup hMembers,
      ?_⟩
  intro plan hPlan
  dsimp only at hPlan
  split at hPlan
  · cases hPlan
  · cases hPlan
    exact
      hSound.routes_chosen hEmptied
        (hSound.pairwise_placed hPlaced hNodup hMembers) rfl
        (Nat.le_of_not_lt ‹_›)

end Heap

namespace HeapM

open Heap

variable {rt : Runtime}
variable {h : Heap}
variable {begun : Logged HeapRun}
variable {nursery mature : Belt}
variable {old young : List Nat}
variable {kind : Collection.Kind}
variable {placed : Except Collection.Shortfall Collection.Plan}

/- The first part of a pass changes no heap. -/
theorem yields_placeSurvivors
    (hStandard : rt.Standard)
    (hSound : Sound rt h nursery mature old young)
    (hPlace :
      Collection.place kind nursery mature
          (Collection.findLive rt h.memory
            (Collection.condemned kind nursery mature)
            ((h.startSlots rt kind old).map h.readSlot)) =
        .ok placed) :
    Yields (placeSurvivors rt kind h.nursery h.mature) h
      (.ok
        (h.startSlots rt kind old,
          Collection.findLive rt h.memory
            (Collection.condemned kind nursery mature)
            ((h.startSlots rt kind old).map h.readSlot),
          placed)) h := by
  unfold placeSurvivors
  rw [hSound.shape.nursery_eq, hSound.shape.mature_eq]
  refine yields_report rfl ?_
  refine yields_bind (yields_findStartSlots hSound hStandard) ?_
  refine yields_bind (yields_reading _) ?_
  exact yields_computed hPlace (yields_pure _)

/-
  The states that a pass may start from: those with a given heap,
  and those that a collection of such a heap comes to.
-/
inductive Passes
    (rt : Runtime)
    (h : Heap)
    (kind : Collection.Kind)
    (begun : Logged HeapRun) : Prop where
| direct
    (hHeap : begun.state.heap = h) :
    Passes rt h kind begun
| within
    {r : Logged HeapRun}
    (hHeap : r.state.heap = h)
    (hBegins : Begins rt r kind begun) :
    Passes rt h kind begun

/- Passes of a sound heap start from sound heaps. -/
theorem Passes.sound
    (hStandard : rt.Standard)
    (hSound : Sound rt h nursery mature old young)
    (hPasses : Passes rt h kind begun) :
    ∃ nursery' mature' old' young',
      Sound rt begun.state.heap nursery' mature' old' young' := by
  cases hPasses with
  | direct hHeap =>
      rw [hHeap]
      exact ⟨_, _, _, _, hSound⟩
  | within hHeap hBegins =>
      rw [← hHeap] at hSound
      rcases hBegins.sound hStandard hSound with
        ⟨_, _, _, _, hBegun, -⟩
      exact ⟨_, _, _, _, hBegun⟩

end HeapM

------------------------------------------------------------
-- Passes of Programs
------------------------------------------------------------

namespace Program

open Heap

variable {rt : Runtime}
variable {s : State}

/-
  Survivors are placed in every pass, of any kind, that starts
  from a heap which a program reaches or from one that a
  collection of it comes to.  Where they fit, the pass goes on to
  copy them, and copying them one after the other does to any
  heap what copying them all at once would do, however their old
  and new places overlap.
-/
theorem copying_in_turn_copies_at_once
    (hReached : Reached rt s)
    {kind : Collection.Kind}
    {begun : Logged HeapRun}
    (hPasses : HeapM.Passes rt s.heap kind begun) :
    ∃ slots live placed t,
      HeapM.placeSurvivors rt kind begun.state.heap.nursery
          begun.state.heap.mature begun =
        (.ok (slots, live, placed), t) ∧
        ∀ plan, placed = .ok plan →
          HeapM.runCollection rt kind begun =
              HeapM.carryOut rt kind begun.state.heap.nursery
                slots live plan t ∧
            ∀ r, ∃ u,
              HeapM.moveObjects plan.moves r = (.ok (), u) ∧
                CopiedAtOnce r.state.heap u.state.heap
                  plan.moves := by
  have hStandard := hReached.standard
  rcases hReached.invariant with ⟨_, _, _, _, hHeap, -⟩
  rcases hPasses.sound hStandard hHeap with
    ⟨nursery, mature, old, young, hSound⟩
  rcases hSound.place_routes kind hStandard with
    ⟨found, placed, hPlace, hRoutes⟩
  rcases HeapM.yields_placeSurvivors hStandard hSound hPlace
      begun rfl with
    ⟨t, hRun, -, -⟩
  refine ⟨_, _, placed, t, hRun, ?_⟩
  rintro plan rfl
  refine ⟨HeapM.runCollection_of_placed hRun, fun r => ?_⟩
  rcases HeapM.yields_moveObjects plan.moves r.state.heap r rfl
    with ⟨u, hMove, hCopied, -⟩
  refine ⟨u, hMove, ?_⟩
  rw [hCopied]
  exact copiedAtOnce_of_clears (hRoutes plan rfl).clears _

------------------------------------------------------------
-- An Object That Slides
------------------------------------------------------------

/- Where one object can be reached, a major pass places it. -/
theorem placed_of_one_root
    {h : Heap}
    {nursery mature : Belt}
    {old : List Nat}
    {slot : Slot}
    {object : Nat}
    (hStandard : rt.Standard)
    (hSound : Sound rt h nursery mature old [])
    (hSlots : h.rootSlots rt = [slot])
    (hEntry : h.readSlot slot = object)
    (hNull : object ≠ 0)
    (hRefs : Object.refCount h.memory object = 0) :
    Sound.placed rt h nursery mature .major old =
      h.sized [object] := by
  rcases Sound.placed_spec rt h nursery mature .major old with
    ⟨found, hPlaced, hNodup, hFound⟩
  have hSurvey :=
    hSound.survey hStandard (fun _ => rfl) hPlaced hNodup hFound
  have hSame : ∀ o, o ∈ found ↔ o ∈ [object] := by
    intro o
    rw [List.mem_singleton, hFound,
      hSurvey.survives_iff_saves hStandard hSound hFound]
    exact
      reachable_iff_of_one_root hStandard hSlots hEntry hNull
        hRefs
  have hPerm :=
    (List.perm_ext_iff_of_nodup hNodup
      (List.nodup_singleton object)).mpr hSame
  rw [List.perm_singleton.mp hPerm] at hPlaced
  exact hPlaced

/-
  An object that the empty nursery is too small for slides down
  to the start of the mature belt.
-/
theorem slides_of_one_root
    {slot : Slot}
    {object size : Nat}
    (hReached : Reached rt s)
    (hSlots : s.heap.rootSlots rt = [slot])
    (hEntry : s.heap.readSlot slot = object)
    (hNull : object ≠ 0)
    (hRefs : Object.refCount s.heap.memory object = 0)
    (hSize : Object.size s.heap.memory object = size)
    (hEmpty : s.heap.nursery.isEmpty = true)
    (hLarge : s.heap.nursery.size < size) :
    ∃ slots live t,
      HeapM.placeSurvivors rt .major s.run.state.heap.nursery
          s.run.state.heap.mature s.run =
        (.ok
          (slots, live,
            .ok
              ⟨.slideInMature, s.heap.mature.start, size,
                [⟨object, s.heap.mature.start, size⟩]⟩),
          t) := by
  have hStandard := hReached.standard
  rcases hReached.invariant with
    ⟨nursery, mature, old, young, hSound, -⟩
  rw [hSound.shape.nursery_eq] at hEmpty hLarge
  rw [hSound.shape.mature_eq]
  rw [hSound.young_eq_nil hEmpty] at hSound
  have hMember : object ∈ old ++ [] := by
    have hRoot := hSound.roots slot (by simp [hSlots])
    rw [hEntry] at hRoot
    exact hRoot.resolve_left hNull
  have hPlace :=
    hSound.place_eq .major
      (placed_of_one_root hStandard hSound hSlots hEntry hNull
        hRefs)
      (List.nodup_singleton object)
      (fun o ho => by rwa [List.mem_singleton.mp ho])
  have hSized : s.heap.sized [object] = [(object, size)] := by
    rw [← hSize]
    rfl
  have hBytes :
      Collection.liveBytes [(object, size)] = size :=
    Nat.add_zero size
  have hFull : ¬ (nursery.isEmpty && size ≤ nursery.size) := by
    simp only [Bool.and_eq_true, decide_eq_true_eq]
    omega
  have hRoom : size ≤ mature.size := by
    rw [List.append_nil] at hMember
    have hIn := (hSound.mem_old hMember).2
    have hMark := hSound.shape.fits.matureMark
    unfold Belt.size
    omega
  rw [hSized, hBytes] at hPlace
  unfold Collection.chooseDestination at hPlace
  simp only at hPlace
  rw [if_neg hFull] at hPlace
  dsimp only at hPlace
  rw [if_neg (Nat.not_lt_of_le hRoom)] at hPlace
  rcases HeapM.yields_placeSurvivors hStandard hSound hPlace
      s.run rfl with
    ⟨t, hRun, -, -⟩
  exact ⟨_, _, t, hRun⟩

/- A pass may start from the heap of a program as it is. -/
theorem passes_state
    (s : State)
    (kind : Collection.Kind) :
    HeapM.Passes rt s.heap kind s.run :=
  .direct rfl

/- The small heap with an unreachable object in the mature belt. -/
def slidingGap : State :=
  smallStart.after {} (.alloc 16500 0)

/- A larger object is allocated behind it. -/
def slidingNew : State :=
  slidingGap.after {} (.alloc 20000 0)

/- A root slot comes to refer to the larger object. -/
def sliding : State :=
  slidingNew.after {} (.addRoot 98424)

/- How the sliding run goes, and what it comes to. -/
theorem run_sliding :
    (perform {} (.alloc 16500 0) smallStart.run).1 =
        .ok (some 81920) ∧
      (perform {} (.alloc 20000 0) slidingGap.run).1 =
        .ok (some 98424) ∧
      98424 ∈ slidingNew.fresh ∧
      (perform {} (.addRoot 98424) slidingNew.run).1 = .ok none ∧
      sliding.heap.rootSlots {} = [.entry 0] ∧
      sliding.heap.readSlot (.entry 0) = 98424 ∧
      sliding.heap.nursery.isEmpty = true ∧
      sliding.heap.nursery.size < 20000 ∧
      sliding.heap.mature.start = 81920 := by
  decide +kernel

/- The unreachable object is allocated. -/
theorem step_slidingGap :
    Step {} smallStart (.alloc 16500 0) (some 81920)
      slidingGap :=
  step_after
    (show Object.bytesFor 0 0 ≤ HeapM.roundedSize {} 16500 by
      decide)
    run_sliding.1

/- The larger object is allocated right behind it. -/
theorem step_slidingNew :
    Step {} slidingGap (.alloc 20000 0) (some 98424)
      slidingNew :=
  step_after
    (show Object.bytesFor 0 0 ≤ HeapM.roundedSize {} 20000 by
      decide)
    run_sliding.2.1

theorem reached_slidingGap : Reached {} slidingGap :=
  .step reached_smallStart step_slidingGap

theorem reached_sliding : Reached {} sliding := by
  rcases run_sliding with ⟨-, -, hFresh, hRun, -⟩
  exact
    .step (.step reached_slidingGap step_slidingNew)
      (step_after (Known.fresh hFresh) hRun)

/- The larger object has its size and no references. -/
theorem header_sliding :
    Object.size sliding.heap.memory 98424 = 20000 ∧
      Object.refCount sliding.heap.memory 98424 = 0 := by
  have hKept : sliding.heap.memory = slidingNew.heap.memory :=
    memory_after_addRoot 98424
  have hInvariant := reached_slidingGap.invariant
  rw [hKept]
  exact
    ⟨step_slidingNew.size_new standard_default hInvariant,
      step_slidingNew.refCount_new standard_default hInvariant⟩

/-
  A major pass of that heap slides the larger object down, to
  where it overlaps its old place, and all of it arrives.
-/
theorem copying_in_turn_copies_at_once_sliding :
    ∃ slots live plan t,
      HeapM.placeSurvivors {} .major
            sliding.run.state.heap.nursery
            sliding.run.state.heap.mature sliding.run =
          (.ok (slots, live, .ok plan), t) ∧
        plan.moves = [⟨98424, 81920, 20000⟩] ∧
        ∀ r, ∃ u,
          HeapM.moveObjects plan.moves r = (.ok (), u) ∧
            CopiedAtOnce r.state.heap u.state.heap
              plan.moves := by
  rcases run_sliding with
    ⟨-, -, -, -, hSlots, hEntry, hEmpty, hLarge, hStart⟩
  rcases header_sliding with ⟨hSize, hRefs⟩
  rcases slides_of_one_root reached_sliding hSlots hEntry
      (by decide) hRefs hSize hEmpty hLarge with
    ⟨slots, live, t, hRun⟩
  rcases copying_in_turn_copies_at_once reached_sliding
      (passes_state sliding .major) with
    ⟨_, _, _, _, hAgain, hCopies⟩
  rw [hRun] at hAgain
  cases hAgain
  refine ⟨_, _, _, t, hRun, ?_, (hCopies _ rfl).2⟩
  rw [hStart]

end Program

end BeltHeap
