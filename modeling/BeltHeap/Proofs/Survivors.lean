import BeltHeap.Proofs.Carrying
import BeltHeap.Proofs.Marking
import BeltHeap.Proofs.Remembering

/-
  The objects of a sound heap that are still there after a
  collection: those that it leaves where they are, and those
  that it finds and moves.  Nothing among them refers to
  anything else.

  Main declarations:
    * `Collection.kept`, `Collection.emptied`
    * `Heap.startSlots`
    * `Heap.Survey`
    * `Heap.Sound.survey`
-/

------------------------------------------------------------
-- Kept and Condemned Objects
------------------------------------------------------------

namespace BeltHeap

namespace Collection

/- The objects that a collection leaves where they are. -/
def kept
    (kind : Kind)
    (old : List Nat) : List Nat :=
  match kind with
  | .minor => old
  | .major => []
  | .fullHeap => []

/- The objects in the spans that a collection condemns. -/
def emptied
    (kind : Kind)
    (old young : List Nat) : List Nat :=
  match kind with
  | .minor => young
  | .major => old
  | .fullHeap => old ++ young

/- A major collection is run with an empty nursery. -/
def Allowed
    (kind : Kind)
    (young : List Nat) : Prop :=
  kind = .major → young = []

variable {kind : Kind}
variable {old young : List Nat}
variable {object : Nat}

/- Every object is either kept or condemned. -/
theorem kept_or_emptied
    (hAllowed : Allowed kind young)
    (hMem : object ∈ old ++ young) :
    object ∈ kept kind old ∨ object ∈ emptied kind old young := by
  cases kind with
  | minor => exact List.mem_append.mp hMem
  | major =>
      rw [hAllowed rfl, List.append_nil] at hMem
      exact Or.inr hMem
  | fullHeap => exact Or.inr hMem

theorem mem_old_of_kept
    (hMem : object ∈ kept kind old) :
    kind = .minor ∧ object ∈ old := by
  cases kind with
  | minor => exact ⟨rfl, hMem⟩
  | major => cases hMem
  | fullHeap => cases hMem

theorem mem_of_emptied
    (hMem : object ∈ emptied kind old young) :
    object ∈ old ++ young := by
  cases kind with
  | minor => exact List.mem_append_right _ hMem
  | major => exact List.mem_append_left _ hMem
  | fullHeap => exact hMem

end Collection

namespace Heap

namespace Sound

variable {rt : Runtime}
variable {h : Heap}
variable {nursery mature : Belt}
variable {old young : List Nat}
variable {object : Nat}
variable {kind : Collection.Kind}

theorem isCondemned_iff
    (hSound : Sound rt h nursery mature old young)
    (hMem : object ∈ old ++ young) :
    Collection.isCondemned
        (Collection.condemned kind nursery mature) object = true ↔
      object ∈ Collection.emptied kind old young := by
  have hBounds := hSound.shape.fits.bounds
  have hNursery := hSound.shape.fits.nurseryMark
  have hMature := hSound.shape.fits.matureMark
  have hHeader := (hSound.proper hMem).header_le
  have hOld :
      mature.usedSpan.contains object = true ↔ object ∈ old := by
    rw [Span.contains_iff]
    change mature.start ≤ object ∧ object < mature.mark ↔ _
    constructor
    · intro hIn
      rcases List.mem_append.mp hMem with hOld | hYoung
      · exact hOld
      · have hRange := hSound.mem_young hYoung
        omega
    · intro hOld
      have hRange := hSound.mem_old hOld
      omega
  have hYoung :
      nursery.usedSpan.contains object = true ↔
        object ∈ young := by
    rw [Span.contains_iff]
    change nursery.start ≤ object ∧ object < nursery.mark ↔ _
    constructor
    · intro hIn
      rcases List.mem_append.mp hMem with hOld | hYoung
      · have hRange := hSound.mem_old hOld
        omega
      · exact hYoung
    · intro hYoung
      have hRange := hSound.mem_young hYoung
      omega
  unfold Collection.isCondemned
  cases kind with
  | minor =>
      rw [Collection.condemned, List.any_cons, List.any_nil,
        Bool.or_false]
      exact hYoung
  | major =>
      rw [Collection.condemned, List.any_cons, List.any_nil,
        Bool.or_false]
      exact hOld
  | fullHeap =>
      rw [Collection.condemned, List.any_cons, List.any_cons,
        List.any_nil, Bool.or_false, Bool.or_eq_true, hOld,
        hYoung]
      exact List.mem_append.symm

end Sound

------------------------------------------------------------
-- Surveys
------------------------------------------------------------

/-
  The slots of mature objects that a collection starts from
  besides the root slots.
-/
def rememberedFor
    (h : Heap)
    (kind : Collection.Kind)
    (old : List Nat) : List Nat :=
  if kind = .minor then
    (h.matureSlots old).filter h.cards.onDirtyCard
  else []

/- The slots that a collection starts from. -/
def startSlots
    (rt : Runtime)
    (h : Heap)
    (kind : Collection.Kind)
    (old : List Nat) : List Slot :=
  h.rootSlots rt ++ (h.rememberedFor kind old).map .field

/-
  A collection that starts from some slots keeps some objects
  and moves others, `found`, in this order.  All references of
  the root slots and of these objects are among them, and those
  to moved objects lie in slots that will be rewritten.
-/
structure Survey
    (rt : Runtime)
    (h : Heap)
    (old young : List Nat)
    (kind : Collection.Kind)
    (found : List Nat)
    (slots : List Slot) : Prop where
  condemned :
    ∀ object ∈ found,
      object ∈ Collection.emptied kind old young
  nodup : (Collection.kept kind old ++ found).Nodup
  roots :
    ∀ s ∈ h.rootSlots rt,
      s ∈ slots ∧
        (h.readSlot s = 0 ∨
          h.readSlot s ∈ Collection.kept kind old ++ found)
  fields :
    ∀ object ∈ Collection.kept kind old ++ found,
      ∀ a ∈ Object.fields h.memory object,
        h.memory.load a = 0 ∨
          h.memory.load a ∈ Collection.kept kind old ++ found
  noted :
    ∀ object ∈ Collection.kept kind old,
      ∀ a ∈ Object.fields h.memory object,
        h.memory.load a ∈ found → Slot.field a ∈ slots
  inKept :
    ∀ a, Slot.field a ∈ slots →
      ∃ object ∈ Collection.kept kind old,
        a ∈ Object.fields h.memory object
  inRoots :
    ∀ s ∈ slots, (∀ a, s ≠ .field a) → s ∈ h.rootSlots rt
  apart :
    (slots ++ Slot.ofObjects h.memory found).Pairwise Slot.Apart
  order :
    found.Pairwise fun o p =>
      p ∈ old → o ∈ old ∧ o + Object.size h.memory o ≤ p

namespace Survey

variable {rt : Runtime}
variable {h : Heap}
variable {nursery mature : Belt}
variable {old young found : List Nat}
variable {kind : Collection.Kind}
variable {slots : List Slot}
variable {object : Nat}

/- Kept and moved objects are objects of the heap. -/
theorem members
    (hSurvey : Survey rt h old young kind found slots)
    (hMem : object ∈ Collection.kept kind old ++ found) :
    object ∈ old ++ young := by
  rcases List.mem_append.mp hMem with hKept | hFound
  · exact List.mem_append_left _
      (Collection.mem_old_of_kept hKept).2
  · exact Collection.mem_of_emptied
      (hSurvey.condemned object hFound)

theorem not_mem_found
    (hSurvey : Survey rt h old young kind found slots)
    (hKept : object ∈ Collection.kept kind old) :
    object ∉ found := fun hFound =>
  (List.nodup_append.mp hSurvey.nodup).2.2 object hKept
    object hFound rfl

/- All slots in the heap that are rewritten are fields. -/
theorem field_mem
    (hSurvey : Survey rt h old young kind found slots)
    {a : Nat}
    (hSlot :
      Slot.field a ∈ slots ++ Slot.ofObjects h.memory found) :
    ∃ object ∈ Collection.kept kind old ++ found,
      a ∈ Object.fields h.memory object := by
  rcases List.mem_append.mp hSlot with hStart | hFound
  · rcases hSurvey.inKept a hStart with ⟨o, ho, ha⟩
    exact ⟨o, List.mem_append_left _ ho, ha⟩
  · rcases Slot.mem_ofObjects.mp hFound with ⟨o, ho, b, hb, hEq⟩
    cases hEq
    exact ⟨o, List.mem_append_right _ ho, hb⟩

/-
  What is reachable from the root slots is kept or moved, and
  nothing else is referred to.
-/
theorem mem_of_reachable
    (hSurvey : Survey rt h old young kind found slots)
    (hStandard : rt.Standard)
    (hObject : Reachable rt h object) :
    object ∈ Collection.kept kind old ++ found := by
  induction hObject with
  | root hSlot hNull =>
      rcases (hSurvey.roots _ hSlot).2 with hZero | hMem
      · exact absurd hZero hNull
      · exact hMem
  | field _ hField hNull ih =>
      rw [hStandard.fields] at hField
      rcases hSurvey.fields _ ih _ hField with hZero | hMem
      · exact absurd hZero hNull
      · exact hMem

end Survey

/-
  The condemned objects that are reachable from the slots that a
  collection starts from.
-/
def Survives
    (rt : Runtime)
    (h : Heap)
    (nursery mature : Belt)
    (kind : Collection.Kind)
    (old : List Nat) : Nat → Prop :=
  Collection.Reachable rt h.memory
    (Collection.condemned kind nursery mature)
    ((h.startSlots rt kind old).map h.readSlot)

namespace Sound

variable {rt : Runtime}
variable {h : Heap}
variable {nursery mature : Belt}
variable {old young : List Nat}
variable {object a : Nat}
variable {kind : Collection.Kind}
variable {s : Slot}

/- A remembered slot is a field of a kept object. -/
theorem kept_of_field_mem
    (hStandard : rt.Standard)
    (hSlot : Slot.field a ∈ h.startSlots rt kind old) :
    ∃ object ∈ Collection.kept kind old,
      a ∈ Object.fields h.memory object := by
  rcases List.mem_append.mp hSlot with hRoot | hField
  · exact absurd rfl
      (not_field_of_mem_rootSlots hStandard hRoot a)
  · rcases List.mem_map.mp hField with ⟨b, hb, hEq⟩
    cases hEq
    unfold rememberedFor at hb
    by_cases hMinor : kind = .minor
    · rw [if_pos hMinor] at hb
      subst hMinor
      exact List.mem_flatMap.mp (List.mem_filter.mp hb).1
    · rw [if_neg hMinor] at hb
      cases hb

/- A slot that a collection starts from is null or an object. -/
theorem startSlot_value
    (hSound : Sound rt h nursery mature old young)
    (hStandard : rt.Standard)
    (hSlot : s ∈ h.startSlots rt kind old) :
    h.readSlot s = 0 ∨ h.readSlot s ∈ old ++ young := by
  cases s with
  | field a =>
      rcases kept_of_field_mem hStandard hSlot with
        ⟨object, hKept, hField⟩
      have hOld := (Collection.mem_old_of_kept hKept).2
      exact hSound.fields object
        (List.mem_append_left _ hOld) a hField
  | entry k =>
      rcases List.mem_append.mp hSlot with hRoot | hField
      · exact hSound.roots _ hRoot
      · rcases List.mem_map.mp hField with ⟨_, _, hEq⟩
        cases hEq
  | register n =>
      rcases List.mem_append.mp hSlot with hRoot | hField
      · exact hSound.roots _ hRoot
      · rcases List.mem_map.mp hField with ⟨_, _, hEq⟩
        cases hEq

/- What survives is one of the condemned objects. -/
theorem emptied_of_survives
    (hSound : Sound rt h nursery mature old young)
    (hStandard : rt.Standard)
    (hSurvives : Survives rt h nursery mature kind old object) :
    object ∈ Collection.emptied kind old young := by
  induction hSurvives with
  | seed hSeed hNull hIn =>
      rcases List.mem_map.mp hSeed with ⟨s, hSlot, rfl⟩
      rcases hSound.startSlot_value hStandard hSlot with
        hZero | hMem
      · exact absurd hZero hNull
      · exact (hSound.isCondemned_iff hMem).mp hIn
  | step _ hRef hNull hIn ih =>
      unfold Collection.references at hRef
      rw [hStandard.fields] at hRef
      rcases List.mem_map.mp hRef with ⟨a, hField, rfl⟩
      rcases hSound.fields _
          (Collection.mem_of_emptied ih) a hField with
        hZero | hMem
      · exact absurd hZero hNull
      · exact (hSound.isCondemned_iff hMem).mp hIn

/- A slot that a collection starts from refers to no other. -/
theorem survives_of_startSlot
    (hSound : Sound rt h nursery mature old young)
    (hStandard : rt.Standard)
    (hAllowed : Collection.Allowed kind young)
    (hSlot : s ∈ h.startSlots rt kind old) :
    h.readSlot s = 0 ∨ h.readSlot s ∈ Collection.kept kind old ∨
      Survives rt h nursery mature kind old (h.readSlot s) := by
  rcases hSound.startSlot_value hStandard hSlot with hZero | hMem
  · exact Or.inl hZero
  · refine Or.inr ?_
    rcases Collection.kept_or_emptied hAllowed hMem with
      hKept | hEmptied
    · exact Or.inl hKept
    · exact Or.inr
        (.seed (List.mem_map_of_mem hSlot) (hSound.ne_null hMem)
          ((hSound.isCondemned_iff hMem).mpr hEmptied))

/- What a survivor refers to is kept or survives. -/
theorem survives_of_field
    (hSound : Sound rt h nursery mature old young)
    (hStandard : rt.Standard)
    (hAllowed : Collection.Allowed kind young)
    (hSurvives : Survives rt h nursery mature kind old object)
    (hField : a ∈ Object.fields h.memory object) :
    h.memory.load a = 0 ∨
      h.memory.load a ∈ Collection.kept kind old ∨
      Survives rt h nursery mature kind old
        (h.memory.load a) := by
  have hObject :=
    Collection.mem_of_emptied
      (hSound.emptied_of_survives hStandard hSurvives)
  rcases hSound.fields object hObject a hField with hZero | hMem
  · exact Or.inl hZero
  · refine Or.inr ?_
    rcases Collection.kept_or_emptied hAllowed hMem with
      hKept | hEmptied
    · exact Or.inl hKept
    · refine Or.inr (.step hSurvives ?_ (hSound.ne_null hMem)
        ((hSound.isCondemned_iff hMem).mpr hEmptied))
      unfold Collection.references
      rw [hStandard.fields]
      exact List.mem_map_of_mem hField

/-
  What a kept object refers to is kept or survives.  Its slots
  that refer to survivors lie on dirty cards, and the collection
  starts from them.
-/
theorem survives_of_kept
    (hSound : Sound rt h nursery mature old young)
    (hStandard : rt.Standard)
    (hAllowed : Collection.Allowed kind young)
    (hKept : object ∈ Collection.kept kind old)
    (hField : a ∈ Object.fields h.memory object) :
    h.memory.load a = 0 ∨
      h.memory.load a ∈ Collection.kept kind old ∨
      Survives rt h nursery mature kind old (h.memory.load a) ∧
        Slot.field a ∈ h.startSlots rt kind old := by
  rcases Collection.mem_old_of_kept hKept with ⟨rfl, hOld⟩
  rcases hSound.fields object
      (List.mem_append_left _ hOld) a hField with hZero | hMem
  · exact Or.inl hZero
  · refine Or.inr ?_
    rcases List.mem_append.mp hMem with hLoadOld | hYoung
    · exact Or.inl hLoadOld
    · right
      have hDirty := hSound.remembered object hOld a hField hYoung
      have hSlot : Slot.field a ∈ h.startSlots rt .minor old := by
        apply List.mem_append_right
        apply List.mem_map_of_mem
        exact List.mem_filter.mpr
          ⟨List.mem_flatMap.mpr ⟨object, hOld, hField⟩, hDirty⟩
      refine ⟨?_, hSlot⟩
      rcases hSound.survives_of_startSlot hStandard hAllowed hSlot
        with hZero | hKeptLoad | hSurvives
      · exact absurd hZero (hSound.ne_null hMem)
      · exact absurd (Collection.mem_old_of_kept hKeptLoad).2
          (hSound.not_mem_old hYoung)
      · exact hSurvives

/- The slots that a collection rewrites do not overlap. -/
theorem pairwise_startSlots
    (hSound : Sound rt h nursery mature old young)
    (hStandard : rt.Standard)
    {found : List Nat}
    (hMembers :
      ∀ o ∈ Collection.kept kind old ++ found, o ∈ old ++ young)
    (hNodup : (Collection.kept kind old ++ found).Nodup) :
    (h.startSlots rt kind old ++
      Slot.ofObjects h.memory found).Pairwise Slot.Apart := by
  have hApart :
      (Collection.kept kind old ++ found).Pairwise
        (Object.Apart h.memory) := by
    refine hNodup.imp_of_mem ?_
    intro o p ho hp hNe
    exact hSound.apart_of_ne (hMembers o ho) (hMembers p hp) hNe
  have hFields :
      ((Collection.kept kind old ++ found).flatMap
        (Object.fields h.memory)).Pairwise
          Object.WordsApart :=
    Object.pairwise_slots
      (fun o ho => hSound.proper (hMembers o ho)) hApart
  have hSub :
      (h.rememberedFor kind old ++
          found.flatMap (Object.fields h.memory)).Sublist
        ((Collection.kept kind old ++ found).flatMap
          (Object.fields h.memory)) := by
    rw [List.flatMap_append]
    refine List.Sublist.append ?_ (List.Sublist.refl _)
    unfold rememberedFor
    by_cases hMinor : kind = .minor
    · rw [if_pos hMinor]
      subst hMinor
      exact List.filter_sublist
    · rw [if_neg hMinor]
      exact List.nil_sublist _
  have hInHeap :
      ((h.rememberedFor kind old).map Slot.field ++
        Slot.ofObjects h.memory found).Pairwise Slot.Apart := by
    unfold Slot.ofObjects
    rw [← List.map_append, List.pairwise_map]
    exact hFields.sublist hSub
  unfold startSlots
  rw [List.append_assoc, List.pairwise_append]
  refine ⟨pairwise_rootSlots hStandard, hInHeap, ?_⟩
  intro s hs t ht
  have hField : ∃ a, t = .field a := by
    rcases List.mem_append.mp ht with hLeft | hRight
    · rcases List.mem_map.mp hLeft with ⟨a, -, rfl⟩
      exact ⟨a, rfl⟩
    · rcases Slot.mem_ofObjects.mp hRight with
        ⟨_, _, a, _, rfl⟩
      exact ⟨a, rfl⟩
  rcases hField with ⟨a, rfl⟩
  have hNe := not_field_of_mem_rootSlots hStandard hs a
  cases s with
  | entry k => exact hNe
  | register n => exact hNe
  | field b =>
      exact absurd rfl
        (not_field_of_mem_rootSlots hStandard hs b)

/- The survivors that marking finds, in the order of placing. -/
def placed
    (rt : Runtime)
    (h : Heap)
    (nursery mature : Belt)
    (kind : Collection.Kind)
    (old : List Nat) : List Collection.LiveObject :=
  Collection.inOrder nursery
    (Collection.findLive rt h.memory
      (Collection.condemned kind nursery mature)
      ((h.startSlots rt kind old).map h.readSlot))

/- Exactly the survivors are placed, each with its size. -/
theorem placed_spec
    (rt : Runtime)
    (h : Heap)
    (nursery mature : Belt)
    (kind : Collection.Kind)
    (old : List Nat) :
    ∃ found : List Nat,
      placed rt h nursery mature kind old =
          found.map (fun o => (o, Object.size h.memory o)) ∧
        found.Nodup ∧
        ∀ o, o ∈ found ↔
          Survives rt h nursery mature kind old o := by
  let live :=
    Collection.findLive rt h.memory
      (Collection.condemned kind nursery mature)
      ((h.startSlots rt kind old).map h.readSlot)
  have hPerm := Collection.inOrder_perm nursery live
  refine
    ⟨(placed rt h nursery mature kind old).map Prod.fst,
      ?_, ?_, ?_⟩
  · rw [List.map_map]
    refine (List.map_id _).symm.trans ?_
    apply List.map_congr_left
    intro x hx
    have hSize :=
      Collection.size_of_mem_findLive (hPerm.mem_iff.mp hx)
    simp only [Function.comp_apply, id_eq, ← hSize]
  · exact
      (hPerm.map Prod.fst).nodup_iff.mpr
        Collection.nodup_findLive
  · intro o
    have hMem := (hPerm.map Prod.fst).mem_iff (a := o)
    exact hMem.trans Collection.mem_findLive_iff

theorem nodup_kept_append
    (hSound : Sound rt h nursery mature old young)
    {found : List Nat}
    (hNodup : found.Nodup)
    (hEmptied :
      ∀ o ∈ found, o ∈ Collection.emptied kind old young) :
    (Collection.kept kind old ++ found).Nodup := by
  rw [List.nodup_append]
  refine ⟨?_, hNodup, ?_⟩
  · cases kind with
    | minor => exact (List.nodup_append.mp hSound.nodup).1
    | major => exact List.nodup_nil
    | fullHeap => exact List.nodup_nil
  · intro o hKept p hIn hEq
    rcases Collection.mem_old_of_kept hKept with ⟨rfl, hOld⟩
    rw [hEq] at hOld
    exact hSound.not_mem_old (hEmptied p hIn) hOld

/-
  What is placed before a mature object is a mature object at a
  lower address.
-/
theorem pairwise_placed
    (hSound : Sound rt h nursery mature old young)
    {found : List Nat}
    (hPlaced :
      placed rt h nursery mature kind old =
        found.map fun o => (o, Object.size h.memory o))
    (hNodup : found.Nodup)
    (hMembers : ∀ o ∈ found, o ∈ old ++ young) :
    found.Pairwise fun o p =>
      p ∈ old → o ∈ old ∧ o + Object.size h.memory o ≤ p := by
  have hOrder :=
    Collection.pairwise_inOrder nursery
      (Collection.findLive rt h.memory
        (Collection.condemned kind nursery mature)
        ((h.startSlots rt kind old).map h.readSlot))
  change (placed rt h nursery mature kind old).Pairwise _
    at hOrder
  rw [hPlaced, List.pairwise_map] at hOrder
  refine (hOrder.and hNodup).imp_of_mem ?_
  rintro o p ho - ⟨hPrecedes, hNe⟩ hOld
  have hO := hMembers o ho
  have hP : p ∈ old ++ young := List.mem_append_left _ hOld
  have hNotP : nursery.contains p = false := by
    rw [← Bool.not_eq_true, hSound.nursery_contains_iff hP]
    exact fun hYoung => hSound.not_mem_old hYoung hOld
  unfold Collection.precedes at hPrecedes
  simp only [hNotP] at hPrecedes
  cases hNursery : nursery.contains o with
  | true =>
      rw [hNursery] at hPrecedes
      cases hPrecedes
  | false =>
      rw [hNursery, if_pos rfl, decide_eq_true_eq] at hPrecedes
      have hNotYoung : o ∉ young := by
        rw [← hSound.nursery_contains_iff hO, hNursery]
        exact Bool.false_ne_true
      have hOldO : o ∈ old := by
        rcases List.mem_append.mp hO with hOld | hYoung
        · exact hOld
        · exact absurd hYoung hNotYoung
      have hApart := hSound.apart_of_ne hO hP hNe
      have hHeader := (hSound.proper hP).header_le
      unfold Object.Apart at hApart
      exact ⟨hOldO, by omega⟩

/- The survivors and the kept objects make up a survey. -/
theorem survey
    (hSound : Sound rt h nursery mature old young)
    (hStandard : rt.Standard)
    (hAllowed : Collection.Allowed kind young)
    {found : List Nat}
    (hPlaced :
      placed rt h nursery mature kind old =
        found.map fun o => (o, Object.size h.memory o))
    (hNodup : found.Nodup)
    (hFound :
      ∀ o, o ∈ found ↔
        Survives rt h nursery mature kind old o) :
    Survey rt h old young kind found
      (h.startSlots rt kind old) := by
  have hEmptied :
      ∀ o ∈ found, o ∈ Collection.emptied kind old young :=
    fun o ho =>
      hSound.emptied_of_survives hStandard ((hFound o).mp ho)
  have hMembers :
      ∀ o ∈ Collection.kept kind old ++ found,
        o ∈ old ++ young := by
    intro o ho
    rcases List.mem_append.mp ho with hKept | hIn
    · exact List.mem_append_left _
        (Collection.mem_old_of_kept hKept).2
    · exact Collection.mem_of_emptied (hEmptied o hIn)
  have hAll := hSound.nodup_kept_append hNodup hEmptied
  constructor
  · exact hEmptied
  · exact hAll
  · intro s hs
    have hSlot : s ∈ h.startSlots rt kind old :=
      List.mem_append_left _ hs
    refine ⟨hSlot, ?_⟩
    rw [List.mem_append, hFound]
    exact hSound.survives_of_startSlot hStandard hAllowed hSlot
  · intro o ho a ha
    rw [List.mem_append, hFound]
    rcases List.mem_append.mp ho with hKept | hIn
    · rcases hSound.survives_of_kept hStandard hAllowed hKept ha
        with hZero | hLoad | hLoad
      · exact Or.inl hZero
      · exact Or.inr (Or.inl hLoad)
      · exact Or.inr (Or.inr hLoad.1)
    · exact hSound.survives_of_field hStandard hAllowed
        ((hFound o).mp hIn) ha
  · intro o hKept a ha hIn
    rcases hSound.survives_of_kept hStandard hAllowed hKept ha
      with hZero | hLoad | hLoad
    · exact absurd hZero
        (hSound.ne_null
          (Collection.mem_of_emptied (hEmptied _ hIn)))
    · exact absurd rfl
        ((List.nodup_append.mp hAll).2.2 _ hLoad _ hIn)
    · exact hLoad.2
  · exact fun a hSlot => kept_of_field_mem hStandard hSlot
  · intro s hs hField
    rcases List.mem_append.mp hs with hRoot | hNoted
    · exact hRoot
    · rcases List.mem_map.mp hNoted with ⟨a, -, hEq⟩
      exact absurd hEq.symm (hField a)
  · exact hSound.pairwise_startSlots hStandard hMembers hAll
  · exact hSound.pairwise_placed hPlaced hNodup fun o ho =>
      hMembers o (List.mem_append_right _ ho)

end Sound

end Heap

end BeltHeap
