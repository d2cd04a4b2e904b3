import BeltHeap.Proofs.Latching
import BeltHeap.Proofs.Tables

/-
  What a pass of a collection reclaims: exactly the objects that
  it has no reason to save.  The others are packed without gaps
  in their order, from the mark of the mature belt on in a minor
  pass and from its start on in any other, and the bytes that
  leave the nursery are counted.

  Main declarations:
    * `Heap.Promotable`, `Heap.Survivors`
    * `Heap.Packs`, `Heap.Reclaims`
    * `Heap.Pass.reclaims`
    * `HeapM.Begins`, `HeapM.ReclaimsExactly`
    * `Program.passes_reclaim_exactly`
-/

------------------------------------------------------------
-- Sums and Places
------------------------------------------------------------

namespace BeltHeap

/- Members of a list that count add up to those that are left. -/
theorem total_map_filter
    (p : Nat → Bool)
    (f : Nat → Nat)
    (ns : List Nat) :
    total (ns.map fun n => if p n then f n else 0) =
      total ((ns.filter p).map f) := by
  induction ns with
  | nil => rfl
  | cons n ns ih =>
      rw [List.map_cons, total, ih, List.filter_cons]
      cases p n with
      | true => rfl
      | false => exact Nat.zero_add _

/- Each object is packed right behind those before it. -/
theorem Collection.mem_pack
    (cursor object size : Nat)
    (before behind : List Collection.LiveObject) :
    ⟨object, cursor + Collection.liveBytes before, size⟩ ∈
      Collection.pack cursor
        (before ++ (object, size) :: behind) := by
  unfold Collection.liveBytes
  induction before generalizing cursor with
  | nil => exact List.mem_cons_self
  | cons x before ih =>
      have hRest := ih (cursor + x.2)
      rw [Nat.add_assoc] at hRest
      exact List.mem_cons_of_mem _ hRest

------------------------------------------------------------
-- Survivors
------------------------------------------------------------

namespace Heap

/- One of the objects in the used part of the mature belt. -/
def IsMature
    (h : Heap)
    (object : Nat) : Prop :=
  ∃ objects, h.MatureObjects objects ∧ object ∈ objects

/-
  A minor pass promotes an object of the nursery where a root
  slot refers to it, or a slot of a mature object on a dirty
  card, or a field of another such object of the nursery.
-/
inductive Promotable
    (rt : Runtime)
    (h : Heap) : Nat → Prop where
| root
    {s : Slot}
    (hSlot : s ∈ h.rootSlots rt)
    (hYoung : h.nursery.contains (h.readSlot s) = true) :
    Promotable rt h (h.readSlot s)
| remembered
    {object a card : Nat}
    (hObject : h.IsMature object)
    (hField : a ∈ rt.fields h.memory object)
    (hCard : h.cards.index a = .ok card)
    (hDirty : h.cards.isDirty card = .ok true)
    (hYoung : h.nursery.contains (h.memory.load a) = true) :
    Promotable rt h (h.memory.load a)
| field
    {object a : Nat}
    (hObject : Promotable rt h object)
    (hField : a ∈ rt.fields h.memory object)
    (hYoung : h.nursery.contains (h.memory.load a) = true) :
    Promotable rt h (h.memory.load a)

/- The objects that a pass of some kind has to save. -/
def Saves
    (rt : Runtime)
    (h : Heap) : Collection.Kind → Nat → Prop
| .minor, object => Promotable rt h object
| .major, object => Reachable rt h object
| .fullHeap, object => Reachable rt h object

/- Mature objects come first, and others by their addresses. -/
def PlacedBefore
    (h : Heap)
    (o p : Nat) : Prop :=
  h.nursery.contains o = false ∧ h.nursery.contains p = true ∨
    h.nursery.contains o = h.nursery.contains p ∧ o < p

/- All objects that a pass saves, in the order of placing. -/
structure Survivors
    (rt : Runtime)
    (h : Heap)
    (kind : Collection.Kind)
    (objects : List Nat) : Prop where
  saved : ∀ o, o ∈ objects ↔ Saves rt h kind o
  order : objects.Pairwise h.PlacedBefore

/- The number of bytes that some objects take up. -/
def bytesOf
    (h : Heap)
    (objects : List Nat) : Nat :=
  total (objects.map (Object.size h.memory))

/- The objects among some that lie in the nursery. -/
def inNursery
    (h : Heap)
    (objects : List Nat) : List Nat :=
  objects.filter h.nursery.contains

/- The room that a pass has for the objects it saves. -/
def roomFor
    (h : Heap) : Collection.Kind → Nat
| .minor => h.mature.remaining
| .major => h.mature.size
| .fullHeap => h.mature.size

------------------------------------------------------------
-- Reclaimed Heaps
------------------------------------------------------------

/-
  Objects are packed without gaps from `start` on: each of them
  is found right behind those before it, at the address that a
  map gives it, the mark of the mature belt is the end of the
  last one, and the nursery is empty.
-/
structure Packs
    (h g : Heap)
    (objects : List Nat)
    (start : Nat)
    (f : Nat → Nat) : Prop where
  places :
    ∀ before object behind,
      objects = before ++ object :: behind →
        f object = start + h.bytesOf before
  carried :
    ∀ object ∈ objects,
      Object.Carried h.memory object g.memory f
  mark : g.mature.mark = start + h.bytesOf objects
  empty : g.nursery.isEmpty = true

/-
  What a pass leaves of a heap.  A minor one appends the objects
  it saves to the mature ones, none of which moves.  Any other
  leaves nothing in the mature belt but the objects it saves,
  and they are the reachable ones.
-/
inductive Reclaims
    (rt : Runtime)
    (h g : Heap)
    (objects : List Nat)
    (f : Nat → Nat) : Collection.Kind → Prop where
| appended
    (hPacks : Packs h g objects h.mature.mark f)
    (hBelt : g.mature.span = h.mature.span)
    (hStay :
      ∀ mature, h.MatureObjects mature →
        g.MatureObjects (mature ++ objects.map f) ∧
          ∀ object ∈ mature,
            f object = object ∧
              Object.Carried h.memory object g.memory f) :
    Reclaims rt h g objects f .minor
| compacted
    {kind : Collection.Kind}
    (hKind : kind ≠ .minor)
    (hPacks : Packs h g objects g.mature.start f)
    (hBelt :
      g.mature.span = h.mature.span ∨
        kind = .major ∧ g.mature.span = h.nursery.span)
    (hObjects : g.MatureObjects (objects.map f))
    (hReachable :
      ∀ object, object ∈ objects.map f ↔
        Reachable rt g object) :
    Reclaims rt h g objects f kind

variable {rt : Runtime}
variable {h g : Heap}
variable {nursery mature nursery' mature' : Belt}
variable {old young old' young' found objects : List Nat}
variable {kind : Collection.Kind}
variable {moves : List Collection.Move}
variable {start object : Nat}
variable {table : FirstObjects}

------------------------------------------------------------
-- Survivors of Sound Heaps
------------------------------------------------------------

/- The mature objects of a sound heap. -/
theorem Sound.isMature_iff
    (hSound : Sound rt h nursery mature old young) :
    h.IsMature object ↔ object ∈ old := by
  constructor
  · rintro ⟨objects, hObjects, hMem⟩
    rw [hSound.matureObjects_eq hObjects] at hMem
    exact hMem
  · exact fun hOld => ⟨old, hSound.matureObjects, hOld⟩

theorem Sound.mem_rememberedFor
    (hSound : Sound rt h nursery mature old young)
    {a : Nat} :
    a ∈ h.rememberedFor .minor old ↔
      ∃ object ∈ old, a ∈ Object.fields h.memory object ∧
        ∃ card, h.cards.index a = .ok card ∧
          h.cards.isDirty card = .ok true := by
  unfold rememberedFor matureSlots
  rw [if_pos rfl, List.mem_filter, List.mem_flatMap,
    CardTable.onDirtyCard_iff hSound.shape.cards]
  constructor
  · rintro ⟨⟨object, hOld, hField⟩, hDirty⟩
    exact ⟨object, hOld, hField, hDirty⟩
  · rintro ⟨object, hOld, hField, hDirty⟩
    exact ⟨⟨object, hOld, hField⟩, hDirty⟩

/- Objects of the nursery are those that a minor pass condemns. -/
theorem Sound.contains_iff_condemned
    (hSound : Sound rt h nursery mature old young)
    (hValue : object = 0 ∨ object ∈ old ++ young) :
    h.nursery.contains object = true ↔
      object ≠ 0 ∧
        Collection.isCondemned
          (Collection.condemned .minor nursery mature) object =
            true := by
  have hPos := hSound.shape.fits.start_pos
  have hBounds := hSound.shape.fits.bounds
  rw [hSound.shape.nursery_eq]
  rcases hValue with rfl | hMem
  · rw [Belt.contains_iff]
    omega
  · rw [hSound.nursery_contains_iff hMem,
      hSound.isCondemned_iff hMem]
    exact
      ⟨fun hYoung => ⟨hSound.ne_null hMem, hYoung⟩, And.right⟩

/-
  A field of what a minor pass finds refers to the nursery
  exactly if it is not null and refers to something condemned.
-/
theorem Sound.field_condemned_iff
    (hStandard : rt.Standard)
    (hSound : Sound rt h nursery mature old young)
    (hSurvives :
      Survives rt h nursery mature .minor old object)
    {a : Nat}
    (hField : a ∈ rt.fields h.memory object) :
    h.nursery.contains (h.memory.load a) = true ↔
      h.memory.load a ≠ 0 ∧
        Collection.isCondemned
          (Collection.condemned .minor nursery mature)
          (h.memory.load a) = true := by
  have hObject :=
    Collection.mem_of_emptied
      (hSound.emptied_of_survives hStandard hSurvives)
  have hValue := hSound.fields object hObject a
  rw [← hStandard.fields] at hValue
  exact hSound.contains_iff_condemned (hValue hField)

/- What a minor pass finds it has reason to save. -/
theorem Sound.promotable_of_survives
    (hStandard : rt.Standard)
    (hSound : Sound rt h nursery mature old young)
    (hSurvives :
      Survives rt h nursery mature .minor old object) :
    Promotable rt h object := by
  induction hSurvives with
  | seed hSeed hNull hIn =>
      rcases List.mem_map.mp hSeed with ⟨s, hSlot, rfl⟩
      have hYoung :=
        (hSound.contains_iff_condemned
          (hSound.startSlot_value hStandard hSlot)).mpr
            ⟨hNull, hIn⟩
      rcases List.mem_append.mp hSlot with hRoot | hNoted
      · exact .root hRoot hYoung
      · rcases List.mem_map.mp hNoted with ⟨a, ha, rfl⟩
        rcases hSound.mem_rememberedFor.mp ha with
          ⟨o, hOld, hField, card, hCard, hDirty⟩
        rw [← hStandard.fields] at hField
        exact
          .remembered (hSound.isMature_iff.mpr hOld) hField
            hCard hDirty hYoung
  | step hSource hRef hNull hIn ih =>
      rcases List.mem_map.mp hRef with ⟨a, hField, rfl⟩
      exact
        .field ih hField
          ((hSound.field_condemned_iff hStandard hSource
            hField).mpr ⟨hNull, hIn⟩)

/-
  A minor pass finds the nursery objects that its slots refer
  to.
-/
theorem Sound.survives_of_youngSlot
    (hStandard : rt.Standard)
    (hSound : Sound rt h nursery mature old young)
    {s : Slot}
    (hSlot : s ∈ h.startSlots rt .minor old)
    (hYoung : h.nursery.contains (h.readSlot s) = true) :
    Survives rt h nursery mature .minor old (h.readSlot s) := by
  rcases (hSound.contains_iff_condemned
      (hSound.startSlot_value hStandard hSlot)).mp hYoung with
    ⟨hNull, hIn⟩
  exact .seed (List.mem_map_of_mem hSlot) hNull hIn

/- A minor pass finds what it has reason to save. -/
theorem Sound.survives_of_promotable
    (hStandard : rt.Standard)
    (hSound : Sound rt h nursery mature old young)
    (hPromotable : Promotable rt h object) :
    Survives rt h nursery mature .minor old object := by
  induction hPromotable with
  | root hSlot hYoung =>
      exact
        hSound.survives_of_youngSlot hStandard
          (List.mem_append_left _ hSlot) hYoung
  | @remembered o a card hObject hField hCard hDirty hYoung =>
      rw [hStandard.fields] at hField
      have hNoted :=
        hSound.mem_rememberedFor.mpr
          ⟨o, hSound.isMature_iff.mp hObject, hField, card,
            hCard, hDirty⟩
      have hSlot : Slot.field a ∈ h.startSlots rt .minor old :=
        List.mem_append_right _ (List.mem_map_of_mem hNoted)
      have hFound :=
        hSound.survives_of_youngSlot hStandard hSlot hYoung
      exact hFound
  | field _ hField hYoung ih =>
      rcases (hSound.field_condemned_iff hStandard ih
          hField).mp hYoung with
        ⟨hNull, hIn⟩
      exact .step ih (List.mem_map_of_mem hField) hNull hIn

/- Every pass finds what it has to save. -/
theorem Survey.survives_iff_saves
    {slots : List Slot}
    (hStandard : rt.Standard)
    (hSound : Sound rt h nursery mature old young)
    (hSurvey : Survey rt h old young kind found slots)
    (hFound :
      ∀ o, o ∈ found ↔ Survives rt h nursery mature kind old o) :
    Survives rt h nursery mature kind old object ↔
      Saves rt h kind object := by
  have hWhole :
      Collection.kept kind old = [] → kind ≠ .minor →
        (Survives rt h nursery mature kind old object ↔
          Reachable rt h object) := by
    intro hKept hKind
    refine ⟨fun hSurvives => hSurvives.reachable hKind, ?_⟩
    intro hReachable
    have hMem := hSurvey.mem_of_reachable hStandard hReachable
    rw [hKept] at hMem
    exact (hFound object).mp hMem
  cases kind with
  | minor =>
      exact
        ⟨hSound.promotable_of_survives hStandard,
          hSound.survives_of_promotable hStandard⟩
  | major => exact hWhole rfl (by decide)
  | fullHeap => exact hWhole rfl (by decide)

theorem Survivors.nodup
    (hSurvivors : Survivors rt h kind objects) :
    objects.Nodup := by
  refine hSurvivors.order.imp ?_
  rintro o p (⟨hOld, hYoung⟩ | ⟨-, hLt⟩) rfl
  · exact Bool.false_ne_true (hOld.symm.trans hYoung)
  · exact Nat.lt_irrefl o hLt

theorem Survivors.unique
    (hSurvivors : Survivors rt h kind objects)
    (hOthers : Survivors rt h kind found) :
    objects = found := by
  refine
    List.Perm.eq_of_pairwise ?_ hSurvivors.order hOthers.order
      ((List.perm_ext_iff_of_nodup hSurvivors.nodup
        hOthers.nodup).mpr fun o =>
          (hSurvivors.saved o).trans (hOthers.saved o).symm)
  intro o p _ _ hFirst hSecond
  unfold PlacedBefore at hFirst hSecond
  rcases hFirst with ⟨hOld, hYoung⟩ | ⟨hSame, hLt⟩
  · rw [hOld, hYoung] at hSecond
    simp at hSecond
  · rcases hSecond with ⟨hOld, hYoung⟩ | ⟨-, hGt⟩
    · rw [hOld, hYoung] at hSame
      cases hSame
    · omega

/- All lists of the survivors take up the same number of bytes. -/
theorem Survivors.bytesOf_eq
    (hSurvivors : Survivors rt h kind objects)
    (hNodup : found.Nodup)
    (hFound : ∀ o, o ∈ found ↔ Saves rt h kind o) :
    h.bytesOf found = h.bytesOf objects := by
  unfold bytesOf
  refine Nat.le_antisymm ?_ ?_
  · exact
      Collection.total_le_of_subset _ hNodup fun o ho =>
        (hSurvivors.saved o).mpr ((hFound o).mp ho)
  · exact
      Collection.total_le_of_subset _ hSurvivors.nodup
        fun o ho => (hFound o).mpr ((hSurvivors.saved o).mp ho)

/- The order in which survivors are placed is that order. -/
theorem Sound.pairwise_placedBefore
    (hSound : Sound rt h nursery mature old young)
    (hPlaced :
      Sound.placed rt h nursery mature kind old =
        h.sized objects)
    (hNodup : objects.Nodup) :
    objects.Pairwise h.PlacedBefore := by
  have hOrder :=
    Collection.pairwise_inOrder nursery
      (Collection.findLive rt h.memory
        (Collection.condemned kind nursery mature)
        ((h.startSlots rt kind old).map h.readSlot))
  change (Sound.placed rt h nursery mature kind old).Pairwise _
    at hOrder
  unfold sized at hPlaced
  rw [hPlaced, List.pairwise_map] at hOrder
  refine (hOrder.and hNodup).imp ?_
  rintro o p ⟨hPrecedes, hNe⟩
  unfold PlacedBefore
  rw [hSound.shape.nursery_eq]
  unfold Collection.precedes at hPrecedes
  dsimp only at hPrecedes
  cases hO : nursery.contains o <;>
    cases hP : nursery.contains p <;>
    simp [hO, hP] at hPrecedes ⊢ <;> omega

/- Every pass has a list of objects to save. -/
theorem Sound.exists_survivors
    (hStandard : rt.Standard)
    (hSound : Sound rt h nursery mature old young)
    (hAllowed : Collection.Allowed kind young) :
    ∃ objects, Survivors rt h kind objects := by
  rcases Sound.placed_spec rt h nursery mature kind old with
    ⟨found, hPlaced, hNodup, hFound⟩
  have hSurvey :=
    hSound.survey hStandard hAllowed hPlaced hNodup hFound
  exact
    ⟨found,
      fun o =>
        (hFound o).trans
          (hSurvey.survives_iff_saves hStandard hSound hFound),
      hSound.pairwise_placedBefore hPlaced hNodup⟩

------------------------------------------------------------
-- Passes
------------------------------------------------------------

namespace Pass

/- The objects that a pass found are those it has to save. -/
theorem survivors_found
    (hPass :
      Pass rt h g nursery mature nursery' mature' old young kind
        found moves start table) :
    Survivors rt h kind found := by
  have hMove := hPass.relocation
  have hNodup := (List.nodup_append.mp hMove.survey.nodup).2.1
  exact
    ⟨fun o =>
      (hPass.survivors o).trans
        (hMove.survey.survives_iff_saves hMove.standard
          hMove.sound hPass.survivors),
      hMove.sound.pairwise_placedBefore hPass.placed hNodup⟩

/- The survivors of a pass are packed one after the other. -/
theorem packs
    (hPass :
      Pass rt h g nursery mature nursery' mature' old young kind
        found moves start table) :
    Packs h g found start (Collection.forward moves) := by
  have hMove := hPass.relocation
  have hSettled := hPass.settled
  have hShape := hPass.sound.shape
  constructor
  · intro before object behind hFound
    have hMem :=
      Collection.mem_pack start object
        (Object.size h.memory object) (h.sized before)
        (h.sized behind)
    have hSized :
        h.sized before ++
            (object, Object.size h.memory object) ::
              h.sized behind =
          h.sized found := by
      rw [hFound]
      unfold sized
      rw [List.map_append, List.map_cons]
    rw [hSized, ← hSettled.packed] at hMem
    have hDest :=
      Collection.forward_of_mem hMove.nodup_sources hMem
    rw [liveBytes_sized] at hDest
    exact hDest
  · exact fun o ho =>
      hSettled.carried hMove (List.mem_append_right _ ho)
  · rw [hShape.mature_eq, hSettled.mark, liveBytes_sized]
    rfl
  · rw [hShape.nursery_eq]
    unfold Belt.isEmpty
    rw [beq_iff_eq]
    exact hSettled.empty

/- A pass that succeeded had room for what it had to save. -/
theorem fits
    (hPass :
      Pass rt h g nursery mature nursery' mature' old young kind
        found moves start table) :
    h.bytesOf found ≤ h.roomFor kind := by
  have hMove := hPass.relocation
  have hMark := hMove.sound.shape.fits.matureMark
  have hNodup := (List.nodup_append.mp hMove.survey.nodup).2.1
  have hTiles := Collection.total_tiles hMove.sound.oldTiles
  have hLands := hPass.lands
  rw [liveBytes_sized] at hLands
  unfold bytesOf
  cases hLands with
  | append hKind hRoom =>
      subst hKind
      unfold roomFor Belt.remaining
      rw [hMove.sound.shape.mature_eq]
      dsimp only
      omega
  | evacuate hKind _ =>
      -- only mature objects are condemned, and they fit already
      subst hKind
      have hLe :=
        Collection.total_le_of_subset (Object.size h.memory)
          hNodup hMove.survey.condemned
      change _ ≤ total (old.map _) at hLe
      unfold roomFor Belt.size
      rw [hMove.sound.shape.mature_eq]
      dsimp only
      omega
  | slide hKind _ hRoom =>
      have hSize : h.roomFor kind = mature.size := by
        rw [← hMove.sound.shape.mature_eq]
        cases kind with
        | minor => exact absurd rfl hKind
        | major => rfl
        | fullHeap => rfl
      rw [hSize]
      unfold Belt.size
      omega

/- A minor pass appends to the mature objects. -/
theorem reclaims_minor
    (hPass :
      Pass rt h g nursery mature nursery' mature' old young
        .minor found moves start table) :
    Reclaims rt h g found (Collection.forward moves)
      .minor := by
  have hMove := hPass.relocation
  have hPacks := hPass.packs
  have hMark := hPass.settled.mark
  have hObjects := hPass.sound.matureObjects
  have hAfter := hPass.sound.shape.mature_eq
  have hBefore := hMove.sound.shape.mature_eq
  cases hPass.lands with
  | evacuate hKind _ => cases hKind
  | slide hKind _ _ => exact absurd rfl hKind
  | append _ _ =>
      have hStart : start = h.mature.mark := by
        rw [hBefore]
        exact (Nat.add_right_cancel hMark).symm
      rw [hStart] at hPacks
      refine .appended hPacks ?_ ?_
      · rw [hAfter, hBefore]
        rfl
      · intro objects hOld
        rw [hMove.sound.matureObjects_eq hOld]
        have hStay :
            ∀ o ∈ old, Collection.forward moves o = o :=
          fun o ho =>
            hMove.forward_of_not_found
              (hMove.survey.not_mem_found ho)
        have hSame : old.map (Collection.forward moves) = old :=
          (List.map_congr_left hStay).trans (List.map_id _)
        change
          g.MatureObjects
            ((old ++ found).map (Collection.forward moves))
          at hObjects
        rw [List.map_append, hSame] at hObjects
        exact
          ⟨hObjects, fun o ho =>
            ⟨hStay o ho,
              hPass.settled.carried hMove
                (List.mem_append_left _ ho)⟩⟩

/-
  A full-heap pass or a major one leaves the reachable objects
  and no others.
-/
theorem reclaims_whole
    (hKind : kind ≠ .minor)
    (hPass :
      Pass rt h g nursery mature nursery' mature' old young kind
        found moves start table) :
    Reclaims rt h g found (Collection.forward moves) kind := by
  have hMove := hPass.relocation
  have hPacks := hPass.packs
  have hObjects := hPass.sound.matureObjects
  have hTiles := hPass.settled.keptTiles
  have hAfter := hPass.sound.shape.mature_eq
  have hKept : Collection.kept kind old = [] := by
    cases kind with
    | minor => exact absurd rfl hKind
    | major => rfl
    | fullHeap => rfl
  have hSaved :
      ∀ o, o ∈ found ↔ Reachable rt h o := by
    intro o
    refine (hPass.survivors_found.saved o).trans ?_
    cases kind with
    | minor => exact absurd rfl hKind
    | major => exact Iff.rfl
    | fullHeap => exact Iff.rfl
  rw [hKept] at hTiles hObjects
  have hStart : start = g.mature.start := by
    rw [hAfter]
    exact hTiles.start_eq.symm
  rw [hStart] at hPacks
  refine .compacted hKind hPacks ?_ hObjects ?_
  · rw [hAfter, hMove.sound.shape.mature_eq,
      hMove.sound.shape.nursery_eq]
    cases hPass.lands with
    | append hMinor _ => exact absurd hMinor hKind
    | evacuate hMajor _ => exact Or.inr ⟨hMajor, rfl⟩
    | slide _ _ _ => exact Or.inl rfl
  · intro p
    rw [List.mem_map]
    constructor
    · rintro ⟨o, ho, rfl⟩
      exact
        hPass.carries.reachable_image hMove.standard
          ((hSaved o).mp ho)
    · intro hReachable
      rcases hPass.carries.reachable_preimage hMove.standard
          hReachable with
        ⟨o, ho, rfl⟩
      exact ⟨o, (hSaved o).mpr ho, rfl⟩

/- A pass reclaims exactly what it has no reason to save. -/
theorem reclaims
    (hPass :
      Pass rt h g nursery mature nursery' mature' old young kind
        found moves start table) :
    Reclaims rt h g found (Collection.forward moves) kind := by
  by_cases hKind : kind = .minor
  · subst hKind
    exact hPass.reclaims_minor
  · exact hPass.reclaims_whole hKind

/-
  An object of the nursery leaves it, unless there is none
  because the mature objects are evacuated into its belt.
-/
theorem leaves_nursery
    (hPass :
      Pass rt h g nursery mature nursery' mature' old young kind
        found moves start table)
    {move : Collection.Move}
    (hIn : move ∈ moves)
    (hYoung : nursery.contains move.source = true) :
    nursery.contains move.dest = false := by
  have hMove := hPass.relocation
  have hBounds := hMove.sound.shape.fits.bounds
  have hMark := hPass.settled.fits.matureMark
  have hFound := (hMove.routes.size_eq hIn).1
  have hMem :=
    List.mem_append_right (Collection.kept kind old) hFound
  have hMember := hMove.survey.members hMem
  have hHeader := (hMove.sound.proper hMember).header_le
  have hDest := hPass.settled.forward_bounds hMove hMem
  rw [Collection.forward_of_mem hMove.nodup_sources hIn]
    at hDest
  have hApart :
      mature'.start = mature.start →
        mature'.stop = mature.stop →
          nursery.contains move.dest = false := by
    intro hStart hStop
    rw [Bool.eq_false_iff, Ne, Belt.contains_iff]
    omega
  cases hPass.lands with
  | append _ _ => exact hApart rfl rfl
  | slide _ _ _ => exact hApart rfl rfl
  | evacuate hKind _ =>
      subst hKind
      have hOld := hMove.survey.condemned move.source hFound
      rw [hMove.sound.nursery_contains_iff hMember] at hYoung
      exact absurd hOld (hMove.sound.not_mem_old hYoung)

/- The bytes that a pass promotes are those of the nursery. -/
theorem promotedBytes_eq
    (hPass :
      Pass rt h g nursery mature nursery' mature' old young kind
        found moves start table) :
    Collection.promotedBytes nursery moves =
      h.bytesOf (h.inNursery found) := by
  have hMove := hPass.relocation
  let count (x : Collection.LiveObject) : Nat :=
    if nursery.contains x.1 then x.2 else 0
  have hEach :
      ∀ move ∈ moves,
        (if nursery.contains move.source &&
            !nursery.contains move.dest
          then move.size else 0) =
          count (move.source, move.size) := by
    intro move hIn
    unfold count
    dsimp only
    cases hYoung : nursery.contains move.source with
    | false => rfl
    | true => rw [hPass.leaves_nursery hIn hYoung]; rfl
  calc
    Collection.promotedBytes nursery moves =
        total
          (moves.map fun move =>
            count (move.source, move.size)) :=
      congrArg total (List.map_congr_left hEach)
    _ = total ((h.sized found).map count) := by
      unfold sized
      rw [← hMove.routes.sources, List.map_map]
      rfl
    _ = total
          (found.map fun o =>
            if nursery.contains o then Object.size h.memory o
            else 0) := by
      unfold sized
      rw [List.map_map]
      rfl
    _ = h.bytesOf (h.inNursery found) := by
      unfold bytesOf inNursery
      rw [hMove.sound.shape.nursery_eq]
      exact total_map_filter _ _ _

/-
  The promoted bytes of a pass are those of its survivors in the
  nursery.
-/
theorem promotedBytes_of_survivors
    (hPass :
      Pass rt h g nursery mature nursery' mature' old young kind
        found moves start table)
    (hSurvivors : Survivors rt h kind objects) :
    Collection.promotedBytes nursery moves =
      h.bytesOf (h.inNursery objects) := by
  rw [hPass.promotedBytes_eq,
    hSurvivors.unique hPass.survivors_found]

end Pass

/- A pass that failed had less room than it needed. -/
theorem Short.lacks
    (hKind : kind ≠ .major)
    (hStandard : rt.Standard)
    (hSound : Sound rt h nursery mature old young)
    (hShort : Short rt h nursery mature old young kind found)
    (hSurvivors : Survivors rt h kind objects) :
    h.roomFor kind < h.bytesOf objects := by
  have hNodup :=
    (List.nodup_append.mp hShort.survey.nodup).2.1
  have hBytes :=
    hSurvivors.bytesOf_eq hNodup fun o =>
      (hShort.survivors o).trans
        (hShort.survey.survives_iff_saves hStandard hSound
          hShort.survivors)
  have hTight := hShort.tight
  rw [liveBytes_sized] at hTight
  rw [← hBytes]
  unfold roomFor
  rw [hSound.shape.mature_eq]
  cases kind with
  | minor => exact hTight
  | major => exact absurd rfl hKind
  | fullHeap => exact hTight

------------------------------------------------------------
-- Promoted Bytes
------------------------------------------------------------

variable {bytes : Nat}
variable {success : Bool}
variable {outcome : Except Collection.Shortfall Collection.Summary}

/- The bytes that promoting came to; none where it is stuck. -/
def promotedIn :
    Except Collection.Shortfall Collection.Summary → Nat
| .ok summary => summary.promotedBytes
| .error _ => 0

/- No pass counts promoted bytes by itself. -/
theorem Promotes.counted_eq
    (hPromotes :
      Promotes rt h nursery mature old young outcome g nursery'
        mature' old' young') :
    g.stats.promotedBytes = h.stats.promotedBytes := by
  cases hPromotes with
  | minor hPass => rw [hPass.rest.stats]
  | fullHeap _ hPass => rw [hPass.rest.stats]; rfl
  | stuck _ _ => rfl

/- Where a minor pass fits, promoting comes to what it saves. -/
theorem Promotes.promotedIn_minor
    (hStandard : rt.Standard)
    (hSound : Sound rt h nursery mature old young)
    (hPromotes :
      Promotes rt h nursery mature old young outcome g nursery'
        mature' old' young')
    (hSurvivors : Survivors rt h .minor objects)
    (hFits : h.bytesOf objects ≤ h.roomFor .minor) :
    promotedIn outcome = h.bytesOf (h.inNursery objects) := by
  have hNotShort :
      ∀ {found},
        ¬ Short rt h nursery mature old young .minor found := by
    intro found hShort
    exact
      absurd hFits
        (Nat.not_le_of_lt
          (hShort.lacks (by decide) hStandard hSound hSurvivors))
  cases hPromotes with
  | minor hPass => exact hPass.promotedBytes_of_survivors hSurvivors
  | fullHeap hShort _ => exact absurd hShort hNotShort
  | stuck hShort _ => exact absurd hShort hNotShort

/-
  Where a minor pass does not fit but a full-heap one does, it
  comes to what that one saves.
-/
theorem Promotes.promotedIn_fullHeap
    (hStandard : rt.Standard)
    (hSound : Sound rt h nursery mature old young)
    (hPromotes :
      Promotes rt h nursery mature old young outcome g nursery'
        mature' old' young')
    (hShort : Short rt h nursery mature old young .minor found)
    (hSurvivors : Survivors rt h.escalated .fullHeap objects)
    (hFits :
      h.escalated.bytesOf objects ≤
        h.escalated.roomFor .fullHeap) :
    promotedIn outcome =
      h.escalated.bytesOf (h.escalated.inNursery objects) := by
  cases hPromotes with
  | minor hPass =>
      have hLacks :=
        hShort.lacks (by decide) hStandard hSound
          hPass.survivors_found
      exact absurd hPass.fits (Nat.not_le_of_lt hLacks)
  | fullHeap _ hPass =>
      exact hPass.promotedBytes_of_survivors hSurvivors
  | stuck _ hStuck =>
      have hLacks :=
        hStuck.lacks (by decide) hStandard
          (sameObjects_escalated.sound hSound) hSurvivors
      exact absurd hFits (Nat.not_le_of_lt hLacks)

/- A minor collection counts what its promoting came to. -/
theorem MinorCollects.counts
    (hMinor :
      MinorCollects rt bytes h nursery mature old young success
        g nursery' mature' old' young') :
    ∃ outcome k,
      Promotes rt (h.counted countMinor) nursery.takeSnapshot
          mature.takeSnapshot old young outcome k nursery'
          mature' old' young' ∧
        g.stats.promotedBytes =
          h.stats.promotedBytes + promotedIn outcome := by
  cases hMinor with
  | promoted hPromotes =>
      exact
        ⟨_, _, hPromotes,
          congrArg (· + _) hPromotes.counted_eq⟩
  | stuck hPromotes => exact ⟨_, _, hPromotes, hPromotes.counted_eq⟩

/- A major collection counts none. -/
theorem MajorCollects.counts
    (hMajor :
      MajorCollects rt bytes h nursery mature old success g
        nursery' mature' old') :
    g.stats.promotedBytes = h.stats.promotedBytes := by
  cases hMajor with
  | roomy hPass _ =>
      have hStats := hPass.rest.stats
      exact (congrArg CollectionStats.promotedBytes hStats :)
  | tight hPass _ =>
      have hStats := hPass.rest.stats
      exact (congrArg CollectionStats.promotedBytes hStats :)

/- Clearing the cards counts nothing. -/
theorem stats_cleared :
    (h.cleared nursery).stats = h.stats := by
  unfold cleared
  split <;> rfl

/- A whole collection counts what its promoting came to. -/
theorem Collects.counts
    (hFree : h.outOfMemory = false)
    (hCollects :
      Collects rt bytes h nursery mature old young success g
        nursery' mature' old' young') :
    ∃ outcome k nursery₁ mature₁ old₁ young₁,
      Promotes rt (h.counted countMinor) nursery.takeSnapshot
          mature.takeSnapshot old young outcome k nursery₁
          mature₁ old₁ young₁ ∧
        g.stats.promotedBytes =
          h.stats.promotedBytes + promotedIn outcome := by
  cases hCollects with
  | skipped hLatched =>
      exact
        absurd (hFree.symm.trans hLatched) Bool.false_ne_true
  | minor _ hMinor _ =>
      rcases hMinor.counts with ⟨_, _, hPromotes, hCount⟩
      rw [stats_cleared]
      exact ⟨_, _, _, _, _, _, hPromotes, hCount⟩
  | major _ hMinor _ hMajor =>
      rcases hMinor.counts with ⟨_, _, hPromotes, hCount⟩
      rw [stats_cleared, hMajor.counts]
      exact ⟨_, _, _, _, _, _, hPromotes, hCount⟩

end Heap

------------------------------------------------------------
-- Passes of Collections
------------------------------------------------------------

namespace HeapM

open Heap

/-
  The passes that a collection may come to, each with the state
  that it starts from: a minor pass once the collection has been
  opened, a full-heap pass once the minor one has failed, and a
  major pass once the collection goes on to a major one.
-/
inductive Begins
    (rt : Runtime)
    (r : Logged HeapRun) :
    Collection.Kind → Logged HeapRun → Prop where
| minor
    {epoch : Nat}
    {begun : Logged HeapRun}
    (hFree : r.state.heap.outOfMemory = false)
    (hOpen : openMinor r = (.ok epoch, begun)) :
    Begins rt r .minor begun
| fullHeap
    {failure : Collection.Shortfall}
    {begun tried escalated : Logged HeapRun}
    (hMinor : Begins rt r .minor begun)
    (hFail :
      runCollection rt .minor begun =
        (.ok (.error failure), tried))
    (hEscalate : escalate failure tried = (.ok (), escalated)) :
    Begins rt r .fullHeap escalated
| major
    {bytes epoch : Nat}
    {mid begun : Logged HeapRun}
    (hTurns : TurnsMajor rt bytes r mid)
    (hOpen : openMajor mid = (.ok epoch, begun)) :
    Begins rt r .major begun

variable {rt : Runtime}
variable {r begun : Logged HeapRun}
variable {nursery mature : Belt}
variable {old young objects : List Nat}
variable {kind : Collection.Kind}

namespace Begins

/- A minor pass starts once the collection is counted. -/
theorem heap_minor
    (hBegins : Begins rt r .minor begun) :
    r.state.heap.outOfMemory = false ∧
      begun.state.heap = r.state.heap.counted countMinor := by
  cases hBegins with
  | minor hFree hOpen =>
      exact ⟨hFree, (yields_openMinor.unique hOpen).2.1⟩

/- A full-heap pass starts once a minor one was short of room. -/
theorem heap_fullHeap
    (hStandard : rt.Standard)
    (hSound : Sound rt r.state.heap nursery mature old young)
    (hBegins : Begins rt r .fullHeap begun) :
    r.state.heap.outOfMemory = false ∧
      begun.state.heap =
        (r.state.heap.counted countMinor).escalated ∧
      ∃ found,
        Short rt (r.state.heap.counted countMinor)
          nursery.takeSnapshot mature.takeSnapshot old young
          .minor found := by
  cases hBegins with
  | fullHeap hMinor hFail hEscalate =>
      rcases hMinor.heap_minor with ⟨hFree, hHeap⟩
      have hCounted := (hSound.counted hStandard countMinor).sound
      rw [← hHeap] at hCounted ⊢
      rcases yields_runCollection .minor hStandard hCounted
          (fun hKind => nomatch hKind) with
        ⟨shortfall, found, hRun, hShort⟩ |
          ⟨g, _, _, _, _, _, _, hRun, -⟩
      · have hTried := (hRun.unique hFail).2.1
        have hAgain := ((yields_escalate _).unique hEscalate).2.1
        rw [hTried] at hAgain
        exact ⟨hFree, hAgain, found, hShort⟩
      · cases (hRun.unique hFail).1

/- Every pass starts from a sound heap. -/
theorem sound
    (hStandard : rt.Standard)
    (hSound : Sound rt r.state.heap nursery mature old young)
    (hBegins : Begins rt r kind begun) :
    ∃ nursery' mature' old' young',
      Sound rt begun.state.heap nursery' mature' old' young' ∧
        Collection.Allowed kind young' := by
  have hCounted := (hSound.counted hStandard countMinor).sound
  cases kind with
  | minor =>
      rw [hBegins.heap_minor.2]
      exact ⟨_, _, _, _, hCounted, nofun⟩
  | fullHeap =>
      rw [(hBegins.heap_fullHeap hStandard hSound).2.1]
      exact
        ⟨_, _, _, _, sameObjects_escalated.sound hCounted,
          nofun⟩
  | major =>
      cases hBegins with
      | major hTurns hOpen =>
          rcases Program.sound_of_turnsMajor hStandard hSound hTurns with
            ⟨nursery', mature', old', -, hMid, -⟩
          rw [(yields_openMajor.unique hOpen).2.1]
          exact
            ⟨_, _, _, _,
              (hMid.counted hStandard countMajor).sound,
              fun _ => rfl⟩

/-
  Where the objects that a minor or full-heap pass saves do fit,
  a whole collection counts those of the nursery as promoted.
-/
theorem counts
    (hKind : kind ≠ .major)
    (hStandard : rt.Standard)
    (hSound : Sound rt r.state.heap nursery mature old young)
    (hBegins : Begins rt r kind begun)
    (hSurvivors : Survivors rt begun.state.heap kind objects)
    (hFits :
      begun.state.heap.bytesOf objects ≤
        begun.state.heap.roomFor kind)
    (bytes : Nat) :
    ∃ answer t,
      collectGarbage rt bytes r = (.ok answer, t) ∧
        t.state.heap.stats.promotedBytes =
          r.state.heap.stats.promotedBytes +
            begun.state.heap.bytesOf
              (begun.state.heap.inNursery objects) := by
  have hCounted := (hSound.counted hStandard countMinor).sound
  rcases yields_collects bytes hStandard hSound with
    ⟨answer, g, _, _, _, _, hRun, hCollects⟩
  rcases hRun r rfl with ⟨t, hCollect, rfl, -⟩
  refine ⟨answer, t, hCollect, ?_⟩
  cases kind with
  | major => exact absurd rfl hKind
  | minor =>
      rcases hBegins.heap_minor with ⟨hFree, hHeap⟩
      rcases hCollects.counts hFree with
        ⟨_, _, _, _, _, _, hPromotes, hCount⟩
      rw [hHeap] at hSurvivors hFits ⊢
      rw [hCount,
        hPromotes.promotedIn_minor hStandard hCounted hSurvivors
          hFits]
  | fullHeap =>
      rcases hBegins.heap_fullHeap hStandard hSound with
        ⟨hFree, hHeap, found, hShort⟩
      rcases hCollects.counts hFree with
        ⟨_, _, _, _, _, _, hPromotes, hCount⟩
      rw [hHeap] at hSurvivors hFits ⊢
      rw [hCount,
        hPromotes.promotedIn_fullHeap hStandard hCounted hShort
          hSurvivors hFits]

end Begins

/-
  What a pass comes to that starts from a state in the course of
  a collection.  Where the objects that it has to save do not
  fit, it reports that and changes nothing, which does not happen
  in a major pass.  Where they fit, it reclaims everything else
  and tells how many bytes left the nursery, and a minor or a
  full-heap pass has them counted.
-/
structure ReclaimsExactly
    (rt : Runtime)
    (r begun : Logged HeapRun)
    (kind : Collection.Kind)
    (objects : List Nat) : Prop where
  survivors : Survivors rt begun.state.heap kind objects
  major :
    kind = .major →
      begun.state.heap.bytesOf objects ≤
        begun.state.heap.roomFor kind
  short :
    begun.state.heap.roomFor kind <
        begun.state.heap.bytesOf objects →
      ∃ failure t,
        runCollection rt kind begun =
            (.ok (.error failure), t) ∧
          t.state.heap = begun.state.heap
  fits :
    begun.state.heap.bytesOf objects ≤
        begun.state.heap.roomFor kind →
      ∃ f summary t,
        runCollection rt kind begun =
            (.ok (.ok summary), t) ∧
          Reclaims rt begun.state.heap t.state.heap objects f
            kind ∧
          summary.promotedBytes =
            begun.state.heap.bytesOf
              (begun.state.heap.inNursery objects) ∧
          t.state.heap.stats = begun.state.heap.stats
  counted :
    kind ≠ .major →
      begun.state.heap.bytesOf objects ≤
          begun.state.heap.roomFor kind →
        ∀ bytes, ∃ answer t,
          collectGarbage rt bytes r = (.ok answer, t) ∧
            t.state.heap.stats.promotedBytes =
              r.state.heap.stats.promotedBytes +
                begun.state.heap.bytesOf
                  (begun.state.heap.inNursery objects)

/- Every pass that a collection of a sound heap comes to does. -/
theorem Begins.reclaimsExactly
    (hStandard : rt.Standard)
    (hSound : Sound rt r.state.heap nursery mature old young)
    (hBegins : Begins rt r kind begun) :
    ∃ objects, ReclaimsExactly rt r begun kind objects := by
  rcases hBegins.sound hStandard hSound with
    ⟨nursery', mature', old', young', hBegun, hAllowed⟩
  rcases hBegun.exists_survivors hStandard hAllowed with
    ⟨objects, hSurvivors⟩
  refine ⟨objects, hSurvivors, ?_, ?_, ?_, ?_⟩
  · rintro rfl
    rw [hAllowed rfl] at hBegun
    rcases yields_majorPass hStandard hBegun with
      ⟨_, _, _, _, _, _, _, -, hPass⟩
    rw [hSurvivors.unique hPass.survivors_found]
    exact hPass.fits
  · intro hLacks
    rcases yields_runCollection kind hStandard hBegun hAllowed
      with
      ⟨failure, _, hRun, -⟩ |
        ⟨_, _, _, found, _, _, _, -, hPass⟩
    · rcases hRun begun rfl with ⟨t, hEnd, hSame, -⟩
      exact ⟨failure, t, hEnd, hSame⟩
    · rw [hSurvivors.unique hPass.survivors_found] at hLacks
      exact absurd hPass.fits (Nat.not_le_of_lt hLacks)
  · intro hFits
    rcases yields_runCollection kind hStandard hBegun hAllowed
      with
      ⟨failure, short, -, hShort⟩ |
        ⟨g, _, _, found, moves, _, _, hRun, hPass⟩
    · by_cases hKind : kind = .major
      · subst hKind
        rw [hAllowed rfl] at hBegun hShort
        exact absurd hShort hBegun.not_short_major
      · exact
          absurd hFits
            (Nat.not_le_of_lt
              (hShort.lacks hKind hStandard hBegun hSurvivors))
    · rcases hRun begun rfl with ⟨t, hEnd, rfl, -⟩
      have hReclaims := hPass.reclaims
      rw [← hSurvivors.unique hPass.survivors_found] at hReclaims
      exact
        ⟨_, _, t, hEnd, hReclaims,
          hPass.promotedBytes_of_survivors hSurvivors,
          hPass.rest.stats⟩
  · intro hKind hFits
    exact
      hBegins.counts hKind hStandard hSound hSurvivors hFits

end HeapM

------------------------------------------------------------
-- Collections of Programs
------------------------------------------------------------

namespace Program

open Heap

variable {rt : Runtime}
variable {s : State}

/-
  Every pass that a collection comes to, of any heap that a
  program reaches, reclaims exactly what it has no reason to
  save.
-/
theorem passes_reclaim_exactly
    (hReached : Reached rt s)
    {kind : Collection.Kind}
    {begun : Logged HeapRun}
    (hBegins : HeapM.Begins rt s.run kind begun) :
    ∃ objects,
      HeapM.ReclaimsExactly rt s.run begun kind objects := by
  rcases hReached.invariant with
    ⟨nursery, mature, old, young, hSound, -⟩
  exact hBegins.reclaimsExactly hReached.standard hSound

/-
  The minor pass of the small heap and the major pass of the
  half full one leave exactly what they have to save.
-/
theorem passes_reclaim_exactly_small :
    (∃ begun,
      HeapM.Begins {} small.run .minor begun ∧
        ∃ objects,
          HeapM.ReclaimsExactly {} small.run begun .minor
            objects) ∧
    ∃ begun,
      HeapM.Begins {} halfFull.run .major begun ∧
        ∃ objects,
          HeapM.ReclaimsExactly {} halfFull.run begun .major
            objects := by
  constructor
  · rcases HeapM.yields_openMinor small.run rfl with
      ⟨begun, hOpen, -⟩
    have hBegins : HeapM.Begins {} small.run .minor begun :=
      .minor (by decide +kernel) hOpen
    exact
      ⟨begun, hBegins,
        passes_reclaim_exactly reached_small hBegins⟩
  · rcases turnsMajor_halfFull with ⟨mid, hTurns⟩
    rcases HeapM.yields_openMajor mid rfl with
      ⟨begun, hOpen, -⟩
    have hBegins : HeapM.Begins {} halfFull.run .major begun :=
      .major hTurns hOpen
    exact
      ⟨begun, hBegins,
        passes_reclaim_exactly reached_halfFull hBegins⟩

end Program

end BeltHeap
