import BeltHeap.Proofs.RootSlots

/-
  One heap carries over the object graph of another: a map takes
  every object that is reachable from the root slots to an
  object of the same size with the same payload, and references
  to references.

  Main declarations:
    * `Object.Carried`
    * `Heap.Reachable`
    * `Heap.Carries`
    * `Heap.Carries.reachable_image`
    * `Heap.Carries.reachable_preimage`
    * `Heap.Carries.trans`
-/

------------------------------------------------------------
-- Single Objects
------------------------------------------------------------

namespace BeltHeap

namespace Object

/-
  The map takes an object of one memory to an object of another
  one: it has the same size, as many references, each of them
  taken along by the map, and the same bytes behind them.
-/
structure Carried
    (m : Memory)
    (object : Nat)
    (n : Memory)
    (f : Nat → Nat) : Prop where
  size : size n (f object) = size m object
  refCount : refCount n (f object) = refCount m object
  fields :
    ∀ i, i < Object.refCount m object →
      n.load (field (f object) i) = f (m.load (field object i))
  payload :
    ∀ k, bytesFor (Object.refCount m object) 0 ≤ k →
      k < Object.size m object →
        n.byte (f object + k) = m.byte (object + k)

namespace Carried

variable {m n o : Memory}
variable {object : Nat}
variable {f g : Nat → Nat}

theorem refl : Carried m object m id where
  size := rfl
  refCount := rfl
  fields := fun _ _ => rfl
  payload := fun _ _ _ => rfl

theorem trans
    (h₁ : Carried m object n f)
    (h₂ : Carried n (f object) o g) :
    Carried m object o (g ∘ f) where
  size := h₂.size.trans h₁.size
  refCount := h₂.refCount.trans h₁.refCount
  fields := by
    intro i hi
    rw [Function.comp_apply, Function.comp_apply,
      ← h₁.fields i hi]
    exact h₂.fields i (by rw [h₁.refCount]; exact hi)
  payload := by
    intro k hLow hHigh
    rw [Function.comp_apply, ← h₁.payload k hLow hHigh]
    apply h₂.payload k
    · rw [h₁.refCount]
      exact hLow
    · rw [h₁.size]
      exact hHigh

/- A carried object is proper where the original is. -/
theorem proper
    (h : Carried m object n f)
    (hProper : Proper m object) :
    Proper n (f object) :=
  hProper.congr h.size h.refCount

/- Bytes elsewhere do not matter to a carried object. -/
theorem copied
    (h : Carried m object n f)
    (hProper : Proper m object)
    (hBytes :
      n.Matches (f object) o (f object)
        (Object.size m object)) :
    Carried m object o f := by
  have hCarried := h.proper hProper
  rw [← h.size] at hBytes
  constructor
  · exact (hCarried.size_eq hBytes).trans h.size
  · exact (hCarried.refCount_eq hBytes).trans h.refCount
  · intro i hi
    rw [← h.fields i hi]
    apply hCarried.load_field hBytes
    rw [h.refCount]
    exact hi
  · intro k hLow hHigh
    rw [← h.payload k hLow hHigh]
    rw [← h.size] at hHigh
    exact (hBytes k hHigh).symm

end Carried

end Object

------------------------------------------------------------
-- Reachable Objects
------------------------------------------------------------

namespace Heap

/-
  An object is reachable when a root slot or a field of a
  reachable object refers to it.
-/
inductive Reachable
    (rt : Runtime)
    (h : Heap) : Nat → Prop where
| root
    {s : Slot}
    (hSlot : s ∈ h.rootSlots rt)
    (hNull : h.readSlot s ≠ 0) :
    Reachable rt h (h.readSlot s)
| field
    {object a : Nat}
    (hObject : Reachable rt h object)
    (hField : a ∈ rt.fields h.memory object)
    (hNull : h.memory.load a ≠ 0) :
    Reachable rt h (h.memory.load a)

variable {rt : Runtime}
variable {h g k : Heap}
variable {object : Nat}

/- No reachable object is null. -/
theorem Reachable.ne_null
    (hObject : Reachable rt h object) :
    object ≠ 0 := by
  cases hObject with
  | root _ hNull => exact hNull
  | field _ _ hNull => exact hNull

/-
  The map takes the graph of reachable objects of one heap to
  that of another, one by one.
-/
structure Carries
    (rt : Runtime)
    (f : Nat → Nat)
    (h g : Heap) : Prop where
  null : f 0 = 0
  rootSlots : g.rootSlots rt = h.rootSlots rt
  roots :
    ∀ s ∈ h.rootSlots rt, g.readSlot s = f (h.readSlot s)
  objects :
    ∀ object, Reachable rt h object →
      Object.Carried h.memory object g.memory f
  live :
    ∀ object, Reachable rt h object → f object ≠ 0
  injective :
    ∀ object other, Reachable rt h object →
      Reachable rt h other →
        f object = f other → object = other

namespace Carries

variable {f f₁ f₂ : Nat → Nat}

theorem of_eq
    (hMemory : g.memory = h.memory)
    (hRoots : g.roots = h.roots)
    (hRegisters : g.registers = h.registers) :
    Carries rt id h g where
  null := rfl
  rootSlots := by
    unfold Heap.rootSlots
    rw [hRoots]
  roots := by
    intro s _
    cases s with
    | entry k =>
        unfold readSlot
        rw [hRoots]
        rfl
    | register n =>
        unfold readSlot
        rw [hRegisters]
        rfl
    | field a =>
        unfold readSlot
        rw [hMemory]
        rfl
  objects := by
    intro object _
    rw [hMemory]
    exact Object.Carried.refl
  live := fun _ hObject => hObject.ne_null
  injective := fun _ _ _ _ hEq => hEq

/- A field of a carried object. -/
theorem load_field
    (hStandard : rt.Standard)
    (hCarries : Carries rt f h g)
    (hObject : Reachable rt h object)
    {i : Nat}
    (hi : i < Object.refCount h.memory object) :
    g.memory.load (Object.field (f object) i) =
        f (h.memory.load (Object.field object i)) ∧
      (h.memory.load (Object.field object i) ≠ 0 →
        Reachable rt h
          (h.memory.load (Object.field object i))) := by
  refine ⟨(hCarries.objects object hObject).fields i hi, ?_⟩
  intro hNull
  refine Reachable.field hObject ?_ hNull
  rw [hStandard.fields]
  exact Object.mem_fields.mpr ⟨i, hi, rfl⟩

/- The image of a reachable object is reachable. -/
theorem reachable_image
    (hStandard : rt.Standard)
    (hCarries : Carries rt f h g)
    (hObject : Reachable rt h object) :
    Reachable rt g (f object) := by
  induction hObject with
  | @root s hSlot hNull =>
      have hLive := hCarries.live _ (Reachable.root hSlot hNull)
      rw [← hCarries.roots s hSlot] at hLive ⊢
      refine Reachable.root ?_ hLive
      rw [hCarries.rootSlots]
      exact hSlot
  | @field source a hSource hField hNull ih =>
      have hLive :=
        hCarries.live _ (Reachable.field hSource hField hNull)
      rw [hStandard.fields] at hField
      rcases Object.mem_fields.mp hField with ⟨i, hi, rfl⟩
      have hLoad := (hCarries.load_field hStandard hSource hi).1
      rw [← hLoad] at hLive ⊢
      refine Reachable.field ih ?_ hLive
      rw [hStandard.fields]
      refine Object.mem_fields.mpr ⟨i, ?_, rfl⟩
      rw [(hCarries.objects source hSource).refCount]
      exact hi

/- Every reachable object is the image of one. -/
theorem reachable_preimage
    (hStandard : rt.Standard)
    (hCarries : Carries rt f h g)
    (hObject : Reachable rt g object) :
    ∃ origin, Reachable rt h origin ∧ f origin = object := by
  induction hObject with
  | @root s hSlot hNull =>
      rw [hCarries.rootSlots] at hSlot
      have hRead := hCarries.roots s hSlot
      refine ⟨h.readSlot s, Reachable.root hSlot ?_, hRead.symm⟩
      intro hZero
      rw [hRead, hZero, hCarries.null] at hNull
      exact hNull rfl
  | @field source a _ hField hNull ih =>
      rcases ih with ⟨origin, hOrigin, rfl⟩
      rw [hStandard.fields] at hField
      rcases Object.mem_fields.mp hField with ⟨i, hi, rfl⟩
      rw [(hCarries.objects origin hOrigin).refCount] at hi
      rcases hCarries.load_field hStandard hOrigin hi with
        ⟨hLoad, hReach⟩
      refine ⟨_, hReach ?_, hLoad.symm⟩
      intro hZero
      rw [hLoad, hZero, hCarries.null] at hNull
      exact hNull rfl

theorem trans
    (hStandard : rt.Standard)
    (h₁ : Carries rt f₁ h g)
    (h₂ : Carries rt f₂ g k) :
    Carries rt (f₂ ∘ f₁) h k where
  null := by
    rw [Function.comp_apply, h₁.null, h₂.null]
  rootSlots := h₂.rootSlots.trans h₁.rootSlots
  roots := by
    intro s hs
    rw [Function.comp_apply, ← h₁.roots s hs]
    apply h₂.roots s
    rw [h₁.rootSlots]
    exact hs
  objects := fun object hObject =>
    (h₁.objects object hObject).trans
      (h₂.objects _ (h₁.reachable_image hStandard hObject))
  live := fun object hObject =>
    h₂.live _ (h₁.reachable_image hStandard hObject)
  injective := fun object other hObject hOther hEq =>
    h₁.injective object other hObject hOther
      (h₂.injective _ _
        (h₁.reachable_image hStandard hObject)
        (h₁.reachable_image hStandard hOther) hEq)

end Carries

end Heap

end BeltHeap
