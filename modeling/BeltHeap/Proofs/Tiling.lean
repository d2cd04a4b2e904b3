import BeltHeap.Heap.Object
import BeltHeap.Proofs.Loading

/-
  Objects that lie one after the other without gaps, as the
  allocated part of a belt is made of.

  Main declarations:
    * `Object.Proper`
    * `Object.Tiles`
    * `Object.Tiles.exists_cover`
    * `Object.Tiles.pairwise`
    * `Object.pairwise_fields`
-/

------------------------------------------------------------
-- Proper Objects
------------------------------------------------------------

namespace BeltHeap

namespace Object

/-
  An object has a size in whole words, and its header and its
  references fit in it.
-/
structure Proper
    (m : Memory)
    (object : Nat) : Prop where
  whole : size m object % Word.bytes = 0
  room : bytesFor (refCount m object) 0 ≤ size m object

namespace Proper

variable {m n : Memory}
variable {object other : Nat}

/- A proper object has room for its header. -/
theorem header_le
    (h : Proper m object) :
    16 ≤ size m object := by
  have hRoom := h.room
  unfold bytesFor headerWords Word.bytes at hRoom
  omega

/- The fields of a proper object lie behind its header. -/
theorem field_bounds
    (h : Proper m object)
    {i : Nat}
    (hi : i < refCount m object) :
    object + 16 ≤ field object i ∧
      field object i + Word.bytes ≤ object + size m object := by
  have hRoom := h.room
  unfold bytesFor headerWords Word.bytes at hRoom
  unfold field fieldOffset headerWords Word.bytes
  omega

end Proper

theorem mem_fields
    {m : Memory}
    {object a : Nat} :
    a ∈ fields m object ↔
      ∃ i, i < refCount m object ∧ field object i = a := by
  simp [fields]

/- The slots of a proper object lie behind its header. -/
theorem Proper.slot_bounds
    {m : Memory}
    {object a : Nat}
    (h : Proper m object)
    (ha : a ∈ fields m object) :
    object + 16 ≤ a ∧
      a + Word.bytes ≤ object + size m object := by
  rcases mem_fields.mp ha with ⟨i, hi, rfl⟩
  exact h.field_bounds hi

------------------------------------------------------------
-- Copied Objects
------------------------------------------------------------

/-
  A block of bytes that matches a proper object is an object of
  the same size and as many references.
-/
theorem Proper.size_eq
    {m n : Memory}
    {object other : Nat}
    (h : Proper m object)
    (hBytes : m.Matches object n other (size m object)) :
    size n other = size m object := by
  have hHeader := h.header_le
  have hWord :=
    hBytes.slice 0 Word.bytes
      (by unfold Word.bytes; omega)
  exact hWord.load_eq.symm

theorem Proper.refCount_eq
    {m n : Memory}
    {object other : Nat}
    (h : Proper m object)
    (hBytes : m.Matches object n other (size m object)) :
    refCount n other = refCount m object := by
  have hHeader := h.header_le
  have hWord :=
    hBytes.slice Word.bytes Word.bytes
      (by unfold Word.bytes; omega)
  exact hWord.load_eq.symm

theorem Proper.congr
    {m n : Memory}
    {object other : Nat}
    (h : Proper m object)
    (hSize : size n other = size m object)
    (hRefs : refCount n other = refCount m object) :
    Proper n other := by
  constructor
  · rw [hSize]
    exact h.whole
  · rw [hSize, hRefs]
    exact h.room

/- The fields of a copied object are loaded alike. -/
theorem Proper.load_field
    {m n : Memory}
    {object other : Nat}
    (h : Proper m object)
    (hBytes : m.Matches object n other (size m object))
    {i : Nat}
    (hi : i < refCount m object) :
    n.load (field other i) = m.load (field object i) := by
  have hBounds := h.field_bounds hi
  unfold field at hBounds ⊢
  have hWord :=
    hBytes.slice (fieldOffset i) Word.bytes (by omega)
  exact hWord.load_eq.symm

------------------------------------------------------------
-- Tilings
------------------------------------------------------------

/-
  The objects of a list lie one after the other from an address
  up to `stop`.
-/
inductive Tiles
    (m : Memory)
    (stop : Nat) : Nat → List Nat → Prop where
| nil : Tiles m stop stop []
| cons
    {object : Nat}
    {rest : List Nat}
    (hProper : Proper m object)
    (hRest : Tiles m stop (object + size m object) rest) :
    Tiles m stop object (object :: rest)

namespace Tiles

variable {m n : Memory}
variable {start mid stop : Nat}
variable {os ps : List Nat}

/- A tiling ends where it started or above. -/
theorem le
    (h : Tiles m stop start os) :
    start ≤ stop := by
  induction h with
  | nil => exact Nat.le_refl _
  | cons _ _ ih => omega

theorem start_eq
    (h : Tiles m stop start []) :
    start = stop := by
  cases h with
  | nil => rfl

/- The objects of a tiling are proper and lie within it. -/
theorem mem
    (h : Tiles m stop start os)
    {object : Nat}
    (hMem : object ∈ os) :
    Proper m object ∧ start ≤ object ∧
      object + size m object ≤ stop := by
  induction h with
  | nil => cases hMem
  | cons hProper hRest ih =>
      have hLe := hRest.le
      rcases List.mem_cons.mp hMem with hHead | hTail
      · subst hHead
        exact ⟨hProper, Nat.le_refl _, hLe⟩
      · rcases ih hTail with ⟨hProp, hLow, hHigh⟩
        exact ⟨hProp, by omega, hHigh⟩

/- The objects of a tiling are in order and do not overlap. -/
theorem pairwise
    (h : Tiles m stop start os) :
    os.Pairwise fun o p => o + size m o ≤ p := by
  induction h with
  | nil => exact List.Pairwise.nil
  | cons hProper hRest ih =>
      refine List.Pairwise.cons ?_ ih
      intro p hp
      exact (hRest.mem hp).2.1

/- Every address of a tiling is covered by one of its objects. -/
theorem exists_cover
    (h : Tiles m stop start os)
    {a : Nat}
    (hLow : start ≤ a)
    (hHigh : a < stop) :
    ∃ object ∈ os, object ≤ a ∧ a < object + size m object := by
  induction h with
  | nil => omega
  | @cons object rest hProper hRest ih =>
      by_cases hIn : a < object + size m object
      · exact ⟨object, List.mem_cons_self, hLow, hIn⟩
      · rcases ih (by omega) with ⟨p, hp, hCover⟩
        exact ⟨p, List.mem_cons_of_mem _ hp, hCover⟩

/- Adjacent tilings make one tiling. -/
theorem append
    (h₁ : Tiles m mid start os)
    (h₂ : Tiles m stop mid ps) :
    Tiles m stop start (os ++ ps) := by
  induction h₁ with
  | nil => exact h₂
  | cons hProper _ ih => exact Tiles.cons hProper ih

/- Any object of a tiling splits it in two. -/
theorem split
    (h : Tiles m stop start os)
    {object : Nat}
    (hMem : object ∈ os) :
    ∃ before behind,
      os = before ++ behind ∧
        Tiles m object start before ∧
        Tiles m stop object behind := by
  induction h with
  | nil => cases hMem
  | @cons first rest hProper hRest ih =>
      rcases List.mem_cons.mp hMem with hHead | hTail
      · rw [hHead]
        exact ⟨[], first :: rest, rfl, Tiles.nil,
          Tiles.cons hProper hRest⟩
      · rcases ih hTail with ⟨before, behind, hEq, hLow, hHigh⟩
        exact ⟨first :: before, behind,
          congrArg (first :: ·) hEq,
          Tiles.cons hProper hLow, hHigh⟩

/- The slots of a tiling lie within it. -/
theorem slot_bounds
    (h : Tiles m stop start os)
    {a : Nat}
    (ha : a ∈ os.flatMap (fields m)) :
    start ≤ a ∧ a < stop := by
  rcases List.mem_flatMap.mp ha with ⟨object, hObject, hField⟩
  rcases h.mem hObject with ⟨hProper, hLow, hHigh⟩
  have hSlot := hProper.slot_bounds hField
  unfold Word.bytes at hSlot
  omega

theorem congr
    (h : Tiles m stop start os)
    (hHeaders :
      ∀ object ∈ os,
        size n object = size m object ∧
          refCount n object = refCount m object) :
    Tiles n stop start os := by
  induction h with
  | nil => exact Tiles.nil
  | @cons object rest hProper hRest ih =>
      have hHeader := hHeaders object List.mem_cons_self
      refine Tiles.cons
        (hProper.congr hHeader.1 hHeader.2) ?_
      rw [hHeader.1]
      exact ih fun p hp => hHeaders p (List.mem_cons_of_mem _ hp)

theorem unique
    (h₁ : Tiles m stop start os)
    (h₂ : Tiles m stop start ps) :
    os = ps := by
  induction h₁ generalizing ps with
  | nil =>
      cases h₂ with
      | nil => rfl
      | cons hProper hRest =>
          have hHeader := hProper.header_le
          have hLe := hRest.le
          omega
  | @cons object rest hProper hRest ih =>
      have hHeader := hProper.header_le
      have hLe := hRest.le
      cases h₂ with
      | nil => omega
      | cons _ hOther => rw [ih hOther]

/- What tiles a part up to its end lies behind the rest. -/
theorem of_append_singleton
    {object : Nat}
    (h : Tiles m stop start (os ++ [object])) :
    Tiles m object start os := by
  induction os generalizing start with
  | nil =>
      cases h with
      | cons _ _ => exact Tiles.nil
  | cons first rest ih =>
      cases h with
      | cons hProper hRest => exact Tiles.cons hProper (ih hRest)

/- The same objects start from the same address. -/
theorem start_unique
    {first : Nat}
    (h₁ : Tiles m stop start os)
    (h₂ : Tiles n stop first os) :
    start = first := by
  cases h₁ with
  | nil => exact h₂.start_eq.symm
  | cons _ _ =>
      cases h₂ with
      | cons _ _ => rfl

/- Objects that tile two memories alike have the same sizes. -/
theorem size_unique
    (h₁ : Tiles m stop start os)
    (h₂ : Tiles n stop start os) :
    ∀ object ∈ os, size n object = size m object := by
  induction h₁ with
  | nil => exact nofun
  | @cons first rest _ hRest ih =>
      cases h₂ with
      | cons _ hOther =>
          have hNext := hRest.start_unique hOther
          rw [← hNext] at hOther
          intro object hMem
          rcases List.mem_cons.mp hMem with rfl | hTail
          · omega
          · exact ih hOther object hTail

/- Objects from an aligned address on are aligned. -/
theorem aligned
    (h : Tiles m stop start os)
    (hStart : start % Word.bytes = 0) :
    ∀ object ∈ os, object % Word.bytes = 0 := by
  induction h with
  | nil => simp
  | @cons object rest hProper hRest ih =>
      have hWhole := hProper.whole
      intro p hp
      rcases List.mem_cons.mp hp with hHead | hTail
      · rw [hHead]
        exact hStart
      · refine ih ?_ p hTail
        unfold Word.bytes at hStart hWhole ⊢
        omega

/- The end of a tiling from an aligned address on is aligned. -/
theorem stop_aligned
    (h : Tiles m stop start os)
    (hStart : start % Word.bytes = 0) :
    stop % Word.bytes = 0 := by
  induction h with
  | nil => exact hStart
  | cons hProper _ ih =>
      have hWhole := hProper.whole
      apply ih
      unfold Word.bytes at hStart hWhole ⊢
      omega

end Tiles

------------------------------------------------------------
-- Separate Slots
------------------------------------------------------------

/- Two words do not overlap. -/
def WordsApart (a b : Nat) : Prop :=
  a + Word.bytes ≤ b ∨ b + Word.bytes ≤ a

/- Two objects do not overlap. -/
def Apart
    (m : Memory)
    (o p : Nat) : Prop :=
  o + size m o ≤ p ∨ p + size m p ≤ o

/- Being apart is symmetric, for words and for objects. -/
instance : Std.Symm WordsApart where
  symm _ _ h := Or.symm h

instance
    {m : Memory} :
    Std.Symm (Apart m) where
  symm _ _ h := Or.symm h

/- The fields of one object are in order and do not overlap. -/
theorem pairwise_fields
    (m : Memory)
    (object : Nat) :
    (fields m object).Pairwise fun a b => a + Word.bytes ≤ b := by
  unfold fields
  rw [List.pairwise_map]
  refine List.pairwise_lt_range.imp ?_
  intro i j hij
  unfold field fieldOffset headerWords Word.bytes
  omega

/- The slots of separate objects do not overlap. -/
theorem pairwise_slots
    {m : Memory}
    {os : List Nat}
    (hProper : ∀ object ∈ os, Proper m object)
    (hApart : os.Pairwise (Apart m)) :
    (os.flatMap (fields m)).Pairwise WordsApart := by
  rw [List.pairwise_flatMap]
  constructor
  · intro object _
    exact (pairwise_fields m object).imp Or.inl
  · refine hApart.imp_of_mem ?_
    intro o p ho hp hDisjoint a ha b hb
    have hA := (hProper o ho).slot_bounds ha
    have hB := (hProper p hp).slot_bounds hb
    unfold Apart at hDisjoint
    unfold WordsApart
    omega

/- The slots of a tiling are in order. -/
theorem Tiles.pairwise_slots
    {m : Memory}
    {start stop : Nat}
    {os : List Nat}
    (h : Tiles m stop start os) :
    (os.flatMap (fields m)).Pairwise fun a b =>
      a + Word.bytes ≤ b := by
  rw [List.pairwise_flatMap]
  constructor
  · intro object _
    exact pairwise_fields m object
  · refine h.pairwise.imp_of_mem ?_
    intro o p ho hp hOrder a ha b hb
    have hA := (h.mem ho).1.slot_bounds ha
    have hB := (h.mem hp).1.slot_bounds hb
    omega

end Object

end BeltHeap
