import BeltHeap.Heap.Mutating
import BeltHeap.Proofs.Soundness
import BeltHeap.Proofs.Yielding

/-
  Stores into the objects of a sound heap: references through
  the write barrier, payload words directly.

  Main declarations:
    * `Heap.Sound.slot_apart`
    * `Heap.Sound.store`
    * `HeapM.yields_writeReference`
-/

------------------------------------------------------------
-- Words of Objects
------------------------------------------------------------

namespace BeltHeap

namespace Heap

namespace Sound

variable {rt : Runtime}
variable {h : Heap}
variable {nursery mature : Belt}
variable {old young : List Nat}
variable {source object k a value : Nat}

/- A word behind the header lies within its object. -/
theorem word_bounds
    (hRoom :
      Object.bytesFor (k + 1) 0 ≤ Object.size h.memory source) :
    source + 16 ≤ Object.field source k ∧
      Object.field source k + Word.bytes ≤
        source + Object.size h.memory source := by
  unfold Object.bytesFor Object.headerWords Word.bytes at hRoom
  unfold Object.field Object.fieldOffset
  unfold Object.headerWords Word.bytes
  omega

/- A word of one object is no part of the header of any. -/
theorem header_store
    (hSound : Sound rt h nursery mature old young)
    (hSource : source ∈ old ++ young)
    (hRoom :
      Object.bytesFor (k + 1) 0 ≤ Object.size h.memory source)
    (value : Nat)
    (hObject : object ∈ old ++ young) :
    Object.size (h.memory.store (Object.field source k) value)
        object = Object.size h.memory object ∧
      Object.refCount
          (h.memory.store (Object.field source k) value)
          object = Object.refCount h.memory object := by
  have hWord := word_bounds hRoom
  have hHeader := (hSound.proper hObject).header_le
  have hApart :
      object + 16 ≤ Object.field source k ∨
        Object.field source k + Word.bytes ≤ object := by
    by_cases hEq : object = source
    · rw [hEq]
      exact Or.inl hWord.1
    · have hObjects := hSound.apart_of_ne hObject hSource hEq
      unfold Object.Apart at hObjects
      omega
  unfold Word.bytes at hApart
  constructor
  · apply Memory.load_store_apart
    unfold Word.bytes
    omega
  · apply Memory.load_store_apart
    unfold Word.bytes
    omega

/-
  A field of an object is that word itself, or does not overlap
  it.
-/
theorem slot_apart
    (hSound : Sound rt h nursery mature old young)
    (hSource : source ∈ old ++ young)
    (hRoom :
      Object.bytesFor (k + 1) 0 ≤ Object.size h.memory source)
    (hObject : object ∈ old ++ young)
    (ha : a ∈ Object.fields h.memory object) :
    (object = source ∧ k < Object.refCount h.memory source ∧
        a = Object.field source k) ∨
      Object.WordsApart a (Object.field source k) := by
  by_cases hEq : object = source
  · subst hEq
    rcases Object.mem_fields.mp ha with ⟨i, hi, rfl⟩
    by_cases hIndex : i = k
    · subst hIndex
      exact Or.inl ⟨rfl, hi, rfl⟩
    · right
      unfold Object.WordsApart Object.field Object.fieldOffset
      unfold Object.headerWords Word.bytes
      omega
  · right
    have hWord := word_bounds hRoom
    have hSlot := (hSound.proper hObject).slot_bounds ha
    have hObjects := hSound.apart_of_ne hObject hSource hEq
    unfold Object.Apart at hObjects
    unfold Object.WordsApart
    omega

/- A word of an object lies in one of the belts. -/
theorem word_in_belt
    (hSound : Sound rt h nursery mature old young)
    (hSource : source ∈ old ++ young)
    (hRoom :
      Object.bytesFor (k + 1) 0 ≤ Object.size h.memory source) :
    (source ∈ old ∧ mature.start ≤ Object.field source k ∧
        Object.field source k + Word.bytes ≤ mature.mark) ∨
      (source ∈ young ∧ nursery.start ≤ Object.field source k ∧
        Object.field source k + Word.bytes ≤
          nursery.mark) := by
  have hWord := word_bounds hRoom
  rcases List.mem_append.mp hSource with hOld | hYoung
  · have hRange := hSound.mem_old hOld
    exact Or.inl ⟨hOld, by omega, by omega⟩
  · have hRange := hSound.mem_young hYoung
    exact Or.inr ⟨hYoung, by omega, by omega⟩

/- Storing into a word of an object moves no field. -/
theorem fields_store
    (hSound : Sound rt h nursery mature old young)
    (hSource : source ∈ old ++ young)
    (hRoom :
      Object.bytesFor (k + 1) 0 ≤ Object.size h.memory source)
    (value : Nat)
    (hObject : object ∈ old ++ young) :
    Object.fields
        (h.memory.store (Object.field source k) value) object =
      Object.fields h.memory object := by
  unfold Object.fields
  rw [(hSound.header_store hSource hRoom value hObject).2]

/-
  A field holds the stored value, if it is the word that was
  stored into, or what it held before.
-/
theorem load_field_store
    (hSound : Sound rt h nursery mature old young)
    (hSource : source ∈ old ++ young)
    (hRoom :
      Object.bytesFor (k + 1) 0 ≤ Object.size h.memory source)
    (hValue :
      k < Object.refCount h.memory source →
        value = 0 ∨ value ∈ old ++ young)
    (hObject : object ∈ old ++ young)
    (ha : a ∈ Object.fields h.memory object) :
    (object = source ∧ a = Object.field source k ∧
        k < Object.refCount h.memory source ∧
        (h.memory.store (Object.field source k) value).load a =
          value) ∨
      (h.memory.store (Object.field source k) value).load a =
        h.memory.load a := by
  have hBounds := hSound.shape.fits.bounds
  rcases hSound.slot_apart hSource hRoom hObject ha with
    ⟨hEq, hField, hSlot⟩ | hApart
  · left
    refine ⟨hEq, hSlot, hField, ?_⟩
    rw [hSlot]
    apply Memory.load_store
    rcases hValue hField with hNull | hMem
    · rw [hNull]
      decide
    · have hIn := hSound.in_heap hMem
      omega
  · right
    exact Memory.load_store_apart h.memory value hApart

------------------------------------------------------------
-- Stores
------------------------------------------------------------

/-
  A word of an object may be stored into.  Where it is a field,
  the new reference has to be null or an object, and a reference
  from the mature belt into the nursery has to be remembered.
-/
theorem store
    (hStandard : rt.Standard)
    (hSound : Sound rt h nursery mature old young)
    (hSource : source ∈ old ++ young)
    (hRoom :
      Object.bytesFor (k + 1) 0 ≤ Object.size h.memory source)
    (hValue :
      k < Object.refCount h.memory source →
        value = 0 ∨ value ∈ old ++ young)
    {cards : CardTable}
    (hCovers : cards.Covers h.layout.heap)
    (hLog : cards.logCardBytes = h.cards.logCardBytes)
    (hKept :
      ∀ b, h.cards.onDirtyCard b = true →
        cards.onDirtyCard b = true)
    (hNoted :
      source ∈ old → k < Object.refCount h.memory source →
        value ∈ young →
          cards.onDirtyCard (Object.field source k) = true) :
    Sound rt
      { h with
        memory := h.memory.store (Object.field source k) value
        cards }
      nursery mature old young := by
  have hHeaders :=
    fun o (ho : o ∈ old ++ young) =>
      hSound.header_store hSource hRoom value ho
  have hFields :=
    fun o (ho : o ∈ old ++ young) =>
      hSound.fields_store hSource hRoom value ho
  have hLoad :=
    fun o (ho : o ∈ old ++ young) a
        (ha : a ∈ Object.fields h.memory o) =>
      hSound.load_field_store hSource hRoom hValue ho ha
  have hBounds := hSound.shape.fits.bounds
  have hNursery := hSound.shape.fits.nurseryMark
  have hMature := hSound.shape.fits.matureMark
  have hBelt := hSound.word_in_belt hSource hRoom
  have hShape := hSound.shape
  constructor
  · exact
      ⟨hShape.layout, hShape.fits, hCovers, hShape.starts,
        hShape.sameCards.trans hLog.symm, hShape.regions⟩
  · exact hSound.oldTiles.congr fun o ho =>
      hHeaders o (List.mem_append_left _ ho)
  · exact hSound.youngTiles.congr fun o ho =>
      hHeaders o (List.mem_append_right _ ho)
  · intro a hLow hHigh
    rw [← hSound.matureFree a hLow hHigh]
    apply Memory.byte_store_apart
    omega
  · intro a hLow hHigh
    rw [← hSound.nurseryFree a hLow hHigh]
    apply Memory.byte_store_apart
    omega
  · intro o ho a ha
    dsimp only at ha ⊢
    rw [hFields o ho] at ha
    rcases hLoad o ho a ha with ⟨-, -, hField, hNew⟩ | hSame
    · rw [hNew]
      exact hValue hField
    · rw [hSame]
      exact hSound.fields o ho a ha
  · intro s hs
    have hRoot := hSound.roots s hs
    cases s with
    | entry n => exact hRoot
    | register n => exact hRoot
    | field a =>
        exact absurd rfl
          (not_field_of_mem_rootSlots hStandard hs a)
  · intro o ho a ha hYoung
    dsimp only at ha hYoung ⊢
    have hMem : o ∈ old ++ young := List.mem_append_left _ ho
    rw [hFields o hMem] at ha
    rcases hLoad o hMem a ha with
      ⟨hEq, hSlot, hField, hNew⟩ | hSame
    · rw [hNew] at hYoung
      rw [hSlot]
      exact hNoted (hEq ▸ ho) hField hYoung
    · rw [hSame] at hYoung
      exact hKept a (hSound.remembered o ho a ha hYoung)
  · exact hSound.firsts.congr fun o ho =>
      (hHeaders o (List.mem_append_left _ ho)).1

/- A payload word may be stored into. -/
theorem putWord
    (hStandard : rt.Standard)
    (hSound : Sound rt h nursery mature old young)
    (hObject : object ∈ old ++ young)
    {i : Nat}
    (hi : i < Object.payloadWords h.memory object)
    (value : Nat) :
    Sound rt
      (h.mapMemory fun m =>
        m.store (Object.payload m object i) value)
      nursery mature old young := by
  have hWhole := (hSound.proper hObject).whole
  have hRoom :
      Object.bytesFor (Object.refCount h.memory object + i + 1)
        0 ≤ Object.size h.memory object := by
    unfold Object.payloadWords Object.headerWords at hi
    unfold Word.bytes at hi hWhole
    unfold Object.bytesFor Object.headerWords Word.bytes
    omega
  have hBehind :
      ¬ Object.refCount h.memory object + i <
        Object.refCount h.memory object := by
    omega
  exact
    hSound.store hStandard hObject hRoom
      (fun hField => absurd hField hBehind)
      hSound.shape.cards rfl (fun _ hDirty => hDirty)
      (fun _ hField => absurd hField hBehind)

end Sound

end Heap

------------------------------------------------------------
-- The Write Barrier
------------------------------------------------------------

namespace HeapM

open Heap

variable {rt : Runtime}
variable {h : Heap}
variable {nursery mature : Belt}
variable {old young : List Nat}
variable {source target i slot : Nat}

/- The card of a slot in the heap is made dirty. -/
theorem yields_dirtyCardOf
    {heap : Span}
    (hCovers : h.cards.Covers heap)
    (hSlot : heap.contains slot = true) :
    ∃ card,
      h.cards.index slot = .ok card ∧
        Yields (dirtyCardOf slot) h (.ok ())
          { h with cards := h.cards.dirtied card } := by
  have hIndex := hCovers.index_eq hSlot
  refine ⟨_, hIndex, ?_⟩
  unfold dirtyCardOf
  apply yields_read
  exact yields_computed hIndex (yields_update _)

/-
  The barrier notes references from the mature belt into the
  nursery.  No card that was dirty becomes clean.
-/
theorem yields_noteStore
    (hShape : Shape h nursery mature)
    (target : Nat)
    (hSlot : h.layout.heap.contains slot = true) :
    ∃ cards,
      Yields (noteStore slot target) h (.ok ())
          { h with cards } ∧
        cards.Covers h.layout.heap ∧
        cards.logCardBytes = h.cards.logCardBytes ∧
        (∀ b, h.cards.onDirtyCard b = true →
          cards.onDirtyCard b = true) ∧
        (target ≠ 0 → mature.contains slot = true →
          nursery.contains target = true →
            cards.onDirtyCard slot = true) := by
  have hCovers := hShape.cards
  rcases yields_dirtyCardOf hCovers hSlot with
    ⟨card, hIndex, hDirty⟩
  have hNursery := hShape.nursery_eq
  have hMature := hShape.mature_eq
  unfold noteStore
  by_cases hNull : target = 0
  · refine ⟨h.cards, ?_, hCovers, rfl, fun _ hb => hb,
      fun hNot => absurd hNull hNot⟩
    rw [if_pos hNull]
    exact yields_pure ()
  · rw [if_neg hNull]
    by_cases hCross :
        (mature.contains slot && nursery.contains target) = true
    · refine ⟨h.cards.dirtied card, ?_, hCovers.dirtied card,
        rfl,
        fun b hb =>
          hCovers.onDirtyCard_dirtied hIndex (Or.inl hb),
        fun _ _ _ =>
          hCovers.onDirtyCard_dirtied hIndex (Or.inr rfl)⟩
      apply yields_read
      rw [hNursery, hMature, if_pos hCross]
      exact hDirty
    · refine ⟨h.cards, ?_, hCovers, rfl, fun _ hb => hb, ?_⟩
      · apply yields_read
        rw [hNursery, hMature, if_neg hCross]
        exact yields_pure ()
      · intro _ hFrom hTo
        rw [Bool.and_eq_true] at hCross
        exact absurd ⟨hFrom, hTo⟩ hCross

/-
  A reference to an object, or null, is stored into a field of
  an object.
-/
theorem yields_writeReference
    (hStandard : rt.Standard)
    (hSound : Sound rt h nursery mature old young)
    (hSource : source ∈ old ++ young)
    (hField : i < Object.refCount h.memory source)
    (hTarget : target = 0 ∨ target ∈ old ++ young) :
    ∃ cards,
      Yields
          (writeReference source (Object.fieldOffset i) target)
          h (.ok ())
          { h with
            memory :=
              h.memory.store (Object.field source i) target
            cards } ∧
        Sound rt
          { h with
            memory :=
              h.memory.store (Object.field source i) target
            cards }
          nursery mature old young := by
  have hProper := hSound.proper hSource
  have hBounds := hProper.field_bounds hField
  have hHeap := hSound.in_heap hSource
  have hLimit := hSound.shape.fits.bounds
  have hSlot :
      h.layout.heap.contains (Object.field source i) = true := by
    rw [Span.contains_iff]
    unfold Word.bytes at hBounds
    omega
  have hAdd :
      Word.add source (Object.fieldOffset i) =
        .ok (Object.field source i) := by
    apply if_pos
    change Object.field source i < Word.limit
    rw [Span.contains_iff] at hSlot
    omega
  have hRoom :
      Object.bytesFor (i + 1) 0 ≤ Object.size h.memory source := by
    have hAll := hProper.room
    unfold Object.bytesFor at hAll ⊢
    refine Nat.le_trans (Nat.mul_le_mul_right _ ?_) hAll
    omega
  have hShape :
      Shape
        (h.writeSlot (.field (Object.field source i)) target)
        nursery mature :=
    ⟨hSound.shape.layout, hSound.shape.fits, hSound.shape.cards,
      hSound.shape.starts, hSound.shape.sameCards,
      hSound.shape.regions⟩
  rcases yields_noteStore hShape target hSlot with
    ⟨cards, hNote, hCovers, hLog, hKept, hNoted⟩
  refine ⟨cards, ?_, ?_⟩
  · unfold writeReference
    refine yields_computed hAdd ?_
    exact yields_write hNote
  · refine
      hSound.store hStandard hSource hRoom (fun _ => hTarget)
        hCovers hLog hKept ?_
    intro hOld _ hYoung
    apply hNoted
    · exact hSound.ne_null (List.mem_append_right _ hYoung)
    · have hRange := hSound.mem_old hOld
      have hMark := hSound.shape.fits.matureMark
      rw [Belt.contains_iff]
      unfold Word.bytes at hBounds
      omega
    · exact
        (hSound.nursery_contains_iff
          (List.mem_append_right _ hYoung)).mpr hYoung

end HeapM

end BeltHeap
