import BeltHeap.Proofs.Packing
import BeltHeap.Proofs.Yielding
import BeltHeap.Collection.Run

/-
  Pointing slots that do not overlap at new addresses.  Each of
  them is rewritten once, and nothing else changes.

  Main declarations:
    * `Slot.Apart`
    * `Heap.forwarded`, `Heap.forwardedAll`
    * `Heap.readSlot_forwardedAll`
    * `Heap.byte_forwardedAll`
    * `Runtime.ListsFields`
    * `HeapM.quiet_forwardSlots`
-/

------------------------------------------------------------
-- Separate Slots
------------------------------------------------------------

namespace BeltHeap

/- Two slots are different, and do not overlap in memory. -/
def Slot.Apart : Slot → Slot → Prop
| .field a, .field b => Object.WordsApart a b
| s, t => s ≠ t

theorem Slot.Apart.symm
    {s t : Slot}
    (h : Apart s t) :
    Apart t s := by
  cases s <;> cases t <;> first | exact Or.symm h | exact Ne.symm h

/- The slots in the fields of objects. -/
def Slot.ofObjects
    (m : Memory)
    (objects : List Nat) : List Slot :=
  (objects.flatMap (Object.fields m)).map .field

theorem Slot.mem_ofObjects
    {m : Memory}
    {objects : List Nat}
    {s : Slot} :
    s ∈ ofObjects m objects ↔
      ∃ object ∈ objects, ∃ a ∈ Object.fields m object,
        s = .field a := by
  unfold ofObjects
  rw [List.mem_map]
  constructor
  · rintro ⟨a, ha, rfl⟩
    rcases List.mem_flatMap.mp ha with ⟨object, hObject, hField⟩
    exact ⟨object, hObject, a, hField, rfl⟩
  · rintro ⟨object, hObject, a, hField, rfl⟩
    exact ⟨a, List.mem_flatMap.mpr ⟨object, hObject, hField⟩, rfl⟩

namespace Heap

variable {h : Heap}
variable {s t : Slot}
variable {object : Nat}

/- Writing a slot leaves the slots apart from it alone. -/
theorem readSlot_writeSlot_apart
    (hApart : Slot.Apart s t) :
    (h.writeSlot s object).readSlot t = h.readSlot t := by
  cases s with
  | entry k =>
      cases t with
      | entry j =>
          have hNe : k ≠ j := fun hEq => hApart (by rw [hEq])
          simp [writeSlot, readSlot, RootTable.write,
            Array.getD_eq_getD_getElem?, hNe]
      | register n => rfl
      | field a => rfl
  | register n =>
      cases t with
      | entry j => rfl
      | register j =>
          have hNe : n ≠ j := fun hEq => hApart (by rw [hEq])
          simp [writeSlot, readSlot,
            Array.getD_eq_getD_getElem?, hNe]
      | field a => rfl
  | field a =>
      cases t with
      | entry j => rfl
      | register n => rfl
      | field b =>
          have hWords : Object.WordsApart a b := hApart
          exact
            Memory.load_store_apart h.memory object hWords.symm

theorem readSlot_writeSlot_self
    (hSome : h.readSlot s ≠ 0)
    (hWord : object < Word.limit) :
    (h.writeSlot s object).readSlot s = object := by
  cases s with
  | entry k =>
      have hLt : k < h.roots.entries.size := by
        rw [← Nat.not_le]
        intro hLe
        apply hSome
        simp [readSlot, Array.getD_eq_getD_getElem?, hLe]
      simp [writeSlot, readSlot, RootTable.write,
        Array.getD_eq_getD_getElem?, hLt]
  | register n =>
      have hLt : n < h.registers.size := by
        rw [← Nat.not_le]
        intro hLe
        apply hSome
        simp [readSlot, Array.getD_eq_getD_getElem?, hLe]
      simp [writeSlot, readSlot, Array.getD_eq_getD_getElem?, hLt]
  | field a => exact Memory.load_store h.memory a hWord

/- Writing a slot changes no byte outside of it. -/
theorem byte_writeSlot
    {a : Nat}
    (hApart :
      ∀ b, s = .field b → a < b ∨ b + Word.bytes ≤ a) :
    (h.writeSlot s object).memory.byte a = h.memory.byte a := by
  cases s with
  | entry k => rfl
  | register n => rfl
  | field b =>
      exact Memory.byte_store_apart h.memory object
        (hApart b rfl)

------------------------------------------------------------
-- Forwarding
------------------------------------------------------------

/- The heap after one slot was pointed at its new address. -/
def forwarded
    (moved : Std.HashMap Nat Nat)
    (h : Heap)
    (s : Slot) : Heap :=
  match moved[h.readSlot s]? with
  | some object => h.writeSlot s object
  | none => h

/- The heap after several slots were. -/
def forwardedAll
    (moved : Std.HashMap Nat Nat)
    (h : Heap)
    (slots : List Slot) : Heap :=
  slots.foldl (forwarded moved) h

/-
  New addresses are words, and null, which is no object, does
  not move.
-/
structure Forwards
    (moved : Std.HashMap Nat Nat) : Prop where
  null : moved[0]? = none
  word :
    ∀ object dest : Nat,
      moved[object]? = some dest → dest < Word.limit

variable {moved : Std.HashMap Nat Nat}
variable {slots : List Slot}

theorem readSlot_forwarded_self
    (hMoved : Forwards moved)
    (h : Heap)
    (s : Slot) :
    (h.forwarded moved s).readSlot s =
      moved[h.readSlot s]?.getD (h.readSlot s) := by
  unfold forwarded
  cases hCase : moved[h.readSlot s]? with
  | none => rfl
  | some object =>
      apply readSlot_writeSlot_self
      · intro hNull
        rw [hNull, hMoved.null] at hCase
        cases hCase
      · exact hMoved.word _ object hCase

/- Forwarding a slot leaves the slots apart from it alone. -/
theorem readSlot_forwarded_apart
    (hApart : Slot.Apart s t) :
    (h.forwarded moved s).readSlot t = h.readSlot t := by
  unfold forwarded
  cases moved[h.readSlot s]? with
  | none => rfl
  | some object => exact readSlot_writeSlot_apart hApart

/- Forwarding slots leaves those apart from all of them alone. -/
theorem readSlot_forwardedAll_apart
    (h : Heap)
    (hApart : ∀ s ∈ slots, Slot.Apart s t) :
    (h.forwardedAll moved slots).readSlot t = h.readSlot t := by
  unfold forwardedAll
  induction slots generalizing h with
  | nil => rfl
  | cons s slots ih =>
      rw [List.foldl_cons,
        ih _ fun r hr => hApart r (List.mem_cons_of_mem _ hr)]
      exact
        readSlot_forwarded_apart (hApart s List.mem_cons_self)

/- Each of several slots is forwarded once. -/
theorem readSlot_forwardedAll
    (hMoved : Forwards moved)
    (h : Heap)
    (hApart : slots.Pairwise Slot.Apart)
    (hSlot : s ∈ slots) :
    (h.forwardedAll moved slots).readSlot s =
      moved[h.readSlot s]?.getD (h.readSlot s) := by
  induction slots generalizing h with
  | nil => cases hSlot
  | cons first rest ih =>
      rcases List.pairwise_cons.mp hApart with ⟨hFirst, hRest⟩
      have hStep :
          h.forwardedAll moved (first :: rest) =
            (h.forwarded moved first).forwardedAll moved rest :=
        rfl
      rw [hStep]
      rcases List.mem_cons.mp hSlot with hHead | hTail
      · subst hHead
        rw [readSlot_forwardedAll_apart _
          fun r hr => (hFirst r hr).symm]
        exact readSlot_forwarded_self hMoved h s
      · rw [ih (h.forwarded moved first) hRest hTail]
        rw [readSlot_forwarded_apart (hFirst s hTail)]

/- Bytes outside of all forwarded slots are left alone. -/
theorem byte_forwardedAll
    (h : Heap)
    {a : Nat}
    (hApart :
      ∀ b, Slot.field b ∈ slots → a < b ∨ b + Word.bytes ≤ a) :
    (h.forwardedAll moved slots).memory.byte a =
      h.memory.byte a := by
  unfold forwardedAll
  induction slots generalizing h with
  | nil => rfl
  | cons s slots ih =>
      rw [List.foldl_cons,
        ih _ fun b hb => hApart b (List.mem_cons_of_mem _ hb)]
      unfold forwarded
      cases moved[h.readSlot s]? with
      | none => rfl
      | some object =>
          apply byte_writeSlot
          intro b hb
          apply hApart b
          rw [hb]
          exact List.mem_cons_self

/-
  Forwarding changes what slots hold and nothing else: not the
  number of slots, and no other part of the heap.
-/
theorem forwardedAll_frame
    (moved : Std.HashMap Nat Nat)
    (h : Heap)
    (slots : List Slot) :
    ∃ memory entries registers,
      h.forwardedAll moved slots =
        { h with
          memory
          roots := { h.roots with entries }
          registers } := by
  unfold forwardedAll
  induction slots generalizing h with
  | nil => exact ⟨h.memory, h.roots.entries, h.registers, rfl⟩
  | cons s slots ih =>
      rcases ih (h.forwarded moved s) with
        ⟨memory, entries, registers, hRest⟩
      refine ⟨memory, entries, registers, ?_⟩
      rw [List.foldl_cons, hRest]
      unfold forwarded
      cases moved[h.readSlot s]? with
      | none => rfl
      | some object => cases s <;> rfl

end Heap

------------------------------------------------------------
-- Headers
------------------------------------------------------------

/- The runtime lists the fields of each object in some order. -/
def Runtime.ListsFields (rt : Runtime) : Prop :=
  ∀ m object, Object.Proper m object →
    (rt.fields m object).Perm (Object.fields m object)

/- A slot lies apart from both words of a header. -/
def Slot.OffHeader
    (object : Nat)
    (s : Slot) : Prop :=
  Apart s (.field object) ∧ Apart s (.field (object + Word.bytes))

/- Some objects have the same headers in two heaps. -/
def Heap.SameHeaders
    (objects : List Nat)
    (h g : Heap) : Prop :=
  ∀ o ∈ objects,
    Object.size g.memory o = Object.size h.memory o ∧
      Object.refCount g.memory o = Object.refCount h.memory o

/- Forwarding leaves the headers apart from all slots alone. -/
theorem Heap.SameHeaders.forwardedAll
    {h g : Heap}
    {objects : List Nat}
    (hSame : SameHeaders objects h g)
    (moved : Std.HashMap Nat Nat)
    {slots : List Slot}
    (hOff : ∀ o ∈ objects, ∀ s ∈ slots, s.OffHeader o) :
    SameHeaders objects h (g.forwardedAll moved slots) := by
  intro o ho
  have hSize :
      (g.forwardedAll moved slots).readSlot (.field o) =
        g.readSlot (.field o) :=
    readSlot_forwardedAll_apart g fun s hs => (hOff o ho s hs).1
  have hRefs :
      (g.forwardedAll moved slots).readSlot
          (.field (o + Word.bytes)) =
        g.readSlot (.field (o + Word.bytes)) :=
    readSlot_forwardedAll_apart g fun s hs => (hOff o ho s hs).2
  exact
    ⟨hSize.trans (hSame o ho).1, hRefs.trans (hSame o ho).2⟩

theorem Slot.ofObjects_cons
    (m : Memory)
    (object : Nat)
    (objects : List Nat) :
    ofObjects m (object :: objects) =
      (Object.fields m object).map .field ++
        ofObjects m objects := by
  unfold ofObjects
  rw [List.flatMap_cons, List.map_append]

------------------------------------------------------------
-- Forwarding in Sequence
------------------------------------------------------------

namespace HeapM

open Heap

variable {h g : Heap}
variable {moved : Std.HashMap Nat Nat}
variable {rt : Runtime}
variable {objects : List Nat}

/- Forwarding one slot. -/
theorem quiet_forwardSlot
    (h : Heap)
    (s : Slot) :
    Quiet (forwardSlot moved s) h () (h.forwarded moved s) := by
  unfold forwardSlot Heap.forwarded
  apply quiet_read
  cases moved[h.readSlot s]? with
  | none => exact quiet_pure ()
  | some object => exact quiet_update _

/- Forwarding several slots in turn. -/
theorem quiet_forwardEach
    (moved : Std.HashMap Nat Nat)
    (slots : List Slot) :
    Quiet (slots.forM (forwardSlot moved)) h ()
      (h.forwardedAll moved slots) :=
  quiet_forM quiet_forwardSlot slots

/- Forwarding the fields of an object. -/
theorem quiet_forwardFields
    (moved : Std.HashMap Nat Nat)
    (object : Nat) :
    Quiet (forwardFields rt moved object) h ()
      (h.forwardedAll moved
        ((rt.fields h.memory object).map .field)) := by
  unfold forwardFields
  apply quiet_read
  have hEach :=
    quiet_forwardEach (h := h) moved
      ((rt.fields h.memory object).map .field)
  rw [List.forM_eq_forM, List.forM_map] at hEach
  exact hEach

/-
  Forwarding the fields of some objects, in the order in which
  the runtime lists them.  None of them is in a header, so they
  are found where they were before any of them was rewritten.
-/
theorem quiet_forwardObjects
    (hLists : rt.ListsFields)
    (hProper : ∀ o ∈ objects, Object.Proper h.memory o)
    (hOff :
      ∀ o ∈ objects, ∀ s ∈ Slot.ofObjects h.memory objects,
        s.OffHeader o)
    (hSame : SameHeaders objects h g) :
    ∃ all : List Slot,
      all.Perm (Slot.ofObjects h.memory objects) ∧
        (rt.fields = Object.fields →
          all = Slot.ofObjects h.memory objects) ∧
        Quiet (objects.forM (forwardFields rt moved)) g ()
          (g.forwardedAll moved all) := by
  induction objects generalizing g with
  | nil => exact ⟨[], .refl _, fun _ => rfl, quiet_pure ()⟩
  | cons o rest ih =>
      rw [Slot.ofObjects_cons] at hOff ⊢
      rcases hSame o List.mem_cons_self with ⟨hSize, hRefs⟩
      have hFields :
          Object.fields g.memory o = Object.fields h.memory o := by
        unfold Object.fields
        rw [hRefs]
      have hFirst :
          ((rt.fields g.memory o).map Slot.field).Perm
            ((Object.fields h.memory o).map Slot.field) := by
        rw [← hFields]
        have hHere := hProper o List.mem_cons_self
        exact
          (hLists g.memory o (hHere.congr hSize hRefs)).map _
      have hAfter :
          SameHeaders rest h
            (g.forwardedAll moved
              ((rt.fields g.memory o).map .field)) := by
        have hRest : SameHeaders rest h g := fun p hp =>
          hSame p (List.mem_cons_of_mem _ hp)
        refine hRest.forwardedAll moved fun p hp s hs => ?_
        exact
          hOff p (List.mem_cons_of_mem _ hp) s
            (List.mem_append_left _ (hFirst.mem_iff.mp hs))
      rcases ih
          (fun p hp => hProper p (List.mem_cons_of_mem _ hp))
          (fun p hp s hs =>
            hOff p (List.mem_cons_of_mem _ hp) s
              (List.mem_append_right _ hs))
          hAfter with
        ⟨all, hPerm, hEq, hQuiet⟩
      refine
        ⟨(rt.fields g.memory o).map .field ++ all,
          hFirst.append hPerm, ?_, ?_⟩
      · intro hStandard
        rw [hEq hStandard, hStandard, hFields]
      · unfold forwardedAll at hQuiet ⊢
        rw [List.foldl_append]
        exact quiet_bind (quiet_forwardFields moved o) hQuiet

section

variable {slots : List Slot}
variable {moves : List Collection.Move}

/-
  The slots that a collection forwards: those it started from
  and the fields of the survivors.
-/
def forwardable
    (h : Heap)
    (slots : List Slot)
    (moves : List Collection.Move) : List Slot :=
  slots ++
    Slot.ofObjects h.memory (moves.map Collection.Move.source)

/-
  Forwarding some slots and the fields of the survivors.  Each
  of them is forwarded, in some order.
-/
theorem quiet_forwardSlots
    (hLists : rt.ListsFields)
    (hProper :
      ∀ o ∈ moves.map Collection.Move.source,
        Object.Proper h.memory o)
    (hOff :
      ∀ o ∈ moves.map Collection.Move.source,
        ∀ s ∈ forwardable h slots moves, s.OffHeader o) :
    ∃ all : List Slot,
      all.Perm (forwardable h slots moves) ∧
        (rt.fields = Object.fields →
          all = forwardable h slots moves) ∧
        Quiet (forwardSlots rt slots moves) h ()
          (h.forwardedAll (Collection.forwarding moves)
            all) := by
  have hStart :
      SameHeaders (moves.map Collection.Move.source) h h :=
    fun _ _ => ⟨rfl, rfl⟩
  rcases quiet_forwardObjects hLists hProper
      (fun o ho s hs => hOff o ho s (List.mem_append_right _ hs))
      (hStart.forwardedAll (Collection.forwarding moves)
        fun o ho s hs =>
          hOff o ho s (List.mem_append_left _ hs)) with
    ⟨all, hPerm, hEq, hQuiet⟩
  refine ⟨slots ++ all, hPerm.append_left slots, ?_, ?_⟩
  · intro hStandard
    rw [hEq hStandard]
    rfl
  · unfold forwardSlots
    unfold forwardedAll at hQuiet ⊢
    rw [List.foldl_append]
    rw [List.forM_eq_forM, List.forM_map] at hQuiet
    exact quiet_bind (quiet_forwardEach _ slots) hQuiet

end

end HeapM

end BeltHeap
