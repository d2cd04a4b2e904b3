import BeltHeap.Proofs.Soundness

/-
  Blocks that are cut off the free part of a sound heap, and
  the objects that they become once their headers are written.

  Main declarations:
    * `Heap.Cut`
    * `Heap.Cut.block`
    * `Object.Formatted`
    * `Object.formatted_format`
    * `Heap.Sound.format_nursery`
    * `Heap.Sound.format_mature`
-/

------------------------------------------------------------
-- Writing Headers
------------------------------------------------------------

namespace BeltHeap

/- Storing zero makes no byte anything but zero. -/
theorem Memory.byte_store_zero
    (m : Memory)
    (a : Nat)
    {b : Nat}
    (hZero : m.byte b = 0) :
    (m.store a 0).byte b = 0 := by
  have hBytes :
      littleBytes Word.bytes 0 = List.replicate Word.bytes 0 := by
    decide
  unfold Memory.store
  rw [byte_write, hBytes]
  split
  · rw [List.getElem?_replicate]
    split
    · rfl
    · exact hZero
  · exact hZero

namespace Object

variable {m : Memory}
variable {object bytes refs : Nat}

/- Nulled slots are null, and other bytes are as before. -/
theorem byte_nulled
    (slots : List Nat)
    (b : Nat) :
    (m.byte b = 0 →
        (slots.foldl (fun m a => m.store a 0) m).byte b = 0) ∧
      ((∀ a ∈ slots, b < a ∨ a + Word.bytes ≤ b) →
        (slots.foldl (fun m a => m.store a 0) m).byte b =
          m.byte b) := by
  induction slots generalizing m with
  | nil => exact ⟨fun hZero => hZero, fun _ => rfl⟩
  | cons a slots ih =>
      rw [List.foldl_cons]
      rcases @ih (m.store a 0) with ⟨hNull, hApart⟩
      constructor
      · intro hZero
        exact hNull (Memory.byte_store_zero m a hZero)
      · intro hOutside
        have hFirst := hOutside a (List.mem_cons_self ..)
        rw [hApart fun c hc =>
          hOutside c (List.mem_cons_of_mem _ hc)]
        exact Memory.byte_store_apart m 0 hFirst

/-
  An object of some bytes with null references was written into
  a block of zeros, and nothing else was.
-/
structure Formatted
    (m : Memory)
    (object bytes refs : Nat)
    (n : Memory) : Prop where
  size : Object.size n object = bytes
  refCount : Object.refCount n object = refs
  fields : ∀ a ∈ fields n object, n.load a = 0
  outside :
    ∀ b, b < object ∨ object + bytes ≤ b → n.byte b = m.byte b

/- An object with room for its header is not empty. -/
theorem pos_of_bytesFor_le
    (hRoom : bytesFor refs 0 ≤ bytes) :
    0 < bytes := by
  unfold bytesFor headerWords Word.bytes at hRoom
  omega

/- The references lie behind the header and in the object. -/
theorem bounds_of_mem_references
    (hRoom : bytesFor refs 0 ≤ bytes)
    {a : Nat}
    (ha : a ∈ (List.range refs).map (field object)) :
    object + 16 ≤ a ∧ a + Word.bytes ≤ object + bytes := by
  rcases List.mem_map.mp ha with ⟨i, hi, rfl⟩
  rw [List.mem_range] at hi
  unfold bytesFor headerWords Word.bytes at hRoom
  unfold field fieldOffset headerWords Word.bytes
  omega

/- Writing a header stores two words and nulls the references. -/
theorem format_eq
    (m : Memory)
    (object bytes refs : Nat) :
    format object bytes refs m =
      ((List.range refs).map (field object)).foldl
        (fun m a => m.store a 0)
        ((m.store object bytes).store (object + Word.bytes)
          refs) := by
  unfold format
  rw [List.foldl_map]

/- Outside of the references, only the two words matter. -/
theorem byte_format
    (m : Memory)
    (hRoom : bytesFor refs 0 ≤ bytes)
    {b : Nat}
    (hb : b < object + 16 ∨ object + bytes ≤ b) :
    (format object bytes refs m).byte b =
      ((m.store object bytes).store (object + Word.bytes)
        refs).byte b := by
  rw [format_eq]
  apply (byte_nulled _ b).2
  intro a ha
  have hSlot := bounds_of_mem_references hRoom ha
  omega

/- The first word is the size. -/
theorem size_format
    (m : Memory)
    (hRoom : bytesFor refs 0 ≤ bytes)
    (hBytes : bytes < Word.limit) :
    size (format object bytes refs m) object = bytes := by
  have hBoth :
      (format object bytes refs m).load object =
        ((m.store object bytes).store (object + Word.bytes)
          refs).load object := by
    apply Memory.Matches.load_eq
    intro k hk
    unfold Word.bytes at hk
    exact byte_format m hRoom (by omega)
  have hFirst :
      ((m.store object bytes).store (object + Word.bytes)
          refs).load object =
        (m.store object bytes).load object :=
    Memory.load_store_apart (m.store object bytes) refs
      (Or.inl (Nat.le_refl _))
  exact
    hBoth.trans
      (hFirst.trans (Memory.load_store m object hBytes))

/- The second word is the number of references. -/
theorem refCount_format
    (m : Memory)
    (hRoom : bytesFor refs 0 ≤ bytes)
    (hBytes : bytes < Word.limit) :
    refCount (format object bytes refs m) object = refs := by
  have hRefs : refs < Word.limit := by
    unfold bytesFor headerWords Word.bytes at hRoom
    omega
  have hBoth :
      (format object bytes refs m).load
          (object + Word.bytes) =
        ((m.store object bytes).store (object + Word.bytes)
          refs).load (object + Word.bytes) := by
    apply Memory.Matches.load_eq
    intro k hk
    unfold Word.bytes at hk ⊢
    exact byte_format m hRoom (by omega)
  exact
    hBoth.trans
      (Memory.load_store (m.store object bytes)
        (object + Word.bytes) hRefs)

/- Writing the header of an object into zeros makes it one. -/
theorem formatted_format
    (hZero :
      ∀ b, object ≤ b → b < object + bytes → m.byte b = 0)
    (hRoom : bytesFor refs 0 ≤ bytes)
    (hBytes : bytes < Word.limit) :
    Formatted m object bytes refs
      (format object bytes refs m) := by
  have hCount :
      refCount (format object bytes refs m) object = refs :=
    refCount_format m hRoom hBytes
  refine ⟨size_format m hRoom hBytes, hCount, ?_, ?_⟩
  · intro a ha
    unfold fields at ha
    rw [hCount] at ha
    have hSlot := bounds_of_mem_references hRoom ha
    apply Memory.load_eq_zero
    intro k hk
    rw [format_eq]
    apply (byte_nulled _ _).1
    unfold Word.bytes at hk hSlot ⊢
    rw [Memory.byte_store_apart _ _
        (by unfold Word.bytes; omega),
      Memory.byte_store_apart _ _
        (by unfold Word.bytes; omega)]
    exact hZero _ (by omega) (by omega)
  · intro b hb
    rw [byte_format m hRoom (by omega)]
    unfold bytesFor headerWords Word.bytes at hRoom
    rw [Memory.byte_store_apart _ _
        (by unfold Word.bytes; omega),
      Memory.byte_store_apart _ _
        (by unfold Word.bytes; omega)]

end Object

------------------------------------------------------------
-- Blocks
------------------------------------------------------------

namespace Heap

/- The heap after the mark of the nursery was bumped. -/
def cutNursery
    (nursery mature : Belt)
    (size : Nat)
    (h : Heap) : Heap :=
  h.withLayout
    (Layout.pair { nursery with mark := nursery.mark + size }
      mature h.layout.heap)

/-
  The heap after the mark of the mature belt was bumped, and the
  block was noted.
-/
def cutMature
    (nursery mature : Belt)
    (size : Nat)
    (h : Heap) : Heap :=
  { h.withLayout
      (Layout.pair nursery
        { mature with mark := mature.mark + size }
        h.layout.heap) with
    firstObjects := h.firstObjects.recorded mature.mark size }

/- A block was cut off the free part of one of the belts. -/
inductive Cut
    (nursery mature : Belt)
    (size : Nat)
    (h g : Heap) : Nat → Prop where
| nursery
    (hRoom : nursery.mark + size ≤ nursery.stop)
    (hHeap : g = h.cutNursery nursery mature size) :
    Cut nursery mature size h g nursery.mark
| mature
    (hRoom : mature.mark + size ≤ mature.stop)
    (hHeap : g = h.cutMature nursery mature size) :
    Cut nursery mature size h g mature.mark

/-
  What is known of a block: it is aligned, consists of zeros,
  lies in the heap and touches no object.
-/
structure Block
    (h : Heap)
    (objects : List Nat)
    (a size : Nat) : Prop where
  aligned : a % Word.bytes = 0
  zero : ∀ b, a ≤ b → b < a + size → h.memory.byte b = 0
  inHeap :
    0 < a ∧ h.layout.heap.start ≤ a ∧
      a + size ≤ h.layout.heap.stop
  apart :
    ∀ object ∈ objects,
      object + Object.size h.memory object ≤ a ∨
        a + size ≤ object

variable {rt : Runtime}
variable {h g : Heap}
variable {nursery mature : Belt}
variable {old young : List Nat}
variable {size a : Nat}

/- The objects of a belt fill whole words up to its mark. -/
theorem Sound.mark_aligned
    (hSound : Sound rt h nursery mature old young) :
    nursery.mark % Word.bytes = 0 ∧
      mature.mark % Word.bytes = 0 := by
  have hAligned := hSound.shape.start_aligned
  exact
    ⟨hSound.youngTiles.stop_aligned hAligned.1,
      hSound.oldTiles.stop_aligned hAligned.2⟩

/- Blocks that are cut off a sound heap are blocks. -/
theorem Cut.block
    (hSound : Sound rt h nursery mature old young)
    (hCut : Cut nursery mature size h g a) :
    Block h (old ++ young) a size := by
  have hBounds := hSound.shape.fits.bounds
  have hNursery := hSound.shape.fits.nurseryMark
  have hMature := hSound.shape.fits.matureMark
  have hPos := hSound.shape.fits.start_pos
  have hAligned := hSound.mark_aligned
  cases hCut with
  | nursery hRoom hHeap =>
      refine ⟨hAligned.1, ?_, by omega, ?_⟩
      · intro b hLow hHigh
        exact hSound.nurseryFree b hLow (by omega)
      · intro object hObject
        rcases List.mem_append.mp hObject with hOld | hYoung
        · have hIn := hSound.mem_old hOld
          omega
        · have hIn := hSound.mem_young hYoung
          omega
  | mature hRoom hHeap =>
      refine ⟨hAligned.2, ?_, by omega, ?_⟩
      · intro b hLow hHigh
        exact hSound.matureFree b hLow (by omega)
      · intro object hObject
        rcases List.mem_append.mp hObject with hOld | hYoung
        · have hIn := hSound.mem_old hOld
          omega
        · have hIn := hSound.mem_young hYoung
          omega

------------------------------------------------------------
-- New Objects
------------------------------------------------------------

section

variable {refs : Nat}
variable {n : Memory}
variable {o : Nat}

/- Objects keep their bytes when a block is formatted. -/
theorem Block.kept
    (hBlock : Block h (old ++ young) a size)
    (hFormatted : Object.Formatted h.memory a size refs n)
    (ho : o ∈ old ++ young) :
    h.memory.Matches o n o (Object.size h.memory o) := by
  intro k hk
  have hApart := hBlock.apart o ho
  exact (hFormatted.outside (o + k) (by omega)).symm

/-
  Formatting a block leaves the headers of the objects there
  are.
-/
theorem Block.headers
    (hSound : Sound rt h nursery mature old young)
    (hBlock : Block h (old ++ young) a size)
    (hFormatted : Object.Formatted h.memory a size refs n)
    (ho : o ∈ old ++ young) :
    Object.size n o = Object.size h.memory o ∧
      Object.refCount n o = Object.refCount h.memory o := by
  have hKept := hBlock.kept hFormatted ho
  exact
    ⟨(hSound.proper ho).size_eq hKept,
      (hSound.proper ho).refCount_eq hKept⟩

theorem Block.fields
    (hSound : Sound rt h nursery mature old young)
    (hBlock : Block h (old ++ young) a size)
    (hFormatted : Object.Formatted h.memory a size refs n)
    (ho : o ∈ old ++ young)
    {slot : Nat}
    (hSlot : slot ∈ Object.fields n o) :
    slot ∈ Object.fields h.memory o ∧
      n.load slot = h.memory.load slot := by
  have hKept := hBlock.kept hFormatted ho
  have hRefs := (hSound.proper ho).refCount_eq hKept
  rcases Object.mem_fields.mp hSlot with ⟨i, hi, rfl⟩
  rw [hRefs] at hi
  exact
    ⟨Object.mem_fields.mpr ⟨i, hi, rfl⟩,
      (hSound.proper ho).load_field hKept hi⟩

/- A formatted block is an object with null references. -/
theorem proper_formatted
    {m : Memory}
    (hFormatted : Object.Formatted m a size refs n)
    (hWhole : size % Word.bytes = 0)
    (hRoom : Object.bytesFor refs 0 ≤ size) :
    Object.Proper n a := by
  constructor
  · rw [hFormatted.size]
    exact hWhole
  · rw [hFormatted.size, hFormatted.refCount]
    exact hRoom

/- The references of all objects are still objects or null. -/
theorem Block.references
    (hSound : Sound rt h nursery mature old young)
    (hBlock : Block h (old ++ young) a size)
    (hFormatted : Object.Formatted h.memory a size refs n)
    {objects : List Nat}
    (hObjects :
      ∀ o, o ∈ objects ↔ o ∈ old ++ young ∨ o = a) :
    ∀ o ∈ objects, ∀ slot ∈ Object.fields n o,
      n.load slot = 0 ∨ n.load slot ∈ objects := by
  intro o ho slot hSlot
  rcases (hObjects o).mp ho with hOld | hNew
  · rcases hBlock.fields hSound hFormatted hOld hSlot with
      ⟨hBefore, hLoad⟩
    rw [hLoad]
    rcases hSound.fields o hOld slot hBefore with
      hNull | hMem
    · exact Or.inl hNull
    · exact Or.inr ((hObjects _).mpr (Or.inl hMem))
  · subst hNew
    exact Or.inl (hFormatted.fields slot hSlot)

/- Reading a root slot does not depend on the memory. -/
theorem roots_formatted
    (hStandard : rt.Standard)
    (hSound : Sound rt h nursery mature old young)
    (hRoots : g.roots = h.roots)
    (hRegisters : g.registers = h.registers)
    {objects : List Nat}
    (hObjects : ∀ o ∈ old ++ young, o ∈ objects) :
    ∀ s ∈ g.rootSlots rt,
      g.readSlot s = 0 ∨ g.readSlot s ∈ objects := by
  intro s hs
  have hSlots : g.rootSlots rt = h.rootSlots rt := by
    unfold rootSlots
    rw [hRoots]
  have hRead : g.readSlot s = h.readSlot s := by
    cases s with
    | entry k =>
        unfold readSlot
        rw [hRoots]
    | register k =>
        unfold readSlot
        rw [hRegisters]
    | field b =>
        exact absurd rfl
          (not_field_of_mem_rootSlots hStandard hs b)
  rw [hSlots] at hs
  rw [hRead]
  exact (hSound.roots s hs).imp_right (hObjects _)

/- No reference to a block exists before it is an object. -/
theorem Block.fresh
    (hSound : Sound rt h nursery mature old young)
    (hBlock : Block h (old ++ young) a size)
    (hSize : 0 < size)
    (ho : o ∈ old ++ young)
    {slot : Nat}
    (hSlot : slot ∈ Object.fields h.memory o) :
    h.memory.load slot ≠ a := by
  intro hEq
  have hInHeap := hBlock.inHeap
  rcases hSound.fields o ho slot hSlot with hNull | hMem
  · omega
  · have hApart := hBlock.apart _ hMem
    have hHeader := (hSound.proper hMem).header_le
    omega

/- The new object is the last one of its belt. -/
theorem Block.tiles
    {objects : List Nat}
    (hBlock : Block h (old ++ young) a size)
    (hSound : Sound rt h nursery mature old young)
    (hFormatted : Object.Formatted h.memory a size refs n)
    (hProper : Object.Proper n a)
    {start : Nat}
    (hTiles : Object.Tiles h.memory a start objects)
    (hObjects : ∀ o ∈ objects, o ∈ old ++ young) :
    Object.Tiles n (a + size) start (objects ++ [a]) := by
  have hKept :=
    hTiles.congr fun o ho =>
      hBlock.headers hSound hFormatted (hObjects o ho)
  refine hKept.append (Object.Tiles.cons hProper ?_)
  rw [hFormatted.size]
  exact Object.Tiles.nil

/- A block that is cut off the nursery becomes an object. -/
theorem Sound.format_nursery
    (hStandard : rt.Standard)
    (hSound : Sound rt h nursery mature old young)
    (hRoom : nursery.mark + size ≤ nursery.stop)
    (hWhole : size % Word.bytes = 0)
    (hRefs : Object.bytesFor refs 0 ≤ size)
    (hFormatted :
      Object.Formatted h.memory nursery.mark size refs n) :
    Sound rt
      { h.cutNursery nursery mature size with memory := n }
      { nursery with mark := nursery.mark + size } mature old
      (young ++ [nursery.mark]) := by
  have hShape := hSound.shape
  have hBounds := hShape.fits.bounds
  have hNursery := hShape.fits.nurseryMark
  have hMature := hShape.fits.matureMark
  have hCut :
      Cut nursery mature size h
        (h.cutNursery nursery mature size) nursery.mark :=
    .nursery hRoom rfl
  have hBlock := hCut.block hSound
  have hProper := proper_formatted hFormatted hWhole hRefs
  have hHeaders :=
    fun o ho =>
      hBlock.headers (o := o) hSound hFormatted ho
  have hObjects :
      ∀ o, o ∈ old ++ (young ++ [nursery.mark]) ↔
        o ∈ old ++ young ∨ o = nursery.mark := by
    intro o
    rw [← List.append_assoc, List.mem_append,
      List.mem_singleton]
  have hFits :
      Layout.Fits
        { nursery with mark := nursery.mark + size } mature
        h.layout.heap :=
    hShape.fits.setNursery rfl rfl rfl
      ⟨Nat.le_trans hNursery.1 (Nat.le_add_right _ _), hRoom⟩
  have hSize := Object.pos_of_bytesFor_le hRefs
  constructor
  · exact Shape.of_pair rfl hFits hShape.cards hShape.starts
      hShape.sameCards hShape.regions
  · exact hSound.oldTiles.congr fun o ho =>
      hHeaders o (List.mem_append_left _ ho)
  · exact
      hBlock.tiles hSound hFormatted hProper hSound.youngTiles
        fun o ho => List.mem_append_right _ ho
  · intro b hLow hHigh
    rw [← hSound.matureFree b hLow hHigh]
    exact hFormatted.outside b (by omega)
  · intro b hLow hHigh
    change nursery.mark + size ≤ b at hLow
    change b < nursery.stop at hHigh
    rw [← hSound.nurseryFree b (by omega) hHigh]
    exact hFormatted.outside b (Or.inr hLow)
  · exact hBlock.references hSound hFormatted hObjects
  · refine roots_formatted hStandard hSound ?_ ?_ ?_
    · rfl
    · rfl
    · exact fun o ho => (hObjects o).mpr (Or.inl ho)
  · intro o ho slot hSlot hLoad
    have hMem : o ∈ old ++ young := List.mem_append_left _ ho
    rcases hBlock.fields hSound hFormatted hMem hSlot with
      ⟨hBefore, hSame⟩
    dsimp only at hLoad
    rw [hSame] at hLoad
    rcases List.mem_append.mp hLoad with hYoung | hNew
    · exact hSound.remembered o ho slot hBefore hYoung
    · exact
        absurd (List.mem_singleton.mp hNew)
          (hBlock.fresh hSound hSize hMem hBefore)
  · exact hSound.firsts.congr fun o ho =>
      (hHeaders o (List.mem_append_left _ ho)).1

/- A heap is sound with a new object cut off its mature belt. -/
theorem Sound.format_mature
    (hStandard : rt.Standard)
    (hSound : Sound rt h nursery mature old young)
    (hRoom : mature.mark + size ≤ mature.stop)
    (hWhole : size % Word.bytes = 0)
    (hRefs : Object.bytesFor refs 0 ≤ size)
    (hFormatted :
      Object.Formatted h.memory mature.mark size refs n) :
    Sound rt
      { h.cutMature nursery mature size with memory := n }
      nursery { mature with mark := mature.mark + size }
      (old ++ [mature.mark]) young := by
  have hShape := hSound.shape
  have hBounds := hShape.fits.bounds
  have hNursery := hShape.fits.nurseryMark
  have hMature := hShape.fits.matureMark
  have hCut :
      Cut nursery mature size h
        (h.cutMature nursery mature size) mature.mark :=
    .mature hRoom rfl
  have hBlock := hCut.block hSound
  have hProper := proper_formatted hFormatted hWhole hRefs
  have hHeaders :=
    fun o ho =>
      hBlock.headers (o := o) hSound hFormatted ho
  have hObjects :
      ∀ o, o ∈ (old ++ [mature.mark]) ++ young ↔
        o ∈ old ++ young ∨ o = mature.mark := by
    intro o
    rw [List.mem_append, List.mem_append, List.mem_append,
      List.mem_singleton]
    exact or_right_comm
  have hFits :
      Layout.Fits nursery
        { mature with mark := mature.mark + size }
        h.layout.heap :=
    hShape.fits.setMature rfl rfl rfl
      ⟨Nat.le_trans hMature.1 (Nat.le_add_right _ _), hRoom⟩
  have hSize := Object.pos_of_bytesFor_le hRefs
  constructor
  · exact Shape.of_pair rfl hFits hShape.cards
      (hShape.starts.recorded _ _)
      ((FirstObjects.logCardBytes_recorded _ _ _).trans
        hShape.sameCards)
      hShape.regions
  · exact
      hBlock.tiles hSound hFormatted hProper hSound.oldTiles
        fun o ho => List.mem_append_left _ ho
  · exact hSound.youngTiles.congr fun o ho =>
      hHeaders o (List.mem_append_right _ ho)
  · intro b hLow hHigh
    change mature.mark + size ≤ b at hLow
    change b < mature.stop at hHigh
    rw [← hSound.matureFree b (by omega) hHigh]
    exact hFormatted.outside b (Or.inr hLow)
  · intro b hLow hHigh
    rw [← hSound.nurseryFree b hLow hHigh]
    exact hFormatted.outside b (by omega)
  · exact hBlock.references hSound hFormatted hObjects
  · refine roots_formatted hStandard hSound ?_ ?_ ?_
    · rfl
    · rfl
    · exact fun o ho => (hObjects o).mpr (Or.inl ho)
  · intro o ho slot hSlot hYoung
    dsimp only at hSlot hYoung ⊢
    rcases List.mem_append.mp ho with hOld | hNew
    · have hMem : o ∈ old ++ young := List.mem_append_left _ hOld
      rcases hBlock.fields hSound hFormatted hMem hSlot with
        ⟨hBefore, hSame⟩
      rw [hSame] at hYoung
      exact hSound.remembered o hOld slot hBefore hYoung
    · rw [List.mem_singleton.mp hNew] at hSlot
      rw [hFormatted.fields slot hSlot] at hYoung
      exact
        absurd rfl
          (hSound.ne_null (List.mem_append_right _ hYoung))
  · have hExact :=
      hSound.firsts.congr fun o ho =>
        (hHeaders o (List.mem_append_left _ ho)).1
    have hNewSize := hFormatted.size
    have hRecorded :=
      hExact.recorded hShape.starts
        (by rw [hNewSize]; exact hSize) (by omega)
        (by rw [hNewSize]; omega)
        (by
          intro p hp
          have hIn := hSound.mem_old hp
          rw [(hHeaders p (List.mem_append_left _ hp)).1]
          exact Or.inl hIn.2.2)
    rw [hNewSize] at hRecorded
    exact hRecorded

end

end Heap

end BeltHeap
