import BeltHeap.Observer.BufferPool

/-
  Buffers of a pool.  What is written into one of them is read
  off it again, and none of the others changes.

  Main declarations:
    * `PageBuffer.Below`, `PageBuffer.Apart`
    * `BufferPool.allocate_spec`
    * `BufferPool.slice_write_self`
    * `BufferPool.slice_write_apart`
    * `BufferPool.bytes_write_self`
-/

------------------------------------------------------------
-- Places of Buffers
------------------------------------------------------------

namespace BeltHeap

namespace PageBuffer

/- A buffer that is not behind the first bytes of the pool. -/
def Below
    (used : Nat) : PageBuffer → Prop
| .pooled start length => start + length ≤ used
| .owned _ _ => True

/- Two buffers that share no byte of the pool. -/
def Apart : PageBuffer → PageBuffer → Prop
| .pooled start length, .pooled start' length' =>
    start + length ≤ start' ∨ start' + length' ≤ start
| _, _ => True

variable {b c : PageBuffer}
variable {used more : Nat}

theorem Apart.symm
    (hApart : Apart b c) :
    Apart c b := by
  cases b <;> cases c <;>
    first
      | exact Or.symm hApart
      | trivial

/- More bytes of the pool may be handed out. -/
theorem Below.mono
    (hBelow : Below used b)
    (hLe : used ≤ more) :
    Below more b := by
  cases b with
  | pooled start length => exact Nat.le_trans hBelow hLe
  | owned length memory => trivial

end PageBuffer

------------------------------------------------------------
-- Memory of Buffers
------------------------------------------------------------

/- A byte of a run that was read. -/
theorem Memory.getElem?_read
    (m : Memory)
    (a count i : Nat) :
    (m.read a count)[i]? =
      if i < count then some (m.byte (a + i)) else none := by
  unfold read
  rw [List.getElem?_map]
  split
  · rename_i hLt
    rw [List.getElem?_range' hLt, Nat.one_mul]
    rfl
  · rename_i hGe
    rw [List.getElem?_eq_none]
    · rfl
    · rw [List.length_range']
      exact Nat.le_of_not_lt hGe

theorem Memory.read_write_self
    (m : Memory)
    (a : Nat)
    (bs : List UInt8) :
    (m.write a bs).read a bs.length = bs := by
  apply List.ext_getElem?
  intro i
  rw [getElem?_read, byte_write]
  split
  · rename_i hLt
    simp [hLt]
  · rename_i hGe
    rw [List.getElem?_eq_none (Nat.le_of_not_lt hGe)]

/- Bytes in other places are read as before. -/
theorem Memory.read_write_apart
    (m : Memory)
    (a b count : Nat)
    (bs : List UInt8)
    (hApart : a + bs.length ≤ b ∨ b + count ≤ a) :
    (m.write a bs).read b count = m.read b count := by
  apply List.ext_getElem?
  intro i
  rw [getElem?_read, getElem?_read, byte_write]
  split
  · split
    · rw [List.getElem?_eq_none (by omega)]
      rfl
    · rfl
  · rfl

/- Bytes written within a run are patched into it. -/
theorem Memory.read_write_within
    (m : Memory)
    (a : Nat)
    {offset count : Nat}
    {bs : List UInt8}
    (hFits : offset + bs.length ≤ count) :
    (m.write (a + offset) bs).read a count =
      Bytes.patched offset bs (m.read a count) := by
  apply List.ext_getElem?
  intro i
  unfold Bytes.patched
  rw [getElem?_read, byte_write, List.append_assoc]
  rcases Nat.lt_or_ge i offset with hBefore | hFrom
  · have hTake : i < ((m.read a count).take offset).length := by
      rw [List.length_take, length_read]
      omega
    rw [List.getElem?_append_left hTake,
      List.getElem?_take_of_lt hBefore, getElem?_read,
      if_neg (by omega : ¬ a + offset ≤ a + i)]
  · have hTake : ((m.read a count).take offset).length = offset := by
      rw [List.length_take, length_read]
      omega
    have hIndex : a + i - (a + offset) = i - offset := by omega
    rw [List.getElem?_append_right (by rw [hTake]; exact hFrom),
      hTake, if_pos (by omega : a + offset ≤ a + i), hIndex]
    rcases Nat.lt_or_ge (i - offset) bs.length with hIn | hAfter
    · rw [List.getElem?_append_left hIn,
        List.getElem?_eq_getElem hIn, if_pos (by omega)]
      rfl
    · rw [List.getElem?_append_right hAfter,
        List.getElem?_drop, getElem?_read,
        List.getElem?_eq_none hAfter,
        (by omega :
          offset + bs.length + (i - offset - bs.length) = i)]
      rfl

namespace BufferPool

variable {reserve : Nat → Except MapError Mapping}
variable {p q : BufferPool}
variable {b b' c : PageBuffer}
variable {count : Nat}
variable {bs : List UInt8}

/- Preparing a pool does not touch its memory. -/
theorem prepare_frame
    (p : BufferPool)
    (count : Nat) :
    (p.prepareWith reserve count).memory = p.memory ∧
      (p.prepareWith reserve count).used = p.used := by
  unfold prepareWith
  split
  · exact ⟨rfl, rfl⟩
  · split <;> exact ⟨rfl, rfl⟩

/-
  A new buffer has as many bytes as were asked for, and none of
  the bytes of the pool that were handed out before.
-/
theorem allocate_spec
    (hAllocate : p.allocateWith reserve count = .ok (b, q)) :
    b.length = count ∧ q.memory = p.memory ∧
      p.used ≤ q.used ∧ b.Below q.used ∧
      ∀ c : PageBuffer, c.Below p.used → b.Apart c := by
  have hFrame := @prepare_frame reserve p count
  unfold allocateWith at hAllocate
  dsimp only at hAllocate
  split at hAllocate
  · cases hAllocate
    refine ⟨rfl, hFrame.1, ?_, Nat.le_refl _, ?_⟩
    · rw [← hFrame.2]
      exact Nat.le_add_right _ _
    · rw [← hFrame.2]
      intro c hBelow
      cases c with
      | pooled start length => exact Or.inr hBelow
      | owned length memory => trivial
  · unfold Word.entries at hAllocate
    split at hAllocate
    · cases hAllocate
      exact
        ⟨rfl, hFrame.1, Nat.le_of_eq hFrame.2.symm, trivial,
          fun c _ => trivial⟩
    · cases hAllocate

/- Writing into a buffer keeps its place and its length. -/
theorem write_frame
    {offset : Nat}
    (hWrite : p.write b offset bs = (b', q)) :
    b'.length = b.length ∧ q.used = p.used ∧
      (∀ used, b.Below used → b'.Below used) ∧
      ∀ c, b.Apart c → b'.Apart c := by
  cases b with
  | pooled start length =>
      cases hWrite
      exact ⟨rfl, rfl, fun _ h => h, fun _ h => h⟩
  | owned length memory =>
      cases hWrite
      exact ⟨rfl, rfl, fun _ _ => trivial, fun _ _ => trivial⟩

theorem slice_write_self
    (hLength : bs.length = b.length)
    (hWrite : p.write b 0 bs = (b', q)) :
    q.slice b' 0 b.length = bs := by
  rw [← hLength]
  cases b with
  | pooled start length =>
      cases hWrite
      exact p.memory.read_write_self _ bs
  | owned length memory =>
      cases hWrite
      exact memory.read_write_self 0 bs

theorem bytes_write_self
    {offset : Nat}
    (hFits : offset + bs.length ≤ b.length)
    (hWrite : p.write b offset bs = (b', q)) :
    q.bytes b' = Bytes.patched offset bs (p.bytes b) := by
  cases b with
  | pooled start length =>
      cases hWrite
      exact p.memory.read_write_within start hFits
  | owned length memory =>
      cases hWrite
      have hWithin := memory.read_write_within 0 hFits
      rwa [Nat.zero_add] at hWithin

/- The others are read as before. -/
theorem slice_write_apart
    {offset : Nat}
    (hFits : offset + bs.length ≤ b.length)
    (hApart : b.Apart c)
    (hWrite : p.write b offset bs = (b', q)) :
    q.slice c 0 c.length = p.slice c 0 c.length := by
  cases b with
  | pooled start length =>
      cases hWrite
      cases c with
      | pooled start' length' =>
          change start + length ≤ start' ∨ _ ≤ start at hApart
          change offset + bs.length ≤ length at hFits
          refine p.memory.read_write_apart _ _ _ bs ?_
          change _ ∨ start' + 0 + length' ≤ start + offset
          omega
      | owned length' memory => rfl
  | owned length memory =>
      cases hWrite
      rfl

end BufferPool

end BeltHeap
