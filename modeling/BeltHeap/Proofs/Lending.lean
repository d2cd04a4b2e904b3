import BeltHeap.Proofs.Alignment
import BeltHeap.Proofs.Buffers

/-
  All buffers that a pool ever hands out, and what is written
  into them.  Whatever is asked for and written in between, the
  buffers hold what buffers of separate memory would hold, and
  the pool keeps count of the bytes that it lent.

  Main declarations:
    * `Mapping.le_size_of_reserve`
    * `BufferPool.Declines`, `BufferPool.Settled`
    * `Lending`, `Lending.Operation`, `Lending.performAll`
    * `Lending.Sound`, `Lending.Sound.step`
    * `Lending.buffers_are_lent_apart`
    * `Lending.requests_may_overflow`
-/

------------------------------------------------------------
-- Requests
------------------------------------------------------------

namespace BeltHeap

/- No mapping is smaller than was asked for. -/
theorem Mapping.le_size_of_reserve
    {place size : Nat}
    {m : Mapping}
    (hSize : size < Word.limit)
    (hReserve : reserve place size = .ok m) :
    size ≤ m.size := by
  have hUp :=
    Word.alignUp_two_pow (k := 12) (by decide) (max size 1)
  change roundedSize size = _ at hUp
  unfold reserve at hReserve
  dsimp only at hReserve
  split at hReserve
  · cases hReserve
  · split at hReserve
    · cases hReserve
    · cases hReserve
      unfold Word.limit at hSize hUp
      change size ≤ roundedSize size
      omega

theorem Memory.read_eq_replicate
    {m : Memory}
    {a count : Nat}
    (hZero : ∀ b, a ≤ b → m.byte b = 0) :
    m.read a count = List.replicate count 0 := by
  rw [List.eq_replicate_iff]
  refine ⟨m.length_read a count, fun v hMem => ?_⟩
  rcases List.mem_map.mp hMem with ⟨b, hRange, rfl⟩
  exact hZero b (List.mem_range'_1.mp hRange).1

namespace PageBuffer

/- The number of bytes of the pool that a buffer takes. -/
def lent : PageBuffer → Nat
| .pooled _ length => length
| .owned _ _ => 0

/-
  Buffers stay apart if one of them becomes another that is
  apart from all that it was apart from.
-/
theorem pairwise_apart_set
    {buffers : List PageBuffer}
    {i : Nat}
    {b b' : PageBuffer}
    (hPairs : buffers.Pairwise Apart)
    (hBuffer : buffers[i]? = some b)
    (hApart : ∀ c, b.Apart c → b'.Apart c) :
    (buffers.set i b').Pairwise Apart := by
  rcases List.getElem?_eq_some_iff.mp hBuffer with ⟨_, hAt⟩
  rw [List.pairwise_iff_getElem] at hPairs ⊢
  intro j k hj hk hOrder
  rw [List.length_set] at hj hk
  have hOld := hPairs j k hj hk hOrder
  rw [List.getElem_set, List.getElem_set]
  split
  · subst j
    rw [if_neg (Nat.ne_of_lt hOrder)]
    exact hApart _ (hAt ▸ hOld)
  · split
    · subst k
      exact (hApart _ (hAt ▸ hOld.symm)).symm
    · exact hOld

end PageBuffer

namespace BufferPool

/- A pool of which nothing was asked yet. -/
def fresh
    (size : Nat)
    (disabled : Bool) : BufferPool :=
  { size, disabled }

/-
  Whether a pool that lent some of its bytes leaves a request to
  memory of its own: it is disabled, it cannot be mapped, or it
  has fewer free bytes.
-/
def Declines
    (reserve : Nat → Except MapError Mapping)
    (p : BufferPool)
    (count : Nat) : Prop :=
  p.disabled = true ∨ (∃ e, reserve p.size = .error e) ∨
    p.size - p.used < count

/- A pool knows what became of its mapping. -/
structure Settled
    (reserve : Nat → Except MapError Mapping)
    (p : BufferPool) : Prop where
  mapped :
    p.state = .mapped →
      p.disabled = false ∧ ∃ m, reserve p.size = .ok m
  failed : p.state = .failed → ∃ e, reserve p.size = .error e

variable {reserve : Nat → Except MapError Mapping}
variable {p q : BufferPool}
variable {b : PageBuffer}
variable {count : Nat}

theorem bytes_congr
    (hMemory : q.memory = p.memory) :
    q.bytes b = p.bytes b := by
  cases b <;> simp only [bytes, slice, hMemory]

@[simp]
theorem length_bytes
    (p : BufferPool)
    (b : PageBuffer) :
    (p.bytes b).length = b.length := by
  cases b <;> simp [bytes, slice]

/- A write into a buffer leaves the bytes behind it. -/
theorem byte_write_beyond
    {b' : PageBuffer}
    {used offset a : Nat}
    {bs : List UInt8}
    (hBelow : b.Below used)
    (hFits : offset + bs.length ≤ b.length)
    (hWrite : p.write b offset bs = (b', q))
    (hBeyond : used ≤ a) :
    q.memory.byte a = p.memory.byte a := by
  cases b with
  | owned length memory =>
      cases hWrite
      rfl
  | pooled start length =>
      cases hWrite
      change start + length ≤ used at hBelow
      change offset + bs.length ≤ length at hFits
      have hPast : bs[a - (start + offset)]? = none :=
        List.getElem?_eq_none (by omega)
      change (p.memory.write (start + offset) bs).byte a = _
      rw [Memory.byte_write, hPast]
      simp

/- Preparing a pool settles its mapping and nothing else. -/
theorem Settled.prepared
    (hSettled : Settled reserve p)
    (count : Nat) :
    Settled reserve (p.prepareWith reserve count) ∧
      (p.prepareWith reserve count).size = p.size ∧
      (p.prepareWith reserve count).disabled = p.disabled ∧
      (p.state = .mapped →
        (p.prepareWith reserve count).state = .mapped) := by
  unfold prepareWith
  split
  · exact ⟨hSettled, rfl, rfl, id⟩
  · rename_i hAsk
    simp only [Bool.or_eq_true, decide_eq_true_eq, not_or,
      Bool.not_eq_true, ne_eq, Decidable.not_not] at hAsk
    cases hReserve : reserve p.size with
    | ok m =>
        refine ⟨⟨fun _ => ⟨hAsk.1.1, m, hReserve⟩, nofun⟩, ?_⟩
        exact ⟨rfl, rfl, fun _ => rfl⟩
    | error e =>
        refine ⟨⟨nofun, fun _ => ⟨e, hReserve⟩⟩, rfl, rfl, ?_⟩
        simp [hAsk.1.2]

/- A prepared pool serves what it does not decline. -/
theorem Settled.serves_iff
    (hSettled : Settled reserve p) :
    (p.prepareWith reserve count).serves count = true ↔
      ¬ p.Declines reserve count := by
  rcases hSettled.prepared count with
    ⟨hPrepared, hSize, hDisabled, -⟩
  have hUsed := (@prepare_frame reserve p count).2
  simp only [serves, Bool.and_eq_true, Bool.not_eq_true',
    decide_eq_true_eq, Declines, not_or, not_exists,
    Bool.not_eq_true, Nat.not_lt, hSize, hUsed, hDisabled]
  constructor
  · rintro ⟨⟨hEnabled, hMapped⟩, hFree⟩
    rcases hPrepared.mapped hMapped with ⟨-, m, hReserve⟩
    rw [hSize] at hReserve
    exact ⟨hEnabled, fun e => by simp [hReserve], hFree⟩
  · rintro ⟨hEnabled, hReserve, hFree⟩
    refine ⟨⟨hEnabled, ?_⟩, hFree⟩
    -- The pool is mapped by now or was mapped before.
    cases hState : p.state with
    | mapped => exact (hSettled.prepared count).2.2.2 hState
    | failed =>
        rcases hSettled.failed hState with ⟨e, hError⟩
        exact absurd hError (hReserve e)
    | unmapped =>
        have hFits : ¬ p.size < count := by omega
        cases hMap : reserve p.size with
        | ok m =>
            simp [prepareWith, hEnabled, hState, hFits, hMap]
        | error e => exact absurd hMap (hReserve e)

/- A request that is not declined takes the next bytes. -/
theorem Settled.allocate_pooled
    (hSettled : Settled reserve p)
    (hServes : ¬ p.Declines reserve count) :
    p.allocateWith reserve count =
      .ok (.pooled p.used count,
        { p.prepareWith reserve count with
          used := p.used + count }) := by
  unfold allocateWith
  dsimp only
  rw [if_pos (hSettled.serves_iff.mpr hServes),
    (prepare_frame p count).2]

/-
  A request that is declined gets memory of its own, unless it
  is for half of all addresses.
-/
theorem Settled.allocate_owned
    (hSettled : Settled reserve p)
    (hDeclines : p.Declines reserve count) :
    p.allocateWith reserve count =
      if count < Word.signedLimit then
        .ok (.owned count {}, p.prepareWith reserve count)
      else .error .capacityOverflow := by
  have hServes : ¬ (p.prepareWith reserve count).serves count :=
    fun hServes => hSettled.serves_iff.mp hServes hDeclines
  unfold allocateWith Word.entries
  dsimp only
  rw [if_neg hServes, Nat.mul_one]
  split <;> rfl

/- What becomes of a pool that gives out a buffer. -/
theorem Settled.of_allocate
    (hSettled : Settled reserve p)
    (hAllocate : p.allocateWith reserve count = .ok (b, q)) :
    Settled reserve q ∧ q.size = p.size ∧
      q.disabled = p.disabled ∧
      (p.state = .mapped → q.state = .mapped) ∧
      (¬ p.Declines reserve count ∧ q.state = .mapped ∧
          b = .pooled p.used count ∧ q.used = p.used + count ∨
        p.Declines reserve count ∧ b = .owned count {} ∧
          q.used = p.used) := by
  rcases hSettled.prepared count with
    ⟨hPrepared, hSize, hDisabled, hKept⟩
  by_cases hDeclines : p.Declines reserve count
  · rw [hSettled.allocate_owned hDeclines] at hAllocate
    split at hAllocate
    · cases hAllocate
      exact
        ⟨hPrepared, hSize, hDisabled, hKept,
          .inr ⟨hDeclines, rfl, (prepare_frame p count).2⟩⟩
    · cases hAllocate
  · have hServes := hSettled.serves_iff.mpr hDeclines
    simp only [serves, Bool.and_eq_true,
      decide_eq_true_eq] at hServes
    rw [hSettled.allocate_pooled hDeclines] at hAllocate
    cases hAllocate
    exact
      ⟨⟨hPrepared.mapped, hPrepared.failed⟩, hSize, hDisabled,
        hKept, .inl ⟨hDeclines, hServes.1.2, rfl, rfl⟩⟩

/- What is a fault is a declined request for too much. -/
theorem Settled.of_allocate_error
    {f : Fault}
    (hSettled : Settled reserve p)
    (hAllocate : p.allocateWith reserve count = .error f) :
    f = .capacityOverflow ∧ p.Declines reserve count ∧
      Word.signedLimit ≤ count := by
  by_cases hDeclines : p.Declines reserve count
  · rw [hSettled.allocate_owned hDeclines] at hAllocate
    split at hAllocate
    · cases hAllocate
    · cases hAllocate
      exact ⟨rfl, hDeclines, Nat.le_of_not_lt ‹_›⟩
  · rw [hSettled.allocate_pooled hDeclines] at hAllocate
    cases hAllocate

end BufferPool

------------------------------------------------------------
-- Histories
------------------------------------------------------------

/- A pool with all the buffers that it handed out, in order. -/
structure Lending where
  pool : BufferPool
  buffers : List PageBuffer := []

namespace Lending

/- Ask for a buffer, or write into one of those handed out. -/
inductive Operation where
| allocate (count : Nat) : Operation
| write
    (buffer : Nat)
    (offset : Nat)
    (bs : List UInt8) : Operation

namespace Operation

/-
  What separate buffers hold after an operation: a new one is
  all zero, and a write changes one of them.
-/
def on (held : List (List UInt8)) : Operation → List (List UInt8)
| .allocate count => held ++ [List.replicate count 0]
| .write i offset bs => held.modify i (Bytes.patched offset bs)

/- Does an operation stay within the buffers there are? -/
def Fits (held : List (List UInt8)) : Operation → Prop
| .allocate _ => True
| .write i offset bs =>
    ∃ h : i < held.length, offset + bs.length ≤ held[i].length

/- Does each operation fit after those before it? -/
def AllFit : List (List UInt8) → List Operation → Prop
| _, [] => True
| held, op :: ops => op.Fits held ∧ AllFit (op.on held) ops

end Operation

/- What the buffers hold. -/
def contents (s : Lending) : List (List UInt8) :=
  s.buffers.map s.pool.bytes

/- The number of bytes of the pool that the buffers take. -/
def lentBytes (s : Lending) : Nat :=
  (s.buffers.map PageBuffer.lent).sum

/-
  Carry out one operation.  A write that leaves its buffer is a
  fault at the first byte outside.
-/
def perform
    (reserve : Nat → Except MapError Mapping)
    (s : Lending) : Operation → Except Fault Lending
| .allocate count => do
    let (b, pool) ← s.pool.allocateWith reserve count
    pure { pool, buffers := s.buffers ++ [b] }
| .write i offset bs =>
    match s.buffers[i]? with
    | none => .error (.indexOutOfBounds s.buffers.length i)
    | some b =>
        if offset + bs.length ≤ b.length then
          let (b, pool) := s.pool.write b offset bs
          .ok { pool, buffers := s.buffers.set i b }
        else
          .error (.indexOutOfBounds b.length (max offset b.length))

/- Carry out one operation after another. -/
def performAll
    (reserve : Nat → Except MapError Mapping)
    (s : Lending)
    (ops : List Operation) : Except Fault Lending :=
  ops.foldlM (perform reserve) s

/-
  The pool has lent its first bytes, to buffers that share none
  of them.  The others are still zero.
-/
structure Sound
    (reserve : Nat → Except MapError Mapping)
    (size : Nat)
    (disabled : Bool)
    (s : Lending) : Prop where
  settled : s.pool.Settled reserve
  size_eq : s.pool.size = size
  disabled_eq : s.pool.disabled = disabled
  bounded : s.pool.used ≤ size
  total : s.pool.used = s.lentBytes
  below : ∀ b ∈ s.buffers, b.Below s.pool.used
  apart : s.buffers.Pairwise PageBuffer.Apart
  spare : ∀ a, s.pool.used ≤ a → s.pool.memory.byte a = 0
  mapped :
    ∀ b ∈ s.buffers, b.isPooled = true → s.pool.state = .mapped

variable {reserve : Nat → Except MapError Mapping}
variable {size : Nat}
variable {disabled : Bool}
variable {s t : Lending}

/- A new pool has lent nothing. -/
theorem Sound.fresh :
    Sound reserve size disabled ⟨.fresh size disabled, []⟩ where
  settled := ⟨nofun, nofun⟩
  size_eq := rfl
  disabled_eq := rfl
  bounded := Nat.zero_le size
  total := rfl
  below := nofun
  apart := .nil
  spare := fun a _ => Memory.byte_empty a
  mapped := nofun

/- Two of the buffers share no byte of the pool. -/
theorem Sound.apart_of_ne
    {i j : Nat}
    {b c : PageBuffer}
    (h : Sound reserve size disabled s)
    (hFirst : s.buffers[i]? = some b)
    (hSecond : s.buffers[j]? = some c)
    (hNe : i ≠ j) :
    b.Apart c := by
  rcases List.getElem?_eq_some_iff.mp hFirst with ⟨hi, rfl⟩
  rcases List.getElem?_eq_some_iff.mp hSecond with ⟨hj, rfl⟩
  have hPairs := List.pairwise_iff_getElem.mp h.apart
  rcases Nat.lt_or_gt_of_ne hNe with hLt | hGt
  · exact hPairs i j hi hj hLt
  · exact (hPairs j i hj hi hGt).symm

------------------------------------------------------------
-- New Buffers
------------------------------------------------------------

section NewBuffers

variable {count : Nat}
variable {b : PageBuffer}
variable {q : BufferPool}

/- A new buffer is all zero, wherever its memory is. -/
theorem Sound.new_buffer
    (h : Sound reserve size disabled s)
    (hAllocate :
      s.pool.allocateWith reserve count = .ok (b, q)) :
    q.used ≤ size ∧ q.used = s.pool.used + b.lent ∧
      q.bytes b = List.replicate count 0 ∧
      (b.isPooled = true → q.state = .mapped) ∧
      (b.isPooled = false ↔ s.pool.Declines reserve count) := by
  have hMemory := (BufferPool.allocate_spec hAllocate).2.1
  have hBounded := h.bounded
  rcases (h.settled.of_allocate hAllocate).2.2.2.2 with
    ⟨hServes, hMapped, rfl, hUsed⟩ | ⟨hDeclines, rfl, hUsed⟩
  · have hZero :
        q.memory.read s.pool.used count =
          List.replicate count 0 := by
      rw [hMemory]
      exact Memory.read_eq_replicate h.spare
    have hFree : count ≤ size - s.pool.used := by
      simp only [BufferPool.Declines, not_or, Nat.not_lt,
        h.size_eq] at hServes
      exact hServes.2.2
    exact
      ⟨by omega, hUsed, hZero, fun _ => hMapped, nofun,
        fun hDeclines => absurd hDeclines hServes⟩
  · have hZero :
        ({} : Memory).read 0 count = List.replicate count 0 :=
      Memory.read_eq_replicate fun b _ => Memory.byte_empty b
    exact
      ⟨hUsed ▸ hBounded, hUsed, hZero, nofun, fun _ => hDeclines,
        fun _ => rfl⟩

/-
  A new buffer leaves what the others hold.  It has memory of its
  own if the pool declines to serve it.
-/
theorem Sound.allocate
    (h : Sound reserve size disabled s)
    (hAllocate :
      s.pool.allocateWith reserve count = .ok (b, q)) :
    Sound reserve size disabled ⟨q, s.buffers ++ [b]⟩ ∧
      (⟨q, s.buffers ++ [b]⟩ : Lending).contents =
        s.contents ++ [List.replicate count 0] := by
  rcases BufferPool.allocate_spec hAllocate with
    ⟨-, hMemory, hMore, hBelow, hApart⟩
  rcases h.settled.of_allocate hAllocate with
    ⟨hSettled, hSize, hDisabled, hKept, -⟩
  rcases h.new_buffer hAllocate with
    ⟨hLe, hUsed, hZero, hMapped, -⟩
  have hTotal := h.total
  refine
    ⟨⟨hSettled, hSize.trans h.size_eq,
      hDisabled.trans h.disabled_eq, hLe, ?_, ?_, ?_, ?_, ?_⟩, ?_⟩
  · simp only [lentBytes, List.map_append, List.sum_append,
      List.map_cons, List.map_nil, List.sum_singleton] at hTotal ⊢
    omega
  · intro c hMem
    rw [List.mem_append, List.mem_singleton] at hMem
    rcases hMem with hOld | rfl
    · exact (h.below c hOld).mono hMore
    · exact hBelow
  · rw [List.pairwise_append]
    refine ⟨h.apart, List.pairwise_singleton _ _, ?_⟩
    intro c hOld d hNew
    rw [List.mem_singleton.mp hNew]
    exact (hApart c (h.below c hOld)).symm
  · intro a hBeyond
    rw [hMemory]
    exact h.spare a (Nat.le_trans hMore hBeyond)
  · intro c hMem hPooled
    rw [List.mem_append, List.mem_singleton] at hMem
    rcases hMem with hOld | rfl
    · exact hKept (h.mapped c hOld hPooled)
    · exact hMapped hPooled
  · simp [contents, hZero, BufferPool.bytes_congr hMemory]

end NewBuffers

------------------------------------------------------------
-- Writes
------------------------------------------------------------

section Writes

variable {i offset : Nat}
variable {bs : List UInt8}
variable {b b' : PageBuffer}
variable {q : BufferPool}

/- A write within a buffer leaves what the others hold. -/
theorem Sound.contents_write
    (h : Sound reserve size disabled s)
    (hBuffer : s.buffers[i]? = some b)
    (hFits : offset + bs.length ≤ b.length)
    (hWrite : s.pool.write b offset bs = (b', q)) :
    (⟨q, s.buffers.set i b'⟩ : Lending).contents =
      s.contents.modify i (Bytes.patched offset bs) := by
  rcases List.getElem?_eq_some_iff.mp hBuffer with ⟨hLt, hAt⟩
  have hOthers :
      ∀ j c, s.buffers[j]? = some c → i ≠ j →
        q.bytes c = s.pool.bytes c :=
    fun j c hOther hNe =>
      BufferPool.slice_write_apart hFits
        (h.apart_of_ne hBuffer hOther hNe) hWrite
  apply List.ext_getElem?
  intro j
  simp only [contents, List.getElem?_map, List.getElem?_set,
    List.getElem?_modify]
  by_cases hSame : i = j
  · subst j
    simp [hLt, hAt, BufferPool.bytes_write_self hFits hWrite]
  · simp only [if_neg hSame]
    cases hOther : s.buffers[j]? with
    | none => rfl
    | some c => simp [hOthers j c hOther hSame]

/- A write keeps the places and the lengths of all buffers. -/
theorem Sound.write
    (h : Sound reserve size disabled s)
    (hBuffer : s.buffers[i]? = some b)
    (hFits : offset + bs.length ≤ b.length)
    (hWrite : s.pool.write b offset bs = (b', q)) :
    Sound reserve size disabled ⟨q, s.buffers.set i b'⟩ := by
  have hMem := List.mem_of_getElem? hBuffer
  rcases List.getElem?_eq_some_iff.mp hBuffer with ⟨hLt, hAt⟩
  rcases BufferPool.write_frame hWrite with
    ⟨-, hUsed, hBelow, hApart⟩
  have hKept :
      b'.lent = b.lent ∧ b'.isPooled = b.isPooled ∧
        q.size = s.pool.size ∧ q.disabled = s.pool.disabled ∧
        q.state = s.pool.state := by
    cases b <;> cases hWrite <;> exact ⟨rfl, rfl, rfl, rfl, rfl⟩
  rcases hKept with ⟨hLent, hPooled, hSize, hDisabled, hState⟩
  refine
    ⟨⟨?_, ?_⟩, hSize.trans h.size_eq,
      hDisabled.trans h.disabled_eq, hUsed ▸ h.bounded, ?_, ?_,
      ?_, ?_, ?_⟩
  · rw [hState, hSize, hDisabled]
    exact h.settled.mapped
  · rw [hState, hSize]
    exact h.settled.failed
  · have hMap :
        (s.buffers.map PageBuffer.lent).set i b.lent =
          s.buffers.map PageBuffer.lent := by
      rw [← List.map_set, ← hAt, List.set_getElem_self]
    rw [hUsed, h.total, lentBytes, lentBytes, List.map_set, hLent,
      hMap]
  · intro c hMem'
    rcases List.mem_or_eq_of_mem_set hMem' with hOld | rfl
    · exact hUsed ▸ h.below c hOld
    · exact hUsed ▸ hBelow _ (h.below b hMem)
  · exact PageBuffer.pairwise_apart_set h.apart hBuffer hApart
  · intro a hBeyond
    rw [hUsed] at hBeyond
    rw [BufferPool.byte_write_beyond (h.below b hMem) hFits hWrite
      hBeyond]
    exact h.spare a hBeyond
  · intro c hMem' hIs
    rw [hState]
    rcases List.mem_or_eq_of_mem_set hMem' with hOld | rfl
    · exact h.mapped c hOld hIs
    · exact h.mapped b hMem (hPooled ▸ hIs)

end Writes

------------------------------------------------------------
-- Histories of Operations
------------------------------------------------------------

/-
  An operation that fits is carried out, and does to the buffers
  what it would do to separate ones.  Only a request for half of
  all addresses may be a fault, and only if it is declined.
-/
theorem Sound.step
    {op : Operation}
    (h : Sound reserve size disabled s)
    (hFits : op.Fits s.contents) :
    (∃ t,
        s.perform reserve op = .ok t ∧
          Sound reserve size disabled t ∧
          t.contents = op.on s.contents) ∨
      ∃ count,
        op = .allocate count ∧ Word.signedLimit ≤ count ∧
          s.pool.Declines reserve count ∧
          s.perform reserve op = .error .capacityOverflow := by
  cases op with
  | allocate count =>
      cases hAllocate : s.pool.allocateWith reserve count with
      | ok r =>
          rcases h.allocate hAllocate with ⟨hSound, hContents⟩
          refine .inl ⟨_, ?_, hSound, hContents⟩
          simp only [perform, hAllocate]
          rfl
      | error f =>
          rcases h.settled.of_allocate_error hAllocate with
            ⟨rfl, hDeclines, hLarge⟩
          refine .inr ⟨count, rfl, hLarge, hDeclines, ?_⟩
          simp only [perform, hAllocate]
          rfl
  | write i offset bs =>
      rcases hFits with ⟨hLt, hFits⟩
      simp only [contents, List.getElem_map, List.length_map,
        BufferPool.length_bytes] at hLt hFits
      have hBuffer : s.buffers[i]? = some s.buffers[i] :=
        List.getElem?_eq_getElem hLt
      cases hWrite : s.pool.write s.buffers[i] offset bs with
      | mk b q =>
          refine .inl ⟨_, ?_, h.write hBuffer hFits hWrite,
            h.contents_write hBuffer hFits hWrite⟩
          simp only [perform, hBuffer, if_pos hFits, hWrite]

/-
  Operations one after another keep a pool sound, up to one that
  it declines for asking too much.
-/
theorem Sound.steps
    {ops : List Operation}
    (h : Sound reserve size disabled s)
    (hFit : Operation.AllFit s.contents ops) :
    (∃ t,
        s.performAll reserve ops = .ok t ∧
          Sound reserve size disabled t ∧
          t.contents = ops.foldl Operation.on s.contents) ∨
      ∃ done count rest t,
        ops = done ++ .allocate count :: rest ∧
          s.performAll reserve done = .ok t ∧
          t.pool.Declines reserve count ∧
          Word.signedLimit ≤ count ∧
          s.performAll reserve ops = .error .capacityOverflow := by
  induction ops generalizing s with
  | nil => exact .inl ⟨s, rfl, h, rfl⟩
  | cons op ops ih =>
      rcases h.step hFit.1 with
        ⟨t, hPerform, hSound, hContents⟩ |
          ⟨count, rfl, hLarge, hDeclines, hPerform⟩
      · have hNext :
            ∀ rest,
              s.performAll reserve (op :: rest) =
                t.performAll reserve rest := by
          intro rest
          unfold performAll
          rw [List.foldlM_cons, hPerform]
          rfl
        have hRest := hFit.2
        rw [← hContents] at hRest
        rcases ih hSound hRest with
          ⟨u, hAll, hRun, hHeld⟩ |
            ⟨done, count, rest, u, rfl, hDone, hLast⟩
        · rw [hContents] at hHeld
          exact .inl ⟨u, (hNext _).trans hAll, hRun, hHeld⟩
        · refine
            .inr ⟨op :: done, count, rest, u, rfl, ?_, hLast.1,
              hLast.2.1, ?_⟩
          · exact (hNext _).trans hDone
          · exact (hNext _).trans hLast.2.2
      · refine
          .inr ⟨[], count, ops, s, rfl, rfl, hDeclines, hLarge, ?_⟩
        unfold performAll
        rw [List.foldlM_cons, hPerform]
        rfl

------------------------------------------------------------
-- Lent Buffers
------------------------------------------------------------

/-
  Whatever is asked of a pool and written into its buffers, each
  buffer is as long as was asked for and starts out zero, and a
  write changes no buffer but its own.  Those of the pool lie
  apart within the bytes that it may lend and that are mapped,
  and it counts them.  A buffer has memory of its own exactly if
  the pool is disabled, cannot be mapped or has too few bytes
  left; only then, and only for half of all addresses or more,
  is there no buffer.
-/
theorem buffers_are_lent_apart
    {ops : List Operation}
    (hCovers : ∀ m, reserve size = .ok m → size ≤ m.size)
    (hFit : Operation.AllFit [] ops) :
    (∃ s,
        performAll reserve ⟨.fresh size disabled, []⟩ ops = .ok s ∧
          s.contents = ops.foldl Operation.on [] ∧
          s.buffers.Pairwise PageBuffer.Apart ∧
          (∀ b ∈ s.buffers, b.isPooled = true →
            b.Below size ∧
              ∃ m, reserve size = .ok m ∧ b.Below m.size) ∧
          s.pool.used = s.lentBytes ∧ s.pool.used ≤ size ∧
          ∀ count,
            (∃ b q,
                s.pool.allocateWith reserve count = .ok (b, q) ∧
                  b.length = count ∧
                  q.bytes b = List.replicate count 0 ∧
                  (b.isPooled = false ↔
                    disabled = true ∨
                      (∃ e, reserve size = .error e) ∨
                      size - s.pool.used < count)) ∨
              s.pool.Declines reserve count ∧
                Word.signedLimit ≤ count ∧
                s.pool.allocateWith reserve count =
                  .error .capacityOverflow) ∨
      ∃ done count rest s,
        ops = done ++ .allocate count :: rest ∧
          performAll reserve ⟨.fresh size disabled, []⟩ done =
            .ok s ∧
          s.pool.Declines reserve count ∧
          Word.signedLimit ≤ count ∧
          performAll reserve ⟨.fresh size disabled, []⟩ ops =
            .error .capacityOverflow := by
  refine Sound.fresh.steps hFit |>.imp_left ?_
  rintro ⟨s, hAll, h, hContents⟩
  refine
    ⟨s, hAll, hContents, h.apart, fun b hMem hPooled => ?_,
      h.total, h.bounded, fun count => ?_⟩
  · rcases h.settled.mapped (h.mapped b hMem hPooled) with
      ⟨-, m, hReserve⟩
    rw [h.size_eq] at hReserve
    have hBelow := (h.below b hMem).mono h.bounded
    exact ⟨hBelow, m, hReserve, hBelow.mono (hCovers m hReserve)⟩
  · cases hAllocate : s.pool.allocateWith reserve count with
    | ok r =>
        rcases h.new_buffer hAllocate with ⟨-, -, hZero, -, hOwn⟩
        have hLength := (BufferPool.allocate_spec hAllocate).1
        unfold BufferPool.Declines at hOwn
        rw [h.size_eq, h.disabled_eq] at hOwn
        exact .inl ⟨r.1, r.2, rfl, hLength, hZero, hOwn⟩
    | error f =>
        rcases h.settled.of_allocate_error hAllocate with
          ⟨rfl, hDeclines, hLarge⟩
        exact .inr ⟨hDeclines, hLarge, rfl⟩

/- Two buffers that do not both fit into the pool, and writes. -/
def twoBuffers : List Operation :=
  [.allocate 5, .allocate 5, .write 0 1 [1, 2], .write 1 0 [3]]

/- Of two buffers the pool lends one and not the other. -/
theorem buffers_are_lent_apart_twice :
    ∃ s,
      performAll (Mapping.reserve 0) ⟨.fresh 8 false, []⟩
          twoBuffers = .ok s ∧
        s.contents = [[0, 1, 2, 0, 0], [3, 0, 0, 0, 0]] ∧
        s.buffers.map PageBuffer.isPooled = [true, false] ∧
        s.pool.used = 5 ∧ s.pool.used = s.lentBytes := by
  have hCovers :
      ∀ m, Mapping.reserve 0 8 = .ok m → 8 ≤ m.size :=
    fun m hReserve =>
      Mapping.le_size_of_reserve (by decide) hReserve
  have hFit : Operation.AllFit [] twoBuffers :=
    ⟨trivial, trivial, ⟨by decide, by decide⟩,
      ⟨by decide, by decide⟩, trivial⟩
  rcases @buffers_are_lent_apart (Mapping.reserve 0) 8 false
      twoBuffers hCovers hFit with
    ⟨s, hAll, hContents, -, -, hTotal, -⟩ |
      ⟨done, count, rest, s, hOps, -, -, hLarge, -⟩
  · refine ⟨s, hAll, hContents, ?_, ?_, hTotal⟩ <;>
      cases hAll <;> rfl
  · have hMem : Operation.allocate count ∈ twoBuffers := by
      simp [hOps]
    have hSmall : count = 5 := by simpa [twoBuffers] using hMem
    subst hSmall
    exact absurd hLarge (by decide)

/-
  A request for half of all addresses gets no buffer, if the
  pool does not serve it.
-/
theorem requests_may_overflow :
    (BufferPool.fresh 0x10000 true).Declines (Mapping.reserve 0)
        Word.signedLimit ∧
      (BufferPool.fresh 0x10000 true).allocate Word.signedLimit =
        .error .capacityOverflow ∧
      ¬ ∀ size disabled count,
        ∃ b q,
          (BufferPool.fresh size disabled).allocate count =
              .ok (b, q) ∧
            b.length = count := by
  have hOverflow :
      (BufferPool.fresh 0x10000 true).allocate Word.signedLimit =
        .error .capacityOverflow := by
    rfl
  refine ⟨.inl rfl, hOverflow, fun hAll => ?_⟩
  rcases hAll 0x10000 true Word.signedLimit with
    ⟨b, q, hAllocate, -⟩
  rw [hOverflow] at hAllocate
  cases hAllocate

end Lending

end BeltHeap
