import BeltHeap.Observer.PageCache
import BeltHeap.Proofs.Buffers
import BeltHeap.Proofs.Targets

/-
  The pages of a cache.  Each of them has a buffer of its own,
  and unless it has to be read again, its bytes are those that
  the target held when it was last stopped.

  Main declarations:
    * `Page.Keeps`
    * `Shelf`
    * `Shelf.insert`, `Shelf.filled`
    * `Shelf.advanced`, `Shelf.invalidated`
    * `PageCache.run_checkCertain`
-/

------------------------------------------------------------
-- Runs of Bytes
------------------------------------------------------------

namespace BeltHeap

/- Bytes from an address on, each of them held at its place. -/
def Bears
    (holds : Nat → UInt8 → Prop)
    (a : Nat)
    (bs : List UInt8) : Prop :=
  ∀ i b, bs[i]? = some b → holds (a + i) b

/- A memory holds the bytes that it has. -/
def Holding
    (memory : Nat → Option UInt8)
    (a : Nat)
    (b : UInt8) : Prop :=
  memory a = some b

section Bears

variable {holds other : Nat → UInt8 → Prop}
variable {a : Nat}
variable {bs cs : List UInt8}

/- Adjoining runs of bytes make up one run. -/
theorem Bears.append
    (hFirst : Bears holds a bs)
    (hSecond : Bears holds (a + bs.length) cs) :
    Bears holds a (bs ++ cs) := by
  intro i b hByte
  by_cases hLt : i < bs.length
  · rw [List.getElem?_append_left hLt] at hByte
    exact hFirst i b hByte
  · rw [List.getElem?_append_right (Nat.le_of_not_lt hLt)]
      at hByte
    have hShown := hSecond (i - bs.length) b hByte
    have hPlace : a + bs.length + (i - bs.length) = a + i := by
      omega
    rw [hPlace] at hShown
    exact hShown

theorem Bears.congr
    (hBears : Bears holds a bs)
    (hSame :
      ∀ k, a ≤ k → k < a + bs.length →
        ∀ b, holds k b → other k b) :
    Bears other a bs := by
  intro i b hByte
  have hLt := (List.getElem?_eq_some_iff.mp hByte).1
  exact hSame (a + i) (by omega) (by omega) b (hBears i b hByte)

/- A part of a buffer bears a part of what the buffer bears. -/
theorem Bears.slice
    {pool : BufferPool}
    {buffer : PageBuffer}
    {offset count : Nat}
    (hBears : Bears holds a (pool.bytes buffer))
    (hPart : offset + count ≤ buffer.length) :
    Bears holds (a + offset)
      (pool.slice buffer offset count) := by
  intro i b hByte
  rw [Nat.add_assoc]
  refine hBears (offset + i) b ?_
  unfold BufferPool.bytes BufferPool.slice at *
  cases buffer with
  | pooled start length =>
      rw [Memory.getElem?_read] at hByte ⊢
      change offset + count ≤ length at hPart
      change (if _ < length then _ else _) = _
      split at hByte
      · rw [if_pos (by omega), ← hByte, Nat.add_zero,
          Nat.add_assoc]
      · cases hByte
  | owned length memory =>
      rw [Memory.getElem?_read] at hByte ⊢
      change offset + count ≤ length at hPart
      change (if _ < length then _ else _) = _
      split at hByte
      · rw [if_pos (by omega), ← hByte, Nat.zero_add]
      · cases hByte

/- A slice of a buffer has as many bytes as were asked for. -/
theorem length_slice
    (pool : BufferPool)
    (buffer : PageBuffer)
    (offset count : Nat) :
    (pool.slice buffer offset count).length = count := by
  cases buffer <;> exact Memory.length_read _ _ _

end Bears

------------------------------------------------------------
-- Pages
------------------------------------------------------------

/-
  A page has its place and its buffer.  It was read at this epoch
  or before, and bears what is held if it was at this one.
-/
structure Page.Keeps
    (holds : Nat → UInt8 → Prop)
    (pageSize : Nat)
    (pool : BufferPool)
    (epoch index : Nat)
    (p : Page) : Prop where
  indexed : p.index = index
  placed : p.address = index * pageSize
  length : p.buffer.length = pageSize
  below : p.buffer.Below pool.used
  past : ∀ e, p.epoch = some e → e ≤ epoch
  bears :
    p.epoch = some epoch →
      Bears holds p.address (pool.bytes p.buffer)

/- Pages that keep to their indexes and share no buffer. -/
structure Shelf
    (holds : Nat → UInt8 → Prop)
    (pageSize : Nat)
    (pool : BufferPool)
    (epoch : Nat)
    (pages : Std.HashMap Nat Page) : Prop where
  keeps :
    ∀ (index : Nat) (p : Page), pages[index]? = some p →
      p.Keeps holds pageSize pool epoch index
  apart :
    ∀ (i j : Nat) (p q : Page), pages[i]? = some p →
      pages[j]? = some q → i ≠ j → p.buffer.Apart q.buffer

variable {holds holds' : Nat → UInt8 → Prop}
variable {pageSize epoch index : Nat}
variable {pool pool' : BufferPool}
variable {pages : Std.HashMap Nat Page}
variable {p q : Page}

/- A page that is made has its place, and has to be read. -/
theorem Page.make_spec
    {buffer : PageBuffer}
    (hMake : Page.make index pageSize buffer = .ok p) :
    p.index = index ∧ p.address = index * pageSize ∧
      p.buffer = buffer ∧ p.epoch = none := by
  unfold make Word.mul at hMake
  split at hMake
  · cases hMake
  · split at hMake
    · cases hMake
      exact ⟨rfl, rfl, rfl, rfl⟩
    · cases hMake

/- A page that need not be read again is of this epoch. -/
theorem Page.Keeps.current
    (hKeeps : p.Keeps holds pageSize pool epoch index)
    (hFresh : p.isStale epoch = false) :
    p.epoch = some epoch := by
  unfold isStale at hFresh
  cases hEpoch : p.epoch with
  | none =>
      rw [hEpoch] at hFresh
      cases hFresh
  | some old =>
      rw [hEpoch] at hFresh
      have hNotOld := of_decide_eq_false hFresh
      have hPast := hKeeps.past old hEpoch
      rw [show old = epoch by omega]

/- A stale page is not of the epoch. -/
theorem Page.isStale_ne
    (hStale : p.isStale epoch = true) :
    p.epoch ≠ some epoch := by
  intro hEpoch
  unfold isStale at hStale
  rw [hEpoch] at hStale
  exact absurd (of_decide_eq_true hStale) (Nat.lt_irrefl _)

namespace Shelf

/- There are no pages at first. -/
theorem empty : Shelf holds pageSize pool epoch {} := by
  have hNone : ∀ i : Nat, ({} : Std.HashMap Nat Page)[i]? = none :=
    fun _ => Std.HashMap.getElem?_empty
  constructor
  · intro index p hPage
    rw [hNone] at hPage
    cases hPage
  · intro i j p q hPage
    rw [hNone] at hPage
    cases hPage

/- A page with a buffer of its own may be put with the others. -/
theorem insert
    (hShelf : Shelf holds pageSize pool epoch pages)
    (hKeeps : p.Keeps holds pageSize pool epoch index)
    (hApart :
      ∀ (j : Nat) (q : Page), pages[j]? = some q → j ≠ index →
        p.buffer.Apart q.buffer) :
    Shelf holds pageSize pool epoch (pages.insert p.index p) := by
  have hIndex := hKeeps.indexed
  constructor
  · intro i q hPage
    rw [Std.HashMap.getElem?_insert, hIndex] at hPage
    split at hPage
    · rename_i hEq
      cases hPage
      rw [← eq_of_beq hEq]
      exact hKeeps
    · exact hShelf.keeps i q hPage
  · intro i j q r hFirst hSecond hNe
    rw [Std.HashMap.getElem?_insert, hIndex] at hFirst hSecond
    split at hFirst
    · rename_i hEq
      cases hFirst
      have hEq' := eq_of_beq hEq
      subst hEq'
      rw [if_neg (by simpa using hNe)] at hSecond
      exact hApart j r hSecond (Ne.symm hNe)
    · split at hSecond
      · rename_i hEq
        cases hSecond
        have hEq' := eq_of_beq hEq
        subst hEq'
        exact (hApart i q hFirst hNe).symm
      · exact hShelf.apart i j q r hFirst hSecond hNe

/- More of the pool may be handed out. -/
theorem allocated
    (hShelf : Shelf holds pageSize pool epoch pages)
    (hMemory : pool'.memory = pool.memory)
    (hUsed : pool.used ≤ pool'.used) :
    Shelf holds pageSize pool' epoch pages := by
  have hBytes : ∀ b, pool'.bytes b = pool.bytes b := by
    intro b
    unfold BufferPool.bytes BufferPool.slice
    rw [hMemory]
  refine ⟨fun index p hPage => ?_, hShelf.apart⟩
  have hKeeps := hShelf.keeps index p hPage
  refine
    ⟨hKeeps.indexed, hKeeps.placed, hKeeps.length,
      hKeeps.below.mono hUsed, hKeeps.past, ?_⟩
  rw [hBytes]
  exact hKeeps.bears

/- The buffer of a page that is read again may be filled. -/
theorem filled
    {buffer : PageBuffer}
    {bs : List UInt8}
    (hShelf : Shelf holds pageSize pool epoch pages)
    (hPage : pages[index]? = some p)
    (hStale : p.isStale epoch = true)
    (hLength : bs.length = p.buffer.length)
    (hWrite : pool.write p.buffer 0 bs = (buffer, pool')) :
    Shelf holds pageSize pool' epoch pages := by
  have hUsed := (BufferPool.write_frame hWrite).2.1
  refine ⟨fun i q hOther => ?_, hShelf.apart⟩
  have hKeeps := hShelf.keeps i q hOther
  refine
    ⟨hKeeps.indexed, hKeeps.placed, hKeeps.length,
      hKeeps.below.mono (Nat.le_of_eq hUsed.symm), hKeeps.past,
      fun hEpoch => ?_⟩
  have hNe : index ≠ i := by
    rintro rfl
    rw [hPage] at hOther
    cases hOther
    exact Page.isStale_ne hStale hEpoch
  have hApart := hShelf.apart index i p q hPage hOther hNe
  have hFits : 0 + bs.length ≤ p.buffer.length := by omega
  have hSame :=
    BufferPool.slice_write_apart hFits hApart hWrite
  change Bears holds q.address (pool'.slice q.buffer 0 _)
  rw [hSame]
  exact hKeeps.bears hEpoch

/- All pages are read again in a later epoch. -/
theorem advanced
    (hShelf : Shelf holds pageSize pool epoch pages)
    (holds' : Nat → UInt8 → Prop) :
    Shelf holds' pageSize pool (epoch + 1) pages := by
  refine ⟨fun index p hPage => ?_, hShelf.apart⟩
  have hKeeps := hShelf.keeps index p hPage
  refine
    ⟨hKeeps.indexed, hKeeps.placed, hKeeps.length, hKeeps.below,
      fun e he => Nat.le_succ_of_le (hKeeps.past e he),
      fun hEpoch => ?_⟩
  exact absurd (hKeeps.past _ hEpoch) (Nat.not_succ_le_self _)

/-
  What is held may change in pages that are then read again
  before use.
-/
theorem invalidated
    {condition : Nat → Bool}
    (hShelf : Shelf holds pageSize pool epoch pages)
    (hSame :
      ∀ index, condition index = false →
        ∀ b, index * pageSize ≤ b →
          b < index * pageSize + pageSize →
            ∀ v, holds b v → holds' b v) :
    Shelf holds' pageSize pool epoch
      (pages.map fun index page =>
        if condition index then page.invalidated else page) := by
  have hBuffer :
      ∀ index (page : Page),
        (if condition index then page.invalidated
          else page).buffer = page.buffer := by
    intro index page
    split <;> rfl
  constructor
  · intro index p hPage
    rw [Std.HashMap.getElem?_map] at hPage
    rcases Option.map_eq_some_iff.mp hPage with
      ⟨page, hBefore, rfl⟩
    have hKeeps := hShelf.keeps index page hBefore
    cases hCase : condition index with
    | true =>
        rw [if_pos rfl]
        exact
          ⟨hKeeps.indexed, hKeeps.placed, hKeeps.length,
            hKeeps.below, nofun, nofun⟩
    | false =>
        rw [if_neg Bool.false_ne_true]
        refine
          ⟨hKeeps.indexed, hKeeps.placed, hKeeps.length,
            hKeeps.below, hKeeps.past, fun hEpoch => ?_⟩
        refine (hKeeps.bears hEpoch).congr fun b hLow hHigh => ?_
        unfold BufferPool.bytes at hHigh
        rw [length_slice, hKeeps.length] at hHigh
        rw [hKeeps.placed] at hLow hHigh
        exact hSame index hCase b hLow hHigh
  · intro i j p q hFirst hSecond hNe
    rw [Std.HashMap.getElem?_map] at hFirst hSecond
    rcases Option.map_eq_some_iff.mp hFirst with
      ⟨first, hFirst', rfl⟩
    rcases Option.map_eq_some_iff.mp hSecond with
      ⟨second, hSecond', rfl⟩
    rw [hBuffer, hBuffer]
    exact hShelf.apart i j first second hFirst' hSecond' hNe

end Shelf

------------------------------------------------------------
-- Pages in Doubt
------------------------------------------------------------

namespace PageCache

open ObserverM

variable {σ α : Type}
variable {c : PageCache σ}
variable {next : Unit → ObserverM (PageCache σ) α}

/- Exactly pages that are not in doubt pass the check. -/
theorem run_checkCertain
    (r : Logged (PageCache σ)) :
    checkCertain r =
      (if r.state.inDoubt then .error (.fault .pagesInDoubt)
      else .ok (), r) := by
  unfold checkCertain
  rw [Activity.run_bind]
  dsimp only [Activity.reading]
  cases r.state.inDoubt <;> rfl

/- Pages that are not in doubt may be read again as chosen. -/
theorem run_invalidateWhere
    {r : Logged (PageCache σ)}
    (again : Nat → Bool)
    (hCertain : r.state.inDoubt = false) :
    invalidateWhere again r =
      (.ok (),
        { r with
          state :=
            { r.state with
              pages :=
                r.state.pages.map fun index page =>
                  if again index then page.invalidated
                  else page } }) := by
  unfold invalidateWhere
  rw [Activity.run_bind, run_checkCertain, hCertain]
  rfl

/- Pages in doubt may not be read again. -/
theorem run_invalidateWhere_of_inDoubt
    {r : Logged (PageCache σ)}
    (again : Nat → Bool)
    (hDoubt : r.state.inDoubt = true) :
    invalidateWhere again r =
      (.error (.fault .pagesInDoubt), r) := by
  unfold invalidateWhere
  rw [Activity.run_bind, run_checkCertain, hDoubt]
  rfl

/- Work goes on after the check, and then nothing is in doubt. -/
theorem upholds_certain
    {kept : PageCache σ → Prop}
    {post : α → PageCache σ → Prop}
    (hNext :
      c.inDoubt = false → Upholds kept (next ()) c post) :
    Upholds kept (checkCertain >>= next) c post := by
  intro log
  rw [Activity.run_bind, run_checkCertain]
  cases hDoubt : c.inDoubt with
  | true => trivial
  | false => exact hNext hDoubt log

end PageCache

end BeltHeap
