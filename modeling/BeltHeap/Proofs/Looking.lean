import BeltHeap.Proofs.Imaging

/-
  The pages of a cache as they look from outside, and those that
  a range spans.  A read of a range comes to no other pages, and
  to invalidate a range has its pages read again.

  Main declarations:
    * `Request.range?`
    * `PageCache.Spans`, `PageCache.spans_iff`
    * `PageCache.look`, `PageCache.put`
    * `PageCache.Invalidated`, `PageCache.invalidateRange_cases`
    * `PageCache.upholds_request`, `PageCache.upholds_unread`
-/

------------------------------------------------------------
-- Pages of a Range
------------------------------------------------------------

namespace BeltHeap

/- The range that a request reads, if it reads one. -/
def Request.range?
    (wordSize : Nat) : Request → Option (Nat × Nat)
| .read a count | .readInto a count => some (a, count)
| .readNumber width a => some (a, width)
| .readWord a => some (a, if wordSize = 4 then 4 else 8)
| _ => none

namespace PageCache

/- A page that has an address of a range. -/
def Spans (pageSize a count index : Nat) : Prop :=
  ∃ b, a ≤ b ∧ b < a + count ∧ b / pageSize = index

variable {pageSize a count here index : Nat}

/- The pages of a range follow each other. -/
theorem spans_iff :
    Spans pageSize a count index ↔
      0 < count ∧ a / pageSize ≤ index ∧
        index ≤ (a + (count - 1)) / pageSize := by
  constructor
  · rintro ⟨b, hFrom, hTo, rfl⟩
    exact
      ⟨by omega, Nat.div_le_div_right hFrom,
        Nat.div_le_div_right (by omega)⟩
  · rintro ⟨hCount, hFrom, hTo⟩
    -- The page begins before the range does, or within it.
    rcases Nat.lt_or_ge a (index * pageSize) with hLt | hGe
    · have hSize : 0 < pageSize := by
        refine Nat.pos_of_ne_zero fun hZero => ?_
        rw [hZero, Nat.mul_zero] at hLt
        omega
      have hLast := (Nat.le_div_iff_mul_le hSize).mp hTo
      exact
        ⟨index * pageSize, Nat.le_of_lt hLt, by omega,
          Nat.mul_div_cancel index hSize⟩
    · refine ⟨a, Nat.le_refl _, by omega, ?_⟩
      refine Nat.le_antisymm hFrom ?_
      rcases Nat.eq_zero_or_pos pageSize with hZero | hSize
      · rw [hZero, Nat.div_zero] at hTo ⊢
        exact hTo
      · exact (Nat.le_div_iff_mul_le hSize).mpr hGe

instance : Decidable (Spans pageSize a count index) :=
  decidable_of_iff _ spans_iff.symm

theorem not_spans_zero : ¬ Spans pageSize a 0 index :=
  fun hSpans => Nat.lt_irrefl 0 (spans_iff.mp hSpans).1

/- All that comes before a range is on its first page or earlier. -/
theorem Spans.first_le
    (hSpans : Spans pageSize a count index) :
    a / pageSize ≤ index :=
  (spans_iff.mp hSpans).2.1

/-
  The pages of a range are the first of them and those of what
  lies behind the part on it.
-/
theorem spans_step
    (index : Nat)
    (hSize : 0 < pageSize)
    (hHere : here = min (pageSize - a % pageSize) count)
    (hSome : 0 < here) :
    (Spans pageSize a count index ↔
      index = a / pageSize ∨
        Spans pageSize (a + here) (count - here) index) ∧
      (Spans pageSize (a + here) (count - here) index →
        a / pageSize < index) := by
  have hPlace := Nat.div_add_mod a pageSize
  have hOffset := Nat.mod_lt a hSize
  have hFirst : a / pageSize ≤ (a + (count - 1)) / pageSize :=
    Nat.div_le_div_right (Nat.le_add_right _ _)
  rw [spans_iff, spans_iff]
  rcases Nat.lt_or_ge here count with hLt | hGe
  · have hNext : a + here = pageSize * (a / pageSize + 1) := by
      rw [Nat.mul_succ]
      omega
    have hDiv : (a + here) / pageSize = a / pageSize + 1 := by
      rw [hNext]
      exact Nat.mul_div_cancel_left _ hSize
    have hLast :
        a + here + (count - here - 1) = a + (count - 1) := by
      omega
    rw [hDiv, hLast]
    omega
  · have hLast : (a + (count - 1)) / pageSize = a / pageSize := by
      refine Nat.le_antisymm ?_ hFirst
      refine Nat.le_of_lt_succ ((Nat.div_lt_iff_lt_mul hSize).mpr ?_)
      rw [Nat.succ_mul, Nat.mul_comm]
      omega
    rw [hLast]
    omega

------------------------------------------------------------
-- Looking at Pages
------------------------------------------------------------

open ObserverM

variable {σ : Type}
variable {c d g : PageCache σ}

/- A page of a cache, with the bytes in its buffer. -/
def look
    (c : PageCache σ)
    (index : Nat) : Option (Page × List UInt8) :=
  c.pages[index]?.map fun p => (p, c.pool.bytes p.buffer)

/- The epoch that a page was read in, unless it is read again. -/
def epochOf
    (c : PageCache σ)
    (index : Nat) : Option Nat :=
  (c.look index).bind (·.1.epoch)

/- How often a page was read. -/
def refreshesOf
    (c : PageCache σ)
    (index : Nat) : Nat :=
  ((c.look index).map (·.1.refreshes)).getD 0

/- The bytes of a page. -/
def bytesOf
    (c : PageCache σ)
    (index : Nat) : Option (List UInt8) :=
  (c.look index).map (·.2)

theorem look_of_some
    {p : Page}
    (hPage : c.pages[index]? = some p) :
    c.look index = some (p, c.pool.bytes p.buffer) := by
  unfold look
  rw [hPage]
  rfl

/- Where no page is cached there is nothing to look at. -/
theorem look_of_none
    (hPage : c.pages[index]? = none) :
    c.look index = none := by
  unfold look
  rw [hPage]
  rfl

theorem epochOf_congr
    (hSame : d.look index = c.look index) :
    d.epochOf index = c.epochOf index := by
  unfold epochOf
  rw [hSame]

theorem refreshesOf_congr
    (hSame : d.look index = c.look index) :
    d.refreshesOf index = c.refreshesOf index := by
  unfold refreshesOf
  rw [hSame]

theorem bytesOf_congr
    (hSame : d.look index = c.look index) :
    d.bytesOf index = c.bytesOf index := by
  unfold bytesOf
  rw [hSame]

theorem bytes_congr
    {pool pool' : BufferPool}
    (hMemory : pool'.memory = pool.memory)
    (b : PageBuffer) :
    pool'.bytes b = pool.bytes b := by
  unfold BufferPool.bytes BufferPool.slice
  rw [hMemory]

theorem look_congr
    (hPage : d.pages[index]? = c.pages[index]?)
    (hBytes :
      ∀ p, c.pages[index]? = some p →
        d.pool.bytes p.buffer = c.pool.bytes p.buffer) :
    d.look index = c.look index := by
  unfold look
  rw [hPage]
  cases hCase : c.pages[index]? with
  | none => rfl
  | some p =>
      change some (p, d.pool.bytes p.buffer) = some (p, _)
      rw [hBytes p hCase]

/- The record of a page is part of how it looks. -/
theorem page_of_look
    (hSame : d.look index = c.look index) :
    d.pages[index]? = c.pages[index]? := by
  have hPage :
      ∀ g : PageCache σ,
        (g.look index).map (·.1) = g.pages[index]? := by
    intro g
    unfold look
    cases g.pages[index]? <;> rfl
  rw [← hPage, ← hPage, hSame]

/- A cache with one more page, or another one with its index. -/
def put
    (c : PageCache σ)
    (p : Page) : PageCache σ :=
  { c with pages := c.pages.insert p.index p }

/- A page that was put into a cache is found there. -/
theorem page_put
    (c : PageCache σ)
    (p : Page) :
    (c.put p).pages[p.index]? = some p :=
  Std.HashMap.getElem?_insert_self

theorem look_put_of_ne
    (c : PageCache σ)
    (p : Page)
    (hNe : index ≠ p.index) :
    (c.put p).look index = c.look index := by
  refine look_congr ?_ fun _ _ => rfl
  unfold put
  rw [Std.HashMap.getElem?_insert,
    if_neg (by simpa using hNe.symm)]

/- A new page is not the page of any other index. -/
theorem upholds_addPage
    (kept : PageCache σ → Prop) :
    Upholds kept (addPage index) c fun p d =>
      d.pageSize = c.pageSize ∧ d.source = c.source ∧
        d.inDoubt = false ∧ d.pages[index]? = some p ∧
        (∀ k, k ≠ index → d.look k = c.look k) ∧
        p.index = index ∧ p.epoch = none ∧
        p.refreshes = 0 := by
  unfold addPage allocateBuffer
  apply upholds_write
  apply upholds_read
  have hBuffer :
      Upholds kept (allocateBuffer c.pageSize)
        { c with inDoubt := true } fun b d =>
          ∃ pool, c.pool.allocate c.pageSize = .ok (b, pool) ∧
            d = { c with pool, inDoubt := true } := by
    apply upholds_read
    apply upholds_computed
    rintro ⟨b, pool⟩ hAllocate
    apply upholds_write
    exact upholds_pure ⟨pool, hAllocate, rfl⟩
  refine upholds_bind hBuffer ?_
  rintro b d ⟨pool, hAllocate, rfl⟩
  have hMemory := (BufferPool.allocate_spec hAllocate).2.1
  apply upholds_computed
  intro p hMake
  have hNew : p.index = index ∧ p.epoch = none ∧ p.refreshes = 0 := by
    unfold Page.make at hMake
    split at hMake
    · cases hMake
    · cases hMul : Word.mul index c.pageSize with
      | error f =>
          rw [hMul] at hMake
          cases hMake
      | ok a =>
          rw [hMul] at hMake
          cases hMake
          exact ⟨rfl, rfl, rfl⟩
  rcases hNew with ⟨rfl, hEpoch, hRefreshes⟩
  apply upholds_write
  apply upholds_write
  have hBytes :
      ∀ k, PageCache.look { c with pool, inDoubt := false } k =
        c.look k :=
    fun k => look_congr rfl fun _ _ => bytes_congr hMemory _
  exact
    upholds_pure
      ⟨rfl, rfl, rfl, page_put _ p,
        fun k hNe => (look_put_of_ne _ p hNe).trans (hBytes k),
        rfl, hEpoch, hRefreshes⟩

------------------------------------------------------------
-- Requests That Read
------------------------------------------------------------

section Requests

variable [MemorySource σ]

/- A request that reads does what reading its range does. -/
theorem upholds_request
    {request : Request}
    {kept post : PageCache σ → Prop}
    (hRange :
      request.range? (MemorySource.wordSize c.source) =
        some (a, count))
    (hReads :
      Upholds kept (readInto a count) c fun _ => post) :
    Upholds kept request.performOn c fun _ => post := by
  cases request with
  | read b n =>
      cases hRange
      refine upholds_bind ?_ fun _ _ hPost => upholds_pure hPost
      apply upholds_computed
      intro n hSize
      cases Word.eq_of_entries hSize
      exact hReads
  | readInto b n =>
      cases hRange
      exact upholds_bind hReads fun _ _ hPost => upholds_pure hPost
  | readNumber width b =>
      cases hRange
      refine upholds_bind ?_ fun _ _ hPost => upholds_pure hPost
      refine upholds_bind hReads fun _ _ hPost => ?_
      apply upholds_read
      exact upholds_pure hPost
  | readWord b =>
      cases hRange
      refine upholds_bind ?_ fun _ _ hPost => upholds_pure hPost
      apply upholds_read
      refine upholds_bind hReads fun _ _ hPost => ?_
      apply upholds_read
      exact upholds_pure hPost
  | write | invalidate | invalidateRange | invalidateAll | suspend
  | resume | kill =>
      cases hRange

end Requests

------------------------------------------------------------
-- Invalidation
------------------------------------------------------------

/- A cache some of whose pages are to be read again. -/
structure Invalidated
    (c d : PageCache σ)
    (again : Nat → Bool) : Prop where
  source : d.source = c.source
  pool : d.pool = c.pool
  pageSize : d.pageSize = c.pageSize
  inDoubt : d.inDoubt = c.inDoubt
  pages :
    ∀ index,
      d.pages[index]? =
        c.pages[index]?.map fun p =>
          if again index then p.invalidated else p

variable {again : Nat → Bool}

theorem Invalidated.congr
    {again' : Nat → Bool}
    (hAgain : Invalidated c d again)
    (hSame : ∀ index, again index = again' index) :
    Invalidated c d again' := by
  rwa [show again' = again from (funext hSame).symm]

/- Any pages may be chosen. -/
theorem invalidated_map
    (c : PageCache σ)
    (again : Nat → Bool) :
    Invalidated c
      { c with
        pages :=
          c.pages.map fun index page =>
            if again index then page.invalidated else page }
      again :=
  ⟨rfl, rfl, rfl, rfl, fun _ => Std.HashMap.getElem?_map⟩

/-
  The pages of a range lie between those of its first and of its
  last address.
-/
theorem run_invalidateRange
    {r : Logged (PageCache σ)}
    (hSome : 0 < count)
    (hNear : a + count ≤ Word.limit) :
    invalidateRange a count r =
      invalidateWhere
        (fun index =>
          a / r.state.pageSize ≤ index &&
            index ≤ (a + (count - 1)) / r.state.pageSize) r := by
  have hLast :
      Word.add a (count - 1) = .ok (a + (count - 1)) :=
    if_pos (by omega)
  unfold invalidateRange
  rw [if_neg (Nat.ne_of_gt hSome)]
  exact (run_computed hLast).trans run_read

/-
  To invalidate a range has its pages read again, unless its last
  address is none or the pages are in doubt.
-/
theorem invalidateRange_cases
    (a count : Nat)
    (r : Logged (PageCache σ)) :
    (∃ d, invalidateRange a count r = (.ok (), ⟨d, r.log⟩) ∧
      Invalidated r.state d fun index =>
        decide (Spans r.state.pageSize a count index)) ∨
      0 < count ∧
        (Word.limit < a + count ∨ r.state.inDoubt = true) ∧
        ∃ f, invalidateRange a count r = (.error (.fault f), r) := by
  rcases Nat.eq_zero_or_pos count with rfl | hSome
  · unfold invalidateRange
    rw [if_pos rfl]
    refine
      .inl ⟨r.state, rfl, rfl, rfl, rfl, rfl, fun index => ?_⟩
    rw [decide_eq_false not_spans_zero]
    cases r.state.pages[index]? <;> rfl
  rcases Nat.lt_or_ge Word.limit (a + count) with hFar | hNear
  · have hStop :
        Word.add a (count - 1) = .error .addOverflow :=
      if_neg (by omega)
    refine .inr ⟨hSome, .inl hFar, .addOverflow, ?_⟩
    unfold invalidateRange
    rw [if_neg (Nat.ne_of_gt hSome), hStop]
    rfl
  · rw [run_invalidateRange hSome hNear]
    cases hDoubt : r.state.inDoubt with
    | true =>
        exact
          .inr
            ⟨hSome, .inr rfl, _,
              run_invalidateWhere_of_inDoubt _ hDoubt⟩
    | false =>
        refine .inl ⟨_, run_invalidateWhere _ hDoubt, ?_⟩
        refine (invalidated_map _ _).congr fun index => ?_
        rw [Bool.eq_iff_iff, Bool.and_eq_true,
          decide_eq_true_iff, decide_eq_true_iff,
          decide_eq_true_iff, spans_iff]
        exact (and_iff_right hSome).symm

/- The pages that are chosen are those that are read again. -/
theorem upholds_again
    {kept : PageCache σ → Prop}
    (again : Nat → Bool) :
    Upholds kept (invalidateWhere again) c fun _ d =>
      Invalidated c d again :=
  upholds_certain fun _ => upholds_change (invalidated_map c again)

theorem upholds_rangeAgain
    {kept : PageCache σ → Prop}
    (a count : Nat) :
    Upholds kept (invalidateRange a count) c fun _ d =>
      Invalidated c d fun index =>
        decide (Spans c.pageSize a count index) := by
  intro log
  rcases invalidateRange_cases a count ⟨c, log⟩ with
    ⟨d, hRun, hAgain⟩ | ⟨-, -, f, hRun⟩
  · rw [hRun]
    exact hAgain
  · rw [hRun]
    trivial

/- A page that is read again looks as it did, but for its epoch. -/
theorem Invalidated.look
    (hAgain : Invalidated c d again)
    (index : Nat) :
    d.look index =
      (c.look index).map fun l =>
        (if again index then l.1.invalidated else l.1, l.2) := by
  have hBytes :
      ∀ p : Page,
        (if again index then p.invalidated else p).buffer =
          p.buffer := by
    intro p
    split <;> rfl
  unfold PageCache.look
  rw [hAgain.pages, hAgain.pool, Option.map_map, Option.map_map]
  refine Option.map_congr fun p _ => ?_
  change (_, c.pool.bytes _) = (_, c.pool.bytes _)
  rw [hBytes]

/-
  Pages that are to be read again are of no epoch, and the
  others are of theirs.
-/
theorem Invalidated.epochOf
    (hAgain : Invalidated c d again)
    (index : Nat) :
    d.epochOf index =
      if again index then none else c.epochOf index := by
  unfold PageCache.epochOf
  rw [hAgain.look]
  cases c.look index with
  | none => exact (ite_self _).symm
  | some l => cases again index <;> rfl

/-
  Pages that are to be read again were read as often as before.
-/
theorem Invalidated.refreshesOf
    (hAgain : Invalidated c d again)
    (index : Nat) :
    d.refreshesOf index = c.refreshesOf index := by
  unfold PageCache.refreshesOf
  rw [hAgain.look]
  cases c.look index with
  | none => rfl
  | some l => cases again index <;> rfl

------------------------------------------------------------
-- Requests That Do Not Read
------------------------------------------------------------

variable [MemorySource σ]

/-
  What is kept by the source going its own way and by pages that
  are to be read again is kept by every request that reads none.
-/
theorem upholds_unread
    {request : Request}
    {kept : PageCache σ → Prop}
    {wordSize : Nat}
    (hRange : request.range? wordSize = none)
    (hSource : ∀ d source, kept d → kept { d with source })
    (hAgain :
      ∀ d g again, Invalidated d g again → kept d → kept g)
    (hKept : kept c) :
    Upholds kept request.performOn c fun _ => kept := by
  have hWork :
      ∀ work : ObserverM σ Unit,
        Upholds kept (onSource work) c fun _ => kept := by
    intro work
    apply upholds_within
    intro log
    generalize work ⟨c.source, log⟩ = r
    rcases r with ⟨(e | f) | a, t⟩
    · exact hSource c t.state hKept
    · trivial
    · exact hSource c t.state hKept
  have hPages :
      ∀ d a count, kept d →
        Upholds kept (invalidateRange a count) d fun _ => kept :=
    fun d a count hOn =>
      (upholds_rangeAgain a count).imp (fun _ hLeft => hLeft)
        fun _ g hInvalid => hAgain d g _ hInvalid hOn
  cases request with
  | read | readInto | readNumber | readWord => cases hRange
  | write a bs =>
      refine upholds_attempt (hWork _)
        (fun _ d hOn => hPages d a _ hOn) ?_
        fun _ _ => upholds_fault
      intro e d hOn
      exact
        upholds_bind (hPages d a _ hOn) fun _ _ hLeft =>
          upholds_fail hLeft
  | invalidate index | invalidateAll =>
      exact
        (upholds_again _).imp (fun _ hLeft => hLeft)
          fun _ g hInvalid => hAgain c g _ hInvalid hKept
  | invalidateRange a count => exact hPages c a count hKept
  | suspend | resume | kill => exact hWork _

end PageCache

end BeltHeap
