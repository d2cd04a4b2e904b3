import BeltHeap.Proofs.Asking
import BeltHeap.Proofs.Sources

/-
  Writes through a cache.  The answer is that of the source, and
  the pages that the write spans are read again by whatever reads
  them next, also if the write failed.  Nothing is taken for
  granted about the source.  A range whose last address is none
  is at fault, whatever the source answers.

  Main declarations:
    * `PageCache.Indexed`, `PageCache.InUse.indexed`
    * `PageCache.InUse.certain`
    * `PageCache.ReadAgain`, `PageCache.Visited`
    * `PageCache.ReadNext`
    * `PageCache.write_passes_answer`
    * `Session.write_may_break_off`
-/

------------------------------------------------------------
-- Pages at Their Indexes
------------------------------------------------------------

namespace BeltHeap

namespace PageCache

open ObserverM

variable {σ : Type}
variable {c d g : PageCache σ}
variable {p q : Page}
variable {a count here index : Nat}

/- A cache whose pages are found at their indexes. -/
structure Indexed (c : PageCache σ) : Prop where
  size_pos : 0 < c.pageSize
  indexed :
    ∀ (k : Nat) p, c.pages[k]? = some p → p.index = k

/- Pages that are to be read again stay at their indexes. -/
theorem Indexed.invalidated
    {again : Nat → Bool}
    (hIndexed : Indexed c)
    (hAgain : Invalidated c d again) :
    Indexed d := by
  refine ⟨?_, fun k q hPage => ?_⟩
  · rw [hAgain.pageSize]
    exact hIndexed.size_pos
  · rw [hAgain.pages] at hPage
    rcases Option.map_eq_some_iff.mp hPage with ⟨p, hBefore, rfl⟩
    cases again k <;> exact hIndexed.indexed k p hBefore

theorem Indexed.withSource
    (hIndexed : Indexed c)
    (source : σ) :
    Indexed { c with source } :=
  ⟨hIndexed.size_pos, hIndexed.indexed⟩

/- A page that is of no epoch cannot lose it. -/
theorem Invalidated.page
    {again : Nat → Bool}
    (hAgain : Invalidated c d again)
    (hPage : c.pages[index]? = some p)
    (hNone : p.epoch = none) :
    d.pages[index]? = some p := by
  rw [hAgain.pages, hPage]
  cases again index with
  | false => rfl
  | true =>
      change some { p with epoch := none } = some p
      rw [← hNone]

/- Pages stay at their indexes when another one is found. -/
theorem Found.indexed
    (hFound : Found c d index p)
    (hIndexed : Indexed c) :
    Indexed d := by
  refine ⟨?_, fun k q hPage => ?_⟩
  · rw [hFound.pageSize]
    exact hIndexed.size_pos
  · by_cases hEq : k = index
    · subst hEq
      rcases hFound.left with hSame | ⟨-, hIndex, -⟩
      · rw [page_of_look hSame] at hPage
        exact hIndexed.indexed k q hPage
      · cases hFound.page.symm.trans hPage
        exact hIndex
    · rw [page_of_look (hFound.spared k hEq)] at hPage
      exact hIndexed.indexed k q hPage

/- A page that the cache had is the one that was found. -/
theorem Found.known
    (hFound : Found c d index p)
    (hPage : c.pages[index]? = some q) :
    q = p := by
  rcases hFound.left with hSame | ⟨hNone, -⟩
  · rw [← page_of_look hSame, hFound.page] at hPage
    exact (Option.some.inj hPage).symm
  · rw [look_of_some hPage] at hNone
    cases hNone

/- Putting a page back leaves all pages at their indexes. -/
theorem Indexed.put
    (hIndexed : Indexed c)
    (hSize : d.pageSize = c.pageSize)
    (hPages : d.pages = c.pages)
    (p : Page) :
    Indexed (d.put p) ∧
      ∀ k : Nat, k ≠ p.index →
        (d.put p).pages[k]? = c.pages[k]? := by
  have hOthers :
      ∀ k : Nat, k ≠ p.index →
        (d.put p).pages[k]? = c.pages[k]? := by
    intro k hNe
    rw [page_of_look (look_put_of_ne d p hNe), hPages]
  refine ⟨⟨?_, fun k q hOther => ?_⟩, hOthers⟩
  · rw [show (d.put p).pageSize = c.pageSize from hSize]
    exact hIndexed.size_pos
  · by_cases hEq : k = p.index
    · subst hEq
      cases (page_put d p).symm.trans hOther
      rfl
    · exact hIndexed.indexed k q (hOthers k hEq ▸ hOther)

------------------------------------------------------------
-- Visits
------------------------------------------------------------

variable [MemorySource σ]

/-
  The page was read once more than a record of it says, as a
  whole.
-/
def ReadAgain
    (d : PageCache σ)
    (index : Nat)
    (p : Page) : Prop :=
  ∃ q, d.pages[index]? = some q ∧
    q.refreshes = p.refreshes + 1 ∧
    ∃ (s t : Logged σ) (bs : List UInt8),
      MemorySource.read p.address p.size s = (.ok bs, t)

/-
  Some pages were reached.  Those that were to be read again were
  read, or were left as they were by a read that failed, and the
  records of all others are the same.
-/
structure Visited
    (answered : Prop)
    (c d : PageCache σ)
    (reached : Nat → Prop) : Prop where
  indexed : Indexed d
  certain : c.inDoubt = false → d.inDoubt = false
  pageSize : d.pageSize = c.pageSize
  others :
    ∀ k : Nat, ¬ reached k → d.pages[k]? = c.pages[k]?
  awaited :
    ∀ (k : Nat) p, reached k → c.pages[k]? = some p →
      p.epoch = none →
        ReadAgain d k p ∨ ¬ answered ∧ d.pages[k]? = some p

variable {answered : Prop}
variable {first second : Nat → Prop}

namespace Visited

theorem refl
    (hIndexed : Indexed c) :
    Visited answered c c fun _ => False :=
  ⟨hIndexed, id, rfl, fun _ _ => rfl, nofun⟩

/- A read that failed may not have reached some pages. -/
theorem mono
    (hVisited : Visited False c d first)
    (hMore : ∀ k, first k → second k) :
    Visited False c d second := by
  refine
    ⟨hVisited.indexed, hVisited.certain, hVisited.pageSize,
      fun k hOut => hVisited.others k fun hIn => hOut (hMore k hIn),
      fun k p _ hPage hNone => ?_⟩
  by_cases hIn : first k
  · exact hVisited.awaited k p hIn hPage hNone
  · exact .inr ⟨False.elim, (hVisited.others k hIn).trans hPage⟩

theorem trans
    (hFirst : Visited True c d first)
    (hSecond : Visited answered d g second)
    (hApart : ∀ k, first k → ¬ second k) :
    Visited answered c g fun k => first k ∨ second k := by
  refine
    ⟨hSecond.indexed, hSecond.certain ∘ hFirst.certain,
      hSecond.pageSize.trans hFirst.pageSize, ?_, ?_⟩
  · intro k hOut
    exact
      (hSecond.others k fun hIn => hOut (.inr hIn)).trans
        (hFirst.others k fun hIn => hOut (.inl hIn))
  · intro k p hIn hPage hNone
    by_cases hBefore : first k
    · have hSame := hSecond.others k (hApart k hBefore)
      rcases hFirst.awaited k p hBefore hPage hNone with
        ⟨q, hFound, hRead⟩ | ⟨hNot, -⟩
      · exact .inl ⟨q, hSame.trans hFound, hRead⟩
      · exact absurd trivial hNot
    · have hSame := hFirst.others k hBefore
      exact
        hSecond.awaited k p (hIn.resolve_left hBefore)
          (hSame.trans hPage) hNone

theorem congr
    (hVisited : Visited answered c d first)
    (hSame : ∀ k, second k ↔ first k) :
    Visited answered c d second := by
  rwa [show second = first from funext fun k => propext (hSame k)]

end Visited

/- A source that refuses leaves the page as it was. -/
theorem Found.refused
    (hIndexed : Indexed c)
    (hFound : Found c d index p)
    (hUnanswered : Unanswered d g p) :
    Visited False c g (· = index) := by
  rcases hUnanswered with ⟨e, source, -, rfl⟩
  refine
    ⟨(hFound.indexed hIndexed).withSource source,
      fun _ => hFound.certain, hFound.pageSize,
      fun k hNe => page_of_look (hFound.spared k hNe), ?_⟩
  rintro k r rfl hPage -
  cases hFound.known hPage
  exact .inr ⟨False.elim, hFound.page⟩

/- A source that answers has the page read once more. -/
theorem Found.refreshed
    {bs : List UInt8}
    (hIndexed : Indexed c)
    (hFound : Found c d index p)
    (hRefreshed : Refreshed d g p q bs) :
    Visited True c (g.put q) (· = index) := by
  have hOn := hFound.indexed hIndexed
  have hIndex : q.index = index :=
    hRefreshed.index.trans (hOn.indexed index p hFound.page)
  subst hIndex
  have hPut := hOn.put hRefreshed.pageSize hRefreshed.pages q
  refine
    ⟨hPut.1, fun _ => hRefreshed.inDoubt.trans hFound.certain,
      hRefreshed.pageSize.trans hFound.pageSize,
      fun k hNe => ?_, ?_⟩
  · exact
      (hPut.2 k hNe).trans (page_of_look (hFound.spared k hNe))
  · rintro k r rfl hBefore -
    cases hFound.known hBefore
    rcases hRefreshed.asked with ⟨log, t, hRun, -⟩
    exact
      .inl
        ⟨q, page_put g q, hRefreshed.refreshes, _, t, bs, hRun⟩

/- A page that is not stale is none that was to be read again. -/
theorem Found.unread
    (hIndexed : Indexed c)
    (hFound : Found c d index p)
    (hFresh : ¬ d.Stale index) :
    Visited True c (d.put p) (· = index) := by
  have hOn := hFound.indexed hIndexed
  have hIndex := hOn.indexed index p hFound.page
  subst hIndex
  have hPut := hOn.put rfl rfl p
  refine
    ⟨hPut.1, fun _ => hFound.certain, hFound.pageSize,
      fun k hNe => ?_, ?_⟩
  · exact
      (hPut.2 k hNe).trans (page_of_look (hFound.spared k hNe))
  · rintro k r rfl hBefore hNone
    cases hFound.known hBefore
    refine absurd (stale_of_none ?_) hFresh
    unfold epochOf
    rw [look_of_some hFound.page]
    exact hNone

theorem upholds_visit
    {offset count : Nat}
    (hIndexed : Indexed c) :
    Upholds (fun d => Visited False c d (· = index))
      (fetchAt index offset count) c fun _ d =>
        Visited True c d (· = index) := by
  refine upholds_bind (upholds_pageAt _ index) ?_
  intro p d hFound
  refine upholds_bind
    ((upholds_fetch hFound.page).imp
      (fun _ hKept => hFound.refused hIndexed hKept.2)
      fun _ _ hPost => hPost) ?_
  rintro ⟨q, bs⟩ g hCase
  apply upholds_write
  refine upholds_pure ?_
  rcases hCase with ⟨-, bytes, hRefreshed⟩ | ⟨hFresh, rfl, rfl⟩
  · exact hFound.refreshed hIndexed hRefreshed
  · exact hFound.unread hIndexed hFresh

theorem upholds_visits
    (count a : Nat)
    (hIndexed : Indexed c) :
    Upholds
      (fun d => Visited False c d (Spans c.pageSize a count))
      (readFrom c.pageSize count a) c fun _ d =>
        Visited True c d (Spans c.pageSize a count) := by
  induction count using Nat.strongRecOn generalizing a c with
  | ind count ih =>
      have hOffset := Nat.mod_lt a hIndexed.size_pos
      generalize hHere :
        min (c.pageSize - a % c.pageSize) count = here
      rw [readFrom]
      rw [hHere]
      split
      · rename_i hNone
        have hCount : count = 0 := by omega
        subst hCount
        refine upholds_pure ((Visited.refl hIndexed).congr ?_)
        exact fun k => ⟨not_spans_zero, False.elim⟩
      · rename_i hNone
        have hStep := fun k =>
          spans_step k hIndexed.size_pos hHere.symm
            (Nat.pos_of_ne_zero hNone)
        have hApart :
            ∀ k, k = a / c.pageSize →
              ¬ Spans c.pageSize (a + here) (count - here) k := by
          rintro k rfl hIn
          exact Nat.lt_irrefl _ ((hStep _).2 hIn)
        refine upholds_bind
          ((upholds_visit hIndexed).imp
            (fun d hKept =>
              hKept.mono fun k hEq => (hStep k).1.mpr (.inl hEq))
            fun _ _ hPost => hPost) ?_
        intro bs d hFirst
        apply upholds_computed
        intro next hNext
        cases (Word.eq_of_add hNext).1
        have hRest :=
          ih (count - here) (by omega) (a + here) hFirst.indexed
        rw [hFirst.pageSize] at hRest
        refine upholds_bind
          (hRest.imp
            (fun g hKept =>
              (hFirst.trans hKept hApart).congr
                fun k => (hStep k).1)
            fun _ _ hPost => hPost) ?_
        intro cs g hSecond
        exact
          upholds_pure
            ((hFirst.trans hSecond hApart).congr
              fun k => (hStep k).1)

theorem upholds_reached
    {request : Request}
    (hIndexed : Indexed c)
    (hRange :
      request.range? (MemorySource.wordSize c.source) =
        some (a, count)) :
    Upholds
      (fun d => Visited False c d (Spans c.pageSize a count))
      request.performOn c fun _ d =>
        Visited True c d (Spans c.pageSize a count) := by
  refine upholds_request hRange ?_
  unfold readInto
  split
  · refine upholds_fail ((Visited.refl hIndexed).mono ?_)
    exact fun _ => False.elim
  · apply upholds_read
    exact upholds_visits count a hIndexed

------------------------------------------------------------
-- Caches in Use
------------------------------------------------------------

/- Every request leaves the pages at their indexes. -/
theorem Indexed.upholds_performOn
    (hIndexed : Indexed c)
    (request : Request) :
    Upholds Indexed request.performOn c fun _ => Indexed := by
  cases hRange :
      request.range? (MemorySource.wordSize c.source) with
  | some range =>
      exact
        (upholds_reached hIndexed hRange).imp
          (fun _ hKept => hKept.indexed)
          fun _ _ hPost => hPost.indexed
  | none =>
      exact
        upholds_unread hRange
          (fun _ source hOn => hOn.withSource source)
          (fun _ _ _ hAgain hOn => hOn.invalidated hAgain)
          hIndexed

/- No request leaves pages in doubt. -/
theorem Indexed.upholds_certain
    (hIndexed : Indexed c)
    (hCertain : c.inDoubt = false)
    (request : Request) :
    Upholds (·.inDoubt = false) request.performOn c fun _ d =>
      d.inDoubt = false := by
  cases hRange :
      request.range? (MemorySource.wordSize c.source) with
  | some range =>
      exact
        (upholds_reached hIndexed hRange).imp
          (fun _ hKept => hKept.certain hCertain)
          fun _ _ hPost => hPost.certain hCertain
  | none =>
      exact
        upholds_unread hRange (fun _ _ hOn => hOn)
          (fun _ _ _ hAgain hOn => hAgain.inDoubt.trans hOn)
          hCertain

/- The pages of every cache in use are found at their indexes. -/
theorem InUse.indexed
    {r : Logged (PageCache σ)}
    (hUse : InUse r) :
    Indexed r.state := by
  induction hUse with
  | start hMake =>
      unfold PageCache.make at hMake
      dsimp only at hMake
      split at hMake
      · rename_i hPower
        cases hMake
        refine ⟨Word.pos_of_isPowerOfTwo hPower, fun k p hPage => ?_⟩
        change ({} : Std.HashMap Nat Page)[k]? = some p at hPage
        rw [Std.HashMap.getElem?_empty] at hPage
        cases hPage
      · cases hMake
  | request _ hRun hSafe ih =>
      exact (ih.upholds_performOn _).of_run hRun hSafe
  | elapse _ _ ih => exact ih.withSource _

/- No pages of a cache in use are in doubt. -/
theorem InUse.certain
    {r : Logged (PageCache σ)}
    (hUse : InUse r) :
    r.state.inDoubt = false := by
  induction hUse with
  | start hMake =>
      unfold PageCache.make at hMake
      dsimp only at hMake
      split at hMake
      · cases hMake
        rfl
      · cases hMake
  | request hUsed hRun hSafe ih =>
      exact
        (hUsed.indexed.upholds_certain ih _).of_run hRun hSafe
  | elapse _ _ ih => exact ih

------------------------------------------------------------
-- Writes
------------------------------------------------------------

/- Does a request read a range that spans a page? -/
def Reaches
    (c : PageCache σ)
    (request : Request)
    (index : Nat) : Prop :=
  ∃ a count,
    request.range? (MemorySource.wordSize c.source) =
        some (a, count) ∧
      Spans c.pageSize a count index

/-
  What requests do to a page with a record.  Only a read of a
  range that spans it changes the record.  The page is then read
  once more, unless the read fails before.
-/
def ReadNext
    (σ : Type)
    [MemorySource σ]
    (index : Nat)
    (p : Page) : Prop :=
  ∀ (u v : Logged (PageCache σ)) (request : Request) result,
    Indexed u.state → u.state.pages[index]? = some p →
      request.performOn u = (result, v) →
        (∀ f, result ≠ .error (.fault f)) →
          (¬ Reaches u.state request index →
            v.state.pages[index]? = some p) ∧
          (Reaches u.state request index →
            ReadAgain v.state index p ∨
              result ≠ .ok () ∧ v.state.pages[index]? = some p) ∧
          Indexed v.state

/-
  Only a read that reaches a page without an epoch changes its
  record.
-/
theorem upholds_unreached
    {request : Request}
    (hIndexed : Indexed c)
    (hPage : c.pages[index]? = some p)
    (hNone : p.epoch = none)
    (hOut : ¬ Reaches c request index) :
    Upholds (fun d => d.pages[index]? = some p)
      request.performOn c fun _ d =>
        d.pages[index]? = some p := by
  cases hRange :
      request.range? (MemorySource.wordSize c.source) with
  | some range =>
      rcases range with ⟨a, count⟩
      have hOutside : ¬ Spans c.pageSize a count index :=
        fun hIn => hOut ⟨a, count, hRange, hIn⟩
      exact
        (upholds_reached hIndexed hRange).imp
          (fun _ hKept =>
            (hKept.others index hOutside).trans hPage)
          fun _ _ hPost =>
            (hPost.others index hOutside).trans hPage
  | none =>
      exact
        upholds_unread hRange (fun _ _ hOn => hOn)
          (fun _ _ _ hAgain hOn => hAgain.page hOn hNone) hPage

/- A page that is of no epoch is read by the next read of it. -/
theorem readNext_of_none
    (index : Nat)
    (hNone : p.epoch = none) :
    ReadNext σ index p := by
  intro u v request result hIndexed hPage hRun hSafe
  refine
    ⟨fun hOut => ?_, ?_,
      (hIndexed.upholds_performOn request).of_run hRun hSafe⟩
  · exact
      (upholds_unreached hIndexed hPage hNone hOut).of_run hRun
        hSafe
  · rintro ⟨a, count, hRange, hIn⟩
    have hOutcome := upholds_reached hIndexed hRange u.log
    change Outcome _ _ (request.performOn u).1
      (request.performOn u).2.state at hOutcome
    rw [hRun] at hOutcome
    rcases result with (e | f) | ⟨⟩
    · refine (hOutcome.awaited index p hIn hPage hNone).imp id ?_
      exact fun hLeft => ⟨nofun, hLeft.2⟩
    · exact absurd rfl (hSafe f)
    · refine (hOutcome.awaited index p hIn hPage hNone).imp id ?_
      exact fun hLeft => absurd trivial hLeft.1

variable {r : Logged (PageCache σ)}
variable {bs : List UInt8}

/- The source is asked first, and its answer is kept. -/
theorem run_attempt
    {s : Logged σ}
    {result : Except Interruption Unit}
    (hWrite :
      MemorySource.write a bs ⟨r.state.source, r.log⟩ =
        (result, s)) :
    Activity.attempt (onSource (MemorySource.write a bs)) r =
      (.ok result,
        ⟨{ r.state with source := s.state }, s.log⟩) := by
  unfold Activity.attempt onSource Activity.within
  dsimp only
  rw [hWrite]

/-
  After the source has answered, the range is read again, if it
  has a last address and no page is in doubt.
-/
theorem run_write
    {s : Logged σ}
    {result : Except Interruption Unit}
    (hRange : bs = [] ∨ a + bs.length ≤ Word.limit)
    (hCertain : bs = [] ∨ r.state.inDoubt = false)
    (hWrite :
      MemorySource.write a bs ⟨r.state.source, r.log⟩ =
        (result, s))
    (hSafe : ∀ f, result ≠ .error (.fault f)) :
    ∃ d, PageCache.write a bs r = (result, ⟨d, s.log⟩) ∧
      Invalidated { r.state with source := s.state } d fun k =>
        decide (Spans r.state.pageSize a bs.length k) := by
  rcases invalidateRange_cases a bs.length
      ⟨{ r.state with source := s.state }, s.log⟩ with
    ⟨d, hRun, hAgain⟩ | ⟨hSome, hFar | hDoubt, -⟩
  · refine ⟨d, ?_, hAgain⟩
    unfold PageCache.write
    rw [Activity.run_bind, run_attempt hWrite]
    rcases result with (e | f) | ⟨⟩
    · change
        (invalidateRange a bs.length >>= fun _ => fail e) _ = _
      rw [Activity.run_bind, hRun]
      rfl
    · exact absurd rfl (hSafe f)
    · exact hRun
  · rcases hRange with rfl | hNear
    · exact absurd hSome (Nat.lt_irrefl 0)
    · exact absurd hFar (Nat.not_lt_of_le hNear)
  · rcases hCertain with rfl | hCertain
    · exact absurd hSome (Nat.lt_irrefl 0)
    · exact nomatch hCertain.symm.trans hDoubt

/- Pages in doubt break off what the source has answered. -/
theorem run_write_of_inDoubt
    {s : Logged σ}
    {result : Except Interruption Unit}
    (hSome : bs ≠ [])
    (hNear : a + bs.length ≤ Word.limit)
    (hDoubt : r.state.inDoubt = true)
    (hWrite :
      MemorySource.write a bs ⟨r.state.source, r.log⟩ =
        (result, s))
    (hSafe : ∀ f, result ≠ .error (.fault f)) :
    PageCache.write a bs r =
      (.error (.fault .pagesInDoubt),
        ⟨{ r.state with source := s.state }, s.log⟩) := by
  have hRange :
      invalidateRange a bs.length
          ⟨{ r.state with source := s.state }, s.log⟩ =
        (.error (.fault .pagesInDoubt), _) :=
    (run_invalidateRange (List.length_pos_iff.mpr hSome)
      hNear).trans (run_invalidateWhere_of_inDoubt _ hDoubt)
  unfold PageCache.write
  rw [Activity.run_bind, run_attempt hWrite]
  rcases result with (e | f) | ⟨⟩
  · change (invalidateRange a bs.length >>= fun _ => fail e) _ = _
    rw [Activity.run_bind, hRange]
  · exact absurd rfl (hSafe f)
  · exact hRange

/- If the source is at fault itself, nothing else happens. -/
theorem run_write_of_fault
    {s : Logged σ}
    {f : Fault}
    (hWrite :
      MemorySource.write a bs ⟨r.state.source, r.log⟩ =
        (.error (.fault f), s)) :
    PageCache.write a bs r =
      (.error (.fault f),
        ⟨{ r.state with source := s.state }, s.log⟩) := by
  unfold PageCache.write
  rw [Activity.run_bind, run_attempt hWrite]
  rfl

/-
  A write through a cache answers what the source answers.  The
  pages of the range are read again by whatever reads them next,
  and all others stay as they were.  Only pages in doubt break
  that off, and no cache in use has any.
-/
theorem write_passes_answer
    {s : Logged σ}
    {result : Except Interruption Unit}
    (hRange : bs = [] ∨ a + bs.length ≤ Word.limit)
    (hWrite :
      MemorySource.write a bs ⟨r.state.source, r.log⟩ =
        (result, s)) :
    (InUse r → r.state.inDoubt = false) ∧
    (bs = [] ∨ r.state.inDoubt = false →
      ∃ d, PageCache.write a bs r = (result, ⟨d, s.log⟩) ∧
        d.source = s.state ∧ (InUse r → Indexed d) ∧
        ((∀ f, result ≠ .error (.fault f)) →
          ∀ k,
            (¬ Spans r.state.pageSize a bs.length k →
              d.look k = r.state.look k) ∧
            (Spans r.state.pageSize a bs.length k →
              d.pages[k]? =
                  r.state.pages[k]?.map Page.invalidated ∧
                ∀ p, r.state.pages[k]? = some p →
                  ReadNext σ k p.invalidated))) ∧
    (bs ≠ [] → r.state.inDoubt = true →
      (∀ f, result ≠ .error (.fault f)) →
        PageCache.write a bs r =
          (.error (.fault .pagesInDoubt),
            ⟨{ r.state with source := s.state }, s.log⟩)) := by
  refine
    ⟨InUse.certain, fun hCertain => ?_, fun hSome hDoubt => ?_⟩
  case refine_2 =>
    exact
      run_write_of_inDoubt hSome (hRange.resolve_left hSome)
        hDoubt hWrite
  by_cases hSafe : ∀ f, result ≠ .error (.fault f)
  · rcases run_write hRange hCertain hWrite hSafe with
      ⟨d, hRun, hAgain⟩
    refine
      ⟨d, hRun, hAgain.source, fun hUse => ?_,
        fun _ k => ⟨?_, ?_⟩⟩
    · exact (hUse.indexed.withSource s.state).invalidated hAgain
    · intro hOut
      rw [hAgain.look, decide_eq_false hOut]
      exact Option.map_id'
    · intro hIn
      refine ⟨?_, fun p _ => readNext_of_none k rfl⟩
      rw [hAgain.pages, decide_eq_true hIn]
      rfl
  · rcases not_forall.mp hSafe with ⟨f, hFault⟩
    rw [not_not] at hFault
    subst hFault
    exact
      ⟨_, run_write_of_fault hWrite, rfl,
        fun hUse => hUse.indexed.withSource s.state,
        fun hNot => absurd rfl (hNot f)⟩

end PageCache

namespace Session

open PageCache

/- A byte of a page is written, and the page is read again. -/
theorem write_passes_answer_warm :
    ∃ t,
      PageCache.write 1 [99] (warm fresh.source) = (.ok (), t) ∧
        t.state.pages[0]? = some readOnce.invalidated ∧
        ReadNext (LiveProcess Debuggee) 0
          readOnce.invalidated := by
  have hPage : (warm fresh.source).state.pages[0]? = some readOnce :=
    Std.HashMap.getElem?_insert_self
  have hNear :
      ([99] : List UInt8) = [] ∨
        1 + ([99] : List UInt8).length ≤ Word.limit :=
    .inr (by decide)
  have hWrite :
      MemorySource.write 1 [99]
          ⟨(warm fresh.source).state.source, {}⟩ =
        (.ok (), _) :=
    rfl
  rcases (write_passes_answer (r := warm fresh.source) hNear
      hWrite).2.1 (.inr rfl) with
    ⟨d, hRun, -, -, hAfter⟩
  rcases (hAfter nofun 0).2 ⟨1, by decide, by decide, rfl⟩ with
    ⟨hAgain, hNext⟩
  rw [hPage] at hAgain
  exact ⟨_, hRun, hAgain, hNext readOnce hPage⟩

/-
  The source refuses to write behind the last address, and the
  cache breaks off instead of saying so.
-/
theorem write_may_break_off :
    ∃ s t,
      MemorySource.write (Word.limit - 1) [0, 0]
          ⟨fresh.source, {}⟩ =
        (.error (.error (.unmapped (Word.limit - 1) 2)), s) ∧
      PageCache.write (Word.limit - 1) [0, 0] ⟨fresh, {}⟩ =
        (.error (.fault .addOverflow), t) :=
  ⟨_, _, rfl, rfl⟩

end Session

end BeltHeap
