import BeltHeap.Proofs.Looking

/-
  How a page of a cache is read from the source.  A stale page is
  asked for as a whole, whatever part of it is used; if the
  source refuses, neither the page nor the pool is touched.
  Nothing is taken for granted about the source.

  Main declarations:
    * `PageCache.Found`, `PageCache.Stale`
    * `PageCache.Asked`, `PageCache.Refreshed`
    * `PageCache.upholds_refresh`, `PageCache.upholds_fetch`
-/

------------------------------------------------------------
-- Work That Was Done
------------------------------------------------------------

namespace BeltHeap

open ObserverM

/- What work came to is what comes of doing it. -/
theorem ObserverM.upholds_done
    {τ α : Type}
    {s : τ}
    {work : ObserverM τ α} :
    Upholds
      (fun g =>
        ∃ (log : Log) (e : ObserverError) (t : Logged τ),
          work ⟨s, log⟩ = (.error (.error e), t) ∧ t.state = g)
      work s fun a g =>
        ∃ (log : Log) (t : Logged τ),
          work ⟨s, log⟩ = (.ok a, t) ∧ t.state = g := by
  intro log
  generalize hRun : work ⟨s, log⟩ = r
  rcases r with ⟨(e | f) | a, t⟩
  · exact ⟨log, e, t, hRun, rfl⟩
  · trivial
  · exact ⟨log, t, hRun, rfl⟩

namespace PageCache

variable {σ : Type}
variable {c d : PageCache σ}
variable {p : Page}
variable {index : Nat}

------------------------------------------------------------
-- Finding Pages
------------------------------------------------------------

/-
  A page that was found.  If the cache did not have it, it is one
  that was not read yet.
-/
structure Found
    (c d : PageCache σ)
    (index : Nat)
    (p : Page) : Prop where
  pageSize : d.pageSize = c.pageSize
  source : d.source = c.source
  certain : d.inDoubt = false
  page : d.pages[index]? = some p
  spared : ∀ k, k ≠ index → d.look k = c.look k
  left :
    d.look index = c.look index ∨
      c.look index = none ∧ p.index = index ∧ p.epoch = none ∧
        p.refreshes = 0

/- The page with an index is found. -/
theorem upholds_pageAt
    (kept : PageCache σ → Prop)
    (index : Nat) :
    Upholds kept (pageAt index) c fun p d =>
      Found c d index p := by
  unfold pageAt
  refine upholds_certain fun hCertain => ?_
  apply upholds_read
  cases hPage : c.pages[index]? with
  | some p =>
      exact
        upholds_pure
          ⟨rfl, rfl, hCertain, hPage, fun _ _ => rfl, .inl rfl⟩
  | none =>
      refine (upholds_addPage kept).imp (fun _ hKept => hKept) ?_
      rintro p d
        ⟨hSize, hSource, hKnown, hFound, hSpared, hLeft⟩
      exact
        ⟨hSize, hSource, hKnown, hFound, hSpared,
          .inr ⟨look_of_none hPage, hLeft⟩⟩

/- A page that was found is as stale as it was before. -/
theorem Found.epochOf_eq
    (hFound : Found c d index p) :
    d.epochOf index = c.epochOf index ∧
      d.refreshesOf index = c.refreshesOf index := by
  rcases hFound.left with
    hSame | ⟨hNone, -, hEpoch, hRefreshes⟩
  · exact ⟨epochOf_congr hSame, refreshesOf_congr hSame⟩
  · unfold epochOf refreshesOf
    rw [look_of_some hFound.page, hNone]
    exact ⟨hEpoch, hRefreshes⟩

------------------------------------------------------------
-- Stale Pages
------------------------------------------------------------

variable [MemorySource σ]

/- A page that is read from the source before it is used. -/
def Stale
    (c : PageCache σ)
    (index : Nat) : Prop :=
  ∀ e, c.epochOf index = some e → e < MemorySource.epoch c.source

/- A page that was not read yet is stale. -/
theorem stale_of_none
    (hNone : c.epochOf index = none) :
    c.Stale index := by
  intro e hEpoch
  rw [hNone] at hEpoch
  cases hEpoch

/- Whether a page is stale is told by its epoch. -/
theorem stale_iff
    {p : Page}
    (hPage : c.pages[index]? = some p) :
    c.Stale index ↔
      p.isStale (MemorySource.epoch c.source) = true := by
  unfold Stale epochOf Page.isStale
  rw [look_of_some hPage]
  change (∀ e, p.epoch = some e → _) ↔ _
  cases p.epoch with
  | none => exact ⟨fun _ => rfl, fun _ _ => nofun⟩
  | some old =>
      refine ⟨fun hOlder => decide_eq_true (hOlder old rfl), ?_⟩
      rintro hOlder e ⟨⟩
      exact of_decide_eq_true hOlder

------------------------------------------------------------
-- Asking for Pages
------------------------------------------------------------

/- What the source of a cache answers when it is asked for a page. -/
def Asked
    (c : PageCache σ)
    (p : Page)
    (answer : Except Interruption (List UInt8))
    (source : σ) : Prop :=
  ∃ (log : Log) (t : Logged σ),
    MemorySource.read p.address p.size ⟨c.source, log⟩ =
        (answer, t) ∧
      t.state = source

/- A cache whose source would not give a page. -/
def Unanswered
    (c d : PageCache σ)
    (p : Page) : Prop :=
  ∃ e source, Asked c p (.error (.error e)) source ∧
    d = { c with source }

/-
  A page that was read again.  Its buffer has what the source
  answered, and no buffer apart from it has changed, if that was
  a whole page.
-/
structure Refreshed
    (c d : PageCache σ)
    (p q : Page)
    (bs : List UInt8) : Prop where
  asked : Asked c p (.ok bs) d.source
  pageSize : d.pageSize = c.pageSize
  inDoubt : d.inDoubt = c.inDoubt
  pages : d.pages = c.pages
  index : q.index = p.index
  epoch : q.epoch = some (MemorySource.epoch c.source)
  refreshes : q.refreshes = p.refreshes + 1
  filled :
    bs.length = p.buffer.length → d.pool.bytes q.buffer = bs
  others :
    bs.length = p.buffer.length →
      ∀ b, p.buffer.Apart b → d.pool.bytes b = c.pool.bytes b

/- The source answers or refuses, and nothing else happens. -/
theorem upholds_ask
    (c : PageCache σ)
    (p : Page) :
    Upholds (fun d => Unanswered c d p)
      (onSource (MemorySource.read p.address p.size)) c
      fun bs d =>
        ∃ source, Asked c p (.ok bs) source ∧
          d = { c with source } := by
  refine upholds_within (upholds_done.imp ?_ ?_)
  · rintro s ⟨log, e, t, hRun, hState⟩
    exact ⟨e, s, ⟨log, t, hRun, hState⟩, rfl⟩
  · rintro bs s ⟨log, t, hRun, hState⟩
    exact ⟨s, ⟨log, t, hRun, hState⟩, rfl⟩

theorem upholds_refresh
    (c : PageCache σ)
    (p : Page) :
    Upholds (fun d => Unanswered c d p) (refresh p) c fun q d =>
      ∃ bs, Refreshed c d p q bs := by
  unfold refresh
  apply upholds_read
  refine upholds_bind (upholds_ask c p) ?_
  rintro bs d ⟨source, hAsked, rfl⟩
  cases hWrite : c.pool.write p.buffer 0 bs with
  | mk buffer pool =>
      have hFill :
          Meets True (fun d => Unanswered c d p) (fillPage p bs)
            { c with source } fun q d =>
              q = { p with buffer } ∧
                d = { c with source, pool } :=
        meets_fillPage hWrite
      refine upholds_bind hFill.upholds ?_
      rintro q d ⟨rfl, rfl⟩
      apply upholds_report
      refine upholds_pure
        ⟨bs, hAsked, rfl, rfl, rfl, rfl, rfl, rfl,
          fun hLength => ?_,
          fun hLength b hApart => ?_⟩
      · change pool.bytes buffer = bs
        unfold BufferPool.bytes
        rw [(BufferPool.write_frame hWrite).1]
        exact BufferPool.slice_write_self hLength hWrite
      · have hFits : 0 + bs.length ≤ p.buffer.length := by omega
        exact BufferPool.slice_write_apart hFits hApart hWrite

/- A page that is not stale is used as it is. -/
theorem upholds_fetch
    {offset count : Nat}
    (hPage : c.pages[index]? = some p) :
    Upholds (fun d => c.Stale index ∧ Unanswered c d p)
      (fetch p offset count) c fun r d =>
        c.Stale index ∧ (∃ bs, Refreshed c d p r.1 bs) ∨
          ¬ c.Stale index ∧ d = c ∧ r.1 = p := by
  unfold fetch
  apply upholds_computed
  intro stop _
  split
  · exact upholds_fault
  · apply upholds_read
    have hStale := stale_iff hPage
    split
    · rename_i hOld
      refine upholds_bind
        ((upholds_refresh c p).imp
          (fun _ hKept => ⟨hStale.mpr hOld, hKept⟩)
          fun _ _ hPost => hPost) ?_
      intro q d hRefreshed
      apply upholds_read
      exact upholds_pure (.inl ⟨hStale.mpr hOld, hRefreshed⟩)
    · rename_i hNew
      have hSlice :
          Upholds (fun d => c.Stale index ∧ Unanswered c d p)
            (do
              let bs ←
                Activity.reading fun c =>
                  c.pool.slice p.buffer offset count
              pure (p, bs))
            c fun r d =>
              c.Stale index ∧ (∃ bs, Refreshed c d p r.1 bs) ∨
                ¬ c.Stale index ∧ d = c ∧ r.1 = p :=
        upholds_read
          (upholds_pure
            (.inr ⟨fun hIn => hNew (hStale.mp hIn), rfl, rfl⟩))
      exact hSlice

end PageCache

end BeltHeap
