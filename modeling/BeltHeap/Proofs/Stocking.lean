import BeltHeap.Proofs.Answering
import BeltHeap.Proofs.Pages

/-
  Caches over any source of memory.  As long as the source
  supplies the pages of a range, every read of the range gives
  the bytes that it holds, whatever was read before and whatever
  the pool.

  Main declarations:
    * `Supply`
    * `Supply.Stocks`, `Supply.Offers`
    * `PageCache.meets_fetchAt`
    * `PageCache.meets_readInto`, `PageCache.meets_reads`
    * `PageCache.meets_readNumber`
-/

------------------------------------------------------------
-- Supplies
------------------------------------------------------------

namespace BeltHeap

/-
  What a source does while it is alive: it stays in one epoch,
  and every read of a page that is served gives what is held
  there.  Such a page has room in a buffer and lies among the
  addresses.  Its read may fail or be at fault only if that is
  admitted.
-/
structure Supply (σ : Type) [MemorySource σ] where
  alive : σ → Prop
  holds : Nat → UInt8 → Prop
  pageSize : Nat
  epoch : Nat
  byteOrder : ByteOrder
  wordSize : Nat
  served : Nat → Prop
  mayFail : Prop
  mayFault : Prop
  size_pos : 0 < pageSize
  epoch_eq : ∀ {s}, alive s → MemorySource.epoch s = epoch
  byteOrder_eq :
    ∀ {s}, alive s → MemorySource.byteOrder s = byteOrder
  wordSize_eq :
    ∀ {s}, alive s → MemorySource.wordSize s = wordSize
  fits :
    ∀ {index}, served index →
      mayFault ∨ pageSize < Word.signedLimit
  placed :
    ∀ {index}, served index →
      mayFault ∨ index * pageSize < Word.limit
  reads :
    ∀ {index s}, served index → alive s →
      ObserverM.Meets mayFault (fun t => mayFail ∧ alive t)
        (MemorySource.read (index * pageSize) pageSize) s
        fun bs t =>
          alive t ∧ bs.length = pageSize ∧
            Bears holds (index * pageSize) bs

namespace Supply

variable {σ : Type} [MemorySource σ]

/- A cache whose pages hold what the source supplies. -/
structure Stocks
    (supply : Supply σ)
    (c : PageCache σ) : Prop where
  certain : c.inDoubt = false
  alive : supply.alive c.source
  pageSize : c.pageSize = supply.pageSize
  shelf :
    Shelf supply.holds supply.pageSize c.pool supply.epoch c.pages

/- A cache after a read that failed. -/
def Spares
    (supply : Supply σ)
    (c : PageCache σ) : Prop :=
  supply.mayFail ∧ supply.Stocks c

/-
  A page that was just read and may take the place of the page
  with its index.
-/
structure Offers
    (supply : Supply σ)
    (c : PageCache σ)
    (index : Nat)
    (p : Page) : Prop where
  keeps :
    p.Keeps supply.holds supply.pageSize c.pool supply.epoch index
  apart :
    ∀ (j : Nat) (q : Page), c.pages[j]? = some q → j ≠ index →
      p.buffer.Apart q.buffer
  epoch : p.epoch = some supply.epoch

/- All pages that a range meets are served. -/
def Covers
    (supply : Supply σ)
    (a count : Nat) : Prop :=
  ∀ index, a < (index + 1) * supply.pageSize →
    index * supply.pageSize < a + count → supply.served index

variable {supply : Supply σ}
variable {c : PageCache σ}
variable {index : Nat}
variable {p : Page}

/- New caches are stocked. -/
theorem stocks_make
    {source : σ}
    {pool : BufferPool}
    (hAlive : supply.alive source)
    (hSize : MemorySource.pageSize source = supply.pageSize)
    (hMake : PageCache.make source pool = .ok c) :
    supply.Stocks c := by
  unfold PageCache.make at hMake
  dsimp only at hMake
  split at hMake
  · cases hMake
    exact ⟨rfl, hAlive, hSize, Shelf.empty⟩
  · cases hMake

/- A cache with another pool and other pages. -/
theorem Stocks.restocked
    {pool : BufferPool}
    {pages : Std.HashMap Nat Page}
    {inDoubt : Bool}
    (hStocks : supply.Stocks c)
    (hCertain : inDoubt = false)
    (hShelf :
      Shelf supply.holds supply.pageSize pool supply.epoch
        pages) :
    supply.Stocks { c with pool, pages, inDoubt } :=
  ⟨hCertain, hStocks.alive, hStocks.pageSize, hShelf⟩

/- A page of a stocked cache that is not stale is offered. -/
theorem Stocks.offers
    (hStocks : supply.Stocks c)
    (hPage : c.pages[index]? = some p)
    (hFresh : p.isStale supply.epoch = false) :
    supply.Offers c index p := by
  have hKeeps := hStocks.shelf.keeps index p hPage
  refine ⟨hKeeps, fun j q hOther hNe => ?_, hKeeps.current hFresh⟩
  exact hStocks.shelf.apart index j p q hPage hOther hNe.symm

/- A stale page that was filled as a whole is offered. -/
theorem Stocks.filled
    {buffer : PageBuffer}
    {pool : BufferPool}
    {bs : List UInt8}
    (hStocks : supply.Stocks c)
    (hPage : c.pages[index]? = some p)
    (hStale : p.isStale supply.epoch = true)
    (hLength : bs.length = p.buffer.length)
    (hBears : Bears supply.holds p.address bs)
    (hWrite : c.pool.write p.buffer 0 bs = (buffer, pool))
    (refreshes : Nat) :
    supply.Stocks { c with pool } ∧
      supply.Offers { c with pool } index
        { p with
          buffer
          epoch := some supply.epoch
          refreshes } := by
  have hKeeps := hStocks.shelf.keeps index p hPage
  have hShelf :=
    hStocks.shelf.filled hPage hStale hLength hWrite
  rcases BufferPool.write_frame hWrite with
    ⟨hSame, hUsed, hBelow, hApart⟩
  have hBytes : pool.bytes buffer = bs := by
    unfold BufferPool.bytes
    rw [hSame]
    exact BufferPool.slice_write_self hLength hWrite
  refine
    ⟨hStocks.restocked hStocks.certain hShelf, ⟨?_, ?_, rfl⟩⟩
  · refine
      ⟨hKeeps.indexed, hKeeps.placed, hSame.trans hKeeps.length,
        ?_, ?_, fun _ => ?_⟩
    · change buffer.Below pool.used
      rw [hUsed]
      exact hBelow _ hKeeps.below
    · rintro e he
      cases he
      exact Nat.le_refl _
    · change Bears supply.holds p.address (pool.bytes buffer)
      rw [hBytes]
      exact hBears
  · intro j q hOther hNe
    exact
      hApart q.buffer
        (hStocks.shelf.apart index j p q hPage hOther hNe.symm)

end Supply

------------------------------------------------------------
-- Adding Pages
------------------------------------------------------------

namespace PageCache

open ObserverM

variable {σ : Type} [MemorySource σ]
variable {supply : Supply σ}
variable {c : PageCache σ}
variable {index : Nat}
variable {p : Page}

/- Buffers of less than half of all addresses are allocated. -/
theorem allocate_error
    {pool : BufferPool}
    {count : Nat}
    {f : Fault}
    (hAllocate : pool.allocate count = .error f) :
    Word.signedLimit ≤ count := by
  unfold BufferPool.allocate BufferPool.allocateWith at hAllocate
  dsimp only at hAllocate
  split at hAllocate
  · cases hAllocate
  · cases hEntries : Word.entries count 1 with
    | ok n =>
        rw [hEntries] at hAllocate
        cases hAllocate
    | error e =>
        have hLarge := Word.signedLimit_le_of_entries hEntries
        rwa [Nat.mul_one] at hLarge

/- Pages whose addresses are words are made. -/
theorem make_error
    {buffer : PageBuffer}
    {pageSize : Nat}
    {f : Fault}
    (hLength : buffer.length = pageSize)
    (hMake : Page.make index pageSize buffer = .error f) :
    Word.limit ≤ index * pageSize := by
  unfold Page.make at hMake
  rw [if_neg (Decidable.not_not.mpr hLength)] at hMake
  cases hMul : Word.mul index pageSize with
  | ok a =>
      rw [hMul] at hMake
      cases hMake
  | error e => exact Word.limit_le_of_mul hMul

/- A page that is added has to be read before it is used. -/
theorem meets_addPage
    (hStocks : supply.Stocks c)
    (hServed : supply.served index) :
    Meets supply.mayFault supply.Spares (addPage index) c
      fun p d => supply.Stocks d ∧ d.pages[index]? = some p := by
  unfold addPage
  apply meets_write
  apply meets_read
  have hBuffer :
      Meets supply.mayFault supply.Spares
        (allocateBuffer c.pageSize) { c with inDoubt := true }
        fun b d =>
          ∃ pool, c.pool.allocate c.pageSize = .ok (b, pool) ∧
            d = { c with pool, inDoubt := true } := by
    unfold allocateBuffer
    apply meets_read
    apply meets_computed
    · intro f hAllocate
      have hLarge := allocate_error hAllocate
      rw [hStocks.pageSize] at hLarge
      exact
        (supply.fits hServed).elim id
          fun hSmall => absurd hSmall (Nat.not_lt_of_le hLarge)
    · rintro ⟨b, pool⟩ hAllocate
      apply meets_write
      exact meets_pure ⟨pool, hAllocate, rfl⟩
  refine meets_bind hBuffer ?_
  rintro b d ⟨pool, hAllocate, rfl⟩
  rcases BufferPool.allocate_spec hAllocate with
    ⟨hLength, hMemory, hUsed, hBelow, hApart⟩
  have hShelf := hStocks.shelf.allocated hMemory hUsed
  have hSize := hStocks.pageSize
  apply meets_computed
  · intro f hMake
    have hFar := make_error hLength hMake
    rw [hSize] at hFar
    exact
      (supply.placed hServed).elim id
        fun hNear => absurd hNear (Nat.not_lt_of_le hFar)
  intro p hMake
  rcases Page.make_spec hMake with
    ⟨hIndex, hPlace, rfl, hEpoch⟩
  have hKeeps :
      p.Keeps supply.holds supply.pageSize pool supply.epoch
        index := by
    rw [hSize] at hPlace hLength
    exact ⟨hIndex, hPlace, hLength, hBelow,
      fun e he => absurd (hEpoch.symm.trans he) nofun,
      fun he => absurd (hEpoch.symm.trans he) nofun⟩
  have hOwn :
      ∀ (j : Nat) (q : Page), c.pages[j]? = some q → j ≠ index →
        p.buffer.Apart q.buffer :=
    fun j q hOther _ =>
      hApart q.buffer (hStocks.shelf.keeps j q hOther).below
  apply meets_write
  apply meets_write
  refine meets_pure
    ⟨hStocks.restocked rfl (hShelf.insert hKeeps hOwn), ?_⟩
  rw [← hIndex]
  exact Std.HashMap.getElem?_insert_self

/- Work goes on after the check of pages that are certain. -/
theorem meets_certain
    {τ α : Type}
    {c : PageCache τ}
    {faulty : Prop}
    {kept : PageCache τ → Prop}
    {next : Unit → ObserverM (PageCache τ) α}
    {post : α → PageCache τ → Prop}
    (hCertain : c.inDoubt = false)
    (hNext : Meets faulty kept (next ()) c post) :
    Meets faulty kept (checkCertain >>= next) c post := by
  refine
    ⟨upholds_certain fun _ => hNext.upholds, fun log f hRun => ?_⟩
  rw [Activity.run_bind, run_checkCertain, hCertain] at hRun
  exact hNext.faults log f hRun

/- The page with an index is a page of the cache. -/
theorem meets_pageAt
    (hStocks : supply.Stocks c)
    (hServed : supply.served index) :
    Meets supply.mayFault supply.Spares (pageAt index) c
      fun p d => supply.Stocks d ∧ d.pages[index]? = some p := by
  unfold pageAt
  apply meets_certain hStocks.certain
  apply meets_read
  cases hPage : c.pages[index]? with
  | some p => exact meets_pure ⟨hStocks, hPage⟩
  | none => exact meets_addPage hStocks hServed

------------------------------------------------------------
-- Reading Pages
------------------------------------------------------------

/- Filling a page writes into its buffer. -/
theorem meets_fillPage
    {τ : Type}
    {c : PageCache τ}
    {faulty : Prop}
    {kept : PageCache τ → Prop}
    {buffer : PageBuffer}
    {pool : BufferPool}
    {bs : List UInt8}
    (hWrite : c.pool.write p.buffer 0 bs = (buffer, pool)) :
    Meets faulty kept (fillPage p bs) c fun q d =>
      q = { p with buffer } ∧ d = { c with pool } := by
  refine ⟨fun log => ?_, nofun⟩
  unfold fillPage
  simp only [hWrite]
  exact ⟨rfl, rfl⟩

/- A stale page is offered once it was read again. -/
theorem meets_refresh
    (hStocks : supply.Stocks c)
    (hServed : supply.served index)
    (hPage : c.pages[index]? = some p)
    (hStale : p.isStale supply.epoch = true) :
    Meets supply.mayFault supply.Spares (refresh p) c
      fun q d => supply.Stocks d ∧ supply.Offers d index q := by
  have hKeeps := hStocks.shelf.keeps index p hPage
  have hSize : p.size = supply.pageSize := hKeeps.length
  have hRead :
      Meets supply.mayFault supply.Spares
        (onSource (MemorySource.read p.address p.size)) c
        fun bs d =>
          (∃ source, supply.alive source ∧
            d = { c with source }) ∧
            bs.length = p.buffer.length ∧
            Bears supply.holds p.address bs := by
    apply meets_within
    rw [hKeeps.length, hSize, hKeeps.placed]
    refine (supply.reads hServed hStocks.alive).imp id ?_ ?_
    · rintro source ⟨hMayFail, hAlive⟩
      exact
        ⟨hMayFail, hStocks.certain, hAlive, hStocks.pageSize,
          hStocks.shelf⟩
    · rintro bs source ⟨hAlive, hLength, hBears⟩
      exact ⟨⟨source, hAlive, rfl⟩, hLength, hBears⟩
  unfold refresh
  apply meets_read
  refine meets_bind hRead ?_
  rintro bs d ⟨⟨source, hAlive, rfl⟩, hLength, hBears⟩
  have hOn : supply.Stocks { c with source } :=
    ⟨hStocks.certain, hAlive, hStocks.pageSize, hStocks.shelf⟩
  cases hWrite : c.pool.write p.buffer 0 bs with
  | mk buffer pool =>
      refine meets_bind (meets_fillPage hWrite) ?_
      rintro q d ⟨rfl, rfl⟩
      apply meets_report
      rw [supply.epoch_eq hStocks.alive]
      exact
        meets_pure
          (hOn.filled hPage hStale hLength hBears hWrite _)

/-
  Bytes of a page are those that are held, whether the page was
  read before or is read for them.
-/
theorem meets_fetch
    {offset count : Nat}
    (hStocks : supply.Stocks c)
    (hServed : supply.served index)
    (hPage : c.pages[index]? = some p)
    (hWithin :
      supply.mayFault ∨ offset + count ≤ supply.pageSize) :
    Meets supply.mayFault supply.Spares (fetch p offset count) c
      fun r d =>
        supply.Stocks d ∧ supply.Offers d index r.1 ∧
          r.2.length = count ∧
          Bears supply.holds (index * supply.pageSize + offset)
            r.2 := by
  have hKeeps := hStocks.shelf.keeps index p hPage
  unfold fetch
  apply meets_computed
  · intro f hAdd
    have hFar := Word.limit_le_of_add hAdd
    refine hWithin.elim id fun hPart => ?_
    refine (supply.fits hServed).elim id fun hSmall => ?_
    unfold Word.signedLimit at hSmall
    unfold Word.limit at hFar
    omega
  intro stop hStop
  have hEnd := (Word.eq_of_add hStop).1
  have hLength : p.size = supply.pageSize := hKeeps.length
  split
  · exact meets_fault (hWithin.elim id fun _ => by omega)
  · apply meets_read
    have hLast :
        ∀ q d, supply.Stocks d → supply.Offers d index q →
          Meets supply.mayFault supply.Spares
            (do
              let bs ←
                Activity.reading fun c =>
                  c.pool.slice q.buffer offset count
              pure (q, bs))
            d fun r d =>
              supply.Stocks d ∧ supply.Offers d index r.1 ∧
                r.2.length = count ∧
                Bears supply.holds
                  (index * supply.pageSize + offset) r.2 := by
      intro q d hOn hOffers
      apply meets_read
      have hWhole := hOffers.keeps.bears hOffers.epoch
      have hSize := hOffers.keeps.length
      rw [hOffers.keeps.placed] at hWhole
      exact
        meets_pure
          ⟨hOn, hOffers, length_slice _ _ _ _,
            hWhole.slice (by omega)⟩
    rw [supply.epoch_eq hStocks.alive]
    cases hStale : p.isStale supply.epoch with
    | true =>
        rw [if_pos rfl]
        refine meets_bind
          (meets_refresh hStocks hServed hPage hStale) ?_
        rintro q d ⟨hOn, hOffers⟩
        exact hLast q d hOn hOffers
    | false =>
        rw [if_neg Bool.false_ne_true]
        exact hLast p c hStocks (hStocks.offers hPage hStale)

theorem meets_fetchAt
    {offset count : Nat}
    (hStocks : supply.Stocks c)
    (hServed : supply.served index)
    (hWithin :
      supply.mayFault ∨ offset + count ≤ supply.pageSize) :
    Meets supply.mayFault supply.Spares
      (fetchAt index offset count) c fun bs d =>
        supply.Stocks d ∧ bs.length = count ∧
          Bears supply.holds (index * supply.pageSize + offset)
            bs := by
  unfold fetchAt
  refine meets_bind (meets_pageAt hStocks hServed) ?_
  rintro p d ⟨hOn, hPage⟩
  refine meets_bind (meets_fetch hOn hServed hPage hWithin) ?_
  rintro ⟨q, bs⟩ g ⟨hNext, hOffers, hLength, hBears⟩
  have hShelf :=
    hNext.shelf.insert hOffers.keeps hOffers.apart
  apply meets_write
  exact
    meets_pure
      ⟨hNext.restocked hNext.certain hShelf, hLength, hBears⟩

------------------------------------------------------------
-- Reading Memory
------------------------------------------------------------

/- Bytes are read page by page, and all of them are held. -/
theorem meets_readFrom
    (count cursor : Nat)
    (hStocks : supply.Stocks c)
    (hCovers : supply.Covers cursor count)
    (hEnd : supply.mayFault ∨ cursor + count < Word.limit) :
    Meets supply.mayFault supply.Spares
      (readFrom supply.pageSize count cursor) c fun bs d =>
        supply.Stocks d ∧ bs.length = count ∧
          Bears supply.holds cursor bs := by
  induction count using Nat.strongRecOn generalizing cursor c with
  | ind count ih =>
      have hOffset := Nat.mod_lt cursor supply.size_pos
      have hPlace := Nat.div_add_mod' cursor supply.pageSize
      rw [readFrom]
      split
      · rename_i hNone
        have hCount : count = 0 := by omega
        subst hCount
        exact
          meets_pure
            ⟨hStocks, rfl, fun i b hi => by cases hi⟩
      · rename_i hSome
        have hServed :
            supply.served (cursor / supply.pageSize) := by
          refine hCovers _ ?_ ?_
          · rw [Nat.succ_mul]
            omega
          · omega
        refine meets_bind
          (meets_fetchAt hStocks hServed (.inr (by omega))) ?_
        rintro bs d ⟨hOn, hLength, hBears⟩
        rw [hPlace] at hBears
        apply meets_computed
        · intro f hAdd
          have hFar := Word.limit_le_of_add hAdd
          exact hEnd.elim id fun _ => by omega
        intro next hNext
        have hCursor : next = cursor + bs.length := by
          rw [hLength]
          exact (Word.eq_of_add hNext).1
        have hLess : count - bs.length < count := by omega
        have hRest :=
          ih _ hLess next hOn
            (fun index hLow hHigh =>
              hCovers index (by omega) (by omega))
            (hEnd.imp id fun _ => by omega)
        rw [hLength] at hRest
        refine meets_bind hRest ?_
        rintro cs g ⟨hLater, hMore, hBorne⟩
        rw [hCursor] at hBorne
        refine meets_pure ⟨hLater, ?_, hBears.append hBorne⟩
        rw [List.length_append, hLength, hMore]
        omega

theorem meets_readInto
    (a count : Nat)
    (hStocks : supply.Stocks c)
    (hCovers : supply.Covers a count)
    (hEnd : supply.mayFail ∨ a + count < Word.limit) :
    Meets supply.mayFault supply.Spares (readInto a count) c
      fun bs d =>
        supply.Stocks d ∧ bs.length = count ∧
          Bears supply.holds a bs := by
  unfold readInto
  split
  · rename_i hPast
    refine meets_fail ⟨hEnd.elim id fun hNear => ?_, hStocks⟩
    exact absurd hNear (Nat.not_lt_of_le hPast)
  · rename_i hNear
    apply meets_read
    rw [hStocks.pageSize]
    exact
      meets_readFrom count a hStocks hCovers
        (.inr (Nat.lt_of_not_le hNear))

theorem meets_reads
    (a count : Nat)
    (hStocks : supply.Stocks c)
    (hCovers : supply.Covers a count)
    (hEnd : supply.mayFail ∨ a + count < Word.limit)
    (hSize : supply.mayFault ∨ count < Word.signedLimit) :
    Meets supply.mayFault supply.Spares (read a count) c
      fun bs d =>
        supply.Stocks d ∧ bs.length = count ∧
          Bears supply.holds a bs := by
  unfold read bufferSize
  apply meets_computed
  · intro f hEntries
    have hLarge := Word.signedLimit_le_of_entries hEntries
    exact hSize.elim id fun _ => by omega
  · intro n hEntries
    cases Word.eq_of_entries hEntries
    exact meets_readInto a count hStocks hCovers hEnd

/- A number is decoded from the bytes of its range. -/
theorem meets_readNumber
    (width a : Nat)
    (hStocks : supply.Stocks c)
    (hCovers : supply.Covers a width)
    (hEnd : supply.mayFail ∨ a + width < Word.limit) :
    Meets supply.mayFault supply.Spares (readNumber width a) c
      fun value d =>
        supply.Stocks d ∧
          ∃ bs, bs.length = width ∧ Bears supply.holds a bs ∧
            value = supply.byteOrder.decode bs := by
  unfold readNumber
  refine meets_bind (meets_readInto a width hStocks hCovers hEnd) ?_
  rintro bs d ⟨hOn, hLength, hBears⟩
  apply meets_read
  rw [supply.byteOrder_eq hOn.alive]
  exact meets_pure ⟨hOn, bs, hLength, hBears, rfl⟩

/- A word has as many bytes as the source says. -/
theorem meets_readWord
    (a : Nat)
    (hStocks : supply.Stocks c)
    (hCovers : ∀ width, supply.Covers a width)
    (hEnd : supply.mayFail ∨ a + 8 < Word.limit) :
    Meets supply.mayFault supply.Spares (readWord a) c
      fun value d =>
        supply.Stocks d ∧
          ∃ bs,
            bs.length = (if supply.wordSize = 4 then 4 else 8) ∧
              Bears supply.holds a bs ∧
              value = supply.byteOrder.decode bs := by
  unfold readWord
  apply meets_read
  rw [supply.wordSize_eq hStocks.alive]
  refine meets_readNumber _ a hStocks (hCovers _) ?_
  refine hEnd.imp id fun hNear => ?_
  split <;> omega

------------------------------------------------------------
-- Invalidation
------------------------------------------------------------

/- Any pages may be read again. -/
theorem invalidates
    {kept : PageCache σ → Prop}
    (hStocks : supply.Stocks c)
    (condition : Nat → Bool) :
    Upholds kept (invalidateWhere condition) c fun _ =>
      supply.Stocks :=
  upholds_certain fun hCertain =>
    upholds_change
      (hStocks.restocked hCertain
        (hStocks.shelf.invalidated
          fun _ _ _ _ _ _ hHolds => hHolds))

/- The pages of a range may be read again. -/
theorem invalidatesRange
    {kept : PageCache σ → Prop}
    (hStocks : supply.Stocks c)
    (a count : Nat) :
    Upholds kept (invalidateRange a count) c fun _ =>
      supply.Stocks := by
  unfold invalidateRange
  split
  · exact upholds_pure hStocks
  · apply upholds_computed
    intro last _
    apply upholds_read
    exact invalidates hStocks _

/- A read whose answer is left out leaves the cache stocked. -/
theorem upholds_stocks
    {α : Type}
    {work : ObserverM (PageCache σ) α}
    {answer : α → Prop}
    (hWork :
      Meets supply.mayFault supply.Spares work c fun a d =>
        supply.Stocks d ∧ answer a) :
    Upholds supply.Stocks
      (do
        let _ ← work
        pure ())
      c fun _ => supply.Stocks := by
  refine upholds_leftOut (hWork.upholds.imp ?_ ?_)
  · exact fun _ hSpares => hSpares.2
  · exact fun _ _ hPost => hPost.1

end PageCache

end BeltHeap
