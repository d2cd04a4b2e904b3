import BeltHeap.Observer.PublishedHeap
import BeltHeap.Proofs.Commanding
import BeltHeap.Proofs.Imaging

/-
  What every source keeps to: it answers a read with all the
  bytes that were asked for or fails, and its epoch never
  decreases.  A cache over such a source has its pages at their
  places, whatever was asked of it, and one that is new or was
  just invalidated may be used to read anything.

  Main declarations:
    * `MemorySource.Lawful`
    * `LiveProcess.lawful`, `ReadOnlyImage.lawful`,
      `PublishedHeap.lawful`
    * `PageCache.InUse`, `PageCache.InUse.shelved`
    * `PageCache.Ready`, `PageCache.Ready.stocks`
-/

------------------------------------------------------------
-- Lawful Sources
------------------------------------------------------------

namespace BeltHeap

namespace MemorySource

open ObserverM

variable {σ : Type} [MemorySource σ]

/-
  A source that went on.  Its epoch may have advanced, and
  nothing else that is known about it has changed.
-/
structure Later (s t : σ) : Prop where
  epoch : epoch s ≤ epoch t
  pageSize : pageSize t = pageSize s
  byteOrder : byteOrder t = byteOrder s
  wordSize : wordSize t = wordSize s

/- A source that went on in its epoch. -/
structure Stays (s t : σ) : Prop extends Later s t where
  same : MemorySource.epoch t = MemorySource.epoch s

/-
  A source that answers reads with all the bytes that were asked
  for, and goes on whatever is done with it.  It breaks off only
  where there are no such addresses.
-/
structure Lawful (σ : Type) [MemorySource σ] : Prop where
  reads :
    ∀ a n (s : σ),
      Meets (Word.limit < a + n) (Stays s) (read a n) s
        fun bs t => Stays s t ∧ bs.length = n
  writes :
    ∀ a bs (s : σ) log,
      Later s (write a bs ⟨s, log⟩ : Except _ _ × _).2.state
  suspends :
    ∀ (s : σ) log, Later s (suspend ⟨s, log⟩ : _ × _).2.state
  resumes :
    ∀ (s : σ) log, Later s (resume ⟨s, log⟩ : _ × _).2.state
  kills :
    ∀ (s : σ) log, Later s (kill ⟨s, log⟩ : _ × _).2.state

variable {s t u : σ}

theorem Stays.refl : Stays s s :=
  ⟨⟨Nat.le_refl _, rfl, rfl, rfl⟩, rfl⟩

theorem Stays.trans
    (hFirst : Stays s t)
    (hSecond : Stays t u) :
    Stays s u :=
  ⟨⟨Nat.le_trans hFirst.epoch hSecond.epoch,
      hSecond.pageSize.trans hFirst.pageSize,
      hSecond.byteOrder.trans hFirst.byteOrder,
      hSecond.wordSize.trans hFirst.wordSize⟩,
    hSecond.same.trans hFirst.same⟩

end MemorySource

------------------------------------------------------------
-- Processes
------------------------------------------------------------

namespace LiveProcess

open ObserverM MemorySource

variable {σ α : Type}
variable {p : LiveProcess σ}
variable {faulty : Prop}
variable {kept : LiveProcess σ → Prop}

/- A request comes to an answer or an error. -/
theorem meets_request
    {question : StateM σ (Except String α)}
    {post : α → LiveProcess σ → Prop}
    (hOk :
      ∀ a, (question p.channel).1 = .ok a →
        post a { p with channel := (question p.channel).2 })
    (hError :
      kept { p with channel := (question p.channel).2 }) :
    Meets faulty kept (request question) p post := by
  refine
    ⟨upholds_request hOk fun _ _ => hError, fun log f hRun => ?_⟩
  rcases run_request p log question with ⟨log', hRequest⟩
  rw [hRequest] at hRun
  cases hAnswer : (question p.channel).1 with
  | ok a =>
      rw [hAnswer] at hRun
      cases hRun
  | error text =>
      rw [hAnswer] at hRun
      cases hRun

theorem meets_checkStopped
    {operation : String}
    (hKept : kept p) :
    Meets faulty kept (checkStopped operation) p fun _ g =>
      g = p := by
  refine
    ⟨(upholds_checkStopped hKept).imp (fun _ hOn => hOn)
      fun _ _ hOn => hOn.1, fun log f hRun => ?_⟩
  rcases p with ⟨_, state, _, _, _, _⟩
  cases state <;> cases hRun

/- The check whether all was transferred needs its addresses. -/
theorem meets_checkWhole
    {a count transferred : Nat}
    (hKept : kept p) :
    Meets (Word.limit < a + count) kept
      (checkWhole a count transferred) p fun _ g =>
        g = p ∧ count ≤ transferred := by
  unfold checkWhole
  split
  · apply meets_computed
    · intro f hAdd
      have hFar := Word.limit_le_of_add hAdd
      omega
    · exact fun _ _ => meets_fail hKept
  · exact meets_pure ⟨rfl, by omega⟩

variable [ProcessChannel σ]

/- The channel does not matter to what else is known. -/
theorem stays_withChannel
    (p : LiveProcess σ)
    (channel : σ) :
    Stays p { p with channel } :=
  ⟨⟨Nat.le_refl _, rfl, rfl, rfl⟩, rfl⟩

/- A process answers with all the bytes that were asked for. -/
theorem meets_wholeRead
    (a n : Nat)
    (p : LiveProcess σ) :
    Meets (Word.limit < a + n) (Stays p) (readBytes a n) p
      fun bs q => Stays p q ∧ bs.length = n := by
  have hStays :=
    stays_withChannel p (ProcessChannel.read a n p.channel).2
  rw [readBytes_eq]
  refine meets_bind (meets_checkStopped Stays.refl) ?_
  rintro _ g rfl
  have hRequest :
      Meets (Word.limit < a + n) (Stays g)
        (request (ProcessChannel.read a n)) g fun _ q =>
          Stays g q :=
    meets_request (fun _ _ => hStays) hStays
  refine meets_bind hRequest fun bs q hOn => ?_
  refine meets_bind (meets_checkWhole hOn) ?_
  rintro _ k ⟨rfl, hWhole⟩
  exact meets_pure ⟨hOn, List.length_take_of_le hWhole⟩

/- Whatever a command comes to, the process goes on. -/
theorem later_exchange
    (command : Command)
    (p : LiveProcess σ)
    (log : Log) :
    Later p (exchange command ⟨p, log⟩).1.after.process := by
  have hOutcome := outcome_exchange command ⟨p, log⟩
  generalize (exchange command ⟨p, log⟩).1.result = result
    at hOutcome
  generalize (exchange command ⟨p, log⟩).1.after = c
    at hOutcome ⊢
  cases hOutcome with
  | unasked => exact Stays.refl.toLater
  | failed => exact (stays_withChannel p _).toLater
  | carriedOut => exact ⟨Nat.le_add_right _ _, rfl, rfl, rfl⟩

/- A process behind a channel is a lawful source. -/
theorem lawful : Lawful (LiveProcess σ) where
  reads := meets_wholeRead
  writes a bs p := later_exchange (.write a bs) p
  suspends := later_exchange .suspend
  resumes := later_exchange .resume
  kills := later_exchange .kill

end LiveProcess

------------------------------------------------------------
-- Images and Published Heaps
------------------------------------------------------------

open MemorySource ObserverM in
theorem ReadOnlyImage.lawful : Lawful ReadOnlyImage where
  reads a n i := by
    refine ⟨fun log => ?_, fun log f hRun => ?_⟩
    · change Outcome _ _ (ReadOnlyImage.read a n ⟨i, log⟩).1
        (ReadOnlyImage.read a n ⟨i, log⟩).2.state
      rw [read_eq]
      split
      · rename_i hIn
        exact ⟨Stays.refl, length_bytesAt hIn.2⟩
      · exact Stays.refl
    · change (ReadOnlyImage.read a n ⟨i, log⟩).1 = _ at hRun
      rw [read_eq] at hRun
      split at hRun <;> cases hRun
  writes _ _ _ _ := Stays.refl.toLater
  suspends _ _ := Stays.refl.toLater
  resumes _ _ := Stays.refl.toLater
  kills _ _ := Stays.refl.toLater

open MemorySource ObserverM in
theorem PublishedHeap.lawful : Lawful PublishedHeap where
  reads a n p := by
    refine ⟨fun log => ⟨Stays.refl, ?_⟩, nofun⟩
    rw [List.length_map, List.length_range']
  writes _ _ _ _ := Stays.refl.toLater
  suspends _ _ := Stays.refl.toLater
  resumes _ _ := Stays.refl.toLater
  kills _ _ := Stays.refl.toLater

------------------------------------------------------------
-- Page Sizes
------------------------------------------------------------

/- Whole pages of a power of two make up all the addresses. -/
theorem Word.dvd_limit
    {n : Nat}
    (hPower : isPowerOfTwo n = true)
    (hLt : n < signedLimit) :
    n ∣ limit := by
  rcases isPowerOfTwo_iff.mp hPower with ⟨k, rfl⟩
  have hLog : k < 63 :=
    (Nat.pow_lt_pow_iff_right (a := 2) (by decide)).mp hLt
  exact Nat.pow_dvd_pow 2 (Nat.le_of_lt (Nat.lt_succ_of_lt hLog))

/- No page that begins below the limit reaches beyond it. -/
theorem Word.page_le_limit
    {n index : Nat}
    (hPower : isPowerOfTwo n = true)
    (hLt : n < signedLimit)
    (hBegins : index * n < limit) :
    index * n + n ≤ limit := by
  rcases dvd_limit hPower hLt with ⟨count, hCount⟩
  rw [hCount, Nat.mul_comm n] at hBegins ⊢
  have hIndex := Nat.lt_of_mul_lt_mul_right hBegins
  rw [← Nat.succ_mul]
  exact Nat.mul_le_mul_right n hIndex

------------------------------------------------------------
-- Caches in Use
------------------------------------------------------------

section Use

variable {σ : Type} [MemorySource σ]

/-
  The caches that come from a new one by requests that may fail
  but are not at fault.  In between the source may go on.
-/
inductive PageCache.InUse : Logged (PageCache σ) → Prop where
| start
    {source : σ}
    {pool : BufferPool}
    {cache : PageCache σ}
    {log : Log}
    (hMake : PageCache.make source pool = .ok cache) :
    InUse ⟨cache, log⟩
| request
    {r t : Logged (PageCache σ)}
    {request : Request}
    {result : Except Interruption Unit}
    (hUse : InUse r)
    (hRun : request.performOn r = (result, t))
    (hSafe : ∀ f, result ≠ .error (.fault f)) :
    InUse t
| elapse
    {r : Logged (PageCache σ)}
    {source : σ}
    (hUse : InUse r)
    (hLater : MemorySource.Later r.state.source source) :
    InUse { r with state := { r.state with source } }

/-
  A cache that is new, or in use and just invalidated.  It reads
  every page again before it uses it.
-/
inductive PageCache.Ready : Logged (PageCache σ) → Prop where
| fresh
    {source : σ}
    {pool : BufferPool}
    {cache : PageCache σ}
    {log : Log}
    (hMake : PageCache.make source pool = .ok cache) :
    Ready ⟨cache, log⟩
| invalidated
    {r t : Logged (PageCache σ)}
    (hUse : InUse r)
    (hRun : PageCache.invalidateAll r = (.ok (), t)) :
    Ready t

/-
  What a lawful source supplies, whatever bytes it has.  Pages
  that no buffer can be made for, or that reach beyond the last
  address, are served as well where faults are admitted.
-/
def MemorySource.Lawful.supply
    (hLawful : Lawful σ)
    (source : σ)
    (hPower : Word.isPowerOfTwo (pageSize source) = true)
    (lax : Prop) : Supply σ where
  alive := Stays source
  holds _ _ := True
  pageSize := pageSize source
  epoch := epoch source
  byteOrder := byteOrder source
  wordSize := wordSize source
  served index :=
    lax ∨
      (pageSize source < Word.signedLimit ∧
        index * pageSize source < Word.limit)
  mayFail := True
  mayFault := lax
  size_pos := Word.pos_of_isPowerOfTwo hPower
  epoch_eq hStays := hStays.same
  byteOrder_eq hStays := hStays.byteOrder
  wordSize_eq hStays := hStays.wordSize
  fits hServed := hServed.imp id fun hNear => hNear.1
  placed hServed := hServed.imp id fun hNear => hNear.2
  reads := by
    intro index s hServed hStays
    refine (hLawful.reads _ _ s).imp ?_ ?_ ?_
    · intro hFar
      refine hServed.elim id fun hNear => ?_
      have hEnd := Word.page_le_limit hPower hNear.1 hNear.2
      exact absurd hFar (Nat.not_lt_of_le hEnd)
    · exact fun t hOn => ⟨trivial, hStays.trans hOn⟩
    · rintro bs t ⟨hOn, hLength⟩
      exact ⟨hStays.trans hOn, hLength, fun _ _ _ => trivial⟩

/- A cache whose pages have their places and their buffers. -/
structure PageCache.Shelved (c : PageCache σ) : Prop where
  certain : c.inDoubt = false
  pageSize : c.pageSize = MemorySource.pageSize c.source
  power : Word.isPowerOfTwo (MemorySource.pageSize c.source) = true
  shelf :
    Shelf (fun _ _ => True) c.pageSize c.pool
      (MemorySource.epoch c.source) c.pages

/- What pages hold may be forgotten. -/
theorem Shelf.forget
    {holds : Nat → UInt8 → Prop}
    {pageSize epoch later : Nat}
    {pool : BufferPool}
    {pages : Std.HashMap Nat Page}
    (hShelf : Shelf holds pageSize pool epoch pages)
    (hLater : epoch ≤ later) :
    Shelf (fun _ _ => True) pageSize pool later pages := by
  refine ⟨fun index p hPage => ?_, hShelf.apart⟩
  have hKeeps := hShelf.keeps index p hPage
  exact
    ⟨hKeeps.indexed, hKeeps.placed, hKeeps.length, hKeeps.below,
      fun e hEpoch => Nat.le_trans (hKeeps.past e hEpoch) hLater,
      fun _ _ _ _ => trivial⟩

namespace PageCache

open ObserverM MemorySource

variable {c d : PageCache σ}
variable {r : Logged (PageCache σ)}

/- A new cache is over the source that it was made with. -/
theorem source_make
    {source : σ}
    {pool : BufferPool}
    (hMake : PageCache.make source pool = .ok c) :
    c.source = source := by
  unfold PageCache.make at hMake
  dsimp only at hMake
  split at hMake
  · cases hMake
    rfl
  · cases hMake

/- A new cache has no pages. -/
theorem shelved_make
    {source : σ}
    {pool : BufferPool}
    (hMake : PageCache.make source pool = .ok c) :
    Shelved c := by
  unfold PageCache.make at hMake
  dsimp only at hMake
  split at hMake
  · rename_i hPower
    cases hMake
    exact ⟨rfl, rfl, hPower, Shelf.empty⟩
  · cases hMake

/- The pages keep their places while the source goes on. -/
theorem Shelved.later
    {source : σ}
    (hShelved : Shelved c)
    (hLater : Later c.source source) :
    Shelved { c with source } :=
  ⟨hShelved.certain,
    hShelved.pageSize.trans hLater.pageSize.symm,
    hLater.pageSize ▸ hShelved.power,
    hShelved.shelf.forget hLater.epoch⟩

/- A shelved cache holds what its source supplies. -/
theorem Shelved.stocks
    (hLawful : Lawful σ)
    (hShelved : Shelved c)
    (lax : Prop) :
    (hLawful.supply c.source hShelved.power lax).Stocks c := by
  have hShelf := hShelved.shelf
  rw [hShelved.pageSize] at hShelf
  exact
    ⟨hShelved.certain, Stays.refl, hShelved.pageSize, hShelf⟩

/- A cache that holds what some source supplies is shelved. -/
theorem shelved_of_stocks
    {hLawful : Lawful σ}
    {source : σ}
    {hPower : Word.isPowerOfTwo (MemorySource.pageSize source) = true}
    {lax : Prop}
    (hStocks : (hLawful.supply source hPower lax).Stocks d) :
    Shelved d := by
  have hStays : Stays source d.source := hStocks.alive
  refine
    ⟨hStocks.certain,
      hStocks.pageSize.trans hStays.pageSize.symm,
      hStays.pageSize ▸ hPower, ?_⟩
  rw [hStays.same, hStocks.pageSize]
  exact hStocks.shelf

/- Reading keeps the pages at their places. -/
theorem Shelved.upholds_silent
    {α : Type}
    {work : ObserverM (PageCache σ) α}
    {answer : α → Prop}
    (hLawful : Lawful σ)
    (hShelved : Shelved c)
    (hWork :
      let supply := hLawful.supply c.source hShelved.power True
      Meets supply.mayFault supply.Spares work c fun a d =>
        supply.Stocks d ∧ answer a) :
    Upholds Shelved
      (do
        let _ ← work
        pure ())
      c fun _ => Shelved :=
  (upholds_stocks hWork).imp (fun _ => shelved_of_stocks)
    fun _ _ => shelved_of_stocks

theorem Shelved.upholds_invalidateRange
    (hLawful : Lawful σ)
    (hShelved : Shelved c)
    (a count : Nat) :
    Upholds Shelved (invalidateRange a count) c fun _ => Shelved :=
  (invalidatesRange (hShelved.stocks hLawful True) a count).imp
    (fun _ hKept => hKept) fun _ _ => shelved_of_stocks

/- Pages stay at their places whatever is done with the source. -/
theorem Shelved.upholds_onSource
    {work : ObserverM σ Unit}
    (hShelved : Shelved c)
    (hWork : ∀ log, Later c.source (work ⟨c.source, log⟩).2.state) :
    Upholds Shelved (onSource work) c fun _ => Shelved := by
  apply upholds_within
  intro log
  have hLater := hShelved.later (hWork log)
  generalize work ⟨c.source, log⟩ = r at hLater ⊢
  rcases r with ⟨(e | f) | a, t⟩
  · exact hLater
  · trivial
  · exact hLater

theorem Shelved.upholds_performOn
    (hLawful : Lawful σ)
    (hShelved : Shelved c)
    (request : Request) :
    Upholds Shelved request.performOn c fun _ => Shelved := by
  have hStocks := hShelved.stocks hLawful True
  have hCovers :
      ∀ a n,
        (hLawful.supply c.source hShelved.power True).Covers a n :=
    fun _ _ _ _ _ => .inl trivial
  cases request with
  | read a n =>
      exact
        hShelved.upholds_silent hLawful
          (meets_reads a n hStocks (hCovers a n) (.inl trivial)
            (.inl trivial))
  | readInto a n =>
      exact
        hShelved.upholds_silent hLawful
          (meets_readInto a n hStocks (hCovers a n)
            (.inl trivial))
  | readNumber width a =>
      exact
        hShelved.upholds_silent hLawful
          (meets_readNumber width a hStocks (hCovers a width)
            (.inl trivial))
  | readWord a =>
      exact
        hShelved.upholds_silent hLawful
          (meets_readWord a hStocks (hCovers a) (.inl trivial))
  | write a bs =>
      have hAgain :
          ∀ d, Shelved d →
            Upholds Shelved (invalidateRange a bs.length) d
              fun _ => Shelved :=
        fun _ hOn => hOn.upholds_invalidateRange hLawful a _
      refine upholds_attempt
        (hShelved.upholds_onSource (hLawful.writes a bs _))
        (fun _ d => hAgain d) ?_ fun _ _ => upholds_fault
      intro e d hOn
      refine upholds_bind (hAgain d hOn) ?_
      exact fun _ _ => upholds_fail
  | invalidate index =>
      exact
        (invalidates hStocks _).imp (fun _ hKept => hKept)
          fun _ _ => shelved_of_stocks
  | invalidateRange a n =>
      exact hShelved.upholds_invalidateRange hLawful a n
  | invalidateAll =>
      exact
        (invalidates hStocks _).imp (fun _ hKept => hKept)
          fun _ _ => shelved_of_stocks
  | suspend => exact hShelved.upholds_onSource (hLawful.suspends _)
  | resume => exact hShelved.upholds_onSource (hLawful.resumes _)
  | kill => exact hShelved.upholds_onSource (hLawful.kills _)

/- The pages of every cache in use have their places. -/
theorem InUse.shelved
    (hLawful : Lawful σ)
    (hUse : InUse r) :
    Shelved r.state := by
  induction hUse with
  | start hMake => exact shelved_make hMake
  | request _ hRun hSafe ih =>
      exact (ih.upholds_performOn hLawful _).of_run hRun hSafe
  | elapse _ hLater ih => exact ih.later hLater

/-
  A cache that reads all pages again holds whatever its source
  may be said to supply.
-/
theorem Ready.stocks
    {supply : Supply σ}
    (hLawful : Lawful σ)
    (hReady : Ready r)
    (hAlive : supply.alive r.state.source)
    (hSize :
      MemorySource.pageSize r.state.source = supply.pageSize) :
    supply.Stocks r.state := by
  cases hReady with
  | fresh hMake =>
      rw [source_make hMake] at hAlive hSize
      exact Supply.stocks_make hAlive hSize hMake
  | @invalidated r _ hUse hRun =>
      have hShelved := hUse.shelved hLawful
      rw [invalidateAll,
        run_invalidateWhere _ hShelved.certain] at hRun
      cases hRun
      have hSame : r.state.pageSize = supply.pageSize :=
        hShelved.pageSize.trans hSize
      refine ⟨hShelved.certain, hAlive, hSame, ?_⟩
      rw [← supply.epoch_eq hAlive, ← hSame]
      exact hShelved.shelf.invalidated nofun

------------------------------------------------------------
-- New Caches
------------------------------------------------------------

/- A new cache without a pool. -/
def anew (source : σ) : Logged (PageCache σ) where
  state :=
    { source
      pool := { size := 0, disabled := true }
      pageSize := MemorySource.pageSize source }

/- A cache is made if its pages have a size that they may have. -/
theorem make_anew
    {source : σ}
    (hPower :
      Word.isPowerOfTwo (MemorySource.pageSize source) = true) :
    PageCache.make source { size := 0, disabled := true } =
      .ok (anew source).state :=
  if_pos hPower

end PageCache

end Use

end BeltHeap
