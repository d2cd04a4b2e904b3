import BeltHeap.Proofs.Fetching

/-
  The lives of the pages of a cache: when they were read from the
  source, at which epoch, and when they were invalidated.  A page
  is read exactly where it is due, so that between two
  invalidations it is read at most once in an epoch.

  Main declarations:
    * `PageLife`, `PageLife.Due`, `PageLife.Ascends`
    * `Request.recorded`, `PageCache.Recorded`
    * `PageCache.Tells`, `PageCache.Recorded.tells`
    * `PageCache.ReadAsDue`
    * `PageCache.Recorded.reads_as_due`
-/

------------------------------------------------------------
-- Lives of Pages
------------------------------------------------------------

namespace BeltHeap

/- What may happen to a cached page. -/
inductive PageMoment where
| refreshed (epoch : Nat) : PageMoment
| invalidated : PageMoment
deriving DecidableEq, Repr

/- What happened to a page, the last of it first. -/
abbrev PageLife := List PageMoment

namespace PageLife

/-
  A page is due if it was never read, was invalidated after it
  was last read, or was last read before this epoch.
-/
def Due (epoch : Nat) : PageLife → Prop
| [] => True
| .invalidated :: _ => True
| .refreshed e :: _ => e < epoch

/- How often a page was read. -/
def refreshes : PageLife → Nat
| [] => 0
| .invalidated :: life => refreshes life
| .refreshed _ :: life => refreshes life + 1

/- The epoch that a page was read in, unless it is read again. -/
def current : PageLife → Option Nat
| .refreshed e :: _ => some e
| _ => none

/-
  Without an invalidation in between, a page is read again only
  in a later epoch.
-/
def Ascends (life : PageLife) : Prop :=
  ∀ newer between older e e',
    life =
        newer ++ .refreshed e ::
          (between ++ .refreshed e' :: older) →
      .invalidated ∉ between → e' < e

variable {life : PageLife}
variable {epoch e : Nat}

/- A page is due unless it is of this epoch. -/
theorem due_iff :
    life.Due epoch ↔ ∀ e, life.current = some e → e < epoch := by
  cases life with
  | nil => exact ⟨fun _ => nofun, fun _ => trivial⟩
  | cons moment older =>
      cases moment with
      | invalidated => exact ⟨fun _ => nofun, fun _ => trivial⟩
      | refreshed e =>
          refine ⟨?_, fun hOlder => hOlder e rfl⟩
          rintro hDue e ⟨⟩
          exact hDue

theorem ascends_nil : Ascends [] := by
  intro newer between older e e' hLife
  cases newer <;> cases hLife

/- An invalidation may happen at any time. -/
theorem Ascends.invalidated
    (hAscends : life.Ascends) :
    Ascends (.invalidated :: life) := by
  intro newer between older e e' hLife hBetween
  cases newer with
  | nil => cases hLife
  | cons moment newer =>
      exact
        hAscends newer between older e e' (List.cons.inj hLife).2
          hBetween

/- A page that is due may be read. -/
theorem Ascends.refreshed
    (hAscends : life.Ascends)
    (hDue : life.Due epoch) :
    Ascends (.refreshed epoch :: life) := by
  intro newer between older e e' hLife hBetween
  cases newer with
  | cons moment newer =>
      exact
        hAscends newer between older e e' (List.cons.inj hLife).2
          hBetween
  | nil =>
      rcases List.cons.inj hLife with ⟨hNow, rfl⟩
      cases hNow
      cases between with
      | nil => exact hDue
      | cons moment between =>
          cases moment with
          | invalidated =>
              exact absurd List.mem_cons_self hBetween
          | refreshed last =>
              have hBefore : e' < last :=
                hAscends [] between older last e' rfl
                  fun hIn => hBetween (List.mem_cons_of_mem _ hIn)
              exact Nat.lt_trans hBefore hDue

end PageLife

------------------------------------------------------------
-- Recorded Caches
------------------------------------------------------------

theorem Shelf.congr
    {holds : Nat → UInt8 → Prop}
    {pageSize epoch : Nat}
    {pool : BufferPool}
    {pages pages' : Std.HashMap Nat Page}
    (hShelf : Shelf holds pageSize pool epoch pages)
    (hSame : ∀ k : Nat, pages'[k]? = pages[k]?) :
    Shelf holds pageSize pool epoch pages' :=
  ⟨fun k p hPage => hShelf.keeps k p (hSame k ▸ hPage),
    fun i j p q hFirst hSecond =>
      hShelf.apart i j p q (hSame i ▸ hFirst)
        (hSame j ▸ hSecond)⟩

open PageCache MemorySource ObserverM

/- Is a page read again before use, by what a request says? -/
def Request.rereads
    (pageSize : Nat) : Request → Nat → Bool
| .write a bs, index => decide (Spans pageSize a bs.length index)
| .invalidate index, other => other == index
| .invalidateRange a count, index =>
    decide (Spans pageSize a count index)
| .invalidateAll, _ => true
| _, _ => false

variable {σ : Type} [MemorySource σ]

/-
  The lives of the pages after a request.  A page that is to be
  read again is invalidated, and any other was read as often as
  its count says.
-/
def Request.recorded
    (request : Request)
    (c d : PageCache σ)
    (lives : Nat → PageLife)
    (index : Nat) : PageLife :=
  if request.rereads c.pageSize index then
    .invalidated :: lives index
  else
    List.replicate (d.refreshesOf index - c.refreshesOf index)
        (.refreshed (MemorySource.epoch d.source)) ++
      lives index

/-
  The caches in use, with the lives of their pages.  In between
  the source may go on to later epochs.
-/
inductive PageCache.Recorded :
    Logged (PageCache σ) → (Nat → PageLife) → Prop where
| start
    {source : σ}
    {pool : BufferPool}
    {cache : PageCache σ}
    {log : Log}
    (hMake : PageCache.make source pool = .ok cache) :
    Recorded ⟨cache, log⟩ fun _ => []
| request
    {r t : Logged (PageCache σ)}
    {lives : Nat → PageLife}
    {request : Request}
    {result : Except Interruption Unit}
    (hRecorded : Recorded r lives)
    (hRun : request.performOn r = (result, t))
    (hSafe : ∀ f, result ≠ .error (.fault f)) :
    Recorded t (request.recorded r.state t.state lives)
| elapse
    {r : Logged (PageCache σ)}
    {lives : Nat → PageLife}
    {source : σ}
    (hRecorded : Recorded r lives)
    (hLater : Later r.state.source source) :
    Recorded { r with state := { r.state with source } } lives

namespace PageCache

variable {c d : PageCache σ}
variable {r t : Logged (PageCache σ)}
variable {lives : Nat → PageLife}
variable {index a count : Nat}

/-
  The lives of the pages of a cache tell their epochs and how
  often they were read.
-/
structure Tells
    (c : PageCache σ)
    (lives : Nat → PageLife) : Prop where
  shelved : Shelved c
  epoch : ∀ index, c.epochOf index = (lives index).current
  refreshes :
    ∀ index, c.refreshesOf index = (lives index).refreshes
  ascends : ∀ index, (lives index).Ascends

/- A page is stale exactly if it is due. -/
theorem Tells.stale_iff_due
    (hTells : Tells c lives) :
    c.Stale index ↔
      (lives index).Due (MemorySource.epoch c.source) := by
  rw [PageLife.due_iff, ← hTells.epoch]
  exact Iff.rfl

/- New caches have no pages. -/
theorem tells_make
    {source : σ}
    {pool : BufferPool}
    (hMake : PageCache.make source pool = .ok c) :
    Tells c fun _ => [] := by
  have hLook : ∀ index, c.look index = none := by
    intro index
    refine look_of_none ?_
    unfold PageCache.make at hMake
    dsimp only at hMake
    split at hMake
    · cases hMake
      exact Std.HashMap.getElem?_empty
    · cases hMake
  refine
    ⟨shelved_make hMake, fun index => ?_, fun index => ?_,
      fun _ => PageLife.ascends_nil⟩
  · unfold epochOf
    rw [hLook]
    rfl
  · unfold refreshesOf
    rw [hLook]
    rfl

/- The pages of a cache do not change while its source goes on. -/
theorem Tells.later
    {source : σ}
    (hTells : Tells c lives)
    (hLater : Later c.source source) :
    Tells { c with source } lives :=
  ⟨hTells.shelved.later hLater, hTells.epoch, hTells.refreshes,
    hTells.ascends⟩

/- Pages that are to be read again keep their places. -/
theorem Shelved.invalidated
    {again : Nat → Bool}
    (hShelved : Shelved c)
    (hAgain : Invalidated c d again) :
    Shelved d := by
  refine ⟨hAgain.inDoubt.trans hShelved.certain, ?_, ?_, ?_⟩
  · rw [hAgain.pageSize, hAgain.source]
    exact hShelved.pageSize
  · rw [hAgain.source]
    exact hShelved.power
  · rw [hAgain.pageSize, hAgain.source, hAgain.pool]
    have hShelf :
        Shelf (fun _ _ => True) c.pageSize c.pool
          (MemorySource.epoch c.source)
          (c.pages.map fun index page =>
            if again index then page.invalidated else page) :=
      hShelved.shelf.invalidated
        fun _ _ _ _ _ _ hHolds => hHolds
    refine hShelf.congr fun k => ?_
    rw [hAgain.pages, Std.HashMap.getElem?_map]

/- An invalidated page is no longer of an epoch. -/
theorem Tells.invalidated
    {again : Nat → Bool}
    (hTells : Tells c lives)
    (hAgain : Invalidated c d again) :
    Tells d fun index =>
      if again index then .invalidated :: lives index
      else lives index := by
  refine
    ⟨hTells.shelved.invalidated hAgain, fun index => ?_,
      fun index => ?_, fun index => ?_⟩
  · rw [hAgain.epochOf, hTells.epoch]
    cases again index <;> rfl
  · rw [hAgain.refreshesOf, hTells.refreshes]
    cases again index <;> rfl
  · cases again index with
    | true => exact (hTells.ascends index).invalidated
    | false => exact hTells.ascends index

------------------------------------------------------------
-- Requests
------------------------------------------------------------

/-
  A page that was read if it was stale, or is of its epoch as
  often as before.
-/
def Goes
    (c d : PageCache σ)
    (index : Nat) : Prop :=
  d.epochOf index = c.epochOf index ∧
      d.refreshesOf index = c.refreshesOf index ∨
    c.Stale index ∧ Renewed c d index

/- A page that looks the same goes on. -/
theorem goes_of_look
    (hSame : d.look index = c.look index) :
    Goes c d index :=
  .inl ⟨epochOf_congr hSame, refreshesOf_congr hSame⟩

/- Pages go on when some of them are reached. -/
theorem Fetched.goes
    {reached : Nat → Prop}
    (hFetched : Fetched c d reached)
    (index : Nat) :
    Goes c d index := by
  by_cases hIn : reached index ∧ c.Stale index
  · exact .inr ⟨hIn.2, hFetched.renewed index hIn.1 hIn.2⟩
  · exact goes_of_look (hFetched.spared index hIn)

/- Pages go on when a read fails. -/
theorem Failed.goes
    (hFailed : Failed c d a count)
    (index : Nat) :
    Goes c d index := by
  rcases hFailed with ⟨-, rfl⟩ | ⟨last, -, hBroken⟩
  · exact goes_of_look rfl
  · by_cases hLast : index = last
    · subst hLast
      rcases hBroken.refused.left with
        hSame | ⟨hNone, p, bs, hSome, hEpoch, hRefreshes⟩
      · exact goes_of_look hSame
      · unfold Goes epochOf refreshesOf
        rw [hNone, hSome]
        exact .inl ⟨hEpoch, hRefreshes⟩
    · by_cases hIn :
          (Spans c.pageSize a count index ∧ index < last) ∧
            c.Stale index
      · exact .inr ⟨hIn.2, hBroken.renewed index hIn.1 hIn.2⟩
      · exact
          goes_of_look
            (hBroken.spared index
              fun hChanged => hChanged.elim hLast hIn)

/- The source stays in its epoch. -/
theorem Failed.stays
    (hFailed : Failed c d a count) :
    Stays c.source d.source := by
  rcases hFailed with ⟨-, rfl⟩ | ⟨last, -, hBroken⟩
  · exact Stays.refl
  · exact hBroken.stays

/- What was read is recorded as often as it was read. -/
theorem Tells.read
    (hTells : Tells c lives)
    (hShelved : Shelved d)
    (hStays : Stays c.source d.source)
    (hGoes : ∀ index, Goes c d index) :
    Tells d fun index =>
      List.replicate (d.refreshesOf index - c.refreshesOf index)
          (.refreshed (MemorySource.epoch d.source)) ++
        lives index := by
  refine ⟨hShelved, ?_, ?_, ?_⟩ <;> intro index <;>
    rcases hGoes index with ⟨hEpoch, hSame⟩ | ⟨hStale, hRenewed⟩
  · rw [hSame, Nat.sub_self, hEpoch]
    exact hTells.epoch index
  · rw [hRenewed.count, Nat.add_sub_cancel_left, hRenewed.epoch]
    rfl
  · rw [hSame, Nat.sub_self]
    exact hTells.refreshes index
  · rw [hRenewed.count, Nat.add_sub_cancel_left,
      hTells.refreshes]
    rfl
  · rw [hSame, Nat.sub_self]
    exact hTells.ascends index
  · rw [hRenewed.count, Nat.add_sub_cancel_left, hStays.same]
    exact
      (hTells.ascends index).refreshed
        (hTells.stale_iff_due.mp hStale)

/- A request that reads a range invalidates no page. -/
theorem rereads_of_range
    {request : Request}
    {wordSize pageSize : Nat}
    (hRange : request.range? wordSize = some (a, count)) :
    request.rereads pageSize index = false := by
  cases request <;> first | rfl | cases hRange

/- What any other request invalidates is all that is recorded. -/
theorem recorded_of_same
    {request : Request}
    (hSame : ∀ index, d.refreshesOf index = c.refreshesOf index) :
    request.recorded c d lives = fun index =>
      if request.rereads c.pageSize index then
        .invalidated :: lives index
      else lives index := by
  funext index
  unfold Request.recorded
  rw [hSame, Nat.sub_self]
  rfl

/- Reading a range is recorded. -/
theorem Tells.upholds_reading
    {request : Request}
    (hLawful : Lawful σ)
    (hTells : Tells c lives)
    (hRange :
      request.range? (MemorySource.wordSize c.source) =
        some (a, count)) :
    Upholds (fun d => Tells d (request.recorded c d lives))
      request.performOn c fun _ d =>
        Tells d (request.recorded c d lives) := by
  have hRecorded :
      ∀ d,
        request.recorded c d lives = fun index =>
          List.replicate
              (d.refreshesOf index - c.refreshesOf index)
              (.refreshed (MemorySource.epoch d.source)) ++
            lives index := by
    intro d
    funext index
    unfold Request.recorded
    rw [rereads_of_range hRange]
    rfl
  refine
    (PageCache.upholds_reading hLawful hTells.shelved hRange).imp
      ?_ ?_
  · rintro d ⟨hShelved, hFailed⟩
    rw [hRecorded]
    exact hTells.read hShelved hFailed.stays hFailed.goes
  · rintro _ d ⟨hShelved, hFetched⟩
    rw [hRecorded]
    exact hTells.read hShelved hFetched.stays hFetched.goes

/- Invalidation is recorded, whatever the source did before. -/
theorem Tells.recorded
    {source : σ}
    {request : Request}
    (hTells : Tells c lives)
    (hLater : Later c.source source)
    (hAgain :
      Invalidated { c with source } d
        (request.rereads c.pageSize)) :
    Tells d (request.recorded c d lives) := by
  have hSame : ∀ index, d.refreshesOf index = c.refreshesOf index :=
    hAgain.refreshesOf
  rw [recorded_of_same hSame]
  exact (hTells.later hLater).invalidated hAgain

/- The source goes on, whatever it is asked to do. -/
theorem upholds_later
    {work : ObserverM σ Unit}
    (hWork : ∀ log, Later c.source (work ⟨c.source, log⟩).2.state) :
    Upholds
      (fun d =>
        ∃ source, Later c.source source ∧ d = { c with source })
      (onSource work) c fun _ d =>
        ∃ source, Later c.source source ∧
          d = { c with source } := by
  apply upholds_within
  intro log
  have hLater := hWork log
  generalize work ⟨c.source, log⟩ = r at hLater ⊢
  rcases r with ⟨(e | f) | a, t⟩
  · exact ⟨t.state, hLater, rfl⟩
  · trivial
  · exact ⟨t.state, hLater, rfl⟩

/- Work on the source alone adds nothing to the lives of pages. -/
theorem Tells.upholds_onSource
    {request : Request}
    {work : ObserverM σ Unit}
    (hTells : Tells c lives)
    (hWork : ∀ log, Later c.source (work ⟨c.source, log⟩).2.state)
    (hNone : ∀ index, request.rereads c.pageSize index = false) :
    Upholds (fun d => Tells d (request.recorded c d lives))
      (onSource work) c fun _ d =>
        Tells d (request.recorded c d lives) := by
  have hTold :
      ∀ source, Later c.source source →
        Tells { c with source }
          (request.recorded c { c with source } lives) := by
    intro source hLater
    refine
      hTells.recorded hLater
        ⟨rfl, rfl, rfl, rfl, fun index => ?_⟩
    rw [hNone]
    cases c.pages[index]? <;> rfl
  refine (upholds_later hWork).imp ?_ ?_
  · rintro d ⟨source, hLater, rfl⟩
    exact hTold source hLater
  · rintro _ d ⟨source, hLater, rfl⟩
    exact hTold source hLater

/- A write is recorded whether it failed or not. -/
theorem Tells.upholds_write
    (hLawful : Lawful σ)
    (hTells : Tells c lives)
    (a : Nat)
    (bs : List UInt8) :
    Upholds
      (fun d => Tells d ((Request.write a bs).recorded c d lives))
      (PageCache.write a bs) c fun _ d =>
        Tells d ((Request.write a bs).recorded c d lives) := by
  have hAgain :
      ∀ source, Later c.source source →
        Upholds
          (fun d =>
            Tells d ((Request.write a bs).recorded c d lives))
          (invalidateRange a bs.length) { c with source }
          fun _ d =>
            Tells d ((Request.write a bs).recorded c d lives) :=
    fun source hLater =>
      (upholds_rangeAgain a bs.length).imp
        (fun _ hKept => hKept)
        fun _ _ hAgain => hTells.recorded hLater hAgain
  unfold PageCache.write
  refine upholds_attempt (upholds_later (hLawful.writes a bs _))
    ?_ ?_ fun _ _ => upholds_fault
  · rintro _ d ⟨source, hLater, rfl⟩
    exact hAgain source hLater
  · rintro e d ⟨source, hLater, rfl⟩
    exact
      upholds_bind (hAgain source hLater)
        fun _ _ hTold => upholds_fail hTold

/- Every request is recorded. -/
theorem Tells.upholds_performOn
    (hLawful : Lawful σ)
    (hTells : Tells c lives)
    (request : Request) :
    Upholds (fun d => Tells d (request.recorded c d lives))
      request.performOn c fun _ d =>
        Tells d (request.recorded c d lives) := by
  have hNow : Later c.source c.source := Stays.refl.toLater
  cases request with
  | read a n | readInto a n | readNumber width a | readWord a =>
      exact hTells.upholds_reading hLawful rfl
  | write a bs => exact hTells.upholds_write hLawful a bs
  | invalidate index =>
      exact
        (upholds_again _).imp (fun _ hKept => hKept)
          fun _ _ hAgain => hTells.recorded hNow hAgain
  | invalidateRange a n =>
      exact
        (upholds_rangeAgain a n).imp (fun _ hKept => hKept)
          fun _ _ hAgain => hTells.recorded hNow hAgain
  | invalidateAll =>
      exact
        (upholds_again _).imp (fun _ hKept => hKept)
          fun _ _ hAgain => hTells.recorded hNow hAgain
  | suspend =>
      exact
        hTells.upholds_onSource (hLawful.suspends _) fun _ => rfl
  | resume =>
      exact
        hTells.upholds_onSource (hLawful.resumes _) fun _ => rfl
  | kill =>
      exact
        hTells.upholds_onSource (hLawful.kills _) fun _ => rfl

/- The lives of the pages of every recorded cache are told. -/
theorem Recorded.tells
    (hLawful : Lawful σ)
    (hRecorded : Recorded r lives) :
    Tells r.state lives := by
  induction hRecorded with
  | start hMake => exact tells_make hMake
  | request _ hRun hSafe ih =>
      exact (ih.upholds_performOn hLawful _).of_run hRun hSafe
  | elapse _ hLater ih => exact ih.later hLater

------------------------------------------------------------
-- Reads
------------------------------------------------------------

/-
  What a read does to the pages of a cache, by what it came to.
  The pages of the range that are due are read once each, in the
  order of their addresses.  Where the source refuses one, that
  page stays as it was, and none behind it is read.
-/
inductive ReadAsDue
    (lives : Nat → PageLife)
    (a count : Nat)
    (c d : PageCache σ) : Except Interruption Unit → Prop where
| answered
    (hRead :
      ∀ k, Spans c.pageSize a count k →
        (lives k).Due (MemorySource.epoch c.source) →
          Renewed c d k)
    (hSpared :
      ∀ k,
        ¬ (Spans c.pageSize a count k ∧
            (lives k).Due (MemorySource.epoch c.source)) →
          d.look k = c.look k) :
    ReadAsDue lives a count c d (.ok ())
| tooFar
    {e : ObserverError}
    (hFar : Word.limit ≤ a + count)
    (hSame : d = c) :
    ReadAsDue lives a count c d (.error (.error e))
| refused
    {last : Nat}
    {e : ObserverError}
    (hSpans : Spans c.pageSize a count last)
    (hDue : (lives last).Due (MemorySource.epoch c.source))
    (hRefused : Refused c d last)
    (hRead :
      ∀ k, Spans c.pageSize a count k → k < last →
        (lives k).Due (MemorySource.epoch c.source) →
          Renewed c d k)
    (hSpared :
      ∀ k, k ≠ last →
        ¬ (Spans c.pageSize a count k ∧ k < last ∧
            (lives k).Due (MemorySource.epoch c.source)) →
          d.look k = c.look k) :
    ReadAsDue lives a count c d (.error (.error e))

/- A read that was answered is one. -/
theorem Fetched.readAsDue
    (hTells : Tells c lives)
    (hFetched : Fetched c d (Spans c.pageSize a count)) :
    ReadAsDue lives a count c d (.ok ()) := by
  refine .answered (fun k hIn hDue => ?_) fun k hOut => ?_
  · exact hFetched.renewed k hIn (hTells.stale_iff_due.mpr hDue)
  · refine hFetched.spared k fun hIn => hOut ⟨hIn.1, ?_⟩
    exact hTells.stale_iff_due.mp hIn.2

/- A read that fails reads the pages as they are due. -/
theorem Failed.readAsDue
    {e : ObserverError}
    (hTells : Tells c lives)
    (hFailed : Failed c d a count) :
    ReadAsDue lives a count c d (.error (.error e)) := by
  rcases hFailed with ⟨hFar, hSame⟩ | ⟨last, hLast, hBroken⟩
  · exact .tooFar hFar hSame
  · refine
      .refused hLast (hTells.stale_iff_due.mp hBroken.stale)
        hBroken.refused (fun k hIn hLt hDue => ?_)
        fun k hNe hOut => ?_
    · exact
        hBroken.renewed k ⟨hIn, hLt⟩
          (hTells.stale_iff_due.mpr hDue)
    · refine hBroken.spared k ?_
      rintro (hEq | ⟨⟨hIn, hLt⟩, hStale⟩)
      · exact hNe hEq
      · exact hOut ⟨hIn, hLt, hTells.stale_iff_due.mp hStale⟩

/-
  Pages are read as often as they are due, at most once by a read
  and once in an epoch, and a page that could not be read stays
  as it was.
-/
theorem Recorded.reads_as_due
    (hLawful : Lawful σ)
    (hRecorded : Recorded r lives) :
    (∀ k, r.state.refreshesOf k = (lives k).refreshes) ∧
    (∀ k, (lives k).Ascends) ∧
    ∀ (request : Request) a count result
      (t : Logged (PageCache σ)),
      request.range? (wordSize r.state.source) =
          some (a, count) →
        request.performOn r = (result, t) →
        (∀ f, result ≠ .error (.fault f)) →
          ReadAsDue lives a count r.state t.state result := by
  have hTells := hRecorded.tells hLawful
  refine ⟨hTells.refreshes, hTells.ascends, ?_⟩
  intro request a count result t hRange hRun hSafe
  have hOutcome :=
    PageCache.upholds_reading hLawful hTells.shelved hRange r.log
  change Outcome _ _ (request.performOn r).1
    (request.performOn r).2.state at hOutcome
  rw [hRun] at hOutcome
  rcases result with (e | f) | ⟨⟩
  · exact hOutcome.2.readAsDue hTells
  · exact absurd rfl (hSafe f)
  · exact hOutcome.2.readAsDue hTells

end PageCache

------------------------------------------------------------
-- A Page That Is Due
------------------------------------------------------------

open PageCache

namespace Session

/- The lives of the pages after the first of them was read. -/
def livesOnce : Nat → PageLife :=
  (Request.read 1 2).recorded fresh (warm fresh.source).state
    fun _ => []

/- The page was read, and then the target was stopped again. -/
theorem recorded_changed :
    Recorded (warm changed) livesOnce := by
  have hMake :
      PageCache.make fresh.source fresh.pool = .ok fresh :=
    rfl
  have hRun :
      (Request.read 1 2).performOn ⟨fresh, {}⟩ =
        (.ok (), warm fresh.source) := by
    rw [← Request.perform_eq_performOn]
    exact perform_fresh
  have hFresh : Recorded ⟨fresh, {}⟩ fun _ => [] := .start hMake
  have hWarm := hFresh.request hRun nofun
  exact hWarm.elapse ⟨by decide, rfl, rfl, rfl⟩

/-
  A page that was read is due in a new epoch, and is read for
  the second time.
-/
theorem reads_as_due_changed :
    (livesOnce 0).Due 1 ∧
      ∃ t, (Request.read 1 2).performOn (warm changed) =
          (.ok (), t) ∧
        t.state.refreshesOf 0 = 2 ∧
        t.state.epochOf 0 =
          some (MemorySource.epoch t.state.source) := by
  have hLawful := LiveProcess.lawful (σ := Debuggee)
  have hTells := recorded_changed.tells hLawful
  have hLook :
      (warm changed).state.look 0 = some (readOnce, _) :=
    look_of_some Std.HashMap.getElem?_insert_self
  have hStale : (warm changed).state.Stale 0 := by
    unfold Stale epochOf
    rw [hLook]
    rintro e ⟨⟩
    decide
  have hDue : (livesOnce 0).Due 1 := hTells.stale_iff_due.mp hStale
  have hCount : (warm changed).state.refreshesOf 0 = 1 := by
    unfold refreshesOf
    rw [hLook]
    rfl
  rcases read_changed with ⟨bs, t, hRead⟩
  have hRun :
      (Request.read 1 2).performOn (warm changed) = (.ok (), t) := by
    change (PageCache.read 1 2 >>= fun _ => pure ()) _ = _
    rw [Activity.run_bind, hRead]
    rfl
  have hAsDue :=
    (Recorded.reads_as_due hLawful recorded_changed).2.2
      (.read 1 2) 1 2 (.ok ()) t rfl hRun nofun
  cases hAsDue with
  | answered hReads _ =>
      have hRenewed := hReads 0 ⟨1, by decide, by decide, rfl⟩ hDue
      refine ⟨hDue, t, hRun, ?_, hRenewed.epoch⟩
      rw [hRenewed.count, hCount]

end Session

end BeltHeap
