import BeltHeap.Proofs.Asking
import BeltHeap.Proofs.Sources

/-
  What a read of a cache does to each of its pages.  The stale
  pages of the range are read from the source, once each, in the
  order of their addresses, until one of them is refused.  No
  other page changes.

  Main declarations:
    * `PageCache.Renewed`, `PageCache.Refused`
    * `PageCache.Fetched`, `PageCache.BrokenOff`
    * `PageCache.upholds_fetchAt`
    * `PageCache.upholds_readFrom`, `PageCache.upholds_reading`
-/

------------------------------------------------------------
-- Conditions on the Same Work
------------------------------------------------------------

namespace BeltHeap

namespace ObserverM

variable {τ α : Type}
variable {kept kept' : τ → Prop}
variable {s : τ}
variable {post post' : α → τ → Prop}
variable {work : ObserverM τ α}

/- Work upholds two conditions at once. -/
theorem Upholds.and
    (hFirst : Upholds kept work s post)
    (hSecond : Upholds kept' work s post') :
    Upholds (fun g => kept g ∧ kept' g) work s fun a g =>
      post a g ∧ post' a g := by
  intro log
  have hOne := hFirst log
  have hOther := hSecond log
  generalize work ⟨s, log⟩ = r at hOne hOther ⊢
  rcases r with ⟨(e | f) | a, t⟩
  · exact ⟨hOne, hOther⟩
  · trivial
  · exact ⟨hOne, hOther⟩

end ObserverM

------------------------------------------------------------
-- What Becomes of Pages
------------------------------------------------------------

namespace PageCache

open ObserverM MemorySource

variable {σ : Type} [MemorySource σ]
variable {c d g : PageCache σ}
variable {a count here index : Nat}

theorem stale_congr
    (hStays : Stays c.source d.source)
    (hSame : d.epochOf index = c.epochOf index) :
    d.Stale index ↔ c.Stale index := by
  unfold Stale
  rw [hSame, hStays.same]

/- A cache that goes on, and none but some pages have changed. -/
structure Proceeds
    (c d : PageCache σ)
    (changed : Nat → Prop) : Prop where
  pageSize : d.pageSize = c.pageSize
  stays : Stays c.source d.source
  spared : ∀ index, ¬ changed index → d.look index = c.look index

/-
  A page that was read once more.  It is of the epoch of the
  source, and has the bytes that the source answered.
-/
structure Renewed
    (c d : PageCache σ)
    (index : Nat) : Prop where
  count : d.refreshesOf index = c.refreshesOf index + 1
  epoch : d.epochOf index = some (MemorySource.epoch d.source)
  answered :
    ∃ (s t : Logged σ) (bs : List UInt8),
      MemorySource.read (index * c.pageSize) c.pageSize s =
          (.ok bs, t) ∧
        Stays c.source s.state ∧ d.bytesOf index = some bs

/-
  A page that could not be read.  It is as it was, and if the
  cache did not have it yet, it is still to be read.
-/
structure Refused
    (c d : PageCache σ)
    (index : Nat) : Prop where
  left :
    d.look index = c.look index ∨
      c.look index = none ∧
        ∃ p bs, d.look index = some (p, bs) ∧ p.epoch = none ∧
          p.refreshes = 0
  failed :
    ∃ (s t : Logged σ) (e : ObserverError),
      MemorySource.read (index * c.pageSize) c.pageSize s =
          (.error (.error e), t) ∧
        Stays c.source s.state ∧ t.state = d.source

/- Pages were reached, and the stale ones among them were read. -/
structure Fetched
    (c d : PageCache σ)
    (reached : Nat → Prop) : Prop extends
    Proceeds c d fun index => reached index ∧ c.Stale index where
  renewed :
    ∀ index, reached index → c.Stale index → Renewed c d index

/-
  Pages were reached, and then a stale one that could not be
  read.
-/
structure BrokenOff
    (c d : PageCache σ)
    (reached : Nat → Prop)
    (last : Nat) : Prop extends
    Proceeds c d fun index =>
      index = last ∨ reached index ∧ c.Stale index where
  renewed :
    ∀ index, reached index → c.Stale index → Renewed c d index
  stale : c.Stale last
  unreached : ¬ reached last
  refused : Refused c d last

variable {first second : Nat → Prop}
variable {last : Nat}

/- A page that was read is not stale. -/
theorem Renewed.not_stale
    (hRenewed : Renewed c d index) :
    ¬ d.Stale index :=
  fun hStale => Nat.lt_irrefl _ (hStale _ hRenewed.epoch)

/- A page that was read stays read while it looks the same. -/
theorem Renewed.spared
    (hRenewed : Renewed c d index)
    (hStays : Stays d.source g.source)
    (hSame : g.look index = d.look index) :
    Renewed c g index := by
  rcases hRenewed.answered with ⟨s, t, bs, hRead, hOn, hBytes⟩
  refine
    ⟨(refreshesOf_congr hSame).trans hRenewed.count, ?_,
      s, t, bs, hRead, hOn, (bytesOf_congr hSame).trans hBytes⟩
  rw [epochOf_congr hSame, hStays.same]
  exact hRenewed.epoch

/- A page that is read later looked the same until then. -/
theorem Renewed.after
    (hStays : Stays c.source d.source)
    (hSize : d.pageSize = c.pageSize)
    (hSame : d.look index = c.look index)
    (hRenewed : Renewed d g index) :
    Renewed c g index := by
  rcases hRenewed.answered with ⟨s, t, bs, hRead, hOn, hBytes⟩
  rw [hSize] at hRead
  refine
    ⟨?_, hRenewed.epoch, s, t, bs, hRead, hStays.trans hOn,
      hBytes⟩
  rw [hRenewed.count, refreshesOf_congr hSame]

/-
  A page that is refused later on was to be refused before, if
  it looked the same.
-/
theorem Refused.after
    (hStays : Stays c.source d.source)
    (hSize : d.pageSize = c.pageSize)
    (hSame : d.look index = c.look index)
    (hRefused : Refused d g index) :
    Refused c g index := by
  rcases hRefused.failed with ⟨s, t, e, hRead, hOn, hState⟩
  rw [hSize] at hRead
  refine ⟨?_, s, t, e, hRead, hStays.trans hOn, hState⟩
  rw [← hSame]
  exact hRefused.left

namespace Fetched

theorem refl : Fetched c c fun _ => False :=
  ⟨⟨rfl, Stays.refl, fun _ _ => rfl⟩, nofun⟩

theorem congr
    (hFetched : Fetched c d first)
    (hSame : ∀ index, second index ↔ first index) :
    Fetched c d second := by
  rwa [show second = first from funext fun i => propext (hSame i)]

/- A page that was not reached looks the same, and is as stale. -/
theorem unreached
    (hFetched : Fetched c d first)
    (hOutside : ¬ first index) :
    d.look index = c.look index ∧
      (d.Stale index ↔ c.Stale index) := by
  have hSame := hFetched.spared index fun hIn => hOutside hIn.1
  exact ⟨hSame, stale_congr hFetched.stays (epochOf_congr hSame)⟩

/- A page that is stale still was not reached. -/
theorem not_reached
    (hFetched : Fetched c d first)
    (hStale : d.Stale index) :
    ¬ first index ∧ c.Stale index := by
  by_cases hReached : first index
  · by_cases hBefore : c.Stale index
    · exact
        absurd hStale
          (hFetched.renewed index hReached hBefore).not_stale
    · have hSame :=
        hFetched.spared index fun hIn => hBefore hIn.2
      exact
        absurd
          ((stale_congr hFetched.stays
            (epochOf_congr hSame)).mp hStale)
          hBefore
  · exact ⟨hReached, (hFetched.unreached hReached).2.mp hStale⟩

/- What looks the same all the way is what was not read. -/
theorem spared_trans
    (hFirst : Fetched c d first)
    (hSecond :
      ¬ (second index ∧ d.Stale index) →
        g.look index = d.look index)
    (hOutside :
      ¬ ((first index ∨ second index) ∧ c.Stale index)) :
    g.look index = c.look index := by
  refine (hSecond fun hIn => ?_).trans
    (hFirst.spared index fun hIn => hOutside ⟨.inl hIn.1, hIn.2⟩)
  exact hOutside ⟨.inr hIn.1, (hFirst.not_reached hIn.2).2⟩

/- What was read is what was stale, of the first or the second. -/
theorem renewed_trans
    (hFirst : Fetched c d first)
    (hStays : Stays d.source g.source)
    (hSpared :
      ¬ d.Stale index → g.look index = d.look index)
    (hSecond : second index → d.Stale index → Renewed d g index)
    (hReached : first index ∨ second index)
    (hStale : c.Stale index) :
    Renewed c g index := by
  by_cases hBefore : first index
  · have hRenewed := hFirst.renewed index hBefore hStale
    exact hRenewed.spared hStays (hSpared hRenewed.not_stale)
  · rcases hFirst.unreached hBefore with ⟨hSame, hStill⟩
    exact
      (hSecond (hReached.resolve_left hBefore)
        (hStill.mpr hStale)).after hFirst.stays hFirst.pageSize
        hSame

theorem trans
    (hFirst : Fetched c d first)
    (hSecond : Fetched d g second) :
    Fetched c g fun index => first index ∨ second index := by
  refine
    ⟨⟨hSecond.pageSize.trans hFirst.pageSize,
      hFirst.stays.trans hSecond.stays, fun index => ?_⟩,
      fun index => ?_⟩
  · exact hFirst.spared_trans (hSecond.spared index)
  · refine
      hFirst.renewed_trans hSecond.stays (fun hFresh => ?_)
        (hSecond.renewed index)
    exact hSecond.spared index fun hIn => hFresh hIn.2

/-
  After the first part of a range was fetched, its second part
  may be broken off.
-/
theorem brokenOff
    (hFirst : Fetched c d first)
    (hSecond : BrokenOff d g second last) :
    BrokenOff c g (fun index => first index ∨ second index)
      last := by
  have hLast := hFirst.not_reached hSecond.stale
  refine
    ⟨⟨hSecond.pageSize.trans hFirst.pageSize,
      hFirst.stays.trans hSecond.stays, fun index hOutside => ?_⟩,
      fun index => ?_, hLast.2, ?_, ?_⟩
  · refine
      hFirst.spared_trans (fun hIn => ?_) fun hIn =>
        hOutside (.inr hIn)
    refine hSecond.spared index fun hChanged => ?_
    exact hChanged.elim (fun hEq => hOutside (.inl hEq)) hIn
  · refine
      hFirst.renewed_trans hSecond.stays (fun hFresh => ?_)
        (hSecond.renewed index)
    refine hSecond.spared index ?_
    rintro (rfl | hIn)
    · exact hFresh hSecond.stale
    · exact hFresh hIn.2
  · exact fun hIn => hIn.elim hLast.1 hSecond.unreached
  · exact
      hSecond.refused.after hFirst.stays hFirst.pageSize
        (hFirst.unreached hLast.1).1

end Fetched

theorem BrokenOff.congr
    (hBroken : BrokenOff c d first last)
    (hSame : ∀ index, second index ↔ first index) :
    BrokenOff c d second last := by
  rwa [show second = first from funext fun i => propext (hSame i)]

------------------------------------------------------------
-- Reading a Page
------------------------------------------------------------

variable {p q : Page}

/- A lawful source gives a whole page, and stays in its epoch. -/
theorem Asked.answered
    {source : σ}
    {bs : List UInt8}
    (hLawful : Lawful σ)
    (hAsked : Asked c p (.ok bs) source) :
    Stays c.source source ∧ bs.length = p.buffer.length := by
  rcases hAsked with ⟨log, t, hRun, rfl⟩
  exact
    (hLawful.reads p.address p.size c.source).upholds.of_ok
      (r := ⟨c.source, log⟩) hRun

/- A source that refuses a read stays where it is. -/
theorem Asked.refused
    {source : σ}
    {e : ObserverError}
    (hLawful : Lawful σ)
    (hAsked : Asked c p (.error (.error e)) source) :
    Stays c.source source := by
  rcases hAsked with ⟨log, t, hRun, rfl⟩
  have hOutcome :=
    (hLawful.reads p.address p.size c.source).upholds log
  rw [hRun] at hOutcome
  exact hOutcome

/- What was found is left as it was by a source that refuses. -/
theorem Found.brokenOff
    (hLawful : Lawful σ)
    (hShelved : Shelved d)
    (hFound : Found c d index p)
    (hStale : d.Stale index)
    (hUnanswered : Unanswered d g p) :
    BrokenOff c g (fun _ => False) index := by
  rcases hUnanswered with ⟨e, source, hAsked, rfl⟩
  have hStays := hAsked.refused hLawful
  rcases hAsked with ⟨log, t, hRun, hState⟩
  have hKeeps := hShelved.shelf.keeps index p hFound.page
  have hBegun : Stays c.source d.source := by
    rw [hFound.source]
    exact Stays.refl
  have hSize : p.size = c.pageSize :=
    hKeeps.length.trans hFound.pageSize
  rw [hKeeps.placed, hSize, hFound.pageSize] at hRun
  refine
    ⟨⟨hFound.pageSize, hBegun.trans hStays,
      fun k hOutside => ?_⟩, nofun, ?_, nofun, ?_, ?_⟩
  · exact hFound.spared k fun hEq => hOutside (.inl hEq)
  · exact (stale_congr hBegun hFound.epochOf_eq.1).mp hStale
  · refine hFound.left.imp (fun hSame => hSame) ?_
    rintro ⟨hNone, -, hEpoch, hRefreshes⟩
    exact
      ⟨hNone, p, _, look_of_some hFound.page, hEpoch, hRefreshes⟩
  · exact ⟨_, t, e, hRun, hBegun, hState⟩

/- A page that is not stale is used as it is. -/
theorem Found.used
    (hShelved : Shelved d)
    (hFound : Found c d index p)
    (hFresh : ¬ d.Stale index) :
    Fetched c (d.put p) (· = index) := by
  have hIndex :=
    (hShelved.shelf.keeps index p hFound.page).indexed
  subst hIndex
  have hBegun : Stays c.source d.source := by
    rw [hFound.source]
    exact Stays.refl
  have hNotStale : ¬ c.Stale p.index := fun hStale =>
    hFresh ((stale_congr hBegun hFound.epochOf_eq.1).mpr hStale)
  refine
    ⟨⟨hFound.pageSize, hBegun, fun k _ => ?_⟩, ?_⟩
  · by_cases hEq : k = p.index
    · subst hEq
      have hPut : (d.put p).look p.index = d.look p.index :=
        (look_of_some (page_put d p)).trans
          (look_of_some hFound.page).symm
      refine hPut.trans (hFound.left.resolve_right fun hNew => ?_)
      refine hNotStale (stale_of_none ?_)
      unfold epochOf
      rw [hNew.1]
      rfl
    · exact (look_put_of_ne d p hEq).trans (hFound.spared k hEq)
  · rintro k rfl hStale
    exact absurd hStale hNotStale

/- A stale page is renewed when it is read. -/
theorem Found.renewed
    {bs : List UInt8}
    (hLawful : Lawful σ)
    (hShelved : Shelved d)
    (hFound : Found c d index p)
    (hStale : d.Stale index)
    (hRefreshed : Refreshed d g p q bs) :
    Fetched c (g.put q) (· = index) := by
  have hShelf := hShelved.shelf
  have hKeeps := hShelf.keeps index p hFound.page
  have hBegun : Stays c.source d.source := by
    rw [hFound.source]
    exact Stays.refl
  have hSize : p.size = c.pageSize :=
    hKeeps.length.trans hFound.pageSize
  rcases hRefreshed.asked.answered hLawful with
    ⟨hStays, hLength⟩
  rcases hRefreshed.asked with ⟨log, t, hRun, -⟩
  rw [hKeeps.placed, hSize, hFound.pageSize] at hRun
  have hIndex : q.index = index :=
    hRefreshed.index.trans hKeeps.indexed
  have hLook :
      (g.put q).look index = some (q, g.pool.bytes q.buffer) := by
    rw [← hIndex]
    exact look_of_some (page_put g q)
  refine
    ⟨⟨hRefreshed.pageSize.trans hFound.pageSize,
      hBegun.trans hStays, fun k hOutside => ?_⟩, ?_⟩
  · have hNe : k ≠ index := by
      rintro rfl
      refine hOutside ⟨rfl, ?_⟩
      exact (stale_congr hBegun hFound.epochOf_eq.1).mp hStale
    refine (look_put_of_ne g q (hIndex ▸ hNe)).trans ?_
    refine (look_congr ?_ fun r hOther => ?_).trans
      (hFound.spared k hNe)
    · rw [hRefreshed.pages]
    · exact
        hRefreshed.others hLength r.buffer
          (hShelf.apart index k p r hFound.page hOther hNe.symm)
  · rintro k rfl -
    refine ⟨?_, ?_, _, t, _, hRun, hBegun, ?_⟩
    · have hCount : d.refreshesOf k = p.refreshes := by
        unfold refreshesOf
        rw [look_of_some hFound.page]
        rfl
      rw [← hFound.epochOf_eq.2, hCount, ← hRefreshed.refreshes]
      unfold refreshesOf
      rw [hLook]
      rfl
    · unfold epochOf
      rw [hLook]
      change q.epoch = some (MemorySource.epoch g.source)
      rw [hRefreshed.epoch, hStays.same]
    · unfold bytesOf
      rw [hLook, ← hRefreshed.filled hLength]
      rfl

/- A page is reached, and read if it is stale. -/
theorem upholds_fetchAt
    {offset count : Nat}
    (hLawful : Lawful σ)
    (hShelved : Shelved c) :
    Upholds
      (fun d =>
        Shelved d ∧ BrokenOff c d (fun _ => False) index)
      (fetchAt index offset count) c fun _ d =>
        Shelved d ∧ Fetched c d (· = index) := by
  have hStocks := hShelved.stocks hLawful True
  have hServed :
      (hLawful.supply c.source hShelved.power True).served
        index :=
    .inl trivial
  have hStocked :
      Upholds _ (fetchAt index offset count) c _ :=
    (meets_fetchAt hStocks hServed (.inl trivial)).upholds
  have hFetched :
      Upholds (fun d => BrokenOff c d (fun _ => False) index)
        (fetchAt index offset count) c fun _ d =>
          Fetched c d (· = index) := by
    have hPage :=
      (meets_pageAt hStocks hServed).upholds.and
        (upholds_pageAt (fun _ => False) index)
    refine upholds_bind
      (hPage.imp (fun _ hKept => hKept.2.elim)
        fun _ _ hPost => hPost) ?_
    rintro p d ⟨⟨hOn, -⟩, hFound⟩
    have hPlaced := shelved_of_stocks hOn
    refine upholds_bind
      ((upholds_fetch hFound.page).imp ?_
        fun _ _ hPost => hPost) ?_
    · rintro g ⟨hStale, hUnanswered⟩
      exact hFound.brokenOff hLawful hPlaced hStale hUnanswered
    · rintro ⟨q, bs⟩ g hCase
      apply upholds_write
      refine upholds_pure ?_
      rcases hCase with
        ⟨hStale, bs, hRefreshed⟩ | ⟨hFresh, rfl, rfl⟩
      · exact hFound.renewed hLawful hPlaced hStale hRefreshed
      · exact hFound.used hPlaced hFresh
  refine (hStocked.and hFetched).imp ?_ ?_
  · exact fun d hKept => ⟨shelved_of_stocks hKept.1.2, hKept.2⟩
  · exact fun _ d hPost =>
      ⟨shelved_of_stocks hPost.1.1, hPost.2⟩

------------------------------------------------------------
-- Reading a Range
------------------------------------------------------------

/-
  A read of a range that broke off at one of its pages.  Those
  before it were reached, and none behind it was.
-/
def CutShort
    (c d : PageCache σ)
    (a count : Nat) : Prop :=
  ∃ last, Spans c.pageSize a count last ∧
    BrokenOff c d
      (fun index => Spans c.pageSize a count index ∧ index < last)
      last

/- The first page of a range may be the one that is refused. -/
theorem BrokenOff.cutShort
    (hBroken :
      BrokenOff c d (fun _ => False) (a / c.pageSize))
    (hSome : 0 < count) :
    CutShort c d a count := by
  refine ⟨a / c.pageSize, ⟨a, Nat.le_refl _, by omega, rfl⟩, ?_⟩
  refine hBroken.congr fun k => ?_
  refine ⟨fun hIn => ?_, False.elim⟩
  exact Nat.not_lt_of_le hIn.1.first_le hIn.2

/-
  After the first page was fetched, a later one may cut a read
  short.
-/
theorem Fetched.cutShort
    (hFirst : Fetched c d (· = a / c.pageSize))
    (hSize : 0 < c.pageSize)
    (hHere : here = min (c.pageSize - a % c.pageSize) count)
    (hSome : 0 < here)
    (hRest : CutShort d g (a + here) (count - here)) :
    CutShort c g a count := by
  rcases hRest with ⟨last, hLast, hBroken⟩
  rw [hFirst.pageSize] at hLast hBroken
  have hStep := fun k =>
    spans_step k hSize hHere hSome
  refine ⟨last, (hStep last).1.mpr (.inr hLast), ?_⟩
  refine (hFirst.brokenOff hBroken).congr fun k => ?_
  have hBehind := (hStep last).2 hLast
  rw [(hStep k).1]
  constructor
  · rintro ⟨hFirst | hLater, hLt⟩
    · exact .inl hFirst
    · exact .inr ⟨hLater, hLt⟩
  · rintro (rfl | ⟨hLater, hLt⟩)
    · exact ⟨.inl rfl, hBehind⟩
    · exact ⟨.inr hLater, hLt⟩

/- The pages of a range are reached, unless one is refused. -/
theorem upholds_readFrom
    (hLawful : Lawful σ)
    (count a : Nat)
    (hShelved : Shelved c) :
    Upholds (fun d => Shelved d ∧ CutShort c d a count)
      (readFrom c.pageSize count a) c fun _ d =>
        Shelved d ∧ Fetched c d (Spans c.pageSize a count) := by
  induction count using Nat.strongRecOn generalizing a c with
  | ind count ih =>
      have hSize : 0 < c.pageSize := by
        rw [hShelved.pageSize]
        exact Word.pos_of_isPowerOfTwo hShelved.power
      have hOffset := Nat.mod_lt a hSize
      generalize hHere :
        min (c.pageSize - a % c.pageSize) count = here
      rw [readFrom]
      rw [hHere]
      split
      · rename_i hNone
        have hCount : count = 0 := by omega
        subst hCount
        refine upholds_pure ⟨hShelved, Fetched.refl.congr ?_⟩
        exact fun k => ⟨not_spans_zero, False.elim⟩
      · rename_i hNone
        have hSome : 0 < here := Nat.pos_of_ne_zero hNone
        refine upholds_bind
          ((upholds_fetchAt hLawful hShelved).imp
            (fun d hKept =>
              ⟨hKept.1, hKept.2.cutShort (by omega)⟩)
            fun _ _ hPost => hPost) ?_
        rintro bs d ⟨hOn, hFirst⟩
        apply upholds_computed
        intro next hNext
        cases (Word.eq_of_add hNext).1
        have hRest := ih (count - here) (by omega) (a + here) hOn
        rw [hFirst.pageSize] at hRest
        refine upholds_bind
          (hRest.imp
            (fun g hKept =>
              ⟨hKept.1,
                hFirst.cutShort hSize hHere.symm hSome
                  hKept.2⟩)
            fun _ _ hPost => hPost) ?_
        rintro cs g ⟨hLater, hSecond⟩
        refine upholds_pure
          ⟨hLater, (hFirst.trans hSecond).congr fun k => ?_⟩
        exact (spans_step k hSize hHere.symm hSome).1

/-
  A read that failed: the range has no last address below the
  limit, and nothing happened, or the read was cut short.
-/
def Failed
    (c d : PageCache σ)
    (a count : Nat) : Prop :=
  Word.limit ≤ a + count ∧ d = c ∨ CutShort c d a count

theorem upholds_fetches
    (hLawful : Lawful σ)
    (a count : Nat)
    (hShelved : Shelved c) :
    Upholds (fun d => Shelved d ∧ Failed c d a count)
      (readInto a count) c fun _ d =>
        Shelved d ∧ Fetched c d (Spans c.pageSize a count) := by
  unfold readInto
  split
  · rename_i hFar
    exact upholds_fail ⟨hShelved, .inl ⟨hFar, rfl⟩⟩
  · apply upholds_read
    exact
      (upholds_readFrom hLawful count a hShelved).imp
        (fun _ hKept => ⟨hKept.1, .inr hKept.2⟩)
        fun _ _ hPost => hPost

theorem upholds_reading
    {request : Request}
    (hLawful : Lawful σ)
    (hShelved : Shelved c)
    (hRange :
      request.range? (MemorySource.wordSize c.source) =
        some (a, count)) :
    Upholds (fun d => Shelved d ∧ Failed c d a count)
      request.performOn c fun _ d =>
        Shelved d ∧ Fetched c d (Spans c.pageSize a count) :=
  upholds_request hRange (upholds_fetches hLawful a count hShelved)

end PageCache

end BeltHeap
