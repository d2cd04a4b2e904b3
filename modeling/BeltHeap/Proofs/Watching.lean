import BeltHeap.Proofs.Rereading
import Mathlib.Data.List.Basic

/-
  Sessions of an observer with a live process.  Whatever was
  read, written, invalidated, suspended, resumed or refused
  before, every read that returns gives the bytes that the target
  held when it was last stopped.

  Main declarations:
    * `Request`
    * `Session.Reached`
    * `Session.Reached.coherent`
    * `Session.reads_show_what_was_held`
    * `Session.reached_changed`
-/

------------------------------------------------------------
-- Sessions
------------------------------------------------------------

namespace BeltHeap

/- What an observer may ask of a cache over a live process. -/
inductive Request where
| read (a count : Nat) : Request
| readInto (a count : Nat) : Request
| readNumber (width a : Nat) : Request
| readWord (a : Nat) : Request
| write (a : Nat) (bs : List UInt8) : Request
| invalidate (index : Nat) : Request
| invalidateRange (a count : Nat) : Request
| invalidateAll : Request
| suspend : Request
| resume : Request
| kill : Request
deriving DecidableEq, Repr

/- Do what is asked, and leave out what it answers. -/
def Request.perform
    {σ : Type}
    [ProcessChannel σ] :
    Request → ObserverM (PageCache (LiveProcess σ)) Unit
| .read a count => do
    let _ ← PageCache.read a count
    pure ()
| .readInto a count => do
    let _ ← PageCache.readInto a count
    pure ()
| .readNumber width a => do
    let _ ← PageCache.readNumber width a
    pure ()
| .readWord a => do
    let _ ← PageCache.readWord a
    pure ()
| .write a bs => PageCache.write a bs
| .invalidate index => PageCache.invalidate index
| .invalidateRange a count => PageCache.invalidateRange a count
| .invalidateAll => PageCache.invalidateAll
| .suspend => PageCache.onSource MemorySource.suspend
| .resume => PageCache.onSource MemorySource.resume
| .kill => PageCache.onSource MemorySource.kill

/-
  A cache in use, with what the target held when it was last
  stopped.
-/
structure Session (σ : Type) where
  run : Logged (PageCache (LiveProcess σ))
  held : Nat → Option UInt8

namespace Session

/- The channel to the target. -/
def channel
    {σ : Type}
    (s : Session σ) : σ :=
  s.run.state.source.channel

/- The same session with the channel in another state. -/
def withChannel
    {σ : Type}
    (s : Session σ)
    (channel : σ) : Logged (PageCache (LiveProcess σ)) :=
  { s.run with
    state :=
      { s.run.state with
        source := { s.run.state.source with channel } } }

/-
  The sessions with a target: they start from a new cache over a
  process that was attached to in the state it is in.  They go on
  with requests that may fail but are not at fault, and in
  between time passes for the target.
-/
inductive Reached
    {σ : Type}
    [ProcessChannel σ]
    (target : Target σ) : Session σ → Prop where
| start
    {channel : σ}
    {state : ProcessState}
    {pool : BufferPool}
    {cache : PageCache (LiveProcess σ)}
    {log : Log}
    (hAttached :
      state = .stopped ↔ target.stopped channel = true)
    (hMake :
      PageCache.make (LiveProcess.attach channel state) pool =
        .ok cache) :
    Reached target
      ⟨⟨cache, log⟩, target.heldAfter (fun _ => none) channel⟩
| request
    {s : Session σ}
    {request : Request}
    {result : Except Interruption Unit}
    {t : Logged (PageCache (LiveProcess σ))}
    (hReached : Reached target s)
    (hRun : request.perform s.run = (result, t))
    (hSafe : ∀ f, result ≠ .error (.fault f)) :
    Reached target
      ⟨t, target.heldAfter s.held t.state.source.channel⟩
| elapse
    {s : Session σ}
    {channel : σ}
    (hReached : Reached target s)
    (hGoesOn : target.GoesOn s.channel channel) :
    Reached target
      ⟨s.withChannel channel, target.heldAfter s.held channel⟩

------------------------------------------------------------
-- Coherence of Sessions
------------------------------------------------------------

open ObserverM PageCache

variable {σ : Type} [ProcessChannel σ]
variable {target : Target σ}
variable {held : Nat → Option UInt8}
variable {c : PageCache (LiveProcess σ)}
variable {s : Session σ}

/- Work whose answer is left out keeps up what it kept up. -/
theorem upholds_silent
    {α : Type}
    {work : ObserverM (PageCache (LiveProcess σ)) α}
    {post : α → PageCache (LiveProcess σ) → Prop}
    (hWork : Upholds (Continues target.toView held c) work c post)
    (hPost : ∀ a d, post a d → Continues target.toView held c d) :
    Upholds (Afterwards target.toView held)
      (do
        let _ ← work
        pure ())
      c fun _ => Afterwards target.toView held := by
  refine upholds_leftOut (hWork.imp ?_ ?_)
  · exact fun _ hOn => hOn.coherent.afterwards
  · exact fun a d hMade => (hPost a d hMade).coherent.afterwards

/- A new cache is coherent with what is held at first. -/
theorem coherent_start
    {channel : σ}
    {state : ProcessState}
    {pool : BufferPool}
    (hAttached :
      state = .stopped ↔ target.stopped channel = true)
    (hMake :
      PageCache.make (LiveProcess.attach channel state) pool =
        .ok c) :
    Coherent target.toView
      (target.heldAfter (fun _ => none) channel) c := by
  unfold PageCache.make at hMake
  dsimp only at hMake
  split at hMake
  · rename_i hPower
    cases hMake
    exact
      ⟨rfl, Word.pos_of_isPowerOfTwo hPower, hAttached,
        fun hStopped => if_pos hStopped, Shelf.empty⟩
  · cases hMake

/- Every request leaves a coherent cache coherent. -/
theorem upholds_perform
    (request : Request)
    (hCoherent : Coherent target.toView held c) :
    Upholds (Afterwards target.toView held) request.perform c
      fun _ => Afterwards target.toView held := by
  -- Pages that are to be read again may be any pages.
  have hInvalid :
      ∀ condition,
        Upholds (Afterwards target.toView held)
          (invalidateWhere condition) c
          fun _ => Afterwards target.toView held := by
    intro condition
    exact
      (upholds_invalidateWhere hCoherent condition).imp
        (fun _ hKept => hKept) fun _ _ h => h.1.afterwards
  cases request with
  | read a count =>
      exact upholds_silent (reads a count hCoherent)
        fun _ _ h => h.1
  | readInto a count =>
      exact upholds_silent (upholds_readInto a count hCoherent)
        fun _ _ h => h.1
  | readNumber width a =>
      exact upholds_silent (upholds_readNumber width a hCoherent)
        fun _ _ h => h.1
  | readWord a =>
      exact upholds_silent (upholds_readWord a hCoherent)
        fun _ _ h => h.1
  | write a bs => exact writes a bs hCoherent
  | invalidate index => exact hInvalid _
  | invalidateRange a count =>
      exact
        (upholds_invalidateRange (hCoherent.written a count)).imp
          (fun _ hKept => hKept) fun _ _ h => h.1.afterwards
  | invalidateAll => exact hInvalid _
  | suspend => exact suspends hCoherent
  | resume => exact resumes hCoherent
  | kill => exact kills hCoherent

/- The caches of all sessions are coherent. -/
theorem Reached.coherent
    (hReached : Reached target s) :
    Coherent target.toView s.held s.run.state := by
  induction hReached with
  | start hAttached hMake => exact coherent_start hAttached hMake
  | @request s request _ _ _ hRun hSafe ih =>
      exact (upholds_perform request ih).of_run hRun hSafe
  | elapse _ hGoesOn ih =>
      have hOn :=
        ih.goesOn (LiveProcess.goesOn_of_channel hGoesOn)
      exact hOn.coherent.afterwards

/-
  Every read that returns gives the bytes that the target held
  when it was last stopped, and every number is decoded from such
  bytes in the byte order of the source.
-/
theorem reads_show_what_was_held
    (hReached : Reached target s) :
    (∀ a count bs t,
      PageCache.read a count s.run = (.ok bs, t) →
        bs.length = count ∧ Shows s.held a bs) ∧
    (∀ a count bs t,
      PageCache.readInto a count s.run = (.ok bs, t) →
        bs.length = count ∧ Shows s.held a bs) ∧
    (∀ width a value t,
      PageCache.readNumber width a s.run = (.ok value, t) →
        ∃ bs, bs.length = width ∧ Shows s.held a bs ∧
          value = s.run.state.source.byteOrder.decode bs) ∧
    ∀ a value t,
      PageCache.readWord a s.run = (.ok value, t) →
        ∃ bs,
          bs.length =
              (if s.run.state.source.wordSize = 4 then 4
                else 8) ∧
            Shows s.held a bs ∧
            value = s.run.state.source.byteOrder.decode bs := by
  have hCoherent := hReached.coherent
  refine ⟨?_, ?_, ?_, ?_⟩
  · intro a count bs t hRun
    exact ((reads a count hCoherent).of_ok hRun).2
  · intro a count bs t hRun
    exact ((upholds_readInto a count hCoherent).of_ok hRun).2
  · intro width a value t hRun
    exact ((upholds_readNumber width a hCoherent).of_ok hRun).2
  · intro a value t hRun
    exact ((upholds_readWord a hCoherent).of_ok hRun).2

------------------------------------------------------------
-- A Page That Is Read Again
------------------------------------------------------------

/- A page of a cache is found there. -/
theorem pageAt_of_some
    {τ : Type}
    {r : Logged (PageCache τ)}
    {index : Nat}
    {p : Page}
    (hCertain : r.state.inDoubt = false)
    (hPage : r.state.pages[index]? = some p) :
    pageAt index r = (.ok p, r) := by
  unfold pageAt
  rw [Activity.run_bind, run_checkCertain, hCertain]
  dsimp only
  rw [Activity.run_bind]
  simp only [Activity.reading, hPage]
  rfl

/- A page that is not cached is added. -/
theorem pageAt_of_none
    {τ : Type}
    {r : Logged (PageCache τ)}
    {index : Nat}
    (hCertain : r.state.inDoubt = false)
    (hPage : r.state.pages[index]? = none) :
    pageAt index r = addPage index r := by
  unfold pageAt
  rw [Activity.run_bind, run_checkCertain, hCertain]
  dsimp only
  rw [Activity.run_bind]
  simp only [Activity.reading, hPage]
  rfl

/- A range within the first page takes no more than that page. -/
theorem read_of_fetchAt
    {τ : Type}
    [MemorySource τ]
    {r t : Logged (PageCache τ)}
    {bs : List UInt8}
    (hSize : r.state.pageSize = 4)
    (hFetch : fetchAt 0 1 2 r = (.ok bs, t)) :
    PageCache.read 1 2 r = (.ok bs, t) := by
  have hEmpty :
      readFrom 4 0 3 =
        (pure [] : ObserverM (PageCache τ) (List UInt8)) := by
    rw [readFrom]
    rfl
  have hFrom : readFrom 4 2 1 r = (.ok bs, t) := by
    rw [readFrom, dif_neg (by decide)]
    change (fetchAt 0 1 2 >>= _) r = _
    rw [Activity.run_bind, hFetch]
    change
      (readFrom 4 0 3 >>= fun rest => pure (bs ++ rest)) t = _
    rw [hEmpty]
    change (Except.ok (bs ++ []), t) = _
    rw [List.append_nil]
  rw [← hSize] at hFrom
  exact hFrom

/- A small target that is stopped, and a new cache over it. -/
def fresh : PageCache (LiveProcess Debuggee) where
  source := LiveProcess.attach ⟨[10, 20, 30, 40], true⟩ .stopped
  pool := { size := 0, disabled := true }
  pageSize := 4

/- The page of the small target before it is read. -/
def unread : Page where
  index := 0
  address := 0
  buffer := .owned 4 {}
  epoch := none
  refreshes := 0

/- The page after it was read for the first time. -/
def readOnce : Page :=
  { unread with
    buffer := .owned 4 (({} : Memory).write 0 [10, 20, 30, 40])
    epoch := some 0
    refreshes := 1 }

/- The cache after that, over a process in any state. -/
def warm
    (source : LiveProcess Debuggee) :
    Logged (PageCache (LiveProcess Debuggee)) where
  state :=
    { fresh with
      source
      pages := (fresh.pages.insert 0 unread).insert 0 readOnce }

/- The process after it was resumed. -/
def resumed : LiveProcess Debuggee :=
  { fresh.source with
    channel := ⟨[10, 20, 30, 40], false⟩
    state := .running }

/- The process after it changed its memory. -/
def altered : LiveProcess Debuggee :=
  { resumed with channel := ⟨[11, 21, 31, 41], false⟩ }

/- The process after it was stopped again. -/
def changed : LiveProcess Debuggee :=
  { altered with
    channel := ⟨[11, 21, 31, 41], true⟩
    state := .stopped
    epoch := 1 }

/- Reading a part of a new page reads all of it. -/
theorem perform_fresh :
    (Request.read 1 2).perform ⟨fresh, {}⟩ =
      (.ok (), warm fresh.source) := by
  have hNone : fresh.pages[0]? = none :=
    Std.HashMap.getElem?_empty
  have hFetch :
      fetchAt 0 1 2 ⟨fresh, {}⟩ =
        (.ok (fresh.pool.slice readOnce.buffer 1 2),
          warm fresh.source) := by
    unfold fetchAt
    rw [Activity.run_bind, pageAt_of_none rfl hNone]
    rfl
  change (PageCache.read 1 2 >>= fun _ => pure ()) _ = _
  rw [Activity.run_bind, read_of_fetchAt rfl hFetch]
  rfl

/- The bytes are read again once the target stopped again. -/
theorem read_changed :
    ∃ bs t, PageCache.read 1 2 (warm changed) = (.ok bs, t) := by
  have hSome : (warm changed).state.pages[0]? = some readOnce :=
    Std.HashMap.getElem?_insert_self
  have hFetch :
      ∃ bs t, fetchAt 0 1 2 (warm changed) = (.ok bs, t) := by
    unfold fetchAt
    rw [Activity.run_bind, pageAt_of_some rfl hSome]
    exact ⟨_, _, rfl⟩
  rcases hFetch with ⟨bs, t, hFetch⟩
  exact ⟨bs, t, read_of_fetchAt rfl hFetch⟩

/-
  A session comes to the changed target when it runs in between.
-/
theorem reached_changed :
    Reached Debuggee.target
      ⟨warm changed, Debuggee.view.memory changed.channel⟩ := by
  have hAttached :
      ProcessState.stopped = .stopped ↔
        Debuggee.target.stopped fresh.source.channel = true :=
    ⟨fun _ => rfl, fun _ => rfl⟩
  have hMake :
      PageCache.make
          (LiveProcess.attach fresh.source.channel .stopped)
          fresh.pool =
        .ok fresh :=
    rfl
  have hResume :
      Request.resume.perform (warm fresh.source) =
        (.ok (), warm resumed) :=
    rfl
  have hSuspend :
      Request.suspend.perform (warm altered) =
        (.ok (), warm changed) :=
    rfl
  have hRan :
      Debuggee.target.GoesOn resumed.channel altered.channel :=
    ⟨rfl, nofun⟩
  have hFresh :
      Reached Debuggee.target
        ⟨⟨fresh, {}⟩,
          Debuggee.view.memory fresh.source.channel⟩ :=
    .start hAttached hMake
  have hWarm := hFresh.request perform_fresh nofun
  have hResumed := hWarm.request hResume nofun
  have hElapsed := hResumed.elapse hRan
  exact hElapsed.request hSuspend nofun

/- What is read is what the target changed in between. -/
theorem reads_show_what_was_held_since :
    ∃ t,
      PageCache.read 1 2 (warm changed) = (.ok [21, 31], t) := by
  rcases read_changed with ⟨bs, t, hRun⟩
  have hReads := (reads_show_what_was_held reached_changed).1
  rcases hReads 1 2 bs t hRun with ⟨hLength, hShows⟩
  rcases List.length_eq_two.mp hLength with ⟨x, y, rfl⟩
  have hFirst : (21 : UInt8) = x :=
    Option.some.inj (hShows 0 x rfl)
  have hSecond : (31 : UInt8) = y :=
    Option.some.inj (hShows 1 y rfl)
  rw [hFirst, hSecond]
  exact ⟨t, hRun⟩

end Session

end BeltHeap
