import BeltHeap.Observer.BufferPool
import BeltHeap.Observer.Source

/-
  Pages of the memory of a target, read through a source and
  kept until the source moves to a later epoch.

  Key definitions include:
    * `Page`
    * `PageCache`
    * `PageCache.fetch`
    * `PageCache.readInto`, `PageCache.read`
    * `PageCache.invalidate`, `PageCache.invalidateRange`
    * `PageCache.write`
-/

------------------------------------------------------------
-- Pages
------------------------------------------------------------

namespace BeltHeap

/-
  A cached page, the epoch of the source as of the last time it
  was read, and how often that was.  There is no epoch before
  the first time and after an invalidation.
-/
structure Page where
  index : Nat
  address : Nat
  buffer : PageBuffer
  epoch : Option Nat
  refreshes : Nat

namespace Page

/- A page that has not been read yet. -/
def make
    (index pageSize : Nat)
    (buffer : PageBuffer) : Except Fault Page := do
  if buffer.length ≠ pageSize then
    throw (.lengthsDiffer buffer.length pageSize)
  else
    let address ← Word.mul index pageSize
    pure { index, address, buffer, epoch := none, refreshes := 0 }

/- The number of bytes in a page. -/
def size (p : Page) : Nat :=
  p.buffer.length

/- A page that is read again before it is used. -/
def invalidated (p : Page) : Page :=
  { p with epoch := none }

/- Has a page to be read again at an epoch of the source? -/
def isStale
    (p : Page)
    (epoch : Nat) : Bool :=
  match p.epoch with
  | none => true
  | some old => old < epoch

end Page

------------------------------------------------------------
-- Caches
------------------------------------------------------------

/-
  A source with a pool of buffers and the pages read so far.
  While a page is being added, and for good if that breaks off,
  the pages are in doubt: whatever needs them is at fault.
-/
structure PageCache (σ : Type) where
  source : σ
  pool : BufferPool
  pageSize : Nat
  pages : Std.HashMap Nat Page := {}
  inDoubt : Bool := false

namespace PageCache

variable {σ α : Type} [MemorySource σ]

/- A cache without pages.  Pages are as large as the source says. -/
def make
    (source : σ)
    (pool : BufferPool) : Except Fault (PageCache σ) :=
  let pageSize := MemorySource.pageSize source
  if Word.isPowerOfTwo pageSize then
    .ok { source, pool, pageSize }
  else .error (.pageSizeNotPowerOfTwo pageSize)

/- Work on the source of a cache. -/
def onSource
    (work : ObserverM σ α) : ObserverM (PageCache σ) α :=
  Activity.within (·.source) (fun c source => { c with source })
    work

/- The index of the page that holds an address. -/
def pageIndex
    (c : PageCache σ)
    (a : Nat) : Nat :=
  a / c.pageSize

/- The number of pages, unless they are in doubt. -/
def pageCount (c : PageCache σ) : Except Fault Nat :=
  if c.inDoubt then .error .pagesInDoubt else .ok c.pages.size

/- Check that the pages are not in doubt. -/
def checkCertain : ObserverM (PageCache σ) Unit := do
  let inDoubt ← Activity.reading (·.inDoubt)
  if inDoubt then throw (.fault .pagesInDoubt) else pure ()

/- Set whether the pages are in doubt. -/
def setInDoubt (inDoubt : Bool) : ObserverM (PageCache σ) Unit :=
  Activity.change fun c => { c with inDoubt }

/- Add a page to the cache, or replace the one with its index. -/
def putPage (p : Page) : ObserverM (PageCache σ) Unit :=
  Activity.change fun c =>
    { c with pages := c.pages.insert p.index p }

------------------------------------------------------------
-- Reading Pages
------------------------------------------------------------

/- Allocate a buffer in the pool of the cache. -/
def allocateBuffer
    (count : Nat) : ObserverM (PageCache σ) PageBuffer := do
  let r ← Activity.reading fun c => c.pool.allocate count
  let (buffer, pool) ← r
  Activity.change fun c => { c with pool }
  pure buffer

/- Add a page that has not been read yet. -/
def addPage (index : Nat) : ObserverM (PageCache σ) Page := do
  setInDoubt true
  let pageSize ← Activity.reading (·.pageSize)
  let buffer ← allocateBuffer pageSize
  let page ← Page.make index pageSize buffer
  putPage page
  setInDoubt false
  pure page

/- The page with an index, which is added if need be. -/
def pageAt
    (index : Nat) : ObserverM (PageCache σ) Page := do
  checkCertain
  match ← Activity.reading fun c => c.pages[index]? with
  | some page => pure page
  | none => addPage index

/- Write bytes into the buffer of a page. -/
def fillPage
    (p : Page)
    (bs : List UInt8) : ObserverM (PageCache σ) Page :=
  fun s =>
    let pool := s.state.pool
    let c := { s.state with pool := { size := 0, disabled := true } }
    let (buffer, pool) := pool.write p.buffer 0 bs
    (.ok { p with buffer }, { s with state := { c with pool } })

/-
  Read a whole page from the source and stamp it with the epoch
  of the source.  If the read fails, the page stays as it was.
-/
def refresh
    (p : Page) : ObserverM (PageCache σ) Page := do
  let epoch ← Activity.reading fun c => MemorySource.epoch c.source
  let bs ← onSource (MemorySource.read p.address p.size)
  let filled ← fillPage p bs
  Activity.emit (.pageRefreshed p.index p.address p.epoch epoch)
  pure
    { filled with
      epoch := some epoch
      refreshes := p.refreshes + 1 }

/-
  Some bytes of a page, which is read from the source first if
  the source has moved on.
-/
def fetch
    (p : Page)
    (offset count : Nat) :
    ObserverM (PageCache σ) (Page × List UInt8) := do
  let stop ← Word.add offset count
  if p.size < stop then
    throw (.fault (.pageOverrun count offset p.index))
  else
    let epoch ← Activity.reading fun c => MemorySource.epoch c.source
    let p ← if p.isStale epoch then refresh p else pure p
    let bs ← Activity.reading fun c => c.pool.slice p.buffer offset count
    pure (p, bs)

/- Some bytes of the page with an index. -/
def fetchAt
    (index offset count : Nat) :
    ObserverM (PageCache σ) (List UInt8) := do
  let page ← pageAt index
  let (page, bs) ← fetch page offset count
  putPage page
  pure bs

------------------------------------------------------------
-- Reading Memory
------------------------------------------------------------

/- Read `count` bytes from `cursor` on, page by page. -/
def readFrom
    (pageSize count cursor : Nat) :
    ObserverM (PageCache σ) (List UInt8) :=
  let offset := cursor % pageSize
  let here := min (pageSize - offset) count
  if _hHere : here = 0 then pure []
  else do
    let bs ← fetchAt (cursor / pageSize) offset here
    let next ← Word.add cursor here
    let rest ← readFrom pageSize (count - here) next
    pure (bs ++ rest)
termination_by count
decreasing_by omega

/- Read `count` bytes at an address. -/
def readInto
    (a count : Nat) : ObserverM (PageCache σ) (List UInt8) := do
  if Word.limit ≤ a + count then .fail (.unmapped a count)
  else
    let pageSize ← Activity.reading (·.pageSize)
    readFrom pageSize count a

/- The size of a buffer, if one so large can be made. -/
def bufferSize (count : Nat) : ObserverM (PageCache σ) Nat := do
  Word.entries count 1

/- Read any number of bytes that a buffer can be made for. -/
def read
    (a count : Nat) : ObserverM (PageCache σ) (List UInt8) := do
  let count ← bufferSize count
  readInto a count

/- Read any number of such bytes from the source itself. -/
def readThrough
    (a count : Nat) : ObserverM (PageCache σ) (List UInt8) := do
  let count ← bufferSize count
  onSource (MemorySource.read a count)

/- Read a number of `width` bytes. -/
def readNumber
    (width a : Nat) : ObserverM (PageCache σ) Nat := do
  let bs ← readInto a width
  let order ← Activity.reading fun c => MemorySource.byteOrder c.source
  pure (order.decode bs)

/- Read a word of the target. -/
def readWord (a : Nat) : ObserverM (PageCache σ) Nat := do
  let width ← Activity.reading fun c => MemorySource.wordSize c.source
  readNumber (if width = 4 then 4 else 8) a

------------------------------------------------------------
-- Invalidation and Writing
------------------------------------------------------------

/- Read the pages that satisfy a condition again before use. -/
def invalidateWhere
    (condition : Nat → Bool) : ObserverM (PageCache σ) Unit := do
  checkCertain
  Activity.change fun c =>
    { c with
      pages :=
        c.pages.map fun index page =>
          if condition index then page.invalidated else page }

/- Read the page with an index again before use. -/
def invalidate (index : Nat) : ObserverM (PageCache σ) Unit :=
  invalidateWhere (· == index)

/- Read the pages of a range again before use. -/
def invalidateRange
    (a count : Nat) : ObserverM (PageCache σ) Unit := do
  if count = 0 then pure ()
  else
    let last ← Word.add a (count - 1)
    let pageSize ← Activity.reading (·.pageSize)
    invalidateWhere fun index =>
      a / pageSize ≤ index && index ≤ last / pageSize

/- Read all pages again before use. -/
def invalidateAll : ObserverM (PageCache σ) Unit :=
  invalidateWhere fun _ => true

/-
  Write through the source.  A write that fails may have changed
  part of the range, so the written pages are read again either
  way.
-/
def write
    (a : Nat)
    (bs : List UInt8) : ObserverM (PageCache σ) Unit := do
  match ← Activity.attempt (onSource (MemorySource.write a bs)) with
  | .ok () => invalidateRange a bs.length
  | .error (.fault f) => throw (.fault f)
  | .error (.error e) => do
      invalidateRange a bs.length
      .fail e

end PageCache

end BeltHeap
