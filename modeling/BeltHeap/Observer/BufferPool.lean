import BeltHeap.Mapping

/-
  Buffers for cached pages, carved from a pool of bounded size.
  When the pool is used up, disabled or cannot be mapped, every
  buffer has memory of its own.

  Key definitions include:
    * `PageBuffer`
    * `BufferPool`
    * `BufferPool.allocateWith`, `BufferPool.allocate`
    * `BufferPool.bytes`, `BufferPool.write`
-/

------------------------------------------------------------
-- Buffers
------------------------------------------------------------

namespace BeltHeap

/- A buffer is a part of the pool or has memory of its own. -/
inductive PageBuffer where
| pooled (offset length : Nat) : PageBuffer
| owned (length : Nat) (memory : Memory) : PageBuffer

namespace PageBuffer

/- The number of bytes in a buffer. -/
def length : PageBuffer → Nat
| .pooled _ length => length
| .owned length _ => length

/- Is the buffer a part of the pool? -/
def isPooled : PageBuffer → Bool
| .pooled .. => true
| .owned .. => false

end PageBuffer

------------------------------------------------------------
-- Pools
------------------------------------------------------------

/- Whether the memory of a pool has been asked for yet. -/
inductive PoolState where
| unmapped : PoolState
| mapped : PoolState
| failed : PoolState
deriving DecidableEq, Repr

/-
  A pool hands out its bytes in order; `used` of them are handed
  out.  It is mapped on the first request that could be served
  from it.
-/
structure BufferPool where
  size : Nat
  disabled : Bool
  state : PoolState := .unmapped
  memory : Memory := {}
  used : Nat := 0

namespace BufferPool

/- The pool that options ask for. -/
def ofOptions (o : Options) : BufferPool where
  size := o.poolSize
  disabled := o.ownBuffersOnly

/-
  Map the pool by `reserve`, if a request could be served from
  it.
-/
def prepareWith
    (reserve : Nat → Except MapError Mapping)
    (p : BufferPool)
    (count : Nat) : BufferPool :=
  if p.disabled || p.state ≠ .unmapped || p.size < count then p
  else
    match reserve p.size with
    | .ok _ => { p with state := .mapped }
    | .error _ => { p with state := .failed }

/- Is a request served from the pool, once it is prepared? -/
def serves
    (p : BufferPool)
    (count : Nat) : Bool :=
  !p.disabled && p.state = .mapped && count ≤ p.size - p.used

/-
  A buffer of `count` bytes, all of them zero, of a pool that is
  mapped by `reserve`.
-/
def allocateWith
    (reserve : Nat → Except MapError Mapping)
    (p : BufferPool)
    (count : Nat) : Except Fault (PageBuffer × BufferPool) :=
  let p := p.prepareWith reserve count
  if p.serves count then
    .ok (.pooled p.used count, { p with used := p.used + count })
  else do
    let count ← Word.entries count 1
    pure (.owned count {}, p)

/- A buffer of `count` bytes, all of them zero. -/
def allocate
    (p : BufferPool)
    (count : Nat) : Except Fault (PageBuffer × BufferPool) :=
  p.allocateWith (Mapping.reserve 0) count

/- Some bytes of a buffer. -/
def slice
    (p : BufferPool)
    (b : PageBuffer)
    (offset count : Nat) : List UInt8 :=
  match b with
  | .pooled start _ => p.memory.read (start + offset) count
  | .owned _ memory => memory.read offset count

/- All bytes of a buffer. -/
def bytes
    (p : BufferPool)
    (b : PageBuffer) : List UInt8 :=
  p.slice b 0 b.length

/- Write bytes into a buffer. -/
def write
    (p : BufferPool)
    (b : PageBuffer)
    (offset : Nat)
    (bs : List UInt8) : PageBuffer × BufferPool :=
  match b with
  | .pooled start _ =>
      (b, { p with memory := p.memory.write (start + offset) bs })
  | .owned length memory =>
      (.owned length (memory.write offset bs), p)

end BufferPool

end BeltHeap
