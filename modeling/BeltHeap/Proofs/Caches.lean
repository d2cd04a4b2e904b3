import BeltHeap.Proofs.Pages

/-
  Caches over a live process that are coherent: every page that a
  read would be answered from holds what the target held when it
  was last stopped.  What may have changed since is to be read
  again.

  Main declarations:
    * `View.heldAfter`
    * `PageCache.Coherent`, `PageCache.Continues`
    * `PageCache.Written`
    * `PageCache.upholds_invalidateRange`
-/

------------------------------------------------------------
-- Coherent Caches
------------------------------------------------------------

namespace BeltHeap

/-
  What a target held when it was last stopped, once its state may
  have changed.
-/
def View.heldAfter
    {σ : Type}
    (v : View σ)
    (held : Nat → Option UInt8)
    (channel : σ) : Nat → Option UInt8 :=
  if v.stopped channel then v.memory channel else held

namespace PageCache

open ObserverM

variable {σ : Type}
variable {view : View σ}
variable {held : Nat → Option UInt8}
variable {c : PageCache (LiveProcess σ)}
variable {process : LiveProcess σ}
variable {index : Nat}

/-
  A cache is coherent with what the target held when it was last
  stopped.
-/
structure Coherent
    (view : View σ)
    (held : Nat → Option UInt8)
    (c : PageCache (LiveProcess σ)) : Prop where
  certain : c.inDoubt = false
  size_pos : 0 < c.pageSize
  attached : c.source.Attached view
  present :
    view.stopped c.source.channel = true →
      held = view.memory c.source.channel
  shelf :
    Shelf (Holding held) c.pageSize c.pool c.source.epoch c.pages

/- A cache goes on with the same kind of source. -/
structure Continues
    (view : View σ)
    (held : Nat → Option UInt8)
    (c d : PageCache (LiveProcess σ)) : Prop where
  coherent : Coherent view held d
  pageSize : d.pageSize = c.pageSize
  byteOrder : d.source.byteOrder = c.source.byteOrder
  wordSize : d.source.wordSize = c.source.wordSize

/- A coherent cache knows what was held last. -/
theorem Coherent.heldAfter_eq
    (hCoherent : Coherent view held c) :
    view.heldAfter held c.source.channel = held := by
  unfold View.heldAfter
  split
  · exact (hCoherent.present ‹_›).symm
  · rfl

/-
  A cache is coherent with what the target held when it was last
  stopped, once its state may have changed.
-/
def Afterwards
    (view : View σ)
    (held : Nat → Option UInt8)
    (c : PageCache (LiveProcess σ)) : Prop :=
  Coherent view (view.heldAfter held c.source.channel) c

/- A coherent cache shows what its channel holds after it. -/
theorem Coherent.afterwards
    (hCoherent : Coherent view held c) :
    Afterwards view held c := by
  unfold Afterwards
  rw [hCoherent.heldAfter_eq]
  exact hCoherent

/- A cache is as coherent as its source and its pages are. -/
theorem Coherent.onSource
    {held' : Nat → Option UInt8}
    (hCoherent : Coherent view held c)
    (hAttached : process.Attached view)
    (hPresent :
      view.stopped process.channel = true →
        held' = view.memory process.channel)
    (hShelf :
      Shelf (Holding held') c.pageSize c.pool process.epoch c.pages) :
    Coherent view held' { c with source := process } :=
  ⟨hCoherent.certain, hCoherent.size_pos, hAttached, hPresent,
    hShelf⟩

/- A process that only goes on leaves its cache coherent. -/
theorem Coherent.goesOn
    (hCoherent : Coherent view held c)
    (hGoesOn : LiveProcess.GoesOn view c.source process) :
    Continues view held c { c with source := process } := by
  refine ⟨?_, rfl, hGoesOn.byteOrder, hGoesOn.wordSize⟩
  refine hCoherent.onSource
    (hGoesOn.attached hCoherent.attached) ?_ ?_
  · intro hStopped
    rw [hGoesOn.stopped] at hStopped
    rw [hGoesOn.memory hStopped]
    exact hCoherent.present hStopped
  · rw [hGoesOn.epoch]
    exact hCoherent.shelf

------------------------------------------------------------
-- Invalidation
------------------------------------------------------------

/-
  A cache whose pages are coherent with what was held before no
  more than a range of it changed.
-/
structure Written
    (view : View σ)
    (held held' : Nat → Option UInt8)
    (a count : Nat)
    (c : PageCache (LiveProcess σ)) : Prop where
  certain : c.inDoubt = false
  size_pos : 0 < c.pageSize
  attached : c.source.Attached view
  present :
    view.stopped c.source.channel = true →
      held' = view.memory c.source.channel
  shelf :
    Shelf (Holding held) c.pageSize c.pool c.source.epoch c.pages
  outside :
    ∀ b, b < a ∨ a + count ≤ b → held' b = held b

variable {held' : Nat → Option UInt8}
variable {a count : Nat}
variable {kept : PageCache (LiveProcess σ) → Prop}

/- A coherent cache is as after a write that changed nothing. -/
theorem Coherent.written
    (hCoherent : Coherent view held c)
    (a count : Nat) :
    Written view held held a count c :=
  ⟨hCoherent.certain, hCoherent.size_pos, hCoherent.attached,
    hCoherent.present, hCoherent.shelf, fun _ _ => rfl⟩

/- A process that was written to leaves its cache like that. -/
theorem Coherent.wrote
    (hCoherent : Coherent view held c)
    (hWrote : LiveProcess.Wrote view c.source a count process) :
    Written view held (view.heldAfter held process.channel) a
      count { c with source := process } := by
  refine
    ⟨hCoherent.certain, hCoherent.size_pos,
      hWrote.attached hCoherent.attached,
      fun hStopped => if_pos hStopped, ?_, fun b hOut => ?_⟩
  · rw [hWrote.epoch]
    exact hCoherent.shelf
  · unfold View.heldAfter
    split
    · rename_i hStopped
      rw [hWrote.stopped] at hStopped
      rw [hWrote.memory hStopped b hOut,
        hCoherent.present hStopped]
    · rfl

/-
  The cache is coherent again once the pages that may have
  changed are to be read again.
-/
theorem Written.invalidated
    {condition : Nat → Bool}
    (hWritten : Written view held held' a count c)
    (hSame :
      ∀ index, condition index = false →
        ∀ b, index * c.pageSize ≤ b →
          b < index * c.pageSize + c.pageSize →
            held' b = held b) :
    Coherent view held'
      { c with
        pages :=
          c.pages.map fun index page =>
            if condition index then page.invalidated else page } :=
  ⟨hWritten.certain, hWritten.size_pos, hWritten.attached,
    hWritten.present,
    hWritten.shelf.invalidated
      fun index hOther b hLow hHigh _ hHeld =>
        (hSame index hOther b hLow hHigh).trans hHeld⟩

/- A page that is none of the pages of a range is apart from it. -/
theorem apart_of_outside
    {pageSize last b : Nat}
    (hSize : 0 < pageSize)
    (hLast : last + 1 = a + count)
    (hOutside :
      ¬ (a / pageSize ≤ index ∧ index ≤ last / pageSize))
    (hLow : index * pageSize ≤ b)
    (hHigh : b < index * pageSize + pageSize) :
    b < a ∨ a + count ≤ b := by
  by_cases hBefore : index < a / pageSize
  · left
    have hNext : (index + 1) * pageSize ≤ a :=
      (Nat.le_div_iff_mul_le hSize).mp hBefore
    rw [Nat.succ_mul] at hNext
    omega
  · right
    have hAfter : last / pageSize < index := by omega
    have hBehind : last < index * pageSize :=
      (Nat.div_lt_iff_lt_mul hSize).mp hAfter
    omega

/- Reading again whatever pages leaves a cache coherent. -/
theorem upholds_invalidateWhere
    (hCoherent : Coherent view held c)
    (condition : Nat → Bool) :
    Upholds kept (invalidateWhere condition) c fun _ d =>
      Coherent view held d ∧ d.source = c.source :=
  upholds_certain fun _ =>
    upholds_change
      ⟨(hCoherent.written 0 0).invalidated fun _ _ _ _ _ => rfl,
        rfl⟩

/- Reading the range again that changed makes it coherent. -/
theorem upholds_invalidateRange
    (hWritten : Written view held held' a count c) :
    Upholds kept (invalidateRange a count) c fun _ d =>
      Coherent view held' d ∧ d.source = c.source := by
  unfold invalidateRange
  split
  · rename_i hNone
    subst hNone
    have hSame : held' = held :=
      funext fun b => hWritten.outside b (by omega)
    have hShelf := hWritten.shelf
    rw [← hSame] at hShelf
    exact
      upholds_pure
        ⟨⟨hWritten.certain, hWritten.size_pos,
          hWritten.attached, hWritten.present, hShelf⟩, rfl⟩
  · rename_i hSome
    apply upholds_computed
    intro last hLast
    have hStop : last + 1 = a + count := by
      have hEnd := (Word.eq_of_add hLast).1
      omega
    apply upholds_read
    refine upholds_certain fun _ => ?_
    refine upholds_change ⟨hWritten.invalidated ?_, rfl⟩
    intro index hOther b hLow hHigh
    refine hWritten.outside b ?_
    refine
      apart_of_outside hWritten.size_pos hStop ?_ hLow hHigh
    rw [Bool.and_eq_false_iff, decide_eq_false_iff_not,
      decide_eq_false_iff_not] at hOther
    omega

end PageCache

end BeltHeap
