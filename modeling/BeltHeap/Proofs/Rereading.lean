import BeltHeap.Proofs.Caches
import BeltHeap.Proofs.Stocking

/-
  What a cache over a live process does.  Whatever it reads is
  what the target held when it was last stopped, and reading,
  writing and control leave the cache coherent.

  Main declarations:
    * `PageCache.Coherent.supply`
    * `PageCache.reads`, `PageCache.upholds_readNumber`
    * `PageCache.writes`
    * `PageCache.suspends`
    * `PageCache.resumes`, `PageCache.kills`
-/

------------------------------------------------------------
-- Reading Memory
------------------------------------------------------------

namespace BeltHeap

namespace PageCache

open ObserverM

variable {σ : Type} [ProcessChannel σ]
variable {target : Target σ}
variable {held : Nat → Option UInt8}
variable {c d : PageCache (LiveProcess σ)}

/- A process that only goes on supplies what is held. -/
def Coherent.supply
    (hCoherent : Coherent target.toView held c) :
    Supply (LiveProcess σ) where
  alive := LiveProcess.GoesOn target.toView c.source
  holds := Holding held
  pageSize := c.pageSize
  epoch := c.source.epoch
  byteOrder := c.source.byteOrder
  wordSize := c.source.wordSize
  served _ := True
  mayFail := True
  mayFault := True
  size_pos := hCoherent.size_pos
  epoch_eq hGoesOn := hGoesOn.epoch
  byteOrder_eq hGoesOn := hGoesOn.byteOrder
  wordSize_eq hGoesOn := hGoesOn.wordSize
  fits _ := .inl trivial
  placed _ := .inl trivial
  reads _ hGoesOn := by
    have hAttached := hGoesOn.attached hCoherent.attached
    refine
      ((LiveProcess.reads hAttached).meets trivial).imp id ?_ ?_
    · intro process hNext
      exact ⟨trivial, hGoesOn.trans hNext⟩
    · rintro bs process ⟨hNext, hStopped, hLength, hShows⟩
      rw [hGoesOn.stopped] at hStopped
      rw [hGoesOn.memory hStopped,
        ← hCoherent.present hStopped] at hShows
      exact ⟨hGoesOn.trans hNext, hLength, hShows⟩

/- A coherent cache holds what it supplies. -/
theorem Coherent.stocks
    (hCoherent : Coherent target.toView held c) :
    hCoherent.supply.Stocks c :=
  ⟨hCoherent.certain, LiveProcess.GoesOn.refl, rfl,
    hCoherent.shelf⟩

/- A cache that still holds that goes on. -/
theorem Coherent.continues_of_stocks
    (hCoherent : Coherent target.toView held c)
    (hStocks : hCoherent.supply.Stocks d) :
    Continues target.toView held c d := by
  have hGoesOn := hStocks.alive
  have hSize := hStocks.pageSize
  refine
    ⟨⟨hStocks.certain, ?_, hGoesOn.attached hCoherent.attached,
      ?_, ?_⟩, hSize, hGoesOn.byteOrder, hGoesOn.wordSize⟩
  · rw [hSize]
    exact hCoherent.size_pos
  · intro hStopped
    rw [hGoesOn.stopped] at hStopped
    rw [hGoesOn.memory hStopped]
    exact hCoherent.present hStopped
  · rw [hSize, hGoesOn.epoch]
    exact hStocks.shelf

/- Work on a cache that holds what is supplied lets it go on. -/
theorem Coherent.upholds
    {α : Type}
    {work : ObserverM (PageCache (LiveProcess σ)) α}
    {answer : α → Prop}
    (hCoherent : Coherent target.toView held c)
    (hWork :
      Meets hCoherent.supply.mayFault hCoherent.supply.Spares
        work c fun a d =>
          hCoherent.supply.Stocks d ∧ answer a) :
    Upholds (Continues target.toView held c) work c fun a d =>
      Continues target.toView held c d ∧ answer a :=
  hWork.upholds.imp
    (fun _ hSpares => hCoherent.continues_of_stocks hSpares.2)
    fun _ _ hPost =>
      ⟨hCoherent.continues_of_stocks hPost.1, hPost.2⟩

/- The bytes of a range are those that were held. -/
theorem upholds_readInto
    (a count : Nat)
    (hCoherent : Coherent target.toView held c) :
    Upholds (Continues target.toView held c) (readInto a count)
      c fun bs d =>
        Continues target.toView held c d ∧ bs.length = count ∧
          Shows held a bs :=
  hCoherent.upholds
    (meets_readInto a count hCoherent.stocks
      (fun _ _ _ => trivial) (.inl trivial))

/-
  Bytes that are read into a new buffer are those that are held.
-/
theorem reads
    (a count : Nat)
    (hCoherent : Coherent target.toView held c) :
    Upholds (Continues target.toView held c) (read a count) c
      fun bs d =>
        Continues target.toView held c d ∧ bs.length = count ∧
          Shows held a bs :=
  hCoherent.upholds
    (meets_reads a count hCoherent.stocks
      (fun _ _ _ => trivial) (.inl trivial) (.inl trivial))

/- A number is decoded from the bytes of its range. -/
theorem upholds_readNumber
    (width a : Nat)
    (hCoherent : Coherent target.toView held c) :
    Upholds (Continues target.toView held c)
      (readNumber width a) c fun value d =>
        Continues target.toView held c d ∧
          ∃ bs, bs.length = width ∧ Shows held a bs ∧
            value = c.source.byteOrder.decode bs :=
  hCoherent.upholds
    (meets_readNumber width a hCoherent.stocks
      (fun _ _ _ => trivial) (.inl trivial))

/- A word has as many bytes as the source says. -/
theorem upholds_readWord
    (a : Nat)
    (hCoherent : Coherent target.toView held c) :
    Upholds (Continues target.toView held c) (readWord a) c
      fun value d =>
        Continues target.toView held c d ∧
          ∃ bs,
            bs.length =
                (if c.source.wordSize = 4 then 4 else 8) ∧
              Shows held a bs ∧
              value = c.source.byteOrder.decode bs :=
  hCoherent.upholds
    (meets_readWord a hCoherent.stocks
      (fun _ _ _ _ => trivial) (.inl trivial))

------------------------------------------------------------
-- Writing Memory
------------------------------------------------------------

/-
  Writing leaves the cache coherent, whether all of the range was
  written or part of it or nothing.
-/
theorem writes
    (a : Nat)
    (bs : List UInt8)
    (hCoherent : Coherent target.toView held c) :
    Upholds (Afterwards target.toView held) (write a bs) c
      fun _ => Afterwards target.toView held := by
  have hWrite :
      Upholds
        (fun d => ∃ process,
          LiveProcess.Wrote target.toView c.source a bs.length
            process ∧ d = { c with source := process })
        (onSource (MemorySource.write a bs)) c fun _ d =>
          ∃ process,
            LiveProcess.Wrote target.toView c.source a bs.length
              process ∧ d = { c with source := process } := by
    apply upholds_within
    exact
      (LiveProcess.writes hCoherent.attached).imp
        (fun process hWrote => ⟨process, hWrote, rfl⟩)
        fun _ process hWrote => ⟨process, hWrote, rfl⟩
  have hAgain :
      ∀ process,
        LiveProcess.Wrote target.toView c.source a bs.length
            process →
          Upholds (Afterwards target.toView held)
            (invalidateRange a bs.length)
            { c with source := process } fun _ =>
              Afterwards target.toView held := by
    intro process hWrote
    refine
      (upholds_invalidateRange (hCoherent.wrote hWrote)).imp
        (fun _ hKept => hKept) ?_
    rintro _ d ⟨hAfter, hSource⟩
    unfold Afterwards
    rw [hSource]
    exact hAfter
  unfold write
  refine upholds_attempt hWrite ?_ ?_ fun _ _ => upholds_fault
  · rintro _ d ⟨process, hWrote, rfl⟩
    exact hAgain process hWrote
  · rintro e d ⟨process, hWrote, rfl⟩
    refine upholds_bind (hAgain process hWrote) ?_
    intro _ g hAfter
    exact upholds_fail hAfter

------------------------------------------------------------
-- Control
------------------------------------------------------------

/- A process that was stopped or let go may have changed. -/
theorem Coherent.controlled
    {process : LiveProcess σ}
    (hCoherent : Coherent target.toView held c)
    (hControlled :
      LiveProcess.GoesOn target.toView c.source process ∨
        LiveProcess.Stopped target.toView c.source process ∨
        LiveProcess.LetGo target.toView c.source process) :
    Afterwards target.toView held
      { c with source := process } := by
  rcases hControlled with hGoesOn | hStopped | hLetGo
  · exact (hCoherent.goesOn hGoesOn).coherent.afterwards
  · refine hCoherent.onSource hStopped.attached
      (fun hHalted => if_pos hHalted) ?_
    rw [hStopped.epoch]
    exact hCoherent.shelf.advanced _
  · have hRuns : ¬ target.stopped process.channel = true := by
      rw [hLetGo.stopped]
      exact Bool.false_ne_true
    refine hCoherent.onSource hLetGo.attached
      (fun hHalted => absurd hHalted hRuns) ?_
    unfold View.heldAfter
    rw [if_neg hRuns, hLetGo.epoch]
    exact hCoherent.shelf

/- Control of the process leaves its cache coherent. -/
theorem upholds_controlled
    {work : ObserverM (LiveProcess σ) Unit}
    (hCoherent : Coherent target.toView held c)
    (hWork :
      Upholds (LiveProcess.GoesOn target.toView c.source) work
        c.source fun _ process =>
          LiveProcess.GoesOn target.toView c.source process ∨
            LiveProcess.Stopped target.toView c.source process ∨
            LiveProcess.LetGo target.toView c.source process) :
    Upholds (Afterwards target.toView held) (onSource work) c
      fun _ => Afterwards target.toView held := by
  apply upholds_within
  refine hWork.imp ?_ ?_
  · intro process hGoesOn
    exact hCoherent.controlled (Or.inl hGoesOn)
  · intro _ process hControlled
    exact hCoherent.controlled hControlled

/- Suspending the process leaves a cache coherent. -/
theorem suspends
    (hCoherent : Coherent target.toView held c) :
    Upholds (Afterwards target.toView held)
      (onSource MemorySource.suspend) c fun _ =>
        Afterwards target.toView held := by
  refine upholds_controlled hCoherent ?_
  refine LiveProcess.suspends.imp (fun _ hKept => hKept) ?_
  intro _ process hSuspended
  exact hSuspended.imp_right Or.inl

/- Resuming the process leaves a cache coherent. -/
theorem resumes
    (hCoherent : Coherent target.toView held c) :
    Upholds (Afterwards target.toView held)
      (onSource MemorySource.resume) c fun _ =>
        Afterwards target.toView held := by
  refine upholds_controlled hCoherent ?_
  refine LiveProcess.resumes.imp (fun _ hKept => hKept) ?_
  intro _ process hResumed
  exact hResumed.imp_right Or.inr

/- Ending the process leaves a cache coherent. -/
theorem kills
    (hCoherent : Coherent target.toView held c) :
    Upholds (Afterwards target.toView held)
      (onSource MemorySource.kill) c fun _ =>
        Afterwards target.toView held := by
  refine upholds_controlled hCoherent ?_
  refine LiveProcess.kills.imp (fun _ hKept => hKept) ?_
  intro _ process hKilled
  exact hKilled.imp_right Or.inr

end PageCache

end BeltHeap
