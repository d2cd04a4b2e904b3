import BeltHeap.Proofs.Arranging
import BeltHeap.Proofs.Bracketing

/-
  Work on a heap that comes to the same whichever of two levels
  its log has.  What a log keeps decides about one thing only:
  where debugging events are kept, the end of every region is
  computed when regions are published.

  Main declarations:
    * `Heap.Reportable`, `Heap.Reportable.of_create`
    * `HeapM.Indifferent`
    * `HeapM.indifferent_bind`
    * `HeapM.indifferent_register`
    * `HeapM.indifferent_publishRegions`
-/

------------------------------------------------------------
-- Reportable Heaps
------------------------------------------------------------

namespace BeltHeap

/- Do logs of two levels agree on debugging events? -/
def Log.AgreeOnDebug (l l' : Option Level) : Prop :=
  keeps ⟨l, #[]⟩ .debug = keeps ⟨l', #[]⟩ .debug

theorem Log.level_add
    (log : Log)
    (e : Event) :
    (log.add e).level = log.level := by
  unfold add
  split <;> rfl

/-
  An address, as far as logs of two levels can tell: unless they
  agree on debugging events, it has to be one.
-/
def Addressable
    (l l' : Option Level)
    (a : Nat) : Prop :=
  Log.AgreeOnDebug l l' ∨ a < Word.limit

variable {l l' : Option Level}

/- Both bounds of a belt are addresses. -/
def Belt.Reportable
    (l l' : Option Level)
    (b : Belt) : Prop :=
  Addressable l l' b.start ∧ Addressable l l' b.stop

/- The belts and the regions of the runtime end at addresses. -/
structure Heap.Reportable
    (l l' : Option Level)
    (h : Heap) : Prop where
  belts : ∀ b ∈ h.layout.belts, b.Reportable l l'
  regions :
    ∀ r ∈ h.runtimeRegions, Addressable l l' (r.start + r.size)

/- The region of a reportable belt ends at an address. -/
theorem Belt.Reportable.region
    {b : Belt}
    (hBelt : b.Reportable l l') :
    Addressable l l' (b.start + b.size) := by
  rcases hBelt with ⟨hStart, hStop⟩
  rcases hStart with hAgree | hStart
  · exact .inl hAgree
  · rcases hStop with hAgree | hStop
    · exact .inl hAgree
    · right
      unfold size
      omega

theorem Belt.Reportable.of_setBounds
    {b c : Belt}
    {start stop : Nat}
    (hBounds : b.setBounds start stop = .ok c)
    (hStart : Addressable l l' start)
    (hStop : Addressable l l' stop) :
    c.Reportable l l' := by
  unfold setBounds at hBounds
  split at hBounds
  · cases hBounds
  · split at hBounds
    · cases hBounds
      exact ⟨hStart, hStop⟩
    · cases hBounds
      exact ⟨hStart, hStop⟩

namespace Layout

variable {layout : Layout}
variable {b c : Belt}
variable {role bytes : Nat}

/- Two belts between which the boundary moved. -/
theorem reportable_grown
    (hBelts : ∀ d ∈ layout.belts, d.Reportable l l')
    (hGrown : (layout.grown role bytes).run = .ok (.ok (b, c))) :
    b.Reportable l l' ∧ c.Reportable l l' := by
  cases hBelt : layout.belt role with
  | error f =>
      unfold grown at hGrown
      rw [hBelt] at hGrown
      cases hGrown
  | ok belt =>
      rcases grown_cases bytes hBelt with
        ⟨e, hError⟩ | ⟨above, hAbove, -, -, -, -, hRun⟩
      · rw [hError] at hGrown
        cases hGrown
      · rw [hRun] at hGrown
        rcases bind_eq_ok hGrown with ⟨boundary, hAdd, hGrown⟩
        rcases bind_eq_ok hGrown with ⟨low, hLow, hGrown⟩
        rcases bind_eq_ok hGrown with ⟨high, hHigh, hGrown⟩
        cases hGrown
        have hStart := hBelts belt (mem_of_belt hBelt)
        have hStop := hBelts above (Array.mem_of_getElem? hAbove)
        have hBoundary : Addressable l l' boundary := by
          rcases Word.eq_of_add hAdd with ⟨rfl, hLimit⟩
          exact .inr hLimit
        exact
          ⟨.of_setBounds hLow hStart.1 hBoundary,
            .of_setBounds hHigh hBoundary hStop.2⟩

end Layout

namespace Heap.Reportable

variable {h : Heap}

/- The belt that plays a role. -/
theorem beltOf
    (hHeap : h.Reportable l l')
    (role : Nat) :
    (h.beltOf role).Reportable l l' := by
  unfold Heap.beltOf
  rw [Array.getD_eq_getD_getElem?]
  cases hBelt : h.layout.belts[h.layout.roles.getD role 0]? with
  | none => exact ⟨.inr (by decide), .inr (by decide)⟩
  | some b => exact hHeap.belts b (Array.mem_of_getElem? hBelt)

/- Only the layout and the regions of the runtime decide. -/
theorem aside
    {g : Heap}
    (hHeap : h.Reportable l l')
    (hLayout : g.layout = h.layout)
    (hRegions : g.runtimeRegions = h.runtimeRegions) :
    g.Reportable l l' := by
  constructor
  · rw [hLayout]
    exact hHeap.belts
  · rw [hRegions]
    exact hHeap.regions

/- Memory that changes. -/
theorem mapMemory
    (hHeap : h.Reportable l l')
    (f : Memory → Memory) :
    (h.mapMemory f).Reportable l l' :=
  hHeap.aside rfl rfl

/- Another belt in the place of one. -/
theorem setBelt
    {b : Belt}
    (hHeap : h.Reportable l l')
    (hBelt : b.Reportable l l') :
    (h.setBelt b).Reportable l l' := by
  refine ⟨fun c hMem => ?_, hHeap.regions⟩
  rcases Array.mem_or_eq_of_mem_setIfInBounds hMem with hOld | rfl
  · exact hHeap.belts c hOld
  · exact hBelt

/- A slot that is written. -/
theorem writeSlot
    (hHeap : h.Reportable l l')
    (s : Slot)
    (object : Nat) :
    (h.writeSlot s object).Reportable l l' := by
  cases s <;> exact hHeap.aside rfl rfl

/- Belts as regions end where the belts end. -/
theorem beltRegions
    {belts : List Belt}
    {regions : List MemoryRegion}
    (hBelts : ∀ b ∈ belts, b.Reportable l l')
    (hRegions : belts.mapM h.beltRegion = .ok regions) :
    ∀ r ∈ regions, Addressable l l' (r.start + r.size) := by
  induction belts generalizing regions with
  | nil =>
      cases hRegions
      nofun
  | cons b belts ih =>
      rw [List.mapM_cons] at hRegions
      rcases bind_eq_ok hRegions with ⟨first, hFirst, hRegions⟩
      rcases bind_eq_ok hRegions with ⟨rest, hRest, hRegions⟩
      cases hRegions
      rcases bind_eq_ok hFirst with ⟨role, -, hFirst⟩
      cases hFirst
      intro r hr
      rcases List.mem_cons.mp hr with rfl | hr
      · exact (hBelts b List.mem_cons_self).region
      · exact
          ih (fun c hMem => hBelts c (List.mem_cons_of_mem b hMem))
            hRest r hr

/- All regions of the heap end at addresses. -/
theorem allRegions
    {regions : List MemoryRegion}
    (hHeap : h.Reportable l l')
    (hRegions : h.allRegions = .ok regions) :
    ∀ r ∈ regions, Addressable l l' (r.start + r.size) := by
  rcases bind_eq_ok hRegions with ⟨belts, hBelts, hRegions⟩
  cases hRegions
  intro r hr
  rcases List.mem_append.mp hr with hBelt | hOther
  · refine beltRegions (fun b hMem => ?_) hBelts r hBelt
    exact hHeap.belts b (Array.mem_toList_iff.mp hMem)
  · exact hHeap.regions r hOther

theorem of_layOut
    {placement : Placement}
    {registers : Nat}
    {config : HeapConfig}
    (hMakes : Makes (layOut placement registers config) h) :
    h.Reportable l l' := by
  rcases parts_of_layOut hMakes with
    ⟨mapping, first, layout, _, _, _, -, -, hCarve, hLayout, -, -,
      -, rfl⟩
  rcases Layout.Arranged.of_carve hCarve with ⟨hArranged, -, -⟩
  rcases bind_eq_ok hLayout with ⟨mature, hMature, hLayout⟩
  cases hLayout
  have hBelt
      {b : Belt}
      (hMem : b ∈ first.belts) :
      b.Reportable l l' := by
    rcases hArranged.mem hMem with ⟨hProper, -, hStop, -⟩
    have hFilled := hProper.filled
    have hBelow := hArranged.below
    exact ⟨.inr (by omega), .inr (by omega)⟩
  refine ⟨fun b hMem => ?_, nofun⟩
  rcases Array.mem_or_eq_of_mem_setIfInBounds hMem with hOld | rfl
  · exact hBelt hOld
  · have hFound := hBelt (Layout.mem_of_belt hMature)
    exact hFound

theorem of_create
    {placement : Placement}
    {registers : Nat}
    {config : HeapConfig}
    (hMakes : Makes (create placement registers config) h) :
    h.Reportable l l' := by
  unfold create at hMakes
  rcases makes_bind hMakes with ⟨new, hLayOut, hMakes⟩
  have hSame :=
    (HeapM.respects_publishing { state := { heap := new } }).last
  have hRun :
      HeapM.publishRegions.run.run { state := { heap := new } } =
        HeapM.publishRegions { state := { heap := new } } :=
    rfl
  rw [hRun] at hMakes
  cases hResult :
      HeapM.publishRegions { state := { heap := new } } with
  | mk result after =>
      rw [hResult] at hMakes hSame
      cases result with
      | error f => cases makes_lift hMakes
      | ok _ =>
          cases makes_pure hMakes
          have hLayout :
              after.state.heap.unpublished.layout =
                new.unpublished.layout :=
            congrArg Heap.layout hSame
          have hRegions :
              after.state.heap.unpublished.runtimeRegions =
                new.unpublished.runtimeRegions :=
            congrArg Heap.runtimeRegions hSame
          exact (of_layOut hLayOut).aside hLayout hRegions

end Heap.Reportable

------------------------------------------------------------
-- Indifferent Work
------------------------------------------------------------

namespace HeapM

variable {α β : Type}

/- The same state under logs of two levels. -/
structure Together
    (l l' : Option Level)
    (s s' : Logged HeapRun) : Prop where
  state : s'.state = s.state
  level : s.log.level = l
  level' : s'.log.level = l'
  reportable : s.state.heap.Reportable l l'

/-
  Work comes to the same result and the same state whichever of
  two levels the log has.  Its values satisfy a condition.
-/
def Indifferent
    (l l' : Option Level)
    (work : HeapM α)
    (post : α → Prop) : Prop :=
  ∀ s s', Together l l' s s' →
    (work s').1 = (work s).1 ∧
      Together l l' (work s).2 (work s').2 ∧
        ∀ a, (work s).1 = .ok a → post a

variable {mid post : α → Prop}
variable {last : β → Prop}

theorem indifferent_pure
    {a : α}
    (hPost : post a) :
    Indifferent l l' (pure a) post := by
  refine fun s s' hTogether => ⟨rfl, hTogether, ?_⟩
  rintro _ ⟨⟩
  exact hPost

/- Returning any value. -/
theorem indifferent_done
    (a : α) :
    Indifferent l l' (pure a) fun _ => True :=
  indifferent_pure trivial

/- Breaking off. -/
theorem indifferent_throw
    (f : Fault) :
    Indifferent l l' (throw f : HeapM α) post :=
  fun _ _ hTogether => ⟨rfl, hTogether, nofun⟩

/- A computed result or fault. -/
theorem indifferent_lift
    {work : Except Fault α}
    (hPost : ∀ a, work = .ok a → post a) :
    Indifferent l l' (liftM work : HeapM α) post := by
  cases work with
  | ok a => exact indifferent_pure (hPost a rfl)
  | error f => exact indifferent_throw f

/- A value read off the heap. -/
theorem indifferent_reading
    {f : Heap → α}
    (hPost : ∀ h, h.Reportable l l' → post (f h)) :
    Indifferent l l' (reading f) post := by
  refine fun s s' hTogether => ⟨?_, hTogether, ?_⟩
  · exact
      congrArg (fun r => (Except.ok (f r.heap) : Except Fault α))
        hTogether.state
  · rintro _ ⟨⟩
    exact hPost _ hTogether.reportable

/- A report. -/
theorem indifferent_emit
    (e : Event) :
    Indifferent l l' (Activity.emit e : HeapM Unit)
      fun _ => True := by
  refine fun s s' hTogether => ⟨rfl, ⟨?_, ?_, ?_, ?_⟩, ?_⟩
  · exact hTogether.state
  · exact (Log.level_add _ _).trans hTogether.level
  · exact (Log.level_add _ _).trans hTogether.level'
  · exact hTogether.reportable
  · exact fun _ _ => trivial

/- Noting that the roots are asked for. -/
theorem indifferent_noteScan :
    Indifferent l l' noteScan fun _ => True := by
  rintro ⟨r, log⟩ ⟨r', log'⟩ ⟨⟨⟩, hLevel, hLevel', hReport⟩
  exact ⟨rfl, ⟨rfl, hLevel, hLevel', hReport⟩, fun _ _ => trivial⟩

theorem indifferent_update
    {f : Heap → Heap}
    (hWrite : ∀ h, h.Reportable l l' → (f h).Reportable l l') :
    Indifferent l l' (update f) fun _ => True := by
  rintro ⟨⟨heap, scans, trail⟩, log⟩ ⟨r', log'⟩
    ⟨⟨⟩, hLevel, hLevel', hReport⟩
  have hAfter := hWrite heap hReport
  cases trail with
  | none =>
      exact
        ⟨rfl, ⟨rfl, hLevel, hLevel', hAfter⟩, fun _ _ => trivial⟩
  | some before =>
      exact
        ⟨rfl, ⟨rfl, hLevel, hLevel', hAfter⟩, fun _ _ => trivial⟩

theorem indifferent_bind
    {work : HeapM α}
    {next : α → HeapM β}
    (hWork : Indifferent l l' work mid)
    (hNext : ∀ a, mid a → Indifferent l l' (next a) last) :
    Indifferent l l' (work >>= next) last := by
  intro s s' hTogether
  rcases hWork s s' hTogether with ⟨hResult, hMid, hPost⟩
  rw [Activity.run_bind, Activity.run_bind, hResult]
  cases hCase : (work s).1 with
  | ok a => exact hNext a (hPost a hCase) _ _ hMid
  | error f => exact ⟨rfl, hMid, nofun⟩

theorem indifferent_read
    {f : Heap → α}
    {next : α → HeapM β}
    (hNext :
      ∀ h, h.Reportable l l' →
        Indifferent l l' (next (f h)) last) :
    Indifferent l l' (reading f >>= next) last := by
  have hRead :
      Indifferent l l' (reading f) fun a =>
        Indifferent l l' (next a) last :=
    indifferent_reading hNext
  exact indifferent_bind hRead fun _ hNext => hNext

theorem indifferent_write
    {f : Heap → Heap}
    {next : Unit → HeapM β}
    (hWrite : ∀ h, h.Reportable l l' → (f h).Reportable l l')
    (hNext : Indifferent l l' (next ()) last) :
    Indifferent l l' (update f >>= next) last :=
  indifferent_bind (indifferent_update hWrite) fun _ _ => hNext

theorem indifferent_report
    {e : Event}
    {next : Unit → HeapM β}
    (hNext : Indifferent l l' (next ()) last) :
    Indifferent l l' (Activity.emit e >>= next) last :=
  indifferent_bind (indifferent_emit e) fun _ _ => hNext

theorem indifferent_computed
    {work : Except Fault α}
    {next : α → HeapM β}
    (hNext :
      ∀ a, work = .ok a → Indifferent l l' (next a) last) :
    Indifferent l l' (liftM work >>= next) last :=
  indifferent_bind (indifferent_lift fun _ hRun => hRun) hNext

/- Work on each member of a list. -/
theorem indifferent_forM
    {work : α → HeapM Unit}
    {xs : List α}
    (hWork :
      ∀ x ∈ xs, Indifferent l l' (work x) fun _ => True) :
    Indifferent l l' (xs.forM work) fun _ => True := by
  induction xs with
  | nil => exact indifferent_done _
  | cons x xs ih =>
      exact
        indifferent_bind (hWork x List.mem_cons_self) fun _ _ =>
          ih fun y hy => hWork y (List.mem_cons_of_mem _ hy)

------------------------------------------------------------
-- Publishing
------------------------------------------------------------

/- The ends of regions are computed whatever the log keeps. -/
theorem indifferent_reportRegions
    (regions : List MemoryRegion) :
    Indifferent l l' (HeapInfo.reportRegions regions)
      fun _ => True := by
  induction regions with
  | nil => exact indifferent_done _
  | cons r rs ih =>
      exact indifferent_computed fun _ _ => indifferent_report ih

/- Regions that end at addresses are reported without a fault. -/
theorem reportRegions_ok
    {regions : List MemoryRegion}
    (hEnds : ∀ r ∈ regions, r.start + r.size < Word.limit)
    (r : HeapRun)
    (log : Log) :
    ∃ log',
      HeapInfo.reportRegions regions ⟨r, log⟩ =
          (.ok (), ⟨r, log'⟩) ∧
        log'.level = log.level := by
  induction regions generalizing log with
  | nil => exact ⟨log, rfl, rfl⟩
  | cons first rest ih =>
      have hStop :
          first.stop = .ok (first.start + first.size) :=
        if_pos (hEnds first List.mem_cons_self)
      have hRest :
          ∀ r ∈ rest, r.start + r.size < Word.limit :=
        fun r hr => hEnds r (List.mem_cons_of_mem _ hr)
      rcases ih hRest
          (log.add (.regionRegistered first.description
            ⟨first.start, first.start + first.size⟩)) with
        ⟨log', hRun, hLevel⟩
      refine ⟨log', ?_, hLevel.trans (Log.level_add _ _)⟩
      unfold HeapInfo.reportRegions
      rw [hStop]
      exact hRun

/- Report the ends of regions, if debugging events are kept. -/
def reportKept (regions : List MemoryRegion) : HeapM Unit := do
  if ← Activity.keeps .debug then HeapInfo.reportRegions regions

/- What is kept decides whether the ends are computed. -/
theorem run_reportKept
    (regions : List MemoryRegion)
    (r : HeapRun)
    (log : Log) :
    reportKept regions ⟨r, log⟩ =
      if log.keeps .debug then
        HeapInfo.reportRegions regions ⟨r, log⟩
      else (.ok (), ⟨r, log⟩) := by
  have hRun :
      reportKept regions ⟨r, log⟩ =
        (if log.keeps .debug then HeapInfo.reportRegions regions
          else pure () : HeapM Unit) ⟨r, log⟩ :=
    rfl
  rw [hRun]
  split <;> rfl

/- More work after that is more work in either case. -/
theorem reportKept_bind
    (regions : List MemoryRegion)
    (next : HeapM α) :
    (do
      if ← Activity.keeps .debug then
        HeapInfo.reportRegions regions
      next) =
      reportKept regions >>= fun _ => next := by
  funext ⟨r, log⟩
  rw [Activity.run_bind, Activity.run_bind, run_reportKept]
  change
    (if log.keeps .debug then _ else _ : HeapM α) ⟨r, log⟩ = _
  cases log.keeps .debug with
  | false => rfl
  | true => exact Activity.run_bind _ _ _

/-
  Deciding so makes no difference where both logs decide alike,
  and none where all regions end at addresses.
-/
theorem indifferent_reportKept
    {regions : List MemoryRegion}
    (hEnds :
      ∀ r ∈ regions, Addressable l l' (r.start + r.size)) :
    Indifferent l l' (reportKept regions) fun _ => True := by
  rintro ⟨r, log⟩ ⟨_, log'⟩ ⟨⟨⟩, rfl, rfl, hReport⟩
  rw [run_reportKept, run_reportKept]
  by_cases hAgree : Log.AgreeOnDebug log.level log'.level
  · have hKeeps : log.keeps .debug = log'.keeps .debug := hAgree
    rw [← hKeeps]
    split
    · exact
        indifferent_reportRegions regions _ _
          ⟨rfl, rfl, rfl, hReport⟩
    · exact
        ⟨rfl, ⟨rfl, rfl, rfl, hReport⟩, fun _ _ => trivial⟩
  · have hQuiet
        (log : Log) :
        ∃ after,
          (if log.keeps .debug then
              HeapInfo.reportRegions regions ⟨r, log⟩
            else (.ok (), ⟨r, log⟩)) =
            (.ok (), ⟨r, after⟩) ∧
          after.level = log.level := by
      split
      · refine reportRegions_ok (fun region hMem => ?_) r log
        exact (hEnds region hMem).resolve_left hAgree
      · exact ⟨log, rfl, rfl⟩
    rcases hQuiet log with ⟨after, hRun, hLevel⟩
    rcases hQuiet log' with ⟨after', hRun', hLevel'⟩
    rw [hRun, hRun']
    exact
      ⟨rfl, ⟨rfl, hLevel, hLevel', hReport⟩, fun _ _ => trivial⟩

/- Records are written whatever the log keeps. -/
theorem indifferent_writeRecords
    (k : Nat)
    (regions : List MemoryRegion) :
    Indifferent l l'
      (HeapInfo.writeRecords updateInfo k regions)
      fun _ => True := by
  induction regions generalizing k with
  | nil => exact indifferent_done _
  | cons r rs ih =>
      exact
        indifferent_write (fun _ hHeap => hHeap.aside rfl rfl)
          (ih (k + 1))

theorem indifferent_register
    {regions : List MemoryRegion}
    (hEnds :
      ∀ r ∈ regions, Addressable l l' (r.start + r.size)) :
    Indifferent l l' (HeapInfo.register updateInfo regions)
      fun _ => True := by
  have hShow :
      Indifferent l l' (HeapInfo.present updateInfo regions)
        fun _ => True := by
    unfold HeapInfo.present
    refine indifferent_write (fun _ hHeap => hHeap.aside rfl rfl) ?_
    refine indifferent_bind
      (indifferent_writeRecords _ _) fun _ _ => ?_
    refine indifferent_write (fun _ hHeap => hHeap.aside rfl rfl) ?_
    rw [reportKept_bind]
    refine indifferent_bind
      (indifferent_reportKept hEnds) fun _ _ => ?_
    exact indifferent_update fun _ hHeap => hHeap.aside rfl rfl
  rcases HeapInfo.register_cases updateInfo regions with
    hQuiet | hWarned
  · rw [hQuiet]
    exact hShow
  · rw [hWarned]
    exact indifferent_report hShow

/- The belts are reported whatever the log keeps of it. -/
theorem indifferent_reportBelts :
    Indifferent l l' reportBelts fun _ => True := by
  refine indifferent_read fun h _ => ?_
  refine indifferent_forM fun b _ => ?_
  exact indifferent_computed fun _ _ => indifferent_emit _

/- The regions of a heap are published. -/
theorem indifferent_publishRegions :
    Indifferent l l' publishRegions fun _ => True := by
  unfold publishRegions
  refine indifferent_read fun h hHeap => ?_
  refine indifferent_computed fun regions hRegions => ?_
  exact
    indifferent_bind
      (indifferent_register (hHeap.allRegions hRegions))
      fun _ _ => indifferent_reportBelts

/- Regions of the runtime that end at addresses are published. -/
theorem indifferent_registerRegions
    {regions : List MemoryRegion}
    (hEnds :
      ∀ r ∈ regions, Addressable l l' (r.start + r.size)) :
    Indifferent l l' (registerRegions regions) fun _ => True :=
  indifferent_write (fun _ hHeap => ⟨hHeap.belts, hEnds⟩)
    indifferent_publishRegions

end HeapM

end BeltHeap
