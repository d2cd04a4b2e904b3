import BeltHeap.Heap.Collecting
import BeltHeap.Proofs.Carrying
import BeltHeap.Proofs.Records
import BeltHeap.Proofs.Soundness

/-
  Publishing a heap and counting its epochs change what is known
  about the heap but none of its objects.

  Main declarations:
    * `Heap.SameObjects`
    * `Heap.SameObjects.sound`, `Heap.SameObjects.carries`
    * `Heap.regionsOf`, `Heap.Republished`
    * `HeapM.yields_register`
    * `HeapM.yields_publishRegions`
-/

------------------------------------------------------------
-- Heaps with the Same Objects
------------------------------------------------------------

namespace BeltHeap

namespace Heap

/- Two heaps have the same memory, belts, tables and roots. -/
structure SameObjects (h g : Heap) : Prop where
  layout : g.layout = h.layout
  memory : g.memory = h.memory
  cards : g.cards = h.cards
  firstObjects : g.firstObjects = h.firstObjects
  roots : g.roots = h.roots
  registers : g.registers = h.registers
  runtimeRegions : g.runtimeRegions = h.runtimeRegions

namespace SameObjects

variable {rt : Runtime}
variable {h g : Heap}
variable {nursery mature : Belt}
variable {old young : List Nat}

/- Every heap has its own objects. -/
theorem refl : SameObjects h h :=
  ⟨rfl, rfl, rfl, rfl, rfl, rfl, rfl⟩

/- A heap with the objects of a sound one is sound. -/
theorem sound
    (hSame : SameObjects h g)
    (hSound : Sound rt h nursery mature old young) :
    Sound rt g nursery mature old young :=
  hSound.frame hSame.layout hSame.memory hSame.cards
    hSame.firstObjects hSame.roots hSame.registers
    hSame.runtimeRegions

/- The graph of objects is the same. -/
theorem carries
    (hSame : SameObjects h g) :
    Carries rt id h g :=
  Carries.of_eq hSame.memory hSame.roots hSame.registers

end SameObjects

end Heap

------------------------------------------------------------
-- Regions of a Pair of Belts
------------------------------------------------------------

/- A belt as a region, described by a role. -/
def Belt.region
    (b : Belt)
    (role : Nat) : MemoryRegion :=
  ⟨Role.description role, b.start, b.size⟩

/- The belts of a pair as regions, in address order. -/
def Layout.pairRegions
    (nursery mature : Belt) : List MemoryRegion :=
  if nursery.index = 0 then
    [nursery.region Role.nursery, mature.region Role.mature]
  else [mature.region Role.mature, nursery.region Role.nursery]

/- The regions of a pair are those of its two belts. -/
theorem Layout.mem_pairRegions
    {nursery mature : Belt}
    {r : MemoryRegion} :
    r ∈ pairRegions nursery mature ↔
      r = nursery.region Role.nursery ∨
        r = mature.region Role.mature := by
  unfold pairRegions
  split <;> simp [or_comm]

/- The regions of a heap with a pair of belts. -/
def Heap.regionsOf
    (h : Heap)
    (nursery mature : Belt) : List MemoryRegion :=
  Layout.pairRegions nursery mature ++ h.runtimeRegions

/-
  The regions of a heap were published.  What else is told about
  the heap did not change, nor did its place, its settings, its
  memory or its roots.
-/
structure Heap.Republished
    (h g : Heap)
    (nursery mature : Belt) : Prop where
  info :
    g.info = h.info.published (g.regionsOf nursery mature)
  stats : g.stats = h.stats
  roots : g.roots = h.roots
  config : g.config = h.config
  place : g.layout.heap = h.layout.heap
  memory : g.memory = h.memory
  registers : g.registers = h.registers

------------------------------------------------------------
-- Published Information
------------------------------------------------------------

namespace HeapM

variable {h : Heap}
variable {nursery mature : Belt}

/- The heap with other published information. -/
theorem sameObjects_info
    (i : HeapInfo) :
    Heap.SameObjects h { h with info := i } :=
  ⟨rfl, rfl, rfl, rfl, rfl, rfl, rfl⟩

/- Records are written one after the other. -/
theorem yields_writeRecords
    (k : Nat)
    (regions : List MemoryRegion) :
    Yields (HeapInfo.writeRecords updateInfo k regions) h
      (.ok ())
      (h.mapInfo fun i =>
        { i with
          records := HeapInfo.recorded k regions i.records }) := by
  induction regions generalizing k h with
  | nil => exact yields_pure ()
  | cons r rs ih =>
      exact
        yields_write (ih (h := h.mapInfo (HeapInfo.writeRecord k r))
          (k + 1))

/- The ends of regions are reported where all are words. -/
theorem yields_reportRegions
    {regions : List MemoryRegion}
    (hEnds : ∀ r ∈ regions, r.start + r.size < Word.limit) :
    Yields (HeapInfo.reportRegions regions) h (.ok ()) h := by
  induction regions with
  | nil => exact yields_pure ()
  | cons r rs ih =>
      have hStop : r.stop = .ok (r.start + r.size) :=
        if_pos (hEnds r (List.mem_cons_self ..))
      refine yields_computed hStop ?_
      refine yields_report rfl ?_
      exact ih fun q hq => hEnds q (List.mem_cons_of_mem _ hq)

/- Registered regions are published. -/
theorem yields_register
    {regions : List MemoryRegion}
    (hEnds : ∀ r ∈ regions, r.start + r.size < Word.limit) :
    Yields (HeapInfo.register updateInfo regions) h (.ok ())
      (h.mapInfo (HeapInfo.published regions)) := by
  have hShow :
      Yields (HeapInfo.present updateInfo regions) h (.ok ())
        (h.mapInfo (HeapInfo.published regions)) := by
    apply yields_write
    refine yields_bind (yields_writeRecords 0 _) ?_
    apply yields_write
    apply yields_keeps
    intro kept
    cases kept with
    | false => exact yields_update _
    | true =>
        exact
          yields_bind (yields_reportRegions hEnds)
            (yields_update _)
  rcases HeapInfo.register_cases updateInfo regions with
    hQuiet | hWarned
  · rw [hQuiet]
    exact hShow
  · rw [hWarned]
    exact yields_report rfl hShow

------------------------------------------------------------
-- Publishing Belts
------------------------------------------------------------

/- A belt of a pair is described by the role that it plays. -/
theorem beltRegion_of_pair
    (hShape : Heap.Shape h nursery mature) :
    h.beltRegion nursery = .ok (nursery.region Role.nursery) ∧
      h.beltRegion mature = .ok (mature.region Role.mature) := by
  unfold Heap.beltRegion
  rw [hShape.layout, Layout.roleOf_nursery,
    Layout.roleOf_mature hShape.fits]
  exact ⟨rfl, rfl⟩

/- The regions of a heap are those of its belts and runtime. -/
theorem allRegions_of_pair
    (hShape : Heap.Shape h nursery mature) :
    h.allRegions = .ok (h.regionsOf nursery mature) := by
  rcases beltRegion_of_pair hShape with ⟨hNursery, hMature⟩
  unfold Heap.allRegions Heap.beltRegions Heap.regionsOf
  rw [hShape.layout]
  unfold Layout.pair Layout.pairRegions
  dsimp only
  split
  · rw [List.mapM_cons, List.mapM_cons, hNursery, hMature]
    rfl
  · rw [List.mapM_cons, List.mapM_cons, hNursery, hMature]
    rfl

/- All regions of a heap end at words. -/
theorem regionsOf_ends
    (hShape : Heap.Shape h nursery mature) :
    ∀ r ∈ h.regionsOf nursery mature,
      r.start + r.size < Word.limit := by
  have hBounds := hShape.fits.bounds
  have hNursery := hShape.fits.nurseryMark
  have hMature := hShape.fits.matureMark
  intro r hr
  rcases List.mem_append.mp hr with hBelt | hOther
  · rcases Layout.mem_pairRegions.mp hBelt with rfl | rfl <;>
      unfold Belt.region Belt.size <;> dsimp only <;> omega
  · exact hShape.regions r hOther

/- The belts are reported. -/
theorem yields_reportBelts
    (hShape : Heap.Shape h nursery mature) :
    Yields reportBelts h (.ok ()) h := by
  have hFold :
      h.layout.belts.toList.foldl (fun g _ => g) h = h := by
    induction h.layout.belts.toList with
    | nil => rfl
    | cons b bs ih => exact ih
  unfold reportBelts
  apply yields_read
  have hEach :
      Yields
        (h.layout.belts.toList.forM fun b => do
          let role ← h.layout.roleOf b
          b.report (Role.description role))
        h (.ok ())
        (h.layout.belts.toList.foldl (fun g _ => g) h) :=
    yields_forM
      (fun _ bs => ∀ b ∈ bs, b ∈ h.layout.belts)
      (by
        intro g b bs hBelts
        refine ⟨?_, fun c hc =>
          hBelts c (List.mem_cons_of_mem _ hc)⟩
        have hBelt := hBelts b (List.mem_cons_self ..)
        rw [hShape.layout] at hBelt
        rcases Layout.roleOf_pair hShape.fits hBelt with
          ⟨role, hRole⟩
        rw [← hShape.layout] at hRole
        exact yields_computed hRole (yields_emit rfl))
      h.layout.belts.toList
      (fun b hb => Array.mem_toList_iff.mp hb)
  rw [hFold] at hEach
  exact hEach

/- The regions of the heap are published. -/
theorem yields_publishRegions
    (hShape : Heap.Shape h nursery mature) :
    Yields publishRegions h (.ok ())
      (h.mapInfo
        (HeapInfo.published (h.regionsOf nursery mature))) := by
  have hShape' :
      Heap.Shape
        (h.mapInfo
          (HeapInfo.published (h.regionsOf nursery mature)))
        nursery mature :=
    ⟨hShape.layout, hShape.fits, hShape.cards, hShape.starts,
      hShape.sameCards, hShape.regions⟩
  unfold publishRegions
  apply yields_read
  refine yields_computed (allRegions_of_pair hShape) ?_
  exact
    yields_bind (yields_register (regionsOf_ends hShape))
      (yields_reportBelts hShape')

------------------------------------------------------------
-- Epochs
------------------------------------------------------------

/- A collection epoch begins. -/
theorem yields_beginEpoch :
    Yields beginEpoch h (.ok (h.info.epochs.collection + 1))
      (h.mapEpochs Epochs.begun) := by
  have hLook :
      Yields
        (Activity.reading fun r : HeapRun =>
          r.heap.info.epochs.collection)
        (h.mapEpochs Epochs.begun)
        (.ok (h.info.epochs.collection + 1))
        (h.mapEpochs Epochs.begun) :=
    yields_reading fun h => h.info.epochs.collection
  unfold beginEpoch Epochs.begin
  apply yields_write
  refine yields_bind hLook ?_
  refine yields_report rfl ?_
  exact yields_pure _

/- The collection epoch ends. -/
theorem yields_finishEpoch :
    Yields finishEpoch h (.ok ()) (h.mapEpochs Epochs.ended) := by
  have hLook :
      Yields
        (Activity.reading fun r : HeapRun =>
          r.heap.info.epochs.collection)
        (h.mapEpochs Epochs.ended)
        (.ok h.info.epochs.collection)
        (h.mapEpochs Epochs.ended) :=
    yields_reading fun h => h.info.epochs.collection
  unfold finishEpoch Epochs.finish
  apply yields_write
  exact yields_bind hLook (yields_emit rfl)

end HeapM

end BeltHeap
