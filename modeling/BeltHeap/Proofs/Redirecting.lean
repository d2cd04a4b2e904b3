import BeltHeap.Proofs.Reclaiming
import BeltHeap.Proofs.Vacating

/-
  What the references of mature objects hold after a collection,
  those of dead objects included: null or another mature object.
  Each of them was redirected to where its object went, so that
  none is left that refers into the nursery or to the place an
  object had before.

  Main declarations:
    * `Heap.KeepsToMature`
    * `Heap.Redirects`
    * `Heap.Pass.redirects`
    * `HeapM.Begins.redirects`
    * `Program.collections_redirect_mature`
-/

------------------------------------------------------------
-- References Among Mature Objects
------------------------------------------------------------

namespace BeltHeap

namespace Heap

/-
  Some objects are all those of the mature belt, live or dead,
  and their slots refer to none but each other: an address in a
  slot is the start of one of them, in the used part of the
  mature belt and outside the nursery.
-/
structure KeepsToMature
    (rt : Runtime)
    (h : Heap)
    (objects : List Nat) : Prop where
  whole : h.MatureObjects objects
  slots :
    ∀ object ∈ objects, ∀ a ∈ rt.fields h.memory object,
      h.memory.load a = 0 ∨
        h.memory.load a ∈ objects ∧
          h.InUsedMature (h.memory.load a) ∧
          h.nursery.contains (h.memory.load a) = false

/-
  A collection of some kind has made the mature belt of a heap
  out of objects that it had before.  The map says where they
  went, and they were carried over with their references, which
  had referred to each other only.  They are at least those that
  were reachable, and in a minor collection also all that were
  mature, none of which moves.  The nursery is left empty.
-/
structure Redirects
    (rt : Runtime)
    (h g : Heap)
    (kind : Collection.Kind)
    (origins : List Nat)
    (f : Nat → Nat) : Prop where
  wellFormed : ∀ o ∈ origins, h.isWellFormed o = true
  reachable : ∀ o, Reachable rt h o → o ∈ origins
  stay :
    kind = .minor →
      ∀ o, h.IsMature o → o ∈ origins ∧ f o = o
  referents :
    ∀ o ∈ origins, ∀ a ∈ rt.fields h.memory o,
      h.memory.load a = 0 ∨ h.memory.load a ∈ origins
  null : f 0 = 0
  injective :
    ∀ o ∈ origins, ∀ p ∈ origins, f o = f p → o = p
  carried :
    ∀ o ∈ origins, Object.Carried h.memory o g.memory f
  mature : KeepsToMature rt g (origins.map f)
  empty : g.nursery.isEmpty = true

variable {rt : Runtime}
variable {h g : Heap}
variable {nursery mature nursery' mature' : Belt}
variable {old young found : List Nat}
variable {kind : Collection.Kind}
variable {moves : List Collection.Move}
variable {start : Nat}
variable {table : FirstObjects}

/-
  With no objects in the nursery of a sound heap, all references
  are among the mature ones.
-/
theorem Sound.keepsToMature
    (hStandard : rt.Standard)
    (hSound : Sound rt h nursery mature old []) :
    KeepsToMature rt h old := by
  refine ⟨hSound.matureObjects, ?_⟩
  intro object hObject a hField
  rw [hStandard.fields] at hField
  have hMember : object ∈ old ++ [] :=
    List.mem_append_left _ hObject
  refine (hSound.fields object hMember a hField).imp_right ?_
  intro hRef
  have hOld : h.memory.load a ∈ old := by
    rwa [List.append_nil] at hRef
  rcases hSound.mem_old hOld with ⟨hProper, hLow, hHigh⟩
  have hHeader := hProper.header_le
  refine ⟨hOld, ?_, ?_⟩
  · unfold InUsedMature
    rw [hSound.shape.mature_eq]
    omega
  · rw [hSound.shape.nursery_eq, Bool.eq_false_iff, Ne,
      hSound.nursery_contains_iff hRef]
    exact List.not_mem_nil

/- A pass redirects the references of what it keeps and moves. -/
theorem Pass.redirects
    (hPass :
      Pass rt h g nursery mature nursery' mature' old young kind
        found moves start table) :
    Redirects rt h g kind (Collection.kept kind old ++ found)
      (Collection.forward moves) := by
  have hMove := hPass.relocation
  have hAfter := hPass.sound
  have hMembers :
      ∀ o ∈ Collection.kept kind old ++ found,
        o ∈ old ++ young :=
    fun _ ho => hMove.survey.members ho
  constructor
  · exact fun o ho => hMove.sound.isWellFormed (hMembers o ho)
  · exact fun o ho =>
      hMove.survey.mem_of_reachable hMove.standard ho
  · rintro rfl o hMature
    have hKept : o ∈ Collection.kept .minor old :=
      hMove.sound.isMature_iff.mp hMature
    exact
      ⟨List.mem_append_left _ hKept,
        hMove.forward_of_not_found
          (hMove.survey.not_mem_found hKept)⟩
  · intro o ho a hField
    rw [hMove.standard.fields] at hField
    exact hMove.survey.fields o ho a hField
  · exact hMove.forward_null
  · -- no object of the sound heap after it is listed twice
    have hNodup := (List.nodup_append.mp hAfter.nodup).1
    exact fun o ho p hp hEq =>
      List.inj_on_of_nodup_map hNodup ho hp hEq
  · exact fun o ho => hPass.settled.carried hMove ho
  · exact hAfter.keepsToMature hMove.standard
  · rw [hAfter.shape.nursery_eq]
    exact hAfter.isEmpty_nursery

end Heap

------------------------------------------------------------
-- Passes of Collections
------------------------------------------------------------

namespace HeapM

open Heap

/-
  What becomes of mature references in a pass that starts from a
  state in the course of a collection: the pass returns, and it
  either has failed and changed nothing or has redirected them.
-/
def RedirectsMature
    (rt : Runtime)
    (begun : Logged HeapRun)
    (kind : Collection.Kind) : Prop :=
  ∃ answer t,
    runCollection rt kind begun = (.ok answer, t) ∧
      match answer with
      | .error _ => t.state.heap = begun.state.heap
      | .ok _ =>
          ∃ origins f,
            Redirects rt begun.state.heap t.state.heap kind
              origins f

variable {rt : Runtime}
variable {r begun : Logged HeapRun}
variable {nursery mature : Belt}
variable {old young : List Nat}
variable {kind : Collection.Kind}

/- Every pass that a collection of a sound heap comes to does. -/
theorem Begins.redirects
    (hStandard : rt.Standard)
    (hSound : Sound rt r.state.heap nursery mature old young)
    (hBegins : Begins rt r kind begun) :
    RedirectsMature rt begun kind := by
  rcases hBegins.sound hStandard hSound with
    ⟨_, _, _, _, hBegun, hAllowed⟩
  rcases yields_runCollection kind hStandard hBegun hAllowed
    with
    ⟨_, _, hRun, -⟩ | ⟨g, _, _, _, _, _, _, hRun, hPass⟩
  · rcases hRun begun rfl with ⟨t, hEnd, hSame, -⟩
    exact ⟨_, t, hEnd, hSame⟩
  · rcases hRun begun rfl with ⟨t, hEnd, rfl, -⟩
    exact ⟨_, t, hEnd, _, _, hPass.redirects⟩

/-
  A minor pass succeeds where the mature belt has room for all of
  the nursery.
-/
theorem Begins.succeeds_of_room
    (hStandard : rt.Standard)
    (hSound : Sound rt r.state.heap nursery mature old young)
    (hRoom : nursery.used ≤ mature.remaining)
    (hBegins : Begins rt r .minor begun) :
    ∃ summary t,
      runCollection rt .minor begun = (.ok (.ok summary), t) := by
  have hCounted := (hSound.counted hStandard countMinor).sound
  rw [← hBegins.heap_minor.2] at hCounted
  rcases yields_runCollection .minor hStandard hCounted nofun
    with
    ⟨_, _, -, hShort⟩ | ⟨_, _, _, _, _, _, _, hRun, -⟩
  · exact absurd hShort (hCounted.not_short_minor hRoom)
  · rcases hRun begun rfl with ⟨t, hEnd, -⟩
    exact ⟨_, t, hEnd⟩

/-
  A whole collection returns.  Where it answers that there is
  room, the nursery is empty, and wherever that is so, mature
  objects refer to each other only.
-/
theorem keepsToMature_of_collectGarbage
    (hStandard : rt.Standard)
    (hSound : Sound rt r.state.heap nursery mature old young)
    (hLong : r.state.heap.AsLongAsConfigured)
    (bytes : Nat) :
    ∃ success t,
      collectGarbage rt bytes r = (.ok success, t) ∧
        (success = true →
          t.state.heap.nursery.isEmpty = true) ∧
        (t.state.heap.nursery.isEmpty = true →
          ∃ objects, KeepsToMature rt t.state.heap objects) := by
  rcases yields_collects bytes hStandard hSound with
    ⟨success, g, nursery', mature', old', young', hRun,
      hCollects⟩
  have hAfter := (hCollects.follows hStandard hSound).1.sound
  rcases hRun r rfl with ⟨t, hEnd, rfl, -⟩
  refine ⟨success, t, hEnd, ?_, ?_⟩
  · rintro rfl
    rw [hAfter.shape.nursery_eq]
    exact (hCollects.vacates hStandard hSound hLong).1
  · intro hEmpty
    rw [hAfter.shape.nursery_eq] at hEmpty
    rw [hAfter.young_eq_nil hEmpty] at hAfter
    exact ⟨old', hAfter.keepsToMature hStandard⟩

end HeapM

------------------------------------------------------------
-- Collections of Programs
------------------------------------------------------------

namespace Program

open Heap

variable {rt : Runtime}
variable {s : State}

/-
  In any heap that a program reaches, every minor, full-heap or
  major pass that succeeds redirects the references of all
  mature objects, and at the end of a whole collection that made
  room they refer to mature objects only.
-/
theorem collections_redirect_mature
    (hReached : Reached rt s)
    {r : Logged HeapRun}
    (hHeap : r.state.heap = s.heap) :
    (∀ kind begun, HeapM.Begins rt r kind begun →
      HeapM.RedirectsMature rt begun kind) ∧
    ∀ bytes, ∃ success t,
      HeapM.collectGarbage rt bytes r = (.ok success, t) ∧
        (success = true →
          t.state.heap.nursery.isEmpty = true) ∧
        (t.state.heap.nursery.isEmpty = true →
          ∃ objects, KeepsToMature rt t.state.heap objects) := by
  have hStandard := hReached.standard
  have hLong := hReached.asLongAsConfigured
  rcases hReached.invariant with
    ⟨nursery, mature, old, young, hSound, -⟩
  rw [← hHeap] at hLong hSound
  exact
    ⟨fun _ _ hBegins => hBegins.redirects hStandard hSound,
      HeapM.keepsToMature_of_collectGarbage hStandard hSound
        hLong⟩

/-
  The minor pass of the small heap, whose mature object refers
  into the nursery, redirects that reference.
-/
theorem collections_redirect_mature_small :
    ∃ begun summary t origins f,
      HeapM.Begins {} small.run .minor begun ∧
        HeapM.runCollection {} .minor begun =
          (.ok (.ok summary), t) ∧
        Redirects {} begun.state.heap t.state.heap .minor
          origins f := by
  rcases HeapM.yields_openMinor small.run rfl with
    ⟨begun, hOpen, -⟩
  have hBegins : HeapM.Begins {} small.run .minor begun :=
    .minor (by decide +kernel) hOpen
  rcases reached_small.invariant with
    ⟨nursery, mature, old, young, hSound, -⟩
  have hRoom : nursery.used ≤ mature.remaining := by
    have hBelts :
        small.heap.nursery.used ≤ small.heap.mature.remaining := by
      decide +kernel
    rwa [hSound.shape.nursery_eq, hSound.shape.mature_eq]
      at hBelts
  rcases hBegins.succeeds_of_room standard_default hSound hRoom
    with ⟨summary, t, hRun⟩
  rcases (collections_redirect_mature reached_small
      (r := small.run) rfl).1 _ _ hBegins with
    ⟨answer, _, hAgain, hAnswer⟩
  rw [hRun] at hAgain
  cases hAgain
  rcases hAnswer with ⟨origins, f, hRedirects⟩
  exact
    ⟨begun, summary, t, origins, f, hBegins, hRun, hRedirects⟩

end Program

end BeltHeap
