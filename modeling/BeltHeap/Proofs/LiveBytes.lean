import BeltHeap.Proofs.Collecting

/-
  How many bytes the reachable objects of a heap take up.  A
  collection of the mature belt, or of the whole heap, finds
  exactly these, and no collection changes how many they are.

  Main declarations:
    * `Heap.LiveBytes`
    * `Heap.LiveBytes.unique`
    * `Heap.Sound.exists_liveBytes`
    * `Heap.Carries.liveBytes`
    * `Heap.Survey.liveBytes`
-/

------------------------------------------------------------
-- Live Bytes
------------------------------------------------------------

namespace BeltHeap

namespace Heap

/- The sizes of all reachable objects add up to `bytes`. -/
def LiveBytes
    (rt : Runtime)
    (h : Heap)
    (bytes : Nat) : Prop :=
  ∃ live : List Nat, live.Nodup ∧
    (∀ o, o ∈ live ↔ Reachable rt h o) ∧
      total (live.map (Object.size h.memory)) = bytes

variable {rt : Runtime}
variable {h g : Heap}
variable {nursery mature nursery' mature' : Belt}
variable {old young old' young' found objects : List Nat}
variable {kind : Collection.Kind}
variable {bytes other size : Nat}
variable {success : Bool}

namespace LiveBytes

/- Different reachable objects take up no more bytes. -/
theorem ge
    (hLive : LiveBytes rt h bytes)
    (hNodup : objects.Nodup)
    (hReachable : ∀ o ∈ objects, Reachable rt h o) :
    total (objects.map (Object.size h.memory)) ≤ bytes := by
  rcases hLive with ⟨live, -, hMem, rfl⟩
  exact
    Collection.total_le_of_subset _ hNodup fun o ho =>
      (hMem o).mpr (hReachable o ho)

/- Objects with all the reachable ones take up no fewer. -/
theorem le
    (hLive : LiveBytes rt h bytes)
    (hAll : ∀ o, Reachable rt h o → o ∈ objects) :
    bytes ≤ total (objects.map (Object.size h.memory)) := by
  rcases hLive with ⟨live, hNodup, hMem, rfl⟩
  exact
    Collection.total_le_of_subset _ hNodup fun o ho =>
      hAll o ((hMem o).mp ho)

theorem unique
    (hLive : LiveBytes rt h bytes)
    (hOther : LiveBytes rt h other) :
    bytes = other := by
  rcases hLive with ⟨live, hNodup, hMem, rfl⟩
  exact
    Nat.le_antisymm
      (hOther.ge hNodup fun o ho => (hMem o).mp ho)
      (hOther.le fun o ho => (hMem o).mpr ho)

end LiveBytes

------------------------------------------------------------
-- Live Bytes of Collections
------------------------------------------------------------

/-
  Whatever survives a collection that condemns the whole mature
  belt is reachable from the root slots.
-/
theorem Survives.reachable
    (hKind : kind ≠ .minor)
    {object : Nat}
    (hSurvives : Survives rt h nursery mature kind old object) :
    Reachable rt h object := by
  have hSlots : h.startSlots rt kind old = h.rootSlots rt := by
    unfold startSlots rememberedFor
    rw [if_neg hKind]
    exact List.append_nil _
  unfold Survives at hSurvives
  rw [hSlots] at hSurvives
  induction hSurvives with
  | seed hSeed hNull _ =>
      rcases List.mem_map.mp hSeed with ⟨s, hSlot, rfl⟩
      exact .root hSlot hNull
  | step _ hRef hNull _ ih =>
      rcases List.mem_map.mp hRef with ⟨a, hField, rfl⟩
      exact .field ih hField hNull

theorem Survey.liveBytes
    {slots : List Slot}
    (hStandard : rt.Standard)
    (hKind : kind ≠ .minor)
    (hSurvey : Survey rt h old young kind found slots)
    (hFound :
      ∀ o, o ∈ found ↔ Survives rt h nursery mature kind old o) :
    LiveBytes rt h (Collection.liveBytes (h.sized found)) := by
  have hKept : Collection.kept kind old = [] := by
    cases kind with
    | minor => exact absurd rfl hKind
    | major => rfl
    | fullHeap => rfl
  have hNodup := hSurvey.nodup
  rw [hKept] at hNodup
  refine ⟨found, hNodup, fun o => ⟨?_, ?_⟩, ?_⟩
  · exact fun ho => ((hFound o).mp ho).reachable hKind
  · intro ho
    have hMem := hSurvey.mem_of_reachable hStandard ho
    rw [hKept] at hMem
    exact hMem
  · exact liveBytes_sized.symm

/- Every sound heap has a number of live bytes. -/
theorem Sound.exists_liveBytes
    (hStandard : rt.Standard)
    (hSound : Sound rt h nursery mature old young) :
    ∃ bytes, LiveBytes rt h bytes := by
  rcases Sound.placed_spec rt h nursery mature .fullHeap old with
    ⟨found, hPlaced, hNodup, hFound⟩
  have hAllowed : Collection.Allowed .fullHeap young :=
    fun hKind => nomatch hKind
  have hSurvey :=
    hSound.survey hStandard hAllowed hPlaced hNodup hFound
  exact ⟨_, hSurvey.liveBytes hStandard (by decide) hFound⟩

/- Carrying the graph over does not change the live bytes. -/
theorem Carries.liveBytes
    {f : Nat → Nat}
    (hStandard : rt.Standard)
    (hCarries : Carries rt f h g)
    (hLive : LiveBytes rt h bytes) :
    LiveBytes rt g bytes := by
  rcases hLive with ⟨live, hNodup, hMem, rfl⟩
  refine ⟨live.map f, ?_, fun o => ?_, ?_⟩
  · refine List.Nodup.map_on ?_ hNodup
    intro o ho p hp hEq
    exact
      hCarries.injective o p ((hMem o).mp ho) ((hMem p).mp hp)
        hEq
  · rw [List.mem_map]
    constructor
    · rintro ⟨p, hp, rfl⟩
      exact hCarries.reachable_image hStandard ((hMem p).mp hp)
    · intro ho
      rcases hCarries.reachable_preimage hStandard ho with
        ⟨p, hp, rfl⟩
      exact ⟨p, (hMem p).mpr hp, rfl⟩
  · have hSizes :
        (live.map f).map (Object.size g.memory) =
          live.map (Object.size h.memory) := by
      rw [List.map_map]
      apply List.map_congr_left
      intro o ho
      exact (hCarries.objects o ((hMem o).mp ho)).size
    rw [hSizes]

theorem SameObjects.liveBytes
    (hStandard : rt.Standard)
    (hSame : SameObjects h g)
    (hLive : LiveBytes rt h bytes) :
    LiveBytes rt g bytes :=
  hSame.carries.liveBytes hStandard hLive

theorem Follows.liveBytes
    (hStandard : rt.Standard)
    (hFollows : Follows rt h g nursery mature old young)
    (hLive : LiveBytes rt h bytes) :
    LiveBytes rt g bytes := by
  rcases hFollows.carries with ⟨f, hCarries⟩
  exact hCarries.liveBytes hStandard hLive

/-
  Survivors of a minor collection and the mature objects are at
  least the live ones.
-/
theorem Survey.liveBytes_minor
    {slots : List Slot}
    (hStandard : rt.Standard)
    (hSound : Sound rt h nursery mature old young)
    (hSurvey : Survey rt h old young .minor found slots)
    (hLive : LiveBytes rt h bytes) :
    bytes ≤
      mature.used + Collection.liveBytes (h.sized found) := by
  have hLe :=
    hLive.le fun o ho => hSurvey.mem_of_reachable hStandard ho
  have hOld := Collection.total_tiles hSound.oldTiles
  change
    bytes ≤ total ((old ++ found).map (Object.size h.memory))
    at hLe
  rw [List.map_append, total_append] at hLe
  rw [liveBytes_sized]
  unfold Belt.used
  omega

end Heap

end BeltHeap
