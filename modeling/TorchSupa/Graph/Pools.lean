import TorchSupa.Graph.World
import TorchSupa.Proofs.Accesses

/-!
What the pool calls of a graph do to the use counts of one allocator.
-/

namespace TorchSupa.Graph

open Outcome Allocator

/-- Names and pools of `graph_pools` are one to one, and a pool is freeable only when
nobody uses it. -/
structure PoolsSound (allocator : DeviceCachingAllocator) : Prop where
  names : (allocator.graphPools.map (·.1)).Nodup
  distinct : (allocator.graphPools.map (·.2)).Nodup
  alive : ∀ entry ∈ allocator.graphPools, ∃ pool, allocator.privatePools.get? entry.2 = some pool
  freeable : ∀ entry ∈ allocator.graphPoolsFreeable,
    entry ∈ allocator.graphPools ∧ useCount allocator entry.1 = 0

section UseCount

variable {allocator : DeviceCachingAllocator}

variable {entry : MempoolId × PrivatePoolId}

open List

theorem find_unique {entries : List (MempoolId × PrivatePoolId)} (names : (entries.map (·.1)).Nodup)
    (member : entry ∈ entries) :
    entries.find? (·.1 == entry.1) = some entry := by
  induction entries with
  | nil => simp at member
  | cons first rest ih =>
    rw [map_cons, nodup_cons] at names
    rcases mem_cons.mp member with same | later
    · rw [same]
      simp
    · have other : first.1 ≠ entry.1 := by
        intro equal
        exact names.1 (mem_map.mpr ⟨entry, later, equal.symm⟩)
      rw [find?_cons_of_neg (by simpa using other)]
      exact ih names.2 later

section

variable {pool : PrivatePool} {mempoolId : MempoolId}

theorem useCount_of_mem (sound : PoolsSound allocator) (member : entry ∈ allocator.graphPools)
    (alive : allocator.privatePools.get? entry.2 = some pool) :
    useCount allocator entry.1 = pool.useCount := by
  unfold useCount
  rw [find_unique sound.names member]
  simp [alive]

theorem useCount_of_absent (absent : allocator.graphPools.find? (·.1 == mempoolId) = none) :
    useCount allocator mempoolId = 0 := by
  unfold useCount
  rw [absent]

/-- The pool is listed and alive with so many uses, and is not to be freed. -/
def InUse (allocator : DeviceCachingAllocator) (mempoolId : MempoolId) (uses : Int) : Prop :=
  ∃ entry ∈ allocator.graphPools, entry.1 = mempoolId ∧ entry ∉ allocator.graphPoolsFreeable ∧
    ∃ pool, allocator.privatePools.get? entry.2 = some pool ∧ pool.useCount = uses

theorem PoolsSound.inUse (sound : PoolsSound allocator) (used : useCount allocator mempoolId ≠ 0) :
    InUse allocator mempoolId (useCount allocator mempoolId) := by
  cases found : allocator.graphPools.find? (·.1 == mempoolId) with
  | none => exact absurd (useCount_of_absent found) used
  | some entry =>
    have member := mem_of_find?_eq_some found
    obtain rfl : entry.1 = mempoolId := by simpa using find?_some found
    obtain ⟨pool, alive⟩ := sound.alive entry member
    exact ⟨entry, member, rfl, fun freeable => used (sound.freeable entry freeable).2, pool, alive,
      (useCount_of_mem sound member alive).symm⟩

structure Counted (allocator after : DeviceCachingAllocator) (mempoolId : MempoolId)
    (change : Int) : Prop where
  sound : PoolsSound after
  here : useCount after mempoolId = useCount allocator mempoolId + change
  others : ∀ other, other ≠ mempoolId → useCount after other = useCount allocator other

theorem Counted.write (sound : PoolsSound allocator) (member : entry ∈ allocator.graphPools)
    (alive : allocator.privatePools.get? entry.2 = some pool) (write : PrivatePool → PrivatePool)
    (change : Int) (writes : (write pool).useCount = pool.useCount + change)
    (used : useCount allocator entry.1 ≠ 0) :
    Counted allocator { allocator with privatePools := allocator.privatePools.modify entry.2 write }
      entry.1 change := by
  have here : useCount { allocator with
      privatePools := allocator.privatePools.modify entry.2 write } entry.1 =
      useCount allocator entry.1 + change := by
    rw [useCount_of_mem sound member alive]
    unfold useCount
    rw [find_unique sound.names member]
    simp [Store.get?_modify, alive, writes]
  have others : ∀ other, other ≠ entry.1 → useCount { allocator with
      privatePools := allocator.privatePools.modify entry.2 write } other =
      useCount allocator other := by
    intro other different
    unfold useCount
    cases found : allocator.graphPools.find? (·.1 == other) with
    | none => rfl
    | some second =>
      have inPools := mem_of_find?_eq_some found
      have named : second.1 = other := by simpa using find?_some found
      have apart : second.2 ≠ entry.2 := by
        intro same
        have equal := inj_on_of_nodup_map sound.distinct inPools member same
        exact different (by rw [← named, equal])
      simp [Store.get?_modify, apart]
  refine ⟨⟨sound.names, sound.distinct, ?_, ?_⟩, here, others⟩
  · intro second inPools
    obtain ⟨found, there⟩ := sound.alive second inPools
    rw [Store.get?_modify]
    split
    · exact ⟨_, by rw [alive]; rfl⟩
    · exact ⟨found, there⟩
  · intro second inFreeable
    obtain ⟨inPools, zero⟩ := sound.freeable second inFreeable
    have different : second.1 ≠ entry.1 := by
      intro same
      exact used (by rw [← same]; exact zero)
    exact ⟨inPools, by rw [others second.1 different]; exact zero⟩

def Freeable (allocator : DeviceCachingAllocator) (mempoolId : MempoolId) : Prop :=
  (allocator.graphPools.find? (·.1 == mempoolId)).isSome ∧ useCount allocator mempoolId ≤ 0

theorem createOrIncrefPool_spec (sound : PoolsSound allocator) (mempoolId : MempoolId)
    {source : Option AllocatorId} :
    wp (createOrIncrefPool mempoolId source) (fun _ after => Counted allocator after mempoolId 1 ∧
        after.capturesUnderway = allocator.capturesUnderway ∧ ¬ Freeable allocator mempoolId)
      (Fails fun after => after = allocator) allocator := by
  unfold createOrIncrefPool
  refine bind_read ?_
  cases found : allocator.graphPools.find? (·.1 == mempoolId) with
  | none =>
    have absent : ∀ entry ∈ allocator.graphPools, entry.1 ≠ mempoolId := by
      intro entry member same
      exact absurd (find?_eq_none.mp found entry member) (by simp [same])
    have fresh : ∀ entry ∈ allocator.graphPools, entry.2 ≠ allocator.privatePools.fresh := by
      intro entry member same
      obtain ⟨pool, there⟩ := sound.alive entry member
      exact absurd (Store.lt_fresh there) (by simp [same])
    have others : ∀ other, other ≠ mempoolId → useCount { allocator with
          privatePools := allocator.privatePools.push { id := mempoolId, allocator := source }
          graphPools := allocator.graphPools ++ [(mempoolId, allocator.privatePools.fresh)] }
          other = useCount allocator other := by
      intro other different
      unfold useCount
      rw [find?_append]
      cases there : allocator.graphPools.find? (·.1 == other) with
      | none => simp [different.symm]
      | some second =>
        have apart := fresh second (mem_of_find?_eq_some there)
        simp [Store.get?_push, apart]
    refine (wp_modify _).mpr ⟨⟨⟨?_, ?_, ?_, ?_⟩, ?_, others⟩, rfl, ?_⟩
    · dsimp only
      rw [map_append, map_singleton]
      refine nodup_append.mpr ⟨sound.names, nodup_singleton _, ?_⟩
      intro name member other single same
      rw [mem_singleton.mp single] at same
      obtain ⟨entry, inPools, rfl⟩ := mem_map.mp member
      exact absent entry inPools same
    · dsimp only
      rw [map_append, map_singleton]
      refine nodup_append.mpr ⟨sound.distinct, nodup_singleton _, ?_⟩
      intro name member other single same
      rw [mem_singleton.mp single] at same
      obtain ⟨entry, inPools, rfl⟩ := mem_map.mp member
      exact fresh entry inPools same
    · intro entry member
      rw [Store.get?_push]
      rcases mem_append.mp member with old | new
      · rw [if_neg (fresh entry old)]
        exact sound.alive entry old
      · rw [mem_singleton.mp new, if_pos rfl]
        exact ⟨_, rfl⟩
    · intro entry member
      obtain ⟨inPools, zero⟩ := sound.freeable entry member
      refine ⟨mem_append_left _ inPools, ?_⟩
      rw [others entry.1 (absent entry inPools)]
      exact zero
    · rw [useCount_of_absent found]
      unfold useCount
      rw [find?_append, found]
      simp [Store.get?_push]
    · simp [Freeable, found]
  | some entry =>
    have member := mem_of_find?_eq_some found
    have named : entry.1 = mempoolId := by simpa using find?_some found
    refine bind_derefPool fun pool alive => ?_
    have count : useCount allocator mempoolId = pool.useCount :=
      named ▸ useCount_of_mem sound member alive
    refine bind_internalAssert (fun _ => rfl) fun used => ?_
    refine bind_internalAssert (fun _ => rfl) fun _ => ?_
    refine wp_last (bind_updatePrivatePool fun again alive' => ?_)
    have positive := of_decide_eq_true used
    refine ⟨?_, rfl, fun freeable => ?_⟩
    · rw [← named] at count ⊢
      exact Counted.write sound member alive _ 1 rfl (by omega)
    · have unused := freeable.2
      omega

def Admits (allocator : DeviceCachingAllocator) (mempoolId : MempoolId) : Prop :=
  ¬ Freeable allocator mempoolId ∧ ∀ entry ∈ allocator.capturesUnderway, entry.1 ≠ mempoolId

theorem createOrIncrefPool_exact (mempoolId : MempoolId) : wp (createOrIncrefPool mempoolId none)
      (fun _ after => after.capturesUnderway = allocator.capturesUnderway ∧
        ¬ Freeable allocator mempoolId)
      (fun _ after => Freeable allocator mempoolId ∧ after = allocator) allocator := by
  unfold createOrIncrefPool derefPool updatePrivatePool internalAssert Freeable
  refine bind_read ?_
  cases found : allocator.graphPools.find? (·.1 == mempoolId) with
  | none => exact ⟨rfl, fun freeable => absurd freeable.1 (by simp)⟩
  | some entry =>
    dsimp only
    rw [bind_assoc]
    refine bind_read ?_
    cases alive : allocator.privatePools.get? entry.2 with
    | none =>
      refine (wp_throw _).mpr ?_
      simp [useCount, found, alive]
    | some pool =>
      have count : useCount allocator mempoolId = pool.useCount := by
        simp [useCount, found, alive]
      refine bind_check (fun used => ?_) fun unused => ?_
      · refine bind_check (fun _ => ?_) fun given => absurd given (by simp)
        refine bind_read ?_
        rw [alive]
        have positive := of_decide_eq_true used
        exact ⟨rfl, fun freeable => by omega⟩
      · exact ⟨⟨rfl, by simpa [count] using unused⟩, rfl⟩

theorem unrecorded_exact (mempoolId : MempoolId) (entries : List (MempoolId × CaptureFilter))
    (message : String) :
    wp (forEach (fun entry => torchCheck (entry.1 != mempoolId) message) entries)
      (fun _ after => (∀ entry ∈ entries, entry.1 ≠ mempoolId) ∧ after = allocator)
      (fun exception after => (¬ ∀ entry ∈ entries, entry.1 ≠ mempoolId) ∧
        exception = .torchCheck message ∧ after = allocator) allocator := by
  induction entries with
  | nil => exact ⟨fun entry member => absurd member (by simp), rfl⟩
  | cons entry rest ih =>
    refine bind_check (fun other => ?_) fun same => ⟨fun free => ?_, rfl, rfl⟩
    · have apart : entry.1 ≠ mempoolId := by simpa using other
      refine wp_mono ih ?_ ?_
      · rintro _ _ ⟨free, unchanged⟩
        exact ⟨forall_mem_cons.mpr ⟨apart, free⟩, unchanged⟩
      · rintro _ _ ⟨busy, unchanged⟩
        exact ⟨fun free => busy (forall_mem_cons.mp free).2, unchanged⟩
    · exact absurd (forall_mem_cons.mp free).1 (by simpa using same)

theorem beginAllocateToPool_exact (mempoolId : MempoolId) (filter : CaptureFilter) :
    wp (Allocator.beginAllocateToPool mempoolId filter)
      (fun _ _ => Admits allocator mempoolId) (fun _ _ => ¬ Admits allocator mempoolId)
      allocator := by
  refine wp_seq _ (wp_mono (createOrIncrefPool_exact mempoolId) (fun _ _ holds => holds) ?_) ?_
  · intro _ _ refused admits
    exact admits.1 refused.1
  · rintro _ counted ⟨captures, usable⟩
    refine bind_read ?_
    rw [captures]
    refine wp_seq _ (wp_mono (unrecorded_exact _ _ _) (fun _ _ holds => holds) ?_) ?_
    · intro _ _ recorded admits
      exact recorded.1 admits.2
    · intro _ _ unrecorded
      exact ⟨usable, unrecorded.1⟩

end

section

variable (sound : PoolsSound allocator) (mempoolId : MempoolId)
include sound mempoolId

theorem beginAllocateToPool_outcome (filter : CaptureFilter) :
    wp (Allocator.beginAllocateToPool mempoolId filter)
      (fun _ after => Admits allocator mempoolId ∧ Counted allocator after mempoolId 1 ∧
        after.capturesUnderway = allocator.capturesUnderway ++ [(mempoolId, filter)])
      (fun exception after => Freeable allocator mempoolId ∧ after = allocator ∨
        ¬ Freeable allocator mempoolId ∧ ¬ Admits allocator mempoolId ∧ ¬ exception.Fatal ∧
          useCount after mempoolId = useCount allocator mempoolId + 1) allocator := by
  refine wp_seq _ (wp_mono (wp_and (createOrIncrefPool_spec sound mempoolId)
    (createOrIncrefPool_exact mempoolId)) (fun _ _ holds => holds) ?_) ?_
  · rintro _ _ ⟨_, refused⟩
    exact .inl refused
  · rintro _ counted ⟨⟨counts, captures, used⟩, _⟩
    refine bind_read (wp_seq _ (wp_mono (unrecorded_exact mempoolId _ _)
      (fun _ _ holds => holds) ?_) ?_)
    · rintro _ _ ⟨recorded, rfl, rfl⟩
      rw [captures] at recorded
      exact .inr ⟨used, fun admits => recorded admits.2, id, counts.here⟩
    · rintro _ _ ⟨unrecorded, rfl⟩
      rw [captures] at unrecorded
      have sound := counts.sound
      refine (wp_modify _).mpr ⟨⟨used, unrecorded⟩, ⟨⟨sound.names, sound.distinct, sound.alive,
        sound.freeable⟩, counts.here, counts.others⟩, ?_⟩
      rw [captures]

theorem beginAllocateToPool_spec
    (filter : CaptureFilter) (free : ∀ entry ∈ allocator.capturesUnderway, entry.1 ≠ mempoolId) :
    wp (Allocator.beginAllocateToPool mempoolId filter)
      (fun _ after => Counted allocator after mempoolId 1 ∧
        after.capturesUnderway = allocator.capturesUnderway ++ [(mempoolId, filter)])
      (Fails fun after => after = allocator) allocator := by
  refine wp_seq _ (createOrIncrefPool_spec sound mempoolId) ?_
  rintro _ counted ⟨counts, captures, _⟩
  refine bind_get ?_
  refine wp_seq (fun _ after => after = counted) ?_ ?_
  · refine wp_mono (wp_forEach (fun rest after => after = counted ∧
      ∀ entry ∈ rest, entry.1 ≠ mempoolId) ?_ counted.capturesUnderway counted ⟨rfl, ?_⟩)
      (fun _ _ holds => holds.1) fun _ _ failed => failed
    · rintro entry rest before ⟨rfl, apart⟩
      refine wp_last (bind_torchCheck (fun refused => ?_) fun _ => ?_)
      · have same := apart entry (.head _)
        simp [same] at refused
      · exact ⟨rfl, fun other later => apart other (.tail _ later)⟩
    · rw [captures]
      exact free
  · rintro _ after rfl
    have sound := counts.sound
    refine (wp_modify _).mpr ⟨⟨⟨sound.names, sound.distinct, sound.alive, sound.freeable⟩,
      counts.here, counts.others⟩, ?_⟩
    rw [captures]

theorem beginAllocateToPool_refuses
    (filter : CaptureFilter) (freeable : Freeable allocator mempoolId) :
    wp (Allocator.beginAllocateToPool mempoolId filter) (fun _ _ => False)
      (Fails fun after => after = allocator) allocator := by
  refine wp_seq _ (createOrIncrefPool_spec sound mempoolId) ?_
  rintro _ counted ⟨_, _, used⟩
  exact absurd freeable used

theorem releasePool_spec (used : 1 ≤ useCount allocator mempoolId) :
    wp (Allocator.releasePool mempoolId) (fun _ after => Counted allocator after mempoolId (-1) ∧
        after.capturesUnderway = allocator.capturesUnderway) (Fails fun _ => False) allocator := by
  unfold Allocator.releasePool
  rw [wp_bind]
  refine bind_get ?_
  cases found : allocator.graphPools.find? (·.1 == mempoolId) with
  | none =>
    rw [useCount_of_absent found] at used
    exact absurd used (by decide)
  | some entry =>
    have member := mem_of_find?_eq_some found
    have named : entry.1 = mempoolId := by simpa using find?_some found
    subst named
    refine (wp_pure _).mpr ?_
    refine bind_updatePrivatePool fun pool alive => ?_
    have count := useCount_of_mem sound member alive
    have written := Counted.write sound member alive
      (fun self => { self with useCount := self.useCount - 1 }) (-1) rfl (by omega)
    refine bind_derefPool fun lowered there => ?_
    obtain rfl := Option.some.inj ((Store.get?_modify_found alive _).symm.trans there)
    refine bind_internalAssert (fun negative => ?_) fun _ => ?_
    · have := of_decide_eq_false negative
      dsimp only at this
      omega
    · split
      · rename_i zero
        dsimp only at zero
        refine bind_get ?_
        dsimp only
        have fresh : (allocator.graphPoolsFreeable.any fun other => other.1 == entry.1) = false := by
          rw [any_eq_false]
          intro other inFreeable same
          have unused := (sound.freeable other inFreeable).2
          rw [beq_iff_eq.mp same] at unused
          omega
        rw [fresh]
        refine (wp_modify _).mpr ?_
        refine ⟨⟨⟨written.sound.names, written.sound.distinct, written.sound.alive, ?_⟩,
          written.here, written.others⟩, rfl⟩
        intro other inFreeable
        rcases mem_append.mp inFreeable with old | new
        · exact written.sound.freeable other old
        · rw [mem_singleton.mp new]
          refine ⟨member, ?_⟩
          have here := written.here
          rw [count] at here
          exact here.trans (by omega)
      · exact ⟨written, rfl⟩

end

theorem endAllocateToPool_spec (mempoolId : MempoolId)
    (recording : ∃ entry ∈ allocator.capturesUnderway, entry.1 = mempoolId) :
    Allocator.endAllocateToPool mempoolId allocator = .ok () { allocator with
      capturesUnderway := allocator.capturesUnderway.eraseP (·.1 == mempoolId) } := by
  obtain ⟨entry, member, named⟩ := recording
  have any : (allocator.capturesUnderway.any (·.1 == mempoolId)) = true :=
    any_eq_true.mpr ⟨entry, member, by simpa using named⟩
  simp [Allocator.endAllocateToPool, run_bind, run_get, any, run_modify]

end UseCount

end TorchSupa.Graph
