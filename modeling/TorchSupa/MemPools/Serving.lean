import TorchSupa.Proofs.Serving
import TorchSupa.MemPools.UseMemPool

/-!
`malloc` is unrelated to what decides about the pools: it may delete pools that nobody uses, and
leaves the captures and the use counts alone.
-/

namespace TorchSupa.MemPools

open Outcome Allocator TorchSupa.Graph

section Essence

variable {before state after : DeviceCachingAllocator}

theorem useCount_of_same (same : SameEssence state after) (mempoolId : MempoolId) :
    useCount after mempoolId = useCount state mempoolId := by
  have pools : after.graphPools = state.graphPools := congrArg Essence.graphPools same
  have uses : ∀ id, (after.privatePools.get? id).map PrivatePool.useCount =
      (state.privatePools.get? id).map PrivatePool.useCount :=
    fun id => congrFun (congrArg Essence.uses same) id
  unfold useCount
  rw [pools]
  cases state.graphPools.find? (·.1 == mempoolId) with
  | none => rfl
  | some entry =>
    dsimp only
    rw [uses]

theorem poolsSound_of_same (sound : PoolsSound state) (same : SameEssence state after) :
    PoolsSound after := by
  have pools : after.graphPools = state.graphPools := congrArg Essence.graphPools same
  have freeable : after.graphPoolsFreeable = state.graphPoolsFreeable :=
    congrArg Essence.graphPoolsFreeable same
  have uses : ∀ id, (after.privatePools.get? id).map PrivatePool.useCount =
      (state.privatePools.get? id).map PrivatePool.useCount :=
    fun id => congrFun (congrArg Essence.uses same) id
  refine ⟨?_, ?_, fun entry member => ?_, fun entry member => ?_⟩
  · rw [pools]
    exact sound.names
  · rw [pools]
    exact sound.distinct
  · rw [pools] at member
    obtain ⟨pool, alive⟩ := sound.alive entry member
    have used := uses entry.2
    rw [alive] at used
    cases there : after.privatePools.get? entry.2 with
    | none => simp [there] at used
    | some found => exact ⟨found, rfl⟩
  · rw [freeable] at member
    rw [pools, useCount_of_same same]
    exact sound.freeable entry member

theorem Unrelated.refl (sound : PoolsSound state) : Unrelated state state :=
  ⟨sound, rfl, fun _ => rfl⟩

theorem Unrelated.trans (first : Unrelated before state) (second : Unrelated state after) :
    Unrelated before after :=
  ⟨second.sound, second.captures.trans first.captures,
    fun mempoolId => (second.counts mempoolId).trans (first.counts mempoolId)⟩

end Essence

section Deleting

variable {driver : Driver} {state : DeviceCachingAllocator}

open List

variable {entry : MempoolId × PrivatePoolId} {α : Type} {program : M α}

theorem unrelated_delete (sound : PoolsSound state) (freeable : entry ∈ state.graphPoolsFreeable) :
    Unrelated state { state with
      graphPools := state.graphPools.filter fun other => other.1 != entry.1
      privatePools := state.privatePools.erase entry.2
      graphPoolsFreeable := state.graphPoolsFreeable.filter fun other => other.1 != entry.1 } := by
  obtain ⟨member, unused⟩ := sound.freeable entry freeable
  have apart : ∀ other ∈ state.graphPools, other.1 ≠ entry.1 → other.2 ≠ entry.2 := by
    intro other inPools different same
    have equal := inj_on_of_nodup_map sound.distinct inPools member same
    exact different (by rw [equal])
  have counts : ∀ mempoolId, useCount { state with
      graphPools := state.graphPools.filter fun other => other.1 != entry.1
      privatePools := state.privatePools.erase entry.2
      graphPoolsFreeable := state.graphPoolsFreeable.filter fun other => other.1 != entry.1 }
      mempoolId = useCount state mempoolId := by
    intro mempoolId
    by_cases deleted : mempoolId = entry.1
    · rw [deleted, unused]
      apply useCount_of_absent
      rw [find?_filter, find?_eq_none]
      simp
    · have found : (state.graphPools.filter fun other => other.1 != entry.1).find?
          (·.1 == mempoolId) = state.graphPools.find? (·.1 == mempoolId) := by
        rw [find?_filter]
        congr 1
        funext other
        by_cases named : other.1 = mempoolId
        · simp [named, deleted]
        · simp [named]
      unfold useCount
      rw [found]
      cases there : state.graphPools.find? (·.1 == mempoolId) with
      | none => rfl
      | some other =>
        have named : other.1 = mempoolId := by simpa using find?_some there
        have kept := apart other (mem_of_find?_eq_some there) (by rw [named]; exact deleted)
        dsimp only
        rw [Store.get?_erase, if_neg kept]
  refine ⟨⟨?_, ?_, fun other inPools => ?_, fun other inFreeable => ?_⟩, rfl, counts⟩
  · exact sound.names.sublist (filter_sublist.map _)
  · exact sound.distinct.sublist (filter_sublist.map _)
  · obtain ⟨inPools, different⟩ := mem_filter.mp inPools
    obtain ⟨pool, alive⟩ := sound.alive other inPools
    refine ⟨pool, ?_⟩
    rw [Store.get?_erase, if_neg (apart other inPools (by simpa using different))]
    exact alive
  · obtain ⟨inFreeable, different⟩ := mem_filter.mp inFreeable
    obtain ⟨inPools, zero⟩ := sound.freeable other inFreeable
    exact ⟨mem_filter.mpr ⟨inPools, different⟩, (counts other.1).trans zero⟩

def Keeping (before after : DeviceCachingAllocator) : Prop :=
  Unrelated before after ∧ after.graphPoolsFreeable = before.graphPoolsFreeable

theorem keeping_of_silent (silent : Silent program) : Respects Keeping program := by
  refine silent_respects (fun before state after kept same => ⟨?_, ?_⟩) silent
  · refine kept.1.trans ⟨poolsSound_of_same kept.1.sound same, ?_, useCount_of_same same⟩
    exact congrArg Essence.capturesUnderway same
  · exact (congrArg Essence.graphPoolsFreeable same).trans kept.2

theorem unrelated_of_keeping (keeping : Respects Keeping program) : Respects Unrelated program :=
  fun _ state kept => wp_mono (keeping state state ⟨.refl kept.sound, rfl⟩)
    (fun _ _ same => kept.trans same.1) fun _ _ failed => failed.imp_right fun same => kept.trans same.1

theorem unrelated_of_silent (silent : Silent program) : Respects Unrelated program :=
  unrelated_of_keeping (keeping_of_silent silent)

theorem keeping_synchronize (pool : Option PrivatePoolId) :
    Respects Keeping (synchronizeAndFreeEvents driver pool) := by
  refine .bind (.modify fun before state kept => ⟨?_, kept.2⟩) fun _ => ?_
  · exact kept.1.trans ⟨⟨kept.1.sound.names, kept.1.sound.distinct, kept.1.sound.alive,
      kept.1.sound.freeable⟩, rfl, fun _ => rfl⟩
  · refine .read fun _ => .bind (keeping_of_silent (silent_internalAssert _)) fun _ =>
      .bind (keeping_of_silent (silent_insertEventsDeferredUntilNoCapture driver)) fun _ =>
      .read fun _ => ?_
    exact .forEach (fun _ => .read fun _ =>
      .forEach (fun _ => keeping_of_silent (silent_synchronizeEntry driver pool _)) _) _

theorem unrelated_deletePrivatePool (sound : PoolsSound state)
    (freeable : entry ∈ state.graphPoolsFreeable) :
    wp (deletePrivatePool entry.1 entry.2) (fun _ after => Unrelated state after)
      (fun _ after => Unrelated state after) state := by
  refine bind_read (bind_check (fun _ => ?_) fun _ => .refl sound)
  exact unrelated_delete sound freeable

theorem unrelated_releaseFreeablePool (mempoolId : MempoolId) (pool : PrivatePoolId) :
    Respects Unrelated (releaseFreeablePool driver mempoolId pool) := by
  intro before state kept
  refine bind_read ?_
  cases found : state.graphPoolsFreeable.find? (·.2 == pool) with
  | none => exact kept
  | some entry =>
    have own : entry.2 = pool := by simpa using find?_some found
    have member := mem_of_find?_eq_some found
    subst own
    -- the pool is freeable up to where it is deleted
    have upTo : Respects Keeping (do
        when (mempoolId ≠ (0, 0)) (synchronizeAndFreeEvents driver (some entry.2))
        internalAssert ((← derefPool entry.2).useCount == 0)
        releaseBlocks ⟨some entry.2, true⟩
        releaseBlocks ⟨some entry.2, false⟩
        derefPool entry.2) :=
      .bind (.ite (keeping_synchronize _) (.pure _)) fun _ =>
        .bind (keeping_of_silent (silent_derefPool _)) fun _ =>
        .bind (keeping_of_silent (silent_internalAssert _)) fun _ =>
        .bind (keeping_of_silent (silent_releaseBlocks _)) fun _ =>
        .bind (keeping_of_silent (silent_releaseBlocks _)) fun _ =>
        keeping_of_silent (silent_derefPool _)
    have deletes : ∀ (owner : PrivatePool) after, Keeping state after →
        wp (when (owner.supaMallocCount == 0) (deletePrivatePool entry.1 entry.2))
          (fun _ final => Unrelated before final)
          (fun exception final => False ∨ Unrelated before final) after := by
      intro owner after same
      have toHere := kept.trans same.1
      have freeable : entry ∈ after.graphPoolsFreeable := by rwa [same.2]
      unfold when
      split
      · exact wp_mono (unrelated_deletePrivatePool same.1.sound freeable)
          (fun _ _ deleted => toHere.trans deleted) fun _ _ deleted => .inr (toHere.trans deleted)
      · exact toHere
    dsimp only
    split
    · exact kept
    · have whole := bind_respects upTo ⟨.refl kept.sound, rfl⟩ deletes
        fun _ _ same => .inr (kept.trans same.1)
      simpa only [bind_assoc] using whole

theorem unrelated_releaseCachedBlocks (mempoolId : MempoolId) :
    Respects Unrelated (releaseCachedBlocks driver mempoolId) := by
  refine .read fun state => .bind (.ite ?_ (.pure _)) fun _ => .read fun _ =>
    .bind (.forEach (fun pool => unrelated_releaseFreeablePool _ pool) _) fun _ => .pure _
  exact .bind (unrelated_of_keeping (keeping_synchronize none)) fun _ =>
    .bind (unrelated_of_silent (silent_releaseBlocks _)) fun _ =>
    unrelated_of_silent (silent_releaseBlocks _)

end Deleting

section Serving

variable {driver : Driver}

theorem unrelated_orSearch {first second : M (Option BlockId)} (one : Respects Unrelated first)
    (other : Respects Unrelated second) : Respects Unrelated (orSearch first second) :=
  .bind one fun found => by
    cases found with
    | some block => exact .pure _
    | none => exact other

theorem unrelated_andSearch {condition : M Bool} {search : M (Option BlockId)}
    (one : Respects Unrelated condition) (other : Respects Unrelated search) :
    Respects Unrelated (andSearch condition search) :=
  .bind one fun _ => .ite other (.pure _)

theorem unrelated_findBlock (callbacks : Callbacks) (params : AllocParams) :
    Respects Unrelated (findBlock driver callbacks params) := by
  have free := unrelated_of_silent (silent_getFreeBlock params)
  have alloc := fun isRetry => unrelated_of_silent (silent_allocBlock driver params isRetry)
  refine unrelated_orSearch free <| unrelated_orSearch (unrelated_andSearch ?_ free) <| .read fun _ =>
    .bind (.ite ?_ (.pure _)) fun _ => unrelated_orSearch (alloc false) <|
    unrelated_orSearch (unrelated_andSearch ?_ (alloc false)) <|
    unrelated_andSearch (.read fun _ => .ite (unrelated_releaseCachedBlocks _) (.pure _)) (alloc true)
  · exact unrelated_of_silent (silent_triggerFreeMemoryCallbacks driver callbacks)
  · exact unrelated_of_silent (silent_garbageCollectCachedBlocks driver)
  · exact unrelated_of_silent (silent_releaseAvailableCachedBlocks params)

theorem unrelated_malloc (callbacks : Callbacks) (device origSize : Nat) (stream : Stream) :
    Respects Unrelated (malloc driver callbacks device origSize stream) := by
  refine .read fun _ => .bind (.ite (unrelated_of_silent (silent_processEvents driver)) (.pure _))
    fun _ => .read fun _ => .bind (unrelated_of_silent (silent_getPool _ _)) fun _ =>
    .bind (unrelated_findBlock _ _) fun found => ?_
  cases found with
  | some block =>
    exact .bind (unrelated_of_silent (silent_deref _)) fun _ => .read fun _ =>
      unrelated_of_silent (silent_allocFoundBlock _ _ _)
  | none => exact unrelated_of_silent (silent_reportOutOfMemory _ _)

end Serving

end TorchSupa.MemPools
