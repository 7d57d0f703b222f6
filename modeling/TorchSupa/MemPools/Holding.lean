import TorchSupa.MemPools.EmptyCache
import TorchSupa.MemPools.Serving

/-!
Runs of a device allocator in which a pool is given back only by those that hold it. No operation,
and no exception, destroys a pool that is held.
-/

namespace TorchSupa.MemPools

open Outcome Allocator TorchSupa.Graph

section Checkpoints

variable (driver : Driver) (turns : Nat) (pointer : Option BlockId) (ids : List BlockId)
  (result : RestoreResult)

theorem silent_torchCheck (condition : Bool) (message : String) :
    Silent (torchCheck condition message) :=
  .check _ _

theorem silent_selectM (keep : Block → Bool) : Silent (selectM keep ids) := by
  induction ids with
  | nil => exact .pure _
  | cons id rest ih => exact .bind (silent_deref _) fun _ => .bind ih fun _ => .pure _

theorem silent_getPrivatePoolHeadBlocks (pool : PrivatePoolId) :
    Silent (getPrivatePoolHeadBlocks driver pool) :=
  .read fun _ => .bind (silent_selectM _ _) fun _ => .bind (silent_orderedBlocks _) fun _ =>
    .bind (silent_selectM _ _) fun _ => .bind (silent_orderedBlocks _) fun _ =>
    .bind (silent_selectM _ _) fun _ => .pure _

theorem silent_chainFrom : Silent (chainFrom turns pointer) := by
  induction turns generalizing pointer with
  | zero => exact .throw _
  | succ turns ih =>
    cases pointer with
    | none => exact .pure _
    | some id => exact .bind (silent_deref _) fun _ => .bind (ih _) fun _ => .pure _

theorem silent_mapBlocks {α : Type} {body : BlockId → M α} (silent : ∀ id, Silent (body id)) :
    Silent (mapBlocks body ids) := by
  induction ids with
  | nil => exact .pure _
  | cons id rest ih => exact .bind (silent _) fun _ => .bind ih fun _ => .pure _

theorem silent_segmentState (head : BlockId) : Silent (segmentState head) :=
  .bind (silent_deref _) fun _ => .bind (silent_internalAssert _) fun _ => .read fun _ =>
    .bind (silent_chainFrom _ _) fun _ => .bind (silent_mapBlocks _ fun _ =>
      .bind (silent_deref _) fun _ => .bind (silent_torchCheck _ _) fun _ => .pure _) fun _ =>
    .bind (silent_internalAssert _) fun _ => .pure _

theorem silent_getCheckpointState (mempoolId : MempoolId) :
    Silent (getCheckpointState driver mempoolId) := by
  refine .bind (silent_insertEventsDeferredUntilNoCapture driver) fun _ => .read fun state => ?_
  cases state.graphPools.find? (·.1 == mempoolId) with
  | none => exact .read fun _ => .ite (.throw _) (.throw _)
  | some entry =>
    exact .bind (silent_getPrivatePoolHeadBlocks _ _) fun _ =>
      .bind (silent_mapBlocks _ silent_segmentState) fun _ =>
      .bind (silent_modify fun _ => rfl) fun _ => .pure _

theorem silent_freeAllocatedFrom : Silent (freeAllocatedFrom driver turns pointer result) := by
  induction turns generalizing pointer result with
  | zero => exact .throw _
  | succ turns ih =>
    cases pointer with
    | none => exact .pure _
    | some id =>
      exact .bind (silent_deref _) fun _ => .ite (.bind (silent_torchCheck _ _) fun _ =>
        .bind (silent_free driver _) fun _ => .bind (silent_deref _) fun _ =>
        .bind (silent_torchCheck _ _) fun _ => ih _ _) (ih _ _)

theorem silent_freeHeads : Silent (freeHeads driver ids result) := by
  induction ids generalizing result with
  | nil => exact .pure _
  | cons head rest ih =>
    exact .read fun _ => .bind (silent_freeAllocatedFrom driver _ _ _) fun _ => ih _

theorem silent_freeBlocksAllocatedToPool (pool : PrivatePoolId) :
    Silent (freeBlocksAllocatedToPool driver pool result) :=
  .bind (silent_getPrivatePoolHeadBlocks _ _) fun _ => .bind (silent_selectM _ _) fun _ =>
    .bind (silent_freeHeads driver _ _) fun _ => .bind (silent_getPrivatePoolHeadBlocks _ _) fun _ =>
    .bind (.forEach (fun _ => .read fun _ => .bind (silent_chainFrom _ _) fun _ =>
      .forEach (fun _ => .bind (silent_deref _) fun _ => silent_torchCheck _ _) _) _) fun _ => .pure _

theorem silent_allocateStates (pool : PoolRef) (states : List BlockState) (current last : BlockId) :
    Silent (allocateStates pool states current last) := by
  induction states generalizing current last with
  | nil => exact .pure _
  | cons state rest ih =>
    refine .bind (silent_poolErase _ _) fun _ => .bind (silent_allocFoundBlock _ _ _) fun _ =>
      .bind (silent_deref _) fun allocated => .bind (silent_torchCheck _ _) fun _ =>
      .bind (silent_torchCheck _ _) fun _ => .bind (silent_torchCheck _ _) fun _ => ?_
    cases allocated.next with
    | none => exact .pure _
    | some next => exact ih _ _

theorem silent_walkToHead (id : BlockId) : Silent (walkToHead turns id) := by
  induction turns generalizing id with
  | zero => exact .throw _
  | succ turns ih =>
    refine .bind (silent_deref _) fun block => ?_
    cases block.prev with
    | none => exact .pure _
    | some before => exact ih _

theorem silent_freeDeadStates (states : List BlockState) :
    Silent (freeDeadStates driver states pointer result) := by
  induction states generalizing pointer result with
  | nil => exact .pure _
  | cons state rest ih =>
    cases pointer with
    | none => exact .throw _
    | some current =>
      exact .ite (.bind (silent_deref _) fun _ => ih _ _) <| .bind (silent_free driver _) fun _ =>
        .bind (silent_deref _) fun _ => .bind (silent_torchCheck _ _) fun _ =>
        .bind (silent_torchCheck _ _) fun _ => .bind (silent_torchCheck _ _) fun _ => ih _ _

theorem silent_setSegmentStateToCheckpoint (block : BlockId) (segment : SegmentState) :
    Silent (setSegmentStateToCheckpoint driver block segment result) :=
  .bind (silent_deref _) fun _ => .bind (silent_allocateStates _ _ _ _) fun _ => .read fun _ =>
    .bind (silent_walkToHead _ _) fun _ => silent_freeDeadStates driver _ _ _

theorem silent_insertPointers (found : List (Nat × BlockId)) :
    Silent (insertPointers ids found) := by
  induction ids generalizing found with
  | nil => exact .pure _
  | cons id rest ih => exact .bind (silent_deref _) fun _ => ih _

theorem silent_restoreSegments (pointers : List (Nat × BlockId)) (segments : List SegmentState) :
    Silent (restoreSegments driver pointers segments result) := by
  induction segments generalizing result with
  | nil => exact .pure _
  | cons segment rest ih =>
    unfold restoreSegments
    cases segment.blocks with
    | nil => exact .throw _
    | cons first blocks =>
      dsimp only
      cases pointers.find? (·.1 == first.ptr) with
      | none => exact .throw _
      | some entry => exact .bind (silent_setSegmentStateToCheckpoint driver _ _ _) fun _ => ih _

theorem silent_setCheckpointPoolState (pps : PrivatePoolState) :
    Silent (setCheckpointPoolState driver pps) := by
  refine .read fun _ => .bind (silent_torchCheck _ _) fun _ => .read fun state => ?_
  cases state.graphPools.find? (·.1 == pps.ownerId) with
  | none => exact .throw _
  | some entry =>
    exact .bind (silent_freeBlocksAllocatedToPool driver _ _) fun _ =>
      .bind (silent_orderedBlocks _) fun _ => .bind (silent_insertPointers _ _) fun _ =>
      .bind (silent_orderedBlocks _) fun _ => .bind (silent_insertPointers _ _) fun _ =>
      silent_restoreSegments driver _ _ _

end Checkpoints

section Runs

instance (state : DeviceCachingAllocator) (mempoolId : MempoolId) :
    Decidable (Freeable state mempoolId) := by
  unfold Freeable
  infer_instance

/-- How often the operation takes each pool; a release gives one back. -/
def takes : Op → MempoolId → Int
  | .createOrIncrefPool other _, mempoolId | .beginAllocateToPool other _, mempoolId =>
    if other = mempoolId then 1 else 0
  | .releasePool other, mempoolId => if other = mempoolId then -1 else 0
  | _, _ => 0

/-- `beginAllocateToPool` keeps the use it took when the pool is recorded to already. -/
def keeps (state : DeviceCachingAllocator) : Op → MempoolId → Int
  | .beginAllocateToPool other _, mempoolId =>
    if other = mempoolId ∧ ¬ Freeable state other then 1 else 0
  | _, _ => 0

/-- Operations in any order, each of which returns or throws; only those that hold a pool release
it. -/
inductive Run (driver : Driver) : (MempoolId → Int) → DeviceCachingAllocator → Prop
  | start (device : Nat) (config : SUPAAllocatorConfig) :
      Run driver (fun _ => 0) (initial device config)
  | step {held now : MempoolId → Int} {state after : DeviceCachingAllocator} (caller : Caller) (op : Op) :
      Run driver held state → (∀ mempoolId, op = .releasePool mempoolId → 0 < held mempoolId) →
      (op.run driver { state with caller } = .ok () after ∧ now = takes op ∨
        (∃ exception, op.run driver { state with caller } = .error exception after ∧
          ¬ exception.Fatal) ∧ now = keeps state op) →
      Run driver (fun mempoolId => held mempoolId + now mempoolId) after

variable {α : Type} {driver : Driver} {state : DeviceCachingAllocator}

/-- What only writes fields that do not decide about the pools. -/
theorem unrelated_modify {change : DeviceCachingAllocator → DeviceCachingAllocator}
    (same : ∀ state, (change state).graphPools = state.graphPools ∧
      (change state).privatePools = state.privatePools ∧
      (change state).graphPoolsFreeable = state.graphPoolsFreeable ∧
      (change state).capturesUnderway = state.capturesUnderway) :
    Respects Unrelated (modify change : M PUnit) := by
  refine .modify fun before state kept => kept.trans ?_
  obtain ⟨graphPools, privatePools, freeable, captures⟩ := same state
  have counts mempoolId : useCount (change state) mempoolId = useCount state mempoolId := by
    rw [useCount, useCount, graphPools, privatePools]
  refine ⟨⟨?_, ?_, ?_, fun entry member => ?_⟩, captures, counts⟩
  · rw [graphPools]
    exact kept.sound.names
  · rw [graphPools]
    exact kept.sound.distinct
  · rw [graphPools, privatePools]
    exact kept.sound.alive
  · rw [freeable] at member
    rw [graphPools, counts]
    exact kept.sound.freeable entry member

def aboutPools : Op → Bool
  | .createOrIncrefPool .. | .beginAllocateToPool .. | .releasePool _ | .endAllocateToPool _ => true
  | _ => false

theorem unrelated_run (op : Op) (other : aboutPools op = false) :
    Respects Unrelated (op.run driver) := by
  cases op with
  | malloc callbacks origSize stream =>
    exact .read fun _ => .bind (unrelated_malloc _ _ _ _) fun _ => .pure _
  | free block => exact unrelated_of_silent (silent_free driver _)
  | recordStream block stream =>
    exact unrelated_of_silent (.bind (silent_deref _) fun _ => .ite (.pure _) <|
      .bind (silent_update _ _) fun _ => silent_log _)
  | emptyCache mempoolId => exact .bind (unrelated_releaseCachedBlocks _) fun _ => .pure _
  | createOrIncrefPool | beginAllocateToPool | releasePool | endAllocateToPool => cases other
  | resetAccumulatedStats | resetPeakStats | setUseOnOOM | setNoSplit | setAllocatorSettings =>
    exact unrelated_modify fun _ => ⟨rfl, rfl, rfl, rfl⟩
  | setMemoryFraction fraction =>
    exact .bind (unrelated_of_silent silent_nextTick) fun _ =>
      unrelated_modify fun _ => ⟨rfl, rfl, rfl, rfl⟩
  | recordHistory enabled maxEntries =>
    cases enabled <;> exact unrelated_modify fun _ => ⟨rfl, rfl, rfl, rfl⟩
  | getCheckpointState mempoolId =>
    exact .bind (unrelated_of_silent (silent_getCheckpointState driver _)) fun _ => .pure _
  | setCheckpointPoolState pps =>
    exact .bind (unrelated_of_silent (silent_setCheckpointPoolState driver _)) fun _ => .pure _
  | shareIpcHandle block =>
    refine .bind (unrelated_of_silent (.bind (silent_deref _) fun block => ?_)) fun _ => .pure _
    cases block.expandableSegment with
    | none =>
      exact .read fun _ => .bind (silent_walkToHead _ _) fun _ => .bind (silent_deref _) fun _ =>
        .pure _
    | some expandable => exact .bind (silent_onSegment _ _) fun _ => .pure _

theorem beginAllocateToPool_counted (sound : PoolsSound state) (mempoolId : MempoolId)
    (filter : CaptureFilter) :
    wp (Allocator.beginAllocateToPool mempoolId filter)
      (fun _ after => Counted state after mempoolId 1)
      (fun _ after => if Freeable state mempoolId then after = state
        else Counted state after mempoolId 1) state := by
  refine wp_seq _ (wp_mono (wp_and (createOrIncrefPool_spec sound mempoolId)
    (createOrIncrefPool_exact mempoolId)) (fun _ _ holds => holds) ?_) ?_
  · rintro _ _ ⟨_, freeable, same⟩
    rw [if_pos freeable]
    exact same
  · rintro _ counted ⟨⟨counts, -, used⟩, -⟩
    refine bind_read (wp_seq _ (wp_mono (unrecorded_exact mempoolId _ _) (fun _ _ holds => holds) ?_) ?_)
    · rintro _ _ ⟨-, -, rfl⟩
      rw [if_neg used]
      exact counts
    · rintro _ _ ⟨-, rfl⟩
      exact ⟨⟨counts.sound.names, counts.sound.distinct, counts.sound.alive, counts.sound.freeable⟩,
        counts.here, counts.others⟩

/-- The use counts are the uses taken and not given back. -/
structure Booked (held : MempoolId → Int) (state : DeviceCachingAllocator) : Prop where
  sound : PoolsSound state
  counts : ∀ mempoolId, useCount state mempoolId = held mempoolId
  positive : ∀ mempoolId, 0 ≤ held mempoolId

variable {held : MempoolId → Int}

variable {after : DeviceCachingAllocator}

theorem Booked.counted (booked : Booked held state)
    {mempoolId : MempoolId} {change : Int} (counted : Counted state after mempoolId change)
    (enough : 0 ≤ held mempoolId + change) :
    Booked (fun other => held other + if mempoolId = other then change else 0) after := by
  refine ⟨counted.sound, fun other => ?_, fun other => ?_⟩
  · split
    · next same => rw [← same, counted.here, booked.counts]
    · next different =>
      rw [counted.others _ (Ne.symm different), booked.counts, Int.add_zero]
  · split
    · next same => exact same ▸ enough
    · rw [Int.add_zero]
      exact booked.positive other

theorem Booked.same (booked : Booked held state)
    (sound : PoolsSound after) (counts : ∀ id, useCount after id = useCount state id) :
    Booked (fun id => held id + 0) after := by
  simp only [Int.add_zero]
  exact ⟨sound, fun id => (counts id).trans (booked.counts id), booked.positive⟩

/-- The step of a run. -/
theorem run_booked (booked : Booked held state) (op : Op)
    (own : ∀ mempoolId, op = .releasePool mempoolId → 0 < held mempoolId) :
    wp (op.run driver) (fun _ after => Booked (fun mempoolId => held mempoolId + takes op mempoolId) after)
      (fun exception after => ¬ exception.Fatal →
        Booked (fun mempoolId => held mempoolId + keeps state op mempoolId) after) state := by
  have sound := booked.sound
  cases op with
  | createOrIncrefPool mempoolId source =>
    refine wp_mono (createOrIncrefPool_spec sound mempoolId) (fun _ _ spec => ?_)
      fun _ _ failed alive => ?_
    · exact booked.counted spec.1 (Int.add_nonneg (booked.positive _) (by decide))
    · rw [failed.resolve_left alive]
      exact booked.same sound fun _ => rfl
  | beginAllocateToPool mempoolId filter =>
    have enough := Int.add_nonneg (booked.positive mempoolId) (show (0 : Int) ≤ 1 by decide)
    refine wp_mono (beginAllocateToPool_counted sound mempoolId filter)
      (fun _ _ counted => booked.counted counted enough) fun _ _ failed _ => ?_
    unfold keeps
    split at failed
    · next freeable =>
      rw [failed]
      simpa [freeable] using booked.same sound fun _ => rfl
    · next usable => simpa [usable] using booked.counted failed enough
  | releasePool mempoolId =>
    have one := own mempoolId rfl
    refine wp_mono (releasePool_spec sound mempoolId (by rw [booked.counts]; exact one))
      (fun _ _ counted => booked.counted counted.1 (by omega)) fun _ _ failed alive => ?_
    exact absurd (failed.resolve_right id) alive
  | endAllocateToPool mempoolId =>
    unfold Op.run endAllocateToPool
    refine bind_read ?_
    split
    · exact booked.same ⟨sound.names, sound.distinct, sound.alive, sound.freeable⟩ fun _ => rfl
    · exact fun _ => booked.same sound fun _ => rfl
  | _ =>
    exact wp_mono (unrelated_run _ rfl state state (.refl sound))
      (fun _ _ same => booked.same same.sound same.counts)
      fun _ _ failed _ => booked.same (failed.resolve_left id).sound (failed.resolve_left id).counts

/-- A pool that is held is listed and alive with as many uses as are held, and is not freeable. -/
theorem held_pools_kept (run : Run driver held state) (mempoolId : MempoolId) :
    useCount state mempoolId = held mempoolId ∧ 0 ≤ held mempoolId ∧
      (0 < held mempoolId → InUse state mempoolId (held mempoolId)) := by
  have booked : Booked held state := by
    induction run with
    | start device config =>
      refine ⟨⟨.nil, .nil, ?_, ?_⟩, fun _ => rfl, fun _ => Int.le_refl 0⟩ <;>
        exact fun _ member => absurd member List.not_mem_nil
    | @step held now state after caller op run own ends ih =>
      have entered : Booked held { state with caller } :=
        ⟨⟨ih.sound.names, ih.sound.distinct, ih.sound.alive, ih.sound.freeable⟩, ih.counts, ih.positive⟩
      have spec : wp (op.run driver) _ _ _ := run_booked entered op own
      rcases ends with ⟨returns, rfl⟩ | ⟨⟨exception, throws, alive⟩, rfl⟩
      · have kept := wp_ok spec returns
        exact kept
      · exact wp_error spec throws alive
  have count := booked.counts mempoolId
  refine ⟨count, booked.positive mempoolId, fun used => ?_⟩
  rw [← count]
  exact booked.sound.inUse (by omega)

theorem Run.emptied (run : Run driver held state) (mempoolId : MempoolId)
    (returns : (match (Op.emptyCache mempoolId).run driver { state with caller := ⟨0, none⟩ } with
      | .ok .. => true
      | .error .. => false) = true) : ∃ after, Run driver (fun other => held other + 0) after := by
  split at returns
  · next ends =>
    exact ⟨_, .step ⟨0, none⟩ _ run (fun _ same => by cases same) (.inl ⟨ends, rfl⟩)⟩
  · cases returns

/-- The pool of a capture that is entered once more, which is refused but counts, left and given
back twice, before the cache is emptied. -/
theorem held_pools_kept_sample : ∃ held state, Run emptyDriver held state ∧
    useCount state (0, 1) = 1 ∧ InUse state (0, 1) 1 := by
  have created : Run emptyDriver _ _ := .step ⟨0, none⟩ (.createOrIncrefPool (0, 1) none)
    (.start 0 {}) (fun _ same => by cases same) (.inl ⟨rfl, rfl⟩)
  have begun : Run emptyDriver _ _ := .step ⟨0, none⟩ (.beginAllocateToPool (0, 1) everything)
    created (fun _ same => by cases same) (.inl ⟨rfl, rfl⟩)
  have refused : Run emptyDriver _ _ := .step ⟨0, none⟩ (.beginAllocateToPool (0, 1) everything)
    begun (fun _ same => by cases same) (.inr ⟨⟨_, rfl, by decide⟩, rfl⟩)
  have released : Run emptyDriver _ _ := .step ⟨0, none⟩ (.releasePool (0, 1))
    refused (fun _ same => by cases same; decide) (.inl ⟨rfl, rfl⟩)
  have left : Run emptyDriver _ _ := .step ⟨0, none⟩ (.endAllocateToPool (0, 1))
    released (fun _ same => by cases same) (.inl ⟨rfl, rfl⟩)
  have again : Run emptyDriver _ _ := .step ⟨0, none⟩ (.releasePool (0, 1))
    left (fun _ same => by cases same; decide) (.inl ⟨rfl, rfl⟩)
  obtain ⟨_, emptied⟩ := again.emptied (0, 1) (by decide +kernel)
  obtain ⟨count, _, used⟩ := held_pools_kept emptied (0, 1)
  exact ⟨_, _, emptied, count, used (by decide)⟩

end Runs

end TorchSupa.MemPools
