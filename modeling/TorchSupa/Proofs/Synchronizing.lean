import TorchSupa.Allocator.Machine

/-!
What the methods that release memory leave alone: the captures, the use counts of the private pools
and `num_sync_all_streams`, which counts the calls of `synchronize_and_free_events`.
-/

namespace TorchSupa.Allocator

open Outcome

structure Essence where
  numSyncAllStreams : Int
  capturesUnderway : List (MempoolId × CaptureFilter)
  graphPools : List (MempoolId × PrivatePoolId)
  graphPoolsFreeable : List (MempoolId × PrivatePoolId)
  uses : PrivatePoolId → Option Int

def essence (state : DeviceCachingAllocator) : Essence where
  numSyncAllStreams := state.stats.numSyncAllStreams
  capturesUnderway := state.capturesUnderway
  graphPools := state.graphPools
  graphPoolsFreeable := state.graphPoolsFreeable
  uses id := (state.privatePools.get? id).map PrivatePool.useCount

def SameEssence (before after : DeviceCachingAllocator) : Prop := essence after = essence before

abbrev Silent {α : Type} (program : M α) : Prop := Respects SameEssence program

variable {α : Type} {program : M α}

theorem silent_respects {relation : DeviceCachingAllocator → DeviceCachingAllocator → Prop}
    (looks : ∀ before state after, relation before state → SameEssence state after →
      relation before after) (silent : Silent program) :
    Respects relation program :=
  fun before state kept => wp_mono (silent state state rfl)
    (fun _ after same => looks before state after kept same)
    fun _ after failed => failed.imp_right fun same => looks before state after kept same

/-- No call of `synchronize_and_free_events` lies between the states. -/
def SameSyncs (before after : DeviceCachingAllocator) : Prop :=
  after.stats.numSyncAllStreams = before.stats.numSyncAllStreams

theorem sameSyncs_of_silent (silent : Silent program) : Respects SameSyncs program := by
  refine silent_respects (fun before state after kept same => ?_) silent
  exact (congrArg Essence.numSyncAllStreams same).trans kept

section Accesses

theorem silent_modify {change : DeviceCachingAllocator → DeviceCachingAllocator}
    (same : ∀ state, essence (change state) = essence state) : Silent (modify change : M PUnit) :=
  .modify fun before state kept => by
    rw [SameEssence, same]
    exact kept

theorem silent_modifyStats {change : DeviceStats → DeviceStats}
    (same : ∀ stats, (change stats).numSyncAllStreams = stats.numSyncAllStreams) :
    Silent (modifyStats change) :=
  silent_modify fun state => by simp [essence, same]

theorem silent_internalAssert (condition : Bool) : Silent (internalAssert condition) :=
  .ite (.pure _) (.throw _)

theorem silent_when {condition : Bool} {action : M Unit} (silent : Silent action) :
    Silent (when condition action) :=
  .ite silent (.pure _)

theorem silent_whenOwned {pool : PoolRef} {action : PrivatePoolId → M Unit}
    (silent : ∀ owner, Silent (action owner)) : Silent (whenOwned pool action) := by
  unfold whenOwned
  split
  · exact silent _
  · exact .pure _

theorem silent_deref (id : BlockId) : Silent (deref id) :=
  .read fun state => by
    cases state.heap.get? id with
    | none => exact .throw _
    | some block => exact .pure _

theorem silent_update (id : BlockId) (change : Block → Block) : Silent (update id change) :=
  .read fun state => by
    cases state.heap.get? id with
    | none => exact .throw _
    | some block => exact silent_modify fun _ => rfl

theorem silent_newBlock (block : Block) : Silent (newBlock block) :=
  .read fun _ => .bind (silent_modify fun _ => rfl) fun _ => .pure _

theorem silent_deleteBlock (id : BlockId) : Silent (deleteBlock id) :=
  .read fun state => by
    cases state.heap.get? id with
    | none => exact .throw _
    | some block => exact silent_modify fun _ => rfl

theorem silent_derefPool (id : PrivatePoolId) : Silent (derefPool id) :=
  .read fun state => by
    cases state.privatePools.get? id with
    | none => exact .throw _
    | some pool => exact .pure _

theorem silent_updatePrivatePool (id : PrivatePoolId) {change : PrivatePool → PrivatePool}
    (same : ∀ pool, (change pool).useCount = pool.useCount) :
    Silent (updatePrivatePool id change) :=
  .read fun state => by
    cases state.privatePools.get? id with
    | none => exact .throw _
    | some pool =>
      refine silent_modify fun state => ?_
      unfold essence
      congr 1
      funext other
      rw [Store.get?_modify]
      split
      · next here =>
          subst here
          cases state.privatePools.get? other with
          | none => rfl
          | some found => exact congrArg some (same found)
      · rfl

theorem silent_poolErase (ref : PoolRef) (id : BlockId) : Silent (poolErase ref id) :=
  .bind (silent_deref id) fun _ => silent_modify fun _ => rfl

theorem silent_unmappedErase (ref : PoolRef) (id : BlockId) : Silent (unmappedErase ref id) :=
  .bind (silent_deref id) fun _ => silent_modify fun _ => rfl

theorem silent_unmappedInsert (ref : PoolRef) (id : BlockId) : Silent (unmappedInsert ref id) :=
  .bind (silent_deref id) fun _ => silent_modify fun state => by
    split <;> rfl

theorem silent_insertIntoBlocks (ref : PoolRef) (id : BlockId) : Silent (insertIntoBlocks ref id) :=
  .read fun _ => .bind (silent_update id _) fun _ => .read fun _ =>
    .ite (.pure _) (.bind (silent_modify fun _ => rfl) fun _ => .pure _)

theorem silent_log (entry : JournalEntry) : Silent (log entry) := silent_modify fun _ => rfl

theorem silent_ownerMempoolId (ref : PoolRef) : Silent (ownerMempoolId ref) := by
  unfold ownerMempoolId
  split
  · exact .bind (silent_derefPool _) fun _ => .pure _
  · exact .pure _

theorem silent_recordTrace (action : TraceAction) (addr : Int) (size : Nat) (stream : Stream)
    (device : Nat) (mempool : MempoolId) :
    Silent (recordTrace action addr size stream device mempool) := by
  apply silent_modify
  intro state
  split
  · rfl
  · split <;> rfl

theorem silent_onSegment {α : Type} (id : ExpandableId) (method : ExpandableSegment.SegmentM α) :
    Silent (onSegment id method) := by
  intro before state kept
  unfold onSegment wp
  dsimp only
  cases state.expandables.get? id with
  | none => exact .inr kept
  | some segment =>
    dsimp only
    cases method ⟨segment, state.memory⟩ with
    | ok value after => exact kept
    | error exception after => exact .inr kept

end Accesses

section Release

theorem silent_getPrivatePool (mempoolId : MempoolId) : Silent (getPrivatePool mempoolId) :=
  .read fun state => by
    cases state.graphPools.find? (·.1 == mempoolId) with
    | none => exact .throw _
    | some entry => exact .pure _

theorem silent_readOwner (ref : PoolRef) : Silent (readOwner ref) := by
  unfold readOwner
  split
  · exact .bind (silent_derefPool _) fun _ => .pure _
  · exact .pure _

theorem silent_deviceFree (block : Block) (through : Source) : Silent (deviceFree block through) :=
  .bind (silent_log _) fun _ => silent_modify fun _ => rfl

theorem silent_giveBack (block : Block) (active : Option MemPool) :
    Silent (giveBack block active) := by
  unfold giveBack
  split
  · exact .bind (silent_getPrivatePool _) fun _ => .bind (silent_internalAssert _) fun _ =>
      silent_deviceFree _ _
  · exact silent_deviceFree _ _

theorem silent_decreaseSupaMallocCount (pool : PoolRef) : Silent (decreaseSupaMallocCount pool) :=
  silent_whenOwned fun _ => .bind (silent_derefPool _) fun _ => .bind (silent_internalAssert _)
    fun _ => silent_updatePrivatePool _ fun _ => rfl

theorem silent_releaseBlock (id : BlockId) : Silent (releaseBlock id) :=
  .bind (silent_deref id) fun _ => .bind (silent_readOwner _) fun _ => .read fun _ =>
    .bind (silent_log _) fun _ => .bind (silent_internalAssert _) fun _ =>
    .bind (silent_modifyStats fun _ => rfl) fun _ => .bind (silent_ownerMempoolId _) fun _ =>
    .bind (silent_recordTrace _ _ _ _ _ _) fun _ => .bind (silent_giveBack _ _) fun _ =>
    .bind (silent_modify fun _ => rfl) fun _ => .bind (silent_decreaseSupaMallocCount _) fun _ =>
    .read fun _ => .bind (silent_modifyStats fun _ => rfl) fun _ =>
    .bind (silent_poolErase _ _) fun _ => silent_deleteBlock _

theorem silent_orderedBlocks (ref : PoolRef) : Silent (orderedBlocks ref) := .read fun _ => .pure _

theorem silent_releaseExpandableSegment (id : BlockId) : Silent (releaseExpandableSegment id) := by
  refine .bind (silent_deref id) fun block => ?_
  cases block.expandableSegment with
  | none => exact .throw _
  | some expandable =>
    refine .read fun state => ?_
    cases state.expandables.get? expandable with
    | none => exact .throw _
    | some segment =>
      exact .bind (silent_internalAssert _) fun _ => .bind (silent_internalAssert _) fun _ =>
        .read fun _ => .bind (silent_internalAssert _) fun _ =>
        .bind (silent_modify fun _ => rfl) fun _ => .bind (silent_unmappedErase _ _) fun _ =>
        .bind (silent_onSegment _ _) fun _ => .bind (silent_modify fun _ => rfl) fun _ =>
        silent_deleteBlock _

theorem silent_assertIfSome (id : Option BlockId) (condition : Block → Bool) :
    Silent (assertIfSome id condition) := by
  cases id with
  | none => exact .pure _
  | some id => exact .bind (silent_deref id) fun _ => silent_internalAssert _

theorem silent_updateIfSome (id : Option BlockId) (change : Block → Block) :
    Silent (updateIfSome id change) := by
  cases id with
  | none => exact .pure _
  | some id => exact silent_update id change

theorem silent_splice (block : BlockId) (before after : Option BlockId) :
    Silent (splice block before after) :=
  .bind (silent_assertIfSome _ _) fun _ => .bind (silent_updateIfSome _ _) fun _ =>
    .bind (silent_update _ _) fun _ => .bind (silent_assertIfSome _ _) fun _ =>
    .bind (silent_updateIfSome _ _) fun _ => silent_update _ _

theorem silent_tryMergeBlocks (dst : BlockId) (src : Option BlockId) (pool : PoolRef) :
    Silent (tryMergeBlocks dst src pool) := by
  cases src with
  | none => exact .pure _
  | some src =>
    refine .bind (silent_deref _) fun source => .bind (silent_deref _) fun target =>
      .ite (.pure _) (.bind (silent_internalAssert _) fun _ => .bind ?_ fun _ =>
        .bind (silent_update _ _) fun _ => .bind ?_ fun _ =>
        .bind (silent_deleteBlock _) fun _ => .pure _)
    · exact .ite (.bind (silent_update _ _) fun _ => silent_updateIfSome _ _)
        (.bind (silent_update _ _) fun _ => silent_updateIfSome _ _)
    · exact .ite (silent_poolErase _ _) (silent_unmappedErase _ _)

theorem silent_mergeNeighbours (block : BlockId) (pool : PoolRef) :
    Silent (mergeNeighbours block pool) :=
  .bind (silent_deref _) fun _ => .bind (silent_tryMergeBlocks _ _ _) fun _ =>
    .bind (silent_deref _) fun _ => .bind (silent_tryMergeBlocks _ _ _) fun _ => .pure _

theorem silent_cutBefore (block : BlockId) (whole : Block) (beforeSize : Nat) :
    Silent (cutBefore block whole beforeSize) :=
  .bind (silent_newBlock _) fun _ => .bind (silent_splice _ _ _) fun _ =>
    .bind (silent_insertIntoBlocks _ _) fun _ => .pure _

theorem silent_cutAfter (block : BlockId) (whole : Block) (afterPtr afterSize : Nat) :
    Silent (cutAfter block whole afterPtr afterSize) :=
  .bind (silent_newBlock _) fun _ => .bind (silent_deref _) fun _ =>
    .bind (silent_splice _ _ _) fun _ => .bind (silent_insertIntoBlocks _ _) fun _ => .pure _

theorem silent_unmapBlock (block : BlockId) : Silent (unmapBlock block) := by
  refine .bind (silent_deref block) fun whole => ?_
  cases whole.expandableSegment with
  | none => exact .throw _
  | some expandable =>
    refine .bind (silent_onSegment _ _) fun unmapped => .ite (.pure _) ?_
    exact .bind (silent_poolErase _ _) fun _ => .bind (silent_when (silent_cutBefore _ _ _)) fun _ =>
      .bind (silent_when (silent_cutAfter _ _ _ _)) fun _ => .bind (silent_update _ _) fun _ =>
      .bind (silent_mergeNeighbours _ _) fun _ => .bind (silent_unmappedInsert _ _) fun _ =>
      .bind (silent_modify fun _ => rfl) fun _ => .bind (silent_modifyStats fun _ => rfl) fun _ =>
      .bind (silent_decreaseSupaMallocCount _) fun _ =>
      .bind (silent_modifyStats fun _ => rfl) fun _ => .bind (silent_deref _) fun _ =>
      .bind (silent_ownerMempoolId _) fun _ => silent_recordTrace _ _ _ _ _ _

theorem silent_releaseUnsplit (ids toUnmap : List BlockId) : Silent (releaseUnsplit ids toUnmap) := by
  induction ids generalizing toUnmap with
  | nil => exact .pure _
  | cons id rest ih =>
    exact .bind (silent_deref id) fun _ => .ite (ih _)
      (.ite (.bind (silent_releaseBlock id) fun _ => ih _) (ih _))

theorem silent_releaseBlocks (ref : PoolRef) : Silent (releaseBlocks ref) :=
  .bind (silent_orderedBlocks ref) fun _ => .bind (silent_releaseUnsplit _ _) fun _ =>
    .forEach (fun _ => .bind (silent_unmapBlock _) fun _ => .bind (silent_deref _) fun _ =>
      .ite (silent_releaseExpandableSegment _) (.pure _)) _

theorem sameSyncs_deletePrivatePool (mempoolId : MempoolId) (pool : PrivatePoolId) :
    Respects SameSyncs (deletePrivatePool mempoolId pool) :=
  .read fun _ => .bind (sameSyncs_of_silent (silent_internalAssert _)) fun _ =>
    .modify fun _ _ kept => kept

end Release

end TorchSupa.Allocator
