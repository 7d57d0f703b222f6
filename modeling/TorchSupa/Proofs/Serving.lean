import TorchSupa.Proofs.Synchronizing

/-!
What `malloc` and `free` leave alone, as far as they do not delete private pools.
-/

namespace TorchSupa.Allocator

open Outcome

section Blocks

theorem silent_nextTick : Silent nextTick :=
  .read fun _ => .bind (silent_modify fun _ => rfl) fun _ => .pure _

theorem silent_freeBlock (block : BlockId) : Silent (freeBlock block) :=
  .bind (silent_deref _) fun _ => .bind (silent_internalAssert _) fun _ =>
    .bind (silent_ownerMempoolId _) fun _ => .bind (silent_recordTrace _ _ _ _ _ _) fun _ =>
    .bind (silent_tryMergeBlocks _ _ _) fun _ => .bind (silent_tryMergeBlocks _ _ _) fun _ =>
    .bind (silent_modify fun _ => rfl) fun _ => .bind (silent_insertIntoBlocks _ _) fun _ =>
    .bind (silent_internalAssert _) fun _ => .bind (silent_log _) fun _ =>
    .bind (silent_deref _) fun _ => silent_modifyStats fun stats => by
      unfold freeBlockStats
      split <;> rfl

theorem silent_splitFoundBlock (params : AllocParams) (remaining : BlockId) :
    Silent (splitFoundBlock params remaining) :=
  .bind (silent_deref _) fun _ => .bind (silent_newBlock _) fun _ =>
    .bind (silent_updateIfSome _ _) fun _ => .bind (silent_update _ _) fun _ =>
    .bind (silent_update _ _) fun _ => .bind (silent_insertIntoBlocks _ _) fun _ => .pure _

theorem silent_takeFoundBlock (params : AllocParams) (found : BlockId) (before : Block)
    (splitRemainder : Bool) : Silent (takeFoundBlock params found before splitRemainder) := by
  refine .ite ?_ ?_
  · refine .bind (silent_splitFoundBlock _ _) fun _ => .bind (silent_deref _) fun _ =>
      .bind (silent_modifyStats fun stats => ?_) fun _ => .pure _
    split
    · rfl
    · split <;> rfl
  · refine .bind (silent_modifyStats fun stats => ?_) fun _ => .pure _
    split <;> rfl

theorem silent_markAllocated (params : AllocParams) (origSize : Nat) (block : BlockId) :
    Silent (markAllocated params origSize block) :=
  .bind (silent_update _ _) fun _ => .bind (silent_deref _) fun _ =>
    .bind (silent_ownerMempoolId _) fun _ => .bind (silent_recordTrace _ _ _ _ _ _) fun _ =>
    .bind (silent_log _) fun _ => .bind (silent_modify fun _ => rfl) fun _ => .read fun _ =>
    .bind (silent_modifyStats fun _ => rfl) fun _ => .pure _

theorem silent_allocFoundBlock (params : AllocParams) (origSize : Nat) (splitRemainder : Bool) :
    Silent (allocFoundBlock params origSize splitRemainder) := by
  unfold allocFoundBlock
  cases params.block with
  | none => exact .throw _
  | some found =>
    exact .bind (silent_deref _) fun _ => .bind (silent_internalAssert _) fun _ =>
      .bind (silent_takeFoundBlock _ _ _ _) fun _ => silent_markAllocated _ _ _

theorem silent_cutRemaining (toMap : BlockId) (block : Block) (mappedSize : Nat) :
    Silent (cutRemaining toMap block mappedSize) :=
  .bind (silent_newBlock _) fun _ => .bind (silent_splice _ _ _) fun _ =>
    .bind (silent_unmappedInsert _ _) fun _ => silent_update _ _

theorem silent_mapBlock (driver : Driver) (toMap : BlockId) (size : Nat) :
    Silent (mapBlock driver toMap size) := by
  refine .bind (silent_deref _) fun block => .bind (silent_internalAssert _) fun _ => ?_
  cases block.expandableSegment with
  | none => exact .throw _
  | some expandable =>
    exact .bind (silent_onSegment _ _) fun _ => .ite (.pure _) <|
      .bind (silent_internalAssert _) fun _ => .bind (silent_unmappedErase _ _) fun _ =>
      .bind (silent_update _ _) fun _ => .bind (silent_when (silent_cutRemaining _ _ _)) fun _ =>
      .bind (silent_mergeNeighbours _ _) fun _ => .bind (silent_insertIntoBlocks _ _) fun _ =>
      .bind (silent_modify fun _ => rfl) fun _ => .bind (silent_modifyStats fun _ => rfl) fun _ =>
      .bind (silent_deref _) fun _ => .bind (silent_ownerMempoolId _) fun _ =>
      .bind (silent_recordTrace _ _ _ _ _ _) fun _ => .pure _

end Blocks

section Events

variable (driver : Driver)

theorem silent_eventCallFailed {α : Type} : Silent (eventCallFailed : M α) :=
  .bind (silent_log _) fun _ => .throw _

theorem silent_removeSupagraphStreamUses (block : BlockId) :
    Silent (removeSupagraphStreamUses block) := by
  refine .read fun state => ?_
  cases state.blockToSupagraphStreamUses.find? (·.1 == block) with
  | none => exact .pure _
  | some captured => exact .bind (silent_update _ _) fun _ => silent_modify fun _ => rfl

theorem silent_recordEvent (stream : Stream) (block : BlockId) :
    Silent (recordEvent driver stream block) :=
  .bind silent_nextTick fun _ => .ite silent_eventCallFailed <| .bind silent_nextTick fun _ =>
    .ite silent_eventCallFailed <| .read fun _ => .bind (silent_modify fun _ => rfl) fun _ =>
    .bind (silent_log _) fun _ => .pure _

theorem silent_insertEvents (block : BlockId) : Silent (insertEvents driver block) := by
  refine .bind (silent_deref _) fun _ => .bind (silent_update _ _) fun _ => .read fun _ => ?_
  refine .forEach (fun _ => ?_) _
  exact .bind (silent_recordEvent driver _ _) fun _ => .bind (silent_update _ _) fun _ =>
    silent_modify fun _ => rfl

theorem silent_insertEventsDeferredUntilNoCapture :
    Silent (insertEventsDeferredUntilNoCapture driver) :=
  .read fun _ => .bind (.forEach (fun _ => .bind (silent_deref _) fun _ =>
    .bind (silent_internalAssert _) fun _ => .bind (silent_removeSupagraphStreamUses _) fun _ =>
    .bind (silent_insertEvents driver _) fun _ => .bind (silent_deref _) fun _ =>
    .ite (silent_freeBlock _) (.pure _)) _) fun _ => silent_modify fun _ => rfl

theorem silent_eventDoneFor (event : Nat) (block : BlockId) : Silent (eventDoneFor event block) :=
  .bind (silent_log _) fun _ => .bind (silent_update _ _) fun _ => .bind (silent_deref _) fun _ =>
    .ite (silent_freeBlock _) (.pure _)

theorem silent_drainStream (stream : Stream) (turns : Nat) :
    Silent (drainStream driver stream turns) := by
  induction turns with
  | zero => exact .pure _
  | succ turns ih =>
    refine .read fun state => ?_
    cases state.supaEvents.find? (·.stream == stream) with
    | none => exact .pure _
    | some entry =>
      refine .bind (silent_modify fun _ => rfl) fun _ => ?_
      cases entry.event with
      | none => exact .throw _
      | some event =>
        exact .bind silent_nextTick fun _ => .ite silent_eventCallFailed <|
          .ite (silent_modify fun _ => rfl) <| .bind (silent_eventDoneFor _ _) fun _ =>
          .bind (silent_modify fun _ => rfl) fun _ => ih

theorem silent_processEvents : Silent (processEvents driver) :=
  .bind (silent_insertEventsDeferredUntilNoCapture driver) fun _ => .read fun _ =>
    .forEach (fun _ => silent_drainStream driver _ _) _

theorem silent_synchronizeEntry (pool : Option PrivatePoolId) (entry : EventEntry) :
    Silent (synchronizeEntry driver pool entry) := by
  refine .bind (silent_deref _) fun _ => .ite (.pure _) <|
    .bind (silent_modify fun _ => rfl) fun _ => ?_
  cases entry.event with
  | none => exact .throw _
  | some event =>
    exact .bind silent_nextTick fun _ => .ite silent_eventCallFailed <| .ite (.throw _) <|
      .bind (silent_modify fun _ => rfl) fun _ => .bind (silent_eventDoneFor _ _) fun _ =>
      silent_modify fun _ => rfl

theorem silent_free (block : BlockId) : Silent (free driver block) :=
  .bind (silent_update _ _) fun _ => .bind (silent_deref _) fun _ => .read fun _ =>
    .bind (silent_modifyStats fun _ => rfl) fun _ => .bind (silent_ownerMempoolId _) fun _ =>
    .bind (silent_recordTrace _ _ _ _ _ _) fun _ => .bind (silent_log _) fun _ =>
    .bind (silent_modifyStats fun _ => rfl) fun _ =>
    .ite (.read fun _ => .ite (silent_modify fun _ => rfl) (silent_insertEvents driver _))
      (silent_freeBlock _)

end Events

section Releasing

theorem silent_releaseDown (maxSplitSize keySize : Nat) (stream : Stream) (ids : List BlockId)
    (released : Nat) : Silent (releaseDown maxSplitSize keySize stream ids released) := by
  induction ids generalizing released with
  | nil => exact .pure _
  | cons id rest ih =>
    exact .bind (silent_deref _) fun _ =>
      .ite (.ite (.bind (silent_releaseBlock _) fun _ => ih _) (ih _)) (.pure _)

theorem silent_fittingBlock (params : AllocParams) (ids : List BlockId) :
    Silent (fittingBlock params ids) := by
  cases ids with
  | nil => exact .pure _
  | cons id rest => exact .bind (silent_deref _) fun _ => .pure _

theorem silent_releaseAvailableCachedBlocks (params : AllocParams) :
    Silent (releaseAvailableCachedBlocks params) := by
  refine .read fun state => .ite (.pure _) ?_
  refine .bind (silent_readOwner _) fun _ => .bind (silent_log _) fun _ =>
    .bind (silent_orderedBlocks _) fun _ => .bind (silent_fittingBlock _ _) fun found => ?_
  cases found with
  | some id => exact .bind (silent_releaseBlock _) fun _ => .pure _
  | none => exact .bind (silent_releaseDown _ _ _ _ _) fun _ => .pure _

theorem silent_collectOlder (ageThreshold : Rat) (ids : List BlockId) (gc : GarbageCollection) :
    Silent (collectOlder ageThreshold ids gc) := by
  induction ids generalizing gc with
  | nil => exact .pure _
  | cons id rest ih =>
    exact .bind (silent_deref _) fun _ => .read fun _ =>
      .ite (.bind (silent_releaseBlock _) fun _ => ih _) (ih _)

theorem silent_collectUntil (target turns : Nat) (gc : GarbageCollection) :
    Silent (collectUntil target turns gc) := by
  induction turns generalizing gc with
  | zero => exact .throw _
  | succ turns ih =>
    exact .ite (.bind (silent_orderedBlocks _) fun _ => .bind (silent_collectOlder _ _ _)
      fun _ => ih _) (.pure _)

theorem silent_garbageCollectCachedBlocks (driver : Driver) :
    Silent (garbageCollectCachedBlocks driver) :=
  .read fun _ => .ite (.pure _) (.ite (.pure _) (silent_collectUntil _ _ _))

end Releasing

section Searching

theorem silent_getPool (size : Nat) (stream : Stream) : Silent (getPool size stream) := by
  refine .read fun state => ?_
  split
  · split
    · exact .pure _
    · exact .throw _
  · exact .pure _

theorem silent_expandableSize (id : BlockId) : Silent (expandableSize id) := by
  refine .bind (silent_deref _) fun block => ?_
  cases block.next with
  | none => exact .pure _
  | some next => exact .bind (silent_deref _) fun _ => .pure _

theorem silent_bestExpandable (stream : Stream) (it : BlockId) (rest : List BlockId) :
    Silent (bestExpandable stream it rest) := by
  induction rest generalizing it with
  | nil => exact .pure _
  | cons next rest ih =>
    exact .bind (silent_deref _) fun _ => .bind (silent_deref _) fun _ =>
      .ite (.bind (silent_expandableSize _) fun _ => .bind (silent_expandableSize _) fun _ =>
        .ite (ih _) (.pure _)) (.pure _)

theorem silent_skipExpandable (stream : Stream) (ids : List BlockId) :
    Silent (skipExpandable stream ids) := by
  induction ids with
  | nil => exact .pure _
  | cons it rest ih => exact .bind (silent_deref _) fun _ => .ite ih (.pure _)

theorem silent_chooseFreeBlock (config : SUPAAllocatorConfig) (stream : Stream)
    (ids : List BlockId) : Silent (chooseFreeBlock config stream ids) := by
  cases ids with
  | nil => exact .pure _
  | cons it rest =>
    refine .bind (silent_deref _) fun _ => .ite (.pure _) <| .ite (.pure _) <| .ite ?_ ?_
    · exact .bind (silent_bestExpandable _ _ _) fun _ => .pure _
    · refine .bind (silent_skipExpandable _ _) fun others => ?_
      cases others with
      | nil => exact .pure _
      | cons it rest => exact .bind (silent_deref _) fun _ => .pure _

theorem silent_getFreeBlock (params : AllocParams) : Silent (getFreeBlock params) := by
  refine .read fun _ => .read fun _ => .bind (silent_when (silent_modify fun _ => rfl)) fun _ =>
    .read fun _ => .bind (silent_orderedBlocks _) fun _ =>
    .bind (silent_chooseFreeBlock _ _ _) fun found => ?_
  cases found with
  | none => exact .pure _
  | some it =>
    exact .bind (silent_deref _) fun _ => .ite (.pure _) <| .ite (.pure _) <|
      .bind (silent_poolErase _ _) fun _ => .pure _

theorem silent_availableFrom (size turns : Nat) (pointer : Option BlockId) (bytes : Nat) :
    Silent (availableFrom size turns pointer bytes) := by
  induction turns generalizing pointer bytes with
  | zero => exact .throw _
  | succ turns ih =>
    cases pointer with
    | none => exact .pure _
    | some id =>
      exact .ite (.pure _) (.bind (silent_deref _) fun _ => .ite (ih _ _) (.pure _))

theorem silent_candidateFor (id : BlockId) (block : Block) : Silent (candidateFor id block) := by
  unfold candidateFor
  cases block.prev with
  | none => exact .pure _
  | some before => exact .bind (silent_deref _) fun _ => .pure _

theorem silent_findAvailable (stream : Stream) (size : Nat) (ids : List BlockId) :
    Silent (findAvailable stream size ids) := by
  induction ids with
  | nil => exact .pure _
  | cons id rest ih =>
    exact .bind (silent_deref _) fun _ => .ite (.pure _) <|
      .bind (silent_candidateFor _ _) fun _ => .read fun _ =>
      .bind (silent_availableFrom _ _ _ _) fun _ => .ite (.pure _) ih

section

variable (driver : Driver)
include driver

theorem silent_newExpandableSegment (params : AllocParams) :
    Silent (newExpandableSegment driver params) := by
  refine .bind silent_nextTick fun tick => .read fun state => ?_
  dsimp only
  split
  · exact .throw _
  · exact .bind (silent_modify fun _ => rfl) fun _ => .bind (silent_newBlock _) fun _ =>
      .bind (silent_unmappedInsert _ _) fun _ => .pure _

theorem silent_findExpandableBlock (params : AllocParams) :
    Silent (findExpandableBlock driver params) := by
  refine .read fun _ => .bind (silent_findAvailable _ _ _) fun found => ?_
  cases found with
  | some candidate => exact .pure _
  | none => exact silent_newExpandableSegment _ _

theorem silent_expandCandidate (size turns : Nat) (candidate : BlockId) :
    Silent (expandCandidate driver size turns candidate) := by
  induction turns generalizing candidate with
  | zero => exact .throw _
  | succ turns ih =>
    refine .bind (silent_deref _) fun block => .ite ?_ (.pure _)
    cases block.next with
    | none => exact .throw _
    | some newCandidate =>
      exact .bind (silent_deref _) fun _ => .bind (silent_mapBlock _ _ _) fun _ =>
        .ite (ih _) (.pure _)

theorem silent_mapCandidate (size : Nat) (candidate : BlockId) :
    Silent (mapCandidate driver size candidate) :=
  .bind (silent_deref _) fun _ => .ite (.pure _) (silent_mapBlock _ _ _)

theorem silent_tryAllocateExpandableBlock (params : AllocParams) :
    Silent (tryAllocateExpandableBlock driver params) := by
  refine .bind (silent_findExpandableBlock _ _) fun _ => .bind (silent_mapCandidate _ _ _) fun _ =>
    .ite ?_ (.pure _)
  refine .bind (silent_deref _) fun _ => .bind (silent_internalAssert _) fun _ =>
    .bind (silent_expandCandidate _ _ _ _) fun found => ?_
  cases found with
  | none => exact .pure _
  | some candidate => exact .bind (silent_poolErase _ _) fun _ => .pure _

theorem silent_supaMallocMaybeCapturing (size : Nat) (params : AllocParams) :
    Silent (supaMallocMaybeCapturing driver size params) := by
  refine .bind (silent_readOwner _) fun _ => .bind silent_nextTick fun _ => .read fun _ => ?_
  split
  · exact .pure _
  · exact .bind (silent_modify fun _ => rfl) fun _ => .pure _

end

theorem silent_checkActiveMemPool (pool : PoolRef) : Silent (checkActiveMemPool pool) := by
  refine .read fun state => ?_
  split
  · exact silent_when (.bind (silent_getPrivatePool _) fun _ => silent_internalAssert _)
  · exact .pure _

theorem silent_adoptSegment (params : AllocParams) (range : Segment) :
    Silent (adoptSegment params range) :=
  .bind (silent_whenOwned fun _ => silent_updatePrivatePool _ fun _ => rfl) fun _ =>
    .bind (silent_modify fun _ => rfl) fun _ => .bind (silent_newBlock _) fun _ => .read fun _ =>
    .bind (silent_modifyStats fun _ => rfl) fun _ => .bind (silent_ownerMempoolId _) fun _ =>
    .bind (silent_recordTrace _ _ _ _ _ _) fun _ => .pure _

theorem silent_allocBlock (driver : Driver) (params : AllocParams) (isRetry : Bool) :
    Silent (allocBlock driver params isRetry) := by
  refine .bind (silent_when (silent_modifyStats fun _ => rfl)) fun _ => .read fun _ =>
    .ite (.pure _) <| .ite (silent_tryAllocateExpandableBlock _ _) <|
    .bind (silent_checkActiveMemPool _) fun _ =>
    .bind (silent_supaMallocMaybeCapturing _ _ _) fun found => ?_
  cases found with
  | none => exact .pure _
  | some range => exact .bind (silent_adoptSegment _ _) fun _ => .pure _

theorem silent_triggerFreeMemoryCallbacks (driver : Driver) (callbacks : Callbacks) :
    Silent (triggerFreeMemoryCallbacks driver callbacks) := by
  refine .bind (.forEach (fun block => .read fun state => ?_) _) fun _ => .pure _
  cases state.heap.get? block with
  | none => exact .pure _
  | some held => exact .ite (silent_free _ _) (.pure _)

theorem silent_reportOutOfMemory (driver : Driver) (params : AllocParams) :
    Silent (reportOutOfMemory driver params) :=
  .bind silent_nextTick fun _ => .bind (silent_ownerMempoolId _) fun _ =>
    .bind (silent_recordTrace _ _ _ _ _ _) fun _ => .bind (silent_modifyStats fun _ => rfl)
    fun _ => .read fun _ => .throw _

end Searching

end TorchSupa.Allocator
