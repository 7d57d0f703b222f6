import TorchSupa.Allocator.Events

/-!
The paths that give memory back to the device.
-/

namespace TorchSupa.Allocator

open Outcome

/-- `supaFree(block->ptr)` or `raw_delete(block->ptr)`: the range that was allocated there
is no longer in use. -/
def deviceFree (block : Block) (through : Source) : M Unit := do
  log (.deviceFree block through)
  modify fun state =>
    { state with
      segments := state.segments.filter fun segment =>
        segment.base != block.ptr || segment.expandable.isSome }

def getPrivatePool (mempoolId : MempoolId) : M PrivatePoolId := do
  match (← get).graphPools.find? (·.1 == mempoolId) with
  | some entry => pure entry.2
  | none => throw .internalAssert

def readOwner (ref : PoolRef) : M (Option PrivatePool) := do
  match ref.owner with
  | some id => do pure (some (← derefPool id))
  | none => pure none

def giveBack (block : Block) (active : Option MemPool) : M Unit :=
  match active.bind fun mempool => mempool.allocator.map fun allocator => (mempool.id, allocator),
      block.pool.owner with
  | some (mempoolId, allocator), some ownerId => do
      internalAssert ((← getPrivatePool mempoolId) == ownerId)
      deviceFree block (.rawAlloc allocator)
  | _, _ => deviceFree block .supaMalloc

def releaseBlock (id : BlockId) : M Unit := do
  let block ← deref id
  let owner ← readOwner block.pool
  let active := (← get).caller.activeMemPool
  log (.releaseBlock block owner active)
  internalAssert block.expandableSegment.isNone
  modifyStats fun stats => { stats with numDeviceFree := stats.numDeviceFree + 1 }
  recordTrace .segmentFree block.ptr block.size block.stream block.device
    (← ownerMempoolId block.pool)
  giveBack block active
  modify fun state =>
    { state with totalAllocatedMemory := state.totalAllocatedMemory - block.size }
  decreaseSupaMallocCount block.pool
  let maxSplitSize := (← get).config.maxSplitSize
  modifyStats fun stats =>
    { stats with
      segment := stats.segment.forSelected block.pool.isSmall (·.decrease 1)
      reservedBytes := stats.reservedBytes.forSelected block.pool.isSmall (·.decrease block.size)
      oversizeSegments :=
        if block.size ≥ maxSplitSize then stats.oversizeSegments.decrease 1
        else stats.oversizeSegments }
  poolErase block.pool id
  deleteBlock id

def orderedBlocks (ref : PoolRef) : M (List BlockId) := do
  let state ← get
  pure (inOrder blockComparatorSize state.heap (state.pools ref).blocks)

/-- `delete block->expandable_segment_; delete block` with the bookkeeping before it. -/
def releaseExpandableSegment (id : BlockId) : M Unit := do
  let block ← deref id
  match block.expandableSegment with
  | none => throw .undefinedBehaviour
  | some expandable => do
      match (← get).expandables.get? expandable with
      | none => throw .undefinedBehaviour
      | some segment => internalAssert (block.size == segment.size)
      internalAssert (!block.mapped)
      internalAssert ((← get).expandableSegments.contains expandable)
      modify fun state =>
        { state with expandableSegments := state.expandableSegments.erase expandable }
      unmappedErase block.pool id
      onSegment expandable ExpandableSegment.destroy
      -- suMemAddressFree
      modify fun state =>
        { state with
          expandables := state.expandables.erase expandable
          segments := state.segments.filter fun range => range.base != block.ptr }
      deleteBlock id

/-- The first loop of `release_blocks`: releases the unsplit blocks and collects the
expandable ones, whose unmapping changes the pool. -/
def releaseUnsplit : List BlockId → List BlockId → M (List BlockId)
  | [], toUnmap => pure toUnmap
  | id :: rest, toUnmap => do
      let block ← deref id
      if block.expandableSegment.isSome then
        releaseUnsplit rest (toUnmap ++ [id])
      else if block.prev.isNone && block.next.isNone then do
        releaseBlock id
        releaseUnsplit rest toUnmap
      else
        releaseUnsplit rest toUnmap

def releaseBlocks (ref : PoolRef) : M Unit := do
  let toUnmap ← releaseUnsplit (← orderedBlocks ref) []
  forEach (fun id => do
    unmapBlock id
    let block ← deref id
    if block.prev.isNone && block.next.isNone then releaseExpandableSegment id else pure ())
    toUnmap

/-- The loop of `release_available_cached_blocks` down from the largest block of the
stream; the blocks are those before the lower bound, largest first. -/
def releaseDown (maxSplitSize keySize : Nat) (stream : Stream) : List BlockId → Nat → M Nat
  | [], released => pure released
  | id :: rest, released => do
      let block ← deref id
      if released < keySize && block.size ≥ maxSplitSize && block.stream == stream then
        if block.expandableSegment.isNone then do
          releaseBlock id
          releaseDown maxSplitSize keySize stream rest (released + block.size)
        else
          releaseDown maxSplitSize keySize stream rest released
      else pure released

/-- The blocks of a pool that `release_available_cached_blocks` may hand to
`release_block`: not expandable, of the stream, and at least `max_split_size` long. -/
def oversizeBlocks (state : DeviceCachingAllocator) (ref : PoolRef) (stream : Stream) :
    List Block :=
  ((state.pools ref).blocks.filterMap state.heap.get?).filter fun block =>
    block.expandableSegment.isNone && block.stream == stream &&
      block.size ≥ state.config.maxSplitSize

/-- The first block from the lower bound on, unless it is another stream's or expandable. -/
def fittingBlock (params : AllocParams) : List BlockId → M (Option BlockId)
  | [] => pure none
  | id :: _ => do
      let block ← deref id
      pure (if block.stream ≠ params.stream || block.expandableSegment.isSome then none
        else some id)

def releaseAvailableCachedBlocks (params : AllocParams) : M Bool := do
  let state ← get
  let maxSplitSize := state.config.maxSplitSize
  if maxSplitSize = sizeMax then
    pure false
  else do
    log (.releaseAvailable params.pool (← readOwner params.pool)
      (oversizeBlocks state params.pool params.stream))
    let keySize := if params.size < maxSplitSize then maxSplitSize else params.size
    let ordered ← orderedBlocks params.pool
    let key := searchKey params.stream keySize
    let from_ := lowerBound blockComparatorSize state.heap key ordered
    match ← fittingBlock params from_ with
    | some id => do
        releaseBlock id
        pure true
    | none => do
        -- no single block is large enough: from the largest of the stream down
        let before := (ordered.take (ordered.length - from_.length)).reverse
        let released ← releaseDown maxSplitSize keySize params.stream before 0
        pure (!before.isEmpty && released ≥ keySize)

def deletePrivatePool (mempoolId : MempoolId) (pool : PrivatePoolId) : M Unit := do
  internalAssert ((← get).graphPools.any (·.1 == mempoolId))
  modify fun state =>
    { state with
      graphPools := state.graphPools.filter fun other => other.1 != mempoolId
      privatePools := state.privatePools.erase pool
      graphPoolsFreeable := state.graphPoolsFreeable.filter fun other => other.1 != mempoolId }

def releaseFreeablePool (driver : Driver) (mempoolId : MempoolId) (pool : PrivatePoolId) :
    M Unit := do
  match (← get).graphPoolsFreeable.find? (·.2 == pool) with
  | none => pure ()
  | some entry => do
      if mempoolId ≠ (0, 0) && entry.1 ≠ mempoolId then
        pure ()
      else do
        when (mempoolId ≠ (0, 0)) (synchronizeAndFreeEvents driver (some pool))
        internalAssert ((← derefPool pool).useCount == 0)
        releaseBlocks ⟨some pool, true⟩
        releaseBlocks ⟨some pool, false⟩
        when ((← derefPool pool).supaMallocCount == 0) (deletePrivatePool entry.1 pool)

def releaseCachedBlocks (driver : Driver) (mempoolId : MempoolId) : M Bool := do
  let state ← get
  let mempoolId := (state.caller.activeMemPool.map (·.id)).getD mempoolId
  when (mempoolId = (0, 0) && state.capturesUnderway.isEmpty) do
    synchronizeAndFreeEvents driver none
    releaseBlocks ⟨none, false⟩
    releaseBlocks ⟨none, true⟩
  let state ← get
  forEach (fun pool => releaseFreeablePool driver mempoolId pool)
    (driver.order state.memory.tick (state.graphPoolsFreeable.map (·.2)))
  pure true

def gcCount (pool : BlockPool) (block : Block) : Int :=
  pool.getFreeBlocksCallCount - block.gcCountBase

structure GarbageCollection where
  reclaimed : Nat := 0
  totalAge : Rat := 0
  freeableBlockCount : Int := 0
  blockFreed : Bool := true

def collectOlder (ageThreshold : Rat) : List BlockId → GarbageCollection → M GarbageCollection
  | [], gc => pure gc
  | id :: rest, gc => do
      let block ← deref id
      let age : Rat := gcCount ((← get).pools block.pool) block
      if !block.isSplit && block.expandableSegment.isNone && age ≥ ageThreshold then do
        releaseBlock id
        collectOlder ageThreshold rest
          { reclaimed := gc.reclaimed + block.size
            totalAge := gc.totalAge - age
            freeableBlockCount := gc.freeableBlockCount - 1
            blockFreed := true }
      else
        collectOlder ageThreshold rest gc

def collectUntil (target : Nat) : Nat → GarbageCollection → M Unit
  | 0, _ => throw .diverged
  | turns + 1, gc => do
      if gc.reclaimed < target && gc.blockFreed && gc.freeableBlockCount > 0 then do
        let after ← collectOlder (gc.totalAge / gc.freeableBlockCount)
          (← orderedBlocks ⟨none, false⟩) { gc with blockFreed := false }
        collectUntil target turns after
      else pure ()

def garbageCollectCachedBlocks (driver : Driver) : M Unit := do
  let state ← get
  let gcThreshold :=
    (state.config.garbageCollectionThreshold * state.allowedMemoryMaximum).floor
  if state.totalAllocatedMemory ≤ gcThreshold then
    pure ()
  else do
    let target := (state.totalAllocatedMemory - gcThreshold).toNat
    let pool := state.pools ⟨none, false⟩
    let freeable := (pool.blocks.filterMap state.heap.get?).filter fun block => !block.isSplit
    if freeable.isEmpty then
      pure ()
    else
      collectUntil target driver.fuel
        { totalAge := (freeable.map fun block => ((gcCount pool block : Int) : Rat)).sum
          freeableBlockCount := freeable.length }

end TorchSupa.Allocator
