import TorchSupa.Allocator.PrivatePools

/-!
Checkpoints of a private pool: recording its segments and replaying them.
-/

namespace TorchSupa.Allocator

open Outcome

def selectM (keep : Block → Bool) : List BlockId → M (List BlockId)
  | [] => pure []
  | id :: rest => do
      let block ← deref id
      let selected ← selectM keep rest
      pure (if keep block then id :: selected else selected)

def getPrivatePoolHeadBlocks (driver : Driver) (pool : PrivatePoolId) : M (List BlockId) := do
  let state ← get
  let active ← selectM (fun block => block.pool.owner == some pool && block.prev.isNone)
    (driver.order state.memory.tick state.activeBlocks)
  let small ← selectM (·.prev.isNone) (← orderedBlocks ⟨some pool, true⟩)
  let large ← selectM (·.prev.isNone) (← orderedBlocks ⟨some pool, false⟩)
  pure (active ++ small ++ large)

def chainFrom : Nat → Option BlockId → M (List BlockId)
  | 0, _ => throw .diverged
  | turns + 1, pointer =>
    match pointer with
    | none => pure []
    | some id => do
        let block ← deref id
        let rest ← chainFrom turns block.next
        pure (id :: rest)

def blockState (id : BlockId) : M BlockState := do
  let block ← deref id
  torchCheck (block.eventCount == 0) "Events should have synchronized when checkpointing block"
  pure {
    stream := block.stream
    streamUses := block.streamUses
    size := block.size
    ptr := block.ptr
    allocated := block.allocated
    gcCountBase := block.gcCountBase }

def mapBlocks {α : Type} (body : BlockId → M α) : List BlockId → M (List α)
  | [] => pure []
  | id :: rest => do
      let first ← body id
      let others ← mapBlocks body rest
      pure (first :: others)

def segmentState (head : BlockId) : M SegmentState := do
  let block ← deref head
  internalAssert block.prev.isNone
  let blocks ← mapBlocks blockState (← chainFrom ((← get).heap.fresh + 2) (some head))
  internalAssert (!blocks.isEmpty)
  pure { blocks, isSmall := block.pool.isSmall, segment := block.segment }

def getCheckpointState (driver : Driver) (mempoolId : MempoolId) : M PrivatePoolState := do
  insertEventsDeferredUntilNoCapture driver
  match (← get).graphPools.find? (·.1 == mempoolId) with
  | some entry => do
      let segments ← mapBlocks segmentState (← getPrivatePoolHeadBlocks driver entry.2)
      let taken : PrivatePoolState := { ownerId := mempoolId, segments }
      modify fun state => { state with checkpoints := taken :: state.checkpoints }
      pure taken
  | none =>
    if (← get).graphPoolsFreeable.any (·.1 == mempoolId) then
      throw (.torchCheck "Not expected to checkpoint freeable graph")
    else throw (.torchCheck "Could not find pool of id")

/-- What `setCheckpointPoolState` reports: the addresses freed and the blocks that are
live in the checkpoint. -/
structure RestoreResult where
  allocationsFreed : List Nat := []
  allocationsCreated : List BlockId := []
deriving DecidableEq, Repr, Inhabited

def freeAllocatedFrom (driver : Driver) : Nat → Option BlockId → RestoreResult → M RestoreResult
  | 0, _, _ => throw .diverged
  | turns + 1, pointer, result =>
    match pointer with
    | none => pure result
    | some id => do
        let block ← deref id
        if block.allocated then do
          torchCheck (block.eventCount == 0)
            "Events should have synchronized when setting checkpointed block"
          free driver id
          let freed ← deref id
          torchCheck (!freed.allocated) "!curr->allocated"
          freeAllocatedFrom driver turns freed.next
            { result with allocationsFreed := result.allocationsFreed ++ [block.ptr] }
        else
          freeAllocatedFrom driver turns block.next result

def freeHeads (driver : Driver) : List BlockId → RestoreResult → M RestoreResult
  | [], result => pure result
  | head :: rest, result => do
      let result ← freeAllocatedFrom driver ((← get).heap.fresh + 2) (some head) result
      freeHeads driver rest result

def checkNotAllocated (head : BlockId) : M Unit := do
  let chain ← chainFrom ((← get).heap.fresh + 2) (some head)
  forEach (fun id => do torchCheck (!(← deref id).allocated) "!curr->allocated") chain

def freeBlocksAllocatedToPool (driver : Driver) (pool : PrivatePoolId) (result : RestoreResult) :
    M RestoreResult := do
  let poolBlocks ← getPrivatePoolHeadBlocks driver pool
  let headBlocks ← selectM (·.prev.isNone) poolBlocks
  let result ← freeHeads driver headBlocks result
  forEach checkNotAllocated (← getPrivatePoolHeadBlocks driver pool)
  pure result

/-- The first loop of `setSegmentStateToCheckpoint`: allocates every block of the
segment, and yields the last. -/
def allocateStates (pool : PoolRef) : List BlockState → BlockId → BlockId → M BlockId
  | [], _, last => pure last
  | state :: rest, current, _ => do
      poolErase pool current
      let params : AllocParams := {
        device := state.device
        size := state.size
        stream := state.stream
        pool
        allocSize := state.size
        block := some current }
      let block ← allocFoundBlock params state.size (!rest.isEmpty)
      let allocated ← deref block
      torchCheck (allocated.ptr == state.ptr) "curr_block->ptr == block_state.ptr"
      torchCheck (allocated.size == state.size) "curr_block->size == block_state.size"
      torchCheck (allocated.next.isSome == !rest.isEmpty)
        "(curr_block != nullptr) == ((i + 1) < (segment_len))"
      match allocated.next with
      | some next => allocateStates pool rest next block
      | none => pure block

def walkToHead : Nat → BlockId → M BlockId
  | 0, _ => throw .diverged
  | turns + 1, id => do
      match (← deref id).prev with
      | some before => walkToHead turns before
      | none => pure id

/-- The second loop of `setSegmentStateToCheckpoint`: frees the blocks that are not
allocated in the checkpoint. -/
def freeDeadStates (driver : Driver) :
    List BlockState → Option BlockId → RestoreResult → M RestoreResult
  | [], _, result => pure result
  | _ :: _, none, _ => throw .internalAssert
  | state :: rest, some current, result => do
      if state.allocated then
        freeDeadStates driver rest (← deref current).next
          { result with allocationsCreated := result.allocationsCreated ++ [current] }
      else do
        free driver current
        let freed ← deref current
        torchCheck (freed.ptr == state.ptr) "curr_block->ptr == block_state.ptr"
        torchCheck (freed.allocated == state.allocated)
          "curr_block->allocated == block_state.allocated"
        torchCheck (freed.size == state.size) "curr_block->size == block_state.size"
        freeDeadStates driver rest freed.next result

def setSegmentStateToCheckpoint (driver : Driver) (block : BlockId) (segment : SegmentState)
    (result : RestoreResult) : M RestoreResult := do
  let pool := (← deref block).pool
  let last ← allocateStates pool segment.blocks block block
  let head ← walkToHead ((← get).heap.fresh + 1) last
  freeDeadStates driver segment.blocks (some head) result

def insertPointers : List BlockId → List (Nat × BlockId) → M (List (Nat × BlockId))
  | [], found => pure found
  | id :: rest, found => do
      let block ← deref id
      insertPointers rest ((block.ptr, id) :: found)

def restoreSegments (driver : Driver) (pointers : List (Nat × BlockId)) :
    List SegmentState → RestoreResult → M RestoreResult
  | [], result => pure result
  | segment :: rest, result => do
      match segment.blocks with
      | [] => throw .standard
      | first :: _ =>
        match pointers.find? (·.1 == first.ptr) with
        | none => throw (.torchCheck " could not find ")
        | some entry => do
            let result ← setSegmentStateToCheckpoint driver entry.2 segment result
            restoreSegments driver pointers rest result

def setCheckpointPoolState (driver : Driver) (pps : PrivatePoolState) : M RestoreResult := do
  torchCheck (!(← get).graphPoolsFreeable.any (·.1 == pps.ownerId))
    "Not expected to checkpoint freeable graph"
  match (← get).graphPools.find? (·.1 == pps.ownerId) with
  | none => throw (.torchCheck "Could not find private pool id")
  | some entry => do
      let result ← freeBlocksAllocatedToPool driver entry.2 {}
      let small ← insertPointers (← orderedBlocks ⟨some entry.2, true⟩) []
      let pointers ← insertPointers (← orderedBlocks ⟨some entry.2, false⟩) small
      restoreSegments driver pointers pps.segments result

end TorchSupa.Allocator
