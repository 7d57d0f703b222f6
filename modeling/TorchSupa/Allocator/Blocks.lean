import TorchSupa.Allocator.State

/-!
The methods that rewire blocks: splitting, merging, returning a block to its pool,
mapping and unmapping the pages of an expandable segment.
-/

namespace TorchSupa.Allocator

open Outcome

def updateIfSome (pointer : Option BlockId) (change : Block → Block) : M Unit :=
  match pointer with
  | some id => update id change
  | none => pure ()

def assertIfSome (pointer : Option BlockId) (check : Block → Bool) : M Unit :=
  match pointer with
  | some id => do internalAssert (check (← deref id))
  | none => pure ()

def splice (block : BlockId) (before after : Option BlockId) : M Unit := do
  assertIfSome before fun other => other.next == after
  updateIfSome before fun other => { other with next := some block }
  update block fun self => { self with prev := before }
  assertIfSome after fun other => other.prev == before
  updateIfSome after fun other => { other with prev := some block }
  update block fun self => { self with next := after }

def absorb (dst src : BlockId) (target source : Block) : M Unit := do
  if target.prev = some src then do
    -- [src dst]
    update dst fun block => { block with ptr := source.ptr, prev := source.prev }
    updateIfSome source.prev fun block => { block with next := some dst }
  else do
    -- [dst src]
    update dst fun block => { block with next := source.next }
    updateIfSome source.next fun block => { block with prev := some dst }

def tryMergeBlocks (dst : BlockId) (src : Option BlockId) (pool : PoolRef) : M Nat := do
  match src with
  | none => pure 0
  | some src => do
      let source ← deref src
      let target ← deref dst
      if source.allocated || source.eventCount > 0 || !source.streamUses.isEmpty ||
          target.mapped != source.mapped then
        pure 0
      else do
        internalAssert (target.isSplit && source.isSplit)
        absorb dst src target source
        update dst fun block => { block with size := block.size + source.size }
        eraseFromPool source.mapped pool src
        deleteBlock src
        pure source.size

/-- The statistics of `free_block`; the net changes of the inactive split blocks are
those of the pool's non-expandable blocks. -/
def freeBlockStats (stats : DeviceStats) (block : Block) (originalSize requestedSize : Nat)
    (netBlocks netSize : Int) : DeviceStats :=
  let small := block.pool.isSmall
  let net (change : Int) (stat : Stat) : Stat :=
    if change > 0 then stat.increase change.toNat
    else if change < 0 then stat.decrease (-change).toNat
    else stat
  let stats :=
    if block.expandableSegment.isNone then
      { stats with
        inactiveSplit := stats.inactiveSplit.forSelected small (net netBlocks)
        inactiveSplitBytes := stats.inactiveSplitBytes.forSelected small (net netSize) }
    else stats
  { stats with
    active := stats.active.forSelected small (·.decrease 1)
    activeBytes := stats.activeBytes.forSelected small (·.decrease originalSize)
    requestedBytes := stats.requestedBytes.forSelected small (·.decrease requestedSize) }

def freeBlock (block : BlockId) : M Unit := do
  let original ← deref block
  internalAssert original.allocatable
  recordTrace .freeCompleted original.ptr original.requestedSize original.stream original.device
    (← ownerMempoolId original.pool)
  let pool := original.pool
  let subsumedPrev ← tryMergeBlocks block original.prev pool
  let subsumedNext ← tryMergeBlocks block original.next pool
  modify fun state => { state with activeBlocks := state.activeBlocks.erase block }
  internalAssert (← insertIntoBlocks pool block)
  log (.returned block)
  let merged ← deref block
  let mergedBlocks : Int :=
    (if subsumedPrev > 0 then 1 else 0) + (if subsumedNext > 0 then 1 else 0)
  let netBlocks : Int := (if merged.isSplit then 1 else 0) - mergedBlocks
  let netSize : Int :=
    (if merged.isSplit then (merged.size : Int) else 0) - subsumedPrev - subsumedNext
  modifyStats fun stats =>
    freeBlockStats stats merged original.size original.requestedSize netBlocks netSize

structure AllocParams where
  device : Nat
  size : Nat
  stream : Stream
  pool : PoolRef
  allocSize : Nat
  block : Option BlockId := none
  outOfMemory : Bool := false
deriving DecidableEq, Repr, Inhabited

/-- The search key: `Block(device, stream, size)`, whose `ptr` is null. -/
def searchKey (stream : Stream) (size : Nat) : Block :=
  { (default : Block) with stream, size, ptr := 0 }

/-- The first part of `alloc_found_block`: cuts a block of the requested size off the
front of `remaining`. -/
def splitFoundBlock (params : AllocParams) (remaining : BlockId) : M BlockId := do
  let found ← deref remaining
  let block ← newBlock {
    device := params.device
    stream := params.stream
    size := params.size
    pool := params.pool
    ptr := found.ptr
    expandableSegment := found.expandableSegment
    prev := found.prev
    segment := found.segment }
  updateIfSome found.prev fun other => { other with next := some block }
  update block fun self => { self with next := some remaining }
  update remaining fun other =>
    { other with
      prev := some block
      ptr := other.ptr + params.size
      size := wrappingSub other.size params.size }
  let _inserted ← insertIntoBlocks params.pool remaining
  pure block

/-- Splits the block that was found, or takes it whole; what is inactive and split
changes with it. -/
def takeFoundBlock (params : AllocParams) (found : BlockId) (before : Block)
    (splitRemainder : Bool) : M BlockId := do
  let small := params.pool.isSmall
  let alreadySplit := before.isSplit
  if splitRemainder then do
    let block ← splitFoundBlock params found
    let remaining ← deref found
    modifyStats fun stats =>
      if alreadySplit && before.expandableSegment.isNone then
        -- an already split inactive block is being shrunk
        { stats with
          inactiveSplitBytes := stats.inactiveSplitBytes.forSelected small (·.decrease params.size) }
      else if before.expandableSegment.isNone then
        -- a new split inactive block comes from an unsplit one
        { stats with
          inactiveSplitBytes :=
            stats.inactiveSplitBytes.forSelected small (·.increase remaining.size)
          inactiveSplit := stats.inactiveSplit.forSelected small (·.increase 1) }
      else stats
    pure block
  else do
    modifyStats fun stats =>
      if alreadySplit && before.expandableSegment.isNone then
        -- an already split block is becoming active
        { stats with
          inactiveSplitBytes := stats.inactiveSplitBytes.forSelected small (·.decrease before.size)
          inactiveSplit := stats.inactiveSplit.forSelected small (·.decrease 1) }
      else stats
    pure found

/-- The last part of `alloc_found_block`: the block becomes active. -/
def markAllocated (params : AllocParams) (origSize : Nat) (block : BlockId) : M BlockId := do
  let small := params.pool.isSmall
  update block fun self => { self with allocated := true, requestedSize := origSize }
  let final ← deref block
  recordTrace .alloc final.ptr origSize final.stream final.device (← ownerMempoolId final.pool)
  log (.malloc block)
  modify fun state =>
    { state with
      activeBlocks :=
        if block ∈ state.activeBlocks then state.activeBlocks else block :: state.activeBlocks }
  let maxSplitSize := (← get).config.maxSplitSize
  modifyStats fun stats =>
    { stats with
      allocation := stats.allocation.forSelected small (·.increase 1)
      allocatedBytes := stats.allocatedBytes.forSelected small (·.increase final.size)
      active := stats.active.forSelected small (·.increase 1)
      activeBytes := stats.activeBytes.forSelected small (·.increase final.size)
      requestedBytes := stats.requestedBytes.forSelected small (·.increase origSize)
      oversizeAllocations :=
        if final.size ≥ maxSplitSize then stats.oversizeAllocations.increase 1
        else stats.oversizeAllocations }
  pure block

def allocFoundBlock (params : AllocParams) (origSize : Nat) (splitRemainder : Bool) : M BlockId := do
  match params.block with
  | none => throw .internalAssert
  | some found => do
      let before ← deref found
      internalAssert (!params.outOfMemory && before.ptr != 0)
      markAllocated params origSize (← takeFoundBlock params found before splitRemainder)

def mergeNeighbours (block : BlockId) (pool : PoolRef) : M Unit := do
  let _ ← tryMergeBlocks block (← deref block).prev pool
  let _ ← tryMergeBlocks block (← deref block).next pool

/-- Cuts off what `map_block` did not map: to_map -> remaining -> to_map->next(?) -/
def cutRemaining (toMap : BlockId) (block : Block) (mappedSize : Nat) : M Unit := do
  let remaining ← newBlock {
    device := block.device
    stream := block.stream
    size := block.size - mappedSize
    pool := block.pool
    ptr := block.ptr + mappedSize
    mapped := false
    expandableSegment := block.expandableSegment
    segment := block.segment }
  splice remaining (some toMap) block.next
  unmappedInsert block.pool remaining
  update toMap fun self => { self with size := mappedSize }

def mapBlock (driver : Driver) (toMap : BlockId) (size : Nat) : M Bool := do
  let block ← deref toMap
  internalAssert (!block.mapped && size ≤ block.size)
  match block.expandableSegment with
  | none => throw .undefinedBehaviour
  | some expandable => do
      let mapped ← onSegment expandable (ExpandableSegment.map driver ⟨block.ptr, size⟩)
      if mapped.size = 0 then
        pure false
      else do
        internalAssert (mapped.ptr == block.ptr && mapped.size ≥ size)
        let pool := block.pool
        unmappedErase pool toMap
        update toMap fun self => { self with mapped := true }
        when (mapped.size < block.size) (cutRemaining toMap block mapped.size)
        mergeNeighbours toMap pool
        let _inserted ← insertIntoBlocks pool toMap
        modify fun state =>
          { state with totalAllocatedMemory := state.totalAllocatedMemory + mapped.size }
        modifyStats fun stats =>
          { stats with
            reservedBytes := stats.reservedBytes.forSelected pool.isSmall (·.increase mapped.size)
            numDeviceAlloc := stats.numDeviceAlloc + 1 }
        let final ← deref toMap
        recordTrace .segmentMap mapped.ptr mapped.size final.stream final.device
          (← ownerMempoolId pool)
        pure true

def cutBefore (block : BlockId) (whole : Block) (beforeSize : Nat) : M Unit := do
  let beforeFree ← newBlock {
    device := whole.device
    stream := whole.stream
    size := beforeSize
    pool := whole.pool
    ptr := whole.ptr
    expandableSegment := whole.expandableSegment
    segment := whole.segment }
  splice beforeFree whole.prev (some block)
  let _inserted ← insertIntoBlocks whole.pool beforeFree

def cutAfter (block : BlockId) (whole : Block) (afterPtr afterSize : Nat) : M Unit := do
  let afterFree ← newBlock {
    device := whole.device
    stream := whole.stream
    size := afterSize
    pool := whole.pool
    ptr := afterPtr
    expandableSegment := whole.expandableSegment
    segment := whole.segment }
  splice afterFree (some block) (← deref block).next
  let _inserted ← insertIntoBlocks whole.pool afterFree

def decreaseSupaMallocCount (pool : PoolRef) : M Unit :=
  whenOwned pool fun owner => do
    internalAssert ((← derefPool owner).supaMallocCount > 0)
    updatePrivatePool owner fun self => { self with supaMallocCount := self.supaMallocCount - 1 }

def unmapBlock (block : BlockId) : M Unit := do
  let whole ← deref block
  match whole.expandableSegment with
  | none => throw .undefinedBehaviour
  | some expandable => do
      let unmapped ← onSegment expandable (ExpandableSegment.unmap ⟨whole.ptr, whole.size⟩)
      if unmapped.size = 0 then
        pure ()
      else do
        let pool := whole.pool
        poolErase pool block
        let beforeSize := unmapped.ptr - whole.ptr
        when (beforeSize > 0) (cutBefore block whole beforeSize)
        let afterSize := whole.size - (beforeSize + unmapped.size)
        when (afterSize > 0) (cutAfter block whole (unmapped.ptr + unmapped.size) afterSize)
        update block fun self =>
          { self with ptr := unmapped.ptr, size := unmapped.size, mapped := false }
        mergeNeighbours block pool
        unmappedInsert pool block
        modify fun state =>
          { state with totalAllocatedMemory := state.totalAllocatedMemory - unmapped.size }
        modifyStats fun stats =>
          { stats with
            reservedBytes :=
              stats.reservedBytes.forSelected pool.isSmall (·.decrease unmapped.size) }
        decreaseSupaMallocCount pool
        modifyStats fun stats => { stats with numDeviceFree := stats.numDeviceFree + 1 }
        let final ← deref block
        recordTrace .segmentUnmap unmapped.ptr unmapped.size final.stream final.device
          (← ownerMempoolId pool)

end TorchSupa.Allocator
