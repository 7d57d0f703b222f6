import TorchSupa.Allocator.Release

/-!
`malloc`: the search of the pool, the fallbacks when the device is out of memory,
and the two ways to obtain memory from the driver.
-/

namespace TorchSupa.Allocator

open Outcome

def roundupPower2Divisions (config : SUPAAllocatorConfig) (size : Nat) : Nat :=
  config.roundupPower2Divisions.getD
    (min (Nat.log2 size - Nat.log2 1048576) (kRoundUpPowerOfTwoIntervals - 1)) 0

def roundupPower2NextDivision (size divisions : Nat) : Nat :=
  let power2Floor := 2 ^ Nat.log2 size
  if size = power2Floor then size
  else
    let power2Division := power2Floor >>> Nat.log2 divisions
    if power2Division = 0 then 2 * power2Floor
    else
      let roundSizeFloor := size - size % power2Division
      if roundSizeFloor = size then size else roundSizeFloor + power2Division

def roundSize (config : SUPAAllocatorConfig) (size : Nat) : Nat :=
  if size < kMinBlockSize then kMinBlockSize
  else
    let divisions := roundupPower2Divisions config size
    if divisions > 1 && size > kMinBlockSize * divisions then
      roundupPower2NextDivision size divisions
    else
      kMinBlockSize * ((size + kMinBlockSize - 1) / kMinBlockSize)

def getAllocationSize (size : Nat) : Nat :=
  if size ≤ kSmallSize then kSmallBuffer
  else if size < kMinLargeAlloc then kLargeBuffer
  -- the sum is a `size_t`
  else kRoundLarge * ((size + kRoundLarge - 1) % 2 ^ 64 / kRoundLarge)

def shouldSplit (config : SUPAAllocatorConfig) (block : Block) (size : Nat) : Bool :=
  let remaining := wrappingSub block.size size
  if block.pool.isSmall || config.expandableSegments then remaining ≥ kMinBlockSize
  else size < config.maxSplitSize && remaining > kSmallSize

def getPool (size : Nat) (stream : Stream) : M PoolRef := do
  let state ← get
  let isSmall : Bool := size ≤ kSmallSize
  match state.capturesUnderway.find? fun entry => entry.2.accepts state.caller.thread stream with
  | some entry =>
    match state.graphPools.find? (·.1 == entry.1) with
    | some pool => pure ⟨some pool.2, isSmall⟩
    | none => throw .internalAssert
  | none => pure ⟨none, isSmall⟩

def expandableSize (id : BlockId) : M Nat := do
  let block ← deref id
  match block.next with
  | none => pure block.size
  | some next => do
      let after ← deref next
      pure (block.size + if after.mapped then 0 else after.size)

def bestExpandable (stream : Stream) : BlockId → List BlockId → M BlockId
  | it, [] => pure it
  | it, next :: rest => do
      let block ← deref it
      let other ← deref next
      if block.expandableSegment.isSome && other.stream == stream then
        if (← expandableSize next) < (← expandableSize it) then bestExpandable stream next rest
        else pure it
      else pure it

def skipExpandable (stream : Stream) : List BlockId → M (List BlockId)
  | [] => pure []
  | it :: rest => do
      let block ← deref it
      if block.expandableSegment.isSome && block.stream == stream then skipExpandable stream rest
      else pure (it :: rest)

/-- The search of `get_free_block` from the lower bound on. -/
def chooseFreeBlock (config : SUPAAllocatorConfig) (stream : Stream) :
    List BlockId → M (Option BlockId)
  | [] => pure none
  | it :: rest => do
      let block ← deref it
      if block.stream ≠ stream then pure none
      else if block.expandableSegment.isNone then pure (some it)
      else if config.expandableSegments then some <$> bestExpandable stream it rest
      else do
        -- expandable segments have been turned off: only other blocks will do
        match ← skipExpandable stream rest with
        | [] => pure none
        | it :: _ => do
            let block ← deref it
            pure (if block.stream ≠ stream then none else some it)

def countFreeBlockCall (ref : PoolRef) : M Unit :=
  modify fun state =>
    let pool := state.pools ref
    { state with
      pools := setPool state.pools ref
        { pool with getFreeBlocksCallCount := pool.getFreeBlocksCallCount + 1 } }

def collects (state : DeviceCachingAllocator) : Bool :=
  state.setFraction && state.config.garbageCollectionThreshold > 0

def getFreeBlock (params : AllocParams) : M (Option BlockId) := do
  let config := (← get).config
  when (collects (← get)) (countFreeBlockCall params.pool)
  let heap := (← get).heap
  let from_ := lowerBound blockComparatorSize heap (searchKey params.stream params.size)
    (← orderedBlocks params.pool)
  match ← chooseFreeBlock config params.stream from_ with
  | none => pure none
  | some it => do
      let block ← deref it
      -- do not return an oversized block for a large request
      if params.size < config.maxSplitSize && block.size ≥ config.maxSplitSize then pure none
      -- allow an oversized block to be rounded up, but within a limit
      else if params.size ≥ config.maxSplitSize && block.size ≥ params.size + kLargeBuffer then
        pure none
      else do
        poolErase params.pool it
        pure (some it)

/-- The walk of `has_available_address_space`; every block of the chain is new, so
their number bounds it. -/
def availableFrom (size : Nat) : Nat → Option BlockId → Nat → M Bool
  | 0, _, _ => throw .diverged
  | turns + 1, pointer, bytes =>
    match pointer with
    | none => pure (bytes ≥ size)
    | some id => do
        if bytes ≥ size then pure true
        else do
          let block ← deref id
          if block.allocatable then availableFrom size turns block.next (bytes + block.size)
          else pure false

def candidateFor (id : BlockId) (block : Block) : M BlockId :=
  match block.prev with
  | none => pure id
  | some before => do pure (if (← deref before).allocatable then before else id)

def findAvailable (stream : Stream) (size : Nat) : List BlockId → M (Option BlockId)
  | [] => pure none
  | id :: rest => do
      let block ← deref id
      if block.stream ≠ stream then pure none
      else do
        let candidate ← candidateFor id block
        if ← availableFrom size ((← get).heap.fresh + 2) (some candidate) 0 then
          pure (some candidate)
        else findAvailable stream size rest

def newExpandableSegment (driver : Driver) (params : AllocParams) : M BlockId := do
  let segmentSize := if params.pool.isSmall then kSmallBuffer else kLargeBuffer
  let maxHandles := ExpandableSegment.numSegments segmentSize
    (driver.totalGlobalMem + driver.totalGlobalMem / 8)
  let tick ← nextTick
  let state ← get
  let reserved := segmentSize * maxHandles
  match driver.allocate .addressReserve tick (state.segments.map fun range => (range.base, range.size))
      reserved with
  | none => throw .driver
  | some address => do
      let expandable := state.expandables.fresh
      let range : Segment := {
        serial := state.nextSerial
        base := address
        size := reserved
        source := .addressReserve
        pool := params.pool
        stream := params.stream
        expandable := some expandable }
      modify fun state =>
        { state with
          expandables := state.expandables.push {
            device := params.device
            stream := params.stream
            ptr := address
            maxHandles
            segmentSize }
          expandableSegments := state.expandableSegments ++ [expandable]
          segments := range :: state.segments
          nextSerial := state.nextSerial + 1 }
      let candidate ← newBlock {
        device := params.device
        stream := params.stream
        size := maxHandles * segmentSize
        pool := params.pool
        ptr := address
        mapped := false
        expandableSegment := some expandable
        segment := range }
      unmappedInsert params.pool candidate
      pure candidate

def findExpandableBlock (driver : Driver) (params : AllocParams) : M BlockId := do
  let state ← get
  let ordered := inOrder blockComparatorAddress state.heap (state.pools params.pool).unmapped
  let from_ := lowerBound blockComparatorAddress state.heap (searchKey params.stream 0) ordered
  match ← findAvailable params.stream params.size from_ with
  | some candidate => pure candidate
  | none => newExpandableSegment driver params

/-- The loop of `try_allocate_expandable_block`: maps on behind the candidate until it
is large enough. -/
def expandCandidate (driver : Driver) (size : Nat) : Nat → BlockId → M (Option BlockId)
  | 0, _ => throw .diverged
  | turns + 1, candidate => do
      let block ← deref candidate
      if block.size < size then
        match block.next with
        | none => throw .undefinedBehaviour
        | some newCandidate => do
            let after ← deref newCandidate
            if ← mapBlock driver newCandidate (min (size - block.size) after.size) then
              expandCandidate driver size turns newCandidate
            else pure none
      else pure (some candidate)

def mapCandidate (driver : Driver) (size : Nat) (candidate : BlockId) : M Bool := do
  let block ← deref candidate
  if block.mapped then pure true else mapBlock driver candidate (min block.size size)

def tryAllocateExpandableBlock (driver : Driver) (params : AllocParams) : M (Option BlockId) := do
  let candidate ← findExpandableBlock driver params
  if ← mapCandidate driver params.size candidate then do
    internalAssert (← deref candidate).mapped
    match ← expandCandidate driver params.size driver.fuel candidate with
    | none => pure none
    | some candidate => do
        poolErase params.pool candidate
        pure (some candidate)
  else pure none

def supaMallocMaybeCapturing (driver : Driver) (size : Nat) (params : AllocParams) :
    M (Option Segment) := do
  let source :=
    match (← readOwner params.pool).bind (·.allocator) with
    | some allocator => Source.rawAlloc allocator
    | none => Source.supaMalloc
  let tick ← nextTick
  let state ← get
  match driver.allocate source tick (state.segments.map fun range => (range.base, range.size))
      size with
  | none => pure none
  | some address => do
      let range : Segment := {
        serial := state.nextSerial
        base := address
        size
        source
        pool := params.pool
        stream := params.stream
        expandable := none }
      modify fun state =>
        { state with segments := range :: state.segments, nextSerial := state.nextSerial + 1 }
      pure (some range)

def checkActiveMemPool (pool : PoolRef) : M Unit := do
  match (← get).caller.activeMemPool, pool.owner with
  | some active, some owner =>
    when active.allocator.isSome do internalAssert ((← getPrivatePool active.id) == owner)
  | _, _ => pure ()

def adoptSegment (params : AllocParams) (range : Segment) : M BlockId := do
  let size := params.allocSize
  whenOwned params.pool fun owner =>
    updatePrivatePool owner fun self => { self with supaMallocCount := self.supaMallocCount + 1 }
  modify fun state => { state with totalAllocatedMemory := state.totalAllocatedMemory + size }
  let block ← newBlock {
    device := params.device
    stream := params.stream
    size
    pool := params.pool
    ptr := range.base
    segment := range }
  let maxSplitSize := (← get).config.maxSplitSize
  modifyStats fun stats =>
    { stats with
      segment := stats.segment.forSelected params.pool.isSmall (·.increase 1)
      reservedBytes := stats.reservedBytes.forSelected params.pool.isSmall (·.increase size)
      oversizeSegments :=
        if size ≥ maxSplitSize then stats.oversizeSegments.increase 1
        else stats.oversizeSegments
      numDeviceAlloc := stats.numDeviceAlloc + 1 }
  recordTrace .segmentAlloc range.base size params.stream params.device
    (← ownerMempoolId params.pool)
  pure block

def allocBlock (driver : Driver) (params : AllocParams) (isRetry : Bool) : M (Option BlockId) := do
  when isRetry do
    modifyStats fun stats => { stats with numAllocRetries := stats.numAllocRetries + 1 }
  let state ← get
  if state.setFraction &&
      state.totalAllocatedMemory + params.allocSize > state.allowedMemoryMaximum then
    pure none
  else if state.config.expandableSegments && params.pool.owner.isNone then
    tryAllocateExpandableBlock driver params
  else do
    checkActiveMemPool params.pool
    match ← supaMallocMaybeCapturing driver params.allocSize params with
    | none => pure none
    | some range => some <$> adoptSegment params range

/-- What the registered `FreeMemoryCallback`s do when they run: they drop tensors,
which frees blocks that are in use, and report whether they freed memory. -/
structure Callbacks where
  frees : List BlockId := []
  freedMemory : Bool := false
deriving Inhabited

def triggerFreeMemoryCallbacks (driver : Driver) (callbacks : Callbacks) : M Bool := do
  forEach (fun block => do
    match (← get).heap.get? block with
    | some held => if held.allocated then free driver block else pure ()
    | none => pure ())
    callbacks.frees
  pure callbacks.freedMemory

def orSearch (first second : M (Option BlockId)) : M (Option BlockId) := do
  match ← first with
  | some block => pure (some block)
  | none => second

def andSearch (condition : M Bool) (search : M (Option BlockId)) : M (Option BlockId) := do
  if ← condition then search else pure none

def releaseUnlessCapturing (driver : Driver) : M Bool := do
  if (← get).capturesUnderway.isEmpty then releaseCachedBlocks driver (0, 0) else pure false

def findBlock (driver : Driver) (callbacks : Callbacks) (params : AllocParams) :
    M (Option BlockId) :=
  orSearch (getFreeBlock params) <|
  orSearch (andSearch (triggerFreeMemoryCallbacks driver callbacks) (getFreeBlock params)) do
    when (collects (← get)) (garbageCollectCachedBlocks driver)
    orSearch (allocBlock driver params false) <|
      -- free enough available cached blocks to satisfy the request
      orSearch (andSearch (releaseAvailableCachedBlocks params) (allocBlock driver params false)) <|
        -- free all cached blocks that are not split
        andSearch (releaseUnlessCapturing driver) (allocBlock driver params true)

def reportOutOfMemory (driver : Driver) (params : AllocParams) : M BlockId := do
  let (deviceFree, deviceTotal) := driver.memGetInfo (← nextTick)
  recordTrace .oom deviceFree params.size params.stream params.device
    (← ownerMempoolId params.pool)
  modifyStats fun stats => { stats with numOoms := stats.numOoms + 1 }
  let stats := (← get).stats
  throw (.outOfMemory params.allocSize deviceTotal deviceFree
    stats.allocatedBytes.aggregate.current stats.reservedBytes.aggregate.current)

def malloc (driver : Driver) (callbacks : Callbacks) (device origSize : Nat) (stream : Stream) :
    M BlockId := do
  when (← get).capturesUnderway.isEmpty (processEvents driver)
  let size := roundSize (← get).config origSize
  let pool ← getPool size stream
  let params : AllocParams := { device, size, stream, pool, allocSize := getAllocationSize size }
  match ← findBlock driver callbacks params with
  | some block => do
      let found ← deref block
      allocFoundBlock { params with block := some block } origSize
        (shouldSplit (← get).config found size)
  | none => reportOutOfMemory driver params

def emptyCache (driver : Driver) (mempoolId : MempoolId) : M Unit := do
  let _released ← releaseCachedBlocks driver mempoolId

end TorchSupa.Allocator
