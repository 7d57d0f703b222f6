import TorchSupa.Allocator.ExpandableSegment

/-!
The state of a `DeviceCachingAllocator` and the accesses its methods are made of.
-/

namespace TorchSupa.Allocator

open Outcome

/-- An element of a deque of `supa_events`. A moved-from `EventPool::Event` is
`none`. The map from streams to deques is one list of entries: the deque of a
stream is the sublist of its entries. -/
structure EventEntry where
  stream : Stream
  event : Option Nat
  block : BlockId
deriving DecidableEq, Repr, Inhabited

inductive TraceAction
  | alloc
  | freeRequested
  | freeCompleted
  | segmentAlloc
  | segmentFree
  | segmentMap
  | segmentUnmap
  | oom
deriving DecidableEq, Repr, Inhabited

structure TraceEntry where
  action : TraceAction
  device : Nat
  addr : Int
  size : Nat
  stream : Stream
  mempool : MempoolId
deriving DecidableEq, Repr, Inhabited

structure BlockState where
  device : Nat := 0
  stream : Stream
  streamUses : List Stream
  size : Nat
  ptr : Nat
  allocated : Bool
  gcCountBase : Int
deriving DecidableEq, Repr, Inhabited

structure SegmentState where
  blocks : List BlockState
  isSmall : Bool
  /-- ghost: the range the head block was carved out of -/
  segment : Segment
deriving DecidableEq, Repr, Inhabited

structure PrivatePoolState where
  ownerId : MempoolId
  segments : List SegmentState
deriving DecidableEq, Repr, Inhabited

/-- What happened, for statements about whole runs. The code keeps no such record. -/
inductive JournalEntry
  | malloc (block : BlockId)
  | recordStream (block : BlockId) (stream : Stream)
  | free (block : BlockId)
  | eventRecord (event : Nat) (stream : Stream) (block : BlockId)
  | eventComplete (event : Nat)
  | eventCallFailed
  | returned (block : BlockId)
  | releaseAvailable (pool : PoolRef) (owner : Option PrivatePool) (oversize : List Block)
  | releaseBlock (block : Block) (owner : Option PrivatePool) (active : Option MemPool)
  | deviceFree (block : Block) (through : Source)
deriving DecidableEq, Repr, Inhabited

structure DeviceCachingAllocator where
  device : Nat
  heap : Store Block := .empty
  pools : PoolRef → BlockPool := fun _ => {}
  activeBlocks : List BlockId := []
  privatePools : Store PrivatePool := .empty
  graphPools : List (MempoolId × PrivatePoolId) := []
  graphPoolsFreeable : List (MempoolId × PrivatePoolId) := []
  capturesUnderway : List (MempoolId × CaptureFilter) := []
  useOnOomPools : List MempoolId := []
  noSplitPools : List MempoolId := []
  needsEventsDeferredUntilNoCapture : List BlockId := []
  supaEvents : List EventEntry := []
  blockToSupagraphStreamUses : List (BlockId × List Stream) := []
  expandables : Store ExpandableSegment := .empty
  expandableSegments : List ExpandableId := []
  totalAllocatedMemory : Int := 0
  allowedMemoryMaximum : Nat := 0
  setFraction : Bool := false
  stats : DeviceStats := {}
  recordHistory : Bool := false
  allocTrace : List TraceEntry := []
  allocTraceNext : Nat := 0
  allocTraceMaxEntries : Nat := 1
  config : SUPAAllocatorConfig := {}
  caller : Caller := default
  memory : DeviceMemory := {}
  nextEvent : Nat := 0
  /-- ghost: the ranges the driver has handed out and not got back -/
  segments : List Segment := []
  nextSerial : Nat := 0
  /-- ghost: newest first -/
  journal : List JournalEntry := []
  /-- ghost: every checkpoint taken -/
  checkpoints : List PrivatePoolState := []
deriving Inhabited

abbrev M := EStateM Exn DeviceCachingAllocator

def internalAssert (condition : Bool) : M Unit :=
  if condition then pure () else throw .internalAssert

def torchCheck (condition : Bool) (message : String) : M Unit :=
  if condition then pure () else throw (.torchCheck message)

def when (condition : Bool) (action : M Unit) : M Unit := if condition then action else pure ()

def whenOwned (pool : PoolRef) (action : PrivatePoolId → M Unit) : M Unit :=
  match pool.owner with
  | some owner => action owner
  | none => pure ()

def deref (id : BlockId) : M Block := do
  match (← get).heap.get? id with
  | some block => pure block
  | none => throw .undefinedBehaviour

def update (id : BlockId) (change : Block → Block) : M Unit := do
  match (← get).heap.get? id with
  | some _ => modify fun state => { state with heap := state.heap.modify id change }
  | none => throw .undefinedBehaviour

def newBlock (block : Block) : M BlockId := do
  let id := (← get).heap.fresh
  modify fun state => { state with heap := state.heap.push block }
  pure id

def deleteBlock (id : BlockId) : M Unit := do
  match (← get).heap.get? id with
  | some _ => modify fun state => { state with heap := state.heap.erase id }
  | none => throw .undefinedBehaviour

def derefPool (id : PrivatePoolId) : M PrivatePool := do
  match (← get).privatePools.get? id with
  | some pool => pure pool
  | none => throw .undefinedBehaviour

def updatePrivatePool (id : PrivatePoolId) (change : PrivatePool → PrivatePool) : M Unit := do
  match (← get).privatePools.get? id with
  | some _ => modify fun state => { state with privatePools := state.privatePools.modify id change }
  | none => throw .undefinedBehaviour

def setPool (pools : PoolRef → BlockPool) (ref : PoolRef) (pool : BlockPool) : PoolRef → BlockPool :=
  fun other => if other = ref then pool else pools other

def insertBlock (pools : PoolRef → BlockPool) (ref : PoolRef) (id : BlockId) : PoolRef → BlockPool :=
  setPool pools ref { pools ref with blocks := id :: (pools ref).blocks }

def eraseBlock (heap : Store Block) (pools : PoolRef → BlockPool) (ref : PoolRef) (id : BlockId) :
    PoolRef → BlockPool :=
  setPool pools ref { pools ref with
    blocks := (pools ref).blocks.eraseP (equivalent blockComparatorSize heap id) }

def insertUnmapped (pools : PoolRef → BlockPool) (ref : PoolRef) (id : BlockId) :
    PoolRef → BlockPool :=
  setPool pools ref { pools ref with unmapped := id :: (pools ref).unmapped }

def eraseUnmapped (heap : Store Block) (pools : PoolRef → BlockPool) (ref : PoolRef)
    (id : BlockId) : PoolRef → BlockPool :=
  setPool pools ref { pools ref with
    unmapped := (pools ref).unmapped.eraseP (equivalent blockComparatorAddress heap id) }

/-- `pool.blocks.erase(block)`: erases the element that has the key the block has now. -/
def poolErase (ref : PoolRef) (id : BlockId) : M Unit := do
  let _key ← deref id
  modify fun state => { state with pools := eraseBlock state.heap state.pools ref id }

def insertIntoBlocks (ref : PoolRef) (id : BlockId) : M Bool := do
  let pool := (← get).pools ref
  update id fun block => { block with gcCountBase := pool.getFreeBlocksCallCount }
  if pool.blocks.any (equivalent blockComparatorSize (← get).heap id) then
    pure false
  else do
    modify fun state => { state with pools := insertBlock state.pools ref id }
    pure true

def unmappedErase (ref : PoolRef) (id : BlockId) : M Unit := do
  let _key ← deref id
  modify fun state => { state with pools := eraseUnmapped state.heap state.pools ref id }

def eraseFromPool (mapped : Bool) (ref : PoolRef) (id : BlockId) : M Unit :=
  if mapped then poolErase ref id else unmappedErase ref id

def unmappedInsert (ref : PoolRef) (id : BlockId) : M Unit := do
  let _key ← deref id
  modify fun state =>
    if (state.pools ref).unmapped.any (equivalent blockComparatorAddress state.heap id) then state
    else { state with pools := insertUnmapped state.pools ref id }

def modifyStats (change : DeviceStats → DeviceStats) : M Unit :=
  modify fun state => { state with stats := change state.stats }

def log (entry : JournalEntry) : M Unit :=
  modify fun state => { state with journal := entry :: state.journal }

def eventCallFailed {α : Type} : M α := do
  log .eventCallFailed
  throw .driver

def nextTick : M Nat := do
  let tick := (← get).memory.tick
  modify fun state => { state with memory := { state.memory with tick := tick + 1 } }
  pure tick

def ownerMempoolId (ref : PoolRef) : M MempoolId := do
  match ref.owner with
  | some id => do pure (← derefPool id).id
  | none => pure (0, 0)

def recordTrace (action : TraceAction) (addr : Int) (size : Nat) (stream : Stream) (device : Nat)
    (mempool : MempoolId) : M Unit :=
  modify fun state =>
    if !state.recordHistory then state
    else
      let entry : TraceEntry := { action, device, addr, size, stream, mempool }
      if state.allocTrace.length < state.allocTraceMaxEntries then
        { state with allocTrace := state.allocTrace ++ [entry] }
      else
        { state with
          allocTrace := state.allocTrace.set state.allocTraceNext entry
          allocTraceNext :=
            if state.allocTraceNext + 1 = state.allocTraceMaxEntries then 0
            else state.allocTraceNext + 1 }

def onSegment {α : Type} (id : ExpandableId) (method : ExpandableSegment.SegmentM α) : M α :=
  fun state =>
    match state.expandables.get? id with
    | none => .error .undefinedBehaviour state
    | some segment =>
      match method ⟨segment, state.memory⟩ with
      | .ok value after =>
        .ok value { state with
          expandables := state.expandables.modify id fun _ => after.segment
          memory := after.memory }
      | .error exception after =>
        .error exception { state with
          expandables := state.expandables.modify id fun _ => after.segment
          memory := after.memory }

end TorchSupa.Allocator
