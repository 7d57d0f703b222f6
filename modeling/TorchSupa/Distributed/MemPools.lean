import TorchSupa.Bccl.BCCLComm
import TorchSupa.Distributed.World
import TorchSupa.Logic.Transitions
import Mathlib.Data.List.Sort

/-!
The registration of segments with communicators: the map of the memory pools that were
registered with a communicator, the hooks of the caching allocator, and the calls of
`ProcessGroupBCCL` that register and deregister. A call is one step, the events of the allocator
come before, between and after the calls.
-/

namespace TorchSupa.Distributed.Pools

open Outcome

abbrev MempoolId := Nat × Nat

structure MemPool where
  id : MempoolId
  device : Int
deriving DecidableEq, Repr

/-- A contiguous mapped range that the allocator has on a device; `(0, 0)` is the id of no pool. -/
structure Segment where
  ptr : Nat
  size : Nat
  device : Int
  pool : MempoolId
deriving DecidableEq, Repr

inductive TraceAction
  | segmentAlloc
  | segmentFree
  | segmentMap
  | segmentUnmap
deriving DecidableEq, Repr

structure TraceEntry where
  action : TraceAction
  device : Int
  addr : Nat
  size : Nat
  mempool : MempoolId
deriving DecidableEq, Repr

abbrev MemPoolSet := List (MempoolId × Bool)

structure Registry where
  bccl : Bccl.World := {}
  environmentFlag : Bool
  expandableSegments : Bool
  allocatorHooksAttached : Bool := false
  groups : List Nat := []
  bcclCommMemPoolMap : List (Nat × MemPoolSet) := []
  devBCCLCommMap : Nat → List (CommKey × Nat) := fun _ => []
  segments : List Segment := []
  /-- ghost: the communicators and pools of the calls of `registerMemPool` that have returned, up
  to the `deregisterMemPool` of the pool or the abort of the communicator -/
  registrations : List (Nat × MempoolId) := []

abbrev R := EStateM Bccl.Exn Registry

def onComms {α : Type} (program : Bccl.M α) : R α := fun registry =>
  match program registry.bccl with
  | .ok value bccl => .ok value { registry with bccl }
  | .error exception bccl => .error exception { registry with bccl }

def Registry.useTensorRegisterAllocatorHook (self : Registry) : Bool :=
  self.environmentFlag && !self.expandableSegments

def Registry.snapshot (self : Registry) (pool : Option MempoolId) : List Segment :=
  (self.segments.filter fun segment => pool.all (· == segment.pool)).insertionSort fun first second =>
    first.device < second.device ∨ first.device = second.device ∧ first.ptr ≤ second.ptr

def forRegistered (te : TraceEntry) (act : Nat → Bool → R Unit) : R Unit := do
  let registry ← get
  forEach (fun (bcclComm, memPools) => do
    let device := (← onComms (Bccl.deref bcclComm)).deviceIndex
    let it := memPools.find? (·.1 == te.mempool)
    if te.device == device && (registry.useTensorRegisterAllocatorHook || it.isSome) then
      act bcclComm (it.any (·.2))
    else pure ()) registry.bcclCommMemPoolMap

def cacheAllocatorRegisterHook (library : Bccl.Library) (te : TraceEntry) : R Unit :=
  if te.action = .segmentAlloc then forRegistered te fun bcclComm symm =>
    onComms (Bccl.registerSegment library bcclComm te.addr te.size false symm)
  else pure ()

def cacheAllocatorDeregisterHook (library : Bccl.Library) (te : TraceEntry) : R Unit :=
  if te.action = .segmentFree then forRegistered te fun bcclComm symm =>
    onComms (Bccl.deregisterSegment library bcclComm te.addr symm)
  else pure ()

def recordTrace (library : Bccl.Library) (te : TraceEntry) : R Unit := do
  if (← get).allocatorHooksAttached then do
    cacheAllocatorRegisterHook library te
    cacheAllocatorDeregisterHook library te
  else pure ()

def construct (group : Nat) : R Unit :=
  modify fun self => { self with
    groups := group :: self.groups
    allocatorHooksAttached := self.useTensorRegisterAllocatorHook || self.allocatorHooksAttached }

def registerAll (library : Bccl.Library) (comm : Nat) (device : Int) (errorOnRereg window : Bool) :
    List Segment → R Unit :=
  forEach fun segment => do
    check (segment.device == device)
      (.torchCheck "Mismatch between SUPA memory segment device and pool's device")
    onComms (Bccl.registerSegment library comm segment.ptr segment.size errorOnRereg window)

def deregisterAll (library : Bccl.Library) (comm : Nat) (device : Int) (window : Bool) :
    List Segment → R Unit :=
  forEach fun segment => do
    check (segment.device == device)
      (.torchCheck "Mismatch between SUPA memory segment device and pool's device")
    onComms (Bccl.deregisterSegment library comm segment.ptr window)

/-- How the communicator is made: `rank` and `blocking` are its configuration, and the thread may
be in the context of a pool, which `snapshot` is then about. -/
structure Making where
  rank : Int := 0
  blocking : Bool := true
  activeMemPool : Option MempoolId := none
deriving DecidableEq, Repr

def initBCCLComm (library : Bccl.Library) (group : Nat) (key : CommKey) (device : Int)
    (making : Making) : R Nat := do
  let bcclComm ← onComms (Bccl.createConfig library making.rank device making.blocking)
  modify fun self => { self with
    devBCCLCommMap := Function.update self.devBCCLCommMap group
      ((key, bcclComm) :: self.devBCCLCommMap group) }
  let self ← get
  if self.useTensorRegisterAllocatorHook then
    registerAll library bcclComm device true false (self.snapshot making.activeMemPool)
  else pure ()
  modify fun self => { self with bcclCommMemPoolMap := (bcclComm, []) :: self.bcclCommMemPoolMap }
  pure bcclComm

def communicatorOf (library : Bccl.Library) (group : Nat) (key : CommKey) (device : Int)
    (making : Making) : R Nat := do
  match ((← get).devBCCLCommMap group).lookup key with
  | some bcclComm => pure bcclComm
  | none => initBCCLComm library group key device making

def memPoolsOf (bcclComm : Nat) : R MemPoolSet := do
  demand ((← get).bcclCommMemPoolMap.lookup bcclComm) .undefinedBehaviour

def Registry.changeMemPools (self : Registry) (bcclComm : Nat) (change : MemPoolSet → MemPoolSet) :
    Registry :=
  { self with
    bcclCommMemPoolMap := self.bcclCommMemPoolMap.map fun entry =>
      if entry.1 = bcclComm then (entry.1, change entry.2) else entry }

def registerMemPool (library : Bccl.Library) (group : Nat) (pool : MemPool) (symm : Bool)
    (making : Making) : R Unit := do
  let bcclComm ← communicatorOf library group (.device pool.device) pool.device making
  let _memPools ← memPoolsOf bcclComm
  modify fun self => self.changeMemPools bcclComm fun memPools => memPools.insert (pool.id, symm)
  registerAll library bcclComm pool.device false symm ((← get).snapshot (some pool.id))
  modify fun self => { self with registrations := (bcclComm, pool.id) :: self.registrations }

def Registry.endRegistration (self : Registry) (bcclComm : Nat) (pool : MempoolId) : Registry :=
  { self with registrations := self.registrations.filter (· ≠ (bcclComm, pool)) }

def deregisterMemPool (library : Bccl.Library) (group : Nat) (pool : MemPool) (making : Making) :
    R Unit := do
  let bcclComm ← communicatorOf library group (.device pool.device) pool.device making
  modify fun self => self.endRegistration bcclComm pool.id
  let memPools ← memPoolsOf bcclComm
  let entry ← demand (memPools.find? (·.1 == pool.id))
    (.torchCheck "Trying to unregister not previously registered pool")
  modify fun self => self.changeMemPools bcclComm fun memPools => memPools.erase entry
  deregisterAll library bcclComm pool.device entry.2 ((← get).snapshot (some pool.id))

def Registry.dropComm (self : Registry) (bcclComm : Nat) : Registry :=
  { self with
    bcclCommMemPoolMap := self.bcclCommMemPoolMap.filter (·.1 ≠ bcclComm)
    registrations := self.registrations.filter (·.1 ≠ bcclComm) }

def abortComms (library : Bccl.Library) (group : Nat) (abortReason : Option String) : R Unit := do
  let comms := (← get).devBCCLCommMap group
  forEach (fun entry => modify fun self => self.dropComm entry.2) comms
  forEach (fun entry => onComms (Bccl.abort library entry.2 abortReason)) comms

def abortWork (library : Bccl.Library) (bcclComm : Nat) : R Unit := do
  onComms (Bccl.abort library bcclComm none)
  modify fun self => self.dropComm bcclComm

def Segment.traced (segment : Segment) (action : TraceAction) : TraceEntry where
  action := action
  device := segment.device
  addr := segment.ptr
  size := segment.size
  mempool := segment.pool

def allocate (library : Bccl.Library) (segment : Segment) : R Unit := do
  recordTrace library (segment.traced .segmentAlloc)
  modify fun self => { self with segments := segment :: self.segments }

/-- `release_block`: the trackers are called before the memory is freed. -/
def release (library : Bccl.Library) (segment : Segment) : R Unit := do
  recordTrace library (segment.traced .segmentFree)
  modify fun self => { self with segments := self.segments.erase segment }

def mapRange (library : Bccl.Library) (segment : Segment) : R Unit := do
  modify fun self => { self with segments := segment :: self.segments }
  recordTrace library (segment.traced .segmentMap)

def unmapRange (library : Bccl.Library) (segment : Segment) : R Unit := do
  modify fun self => { self with segments := self.segments.erase segment }
  recordTrace library (segment.traced .segmentUnmap)

inductive Event
  | construct (group : Nat)
  | initBCCLComm (group : Nat) (key : CommKey) (device : Int) (making : Making)
  | registerMemPool (group : Nat) (pool : MemPool) (symm : Bool) (making : Making)
  | deregisterMemPool (group : Nat) (pool : MemPool) (making : Making)
  | abortComms (group : Nat) (abortReason : Option String)
  | abortWork (bcclComm : Nat)
  | allocate (segment : Segment)
  | release (segment : Segment)
  | mapRange (segment : Segment)
  | unmapRange (segment : Segment)

def handle (library : Bccl.Library) : Event → R Unit
  | .construct group => construct group
  | .initBCCLComm group key device making => do
      let _comm ← communicatorOf library group key device making
  | .registerMemPool group pool symm making => registerMemPool library group pool symm making
  | .deregisterMemPool group pool making => deregisterMemPool library group pool making
  | .abortComms group abortReason => abortComms library group abortReason
  | .abortWork bcclComm => abortWork library bcclComm
  | .allocate segment => allocate library segment
  | .release segment => release library segment
  | .mapRange segment => mapRange library segment
  | .unmapRange segment => unmapRange library segment

def Registry.unused (self : Registry) (segment : Segment) : Bool :=
  self.segments.all fun other => other.ptr != segment.ptr

/-- The events that can happen. The segments of a pool are never expandable, and all others are
when expandable segments are enabled. -/
def Event.possible (self : Registry) : Event → Bool
  | .construct group => !self.groups.contains group
  | .initBCCLComm group key device _ => self.groups.contains group && match key with
      | .device index => index == device
      | .sendRecv _ _ => true
  | .registerMemPool group pool _ _ => self.groups.contains group && pool.id != (0, 0)
  | .deregisterMemPool group pool _ => self.groups.contains group && pool.id != (0, 0)
  | .abortComms group _ => self.groups.contains group
  | .abortWork bcclComm => self.groups.any fun group =>
    (self.devBCCLCommMap group).any fun entry => entry.2 == bcclComm
  | .allocate segment => self.unused segment && (segment.pool != (0, 0) || !self.expandableSegments)
  | .release segment => self.segments.contains segment &&
      (segment.pool != (0, 0) || !self.expandableSegments)
  | .mapRange segment => self.unused segment && segment.pool == (0, 0) && self.expandableSegments
  | .unmapRange segment => self.segments.contains segment && segment.pool == (0, 0) &&
      self.expandableSegments

def Registry.advance (library : Bccl.Library) (self : Registry) (event : Event) : Option Registry :=
  if event.possible self then
    match handle library event self with
    | .ok _ after => some after
    | .error exception after => if exception = .undefinedBehaviour then none else some after
  else none

def registrySystem (library : Bccl.Library) : System Registry Event where
  initial self := ∃ environmentFlag expandableSegments, self = { environmentFlag, expandableSegments }
  step self event after := self.advance library event = some after

end TorchSupa.Distributed.Pools
