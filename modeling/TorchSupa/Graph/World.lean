import TorchSupa.Allocator.PrivatePools

/-!
What `SUPAGraph.cpp` and `SUPAGeneratorImpl.cpp` work on: graphs, generator states, the
captures the runtime has under way and the allocators of the devices.
-/

namespace TorchSupa.Graph

open Outcome Allocator

abbrev GraphId := Nat
abbrev GeneratorId := Nat
abbrev DeviceIndex := Nat

def uint32Max : Nat := 2 ^ 32 - 1

/-- A captured kernel launch that draws random numbers: it reads the offset tensor of its
generator when it runs and adds `offsetIntragraph`. -/
structure Node where
  generator : GeneratorId
  offsetIntragraph : Nat
  increment : Nat
deriving DecidableEq, Repr, Inhabited

structure Draw where
  generator : GeneratorId
  start : Nat
  increment : Nat
deriving DecidableEq, Repr, Inhabited

/-- `SUPAGeneratorState`. A tensor that has not been allocated is `none`. -/
structure GeneratorState where
  seed : Nat := 0
  philoxOffsetPerThread : Nat := 0
  offsetIntragraph : Nat := 0
  capturing : Bool := false
  registeredGraphs : List GraphId := []
  seedExtragraph : Option Nat := none
  offsetExtragraph : Option Nat := none
  /-- ghost: `philoxOffsetPerThread` as it would be without wrapping around -/
  spent : Nat := philoxOffsetPerThread
deriving Repr, Inhabited

inductive CaptureStatus
  | none
  | active
  | invalidated
deriving DecidableEq, Repr, Inhabited

structure Capture where
  id : Nat
  valid : Bool := true
  nodes : List Node := []
  /-- ghost: the graph whose `capture_begin` began it -/
  owner : GraphId
  /-- ghost: the generators registered to that graph at the time -/
  generators : List GeneratorId
deriving Repr, Inhabited

structure SUPAGraph where
  graph : Option (List Node) := none
  graphExec : List Node := []
  hasGraph : Bool := false
  hasGraphExec : Bool := false
  captureId : Nat := 2 ^ 64 - 1
  mempoolId : MempoolId := (0, 0)
  captureStream : Stream
  capturedGeneratorStates : List (GeneratorId × Nat) := []
  captureDev : Option DeviceIndex := none
deriving Repr, Inhabited

inductive RuntimeCall
  | empty (generator : GeneratorId)
  | fillSeed (generator : GeneratorId)
  | fillOffset (generator : GeneratorId)
  | streamBeginCapture
  | captureStaysActive
  | streamGetCaptureInfo
  | streamEndCapture
  | graphMade
  | graphInstantiate
  | graphGetNodes
  | graphDestroy
  | graphLaunch
deriving DecidableEq, Repr

structure World where
  graphs : Store SUPAGraph := .empty
  generators : GeneratorId → GeneratorState
  defaultGenerator : DeviceIndex → GeneratorId
  allocators : DeviceIndex → DeviceCachingAllocator
  deviceCount : Nat
  captures : Stream → Option Capture := fun _ => none
  nextCaptureId : Nat := 0
  uuid : Nat := 1
  graphsDebug : Bool := false
  currentStream : Stream := 0
  currentDevice : DeviceIndex := 0
  answers : RuntimeCall → Bool := fun _ => true
  /-- ghost -/
  draws : List Draw := []
  /-- ghost: what the calls a graph has made add up to in the use count of a pool -/
  contribution : GraphId → DeviceIndex × MempoolId → Int := fun _ _ => 0
  /-- ghost: graphs that `reset` or the destructor has cleared since they last began -/
  cleared : List GraphId := []

abbrev GraphM := EStateM Exn World

def ensure (condition : Bool) (otherwise : Exn) : GraphM Unit :=
  if condition then pure () else throw otherwise

def whenever (condition : Bool) (action : GraphM Unit) : GraphM Unit :=
  if condition then action else pure ()

/-- `C10_SUPA_CHECK` of a call, or a tensor operation that throws when its call fails. -/
def supaCheck (call : RuntimeCall) : GraphM Unit := do
  ensure ((← get).answers call) .driver

def getGraph (self : GraphId) : GraphM SUPAGraph := do
  match (← get).graphs.get? self with
  | some graph => pure graph
  | none => throw .undefinedBehaviour

def updateGraph (self : GraphId) (change : SUPAGraph → SUPAGraph) : GraphM Unit :=
  modify fun world => { world with graphs := world.graphs.modify self change }

def getGenerator (generator : GeneratorId) : GraphM GeneratorState := do
  pure ((← get).generators generator)

def updateGenerator (generator : GeneratorId) (change : GeneratorState → GeneratorState) :
    GraphM Unit :=
  modify fun world =>
    { world with
      generators := Function.update world.generators generator (change (world.generators generator)) }

def setCapture (stream : Stream) (capture : Option Capture) : GraphM Unit :=
  modify fun world => { world with captures := Function.update world.captures stream capture }

def Capture.status (capture : Capture) : CaptureStatus :=
  if capture.valid then .active else .invalidated

def World.captureStatus (world : World) (stream : Stream) : CaptureStatus :=
  match world.captures stream with
  | some capture => capture.status
  | none => .none

def currentStreamCaptureStatus : GraphM CaptureStatus := do
  let world ← get
  pure (world.captureStatus world.currentStream)

def assertNotCapturing (attempt : String) : GraphM Unit := do
  let status ← currentStreamCaptureStatus
  ensure (status == .none) (.torchCheck attempt)

def fillSeed (generator : GeneratorId) (value : Nat) : GraphM Unit := do
  match (← getGenerator generator).seedExtragraph with
  | none => throw .undefinedBehaviour
  | some _ => do
      supaCheck (.fillSeed generator)
      updateGenerator generator fun self => { self with seedExtragraph := some value }

def fillOffset (generator : GeneratorId) (value : Nat) : GraphM Unit := do
  match (← getGenerator generator).offsetExtragraph with
  | none => throw .undefinedBehaviour
  | some _ => do
      supaCheck (.fillOffset generator)
      updateGenerator generator fun self => { self with offsetExtragraph := some value }

def useCount (allocator : DeviceCachingAllocator) (mempoolId : MempoolId) : Int :=
  match allocator.graphPools.find? (·.1 == mempoolId) with
  | some entry => ((allocator.privatePools.get? entry.2).map PrivatePool.useCount).getD 0
  | none => 0

def World.setAllocator (world : World) (self : GraphId) (device : DeviceIndex)
    (mempoolId : MempoolId) (after : DeviceCachingAllocator) : World :=
  { world with
    allocators := Function.update world.allocators device after
    contribution := Function.update world.contribution self
      (Function.update (world.contribution self) (device, mempoolId)
        (world.contribution self (device, mempoolId) +
          (useCount after mempoolId - useCount (world.allocators device) mempoolId))) }

def onAllocator (self : GraphId) (device : Option DeviceIndex) (mempoolId : MempoolId)
    (method : MempoolId → M Unit) : GraphM Unit := fun world =>
  match device with
  | none => .error (.torchCheck "Invalid device argument") world
  | some index =>
    if index < world.deviceCount then
      match method mempoolId (world.allocators index) with
      | .ok _ after => .ok () (world.setAllocator self index mempoolId after)
      | .error exception after =>
        .error exception (world.setAllocator self index mempoolId after)
    else .error (.torchCheck "Invalid device argument") world

end TorchSupa.Graph
