import TorchSupa.Logic.Outcome
import Mathlib.Logic.Function.Basic

/-!
The state that `ProcessGroupBCCL` works on: the works of each group with the lists they are
passed along, the counters of the group, and what all groups of the process share, the flight
recorder and the number of event queries that a graph capture waits for.
-/

namespace TorchSupa.Distributed

open Outcome

inductive Exn
  | distBackend (message : String)
  | torchCheck (message : String)
  | valueError (message : String)
  | notImplemented (message : String)
  | outOfRange
  | internalAssert (message : String)
  /-- what the runtime and the tensor library throw -/
  | runtime
deriving DecidableEq, Repr

def multiDeviceErrorMsg : String :=
  "Expecting one tensor only but got multiple. You are probably using multiple devices under one thread."

inductive CaptureStatus
  | none
  | active
  | invalidated
deriving DecidableEq, Repr, Inhabited

inductive OpType
  | broadcast
  | allreduce
  | allreduceCoalesced
  | reduce
  | allgather
  | allgatherBase
  | gather
  | scatter
  | reduceScatter
  | reduceScatterBase
  | alltoall
  | alltoallBase
  | send
  | recv
  | barrier
  | coalesced
deriving DecidableEq, Repr, Inhabited

def isP2POp : OpType → Bool
  | .send | .recv => true
  | _ => false

/-- Under what a communicator is cached: `getKeyFromDevice` and `getKeySendRecv`. -/
inductive CommKey
  | device (index : Int)
  | sendRecv (lowRank highRank : Int)
deriving DecidableEq, Repr, Inhabited

structure CoalescingState where
  coalActive : Bool := false
  coalColl : Bool := false
  coalP2P : Bool := false
deriving DecidableEq, Repr, Inhabited

def CoalescingState.isSet (state : CoalescingState) : Bool :=
  state.coalActive || state.coalColl || state.coalP2P

/-- `WorkBCCL`. A copy of a work shares its events, which are named by the work's number. -/
structure Work where
  id : Nat
  seq : Nat
  isP2P : Bool
  opType : OpType
  timingEnabled : Bool
  opTimeout : Int := 0
  ownedEphermeralTimeout : Int := 0
  traceId : Option Nat := none
deriving DecidableEq, Repr, Inhabited

structure Queries where
  started : Nat → Bool
  completed : Nat → Bool
  now : Nat

namespace FlightRecorder

structure Entry where
  id : Nat
  pgId : Nat
  collectiveSeqId : Nat
  p2pSeqId : Nat
  opId : Nat
  isP2P : Bool
  startEvent : Option Nat
  endEvent : Option Nat
  timeDiscoveredStarted : Option Nat := none
  timeDiscoveredCompleted : Option Nat := none
  retired : Bool := false
deriving DecidableEq, Repr, Inhabited

end FlightRecorder

structure FlightRecorder where
  maxEntries : Nat := 0
  entries : List FlightRecorder.Entry := []
  next : Nat := 0
  id : Nat := 0
deriving DecidableEq, Repr, Inhabited

/-- Where the watchdog is. It holds `workMetaListMutex_` from `scanning` to the end of its pass. -/
inductive Watchdog
  | resting
  | scanning (it : Nat)
  | reset (it : Nat)
  | retired (it : Nat)
  | removed (work : Nat) (it : Nat)
  | left
deriving DecidableEq, Repr, Inhabited

def Watchdog.holdsLock : Watchdog → Bool
  | .resting | .left => false
  | _ => true

inductive HookThread
  | absent
  | polling (done : Bool)
  | waiting
  | calling
  | left
deriving DecidableEq, Repr, Inhabited

/-- A timeout that was added and the work that took it. The code keeps no such record. -/
structure Grant where
  amount : Int
  owner : Option Nat
deriving DecidableEq, Repr, Inhabited

structure Group where
  rank : Int := 0
  blockingWait : Bool := false
  enableTiming : Bool := false
  timeout : Int := 600000
  terminateProcessGroup : Bool := false
  devBCCLCommMap : List (CommKey × Nat) := []
  bcclStreams : List CommKey := []
  coalescingState : CoalescingState := {}
  coalescedDevice : Int := -1
  coalescedComm : Option Nat := none
  seqCollective : Nat := 0
  seqP2P : Nat := 0
  opId : Nat := 0
  ephemeralTimeoutActive : Int := 0
  ephemeralTimeoutInflight : Int := 0
  workMetaList : List Work := []
  completedWorkList : List Work := []
  onCompletionHook : Bool := false
  watchdog : Watchdog := .resting
  hookThread : HookThread := .absent
  /-- ghost: every work that was put on `workMetaList_`, newest first -/
  enqueued : List Work := []
  /-- ghost: the works that were moved to `completedWorkList_` -/
  completed : List Nat := []
  /-- ghost: the works that left `workMetaList_` when there was no hook -/
  unhooked : List Nat := []
  /-- ghost: the works the hook was called with -/
  handed : List Nat := []
  /-- ghost: the timeouts that were added, newest first -/
  grants : List Grant := []
  /-- ghost: the works that were given a timeout, and the sum of the grants that were then
  without an owner or owned by a work that was not finished -/
  charged : List (Work × Int) := []
  /-- ghost: the works whose timeout was given back -/
  reset : List Nat := []
deriving DecidableEq, Repr, Inhabited

inductive Section
  | launch
  | closeGroup
  | assignTimeout
  | readCaptureStatus
  | incPendingEventQueries
  | workEnqueue
  | emplace
  | resetCoalescing
deriving DecidableEq, Repr, Inhabited

structure Call where
  /-- ghost -/
  id : Nat
  group : Nat
  work : Option Work
  enqueue : Bool
  admitted : Bool := false
  rest : List Section
deriving DecidableEq, Repr, Inhabited

inductive Capture
  | idle
  | cleared
  | capturing
deriving DecidableEq, Repr, Inhabited

structure World where
  groups : Nat → Group
  recorder : FlightRecorder := {}
  pendingEventQueries : Int := 0
  bcclActiveGroupCounter : Nat → UInt64 := fun _ => 0
  capturable : Bool := true
  nextComm : Nat := 0
  nextCall : Nat := 0
  calls : Nat → Option Call := fun _ => none
  captures : Nat → Capture := fun _ => .idle
  /-- ghost: the works whose kernels have ended -/
  finished : List Nat := []
  /-- ghost: the calls that raised `pending_event_queries`, newest first -/
  increments : List Nat := []
  /-- ghost: the calls whose query was taken back -/
  decrements : List Nat := []

abbrev M := EStateM Exn World

def getGroup (group : Nat) : M Group := do pure ((← get).groups group)

def World.modifyGroup (world : World) (group : Nat) (change : Group → Group) : World :=
  { world with groups := Function.update world.groups group (change (world.groups group)) }

def modifyGroup (group : Nat) (change : Group → Group) : M Unit :=
  modify fun world => world.modifyGroup group change

section Rules

variable {α : Type} {next : PUnit → M α} {normal : α → World → Prop} {thrown : Exn → World → Prop}
  {world : World} {thread group : Nat}

theorem bind_modifyGroup {change : Group → Group}
    (spec : wp (next ⟨⟩) normal thrown (world.modifyGroup group change)) :
    wp (modifyGroup group change >>= next) normal thrown world := spec

theorem bind_getGroup {next : Group → M α} (spec : wp (next (world.groups group)) normal thrown world) :
    wp (getGroup group >>= next) normal thrown world := spec

@[simp] theorem World.modifyGroup_same (change : Group → Group) :
    (world.modifyGroup group change).groups group = change (world.groups group) := by
  simp [World.modifyGroup]

theorem World.modifyGroup_other {other : Nat} (change : Group → Group) (different : other ≠ group) :
    (world.modifyGroup group change).groups other = world.groups other := by
  simp [World.modifyGroup, different]

theorem World.modifyGroup_keeps {field : Sort _} {read : Group → field} {change : Group → Group}
    (keeps : read (change (world.groups group)) = read (world.groups group)) (other : Nat) :
    read ((world.modifyGroup group change).groups other) = read (world.groups other) := by
  by_cases same : other = group
  · rw [same, World.modifyGroup_same, keeps]
  · rw [World.modifyGroup_other change same]

theorem World.modifyGroup_twice (first second : Group → Group) :
    (world.modifyGroup group first).modifyGroup group second =
      world.modifyGroup group fun self => second (first self) := by
  simp [World.modifyGroup]

end Rules

structure Fate where
  captureStatus : CaptureStatus := .none
  createsComm : Bool := true
  syncs : Bool := true
  launches : Bool := true
  groups : Bool := true
  recordsEnd : Bool := true
deriving DecidableEq, Repr, Inhabited

end TorchSupa.Distributed
