import TorchSupa.Distributed.FlightRecorder
import Mathlib.Algebra.Ring.Int.Defs
import Mathlib.Algebra.Group.Nat.Defs

/-!
`ProcessGroupBCCL`: the three entry points that issue kernels, and the coalescing regions.
Each is a first part that makes the work, which ends in an exception or in the list of the
sections that are left, and these sections.
-/

namespace TorchSupa.Distributed

open Outcome

def errorIfCapturingNonCapturableBCCL (status : CaptureStatus) : M Unit := do
  check ((← get).capturable || status == .none)
    (.notImplemented "Capturing BCCL collectives is only allowed with BCCL >= 2.9.6")

def getBCCLComm (group : Nat) (key : CommKey) : M (Option Nat) := do
  pure ((← getGroup group).devBCCLCommMap.lookup key)

def initBCCLComm (group : Nat) (key : CommKey) (fate : Fate) : M Nat := do
  check fate.createsComm (.distBackend "BCCL error in: ")
  let comm := (← get).nextComm
  modify fun world => { world with nextComm := comm + 1 }
  modifyGroup group fun self => { self with
    bcclStreams := key :: self.bcclStreams
    devBCCLCommMap := (key, comm) :: self.devBCCLCommMap }
  pure comm

def communicator (group : Nat) (key : CommKey) (fate : Fate) : M Nat := do
  match ← getBCCLComm group key with
  | some comm => pure comm
  | none => initBCCLComm group key fate

def bcclStreamAt (group : Nat) (key : CommKey) : M Unit := do
  check ((← getGroup group).bcclStreams.contains key) .outOfRange

def coalesceDevice (group device : Nat) : M Unit := do
  let coalescedDevice := (← getGroup group).coalescedDevice
  if coalescedDevice < 0 then
    modifyGroup group fun self => { self with coalescedDevice := device }
  else check (coalescedDevice == device) (.torchCheck multiDeviceErrorMsg)

def coalesceComm (group comm : Nat) : M Unit := do
  match (← getGroup group).coalescedComm with
  | none => modifyGroup group fun self => { self with coalescedComm := some comm }
  | some coalescedComm => check (coalescedComm == comm) (.torchCheck multiDeviceErrorMsg)

def coalesceOn (group device comm : Nat) : M Unit := do
  coalesceDevice group device
  coalesceComm group comm

def record (group : Nat) (startEvent endEvent : Option Nat) (isP2P : Bool) : M (Option Nat) := do
  let self ← getGroup group
  let (recorder, traceId) := (← get).recorder.record group self.seqCollective self.seqP2P self.opId
    startEvent endEvent isP2P
  modify fun world => { world with recorder }
  pure traceId

def newCall : M Nat := do
  let id := (← get).nextCall
  modify fun world => { world with nextCall := id + 1 }
  pure id

def Work.startEvent (work : Work) : Option Nat := if work.timingEnabled then some work.id else none

def recordWork (group : Nat) (work : Work) (isP2P : Bool) : M Work := do
  let traceId ← record group work.startEvent (some work.id) isP2P
  pure { work with traceId }

def newWork (self : Group) (id : Nat) (opType : OpType) (isP2P : Bool) : Work where
  id := id
  seq := if isP2P then self.seqP2P else self.seqCollective
  isP2P := isP2P
  opType := opType
  timingEnabled := self.enableTiming

def initWork (group : Nat) (opType : OpType) (isP2P shouldRecord : Bool) : M Work := do
  let self ← getGroup group
  let work := newWork self (← newCall) opType isP2P
  if shouldRecord then recordWork group work (isP2POp opType) else pure work

def World.enterGroup (world : World) (thread : Nat) : World :=
  { world with
    bcclActiveGroupCounter :=
      Function.update world.bcclActiveGroupCounter thread (world.bcclActiveGroupCounter thread + 1) }

def World.leaveGroup (world : World) (thread : Nat) : World :=
  { world with
    bcclActiveGroupCounter :=
      Function.update world.bcclActiveGroupCounter thread (world.bcclActiveGroupCounter thread - 1) }

@[simp] theorem World.leaveGroup_groups (world : World) (thread : Nat) :
    (world.leaveGroup thread).groups = world.groups := rfl

@[simp] theorem World.leaveGroup_counter (world : World) (thread : Nat) :
    (world.leaveGroup thread).bcclActiveGroupCounter thread =
      world.bcclActiveGroupCounter thread - 1 := by
  simp [World.leaveGroup]

@[simp] theorem World.enterGroup_groups (world : World) (thread : Nat) :
    (world.enterGroup thread).groups = world.groups := rfl

@[simp] theorem World.enterGroup_counter (world : World) (thread : Nat) :
    (world.enterGroup thread).bcclActiveGroupCounter thread =
      world.bcclActiveGroupCounter thread + 1 := by
  simp [World.enterGroup]

def groupStart (thread : Nat) (fate : Fate) : M Unit := do
  check fate.groups (.distBackend "BCCL error in: ")
  modify fun world => world.enterGroup thread

def groupEnd (thread : Nat) (fate : Fate) : M Unit := do
  check fate.groups (.distBackend "BCCL error in: ")
  modify fun world => world.leaveGroup thread

def startCoalescing (thread group : Nat) (fate : Fate) : M Unit := do
  modifyGroup group fun self => { self with
    coalescedDevice := -1
    coalescedComm := none
    coalescingState := { self.coalescingState with coalActive := true } }
  groupStart thread fate

def bumpSeqCollective (self : Group) : Group := { self with seqCollective := self.seqCollective + 1 }

def bumpSeqP2P (self : Group) : Group := { self with seqP2P := self.seqP2P + 1 }

def bumpOpId (self : Group) : Group := { self with opId := self.opId + 1 }

def markCoalColl (self : Group) : Group :=
  { self with coalescingState := { self.coalescingState with coalColl := true } }

def markCoalP2P (self : Group) : Group :=
  { self with coalescingState := { self.coalescingState with coalP2P := true } }

def joinCollective (group device comm : Nat) : M Unit := do
  let state := (← getGroup group).coalescingState
  if state.coalActive then do
    -- the first collective of the region
    modifyGroup group fun self => markCoalColl (if state.coalColl then self else bumpSeqCollective self)
    coalesceOn group device comm
  else pure ()

def joinCollectiveCoalesced (group device comm : Nat) : M Unit := do
  if (← getGroup group).coalescingState.coalActive then do
    modifyGroup group markCoalColl
    coalesceOn group device comm
  else pure ()

def joinPointToPoint (group device comm : Nat) : M Unit := do
  let state := (← getGroup group).coalescingState
  if state.coalActive then do
    modifyGroup group fun self => markCoalP2P (if state.coalP2P then self else bumpSeqP2P self)
    coalesceOn group device comm
  else pure ()

def collectiveSections : List Section :=
  [.launch, .assignTimeout, .incPendingEventQueries, .workEnqueue, .emplace]

def pointToPointSections : List Section :=
  [.launch, .assignTimeout, .readCaptureStatus, .incPendingEventQueries, .workEnqueue, .emplace]

def endCoalescingSections : List Section :=
  [.assignTimeout, .closeGroup, .incPendingEventQueries, .workEnqueue, .emplace, .resetCoalescing]

def beginCollective (group device : Nat) (opType : OpType) (fate : Fate) : M Call := do
  errorIfCapturingNonCapturableBCCL fate.captureStatus
  modifyGroup group fun self => if self.coalescingState.isSet then self else bumpSeqCollective self
  modifyGroup group bumpOpId
  let comm ← communicator group (.device device) fate
  joinCollective group device comm
  bcclStreamAt group (.device device)
  check fate.syncs .runtime
  let enqueue := !(← getGroup group).coalescingState.isSet && fate.captureStatus == .none
  let work ← initWork group opType false enqueue
  pure {
    id := work.id
    group
    work := some work
    enqueue
    rest := collectiveSections }

def beginCollectiveCoalesced (group device : Nat) (opType : OpType) (fate : Fate) :
    M Call := do
  errorIfCapturingNonCapturableBCCL fate.captureStatus
  modifyGroup group bumpSeqCollective
  modifyGroup group bumpOpId
  let comm ← communicator group (.device device) fate
  joinCollectiveCoalesced group device comm
  bcclStreamAt group (.device device)
  check fate.syncs .runtime
  -- recorded also when it will not be enqueued
  let work ← initWork group opType false true
  pure {
    id := work.id
    group
    work := some work
    enqueue := fate.captureStatus == .none
    rest := collectiveSections }

def getKeySendRecv (myRank peer : Int) : CommKey := .sendRecv (min myRank peer) (max myRank peer)

/-- The work of `pointToPoint`: none in a region, where the operation is recorded without events. -/
def initWorkP2P (group : Nat) (opType : OpType) : M (Option Work) := do
  if (← getGroup group).coalescingState.isSet then do
    let _traceId ← record group none none true
    let _id ← newCall
    pure none
  else do
    let work ← initWork group opType true false
    pure (some (← recordWork group work true))

def beginPointToPoint (thread group device : Nat) (peer : Int) (opType : OpType) (fate : Fate) :
    M Call := do
  let batchP2P := decide ((← get).bcclActiveGroupCounter thread > 0)
  let rank := (← getGroup group).rank
  let key := if batchP2P then .device device else getKeySendRecv rank peer
  modifyGroup group fun self =>
    if batchP2P || self.coalescingState.isSet then self else bumpSeqP2P self
  modifyGroup group bumpOpId
  let comm ← communicator group key fate
  joinPointToPoint group device comm
  bcclStreamAt group key
  check fate.syncs .runtime
  let id := (← get).nextCall
  let work ← initWorkP2P group opType
  pure {
    id
    group
    work
    enqueue := false
    rest := pointToPointSections }

def beginEndCoalescing (thread group : Nat) (opType : OpType) (fate : Fate) : M Call := do
  match (← getGroup group).coalescedComm with
  | none => do
      groupEnd thread fate
      modifyGroup group fun self => { self with coalescingState := {} }
      pure { id := ← newCall, group, work := none, enqueue := false, rest := [] }
  | some _ => do
      let self ← getGroup group
      check (0 ≤ self.coalescedDevice)
        (.torchCheck "Somthing went wrong. Did you call end_coalescing before start_coalescing?")
      bcclStreamAt group (.device self.coalescedDevice)
      let enqueue := self.coalescingState.isSet && fate.captureStatus == .none
      let work ← initWork group opType self.coalescingState.coalP2P enqueue
      pure {
        id := work.id
        group
        work := some work
        enqueue
        rest := endCoalescingSections }

/-- ghost: what is added and not owned by a finished work -/
def liveGrants (finished : List Nat) (grants : List Grant) : List Grant :=
  grants.filter fun grant => !grant.owner.any finished.contains

/-- ghost: the work takes what has no owner yet -/
def Grant.claim (work : Nat) (grant : Grant) : Grant :=
  { grant with owner := some (grant.owner.getD work) }

def total (grants : List Grant) : Int := (grants.map (·.amount)).sum

def withTimeout (self : Group) (work : Work) : Work :=
  { work with
    opTimeout :=
      if 0 < self.ephemeralTimeoutActive then self.timeout + self.ephemeralTimeoutActive
      else self.timeout
    ownedEphermeralTimeout := self.ephemeralTimeoutActive - self.ephemeralTimeoutInflight }

def takeTimeout (finished : List Nat) (work : Work) (self : Group) : Group :=
  { self with
    ephemeralTimeoutInflight := self.ephemeralTimeoutActive
    charged := (work, total (liveGrants finished self.grants)) :: self.charged
    grants := self.grants.map (Grant.claim work.id) }

def assignTimeoutToWork (group : Nat) (work : Work) : M Work := do
  let work := withTimeout (← getGroup group) work
  let finished := (← get).finished
  modifyGroup group (takeTimeout finished work)
  pure work

def addTimeout (timeout : Int) (self : Group) : Group :=
  { self with
    ephemeralTimeoutActive := self.ephemeralTimeoutActive + timeout
    grants := ⟨timeout, none⟩ :: self.grants }

def addEphemeralTimeout (group : Nat) (timeout : Int) : M Unit :=
  modifyGroup group (addTimeout timeout)

def World.raised (world : World) (call : Nat) : World :=
  { world with
    pendingEventQueries := world.pendingEventQueries + 1
    increments := call :: world.increments }

def World.lowered (world : World) (call : Nat) : World :=
  { world with
    pendingEventQueries := world.pendingEventQueries - 1
    decrements := call :: world.decrements }

def incPendingEventQueries (call : Nat) : M Unit := modify fun world => world.raised call

def decPendingEventQueries (call : Nat) : M Unit := do
  check (0 < (← get).pendingEventQueries) (.internalAssert
    "Attempted to decrement the number of outstanding events to be queried, but it was <= 0.")
  modify fun world => world.lowered call

def emplaceBack (work : Work) (self : Group) : Group :=
  { self with
    workMetaList := self.workMetaList ++ [work]
    enqueued := work :: self.enqueued }

def closeRegion (self : Group) : Group :=
  { self with
    coalescingState := {}
    coalescedComm := none }

def perform (thread : Nat) (fate : Fate) (call : Call) : Section → M Call
  | .launch => do
      check fate.launches .runtime
      pure call
  | .closeGroup => do
      check fate.launches .runtime
      groupEnd thread fate
      check fate.recordsEnd .runtime
      pure call
  | .assignTimeout =>
    match call.work with
    | some work => do
        let work ← assignTimeoutToWork call.group work
        pure { call with work := some work }
    | none => pure call
  | .readCaptureStatus =>
    pure { call with enqueue := call.work.isSome && fate.captureStatus == .none }
  | .incPendingEventQueries => do
      incPendingEventQueries call.id
      pure call
  | .workEnqueue =>
    if call.enqueue then do
      let self ← getGroup call.group
      pure { call with admitted := !self.terminateProcessGroup && !self.blockingWait }
    else do
      decPendingEventQueries call.id
      pure call
  | .emplace =>
    match call.work with
    | some work => do
        if call.admitted then modifyGroup call.group (emplaceBack work) else pure ()
        pure call
    | none => pure call
  | .resetCoalescing => do
      modifyGroup call.group closeRegion
      pure call

section Sections

def World.recorded (world : World) (group : Nat) (startEvent endEvent : Option Nat) (isP2P : Bool) :
    FlightRecorder × Option Nat :=
  world.recorder.record group (world.groups group).seqCollective (world.groups group).seqP2P
    (world.groups group).opId startEvent endEvent isP2P

theorem initWork_plain (world : World) (group : Nat) (opType : OpType) (isP2P : Bool) :
    initWork group opType isP2P false world =
      .ok (newWork (world.groups group) world.nextCall opType isP2P)
        { world with nextCall := world.nextCall + 1 } := rfl

theorem initWork_recorded (world : World) (group : Nat) (opType : OpType) (isP2P : Bool) :
    initWork group opType isP2P true world =
      let work := newWork (world.groups group) world.nextCall opType isP2P
      let recorded := world.recorded group work.startEvent (some work.id) (isP2POp opType)
      .ok { work with traceId := recorded.2 }
        { world with nextCall := world.nextCall + 1, recorder := recorded.1 } := rfl

variable {thread : Nat} {fate : Fate} {call : Call} {work : Work} {world : World}

variable {group : Nat} {opType : OpType}

theorem initWorkP2P_region (region : (world.groups group).coalescingState.isSet = true) :
    initWorkP2P group opType world = .ok none { world with
        nextCall := world.nextCall + 1
        recorder := (world.recorded group none none true).1 } := by
  change (if _ then _ else _ : M (Option Work)) world = _
  rw [if_pos region]
  rfl

theorem initWorkP2P_single (single : (world.groups group).coalescingState.isSet = false) :
    initWorkP2P group opType world =
      let work := newWork (world.groups group) world.nextCall opType true
      let recorded := world.recorded group work.startEvent (some work.id) true
      .ok (some { work with traceId := recorded.2 })
        { world with nextCall := world.nextCall + 1, recorder := recorded.1 } := by
  change (if _ then _ else _ : M (Option Work)) world = _
  rw [if_neg (by rw [single]; exact Bool.false_ne_true)]
  rfl

theorem perform_launch : perform thread fate call .launch world =
    if fate.launches then .ok call world else .error .runtime world := by
  unfold perform check
  cases fate.launches <;> rfl

theorem perform_closeGroup : perform thread fate call .closeGroup world =
    if fate.launches = true ∧ fate.groups = true then
      if fate.recordsEnd then .ok call (world.leaveGroup thread)
      else .error .runtime (world.leaveGroup thread)
    else if fate.launches then .error (.distBackend "BCCL error in: ") world
      else .error .runtime world := by
  unfold perform groupEnd check
  cases fate.launches <;> cases fate.groups <;> cases fate.recordsEnd <;> rfl

theorem perform_assignTimeout (has : call.work = some work) :
    perform thread fate call .assignTimeout world =
      .ok { call with work := some (withTimeout (world.groups call.group) work) }
        (world.modifyGroup call.group
          (takeTimeout world.finished (withTimeout (world.groups call.group) work))) := by
  unfold perform
  rw [has]
  rfl

theorem perform_assignTimeout_none (has : call.work = none) :
    perform thread fate call .assignTimeout world = .ok call world := by
  unfold perform
  rw [has]
  rfl

theorem perform_incPendingEventQueries : perform thread fate call .incPendingEventQueries world =
    .ok call (world.raised call.id) := rfl

theorem perform_workEnqueue (enqueues : call.enqueue = true) :
    perform thread fate call .workEnqueue world =
      .ok { call with admitted := !(world.groups call.group).terminateProcessGroup &&
        !(world.groups call.group).blockingWait } world := by
  unfold perform
  rw [if_pos enqueues]
  rfl

theorem decPendingEventQueries_run (id : Nat) : decPendingEventQueries id world =
    if 0 < world.pendingEventQueries then
      .ok ⟨⟩ (world.lowered id)
    else .error (.internalAssert
      "Attempted to decrement the number of outstanding events to be queried, but it was <= 0.")
      world := by
  by_cases positive : 0 < world.pendingEventQueries
  · rw [if_pos positive]
    simp [decPendingEventQueries, check, run_bind, run_get, positive, run_pure, run_modify]
  · rw [if_neg positive]
    simp [decPendingEventQueries, check, run_bind, run_get, positive, run_throw]

theorem perform_workEnqueue_not (refuses : call.enqueue = false) :
    perform thread fate call .workEnqueue world =
      if 0 < world.pendingEventQueries then
        .ok call (world.lowered call.id)
      else .error (.internalAssert
        "Attempted to decrement the number of outstanding events to be queried, but it was <= 0.")
        world := by
  have skips : perform thread fate call .workEnqueue =
      (do decPendingEventQueries call.id; pure call : M Call) := by
    change (if call.enqueue = true then _ else _ : M Call) = _
    rw [if_neg (by simp [refuses])]
  rw [skips]
  simp only [run_bind, decPendingEventQueries_run]
  by_cases positive : 0 < world.pendingEventQueries
  · rw [if_pos positive, if_pos positive]
    rfl
  · rw [if_neg positive, if_neg positive]

theorem perform_emplace (has : call.work = some work) (admitted : call.admitted = true) :
    perform thread fate call .emplace world =
      .ok call (world.modifyGroup call.group (emplaceBack work)) := by
  unfold perform
  rw [has]
  dsimp only
  rw [if_pos admitted]
  rfl

theorem perform_emplace_none (lacks : call.work = none) :
    perform thread fate call .emplace world = .ok call world := by
  unfold perform
  rw [lacks]
  rfl

theorem perform_emplace_not (refused : call.admitted = false) :
    perform thread fate call .emplace world = .ok call world := by
  unfold perform
  cases has : call.work with
  | none => rfl
  | some work =>
    dsimp only
    rw [if_neg (by simp [refused])]
    rfl

end Sections

section Rules

variable {world : World} {group : Nat}

variable {α : Type} {next : PUnit → M α} {normal : α → World → Prop} {thrown : Exn → World → Prop}
  {key : CommKey}

theorem bind_errorIfCapturing {status : CaptureStatus}
    (passes : world.capturable = true ∨ status = .none → wp (next ⟨⟩) normal thrown world)
    (throws : ¬(world.capturable = true ∨ status = .none) → ∀ exception, thrown exception world) :
    wp (errorIfCapturingNonCapturableBCCL status >>= next) normal thrown world := by
  rw [wp_bind]
  refine bind_read ?_
  have meaning : (world.capturable || status == .none) = true ↔
      (world.capturable = true ∨ status = .none) := by simp
  unfold check
  split
  · next holds => exact passes (meaning.mp holds)
  · next refused => exact throws (fun may => refused (meaning.mpr may)) _

theorem bind_communicator {fate : Fate} {next : Nat → M α}
    (found : ∀ comm, (world.groups group).devBCCLCommMap.lookup key = some comm →
      wp (next comm) normal thrown world)
    (made : (world.groups group).devBCCLCommMap.lookup key = none → fate.createsComm = true →
      wp (next world.nextComm) normal thrown
        (({ world with nextComm := world.nextComm + 1 } : World).modifyGroup group fun self =>
          { self with
            bcclStreams := key :: self.bcclStreams
            devBCCLCommMap := (key, world.nextComm) :: self.devBCCLCommMap }))
    (fails : (world.groups group).devBCCLCommMap.lookup key = none → fate.createsComm = false →
      ∀ exception, thrown exception world) :
    wp (communicator group key fate >>= next) normal thrown world := by
  rw [wp_bind]
  change wp ((match (world.groups group).devBCCLCommMap.lookup key with
    | some comm => pure comm
    | none => initBCCLComm group key fate) : M Nat) _ _ world
  cases cached : (world.groups group).devBCCLCommMap.lookup key with
  | some comm => exact found comm cached
  | none =>
    exact bind_check (fun creates => made cached creates) fun refuses => fails cached refuses _

theorem bind_bcclStreamAt (found : (world.groups group).bcclStreams.contains key = true →
      wp (next ⟨⟩) normal thrown world)
    (missing : (world.groups group).bcclStreams.contains key = false →
      ∀ exception, thrown exception world) :
    wp (bcclStreamAt group key >>= next) normal thrown world := by
  rw [wp_bind]
  refine bind_getGroup ?_
  unfold check
  split
  · next holds => exact found holds
  · next absent => exact missing (Bool.eq_false_iff.mpr absent) _

end Rules

def runSections (thread : Nat) (fate : Fate) : List Section → Call → M Call
  | [], call => pure call
  | section_ :: rest, call => do runSections thread fate rest (← perform thread fate call section_)

def finishCall (thread : Nat) (fate : Fate) (call : Call) : M Call :=
  runSections thread fate call.rest call

def collective (thread group device : Nat) (opType : OpType) (fate : Fate) : M Call := do
  finishCall thread fate (← beginCollective group device opType fate)

def endCoalescing (thread group : Nat) (opType : OpType) (fate : Fate) : M Call := do
  finishCall thread fate (← beginEndCoalescing thread group opType fate)

end TorchSupa.Distributed
