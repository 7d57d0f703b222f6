import TorchSupa.Allocator.Driver
import TorchSupa.Logic.Transitions

/-!
`SupaIPCTypes.cpp` and the sending half of `StorageSharing.cpp`. A call of the producer leaves
work for later: the destructors that it starts are on a stack, the top one first, and a
consumer, which is another process, may release a counter between any two of them.
-/

namespace TorchSupa.SentData

open Allocator Outcome

abbrev ShmHandle := Nat
abbrev SentDataId := Nat
abbrev StorageId := Nat

def refCounterFileSize : Nat := 10000

def maximumEventsToUse : Int := 1000

def increment (value : Nat) : Nat := (value + 1) % 2 ^ 64

def decrement (value : Nat) : Nat := if value = 0 then 2 ^ 64 - 1 else value - 1

inductive DataPtr
  | allocation (id : Nat)
  | sentData (id : SentDataId)
deriving DecidableEq, Repr

structure SupaIPCRefCountersFile where
  handle : ShmHandle
  size : Nat
  nextOffset : Nat := 0
  usedSlots : Nat := 0
  counters : Nat → Nat := fun _ => 0

namespace SupaIPCRefCountersFile

def setCounter (file : SupaIPCRefCountersFile) (value : Nat) : SupaIPCRefCountersFile :=
  { file with counters := Function.update file.counters file.nextOffset value }

def haveOffsets (file : SupaIPCRefCountersFile) : Bool := file.nextOffset < file.size

def offsetsInUse (file : SupaIPCRefCountersFile) : Bool := file.usedSlots ≠ 0

def rotateOffset (file : SupaIPCRefCountersFile) : SupaIPCRefCountersFile :=
  { file with nextOffset := increment file.nextOffset, usedSlots := increment file.usedSlots }

def returnOffset (file : SupaIPCRefCountersFile) : SupaIPCRefCountersFile :=
  { file with usedSlots := decrement file.usedSlots }

def decrementCounter (offset : Nat) (file : SupaIPCRefCountersFile) : SupaIPCRefCountersFile :=
  { file with counters := Function.update file.counters offset (decrement (file.counters offset)) }

theorem setCounter_counters (file : SupaIPCRefCountersFile) (value : Nat) :
    (file.setCounter value).counters = Function.update file.counters file.nextOffset value := rfl

theorem decrementCounter_counters (file : SupaIPCRefCountersFile) (offset : Nat) :
    (file.decrementCounter offset).counters =
      Function.update file.counters offset (decrement (file.counters offset)) := rfl

end SupaIPCRefCountersFile

structure SupaIPCSentData where
  handle : ShmHandle
  offset : Nat
  originalPtr : Option DataPtr := none
  eventSyncRequired : Bool
  /-- ghost: its destructor has begun -/
  destroyed : Bool := false
  /-- ghost: the memory of the allocator behind it -/
  allocation : Option Nat := none
  /-- ghost: its consumer has released it -/
  released : Bool := false
  /-- ghost: its counter has been zero since it was sent -/
  reachedZero : Bool := false
deriving Repr

structure Storage where
  dataPtr : Option DataPtr
  receivedCuda : Bool := false
deriving Repr

structure World where
  files : Store SupaIPCRefCountersFile := .empty
  refCountersFiles : List ShmHandle := []
  nextAvailable : Option ShmHandle := none
  limbo : List SentDataId := []
  syncEventsUsed : Int := 0
  sentData : Store SupaIPCSentData := .empty
  storages : Store Storage := .empty
  /-- ghost: how many allocations have been made -/
  allocations : Nat := 0
  /-- ghost: the allocations that have been returned to the allocator -/
  returned : List Nat := []
  /-- ghost: how many sent data the files had that were alive when they were dropped -/
  drops : List Int := []

abbrev SharingM := EStateM Exn World

structure Answers where
  makeDataPtr : Bool := true
  shareIpcHandle : Bool := true
  eventCreate : Bool := true
  eventRecord : Bool := true
  streamSynchronize : Bool := true
  ipcGetEventHandle : Bool := true
  setDevice : Bool := true
  eventDestroy : Bool := true

def liveOf (world : World) (handle : ShmHandle) : Int :=
  world.sentData.sum fun self => if self.handle = handle ∧ self.destroyed = false then 1 else 0

def getFile (handle : ShmHandle) : SharingM SupaIPCRefCountersFile := do
  demand ((← get).files.get? handle) .undefinedBehaviour

def updateFile (handle : ShmHandle) (change : SupaIPCRefCountersFile → SupaIPCRefCountersFile) :
    SharingM Unit :=
  modify fun world => { world with files := world.files.modify handle change }

def getSentData (sentData : SentDataId) : SharingM SupaIPCSentData := do
  let self ← demand ((← get).sentData.get? sentData) .undefinedBehaviour
  check (!self.destroyed) .undefinedBehaviour
  pure self

def updateSentData (sentData : SentDataId) (change : SupaIPCSentData → SupaIPCSentData) :
    SharingM Unit :=
  modify fun world => { world with sentData := world.sentData.modify sentData change }

def dropFile (handle : ShmHandle) : SharingM Unit :=
  modify fun world => { world with
    refCountersFiles := world.refCountersFiles.erase handle
    drops := liveOf world handle :: world.drops
    files := if world.nextAvailable = some handle then world.files else world.files.erase handle }

def safeCleanCurrentFile : SharingM Unit := do
  match (← get).nextAvailable with
  | none => pure ()
  | some next => do
      let file ← getFile next
      if !file.offsetsInUse then do
        modify fun world => { world with nextAvailable := none }
        dropFile next

def returnRefCounter (handle : ShmHandle) : SharingM Unit := do
  if (← get).refCountersFiles.contains handle then do
    updateFile handle .returnOffset
    let file ← getFile handle
    if !file.offsetsInUse && !file.haveOffsets then dropFile handle

def newSentData (answers : Answers) (handle : ShmHandle) (offset : Nat) : SharingM SentDataId := do
  let eventSyncRequired := decide ((← get).syncEventsUsed < maximumEventsToUse)
  if eventSyncRequired then do
    modify fun world => { world with syncEventsUsed := world.syncEventsUsed + 1 }
    check answers.eventCreate .driver
    check answers.eventRecord .driver
  else check answers.streamSynchronize .driver
  let sentData := (← get).sentData.fresh
  modify fun world =>
    { world with sentData := world.sentData.push { handle, offset, eventSyncRequired } }
  pure sentData

def counterValue (self : SupaIPCSentData) : SharingM Nat := do
  let file ← getFile self.handle
  pure (file.counters self.offset)

def ensureRefCountersFile (answers : Answers) : SharingM Unit := do
  if (← get).nextAvailable.isNone then do
    check answers.makeDataPtr .driver
    modify fun world => { world with
      files := world.files.push { handle := world.files.fresh, size := refCounterFileSize }
      refCountersFiles := world.files.fresh :: world.refCountersFiles
      nextAvailable := some world.files.fresh }

def getNewRefCountedSentData (answers : Answers) : SharingM SentDataId := do
  ensureRefCountersFile answers
  let next ← demand (← get).nextAvailable .undefinedBehaviour
  updateFile next (·.setCounter 1)
  let file ← getFile next
  let sentData ← newSentData answers file.handle file.nextOffset
  updateFile next .rotateOffset
  let file ← getFile next
  if !file.haveOffsets then modify fun world => { world with nextAvailable := none }
  pure sentData

/-- ghost: the memory of the allocator that is behind a pointer. -/
def World.allocationOf (world : World) : DataPtr → Option Nat
  | .allocation id => some id
  | .sentData id => (world.sentData.get? id).bind SupaIPCSentData.allocation

def setDataPtr (storage : StorageId) (ptr : DataPtr) : SharingM Unit :=
  modify fun world => { world with
    storages := world.storages.modify storage fun self => { self with dataPtr := some ptr } }

def setOriginalPtr (sentData : SentDataId) (ptr : DataPtr) : SharingM Unit := do
  let allocation := (← get).allocationOf ptr
  updateSentData sentData fun self => { self with originalPtr := some ptr, allocation }

def shareSupa (answers : Answers) (storage : StorageId) : SharingM Unit := do
  let self ← demand ((← get).storages.get? storage) .undefinedBehaviour
  check (!self.receivedCuda) (.torchCheck
    "Attempted to send SUPA tensor received from another process; this is not currently supported. Consider cloning before sending.")
  match self.dataPtr with
  | none => pure ()
  | some oldDataPtr => do
      check answers.shareIpcHandle .driver
      let sentData ← getNewRefCountedSentData answers
      setDataPtr storage (.sentData sentData)
      setOriginalPtr sentData oldDataPtr
      let data ← getSentData sentData
      if data.eventSyncRequired then check answers.ipcGetEventHandle .driver

inductive Task
  | release (ptr : DataPtr)
  | collect
  | destroy (sentData : SentDataId)
  | cleanCurrentFile
deriving DecidableEq, Repr

def supaIPCSentDataDelete (sentData : SentDataId) : SharingM (List Task) := do
  let self ← getSentData sentData
  if (← counterValue self) > 0 then do
    modify fun world => { world with limbo := world.limbo ++ [sentData] }
    pure [.collect]
  else pure [.collect, .destroy sentData]

def isReleased (world : World) (sentData : SentDataId) : Bool :=
  (world.sentData.get? sentData).any fun self =>
    (world.files.get? self.handle).any fun file => file.counters self.offset = 0

/-- The blocks of the limbo whose counter is not zero are kept; the others are destroyed out
of the critical section. -/
def collect : SharingM (List Task) := do
  let world ← get
  let resetBlocks := world.limbo.filter (isReleased world)
  set { world with limbo := world.limbo.filter fun sentData => !isReleased world sentData }
  pure (resetBlocks.map .destroy)

def destroySentData (answers : Answers) (sentData : SentDataId) : SharingM (List Task) := do
  let self ← getSentData sentData
  updateSentData sentData fun self => { self with destroyed := true }
  returnRefCounter self.handle
  if self.eventSyncRequired && answers.setDevice && answers.eventDestroy then
    modify fun world => { world with syncEventsUsed := world.syncEventsUsed - 1 }
  pure (self.originalPtr.toList.map .release)

def Task.run (answers : Answers) : Task → SharingM (List Task)
  | .release (.allocation id) => do
      modify fun world => { world with returned := id :: world.returned }
      pure []
  | .release (.sentData id) => supaIPCSentDataDelete id
  | .collect => SentData.collect
  | .destroy sentData => destroySentData answers sentData
  | .cleanCurrentFile => do
      if (← get).limbo.isEmpty then safeCleanCurrentFile
      pure []

def releaseIPCCounter (sentData : SentDataId) : SharingM Unit := do
  let self ← demand ((← get).sentData.get? sentData) .undefinedBehaviour
  match (← get).files.get? self.handle with
  | none => updateSentData sentData fun self => { self with released := true }
  | some file => do
      updateFile self.handle (·.decrementCounter self.offset)
      updateSentData sentData fun self => { self with
        released := true
        reachedZero := self.reachedZero || decrement (file.counters self.offset) = 0 }

inductive Action
  | malloc
  | newSharedSupa
  | shareSupa (storage : StorageId) (answers : Answers)
  | deleteStorage (storage : StorageId)
  | supaIPCCollect
  | proceed (answers : Answers)
  | releaseIPCCounter (sentData : SentDataId)

structure Process where
  world : World
  stack : List Task

def Action.call : Action → Option (SharingM (List Task))
  | .malloc => some do
      modify fun world => { world with
        allocations := world.allocations + 1
        storages := world.storages.push { dataPtr := some (.allocation world.allocations) } }
      pure []
  | .newSharedSupa => some do
      modify fun world => { world with
        storages := world.storages.push { dataPtr := none, receivedCuda := true } }
      pure []
  | .shareSupa storage answers => some do
      SentData.shareSupa answers storage
      pure []
  | .deleteStorage storage => some do
      let self ← demand ((← get).storages.get? storage) .undefinedBehaviour
      modify fun world => { world with storages := world.storages.erase storage }
      pure (self.dataPtr.toList.map .release)
  | .supaIPCCollect => some (pure [.collect, .cleanCurrentFile])
  | _ => none

inductive Step (process : Process) (action : Action) : Process → Prop
  | call (program : SharingM (List Task)) (tasks : List Task) (after : World) :
      process.stack = [] → action.call = some program → program process.world = .ok tasks after →
      Step process action ⟨after, tasks⟩
  | throws (program : SharingM (List Task)) (exception : Exn) (after : World) :
      process.stack = [] → action.call = some program →
      program process.world = .error exception after → ¬ exception.Fatal →
      Step process action ⟨after, []⟩
  | proceed (answers : Answers) (task : Task) (rest tasks : List Task) (after : World) :
      action = .proceed answers → process.stack = task :: rest →
      task.run answers process.world = .ok tasks after → Step process action ⟨after, tasks ++ rest⟩
  | release (sentData : SentDataId) (self : SupaIPCSentData) (after : World) :
      action = .releaseIPCCounter sentData →
      process.world.sentData.get? sentData = some self → self.released = false →
      SentData.releaseIPCCounter sentData process.world = .ok () after →
      Step process action ⟨after, process.stack⟩

def sharing : System Process Action where
  initial process := process = ⟨{}, []⟩
  step := Step

end TorchSupa.SentData
