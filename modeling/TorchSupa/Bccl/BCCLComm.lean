import TorchSupa.Data.Store
import TorchSupa.Logic.Outcome

/-!
`BCCLComm` of `BCCLUtils`, the owner of a communicator of the BCCL library, as it is built
against a library with all the features it asks for. Every method holds the mutex of its
object, so it is one step.
-/

namespace TorchSupa.Bccl

open Outcome

inductive Exn
  | distBackend (message : String)
  | torchCheck (message : String)
  | undefinedBehaviour
deriving DecidableEq, Repr


inductive BcclResult
  | success
  | inProgress
  | error
deriving DecidableEq, Repr, Inhabited

/-- The library, which is not part of the repository. Every answer may depend on the time of
the call. It names communicators by numbers. -/
structure Library where
  result : Nat → BcclResult
  settles : Nat → Bool

/-- What `registerSegment` gets for a segment: which API made it is known to the library only. -/
structure SegmentHandle where
  id : Nat
  window : Bool
deriving DecidableEq, Repr, Inhabited

/-- The calls that the library gets. The code keeps no such record. -/
inductive LibraryCall
  | abort (comm : Option Nat) (failed : Bool)
  | destroy (comm : Option Nat) (failed : Bool)
  | register (comm : Option Nat) (ptr size : Nat) (handle : SegmentHandle)
  | deregister (comm : Option Nat) (handle : SegmentHandle) (window : Bool)
deriving DecidableEq, Repr, Inhabited

structure BCCLComm where
  bcclComm : Option Nat := none
  rank : Int := 0
  deviceIndex : Int := -1
  aborted : Bool := false
  initialized : Bool := false
  nonBlocking : Bool := true
  bcclAsyncErr : BcclResult := .success
  commFailureReason : Option String := none
  bcclCommSplitCounter : Nat := 0
  registeredSegmentHandles : List (Nat × SegmentHandle) := []
deriving DecidableEq, Repr, Inhabited

structure World where
  comms : Store BCCLComm := .empty
  tick : Nat := 0
  nextComm : Nat := 0
  nextHandle : Nat := 0
  /-- ghost: newest first -/
  calls : List LibraryCall := []
  /-- ghost: the objects whose `abort` has returned -/
  abortedBy : List Nat := []

abbrev M := EStateM Exn World

def nextTick : M Nat := do
  let tick := (← get).tick
  modify fun world => { world with tick := tick + 1 }
  pure tick

def deref (id : Nat) : M BCCLComm := do
  match (← get).comms.get? id with
  | some comm => pure comm
  | none => throw .undefinedBehaviour

def update (id : Nat) (change : BCCLComm → BCCLComm) : M Unit := do
  match (← get).comms.get? id with
  | some _ => modify fun world => { world with comms := world.comms.modify id change }
  | none => throw .undefinedBehaviour

def logCall (call : LibraryCall) : M Unit :=
  modify fun world => { world with calls := call :: world.calls }

/-- Why a call that is made now throws in `C10D_BCCL_CHECK`, if it does. -/
def callFailure (library : Library) : M (Option String) := do
  pure (if library.result (← nextTick) = .success then none else some "BCCL error in: ")

def awaitedFailure (library : Library) : M (Option String) := do
  let tick ← nextTick
  pure (match library.result tick with
    | .success => none
    | .inProgress => if library.settles tick then none else some "BCCL timeout in: "
    | .error => some "BCCL error in: ")

def throwIfFailed : Option String → M Unit
  | some message => throw (.distBackend message)
  | none => pure ()

def bcclCheck (library : Library) : M Unit := do throwIfFailed (← callFailure library)

def bcclCheckTimeout (library : Library) : M Unit := do throwIfFailed (← awaitedFailure library)

def bcclCheckNonblocking (library : Library) : M Unit := do
  if library.result (← nextTick) = .error then throw (.distBackend "BCCL error in: ") else pure ()

/-- The text of the error that `getBcclComm` throws. -/
def abortedMessage (comm : BCCLComm) : String :=
  "BCCL communicator was aborted on rank " ++ toString comm.rank ++ ". " ++
    match comm.commFailureReason with
    | some reason => " Original reason for failure was: " ++ reason
    | none => ""

def waitReady (library : Library) (id : Nat) : M Unit := do
  if (← deref id).aborted then pure () else bcclCheckTimeout library

def ensureReady (library : Library) (id : Nat) (nonBlocking : Bool) : M Unit :=
  if nonBlocking then waitReady library id else pure ()

def getBcclComm (library : Library) (id : Nat) : M (Option Nat) := do
  let comm ← deref id
  if comm.aborted then throw (.distBackend (abortedMessage comm))
  else do
    ensureReady library id comm.nonBlocking
    update id fun self => { self with initialized := true }
    pure comm.bcclComm

def create (library : Library) (rank deviceIndex : Int) : M Nat := do
  bcclCheck library
  let world ← get
  set { world with
    nextComm := world.nextComm + 1
    comms := world.comms.push {
      bcclComm := some world.nextComm
      rank, deviceIndex
      initialized := true
      nonBlocking := false } }
  pure world.comms.fresh

/-- `bcclCommInitRankConfig` and `BCCLComm::create` with a configuration. -/
def createConfig (library : Library) (rank deviceIndex : Int) (blocking : Bool) : M Nat := do
  bcclCheckNonblocking library
  let world ← get
  set { world with
    nextComm := world.nextComm + 1
    comms := world.comms.push {
      bcclComm := some world.nextComm
      rank, deviceIndex
      -- in nonblocking mode this is found out the next time the communicator is accessed
      initialized := blocking
      nonBlocking := !blocking } }
  pure world.comms.fresh

def splitNocolor : Int := -1

/-- `BCCLComm::split` once it has the handle of the source; this part runs without the
mutex of the source. -/
def split (library : Library) (source : Nat) (colorId rank : Int) (blocking : Bool) :
    M Nat := do
  if colorId < splitNocolor then throw (.torchCheck "Color must be a non-negative value")
  else do
    bcclCheckTimeout library
    update source fun self => { self with bcclCommSplitCounter := self.bcclCommSplitCounter + 1 }
    let deviceIndex := (← deref source).deviceIndex
    let world ← get
    -- without a color the rank is in no child
    set { world with
      nextComm := world.nextComm + 1
      comms := world.comms.push {
        bcclComm := if colorId ≥ 0 then some world.nextComm else none
        rank, deviceIndex
        nonBlocking := !blocking } }
    pure world.comms.fresh

def deregisterAll (library : Library) (comm : Option Nat) :
    List (Nat × SegmentHandle) → M Unit :=
  forEach fun entry => do
    logCall (.deregister comm entry.2 false)
    bcclCheck library

def abort (library : Library) (id : Nat) (commFailureReason : Option String) : M Unit := do
  let comm ← deref id
  if comm.aborted && !comm.initialized then
    -- should not abort twice
    modify fun world => { world with abortedBy := id :: world.abortedBy }
  else do
    deregisterAll library comm.bcclComm comm.registeredSegmentHandles
    update id fun self => { self with registeredSegmentHandles := [], commFailureReason }
    let failure ← awaitedFailure library
    logCall (.abort comm.bcclComm failure.isSome)
    throwIfFailed failure
    update id fun self =>
      { self with
        aborted := true
        bcclComm := none
        bcclAsyncErr := if self.bcclAsyncErr = .success then .error else self.bcclAsyncErr }
    modify fun world => { world with abortedBy := id :: world.abortedBy }

def finalize (library : Library) (id : Nat) : M Unit := do
  if (← deref id).aborted then pure ()
  else do
    let _comm ← getBcclComm library id
    bcclCheckNonblocking library

def destroy (library : Library) (id : Nat) : M Unit := do
  if (← deref id).aborted then pure ()
  else do
    let comm ← getBcclComm library id
    let failure ← callFailure library
    logCall (.destroy comm failure.isSome)
    throwIfFailed failure
    -- poison future getBcclComm
    update id fun self => { self with aborted := true }

def destructor (id : Nat) : M Unit := do
  let _comm ← deref id
  modify fun world => { world with comms := world.comms.erase id }

def registerSegment (library : Library) (id : Nat) (ptr size : Nat)
    (errorOnRereg window : Bool) : M Unit := do
  let comm ← deref id
  if comm.registeredSegmentHandles.any (·.1 == ptr) then
    if errorOnRereg then throw (.torchCheck "Segment with ptr has already been registered on bcclComm_")
    else pure ()
  else do
    let bcclComm ← getBcclComm library id
    bcclCheck library
    let handle : SegmentHandle := ⟨(← get).nextHandle, window⟩
    modify fun world => { world with nextHandle := world.nextHandle + 1 }
    logCall (.register bcclComm ptr size handle)
    update id fun self =>
      { self with registeredSegmentHandles := (ptr, handle) :: self.registeredSegmentHandles }

def deregisterSegment (library : Library) (id : Nat) (ptr : Nat) (window : Bool) : M Unit := do
  let comm ← deref id
  match comm.registeredSegmentHandles.find? (·.1 == ptr) with
  | none => throw (.torchCheck "Segment with ptr is not registered on bcclComm_")
  | some entry => do
      let bcclComm ← getBcclComm library id
      logCall (.deregister bcclComm entry.2 window)
      bcclCheck library
      update id fun self =>
        { self with
          registeredSegmentHandles :=
            self.registeredSegmentHandles.filter fun other => other.1 != ptr }

end TorchSupa.Bccl
