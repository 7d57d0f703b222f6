import TorchSupa.Logic.Brackets
import TorchSupa.Logic.MachineIntegers

/-!
The collectives of `bccl.cpp` that open and close a group of the library by hand: the splits of
`all2all`, `all2all`, `gather` and `scatter`. Whether the group is closed again when a step throws.
-/

namespace TorchSupa.Bccl.Groups

open Outcome MachineIntegers

inductive ScalarType
  | float | half | double | long | int | char | byte | bool
  | float8E4m3fn | float8E5m2 | float8E4m3fnuz | float8E5m2fnuz | bfloat16
  | other (name : String)
deriving DecidableEq, Repr, Inhabited

inductive BcclDataType
  | float | half | double | int64 | int | char | uint8 | bfloat16
deriving DecidableEq, Repr, Inhabited

inductive BcclResult
  | success | unhandledSupaError | systemError | internalError | invalidArgument | invalidUsage
  | remoteError | inProgress | numResults
  | unlisted (code : Int)
deriving DecidableEq, Repr, Inhabited

def BcclResult.code : BcclResult → Int
  | success => 0
  | unhandledSupaError => 1
  | systemError => 2
  | internalError => 3
  | invalidArgument => 4
  | invalidUsage => 5
  | remoteError => 6
  | inProgress => 7
  | numResults => 8
  | unlisted code => code

structure Build where
  useBccl : Bool := true
  major : Nat
  minor : Nat
  alltoallSupported : Bool := false
  alltoallvSupported : Bool := false
deriving DecidableEq, Repr, Inhabited

def Build.atLeast (build : Build) (minor : Nat) : Bool :=
  2 < build.major || build.major = 2 && minor ≤ build.minor

def Build.hasRemoteError (build : Build) : Bool := build.atLeast 13

def Build.hasCommNonblocking (build : Build) : Bool := build.atLeast 14

structure Tensor where
  device : String
  isPrivateuseone : Bool
  scalarType : ScalarType
  numel : Nat
  nbytes : Nat
  /-- what `data_ptr` gives; it throws for a tensor without storage -/
  dataPtr : Option Nat
deriving DecidableEq, Repr, Inhabited

inductive Call
  | commCount (comm : Nat)
  | commUserRank (comm : Nat)
  | groupStart
  | groupEnd
  | send (buffer count : Nat) (type : BcclDataType) (peer : Int) (comm stream : Nat)
  | recv (buffer count : Nat) (type : BcclDataType) (peer : Int) (comm stream : Nat)
  | allToAll (send recv count : Nat) (type : BcclDataType) (comm stream : Nat)
  | allToAllv (send : Nat) (sendcounts senddispls : List Nat) (recv : Nat)
      (recvcounts recvdispls : List Nat) (type : BcclDataType) (comm stream : Nat)
deriving DecidableEq, Repr, Inhabited

/-- A look at a communicator that is not ready: the seconds since the wait began, and what
`bcclCommGetAsyncError` then says. -/
structure Poll where
  timeElapsed : Int
  result : BcclResult
deriving DecidableEq, Repr, Inhabited

/-- The library and the tensor operations, which are not part of the repository: no step of an
operation is made twice, so an answer depends on the step only. -/
structure Library where
  result : Call → BcclResult
  polls : Call → List Poll
  nonblockingTimeout : Int := 1800
  errorString : BcclResult → String
  commCount : Int
  commUserRank : Int
  copyError : Tensor → Tensor → Option String

abbrev M := EStateM String (List Call)

def Call.delta : Call → Int
  | groupStart => 1
  | groupEnd => -1
  | _ => 0

def depth (calls : List Call) : Int := (calls.map Call.delta).sum

@[simp] theorem depth_append (calls : List Call) (call : Call) :
    depth (calls ++ [call]) = depth calls + call.delta := by
  simp [depth]

section Conversions

def bcclDataType : ScalarType → Option BcclDataType
  | .float => some .float
  | .half => some .half
  | .double => some .double
  | .long => some .int64
  | .int => some .int
  | .char => some .char
  | .byte => some .uint8
  | .bool => some .uint8
  | .float8E4m3fn => some .uint8
  | .float8E5m2 => some .uint8
  | .float8E4m3fnuz => some .uint8
  | .float8E5m2fnuz => some .uint8
  | .bfloat16 => some .bfloat16
  | .other _ => none

def ScalarType.name : ScalarType → String
  | .float => "Float"
  | .half => "Half"
  | .double => "Double"
  | .long => "Long"
  | .int => "Int"
  | .char => "Char"
  | .byte => "Byte"
  | .bool => "Bool"
  | .float8E4m3fn => "Float8_e4m3fn"
  | .float8E5m2 => "Float8_e5m2"
  | .float8E4m3fnuz => "Float8_e4m3fnuz"
  | .float8E5m2fnuz => "Float8_e5m2fnuz"
  | .bfloat16 => "BFloat16"
  | .other name => name

def toBcclDataType (type : ScalarType) : M BcclDataType :=
  demand (bcclDataType type) ("Unconvertible BCCL type " ++ type.name)

def Tensor.bcclType (tensor : Tensor) : Option BcclDataType :=
  if tensor.isPrivateuseone then bcclDataType tensor.scalarType else none

def Tensor.toBcclDataType (tensor : Tensor) : M BcclDataType :=
  demand tensor.bcclType
    (if tensor.isPrivateuseone then "Unconvertible BCCL type " ++ tensor.scalarType.name
      else "BCCL only supports SUPA tensors, but got a tensor on " ++ tensor.device)

def Tensor.pointer (tensor : Tensor) : M Nat :=
  demand tensor.dataPtr "Cannot access data pointer of Tensor that doesn't have storage"

def copyInto (library : Library) (dst src : Tensor) : M Unit :=
  match library.copyError dst src with
  | none => pure ()
  | some message => throw message

def Build.converts (build : Build) : BcclResult → Bool
  | .remoteError => build.hasRemoteError
  | .inProgress => build.hasCommNonblocking
  | .unlisted _ => false
  | _ => true

def errorText (build : Build) (library : Library) (result : BcclResult) : String :=
  if build.converts result then
    "BCCL Error " ++ toString result.code ++ ": " ++ library.errorString result
  else "Unconvertible BCCL type"

end Conversions

section Checks

variable (build : Build) (library : Library)

def bcclCheck (call : Call) : M Unit := do
  modify (· ++ [call])
  check (library.result call = .success) (errorText build library (library.result call))

/-- The loop of `BCCL_CHECK_TIMEOUT`: what the call ends with, unless its time is over. -/
def settle (timeout : Int) : List Poll → BcclResult → Option BcclResult
  | [], result => if result = .inProgress then none else some result
  | poll :: rest, result =>
    if result = .inProgress then
      if timeout < poll.timeElapsed then none else settle timeout rest poll.result
    else some result

def bcclCheckTimeout (call : Call) : M Unit := do
  modify (· ++ [call])
  check (build.converts (library.result call)) "Unconvertible BCCL type"
  check build.hasCommNonblocking "BCCL COMM NONBLOCKING USED WITH UNSUPPORTED BCCL VERSION."
  let outcome := settle library.nonblockingTimeout (library.polls call) (library.result call)
  check (outcome ≠ none) "BCCL timeout when waiting for nonblocking call to become successful."
  check (outcome = some .success) (errorText build library (outcome.getD .success))

def bcclCheckNonblocking (call : Call) : M Unit :=
  if build.hasCommNonblocking then bcclCheckTimeout build library call
  else bcclCheck build library call

end Checks

/-! The lists of tensors have one for every rank. What `operator[]` gives behind their end is
undefined; a default tensor, which has no storage, stands for it. -/

section Operations

variable (build : Build) (library : Library) (comm stream : Nat)

def shouldSendRecv (count : Int) : Bool := build.atLeast 14 || count ≠ 0

/-- The `TORCH_CHECK`s of a build that the operation is not part of. -/
def requireSendRecv (name : String) : M Unit := do
  check build.useBccl "PyTorch built without BCCL support"
  check (build.atLeast 7) (name ++ " is only supported for BCCL lib version >= 2.7.0")

def Library.ranks (library : Library) : List Nat := List.range library.commCount.toNat

def exchangeEqual (sendbuff recvbuff count rankdiff : Nat) (type : BcclDataType) (r : Nat) :
    M Unit :=
  if shouldSendRecv build count then do
    bcclCheck build library (.send (sendbuff + r * rankdiff) count type r comm stream)
    bcclCheck build library (.recv (recvbuff + r * rankdiff) count type r comm stream)
  else pure ()

def all2allSingleEqualSplit (input output : Tensor) (size : Int) : M Unit := do
  requireSendRecv build "all2all"
  let type ← input.toBcclDataType
  let count := (uint64 ((input.numel : Int).tdiv size)).toNat
  let rankdiff := (uint64 ((input.nbytes : Int).tdiv size)).toNat
  let sendbuff ← input.pointer
  let recvbuff ← output.pointer
  if build.alltoallSupported then
    bcclCheck build library (.allToAll sendbuff recvbuff count type comm stream)
  else do
    bcclCheck build library (.commCount comm)
    bcclCheck build library .groupStart
    forEach (exchangeEqual build library comm stream sendbuff recvbuff count rankdiff type)
      library.ranks
    bcclCheckNonblocking build library .groupEnd

def exchangeUnequal (sendbuff : Nat) (sendcounts senddispls : List Nat) (recvbuff : Nat)
    (recvcounts recvdispls : List Nat) (size : Nat) (type : BcclDataType) (r : Nat) :
    M Unit := do
  (if shouldSendRecv build (sendcounts.getD r 0) then
    bcclCheck build library (.send (sendbuff + senddispls.getD r 0 * size) (sendcounts.getD r 0)
      type r comm stream)
  else pure ())
  if shouldSendRecv build (recvcounts.getD r 0) then
    bcclCheck build library (.recv (recvbuff + recvdispls.getD r 0 * size) (recvcounts.getD r 0)
      type r comm stream)
  else pure ()

def all2allSingleUnequalSplit (sendbuff : Nat) (sendcounts senddispls : List Nat) (recvbuff : Nat)
    (recvcounts recvdispls : List Nat) (size : Nat) (scalarType : ScalarType) : M Unit := do
  requireSendRecv build "all2all"
  let type ← toBcclDataType scalarType
  if build.alltoallvSupported then
    bcclCheck build library (.allToAllv sendbuff sendcounts senddispls recvbuff recvcounts
      recvdispls type comm stream)
  else do
    bcclCheck build library (.commCount comm)
    bcclCheck build library .groupStart
    forEach (exchangeUnequal build library comm stream sendbuff sendcounts senddispls recvbuff
      recvcounts recvdispls size type) library.ranks
    bcclCheckNonblocking build library .groupEnd

def sendTensor (tensor : Tensor) (peer : Int) : M Unit := do
  let buffer ← tensor.pointer
  let type ← tensor.toBcclDataType
  bcclCheck build library (.send buffer tensor.numel type peer comm stream)

def recvTensor (tensor : Tensor) (peer : Int) : M Unit := do
  let buffer ← tensor.pointer
  let type ← tensor.toBcclDataType
  bcclCheck build library (.recv buffer tensor.numel type peer comm stream)

def exchangeTensors (outputTensors inputTensors : List Tensor) (r : Nat) : M Unit := do
  let input := inputTensors.getD r default
  let output := outputTensors.getD r default
  (if shouldSendRecv build input.numel then sendTensor build library comm stream input r
  else pure ())
  if shouldSendRecv build output.numel then recvTensor build library comm stream output r
  else pure ()

def all2all (outputTensors inputTensors : List Tensor) : M Unit := do
  requireSendRecv build "all2all"
  bcclCheck build library .groupStart
  forEach (exchangeTensors build library comm stream outputTensors inputTensors)
    (List.range outputTensors.length)
  bcclCheckNonblocking build library .groupEnd

def gatherFrom (inputs : Tensor) (outputs : List Tensor) (type : BcclDataType) (root : Int)
    (r : Nat) : M Unit :=
  if r ≠ root then do
    let recvbuff ← (outputs.getD r default).pointer
    bcclCheck build library (.recv recvbuff inputs.numel type r comm stream)
  else copyInto library (outputs.getD r default) inputs

def gather (inputs : Tensor) (outputs : List Tensor) (root : Int) : M Unit := do
  requireSendRecv build "gather"
  bcclCheck build library (.commCount comm)
  bcclCheck build library (.commUserRank comm)
  let type ← inputs.toBcclDataType
  let sendbuff ← inputs.pointer
  bcclCheck build library .groupStart
  (if library.commUserRank = root then
    forEach (gatherFrom build library comm stream inputs outputs type root) library.ranks
  else bcclCheck build library (.send sendbuff inputs.numel type root comm stream))
  bcclCheckNonblocking build library .groupEnd

def scatterTo (inputs : List Tensor) (outputs : Tensor) (root : Int) (r : Nat) : M Unit :=
  if r ≠ root then do
    let input := inputs.getD r default
    let sendType ← input.toBcclDataType
    let sendbuff ← input.pointer
    bcclCheck build library (.send sendbuff input.numel sendType r comm stream)
  else copyInto library outputs (inputs.getD r default)

def scatter (inputs : List Tensor) (outputs : Tensor) (root : Int) : M Unit := do
  requireSendRecv build "scatter"
  bcclCheckNonblocking build library (.commCount comm)
  bcclCheckNonblocking build library (.commUserRank comm)
  bcclCheck build library .groupStart
  (if library.commUserRank = root then
    forEach (scatterTo build library comm stream inputs outputs root) library.ranks
  else do
    let recvType ← outputs.toBcclDataType
    let recvbuff ← outputs.pointer
    bcclCheck build library (.recv recvbuff outputs.numel recvType root comm stream))
  bcclCheckNonblocking build library .groupEnd

end Operations

end TorchSupa.Bccl.Groups
