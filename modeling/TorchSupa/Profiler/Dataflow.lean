import Mathlib.Data.List.Sort

/-!
`calculateUniqueTensorIDs`. A record of a tensor is what `RawTensors` makes of a result; the ids are
given by the place of the record, where the source writes them through a reference. An
`AllocationID` is a number.
-/

namespace TorchSupa.Profiler

abbrev TensorImplAddress := Nat

def NoTensorImpl : TensorImplAddress := 0

abbrev StorageImplData := Nat

abbrev TensorID := Nat

structure Device where
  type : Nat
  index : Int
deriving DecidableEq, Repr

structure TensorMetadata where
  impl : TensorImplAddress
  data : StorageImplData
  device : Device
deriving DecidableEq, Repr

inductive Input
  | tensor (metadata : TensorMetadata)
  | tensors (metadata : List TensorMetadata)
  | other
deriving Repr

structure ModuleParameter where
  metadata : TensorMetadata
  gradMetadata : Option TensorMetadata
deriving Repr

structure NNModuleInfo where
  address : Nat
  parameters : List ModuleParameter
deriving Repr

structure OptimizerParameter where
  metadata : TensorMetadata
  gradMetadata : Option TensorMetadata
  state : List (String × TensorMetadata)
deriving Repr

structure OptimizerInfo where
  address : Nat
  parameters : List OptimizerParameter
deriving Repr

inductive ExtraFields
  | torchOp (inputs : List Input)
  | pyCall (module : Option NNModuleInfo) (optimizer : Option OptimizerInfo)
  | allocation (ptr : StorageImplData) (allocSize : Int) (device : Device)
  | other
deriving Repr

structure RawTensorInfo where
  impl : TensorImplAddress
  storage : StorageImplData
  device : Device
  isFree : Bool
deriving DecidableEq, Repr

section Flatten

def rawTensor (t : TensorMetadata) : RawTensorInfo where
  impl := t.impl
  storage := t.data
  device := t.device
  isFree := false

def rawAllocation (ptr : StorageImplData) (allocSize : Int) (device : Device) : RawTensorInfo where
  impl := NoTensorImpl
  storage := ptr
  device := device
  isFree := allocSize < 0

def Input.rawTensors : Input → List RawTensorInfo
  | .tensor metadata => [rawTensor metadata]
  | .tensors metadata => metadata.map rawTensor
  | .other => []

def NNModuleInfo.rawTensors (module : NNModuleInfo) : List RawTensorInfo :=
  module.parameters.flatMap fun p => rawTensor p.metadata :: (p.gradMetadata.map rawTensor).toList

def OptimizerInfo.rawTensors (optimizer : OptimizerInfo) : List RawTensorInfo :=
  optimizer.parameters.flatMap fun p =>
    rawTensor p.metadata :: (p.gradMetadata.map rawTensor).toList ++
      p.state.map fun state => rawTensor state.2

def flatten (seenModules seenOptimizers : List Nat) : List ExtraFields → List RawTensorInfo
  | [] => []
  | .torchOp inputs :: rest =>
    inputs.flatMap Input.rawTensors ++ flatten seenModules seenOptimizers rest
  | .pyCall module optimizer :: rest =>
    let modules := module.toList.filter (·.address ∉ seenModules)
    let optimizers := optimizer.toList.filter (·.address ∉ seenOptimizers)
    modules.flatMap (·.rawTensors) ++ optimizers.flatMap (·.rawTensors) ++
      flatten (modules.map (·.address) ++ seenModules) (optimizers.map (·.address) ++ seenOptimizers)
        rest
  | .allocation ptr allocSize device :: rest =>
    rawAllocation ptr allocSize device :: flatten seenModules seenOptimizers rest
  | .other :: rest => flatten seenModules seenOptimizers rest

end Flatten

section Tables

variable {κ ν : Type} [DecidableEq κ]

def insert (table : κ → Option ν) (key : κ) (value : ν) : κ → Option ν :=
  if (table key).isSome then table else Function.update table key (some value)

def inserted (table : κ → Option ν) (key : κ) (value : ν) : ν :=
  (table key).getD value

end Tables

def assignAllocations (counter : Nat) (versions : StorageImplData × Device → Option Nat) :
    List RawTensorInfo → List Nat
  | [] => []
  | t :: rest =>
    let key := (t.storage, t.device)
    let table := insert versions key counter
    inserted versions key counter ::
      assignAllocations (if (versions key).isSome then counter else counter + 1)
        (if t.isFree then Function.update table key none else table) rest

def tensorSet (tensors : List (RawTensorInfo × Nat)) : List Nat :=
  (tensors.filter (·.1.impl ≠ NoTensorImpl)).map (·.2)

def sameGroup (implMap : TensorImplAddress → Option Nat) :
    List (RawTensorInfo × Nat) → List (Nat × Nat)
  | [] => []
  | (t, allocationId) :: rest =>
    if t.impl = NoTensorImpl then sameGroup implMap rest
    else
      let first := inserted implMap t.impl allocationId
      (if first < allocationId then (first, allocationId) else (allocationId, first)) ::
        sameGroup (insert implMap t.impl allocationId) rest

def pairLe (one other : Nat × Nat) : Prop :=
  one.1 < other.1 ∨ one.1 = other.1 ∧ one.2 ≤ other.2

instance : DecidableRel pairLe := fun one other => by
  unfold pairLe
  infer_instance

def uniquePairs (tensors : List (RawTensorInfo × Nat)) : List (Nat × Nat) :=
  (sameGroup (fun _ => none) tensors).dedup.insertionSort pairLe

def coalesce (currentId : Nat) (idMap : Nat → Option TensorID) :
    List (Nat × Nat) → Nat → Option TensorID
  | [] => idMap
  | (low, high) :: rest =>
    coalesce (if (idMap low).isSome then currentId else currentId + 1)
      (insert (insert idMap low currentId) high (inserted idMap low currentId)) rest

/-- The two ids of each record; `id_map.at` throws for an allocation it does not have. -/
def calculateUniqueTensorIDs (results : List ExtraFields) :
    Except String (List (Nat × Option TensorID)) :=
  let records := flatten [] [] results
  let tensors := records.zip (assignAllocations 1 (fun _ => none) records)
  let kept := tensors.filter (·.2 ∈ tensorSet tensors)
  let idMap := coalesce 0 (fun _ => none) (uniquePairs kept)
  tensors.mapM fun (_, allocationId) =>
    if allocationId ∈ tensorSet tensors then
      match idMap allocationId with
      | some id => .ok (allocationId, some id)
      | none => .error "out_of_range"
    else .ok (allocationId, none)

end TorchSupa.Profiler
