import TorchSupa.Aten.Tensors
import TorchSupa.Logic.Caching

/-!
Attention by plans of the suDNN frontend: the layouts of its operands, the graphs that are built
for them, and the caches of graphs that a thread has. `ρ` are the doubles, the floats among them.
-/

namespace TorchSupa.Aten.SudnnMha

structure Layout where
  sizes : List Nat
  strides : List Nat
deriving DecidableEq, Repr

def layout (tensor : Tensor) : Layout := ⟨tensor.sizes, tensor.strides⟩

structure Library (ρ : Type) where
  toFloat : ρ → ρ
  isZero : ρ → Bool
  emptyLike : Layout → List Nat
  seedsInLong : Int → Bool

section Layouts

def fixSizeOneDimStrideSDPA (sizes strides : List Nat) : List Nat :=
  (List.range sizes.length).foldl (fun strides d =>
    if sizes.getD d 0 = 1 ∧ strides.getD d 0 = 0 then strides.set d (strides.drop (d + 1)).prod
    else strides) strides

def fillOrder (strides : List Nat) : List Nat :=
  (List.range strides.length).insertionSort fun idx1 idx2 => strides.getD idx1 0 ≤ strides.getD idx2 0

def orderedStrides (shape order : List Nat) : List Nat :=
  (order.foldl (fun (filled : List Nat × Nat) axis =>
    (filled.1.set axis filled.2, filled.2 * shape.getD axis 0)) (List.replicate shape.length 0, 1)).1

def allocWithMatchingLayout (emptyLike : Layout → List Nat) (q : Layout) (shape : List Nat) :
    Except String Layout :=
  if shape.length ≠ q.sizes.length then
    .error "cuDNN SDPA alloc_with_matching_layout got requested shape ndim != q ndim"
  else if q.sizes = shape then .ok ⟨shape, emptyLike q⟩
  else .ok ⟨shape, orderedStrides shape (fillOrder q.strides)⟩

def permute (axes values : List Nat) : List Nat := axes.map fun axis => values.getD axis 0

def contiguousStrides : List Nat → List Nat
  | [] => []
  | _ :: sizes => sizes.prod :: contiguousStrides sizes

def contiguous (operand : Layout) : Layout :=
  if operand.sizes.prod == 0 ∨
      Tensor.contiguousFrom 1 (operand.sizes.zip operand.strides).reverse then operand
  else ⟨operand.sizes, contiguousStrides (operand.sizes.map (max 1))⟩

def permuteToMatchingLayout (output gradOutput : Layout) : Except String Layout :=
  let outerToInner := (List.range output.sizes.length).insertionSort fun idx1 idx2 =>
    output.strides.getD idx2 0 ≤ output.strides.getD idx1 0
  let inverse := (List.range output.sizes.length).map fun d => outerToInner.idxOf d
  if gradOutput.sizes.length ≠ output.sizes.length then
    .error "permute: number of dimensions in the tensor input does not match the length of the desired ordering of dimensions"
  else
    let dense := contiguous
      ⟨permute outerToInner gradOutput.sizes, permute outerToInner gradOutput.strides⟩
    .ok ⟨permute inverse dense.sizes, permute inverse dense.strides⟩

end Layouts

section Graphs

inductive DataType
  | half
  | bfloat16
  | float
  | int32
  | int64
deriving DecidableEq, Repr

structure TensorAttributes where
  name : Option String := none
  dim : List Nat := []
  stride : List Nat := []
  dataType : Option DataType := none
  isPassByValue : Bool := false
  output : Bool := false
deriving DecidableEq, Repr

variable {ρ : Type}

structure Graph (ρ : Type) where
  handle : Int
  ioDataType : DataType
  intermediateDataType : DataType
  computeDataType : DataType
  name : String
  generateStats : Bool
  causalMask : Bool
  dropout : Option (ρ × TensorAttributes × TensorAttributes)
  attnScale : TensorAttributes
  q : TensorAttributes
  k : TensorAttributes
  v : TensorAttributes
  bias : Option TensorAttributes
  seed : TensorAttributes
  offset : TensorAttributes
  o : TensorAttributes
  stats : Option TensorAttributes
deriving DecidableEq, Repr

structure GraphBackward (ρ : Type) extends Graph ρ where
  dO : TensorAttributes
  dQ : TensorAttributes
  dK : TensorAttributes
  dV : TensorAttributes
deriving DecidableEq, Repr

structure Attention (ρ : Type) where
  device : Int
  b : Int
  h : Int
  sQ : Int
  sKv : Int
  dQk : Int
  dV : Int
  isCausal : Bool
  dropoutProbability : ρ
  q : Tensor
  k : Tensor
  v : Tensor
  attnBias : Option Layout
  dropoutseed : ScalarType
  dropoutoffset : ScalarType

structure Fprop (ρ : Type) extends Attention ρ where
  returnSoftmaxstats : Bool
  o : Option Layout

structure Bprop (ρ : Type) extends Attention ρ where
  o : Layout
  gradO : Layout
  softmaxstats : Layout
  gradQ : Layout
  gradK : Layout
  gradV : Layout

def ioType (q : Tensor) : DataType := if q.dtype = .kBFloat16 then .bfloat16 else .half

def attnScale : TensorAttributes where
  name := some "Attn_scale"
  dim := [1, 1, 1, 1]
  stride := [1, 1, 1, 1]
  dataType := some .float
  isPassByValue := true

def philoxInput (name : String) (dtype : ScalarType) : TensorAttributes where
  name := some name
  dim := [1, 1, 1, 1]
  stride := [1, 1, 1, 1]
  dataType := some (if dtype = .kInt then .int32 else .int64)

def input (name : String) (operand : Layout) : TensorAttributes where
  name := some name
  dim := operand.sizes
  stride := operand.strides

def fixed (operand : Layout) : Layout :=
  ⟨operand.sizes, fixSizeOneDimStrideSDPA operand.sizes operand.strides⟩

def result (operand : Layout) : TensorAttributes where
  dim := operand.sizes
  stride := operand.strides
  output := true

def Library.seedType (library : Library ρ) (device : Int) (dtype : ScalarType) : ScalarType :=
  if library.seedsInLong device then .kLong else dtype

def buildGraphAndTensors (library : Library ρ) (call : Fprop ρ) (o : Layout) : Graph ρ :=
  let seed := philoxInput "Seed" (library.seedType call.device call.dropoutseed)
  let offset := philoxInput "Offset" (library.seedType call.device call.dropoutoffset)
  { handle := call.device
    ioDataType := ioType call.q
    intermediateDataType := .float
    computeDataType := .float
    name := "SUDNN_SDPA"
    generateStats := call.returnSoftmaxstats
    causalMask := call.isCausal
    dropout := some (library.toFloat call.dropoutProbability, seed, offset)
    attnScale
    q := input "Q" (fixed (layout call.q))
    k := input "K" (fixed (layout call.k))
    v := input "V" (fixed (layout call.v))
    bias := call.attnBias.map (input "bias")
    seed
    offset
    o := result o
    stats := if call.returnSoftmaxstats then
        some { output := true, dataType := some .float }
      else none }

def buildGraphAndTensorsBackward (library : Library ρ) (call : Bprop ρ) (gradO : Layout) :
    GraphBackward ρ :=
  let seed := philoxInput "Seed" (library.seedType call.device call.dropoutseed)
  let offset := philoxInput "Offset" (library.seedType call.device call.dropoutoffset)
  { handle := call.device
    ioDataType := ioType call.q
    intermediateDataType := .float
    computeDataType := .float
    name := "SUDNN_SDPA_BACKWARD"
    generateStats := false
    causalMask := call.isCausal
    dropout := if library.isZero call.dropoutProbability then none
      else some (call.dropoutProbability, seed, offset)
    attnScale
    q := input "Q" (layout call.q)
    k := input "K" (layout call.k)
    v := input "V" (layout call.v)
    bias := call.attnBias.map (input "bias")
    seed
    offset
    o := input "O" call.o
    stats := some { input "Stats" call.softmaxstats with dataType := some .float }
    dO := input "DO" gradO
    dQ := result call.gradQ
    dK := result call.gradK
    dV := result call.gradV }

end Graphs

section Keys

variable {ρ : Type}

/-- A `std::array<int, MAX_MHA_DIM>` that was zero before the values were copied to it. -/
def ints (values : List Nat) : Vector (BitVec 32) 4 :=
  Vector.ofFn fun axis => BitVec.ofNat 32 (values.getD axis 0)

structure MHAParams (ρ : Type) where
  deviceId : Int
  dataType : DataType
  qDim : Vector (BitVec 32) 4
  kDim : Vector (BitVec 32) 4
  vDim : Vector (BitVec 32) 4
  qStride : Vector (BitVec 32) 4
  kStride : Vector (BitVec 32) 4
  vStride : Vector (BitVec 32) 4
  biasDim : Vector (BitVec 32) 4
  biasStride : Vector (BitVec 32) 4
  b : Int
  h : Int
  sQ : Int
  sKv : Int
  dQk : Int
  dV : Int
  dropoutProbability : ρ
  isCausal : Bool
  returnSoftmaxstats : Bool
  hasAttnBias : Bool
deriving DecidableEq

def unexpectedDims (name : String) : String :=
  name ++ " tensor has unexpected number of dims, please report a bug to PyTorch."

def setMHAParams (call : Attention ρ) (returnSoftmaxstats : Bool) : Except String (MHAParams ρ) :=
  if call.q.sizes.length ≠ 4 ∨ call.q.strides.length ≠ 4 then .error (unexpectedDims "Q")
  else if call.k.sizes.length ≠ 4 ∨ call.k.strides.length ≠ 4 then .error (unexpectedDims "K")
  else if call.v.sizes.length ≠ 4 ∨ call.v.strides.length ≠ 4 then .error (unexpectedDims "V")
  else .ok {
    deviceId := call.device
    dataType := ioType call.q
    qDim := ints call.q.sizes
    kDim := ints call.k.sizes
    vDim := ints call.v.sizes
    qStride := ints call.q.strides
    kStride := ints call.k.strides
    vStride := ints call.v.strides
    biasDim := ints ((call.attnBias.map Layout.sizes).getD [])
    biasStride := ints ((call.attnBias.map Layout.strides).getD [])
    b := call.b
    h := call.h
    sQ := call.sQ
    sKv := call.sKv
    dQk := call.dQk
    dV := call.dV
    dropoutProbability := call.dropoutProbability
    isCausal := call.isCausal
    returnSoftmaxstats
    hasAttnBias := call.attnBias.isSome }

end Keys

section Calls

variable {ρ γ : Type} [DecidableEq ρ]

structure Frontend where
  built : Except String Unit
  executed : Bool

def execute (cache : MHAParams ρ → Option γ) (key : MHAParams ρ) (graph : γ) (frontend : Frontend) :
    Except String (Option γ) × (MHAParams ρ → Option γ) :=
  if frontend.executed then (.ok (some graph), Caching.update cache key graph)
  else (.error "Expected mha_graph->execute(handle, variant_pack, workspace_ptr.get()).is_good() to be true, but got false.", cache)

def findOrBuild (cache : MHAParams ρ → Option γ) (key : MHAParams ρ) (build : γ)
    (frontend : Frontend) : Except String (Option γ) × (MHAParams ρ → Option γ) :=
  match Caching.find cache key with
  | some graph => execute cache key graph frontend
  | none =>
    match frontend.built with
    | .error message => (.error ("suDNN Frontend error: " ++ message), cache)
    | .ok () => execute cache key build frontend

def Fprop.output (library : Library ρ) (call : Fprop ρ) : Except String Layout :=
  match call.o with
  | some o => .ok o
  | none => allocWithMatchingLayout library.emptyLike (layout call.q)
      [call.b.toNat, call.h.toNat, call.sQ.toNat, call.dV.toNat]

def Fprop.prepared (library : Library ρ) (call : Fprop ρ) :
    Except String (Option (MHAParams ρ × Graph ρ)) :=
  match call.output library with
  | .error message => .error message
  | .ok o =>
    if call.q.numel = 0 ∨ call.k.numel = 0 ∨ call.v.numel = 0 then .ok none
    else (setMHAParams call.toAttention call.returnSoftmaxstats).map fun key =>
      some (key, buildGraphAndTensors library call o)

def Bprop.gradOutput (call : Bprop ρ) : Except String Layout :=
  if call.gradO.strides.getLast? = some 1 then .ok call.gradO
  else permuteToMatchingLayout call.o call.gradO

def Bprop.prepared (library : Library ρ) (call : Bprop ρ) :
    Except String (Option (MHAParams ρ × GraphBackward ρ)) :=
  if call.q.numel = 0 ∨ call.k.numel = 0 ∨ call.v.numel = 0 ∨ call.o.sizes.prod = 0 ∨
      call.gradO.sizes.prod = 0 ∨ call.softmaxstats.sizes.prod = 0 then .ok none
  else
    match call.gradOutput with
    | .error message => .error message
    | .ok gradO => (setMHAParams call.toAttention true).map fun key =>
      some (key, buildGraphAndTensorsBackward library call gradO)

def runPrepared (cache : MHAParams ρ → Option γ)
    (prepared : Except String (Option (MHAParams ρ × γ))) (frontend : Frontend) :
    Except String (Option γ) × (MHAParams ρ → Option γ) :=
  match prepared with
  | .error message => (.error message, cache)
  | .ok none => (.ok none, cache)
  | .ok (some (key, build)) => findOrBuild cache key build frontend

def runSudnnSDPFprop (library : Library ρ) (mhagraphcache : MHAParams ρ → Option (Graph ρ))
    (call : Fprop ρ) (frontend : Frontend) :
    Except String (Option (Graph ρ)) × (MHAParams ρ → Option (Graph ρ)) :=
  runPrepared mhagraphcache (call.prepared library) frontend

def runSudnnSDPBprop (library : Library ρ)
    (mhagraphbackwardcache : MHAParams ρ → Option (GraphBackward ρ)) (call : Bprop ρ)
    (frontend : Frontend) :
    Except String (Option (GraphBackward ρ)) × (MHAParams ρ → Option (GraphBackward ρ)) :=
  runPrepared mhagraphbackwardcache (call.prepared library) frontend

end Calls

section EntryPoints

variable {ρ : Type}

/-- The strides of an expanded tensor, the last axis first; `next` is the stride of an axis that
the tensor does not have. -/
def expandFrom : List Nat → List (Nat × Nat) → Nat → Option (List Nat)
  | [], [], _ => some []
  | [], _ :: _, _ => none
  | target :: targets, operand, next =>
    let (size, stride) := operand.head?.getD (1, next)
    if size = target then (expandFrom targets operand.tail (target * stride)).map (stride :: ·)
    else if size = 1 then (expandFrom targets operand.tail 0).map (0 :: ·)
    else none

def expand (operand : Layout) (target : List Nat) : Except String Layout :=
  match expandFrom target.reverse (operand.sizes.zip operand.strides).reverse 0 with
  | some strides => .ok ⟨target, strides.reverse⟩
  | none => .error "The expanded size of the tensor must match the existing size"

def expandBias (attnBias : Option Layout) (batchSize maxSeqlenBatchQ maxSeqlenBatchKv : Nat) :
    Except String (Option Layout) :=
  match attnBias with
  | none => .ok none
  | some bias =>
    let biasDim := bias.sizes.length
    if biasDim = 2 ∨ biasDim = 3 then
      (expand bias [batchSize, 1, maxSeqlenBatchQ, maxSeqlenBatchKv]).map some
    else if biasDim = 4 then
      (expand bias [batchSize, bias.sizes.getD 1 0, maxSeqlenBatchQ, maxSeqlenBatchKv]).map some
    else .error ("SuDNN SDPA expects either a 2D, 3D, or 4D attn_bias but got " ++
      toString biasDim ++ "D")

def attention (device : Int) (query key value : Tensor) (attnBias : Option Layout)
    (maxSeqlenBatchQ maxSeqlenBatchKv : Int) (dropoutP : ρ) (isCausal : Bool)
    (seed offset : ScalarType) : Except String (Attention ρ) :=
  if query.dim < 4 ∨ key.dim < 3 ∨ value.dim < 4 then .error "Dimension out of range"
  else (expandBias attnBias (query.size 0) (query.size 2) (key.size 2)).map fun bias => {
    device
    b := query.size 0
    h := query.size 1
    sQ := maxSeqlenBatchQ
    sKv := maxSeqlenBatchKv
    dQk := query.size 3
    dV := value.size 3
    isCausal
    dropoutProbability := dropoutP
    q := query
    k := key
    v := value
    attnBias := bias
    dropoutseed := seed
    dropoutoffset := offset }

def scaledDotProductCudnnAttention (device : Int) (query key value : Tensor)
    (attnBias : Option Layout) (computeLogsumexp : Bool) (dropoutP : ρ) (isCausal : Bool) :
    Except String (Fprop ρ) :=
  (attention device query key value attnBias (query.size 2) (key.size 2) dropoutP isCausal
    .kLong .kLong).map fun both =>
      { toAttention := both, returnSoftmaxstats := computeLogsumexp, o := none }

def unsqueezeLast (operand : Layout) : Layout := ⟨operand.sizes ++ [1], operand.strides ++ [1]⟩

def emptyLike (library : Library ρ) (tensor : Tensor) : Layout :=
  ⟨tensor.sizes, library.emptyLike (layout tensor)⟩

def scaledDotProductCudnnAttentionBackward (library : Library ρ) (device : Int)
    (gradOut : Layout) (query key value : Tensor) (out logsumexp : Layout)
    (philoxSeed philoxOffset : ScalarType) (attnBias : Option Layout) (maxQ maxK : Int)
    (dropoutP : ρ) (isCausal : Bool) : Except String (Bprop ρ) :=
  (attention device query key value attnBias maxQ maxK (library.toFloat dropoutP) isCausal
    philoxSeed philoxOffset).map fun both =>
      { toAttention := both
        o := out
        gradO := gradOut
        softmaxstats := unsqueezeLast logsumexp
        gradQ := emptyLike library query
        gradK := emptyLike library key
        gradV := emptyLike library value }

end EntryPoints

end TorchSupa.Aten.SudnnMha
