import TorchSupa.Aten.DirectCopy

/-!
The launch configuration of the reduction kernels, and how it is chosen from an iterator and from
the properties of the device.
-/

namespace TorchSupa.Aten.Reduce

open DirectCopy Nat

def divUp (a b : Nat) : Nat := (a + b - 1) / b

def lastPow2 (n : Nat) : Nat :=
  let n := n ||| n >>> 1
  let n := n ||| n >>> 2
  let n := n ||| n >>> 4
  let n := n ||| n >>> 8
  let n := n ||| n >>> 16
  max 1 (n - n >>> 1)

/-- What `setReduceConfig` asks a `TensorIterator` for: the axes, the fastest first, with their
strides in bytes in the first output and in the input, and the address of the input. -/
structure TensorIterator where
  shape : List Nat
  outputStrides : List Nat
  inputStrides : List Nat
  dataPtr : Nat
deriving DecidableEq, Repr

namespace TensorIterator

variable (iter : TensorIterator)

def ndim : Nat := iter.shape.length

def numel : Nat := iter.shape.prod

def numReduceDims : Nat := iter.outputStrides.count 0

def numOutputElements : Nat :=
  (List.zipWith (fun size stride => if stride ≠ 0 ∨ size = 0 then size else 1) iter.shape
    iter.outputStrides).prod

def inputStride (axis : Nat) : Nat := iter.inputStrides.getD axis 0

end TensorIterator

structure DeviceProperties where
  warpSize : Nat
  multiProcessorCount : Nat
  maxThreadsPerMultiProcessor : Nat
deriving DecidableEq, Repr

structure ReduceConfig where
  elementSizeBytes : Nat
  numInputs : Nat
  numOutputs : Nat
  stepInput : Nat := 1
  stepOutput : Nat := 1
  ctasPerOutput : Nat := 1
  inputMultX : Nat := 0
  inputMultY : Nat := 0
  inputMultCta : Nat := 0
  outputMultX : Nat := 0
  outputMultY : Nat := 0
  blockWidth : Nat := 0
  blockHeight : Nat := 0
  numThreads : Nat := 0
  vectorizeInput : Bool := false
  outputVecSize : Nat := 1
deriving DecidableEq, Repr

structure Thread where
  threadX : Nat
  threadY : Nat
  blockX : Nat
  blockY : Nat
deriving DecidableEq, Repr

namespace ReduceConfig

variable (config : ReduceConfig) (thread : Thread)

def maxNumThreads : Nat := 256

def setBlockDimension (warpSize dim0 dim1 : Nat) : ReduceConfig :=
  let maxNumThreads := maxNumThreads / config.outputVecSize
  let dim0Pow2 := if dim0 < maxNumThreads then lastPow2 dim0 else maxNumThreads
  let dim1Pow2 := if dim1 < maxNumThreads then lastPow2 dim1 else maxNumThreads
  let blockWidth := min dim0Pow2 warpSize
  let blockHeight := min dim1Pow2 (maxNumThreads / blockWidth)
  let blockWidth := min dim0Pow2 (maxNumThreads / blockHeight)
  { config with blockWidth, blockHeight, numThreads := blockWidth * blockHeight }

def gridX : Nat := divUp (config.numOutputs / config.outputVecSize) config.stepOutput

def shouldBlockXReduce : Bool := config.inputMultX ≠ 0

def shouldBlockYReduce : Bool := config.inputMultY ≠ 0

def shouldGlobalReduce : Bool := config.inputMultCta ≠ 0

def shouldStore (outputIdx : Nat) : Bool :=
  outputIdx < config.numOutputs && (!config.shouldBlockXReduce || thread.threadX = 0) &&
    (!config.shouldBlockYReduce || thread.threadY = 0)

def shouldReduceTail : Bool :=
  (!config.shouldBlockYReduce || thread.threadY = 0) &&
    (!config.shouldGlobalReduce || thread.blockY = 0)

def inputIdx : Nat :=
  thread.threadX * config.inputMultX + thread.threadY * config.inputMultY +
    thread.blockY * config.inputMultCta

def outputIdx : Nat :=
  (thread.threadX * config.outputMultX + thread.threadY * config.outputMultY +
    thread.blockX * config.stepOutput) * config.outputVecSize

def sharedMemoryOffset (offset : Nat) : Nat :=
  thread.threadX + (thread.threadY + offset) * config.blockWidth

def stagingMemoryOffset (cta2 : Nat) : Nat :=
  let offset := cta2 + thread.blockX * config.ctasPerOutput
  if config.shouldBlockXReduce then offset else thread.threadX + offset * config.blockWidth

def sharedMemorySize (warpSize : Nat) : Nat :=
  if !config.shouldBlockYReduce && (!config.shouldBlockXReduce || config.blockWidth ≤ warpSize) then 0
  else config.elementSizeBytes * config.numThreads * config.outputVecSize

def globalMemorySize : Nat :=
  if config.shouldGlobalReduce then
    let size := config.elementSizeBytes * config.numOutputs * config.ctasPerOutput
    if config.shouldBlockXReduce then size else size * (config.blockWidth * config.outputVecSize)
  else 0

def semaphoreSize : Nat := if config.shouldGlobalReduce then 4 * config.gridX else 0

def valuesPerThread : Nat := divUp config.numInputs config.stepInput

def Runs : Prop :=
  thread.threadX < config.blockWidth ∧ thread.threadY < config.blockHeight ∧
    thread.blockX < config.gridX ∧ thread.blockY < config.ctasPerOutput

end ReduceConfig

section SetReduceConfig

variable (device : DeviceProperties) (iter : TensorIterator)

def updateVecSize (vecSize n : Nat) : Nat :=
  if n % vecSize = 0 then vecSize else if n % (vecSize / 2) = 0 then vecSize / 2 else vecSize / 2 / 2

def getOutputVecSize (scalarSize : Nat) : Nat :=
  let outputIndex := iter.numReduceDims
  let vecSize := updateVecSize 4 (iter.dataPtr / scalarSize)
  let vecSize := updateVecSize vecSize (iter.shape.getD outputIndex 0)
  (iter.inputStrides.eraseIdx outputIndex).foldl
    (fun vecSize stride => updateVecSize vecSize (stride / scalarSize)) vecSize

structure Dims where
  dim0 : Nat
  dim1 : Nat
  fastestMovingStride : Nat
  reductionOnFastestStridingDimension : Bool

def chooseDims (scalarSize numOutputs inputsPerOutput : Nat) : Dims :=
  if 0 < iter.ndim then
    if iter.numReduceDims = iter.ndim ∨ iter.inputStride 0 < iter.inputStride iter.numReduceDims then
      ⟨inputsPerOutput, numOutputs, iter.inputStride 0, true⟩
    else ⟨numOutputs, inputsPerOutput, iter.inputStride iter.numReduceDims, false⟩
  else ⟨1, 1, scalarSize, true⟩

def vectorize (scalarSize inputVecSize : Nat) (dims : Dims) (config : ReduceConfig) :
    Nat × ReduceConfig :=
  if dims.fastestMovingStride = scalarSize then
    if dims.reductionOnFastestStridingDimension && 128 ≤ dims.dim0 && iter.numReduceDims = 1 then
      (dims.dim0 / inputVecSize, { config with vectorizeInput := true })
    else if !dims.reductionOnFastestStridingDimension then
      (dims.dim0 / getOutputVecSize iter scalarSize,
        { config with outputVecSize := getOutputVecSize iter scalarSize })
    else (dims.dim0, config)
  else (dims.dim0, config)

def splitLanes (onInput : Bool) (config : ReduceConfig) : ReduceConfig :=
  if onInput then
    { config with
      inputMultX := config.stepInput
      stepInput := config.stepInput * config.blockWidth }
  else
    { config with
      outputMultX := config.stepOutput
      stepOutput := config.stepOutput * config.blockWidth }

def splitWarps (config : ReduceConfig) : ReduceConfig :=
  if min (config.blockHeight * 16) 256 ≤ config.valuesPerThread then
    { config with
      inputMultY := config.stepInput
      stepInput := config.stepInput * config.blockHeight }
  else
    { config with
      outputMultY := config.stepOutput
      stepOutput := config.stepOutput * config.blockHeight }

def splitCtas (config : ReduceConfig) : ReduceConfig :=
  let blocksPerSm := device.maxThreadsPerMultiProcessor / config.numThreads
  let targetGridSize := toInt (device.multiProcessorCount * blocksPerSm)
  let grid := config.gridX
  if config.inputMultY ≠ 0 ∧ 256 ≤ config.valuesPerThread ∧ grid ≤ targetGridSize then
    let ctasPerOutput1 := divUp targetGridSize.toNat grid
    let ctasPerOutput2 := divUp config.valuesPerThread 16
    let ctasPerOutput3 := divUp config.valuesPerThread 256
    let ctasPerOutput := max (min ctasPerOutput1 ctasPerOutput2) ctasPerOutput3
    let config := { config with ctasPerOutput }
    if 1 < ctasPerOutput then
      { config with
        inputMultCta := config.stepInput
        stepInput := config.stepInput * ctasPerOutput }
    else config
  else config

def setReduceConfig (argSize scalarSize inputVecSize : Nat) : ReduceConfig :=
  let numOutputs := iter.numOutputElements
  let inputsPerOutput := iter.numel / numOutputs
  let config : ReduceConfig :=
    { elementSizeBytes := argSize, numOutputs := numOutputs, numInputs := inputsPerOutput }
  let dims := chooseDims iter scalarSize numOutputs inputsPerOutput
  let vectorized := vectorize iter scalarSize inputVecSize dims config
  let config := vectorized.2.setBlockDimension device.warpSize vectorized.1 dims.dim1
  let config := splitLanes (iter.ndim = 0 || dims.reductionOnFastestStridingDimension) config
  splitCtas device (splitWarps config)

end SetReduceConfig

section Blocks

theorem lastPow2_bounds : ∀ n < 256, lastPow2 n ≤ max 1 n ∧ n < 2 * lastPow2 n := by
  decide +kernel

theorem divUp_le {a b : Nat} (some : 0 < b) : divUp a b ≤ a := by
  unfold divUp
  rcases Nat.eq_zero_or_pos a with rfl | positive
  · rw [Nat.zero_add, Nat.div_eq_of_lt (by omega)]
  · refine Nat.div_le_of_le_mul ?_
    have product : a + b - 1 ≤ b * a := by
      obtain ⟨less, rfl⟩ := Nat.exists_eq_add_of_lt some
      rw [Nat.zero_add, Nat.add_mul, Nat.one_mul]
      have more := Nat.le_mul_of_pos_right less positive
      omega
    exact product

theorem lt_divUp {a b c : Nat} (some : 0 < b) : c < divUp a b ↔ c * b < a := by
  unfold divUp
  rw [← succ_le_iff, le_div_iff_mul_le some, succ_mul]
  omega

theorem place_lt {width height x y : Nat} (col : x < width) (row : y < height) :
    x + y * width < width * height := by
  calc x + y * width < width + y * width := Nat.add_lt_add_right col _
    _ = width * (y + 1) := by rw [Nat.mul_succ, Nat.mul_comm, Nat.add_comm]
    _ ≤ width * height := mul_le_mul_left _ row

variable {config : ReduceConfig} {warpSize dim0 dim1 : Nat}

open List ReduceConfig

theorem setBlockDimension_spec (vec : config.outputVecSize ∈ [1, 2, 4]) (warps : 0 < warpSize) :
    let block := config.setBlockDimension warpSize dim0 dim1
    0 < block.blockWidth ∧ 0 < block.blockHeight ∧
      block.numThreads = block.blockWidth * block.blockHeight ∧ block.numThreads ≤ 256 ∧
      block.blockWidth ≤ max 1 dim0 ∧
      (block.blockWidth < warpSize →
        dim0 < 2 * block.blockWidth ∨ 256 / config.outputVecSize ≤ block.blockWidth) := by
  unfold setBlockDimension maxNumThreads
  dsimp only
  have limit : 64 ≤ 256 / config.outputVecSize ∧ 256 / config.outputVecSize ≤ 256 := by
    simp only [mem_cons, not_mem_nil, or_false] at vec
    rcases vec with same | same | same <;> rw [same] <;> decide
  generalize 256 / config.outputVecSize = maxNumThreads at limit ⊢
  have powers : ∀ dim, ∃ power, (if dim < maxNumThreads then lastPow2 dim else maxNumThreads) = power ∧
      0 < power ∧ power ≤ maxNumThreads ∧ power ≤ max 1 dim ∧
      (dim < 2 * power ∨ maxNumThreads ≤ power) := by
    intro dim
    refine ⟨_, rfl, ?_⟩
    split
    · next small =>
        have bounds := lastPow2_bounds dim (by omega)
        omega
    · omega
  obtain ⟨power0, same0, some0, most0, within0, half0⟩ := powers dim0
  obtain ⟨power1, same1, some1, most1, _, _⟩ := powers dim1
  rw [same0, same1]
  have first : 0 < min power0 warpSize := by omega
  have rows : 0 < min power1 (maxNumThreads / min power0 warpSize) := by
    have fits : 0 < maxNumThreads / min power0 warpSize := div_pos (by omega) first
    omega
  have fits : min power0 warpSize ≤
      maxNumThreads / min power1 (maxNumThreads / min power0 warpSize) := by
    rw [le_div_iff_mul_le rows, mul_comm, ← le_div_iff_mul_le first]
    exact min_le_right _ _
  have whole := div_mul_le_self maxNumThreads (min power1 (maxNumThreads / min power0 warpSize))
  generalize min power1 (maxNumThreads / min power0 warpSize) = blockHeight at rows fits whole ⊢
  generalize maxNumThreads / blockHeight = most at fits whole ⊢
  have threads : min power0 most * blockHeight ≤ most * blockHeight :=
    mul_le_mul_right _ (min_le_right _ _)
  exact ⟨by omega, rows, rfl, by omega, by omega, by omega⟩

theorem updateVecSize_mem {vecSize n : Nat} (vec : vecSize ∈ [1, 2, 4]) :
    updateVecSize vecSize n ∈ [1, 2, 4] := by
  unfold updateVecSize
  simp only [mem_cons, not_mem_nil, or_false] at vec ⊢
  rcases vec with rfl | rfl | rfl <;> split <;> (try split) <;> omega

theorem getOutputVecSize_mem (iter : TensorIterator) (scalarSize : Nat) :
    getOutputVecSize iter scalarSize ∈ [1, 2, 4] := by
  unfold getOutputVecSize
  have first : updateVecSize (updateVecSize 4 (iter.dataPtr / scalarSize))
      (iter.shape.getD iter.numReduceDims 0) ∈ [1, 2, 4] :=
    updateVecSize_mem (updateVecSize_mem (by decide))
  dsimp only
  revert first
  generalize updateVecSize (updateVecSize 4 (iter.dataPtr / scalarSize))
    (iter.shape.getD iter.numReduceDims 0) = vecSize
  induction iter.inputStrides.eraseIdx iter.numReduceDims generalizing vecSize with
  | nil => exact id
  | cons stride rest ih => exact fun vec => ih _ (updateVecSize_mem vec)

end Blocks

section Chosen

namespace ReduceConfig

variable (config : ReduceConfig)

def inputLanes (onInput split : Bool) : Nat :=
  (if onInput then config.blockWidth else 1) * (if split then config.blockHeight else 1)

def outputLanes (onInput split : Bool) : Nat :=
  (if onInput then 1 else config.blockWidth) * (if split then 1 else config.blockHeight)

structure Split (onInput split : Bool) : Prop where
  width : 0 < config.blockWidth
  height : 0 < config.blockHeight
  numThreads : config.numThreads = config.blockWidth * config.blockHeight
  threads : config.numThreads ≤ 256
  vec : config.outputVecSize ∈ [1, 2, 4]
  single : onInput = true → config.outputVecSize = 1
  narrow : onInput = false → config.blockWidth ≤ max 1 (config.numOutputs / config.outputVecSize)
  inputMultX : config.inputMultX = if onInput then 1 else 0
  outputMultX : config.outputMultX = if onInput then 0 else 1
  inputMultY : config.inputMultY =
    if split then (if onInput then config.blockWidth else 1) else 0
  outputMultY : config.outputMultY =
    if split then 0 else (if onInput then 1 else config.blockWidth)
  stepOutput : config.stepOutput = config.outputLanes onInput split

def Unshared (onInput split : Bool) : Prop :=
  config.inputMultCta = 0 ∧ config.ctasPerOutput = 1 ∧
    config.stepInput = config.inputLanes onInput split

structure Chosen (onInput split : Bool) : Prop extends config.Split onInput split where
  ctas : config.Unshared onInput split ∨
    split = true ∧ config.inputMultCta = config.inputLanes onInput split ∧
      1 < config.ctasPerOutput ∧
      config.stepInput = config.inputLanes onInput split * config.ctasPerOutput ∧
      256 ≤ divUp config.numInputs (config.inputLanes onInput split) ∧
      config.ctasPerOutput ≤ divUp (divUp config.numInputs (config.inputLanes onInput split)) 16

end ReduceConfig

variable {config : ReduceConfig} {device : DeviceProperties} {onInput : Bool}

variable {split : Bool}

theorem ReduceConfig.Split.share (chosen : config.Split onInput split)
    (whole : config.Unshared onInput split)
    (isSplit : split = true) (values : 256 ≤ config.valuesPerThread) {ctasPerOutput : Nat}
    (some : 0 < ctasPerOutput) (few : ctasPerOutput ≤ divUp config.valuesPerThread 16) :
    (if 1 < ctasPerOutput then
      { config with
        ctasPerOutput
        inputMultCta := config.stepInput
        stepInput := config.stepInput * ctasPerOutput }
    else { config with ctasPerOutput }).Chosen onInput split := by
  unfold valuesPerThread at values few
  rw [whole.2.2] at values few
  split
  · next several =>
      rw [whole.2.2]
      exact { chosen with ctas := .inr ⟨isSplit, rfl, several, rfl, values, few⟩ }
  · next one =>
      have only : ctasPerOutput = 1 := by omega
      exact { chosen with ctas := .inl ⟨whole.1, only, whole.2.2⟩ }

theorem splitCtas_chosen (chosen : config.Split onInput split)
    (whole : config.Unshared onInput split) :
    (splitCtas device config).Chosen onInput split := by
  unfold splitCtas
  dsimp only
  split
  · next many =>
      obtain ⟨rows, values, _⟩ := many
      have isSplit : split = true := by
        by_contra other
        have none := chosen.inputMultY
        rw [if_neg other] at none
        exact rows none
      have third : divUp config.valuesPerThread 256 ≤ divUp config.valuesPerThread 16 := by
        unfold divUp
        omega
      have some : 0 < divUp config.valuesPerThread 256 := (lt_divUp (by decide)).mpr (by omega)
      exact chosen.share whole isSplit values (Nat.lt_of_lt_of_le some (Nat.le_max_right _ _))
        (Nat.max_le.mpr ⟨Nat.min_le_right _ _, third⟩)
  · exact { chosen with ctas := .inl whole }

structure ReduceConfig.Unsplit (config : ReduceConfig) : Prop where
  stepInput : config.stepInput = 1
  stepOutput : config.stepOutput = 1
  ctasPerOutput : config.ctasPerOutput = 1
  inputMultX : config.inputMultX = 0
  inputMultY : config.inputMultY = 0
  inputMultCta : config.inputMultCta = 0
  outputMultX : config.outputMultX = 0
  outputMultY : config.outputMultY = 0

theorem splitWarps_chosen (unsplit : config.Unsplit) (width : 0 < config.blockWidth)
    (height : 0 < config.blockHeight)
    (numThreads : config.numThreads = config.blockWidth * config.blockHeight)
    (threads : config.numThreads ≤ 256) (vec : config.outputVecSize ∈ [1, 2, 4])
    (single : onInput = true → config.outputVecSize = 1)
    (narrow : onInput = false →
      config.blockWidth ≤ max 1 (config.numOutputs / config.outputVecSize)) :
    ∃ split, (splitCtas device (splitWarps (splitLanes onInput config))).Chosen onInput split := by
  have stepInput := unsplit.stepInput
  have stepOutput := unsplit.stepOutput
  unfold splitWarps
  cases onInput with
  | true =>
    split
    · refine ⟨true, splitCtas_chosen ⟨width, height, numThreads, threads, vec, single, narrow,
        stepInput, unsplit.outputMultX, ?_, unsplit.outputMultY, ?_⟩ ?_⟩
      · simp [splitLanes, stepInput]
      · simp [splitLanes, stepOutput, ReduceConfig.outputLanes]
      · exact ⟨unsplit.inputMultCta, unsplit.ctasPerOutput, by
          simp [splitLanes, stepInput, ReduceConfig.inputLanes]⟩
    · refine ⟨false, splitCtas_chosen ⟨width, height, numThreads, threads, vec, single, narrow,
        stepInput, unsplit.outputMultX, unsplit.inputMultY, stepOutput, ?_⟩ ?_⟩
      · simp [splitLanes, stepOutput, ReduceConfig.outputLanes]
      · exact ⟨unsplit.inputMultCta, unsplit.ctasPerOutput, by
          simp [splitLanes, stepInput, ReduceConfig.inputLanes]⟩
  | false =>
    split
    · refine ⟨true, splitCtas_chosen ⟨width, height, numThreads, threads, vec, single, narrow,
        unsplit.inputMultX, stepOutput, stepInput, unsplit.outputMultY, ?_⟩ ?_⟩
      · simp [splitLanes, stepOutput, ReduceConfig.outputLanes]
      · exact ⟨unsplit.inputMultCta, unsplit.ctasPerOutput, by
          simp [splitLanes, stepInput, ReduceConfig.inputLanes]⟩
    · refine ⟨false, splitCtas_chosen ⟨width, height, numThreads, threads, vec, single, narrow,
        unsplit.inputMultX, stepOutput, unsplit.inputMultY, ?_, ?_⟩ ?_⟩
      · simp [splitLanes, stepOutput]
      · simp [splitLanes, stepOutput, ReduceConfig.outputLanes]
      · exact ⟨unsplit.inputMultCta, unsplit.ctasPerOutput, by
          simp [splitLanes, stepInput, ReduceConfig.inputLanes]⟩

theorem splits_keep (config : ReduceConfig) :
    let next := splitCtas device (splitWarps (splitLanes onInput config))
    next.elementSizeBytes = config.elementSizeBytes ∧ next.numInputs = config.numInputs ∧
      next.numOutputs = config.numOutputs ∧ next.blockWidth = config.blockWidth ∧
      next.vectorizeInput = config.vectorizeInput := by
  unfold splitCtas splitWarps splitLanes
  dsimp only
  split <;> split <;> split <;> (try split) <;> exact ⟨rfl, rfl, rfl, rfl, rfl⟩

structure ReduceConfig.Vectorized (config : ReduceConfig) (warpSize inputVecSize : Nat) : Prop where
  long : 128 ≤ config.numInputs
  narrow : config.blockWidth ≤ max 1 (config.numInputs / inputVecSize)
  wide : config.blockWidth < warpSize →
    config.numInputs / inputVecSize < 2 * config.blockWidth ∨ 256 ≤ config.blockWidth

variable {iter : TensorIterator}

theorem chooseDims_spec (scalarSize numOutputs inputsPerOutput : Nat) :
    let dims := chooseDims iter scalarSize numOutputs inputsPerOutput
    (dims.reductionOnFastestStridingDimension = false → dims.dim0 = numOutputs) ∧
      (dims.reductionOnFastestStridingDimension = true →
        dims.dim0 = inputsPerOutput ∨ dims.dim0 = 1) ∧
      (iter.ndim = 0 → dims.reductionOnFastestStridingDimension = true) := by
  unfold chooseDims
  split
  · next axes =>
      split
      · exact ⟨fun other => absurd other (by simp), fun _ => .inl rfl, fun none => by omega⟩
      · exact ⟨fun _ => rfl, fun other => absurd other (by simp), fun none => by omega⟩
  · exact ⟨fun other => absurd other (by simp), fun _ => .inr rfl, fun _ => rfl⟩

theorem vectorize_spec (scalarSize inputVecSize : Nat) (dims : Dims) (config : ReduceConfig)
    (fresh : config.outputVecSize = 1 ∧ config.vectorizeInput = false) :
    let vectorized := vectorize iter scalarSize inputVecSize dims config
    vectorized.2 = { config with
      outputVecSize := vectorized.2.outputVecSize
      vectorizeInput := vectorized.2.vectorizeInput } ∧
    vectorized.2.outputVecSize ∈ [1, 2, 4] ∧
      (dims.reductionOnFastestStridingDimension = true → vectorized.2.outputVecSize = 1) ∧
      (dims.reductionOnFastestStridingDimension = false →
        vectorized.1 = dims.dim0 / vectorized.2.outputVecSize) ∧
      (vectorized.2.vectorizeInput = true →
        dims.reductionOnFastestStridingDimension = true ∧ 128 ≤ dims.dim0 ∧
          vectorized.1 = dims.dim0 / inputVecSize) := by
  have one : config.outputVecSize ∈ [1, 2, 4] := by
    rw [fresh.1]
    decide
  have plain : dims.dim0 = dims.dim0 / config.outputVecSize := by
    rw [fresh.1, Nat.div_one]
  have none : config.vectorizeInput = true → False := fun given => by
    rw [fresh.2] at given
    cases given
  unfold vectorize
  split
  · split
    · next alongInput =>
        simp only [Bool.and_eq_true, decide_eq_true_eq] at alongInput
        refine ⟨rfl, one, fun _ => fresh.1, fun other => ?_, fun _ => ⟨alongInput.1.1, alongInput.1.2, rfl⟩⟩
        rw [alongInput.1.1] at other
        cases other
    · split
      · next alongOutput =>
          refine ⟨rfl, getOutputVecSize_mem iter scalarSize, fun other => ?_, fun _ => rfl,
            fun given => (none given).elim⟩
          rw [other] at alongOutput
          cases alongOutput
      · exact ⟨rfl, one, fun _ => fresh.1, fun _ => plain, fun given => (none given).elim⟩
  · exact ⟨rfl, one, fun _ => fresh.1, fun _ => plain, fun given => (none given).elim⟩

theorem setReduceConfig_chosen (device : DeviceProperties) (iter : TensorIterator)
    (argSize scalarSize inputVecSize : Nat) (warps : 0 < device.warpSize) :
    let config := setReduceConfig device iter argSize scalarSize inputVecSize
    config.elementSizeBytes = argSize ∧ config.numOutputs = iter.numOutputElements ∧
      config.numInputs = iter.numel / iter.numOutputElements ∧
      ∃ onInput split, config.Chosen onInput split ∧ (config.vectorizeInput = true →
          onInput = true ∧ config.Vectorized device.warpSize inputVecSize) := by
  unfold setReduceConfig
  dsimp only
  have dims_spec := @chooseDims_spec iter scalarSize iter.numOutputElements
    (iter.numel / iter.numOutputElements)
  dsimp only at dims_spec
  generalize chooseDims iter scalarSize iter.numOutputElements
    (iter.numel / iter.numOutputElements) = dims at dims_spec ⊢
  obtain ⟨outputs, inputs, none⟩ := dims_spec
  have spec := @vectorize_spec iter scalarSize inputVecSize dims
    { elementSizeBytes := argSize, numOutputs := iter.numOutputElements,
      numInputs := iter.numel / iter.numOutputElements } ⟨rfl, rfl⟩
  dsimp only at spec
  generalize vectorize iter scalarSize inputVecSize dims
    { elementSizeBytes := argSize, numOutputs := iter.numOutputElements,
      numInputs := iter.numel / iter.numOutputElements } = vectorized at spec ⊢
  obtain ⟨made, vec, single, alongOutput, alongInput⟩ := spec
  obtain ⟨dim0, config⟩ := vectorized
  dsimp only at made vec single alongOutput alongInput ⊢
  have onInput : (decide (iter.ndim = 0) || dims.reductionOnFastestStridingDimension) =
      dims.reductionOnFastestStridingDimension := by
    by_cases empty : iter.ndim = 0
    · simp [none empty]
    · simp [empty]
  rw [onInput]
  obtain ⟨width, height, numThreads, threads, narrow, wide⟩ := @setBlockDimension_spec config
    device.warpSize dim0 dims.dim1 vec warps
  have keep := @splits_keep device dims.reductionOnFastestStridingDimension
    (config.setBlockDimension device.warpSize dim0 dims.dim1)
  obtain ⟨elementSize, numInputs, numOutputs, blockWidth, vectorizeInput⟩ := keep
  have unsplit : (config.setBlockDimension device.warpSize dim0 dims.dim1).Unsplit := by
    rw [made]
    exact ⟨rfl, rfl, rfl, rfl, rfl, rfl, rfl, rfl⟩
  have inputsOf : config.numInputs = iter.numel / iter.numOutputElements := by rw [made]
  have outputsOf : config.numOutputs = iter.numOutputElements := by rw [made]
  have sizeOf : config.elementSizeBytes = argSize := by rw [made]
  obtain ⟨split, chosen⟩ := @splitWarps_chosen _ device
    dims.reductionOnFastestStridingDimension unsplit width height numThreads threads vec
    single fun other => by
      have cut := alongOutput other
      rw [outputs other] at cut
      change _ ≤ max 1 (config.numOutputs / config.outputVecSize)
      rw [outputsOf, ← cut]
      exact narrow
  refine ⟨elementSize.trans sizeOf, numOutputs.trans outputsOf, numInputs.trans inputsOf, _, split,
    chosen, fun given => ?_⟩
  rw [vectorizeInput] at given
  obtain ⟨fastest, long, cut⟩ := alongInput given
  have all : dims.dim0 = config.numInputs := by
    rw [inputsOf]
    exact (inputs fastest).resolve_right fun one => by omega
  refine ⟨fastest, ?_, ?_, ?_⟩
  · rw [numInputs]
    change 128 ≤ config.numInputs
    omega
  · rw [numInputs, blockWidth]
    change _ ≤ max 1 (config.numInputs / inputVecSize)
    rw [← all, ← cut]
    exact narrow
  · rw [numInputs, blockWidth]
    change _ → config.numInputs / inputVecSize < _ ∨ _
    rw [← all, ← cut]
    intro less
    have bound := wide less
    rw [single fastest] at bound
    exact bound

end Chosen

end TorchSupa.Aten.Reduce
