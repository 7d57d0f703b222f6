import TorchSupa.Aten.HybridOffsets
import TorchSupa.Logic.Visits
import Mathlib.Algebra.BigOperators.Group.List.Lemmas

/-!
The hybrid kernel for binary operators, taken when the output is contiguous and one input is laid
out as the output: that input is loaded in vectors and the other one element by element, and results
are stored in vectors. What a kernel does is the list of what its threads do.
-/

namespace TorchSupa.Aten.Elementwise

open List Nat

variable {α : Type}

inductive Event (α : Type)
  | store (address : Nat) (dtype : ScalarType) (value : Option α)
  | vector (address width : Nat)
deriving DecidableEq, Repr

def numThreads : Nat := 32 * 4 * 2

def vecSize : Nat := 4

def blockWorkSize (elemsPerThread : Nat) : Nat := elemsPerThread * numThreads

section Launch

def stridesMatch (outElemSize inElemSize : Nat) : Nat → List Nat → List Nat → List Nat → Bool
  | expectedStride, size :: shape, outStride :: outStrides, inStride :: inStrides =>
    let outElemStride := outStride / outElemSize
    outElemStride = expectedStride && outElemStride = inStride / inElemSize &&
      stridesMatch outElemSize inElemSize (expectedStride * size) shape outStrides inStrides
  | _, _, _, _ => true

inductive Route
  | refused
  | failed
  | legacy
  | hybrid (offsetCalc : HybridOffsetCalculator) (elemsPerThread : Nat)
deriving DecidableEq, Repr

variable (iter : TensorIterator)

def inputMatchesContiguousOutput (arg : Nat) : Bool :=
  stridesMatch iter.output.elementSize (iter.input arg).elementSize 1 iter.shape
    iter.output.strides (iter.input arg).strides

def ioSize (matchedArg : Nat) : Nat :=
  let matched := iter.input matchedArg
  let other := iter.input (1 - matchedArg)
  let matchedStride := matched.strides.getD (iter.ndim - 1) 0 / matched.elementSize
  let otherStride := other.strides.getD 0 0 / other.elementSize
  let bctLoad := if otherStride = 0 then max 1 (32 / matchedStride) else min matchedStride 32
  32 * matched.elementSize + bctLoad * other.elementSize

def launchHybridVectorizedKernel (matchedArg : Nat) : Route :=
  match makeInputHybridOffsetCalculator iter matchedArg with
  | none => .failed
  | some offsetCalc =>
    if 0 < iter.numel ∧ iter.numel ≤ 2 ^ 31 - 1 then
      .hybrid offsetCalc (if ioSize iter matchedArg ≤ 96 then 16 else 8)
    else .failed

def tryLaunchStaticBinaryKernel (inputType1 inputType2 outputType : ScalarType) : Route :=
  if iter.input0.dtype = inputType1 ∧ iter.input1.dtype = inputType2 ∧
      iter.output.dtype = outputType then
    if inputMatchesContiguousOutput iter 0 then launchHybridVectorizedKernel iter 0
    else if inputMatchesContiguousOutput iter 1 then launchHybridVectorizedKernel iter 1
    else .legacy
  else .refused

end Launch

section Kernel

variable (contents : Nat → α) (f : α → α → α) (iter : TensorIterator) (resultType : ScalarType)
  (offsetCalc : HybridOffsetCalculator) (elemsPerThread : Nat)

def vectorizedLoad (input : Operand) (idx thread : Nat) : List α :=
  let ptr := input.dataPtr + blockWorkSize elemsPerThread * idx * input.elementSize
  (List.range (elemsPerThread / vecSize)).flatMap fun i =>
    let index := thread + i * numThreads
    (List.range vecSize).map fun j => contents (ptr + (index * vecSize + j) * input.elementSize)

def vectorizedAccesses (input : Operand) (idx thread : Nat) : List (Event α) :=
  let ptr := input.dataPtr + blockWorkSize elemsPerThread * idx * input.elementSize
  (List.range (elemsPerThread / vecSize)).map fun i =>
    let index := thread + i * numThreads
    .vector (ptr + index * (vecSize * input.elementSize)) (vecSize * input.elementSize)

def scalarLoad (arg idx thread : Nat) : List α :=
  let input := iter.input arg
  (List.range (elemsPerThread / vecSize)).flatMap fun i =>
    let linearIndex := (thread + i * numThreads) * vecSize + blockWorkSize elemsPerThread * idx
    (List.range vecSize).map fun j =>
      contents (input.dataPtr + offsetCalc.get (linearIndex + j) arg * input.elementSize)

def hybridLoad (arg idx thread : Nat) : List α :=
  if arg = offsetCalc.matchedArg then
    vectorizedLoad contents elemsPerThread (iter.input arg) idx thread
  else scalarLoad contents iter offsetCalc elemsPerThread arg idx thread

def hybridStore (results : List α) (idx thread : Nat) : List (Event α) :=
  let size := resultType.elementSize
  let ptr := iter.output.dataPtr + blockWorkSize elemsPerThread * idx * size
  (List.range (elemsPerThread / vecSize)).flatMap fun i =>
    let address := ptr + (thread + i * numThreads) * (vecSize * size)
    .vector address (vecSize * size) :: (List.range vecSize).map fun j =>
      .store (address + j * size) resultType results[vecSize * i + j]?

def hybridBlock (idx thread : Nat) : List (Event α) :=
  let args := fun arg => hybridLoad contents iter offsetCalc elemsPerThread arg idx thread
  vectorizedAccesses elemsPerThread (iter.input offsetCalc.matchedArg) idx thread ++
    hybridStore iter resultType elemsPerThread (List.zipWith f (args 0) (args 1)) idx thread

def unrollBlock (remaining idx thread : Nat) : List (Event α) :=
  let load := fun linearIdx arg =>
    contents ((iter.input arg).dataPtr +
      offsetCalc.get linearIdx arg * (iter.input arg).elementSize)
  let results := (List.range elemsPerThread).map fun i =>
    if thread + i * numThreads < remaining then
      let linearIdx := thread + i * numThreads + blockWorkSize elemsPerThread * idx
      some (f (load linearIdx 0) (load linearIdx 1))
    else none
  (List.range elemsPerThread).flatMap fun i =>
    if thread + i * numThreads < remaining then
      let linearIdx := thread + i * numThreads + blockWorkSize elemsPerThread * idx
      [.store (iter.output.dataPtr + linearIdx * resultType.elementSize) resultType
        (results.getD i none)]
    else []

def hybridVectorizedElementwiseKernel (block thread : Nat) : List (Event α) :=
  let remaining := iter.numel - blockWorkSize elemsPerThread * block
  if remaining < blockWorkSize elemsPerThread then
    unrollBlock contents f iter resultType offsetCalc elemsPerThread remaining block thread
  else hybridBlock contents f iter resultType offsetCalc elemsPerThread block thread

def hybridLaunch : List (Event α) :=
  let blockWorkSize := blockWorkSize elemsPerThread
  (List.range ((iter.numel + blockWorkSize - 1) / blockWorkSize)).flatMap fun block =>
    (List.range numThreads).flatMap
      (hybridVectorizedElementwiseKernel contents f iter resultType offsetCalc elemsPerThread block)

end Kernel

section Grids

theorem grid_eq {α : Type} (rows width : Nat) (g : Nat → Nat → α) (some : 0 < width) :
    ((List.range rows).flatMap fun i => (List.range width).map fun j => g i j) =
      (List.range (rows * width)).map fun k => g (k / width) (k % width) := by
  induction rows with
  | zero => simp
  | succ rows ih =>
    rw [range_succ, flatMap_append, ih, succ_mul, range_add, map_append, flatMap_singleton, map_map]
    refine congrArg _ (map_congr_left fun j below => ?_)
    have less := mem_range.mp below
    rw [Function.comp_apply, mul_comm rows width, mul_add_div some, div_eq_of_lt less,
      mul_add_mod, mod_eq_of_lt less, add_zero]

theorem getElem?_grid {α : Type} {rows width i j : Nat} (g : Nat → Nat → α) (row : i < rows)
    (col : j < width) :
    ((List.range rows).flatMap fun i => (List.range width).map fun j => g i j)[width * i + j]? =
      some (g i j) := by
  have some : 0 < width := zero_lt_of_lt col
  have inside : width * i + j < rows * width := by
    calc width * i + j < width * i + width := Nat.add_lt_add_left col _
      _ = (i + 1) * width := by ring
      _ ≤ rows * width := mul_le_mul_right _ row
  rw [grid_eq rows width g some, getElem?_map, getElem?_range inside, Option.map_some,
    mul_add_div some, div_eq_of_lt col, mul_add_mod, mod_eq_of_lt col, add_zero]

end Grids

section Computes

variable {contents : Nat → α} {f : α → α → α} {iter : TensorIterator}

def Event.stored : Event α → Option (Nat × ScalarType × Option α)
  | .store address dtype value => some (address, dtype, value)
  | .vector _ _ => none

/-- Each element of the output is stored once, with the result for the elements of the inputs of the
same index, and vectors are aligned. -/
structure Computes (contents : Nat → α) (f : α → α → α) (iter : TensorIterator)
    (events : List (Event α)) : Prop where
  stores : (events.filterMap Event.stored).Perm ((List.range iter.numel).map fun idx =>
    (iter.address iter.output idx, iter.output.dtype,
      some (f (contents (iter.address iter.input0 idx)) (contents (iter.address iter.input1 idx)))))
  aligned : ∀ address width, .vector address width ∈ events → width ∣ address

def result (contents : Nat → α) (f : α → α → α) (iter : TensorIterator) (resultType : ScalarType)
    (idx : Nat) : Nat × ScalarType × Option α :=
  (iter.output.dataPtr + idx * resultType.elementSize, resultType,
    some (f (contents (iter.address iter.input0 idx)) (contents (iter.address iter.input1 idx))))

end Computes

section Layouts

variable {iter : TensorIterator} {offsetCalc : HybridOffsetCalculator} {elemsPerThread : Nat}

theorem stridesMatch_offset {outElemSize inElemSize expectedStride idx : Nat}
    {shape outStrides inStrides : List Nat}
    (matched : stridesMatch outElemSize inElemSize expectedStride shape outStrides inStrides = true)
    (outRanked : outStrides.length = shape.length) (inRanked : inStrides.length = shape.length)
    (outWhole : ∀ stride ∈ outStrides, outElemSize ∣ stride)
    (inWhole : ∀ stride ∈ inStrides, inElemSize ∣ stride) (inside : idx < shape.prod) :
    offset shape outStrides idx = idx * expectedStride * outElemSize ∧
      offset shape inStrides idx = idx * expectedStride * inElemSize := by
  induction shape generalizing expectedStride idx outStrides inStrides with
  | nil =>
    have none : idx = 0 := by simpa using inside
    simp [offset, none]
  | cons size shape ih =>
    cases outStrides with
    | nil => cases outRanked
    | cons outStride outStrides =>
      cases inStrides with
      | nil => cases inRanked
      | cons inStride inStrides =>
        simp only [stridesMatch, Bool.and_eq_true, decide_eq_true_eq] at matched
        obtain ⟨⟨out, same⟩, rest⟩ := matched
        rw [prod_cons] at inside
        have below : idx / size < shape.prod := Nat.div_lt_of_lt_mul inside
        obtain ⟨outRest, inRest⟩ := ih rest (Nat.succ.inj outRanked) (Nat.succ.inj inRanked)
          (fun next member => outWhole next (.tail _ member))
          (fun next member => inWhole next (.tail _ member)) below
        have outHere : outStride = expectedStride * outElemSize := by
          rw [← out]
          exact (Nat.div_mul_cancel (outWhole _ (.head _))).symm
        have inHere : inStride = expectedStride * inElemSize := by
          rw [← out, same]
          exact (Nat.div_mul_cancel (inWhole _ (.head _))).symm
        have parts := Nat.mod_add_div idx size
        have total : ∀ width, idx % size * (expectedStride * width) +
            idx / size * (expectedStride * size) * width = idx * expectedStride * width := by
          intro width
          calc idx % size * (expectedStride * width) + idx / size * (expectedStride * size) * width
              = (idx % size + size * (idx / size)) * expectedStride * width := by ring
            _ = idx * expectedStride * width := by rw [parts]
        rw [offset, offset, outRest, inRest, outHere, inHere]
        exact ⟨total _, total _⟩

structure Ready (iter : TensorIterator) (offsetCalc : HybridOffsetCalculator) : Prop where
  isInput : offsetCalc.matchedArg < 2
  some : 0 < iter.numel
  loads : ∀ arg < 2, ∀ idx < iter.numel, (iter.input arg).dataPtr +
    offsetCalc.get idx arg * (iter.input arg).elementSize = iter.address (iter.input arg) idx
  stores : ∀ idx < iter.numel,
    iter.output.dataPtr + idx * iter.output.elementSize = iter.address iter.output idx

theorem launch_ready {matchedArg : Nat} (isInput : matchedArg < 2)
    (matched : inputMatchesContiguousOutput iter matchedArg = true)
    (launched : launchHybridVectorizedKernel iter matchedArg = .hybrid offsetCalc elemsPerThread)
    (indexable : ∀ operand ∈ [iter.output, iter.input0, iter.input1], iter.Indexable operand) :
    Ready iter offsetCalc ∧ (elemsPerThread = 16 ∨ elemsPerThread = 8) := by
  unfold launchHybridVectorizedKernel at launched
  split at launched
  · cases launched
  · next built made =>
      split at launched
      · next numel =>
          obtain ⟨rfl, rfl⟩ := Route.hybrid.inj launched
          have isMatched : built.matchedArg = matchedArg := by
            unfold makeInputHybridOffsetCalculator at made
            split at made
            · rw [← Option.some.inj made]
            · cases made
          have inputs : ∀ arg < 2, iter.Indexable (iter.input arg) := by
            intro arg less
            unfold TensorIterator.input
            split
            · exact indexable _ (by simp)
            · exact indexable _ (by simp)
          have output := indexable iter.output (by simp)
          have input := inputs matchedArg isInput
          have sizes : ∀ extent ∈ iter.shape, 0 < extent ∧ extent < 2 ^ 31 := by
            intro extent member
            have divides : extent ∣ iter.numel := dvd_prod member
            have most := le_of_dvd numel.1 divides
            exact ⟨pos_of_dvd_of_pos divides numel.1, by omega⟩
          have rows := fun {idx} => @stridesMatch_offset iter.output.elementSize
            (iter.input matchedArg).elementSize 1 idx _ _ _ matched output.ranked input.ranked
            output.whole input.whole
          refine ⟨⟨isMatched ▸ isInput, numel.1, fun arg less idx inside => ?_,
            fun idx inside => ?_⟩, ?_⟩
          · unfold TensorIterator.address
            by_cases same : arg = matchedArg
            · subst same
              rw [(rows inside).2, mul_one]
              unfold HybridOffsetCalculator.get
              rw [if_pos isMatched.symm]
            · rw [get_eq made same less sizes (inputs arg less) (by omega)]
          · unfold TensorIterator.address
            rw [(rows inside).1, mul_one]
          · split
            · exact .inl rfl
            · exact .inr rfl
      · cases launched

theorem tryLaunch_ready {inputType1 inputType2 outputType : ScalarType}
    (taken : tryLaunchStaticBinaryKernel iter inputType1 inputType2 outputType =
      .hybrid offsetCalc elemsPerThread)
    (indexable : ∀ operand ∈ [iter.output, iter.input0, iter.input1], iter.Indexable operand) :
    Ready iter offsetCalc ∧ (elemsPerThread = 16 ∨ elemsPerThread = 8) := by
  unfold tryLaunchStaticBinaryKernel at taken
  split at taken
  · split at taken
    · next first => exact launch_ready (by decide) first taken indexable
    · split at taken
      · next second => exact launch_ready (by decide) second taken indexable
      · cases taken
  · cases taken

end Layouts

section Stored

variable {contents : Nat → α} {f : α → α → α} {iter : TensorIterator} {resultType : ScalarType}
  {offsetCalc : HybridOffsetCalculator} {elemsPerThread block thread : Nat}

def fullIndices (elemsPerThread block thread : Nat) : List Nat :=
  (List.range (elemsPerThread / vecSize)).flatMap fun i => (List.range vecSize).map fun j =>
    blockWorkSize elemsPerThread * block + ((thread + i * numThreads) * vecSize + j)

def tailIndices (elemsPerThread remaining block thread : Nat) : List Nat :=
  (List.range elemsPerThread).flatMap fun i =>
    if thread + i * numThreads < remaining then
      [thread + i * numThreads + blockWorkSize elemsPerThread * block]
    else []

def threadIndices (iter : TensorIterator) (elemsPerThread block thread : Nat) : List Nat :=
  let remaining := iter.numel - blockWorkSize elemsPerThread * block
  if remaining < blockWorkSize elemsPerThread then
    tailIndices elemsPerThread remaining block thread
  else fullIndices elemsPerThread block thread

theorem full_lt {i j : Nat} (lane : thread < numThreads) (row : i < elemsPerThread / vecSize)
    (col : j < vecSize) :
    (thread + i * numThreads) * vecSize + j < blockWorkSize elemsPerThread := by
  unfold blockWorkSize numThreads vecSize at *
  omega

section

variable (ready : Ready iter offsetCalc)
include ready

theorem hybridLoad_eq {arg : Nat} (isInput : arg < 2) (lane : thread < numThreads)
    (full : blockWorkSize elemsPerThread * block + blockWorkSize elemsPerThread ≤ iter.numel) :
    hybridLoad contents iter offsetCalc elemsPerThread arg block thread =
      (List.range (elemsPerThread / vecSize)).flatMap fun i => (List.range vecSize).map fun j =>
        contents (iter.address (iter.input arg)
          (blockWorkSize elemsPerThread * block + ((thread + i * numThreads) * vecSize + j))) := by
  have inside : ∀ i < elemsPerThread / vecSize, ∀ j < vecSize,
      blockWorkSize elemsPerThread * block + ((thread + i * numThreads) * vecSize + j) <
        iter.numel := by
    intro i row j col
    have place := full_lt lane row col
    omega
  unfold hybridLoad
  split
  · next same =>
      refine flatMap_congr fun i row => map_congr_left fun j col => ?_
      have loaded := ready.loads arg isInput _ (inside i (mem_range.mp row) j (mem_range.mp col))
      unfold HybridOffsetCalculator.get at loaded
      rw [if_pos same, add_mul, ← add_assoc] at loaded
      rw [loaded]
  · refine flatMap_congr fun i row => map_congr_left fun j col => ?_
    have loaded := ready.loads arg isInput _ (inside i (mem_range.mp row) j (mem_range.mp col))
    have index : (thread + i * numThreads) * vecSize + blockWorkSize elemsPerThread * block + j =
        blockWorkSize elemsPerThread * block + ((thread + i * numThreads) * vecSize + j) := by
      omega
    rw [index, loaded]

theorem hybridBlock_stored (lane : thread < numThreads)
    (full : blockWorkSize elemsPerThread * block + blockWorkSize elemsPerThread ≤ iter.numel) :
    (hybridBlock contents f iter resultType offsetCalc elemsPerThread block thread).filterMap
        Event.stored =
      (fullIndices elemsPerThread block thread).map (result contents f iter resultType) := by
  have loads : (@vectorizedAccesses α elemsPerThread (iter.input offsetCalc.matchedArg) block
      thread).filterMap Event.stored = [] := by
    refine filterMap_eq_nil_iff.mpr fun event member => ?_
    obtain ⟨_, _, rfl⟩ := mem_map.mp member
    rfl
  unfold hybridBlock fullIndices
  dsimp only
  rw [filterMap_append, loads, nil_append, hybridLoad_eq ready (by decide) lane full,
    hybridLoad_eq ready (by decide) lane full]
  unfold hybridStore
  rw [filterMap_flatMap, map_flatMap]
  refine flatMap_congr fun i row => ?_
  rw [filterMap_cons_none rfl, filterMap_map, map_map]
  refine filterMap_eq_map_iff_forall_eq_some.mpr fun j col => ?_
  have slot := fun {g : Nat → Nat → α} =>
    getElem?_grid g (mem_range.mp row) (mem_range.mp col)
  simp only [Function.comp_apply, Event.stored, result, getElem?_zipWith, slot]
  refine congrArg some (Prod.ext ?_ rfl)
  ring

theorem unrollBlock_stored {remaining : Nat}
    (rest : remaining = iter.numel - blockWorkSize elemsPerThread * block) :
    (unrollBlock contents f iter resultType offsetCalc elemsPerThread remaining block
        thread).filterMap Event.stored =
      (tailIndices elemsPerThread remaining block thread).map
        (result contents f iter resultType) := by
  unfold unrollBlock tailIndices
  rw [filterMap_flatMap, map_flatMap]
  refine flatMap_congr fun i slot => ?_
  split
  · next within =>
      have inside : thread + i * numThreads + blockWorkSize elemsPerThread * block < iter.numel := by
        omega
      have first := ready.loads 0 (by decide) _ inside
      have second := ready.loads 1 (by decide) _ inside
      simp only [filterMap_cons, filterMap_nil, Event.stored, map_cons, map_nil,
        result, getD_eq_getElem?_getD, getElem?_map,
        getElem?_range (mem_range.mp slot), Option.map_some, Option.getD_some, if_pos within,
        first, second]
      rfl
  · rfl

theorem kernel_stored (lane : thread < numThreads) :
    (hybridVectorizedElementwiseKernel contents f iter resultType offsetCalc elemsPerThread block
        thread).filterMap Event.stored =
      (threadIndices iter elemsPerThread block thread).map (result contents f iter resultType) := by
  unfold hybridVectorizedElementwiseKernel threadIndices
  dsimp only
  split
  · exact unrollBlock_stored ready rfl
  · next full =>
      by_cases some : 0 < blockWorkSize elemsPerThread
      · exact hybridBlock_stored ready lane (by omega)
      · have none : elemsPerThread / vecSize = 0 := by
          unfold blockWorkSize numThreads at some
          have zero : elemsPerThread = 0 := by omega
          rw [zero]
          rfl
        unfold hybridBlock vectorizedAccesses hybridStore fullIndices
        rw [none]
        rfl

end

def launchIndices (iter : TensorIterator) (elemsPerThread : Nat) : List Nat :=
  let blockWorkSize := blockWorkSize elemsPerThread
  (List.range ((iter.numel + blockWorkSize - 1) / blockWorkSize)).flatMap fun block =>
    (List.range numThreads).flatMap (threadIndices iter elemsPerThread block)

theorem hybridLaunch_stored (ready : Ready iter offsetCalc) :
    (hybridLaunch contents f iter resultType offsetCalc elemsPerThread).filterMap Event.stored =
      (launchIndices iter elemsPerThread).map (result contents f iter resultType) := by
  unfold hybridLaunch launchIndices
  rw [filterMap_flatMap, map_flatMap]
  refine flatMap_congr fun block _ => ?_
  rw [filterMap_flatMap, map_flatMap]
  exact flatMap_congr fun thread lane => kernel_stored ready (mem_range.mp lane)

end Stored

section Indices

variable {iter : TensorIterator} {elemsPerThread block thread idx : Nat}

theorem mem_fullIndices (whole : elemsPerThread % vecSize = 0) (lane : thread < numThreads) :
    idx ∈ fullIndices elemsPerThread block thread ↔ blockWorkSize elemsPerThread * block ≤ idx ∧
        idx < blockWorkSize elemsPerThread * block + blockWorkSize elemsPerThread ∧
        (idx - blockWorkSize elemsPerThread * block) / vecSize % numThreads = thread := by
  simp only [fullIndices, mem_flatMap, mem_map, mem_range]
  constructor
  · rintro ⟨i, row, j, col, rfl⟩
    have place := full_lt lane row col
    refine ⟨by omega, by omega, ?_⟩
    unfold numThreads vecSize at *
    omega
  · rintro ⟨low, high, owner⟩
    refine ⟨(idx - blockWorkSize elemsPerThread * block) / vecSize / numThreads, ?_,
      (idx - blockWorkSize elemsPerThread * block) % vecSize, mod_lt _ (by decide), ?_⟩
    · generalize blockWorkSize elemsPerThread * block = first at *
      unfold blockWorkSize numThreads vecSize at *
      omega
    · generalize blockWorkSize elemsPerThread * block = first at *
      unfold numThreads vecSize at *
      omega

theorem fullIndices_nodup (lane : thread < numThreads) :
    (fullIndices elemsPerThread block thread).Nodup := by
  refine Visits.nodup_flatMap
    (fun idx => (idx - blockWorkSize elemsPerThread * block) / vecSize / numThreads)
    nodup_range (fun i _ => ?_) fun i _ idx member => ?_
  · exact nodup_range.map fun one two same => by omega
  · obtain ⟨j, col, rfl⟩ := mem_map.mp member
    have less := mem_range.mp col
    rw [Nat.add_sub_cancel_left]
    unfold numThreads vecSize at *
    omega

theorem mem_tailIndices {remaining : Nat} (short : remaining < blockWorkSize elemsPerThread)
    (lane : thread < numThreads) :
    idx ∈ tailIndices elemsPerThread remaining block thread ↔
      blockWorkSize elemsPerThread * block ≤ idx ∧
        idx < blockWorkSize elemsPerThread * block + remaining ∧
        (idx - blockWorkSize elemsPerThread * block) % numThreads = thread := by
  simp only [tailIndices, mem_flatMap, mem_range]
  constructor
  · rintro ⟨i, slot, member⟩
    split at member
    · next within =>
        obtain rfl := mem_singleton.mp member
        refine ⟨by omega, by omega, ?_⟩
        rw [Nat.add_sub_cancel, Nat.add_mul_mod_self_right, Nat.mod_eq_of_lt lane]
    · cases member
  · rintro ⟨low, high, owner⟩
    have parts := mod_add_div (idx - blockWorkSize elemsPerThread * block) numThreads
    rw [owner, mul_comm] at parts
    refine ⟨(idx - blockWorkSize elemsPerThread * block) / numThreads, ?_, ?_⟩
    · rw [div_lt_iff_lt_mul (by decide)]
      change _ < blockWorkSize elemsPerThread
      omega
    · rw [if_pos (by omega), mem_singleton]
      omega

theorem tailIndices_nodup {remaining : Nat} (lane : thread < numThreads) :
    (tailIndices elemsPerThread remaining block thread).Nodup := by
  refine Visits.nodup_flatMap (fun idx => (idx - blockWorkSize elemsPerThread * block) / numThreads)
    nodup_range (fun i _ => ?_) fun i _ idx member => ?_
  · split
    · exact nodup_singleton _
    · exact nodup_nil
  · split at member
    · obtain rfl := mem_singleton.mp member
      rw [Nat.add_sub_cancel, Nat.add_mul_div_right _ _ (by decide), Nat.div_eq_of_lt lane,
        Nat.zero_add]
    · cases member

def lane (iter : TensorIterator) (elemsPerThread block idx : Nat) : Nat :=
  let place := idx - blockWorkSize elemsPerThread * block
  if iter.numel - blockWorkSize elemsPerThread * block < blockWorkSize elemsPerThread then
    place % numThreads
  else place / vecSize % numThreads

theorem mem_threadIndices (whole : elemsPerThread % vecSize = 0) (runs : thread < numThreads)
    (inGrid : blockWorkSize elemsPerThread * block < iter.numel) :
    idx ∈ threadIndices iter elemsPerThread block thread ↔
      blockWorkSize elemsPerThread * block ≤ idx ∧
        idx < blockWorkSize elemsPerThread * block + blockWorkSize elemsPerThread ∧
        idx < iter.numel ∧ lane iter elemsPerThread block idx = thread := by
  unfold threadIndices lane
  dsimp only
  split
  · next short =>
      rw [mem_tailIndices short runs]
      omega
  · next full =>
      rw [mem_fullIndices whole runs]
      omega

theorem threadIndices_nodup (runs : thread < numThreads) :
    (threadIndices iter elemsPerThread block thread).Nodup := by
  unfold threadIndices
  dsimp only
  split
  · exact tailIndices_nodup runs
  · exact fullIndices_nodup runs

theorem launchIndices_perm (whole : elemsPerThread % vecSize = 0) (some : 0 < elemsPerThread) :
    (launchIndices iter elemsPerThread).Perm (List.range iter.numel) := by
  have room : 0 < blockWorkSize elemsPerThread := Nat.mul_pos some (by decide)
  have grid : ∀ block, block ∈ range ((iter.numel + blockWorkSize elemsPerThread - 1) /
      blockWorkSize elemsPerThread) ↔ blockWorkSize elemsPerThread * block < iter.numel := by
    intro block
    rw [mem_range, ← Nat.succ_le_iff, Nat.le_div_iff_mul_le room, Nat.succ_mul, Nat.mul_comm]
    omega
  have members : ∀ block idx, block ∈ range ((iter.numel + blockWorkSize elemsPerThread - 1) /
      blockWorkSize elemsPerThread) →
      (idx ∈ (range numThreads).flatMap (threadIndices iter elemsPerThread block) ↔
        blockWorkSize elemsPerThread * block ≤ idx ∧
          idx < blockWorkSize elemsPerThread * block + blockWorkSize elemsPerThread ∧
          idx < iter.numel) := by
    intro block idx inGrid
    rw [grid] at inGrid
    simp only [mem_flatMap, mem_range]
    constructor
    · rintro ⟨thread, runs, member⟩
      obtain ⟨low, high, inside, _⟩ := (mem_threadIndices whole runs inGrid).mp member
      exact ⟨low, high, inside⟩
    · rintro ⟨low, high, inside⟩
      have runs : lane iter elemsPerThread block idx < numThreads := by
        unfold lane
        split <;> exact Nat.mod_lt _ (by decide)
      exact ⟨_, runs, (mem_threadIndices whole runs inGrid).mpr ⟨low, high, inside, rfl⟩⟩
  refine (perm_ext_iff_of_nodup ?_ nodup_range).mpr fun idx => ?_
  · refine Visits.nodup_flatMap (· / blockWorkSize elemsPerThread) nodup_range
      (fun block inGrid => ?_) fun block inGrid idx member => ?_
    · refine Visits.nodup_flatMap (lane iter elemsPerThread block) nodup_range
        (fun thread member => threadIndices_nodup (mem_range.mp member))
        fun thread runs idx member => ?_
      exact ((mem_threadIndices whole (mem_range.mp runs) ((grid block).mp inGrid)).mp member).2.2.2
    · obtain ⟨low, high, _⟩ := (members block idx inGrid).mp member
      refine Nat.div_eq_of_lt_le ?_ ?_
      · rw [Nat.mul_comm]
        exact low
      · rw [Nat.succ_mul, Nat.mul_comm]
        exact high
  · rw [launchIndices, mem_flatMap, mem_range]
    constructor
    · rintro ⟨block, inGrid, member⟩
      exact ((members block idx inGrid).mp member).2.2
    · intro inside
      have low := Nat.mul_div_le idx (blockWorkSize elemsPerThread)
      have high := Nat.lt_mul_div_succ idx room
      rw [Nat.mul_succ] at high
      have inGrid := (grid (idx / blockWorkSize elemsPerThread)).mpr (by omega)
      exact ⟨_, inGrid, (members _ idx inGrid).mpr ⟨low, high, inside⟩⟩

end Indices

section Vectors

variable {contents : Nat → α} {f : α → α → α} {iter : TensorIterator} {resultType : ScalarType}
  {offsetCalc : HybridOffsetCalculator} {elemsPerThread : Nat}

theorem block_vectors (whole : elemsPerThread % vecSize = 0) (base block index size : Nat) :
    vecSize * size ∣ base + blockWorkSize elemsPerThread * block * size +
      index * (vecSize * size) ↔ vecSize * size ∣ base := by
  have vectors : vecSize * size ∣ blockWorkSize elemsPerThread * block * size := by
    refine mul_dvd_mul_right (Dvd.dvd.mul_right ?_ block) size
    exact (dvd_of_mod_eq_zero whole).mul_right numThreads
  rw [Nat.add_assoc]
  exact (Nat.dvd_add_iff_left (Nat.dvd_add vectors (Dvd.intro_left _ rfl))).symm

theorem vector_cases (whole : elemsPerThread % vecSize = 0) {address width : Nat}
    (accessed : .vector address width ∈
      hybridLaunch contents f iter resultType offsetCalc elemsPerThread) :
    blockWorkSize elemsPerThread ≤ iter.numel ∧ ∃ base size,
      (base, size) ∈ [((iter.input offsetCalc.matchedArg).dataPtr,
        (iter.input offsetCalc.matchedArg).elementSize),
        (iter.output.dataPtr, resultType.elementSize)] ∧
      width = vecSize * size ∧ (width ∣ address ↔ width ∣ base) := by
  simp only [hybridLaunch, mem_flatMap] at accessed
  obtain ⟨block, _, thread, _, accessed⟩ := accessed
  unfold hybridVectorizedElementwiseKernel at accessed
  dsimp only at accessed
  split at accessed
  · unfold unrollBlock at accessed
    obtain ⟨i, _, here⟩ := mem_flatMap.mp accessed
    split at here
    · cases mem_singleton.mp here
    · cases here
  · next full =>
      refine ⟨by omega, ?_⟩
      rcases mem_append.mp accessed with loaded | stored
      · obtain ⟨i, _, same⟩ := mem_map.mp loaded
        obtain ⟨rfl, rfl⟩ := Event.vector.inj same
        exact ⟨_, _, (.head _), rfl, block_vectors whole _ _ _ _⟩
      · obtain ⟨i, _, here⟩ := mem_flatMap.mp stored
        rcases mem_cons.mp here with same | element
        · obtain ⟨rfl, rfl⟩ := Event.vector.inj same
          exact ⟨_, _, mem_cons_of_mem _ (.head _), rfl, block_vectors whole _ _ _ _⟩
        · obtain ⟨_, _, other⟩ := mem_map.mp element
          cases other

theorem first_vectors (some : vecSize ≤ elemsPerThread)
    (full : blockWorkSize elemsPerThread ≤ iter.numel) :
    .vector (iter.input offsetCalc.matchedArg).dataPtr
        (vecSize * (iter.input offsetCalc.matchedArg).elementSize) ∈
      hybridLaunch contents f iter resultType offsetCalc elemsPerThread ∧
    .vector iter.output.dataPtr (vecSize * resultType.elementSize) ∈
      hybridLaunch contents f iter resultType offsetCalc elemsPerThread := by
  have turn : 0 ∈ range (elemsPerThread / vecSize) := mem_range.mpr (div_pos some (by decide))
  have first : ∀ event, event ∈ hybridBlock contents f iter resultType offsetCalc elemsPerThread 0 0 →
      event ∈ hybridLaunch contents f iter resultType offsetCalc elemsPerThread := by
    intro event member
    have positive : 0 < blockWorkSize elemsPerThread :=
      mul_pos (lt_of_lt_of_le (by decide) some) (by decide)
    refine mem_flatMap.mpr ⟨0, mem_range.mpr (div_pos (by omega) positive), ?_⟩
    refine mem_flatMap.mpr ⟨0, by decide, ?_⟩
    unfold hybridVectorizedElementwiseKernel
    rw [if_neg (by omega)]
    exact member
  constructor
  · refine first _ (mem_append_left _ (mem_map.mpr ⟨0, turn, ?_⟩))
    simp
  · refine first _ (mem_append_right _ (mem_flatMap.mpr ⟨0, turn, ?_⟩))
    simp

end Vectors

/-- The launch computes the operator if and only if its results are of the type of the output and,
where a block is full, the output and the matched input begin at a multiple of a vector. -/
theorem hybrid_binary_iff (contents : Nat → α) (f : α → α → α) (iter : TensorIterator)
    (resultType inputType1 inputType2 outputType : ScalarType) (offsetCalc : HybridOffsetCalculator)
    (elemsPerThread : Nat)
    (taken : tryLaunchStaticBinaryKernel iter inputType1 inputType2 outputType =
      .hybrid offsetCalc elemsPerThread)
    (indexable : ∀ operand ∈ [iter.output, iter.input0, iter.input1], iter.Indexable operand) :
    Computes contents f iter (hybridLaunch contents f iter resultType offsetCalc elemsPerThread) ↔
      resultType = iter.output.dtype ∧ (blockWorkSize elemsPerThread ≤ iter.numel →
          vecSize * (iter.input offsetCalc.matchedArg).elementSize ∣
            (iter.input offsetCalc.matchedArg).dataPtr ∧
          vecSize * iter.output.elementSize ∣ iter.output.dataPtr) := by
  obtain ⟨ready, slots⟩ := tryLaunch_ready taken indexable
  have whole : elemsPerThread % vecSize = 0 := by
    rcases slots with rfl | rfl <;> rfl
  have several : vecSize ≤ elemsPerThread := by
    rcases slots with rfl | rfl <;> decide
  have stored := @hybridLaunch_stored _ contents f iter resultType offsetCalc elemsPerThread ready
  have indices := @launchIndices_perm iter elemsPerThread whole (by omega)
  constructor
  · rintro ⟨stores, aligned⟩
    have same : resultType = iter.output.dtype := by
      rw [stored] at stores
      have first := mem_map_of_mem (f := result contents f iter resultType)
        (indices.mem_iff.mpr (mem_range.mpr ready.some))
      obtain ⟨_, _, equal⟩ := mem_map.mp (stores.mem_iff.mp first)
      exact (congrArg (fun store => store.2.1) equal).symm
    refine ⟨same, fun full => ?_⟩
    obtain ⟨loaded, written⟩ := @first_vectors _ contents f iter resultType offsetCalc _ several full
    refine ⟨aligned _ _ loaded, ?_⟩
    have output := aligned _ _ written
    rwa [same] at output
  · rintro ⟨rfl, begins⟩
    refine ⟨?_, fun address width accessed => ?_⟩
    · rw [stored]
      have all : (range iter.numel).map (result contents f iter iter.output.dtype) =
          (range iter.numel).map fun idx => (iter.address iter.output idx, iter.output.dtype,
            some (f (contents (iter.address iter.input0 idx))
              (contents (iter.address iter.input1 idx)))) := by
        refine map_congr_left fun idx inside => ?_
        rw [← ready.stores idx (mem_range.mp inside)]
        rfl
      rw [← all]
      exact indices.map _
    · obtain ⟨full, base, size, operand, rfl, moved⟩ := vector_cases whole accessed
      obtain ⟨matched, output⟩ := begins full
      rw [moved]
      simp only [mem_cons, Prod.mk.injEq, not_mem_nil, or_false] at operand
      rcases operand with ⟨rfl, rfl⟩ | ⟨rfl, rfl⟩
      · exact matched
      · exact output

def transposedSum (dataPtr : Nat) : TensorIterator where
  shape := [64, 64]
  output := ⟨.kFloat, [4, 256], 65536⟩
  input0 := ⟨.kFloat, [4, 256], dataPtr⟩
  input1 := ⟨.kFloat, [256, 4], 131072⟩

def transposedOffsets : HybridOffsetCalculator where
  matchedArg := 0
  sizes := [IntDivider.new 64, IntDivider.new 64]
  strides := [[1, 64], [64, 1]]

theorem hybrid_binary_iff_sample : Computes (fun address => address) (· + ·) (transposedSum 4096)
      (hybridLaunch (fun address => address) (· + ·) (transposedSum 4096) .kFloat transposedOffsets
        8) :=
  (hybrid_binary_iff (fun address => address) (· + ·) (transposedSum 4096) .kFloat .kFloat .kFloat
    .kFloat transposedOffsets 8 (by decide) (by
      intro operand member
      simp only [mem_cons, not_mem_nil, or_false] at member
      rcases member with rfl | rfl | rfl <;> exact ⟨by decide, by decide, by decide⟩)).mpr
    ⟨rfl, fun _ => by decide⟩

/-- One element further the vectors of the input are misaligned, and the kernel is launched all the
same. -/
theorem hybrid_binary_misaligned :
    tryLaunchStaticBinaryKernel (transposedSum 4100) .kFloat .kFloat .kFloat =
        .hybrid transposedOffsets 8 ∧
      ¬ Computes (fun address => address) (· + ·) (transposedSum 4100)
        (hybridLaunch (fun address => address) (· + ·) (transposedSum 4100) .kFloat
          transposedOffsets 8) := by
  refine ⟨by decide, fun computes => ?_⟩
  have vectors := @first_vectors _ (fun address => address) (· + ·) (transposedSum 4100) .kFloat
    transposedOffsets 8 (by decide) (by decide)
  exact absurd (computes.aligned _ _ vectors.1) (by decide)

end TorchSupa.Aten.Elementwise
