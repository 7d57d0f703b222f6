import TorchSupa.Aten.ReduceConfig
import TorchSupa.Logic.Visits
import Mathlib.Data.Nat.ModEq

/-!
The reduction of a contiguous input in vectors: a head up to the first aligned vector, the vectors,
and a tail. Together the threads of an output read each element of its slice once.
-/

namespace TorchSupa.Aten.Reduce

open DirectCopy List Nat

structure Visit where
  address : Int
  idx : Int
deriving DecidableEq, Repr

/-- The slice of an output without its head; its first element is number `shift` of the slice. -/
structure Aligned where
  data : Int
  stop : Nat
  shift : Nat
deriving DecidableEq, Repr

section ThreadReduce

variable (config : ReduceConfig) (size inputVecSize : Nat)

def misalignment (data : Nat) : Nat := data % (size * inputVecSize) / size

def reduceHead (data : Nat) (thread : Thread) : List Visit :=
  let shift := misalignment size inputVecSize data
  if 0 < shift ∧ shift ≤ thread.threadX ∧ thread.threadX < inputVecSize ∧
      config.shouldReduceTail thread then
    [⟨data - shift * size + thread.threadX * size, (thread.threadX - shift : Nat)⟩]
  else []

def align (data : Nat) : Aligned :=
  let shift := misalignment size inputVecSize data
  if 0 < shift then
    { data := data - shift * size + inputVecSize * size
      stop := u32 (config.numInputs + shift + (2 ^ 32 - inputVecSize))
      shift := inputVecSize - shift }
  else { data, stop := config.numInputs, shift }

/-- `while (idx * input_vec_size + input_vec_size - 1 < end) { …; idx += stride; }`, by the `idx`s
of its turns. -/
def vectorLoop (stop stride : Nat) : Nat → Nat → Option (List Nat)
  | 0, _ => none
  | fuel + 1, idx =>
    if u32 (idx * inputVecSize + inputVecSize - 1) < stop then
      (vectorLoop stop stride fuel (u32 (idx + stride))).map (idx :: ·)
    else some []

def reduceVector (aligned : Aligned) (idx : Nat) : List Visit :=
  (List.range inputVecSize).map fun (i : Nat) =>
    ⟨aligned.data + (idx * inputVecSize + i) * size,
      u32 (aligned.shift + idx * inputVecSize + i)⟩

def reduceTail (aligned : Aligned) (thread : Thread) : List Visit :=
  let tailStart := aligned.stop - aligned.stop % inputVecSize
  let idx := u32 (tailStart + thread.threadX)
  if config.shouldReduceTail thread ∧ idx < aligned.stop then
    [⟨aligned.data + toInt idx * size, toInt idx + aligned.shift⟩]
  else []

def inputVectorizedThreadReduceImpl (fuel data : Nat) (thread : Thread) : Option (List Visit) :=
  let aligned := align config size inputVecSize data
  (vectorLoop inputVecSize aligned.stop config.stepInput fuel (config.inputIdx thread)).map
    fun turns =>
      reduceHead config size inputVecSize data thread ++
        turns.flatMap (reduceVector size inputVecSize aligned) ++
        reduceTail config size inputVecSize aligned thread

def threadReduce (fuel data : Nat) (thread : Thread) : Option (List Visit) :=
  if config.outputIdx thread < config.numOutputs ∧ config.inputIdx thread < config.numInputs then
    inputVectorizedThreadReduceImpl config size inputVecSize fuel data thread
  else some []

end ThreadReduce

def ReduceConfig.launch (config : ReduceConfig) : List Thread :=
  (List.range config.ctasPerOutput).flatMap fun blockY =>
    (List.range config.gridX).flatMap fun blockX =>
      (List.range config.blockHeight).flatMap fun threadY =>
        (List.range config.blockWidth).map fun threadX => ⟨threadX, threadY, blockX, blockY⟩

section Launch

variable {config : ReduceConfig} {thread : Thread}

theorem mem_launch : thread ∈ config.launch ↔ config.Runs thread := by
  obtain ⟨threadX, threadY, blockX, blockY⟩ := thread
  simp only [ReduceConfig.launch, mem_flatMap, mem_map, mem_range, Thread.mk.injEq,
    ReduceConfig.Runs]
  constructor
  · rintro ⟨_, cta, _, block, _, row, _, col, rfl, rfl, rfl, rfl⟩
    exact ⟨col, row, block, cta⟩
  · rintro ⟨col, row, block, cta⟩
    exact ⟨_, cta, _, block, _, row, _, col, rfl, rfl, rfl, rfl⟩

theorem launch_nodup (config : ReduceConfig) : config.launch.Nodup := by
  refine Visits.nodup_flatMap Thread.blockY nodup_range (fun blockY _ => ?_) ?_
  · refine Visits.nodup_flatMap Thread.blockX nodup_range (fun blockX _ => ?_) ?_
    · refine Visits.nodup_flatMap Thread.threadY nodup_range (fun threadY _ => ?_) ?_
      · exact nodup_range.map fun one two same => congrArg Thread.threadX same
      · intro threadY _ thread member
        obtain ⟨_, _, rfl⟩ := mem_map.mp member
        rfl
    · intro blockX _ thread member
      simp only [mem_flatMap, mem_map] at member
      obtain ⟨_, _, _, _, rfl⟩ := member
      rfl
  · intro blockY _ thread member
    simp only [mem_flatMap, mem_map] at member
    obtain ⟨_, _, _, _, _, _, rfl⟩ := member
    rfl

end Launch

section Loop

variable {inputVecSize stop stride : Nat}

theorem vectorLoop_spec (lanes : 0 < inputVecSize) (step : 0 < stride)
    (room : stop + stride * inputVecSize + inputVecSize ≤ 2 ^ 32) {fuel idx : Nat}
    (enough : stop - idx < fuel) (near : idx * inputVecSize ≤ stop + stride * inputVecSize) :
    ∃ turns, vectorLoop inputVecSize stop stride fuel idx = some turns ∧ turns.Nodup ∧
      ∀ turn, turn ∈ turns ↔
        idx ≤ turn ∧ turn % stride = idx % stride ∧ turn * inputVecSize + inputVecSize ≤ stop := by
  induction fuel generalizing idx with
  | zero => omega
  | succ fuel ih =>
    have exact_ : u32 (idx * inputVecSize + inputVecSize - 1) =
        idx * inputVecSize + inputVecSize - 1 := mod_eq_of_lt (by omega)
    unfold vectorLoop
    rw [exact_]
    split
    · next more =>
        have place := Nat.le_mul_of_pos_right idx lanes
        have next_ : (idx + stride) * inputVecSize ≤ stop + stride * inputVecSize := by
          rw [add_mul]
          omega
        have small := Nat.le_mul_of_pos_right (idx + stride) lanes
        have exactNext : u32 (idx + stride) = idx + stride := Nat.mod_eq_of_lt (by omega)
        obtain ⟨turns, ran, nodup, members⟩ := @ih (idx + stride) (by omega) next_
        refine ⟨idx :: turns, by rw [exactNext, ran]; rfl, ?_, fun turn => ?_⟩
        · refine nodup_cons.mpr ⟨fun again => ?_, nodup⟩
          have later := ((members idx).mp again).1
          omega
        · rw [mem_cons, members turn, add_mod_right]
          constructor
          · rintro (rfl | ⟨later, same, inside⟩)
            · exact ⟨le_refl _, rfl, by omega⟩
            · exact ⟨by omega, same, inside⟩
          · rintro ⟨later, same, inside⟩
            rcases eq_or_lt_of_le later with this | apart
            · exact .inl this.symm
            · exact .inr ⟨ModEq.add_le_of_lt same.symm apart, same, inside⟩
    · next done =>
        refine ⟨[], rfl, nodup_nil, fun turn => ?_⟩
        constructor
        · intro member
          cases member
        · rintro ⟨later, _, inside⟩
          have more := mul_le_mul_right inputVecSize later
          omega

end Loop

section Workers

variable {config : ReduceConfig} {thread : Thread} {split : Bool}

def worker (config : ReduceConfig) (split : Bool) (output idx : Nat) : Thread :=
  if split then
    ⟨idx % config.blockWidth, idx / config.blockWidth % config.blockHeight, output,
      idx / (config.blockWidth * config.blockHeight)⟩
  else ⟨idx, output % config.blockHeight, output / config.blockHeight, 0⟩

theorem lanes_eq (config : ReduceConfig) : config.inputLanes true split =
      config.blockWidth * (if split then config.blockHeight else 1) := rfl

variable (chosen : config.Chosen true split)
include chosen

theorem chosen_ctas : config.stepInput = config.inputLanes true split * config.ctasPerOutput ∧
      (∀ cta < config.ctasPerOutput,
        cta * config.inputMultCta = cta * config.inputLanes true split) ∧
      (config.shouldGlobalReduce = false → config.ctasPerOutput = 1) ∧
      (split = false → config.ctasPerOutput = 1) := by
  have width := chosen.width
  have height := chosen.height
  unfold ReduceConfig.shouldGlobalReduce
  rcases chosen.ctas with ⟨none, one, step⟩ | ⟨isSplit, shared, _, step, _, _⟩
  · rw [one]
    refine ⟨by rw [step, mul_one], fun cta below => ?_, fun _ => rfl, fun _ => rfl⟩
    rw [lt_one_iff.mp below, zero_mul, zero_mul]
  · subst isSplit
    refine ⟨step, fun cta _ => by rw [shared], fun none => ?_, fun other => by cases other⟩
    have some := mul_pos width height
    rw [shared, lanes_eq] at none
    simp at none
    omega

theorem blockWidth_le_stepInput : config.blockWidth ≤ config.stepInput := by
  have height := chosen.height
  have some : 0 < config.ctasPerOutput := by
    rcases chosen.ctas with ⟨_, one, _⟩ | ⟨_, _, several, _⟩ <;> omega
  rw [(chosen_ctas chosen).1, lanes_eq, Nat.mul_assoc]
  refine Nat.le_mul_of_pos_right _ (Nat.mul_pos ?_ some)
  split <;> omega

theorem stepInput_le : 16 * config.stepInput ≤ config.numInputs + 4096 := by
  have width := chosen.width
  have height := chosen.height
  have lanes : 0 < config.inputLanes true split ∧ config.inputLanes true split ≤ 256 := by
    have threads := chosen.threads
    rw [chosen.numThreads] at threads
    rw [lanes_eq]
    split
    · exact ⟨Nat.mul_pos width height, threads⟩
    · have row := Nat.le_mul_of_pos_right config.blockWidth height
      omega
  rcases chosen.ctas with ⟨_, _, step⟩ | ⟨_, _, _, step, _, few⟩
  · omega
  · rw [step]
    generalize config.inputLanes true split = block at *
    have turns : block * divUp config.numInputs block ≤ config.numInputs + block - 1 :=
      mul_div_le _ _
    have most : 16 * config.ctasPerOutput ≤ divUp config.numInputs block + 15 := by
      unfold divUp at few ⊢
      omega
    have scaled := mul_le_mul_left block most
    calc 16 * (block * config.ctasPerOutput) = block * (16 * config.ctasPerOutput) := by ring
      _ ≤ block * (divUp config.numInputs block + 15) := scaled
      _ = block * divUp config.numInputs block + 15 * block := by ring
      _ ≤ config.numInputs + 4096 := by omega

theorem chosen_idx (runs : config.Runs thread) :
    config.outputIdx thread = (if split then 0 else thread.threadY) +
        thread.blockX * (if split then 1 else config.blockHeight) ∧
      config.inputIdx thread = thread.threadX + (if split then thread.threadY else 0) *
        config.blockWidth + thread.blockY * config.inputLanes true split := by
  obtain ⟨_, _, _, cta⟩ := runs
  unfold ReduceConfig.outputIdx ReduceConfig.inputIdx
  rw [chosen.single rfl, chosen.outputMultX, chosen.outputMultY, chosen.stepOutput,
    chosen.inputMultX, chosen.inputMultY, (chosen_ctas chosen).2.1 _ cta]
  unfold ReduceConfig.outputLanes
  cases split <;> simp

theorem worker_of (runs : config.Runs thread) : config.inputIdx thread < config.stepInput ∧
      worker config split (config.outputIdx thread) (config.inputIdx thread) = thread := by
  obtain ⟨outputs, inputs⟩ := chosen_idx chosen runs
  have width := chosen.width
  have height := chosen.height
  obtain ⟨steps, _, _, whole⟩ := chosen_ctas chosen
  obtain ⟨threadX, threadY, blockX, blockY⟩ := thread
  obtain ⟨col, row, block, cta⟩ := runs
  rw [outputs, inputs, steps, lanes_eq]
  unfold worker
  cases split with
  | true =>
    simp only [if_true, zero_add, mul_one]
    have place : threadX + threadY * config.blockWidth <
        config.blockWidth * config.blockHeight := place_lt col row
    have first : (threadX + threadY * config.blockWidth) / config.blockWidth = threadY := by
      rw [add_mul_div_right _ _ width, div_eq_of_lt col, zero_add]
    refine ⟨?_, ?_⟩
    · exact place_lt place cta
    · have split_ : threadX + threadY * config.blockWidth +
          blockY * (config.blockWidth * config.blockHeight) =
          threadX + (threadY + blockY * config.blockHeight) * config.blockWidth := by ring
      congr 1
      · rw [split_, add_mul_mod_self_right, mod_eq_of_lt col]
      · rw [split_, add_mul_div_right _ _ width, div_eq_of_lt col, zero_add,
          add_mul_mod_self_right, mod_eq_of_lt row]
      · rw [add_mul_div_right _ _ (mul_pos width height), div_eq_of_lt place, zero_add]
  | false =>
    have one := whole rfl
    rw [one] at cta ⊢
    have none : blockY = 0 := lt_one_iff.mp cta
    subst none
    simp only [Bool.false_eq_true, if_false, zero_mul, add_zero, mul_one]
    refine ⟨col, ?_⟩
    rw [add_mul_mod_self_right, mod_eq_of_lt row,
      add_mul_div_right _ _ height, div_eq_of_lt row, zero_add]

theorem worker_spec {output idx : Nat}
    (isOutput : output < config.numOutputs) (inside : idx < config.stepInput) :
    config.Runs (worker config split output idx) ∧
      config.outputIdx (worker config split output idx) = output ∧
      config.inputIdx (worker config split output idx) = idx := by
  have width := chosen.width
  have height := chosen.height
  obtain ⟨steps, _, _, whole⟩ := chosen_ctas chosen
  have grid : ∀ block, block < config.gridX ↔
      block * (if split then 1 else config.blockHeight) < config.numOutputs := by
    intro block
    have step : config.stepOutput = if split then 1 else config.blockHeight := by
      rw [chosen.stepOutput]
      exact one_mul _
    unfold ReduceConfig.gridX
    rw [chosen.single rfl, Nat.div_one, step]
    refine lt_divUp ?_
    split <;> omega
  have runs : config.Runs (worker config split output idx) := by
    unfold worker ReduceConfig.Runs
    rw [steps, lanes_eq] at inside
    rw [grid]
    cases split with
    | true =>
      simp only [if_true, Nat.mul_one] at inside ⊢
      exact ⟨Nat.mod_lt _ width, Nat.mod_lt _ height, isOutput, Nat.div_lt_of_lt_mul inside⟩
    | false =>
      rw [whole rfl] at inside ⊢
      simp only [Bool.false_eq_true, if_false, mul_one] at inside ⊢
      have back := div_mul_le_self output config.blockHeight
      exact ⟨inside, mod_lt _ height, by omega, one_pos⟩
  obtain ⟨outputs, inputs⟩ := chosen_idx chosen runs
  rw [outputs, inputs, lanes_eq]
  refine ⟨runs, ?_⟩
  unfold worker
  cases split with
  | true =>
    simp only [if_true, mul_one, zero_add, true_and]
    have rows := div_add_mod idx (config.blockWidth * config.blockHeight)
    have cols := mod_mul_right_div_self idx config.blockWidth config.blockHeight
    have lane := mod_add_div (idx % (config.blockWidth * config.blockHeight)) config.blockWidth
    rw [cols, mod_mul_right_mod, mul_comm config.blockWidth (_ % _)] at lane
    rw [lane, mul_comm (_ / _), add_comm]
    exact rows
  | false =>
    simp only [Bool.false_eq_true, if_false, zero_mul, add_zero, and_true]
    exact mod_add_div' output config.blockHeight

theorem shouldReduceTail_iff (runs : config.Runs thread) :
    (config.shouldReduceTail thread = true ↔ config.inputIdx thread < config.blockWidth) ∧
      (config.inputIdx thread < config.blockWidth → config.inputIdx thread = thread.threadX) := by
  have width := chosen.width
  have height := chosen.height
  obtain ⟨_, _, single, whole⟩ := chosen_ctas chosen
  rw [(chosen_idx chosen runs).2, lanes_eq]
  obtain ⟨threadX, threadY, blockX, blockY⟩ := thread
  obtain ⟨col, row, _, cta⟩ := runs
  unfold ReduceConfig.shouldReduceTail
  have rows : config.shouldBlockYReduce = split := by
    unfold ReduceConfig.shouldBlockYReduce
    rw [chosen.inputMultY]
    cases split with
    | true => exact decide_eq_true (pos_iff_ne_zero.mp width)
    | false => rfl
  have first : (config.shouldGlobalReduce = false ∨ blockY = 0) ↔ blockY = 0 := by
    constructor
    · rintro (none | first)
      · have one := single none
        dsimp only at cta
        omega
      · exact first
    · exact .inr
  rw [rows]
  dsimp only at *
  simp only [Bool.and_eq_true, Bool.or_eq_true, Bool.not_eq_true', decide_eq_true_eq, first]
  cases split with
  | true =>
    simp only [Bool.true_eq_false, false_or, if_true]
    have block := mul_pos width height
    have above : 0 < threadY → config.blockWidth ≤ threadY * config.blockWidth :=
      fun some => Nat.le_mul_of_pos_left _ some
    have beyond : 0 < blockY → config.blockWidth ≤
        blockY * (config.blockWidth * config.blockHeight) := fun some =>
      (Nat.le_mul_of_pos_right _ height).trans (Nat.le_mul_of_pos_left _ some)
    constructor
    · constructor
      · rintro ⟨rfl, rfl⟩
        rw [zero_mul, zero_mul]
        omega
      · intro inside
        constructor
        · by_contra other
          have more := above (pos_of_ne_zero other)
          omega
        · by_contra other
          have more := beyond (pos_of_ne_zero other)
          omega
    · intro inside
      have firstRow : threadY = 0 := by
        by_contra other
        have more := above (pos_of_ne_zero other)
        omega
      have firstBlock : blockY = 0 := by
        by_contra other
        have more := beyond (pos_of_ne_zero other)
        omega
      rw [firstRow, firstBlock, zero_mul, zero_mul]
      rfl
  | false =>
    have none : blockY = 0 := by
      rw [whole rfl] at cta
      omega
    subst none
    simp [col]

end Workers

section Cover

variable {config : ReduceConfig} {size inputVecSize data : Nat} {thread : Thread} {split : Bool}

def visit (size data i : Nat) : Visit := ⟨data + i * size, i⟩

def owner (shift inputVecSize stride : Nat) (aligned : Aligned) (i : Nat) : Nat :=
  let tailStart := aligned.stop - aligned.stop % inputVecSize
  if i < aligned.shift then i + shift
  else if i - aligned.shift < tailStart then (i - aligned.shift) / inputVecSize % stride
  else i - aligned.shift - tailStart

theorem misalignment_lt (lanes : 0 < inputVecSize) :
    misalignment size inputVecSize data < inputVecSize := by
  unfold misalignment
  rcases Nat.eq_zero_or_pos size with rfl | some
  · rw [Nat.div_zero]
    exact lanes
  · exact Nat.div_lt_of_lt_mul (Nat.mod_lt _ (Nat.mul_pos some lanes))

theorem align_spec (lanes : 0 < inputVecSize) (wide : inputVecSize ≤ config.numInputs)
    (small : config.numInputs < 2 ^ 31) :
    let shift := misalignment size inputVecSize data
    let aligned := align config size inputVecSize data
    aligned.data = data + aligned.shift * size ∧ aligned.shift + aligned.stop = config.numInputs ∧
      aligned.shift = if 0 < shift then inputVecSize - shift else 0 := by
  have less := @misalignment_lt size inputVecSize data lanes
  unfold align
  dsimp only
  split
  · next some =>
      refine ⟨?_, ?_, rfl⟩
      · rw [cast_sub less.le]
        ring
      · dsimp only [u32]
        omega
  · next none =>
      have zero : misalignment size inputVecSize data = 0 := by omega
      rw [zero]
      exact ⟨by simp, zero_add _, rfl⟩

theorem reduceHead_visits (chosen : config.Chosen true split) (runs : config.Runs thread)
    (narrow : inputVecSize ≤ config.blockWidth) {lead : Nat}
    (leads : lead = if 0 < misalignment size inputVecSize data then
      inputVecSize - misalignment size inputVecSize data else 0) :
    ∃ indices : List Nat,
      reduceHead config size inputVecSize data thread = indices.map (visit size data) ∧
      indices.Nodup ∧ ∀ i, i ∈ indices ↔
        i < lead ∧ i + misalignment size inputVecSize data = config.inputIdx thread := by
  obtain ⟨reduces, starts⟩ := shouldReduceTail_iff chosen runs
  unfold reduceHead
  simp only [reduces]
  generalize misalignment size inputVecSize data = shift at *
  split
  · next here =>
      obtain ⟨some, after, before, first⟩ := here
      have same := starts first
      refine ⟨[thread.threadX - shift], ?_, nodup_singleton _, fun i => ?_⟩
      · simp only [map_cons, map_nil, visit, cons.injEq, Visit.mk.injEq, and_true]
        rw [cast_sub after]
        ring
      · rw [mem_singleton, leads, if_pos some]
        omega
  · next none =>
      refine ⟨[], rfl, nodup_nil, fun i => ?_⟩
      rw [leads]
      simp only [not_mem_nil, false_iff]
      rintro ⟨inside, same⟩
      split at inside
      · next some =>
          have first : config.inputIdx thread < config.blockWidth := by omega
          have lane := starts first
          exact none ⟨some, by omega, by omega, first⟩
      · cases inside

theorem vector_place {place idx v stop : Nat} (lanes : 0 < v) :
    (∃ j < v, idx * v + j = place) ∧ idx * v + v ≤ stop ↔
      place / v = idx ∧ place < stop - stop % v := by
  have stops := div_add_mod stop v
  have whole : stop - stop % v = stop / v * v := by
    rw [mul_comm] at stops
    omega
  have inside : idx * v + v ≤ stop ↔ idx < stop / v := by
    rw [← succ_mul, ← le_div_iff_mul_le lanes]
    rfl
  rw [whole, inside, ← div_lt_iff_lt_mul lanes]
  constructor
  · rintro ⟨⟨j, below, rfl⟩, less⟩
    have quotient : (idx * v + j) / v = idx := by
      rw [mul_comm, mul_add_div lanes, div_eq_of_lt below, add_zero]
    exact ⟨quotient, by rwa [quotient]⟩
  · rintro ⟨rfl, less⟩
    exact ⟨⟨place % v, mod_lt _ lanes, div_add_mod' place v⟩, less⟩

theorem reduceVectors_visits {aligned : Aligned} {idx : Nat} {turns : List Nat}
    (lanes : 0 < inputVecSize) (start : aligned.data = data + aligned.shift * size)
    (small : aligned.shift + aligned.stop < 2 ^ 32) (inside : idx < config.stepInput)
    (nodup : turns.Nodup)
    (members : ∀ turn, turn ∈ turns ↔ idx ≤ turn ∧
      turn % config.stepInput = idx % config.stepInput ∧
      turn * inputVecSize + inputVecSize ≤ aligned.stop) :
    ∃ indices : List Nat, turns.flatMap (reduceVector size inputVecSize aligned) =
        indices.map (visit size data) ∧
      indices.Nodup ∧ ∀ i, i ∈ indices ↔ aligned.shift ≤ i ∧
        i - aligned.shift < aligned.stop - aligned.stop % inputVecSize ∧
        (i - aligned.shift) / inputVecSize % config.stepInput = idx := by
  refine ⟨turns.flatMap fun turn => (range inputVecSize).map fun j =>
    aligned.shift + turn * inputVecSize + j, ?_, ?_, fun i => ?_⟩
  · rw [map_flatMap]
    refine flatMap_congr fun turn member => ?_
    obtain ⟨_, _, last⟩ := (members turn).mp member
    rw [map_map]
    refine map_congr_left fun j below => ?_
    have less := mem_range.mp below
    have exact_ : u32 (aligned.shift + turn * inputVecSize + j) =
        aligned.shift + turn * inputVecSize + j := mod_eq_of_lt (by omega)
    simp only [Function.comp_apply, visit, Visit.mk.injEq]
    refine ⟨?_, by rw [exact_]⟩
    rw [start]
    push_cast
    ring
  · refine Visits.nodup_flatMap (fun i => (i - aligned.shift) / inputVecSize) nodup
      (fun turn _ => ?_) ?_
    · exact nodup_range.map fun one two same => by omega
    · intro turn _ i member
      obtain ⟨j, below, rfl⟩ := mem_map.mp member
      have less := mem_range.mp below
      rw [Nat.add_assoc, Nat.add_sub_cancel_left, Nat.mul_comm, Nat.mul_add_div lanes,
        Nat.div_eq_of_lt less, Nat.add_zero]
  · simp only [mem_flatMap, mem_map, mem_range]
    constructor
    · rintro ⟨turn, member, j, below, rfl⟩
      obtain ⟨_, same, last⟩ := (members turn).mp member
      obtain ⟨quotient, before⟩ := (vector_place lanes).mp ⟨⟨j, below, rfl⟩, last⟩
      rw [mod_eq_of_lt inside] at same
      have back : aligned.shift + turn * inputVecSize + j - aligned.shift =
          turn * inputVecSize + j := by omega
      rw [back, quotient]
      exact ⟨by omega, before, same⟩
    · rintro ⟨after, before, same⟩
      obtain ⟨⟨j, below, place⟩, last⟩ := (@vector_place (i - aligned.shift) _ inputVecSize
        aligned.stop lanes).mpr ⟨rfl, before⟩
      refine ⟨(i - aligned.shift) / inputVecSize, (members _).mpr ⟨?_, ?_, last⟩, j, below,
        by omega⟩
      · rw [← same]
        exact mod_le _ _
      · rw [same, mod_eq_of_lt inside]

theorem toInt_of_small {value : Nat} (small : value < 2 ^ 31) : toInt value = value := by
  unfold toInt Int.bmod
  simp only
  split <;> omega

theorem reduceTail_visits (chosen : config.Chosen true split) (runs : config.Runs thread)
    (lanes : 0 < inputVecSize) (narrow : inputVecSize ≤ config.blockWidth) {aligned : Aligned}
    (fits : config.blockWidth ≤ config.numInputs) (small : config.numInputs < 2 ^ 31)
    (start : aligned.data = data + aligned.shift * size)
    (whole : aligned.shift + aligned.stop = config.numInputs) :
    ∃ indices : List Nat, reduceTail config size inputVecSize aligned thread =
        indices.map (visit size data) ∧
      indices.Nodup ∧ ∀ i, i ∈ indices ↔ i < config.numInputs ∧
        aligned.shift + (aligned.stop - aligned.stop % inputVecSize) ≤ i ∧
        i - aligned.shift - (aligned.stop - aligned.stop % inputVecSize) =
          config.inputIdx thread := by
  obtain ⟨reduces, starts⟩ := shouldReduceTail_iff chosen runs
  have lane := runs.1
  have rest := mod_lt aligned.stop lanes
  have less := mod_le aligned.stop inputVecSize
  have exact_ : u32 (aligned.stop - aligned.stop % inputVecSize + thread.threadX) =
      aligned.stop - aligned.stop % inputVecSize + thread.threadX := mod_eq_of_lt (by omega)
  unfold reduceTail
  simp only [reduces, exact_]
  split
  · next here =>
      obtain ⟨first, inside⟩ := here
      have same := starts first
      refine ⟨[aligned.shift + (aligned.stop - aligned.stop % inputVecSize + thread.threadX)], ?_,
        nodup_singleton _, fun i => ?_⟩
      · rw [toInt_of_small (by omega), start]
        simp only [map_cons, map_nil, visit, cons.injEq, Visit.mk.injEq, and_true]
        push_cast
        constructor <;> ring
      · rw [mem_singleton]
        omega
  · next none =>
      refine ⟨[], rfl, nodup_nil, fun i => ?_⟩
      simp only [not_mem_nil, false_iff]
      rintro ⟨inside, after, same⟩
      have first : config.inputIdx thread < config.blockWidth := by omega
      have lane := starts first
      exact none ⟨first, by omega⟩

theorem owner_lt (lanes : 0 < inputVecSize) (narrow : inputVecSize ≤ config.stepInput)
    (fits : inputVecSize ≤ config.numInputs) (small : config.numInputs < 2 ^ 31) {i : Nat}
    (inside : i < config.numInputs) :
    owner (misalignment size inputVecSize data) inputVecSize config.stepInput
      (align config size inputVecSize data) i < config.stepInput := by
  obtain ⟨_, whole, leads⟩ := @align_spec config size inputVecSize data lanes fits small
  generalize align config size inputVecSize data = aligned at *
  generalize misalignment size inputVecSize data = shift at *
  have rest := mod_lt aligned.stop lanes
  unfold owner
  dsimp only
  split
  · split at leads <;> omega
  · split
    · exact mod_lt _ (by omega)
    · omega

variable (narrow : inputVecSize ≤ config.blockWidth) (fits : config.blockWidth ≤ config.numInputs)
  (small : config.numInputs < 2 ^ 31)
  (room : config.numInputs + config.stepInput * inputVecSize + inputVecSize ≤ 2 ^ 32)
  {fuel : Nat} (enough : config.numInputs < fuel)

include narrow fits small room enough

variable (chosen : config.Chosen true split)
include chosen

theorem inputVectorizedThreadReduceImpl_visits
    (runs : config.Runs thread) (lanes : 0 < inputVecSize) :
    ∃ indices : List Nat,
      inputVectorizedThreadReduceImpl config size inputVecSize fuel data thread =
        some (indices.map (visit size data)) ∧
      indices.Nodup ∧ ∀ i, i ∈ indices ↔ i < config.numInputs ∧
        owner (misalignment size inputVecSize data) inputVecSize config.stepInput
          (align config size inputVecSize data) i = config.inputIdx thread := by
  obtain ⟨start, whole, leads⟩ := @align_spec config size inputVecSize data lanes (by omega) small
  obtain ⟨inside, _⟩ := worker_of chosen runs
  unfold inputVectorizedThreadReduceImpl
  generalize align config size inputVecSize data = aligned at *
  have near : config.inputIdx thread * inputVecSize ≤ config.stepInput * inputVecSize :=
    mul_le_mul_right _ inside.le
  obtain ⟨turns, ran, once, members⟩ := @vectorLoop_spec inputVecSize aligned.stop config.stepInput
    lanes (by omega) (by omega) fuel (config.inputIdx thread) (by omega) (by omega)
  obtain ⟨first, heads, headOnce, headMem⟩ := @reduceHead_visits config size inputVecSize data
    thread split chosen runs narrow _ leads
  obtain ⟨middle, vectors, middleOnce, middleMem⟩ := reduceVectors_visits lanes start (by omega)
    inside once members
  obtain ⟨last, tails, tailOnce, tailMem⟩ := reduceTail_visits chosen runs lanes narrow fits small
    start whole
  have less := mod_le aligned.stop inputVecSize
  refine ⟨first ++ middle ++ last, ?_, ?_, fun i => ?_⟩
  · dsimp only
    rw [ran, Option.map_some, heads, vectors, tails, map_append, map_append]
  · refine nodup_append.mpr ⟨nodup_append.mpr ⟨headOnce, middleOnce, ?_⟩, tailOnce, ?_⟩
    · intro i here j there same
      have before := (headMem i).mp here
      have after := (middleMem j).mp there
      omega
    · intro i here j there same
      have after := (tailMem j).mp there
      rcases mem_append.mp here with before | before
      · have inHead := (headMem i).mp before
        omega
      · have inMiddle := (middleMem i).mp before
        omega
  · rw [mem_append, mem_append, headMem, middleMem, tailMem]
    unfold owner
    dsimp only
    split
    · next before => omega
    · next after =>
        split
        · next middle => omega
        · next beyond => omega

theorem threadReduce_visits
    (runs : config.Runs thread) (isOutput : config.outputIdx thread < config.numOutputs)
    (lanes : 0 < inputVecSize) :
    ∃ indices : List Nat, threadReduce config size inputVecSize fuel data thread =
        some (indices.map (visit size data)) ∧
      indices.Nodup ∧ ∀ i, i ∈ indices ↔ i < config.numInputs ∧
        owner (misalignment size inputVecSize data) inputVecSize config.stepInput
          (align config size inputVecSize data) i = config.inputIdx thread := by
  unfold threadReduce
  split
  · exact inputVectorizedThreadReduceImpl_visits narrow fits small room enough chosen runs lanes
  · next none =>
      refine ⟨[], rfl, nodup_nil, fun i => ?_⟩
      simp only [not_mem_nil, false_iff]
      rintro ⟨inside, same⟩
      refine none ⟨isOutput, ?_⟩
      rw [← same]
      obtain ⟨_, whole, leads⟩ := @align_spec config size inputVecSize data lanes (by omega) small
      have less := @misalignment_lt size inputVecSize data lanes
      generalize align config size inputVecSize data = aligned at *
      generalize misalignment size inputVecSize data = shift at *
      unfold owner
      dsimp only
      split
      · next before =>
          split at leads <;> omega
      · split
        · have most := mod_le ((i - aligned.shift) / inputVecSize) config.stepInput
          have below := div_le_self (i - aligned.shift) inputVecSize
          omega
        · omega

theorem launch_visits {output : Nat}
    (isOutput : output < config.numOutputs) (lanes : 0 < inputVecSize) :
    ∃ visits : Thread → List Visit, (∀ thread ∈ config.launch, config.outputIdx thread = output →
        threadReduce config size inputVecSize fuel data thread = some (visits thread)) ∧
      ((config.launch.filter (config.outputIdx · = output)).flatMap visits).Perm
        ((List.range config.numInputs).map (visit size data)) := by
  have each : ∀ thread : Thread, ∃ indices : List Nat,
      config.Runs thread → config.outputIdx thread = output →
        threadReduce config size inputVecSize fuel data thread =
          some (indices.map (visit size data)) ∧
        indices.Nodup ∧ ∀ i, i ∈ indices ↔ i < config.numInputs ∧
          owner (misalignment size inputVecSize data) inputVecSize config.stepInput
            (align config size inputVecSize data) i = config.inputIdx thread := by
    intro thread
    by_cases runs : config.Runs thread
    · by_cases own : config.outputIdx thread = output
      · obtain ⟨indices, spec⟩ := threadReduce_visits narrow fits small room enough chosen runs
          (by omega) lanes
        exact ⟨indices, fun _ _ => spec⟩
      · exact ⟨[], fun _ also => absurd also own⟩
    · exact ⟨[], fun also => absurd also runs⟩
  choose indices spec using each
  refine ⟨fun thread => (indices thread).map (visit size data), fun thread member own =>
    (spec thread (mem_launch.mp member) own).1, ?_⟩
  rw [← map_flatMap]
  refine Perm.map _ ?_
  have workers : ∀ thread ∈ config.launch.filter (config.outputIdx · = output),
      config.Runs thread ∧ config.outputIdx thread = output := by
    intro thread member
    obtain ⟨launched, own⟩ := mem_filter.mp member
    exact ⟨mem_launch.mp launched, of_decide_eq_true own⟩
  refine (perm_ext_iff_of_nodup ?_ nodup_range).mpr fun i => ?_
  · refine Visits.nodup_flatMap (fun i => worker config split output
      (owner (misalignment size inputVecSize data) inputVecSize config.stepInput
        (align config size inputVecSize data) i)) ((launch_nodup config).filter _)
      (fun thread member => ?_) fun thread member i visited => ?_
    · obtain ⟨runs, own⟩ := workers thread member
      exact (spec thread runs own).2.1
    · obtain ⟨runs, own⟩ := workers thread member
      rw [((spec thread runs own).2.2 i |>.mp visited).2, ← own]
      exact (worker_of chosen runs).2
  · rw [mem_flatMap, mem_range]
    constructor
    · rintro ⟨thread, member, visited⟩
      obtain ⟨runs, own⟩ := workers thread member
      exact ((spec thread runs own).2.2 i |>.mp visited).1
    · intro inside
      have starts : owner (misalignment size inputVecSize data) inputVecSize config.stepInput
          (align config size inputVecSize data) i < config.stepInput :=
        owner_lt lanes (narrow.trans (blockWidth_le_stepInput chosen)) (by omega) small inside
      obtain ⟨runs, own, start⟩ := worker_spec chosen isOutput starts
      refine ⟨_, mem_filter.mpr ⟨mem_launch.mpr runs, decide_eq_true own⟩, ?_⟩
      exact ((spec _ runs own).2.2 i).mpr ⟨inside, start.symm⟩

end Cover

/-- An input that is read in vectors is covered: whatever the length of the slices, the addresses at
which they start and the block, the threads of an output read each element of its slice once, under
its own index, and nothing else; their loops end. Vectors have 4 or 8 elements, and warps no fewer
threads. -/
theorem input_vectorized_reduce_covers (device : DeviceProperties) (iter : TensorIterator)
    (argSize size inputVecSize : Nat) (lanes : 0 < inputVecSize ∧ inputVecSize ≤ 8)
    (warps : inputVecSize ≤ device.warpSize) (small : iter.numel < 2 ^ 31) :
    let config := setReduceConfig device iter argSize size inputVecSize
    config.vectorizeInput = true → ∀ output < config.numOutputs, ∀ data fuel,
      config.numInputs < fuel →
      ∃ visits : Thread → List Visit, (∀ thread ∈ config.launch, config.outputIdx thread = output →
          threadReduce config size inputVecSize fuel data thread = some (visits thread)) ∧
        ((config.launch.filter (config.outputIdx · = output)).flatMap visits).Perm
          ((range config.numInputs).map (visit size data)) := by
  intro config given output isOutput data fuel enough
  obtain ⟨_, _, inputs, onInput, split, chosen, alongInput⟩ :=
    setReduceConfig_chosen device iter argSize size inputVecSize (by omega)
  obtain ⟨rfl, vectorized⟩ := alongInput given
  have most := div_le_self iter.numel iter.numOutputElements
  rw [← inputs] at most
  change config.Vectorized device.warpSize inputVecSize at vectorized
  change config.Chosen true split at chosen
  change config.numInputs ≤ iter.numel at most
  obtain ⟨long, block, wide⟩ := vectorized
  have step := stepInput_le chosen
  have vectors : 16 ≤ config.numInputs / inputVecSize := by
    rw [le_div_iff_mul_le lanes.1]
    omega
  have fewer := div_le_self config.numInputs inputVecSize
  have room := mul_le_mul_left config.stepInput lanes.2
  exact launch_visits (by omega) (by omega) (by omega) (by omega) enough chosen isOutput lanes.1

/-- Two rows of 129 elements, the second of which starts at an odd element. -/
theorem input_vectorized_reduce_covers_sample :
    let config := setReduceConfig ⟨32, 16, 2048⟩ ⟨[129, 2], [0, 4], [4, 516], 0⟩ 4 4 4
    ∃ visits : Thread → List Visit, (∀ thread ∈ config.launch, config.outputIdx thread = 1 →
        threadReduce config 4 4 130 516 thread = some (visits thread)) ∧
      ((config.launch.filter (config.outputIdx · = 1)).flatMap visits).Perm
        ((range 129).map (visit 4 516)) :=
  input_vectorized_reduce_covers ⟨32, 16, 2048⟩ ⟨[129, 2], [0, 4], [4, 516], 0⟩ 4 4 4 (by decide)
    (by decide) (by decide) (by decide) 1 (by decide) 516 130 (by decide)

end TorchSupa.Aten.Reduce
