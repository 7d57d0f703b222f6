import TorchSupa.Aten.ReduceConfig
import Mathlib.Data.List.TakeWhile

/-!
The memory that the threads of a reduction share: what they access of the shared memory of their
block, of the staging buffer and of the semaphores lies within what the host has allocated for it.
-/

namespace TorchSupa.Aten.Reduce

open List Nat

inductive Access
  | shared (index : Nat)
  | staging (index : Nat)
  | semaphore (index : Nat)
deriving DecidableEq, Repr

section Accesses

def halvings (first last : Nat) : List Nat :=
  ((List.range 31).map fun turn => first >>> turn).takeWhile (last ≤ ·)

def strided (start step bound : Nat) : List Nat :=
  ((List.range bound).map fun turn => start + step * turn).takeWhile (· < bound)

variable (config : ReduceConfig) (warpSize : Nat) (thread : Thread)

def blockXReduce : List Access :=
  let addressBase := thread.threadX + thread.threadY * config.blockWidth
  if warpSize < config.blockWidth then
    .shared addressBase :: (halvings (config.blockWidth / 2) warpSize).flatMap fun offset =>
      if thread.threadX < offset ∧ thread.threadX + offset < config.blockWidth then
        [.shared (addressBase + offset), .shared addressBase]
      else []
  else []

def blockYReduce : List Access :=
  .shared (config.sharedMemoryOffset thread 0) ::
    (halvings (config.blockHeight / 2) 1).flatMap fun offset =>
      if thread.threadY < offset ∧ thread.threadY + offset < config.blockHeight then
        [.shared (config.sharedMemoryOffset thread offset),
          .shared (config.sharedMemoryOffset thread 0)]
      else []

def stagingStore : List Nat :=
  if config.shouldStore thread (config.outputIdx thread) then
    [config.stagingMemoryOffset thread thread.blockY]
  else []

def stagingLoads : List Nat :=
  (if config.shouldBlockXReduce then
    strided (thread.threadX + thread.threadY * config.blockWidth)
      (config.blockWidth * config.blockHeight) config.ctasPerOutput
  else strided thread.threadY config.blockHeight config.ctasPerOutput).map
    (config.stagingMemoryOffset thread)

def markBlockFinished : List Access :=
  if thread.threadX = 0 ∧ thread.threadY = 0 then [.semaphore thread.blockX] else []

def globalReduce : List Access :=
  (stagingStore config thread).map .staging ++ markBlockFinished thread ++
    (stagingLoads config thread).map .staging ++ blockYReduce config thread ++
      if config.shouldBlockXReduce then blockXReduce config warpSize thread else []

def run : List Access :=
  (if config.shouldBlockXReduce then blockXReduce config warpSize thread else []) ++
    (if config.shouldBlockYReduce then blockYReduce config thread else []) ++
      if config.shouldGlobalReduce then globalReduce config warpSize thread else []

def Access.Inside : Access → Prop
  | .shared index => (index + 1) * (config.elementSizeBytes * config.outputVecSize) ≤
      config.sharedMemorySize warpSize ∧ index < 2 ^ 31
  | .staging index => (index + 1) * (config.elementSizeBytes * config.outputVecSize) ≤
      config.globalMemorySize ∧ index < 2 ^ 31
  | .semaphore index => (index + 1) * 4 ≤ config.semaphoreSize ∧ index < 2 ^ 31

end Accesses

section Shared

variable {config : ReduceConfig} {warpSize : Nat} {thread : Thread} {onInput split : Bool}

variable (chosen : config.Chosen onInput split)
include chosen

theorem shared_inside (used : config.shouldBlockYReduce = true ∨
      config.shouldBlockXReduce = true ∧ warpSize < config.blockWidth) {index : Nat}
    (place : index < config.blockWidth * config.blockHeight) :
    (Access.shared index).Inside config warpSize := by
  have size : config.sharedMemorySize warpSize =
      config.elementSizeBytes * config.numThreads * config.outputVecSize := by
    refine if_neg ?_
    rcases used with rows | ⟨lanes, wide⟩
    · simp [rows]
    · simp [lanes, not_le.mpr wide]
  have threads := chosen.threads
  rw [chosen.numThreads] at threads
  refine ⟨?_, by omega⟩
  rw [size, chosen.numThreads]
  calc (index + 1) * (config.elementSizeBytes * config.outputVecSize)
      ≤ config.blockWidth * config.blockHeight * (config.elementSizeBytes * config.outputVecSize) :=
        mul_le_mul_right _ place
    _ = config.elementSizeBytes * (config.blockWidth * config.blockHeight) * config.outputVecSize := by
        ring

theorem blockXReduce_inside (runs : config.Runs thread) (used : config.shouldBlockXReduce = true) :
    ∀ access ∈ blockXReduce config warpSize thread, access.Inside config warpSize := by
  obtain ⟨col, row, _, _⟩ := runs
  intro access member
  unfold blockXReduce at member
  split at member
  · next wide =>
      have inside := fun {index} => @shared_inside config warpSize onInput split chosen
        (.inr ⟨used, wide⟩) index
      rcases mem_cons.mp member with rfl | later
      · exact inside (place_lt col row)
      · obtain ⟨offset, _, accessed⟩ := mem_flatMap.mp later
        split at accessed
        · next within =>
            simp only [mem_cons, not_mem_nil, or_false] at accessed
            rcases accessed with rfl | rfl
            · refine inside ?_
              have place := place_lt within.2 row
              omega
            · exact inside (place_lt col row)
        · cases accessed
  · cases member

theorem blockYReduce_inside (runs : config.Runs thread) (used : config.shouldBlockYReduce = true) :
    ∀ access ∈ blockYReduce config thread, access.Inside config warpSize := by
  obtain ⟨col, row, _, _⟩ := runs
  have inside := fun {index} => @shared_inside config warpSize onInput split chosen
    (.inl used) index
  have own : config.sharedMemoryOffset thread 0 < config.blockWidth * config.blockHeight :=
    place_lt col row
  intro access member
  rcases mem_cons.mp member with rfl | later
  · exact inside own
  · obtain ⟨offset, _, accessed⟩ := mem_flatMap.mp later
    split at accessed
    · next within =>
        simp only [mem_cons, not_mem_nil, or_false] at accessed
        rcases accessed with rfl | rfl
        · exact inside (place_lt col within.2)
        · exact inside own
    · cases accessed

end Shared

section Staging

variable {config : ReduceConfig} {warpSize : Nat} {thread : Thread} {onInput split : Bool}

theorem blocks_few (chosen : config.Chosen onInput split)
    (used : config.shouldGlobalReduce = true) :
    split = true ∧ 0 < config.ctasPerOutput ∧ 2 * config.ctasPerOutput ≤ config.numInputs := by
  have positive : config.inputMultCta ≠ 0 := of_decide_eq_true used
  rcases chosen.ctas with ⟨none, _⟩ | ⟨isSplit, _, several, _, values, few⟩
  · exact absurd none positive
  · have lanes : 0 < config.inputLanes onInput split := by
      have width := chosen.width
      have height := chosen.height
      refine mul_pos ?_ ?_ <;> split <;> omega
    have most := @divUp_le config.numInputs _ lanes
    generalize divUp config.numInputs (config.inputLanes onInput split) = perThread at values few most
    unfold divUp at few
    exact ⟨isSplit, by omega, by omega⟩

theorem stepOutput_eq (chosen : config.Chosen onInput true) :
    config.stepOutput = if onInput then 1 else config.blockWidth := by
  rw [chosen.stepOutput]
  unfold ReduceConfig.outputLanes
  rw [if_pos rfl, mul_one]

theorem blockYReduce_of_global (chosen : config.Chosen onInput split)
    (used : config.shouldGlobalReduce = true) : config.shouldBlockYReduce = true := by
  obtain ⟨rfl, _, _⟩ := blocks_few chosen used
  unfold ReduceConfig.shouldBlockYReduce
  rw [chosen.inputMultY, if_pos rfl]
  have width := chosen.width
  refine decide_eq_true ?_
  split <;> omega

def slots (config : ReduceConfig) : Nat :=
  config.gridX * config.ctasPerOutput * if config.shouldBlockXReduce then 1 else config.blockWidth

section

variable (chosen : config.Chosen onInput split)
include chosen

theorem blockXReduce_iff : config.shouldBlockXReduce = onInput := by
  unfold ReduceConfig.shouldBlockXReduce
  rw [chosen.inputMultX]
  cases onInput <;> rfl

theorem gridX_le : config.gridX ≤ config.numOutputs := by
  have width := chosen.width
  have height := chosen.height
  refine (divUp_le ?_).trans (div_le_self _ _)
  rw [chosen.stepOutput]
  refine mul_pos ?_ ?_ <;> split <;> omega

theorem slots_bytes (used : config.shouldGlobalReduce = true) :
    slots config * (config.elementSizeBytes * config.outputVecSize) ≤ config.globalMemorySize := by
  have few := gridX_le chosen
  unfold slots ReduceConfig.globalMemorySize
  rw [if_pos used]
  cases lanes : config.shouldBlockXReduce with
  | true =>
    rw [blockXReduce_iff chosen] at lanes
    have scaled := mul_le_mul_right (config.ctasPerOutput * config.elementSizeBytes) few
    rw [chosen.single lanes, if_pos rfl, if_pos rfl]
    calc config.gridX * config.ctasPerOutput * 1 * (config.elementSizeBytes * 1)
        = config.gridX * (config.ctasPerOutput * config.elementSizeBytes) := by ring
      _ ≤ config.numOutputs * (config.ctasPerOutput * config.elementSizeBytes) := scaled
      _ = config.elementSizeBytes * config.numOutputs * config.ctasPerOutput := by ring
  | false =>
    have scaled := mul_le_mul_right (config.ctasPerOutput * config.elementSizeBytes *
      (config.blockWidth * config.outputVecSize)) few
    rw [if_neg (by decide), if_neg (by decide)]
    calc config.gridX * config.ctasPerOutput * config.blockWidth *
          (config.elementSizeBytes * config.outputVecSize)
        = config.gridX * (config.ctasPerOutput * config.elementSizeBytes *
          (config.blockWidth * config.outputVecSize)) := by ring
      _ ≤ config.numOutputs * (config.ctasPerOutput * config.elementSizeBytes *
          (config.blockWidth * config.outputVecSize)) := scaled
      _ = config.elementSizeBytes * config.numOutputs * config.ctasPerOutput *
          (config.blockWidth * config.outputVecSize) := by ring

theorem slots_le (used : config.shouldGlobalReduce = true) :
    slots config ≤ config.numOutputs * config.numInputs := by
  obtain ⟨isSplit, _, few⟩ := blocks_few chosen used
  subst isSplit
  have columns : config.gridX * (if config.shouldBlockXReduce then 1 else config.blockWidth) ≤
      2 * config.numOutputs := by
    rw [blockXReduce_iff chosen]
    cases onInput with
    | true =>
      have grid := gridX_le chosen
      rw [if_pos rfl]
      omega
    | false =>
      have narrow := chosen.narrow rfl
      have width := chosen.width
      have step := stepOutput_eq chosen
      rw [if_neg (by decide)] at step ⊢
      have outputs := Nat.div_le_self config.numOutputs config.outputVecSize
      rcases Nat.eq_zero_or_pos config.gridX with none | some
      · rw [none]
        omega
      · have last := (@lt_divUp (config.numOutputs / config.outputVecSize) _ (config.gridX - 1)
          width).mp (by
            rw [← step]
            exact Nat.sub_lt some Nat.one_pos)
        obtain ⟨less, grid⟩ := Nat.exists_eq_add_of_lt some
        rw [grid] at last ⊢
        rw [Nat.add_sub_cancel, Nat.zero_add] at last
        rw [Nat.zero_add, Nat.add_mul, Nat.one_mul]
        omega
  calc config.gridX * config.ctasPerOutput *
        (if config.shouldBlockXReduce then 1 else config.blockWidth)
      = config.gridX * (if config.shouldBlockXReduce then 1 else config.blockWidth) *
        config.ctasPerOutput := by ring
    _ ≤ 2 * config.numOutputs * config.ctasPerOutput := Nat.mul_le_mul_right _ columns
    _ = config.numOutputs * (2 * config.ctasPerOutput) := by ring
    _ ≤ config.numOutputs * config.numInputs := Nat.mul_le_mul_left _ few

end

theorem staging_lt (runs : config.Runs thread) {cta2 : Nat} (inside : cta2 < config.ctasPerOutput) :
    config.stagingMemoryOffset thread cta2 < slots config := by
  obtain ⟨col, _, block, _⟩ := runs
  have place : cta2 + thread.blockX * config.ctasPerOutput <
      config.ctasPerOutput * config.gridX := place_lt inside block
  unfold ReduceConfig.stagingMemoryOffset slots
  split
  · rw [mul_one, mul_comm config.gridX]
    exact place
  · calc thread.threadX + (cta2 + thread.blockX * config.ctasPerOutput) * config.blockWidth
        < config.blockWidth * (config.ctasPerOutput * config.gridX) := place_lt col place
      _ = config.gridX * config.ctasPerOutput * config.blockWidth := by ring

theorem staging_inside (chosen : config.Chosen onInput split)
    (used : config.shouldGlobalReduce = true) (small : config.numOutputs * config.numInputs < 2 ^ 31)
    {index : Nat} (inside : index < slots config) : (Access.staging index).Inside config warpSize := by
  have few := slots_le chosen used
  exact ⟨(mul_le_mul_right _ inside).trans (slots_bytes chosen used), by omega⟩

theorem semaphore_inside (chosen : config.Chosen onInput split)
    (used : config.shouldGlobalReduce = true) (small : config.numOutputs * config.numInputs < 2 ^ 31)
    {block : Nat} (inside : block < config.gridX) :
    (Access.semaphore block).Inside config warpSize := by
  have few := gridX_le chosen
  obtain ⟨_, positive, some⟩ := blocks_few chosen used
  have one := mul_le_mul_left config.numOutputs (show 1 ≤ config.numInputs by omega)
  refine ⟨?_, by omega⟩
  unfold ReduceConfig.semaphoreSize
  rw [if_pos used, mul_comm]
  exact mul_le_mul_left _ inside

theorem lt_of_strided {start step bound place : Nat} (member : place ∈ strided start step bound) :
    place < bound := by
  have below := mem_takeWhile_imp member
  simpa using below

variable (chosen : config.Chosen onInput split)
include chosen

theorem globalReduce_inside (runs : config.Runs thread) (used : config.shouldGlobalReduce = true)
    (small : config.numOutputs * config.numInputs < 2 ^ 31) :
    ∀ access ∈ globalReduce config warpSize thread, access.Inside config warpSize := by
  have rows := blockYReduce_of_global chosen used
  intro access member
  simp only [globalReduce, mem_append, mem_map] at member
  rcases member with (((⟨index, stored, rfl⟩ | marked) | ⟨index, loaded, rfl⟩) | shared) | lanes
  · unfold stagingStore at stored
    split at stored
    · obtain rfl := mem_singleton.mp stored
      exact staging_inside chosen used small (staging_lt runs runs.2.2.2)
    · cases stored
  · unfold markBlockFinished at marked
    split at marked
    · obtain rfl := mem_singleton.mp marked
      exact semaphore_inside chosen used small runs.2.2.1
    · cases marked
  · obtain ⟨place, strided, rfl⟩ := mem_map.mp loaded
    refine staging_inside chosen used small (staging_lt runs ?_)
    split at strided
    · exact lt_of_strided strided
    · exact lt_of_strided strided
  · exact blockYReduce_inside chosen runs rows access shared
  · split at lanes
    · next onX => exact blockXReduce_inside chosen runs onX access lanes
    · cases lanes

theorem staging_distinct {other : Thread}
    (used : config.shouldGlobalReduce = true) (runs : config.Runs thread) (also : config.Runs other)
    {index : Nat} (here : index ∈ stagingStore config thread)
    (there : index ∈ stagingStore config other) :
    thread = other := by
  have rows := blockYReduce_of_global chosen used
  have stores : ∀ thread : Thread, index ∈ stagingStore config thread →
      (onInput = true → thread.threadX = 0) ∧ thread.threadY = 0 ∧
        config.stagingMemoryOffset thread thread.blockY = index := by
    intro thread stored
    unfold stagingStore ReduceConfig.shouldStore at stored
    split at stored
    · next allowed =>
        rw [blockXReduce_iff chosen, rows] at allowed
        simp only [Bool.and_eq_true, Bool.or_eq_true, Bool.not_eq_true', decide_eq_true_eq,
          Bool.true_eq_false, false_or] at allowed
        refine ⟨fun lanes => ?_, allowed.2, (mem_singleton.mp stored).symm⟩
        rw [lanes] at allowed
        simpa using allowed.1.2
    · cases stored
  obtain ⟨firstX, firstY, first⟩ := stores thread here
  obtain ⟨secondX, secondY, second⟩ := stores other there
  have split_ : ∀ width one two a b : Nat, a < width → b < width →
      a + one * width = b + two * width → a = b ∧ one = two := by
    intro width one two a b small narrow same
    have quotients := congrArg (· / width) same
    have some : 0 < width := by omega
    simp only [add_mul_div_right _ _ some, div_eq_of_lt small, div_eq_of_lt narrow,
      zero_add] at quotients
    subst quotients
    exact ⟨by omega, rfl⟩
  rw [← second] at first
  unfold ReduceConfig.stagingMemoryOffset at first
  rw [blockXReduce_iff chosen] at first
  obtain ⟨threadX, threadY, blockX, blockY⟩ := thread
  obtain ⟨otherX, otherY, otherBlockX, otherBlockY⟩ := other
  obtain ⟨col, _, _, cta⟩ := runs
  obtain ⟨otherCol, _, _, otherCta⟩ := also
  dsimp only at *
  cases onInput with
  | true =>
    obtain ⟨rfl, rfl⟩ := split_ _ _ _ _ _ cta otherCta first
    rw [firstX rfl, secondX rfl, firstY, secondY]
  | false =>
    obtain ⟨rfl, places⟩ := split_ _ _ _ _ _ col otherCol first
    obtain ⟨rfl, rfl⟩ := split_ _ _ _ _ _ cta otherCta places
    rw [firstY, secondY]

theorem run_inside (runs : config.Runs thread)
    (small : config.numOutputs * config.numInputs < 2 ^ 31) :
    ∀ access ∈ run config warpSize thread, access.Inside config warpSize := by
  intro access member
  simp only [run, mem_append] at member
  rcases member with (lanes | rows) | blocks
  · split at lanes
    · next used => exact blockXReduce_inside chosen runs used access lanes
    · cases lanes
  · split at rows
    · next used => exact blockYReduce_inside chosen runs used access rows
    · cases rows
  · split at blocks
    · next used => exact globalReduce_inside chosen runs used small access blocks
    · cases blocks

end Staging

/-- Whatever configuration is chosen, its threads stay within the shared memory, the staging buffer
and the semaphores that the host allocates for it, and blocks and outputs have elements of the
staging buffer of their own. -/
theorem reduce_staging_inside (device : DeviceProperties) (iter : TensorIterator)
    (argSize scalarSize inputVecSize : Nat) (warps : 0 < device.warpSize)
    (small : iter.numel < 2 ^ 31) :
    let config := setReduceConfig device iter argSize scalarSize inputVecSize
    (∀ thread, config.Runs thread → ∀ access ∈ run config device.warpSize thread,
      access.Inside config device.warpSize) ∧
    (config.shouldGlobalReduce = true → ∀ thread other, config.Runs thread → config.Runs other →
      ((thread.blockX, thread.blockY), config.outputIdx thread) ≠
        ((other.blockX, other.blockY), config.outputIdx other) →
      ∀ index ∈ stagingStore config thread, index ∉ stagingStore config other) := by
  intro config
  obtain ⟨_, outputs, inputs, onInput, split, chosen, _⟩ :=
    setReduceConfig_chosen device iter argSize scalarSize inputVecSize warps
  have elements : config.numOutputs * config.numInputs < 2 ^ 31 := by
    have whole := mul_div_le iter.numel iter.numOutputElements
    rw [← inputs, ← outputs] at whole
    exact whole.trans_lt small
  refine ⟨fun thread runs => run_inside chosen runs elements, ?_⟩
  intro used thread other runs also different index here there
  exact different (by rw [staging_distinct chosen used runs also here there])

/-- A sum over all of a long vector, on a device with 16 multiprocessors. -/
theorem reduce_staging_inside_sample :
    let config := setReduceConfig ⟨32, 16, 2048⟩ ⟨[1048576], [0], [4], 0⟩ 4 4 4
    config.shouldGlobalReduce = true ∧
      ∀ thread, config.Runs thread → ∀ access ∈ run config 32 thread, access.Inside config 32 := by
  refine ⟨by decide +kernel, ?_⟩
  exact (reduce_staging_inside ⟨32, 16, 2048⟩ ⟨[1048576], [0], [4], 0⟩ 4 4 4 (by decide)
    (by decide)).1

end TorchSupa.Aten.Reduce
