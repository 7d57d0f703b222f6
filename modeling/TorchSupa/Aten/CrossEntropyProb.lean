import TorchSupa.Aten.CrossEntropyRows
import TorchSupa.Logic.BlockReduction

/-!
`cross_entropy_prob_kernel`: the threads of a block make three reductions over a row, and the last
two share the scratch array of `block_reduce_sum`. No barrier stands between the end of one call,
where every thread reads cell 0, and the beginning of the next, where the first thread writes it.
-/

namespace TorchSupa.Aten.CrossEntropy

open Reduction BlockReduction Nat

structure ProbRow (α : Type) where
  classes : Nat
  rowInput : Nat → α
  rowTarget : Nat → α

section Definitions

variable {α : Type} [Field α] [LinearOrder α] (functions : Functions α) (row : ProbRow α)

def localLoss (logDenom : α) (columns : List Nat) : α :=
  columns.foldl (fun loss col => loss + row.rowTarget col * (logDenom - row.rowInput col)) 0

def passes (threads tid : Nat) : List (WithBot α) → WithBot α
  | [] => localMax ((strided tid threads row.classes).map row.rowInput)
  | [rowMax] =>
    (localSum functions (finite rowMax) ((strided tid threads row.classes).map row.rowInput) : α)
  | rowMax :: expSum :: _ =>
    (localLoss row (functions.logf (finite expSum) + finite rowMax)
      (strided tid threads row.classes) : α)

/-- `block_reduce_max`, `block_reduce_sum`, `block_reduce_sum`: an array for each function. -/
def probKernel (logThreads : Nat) : Kernel (WithBot α) where
  logThreads := logThreads
  calls := 3
  array call := if call = 0 then 0 else 1
  combine call :=
    if call = 0 then .select fun value rhs => decide (rhs < value) else .fold (· + ·)
  value tid results := passes functions row (2 ^ logThreads) tid results

def UsesResult (tid call : Nat) : Prop := if call < 2 then tid < row.classes else tid = 0

def IsResult (threads : Nat) (values : Nat → WithBot α) (call : Nat) (result : WithBot α) : Prop :=
  if call = 0 then IsGreatest {value | ∃ tid < threads, values tid = value} result
  else result = ((List.range threads).map values).sum

end Definitions

def ReductionsApart (logThreads classes : Nat) : Prop :=
  ∀ (rowInput rowTarget : Nat → ℝ) block,
    (probKernel realFunctions ⟨classes, rowInput, rowTarget⟩ logThreads).Run block →
    ∀ tid < 2 ^ logThreads, ∀ call < 3, UsesResult ⟨classes, rowInput, rowTarget⟩ tid call →
    ∀ result, (block.threads tid).results[call]? = some result →
      IsResult (2 ^ logThreads) (block.values call) call result

section Trees

variable {β : Type} [LinearOrder β]

theorem tree_max_greatest (k : Nat) : ∀ scratch : Nat → β,
    IsGreatest {value | ∃ tid < 2 ^ k, scratch tid = value} (tree max (halvings k) scratch 0) := by
  induction k with
  | zero =>
    refine fun scratch => ⟨⟨0, Nat.one_pos, rfl⟩, ?_⟩
    rintro _ ⟨tid, small, rfl⟩
    exact le_of_eq (congrArg scratch (Nat.lt_one_iff.mp small))
  | succ k ih =>
    intro scratch
    obtain ⟨⟨tid, small, found⟩, above⟩ := ih fun thread =>
      if thread < 2 ^ k then max (scratch thread) (scratch (thread + 2 ^ k)) else scratch thread
    change IsGreatest _ (tree max (halvings k) _ 0)
    simp only [if_pos small] at found
    constructor
    · rcases max_choice (scratch tid) (scratch (tid + 2 ^ k)) with low | high
      · exact ⟨tid, by omega, low.symm.trans found⟩
      · exact ⟨tid + 2 ^ k, by omega, high.symm.trans found⟩
    · rintro _ ⟨other, inside, rfl⟩
      by_cases low : other < 2 ^ k
      · have bound := above ⟨other, low, rfl⟩
        rw [if_pos low] at bound
        exact le_trans (le_max_left _ _) bound
      · have bound := above ⟨other - 2 ^ k, by omega, rfl⟩
        rw [if_pos (by omega : other - 2 ^ k < 2 ^ k), Nat.sub_add_cancel (by omega)] at bound
        exact le_trans (le_max_right _ _) bound

end Trees

section Proofs

variable (row : ProbRow ℝ) (logThreads : Nat)

theorem combine_tree (call : Nat) (values : Nat → WithBot ℝ) : IsResult (2 ^ logThreads) values call
      (tree ((probKernel realFunctions row logThreads).combine call).op (halvings logThreads)
        values 0) := by
  unfold IsResult probKernel
  by_cases first : call = 0
  · have op : (Combine.select fun value rhs : WithBot ℝ => decide (rhs < value)).op = max := by
      rw [← larger_eq_max]
      funext value rhs
      simp only [Combine.op, larger, decide_eq_true_eq]
    simp only [if_pos first, op]
    exact tree_max_greatest logThreads values
  · simp only [if_neg first, Combine.op]
    exact @tree_eq_total _ HAdd.hAdd (0 : WithBot ℝ) inferInstance inferInstance inferInstance
      logThreads values

variable {row logThreads}

theorem result_of_trusted {block : Block (WithBot ℝ)}
    (run : (probKernel realFunctions row logThreads).Run block) {tid call : Nat}
    (small : tid < 2 ^ logThreads) (trusted : tid = 0 ∨ call = 0 ∨ call = 2) {result : WithBot ℝ}
    (read : (block.threads tid).results[call]? = some result) :
    IsResult (2 ^ logThreads) (block.values call) call result := by
  obtain ⟨inside, -⟩ := List.getElem?_eq_some_iff.mp read
  have found := run.result (by decide : 0 < 3) small inside
    (trusted.imp_right fun either => either.elim
      (fun zero => .inr (by subst zero; exact zero_ne_one))
      fun two => .inl (congrArg (· + 1) two))
  rw [read] at found
  rw [Option.some.inj found]
  exact combine_tree row logThreads call (block.values call)

def zeros (classes : Nat) : ProbRow ℝ := ⟨classes, fun _ => 0, fun _ => 0⟩

theorem localLoss_zeros (classes : Nat) (logDenom : ℝ) (columns : List Nat) :
    localLoss (zeros classes) logDenom columns = 0 := by
  induction columns with
  | nil => rfl
  | cons col columns ih =>
    change columns.foldl _ _ = 0
    simp [zeros]

open List

theorem localSum_nonneg (rowMax : ℝ) (values : List ℝ) :
    0 ≤ localSum realFunctions rowMax values := by
  rw [localSum_eq]
  refine sum_nonneg fun value inside => ?_
  obtain ⟨_, -, rfl⟩ := mem_map.mp inside
  exact (Real.exp_pos _).le

theorem localSum_pos (rowMax : ℝ) {values : List ℝ} (some_ : values ≠ []) :
    0 < localSum realFunctions rowMax values := by
  rw [localSum_eq]
  refine sum_pos _ (fun value inside => ?_) (by simpa using some_)
  obtain ⟨_, -, rfl⟩ := mem_map.mp inside
  exact Real.exp_pos _

theorem exp_sum_ne_zero {classes : Nat} (some_ : 0 < classes) {values : Nat → WithBot ℝ}
    (passed : ∀ tid < 2 ^ logThreads, ∃ rowMax,
      values tid = passes realFunctions (zeros classes) (2 ^ logThreads) tid [rowMax]) :
    ((List.range (2 ^ logThreads)).map values).sum ≠ 0 := by
  have nonneg : ∀ value ∈ (List.range (2 ^ logThreads)).map values, (0 : WithBot ℝ) ≤ value := by
    intro value inside
    obtain ⟨tid, small, rfl⟩ := mem_map.mp inside
    obtain ⟨rowMax, found⟩ := passed tid (mem_range.mp small)
    rw [found]
    exact WithBot.coe_nonneg.mpr (localSum_nonneg _ _)
  have first : values 0 ∈ (List.range (2 ^ logThreads)).map values :=
    mem_map_of_mem (mem_range.mpr (Nat.two_pow_pos _))
  have positive : 0 < values 0 := by
    obtain ⟨rowMax, found⟩ := passed 0 (Nat.two_pow_pos _)
    rw [found]
    refine WithBot.coe_pos.mpr (localSum_pos _ fun none_ => ?_)
    have col : 0 ∈ strided 0 (2 ^ logThreads) classes :=
      (mem_strided (Nat.two_pow_pos _) (Nat.two_pow_pos _)).mpr ⟨some_, Nat.zero_mod _⟩
    exact ne_nil_of_mem col (map_eq_nil_iff.mp none_)
  exact ne_of_gt (positive.trans_le (single_le_sum nonneg _ first))

theorem second_thread_late {classes : Nat} (some_ : 0 < classes) (positive : 0 < logThreads) :
    ∃ block, (probKernel realFunctions (zeros classes) logThreads).Run block ∧
      (block.threads 1).results[1]? = some 0 ∧
      ((List.range (2 ^ logThreads)).map (block.values 1)).sum ≠ 0 := by
  set kernel := probKernel realFunctions (zeros classes) logThreads with kernelDef
  have calls : kernel.calls = 3 := rfl
  have some_calls : 0 < kernel.calls := by omega
  have zero : 0 < 2 ^ kernel.logThreads := Nat.two_pow_pos _
  have one : 1 < 2 ^ kernel.logThreads := Nat.one_lt_two_pow positive.ne'
  obtain ⟨block, run, waits⟩ :=
    kernel.reaches_barrier (fun _ _ => 0) 1 kernel.logThreads (by omega) (Nat.le_refl _)
  have complete : ∀ tid < 2 ^ kernel.logThreads, kernel.Complete block (block.threads tid) := by
    intro tid small other small'
    obtain ⟨-, call, round⟩ := waits tid small
    obtain ⟨waiting, call', round'⟩ := waits other small'
    refine .inr ⟨?_, by rw [waiting]; rfl⟩
    rw [Kernel.phase, Kernel.phase, call, round, call', round']
  obtain ⟨ahead, run, others, waiting, call, round⟩ :=
    run.cross zero (waits 0 zero).1 (by rw [(waits 0 zero).2.1]; omega) (complete 0 zero)
  have past : ¬ (block.threads 0).round < kernel.logThreads := (waits 0 zero).2.2.not_lt
  replace call : (ahead.threads 0).call = 2 := by
    rw [call, Kernel.next, if_neg past, (waits 0 zero).2.1]
  replace round : (ahead.threads 0).round = 0 := by rw [round, Kernel.next, if_neg past]
  have sound := run.sound some_calls
  -- cell 0 now holds what the first thread has passed to the last call
  have scratch : ahead.scratch 1 0 = 0 := by
    have held := (sound.holds 0 zero).waits (by rw [waiting]) (by rw [call]; omega)
    have placed := sound.placed 0 zero
    have made := @Kernel.Run.passed _ _ _ _ run some_calls 0 2 zero (by
      rw [placed.passed, waiting, call, calls]
      decide)
    have count : (ahead.threads 0).results.length = 2 := by
      rw [placed.results, waiting, call]
      rfl
    obtain ⟨rowMax, expSum, two⟩ := length_eq_two.mp count
    rw [call, round, content_zero] at held
    refine held.trans (made.trans ?_)
    rw [two]
    exact congrArg WithBot.some (localLoss_zeros classes _ _)
  have second : ahead.threads 1 = block.threads 1 := others 1 Nat.one_ne_zero
  obtain ⟨waiting', call', round'⟩ := waits 1 one
  have complete' : kernel.Complete ahead (ahead.threads 1) := by
    intro other small
    rw [second]
    by_cases first : other = 0
    · subst first
      refine .inl ?_
      rw [Kernel.phase, Kernel.phase, call, round, call', round']
      change 1 * _ + _ < (1 + 1) * _ + 0
      omega
    · rw [others other first]
      exact complete 1 one other small
  obtain ⟨after, run, others', late⟩ := run.takeResult one (by rw [second, waiting'])
    (by rw [second, call']; omega) (by rw [second, round']) complete'
  have count : (ahead.threads 1).results.length = 1 := by
    rw [(sound.placed 1 one).results, second, waiting', call']
    rfl
  refine ⟨after, run, ?_, exp_sum_ne_zero some_ fun tid small => ?_⟩
  · rw [late]
    change ((ahead.threads 1).results ++ [ahead.scratch _ 0])[1]? = _
    rw [getElem?_append_right count.le, count, second, call']
    exact congrArg some scratch
  · have placed := (run.sound some_calls).placed tid small
    have beyond : (after.threads tid).call = 2 ∨
        (after.threads tid).call = 1 ∧ (after.threads tid).stage = .waiting := by
      by_cases isOne : tid = 1
      · rw [isOne, late, second, call']
        exact .inl rfl
      rw [others' tid isOne]
      by_cases isZero : tid = 0
      · rw [isZero, call]
        exact .inl rfl
      · rw [others tid isZero]
        exact .inr ⟨(waits tid small).2.1, (waits tid small).1⟩
    have made : 1 < (after.threads tid).passed.length ∧ 1 ≤ (after.threads tid).results.length := by
      rw [placed.passed, placed.results]
      obtain two | ⟨one_, still⟩ := beyond
      · rw [two]
        constructor
        · omega
        · split_ifs <;> omega
      · rw [one_, still, calls]
        simp
    obtain ⟨rowMax, rest, results⟩ := exists_cons_of_length_pos made.2
    refine ⟨rowMax, (run.passed some_calls small made.1).trans ?_⟩
    rw [results]
    rfl

theorem second_thread_disturbed {logThreads classes : Nat} (positive : 0 < logThreads)
    (columns : 1 < classes) : ¬ ReductionsApart logThreads classes := by
  intro apart
  obtain ⟨block, run, read, wrong⟩ := second_thread_late (zero_lt_of_lt columns) positive
  have uses : UsesResult (zeros classes) 1 1 := columns
  exact wrong (apart _ _ block run 1 (Nat.one_lt_two_pow positive.ne') 1 (by decide) uses 0 read).symm

/-- The calls do not interfere exactly if only the first thread uses the first sum. -/
theorem reductions_apart_iff (logThreads classes : Nat) :
    ReductionsApart logThreads classes ↔ classes ≤ 1 ∨ logThreads = 0 := by
  constructor
  · intro apart
    by_contra more
    exact second_thread_disturbed (by omega) (by omega) apart
  · intro alone rowInput rowTarget block run tid small call inside uses result read
    refine result_of_trusted run small ?_ read
    unfold UsesResult at uses
    by_cases last : call = 2
    · exact Or.inr (Or.inr last)
    · rw [if_pos (by omega)] at uses
      obtain narrow | one_ := alone
      · exact Or.inl (by simp only at uses; omega)
      · rw [one_] at small
        exact Or.inl (lt_one_iff.mp small)

/-- A block of 256 threads and a row of two classes. -/
theorem two_classes_interfere : ¬ ReductionsApart 8 2 :=
  second_thread_disturbed (by decide) (by decide)

end Proofs

end TorchSupa.Aten.CrossEntropy
