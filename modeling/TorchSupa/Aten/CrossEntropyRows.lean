import TorchSupa.Aten.CrossEntropyLoss
import TorchSupa.Logic.Lists
import Mathlib.Analysis.SpecialFunctions.Log.Basic

/-!
The loss of one row over the real numbers: every kernel computes the logarithm of the softmax, in
whatever way its threads share the row.
-/

namespace TorchSupa.Aten.CrossEntropy

open Reduction Lists List Nat

noncomputable def realFunctions : Functions ℝ where
  expf := Real.exp
  logf := Real.log

section Largest

variable {β γ : Type} [LinearOrder β]

theorem larger_eq_max : (larger : β → β → β) = max := by
  funext value rhs
  unfold larger
  split
  · next less => rw [max_eq_left (le_of_lt less)]
  · next more => rw [max_eq_right (le_of_not_gt more)]

instance : Std.Commutative (larger : β → β → β) := ⟨fun a b => by
  rw [larger_eq_max]
  exact max_comm a b⟩

instance : Std.Associative (larger : β → β → β) := ⟨fun a b c => by
  rw [larger_eq_max]
  exact max_assoc a b c⟩

instance : Std.LawfulIdentity (larger : WithBot β → WithBot β → WithBot β) ⊥ where
  left_id a := by rw [larger_eq_max, bot_sup_eq]
  right_id a := by rw [larger_eq_max, sup_bot_eq]

theorem coe_larger (one two : β) : ((larger one two : β) : WithBot β) = larger ↑one ↑two := by
  rw [larger_eq_max, larger_eq_max]
  exact WithBot.coe_max one two

theorem butterfly_larger_eq (k : Nat) (values : Nat → β) {lane : Nat} (small : lane < 2 ^ k) :
    butterfly larger (halvings k) values lane = butterfly larger (halvings k) values 0 := by
  have lifted : ∀ other, ((butterfly larger (halvings k) values other : β) : WithBot β) =
      butterfly larger (halvings k) (fun lane => (values lane : WithBot β)) other :=
    fun other => butterfly_map WithBot.some coe_larger _ _ other
  refine WithBot.coe_injective ?_
  rw [lifted, lifted, butterfly_eq_total ⊥ k _ _ small,
    butterfly_eq_total ⊥ k _ _ (Nat.two_pow_pos k)]

end Largest

section Sums

variable {classes : Nat} {scores : Nat → ℝ} {shift : ℝ}

theorem localSum_eq (values : List ℝ) : localSum realFunctions shift values =
      total (· + ·) 0 (values.map fun value => Real.exp (value - shift)) := by
  have folded : (values.map fun value => Real.exp (value - shift)).foldl (· + ·) 0 =
      0 + total (· + ·) 0 (values.map fun value => Real.exp (value - shift)) := foldl_eq_total _ _
  rw [foldl_map, zero_add] at folded
  exact folded

theorem log_sum_exp_shift (some_ : 0 < classes) :
    Real.log (total (· + ·) 0 ((List.range classes).map fun col => Real.exp (scores col - shift))) +
      shift = Real.log ((List.range classes).map fun col => Real.exp (scores col)).sum := by
  have scaled : total (· + ·) 0 ((range classes).map fun col => Real.exp (scores col - shift)) =
      ((range classes).map fun col => Real.exp (scores col)).sum * Real.exp (-shift) := by
    rw [← sum_map_mul_right]
    refine congrArg sum (map_congr_left fun col _ => ?_)
    rw [sub_eq_add_neg, Real.exp_add]
  have positive : 0 < ((range classes).map fun col => Real.exp (scores col)).sum := by
    refine sum_pos _ (fun value there => ?_) fun none_ => ?_
    · obtain ⟨col, _, rfl⟩ := mem_map.mp there
      exact Real.exp_pos _
    · rw [map_eq_nil_iff, range_eq_nil] at none_
      omega
  rw [scaled, Real.log_mul (ne_of_gt positive) (Real.exp_ne_zero _), Real.log_exp]
  ring

theorem total_localSum {threads : Nat} (positive : 0 < threads) :
    total (· + ·) 0 ((List.range threads).map fun thread =>
      localSum realFunctions shift ((strided thread threads classes).map scores)) =
      total (· + ·) 0 ((List.range classes).map fun col => Real.exp (scores col - shift)) := by
  rw [← total_strided classes positive fun col => Real.exp (scores col - shift)]
  refine total_congr fun thread _ => ?_
  rw [localSum_eq, map_map]
  rfl

theorem lanes_log (logLanes : Nat) (maxima : Nat → ℝ) {part : Nat → ℝ} (some_ : 0 < classes)
    (equal : ∀ lane, lane < 2 ^ logLanes → maxima lane = maxima 0)
    (owns : ∀ lane, lane < 2 ^ logLanes → part lane = total (· + ·) 0
      ((strided lane (2 ^ logLanes) classes).map fun col => Real.exp (scores col - maxima lane))) :
    Real.log (butterfly (· + ·) (halvings logLanes) part 0) + maxima 0 =
      Real.log ((List.range classes).map fun col => Real.exp (scores col)).sum := by
  rw [butterfly_eq_total 0 _ _ _ (Nat.two_pow_pos logLanes), ← log_sum_exp_shift some_,
    ← total_strided classes (Nat.two_pow_pos logLanes) fun col => Real.exp (scores col - maxima 0)]
  refine congrArg (fun sum => Real.log sum + maxima 0) (total_congr fun lane inside => ?_)
  have small := mem_range.mp inside
  rw [owns lane small, equal lane small]

end Sums

section Reading

variable {α : Type} {problem : Problem α} {row col : Nat}

def Problem.score (problem : Problem α) (row col : Nat) : α :=
  problem.input (row * problem.classes + col)

theorem targetAt_ok (inside : row < problem.rows) :
    problem.targetAt row = .ok (problem.target row) := if_pos inside

theorem read_ok (inside : row < problem.rows) (small : col < problem.classes) :
    problem.read ((row : Int) * problem.classes + col) = .ok (problem.score row col) := by
  have below : row * problem.classes + col < problem.rows * problem.classes :=
    calc row * problem.classes + col < row * problem.classes + problem.classes :=
          Nat.add_lt_add_left small _
      _ = (row + 1) * problem.classes := (Nat.succ_mul _ _).symm
      _ ≤ problem.rows * problem.classes := mul_le_mul_right _ inside
  have index : (row : Int) * problem.classes + col = ((row * problem.classes + col : Nat) : Int) := by
    push_cast
    rfl
  unfold Problem.read
  rw [index, if_pos ⟨Int.natCast_nonneg _, by exact_mod_cast below⟩, Int.toNat_natCast]
  rfl

theorem load_ok {threads : Nat} {columns : Nat → List Nat} (inside : row < problem.rows)
    (owned : ∀ thread, thread < threads → ∀ col ∈ columns thread, col < problem.classes) :
    problem.load ((row : Int) * problem.classes) threads columns =
      .ok ((List.range threads).map fun thread => (columns thread).map (problem.score row)) := by
  refine mapM_ok fun thread there => mapM_ok fun col held => ?_
  exact read_ok inside (owned thread (mem_range.mp there) col held)

theorem getD_range {threads thread : Nat} {value : Nat → List α} (inside : thread < threads) :
    ((List.range threads).map value).getD thread [] = value thread := by
  rw [getD_eq_getElem?_getD, getElem?_map, getElem?_range inside]
  rfl

end Reading

section Rows

variable {problem : Problem ℝ} {row : Nat}

structure Counts (problem : Problem ℝ) (row : Nat) : Prop where
  inside : row < problem.rows
  nonneg : 0 ≤ problem.target row
  below : problem.target row < problem.classes

theorem Counts.some_ (counts : Counts problem row) : 0 < problem.classes := by
  have nonneg := counts.nonneg
  have below := counts.below
  omega

theorem rowLoss_eq (different : problem.target row ≠ problem.ignoreIndex) :
    rowLoss realFunctions problem row =
      Real.log ((List.range problem.classes).map fun col => Real.exp (problem.score row col)).sum -
        problem.score row (problem.target row).toNat := by
  unfold rowLoss logSoftmax
  rw [if_neg different, neg_sub]
  rfl

theorem read_target (counts : Counts problem row) :
    problem.read ((row : Int) * problem.classes + problem.target row) =
      .ok (problem.score row (problem.target row).toNat) := by
  have nonneg := counts.nonneg
  have below := counts.below
  obtain ⟨target, same⟩ := Int.eq_ofNat_of_zero_le nonneg
  rw [same, Int.toNat_natCast]
  exact read_ok counts.inside (by omega)

theorem strided_below {logThreads thread : Nat} (inside : thread < 2 ^ logThreads) :
    ∀ col ∈ strided thread (2 ^ logThreads) problem.classes, col < problem.classes :=
  fun _ there => ((mem_strided (Nat.two_pow_pos _) inside).mp there).1

theorem indexRow_ignored (logThreads : Nat) (inside : row < problem.rows)
    (ignored : problem.target row = problem.ignoreIndex) :
    indexRow realFunctions problem logThreads row = .ok none := by
  unfold indexRow
  rw [targetAt_ok inside]
  exact if_pos ignored

theorem indexRow_counts (logThreads : Nat) (counts : Counts problem row)
    (different : problem.target row ≠ problem.ignoreIndex) :
    indexRow realFunctions problem logThreads row =
      .ok (some (rowLoss realFunctions problem row)) := by
  unfold indexRow
  rw [targetAt_ok counts.inside]
  refine (if_neg different).trans ((if_pos ⟨counts.nonneg, counts.below⟩).trans ?_)
  dsimp only
  rw [load_ok counts.inside fun thread inside => strided_below inside, read_target counts]
  refine congrArg (fun loss => Except.ok (some loss)) ?_
  have shared : ∀ shift, tree (· + ·) (halvings logThreads) (fun thread =>
      localSum realFunctions shift (((range (2 ^ logThreads)).map fun thread =>
        (strided thread (2 ^ logThreads) problem.classes).map (problem.score row)).getD thread [])) 0 =
      total (· + ·) 0 ((range problem.classes).map fun col =>
        Real.exp (problem.score row col - shift)) := by
    intro shift
    rw [← total_localSum (Nat.two_pow_pos logThreads), tree_eq_total]
    refine total_congr fun thread inside => ?_
    rw [getD_range (mem_range.mp inside)]
  rw [rowLoss_eq different, shared]
  change Real.log _ + _ - _ = _
  rw [log_sum_exp_shift counts.some_]

variable {lane col : Nat}

theorem strided_single {classes : Nat} (few : classes ≤ 32) :
    strided lane 32 classes = if lane < classes then [lane] else [] := by
  unfold strided
  split
  · next below =>
      have once : (classes - lane + 32 - 1) / 32 = 1 := by omega
      rw [once]
      rfl
  · next beyond =>
      have never : (classes - lane + 32 - 1) / 32 = 0 := by omega
      rw [never]
      rfl

theorem small32Row_ignored (inside : row < problem.rows)
    (ignored : problem.target row = problem.ignoreIndex) :
    small32Row realFunctions problem row = .ok none := by
  unfold small32Row
  rw [targetAt_ok inside]
  exact if_pos ignored

theorem small32Row_counts (few : problem.classes ≤ 32) (counts : Counts problem row)
    (different : problem.target row ≠ problem.ignoreIndex) :
    small32Row realFunctions problem row = .ok (some (rowLoss realFunctions problem row)) := by
  unfold small32Row
  rw [targetAt_ok counts.inside]
  refine (if_neg different).trans ((if_pos ⟨counts.nonneg, counts.below⟩).trans ?_)
  dsimp only
  have lanes : (fun lane : Nat => if lane < problem.classes then [lane] else []) =
      fun lane => strided lane 32 problem.classes := funext fun lane => (strided_single few).symm
  rw [lanes, load_ok counts.inside fun lane inside col there =>
    ((mem_strided (by decide) inside).mp there).1, read_target counts]
  refine congrArg (fun loss => Except.ok (some loss)) ?_
  rw [rowLoss_eq different]
  refine congrArg (fun log => log - problem.score row (problem.target row).toNat) ?_
  refine lanes_log 5 (fun lane => finite (butterfly larger (halvings 5)
    (fun lane => localMax (((range 32).map fun thread =>
      (strided thread 32 problem.classes).map (problem.score row)).getD lane [])) lane))
    counts.some_ (fun lane inside => ?_) fun lane inside => ?_
  · exact congrArg finite (butterfly_larger_eq 5 _ inside)
  · have inside : lane < 32 := inside
    rw [getD_range inside, localSum_eq, map_map]
    rfl

theorem register_ok {threads index : Nat} {value : Nat → List ℝ} (inside : lane < threads) :
    register ((List.range threads).map value) lane index = (value lane).getD index 0 := by
  unfold register
  rw [getD_range inside]

theorem index32Row_ignored (inside : row < problem.rows)
    (ignored : problem.target row = problem.ignoreIndex) :
    index32Row realFunctions problem row = .ok none := by
  unfold index32Row
  rw [targetAt_ok inside]
  exact if_pos ignored

theorem index32Row_counts (classes : problem.classes = 32) (counts : Counts problem row)
    (different : problem.target row ≠ problem.ignoreIndex) :
    index32Row realFunctions problem row = .ok (some (rowLoss realFunctions problem row)) := by
  have below := counts.below
  have nonneg := counts.nonneg
  rw [classes] at below
  unfold index32Row
  rw [targetAt_ok counts.inside]
  refine (if_neg different).trans ((if_pos ⟨nonneg, below⟩).trans ?_)
  dsimp only
  have base : (row : Int) * 32 = (row : Int) * problem.classes := by
    rw [classes]
    rfl
  rw [base, load_ok counts.inside fun lane inside col there => by
    rw [mem_singleton.mp there, classes]
    exact inside]
  refine congrArg (fun loss => Except.ok (some loss)) ?_
  rw [rowLoss_eq different, register_ok (mod_lt _ (by decide)), mod_eq_of_lt (by omega)]
  refine congrArg (fun log => log - problem.score row (problem.target row).toNat) ?_
  refine lanes_log 5 (butterfly larger (halvings 5) fun lane =>
    register ((range 32).map fun lane => [lane].map (problem.score row)) lane 0)
    counts.some_ (fun lane inside => butterfly_larger_eq 5 _ inside) fun lane inside => ?_
  have single : strided lane (2 ^ 5) problem.classes = [lane] := by
    rw [classes]
    exact (strided_single (le_refl 32)).trans (if_pos inside)
  have inside : lane < 32 := inside
  rw [register_ok inside, single]
  exact (add_zero _).symm

theorem toInt32_of_small {value : Int} (above : -2 ^ 31 ≤ value) (below : value < 2 ^ 31) :
    toInt32 value = value := by
  unfold toInt32
  omega

noncomputable def lossOf (problem : Problem ℝ) (row col : Nat) : ℝ :=
  Real.log ((List.range problem.classes).map fun col => Real.exp (problem.score row col)).sum -
    problem.score row col

structure Taken (problem : Problem ℝ) (row col : Nat) : Prop where
  classes : problem.classes = 32
  inside : row < problem.rows
  early : row < 2 ^ 26
  target : toInt32 (problem.target row) = col
  small : col < 32

theorem Taken.base (taken : Taken problem row col) :
    toInt32 ((row : Int) * 32) = (row : Int) * problem.classes := by
  have early := taken.early
  rw [taken.classes, toInt32_of_small (by omega) (by omega)]
  rfl

theorem strided_half (inside : lane < 16) : strided lane 16 32 = [lane, lane + 16] := by
  unfold strided
  have twice : (32 - lane + 16 - 1) / 16 = 2 := by omega
  rw [twice]
  rfl

theorem strided_quarter (inside : lane < 8) :
    strided lane 8 32 = [lane, lane + 8, lane + 16, lane + 24] := by
  unfold strided
  have times : (32 - lane + 8 - 1) / 8 = 4 := by omega
  rw [times]
  rfl

theorem total_selected {classes : Nat} (scores : Nat → ℝ) (small : col < classes) :
    total (· + ·) 0 ((List.range classes).map fun other => if col = other then scores other else 0) =
      scores col := by
  have picked := Finset.sum_ite_eq (Finset.range classes) col scores
  rw [if_pos (Finset.mem_range.mpr small)] at picked
  exact picked

theorem noignoreHalfwarpRow_taken (taken : Taken problem row col) :
    noignoreHalfwarpRow realFunctions problem row = .ok (some (lossOf problem row col)) := by
  have small := taken.small
  unfold noignoreHalfwarpRow
  rw [targetAt_ok taken.inside]
  change (if 0 ≤ toInt32 (problem.target row) ∧ toInt32 (problem.target row) < 32 then _ else _) = _
  rw [taken.target, if_pos ⟨Int.natCast_nonneg _, by omega⟩, taken.base]
  dsimp only
  rw [load_ok taken.inside fun lane inside other there => by
    rw [taken.classes]
    rcases mem_cons.mp there with rfl | later
    · omega
    · rw [mem_singleton.mp later]
      omega]
  refine congrArg (fun loss => Except.ok (some loss)) ?_
  refine congrArg₂ (fun log target => log - target) ?_ ?_
  · refine lanes_log 4 (butterfly larger (halvings 4) _) (by rw [taken.classes]; decide)
      (fun lane inside => butterfly_larger_eq 4 _ inside) fun lane inside => ?_
    have inside : lane < 16 := inside
    rw [taken.classes]
    change _ = total _ _ ((strided lane 16 32).map _)
    rw [strided_half inside, register_ok inside, register_ok inside]
    exact congrArg _ (add_zero _).symm
  · rw [butterfly_eq_total 0 4 _ 0 (by decide), ← total_selected (problem.score row) small,
      ← total_strided 32 (show 0 < 16 by decide)]
    refine total_congr fun lane inside => ?_
    have inside : lane < 16 := mem_range.mp inside
    rw [strided_half inside, register_ok inside, register_ok inside]
    change (if (col : Int) = lane then problem.score row lane
      else if (col : Int) = lane + 16 then problem.score row (lane + 16) else 0) =
      (if col = lane then problem.score row lane else 0) +
        ((if col = lane + 16 then problem.score row (lane + 16) else 0) + 0)
    by_cases first : col = lane
    · rw [if_pos (by omega), if_pos first, if_neg (by omega), add_zero, add_zero]
    · rw [if_neg (by omega), if_neg first, zero_add, add_zero]
      exact if_congr (by omega) rfl rfl

theorem noignoreQuarterwarpRow_taken (taken : Taken problem row col) :
    noignoreQuarterwarpRow realFunctions problem row = .ok (some (lossOf problem row col)) := by
  have small := taken.small
  unfold noignoreQuarterwarpRow
  rw [targetAt_ok taken.inside]
  change (if 0 ≤ toInt32 (problem.target row) ∧ toInt32 (problem.target row) < 32 then _ else _) = _
  rw [taken.target, if_pos ⟨Int.natCast_nonneg _, by omega⟩, taken.base]
  dsimp only
  rw [load_ok taken.inside fun lane inside other there => by
    rw [taken.classes]
    simp only [mem_cons, not_mem_nil, or_false] at there
    omega]
  refine congrArg (fun loss => Except.ok (some loss)) ?_
  refine congrArg₂ (fun log target => log - target) ?_ ?_
  · refine lanes_log 3 (butterfly larger (halvings 3) _) (by rw [taken.classes]; decide)
      (fun lane inside => butterfly_larger_eq 3 _ inside) fun lane inside => ?_
    have inside : lane < 8 := inside
    rw [taken.classes]
    change _ = total _ _ ((strided lane 8 32).map _)
    rw [strided_quarter inside, register_ok inside, register_ok inside, register_ok inside,
      register_ok inside, add_assoc, add_assoc]
    exact congrArg _ (congrArg _ (congrArg _ (add_zero _).symm))
  · have lane : col % 8 < 8 := mod_lt _ (by decide)
    rw [Int.toNat_natCast, register_ok lane, register_ok lane, register_ok lane, register_ok lane]
    have split := div_add_mod col 8
    have groups : col / 8 = 0 ∨ col / 8 = 1 ∨ col / 8 = 2 ∨ col / 8 = 3 := by omega
    rcases groups with group | group | group | group
    · rw [group, if_neg (by decide), if_neg (by decide), if_neg (by decide)]
      exact congrArg (problem.score row) (by omega)
    · rw [group, if_pos rfl]
      exact congrArg (problem.score row) (by omega)
    · rw [group, if_neg (by decide), if_pos rfl]
      exact congrArg (problem.score row) (by omega)
    · rw [group, if_neg (by decide), if_neg (by decide), if_pos rfl]
      exact congrArg (problem.score row) (by omega)

theorem noignoreHalfwarpRow_refused (inside : row < problem.rows)
    (outside : ¬(0 ≤ toInt32 (problem.target row) ∧ toInt32 (problem.target row) < 32)) :
    noignoreHalfwarpRow realFunctions problem row = .error .assertion := by
  unfold noignoreHalfwarpRow
  rw [targetAt_ok inside]
  exact if_neg outside

theorem noignoreQuarterwarpRow_refused (inside : row < problem.rows)
    (outside : ¬(0 ≤ toInt32 (problem.target row) ∧ toInt32 (problem.target row) < 32)) :
    noignoreQuarterwarpRow realFunctions problem row = .error .assertion := by
  unfold noignoreQuarterwarpRow
  rw [targetAt_ok inside]
  exact if_neg outside

theorem noignoreQuarterwarpRow_late (inside : 2 ^ 26 < problem.rows) :
    ∃ fault, noignoreQuarterwarpRow realFunctions problem (2 ^ 26) = .error fault := by
  unfold noignoreQuarterwarpRow
  rw [targetAt_ok inside]
  change ∃ fault, (if 0 ≤ toInt32 (problem.target (2 ^ 26)) ∧
    toInt32 (problem.target (2 ^ 26)) < 32 then _ else _) = Except.error fault
  split
  · have wraps : toInt32 ((2 ^ 26 : Nat) * 32) = -2 ^ 31 := by decide
    have reads : ∃ fault, problem.load (toInt32 ((2 ^ 26 : Nat) * 32)) 8
        (fun lane => [lane, lane + 8, lane + 16, lane + 24]) = .error fault := by
      refine mapM_error (mem_range.mpr (show 0 < 8 by decide))
        (mapM_error (mem_cons_self) ⟨.outOfBounds, ?_⟩)
      rw [wraps]
      exact if_neg fun bounds => absurd bounds.1 (by decide)
    obtain ⟨fault, failed⟩ := reads
    rw [failed]
    exact ⟨fault, rfl⟩
  · exact ⟨_, rfl⟩

theorem lossOf_pos (classes : problem.classes = 32) (small : col < 32) :
    0 < lossOf problem row col := by
  have exceeds : Real.exp (problem.score row col) <
      ((range problem.classes).map fun col => Real.exp (problem.score row col)).sum := by
    obtain ⟨other, below, different⟩ : ∃ other, other < 32 ∧ other ≠ col := by
      by_cases first : col = 0
      · exact ⟨1, by decide, by omega⟩
      · exact ⟨0, by decide, fun same => first same.symm⟩
    rw [classes]
    exact Finset.single_lt_sum (s := Finset.range 32) different (Finset.mem_range.mpr small)
      (Finset.mem_range.mpr below) (Real.exp_pos _) fun _ _ _ => (Real.exp_pos _).le
  have positive := lt_trans (Real.exp_pos _) exceeds
  unfold lossOf
  rw [sub_pos, Real.lt_log_iff_exp_lt positive]
  exact exceeds

end Rows

end TorchSupa.Aten.CrossEntropy
