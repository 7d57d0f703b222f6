import TorchSupa.Aten.TransposeKernels

/-!
What is known of two tensors once they are found to be permutations of one another.
-/

namespace TorchSupa.Aten

open List Nat

section ThreeAxes

variable {tensor : Tensor} {s0 s1 s2 i j k : Nat} {index : List Nat}

theorem mem_indices_three :
    index ∈ indices [s0, s1, s2] ↔ ∃ i j k, i < s0 ∧ j < s1 ∧ k < s2 ∧ index = [i, j, k] := by
  rw [mem_indices]
  constructor
  · intro within
    cases within with
    | cons first rest =>
      cases rest with
      | cons second rest =>
        cases rest with
        | cons third rest =>
          cases rest
          exact ⟨_, _, _, first, second, third, rfl⟩
  · rintro ⟨i, j, k, first, second, third, rfl⟩
    exact .cons first (.cons second (.cons third .nil))

theorem exists_strides (sizes : tensor.sizes = [s0, s1, s2]) :
    tensor.strides = [tensor.stride 0, tensor.stride 1, tensor.stride 2] := by
  have ranked := tensor.ranked
  rw [sizes] at ranked
  obtain ⟨one, two, three, strides⟩ := length_eq_three.mp ranked
  simp [Tensor.stride, strides]

theorem address_three (sizes : tensor.sizes = [s0, s1, s2]) (i j k : Nat) :
    tensor.address [i, j, k] = tensor.dataPtr +
      (i * tensor.stride 0 + (j * tensor.stride 1 + k * tensor.stride 2)) * tensor.dtype.elementSize := by
  rw [Tensor.address, exists_strides sizes]
  simp [offset, Tensor.stride]

theorem unexpand_of_mem {sizes : List Nat} (same : tensor.sizes = sizes)
    (member : index ∈ indices sizes) : tensor.unexpand index = index := by
  have within := mem_indices.mp member
  have none : index.length - tensor.dim = 0 := by
    rw [Tensor.dim, same, within.length_eq, Nat.sub_self]
  rw [Tensor.unexpand, none, drop_zero, same]
  clear same none member
  induction within with
  | nil => rfl
  | cons below _ ih =>
    rw [zipWith_cons_cons, ih]
    congr 1
    split <;> omega

theorem contiguous_three (sizes : tensor.sizes = [s0, s1, s2]) (contiguous : tensor.isContiguous = true)
    (some : tensor.numel ≠ 0) :
    (s2 ≠ 1 → tensor.stride 2 = 1) ∧ (s1 ≠ 1 → tensor.stride 1 = s2) ∧
      (s0 ≠ 1 → tensor.stride 0 = s1 * s2) := by
  have steps : Tensor.contiguousFrom 1 [(s2, tensor.stride 2), (s1, tensor.stride 1),
      (s0, tensor.stride 0)] = true := by
    simpa [Tensor.isContiguous, some, sizes, exists_strides sizes] using contiguous
  simp only [Tensor.contiguousFrom] at steps
  refine ⟨?_, ?_, ?_⟩
  · intro last
    simp only [last, if_false, Bool.and_eq_true, beq_iff_eq] at steps
    exact steps.1
  · intro inner
    by_cases last : s2 = 1
    · simp only [last, inner, if_true, if_false, Bool.and_eq_true, beq_iff_eq] at steps
      rw [steps.1, last]
    · simp only [last, inner, if_false, Bool.and_eq_true, beq_iff_eq, one_mul] at steps
      exact steps.2.1
  · intro outer
    by_cases last : s2 = 1 <;> by_cases inner : s1 = 1
    · simp only [last, inner, outer, if_true, if_false, Bool.and_true, beq_iff_eq] at steps
      rw [steps, last, inner]
    · simp only [last, inner, outer, if_true, if_false, Bool.and_true, Bool.and_eq_true, beq_iff_eq,
        one_mul] at steps
      rw [steps.2, last, mul_one]
    · simp only [last, inner, outer, if_true, if_false, Bool.and_true, Bool.and_eq_true, beq_iff_eq,
        one_mul] at steps
      rw [steps.2, inner, one_mul]
    · simp only [last, inner, outer, if_false, Bool.and_true, Bool.and_eq_true, beq_iff_eq,
        one_mul] at steps
      rw [steps.2.2, mul_comm]

end ThreeAxes

namespace DirectCopy

section Ints

theorem toInt_cases (value : Nat) : toInt value < 2 ^ 31 ∧ (value < 2 ^ 31 ∧ toInt value = value ∨
      2 ^ 31 ≤ value ∧ toInt value + 2 ^ 32 ≤ value) := by
  unfold toInt Int.bmod
  simp only
  split <;> omega

theorem tiles_cases (size : Int) :
    (0 < size ∧ 0 < tiles size) ∨ (size < 0 ∧ tiles size ≤ 0) ∨ (size = 0 ∧ tiles size = 0) := by
  rcases Int.lt_trichotomy size 0 with less | zero | more
  · refine .inr (.inl ⟨less, ?_⟩)
    unfold tiles
    rcases Int.lt_or_le (size + 64 - 1) 0 with negative | small
    · have turned : (size + 64 - 1).tdiv 64 = -((-(size + 64 - 1)) / 64) := by
        rw [← Int.tdiv_eq_ediv_of_nonneg (by omega), Int.neg_tdiv, Int.neg_neg]
      omega
    · rw [Int.tdiv_eq_ediv_of_nonneg small]
      omega
  · subst zero
    exact .inr (.inr ⟨rfl, rfl⟩)
  · left
    unfold tiles
    rw [Int.tdiv_eq_ediv_of_nonneg (by omega)]
    omega

theorem positive_of_launch {a b c : Nat} (bytes : a * b * c * 2 < 2 ^ 63)
    (launched : 0 < toInt a * tiles (toInt b) * tiles (toInt c)) :
    0 < toInt a ∧ 0 < toInt b ∧ 0 < toInt c := by
  have large : ∀ {one two three : Nat}, one * two * three * 2 < 2 ^ 63 → 2147483648 ≤ one →
      2147483648 ≤ two → three = 0 := by
    intro one two three few first second
    by_contra some
    have square := Nat.mul_le_mul first second
    have cube := Nat.mul_le_mul square (Nat.pos_of_ne_zero some)
    omega
  have wide : ∀ size, toInt size < 0 → 2147483648 ≤ size := by
    intro size negative
    have cases := toInt_cases size
    omega
  have wideTiles : ∀ size, tiles (toInt size) < 0 → 2147483648 ≤ size := by
    intro size negative
    have cases := tiles_cases (toInt size)
    exact wide size (by omega)
  have zero : toInt 0 = 0 := rfl
  have nonzero : toInt a ≠ 0 ∧ tiles (toInt b) ≠ 0 ∧ tiles (toInt c) ≠ 0 := by
    refine ⟨?_, ?_, ?_⟩ <;> intro none <;> simp [none] at launched
  have fewB : a * c * b * 2 < 2 ^ 63 := by
    have same : a * c * b = a * b * c := by ring
    rwa [same]
  have fewC : b * c * a * 2 < 2 ^ 63 := by
    have same : b * c * a = a * b * c := by ring
    rwa [same]
  by_contra negative
  rcases Int.lt_or_gt_of_ne nonzero.1 with lowA | highA
  · -- then one of the other two is negative as well
    have one : tiles (toInt b) * tiles (toInt c) < 0 := by
      rw [Int.mul_assoc] at launched
      exact neg_of_mul_pos_right launched lowA.le
    rcases Int.lt_or_gt_of_ne nonzero.2.1 with lowB | highB
    · have none := large bytes (wide a lowA) (wideTiles b lowB)
      subst none
      exact nonzero.2.2 rfl
    · have lowC : tiles (toInt c) < 0 := neg_of_mul_neg_right one highB.le
      have none := large fewB (wide a lowA) (wideTiles c lowC)
      subst none
      exact nonzero.2.1 rfl
  · have one : 0 < tiles (toInt b) * tiles (toInt c) := by
      rw [Int.mul_assoc] at launched
      exact pos_of_mul_pos_right launched highA.le
    rcases Int.lt_or_gt_of_ne nonzero.2.1 with lowB | highB
    · have lowC : tiles (toInt c) < 0 := neg_of_mul_pos_right one lowB.le
      have none := large fewC (wideTiles b lowB) (wideTiles c lowC)
      subst none
      exact nonzero.1 zero
    · have highC : 0 < tiles (toInt c) := pos_of_mul_pos_right one highB.le
      have ofB := tiles_cases (toInt b)
      have ofC := tiles_cases (toInt c)
      exact negative ⟨highA, by omega, by omega⟩

end Ints

section Axes

variable {perm : List Nat} {input output src dst : Tensor} {best : Decomposition}

structure Decomposition.Proper (best : Decomposition) (input : Tensor) : Prop where
  axes : (best.batch, best.dimN, best.dimK) ∈
    [(0, 1, 2), (0, 2, 1), (1, 0, 2), (1, 2, 0), (2, 0, 1), (2, 1, 0)]
  contiguous : best.srcNContiguous = true → input.stride best.dimN = 1

theorem decompose_proper {batchDim : Nat} (small : batchDim < 3)
    (found : decompose perm input batchDim = some best) : best.Proper input := by
  have inner : ∃ v0 v1, (range 3).filter (· ≠ batchDim) = [v0, v1] ∧
      (batchDim, v0, v1) ∈ [(0, 1, 2), (1, 0, 2), (2, 0, 1)] := by
    have axis : batchDim = 0 ∨ batchDim = 1 ∨ batchDim = 2 := by omega
    rcases axis with rfl | rfl | rfl
    · exact ⟨1, 2, rfl, by simp⟩
    · exact ⟨0, 2, rfl, by simp⟩
    · exact ⟨0, 1, rfl, by simp⟩
  obtain ⟨v0, v1, two, order⟩ := inner
  simp only [decompose, two, getD_cons_zero, getD_cons_succ] at found
  simp only [mem_cons, Prod.mk.injEq, not_mem_nil, or_false] at order
  split at found
  · cases found
  · split at found
    · next first =>
        cases found
        refine ⟨?_, fun _ => first⟩
        rcases order with ⟨rfl, rfl, rfl⟩ | ⟨rfl, rfl, rfl⟩ | ⟨rfl, rfl, rfl⟩ <;> simp
    · split at found
      · next second =>
          cases found
          refine ⟨?_, fun _ => second⟩
          rcases order with ⟨rfl, rfl, rfl⟩ | ⟨rfl, rfl, rfl⟩ | ⟨rfl, rfl, rfl⟩ <;> simp
      · cases found
        refine ⟨?_, fun contiguous => by cases contiguous⟩
        rcases order with ⟨rfl, rfl, rfl⟩ | ⟨rfl, rfl, rfl⟩ | ⟨rfl, rfl, rfl⟩ <;> simp

theorem better_cases (one two : Option Decomposition) : better one two = one ∨ better one two = two := by
  unfold better
  split
  · exact .inl rfl
  · exact .inr rfl
  · split
    · exact .inr rfl
    · exact .inl rfl

theorem bestDecomposition_proper (found : bestDecomposition perm input = some best) :
    best.Proper input := by
  have fold : ∀ (axes : List Nat) (start : Option Decomposition), (∀ axis ∈ axes, axis < 3) →
      (∀ one, start = some one → one.Proper input) → ∀ one,
      axes.foldl (fun best batchDim => better best (decompose perm input batchDim)) start = some one →
        one.Proper input := by
    intro axes
    induction axes with
    | nil =>
      intro start _ proper one same
      exact proper one same
    | cons axis rest ih =>
      intro start small proper one same
      refine ih _ (fun other member => small other (.tail _ member)) ?_ one same
      intro other better
      rcases better_cases start (decompose perm input axis) with old | new
      · exact proper other (old.symm.trans better)
      · exact decompose_proper (small axis (.head _)) (new.symm.trans better)
  exact fold _ _ (fun axis member => mem_range.mp member) (by simp) _ found

structure Permuted (src dst : Tensor) (s0 s1 s2 : Nat) : Prop where
  srcSizes : src.sizes = [s0, s1, s2]
  dstSizes : dst.sizes = [s0, s1, s2]
  contiguous : dst.isContiguous = true

theorem detect_cases (found : detect3dPermuteStrides input output = some perm) :
    ∃ s0 s1 s2, Permuted input output s0 s1 s2 ∧
      ∀ i < 3, input.stride i = expectedStride perm [s0, s1, s2] i := by
  unfold detect3dPermuteStrides at found
  split at found
  · cases found
  · next three =>
      split at found
      · cases found
      · next same =>
          split at found
          · cases found
          · next contiguous =>
              split at found
              · cases found
              · have matched := find?_some found
                simp only [all_eq_true, mem_range, beq_iff_eq] at matched
                simp only [not_or, not_not] at three same
                obtain ⟨s0, s1, s2, sizes⟩ := length_eq_three.mp three.1
                refine ⟨s0, s1, s2, ⟨sizes, same ▸ sizes, by simpa using contiguous⟩, ?_⟩
                rwa [← sizes]

def tailConfig (input output : Tensor) : ContiguousTail where
  planeRows := toInt (output.size 0)
  planeCols := toInt (output.size 1)
  tailLen := toInt (output.size 2)
  srcStrideRowBytes := input.stride 0 * input.dtype.elementSize
  srcStrideColBytes := input.stride 1 * input.dtype.elementSize
  dstStrideRowBytes := output.stride 0 * input.dtype.elementSize
  dstStrideColBytes := output.stride 1 * input.dtype.elementSize

def tileConfig (input output : Tensor) (best : Decomposition) : Tile where
  tileN := toInt (input.size best.dimN)
  tileK := toInt (input.size best.dimK)
  batchCount := toInt (input.size best.batch)
  srcNContiguous := best.srcNContiguous
  srcStrideKBytes := input.stride best.dimK * input.dtype.elementSize
  srcStrideNBytes := input.stride best.dimN * input.dtype.elementSize
  srcBatchStrideBytes := input.stride best.batch * input.dtype.elementSize
  dstStrideRowBytes := output.stride best.dimN * input.dtype.elementSize
  dstStrideColBytes := output.stride best.dimK * input.dtype.elementSize
  dstBatchStrideBytes := output.stride best.batch * input.dtype.elementSize

structure Exchanged (src dst : Tensor) (s0 s1 s2 : Nat) : Prop extends Permuted src dst s0 s1 s2 where
  row : src.stride 0 = s2
  col : src.stride 1 = s0 * s2
  tail : src.stride 2 = 1
  dstTail : dst.stride 2 = 1

theorem fastPath_cases {cfg : Permute3DTransposeConfig} (taken : fastPath src dst = some cfg) :
    canLaunchPermute3dFastpath cfg = true ∧ ∃ s0 s1 s2,
      (cfg = .contiguousTail (tailConfig src dst) ∧ Exchanged src dst s0 s1 s2) ∨
        ∃ best, cfg = .tile (tileConfig src dst best) ∧ Permuted src dst s0 s1 s2 ∧
          best.Proper src := by
  obtain ⟨analyzed, launched⟩ := Option.filter_eq_some_iff.mp taken
  refine ⟨launched, ?_⟩
  unfold analyzePermute3dTranspose at analyzed
  simp only at analyzed
  split at analyzed
  · cases analyzed
  · next perm detected =>
      obtain ⟨s0, s1, s2, permuted, strides⟩ := detect_cases detected
      refine ⟨s0, s1, s2, ?_⟩
      split at analyzed
      · cases analyzed
      · split at analyzed
        · next exchange =>
            obtain ⟨rfl, tail, dstTail⟩ := exchange
            cases analyzed
            exact .inl ⟨rfl, { permuted with
              row := strides 0 (by decide)
              col := strides 1 (by decide)
              tail := tail
              dstTail := dstTail }⟩
        · obtain ⟨best, found, rfl⟩ := Option.map_eq_some_iff.mp analyzed
          exact .inr ⟨best, rfl, permuted, bestDecomposition_proper found⟩

end Axes

end DirectCopy

end TorchSupa.Aten
