import TorchSupa.Aten.DirectCopyRight
import TorchSupa.Aten.PermutedLayouts

/-!
When the fast path for permuted tensors leaves what the generic copy leaves.
-/

namespace TorchSupa.Aten.DirectCopy

open Option

variable {α : Type} {conversions : Conversions α} {contents before : Nat → α} {src dst : Tensor}

section Same

theorem allowed_same (same : dst.dtype = src.dtype) (short : dst.dtype ≠ .kShort) {address : Nat}
    {value : Option α} :
    Allowed conversions contents before src dst address value ↔
      (∀ index ∈ indices dst.sizes, dst.address index = address →
        value = some (element contents src index)) ∧
      ((∀ index ∈ indices dst.sizes, dst.address index ≠ address) → value = some (before address)) := by
  have defined : ∀ value, Defined conversions src dst value := fun _ isShort => absurd isShort short
  rw [Allowed]
  apply and_congr_left
  intro _
  constructor
  · intro copied index member here
    rw [copied index member here (defined _), same, conversions.convert_self]
  · intro copied index member here _
    rw [copied index member here, same, conversions.convert_self]

theorem exists_distinct (conversions : Conversions α) : ∃ one two : α, one ≠ two := by
  refine ⟨conversions.ofShort 0, conversions.ofShort 1, fun same => ?_⟩
  exact absurd (conversions.ofShort_inj 0 1 (by decide) (by decide) (by decide) (by decide) same)
    (by decide)

theorem written_of_right {events : (Nat → α) → List (Event α)}
    (ran : ∀ contents, directCopyKernelCuda contents src dst conversions = .ok (events contents))
    (same : dst.dtype = src.dtype) (short : dst.dtype ≠ .kShort)
    (right : ∀ contents before, Right conversions contents before src dst) {index : List Nat}
    (member : index ∈ indices dst.sizes) :
    ∃ contents value, .store (dst.address index) value ∈ events contents := by
  obtain ⟨one, two, apart⟩ := exists_distinct conversions
  by_contra unwritten
  push Not at unwritten
  have kept := ((right_iff (ran fun _ => one)).mp (right (fun _ => one) fun _ => two)).2.2
    (dst.address index) (unwritten _)
  have value := ((allowed_same same short).mp kept).1 index member rfl
  exact apart (some.inj value).symm

end Same

section TilePath

structure TileFits (src dst : Tensor) (cfg : Tile) : Prop where
  ints : ∀ axis < 3, dst.size axis < 2 ^ 31
  rows : cfg.tileN + 64 < 2 ^ 31
  cols : cfg.tileK + 64 < 2 ^ 31
  aligned : cfg.Vectored cfg.tileN.toNat cfg.tileK.toNat →
    cfg.Aligned src.dataPtr dst.dataPtr cfg.batchCount.toNat

def Decomposition.index (best : Decomposition) (m r s : Nat) : List Nat :=
  [0, 1, 2].map fun axis => if axis = best.batch then m else if axis = best.dimN then r else s

variable {best : Decomposition} {s0 s1 s2 m r s : Nat}

open List Tensor

section

variable (proper : best.Proper src)
include proper

theorem Decomposition.Proper.mem_index (permuted : Permuted src dst s0 s1 s2) :
    best.index m r s ∈ indices dst.sizes ↔
      m < src.size best.batch ∧ r < src.size best.dimN ∧ s < src.size best.dimK := by
  obtain ⟨axes, _⟩ := proper
  obtain ⟨batch, dimN, dimK, contiguous⟩ := best
  rw [permuted.dstSizes]
  simp only [mem_cons, Prod.mk.injEq, not_mem_nil, or_false] at axes
  rcases axes with ⟨rfl, rfl, rfl⟩ | ⟨rfl, rfl, rfl⟩ | ⟨rfl, rfl, rfl⟩ | ⟨rfl, rfl, rfl⟩ |
    ⟨rfl, rfl, rfl⟩ | ⟨rfl, rfl, rfl⟩ <;>
  simp [Decomposition.index, mem_indices_three, size, permuted.srcSizes] <;> tauto

theorem Decomposition.Proper.exists_index
    (permuted : Permuted src dst s0 s1 s2) {index : List Nat} (member : index ∈ indices dst.sizes) :
    ∃ m r s, index = best.index m r s := by
  obtain ⟨axes, _⟩ := proper
  obtain ⟨batch, dimN, dimK, contiguous⟩ := best
  rw [permuted.dstSizes] at member
  obtain ⟨i, j, k, _, _, _, rfl⟩ := mem_indices_three.mp member
  simp only [mem_cons, Prod.mk.injEq, not_mem_nil, or_false] at axes
  rcases axes with ⟨rfl, rfl, rfl⟩ | ⟨rfl, rfl, rfl⟩ | ⟨rfl, rfl, rfl⟩ | ⟨rfl, rfl, rfl⟩ |
    ⟨rfl, rfl, rfl⟩ | ⟨rfl, rfl, rfl⟩
  · exact ⟨i, j, k, rfl⟩
  · exact ⟨i, k, j, rfl⟩
  · exact ⟨j, i, k, rfl⟩
  · exact ⟨j, k, i, rfl⟩
  · exact ⟨k, i, j, rfl⟩
  · exact ⟨k, j, i, rfl⟩

theorem Decomposition.Proper.index_inj {m' r' s' : Nat}
    (same : best.index m r s = best.index m' r' s') : m = m' ∧ r = r' ∧ s = s' := by
  obtain ⟨axes, _⟩ := proper
  obtain ⟨batch, dimN, dimK, contiguous⟩ := best
  simp only [mem_cons, Prod.mk.injEq, not_mem_nil, or_false] at axes
  rcases axes with ⟨rfl, rfl, rfl⟩ | ⟨rfl, rfl, rfl⟩ | ⟨rfl, rfl, rfl⟩ | ⟨rfl, rfl, rfl⟩ |
    ⟨rfl, rfl, rfl⟩ | ⟨rfl, rfl, rfl⟩ <;>
  simp [Decomposition.index] at same <;> tauto

theorem Decomposition.Proper.address {tensor : Tensor} (sizes : tensor.sizes = [s0, s1, s2]) :
    tensor.address (best.index m r s) = tensor.dataPtr +
      m * (tensor.stride best.batch * tensor.dtype.elementSize) +
      r * (tensor.stride best.dimN * tensor.dtype.elementSize) +
      s * (tensor.stride best.dimK * tensor.dtype.elementSize) := by
  obtain ⟨axes, _⟩ := proper
  obtain ⟨batch, dimN, dimK, contiguous⟩ := best
  simp only [mem_cons, Prod.mk.injEq, not_mem_nil, or_false] at axes
  rcases axes with ⟨rfl, rfl, rfl⟩ | ⟨rfl, rfl, rfl⟩ | ⟨rfl, rfl, rfl⟩ | ⟨rfl, rfl, rfl⟩ |
    ⟨rfl, rfl, rfl⟩ | ⟨rfl, rfl, rfl⟩ <;>
  simp only [Decomposition.index, map_cons, map_nil, reduceIte, one_ne_zero, zero_ne_one,
    OfNat.ofNat_ne_zero, OfNat.ofNat_ne_one, OfNat.one_ne_ofNat, OfNat.zero_ne_ofNat] <;>
  rw [address_three sizes] <;> ring

end

theorem numel_three {tensor : Tensor} (sizes : tensor.sizes = [s0, s1, s2]) :
    tensor.numel = s0 * s1 * s2 := by
  simp [numel, sizes, Nat.mul_assoc]

theorem tile_launched (proper : best.Proper src) (permuted : Permuted src dst s0 s1 s2)
    (launched : canLaunchPermute3dFastpath (.tile (tileConfig src dst best)) = true)
    (bytes : dst.numel * 2 < 2 ^ 63) (wide : src.dtype.elementSize = 2) :
    (tileConfig src dst best).Launched (toInt (src.size best.batch)).toNat
      (toInt (src.size best.dimN)).toNat (toInt (src.size best.dimK)).toNat := by
  have product : src.size best.batch * src.size best.dimN * src.size best.dimK * 2 < 2 ^ 63 := by
    rw [numel_three permuted.dstSizes] at bytes
    obtain ⟨axes, _⟩ := proper
    obtain ⟨batch, dimN, dimK, contiguous⟩ := best
    simp only [mem_cons, Prod.mk.injEq, not_mem_nil, or_false] at axes
    have same : src.size batch * src.size dimN * src.size dimK = s0 * s1 * s2 := by
      rcases axes with ⟨rfl, rfl, rfl⟩ | ⟨rfl, rfl, rfl⟩ | ⟨rfl, rfl, rfl⟩ | ⟨rfl, rfl, rfl⟩ |
        ⟨rfl, rfl, rfl⟩ | ⟨rfl, rfl, rfl⟩ <;>
      simp only [size, permuted.srcSizes, getD_cons_zero, getD_cons_succ] <;> ring
    change src.size batch * src.size dimN * src.size dimK * 2 < 2 ^ 63
    rwa [same]
  simp only [canLaunchPermute3dFastpath, Bool.and_eq_true] at launched
  obtain ⟨many, few⟩ := launched
  have many := of_decide_eq_true many
  have few := of_decide_eq_true few
  simp only [tileConfig] at many few
  obtain ⟨batchy, some, also⟩ := positive_of_launch product many
  clear product bytes
  have rowInt := toInt_cases (src.size best.dimN)
  have colInt := toInt_cases (src.size best.dimK)
  have batches := Int.toNat_of_nonneg batchy.le
  have rows := Int.toNat_of_nonneg some.le
  have cols := Int.toNat_of_nonneg also.le
  refine {
    contiguous := fun contiguous => ?_
    tileN := by simp only [tileConfig, rows]
    tileK := by simp only [tileConfig, cols]
    batchCount := by simp only [tileConfig, batches]
    some := ⟨by omega, by omega⟩
    batchy := by omega
    ints := ⟨by omega, by omega⟩
    grid := ?_ }
  · change src.stride best.dimN * src.dtype.elementSize = 2
    rw [proper.contiguous contiguous, wide]
  · rw [← rows, ← cols, ← batches, tiles_eq, tiles_eq] at few
    have few : ((toInt (src.size best.batch)).toNat * tileCount (toInt (src.size best.dimN)).toNat *
        tileCount (toInt (src.size best.dimK)).toNat : Int) < 2 ^ 31 := Int.lt_of_le_sub_one few
    rw [← Nat.mul_assoc]
    exact_mod_cast few

theorem ints_iff (proper : best.Proper src) (permuted : Permuted src dst s0 s1 s2) :
    (∀ axis < 3, dst.size axis < 2 ^ 31) ↔ src.size best.batch < 2 ^ 31 ∧
      src.size best.dimN < 2 ^ 31 ∧ src.size best.dimK < 2 ^ 31 := by
  have sizes : ∀ axis, dst.size axis = src.size axis := by
    intro axis
    rw [size, size, permuted.dstSizes, permuted.srcSizes]
  have three : (∀ axis < 3, dst.size axis < 2 ^ 31) ↔
      src.size 0 < 2 ^ 31 ∧ src.size 1 < 2 ^ 31 ∧ src.size 2 < 2 ^ 31 := by
    simp only [sizes]
    constructor
    · exact fun all => ⟨all 0 (by decide), all 1 (by decide), all 2 (by decide)⟩
    · rintro ⟨first, second, third⟩ axis small
      have cases : axis = 0 ∨ axis = 1 ∨ axis = 2 := by omega
      rcases cases with rfl | rfl | rfl
      · exact first
      · exact second
      · exact third
  rw [three]
  obtain ⟨axes, _⟩ := proper
  obtain ⟨batch, dimN, dimK, contiguous⟩ := best
  simp only [mem_cons, Prod.mk.injEq, not_mem_nil, or_false] at axes
  rcases axes with ⟨rfl, rfl, rfl⟩ | ⟨rfl, rfl, rfl⟩ | ⟨rfl, rfl, rfl⟩ | ⟨rfl, rfl, rfl⟩ |
    ⟨rfl, rfl, rfl⟩ | ⟨rfl, rfl, rfl⟩ <;> tauto

theorem tileFits_iff {cfg : Tile} {batches n k : Nat} (launched : cfg.Launched batches n k) :
    TileFits src dst cfg ↔ (∀ axis < 3, dst.size axis < 2 ^ 31) ∧ n + 64 < 2 ^ 31 ∧
      k + 64 < 2 ^ 31 ∧ (cfg.Vectored n k → cfg.Aligned src.dataPtr dst.dataPtr batches) := by
  have rows : cfg.tileN + 64 < 2 ^ 31 ↔ n + 64 < 2 ^ 31 := by
    rw [launched.tileN]
    norm_cast
  have cols : cfg.tileK + 64 < 2 ^ 31 ↔ k + 64 < 2 ^ 31 := by
    rw [launched.tileK]
    norm_cast
  have fits : TileFits src dst cfg ↔ (∀ axis < 3, dst.size axis < 2 ^ 31) ∧ cfg.tileN + 64 < 2 ^ 31 ∧
      cfg.tileK + 64 < 2 ^ 31 ∧ (cfg.Vectored cfg.tileN.toNat cfg.tileK.toNat →
        cfg.Aligned src.dataPtr dst.dataPtr cfg.batchCount.toNat) :=
    ⟨fun fits => ⟨fits.ints, fits.rows, fits.cols, fits.aligned⟩,
      fun ⟨ints, rows, cols, aligned⟩ => ⟨ints, rows, cols, aligned⟩⟩
  rw [fits, rows, cols, launched.tileN, launched.tileK, launched.batchCount]
  simp only [Int.toNat_natCast]

theorem right_tile (operands : Operands src dst) (same : dst.dtype = src.dtype)
    (half : dst.dtype = .kBFloat16 ∨ dst.dtype = .kHalf)
    (taken : takenFastPath src dst = some (.tile (tileConfig src dst best)))
    (proper : best.Proper src) (permuted : Permuted src dst s0 s1 s2)
    (launched : canLaunchPermute3dFastpath (.tile (tileConfig src dst best)) = true) :
    (∀ contents before, Right conversions contents before src dst) ↔
      TileFits src dst (tileConfig src dst best) := by
  have short : dst.dtype ≠ .kShort := by
    rcases half with half | half <;> rw [half] <;> decide
  have wideDst : dst.dtype.elementSize = 2 := by
    rcases half with half | half <;> rw [half] <;> rfl
  have wide : src.dtype.elementSize = 2 := same ▸ wideDst
  have ran : ∀ contents, directCopyKernelCuda contents src dst conversions =
      .ok (permute3dTransposeCopyImpl contents src dst (.tile (tileConfig src dst best))) := by
    intro contents
    rw [directCopy_taken taken, permute3dTransposeCopy, if_neg (not_not.mpr same), if_pos half]
  have bytes := operands.bytes
  rw [wideDst] at bytes
  have launched := tile_launched proper permuted launched bytes wide
  have source : ∀ m r s, src.address (best.index m r s) =
      (tileConfig src dst best).source src.dataPtr m r s := fun m r s => proper.address permuted.srcSizes
  have target : ∀ m r s, dst.address (best.index m r s) =
      (tileConfig src dst best).target dst.dataPtr m r s := by
    intro m r s
    rw [proper.address permuted.dstSizes, same]
    rfl
  have batchInt := toInt_cases (src.size best.batch)
  have rowInt := toInt_cases (src.size best.dimN)
  have colInt := toInt_cases (src.size best.dimK)
  have rowPos := launched.some
  have batchPos := launched.batchy
  rw [tileFits_iff launched, ints_iff proper permuted]
  constructor
  · intro right
    have fine := ((right_iff (ran fun _ => conversions.ofShort 0)).mp
      (right _ fun _ => conversions.ofShort 0)).1
    have fits := not_not.mp fun unfit => by
      obtain ⟨event, member, bad⟩ := launched.bad_grid.mpr unfit
      exact fine event member bad
    have written : ∀ m r s, m < src.size best.batch → r < src.size best.dimN → s < src.size best.dimK →
        m < (toInt (src.size best.batch)).toNat ∧ r < (toInt (src.size best.dimN)).toNat ∧
          s < (toInt (src.size best.dimK)).toNat := by
      intro m r s slice row col
      have member := (proper.mem_index permuted).mpr ⟨slice, row, col⟩
      obtain ⟨contents, value, stored⟩ := written_of_right ran same short right member
      obtain ⟨m', r', s', slice', row', col', here, _⟩ := launched.store_grid.mp stored
      rw [← target] at here
      have within : best.index m' r' s' ∈ indices dst.sizes :=
        (proper.mem_index permuted).mpr ⟨by omega, by omega, by omega⟩
      have equal := operands.apart _ member _ within here
      have coordinates : m = m' ∧ r = r' ∧ s = s' := proper.index_inj equal
      obtain ⟨rfl, rfl, rfl⟩ := coordinates
      exact ⟨slice', row', col'⟩
    have last := written (src.size best.batch - 1) (src.size best.dimN - 1) (src.size best.dimK - 1)
      (by omega) (by omega) (by omega)
    exact ⟨⟨by omega, by omega, by omega⟩, fits⟩
  · rintro ⟨⟨batches, rows, cols⟩, fits⟩ contents before
    rw [right_iff (ran contents)]
    refine ⟨?_, ?_, ?_⟩
    · intro event member bad
      exact launched.bad_grid.mp ⟨event, member, bad⟩ fits
    · intro address value stored
      obtain ⟨m, r, s, slice, row, col, rfl, rfl⟩ := launched.store_grid.mp stored
      have within : best.index m r s ∈ indices dst.sizes :=
        (proper.mem_index permuted).mpr ⟨by omega, by omega, by omega⟩
      rw [← target, ← source, allowed_same same short]
      refine ⟨fun index member here => ?_, fun none => absurd rfl (none _ within)⟩
      obtain rfl := operands.apart _ member _ within here
      rw [element, unexpand_of_mem (permuted.srcSizes.trans permuted.dstSizes.symm) member]
    · intro address unwritten
      rw [allowed_same same short]
      refine ⟨fun index member here => ?_, fun _ => rfl⟩
      obtain ⟨m, r, s, rfl⟩ := proper.exists_index permuted member
      obtain ⟨slice, row, col⟩ := (proper.mem_index permuted).mp member
      refine absurd (launched.store_grid.mpr ⟨m, r, s, by omega, by omega, by omega, ?_, rfl⟩)
        (unwritten _)
      rw [← here, target]

end TilePath

section TailPath

def Truncated (size : Nat) (value : Int) : Prop :=
  value < 2 ^ 31 ∧ (size < 2 ^ 31 ∧ value = size ∨ 2 ^ 31 ≤ size ∧ value + 2 ^ 32 ≤ size)

/-- The variables of a plane's loops stay ints, and what comes before its first vector is within it,
or the planes lie one behind the other in both tensors and it is within one of them. -/
structure PlaneFits (src dst : Tensor) (cfg : ContiguousTail) (i j : Nat) : Prop where
  counters : CountersFit (cfg.srcBase src.dataPtr i j) (cfg.dstBase dst.dataPtr i j) cfg.tailLen
  start : alignElems (cfg.srcBase src.dataPtr i j) (cfg.dstBase dst.dataPtr i j) ≤ cfg.tailLen ∨
    (dst.size 0 = 1 ∨ dst.size 1 = 1) ∧
      (i * dst.size 1 + j) * dst.size 2 +
        alignElems (cfg.srcBase src.dataPtr i j) (cfg.dstBase dst.dataPtr i j) ≤ dst.numel

structure TailFits (src dst : Tensor) (cfg : ContiguousTail) : Prop where
  ints : dst.numel = 0 ∨ ∀ axis < 3, dst.size axis < 2 ^ 31
  planes : ∀ i j : Nat, i < cfg.planeRows → j < cfg.planeCols → PlaneFits src dst cfg i j

structure Planes (src dst : Tensor) (cfg : ContiguousTail) (s0 s1 s2 : Nat) : Prop where
  dstSizes : dst.sizes = [s0, s1, s2]
  srcSizes : src.sizes = [s0, s1, s2]
  srcBase : ∀ i j, cfg.srcBase src.dataPtr i j = src.dataPtr + 2 * ((i + j * s0) * s2)
  dstBase : ∀ i j, i < s0 → j < s1 → s2 ≠ 0 →
    cfg.dstBase dst.dataPtr i j = dst.dataPtr + 2 * ((i * s1 + j) * s2)
  srcAddress : ∀ i j k, src.address [i, j, k] = cfg.srcBase src.dataPtr i j + 2 * k
  dstAddress : ∀ i j k, dst.address [i, j, k] = cfg.dstBase dst.dataPtr i j + 2 * k
  rows : Truncated s0 cfg.planeRows
  cols : Truncated s1 cfg.planeCols
  tail : Truncated s2 cfg.tailLen
  even : src.dataPtr % 2 = 0

variable {s0 s1 s2 : Nat}

theorem planes_of_exchanged (exchanged : Exchanged src dst s0 s1 s2)
    (wide : src.dtype.elementSize = 2) (same : dst.dtype = src.dtype)
    (even : src.dataPtr % src.dtype.elementSize = 0) :
    Planes src dst (tailConfig src dst) s0 s1 s2 where
  dstSizes := exchanged.dstSizes
  srcSizes := exchanged.srcSizes
  srcBase := by
    intro i j
    simp only [ContiguousTail.srcBase, tailConfig, exchanged.row, exchanged.col, wide]
    ring
  dstBase := by
    intro i j row col some
    have filled : dst.numel ≠ 0 := by
      rw [numel_three exchanged.dstSizes]
      exact Nat.mul_ne_zero (Nat.mul_ne_zero (by omega) (by omega)) some
    obtain ⟨_, inner, outer⟩ := contiguous_three exchanged.dstSizes exchanged.contiguous filled
    have rows : i * dst.stride 0 = i * (s1 * s2) := by
      by_cases single : s0 = 1
      · have none : i = 0 := by omega
        simp [none]
      · rw [outer single]
    have cols : j * dst.stride 1 = j * s2 := by
      by_cases single : s1 = 1
      · have none : j = 0 := by omega
        simp [none]
      · rw [inner single]
    simp only [ContiguousTail.dstBase, tailConfig, wide]
    calc dst.dataPtr + i * (dst.stride 0 * 2) + j * (dst.stride 1 * 2)
        = dst.dataPtr + 2 * (i * dst.stride 0 + j * dst.stride 1) := by ring
      _ = dst.dataPtr + 2 * ((i * s1 + j) * s2) := by
        rw [rows, cols]
        ring
  srcAddress := by
    intro i j k
    rw [address_three exchanged.srcSizes]
    simp only [ContiguousTail.srcBase, tailConfig, exchanged.tail, wide]
    ring
  dstAddress := by
    intro i j k
    rw [address_three exchanged.dstSizes]
    simp only [ContiguousTail.dstBase, tailConfig, exchanged.dstTail, same, wide]
    ring
  rows := by
    have size : dst.size 0 = s0 := by simp [Tensor.size, exchanged.dstSizes]
    simp only [tailConfig, size]
    exact toInt_cases s0
  cols := by
    have size : dst.size 1 = s1 := by simp [Tensor.size, exchanged.dstSizes]
    simp only [tailConfig, size]
    exact toInt_cases s1
  tail := by
    have size : dst.size 2 = s2 := by simp [Tensor.size, exchanged.dstSizes]
    simp only [tailConfig, size]
    exact toInt_cases s2
  even := by rwa [wide] at even

variable {cfg : ContiguousTail}

variable {address : Nat} {events : (Nat → α) → List (Event α)}

theorem store_tail {value : Option α} :
    .store address value ∈ permute3dTransposeCopyImpl contents src dst (.contiguousTail cfg) ↔
      ∃ i j : Nat, i < cfg.planeRows ∧ j < cfg.planeCols ∧ ∃ elem : Nat,
        (elem < alignElems (cfg.srcBase src.dataPtr i j) (cfg.dstBase dst.dataPtr i j) ∨
          elem < cfg.tailLen) ∧
        address = cfg.dstBase dst.dataPtr i j + 2 * elem ∧
        value = some (contents (cfg.srcBase src.dataPtr i j + 2 * elem)) := by
  rw [mem_tailGrid]
  apply exists_congr
  intro i
  apply exists_congr
  intro j
  rw [store_plane]

theorem linear_lt {i j k : Nat} (row : i < s0) (col : j < s1) (place : k < s2) :
    (i * s1 + j) * s2 + k < s0 * s1 * s2 := by
  calc (i * s1 + j) * s2 + k < (i * s1 + j) * s2 + s2 := Nat.add_lt_add_left place _
    _ = (i * s1 + (j + 1)) * s2 := by ring
    _ ≤ (i * s1 + s1) * s2 := Nat.mul_le_mul_right _ (Nat.add_le_add_left col _)
    _ = (i + 1) * s1 * s2 := by ring
    _ ≤ s0 * s1 * s2 := Nat.mul_le_mul_right _ (Nat.mul_le_mul_right _ row)

theorem exists_linear {place : Nat} (inside : place < s0 * s1 * s2) :
    ∃ i j k, i < s0 ∧ j < s1 ∧ k < s2 ∧ (i * s1 + j) * s2 + k = place := by
  have nested : place < s0 * (s1 * s2) := by rwa [← Nat.mul_assoc]
  obtain ⟨i, j, k, row, col, tail, rfl⟩ := exists_digits nested
  exact ⟨i, j, k, row, col, tail, by ring⟩

theorem Planes.ints_of_last (planes : Planes src dst cfg s0 s1 s2) {i j elem : Nat}
    (row : i < cfg.planeRows) (col : j < cfg.planeCols) (some : s0 * s1 * s2 ≠ 0)
    (small : elem < 8 ∨ elem < cfg.tailLen)
    (last : (i * s1 + j) * s2 + elem = s0 * s1 * s2 - 1) :
    s0 < 2 ^ 31 ∧ s1 < 2 ^ 31 ∧ s2 < 2 ^ 31 := by
  have rows := planes.rows
  have cols := planes.cols
  have tail := planes.tail
  unfold Truncated at rows cols tail
  clear planes
  generalize cfg.planeRows = r at *
  generalize cfg.planeCols = c at *
  generalize cfg.tailLen = t at *
  have filled : 0 < s2 := Nat.pos_of_ne_zero fun none => some (by simp [none])
  by_contra large
  have plane : i * s1 + j + 1 ≤ s0 * s1 := by
    have next := Nat.mul_le_mul_right s1 (show i + 1 ≤ s0 by omega)
    rw [Nat.add_mul] at next
    omega
  have whole := Nat.mul_le_mul_right s2 plane
  rw [Nat.add_mul] at whole
  by_cases wide : 2 ^ 31 ≤ s2
  · omega
  · have early : i * s1 + j + 1 + 2 ^ 32 ≤ s0 * s1 := by
      by_cases tall : 2 ^ 31 ≤ s0
      · have next := Nat.mul_le_mul_right s1 (show i + 1 + 2 ^ 32 ≤ s0 by omega)
        rw [Nat.add_mul, Nat.add_mul] at next
        omega
      · have next := Nat.mul_le_mul_right s1 (show i + 1 ≤ s0 by omega)
        rw [Nat.add_mul] at next
        omega
    have far := Nat.mul_le_mul_right s2 early
    rw [Nat.add_mul, Nat.add_mul] at far
    omega

theorem Planes.inside (planes : Planes src dst cfg s0 s1 s2) {i j : Nat}
    (ints : dst.numel = 0 ∨ ∀ axis < 3, dst.size axis < 2 ^ 31) (row : i < cfg.planeRows)
    (col : j < cfg.planeCols) : i < s0 ∧ j < s1 ∧ cfg.tailLen = s2 := by
  have rows := planes.rows
  have cols := planes.cols
  have tail := planes.tail
  unfold Truncated at rows cols tail
  refine ⟨by omega, by omega, ?_⟩
  have small : s2 < 2 ^ 31 := by
    rcases ints with none | ints
    · rw [numel_three planes.dstSizes] at none
      have some : s0 * s1 ≠ 0 := Nat.mul_ne_zero (by omega) (by omega)
      rcases Nat.mul_eq_zero.mp none with zero | zero
      · exact absurd zero some
      · omega
    · have size : dst.size 2 = s2 := by simp [Tensor.size, planes.dstSizes]
      exact size ▸ ints 2 (by decide)
  omega

theorem flat_order {i j : Nat} (flat : s0 = 1 ∨ s1 = 1) (row : i < s0) (col : j < s1) :
    i + j * s0 = i * s1 + j := by
  rcases flat with rfl | rfl
  · have none : i = 0 := by omega
    simp [none]
  · have none : j = 0 := by omega
    simp [none]

theorem Planes.right_of_fits (planes : Planes src dst cfg s0 s1 s2) (operands : Operands src dst)
    (same : dst.dtype = src.dtype) (short : dst.dtype ≠ .kShort)
    (ran : ∀ contents, directCopyKernelCuda contents src dst conversions =
      .ok (permute3dTransposeCopyImpl contents src dst (.contiguousTail cfg)))
    (fits : TailFits src dst cfg) (contents before : Nat → α) :
    Right conversions contents before src dst := by
  have size0 : dst.size 0 = s0 := by simp [Tensor.size, planes.dstSizes]
  have size1 : dst.size 1 = s1 := by simp [Tensor.size, planes.dstSizes]
  have size2 : dst.size 2 = s2 := by simp [Tensor.size, planes.dstSizes]
  have numel := numel_three planes.dstSizes
  have copied : ∀ i j k, i < s0 → j < s1 → k < s2 → Allowed conversions contents before src dst
      (cfg.dstBase dst.dataPtr i j + 2 * k)
      (some (contents (cfg.srcBase src.dataPtr i j + 2 * k))) := by
    intro i j k row col tail
    have member : [i, j, k] ∈ indices dst.sizes := by
      rw [planes.dstSizes]
      exact mem_indices_three.mpr ⟨i, j, k, row, col, tail, rfl⟩
    rw [allowed_same same short, ← planes.dstAddress, ← planes.srcAddress]
    refine ⟨fun index also here => ?_, fun none => absurd rfl (none _ member)⟩
    obtain rfl := operands.apart _ also _ member here
    rw [element, unexpand_of_mem (planes.srcSizes.trans planes.dstSizes.symm) member]
  rw [right_iff (ran contents)]
  refine ⟨?_, ?_, ?_⟩
  · intro event member bad
    obtain ⟨i, j, row, col, thread, inside, member⟩ := (mem_tailGrid cfg).mp member
    obtain ⟨_, _, tail⟩ := planes.inside fits.ints row col
    have small := planes.tail.1
    refine (bad_plane _ (by omega) small ?_).mp ⟨thread, inside, event, member, bad⟩
      (fits.planes i j row col).counters
    rw [planes.srcBase]
    have even := planes.even
    omega
  · intro address value stored
    obtain ⟨i, j, row, col, elem, early, rfl, rfl⟩ := store_tail.mp stored
    obtain ⟨rowInside, colInside, tail⟩ := planes.inside fits.ints row col
    by_cases within : elem < s2
    · exact copied i j elem rowInside colInside within
    · -- beyond its plane: the element of another one, at the same distance in both tensors
      obtain ⟨flat, room⟩ := (fits.planes i j row col).start.resolve_left (by omega)
      rw [size0, size1] at flat
      rw [size1, size2, numel] at room
      have filled : s2 ≠ 0 := by
        rintro rfl
        simp only [Nat.mul_zero] at room
        omega
      have inside : (i * s1 + j) * s2 + elem < s0 * s1 * s2 := by omega
      obtain ⟨i', j', k', row', col', tail', place⟩ := exists_linear inside
      have target : cfg.dstBase dst.dataPtr i j + 2 * elem =
          cfg.dstBase dst.dataPtr i' j' + 2 * k' := by
        rw [planes.dstBase i j rowInside colInside filled, planes.dstBase i' j' row' col' filled]
        omega
      have source : cfg.srcBase src.dataPtr i j + 2 * elem =
          cfg.srcBase src.dataPtr i' j' + 2 * k' := by
        rw [planes.srcBase, planes.srcBase, flat_order flat rowInside colInside,
          flat_order flat row' col']
        omega
      rw [target, source]
      exact copied i' j' k' row' col' tail'
  · intro address unwritten
    rw [allowed_same same short]
    refine ⟨fun index member here => ?_, fun _ => rfl⟩
    rw [planes.dstSizes] at member
    obtain ⟨i, j, k, row, col, tail, rfl⟩ := mem_indices_three.mp member
    have rows := planes.rows
    have cols := planes.cols
    have tails := planes.tail
    unfold Truncated at rows cols tails
    have ints : s0 < 2 ^ 31 ∧ s1 < 2 ^ 31 ∧ s2 < 2 ^ 31 := by
      rcases fits.ints with none | ints
      · rw [numel] at none
        exact absurd none (Nat.mul_ne_zero (Nat.mul_ne_zero (by omega) (by omega)) (by omega))
      · exact ⟨size0 ▸ ints 0 (by decide), size1 ▸ ints 1 (by decide), size2 ▸ ints 2 (by decide)⟩
    refine absurd (store_tail.mpr ⟨i, j, by omega, by omega, k, .inr (by omega), ?_, rfl⟩) (unwritten _)
    rw [← here, planes.dstAddress]

theorem not_right_of_outside (same : dst.dtype = src.dtype) (short : dst.dtype ≠ .kShort)
    (ran : ∀ contents, directCopyKernelCuda contents src dst conversions = .ok (events contents))
    {source : Nat}
    (stored : ∀ contents, .store address (some (contents source)) ∈ events contents)
    (outside : ∀ index ∈ indices dst.sizes, dst.address index ≠ address) :
    ¬∀ contents before, Right conversions contents before src dst := by
  intro right
  obtain ⟨one, two, apart⟩ := exists_distinct conversions
  have allowed := ((right_iff (ran fun _ => one)).mp (right (fun _ => one) fun _ => two)).2.1 address _
    (stored _)
  exact apart (some.inj (((allowed_same same short).mp allowed).2 outside))

theorem not_right_of_moved (same : dst.dtype = src.dtype) (short : dst.dtype ≠ .kShort)
    (ran : ∀ contents, directCopyKernelCuda contents src dst conversions = .ok (events contents))
    (source : Nat) {index : List Nat} (member : index ∈ indices dst.sizes)
    (stored : ∀ contents, .store (dst.address index) (some (contents source)) ∈ events contents)
    (moved : src.address (src.unexpand index) ≠ source) :
    ¬∀ contents before, Right conversions contents before src dst := by
  intro right
  obtain ⟨one, two, apart⟩ := exists_distinct conversions
  have allowed := ((right_iff (ran fun place => if place = source then one else two)).mp
    (right _ fun _ => two)).2.1 _ _ (stored _)
  have value := ((allowed_same same short).mp allowed).1 index member rfl
  rw [element, if_pos rfl, if_neg moved] at value
  exact apart (some.inj value)

theorem Planes.fits_of_right (planes : Planes src dst cfg s0 s1 s2)
    (same : dst.dtype = src.dtype) (short : dst.dtype ≠ .kShort)
    (ran : ∀ contents, directCopyKernelCuda contents src dst conversions =
      .ok (permute3dTransposeCopyImpl contents src dst (.contiguousTail cfg)))
    (right : ∀ contents before, Right conversions contents before src dst) :
    TailFits src dst cfg := by
  have size0 : dst.size 0 = s0 := by simp [Tensor.size, planes.dstSizes]
  have size1 : dst.size 1 = s1 := by simp [Tensor.size, planes.dstSizes]
  have size2 : dst.size 2 = s2 := by simp [Tensor.size, planes.dstSizes]
  have numel := numel_three planes.dstSizes
  have rows := planes.rows
  have cols := planes.cols
  unfold Truncated at rows cols
  have ints : dst.numel = 0 ∨ ∀ axis < 3, dst.size axis < 2 ^ 31 := by
    by_cases none : dst.numel = 0
    · exact .inl none
    · right
      rw [numel] at none
      have positive : s0 ≠ 0 ∧ s1 ≠ 0 ∧ s2 ≠ 0 := by
        refine ⟨?_, ?_, ?_⟩ <;> rintro rfl <;> simp at none
      have member : [s0 - 1, s1 - 1, s2 - 1] ∈ indices dst.sizes := by
        rw [planes.dstSizes]
        exact mem_indices_three.mpr ⟨_, _, _, by omega, by omega, by omega, rfl⟩
      obtain ⟨contents, value, stored⟩ := written_of_right ran same short right member
      obtain ⟨i, j, row, col, elem, early, here, _⟩ := store_tail.mp stored
      rw [planes.dstAddress, planes.dstBase _ _ (by omega) (by omega) positive.2.2,
        planes.dstBase i j (by omega) (by omega) positive.2.2] at here
      have small := alignElems_le (cfg.srcBase src.dataPtr i j) (cfg.dstBase dst.dataPtr i j)
      have last : ((s0 - 1) * s1 + (s1 - 1)) * s2 + (s2 - 1) = s0 * s1 * s2 - 1 := by
        obtain ⟨a, rfl⟩ := Nat.exists_eq_succ_of_ne_zero positive.1
        obtain ⟨b, rfl⟩ := Nat.exists_eq_succ_of_ne_zero positive.2.1
        obtain ⟨c, rfl⟩ := Nat.exists_eq_succ_of_ne_zero positive.2.2
        simp only [Nat.succ_eq_add_one, Nat.add_sub_cancel]
        have expand : (a + 1) * (b + 1) * (c + 1) = (a * (b + 1) + b) * (c + 1) + c + 1 := by ring
        rw [expand, Nat.add_sub_cancel]
      obtain ⟨first, second, third⟩ := planes.ints_of_last row col none
        (early.imp_left fun before => by omega) (by omega)
      intro axis three
      have cases : axis = 0 ∨ axis = 1 ∨ axis = 2 := by omega
      rcases cases with rfl | rfl | rfl
      · exact size0.symm ▸ first
      · exact size1.symm ▸ second
      · exact size2.symm ▸ third
  refine ⟨ints, fun i j row col => ?_⟩
  obtain ⟨rowInside, colInside, tail⟩ := planes.inside ints row col
  constructor
  · by_contra unfit
    have small := planes.tail.1
    have even : cfg.srcBase src.dataPtr i j % 2 = 0 := by
      rw [planes.srcBase]
      have even := planes.even
      omega
    obtain ⟨thread, inside, event, member, bad⟩ :=
      (bad_plane (fun _ => conversions.ofShort 0) (by omega) small even).mpr unfit
    have fine := ((right_iff (ran fun _ => conversions.ofShort 0)).mp
      (right _ fun _ => conversions.ofShort 0)).1
    exact fine event ((mem_tailGrid cfg).mpr ⟨i, j, row, col, thread, inside, member⟩) bad
  · by_contra harmful
    rw [size0, size1, size2, numel, tail] at harmful
    simp only [not_or, not_and_or] at harmful
    obtain ⟨beyond, harm⟩ := harmful
    have stored : ∀ elem : Nat, elem < alignElems (cfg.srcBase src.dataPtr i j)
        (cfg.dstBase dst.dataPtr i j) → ∀ contents : Nat → α,
        .store (cfg.dstBase dst.dataPtr i j + 2 * elem)
            (some (contents (cfg.srcBase src.dataPtr i j + 2 * elem))) ∈
          permute3dTransposeCopyImpl contents src dst (.contiguousTail cfg) :=
      fun elem early contents => store_tail.mpr ⟨i, j, row, col, elem, .inl early, rfl, rfl⟩
    by_cases empty : s2 = 0
    · refine not_right_of_outside same short ran (stored 0 (by omega)) ?_ right
      intro index member
      rw [planes.dstSizes] at member
      obtain ⟨_, _, k, _, _, none, _⟩ := mem_indices_three.mp member
      omega
    · by_cases room : (i * s1 + j) * s2 + alignElems (cfg.srcBase src.dataPtr i j)
          (cfg.dstBase dst.dataPtr i j) ≤ s0 * s1 * s2
      · have wide : s0 ≠ 1 ∧ s1 ≠ 1 := by tauto
        have place : (i * s1 + j) * s2 + s2 < s0 * s1 * s2 := by omega
        by_cases sameRow : j + 1 < s1
        · have member : [i, j + 1, 0] ∈ indices dst.sizes := by
            rw [planes.dstSizes]
            exact mem_indices_three.mpr ⟨i, j + 1, 0, rowInside, sameRow, by omega, rfl⟩
          have target : dst.address [i, j + 1, 0] = cfg.dstBase dst.dataPtr i j + 2 * s2 := by
            rw [planes.dstAddress, planes.dstBase i _ rowInside sameRow empty,
              planes.dstBase i j rowInside colInside empty]
            ring
          refine not_right_of_moved same short ran (cfg.srcBase src.dataPtr i j + 2 * s2) member ?_ ?_
            right
          · rw [target]
            exact stored s2 (by omega)
          · rw [unexpand_of_mem (planes.srcSizes.trans planes.dstSizes.symm) member, planes.srcAddress,
              planes.srcBase, planes.srcBase]
            have apart : (i + (j + 1) * s0) * s2 = (i + j * s0) * s2 + s0 * s2 := by ring
            have more : 1 * s2 < s0 * s2 := Nat.mul_lt_mul_of_pos_right (by omega) (by omega)
            omega
        · have last : j + 1 = s1 := by omega
          have next : i + 1 < s0 := by
            have less : (i * s1 + j + 1) * s2 < s0 * s1 * s2 := by
              rw [Nat.add_mul, Nat.one_mul]
              exact place
            have few := Nat.lt_of_mul_lt_mul_right less
            rw [Nat.add_assoc, last, ← Nat.succ_mul] at few
            exact Nat.lt_of_mul_lt_mul_right few
          have member : [i + 1, 0, 0] ∈ indices dst.sizes := by
            rw [planes.dstSizes]
            exact mem_indices_three.mpr ⟨i + 1, 0, 0, next, by omega, by omega, rfl⟩
          have target : dst.address [i + 1, 0, 0] = cfg.dstBase dst.dataPtr i j + 2 * s2 := by
            rw [planes.dstAddress, planes.dstBase _ _ next (by omega) empty,
              planes.dstBase i j rowInside colInside empty, ← last]
            ring
          refine not_right_of_moved same short ran (cfg.srcBase src.dataPtr i j + 2 * s2) member ?_ ?_
            right
          · rw [target]
            exact stored s2 (by omega)
          · rw [unexpand_of_mem (planes.srcSizes.trans planes.dstSizes.symm) member, planes.srcAddress,
              planes.srcBase, planes.srcBase]
            have apart : (i + j * s0) * s2 = i * s2 + j * (s0 * s2) := by ring
            have also : (i + 1 + 0 * s0) * s2 = i * s2 + s2 := by ring
            have more : 0 < j * (s0 * s2) :=
              Nat.mul_pos (by omega) (Nat.mul_pos (by omega) (by omega))
            omega
      · refine not_right_of_outside same short ran (stored _ (Nat.sub_lt (n := alignElems _ _)
          (by omega) Nat.one_pos)) ?_ right
        intro index member
        rw [planes.dstSizes] at member
        obtain ⟨i', j', k, row', col', tail', rfl⟩ := mem_indices_three.mp member
        have inside := linear_lt row' col' tail'
        rw [planes.dstAddress, planes.dstBase i' j' row' col' empty,
          planes.dstBase i j rowInside colInside empty]
        rw [planes.dstBase i j rowInside colInside empty] at room beyond
        omega

end TailPath

section Results

def Fits (src dst : Tensor) : Permute3DTransposeConfig → Prop
  | .contiguousTail cfg => TailFits src dst cfg
  | .tile cfg => TileFits src dst cfg

theorem right_taken {cfg : Permute3DTransposeConfig} (operands : Operands src dst)
    (taken : takenFastPath src dst = some cfg) :
    (∀ contents before, Right conversions contents before src dst) ↔
      dst.dtype = src.dtype ∧ Fits src dst cfg := by
  obtain ⟨⟨half, _⟩, fast⟩ := taken_cases taken
  obtain ⟨launched, s0, s1, s2, layout⟩ := fastPath_cases fast
  have short : dst.dtype ≠ .kShort := by
    rcases half with half | half <;> rw [half] <;> decide
  have wide : dst.dtype.elementSize = 2 := by
    rcases half with half | half <;> rw [half] <;> rfl
  by_cases same : dst.dtype = src.dtype
  · simp only [same, true_and]
    rcases layout with ⟨rfl, exchanged⟩ | ⟨best, rfl, permuted, proper⟩
    · have planes := planes_of_exchanged exchanged (same ▸ wide) same operands.srcAligned
      have ran : ∀ contents, directCopyKernelCuda contents src dst conversions =
          .ok (permute3dTransposeCopyImpl contents src dst (.contiguousTail (tailConfig src dst))) := by
        intro contents
        rw [directCopy_taken taken, permute3dTransposeCopy, if_neg (not_not.mpr same), if_pos half]
      exact ⟨planes.fits_of_right same short ran, planes.right_of_fits operands same short ran⟩
    · exact right_tile operands same half taken proper permuted launched
  · simp only [same, false_and, iff_false]
    intro right
    obtain ⟨events, ran, _⟩ := right (fun _ => conversions.ofShort 0) fun _ => conversions.ofShort 0
    rw [directCopy_taken taken, permute3dTransposeCopy, if_pos same] at ran
    cases ran

/-- Off the fast path a copy is right but for floats that are rounded to the least short. On it,
it is right whatever the tensors hold, if and only if the types are the same and the kernel fits the
layout. -/
theorem direct_copy_right (conversions : Conversions α) (src dst : Tensor)
    (operands : Operands src dst) :
    (takenFastPath src dst = none → ∀ contents before, Right conversions contents before src dst ↔
      (dst.dtype = .kShort → src.dtype = .kFloat → ∀ index ∈ indices dst.sizes, ∀ real,
        conversions.asReal (element contents src index) = some real →
          ¬(-32769 < real ∧ real < -32768))) ∧
    ∀ cfg, takenFastPath src dst = some cfg →
      ((∀ contents before, Right conversions contents before src dst) ↔
        dst.dtype = src.dtype ∧ Fits src dst cfg) :=
  ⟨fun slow _ _ => right_slow operands slow, fun _ taken => right_taken operands taken⟩

def rationals : Conversions ℚ where
  convert target source value :=
    if target = .kShort ∧ source = .kFloat then (if 0 ≤ value then ⌊value⌋ else ⌈value⌉ : Int) else value
  asReal := some
  isBelowShort value := value < -32768
  ofShort value := value
  convert_self dtype value := if_neg fun types => by
    have impossible := types.1.symm.trans types.2
    cases impossible
  convert_short value real number _ _ := by
    obtain rfl := Option.some.inj number
    rfl
  convert_half _ := rfl
  convert_bfloat16 _ := rfl
  isBelowShort_eq value real number := by
    obtain rfl := Option.some.inj number
    exact decide_eq_true_iff
  ofShort_inj one two _ _ _ _ same := by exact_mod_cast same

def sampleDst : Tensor := ⟨.kHalf, [2, 2, 2], [4, 2, 1], 1024, rfl⟩

def sampleSrc (dtype : ScalarType) : Tensor := ⟨dtype, [2, 2, 2], [1, 2, 4], 2048, rfl⟩

theorem sampleOperands (dtype : ScalarType) (castable : castable dtype = true)
    (wide : dtype.elementSize = 2) : Operands (sampleSrc dtype) sampleDst where
  expands := ⟨Nat.le_refl 3, by simp [sampleSrc, sampleDst, Tensor.dim]⟩
  supported := .inl ⟨rfl, castable⟩
  apart := by decide
  bytes := by decide
  srcAligned := by simp [sampleSrc, wide]

theorem direct_copy_right_sample : Operands (sampleSrc .kHalf) sampleDst ∧
    ∀ contents before, Right rationals contents before (sampleSrc .kHalf) sampleDst := by
  refine ⟨sampleOperands .kHalf rfl rfl, ?_⟩
  refine ((direct_copy_right rationals _ _ (sampleOperands .kHalf rfl rfl)).2 (.tile
    ⟨2, 2, 2, true, 8, 2, 4, 8, 2, 4⟩) (by decide +kernel)).mpr ⟨rfl, ?_⟩
  refine ⟨by decide, by decide, by decide, ?_⟩
  rintro ⟨_, _, wide, _⟩
  exact absurd wide (by decide)

/-- A copy from BFloat16 to Half is refused if the source is a permutation of the destination. -/
theorem direct_copy_wrong : Operands (sampleSrc .kBFloat16) sampleDst ∧
      directCopyKernelCuda (fun _ => (0 : ℚ)) (sampleSrc .kBFloat16) sampleDst rationals =
        .error "permute_3d_transpose_copy requires matching input and output dtypes" ∧
      ¬Right rationals (fun _ => 0) (fun _ => 0) (sampleSrc .kBFloat16) sampleDst := by
  have refused : directCopyKernelCuda (fun _ => (0 : ℚ)) (sampleSrc .kBFloat16) sampleDst rationals =
      .error "permute_3d_transpose_copy requires matching input and output dtypes" := by
    have taken : takenFastPath (sampleSrc .kBFloat16) sampleDst =
        some (.tile ⟨2, 2, 2, true, 8, 2, 4, 8, 2, 4⟩) := by decide +kernel
    rw [directCopy_taken taken]
    rfl
  refine ⟨sampleOperands _ rfl rfl, refused, ?_⟩
  rintro ⟨events, ran, _⟩
  rw [refused] at ran
  cases ran

end Results

end TorchSupa.Aten.DirectCopy
