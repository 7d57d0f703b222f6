import TorchSupa.Aten.DirectCopy
import TorchSupa.Logic.MagicDivision

/-!
The offsets of the inputs of a binary operator when one of them is laid out as the output: that
input's are the linear index, the other's are computed along its strides, with a division by each
size.
-/

namespace TorchSupa.Aten.Elementwise

open DirectCopy List Nat

section Iterators

structure Operand where
  dtype : ScalarType
  strides : List Nat
  dataPtr : Nat
deriving DecidableEq, Repr

def Operand.elementSize (operand : Operand) : Nat := operand.dtype.elementSize

structure TensorIterator where
  shape : List Nat
  output : Operand
  input0 : Operand
  input1 : Operand
deriving DecidableEq, Repr

def offset : List Nat → List Nat → Nat → Nat
  | size :: shape, stride :: strides, idx => idx % size * stride + offset shape strides (idx / size)
  | _, _, _ => 0

def maxOffset : List Nat → List Nat → Nat
  | size :: shape, stride :: strides => (size - 1) * stride + maxOffset shape strides
  | _, _ => 0

namespace TensorIterator

variable (iter : TensorIterator)

def ndim : Nat := iter.shape.length

def numel : Nat := iter.shape.prod

def input (arg : Nat) : Operand := if arg = 0 then iter.input0 else iter.input1

def address (operand : Operand) (idx : Nat) : Nat :=
  operand.dataPtr + offset iter.shape operand.strides idx

/-- An operand of a tensor iterator that `can_use_32bit_indexing`. -/
structure Indexable (operand : Operand) : Prop where
  ranked : operand.strides.length = iter.shape.length
  whole : ∀ stride ∈ operand.strides, operand.elementSize ∣ stride
  near : 1 + maxOffset iter.shape operand.strides ≤ 2 ^ 31 - 1

end TensorIterator

end Iterators

section Dividers

structure IntDivider where
  divisor : Nat
  m1 : Nat
  shift : Nat
deriving DecidableEq, Repr

namespace IntDivider

/-- `for (shift = 0; shift < 32; shift++) if ((1U << shift) >= divisor) break;` -/
def shiftFor (divisor : Nat) : Nat := ((List.range 32).find? (divisor ≤ 1 <<< ·)).getD 32

def new (divisor : Nat) : IntDivider where
  divisor
  m1 := u32 ((1 <<< 32) * ((1 <<< shiftFor divisor) - divisor) / divisor + 1)
  shift := shiftFor divisor

variable (self : IntDivider)

def div (n : Nat) : Nat := u32 (n * self.m1 / 2 ^ 32 + n) >>> self.shift

def divmod (n : Nat) : Nat × Nat :=
  let q := self.div n
  (q, u32 (n + (2 ^ 32 - u32 (q * self.divisor))))

end IntDivider

variable {divisor n : Nat}

open IntDivider

theorem shiftFor_spec (some : 0 < divisor) (int : divisor < 2 ^ 31) :
    divisor ≤ 2 ^ shiftFor divisor ∧ 2 ^ shiftFor divisor < 2 * divisor := by
  unfold shiftFor
  cases found : (range 32).find? (divisor ≤ 1 <<< ·) with
  | none =>
    have last := find?_eq_none.mp found 31 (by decide)
    simp only [decide_eq_true_eq, not_le] at last
    exact absurd last (by omega)
  | some shift =>
    obtain ⟨covers, before⟩ := find?_range_eq_some.mp found
    simp only [decide_eq_true_eq, one_shiftLeft] at covers before
    refine ⟨covers, ?_⟩
    cases shift with
    | zero =>
      change 2 ^ 0 < 2 * divisor
      omega
    | succ less =>
      have short := before.2 less (lt_succ_self less)
      simp at short
      change 2 ^ (less + 1) < 2 * divisor
      rw [pow_succ]
      omega

theorem divmod_eq (some : 0 < divisor) (int : divisor < 2 ^ 31) (small : n < 2 ^ 31) :
    (new divisor).divmod n = (n / divisor, n % divisor) := by
  obtain ⟨covers, least⟩ := shiftFor_spec some int
  have fits := @MagicDivision.magic_lt 32 _ _ some least (by omega)
  have magic : (new divisor).m1 = MagicDivision.magic 32 (shiftFor divisor) divisor := by
    have exact_ := mod_eq_of_lt fits
    unfold MagicDivision.magic at exact_ ⊢
    unfold new u32
    simp only [one_shiftLeft]
    exact exact_
  have quotient : (new divisor).div n = n / divisor := by
    have room := MagicDivision.sum_lt fits (show n + n < 2 ^ 32 by omega)
    unfold div u32
    rw [magic, mod_eq_of_lt room, shiftRight_eq_div_pow]
    exact MagicDivision.quotient_eq some covers (by omega)
  unfold divmod
  rw [quotient]
  have parts := div_add_mod n divisor
  have product : (new divisor).divisor = divisor := rfl
  rw [product]
  rw [mul_comm] at parts
  simp only [u32, Prod.mk.injEq, true_and]
  omega

end Dividers

section Calculators

def maxDims : Nat := 25

structure HybridOffsetCalculator where
  matchedArg : Nat
  sizes : List IntDivider
  strides : List (List Nat)
deriving DecidableEq, Repr

def stridedOffset : List IntDivider → List Nat → Nat → Nat → Nat
  | size :: sizes, stride :: strides, linearIdx, sum =>
    let divmod := size.divmod linearIdx
    stridedOffset sizes strides divmod.1 (u32 (sum + u32 (divmod.2 * stride)))
  | _, _, _, sum => sum

def HybridOffsetCalculator.get (self : HybridOffsetCalculator) (linearIdx arg : Nat) : Nat :=
  if arg = self.matchedArg then linearIdx
  else stridedOffset self.sizes (self.strides.getD arg []) linearIdx 0

def makeInputHybridOffsetCalculator (iter : TensorIterator) (matchedArg : Nat) :
    Option HybridOffsetCalculator :=
  if iter.ndim ≤ maxDims then
    some {
      matchedArg
      sizes := iter.shape.map IntDivider.new
      strides := [iter.input0, iter.input1].map fun input =>
        input.strides.map fun stride => u32 (stride / input.elementSize) }
  else none

end Calculators

section Offsets

variable {shape strides : List Nat} {idx size : Nat}

theorem offset_scaled (whole : ∀ stride ∈ strides, size ∣ stride) :
    offset shape strides idx = offset shape (strides.map (· / size)) idx * size := by
  induction shape generalizing strides idx with
  | nil =>
    simp [offset]
  | cons extent shape ih =>
    cases strides with
    | nil => simp [offset]
    | cons stride strides =>
      have here := Nat.div_mul_cancel (whole stride (.head _))
      have rest := @ih strides (idx / extent) fun next member =>
        whole next (.tail _ member)
      rw [offset, map_cons, offset, rest, add_mul, mul_assoc, here]

theorem maxOffset_scaled (size : Nat) :
    maxOffset shape (strides.map (· / size)) ≤ maxOffset shape strides := by
  induction shape generalizing strides with
  | nil => simp [maxOffset]
  | cons extent shape ih =>
    cases strides with
    | nil => simp [maxOffset]
    | cons stride strides =>
      have rest := @ih strides
      have here := mul_le_mul_left (extent - 1) (div_le_self stride size)
      rw [map_cons, maxOffset, maxOffset]
      exact Nat.add_le_add here rest

theorem stridedOffset_eq {sum : Nat} (sizes : ∀ extent ∈ shape, 0 < extent ∧ extent < 2 ^ 31)
    (int : idx < 2 ^ 31) (room : sum + maxOffset shape strides < 2 ^ 32) :
    stridedOffset (shape.map IntDivider.new) (strides.map u32) idx sum =
      sum + offset shape strides idx := by
  induction shape generalizing strides idx sum with
  | nil => simp [stridedOffset, offset]
  | cons extent shape ih =>
    cases strides with
    | nil => simp [stridedOffset, offset]
    | cons stride strides =>
      obtain ⟨some, small⟩ := sizes extent (.head _)
      have rest := Nat.mod_lt idx some
      have below := (Nat.div_le_self idx extent).trans_lt int
      rw [maxOffset] at room
      have most : idx % extent * stride ≤ (extent - 1) * stride :=
        Nat.mul_le_mul_right stride (by omega)
      have term : u32 (idx % extent * u32 stride) = idx % extent * stride := by
        rcases Nat.eq_zero_or_pos (idx % extent) with none | several
        · rw [none, Nat.zero_mul, Nat.zero_mul]
          rfl
        · have short := Nat.le_mul_of_pos_left stride several
          have same : u32 stride = stride := Nat.mod_eq_of_lt (by omega)
          rw [same]
          exact Nat.mod_eq_of_lt (by omega)
      have total : u32 (sum + idx % extent * stride) = sum + idx % extent * stride :=
        Nat.mod_eq_of_lt (by omega)
      rw [map_cons, map_cons, stridedOffset, divmod_eq some small int]
      rw [term, total, ih (fun next member => sizes next (.tail _ member)) below
        (by omega), offset, Nat.add_assoc]

theorem get_eq {iter : TensorIterator} {matchedArg arg : Nat} {offsetCalc : HybridOffsetCalculator}
    (made : makeInputHybridOffsetCalculator iter matchedArg = some offsetCalc) (other : arg ≠ matchedArg)
    (isInput : arg < 2) (sizes : ∀ extent ∈ iter.shape, 0 < extent ∧ extent < 2 ^ 31)
    (indexable : iter.Indexable (iter.input arg)) (int : idx < 2 ^ 31) :
    offsetCalc.get idx arg * (iter.input arg).elementSize =
      offset iter.shape (iter.input arg).strides idx := by
  unfold makeInputHybridOffsetCalculator at made
  split at made
  · cases made
    have strides : ([iter.input0, iter.input1].map fun input =>
        input.strides.map fun stride => u32 (stride / input.elementSize)).getD arg [] =
        ((iter.input arg).strides.map (· / (iter.input arg).elementSize)).map u32 := by
      rw [map_map]
      rcases (show arg = 0 ∨ arg = 1 by omega) with rfl | rfl <;> rfl
    have near := indexable.near
    have scaled := @maxOffset_scaled iter.shape (iter.input arg).strides
      (iter.input arg).elementSize
    unfold HybridOffsetCalculator.get
    rw [if_neg other, strides, stridedOffset_eq sizes int (by omega), zero_add,
      ← offset_scaled indexable.whole]
  · cases made

end Offsets

end TorchSupa.Aten.Elementwise
