import TorchSupa.Aten.HybridOffsets
import Mathlib.Algebra.BigOperators.Group.List.Lemmas

/-!
`OffsetCalculator`, which turns a linear index into an offset for each operand. The strides and the
offsets are words of 32 bits, which `signed_strides` takes for signed ones.
-/

namespace TorchSupa.Aten.Elementwise

open DirectCopy List Nat

section Code

def IntDivider.hostDiv (self : IntDivider) (n : Nat) : Nat :=
  u32 ((n * self.m1 / 2 ^ 32 + n) >>> self.shift)

def IntDivider.mod (self : IntDivider) (n : Nat) : Nat :=
  u32 (n + (2 ^ 32 - u32 (self.div n * self.divisor)))

structure OffsetCalculator (nargs : Nat) where
  sizes : List IntDivider
  strides : List (Fin nargs → BitVec 32)

variable {nargs : Nat}

def elementStrides (strides : Fin nargs → List Int) (elementSizes : Option (Fin nargs → Int))
    (arg : Fin nargs) : List Int :=
  (strides arg).map (·.tdiv ((elementSizes.map (· arg)).getD 1))

def OffsetCalculator.new (sizes : List Nat) (strides : Fin nargs → List Int)
    (elementSizes : Option (Fin nargs → Int)) : Except String (OffsetCalculator nargs) :=
  if sizes.length ≤ maxDims then
    .ok {
      sizes := sizes.map fun size => IntDivider.new (u32 size)
      strides := (List.range sizes.length).map fun dim arg =>
        BitVec.ofInt 32 ((elementStrides strides elementSizes arg).getD dim 0) }
  else .error "tensor has too many (>25) dims"

def OffsetCalculator.getFrom : List IntDivider → List (Fin nargs → BitVec 32) → Nat →
    (Fin nargs → BitVec 32) → Fin nargs → BitVec 32
  | size :: sizes, stride :: strides, linearIdx, offsets =>
    let divmod := size.divmod linearIdx
    getFrom sizes strides divmod.1 fun arg =>
      offsets arg + BitVec.ofNat 32 divmod.2 * stride arg
  | _, _, _, offsets => offsets

def OffsetCalculator.get (self : OffsetCalculator nargs) (linearIdx : Nat) :
    Fin nargs → BitVec 32 :=
  getFrom self.sizes self.strides linearIdx fun _ => 0

def strideValue (signedStrides : Bool) (word : BitVec 32) : Int :=
  if signedStrides then word.toInt else word.toNat

end Code

section Digits

def coordinates : List Nat → Nat → List Nat
  | [], _ => []
  | size :: sizes, idx => idx % size :: coordinates sizes (idx / size)

def fromCoordinates : List Nat → List Nat → Nat
  | size :: sizes, coordinate :: rest => coordinate + size * fromCoordinates sizes rest
  | _, _ => 0

def stridedSum : List Nat → List Int → Int
  | coordinate :: coordinates, stride :: strides =>
    coordinate * stride + stridedSum coordinates strides
  | _, _ => 0

variable {sizes : List Nat} {idx : Nat}

theorem fromCoordinates_coordinates (inside : idx < sizes.prod) :
    fromCoordinates sizes (coordinates sizes idx) = idx := by
  induction sizes generalizing idx with
  | nil =>
    rw [prod_nil, lt_one_iff] at inside
    rw [inside]
    rfl
  | cons size sizes ih =>
    rw [prod_cons] at inside
    have digit := Nat.mod_add_div idx size
    rw [coordinates, fromCoordinates, ih (Nat.div_lt_of_lt_mul inside), digit]

theorem coordinates_lt (positive : ∀ size ∈ sizes, 0 < size) (idx : Nat) :
    List.Forall₂ (· < ·) (coordinates sizes idx) sizes := by
  induction sizes generalizing idx with
  | nil => exact .nil
  | cons size sizes ih =>
    obtain ⟨some, others⟩ := forall_mem_cons.mp positive
    exact .cons (mod_lt idx some) (ih others _)

end Digits

section Offsets

theorem div_mod_eq {divisor n : Nat} (some : 0 < divisor) (int : divisor < 2 ^ 31)
    (small : n < 2 ^ 31) : (IntDivider.new divisor).div n = n / divisor ∧
      (IntDivider.new divisor).hostDiv n = n / divisor ∧
      (IntDivider.new divisor).mod n = n % divisor := by
  have both := divmod_eq some int small
  have quotient : (IntDivider.new divisor).div n = n / divisor := congrArg Prod.fst both
  refine ⟨quotient, ?_, congrArg Prod.snd both⟩
  -- the sum does not need the 64 bits
  have word : (IntDivider.new divisor).m1 < 2 ^ 32 := mod_lt _ (by decide)
  have high : n * (IntDivider.new divisor).m1 / 2 ^ 32 ≤ n :=
    Nat.div_le_of_le_mul ((Nat.mul_le_mul_left n word.le).trans_eq (Nat.mul_comm _ _))
  have fits : n * (IntDivider.new divisor).m1 / 2 ^ 32 + n < 2 ^ 32 := by omega
  rw [← quotient, IntDivider.div, IntDivider.hostDiv, u32, u32, mod_eq_of_lt fits]
  exact mod_eq_of_lt ((shiftRight_le _ _).trans_lt fits)

variable {nargs : Nat}

theorem getFrom_eq {sizes : List Nat} {rows : List (Fin nargs → BitVec 32)} {arg : Fin nargs}
    {strides : List Int} (rows_eq : rows.map (· arg) = strides.map (BitVec.ofInt 32))
    (positive : ∀ size ∈ sizes, 0 < size ∧ size < 2 ^ 31) {idx : Nat} (int : idx < 2 ^ 31)
    (offsets : Fin nargs → BitVec 32) :
    OffsetCalculator.getFrom (sizes.map IntDivider.new) rows idx offsets arg =
      offsets arg + BitVec.ofInt 32 (stridedSum (coordinates sizes idx) strides) := by
  induction sizes generalizing rows strides idx offsets with
  | nil => simp [OffsetCalculator.getFrom, coordinates, stridedSum]
  | cons size sizes ih =>
    cases rows with
    | nil =>
      obtain rfl : strides = [] := map_eq_nil_iff.mp rows_eq.symm
      simp [OffsetCalculator.getFrom, stridedSum]
    | cons row rows =>
      cases strides with
      | nil => cases rows_eq
      | cons stride strides =>
        obtain ⟨first, rest⟩ := cons.inj rows_eq
        replace first : row arg = BitVec.ofInt 32 stride := first
        obtain ⟨⟨some, small⟩, others⟩ := forall_mem_cons.mp positive
        have below := (div_le_self idx size).trans_lt int
        rw [map_cons, OffsetCalculator.getFrom, divmod_eq some small int]
        rw [ih rest others below, first, coordinates, stridedSum, BitVec.ofInt_add,
          BitVec.ofInt_mul, BitVec.ofInt_natCast, BitVec.add_assoc]


theorem strideValue_ofInt {signedStrides : Bool} {offset : Int} (below : offset < 2 ^ 31)
    (above : if signedStrides then -2 ^ 31 ≤ offset else 0 ≤ offset) :
    strideValue signedStrides (BitVec.ofInt 32 offset) = offset := by
  unfold strideValue
  cases signedStrides with
  | true => exact BitVec.toInt_ofInt_eq_self (by decide) above below
  | false =>
    simp only [Bool.false_eq_true, if_false, BitVec.toNat_ofInt] at above ⊢
    omega

end Offsets

/-- Each offset is the sum of the coordinates times the strides, and each division is exact. -/
theorem offsets_right {nargs : Nat} {signedStrides : Bool} {sizes : List Nat}
    {strides : Fin nargs → List Int} {elementSizes : Option (Fin nargs → Int)}
    {calculator : OffsetCalculator nargs}
    (made : OffsetCalculator.new sizes strides elementSizes = .ok calculator)
    (ranked : ∀ arg, (strides arg).length = sizes.length)
    (positive : ∀ size ∈ sizes, 0 < size) (numel : sizes.prod < 2 ^ 31)
    (offsets : ∀ idx < sizes.prod, ∀ arg,
      let offset := stridedSum (coordinates sizes idx) (elementStrides strides elementSizes arg)
      offset < 2 ^ 31 ∧ if signedStrides then -2 ^ 31 ≤ offset else 0 ≤ offset) :
    (∀ divisor n, 0 < divisor → divisor < 2 ^ 31 → n < 2 ^ 31 →
      (IntDivider.new divisor).div n = n / divisor ∧
        (IntDivider.new divisor).hostDiv n = n / divisor ∧
        (IntDivider.new divisor).mod n = n % divisor) ∧
    ∀ idx < sizes.prod, ∀ arg, strideValue signedStrides (calculator.get idx arg) =
        stridedSum (coordinates sizes idx) (elementStrides strides elementSizes arg) ∧
      List.Forall₂ (· < ·) (coordinates sizes idx) sizes ∧
      fromCoordinates sizes (coordinates sizes idx) = idx := by
  refine ⟨fun divisor n some int small => div_mod_eq some int small, fun idx inside arg =>
    ⟨?_, coordinates_lt positive idx, fromCoordinates_coordinates inside⟩⟩
  have bounded : ∀ size ∈ sizes, 0 < size ∧ size < 2 ^ 31 := fun size member =>
    ⟨positive size member, (le_of_dvd (zero_lt_of_lt inside) (dvd_prod member)).trans_lt numel⟩
  unfold OffsetCalculator.new at made
  split at made
  · cases made
    have dividers : (sizes.map fun size => IntDivider.new (u32 size)) = sizes.map IntDivider.new :=
      map_congr_left fun size member => by
        have small := (bounded size member).2
        rw [u32, mod_eq_of_lt (by omega)]
    have rows : ((range sizes.length).map fun (dim : Nat) (arg : Fin nargs) =>
          BitVec.ofInt 32 ((elementStrides strides elementSizes arg).getD dim 0)).map (· arg) =
        (elementStrides strides elementSizes arg).map (BitVec.ofInt 32) := by
      have length : (elementStrides strides elementSizes arg).length = sizes.length := by
        rw [elementStrides, length_map, ranked]
      refine ext_getElem (by simp [length]) fun dim here there => ?_
      simp only [getElem_map, getElem_range]
      rw [length_map] at there
      rw [getD_eq_getElem?_getD, getElem?_eq_getElem there, Option.getD_some]
    obtain ⟨below, above⟩ := offsets idx inside arg
    rw [OffsetCalculator.get, dividers, getFrom_eq rows bounded (inside.trans numel),
      show (0 : BitVec 32) + _ = _ from BitVec.zero_add _, strideValue_ofInt below above]
  · cases made

/-- Two axes of an operand of four bytes, the second one flipped. -/
theorem offsets_right_flipped : ∃ calculator : OffsetCalculator 1,
    OffsetCalculator.new [2, 3] (fun _ => [4, -8]) (some fun _ => 4) = .ok calculator ∧
      strideValue true (calculator.get 5 0) = -3 :=
  ⟨_, rfl, ((@offsets_right 1 true [2, 3] (fun _ => [4, -8]) (some fun _ => 4) _ rfl (by decide)
    (by decide) (by decide) (by decide)).2 5 (by decide) 0).1⟩

end TorchSupa.Aten.Elementwise
