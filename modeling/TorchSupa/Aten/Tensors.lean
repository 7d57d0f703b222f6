import Mathlib.Data.List.Sort
import Mathlib.Data.Rat.Floor

/-!
Tensors as the operators see them: a type of elements, sizes, strides in elements and the address
of the first element, and the conversions between types.
-/

namespace TorchSupa.Aten

/-- `c10::ScalarType`, by the names of its constants, less the integers of fewer than eight bits:
no operator here is defined on them. -/
inductive ScalarType
  | kByte
  | kChar
  | kShort
  | kInt
  | kLong
  | kHalf
  | kFloat
  | kDouble
  | kComplexHalf
  | kComplexFloat
  | kComplexDouble
  | kBool
  | kQInt8
  | kQUInt8
  | kQInt32
  | kBFloat16
  | kQUInt4x2
  | kQUInt2x4
  | kBits1x8
  | kBits2x4
  | kBits4x2
  | kBits8
  | kBits16
  | kFloat8_e5m2
  | kFloat8_e4m3fn
  | kFloat8_e5m2fnuz
  | kFloat8_e4m3fnuz
  | kUInt16
  | kUInt32
  | kUInt64
  | kFloat8_e8m0fnu
deriving DecidableEq, Repr

namespace ScalarType

def toString : ScalarType → String
  | kByte => "Byte"
  | kChar => "Char"
  | kShort => "Short"
  | kInt => "Int"
  | kLong => "Long"
  | kHalf => "Half"
  | kFloat => "Float"
  | kDouble => "Double"
  | kComplexHalf => "ComplexHalf"
  | kComplexFloat => "ComplexFloat"
  | kComplexDouble => "ComplexDouble"
  | kBool => "Bool"
  | kQInt8 => "QInt8"
  | kQUInt8 => "QUInt8"
  | kQInt32 => "QInt32"
  | kBFloat16 => "BFloat16"
  | kQUInt4x2 => "QUInt4x2"
  | kQUInt2x4 => "QUInt2x4"
  | kBits1x8 => "Bits1x8"
  | kBits2x4 => "Bits2x4"
  | kBits4x2 => "Bits4x2"
  | kBits8 => "Bits8"
  | kBits16 => "Bits16"
  | kFloat8_e5m2 => "Float8_e5m2"
  | kFloat8_e4m3fn => "Float8_e4m3fn"
  | kFloat8_e5m2fnuz => "Float8_e5m2fnuz"
  | kFloat8_e4m3fnuz => "Float8_e4m3fnuz"
  | kUInt16 => "UInt16"
  | kUInt32 => "UInt32"
  | kUInt64 => "UInt64"
  | kFloat8_e8m0fnu => "Float8_e8m0fnu"

def elementSize : ScalarType → Nat
  | kByte | kChar | kBool | kQInt8 | kQUInt8 | kQUInt4x2 | kQUInt2x4 | kBits1x8 | kBits2x4 | kBits4x2
  | kBits8 | kFloat8_e5m2 | kFloat8_e4m3fn | kFloat8_e5m2fnuz | kFloat8_e4m3fnuz | kFloat8_e8m0fnu => 1
  | kShort | kHalf | kBFloat16 | kBits16 | kUInt16 => 2
  | kInt | kFloat | kQInt32 | kUInt32 | kComplexHalf => 4
  | kLong | kDouble | kUInt64 | kComplexFloat => 8
  | kComplexDouble => 16

def isQIntType : ScalarType → Bool
  | kQInt8 | kQUInt8 | kQInt32 | kQUInt4x2 | kQUInt2x4 => true
  | _ => false

def isFloat8Type : ScalarType → Bool
  | kFloat8_e5m2 | kFloat8_e5m2fnuz | kFloat8_e4m3fn | kFloat8_e4m3fnuz | kFloat8_e8m0fnu => true
  | _ => false

def isBitsType : ScalarType → Bool
  | kBits1x8 | kBits2x4 | kBits4x2 | kBits8 | kBits16 => true
  | _ => false

theorem elementSize_pos (dtype : ScalarType) : 0 < dtype.elementSize := by
  cases dtype <;> decide

end ScalarType

structure Tensor where
  dtype : ScalarType
  sizes : List Nat
  strides : List Nat
  dataPtr : Nat
  ranked : strides.length = sizes.length

namespace Tensor

variable (tensor : Tensor)

def dim : Nat := tensor.sizes.length

def size (axis : Nat) : Nat := tensor.sizes.getD axis 0

def stride (axis : Nat) : Nat := tensor.strides.getD axis 0

def numel : Nat := tensor.sizes.prod

end Tensor

section Indices

def indices : List Nat → List (List Nat)
  | [] => [[]]
  | size :: sizes => (List.range size).flatMap fun place => (indices sizes).map (place :: ·)

def offset : List Nat → List Nat → Nat
  | place :: index, stride :: strides => place * stride + offset index strides
  | _, _ => 0

theorem mem_indices {sizes : List Nat} : ∀ {index : List Nat},
    index ∈ indices sizes ↔ List.Forall₂ (· < ·) index sizes := by
  induction sizes with
  | nil => simp [indices]
  | cons size sizes ih =>
    intro index
    simp only [indices, List.mem_flatMap, List.mem_range, List.mem_map]
    constructor
    · rintro ⟨place, below, rest, member, rfl⟩
      exact .cons below (ih.mp member)
    · intro within
      cases within with
      | cons below rest => exact ⟨_, below, _, ih.mpr rest, rfl⟩

end Indices

namespace Tensor

variable (tensor : Tensor)

def address (index : List Nat) : Nat :=
  tensor.dataPtr + offset index tensor.strides * tensor.dtype.elementSize

def unexpand (index : List Nat) : List Nat :=
  List.zipWith (fun size place => if size = 1 then 0 else place) tensor.sizes
    (index.drop (index.length - tensor.dim))

def ExpandsTo (sizes : List Nat) : Prop :=
  tensor.dim ≤ sizes.length ∧
    List.Forall₂ (fun size full => size = full ∨ size = 1) tensor.sizes
      (sizes.drop (sizes.length - tensor.dim))

def contiguousFrom : Nat → List (Nat × Nat) → Bool
  | _, [] => true
  | z, (size, stride) :: outer =>
    if size = 1 then contiguousFrom z outer else stride == z && contiguousFrom (z * size) outer

def isContiguous : Bool :=
  tensor.numel == 0 || contiguousFrom 1 (tensor.sizes.zip tensor.strides).reverse

def denseFrom : Nat → List (Nat × Nat) → Bool
  | _, [] => true
  | require, (size, stride) :: rest =>
    if size < 2 then true else stride == require && denseFrom (require * size) rest

def axisBefore (a b : Nat × Nat) : Bool :=
  if a.1 < 2 then false else if b.1 < 2 then true else a.2 < b.2

def isNonOverlappingAndDense : Bool :=
  tensor.isContiguous ||
    denseFrom 1 ((tensor.sizes.zip tensor.strides).insertionSort fun a b => !axisBefore b a)

end Tensor

/-- What is known of values and their conversions: `α` is what an element may hold. -/
structure Conversions (α : Type) where
  convert : (target source : ScalarType) → α → α
  asReal : α → Option ℚ
  isBelowShort : α → Bool
  ofShort : Int → α
  convert_self : ∀ dtype value, convert dtype dtype value = value
  convert_short : ∀ value real, asReal value = some real → -32769 < real → real < 32768 →
    convert .kShort .kFloat value = ofShort (if 0 ≤ real then ⌊real⌋ else ⌈real⌉)
  convert_half : ∀ value, convert .kHalf .kFloat8_e8m0fnu value =
    convert .kHalf .kFloat (convert .kFloat .kFloat8_e8m0fnu value)
  convert_bfloat16 : ∀ value, convert .kBFloat16 .kFloat8_e8m0fnu value =
    convert .kBFloat16 .kFloat (convert .kFloat .kFloat8_e8m0fnu value)
  isBelowShort_eq : ∀ value real, asReal value = some real →
    (isBelowShort value = true ↔ real < -32768)
  ofShort_inj : ∀ one two, -32768 ≤ one → one < 32768 → -32768 ≤ two → two < 32768 →
    ofShort one = ofShort two → one = two

end TorchSupa.Aten
