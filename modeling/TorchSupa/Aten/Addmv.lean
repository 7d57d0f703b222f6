import Mathlib.Algebra.Ring.Nat
import TorchSupa.Aten.Sublas
import TorchSupa.Logic.Lists

/-!
`addmv_out`: `beta * self + alpha * mat * vec`, where the matrix, the vectors and the result may have
any strides.
-/

namespace TorchSupa.Aten.Sublas

open List Nat

open Lists (ok_bind)

structure Vec (α : Type) where
  size : Nat
  stride : Nat
  data : Nat → α

structure Mat (α : Type) where
  rows : Nat
  cols : Nat
  stride0 : Nat
  stride1 : Nat
  data : Nat → α

inductive Operand (α : Type)
  | scalar (value : α)
  | vector (vec : Vec α)

structure Addmv (α : Type) where
  dtype : ScalarType
  self : Option (Operand α)
  mat : Mat α
  vec : Vec α
  beta : α
  alpha : α
  result : Vec α

section Definitions

variable {α : Type}

def Vec.get (vec : Vec α) (i : Nat) : α := vec.data (i * vec.stride)

def Mat.get (mat : Mat α) (i j : Nat) : α := mat.data (i * mat.stride0 + j * mat.stride1)

def Vec.contiguous (vec : Vec α) : Vec α :=
  if vec.size ≤ 1 ∨ vec.stride = 1 then vec else ⟨vec.size, 1, vec.get⟩

def Vec.withoutZeroStride (vec : Vec α) : Vec α := if vec.stride = 0 then vec.contiguous else vec

def Mat.isContiguous (mat : Mat α) : Prop :=
  mat.rows = 0 ∨ mat.cols = 0 ∨
    (mat.cols = 1 ∨ mat.stride1 = 1) ∧ (mat.rows = 1 ∨ mat.stride0 = mat.cols)

instance Mat.decidableIsContiguous (mat : Mat α) : Decidable mat.isContiguous := inferInstanceAs (Decidable (_ ∨ _ ∨ _))

def Mat.contiguous (mat : Mat α) : Mat α :=
  if mat.isContiguous then mat
  else ⟨mat.rows, mat.cols, mat.cols, 1, fun x => mat.get (x / mat.cols) (x % mat.cols)⟩

def Vec.write (vec : Vec α) (value : Nat → α) : Vec α :=
  { vec with data := fun x =>
      if x % vec.stride = 0 ∧ x / vec.stride < vec.size then value (x / vec.stride) else vec.data x }

def Vec.overlaps (vec : Vec α) : Prop := 1 < vec.size ∧ vec.stride = 0

instance Vec.decidableOverlaps (vec : Vec α) : Decidable vec.overlaps := inferInstanceAs (Decidable (_ ∧ _))

def expandSize (size : Nat) : Operand α → Except Fault (Vec α)
  | .scalar value => .ok ⟨size, 0, fun _ => value⟩
  | .vector vec =>
    if vec.size = size then .ok vec
    else if vec.size = 1 then .ok ⟨size, 0, vec.data⟩
    else .error .expand

variable [Zero α] [Add α] [Mul α] [DecidableEq α]

def mulOut (result : Vec α) (beta : α) : Operand α → Except Fault (Operand α)
  | .scalar value => .ok (.scalar (value * beta))
  | .vector self =>
    if self.size ≠ result.size then .ok (.vector ⟨self.size, 1, fun i => self.get i * beta⟩)
    else if result.overlaps then .error .overlap
    else .ok (.vector (result.write fun i => self.get i * beta))

def Addmv.gemv (call : Addmv α) (trans : Bool) (m n lda : Nat) (data : Nat → α) (result : Vec α) :
    Except Fault (Operand α) := do
  let vec := call.vec.withoutZeroStride
  let y ← Sublas.gemv call.dtype
    { trans, m, n
      alpha := call.alpha
      a := data
      lda
      x := vec.data
      incx := max vec.stride 1
      beta := call.beta
      y := result.data
      incy := result.stride }
  pure (.vector { result with data := y })

def Addmv.copied (call : Addmv α) (expanded : Vec α) : Except Fault (Vec α) :=
  if call.self.isSome ∧ call.beta ≠ 0 then
    if call.result.overlaps then .error .overlap else .ok (call.result.write expanded.get)
  else .ok call.result

def Addmv.product (call : Addmv α) (result : Vec α) : Except Fault (Operand α) :=
  let mat := call.mat
  if mat.stride0 = 1 ∧ max 1 mat.rows ≤ mat.stride1 then
    call.gemv false mat.rows mat.cols mat.stride1 mat.data result
  else if mat.stride1 = 1 ∧ max 1 mat.cols ≤ mat.stride0 then
    call.gemv true mat.cols mat.rows mat.stride0 mat.data result
  else call.gemv true mat.cols mat.rows mat.contiguous.stride0 mat.contiguous.data result

def addmvOut (call : Addmv α) : Except Fault (Operand α) := do
  let self := call.self.getD (.vector call.result)
  let expanded ← expandSize call.mat.rows self
  if call.mat.rows = 0 ∨ call.mat.cols = 0 then
    if call.beta = 0 then pure (.vector (call.result.write fun _ => 0))
    else mulOut call.result call.beta self
  else
    let result ← call.copied expanded
    call.product result

end Definitions

section Proofs

variable {α : Type} [AddMonoid α] [CommMagma α] [DecidableEq α]

def Addmv.expected (call : Addmv α) (self : α) (i : Nat) : α :=
  let product := if call.mat.cols = 0 then 0
    else call.alpha * ((List.range call.mat.cols).map fun j => call.mat.get i j * call.vec.get j).sum
  if call.beta = 0 then product else product + call.beta * self

/-- The shapes are those of a product, and nothing that is handed to the library is refused: the stride of
the matrix along its columns or its rows where the other one is 1, and the increments. Where the matrix
is empty, `self` is not expanded. -/
structure Addmv.Handled (call : Addmv α) : Prop where
  supported : call.dtype = .float ∨ call.dtype = .half ∨ call.dtype = .bfloat16
  vec : call.vec.size = call.mat.cols
  result : call.result.size = call.mat.rows
  sizes : call.mat.rows ≤ 2147483647 ∧ call.mat.cols ≤ 2147483647
  columns : call.mat.stride0 = 1 → 1 < call.mat.cols → call.mat.stride1 ≤ 2147483647
  rows : call.mat.stride1 = 1 → 1 < call.mat.rows → call.mat.stride0 ≤ 2147483647
  operand : call.vec.stride ≤ 2147483647 ∨ call.dtype ≠ .float ∧ call.vec.size ≤ 1
  stride : call.result.stride ≤ 2147483647 ∨ call.dtype ≠ .float ∧ call.result.size ≤ 1
  apart : ¬ call.result.overlaps
  increment : call.dtype = .float → call.result.stride ≠ 0
  empty : call.mat.rows = 0 ∨ call.mat.cols = 0 → call.beta ≠ 0 →
    ∀ self, call.self = some self → ∃ vec, self = .vector vec ∧ vec.size = call.mat.rows

variable {i : Nat} {vec result : Vec α} {call : Addmv α}

theorem place_eq {stride : Nat} (known : 0 < stride ∨ i = 0) :
    i * stride % stride = 0 ∧ i * stride / stride = i := by
  obtain positive | rfl := known
  · exact ⟨mul_mod_left _ _, Nat.mul_div_cancel _ positive⟩
  · rw [zero_mul, zero_mod, Nat.zero_div]
    exact ⟨rfl, rfl⟩

omit [AddMonoid α] [CommMagma α] [DecidableEq α] in
theorem Vec.known (apart : ¬ vec.overlaps) (inside : i < vec.size) : 0 < vec.stride ∨ i = 0 := by
  unfold Vec.overlaps at apart
  omega

omit [AddMonoid α] [CommMagma α] [DecidableEq α] in
theorem Vec.get_write (apart : ¬ vec.overlaps) (value : Nat → α)
    (inside : i < vec.size) : (vec.write value).get i = value i := by
  obtain ⟨multiple, index⟩ := place_eq (vec.known apart inside)
  simp only [Vec.get, Vec.write, multiple, index, inside, and_self, if_true]

omit [AddMonoid α] [CommMagma α] [DecidableEq α] in
theorem Vec.operand (vec : Vec α) {j : Nat} (inside : j < vec.size) :
    vec.withoutZeroStride.data (j * max vec.withoutZeroStride.stride 1) = vec.get j := by
  unfold Vec.withoutZeroStride Vec.contiguous Vec.get
  by_cases zero : vec.stride = 0
  · rw [if_pos zero]
    by_cases one : vec.size ≤ 1
    · obtain rfl : j = 0 := by omega
      rw [if_pos (.inl one), zero_mul, zero_mul]
    · rw [if_neg (by omega)]
      change vec.data (j * 1 * vec.stride) = _
      rw [mul_one]
  · rw [if_neg zero, max_eq_left (by omega)]

omit [AddMonoid α] [CommMagma α] [DecidableEq α] in
theorem Vec.operand_stride (vec : Vec α) : vec.withoutZeroStride.stride ≤ max vec.stride 1 := by
  unfold Vec.withoutZeroStride Vec.contiguous
  split
  · split <;> simp
  · exact le_max_left _ _

omit [AddMonoid α] [CommMagma α] [DecidableEq α] in
theorem Mat.contiguous_get (mat : Mat α) {j : Nat} (row : i < mat.rows) (col : j < mat.cols) :
    mat.contiguous.data (j + i * mat.contiguous.stride0) = mat.get i j := by
  unfold Mat.contiguous Mat.get
  split
  · next contiguous =>
      have same : j * mat.stride1 = j := by
        obtain none_ | none_ | ⟨one | one, -⟩ := contiguous
        · omega
        · omega
        · obtain rfl : j = 0 := by omega
          exact zero_mul _
        · rw [one, mul_one]
      rw [same, add_comm]
  · dsimp only
    rw [add_mul_div_right _ _ (by omega), div_eq_of_lt col, zero_add,
      add_mul_mod_self_right, mod_eq_of_lt col]

theorem Addmv.gemv_right (handled : call.Handled) {trans : Bool} {m n lda : Nat} {data : Nat → α}
    (sizes : (if trans then n else m) = call.mat.rows ∧ (if trans then m else n) = call.mat.cols)
    (leading : 1 < n → max 1 m ≤ lda ∧ lda ≤ 2147483647)
    (same : result.size = call.result.size ∧ result.stride = call.result.stride)
    (entries : ∀ i < call.mat.rows, ∀ j < call.mat.cols, entry trans data lda i j = call.mat.get i j) :
    ∃ out, call.gemv trans m n lda data result = .ok (.vector out) ∧ out.size = call.mat.rows ∧
      ∀ i < call.mat.rows, out.get i = scaled call.alpha
        ((List.range call.mat.cols).map fun j => call.mat.get i j * call.vec.get j).sum call.beta
        (result.get i) := by
  let vec := call.vec.withoutZeroStride
  let args : Gemv α := ⟨trans, m, n, call.alpha, data, lda, vec.data, max vec.stride 1, call.beta,
    result.data, result.stride⟩
  have output : args.output = call.mat.rows := sizes.1
  have summed : args.summed = call.vec.size := sizes.2.trans handled.vec.symm
  have right : args.Right call.dtype := by
    have bounds := handled.sizes
    have least := call.vec.operand_stride
    have apart := handled.apart
    rw [Vec.overlaps, handled.result] at apart
    refine ⟨handled.supported, ?_, ?_, leading, ?_, ?_⟩
    · change m ≤ _
      split_ifs at sizes <;> omega
    · change n ≤ _
      split_ifs at sizes <;> omega
    · rw [summed]
      refine handled.operand.imp_left fun small => ?_
      change 0 < max vec.stride 1 ∧ max vec.stride 1 ≤ _
      change vec.stride ≤ _ at least
      omega
    · rw [output, ← handled.result]
      change 0 < result.stride ∧ result.stride ≤ _ ∨ _
      rw [same.2]
      by_cases zero : call.result.stride = 0
      · exact .inr ⟨fun float => handled.increment float zero, by rw [handled.result]; omega⟩
      · exact handled.stride.imp_left fun small => ⟨by omega, small⟩
  refine ⟨{ result with data := args.memory }, ?_, same.1.trans handled.result, fun i row => ?_⟩
  · rw [Addmv.gemv]
    change (Sublas.gemv call.dtype args >>= fun y => _) = _
    rw [gemv_eq right]
    rfl
  · have known : 0 < result.stride ∨ i = 0 := by
      rw [same.2]
      exact Vec.known handled.apart (by rw [handled.result]; exact row)
    obtain ⟨multiple, index⟩ := place_eq known
    change args.memory (i * result.stride) = _
    rw [Gemv.memory, if_pos ⟨multiple, by rw [index, output]; exact row⟩]
    change scaled _ ((range args.summed).map fun p => entry trans data lda
      (i * result.stride / result.stride) p * vec.data (p * max vec.stride 1)).sum _ _ = _
    rw [index, summed, handled.vec]
    refine congrArg (fun products => scaled call.alpha (sum products) call.beta _)
      (map_congr_left fun j small => ?_)
    have col := mem_range.mp small
    rw [entries i row j col]
    exact congrArg _ (call.vec.operand (by rw [handled.vec]; exact col))

theorem Addmv.product_right (handled : call.Handled)
    (some_ : ¬ (call.mat.rows = 0 ∨ call.mat.cols = 0))
    (same : result.size = call.result.size ∧ result.stride = call.result.stride) :
    ∃ out, call.product result = .ok (.vector out) ∧ out.size = call.mat.rows ∧
      ∀ i < call.mat.rows, out.get i = scaled call.alpha
        ((List.range call.mat.cols).map fun j => call.mat.get i j * call.vec.get j).sum call.beta
        (result.get i) := by
  unfold Addmv.product
  dsimp only
  split_ifs with columns rows
  · refine Addmv.gemv_right handled ⟨rfl, rfl⟩ (fun more => ⟨columns.2, handled.columns columns.1 more⟩) same
      fun i _ j _ => ?_
    rw [entry, if_neg Bool.false_ne_true, Mat.get, columns.1, mul_one]
  · refine Addmv.gemv_right handled ⟨rfl, rfl⟩ (fun more => ⟨rows.2, handled.rows rows.1 more⟩) same fun i _ j _ => ?_
    rw [entry, if_pos rfl, Mat.get, rows.1, mul_one, add_comm]
  · refine Addmv.gemv_right handled ⟨rfl, rfl⟩ (fun more => ?_) same fun i row j col => ?_
    · have bounds := handled.sizes
      have leading : call.mat.contiguous.stride0 = call.mat.cols := by
        unfold Mat.contiguous
        split
        · next contiguous =>
            obtain none_ | none_ | ⟨-, one | packed⟩ := contiguous
            · omega
            · omega
            · omega
            · exact packed
        · rfl
      rw [leading]
      omega
    · rw [entry, if_pos rfl, call.mat.contiguous_get row col]

omit [AddMonoid α] [CommMagma α] [DecidableEq α] in
theorem expandSize_vector {size : Nat} {self : Vec α} (same : vec.size = size)
    (expanded : expandSize size (.vector vec) = .ok self) : vec = self := by
  rw [expandSize, if_pos same] at expanded
  exact Except.ok.inj expanded

theorem Addmv.empty_right {self : Vec α} (handled : call.Handled)
    (expanded : expandSize call.mat.rows (call.self.getD (.vector call.result)) = .ok self)
    (empty : call.mat.rows = 0 ∨ call.mat.cols = 0) :
    ∃ out, (if call.beta = 0 then .ok (.vector (call.result.write fun _ => 0))
        else mulOut call.result call.beta (call.self.getD (.vector call.result))) =
        .ok (.vector out) ∧ out.size = call.mat.rows ∧
      ∀ i < call.mat.rows, out.get i = call.expected (self.get i) i := by
  by_cases zero : call.beta = 0
  · refine ⟨_, if_pos zero, handled.result, fun i row => ?_⟩
    rw [Vec.get_write handled.apart _ (by rw [handled.result]; exact row), Addmv.expected,
      if_pos zero, if_pos (by omega)]
  · obtain ⟨vec, operand, size⟩ : ∃ vec, call.self.getD (.vector call.result) = .vector vec ∧
        vec.size = call.mat.rows := by
      cases given : call.self with
      | none => exact ⟨_, rfl, handled.result⟩
      | some one => exact handled.empty empty zero one given
    rw [operand] at expanded ⊢
    obtain rfl := expandSize_vector size expanded
    refine ⟨call.result.write fun i => vec.get i * call.beta, ?_, handled.result, fun i row => ?_⟩
    · rw [if_neg zero, mulOut, if_neg (by rw [size, handled.result]; exact fun apart => apart rfl),
        if_neg handled.apart]
    · rw [Vec.get_write handled.apart _ (by rw [handled.result]; exact row), Addmv.expected,
        if_neg zero, if_pos (by omega), zero_add, mul_comm]

/-- What is computed, by the library's functions as they are documented. -/
theorem addmv_right : (∀ (dtype : ScalarType) (args : Gemv α), args.Right dtype →
      gemv dtype args = .ok args.memory) ∧
    ∀ (call : Addmv α) (self : Vec α), call.Handled →
      expandSize call.mat.rows (call.self.getD (.vector call.result)) = .ok self →
      ∃ out, addmvOut call = .ok (.vector out) ∧ out.size = call.mat.rows ∧
        ∀ i < call.mat.rows, out.get i = call.expected (self.get i) i := by
  refine ⟨fun dtype args right => gemv_eq right, fun call self handled expanded => ?_⟩
  rw [addmvOut, expanded, ok_bind]
  by_cases empty : call.mat.rows = 0 ∨ call.mat.cols = 0
  · rw [if_pos empty]
    exact Addmv.empty_right handled expanded empty
  obtain ⟨result, copied, same, read⟩ : ∃ result, call.copied self = .ok result ∧
      (result.size = call.result.size ∧ result.stride = call.result.stride) ∧
      (call.beta ≠ 0 → ∀ i < call.mat.rows, result.get i = self.get i) := by
    rw [Addmv.copied, if_neg handled.apart]
    split
    · exact ⟨_, rfl, ⟨rfl, rfl⟩, fun _ i row =>
        Vec.get_write handled.apart _ (by rw [handled.result]; exact row)⟩
    · next kept =>
        refine ⟨_, rfl, ⟨rfl, rfl⟩, fun nonzero i _ => ?_⟩
        cases given : call.self with
        | some one => exact absurd ⟨by rw [given]; rfl, nonzero⟩ kept
        | none =>
          rw [given] at expanded
          rw [expandSize_vector handled.result expanded]
  rw [if_neg empty, copied, ok_bind]
  obtain ⟨out, ran, size, elements⟩ := Addmv.product_right handled empty same
  refine ⟨out, ran, size, fun i row => ?_⟩
  rw [elements i row, Addmv.expected, scaled, if_neg (show ¬ call.mat.cols = 0 by omega)]
  split
  · rfl
  · next nonzero => rw [read nonzero i row]

def strided : Addmv Nat where
  dtype := .half
  self := some (.scalar 1)
  mat := ⟨2, 3, 3, 1, fun x => x⟩
  vec := ⟨3, 2, fun x => x⟩
  beta := 10
  alpha := 1
  result := ⟨2, 2, fun _ => 7⟩

theorem addmv_right_strided :
    gemv .bfloat16 ⟨true, 3, 2, 1, strided.mat.data, 3, strided.vec.data, 2, 10, strided.result.data, 2⟩ =
      .ok (Gemv.memory ⟨true, 3, 2, 1, strided.mat.data, 3, strided.vec.data, 2, 10,
        strided.result.data, 2⟩) ∧
    ∃ out, addmvOut strided = .ok (.vector out) ∧ out.size = 2 ∧
      ∀ i < 2, out.get i = strided.expected 1 i :=
  ⟨addmv_right.1 .bfloat16 _ ⟨by decide, by decide, by decide, fun _ => by decide, by decide, by decide⟩,
    addmv_right.2 strided ⟨2, 0, fun _ => 1⟩ ⟨by decide, rfl, rfl, by decide, fun _ _ => by decide,
      fun _ _ => by decide, by decide, by decide, by decide,
      fun float => absurd float (by decide), fun empty => absurd empty (by decide)⟩ rfl⟩

/-- An increment that does not fit into an int is refused. -/
theorem addmv_refuses : ¬ ∀ (call : Addmv Nat) (self : Vec Nat),
    call.dtype = .float → call.vec.size = call.mat.cols → call.result.size = call.mat.rows →
    expandSize call.mat.rows (call.self.getD (.vector call.result)) = .ok self →
    ∃ out, addmvOut call = .ok (.vector out) ∧ out.size = call.mat.rows ∧
      ∀ i < call.mat.rows, out.get i = call.expected (self.get i) i := by
  intro all
  obtain ⟨out, ran, -⟩ := all ⟨.float, none, ⟨1, 1, 1, 1, fun _ => 0⟩, ⟨1, 2147483648, fun _ => 0⟩,
    0, 1, ⟨1, 1, fun _ => 0⟩⟩ ⟨1, 1, fun _ => 0⟩ rfl rfl rfl rfl
  cases ran

end Proofs

end TorchSupa.Aten.Sublas
