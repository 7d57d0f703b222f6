import TorchSupa.Aten.Sublas
import TorchSupa.Logic.Lists
import Mathlib.Tactic.Ring

/-!
`baddbmm_out` and `bmm_out`: each of the three tensors is handed to the library as it is stored, by
columns or by rows, or as a contiguous copy.
-/

namespace TorchSupa.Aten.Sublas

open List Nat

open Lists (ok_bind)

structure Batch (α : Type) where
  batches : Nat
  rows : Nat
  cols : Nat
  stride0 : Nat
  stride1 : Nat
  stride2 : Nat
  data : Nat → α

section Tensors

variable {α : Type} (tensor : Batch α)

def Batch.address (place : Nat × Nat × Nat) : Nat :=
  place.1 * tensor.stride0 + place.2.1 * tensor.stride1 + place.2.2 * tensor.stride2

def Batch.get (b i j : Nat) : α := tensor.data (tensor.address (b, i, j))

def Batch.transpose : Batch α :=
  { tensor with
    rows := tensor.cols
    cols := tensor.rows
    stride1 := tensor.stride2
    stride2 := tensor.stride1 }

def Batch.isContiguous : Prop :=
  (tensor.cols = 1 ∨ tensor.stride2 = 1) ∧ (tensor.rows = 1 ∨ tensor.stride1 = tensor.cols) ∧
    (tensor.batches = 1 ∨ tensor.stride0 = tensor.rows * tensor.cols)

instance Batch.decidableIsContiguous : Decidable tensor.isContiguous := inferInstanceAs (Decidable (_ ∧ _ ∧ _))

def Batch.clone : Batch α :=
  { tensor with
    stride0 := tensor.rows * tensor.cols
    stride1 := tensor.cols
    stride2 := 1
    data := fun x =>
      tensor.get (x / tensor.cols / tensor.rows) (x / tensor.cols % tensor.rows) (x % tensor.cols) }

def Batch.places : List (Nat × Nat × Nat) :=
  (List.range tensor.batches).flatMap fun b => (List.range tensor.rows).flatMap fun i =>
    (List.range tensor.cols).map fun j => (b, i, j)

def Batch.write (value : Nat → Nat → Nat → α) : Batch α :=
  { tensor with data := fun x =>
      match tensor.places.find? fun place => tensor.address place = x with
      | some place => value place.1 place.2.1 place.2.2
      | none => tensor.data x }

def Batch.Apart : Prop :=
  ∀ one ∈ tensor.places, ∀ two ∈ tensor.places, tensor.address one = tensor.address two → one = two

end Tensors

section Definitions

variable {α : Type} [Zero α] [Add α] [Mul α] [DecidableEq α]

def Product.batched (product : Product α) (stridea strideb stridec batches : Nat) : Nat → α :=
  let c : Batch α := ⟨batches, product.m, product.n, stridec, 1, product.ld.ldc, product.c⟩
  (c.write fun b i j => scaled product.alpha ((List.range product.k).map fun p =>
    entry product.transa (fun x => product.a (b * stridea + x)) product.ld.lda i p *
      entry product.transb (fun x => product.b (b * strideb + x)) product.ld.ldb p j).sum
    product.beta (c.get b i j)).data

def Product.callBatched (product : Product α) (stridea strideb stridec batches : Nat) :
    Except Fault (Nat → α) :=
  if product.leadingRight then .ok (product.batched stridea strideb stridec batches)
  else .error .invalidValue

def bgemm (dtype : ScalarType) (product : Product α) (stridea strideb stridec batches : Nat) :
    Except Fault (Nat → α) :=
  let fd := "bgemm<" ++ dtype.cppName ++ ">"
  if dtype = .float ∨ dtype = .half ∨ dtype = .bfloat16 then do
    let checked := if dtype = .bfloat16 then product else product.adjust
    checked.check fd
    nonNegInt fd "num_batches" batches
    product.adjust.callBatched stridea strideb stridec batches
  else .error (.check "at::sublas::bgemm: not implemented")

structure Prepared (α : Type) where
  trans : Bool
  ld : Nat
  tensor : Batch α

def prepareBatchMatrixForSublas (tensor : Batch α) (transposeResult : Bool) (m n : Nat) :
    Prepared α :=
  let fast := if transposeResult then tensor.stride2 else tensor.stride1
  let leading := if transposeResult then tensor.stride1 else tensor.stride2
  if fast = 1 ∧ max 1 m ≤ leading then ⟨false, leading, tensor⟩
  else if leading = 1 ∧ max 1 n ≤ fast then ⟨true, fast, tensor⟩
  else
    let used := if tensor.isContiguous ∧ tensor.stride1 ≠ 0 ∧ tensor.stride2 ≠ 0 then tensor
      else tensor.clone
    ⟨!transposeResult, used.stride1, used⟩

structure Baddbmm (α : Type) where
  dtype : ScalarType
  result : Batch α
  batch1 : Batch α
  batch2 : Batch α
  beta : α
  alpha : α

structure Written (α : Type) where
  transposeResult : Bool
  copied : Bool
  tensor : Batch α

def Baddbmm.written (call : Baddbmm α) : Written α :=
  let result := call.result
  if result.stride1 = 1 ∧ (result.cols = 1 ∨ max 1 result.rows ≤ result.stride2) then
    ⟨false, false, result⟩
  else if result.stride2 = 1 ∧ (result.rows = 1 ∨ max 1 result.cols ≤ result.stride1) then
    ⟨true, false, result⟩
  else ⟨false, true, result.transpose.clone.transpose⟩

def Prepared.product (one two : Prepared α) (call : Baddbmm α) (m n k : Nat) (c : Nat → α)
    (ldc : Nat) : Product α where
  transa := one.trans
  transb := two.trans
  m := m
  n := n
  k := k
  alpha := call.alpha
  a := one.tensor.data
  b := two.tensor.data
  beta := call.beta
  c := c
  ld := ⟨one.ld, two.ld, ldc⟩

def Baddbmm.product (call : Baddbmm α) (transposeResult : Bool) (result : Batch α) :
    Except Fault (Nat → α) :=
  let m := if transposeResult then result.cols else result.rows
  let n := if transposeResult then result.rows else result.cols
  let k := if transposeResult then call.batch2.rows else call.batch1.cols
  let one := prepareBatchMatrixForSublas (if transposeResult then call.batch2 else call.batch1)
    transposeResult m k
  let two := prepareBatchMatrixForSublas (if transposeResult then call.batch1 else call.batch2)
    transposeResult k n
  let product := one.product two call m n k result.data
    (if transposeResult then result.stride1 else result.stride2)
  if result.batches = 1 then gemm call.dtype product
  else bgemm call.dtype product one.tensor.stride0 two.tensor.stride0 result.stride0 result.batches

def baddbmmOut (call : Baddbmm α) : Except Fault (Batch α) :=
  let result := call.result
  if result.batches = 0 ∨ result.rows = 0 ∨ result.cols = 0 then .ok result
  else if call.batch1.cols = 0 then
    if call.beta = 0 then .ok (result.write fun _ _ _ => 0)
    else .ok (result.write fun b i j => result.get b i j * call.beta)
  else do
    let written := call.written
    let memory ← call.product written.transposeResult written.tensor
    let out := { written.tensor with data := memory }
    pure (if written.copied then result.write out.get else out)

end Definitions

section Tensors

variable {α : Type} {tensor : Batch α}

open Batch

theorem Batch.mem_places {b i j : Nat} :
    (b, i, j) ∈ tensor.places ↔ b < tensor.batches ∧ i < tensor.rows ∧ j < tensor.cols := by
  simp [places]

theorem Batch.transpose_address (b i j : Nat) :
    tensor.transpose.address (b, j, i) = tensor.address (b, i, j) := by
  simp only [address, transpose]
  omega

theorem Batch.transpose_get (b i j : Nat) : tensor.transpose.get b j i = tensor.get b i j :=
  congrArg tensor.data (tensor.transpose_address b i j)

theorem Batch.get_write (apart : tensor.Apart) (value : Nat → Nat → Nat → α) {b i j : Nat}
    (inside : (b, i, j) ∈ tensor.places) : (tensor.write value).get b i j = value b i j := by
  change (match tensor.places.find? fun place => tensor.address place = tensor.address (b, i, j) with
    | some place => value place.1 place.2.1 place.2.2
    | none => _) = _
  cases found : tensor.places.find? fun place => tensor.address place = tensor.address (b, i, j) with
  | none =>
    have missing := find?_eq_none.mp found _ inside
    simp at missing
  | some place =>
    have same := find?_some found
    simp only [decide_eq_true_eq] at same
    rw [apart place (mem_of_find?_eq_some found) _ inside same]

theorem Batch.clone_get {b i j : Nat} (row : i < tensor.rows) (col : j < tensor.cols) :
    tensor.clone.get b i j = tensor.get b i j := by
  have place : tensor.clone.address (b, i, j) = j + tensor.cols * (i + tensor.rows * b) := by
    simp only [address, clone]
    ring
  have positive : 0 < tensor.cols := by omega
  have index : (j + tensor.cols * (i + tensor.rows * b)) / tensor.cols = i + tensor.rows * b := by
    rw [add_mul_div_left _ _ positive, div_eq_of_lt col, zero_add]
  change tensor.get (tensor.clone.address (b, i, j) / tensor.cols / tensor.rows)
    (tensor.clone.address (b, i, j) / tensor.cols % tensor.rows)
    (tensor.clone.address (b, i, j) % tensor.cols) = _
  rw [place, index, add_mul_div_left _ _ (by omega), div_eq_of_lt row, zero_add, add_mul_mod_self_left,
    mod_eq_of_lt row, add_mul_mod_self_left, mod_eq_of_lt col]

end Tensors

section Leading

variable {α : Type}

def repaired (trans : Bool) (rows cols ld : Nat) : Nat :=
  if trans then (if rows ≤ 1 then max cols 1 else ld) else if cols ≤ 1 then max rows 1 else ld

structure Loads (trans : Bool) (rows cols ld : Nat) : Prop where
  right : (if trans then rows ≤ 1 else cols ≤ 1) ∨
    max 1 (if trans then cols else rows) ≤ ld ∧ ld ≤ 2147483647
  fits : rows ≤ 2147483647 ∧ cols ≤ 2147483647

variable {trans : Bool}

theorem Loads.of_stride {rows cols ld : Nat} (right : max 1 (if trans then cols else rows) ≤ ld)
    (leading : 1 < (if trans then rows else cols) → ld ≤ 2147483647)
    (fits : rows ≤ 2147483647 ∧ cols ≤ 2147483647) : Loads trans rows cols ld := by
  refine ⟨?_, fits⟩
  cases trans
  · exact (lt_or_ge 1 cols).symm.imp_right fun more => ⟨right, leading more⟩
  · exact (lt_or_ge 1 rows).symm.imp_right fun more => ⟨right, leading more⟩

theorem Loads.repaired {rows cols ld : Nat} (loads : Loads trans rows cols ld) :
    max 1 (if trans then cols else rows) ≤ repaired trans rows cols ld ∧
      Sublas.repaired trans rows cols ld ≤ 2147483647 := by
  obtain ⟨right, one, two⟩ := loads
  unfold Sublas.repaired
  cases trans
  all_goals
    simp only [if_true, Bool.false_eq_true, if_false] at right ⊢
    split <;> omega

theorem entry_repaired {a : Nat → α} {rows cols ld i p : Nat} (row : i < rows)
    (col : p < cols) : entry trans a (repaired trans rows cols ld) i p = entry trans a ld i p := by
  unfold repaired
  cases trans
  all_goals
    simp only [if_true, Bool.false_eq_true, if_false]
    split
    · exact entry_first (by simp; omega)
    · rfl

/-- A stride is handed to the library where the other one is 1, and fits an int if its axis has more than
one element. -/
def Batch.LeadingFits (tensor : Batch α) : Prop :=
  (tensor.stride1 = 1 → 1 < tensor.cols → tensor.stride2 ≤ 2147483647) ∧
    (tensor.stride2 = 1 → 1 < tensor.rows → tensor.stride1 ≤ 2147483647)

/-- It fits an int if its axis has one element, too. -/
def Batch.SingleFits (tensor : Batch α) : Prop :=
  (tensor.stride1 = 1 → tensor.cols = 1 → tensor.stride2 ≤ 2147483647) ∧
    (tensor.stride2 = 1 ∨ tensor.cols = 1 → tensor.rows = 1 → tensor.stride1 ≤ 2147483647)

structure Batch.Ints (tensor : Batch α) : Prop where
  rows : 0 < tensor.rows ∧ tensor.rows ≤ 2147483647
  cols : 0 < tensor.cols ∧ tensor.cols ≤ 2147483647
  leading : tensor.LeadingFits

structure Serves (tensor : Batch α) (transposeResult : Bool) (m n : Nat) (prepared : Prepared α) :
    Prop where
  loads : Loads prepared.trans m n prepared.ld
  positive : 0 < prepared.ld
  single : tensor.SingleFits → prepared.ld ≤ 2147483647
  entries : ∀ b i p, i < m → p < n →
    entry prepared.trans (fun x => prepared.tensor.data (b * prepared.tensor.stride0 + x))
      prepared.ld i p = if transposeResult then tensor.get b p i else tensor.get b i p

theorem prepared_right [Zero α] [Add α] [Mul α] [DecidableEq α] {tensor : Batch α} (ints : tensor.Ints)
    (transposeResult : Bool) {m n : Nat}
    (sizes : m = (if transposeResult then tensor.cols else tensor.rows) ∧
      n = if transposeResult then tensor.rows else tensor.cols) :
    Serves tensor transposeResult m n (prepareBatchMatrixForSublas tensor transposeResult m n) := by
  obtain ⟨rfl, rfl⟩ := sizes
  obtain ⟨rows, cols, along1, along2⟩ := ints
  have used (copy : Batch α) (same : copy = tensor ∧ tensor.isContiguous ∧ tensor.stride1 ≠ 0 ∨
      copy = tensor.clone) : 0 < copy.stride1 ∧ (tensor.SingleFits → copy.stride1 ≤ 2147483647) ∧
      (tensor.rows = 1 ∨ copy.stride1 = tensor.cols) ∧ ∀ b i j, i < tensor.rows → j < tensor.cols →
        copy.data (b * copy.stride0 + (j + i * copy.stride1)) = tensor.get b i j := by
    obtain ⟨rfl, contiguous, nonzero⟩ | rfl := same
    · refine ⟨by omega, fun single => ?_, contiguous.2.1, fun b i j _ col => ?_⟩
      · obtain one | packed := contiguous.2.1
        · exact single.2 contiguous.1.symm one
        · omega
      refine congrArg copy.data ?_
      have along : j * copy.stride2 = j := by
        obtain one | one := contiguous.1
        · obtain rfl : j = 0 := by omega
          exact zero_mul _
        · rw [one, mul_one]
      simp only [Batch.address, along]
      omega
    · refine ⟨cols.1, fun _ => cols.2, .inr rfl, fun b i j row col => ?_⟩
      rw [← Batch.clone_get row col]
      refine congrArg tensor.clone.data ?_
      simp only [Batch.address, Batch.clone, mul_one]
      omega
  have copied := used (if tensor.isContiguous ∧ tensor.stride1 ≠ 0 ∧ tensor.stride2 ≠ 0 then tensor
      else tensor.clone) (by
    split
    · next kept => exact .inl ⟨rfl, kept.1, kept.2.1⟩
    · exact .inr rfl)
  obtain ⟨positive, fits, leading, entries⟩ := copied
  unfold prepareBatchMatrixForSublas
  cases transposeResult
  · simp only [Bool.false_eq_true, if_false, Bool.not_false]
    by_cases columns : tensor.stride1 = 1 ∧ max 1 tensor.rows ≤ tensor.stride2
    · rw [if_pos columns]
      refine ⟨.of_stride columns.2 (along1 columns.1) ⟨rows.2, cols.2⟩, by dsimp only; omega,
        fun single => ?_, fun b i p _ _ => congrArg tensor.data ?_⟩
      · have one := single.1 columns.1
        have more := along1 columns.1
        dsimp only
        omega
      · simp only [Batch.address, columns.1]
        omega
    rw [if_neg columns]
    by_cases along : tensor.stride2 = 1 ∧ max 1 tensor.cols ≤ tensor.stride1
    · rw [if_pos along]
      refine ⟨.of_stride along.2 (along2 along.1) ⟨rows.2, cols.2⟩, by dsimp only; omega,
        fun single => ?_, fun b i p _ _ => congrArg tensor.data ?_⟩
      · have one := single.2 (.inl along.1)
        have more := along2 along.1
        dsimp only
        omega
      · simp only [Batch.address, along.1]
        omega
    · rw [if_neg along]
      refine ⟨⟨?_, rows.2, cols.2⟩, positive, fits, fun b i p row col => ?_⟩
      · simp only [if_true]
        omega
      · exact entries b i p row col
  · simp only [if_true, Bool.not_true]
    by_cases columns : tensor.stride2 = 1 ∧ max 1 tensor.cols ≤ tensor.stride1
    · rw [if_pos columns]
      refine ⟨.of_stride columns.2 (along2 columns.1) ⟨cols.2, rows.2⟩, by dsimp only; omega,
        fun single => ?_, fun b i p _ _ => congrArg tensor.data ?_⟩
      · have one := single.2 (.inl columns.1)
        have more := along2 columns.1
        dsimp only
        omega
      · simp only [Batch.address, columns.1]
        omega
    rw [if_neg columns]
    by_cases along : tensor.stride1 = 1 ∧ max 1 tensor.rows ≤ tensor.stride2
    · rw [if_pos along]
      refine ⟨.of_stride along.2 (along1 along.1) ⟨cols.2, rows.2⟩, by dsimp only; omega,
        fun single => ?_, fun b i p _ _ => congrArg tensor.data ?_⟩
      · have one := single.1 along.1
        have more := along1 along.1
        dsimp only
        omega
      · simp only [Batch.address, along.1]
        omega
    · rw [if_neg along]
      refine ⟨⟨?_, cols.2, rows.2⟩, positive, fits, fun b i p row col => ?_⟩
      · simp only [Bool.false_eq_true, if_false]
        omega
      · exact entries b p i col row

end Leading

section Products

variable {α : Type} [AddMonoid α] [CommMagma α] [DecidableEq α]

def Product.view (product : Product α) (stridec batches ld : Nat) : Batch α :=
  ⟨batches, product.m, product.n, stridec, 1, ld, product.c⟩

structure Product.Served (product : Product α) (stridea strideb stridec batches : Nat)
    (first second : Nat → Nat → Nat → α) : Prop where
  a : Loads product.transa product.m product.k product.ld.lda
  b : Loads product.transb product.k product.n product.ld.ldb
  c : Loads false product.m product.n product.ld.ldc
  apart : (product.view stridec batches product.ld.ldc).Apart
  left : ∀ batch i p, i < product.m → p < product.k → entry product.transa
    (fun x => product.a (batch * stridea + x)) product.ld.lda i p = first batch i p
  right : ∀ batch p j, p < product.k → j < product.n → entry product.transb
    (fun x => product.b (batch * strideb + x)) product.ld.ldb p j = second batch p j

def Product.element (product : Product α) (first second : Nat → Nat → Nat → α) (old : α) (batch i j : Nat) : α :=
  scaled product.alpha ((List.range product.k).map fun p => first batch i p * second batch p j).sum
    product.beta old

variable {product : Product α} {stridea strideb stridec batches : Nat}
  {first second : Nat → Nat → Nat → α}

omit [AddMonoid α] [CommMagma α] [DecidableEq α] in
theorem Product.Served.adjusted (served : product.Served stridea strideb stridec batches first second) :
    product.adjust.Fits := by
  obtain ⟨lda, lda'⟩ := served.a.repaired
  obtain ⟨ldb, ldb'⟩ := served.b.repaired
  obtain ⟨ldc, ldc'⟩ := served.c.repaired
  exact ⟨served.a.fits.1, served.b.fits.2, served.a.fits.2, ⟨lda, ldb, ldc⟩, lda', ldb', ldc'⟩

omit [AddMonoid α] [CommMagma α] [DecidableEq α] in
theorem view_address (stridec batches : Nat) (product : Product α) {batch i j : Nat}
    (col : j < product.n) : (product.adjust.view stridec batches product.adjust.ld.ldc).address
      (batch, i, j) = (product.view stridec batches product.ld.ldc).address (batch, i, j) := by
  change _ + _ * 1 + j * (if product.n ≤ 1 then max product.m 1 else product.ld.ldc) = _ + _ * 1 + _
  split
  · obtain rfl : j = 0 := by omega
    rw [zero_mul, zero_mul]
    rfl
  · rfl

omit [AddMonoid α] [DecidableEq α] in
theorem Product.Served.sums (served : product.Served stridea strideb stridec batches first second)
    {batch i j : Nat} (row : i < product.m) (col : j < product.n) :
    ((List.range product.k).map fun p =>
      entry product.transa (fun x => product.a (batch * stridea + x)) product.adjust.ld.lda i p *
        entry product.transb (fun x => product.b (batch * strideb + x)) product.adjust.ld.ldb p j) =
      (List.range product.k).map fun p => first batch i p * second batch p j := by
  refine map_congr_left fun p small => ?_
  have below := mem_range.mp small
  rw [← served.left batch i p row below, ← served.right batch p j below col]
  exact congrArg₂ _ (entry_repaired row below) (entry_repaired below col)

variable (served : product.Served stridea strideb stridec batches first second)
include served

theorem Product.Served.batched
    {batch i j : Nat} (inside : (batch, i, j) ∈ (product.view stridec batches product.ld.ldc).places) :
    product.adjust.batched stridea strideb stridec batches
      ((product.view stridec batches product.ld.ldc).address (batch, i, j)) =
        product.element first second ((product.view stridec batches product.ld.ldc).get batch i j) batch i j := by
  obtain ⟨-, row, col⟩ := Batch.mem_places.mp inside
  have apart : (product.adjust.view stridec batches product.adjust.ld.ldc).Apart := by
    rintro ⟨b₁, i₁, j₁⟩ one ⟨b₂, i₂, j₂⟩ two same
    rw [view_address stridec batches product (Batch.mem_places.mp one).2.2,
      view_address stridec batches product (Batch.mem_places.mp two).2.2] at same
    exact served.apart _ one _ two same
  rw [← view_address stridec batches product col]
  refine (Batch.get_write apart _ inside).trans ?_
  rw [Product.element, ← served.sums row col]
  refine congrArg (scaled _ _ _) ?_
  exact congrArg product.c (view_address stridec batches product col)

theorem Product.Served.single {i j : Nat} (row : i < product.m) (col : j < product.n) :
    product.adjust.memory ((product.view stridec batches product.ld.ldc).address (0, i, j)) =
      product.element first second
        ((product.view stridec batches product.ld.ldc).get 0 i j) 0 i j := by
  have place : (product.view stridec batches product.ld.ldc).address (0, i, j) =
      i + j * product.adjust.ld.ldc := by
    rw [← view_address stridec batches product col]
    simp only [Batch.address, Product.view]
    omega
  have leading := served.adjusted.right.2.2
  have small : i < product.adjust.ld.ldc := row.trans_le ((le_max_right _ _).trans leading)
  have parts : (i + j * product.adjust.ld.ldc) % product.adjust.ld.ldc = i ∧
      (i + j * product.adjust.ld.ldc) / product.adjust.ld.ldc = j := by
    rw [add_mul_mod_self_right, add_mul_div_right _ _ (by omega), mod_eq_of_lt small,
      div_eq_of_lt small, zero_add]
    exact ⟨rfl, rfl⟩
  have sums := (served.sums row col :
    _ = (range product.k).map fun p => first 0 i p * second 0 p j)
  simp only [zero_mul, zero_add] at sums
  rw [Batch.get, place]
  simp only [Product.memory, parts]
  rw [if_pos ⟨row, col⟩, Product.element, ← sums]
  rfl

theorem Product.Served.run
    {dtype : ScalarType} (supported : dtype = .float ∨ dtype = .half ∨ dtype = .bfloat16)
    (count : batches ≤ 2147483647)
    (given_ : dtype = .bfloat16 → batches ≠ 1 → (0 < product.ld.lda ∧ product.ld.lda ≤ 2147483647) ∧
      (0 < product.ld.ldb ∧ product.ld.ldb ≤ 2147483647) ∧
      0 < product.ld.ldc ∧ product.ld.ldc ≤ 2147483647) :
    ∃ memory, (if batches = 1 then gemm dtype product
        else bgemm dtype product stridea strideb stridec batches) = .ok memory ∧
      ∀ batch i j, (batch, i, j) ∈ (product.view stridec batches product.ld.ldc).places →
        memory ((product.view stridec batches product.ld.ldc).address (batch, i, j)) =
          product.element first second
            ((product.view stridec batches product.ld.ldc).get batch i j) batch i j := by
  by_cases one : batches = 1
  · refine ⟨_, (if_pos one).trans (gemm_eq served.adjusted supported), fun batch i j inside => ?_⟩
    obtain ⟨first_, row, col⟩ := Batch.mem_places.mp inside
    obtain rfl : batch = 0 := by
      change batch < batches at first_
      omega
    exact served.single row col
  · refine ⟨_, (if_neg one).trans ?_, fun batch i j inside => served.batched inside⟩
    rw [bgemm]
    dsimp only
    rw [if_pos supported]
    have checked : (if dtype = .bfloat16 then product else product.adjust).check
        ("bgemm<" ++ dtype.cppName ++ ">") = .ok () := by
      split
      · next sixteen =>
          obtain ⟨lda, ldb, ldc⟩ := given_ sixteen one
          exact Product.check_ok ⟨served.a.fits.1, served.b.fits.2, served.a.fits.2⟩ lda ldb ldc _
      · exact served.adjusted.check _
    rw [checked, ok_bind, nonNegInt_ok count, ok_bind]
    exact if_pos served.adjusted.right

end Products

section Results

variable {α : Type} [AddMonoid α] [CommMagma α] [DecidableEq α]

def Baddbmm.expected (call : Baddbmm α) (self : α) (b i j : Nat) : α :=
  let product := if call.batch1.cols = 0 then 0
    else call.alpha * ((List.range call.batch1.cols).map fun p =>
      call.batch1.get b i p * call.batch2.get b p j).sum
  if call.beta = 0 then product else product + call.beta * self

/-- The shapes are those of a product, and nothing that is handed to the library is refused; in batches of
bfloat16 not even the stride of a single column or row, which the other types have replaced first.
The result does not overlap itself, and holds the expanded `self` if that is to be read. -/
structure Baddbmm.Handled (call : Baddbmm α) (old : Batch α) : Prop where
  supported : call.dtype = .float ∨ call.dtype = .half ∨ call.dtype = .bfloat16
  rows : call.batch1.rows = call.result.rows
  cols : call.batch2.cols = call.result.cols
  inner : call.batch2.rows = call.batch1.cols
  count : call.result.batches ≤ 2147483647
  sizes : call.result.rows ≤ 2147483647 ∧ call.result.cols ≤ 2147483647 ∧
    call.batch1.cols ≤ 2147483647
  leading : ∀ tensor ∈ [call.result, call.batch1, call.batch2], tensor.LeadingFits
  single : call.dtype = .bfloat16 → call.result.batches ≠ 1 →
    (∀ tensor ∈ [call.result, call.batch1, call.batch2], tensor.SingleFits) ∧
      (call.result.stride1 = 1 → call.result.cols = 1 → call.result.stride2 ≠ 0) ∧
      (call.result.stride2 = 1 → call.result.rows = 1 → call.result.stride1 ≠ 0)
  apart : call.result.Apart
  copied : call.beta ≠ 0 → ∀ b i j, (b, i, j) ∈ call.result.places →
    call.result.get b i j = old.get b i j

structure Baddbmm.Stands (call : Baddbmm α) (transposeResult : Bool) (tensor : Batch α) : Prop where
  sizes : tensor.batches = call.result.batches ∧ tensor.rows = call.result.rows ∧
    tensor.cols = call.result.cols
  fast : (if transposeResult then tensor.stride2 else tensor.stride1) = 1
  leading : Loads false (if transposeResult then tensor.cols else tensor.rows)
    (if transposeResult then tensor.rows else tensor.cols)
    (if transposeResult then tensor.stride1 else tensor.stride2)
  single : call.dtype = .bfloat16 → call.result.batches ≠ 1 →
    0 < (if transposeResult then tensor.stride1 else tensor.stride2) ∧
      (if transposeResult then tensor.stride1 else tensor.stride2) ≤ 2147483647
  apart : tensor.Apart

theorem Baddbmm.product_right {call : Baddbmm α} {old tensor : Batch α} {transposeResult : Bool}
    (handled : call.Handled old) (stands : call.Stands transposeResult tensor)
    (some_ : call.result.rows ≠ 0 ∧ call.result.cols ≠ 0 ∧ call.batch1.cols ≠ 0) :
    ∃ memory, call.product transposeResult tensor = .ok memory ∧
      ∀ b i j, (b, i, j) ∈ tensor.places → memory (tensor.address (b, i, j)) =
        scaled call.alpha ((List.range call.batch1.cols).map fun p =>
          call.batch1.get b i p * call.batch2.get b p j).sum call.beta (tensor.get b i j) := by
  obtain ⟨batches, rows, cols⟩ := stands.sizes
  have bounds := handled.sizes
  have one : call.batch1.Ints := ⟨by have := handled.rows; omega, by omega,
    handled.leading _ (by simp)⟩
  have two : call.batch2.Ints := ⟨by have := handled.inner; omega,
    by have := handled.cols; omega, handled.leading _ (by simp)⟩
  have inner := handled.inner
  have count : tensor.batches ≤ 2147483647 := batches.trans_le handled.count
  have single := handled.single
  have written := stands.single
  rw [← batches] at single written
  cases transposeResult with
  | false =>
    have first := prepared_right one false (m := tensor.rows) (n := call.batch1.cols)
      ⟨rows.trans handled.rows.symm, rfl⟩
    have second := prepared_right two false (m := call.batch1.cols) (n := tensor.cols)
      ⟨inner.symm, cols.trans handled.cols.symm⟩
    let product := (prepareBatchMatrixForSublas call.batch1 false tensor.rows call.batch1.cols).product
      (prepareBatchMatrixForSublas call.batch2 false call.batch1.cols tensor.cols) call tensor.rows
      tensor.cols call.batch1.cols tensor.data tensor.stride2
    have view : product.view tensor.stride0 tensor.batches tensor.stride2 = tensor := by
      rw [Product.view, ← show tensor.stride1 = 1 from stands.fast]
      rfl
    have served : product.Served _ _ tensor.stride0 tensor.batches
        (fun b i p => call.batch1.get b i p) fun b p j => call.batch2.get b p j :=
      ⟨first.loads, second.loads, stands.leading, by
        rw [show product.ld.ldc = tensor.stride2 from rfl, view]
        exact stands.apart, first.entries, second.entries⟩
    obtain ⟨memory, ran, elements⟩ := served.run handled.supported count fun sixteen many =>
      ⟨⟨first.positive, first.single ((single sixteen many).1 _ (by simp))⟩,
        ⟨second.positive, second.single ((single sixteen many).1 _ (by simp))⟩, written sixteen many⟩
    rw [show product.ld.ldc = tensor.stride2 from rfl, view] at elements
    exact ⟨memory, ran, elements⟩
  | true =>
    have first := prepared_right two true (m := tensor.cols) (n := call.batch2.rows)
      ⟨cols.trans handled.cols.symm, rfl⟩
    have second := prepared_right one true (m := call.batch2.rows) (n := tensor.rows)
      ⟨inner, rows.trans handled.rows.symm⟩
    let product := (prepareBatchMatrixForSublas call.batch2 true tensor.cols call.batch2.rows).product
      (prepareBatchMatrixForSublas call.batch1 true call.batch2.rows tensor.rows) call tensor.cols
      tensor.rows call.batch2.rows tensor.data tensor.stride1
    have view : product.view tensor.stride0 tensor.batches tensor.stride1 = tensor.transpose := by
      rw [Product.view, ← show tensor.stride2 = 1 from stands.fast]
      rfl
    have apart : tensor.transpose.Apart := by
      rintro ⟨b₁, j₁, i₁⟩ one ⟨b₂, j₂, i₂⟩ two same
      rw [Batch.transpose_address, Batch.transpose_address] at same
      obtain ⟨small, col, row⟩ := Batch.mem_places.mp one
      obtain ⟨small', col', row'⟩ := Batch.mem_places.mp two
      have equal := stands.apart _ (Batch.mem_places.mpr ⟨small, row, col⟩) _
        (Batch.mem_places.mpr ⟨small', row', col'⟩) same
      simp only [Prod.mk.injEq] at equal ⊢
      exact ⟨equal.1, equal.2.2, equal.2.1⟩
    have served : product.Served _ _ tensor.stride0 tensor.batches
        (fun b j p => call.batch2.get b p j) fun b p i => call.batch1.get b i p :=
      ⟨first.loads, second.loads, stands.leading, by
        rw [show product.ld.ldc = tensor.stride1 from rfl, view]
        exact apart, first.entries, second.entries⟩
    obtain ⟨memory, ran, elements⟩ := served.run handled.supported count fun sixteen many =>
      ⟨⟨first.positive, first.single ((single sixteen many).1 _ (by simp))⟩,
        ⟨second.positive, second.single ((single sixteen many).1 _ (by simp))⟩, written sixteen many⟩
    rw [show product.ld.ldc = tensor.stride1 from rfl, view] at elements
    refine ⟨memory, ran, fun b i j inside => ?_⟩
    obtain ⟨small, row, col⟩ := Batch.mem_places.mp inside
    have element := elements b j i (Batch.mem_places.mpr ⟨small, col, row⟩)
    rw [Batch.transpose_address] at element
    rw [element, Product.element, Batch.transpose_get]
    change scaled _ ((range call.batch2.rows).map _).sum _ _ = _
    rw [inner, map_congr_left fun p _ => mul_comm (call.batch2.get b p j) (call.batch1.get b i p)]
    rfl

omit [AddMonoid α] [CommMagma α] [DecidableEq α] in
theorem clone_apart (tensor : Batch α) : tensor.transpose.clone.transpose.Apart := by
  rintro ⟨b₁, i₁, j₁⟩ one ⟨b₂, i₂, j₂⟩ two same
  obtain ⟨-, row, col⟩ := Batch.mem_places.mp one
  obtain ⟨-, row', col'⟩ := Batch.mem_places.mp two
  change i₁ < tensor.rows at row
  change i₂ < tensor.rows at row'
  change j₁ < tensor.cols at col
  change j₂ < tensor.cols at col'
  change b₁ * (tensor.cols * tensor.rows) + i₁ * 1 + j₁ * tensor.rows =
    b₂ * (tensor.cols * tensor.rows) + i₂ * 1 + j₂ * tensor.rows at same
  have spread : ∀ b i j : Nat, b * (tensor.cols * tensor.rows) + i * 1 + j * tensor.rows =
      i + tensor.rows * (j + tensor.cols * b) := fun b i j => by ring
  rw [spread, spread] at same
  have first := congrArg (· % tensor.rows) same
  simp only [Nat.add_mul_mod_self_left, Nat.mod_eq_of_lt row, Nat.mod_eq_of_lt row'] at first
  have rest := Nat.eq_of_mul_eq_mul_left (by omega : 0 < tensor.rows)
    (Nat.add_left_cancel (first ▸ same))
  have second := congrArg (· % tensor.cols) rest
  simp only [Nat.add_mul_mod_self_left, Nat.mod_eq_of_lt col, Nat.mod_eq_of_lt col'] at second
  have third := Nat.eq_of_mul_eq_mul_left (by omega : 0 < tensor.cols)
    (Nat.add_left_cancel (second ▸ rest))
  rw [first, second, third]

omit [CommMagma α] [DecidableEq α] in
theorem Baddbmm.written_stands {call : Baddbmm α} {old : Batch α} (handled : call.Handled old)
    (some_ : call.result.rows ≠ 0 ∧ call.result.cols ≠ 0) :
    call.Stands call.written.transposeResult call.written.tensor ∧
    (call.written.copied = false → call.written.tensor = call.result) ∧
    ∀ b i j, (b, i, j) ∈ call.result.places → call.written.tensor.get b i j = call.result.get b i j := by
  obtain ⟨along1, along2⟩ := handled.leading call.result (by simp)
  have sizes := handled.sizes
  unfold Baddbmm.written
  dsimp only
  split_ifs with columns along
  · have more := along1 columns.1
    refine ⟨⟨⟨rfl, rfl, rfl⟩, columns.1, ⟨?_, sizes.1, sizes.2.1⟩, fun sixteen many => ?_, handled.apart⟩,
      fun _ => rfl, fun _ _ _ _ => rfl⟩
    · simp only [Bool.false_eq_true, if_false]
      omega
    · obtain ⟨fits, nonzero, _⟩ := handled.single sixteen many
      have one := (fits call.result (by simp)).1 columns.1
      have positive := nonzero columns.1
      simp only [Bool.false_eq_true, if_false]
      omega
  · have more := along2 along.1
    refine ⟨⟨⟨rfl, rfl, rfl⟩, along.1, ⟨?_, sizes.2.1, sizes.1⟩, fun sixteen many => ?_, handled.apart⟩,
      fun _ => rfl, fun _ _ _ _ => rfl⟩
    · simp only [Bool.false_eq_true, if_false, if_true]
      omega
    · obtain ⟨fits, _, nonzero⟩ := handled.single sixteen many
      have one := (fits call.result (by simp)).2 (.inl along.1)
      have positive := nonzero along.1
      simp only [if_true]
      omega
  · have positive := pos_of_ne_zero some_.1
    refine ⟨⟨⟨rfl, rfl, rfl⟩, rfl, ⟨?_, sizes.1, sizes.2.1⟩, fun _ _ => ⟨positive, sizes.1⟩, clone_apart _⟩,
      fun copied => absurd copied (by simp), fun b i j inside => ?_⟩
    · simp only [Bool.false_eq_true, if_false]
      exact .inr ⟨Nat.max_le.mpr ⟨positive, le_rfl⟩, sizes.1⟩
    · obtain ⟨-, row, col⟩ := Batch.mem_places.mp inside
      exact (Batch.transpose_get b j i).trans
        ((Batch.clone_get col row).trans (Batch.transpose_get b i j))

/-- What is computed, by the library's functions as they are documented. -/
theorem baddbmm_right (call : Baddbmm α) (old : Batch α) (handled : call.Handled old) :
    ∃ out, baddbmmOut call = .ok out ∧
      (out.batches = call.result.batches ∧ out.rows = call.result.rows ∧
        out.cols = call.result.cols) ∧
      ∀ b i j, (b, i, j) ∈ call.result.places → out.get b i j = call.expected (old.get b i j) b i j := by
  rw [baddbmmOut]
  by_cases empty : call.result.batches = 0 ∨ call.result.rows = 0 ∨ call.result.cols = 0
  · refine ⟨_, if_pos empty, ⟨rfl, rfl, rfl⟩, fun b i j inside => ?_⟩
    obtain ⟨small, row, col⟩ := Batch.mem_places.mp inside
    omega
  simp only [if_neg empty]
  by_cases inner : call.batch1.cols = 0
  · rw [if_pos inner]
    by_cases zero : call.beta = 0
    · refine ⟨_, if_pos zero, ⟨rfl, rfl, rfl⟩, fun b i j inside => ?_⟩
      rw [Batch.get_write handled.apart _ inside, Baddbmm.expected, if_pos zero, if_pos inner]
    · refine ⟨_, if_neg zero, ⟨rfl, rfl, rfl⟩, fun b i j inside => ?_⟩
      rw [Batch.get_write handled.apart _ inside, Baddbmm.expected, if_neg zero, if_pos inner, zero_add,
        mul_comm, handled.copied zero b i j inside]
  rw [if_neg inner]
  obtain ⟨stands, same, kept⟩ := Baddbmm.written_stands handled (by omega)
  obtain ⟨memory, ran, elements⟩ := Baddbmm.product_right handled stands (by omega)
  rw [ran, ok_bind]
  obtain ⟨batches, rows, cols⟩ := stands.sizes
  have element : ∀ b i j, (b, i, j) ∈ call.result.places →
      ({ call.written.tensor with data := memory } : Batch α).get b i j =
        call.expected (old.get b i j) b i j := by
    intro b i j inside
    have there : (b, i, j) ∈ call.written.tensor.places := by
      rw [Batch.mem_places, batches, rows, cols]
      exact Batch.mem_places.mp inside
    refine (elements b i j there).trans ?_
    rw [kept b i j inside, Baddbmm.expected, scaled, if_neg inner]
    split
    · rfl
    · next nonzero => rw [handled.copied nonzero b i j inside]
  cases copied : call.written.copied with
  | true =>
    refine ⟨_, rfl, ⟨rfl, rfl, rfl⟩, fun b i j inside => ?_⟩
    exact (Batch.get_write handled.apart _ inside).trans (element b i j inside)
  | false => exact ⟨_, rfl, ⟨batches, rows, cols⟩, element⟩

end Results

def expanded : Baddbmm Nat where
  dtype := .half
  result := ⟨2, 1, 2, 2, 2, 1, fun x => x⟩
  batch1 := ⟨2, 1, 2, 0, 7, 1, fun x => x + 1⟩
  batch2 := ⟨2, 2, 2, 4, 1, 2, fun x => x⟩
  beta := 3
  alpha := 1

theorem baddbmm_right_expanded : ∃ out, baddbmmOut expanded = .ok out ∧
    (out.batches = 2 ∧ out.rows = 1 ∧ out.cols = 2) ∧
    ∀ b i j, (b, i, j) ∈ expanded.result.places →
      out.get b i j = expanded.expected (expanded.result.get b i j) b i j :=
  baddbmm_right expanded expanded.result ⟨by decide, rfl, rfl, rfl, by decide, by decide,
    by unfold Batch.LeadingFits; decide, fun sixteen => absurd sixteen (by decide),
    by unfold Batch.Apart; decide, fun _ _ _ _ _ => rfl⟩

/-- Not for numbers of every type. -/
theorem baddbmm_refuses : ¬ ∀ (call : Baddbmm Nat) (old : Batch Nat),
    call.batch1.batches = call.result.batches → call.batch2.batches = call.result.batches →
    call.batch1.rows = call.result.rows → call.batch2.cols = call.result.cols →
    call.batch2.rows = call.batch1.cols → call.result.Apart →
    (∀ b i j, (b, i, j) ∈ call.result.places → call.result.get b i j = old.get b i j) →
    ∃ out, baddbmmOut call = .ok out ∧ ∀ b i j, (b, i, j) ∈ call.result.places →
      out.get b i j = call.expected (old.get b i j) b i j := by
  intro all
  let one : Batch Nat := ⟨1, 1, 1, 1, 1, 1, fun _ => 1⟩
  obtain ⟨out, ran, -⟩ := all ⟨.double, one, one, one, 0, 1⟩ one rfl rfl rfl rfl rfl
    (by unfold Batch.Apart; decide) fun _ _ _ _ => rfl
  cases ran

end TorchSupa.Aten.Sublas
