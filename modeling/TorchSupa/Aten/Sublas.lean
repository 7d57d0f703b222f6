import Mathlib.Algebra.Order.Group.Nat

/-!
The wrappers around the BLAS library: leading dimensions of matrices that have one column are
repaired, arguments are checked, and products with a vector of 16-bit numbers are products of
matrices. The library computes on column-major matrices and refuses leading dimensions that are too
small.
-/

namespace TorchSupa.Aten.Sublas

open Nat

inductive ScalarType
  | half
  | bfloat16
  | float
  | double
  | complexFloat
  | complexDouble
deriving DecidableEq, Repr

inductive Fault
  | check (message : String)
  | invalidValue
  | overlap
  | expand
deriving DecidableEq, Repr

def ScalarType.words : ScalarType → String
  | .half => "half"
  | .bfloat16 => "bfloat16"
  | .float => "float"
  | .double => "double"
  | .complexFloat => "complex float"
  | .complexDouble => "complex double"

def ScalarType.cppName : ScalarType → String
  | .half => "at::Half"
  | .bfloat16 => "at::BFloat16"
  | .float => "float"
  | .double => "double"
  | .complexFloat => "c10::complex<float>"
  | .complexDouble => "c10::complex<double>"

def argumentMessage (fd x kind : String) (value : Nat) : String :=
  "at::sublas::" ++ fd ++ " argument " ++ x ++ " must be " ++ kind ++
    " and less than 2147483647 but got " ++ toString value

def nonNegInt (fd x : String) (value : Nat) : Except Fault Unit :=
  if value ≤ 2147483647 then .ok ()
  else .error (.check (argumentMessage fd x "non-negative" value))

def posInt (fd x : String) (value : Nat) : Except Fault Unit :=
  if 0 < value ∧ value ≤ 2147483647 then .ok ()
  else .error (.check (argumentMessage fd x "positive" value))

structure Leading where
  lda : Nat
  ldb : Nat
  ldc : Nat
deriving DecidableEq, Repr

def adjustLdLevel2 (m n lda : Nat) : Nat := if n ≤ 1 then max m 1 else lda

def adjustLdLevel3 (transa transb : Bool) (m n k : Nat) (ld : Leading) : Leading where
  ldc := if n ≤ 1 then max m 1 else ld.ldc
  lda :=
    if transa then (if m ≤ 1 then max k 1 else ld.lda) else if k ≤ 1 then max m 1 else ld.lda
  ldb :=
    if transb then (if k ≤ 1 then max n 1 else ld.ldb) else if n ≤ 1 then max k 1 else ld.ldb

section Library

variable {α : Type} [Zero α] [Add α] [Mul α] [DecidableEq α]

def entry (trans : Bool) (a : Nat → α) (lda row col : Nat) : α :=
  if trans then a (col + row * lda) else a (row + col * lda)

def scaled (alpha sum beta old : α) : α :=
  if beta = 0 then alpha * sum else alpha * sum + beta * old

structure Product (α : Type) where
  transa : Bool
  transb : Bool
  m : Nat
  n : Nat
  k : Nat
  alpha : α
  a : Nat → α
  b : Nat → α
  beta : α
  c : Nat → α
  ld : Leading

def Product.memory (product : Product α) (address : Nat) : α :=
  let row := address % product.ld.ldc
  let col := address / product.ld.ldc
  if row < product.m ∧ col < product.n then
    scaled product.alpha ((List.range product.k).map fun p =>
      entry product.transa product.a product.ld.lda row p *
        entry product.transb product.b product.ld.ldb p col).sum product.beta (product.c address)
  else product.c address

def Product.leadingRight (product : Product α) : Prop :=
  max 1 (if product.transa then product.k else product.m) ≤ product.ld.lda ∧
  max 1 (if product.transb then product.n else product.k) ≤ product.ld.ldb ∧
    max 1 product.m ≤ product.ld.ldc

instance (product : Product α) : Decidable product.leadingRight :=
  inferInstanceAs (Decidable (_ ∧ _ ∧ _))

def Product.call (product : Product α) : Except Fault (Nat → α) :=
  if product.leadingRight then .ok product.memory else .error .invalidValue

def Product.adjust (product : Product α) : Product α :=
  { product with
    ld := adjustLdLevel3 product.transa product.transb product.m product.n product.k product.ld }

def Product.check (product : Product α) (fd : String) : Except Fault Unit := do
  nonNegInt fd "m" product.m
  nonNegInt fd "n" product.n
  nonNegInt fd "k" product.k
  posInt fd "lda" product.ld.lda
  posInt fd "ldb" product.ld.ldb
  posInt fd "ldc" product.ld.ldc

def gemm (dtype : ScalarType) (product : Product α) : Except Fault (Nat → α) :=
  if dtype = .float ∨ dtype = .half ∨ dtype = .bfloat16 then do
    let adjusted := product.adjust
    adjusted.check ("gemm<" ++ dtype.cppName ++ ">")
    adjusted.call
  else .error (.check "at::sublas::gemm: not implemented")

structure Gemv (α : Type) where
  trans : Bool
  m : Nat
  n : Nat
  alpha : α
  a : Nat → α
  lda : Nat
  x : Nat → α
  incx : Nat
  beta : α
  y : Nat → α
  incy : Nat

def Gemv.output (args : Gemv α) : Nat := if args.trans then args.n else args.m

def Gemv.summed (args : Gemv α) : Nat := if args.trans then args.m else args.n

def Gemv.memory (args : Gemv α) (address : Nat) : α :=
  if address % args.incy = 0 ∧ address / args.incy < args.output then
    scaled args.alpha ((List.range args.summed).map fun p =>
      entry args.trans args.a args.lda (address / args.incy) p * args.x (p * args.incx)).sum
      args.beta (args.y address)
  else args.y address

def Gemv.call (args : Gemv α) : Except Fault (Nat → α) :=
  if max 1 args.m ≤ args.lda ∧ 0 < args.incx ∧ 0 < args.incy then .ok args.memory
  else .error .invalidValue

def gemvFloat (args : Gemv α) : Except Fault (Nat → α) := do
  let lda := adjustLdLevel2 args.m args.n args.lda
  nonNegInt "gemv<float>" "m" args.m
  nonNegInt "gemv<float>" "n" args.n
  posInt "gemv<float>" "lda" lda
  posInt "gemv<float>" "incx" args.incx
  posInt "gemv<float>" "incy" args.incy
  Gemv.call { args with lda }

def Gemv.asProduct (args : Gemv α) : Product α where
  transa := false
  transb := !args.trans
  m := 1
  n := args.output
  k := args.summed
  alpha := args.alpha
  a := args.x
  b := args.a
  beta := args.beta
  c := args.y
  ld := ⟨args.incx, args.lda, args.incy⟩

def gemv (dtype : ScalarType) (args : Gemv α) : Except Fault (Nat → α) :=
  match dtype with
  | .float => gemvFloat args
  | .half | .bfloat16 => gemm dtype args.asProduct
  | .double | .complexFloat | .complexDouble =>
    .error (.check ("at::sublas::gemv does not support " ++ dtype.words ++ " dtype"))

end Library

section Products

variable {α : Type} [AddMonoid α] [CommMagma α] [DecidableEq α]

/-- What the library needs of a product with a vector. A leading dimension is free where there is only
one column, and so is the increment of 16-bit numbers where there is only one of them. -/
structure Gemv.Right (dtype : ScalarType) (args : Gemv α) : Prop where
  supported : dtype = .float ∨ dtype = .half ∨ dtype = .bfloat16
  m : args.m ≤ 2147483647
  n : args.n ≤ 2147483647
  lda : 1 < args.n → max 1 args.m ≤ args.lda ∧ args.lda ≤ 2147483647
  incx : 0 < args.incx ∧ args.incx ≤ 2147483647 ∨ dtype ≠ .float ∧ args.summed ≤ 1
  incy : 0 < args.incy ∧ args.incy ≤ 2147483647 ∨ dtype ≠ .float ∧ args.output ≤ 1

variable {value : Nat} {args : Gemv α} {product : Product α} {dtype : ScalarType}

theorem nonNegInt_ok {fd x : String} (fits : value ≤ 2147483647) :
    nonNegInt fd x value = .ok () := if_pos fits

theorem posInt_ok {fd x : String} (fits : 0 < value ∧ value ≤ 2147483647) :
    posInt fd x value = .ok () := if_pos fits

omit [CommMagma α] in
theorem written_congr [Mul α] {one two : Prop} [Decidable one] [Decidable two] {alpha beta old : α}
    {k : Nat} {first second : Nat → α} (same : one ↔ two)
    (each : one → ∀ p < k, first p = second p) :
    (if one then scaled alpha ((List.range k).map first).sum beta old else old) =
      if two then scaled alpha ((List.range k).map second).sum beta old else old := by
  by_cases holds : one
  · rw [if_pos holds, if_pos (same.mp holds),
      List.map_congr_left fun p small => each holds p (List.mem_range.mp small)]
  · rw [if_neg holds, if_neg fun other => holds (same.mpr other)]

omit [AddMonoid α] [CommMagma α] [DecidableEq α] in
theorem entry_first {trans : Bool} {a : Nat → α} {lda other row col : Nat}
    (first : (if trans then row else col) = 0) : entry trans a lda row col = entry trans a other row col := by
  cases trans with
  | true =>
    obtain rfl : row = 0 := first
    simp [entry]
  | false =>
    obtain rfl : col = 0 := first
    simp [entry]

theorem Gemv.memory_adjust (args : Gemv α) :
    Gemv.memory { args with lda := adjustLdLevel2 args.m args.n args.lda } = args.memory := by
  funext address
  refine written_congr Iff.rfl fun inside p small => ?_
  unfold adjustLdLevel2
  split
  · next narrow =>
      refine congrArg (· * _) (entry_first ?_)
      have below : address / args.incy < if args.trans then args.n else args.m := inside.2
      have small : p < if args.trans then args.m else args.n := small
      change (if args.trans = true then address / args.incy else p) = 0
      generalize address / args.incy = row at below
      split_ifs at below small ⊢ <;> omega
  · rfl

theorem gemvFloat_eq (right : args.Right .float) : gemvFloat args = .ok args.memory := by
  have incx := right.incx.resolve_right fun reduced => reduced.1 rfl
  have incy := right.incy.resolve_right fun reduced => reduced.1 rfl
  have lda : max 1 args.m ≤ adjustLdLevel2 args.m args.n args.lda ∧
      adjustLdLevel2 args.m args.n args.lda ≤ 2147483647 := by
    unfold adjustLdLevel2
    have fits := right.m
    split
    · omega
    · exact right.lda (by omega)
  unfold gemvFloat
  dsimp only
  rw [nonNegInt_ok right.m, nonNegInt_ok right.n, posInt_ok ⟨by omega, lda.2⟩, posInt_ok incx,
    posInt_ok incy]
  change Gemv.call _ = _
  rw [Gemv.call, if_pos ⟨lda.1, incx.1, incy.1⟩, Gemv.memory_adjust]

section AsProduct

variable (args)

omit [CommMagma α] [AddMonoid α] [DecidableEq α] in
theorem asProduct_lda : args.asProduct.adjust.ld.lda = if args.summed ≤ 1 then 1 else args.incx := rfl

omit [CommMagma α] [AddMonoid α] [DecidableEq α] in
theorem asProduct_ldc : args.asProduct.adjust.ld.ldc = if args.output ≤ 1 then 1 else args.incy := rfl

omit [CommMagma α] [AddMonoid α] [DecidableEq α] in
theorem asProduct_ldb : args.asProduct.adjust.ld.ldb = adjustLdLevel2 args.m args.n args.lda := by
  obtain ⟨trans⟩ := args
  cases trans <;> rfl

omit [CommMagma α] [AddMonoid α] [DecidableEq α] in
theorem asProduct_place (address : Nat) : (address % args.asProduct.adjust.ld.ldc < 1 ∧
      address / args.asProduct.adjust.ld.ldc < args.output ↔
        address % args.incy = 0 ∧ address / args.incy < args.output) ∧
    (address % args.incy = 0 → address / args.incy < args.output →
      address / args.asProduct.adjust.ld.ldc = address / args.incy) := by
  rw [asProduct_ldc]
  by_cases narrow : args.output ≤ 1
  · have origin : address % args.incy = 0 → address / args.incy < args.output → address = 0 := by
      intro first below
      have whole := div_add_mod address args.incy
      rw [lt_one_iff.mp (below.trans_le narrow), first, Nat.mul_zero] at whole
      exact whole.symm
    rw [if_pos narrow, Nat.mod_one, Nat.div_one]
    refine ⟨⟨?_, fun inside => ?_⟩, fun first below => ?_⟩
    · rintro ⟨-, below⟩
      obtain rfl : address = 0 := by omega
      simpa using below
    · obtain rfl := origin inside.1 inside.2
      simpa using inside.2
    · obtain rfl := origin first below
      rw [Nat.zero_div]
  · rw [if_neg narrow, Nat.lt_one_iff]
    exact ⟨Iff.rfl, fun _ _ => rfl⟩

theorem asProduct_memory : args.asProduct.adjust.memory = args.memory := by
  rw [← Gemv.memory_adjust args]
  funext address
  obtain ⟨place, column⟩ := asProduct_place args address
  refine written_congr place fun inside p small => ?_
  obtain ⟨first, below⟩ := place.mp inside
  have row : address % args.asProduct.adjust.ld.ldc = 0 := lt_one_iff.mp inside.1
  have x : entry false args.x args.asProduct.adjust.ld.lda 0 p = args.x (p * args.incx) := by
    rw [asProduct_lda]
    have small : p < args.summed := small
    by_cases narrow : args.summed ≤ 1
    · obtain rfl : p = 0 := by omega
      simp [entry]
    · simp [entry, narrow]
  have a : entry (!args.trans) args.a args.asProduct.adjust.ld.ldb p (address / args.incy) =
      entry args.trans args.a (adjustLdLevel2 args.m args.n args.lda) (address / args.incy) p := by
    rw [asProduct_ldb]
    cases args.trans <;> rfl
  rw [row, column first below]
  change entry false args.x _ 0 p * entry (!args.trans) args.a _ p _ = _
  rw [x, a, mul_comm]

end AsProduct

structure Product.Fits (product : Product α) : Prop where
  m : product.m ≤ 2147483647
  n : product.n ≤ 2147483647
  k : product.k ≤ 2147483647
  right : product.leadingRight
  lda : product.ld.lda ≤ 2147483647
  ldb : product.ld.ldb ≤ 2147483647
  ldc : product.ld.ldc ≤ 2147483647

omit [AddMonoid α] [CommMagma α] [DecidableEq α] in
theorem Product.check_ok
    (sizes : product.m ≤ 2147483647 ∧ product.n ≤ 2147483647 ∧ product.k ≤ 2147483647)
    (lda : 0 < product.ld.lda ∧ product.ld.lda ≤ 2147483647)
    (ldb : 0 < product.ld.ldb ∧ product.ld.ldb ≤ 2147483647)
    (ldc : 0 < product.ld.ldc ∧ product.ld.ldc ≤ 2147483647) (fd : String) :
    product.check fd = .ok () := by
  rw [Product.check, nonNegInt_ok sizes.1, nonNegInt_ok sizes.2.1, nonNegInt_ok sizes.2.2,
    posInt_ok lda, posInt_ok ldb, posInt_ok ldc]
  rfl

omit [AddMonoid α] [CommMagma α] [DecidableEq α] in
theorem Product.Fits.check (fits : product.Fits) (fd : String) : product.check fd = .ok () := by
  obtain ⟨lda, ldb, ldc⟩ := fits.right
  exact product.check_ok ⟨fits.m, fits.n, fits.k⟩ ⟨by omega, fits.lda⟩ ⟨by omega, fits.ldb⟩
    ⟨by omega, fits.ldc⟩ fd

theorem gemm_eq (fits : product.adjust.Fits)
    (supported : dtype = .float ∨ dtype = .half ∨ dtype = .bfloat16) :
    gemm dtype product = .ok product.adjust.memory := by
  rw [gemm, if_pos supported]
  dsimp only
  rw [fits.check]
  exact if_pos fits.right

theorem gemv_eq (right : args.Right dtype) : gemv dtype args = .ok args.memory := by
  have reduced (apart : dtype ≠ .float) : args.asProduct.adjust.Fits := by
    have output : args.output ≤ 2147483647 := by
      unfold Gemv.output
      split
      · exact right.n
      · exact right.m
    have summed : args.summed ≤ 2147483647 := by
      unfold Gemv.summed
      split
      · exact right.m
      · exact right.n
    have incx := right.incx
    have incy := right.incy
    have lda : max 1 args.m ≤ args.asProduct.adjust.ld.ldb ∧
        args.asProduct.adjust.ld.ldb ≤ 2147483647 := by
      rw [asProduct_ldb, adjustLdLevel2]
      have fits := right.m
      split
      · omega
      · exact right.lda (by omega)
    refine ⟨(by decide : 1 ≤ 2147483647), output, summed, ⟨?_, ?_, ?_⟩, ?_, lda.2, ?_⟩
    · rw [asProduct_lda]
      change max 1 1 ≤ _
      split <;> omega
    · refine le_trans (le_of_eq ?_) lda.1
      obtain ⟨trans⟩ := args
      cases trans <;> rfl
    · rw [asProduct_ldc]
      change max 1 1 ≤ _
      split <;> omega
    · rw [asProduct_lda]
      split <;> omega
    · rw [asProduct_ldc]
      split <;> omega
  obtain rfl | rfl | rfl := right.supported
  · exact gemvFloat_eq right
  all_goals
    exact (gemm_eq (reduced (by decide)) right.supported).trans (congrArg _ (asProduct_memory args))

end Products

end TorchSupa.Aten.Sublas
