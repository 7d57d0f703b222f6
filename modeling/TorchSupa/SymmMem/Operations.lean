import TorchSupa.SymmMem.Kernels

/-!
The operators on symmetric memory: what they check of their tensors, and the kernels that they
launch.
-/

namespace TorchSupa.SymmMem.Collective

open Nat Option

inductive ScalarType
  | float
  | bfloat16
  | other (name : String) (elementSize : Nat)
deriving DecidableEq, Repr

def ScalarType.elementSize : ScalarType → Nat
  | .float => 4
  | .bfloat16 => 2
  | .other _ elementSize => elementSize

def ScalarType.name : ScalarType → String
  | .float => "Float"
  | .bfloat16 => "BFloat16"
  | .other name _ => name

structure Tensor where
  sizes : List Nat
  scalarType : ScalarType := .float
  storageOffset : Nat := 0
  contiguous : Bool := true
deriving DecidableEq, Repr

def Tensor.numel (self : Tensor) : Nat := self.sizes.prod

def Tensor.elementSize (self : Tensor) : Nat := self.scalarType.elementSize

def check (condition : Bool) (message : String) : Except String Unit :=
  if condition then .ok () else .error message

def getAlignment (value : Nat) : Nat :=
  if value % 16 = 0 then 16
  else if value % 8 = 0 then 8
  else if value % 4 = 0 then 4
  else if value % 2 = 0 then 2
  else 1

def getAndVerifyAlignment (input : Tensor) (opName : String) : Except String Nat := do
  let minAlignment := max 4 input.elementSize
  let ptrAlignment := getAlignment (input.storageOffset * input.elementSize)
  check (minAlignment ≤ ptrAlignment)
    s!"{opName}<{input.scalarType.name}>: input ptr + offset must be at least {minAlignment}-byte aligned."
  let sizeAlignment := getAlignment (input.numel * input.elementSize)
  check (minAlignment ≤ sizeAlignment)
    s!"{opName}<{input.scalarType.name}>: input size must be at least {minAlignment}-byte aligned."
  pure (min ptrAlignment sizeAlignment)

def dispatchFloatAndBfloat16 (scalarType : ScalarType) (name : String) : Except String Unit :=
  check (scalarType == .float || scalarType == .bfloat16)
    s!"\"{name}\" not implemented for '{scalarType.name}'"

def dispatchAlignments (alignment : Nat) : Except String Unit :=
  check (alignment == 16 || alignment == 8 || alignment == 4)
    s!"Not implemented for alignment={alignment}"

def dispatchWorldSizesNoDefault (worldSize : Nat) : Except String Unit :=
  check (specialized worldSize) s!"Not implemented for world_size={worldSize}"

def dataPtr (tensor : Tensor) (scalarType : ScalarType) : Except String Unit :=
  check (tensor.scalarType == scalarType)
    s!"expected scalar type {scalarType.name} but found {tensor.scalarType.name}"

def checkRendezvous (symmMem : Option Nat) (opName : String) : Except String Nat :=
  match symmMem with
  | some worldSize => .ok worldSize
  | none => .error s!"{opName}: input must be allocated with empty_strided_p2p()."

def sameScalarType (input output : Tensor) (text : String) : Except String Unit :=
  check (input.scalarType == output.scalarType) s!"Expected {text} to be true, but got false."

def oneShotAllReduceOutImpl (mira : Bool) (symmMem : Option Nat) (input : Tensor)
    (localInput : Option Tensor) (reduceOp : String) (out : Tensor) :
    Except String (Option Program) := do
  check input.contiguous "one_shot_all_reduce: input must be contiguous."
  check out.contiguous "one_shot_all_reduce: output must be contiguous."
  check (out.sizes == input.sizes)
    s!"one_shot_all_reduce: input/output size mismatch, input.sizes(): {input.sizes}, output.sizes(): {out.sizes}"
  check (reduceOp == "sum") "one_shot_all_reduce: only sum is supported for now."
  if let some tensor := localInput then
    check tensor.contiguous "one_shot_all_reduce: local input must be contiguous."
    check (tensor.numel ≤ input.numel)
      "one_shot_all_reduce: local input size must be smaller than symm buffer size."
  if input.numel = 0 then
    sameScalarType input out "input.scalar_type() == out.scalar_type()"
    return none
  let worldSize ← checkRendezvous symmMem "one_shot_all_reduce"
  let alignment ← getAndVerifyAlignment input "one_shot_all_reduce"
  if let some tensor := localInput then
    let localAlignment ← getAndVerifyAlignment tensor "one_shot_all_reduce"
    check (alignment == localAlignment)
      "one_shot_all_reduce: local input and symm buffer must have the same alignment."
  dispatchFloatAndBfloat16 input.scalarType "one_shot_all_reduce"
  dispatchAlignments alignment
  dataPtr out input.scalarType
  if let some tensor := localInput then
    dataPtr tensor input.scalarType
  let operands : Operands :=
    { elementSize := input.elementSize
      alignment := alignment
      mira := mira
      inputOffset := input.storageOffset
      numel := input.numel
      localOffset := (localInput.map Tensor.storageOffset).getD 0
      localNumel := (localInput.map Tensor.numel).getD 0
      outOffset := out.storageOffset
      outNumel := out.numel }
  -- the pointer to a tensor without elements is null too
  return some (oneShotAllReduceKernel operands (operands.localNumel != 0) worldSize)

def twoShotAllReduceImpl (mira : Bool) (symmMem : Option Nat) (input : Tensor)
    (output : Option Tensor) (reduceOp : String) : Except String (Option Program) := do
  check input.contiguous "two_shot_all_reduce: input must be contiguous."
  check (reduceOp == "sum") "two_shot_all_reduce: only sum is supported for now."
  let worldSize ← checkRendezvous symmMem "two_shot_all_reduce"
  let alignment ← getAndVerifyAlignment input "two_shot_all_reduce"
  if let some tensor := output then
    check tensor.contiguous "two_shot_all_reduce: output must be contiguous."
    let outputAlignment ← getAndVerifyAlignment tensor "two_shot_all_reduce"
    check (alignment ≤ outputAlignment)
      "two_shot_all_reduce: output alignment must be equal to or larger than input."
    check (tensor.sizes == input.sizes)
      s!"two_shot_all_reduce: input/output size mismatch, input.sizes(): {input.sizes}, output.sizes(): {tensor.sizes}"
    if input.numel = 0 then
      sameScalarType tensor input "output->scalar_type() == input.scalar_type()"
  if input.numel = 0 then
    return none
  let operands : Operands :=
    { elementSize := input.elementSize
      alignment := alignment
      mira := mira
      inputOffset := input.storageOffset
      numel := input.numel
      outOffset := (output.map Tensor.storageOffset).getD 0
      outNumel := (output.map Tensor.numel).getD 0 }
  dispatchFloatAndBfloat16 input.scalarType "two_shot_all_reduce"
  dispatchAlignments alignment
  match output with
  | none => return some (twoShotAllReduceKernelInplace operands worldSize)
  | some tensor =>
    dispatchWorldSizesNoDefault worldSize
    dataPtr tensor input.scalarType
    return some (twoShotAllReduceKernel operands worldSize)

def Tensor.lastDim (self : Tensor) : Nat := self.sizes.getLastD 0

def reduceScatterOut (mira : Bool) (symmMem : Option Nat) (input : Tensor) (splitLastDim : Bool)
    (output : Tensor) : Except String (Option Program) := do
  check input.contiguous "reduce_scatter: input must be contiguous."
  check output.contiguous "reduce_scatter: output must be contiguous."
  let worldSize ← checkRendezvous symmMem "reduce_scatter"
  let alignment ← getAndVerifyAlignment input "reduce_scatter"
  let outputAlignment ← getAndVerifyAlignment input "reduce_scatter"
  check (input.numel % (worldSize * (alignment / input.elementSize)) == 0)
    s!"expected number of elements to be divisible by world_size * alignment, number of elements {input.numel} world size {worldSize}alignment {alignment}"
  if splitLastDim then
    check (input.sizes.length == output.sizes.length)
      "Expected input.dim() == output.dim() to be true, but got false."
    check (input.sizes.dropLast == output.sizes.dropLast)
      "reduce_scatter expected input and output to have same sizes except in the last dimension"
    check (output.lastDim == input.lastDim / worldSize)
      "reduce_scatter expected output last dim size to be input last dim size / world_size"
    check (input.lastDim % (worldSize * (alignment / input.elementSize)) == 0)
      s!"expected last dimension to be divisible by world_size * alignment, last dimension {input.lastDim} world size {worldSize}alignment {alignment}"
  else
    check (input.sizes.length == 1) "reduce_scatter expected 1D input"
    check (output.sizes.length == 1) "reduce_scatter expected 1D output"
    check (output.numel == input.numel / worldSize)
      "Expected output.numel() == input.numel() / symm_mem->get_world_size() to be true, but got false."
  if input.numel = 0 then
    sameScalarType input output "input.scalar_type() == output.scalar_type()"
    return none
  check (alignment ≤ outputAlignment)
    "reduce_scatter: output alignment should be not smaller than input alignment"
  let operands : Operands :=
    { elementSize := input.elementSize
      alignment := alignment
      mira := mira
      inputOffset := input.storageOffset
      numel := input.numel
      outOffset := output.storageOffset
      outNumel := output.numel }
  dispatchFloatAndBfloat16 input.scalarType "two_shot_all_reduce"
  dispatchAlignments alignment
  dispatchWorldSizesNoDefault worldSize
  dataPtr output input.scalarType
  return some (reduceScatterKernel operands (if splitLastDim then some input.lastDim else none) worldSize)

section Accepted

theorem bind_ok {α β : Type} {first : Except String α} {next : α → Except String β} {result : β} :
    first.bind next = .ok result ↔ ∃ value, first = .ok value ∧ next value = .ok result := by
  cases first <;> simp [Except.bind]

theorem check_ok {condition : Bool} {message : String} {value : Unit} :
    check condition message = .ok value ↔ condition = true := by
  unfold check
  cases condition <;> simp

theorem getAlignment_cases (value : Nat) :
    getAlignment value ∣ value ∧ (getAlignment value = 16 ∨ getAlignment value = 8 ∨
      getAlignment value = 4 ∨ getAlignment value = 2 ∨ getAlignment value = 1) := by
  unfold getAlignment
  split
  · exact ⟨dvd_of_mod_eq_zero ‹_›, by omega⟩
  · split
    · exact ⟨dvd_of_mod_eq_zero ‹_›, by omega⟩
    · split
      · exact ⟨dvd_of_mod_eq_zero ‹_›, by omega⟩
      · split
        · exact ⟨dvd_of_mod_eq_zero ‹_›, by omega⟩
        · exact ⟨one_dvd _, by omega⟩

structure Vectors (tensor : Tensor) (alignment : Nat) : Prop where
  offset : alignment ∣ tensor.storageOffset * tensor.elementSize
  size : alignment ∣ tensor.numel * tensor.elementSize
  powers : alignment = 16 ∨ alignment = 8 ∨ alignment = 4
  element : tensor.elementSize = 4 ∨ tensor.elementSize = 2

def vectorWidth (tensor : Tensor) : Nat :=
  min (getAlignment (tensor.storageOffset * tensor.elementSize))
    (getAlignment (tensor.numel * tensor.elementSize))

structure Widest (tensor : Tensor) (alignment : Nat) : Prop extends Vectors tensor alignment where
  widest : alignment = vectorWidth tensor

variable {tensor : Tensor} {opName : String} {alignment : Nat}

theorem verified_divides (verified : getAndVerifyAlignment tensor opName = .ok alignment) :
    alignment ∣ tensor.storageOffset * tensor.elementSize ∧
      alignment ∣ tensor.numel * tensor.elementSize ∧
      (alignment = 16 ∨ alignment = 8 ∨ alignment = 4) ∧ alignment = vectorWidth tensor := by
  unfold getAndVerifyAlignment at verified
  unfold vectorWidth
  simp only [bind, bind_ok, check_ok, pure, Except.pure, decide_eq_true_eq] at verified
  obtain ⟨_, low, _, _, same⟩ := verified
  cases same
  obtain ⟨one, first⟩ := getAlignment_cases (tensor.storageOffset * tensor.elementSize)
  obtain ⟨two, second⟩ := getAlignment_cases (tensor.numel * tensor.elementSize)
  generalize getAlignment (tensor.storageOffset * tensor.elementSize) = ptr at *
  generalize getAlignment (tensor.numel * tensor.elementSize) = size at *
  have left : min ptr size ∣ ptr := by
    rcases first with rfl | rfl | rfl | rfl | rfl <;>
      rcases second with rfl | rfl | rfl | rfl | rfl <;> decide
  have right : min ptr size ∣ size := by
    rcases first with rfl | rfl | rfl | rfl | rfl <;>
      rcases second with rfl | rfl | rfl | rfl | rfl <;> decide
  exact ⟨left.trans one, right.trans two, by omega, rfl⟩

theorem vectors_of_verified (verified : getAndVerifyAlignment tensor opName = .ok alignment)
    (dispatched : tensor.elementSize = 4 ∨ tensor.elementSize = 2) : Widest tensor alignment := by
  obtain ⟨offset, size, powers, widest⟩ := verified_divides verified
  exact ⟨⟨offset, size, powers, dispatched⟩, widest⟩

theorem element_of_dispatched {scalarType : ScalarType}
    (dispatched : (scalarType == .float || scalarType == .bfloat16) = true) :
    scalarType.elementSize = 4 ∨ scalarType.elementSize = 2 := by
  simp only [Bool.or_eq_true, beq_iff_eq] at dispatched
  rcases dispatched with rfl | rfl
  · exact .inl rfl
  · exact .inr rfl

variable {mira : Bool} {worldSize : Nat} {input out : Tensor} {localInput output : Option Tensor}
  {reduceOp : String} {program : Program}

def operandsOf (mira : Bool) (input : Tensor) (alignment : Nat) (localInput output : Option Tensor) :
    Operands where
  elementSize := input.elementSize
  alignment := alignment
  mira := mira
  inputOffset := input.storageOffset
  numel := input.numel
  localOffset := (localInput.map Tensor.storageOffset).getD 0
  localNumel := (localInput.map Tensor.numel).getD 0
  outOffset := (output.map Tensor.storageOffset).getD 0
  outNumel := (output.map Tensor.numel).getD 0

theorem oneShot_accepted
    (accepted : oneShotAllReduceOutImpl mira (some worldSize) input localInput reduceOp out =
      .ok (some program)) :
    ∃ alignment, Widest input alignment ∧ 0 < input.numel ∧ out.sizes = input.sizes ∧
      (∀ tensor, localInput = some tensor → Vectors tensor alignment ∧
        tensor.elementSize = input.elementSize ∧ tensor.numel ≤ input.numel) ∧
      let operands := operandsOf mira input alignment localInput (some out)
      program = oneShotAllReduceKernel operands (operands.localNumel != 0) worldSize := by
  unfold oneShotAllReduceOutImpl at accepted
  cases localInput with
  | none =>
    simp only [bind, bind_ok, check_ok, pure, Except.pure] at accepted
    obtain ⟨_, _, _, _, _, sizes, _, _, rest⟩ := accepted
    split at rest
    · obtain ⟨_, _, nothing⟩ := bind_ok.mp rest
      exact nomatch Except.ok.inj nothing
    · next some =>
        simp only [checkRendezvous, bind_ok, check_ok, dispatchFloatAndBfloat16, dispatchAlignments,
          dataPtr] at rest
        obtain ⟨_, same, alignment, verified, _, dispatched, _, _, _, _, launched⟩ := rest
        cases same
        refine ⟨alignment, vectors_of_verified verified (element_of_dispatched dispatched),
          Nat.pos_of_ne_zero some, eq_of_beq sizes, nofun, ?_⟩
        exact (Option.some.inj (Except.ok.inj launched)).symm
  | some tensor =>
    simp only [bind, bind_ok, check_ok, pure, Except.pure] at accepted
    obtain ⟨_, _, _, _, _, sizes, _, _, _, _, _, few, rest⟩ := accepted
    split at rest
    · obtain ⟨_, _, nothing⟩ := bind_ok.mp rest
      exact nomatch Except.ok.inj nothing
    · next some =>
        simp only [checkRendezvous, bind_ok, check_ok, dispatchFloatAndBfloat16, dispatchAlignments,
          dataPtr] at rest
        obtain ⟨_, same, alignment, verified, localAlignment, also, _, equal, _, dispatched, _, _, _, _,
          _, type, launched⟩ := rest
        cases same
        obtain rfl := eq_of_beq equal
        have element := element_of_dispatched dispatched
        have size : tensor.elementSize = input.elementSize :=
          congrArg ScalarType.elementSize (eq_of_beq type)
        refine ⟨alignment, vectors_of_verified verified element, Nat.pos_of_ne_zero some,
          eq_of_beq sizes, ?_, ?_⟩
        · rintro _ ⟨⟩
          refine ⟨(vectors_of_verified also ?_).toVectors, size, of_decide_eq_true few⟩
          rw [size]
          exact element
        · exact (Option.some.inj (Except.ok.inj launched)).symm

theorem inplace_accepted
    (accepted : twoShotAllReduceImpl mira (some worldSize) input none reduceOp = .ok (some program)) :
    ∃ alignment, Widest input alignment ∧
      program = twoShotAllReduceKernelInplace (operandsOf mira input alignment none none) worldSize := by
  unfold twoShotAllReduceImpl at accepted
  simp only [bind, bind_ok, check_ok, pure, Except.pure, checkRendezvous] at accepted
  obtain ⟨_, _, _, _, _, same, alignment, verified, rest⟩ := accepted
  cases same
  split at rest
  · exact nomatch Except.ok.inj rest
  · simp only [bind_ok, check_ok, dispatchFloatAndBfloat16, dispatchAlignments] at rest
    obtain ⟨_, dispatched, _, _, launched⟩ := rest
    exact ⟨alignment, vectors_of_verified verified (element_of_dispatched dispatched),
      (some.inj (Except.ok.inj launched)).symm⟩

theorem Vectors.le_dvd {other : Tensor} {coarser : Nat}
    (vectors : Vectors tensor alignment) (others : Vectors other coarser)
    (le : alignment ≤ coarser) : alignment ∣ coarser := by
  rcases vectors.powers with rfl | rfl | rfl <;> rcases others.powers with rfl | rfl | rfl <;>
    first | decide | exact absurd le (by decide)

theorem twoShot_accepted
    (accepted : twoShotAllReduceImpl mira (some worldSize) input (some tensor) reduceOp =
      .ok (some program)) :
    ∃ alignment, Widest input alignment ∧ tensor.sizes = input.sizes ∧
      alignment ∣ tensor.storageOffset * input.elementSize ∧ specialized worldSize = true ∧
      program = twoShotAllReduceKernel (operandsOf mira input alignment none (some tensor))
        worldSize := by
  unfold twoShotAllReduceImpl at accepted
  simp only [bind, bind_ok, check_ok, pure, Except.pure, checkRendezvous] at accepted
  obtain ⟨_, _, _, _, _, same, alignment, verified, _, _, outAlignment, also, _, le, _, sizes, rest⟩ :=
    accepted
  cases same
  split at rest
  · obtain ⟨_, _, nothing⟩ := bind_ok.mp rest
    exact nomatch Except.ok.inj nothing
  · simp only [bind_ok, check_ok, dispatchFloatAndBfloat16, dispatchAlignments,
      dispatchWorldSizesNoDefault, dataPtr] at rest
    obtain ⟨_, dispatched, _, _, _, special, _, type, launched⟩ := rest
    have element := element_of_dispatched dispatched
    have size : tensor.elementSize = input.elementSize :=
      congrArg ScalarType.elementSize (eq_of_beq type)
    have vectors := vectors_of_verified verified element
    have outputs := vectors_of_verified also (by
      rw [size]
      exact element)
    have offset := outputs.offset
    rw [size] at offset
    exact ⟨alignment, vectors, eq_of_beq sizes,
      (vectors.le_dvd outputs.toVectors (of_decide_eq_true le)).trans offset, special,
      (some.inj (Except.ok.inj launched)).symm⟩

structure Scatters (input output : Tensor) (splitLastDim : Bool) (worldSize width : Nat) : Prop where
  divides : worldSize * width ∣ input.numel
  output : output.numel = input.numel / worldSize
  last : splitLastDim = true → worldSize * width ∣ input.lastDim ∧
    ∃ rows, input.numel = rows * input.lastDim

open List

theorem prod_lastDim (some : tensor.sizes ≠ []) :
    tensor.numel = tensor.sizes.dropLast.prod * tensor.lastDim := by
  unfold Tensor.numel Tensor.lastDim
  rw [getLastD_eq_getLast?, getLast?_eq_some_getLast some, getD_some,
    ← prod_concat, concat_eq_append, dropLast_append_getLast some]

theorem reduceScatter_accepted {splitLastDim : Bool}
    (accepted : reduceScatterOut mira (some worldSize) input splitLastDim out = .ok (some program)) :
    ∃ alignment, Widest input alignment ∧ 0 < input.numel ∧ specialized worldSize = true ∧
      Scatters input out splitLastDim worldSize (alignment / input.elementSize) ∧
      program = reduceScatterKernel (operandsOf mira input alignment none (some out))
        (if splitLastDim then some input.lastDim else none) worldSize := by
  unfold reduceScatterOut at accepted
  simp only [bind, bind_ok, check_ok, pure, Except.pure, checkRendezvous] at accepted
  obtain ⟨_, _, _, _, _, same, alignment, verified, _, _, _, divides, rest⟩ := accepted
  cases same
  have divided := Nat.dvd_of_mod_eq_zero (eq_of_beq divides)
  cases splitLastDim with
  | false =>
    simp only [Bool.false_eq_true, if_false, bind_ok, check_ok] at rest
    obtain ⟨_, _, _, _, _, numel, rest⟩ := rest
    split at rest
    · obtain ⟨_, _, nothing⟩ := bind_ok.mp rest
      exact nomatch Except.ok.inj nothing
    · next some =>
        simp only [bind_ok, check_ok, dispatchFloatAndBfloat16, dispatchAlignments,
          dispatchWorldSizesNoDefault, dataPtr] at rest
        obtain ⟨_, _, _, dispatched, _, _, _, special, _, _, launched⟩ := rest
        exact ⟨alignment, vectors_of_verified verified (element_of_dispatched dispatched),
          Nat.pos_of_ne_zero some, special, ⟨divided, eq_of_beq numel, nofun⟩, (Option.some.inj (Except.ok.inj launched)).symm⟩
  | true =>
    simp only [if_true, bind_ok, check_ok] at rest
    obtain ⟨_, length, _, others, _, last, _, lastDivides, rest⟩ := rest
    split at rest
    · obtain ⟨_, _, nothing⟩ := bind_ok.mp rest
      exact nomatch Except.ok.inj nothing
    · next some =>
        simp only [bind_ok, check_ok, dispatchFloatAndBfloat16, dispatchAlignments,
          dispatchWorldSizesNoDefault, dataPtr] at rest
        obtain ⟨_, _, _, dispatched, _, _, _, special, _, _, launched⟩ := rest
        have sized : input.sizes ≠ [] := by
          intro none
          have one : input.numel = 1 := congrArg List.prod none
          rw [one] at divided
          rw [Nat.dvd_one.mp ((Nat.dvd_mul_right _ _).trans divided)] at special
          exact absurd special (by decide)
        have also : out.sizes ≠ [] := by
          intro none
          rw [none] at length
          exact sized (length_eq_zero_iff.mp (eq_of_beq length))
        have lasts := Nat.dvd_of_mod_eq_zero (eq_of_beq lastDivides)
        refine ⟨alignment, vectors_of_verified verified (element_of_dispatched dispatched),
          Nat.pos_of_ne_zero some, special, ⟨divided, ?_, fun _ => ⟨lasts, _, prod_lastDim sized⟩⟩,
          (Option.some.inj (Except.ok.inj launched)).symm⟩
        rw [prod_lastDim sized, prod_lastDim also, eq_of_beq others, eq_of_beq last,
          Nat.mul_div_assoc _ ((Nat.dvd_mul_right _ _).trans lasts)]

end Accepted

end TorchSupa.SymmMem.Collective
