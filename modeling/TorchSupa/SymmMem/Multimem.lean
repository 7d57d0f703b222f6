import TorchSupa.Logic.VectorAccess
import TorchSupa.SymmMem.Operations

/-!
The operators that go through a multicast address. The calls of `multimem_ld_reduce_add` and
`multimem_st` count as accesses, though their bodies fail an assertion in this build.
-/

namespace TorchSupa.SymmMem.Collective

structure Handle where
  rank : Nat
  worldSize : Nat
  multicastSupport : Bool := true
deriving DecidableEq, Repr

def storeWidth (mira : Bool) (alignment : Nat) : Nat := if mira then alignment else min alignment 8

structure MultimemKernel where
  launch : Nat → Launch
  numelPerThread : Nat
  bound : Nat
  body : Nat → List VectorAccess

section Kernels

variable (mira : Bool) (alignment : Nat) (symmMem : Handle)

def Tensor.vectorAt (self : Tensor) (elementSize alignment index : Nat) : VectorAccess where
  first := self.storageOffset * elementSize
  bytes := self.numel * elementSize
  address := (self.storageOffset + index) * elementSize
  width := alignment

def multimemAllReduceKernel (input : Tensor) : MultimemKernel :=
  let numelPerRank := roundUp input.numel (alignment * symmMem.worldSize) / symmMem.worldSize
  let start := numelPerRank * symmMem.rank
  { launch := fun warpSize =>
      initElementwiseLaunchConfig input.numel input.elementSize alignment symmMem.worldSize 8 1024
        symmMem.worldSize warpSize
    numelPerThread := alignment / input.elementSize
    bound := numelPerRank
    body := fun i =>
      if start + i ≥ input.numel then []
      else
        [input.vectorAt input.elementSize alignment (start + i),
          input.vectorAt input.elementSize alignment (start + i)] }

def multimemOneShotReduceKernel (input out : Tensor) (root : Nat) : MultimemKernel where
  launch warpSize :=
    initElementwiseLaunchConfig input.numel input.elementSize alignment 1 8 1024 symmMem.worldSize
      warpSize
  numelPerThread := alignment / input.elementSize
  bound := if symmMem.rank = root then input.numel else 0
  body i :=
    input.vectorAt input.elementSize alignment i ::
      (out.vectorAt input.elementSize alignment i).parts (storeWidth mira alignment)

def Tensor.slice (self : Tensor) (worldSize : Nat) : Nat := self.numel * self.elementSize / worldSize

def multimemAllGatherKernel (input out : Tensor) : MultimemKernel :=
  let bytesPerRank := input.numel * input.elementSize
  let start := bytesPerRank * symmMem.rank
  { launch := fun warpSize =>
      initElementwiseLaunchConfig bytesPerRank 1 alignment 1 8 1024 symmMem.worldSize warpSize
    numelPerThread := alignment
    bound := bytesPerRank
    body := fun i =>
      [{ first := input.storageOffset * input.elementSize
         bytes := bytesPerRank
         address := input.storageOffset * input.elementSize + i
         width := alignment },
        { first := out.storageOffset * out.elementSize + out.slice symmMem.worldSize * symmMem.rank
          bytes := out.slice symmMem.worldSize
          address := out.storageOffset * out.elementSize + (start + i)
          width := alignment }] }

end Kernels

section Operators

def checkMulticast (symmMem : Option Handle) (nullptr support : String) : Except String Handle :=
  match symmMem with
  | none => .error nullptr
  | some symmMem => do
      check symmMem.multicastSupport support
      pure symmMem

def multimemAllReduce (symmMem : Option Handle) (input : Tensor) (reduceOp : String) :
    Except String MultimemKernel := do
  check input.contiguous "multimem_all_reduce_: input must be contiguous."
  check (reduceOp == "sum") "multimem_all_reduce_: only sum is supported for now."
  let symmMem ← checkMulticast symmMem
    "multimem_all_reduce_: input must be allocated with empty_strided_p2p()."
    "multimem_all_reduce_: multicast support is required."
  let alignment ← getAndVerifyAlignment input "multimem_all_reduce_"
  dispatchFloatAndBfloat16 input.scalarType "multimem_all_reduce_"
  dispatchAlignments alignment
  return multimemAllReduceKernel alignment symmMem input

def multimemOneShotReduceOut (mira : Bool) (symmMem : Option Handle) (input : Tensor)
    (reduceOp : String) (root : Int) (out : Tensor) : Except String MultimemKernel := do
  check input.contiguous "multimem_one_shot_reduce: input must be contiguous."
  check (reduceOp == "sum") "multimem_one_shot_reduce: only sum is supported for now."
  let symmMem ← checkMulticast symmMem
    "multimem_one_shot_reduce: input must be allocated with empty_strided_p2p()."
    "multimem_one_shot_reduce: requires multicast support."
  check (decide (0 ≤ root) && decide (root < symmMem.worldSize))
    "multimem_one_shot_reduce: root must be in [0, world_size)."
  if (symmMem.rank : Int) = root then
    check out.contiguous "multimem_one_shot_reduce: output must be contiguous."
    check (out.sizes == input.sizes) "multimem_one_shot_reduce: input/output size mismatch."
  let alignment ← getAndVerifyAlignment input "multimem_one_shot_all_reduce"
  dispatchFloatAndBfloat16 input.scalarType "multimem_one_shot_all_reduce"
  dispatchAlignments alignment
  dataPtr out input.scalarType
  return multimemOneShotReduceKernel mira alignment symmMem input out root.toNat

def multimemAllGatherOut (symmMem : Option Handle) (input out : Tensor) :
    Except String MultimemKernel := do
  let symmMem ← checkMulticast symmMem
    "multimem_all_gather_out: output must be allocated with empty_strided_p2p()."
    "multimem_all_gather_out: output must have multicast support."
  check input.contiguous "multimem_all_gather_out: input must be contiguous."
  check out.contiguous "multimem_all_gather_out: output must be contiguous."
  check (input.sizes.length == out.sizes.length)
    "multimem_all_gather_out: input/output dimension mismatch."
  match input.sizes, out.sizes with
  | first :: rest, outFirst :: outRest =>
    check (outFirst == first * symmMem.worldSize)
      s!"multimem_all_gather_out: out.sizes()[0] must be equal to input.sizes[0] * world_size. (out.sizes():{out.sizes}, input.sizes(): {input.sizes}, world_size: {symmMem.worldSize})"
    check (outRest == rest)
      "multimem_all_gather_out: all non-0th dimension of input and output must match."
  -- without dimensions: `ArrayRef::operator[]` reads behind the end and does not check
  | _, _ => throw "undefined behaviour"
  let alignment ← getAndVerifyAlignment out "multimem_all_gather_out"
  dispatchAlignments alignment
  return multimemAllGatherKernel alignment symmMem input out

end Operators

section Accepted

variable {mira : Bool} {symmMem : Handle} {input out : Tensor} {reduceOp : String}
  {kernel : MultimemKernel}

theorem multimemAllReduce_accepted
    (accepted : multimemAllReduce (some symmMem) input reduceOp = .ok kernel) :
    ∃ alignment, Widest input alignment ∧
      kernel = multimemAllReduceKernel alignment symmMem input := by
  unfold multimemAllReduce at accepted
  simp only [bind, bind_ok, check_ok, pure, Except.pure, checkMulticast, dispatchFloatAndBfloat16,
    dispatchAlignments] at accepted
  obtain ⟨_, _, _, _, _, ⟨_, _, same⟩, alignment, verified, _, dispatched, _, _, launched⟩ := accepted
  cases same
  exact ⟨alignment, vectors_of_verified verified (element_of_dispatched dispatched),
    (Except.ok.inj launched).symm⟩

theorem multimemOneShotReduce_accepted {root : Int}
    (accepted : multimemOneShotReduceOut mira (some symmMem) input reduceOp root out = .ok kernel) :
    ∃ alignment, Widest input alignment ∧ 0 ≤ root ∧
      ((symmMem.rank : Int) = root → out.sizes = input.sizes) ∧
      kernel = multimemOneShotReduceKernel mira alignment symmMem input out root.toNat := by
  unfold multimemOneShotReduceOut at accepted
  simp only [bind, bind_ok, check_ok, pure, Except.pure, checkMulticast, dispatchFloatAndBfloat16,
    dispatchAlignments, dataPtr] at accepted
  obtain ⟨_, _, _, _, _, ⟨_, _, same⟩, _, range, rest⟩ := accepted
  cases same
  rw [Bool.and_eq_true, decide_eq_true_eq] at range
  split at rest
  · simp only [bind_ok, check_ok] at rest
    obtain ⟨_, _, _, sizes, alignment, verified, _, dispatched, _, _, _, _, launched⟩ := rest
    exact ⟨alignment, vectors_of_verified verified (element_of_dispatched dispatched), range.1,
      fun _ => eq_of_beq sizes, (Except.ok.inj launched).symm⟩
  · next other =>
      simp only [bind_ok, check_ok] at rest
      obtain ⟨alignment, verified, _, dispatched, _, _, _, _, launched⟩ := rest
      exact ⟨alignment, vectors_of_verified verified (element_of_dispatched dispatched), range.1,
        fun root => absurd root other, (Except.ok.inj launched).symm⟩

theorem multimemAllGather_accepted
    (accepted : multimemAllGatherOut (some symmMem) input out = .ok kernel) :
    ∃ alignment, getAndVerifyAlignment out "multimem_all_gather_out" = .ok alignment ∧
      out.numel = input.numel * symmMem.worldSize ∧
      kernel = multimemAllGatherKernel alignment symmMem input out := by
  unfold multimemAllGatherOut at accepted
  simp only [bind, bind_ok, check_ok, pure, Except.pure, checkMulticast, dispatchAlignments] at accepted
  obtain ⟨_, ⟨_, _, same⟩, _, _, _, _, _, _, rest⟩ := accepted
  cases same
  have numel (tensor : Tensor) {first : Nat} {others : List Nat}
      (sizes : tensor.sizes = first :: others) : tensor.numel = first * others.prod := by
    rw [Tensor.numel, sizes, List.prod_cons]
  split at rest
  · next first others outFirst outOthers sizes outSizes =>
      simp only [bind_ok, check_ok] at rest
      obtain ⟨_, firsts, _, same, alignment, verified, _, _, launched⟩ := rest
      refine ⟨alignment, verified, ?_, (Except.ok.inj launched).symm⟩
      rw [numel input sizes, numel out outSizes, eq_of_beq firsts, eq_of_beq same,
        Nat.mul_right_comm]
  · next none =>
      obtain ⟨_, throws, _⟩ := bind_ok.mp rest
      cases throws

end Accepted

end TorchSupa.SymmMem.Collective
