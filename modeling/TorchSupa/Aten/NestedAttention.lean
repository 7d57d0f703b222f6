import TorchSupa.Aten.SudnnMha
import TorchSupa.Logic.MachineIntegers

/-!
Attention over nested tensors: the sequences of a batch are packed into tensors of tokens, heads and
channels, and the graph finds the tokens of a sequence by ragged offsets.
-/

namespace TorchSupa.Aten.SudnnMha

open MachineIntegers (int32)

structure Nested (ρ : Type) where
  device : Int
  b : Nat
  hQ : Nat
  hK : Nat
  hV : Nat
  sQ : Nat
  sKv : Nat
  dQk : Nat
  dV : Nat
  returnSoftmaxstats : Bool
  isCausal : Bool
  dropoutProbability : ρ
  cumSeqlenQ : List Nat
  cumSeqlenKv : List Nat
  q : Tensor
  k : Tensor
  v : Tensor
  attnBias : Option Layout
  o : Option Layout

structure NestedGraph (ρ : Type) extends Graph ρ where
  paddingMask : Bool
  seqLenQ : TensorAttributes
  seqLenKv : TensorAttributes
  ragQOff : TensorAttributes
  ragKOff : TensorAttributes
  ragVOff : TensorAttributes
  ragOOff : TensorAttributes
deriving DecidableEq, Repr

variable {ρ : Type}

def perSequence (name : String) (entries : Nat) : TensorAttributes where
  name := some name
  dim := [entries, 1, 1, 1]
  stride := [1, 1, 1, 1]
  dataType := some .int32

/-- `INT_MAX` stands for the stride of the batch, that the ragged offsets take the place of. -/
def packed (dim strides : List Nat) : TensorAttributes where
  dim
  stride := [2147483647, strides.getD 1 0, strides.getD 0 0, strides.getD 2 0]

def buildGraphAndTensorsNestedtensor (library : Library ρ) (call : Nested ρ) (o : Layout) :
    Except String (NestedGraph ρ) :=
  let seed := philoxInput "Seed" .kInt
  let offset := philoxInput "Offset" .kInt
  if call.attnBias.isSome then
    .error "attn_bias not yet supportd with suDNN Attention and NestedTensor"
  else if call.returnSoftmaxstats then
    .error "suDNN SDPA Nested Tensor does not yet handle backwards/logsumexp computation"
  else
    .ok {
      handle := call.device
      ioDataType := ioType call.q
      intermediateDataType := .float
      computeDataType := .float
      name := "SUDNN_SDPA_NESTEDTENSOR"
      generateStats := call.returnSoftmaxstats
      causalMask := call.isCausal
      dropout := some (library.toFloat call.dropoutProbability, seed, offset)
      attnScale
      q := { packed [call.b, call.hQ, call.sQ, call.dQk] call.q.strides with name := some "Q" }
      k := { packed [call.b, call.hK, call.sKv, call.dQk] call.k.strides with name := some "K" }
      v := { packed [call.b, call.hV, call.sKv, call.dV] call.v.strides with name := some "V" }
      bias := none
      seed
      offset
      o := { packed [call.b, call.hQ, call.sQ, call.dV] o.strides with output := true }
      stats := none
      paddingMask := true
      seqLenQ := perSequence "Seq_q" call.b
      seqLenKv := perSequence "Seq_kv" call.b
      ragQOff := perSequence "cum_seq_q" (call.b + 1)
      ragKOff := perSequence "cum_seq_k" (call.b + 1)
      ragVOff := perSequence "cum_seq_v" (call.b + 1)
      ragOOff := perSequence "cum_seq_o" (call.b + 1) }

/-- What the plan is executed on: the graph, the output and the data of the `INT32` tensors. -/
structure Execution (ρ : Type) where
  graph : NestedGraph ρ
  o : Layout
  ragQOff : List Int
  ragOOff : List Int
  ragKOff : List Int
  ragVOff : List Int
  seqlenQ : List Int
  seqlenKv : List Int

def mulInt32 (values : List Nat) (factor : Nat) : List Int :=
  values.map fun (value : Nat) => int32 (value * factor)

def diff (values : List Nat) : List Int :=
  List.zipWith (fun (next value : Nat) => int32 (next - value)) values.tail values

def runSudnnSDPFpropNestedtensor (library : Library ρ) (call : Nested ρ) :
    Except String (Option (Execution ρ)) :=
  if call.q.numel = 0 ∨ call.k.numel = 0 ∨ call.v.numel = 0 then .ok none
  else do
    let sizes := [call.q.size 0, call.hQ, call.dV]
    let o := call.o.getD ⟨sizes, contiguousStrides (sizes.map (max 1))⟩
    let graph ← buildGraphAndTensorsNestedtensor library call o
    let ragQOff := mulInt32 call.cumSeqlenQ (call.hQ * call.dQk)
    .ok (some {
      graph
      o
      ragQOff
      ragOOff := ragQOff
      ragKOff := mulInt32 call.cumSeqlenKv (call.hK * call.dQk)
      ragVOff := mulInt32 call.cumSeqlenKv (call.hV * call.dV)
      seqlenQ := diff call.cumSeqlenQ
      seqlenKv := diff call.cumSeqlenKv })

section Addresses

def graphAddress (operand : TensorAttributes) (ragged : List Int)
    (sequence token head channel : Nat) : Int :=
  ragged.getD sequence 0 + head * operand.stride.getD 1 0 + token * operand.stride.getD 2 0 +
    channel * operand.stride.getD 3 0

def cumulative : Nat → List Nat → List Nat
  | start, [] => [start]
  | start, length :: lengths => start :: cumulative (start + length) lengths

def Addressed (operand : TensorAttributes) (ragged : List Int) (lengths : List Nat)
    (tensor : Layout) : Prop :=
  ∀ sequence token head channel, token < lengths.getD sequence 0 →
    head < operand.dim.getD 1 0 → channel < operand.dim.getD 3 0 →
    let index := [(lengths.take sequence).sum + token, head, channel]
    index ∈ indices tensor.sizes ∧
      graphAddress operand ragged sequence token head channel = offset index tensor.strides

def Started (lengths : List Nat) (scale stride : Nat) : Prop :=
  ∀ sequence, 0 < lengths.getD sequence 0 →
    int32 ((lengths.take sequence).sum * scale : Nat) = ((lengths.take sequence).sum * stride : Nat)

open List

theorem cumulative_get (start sequence : Nat) (lengths : List Nat)
    (within : sequence < lengths.length) :
    (cumulative start lengths)[sequence]? = some (start + (lengths.take sequence).sum) := by
  induction lengths generalizing start sequence with
  | nil => simp at within
  | cons length lengths ih =>
    cases sequence with
    | zero => simp [cumulative]
    | succ sequence =>
      have rest := ih (start + length) sequence (by simpa using within)
      simp only [cumulative, getElem?_cons_succ, take_succ_cons, sum_cons, rest, Nat.add_assoc]

theorem getD_pos_lt {lengths : List Nat} {sequence : Nat} (some : 0 < lengths.getD sequence 0) :
    sequence < lengths.length := by
  by_contra beyond
  rw [getD_eq_getElem?_getD, getElem?_eq_none (by omega)] at some
  exact absurd some (by decide)

theorem take_sum_add_le (lengths : List Nat) (sequence : Nat) :
    (lengths.take sequence).sum + lengths.getD sequence 0 ≤ lengths.sum := by
  induction lengths generalizing sequence with
  | nil => simp
  | cons length lengths ih =>
    cases sequence with
    | zero => simp
    | succ sequence =>
      have rest := ih sequence
      simp only [take_succ_cons, sum_cons, getD_cons_succ]
      omega

def TensorAttributes.Strided (operand : TensorAttributes) (strides : List Nat) : Prop :=
  operand.stride.getD 1 0 = strides.getD 1 0 ∧ operand.stride.getD 2 0 = strides.getD 0 0 ∧
    operand.stride.getD 3 0 = strides.getD 2 0

theorem addressed_iff {lengths strides : List Nat} {heads channels scale : Nat}
    {operand : TensorAttributes} (ranked : strides.length = 3) (some : 0 < heads ∧ 0 < channels)
    (dim : operand.dim.getD 1 0 = heads ∧ operand.dim.getD 3 0 = channels)
    (strided : operand.Strided strides) :
    Addressed operand (mulInt32 (cumulative 0 lengths) scale) lengths
        ⟨[lengths.sum, heads, channels], strides⟩ ↔
      Started lengths scale (strides.getD 0 0) := by
  obtain ⟨tokenStride, headStride, channelStride, rfl⟩ := length_eq_three.mp ranked
  obtain ⟨byHead, byToken, byChannel⟩ := strided
  have start : ∀ sequence, 0 < lengths.getD sequence 0 →
      (mulInt32 (cumulative 0 lengths) scale).getD sequence 0 =
        int32 ((lengths.take sequence).sum * scale : Nat) := by
    intro sequence tokens
    have found := cumulative_get 0 sequence lengths (getD_pos_lt tokens)
    rw [mulInt32, getD_eq_getElem?_getD, getElem?_map, found, Option.map_some,
      Option.getD_some, Nat.zero_add, Nat.cast_mul]
  simp only [Addressed, Started, graphAddress, byHead, byToken, byChannel, dim,
    getD_cons_zero, getD_cons_succ, offset]
  constructor
  · intro addressed sequence tokens
    have first := (addressed sequence 0 0 0 tokens some.1 some.2).2
    rw [start sequence tokens] at first
    simpa using first
  · intro started sequence token head channel below inHeads inChannels
    have tokens : 0 < lengths.getD sequence 0 := by omega
    have total := take_sum_add_le lengths sequence
    refine ⟨mem_indices.mpr (.cons (by omega) (.cons inHeads (.cons inChannels .nil))), ?_⟩
    rw [start sequence tokens, started sequence tokens]
    push_cast
    ring

structure Nested.Packed (call : Nested ρ) (lengthsQ lengthsKv : List Nat) : Prop where
  cumSeqlenQ : call.cumSeqlenQ = cumulative 0 lengthsQ
  cumSeqlenKv : call.cumSeqlenKv = cumulative 0 lengthsKv
  q : call.q.sizes = [lengthsQ.sum, call.hQ, call.dQk]
  k : call.k.sizes = [lengthsKv.sum, call.hK, call.dQk]
  v : call.v.sizes = [lengthsKv.sum, call.hV, call.dV]
  o : ∀ o ∈ call.o, o.sizes = [lengthsQ.sum, call.hQ, call.dV] ∧ o.strides.length = 3

/-- The operands and the output are addressed right exactly when each sequence starts right in each
of them. The output has its own token stride and the offsets of the queries. -/
theorem nested_addresses_iff (library : Library ρ) (call : Nested ρ) (lengthsQ lengthsKv : List Nat)
    (execution : Execution ρ) (packed : call.Packed lengthsQ lengthsKv)
    (run : runSudnnSDPFpropNestedtensor library call = .ok (some execution)) :
    (Addressed execution.graph.q execution.ragQOff lengthsQ (layout call.q) ∧
      Addressed execution.graph.k execution.ragKOff lengthsKv (layout call.k) ∧
      Addressed execution.graph.v execution.ragVOff lengthsKv (layout call.v) ∧
      Addressed execution.graph.o execution.ragOOff lengthsQ execution.o) ↔
    Started lengthsQ (call.hQ * call.dQk) (call.q.stride 0) ∧
      Started lengthsKv (call.hK * call.dQk) (call.k.stride 0) ∧
      Started lengthsKv (call.hV * call.dV) (call.v.stride 0) ∧
      Started lengthsQ (call.hQ * call.dQk) (execution.o.strides.getD 0 0) := by
  unfold runSudnnSDPFpropNestedtensor buildGraphAndTensorsNestedtensor at run
  split at run
  · simp at run
  next elements =>
    simp only [not_or] at elements
    obtain ⟨q, k, v⟩ := elements
    simp only [Tensor.numel, packed.q, packed.k, packed.v, List.prod_cons, List.prod_nil] at q k v
    split at run
    · simp [bind, Except.bind] at run
    split at run
    · simp [bind, Except.bind] at run
    simp only [bind, Except.bind, Except.ok.injEq, Option.some.injEq] at run
    subst run
    have ranked : ∀ tensor : Tensor, ∀ a b c, tensor.sizes = [a, b, c] →
        tensor.strides.length = 3 := by
      intro tensor a b c sizes
      rw [tensor.ranked, sizes]
      rfl
    refine and_congr ?_ (and_congr ?_ (and_congr ?_ ?_))
    · rw [layout, packed.q, packed.cumSeqlenQ]
      exact addressed_iff (ranked _ _ _ _ packed.q) (by grind) ⟨rfl, rfl⟩ ⟨rfl, rfl, rfl⟩
    · rw [layout, packed.k, packed.cumSeqlenKv]
      exact addressed_iff (ranked _ _ _ _ packed.k) (by grind) ⟨rfl, rfl⟩ ⟨rfl, rfl, rfl⟩
    · rw [layout, packed.v, packed.cumSeqlenKv]
      exact addressed_iff (ranked _ _ _ _ packed.v) (by grind) ⟨rfl, rfl⟩ ⟨rfl, rfl, rfl⟩
    · rw [packed.cumSeqlenQ]
      cases given : call.o with
      | none =>
        have output : (⟨[call.q.size 0, call.hQ, call.dV],
            contiguousStrides ([call.q.size 0, call.hQ, call.dV].map (max 1))⟩ : Layout) =
            ⟨[lengthsQ.sum, call.hQ, call.dV],
              contiguousStrides ([lengthsQ.sum, call.hQ, call.dV].map (max 1))⟩ := by
          rw [Tensor.size, packed.q, List.getD_cons_zero]
        simp only [Option.getD_none, output]
        exact addressed_iff rfl (by grind) ⟨rfl, rfl⟩ ⟨rfl, rfl, rfl⟩
      | some o =>
        obtain ⟨sizes, three⟩ := packed.o o given
        obtain ⟨_, strides⟩ := o
        cases sizes
        exact addressed_iff three (by grind) ⟨rfl, rfl⟩ ⟨rfl, rfl, rfl⟩

end Addresses

def packedRows (tokens channels : Nat) : Tensor where
  dtype := .kHalf
  sizes := [tokens, 1, channels]
  strides := [channels, channels, 1]
  dataPtr := 0
  ranked := rfl

def twoTokens (dV : Nat) : Nested Unit where
  device := 0
  b := 2
  hQ := 1
  hK := 1
  hV := 1
  sQ := 1
  sKv := 1
  dQk := 2
  dV
  returnSoftmaxstats := false
  isCausal := false
  dropoutProbability := ()
  cumSeqlenQ := [0, 1, 2]
  cumSeqlenKv := [0, 1, 2]
  q := packedRows 2 2
  k := packedRows 2 2
  v := packedRows 2 dV
  attnBias := none
  o := none

def unitLibrary : Library Unit where
  toFloat := id
  isZero _ := true
  emptyLike operand := operand.strides
  seedsInLong _ := true

theorem twoTokens_packed (dV : Nat) : (twoTokens dV).Packed [1, 1] [1, 1] :=
  ⟨rfl, rfl, rfl, rfl, rfl, by rintro o ⟨⟩⟩

theorem twoTokens_started : Started [1, 1] 2 2 := by
  intro sequence some_
  rcases sequence with _ | _ | _
  · decide
  · decide
  · exact absurd some_ (by simp)

theorem nested_addresses_iff_twoTokens : ∃ execution,
    runSudnnSDPFpropNestedtensor unitLibrary (twoTokens 2) = .ok (some execution) ∧
    Addressed execution.graph.q execution.ragQOff [1, 1] (layout (twoTokens 2).q) ∧
      Addressed execution.graph.k execution.ragKOff [1, 1] (layout (twoTokens 2).k) ∧
      Addressed execution.graph.v execution.ragVOff [1, 1] (layout (twoTokens 2).v) ∧
      Addressed execution.graph.o execution.ragOOff [1, 1] execution.o :=
  ⟨_, rfl, (nested_addresses_iff unitLibrary (twoTokens 2) [1, 1] [1, 1] _ (twoTokens_packed 2)
    rfl).mpr ⟨twoTokens_started, twoTokens_started, twoTokens_started, twoTokens_started⟩⟩

/-- With values of one channel the second token of the output is not where its offset says. -/
theorem twoTokens_output_misplaced : ∃ execution,
    runSudnnSDPFpropNestedtensor unitLibrary (twoTokens 1) = .ok (some execution) ∧
    ¬ (Addressed execution.graph.q execution.ragQOff [1, 1] (layout (twoTokens 1).q) ∧
      Addressed execution.graph.k execution.ragKOff [1, 1] (layout (twoTokens 1).k) ∧
      Addressed execution.graph.v execution.ragVOff [1, 1] (layout (twoTokens 1).v) ∧
      Addressed execution.graph.o execution.ragOOff [1, 1] execution.o) := by
  refine ⟨_, rfl, ?_⟩
  rintro ⟨-, -, -, output⟩
  exact absurd (output 1 0 0 0 (by decide) (by decide) (by decide)).2 (by decide)

end TorchSupa.Aten.SudnnMha
