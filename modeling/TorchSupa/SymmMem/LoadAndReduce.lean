import TorchSupa.SymmMem.Contents
import TorchSupa.SymmMem.Operations
import Mathlib.Algebra.BigOperators.Intervals

/-!
What the kernels have in common: vectors that are aligned and within their tensors, and the sum
that `load_and_reduce` makes of the vectors of all ranks.
-/

namespace TorchSupa.SymmMem.Collective

open List Nat

section Sums

variable {α : Type} [AddCommMonoid α]

theorem foldl_range (values : Nat → α) (first : α) (count : Nat) :
    (List.range count).foldl (fun acc step => acc + values step) first =
      first + ∑ step ∈ Finset.range count, values step := by
  induction count with
  | zero => simp
  | succ count ih =>
    rw [range_succ, foldl_append, ih, Finset.sum_range_succ, ← add_assoc]
    rfl

theorem accumulate_eq {worldSize : Nat} (positive : 0 < worldSize) (vecs : Nat → α) :
    accumulate worldSize vecs = ∑ rank ∈ Finset.range worldSize, vecs rank := by
  unfold accumulate
  split
  · rw [foldl_range (fun step => vecs (step + 1)), add_comm,
      ← Finset.sum_range_succ' vecs (worldSize - 1), Nat.sub_add_cancel positive]
  · rw [foldl_range, zero_add]

end Sums

section Turns

variable {α : Type} {memory : Nat → Nat → α} {localInput : Nat → α} {worldSize rank index : Nat}

theorem rotation {peer : Nat} (small : peer < worldSize) :
    (rank + (peer + (worldSize - rank % worldSize)) % worldSize) % worldSize = peer := by
  have turn : rank % worldSize < worldSize := mod_lt _ (zero_lt_of_lt small)
  rw [add_mod_mod, Nat.add_comm, ← add_mod_mod, Nat.add_assoc, Nat.sub_add_cancel turn.le,
    add_mod_right, mod_eq_of_lt small]

theorem mem_loadOrder {peer : Nat} : peer ∈ loadOrder worldSize rank ↔ peer < worldSize := by
  unfold loadOrder
  split
  · constructor
    · intro member
      obtain ⟨step, small, rfl⟩ := mem_map.mp member
      exact mod_lt _ (zero_lt_of_lt (mem_range.mp small))
    · intro small
      exact mem_map.mpr ⟨(peer + (worldSize - rank % worldSize)) % worldSize,
        mem_range.mpr (mod_lt _ (zero_lt_of_lt small)), rotation small⟩
  · exact mem_range

def loads (order : List Nat) (source : Nat → Source) (place : Nat → Nat) : List Op :=
  order.map fun number => .load (source number) (place number) number

variable {order : List Nat} {source : Nat → Source} {place : Nat → Nat}

theorem foldl_loads (registers : Nat → Nat → α) (register : Nat) :
    (loads order source place).foldl (loadInto memory localInput) registers register =
      if register ∈ order then
        fun lane => (source register).contents memory localInput (place register + lane)
      else registers register := by
  induction order generalizing registers with
  | nil => rfl
  | cons number rest ih =>
    unfold loads at ih ⊢
    rw [map_cons, foldl_cons, ih]
    by_cases later : register ∈ rest
    · rw [if_pos later, if_pos (.tail _ later)]
    · rw [if_neg later]
      unfold loadInto
      dsimp only
      by_cases here : register = number
      · subst here
        rw [Function.update_self, if_pos mem_cons_self]
      · rw [Function.update_of_ne here, if_neg fun member => (mem_cons.mp member).elim here later]

def Op.stores : Op → Bool
  | .load .. => false
  | .store .. => true

theorem foldl_stores {ops : List Op} (stores : ∀ op ∈ ops, op.stores = true)
    (registers : Nat → Nat → α) : ops.foldl (loadInto memory localInput) registers = registers := by
  induction ops with
  | nil => rfl
  | cons op rest ih =>
    cases op with
    | load source index register => exact absurd (stores _ (.head _)) Bool.false_ne_true
    | store target index value =>
      exact ih fun other member => stores other (.tail _ member)

variable {rest : List Op} {step : Nat} {op : Op}

theorem turn_cases (found : (loads order source place ++ rest)[step]? = some op) :
    (∃ number ∈ order, op = .load (source number) (place number) number ∧ step < order.length) ∨
      order.length ≤ step ∧ op ∈ rest := by
  have length : (loads order source place).length = order.length := length_map _
  by_cases early : step < order.length
  · rw [getElem?_append_left (by rwa [length])] at found
    obtain ⟨number, member, rfl⟩ := mem_map.mp (mem_of_getElem? found)
    exact .inl ⟨number, member, rfl, early⟩
  · have late := Nat.le_of_not_lt early
    rw [getElem?_append_right (by rwa [length])] at found
    exact .inr ⟨late, mem_of_getElem? found⟩

theorem loaded_turn [AddCommMonoid α] (stores : ∀ op ∈ rest, op.stores = true)
    (beyond : order.length ≤ step) {register : Nat} (member : register ∈ order) :
    loaded memory localInput ((loads order source place ++ rest).take step) register =
      fun lane => (source register).contents memory localInput (place register + lane) := by
  have length : (loads order source place).length = order.length := length_map _
  unfold loaded
  rw [take_append, take_of_length_le (by rwa [length]), foldl_append,
    foldl_stores fun op taken => stores op (mem_of_mem_take taken), foldl_loads, if_pos member]

theorem reduced_turn [AddCommMonoid α] (positive : 0 < worldSize)
    (stores : ∀ op ∈ rest, op.stores = true) (beyond : (loadOrder worldSize rank).length ≤ step)
    (lane : Nat) :
    Value.reduced.of worldSize
        (loaded memory localInput ((loadAndReduce worldSize rank index ++ rest).take step)) lane =
      ∑ peer ∈ Finset.range worldSize, memory peer (index + lane) := by
  unfold Value.of
  rw [accumulate_eq positive]
  refine Finset.sum_congr rfl fun peer member => ?_
  have here : peer ∈ loadOrder worldSize rank := mem_loadOrder.mpr (Finset.mem_range.mp member)
  have same : loadAndReduce worldSize rank index =
      loads (loadOrder worldSize rank) Source.buffer fun _ => index := rfl
  rw [same, loaded_turn stores beyond here]
  rfl

theorem reduce_beyond (later : Nat) : (loadAndReduce worldSize rank index ++ rest)[(loadOrder worldSize
    rank).length + later]? = rest[later]? := by
  have length : (loadAndReduce worldSize rank index).length = (loadOrder worldSize rank).length :=
    length_map _
  rw [getElem?_append_right (by omega), length, Nat.add_sub_cancel_left]

theorem stores_beyond {stored : Nat → Op} {later number : Nat} (found : order[later]? = some number) :
    (loads order source place ++ order.map stored)[order.length + later]? = some (stored number) := by
  have length : (loads order source place).length = order.length := length_map _
  rw [getElem?_append_right (by omega), length, Nat.add_sub_cancel_left, getElem?_map, found]
  rfl

end Turns

section Alignment

structure Operands.Vectored (operands : Operands) : Prop where
  positive : 0 < operands.numelPerThread
  bytes : operands.numelPerThread * operands.elementSize = operands.alignment
  offset : operands.numelPerThread ∣ operands.inputOffset
  numel : operands.numelPerThread ∣ operands.numel
  stores : operands.storeAlignment ∣ operands.alignment

theorem Vectors.vectored {tensor : Tensor} {alignment : Nat} (vectors : Vectors tensor alignment)
    (mira : Bool) (localInput output : Option Tensor) :
    (operandsOf mira tensor alignment localInput output).Vectored := by
  have divides : tensor.elementSize ∣ alignment := by
    rcases vectors.element with size | size <;> rcases vectors.powers with rfl | rfl | rfl <;>
      rw [size] <;> decide
  have positive : 0 < tensor.elementSize := by
    rcases vectors.element with size | size <;> omega
  have bytes : alignment / tensor.elementSize * tensor.elementSize = alignment :=
    Nat.div_mul_cancel divides
  have reduce : ∀ value, alignment ∣ value * tensor.elementSize →
      alignment / tensor.elementSize ∣ value := by
    intro value multiple
    rw [← bytes] at multiple
    exact Nat.dvd_of_mul_dvd_mul_right positive multiple
  refine ⟨?_, bytes, reduce _ vectors.offset, reduce _ vectors.size, ?_⟩
  · have some : 0 < alignment := by
      rcases vectors.powers with rfl | rfl | rfl <;> decide
    exact Nat.div_pos (Nat.le_of_dvd some divides) positive
  · unfold Operands.storeAlignment operandsOf
    dsimp only
    split
    · exact Nat.dvd_refl _
    · rcases vectors.powers with rfl | rfl | rfl <;> decide

variable {operands : Operands}

theorem Operands.Vectored.vectorIn (vectored : operands.Vectored)
    {first numel base alignment index : Nat} (multiple : operands.numelPerThread ∣ index)
    (low : first ≤ index) (high : index + operands.numelPerThread ≤ first + numel)
    (aligned : base * operands.elementSize % alignment = 0) (coarse : alignment ∣ operands.alignment) :
    operands.vectorIn first numel base alignment index = true := by
  have address : (base + index) * operands.elementSize % alignment = 0 := by
    obtain ⟨place, rfl⟩ := multiple
    rw [add_mul, mul_right_comm, vectored.bytes]
    exact mod_eq_zero_of_dvd (Nat.dvd_add (dvd_of_mod_eq_zero aligned)
      (coarse.trans (dvd_mul_right _ _)))
  unfold Operands.vectorIn
  simp [low, high, address]

variable {group : Group} {program : Program} {site : Site}

theorem dvd_index : program.operands.numelPerThread ∣ site.index program group :=
  GridStride.width_dvd_index

theorem config_pos {numel elementSize alignment splits blocks threads worldSize warpSize : Nat}
    (ranks : 0 < worldSize) (few : worldSize ≤ threads) (warp : 0 < warpSize) (some : 0 < blocks)
    (positive : 0 < alignment / elementSize) :
    0 < (initElementwiseLaunchConfig numel elementSize alignment splits blocks threads worldSize
        warpSize).numThreads ∧
      0 < (initElementwiseLaunchConfig numel elementSize alignment splits blocks threads worldSize
        warpSize).numBlocks := by
  refine ⟨ranks.trans_le (enough_threads few warp), ?_⟩
  have many : 0 < threads * (alignment / elementSize) := mul_pos (ranks.trans_le few) positive
  unfold initElementwiseLaunchConfig
  dsimp only
  split
  · exact one_pos
  · refine lt_min ?_ some
    refine div_pos ?_ many
    omega

theorem launch_pos (small : group.worldSize ≤ maxSupaP2pDomainSize) (warp : 0 < group.warpSize)
    (ranks : 0 < group.worldSize) (positive : 0 < program.operands.numelPerThread) :
    0 < (program.launch group).numThreads ∧ 0 < (program.launch group).numBlocks := by
  refine config_pos ranks (small.trans ?_) warp ?_ positive
  · cases program.kernel <;> decide
  · cases program.kernel <;> decide

variable (program) in
theorem exists_site (small : group.worldSize ≤ maxSupaP2pDomainSize) (warp : 0 < group.warpSize)
    (positive : 0 < program.operands.numelPerThread) {rank round position : Nat}
    (member : rank < group.worldSize) (earlier : round < program.rounds)
    (multiple : program.operands.numelPerThread ∣ position) (before : position < program.bound round) :
    ∃ block thread turn, ∀ step,
      (⟨rank, block, thread, round, turn, step⟩ : Site).Valid program group ∧
        program.index group block thread turn = position := by
  obtain ⟨threads, blocks⟩ := launch_pos small warp (zero_lt_of_lt member) positive
  obtain ⟨block, thread, turn, few, numbered, same⟩ := GridStride.exists_index blocks threads multiple
  have here : program.index group block thread turn = position := same
  refine ⟨block, thread, turn, fun step => ⟨⟨member, few, numbered, earlier, ?_⟩, here⟩⟩
  exact here.trans_lt before

theorem Placed.done_of_ended {α : Type} [AddCommMonoid α] {world : World α}
    (placed : Placed group program world) (valid : site.Valid program group)
    (ends : world.ended site.rank = true) : world.Done site :=
  .inl (valid.round.trans_eq ((placed.finished site.rank ends).2 site.block valid.block).symm)

theorem vector_of_element {width numel element : Nat} (positive : 0 < width)
    (below : element < numel) : ∃ first lane, width ∣ first ∧ first < numel ∧ lane < width ∧
      first + lane = element := by
  refine ⟨width * (element / width), element % width, dvd_mul_right _ _, ?_,
    mod_lt _ positive, div_add_mod _ _⟩
  have divided := div_add_mod element width
  omega

end Alignment

end TorchSupa.SymmMem.Collective
