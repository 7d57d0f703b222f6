import TorchSupa.SymmMem.TwoShot

/-!
Reduce-scatter: each rank sums its slice of the flattened input, or its part of the last dimension.
-/

namespace TorchSupa.SymmMem.Collective

open Nat

def scatterPlace (numel : Nat) (lastDimSize : Option Nat) (worldSize rank element : Nat) : Nat :=
  match lastDimSize with
  | some size =>
    let columns := size / worldSize
    element / columns * size + (columns * rank + element % columns)
  | none => numel / worldSize * rank + element

section Places

variable {width columns rows element lane : Nat}

theorem vector_in_row (one : width ∣ element) (two : width ∣ columns) (some : 0 < columns)
    (small : lane < width) : (element + lane) / columns = element / columns ∧
      (element + lane) % columns = element % columns + lane ∧
      element % columns + width ≤ columns := by
  have place : width ∣ element % columns := (dvd_mod_iff two).mpr one
  have room := GridStride.end_le_of_lt place two (mod_lt element some)
  have inside : element % columns + lane < columns := by omega
  have split : element + lane = columns * (element / columns) + (element % columns + lane) := by
    rw [← add_assoc, div_add_mod]
  refine ⟨?_, ?_, room⟩
  · rw [split, mul_add_div some, div_eq_of_lt inside, add_zero]
  · conv => lhs; rw [split]
    rw [mul_add_mod, mod_eq_of_lt inside]

theorem roundUp_of_dvd {value divisor : Nat} (positive : 0 < divisor) (divides : divisor ∣ value) :
    roundUp value divisor = value := by
  obtain ⟨count, rfl⟩ := divides
  unfold roundUp ceilDiv
  have inside : divisor - 1 < divisor := by omega
  rw [Nat.add_sub_assoc positive, mul_add_div positive, div_eq_of_lt inside, Nat.add_zero,
    Nat.mul_comm]

structure ScatterOperands (operands : Operands) (lastDimSize : Option Nat) (worldSize : Nat) :
    Prop where
  outputs : OutputOperands operands (operands.numel / worldSize)
  ranks : 0 < worldSize
  divides : worldSize * operands.numelPerThread ∣ operands.numel
  last : ∀ size, lastDimSize = some size → worldSize * operands.numelPerThread ∣ size ∧
    ∃ rows, operands.numel = rows * size
  split : ∀ size, lastDimSize = some size → ∀ i, i < operands.numel / worldSize →
    splitIndex worldSize size i = i / (size / worldSize) * size + i % (size / worldSize)

variable {operands : Operands} {lastDimSize : Option Nat} {worldSize rank : Nat}

variable (facts : ScatterOperands operands lastDimSize worldSize)
include facts

theorem ScatterOperands.numelPerRank :
    roundUp operands.numel (operands.numelPerThread * worldSize) / worldSize =
      operands.numel / worldSize := by
  have positive : 0 < operands.numelPerThread * worldSize :=
    mul_pos facts.outputs.vectored.positive facts.ranks
  rw [roundUp_of_dvd positive (by rw [mul_comm]; exact facts.divides)]

theorem ScatterOperands.dvd_part : operands.numelPerThread ∣ operands.numel / worldSize := by
  obtain ⟨count, same⟩ := facts.divides
  rw [same, Nat.mul_assoc, Nat.mul_div_cancel_left _ facts.ranks]
  exact Nat.dvd_mul_right _ _

theorem ScatterOperands.place
    (member : rank < worldSize) (multiple : operands.numelPerThread ∣ element)
    (below : element < operands.numel / worldSize) :
    operands.numelPerThread ∣ scatterPlace operands.numel lastDimSize worldSize rank element ∧
    scatterPlace operands.numel lastDimSize worldSize rank element + operands.numelPerThread ≤
      operands.numel ∧
    ∀ lane, lane < operands.numelPerThread →
      scatterPlace operands.numel lastDimSize worldSize rank (element + lane) =
        scatterPlace operands.numel lastDimSize worldSize rank element + lane := by
  have ranks := facts.ranks
  cases layout : lastDimSize with
  | none =>
    unfold scatterPlace
    have part := facts.dvd_part
    have room := GridStride.end_le_of_lt multiple part below
    have whole : operands.numel / worldSize * (rank + 1) ≤ operands.numel :=
      (Nat.mul_le_mul_left _ member).trans (Nat.div_mul_le_self _ _)
    refine ⟨Nat.dvd_add (part.mul_right _) multiple, ?_, fun lane _ => (Nat.add_assoc _ _ _).symm⟩
    rw [Nat.mul_add, Nat.mul_one] at whole
    dsimp only
    omega
  | some size =>
    obtain ⟨⟨count, columns⟩, rows, numel⟩ := facts.last size layout
    unfold scatterPlace
    dsimp only
    have width : size / worldSize = operands.numelPerThread * count := by
      rw [columns, Nat.mul_assoc, Nat.mul_div_cancel_left _ ranks]
    have whole : size = size / worldSize * worldSize := by
      rw [width, columns]
      ring
    have part : operands.numel / worldSize = rows * (size / worldSize) := by
      rw [numel, Nat.mul_div_assoc _ ⟨_, (columns.trans (Nat.mul_assoc _ _ _))⟩]
    have two : operands.numelPerThread ∣ size / worldSize := ⟨count, width⟩
    rw [part] at below
    generalize size / worldSize = columns at *
    have some : 0 < columns := Nat.pos_of_ne_zero fun none => by
      rw [none, Nat.mul_zero] at below
      exact Nat.not_lt_zero _ below
    have row : element / columns + 1 ≤ rows := Nat.div_lt_of_lt_mul (by rwa [Nat.mul_comm])
    have inside := (vector_in_row multiple two some facts.outputs.vectored.positive).2.2
    refine ⟨?_, ?_, fun lane small => ?_⟩
    · refine Nat.dvd_add (Nat.dvd_mul_left_of_dvd ?_ _) (Nat.dvd_add (two.mul_right _) ?_)
      · rw [whole]
        exact two.mul_right _
      · exact (Nat.dvd_mod_iff two).mpr multiple
    · have first := Nat.mul_le_mul_right size row
      have second : columns * (rank + 1) ≤ size := by
        rw [whole]
        exact Nat.mul_le_mul_left _ member
      rw [numel]
      rw [Nat.mul_add, Nat.mul_one] at second
      rw [Nat.add_mul, Nat.one_mul] at first
      omega
    · obtain ⟨quotient, remainder, _⟩ := vector_in_row multiple two some small
      rw [quotient, remainder]
      omega

end Places

section Scatter

variable {α : Type} [AddCommMonoid α] {operands : Operands} {lastDimSize : Option Nat}
  {group : Group}
  {site : Site} {op : Op} {world : World α}

inductive ScatterOp (operands : Operands) (lastDimSize : Option Nat) (worldSize : Nat) (site : Site)
    (index : Nat) : Op → Prop
  | load (peer : Nat) : peer < worldSize → ScatterOp operands lastDimSize worldSize site index
      (.load (.buffer peer) (operands.inputOffset +
        scatterPlace operands.numel lastDimSize worldSize site.rank index) peer)
  | store : (loadOrder worldSize site.rank).length ≤ site.step →
      ScatterOp operands lastDimSize worldSize site index (.store .output index .reduced)

theorem scatter_body (facts : ScatterOperands operands lastDimSize group.worldSize)
    {round rank index : Nat} (below : index < operands.numel / group.worldSize) :
    (reduceScatterKernel operands lastDimSize group.worldSize).body round rank index =
      loadAndReduce group.worldSize rank (operands.inputOffset +
        scatterPlace operands.numel lastDimSize group.worldSize rank index) ++
          [.store .output index .reduced] := by
  unfold reduceScatterKernel scatterPlace
  cases layout : lastDimSize with
  | none => rw [facts.numelPerRank]
  | some size =>
    dsimp only
    rw [facts.split size layout index below, add_left_comm (size / group.worldSize * rank)]

theorem scatter_does (facts : ScatterOperands operands lastDimSize group.worldSize)
    (does : site.Does (reduceScatterKernel operands lastDimSize group.worldSize) group op) :
    let index := site.index (reduceScatterKernel operands lastDimSize group.worldSize) group
    site.round = 1 ∧ index < operands.numel / group.worldSize ∧
      ScatterOp operands lastDimSize group.worldSize site index op := by
  intro index
  obtain ⟨valid, found⟩ := does
  have bound := valid.bound
  have second : site.round = 1 := by
    rcases Nat.lt_succ_iff_lt_or_eq.mp valid.round with first | second
    · rw [Nat.lt_one_iff.mp first] at bound
      exact absurd bound (Nat.not_lt_zero _)
    · exact second
  rw [second] at bound
  have below := bound.trans_eq facts.numelPerRank
  refine ⟨second, below, ?_⟩
  rw [scatter_body facts below] at found
  rcases turn_cases found with ⟨peer, member, rfl, _⟩ | ⟨late, member⟩
  · exact .load peer (mem_loadOrder.mp member)
  · obtain rfl := List.mem_singleton.mp member
    exact .store late

def scatterFinal (operands : Operands) (lastDimSize : Option Nat) (worldSize : Nat)
    (before : Nat → Nat → α) : Cell → α
  | .buffer _ _ => 0
  | .output rank element => bufferSum worldSize before (operands.inputOffset +
      scatterPlace operands.numel lastDimSize worldSize rank element)

theorem scatter_sound (facts : ScatterOperands operands lastDimSize group.worldSize)
    (before locals : Nat → Nat → α) :
    Sound group (reduceScatterKernel operands lastDimSize group.worldSize) before locals
      (fun _ => before) (scatterFinal operands lastDimSize group.worldSize before) where
  fits := by
    intro site op does
    have vectored := facts.outputs.vectored
    have multiple : operands.numelPerThread ∣
        site.index (reduceScatterKernel operands lastDimSize group.worldSize) group := dvd_index
    obtain ⟨_, below, kind⟩ := scatter_does facts does
    obtain ⟨place, room, _⟩ := facts.place does.1.rank multiple below
    cases kind with
    | load peer _ =>
      exact vectored.vectorIn (Nat.dvd_add vectored.offset place) (Nat.le_add_right _ _)
        (by rw [Nat.add_assoc]; exact Nat.add_le_add_left room _) (by simp) (Nat.dvd_refl _)
    | store _ =>
      have inside := GridStride.end_le_of_lt multiple facts.dvd_part below
      exact vectored.vectorIn multiple (zero_le _)
        (inside.trans_eq (facts.outputs.output.symm.trans (zero_add _).symm))
        facts.outputs.aligned vectored.stores
  peers := by
    intro site op peer does touched
    obtain ⟨second, _, kind⟩ := scatter_does facts does
    cases kind with
    | load other small =>
      cases touched
      exact ⟨small, fun first => absurd (second.symm.trans first) (by decide)⟩
    | store _ => cases touched
  values := by
    intro site target index value lane does small
    have multiple : operands.numelPerThread ∣
        site.index (reduceScatterKernel operands lastDimSize group.worldSize) group := dvd_index
    obtain ⟨_, below, kind⟩ := scatter_does facts does
    unfold Site.registers
    rw [scatter_body facts below]
    cases kind with
    | store late =>
      refine (reduced_turn facts.ranks (by simp [Op.stores]) late lane).trans ?_
      change bufferSum group.worldSize before _ = bufferSum group.worldSize before _
      rw [(facts.place does.1.rank multiple below).2.2 lane small, add_assoc]
  loads := by
    intro site peer index register lane does small
    refine .inr ⟨rfl, fun later writes => ?_⟩
    obtain ⟨target, place, value, _, also, _, same⟩ := writes
    cases (scatter_does facts also).2.2 with
    | store _ => cases same

theorem scatter_outputs
    (fitting : Fitting group (reduceScatterKernel operands lastDimSize group.worldSize))
    (facts : ScatterOperands operands lastDimSize group.worldSize)
    (reached : (operation group (reduceScatterKernel operands lastDimSize group.worldSize)).Reachable
      (fun _ _ => True) world) :
    world.fault = false ∧ ∀ rank element, rank < group.worldSize → world.ended rank = true →
      element < operands.numel / group.worldSize → world.outputs rank element =
        bufferSum group.worldSize world.before (operands.inputOffset +
          scatterPlace operands.numel lastDimSize group.worldSize rank element) := by
  obtain ⟨placed, valued⟩ := contents_reachable fitting (scatter_sound facts) reached
  have here := valued world.before world.beforeLocal fun _ _ => ⟨rfl, rfl⟩
  refine ⟨here.noFault, fun rank element member ends below => ?_⟩
  have vectored := facts.outputs.vectored
  obtain ⟨first, lane, multiple, before, few, rfl⟩ := vector_of_element vectored.positive below
  obtain ⟨block, thread, turn, valid⟩ := exists_site
    (reduceScatterKernel operands lastDimSize group.worldSize) fitting.small fitting.warp
    vectored.positive member one_lt_two multiple (before.trans_eq facts.numelPerRank.symm)
  obtain ⟨valid, same⟩ := valid (loadOrder group.worldSize rank).length
  have does : Site.Does ⟨rank, block, thread, 1, turn, (loadOrder group.worldSize rank).length⟩
      (reduceScatterKernel operands lastDimSize group.worldSize) group
      (.store .output first .reduced) := by
    refine ⟨valid, ?_⟩
    unfold Site.index
    rw [same, scatter_body facts before]
    exact reduce_beyond 0
  exact here.outputs rank (first + lane) _ ⟨_, _, _, lane, does, few, rfl⟩
    (placed.done_of_ended valid ends)

end Scatter

section Calls

inductive Call
  | allReduceInplace (input : Tensor) (reduceOp : String)
  | allReduceOut (input : Tensor) (reduceOp : String) (output : Tensor)
  | reduceScatterOut (input : Tensor) (splitLastDim : Bool) (output : Tensor)
deriving DecidableEq, Repr

def Call.launch (mira : Bool) (worldSize : Nat) : Call → Except String (Option Program)
  | .allReduceInplace input reduceOp =>
    twoShotAllReduceImpl mira (some worldSize) input none reduceOp
  | .allReduceOut input reduceOp output =>
    twoShotAllReduceImpl mira (some worldSize) input (some output) reduceOp
  | .reduceScatterOut input splitLastDim output =>
    Collective.reduceScatterOut mira (some worldSize) input splitLastDim output

/-- The size of a rank's part of the last dimension goes through `int32_t` unharmed, or there is one
row and the divisor becomes greater than every index. -/
def FitsInt32 (input : Tensor) (worldSize : Nat) : Prop :=
  let columns := input.lastDim / worldSize
  columns < 2 ^ 31 ∨
    input.numel = input.lastDim ∧ 2 ^ 31 ≤ columns % 2 ^ 32 ∧ columns < 2 ^ 63

def Call.Meets (program : Program) (worldSize : Nat) : Call → Prop
  | .reduceScatterOut input splitLastDim output =>
    output.storageOffset * input.elementSize % program.operands.storeAlignment = 0 ∧
      (splitLastDim = true → FitsInt32 input worldSize)
  | _ => True

variable {α : Type} [AddCommMonoid α]

def Program.ReducesOnce (program : Program) (group : Group) (numel : Nat) : Prop :=
  ∀ element, element < numel → ∃ rank,
    (rank < group.worldSize ∧ program.Reduces group rank element) ∧
      ∀ other, program.Reduces group other element → other = rank

def Call.Right (group : Group) (program : Program) (world : World α) : Call → Prop
  | .allReduceInplace input _ =>
    world.fault = false ∧ program.ReducesOnce group input.numel ∧
    ∀ rank element, rank < group.worldSize → world.ended rank = true → element < input.numel →
      world.left rank (input.storageOffset + element) =
        bufferSum group.worldSize world.before (input.storageOffset + element)
  | .allReduceOut input _ _ =>
    AllReduced group input.numel
        (fun rank element => world.before rank (input.storageOffset + element)) world ∧
      program.ReducesOnce group input.numel ∧
      world.FindsReduced group program world.before
  | .reduceScatterOut input splitLastDim _ =>
    world.fault = false ∧ ∀ rank element, rank < group.worldSize → world.ended rank = true →
      element < input.numel / group.worldSize → world.outputs rank element =
        bufferSum group.worldSize world.before (input.storageOffset +
          scatterPlace input.numel (if splitLastDim then some input.lastDim else none)
            group.worldSize rank element)

theorem splitIndex_eq {input : Tensor} {worldSize i : Nat} (fits : FitsInt32 input worldSize)
    (below : i < input.numel / worldSize) :
    splitIndex worldSize input.lastDim i =
      i / (input.lastDim / worldSize) * input.lastDim + i % (input.lastDim / worldSize) := by
  unfold splitIndex
  unfold FitsInt32 at fits
  dsimp only at fits ⊢
  rcases fits with small | ⟨row, high, less⟩
  · have same : throughInt32 (input.lastDim / worldSize) = input.lastDim / worldSize := by
      unfold throughInt32
      have low : input.lastDim / worldSize % 2 ^ 32 = input.lastDim / worldSize :=
        mod_eq_of_lt (by omega)
      dsimp only
      rw [low, if_pos small]
    rw [same]
  · rw [row] at below
    have beyond : i < throughInt32 (input.lastDim / worldSize) := by
      unfold throughInt32
      dsimp only
      rw [if_neg (Nat.not_lt_of_le high)]
      omega
    rw [div_eq_of_lt beyond, mod_eq_of_lt beyond, div_eq_of_lt below, mod_eq_of_lt below]

end Calls

section Runs

def eightFloats : Tensor := { sizes := [8] }

def eightOperands (outOffset outNumel : Nat) : Operands where
  elementSize := 4
  alignment := 16
  mira := false
  inputOffset := 0
  numel := 8
  outOffset := outOffset
  outNumel := outNumel

end Runs

end TorchSupa.SymmMem.Collective
