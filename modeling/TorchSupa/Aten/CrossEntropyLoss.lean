import TorchSupa.Logic.Reduction
import Mathlib.Algebra.Order.Field.Basic

/-!
The fast path of the cross entropy of rows of scores with class indices as targets: the kernels,
thread by thread, and the choice between them. Arithmetic is that of an ordered field with an
exponential and a logarithm.
-/

namespace TorchSupa.Aten.CrossEntropy

open Reduction

inductive Fault
  | assertion
  | outOfBounds
  | invalidConfiguration
  | rowsUnsupported
deriving DecidableEq, Repr

inductive Reduce
  | none
  | mean
  | sum
deriving DecidableEq, Repr

structure Problem (α : Type) where
  input : Nat → α
  target : Nat → Int
  rows : Nat
  classes : Nat
  reduction : Reduce
  ignoreIndex : Int

structure Functions (α : Type) where
  expf : α → α
  logf : α → α

structure Runtime where
  acceptsEmptyGrid : Bool
  schedule : Nat → List Nat
  schedulePerm : ∀ blocks, (schedule blocks).Perm (List.range blocks)

inductive Output (α : Type)
  | rows (values : List (Option α))
  | scalar (value : Option α)
deriving DecidableEq, Repr

variable {α β : Type}

def toInt32 (value : Int) : Int := (value + 2 ^ 31) % 2 ^ 32 - 2 ^ 31

section Loads

variable (problem : Problem α)

def Problem.read (index : Int) : Except Fault α :=
  if 0 ≤ index ∧ index < problem.rows * problem.classes then .ok (problem.input index.toNat)
  else .error .outOfBounds

def Problem.targetAt (row : Nat) : Except Fault Int :=
  if row < problem.rows then .ok (problem.target row) else .error .outOfBounds

def Problem.load (base : Int) (threads : Nat) (columns : Nat → List Nat) :
    Except Fault (List (List α)) :=
  (List.range threads).mapM fun thread => (columns thread).mapM fun (col : Nat) => problem.read (base + col)

end Loads

section Rows

variable [Field α] [LinearOrder α] [LinearOrder β] (functions : Functions α) (problem : Problem α)

def larger (value rhs : β) : β := if rhs < value then value else rhs

def localMax (values : List α) : WithBot α :=
  values.foldl (fun best value => larger (value : WithBot α) best) ⊥

def finite (value : WithBot α) : α := value.unbotD 0

def localSum (rowMax : α) (values : List α) : α :=
  values.foldl (fun sum value => sum + functions.expf (value - rowMax)) 0

/-- A row of `cross_entropy_index_kernel`, and of its variants for other numbers of threads: no
loss if the target is to be ignored. The second loop reads what the first one did. -/
def indexRow (logThreads : Nat) (row : Nat) : Except Fault (Option α) := do
  let curTarget ← problem.targetAt row
  if curTarget = problem.ignoreIndex then pure none
  else if 0 ≤ curTarget ∧ curTarget < problem.classes then do
    let base : Int := row * problem.classes
    let threads := 2 ^ logThreads
    let owned ← problem.load base threads fun thread => strided thread threads problem.classes
    let rowMax := finite (tree larger (halvings logThreads)
      (fun thread => localMax (owned.getD thread [])) 0)
    let rowSum := tree (· + ·) (halvings logThreads)
      (fun thread => localSum functions rowMax (owned.getD thread [])) 0
    let targetValue ← problem.read (base + curTarget)
    pure (some (functions.logf rowSum + rowMax - targetValue))
  else throw .assertion

/-- `cross_entropy_index_small32_none_warp_kernel`: lanes beyond the classes hold minus infinity. -/
def small32Row (row : Nat) : Except Fault (Option α) := do
  let curTarget ← problem.targetAt row
  if curTarget = problem.ignoreIndex then pure none
  else if 0 ≤ curTarget ∧ curTarget < problem.classes then do
    let base : Int := row * problem.classes
    let owned ← problem.load base 32 fun lane => if lane < problem.classes then [lane] else []
    let rowMax lane := finite (butterfly larger (halvings 5)
      (fun lane => localMax (owned.getD lane [])) lane)
    let expValue := butterfly (· + ·) (halvings 5) fun lane =>
      localSum functions (rowMax lane) (owned.getD lane [])
    let targetValue ← problem.read (base + curTarget)
    pure (some (functions.logf (expValue 0) + rowMax 0 - targetValue))
  else throw .assertion

def register (loaded : List (List α)) (lane index : Nat) : α := (loaded.getD lane []).getD index 0

def index32Row (row : Nat) : Except Fault (Option α) := do
  let curTarget ← problem.targetAt row
  if curTarget = problem.ignoreIndex then pure none
  else if 0 ≤ curTarget ∧ curTarget < 32 then do
    let base : Int := row * 32
    let loaded ← problem.load base 32 fun lane => [lane]
    let laneValue lane := register loaded lane 0
    let rowMax := butterfly larger (halvings 5) laneValue
    let expValue := butterfly (· + ·) (halvings 5) fun lane =>
      functions.expf (laneValue lane - rowMax lane)
    let targetValue := laneValue (curTarget.toNat % 32)
    pure (some (functions.logf (expValue 0) + rowMax 0 - targetValue))
  else throw .assertion

/-- `cross_entropy_index_32_noignore_halfwarp_kernel`: each lane owns two classes. -/
def noignoreHalfwarpRow (row : Nat) : Except Fault (Option α) := do
  let wide ← problem.targetAt row
  let curTarget := toInt32 wide
  if 0 ≤ curTarget ∧ curTarget < 32 then do
    let base := toInt32 (row * 32)
    let loaded ← problem.load base 16 fun lane => [lane, lane + 16]
    let value0 lane := register loaded lane 0
    let value1 lane := register loaded lane 1
    let rowMax := butterfly larger (halvings 4) fun lane => larger (value0 lane) (value1 lane)
    let expValue := butterfly (· + ·) (halvings 4) fun lane =>
      functions.expf (value0 lane - rowMax lane) + functions.expf (value1 lane - rowMax lane)
    let targetValue := butterfly (· + ·) (halvings 4) fun lane =>
      if curTarget = lane then value0 lane
      else if curTarget = lane + 16 then value1 lane
      else 0
    pure (some (functions.logf (expValue 0) + rowMax 0 - targetValue 0))
  else throw .assertion

/-- `cross_entropy_index_32_noignore_quarterwarp_kernel`: each lane owns four classes. -/
def noignoreQuarterwarpRow (row : Nat) : Except Fault (Option α) := do
  let wide ← problem.targetAt row
  let curTarget := toInt32 wide
  if 0 ≤ curTarget ∧ curTarget < 32 then do
    let base := toInt32 (row * 32)
    let loaded ← problem.load base 8 fun lane => [lane, lane + 8, lane + 16, lane + 24]
    let value index lane := register loaded lane index
    let rowMax := butterfly larger (halvings 3) fun lane =>
      larger (larger (larger (value 0 lane) (value 1 lane)) (value 2 lane)) (value 3 lane)
    let expValue := butterfly (· + ·) (halvings 3) fun lane =>
      functions.expf (value 0 lane - rowMax lane) + functions.expf (value 1 lane - rowMax lane) +
        functions.expf (value 2 lane - rowMax lane) + functions.expf (value 3 lane - rowMax lane)
    let targetGroup := curTarget.toNat / 8
    let selected lane :=
      if targetGroup = 1 then value 1 lane
      else if targetGroup = 2 then value 2 lane
      else if targetGroup = 3 then value 3 lane
      else value 0 lane
    let targetValue := selected (curTarget.toNat % 8)
    pure (some (functions.logf (expValue 0) + rowMax 0 - targetValue))
  else throw .assertion

end Rows

section Grids

variable (runtime : Runtime)

def launch (blocks : Nat) (body : Except Fault β) : Except Fault β :=
  if blocks = 0 ∧ runtime.acceptsEmptyGrid = false then .error .invalidConfiguration else body

def rowsOf (rows perBlock blocks : Nat) : List Nat :=
  ((List.range blocks).flatMap fun block =>
    (List.range perBlock).map fun group => block * perBlock + group).filter (· < rows)

def blocksFor (rows perBlock : Nat) : Nat := (rows + perBlock - 1) / perBlock

variable [Field α] [LinearOrder α] (functions : Functions α) (problem : Problem α)

def noneKernel (perBlock : Nat) (body : Nat → Except Fault (Option α)) :
    Except Fault (Output α) := do
  let blocks := blocksFor problem.rows perBlock
  let written ← launch runtime blocks <|
    (rowsOf problem.rows perBlock blocks).mapM fun row => do
      let loss ← body row
      pure (row, loss.getD 0)
  pure (.rows ((List.range problem.rows).map fun row => written.lookup row))

def accumulate (sums : α × α) (loss : Option α) : α × α :=
  match loss with
  | none => sums
  | some loss => (sums.1 + loss, if problem.reduction = .mean then sums.2 + 1 else sums.2)

def indexKernel : Except Fault (α × α) :=
  launch runtime problem.rows <| (runtime.schedule problem.rows).foldlM (fun sums row => do
    let loss ← indexRow functions problem 8 row
    pure (accumulate problem sums loss)) (0, 0)

def indexMeanKernel : Except Fault (List (α × α)) :=
  launch runtime problem.rows <| (List.range problem.rows).mapM fun row => do
    let loss ← indexRow functions problem 8 row
    match loss with
    | none => pure (0, 0)
    | some loss => pure (loss, 1)

def finalizeMeanBuffer (buffers : List (α × α)) : Option α :=
  let localTotal (select : α × α → α) (thread : Nat) : α :=
    ((strided thread 256 problem.rows).map fun row => select (buffers.getD row (0, 0))).foldl
      (· + ·) 0
  let loss := tree (· + ·) (halvings 8) (localTotal (·.1)) 0
  let count := tree (· + ·) (halvings 8) (localTotal (·.2)) 0
  if 0 < count then some (loss / count) else none

def crossEntropyLoss2d : Except Fault (Output α) :=
  if 2147483647 < problem.rows then .error .rowsUnsupported
  else match problem.reduction with
  | .none =>
    if problem.classes ≤ 64 then
      if problem.classes ≤ 32 ∧ 8 ≤ problem.rows then
        if problem.classes = 32 ∧ problem.ignoreIndex < 0 ∧ problem.rows ≤ 2147483647 then
          if problem.rows < 256 then
            noneKernel runtime problem 16 (noignoreHalfwarpRow functions problem)
          else noneKernel runtime problem 32 (noignoreQuarterwarpRow functions problem)
        else if problem.classes = 32 then
          noneKernel runtime problem 8 (index32Row functions problem)
        else noneKernel runtime problem 8 (small32Row functions problem)
      else if 256 ≤ problem.rows then
        noneKernel runtime problem 256 (indexRow functions problem 0)
      else noneKernel runtime problem 1 (indexRow functions problem 5)
    else noneKernel runtime problem 1 (indexRow functions problem 8)
  | .mean => do
      let buffers ← indexMeanKernel runtime functions problem
      pure (.scalar (finalizeMeanBuffer problem buffers))
  | .sum => do
      let sums ← indexKernel runtime functions problem
      pure (.scalar (some sums.1))

end Grids

section FastPath

inductive ScalarType
  | float
  | half
  | bfloat16
  | double
deriving DecidableEq, Repr

structure Arguments (α : Type) where
  problem : Problem α
  dim : Nat
  scalarType : ScalarType
  hasWeight : Bool
  smooths : Bool

def supportedFastPath (arguments : Arguments α) : Bool :=
  arguments.dim == 2 && arguments.scalarType == .float && !arguments.hasWeight && !arguments.smooths

variable [Field α] [LinearOrder α] (runtime : Runtime) (functions : Functions α)

/-- What `cross_entropy_loss` gives, unless the native operator is called. -/
def crossEntropyLossForward (arguments : Arguments α) : Option (Except Fault (Output α)) :=
  if supportedFastPath arguments then
    some (crossEntropyLoss2d runtime functions arguments.problem)
  else none

end FastPath

section Reference

variable [Field α] (functions : Functions α) (problem : Problem α)

def logSoftmax (row col : Nat) : α :=
  problem.input (row * problem.classes + col) - functions.logf
    ((List.range problem.classes).map fun other =>
      functions.expf (problem.input (row * problem.classes + other))).sum

def rowLoss (row : Nat) : α :=
  if problem.target row = problem.ignoreIndex then 0
  else -logSoftmax functions problem row (problem.target row).toNat

def counted : List Nat :=
  (List.range problem.rows).filter fun row => problem.target row ≠ problem.ignoreIndex

def nllLoss : Output α :=
  let losses := (List.range problem.rows).map (rowLoss functions problem)
  match problem.reduction with
  | .none => .rows (losses.map some)
  | .sum => .scalar (some losses.sum)
  | .mean =>
    if (counted problem).length = 0 then .scalar none
    else .scalar (some (losses.sum / (counted problem).length))

end Reference

end TorchSupa.Aten.CrossEntropy
