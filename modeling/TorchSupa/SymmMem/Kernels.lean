import TorchSupa.SymmMem.Signals
import Mathlib.Algebra.BigOperators.Group.Finset.Basic

/-!
The kernels that reduce over the devices of a group, run thread by thread and vector by vector:
threads of a block are ordered by `__syncthreads` only, blocks of different ranks by
`sync_remote_blocks` only.
-/

namespace TorchSupa.SymmMem.Collective

open Function

inductive Source
  | buffer (rank : Nat)
  | localInput
deriving DecidableEq, Repr

inductive Target
  | buffer (rank : Nat)
  | output
deriving DecidableEq, Repr

inductive Value
  | register (number : Nat)
  | reduced
deriving DecidableEq, Repr

inductive Op
  | load (source : Source) (index register : Nat)
  | store (target : Target) (index : Nat) (value : Value)
deriving DecidableEq, Repr

structure Operands where
  elementSize : Nat
  alignment : Nat
  mira : Bool
  inputOffset : Nat
  numel : Nat
  localOffset : Nat := 0
  localNumel : Nat := 0
  outOffset : Nat := 0
  outNumel : Nat := 0
deriving DecidableEq, Repr

def Operands.numelPerThread (self : Operands) : Nat := self.alignment / self.elementSize

def Operands.storeAlignment (self : Operands) : Nat :=
  if self.mira then self.alignment else min self.alignment 8

def Operands.vectorIn (self : Operands) (first numel base alignment index : Nat) : Bool :=
  decide (first ≤ index) && decide (index + self.numelPerThread ≤ first + numel) &&
    (base + index) * self.elementSize % alignment == 0

def Op.fits (operands : Operands) : Op → Bool
  | .load (.buffer _) index _ =>
    operands.vectorIn operands.inputOffset operands.numel 0 operands.alignment index
  | .load .localInput index _ =>
    operands.vectorIn 0 operands.localNumel operands.localOffset operands.alignment index
  | .store (.buffer _) index _ =>
    operands.vectorIn operands.inputOffset operands.numel 0 operands.storeAlignment index
  | .store .output index _ =>
    operands.vectorIn 0 operands.outNumel operands.outOffset operands.storeAlignment index

def Op.peer : Op → Option Nat
  | .load (.buffer rank) _ _ => some rank
  | .store (.buffer rank) _ _ => some rank
  | _ => none

/-- A kernel: what each thread does before each of its calls of `sync_remote_blocks`. All but the
first of these come after a `__syncthreads`, and every one is followed by one, or by the end. -/
structure Program where
  kernel : Kernel
  splits : Nat
  operands : Operands
  rounds : Nat
  bound : Nat → Nat
  body : Nat → Nat → Nat → List Op

def Program.round (self : Program) : Round :=
  .syncRemoteBlocks self.kernel self.operands.numel self.operands.elementSize
    self.operands.alignment self.splits

def Program.launch (self : Program) (group : Group) : Launch := self.round.launch group

def Program.index (self : Program) (group : Group) (block thread turn : Nat) : Nat :=
  let launch := self.launch group
  let offset := (launch.numThreads * block + thread) * self.operands.numelPerThread
  let stride := launch.numThreads * launch.numBlocks * self.operands.numelPerThread
  offset + turn * stride

section Kernels

def specialized (worldSize : Nat) : Bool := worldSize == 8 || worldSize == 4 || worldSize == 2

def loadOrder (worldSize rank : Nat) : List Nat :=
  if specialized worldSize then (List.range worldSize).map fun step => (rank + step) % worldSize
  else List.range worldSize

def loadAndReduce (worldSize rank index : Nat) : List Op :=
  (loadOrder worldSize rank).map fun remoteRank => .load (.buffer remoteRank) index remoteRank

def accumulate {α : Type} [AddCommMonoid α] (worldSize : Nat) (vecs : Nat → α) : α :=
  if specialized worldSize then
    (List.range (worldSize - 1)).foldl (fun acc r => acc + vecs (r + 1)) (vecs 0)
  else (List.range worldSize).foldl (fun acc step => acc + vecs step) 0

def oneShotAllReduceKernel (operands : Operands) (copies : Bool) (worldSize : Nat) : Program where
  kernel := .oneShot
  splits := 1
  operands := operands
  rounds := 2
  bound := fun
    | 0 => if copies then operands.numel else 0
    | _ => operands.numel
  body := fun
    | 0, rank, i =>
      [.load .localInput i 0, .store (.buffer rank) (operands.inputOffset + i) (.register 0)]
    | _, rank, i =>
      loadAndReduce worldSize rank (operands.inputOffset + i) ++ [.store .output i .reduced]

def twoShotAllReduceKernelInplace (operands : Operands) (worldSize : Nat) : Program where
  kernel := .twoShot
  splits := worldSize
  operands := operands
  rounds := 2
  bound := fun
    | 0 => 0
    | _ => roundUp operands.numel (operands.alignment * worldSize) / worldSize
  body := fun _ rank i =>
    let numelPerRank := roundUp operands.numel (operands.alignment * worldSize) / worldSize
    let start := numelPerRank * rank
    if start + i ≥ operands.numel then []
    else
      loadAndReduce worldSize rank (operands.inputOffset + start + i) ++
        (List.range worldSize).map fun step =>
          .store (.buffer ((rank + step) % worldSize)) (operands.inputOffset + start + i) .reduced

def twoShotAllReduceKernel (operands : Operands) (worldSize : Nat) : Program where
  kernel := .twoShot
  splits := worldSize
  operands := operands
  rounds := 3
  bound := fun
    | 0 => 0
    | _ => roundUp operands.numel (operands.numelPerThread * worldSize) / worldSize
  body := fun round rank i =>
    let numelPerRank := roundUp operands.numel (operands.numelPerThread * worldSize) / worldSize
    match round with
    | 2 =>
      let steps := (List.range worldSize).filter fun step =>
        numelPerRank * ((rank + step) % worldSize) + i < operands.numel
      (steps.map fun step =>
          let remoteRank := (rank + step) % worldSize
          .load (.buffer remoteRank) (operands.inputOffset + numelPerRank * remoteRank + i) step) ++
        steps.map fun step =>
          .store .output (numelPerRank * ((rank + step) % worldSize) + i) (.register step)
    | _ =>
      let start := numelPerRank * rank
      if start + i ≥ operands.numel then []
      else
        loadAndReduce worldSize rank (operands.inputOffset + start + i) ++
          [.store (.buffer rank) (operands.inputOffset + start + i) .reduced]

def throughInt32 (value : Nat) : Nat :=
  let low := value % 2 ^ 32
  if low < 2 ^ 31 then low else low + (2 ^ 64 - 2 ^ 32)

/-- Where the element with the number `i` of a rank lies in the input, without its start. -/
def splitIndex (worldSize lastDimSize i : Nat) : Nat :=
  let nLastDim := throughInt32 (lastDimSize / worldSize)
  i / nLastDim * lastDimSize + i % nLastDim

/-- `two_shot_all_reduce_kernel` with `reduce_scatter`; with the size of the last dimension for
`split_last_dim`. -/
def reduceScatterKernel (operands : Operands) (lastDimSize : Option Nat) (worldSize : Nat) :
    Program where
  kernel := .twoShot
  splits := worldSize
  operands := operands
  rounds := 2
  bound := fun
    | 0 => 0
    | _ => roundUp operands.numel (operands.numelPerThread * worldSize) / worldSize
  body := fun _ rank i =>
    let numelPerRank := roundUp operands.numel (operands.numelPerThread * worldSize) / worldSize
    let index := match lastDimSize with
      | some size => size / worldSize * rank + splitIndex worldSize size i
      | none => numelPerRank * rank + i
    loadAndReduce worldSize rank (operands.inputOffset + index) ++ [.store .output i .reduced]

end Kernels

structure Thread (α : Type) where
  turn : Nat := 0
  step : Nat := 0
  registers : Nat → Nat → α

structure World (α : Type) where
  signals : SymmMem.World
  started : Nat → Bool := fun _ => false
  ended : Nat → Bool := fun _ => false
  buffers : Nat → Nat → α
  localInputs : Nat → Nat → α
  outputs : Nat → Nat → α
  threads : Nat → Nat → Nat → Thread α
  fault : Bool := false
  /-- ghost: the contents when the operation of a rank began -/
  before : Nat → Nat → α
  beforeLocal : Nat → Nat → α
  /-- ghost: the buffer when the operation of a rank ended -/
  left : Nat → Nat → α

inductive Action (α : Type)
  | write (rank index : Nat) (value : α)
  | writeLocal (rank index : Nat) (value : α)
  | start (rank : Nat)
  | signal (action : SymmMem.Action)
  | advance (rank block thread : Nat)
  | finish (rank : Nat)
deriving DecidableEq, Repr

section Steps

variable {α : Type} [AddCommMonoid α]

def World.running (self : World α) (rank : Nat) : Bool := self.started rank && !self.ended rank

def fresh : Thread α := { registers := fun _ _ => 0 }

def World.complete (group : Group) (program : Program) (self : World α) (rank block thread : Nat) :
    Bool :=
  decide (program.bound (self.signals.parties rank block).round ≤
    program.index group block thread (self.threads rank block thread).turn)

def World.blockComplete (group : Group) (program : Program) (self : World α) (rank block : Nat) :
    Bool :=
  (List.range (program.launch group).numThreads).all fun thread =>
    self.complete group program rank block thread

def Value.of (worldSize : Nat) (registers : Nat → Nat → α) (lane : Nat) : Value → α
  | .register number => registers number lane
  | .reduced => accumulate worldSize fun rank => registers rank lane

def World.contents (self : World α) (rank : Nat) : Source → Nat → α
  | .buffer peer => self.buffers peer
  | .localInput => self.localInputs rank

def storeVector (memory : Nat → α) (index numel : Nat) (values : Nat → α) : Nat → α :=
  fun element => if index ≤ element ∧ element < index + numel then values (element - index)
    else memory element

def World.store (self : World α) (rank numelPerThread index : Nat) (values : Nat → α) :
    Target → World α
  | .buffer peer =>
    { self with
      buffers := update self.buffers peer
        (storeVector (self.buffers peer) index numelPerThread values) }
  | .output =>
    { self with
      outputs := update self.outputs rank
        (storeVector (self.outputs rank) index numelPerThread values) }

def World.setThread (self : World α) (rank block thread : Nat) (value : Thread α) : World α :=
  { self with
    threads := update self.threads rank (update (self.threads rank) block
      (update (self.threads rank block) thread value)) }

def World.permits (program : Program) (self : World α) (op : Op) : Bool :=
  op.fits program.operands && match op.peer with
    | some peer => self.running peer
    | none => true

def World.exec (group : Group) (program : Program) (self : World α) (rank block thread : Nat) :
    Op → World α
  | .load source index register =>
    let state := self.threads rank block thread
    self.setThread rank block thread { state with
      step := state.step + 1
      registers := update state.registers register fun lane =>
        self.contents rank source (index + lane) }
  | .store target index value =>
    let state := self.threads rank block thread
    (self.store rank program.operands.numelPerThread index
      (fun lane => value.of group.worldSize state.registers lane) target).setThread rank block thread
        { state with step := state.step + 1 }

def World.advance (group : Group) (program : Program) (self : World α) (rank block thread : Nat) :
    Option (World α) :=
  let launch := program.launch group
  let party := self.signals.parties rank block
  let state := self.threads rank block thread
  if self.started rank && decide (rank < group.worldSize) && decide (block < launch.numBlocks) &&
      decide (thread < launch.numThreads) && decide (party.round < program.rounds) &&
      (!party.running || party.round == 0) && !self.complete group program rank block thread then
    match (program.body party.round rank (program.index group block thread state.turn))[state.step]? with
    | some op =>
      some { self.exec group program rank block thread op with
        fault := self.fault || !self.permits program op }
    | none => some (self.setThread rank block thread { (fresh : Thread α) with turn := state.turn + 1 })
  else none

def World.mayTake (group : Group) (program : Program) (self : World α) : SymmMem.Action → Bool
  | .enter rank block =>
    let round := (self.signals.parties rank block).round
    self.started rank && decide (round < program.rounds) &&
      (round == 0 || self.blockComplete group program rank block)
  | .cas rank block thread => self.complete group program rank block thread
  | .trap .. => true
  | .leave rank block => self.blockComplete group program rank block

def World.signal (group : Group) (program : Program) (self : World α) (action : SymmMem.Action) :
    Option (World α) :=
  if self.mayTake group program action then
    (self.signals.advance group (fun _ _ => program.round) action).map fun signals =>
      match action with
      | .leave rank block =>
        { self with
          signals := signals
          threads := update self.threads rank
            (update (self.threads rank) block fun _ => fresh) }
      | _ => { self with signals := signals }
  else none

def World.start (group : Group) (self : World α) (rank : Nat) : Option (World α) :=
  if rank < group.worldSize && !self.started rank then
    some { self with
      started := update self.started rank true
      before := update self.before rank (self.buffers rank)
      beforeLocal := update self.beforeLocal rank (self.localInputs rank) }
  else none

def World.finish (group : Group) (program : Program) (self : World α) (rank : Nat) :
    Option (World α) :=
  if decide (rank < group.worldSize) && self.running rank &&
      (List.range (program.launch group).numBlocks).all (fun block =>
      (self.signals.parties rank block).round == program.rounds) then
    some { self with
      ended := update self.ended rank true
      left := update self.left rank (self.buffers rank) }
  else none

def World.act (group : Group) (program : Program) (self : World α) : Action α → Option (World α)
  | .write rank index value =>
    if self.running rank then none
    else some { self with
      buffers := update self.buffers rank
        (update (self.buffers rank) index value) }
  | .writeLocal rank index value =>
    if self.running rank then none
    else some { self with
      localInputs := update self.localInputs rank
        (update (self.localInputs rank) index value) }
  | .start rank => self.start group rank
  | .signal action => self.signal group program action
  | .advance rank block thread => self.advance group program rank block thread
  | .finish rank => self.finish group program rank

def operation (group : Group) (program : Program) : System (World α) (Action α) where
  initial self := (signalling group fun _ _ => program.round).initial self.signals ∧
    self.started = (fun _ => false) ∧ self.ended = (fun _ => false) ∧
    self.threads = (fun _ _ _ => fresh) ∧ self.fault = false
  step self action after := self.act group program action = some after

end Steps

end TorchSupa.SymmMem.Collective
