import TorchSupa.Logic.Transitions
import Mathlib.Logic.Function.Basic

/-!
The signals by which the devices of a group wait for each other: `barrier` and
`sync_remote_blocks`, thread by thread and compare-and-swap by compare-and-swap.
-/

namespace TorchSupa.SymmMem

open Function

def ceilDiv (value divisor : Nat) : Nat := (value + divisor - 1) / divisor

def roundUp (value divisor : Nat) : Nat := ceilDiv value divisor * divisor

theorem le_roundUp {value divisor : Nat} (positive : 0 < divisor) : value ≤ roundUp value divisor := by
  unfold roundUp ceilDiv
  have divided := Nat.div_add_mod (value + divisor - 1) divisor
  have remainder := Nat.mod_lt (value + divisor - 1) positive
  rw [Nat.mul_comm]
  omega

structure Launch where
  numBlocks : Nat
  numThreads : Nat
deriving DecidableEq, Repr

def initElementwiseLaunchConfig (numel elementSize alignment splits maxNumBlocks maxNumThreads
    worldSize warpSize : Nat) : Launch :=
  let alignedNumel := roundUp numel (alignment * splits)
  let numelPerSplit := alignedNumel / splits
  let numelPerThread := alignment / elementSize
  if numelPerSplit ≤ maxNumThreads * numelPerThread then
    { numBlocks := 1
      numThreads := roundUp (max (ceilDiv numelPerSplit numelPerThread) worldSize) warpSize }
  else
    { numBlocks := min (ceilDiv numelPerSplit (maxNumThreads * numelPerThread)) maxNumBlocks
      numThreads := maxNumThreads }

def maxSupaP2pDomainSize : Nat := 72

structure Group where
  worldSize : Nat
  warpSize : Nat
  signalPadSize : Nat
  words : Nat
deriving DecidableEq, Repr

inductive Kernel
  | oneShot
  | twoShot
  | multimem
deriving DecidableEq, Repr

def Kernel.maxNumBlocks : Kernel → Nat
  | .oneShot => 24
  | .twoShot => 24
  | .multimem => 8

def Kernel.maxNumThreads : Kernel → Nat
  | .oneShot => 512
  | .twoShot => 1024
  | .multimem => 1024

inductive Round
  | barrier
  | syncRemoteBlocks (kernel : Kernel) (numel elementSize alignment splits : Nat)
deriving DecidableEq, Repr

def Round.launch (group : Group) : Round → Launch
  | .barrier => { numBlocks := 1, numThreads := group.warpSize }
  | .syncRemoteBlocks kernel numel elementSize alignment splits =>
    initElementwiseLaunchConfig numel elementSize alignment splits kernel.maxNumBlocks
      kernel.maxNumThreads group.worldSize group.warpSize

def Round.active (group : Group) (round : Round) (rank thread : Nat) : Bool :=
  decide (thread < (round.launch group).numThreads) && decide (thread < group.worldSize) &&
    match round with
    | .barrier => thread != rank
    | .syncRemoteBlocks .. => true

def Group.numChannels (group : Group) : Nat := group.signalPadSize / 4 * group.worldSize

def Round.accepts (group : Group) (round : Round) (channel : Nat) : Bool :=
  match round with
  | .barrier => decide (channel < group.numChannels)
  | .syncRemoteBlocks .. => decide (channel < (round.launch group).numBlocks)

def Group.slot (group : Group) (channel rank : Nat) : Nat := group.worldSize * channel + rank

inductive Phase
  | put
  | wait
  | done
deriving DecidableEq, Repr

structure Party where
  round : Nat := 0
  running : Bool := false
  phase : Nat → Phase := fun _ => .done

structure World where
  parties : Nat → Nat → Party := fun _ _ => {}
  signalPads : Nat → Nat → UInt32
  trapped : Nat → Bool := fun _ => false
  /-- ghost: the signals that were given and taken, by channel, source and target -/
  sent : Nat → Nat → Nat → Nat := fun _ _ _ => 0
  consumed : Nat → Nat → Nat → Nat := fun _ _ _ => 0

inductive Action
  | enter (rank channel : Nat)
  | cas (rank channel thread : Nat)
  | trap (rank channel thread : Nat)
  | leave (rank channel : Nat)
deriving DecidableEq, Repr

def World.setParty (self : World) (rank channel : Nat) (party : Party) : World :=
  { self with
    parties := update self.parties rank
      (update (self.parties rank) channel party) }

def World.store (self : World) (rank word : Nat) (value : UInt32) : World :=
  { self with
    signalPads := update self.signalPads rank
      (update (self.signalPads rank) word value) }

def bump (counts : Nat → Nat → Nat → Nat) (channel source target : Nat) : Nat → Nat → Nat → Nat :=
  fun one two three =>
    if one = channel ∧ two = source ∧ three = target then counts one two three + 1
    else counts one two three

def World.enter (group : Group) (rounds : Nat → Nat → Round) (self : World) (rank channel : Nat) :
    Option World :=
  let party := self.parties rank channel
  let round := rounds channel party.round
  if !party.running && round.accepts group channel then
    some (self.setParty rank channel { party with
      running := true
      phase := fun thread => if round.active group rank thread then .put else .done })
  else none

def World.cas (group : Group) (self : World) (rank channel thread : Nat) : Option World :=
  let party := self.parties rank channel
  match party.phase thread with
  | .put =>
    if self.signalPads thread (group.slot channel rank) = 0 then
      let stored := self.store thread (group.slot channel rank) 1
      some { stored.setParty rank channel { party with
          phase := update party.phase thread .wait } with
        sent := bump self.sent channel rank thread }
    else some self
  | .wait =>
    if self.signalPads rank (group.slot channel thread) = 1 then
      let stored := self.store rank (group.slot channel thread) 0
      some { stored.setParty rank channel { party with
          phase := update party.phase thread .done } with
        consumed := bump self.consumed channel thread rank }
    else some self
  | .done => none

def World.trap (rounds : Nat → Nat → Round) (self : World) (rank channel thread : Nat) :
    Option World :=
  let party := self.parties rank channel
  if rounds channel party.round = .barrier ∧ party.phase thread ≠ .done then
    some { self with trapped := update self.trapped rank true }
  else none

def World.leave (group : Group) (rounds : Nat → Nat → Round) (self : World) (rank channel : Nat) :
    Option World :=
  let party := self.parties rank channel
  let launch := (rounds channel party.round).launch group
  if party.running && (List.range launch.numThreads).all fun thread => party.phase thread == .done then
    some (self.setParty rank channel { party with round := party.round + 1, running := false })
  else none

def Action.rank : Action → Nat
  | .enter rank _ => rank
  | .cas rank _ _ => rank
  | .trap rank _ _ => rank
  | .leave rank _ => rank

def World.advance (group : Group) (rounds : Nat → Nat → Round) (self : World) (action : Action) :
    Option World :=
  if action.rank < group.worldSize && !self.trapped action.rank then
    match action with
    | .enter rank channel => self.enter group rounds rank channel
    | .cas rank channel thread => self.cas group rank channel thread
    | .trap rank channel thread => self.trap rounds rank channel thread
    | .leave rank channel => self.leave group rounds rank channel
  else none

def signalling (group : Group) (rounds : Nat → Nat → Round) : System World Action where
  initial self := ∃ signalPads : Nat → Nat → UInt32,
    (∀ rank word, word < group.words → signalPads rank word = 0) ∧ self = { signalPads }
  step self action after := self.advance group rounds action = some after

end TorchSupa.SymmMem
