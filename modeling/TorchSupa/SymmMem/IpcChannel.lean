import TorchSupa.Logic.Transitions
import Mathlib.Logic.Function.Basic

/-!
`all_gather_fds` and the `broadcast_fds` that follows it behind a store barrier, process by process
and message by message. A rank stands for its process; a socket keeps the messages of each sender
in their order and may give those of any sender first.
-/

namespace TorchSupa.SymmMem.IpcChannel

open Function

abbrev File := Nat

/-- Where a process is; the loop of `all_gather_fds` counts its steps from 1. -/
inductive Point
  | gathering (step : Nat) (sent : Bool)
  | gathered
  | broadcasting (dstRank : Nat)
  | awaiting
  | returned
deriving DecidableEq, Repr

structure Process where
  table : Int → Option File
  fd : Int
  fds : Nat → Int
  point : Point

structure World where
  processes : Nat → Process
  channels : Nat → Nat → List (Option File)

structure Ring where
  worldSize : Nat
  srcRank : Nat
deriving DecidableEq, Repr

/-- What is sent for a descriptor: nothing for -1. A descriptor that is not open cannot be sent. -/
def Process.refers (self : Process) (fd : Int) : Option (Option File) :=
  if fd = -1 then some none else (self.table fd).map some

def Ring.enterStep (ring : Ring) (step : Nat) : Point :=
  if step < ring.worldSize then .gathering step false else .gathered

def Ring.dstRank (ring : Ring) (rank : Nat) : Nat := (rank + 1) % ring.worldSize

def Ring.srcOf (ring : Ring) (rank step : Nat) : Nat :=
  (rank + ring.worldSize - step) % ring.worldSize

def Point.isGathering : Point → Bool
  | .gathering _ _ => true
  | _ => false

inductive Action
  | sendFd (rank : Nat)
  | recvFd (rank sender : Nat) (descriptor : Int)
  | broadcast (rank : Nat) (fd : Int)
  | openFile (rank : Nat) (descriptor : Int) (file : File)
deriving DecidableEq, Repr

def World.setProcess (self : World) (rank : Nat) (process : Process) : World :=
  { self with processes := update self.processes rank process }

def World.push (self : World) (sender receiver : Nat) (message : Option File) : World :=
  { self with
    channels := update self.channels sender
      (update (self.channels sender) receiver
        (self.channels sender receiver ++ [message])) }

def World.pop (self : World) (sender receiver : Nat) : World :=
  { self with
    channels := update self.channels sender
      (update (self.channels sender) receiver (self.channels sender receiver).tail) }

/-- `recv_fd`: the kernel puts a received file at an unused descriptor. -/
def Process.receive (self : Process) (message : Option File) (descriptor : Int) : Option Process :=
  match message with
  | none => some { self with fd := -1 }
  | some file =>
    if 0 ≤ descriptor ∧ self.table descriptor = none then
      some { self with table := update self.table descriptor (some file), fd := descriptor }
    else none

def World.sendFd (ring : Ring) (self : World) (rank : Nat) : Option World :=
  let process := self.processes rank
  match process.point with
  | .gathering step false => do
      let message ← process.refers process.fd
      some ((self.push rank (ring.dstRank rank) message).setProcess rank
        { process with point := .gathering step true })
  | .broadcasting dstRank =>
    let point := if dstRank + 1 < ring.worldSize then .broadcasting (dstRank + 1) else .returned
    if dstRank = rank then some (self.setProcess rank { process with point := point })
    else do
      let message ← process.refers process.fd
      some ((self.push rank dstRank message).setProcess rank { process with point := point })
  | _ => none

def World.recvFd (ring : Ring) (self : World) (rank sender : Nat) (descriptor : Int) :
    Option World := do
  let process := self.processes rank
  let message ← (self.channels sender rank).head?
  let received ← process.receive message descriptor
  match process.point with
  | .gathering step true =>
    some ((self.pop sender rank).setProcess rank { received with
      fds := update received.fds (ring.srcOf rank step) received.fd
      point := ring.enterStep (step + 1) })
  | .awaiting =>
    some ((self.pop sender rank).setProcess rank { received with point := .returned })
  | _ => none

def World.broadcast (ring : Ring) (self : World) (rank : Nat) (fd : Int) : Option World :=
  let process := self.processes rank
  if process.point = .gathered ∧
      ∀ other < ring.worldSize, (self.processes other).point.isGathering = false then
    some (self.setProcess rank { process with
      fd := fd
      point := if rank = ring.srcRank then .broadcasting 0 else .awaiting })
  else none

def World.openFile (self : World) (rank : Nat) (descriptor : Int) (file : File) : Option World :=
  let process := self.processes rank
  if process.table descriptor = none then
    some (self.setProcess rank
      { process with table := update process.table descriptor (some file) })
  else none

def World.advance (ring : Ring) (self : World) : Action → Option World
  | .sendFd rank => if rank < ring.worldSize then self.sendFd ring rank else none
  | .recvFd rank sender descriptor =>
    if rank < ring.worldSize ∧ sender < ring.worldSize then
      self.recvFd ring rank sender descriptor
    else none
  | .broadcast rank fd => if rank < ring.worldSize then self.broadcast ring rank fd else none
  | .openFile rank descriptor file => self.openFile rank descriptor file

def World.start (ring : Ring) (tables : Nat → Int → Option File) (given : Nat → Int) : World where
  processes rank :=
    { table := tables rank
      fd := given rank
      fds := update (fun _ => 0) rank (given rank)
      point := ring.enterStep 1 }
  channels _ _ := []

def gathering (ring : Ring) (tables : Nat → Int → Option File) (given : Nat → Int) :
    System World Action where
  initial self := self = World.start ring tables given
  step self action after := self.advance ring action = some after

end TorchSupa.SymmMem.IpcChannel
