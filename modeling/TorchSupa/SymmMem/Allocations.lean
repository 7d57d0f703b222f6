import TorchSupa.SymmMem.StoreExchange
import TorchSupa.SymmMem.Signals
import Mathlib.Algebra.Group.Nat.Defs

/-!
Symmetric allocations: the addresses that each process maps its own memory and that of its peers
to, and `rendezvous`, which hands them out.
-/

namespace TorchSupa.SymmMem.Address

open Function

/-- Physical memory: the allocation with this number, made by this process. Allocations of the
members of a group that have the same number are one symmetric allocation. -/
structure Handle where
  owner : Nat
  number : Nat
deriving DecidableEq, Repr

structure AllocationRef where
  ptr : Nat
  handle : Handle
  blockSize : Nat
deriving DecidableEq, Repr

def AllocationRef.apart (self other : AllocationRef) : Bool :=
  decide (self.ptr + self.blockSize ≤ other.ptr) || decide (other.ptr + other.blockSize ≤ self.ptr)

structure SUPAPeerAllocInfo where
  allocRefs : List AllocationRef
  buffers : List Nat
  signalPads : List Nat
  bufferSize : Nat
  madeAt : Nat
deriving DecidableEq, Repr

structure Block where
  allocRef : AllocationRef
  blockSize : Nat
  bufferSize : Nat
  signalPadOffset : Nat
  symmMems : List (Nat × SUPAPeerAllocInfo) := []
deriving DecidableEq, Repr

structure SUPASymmetricMemory where
  process : Nat
  group : Nat
  number : Nat
  pai : SUPAPeerAllocInfo
  offset : Nat
deriving DecidableEq, Repr

structure Cluster where
  members : Nat → List Nat
  distinct : ∀ group, (members group).Nodup
  hostname : Nat → String
  deviceIdx : Nat → Nat
  hasMulticastSupport : Nat → Bool
  allowOverlapping : Bool
  signalPadSize : Nat
  padPositive : 0 < signalPadSize
  granularity : Nat
  granularityPositive : 0 < granularity

structure World where
  mapped : Nat → List AllocationRef := fun _ => []
  blocks : Nat → List Block := fun _ => []
  symmMems : List SUPASymmetricMemory := []
  created : List Handle := []

def resolve (mapped : List AllocationRef) (address : Nat) : Option (Handle × Nat) :=
  (mapped.find? fun ref => decide (ref.ptr ≤ address) && decide (address < ref.ptr + ref.blockSize)).map
    fun ref => (ref.handle, address - ref.ptr)

def World.mapBlock (self : World) (process : Nat) (ref : AllocationRef) : Option World :=
  if (self.mapped process).all ref.apart then
    some { self with mapped := update self.mapped process (ref :: self.mapped process) }
  else none

def signalPadOffset (size : Nat) : Nat := roundUp size 16

def World.alloc (self : World) (cluster : Cluster) (process number size address : Nat) :
    Option World :=
  let handle : Handle := ⟨process, number⟩
  -- the size is that of a tensor, an `int64_t`
  if handle ∉ self.created ∧ size < 2 ^ 63 then
    let blockSize := roundUp (signalPadOffset size + cluster.signalPadSize) cluster.granularity
    let ref : AllocationRef := { ptr := address, handle := handle, blockSize := blockSize }
    let block : Block :=
      { allocRef := ref
        blockSize := blockSize
        bufferSize := size
        signalPadOffset := signalPadOffset size }
    (self.mapBlock process ref).map fun world =>
      { world with
        blocks := update world.blocks process (block :: world.blocks process)
        created := handle :: world.created }
  else none

def World.free (self : World) (process ptr : Nat) : World :=
  { self with
    blocks := update self.blocks process
      ((self.blocks process).filter fun block => block.allocRef.ptr != ptr) }

def World.unmap (self : World) (process : Nat) (ref : AllocationRef) : Option World :=
  if (self.blocks process).all (fun block => block.allocRef != ref &&
        block.symmMems.all fun entry => !entry.2.allocRefs.contains ref) &&
      self.symmMems.all (fun memory => memory.process != process ||
        !memory.pai.allocRefs.contains ref) then
    some { self with mapped := update self.mapped process ((self.mapped process).erase ref) }
  else none

def findBlockCovering (blocks : List Block) (ptr : Nat) : Option (Block × Nat) :=
  (blocks.find? fun block => decide (block.allocRef.ptr ≤ ptr) &&
      decide (ptr - block.allocRef.ptr < block.bufferSize)).map
    fun block => (block, ptr - block.allocRef.ptr)

structure Call where
  process : Nat
  ptr : Nat
  block : Block
  offset : Nat
deriving DecidableEq, Repr

def World.call (self : World) (process number offset : Nat) : Option Call := do
  let own ← (self.blocks process).find? fun block => block.allocRef.handle == ⟨process, number⟩
  if offset < own.bufferSize then
    let ptr := own.allocRef.ptr + offset
    let (block, found) ← findBlockCovering (self.blocks process) ptr
    pure { process := process, ptr := ptr, block := block, offset := found }
  else none

def Call.request (cluster : Cluster) (call : Call) : Exchange.RendezvousRequest where
  deviceIdx := cluster.deviceIdx call.process
  pid := call.process
  blockSize := call.block.blockSize
  bufferSize := call.block.bufferSize
  signalPadOffset := call.block.signalPadOffset
  hasMulticastSupport := cluster.hasMulticastSupport call.process
  hostname := cluster.hostname call.process

structure Entry where
  allocRef : AllocationRef
  buffer : Nat
  signalPad : Nat
deriving DecidableEq, Repr

def World.entries (call : Call) (addresses : Nat → Nat) : World → List Call →
    Option (World × List Entry)
  | world, [] => some (world, [])
  | world, peer :: rest =>
    if peer.process = call.process then do
      let own : Entry :=
        { allocRef := call.block.allocRef
          buffer := call.ptr
          signalPad := call.ptr + call.block.signalPadOffset }
      let (after, entries) ← World.entries call addresses world rest
      pure (after, own :: entries)
    else do
      let ref : AllocationRef :=
        { ptr := addresses peer.process
          handle := peer.block.allocRef.handle
          blockSize := call.block.blockSize }
      let entry : Entry :=
        { allocRef := ref
          buffer := ref.ptr
          signalPad := ref.ptr + call.block.signalPadOffset }
      let grown ← world.mapBlock call.process ref
      let (after, entries) ← World.entries call addresses grown rest
      pure (after, entry :: entries)

def makePeerAllocInfo (call : Call) (entries : List Entry) : SUPAPeerAllocInfo where
  allocRefs := entries.map (·.allocRef)
  buffers := entries.map (·.buffer)
  signalPads := entries.map (·.signalPad)
  bufferSize := call.block.bufferSize
  madeAt := call.offset

def World.hand (self : World) (group number : Nat) (call : Call) (pai : SUPAPeerAllocInfo) : World :=
  { self with
    symmMems :=
      { process := call.process, group := group, number := number, pai := pai
        offset := call.offset } :: self.symmMems }

def World.emplace (self : World) (group : Nat) (call : Call) (pai : SUPAPeerAllocInfo) : World :=
  { self with
    blocks := update self.blocks call.process ((self.blocks call.process).map fun block =>
      if block.allocRef = call.block.allocRef then
        { block with symmMems := (group, pai) :: block.symmMems }
      else block) }

def World.exchange (group number : Nat) (calls : List Call) (addresses : Nat → Nat → Nat) :
    World → List Call → Option World
  | world, [] => some world
  | world, call :: rest => do
      let (grown, entries) ← World.entries call (addresses call.process) world calls
      let pai := makePeerAllocInfo call entries
      World.exchange group number calls addresses
        ((grown.emplace group call pai).hand group number call pai) rest

def World.reuse (group number : Nat) : World → List Call → Option World
  | world, [] => some world
  | world, call :: rest => do
      let pai ← call.block.symmMems.lookup group
      World.reuse group number (world.hand group number call pai) rest

def World.rendezvous (self : World) (cluster : Cluster) (group number offset : Nat)
    (addresses : Nat → Nat → Nat) : Option World := do
  let calls ← (cluster.members group).mapM fun process => self.call process number offset
  if calls.all fun call => (call.block.symmMems.lookup group).isSome then
    self.reuse group number calls
  else if calls.all fun call => (call.block.symmMems.lookup group).isNone then
    -- otherwise all members throw
    if Exchange.validates cluster.allowOverlapping (calls.map (·.request cluster)) then
      World.exchange group number calls addresses self calls
    else some self
  else none

inductive Action
  | alloc (process number size address : Nat)
  | free (process ptr : Nat)
  | unmap (process : Nat) (ref : AllocationRef)
  | rendezvous (group number offset : Nat) (addresses : Nat → Nat → Nat)
  | drop (index : Nat)

def World.advance (cluster : Cluster) (self : World) : Action → Option World
  | .alloc process number size address => self.alloc cluster process number size address
  | .free process ptr => some (self.free process ptr)
  | .unmap process ref => self.unmap process ref
  | .rendezvous group number offset addresses =>
    self.rendezvous cluster group number offset addresses
  | .drop index => some { self with symmMems := self.symmMems.eraseIdx index }

def mapping (cluster : Cluster) : System World Action where
  initial self := self = {}
  step self action after := self.advance cluster action = some after

/-- What a kernel reads and writes for a byte of a tensor: it adds to the buffer where in its
storage the byte lies. -/
def kernelAddress (pai : SUPAPeerAllocInfo) (rank byte : Nat) : Option Nat :=
  pai.buffers[rank]?.map (· + byte)

end TorchSupa.SymmMem.Address
