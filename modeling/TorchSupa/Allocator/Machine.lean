import TorchSupa.Allocator.Ipc

/-!
The operations that a process performs on a device allocator.
-/

namespace TorchSupa.Allocator

open Outcome

inductive Op
  | malloc (callbacks : Callbacks) (origSize : Nat) (stream : Stream)
  | free (block : BlockId)
  | recordStream (block : BlockId) (stream : Stream)
  | emptyCache (mempoolId : MempoolId)
  | createOrIncrefPool (mempoolId : MempoolId) (allocator : Option AllocatorId)
  | setUseOnOOM (mempoolId : MempoolId)
  | setNoSplit (mempoolId : MempoolId)
  | beginAllocateToPool (mempoolId : MempoolId) (filter : CaptureFilter)
  | endAllocateToPool (mempoolId : MempoolId)
  | releasePool (mempoolId : MempoolId)
  | setAllocatorSettings (config : SUPAAllocatorConfig)
  | setMemoryFraction (fraction : Rat)
  | recordHistory (enabled : Bool) (allocTraceMaxEntries : Nat)
  | resetAccumulatedStats
  | resetPeakStats
  | getCheckpointState (mempoolId : MempoolId)
  | setCheckpointPoolState (pps : PrivatePoolState)
  | shareIpcHandle (block : BlockId)

def Op.run (driver : Driver) : Op → M Unit
  | .malloc callbacks origSize stream => do
      let _block ← Allocator.malloc driver callbacks (← get).device origSize stream
  | .free block => Allocator.free driver block
  | .recordStream block stream => Allocator.recordStream block stream
  | .emptyCache mempoolId => Allocator.emptyCache driver mempoolId
  | .createOrIncrefPool mempoolId allocator => Allocator.createOrIncrefPool mempoolId allocator
  | .setUseOnOOM mempoolId => Allocator.setUseOnOOM mempoolId
  | .setNoSplit mempoolId => Allocator.setNoSplit mempoolId
  | .beginAllocateToPool mempoolId filter => Allocator.beginAllocateToPool mempoolId filter
  | .endAllocateToPool mempoolId => Allocator.endAllocateToPool mempoolId
  | .releasePool mempoolId => Allocator.releasePool mempoolId
  | .setAllocatorSettings config => Allocator.setAllocatorSettings config
  | .setMemoryFraction fraction => Allocator.setMemoryFraction driver fraction
  | .recordHistory enabled maxEntries => Allocator.recordHistory enabled maxEntries
  | .resetAccumulatedStats => Allocator.resetAccumulatedStats
  | .resetPeakStats => Allocator.resetPeakStats
  | .getCheckpointState mempoolId => do
      let _taken ← Allocator.getCheckpointState driver mempoolId
  | .setCheckpointPoolState pps => do
      let _result ← Allocator.setCheckpointPoolState driver pps
  | .shareIpcHandle block => do
      let _handle ← Allocator.shareIpcHandle block

def initial (device : Nat) (config : SUPAAllocatorConfig) : DeviceCachingAllocator where
  device
  config

end TorchSupa.Allocator
