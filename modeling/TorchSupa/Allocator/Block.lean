import TorchSupa.Data.Store
import Mathlib.Data.List.Sort
import Mathlib.Data.Rat.Floor

/-!
The data model of `SUPACachingAllocator.cpp`: blocks, block pools, private pools
and statistics. Pointers are identities into a `Store`; addresses and sizes are
natural numbers.
-/

namespace TorchSupa.Allocator

def kMinBlockSize : Nat := 512
def kSmallSize : Nat := 1024 * 1024
def kSmallBuffer : Nat := 2 * 1024 * 1024
def kLargeBuffer : Nat := 20 * 1024 * 1024
def kMinLargeAlloc : Nat := 10 * 1024 * 1024
def kRoundLarge : Nat := 2 * 1024 * 1024
def kRoundUpPowerOfTwoIntervals : Nat := 16

def sizeMax : Nat := 2 ^ 64 - 1

def wrappingSub (a b : Nat) : Nat := if b ≤ a then a - b else a + 2 ^ 64 - b

abbrev BlockId := Nat
abbrev ExpandableId := Nat
abbrev PrivatePoolId := Nat
abbrev AllocatorId := Nat
abbrev Stream := Nat
abbrev Thread := Nat
abbrev MempoolId := Nat × Nat

/-- A `BlockPool*`: the large or the small pool, of the device or of a `PrivatePool`. -/
structure PoolRef where
  owner : Option PrivatePoolId
  isSmall : Bool
deriving DecidableEq, Repr, Inhabited

inductive Source
  | supaMalloc
  | rawAlloc (allocator : AllocatorId)
  | addressReserve
deriving DecidableEq, Repr, Inhabited

/-- A range of device addresses as the driver handed it out, with what it was
obtained for. `serial` tells apart ranges that reuse an address. Ghost data: the
code never reads it. -/
structure Segment where
  serial : Nat
  base : Nat
  size : Nat
  source : Source
  pool : PoolRef
  stream : Stream
  expandable : Option ExpandableId
deriving DecidableEq, Repr, Inhabited

structure Block where
  device : Nat
  stream : Stream
  streamUses : List Stream := []
  size : Nat
  requestedSize : Nat := 0
  pool : PoolRef
  ptr : Nat
  allocated : Bool := false
  mapped : Bool := true
  prev : Option BlockId := none
  next : Option BlockId := none
  eventCount : Int := 0
  gcCountBase : Int := 0
  expandableSegment : Option ExpandableId := none
  /-- ghost: the range this block was carved out of -/
  segment : Segment
deriving DecidableEq, Repr, Inhabited

def Block.isSplit (block : Block) : Bool := block.prev.isSome || block.next.isSome

def Block.allocatable (block : Block) : Bool :=
  !block.allocated && block.eventCount == 0 && block.streamUses.isEmpty

structure BlockPool where
  blocks : List BlockId := []
  unmapped : List BlockId := []
  getFreeBlocksCallCount : Int := 0
deriving DecidableEq, Repr, Inhabited

def blockComparatorSize (a b : Block) : Bool :=
  if a.stream ≠ b.stream then a.stream < b.stream
  else if a.size ≠ b.size then a.size < b.size
  else a.ptr < b.ptr

def blockComparatorAddress (a b : Block) : Bool :=
  if a.stream ≠ b.stream then a.stream < b.stream
  else a.ptr < b.ptr

def inOrder (comparison : Block → Block → Bool) (heap : Store Block) (ids : List BlockId) :
    List BlockId :=
  ids.insertionSort fun i j =>
    comparison ((heap.get? j).getD default) ((heap.get? i).getD default) = false

def equivalent (comparison : Block → Block → Bool) (heap : Store Block) (id other : BlockId) : Bool :=
  let block := (heap.get? id).getD default
  let member := (heap.get? other).getD default
  !comparison block member && !comparison member block

def lowerBound (comparison : Block → Block → Bool) (heap : Store Block) (key : Block)
    (ordered : List BlockId) : List BlockId :=
  ordered.dropWhile fun id => comparison ((heap.get? id).getD default) key

structure PrivatePool where
  id : MempoolId
  useCount : Int := 1
  supaMallocCount : Int := 0
  allocator : Option AllocatorId
deriving DecidableEq, Repr, Inhabited

structure MemPool where
  id : MempoolId
  allocator : Option AllocatorId
deriving DecidableEq, Repr, Inhabited

/-- The closure that `beginAllocateToPool` stores: the object it captured by reference (`this`)
and the streams it accepts. -/
structure CaptureFilter where
  refersTo : Option Nat := none
  accepts : Thread → Stream → Bool
deriving Inhabited

structure Caller where
  thread : Thread
  activeMemPool : Option MemPool
deriving DecidableEq, Repr, Inhabited

/-- The options of `SUPAAllocatorConfig` that the device allocator reads. The
threshold is a `double` in the code. -/
structure SUPAAllocatorConfig where
  maxSplitSize : Nat := sizeMax
  roundupPower2Divisions : List Nat := List.replicate kRoundUpPowerOfTwoIntervals 0
  garbageCollectionThreshold : Rat := 0
  expandableSegments : Bool := false
deriving Inhabited

structure Stat where
  current : Int := 0
  peak : Int := 0
  allocated : Int := 0
  freed : Int := 0
deriving DecidableEq, Repr, Inhabited

/-- `Stat::increase` and `Stat::decrease` of the supported builds (`TORCH_VER` from
2.5 on), whose negativity assertion is compiled only into debug builds. -/
def Stat.increase (stat : Stat) (amount : Nat) : Stat :=
  { stat with
    current := stat.current + amount
    peak := max (stat.current + amount) stat.peak
    allocated := stat.allocated + amount }

def Stat.decrease (stat : Stat) (amount : Nat) : Stat :=
  { stat with
    current := stat.current - amount
    freed := stat.freed + amount }

structure StatArray where
  aggregate : Stat := {}
  smallPool : Stat := {}
  largePool : Stat := {}
deriving DecidableEq, Repr, Inhabited

def StatArray.forSelected (array : StatArray) (isSmall : Bool) (change : Stat → Stat) : StatArray where
  aggregate := change array.aggregate
  smallPool := if isSmall then change array.smallPool else array.smallPool
  largePool := if isSmall then array.largePool else change array.largePool

structure DeviceStats where
  allocation : StatArray := {}
  segment : StatArray := {}
  active : StatArray := {}
  inactiveSplit : StatArray := {}
  allocatedBytes : StatArray := {}
  reservedBytes : StatArray := {}
  activeBytes : StatArray := {}
  inactiveSplitBytes : StatArray := {}
  requestedBytes : StatArray := {}
  numAllocRetries : Int := 0
  numOoms : Int := 0
  oversizeAllocations : Stat := {}
  oversizeSegments : Stat := {}
  numSyncAllStreams : Int := 0
  numDeviceAlloc : Int := 0
  numDeviceFree : Int := 0
deriving DecidableEq, Repr, Inhabited

end TorchSupa.Allocator
