import TorchSupa.Allocator.Malloc

/-!
The use counts of private pools, the captures that divert allocations to them, and
the runtime settings.
-/

namespace TorchSupa.Allocator

open Outcome

def createOrIncrefPool (mempoolId : MempoolId) (allocator : Option AllocatorId) : M Unit := do
  match (← get).graphPools.find? (·.1 == mempoolId) with
  | none =>
    modify fun state =>
      { state with
        privatePools := state.privatePools.push { id := mempoolId, allocator }
        graphPools := state.graphPools ++ [(mempoolId, state.privatePools.fresh)] }
  | some entry => do
      internalAssert ((← derefPool entry.2).useCount > 0)
      internalAssert allocator.isNone
      updatePrivatePool entry.2 fun self => { self with useCount := self.useCount + 1 }

def setUseOnOOM (mempoolId : MempoolId) : M Unit :=
  modify fun state => { state with useOnOomPools := state.useOnOomPools.insert mempoolId }

def setNoSplit (mempoolId : MempoolId) : M Unit :=
  modify fun state => { state with noSplitPools := state.noSplitPools.insert mempoolId }

def beginAllocateToPool (mempoolId : MempoolId) (filter : CaptureFilter) : M Unit := do
  createOrIncrefPool mempoolId none
  forEach (fun entry => torchCheck (entry.1 != mempoolId)
    "beginAllocateToPool: already recording to mempool_id") (← get).capturesUnderway
  modify fun state =>
    { state with capturesUnderway := state.capturesUnderway ++ [(mempoolId, filter)] }

def endAllocateToPool (mempoolId : MempoolId) : M Unit := do
  if (← get).capturesUnderway.any (·.1 == mempoolId) then
    modify fun state =>
      { state with capturesUnderway := state.capturesUnderway.eraseP (·.1 == mempoolId) }
  else throw (.torchCheck "endAllocatePool: not currently recording to mempool_id")

def releasePool (mempoolId : MempoolId) : M Unit := do
  let pool ← getPrivatePool mempoolId
  updatePrivatePool pool fun self => { self with useCount := self.useCount - 1 }
  let useCount := (← derefPool pool).useCount
  internalAssert (useCount ≥ 0)
  if useCount = 0 then do
    let freeable := (← get).graphPoolsFreeable
    if freeable.any (·.1 == mempoolId) then throw .internalAssert
    else modify fun state =>
      { state with graphPoolsFreeable := freeable ++ [(mempoolId, pool)] }
  else pure ()

def setAllocatorSettings (config : SUPAAllocatorConfig) : M Unit :=
  modify fun state => { state with config }

def setMemoryFraction (driver : Driver) (fraction : Rat) : M Unit := do
  let (_, deviceTotal) := driver.memGetInfo (← nextTick)
  modify fun state =>
    { state with
      allowedMemoryMaximum := (fraction * deviceTotal).floor.toNat
      setFraction := true }

def recordHistory (enabled : Bool) (allocTraceMaxEntries : Nat) : M Unit :=
  modify fun state =>
    let state := { state with
      recordHistory := enabled
      allocTraceMaxEntries := max 1 allocTraceMaxEntries }
    if enabled then state else { state with allocTraceNext := 0, allocTrace := [] }

def StatArray.mapAll (array : StatArray) (change : Stat → Stat) : StatArray where
  aggregate := change array.aggregate
  smallPool := change array.smallPool
  largePool := change array.largePool

def DeviceStats.mapStats (stats : DeviceStats) (change : Stat → Stat) : DeviceStats :=
  { stats with
    allocation := stats.allocation.mapAll change
    segment := stats.segment.mapAll change
    active := stats.active.mapAll change
    inactiveSplit := stats.inactiveSplit.mapAll change
    allocatedBytes := stats.allocatedBytes.mapAll change
    reservedBytes := stats.reservedBytes.mapAll change
    activeBytes := stats.activeBytes.mapAll change
    inactiveSplitBytes := stats.inactiveSplitBytes.mapAll change
    requestedBytes := stats.requestedBytes.mapAll change
    oversizeAllocations := change stats.oversizeAllocations
    oversizeSegments := change stats.oversizeSegments }

def resetAccumulatedStats : M Unit :=
  modifyStats fun stats =>
    { stats.mapStats fun stat => { stat with allocated := 0, freed := 0 } with
      numAllocRetries := 0
      numOoms := 0
      numSyncAllStreams := 0
      numDeviceAlloc := 0
      numDeviceFree := 0 }

def resetPeakStats : M Unit :=
  modifyStats fun stats => stats.mapStats fun stat => { stat with peak := stat.current }

end TorchSupa.Allocator
