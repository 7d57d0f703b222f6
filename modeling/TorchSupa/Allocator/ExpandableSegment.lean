import TorchSupa.Allocator.Driver

/-!
`ExpandableSegment`: a reserved address range whose pages are backed by physical
handles on demand. Granting access to a mapped page (`setAccess`, the peers) does
not change which handle backs it and is left out.
-/

namespace TorchSupa.Allocator

open Outcome

/-- What a `SUmemGenericAllocationHandle` names: one physical allocation. -/
structure PhysicalHandle where
  id : Nat
  size : Nat
deriving DecidableEq, Repr, Inhabited

structure Mapping where
  addr : Nat
  size : Nat
  handle : PhysicalHandle
deriving DecidableEq, Repr, Inhabited

structure DeviceMemory where
  tick : Nat := 0
  nextHandle : Nat := 0
  liveHandles : List Nat := []
  mappings : List Mapping := []
  fds : List PhysicalHandle := []
deriving DecidableEq, Repr, Inhabited

structure Handle where
  handle : PhysicalHandle
  fd : Option Nat := none
deriving DecidableEq, Repr, Inhabited

structure SegmentRange where
  ptr : Nat
  size : Nat
deriving DecidableEq, Repr, Inhabited

structure ExpandableSegment where
  device : Nat
  stream : Stream
  ptr : Nat
  maxHandles : Nat
  segmentSize : Nat
  handles : List (Option Handle) := []
deriving DecidableEq, Repr, Inhabited

namespace ExpandableSegment

def numSegments (segmentSize size : Nat) : Nat := (size + segmentSize - 1) / segmentSize

def size (segment : ExpandableSegment) : Nat := segment.maxHandles * segment.segmentSize

def segmentLeft (segment : ExpandableSegment) (p : Nat) : Nat :=
  (p - segment.ptr) / segment.segmentSize

def segmentRight (segment : ExpandableSegment) (p : Nat) : Nat :=
  numSegments segment.segmentSize (p - segment.ptr)

def rangeFromHandles (segment : ExpandableSegment) (first last : Nat) : SegmentRange where
  ptr := segment.ptr + segment.segmentSize * first
  size := segment.segmentSize * (last - first)

def trimmed : List (Option Handle) → List (Option Handle)
  | [] => []
  | handle :: rest =>
    match handle, trimmed rest with
    | none, [] => []
    | handle, rest => handle :: rest

structure State where
  segment : ExpandableSegment
  memory : DeviceMemory
deriving DecidableEq, Repr, Inhabited

abbrev SegmentM := EStateM Exn State

def internalAssert (condition : Bool) : SegmentM Unit :=
  if condition then pure () else throw .internalAssert

def handleAt (index : Nat) : SegmentM Handle := do
  match ((← get).segment.handles[index]?).join with
  | some handle => pure handle
  | none => throw .standard

def setHandle (index : Nat) (handle : Option Handle) : SegmentM Unit :=
  modify fun state =>
    { state with
      segment := { state.segment with handles := state.segment.handles.set index handle } }

def trimHandles : SegmentM Unit :=
  modify fun state =>
    { state with segment := { state.segment with handles := trimmed state.segment.handles } }

/-- `none` is `SUPA_ERROR_OUT_OF_MEMORY`. -/
def suMemCreate (driver : Driver) (size : Nat) : SegmentM (Option PhysicalHandle) := do
  let memory := (← get).memory
  if driver.memCreate memory.tick then
    let handle : PhysicalHandle := ⟨memory.nextHandle, size⟩
    modify fun state =>
      { state with
        memory := { memory with
          tick := memory.tick + 1
          nextHandle := memory.nextHandle + 1
          liveHandles := handle.id :: memory.liveHandles } }
    pure (some handle)
  else
    modify fun state => { state with memory := { memory with tick := memory.tick + 1 } }
    pure none

def suMemRelease (handle : PhysicalHandle) : SegmentM Unit :=
  modify fun state =>
    { state with
      memory := { state.memory with liveHandles := state.memory.liveHandles.erase handle.id } }

def suMemMap (driver : Driver) (addr size : Nat) (handle : PhysicalHandle) : SegmentM Unit := do
  if size ≤ handle.size || driver.mapsBeyondHandle then
    modify fun state =>
      { state with
        memory := { state.memory with
          mappings := ⟨addr, size, handle⟩ :: state.memory.mappings } }
  else
    throw .driver

def suMemUnmap (addr size : Nat) : SegmentM Unit :=
  modify fun state =>
    { state with
      memory := { state.memory with
        mappings := state.memory.mappings.filter fun mapping =>
          !(mapping.addr == addr && mapping.size == size) } }

def releaseCreated (created : List Nat) : SegmentM Unit :=
  forEach (fun index => do
    let handle ← handleAt index
    setHandle index none
    suMemRelease handle.handle) created

/-- The loop of `map` over the pages that still need a handle; false is out of memory. -/
def createHandles (driver : Driver) (first : Nat) : List Nat → SegmentM Bool
  | [] => pure true
  | index :: rest => do
      let segment := (← get).segment
      match segment.handles[index]? with
      | none => throw .standard
      | some (some _) => throw .internalAssert
      | some none =>
        match ← suMemCreate driver segment.segmentSize with
        | none => do
            releaseCreated (List.range' first (index - first))
            trimHandles
            pure false
        | some handle => do
            setHandle index (some { handle })
            createHandles driver first rest

def mapAndSetAccess (driver : Driver) (first last : Nat) : SegmentM Unit :=
  forEach (fun index => do
    let segment := (← get).segment
    let handle ← handleAt index
    suMemMap driver (segment.ptr + index * segment.segmentSize) segment.segmentSize handle.handle)
    (List.range' first (last - first))

def map (driver : Driver) (range : SegmentRange) : SegmentM SegmentRange := do
  let segment := (← get).segment
  let first := segment.segmentLeft range.ptr
  let last := segment.segmentRight (range.ptr + range.size)
  internalAssert (segment.ptr + first * segment.segmentSize == range.ptr)
  if first = last then
    pure (segment.rangeFromHandles first last)
  else do
    modify fun state =>
      { state with
        segment := { segment with
          handles := segment.handles ++ List.replicate (last - segment.handles.length) none } }
    if ← createHandles driver first (List.range' first (last - first)) then
      mapAndSetAccess driver first last
      pure (segment.rangeFromHandles first last)
    else
      pure (segment.rangeFromHandles first first)

def unmapHandles (first last : Nat) : SegmentM Unit := do
  forEach (fun index => do
    let segment := (← get).segment
    let handle ← handleAt index
    setHandle index none
    suMemUnmap (segment.ptr + segment.segmentSize * index) segment.segmentSize
    suMemRelease handle.handle)
    (List.range' first (last - first))
  trimHandles

def unmap (range : SegmentRange) : SegmentM SegmentRange := do
  let segment := (← get).segment
  let first := segment.segmentRight range.ptr
  let last := segment.segmentLeft (range.ptr + range.size)
  if first ≥ last then
    pure ⟨range.ptr, 0⟩
  else do
    unmapHandles first last
    pure (segment.rangeFromHandles first last)

def allocatedRangesFrom (handles : List (Option Handle)) :
    (fuel index start : Nat) → List (Nat × Nat)
  | 0, _, _ => []
  | fuel + 1, index, start =>
    let here := ((handles[index]?).join).isSome
    let begins := here && (index == 0 || !((handles[index - 1]?).join).isSome)
    let ends := here && (index + 1 == handles.length || !((handles[index + 1]?).join).isSome)
    let start := if begins then index else start
    if ends then (start, index + 1) :: allocatedRangesFrom handles fuel (index + 1) start
    else allocatedRangesFrom handles fuel (index + 1) start

def allocatedRanges (segment : ExpandableSegment) : List (Nat × Nat) :=
  allocatedRangesFrom segment.handles segment.handles.length 0 0

def forEachAllocatedRange (fn : Nat → Nat → SegmentM Unit) : SegmentM Unit := do
  forEach (fun range => fn range.1 range.2) (allocatedRanges (← get).segment)

def destroy : SegmentM Unit := forEachAllocatedRange unmapHandles

end ExpandableSegment

end TorchSupa.Allocator
