import TorchSupa.Allocator.Checkpoint

/-!
Sharing memory with another process: what the side that owns a segment hands out.
-/

namespace TorchSupa.Allocator

open Outcome

/-- What `share` writes to its stream: the `ShareHeader` without the process id, and
the file descriptors of that process. -/
structure SharedRange where
  segmentSize : Nat
  numHandles : Nat
  fds : List Nat
deriving DecidableEq, Repr, Inhabited

namespace ExpandableSegment

def suMemExport (handle : PhysicalHandle) : SegmentM Nat := do
  let fd := (← get).memory.fds.length
  modify fun state =>
    { state with memory := { state.memory with fds := state.memory.fds ++ [handle] } }
  pure fd

def shareHandles : List Nat → SegmentM (List Nat)
  | [] => pure []
  | index :: rest => do
      let handle ← handleAt index
      let fd ←
        match handle.fd with
        | some fd => pure fd
        | none => do
            let fd ← suMemExport handle.handle
            setHandle index (some { handle with fd := some fd })
            pure fd
      let fds ← shareHandles rest
      pure (fd :: fds)

def share (range : SegmentRange) : SegmentM (SegmentRange × SharedRange) := do
  let segment := (← get).segment
  let first := segment.segmentLeft range.ptr
  let last := segment.segmentRight (range.ptr + range.size)
  let fds ← shareHandles (List.range' first (last - first))
  pure (segment.rangeFromHandles first last,
    { segmentSize := segment.segmentSize, numHandles := last - first, fds })

end ExpandableSegment

inductive SharedMemory
  | supaMalloc (base : Nat)
  | expandableSegment (range : SharedRange)
deriving DecidableEq, Repr, Inhabited

structure ShareableHandle where
  offset : Int
  handle : SharedMemory
deriving DecidableEq, Repr, Inhabited

def shareIpcHandle (id : BlockId) : M ShareableHandle := do
  let block ← deref id
  match block.expandableSegment with
  | none => do
      let base ← deref (← walkToHead ((← get).heap.fresh + 1) id)
      pure ⟨(block.ptr : Int) - base.ptr, .supaMalloc base.ptr⟩
  | some expandable => do
      let (fullRange, written) ←
        onSegment expandable (ExpandableSegment.share ⟨block.ptr, block.size⟩)
      pure ⟨(block.ptr : Int) - fullRange.ptr, .expandableSegment written⟩

end TorchSupa.Allocator
