import TorchSupa.Graph.Generator

/-!
`SUPAGraph.cpp`. Warnings are left out.
-/

namespace TorchSupa.Graph

open Outcome Allocator

def newSUPAGraph : GraphM Unit :=
  modify fun world =>
    { world with graphs := world.graphs.push { captureStream := world.currentStream } }

def setEntry (entries : List (GeneratorId × Nat)) (key value : Nat) : List (GeneratorId × Nat) :=
  if entries.any (·.1 == key) then
    entries.map fun entry => if entry.1 = key then (key, value) else entry
  else entries ++ [(key, value)]

open List

theorem keys_setEntry (entries : List (GeneratorId × Nat)) (key value : Nat) :
    (setEntry entries key value).map (·.1) =
      if key ∈ entries.map (·.1) then entries.map (·.1) else entries.map (·.1) ++ [key] := by
  have found : (entries.any (·.1 == key) = true) ↔ key ∈ entries.map (·.1) := by
    simp
  unfold setEntry
  by_cases member : key ∈ entries.map (·.1)
  · rw [if_pos (found.mpr member), if_pos member, map_map]
    apply map_congr_left
    intro entry _
    by_cases same : entry.1 = key
    · simp [same]
    · simp [same]
  · rw [if_neg (fun any => member (found.mp any)), if_neg member]
    simp

theorem mem_setEntry (entries : List (GeneratorId × Nat)) (key value : Nat) :
    (key, value) ∈ setEntry entries key value := by
  unfold setEntry
  split
  · rename_i found
    obtain ⟨entry, member, same⟩ := any_eq_true.mp found
    refine mem_map.mpr ⟨entry, member, ?_⟩
    rw [if_pos (by simpa using same)]
  · simp

theorem mem_setEntry_of_ne {entries : List (GeneratorId × Nat)} {entry : GeneratorId × Nat}
    (key value : Nat) (member : entry ∈ entries) (other : entry.1 ≠ key) :
    entry ∈ setEntry entries key value := by
  unfold setEntry
  split
  · exact mem_map.mpr ⟨entry, member, if_neg other⟩
  · exact mem_append_left _ member

def registerGeneratorState (self : GraphId) (generator : GeneratorId) : GraphM Unit := do
  updateGraph self fun graph =>
    { graph with capturedGeneratorStates := setEntry graph.capturedGeneratorStates generator 0 }
  GeneratorState.registerGraph generator self

/-- `supaStreamBeginCapture`: an error if the stream is being captured. -/
def streamBeginCapture (self : GraphId) (stream : Stream) : GraphM Unit := do
  supaCheck .streamBeginCapture
  let world ← get
  ensure (world.captures stream).isNone .driver
  let generators := (← getGraph self).capturedGeneratorStates.map (·.1)
  let valid := world.answers .captureStaysActive
  setCapture stream (some { id := world.nextCaptureId, valid, owner := self, generators })
  modify fun world => { world with nextCaptureId := world.nextCaptureId + 1 }

def streamGetCaptureInfo (stream : Stream) : GraphM (CaptureStatus × Nat) := do
  supaCheck .streamGetCaptureInfo
  match (← get).captures stream with
  | some capture => pure (capture.status, capture.id)
  | none => pure (.none, 0)

/-- `supaStreamEndCapture`: ends the capture of the stream, if there is one, with a graph
unless the capture was invalidated. The graph may be null. -/
def streamEndCapture (stream : Stream) : GraphM (Option (List Node)) := do
  supaCheck .streamEndCapture
  match (← get).captures stream with
  | none => throw .driver
  | some capture => do
      setCapture stream none
      ensure capture.valid .driver
      pure (if (← get).answers .graphMade then some capture.nodes else none)

def graphPoolHandle : GraphM MempoolId := do
  let uuid := (← get).uuid
  modify fun world => { world with uuid := uuid + 1 }
  pure (uuid, 0)

def beginAllocateToPool (self : GraphId) (device : Option DeviceIndex) (mempoolId : MempoolId)
    (accepts : Thread → Stream → Bool) : GraphM Unit :=
  onAllocator self device mempoolId fun mempoolId =>
    Allocator.beginAllocateToPool mempoolId { refersTo := some self, accepts }

/-- The `mempool_id_` of a capture: the pool to share, or one of its own. -/
def chooseMempool (self : GraphId) (pool : MempoolId) : GraphM Unit :=
  if pool.1 != 0 || pool.2 != 0 then do
    ensure (!(pool.1 != 0 && pool.2 != 0)) .internalAssert
    updateGraph self fun graph => { graph with mempoolId := pool }
  else do
    let mempoolId ← graphPoolHandle
    updateGraph self fun graph => { graph with mempoolId }
    ensure (mempoolId.1 > 0) .internalAssert

def captureBegin (self : GraphId) (pool : MempoolId) (accepts : Thread → Stream → Bool) :
    GraphM Unit := do
  modify fun world => { world with cleared := world.cleared.filter (· != self) }
  ensure (!(← getGraph self).hasGraphExec)
    (.torchCheck "This SUPAGraph instance already owns a captured graph.")
  let world ← get
  registerGeneratorState self (world.defaultGenerator world.currentDevice)
  forEach (fun entry => capturePrologue entry.1) (← getGraph self).capturedGeneratorStates
  let stream := world.currentStream
  ensure (stream != 0) (.torchCheck "SUPA graphs must be captured on a non-default stream.")
  updateGraph self fun graph =>
    { graph with captureStream := stream, captureDev := some world.currentDevice }
  chooseMempool self pool
  let graph ← getGraph self
  beginAllocateToPool self graph.captureDev graph.mempoolId accepts
  streamBeginCapture self graph.captureStream
  let (status, captureId) ← streamGetCaptureInfo stream
  updateGraph self fun graph => { graph with captureId }
  ensure (status == .active) .internalAssert

def captureEnd (self : GraphId) : GraphM Unit := do
  let graph ← getGraph self
  ensure ((← get).currentStream == graph.captureStream)
    (.torchCheck "Capture must end on the same stream it began on.")
  let captured ← streamEndCapture graph.captureStream
  updateGraph self fun graph => { graph with graph := captured }
  onAllocator self graph.captureDev graph.mempoolId Allocator.endAllocateToPool
  ensure captured.isSome (.torchCheck "Invalid capture.")
  updateGraph self fun graph => { graph with hasGraph := true }
  supaCheck .graphInstantiate
  updateGraph self fun graph => { graph with graphExec := captured.getD [], hasGraphExec := true }
  forEach (fun entry => do
    let wholegraphIncrement ← captureEpilogue entry.1
    updateGraph self fun graph =>
      { graph with
        capturedGeneratorStates :=
          setEntry graph.capturedGeneratorStates entry.1 wholegraphIncrement })
    graph.capturedGeneratorStates
  supaCheck .graphGetNodes
  whenever (!(← get).graphsDebug) do
    supaCheck .graphDestroy
    updateGraph self fun graph => { graph with hasGraph := false }

/-- `supaGraphLaunch`: every node draws from the offset its generator has now. -/
def graphLaunch (nodes : List Node) : GraphM Unit := do
  supaCheck .graphLaunch
  modify fun world =>
    { world with
      draws := nodes.map (fun node =>
        ⟨node.generator,
          ((world.generators node.generator).offsetExtragraph.getD 0) + node.offsetIntragraph,
          node.increment⟩) ++ world.draws }

def replay (self : GraphId) : GraphM Unit := do
  let graph ← getGraph self
  ensure graph.hasGraphExec
    (.torchCheck "Called SUPAGraph::replay without a preceding successful capture.")
  forEach (fun entry => replayPrologue entry.1 entry.2) graph.capturedGeneratorStates
  graphLaunch graph.graphExec

def enableDebugMode : GraphM Unit := modify fun world => { world with graphsDebug := true }

def debugDump (self : GraphId) : GraphM Unit := do
  let graph ← getGraph self
  whenever ((← get).graphsDebug && graph.hasGraph) do
    supaCheck .graphDestroy
    updateGraph self fun graph => { graph with hasGraph := false }

def reset (self : GraphId) : GraphM Unit := do
  let graph ← getGraph self
  whenever (graph.hasGraph || graph.hasGraphExec)
    (onAllocator self graph.captureDev graph.mempoolId Allocator.releasePool)
  whenever graph.hasGraph (updateGraph self fun graph => { graph with hasGraph := false })
  whenever graph.hasGraphExec (updateGraph self fun graph => { graph with hasGraphExec := false })
  modify fun world => { world with cleared := self :: world.cleared }

def destroySUPAGraph (self : GraphId) : GraphM Unit := do
  forEach (fun entry => GeneratorState.unregisterGraph entry.1 self)
    (← getGraph self).capturedGeneratorStates
  reset self
  modify fun world => { world with graphs := world.graphs.erase self }

end TorchSupa.Graph
