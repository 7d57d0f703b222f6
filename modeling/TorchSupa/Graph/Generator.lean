import TorchSupa.Graph.World

/-!
`SUPAGeneratorImpl.cpp`: the two offset counters of a generator state.
-/

namespace TorchSupa.Graph

open Outcome Allocator

def roundUp (increment : Nat) : Nat := (increment + 3) % 2 ^ 64 / 4 * 4

def increase (generator : GeneratorId) (increment : Nat) : GraphM Unit := do
  let rounded := roundUp increment
  let status ← currentStreamCaptureStatus
  let self ← getGenerator generator
  if status ≠ .none then do
    ensure self.capturing
      (.torchCheck "Attempt to increase offset for a SUPA generator not in capture mode.")
    ensure (self.offsetIntragraph % 4 == 0) .internalAssert
    -- the subtraction is on uint64_t: it wraps when the increment exceeds the uint32_t maximum
    ensure (self.offsetIntragraph ≤ wrappingSub uint32Max rounded) .internalAssert
    updateGenerator generator fun self =>
      { self with offsetIntragraph := (self.offsetIntragraph + rounded) % 2 ^ 32 }
  else do
    ensure (!self.capturing)
      (.torchCheck "Offset increment outside graph capture encountered unexpectedly.")
    ensure (self.philoxOffsetPerThread % 4 == 0) .internalAssert
    updateGenerator generator fun self =>
      { self with
        philoxOffsetPerThread := (self.philoxOffsetPerThread + rounded) % 2 ^ 64
        spent := self.spent + (increment + 3) / 4 * 4 }

def GeneratorState.registerGraph (generator : GeneratorId) (graph : GraphId) : GraphM Unit := do
  assertNotCapturing "Cannot register the state during capturing stage."
  let self ← getGenerator generator
  whenever self.registeredGraphs.isEmpty do
    supaCheck (.empty generator)
    updateGenerator generator fun self =>
      { self with seedExtragraph := some 0, offsetExtragraph := some 0 }
  updateGenerator generator fun self =>
    { self with registeredGraphs := self.registeredGraphs.insert graph }

def GeneratorState.unregisterGraph (generator : GeneratorId) (graph : GraphId) : GraphM Unit := do
  let self ← getGenerator generator
  ensure (self.registeredGraphs.contains graph)
    (.torchCheck "The graph should be registered to the state")
  updateGenerator generator fun self =>
    { self with registeredGraphs := self.registeredGraphs.erase graph }
  whenever (self.registeredGraphs.erase graph).isEmpty do
    updateGenerator generator fun self =>
      { self with seedExtragraph := none, offsetExtragraph := none }

def capturePrologue (generator : GeneratorId) : GraphM Unit := do
  updateGenerator generator fun self => { self with capturing := true, offsetIntragraph := 0 }
  fillSeed generator (← getGenerator generator).seed
  fillOffset generator 0

def captureEpilogue (generator : GeneratorId) : GraphM Nat := do
  updateGenerator generator fun self => { self with capturing := false }
  pure (← getGenerator generator).offsetIntragraph

def replayPrologue (generator : GeneratorId) (wholegraphIncrement : Nat) : GraphM Unit := do
  assertNotCapturing "Cannot prepare for replay during capturing stage."
  fillSeed generator (← getGenerator generator).seed
  fillOffset generator (← getGenerator generator).philoxOffsetPerThread
  increase generator wholegraphIncrement

inductive PhiloxSupaState
  | value (seed offset : Nat)
  | captured (generator : GeneratorId) (offsetIntragraph : Nat)
deriving DecidableEq, Repr

def philoxSupaState (generator : GeneratorId) (increment : Nat) : GraphM PhiloxSupaState := do
  let status ← currentStreamCaptureStatus
  let self ← getGenerator generator
  if status ≠ .none then do
    increase generator increment
    pure (.captured generator self.offsetIntragraph)
  else do
    increase generator increment
    pure (.value self.seed self.philoxOffsetPerThread)

def philoxEngineInputs (generator : GeneratorId) (increment : Nat) : GraphM (Nat × Nat) := do
  assertNotCapturing "Cannot call SUPAGeneratorImpl::philox_engine_inputs"
  let self ← getGenerator generator
  increase generator increment
  pure (self.seed, self.philoxOffsetPerThread)

/-- A kernel that draws `increment` numbers in each thread is launched on the current stream:
it runs, or it becomes a node of the graph that the stream is being captured into. -/
def launchKernel (generator : GeneratorId) (increment : Nat) : PhiloxSupaState → GraphM Unit
  | .value _ offset =>
    modify fun world =>
      { world with draws := ⟨generator, offset, increment⟩ :: world.draws }
  | .captured generator offsetIntragraph =>
    modify fun world =>
      match world.captures world.currentStream with
      | none => world
      | some capture =>
        { world with
          captures := Function.update world.captures world.currentStream (some
            { capture with nodes := ⟨generator, offsetIntragraph, increment⟩ :: capture.nodes }) }

end TorchSupa.Graph
