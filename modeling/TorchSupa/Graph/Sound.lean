import TorchSupa.Graph.Machine
import TorchSupa.Logic.Ranges

/-!
The invariant that keeps the random draws of one generator state apart: the draws lie
below its offset, the nodes of a capture below its offset within the graph, and a replay
advances the offset by what its nodes need.
-/

namespace TorchSupa.Graph

open Outcome Allocator Ranges Function

def nodesOf (generator : GeneratorId) (nodes : List Node) : List (Nat × Nat) :=
  (nodes.filter (·.generator == generator)).map fun node => (node.offsetIntragraph, node.increment)

def drawsOf (generator : GeneratorId) (draws : List Draw) : List (Nat × Nat) :=
  (draws.filter (·.generator == generator)).map fun draw => (draw.start, draw.increment)

def SUPAGraph.generators (graph : SUPAGraph) : List GeneratorId :=
  graph.capturedGeneratorStates.map (·.1)

def Advances (generator : GeneratorId) (graph : SUPAGraph) : Prop :=
  nodesOf generator graph.graphExec = [] ∨
    ∃ whole, (generator, whole) ∈ graph.capturedGeneratorStates ∧ whole < 2 ^ 32 ∧ whole % 4 = 0 ∧
      Laid 4 (nodesOf generator graph.graphExec) whole

structure Sound (generator : GeneratorId) (world : World) : Prop where
  aligned : (world.generators generator).philoxOffsetPerThread % 4 = 0
  exact : (world.generators generator).spent < 2 ^ 64 →
    (world.generators generator).philoxOffsetPerThread = (world.generators generator).spent
  drawn : (world.generators generator).spent < 2 ^ 64 →
    Laid 4 (drawsOf generator world.draws) (world.generators generator).philoxOffsetPerThread
  intragraph : (world.generators generator).offsetIntragraph % 4 = 0 ∧
    (world.generators generator).offsetIntragraph < 2 ^ 32
  single : ∀ stream other capture second, world.captures stream = some capture →
    world.captures other = some second → generator ∈ capture.generators →
    generator ∈ second.generators → stream = other
  recording : ∀ stream capture, world.captures stream = some capture →
    generator ∈ capture.generators →
    Laid 4 (nodesOf generator capture.nodes) (world.generators generator).offsetIntragraph
  foreign : ∀ stream capture, world.captures stream = some capture →
    generator ∉ capture.generators → nodesOf generator capture.nodes = []
  registered : ∀ stream capture graph, world.captures stream = some capture →
    world.graphs.get? capture.owner = some graph → generator ∈ capture.generators →
    generator ∈ graph.generators
  owned : ∀ stream capture, world.captures stream = some capture →
    capture.owner < world.graphs.fresh
  keys : ∀ id graph, world.graphs.get? id = some graph → graph.generators.Nodup
  replayable : ∀ id graph, world.graphs.get? id = some graph → graph.hasGraphExec = true →
    Advances generator graph

def Idle (generator : GeneratorId) (world : World) : Prop :=
  ∀ stream capture, world.captures stream = some capture → generator ∉ capture.generators

def SUPAGraph.Refines (generator : GeneratorId) (after before : SUPAGraph) : Prop :=
  (after.generators.Nodup) ∧ (generator ∈ before.generators → generator ∈ after.generators) ∧
    (after.hasGraphExec = true → Advances generator after)

section Congruence

variable {generator : GeneratorId} {world after : World}

variable (sound : Sound generator world)
include sound

theorem Sound.unchanged (self : GraphId) (graph : SUPAGraph)
    (found : world.graphs.get? self = some graph) : graph.Refines generator graph :=
  ⟨sound.keys self graph found, fun member => member, sound.replayable self graph found⟩

theorem Sound.congr (offset : (after.generators generator).philoxOffsetPerThread =
      (world.generators generator).philoxOffsetPerThread)
    (spent : (after.generators generator).spent = (world.generators generator).spent)
    (intragraph : (after.generators generator).offsetIntragraph =
      (world.generators generator).offsetIntragraph)
    (draws : after.draws = world.draws) (captures : after.captures = world.captures)
    (fresh : world.graphs.fresh ≤ after.graphs.fresh)
    (graphs : ∀ id graph, after.graphs.get? id = some graph →
      world.graphs.get? id = none ∧ world.graphs.fresh ≤ id ∧ graph.generators.Nodup ∧
        graph.hasGraphExec = false ∨
      ∃ before, world.graphs.get? id = some before ∧ graph.Refines generator before) :
    Sound generator after where
  aligned := by rw [offset]; exact sound.aligned
  exact := by rw [offset, spent]; exact sound.exact
  drawn := by rw [offset, spent, draws]; exact sound.drawn
  intragraph := by rw [intragraph]; exact sound.intragraph
  single := by rw [captures]; exact sound.single
  recording := by rw [captures, intragraph]; exact sound.recording
  foreign := by rw [captures]; exact sound.foreign
  registered := by
    rw [captures]
    intro stream capture graph open' found member
    rcases graphs _ _ found with ⟨_, beyond, _⟩ | ⟨before, was, refines⟩
    · exact absurd (sound.owned stream capture open') (Nat.not_lt.mpr beyond)
    · exact refines.2.1 (sound.registered stream capture before open' was member)
  owned := by
    rw [captures]
    intro stream capture open'
    exact lt_of_lt_of_le (sound.owned stream capture open') fresh
  keys id graph found := by
    rcases graphs id graph found with ⟨_, _, nodup, _⟩ | ⟨_, _, nodup, _⟩
    · exact nodup
    · exact nodup
  replayable id graph found executable := by
    rcases graphs id graph found with ⟨_, _, _, none'⟩ | ⟨_, _, _, _, advances⟩
    · rw [none'] at executable
      exact absurd executable Bool.false_ne_true
    · exact advances executable

theorem Sound.outside
    (generators : after.generators = world.generators) (draws : after.draws = world.draws)
    (captures : after.captures = world.captures) (graphs : after.graphs = world.graphs) :
    Sound generator after := by
  refine sound.congr ?_ ?_ ?_ draws captures ?_ ?_
  · rw [generators]
  · rw [generators]
  · rw [generators]
  · rw [graphs]
  · rw [graphs]
    intro self graph found
    exact .inr ⟨graph, found, sound.unchanged self graph found⟩

theorem Sound.updateGenerator (target : GeneratorId) (change : GeneratorState → GeneratorState)
    (same : target = generator → ∀ self,
      (change self).philoxOffsetPerThread = self.philoxOffsetPerThread ∧
      (change self).spent = self.spent ∧ (change self).offsetIntragraph = self.offsetIntragraph) :
    Sound generator { world with
      generators := Function.update world.generators target (change (world.generators target)) } := by
  by_cases target' : target = generator
  · subst target'
    have kept := same rfl (world.generators target)
    refine sound.congr ?_ ?_ ?_ rfl rfl (le_refl _) ?_
    · simpa using kept.1
    · simpa using kept.2.1
    · simpa using kept.2.2
    · intro self graph found
      exact .inr ⟨graph, found, sound.unchanged self graph found⟩
  · have other : generator ≠ target := fun equal => target' equal.symm
    refine sound.congr ?_ ?_ ?_ rfl rfl (le_refl _) ?_
    · simp [update_of_ne other]
    · simp [update_of_ne other]
    · simp [update_of_ne other]
    · intro self graph found
      exact .inr ⟨graph, found, sound.unchanged self graph found⟩

theorem Sound.updateGraph (self : GraphId) (change : SUPAGraph → SUPAGraph)
    (refines : ∀ graph, world.graphs.get? self = some graph →
      (change graph).Refines generator graph) :
    Sound generator { world with graphs := world.graphs.modify self change } := by
  refine sound.congr rfl rfl rfl rfl rfl ?_ ?_
  · simp
  · intro id graph found
    rcases Store.of_get?_modify found with ⟨rfl, before, there, rfl⟩ | ⟨_, there⟩
    · exact .inr ⟨before, there, refines before there⟩
    · exact .inr ⟨graph, there, sound.unchanged id graph there⟩

theorem Sound.updateGraph_plain (self : GraphId) (change : SUPAGraph → SUPAGraph)
    (states : ∀ graph, (change graph).capturedGeneratorStates = graph.capturedGeneratorStates)
    (exec : ∀ graph, (change graph).graphExec = graph.graphExec)
    (owns : ∀ graph, (change graph).hasGraphExec = true → graph.hasGraphExec = true) :
    Sound generator { world with graphs := world.graphs.modify self change } := by
  refine sound.updateGraph self change ?_
  intro graph found
  unfold SUPAGraph.Refines SUPAGraph.generators Advances
  rw [states, exec]
  refine ⟨sound.keys self graph found, id, fun executable => ?_⟩
  exact sound.replayable self graph found (owns graph executable)

end Congruence

end TorchSupa.Graph
