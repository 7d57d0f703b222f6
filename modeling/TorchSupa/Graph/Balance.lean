import TorchSupa.Graph.Pools
import TorchSupa.Graph.Draws
import Mathlib.Algebra.Order.BigOperators.Group.Finset

/-!
The references of graphs to pools: a graph holds one while it is being captured and while
it owns a graph, and it is the graph that the filter of its capture refers to.
-/

namespace TorchSupa.Graph

open Outcome Allocator Function

abbrev PoolKey := DeviceIndex × MempoolId

def ones (held : Option PoolKey) (key : PoolKey) : Int := if held = some key then 1 else 0

structure Balanced (holds : GraphId → Option PoolKey) (world : World) : Prop where
  contribution : ∀ id key, world.contribution id key = ones (holds id) key
  total : ∀ device mempoolId, useCount (world.allocators device) mempoolId =
    ∑ id ∈ Finset.range world.graphs.fresh, ones (holds id) (device, mempoolId)
  pools : ∀ device, PoolsSound (world.allocators device)
  holder : ∀ id device mempoolId, holds id = some (device, mempoolId) →
    ∃ graph, world.graphs.get? id = some graph ∧ graph.captureDev = some device ∧
      device < world.deviceCount ∧ graph.mempoolId = mempoolId ∧
      (graph.hasGraph = true ∨ graph.hasGraphExec = true ∨
        ∃ capture, world.captures graph.captureStream = some capture ∧ capture.owner = id)
  owns : ∀ id graph, world.graphs.get? id = some graph →
    graph.hasGraph = true ∨ graph.hasGraphExec = true → (holds id).isSome = true
  recording : ∀ stream capture, world.captures stream = some capture →
    ∃ graph device, world.graphs.get? capture.owner = some graph ∧
      holds capture.owner = some (device, graph.mempoolId) ∧ graph.hasGraph = false ∧
      graph.hasGraphExec = false ∧ graph.captureStream = stream ∧
      ∃ filter, (graph.mempoolId, filter) ∈ (world.allocators device).capturesUnderway ∧
        filter.refersTo = some capture.owner
  filters : ∀ device, ∀ entry ∈ (world.allocators device).capturesUnderway,
    ∃ id graph capture, entry.2.refersTo = some id ∧ world.graphs.get? id = some graph ∧
      world.captures graph.captureStream = some capture ∧ capture.owner = id ∧
      graph.captureDev = some device ∧ graph.mempoolId = entry.1
  distinct : ∀ device, ((world.allocators device).capturesUnderway.map (·.1)).Nodup
  cleared : ∀ id ∈ world.cleared, holds id = none

def SUPAGraph.core (graph : SUPAGraph) : Option DeviceIndex × MempoolId × Bool × Bool × Stream :=
  (graph.captureDev, graph.mempoolId, graph.hasGraph, graph.hasGraphExec, graph.captureStream)

structure SameReferences (world after : World) : Prop where
  contribution : after.contribution = world.contribution
  allocators : after.allocators = world.allocators
  deviceCount : after.deviceCount = world.deviceCount
  fresh : after.graphs.fresh = world.graphs.fresh
  cores : ∀ id, (after.graphs.get? id).map SUPAGraph.core =
    (world.graphs.get? id).map SUPAGraph.core
  owners : ∀ stream, (after.captures stream).map (·.owner) =
    (world.captures stream).map (·.owner)
  cleared : ∀ id ∈ after.cleared, id ∈ world.cleared

section Balance

variable {holds : GraphId → Option PoolKey} {world after : World}

theorem SameReferences.refl (world : World) : SameReferences world world where
  contribution := rfl
  allocators := rfl
  deviceCount := rfl
  fresh := rfl
  cores _ := rfl
  owners _ := rfl
  cleared _ member := member

theorem SameReferences.trans {last : World} (first : SameReferences world after)
    (second : SameReferences after last) : SameReferences world last where
  contribution := second.contribution.trans first.contribution
  allocators := second.allocators.trans first.allocators
  deviceCount := second.deviceCount.trans first.deviceCount
  fresh := second.fresh.trans first.fresh
  cores id := (second.cores id).trans (first.cores id)
  owners stream := (second.owners stream).trans (first.owners stream)
  cleared id member := first.cleared id (second.cleared id member)

open Option

section

variable (same : SameReferences world after)
include same

theorem SameReferences.graph {id : GraphId} {graph : SUPAGraph}
    (found : world.graphs.get? id = some graph) :
    ∃ later, after.graphs.get? id = some later ∧ later.core = graph.core := by
  have core := same.cores id
  rw [found] at core
  obtain ⟨later, there, equal⟩ := map_eq_some_iff.mp core
  exact ⟨later, there, equal⟩

theorem SameReferences.graph_before {id : GraphId}
    {graph : SUPAGraph} (found : after.graphs.get? id = some graph) :
    ∃ earlier, world.graphs.get? id = some earlier ∧ earlier.core = graph.core := by
  have core := same.cores id
  rw [found] at core
  obtain ⟨earlier, there, equal⟩ := map_eq_some_iff.mp core.symm
  exact ⟨earlier, there, equal⟩

theorem SameReferences.capture {stream : Stream}
    {capture : Capture} (there : world.captures stream = some capture) :
    ∃ later, after.captures stream = some later ∧ later.owner = capture.owner := by
  have owner := same.owners stream
  rw [there] at owner
  obtain ⟨later, found, equal⟩ := map_eq_some_iff.mp owner
  exact ⟨later, found, equal⟩

theorem SameReferences.capture_before {stream : Stream}
    {capture : Capture} (there : after.captures stream = some capture) :
    ∃ earlier, world.captures stream = some earlier ∧ earlier.owner = capture.owner := by
  have owner := same.owners stream
  rw [there] at owner
  obtain ⟨earlier, found, equal⟩ := map_eq_some_iff.mp owner.symm
  exact ⟨earlier, found, equal⟩

end

theorem core_eq {first second : SUPAGraph} (same : first.core = second.core) :
    first.captureDev = second.captureDev ∧ first.mempoolId = second.mempoolId ∧
      first.hasGraph = second.hasGraph ∧ first.hasGraphExec = second.hasGraphExec ∧
      first.captureStream = second.captureStream := by
  simpa [SUPAGraph.core] using same

section

variable (balanced : Balanced holds world)
include balanced

theorem Balanced.same (same : SameReferences world after) : Balanced holds after where
  contribution := by rw [same.contribution]; exact balanced.contribution
  total := by rw [same.allocators, same.fresh]; exact balanced.total
  pools := by rw [same.allocators]; exact balanced.pools
  holder := by
    rw [same.deviceCount]
    intro id device mempoolId held
    obtain ⟨graph, found, dev, valid, mempool, uses⟩ := balanced.holder id device mempoolId held
    obtain ⟨later, there, core⟩ := same.graph found
    obtain ⟨sameDev, sameMempool, sameGraph, sameExec, sameStream⟩ := core_eq core
    refine ⟨later, there, sameDev.trans dev, valid, sameMempool.trans mempool, ?_⟩
    rw [sameGraph, sameExec, sameStream]
    refine uses.imp_right (Or.imp_right ?_)
    rintro ⟨capture, open', owner⟩
    obtain ⟨second, open'', owner'⟩ := same.capture open'
    exact ⟨second, open'', owner'.trans owner⟩
  owns id graph found flags := by
    obtain ⟨earlier, there, core⟩ := same.graph_before found
    obtain ⟨_, _, sameGraph, sameExec, _⟩ := core_eq core
    rw [← sameGraph, ← sameExec] at flags
    exact balanced.owns id earlier there flags
  recording := by
    rw [same.allocators]
    intro stream capture open'
    obtain ⟨earlier, open'', owner⟩ := same.capture_before open'
    obtain ⟨graph, device, found, held, noGraph, noExec, onStream, filter⟩ :=
      balanced.recording stream earlier open''
    obtain ⟨later, there, core⟩ := same.graph found
    obtain ⟨_, sameMempool, sameGraph, sameExec, sameStream⟩ := core_eq core
    rw [← sameMempool] at held filter
    rw [← owner]
    exact ⟨later, device, there, held, sameGraph.trans noGraph, sameExec.trans noExec,
      sameStream.trans onStream, filter⟩
  filters := by
    rw [same.allocators]
    intro device entry member
    obtain ⟨id, graph, capture, refers, found, open', owner, dev, mempool⟩ :=
      balanced.filters device entry member
    obtain ⟨later, there, core⟩ := same.graph found
    obtain ⟨sameDev, sameMempool, _, _, sameStream⟩ := core_eq core
    obtain ⟨second, open'', owner'⟩ := same.capture open'
    refine ⟨id, later, second, refers, there, ?_, owner'.trans owner, sameDev.trans dev,
      sameMempool.trans mempool⟩
    rw [sameStream]
    exact open''
  distinct := by rw [same.allocators]; exact balanced.distinct
  cleared id member := balanced.cleared id (same.cleared id member)

theorem Balanced.notRecording {id : GraphId}
    (none' : holds id = none) (stream : Stream) (capture : Capture)
    (open' : world.captures stream = some capture) : capture.owner ≠ id := by
  obtain ⟨_, _, _, held, _⟩ := balanced.recording stream capture open'
  intro same
  rw [same, none'] at held
  simp at held

theorem Balanced.holdsNone {id : GraphId} (flags : ∀ graph, world.graphs.get? id = some graph →
      graph.hasGraph = false ∧ graph.hasGraphExec = false)
    (idle : ∀ stream capture, world.captures stream = some capture → capture.owner ≠ id) :
    holds id = none := by
  cases held : holds id with
  | none => rfl
  | some key =>
    obtain ⟨graph, found, _, _, _, uses⟩ := balanced.holder id key.1 key.2 held
    obtain ⟨noGraph, noExec⟩ := flags graph found
    rcases uses with owned | owned | ⟨capture, open', owner⟩
    · rw [noGraph] at owned
      exact absurd owned Bool.false_ne_true
    · rw [noExec] at owned
      exact absurd owned Bool.false_ne_true
    · exact absurd owner (idle _ capture open')

theorem Balanced.clear {id : GraphId} (none' : holds id = none) :
    (∀ key, world.contribution id key = 0) ∧ ∀ device,
      ∀ entry ∈ (world.allocators device).capturesUnderway, entry.2.refersTo ≠ some id := by
  refine ⟨fun key => ?_, fun device entry member refers => ?_⟩
  · rw [balanced.contribution, none']
    rfl
  · obtain ⟨other, graph, capture, named, _, open', owner, _⟩ :=
      balanced.filters device entry member
    rw [refers] at named
    rw [← some.inj named] at owner
    exact balanced.notRecording none' _ capture open' owner

theorem Balanced.updateIdle {self : GraphId}
    (none' : holds self = none) (change : SUPAGraph → SUPAGraph)
    (flags : ∀ graph, (change graph).hasGraph = graph.hasGraph ∧
      (change graph).hasGraphExec = graph.hasGraphExec) :
    Balanced holds { world with graphs := world.graphs.modify self change } := by
  have elsewhere : ∀ id, id ≠ self →
      (world.graphs.modify self change).get? id = world.graphs.get? id :=
    fun _ other => Store.get?_modify_of_ne _ other change
  have unheld : ∀ id key, holds id = some key → id ≠ self := by
    intro id key held same
    rw [same, none'] at held
    simp at held
  refine { balanced with total := ?_, holder := ?_, owns := ?_, recording := ?_, filters := ?_ }
  · simpa using balanced.total
  · intro id device mempoolId held
    rw [elsewhere id (unheld id _ held)]
    exact balanced.holder id device mempoolId held
  · intro id graph found owned
    rcases Store.of_get?_modify found with ⟨_, before, there, rfl⟩ | ⟨_, there⟩
    · rw [(flags before).1, (flags before).2] at owned
      exact balanced.owns id before there owned
    · exact balanced.owns id graph there owned
  · intro stream capture open'
    rw [elsewhere _ (balanced.notRecording none' stream capture open')]
    exact balanced.recording stream capture open'
  · intro device entry member
    obtain ⟨id, graph, capture, refers, found, open', owner, rest⟩ :=
      balanced.filters device entry member
    refine ⟨id, graph, capture, refers, ?_, open', owner, rest⟩
    rw [elsewhere id (owner ▸ balanced.notRecording none' _ capture open')]
    exact found

end

theorem sum_hold (holds : GraphId → Option PoolKey) {self count : Nat} (bound : self < count)
    (value : Option PoolKey) (key : PoolKey) :
    ∑ id ∈ Finset.range count, ones (Function.update holds self value id) key =
      ∑ id ∈ Finset.range count, ones (holds id) key + (ones value key - ones (holds self) key) := by
  have member := Finset.mem_range.mpr bound
  rw [← Finset.add_sum_erase _ _ member, ← Finset.add_sum_erase _ (fun id => ones (holds id) key) member]
  have rest : ∑ id ∈ (Finset.range count).erase self, ones (Function.update holds self value id) key =
      ∑ id ∈ (Finset.range count).erase self, ones (holds id) key := by
    refine Finset.sum_congr rfl fun id inRest => ?_
    rw [update_of_ne (Finset.ne_of_mem_erase inRest)]
  rw [rest, update_self]
  ring

theorem ones_nonneg (held : Option PoolKey) (key : PoolKey) : 0 ≤ ones held key := by
  unfold ones
  split <;> decide

variable {self : GraphId} {device : DeviceIndex} {mempoolId : MempoolId}

theorem Balanced.used (balanced : Balanced holds world) (held : holds self = some (device, mempoolId)) :
    1 ≤ useCount (world.allocators device) mempoolId := by
  obtain ⟨graph, found, _⟩ := balanced.holder self device mempoolId held
  have member := Finset.mem_range.mpr (Store.lt_fresh found)
  rw [balanced.total, ← Finset.add_sum_erase _ _ member, held]
  have rest : 0 ≤ ∑ id ∈ (Finset.range world.graphs.fresh).erase self,
      ones (holds id) (device, mempoolId) :=
    Finset.sum_nonneg fun id _ => ones_nonneg _ _
  have one : ones (some (device, mempoolId)) (device, mempoolId) = 1 := if_pos rfl
  rw [one]
  omega

theorem Balanced.recount (balanced : Balanced holds world) {allocator : DeviceCachingAllocator}
    {change : Int}
    (alive : self < world.graphs.fresh) (value : Option PoolKey)
    (counted : Counted (world.allocators device) allocator mempoolId change)
    (here : ones value (device, mempoolId) = ones (holds self) (device, mempoolId) + change)
    (elsewhere : ∀ key, key ≠ (device, mempoolId) → ones value key = ones (holds self) key) :
    (∀ id key, (world.setAllocator self device mempoolId allocator).contribution id key =
      ones (Function.update holds self value id) key) ∧
    (∀ other name, useCount ((world.setAllocator self device mempoolId allocator).allocators other)
      name = ∑ id ∈ Finset.range world.graphs.fresh,
        ones (Function.update holds self value id) (other, name)) ∧
    ∀ other, PoolsSound ((world.setAllocator self device mempoolId allocator).allocators other) := by
  refine ⟨?_, ?_, ?_⟩
  · intro id key
    unfold World.setAllocator
    dsimp only
    by_cases same : id = self
    · subst same
      rw [update_self, update_self]
      by_cases pool : key = (device, mempoolId)
      · subst pool
        rw [update_self, balanced.contribution, here, counted.here]
        omega
      · rw [update_of_ne pool, balanced.contribution, elsewhere key pool]
    · rw [update_of_ne same, update_of_ne same]
      exact balanced.contribution id key
  · intro other name
    rw [sum_hold holds alive, ← balanced.total]
    unfold World.setAllocator
    dsimp only
    by_cases onDevice : other = device
    · subst onDevice
      rw [update_self]
      by_cases named : name = mempoolId
      · subst named
        rw [counted.here, here]
        omega
      · have apart : (other, name) ≠ (other, mempoolId) := fun equal => named (Prod.mk.inj equal).2
        rw [counted.others name named, elsewhere _ apart]
        omega
    · have apart : (other, name) ≠ (device, mempoolId) := fun equal => onDevice (Prod.mk.inj equal).1
      rw [update_of_ne onDevice, elsewhere _ apart]
      omega
  · intro other
    unfold World.setAllocator
    dsimp only
    by_cases onDevice : other = device
    · subst onDevice
      rw [update_self]
      exact counted.sound
    · rw [update_of_ne onDevice]
      exact balanced.pools other

end Balance

end TorchSupa.Graph
