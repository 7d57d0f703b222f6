import TorchSupa.Graph.Balance

/-!
A reference is taken when a capture begins, passes from the capture to the graph that it
yields, and is given back by a reset.
-/

namespace TorchSupa.Graph

open Outcome Allocator Function

section Transfers

variable {holds : GraphId → Option PoolKey} {world : World}

variable {self : GraphId} {graph : SUPAGraph} {device : DeviceIndex}
  {allocator : DeviceCachingAllocator}

open List Option

theorem Balanced.begun (balanced : Balanced holds world) {filter : CaptureFilter}
    (none' : holds self = none) (uncleared : self ∉ world.cleared)
    (found : world.graphs.get? self = some graph) (dev : graph.captureDev = some device)
    (valid : device < world.deviceCount) (quiet : world.captures graph.captureStream = none)
    (free : ∀ entry ∈ (world.allocators device).capturesUnderway, entry.1 ≠ graph.mempoolId)
    (counted : Counted (world.allocators device) allocator graph.mempoolId 1)
    (captures : allocator.capturesUnderway =
      (world.allocators device).capturesUnderway ++ [(graph.mempoolId, filter)])
    (refers : filter.refersTo = some self) (capture : Capture) (owner : capture.owner = self)
    (nextCaptureId : Nat) :
    Balanced (Function.update holds self (some (device, graph.mempoolId)))
      { world.setAllocator self device graph.mempoolId allocator with
        captures := Function.update world.captures graph.captureStream (some capture)
        nextCaptureId } := by
  have counts := balanced.recount (Store.lt_fresh found) (some (device, graph.mempoolId)) counted
    (by simp [ones, none']) (fun key apart => by simp [ones, none', apart.symm])
  have flags : graph.hasGraph = false ∧ graph.hasGraphExec = false := by
    have owned := balanced.owns self graph found
    rw [none'] at owned
    cases hasGraph : graph.hasGraph with
    | true => exact absurd (owned (.inl hasGraph)) (by simp)
    | false =>
      cases hasExec : graph.hasGraphExec with
      | true => exact absurd (owned (.inr hasExec)) (by simp)
      | false => exact ⟨rfl, rfl⟩
  have underway : ∀ other, ((world.setAllocator self device graph.mempoolId allocator).allocators
      other).capturesUnderway = if other = device then
        (world.allocators device).capturesUnderway ++ [(graph.mempoolId, filter)]
      else (world.allocators other).capturesUnderway := by
    intro other
    unfold World.setAllocator
    dsimp only
    split
    · rename_i same
      rw [same, update_self]
      exact captures
    · rename_i different
      rw [update_of_ne different]
  have streams : ∀ stream found, world.captures stream = some found →
      stream ≠ graph.captureStream := by
    intro stream found open' same
    rw [same, quiet] at open'
    simp at open'
  refine {
    contribution := counts.1
    total := counts.2.1
    pools := counts.2.2
    holder := ?_
    owns := ?_
    recording := ?_
    filters := ?_
    distinct := ?_
    cleared := ?_ }
  · intro id other mempoolId held
    by_cases same : id = self
    · subst same
      rw [update_self] at held
      obtain ⟨rfl, rfl⟩ := Prod.mk.inj (some.inj held)
      refine ⟨graph, found, dev, valid, rfl, .inr (.inr ⟨capture, ?_, owner⟩)⟩
      exact update_self ..
    · rw [update_of_ne same] at held
      obtain ⟨second, there, rest, valid', mempool, uses⟩ := balanced.holder id other mempoolId held
      refine ⟨second, there, rest, valid', mempool, uses.imp_right (Or.imp_right ?_)⟩
      rintro ⟨before, open', owns⟩
      refine ⟨before, ?_, owns⟩
      dsimp only
      rw [update_of_ne (streams _ _ open')]
      exact open'
  · intro id second there owned
    by_cases same : id = self
    · rw [same, update_self]
      rfl
    · rw [update_of_ne same]
      exact balanced.owns id second there owned
  · intro stream second open'
    dsimp only at open'
    by_cases here : stream = graph.captureStream
    · rw [here, update_self] at open'
      rw [← some.inj open', owner]
      refine ⟨graph, device, found, update_self .., flags.1, flags.2, here.symm, filter, ?_, refers⟩
      rw [underway, if_pos rfl]
      exact mem_append_right _ (mem_singleton.mpr rfl)
    · rw [update_of_ne here] at open'
      obtain ⟨before, other, there, held, noGraph, noExec, onStream, entry, member, names⟩ :=
        balanced.recording stream second open'
      refine ⟨before, other, there, ?_, noGraph, noExec, onStream, entry, ?_, names⟩
      · rw [update_of_ne (balanced.notRecording none' stream second open')]
        exact held
      · rw [underway]
        split
        · rename_i same
          rw [← same]
          exact mem_append_left _ member
        · exact member
  · intro other entry member
    have old : entry ∈ (world.allocators other).capturesUnderway →
        ∃ id second before, entry.2.refersTo = some id ∧ world.graphs.get? id = some second ∧
          Function.update world.captures graph.captureStream (some capture)
            second.captureStream = some before ∧ before.owner = id ∧
          second.captureDev = some other ∧ second.mempoolId = entry.1 := by
      intro was
      obtain ⟨id, second, before, names, there, open', rest⟩ := balanced.filters other entry was
      refine ⟨id, second, before, names, there, ?_, rest⟩
      rw [update_of_ne (streams _ _ open')]
      exact open'
    rw [underway] at member
    split at member
    · rename_i same
      rcases mem_append.mp member with was | new
      · exact old (same ▸ was)
      · rw [mem_singleton.mp new, same]
        exact ⟨self, graph, capture, refers, found, update_self .., owner, dev, rfl⟩
    · exact old member
  · intro other
    rw [underway]
    split
    · rw [map_append, map_singleton]
      refine nodup_append.mpr ⟨balanced.distinct device, nodup_singleton _, ?_⟩
      intro name member second single same
      obtain ⟨entry, inCaptures, rfl⟩ := mem_map.mp member
      exact free entry inCaptures (same.trans (mem_singleton.mp single))
    · exact balanced.distinct other
  · intro id member
    have other : id ≠ self := fun same => uncleared (same ▸ member)
    rw [update_of_ne other]
    exact balanced.cleared id member

theorem name_eraseP {entries : List (MempoolId × CaptureFilter)}
    (distinct : (entries.map (·.1)).Nodup) {mempoolId : MempoolId}
    {entry : MempoolId × CaptureFilter} (member : entry ∈ entries.eraseP (·.1 == mempoolId)) :
    entry.1 ≠ mempoolId := by
  induction entries with
  | nil => simp at member
  | cons first rest ih =>
    rw [map_cons, nodup_cons] at distinct
    by_cases here : first.1 = mempoolId
    · rw [eraseP_cons_of_pos (by simpa using here)] at member
      intro same
      exact distinct.1 (mem_map.mpr ⟨entry, member, same.trans here.symm⟩)
    · rw [eraseP_cons_of_neg (by simpa using here)] at member
      rcases mem_cons.mp member with same | later
      · rw [same]
        exact here
      · exact ih distinct.2 later

variable (balanced : Balanced holds world) (found : world.graphs.get? self = some graph)
include balanced found

theorem Balanced.ended {capture : Capture}
    (open' : world.captures graph.captureStream = some capture) (owner : capture.owner = self)
    (dev : graph.captureDev = some device)
    (counted : Counted (world.allocators device) allocator graph.mempoolId 0)
    (captures : allocator.capturesUnderway = (world.allocators device).capturesUnderway.eraseP
      (·.1 == graph.mempoolId)) (change : SUPAGraph → SUPAGraph)
    (changed : (change graph).core = (graph.captureDev, graph.mempoolId, true, false,
      graph.captureStream)) :
    Balanced holds { world.setAllocator self device graph.mempoolId allocator with
        captures := Function.update world.captures graph.captureStream none
        graphs := world.graphs.modify self change } := by
  obtain ⟨alsoGraph, otherDevice, alsoFound, held, _, _, _, filter, inCaptures, refers⟩ :=
    balanced.recording _ capture open'
  rw [owner] at alsoFound held refers
  obtain rfl := mem_unique found alsoFound
  obtain ⟨_, again, sameDev, valid, _⟩ := balanced.holder self otherDevice graph.mempoolId held
  obtain rfl := mem_unique found again
  obtain rfl := mem_unique dev sameDev
  have counts := balanced.recount (Store.lt_fresh found) (holds self) counted
    (by omega) (fun _ _ => rfl)
  rw [update_eq_self] at counts
  have here := Store.get?_modify_found found change
  have elsewhere : ∀ id, id ≠ self →
      (world.graphs.modify self change).get? id = world.graphs.get? id :=
    fun _ other => Store.get?_modify_of_ne _ other change
  obtain ⟨newDev, newMempool, newGraph, _, _⟩ : (change graph).captureDev = graph.captureDev ∧
      (change graph).mempoolId = graph.mempoolId ∧ (change graph).hasGraph = true ∧
      (change graph).hasGraphExec = false ∧ (change graph).captureStream = graph.captureStream := by
    simpa [SUPAGraph.core] using changed
  have underway : ∀ other, ((world.setAllocator self device graph.mempoolId allocator).allocators
      other).capturesUnderway = if other = device then
        (world.allocators device).capturesUnderway.eraseP (·.1 == graph.mempoolId)
      else (world.allocators other).capturesUnderway := by
    intro other
    unfold World.setAllocator
    dsimp only
    split
    · rename_i same
      rw [same, update_self]
      exact captures
    · rename_i different
      rw [update_of_ne different]
  -- another capture is on another stream and belongs to another graph
  have streams : ∀ stream second, world.captures stream = some second → second.owner ≠ self →
      stream ≠ graph.captureStream := by
    intro stream second there other same
    rw [same, open'] at there
    rw [← some.inj there] at other
    exact other owner
  refine {
    contribution := counts.1
    total := by simpa using counts.2.1
    pools := counts.2.2
    holder := ?_
    owns := ?_
    recording := ?_
    filters := ?_
    distinct := ?_
    cleared := balanced.cleared }
  · intro id other mempoolId holding
    by_cases same : id = self
    · subst same
      rw [held] at holding
      obtain ⟨rfl, rfl⟩ := Prod.mk.inj (some.inj holding)
      exact ⟨change graph, here, newDev.trans dev, valid, newMempool, .inl newGraph⟩
    · obtain ⟨second, there, dev', valid', mempool, uses⟩ := balanced.holder id other mempoolId holding
      refine ⟨second, (elsewhere id same).trans there, dev', valid', mempool,
        uses.imp_right (Or.imp_right ?_)⟩
      rintro ⟨before, recording, owns⟩
      refine ⟨before, ?_, owns⟩
      dsimp only
      rw [update_of_ne (streams _ before recording (owns ▸ same))]
      exact recording
  · intro id second there owned
    by_cases same : id = self
    · rw [same, held]
      rfl
    · exact balanced.owns id second ((elsewhere id same).symm.trans there) owned
  · intro stream second recording
    dsimp only at recording
    have elsewhere' : stream ≠ graph.captureStream := by
      intro same
      rw [same, update_self] at recording
      simp at recording
    rw [update_of_ne elsewhere'] at recording
    obtain ⟨before, other, there, holding, noGraph, noExec, onStream, entry, member, names⟩ :=
      balanced.recording stream second recording
    have different : second.owner ≠ self := by
      intro same
      rw [same, found] at there
      exact elsewhere' (by rw [some.inj there, onStream])
    refine ⟨before, other, (elsewhere _ different).trans there, holding, noGraph, noExec, onStream,
      entry, ?_, names⟩
    rw [underway]
    split
    · rename_i same
      subst same
      refine (mem_eraseP_of_neg ?_).mpr member
      intro named
      have equal := inj_on_of_nodup_map (balanced.distinct other) member inCaptures
        (by simpa using named)
      rw [(Prod.mk.inj equal).2, refers] at names
      exact different (some.inj names).symm
    · exact member
  · intro other entry member
    have old : entry ∈ (world.allocators other).capturesUnderway ∧
        (other = device → entry.1 ≠ graph.mempoolId) := by
      rw [underway] at member
      split at member
      · rename_i same
        subst same
        exact ⟨mem_of_mem_eraseP member, fun _ => name_eraseP (balanced.distinct other) member⟩
      · rename_i different
        exact ⟨member, fun same => absurd same different⟩
    obtain ⟨id, second, before, names, there, recording, owns, onDevice, named⟩ :=
      balanced.filters other entry old.1
    have different : id ≠ self := by
      intro same
      rw [same, found] at there
      cases there
      exact old.2 (mem_unique onDevice dev) named.symm
    refine ⟨id, second, before, names, (elsewhere id different).trans there, ?_, owns, onDevice, named⟩
    dsimp only
    rw [update_of_ne (streams _ before recording (owns ▸ different))]
    exact recording
  · intro other
    rw [underway]
    split
    · exact (balanced.distinct device).sublist (eraseP_sublist.map _)
    · exact balanced.distinct other

theorem Balanced.reflag
    (owned : graph.hasGraph = true ∨ graph.hasGraphExec = true) (change : SUPAGraph → SUPAGraph)
    (same : (change graph).captureDev = graph.captureDev ∧
      (change graph).mempoolId = graph.mempoolId)
    (owns : (change graph).hasGraph = true ∨ (change graph).hasGraphExec = true) :
    Balanced holds { world with graphs := world.graphs.modify self change } := by
  have here := Store.get?_modify_found found change
  have elsewhere : ∀ id, id ≠ self →
      (world.graphs.modify self change).get? id = world.graphs.get? id :=
    fun _ other => Store.get?_modify_of_ne _ other change
  have uncaptured : ∀ stream capture, world.captures stream = some capture →
      capture.owner ≠ self := by
    intro stream capture open' same
    obtain ⟨second, _, there, _, noGraph, noExec, _⟩ := balanced.recording stream capture open'
    rw [same] at there
    rw [mem_unique found there, noGraph, noExec] at owned
    simp at owned
  refine { balanced with total := ?_, holder := ?_, owns := ?_, recording := ?_, filters := ?_ }
  · simpa using balanced.total
  · intro id device mempoolId held
    obtain ⟨second, there, dev, valid, mempool, uses⟩ := balanced.holder id device mempoolId held
    by_cases self' : id = self
    · subst self'
      obtain rfl := mem_unique found there
      exact ⟨change graph, here, same.1.trans dev, valid, same.2.trans mempool, owns.imp_right .inl⟩
    · exact ⟨second, (elsewhere id self').trans there, dev, valid, mempool, uses⟩
  · intro id second there flags
    by_cases self' : id = self
    · rw [self']
      exact balanced.owns self graph found owned
    · exact balanced.owns id second ((elsewhere id self').symm.trans there) flags
  · intro stream capture open'
    obtain ⟨second, device, there, rest⟩ := balanced.recording stream capture open'
    exact ⟨second, device, (elsewhere _ (uncaptured stream capture open')).trans there, rest⟩
  · intro device entry member
    obtain ⟨id, second, capture, refers, there, open', owner, rest⟩ :=
      balanced.filters device entry member
    exact ⟨id, second, capture, refers,
      (elsewhere id (owner ▸ uncaptured _ capture open')).trans there, open', owner, rest⟩

theorem Balanced.released (held : holds self = some (device, graph.mempoolId))
    (idle : ∀ stream capture, world.captures stream = some capture → capture.owner ≠ self)
    (counted : Counted (world.allocators device) allocator graph.mempoolId (-1))
    (captures : allocator.capturesUnderway = (world.allocators device).capturesUnderway)
    (change : SUPAGraph → SUPAGraph)
    (changed : (change graph).hasGraph = false ∧ (change graph).hasGraphExec = false) :
    Balanced (Function.update holds self none)
      { world.setAllocator self device graph.mempoolId allocator with
        graphs := world.graphs.modify self change } := by
  have counts := balanced.recount (Store.lt_fresh found) none counted
    (by simp [ones, held]) (fun key apart => by simp [ones, held, apart.symm])
  have here := Store.get?_modify_found found change
  have elsewhere : ∀ id, id ≠ self →
      (world.graphs.modify self change).get? id = world.graphs.get? id :=
    fun _ other => Store.get?_modify_of_ne _ other change
  have underway : ∀ other, ((world.setAllocator self device graph.mempoolId allocator).allocators
      other).capturesUnderway = (world.allocators other).capturesUnderway := by
    intro other
    unfold World.setAllocator
    dsimp only
    by_cases same : other = device
    · rw [same, update_self]
      exact captures
    · rw [update_of_ne same]
  refine {
    contribution := counts.1
    total := by simpa using counts.2.1
    pools := counts.2.2
    holder := ?_
    owns := ?_
    recording := ?_
    filters := ?_
    distinct := by
      intro other
      rw [underway]
      exact balanced.distinct other
    cleared := ?_ }
  · intro id other mempoolId holding
    by_cases same : id = self
    · rw [same, update_self] at holding
      simp at holding
    · rw [update_of_ne same] at holding
      obtain ⟨second, there, rest⟩ := balanced.holder id other mempoolId holding
      exact ⟨second, (elsewhere id same).trans there, rest⟩
  · intro id second there owned
    by_cases same : id = self
    · rw [same] at there
      rw [← mem_unique here there, changed.1, changed.2] at owned
      simp at owned
    · rw [update_of_ne same]
      exact balanced.owns id second ((elsewhere id same).symm.trans there) owned
  · intro stream second recording
    have different := idle stream second recording
    obtain ⟨before, other, there, holding, noGraph, noExec, onStream, entry, member, names⟩ :=
      balanced.recording stream second recording
    refine ⟨before, other, (elsewhere _ different).trans there, ?_, noGraph, noExec, onStream, entry,
      ?_, names⟩
    · rw [update_of_ne different]
      exact holding
    · rw [underway]
      exact member
  · intro other entry member
    rw [underway] at member
    obtain ⟨id, second, before, names, there, recording, owns, rest⟩ :=
      balanced.filters other entry member
    exact ⟨id, second, before, names,
      (elsewhere id (owns ▸ idle _ before recording)).trans there, recording, owns, rest⟩
  · intro id member
    by_cases same : id = self
    · rw [same, update_self]
    · rw [update_of_ne same]
      exact balanced.cleared id member

end Transfers

end TorchSupa.Graph
