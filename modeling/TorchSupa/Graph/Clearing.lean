import TorchSupa.Graph.References

/-!
Whole runs: what has been reset or destroyed contributes to no use count, and no filter of a
capture refers to it.
-/

namespace TorchSupa.Graph

open Outcome Allocator List Function

section Indifferent

variable {world : World}

theorem keeps_anyGenerator (target : GeneratorId) (change : GeneratorState → GeneratorState) :
    Keeps (SameReferences world) Exn.Fatal (updateGenerator target change) :=
  Keeps.modify fun _ same => { same with }

theorem keeps_increase (target : GeneratorId) (increment : Nat) :
    Keeps (SameReferences world) Exn.Fatal (increase target increment) := by
  refine Keeps.bind (fun _ same => same) fun status => ?_
  refine Keeps.bind (keeps_getGenerator target) fun self => ?_
  refine Keeps.ite ?_ ?_
  · refine Keeps.bind (keeps_ensure _ _) fun _ => ?_
    refine Keeps.bind (keeps_ensure _ _) fun _ => ?_
    refine Keeps.bind (keeps_ensure _ _) fun _ => ?_
    exact keeps_anyGenerator target _
  · refine Keeps.bind (keeps_ensure _ _) fun _ => ?_
    refine Keeps.bind (keeps_ensure _ _) fun _ => ?_
    exact keeps_anyGenerator target _

theorem tolerates_references (generator : GeneratorId) :
    Tolerates generator (SameReferences world) :=
  fun _ _ _ _ same => { same with }

theorem keeps_registerGeneratorState (self : GraphId) (generator : GeneratorId) :
    Keeps (SameReferences world) Exn.Fatal (registerGeneratorState self generator) := by
  refine Keeps.bind (Keeps.modify fun before same => ?_) fun _ =>
    keeps_registerGraph (tolerates_references 0) generator self
  have untouched := (Untouched.refl before).updateGraph self (fun graph => { graph with
    capturedGeneratorStates := setEntry graph.capturedGeneratorStates generator 0 }) fun _ => rfl
  exact same.trans untouched.same

theorem keeps_philoxSupaState (generator : GeneratorId) (increment : Nat) :
    Keeps (SameReferences world) Exn.Fatal (philoxSupaState generator increment) := by
  refine Keeps.bind (fun _ same => same) fun status => ?_
  refine Keeps.bind (keeps_getGenerator generator) fun self => ?_
  refine Keeps.ite ?_ ?_
  · exact Keeps.bind (keeps_increase generator increment) fun _ => Keeps.pure _
  · exact Keeps.bind (keeps_increase generator increment) fun _ => Keeps.pure _

theorem keeps_philoxEngineInputs (generator : GeneratorId) (increment : Nat) :
    Keeps (SameReferences world) Exn.Fatal (philoxEngineInputs generator increment) := by
  refine Keeps.bind (keeps_assertNotCapturing _) fun _ => ?_
  refine Keeps.bind (keeps_getGenerator generator) fun self => ?_
  exact Keeps.bind (keeps_increase generator increment) fun _ => Keeps.pure _

theorem SameReferences.setCapture {before : World} (same : SameReferences world before)
    {stream : Stream} {capture later : Capture} (open' : before.captures stream = some capture)
    (owner : later.owner = capture.owner) :
    SameReferences world
      { before with captures := Function.update before.captures stream (some later) } := by
  refine { same with owners := fun other => ?_ }
  dsimp only
  by_cases here : other = stream
  · rw [here, update_self, ← same.owners stream, open']
    exact congrArg some owner
  · rw [update_of_ne here]
    exact same.owners other

theorem keeps_launchKernel (generator : GeneratorId) (increment : Nat) (state : PhiloxSupaState) :
    Keeps (SameReferences world) Exn.Fatal (launchKernel generator increment state) := by
  cases state with
  | value seed offset => exact Keeps.modify fun _ same => { same with }
  | captured generator offset =>
    refine Keeps.modify fun before same => ?_
    split
    · exact same
    · rename_i capture open'
      exact same.setCapture open' rfl

theorem keeps_invalidate (stream : Stream) :
    Keeps (SameReferences world) Exn.Fatal (invalidate stream) := by
  refine Keeps.modify fun before same => ?_
  split
  · exact same
  · rename_i capture open'
    exact same.setCapture open' rfl

theorem keeps_replayPrologue (generator : GeneratorId) (wholegraphIncrement : Nat) :
    Keeps (SameReferences world) Exn.Fatal (replayPrologue generator wholegraphIncrement) := by
  have tolerates : Tolerates 0 (SameReferences world) := tolerates_references 0
  refine Keeps.bind (keeps_assertNotCapturing _) fun _ => ?_
  refine Keeps.bind (keeps_getGenerator generator) fun self => ?_
  refine Keeps.bind (keeps_fillSeed tolerates generator _) fun _ => ?_
  refine Keeps.bind (keeps_getGenerator generator) fun self => ?_
  refine Keeps.bind (keeps_fillOffset tolerates generator _) fun _ => ?_
  exact keeps_increase generator wholegraphIncrement

theorem keeps_replay (self : GraphId) : Keeps (SameReferences world) Exn.Fatal (replay self) := by
  intro before same
  refine bind_getGraph (fun graph _ => ?_) (.inl trivial)
  refine bind_ensure (fun _ => ?_) fun _ => .inr same
  refine wp_seq _ (Keeps.forEach (fun entry => keeps_replayPrologue entry.1 entry.2)
    graph.capturedGeneratorStates before same) fun _ after same => ?_
  exact bind_supaCheck (fun _ => { same with }) fun _ => .inr same

end Indifferent

section Runs

variable {world : World} {call : Call}

theorem Settled.keeps {program : GraphM Unit} (settled : Settled world)
    (keeps : Keeps (SameReferences world) Exn.Fatal program) :
    wp program (fun _ after => Settled after) (Spares Exn.Fatal Settled) world := by
  obtain ⟨holds, balanced⟩ := settled
  refine wp_mono (keeps world (SameReferences.refl world)) ?_ ?_
  · exact fun _ after same => ⟨holds, balanced.same same⟩
  · exact fun exception after failed =>
      failed.imp_right fun same => ⟨holds, balanced.same same⟩

theorem Call.enter_enter (call : Call) (world : World) :
    call.enter (call.enter world) = call.enter world := rfl

theorem Orderly.enter (orderly : Orderly world call) : Orderly (call.enter world) call := orderly

theorem Settled.enter (settled : Settled world) : Settled (call.enter world) := by
  obtain ⟨holds, balanced⟩ := settled
  exact ⟨holds, balanced.same { SameReferences.refl world with }⟩

theorem Settled.run (settled : Settled world) (entered : call.enter world = world)
    (orderly : Orderly world call) :
    wp call.action.run (fun _ after => Settled after) (Spares Exn.Fatal Settled) world := by
  obtain ⟨action, stream, device, answers⟩ := call
  obtain ⟨holds, balanced⟩ := id settled
  cases action with
  | create => exact balanced.create world.currentStream
  | registerGeneratorState self generator =>
    exact settled.keeps (keeps_registerGeneratorState self generator)
  | captureBegin self pool accepts =>
    exact captureBegin_settled _ self pool accepts balanced entered orderly
  | captureEnd self => exact captureEnd_settled _ self balanced entered orderly
  | philoxSupaState generator increment =>
    exact settled.keeps (Keeps.bind (keeps_philoxSupaState generator increment) fun philox =>
      keeps_launchKernel generator increment philox)
  | philoxEngineInputs generator increment =>
    exact settled.keeps (Keeps.bind (keeps_philoxEngineInputs generator increment) fun inputs =>
      keeps_launchKernel generator increment (.value inputs.1 inputs.2))
  | replay self => exact settled.keeps (keeps_replay self)
  | enableDebugMode => exact settled.keeps (Keeps.modify fun _ same => { same with })
  | debugDump self => exact debugDump_settled _ self balanced entered orderly
  | reset self =>
    refine wp_mono (reset_settled self balanced orderly) ?_ fun _ _ failed => failed
    rintro _ after ⟨later, balanced', _⟩
    exact ⟨later, balanced'⟩
  | destroy self => exact destroySUPAGraph_settled self balanced orderly
  | invalidate stream => exact settled.keeps (keeps_invalidate stream)

theorem Settled.step {after : World} (settled : Settled world) (orderly : Orderly world call)
    (taken : Step world call after) : Settled after := by
  refine taken.ensures (wp_mono (settled.enter.run (call.enter_enter world) orderly.enter)
    (fun _ _ later => later) ?_)
  exact fun exception after failed => failed.imp_right .inr

theorem Initial.settled (initial : Initial world) : Settled world := by
  obtain ⟨graphs, captures, _, contribution, cleared, _, allocators⟩ := initial
  refine ⟨fun _ => none, ?_⟩
  constructor
  · intro id key
    rw [contribution]
    rfl
  · intro device mempoolId
    unfold useCount
    rw [(allocators device).1]
    simp [ones]
  · intro device
    obtain ⟨pools, freeable, _⟩ := allocators device
    constructor <;> simp [pools, freeable]
  · intro id device mempoolId held
    simp at held
  · intro id graph found
    rw [graphs] at found
    simp at found
  · intro stream capture open'
    rw [captures] at open'
    simp at open'
  · intro device entry member
    rw [(allocators device).2.2] at member
    simp at member
  · intro device
    rw [(allocators device).2.2]
    exact nodup_nil
  · intro id member
    simp [cleared] at member

theorem reachable_settled (reached : machine.Reachable Orderly world) : Settled world :=
  reached.invariant (fun _ => Initial.settled) fun _ _ _ settled orderly taken =>
    settled.step orderly taken

/-- In a run without abandoned captures, a graph that has been reset or destroyed adds
nothing to a use count, which is what the other graphs add up to, and no filter of a capture
refers to it. -/
theorem cleared_graphs (world : World) (reached : machine.Reachable Orderly world) :
    (∀ device mempoolId, useCount (world.allocators device) mempoolId =
      ∑ id ∈ Finset.range world.graphs.fresh, world.contribution id (device, mempoolId)) ∧
    ∀ id, id ∈ world.cleared ∨ world.graphs.get? id = none →
      (∀ key, world.contribution id key = 0) ∧
      ∀ device, ∀ entry ∈ (world.allocators device).capturesUnderway,
        entry.2.refersTo ≠ some id := by
  obtain ⟨holds, balanced⟩ := reachable_settled reached
  refine ⟨fun device mempoolId => ?_, fun id gone => balanced.clear ?_⟩
  · rw [balanced.total]
    exact Finset.sum_congr rfl fun id _ => (balanced.contribution id _).symm
  · rcases gone with cleared | destroyed
    · exact balanced.cleared id cleared
    · refine balanced.holdsNone (fun graph found => ?_) fun stream capture open' owner => ?_
      · exact absurd (destroyed.symm.trans found) (by simp)
      · obtain ⟨graph, _, found, _⟩ := balanced.recording stream capture open'
        rw [owner, destroyed] at found
        exact absurd found (by simp)

/-- In a run without abandoned captures the pool of every graph that is captured or
instantiated, and of every graph that is being captured, stays listed, used and out of reach of
what frees unused pools; and the captures underway on a device are exactly the open ones, each to
a pool of its own. -/
theorem graphs_keep_pools (world : World) (reached : machine.Reachable Orderly world) :
    (∀ id graph, world.graphs.get? id = some graph →
      (graph.hasGraph = true ∨ graph.hasGraphExec = true ∨ ∃ capture,
        world.captures graph.captureStream = some capture ∧ capture.owner = id) →
      ∃ device uses, graph.captureDev = some device ∧ 0 < uses ∧
        InUse (world.allocators device) graph.mempoolId uses) ∧
    (∀ device, ((world.allocators device).capturesUnderway.map (·.1)).Nodup ∧
      ∀ entry ∈ (world.allocators device).capturesUnderway, ∃ id graph capture,
        entry.2.refersTo = some id ∧ world.graphs.get? id = some graph ∧
        graph.captureDev = some device ∧ graph.mempoolId = entry.1 ∧
        world.captures graph.captureStream = some capture ∧ capture.owner = id) ∧
    ∀ stream capture, world.captures stream = some capture →
      ∃ graph device, world.graphs.get? capture.owner = some graph ∧
        graph.captureStream = stream ∧ graph.captureDev = some device ∧
        ∃ entry ∈ (world.allocators device).capturesUnderway,
          entry.1 = graph.mempoolId ∧ entry.2.refersTo = some capture.owner := by
  obtain ⟨holds, balanced⟩ := reachable_settled reached
  refine ⟨fun id graph found kept => ?_, fun device => ⟨balanced.distinct device, ?_⟩,
    fun stream capture open' => ?_⟩
  · have holding : (holds id).isSome = true := by
      rcases kept with captured | instantiated | ⟨capture, open', rfl⟩
      · exact balanced.owns id graph found (.inl captured)
      · exact balanced.owns id graph found (.inr instantiated)
      · obtain ⟨_, device, _, held, _⟩ := balanced.recording _ capture open'
        simp [held]
    obtain ⟨⟨device, mempoolId⟩, held⟩ := Option.isSome_iff_exists.mp holding
    obtain ⟨other, same, dev, _, rfl, _⟩ := balanced.holder id device mempoolId held
    obtain rfl : graph = other := Option.some.inj (found.symm.trans same)
    have used := balanced.used held
    exact ⟨device, _, dev, used, (balanced.pools device).inUse (by omega)⟩
  · intro entry member
    obtain ⟨id, graph, capture, refers, found, open', owner, dev, name⟩ :=
      balanced.filters device entry member
    exact ⟨id, graph, capture, refers, found, dev, name, open', owner⟩
  · obtain ⟨graph, device, found, held, _, _, records, filter, member, refers⟩ :=
      balanced.recording stream capture open'
    obtain ⟨other, same, dev, _⟩ := balanced.holder _ device _ held
    obtain rfl := Option.some.inj (found.symm.trans same)
    exact ⟨graph, device, found, records, dev, _, member, rfl, refers⟩

end Runs

section Samples

/-- The first graph is captured on stream 7; `begins` says whether the runtime begins it. -/
def captureSample (begins : Bool) : Call where
  action := .captureBegin 0 (0, 0) fun _ stream => stream == 7
  stream := 7
  answers call := call != .streamBeginCapture || begins

def createSample : Call where
  action := .create
  stream := 7

def resetSample : Call where
  action := .reset 0
  stream := 7

def resetRun : List Call :=
  [createSample, captureSample true, { action := .captureEnd 0, stream := 7 }, resetSample]

def resetAfter (count : Nat) : World := afterCalls resetRun sampleWorld count

theorem resetAfter_orderly {count : Nat} : machine.Reachable Orderly (resetAfter count) := by
  have returns : ∀ count ∈ range 4, ∀ call, resetRun[count]? = some call →
      call.succeeds (resetAfter count) = true := by
    intro count member call there
    have all : (range 4).all (fun count => (resetRun[count]?).all fun call =>
        call.succeeds (resetAfter count)) = true := by decide +kernel
    have one := all_eq_true.mp all count member
    rw [there] at one
    exact one
  have before : (resetAfter 1).captures = fun _ => none := rfl
  have during : ((resetAfter 2).captures 7).all (fun capture =>
      capture.owner = 0 ∧ capture.valid = true) = true := by decide +kernel
  have ended : (resetAfter 3).captures =
      update (update (fun _ => none) 7 ((resetAfter 2).captures 7)) 7 none :=
    rfl
  refine reachable_afterCalls sampleWorld_initial (fun count call there => ?_) count
  have bound : count < 4 := (List.getElem?_eq_some_iff.mp there).1
  refine ⟨?_, returns count (List.mem_range.mpr bound) call there⟩
  match count, there with
  | 0, rfl => exact trivial
  | 1, rfl =>
    refine .inr ⟨fun graph found => ?_, fun stream capture open' => ?_, ?_⟩
    · have flag : ((resetAfter 1).graphs.get? 0).all (fun graph => !graph.hasGraph) = true := by
        decide +kernel
      change (resetAfter 1).graphs.get? 0 = some graph at found
      rw [found] at flag
      simpa using flag
    · change (resetAfter 1).captures stream = some capture at open'
      rw [before] at open'
      simp at open'
    · exact .inr (.inr (.inr ⟨fun entry member => absurd member (by rintro ⟨⟩), rfl⟩))
  | 2, rfl =>
    intro graph found
    have stream : ((resetAfter 2).graphs.get? 0).all (fun graph =>
        graph.captureStream = 7) = true := by decide +kernel
    change (resetAfter 2).graphs.get? 0 = some graph at found
    rw [found] at stream
    refine .inr (.inr fun capture open' => ?_)
    rw [show graph.captureStream = 7 by simpa using stream] at open'
    change (resetAfter 2).captures 7 = some capture at open'
    rw [open'] at during
    simpa using during
  | 3, rfl =>
    intro stream capture open'
    change (resetAfter 3).captures stream = some capture at open'
    rw [ended] at open'
    by_cases here : stream = 7 <;> simp [here] at open'

/-- A graph that is captured, ended and reset. -/
theorem cleared_graphs_sample : (resetAfter 4).cleared = [0] ∧
    ((resetAfter 4).contribution 0 (0, (1, 0)) = 0) ∧
    (∀ device, ∀ entry ∈ ((resetAfter 4).allocators device).capturesUnderway,
      entry.2.refersTo ≠ some 0) := by
  have cleared : (resetAfter 4).cleared = [0] := by decide +kernel
  obtain ⟨_, clear⟩ := cleared_graphs (resetAfter 4) resetAfter_orderly
  obtain ⟨contribution, filters⟩ := clear 0 (Or.inl (by rw [cleared]; simp))
  exact ⟨cleared, contribution _, filters⟩

/-- The runtime does not begin the capture, and the exception is caught: the reset leaves
the reference to the pool and the filter. -/
theorem cleared_graphs_fails : ¬ ∀ world, machine.Reachable (fun _ _ => True) world →
    ∀ id ∈ world.cleared, (∀ key, world.contribution id key = 0) ∧
      ∀ device, ∀ entry ∈ (world.allocators device).capturesUnderway,
        entry.2.refersTo ≠ some id := by
  intro all
  let created := createSample.after sampleWorld
  let refused := (captureSample false).after created
  have creates : Step sampleWorld createSample created := Step.returned (by decide +kernel)
  have refuses : Step created (captureSample false) refused :=
    have throws : (captureSample false).exception created = some .driver := by decide +kernel
    Step.caught throws (by decide) fun self destroys => by cases destroys
  have resets : Step refused resetSample (resetSample.after refused) :=
    Step.returned (by decide +kernel)
  have reached : machine.Reachable (fun _ _ => True) (resetSample.after refused) :=
    .step (.step (.step (.initial sampleWorld_initial) trivial creates) trivial refuses) trivial resets
  have clear := (all _ reached 0 (by decide +kernel)).1 (0, (1, 0))
  exact absurd clear (by decide +kernel)

/-- The graph before it is reset. -/
theorem graphs_keep_pools_sample : ∃ graph device uses, (resetAfter 3).graphs.get? 0 = some graph ∧
    0 < uses ∧ InUse ((resetAfter 3).allocators device) graph.mempoolId uses := by
  have owns : ((resetAfter 3).graphs.get? 0).any (·.hasGraphExec) = true := by decide +kernel
  obtain ⟨graph, found, owned⟩ := (Option.any_eq_true _ _).mp owns
  obtain ⟨device, uses, _, used, keeps⟩ :=
    (graphs_keep_pools _ resetAfter_orderly).1 0 graph found (.inr (.inl owned))
  exact ⟨graph, device, uses, found, used, keeps⟩

end Samples

end TorchSupa.Graph
