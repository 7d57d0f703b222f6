import TorchSupa.Graph.Transfers

/-!
No reference of a graph to a pool outlives its reset, as long as no capture is abandoned
half way.
-/

namespace TorchSupa.Graph

open Outcome Allocator Function

def chosenMempool (world : World) (pool : MempoolId) : MempoolId :=
  if pool.1 != 0 || pool.2 != 0 then pool else (world.uuid, 0)

def GeneratorFails (world : World) (call : Call) (self : GraphId) : Prop :=
  let default := world.defaultGenerator call.device
  (world.generators default).registeredGraphs = [] ∧ call.answers (.empty default) = false ∨
    ∃ generator, (generator = default ∨
      ∃ graph, world.graphs.get? self = some graph ∧ generator ∈ graph.generators) ∧
      (call.answers (.fillSeed generator) = false ∨ call.answers (.fillOffset generator) = false)

/-- `capture_begin` throws before it has changed the graph. -/
def Refused (world : World) (call : Call) (self : GraphId) : Prop :=
  (∃ graph, world.graphs.get? self = some graph ∧ graph.hasGraphExec = true) ∨
    (world.captures call.stream).isSome ∨ GeneratorFails world call self ∨ call.stream = 0

def Uncaptured (world : World) (self : GraphId) : Prop :=
  ∀ stream capture, world.captures stream = some capture → capture.owner ≠ self

/-- A capture is begun on a graph that has none, on a pool that is not being recorded to;
once the pool has been referenced, the runtime begins the capture, and what ends it yields
a graph; a graph is not reset or destroyed while it is being captured; and a graph that
could not be instantiated is not dumped. -/
def Orderly (world : World) (call : Call) : Prop :=
  match call.action with
  | .captureBegin self pool _ =>
    Refused world call self ∨
      (∀ graph, world.graphs.get? self = some graph → graph.hasGraph = false) ∧
      Uncaptured world self ∧
      (pool.1 ≠ 0 ∧ pool.2 ≠ 0 ∨ ¬ call.device < world.deviceCount ∨
        Freeable (world.allocators call.device) (chosenMempool world pool) ∨
        (∀ entry ∈ (world.allocators call.device).capturesUnderway,
          entry.1 ≠ chosenMempool world pool) ∧ call.answers .streamBeginCapture = true)
  | .captureEnd self => ∀ graph, world.graphs.get? self = some graph →
      call.stream ≠ graph.captureStream ∨ call.answers .streamEndCapture = false ∨
        ∀ capture, world.captures graph.captureStream = some capture →
          capture.owner = self ∧ capture.valid = true ∧ call.answers .graphMade = true
  | .reset self => Uncaptured world self
  | .destroy self => Uncaptured world self
  | .debugDump self => ∀ graph, world.graphs.get? self = some graph → world.graphsDebug = true →
      graph.hasGraph = true → graph.hasGraphExec = true ∨ call.answers .graphDestroy = false
  | _ => True

def Settled (world : World) : Prop := ∃ holds, Balanced holds world

section Untouched

structure Untouched (world after : World) : Prop where
  same : SameReferences world after
  captures : after.captures = world.captures
  answers : after.answers = world.answers
  uuid : after.uuid = world.uuid
  stream : after.currentStream = world.currentStream
  device : after.currentDevice = world.currentDevice

variable {world before : World}

theorem Untouched.refl (world : World) : Untouched world world :=
  ⟨SameReferences.refl world, rfl, rfl, rfl, rfl, rfl⟩

theorem Untouched.settled {after : World} (untouched : Untouched world after)
    (settled : Settled world) : Settled after := by
  obtain ⟨holds, balanced⟩ := settled
  exact ⟨holds, balanced.same untouched.same⟩

theorem Untouched.updateGraph (untouched : Untouched world before) (self : GraphId)
    (change : SUPAGraph → SUPAGraph) (core : ∀ graph, (change graph).core = graph.core) :
    Untouched world { before with graphs := before.graphs.modify self change } := by
  refine { untouched with same := { untouched.same with fresh := ?_, cores := ?_ } }
  · simpa using untouched.same.fresh
  · intro id
    rw [← untouched.same.cores id]
    rw [Store.get?_modify]
    split
    · rename_i here
      rw [here, Option.map_map]
      refine congrArg (Option.map · _) (funext fun graph => ?_)
      exact core graph
    · rfl

theorem Untouched.generators (untouched : Untouched world before)
    (generators : GeneratorId → GeneratorState) :
    Untouched world { before with generators } :=
  { untouched with same := { untouched.same with } }

theorem tolerates_untouched (generator : GeneratorId) : Tolerates generator (Untouched world) :=
  fun _ _ _ _ untouched => untouched.generators _

theorem capturePrologue_untouched (target : GeneratorId) (untouched : Untouched world before) :
    wp (capturePrologue target)
      (fun _ after => Untouched world after ∧ world.answers (.fillSeed target) = true ∧
        world.answers (.fillOffset target) = true)
      (Spares Exn.Fatal (Untouched world)) before := by
  unfold capturePrologue
  rw [wp_bind]
  have started := untouched.generators (update before.generators target
    { before.generators target with capturing := true, offsetIntragraph := 0 })
  change wp (fillSeed target _ >>= _) _ _ _
  refine bind_fillSeed (fun seeds => ?_) (.inr started) (.inl trivial)
  have seeded := started.generators (update (update before.generators target
      { before.generators target with capturing := true, offsetIntragraph := 0 }) target
    { update before.generators target
        { before.generators target with capturing := true, offsetIntragraph := 0 } target with
      seedExtragraph := some (update before.generators target
        { before.generators target with capturing := true, offsetIntragraph := 0 } target).seed })
  refine wp_final (bind_fillOffset (fun fills => ?_) (.inr seeded) (.inl trivial))
  rw [untouched.answers] at seeds fills
  exact ⟨seeded.generators _, seeds, fills⟩

theorem registerGraph_spec {generator : GeneratorId} {invariant : World → Prop}
    (tolerates : Tolerates generator invariant) (target : GeneratorId) (graph : GraphId)
    (holds : invariant before) :
    wp (GeneratorState.registerGraph target graph)
      (fun _ after => invariant after ∧ before.captures before.currentStream = none ∧
        ((before.generators target).registeredGraphs = [] → before.answers (.empty target) = true))
      (Spares Exn.Fatal invariant) before := by
  change wp (ensure (before.captureStatus before.currentStream == .none) _ >>= _) _ _ before
  refine bind_ensure (fun quiet => ?_) fun _ => .inr holds
  have idle : before.captures before.currentStream = none := by
    cases there : before.captures before.currentStream with
    | none => rfl
    | some capture =>
      simp only [World.captureStatus, there, Capture.status, beq_iff_eq] at quiet
      split at quiet <;> cases quiet
  change wp (whenever (before.generators target).registeredGraphs.isEmpty _ >>= _) _ _ before
  refine bind_whenever (fun _ => ?_) fun first => ?_
  · rw [bind_assoc]
    refine bind_supaCheck (fun made => ?_) fun _ => .inr holds
    have tensors := tolerates before target
      (fun self => { self with seedExtragraph := some 0, offsetExtragraph := some 0 })
      (fun _ _ => ⟨rfl, rfl, rfl⟩) holds
    exact ⟨tolerates _ target (fun self =>
      { self with registeredGraphs := self.registeredGraphs.insert graph })
      (fun _ _ => ⟨rfl, rfl, rfl⟩) tensors, idle, fun _ => made⟩
  · refine ⟨tolerates _ target (fun self =>
      { self with registeredGraphs := self.registeredGraphs.insert graph })
      (fun _ _ => ⟨rfl, rfl, rfl⟩) holds, idle, fun none' => ?_⟩
    rw [none'] at first
    simp at first

open List

theorem bind_prepare {normal : Unit → World → Prop} {thrown : Exn → World → Prop} (call : Call)
    (self : GraphId) {graph : SUPAGraph} {next : GraphM Unit}
    (found : world.graphs.get? self = some graph) (entered : call.enter world = world)
    (unowned : graph.hasGraphExec = false)
    (prepared : ∀ after, Untouched world after → ¬ Refused world call self →
      wp next normal thrown after)
    (failed : ∀ exception after, exception.Fatal ∨ Untouched world after → thrown exception after) :
    wp (do
        registerGeneratorState self (world.defaultGenerator world.currentDevice)
        forEach (fun entry => capturePrologue entry.1) (← getGraph self).capturedGeneratorStates
        ensure (world.currentStream != 0)
          (.torchCheck "SUPA graphs must be captured on a non-default stream.")
        next) normal thrown world := by
  have device : world.currentDevice = call.device := by rw [← entered]; rfl
  have stream : world.currentStream = call.stream := by rw [← entered]; rfl
  have answers : world.answers = call.answers := by rw [← entered]; rfl
  let entries := setEntry graph.capturedGeneratorStates (world.defaultGenerator call.device) 0
  let registered := world.graphs.modify self fun graph => { graph with
    capturedGeneratorStates :=
      setEntry graph.capturedGeneratorStates (world.defaultGenerator call.device) 0 }
  have listed : ∀ generator, (generator = world.defaultGenerator call.device ∨
      ∃ other, world.graphs.get? self = some other ∧ generator ∈ other.generators) →
      generator ∈ entries.map (·.1) := by
    intro generator which
    dsimp only [entries]
    rw [keys_setEntry]
    rcases which with rfl | ⟨other, alsoFound, member⟩
    · split
      · assumption
      · exact mem_append_right _ (mem_singleton.mpr rfl)
    · obtain rfl := Option.mem_unique found alsoFound
      split
      · exact member
      · exact mem_append_left _ member
  rw [device, stream]
  unfold registerGeneratorState
  rw [bind_assoc]
  refine bind_write ?_
  have renamed : Untouched world { world with graphs := registered } :=
    (Untouched.refl world).updateGraph self _ fun _ => rfl
  have tolerates : Tolerates 0 fun after => Untouched world after ∧ after.graphs = registered :=
    fun _ _ _ _ holds => ⟨holds.1.generators _, holds.2⟩
  refine wp_seq _ (wp_mono (registerGraph_spec tolerates _ self ⟨renamed, rfl⟩)
    (fun _ _ holds => holds) ?_) ?_
  · rintro exception after (fatal | ⟨untouched, _⟩)
    · exact failed _ _ (.inl fatal)
    · exact failed _ _ (.inr untouched)
  · rintro _ after ⟨⟨untouched, graphs⟩, quiet, made⟩
    refine bind_getGraph (fun changed there => ?_) (failed _ _ (.inl trivial))
    have states : changed.capturedGeneratorStates = entries := by
      rw [graphs] at there
      rw [← Option.some.inj ((Store.get?_modify_found found _).symm.trans there)]
    rw [states]
    refine wp_seq (fun _ after => Untouched world after ∧ ∀ entry ∈ entries,
      world.answers (.fillSeed entry.1) = true ∧ world.answers (.fillOffset entry.1) = true) ?_ ?_
    · refine wp_mono (wp_forEach (fun rest after => Untouched world after ∧
        ∀ entry ∈ entries, entry ∈ rest ∨ world.answers (.fillSeed entry.1) = true ∧
          world.answers (.fillOffset entry.1) = true) ?_ entries after
        ⟨untouched, fun entry member => .inl member⟩) ?_ failed
      · rintro entry rest before ⟨untouched, done⟩
        refine wp_mono (capturePrologue_untouched entry.1 untouched) ?_ fun _ _ failed => failed
        rintro _ after ⟨untouched, seeds, fills⟩
        refine ⟨untouched, fun other member => ?_⟩
        rcases done other member with coming | finished
        · rcases mem_cons.mp coming with same | later
          · rw [same]
            exact .inr ⟨seeds, fills⟩
          · exact .inl later
        · exact .inr finished
      · rintro _ after ⟨untouched, done⟩
        exact ⟨untouched, fun entry member => (done entry member).resolve_left (by simp)⟩
    · rintro _ after ⟨untouched, filled⟩
      refine bind_ensure (fun nonzero => ?_) fun _ => failed _ _ (.inr untouched)
      refine prepared after untouched ?_
      rintro (⟨other, alsoFound, owned⟩ | capturing | fails | zero)
      · rw [← Option.mem_unique found alsoFound, unowned] at owned
        exact absurd owned Bool.false_ne_true
      · rw [← stream] at capturing
        rw [quiet] at capturing
        simp at capturing
      · rcases fails with ⟨none', refuses⟩ | ⟨generator, which, refuses⟩
        · rw [← answers] at refuses
          have made' := made none'
          rw [made'] at refuses
          simp at refuses
        · obtain ⟨entry, member, named⟩ := mem_map.mp (listed generator which)
          obtain ⟨seeds, fills⟩ := filled entry member
          rw [← answers, ← named, seeds, fills] at refuses
          simp at refuses
      · rw [zero] at nonzero
        simp at nonzero

end Untouched

section Begin

variable {holds : GraphId → Option PoolKey} {world : World}

theorem Balanced.setAllocator_same (balanced : Balanced holds world) (self : GraphId)
    (device : DeviceIndex) (mempoolId : MempoolId) :
    Balanced holds (world.setAllocator self device mempoolId (world.allocators device)) := by
  refine balanced.same { SameReferences.refl world with contribution := ?_, allocators := ?_ }
  · unfold World.setAllocator
    dsimp only
    rw [sub_self, add_zero, update_eq_self, update_eq_self]
  · unfold World.setAllocator
    dsimp only
    rw [update_eq_self]

structure Chosen (world after : World) (id : GraphId) (graph : SUPAGraph) : Prop where
  found : after.graphs.get? id = some graph
  captures : after.captures = world.captures
  allocators : after.allocators = world.allocators
  answers : after.answers = world.answers
  deviceCount : after.deviceCount = world.deviceCount
  cleared : after.cleared = world.cleared

theorem chooseMempool_settled (balanced : Balanced holds world) {self : GraphId}
    (none' : holds self = none) {graph : SUPAGraph} (found : world.graphs.get? self = some graph)
    (pool : MempoolId) :
    wp (chooseMempool self pool)
      (fun _ after => Balanced holds after ∧ ¬ (pool.1 ≠ 0 ∧ pool.2 ≠ 0) ∧
        Chosen world after self { graph with mempoolId := chosenMempool world pool })
      (Spares Exn.Fatal Settled) world := by
  have renamed : ∀ mempoolId, Balanced holds { world with
      graphs := world.graphs.modify self fun graph => { graph with mempoolId } } :=
    fun mempoolId => balanced.updateIdle none' _ fun _ => ⟨rfl, rfl⟩
  have there : ∀ mempoolId, (world.graphs.modify self fun graph =>
      { graph with mempoolId }).get? self = some { graph with mempoolId } :=
    fun _ => Store.get?_modify_found found _
  unfold chooseMempool chosenMempool
  cases given : (pool.1 != 0 || pool.2 != 0) with
  | true =>
    refine bind_ensure (fun single => ?_) fun _ => .inr ⟨holds, balanced⟩
    refine ⟨renamed pool, fun both => ?_, ⟨there pool, rfl, rfl, rfl, rfl, rfl⟩⟩
    simp [both.1, both.2] at single
  | false =>
    have counted : Balanced holds { world with
        uuid := world.uuid + 1
        graphs := world.graphs.modify self fun graph =>
          { graph with mempoolId := (world.uuid, 0) } } :=
      (renamed (world.uuid, 0)).same ⟨rfl, rfl, rfl, rfl, fun _ => rfl, fun _ => rfl, fun _ h => h⟩
    have neither : ¬ (pool.1 ≠ 0 ∧ pool.2 ≠ 0) := by
      simp only [Bool.or_eq_false_iff, bne_eq_false_iff_eq] at given
      simp [given.1]
    change wp (ensure _ _) _ _ _
    refine wp_final (bind_ensure (fun _ => ?_) fun _ => .inr ⟨holds, counted⟩)
    exact ⟨counted, neither, ⟨there _, rfl, rfl, rfl, rfl, rfl⟩⟩

theorem captureBegin_settled (call : Call) (self : GraphId) (pool : MempoolId)
    (accepts : Thread → Stream → Bool) (balanced : Balanced holds world)
    (entered : call.enter world = world)
    (orderly : Refused world call self ∨
      (∀ graph, world.graphs.get? self = some graph → graph.hasGraph = false) ∧
      Uncaptured world self ∧
      (pool.1 ≠ 0 ∧ pool.2 ≠ 0 ∨ ¬ call.device < world.deviceCount ∨
        Freeable (world.allocators call.device) (chosenMempool world pool) ∨
        (∀ entry ∈ (world.allocators call.device).capturesUnderway,
          entry.1 ≠ chosenMempool world pool) ∧ call.answers .streamBeginCapture = true)) :
    wp (captureBegin self pool accepts) (fun _ after => Settled after)
      (Spares Exn.Fatal Settled) world := by
  have stream : world.currentStream = call.stream := by rw [← entered]; rfl
  have device : world.currentDevice = call.device := by rw [← entered]; rfl
  have answers : world.answers = call.answers := by rw [← entered]; rfl
  let begun : World := { world with cleared := world.cleared.filter (· != self) }
  have started : Balanced holds begun := balanced.same
    ⟨rfl, rfl, rfl, rfl, fun _ => rfl, fun _ => rfl, fun _ member => List.mem_of_mem_filter member⟩
  unfold captureBegin
  refine bind_write ?_
  refine bind_getGraph (fun graph found => ?_) (.inl trivial)
  refine bind_ensure (fun unowned => ?_) fun _ => .inr ⟨holds, started⟩
  have noExec : graph.hasGraphExec = false := by simpa using unowned
  refine bind_read ?_
  have still : call.enter begun = begun := by
    dsimp only [begun, Call.enter]
    rw [stream, device, answers]
  refine bind_prepare call self found still noExec (fun prepared untouched accepted => ?_) ?_
  · obtain ⟨noGraph, uncaptured, rest⟩ := orderly.resolve_left accepted
    have none' : holds self = none := by
      refine started.holdsNone (fun other alsoFound => ?_) uncaptured
      obtain rfl := Option.mem_unique found alsoFound
      exact ⟨noGraph graph found, noExec⟩
    obtain ⟨current, here, core⟩ := untouched.same.graph found
    have balanced' := started.same untouched.same
    refine bind_write ?_
    have placed := balanced'.updateIdle none' (fun graph => { graph with
      captureStream := begun.currentStream, captureDev := some begun.currentDevice })
      fun _ => ⟨rfl, rfl⟩
    have moved : (prepared.graphs.modify self fun graph => { graph with
        captureStream := begun.currentStream, captureDev := some begun.currentDevice }).get? self =
        some { current with
          captureStream := begun.currentStream, captureDev := some begun.currentDevice } :=
      Store.get?_modify_found here _
    refine wp_seq _ (chooseMempool_settled placed none' moved pool) ?_
    rintro _ chosen ⟨balanced'', single, same⟩
    refine bind_getGraph (fun named alsoNamed => ?_) (.inl trivial)
    obtain rfl := Option.mem_unique same.found alsoNamed
    -- the parts of the world that the call goes by are those it was entered with
    have name : chosenMempool { prepared with
        graphs := prepared.graphs.modify self fun graph => { graph with
          captureStream := begun.currentStream, captureDev := some begun.currentDevice } } pool =
        chosenMempool world pool := by
      unfold chosenMempool
      rw [untouched.uuid]
    have allocators : chosen.allocators = world.allocators :=
      same.allocators.trans untouched.same.allocators
    have captures : chosen.captures = world.captures := same.captures.trans untouched.captures
    have quiet : chosen.captures begun.currentStream = none := by
      rw [captures]
      cases there : world.captures begun.currentStream with
      | none => rfl
      | some capture =>
        refine absurd (.inr (.inl ?_)) accepted
        rw [← stream]
        dsimp only [begun] at there ⊢
        rw [there]
        rfl
    rw [name] at same alsoNamed ⊢
    have uncleared : self ∉ chosen.cleared := by
      rw [same.cleared]
      intro member
      have kept := List.mem_filter.mp (untouched.same.cleared self member)
      exact absurd kept.2 (by simp)
    have deviceCount : chosen.deviceCount = world.deviceCount :=
      same.deviceCount.trans untouched.same.deviceCount
    unfold beginAllocateToPool
    refine bind_onAllocator (fun index after dev valid run => ?_)
      (fun exception index after dev valid run => ?_) fun _ => .inr ⟨holds, balanced''⟩
    · cases dev
      have onDevice : begun.currentDevice = call.device := device
      rcases rest with both | invalid | freeable | ⟨free, begins⟩
      · exact absurd both single
      · rw [deviceCount, onDevice] at valid
        exact absurd valid invalid
      · rw [← onDevice, ← allocators] at freeable
        exact (wp_ok (beginAllocateToPool_refuses (balanced''.pools _) _ _ freeable) run).elim
      · rw [← onDevice, ← allocators] at free
        obtain ⟨counted, underway⟩ :=
          wp_ok (beginAllocateToPool_spec (balanced''.pools _) _ _ free) run
        unfold streamBeginCapture
        simp only [bind_assoc]
        refine bind_supaCheck (fun _ => ?_) fun fails => ?_
        · refine bind_read ?_
          refine bind_ensure (fun _ => ?_) fun busy => ?_
          · refine bind_getGraph (fun again alsoAgain => ?_) (.inl trivial)
            refine bind_write ?_
            refine bind_write ?_
            have recording : Settled _ := ⟨_, balanced''.begun none' uncleared same.found rfl valid quiet
              free counted underway rfl
              { id := chosen.nextCaptureId
                valid := chosen.answers .captureStaysActive
                owner := self
                generators := again.capturedGeneratorStates.map (·.1) } rfl (chosen.nextCaptureId + 1)⟩
            refine wp_seq _ (keeps_streamGetCaptureInfo _ _ recording) ?_
            rintro ⟨status, captureId⟩ informed settled
            refine bind_write ?_
            have named := ((Untouched.refl informed).updateGraph self
              (fun graph => { graph with captureId }) fun _ => rfl).settled settled
            exact wp_final (bind_ensure (fun _ => named) fun _ => .inr named)
          · change (chosen.captures begun.currentStream).isNone = false at busy
            rw [quiet] at busy
            simp at busy
        · change chosen.answers .streamBeginCapture = false at fails
          rw [same.answers] at fails
          have fails' : prepared.answers .streamBeginCapture = false := fails
          rw [untouched.answers] at fails'
          have fails'' : world.answers .streamBeginCapture = false := fails'
          rw [answers, begins] at fails''
          simp at fails''
    · cases dev
      have onDevice : begun.currentDevice = call.device := device
      have unchanged : exception.Fatal ∨ after = chosen.allocators begun.currentDevice := by
        rcases rest with both | invalid | freeable | ⟨free, _⟩
        · exact absurd both single
        · rw [deviceCount, onDevice] at valid
          exact absurd valid invalid
        · rw [← onDevice, ← allocators] at freeable
          have refuses := wp_error
            (beginAllocateToPool_refuses (balanced''.pools _) _ { refersTo := some self, accepts }
              freeable) run
          exact refuses
        · rw [← onDevice, ← allocators] at free
          have refuses := wp_error
            (beginAllocateToPool_spec (balanced''.pools _) _ { refersTo := some self, accepts } free) run
          exact refuses
      refine unchanged.imp_right ?_
      rintro rfl
      exact ⟨holds, balanced''.setAllocator_same self begun.currentDevice _⟩
  · rintro exception after (fatal | untouched)
    · exact .inl fatal
    · exact .inr (untouched.settled ⟨holds, started⟩)

end Begin

section End

variable {holds : GraphId → Option PoolKey} {world : World}

theorem Counted.captures {allocator : DeviceCachingAllocator} (sound : PoolsSound allocator)
    (mempoolId : MempoolId) (capturesUnderway : List (MempoolId × CaptureFilter)) :
    Counted allocator { allocator with capturesUnderway } mempoolId 0 where
  sound := ⟨sound.names, sound.distinct, sound.alive, sound.freeable⟩
  here := (add_zero _).symm
  others _ _ := rfl

theorem epilogue_untouched (self : GraphId) (entry : GeneratorId × Nat) :
    Keeps (SameReferences world) Exn.Fatal (do
      let wholegraphIncrement ← captureEpilogue entry.1
      updateGraph self fun graph =>
        { graph with
          capturedGeneratorStates :=
            setEntry graph.capturedGeneratorStates entry.1 wholegraphIncrement }) := by
  intro before same
  refine { same with fresh := ?_, cores := ?_ }
  · refine Eq.trans ?_ same.fresh
    exact Store.fresh_modify _ _ _
  · intro id
    rw [← same.cores id]
    change ((before.graphs.modify self _).get? id).map SUPAGraph.core = _
    rw [Store.get?_modify]
    split
    · rename_i here
      rw [here, Option.map_map]
      rfl
    · rfl

theorem instantiate_settled (self : GraphId) (entries : List (GeneratorId × Nat))
    (captured : Option (List Node)) (balanced : Balanced holds world) (graph : SUPAGraph)
    (found : world.graphs.get? self = some graph) (owned : graph.hasGraph = true) :
    wp (do
        supaCheck .graphInstantiate
        updateGraph self fun graph =>
          { graph with graphExec := captured.getD [], hasGraphExec := true }
        forEach (fun entry => do
          let wholegraphIncrement ← captureEpilogue entry.1
          updateGraph self fun graph =>
            { graph with
              capturedGeneratorStates :=
                setEntry graph.capturedGeneratorStates entry.1 wholegraphIncrement }) entries
        supaCheck .graphGetNodes
        whenever (!(← get).graphsDebug) do
          supaCheck .graphDestroy
          updateGraph self fun graph => { graph with hasGraph := false })
      (fun _ after => Settled after) (Spares Exn.Fatal Settled)
      world := by
  refine bind_supaCheck (fun _ => ?_) fun _ => .inr ⟨holds, balanced⟩
  refine bind_write ?_
  have executable := balanced.reflag found (.inl owned)
    (fun graph => { graph with graphExec := captured.getD [], hasGraphExec := true })
    ⟨rfl, rfl⟩ (.inr rfl)
  have there : (world.graphs.modify self fun graph =>
      { graph with graphExec := captured.getD [], hasGraphExec := true }).get? self =
      some { graph with graphExec := captured.getD [], hasGraphExec := true } :=
    Store.get?_modify_found found _
  refine wp_seq _ (wp_mono (Keeps.forEach (fun entry => epilogue_untouched self entry) entries _
    (SameReferences.refl _)) (fun _ _ same => same) ?_) ?_
  · intro exception after failed
    exact failed.imp_right fun same => ⟨holds, executable.same same⟩
  intro _ filled same
  have balanced' := executable.same same
  obtain ⟨later, here, core⟩ := same.graph there
  obtain ⟨_, _, _, exec, _⟩ := core_eq core
  refine bind_supaCheck (fun _ => ?_) fun _ => .inr ⟨holds, balanced'⟩
  refine bind_read ?_
  refine wp_final (bind_whenever (fun _ => ?_) fun _ => ⟨holds, balanced'⟩)
  rw [bind_assoc]
  refine bind_supaCheck (fun _ => ?_) fun _ => .inr ⟨holds, balanced'⟩
  exact ⟨holds, balanced'.reflag here (.inr exec) (fun graph => { graph with hasGraph := false })
    ⟨rfl, rfl⟩ (.inr exec)⟩

theorem captureEnd_settled (call : Call) (self : GraphId) (balanced : Balanced holds world)
    (entered : call.enter world = world)
    (orderly : ∀ graph, world.graphs.get? self = some graph →
      call.stream ≠ graph.captureStream ∨ call.answers .streamEndCapture = false ∨
        ∀ capture, world.captures graph.captureStream = some capture →
          capture.owner = self ∧ capture.valid = true ∧ call.answers .graphMade = true) :
    wp (captureEnd self) (fun _ after => Settled after) (Spares Exn.Fatal Settled) world := by
  have stream : world.currentStream = call.stream := by rw [← entered]; rfl
  have answers : world.answers = call.answers := by rw [← entered]; rfl
  have settled : Settled world := ⟨holds, balanced⟩
  refine bind_getGraph (fun graph found => ?_) (.inl trivial)
  refine bind_read ?_
  refine bind_ensure (fun here => ?_) fun _ => .inr settled
  unfold streamEndCapture
  simp only [bind_assoc]
  refine bind_supaCheck (fun ends => ?_) fun _ => .inr settled
  refine bind_read ?_
  cases open' : world.captures graph.captureStream with
  | none => exact .inr settled
  | some capture =>
    have onStream : call.stream = graph.captureStream := by
      rw [← stream]
      simpa using here
    obtain ⟨owner, valid, made⟩ : capture.owner = self ∧ capture.valid = true ∧
        call.answers .graphMade = true := by
      rcases orderly graph found with elsewhere | fails | ends'
      · exact absurd onStream elsewhere
      · rw [answers, fails] at ends
        simp at ends
      · exact ends' capture open'
    obtain ⟨again, device, alsoFound, held, _, noExec, _, filter, underway, _⟩ :=
      balanced.recording _ capture open'
    rw [owner] at alsoFound held
    obtain rfl := Option.mem_unique found alsoFound
    obtain ⟨_, again, dev, inRange, _⟩ := balanced.holder self device _ held
    obtain rfl := Option.mem_unique found again
    simp only [bind_assoc]
    refine bind_write ?_
    refine bind_ensure (fun _ => ?_) fun invalid => ?_
    · refine bind_read ?_
      have graphMade : world.answers .graphMade = true := by rw [answers]; exact made
      have captured : (if world.answers .graphMade then some capture.nodes else none) =
          some capture.nodes := if_pos graphMade
      change wp (pure (if world.answers .graphMade then some capture.nodes else none) >>= _) _ _ _
      rw [captured, pure_bind]
      refine bind_write ?_
      rw [dev]
      have runs := endAllocateToPool_spec graph.mempoolId ⟨_, underway, rfl⟩
      refine bind_onAllocator (fun index after same _ run => ?_)
        (fun exception index after same _ run => ?_) (fun invalid => ?_)
      · cases same
        obtain rfl : _ = after := by
          have equal := runs.symm.trans run
          simpa using equal
        refine bind_ensure (fun _ => ?_) fun none' => absurd none' (by simp)
        refine bind_write ?_
        have ended := balanced.ended found open' owner dev
          (Counted.captures (balanced.pools device) graph.mempoolId _) rfl
          ((fun graph => { graph with hasGraph := true }) ∘
            fun graph => { graph with graph := some capture.nodes })
          (by simp [SUPAGraph.core, noExec])
        rw [← Store.modify_modify] at ended
        refine instantiate_settled self graph.capturedGeneratorStates (some capture.nodes) ended
          { graph with graph := some capture.nodes, hasGraph := true } ?_ rfl
        unfold World.setAllocator
        rw [Store.modify_modify, Store.get?_modify_found found]
        rfl
      · cases same
        have equal := runs.symm.trans run
        simp at equal
      · exact absurd inRange (invalid device rfl)
    · rw [valid] at invalid
      simp at invalid

end End

section Calls

variable {holds : GraphId → Option PoolKey} {world : World}

theorem Balanced.clears (balanced : Balanced holds world) {self : GraphId}
    (none' : holds self = none) :
    Balanced holds { world with cleared := self :: world.cleared } := by
  refine { balanced with cleared := fun id member => ?_ }
  rcases List.mem_cons.mp member with same | old
  · rw [same]
    exact none'
  · exact balanced.cleared id old

theorem reset_settled (self : GraphId) (balanced : Balanced holds world)
    (uncaptured : Uncaptured world self) :
    wp (reset self) (fun _ after => ∃ later, Balanced later after ∧ later self = none)
      (Spares Exn.Fatal Settled) world := by
  refine bind_getGraph (fun graph found => ?_) (.inl trivial)
  cases flags : (graph.hasGraph || graph.hasGraphExec) with
  | false =>
    obtain ⟨noGraph, noExec⟩ := Bool.or_eq_false_iff.mp flags
    have none' := balanced.holdsNone (fun other there => by
      obtain rfl := Option.mem_unique found there
      exact ⟨noGraph, noExec⟩) uncaptured
    rw [noGraph, noExec]
    exact ⟨holds, balanced.clears none', none'⟩
  | true =>
    have held' := balanced.owns self graph found (by simpa using flags)
    obtain ⟨⟨device, mempoolId⟩, held⟩ := Option.isSome_iff_exists.mp held'
    obtain ⟨again, there, dev, inRange, named, _⟩ := balanced.holder self device mempoolId held
    obtain rfl := Option.mem_unique found there
    subst named
    refine bind_whenever (fun _ => ?_) fun no => absurd no (by simp)
    rw [dev]
    have releases := releasePool_spec (balanced.pools device) graph.mempoolId (balanced.used held)
    refine bind_onAllocator (fun index after same _ run => ?_)
      (fun exception index after same _ run => ?_) (fun invalid => absurd inRange (invalid device rfl))
    · cases same
      obtain ⟨counted, underway⟩ := wp_ok releases run
      have released := balanced.released found held uncaptured counted underway
      have none' : update holds self none self = none := update_self ..
      cases hasGraph : graph.hasGraph with
      | true =>
        refine bind_write ?_
        cases hasExec : graph.hasGraphExec with
        | true =>
          refine bind_write ?_
          have both := released ((fun graph => { graph with hasGraphExec := false }) ∘
            fun graph => { graph with hasGraph := false }) ⟨rfl, rfl⟩
          rw [← Store.modify_modify] at both
          exact ⟨_, both.clears none', none'⟩
        | false =>
          exact ⟨_, (released (fun graph => { graph with hasGraph := false })
            ⟨rfl, hasExec⟩).clears none', none'⟩
      | false =>
        rw [hasGraph, Bool.false_or] at flags
        rw [flags]
        refine bind_write ?_
        exact ⟨_, (released (fun graph => { graph with hasGraphExec := false })
          ⟨hasGraph, rfl⟩).clears none', none'⟩
    · cases same
      have refused := wp_error releases run
      rcases refused with fatal | impossible
      · exact .inl fatal
      · exact impossible.elim

theorem Balanced.create (balanced : Balanced holds world) (stream : Stream) :
    Settled { world with graphs := world.graphs.push { captureStream := stream } } := by
  have unheld : holds world.graphs.fresh = none := by
    cases held : holds world.graphs.fresh with
    | none => rfl
    | some key =>
      obtain ⟨graph, found, _⟩ := balanced.holder _ key.1 key.2 held
      exact absurd (Store.lt_fresh found) (lt_irrefl _)
  have old : ∀ id graph, world.graphs.get? id = some graph →
      (world.graphs.push { captureStream := stream }).get? id = some graph := by
    intro id graph found
    rw [Store.get?_push, if_neg (Nat.ne_of_lt (Store.lt_fresh found))]
    exact found
  refine ⟨holds, { balanced with total := ?_, holder := ?_, owns := ?_, recording := ?_, filters := ?_ }⟩
  · intro device mempoolId
    rw [Store.fresh_push, Finset.sum_range_succ, unheld, balanced.total]
    exact (add_zero _).symm
  · intro id device mempoolId held
    obtain ⟨graph, found, rest⟩ := balanced.holder id device mempoolId held
    exact ⟨graph, old id graph found, rest⟩
  · intro id graph found flags
    rw [Store.get?_push] at found
    split at found
    · rw [← Option.some.inj found] at flags
      simp at flags
    · exact balanced.owns id graph found flags
  · intro other capture open'
    obtain ⟨graph, device, found, rest⟩ := balanced.recording other capture open'
    exact ⟨graph, device, old _ graph found, rest⟩
  · intro device entry member
    obtain ⟨id, graph, capture, refers, found, rest⟩ := balanced.filters device entry member
    exact ⟨id, graph, capture, refers, old id graph found, rest⟩

theorem Balanced.destroy (balanced : Balanced holds world) {self : GraphId}
    (none' : holds self = none) :
    Balanced holds { world with graphs := world.graphs.erase self } := by
  have old : ∀ id graph, id ≠ self → world.graphs.get? id = some graph →
      (world.graphs.erase self).get? id = some graph := by
    intro id graph other found
    rw [Store.get?_erase, if_neg other]
    exact found
  refine { balanced with total := ?_, holder := ?_, owns := ?_, recording := ?_, filters := ?_ }
  · simpa using balanced.total
  · intro id device mempoolId held
    obtain ⟨graph, found, rest⟩ := balanced.holder id device mempoolId held
    have other : id ≠ self := by
      intro same
      rw [same, none'] at held
      simp at held
    exact ⟨graph, old id graph other found, rest⟩
  · intro id graph found flags
    rw [Store.get?_erase] at found
    split at found
    · simp at found
    · exact balanced.owns id graph found flags
  · intro other capture open'
    obtain ⟨graph, device, found, rest⟩ := balanced.recording other capture open'
    exact ⟨graph, device, old _ graph (balanced.notRecording none' other capture open') found, rest⟩
  · intro device entry member
    obtain ⟨id, graph, capture, refers, found, open', owner, rest⟩ :=
      balanced.filters device entry member
    exact ⟨id, graph, capture, refers,
      old id graph (owner ▸ balanced.notRecording none' _ capture open') found, open', owner, rest⟩

theorem destroySUPAGraph_settled (self : GraphId) (balanced : Balanced holds world)
    (uncaptured : Uncaptured world self) :
    wp (destroySUPAGraph self) (fun _ after => Settled after) (Spares Exn.Fatal Settled) world := by
  refine bind_getGraph (fun graph _ => ?_) (.inl trivial)
  refine wp_seq _ (wp_mono (Keeps.forEach (fun entry =>
    keeps_unregisterGraph (tolerates_untouched 0) entry.1 self) graph.capturedGeneratorStates
    world (Untouched.refl world)) (fun _ _ untouched => untouched) ?_) ?_
  · intro exception after failed
    exact failed.imp_right fun untouched => untouched.settled ⟨holds, balanced⟩
  intro _ unregistered untouched
  refine wp_seq _ (reset_settled self (balanced.same untouched.same) ?_) ?_
  · intro stream capture open'
    rw [untouched.captures] at open'
    exact uncaptured stream capture open'
  · rintro _ cleared ⟨later, balanced', none'⟩
    exact ⟨later, balanced'.destroy none'⟩

theorem debugDump_settled (call : Call) (self : GraphId) (balanced : Balanced holds world)
    (entered : call.enter world = world)
    (orderly : ∀ graph, world.graphs.get? self = some graph → world.graphsDebug = true →
      graph.hasGraph = true → graph.hasGraphExec = true ∨ call.answers .graphDestroy = false) :
    wp (debugDump self) (fun _ after => Settled after) (Spares Exn.Fatal Settled) world := by
  have answers : world.answers = call.answers := by rw [← entered]; rfl
  refine bind_getGraph (fun graph found => ?_) (.inl trivial)
  refine bind_read ?_
  refine wp_final (bind_whenever (fun dumps => ?_) fun _ => ⟨holds, balanced⟩)
  obtain ⟨debug, hasGraph⟩ := Bool.and_eq_true_iff.mp dumps
  rw [bind_assoc]
  refine bind_supaCheck (fun destroyed => ?_) fun _ => .inr ⟨holds, balanced⟩
  have exec := (orderly graph found debug hasGraph).resolve_right fun fails => by
    rw [answers, fails] at destroyed
    simp at destroyed
  exact ⟨holds, balanced.reflag found (.inl hasGraph) (fun graph => { graph with hasGraph := false })
    ⟨rfl, rfl⟩ (.inr exec)⟩

end Calls

end TorchSupa.Graph
