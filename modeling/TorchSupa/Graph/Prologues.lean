import TorchSupa.Graph.RngState
import TorchSupa.Graph.References

/-!
What a failed `capture_begin` leaves behind: the prologues of the generators run before most of
its checks, and nothing undoes them.
-/

namespace TorchSupa.Graph

open Outcome Allocator

section Prologue

variable {world : World} {generator : GeneratorId}

def World.fillsSeed (world : World) (generator : GeneratorId) : Bool :=
  (world.generators generator).seedExtragraph.isSome && world.answers (.fillSeed generator)

def World.fills (world : World) (generator : GeneratorId) : Bool :=
  world.fillsSeed generator && (world.generators generator).offsetExtragraph.isSome &&
    world.answers (.fillOffset generator)

def World.touched (world : World) : List GeneratorId → List GeneratorId
  | [] => []
  | generator :: rest =>
    if world.fills generator then generator :: world.touched rest else [generator]

def GeneratorState.prologued (self : GeneratorState) (seeds offsets : Bool) : GeneratorState :=
  { self with
    capturing := true
    offsetIntragraph := 0
    seedExtragraph := if seeds then some self.seed else self.seedExtragraph
    offsetExtragraph := if offsets then some 0 else self.offsetExtragraph }

@[simp] theorem GeneratorState.prologued_twice (self : GeneratorState) (seeds offsets : Bool) :
    (self.prologued seeds offsets).prologued seeds offsets = self.prologued seeds offsets := by
  cases seeds <;> cases offsets <;> rfl

def World.afterPrologue (world : World) (generator : GeneratorId) : World :=
  { world with
    generators := Function.update world.generators generator
      ((world.generators generator).prologued (world.fillsSeed generator) (world.fills generator)) }

def World.afterPrologues (world : World) : List GeneratorId → World
  | [] => world
  | generator :: rest =>
    if world.fills generator then (world.afterPrologue generator).afterPrologues rest
    else world.afterPrologue generator

open World

theorem fillSeed_spec (value : Nat) : wp (fillSeed generator value)
      (fun _ after => world.fillsSeed generator = true ∧ after = { world with
        generators := Function.update world.generators generator
          { world.generators generator with seedExtragraph := some value } })
      (fun _ after => world.fillsSeed generator = false ∧ after = world) world := by
  unfold fillSeed getGenerator fillsSeed
  rw [wp_bind]
  refine bind_read ?_
  rw [wp_pure]
  cases tensor : (world.generators generator).seedExtragraph with
  | none => exact ⟨rfl, rfl⟩
  | some _ =>
    refine bind_supaCheck (fun filled => ?_) fun failed => ?_
    · exact ⟨by simp [filled], rfl⟩
    · exact ⟨by simp [failed], rfl⟩

theorem fillOffset_spec (value : Nat) : wp (fillOffset generator value)
      (fun _ after => ((world.generators generator).offsetExtragraph.isSome &&
          world.answers (.fillOffset generator)) = true ∧ after = { world with
        generators := Function.update world.generators generator
          { world.generators generator with offsetExtragraph := some value } })
      (fun _ after => ((world.generators generator).offsetExtragraph.isSome &&
          world.answers (.fillOffset generator)) = false ∧ after = world) world := by
  unfold fillOffset getGenerator
  rw [wp_bind]
  refine bind_read ?_
  rw [wp_pure]
  cases tensor : (world.generators generator).offsetExtragraph with
  | none => exact ⟨rfl, rfl⟩
  | some _ =>
    refine bind_supaCheck (fun filled => ?_) fun failed => ?_
    · exact ⟨by simp [filled], rfl⟩
    · exact ⟨by simp [failed], rfl⟩

open GeneratorState

theorem capturePrologue_outcome : wp (capturePrologue generator)
      (fun _ after => world.fills generator = true ∧ after = world.afterPrologue generator)
      (fun _ after => world.fills generator = false ∧ after = world.afterPrologue generator)
      world := by
  refine bind_write ?_
  rw [wp_bind]
  refine bind_read ?_
  rw [wp_pure]
  -- the flag and the counter are set by now, whatever becomes of the tensors
  refine wp_seq _ (wp_mono (fillSeed_spec _) (fun _ _ holds => holds) ?_) ?_
  · rintro _ _ ⟨failed, rfl⟩
    have unfilled : world.fillsSeed generator = false := by
      simpa [fillsSeed] using failed
    refine ⟨by simp [fills, unfilled], ?_⟩
    simp [afterPrologue, prologued, fills, unfilled]
  · rintro _ _ ⟨succeeded, rfl⟩
    have filled : world.fillsSeed generator = true := by
      simpa [fillsSeed] using succeeded
    refine wp_mono (fillOffset_spec 0) ?_ ?_
    · rintro _ _ ⟨both, rfl⟩
      have fills : world.fills generator = true := by
        simpa [fills, filled] using both
      refine ⟨fills, ?_⟩
      simp [afterPrologue, prologued, fills, filled]
    · rintro _ _ ⟨second, rfl⟩
      have fills : world.fills generator = false := by
        simpa [fills, filled] using second
      refine ⟨fills, ?_⟩
      simp [afterPrologue, prologued, fills, filled]

theorem fillsSeed_afterPrologue (world : World) (generator other : GeneratorId) :
    (world.afterPrologue generator).fillsSeed other = world.fillsSeed other := by
  by_cases same : other = generator
  · subst same
    cases tensor : (world.generators other).seedExtragraph <;>
      simp [fillsSeed, afterPrologue, prologued, tensor]
    split <;> simp
  · simp [fillsSeed, afterPrologue, same]

theorem fills_afterPrologue (world : World) (generator other : GeneratorId) :
    (world.afterPrologue generator).fills other = world.fills other := by
  unfold fills
  rw [fillsSeed_afterPrologue]
  by_cases same : other = generator
  · subst same
    cases tensor : (world.generators other).offsetExtragraph <;>
      simp [afterPrologue, prologued, fills, tensor]
    split <;> simp
  · simp [afterPrologue, same]

theorem touched_congr {world after : World} (same : ∀ generator, after.fills generator =
    world.fills generator) (generators : List GeneratorId) :
    after.touched generators = world.touched generators := by
  induction generators with
  | nil => rfl
  | cons generator rest ih => simp only [touched, same, ih]

theorem prologues_outcome (entries : List (GeneratorId × Nat)) (world : World) :
    wp (forEach (fun entry => capturePrologue entry.1) entries)
      (fun _ after => (entries.map (·.1)).all world.fills = true ∧
        after = world.afterPrologues (entries.map (·.1)))
      (fun _ after => (entries.map (·.1)).all world.fills = false ∧
        after = world.afterPrologues (entries.map (·.1)))
      world := by
  induction entries generalizing world with
  | nil => exact ⟨rfl, rfl⟩
  | cons entry rest ih =>
    unfold forEach
    rw [List.map_cons]
    unfold afterPrologues
    refine wp_seq _ (wp_mono capturePrologue_outcome (fun _ _ holds => holds) ?_) ?_
    · rintro _ _ ⟨failed, rfl⟩
      exact ⟨by simp [failed], by simp [failed]⟩
    · rintro _ _ ⟨filled, rfl⟩
      have fills : (world.afterPrologue entry.1).fills = world.fills :=
        funext (fills_afterPrologue world entry.1)
      have spec := ih (world.afterPrologue entry.1)
      rw [fills] at spec
      simpa [filled] using spec

theorem generators_afterPrologues (generators : List GeneratorId) (world : World)
    (generator : GeneratorId) :
    (world.afterPrologues generators).generators generator =
      if generator ∈ world.touched generators then
        (world.generators generator).prologued (world.fillsSeed generator) (world.fills generator)
      else world.generators generator := by
  induction generators generalizing world with
  | nil => simp [afterPrologues, touched]
  | cons first rest ih =>
    have alone : (world.afterPrologue first).generators generator =
        if generator = first then
          (world.generators generator).prologued (world.fillsSeed generator) (world.fills generator)
        else world.generators generator := by
      by_cases same : generator = first
      · subst same
        simp [afterPrologue]
      · simp [afterPrologue, same]
    by_cases filled : world.fills first = true
    · have later := ih (world.afterPrologue first)
      rw [touched_congr (fills_afterPrologue world first), fillsSeed_afterPrologue,
        fills_afterPrologue, alone] at later
      simp only [afterPrologues, touched, filled, if_true, later]
      by_cases same : generator = first
      · subst same
        simp
      · simp [same]
    · simp [afterPrologues, touched, filled, alone]

end Prologue

section Registration

variable {world : World} {self : GraphId} {generator : GeneratorId}

/-- The generator can be registered: no capture is under way, and its tensors exist or can be
allocated. -/
def World.registers (world : World) (generator : GeneratorId) : Bool :=
  !world.capturesCurrent &&
    (!(world.generators generator).registeredGraphs.isEmpty || world.answers (.empty generator))

def GeneratorState.registered (state : GeneratorState) (graph : GraphId) : GeneratorState :=
  { state with
    seedExtragraph := if state.registeredGraphs.isEmpty then some 0 else state.seedExtragraph
    offsetExtragraph := if state.registeredGraphs.isEmpty then some 0 else state.offsetExtragraph
    registeredGraphs := state.registeredGraphs.insert graph }

def World.enrolled (world : World) (self : GraphId) (generator : GeneratorId) : World :=
  { world with
    graphs := world.graphs.modify self fun graph =>
      { graph with capturedGeneratorStates := setEntry graph.capturedGeneratorStates generator 0 }
    generators := Function.update world.generators generator
      ((world.generators generator).registered self) }

theorem registerGeneratorState_exact : wp (registerGeneratorState self generator)
      (fun _ after => world.registers generator = true ∧ after = world.enrolled self generator)
      (fun _ after => world.registers generator = false ∧ after.generators = world.generators)
      world := by
  unfold registerGeneratorState updateGraph GeneratorState.registerGraph updateGenerator
    getGenerator World.registers
  refine bind_write (bind_assertNotCapturing (fun eager => ?_) fun captured => ?_)
  · have free : world.capturesCurrent = false := eager
    rw [wp_bind]
    refine bind_read ?_
    rw [wp_pure]
    refine bind_whenever (fun first => ?_) fun again => ?_
    · have empty : (world.generators generator).registeredGraphs.isEmpty = true := first
      rw [bind_assoc]
      refine bind_supaCheck (fun made => ?_) fun failed => ?_
      · have answered : world.answers (.empty generator) = true := made
        refine ⟨by simp [free, answered], ?_⟩
        simp [World.enrolled, GeneratorState.registered, empty]
      · have refused : world.answers (.empty generator) = false := failed
        exact ⟨by simp only [free, empty, refused]; rfl, rfl⟩
    · have used : (world.generators generator).registeredGraphs.isEmpty = false := again
      refine ⟨by simp only [free, used]; rfl, ?_⟩
      simp [World.enrolled, GeneratorState.registered, used]
  · have busy : world.capturesCurrent = true := captured
    exact ⟨by simp [busy], rfl⟩

end Registration

section Begin

variable {world : World} {self : GraphId} {graph : SUPAGraph} {pool : MempoolId}

def World.members (world : World) (graph : SUPAGraph) : List GeneratorId :=
  (setEntry graph.capturedGeneratorStates (world.defaultGenerator world.currentDevice) 0).map (·.1)

/-- `capture_begin` throws before it reaches the prologues. -/
def World.refuses (world : World) (graph : SUPAGraph) : Bool :=
  graph.hasGraphExec || !world.registers (world.defaultGenerator world.currentDevice)

/-- None of what `capture_begin` checks and calls after the prologues fails. -/
structure World.Begins (world : World) (pool : MempoolId) : Prop where
  stream : world.currentStream ≠ 0
  single : ¬ (pool.1 ≠ 0 ∧ pool.2 ≠ 0)
  uuid : pool = (0, 0) → 0 < world.uuid
  device : world.currentDevice < world.deviceCount
  admits : Admits (world.allocators world.currentDevice) (chosenMempool world pool)
  begins : world.answers .streamBeginCapture = true
  informs : world.answers .streamGetCaptureInfo = true
  active : world.answers .captureStaysActive = true

theorem afterPrologues_others (generators : List GeneratorId) (world : World) :
    world.afterPrologues generators =
      { world with generators := (world.afterPrologues generators).generators } := by
  induction generators generalizing world with
  | nil => rfl
  | cons generator rest ih =>
    unfold World.afterPrologues
    split
    · rw [ih]
      rfl
    · rfl

def World.joined (world : World) (self : GraphId) : World :=
  world.enrolled self (world.defaultGenerator world.currentDevice)

theorem chooseMempool_exact : wp (chooseMempool self pool)
      (fun _ after => (¬ (pool.1 ≠ 0 ∧ pool.2 ≠ 0) ∧ (pool = (0, 0) → 0 < world.uuid)) ∧
        after = { world with
          graphs := world.graphs.modify self fun graph =>
            { graph with mempoolId := chosenMempool world pool }
          uuid := after.uuid })
      (fun _ after => ¬ (¬ (pool.1 ≠ 0 ∧ pool.2 ≠ 0) ∧ (pool = (0, 0) → 0 < world.uuid)) ∧
        after.generators = world.generators) world := by
  unfold chooseMempool chosenMempool
  cases given : (pool.1 != 0 || pool.2 != 0) with
  | true =>
    have shared : pool ≠ (0, 0) := by
      rintro rfl
      simp at given
    refine bind_ensure (fun single => ?_) fun both => ?_
    · refine ⟨⟨fun both => ?_, fun none => absurd none shared⟩, rfl⟩
      simp [both.1, both.2] at single
    · refine ⟨fun holds => holds.1 ?_, rfl⟩
      simpa using both
  | false =>
    have own : pool = (0, 0) := by
      simp only [Bool.or_eq_false_iff, bne_eq_false_iff_eq] at given
      exact Prod.ext given.1 given.2
    change wp (ensure _ _) _ _ _
    refine wp_final (bind_ensure (fun positive => ?_) fun zero => ?_)
    · refine ⟨⟨fun both => ?_, fun _ => of_decide_eq_true positive⟩, rfl⟩
      simp [own] at both
    · refine ⟨fun holds => ?_, rfl⟩
      exact absurd (holds.2 own) (of_decide_eq_false zero)

theorem bind_found {β : Type} {next : SUPAGraph → GraphM β} {normal : β → World → Prop}
    {thrown : Exn → World → Prop} (found : world.graphs.get? self = some graph)
    (spec : wp (next graph) normal thrown world) :
    wp (getGraph self >>= next) normal thrown world := by
  unfold getGraph
  rw [bind_assoc]
  refine bind_read ?_
  rw [found]
  exact spec

theorem begin_exact {stream : Stream} {device : DeviceIndex} (accepts : Thread → Stream → Bool)
    (current : world.currentStream = stream) (on : world.currentDevice = device)
    (quiet : world.captures stream = none) (found : world.graphs.get? self = some graph) :
    wp (do
        ensure (stream != 0) (.torchCheck "SUPA graphs must be captured on a non-default stream.")
        updateGraph self fun graph => { graph with captureStream := stream, captureDev := some device }
        chooseMempool self pool
        let graph ← getGraph self
        beginAllocateToPool self graph.captureDev graph.mempoolId accepts
        streamBeginCapture self graph.captureStream
        let (status, captureId) ← streamGetCaptureInfo stream
        updateGraph self fun graph => { graph with captureId }
        ensure (status == .active) .internalAssert)
      (fun _ _ => world.Begins pool)
      (fun _ after => ¬ world.Begins pool ∧ after.generators = world.generators) world := by
  subst current on
  refine bind_ensure (fun nonzero => ?_) fun zero => ?_
  · refine bind_write ?_
    refine wp_seq _ (wp_mono chooseMempool_exact (fun _ _ holds => holds) ?_) ?_
    · rintro _ after ⟨invalid, same⟩
      exact ⟨fun begins => invalid ⟨begins.single, begins.uuid⟩, same⟩
    · rintro _ chosen ⟨⟨single, uuid⟩, rest⟩
      generalize chosen.uuid = next at rest
      subst rest
      have placed : ((world.graphs.modify self fun graph => { graph with
            captureStream := world.currentStream, captureDev := some world.currentDevice }).modify
          self fun graph => { graph with mempoolId := chosenMempool world pool }).get? self =
          some { graph with
            captureStream := world.currentStream
            captureDev := some world.currentDevice
            mempoolId := chosenMempool world pool } := by
        simp [Store.get?_modify, found]
      refine bind_found placed ?_
      refine bind_onAllocator (fun index after dev valid run => ?_)
        (fun exception index after dev valid run => ?_) fun invalid => ?_
      · cases dev
        have admits := wp_ok (beginAllocateToPool_exact _ _) run
        unfold streamBeginCapture streamGetCaptureInfo
        simp only [bind_assoc]
        refine bind_supaCheck (fun begins => ?_) fun fails => ?_
        · refine bind_read (bind_ensure (fun _ => ?_) fun busy => ?_)
          · refine bind_found placed (bind_write (bind_write ?_))
            refine bind_supaCheck (fun informs => ?_) fun fails => ?_
            · refine bind_read ?_
              dsimp only
              rw [Function.update_self]
              simp only [pure_bind]
              refine bind_write (wp_final (bind_ensure (fun active => ?_) fun broken => ?_))
              · have stays : world.answers .captureStaysActive = true := by
                  by_contra invalidated
                  simp [Capture.status, World.setAllocator, invalidated] at active
                exact ⟨by simpa using nonzero, single, uuid, valid, admits, begins, informs, stays⟩
              · refine ⟨fun begins => ?_, rfl⟩
                have stays := begins.active
                simp [Capture.status, World.setAllocator, stays] at broken
            · exact ⟨fun begins => absurd begins.informs (Bool.eq_false_iff.mp fails), rfl⟩
          · change (world.captures world.currentStream).isNone = false at busy
            rw [quiet] at busy
            cases busy
        · exact ⟨fun begins => absurd begins.begins (Bool.eq_false_iff.mp fails), rfl⟩
      · cases dev
        have refused := wp_error (beginAllocateToPool_exact _ _) run
        exact ⟨fun begins => refused begins.admits, rfl⟩
      · exact ⟨fun begins => invalid _ rfl begins.device, rfl⟩
  · refine ⟨fun begins => begins.stream ?_, rfl⟩
    simpa using zero

theorem World.Begins.of_same {after : World} (begins : world.Begins pool)
    (stream : after.currentStream = world.currentStream) (uuid : after.uuid = world.uuid)
    (device : after.currentDevice = world.currentDevice)
    (count : after.deviceCount = world.deviceCount) (allocators : after.allocators = world.allocators)
    (answers : after.answers = world.answers) : after.Begins pool where
  stream := by rw [stream]; exact begins.stream
  single := begins.single
  uuid own := by rw [uuid]; exact begins.uuid own
  device := by rw [device, count]; exact begins.device
  admits := by
    unfold chosenMempool
    rw [allocators, device, uuid]
    exact begins.admits
  begins := by rw [answers]; exact begins.begins
  informs := by rw [answers]; exact begins.informs
  active := by rw [answers]; exact begins.active

theorem afterPrologues_congr {after : World} (generators : after.generators = world.generators)
    (answers : after.answers = world.answers) (touched : List GeneratorId) :
    (after.afterPrologues touched).generators = (world.afterPrologues touched).generators := by
  have seeds : after.fillsSeed = world.fillsSeed := by
    funext generator
    simp only [World.fillsSeed, generators, answers]
  have fills : after.fills = world.fills := by
    funext generator
    simp only [World.fills, seeds, generators, answers]
  funext generator
  rw [generators_afterPrologues, generators_afterPrologues,
    touched_congr (fun other => congrFun fills other), seeds, fills, generators]

theorem captures_of_registers {generator : GeneratorId} (registers : world.registers generator = true) :
    world.captures world.currentStream = none := by
  simp only [World.registers, Bool.and_eq_true, Bool.not_eq_true', World.capturesCurrent,
    World.captureStatus] at registers
  cases there : world.captures world.currentStream with
  | none => rfl
  | some capture =>
    have quiet := registers.1
    rw [there] at quiet
    cases valid : capture.valid <;> simp [Capture.status, valid] at quiet

theorem captureBegin_exact (pool : MempoolId) (accepts : Thread → Stream → Bool)
    (found : world.graphs.get? self = some graph) :
    wp (captureBegin self pool accepts) (fun _ _ => world.refuses graph = false ∧
        (world.members graph).all (world.joined self).fills = true ∧ world.Begins pool)
      (fun _ after =>
        world.refuses graph = true ∧ after.generators = world.generators ∨
        world.refuses graph = false ∧
          ¬ ((world.members graph).all (world.joined self).fills = true ∧ world.Begins pool) ∧
          after.generators = ((world.joined self).afterPrologues (world.members graph)).generators)
      world := by
  refine bind_write (bind_found found (bind_ensure (fun unowned => ?_) fun owned => ?_))
  · have noExec : graph.hasGraphExec = false := by simpa using unowned
    refine bind_read ?_
    refine wp_seq _ (wp_mono registerGeneratorState_exact (fun _ _ holds => holds) ?_) ?_
    · rintro _ after ⟨refused, same⟩
      have refuses : world.registers (world.defaultGenerator world.currentDevice) = false := refused
      exact .inl ⟨by simp [World.refuses, refuses], same⟩
    · rintro _ _ ⟨accepted, rfl⟩
      have registers : world.registers (world.defaultGenerator world.currentDevice) = true := accepted
      have admitted : world.refuses graph = false := by simp [World.refuses, noExec, registers]
      have enrolled : (world.graphs.modify self fun graph => { graph with
          capturedGeneratorStates := setEntry graph.capturedGeneratorStates
            (world.defaultGenerator world.currentDevice) 0 }).get? self = some { graph with
          capturedGeneratorStates := setEntry graph.capturedGeneratorStates
            (world.defaultGenerator world.currentDevice) 0 } := by
        simp [Store.get?_modify, found]
      refine bind_found enrolled ?_
      refine wp_seq _ (wp_mono (prologues_outcome _ _) (fun _ _ holds => holds) ?_) ?_
      · rintro _ _ ⟨unfilled, rfl⟩
        have some_ : (world.members graph).all (world.joined self).fills = false := unfilled
        refine .inr ⟨admitted, fun holds => ?_, ?_⟩
        · rw [some_] at holds
          exact absurd holds.1 Bool.false_ne_true
        · refine afterPrologues_congr ?_ ?_ _
          · rfl
          · rfl
      · rintro _ prepared ⟨filled, same⟩
        have all : (world.members graph).all (world.joined self).fills = true := filled
        rw [afterPrologues_others] at same
        subst same
        have quiet := captures_of_registers registers
        refine wp_mono (begin_exact accepts ?_ ?_ quiet enrolled) ?_ ?_
        · rfl
        · rfl
        · rintro _ after begins
          exact ⟨admitted, all, begins.of_same rfl rfl rfl rfl rfl rfl⟩
        · rintro _ after ⟨stops, same⟩
          refine .inr ⟨admitted, fun holds => ?_, ?_⟩
          · exact stops (holds.2.of_same rfl rfl rfl rfl rfl rfl)
          · rw [same]
            refine afterPrologues_congr ?_ ?_ _
            · rfl
            · rfl
  · have exec : graph.hasGraphExec = true := by simpa using owned
    exact .inl ⟨by simp [World.refuses, exec], rfl⟩

/-- What `capture_prologue` sets: the flag, the counter and the tensors. -/
def GeneratorState.captureMode (state : GeneratorState) : Bool × Nat × Option Nat × Option Nat :=
  (state.capturing, state.offsetIntragraph, state.seedExtragraph, state.offsetExtragraph)

/-- `capture_begin` succeeds, or leaves the capture mode of every generator of the graph as it
was. -/
def BeginsAtomically (world : World) (self : GraphId) (graph : SUPAGraph) (pool : MempoolId)
    (accepts : Thread → Stream → Bool) : Prop :=
  wp (captureBegin self pool accepts) (fun _ _ => True)
    (fun _ after => ∀ generator ∈ world.members graph,
      (after.generators generator).captureMode = (world.generators generator).captureMode) world

/-- The generator has its tensors, and if its prologue starts it is in capture mode already, its
counter is zero and the tensors that get filled hold what they are filled with. -/
structure World.Unmoved (world : World) (id : GraphId) (graph : SUPAGraph)
    (generator : GeneratorId) : Prop where
  mode : generator ∈ (world.joined id).touched (world.members graph) →
    (world.generators generator).capturing = true ∧
      (world.generators generator).offsetIntragraph = 0
  seed : (world.generators generator).seedExtragraph =
    if generator ∈ (world.joined id).touched (world.members graph) ∧
        (world.joined id).fillsSeed generator = true then
      some (world.generators generator).seed
    else ((world.joined id).generators generator).seedExtragraph
  offset : (world.generators generator).offsetExtragraph =
    if generator ∈ (world.joined id).touched (world.members graph) ∧
        (world.joined id).fills generator = true then some 0
    else ((world.joined id).generators generator).offsetExtragraph

theorem joined_same (generator : GeneratorId) :
    ((world.joined self).generators generator).capturing = (world.generators generator).capturing ∧
      ((world.joined self).generators generator).offsetIntragraph =
        (world.generators generator).offsetIntragraph ∧
      ((world.joined self).generators generator).seed = (world.generators generator).seed := by
  unfold World.joined World.enrolled
  by_cases same : generator = world.defaultGenerator world.currentDevice
  · subst same
    simp [GeneratorState.registered]
  · simp [same]

theorem unmoved_iff (generator : GeneratorId) :
    (((world.joined self).afterPrologues (world.members graph)).generators generator).captureMode =
        (world.generators generator).captureMode ↔ world.Unmoved self graph generator := by
  obtain ⟨capturing, counter, seed⟩ := @joined_same world self generator
  rw [generators_afterPrologues]
  by_cases started : generator ∈ (world.joined self).touched (world.members graph)
  · rw [if_pos started]
    simp only [GeneratorState.captureMode, GeneratorState.prologued, Prod.mk.injEq, seed]
    constructor
    · rintro ⟨flag, zero, seeds, offsets⟩
      refine ⟨fun _ => ⟨flag.symm, zero.symm⟩, ?_, ?_⟩
      · simp [started, seeds.symm]
      · simp [started, offsets.symm]
    · intro unmoved
      refine ⟨(unmoved.mode started).1.symm, (unmoved.mode started).2.symm, ?_, ?_⟩
      · rw [unmoved.seed]
        simp [started]
      · rw [unmoved.offset]
        simp [started]
  · rw [if_neg started]
    simp only [GeneratorState.captureMode, Prod.mk.injEq, capturing, counter, true_and]
    constructor
    · rintro ⟨seeds, offsets⟩
      exact ⟨fun member => absurd member started, by simp [started, seeds],
        by simp [started, offsets]⟩
    · intro unmoved
      refine ⟨?_, ?_⟩
      · rw [unmoved.seed]
        simp [started]
      · rw [unmoved.offset]
        simp [started]

def idleWorld : World where
  graphs := Store.empty.push { captureStream := 7 }
  generators := fun _ => {}
  defaultGenerator := fun _ => 0
  allocators := fun _ => default
  deviceCount := 1

end Begin

end TorchSupa.Graph
