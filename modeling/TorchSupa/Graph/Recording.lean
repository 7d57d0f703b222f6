import TorchSupa.Graph.Draws

/-!
Captures: what `capture_begin` and `capture_end` do to the invariant of `Sound`.
-/

namespace TorchSupa.Graph

open Outcome Allocator Ranges Function

section Captures

variable {generator : GeneratorId} {world : World}

variable (sound : Sound generator world)
include sound

theorem Sound.beginCapture (stream : Stream) (capture : Capture)
    {graph : SUPAGraph} (none' : capture.nodes = [])
    (owner : world.graphs.get? capture.owner = some graph)
    (generators : capture.generators = graph.generators)
    (idle : generator ∈ graph.generators → Idle generator world) :
    Sound generator { world with
      captures := Function.update world.captures stream (some capture) } := by
  have captures : ∀ other found, update world.captures stream (some capture) other = some found →
      other = stream ∧ found = capture ∨ other ≠ stream ∧ world.captures other = some found := by
    intro other found is
    by_cases here : other = stream
    · subst here
      rw [update_self] at is
      exact .inl ⟨rfl, (Option.some.inj is).symm⟩
    · rw [update_of_ne here] at is
      exact .inr ⟨here, is⟩
  refine { sound with single := ?_, recording := ?_, foreign := ?_, registered := ?_, owned := ?_ }
  · intro first second one two atFirst atSecond inOne inTwo
    rcases captures first one atFirst with ⟨hereOne, rfl⟩ | ⟨_, wasOne⟩
    · rcases captures second two atSecond with ⟨hereTwo, rfl⟩ | ⟨_, wasTwo⟩
      · rw [hereOne, hereTwo]
      · exact absurd inTwo (idle (generators ▸ inOne) second two wasTwo)
    · rcases captures second two atSecond with ⟨_, rfl⟩ | ⟨_, wasTwo⟩
      · exact absurd inOne (idle (generators ▸ inTwo) first one wasOne)
      · exact sound.single first second one two wasOne wasTwo inOne inTwo
  · intro other found is member
    rcases captures other found is with ⟨_, rfl⟩ | ⟨_, was⟩
    · rw [none']
      exact Laid.nil
    · exact sound.recording other found was member
  · intro other found is absent
    rcases captures other found is with ⟨_, rfl⟩ | ⟨_, was⟩
    · rw [none']
      rfl
    · exact sound.foreign other found was absent
  · intro other found owning is alive member
    rcases captures other found is with ⟨_, rfl⟩ | ⟨_, was⟩
    · rw [owner] at alive
      rw [← Option.some.inj alive, ← generators]
      exact member
    · exact sound.registered other found owning was alive member
  · intro other found is
    rcases captures other found is with ⟨_, rfl⟩ | ⟨_, was⟩
    · exact Store.lt_fresh owner
    · exact sound.owned other found was

theorem Sound.dropCapture (stream : Stream) :
    Sound generator { world with captures := Function.update world.captures stream none } := by
  have captures : ∀ other found, update world.captures stream none other = some found →
      world.captures other = some found := by
    intro other found is
    by_cases here : other = stream
    · rw [here, update_self] at is
      simp at is
    · rwa [update_of_ne here] at is
  exact { sound with
    single := fun first second one two atFirst atSecond =>
      sound.single first second one two (captures _ _ atFirst) (captures _ _ atSecond)
    recording := fun other found is => sound.recording other found (captures _ _ is)
    foreign := fun other found is => sound.foreign other found (captures _ _ is)
    registered := fun other found graph is => sound.registered other found graph (captures _ _ is)
    owned := fun other found is => sound.owned other found (captures _ _ is) }

theorem Sound.restart (target : GeneratorId) (idle : target = generator → Idle generator world) :
    Sound generator { world with
      generators := Function.update world.generators target
        { world.generators target with capturing := true, offsetIntragraph := 0 } } := by
  by_cases same : target = generator
  · subst same
    refine { sound with aligned := ?_, exact := ?_, drawn := ?_, intragraph := ?_, recording := ?_ }
    · simpa using sound.aligned
    · simpa using sound.exact
    · simpa using sound.drawn
    · simp
    · intro stream capture there member
      exact absurd member (idle rfl stream capture there)
  · exact sound.updateGenerator target (fun _ => _) fun equal => absurd equal same

end Captures

section CaptureBegin

variable {generator : GeneratorId}

theorem capturePrologue_spec (frame : Store SUPAGraph → (Stream → Option Capture) → Prop)
    {world : World} (target : GeneratorId)
    (holds : Sound generator world ∧ frame world.graphs world.captures)
    (idle : target = generator → Idle generator world) :
    wp (capturePrologue target)
      (fun _ after => Sound generator after ∧ frame after.graphs after.captures)
      (fun exception after => exception.Fatal ∨
        Sound generator after ∧ frame after.graphs after.captures) world := by
  unfold capturePrologue
  rw [wp_bind]
  have started : Sound generator { world with
      generators := update world.generators target
        { world.generators target with capturing := true, offsetIntragraph := 0 } } ∧
      frame world.graphs world.captures := ⟨holds.1.restart target idle, holds.2⟩
  have tolerates := tolerates_sound generator frame
  refine Keeps.bind (keeps_getGenerator target) (fun self => ?_) _ started
  exact Keeps.bind (keeps_fillSeed tolerates target self.seed) fun _ =>
    keeps_fillOffset tolerates target 0

def Ready (generator : GeneratorId) (self : GraphId) (graphs : Store SUPAGraph)
    (captures : Stream → Option Capture) : Prop :=
  ∀ graph, graphs.get? self = some graph → generator ∈ graph.generators →
    ∀ stream capture, captures stream = some capture → generator ∉ capture.generators

theorem prologues_spec (self : GraphId) (entries : List (GeneratorId × Nat)) (world : World)
    (sound : Sound generator world) (ready : Ready generator self world.graphs world.captures)
    (idle : generator ∈ entries.map (·.1) → Idle generator world) :
    wp (forEach (fun entry => capturePrologue entry.1) entries)
      (fun _ after => Sound generator after ∧ Ready generator self after.graphs after.captures)
      (Spares Exn.Fatal (Sound generator)) world := by
  refine wp_mono (wp_forEach (fun rest after => Sound generator after ∧
    Ready generator self after.graphs after.captures ∧
      (generator ∈ rest.map (·.1) → Idle generator after)) ?_ entries world ⟨sound, ready, idle⟩)
    (fun _ after holds => ⟨holds.1, holds.2.1⟩) (fun _ after holds => holds)
  intro entry rest before holds
  have idleNow : entry.1 = generator → Idle generator before :=
    fun same => holds.2.2 (by simp [same])
  have frame := capturePrologue_spec (fun graphs captures =>
      Ready generator self graphs captures ∧ captures = before.captures) entry.1
    ⟨holds.1, holds.2.1, rfl⟩ idleNow
  refine wp_mono frame ?_ ?_
  · rintro _ after ⟨sound, ready, captures⟩
    refine ⟨sound, ready, fun member stream capture there => ?_⟩
    exact holds.2.2 (.tail _ member) stream capture (captures ▸ there)
  · rintro exception after (fatal | ⟨sound, _⟩)
    · exact .inl fatal
    · exact .inr sound

theorem Ready.updateGraph {self : GraphId} {graphs : Store SUPAGraph}
    {captures : Stream → Option Capture} (ready : Ready generator self graphs captures)
    (change : SUPAGraph → SUPAGraph)
    (states : ∀ graph, (change graph).capturedGeneratorStates = graph.capturedGeneratorStates) :
    Ready generator self (graphs.modify self change) captures := by
  intro graph found member
  rcases Store.of_get?_modify found with ⟨_, before, there, rfl⟩ | ⟨other, _⟩
  · refine ready before there ?_
    unfold SUPAGraph.generators at member ⊢
    rwa [states] at member
  · exact absurd rfl other

theorem chooseMempool_spec {world : World} (self : GraphId) (pool : MempoolId)
    (sound : Sound generator world) (ready : Ready generator self world.graphs world.captures) :
    wp (chooseMempool self pool)
      (fun _ after => Sound generator after ∧ Ready generator self after.graphs after.captures)
      (Spares Exn.Fatal (Sound generator)) world := by
  have chosen : ∀ before : World, Sound generator before →
      Ready generator self before.graphs before.captures → ∀ mempoolId : MempoolId,
      Sound generator { before with
        graphs := before.graphs.modify self fun graph => { graph with mempoolId } } ∧
      Ready generator self (before.graphs.modify self fun graph => { graph with mempoolId })
        before.captures :=
    fun before sound ready mempoolId =>
      ⟨sound.updateGraph_plain self _ (fun _ => rfl) (fun _ => rfl) (fun _ owns => owns),
        ready.updateGraph _ fun _ => rfl⟩
  unfold chooseMempool
  split
  · refine bind_ensure (fun _ => ?_) fun _ => .inr sound
    exact chosen world sound ready pool
  · rw [wp_bind]
    have counted : Sound generator { world with uuid := world.uuid + 1 } :=
      sound.outside rfl rfl rfl rfl
    have own := chosen { world with uuid := world.uuid + 1 } counted ready (world.uuid, 0)
    change wp (ensure _ _) _ _ _
    refine (wp_ite _ _ _).mpr ?_
    split
    · exact own
    · exact .inr own.1

theorem Sound.setAllocator {world : World} (sound : Sound generator world) (self : GraphId)
    (device : DeviceIndex) (mempoolId : MempoolId) (after : DeviceCachingAllocator) :
    Sound generator (world.setAllocator self device mempoolId after) :=
  sound.outside rfl rfl rfl rfl

theorem streamBeginCapture_spec {world : World} (self : GraphId) (stream : Stream)
    (sound : Sound generator world) (ready : Ready generator self world.graphs world.captures) :
    wp (streamBeginCapture self stream) (fun _ after => Sound generator after)
      (Spares Exn.Fatal (Sound generator)) world := by
  refine bind_supaCheck (fun _ => ?_) fun _ => .inr sound
  change wp (ensure _ _ >>= _) _ _ _
  refine bind_ensure (fun _ => ?_) fun _ => .inr sound
  refine bind_getGraph (fun graph found => ?_) (.inl trivial)
  have begun := sound.beginCapture stream
    { id := world.nextCaptureId
      valid := world.answers .captureStaysActive
      owner := self
      generators := graph.capturedGeneratorStates.map (·.1) } rfl found rfl
    fun member => ready graph found member
  exact begun.outside rfl rfl rfl rfl

theorem captureBegin_spec {world : World} (self : GraphId) (pool : MempoolId)
    (accepts : Thread → Stream → Bool) (sound : Sound generator world)
    (idle : (∃ graph, world.graphs.get? self = some graph ∧ generator ∈ graph.generators) ∨
      world.defaultGenerator world.currentDevice = generator → Idle generator world) :
    wp (captureBegin self pool accepts) (fun _ after => Sound generator after)
      (Spares Exn.Fatal (Sound generator)) world := by
  unfold captureBegin
  rw [wp_bind]
  refine (wp_modify _).mpr ?_
  have begun : Sound generator { world with cleared := world.cleared.filter (· != self) } :=
    sound.outside rfl rfl rfl rfl
  refine bind_getGraph (fun graph found => ?_) (.inl trivial)
  refine bind_ensure (fun unowned => ?_) fun _ => .inr begun
  refine bind_read ?_
  have registers := registerGeneratorState_spec
    (fun graphs captures => Ready generator self graphs captures ∧
      captures = world.captures) self (world.defaultGenerator world.currentDevice) begun ?_ ?_
  · refine wp_seq _ (wp_mono registers (fun _ _ holds => holds) ?_) ?_
    · rintro exception after (fatal | ⟨sound, _⟩)
      · exact .inl fatal
      · exact .inr sound
    rintro _ registered ⟨sound, ready, captures⟩
    refine bind_getGraph (fun graph found => ?_) (.inl trivial)
    refine wp_seq _ (prologues_spec self graph.capturedGeneratorStates registered sound ready
      fun member => ready graph found member) ?_
    rintro _ started ⟨sound, ready⟩
    refine bind_ensure (fun _ => ?_) fun _ => .inr sound
    rw [wp_bind]
    refine (wp_modify _).mpr ?_
    have placed := sound.updateGraph_plain self (fun graph => { graph with
        captureStream := world.currentStream, captureDev := some world.currentDevice })
      (fun _ => rfl) (fun _ => rfl) (fun _ owns => owns)
    refine wp_seq _ (chooseMempool_spec self pool placed (ready.updateGraph _ fun _ => rfl)) ?_
    rintro _ chosen ⟨sound, ready⟩
    refine bind_getGraph (fun graph found => ?_) (.inl trivial)
    refine bind_onAllocator (fun index allocator _ _ _ => ?_)
      (fun _ index allocator _ _ _ => .inr (sound.setAllocator self index _ allocator))
      fun _ => .inr sound
    replace sound := sound.setAllocator self index graph.mempoolId allocator
    refine wp_seq _ (streamBeginCapture_spec self graph.captureStream sound ready) ?_
    intro _ capturing sound
    refine wp_seq _ (keeps_streamGetCaptureInfo _ capturing sound) ?_
    rintro ⟨status, captureId⟩ after sound
    rw [wp_bind]
    refine (wp_modify _).mpr ?_
    have named := sound.updateGraph_plain self (fun graph => { graph with captureId })
      (fun _ => rfl) (fun _ => rfl) (fun _ owns => owns)
    refine (wp_ite _ _ _).mpr ?_
    split
    · exact named
    · exact .inr named
  · intro _ other there
    rw [found] at there
    cases there
    simpa using unowned
  · refine ⟨?_, rfl⟩
    intro changed there member
    obtain rfl := Option.some.inj ((Store.get?_modify_found found _).symm.trans there)
    unfold SUPAGraph.generators at member
    rw [keys_setEntry] at member
    split at member
    · exact idle (.inl ⟨graph, found, member⟩)
    · rcases List.mem_append.mp member with old | new
      · exact idle (.inl ⟨graph, found, old⟩)
      · exact idle (.inr (List.mem_singleton.mp new).symm)

end CaptureBegin

end TorchSupa.Graph
