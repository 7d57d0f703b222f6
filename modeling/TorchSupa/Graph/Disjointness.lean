import TorchSupa.Graph.Replaying

/-!
The kernels that use one generator state never draw from the same offset, whether they
are launched eagerly or by the replays of any graphs.
-/

namespace TorchSupa.Graph

open Outcome Allocator Ranges List Function

/-- The captures that use the generator do not overlap, each is ended by the graph that
began it, and the generator is registered to a graph before its capture begins. -/
def Proper (generator : GeneratorId) (world : World) (call : Call) : Prop :=
  match call.action with
  | .registerGeneratorState self target => target = generator →
      ∀ graph, world.graphs.get? self = some graph → graph.hasGraphExec = false
  | .captureBegin self _ _ =>
    (∃ graph, world.graphs.get? self = some graph ∧ generator ∈ graph.generators) ∨
      world.defaultGenerator call.device = generator → Idle generator world
  | .captureEnd self => ∀ graph capture, world.graphs.get? self = some graph →
      world.captures graph.captureStream = some capture → capture.owner = self
  | .philoxSupaState target _ => target = generator →
      ∀ capture, world.captures call.stream = some capture → generator ∈ capture.generators
  | _ => True

def Fits (generator : GeneratorId) (world : World) (call : Call) : Prop :=
  match call.action with
  | .philoxSupaState target increment => target = generator →
      (world.captures call.stream).isSome → increment ≤ 2 ^ 32 - 4
  | _ => True

section Calls

variable {generator : GeneratorId} {world : World}

theorem Initial.sound (initial : Initial world) : Sound generator world := by
  obtain ⟨graphs, captures, draws, _, _, generators, _⟩ := initial
  obtain ⟨aligned, spent, intragraph⟩ := generators generator
  exact {
    aligned
    exact := fun _ => spent.symm
    drawn := fun _ => by rw [draws]; exact Laid.nil
    intragraph
    single := by simp [captures]
    recording := by simp [captures]
    foreign := by simp [captures]
    registered := by simp [captures]
    owned := by simp [captures]
    keys := by simp [graphs]
    replayable := by simp [graphs] }

theorem Sound.create (sound : Sound generator world) (stream : Stream) :
    Sound generator { world with graphs := world.graphs.push { captureStream := stream } } := by
  refine sound.congr rfl rfl rfl rfl rfl ?_ ?_
  · simp
  · intro id graph found
    rw [Store.get?_push] at found
    split at found
    · rename_i fresh
      rw [← Option.some.inj found, fresh]
      exact .inl ⟨Store.get?_fresh _, le_refl _, nodup_nil, rfl⟩
    · exact .inr ⟨graph, found, sound.unchanged id graph found⟩

theorem Sound.destroy (sound : Sound generator world) (self : GraphId) :
    Sound generator { world with graphs := world.graphs.erase self } := by
  refine sound.congr rfl rfl rfl rfl rfl ?_ ?_
  · simp
  · intro id graph found
    rw [Store.get?_erase] at found
    split at found
    · simp at found
    · exact .inr ⟨graph, found, sound.unchanged id graph found⟩

theorem Sound.invalidate (sound : Sound generator world) (stream : Stream) (capture : Capture)
    (there : world.captures stream = some capture) :
    Sound generator { world with
      captures := Function.update world.captures stream
        (some { capture with valid := false }) } := by
  have before : ∀ other found, update world.captures stream
      (some { capture with valid := false }) other = some found →
      ∃ was, world.captures other = some was ∧ was.generators = found.generators ∧
        was.owner = found.owner ∧ was.nodes = found.nodes := by
    intro other found is
    by_cases here : other = stream
    · rw [here, update_self] at is
      rw [← Option.some.inj is, here]
      exact ⟨capture, there, rfl, rfl, rfl⟩
    · rw [update_of_ne here] at is
      exact ⟨found, is, rfl, rfl, rfl⟩
  refine { sound with single := ?_, recording := ?_, foreign := ?_, registered := ?_, owned := ?_ }
  · intro first second one two atFirst atSecond inOne inTwo
    obtain ⟨wasOne, thereOne, sameOne, _⟩ := before first one atFirst
    obtain ⟨wasTwo, thereTwo, sameTwo, _⟩ := before second two atSecond
    exact sound.single first second wasOne wasTwo thereOne thereTwo (sameOne ▸ inOne)
      (sameTwo ▸ inTwo)
  · intro other found is member
    obtain ⟨was, thereWas, same, _, nodes⟩ := before other found is
    rw [← nodes]
    exact sound.recording other was thereWas (same ▸ member)
  · intro other found is absent
    obtain ⟨was, thereWas, same, _, nodes⟩ := before other found is
    rw [← nodes]
    exact sound.foreign other was thereWas (same ▸ absent)
  · intro other found graph is alive member
    obtain ⟨was, thereWas, same, owner, _⟩ := before other found is
    exact sound.registered other was graph thereWas (owner ▸ alive) (same ▸ member)
  · intro other found is
    obtain ⟨was, thereWas, _, owner, _⟩ := before other found is
    rw [← owner]
    exact sound.owned other was thereWas

theorem launchKernel_captured {capture : Capture} {target : GeneratorId} {offset increment : Nat}
    (there : world.captures world.currentStream = some capture) :
    launchKernel target increment (.captured target offset) world = .ok ⟨⟩ { world with
      captures := Function.update world.captures world.currentStream (some
        { capture with nodes := ⟨target, offset, increment⟩ :: capture.nodes }) } := by
  simp only [launchKernel, run_modify, there]

theorem invalidate_idle {stream : Stream} (there : world.captures stream = none) :
    Graph.invalidate stream world = .ok ⟨⟩ world := by
  simp only [Graph.invalidate, run_modify, there]

theorem invalidate_running {stream : Stream} {capture : Capture}
    (there : world.captures stream = some capture) :
    Graph.invalidate stream world = .ok ⟨⟩ { world with
      captures := Function.update world.captures stream (some { capture with valid := false }) } := by
  simp only [Graph.invalidate, run_modify, there]

theorem philoxSupaState_spec (target : GeneratorId) (increment : Nat) (sound : Sound generator world)
    (member : target = generator → ∀ capture,
      world.captures world.currentStream = some capture → generator ∈ capture.generators)
    (fits : target = generator → (world.captures world.currentStream).isSome →
      increment ≤ 2 ^ 32 - 4) :
    wp (do
        let philox ← philoxSupaState target increment
        launchKernel target increment philox) (fun _ after => Sound generator after)
      (Spares Exn.Fatal (Sound generator)) world := by
  rw [wp_bind]
  change wp (if world.captureStatus world.currentStream ≠ .none then _ else _) _ _ world
  by_cases status : world.captureStatus world.currentStream = .none
  · rw [if_neg (by simp [status])]
    refine bind_increase_eager status ?_ fun _ => .inr sound
    exact sound.draw target increment
  · rw [if_pos status]
    refine bind_increase_captured status (fun within => ?_) fun _ => .inr sound
    cases there : world.captures world.currentStream with
    | none =>
      unfold World.captureStatus at status
      rw [there] at status
      exact absurd rfl status
    | some capture =>
      have captured := sound.capture target increment world.currentStream capture there
        (fun same => member same capture there)
        (fun same => fits same (by rw [there]; rfl)) within
      have here : (world.advanceIntragraph target increment).captures
          (world.advanceIntragraph target increment).currentStream = some capture := there
      refine (wp_pure _).mpr ?_
      exact wp_of_ok (launchKernel_captured here) captured

theorem philoxEngineInputs_spec (target : GeneratorId) (increment : Nat)
    (sound : Sound generator world) :
    wp (do
        let (seed, offset) ← philoxEngineInputs target increment
        launchKernel target increment (.value seed offset)) (fun _ after => Sound generator after)
      (Spares Exn.Fatal (Sound generator)) world := by
  rw [wp_bind]
  change wp (ensure (world.captureStatus world.currentStream == .none) _ >>= _) _ _ world
  refine bind_ensure (fun quiet => ?_) fun _ => .inr sound
  change wp (increase target increment >>= _) _ _ world
  refine bind_increase_eager (by simpa using quiet) ?_ fun _ => .inr sound
  exact sound.draw target increment

theorem debugDump_spec (self : GraphId) (sound : Sound generator world) :
    wp (debugDump self) (fun _ after => Sound generator after)
      (Spares Exn.Fatal (Sound generator)) world := by
  refine bind_getGraph (fun graph _ => ?_) (.inl trivial)
  refine bind_read ?_
  refine (wp_ite _ _ _).mpr ?_
  split
  · refine bind_supaCheck (fun _ => ?_) fun _ => .inr sound
    exact sound.updateGraph_plain self (fun graph => { graph with hasGraph := false })
      (fun _ => rfl) (fun _ => rfl) (fun _ owns => owns)
  · exact sound

theorem reset_spec (self : GraphId) (sound : Sound generator world) :
    wp (reset self) (fun _ after => Sound generator after)
      (Spares Exn.Fatal (Sound generator)) world := by
  have flags : ∀ (graph : SUPAGraph) (world : World), Sound generator world → wp (do
          whenever graph.hasGraph (updateGraph self fun graph => { graph with hasGraph := false })
          whenever graph.hasGraphExec
            (updateGraph self fun graph => { graph with hasGraphExec := false })
          modify fun world => { world with cleared := self :: world.cleared })
        (fun _ after => Sound generator after)
        (Spares Exn.Fatal (Sound generator)) world := by
    intro graph world sound
    have second : ∀ world : World, Sound generator world → wp (do
            whenever graph.hasGraphExec
              (updateGraph self fun graph => { graph with hasGraphExec := false })
            modify fun world => { world with cleared := self :: world.cleared })
          (fun _ after => Sound generator after)
          (Spares Exn.Fatal (Sound generator)) world := by
      intro world sound
      refine bind_whenever (fun _ => ?_) fun _ => ?_
      · exact (sound.updateGraph_plain self (fun graph => { graph with hasGraphExec := false })
          (fun _ => rfl) (fun _ => rfl) (fun _ owns => absurd owns Bool.false_ne_true)).outside
          rfl rfl rfl rfl
      · exact sound.outside rfl rfl rfl rfl
    refine bind_whenever (fun _ => ?_) fun _ => second world sound
    exact second _ (sound.updateGraph_plain self (fun graph => { graph with hasGraph := false })
      (fun _ => rfl) (fun _ => rfl) (fun _ owns => owns))
  refine bind_getGraph (fun graph _ => ?_) (.inl trivial)
  refine bind_whenever (fun _ => ?_) fun _ => flags graph world sound
  refine bind_onAllocator (fun index allocator _ _ _ => ?_)
    (fun _ index allocator _ _ _ => .inr (sound.setAllocator self index _ allocator))
    fun _ => .inr sound
  exact flags graph _ (sound.setAllocator self index graph.mempoolId allocator)

theorem destroySUPAGraph_spec (self : GraphId) (sound : Sound generator world) :
    wp (destroySUPAGraph self) (fun _ after => Sound generator after)
      (Spares Exn.Fatal (Sound generator)) world := by
  refine bind_getGraph (fun graph _ => ?_) (.inl trivial)
  have tolerates : Tolerates generator (Sound generator) :=
    fun _ target change same sound => sound.updateGenerator target change same
  refine wp_seq _ (Keeps.forEach (fun entry => keeps_unregisterGraph tolerates entry.1 self)
    graph.capturedGeneratorStates world sound) ?_
  intro _ unregistered sound
  refine wp_seq _ (reset_spec self sound) ?_
  intro _ cleared sound
  exact sound.destroy self

theorem Sound.step {after : World} {call : Call} (sound : Sound generator world)
    (proper : Proper generator world call) (fits : Fits generator world call)
    (taken : Step world call after) : Sound generator after := by
  have entered : Sound generator (call.enter world) := sound.outside rfl rfl rfl rfl
  suffices spec : wp call.action.run (fun _ after => Sound generator after)
      (Spares Exn.Fatal (Sound generator)) (call.enter world) from
    taken.ensures (wp_mono spec (fun _ _ holds => holds) fun _ _ failed => failed.imp_right .inr)
  unfold Proper at proper
  unfold Fits at fits
  cases action : call.action with
  | create => exact entered.create call.stream
  | registerGeneratorState self target =>
    simp only [action] at proper
    refine wp_mono (registerGeneratorState_spec (fun _ _ => True) self target entered
      proper trivial) (fun _ _ holds => holds.1) ?_
    rintro exception after (fatal | ⟨sound, _⟩)
    · exact .inl fatal
    · exact .inr sound
  | captureBegin self pool accepts =>
    simp only [action] at proper
    exact captureBegin_spec self pool accepts entered proper
  | captureEnd self =>
    simp only [action] at proper
    exact captureEnd_spec self entered proper
  | philoxSupaState target increment =>
    simp only [action] at proper fits
    exact philoxSupaState_spec target increment entered proper fits
  | philoxEngineInputs target increment =>
    exact philoxEngineInputs_spec target increment entered
  | replay self => exact replay_spec self entered
  | enableDebugMode => exact entered.outside rfl rfl rfl rfl
  | debugDump self => exact debugDump_spec self entered
  | reset self => exact reset_spec self entered
  | destroy self => exact destroySUPAGraph_spec self entered
  | invalidate stream =>
    cases there : (call.enter world).captures stream with
    | none =>
      exact wp_of_ok (invalidate_idle there) entered
    | some capture =>
      exact wp_of_ok (invalidate_running there) (entered.invalidate stream capture there)

end Calls

/-- No offset is drawn twice, and every draw starts at a multiple of 4: for eager kernels,
for the replays of any graphs and for both together. -/
theorem draws_disjoint (generator : GeneratorId) (world : World) (reached : machine.Reachable
      (fun world call => Proper generator world call ∧ Fits generator world call) world)
    (bounded : (world.generators generator).spent < 2 ^ 64) :
    ((drawsOf generator world.draws).Pairwise fun a b => Disjoint (offsets a) (offsets b)) ∧
      ∀ range ∈ drawsOf generator world.draws, range.1 % 4 = 0 := by
  have start : ∀ state, machine.initial state → Sound generator state :=
    fun _ initial => Initial.sound initial
  have keeps : ∀ before call after, Sound generator before →
      Proper generator before call ∧ Fits generator before call →
      machine.step before call after → Sound generator after :=
    fun _ _ _ sound allowed taken => sound.step allowed.1 allowed.2 taken
  have laid := (reached.invariant start keeps).drawn bounded
  exact ⟨laid.disjoint, laid.aligned⟩

def sampleRun (first second : Nat) : List Call :=
  [{ action := .create, stream := 7 },
    { action := .captureBegin 0 (0, 0) fun _ stream => stream == 7, stream := 7 },
    { action := .philoxSupaState 0 first, stream := 7 },
    { action := .philoxSupaState 0 second, stream := 7 },
    { action := .captureEnd 0, stream := 7 },
    { action := .replay 0, stream := 7 },
    { action := .philoxSupaState 0 5, stream := 0 }]

def sampleAfter (first second count : Nat) : World :=
  afterCalls (sampleRun first second) sampleWorld count

def sampleChecks (first second : Nat) : Bool :=
  ((List.range 7).all fun count =>
    ((sampleRun first second)[count]?).all fun call =>
      call.succeeds (sampleAfter first second count)) &&
  ([2, 3].all fun count =>
    ((sampleAfter first second count).captures 7).all fun capture => 0 ∈ capture.generators) &&
  ((sampleAfter first second 4).graphs.get? 0).all (fun graph => graph.captureStream = 7) &&
  ((sampleAfter first second 4).captures 7).all (fun capture => capture.owner = 0) &&
  ((sampleAfter first second 6).captures 0).isNone

theorem sampleRun_reachable (first second : Nat) (allowed : World → Call → Prop)
    (allow : ∀ world, ∀ call ∈ sampleRun first second, Proper 0 world call → allowed world call)
    (checked : sampleChecks first second = true) :
    machine.Reachable allowed (sampleAfter first second 7) := by
  simp only [sampleChecks, Bool.and_eq_true] at checked
  obtain ⟨⟨⟨⟨succeed, members⟩, streams⟩, owners⟩, quiet⟩ := checked
  refine reachable_afterCalls sampleWorld_initial (fun count call there => ?_) 7
  have bound : count < 7 := (List.getElem?_eq_some_iff.mp there).1
  refine ⟨allow _ call (List.mem_of_getElem? there) ?_, ?_⟩
  · have member : ∀ count ∈ [2, 3], ∀ capture,
        (sampleAfter first second count).captures 7 = some capture → 0 ∈ capture.generators := by
      intro count listed capture recording
      have all := all_eq_true.mp members count listed
      rw [recording] at all
      simpa using all
    match count, there with
    | 0, rfl => exact trivial
    | 1, rfl => exact fun _ stream capture recording => absurd recording (by rintro ⟨⟩)
    | 2, rfl => exact fun _ capture recording => member 2 (by simp) capture recording
    | 3, rfl => exact fun _ capture recording => member 3 (by simp) capture recording
    | 4, rfl =>
      intro graph capture alive recording
      change (sampleAfter first second 4).graphs.get? 0 = some graph at alive
      rw [alive] at streams
      rw [show graph.captureStream = 7 by simpa using streams] at recording
      change (sampleAfter first second 4).captures 7 = some capture at recording
      rw [recording] at owners
      simpa using owners
    | 5, rfl => exact trivial
    | 6, rfl =>
      intro _ capture recording
      change (sampleAfter first second 6).captures 0 = some capture at recording
      rw [recording] at quiet
      simp at quiet
  · have all := all_eq_true.mp succeed count (mem_range.mpr bound)
    rw [there] at all
    exact all

/-- A graph whose launches ask for 9 and 6 offsets. -/
theorem draws_disjoint_sample : drawsOf 0 (sampleAfter 9 6 7).draws = [(20, 5), (12, 6), (0, 9)] ∧
      ((drawsOf 0 (sampleAfter 9 6 7).draws).Pairwise fun a b =>
        Disjoint (offsets a) (offsets b)) ∧
      ∀ range ∈ drawsOf 0 (sampleAfter 9 6 7).draws, range.1 % 4 = 0 := by
  refine ⟨by decide +kernel, draws_disjoint 0 (sampleAfter 9 6 7) ?_ (by decide +kernel)⟩
  refine sampleRun_reachable 9 6 _ ?_ (by decide +kernel)
  intro world call member proper
  refine ⟨proper, ?_⟩
  simp only [sampleRun, mem_cons, not_mem_nil, or_false] at member
  rcases member with rfl | rfl | rfl | rfl | rfl | rfl | rfl <;> simp [Fits]

/-- A captured launch that asks for `2 ^ 32` offsets leaves the 32-bit counter where it
was, and the next launch draws from the same offsets. -/
theorem draws_not_disjoint : ¬ ∀ (generator : GeneratorId) (world : World),
    machine.Reachable (Proper generator) world → (world.generators generator).spent < 2 ^ 64 →
    ((drawsOf generator world.draws).Pairwise fun a b => Disjoint (offsets a) (offsets b)) ∧
      ∀ range ∈ drawsOf generator world.draws, range.1 % 4 = 0 := by
  intro all
  have reached := sampleRun_reachable (2 ^ 32) 6 (Proper 0) (fun _ _ _ proper => proper)
    (by decide +kernel)
  have apart := (all 0 (sampleAfter (2 ^ 32) 6 7) reached (by decide +kernel)).1
  have drawn : drawsOf 0 (sampleAfter (2 ^ 32) 6 7).draws = [(8, 5), (0, 6), (0, 2 ^ 32)] := by
    decide +kernel
  rw [drawn] at apart
  simp only [pairwise_cons, mem_cons] at apart
  have disjoint := apart.2.1 (0, 2 ^ 32) (by simp)
  have first : 0 ∈ offsets (0, 6) := by simp [offsets]
  exact Set.disjoint_left.mp disjoint first (by simp [offsets])

end TorchSupa.Graph
