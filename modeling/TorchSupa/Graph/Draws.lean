import TorchSupa.Graph.Sound

/-!
Every call keeps the invariant of `Sound`, as long as the captures of the generator do not
overlap and no captured launch asks for more than the counter of a graph holds.
-/

namespace TorchSupa.Graph

open Outcome Allocator Ranges Function

section Rules

variable {α β : Type} {world : World} {normal : β → World → Prop} {thrown : Exn → World → Prop}

theorem wp_final {program : GraphM β} (spec : wp (program >>= pure) normal thrown world) :
    wp program normal thrown world := by
  rw [wp_bind] at spec
  exact spec

variable {next : PUnit → GraphM β}

variable {condition : Bool} {next : Unit → GraphM β} {self : GraphId} {target : GeneratorId}
  {value : Nat}

theorem bind_ensure {otherwise : Exn} (holds : condition = true → wp (next ⟨⟩) normal thrown world)
    (fails : condition = false → thrown otherwise world) :
    wp (ensure condition otherwise >>= next) normal thrown world := by
  cases condition with
  | false => exact fails rfl
  | true => exact holds rfl

theorem bind_whenever {action : GraphM Unit}
    (yes : condition = true → wp (action >>= next) normal thrown world)
    (no : condition = false → wp (next ()) normal thrown world) :
    wp (whenever condition action >>= next) normal thrown world := by
  cases condition with
  | false => exact no rfl
  | true => exact yes rfl

theorem bind_supaCheck {call : RuntimeCall}
    (succeeds : world.answers call = true → wp (next ⟨⟩) normal thrown world)
    (fails : world.answers call = false → thrown .driver world) :
    wp (supaCheck call >>= next) normal thrown world :=
  bind_ensure succeeds fails

theorem bind_getGraph {next : SUPAGraph → GraphM β}
    (found : ∀ graph, world.graphs.get? self = some graph →
      wp (next graph) normal thrown world) (dangling : thrown .undefinedBehaviour world) :
    wp (getGraph self >>= next) normal thrown world := by
  rw [wp_bind]
  unfold getGraph
  rw [wp_bind]
  refine wp_get.mpr ?_
  cases there : world.graphs.get? self with
  | none => exact dangling
  | some graph => exact found graph there

theorem bind_fillSeed
    (filled : world.answers (.fillSeed target) = true → wp (next ⟨⟩) normal thrown { world with
      generators := Function.update world.generators target
        { world.generators target with seedExtragraph := some value } })
    (failed : thrown .driver world) (undefined : thrown .undefinedBehaviour world) :
    wp (fillSeed target value >>= next) normal thrown world := by
  rw [wp_bind]
  unfold fillSeed getGenerator
  rw [wp_bind]
  refine bind_read ?_
  rw [wp_pure]
  cases (world.generators target).seedExtragraph with
  | none => exact undefined
  | some _ => exact bind_supaCheck filled fun _ => failed

theorem bind_fillOffset
    (filled : world.answers (.fillOffset target) = true → wp (next ⟨⟩) normal thrown { world with
      generators := Function.update world.generators target
        { world.generators target with offsetExtragraph := some value } })
    (failed : thrown .driver world) (undefined : thrown .undefinedBehaviour world) :
    wp (fillOffset target value >>= next) normal thrown world := by
  rw [wp_bind]
  unfold fillOffset getGenerator
  rw [wp_bind]
  refine bind_read ?_
  rw [wp_pure]
  cases (world.generators target).offsetExtragraph with
  | none => exact undefined
  | some _ => exact bind_supaCheck filled fun _ => failed

theorem bind_onAllocator {device : Option DeviceIndex} {mempoolId : MempoolId}
    {method : MempoolId → M Unit}
    (returns : ∀ index after, device = some index → index < world.deviceCount →
      method mempoolId (world.allocators index) = .ok () after →
      wp (next ()) normal thrown (world.setAllocator self index mempoolId after))
    (throws : ∀ exception index after, device = some index → index < world.deviceCount →
      method mempoolId (world.allocators index) = .error exception after →
      thrown exception (world.setAllocator self index mempoolId after))
    (invalid : (∀ index, device = some index → ¬ index < world.deviceCount) →
      thrown (.torchCheck "Invalid device argument") world) :
    wp (onAllocator self device mempoolId method >>= next) normal thrown world := by
  rw [wp_bind]
  unfold wp onAllocator
  cases device with
  | none => exact invalid fun index absent => absurd absent (by simp)
  | some index =>
    dsimp only
    by_cases valid : index < world.deviceCount
    · rw [if_pos valid]
      cases run : method mempoolId (world.allocators index) with
      | ok _ after => exact returns index after rfl valid run
      | error exception after => exact throws exception index after rfl valid run
    · rw [if_neg valid]
      exact invalid fun other same => by rwa [← Option.some.inj same]

end Rules

def Tolerates (generator : GeneratorId) (invariant : World → Prop) : Prop :=
  ∀ (world : World) (target : GeneratorId) (change : GeneratorState → GeneratorState),
    (target = generator → ∀ self,
      (change self).philoxOffsetPerThread = self.philoxOffsetPerThread ∧
      (change self).spent = self.spent ∧ (change self).offsetIntragraph = self.offsetIntragraph) →
    invariant world → invariant { world with
      generators := Function.update world.generators target (change (world.generators target)) }

theorem tolerates_sound (generator : GeneratorId)
    (frame : Store SUPAGraph → (Stream → Option Capture) → Prop) :
    Tolerates generator fun world => Sound generator world ∧ frame world.graphs world.captures :=
  fun _ target change same holds => ⟨holds.1.updateGenerator target change same, holds.2⟩

section Keeps

variable {generator : GeneratorId} {invariant : World → Prop}

theorem keeps_ensure (condition : Bool) (otherwise : Exn) :
    Keeps invariant Exn.Fatal (ensure condition otherwise) := by
  exact Keeps.ite (Keeps.pure _) (Keeps.throw _)

theorem keeps_whenever {condition : Bool} {action : GraphM Unit}
    (keeps : Keeps invariant Exn.Fatal action) :
    Keeps invariant Exn.Fatal (whenever condition action) := by
  exact Keeps.ite keeps (Keeps.pure _)

theorem keeps_supaCheck (call : RuntimeCall) : Keeps invariant Exn.Fatal (supaCheck call) :=
  fun world holds => keeps_ensure (world.answers call) .driver world holds

theorem keeps_getGenerator (target : GeneratorId) :
    Keeps invariant Exn.Fatal (getGenerator target) :=
  fun _ holds => holds

theorem keeps_assertNotCapturing (attempt : String) :
    Keeps invariant Exn.Fatal (assertNotCapturing attempt) :=
  fun world holds =>
    keeps_ensure (world.captureStatus world.currentStream == .none) (.torchCheck attempt) world holds

theorem keeps_streamGetCaptureInfo (stream : Stream) :
    Keeps invariant Exn.Fatal (streamGetCaptureInfo stream) := by
  refine Keeps.bind (keeps_supaCheck _) fun _ => ?_
  intro world holds
  refine bind_read ?_
  cases world.captures stream with
  | none => exact holds
  | some capture => exact holds

variable (tolerates : Tolerates generator invariant) (target : GeneratorId)
include tolerates target

theorem keeps_updateGenerator (change : GeneratorState → GeneratorState)
    (same : target = generator → ∀ self,
      (change self).philoxOffsetPerThread = self.philoxOffsetPerThread ∧
      (change self).spent = self.spent ∧ (change self).offsetIntragraph = self.offsetIntragraph) :
    Keeps invariant Exn.Fatal (updateGenerator target change) :=
  fun world holds => tolerates world target change same holds

theorem keeps_fillSeed (value : Nat) : Keeps invariant Exn.Fatal (fillSeed target value) := by
  refine Keeps.bind (keeps_getGenerator target) fun self => ?_
  cases self.seedExtragraph with
  | none => exact Keeps.throw _
  | some _ =>
    refine Keeps.bind (keeps_supaCheck _) fun _ => ?_
    exact keeps_updateGenerator tolerates target _ fun _ _ => ⟨rfl, rfl, rfl⟩

theorem keeps_fillOffset (value : Nat) : Keeps invariant Exn.Fatal (fillOffset target value) := by
  refine Keeps.bind (keeps_getGenerator target) fun self => ?_
  cases self.offsetExtragraph with
  | none => exact Keeps.throw _
  | some _ =>
    refine Keeps.bind (keeps_supaCheck _) fun _ => ?_
    exact keeps_updateGenerator tolerates target _ fun _ _ => ⟨rfl, rfl, rfl⟩

theorem keeps_registerGraph (graph : GraphId) :
    Keeps invariant Exn.Fatal (GeneratorState.registerGraph target graph) := by
  refine Keeps.bind (keeps_assertNotCapturing _) fun _ => ?_
  refine Keeps.bind (keeps_getGenerator target) fun self => ?_
  refine Keeps.bind (keeps_whenever ?_) fun _ => ?_
  · refine Keeps.bind (keeps_supaCheck _) fun _ => ?_
    exact keeps_updateGenerator tolerates target _ fun _ _ => ⟨rfl, rfl, rfl⟩
  · exact keeps_updateGenerator tolerates target _ fun _ _ => ⟨rfl, rfl, rfl⟩

theorem keeps_unregisterGraph (graph : GraphId) :
    Keeps invariant Exn.Fatal (GeneratorState.unregisterGraph target graph) := by
  refine Keeps.bind (keeps_getGenerator target) fun self => ?_
  refine Keeps.bind (keeps_ensure _ _) fun _ => ?_
  refine Keeps.bind (keeps_updateGenerator tolerates target _ fun _ _ => ⟨rfl, rfl, rfl⟩) fun _ => ?_
  refine keeps_whenever ?_
  exact keeps_updateGenerator tolerates target _ fun _ _ => ⟨rfl, rfl, rfl⟩

end Keeps

section Register

variable {generator : GeneratorId}

open List

theorem SUPAGraph.refines_setEntry {graph : SUPAGraph} (target value : Nat)
    (nodup : graph.generators.Nodup)
    (safe : target = generator → graph.hasGraphExec = false)
    (advances : graph.hasGraphExec = true → Advances generator graph) :
    SUPAGraph.Refines generator
      { graph with capturedGeneratorStates := setEntry graph.capturedGeneratorStates target value }
      graph := by
  have keys := keys_setEntry graph.capturedGeneratorStates target value
  refine ⟨?_, ?_, ?_⟩
  · unfold SUPAGraph.generators at nodup ⊢
    rw [keys]
    split
    · exact nodup
    · rename_i absent
      exact nodup_append.mpr ⟨nodup, nodup_singleton _, by
        intro key member other single same
        rw [mem_singleton.mp single] at same
        exact absent (same ▸ member)⟩
  · unfold SUPAGraph.generators
    rw [keys]
    intro member
    split
    · exact member
    · exact mem_append_left _ member
  · intro executable
    rcases advances executable with empty | ⟨whole, entry, below, aligned, laid⟩
    · exact .inl empty
    · have other : generator ≠ target := by
        intro same
        rw [safe same.symm] at executable
        exact Bool.false_ne_true executable
      exact .inr ⟨whole, mem_setEntry_of_ne target value entry other, below, aligned, laid⟩

theorem registerGeneratorState_spec (frame : Store SUPAGraph → (Stream → Option Capture) → Prop)
    {world : World} (self : GraphId) (target : GeneratorId)
    (sound : Sound generator world)
    (fresh : target = generator → ∀ graph, world.graphs.get? self = some graph →
      graph.hasGraphExec = false)
    (framed : frame (world.graphs.modify self fun graph => { graph with
      capturedGeneratorStates := setEntry graph.capturedGeneratorStates target 0 }) world.captures) :
    wp (registerGeneratorState self target)
      (fun _ after => Sound generator after ∧ frame after.graphs after.captures)
      (fun exception after => exception.Fatal ∨
        Sound generator after ∧ frame after.graphs after.captures) world := by
  unfold registerGeneratorState
  rw [wp_bind]
  have entered := sound.updateGraph self (fun graph => { graph with
      capturedGeneratorStates := setEntry graph.capturedGeneratorStates target 0 })
    fun graph found => SUPAGraph.refines_setEntry target 0 (sound.keys self graph found)
      (fun same => fresh same graph found) (sound.replayable self graph found)
  exact keeps_registerGraph (tolerates_sound generator frame) target self _ ⟨entered, framed⟩

end Register

def World.advance (world : World) (target : GeneratorId) (increment : Nat) : World :=
  { world with
    generators := Function.update world.generators target
      { world.generators target with
        philoxOffsetPerThread :=
          ((world.generators target).philoxOffsetPerThread + roundUp increment) % 2 ^ 64
        spent := (world.generators target).spent + (increment + 3) / 4 * 4 } }

def World.advanceIntragraph (world : World) (target : GeneratorId) (increment : Nat) : World :=
  { world with
    generators := Function.update world.generators target
      { world.generators target with
        offsetIntragraph :=
          ((world.generators target).offsetIntragraph + roundUp increment) % 2 ^ 32 } }

section Increase

variable {β : Type} {world : World} {normal : β → World → Prop} {thrown : Exn → World → Prop}
  {target : GeneratorId} {increment : Nat} {next : PUnit → GraphM β}

theorem bind_increase_eager (status : world.captureStatus world.currentStream = .none)
    (advanced : wp (next ⟨⟩) normal thrown (world.advance target increment))
    (failed : ∀ exception, thrown exception world) :
    wp (increase target increment >>= next) normal thrown world := by
  rw [wp_bind]
  change wp (if world.captureStatus world.currentStream ≠ .none then _ else _) _ _ world
  rw [if_neg (by simp [status])]
  refine bind_ensure (fun _ => ?_) fun _ => failed _
  refine bind_ensure (fun _ => ?_) fun _ => failed _
  exact advanced

theorem bind_increase_captured (status : world.captureStatus world.currentStream ≠ .none)
    (advanced : (world.generators target).offsetIntragraph ≤
        wrappingSub uint32Max (roundUp increment) →
      wp (next ⟨⟩) normal thrown (world.advanceIntragraph target increment))
    (failed : ∀ exception, thrown exception world) :
    wp (increase target increment >>= next) normal thrown world := by
  rw [wp_bind]
  change wp (if world.captureStatus world.currentStream ≠ .none then _ else _) _ _ world
  rw [if_pos status]
  refine bind_ensure (fun _ => ?_) fun _ => failed _
  refine bind_ensure (fun _ => ?_) fun _ => failed _
  refine bind_ensure (fun within => ?_) fun _ => failed _
  exact advanced (of_decide_eq_true within)

end Increase

section Advance

variable {generator target : GeneratorId} {world : World} {increment : Nat}

theorem roundUp_mod (increment : Nat) : roundUp increment % 4 = 0 := by
  unfold roundUp
  omega

theorem drawsOf_cons (generator : GeneratorId) (draw : Draw) (draws : List Draw) :
    drawsOf generator (draw :: draws) =
      if draw.generator = generator then (draw.start, draw.increment) :: drawsOf generator draws
      else drawsOf generator draws := by
  unfold drawsOf
  by_cases same : draw.generator = generator
  · simp [same]
  · simp [same]

theorem nodesOf_cons (generator : GeneratorId) (node : Node) (nodes : List Node) :
    nodesOf generator (node :: nodes) =
      if node.generator = generator then
        (node.offsetIntragraph, node.increment) :: nodesOf generator nodes
      else nodesOf generator nodes := by
  unfold nodesOf
  by_cases same : node.generator = generator
  · simp [same]
  · simp [same]

variable (sound : Sound generator world)
include sound

theorem Sound.advance (target : GeneratorId) (increment : Nat) :
    Sound generator (world.advance target increment) := by
  by_cases same : target = generator
  · subst same
    have unchanged : Sound target { world.advance target increment with
        generators := world.generators } :=
      sound.congr rfl rfl rfl rfl rfl (le_refl _)
        fun self graph found => .inr ⟨graph, found, sound.unchanged self graph found⟩
    refine { unchanged with aligned := ?_, exact := ?_, drawn := ?_, intragraph := ?_, recording := ?_ }
    · have aligned := sound.aligned
      have rounded := roundUp_mod increment
      simp only [World.advance, update_self]
      omega
    · simp only [World.advance, update_self]
      intro below
      have exact := sound.exact (by omega)
      unfold roundUp
      omega
    · simp only [World.advance, update_self]
      intro below
      have exact := sound.exact (by omega)
      refine (sound.drawn (by omega)).mono ?_
      unfold roundUp
      omega
    · simpa [World.advance] using sound.intragraph
    · simpa [World.advance] using sound.recording
  · exact sound.updateGenerator target (fun _ => _) fun equal => absurd equal same

theorem Sound.draw (target : GeneratorId) (increment : Nat) :
    Sound generator { world.advance target increment with
      draws := ⟨target, (world.generators target).philoxOffsetPerThread, increment⟩ ::
        world.draws } := by
  have advanced := sound.advance target increment
  refine { advanced with drawn := ?_ }
  intro below
  rw [drawsOf_cons]
  split
  · rename_i same
    dsimp only at same
    subst same
    simp only [World.advance, update_self] at below ⊢
    have exact := sound.exact (by omega)
    have laid := (sound.drawn (by omega)).cons sound.aligned
      (show increment ≤ (increment + 3) / 4 * 4 by omega)
    refine laid.mono ?_
    unfold roundUp
    omega
  · exact advanced.drawn below

theorem Sound.capture (target : GeneratorId) (increment : Nat)
    (stream : Stream) (capture : Capture) (there : world.captures stream = some capture)
    (member : target = generator → generator ∈ capture.generators)
    (fits : target = generator → increment ≤ 2 ^ 32 - 4)
    (within : (world.generators target).offsetIntragraph ≤
      wrappingSub uint32Max (roundUp increment)) :
    Sound generator { world.advanceIntragraph target increment with
      captures := Function.update world.captures stream (some { capture with
          nodes := ⟨target, (world.generators target).offsetIntragraph, increment⟩ ::
            capture.nodes }) } := by
  have captures : ∀ other found, Function.update world.captures stream (some { capture with
        nodes := ⟨target, (world.generators target).offsetIntragraph, increment⟩ ::
          capture.nodes }) other = some found →
      other = stream ∧ found = { capture with
        nodes := ⟨target, (world.generators target).offsetIntragraph, increment⟩ ::
          capture.nodes } ∨ other ≠ stream ∧ world.captures other = some found := by
    intro other found is
    by_cases here : other = stream
    · subst here
      rw [update_self] at is
      exact .inl ⟨rfl, (Option.some.inj is).symm⟩
    · rw [update_of_ne here] at is
      exact .inr ⟨here, is⟩
  have before : ∀ other found, Function.update world.captures stream (some { capture with
        nodes := ⟨target, (world.generators target).offsetIntragraph, increment⟩ ::
          capture.nodes }) other = some found →
      ∃ was, world.captures other = some was ∧ was.generators = found.generators ∧
        was.owner = found.owner := by
    intro other found is
    rcases captures other found is with ⟨rfl, rfl⟩ | ⟨_, was⟩
    · exact ⟨capture, there, rfl, rfl⟩
    · exact ⟨found, was, rfl, rfl⟩
  -- the offset within the graph moves on without wrapping, so that a new node fits below it
  have moves : target = generator →
      ((world.generators target).offsetIntragraph + roundUp increment) % 2 ^ 32 =
        (world.generators target).offsetIntragraph + roundUp increment ∧
      increment ≤ roundUp increment := by
    intro same
    have small := fits same
    unfold roundUp wrappingSub uint32Max at *
    split at within <;> omega
  have counters : (world.advanceIntragraph target increment).generators generator =
      if target = generator then
        { world.generators target with
          offsetIntragraph := (world.generators target).offsetIntragraph + roundUp increment }
      else world.generators generator := by
    unfold World.advanceIntragraph
    dsimp only
    split
    · rename_i same
      rw [(moves same).1, ← same, update_self]
    · rename_i other
      rw [update_of_ne fun equal => other equal.symm]
  have offset : ((world.advanceIntragraph target increment).generators
      generator).philoxOffsetPerThread = (world.generators generator).philoxOffsetPerThread := by
    rw [counters]
    split
    · rename_i same
      rw [same]
    · rfl
  have spent : ((world.advanceIntragraph target increment).generators generator).spent =
      (world.generators generator).spent := by
    rw [counters]
    split
    · rename_i same
      rw [same]
    · rfl
  have further : (world.generators generator).offsetIntragraph ≤
      ((world.advanceIntragraph target increment).generators generator).offsetIntragraph := by
    rw [counters]
    split
    · rename_i same
      rw [same]
      exact Nat.le_add_right _ _
    · exact le_refl _
  exact {
    aligned := by dsimp only; rw [offset]; exact sound.aligned
    exact := by dsimp only; rw [offset, spent]; exact sound.exact
    drawn := by dsimp only; rw [offset, spent]; exact sound.drawn
    intragraph := by
      dsimp only
      rw [counters]
      split
      · rename_i same
        have start := sound.intragraph
        have rounded := roundUp_mod increment
        have exact := (moves same).1
        dsimp only
        rw [same] at exact ⊢
        omega
      · exact sound.intragraph
    single := by
      intro first second one two atFirst atSecond inOne inTwo
      obtain ⟨wasOne, thereOne, sameOne, _⟩ := before first one atFirst
      obtain ⟨wasTwo, thereTwo, sameTwo, _⟩ := before second two atSecond
      exact sound.single first second wasOne wasTwo thereOne thereTwo (sameOne ▸ inOne)
        (sameTwo ▸ inTwo)
    recording := by
      intro other found is inFound
      rcases captures other found is with ⟨_, rfl⟩ | ⟨_, was⟩
      · dsimp only at inFound ⊢
        have laid := sound.recording stream capture there inFound
        rw [nodesOf_cons, counters]
        dsimp only
        split
        · rename_i same
          rw [same]
          exact laid.cons sound.intragraph.1 (moves same).2
        · exact laid
      · exact (sound.recording other found was inFound).mono further
    foreign := by
      intro other found is notIn
      rcases captures other found is with ⟨_, rfl⟩ | ⟨_, was⟩
      · dsimp only at notIn ⊢
        rw [nodesOf_cons, if_neg fun same => notIn (member same)]
        exact sound.foreign stream capture there notIn
      · exact sound.foreign other found was notIn
    registered := by
      intro other found graph is alive inFound
      obtain ⟨was, thereWas, same, owner⟩ := before other found is
      rw [← same] at inFound
      exact sound.registered other was graph thereWas (owner ▸ alive) inFound
    owned := by
      intro other found is
      obtain ⟨was, thereWas, _, owner⟩ := before other found is
      rw [← owner]
      exact sound.owned other was thereWas
    keys := sound.keys
    replayable := sound.replayable }

end Advance

end TorchSupa.Graph
