import TorchSupa.Graph.Recording

/-!
What a capture leaves behind in its graph, and what its replays draw.
-/

namespace TorchSupa.Graph

open Outcome Allocator Ranges List Function

section CaptureEnd

variable {generator : GeneratorId}

def Captured (generator : GeneratorId) (self : GraphId) (nodes : List Node) (world : World) : Prop :=
  nodesOf generator nodes = [] ∨
    Laid 4 (nodesOf generator nodes) (world.generators generator).offsetIntragraph ∧
      ∀ graph, world.graphs.get? self = some graph → generator ∈ graph.generators

variable {world : World}

theorem streamEndCapture_spec (self : GraphId) (stream : Stream) (sound : Sound generator world)
    (own : ∀ capture, world.captures stream = some capture → capture.owner = self) :
    wp (streamEndCapture stream)
      (fun captured after => Sound generator after ∧ after.graphs = world.graphs ∧
        Captured generator self (captured.getD []) after)
      (Spares Exn.Fatal (Sound generator)) world := by
  refine bind_supaCheck (fun _ => ?_) fun _ => .inr sound
  refine bind_read ?_
  cases there : world.captures stream with
  | none => exact .inr sound
  | some capture =>
    have dropped := sound.dropCapture stream
    rw [wp_bind]
    refine (wp_modify _).mpr ?_
    refine bind_ensure (fun _ => ?_) fun _ => .inr dropped
    refine ⟨dropped, rfl, ?_⟩
    split
    · by_cases member : generator ∈ capture.generators
      · refine .inr ⟨sound.recording stream capture there member, fun graph found => ?_⟩
        exact sound.registered stream capture graph there (by rw [own capture there]; exact found) member
      · exact .inl (sound.foreign stream capture there member)
    · exact .inl rfl

def World.withoutExec (world : World) (self : GraphId) : World :=
  { world with graphs := world.graphs.modify self fun graph => { graph with hasGraphExec := false } }

structure Filling (generator : GeneratorId) (id : GraphId) (nodes : List Node)
    (rest : List (GeneratorId × Nat)) (world : World) : Prop where
  sound : Sound generator (world.withoutExec id)
  exec : ∀ graph, world.graphs.get? id = some graph → graph.graphExec = nodes
  laid : nodesOf generator nodes = [] ∨
    Laid 4 (nodesOf generator nodes) (world.generators generator).offsetIntragraph ∧
      (generator ∈ rest.map (·.1) ∨ ∀ graph, world.graphs.get? id = some graph →
        (generator, (world.generators generator).offsetIntragraph) ∈ graph.capturedGeneratorStates)

theorem Filling.done {self : GraphId} {nodes : List Node}
    (filling : Filling generator self nodes [] world) : Sound generator world := by
  have sound := filling.sound
  refine sound.congr rfl rfl rfl rfl rfl ?_ ?_
  · simp [World.withoutExec]
  · intro id graph found
    by_cases same : id = self
    · subst same
      have there : (world.withoutExec id).graphs.get? id =
          some { graph with hasGraphExec := false } := by
        simp [World.withoutExec, Store.get?_modify, found]
      have nodup := sound.keys id _ there
      refine .inr ⟨_, there, nodup, fun member => member, fun _ => ?_⟩
      rcases filling.laid with empty | ⟨laid, none' | entry⟩
      · exact .inl (by rw [filling.exec graph found]; exact empty)
      · simp at none'
      · refine .inr ⟨_, entry graph found, sound.intragraph.2, sound.intragraph.1, ?_⟩
        rw [filling.exec graph found]
        exact laid
    · have there : (world.withoutExec self).graphs.get? id = some graph := by
        simp [World.withoutExec, Store.get?_modify, same, found]
      exact .inr ⟨graph, there, sound.unchanged id graph there⟩

theorem epilogue_spec (self : GraphId) (nodes : List Node) (entry : GeneratorId × Nat)
    (rest : List (GeneratorId × Nat)) (world : World)
    (filling : Filling generator self nodes (entry :: rest) world) :
    wp (do
        let wholegraphIncrement ← captureEpilogue entry.1
        updateGraph self fun graph =>
          { graph with
            capturedGeneratorStates :=
              setEntry graph.capturedGeneratorStates entry.1 wholegraphIncrement })
      (fun _ after => Filling generator self nodes rest after)
      (fun exception _ => exception.Fatal) world := by
  let whole := (world.generators entry.1).offsetIntragraph
  let after : World := { world with
    generators := update world.generators entry.1
      { world.generators entry.1 with capturing := false }
    graphs := world.graphs.modify self fun graph =>
      { graph with capturedGeneratorStates := setEntry graph.capturedGeneratorStates entry.1 whole } }
  have offset : (after.generators generator).offsetIntragraph =
      (world.generators generator).offsetIntragraph := by
    by_cases same : entry.1 = generator
    · simp [after, same]
    · simp [after, update_of_ne fun equal => same equal.symm]
  have read : (update world.generators entry.1
      { world.generators entry.1 with capturing := false } entry.1).offsetIntragraph = whole := by
    simp [whole]
  suffices filled : Filling generator self nodes rest after by
    change Filling generator self nodes rest { world with
      generators := _
      graphs := world.graphs.modify self fun graph =>
        { graph with
          capturedGeneratorStates := setEntry graph.capturedGeneratorStates entry.1
            (update world.generators entry.1
              { world.generators entry.1 with capturing := false } entry.1).offsetIntragraph } }
    rw [read]
    exact filled
  have state : ∀ graph, after.graphs.get? self = some graph →
      ∃ before, world.graphs.get? self = some before ∧ graph = { before with
        capturedGeneratorStates := setEntry before.capturedGeneratorStates entry.1 whole } := by
    intro graph found
    rcases Store.of_get?_modify found with ⟨_, before, there, rfl⟩ | ⟨other, _⟩
    · exact ⟨before, there, rfl⟩
    · exact absurd rfl other
  refine { sound := ?_, exec := ?_, laid := ?_ }
  · have ended := filling.sound.updateGenerator entry.1
      (fun self => { self with capturing := false }) fun _ _ => ⟨rfl, rfl, rfl⟩
    have entered := ended.updateGraph self (fun graph =>
      { graph with capturedGeneratorStates := setEntry graph.capturedGeneratorStates entry.1 whole })
      fun graph found => SUPAGraph.refines_setEntry entry.1 whole (ended.keys self graph found)
        (fun _ => by
          rcases Store.of_get?_modify found with ⟨_, before, _, rfl⟩ | ⟨other, _⟩
          · rfl
          · exact absurd rfl other)
        (ended.replayable self graph found)
    refine entered.outside rfl rfl rfl ?_
    unfold World.withoutExec
    dsimp only [after]
    rw [Store.modify_modify, Store.modify_modify]
    rfl
  · intro graph found
    obtain ⟨before, there, rfl⟩ := state graph found
    exact filling.exec before there
  · rcases filling.laid with empty | ⟨laid, place⟩
    · exact .inl empty
    · refine .inr ⟨by rw [offset]; exact laid, ?_⟩
      rw [offset]
      by_cases same : entry.1 = generator
      · refine .inr fun graph found => ?_
        obtain ⟨before, _, rfl⟩ := state graph found
        subst same
        exact mem_setEntry _ _ _
      · rcases place with coming | entered
        · refine .inl ?_
          rw [map_cons] at coming
          exact (mem_cons.mp coming).resolve_left fun equal => same equal.symm
        · refine .inr fun graph found => ?_
          obtain ⟨before, there, rfl⟩ := state graph found
          exact mem_setEntry_of_ne _ _ (entered before there) fun equal => same equal.symm

theorem captureEnd_spec (self : GraphId) (sound : Sound generator world)
    (own : ∀ graph capture, world.graphs.get? self = some graph →
      world.captures graph.captureStream = some capture → capture.owner = self) :
    wp (captureEnd self) (fun _ after => Sound generator after)
      (Spares Exn.Fatal (Sound generator)) world := by
  refine bind_getGraph (fun graph found => ?_) (.inl trivial)
  change wp (ensure _ _ >>= _) _ _ world
  refine bind_ensure (fun _ => ?_) fun _ => .inr sound
  refine wp_seq _ (streamEndCapture_spec self graph.captureStream sound
    fun capture there => own graph capture found there) ?_
  rintro captured ended ⟨sound, graphs, nodes⟩
  rw [wp_bind]
  refine (wp_modify _).mpr ?_
  have handed := sound.updateGraph_plain self (fun graph => { graph with graph := captured })
    (fun _ => rfl) (fun _ => rfl) (fun _ owns => owns)
  refine bind_onAllocator (fun index allocator _ _ _ => ?_)
    (fun _ index allocator _ _ _ => .inr (handed.setAllocator self index _ allocator))
    fun _ => .inr handed
  replace handed := handed.setAllocator self index graph.mempoolId allocator
  refine bind_ensure (fun _ => ?_) fun _ => .inr handed
  rw [wp_bind]
  refine (wp_modify _).mpr ?_
  have owned := handed.updateGraph_plain self (fun graph => { graph with hasGraph := true })
    (fun _ => rfl) (fun _ => rfl) (fun _ owns => owns)
  refine bind_supaCheck (fun _ => ?_) fun _ => .inr owned
  rw [wp_bind]
  refine (wp_modify _).mpr ?_
  refine wp_seq _ (wp_mono (wp_forEach (Filling generator self (captured.getD []))
    (fun entry rest before filling => epilogue_spec self (captured.getD []) entry rest before filling)
    graph.capturedGeneratorStates _ ?_) (fun _ _ filling => filling.done)
    (fun _ _ fatal => .inl fatal)) ?_
  · have bare := owned.updateGraph self
      (fun graph => { graph with graphExec := captured.getD [], hasGraphExec := false })
      fun graph found => ⟨owned.keys self graph found, fun member => member,
        fun executable => absurd executable Bool.false_ne_true⟩
    refine { sound := ?_, exec := ?_, laid := ?_ }
    · refine bare.outside rfl rfl rfl ?_
      unfold World.withoutExec
      rw [Store.modify_modify]
      rfl
    · intro instantiated there
      rcases Store.of_get?_modify there with ⟨_, before, _, rfl⟩ | ⟨other, _⟩
      · rfl
      · exact absurd rfl other
    · rcases nodes with empty | ⟨laid, member⟩
      · exact .inl empty
      · exact .inr ⟨laid, .inl (member graph (by rw [graphs]; exact found))⟩
  intro _ filled sound
  refine bind_supaCheck (fun _ => ?_) fun _ => .inr sound
  change wp (whenever _ _) _ _ _
  refine (wp_ite _ _ _).mpr ?_
  split
  · refine bind_supaCheck (fun _ => ?_) fun _ => .inr sound
    exact sound.updateGraph_plain self (fun graph => { graph with hasGraph := false })
      (fun _ => rfl) (fun _ => rfl) (fun _ owns => owns)
  · exact sound

end CaptureEnd

section Replay

variable {generator : GeneratorId}

def Reserved (generator : GeneratorId) (whole : Nat) (world : World) : Prop :=
  ∃ base, (world.generators generator).offsetExtragraph = some base ∧
    ((world.generators generator).spent < 2 ^ 64 → base % 4 = 0 ∧
      Laid 4 (drawsOf generator world.draws) base ∧
      base + whole ≤ (world.generators generator).philoxOffsetPerThread)

variable {world : World}

theorem replayPrologue_spec (target whole : Nat) (sound : Sound generator world) :
    wp (replayPrologue target whole)
      (fun _ after => Sound generator after ∧ after.draws = world.draws ∧
        (target ≠ generator → after.generators generator = world.generators generator) ∧
        (target = generator → whole < 2 ^ 32 → whole % 4 = 0 → Reserved generator whole after))
      (Spares Exn.Fatal (Sound generator)) world := by
  change wp (ensure (world.captureStatus world.currentStream == .none) _ >>= _) _ _ world
  refine bind_ensure (fun quiet => ?_) fun _ => .inr sound
  have status : world.captureStatus world.currentStream = .none := by simpa using quiet
  change wp (fillSeed target _ >>= _) _ _ world
  refine bind_fillSeed (fun _ => ?_) (.inr sound) (.inl trivial)
  have seeded := sound.updateGenerator target
    (fun self => { self with seedExtragraph := some (world.generators target).seed })
    fun _ _ => ⟨rfl, rfl, rfl⟩
  change wp (fillOffset target _ >>= _) _ _ _
  refine bind_fillOffset (fun _ => ?_) (.inr seeded) (.inl trivial)
  have filled := seeded.updateGenerator target
    (fun self => { self with offsetExtragraph := some (world.generators target).philoxOffsetPerThread })
    fun _ _ => ⟨rfl, rfl, rfl⟩
  simp only [update_self] at filled ⊢
  refine wp_final ?_
  refine bind_increase_eager status ⟨filled.advance target whole, rfl, ?_, ?_⟩ fun _ => .inr filled
  · intro other
    simp [World.advance, update_of_ne other.symm]
  · rintro rfl below aligned
    refine ⟨(world.generators target).philoxOffsetPerThread, by simp [World.advance], ?_⟩
    simp only [World.advance, update_self]
    intro bounded
    have before : (world.generators target).spent < 2 ^ 64 := by omega
    refine ⟨sound.aligned, sound.drawn before, ?_⟩
    have exact := sound.exact before
    unfold roundUp
    omega

def Prologue (generator : GeneratorId) (nodes : List Node) (rest : List (GeneratorId × Nat))
    (world : World) : Prop :=
  Sound generator world ∧ (rest.map (·.1)).Nodup ∧
    (nodesOf generator nodes = [] ∨ ∃ whole, whole < 2 ^ 32 ∧ whole % 4 = 0 ∧
      Laid 4 (nodesOf generator nodes) whole ∧
      ((generator, whole) ∈ rest ∨ generator ∉ rest.map (·.1) ∧ Reserved generator whole world))

theorem prologue_step (nodes : List Node) (entry : GeneratorId × Nat)
    (rest : List (GeneratorId × Nat)) (world : World)
    (holds : Prologue generator nodes (entry :: rest) world) :
    wp (replayPrologue entry.1 entry.2) (fun _ after => Prologue generator nodes rest after)
      (Spares Exn.Fatal (Sound generator)) world := by
  obtain ⟨sound, nodup, place⟩ := holds
  rw [map_cons, nodup_cons] at nodup
  refine wp_mono (replayPrologue_spec entry.1 entry.2 sound) ?_ fun _ _ failed => failed
  rintro _ after ⟨kept, draws, others, mine⟩
  refine ⟨kept, nodup.2, place.imp_right ?_⟩
  rintro ⟨whole, below, aligned, laid, coming | ⟨passed, base, offset, reserved⟩⟩
  · refine ⟨whole, below, aligned, laid, ?_⟩
    rcases mem_cons.mp coming with first | later
    · subst first
      exact .inr ⟨nodup.1, mine rfl below aligned⟩
    · exact .inl later
  · rw [map_cons, mem_cons, not_or] at passed
    have same := others fun equal => passed.1 equal.symm
    refine ⟨whole, below, aligned, laid, .inr ⟨passed.2, base, ?_, ?_⟩⟩
    · rw [same]
      exact offset
    · rw [same, draws]
      exact reserved

theorem drawsOf_launch (generator base : Nat) (nodes : List Node) (draws : List Draw)
    (offset : Nat → Nat) (here : offset generator = base) :
    drawsOf generator (nodes.map (fun node =>
      ⟨node.generator, offset node.generator + node.offsetIntragraph, node.increment⟩) ++ draws) =
      (nodesOf generator nodes).map (fun range => (base + range.1, range.2)) ++
        drawsOf generator draws := by
  induction nodes with
  | nil => rfl
  | cons node rest ih =>
    rw [map_cons, cons_append, drawsOf_cons, nodesOf_cons, ih]
    by_cases same : node.generator = generator
    · subst same
      simp [here]
    · simp [same]

theorem graphLaunch_spec (nodes : List Node) (holds : Prologue generator nodes [] world) :
    wp (graphLaunch nodes) (fun _ after => Sound generator after)
      (Spares Exn.Fatal (Sound generator)) world := by
  obtain ⟨sound, _, place⟩ := holds
  refine bind_supaCheck (fun _ => ?_) fun _ => .inr sound
  refine (wp_modify _).mpr ?_
  refine { sound with drawn := fun bounded => ?_ }
  rcases place with empty | ⟨whole, below, aligned, laid, none' | ⟨_, base, offset, reserved⟩⟩
  · rw [drawsOf_launch generator _ nodes world.draws
      (fun target => (world.generators target).offsetExtragraph.getD 0) rfl, empty]
    exact sound.drawn bounded
  · simp at none'
  · rw [drawsOf_launch generator base nodes world.draws
      (fun target => (world.generators target).offsetExtragraph.getD 0) (by simp [offset])]
    obtain ⟨start, drawn, room⟩ := reserved bounded
    exact (drawn.append laid start).mono room

theorem replay_spec (self : GraphId) (sound : Sound generator world) :
    wp (replay self) (fun _ after => Sound generator after)
      (Spares Exn.Fatal (Sound generator)) world := by
  refine bind_getGraph (fun graph found => ?_) (.inl trivial)
  refine bind_ensure (fun owns => ?_) fun _ => .inr sound
  refine wp_seq _ (wp_forEach (Prologue generator graph.graphExec)
    (fun entry rest before holds => prologue_step graph.graphExec entry rest before holds)
    graph.capturedGeneratorStates world ⟨sound, sound.keys self graph found, ?_⟩) ?_
  · refine (sound.replayable self graph found owns).imp_right ?_
    rintro ⟨whole, entry, below, aligned, laid⟩
    exact ⟨whole, below, aligned, laid, .inl entry⟩
  · intro _ ready holds
    exact graphLaunch_spec graph.graphExec holds

end Replay

end TorchSupa.Graph
