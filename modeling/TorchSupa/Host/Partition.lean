import TorchSupa.Host.Sections

/-!
Every block that the allocator has registered is held by a caller, waits for events or is in
the free list, whatever the threads do.
-/

namespace TorchSupa.Host

open Allocator Interleaving Outcome

section Actions

variable {ghost : Ghost} {world : World} {place : Operation}

open Operation

theorem section_spec (sound : Sound ghost world) (owns : Owns ghost place) (answers : Answers)
    (fresh : answers.Fresh world) : Ensures ghost place (place.section answers) world := by
  cases place with
  | idle => exact Kept.quiet .idle sound owns rfl rfl rfl (.inr rfl) (by simp [ready]) trivial
  | allocateFromFreeList size => exact allocateFromFreeList_spec sound size owns
  | allocateNew size => exact allocateNew_spec sound answers fresh size owns
  | insertNew block => exact insertNew_spec sound block owns
  | freeBlock block => exact freeBlock_spec sound block owns
  | recordStreams block streams events =>
    exact recordStreams_spec sound answers block streams events owns
  | insertFreed block => exact insertFreeList_spec sound owns rfl rfl ⟨rfl, rfl, rfl, rfl, trivial⟩
  | publishEvents block events => exact publishEvents_spec sound block events owns
  | countEvents size caller => exact countEvents_spec sound size caller owns
  | popEvent loop => exact popEvent_spec sound loop owns
  | examineEvent loop event block => exact examineEvent_spec sound answers loop event block owns
  | pushFront loop event block last => exact pushFront_spec sound loop event block last owns
  | pushBack loop event block => exact pushBack_spec sound loop event block owns
  | countDown loop event block => exact countDown_spec sound loop event block owns
  | insertProcessed loop block => exact insertFreeList_spec sound owns rfl rfl ⟨rfl, rfl, rfl, rfl, trivial⟩
  | takeFreeList => exact takeFreeList_spec sound
  | releaseBlocks blocks => exact releaseBlocks_spec sound answers blocks owns

open List Phase

section

variable (sound : Sound ghost world)
include sound

theorem Kept.free {block : BlockId} (held : block ∈ world.live) :
    Kept ghost .idle { world with live := world.live.erase block } (.freeBlock block) := by
  have phase := (sound.live block).mp held
  obtain ⟨self, found, cell⟩ := sound.found phase (by simp)
  refine Kept.set .freeing sound (sound.update .freeing self found ?_ rfl cell rfl le_rfl rfl
    (fun _ => .inl) (sound.registered_iff (by simp [phase, registered])) ?_ ?_
    sound.blocksNodup sound.freeNodup (sound.liveNodup.erase block) (by simp)
    (sound.unqueued (by simp [phase, owed]) _)) ?_ (by simp [phase, exclusive])
    (by simp [phase, owed]) (by simp [phase, promised]) (by simp [claims])
    (by simp [events]) (by simp [promises]) (by simp) (by simp [inserts])
  · intro other
    by_cases same : other = block
    · rw [if_pos same, same, found]
    · rw [if_neg same]
  · intro other
    by_cases same : other = block
    · rw [if_pos same, same, sound.cached, phase]
      simp
    · rw [if_neg same]
  · intro other
    by_cases same : other = block
    · rw [if_pos same, same]
      simp [sound.liveNodup.mem_erase_iff]
    · rw [if_neg same, mem_erase_of_ne same]
  · constructor <;> simp [claims, events, promises, ready, proper]

theorem recordEvent_spec (ptr : Nat) (ctx : BlockId) (stream : Stream)
    (contract : ctx ∈ world.live ∨ ctx ∉ world.blocks ∧
      ∀ block self, world.heap.get? block = some self → self.ptr = ptr → block ∈ world.live) :
    Ensures ghost .idle (recordEvent ptr ctx stream) world := by
  have idle : Owns ghost .idle := Owns.nothing rfl rfl rfl rfl trivial
  refine bind_read ?_
  cases found : (if world.blocks.contains ctx then some ctx
    else (world.ptrToBlock.find? (·.1 == ptr)).map (·.2)) with
  | none => exact Kept.quiet .idle sound idle rfl rfl rfl (.inr rfl) (by simp [ready]) trivial
  | some block =>
    have held : block ∈ world.live := by
      rcases contract with live | ⟨foreign, live⟩
      · have registered : ctx ∈ world.blocks := by
          rw [sound.blocks, (sound.live ctx).mp live]
          rfl
        rw [if_pos (by simpa using registered)] at found
        cases found
        exact live
      · rw [if_neg (by simpa using foreign)] at found
        obtain ⟨entry, looked, rfl⟩ := Option.map_eq_some_iff.mp found
        obtain ⟨self, there, same⟩ := sound.table entry (mem_of_find?_eq_some looked)
        have named : entry.1 = ptr := by simpa using find?_some looked
        exact live entry.2 self there (same.trans named)
    have phase := (sound.live block).mp held
    obtain ⟨self, there, allocated, cell⟩ := sound.found phase (by simp)
    refine bind_getBlock there (bind_ensure (fun _ => ?_) fun fails => ?_)
    · refine bind_write ?_
      refine Kept.set .live sound (sound.update .live
        { self with streams := self.streams.insert stream } there ?_ rfl ⟨allocated, cell⟩ rfl
        le_rfl rfl (fun _ => .inl) (sound.registered_iff (by simp [phase, Phase.registered])) ?_ ?_
        sound.blocksNodup sound.freeNodup sound.liveNodup (by simp)
        (sound.unqueued (by simp [phase, Phase.owed]) _)) (Owns.nothing rfl rfl rfl rfl trivial)
        (by simp [phase, Phase.exclusive]) (by simp [phase, Phase.owed])
        (by simp [phase, Phase.promised]) (by simp [claims]) (by simp [events])
        (by simp [promises]) (by simp [phase]) (by simp [inserts])
      · intro other
        rw [Store.get?_modify, there]
        rfl
      · intro other
        by_cases same : other = block
        · rw [if_pos same, same, sound.cached, phase]
        · rw [if_neg same]
      · intro other
        by_cases same : other = block
        · simp [same, held]
        · rw [if_neg same]
    · rw [allocated] at fails
      exact absurd fails (by simp [Phase.allocated])

theorem Kept.complete (owns : Owns ghost place) (event : Event) :
    Kept ghost place { world with completed := event :: world.completed } place := by
  let later : Ghost := { ghost with completed := event :: ghost.completed }
  have after : Sound later { world with completed := event :: world.completed } := by
    refine { sound with
      cell := ?_
      completed := ?_ }
    · intro id there
      obtain ⟨block, found, allocated, count, last⟩ := sound.cell id there
      refine ⟨block, found, allocated, count, fun other recent => ?_⟩
      exact (last other recent).imp_left (mem_cons_of_mem event)
    · exact congrArg (event :: ·) sound.completed
  refine Kept.of sound after ?_ ?_ ?_ (fun id => .inl) fun id => .inl
  · exact { owns with ready := fun other member => mem_cons_of_mem event (owns.ready other member) }
  · refine Moves.still rfl (fun other member => .inl member)
      (fun other member => mem_cons_of_mem event member) ?_ ?_ ?_
    · exact fun claim member => ⟨claim, member, rfl⟩
    · exact fun entry member => .inl ⟨entry, member, rfl⟩
    · exact fun promise member => ⟨promise, member, rfl⟩
  · intro id at'
    by_cases carried : place.inserts = some id
    · exact .inl carried
    · exact .inr ⟨at', carried⟩

theorem parse_spec (config : List String) (i : Nat) : Ensures ghost .idle (do
      let _ ← parsePinnedUseSupaHostRegister config i
      pure .idle) world := by
  have idle : Owns ghost .idle := Owns.nothing rfl rfl rfl rfl trivial
  have stays : Kept ghost .idle world .idle :=
    Kept.quiet .idle sound idle rfl rfl rfl (.inr rfl) (by simp [ready]) trivial
  unfold Ensures parsePinnedUseSupaHostRegister consumeToken
  rw [bind_assoc]
  refine bind_ensure (fun _ => ?_) fun _ => ⟨by simp, .inr stays⟩
  cases config[i + 2]? with
  | none => exact ⟨by simp, .inr stays⟩
  | some token =>
    rw [bind_assoc]
    refine bind_ensure (fun _ => ?_) fun _ => ⟨by simp, .inr stays⟩
    have set : Sound ghost { world with pinnedUseSupaHostRegister := token == "True" } :=
      { sound with }
    have kept := Kept.quiet .idle set idle rfl rfl rfl (.inr rfl) (by simp [ready]) trivial
    exact kept

theorem action_spec (owns : Owns ghost place) {action : Action}
    {program : HostM Operation} (run : action.run place = some program)
    (enabled : Enabled world place action) (respects : Respects world action) :
    Ensures ghost place program world := by
  have stays : ∀ next : Operation, next.claims = [] → next.promises = [] → next.events = [] →
      next.ready = [] → next.proper → place.inserts = none → Kept ghost place world next :=
    fun next claims promises events ready proper inserts =>
      Kept.quiet next sound owns inserts claims promises (.inr events) (by simp [ready]) proper
  cases Action.runs run with
  | proceed _ answers => exact section_spec sound owns answers enabled.1
  | complete _ event =>
    refine bind_write ?_
    exact Kept.complete sound owns event
  | allocate size =>
    by_cases zero : size = 0
    · rw [if_pos zero]
      exact stays .idle rfl rfl rfl rfl trivial rfl
    · rw [if_neg zero]
      exact stays (.countEvents (-1) (.allocate size)) rfl rfl rfl rfl trivial rfl
  | nothing => exact stays .idle rfl rfl rfl rfl trivial rfl
  | free block =>
    refine bind_write ?_
    exact Kept.free sound respects
  | recordEvent ptr ctx stream => exact recordEvent_spec sound ptr ctx stream respects
  | processEvents size => exact stays (.countEvents size .none) rfl rfl rfl rfl trivial rfl
  | emptyCache => exact stays (.countEvents (-1) .emptyCache) rfl rfl rfl rfl trivial rfl
  | parse config i => exact parse_spec sound config i

end

theorem Initial.sound (initial : Initial world) :
    Sound { phase := fun _ => .absent, queued := [], completed := world.completed } world := by
  obtain ⟨heap, blocks, table, freeList, supaEvents, live, _⟩ := initial
  constructor <;> simp [heap, blocks, table, freeList, supaEvents, live, registered]

end Actions

section Runs

variable {world : World} {place : Operation}

theorem Caller.empties_next (caller : Caller) : caller.next.empties = (caller == .emptyCache) := by
  cases caller <;> rfl

theorem section_empties (answers : Answers) (other : place.empties = false) :
    wp (place.section answers) (fun next _ => next.empties = false) (fun _ _ => True) world := by
  cases place with
  | idle => rfl
  | allocateFromFreeList size =>
    refine bind_read ?_
    cases world.lowerBound size <;> rfl
  | allocateNew size =>
    exact bind_read (wp_seq (fun _ _ => True) (wp_true _) fun _ _ _ => rfl)
  | insertNew block =>
    exact wp_seq (fun _ _ => True) (wp_true _) fun _ _ _ => rfl
  | freeBlock block =>
    refine bind_write (wp_seq (fun _ _ => True) (wp_true _) fun self _ _ => ?_)
    rw [wp_ite]
    split
    · exact bind_ensure (fun _ => rfl) fun _ => trivial
    · rfl
  | recordStreams block streams events =>
    cases streams with
    | nil => rfl
    | cons stream rest => exact bind_ensure (fun _ => rfl) fun _ => trivial
  | insertFreed block => rfl
  | publishEvents block events => rfl
  | countEvents size caller => exact other
  | popEvent loop =>
    refine bind_read ?_
    cases world.supaEvents.getLast? with
    | none => rw [← other]; exact loop.caller.empties_next
    | some entry => exact other
  | examineEvent loop event block =>
    change wp (Host.examineEvent answers loop event block) _ _ _
    unfold Host.examineEvent
    rw [wp_ite]
    split
    · exact other
    · refine wp_seq (fun _ _ => True) (wp_true _) fun self _ _ => ?_
      have caller : (if loop.size ≠ -1 then { loop with eventCount := loop.eventCount + 1 }
          else loop).caller = loop.caller := by split <;> rfl
      generalize (if loop.size ≠ -1 then { loop with eventCount := loop.eventCount + 1 }
        else loop) = counted at caller ⊢
      have same : (counted.caller == .emptyCache) = false := by
        rw [caller]
        exact other
      rw [wp_ite]
      split
      · exact same
      · refine wp_seq (fun _ _ => True) (bind_ensure (fun _ => trivial) fun _ => trivial)
          fun ready _ _ => ?_
        rw [wp_ite]
        split
        · exact same
        · rw [wp_ite]
          split <;> exact same
  | pushFront loop event block last =>
    cases last with
    | true => rw [← other]; exact loop.caller.empties_next
    | false => exact other
  | pushBack loop event block => rw [← other]; exact loop.caller.empties_next
  | countDown loop event block =>
    refine wp_seq (fun _ _ => True) (wp_true _) fun self _ _ => ?_
    refine bind_ensure (fun _ => ?_) fun _ => trivial
    refine bind_write ?_
    cases zero : wrappingSub self.eventCount 1 <;> exact other
  | insertProcessed loop block => exact other
  | takeFreeList => exact absurd other (by simp [Operation.empties])
  | releaseBlocks blocks => exact absurd other (by simp [Operation.empties])

theorem action_empties {action : Action} {program : HostM Operation}
    (run : action.run place = some program) (other : place.empties = false)
    (notEmpty : action ≠ .emptyCache) :
    wp program (fun next _ => next.empties = false) (fun _ _ => True) world := by
  cases Action.runs run with
  | proceed _ answers => exact section_empties answers other
  | complete _ event => exact other
  | allocate size =>
    by_cases zero : size = 0
    · rw [if_pos zero]
      rfl
    · rw [if_neg zero]
      rfl
  | nothing => rfl
  | free block => rfl
  | recordEvent ptr ctx stream =>
    refine bind_read ?_
    cases (if world.blocks.contains ctx then some ctx
      else (world.ptrToBlock.find? (·.1 == ptr)).map (·.2)) with
    | none => rfl
    | some block =>
      refine wp_seq (fun _ _ => True) (wp_true _) fun self _ _ => ?_
      exact bind_ensure (fun _ => rfl) fun _ => trivial
  | processEvents size => rfl
  | emptyCache => exact absurd rfl notEmpty
  | parse config i =>
    exact wp_seq (fun _ _ => True) (wp_true _) fun _ _ _ => rfl

/-- Callers keep their part of the contract, and call `empty_cache` only where it may be. -/
def Contract (mayEmpty : Prop) (state : State) (label : Nat × Action) : Prop :=
  Respects state.shared label.2 ∧ (label.2 = .emptyCache → mayEmpty)

theorem reachable_holds {mayEmpty : Prop} {state : State}
    (reached : hostProgram.interleaved.Reachable (Contract mayEmpty) state) :
    (hostDiscipline mayEmpty).Holds state := by
  refine Discipline.holds (fun apart => Apart.symm apart) ?_ ?_ ?_ reached
  · intro world initial
    refine ⟨_, ⟨Initial.sound initial, fun id at' => absurd at' (by simp)⟩,
      ⟨Owns.nothing rfl rfl rfl rfl trivial, fun empties => absurd empties (by simp [hostProgram, Operation.empties])⟩,
      fun id => by simp [hostDiscipline]⟩
  · constructor <;> simp [hostProgram, Operation.claims, Operation.events, Operation.promises]
  · rintro ghost before thread action after next holds ⟨respects, empty⟩ taken
    have owns := (holds.owns thread).1
    have stays : ∀ program, action.run (before.place thread) = some program →
        wp program (fun next _ => next.empties = true → mayEmpty) (fun _ _ => True) before.shared := by
      intro program run
      by_cases may : mayEmpty
      · exact wp_mono (wp_true _) (fun _ _ _ _ => may) fun _ _ _ => trivial
      · refine wp_mono (action_empties run ?_ fun same => may (empty same)) ?_ fun _ _ _ => trivial
        · cases empties : (before.place thread).empties with
          | false => rfl
          | true => exact absurd ((holds.owns thread).2 empties) may
        · intro next _ other empties
          rw [other] at empties
          simp at empties
    have refined : Kept ghost (before.place thread) after next → (next.empties = true → mayEmpty) →
        ∃ later, (hostDiscipline mayEmpty).Keeps ghost later (before.place thread) after next := by
      rintro ⟨later, kept⟩ empties
      refine ⟨later, ⟨kept.sound, fun id at' => ?_⟩, ⟨kept.owns, empties⟩, ?_, kept.carried⟩
      · rcases kept.releasing id at' with old | takes
        · exact holds.sound.2 id old
        · exact (holds.owns thread).2 (by rw [takes]; rfl)
      · rintro other ⟨others, mayOther⟩ apart
        obtain ⟨still, apart'⟩ := kept.others other others apart
        exact ⟨⟨still, mayOther⟩, apart'⟩
    cases taken with
    | returns program _ _ run enabled result =>
      have kept := wp_ok (action_spec holds.sound.1 owns run enabled respects) result
      have empties := wp_ok (stays program run) result
      exact refined kept empties
    | throws program exception _ run enabled result survives =>
      have spec := action_spec holds.sound.1 owns run enabled respects
      obtain ⟨_, fatal | kept⟩ := wp_error spec result
      · exact absurd fatal survives
      · exact refined kept fun empties => absurd empties (by simp [Operation.empties])

/-- The block that a `free` or a `process_events` works on, from its first section on the
block to its last. -/
def Operation.processes : Operation → Option BlockId
  | .recordStreams block _ _ => some block
  | .publishEvents block _ => some block
  | .insertFreed block => some block
  | .examineEvent _ _ block => some block
  | .pushFront _ _ block _ => some block
  | .pushBack _ _ block => some block
  | .countDown _ _ block => some block
  | .insertProcessed _ block => some block
  | _ => none

def Allocated (world : World) (id : BlockId) : Prop :=
  ∃ block, world.heap.get? id = some block ∧ block.allocated = true

def Waiting (state : State) (id : BlockId) : Prop :=
  (∃ block, state.shared.heap.get? id = some block ∧ 0 < block.eventCount) ∨
    ∃ thread, (state.place thread).processes = some id

structure Safe (state : State) : Prop where
  covered : ∀ id ∈ state.shared.blocks, Allocated state.shared id ∨ Waiting state id ∨
    id ∈ state.shared.freeList
  notWaiting : ∀ id ∈ state.shared.blocks, Allocated state.shared id → ¬ Waiting state id
  notFree : ∀ id ∈ state.shared.freeList, id ∈ state.shared.blocks ∧
    ¬ Allocated state.shared id ∧ ¬ Waiting state id
  freeOnce : state.shared.freeList.Nodup
  insertsOnce : ∀ thread id, (state.place thread).inserts = some id → id ∉ state.shared.freeList
  returned : ∀ thread action after next, Respects state.shared action →
    Step state.shared (state.place thread) action after next →
    ∀ id ∈ after.live, id ∉ state.shared.live →
      (id ∈ state.shared.freeList ∨ id ∉ state.shared.blocks ∧ state.place thread = .insertNew id) ∧
      ∀ block, state.shared.heap.get? id = some block →
        ∀ event ∈ block.lastEvents, event ∈ state.shared.completed
  assertions : ∀ thread action program exception after,
    action.run (state.place thread) = some program →
    Enabled state.shared (state.place thread) action → Respects state.shared action →
    program state.shared = .error exception after → exception ≠ .internalAssert

variable {ghost : Ghost}

variable {id : BlockId}

theorem Sound.allocated_iff (sound : Sound ghost world) (there : ghost.phase id ≠ .absent) :
    Allocated world id ↔ (ghost.phase id).allocated = true := by
  obtain ⟨block, found, allocated, _⟩ := sound.cell id there
  rw [← allocated]
  constructor
  · rintro ⟨other, also, holds⟩
    rwa [Option.mem_unique found also]
  · exact fun holds => ⟨block, found, holds⟩

theorem Owns.processes (owns : Owns ghost place) (processes : place.processes = some id) :
    (ghost.phase id).allocated = false ∧ ghost.phase id ≠ .cached := by
  have waiting : ∀ event : Event, event ∈ (ghost.phase id).owed →
      (ghost.phase id).allocated = false ∧ ghost.phase id ≠ .cached := by
    intro event owed
    cases phase : ghost.phase id <;> rw [phase] at owed <;> simp_all [Phase.owed, Phase.allocated]
  have inserting : ghost.phase id = .inserting →
      (ghost.phase id).allocated = false ∧ ghost.phase id ≠ .cached := by
    intro phase
    simp [phase, Phase.allocated]
  cases place <;> simp only [Operation.processes, Option.some.injEq, reduceCtorEq] at processes
  case recordStreams block streams events =>
    subst processes
    rcases owns.proper with todo | done
    · cases streams with
      | nil => exact absurd rfl todo
      | cons stream rest =>
        have promise := owns.promises (block, rest.length + 1) (by simp [Operation.promises])
        cases phase : ghost.phase block <;> rw [phase] at promise <;>
          simp_all [Phase.promised, Phase.allocated]
    · obtain ⟨event, rest, rfl⟩ := List.exists_cons_of_ne_nil done
      exact waiting event (owns.events (event, block) (by simp [Operation.events]))
  case publishEvents block events =>
    subst processes
    obtain ⟨event, rest, rfl⟩ := List.exists_cons_of_ne_nil owns.proper
    exact waiting event (owns.events (event, block) (by simp [Operation.events]))
  case insertFreed block =>
    subst processes
    exact inserting (owns.claims (block, .inserting) (by simp [Operation.claims]))
  case insertProcessed loop block =>
    subst processes
    exact inserting (owns.claims (block, .inserting) (by simp [Operation.claims]))
  all_goals
    subst processes
    exact waiting _ (owns.events (_, _) (List.mem_singleton.mpr rfl))

theorem Operation.processes_of_inserts (inserts : place.inserts = some id) :
    place.processes = some id := by
  cases place <;> simp_all [Operation.inserts, Operation.processes]

theorem Owns.inserts (owns : Owns ghost place) (inserts : place.inserts = some id) :
    ghost.phase id = .inserting := by
  cases place <;> simp only [Operation.inserts, Option.some.injEq, reduceCtorEq] at inserts
  all_goals
    subst inserts
    exact owns.claims (_, .inserting) (by simp [Operation.claims])

theorem Sound.notWaiting (sound : Sound ghost world) {place : Nat → Operation}
    (owns : ∀ thread, Owns ghost (place thread))
    (phase : (ghost.phase id).allocated = true ∨ ghost.phase id = .cached) :
    ¬ Waiting ⟨world, place⟩ id := by
  rintro (⟨block, found, positive⟩ | ⟨thread, processes⟩)
  · have there : ghost.phase id ≠ .absent := by
      intro absent
      simp [absent, Phase.allocated] at phase
    obtain ⟨_, also, _, count, _⟩ := sound.cell id there
    rw [Option.mem_unique found also, count] at positive
    cases state : ghost.phase id <;> simp_all [Phase.count, Phase.allocated]
  · obtain ⟨notAllocated, notCached⟩ := (owns thread).processes processes
    rcases phase with allocated | cached
    · rw [allocated] at notAllocated
      simp at notAllocated
    · exact notCached cached

/-- The blocks are partitioned in every state that threads reach by `allocate`, `free`,
`record_event` and `process_events`. -/
theorem blocks_partitioned (state : State)
    (reached : hostProgram.interleaved.Reachable (Contract False) state) : Safe state := by
  obtain ⟨ghost, holds⟩ := reachable_holds reached
  obtain ⟨sound, noRelease⟩ := holds.sound
  have owns : ∀ thread, Owns ghost (state.place thread) := fun thread => (holds.owns thread).1
  have registered : ∀ id ∈ state.shared.blocks, ghost.phase id ≠ .absent := by
    intro id member absent
    rw [sound.blocks, absent] at member
    exact absurd member (by simp [Phase.registered])
  constructor
  · intro id member
    have there := registered id member
    rw [sound.allocated_iff there, sound.cached]
    cases phase : ghost.phase id with
    | absent => exact absurd phase there
    | creating =>
      rw [sound.blocks, phase] at member
      exact absurd member (by simp [Phase.registered])
    | live => exact Or.inl rfl
    | freeing => exact Or.inl rfl
    | waiting owed promised =>
      obtain ⟨block, found, _, count, _⟩ := sound.found phase (by simp)
      have positive := (sound.pending id owed promised phase).1
      refine Or.inr (Or.inl (Or.inl ⟨block, found, ?_⟩))
      rw [count]
      exact positive
    | inserting =>
      obtain ⟨thread, inserts⟩ := holds.carried id phase
      exact Or.inr (Or.inl (Or.inr ⟨thread, Operation.processes_of_inserts inserts⟩))
    | cached => exact Or.inr (Or.inr rfl)
    | releasing => exact (noRelease id phase).elim
  · intro id member allocated
    exact sound.notWaiting owns (Or.inl ((sound.allocated_iff (registered id member)).mp allocated))
  · intro id member
    have phase := (sound.cached id).mp member
    have there : id ∈ state.shared.blocks := by
      rw [sound.blocks, phase]
      rfl
    refine ⟨there, fun allocated => ?_, sound.notWaiting owns (Or.inr phase)⟩
    rw [sound.allocated_iff (registered id there), phase] at allocated
    exact absurd allocated (by simp [Phase.allocated])
  · exact sound.freeNodup
  · intro thread id inserts member
    rw [sound.cached, (owns thread).inserts inserts] at member
    exact absurd member (by simp)
  · intro thread action after next respects taken id member new
    have kept : Kept ghost (state.place thread) after next := by
      cases taken with
      | returns program _ _ run enabled result =>
        have kept := wp_ok (action_spec sound (owns thread) run enabled respects) result
        exact kept
      | throws program exception _ run enabled result survives =>
        have spec := wp_error (action_spec sound (owns thread) run enabled respects) result
        exact spec.2.resolve_left survives
    obtain ⟨later, kept⟩ := kept
    rw [sound.live] at new
    have origin := (kept.live id ((kept.sound.live id).mp member)).resolve_left new
    have phase : ghost.phase id = .cached ∨ ghost.phase id = .creating := by
      refine origin.imp_right fun inserts => ?_
      exact (owns thread).claims (id, .creating) (by simp [inserts, Operation.claims])
    refine ⟨?_, fun block found event recent => ?_⟩
    · rw [sound.cached, sound.blocks]
      refine origin.imp_right fun inserts => ⟨?_, inserts⟩
      have creating := (owns thread).claims (id, .creating) (by simp [inserts, Operation.claims])
      simp [creating, Phase.registered]
    · have there : ghost.phase id ≠ .absent := by
        rcases phase with same | same <;> simp [same]
      obtain ⟨_, also, _, _, last⟩ := sound.cell id there
      rw [← Option.mem_unique found also] at last
      rcases phase with same | same <;> simpa [same, Phase.owed] using last event recent
  · intro thread action program exception after run enabled respects result
    exact (wp_error (action_spec sound (owns thread) run enabled respects) result).1

/-- Thread 0 allocates a block, uses it on stream 7 and frees it; thread 1 asks for memory
while the event is not complete. -/
def sampleLabels : List (Nat × Action) :=
  allocates 0 100 4096 ++ [(0, Action.recordEvent 4096 0 7), (0, .free (some 0))] ++ turns 0 4 ++
    [(1, Action.allocate 100)] ++ turns 1 3

def withoutEmptyCache (_ : State) (label : Nat × Action) : Bool :=
  match label.2 with
  | .emptyCache => false
  | _ => true

theorem blocks_partitioned_sample :
    let final := finalState withoutEmptyCache sampleLabels
    Safe final ∧ final.shared.blocks = [0] ∧
      final.place 1 = .pushBack { size := -1, maxEvents := 1, caller := .allocate 100 } 0 0 := by
  refine ⟨blocks_partitioned _ ?_, by decide +kernel, by decide +kernel⟩
  refine reachable_finalState withoutEmptyCache sampleLabels (by decide +kernel) ?_
  rintro state ⟨thread, action⟩ passes respects
  refine ⟨respects, fun empties => ?_⟩
  rw [show action = .emptyCache from empties] at passes
  exact absurd passes (by simp [withoutEmptyCache])

/-- With `empty_cache` in the run as well, no assertion fires, and what it is about to release is
in no other hands: nobody holds it, finds it in the free list or is to put it there, no other
`empty_cache` has it, and the events of its last free have completed. -/
theorem releases_exclusive (state : State)
    (reached : hostProgram.interleaved.Reachable (Contract True) state) :
    (∀ thread blocks, state.place thread = .releaseBlocks blocks → blocks.Nodup ∧ ∀ id ∈ blocks,
      id ∉ state.shared.live ∧ id ∉ state.shared.freeList ∧
      (∀ other others, other ≠ thread → state.place other = .releaseBlocks others → id ∉ others) ∧
      (∀ other, (state.place other).inserts ≠ some id) ∧
      ∃ block, state.shared.heap.get? id = some block ∧ block.allocated = false ∧
        block.eventCount = 0 ∧ ∀ event ∈ block.lastEvents, event ∈ state.shared.completed) ∧
    ∀ thread action program exception after, action.run (state.place thread) = some program →
      Enabled state.shared (state.place thread) action → Respects state.shared action →
      program state.shared = .error exception after → exception ≠ .internalAssert := by
  obtain ⟨ghost, holds⟩ := reachable_holds reached
  have sound := holds.sound.1
  have owns : ∀ thread, Owns ghost (state.place thread) := fun thread => (holds.owns thread).1
  constructor
  · intro thread blocks releases
    have claims : (state.place thread).claims = blocks.map fun block => (block, .releasing) := by
      rw [releases]
      rfl
    refine ⟨?_, fun id member => ?_⟩
    · simpa [claims, Function.comp_def] using (owns thread).claimsNodup
    · have claim : (id, Phase.releasing) ∈ (state.place thread).claims := by
        rw [claims]
        exact List.mem_map.mpr ⟨id, member, rfl⟩
      have phase : ghost.phase id = .releasing := (owns thread).claims _ claim
      obtain ⟨block, found, allocated, count, last⟩ := sound.cell id (by simp [phase])
      rw [phase] at allocated count last
      refine ⟨by simp [sound.live, phase], by simp [sound.cached, phase],
        fun other others different releases' also => ?_, fun other inserts => ?_,
        block, found, allocated, count, by simpa [Phase.owed] using last⟩
      · have second : (id, Phase.releasing) ∈ (state.place other).claims := by
          rw [releases']
          exact List.mem_map.mpr ⟨id, also, rfl⟩
        exact (holds.apart thread other different.symm).claims _ claim _ second rfl
      · exact absurd (phase.symm.trans ((owns other).inserts inserts)) (by simp)
  · intro thread action program exception after run enabled respects result
    exact (wp_error (action_spec sound (owns thread) run enabled respects) result).1

/-- Another thread empties the cache when the event of a freed block has completed. -/
theorem releases_exclusive_sample :
    let final := finalState (fun _ _ => true) (allocates 0 100 4096 ++
      [(0, Action.recordEvent 4096 0 7), (0, .free (some 0))] ++ turns 0 4 ++
      [(0, Action.complete 0), (1, .emptyCache)] ++ turns 1 7)
    final.place 1 = .releaseBlocks [0] ∧ 0 ∉ final.shared.live := by
  intro final
  have releases : final.place 1 = .releaseBlocks [0] := by decide +kernel
  have reached : hostProgram.interleaved.Reachable (Contract True) final :=
    reachable_finalState _ _ (by decide +kernel) fun _ _ _ respects => ⟨respects, fun _ => trivial⟩
  exact ⟨releases, (((releases_exclusive final reached).1 1 [0] releases).2 0 (by simp)).1⟩

end Runs

end TorchSupa.Host
