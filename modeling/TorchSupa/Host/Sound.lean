import TorchSupa.Host.Machine

/-!
Where a block is in its life, and which events are still to be processed for it. A thread knows
the phase of the blocks in its hands.
-/

namespace TorchSupa.Host

open Allocator Interleaving

inductive Phase
  | absent
  | creating
  | live
  | freeing
  | waiting (owed : List Event) (promised : Nat)
  | inserting
  | cached
  | releasing
deriving DecidableEq

def Phase.allocated : Phase → Bool
  | .creating | .live | .freeing => true
  | _ => false

def Phase.count : Phase → Nat
  | .waiting owed promised => owed.length + promised
  | _ => 0

def Phase.owed : Phase → List Event
  | .waiting owed _ => owed
  | _ => []

def Phase.promised : Phase → Nat
  | .waiting _ promised => promised
  | _ => 0

def Phase.registered : Phase → Bool
  | .absent | .creating => false
  | _ => true

def Phase.exclusive : Phase → Bool
  | .creating | .freeing | .inserting | .releasing => true
  | _ => false

structure Ghost where
  phase : BlockId → Phase
  queued : List Event
  completed : List Event

def Ghost.set (ghost : Ghost) (id : BlockId) (phase : Phase) : Ghost :=
  { ghost with phase := Function.update ghost.phase id phase }

@[simp] theorem Ghost.phase_set (ghost : Ghost) (id : BlockId) (phase : Phase) :
    (ghost.set id phase).phase id = phase := Function.update_self ..

theorem Ghost.phase_set_ne (ghost : Ghost) {id other : BlockId} (phase : Phase)
    (different : other ≠ id) : (ghost.set id phase).phase other = ghost.phase other :=
  Function.update_of_ne different ..

@[simp] theorem Ghost.queued_set (ghost : Ghost) (id : BlockId) (phase : Phase) :
    (ghost.set id phase).queued = ghost.queued := rfl

def Operation.claims : Operation → List (BlockId × Phase)
  | .insertNew block => [(block, .creating)]
  | .freeBlock block => [(block, .freeing)]
  | .insertFreed block => [(block, .inserting)]
  | .insertProcessed _ block => [(block, .inserting)]
  | .releaseBlocks blocks => blocks.map fun block => (block, .releasing)
  | _ => []

def Operation.events : Operation → List (Event × BlockId)
  | .recordStreams block _ events => events.map fun event => (event, block)
  | .publishEvents block events => events.map fun event => (event, block)
  | .examineEvent _ event block => [(event, block)]
  | .pushFront _ event block _ => [(event, block)]
  | .pushBack _ event block => [(event, block)]
  | .countDown _ event block => [(event, block)]
  | _ => []

def Operation.promises : Operation → List (BlockId × Nat)
  | .recordStreams block (_ :: rest) _ => [(block, rest.length + 1)]
  | _ => []

def Operation.ready : Operation → List Event
  | .countDown _ event _ => [event]
  | _ => []

def Operation.proper : Operation → Prop
  | .recordStreams _ streams events => streams ≠ [] ∨ events ≠ []
  | .publishEvents _ events => events ≠ []
  | _ => True

def Operation.inserts : Operation → Option BlockId
  | .insertFreed block => some block
  | .insertProcessed _ block => some block
  | _ => none

structure Sound (ghost : Ghost) (world : World) : Prop where
  cell : ∀ id, ghost.phase id ≠ .absent → ∃ block, world.heap.get? id = some block ∧
    block.allocated = (ghost.phase id).allocated ∧ block.eventCount = (ghost.phase id).count ∧
    ∀ event ∈ block.lastEvents, event ∈ world.completed ∨ event ∈ (ghost.phase id).owed
  blocks : ∀ id, id ∈ world.blocks ↔ (ghost.phase id).registered = true
  cached : ∀ id, id ∈ world.freeList ↔ ghost.phase id = .cached
  live : ∀ id, id ∈ world.live ↔ ghost.phase id = .live
  blocksNodup : world.blocks.Nodup
  freeNodup : world.freeList.Nodup
  liveNodup : world.live.Nodup
  pending : ∀ id owed promised, ghost.phase id = .waiting owed promised →
    0 < owed.length + promised ∧ owed.Nodup ∧ ∀ event ∈ owed, event < world.recordings
  queue : ∀ entry ∈ world.supaEvents, entry.1 ∈ (ghost.phase entry.2).owed
  queued : world.supaEvents.map (·.1) = ghost.queued
  queueNodup : ghost.queued.Nodup
  completed : ghost.completed = world.completed
  pointers : ∀ id other block second, world.heap.get? id = some block →
    world.heap.get? other = some second → block.ptr = second.ptr → id = other
  table : ∀ entry ∈ world.ptrToBlock, ∃ block, world.heap.get? entry.2 = some block ∧
    block.ptr = entry.1

structure Owns (ghost : Ghost) (place : Operation) : Prop where
  claims : ∀ claim ∈ place.claims, ghost.phase claim.1 = claim.2
  claimsNodup : (place.claims.map (·.1)).Nodup
  events : ∀ entry ∈ place.events, entry.1 ∈ (ghost.phase entry.2).owed
  eventsNodup : (place.events.map (·.1)).Nodup
  unqueued : ∀ entry ∈ place.events, entry.1 ∉ ghost.queued
  promises : ∀ promise ∈ place.promises, promise.2 ≤ (ghost.phase promise.1).promised
  ready : ∀ event ∈ place.ready, event ∈ ghost.completed
  proper : place.proper

structure Apart (place other : Operation) : Prop where
  claims : ∀ claim ∈ place.claims, ∀ second ∈ other.claims, claim.1 ≠ second.1
  events : ∀ entry ∈ place.events, ∀ second ∈ other.events, entry.1 ≠ second.1
  promises : ∀ promise ∈ place.promises, ∀ second ∈ other.promises, promise.1 ≠ second.1

theorem Apart.symm {place other : Operation} (apart : Apart place other) : Apart other place where
  claims claim member second also := (apart.claims second also claim member).symm
  events entry member second also := (apart.events second also entry member).symm
  promises promise member second also := (apart.promises second also promise member).symm

def Operation.empties : Operation → Bool
  | .countEvents _ caller => caller == .emptyCache
  | .popEvent loop => loop.caller == .emptyCache
  | .examineEvent loop _ _ => loop.caller == .emptyCache
  | .pushFront loop _ _ _ => loop.caller == .emptyCache
  | .pushBack loop _ _ => loop.caller == .emptyCache
  | .countDown loop _ _ => loop.caller == .emptyCache
  | .insertProcessed loop _ => loop.caller == .emptyCache
  | .takeFreeList => true
  | .releaseBlocks _ => true
  | _ => false

def hostDiscipline (mayEmpty : Prop) : Discipline World Operation Ghost BlockId where
  sound ghost world := Sound ghost world ∧ ∀ id, ghost.phase id = .releasing → mayEmpty
  owns ghost place := Owns ghost place ∧ (place.empties = true → mayEmpty)
  apart := Apart
  wanted ghost id := ghost.phase id = .inserting
  carries place id := place.inserts = some id

section Owns

variable {ghost later : Ghost} {place before next : Operation}

open List

theorem claims_exclusive {claim : BlockId × Phase} (member : claim ∈ place.claims) :
    claim.2.exclusive = true := by
  cases place <;> simp only [Operation.claims, mem_singleton, mem_map, not_mem_nil] at member
  all_goals first
    | (rw [member]; rfl)
    | (obtain ⟨_, _, rfl⟩ := member; rfl)

theorem Owns.nothing (claims : place.claims = []) (events : place.events = [])
    (promises : place.promises = []) (ready : place.ready = []) (proper : place.proper) :
    Owns ghost place := by
  constructor <;> simp [claims, events, promises, ready, proper]

structure Moves (ghost later : Ghost) (before next : Operation) (recordings : Nat) : Prop where
  claims : ∀ id, (ghost.phase id).exclusive = true → later.phase id ≠ ghost.phase id →
    ∃ claim ∈ before.claims, claim.1 = id
  owed : ∀ id, ∀ event ∈ (ghost.phase id).owed, event ∈ (later.phase id).owed ∨
    ∃ entry ∈ before.events, entry.1 = event
  promised : ∀ id, (ghost.phase id).promised ≤ (later.phase id).promised ∨
    ∃ promise ∈ before.promises, promise.1 = id
  queued : ∀ event ∈ later.queued, event ∈ ghost.queued ∨ ∃ entry ∈ before.events, entry.1 = event
  completed : ∀ event ∈ ghost.completed, event ∈ later.completed
  nextClaims : ∀ claim ∈ next.claims, (∃ second ∈ before.claims, second.1 = claim.1) ∨
    (ghost.phase claim.1).exclusive = false
  nextEvents : ∀ entry ∈ next.events, (∃ second ∈ before.events, second.1 = entry.1) ∨
    entry.1 ∈ ghost.queued ∨ recordings ≤ entry.1
  nextPromises : ∀ promise ∈ next.promises, (∃ second ∈ before.promises, second.1 = promise.1) ∨
    (ghost.phase promise.1).promised = 0

theorem Operation.promise_pos {promise : BlockId × Nat} (member : promise ∈ place.promises) :
    0 < promise.2 := by
  cases place <;> simp only [Operation.promises, not_mem_nil] at member
  rename_i block streams events
  cases streams with
  | nil => simp at member
  | cons stream rest =>
    simp only [mem_singleton] at member
    simp [member]

variable {recordings : Nat}

theorem Moves.others (moves : Moves ghost later before next recordings)
    (bound : ∀ id, ∀ event ∈ (ghost.phase id).owed, event < recordings) (other : Operation)
    (owns : Owns ghost other) (apart : Apart before other) :
    Owns later other ∧ Apart next other := by
  constructor
  · refine { owns with claims := ?_, events := ?_, unqueued := ?_, promises := ?_, ready := ?_ }
    · intro claim member
      have phase := owns.claims claim member
      by_contra changed
      rw [← phase] at changed
      obtain ⟨own, also, same⟩ := moves.claims claim.1
        (by rw [phase]; exact claims_exclusive member) changed
      exact apart.claims own also claim member same
    · intro entry member
      rcases moves.owed _ _ (owns.events entry member) with owed | ⟨own, also, same⟩
      · exact owed
      · exact absurd same (apart.events own also entry member)
    · intro entry member queued
      rcases moves.queued _ queued with before' | ⟨own, also, same⟩
      · exact owns.unqueued entry member before'
      · exact apart.events own also entry member same
    · intro promise member
      rcases moves.promised promise.1 with more | ⟨own, also, same⟩
      · exact (owns.promises promise member).trans more
      · exact absurd same (apart.promises own also promise member)
    · exact fun event member => moves.completed event (owns.ready event member)
  · constructor
    · intro claim member second also same
      rcases moves.nextClaims claim member with ⟨own, mine, equal⟩ | free
      · exact apart.claims own mine second also (equal.trans same)
      · rw [same, owns.claims second also, claims_exclusive also] at free
        simp at free
    · intro entry member second also same
      rcases moves.nextEvents entry member with ⟨own, mine, equal⟩ | queued | fresh
      · exact apart.events own mine second also (equal.trans same)
      · rw [same] at queued
        exact owns.unqueued second also queued
      · have old := bound _ _ (owns.events second also)
        rw [same] at fresh
        exact absurd (lt_of_lt_of_le old fresh) (lt_irrefl _)
    · intro promise member second also same
      rcases moves.nextPromises promise member with ⟨own, mine, equal⟩ | none'
      · exact apart.promises own mine second also (equal.trans same)
      · have some' := owns.promises second also
        have positive := Operation.promise_pos also
        rw [same] at none'
        omega

theorem Moves.still (phase : later.phase = ghost.phase)
    (queued : ∀ event ∈ later.queued, event ∈ ghost.queued ∨
      ∃ entry ∈ before.events, entry.1 = event)
    (completed : ∀ event ∈ ghost.completed, event ∈ later.completed)
    (nextClaims : ∀ claim ∈ next.claims, ∃ second ∈ before.claims, second.1 = claim.1)
    (nextEvents : ∀ entry ∈ next.events, (∃ second ∈ before.events, second.1 = entry.1) ∨
      entry.1 ∈ ghost.queued ∨ recordings ≤ entry.1)
    (nextPromises : ∀ promise ∈ next.promises, ∃ second ∈ before.promises, second.1 = promise.1) :
    Moves ghost later before next recordings where
  claims id _ changed := absurd (by rw [phase]) changed
  owed id event member := .inl (by rwa [phase])
  promised id := .inl (by rw [phase])
  queued := queued
  completed := completed
  nextClaims claim member := .inl (nextClaims claim member)
  nextEvents := nextEvents
  nextPromises promise member := .inl (nextPromises promise member)

theorem Moves.set (block : BlockId) (phase : Phase)
    (claims : (ghost.phase block).exclusive = true → ∃ claim ∈ before.claims, claim.1 = block)
    (owed : ∀ event ∈ (ghost.phase block).owed, event ∈ phase.owed ∨
      ∃ entry ∈ before.events, entry.1 = event)
    (promised : (ghost.phase block).promised ≤ phase.promised ∨
      ∃ promise ∈ before.promises, promise.1 = block)
    (nextClaims : ∀ claim ∈ next.claims, (∃ second ∈ before.claims, second.1 = claim.1) ∨
      (ghost.phase claim.1).exclusive = false)
    (nextEvents : ∀ entry ∈ next.events, (∃ second ∈ before.events, second.1 = entry.1) ∨
      entry.1 ∈ ghost.queued ∨ recordings ≤ entry.1)
    (nextPromises : ∀ promise ∈ next.promises,
      (∃ second ∈ before.promises, second.1 = promise.1) ∨ (ghost.phase promise.1).promised = 0) :
    Moves ghost (ghost.set block phase) before next recordings := by
  constructor
  · intro id exclusive different
    by_cases same : id = block
    · rw [same] at exclusive ⊢
      exact claims exclusive
    · rw [ghost.phase_set_ne phase same] at different
      exact absurd rfl different
  · intro id event member
    by_cases same : id = block
    · subst same
      rw [Ghost.phase_set]
      exact owed event member
    · rw [ghost.phase_set_ne phase same]
      exact .inl member
  · intro id
    by_cases same : id = block
    · subst same
      rw [Ghost.phase_set]
      exact promised
    · rw [ghost.phase_set_ne phase same]
      exact .inl (le_refl _)
  · exact fun event member => .inl member
  · exact fun event member => member
  · exact nextClaims
  · exact nextEvents
  · exact nextPromises

end Owns

section World

variable {ghost : Ghost} {world : World}

theorem Sound.bound (sound : Sound ghost world) (id : BlockId) :
    ∀ event ∈ (ghost.phase id).owed, event < world.recordings := by
  intro event member
  cases phase : ghost.phase id <;> rw [phase] at member <;> simp only [Phase.owed,
    List.not_mem_nil] at member
  exact (sound.pending id _ _ phase).2.2 event member

variable {id : BlockId}

variable (sound : Sound ghost world)
include sound

variable {phase : Phase} {block : Block}

theorem Sound.found (at' : ghost.phase id = phase) (there : phase ≠ .absent) :
    ∃ block, world.heap.get? id = some block ∧ block.allocated = phase.allocated ∧
      block.eventCount = phase.count ∧
      ∀ event ∈ block.lastEvents, event ∈ world.completed ∨ event ∈ phase.owed := by
  have cell := sound.cell id (by rwa [at'])
  rwa [at'] at cell

theorem Sound.owes {event : Event} (owed : event ∈ (ghost.phase id).owed) : ∃ events promised block,
      ghost.phase id = .waiting events promised ∧ event ∈ events ∧
      world.heap.get? id = some block ∧ block.allocated = false ∧
      block.eventCount = events.length + promised := by
  cases phase : ghost.phase id <;> rw [phase] at owed <;> simp only [Phase.owed,
    List.not_mem_nil] at owed
  rename_i events promised
  obtain ⟨block, found, allocated, count, _⟩ := sound.found phase (by simp)
  exact ⟨events, promised, block, rfl, owed, found, allocated, count⟩

theorem Sound.promises (promised : 0 < (ghost.phase id).promised) : ∃ events count block,
      ghost.phase id = .waiting events count ∧ world.heap.get? id = some block ∧
      block.allocated = false ∧ block.eventCount = events.length + count ∧
      ∀ event ∈ block.lastEvents, event ∈ world.completed ∨ event ∈ events := by
  cases phase : ghost.phase id <;> rw [phase] at promised <;> simp only [Phase.promised,
    Nat.lt_irrefl] at promised
  rename_i events count
  obtain ⟨block, found, allocated, counted, last⟩ := sound.found phase (by simp)
  exact ⟨events, count, block, rfl, found, allocated, counted, last⟩

theorem Sound.requeue (events : List (Event × BlockId))
    (owed : ∀ entry ∈ events, entry.1 ∈ (ghost.phase entry.2).owed)
    (nodup : (events.map (·.1)).Nodup) :
    Sound { ghost with queued := events.map (·.1) } { world with supaEvents := events } :=
  { sound with queue := owed, queued := rfl, queueNodup := nodup }

theorem Sound.update {after : World}
    (phase : Phase) (changed : Block) (found : world.heap.get? id = some block)
    (heap : ∀ other, after.heap.get? other =
      if other = id then some changed else world.heap.get? other)
    (ptr : changed.ptr = block.ptr)
    (cell : changed.allocated = phase.allocated ∧ changed.eventCount = phase.count ∧
      ∀ event ∈ changed.lastEvents, event ∈ world.completed ∨ event ∈ phase.owed)
    (completed : after.completed = world.completed) (recordings : world.recordings ≤ after.recordings)
    (supaEvents : after.supaEvents = world.supaEvents)
    (table : ∀ entry ∈ after.ptrToBlock, entry ∈ world.ptrToBlock ∨ entry = (block.ptr, id))
    (blocks : ∀ other, other ∈ after.blocks ↔
      if other = id then phase.registered = true else other ∈ world.blocks)
    (cached : ∀ other, other ∈ after.freeList ↔
      if other = id then phase = .cached else other ∈ world.freeList)
    (live : ∀ other, other ∈ after.live ↔ if other = id then phase = .live else other ∈ world.live)
    (blocksNodup : after.blocks.Nodup) (freeNodup : after.freeList.Nodup)
    (liveNodup : after.live.Nodup)
    (pending : ∀ owed promised, phase = .waiting owed promised →
      0 < owed.length + promised ∧ owed.Nodup ∧ ∀ event ∈ owed, event < after.recordings)
    (queue : ∀ entry ∈ world.supaEvents, entry.2 = id → entry.1 ∈ phase.owed) :
    Sound (ghost.set id phase) after := by
  constructor
  · intro other there
    rw [heap]
    by_cases same : other = id
    · subst same
      rw [if_pos rfl]
      simp only [Ghost.phase_set] at there ⊢
      rw [completed]
      exact ⟨changed, rfl, cell.1, cell.2.1, cell.2.2⟩
    · rw [if_neg same]
      simp only [ghost.phase_set_ne phase same] at there ⊢
      rw [completed]
      exact sound.cell other there
  · intro other
    rw [blocks]
    by_cases same : other = id
    · subst same
      rw [if_pos rfl, Ghost.phase_set]
    · rw [if_neg same, ghost.phase_set_ne phase same, sound.blocks]
  · intro other
    rw [cached]
    by_cases same : other = id
    · subst same
      rw [if_pos rfl, Ghost.phase_set]
    · rw [if_neg same, ghost.phase_set_ne phase same, sound.cached]
  · intro other
    rw [live]
    by_cases same : other = id
    · subst same
      rw [if_pos rfl, Ghost.phase_set]
    · rw [if_neg same, ghost.phase_set_ne phase same, sound.live]
  · exact blocksNodup
  · exact freeNodup
  · exact liveNodup
  · intro other owed promised at'
    by_cases same : other = id
    · subst same
      simp only [Ghost.phase_set] at at'
      exact pending owed promised at'
    · simp only [ghost.phase_set_ne phase same] at at'
      obtain ⟨positive, nodup, old⟩ := sound.pending other owed promised at'
      exact ⟨positive, nodup, fun event member => lt_of_lt_of_le (old event member) recordings⟩
  · rw [supaEvents]
    intro entry member
    by_cases same : entry.2 = id
    · simp only [same, Ghost.phase_set]
      exact queue entry member same
    · simp only [ghost.phase_set_ne phase same]
      exact sound.queue entry member
  · rw [supaEvents]
    exact sound.queued
  · exact sound.queueNodup
  · rw [completed]
    exact sound.completed
  · intro first second one two foundOne foundTwo same
    have before : ∀ other self, after.heap.get? other = some self →
        ∃ old, world.heap.get? other = some old ∧ old.ptr = self.ptr := by
      intro other self there
      rw [heap] at there
      split at there
      · rename_i here
        rw [here]
        exact ⟨block, found, by rw [← Option.some.inj there, ptr]⟩
      · exact ⟨self, there, rfl⟩
    obtain ⟨oldOne, thereOne, ptrOne⟩ := before first one foundOne
    obtain ⟨oldTwo, thereTwo, ptrTwo⟩ := before second two foundTwo
    exact sound.pointers first second oldOne oldTwo thereOne thereTwo
      (ptrOne.trans (same.trans ptrTwo.symm))
  · intro entry member
    rw [heap]
    rcases table entry member with old | rfl
    rotate_left
    · rw [if_pos rfl]
      exact ⟨changed, rfl, ptr⟩
    obtain ⟨self, there, same⟩ := sound.table entry old
    by_cases here : entry.2 = id
    · rw [if_pos here]
      rw [here, found] at there
      exact ⟨changed, rfl, by rw [ptr, Option.some.inj there, same]⟩
    · rw [if_neg here]
      exact ⟨self, there, same⟩

theorem Sound.registered_iff
    (same : phase.registered = (ghost.phase id).registered) (other : BlockId) :
    other ∈ world.blocks ↔ if other = id then phase.registered = true else other ∈ world.blocks := by
  by_cases here : other = id
  · rw [if_pos here, here, same, sound.blocks]
  · rw [if_neg here]

theorem Sound.change (phase : Phase)
    (change : Block → Block) (recordings : Nat) (found : world.heap.get? id = some block)
    (ptr : (change block).ptr = block.ptr)
    (cell : (change block).allocated = phase.allocated ∧ (change block).eventCount = phase.count ∧
      ∀ event ∈ (change block).lastEvents, event ∈ world.completed ∨ event ∈ phase.owed)
    (before : ghost.phase id ≠ .cached ∧ ghost.phase id ≠ .live)
    (after : phase ≠ .cached ∧ phase ≠ .live)
    (registered : phase.registered = (ghost.phase id).registered)
    (more : world.recordings ≤ recordings)
    (pending : ∀ owed promised, phase = .waiting owed promised →
      0 < owed.length + promised ∧ owed.Nodup ∧ ∀ event ∈ owed, event < recordings)
    (queue : ∀ entry ∈ world.supaEvents, entry.2 = id → entry.1 ∈ phase.owed) :
    Sound (ghost.set id phase) { world with heap := world.heap.modify id change, recordings } := by
  have elsewhere : ∀ (list : List BlockId) (label : Phase),
      (∀ id, id ∈ list ↔ ghost.phase id = label) → ghost.phase id ≠ label → phase ≠ label →
      ∀ other, other ∈ list ↔ if other = id then phase = label else other ∈ list := by
    intro list label listed old new other
    by_cases same : other = id
    · rw [if_pos same, same, listed]
      exact iff_of_false old new
    · rw [if_neg same]
  refine sound.update phase (change block) found ?_ ptr cell rfl more rfl (fun _ => .inl)
    (sound.registered_iff registered) ?_ ?_ sound.blocksNodup sound.freeNodup sound.liveNodup pending
    queue
  · intro other
    rw [Store.get?_modify, found]
    rfl
  · exact elsewhere world.freeList .cached sound.cached before.1 after.1
  · exact elsewhere world.live .live sound.live before.2 after.2

theorem Sound.fresh : ghost.phase world.heap.fresh = .absent := by
  by_contra there
  obtain ⟨block, found, _⟩ := sound.cell _ there
  exact absurd (Store.lt_fresh found) (lt_irrefl _)

theorem Sound.create (block : Block)
    (distinct : ∀ id other, world.heap.get? id = some other → other.ptr ≠ block.ptr)
    (allocated : block.allocated = true) (count : block.eventCount = 0)
    (last : block.lastEvents = []) :
    Sound (ghost.set world.heap.fresh .creating) { world with heap := world.heap.push block } := by
  have old : ∀ id self, world.heap.get? id = some self → id ≠ world.heap.fresh :=
    fun id self found => Nat.ne_of_lt (Store.lt_fresh found)
  have elsewhere : ∀ label : Phase, label ≠ .absent → label ≠ .creating → ∀ id,
      ghost.phase id = label ↔ (ghost.set world.heap.fresh .creating).phase id = label := by
    intro label there notNew id
    by_cases same : id = world.heap.fresh
    · rw [same, Ghost.phase_set, sound.fresh]
      exact iff_of_false there.symm notNew.symm
    · rw [ghost.phase_set_ne _ same]
  refine { sound with
    cell := ?_
    blocks := ?_
    cached := ?_
    live := ?_
    pending := ?_
    queue := ?_
    pointers := ?_
    table := ?_ }
  · intro id there
    rw [Store.get?_push]
    by_cases same : id = world.heap.fresh
    · rw [if_pos same, same, Ghost.phase_set]
      exact ⟨block, rfl, allocated, count, by simp [last]⟩
    · rw [ghost.phase_set_ne _ same] at there ⊢
      rw [if_neg same]
      exact sound.cell id there
  · intro id
    rw [sound.blocks]
    by_cases same : id = world.heap.fresh
    · rw [same, Ghost.phase_set, sound.fresh]
      rfl
    · rw [ghost.phase_set_ne _ same]
  · exact fun id => (sound.cached id).trans (elsewhere .cached (by simp) (by simp) id)
  · exact fun id => (sound.live id).trans (elsewhere .live (by simp) (by simp) id)
  · intro id owed promised at'
    rw [← elsewhere _ (by simp) (by simp)] at at'
    exact sound.pending id owed promised at'
  · intro entry queued
    obtain ⟨_, _, _, at', member, _⟩ := sound.owes (sound.queue entry queued)
    rw [(elsewhere _ (by simp) (by simp) _).mp at']
    exact member
  · intro id other first second foundFirst foundSecond same
    rw [Store.get?_push] at foundFirst foundSecond
    split at foundFirst <;> split at foundSecond
    · rename_i one two
      rw [one, two]
    · rw [← Option.some.inj foundFirst] at same
      exact absurd same.symm (distinct other second foundSecond)
    · rw [← Option.some.inj foundSecond] at same
      exact absurd same (distinct id first foundFirst)
    · exact sound.pointers id other first second foundFirst foundSecond same
  · intro entry member
    obtain ⟨self, found, same⟩ := sound.table entry member
    refine ⟨self, ?_, same⟩
    rw [Store.get?_push, if_neg (old _ _ found)]
    exact found

theorem Sound.discard
    (phase : ghost.phase id = .releasing) (found : world.heap.get? id = some block)
    (releases : List Release) (locked : Bool) (heap : Store Block)
    (old : ∀ other, other ≠ id → heap.get? other = world.heap.get? other)
    (here : ∀ self, heap.get? id = some self → self = block) :
    Sound (ghost.set id .absent) { world with
      heap, releases, locked
      blocks := world.blocks.erase id
      ptrToBlock := world.ptrToBlock.filter (·.1 != block.ptr) } := by
  have elsewhere : ∀ label : Phase, label ≠ .absent → label ≠ .releasing → ∀ other,
      ghost.phase other = label ↔ (ghost.set id .absent).phase other = label := by
    intro label there notReleasing other
    by_cases same : other = id
    · rw [same, Ghost.phase_set, phase]
      exact iff_of_false notReleasing.symm there.symm
    · rw [ghost.phase_set_ne _ same]
  have before : ∀ other self, heap.get? other = some self → world.heap.get? other = some self := by
    intro other self there
    by_cases same : other = id
    · rw [same] at there ⊢
      rw [here self there, found]
    · rw [← old other same]
      exact there
  refine { sound with
    cell := ?_
    blocks := ?_
    cached := ?_
    live := ?_
    blocksNodup := sound.blocksNodup.erase id
    pending := ?_
    queue := ?_
    pointers := ?_
    table := ?_ }
  · intro other there
    by_cases same : other = id
    · rw [same, Ghost.phase_set] at there
      exact absurd rfl there
    · rw [ghost.phase_set_ne _ same] at there ⊢
      rw [old other same]
      exact sound.cell other there
  · intro other
    by_cases same : other = id
    · rw [same, Ghost.phase_set, sound.blocksNodup.mem_erase_iff]
      simp [Phase.registered]
    · rw [ghost.phase_set_ne _ same, List.mem_erase_of_ne same, sound.blocks]
  · exact fun other => (sound.cached other).trans (elsewhere .cached (by simp) (by simp) other)
  · exact fun other => (sound.live other).trans (elsewhere .live (by simp) (by simp) other)
  · intro other owed promised at'
    rw [← elsewhere _ (by simp) (by simp)] at at'
    exact sound.pending other owed promised at'
  · intro entry queued
    obtain ⟨_, _, _, at', member, _⟩ := sound.owes (sound.queue entry queued)
    rw [(elsewhere _ (by simp) (by simp) _).mp at']
    exact member
  · exact fun first second one two foundOne foundTwo =>
      sound.pointers first second one two (before first one foundOne) (before second two foundTwo)
  · intro entry member
    obtain ⟨listed, other⟩ := List.mem_filter.mp member
    obtain ⟨self, there, same⟩ := sound.table entry listed
    refine ⟨self, ?_, same⟩
    rw [old entry.2 ?_]
    · exact there
    · intro equal
      rw [equal, found] at there
      rw [Option.some.inj there, same] at other
      simp at other

theorem Sound.take : Sound { ghost with
      phase := fun id => if ghost.phase id = .cached then .releasing else ghost.phase id }
      { world with freeList := [], locked := true } := by
  have elsewhere : ∀ label : Phase, label ≠ .cached → label ≠ .releasing → ∀ id,
      ghost.phase id = label ↔
        (if ghost.phase id = .cached then Phase.releasing else ghost.phase id) = label := by
    intro label notCached notReleasing id
    split
    · rename_i cached
      rw [cached]
      exact iff_of_false notCached.symm notReleasing.symm
    · rfl
  refine { sound with
    cell := ?_
    blocks := ?_
    cached := ?_
    live := ?_
    freeNodup := List.nodup_nil
    pending := ?_
    queue := ?_ }
  · intro id there
    dsimp only at there ⊢
    split
    · rename_i cached
      have cell := sound.found cached (by simp)
      exact cell
    · rename_i other
      rw [if_neg other] at there
      exact sound.cell id there
  · intro id
    rw [sound.blocks]
    dsimp only
    split
    · rename_i cached
      rw [cached]
      rfl
    · rfl
  · intro id
    dsimp only
    split
    · simp
    · simp_all
  · exact fun id => (sound.live id).trans (elsewhere .live (by simp) (by simp) id)
  · intro id owed promised at'
    exact sound.pending id owed promised ((elsewhere _ (by simp) (by simp) id).mpr at')
  · intro entry queued
    obtain ⟨_, _, _, at', member, _⟩ := sound.owes (sound.queue entry queued)
    dsimp only
    rw [(elsewhere _ (by simp) (by simp) _).mp at']
    exact member

end World

end TorchSupa.Host
