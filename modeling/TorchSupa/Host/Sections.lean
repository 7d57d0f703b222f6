import TorchSupa.Host.Sound

/-!
What each section does to the phases: one spec a section.
-/

namespace TorchSupa.Host

open Allocator Interleaving Outcome Function List

section Rules

variable {β : Type} {normal : β → World → Prop} {thrown : Exn → World → Prop} {world : World}

theorem bind_ensure {condition : Bool} {otherwise : Exn} {next : PUnit → HostM β}
    (holds : condition = true → wp (next ⟨⟩) normal thrown world)
    (fails : condition = false → thrown otherwise world) :
    wp (ensure condition otherwise >>= next) normal thrown world := by
  cases condition with
  | false => exact fails rfl
  | true => exact holds rfl

theorem bind_getBlock {block : BlockId} {self : Block} {next : Block → HostM β}
    (found : world.heap.get? block = some self) (spec : wp (next self) normal thrown world) :
    wp (getBlock block >>= next) normal thrown world := by
  rw [wp_bind]
  refine bind_read ?_
  rw [found]
  exact spec

end Rules

structure KeptWith (ghost later : Ghost) (place : Operation) (after : World) (next : Operation) :
    Prop where
  sound : Sound later after
  owns : Owns later next
  others : ∀ other, Owns ghost other → Apart place other → Owns later other ∧ Apart next other
  carried : ∀ id, later.phase id = .inserting → next.inserts = some id ∨
    ghost.phase id = .inserting ∧ place.inserts ≠ some id
  releasing : ∀ id, later.phase id = .releasing → ghost.phase id = .releasing ∨ place = .takeFreeList
  live : ∀ id, later.phase id = .live →
    ghost.phase id = .live ∨ ghost.phase id = .cached ∨ place = .insertNew id

def Kept (ghost : Ghost) (place : Operation) (after : World) (next : Operation) : Prop :=
  ∃ later, KeptWith ghost later place after next

def Ensures (ghost : Ghost) (place : Operation) (program : HostM Operation) (world : World) :
    Prop :=
  wp program (fun next after => Kept ghost place after next)
    (fun exception after => exception ≠ .internalAssert ∧
      (exception.Fatal ∨ Kept ghost place after .idle)) world

section Steps

variable {ghost later : Ghost} {place next : Operation} {world after : World}

theorem Kept.of (sound : Sound ghost world) (soundAfter : Sound later after)
    (owns : Owns later next) (moves : Moves ghost later place next world.recordings)
    (carried : ∀ id, later.phase id = .inserting → next.inserts = some id ∨
      ghost.phase id = .inserting ∧ place.inserts ≠ some id)
    (releasing : ∀ id, later.phase id = .releasing →
      ghost.phase id = .releasing ∨ place = .takeFreeList)
    (live : ∀ id, later.phase id = .live →
      ghost.phase id = .live ∨ ghost.phase id = .cached ∨ place = .insertNew id) :
    Kept ghost place after next :=
  ⟨later, soundAfter, owns, fun other owns' apart => moves.others sound.bound other owns' apart,
    carried, releasing, live⟩

open Kept

theorem Kept.set {block : BlockId} (phase : Phase) (sound : Sound ghost world)
    (soundAfter : Sound (ghost.set block phase) after) (owns : Owns (ghost.set block phase) next)
    (claims : (ghost.phase block).exclusive = true → ∃ claim ∈ place.claims, claim.1 = block)
    (owed : ∀ event ∈ (ghost.phase block).owed, event ∈ phase.owed ∨
      ∃ entry ∈ place.events, entry.1 = event)
    (promised : (ghost.phase block).promised ≤ phase.promised ∨
      ∃ promise ∈ place.promises, promise.1 = block)
    (nextClaims : ∀ claim ∈ next.claims,
      claim.1 = block ∨ ∃ second ∈ place.claims, second.1 = claim.1)
    (nextEvents : ∀ entry ∈ next.events, (∃ second ∈ place.events, second.1 = entry.1) ∨
      world.recordings ≤ entry.1)
    (nextPromises : ∀ promise ∈ next.promises, promise.1 = block ∧
      ((ghost.phase block).promised = 0 ∨ ∃ second ∈ place.promises, second.1 = block))
    (reached : phase ≠ .releasing ∧ (phase = .inserting → next.inserts = some block) ∧
      (phase = .live → ghost.phase block = .live ∨ ghost.phase block = .cached ∨
        place = .insertNew block))
    (inserted : ∀ id, place.inserts = some id → id = block) : Kept ghost place after next := by
  refine of sound soundAfter owns (Moves.set block phase claims owed promised ?_ ?_ ?_) ?_ ?_ ?_
  · intro claim member
    rcases nextClaims claim member with same | own
    · rw [same]
      cases exclusive : (ghost.phase block).exclusive with
      | true => exact .inl (claims exclusive)
      | false => exact .inr rfl
    · exact .inl own
  · exact fun entry member => (nextEvents entry member).imp_right .inr
  · intro promise member
    obtain ⟨same, none' | own⟩ := nextPromises promise member
    · rw [same]
      exact .inr none'
    · rw [same]
      exact .inl own
  · intro id at'
    by_cases same : id = block
    · rw [same, Ghost.phase_set] at at'
      rw [same]
      exact .inl (reached.2.1 at')
    · rw [ghost.phase_set_ne _ same] at at'
      exact .inr ⟨at', fun mine => same (inserted id mine)⟩
  · intro id at'
    by_cases same : id = block
    · rw [same, Ghost.phase_set] at at'
      exact absurd at' reached.1
    · rw [ghost.phase_set_ne _ same] at at'
      exact .inl at'
  · intro id at'
    by_cases same : id = block
    · rw [same, Ghost.phase_set] at at'
      rw [same]
      exact reached.2.2 at'
    · rw [ghost.phase_set_ne _ same] at at'
      exact .inl at'

theorem Kept.quiet (next : Operation) (sound : Sound ghost world) (owns : Owns ghost place)
    (inserts : place.inserts = none) (claims : next.claims = []) (promises : next.promises = [])
    (events : next.events = place.events ∨ next.events = [])
    (ready : ∀ event ∈ next.ready, event ∈ world.completed) (proper : next.proper) :
    Kept ghost place world next := by
  have ours : ∀ entry ∈ next.events, entry ∈ place.events := by
    intro entry member
    rcases events with same | none'
    · rwa [same] at member
    · rw [none'] at member
      simp at member
  refine of sound sound ?_ ?_ (fun id at' => .inr ⟨at', by simp [inserts]⟩)
    (fun id => .inl) fun id => .inl
  · constructor
    · simp [claims]
    · simp [claims]
    · exact fun entry member => owns.events entry (ours entry member)
    · rcases events with same | none'
      · rw [same]
        exact owns.eventsNodup
      · simp [none']
    · exact fun entry member => owns.unqueued entry (ours entry member)
    · simp [promises]
    · rw [sound.completed]
      exact ready
    · exact proper
  · refine Moves.still rfl (fun event member => .inl member) (fun _ member => member) (by simp [claims]) ?_ (by simp [promises])
    exact fun entry member => .inl ⟨entry, ours entry member, rfl⟩

theorem Kept.requeue (next : Operation) (sound : Sound ghost world) (owns : Owns ghost place)
    (inserts : place.inserts = none) (claims : next.claims = []) (promises : next.promises = [])
    (ready : next.ready = []) (proper : next.proper) (queue : List (Event × BlockId))
    (source : ∀ entry ∈ queue ++ next.events, entry ∈ world.supaEvents ∨ entry ∈ place.events)
    (nodup : ((queue ++ next.events).map (·.1)).Nodup) :
    Kept ghost place { world with supaEvents := queue } next := by
  have owed : ∀ entry ∈ queue ++ next.events, entry.1 ∈ (ghost.phase entry.2).owed := by
    intro entry member
    rcases source entry member with queued | held
    · exact sound.queue entry queued
    · exact owns.events entry held
  rw [map_append] at nodup
  have soundAfter := sound.requeue queue (fun entry member => owed entry (by simp [member]))
    nodup.of_append_left
  have origin : ∀ entry ∈ queue ++ next.events,
      (∃ second ∈ place.events, second.1 = entry.1) ∨ entry.1 ∈ ghost.queued := by
    intro entry member
    rcases source entry member with queued | held
    · right
      rw [← sound.queued]
      exact mem_map_of_mem queued
    · exact .inl ⟨entry, held, rfl⟩
  refine of sound soundAfter ?_ ?_ (fun id at' => .inr ⟨at', by simp [inserts]⟩)
    (fun id => .inl) fun id => .inl
  · constructor
    · simp [claims]
    · simp [claims]
    · exact fun entry member => owed entry (by simp [member])
    · exact nodup.of_append_right
    · intro entry member queued
      exact disjoint_of_nodup_append nodup queued (mem_map_of_mem member)
    · simp [promises]
    · simp [ready]
    · exact proper
  · refine Moves.still rfl ?_ (fun _ member => member) (by simp [claims]) ?_ (by simp [promises])
    · intro event member
      obtain ⟨entry, queued, same⟩ := mem_map.mp member
      rw [← same]
      exact (origin entry (by simp [queued])).symm
    · intro entry member
      exact (origin entry (by simp [member])).imp_right .inl

theorem Kept.push (next : Operation) (sound : Sound ghost world) (owns : Owns ghost place)
    (inserts : place.inserts = none) (claims : next.claims = []) (promises : next.promises = [])
    (ready : next.ready = []) (proper : next.proper) (events : next.events = []) {queue : List (Event × BlockId)}
    (perm : queue.Perm (place.events ++ world.supaEvents)) :
    Kept ghost place { world with supaEvents := queue } next := by
  refine requeue next sound owns inserts claims promises ready proper queue ?_ ?_
  · intro entry member
    rw [events, append_nil] at member
    exact (mem_append.mp (perm.mem_iff.mp member)).symm
  · rw [events, append_nil, (perm.map _).nodup_iff, map_append, sound.queued]
    refine Nodup.append owns.eventsNodup sound.queueNodup ?_
    intro event member queued
    obtain ⟨entry, held, rfl⟩ := mem_map.mp member
    exact owns.unqueued entry held queued

end Steps

section ProcessEvents

variable {ghost : Ghost} {world : World}

section

variable (caller : Caller)
include caller

@[simp] theorem Caller.claims_next : caller.next.claims = [] := by
  cases caller <;> rfl

@[simp] theorem Caller.events_next : caller.next.events = [] := by
  cases caller <;> rfl

theorem Caller.proper_next : caller.next.proper := by
  cases caller <;> trivial

@[simp] theorem Caller.ready_next : caller.next.ready = [] := by
  cases caller <;> rfl

@[simp] theorem Caller.promises_next : caller.next.promises = [] := by
  cases caller <;> rfl

end

variable (sound : Sound ghost world)
include sound

theorem countEvents_spec (size : Int) (caller : Caller)
    (owns : Owns ghost (.countEvents size caller)) :
    Ensures ghost (.countEvents size caller) (countEvents size caller) world :=
  Kept.quiet (.popEvent _) sound owns rfl rfl rfl (.inr rfl) (by simp [Operation.ready]) trivial

theorem popEvent_spec (loop : Loop) (owns : Owns ghost (.popEvent loop)) :
    Ensures ghost (.popEvent loop) (popEvent loop) world := by
  refine bind_read ?_
  cases last : world.supaEvents.getLast? with
  | none => exact Kept.quiet loop.caller.next sound owns rfl (by simp) (by simp) (.inr (by simp)) (by simp) loop.caller.proper_next
  | some entry =>
    obtain ⟨event, block⟩ := entry
    have whole : world.supaEvents.dropLast ++ [(event, block)] = world.supaEvents :=
      dropLast_append_getLast? _ last
    refine bind_write ?_
    refine Kept.requeue (.examineEvent loop event block) sound owns rfl rfl rfl rfl trivial
      world.supaEvents.dropLast ?_ ?_
    · intro entry member
      left
      rwa [← whole]
    · change ((world.supaEvents.dropLast ++ [(event, block)]).map (·.1)).Nodup
      rw [whole, sound.queued]
      exact sound.queueNodup

theorem examineEvent_spec (answers : Answers) (loop : Loop)
    (event : Event) (block : BlockId) (owns : Owns ghost (.examineEvent loop event block)) :
    Ensures ghost (.examineEvent loop event block) (examineEvent answers loop event block) world := by
  have stays : ∀ next : Operation, next.claims = [] → next.promises = [] →
      next.events = [(event, block)] → (∀ event ∈ next.ready, event ∈ world.completed) →
      next.proper → Kept ghost (.examineEvent loop event block) world next :=
    fun next claims promises events => Kept.quiet next sound owns rfl claims promises (.inl events)
  obtain ⟨_, _, self, _, _, found, _⟩ := sound.owes (owns.events (event, block) (by simp [Operation.events]))
  unfold Ensures examineEvent
  rw [wp_ite]
  split
  · exact stays (.pushFront loop event block true) rfl rfl rfl (by simp [Operation.ready]) trivial
  · refine bind_getBlock found ?_
    generalize (if loop.size ≠ -1 then { loop with eventCount := loop.eventCount + 1 } else loop) =
      counted
    rw [wp_ite]
    split
    · exact stays (.pushFront counted event block false) rfl rfl rfl (by simp [Operation.ready]) trivial
    · unfold queryEvent
      rw [bind_assoc]
      refine bind_ensure (fun _ => ?_) fun _ => ?_
      · refine bind_read ?_
        rw [wp_ite]
        split
        · rename_i complete
          exact stays (.countDown counted event block) rfl rfl rfl
            (by simpa [Operation.ready] using complete) trivial
        · rw [wp_ite]
          split
          · exact stays (.pushBack counted event block) rfl rfl rfl (by simp [Operation.ready]) trivial
          · exact stays (.pushFront counted event block false) rfl rfl rfl (by simp [Operation.ready]) trivial
      · exact ⟨by simp, .inr (Kept.quiet .idle sound owns rfl rfl rfl (.inr rfl) (by simp [Operation.ready]) trivial)⟩

theorem pushFront_spec (loop : Loop) (event : Event)
    (block : BlockId) (last : Bool) (owns : Owns ghost (.pushFront loop event block last)) :
    Ensures ghost (.pushFront loop event block last) (pushFront loop event block last) world := by
  refine bind_write ?_
  cases last with
  | true =>
    exact Kept.push loop.caller.next sound owns rfl (by simp) (by simp) (by simp)
      loop.caller.proper_next (by simp) (Perm.refl _)
  | false => exact Kept.push (.popEvent loop) sound owns rfl rfl rfl rfl trivial rfl (Perm.refl _)

theorem pushBack_spec (loop : Loop) (event : Event)
    (block : BlockId) (owns : Owns ghost (.pushBack loop event block)) :
    Ensures ghost (.pushBack loop event block) (pushBack loop event block) world := by
  refine bind_write ?_
  exact Kept.push loop.caller.next sound owns rfl (by simp) (by simp)
    (by simp) loop.caller.proper_next (by simp) perm_append_comm

theorem countDown_spec (loop : Loop) (event : Event)
    (block : BlockId) (owns : Owns ghost (.countDown loop event block)) :
    Ensures ghost (.countDown loop event block) (countDown loop block) world := by
  have member : (event, block) ∈ (Operation.countDown loop event block).events := by
    simp [Operation.events]
  obtain ⟨owed, promised, self, phase, owes, found, allocated, count⟩ :=
    sound.owes (owns.events _ member)
  have unqueued := owns.unqueued _ member
  obtain ⟨_, nodup, recorded⟩ := sound.pending block owed promised phase
  obtain ⟨_, found', _, _, last⟩ := sound.found phase (by simp)
  obtain rfl := Option.mem_unique found found'
  have length : (owed.erase event).length = owed.length - 1 := length_erase_of_mem owes
  have positive : 0 < owed.length := length_pos_of_mem owes
  have less : wrappingSub self.eventCount 1 = owed.length - 1 + promised := by
    rw [count]
    unfold wrappingSub
    split <;> omega
  have complete : event ∈ world.completed := by
    rw [← sound.completed]
    exact owns.ready event (by simp [Operation.ready])
  have others : ∀ entry ∈ world.supaEvents, entry.2 = block → entry.1 ∈ owed.erase event := by
    intro entry queued same
    have there := sound.queue entry queued
    rw [same, phase] at there
    refine (mem_erase_of_ne ?_).mpr there
    intro equal
    rw [← sound.queued, ← equal] at unqueued
    exact unqueued (mem_map.mpr ⟨entry, queued, rfl⟩)
  have seen : ∀ other ∈ self.lastEvents, other ∈ world.completed ∨ other ∈ owed.erase event := by
    intro other recent
    rcases last other recent with done | waits
    · exact .inl done
    · by_cases same : other = event
      · rw [same]
        exact .inl complete
      · exact .inr ((mem_erase_of_ne same).mpr waits)
  refine bind_getBlock found ?_
  refine bind_ensure (fun _ => ?_) fun fails => absurd fails (by simp [allocated])
  rw [less]
  refine bind_write ?_
  have ours : ∀ other ∈ owed, other ∈ owed.erase event ∨
      ∃ entry ∈ (Operation.countDown loop event block).events, entry.1 = other := by
    intro other waits
    by_cases same : other = event
    · exact .inr ⟨_, member, same.symm⟩
    · exact .inl ((mem_erase_of_ne same).mpr waits)
  by_cases zero : owed.length - 1 + promised = 0
  · have none' : owed.erase event = [] := length_eq_zero_iff.mp (by omega)
    rw [none'] at others seen ours
    rw [if_pos zero]
    have changed := sound.change .inserting
      (fun self => { self with eventCount := owed.length - 1 + promised }) world.recordings found
      rfl ⟨allocated, zero, seen⟩
      (by simp [phase]) (by simp) (by simp [phase, Phase.registered]) le_rfl (by simp) others
    refine Kept.set .inserting sound changed ?_ (by simp [phase, Phase.exclusive]) ?_ ?_ ?_ ?_ ?_
      ⟨by simp, fun _ => rfl, by simp⟩ (by simp [Operation.inserts])
    · constructor <;> simp [Operation.claims, Operation.events, Operation.promises, Operation.ready, Operation.proper]
    · rw [phase]
      exact ours
    · rw [phase]
      exact .inl (by simp [Phase.promised]; omega)
    · simp [Operation.claims]
    · simp [Operation.events]
    · simp [Operation.promises]
  · rw [if_neg zero]
    have changed := sound.change (.waiting (owed.erase event) promised)
      (fun self => { self with eventCount := owed.length - 1 + promised }) world.recordings found
      rfl ⟨allocated, by simp [Phase.count, length], seen⟩ (by simp [phase]) (by simp)
      (by simp [phase, Phase.registered]) le_rfl ?_ others
    · refine Kept.set _ sound changed (Owns.nothing rfl rfl rfl rfl trivial)
        (by simp [phase, Phase.exclusive]) ?_ ?_ ?_ ?_ ?_ (by simp) (by simp [Operation.inserts])
      · rw [phase]
        exact ours
      · rw [phase]
        exact .inl le_rfl
      · simp [Operation.claims]
      · simp [Operation.events]
      · simp [Operation.promises]
    · rintro _ _ ⟨⟩
      exact ⟨by omega, nodup.erase event, fun other waits => recorded other (mem_of_mem_erase waits)⟩

theorem Sound.keys {id other : BlockId}
    (here : ghost.phase id ≠ .absent) (there : ghost.phase other ≠ .absent)
    (same : world.key id = world.key other) : id = other := by
  obtain ⟨block, found, _⟩ := sound.cell id here
  obtain ⟨second, also, _⟩ := sound.cell other there
  simp only [World.key, found, also, Option.map_some, Option.getD_some, Prod.mk.injEq] at same
  exact sound.pointers id other block second found also same.2

theorem insertFreeList_spec {place next : Operation} {block : BlockId}
    (owns : Owns ghost place) (claims : place.claims = [(block, .inserting)])
    (inserts : place.inserts = some block) (nothing : next.claims = [] ∧ next.events = [] ∧
      next.promises = [] ∧ next.ready = [] ∧ next.proper) :
    Ensures ghost place (insertFreeList block next) world := by
  have phase : ghost.phase block = .inserting := owns.claims (block, .inserting) (by simp [claims])
  obtain ⟨self, found, cell⟩ := sound.found phase (by simp)
  have distinct : ∀ other ∈ world.freeList, world.key other ≠ world.key block := by
    intro other member same
    have cached := (sound.cached other).mp member
    have equal := sound.keys (by simp [cached]) (by simp [phase]) same
    rw [equal, phase] at cached
    simp at cached
  have perm := insertOrdered_perm distinct
  have absent : block ∉ world.freeList := by
    rw [sound.cached, phase]
    simp
  obtain ⟨noClaims, noEvents, noPromises, noReady, proper⟩ := nothing
  refine bind_write ?_
  refine Kept.set .cached sound (sound.update .cached self found ?_ rfl cell rfl le_rfl rfl
    (fun _ => .inl) (sound.registered_iff (by simp [phase, Phase.registered])) ?_ ?_
    sound.blocksNodup ?_ sound.liveNodup (by simp) ?_)
    (Owns.nothing noClaims noEvents noPromises noReady proper) ?_ ?_ ?_ ?_ ?_ ?_ (by simp) ?_
  · intro other
    split
    · rename_i same
      rw [same, found]
    · rfl
  · intro other
    rw [perm.mem_iff, mem_cons]
    by_cases same : other = block
    · simp [same]
    · simp [same]
  · intro other
    by_cases same : other = block
    · rw [if_pos same, same, sound.live, phase]
      simp
    · rw [if_neg same]
  · rw [perm.nodup_iff, nodup_cons]
    exact ⟨absent, sound.freeNodup⟩
  · intro entry queued same
    have owed := sound.queue entry queued
    rw [same, phase] at owed
    exact owed
  · exact fun _ => ⟨_, by rw [claims]; exact mem_singleton.mpr rfl, rfl⟩
  · simp [phase, Phase.owed]
  · simp [phase, Phase.promised]
  · simp [noClaims]
  · simp [noEvents]
  · simp [noPromises]
  · intro id mine
    rw [inserts] at mine
    exact (Option.some.inj mine).symm

end ProcessEvents

section Allocate

variable {ghost : Ghost} {world : World}

section

variable (sound : Sound ghost world)
include sound

theorem Sound.unqueued {id : BlockId} (settled : (ghost.phase id).owed = []) (phase : Phase) :
    ∀ entry ∈ world.supaEvents, entry.2 = id → entry.1 ∈ phase.owed := by
  intro entry queued same
  have owed := sound.queue entry queued
  rw [same, settled] at owed
  simp at owed

theorem allocateFromFreeList_spec (size : Nat) (owns : Owns ghost (.allocateFromFreeList size)) :
    Ensures ghost (.allocateFromFreeList size) (allocateFromFreeList size) world := by
  refine bind_read ?_
  cases found : world.lowerBound size with
  | none => exact Kept.quiet (.allocateNew size) sound owns rfl rfl rfl (.inr rfl) (by simp [Operation.ready]) trivial
  | some block =>
    have member : block ∈ world.freeList := mem_of_find?_eq_some found
    have phase := (sound.cached block).mp member
    obtain ⟨self, there, _, count, last⟩ := sound.found phase (by simp)
    refine bind_write (bind_write ?_)
    refine Kept.set .live sound (sound.update .live { self with allocated := true } there ?_ rfl
      ⟨rfl, count, last⟩ rfl le_rfl rfl (fun _ => .inl)
      (sound.registered_iff (by simp [phase, Phase.registered])) ?_ ?_ sound.blocksNodup
      (sound.freeNodup.erase block) ?_ (by simp) (sound.unqueued (by simp [phase, Phase.owed]) _))
      (Owns.nothing rfl rfl rfl rfl trivial) ?_ ?_ ?_ ?_ ?_ ?_ (by simp [phase])
      (by simp [Operation.inserts])
    · intro other
      rw [Store.get?_modify, there]
      rfl
    · intro other
      by_cases same : other = block
      · rw [if_pos same, same]
        simp [sound.freeNodup.mem_erase_iff]
      · rw [if_neg same, mem_erase_of_ne same]
    · intro other
      by_cases same : other = block
      · simp [same]
      · simp [same]
    · refine nodup_cons.mpr ⟨?_, sound.liveNodup⟩
      rw [sound.live, phase]
      simp
    · simp [phase, Phase.exclusive]
    · simp [phase, Phase.owed]
    · simp [phase, Phase.promised]
    · simp [Operation.claims]
    · simp [Operation.events]
    · simp [Operation.promises]

theorem insertNew_spec (block : BlockId) (owns : Owns ghost (.insertNew block)) :
    Ensures ghost (.insertNew block) (insertNew block) world := by
  have phase : ghost.phase block = .creating :=
    owns.claims (block, .creating) (by simp [Operation.claims])
  obtain ⟨self, found, cell⟩ := sound.found phase (by simp)
  refine bind_getBlock found (bind_write ?_)
  refine Kept.set .live sound (sound.update .live self found ?_ rfl cell rfl le_rfl rfl ?_ ?_ ?_ ?_ ?_
    sound.freeNodup ?_ (by simp) (sound.unqueued (by simp [phase, Phase.owed]) _))
    (Owns.nothing rfl rfl rfl rfl trivial) ?_ ?_ ?_ ?_ ?_ ?_ (by simp) (by simp [Operation.inserts])
  · intro other
    by_cases same : other = block
    · rw [if_pos same, same, found]
    · rw [if_neg same]
  · intro entry member
    split at member
    · exact .inl member
    · exact (mem_cons.mp member).symm
  · intro other
    by_cases same : other = block
    · simp [same, Phase.registered]
    · simp [same]
  · intro other
    by_cases same : other = block
    · rw [if_pos same, same, sound.cached, phase]
      simp
    · rw [if_neg same]
  · intro other
    by_cases same : other = block
    · simp [same]
    · simp [same]
  · refine nodup_cons.mpr ⟨?_, sound.blocksNodup⟩
    rw [sound.blocks, phase]
    simp [Phase.registered]
  · refine nodup_cons.mpr ⟨?_, sound.liveNodup⟩
    rw [sound.live, phase]
    simp
  · exact fun _ => ⟨(block, .creating), by simp [Operation.claims], rfl⟩
  · simp [phase, Phase.owed]
  · simp [phase, Phase.promised]
  · simp [Operation.claims]
  · simp [Operation.events]
  · simp [Operation.promises]

theorem Kept.create (answers : Answers) (fresh : answers.Fresh world)
    (size ptr : Nat) (setting : Bool) (madeWith : Api) (handed : answers.pointer = some ptr) (request : Nat) :
    Kept ghost (.allocateNew request) { world with
      heap := world.heap.push { size, ptr, allocated := true, setting, madeWith } }
      (.insertNew world.heap.fresh) := by
  have created := sound.create { size, ptr, allocated := true, setting, madeWith }
    (fun id other found => fresh ptr id other handed found) rfl rfl rfl
  refine set .creating sound created ?_ (by simp [sound.fresh, Phase.exclusive])
    (by simp [sound.fresh, Phase.owed]) (by simp [sound.fresh, Phase.promised]) ?_ ?_ ?_ (by simp)
    (by simp [Operation.inserts])
  · constructor <;> simp [Operation.claims, Operation.events, Operation.promises, Operation.ready, Operation.proper]
  · simp [Operation.claims]
  · simp [Operation.events]
  · simp [Operation.promises]

end

theorem allocatePinned_spec (answers : Answers) (setting : Bool) (world : World) :
    wp (allocatePinned answers setting)
      (fun made after => after = world ∧ answers.pointer = some made.1 ∧ made.2 = apiOf setting)
      (fun exception after => after = world ∧ exception ≠ .internalAssert) world := by
  unfold allocatePinned
  cases setting with
  | true =>
    unfold allocWithSupaHostRegister
    cases pointer : answers.pointer with
    | none => exact ⟨rfl, by simp⟩
    | some ptr =>
      unfold registerPages
      simp only [↓reduceIte, bind_assoc]
      refine bind_ensure (fun _ => ?_) fun _ => ⟨rfl, by simp⟩
      cases answers.hostGetDevicePointer with
      | none => exact ⟨rfl, by simp⟩
      | some devptr => exact bind_ensure (fun _ => ⟨rfl, rfl, rfl⟩) fun _ => ⟨rfl, by simp⟩
  | false =>
    unfold supaHostAlloc
    cases pointer : answers.pointer with
    | none => exact ⟨rfl, by simp⟩
    | some ptr => exact ⟨rfl, rfl, rfl⟩

theorem allocateNew_spec (sound : Sound ghost world) (answers : Answers)
    (fresh : answers.Fresh world) (size : Nat) (owns : Owns ghost (.allocateNew size)) :
    Ensures ghost (.allocateNew size) (allocateNew answers size) world := by
  have stops : Kept ghost (.allocateNew size) world .idle :=
    Kept.quiet .idle sound owns rfl rfl rfl (.inr rfl) (by simp [Operation.ready]) trivial
  refine bind_read (wp_seq _ (wp_mono (allocatePinned_spec answers _ world) (fun _ _ made => made) ?_) ?_)
  · rintro exception after ⟨rfl, asserted⟩
    exact ⟨asserted, .inr stops⟩
  · rintro ⟨ptr, madeWith⟩ after ⟨rfl, pointer, _⟩
    exact Kept.create sound answers fresh (powerOf2Ceil size) ptr _ madeWith pointer size

end Allocate

section Free

variable {ghost : Ghost} {world : World}

variable (sound : Sound ghost world)
include sound

theorem freeBlock_spec (block : BlockId) (owns : Owns ghost (.freeBlock block)) :
    Ensures ghost (.freeBlock block) (freeBlock block) world := by
  have phase : ghost.phase block = .freeing :=
    owns.claims (block, .freeing) (by simp [Operation.claims])
  obtain ⟨self, found, _, count, _⟩ := sound.found phase (by simp)
  have claimed : ∃ claim ∈ (Operation.freeBlock block).claims, claim.1 = block :=
    ⟨(block, .freeing), by simp [Operation.claims], rfl⟩
  have freed : (world.heap.modify block fun self =>
      { self with allocated := false, lastEvents := [] }).get? block =
      some { self with allocated := false, lastEvents := [] } := Store.get?_modify_found found _
  refine bind_write (bind_getBlock freed ?_)
  rw [wp_ite]
  split
  · refine bind_ensure (fun _ => ?_) fun fails => ?_
    · have changed := sound.change .inserting
        (fun self => { self with allocated := false, lastEvents := [] }) world.recordings found rfl
        ⟨rfl, count, by simp⟩ (by simp [phase]) (by simp) (by simp [phase, Phase.registered]) le_rfl
        (by simp) (sound.unqueued (by simp [phase, Phase.owed]) _)
      refine Kept.set .inserting sound changed ?_ (fun _ => claimed) (by simp [phase, Phase.owed])
        (by simp [phase, Phase.promised]) ?_ ?_ ?_ ⟨by simp, fun _ => rfl, by simp⟩ (by simp [Operation.inserts])
      · constructor <;> simp [Operation.claims, Operation.events, Operation.promises, Operation.ready, Operation.proper]
      · simp [Operation.claims]
      · simp [Operation.events]
      · simp [Operation.promises]
    · rw [count] at fails
      exact absurd fails (by simp [Phase.count])
  · rename_i some'
    refine bind_write ?_
    rw [Store.modify_modify]
    have streams : 0 < self.streams.length := by
      rw [length_pos_iff]
      simpa using some'
    have changed := sound.change (.waiting [] self.streams.length)
      ((fun self => { self with eventCount := self.eventCount + self.streams.length, streams := [] }) ∘
        fun self => { self with allocated := false, lastEvents := [] }) world.recordings found rfl
      ⟨rfl, by simp [count, Phase.count], by simp⟩ (by simp [phase]) (by simp)
      (by simp [phase, Phase.registered]) le_rfl ?_ (sound.unqueued (by simp [phase, Phase.owed]) _)
    · refine Kept.set _ sound changed ?_ (fun _ => claimed) (by simp [phase, Phase.owed])
        (by simp [phase, Phase.promised]) ?_ ?_ ?_ (by simp) (by simp [Operation.inserts])
      · constructor
        · simp [Operation.claims]
        · simp [Operation.claims]
        · simp [Operation.events]
        · simp [Operation.events]
        · simp [Operation.events]
        · intro promise member
          cases list : self.streams with
          | nil => simp [list] at streams
          | cons stream rest =>
            simp only [list, Operation.promises, mem_singleton] at member
            simp [member, Phase.promised]
        · simp [Operation.ready]
        · exact .inl (length_pos_iff.mp streams)
      · simp [Operation.claims]
      · simp [Operation.events]
      · intro promise member
        refine ⟨?_, .inl (by simp [phase, Phase.promised])⟩
        cases list : self.streams with
        | nil => simp [list] at streams
        | cons stream rest =>
          simp only [list, Operation.promises, mem_singleton] at member
          rw [member]
    · rintro _ _ ⟨⟩
      simpa using streams

theorem recordStreams_spec (answers : Answers) (block : BlockId)
    (streams : List Stream) (events : List Event)
    (owns : Owns ghost (.recordStreams block streams events)) :
    Ensures ghost (.recordStreams block streams events)
      (recordStreams answers block streams events) world := by
  cases streams with
  | nil =>
    exact Kept.quiet (.publishEvents block events) sound owns rfl rfl rfl (.inl rfl)
      (by simp [Operation.ready]) (owns.proper.resolve_left (by simp))
  | cons stream rest =>
    have mine : (block, rest.length + 1) ∈
        (Operation.recordStreams block (stream :: rest) events).promises := by
      simp [Operation.promises]
    have promise := owns.promises _ mine
    obtain ⟨owed, promised, self, phase, found, allocated, count, last⟩ :=
      sound.promises (lt_of_lt_of_le (Nat.succ_pos _) promise)
    rw [phase] at promise
    simp only [Phase.promised] at promise
    obtain ⟨_, nodup, recorded⟩ := sound.pending block owed promised phase
    have new : world.recordings ∉ owed := fun member => lt_irrefl _ (recorded _ member)
    have held : ∀ event ∈ events, event ∈ owed := by
      intro event member
      have owes := owns.events (event, block) (mem_map.mpr ⟨event, member, rfl⟩)
      rwa [phase] at owes
    have distinct : events.Nodup := by
      have keys := owns.eventsNodup
      simpa [Operation.events, map_map, comp_def] using keys
    refine bind_ensure (fun _ => ?_) fun _ => ?_
    · refine bind_read (bind_write (bind_write ?_))
      have changed := sound.change (.waiting (owed ++ [world.recordings]) (promised - 1))
        (fun self => { self with lastEvents := world.recordings :: self.lastEvents })
        (world.recordings + 1) found rfl ⟨allocated, ?_, ?_⟩ (by simp [phase]) (by simp)
        (by simp [phase, Phase.registered]) (Nat.le_succ _) ?_ ?_
      · refine Kept.set _ sound changed ?_ (by simp [phase, Phase.exclusive]) ?_
          (.inr ⟨_, mine, rfl⟩) ?_ ?_ ?_ (by simp) (by simp [Operation.inserts])
        · constructor
          · simp [Operation.claims]
          · simp [Operation.claims]
          · intro entry member
            obtain ⟨event, listed, rfl⟩ := mem_map.mp member
            simp only [Ghost.phase_set, Phase.owed, mem_append, mem_singleton]
            rcases mem_append.mp listed with old | fresh
            · exact .inl (held event old)
            · exact .inr (mem_singleton.mp fresh)
          · simp only [Operation.events, map_map, comp_def, map_id']
            refine Nodup.append distinct (nodup_singleton _) ?_
            intro event old fresh
            rw [mem_singleton.mp fresh] at old
            exact new (held _ old)
          · intro entry member queued
            obtain ⟨event, listed, rfl⟩ := mem_map.mp member
            rcases mem_append.mp listed with old | fresh
            · exact owns.unqueued (event, block) (mem_map.mpr ⟨event, old, rfl⟩) queued
            · rw [Ghost.queued_set, ← sound.queued, mem_singleton.mp fresh] at queued
              obtain ⟨second, there, same⟩ := mem_map.mp queued
              have bound := sound.bound _ _ (sound.queue second there)
              rw [same] at bound
              exact lt_irrefl _ bound
          · intro second member
            cases rest with
            | nil => simp [Operation.promises] at member
            | cons next rest =>
              simp only [Operation.promises, mem_singleton] at member
              simp only [length_cons] at promise
              simp only [member, Ghost.phase_set, Phase.promised]
              omega
          · simp [Operation.ready]
          · exact .inr (by simp)
        · rw [phase]
          exact fun event member => .inl (mem_append_left _ member)
        · simp [Operation.claims]
        · intro entry member
          obtain ⟨event, listed, rfl⟩ := mem_map.mp member
          rcases mem_append.mp listed with old | fresh
          · exact .inl ⟨(event, block), mem_map.mpr ⟨event, old, rfl⟩, rfl⟩
          · exact .inr (le_of_eq (mem_singleton.mp fresh).symm)
        · intro second member
          refine ⟨?_, .inr ⟨_, mine, rfl⟩⟩
          cases rest with
          | nil => simp [Operation.promises] at member
          | cons next rest =>
            simp only [Operation.promises, mem_singleton] at member
            rw [member]
      · simp only [Phase.count, length_append, length_singleton]
        rw [count]
        omega
      · intro event recent
        simp only [Phase.owed, mem_append, mem_singleton]
        rcases mem_cons.mp recent with fresh | old
        · exact .inr (.inr fresh)
        · exact (last event old).imp_right .inl
      · rintro _ _ ⟨⟩
        refine ⟨by simp, Nodup.append nodup (nodup_singleton _) ?_, ?_⟩
        · intro event old fresh
          rw [mem_singleton.mp fresh] at old
          exact new old
        · intro event member
          rcases mem_append.mp member with old | fresh
          · exact (recorded event old).trans (Nat.lt_succ_self _)
          · rw [mem_singleton.mp fresh]
            exact Nat.lt_succ_self _
      · intro entry queued same
        have owes := sound.queue entry queued
        rw [same, phase] at owes
        exact mem_append_left _ owes
    · exact ⟨by simp, .inr (Kept.quiet .idle sound owns rfl rfl rfl (.inr rfl) (by simp [Operation.ready]) trivial)⟩

theorem publishEvents_spec (block : BlockId) (events : List Event)
    (owns : Owns ghost (.publishEvents block events)) :
    Ensures ghost (.publishEvents block events) (publishEvents block events) world := by
  have perm : ∀ (list : List Event) (queue : List (Event × BlockId)),
      (list.foldl (fun queue event => (event, block) :: queue) queue).Perm
        (list.map (fun event => (event, block)) ++ queue) := by
    intro list
    induction list with
    | nil => exact fun queue => Perm.refl queue
    | cons event rest ih =>
      intro queue
      exact (ih ((event, block) :: queue)).trans perm_middle
  refine bind_write ?_
  exact Kept.push .idle sound owns rfl rfl rfl rfl trivial rfl (perm events world.supaEvents)

end Free

section EmptyCache

variable {ghost : Ghost} {world : World}

theorem takeFreeList_spec (sound : Sound ghost world) :
    Ensures ghost .takeFreeList takeFreeList world := by
  refine bind_read (bind_write ?_)
  refine Kept.of sound sound.take ?_ ?_ ?_ (fun id _ => .inr rfl) ?_
  · constructor
    · intro claim member
      obtain ⟨block, listed, rfl⟩ := mem_map.mp member
      exact if_pos ((sound.cached block).mp listed)
    · simp only [Operation.claims, map_map, comp_def, map_id']
      exact sound.freeNodup
    · simp [Operation.events]
    · simp [Operation.events]
    · simp [Operation.events]
    · simp [Operation.promises]
    · simp [Operation.ready]
    · trivial
  · constructor
    · intro id exclusive changed
      dsimp only at changed
      split at changed
      · rename_i cached
        rw [cached] at exclusive
        exact absurd exclusive (by simp [Phase.exclusive])
      · exact absurd rfl changed
    · intro id event member
      left
      dsimp only
      split
      · rename_i cached
        rw [cached] at member
        exact absurd member (by simp [Phase.owed])
      · exact member
    · intro id
      left
      dsimp only
      split
      · rename_i cached
        simp [cached, Phase.promised]
      · exact le_rfl
    · exact fun event member => .inl member
    · exact fun event member => member
    · intro claim member
      obtain ⟨block, listed, rfl⟩ := mem_map.mp member
      right
      rw [(sound.cached block).mp listed]
      rfl
    · simp [Operation.events]
    · simp [Operation.promises]
  · intro id at'
    dsimp only at at'
    split at at'
    · simp at at'
    · exact .inr ⟨at', by simp [Operation.inserts]⟩
  · intro id at'
    dsimp only at at'
    split at at'
    · simp at at'
    · exact .inl at'

theorem releaseBlocks_spec (sound : Sound ghost world) (answers : Answers) (blocks : List BlockId)
    (owns : Owns ghost (.releaseBlocks blocks)) :
    Ensures ghost (.releaseBlocks blocks) (releaseBlocks answers blocks) world := by
  cases blocks with
  | nil =>
    have unlocked : Sound ghost { world with locked := false } := { sound with }
    have kept := Kept.quiet .idle unlocked owns rfl rfl rfl (.inr rfl)
      (by simp [Operation.ready]) trivial
    exact kept
  | cons block rest =>
    have claimed : ∃ claim ∈ (Operation.releaseBlocks (block :: rest)).claims, claim.1 = block :=
      ⟨(block, .releasing), by simp [Operation.claims], rfl⟩
    have phase : ghost.phase block = .releasing :=
      owns.claims (block, .releasing) (by simp [Operation.claims])
    have nodup : (block :: rest).Nodup := by
      have keys := owns.claimsNodup
      simpa [Operation.claims, map_map, comp_def] using keys
    obtain ⟨self, found, _⟩ := sound.found phase (by simp)
    have settled : (ghost.phase block).owed = [] ∧ (ghost.phase block).promised = 0 := by
      simp [phase, Phase.owed, Phase.promised]
    refine bind_getBlock found (bind_write (bind_read (bind_write ?_)))
    generalize (if world.pinnedUseSupaHostRegister then Api.hostRegister else Api.hostAlloc) = api
    cases answers.released api with
    | true =>
      refine bind_write ?_
      refine Kept.set .absent sound (sound.discard phase found _ world.locked
        (world.heap.erase block) ?_ ?_) ?_ (fun _ => claimed) (by simp [settled])
        (by simp [settled]) ?_ (by simp [Operation.events]) (by simp [Operation.promises])
        (by simp) (by simp [Operation.inserts])
      · intro other different
        rw [Store.get?_erase, if_neg different]
      · intro self' there
        rw [Store.get?_erase, if_pos rfl] at there
        simp at there
      · constructor
        · intro claim member
          obtain ⟨other, listed, rfl⟩ := mem_map.mp member
          have different : other ≠ block := by
            intro same
            rw [same] at listed
            exact (nodup_cons.mp nodup).1 listed
          rw [ghost.phase_set_ne _ different]
          exact owns.claims (other, .releasing) (by simp [Operation.claims, listed])
        · simp only [Operation.claims, map_map, comp_def, map_id']
          exact (nodup_cons.mp nodup).2
        · simp [Operation.events]
        · simp [Operation.events]
        · simp [Operation.events]
        · simp [Operation.promises]
        · simp [Operation.ready]
        · trivial
      · intro claim member
        obtain ⟨other, listed, rfl⟩ := mem_map.mp member
        exact .inr ⟨(other, .releasing), by simp [Operation.claims, listed], rfl⟩
    | false =>
      refine bind_write ?_
      refine ⟨by simp, .inr ?_⟩
      refine Kept.set .absent sound (sound.discard phase found _ false world.heap
        (fun _ _ => rfl) ?_) (Owns.nothing rfl rfl rfl rfl trivial) (fun _ => claimed) (by simp [settled])
        (by simp [settled]) (by simp [Operation.claims]) (by simp [Operation.events])
        (by simp [Operation.promises]) (by simp) (by simp [Operation.inserts])
      intro self' there
      exact Option.mem_unique there found

end EmptyCache

end TorchSupa.Host
