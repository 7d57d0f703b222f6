import TorchSupa.Ipc.Ownership

/-!
What each call of the producer and each step of a consumer does to the slots and the owners.
-/

namespace TorchSupa.SentData

open Allocator Outcome Option

theorem SameObjects.refl (world : World) : SameObjects world world := ⟨rfl, rfl, rfl, rfl, rfl⟩

theorem SameObjects.since {first second third : World} (other : SameObjects second third)
    (one : SameObjects first second) : SameObjects first third :=
  ⟨other.sentData.trans one.sentData, other.storages.trans one.storages,
    other.limbo.trans one.limbo, other.allocations.trans one.allocations,
    other.returned.trans one.returned⟩

section Rules

variable {β : Type} {normal : β → World → Prop} {thrown : Exn → World → Prop} {world : World}

theorem bind_getFile {handle : ShmHandle} {file : SupaIPCRefCountersFile}
    {next : SupaIPCRefCountersFile → SharingM β} (found : world.files.get? handle = some file)
    (spec : wp (next file) normal thrown world) :
    wp (getFile handle >>= next) normal thrown world := by
  rw [wp_bind]
  refine bind_read ?_
  rw [found]
  exact spec

theorem bind_getSentData {sentData : SentDataId} {self : SupaIPCSentData}
    {next : SupaIPCSentData → SharingM β} (alive : Live world sentData self)
    (spec : wp (next self) normal thrown world) :
    wp (getSentData sentData >>= next) normal thrown world := by
  rw [wp_bind]
  refine bind_read (bind_given alive.1 ?_)
  rw [alive.2]
  exact spec

end Rules

section Calls

variable {world : World} {answers : Answers}

open SupaIPCRefCountersFile

theorem dropFile_spec (slots : Slots world) {handle : ShmHandle} {file : SupaIPCRefCountersFile}
    (listed : handle ∈ world.refCountersFiles) (found : world.files.get? handle = some file)
    (unused : file.offsetsInUse = false) (other : world.nextAvailable ≠ some handle) :
    wp (dropFile handle) (fun _ after => Slots after ∧ SameObjects world after)
      (fun _ _ => False) world := by
  unfold dropFile
  have none' : file.usedSlots = 0 := by simpa [offsetsInUse] using unused
  have dropped := slots.drop listed found none' other
  rw [wp_modify, if_neg other]
  exact ⟨dropped, rfl, rfl, rfl, rfl, rfl⟩

theorem safeCleanCurrentFile_spec (slots : Slots world) :
    wp safeCleanCurrentFile (fun _ after => Slots after ∧ SameObjects world after)
      (fun _ _ => False) world := by
  refine bind_read ?_
  cases next : world.nextAvailable with
  | none => exact ⟨slots, SameObjects.refl world⟩
  | some handle =>
    obtain ⟨listed, _⟩ := slots.next handle next
    obtain ⟨file, found, _⟩ := slots.registered handle listed
    refine bind_getFile found ?_
    cases unused : file.offsetsInUse with
    | true => exact ⟨slots, SameObjects.refl world⟩
    | false =>
      have without : Slots { world with nextAvailable := none } :=
        { slots with next := by rintro other ⟨⟩ }
      refine bind_write (wp_mono (dropFile_spec without listed found unused (by simp)) ?_
        fun _ _ never => never)
      rintro _ after ⟨later, same⟩
      exact ⟨later, same.since ⟨rfl, rfl, rfl, rfl, rfl⟩⟩

theorem destroySentData_spec (slots : Slots world) {sentData : SentDataId}
    {self : SupaIPCSentData} (alive : Live world sentData self) (released : self.released = true) :
    wp (destroySentData answers sentData)
      (fun tasks after => tasks = self.originalPtr.toList.map .release ∧ Slots after ∧
        SameObjects { world with
          sentData := world.sentData.modify sentData fun self => { self with destroyed := true } }
          after)
      (fun _ _ => False) world := by
  have destroyed := slots.destroy alive released
  obtain ⟨file, found, _⟩ := slots.live alive
  have listed := (slots.slot sentData self alive).1
  have here : (world.files.modify self.handle .returnOffset).get? self.handle =
      some file.returnOffset := Store.get?_modify_found found _
  refine bind_getSentData alive (bind_write ?_)
  refine wp_seq (fun _ after => Slots after ∧ SameObjects { world with
    sentData := world.sentData.modify sentData fun self => { self with destroyed := true } } after)
    ?_ ?_
  · unfold returnRefCounter
    refine bind_read ?_
    rw [if_pos (List.contains_iff_mem.mpr listed)]
    refine bind_write (bind_getFile here ?_)
    split
    · rename_i spent
      obtain ⟨unused, full⟩ : file.returnOffset.offsetsInUse = false ∧
          file.returnOffset.haveOffsets = false := by simpa using spent
      refine wp_mono (dropFile_spec destroyed listed here unused ?_) ?_ fun _ _ never => never
      · intro next
        have room := (destroyed.next self.handle next).2 _ here
        obtain ⟨_, there, registered⟩ := destroyed.registered self.handle listed
        rw [← mem_unique here there] at registered
        have below : file.returnOffset.haveOffsets = true := by
          simpa [haveOffsets, registered.size] using room
        rw [full] at below
        simp at below
      · rintro _ after ⟨later, same⟩
        exact ⟨later, same.since ⟨rfl, rfl, rfl, rfl, rfl⟩⟩
    · exact ⟨destroyed, rfl, rfl, rfl, rfl, rfl⟩
  · rintro _ after ⟨later, same⟩
    split
    · exact bind_write ⟨rfl, { later with }, { same with }⟩
    · exact ⟨rfl, later, same⟩

theorem ensureRefCountersFile_spec (slots : Slots world) : wp (ensureRefCountersFile answers)
      (fun _ after => Slots after ∧ SameObjects world after ∧
        ∃ handle, after.nextAvailable = some handle)
      (fun _ after => after = world) world := by
  refine bind_read ?_
  cases next : world.nextAvailable with
  | none =>
    refine bind_check (fun _ => ?_) fun _ => rfl
    exact ⟨slots.newFile, ⟨rfl, rfl, rfl, rfl, rfl⟩, _, rfl⟩
  | some handle => exact ⟨slots, SameObjects.refl world, handle, next⟩

theorem newSentData_spec (handle : ShmHandle) (offset : Nat) :
    wp (newSentData answers handle offset)
      (fun sentData after => sentData = world.sentData.fresh ∧ ∃ eventSyncRequired used,
        after = { world with
          syncEventsUsed := used
          sentData := world.sentData.push { handle, offset, eventSyncRequired } })
      (fun _ after => ∃ used, after = { world with syncEventsUsed := used }) world := by
  refine bind_read ?_
  dsimp only
  split
  · refine bind_write (bind_check (fun _ => bind_check (fun _ => ?_) fun _ => ⟨_, rfl⟩)
      fun _ => ⟨_, rfl⟩)
    exact bind_read (bind_write ⟨rfl, _, _, rfl⟩)
  · refine bind_check (fun _ => ?_) fun _ => ⟨_, rfl⟩
    exact bind_read (bind_write ⟨rfl, _, world.syncEventsUsed, rfl⟩)

theorem getNewRefCountedSentData_spec (slots : Slots world) : wp (getNewRefCountedSentData answers)
      (fun sentData after => sentData = world.sentData.fresh ∧ Slots after ∧
        ∃ handle offset eventSyncRequired, SameObjects { world with
          sentData := world.sentData.push { handle, offset, eventSyncRequired } } after)
      (fun _ after => Slots after ∧ SameObjects world after) world := by
  refine wp_seq _ (wp_mono (ensureRefCountersFile_spec slots) (fun _ _ ensured => ensured) ?_) ?_
  · rintro _ _ rfl
    exact ⟨slots, SameObjects.refl _⟩
  rintro _ ready ⟨slots, same, handle, next⟩
  obtain ⟨listed, _⟩ := slots.next handle next
  obtain ⟨file, found, registered⟩ := slots.registered handle listed
  have reset : Slots { ready with files := ready.files.modify handle (·.setCounter 1) } := by
    refine slots.updateFile (·.setCounter 1) (fun _ => rfl) (fun _ => rfl) (fun _ => rfl)
      (fun _ => rfl) ?_
    intro other offset below
    rw [setCounter_counters, Function.update_of_ne (Nat.ne_of_lt below)]
  have here : (ready.files.modify handle (·.setCounter 1)).get? handle =
      some (file.setCounter 1) := Store.get?_modify_found found _
  have one : (file.setCounter 1).counters (file.setCounter 1).nextOffset = 1 := by
    rw [setCounter_counters]
    exact Function.update_self _ _ _
  refine bind_read (bind_given next (bind_write (bind_getFile here ?_)))
  refine wp_seq _ (wp_mono (newSentData_spec _ _) (fun _ _ made => made) ?_) ?_
  · rintro _ _ ⟨used, rfl⟩
    exact ⟨{ reset with }, { same with }⟩
  rintro _ _ ⟨rfl, eventSyncRequired, used, rfl⟩
  have rotated : ((ready.files.modify handle (·.setCounter 1)).modify handle .rotateOffset).get?
      handle = some (file.setCounter 1).rotateOffset := Store.get?_modify_found here _
  have below : file.nextOffset < refCounterFileSize := (slots.next handle next).2 file found
  have sent := fun later left => reset.send next here one eventSyncRequired later left
  have named : (file.setCounter 1).handle = handle := registered.named
  have size : (file.setCounter 1).rotateOffset.size = refCounterFileSize := registered.size
  have after : (file.setCounter 1).rotateOffset.nextOffset = file.nextOffset + 1 :=
    increment_small below
  have fresh : ready.sentData.fresh = world.sentData.fresh := by rw [same.sentData]
  refine bind_write (bind_getFile rotated ?_)
  rw [named]
  cases room : (file.setCounter 1).rotateOffset.haveOffsets with
  | true =>
    have left : file.nextOffset + 1 < refCounterFileSize := by
      simpa [haveOffsets, size, after] using room
    refine ⟨fresh, ?_, handle, (file.setCounter 1).nextOffset, eventSyncRequired, ?_⟩
    · have kept := sent ready.nextAvailable fun other again =>
        ⟨(mem_unique next again).symm, left⟩
      exact { kept with }
    · exact ⟨by rw [same.sentData], same.storages, same.limbo, same.allocations, same.returned⟩
  | false =>
    refine bind_write ⟨fresh, ?_, handle, (file.setCounter 1).nextOffset, eventSyncRequired, ?_⟩
    · have kept := sent none (by rintro other ⟨⟩)
      exact { kept with }
    · exact ⟨by rw [same.sentData], same.storages, same.limbo, same.allocations, same.returned⟩

end Calls

def Sound (world : World) (stack : List Task) : Prop :=
  Slots world ∧ ∃ owner, Owned owner world stack

section Steps

variable {world : World} {stack rest : List Task} {answers : Answers}

theorem shareSupa_spec (sound : Sound world []) (storage : StorageId) :
    wp (shareSupa answers storage) (fun _ after => Sound after [])
      (fun exception after => exception.Fatal ∨ Sound after []) world := by
  obtain ⟨slots, owner, owned⟩ := sound
  refine bind_read (bind_demand (fun self found => ?_) fun _ => .inl trivial)
  refine bind_check (fun _ => ?_) fun _ => .inr ⟨slots, owner, owned⟩
  cases data : self.dataPtr with
  | none => exact ⟨slots, owner, owned⟩
  | some old =>
    refine bind_check (fun _ => ?_) fun _ => .inr ⟨slots, owner, owned⟩
    refine wp_seq _ (wp_mono (getNewRefCountedSentData_spec slots) (fun _ _ sent => sent) ?_) ?_
    · rintro _ after ⟨later, same⟩
      exact .inr ⟨later, owner, owned.same same⟩
    rintro _ ready ⟨rfl, slots, handle, offset, eventSyncRequired, same⟩
    have held := owned.storage storage self old found data
    have behind : World.allocationOf { ready with
        storages := ready.storages.modify storage fun self =>
          { self with dataPtr := some (.sentData world.sentData.fresh) } } old =
        world.allocationOf old := by
      cases old with
      | allocation id => rfl
      | sentData id =>
        obtain ⟨other, there, _⟩ := owned.alive id (by rw [held]; simp)
        unfold World.allocationOf
        dsimp only
        rw [same.sentData, Store.get?_push, if_neg (Nat.ne_of_lt (Store.lt_fresh there))]
    refine bind_write (?_ : wp _ _ _ _)
    rw [wp_bind]
    refine bind_read ?_
    rw [behind]
    obtain ⟨sent, same'⟩ : ∃ sent : SupaIPCSentData, sent =
        ⟨handle, offset, some old, eventSyncRequired, false, world.allocationOf old, false, false⟩ :=
      ⟨_, rfl⟩
    have made : ready.sentData.modify world.sentData.fresh (fun self =>
        { self with originalPtr := some old, allocation := world.allocationOf old }) =
        world.sentData.push sent := by
      rw [same.sentData, same']
      exact Store.modify_push_fresh _ _ _
    have kept : Slots { ready with
        storages := ready.storages.modify storage fun self =>
          { self with dataPtr := some (.sentData world.sentData.fresh) }
        sentData := ready.sentData.modify world.sentData.fresh fun self =>
          { self with originalPtr := some old, allocation := world.allocationOf old } } := by
      have updated := slots.updateSentData world.sentData.fresh
        (fun self => { self with originalPtr := some old, allocation := world.allocationOf old })
        (fun _ => rfl) (fun _ => rfl) (fun _ => rfl) (fun _ => rfl) fun _ => rfl
      exact { updated with }
    have original : sent.originalPtr = some old := by rw [same']
    have alive : sent.destroyed = false := by rw [same']
    have allocation : sent.allocation = world.allocationOf old := by rw [same']
    obtain ⟨later, shared⟩ := owned.share found data original alive allocation
    have objects : SameObjects { world with
        sentData := world.sentData.push sent
        storages := world.storages.modify storage fun self =>
          { self with dataPtr := some (.sentData world.sentData.fresh) } }
        { ready with
          storages := ready.storages.modify storage fun self =>
            { self with dataPtr := some (.sentData world.sentData.fresh) }
          sentData := ready.sentData.modify world.sentData.fresh fun self =>
            { self with originalPtr := some old, allocation := world.allocationOf old } } :=
      ⟨made, by rw [same.storages], same.limbo, same.allocations, same.returned⟩
    have holds : Sound { ready with
        storages := ready.storages.modify storage fun self =>
          { self with dataPtr := some (.sentData world.sentData.fresh) }
        sentData := ready.sentData.modify world.sentData.fresh fun self =>
          { self with originalPtr := some old, allocation := world.allocationOf old } } [] :=
      ⟨kept, later, shared.same objects⟩
    refine bind_write (bind_getSentData ⟨?_, alive⟩ ?_)
    · dsimp only
      rw [made, Store.get?_push, if_pos rfl]
    · split
      · unfold check
        split
        · exact holds
        · exact .inr holds
      · exact holds

variable {sentData : SentDataId} {self : SupaIPCSentData} {action : Action}

theorem Slots.isReleased (slots : Slots world)
    (alive : Live world sentData self) : isReleased world sentData = self.released := by
  obtain ⟨file, found, _, _, counter⟩ := slots.live alive
  unfold SentData.isReleased
  rw [alive.1, any_some, found, any_some, counter]
  cases self.released <;> rfl

theorem supaIPCSentDataDelete_spec (sound : Sound world (.release (.sentData sentData) :: rest)) :
    wp (supaIPCSentDataDelete sentData) (fun tasks after => Sound after (tasks ++ rest))
      (fun _ _ => False) world := by
  obtain ⟨slots, owner, owned⟩ := sound
  have held : owner (.sentData sentData) = .stack := owned.pending _ (by simp [Task.pointers])
  obtain ⟨self, alive⟩ := owned.alive sentData (by rw [held]; simp)
  obtain ⟨file, found, _, _, counter⟩ := slots.live alive
  refine bind_getSentData alive ?_
  rw [wp_bind]
  refine bind_getFile found ?_
  change wp (if file.counters self.offset > 0 then _ else _) _ _ _
  rw [counter]
  cases released : self.released with
  | false => exact bind_write ⟨{ slots with }, _, owned.toLimbo⟩
  | true =>
    refine ⟨slots, owner, owned.condemn fun other there => ?_⟩
    rw [← mem_unique alive.1 there]
    exact released

theorem collect_spec (sound : Sound world (.collect :: rest)) :
    wp SentData.collect (fun tasks after => Sound after (tasks ++ rest)) (fun _ _ => False)
      world := by
  obtain ⟨slots, owner, owned⟩ := sound
  obtain ⟨later, collected⟩ := owned.collect (SentData.isReleased world) (by
    intro sentData member zero self there
    obtain ⟨other, alive⟩ := owned.alive sentData (by rw [owned.limbo sentData member]; simp)
    rw [slots.isReleased alive] at zero
    rw [← mem_unique alive.1 there]
    exact zero)
  exact ⟨{ slots with }, later, collected⟩

theorem task_spec {task : Task} (sound : Sound world (task :: rest)) :
    wp (task.run answers) (fun tasks after => Sound after (tasks ++ rest)) (fun _ _ => False)
      world := by
  cases task with
  | release ptr =>
    cases ptr with
    | allocation id =>
      obtain ⟨slots, owner, owned⟩ := sound
      exact bind_write ⟨{ slots with }, _, owned.give slots⟩
    | sentData id => exact supaIPCSentDataDelete_spec sound
  | collect => exact collect_spec sound
  | destroy sentData =>
    obtain ⟨slots, owner, owned⟩ := sound
    have held : owner (.sentData sentData) = .stack := owned.pending _ (by simp [Task.pointers])
    obtain ⟨self, alive⟩ := owned.alive sentData (by rw [held]; simp)
    have released := owned.condemned sentData (.head _) self alive.1
    refine wp_mono (destroySentData_spec slots alive released) ?_ fun _ _ never => never
    rintro _ after ⟨rfl, later, same⟩
    obtain ⟨moved, destroyed⟩ := owned.destroy alive
    exact ⟨later, moved, destroyed.same same⟩
  | cleanCurrentFile =>
    obtain ⟨slots, owner, owned⟩ := sound
    have shorter : Owned owner world rest := by
      refine { owned with pending := ?_, pendingNodup := ?_, condemned := ?_ }
      · simpa [Task.pointers] using owned.pending
      · simpa [Task.pointers] using owned.pendingNodup
      · exact fun sentData member => owned.condemned sentData (.tail _ member)
    refine bind_read ?_
    split
    · refine wp_seq _ (safeCleanCurrentFile_spec slots) ?_
      rintro _ after ⟨later, same⟩
      exact ⟨later, owner, shorter.same same⟩
    · exact ⟨slots, owner, shorter⟩

theorem call_spec (sound : Sound world []) {program : SharingM (List Task)}
    (calls : action.call = some program) :
    wp program (fun tasks after => Sound after tasks)
      (fun exception after => exception.Fatal ∨ Sound after []) world := by
  cases action with
  | malloc =>
    cases calls
    obtain ⟨slots, owner, owned⟩ := sound
    exact bind_write ⟨{ slots with }, _, owned.malloc⟩
  | newSharedSupa =>
    cases calls
    obtain ⟨slots, owner, owned⟩ := sound
    exact bind_write ⟨{ slots with }, owner, owned.newSharedSupa⟩
  | shareSupa storage answers =>
    cases calls
    exact wp_seq _ (shareSupa_spec sound storage) fun _ _ shared => shared
  | deleteStorage storage =>
    cases calls
    obtain ⟨slots, owner, owned⟩ := sound
    refine bind_read (bind_demand (fun self found => ?_) fun _ => .inl trivial)
    exact bind_write ⟨{ slots with }, owned.deleteStorage found⟩
  | supaIPCCollect =>
    cases calls
    obtain ⟨slots, owner, owned⟩ := sound
    refine ⟨slots, owner, { owned with pending := ?_, pendingNodup := ?_, condemned := ?_ }⟩
    · simp [Task.pointers]
    · simp [Task.pointers]
    · simp
  | proceed answers => exact absurd calls (by simp [Action.call])
  | releaseIPCCounter sentData => exact absurd calls (by simp [Action.call])

theorem releaseIPCCounter_spec (sound : Sound world stack)
    (found : world.sentData.get? sentData = some self)
    (unreleased : self.released = false) :
    wp (releaseIPCCounter sentData) (fun _ after => Sound after stack) (fun _ _ => False) world := by
  obtain ⟨slots, owner, owned⟩ := sound
  have alive : Live world sentData self := by
    refine ⟨found, ?_⟩
    by_contra ended
    rw [slots.spent sentData self found (by simpa using ended)] at unreleased
    simp at unreleased
  obtain ⟨file, there, _, _, counter⟩ := slots.live alive
  refine bind_read (bind_given found (bind_read ?_))
  rw [there]
  have zero : decrement (file.counters self.offset) = 0 := by
    rw [counter, unreleased]
    rfl
  have later := owned.release sentData (fun other => { other with
    released := true
    reachedZero := other.reachedZero || decrement (file.counters other.offset) = 0 })
    (fun _ => rfl) (fun _ => rfl) (fun _ => rfl) fun _ => rfl
  refine bind_write ⟨?_, owner, { later with }⟩
  exact slots.release alive unreleased _ (fun _ => rfl) (fun _ => rfl) (fun _ => rfl) rfl
    (by simp [zero])

theorem Step.sound {process after : Process}
    (sound : Sound process.world process.stack) (taken : Step process action after) :
    Sound after.world after.stack := by
  cases taken with
  | call program tasks world idle calls result =>
    rw [idle] at sound
    have kept := wp_ok (call_spec sound calls) result
    exact kept
  | throws program exception world idle calls result survives =>
    rw [idle] at sound
    have kept := wp_error (call_spec sound calls) result
    exact kept.resolve_left survives
  | proceed answers task rest tasks world is top result =>
    rw [top] at sound
    have kept := wp_ok (task_spec sound) result
    exact kept
  | release sentData self world is found unreleased result =>
    have kept := wp_ok (releaseIPCCounter_spec sound found unreleased) result
    exact kept

end Steps

theorem sound_initial : Sound {} [] := by
  refine ⟨?_, fun _ => .nobody, ?_⟩
  · constructor <;> simp [Live]
  · constructor <;> simp [Live]

structure Consistent (world : World) : Prop where
  returned : ∀ id ∈ world.returned, ∀ sentData self, world.sentData.get? sentData = some self →
    self.allocation = some id → self.reachedZero = true
  apart : ∀ sentData other self second, Live world sentData self → Live world other second →
    self.handle = second.handle → self.offset = second.offset → sentData = other
  used : ∀ handle file, world.files.get? handle = some file →
    (file.usedSlots : Int) = liveOf world handle
  drops : ∀ count ∈ world.drops, count = 0

theorem sharing_consistent {process : Process} (reached : sharing.Reachable (fun _ _ => True) process) :
    Consistent process.world := by
  have sound : Sound process.world process.stack := by
    induction reached with
    | initial begins =>
      rw [begins]
      exact sound_initial
    | step _ _ taken sound => exact Step.sound sound taken
  obtain ⟨slots, owner, owned⟩ := sound
  constructor
  · intro id member sentData self found allocated
    exact slots.reached sentData self found
      ((owned.returned id member).2.2 sentData self found allocated)
  · exact slots.apart
  · intro handle file found
    obtain ⟨same, there, registered⟩ := slots.registered handle (slots.mapped handle file found)
    rw [mem_unique found there]
    exact registered.count
  · exact slots.drops

def advance (process : Process) (action : Action) : Option Process :=
  match action, process.stack with
  | .proceed answers, task :: rest =>
    match task.run answers process.world with
    | .ok tasks after => some ⟨after, tasks ++ rest⟩
    | .error _ _ => none
  | .releaseIPCCounter sentData, stack =>
    if (process.world.sentData.get? sentData).any fun self => !self.released then
      match releaseIPCCounter sentData process.world with
      | .ok _ after => some ⟨after, stack⟩
      | .error _ _ => none
    else none
  | action, [] => action.call.bind fun program =>
    match program process.world with
    | .ok tasks after => some ⟨after, tasks⟩
    | .error _ _ => none
  | _, _ => none

theorem step_of_advance (process : Process) (action : Action) (after : Process)
    (advances : advance process action = some after) : Step process action after := by
  unfold advance at advances
  split at advances
  · rename_i answers task rest top
    cases result : task.run answers process.world with
    | error exception world => simp [result] at advances
    | ok tasks world =>
      simp only [result, some.injEq] at advances
      subst advances
      exact .proceed answers task rest tasks world rfl top result
  · rename_i sentData
    split at advances
    · rename_i unreleased
      obtain ⟨self, found, same⟩ := (any_eq_true _ _).mp unreleased
      cases result : releaseIPCCounter sentData process.world with
      | error exception world => simp [result] at advances
      | ok value world =>
        simp only [result, some.injEq] at advances
        subst advances
        exact .release sentData self world rfl found (by simpa using same) result
    · simp at advances
  · rename_i idle
    obtain ⟨program, calls, advances⟩ := bind_eq_some_iff.mp advances
    cases result : program process.world with
    | error exception world => simp [result] at advances
    | ok tasks world =>
      simp only [result, some.injEq] at advances
      subst advances
      exact .call program tasks world idle calls result
  · simp at advances

def nestedActions : List Action :=
  [Action.malloc, .shareSupa 0 {}, .shareSupa 0 {}, .releaseIPCCounter 1, .deleteStorage 0] ++
    List.replicate 5 (Action.proceed {}) ++ [Action.releaseIPCCounter 0, .supaIPCCollect] ++
    List.replicate 4 (Action.proceed {})

def nestedProcess : Process :=
  (System.runs advance (fun _ _ => true) ⟨{}, []⟩ nestedActions).getD ⟨{}, []⟩

theorem sharing_consistent_nested :
    Consistent nestedProcess.world ∧ nestedProcess.world.returned = [0] ∧
      nestedProcess.stack = [] := by
  have start : sharing.Reachable (fun _ _ => True) ⟨{}, []⟩ := .initial rfl
  have ends : (System.runs advance (fun _ _ => true) ⟨{}, []⟩ nestedActions).isSome = true := by
    decide +kernel
  refine ⟨sharing_consistent ?_, by decide +kernel, by decide +kernel⟩
  exact start.ended step_of_advance (fun _ _ _ => trivial) ends _

end TorchSupa.SentData
