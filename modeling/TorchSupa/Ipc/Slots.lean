import TorchSupa.Ipc.SentData

/-!
The counter files: every sent data that is alive has a slot of its own, and a file counts the
slots that are in use.
-/

namespace TorchSupa.SentData

open Allocator Outcome Nat

def Live (world : World) (sentData : SentDataId) (self : SupaIPCSentData) : Prop :=
  world.sentData.get? sentData = some self ∧ self.destroyed = false

structure Registered (live : Int) (handle : ShmHandle) (file : SupaIPCRefCountersFile) :
    Prop where
  named : file.handle = handle
  size : file.size = refCounterFileSize
  bound : file.nextOffset ≤ refCounterFileSize
  used : file.usedSlots ≤ file.nextOffset
  count : (file.usedSlots : Int) = live

structure Slots (world : World) : Prop where
  nodup : world.refCountersFiles.Nodup
  registered : ∀ handle ∈ world.refCountersFiles, ∃ file,
    world.files.get? handle = some file ∧ Registered (liveOf world handle) handle file
  mapped : ∀ handle file, world.files.get? handle = some file → handle ∈ world.refCountersFiles
  next : ∀ handle, world.nextAvailable = some handle → handle ∈ world.refCountersFiles ∧
    ∀ file, world.files.get? handle = some file → file.nextOffset < refCounterFileSize
  slot : ∀ sentData self, Live world sentData self → self.handle ∈ world.refCountersFiles ∧
    ∀ file, world.files.get? self.handle = some file →
      self.offset < file.nextOffset ∧ file.counters self.offset = if self.released then 0 else 1
  apart : ∀ sentData other self second, Live world sentData self → Live world other second →
    self.handle = second.handle → self.offset = second.offset → sentData = other
  reached : ∀ sentData self, world.sentData.get? sentData = some self → self.released = true →
    self.reachedZero = true
  spent : ∀ sentData self, world.sentData.get? sentData = some self → self.destroyed = true →
    self.released = true
  drops : ∀ count ∈ world.drops, count = 0

theorem increment_small {value : Nat} (small : value < refCounterFileSize) :
    increment value = value + 1 := by
  unfold increment
  unfold refCounterFileSize at small
  omega

theorem decrement_pos {value : Nat} (positive : 0 < value) : decrement value = value - 1 :=
  if_neg (ne_of_gt positive)

section Files

variable {world : World}

variable {handle : ShmHandle}

open Store

theorem Slots.bound (slots : Slots world)
    (member : handle ∈ world.refCountersFiles) : handle < world.files.fresh := by
  obtain ⟨file, found, _⟩ := slots.registered handle member
  exact lt_fresh found

variable {sentData : SentDataId} {self : SupaIPCSentData}

theorem Slots.live (slots : Slots world)
    (alive : Live world sentData self) : ∃ file, world.files.get? self.handle = some file ∧
      Registered (liveOf world self.handle) self.handle file ∧ self.offset < file.nextOffset ∧
      file.counters self.offset = if self.released then 0 else 1 := by
  obtain ⟨listed, holds⟩ := slots.slot sentData self alive
  obtain ⟨file, found, registered⟩ := slots.registered self.handle listed
  exact ⟨file, found, registered, holds file found⟩

open List Option

theorem Slots.liveOf_absent (slots : Slots world)
    (absent : handle ∉ world.refCountersFiles) : liveOf world handle = 0 := by
  refine sum_eq_zero fun weight member => ?_
  obtain ⟨cell, listed, rfl⟩ := mem_map.mp member
  cases cell with
  | none => rfl
  | some self =>
    refine if_neg ?_
    rintro ⟨rfl, alive⟩
    obtain ⟨index, found⟩ := mem_iff_getElem?.mp listed
    have there : world.sentData.get? index = some self := by
      unfold Store.get?
      rw [found]
      rfl
    exact absent (slots.slot index self ⟨there, alive⟩).1

theorem Live.counted (alive : Live world sentData self) : 1 ≤ liveOf world self.handle := by
  have counted := world.sentData.le_sum
    (fun other => if other.handle = self.handle ∧ other.destroyed = false then 1 else 0)
    (fun other => by split <;> simp) alive.1
  rwa [if_pos ⟨rfl, alive.2⟩] at counted

variable (slots : Slots world)
include slots

theorem Slots.newFile : Slots { world with
      files := world.files.push { handle := world.files.fresh, size := refCounterFileSize }
      refCountersFiles := world.files.fresh :: world.refCountersFiles
      nextAvailable := some world.files.fresh } := by
  have unlisted : world.files.fresh ∉ world.refCountersFiles := fun member =>
    lt_irrefl _ (slots.bound member)
  have earlier : ∀ handle ∈ world.refCountersFiles, ∀ file,
      (world.files.push file).get? handle = world.files.get? handle := by
    intro handle member file
    rw [get?_push, if_neg (Nat.ne_of_lt (slots.bound member))]
  constructor
  · exact nodup_cons.mpr ⟨unlisted, slots.nodup⟩
  · intro handle member
    rcases mem_cons.mp member with rfl | before
    · refine ⟨_, by rw [get?_push, if_pos rfl], rfl, rfl, zero_le _, le_rfl, ?_⟩
      exact (slots.liveOf_absent unlisted).symm
    · obtain ⟨file, found, registered⟩ := slots.registered handle before
      exact ⟨file, by rw [earlier handle before]; exact found, { registered with }⟩
  · intro handle file found
    rw [get?_push] at found
    split at found
    · rename_i same
      rw [same]
      exact .head _
    · exact .tail _ (slots.mapped handle file found)
  · intro handle same
    cases same
    refine ⟨mem_cons_self, fun file found => ?_⟩
    rw [get?_push, if_pos rfl] at found
    cases found
    exact zero_lt_succ _
  · intro sentData self alive
    obtain ⟨listed, holds⟩ := slots.slot sentData self alive
    refine ⟨mem_cons_of_mem _ listed, fun file found => holds file ?_⟩
    rwa [earlier _ listed] at found
  · exact slots.apart
  · exact slots.reached
  · exact slots.spent
  · exact slots.drops

theorem Slots.updateFile (change : SupaIPCRefCountersFile → SupaIPCRefCountersFile)
    (named : ∀ file, (change file).handle = file.handle)
    (size : ∀ file, (change file).size = file.size)
    (nextOffset : ∀ file, (change file).nextOffset = file.nextOffset)
    (usedSlots : ∀ file, (change file).usedSlots = file.usedSlots)
    (counters : ∀ file offset, offset < file.nextOffset →
      (change file).counters offset = file.counters offset) :
    Slots { world with files := world.files.modify handle change } := by
  have changed : ∀ other file, (world.files.modify handle change).get? other = some file →
      ∃ old, world.files.get? other = some old ∧ (file = old ∨ file = change old) := by
    intro other file found
    rcases of_get?_modify found with ⟨_, old, there, rfl⟩ | ⟨_, there⟩
    · exact ⟨old, there, .inr rfl⟩
    · exact ⟨file, there, .inl rfl⟩
  constructor
  · exact slots.nodup
  · intro other member
    obtain ⟨file, found, registered⟩ := slots.registered other member
    rw [get?_modify]
    split
    · rename_i same
      rw [← same, found]
      refine ⟨change file, rfl, ?_, ?_, ?_, ?_, ?_⟩
      · rw [named, registered.named]
      · rw [size, registered.size]
      · rw [nextOffset]
        exact registered.bound
      · rw [usedSlots, nextOffset]
        exact registered.used
      · rw [usedSlots]
        exact registered.count
    · exact ⟨file, found, { registered with }⟩
  · intro other file found
    obtain ⟨old, there, _⟩ := changed other file found
    exact slots.mapped other old there
  · intro other same
    obtain ⟨listed, holds⟩ := slots.next other same
    refine ⟨listed, fun file found => ?_⟩
    obtain ⟨old, there, rfl | rfl⟩ := changed other file found
    · exact holds _ there
    · rw [nextOffset]
      exact holds _ there
  · intro sentData self alive
    obtain ⟨listed, holds⟩ := slots.slot sentData self alive
    refine ⟨listed, fun file found => ?_⟩
    obtain ⟨old, there, rfl | rfl⟩ := changed _ file found
    · exact holds _ there
    · rw [nextOffset, counters old _ (holds old there).1]
      exact holds _ there
  · exact slots.apart
  · exact slots.reached
  · exact slots.spent
  · exact slots.drops

theorem Slots.updateSentData (sentData : SentDataId) (change : SupaIPCSentData → SupaIPCSentData)
    (handle : ∀ self, (change self).handle = self.handle)
    (offset : ∀ self, (change self).offset = self.offset)
    (destroyed : ∀ self, (change self).destroyed = self.destroyed)
    (released : ∀ self, (change self).released = self.released)
    (reachedZero : ∀ self, (change self).reachedZero = self.reachedZero) :
    Slots { world with sentData := world.sentData.modify sentData change } := by
  have changed : ∀ other self, (world.sentData.modify sentData change).get? other = some self →
      ∃ old, world.sentData.get? other = some old ∧ self.handle = old.handle ∧
        self.offset = old.offset ∧ self.destroyed = old.destroyed ∧
        self.released = old.released ∧ self.reachedZero = old.reachedZero := by
    intro other self found
    rcases of_get?_modify found with ⟨_, old, there, rfl⟩ | ⟨_, there⟩
    · exact ⟨old, there, handle old, offset old, destroyed old, released old, reachedZero old⟩
    · exact ⟨self, there, rfl, rfl, rfl, rfl, rfl⟩
  have live : ∀ other self, Live { world with sentData := world.sentData.modify sentData change }
      other self → ∃ old, Live world other old ∧ self.handle = old.handle ∧
        self.offset = old.offset ∧ self.released = old.released := by
    rintro other self ⟨found, alive⟩
    obtain ⟨old, there, sameHandle, sameOffset, sameDestroyed, sameReleased, _⟩ :=
      changed other self found
    exact ⟨old, ⟨there, by rw [← sameDestroyed]; exact alive⟩, sameHandle, sameOffset, sameReleased⟩
  have count : ∀ other,
      liveOf { world with sentData := world.sentData.modify sentData change } other =
        liveOf world other := by
    intro other
    refine sum_modify_same _ _ _ _ fun self _ => ?_
    rw [handle, destroyed]
  constructor
  · exact slots.nodup
  · intro other member
    obtain ⟨file, found, registered⟩ := slots.registered other member
    refine ⟨file, found, registered.named, registered.size, registered.bound, registered.used, ?_⟩
    rw [count]
    exact registered.count
  · exact slots.mapped
  · exact slots.next
  · intro other self alive
    obtain ⟨old, before, sameHandle, sameOffset, sameReleased⟩ := live other self alive
    rw [sameHandle, sameOffset, sameReleased]
    exact slots.slot other old before
  · intro one other self second alive aliveToo sameHandle sameOffset
    obtain ⟨old, before, oldHandle, oldOffset, _⟩ := live one self alive
    obtain ⟨former, beforeToo, formerHandle, formerOffset, _⟩ := live other second aliveToo
    refine slots.apart one other old former before beforeToo ?_ ?_
    · rw [← oldHandle, sameHandle, formerHandle]
    · rw [← oldOffset, sameOffset, formerOffset]
  · intro other self found gone
    obtain ⟨old, there, _, _, _, sameReleased, sameReached⟩ := changed other self found
    rw [sameReached]
    exact slots.reached other old there (by rw [← sameReleased]; exact gone)
  · intro other self found gone
    obtain ⟨old, there, _, _, sameDestroyed, sameReleased, _⟩ := changed other self found
    rw [sameReleased]
    exact slots.spent other old there (by rw [← sameDestroyed]; exact gone)
  · exact slots.drops

variable {file : SupaIPCRefCountersFile}

theorem Slots.send
    (next : world.nextAvailable = some handle) (found : world.files.get? handle = some file)
    (one : file.counters file.nextOffset = 1) (eventSyncRequired : Bool) (later : Option ShmHandle)
    (left : ∀ other, later = some other → other = handle ∧
      file.nextOffset + 1 < refCounterFileSize) :
    Slots { world with
      sentData := world.sentData.push { handle, offset := file.nextOffset, eventSyncRequired }
      files := world.files.modify handle .rotateOffset
      nextAvailable := later } := by
  obtain ⟨listed, holds⟩ := slots.next handle next
  have below := holds file found
  obtain ⟨same, there, registered⟩ := slots.registered handle listed
  obtain rfl := mem_unique found there
  have rotated : file.rotateOffset.nextOffset = file.nextOffset + 1 := increment_small below
  have counted : file.rotateOffset.usedSlots = file.usedSlots + 1 :=
    increment_small (lt_of_le_of_lt registered.used below)
  have here := get?_modify_found found .rotateOffset
  have elsewhere : ∀ other, other ≠ handle →
      (world.files.modify handle .rotateOffset).get? other = world.files.get? other :=
    fun _ different => get?_modify_of_ne _ different _
  have live : ∀ other self, Live { world with
      sentData := world.sentData.push { handle, offset := file.nextOffset, eventSyncRequired }
      files := world.files.modify handle .rotateOffset
      nextAvailable := later } other self →
      other = world.sentData.fresh ∧ self.handle = handle ∧ self.offset = file.nextOffset ∧
        self.released = false ∨ Live world other self := by
    rintro other self ⟨present, alive⟩
    rw [get?_push] at present
    split at present
    · rename_i new
      cases present
      exact .inl ⟨new, rfl, rfl, rfl⟩
    · exact .inr ⟨present, alive⟩
  have behind : ∀ other self, Live world other self → self.handle = handle →
      self.offset < file.nextOffset := by
    intro other self alive same
    exact ((slots.slot other self alive).2 file (by rw [same]; exact found)).1
  constructor
  · exact slots.nodup
  · intro other member
    by_cases same : other = handle
    · subst same
      refine ⟨_, here, registered.named, registered.size, ?_, ?_, ?_⟩
      · rw [rotated]
        exact below
      · rw [rotated, counted]
        exact succ_le_succ registered.used
      · unfold liveOf
        rw [counted, sum_push, if_pos ⟨rfl, rfl⟩, cast_succ, registered.count]
        rfl
    · obtain ⟨old, before, kept⟩ := slots.registered other member
      refine ⟨old, by rw [elsewhere other same]; exact before, kept.named, kept.size, kept.bound,
        kept.used, ?_⟩
      unfold liveOf
      rw [sum_push, if_neg (by rintro ⟨rfl, _⟩; exact same rfl), add_zero]
      exact kept.count
  · intro other present found'
    by_cases same : other = handle
    · rw [same]
      exact listed
    · rw [elsewhere other same] at found'
      exact slots.mapped other present found'
  · intro other same
    obtain ⟨rfl, room⟩ := left other same
    refine ⟨listed, fun rotated' present => ?_⟩
    rw [← mem_unique here present, rotated]
    exact room
  · intro other self alive
    rcases live other self alive with ⟨_, named, position, fresh⟩ | before
    · refine ⟨by rw [named]; exact listed, fun rotated' present => ?_⟩
      rw [named] at present
      rw [← mem_unique here present, rotated, position, fresh]
      exact ⟨lt_succ_self _, one⟩
    · obtain ⟨registered', holds'⟩ := slots.slot other self before
      refine ⟨registered', fun rotated' present => ?_⟩
      by_cases same : self.handle = handle
      · rw [same] at present
        rw [← mem_unique here present, rotated]
        obtain ⟨lower, counter⟩ := holds' file (by rw [same]; exact found)
        exact ⟨lt_succ_of_lt lower, counter⟩
      · rw [elsewhere _ same] at present
        exact holds' rotated' present
  · intro first second self other alive aliveToo sameHandle sameOffset
    rcases live first self alive with ⟨new, named, position, _⟩ | before
    · rcases live second other aliveToo with ⟨newToo, _⟩ | beforeToo
      · rw [new, newToo]
      · have lower := behind second other beforeToo (by rw [← sameHandle, named])
        rw [← sameOffset, position] at lower
        exact absurd lower (lt_irrefl _)
    · rcases live second other aliveToo with ⟨_, named, position, _⟩ | beforeToo
      · have lower := behind first self before (by rw [sameHandle, named])
        rw [sameOffset, position] at lower
        exact absurd lower (lt_irrefl _)
      · exact slots.apart first second self other before beforeToo sameHandle sameOffset
  · intro other self present gone
    rw [get?_push] at present
    split at present
    · rw [← Option.some.inj present] at gone
      simp at gone
    · exact slots.reached other self present gone
  · intro other self present gone
    rw [get?_push] at present
    split at present
    · rw [← Option.some.inj present] at gone
      simp at gone
    · exact slots.spent other self present gone
  · exact slots.drops

theorem Slots.destroy (alive : Live world sentData self) (released : self.released = true) :
    Slots { world with
      sentData := world.sentData.modify sentData fun self => { self with destroyed := true }
      files := world.files.modify self.handle .returnOffset } := by
  obtain ⟨file, found, registered, _⟩ := slots.live alive
  have listed := (slots.slot sentData self alive).1
  have sums : ∀ other,
      (world.sentData.modify sentData fun self => { self with destroyed := true }).sum
        (fun self => if self.handle = other ∧ self.destroyed = false then 1 else 0) =
      liveOf world other - if self.handle = other then 1 else 0 := by
    intro other
    rw [sum_modify _ _ _ _ alive.1]
    unfold liveOf
    simp only [Bool.true_eq_false, and_false, ↓reduceIte, alive.2, and_true]
    ring
  have positive : 0 < file.usedSlots := by
    have counted := alive.counted
    rw [← registered.count] at counted
    omega
  have returned : file.returnOffset.usedSlots = file.usedSlots - 1 := decrement_pos positive
  have here := get?_modify_found found .returnOffset
  have elsewhere : ∀ other, other ≠ self.handle →
      (world.files.modify self.handle .returnOffset).get? other = world.files.get? other :=
    fun _ different => get?_modify_of_ne _ different _
  have shown : ∀ other later, (world.files.modify self.handle .returnOffset).get? other = some later →
      ∃ old, world.files.get? other = some old ∧ later.nextOffset = old.nextOffset ∧
        later.counters = old.counters := by
    intro other later present
    rcases of_get?_modify present with ⟨_, old, there, rfl⟩ | ⟨_, there⟩
    · exact ⟨old, there, rfl, rfl⟩
    · exact ⟨later, there, rfl, rfl⟩
  have live : ∀ other later, Live { world with
      sentData := world.sentData.modify sentData fun self => { self with destroyed := true }
      files := world.files.modify self.handle .returnOffset } other later → Live world other later := by
    rintro other later ⟨present, remains⟩
    rcases of_get?_modify present with ⟨_, old, _, rfl⟩ | ⟨_, there⟩
    · simp at remains
    · exact ⟨there, remains⟩
  constructor
  · exact slots.nodup
  · intro other member
    by_cases same : other = self.handle
    · subst same
      refine ⟨_, here, registered.named, registered.size, registered.bound, ?_, ?_⟩
      · rw [returned]
        exact (sub_le _ _).trans registered.used
      · unfold liveOf
        rw [returned, sums, if_pos rfl, ← registered.count]
        omega
    · obtain ⟨old, before, kept⟩ := slots.registered other member
      refine ⟨old, by rw [elsewhere other same]; exact before, kept.named, kept.size, kept.bound,
        kept.used, ?_⟩
      unfold liveOf
      rw [sums, if_neg (Ne.symm same), sub_zero]
      exact kept.count
  · intro other later present
    obtain ⟨old, before, _⟩ := shown other later present
    exact slots.mapped other old before
  · intro other next
    obtain ⟨member, room⟩ := slots.next other next
    refine ⟨member, fun later present => ?_⟩
    obtain ⟨old, before, position, _⟩ := shown other later present
    rw [position]
    exact room old before
  · intro other later remains
    obtain ⟨member, holds⟩ := slots.slot other later (live other later remains)
    refine ⟨member, fun changed present => ?_⟩
    obtain ⟨old, before, position, counters⟩ := shown _ changed present
    rw [position, counters]
    exact holds old before
  · intro first second one other remains remainsToo
    exact slots.apart first second one other (live _ _ remains) (live _ _ remainsToo)
  · intro other later present gone
    rcases of_get?_modify present with ⟨_, old, there, rfl⟩ | ⟨_, there⟩
    · exact slots.reached other old there gone
    · exact slots.reached other later there gone
  · intro other later present gone
    rcases of_get?_modify present with ⟨rfl, old, there, rfl⟩ | ⟨_, there⟩
    · rw [← mem_unique alive.1 there]
      exact released
    · exact slots.spent other later there gone
  · exact slots.drops

theorem Slots.drop
    (listed : handle ∈ world.refCountersFiles) (found : world.files.get? handle = some file)
    (unused : file.usedSlots = 0) (other : world.nextAvailable ≠ some handle) :
    Slots { world with
      refCountersFiles := world.refCountersFiles.erase handle
      drops := liveOf world handle :: world.drops
      files := world.files.erase handle } := by
  obtain ⟨same, there, registered⟩ := slots.registered handle listed
  obtain rfl := mem_unique found there
  have none' : liveOf world handle = 0 := by
    rw [← registered.count, unused]
    rfl
  have elsewhere : ∀ second, second ≠ handle →
      (world.files.erase handle).get? second = world.files.get? second := by
    intro second different
    rw [get?_erase, if_neg different]
  have apart : ∀ sentData self, Live world sentData self → self.handle ≠ handle := by
    rintro sentData self ⟨present, alive⟩ rfl
    have counted := Live.counted ⟨present, alive⟩
    rw [none'] at counted
    simp at counted
  constructor
  · exact slots.nodup.erase handle
  · intro second member
    obtain ⟨different, before⟩ := (List.Nodup.mem_erase_iff slots.nodup).mp member
    obtain ⟨old, present, kept⟩ := slots.registered second before
    exact ⟨old, by rw [elsewhere second different]; exact present, { kept with }⟩
  · intro second old present
    rw [get?_erase] at present
    split at present
    · simp at present
    · rename_i different
      exact (List.Nodup.mem_erase_iff slots.nodup).mpr ⟨different, slots.mapped second old present⟩
  · intro second next
    have different : second ≠ handle := by
      rintro rfl
      exact other next
    obtain ⟨member, room⟩ := slots.next second next
    refine ⟨(List.Nodup.mem_erase_iff slots.nodup).mpr ⟨different, member⟩, ?_⟩
    rw [elsewhere second different]
    exact room
  · intro sentData self alive
    obtain ⟨member, holds⟩ := slots.slot sentData self alive
    have different := apart sentData self alive
    refine ⟨(List.Nodup.mem_erase_iff slots.nodup).mpr ⟨different, member⟩, ?_⟩
    rw [elsewhere _ different]
    exact holds
  · exact slots.apart
  · exact slots.reached
  · exact slots.spent
  · intro count member
    rcases mem_cons.mp member with rfl | before
    · exact none'
    · exact slots.drops count before

theorem Slots.release (alive : Live world sentData self) (released : self.released = false)
    (change : SupaIPCSentData → SupaIPCSentData)
    (handle : ∀ other, (change other).handle = other.handle)
    (offset : ∀ other, (change other).offset = other.offset)
    (destroyed : ∀ other, (change other).destroyed = other.destroyed)
    (gone : (change self).released = true) (reachedZero : (change self).reachedZero = true) :
    Slots { world with
      files := world.files.modify self.handle (·.decrementCounter self.offset)
      sentData := world.sentData.modify sentData change } := by
  obtain ⟨file, found, registered, below, counter⟩ := slots.live alive
  rw [released] at counter
  have here : (world.files.modify self.handle (·.decrementCounter self.offset)).get? self.handle =
      some (file.decrementCounter self.offset) := get?_modify_found found _
  have elsewhere : ∀ other, other ≠ self.handle →
      (world.files.modify self.handle (·.decrementCounter self.offset)).get? other =
        world.files.get? other := fun _ different => get?_modify_of_ne _ different _
  have zero : (file.decrementCounter self.offset).counters self.offset = 0 := by
    rw [SupaIPCRefCountersFile.decrementCounter_counters, Function.update_self, counter]
    rfl
  have same : ∀ other, other ≠ self.offset →
      (file.decrementCounter self.offset).counters other = file.counters other := by
    intro other different
    rw [SupaIPCRefCountersFile.decrementCounter_counters, Function.update_of_ne different]
  have live : ∀ other later, Live { world with
      files := world.files.modify self.handle (·.decrementCounter self.offset)
      sentData := world.sentData.modify sentData change } other later →
      other = sentData ∧ later = change self ∨ other ≠ sentData ∧ Live world other later := by
    rintro other later ⟨present, remains⟩
    rcases of_get?_modify present with ⟨rfl, old, there, rfl⟩ | ⟨different, there⟩
    · exact .inl ⟨rfl, by rw [mem_unique alive.1 there]⟩
    · exact .inr ⟨different, there, remains⟩
  have before : ∀ other later, Live { world with
      files := world.files.modify self.handle (·.decrementCounter self.offset)
      sentData := world.sentData.modify sentData change } other later →
      ∃ old, Live world other old ∧ later.handle = old.handle ∧ later.offset = old.offset := by
    intro other later remains
    rcases live other later remains with ⟨rfl, rfl⟩ | ⟨_, old⟩
    · exact ⟨self, alive, handle self, offset self⟩
    · exact ⟨later, old, rfl, rfl⟩
  constructor
  · exact slots.nodup
  · intro other member
    have count : liveOf { world with
        files := world.files.modify self.handle (·.decrementCounter self.offset)
        sentData := world.sentData.modify sentData change } other = liveOf world other := by
      refine sum_modify_same _ _ _ _ fun later _ => ?_
      rw [handle, destroyed]
    by_cases equal : other = self.handle
    · subst equal
      refine ⟨_, here, registered.named, registered.size, registered.bound, registered.used, ?_⟩
      rw [count]
      exact registered.count
    · obtain ⟨old, there, kept⟩ := slots.registered other member
      refine ⟨old, by rw [elsewhere other equal]; exact there, kept.named, kept.size, kept.bound,
        kept.used, ?_⟩
      rw [count]
      exact kept.count
  · intro other later present
    by_cases equal : other = self.handle
    · rw [equal]
      exact (slots.slot sentData self alive).1
    · rw [elsewhere other equal] at present
      exact slots.mapped other later present
  · intro other next
    obtain ⟨member, room⟩ := slots.next other next
    refine ⟨member, fun later present => ?_⟩
    by_cases equal : other = self.handle
    · rw [equal] at present room
      rw [← mem_unique here present]
      exact room file found
    · rw [elsewhere other equal] at present
      exact room later present
  · intro other later remains
    rcases live other later remains with ⟨rfl, rfl⟩ | ⟨different, old⟩
    · rw [handle, offset, gone]
      refine ⟨(slots.slot _ self alive).1, fun changed present => ?_⟩
      rw [← mem_unique here present]
      exact ⟨below, zero⟩
    · obtain ⟨member, holds⟩ := slots.slot other later old
      refine ⟨member, fun changed present => ?_⟩
      by_cases equal : later.handle = self.handle
      · rw [equal] at present
        rw [← mem_unique here present]
        obtain ⟨position, value⟩ := holds file (by rw [equal]; exact found)
        refine ⟨position, ?_⟩
        rw [same later.offset]
        · exact value
        · intro collides
          exact different (slots.apart other sentData later self old alive equal collides)
      · rw [elsewhere _ equal] at present
        exact holds changed present
  · intro first second one other remains remainsToo sameHandle sameOffset
    obtain ⟨old, was, wasHandle, wasOffset⟩ := before first one remains
    obtain ⟨former, wasToo, formerHandle, formerOffset⟩ := before second other remainsToo
    refine slots.apart first second old former was wasToo ?_ ?_
    · rw [← wasHandle, sameHandle, formerHandle]
    · rw [← wasOffset, sameOffset, formerOffset]
  · intro other later present marked
    rcases of_get?_modify present with ⟨rfl, old, there, rfl⟩ | ⟨_, there⟩
    · rw [← mem_unique alive.1 there]
      exact reachedZero
    · exact slots.reached other later there marked
  · intro other later present ended
    rcases of_get?_modify present with ⟨rfl, old, there, rfl⟩ | ⟨_, there⟩
    · rw [← mem_unique alive.1 there]
      exact gone
    · exact slots.spent other later there ended
  · exact slots.drops

end Files

end TorchSupa.SentData
