import TorchSupa.Ipc.HandleCache
import TorchSupa.Logic.Lists

/-!
When the last reference to a pointer is dropped its entry stays in the cache until the
deleter has run. In between the entry is expired, and only the lookup of its handle sees it.
-/

namespace TorchSupa.HandleCache

open Allocator Interleaving Outcome List

abbrev Ghost := ControlId → Prop

structure Sound (ghost : Ghost) (world : World) : Prop where
  keys : (world.ipcMemHandleToDevptr.map (·.1)).Nodup
  fresh : world.controls.fresh = world.opened
  opening : ∀ control self, world.controls.get? control = some self → self.opening = control
  cached : ∀ entry ∈ world.ipcMemHandleToDevptr, entry.2.wp = some entry.2.opening ∧
    ∃ self, world.controls.get? entry.2.opening = some self ∧ self.handle = entry.1
  alive : ∀ control self, world.controls.get? control = some self → 0 < self.useCount →
    ∃ entry ∈ world.ipcMemHandleToDevptr, entry.1 = self.handle ∧ entry.2.opening = control
  resource : ∀ entry ∈ world.ipcMemHandleToDevptr,
    entry.2.expandableSegment.isSome = !entry.2.supaIpcPtr.isSome
  openings : (world.ipcMemHandleToDevptr.map (·.2.opening) ++ world.closed).Perm
    (List.range world.opened)
  expired : ∀ control, ghost control ↔ ∃ self, world.controls.get? control = some self ∧
    self.useCount = 0 ∧ ∃ entry ∈ world.ipcMemHandleToDevptr, entry.2.opening = control

def discipline : Discipline World Place Ghost ControlId where
  sound := Sound
  owns ghost place := ∀ control, place = .deleter control → ghost control
  apart place other := ∀ control, place = .deleter control → other ≠ .deleter control
  wanted ghost control := ghost control
  carries place control := place = .deleter control

def ExpiredFor (world : World) (handle : Handle) : Prop :=
  ∃ entry ∈ world.ipcMemHandleToDevptr, entry.1 = handle ∧
    ∃ self, world.controls.get? entry.2.opening = some self ∧ self.useCount = 0

section Cache

variable {ghost : Ghost} {world : World}

theorem Sound.entry_unique (sound : Sound ghost world) {first second : Handle × MemHandleCacheEntry}
    (one : first ∈ world.ipcMemHandleToDevptr) (other : second ∈ world.ipcMemHandleToDevptr)
    (same : first.1 = second.1) : first = second :=
  inj_on_of_nodup_map sound.keys one other same

variable {entry : Handle × MemHandleCacheEntry}

variable (sound : Sound ghost world)
include sound

theorem Sound.lookup (member : entry ∈ world.ipcMemHandleToDevptr) :
    world.ipcMemHandleToDevptr.lookup entry.1 = some entry.2 := by
  cases found : world.ipcMemHandleToDevptr.lookup entry.1 with
  | none =>
    have absent := lookup_eq_none_iff.mp found entry member
    simp at absent
  | some other =>
    have same := sound.entry_unique (Lists.mem_of_lookup found) member rfl
    rw [← same]

theorem Sound.bound
    (member : entry ∈ world.ipcMemHandleToDevptr) : entry.2.opening < world.opened := by
  have listed : entry.2.opening ∈ range world.opened :=
    sound.openings.mem_iff.mp (by simp only [mem_append, mem_map]; exact .inl ⟨entry, member, rfl⟩)
  exact mem_range.mp listed

variable {control : ControlId} {self : Control}

theorem Sound.recount
    (found : world.controls.get? control = some self) (positive : 0 < self.useCount)
    (change : Control → Control) (handle : (change self).handle = self.handle)
    (opening : (change self).opening = self.opening) :
    Sound (fun other => ghost other ∨ other = control ∧ (change self).useCount = 0)
      { world with controls := world.controls.modify control change } := by
  have changed : ∀ other later, (world.controls.modify control change).get? other = some later →
      other = control ∧ later = change self ∨
        other ≠ control ∧ world.controls.get? other = some later := by
    intro other later there
    rcases Store.of_get?_modify there with ⟨rfl, old, stood, rfl⟩ | apart
    · exact .inl ⟨rfl, by rw [Option.mem_unique found stood]⟩
    · exact .inr apart
  have here := Store.get?_modify_found found change
  have elsewhere : ∀ other, other ≠ control →
      (world.controls.modify control change).get? other = world.controls.get? other :=
    fun _ different => Store.get?_modify_of_ne _ different change
  constructor
  · exact sound.keys
  · rw [Store.fresh_modify]
    exact sound.fresh
  · intro other later there
    rcases changed other later there with ⟨rfl, rfl⟩ | ⟨_, before⟩
    · rw [opening]
      exact sound.opening _ _ found
    · exact sound.opening other later before
  · intro entry member
    obtain ⟨wp, old, there, named⟩ := sound.cached entry member
    refine ⟨wp, ?_⟩
    by_cases same : entry.2.opening = control
    · rw [same] at there ⊢
      have same' := Option.mem_unique found there
      exact ⟨change self, here, by rw [handle, same', named]⟩
    · exact ⟨old, by rw [elsewhere _ same]; exact there, named⟩
  · intro other later there used
    rcases changed other later there with ⟨rfl, rfl⟩ | ⟨_, before⟩
    · rw [handle]
      exact sound.alive _ self found positive
    · exact sound.alive other later before used
  · exact sound.resource
  · exact sound.openings
  · intro other
    by_cases same : other = control
    · subst same
      have notBefore : ¬ ghost other := by
        intro expired
        obtain ⟨old, there, zero, _⟩ := (sound.expired other).mp expired
        rw [Option.mem_unique found there, zero] at positive
        simp at positive
      constructor
      · rintro (expired | ⟨_, zero⟩)
        · exact absurd expired notBefore
        · obtain ⟨entry, member, _, opens⟩ := sound.alive other self found positive
          exact ⟨change self, here, zero, entry, member, opens⟩
      · rintro ⟨later, there, zero, _⟩
        rw [here] at there
        rw [Option.some.inj there]
        exact .inr ⟨rfl, zero⟩
    · dsimp only
      rw [elsewhere other same, ← sound.expired other]
      simp [same]

theorem Sound.insert {handle : Handle}
    (absent : world.ipcMemHandleToDevptr.lookup handle = none) (entry : MemHandleCacheEntry)
    (ptr : Nat) (opening : entry.opening = world.opened)
    (resource : entry.expandableSegment.isSome = !entry.supaIpcPtr.isSome) :
    Sound ghost { world with
      opened := world.opened + 1
      controls := world.controls.push { useCount := 1, ptr, handle, opening := entry.opening }
      ipcMemHandleToDevptr := (handle, { entry with wp := some world.controls.fresh }) ::
        world.ipcMemHandleToDevptr } := by
  have unused : ∀ other ∈ world.ipcMemHandleToDevptr, other.1 ≠ handle := by
    intro other member same
    have differs := lookup_eq_none_iff.mp absent other member
    simp [same] at differs
  have old : ∀ other ∈ world.ipcMemHandleToDevptr, other.2.opening ≠ world.controls.fresh := by
    intro other member same
    have bound := sound.bound member
    rw [same, sound.fresh] at bound
    exact absurd bound (lt_irrefl _)
  constructor
  · simp only [map_cons, nodup_cons, mem_map]
    refine ⟨?_, sound.keys⟩
    rintro ⟨other, member, same⟩
    exact unused other member same
  · rw [Store.fresh_push, sound.fresh]
  · intro control self there
    rw [Store.get?_push] at there
    split at there
    · rename_i same
      rw [← Option.some.inj there, same, sound.fresh, opening]
    · exact sound.opening control self there
  · intro other member
    rcases mem_cons.mp member with rfl | earlier
    · refine ⟨by rw [opening, sound.fresh], ⟨1, ptr, handle, entry.opening⟩, ?_, rfl⟩
      rw [Store.get?_push, if_pos (by rw [opening, sound.fresh])]
    · obtain ⟨wp, self, there, named⟩ := sound.cached other earlier
      refine ⟨wp, self, ?_, named⟩
      rw [Store.get?_push, if_neg (old other earlier)]
      exact there
  · intro control self there used
    rw [Store.get?_push] at there
    split at there
    · rename_i same
      refine ⟨_, mem_cons_self, ?_, ?_⟩
      · rw [← Option.some.inj there]
      · rw [same, sound.fresh, ← opening]
    · obtain ⟨other, member, named, opens⟩ := sound.alive control self there used
      exact ⟨other, mem_cons_of_mem _ member, named, opens⟩
  · intro other member
    rcases mem_cons.mp member with rfl | earlier
    · exact resource
    · exact sound.resource other earlier
  · simp only [map_cons, cons_append, opening, range_succ]
    exact (sound.openings.cons _).trans (perm_append_singleton _ _).symm
  · intro control
    rw [sound.expired control]
    constructor
    · rintro ⟨self, there, zero, other, member, opens⟩
      refine ⟨self, ?_, zero, other, mem_cons_of_mem _ member, opens⟩
      rw [Store.get?_push, if_neg (Nat.ne_of_lt (Store.lt_fresh there))]
      exact there
    · rintro ⟨self, there, zero, other, member, opens⟩
      rw [Store.get?_push] at there
      split at there
      · rw [← Option.some.inj there] at zero
        simp at zero
      · rename_i different
        rcases mem_cons.mp member with rfl | earlier
        · exact absurd (by rw [← opens, sound.fresh]; exact opening) different
        · exact ⟨self, there, zero, other, earlier, opens⟩

theorem Sound.erase
    (member : entry ∈ world.ipcMemHandleToDevptr) (expired : ghost entry.2.opening) :
    Sound (fun other => ghost other ∧ other ≠ entry.2.opening) { world with
        closed := entry.2.opening :: world.closed
        ipcMemHandleToDevptr :=
          world.ipcMemHandleToDevptr.filter fun cached => cached.1 != entry.1 } := by
  have rest : (world.ipcMemHandleToDevptr.filter fun cached => cached.1 != entry.1).Sublist
      world.ipcMemHandleToDevptr := filter_sublist
  have kept : ∀ other, other ∈ (world.ipcMemHandleToDevptr.filter fun cached =>
      cached.1 != entry.1) ↔ other ∈ world.ipcMemHandleToDevptr ∧ other ≠ entry := by
    intro other
    simp only [mem_filter, bne_iff_ne, ne_eq, and_congr_right_iff]
    exact fun listed => not_congr ⟨sound.entry_unique listed member, fun same => by rw [same]⟩
  have perm : world.ipcMemHandleToDevptr.Perm
      (entry :: world.ipcMemHandleToDevptr.filter fun cached => cached.1 != entry.1) := by
    rw [perm_ext_iff_of_nodup sound.keys.of_map]
    · intro other
      rw [mem_cons, kept]
      by_cases same : other = entry
      · simp [same, member]
      · simp [same]
    · rw [nodup_cons, kept]
      exact ⟨by simp, sound.keys.of_map.sublist rest⟩
  have apart : ∀ other ∈ world.ipcMemHandleToDevptr, other.2.opening = entry.2.opening →
      other = entry := by
    intro other listed same
    obtain ⟨_, self, there, named⟩ := sound.cached entry member
    obtain ⟨_, also, thereToo, namedToo⟩ := sound.cached other listed
    rw [same, there] at thereToo
    exact sound.entry_unique listed member (by rw [← named, ← namedToo, Option.some.inj thereToo])
  constructor
  · exact sound.keys.sublist (rest.map _)
  · exact sound.fresh
  · exact sound.opening
  · exact fun other listed => sound.cached other (rest.subset listed)
  · intro control self there used
    obtain ⟨other, listed, named, opens⟩ := sound.alive control self there used
    refine ⟨other, (kept other).mpr ⟨listed, ?_⟩, named, opens⟩
    rintro rfl
    obtain ⟨old, before, zero, _⟩ := (sound.expired _).mp expired
    rw [opens, there] at before
    rw [Option.some.inj before, zero] at used
    simp at used
  · exact fun other listed => sound.resource other (rest.subset listed)
  · have moved := (perm.map (·.2.opening)).append_right world.closed
    exact perm_middle.trans (moved.symm.trans sound.openings)
  · intro control
    rw [sound.expired control]
    constructor
    · rintro ⟨⟨self, there, zero, other, listed, opens⟩, different⟩
      refine ⟨self, there, zero, other, (kept other).mpr ⟨listed, ?_⟩, opens⟩
      rintro rfl
      exact different opens.symm
    · rintro ⟨self, there, zero, other, listed, opens⟩
      obtain ⟨before, different⟩ := (kept other).mp listed
      refine ⟨⟨self, there, zero, other, before, opens⟩, ?_⟩
      rintro rfl
      exact different (apart other before opens)

theorem Sound.addUse
    (found : world.controls.get? control = some self) (positive : 0 < self.useCount) :
    Sound ghost { world with
      controls := world.controls.modify control fun self =>
        { self with useCount := self.useCount + 1 } } := by
  have counted := sound.recount found positive (fun self => { self with useCount := self.useCount + 1 })
    rfl rfl
  simpa using counted

end Cache

section Calls

variable {ghost : Ghost} {world : World}

theorem readType_spec (ipcHandleSize : Nat) (handle : Handle) :
    wp (readType ipcHandleSize handle) (fun _ after => after = world) (fun _ after => after = world)
      world := by
  unfold readType
  split
  · exact bind_check (fun _ => rfl) fun _ => rfl
  · rfl

theorem newEntry_spec (ipcHandleSize : Nat) (answers : Answers) (device : Nat) (handle : Handle) :
    wp (newEntry ipcHandleSize answers device handle)
      (fun entry after => after = { world with opened := world.opened + 1 } ∧
        entry.opening = world.opened ∧
        entry.expandableSegment.isSome = !entry.supaIpcPtr.isSome)
      (fun _ after => after = world) world := by
  refine wp_seq _ (readType_spec ipcHandleSize handle) ?_
  rintro ⟨type, ss⟩ _ rfl
  dsimp only
  split
  · exact bind_demand (fun ptr _ => ⟨rfl, rfl, rfl⟩) fun _ => rfl
  · split
    · exact bind_demand (fun ptr _ => ⟨rfl, rfl, rfl⟩) fun _ => rfl
    · rfl

variable {entry : MemHandleCacheEntry} {self : Control}

theorem ptr_spec (resource : entry.expandableSegment.isSome = !entry.supaIpcPtr.isSome) :
    wp entry.ptr (fun _ after => after = world) (fun _ _ => False) world := by
  unfold MemHandleCacheEntry.ptr
  cases ipc : entry.supaIpcPtr with
  | some ptr => rfl
  | none =>
    cases segment : entry.expandableSegment with
    | some ptr => rfl
    | none =>
      rw [ipc, segment] at resource
      simp at resource

variable {control : ControlId}

theorem bind_useCount {β : Type} {next : Nat → CacheM β}
    {normal : β → World → Prop} {thrown : Exn → World → Prop}
    (found : world.controls.get? control = some self)
    (spec : wp (next self.useCount) normal thrown world) :
    wp (useCount control >>= next) normal thrown world := by
  rw [wp_bind]
  refine bind_read ?_
  rw [found]
  exact spec

theorem lock_spec (found : world.controls.get? control = some self) : wp (lock (some control))
      (fun devptr after => devptr = none ∧ self.useCount = 0 ∧ after = world ∨
        devptr = some control ∧ 0 < self.useCount ∧ after = { world with
          controls := world.controls.modify control fun self =>
            { self with useCount := self.useCount + 1 } })
      (fun _ _ => False) world := by
  refine bind_useCount found ?_
  split
  · rename_i zero
    exact .inl ⟨rfl, zero, rfl⟩
  · rename_i used
    exact .inr ⟨rfl, Nat.pos_of_ne_zero used, rfl⟩

theorem getIpcDevPtr_spec (ipcHandleSize : Nat) (sound : Sound ghost world) (answers : Answers)
    (handle : Handle) :
    wp (getIpcDevPtr ipcHandleSize answers handle)
      (fun _ after => Sound ghost after ∧ after.missing = world.missing ∧ ¬ ExpiredFor world handle)
      (fun _ after => Sound ghost after ∧
        (after.missing = world.missing ∧ ¬ ExpiredFor world handle ∨
          after.missing = handle :: world.missing ∧ ExpiredFor world handle)) world := by
  refine bind_read ?_
  cases found : world.ipcMemHandleToDevptr.lookup handle with
  | none =>
    have fine : ¬ ExpiredFor world handle := by
      rintro ⟨entry, member, named, _⟩
      have differs := lookup_eq_none_iff.mp found entry member
      simp [named] at differs
    refine bind_demand (fun device _ => ?_) fun _ => ⟨sound, .inl ⟨rfl, fine⟩⟩
    refine wp_seq _ (wp_mono (newEntry_spec ipcHandleSize answers device handle)
      (fun _ _ made => made) ?_) ?_
    · rintro exception _ rfl
      exact ⟨sound, .inl ⟨rfl, fine⟩⟩
    · rintro entry _ ⟨rfl, opening, resource⟩
      refine wp_seq _ (wp_mono (ptr_spec resource) (fun _ _ read => read)
        fun _ _ never => never.elim) ?_
      rintro ptr _ rfl
      exact bind_read (bind_write ⟨sound.insert found entry ptr opening resource, rfl, fine⟩)
  | some entry =>
    have member := Lists.mem_of_lookup found
    obtain ⟨wp', self, there, named⟩ := sound.cached _ member
    dsimp only
    rw [wp']
    refine wp_seq _ (wp_mono (lock_spec there) (fun _ _ locked => locked)
      fun _ _ never => never.elim) ?_
    rintro devptr after (⟨rfl, zero, rfl⟩ | ⟨rfl, positive, rfl⟩)
    · refine bind_write ⟨{ sound with }, .inr ⟨rfl, ?_⟩⟩
      exact ⟨(handle, entry), member, rfl, self, there, zero⟩
    · refine ⟨sound.addUse there positive, rfl, ?_⟩
      rintro ⟨other, listed, alike, old, before, spent⟩
      have same := sound.entry_unique listed member alike
      rw [same, there] at before
      rw [Option.some.inj before, spent] at positive
      simp at positive

theorem clear_spec (answers : Answers)
    (resource : entry.expandableSegment.isSome = !entry.supaIpcPtr.isSome) :
    wp (entry.clear answers)
      (fun _ after => after = { world with closed := entry.opening :: world.closed })
      (fun exception _ => exception = .driver) world := by
  unfold MemHandleCacheEntry.clear noteClosing
  cases ipc : entry.supaIpcPtr.isSome with
  | true =>
    rw [ipc] at resource
    rw [resource, if_pos rfl]
    refine bind_check (fun _ => ?_) fun _ => rfl
    refine bind_check (fun _ => ?_) fun _ => rfl
    rfl
  | false =>
    rw [ipc] at resource
    rw [resource]
    refine bind_check (fun _ => ?_) fun _ => rfl
    rfl

theorem deleter_spec (sound : Sound ghost world) (answers : Answers) (expired : ghost control) :
    wp (deleter answers control)
      (fun _ after => Sound (fun other => ghost other ∧ other ≠ control) after ∧
        after.missing = world.missing)
      (fun exception _ => exception = .driver) world := by
  obtain ⟨self, there, zero, entry, member, rfl⟩ := (sound.expired control).mp expired
  obtain ⟨_, also, thereToo, named⟩ := sound.cached entry member
  rw [Option.mem_unique there thereToo] at there
  have cached := sound.lookup member
  rw [← named] at cached
  refine bind_read (bind_given there (bind_read (bind_given cached ?_)))
  rw [named]
  refine wp_seq _ (clear_spec answers (sound.resource entry member)) ?_
  rintro _ _ rfl
  exact ⟨sound.erase member expired, rfl⟩

end Calls

def Expires (world : World) : Action → Prop
  | .getIpcDevPtr handle _ => ExpiredFor world handle
  | _ => False

structure Kept (ghost : Ghost) (place : Place) (action : Action) (world after : World)
    (next : Place) : Prop where
  keeps : ∃ later, discipline.Keeps ghost later place after next
  finds : after.missing = world.missing ∧ ¬ Expires world action ∨
    after.missing ≠ [] ∧ Expires world action

section Steps

variable {ghost : Ghost} {world after : World} {ipcHandleSize : Nat}

theorem keeps_idle (sound : Sound ghost after) :
    ∃ later, discipline.Keeps ghost later .idle after .idle := by
  refine ⟨ghost, sound, ?_, fun other owns _ => ⟨owns, ?_⟩, fun control wanted =>
    .inr ⟨wanted, ?_⟩⟩
  · rintro control ⟨⟩
  · rintro control ⟨⟩
  · rintro ⟨⟩

variable (sound : Sound ghost world)
include sound

theorem dropUse_spec {control : ControlId} {self : Control}
    (found : world.controls.get? control = some self) (positive : 0 < self.useCount) :
    wp (dropUse control) (fun next after => Kept ghost .idle (.drop control) world after next)
      (fun _ _ => False) world := by
  refine bind_useCount found (bind_write ?_)
  have counted := sound.recount found positive
    (fun other => { other with useCount := self.useCount - 1 }) rfl rfl
  have notBefore : ¬ ghost control := by
    intro expired
    obtain ⟨old, there, zero, _⟩ := (sound.expired control).mp expired
    rw [Option.mem_unique found there, zero] at positive
    simp at positive
  refine ⟨?_, .inl ⟨rfl, id⟩⟩
  by_cases last : self.useCount = 1
  · rw [if_pos last]
    refine ⟨_, counted, ?_, fun other owns _ => ⟨fun key at' => .inl (owns key at'), ?_⟩, ?_⟩
    · rintro key ⟨⟩
      exact .inr ⟨rfl, by rw [last]⟩
    · rintro key ⟨⟩ at'
      exact notBefore (owns control at')
    · rintro key (expired | ⟨rfl, _⟩)
      · exact .inr ⟨expired, by rintro ⟨⟩⟩
      · exact .inl rfl
  · rw [if_neg last]
    have left : self.useCount - 1 ≠ 0 := by omega
    simp only [left, and_false, or_false] at counted
    exact keeps_idle counted

theorem action_spec {place : Place} (owns : discipline.owns ghost place)
    {action : Action} {program : CacheM Place} (run : action.run ipcHandleSize place = some program)
    (enabled : Enabled world action) :
    wp program (fun next after => Kept ghost place action world after next)
      (fun _ after => place = .idle → Kept ghost place action world after .idle) world := by
  cases place with
  | idle =>
    cases action with
    | getIpcDevPtr handle answers =>
      cases run
      refine wp_seq _ (wp_mono (getIpcDevPtr_spec ipcHandleSize sound answers handle)
        (fun _ _ found => found) ?_) ?_
      · rintro _ after ⟨later, finds⟩ _
        refine ⟨keeps_idle later, finds.imp_right ?_⟩
        rintro ⟨same, expired⟩
        exact ⟨by rw [same]; simp, expired⟩
      · rintro _ after ⟨later, same, fine⟩
        exact ⟨keeps_idle later, .inl ⟨same, fine⟩⟩
    | copy control =>
      cases run
      obtain ⟨self, found, positive⟩ := enabled
      exact bind_write ⟨keeps_idle (sound.addUse found positive), .inl ⟨rfl, id⟩⟩
    | drop control =>
      cases run
      obtain ⟨self, found, positive⟩ := enabled
      exact wp_mono (dropUse_spec sound found positive) (fun _ _ kept => kept)
        fun _ _ never => never.elim
    | proceed answers => exact absurd run (by simp [Action.run])
  | deleter control =>
    cases action with
    | proceed answers =>
      cases run
      refine wp_seq _ (wp_mono (deleter_spec sound answers (owns control rfl))
        (fun _ _ closed => closed) (by rintro _ _ _ ⟨⟩)) ?_
      rintro _ after ⟨later, same⟩
      refine ⟨⟨_, later, by rintro key ⟨⟩, ?_, ?_⟩, .inl ⟨same, id⟩⟩
      · intro other mine apart
        refine ⟨fun key at' => ⟨mine key at', ?_⟩, by rintro key ⟨⟩⟩
        rintro rfl
        exact apart key rfl at'
      · rintro key ⟨expired, different⟩
        refine .inr ⟨expired, ?_⟩
        rintro ⟨⟩
        exact different rfl
    | getIpcDevPtr handle answers => exact absurd run (by simp [Action.run])
    | copy control => exact absurd run (by simp [Action.run])
    | drop control => exact absurd run (by simp [Action.run])

theorem Step.kept {place next : Place} (owns : discipline.owns ghost place) {action : Action}
    (taken : Step ipcHandleSize world place action after next) :
    Kept ghost place action world after next := by
  cases taken with
  | returns program _ _ run enabled result =>
    have kept := wp_ok (action_spec sound owns run enabled) result
    exact kept
  | throws program exception _ run enabled idle result _ =>
    have kept := wp_error (action_spec sound owns run enabled) result idle
    exact kept

end Steps

/-- A handle is not looked up between the drop of the last pointer for it and the deleter of
that pointer. -/
def Orderly (state : State) : Nat × Action → Prop
  | (_, .getIpcDevPtr handle _) => ∀ thread control self, state.place thread = .deleter control →
      state.shared.controls.get? control = some self → self.handle ≠ handle
  | _ => True

def Alive (world : World) (opening : Nat) : Prop :=
  ∃ control self, world.controls.get? control = some self ∧ self.opening = opening ∧
    0 < self.useCount

def Closing (state : State) (opening : Nat) : Prop :=
  ∃ thread control self, state.place thread = .deleter control ∧
    state.shared.controls.get? control = some self ∧ self.opening = opening

structure Consistent (state : State) : Prop where
  equal : ∀ control other self second, state.shared.controls.get? control = some self →
    state.shared.controls.get? other = some second → 0 < self.useCount → 0 < second.useCount →
    self.handle = second.handle → self.ptr = second.ptr
  opened : ∀ opening ∈ state.shared.closed, opening < state.shared.opened
  once : ∀ opening < state.shared.opened,
    state.shared.closed.count opening = 0 ∧ (Alive state.shared opening ∨ Closing state opening) ∨
    state.shared.closed.count opening = 1 ∧ ¬ Alive state.shared opening ∧ ¬ Closing state opening

section Runs

variable {ipcHandleSize : Nat} {ghost : Ghost} {state after : State}

theorem sound_initial : Sound (fun _ => False) {} := by
  refine ⟨?_, rfl, ?_, ?_, ?_, ?_, ?_, ?_⟩ <;> simp

variable {allowed : State → Nat × Action → Prop}

theorem reachable_holds
    (reached : (cacheProgram ipcHandleSize).interleaved.Reachable allowed state) :
    discipline.Holds state := by
  refine Discipline.holds ?_ ?_ ?_ ?_ reached
  · rintro place other apart control at' rfl
    exact apart control rfl at'
  · rintro shared rfl
    exact ⟨fun _ => False, sound_initial, by rintro control ⟨⟩, fun _ => id⟩
  · rintro control ⟨⟩
  · intro ghost before thread action after next holds _ taken
    exact (Step.kept holds.sound (holds.owns thread) taken).keeps

theorem expiredFor_iff (holds : discipline.HoldsWith ghost state) (handle : Handle) :
    ExpiredFor state.shared handle ↔ ∃ thread control self, state.place thread = .deleter control ∧
      state.shared.controls.get? control = some self ∧ self.handle = handle := by
  have sound : Sound ghost state.shared := holds.sound
  constructor
  · rintro ⟨entry, member, rfl, self, there, zero⟩
    obtain ⟨thread, at'⟩ := holds.carried entry.2.opening
      ((sound.expired _).mpr ⟨self, there, zero, entry, member, rfl⟩)
    obtain ⟨_, second, thereToo, named⟩ := sound.cached entry member
    exact ⟨thread, _, second, at', thereToo, named⟩
  · rintro ⟨thread, control, self, at', there, rfl⟩
    obtain ⟨second, thereToo, zero, entry, member, rfl⟩ :=
      (sound.expired control).mp (holds.owns thread control at')
    obtain ⟨_, third, again, named⟩ := sound.cached entry member
    refine ⟨entry, member, ?_, second, thereToo, zero⟩
    rw [← named, Option.mem_unique again there]

theorem expires_iff (holds : discipline.HoldsWith ghost state) (label : Nat × Action) :
    Expires state.shared label.2 ↔ ¬ Orderly state label := by
  obtain ⟨thread, action⟩ := label
  cases action with
  | getIpcDevPtr handle answers =>
    simp only [Orderly, not_forall, not_not, exists_prop]
    exact expiredFor_iff holds handle
  | copy control => exact iff_of_false id (fun disorderly => disorderly trivial)
  | drop control => exact iff_of_false id (fun disorderly => disorderly trivial)
  | proceed answers => exact iff_of_false id (fun disorderly => disorderly trivial)

theorem step_finds {label : Nat × Action} (holds : discipline.Holds state)
    (fine : state.shared.missing = [])
    (taken : (cacheProgram ipcHandleSize).interleaved.step state label after) :
    after.shared.missing = [] ↔ Orderly state label := by
  obtain ⟨ghost, holds⟩ := holds
  obtain ⟨next, taken, _⟩ := taken
  have expires := expires_iff holds label
  rcases (Step.kept holds.sound (holds.owns label.1) taken).finds with ⟨same, not⟩ | ⟨found, does⟩
  · rw [same]
    exact iff_of_true fine (not_not.mp fun disorderly => not (expires.mpr disorderly))
  · exact iff_of_false found (expires.mp does)

theorem consistent_of_holds (holds : discipline.HoldsWith ghost state) : Consistent state := by
  have sound : Sound ghost state.shared := holds.sound
  have openings := sound.openings
  constructor
  · intro control other self second there thereToo used usedToo named
    obtain ⟨entry, member, ofSelf, opens⟩ := sound.alive control self there used
    obtain ⟨cached, listed, ofSecond, opensToo⟩ := sound.alive other second thereToo usedToo
    have same := sound.entry_unique member listed (by rw [ofSelf, ofSecond, named])
    rw [← opens, same, opensToo, thereToo] at there
    rw [Option.some.inj there]
  · intro opening closed
    exact mem_range.mp (openings.mem_iff.mp (mem_append_right _ closed))
  · intro opening bound
    have counted := openings.count_eq opening
    rw [count_append, count_eq_one_of_mem nodup_range (mem_range.mpr bound)] at counted
    by_cases cached : ∃ entry ∈ state.shared.ipcMemHandleToDevptr, entry.2.opening = opening
    · left
      obtain ⟨entry, member, rfl⟩ := cached
      have listed : 0 < (state.shared.ipcMemHandleToDevptr.map (·.2.opening)).count
          entry.2.opening := count_pos_iff.mpr (mem_map_of_mem member)
      refine ⟨by omega, ?_⟩
      obtain ⟨_, self, there, _⟩ := sound.cached entry member
      by_cases used : 0 < self.useCount
      · exact .inl ⟨_, self, there, sound.opening _ _ there, used⟩
      · obtain ⟨thread, at'⟩ := holds.carried entry.2.opening
          ((sound.expired _).mpr ⟨self, there, by omega, entry, member, rfl⟩)
        exact .inr ⟨thread, _, self, at', there, sound.opening _ _ there⟩
    · right
      have unlisted : (state.shared.ipcMemHandleToDevptr.map (·.2.opening)).count opening = 0 := by
        rw [count_eq_zero, mem_map]
        exact cached
      refine ⟨by omega, ?_, ?_⟩
      · rintro ⟨control, self, there, rfl, used⟩
        obtain ⟨entry, member, _, opens⟩ := sound.alive control self there used
        exact cached ⟨entry, member, opens.trans (sound.opening control self there).symm⟩
      · rintro ⟨thread, control, self, at', there, rfl⟩
        obtain ⟨_, _, _, entry, member, opens⟩ :=
          (sound.expired control).mp (holds.owns thread control at')
        exact cached ⟨entry, member, opens.trans (sound.opening control self there).symm⟩

/-- Pointers agree and each opening is closed once, whatever the order of the steps; an expired
entry is found by the first step that is not orderly. -/
theorem handles_consistent (ipcHandleSize : Nat) :
    (∀ state, (cacheProgram ipcHandleSize).interleaved.Reachable (fun _ _ => True) state →
      Consistent state) ∧
    (∀ state, (cacheProgram ipcHandleSize).interleaved.Reachable Orderly state →
      state.shared.missing = []) ∧
    ∀ state label after,
      (cacheProgram ipcHandleSize).interleaved.Reachable (fun _ _ => True) state →
      state.shared.missing = [] →
      (cacheProgram ipcHandleSize).interleaved.step state label after →
      (after.shared.missing = [] ↔ Orderly state label) := by
  refine ⟨fun state reached => ?_, fun state reached => ?_, fun state label after reached fine taken =>
    step_finds (reachable_holds reached) fine taken⟩
  · obtain ⟨ghost, holds⟩ := reachable_holds reached
    exact consistent_of_holds holds
  · induction reached with
    | initial begins => rw [begins.1]
    | step before orderly taken fine =>
      exact (step_finds (reachable_holds before) fine taken).mpr orderly

def admitted (world : World) : Action → Bool
  | .copy control => (world.controls.get? control).any fun self : Control => 0 < self.useCount
  | .drop control => (world.controls.get? control).any fun self : Control => 0 < self.useCount
  | _ => true

theorem enabled_of_admitted {world : World} {action : Action}
    (admits : admitted world action = true) : Enabled world action := by
  cases action with
  | copy control => simpa [admitted, Enabled, Option.any_eq_true] using admits
  | drop control => simpa [admitted, Enabled, Option.any_eq_true] using admits
  | getIpcDevPtr handle answers => trivial
  | proceed answers => trivial

def advance (ipcHandleSize : Nat) (world : World) (place : Place) (action : Action) :
    Option (World × Place) := do
  let program ← action.run ipcHandleSize place
  if admitted world action then
    match program world with
    | .ok next after => some (after, next)
    | .error exception after =>
      if place = Place.idle ∧ ¬ exception.Fatal then some (after, Place.idle) else none
  else none

theorem step_of_advance (before : World) (place : Place) (action : Action) (after : World)
    (next : Place) (advances : advance ipcHandleSize before place action = some (after, next)) :
    (cacheProgram ipcHandleSize).step before place action after next := by
  obtain ⟨program, run, advances⟩ := Option.bind_eq_some_iff.mp advances
  split at advances
  · rename_i admits
    have enabled := enabled_of_admitted admits
    cases result : program before with
    | ok value world =>
      simp only [result, Option.some.injEq, Prod.mk.injEq] at advances
      obtain ⟨rfl, rfl⟩ := advances
      exact .returns program _ _ run enabled result
    | error exception world =>
      simp only [result] at advances
      split at advances
      · rename_i throws
        simp only [Option.some.injEq, Prod.mk.injEq] at advances
        obtain ⟨rfl, rfl⟩ := advances
        exact .throws program exception _ run enabled throws.1 result throws.2
      · simp at advances
  · simp at advances

def finalState (guard : State → Nat × Action → Bool) (labels : List (Nat × Action)) : State :=
  (System.runs (turn (advance 2)) guard ⟨{}, fun _ => .idle⟩ labels).getD ⟨{}, fun _ => .idle⟩

theorem reachable_finalState (guard : State → Nat × Action → Bool) (labels : List (Nat × Action))
    (ends : (System.runs (turn (advance 2)) guard ⟨{}, fun _ => .idle⟩ labels).isSome = true)
    (allow : ∀ state label, (cacheProgram 2).interleaved.Reachable (fun _ _ => True) state →
      guard state label = true → allowed state label) :
    (cacheProgram 2).interleaved.Reachable allowed (finalState guard labels) := by
  have start : (cacheProgram 2).interleaved.Reachable (fun state label => guard state label = true)
      ⟨{}, fun _ => .idle⟩ := .initial ⟨rfl, fun _ => rfl⟩
  exact (start.ended (step_of_turn step_of_advance) (fun _ _ => id) ends _).strengthen
    (fun _ => .initial) (fun _ _ _ reached _ taken => .step reached trivial taken) allow

def looksUp : Action := .getIpcDevPtr [7, 7] { ipcOpenMemHandle := fun _ => some 4096 }

/-- Thread 1 finds the handle that thread 0 has opened and drops the last pointer; then the handle is
opened again. -/
theorem handles_consistent_sample :
    let final := finalState (fun state label => match label.2 with
        | .getIpcDevPtr handle _ => (state.shared.ipcMemHandleToDevptr.lookup handle).all
          fun entry => (state.shared.controls.get? entry.opening).all (0 < ·.useCount)
        | _ => true)
      [(0, looksUp), (1, looksUp), (0, .copy 0), (0, .drop 0), (0, .drop 0), (1, .drop 0),
        (1, .proceed {}), (0, looksUp)]
    final.shared.missing = [] ∧ final.shared.closed = [0] ∧ final.shared.opened = 2 := by
  refine ⟨(handles_consistent 2).2.1 _ (reachable_finalState _ _ (by decide +kernel) ?_),
    by decide +kernel⟩
  rintro state ⟨thread, action⟩ reached passes
  cases action with
  | getIpcDevPtr handle answers =>
    intro other control self deleting there same
    obtain ⟨ghost, holds⟩ := reachable_holds reached
    obtain ⟨_, there', zero, entry, member, rfl⟩ :=
      (holds.sound.expired control).mp (holds.owns other control deleting)
    obtain ⟨_, _, there'', named⟩ := holds.sound.cached entry member
    rw [Option.mem_unique there'' there, same] at named
    simp [named, holds.sound.lookup member, there', zero] at passes
  | copy control => trivial
  | drop control => trivial
  | proceed answers => trivial

theorem handles_not_consistent : ¬ ∀ state,
    (cacheProgram 2).interleaved.Reachable (fun _ _ => True) state → state.shared.missing = [] := by
  intro all
  have fine := all _ (reachable_finalState (fun _ _ => true)
    [(0, looksUp), (0, .drop 0), (1, looksUp)] (by decide +kernel) fun _ _ _ _ => trivial)
  exact absurd fine (by decide +kernel)

end Runs

end TorchSupa.HandleCache
