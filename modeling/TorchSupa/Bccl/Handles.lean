import TorchSupa.Bccl.BCCLComm
import Mathlib.Data.List.Nodup

/-!
The handles of the segments that communicators have registered, and the books that the library
could keep of them, as long as its calls succeed.
-/

namespace TorchSupa.Bccl

open Outcome List

def Library.Healthy (library : Library) : Prop := ∀ tick, library.result tick = .success

def World.handles (world : World) (id : Nat) : List (Nat × SegmentHandle) :=
  ((world.comms.get? id).map (·.registeredSegmentHandles)).getD []

def World.deviceOf (world : World) (id : Nat) : Option Int :=
  (world.comms.get? id).map (·.deviceIndex)

def World.Alive (world : World) (id : Nat) : Prop :=
  ∃ comm, world.comms.get? id = some comm ∧ comm.aborted = false

def LibraryCall.made : LibraryCall → Option SegmentHandle
  | .register _ _ _ handle => some handle
  | _ => none

def LibraryCall.returned : LibraryCall → Option (SegmentHandle × Bool)
  | .deregister _ handle window => some (handle, window)
  | _ => none

def World.made (world : World) : List SegmentHandle := world.calls.filterMap LibraryCall.made

def World.returned (world : World) : List (SegmentHandle × Bool) :=
  world.calls.filterMap LibraryCall.returned

structure Ledger (world : World) : Prop where
  known : ∀ id, ∀ entry ∈ world.handles id, entry.2.id < world.nextHandle
  own : ∀ id other, ∀ entry ∈ world.handles id, ∀ member ∈ world.handles other,
    entry.2.id = member.2.id → id = other ∧ entry.1 = member.1
  single : ∀ id, ((world.handles id).map (·.1)).Nodup
  past : ∀ back ∈ world.returned, back.1.id < world.nextHandle ∧
    ∀ id, ∀ entry ∈ world.handles id, entry.2.id ≠ back.1.id
  once : (world.returned.map (·.1.id)).Nodup
  matching : ∀ back ∈ world.returned, back.2 = back.1.window
  kept : ∀ handle ∈ world.made, (∃ id, ∃ entry ∈ world.handles id, entry.2 = handle) ∨
    ∃ window, (handle, window) ∈ world.returned

structure Changed (id : Nat) (handles : List (Nat × SegmentHandle)) (before after : World) :
    Prop where
  here : after.handles id = handles
  others : ∀ other, other ≠ id → after.handles other = before.handles other
  device : ∀ other, after.deviceOf other = before.deviceOf other
  alive : ∀ other, before.Alive other → after.Alive other

section Rules

variable {library : Library} {world : World} {id : Nat} {comm : BCCLComm} {α : Type}
  {normal : α → World → Prop} {thrown : Exn → World → Prop}

theorem bind_deref {next : BCCLComm → M α} (found : world.comms.get? id = some comm)
    (spec : wp (next comm) normal thrown world) : wp (deref id >>= next) normal thrown world := by
  unfold deref
  rw [wp_bind, wp_bind, wp_get, found]
  exact spec

theorem wp_update {change : BCCLComm → BCCLComm} {normal : Unit → World → Prop}
    (found : world.comms.get? id = some comm)
    (spec : normal ⟨⟩ { world with comms := world.comms.modify id change }) :
    wp (update id change) normal thrown world := by
  unfold update
  rw [wp_bind, wp_get, found]
  exact spec

theorem wp_bcclCheck {normal : Unit → World → Prop} (healthy : library.Healthy)
    (spec : normal ⟨⟩ { world with tick := world.tick + 1 }) :
    wp (bcclCheck library) normal thrown world := by
  unfold bcclCheck callFailure nextTick
  simp only [wp_bind, wp_get, wp_modify, wp_pure]
  rw [healthy, if_pos rfl]
  exact spec

theorem bind_bcclCheck {next : PUnit → M α} (healthy : library.Healthy)
    (spec : wp (next ⟨⟩) normal thrown { world with tick := world.tick + 1 }) :
    wp (bcclCheck library >>= next) normal thrown world :=
  (wp_bind _ _).mpr (wp_bcclCheck healthy spec)

theorem awaitedFailure_healthy {normal : Option String → World → Prop} (healthy : library.Healthy)
    (spec : normal none { world with tick := world.tick + 1 }) :
    wp (awaitedFailure library) normal thrown world := by
  unfold awaitedFailure nextTick
  simp only [wp_bind, wp_get, wp_modify, wp_pure]
  rw [healthy]
  exact spec

end Rules

section Changes

variable {world after : World} {id : Nat} {comm : BCCLComm}

open World

open Store

theorem changed_modify (change : BCCLComm → BCCLComm) (found : world.comms.get? id = some comm)
    (comms : after.comms = world.comms.modify id change)
    (device : (change comm).deviceIndex = comm.deviceIndex)
    (alive : (change comm).aborted = comm.aborted) :
    Changed id (change comm).registeredSegmentHandles world after where
  here := by
    rw [handles, comms, get?_modify_found found]
    rfl
  others := fun other different => by
    rw [handles, comms, get?_modify_of_ne _ different]
    rfl
  device := fun other => by
    by_cases same : other = id
    · rw [same, deviceOf, deviceOf, comms, get?_modify_found found, found, Option.map_some,
        Option.map_some, device]
    · rw [deviceOf, comms, get?_modify_of_ne _ same]
      rfl
  alive := fun other ⟨member, there, live⟩ => by
    by_cases same : other = id
    · subst same
      obtain rfl := Option.mem_unique found there
      exact ⟨change comm, by rw [comms]; exact get?_modify_found found _, alive.trans live⟩
    · exact ⟨member, by rw [comms, get?_modify_of_ne _ same]; exact there, live⟩

theorem Changed.trans {between : World} {first second : List (Nat × SegmentHandle)}
    (before : Changed id first world between) (later : Changed id second between after) :
    Changed id second world after where
  here := later.here
  others := fun other different => (later.others other different).trans (before.others other different)
  device := fun other => (later.device other).trans (before.device other)
  alive := fun other alive => later.alive other (before.alive other alive)

theorem handles_of_get? (found : world.comms.get? id = some comm) :
    world.handles id = comm.registeredSegmentHandles := by
  rw [handles, found]
  rfl

theorem Ledger.congr (ledger : Ledger world) (handles : ∀ id, after.handles id = world.handles id)
    (calls : after.calls = world.calls) (next : after.nextHandle = world.nextHandle) :
    Ledger after := by
  have made : after.made = world.made := by rw [made, calls]; rfl
  have returned : after.returned = world.returned := by rw [returned, calls]; rfl
  constructor
  · intro id
    rw [handles, next]
    exact ledger.known id
  · intro id other
    rw [handles, handles]
    exact ledger.own id other
  · intro id
    rw [handles]
    exact ledger.single id
  · intro back member
    rw [returned] at member
    obtain ⟨below, unheld⟩ := ledger.past back member
    exact ⟨next ▸ below, fun id => handles id ▸ unheld id⟩
  · rw [returned]
    exact ledger.once
  · rw [returned]
    exact ledger.matching
  · intro handle member
    rw [made] at member
    rcases ledger.kept handle member with ⟨id, held⟩ | back
    · exact .inl ⟨id, handles id ▸ held⟩
    · rw [returned]
      exact .inr back

theorem Ledger.add {ptr size : Nat} {handle : SegmentHandle} (device : Option Nat)
    (ledger : Ledger world) (new : handle.id = world.nextHandle)
    (changed : Changed id ((ptr, handle) :: world.handles id) world after)
    (absent : ∀ entry ∈ world.handles id, entry.1 ≠ ptr)
    (calls : after.calls = .register device ptr size handle :: world.calls)
    (next : after.nextHandle = world.nextHandle + 1) : Ledger after := by
  have returned : after.returned = world.returned := by rw [returned, calls]; rfl
  have made : after.made = handle :: world.made := by
    rw [made, calls]
    rfl
  have held : ∀ {other entry}, entry ∈ after.handles other →
      other = id ∧ entry = (ptr, handle) ∨ entry ∈ world.handles other := by
    intro other entry member
    by_cases same : other = id
    · rw [same, changed.here] at member
      rcases mem_cons.mp member with new | old
      · exact .inl ⟨same, new⟩
      · exact .inr (same ▸ old)
    · rw [changed.others other same] at member
      exact .inr member
  have grows : ∀ {other entry}, entry ∈ world.handles other → entry ∈ after.handles other := by
    intro other entry member
    by_cases same : other = id
    · subst same
      rw [changed.here]
      exact .tail _ member
    · rw [changed.others other same]
      exact member
  constructor
  · intro other entry member
    rw [next]
    rcases held member with ⟨_, rfl⟩ | old
    · exact new ▸ Nat.lt_succ_self _
    · exact Nat.lt_succ_of_lt (ledger.known other entry old)
  · intro first second entry member partner also agree
    rcases held member with ⟨rfl, rfl⟩ | old
    · rcases held also with ⟨rfl, rfl⟩ | aged
      · exact ⟨rfl, rfl⟩
      · exact absurd (agree.symm.trans new) (Nat.ne_of_lt (ledger.known second partner aged))
    · rcases held also with ⟨rfl, rfl⟩ | aged
      · exact absurd (agree.trans new) (Nat.ne_of_lt (ledger.known first entry old))
      · exact ledger.own first second entry old partner aged agree
  · intro other
    by_cases same : other = id
    · rw [same, changed.here]
      refine nodup_cons.mpr ⟨fun there => ?_, ledger.single id⟩
      obtain ⟨entry, member, same⟩ := mem_map.mp there
      exact absent entry member same
    · rw [changed.others other same]
      exact ledger.single other
  · intro back member
    rw [returned] at member
    obtain ⟨below, unheld⟩ := ledger.past back member
    refine ⟨next ▸ Nat.lt_succ_of_lt below, fun other entry there agree => ?_⟩
    rcases held there with ⟨_, rfl⟩ | old
    · exact absurd (agree.symm.trans new) (Nat.ne_of_lt below)
    · exact unheld other entry old agree
  · rw [returned]
    exact ledger.once
  · rw [returned]
    exact ledger.matching
  · intro other member
    rw [made] at member
    rw [returned]
    rcases mem_cons.mp member with same | old
    · refine .inl ⟨id, (ptr, handle), ?_, same.symm⟩
      rw [changed.here]
      exact .head _
    · exact (ledger.kept other old).imp_left fun ⟨owner, entry, there, same⟩ =>
        ⟨owner, entry, grows there, same⟩

theorem Ledger.give {ptr : Nat} {handle : SegmentHandle} (device : Option Nat)
    (ledger : Ledger world)
    (changed : Changed id ((world.handles id).filter fun other => other.1 != ptr) world after)
    (holds : (ptr, handle) ∈ world.handles id)
    (calls : after.calls = .deregister device handle handle.window :: world.calls)
    (next : after.nextHandle = world.nextHandle) : Ledger after := by
  have returned : after.returned = (handle, handle.window) :: world.returned := by
    rw [returned, calls]
    rfl
  have made : after.made = world.made := by rw [made, calls]; rfl
  have held : ∀ {other entry}, entry ∈ after.handles other →
      entry ∈ world.handles other ∧ (other = id → entry.1 ≠ ptr) := by
    intro other entry member
    by_cases same : other = id
    · subst same
      rw [changed.here, mem_filter] at member
      exact ⟨member.1, fun _ => by simpa using member.2⟩
    · rw [changed.others other same] at member
      exact ⟨member, fun here => absurd here same⟩
  constructor
  · intro other entry member
    rw [next]
    exact ledger.known other entry (held member).1
  · intro first second entry member partner also agree
    exact ledger.own first second entry (held member).1 partner (held also).1 agree
  · intro other
    by_cases same : other = id
    · rw [same, changed.here]
      exact (ledger.single id).sublist (filter_sublist.map _)
    · rw [changed.others other same]
      exact ledger.single other
  · intro back member
    rw [next]
    rw [returned] at member
    rcases mem_cons.mp member with rfl | old
    · refine ⟨ledger.known id _ holds, fun other entry there agree => ?_⟩
      obtain ⟨old, away⟩ := held there
      obtain ⟨here, same⟩ := ledger.own other id entry old _ holds agree
      exact away here same
    · obtain ⟨below, unheld⟩ := ledger.past back old
      exact ⟨below, fun other entry there => unheld other entry (held there).1⟩
  · rw [returned]
    refine nodup_cons.mpr ⟨fun there => ?_, ledger.once⟩
    obtain ⟨back, member, same⟩ := mem_map.mp there
    exact (ledger.past back member).2 id _ holds same.symm
  · rw [returned]
    intro back member
    rcases mem_cons.mp member with rfl | old
    · rfl
    · exact ledger.matching back old
  · intro other member
    rw [made] at member
    rw [returned]
    rcases ledger.kept other member with ⟨owner, entry, there, same⟩ | ⟨window, back⟩
    · by_cases gone : owner = id ∧ entry.1 = ptr
      · obtain ⟨rfl, here⟩ := gone
        have one : entry = (ptr, handle) :=
          inj_on_of_nodup_map (ledger.single owner) there holds here
        refine .inr ⟨handle.window, ?_⟩
        rw [← same, one]
        exact .head _
      · refine .inl ⟨owner, entry, ?_, same⟩
        by_cases here : owner = id
        · subst here
          rw [changed.here]
          exact mem_filter.mpr ⟨there, by simpa using fun now => gone ⟨rfl, now⟩⟩
        · rw [changed.others owner here]
          exact there
    · exact .inr ⟨window, mem_cons_of_mem _ back⟩

end Changes

section Specs

variable {library : Library} {world : World} {id ptr : Nat}

theorem Changed.same {before after : World} (comms : after.comms = before.comms) :
    Changed id (before.handles id) before after where
  here := by rw [World.handles, comms]; rfl
  others := fun other _ => by rw [World.handles, comms]; rfl
  device := fun other => by rw [World.deviceOf, comms]; rfl
  alive := fun other alive => by
    unfold World.Alive
    rw [comms]
    exact alive

structure Ready (id : Nat) (world after : World) : Prop where
  changed : Changed id (world.handles id) world after
  calls : after.calls = world.calls
  next : after.nextHandle = world.nextHandle

theorem getBcclComm_ready (healthy : library.Healthy) (alive : world.Alive id) :
    wp (getBcclComm library id) (fun _ after => Ready id world after) (fun _ _ => False) world := by
  obtain ⟨comm, found, live⟩ := alive
  refine bind_deref found ?_
  rw [wp_ite, if_neg (by rw [live]; decide)]
  refine wp_seq (fun _ after => after.comms = world.comms ∧ after.calls = world.calls ∧
    after.nextHandle = world.nextHandle) ?_ fun _ after ⟨comms, calls, next⟩ => ?_
  · unfold ensureReady
    rw [wp_ite]
    split
    · unfold waitReady
      refine bind_deref found ?_
      rw [wp_ite, if_neg (by rw [live]; decide)]
      unfold bcclCheckTimeout
      rw [wp_bind]
      exact awaitedFailure_healthy healthy ⟨rfl, rfl, rfl⟩
    · exact ⟨rfl, rfl, rfl⟩
  · have there : after.comms.get? id = some comm := by rw [comms]; exact found
    rw [wp_bind]
    refine wp_update there ⟨?_, calls, next⟩
    rw [handles_of_get? found]
    exact changed_modify (fun self => { self with initialized := true }) found
      (congrArg (Store.modify · id _) comms) rfl rfl

def Joins (ptr : Nat) (window : Bool) (before after : List (Nat × SegmentHandle)) : Prop :=
  (∃ entry ∈ before, entry.1 = ptr) ∧ after = before ∨
    (∀ entry ∈ before, entry.1 ≠ ptr) ∧ ∃ handle : SegmentHandle, handle.window = window ∧
      after = (ptr, handle) :: before

section

variable (healthy : library.Healthy)
include healthy

theorem registerSegment_spec {size : Nat} {errorOnRereg window : Bool}
    (ledger : Ledger world) (alive : world.Alive id)
    (fresh : errorOnRereg = true → ∀ entry ∈ world.handles id, entry.1 ≠ ptr) :
    wp (registerSegment library id ptr size errorOnRereg window)
      (fun _ after => Ledger after ∧ ∃ handles, Changed id handles world after ∧
        Joins ptr window (world.handles id) handles) (fun _ _ => False) world := by
  obtain ⟨comm, found, live⟩ := alive
  have own := handles_of_get? found
  refine bind_deref found ?_
  rw [wp_ite]
  split
  · next has =>
      obtain ⟨entry, member, same⟩ := any_eq_true.mp has
      have same : entry.1 = ptr := by simpa using same
      rw [← own] at member
      have again : errorOnRereg = false := by
        cases errorOnRereg with
        | false => rfl
        | true => exact absurd same (fresh rfl entry member)
      rw [again]
      exact ⟨ledger, _, .same rfl, .inl ⟨⟨entry, member, same⟩, rfl⟩⟩
  · next lacks =>
      have absent : ∀ entry ∈ world.handles id, entry.1 ≠ ptr := by
        intro entry member same
        rw [own] at member
        exact lacks (any_eq_true.mpr ⟨entry, member, by simpa using same⟩)
      rw [wp_bind]
      refine wp_mono (getBcclComm_ready healthy ⟨comm, found, live⟩) (fun bcclComm ready same => ?_)
        fun _ _ failed => failed
      refine bind_bcclCheck healthy (bind_read (bind_write ?_))
      refine bind_write ?_
      obtain ⟨member, there, _⟩ := same.changed.alive id ⟨comm, found, live⟩
      refine wp_update there ?_
      have held : member.registeredSegmentHandles = world.handles id :=
        (handles_of_get? there).symm.trans same.changed.here
      have adds : Changed id ((ptr, ⟨ready.nextHandle, window⟩) :: member.registeredSegmentHandles)
          ready { ready with
            tick := ready.tick + 1
            nextHandle := ready.nextHandle + 1
            calls := .register bcclComm ptr size ⟨ready.nextHandle, window⟩ :: ready.calls
            comms := ready.comms.modify id fun self => { self with
              registeredSegmentHandles := (ptr, ⟨ready.nextHandle, window⟩) ::
                self.registeredSegmentHandles } } :=
        changed_modify (fun self => { self with
          registeredSegmentHandles := (ptr, ⟨ready.nextHandle, window⟩) ::
            self.registeredSegmentHandles }) there rfl rfl rfl
      rw [held] at adds
      have changed := same.changed.trans adds
      have calls : LibraryCall.register bcclComm ptr size ⟨ready.nextHandle, window⟩ :: ready.calls =
          .register bcclComm ptr size ⟨ready.nextHandle, window⟩ :: world.calls := by
        rw [same.calls]
      exact ⟨ledger.add bcclComm same.next changed absent calls (congrArg (· + 1) same.next), _,
        changed, .inr ⟨absent, ⟨ready.nextHandle, window⟩, rfl, rfl⟩⟩

theorem deregisterSegment_spec {window : Bool} {handle : SegmentHandle}
    (ledger : Ledger world) (alive : world.Alive id) (holds : (ptr, handle) ∈ world.handles id)
    (matching : window = handle.window) :
    wp (deregisterSegment library id ptr window) (fun _ after => Ledger after ∧
        Changed id ((world.handles id).filter fun other => other.1 != ptr) world after)
      (fun _ _ => False) world := by
  obtain ⟨comm, found, live⟩ := alive
  have own := handles_of_get? found
  refine bind_deref found ?_
  have finds : comm.registeredSegmentHandles.find? (·.1 == ptr) = some (ptr, handle) := by
    rw [← own]
    cases first : (world.handles id).find? (·.1 == ptr) with
    | none =>
      have none_ := find?_eq_none.mp first (ptr, handle) holds
      simp at none_
    | some entry =>
      have same : entry.1 = ptr := by simpa using find?_some first
      rw [inj_on_of_nodup_map (ledger.single id) (mem_of_find?_eq_some first) holds same]
  rw [finds]
  rw [wp_bind]
  refine wp_mono (getBcclComm_ready healthy ⟨comm, found, live⟩) (fun bcclComm ready same => ?_)
    fun _ _ failed => failed
  refine bind_write (bind_bcclCheck healthy ?_)
  obtain ⟨member, there, _⟩ := same.changed.alive id ⟨comm, found, live⟩
  refine wp_update there ?_
  have held : member.registeredSegmentHandles = world.handles id :=
    (handles_of_get? there).symm.trans same.changed.here
  have removes : Changed id (member.registeredSegmentHandles.filter fun other => other.1 != ptr)
      ready { ready with
        tick := ready.tick + 1
        calls := .deregister bcclComm handle window :: ready.calls
        comms := ready.comms.modify id fun self => { self with
          registeredSegmentHandles :=
            self.registeredSegmentHandles.filter fun other => other.1 != ptr } } :=
    changed_modify (fun self => { self with
      registeredSegmentHandles :=
        self.registeredSegmentHandles.filter fun other => other.1 != ptr }) there rfl rfl rfl
  rw [held] at removes
  have changed := same.changed.trans removes
  have calls : LibraryCall.deregister bcclComm handle window :: ready.calls =
      .deregister bcclComm handle handle.window :: world.calls := by
    rw [same.calls, matching]
  exact ⟨ledger.give bcclComm changed holds calls same.next, changed⟩

theorem createConfig_spec {rank device : Int} {blocking : Bool} (ledger : Ledger world) :
    wp (createConfig library rank device blocking) (fun made after => Ledger after ∧
      made = world.comms.fresh ∧ after.handles made = [] ∧ after.deviceOf made = some device ∧
      after.Alive made ∧ ∀ other, other ≠ made → after.handles other = world.handles other ∧
        after.deviceOf other = world.deviceOf other ∧ (world.Alive other → after.Alive other))
      (fun _ _ => False) world := by
  unfold createConfig bcclCheckNonblocking nextTick
  simp only [wp_bind, wp_get, wp_modify, wp_pure]
  rw [healthy, if_neg (by decide), wp_pure, wp_set]
  have there : ∀ {object : BCCLComm}, (world.comms.push object).get? world.comms.fresh =
      some object := by
    intro object
    rw [Store.get?_push, if_pos rfl]
  have elsewhere : ∀ {object : BCCLComm} {other : Nat}, other ≠ world.comms.fresh →
      (world.comms.push object).get? other = world.comms.get? other := by
    intro object other different
    rw [Store.get?_push, if_neg different]
  have handles : ∀ {object : BCCLComm} {tick next : Nat} other, object.registeredSegmentHandles = [] →
      ({ world with
        tick
        nextComm := next
        comms := world.comms.push object } : World).handles other = world.handles other := by
    intro object tick next other empty
    unfold World.handles
    by_cases same : other = world.comms.fresh
    · rw [same, there, Store.get?_fresh, Option.map_some, empty]
      rfl
    · rw [elsewhere same]
  refine ⟨ledger.congr (fun other => handles other rfl) rfl rfl, rfl, ?_, ?_, ?_, fun other different =>
    ⟨handles other rfl, ?_, fun ⟨member, found, live⟩ => ⟨member, ?_, live⟩⟩⟩
  · rw [handles _ rfl, World.handles, Store.get?_fresh]
    rfl
  · rw [World.deviceOf, there]
    rfl
  · exact ⟨_, there, rfl⟩
  · rw [World.deviceOf, elsewhere different]
    rfl
  · rw [elsewhere different]
    exact found

theorem deregisterAll_plain (device : Option Nat) :
    ∀ (entries : List (Nat × SegmentHandle)) (world : World),
      wp (deregisterAll library device entries) (fun _ after => after.comms = world.comms ∧
        after.nextHandle = world.nextHandle ∧
        after.calls = (entries.map fun entry => .deregister device entry.2 false).reverse ++
          world.calls) (fun _ _ => False) world := by
  intro entries
  induction entries with
  | nil => exact fun world => ⟨rfl, rfl, rfl⟩
  | cons entry rest ih =>
    intro world
    unfold deregisterAll forEach logCall
    rw [wp_bind]
    refine bind_write (wp_bcclCheck healthy ?_)
    refine wp_mono (ih _) (fun _ after ran => ?_) fun _ _ failed => failed
    obtain ⟨comms, next, calls⟩ := ran
    refine ⟨comms, next, ?_⟩
    rw [calls, map_cons, reverse_cons, append_assoc]
    rfl

end

theorem Ledger.clear {after : World} (ledger : Ledger world)
    (plain : ∀ entry ∈ world.handles id, entry.2.window = false) (empty : after.handles id = [])
    (others : ∀ other, other ≠ id → after.handles other = world.handles other)
    (made : after.made = world.made)
    (returned : after.returned =
      ((world.handles id).map fun entry => (entry.2, false)).reverse ++ world.returned)
    (next : after.nextHandle = world.nextHandle) : Ledger after := by
  have held : ∀ {other entry}, entry ∈ after.handles other →
      entry ∈ world.handles other ∧ other ≠ id := by
    intro other entry member
    by_cases same : other = id
    · rw [same, empty] at member
      cases member
    · exact ⟨others other same ▸ member, same⟩
  have back : ∀ {pair}, pair ∈ after.returned →
      (∃ entry ∈ world.handles id, pair = (entry.2, false)) ∨ pair ∈ world.returned := by
    intro pair member
    rw [returned] at member
    rcases mem_append.mp member with new | old
    · obtain ⟨entry, there, same⟩ := mem_map.mp (mem_reverse.mp new)
      exact .inl ⟨entry, there, same.symm⟩
    · exact .inr old
  constructor
  · intro other entry member
    rw [next]
    exact ledger.known other entry (held member).1
  · intro first second entry member partner also agree
    exact ledger.own first second entry (held member).1 partner (held also).1 agree
  · intro other
    by_cases same : other = id
    · rw [same, empty]
      exact nodup_nil
    · rw [others other same]
      exact ledger.single other
  · intro pair member
    rw [next]
    rcases back member with ⟨entry, there, rfl⟩ | old
    · refine ⟨ledger.known id entry there, fun other member also agree => ?_⟩
      obtain ⟨aged, away⟩ := held also
      exact away (ledger.own other id member aged entry there agree).1
    · obtain ⟨below, unheld⟩ := ledger.past pair old
      exact ⟨below, fun other entry there => unheld other entry (held there).1⟩
  · rw [returned, map_append, map_reverse, map_map]
    refine nodup_append.mpr ⟨nodup_reverse.mpr ?_, ledger.once, ?_⟩
    · refine Nodup.map_on (fun entry member other also agree => ?_) (ledger.single id).of_map
      exact inj_on_of_nodup_map (ledger.single id) member also
        (ledger.own id id entry member other also agree).2
    · rintro number new _ old rfl
      obtain ⟨entry, there, rfl⟩ := mem_map.mp (mem_reverse.mp new)
      obtain ⟨pair, member, same⟩ := mem_map.mp old
      exact (ledger.past pair member).2 id entry there same.symm
  · intro pair member
    rcases back member with ⟨entry, there, rfl⟩ | old
    · exact (plain entry there).symm
    · exact ledger.matching pair old
  · intro handle member
    rw [made] at member
    rw [returned]
    rcases ledger.kept handle member with ⟨owner, entry, there, same⟩ | ⟨window, old⟩
    · by_cases here : owner = id
      · subst here
        refine .inr ⟨false, mem_append_left _ (mem_reverse.mpr ?_)⟩
        exact mem_map.mpr ⟨entry, there, by rw [same]⟩
      · exact .inl ⟨owner, entry, others owner here ▸ there, same⟩
    · exact .inr ⟨window, mem_append_right _ old⟩

theorem made_of_deregisters (device : Option Nat) (entries : List (Nat × SegmentHandle)) :
    (entries.map fun entry => LibraryCall.deregister device entry.2 false).reverse.filterMap
      LibraryCall.made = [] := by
  refine filterMap_eq_nil_iff.mpr fun call member => ?_
  obtain ⟨entry, _, rfl⟩ := mem_map.mp (mem_reverse.mp member)
  rfl

theorem returned_of_deregisters (device : Option Nat) (entries : List (Nat × SegmentHandle)) :
    (entries.map fun entry => LibraryCall.deregister device entry.2 false).reverse.filterMap
      LibraryCall.returned = (entries.map fun entry => (entry.2, false)).reverse := by
  induction entries with
  | nil => rfl
  | cons entry rest ih =>
    rw [map_cons, reverse_cons, filterMap_append, ih, map_cons, reverse_cons]
    rfl

theorem abort_plain {reason : Option String} (healthy : library.Healthy) (ledger : Ledger world)
    {comm : BCCLComm} (found : world.comms.get? id = some comm)
    (plain : ∀ entry ∈ world.handles id, entry.2.window = false)
    (emptied : comm.aborted = true → world.handles id = []) :
    wp (abort library id reason) (fun _ after => Ledger after ∧ after.handles id = [] ∧
      (∀ other, other ≠ id → after.handles other = world.handles other ∧
        (world.Alive other → after.Alive other)) ∧
      (∀ other, after.deviceOf other = world.deviceOf other)) (fun _ _ => False) world := by
  have own := handles_of_get? found
  refine bind_deref found ?_
  rw [wp_ite]
  split
  · next aborted =>
      refine (wp_modify _).mpr ?_
      have none_ := emptied (Bool.and_eq_true_iff.mp aborted).1
      exact ⟨ledger.congr (fun _ => rfl) rfl rfl, none_, fun _ _ => ⟨rfl, fun alive => alive⟩,
        fun _ => rfl⟩
  · rw [wp_bind]
    refine wp_mono (deregisterAll_plain healthy comm.bcclComm comm.registeredSegmentHandles world)
      (fun _ returned given => ?_) fun _ _ failed => failed
    obtain ⟨comms, next, calls⟩ := given
    have there : returned.comms.get? id = some comm := by rw [comms]; exact found
    rw [wp_bind]
    refine wp_update there ?_
    rw [wp_bind]
    refine awaitedFailure_healthy healthy ?_
    refine bind_write ?_
    change wp (update id _ >>= _) _ _ _
    rw [wp_bind]
    refine wp_update (Store.get?_modify_found there _) ((wp_modify _).mpr ?_)
    have elsewhere : ∀ {first second : BCCLComm → BCCLComm} {other : Nat}, other ≠ id →
        ((returned.comms.modify id first).modify id second).get? other = world.comms.get? other := by
      intro first second other different
      rw [Store.get?_modify_of_ne _ different, Store.get?_modify_of_ne _ different, comms]
    have here : ∀ {first second : BCCLComm → BCCLComm},
        ((returned.comms.modify id first).modify id second).get? id = some (second (first comm)) :=
      Store.get?_modify_found (Store.get?_modify_found there _) _
    have empty : ∀ {after : World} {first second : BCCLComm → BCCLComm},
        after.comms = (returned.comms.modify id first).modify id second →
        (second (first comm)).registeredSegmentHandles = [] → after.handles id = [] := by
      intro after first second same none_
      rw [World.handles, same, here, Option.map_some, none_]
      rfl
    have others : ∀ {after : World} {first second : BCCLComm → BCCLComm} {other : Nat},
        after.comms = (returned.comms.modify id first).modify id second → other ≠ id →
        after.handles other = world.handles other := by
      intro after first second other same different
      rw [World.handles, same, elsewhere different]
      rfl
    refine ⟨ledger.clear plain (empty rfl rfl) (fun other => others rfl) ?_ ?_ next, empty rfl rfl,
      fun other different => ⟨others rfl different, fun ⟨member, known, live⟩ => ⟨member, ?_, live⟩⟩,
      fun other => ?_⟩
    · change (LibraryCall.abort _ _ :: returned.calls).filterMap LibraryCall.made = _
      rw [calls, filterMap_cons_none rfl, filterMap_append, made_of_deregisters]
      rfl
    · change (LibraryCall.abort _ _ :: returned.calls).filterMap LibraryCall.returned = _
      rw [calls, filterMap_cons_none rfl, filterMap_append, returned_of_deregisters, own]
      rfl
    · exact (elsewhere different).trans known
    · by_cases same : other = id
      · rw [same, World.deviceOf, World.deviceOf, here, found]
        rfl
      · rw [World.deviceOf, elsewhere same]
        rfl

end Specs

end TorchSupa.Bccl
