import TorchSupa.Bccl.Handles
import TorchSupa.Distributed.MemPools

/-!
What the communicators have registered against the segments that are live: in which runs a
communicator has registered the segments of a pool and no others while the pool is registered
with it, and gives each handle back once, in time and with the API that made it.
-/

namespace TorchSupa.Distributed.Pools

open Outcome

abbrev Handles := List (Nat × Bccl.SegmentHandle)

def Registry.holds (self : Registry) (bcclComm ptr : Nat) : Prop :=
  ∃ held ∈ self.bccl.handles bcclComm, held.1 = ptr

structure WellRegistered (registry : Registry) : Prop where
  exact : ∀ bcclComm pool, (bcclComm, pool) ∈ registry.registrations → ∀ ptr,
    registry.holds bcclComm ptr ↔ ∃ segment ∈ registry.segments, segment.ptr = ptr ∧
      segment.pool = pool ∧ registry.bccl.deviceOf bcclComm = some segment.device
  -- no memory was freed or unmapped while it was registered
  live : ∀ bcclComm ptr, registry.holds bcclComm ptr → ∃ segment ∈ registry.segments, segment.ptr = ptr
  once : (registry.bccl.returned.map (·.1.id)).Nodup
  matching : ∀ back ∈ registry.bccl.returned, back.2 = back.1.window
  kept : ∀ handle ∈ registry.bccl.made, (∃ bcclComm, ∃ held ∈ registry.bccl.handles bcclComm,
    held.2 = handle) ∨ ∃ window, (handle, window) ∈ registry.bccl.returned

def Registry.Makes (self : Registry) (group : Nat) (key : CommKey) (device : Int)
    (making : Making) : Prop :=
  self.useTensorRegisterAllocatorHook = true → (self.devBCCLCommMap group).lookup key = none →
    ∀ segment ∈ self.snapshot making.activeMemPool, segment.device = device

def Registry.Resides (self : Registry) (pool : MemPool) : Prop :=
  ∀ segment ∈ self.segments, segment.pool = pool.id → segment.device = pool.device

/-- Pools are registered where the hooks are in use, or do not change while they are registered.
With the hooks all segments of the device are of the pool. -/
def KeepsRegistered (library : Bccl.Library) (self : Registry) (event : Event) : Prop :=
  library.Healthy ∧ match event with
  | .initBCCLComm group key device making => self.Makes group key device making
  | .registerMemPool group pool symm making =>
    self.Makes group (.device pool.device) pool.device making ∧ self.Resides pool ∧
    (∀ bcclComm, (self.devBCCLCommMap group).lookup (.device pool.device) = some bcclComm →
      ∀ other, (bcclComm, other) ∉ self.registrations) ∧
    (self.useTensorRegisterAllocatorHook = true → ∀ segment ∈ self.segments,
      segment.device = pool.device → segment.pool = pool.id ∧ symm = false)
  | .deregisterMemPool group pool making =>
    self.Makes group (.device pool.device) pool.device making ∧ self.Resides pool
  | .abortComms group _ => ∀ entry ∈ self.devBCCLCommMap group,
      ∀ held ∈ self.bccl.handles entry.2, held.2.window = false
  | .abortWork bcclComm => ∀ held ∈ self.bccl.handles bcclComm, held.2.window = false
  | .allocate segment => ∀ bcclComm pool, (bcclComm, pool) ∈ self.registrations →
      self.bccl.deviceOf bcclComm = some segment.device →
      (segment.pool = pool ↔ self.useTensorRegisterAllocatorHook = true)
  | .release segment =>
    if self.useTensorRegisterAllocatorHook then ∀ entry ∈ self.bcclCommMemPoolMap,
      self.bccl.deviceOf entry.1 = some segment.device → self.holds entry.1 segment.ptr
    else ∀ bcclComm pool, (bcclComm, pool) ∈ self.registrations →
      self.bccl.deviceOf bcclComm = some segment.device → segment.pool ≠ pool
  | _ => True

def MemPoolSet.window (memPools : MemPoolSet) (pool : MempoolId) : Bool :=
  (memPools.find? (·.1 == pool)).any (·.2)

structure Kept (hooked : Bool) (segments : List Segment) (device : Int) (memPools : MemPoolSet)
    (handles : Handles) : Prop where
  one : memPools.length ≤ 1
  proper : ∀ pool symm, (pool, symm) ∈ memPools → pool ≠ (0, 0)
  live : ∀ held ∈ handles, ∃ segment ∈ segments, segment.ptr = held.1 ∧
    segment.device = device ∧ held.2.window = memPools.window segment.pool
  only : ∀ pool symm, (pool, symm) ∈ memPools → ∀ held ∈ handles, ∀ segment ∈ segments,
    segment.ptr = held.1 → segment.pool = pool
  all : ∀ pool symm, (pool, symm) ∈ memPools → ∀ segment ∈ segments, segment.pool = pool →
    segment.device = device → ∃ held ∈ handles, held.1 = segment.ptr
  idle : hooked = false → memPools = [] → handles = []

structure Booked (registry : Registry) : Prop where
  ledger : Bccl.Ledger registry.bccl
  alive : ∀ entry ∈ registry.bcclCommMemPoolMap, registry.bccl.Alive entry.1
  single : (registry.bcclCommMemPoolMap.map (·.1)).Nodup
  kept : ∀ entry ∈ registry.bcclCommMemPoolMap, ∀ device, registry.bccl.deviceOf entry.1 = some device →
    Kept registry.useTensorRegisterAllocatorHook registry.segments device entry.2
      (registry.bccl.handles entry.1)
  unmapped : ∀ bcclComm, bcclComm ∉ registry.bcclCommMemPoolMap.map (·.1) →
    registry.bccl.handles bcclComm = []
  made : ∀ group, ∀ entry ∈ registry.devBCCLCommMap group, (registry.bccl.deviceOf entry.2).isSome = true
  keyed : ∀ group device bcclComm, (.device device, bcclComm) ∈ registry.devBCCLCommMap group →
    registry.bccl.deviceOf bcclComm = some device
  hooks : registry.allocatorHooksAttached =
    (registry.useTensorRegisterAllocatorHook && !registry.groups.isEmpty)
  groupless : registry.groups = [] → registry.bcclCommMemPoolMap = []
  registered : ∀ bcclComm pool, (bcclComm, pool) ∈ registry.registrations ↔
    ∃ memPools symm, (bcclComm, memPools) ∈ registry.bcclCommMemPoolMap ∧ (pool, symm) ∈ memPools
  distinct : (registry.segments.map (·.ptr)).Nodup

theorem alive_device {world : Bccl.World} {id : Nat} (alive : world.Alive id) :
    ∃ device, world.deviceOf id = some device := by
  obtain ⟨comm, found, _⟩ := alive
  exact ⟨comm.deviceIndex, by rw [Bccl.World.deviceOf, found]; rfl⟩

open List

theorem Booked.wellRegistered {self : Registry} (booked : Booked self) : WellRegistered self where
  exact := by
    intro bcclComm pool registered ptr
    obtain ⟨memPools, symm, mapped, has⟩ := (booked.registered bcclComm pool).mp registered
    obtain ⟨device, on⟩ := alive_device (booked.alive _ mapped)
    have kept := booked.kept _ mapped device on
    constructor
    · rintro ⟨held, member, rfl⟩
      obtain ⟨segment, there, same, here, _⟩ := kept.live held member
      exact ⟨segment, there, same, kept.only pool symm has held member segment there same,
        here ▸ on⟩
    · rintro ⟨segment, there, rfl, same, here⟩
      exact kept.all pool symm has segment there same (Option.mem_unique here on)
  live := by
    rintro bcclComm ptr ⟨held, member, rfl⟩
    by_cases mapped : bcclComm ∈ self.bcclCommMemPoolMap.map (·.1)
    · obtain ⟨entry, there, rfl⟩ := mem_map.mp mapped
      obtain ⟨device, on⟩ := alive_device (booked.alive _ there)
      obtain ⟨segment, here, same, _⟩ := (booked.kept _ there device on).live held member
      exact ⟨segment, here, same⟩
    · rw [booked.unmapped bcclComm mapped] at member
      cases member
  once := booked.ledger.once
  matching := booked.ledger.matching
  kept := booked.ledger.kept

section Loops

variable {library : Bccl.Library} {self : Registry}

variable {α : Type} {normal : α → Registry → Prop} {thrown : Bccl.Exn → Registry → Prop}

theorem wp_onComms {program : Bccl.M α}
    (spec : wp program (fun value bccl => normal value { self with bccl })
      (fun exception bccl => thrown exception { self with bccl }) self.bccl) :
    wp (onComms program) normal thrown self := by
  unfold wp onComms at *
  cases outcome : program self.bccl with
  | ok value bccl =>
    rw [outcome] at spec
    exact spec
  | error exception bccl =>
    rw [outcome] at spec
    exact spec

theorem bind_deref {bcclComm : Nat} {comm : Bccl.BCCLComm}
    {next : Bccl.BCCLComm → R α} (found : self.bccl.comms.get? bcclComm = some comm)
    (spec : wp (next comm) normal thrown self) :
    wp (onComms (Bccl.deref bcclComm) >>= next) normal thrown self := by
  rw [wp_bind]
  refine wp_onComms ?_
  unfold Bccl.deref
  rw [wp_bind, wp_get, found]
  exact spec

structure Swept (entries : List (Nat × MemPoolSet))
    (change : Nat × MemPoolSet → Handles → Handles → Prop) (before after : Registry) : Prop where
  rest : after = { before with bccl := after.bccl }
  ledger : Bccl.Ledger after.bccl
  changed : ∀ entry ∈ entries,
    change entry (before.bccl.handles entry.1) (after.bccl.handles entry.1)
  others : ∀ other, other ∉ entries.map (·.1) →
    after.bccl.handles other = before.bccl.handles other
  device : ∀ other, after.bccl.deviceOf other = before.bccl.deviceOf other
  alive : ∀ other, before.bccl.Alive other → after.bccl.Alive other

theorem wp_sweep {body : Nat × MemPoolSet → R Unit}
    (may : Nat × MemPoolSet → Option Int → Handles → Prop)
    {change : Nat × MemPoolSet → Handles → Handles → Prop}
    (step : ∀ registry entry, Bccl.Ledger registry.bccl → registry.bccl.Alive entry.1 →
      may entry (registry.bccl.deviceOf entry.1) (registry.bccl.handles entry.1) →
      registry.useTensorRegisterAllocatorHook = self.useTensorRegisterAllocatorHook →
      wp (body entry) (fun _ after => after = { registry with bccl := after.bccl } ∧
        Bccl.Ledger after.bccl ∧ ∃ handles, Bccl.Changed entry.1 handles registry.bccl after.bccl ∧
          change entry (registry.bccl.handles entry.1) handles) (fun _ _ => False) registry) :
    ∀ (entries : List (Nat × MemPoolSet)) (registry : Registry), Bccl.Ledger registry.bccl →
      (entries.map (·.1)).Nodup →
      registry.useTensorRegisterAllocatorHook = self.useTensorRegisterAllocatorHook →
      (∀ entry ∈ entries, registry.bccl.Alive entry.1 ∧
        may entry (registry.bccl.deviceOf entry.1) (registry.bccl.handles entry.1)) →
      wp (forEach body entries) (fun _ after => Swept entries change registry after)
        (fun _ _ => False) registry := by
  intro entries
  induction entries with
  | nil =>
    intro registry ledger _ _ _
    exact ⟨rfl, ledger, nofun, fun _ _ => rfl, fun _ => rfl, fun _ alive => alive⟩
  | cons entry rest ih =>
    intro registry ledger single config ready
    obtain ⟨away, single⟩ := nodup_cons.mp single
    obtain ⟨alive, may⟩ := ready entry (.head _)
    refine wp_seq _ (step registry entry ledger alive may config) ?_
    rintro _ between ⟨same, ledger, handles, changed, did⟩
    have apart : ∀ other ∈ rest, other.1 ≠ entry.1 := by
      intro other there here
      exact away (mem_map.mpr ⟨other, there, here⟩)
    refine wp_mono (ih between ledger single (by rw [same]; exact config) ?_)
      (fun _ after swept => ?_) fun _ _ failed => failed
    · intro other there
      obtain ⟨alive, may⟩ := ready other (.tail _ there)
      rw [changed.others other.1 (apart other there), changed.device]
      exact ⟨changed.alive other.1 alive, may⟩
    · constructor
      · rw [swept.rest, same]
      · exact swept.ledger
      · intro other there
        rcases mem_cons.mp there with rfl | later
        · rw [swept.others _ away, changed.here]
          exact did
        · rw [← changed.others other.1 (apart other later)]
          exact swept.changed other later
      · intro other absent
        rw [map_cons, mem_cons, not_or] at absent
        rw [swept.others other absent.2, changed.others other absent.1]
      · intro other
        rw [swept.device, changed.device]
      · exact fun other alive => swept.alive other (changed.alive other alive)

def TraceEntry.concerns (te : TraceEntry) (hooked : Bool) (device : Int) (memPools : MemPoolSet) :
    Bool :=
  te.device == device && (hooked || (memPools.find? (·.1 == te.mempool)).isSome)

def Concerned (self : Registry) (te : TraceEntry)
    (did : MemPoolSet → Handles → Handles → Prop) (entry : Nat × MemPoolSet)
    (before after : Handles) : Prop :=
  ∀ device, self.bccl.deviceOf entry.1 = some device →
    if te.concerns self.useTensorRegisterAllocatorHook device entry.2 then did entry.2 before after
    else after = before

variable {te : TraceEntry}

theorem wp_forRegistered {act : Nat → Bool → R Unit}
    (may : MemPoolSet → Handles → Prop) {did : MemPoolSet → Handles → Handles → Prop}
    (step : ∀ (registry : Registry) bcclComm memPools, Bccl.Ledger registry.bccl →
      registry.bccl.Alive bcclComm → may memPools (registry.bccl.handles bcclComm) →
      wp (act bcclComm (memPools.window te.mempool))
        (fun _ after => after = { registry with bccl := after.bccl } ∧ Bccl.Ledger after.bccl ∧
          ∃ handles, Bccl.Changed bcclComm handles registry.bccl after.bccl ∧
            did memPools (registry.bccl.handles bcclComm) handles) (fun _ _ => False) registry)
    (ledger : Bccl.Ledger self.bccl) (single : (self.bcclCommMemPoolMap.map (·.1)).Nodup)
    (alive : ∀ entry ∈ self.bcclCommMemPoolMap, self.bccl.Alive entry.1)
    (ready : ∀ entry ∈ self.bcclCommMemPoolMap, ∀ device, self.bccl.deviceOf entry.1 = some device →
      te.concerns self.useTensorRegisterAllocatorHook device entry.2 = true →
      may entry.2 (self.bccl.handles entry.1)) :
    wp (forRegistered te act)
      (fun _ after => Swept self.bcclCommMemPoolMap (Concerned self te did) self after)
      (fun _ _ => False) self := by
  refine bind_read ?_
  refine wp_sweep (fun entry on handles => on = self.bccl.deviceOf entry.1 ∧ ∀ device,
    self.bccl.deviceOf entry.1 = some device →
    te.concerns self.useTensorRegisterAllocatorHook device entry.2 = true → may entry.2 handles)
    (fun registry entry ledger alive holds _ => ?_) _ _ ledger single rfl
    fun entry there => ⟨alive entry there, rfl, ready entry there⟩
  obtain ⟨bcclComm, memPools⟩ := entry
  obtain ⟨on, may⟩ := holds
  obtain ⟨comm, found, live⟩ := alive
  have device : self.bccl.deviceOf bcclComm = some comm.deviceIndex := by
    rw [← on, Bccl.World.deviceOf, found]
    rfl
  refine bind_deref found ?_
  have same : ∀ other, self.bccl.deviceOf bcclComm = some other → comm.deviceIndex = other :=
    fun other there => Option.mem_unique device there
  rw [wp_ite]
  split
  · next now =>
      have concerned : te.concerns self.useTensorRegisterAllocatorHook comm.deviceIndex memPools =
          true := now
      refine wp_mono (step registry bcclComm memPools ledger ⟨comm, found, live⟩
        (may _ device concerned)) (fun _ after ran => ?_) fun _ _ failed => failed
      obtain ⟨rest, kept, handles, changed, acted⟩ := ran
      refine ⟨rest, kept, handles, changed, fun other there => ?_⟩
      obtain rfl := same other there
      rw [if_pos concerned]
      exact acted
  · next now =>
      have unconcerned : ¬te.concerns self.useTensorRegisterAllocatorHook comm.deviceIndex memPools =
          true := now
      refine ⟨rfl, ledger, _, .same rfl, fun other there => ?_⟩
      obtain rfl := same other there
      rw [if_neg unconcerned]

theorem recordTrace_other (allocs : te.action ≠ .segmentAlloc)
    (frees : te.action ≠ .segmentFree) : recordTrace library te self = .ok ⟨⟩ self := by
  unfold recordTrace cacheAllocatorRegisterHook cacheAllocatorDeregisterHook
  rw [if_neg allocs, if_neg frees]
  simp only [run_bind, run_get]
  cases self.allocatorHooksAttached <;> rfl

theorem recordTrace_detached (detached : self.allocatorHooksAttached = false) :
    recordTrace library te self = .ok ⟨⟩ self := by
  unfold recordTrace
  simp only [run_bind, run_get, detached]
  rfl

theorem recordTrace_alloc (healthy : library.Healthy) (booked : Booked self)
    (attached : self.allocatorHooksAttached = true) (allocs : te.action = .segmentAlloc) :
    wp (recordTrace library te) (fun _ after => Swept self.bcclCommMemPoolMap
      (Concerned self te fun memPools => Bccl.Joins te.addr (memPools.window te.mempool)) self after)
      (fun _ _ => False) self := by
  have frees : te.action ≠ .segmentFree := by rw [allocs]; decide
  unfold recordTrace cacheAllocatorRegisterHook cacheAllocatorDeregisterHook
  rw [if_pos allocs, if_neg frees]
  refine bind_read ?_
  rw [wp_ite, if_pos attached]
  refine wp_seq _ (wp_forRegistered (fun _ _ => True) (fun registry bcclComm memPools ledger alive _ =>
    wp_onComms ?_) booked.ledger booked.single booked.alive fun _ _ _ _ _ => trivial)
    fun _ after swept => swept
  refine wp_mono (Bccl.registerSegment_spec healthy ledger alive nofun)
    (fun _ bccl ⟨kept, handles, changed, joins⟩ => ⟨rfl, kept, handles, changed, joins⟩)
    fun _ _ failed => failed

theorem recordTrace_free (healthy : library.Healthy) (booked : Booked self)
    (attached : self.allocatorHooksAttached = true) (frees : te.action = .segmentFree)
    (ready : ∀ entry ∈ self.bcclCommMemPoolMap, ∀ device, self.bccl.deviceOf entry.1 = some device →
      te.concerns self.useTensorRegisterAllocatorHook device entry.2 = true →
      ∃ handle, (te.addr, handle) ∈ self.bccl.handles entry.1 ∧
        entry.2.window te.mempool = handle.window) :
    wp (recordTrace library te) (fun _ after => Swept self.bcclCommMemPoolMap
      (Concerned self te fun _ before after => after = before.filter fun held => held.1 != te.addr)
      self after) (fun _ _ => False) self := by
  have allocs : te.action ≠ .segmentAlloc := by rw [frees]; decide
  unfold recordTrace cacheAllocatorRegisterHook cacheAllocatorDeregisterHook
  rw [if_neg allocs, if_pos frees]
  refine bind_read ?_
  rw [wp_ite, if_pos attached]
  rw [wp_bind]
  refine (wp_pure _).mpr ?_
  refine wp_forRegistered (fun memPools handles => ∃ handle, (te.addr, handle) ∈ handles ∧
    memPools.window te.mempool = handle.window)
    (fun registry bcclComm memPools ledger alive ⟨handle, holds, matching⟩ => wp_onComms ?_)
    booked.ledger booked.single booked.alive ready
  refine wp_mono (Bccl.deregisterSegment_spec healthy ledger alive holds matching)
    (fun _ bccl ⟨kept, changed⟩ => ⟨rfl, kept, _, changed, rfl⟩) fun _ _ failed => failed

structure Covers (segments : List Segment) (window : Bool) (before after : Handles) : Prop where
  from_ : ∀ held ∈ after, held ∈ before ∨
    held.2.window = window ∧ ∃ segment ∈ segments, segment.ptr = held.1
  grows : ∀ held ∈ before, held ∈ after
  all : ∀ segment ∈ segments, ∃ held ∈ after, held.1 = segment.ptr

theorem registerAll_spec (bcclComm : Nat) (device : Int) (errorOnRereg window : Bool)
    (healthy : library.Healthy) :
    ∀ (segments : List Segment) (self : Registry), Bccl.Ledger self.bccl →
      self.bccl.Alive bcclComm → (∀ segment ∈ segments, segment.device = device) →
      (errorOnRereg = true → (segments.map (·.ptr)).Nodup ∧
        ∀ segment ∈ segments, ∀ held ∈ self.bccl.handles bcclComm, held.1 ≠ segment.ptr) →
      wp (registerAll library bcclComm device errorOnRereg window segments)
        (fun _ after => after = { self with bccl := after.bccl } ∧ Bccl.Ledger after.bccl ∧
          ∃ handles, Bccl.Changed bcclComm handles self.bccl after.bccl ∧
            Covers segments window (self.bccl.handles bcclComm) handles) (fun _ _ => False) self := by
  intro segments
  induction segments with
  | nil =>
    intro self ledger _ _ _
    exact ⟨rfl, ledger, _, .same rfl, fun held member => .inl member, fun _ member => member,
      by simp⟩
  | cons segment rest ih =>
    intro self ledger alive resides fresh
    unfold registerAll forEach
    rw [wp_bind]
    refine bind_check (fun _ => ?_) fun elsewhere => ?_
    · refine wp_onComms ?_
      have free : errorOnRereg = true → ∀ entry ∈ self.bccl.handles bcclComm,
          entry.1 ≠ segment.ptr := fun strict => (fresh strict).2 segment (.head _)
      refine wp_mono (Bccl.registerSegment_spec healthy ledger alive free)
        (fun _ bccl joined => ?_) fun _ _ failed => failed
      obtain ⟨kept, handles, changed, joins⟩ := joined
      have members : ∀ held, held ∈ handles ↔ held ∈ self.bccl.handles bcclComm ∨
          held ∈ handles ∧ held.2.window = window ∧ held.1 = segment.ptr := by
        intro held
        rcases joins with ⟨_, rfl⟩ | ⟨_, handle, flag, rfl⟩
        · exact ⟨.inl, fun either => either.elim id And.left⟩
        · refine ⟨fun member => ?_, fun either => either.elim (mem_cons_of_mem _) And.left⟩
          rcases mem_cons.mp member with rfl | old
          · exact .inr ⟨member, flag, rfl⟩
          · exact .inl old
      have covered : ∃ held ∈ handles, held.1 = segment.ptr := by
        rcases joins with ⟨has, rfl⟩ | ⟨_, handle, _, rfl⟩
        · exact has
        · exact ⟨_, (.head _), rfl⟩
      have later : errorOnRereg = true → (rest.map (·.ptr)).Nodup ∧ ∀ other ∈ rest,
          ∀ held ∈ bccl.handles bcclComm, held.1 ≠ other.ptr := by
        intro strict
        obtain ⟨distinct, absent⟩ := fresh strict
        obtain ⟨away, distinct⟩ := nodup_cons.mp distinct
        refine ⟨distinct, fun other there held member same => ?_⟩
        rw [changed.here] at member
        rcases (members held).mp member with old | ⟨_, _, here⟩
        · exact absent other (.tail _ there) held old same
        · exact away (mem_map.mpr ⟨other, there, same.symm.trans here⟩)
      refine wp_mono (ih { self with bccl } kept (changed.alive _ alive)
        (fun other there => resides other (.tail _ there)) later)
        (fun _ after joined => ?_) fun _ _ failed => failed
      obtain ⟨same, ledger, final, then_, covers⟩ := joined
      refine ⟨same, ledger, final, changed.trans then_, ?_⟩
      have between : bccl.handles bcclComm = handles := changed.here
      change Covers rest window (bccl.handles bcclComm) final at covers
      rw [between] at covers
      constructor
      · intro held member
        rcases covers.from_ held member with old | ⟨flag, other, there, same⟩
        · rcases (members held).mp old with aged | ⟨_, flag, same⟩
          · exact .inl aged
          · exact .inr ⟨flag, segment, (.head _), same.symm⟩
        · exact .inr ⟨flag, other, mem_cons_of_mem _ there, same⟩
      · exact fun held member => covers.grows held ((members held).mpr (.inl member))
      · intro other there
        rcases mem_cons.mp there with rfl | later
        · obtain ⟨held, member, same⟩ := covered
          exact ⟨held, covers.grows held member, same⟩
        · exact covers.all other later
    · rw [resides segment mem_cons_self] at elsewhere
      simp at elsewhere

theorem deregisterAll_spec (bcclComm : Nat) (device : Int) (window : Bool)
    (healthy : library.Healthy) :
    ∀ (segments : List Segment) (self : Registry), Bccl.Ledger self.bccl →
      self.bccl.Alive bcclComm → (∀ segment ∈ segments, segment.device = device) →
      (segments.map (·.ptr)).Nodup →
      (∀ segment ∈ segments, ∃ handle, (segment.ptr, handle) ∈ self.bccl.handles bcclComm ∧
        window = handle.window) →
      wp (deregisterAll library bcclComm device window segments)
        (fun _ after => after = { self with bccl := after.bccl } ∧ Bccl.Ledger after.bccl ∧
          ∃ handles, Bccl.Changed bcclComm handles self.bccl after.bccl ∧
            ∀ held, held ∈ handles ↔ held ∈ self.bccl.handles bcclComm ∧
              ∀ segment ∈ segments, held.1 ≠ segment.ptr) (fun _ _ => False) self := by
  intro segments
  induction segments with
  | nil =>
    intro self ledger _ _ _ _
    exact ⟨rfl, ledger, _, .same rfl, fun held => ⟨fun member => ⟨member, by simp⟩, And.left⟩⟩
  | cons segment rest ih =>
    intro self ledger alive resides distinct holds
    obtain ⟨away, distinct⟩ := nodup_cons.mp distinct
    unfold deregisterAll forEach
    rw [wp_bind]
    refine bind_check (fun _ => ?_) fun elsewhere => ?_
    · refine wp_onComms ?_
      obtain ⟨handle, member, matching⟩ := holds segment (.head _)
      refine wp_mono (Bccl.deregisterSegment_spec healthy ledger alive member matching)
        (fun _ bccl left => ?_) fun _ _ failed => failed
      obtain ⟨kept, changed⟩ := left
      have later : ∀ other ∈ rest, ∃ handle, (other.ptr, handle) ∈ bccl.handles bcclComm ∧
          window = handle.window := by
        intro other there
        obtain ⟨handle, member, matching⟩ := holds other (.tail _ there)
        refine ⟨handle, ?_, matching⟩
        rw [changed.here, mem_filter]
        refine ⟨member, ?_⟩
        have apart : other.ptr ≠ segment.ptr := fun same =>
          away (mem_map.mpr ⟨other, there, same⟩)
        simpa using apart
      refine wp_mono (ih { self with bccl } kept (changed.alive _ alive)
        (fun other there => resides other (.tail _ there)) distinct later)
        (fun _ after ran => ?_) fun _ _ failed => failed
      obtain ⟨same, ledger, final, then_, left⟩ := ran
      refine ⟨same, ledger, final, changed.trans then_, fun held => ?_⟩
      rw [left]
      change held ∈ bccl.handles bcclComm ∧ _ ↔ _
      rw [changed.here, mem_filter, forall_mem_cons, and_assoc]
      simp
    · rw [resides segment mem_cons_self] at elsewhere
      simp at elsewhere

end Loops

section Kept

variable {hooked : Bool} {segments : List Segment} {device : Int} {memPools : MemPoolSet}
  {handles after : Handles}

theorem segment_of_ptr (distinct : (segments.map (·.ptr)).Nodup) {first second : Segment}
    (there : first ∈ segments) (also : second ∈ segments) (same : first.ptr = second.ptr) :
    first = second := inj_on_of_nodup_map distinct there also same

variable {segment : Segment} {symm : Bool}

theorem Kept.allocate (kept : Kept hooked segments device memPools handles)
    (fresh : ∀ other ∈ segments, other.ptr ≠ segment.ptr)
    (fits : ∀ pool symm, (pool, symm) ∈ memPools → segment.device = device →
      (segment.pool = pool ↔ hooked = true))
    (did : if hooked = true ∧ segment.device = device then
      Bccl.Joins segment.ptr (memPools.window segment.pool) handles after else after = handles) :
    Kept hooked (segment :: segments) device memPools after := by
  have old : ∀ held ∈ handles, held.1 ≠ segment.ptr := by
    intro held member same
    obtain ⟨other, there, here, _⟩ := kept.live held member
    exact fresh other there (here.trans same)
  have older : ∀ held ∈ handles, ∀ other ∈ segment :: segments, other.ptr = held.1 →
      other ∈ segments := by
    intro held member other there same
    rcases mem_cons.mp there with rfl | earlier
    · exact absurd same.symm (old held member)
    · exact earlier
  have live : ∀ held ∈ handles, ∃ other ∈ segment :: segments, other.ptr = held.1 ∧
      other.device = device ∧ held.2.window = memPools.window other.pool := by
    intro held member
    obtain ⟨other, there, rest⟩ := kept.live held member
    exact ⟨other, mem_cons_of_mem _ there, rest⟩
  split at did
  · next here =>
      obtain ⟨entry, member, same⟩ | ⟨_, handle, flag, rfl⟩ := did.imp_left And.left
      · exact absurd same (old entry member)
      · refine ⟨kept.one, kept.proper, ?_, ?_, ?_, fun unhooked => ?_⟩
        · intro held member
          rcases mem_cons.mp member with rfl | earlier
          · exact ⟨segment, (.head _), rfl, here.2, flag⟩
          · exact live held earlier
        · intro pool symm has held member other there same
          rcases mem_cons.mp member with rfl | earlier
          · rcases mem_cons.mp there with rfl | early
            · exact (fits pool symm has here.2).mpr here.1
            · exact absurd same (fresh other early)
          · exact kept.only pool symm has held earlier other (older held earlier other there same) same
        · intro pool symm has other there same on
          rcases mem_cons.mp there with rfl | earlier
          · exact ⟨_, (.head _), rfl⟩
          · obtain ⟨held, member, at_⟩ := kept.all pool symm has other earlier same on
            exact ⟨held, mem_cons_of_mem _ member, at_⟩
        · rw [here.1] at unhooked
          cases unhooked
  · next away =>
      subst did
      refine ⟨kept.one, kept.proper, live, ?_, ?_, kept.idle⟩
      · intro pool symm has held member other there same
        exact kept.only pool symm has held member other (older held member other there same) same
      · intro pool symm has other there same on
        rcases mem_cons.mp there with rfl | earlier
        · exact absurd ⟨(fits pool symm has on).mp same, on⟩ away
        · exact kept.all pool symm has other earlier same on

theorem Kept.release (kept : Kept hooked segments device memPools handles)
    (distinct : (segments.map (·.ptr)).Nodup) (there : segment ∈ segments)
    (fits : hooked = false → ∀ pool symm, (pool, symm) ∈ memPools → segment.device = device →
      segment.pool ≠ pool)
    (did : after = if hooked = true ∧ segment.device = device then
      handles.filter fun held => held.1 != segment.ptr else handles) :
    Kept hooked (segments.erase segment) device memPools after := by
  have stays : ∀ held ∈ after, held ∈ handles := by
    intro held member
    rw [did] at member
    split at member
    · exact (mem_filter.mp member).1
    · exact member
  have away : ∀ held ∈ after, held.1 ≠ segment.ptr := by
    intro held member same
    obtain ⟨other, here, at_, on, _⟩ := kept.live held (stays held member)
    obtain rfl := segment_of_ptr distinct here there (at_.trans same)
    rw [did] at member
    split at member
    · exact absurd same (by simpa using (mem_filter.mp member).2)
    · next spared =>
        have unhooked : hooked = false := by
          cases hooked with
          | false => rfl
          | true => exact absurd ⟨rfl, on⟩ spared
        cases pools : memPools with
        | nil =>
          rw [kept.idle unhooked pools] at member
          cases member
        | cons entry rest =>
          obtain ⟨pool, symm⟩ := entry
          have has : (pool, symm) ∈ memPools := pools ▸ (.head _)
          exact fits unhooked pool symm has on (kept.only pool symm has held member other here at_)
  have kept_ : ∀ held ∈ handles, held.1 ≠ segment.ptr → held ∈ after := by
    intro held member different
    rw [did]
    split
    · exact mem_filter.mpr ⟨member, by simpa using different⟩
    · exact member
  refine ⟨kept.one, kept.proper, ?_, ?_, ?_, fun unhooked none_ => ?_⟩
  · intro held member
    obtain ⟨other, here, at_, rest⟩ := kept.live held (stays held member)
    refine ⟨other, (mem_erase_of_ne fun same => ?_).mpr here, at_, rest⟩
    exact away held member (at_.symm.trans (congrArg Segment.ptr same))
  · intro pool symm has held member other here
    exact kept.only pool symm has held (stays held member) other (mem_of_mem_erase here)
  · intro pool symm has other here same on
    obtain ⟨held, member, at_⟩ := kept.all pool symm has other (mem_of_mem_erase here) same on
    refine ⟨held, kept_ held member fun now => ?_, at_⟩
    have one := segment_of_ptr distinct (mem_of_mem_erase here) there (at_.symm.trans now)
    rw [one] at here
    exact ((distinct.of_map).not_mem_erase) here
  · exact eq_nil_iff_forall_not_mem.mpr fun held member => by
      have there := stays held member
      rw [kept.idle unhooked none_] at there
      cases there

theorem window_single (pool : MempoolId) (symm : Bool) : MemPoolSet.window [(pool, symm)] pool = symm := by
  simp [MemPoolSet.window]

variable {snapshot : List Segment}

theorem Kept.register {pool : MemPool}
    (kept : Kept hooked segments device [] handles) (distinct : (segments.map (·.ptr)).Nodup)
    (proper : pool.id ≠ (0, 0))
    (lists : ∀ segment, segment ∈ snapshot ↔ segment ∈ segments ∧ segment.pool = pool.id)
    (resides : ∀ segment ∈ snapshot, segment.device = device)
    (fits : hooked = true → ∀ segment ∈ segments, segment.device = device →
      segment.pool = pool.id ∧ symm = false) (covers : Covers snapshot symm handles after) :
    Kept hooked segments device [(pool.id, symm)] after := by
  have from_ : ∀ held ∈ after, ∃ segment ∈ segments, segment.ptr = held.1 ∧
      segment.device = device ∧ segment.pool = pool.id ∧ held.2.window = symm := by
    intro held member
    rcases covers.from_ held member with old | ⟨flag, segment, there, same⟩
    · cases hooks : hooked with
      | false =>
        rw [kept.idle hooks rfl] at old
        cases old
      | true =>
        obtain ⟨segment, there, same, on, flag⟩ := kept.live held old
        obtain ⟨owner, plain⟩ := fits hooks segment there on
        exact ⟨segment, there, same, on, owner, by rw [flag, plain]; rfl⟩
    · obtain ⟨here, owner⟩ := (lists segment).mp there
      exact ⟨segment, here, same, resides segment there, owner, flag⟩
  refine ⟨Nat.le_refl 1, ?_, ?_, ?_, ?_, nofun⟩
  · intro other flag has
    obtain ⟨rfl, rfl⟩ := Prod.mk.inj (mem_singleton.mp has)
    exact proper
  · intro held member
    obtain ⟨segment, there, same, on, owner, flag⟩ := from_ held member
    exact ⟨segment, there, same, on, by rw [flag, owner, window_single]⟩
  · intro other flag has held member segment there same
    obtain ⟨rfl, rfl⟩ := Prod.mk.inj (mem_singleton.mp has)
    obtain ⟨listed, here, at_, _, owner, _⟩ := from_ held member
    rw [segment_of_ptr distinct there here (same.trans at_.symm)]
    exact owner
  · intro other flag has segment there owner on
    obtain ⟨rfl, rfl⟩ := Prod.mk.inj (mem_singleton.mp has)
    exact covers.all segment ((lists segment).mpr ⟨there, owner⟩)

theorem Kept.deregister {pool : MempoolId}
    (kept : Kept hooked segments device [(pool, symm)] handles)
    (lists : ∀ segment, segment ∈ snapshot ↔ segment ∈ segments ∧ segment.pool = pool)
    (left : ∀ held, held ∈ after ↔ held ∈ handles ∧ ∀ segment ∈ snapshot, held.1 ≠ segment.ptr) :
    Kept hooked segments device [] after := by
  have empty : after = [] := by
    refine eq_nil_iff_forall_not_mem.mpr fun held member => ?_
    obtain ⟨had, away⟩ := (left held).mp member
    obtain ⟨segment, there, same, _⟩ := kept.live held had
    have owner := kept.only pool symm (.head _) held had segment there same
    exact away segment ((lists segment).mpr ⟨there, owner⟩) same.symm
  subst empty
  exact ⟨Nat.zero_le 1, nofun, nofun, nofun, nofun, fun _ _ => rfl⟩

theorem Kept.fresh (lists : ∀ segment ∈ snapshot, segment ∈ segments)
    (resides : hooked = true → ∀ segment ∈ snapshot, segment.device = device)
    (did : if hooked = true then Covers snapshot false [] after else after = []) :
    Kept hooked segments device [] after := by
  split at did
  · next hooks =>
      refine ⟨Nat.zero_le 1, nofun, fun held member => ?_, nofun, nofun, fun unhooked => ?_⟩
      · rcases did.from_ held member with old | ⟨flag, segment, there, same⟩
        · cases old
        · exact ⟨segment, lists segment there, same, resides hooks segment there, flag⟩
      · rw [hooks] at unhooked
        cases unhooked
  · subst did
    exact ⟨Nat.zero_le 1, nofun, nofun, nofun, nofun, fun _ _ => rfl⟩

end Kept

end TorchSupa.Distributed.Pools
