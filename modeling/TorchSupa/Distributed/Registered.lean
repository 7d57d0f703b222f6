import TorchSupa.Bccl.Lifecycle
import TorchSupa.Distributed.Registration
import TorchSupa.Logic.Lists

/-!
Every event keeps the books of the registrations in order, in the runs in which pools are
registered where that works.
-/

namespace TorchSupa.Distributed.Pools

open Outcome List

section Booked

variable {library : Bccl.Library} {self : Registry} {group : Nat} {segment : Segment}

open Registry

theorem mem_snapshot {pool : Option MempoolId} : segment ∈ self.snapshot pool ↔
    segment ∈ self.segments ∧ pool.all (· == segment.pool) = true := by
  unfold snapshot
  rw [mem_insertionSort, mem_filter]

theorem snapshot_distinct (booked : Booked self) (pool : Option MempoolId) :
    ((self.snapshot pool).map (·.ptr)).Nodup := by
  refine ((perm_insertionSort _ _).map _).nodup_iff.mpr ?_
  exact booked.distinct.sublist (filter_sublist.map _)

theorem Booked.resegment {swept : Registry} {segments : List Segment}
    {change : Nat × MemPoolSet → Handles → Handles → Prop} (booked : Booked self)
    (pass : Swept self.bcclCommMemPoolMap change self swept)
    (distinct : (segments.map (·.ptr)).Nodup)
    (kept : ∀ entry ∈ self.bcclCommMemPoolMap, ∀ device, self.bccl.deviceOf entry.1 = some device →
      change entry (self.bccl.handles entry.1) (swept.bccl.handles entry.1) →
      Kept self.useTensorRegisterAllocatorHook segments device entry.2
        (swept.bccl.handles entry.1)) :
    Booked { swept with segments } := by
  rw [pass.rest]
  constructor
  · exact pass.ledger
  · exact fun entry there => pass.alive _ (booked.alive entry there)
  · exact booked.single
  · intro entry there device on
    exact kept entry there device ((pass.device _).symm.trans on) (pass.changed entry there)
  · intro bcclComm unmapped
    exact (pass.others bcclComm unmapped).trans (booked.unmapped bcclComm unmapped)
  · intro group entry there
    exact (congrArg Option.isSome (pass.device _)).trans (booked.made group entry there)
  · intro group device bcclComm there
    exact (pass.device _).trans (booked.keyed group device bcclComm there)
  · exact booked.hooks
  · exact booked.groupless
  · exact booked.registered
  · exact distinct

theorem Swept.same {entries : List (Nat × MemPoolSet)}
    {change : Nat × MemPoolSet → Handles → Handles → Prop} (ledger : Bccl.Ledger self.bccl)
    (changed : ∀ entry ∈ entries, change entry (self.bccl.handles entry.1)
      (self.bccl.handles entry.1)) : Swept entries change self self :=
  ⟨rfl, ledger, changed, fun _ _ => rfl, fun _ => rfl, fun _ alive => alive⟩

theorem Swept.mono {entries : List (Nat × MemPoolSet)} {after : Registry}
    {first second : Nat × MemPoolSet → Handles → Handles → Prop}
    (swept : Swept entries first self after)
    (weaker : ∀ entry ∈ entries, ∀ before later, first entry before later → second entry before later) :
    Swept entries second self after :=
  ⟨swept.rest, swept.ledger, fun entry there => weaker entry there _ _ (swept.changed entry there),
    swept.others, swept.device, swept.alive⟩

def Told (self : Registry) (segment : Segment) (did : MemPoolSet → Handles → Handles → Prop)
    (entry : Nat × MemPoolSet) (before after : Handles) : Prop :=
  ∀ device, self.bccl.deviceOf entry.1 = some device →
    if self.useTensorRegisterAllocatorHook = true ∧ segment.device = device then
      did entry.2 before after
    else after = before

variable {did : MemPoolSet → Handles → Handles → Prop} {event : Event}

theorem Booked.untold (booked : Booked self) (detached : self.allocatorHooksAttached = false) :
    Swept self.bcclCommMemPoolMap (Told self segment did) self self := by
  refine .same booked.ledger fun entry there device on => ?_
  have grouped : self.groups ≠ [] := fun none_ => by
    rw [booked.groupless none_] at there
    cases there
  have unhooked : self.useTensorRegisterAllocatorHook = false := by
    have hooks := booked.hooks
    rw [detached] at hooks
    cases hooked : self.useTensorRegisterAllocatorHook with
    | false => rfl
    | true =>
      rw [hooked, Bool.true_and] at hooks
      exact absurd (isEmpty_iff.mp (by simpa using hooks)) grouped
  refine (if_neg fun both => ?_).mpr rfl
  exact Bool.false_ne_true (unhooked.symm.trans both.1)

theorem Booked.told {after : Registry}
    {action : TraceAction} (booked : Booked self) (attached : self.allocatorHooksAttached = true)
    (swept : Swept self.bcclCommMemPoolMap (Concerned self (segment.traced action) did) self after) :
    Swept self.bcclCommMemPoolMap (Told self segment did) self after := by
  have hooked : self.useTensorRegisterAllocatorHook = true := by
    have hooks := booked.hooks
    rw [attached] at hooks
    exact (Bool.and_eq_true_iff.mp hooks.symm).1
  refine swept.mono fun entry there before later concerned device on => ?_
  have acted := concerned device on
  by_cases here : segment.device = device
  · rw [if_pos (by simp [TraceEntry.concerns, Segment.traced, here, hooked])] at acted
    rw [if_pos ⟨hooked, here⟩]
    exact acted
  · rw [if_neg (by simp [TraceEntry.concerns, Segment.traced, here])] at acted
    rw [if_neg fun both => here both.2]
    exact acted

theorem unused_iff : self.unused segment = true ↔ ∀ other ∈ self.segments, other.ptr ≠ segment.ptr := by
  simp [unused]

theorem distinct_cons (booked : Booked self) (fresh : self.unused segment = true) :
    ((segment :: self.segments).map (·.ptr)).Nodup := by
  refine nodup_cons.mpr ⟨fun there => ?_, booked.distinct⟩
  obtain ⟨other, member, same⟩ := mem_map.mp there
  exact unused_iff.mp fresh other member same

theorem distinct_erase (booked : Booked self) : ((self.segments.erase segment).map (·.ptr)).Nodup :=
  booked.distinct.sublist (erase_sublist.map _)

def InOrder (program : R Unit) (self : Registry) : Prop :=
  wp program (fun _ after => Booked after)
    (fun exception after => exception = .undefinedBehaviour ∨ Booked after) self

section

variable (booked : Booked self)
include booked

theorem Booked.allocate (allowed : KeepsRegistered library self (.allocate segment))
    (fresh : self.unused segment = true) : InOrder (allocate library segment) self := by
  obtain ⟨healthy, fits⟩ := allowed
  have told : wp (recordTrace library (segment.traced .segmentAlloc))
      (fun _ after => Swept self.bcclCommMemPoolMap (Told self segment fun memPools =>
        Bccl.Joins segment.ptr (memPools.window segment.pool)) self after) (fun _ _ => False) self := by
    cases attached : self.allocatorHooksAttached with
    | false => exact wp_of_ok (recordTrace_detached attached) (booked.untold attached)
    | true =>
      exact wp_mono (recordTrace_alloc healthy booked attached rfl)
        (fun _ after swept => booked.told attached swept) fun _ _ failed => failed
  unfold InOrder Pools.allocate
  rw [wp_bind]
  refine wp_mono told (fun _ after swept => ?_) fun _ _ failed => failed.elim
  refine (wp_modify _).mpr ?_
  have segments : after.segments = self.segments := by rw [swept.rest]
  rw [segments]
  refine booked.resegment swept (distinct_cons booked fresh) fun entry there device on did => ?_
  refine (booked.kept entry there device on).allocate (unused_iff.mp fresh) ?_ (did device on)
  intro pool symm has here
  have registered := (booked.registered entry.1 pool).mpr ⟨entry.2, symm, there, has⟩
  exact fits entry.1 pool registered (here ▸ on)

theorem Booked.release (allowed : KeepsRegistered library self (.release segment))
    (there : segment ∈ self.segments) : InOrder (release library segment) self := by
  obtain ⟨healthy, fits⟩ := allowed
  have told : wp (recordTrace library (segment.traced .segmentFree))
      (fun _ after => Swept self.bcclCommMemPoolMap (Told self segment fun _ before after =>
        after = before.filter fun held => held.1 != segment.ptr) self after)
      (fun _ _ => False) self := by
    cases attached : self.allocatorHooksAttached with
    | false => exact wp_of_ok (recordTrace_detached attached) (booked.untold attached)
    | true =>
      have hooked : self.useTensorRegisterAllocatorHook = true := by
        have hooks := booked.hooks
        rw [attached] at hooks
        exact (Bool.and_eq_true_iff.mp hooks.symm).1
      dsimp only at fits
      rw [if_pos hooked] at fits
      refine wp_mono (recordTrace_free healthy booked attached rfl fun entry mapped device on
        concerned => ?_) (fun _ after swept => booked.told attached swept) fun _ _ failed => failed
      have here : segment.device = device := by
        have both := (Bool.and_eq_true_iff.mp concerned).1
        simpa [Segment.traced] using both
      obtain ⟨⟨_, handle⟩, member, rfl⟩ := fits entry mapped (here ▸ on)
      obtain ⟨other, known, at_, _, flag⟩ := (booked.kept entry mapped device on).live _ member
      obtain rfl := segment_of_ptr booked.distinct known there at_
      exact ⟨handle, member, flag.symm⟩
  unfold InOrder Pools.release
  rw [wp_bind]
  refine wp_mono told (fun _ after swept => ?_) fun _ _ failed => failed.elim
  refine (wp_modify _).mpr ?_
  have segments : after.segments = self.segments := by rw [swept.rest]
  rw [segments]
  refine booked.resegment swept (distinct_erase booked) fun entry mapped device on did => ?_
  refine (booked.kept entry mapped device on).release booked.distinct there ?_ ?_
  · intro unhooked pool symm has here
    dsimp only at fits
    rw [if_neg (by rw [unhooked]; decide)] at fits
    exact fits entry.1 pool ((booked.registered entry.1 pool).mpr ⟨entry.2, symm, mapped, has⟩)
      (here ▸ on)
  · have acted := did device on
    split at acted
    · next both => rw [if_pos both, acted]
    · next neither => rw [if_neg neither, acted]

theorem Booked.mapRange (fresh : self.unused segment = true)
    (default : segment.pool = (0, 0)) (expandable : self.expandableSegments = true) :
    InOrder (mapRange library segment) self := by
  have unhooked : self.useTensorRegisterAllocatorHook = false := by
    simp [useTensorRegisterAllocatorHook, expandable]
  have pass : Swept self.bcclCommMemPoolMap (fun _ before after => after = before) self self :=
    .same booked.ledger fun _ _ => rfl
  have mapped := booked.resegment pass (distinct_cons booked fresh) fun entry there device on _ => by
    refine (booked.kept entry there device on).allocate (unused_iff.mp fresh) ?_ ?_
    · intro pool symm has _
      have proper := (booked.kept entry there device on).proper pool symm has
      rw [unhooked, default]
      exact ⟨fun same => absurd same.symm proper, fun hooked => by cases hooked⟩
    · exact (if_neg fun both => Bool.false_ne_true (unhooked.symm.trans both.1)).mpr rfl
  refine bind_write ?_
  exact wp_of_ok (recordTrace_other nofun nofun) mapped

theorem Booked.unmapRange (there : segment ∈ self.segments)
    (default : segment.pool = (0, 0)) (expandable : self.expandableSegments = true) :
    InOrder (unmapRange library segment) self := by
  have unhooked : self.useTensorRegisterAllocatorHook = false := by
    simp [useTensorRegisterAllocatorHook, expandable]
  have pass : Swept self.bcclCommMemPoolMap (fun _ before after => after = before) self self :=
    .same booked.ledger fun _ _ => rfl
  have unmapped := booked.resegment pass (distinct_erase booked) fun entry mapped device on _ => by
    refine (booked.kept entry mapped device on).release booked.distinct there ?_ ?_
    · intro _ pool symm has _ same
      exact (booked.kept entry mapped device on).proper pool symm has (same.symm.trans default)
    · exact (if_neg fun both => Bool.false_ne_true (unhooked.symm.trans both.1)).symm
  refine bind_write ?_
  exact wp_of_ok (recordTrace_other nofun nofun) unmapped

theorem Booked.construct : InOrder (construct group) self := by
  have attached : (self.useTensorRegisterAllocatorHook || self.allocatorHooksAttached) =
      self.useTensorRegisterAllocatorHook := by
    rw [booked.hooks]
    cases self.useTensorRegisterAllocatorHook <;> rfl
  refine (wp_modify _).mpr ?_
  refine { booked with hooks := ?_, groupless := fun none_ => by cases none_ }
  exact attached.trans (Bool.and_true _).symm

end

structure Opened (registry : Registry) (group : Nat) (key : CommKey) (bcclComm : Nat)
    (after : Registry) : Prop where
  segments : after.segments = registry.segments
  hooked : after.useTensorRegisterAllocatorHook = registry.useTensorRegisterAllocatorHook
  registrations : after.registrations = registry.registrations
  device : ∀ index, key = .device index → after.bccl.deviceOf bcclComm = some index
  origin : (registry.devBCCLCommMap group).lookup key = some bcclComm ∨
    ∀ pool, (bcclComm, pool) ∉ registry.registrations

theorem fresh_unmade (world : Bccl.World) : world.deviceOf world.comms.fresh = none := by
  rw [Bccl.World.deviceOf, Store.get?_fresh]
  rfl

variable {key : CommKey} {device : Int} {bccl : Bccl.World}

theorem Booked.join (group : Nat) {made : Nat} (booked : Booked self) (grouped : self.groups ≠ [])
    (suits : ∀ index, key = .device index → index = device)
    (unmade : self.bccl.deviceOf made = none) (ledger : Bccl.Ledger bccl) (alive : bccl.Alive made)
    (on : bccl.deviceOf made = some device)
    (others : ∀ other, other ≠ made → bccl.handles other = self.bccl.handles other ∧
      bccl.deviceOf other = self.bccl.deviceOf other ∧ (self.bccl.Alive other → bccl.Alive other))
    (kept : Kept self.useTensorRegisterAllocatorHook self.segments device [] (bccl.handles made)) :
    Booked { self with
      bccl
      devBCCLCommMap := Function.update self.devBCCLCommMap group
        ((key, made) :: self.devBCCLCommMap group)
      bcclCommMemPoolMap := (made, []) :: self.bcclCommMemPoolMap } := by
  have old : ∀ {other : Nat}, (self.bccl.deviceOf other).isSome = true → other ≠ made := by
    rintro other known rfl
    rw [unmade] at known
    cases known
  have mapped : ∀ entry ∈ self.bcclCommMemPoolMap, entry.1 ≠ made := by
    intro entry there
    obtain ⟨place, here⟩ := alive_device (booked.alive entry there)
    exact old (by rw [here]; rfl)
  have known : ∀ {other : Nat} {entry : CommKey × Nat}, entry ∈ Function.update self.devBCCLCommMap
      group ((key, made) :: self.devBCCLCommMap group) other →
      entry = (key, made) ∨ entry ∈ self.devBCCLCommMap other := by
    intro other entry there
    by_cases same : other = group
    · subst same
      rw [Function.update_self] at there
      exact mem_cons.mp there
    · rw [Function.update_of_ne same] at there
      exact .inr there
  constructor
  · exact ledger
  · intro entry there
    rcases mem_cons.mp there with rfl | before
    · exact alive
    · exact (others _ (mapped entry before)).2.2 (booked.alive entry before)
  · refine nodup_cons.mpr ⟨fun there => ?_, booked.single⟩
    obtain ⟨entry, before, same⟩ := mem_map.mp there
    exact mapped entry before same
  · intro entry there place here
    rcases mem_cons.mp there with rfl | before
    · obtain rfl := Option.mem_unique on here
      exact kept
    · obtain ⟨handles, devices, _⟩ := others _ (mapped entry before)
      change Kept _ _ _ _ (bccl.handles entry.1)
      rw [handles]
      exact booked.kept entry before place (devices.symm.trans here)
  · intro other unmapped
    obtain ⟨different, unmapped⟩ := not_or.mp (mt mem_cons.mpr unmapped)
    exact (others other different).1.trans (booked.unmapped other unmapped)
  · intro other entry there
    change (bccl.deviceOf entry.2).isSome = true
    rcases known there with rfl | before
    · rw [on]
      rfl
    · have made := booked.made other entry before
      rw [(others _ (old made)).2.1]
      exact made
  · intro other place bcclComm there
    change bccl.deviceOf bcclComm = some place
    rcases known there with same | before
    · obtain ⟨rfl, rfl⟩ := Prod.mk.inj same
      rw [on, suits place rfl]
    · rw [(others _ (old (booked.made other _ before))).2.1]
      exact booked.keyed other place bcclComm before
  · exact booked.hooks
  · exact fun none_ => absurd none_ grouped
  · intro bcclComm pool
    rw [booked.registered]
    constructor
    · rintro ⟨memPools, symm, there, has⟩
      exact ⟨memPools, symm, mem_cons_of_mem _ there, has⟩
    · rintro ⟨memPools, symm, there, has⟩
      rcases mem_cons.mp there with same | before
      · obtain ⟨_, rfl⟩ := Prod.mk.inj same
        cases has
      · exact ⟨memPools, symm, before, has⟩
  · exact booked.distinct

variable {making : Making}

theorem initBCCLComm_spec (healthy : library.Healthy)
    (booked : Booked self) (grouped : self.groups ≠ [])
    (suits : ∀ index, key = .device index → index = device)
    (makes : self.useTensorRegisterAllocatorHook = true →
      ∀ segment ∈ self.snapshot making.activeMemPool, segment.device = device) :
    wp (initBCCLComm library group key device making) (fun bcclComm after => Booked after ∧
      Opened self group key bcclComm after) (fun _ _ => False) self := by
  unfold initBCCLComm
  rw [wp_bind]
  refine wp_onComms (wp_mono (Bccl.createConfig_spec healthy booked.ledger) (fun made bccl created =>
    ?_) fun _ _ failed => failed)
  obtain ⟨ledger, fresh, none_, on, alive, others⟩ := created
  have unmade : self.bccl.deviceOf made = none := by rw [fresh, fresh_unmade]
  have unregistered : ∀ pool, (made, pool) ∉ self.registrations := by
    intro pool registered
    obtain ⟨memPools, symm, there, _⟩ := (booked.registered made pool).mp registered
    obtain ⟨place, here⟩ := alive_device (booked.alive _ there)
    rw [unmade] at here
    cases here
  have finish : ∀ (after : Registry) handles, after = { self with
        bccl := after.bccl
        devBCCLCommMap := Function.update self.devBCCLCommMap group
          ((key, made) :: self.devBCCLCommMap group) } → Bccl.Ledger after.bccl →
      Bccl.Changed made handles bccl after.bccl →
      (if self.useTensorRegisterAllocatorHook = true then
        Covers (self.snapshot making.activeMemPool) false [] handles else handles = []) →
      wp (do
          modify fun self : Registry =>
            { self with bcclCommMemPoolMap := (made, []) :: self.bcclCommMemPoolMap }
          pure made : R Nat)
        (fun bcclComm after => Booked after ∧ Opened self group key bcclComm after)
        (fun _ _ => False) after := by
    intro after handles same ledger changed did
    have kept : Kept self.useTensorRegisterAllocatorHook self.segments device []
        (after.bccl.handles made) := by
      rw [changed.here]
      exact .fresh (fun segment there => (mem_snapshot.mp there).1) makes did
    have joined := booked.join group grouped suits unmade ledger
      (changed.alive made alive) ((changed.device made).trans on) (fun other different => by
        obtain ⟨held, place, lives⟩ := others other different
        rw [changed.others other different, changed.device]
        exact ⟨held, place, fun alive => changed.alive other (lives alive)⟩) kept
    refine bind_write ?_
    rw [same]
    refine ⟨joined, rfl, rfl, rfl, fun index here => ?_, .inr unregistered⟩
    rw [suits index here]
    exact (changed.device made).trans on
  refine bind_write (bind_read ?_)
  rw [wp_ite]
  split
  · next hooked =>
      have inUse : self.useTensorRegisterAllocatorHook = true := hooked
      have spec := registerAll_spec made device true false healthy
        (self.snapshot making.activeMemPool)
        { self with
          bccl
          devBCCLCommMap := Function.update self.devBCCLCommMap group
            ((key, made) :: self.devBCCLCommMap group) } ledger alive (makes inUse) fun _ =>
        ⟨snapshot_distinct booked _, fun segment _ held member => by
          change held ∈ bccl.handles made at member
          rw [none_] at member
          cases member⟩
      refine wp_seq _ spec fun _ after ⟨same, ledger, handles, changed, covers⟩ => ?_
      refine finish after handles same ledger changed ?_
      rw [if_pos inUse]
      change Covers _ _ (bccl.handles made) _ at covers
      rwa [none_] at covers
  · next unhooked =>
      refine finish _ _ rfl ledger (.same rfl) ?_
      have unused : ¬self.useTensorRegisterAllocatorHook = true := unhooked
      rw [if_neg unused]
      exact none_

theorem communicatorOf_spec
    (healthy : library.Healthy) (booked : Booked self) (grouped : self.groups ≠ [])
    (suits : ∀ index, key = .device index → index = device)
    (makes : self.Makes group key device making) :
    wp (communicatorOf library group key device making) (fun bcclComm after => Booked after ∧
      Opened self group key bcclComm after) (fun _ _ => False) self := by
  refine bind_read ?_
  cases found : (self.devBCCLCommMap group).lookup key with
  | none => exact initBCCLComm_spec healthy booked grouped suits fun hooked => makes hooked found
  | some bcclComm =>
    refine ⟨booked, rfl, rfl, rfl, fun index here => ?_, .inl found⟩
    exact booked.keyed group index bcclComm (here ▸ Lists.mem_of_lookup found)

theorem Booked.initBCCLComm (booked : Booked self)
    (allowed : KeepsRegistered library self (.initBCCLComm group key device making))
    (grouped : self.groups ≠ []) (suits : ∀ index, key = .device index → index = device) :
    InOrder (do let _comm ← communicatorOf library group key device making) self := by
  obtain ⟨healthy, makes⟩ := allowed
  exact (wp_bind _ _).mpr (wp_mono (communicatorOf_spec healthy booked grouped suits makes)
    (fun _ after opened => opened.1) fun _ _ failed => failed.elim)

variable {bcclComm : Nat}

theorem Booked.change {memPools : MemPoolSet} {handles : Handles}
    {registrations : List (Nat × MempoolId)} (change : MemPoolSet → MemPoolSet)
    (booked : Booked self) (ledger : Bccl.Ledger bccl)
    (changed : Bccl.Changed bcclComm handles self.bccl bccl)
    (mapped : (bcclComm, memPools) ∈ self.bcclCommMemPoolMap)
    (kept : ∀ device, self.bccl.deviceOf bcclComm = some device →
      Kept self.useTensorRegisterAllocatorHook self.segments device (change memPools) handles)
    (registered : ∀ other pool, (other, pool) ∈ registrations ↔
      if other = bcclComm then ∃ symm, (pool, symm) ∈ change memPools
      else (other, pool) ∈ self.registrations) :
    Booked { self.changeMemPools bcclComm change with bccl, registrations } := by
  have entries : ∀ {entry}, entry ∈ (self.changeMemPools bcclComm change).bcclCommMemPoolMap ↔
      entry = (bcclComm, change memPools) ∨ entry.1 ≠ bcclComm ∧ entry ∈ self.bcclCommMemPoolMap := by
    intro entry
    unfold changeMemPools
    rw [mem_map]
    constructor
    · rintro ⟨old, there, rfl⟩
      by_cases same : old.1 = bcclComm
      · rw [if_pos same]
        have one := inj_on_of_nodup_map booked.single there mapped same
        rw [one]
        exact .inl rfl
      · rw [if_neg same]
        exact .inr ⟨same, there⟩
    · rintro (rfl | ⟨different, there⟩)
      · exact ⟨_, mapped, if_pos rfl⟩
      · exact ⟨entry, there, if_neg different⟩
  have keys : (self.changeMemPools bcclComm change).bcclCommMemPoolMap.map (·.1) =
      self.bcclCommMemPoolMap.map (·.1) := by
    unfold changeMemPools
    rw [map_map]
    refine map_congr_left fun entry _ => ?_
    by_cases same : entry.1 = bcclComm <;> simp [same]
  constructor
  · exact ledger
  · intro entry there
    rcases entries.mp there with rfl | ⟨_, old⟩
    · exact changed.alive bcclComm (booked.alive _ mapped)
    · exact changed.alive entry.1 (booked.alive entry old)
  · exact keys ▸ booked.single
  · intro entry there device on
    have before : self.bccl.deviceOf entry.1 = some device := (changed.device _).symm.trans on
    rcases entries.mp there with rfl | ⟨different, old⟩
    · change Kept _ _ _ _ (bccl.handles bcclComm)
      rw [changed.here]
      exact kept device before
    · change Kept _ _ _ _ (bccl.handles entry.1)
      rw [changed.others entry.1 different]
      exact booked.kept entry old device before
  · intro other unmapped
    have absent : other ∉ self.bcclCommMemPoolMap.map (·.1) := keys ▸ unmapped
    have different : other ≠ bcclComm := by
      rintro rfl
      exact absent (mem_map.mpr ⟨_, mapped, rfl⟩)
    exact (changed.others other different).trans (booked.unmapped other absent)
  · intro group entry there
    exact (congrArg Option.isSome (changed.device _)).trans (booked.made group entry there)
  · intro group device other there
    exact (changed.device _).trans (booked.keyed group device other there)
  · exact booked.hooks
  · intro none_
    unfold changeMemPools
    rw [booked.groupless none_]
    rfl
  · intro other pool
    rw [registered]
    by_cases same : other = bcclComm
    · subst same
      rw [if_pos rfl]
      constructor
      · rintro ⟨symm, has⟩
        exact ⟨_, symm, entries.mpr (.inl rfl), has⟩
      · rintro ⟨others, symm, there, has⟩
        rcases entries.mp there with same | ⟨different, _⟩
        · obtain ⟨_, rfl⟩ := Prod.mk.inj same
          exact ⟨symm, has⟩
        · exact absurd rfl different
    · rw [if_neg same, booked.registered]
      constructor
      · rintro ⟨others, symm, there, has⟩
        exact ⟨others, symm, entries.mpr (.inr ⟨same, there⟩), has⟩
      · rintro ⟨others, symm, there, has⟩
        rcases entries.mp there with now | ⟨_, old⟩
        · exact absurd (Prod.mk.inj now).1 same
        · exact ⟨others, symm, old, has⟩
  · exact booked.distinct

theorem bind_memPoolsOf {α : Type} {next : MemPoolSet → R α}
    {normal : α → Registry → Prop} {thrown : Bccl.Exn → Registry → Prop}
    (given : ∀ memPools, (bcclComm, memPools) ∈ self.bcclCommMemPoolMap →
      wp (next memPools) normal thrown self) (fails : thrown .undefinedBehaviour self) :
    wp (memPoolsOf bcclComm >>= next) normal thrown self := by
  unfold memPoolsOf
  rw [wp_bind, wp_bind, wp_get]
  cases found : self.bcclCommMemPoolMap.lookup bcclComm with
  | none => exact fails
  | some memPools => exact given memPools (Lists.mem_of_lookup found)

theorem snapshot_resides {pool : MemPool} (resides : self.Resides pool) :
    (∀ segment, segment ∈ self.snapshot (some pool.id) ↔
      segment ∈ self.segments ∧ segment.pool = pool.id) ∧
      ∀ segment ∈ self.snapshot (some pool.id), segment.device = pool.device := by
  have lists : ∀ segment, segment ∈ self.snapshot (some pool.id) ↔
      segment ∈ self.segments ∧ segment.pool = pool.id := by
    intro segment
    rw [mem_snapshot, Option.all_some, beq_iff_eq, @eq_comm _ pool.id]
  refine ⟨lists, fun segment there => ?_⟩
  obtain ⟨there, owner⟩ := (lists segment).mp there
  exact resides segment there owner

theorem Booked.registerMemPool {pool : MemPool} {symm : Bool} (booked : Booked self)
    (allowed : KeepsRegistered library self (.registerMemPool group pool symm making))
    (grouped : self.groups ≠ []) (proper : pool.id ≠ (0, 0)) :
    InOrder (registerMemPool library group pool symm making) self := by
  obtain ⟨healthy, makes, resides, free, fits⟩ := allowed
  have suits : ∀ index, CommKey.device pool.device = .device index → index = pool.device :=
    fun index same => (CommKey.device.inj same).symm
  unfold InOrder Pools.registerMemPool
  rw [wp_bind]
  refine wp_mono (communicatorOf_spec healthy booked grouped suits makes)
    (fun bcclComm opened ⟨booked, here⟩ => ?_) fun _ _ failed => failed.elim
  refine bind_memPoolsOf (fun memPools mapped => ?_) (.inl rfl)
  have unregistered : ∀ other, (bcclComm, other) ∉ opened.registrations := by
    rw [here.registrations]
    exact here.origin.elim (free bcclComm) fun none_ => none_
  obtain rfl : memPools = [] := eq_nil_iff_forall_not_mem.mpr fun entry has =>
    unregistered entry.1 ((booked.registered _ _).mpr ⟨memPools, entry.2, mapped, has⟩)
  have on := here.device pool.device rfl
  have resides : opened.Resides pool := fun segment there => resides segment (here.segments ▸ there)
  obtain ⟨lists, local_⟩ := snapshot_resides resides
  refine bind_write (bind_read ?_)
  rw [wp_bind]
  refine wp_mono (registerAll_spec bcclComm pool.device false symm healthy _
    (opened.changeMemPools bcclComm fun memPools => memPools.insert (pool.id, symm)) booked.ledger
    (booked.alive _ mapped) local_ nofun)
    (fun _ after ⟨same, ledger, handles, changed, covers⟩ => ?_) fun _ _ failed => failed.elim
  refine (wp_modify _).mpr ?_
  rw [same]
  refine booked.change (fun memPools => memPools.insert (pool.id, symm)) ledger changed mapped
    (fun device placed => ?_) fun other owner => ?_
  · obtain rfl := Option.mem_unique on placed
    have kept := booked.kept _ mapped pool.device on
    refine kept.register booked.distinct proper lists local_ (fun hooked => ?_) covers
    rw [here.segments]
    exact fits (here.hooked ▸ hooked)
  · change (other, owner) ∈ (bcclComm, pool.id) :: opened.registrations ↔ _
    rw [mem_cons, Prod.mk.injEq]
    by_cases same : other = bcclComm
    · subst same
      have absent := unregistered owner
      simp [absent]
    · simp [same]

theorem Booked.endRegistration {pool : MempoolId} (booked : Booked self)
    (absent : (bcclComm, pool) ∉ self.registrations) : Booked (self.endRegistration bcclComm pool) := by
  refine { booked with registered := fun other owner => ?_ }
  refine Iff.trans ?_ (booked.registered other owner)
  unfold Registry.endRegistration
  rw [mem_filter]
  refine and_iff_left_of_imp fun there => ?_
  exact decide_eq_true fun same => absent (same ▸ there)

theorem Booked.deregisterMemPool {pool : MemPool} (booked : Booked self)
    (allowed : KeepsRegistered library self (.deregisterMemPool group pool making))
    (grouped : self.groups ≠ []) : InOrder (deregisterMemPool library group pool making) self := by
  obtain ⟨healthy, makes, resides⟩ := allowed
  have suits : ∀ index, CommKey.device pool.device = .device index → index = pool.device :=
    fun index same => (CommKey.device.inj same).symm
  unfold InOrder Pools.deregisterMemPool
  rw [wp_bind]
  refine wp_mono (communicatorOf_spec healthy booked grouped suits makes)
    (fun bcclComm opened ⟨booked, here⟩ => ?_) fun _ _ failed => failed.elim
  refine bind_write (bind_memPoolsOf (fun memPools (mapped : _ ∈ opened.bcclCommMemPoolMap) => ?_)
    (.inl rfl))
  refine bind_demand (fun entry finds => ?_) fun missing => ?_
  · have has := mem_of_find?_eq_some finds
    have name : entry.1 = pool.id := by simpa using find?_some finds
    have on := here.device pool.device rfl
    have kept := booked.kept _ mapped pool.device on
    obtain rfl : memPools = [(pool.id, entry.2)] := by
      match memPools, has, kept.one with
      | [only], has, _ => rw [← name, mem_singleton.mp has]
    have resides : opened.Resides pool :=
      fun segment there => resides segment (here.segments ▸ there)
    obtain ⟨lists, local_⟩ := snapshot_resides resides
    have holds : ∀ segment ∈ opened.snapshot (some pool.id), ∃ handle,
        (segment.ptr, handle) ∈ opened.bccl.handles bcclComm ∧ entry.2 = handle.window := by
      intro segment there
      obtain ⟨known, owner⟩ := (lists segment).mp there
      obtain ⟨⟨_, handle⟩, member, rfl⟩ := kept.all _ _ (.head _) segment known owner
        (resides segment known owner)
      obtain ⟨other, also, same, _, flag⟩ := kept.live _ member
      obtain rfl := segment_of_ptr booked.distinct also known same
      rw [owner, window_single] at flag
      exact ⟨handle, member, flag.symm⟩
    refine bind_write (bind_read ?_)
    refine wp_mono (deregisterAll_spec bcclComm pool.device entry.2 healthy _
      ((opened.endRegistration bcclComm pool.id).changeMemPools bcclComm fun memPools =>
        memPools.erase entry) booked.ledger (booked.alive _ mapped) local_ (snapshot_distinct booked _) holds)
      (fun _ after ⟨same, ledger, handles, changed, left⟩ => ?_) fun _ _ failed => failed.elim
    have gone : [(pool.id, entry.2)].erase entry = [] := by simp [← name]
    rw [same]
    refine booked.change (fun memPools => memPools.erase entry) ledger changed mapped
      (fun device placed => ?_) fun other owner => ?_
    · obtain rfl := Option.mem_unique on placed
      rw [gone]
      exact kept.deregister lists left
    · change (other, owner) ∈ opened.registrations.filter (· ≠ (bcclComm, pool.id)) ↔ _
      rw [mem_filter, decide_eq_true_iff]
      by_cases here : other = bcclComm
      · subst here
        rw [if_pos rfl, gone]
        refine ⟨fun ⟨registered, different⟩ => ?_, fun ⟨_, has⟩ => by cases has⟩
        obtain ⟨others, symm, there, has⟩ := (booked.registered _ _).mp registered
        obtain ⟨_, rfl⟩ := Prod.mk.inj (inj_on_of_nodup_map booked.single there mapped rfl)
        obtain ⟨same, _⟩ := Prod.mk.inj (mem_singleton.mp has)
        exact absurd (congrArg (Prod.mk other) same) different
      · rw [if_neg here]
        exact and_iff_left_of_imp fun _ same => here (Prod.mk.inj same).1
  · refine .inr (booked.endRegistration fun registered => ?_)
    obtain ⟨others, symm, there, has⟩ := (booked.registered _ _).mp registered
    have one := inj_on_of_nodup_map booked.single there mapped rfl
    obtain ⟨_, rfl⟩ := Prod.mk.inj one
    have none_ := find?_eq_none.mp missing _ has
    simp at none_

theorem Booked.drop (gone : Nat → Prop) [DecidablePred gone]
    (booked : Booked self) (ledger : Bccl.Ledger bccl)
    (emptied : ∀ bcclComm, gone bcclComm → bccl.handles bcclComm = [])
    (others : ∀ other, ¬gone other → bccl.handles other = self.bccl.handles other ∧
      (self.bccl.Alive other → bccl.Alive other))
    (devices : ∀ other, bccl.deviceOf other = self.bccl.deviceOf other) :
    Booked { self with
      bccl
      bcclCommMemPoolMap := self.bcclCommMemPoolMap.filter fun entry => ¬gone entry.1
      registrations := self.registrations.filter fun entry => ¬gone entry.1 } := by
  have stays : ∀ {entry}, entry ∈ self.bcclCommMemPoolMap.filter (fun entry => ¬gone entry.1) →
      entry ∈ self.bcclCommMemPoolMap ∧ ¬gone entry.1 := by
    intro entry there
    obtain ⟨there, spared⟩ := mem_filter.mp there
    exact ⟨there, of_decide_eq_true spared⟩
  constructor
  · exact ledger
  · intro entry there
    obtain ⟨there, spared⟩ := stays there
    exact (others entry.1 spared).2 (booked.alive entry there)
  · exact booked.single.sublist (filter_sublist.map _)
  · intro entry there device on
    obtain ⟨there, spared⟩ := stays there
    change Kept _ _ _ _ (bccl.handles entry.1)
    rw [(others entry.1 spared).1]
    exact booked.kept entry there device ((devices _).symm.trans on)
  · intro other unmapped
    by_cases aborted : gone other
    · exact emptied other aborted
    · refine (others other aborted).1.trans (booked.unmapped other fun there => unmapped ?_)
      obtain ⟨entry, mapped, rfl⟩ := mem_map.mp there
      exact mem_map.mpr ⟨entry, mem_filter.mpr ⟨mapped, decide_eq_true aborted⟩, rfl⟩
  · exact fun group entry there =>
      (congrArg Option.isSome (devices _)).trans (booked.made group entry there)
  · exact fun group device other there => (devices _).trans (booked.keyed group device other there)
  · exact booked.hooks
  · intro none_
    change self.bcclCommMemPoolMap.filter _ = []
    rw [booked.groupless none_]
    rfl
  · intro other pool
    change (other, pool) ∈ self.registrations.filter (fun entry => ¬gone entry.1) ↔ _
    rw [mem_filter, booked.registered, decide_eq_true_iff]
    constructor
    · rintro ⟨⟨memPools, symm, there, has⟩, spared⟩
      exact ⟨memPools, symm, mem_filter.mpr ⟨there, decide_eq_true spared⟩, has⟩
    · rintro ⟨memPools, symm, there, has⟩
      obtain ⟨there, spared⟩ := stays there
      exact ⟨⟨memPools, symm, there, has⟩, spared⟩
  · exact booked.distinct

theorem Booked.emptied {comm : Bccl.BCCLComm} (booked : Booked self)
    (found : self.bccl.comms.get? bcclComm = some comm) (aborted : comm.aborted = true) :
    self.bccl.handles bcclComm = [] := by
  refine booked.unmapped bcclComm fun there => ?_
  obtain ⟨entry, mapped, rfl⟩ := mem_map.mp there
  obtain ⟨other, known, live⟩ := booked.alive entry mapped
  obtain rfl := Option.mem_unique found known
  exact Bool.false_ne_true (live.symm.trans aborted)

theorem Booked.abortWork (booked : Booked self)
    (allowed : KeepsRegistered library self (.abortWork bcclComm))
    (made : (self.bccl.deviceOf bcclComm).isSome = true) :
    InOrder (abortWork library bcclComm) self := by
  obtain ⟨healthy, plain⟩ := allowed
  obtain ⟨device, on⟩ := Option.isSome_iff_exists.mp made
  obtain ⟨comm, found, _⟩ := Option.map_eq_some_iff.mp on
  unfold InOrder Pools.abortWork
  rw [wp_bind]
  refine wp_onComms (wp_mono (Bccl.abort_plain healthy booked.ledger found plain
    (booked.emptied found)) (fun _ bccl ⟨ledger, empty, others, devices⟩ => ?_)
    fun _ _ failed => failed.elim)
  refine (wp_modify _).mpr ?_
  exact booked.drop (· = bcclComm) ledger (fun other same => same ▸ empty) others devices

theorem dropAll (entries : List (CommKey × Nat)) : ∀ self : Registry,
    (forEach (fun entry => modify fun self => self.dropComm entry.2) entries : R Unit) self =
      .ok ⟨⟩ { self with
        bcclCommMemPoolMap := self.bcclCommMemPoolMap.filter fun entry =>
          ¬entry.1 ∈ entries.map (·.2)
        registrations := self.registrations.filter fun entry => ¬entry.1 ∈ entries.map (·.2) } := by
  induction entries with
  | nil =>
    intro self
    simp only [map_nil, not_mem_nil, not_false_eq_true, decide_true, filter_true]
    rfl
  | cons entry rest ih =>
    intro self
    change forEach _ rest (self.dropComm entry.2) = _
    rw [ih]
    simp only [dropComm, filter_filter, map_cons, mem_cons, not_or]
    congr 2 <;> refine filter_congr fun _ _ => ?_ <;> simp [Bool.and_comm]

theorem abortAll_spec (healthy : library.Healthy) (reason : Option String) :
    ∀ (entries : List (CommKey × Nat)) (self : Registry), Bccl.Ledger self.bccl →
      (∀ other comm, self.bccl.comms.get? other = some comm → comm.aborted = true →
        self.bccl.handles other = []) →
      (∀ entry ∈ entries, (self.bccl.deviceOf entry.2).isSome = true ∧
        ∀ held ∈ self.bccl.handles entry.2, held.2.window = false) →
      wp (forEach (fun entry => onComms (Bccl.abort library entry.2 reason)) entries)
        (fun _ after => after = { self with bccl := after.bccl } ∧ Bccl.Ledger after.bccl ∧
          (∀ other ∈ entries.map (·.2), after.bccl.handles other = []) ∧
          (∀ other, other ∉ entries.map (·.2) → after.bccl.handles other = self.bccl.handles other ∧
            (self.bccl.Alive other → after.bccl.Alive other)) ∧
          ∀ other, after.bccl.deviceOf other = self.bccl.deviceOf other)
        (fun _ _ => False) self := by
  intro entries
  induction entries with
  | nil =>
    intro self ledger _ _
    exact ⟨rfl, ledger, by simp, fun _ _ => ⟨rfl, fun alive => alive⟩, fun _ => rfl⟩
  | cons entry rest ih =>
    intro self ledger quiet ready
    obtain ⟨made, plain⟩ := ready entry (.head _)
    obtain ⟨device, on⟩ := Option.isSome_iff_exists.mp made
    obtain ⟨comm, found, _⟩ := Option.map_eq_some_iff.mp on
    unfold forEach
    rw [wp_bind]
    refine wp_onComms (wp_mono (Bccl.abort_plain healthy ledger found plain
      (quiet entry.2 comm found)) (fun _ bccl ran => ?_) fun _ _ failed => failed)
    obtain ⟨ledger, empty, others, devices⟩ := ran
    have silent : ∀ other comm, bccl.comms.get? other = some comm → comm.aborted = true →
        bccl.handles other = [] := by
      intro other comm known aborted
      by_cases same : other = entry.2
      · rw [same, empty]
      · obtain ⟨held, lives⟩ := others other same
        rw [held]
        have placed : self.bccl.deviceOf other = some comm.deviceIndex := by
          rw [← devices, Bccl.World.deviceOf, known]
          rfl
        obtain ⟨before, there, _⟩ := Option.map_eq_some_iff.mp placed
        refine quiet other before there ?_
        cases live : before.aborted with
        | true => rfl
        | false =>
          obtain ⟨member, here, alive⟩ := lives ⟨before, there, live⟩
          obtain rfl := Option.mem_unique known here
          rw [alive] at aborted
          cases aborted
    refine wp_mono (ih { self with bccl } ledger silent fun other there => ?_)
      (fun _ after ran => ?_) fun _ _ failed => failed
    · obtain ⟨made, plain⟩ := ready other (.tail _ there)
      refine ⟨(congrArg Option.isSome (devices _)).trans made, fun held member => ?_⟩
      change held ∈ bccl.handles other.2 at member
      by_cases here : other.2 = entry.2
      · rw [here, empty] at member
        cases member
      · rw [(others _ here).1] at member
        exact plain held member
    · obtain ⟨same, ledger, emptied, spared, placed⟩ := ran
      refine ⟨same, ledger, fun other there => ?_, fun other absent => ?_, fun other =>
        (placed other).trans (devices other)⟩
      · by_cases later : other ∈ rest.map (·.2)
        · exact emptied other later
        · rw [(spared other later).1]
          rcases mem_cons.mp there with rfl | also
          · exact empty
          · exact absurd also later
      · obtain ⟨different, later⟩ := not_or.mp (mt mem_cons.mpr absent)
        obtain ⟨held, lives⟩ := others other different
        obtain ⟨kept, lived⟩ := spared other later
        exact ⟨kept.trans held, fun alive => lived (lives alive)⟩

theorem Booked.abortComms {reason : Option String} (booked : Booked self)
    (allowed : KeepsRegistered library self (.abortComms group reason)) :
    InOrder (abortComms library group reason) self := by
  obtain ⟨healthy, plain⟩ := allowed
  refine bind_read ?_
  rw [wp_bind]
  refine wp_of_ok (dropAll _ self) ?_
  refine wp_mono (abortAll_spec healthy reason _ _ booked.ledger
    (fun other comm found aborted => booked.emptied found aborted)
    fun entry there => ⟨booked.made group entry there, plain entry there⟩)
    (fun _ after ⟨same, ledger, emptied, others, devices⟩ => ?_) fun _ _ failed => failed.elim
  rw [same]
  exact booked.drop (· ∈ (self.devBCCLCommMap group).map (·.2)) ledger emptied others devices

theorem Booked.handle (booked : Booked self)
    (allowed : KeepsRegistered library self event) (possible : event.possible self = true) :
    InOrder (handle library event) self := by
  have nonempty : ∀ {group}, self.groups.contains group = true → self.groups ≠ [] := by
    intro group has none_
    rw [none_] at has
    cases has
  cases event with
  | construct group => exact booked.construct
  | initBCCLComm group key device making =>
    obtain ⟨grouped, suits⟩ := Bool.and_eq_true_iff.mp possible
    refine booked.initBCCLComm allowed (nonempty grouped) fun index same => ?_
    subst same
    exact eq_of_beq suits
  | registerMemPool group pool symm making =>
    obtain ⟨grouped, proper⟩ := Bool.and_eq_true_iff.mp possible
    exact booked.registerMemPool allowed (nonempty grouped) (bne_iff_ne.mp proper)
  | deregisterMemPool group pool making =>
    obtain ⟨grouped, proper⟩ := Bool.and_eq_true_iff.mp possible
    exact booked.deregisterMemPool allowed (nonempty grouped)
  | abortComms group reason => exact booked.abortComms allowed
  | abortWork bcclComm =>
    obtain ⟨group, _, has⟩ := any_eq_true.mp possible
    obtain ⟨entry, there, same⟩ := any_eq_true.mp has
    obtain rfl := eq_of_beq same
    exact booked.abortWork allowed (booked.made group entry there)
  | allocate segment => exact booked.allocate allowed (Bool.and_eq_true_iff.mp possible).1
  | release segment =>
    exact booked.release allowed (contains_iff_mem.mp (Bool.and_eq_true_iff.mp possible).1)
  | mapRange segment =>
    obtain ⟨both, expandable⟩ := Bool.and_eq_true_iff.mp possible
    obtain ⟨fresh, default⟩ := Bool.and_eq_true_iff.mp both
    exact booked.mapRange fresh (eq_of_beq default) expandable
  | unmapRange segment =>
    obtain ⟨both, expandable⟩ := Bool.and_eq_true_iff.mp possible
    obtain ⟨there, default⟩ := Bool.and_eq_true_iff.mp both
    exact booked.unmapRange (contains_iff_mem.mp there) (eq_of_beq default) expandable

theorem Booked.step {after : Registry} (booked : Booked self)
    (allowed : KeepsRegistered library self event)
    (taken : self.advance library event = some after) : Booked after := by
  unfold advance at taken
  split at taken
  · next possible =>
      have order := booked.handle allowed possible
      split at taken
      · next ran =>
          cases taken
          exact wp_ok order ran
      · next exception _ ran =>
          split at taken
          · cases taken
          · next defined =>
              cases taken
              exact (wp_error order ran).resolve_left defined
  · cases taken

end Booked

theorem booked_initial {library : Bccl.Library} {self : Registry}
    (begins : (registrySystem library).initial self) : Booked self := by
  obtain ⟨environmentFlag, expandableSegments, rfl⟩ := begins
  have none_ : ∀ id, ({} : Bccl.World).handles id = [] := fun id => by
    rw [Bccl.World.handles, Store.get?_empty]
    rfl
  have empty {α : Type} {claim : α → Prop} : ∀ element ∈ ([] : List α), claim element := by simp
  refine ⟨⟨?_, ?_, ?_, empty, nodup_nil, empty, empty⟩, empty, nodup_nil, empty,
    fun id _ => none_ id, fun _ => empty, fun _ _ _ member => absurd member not_mem_nil, ?_,
    fun _ => rfl, ?_, nodup_nil⟩
  · intro id entry member
    rw [none_] at member
    cases member
  · intro id other entry member
    rw [none_] at member
    cases member
  · intro id
    rw [none_]
    exact nodup_nil
  · exact (Bool.and_false _).symm
  · intro bcclComm pool
    refine ⟨fun registered => (by cases registered), ?_⟩
    rintro ⟨_, _, there, _⟩
    cases there

/-- While a pool is registered with a communicator, that communicator has registered the pool's
segments on its device and no others; none is freed or unmapped before, and every handle goes back
once, with its API. -/
theorem pools_registered (library : Bccl.Library) (registry : Registry)
    (reached : (registrySystem library).Reachable (KeepsRegistered library) registry) :
    WellRegistered registry :=
  (reached.invariant (fun _ begins => booked_initial begins)
    fun _ _ _ booked allowed taken => booked.step allowed taken).wellRegistered

section Runs

def finalRegistry (guard : Registry → Event → Bool) (environmentFlag : Bool)
    (events : List Event) : Registry :=
  (System.runs (Registry.advance Bccl.reliable) guard
    { environmentFlag, expandableSegments := false } events).getD
      { environmentFlag, expandableSegments := false }

theorem reachable_finalRegistry {allowed : Registry → Event → Prop}
    (guard : Registry → Event → Bool) (environmentFlag : Bool) (events : List Event)
    (ends : (System.runs (Registry.advance Bccl.reliable) guard
      { environmentFlag, expandableSegments := false } events).isSome = true)
    (allow : ∀ self event, guard self event = true → allowed self event) :
    (registrySystem Bccl.reliable).Reachable allowed (finalRegistry guard environmentFlag events) := by
  have begins : (registrySystem Bccl.reliable).Reachable allowed
      { environmentFlag, expandableSegments := false } := .initial ⟨_, _, rfl⟩
  exact begins.ended (fun _ _ _ taken => taken) allow ends _

def permits (self : Registry) : Event → Bool
  | .registerMemPool _ pool symm _ => self.registrations.isEmpty && !symm &&
      self.segments.all fun segment => segment.device == pool.device && segment.pool == pool.id
  | .allocate segment => self.useTensorRegisterAllocatorHook &&
      self.registrations.all fun registered => segment.pool == registered.2
  | .release segment => self.useTensorRegisterAllocatorHook &&
      self.bcclCommMemPoolMap.all fun entry =>
        (self.bccl.handles entry.1).any fun held => held.1 == segment.ptr
  | .construct _ => true
  | _ => false

theorem allowed_of_permits (self : Registry) (event : Event) (passes : permits self event = true) :
    KeepsRegistered Bccl.reliable self event := by
  refine ⟨fun _ => rfl, ?_⟩
  cases event with
  | construct group => trivial
  | mapRange segment => trivial
  | unmapRange segment => trivial
  | registerMemPool group pool symm making =>
    obtain ⟨both, fits⟩ := Bool.and_eq_true_iff.mp passes
    obtain ⟨free, plain⟩ := Bool.and_eq_true_iff.mp both
    have free : self.registrations = [] := isEmpty_iff.mp free
    have plain : symm = false := by simpa using plain
    have fits : ∀ segment ∈ self.segments, segment.device = pool.device ∧ segment.pool = pool.id := by
      simpa using fits
    refine ⟨fun _ _ segment there => (fits segment (mem_snapshot.mp there).1).1,
      fun segment there _ => (fits segment there).1, fun bcclComm _ other registered => ?_,
      fun _ segment there _ => ⟨(fits segment there).2, plain⟩⟩
    rw [free] at registered
    cases registered
  | allocate segment =>
    obtain ⟨hooked, fits⟩ := Bool.and_eq_true_iff.mp passes
    intro bcclComm pool registered _
    have owner := all_eq_true.mp fits _ registered
    exact ⟨fun _ => hooked, fun _ => eq_of_beq owner⟩
  | release segment =>
    obtain ⟨hooked, held⟩ := Bool.and_eq_true_iff.mp passes
    dsimp only
    rw [if_pos hooked]
    intro entry mapped _
    obtain ⟨one, member, same⟩ := any_eq_true.mp (all_eq_true.mp held entry mapped)
    exact ⟨one, member, eq_of_beq same⟩
  | initBCCLComm group key device making => cases passes
  | deregisterMemPool group pool making => cases passes
  | abortComms group reason => cases passes
  | abortWork bcclComm => cases passes

/-- With the hooks the communicator follows the pool. -/
theorem pools_registered_sample :
    let final := finalRegistry permits true [.construct 0, .allocate ⟨512, 64, 0, (0, 1)⟩,
      .registerMemPool 0 ⟨(0, 1), 0⟩ false {}, .allocate ⟨1024, 64, 0, (0, 1)⟩,
      .release ⟨512, 64, 0, (0, 1)⟩]
    WellRegistered final ∧ final.registrations = [(0, (0, 1))] ∧
      (final.bccl.handles 0).map (·.1) = [1024] :=
  ⟨pools_registered Bccl.reliable _
    (reachable_finalRegistry permits _ _ (by decide +kernel) allowed_of_permits), by decide +kernel,
    by decide +kernel⟩

/-- Without them it does not know of a segment that comes later. -/
theorem pools_not_registered : ¬ ∀ registry,
    (registrySystem Bccl.reliable).Reachable (fun _ _ => True) registry → WellRegistered registry := by
  intro all
  have none_ : (finalRegistry (fun _ _ => true) false [.construct 0,
      .registerMemPool 0 ⟨(0, 1), 0⟩ false {}, .allocate ⟨512, 64, 0, (0, 1)⟩]).bccl.handles 0 =
      [] := by decide +kernel
  have registered := all _ (reachable_finalRegistry (fun _ _ => true) false
    [.construct 0, .registerMemPool 0 ⟨(0, 1), 0⟩ false {}, .allocate ⟨512, 64, 0, (0, 1)⟩]
    (by decide +kernel) fun _ _ _ => trivial)
  obtain ⟨held, member, _⟩ := (registered.exact 0 (0, 1) (by decide +kernel) 512).mpr
    (by decide +kernel)
  rw [none_] at member
  cases member

end Runs

end TorchSupa.Distributed.Pools
