import TorchSupa.MemPools.Serving
import TorchSupa.MemPools.Routing
import TorchSupa.MemPools.EmptyCache

/-!
`ProcessGroupBCCL::allocateTensor`, which opens the memory pool of the process group with explicit
calls around the allocation: what is left when a step between these calls throws.
-/

namespace TorchSupa.MemPools.AllocateTensor

open Outcome Allocator TorchSupa.Graph Function

structure Host where
  allocators : DeviceIndex → DeviceCachingAllocator
  deviceCount : Nat
  currentDevice : DeviceIndex
  currentStream : DeviceIndex → Stream
  thread : Thread
  activeMempool : Option MemPool
  uid : Nat
  memPool : Option (MemPool × DeviceIndex)

abbrev HostM := EStateM Exn Host

structure Backend where
  driver : Driver
  callbacks : Callbacks
  supportsTensorAlloc : Bool
  bcclMemAllocator : AllocatorId
  /-- what `registerMemPool` throws; it reads the allocators and registers with communicators -/
  registerMemPool : Host → Option Exn

structure Device where
  isPrivateuseone : Bool
  index : Option DeviceIndex
deriving DecidableEq, Repr

structure TensorOptions where
  device : Option Device
  itemsize : Nat
deriving DecidableEq, Repr

def onDevice {α : Type} (device : DeviceIndex) (method : M α) : HostM α := fun host =>
  if device < host.deviceCount then
    match method { host.allocators device with caller := ⟨host.thread, host.activeMempool⟩ } with
    | .ok value after =>
      .ok value { host with allocators := Function.update host.allocators device after }
    | .error exception after =>
      .error exception { host with allocators := Function.update host.allocators device after }
  else .error (.torchCheck "Invalid device argument.") host

def withDevice {α : Type} (index : Option DeviceIndex) (body : HostM α) : HostM α := do
  let original := (← get).currentDevice
  let device := index.getD original
  check (device < (← get).deviceCount) .driver
  modify fun host => { host with currentDevice := device }
  fun host =>
    match body host with
    | .ok value after => .ok value { after with currentDevice := original }
    | .error exception after => .error exception { after with currentDevice := original }

def withMemPool {α : Type} (pool : MemPool) (body : HostM α) : HostM α := fun host =>
  match body { host with activeMempool := some pool } with
  | .ok value after => .ok value { after with activeMempool := host.activeMempool }
  | .error exception after => .error exception { after with activeMempool := host.activeMempool }

def ensureMemPool (backend : Backend) : HostM (MemPool × DeviceIndex) := do
  match (← get).memPool with
  | some pool => pure pool
  | none => do
      check backend.supportsTensorAlloc
        (.torchCheck "BCCL mem allocator is not supported in this BCCL version")
      let host ← get
      let pool : MemPool := { id := (0, host.uid), allocator := some backend.bcclMemAllocator }
      modify fun host => { host with uid := host.uid + 1 }
      onDevice host.currentDevice (createOrIncrefPool pool.id pool.allocator)
      modify fun after => { after with memPool := some (pool, host.currentDevice) }
      pure (pool, host.currentDevice)

def empty (backend : Backend) (size : Int) (options : TensorOptions) : HostM (Option BlockId) := do
  check (0 ≤ size) (.torchCheck "Trying to create tensor with negative dimension")
  let bytes := size.toNat * options.itemsize
  check (bytes < 2 ^ 60)
    (.torchCheck "SUPA out of memory. Tried to allocate more than 1EB memory.")
  let host ← get
  if bytes = 0 then pure none
  else some <$> onDevice host.currentDevice (malloc backend.driver backend.callbacks
    host.currentDevice bytes (host.currentStream host.currentDevice))

def destroy (backend : Backend) (tensor : Option BlockId) : HostM Unit := fun host =>
  match tensor with
  | none => .ok () host
  | some block => .ok () (final (onDevice host.currentDevice (free backend.driver block)) host)

def registerMemPool (backend : Backend) (tensor : Option BlockId) : HostM Unit := do
  match backend.registerMemPool (← get) with
  | some exception => do
      destroy backend tensor
      throw exception
  | none => pure ()

def allocateFrom (backend : Backend) (pool : MemPool × DeviceIndex) (size : Int)
    (options : TensorOptions) : HostM (Option BlockId) := do
  onDevice pool.2 (beginAllocateToPool pool.1.id everything)
  let tensor ← empty backend size options
  registerMemPool backend tensor
  onDevice pool.2 (endAllocateToPool pool.1.id)
  onDevice pool.2 (releasePool pool.1.id)
  pure tensor

def allocateTensor (backend : Backend) (size : Int) (options : TensorOptions) :
    HostM (Option BlockId) := do
  let device ← demand options.device (.torchCheck "Tensor options must include device")
  check device.isPrivateuseone (.torchCheck "BCCL tensor allocator expects supa type but got ")
  withDevice device.index do
    let pool ← ensureMemPool backend
    withMemPool pool.1 (allocateFrom backend pool size options)

def Host.route (host : Host) (device : DeviceIndex) (size : Nat) (stream : Stream) :
    Option PoolRef :=
  match getPool size stream
      { host.allocators device with caller := ⟨host.thread, host.activeMempool⟩ } with
  | .ok pool _ => some pool
  | .error _ _ => none

structure Restored (pool : MemPool × DeviceIndex) (before after : Host) : Prop where
  captures : ∀ device, (after.allocators device).capturesUnderway =
    (before.allocators device).capturesUnderway
  count : useCount (after.allocators pool.2) pool.1.id =
    useCount (before.allocators pool.2) pool.1.id
  active : after.activeMempool = before.activeMempool
  routes : ∀ device size stream, after.route device size stream = before.route device size stream

def Activates (backend : Backend) (options : TensorOptions) (host : Host)
    (pool : MemPool × DeviceIndex) (inside : Host) : Prop :=
  ∃ device, options.device = some device ∧ device.isPrivateuseone = true ∧
    device.index.getD host.currentDevice < host.deviceCount ∧
    ensureMemPool backend { host with currentDevice := device.index.getD host.currentDevice } =
      .ok pool inside

/-- If a step throws once the pool is activated, everything about it is as before. -/
def AllocatesAtomically (backend : Backend) (size : Int) (options : TensorOptions) (host : Host) :
    Prop :=
  wp (allocateTensor backend size options) (fun _ _ => True)
    (fun exception after => exception.Fatal ∨ ∀ pool inside,
      Activates backend options host pool inside → Restored pool host after) host

/-- `beginAllocateToPool` throws before it has changed anything. -/
def Refuses (host : Host) (pool : MemPool × DeviceIndex) : Prop :=
  ¬ pool.2 < host.deviceCount ∨ Freeable (host.allocators pool.2) pool.1.id

def Host.opened (host : Host) (pool : MemPool × DeviceIndex) : Host :=
  { host with
    activeMempool := some pool.1
    allocators := Function.update host.allocators pool.2
      (final (beginAllocateToPool pool.1.id everything)
        { host.allocators pool.2 with caller := ⟨host.thread, some pool.1⟩ }) }

/-- The pool is not recorded to, and while it is open neither the allocation nor the registration
throws. -/
structure Serves (backend : Backend) (size : Int) (options : TensorOptions) (host : Host)
    (pool : MemPool × DeviceIndex) : Prop where
  unrecorded : ∀ entry ∈ (host.allocators pool.2).capturesUnderway, entry.1 ≠ pool.1.id
  fills : wp (empty backend size options)
    (fun _ filled => ∀ exception, backend.registerMemPool filled = some exception → exception.Fatal)
    (fun exception _ => exception.Fatal) (host.opened pool)

section Steps

variable {α β : Type} {host : Host} {normal : β → Host → Prop} {thrown : Exn → Host → Prop}

def Host.entered (host : Host) (device : DeviceIndex) : DeviceCachingAllocator :=
  { host.allocators device with caller := ⟨host.thread, host.activeMempool⟩ }

def Host.setAllocator (host : Host) (device : DeviceIndex) (after : DeviceCachingAllocator) : Host :=
  { host with allocators := Function.update host.allocators device after }

variable {device : DeviceIndex} {after : DeviceCachingAllocator}

theorem bind_onDevice {method : M α} {next : α → HostM β}
    (returns : ∀ value after, device < host.deviceCount →
      method (host.entered device) = .ok value after →
      wp (next value) normal thrown (host.setAllocator device after))
    (throws : ∀ exception after, device < host.deviceCount →
      method (host.entered device) = .error exception after →
      thrown exception (host.setAllocator device after))
    (invalid : ¬ device < host.deviceCount → thrown (.torchCheck "Invalid device argument.") host) :
    wp (onDevice device method >>= next) normal thrown host := by
  rw [wp_bind]
  unfold wp onDevice
  by_cases valid : device < host.deviceCount
  · rw [if_pos valid]
    unfold Host.entered at returns throws
    cases run : method { host.allocators device with caller := ⟨host.thread, host.activeMempool⟩ } with
    | ok value after => exact returns value after valid run
    | error exception after => exact throws exception after valid run
  · rw [if_neg valid]
    exact invalid valid

theorem unrelated_of_entered (unrelated : Unrelated (host.entered device) after) :
    Unrelated (host.allocators device) after :=
  ⟨unrelated.sound, unrelated.captures, unrelated.counts⟩

theorem sound_entered (sound : ∀ device, PoolsSound (host.allocators device))
    (device : DeviceIndex) : PoolsSound (host.entered device) :=
  have here := sound device
  ⟨here.names, here.distinct, here.alive, here.freeable⟩

structure Served (before after : Host) : Prop where
  allocators : ∀ device, Unrelated (before.allocators device) (after.allocators device)
  others : after = { before with allocators := after.allocators }

theorem Served.refl (sound : ∀ device, PoolsSound (host.allocators device)) : Served host host :=
  ⟨fun device => .refl (sound device), rfl⟩

theorem Served.set (sound : ∀ device, PoolsSound (host.allocators device))
    (unrelated : Unrelated (host.entered device) after) :
    Served host (host.setAllocator device after) := by
  refine ⟨fun other => ?_, rfl⟩
  unfold Host.setAllocator
  dsimp only
  by_cases same : other = device
  · subst same
    rw [update_self]
    exact unrelated_of_entered unrelated
  · rw [update_of_ne same]
    exact .refl (sound other)

theorem empty_served (backend : Backend) (size : Int) (options : TensorOptions)
    (sound : ∀ device, PoolsSound (host.allocators device)) :
    wp (empty backend size options) (fun _ after => Served host after)
      (fun _ after => Served host after) host := by
  refine bind_check (fun _ => bind_check (fun _ => bind_read ?_) fun _ => .refl sound)
    fun _ => .refl sound
  split
  · exact .refl sound
  · have spec := @unrelated_malloc backend.driver backend.callbacks host.currentDevice
      (size.toNat * options.itemsize) (host.currentStream host.currentDevice)
      (host.entered host.currentDevice) (host.entered host.currentDevice)
      (.refl (sound_entered sound host.currentDevice))
    refine bind_onDevice (fun block after _ run => ?_) (fun exception after _ run => ?_)
      fun _ => .refl sound
    · have kept := wp_ok spec run
      exact .set sound kept
    · have kept := wp_error spec run
      exact .set sound (kept.resolve_left id)

theorem destroy_served (backend : Backend) (tensor : Option BlockId)
    (sound : ∀ device, PoolsSound (host.allocators device)) :
    wp (destroy backend tensor) (fun _ after => Served host after) (fun _ _ => False) host := by
  cases tensor with
  | none => exact .refl sound
  | some block =>
    refine wp_final (Served host) ?_
    have spec := @unrelated_of_silent _ _ (@silent_free backend.driver block)
      (host.entered host.currentDevice) (host.entered host.currentDevice)
      (.refl (sound_entered sound host.currentDevice))
    rw [← bind_pure (onDevice _ _)]
    refine bind_onDevice (fun _ after _ run => ?_) (fun exception after _ run => ?_)
      fun _ => .refl sound
    · have kept := wp_ok spec run
      exact .set sound kept
    · have kept := wp_error spec run
      exact .set sound (kept.resolve_left id)

end Steps

section Atomicity

variable {backend : Backend} {size : Int} {options : TensorOptions} {host : Host}
  {pool : MemPool × DeviceIndex}

variable {α : Type} {body : HostM α} {normal : α → Host → Prop} {thrown : Exn → Host → Prop}
  {inside after : Host}

theorem wp_withMemPool {active : MemPool} : wp (withMemPool active body) normal thrown host ↔
      wp body (fun value after => normal value { after with activeMempool := host.activeMempool })
        (fun exception after => thrown exception { after with activeMempool := host.activeMempool })
        { host with activeMempool := some active } := by
  unfold wp withMemPool
  cases body { host with activeMempool := some active } <;> rfl

theorem leave_returns {filled : Host} (sound : ∀ device, PoolsSound (filled.allocators device))
    (valid : pool.2 < filled.deviceCount)
    (recording : ∃ entry ∈ (filled.allocators pool.2).capturesUnderway, entry.1 = pool.1.id)
    (used : 1 ≤ useCount (filled.allocators pool.2) pool.1.id) (tensor : Option BlockId) :
    wp (do
        onDevice pool.2 (endAllocateToPool pool.1.id)
        onDevice pool.2 (releasePool pool.1.id)
        pure tensor) (fun _ _ => True) (fun _ _ => False) filled := by
  have ends : endAllocateToPool pool.1.id (filled.entered pool.2) = _ :=
    endAllocateToPool_spec pool.1.id recording
  refine bind_onDevice (fun _ ended _ run => ?_) (fun _ ended _ run => ?_) fun invalid => invalid valid
  · rw [ends] at run
    cases run
    have here := sound pool.2
    obtain ⟨released, returns, _, _⟩ := @releasePool_returns
      (Host.entered (filled.setAllocator pool.2 { filled.entered pool.2 with
        capturesUnderway :=
          (filled.entered pool.2).capturesUnderway.eraseP (·.1 == pool.1.id) }) pool.2) pool.1.id
      (by
        unfold Host.entered Host.setAllocator
        dsimp only
        rw [update_self]
        exact ⟨here.names, here.distinct, here.alive, here.freeable⟩)
      (by
        unfold Host.entered Host.setAllocator
        dsimp only
        rw [update_self]
        exact used)
    refine bind_onDevice (fun _ _ _ _ => trivial) (fun _ after _ run => ?_) fun invalid => invalid valid
    rw [returns] at run
    cases run
  · rw [ends] at run
    cases run

theorem nonneg_of_usable {allocator : DeviceCachingAllocator} {mempoolId : MempoolId}
    (usable : ¬ Freeable allocator mempoolId) : 0 ≤ useCount allocator mempoolId := by
  cases found : allocator.graphPools.find? (·.1 == mempoolId) with
  | none => rw [useCount_of_absent found]
  | some entry =>
    by_contra negative
    exact usable ⟨by simp [found], by omega⟩

def Leaks (pool : MemPool × DeviceIndex) (before after : Host) : Prop :=
  (∃ entry, (after.allocators pool.2).capturesUnderway =
    (before.allocators pool.2).capturesUnderway ++ [entry]) ∨
  useCount (after.allocators pool.2) pool.1.id =
    useCount (before.allocators pool.2) pool.1.id + 1

theorem Leaks.not_restored (leaks : Leaks pool inside after)
    (captures : (inside.allocators pool.2).capturesUnderway =
      (host.allocators pool.2).capturesUnderway)
    (count : useCount (host.allocators pool.2) pool.1.id ≤
      useCount (inside.allocators pool.2) pool.1.id) : ¬ Restored pool host after := by
  intro restored
  rcases leaks with ⟨entry, left⟩ | left
  · have same := (restored.captures pool.2).symm.trans (left.trans (by rw [captures]))
    have lengths := congrArg List.length same
    simp at lengths
  · have same := restored.count
    omega

theorem restored_of_callers (thread : after.thread = host.thread)
    (active : after.activeMempool = host.activeMempool)
    (callers : ∀ device, ∃ caller, after.allocators device = { host.allocators device with caller }) :
    Restored pool host after := by
  refine ⟨fun device => ?_, ?_, active, fun device size stream => ?_⟩
  · obtain ⟨caller, same⟩ := callers device
    rw [same]
  · obtain ⟨caller, same⟩ := callers pool.2
    rw [same]
    rfl
  · obtain ⟨caller, same⟩ := callers device
    unfold Host.route
    rw [same, thread, active]

theorem allocateFrom_exact (sound : ∀ device, PoolsSound (host.allocators device)) :
    wp (withMemPool pool.1 (allocateFrom backend pool size options))
      (fun _ _ => ¬ Refuses host pool ∧ Serves backend size options host pool)
      (fun exception after => Refuses host pool ∧ Restored pool host after ∨
        ¬ Refuses host pool ∧ Serves backend size options host pool ∧ exception.Fatal ∨
        ¬ Refuses host pool ∧ ¬ Serves backend size options host pool ∧ ¬ exception.Fatal ∧
          Leaks pool host after) host := by
  rw [wp_withMemPool]
  unfold allocateFrom
  have begins := beginAllocateToPool_outcome
    (@sound_entered { host with activeMempool := some pool.1 } sound pool.2) pool.1.id everything
  refine bind_onDevice (fun _ opened valid run => ?_) (fun exception after valid run => ?_)
    fun invalid => ?_
  · obtain ⟨admits, counted, captures⟩ := wp_ok begins run
    have opens : Host.setAllocator { host with activeMempool := some pool.1 } pool.2 opened =
        host.opened pool := by
      unfold Host.opened Host.setAllocator final
      have entered : ({ host with activeMempool := some pool.1 } : Host).entered pool.2 =
          { host.allocators pool.2 with caller := ⟨host.thread, some pool.1⟩ } := rfl
      rw [entered] at run
      rw [run]
    have admitted : ¬ Refuses host pool := by
      rintro (invalid | freeable)
      · exact invalid valid
      · exact admits.1 freeable
    have here : (host.opened pool).allocators pool.2 = opened := by
      rw [← opens]
      exact update_self _ _ _
    have openedSound : ∀ device, PoolsSound ((host.opened pool).allocators device) := by
      intro device
      by_cases same : device = pool.2
      · rw [same, here]
        exact counted.sound
      · rw [← opens]
        unfold Host.setAllocator
        dsimp only
        rw [update_of_ne same]
        exact sound device
    have served := empty_served backend size options openedSound
    rw [opens, wp_bind]
    cases fill : empty backend size options (host.opened pool) with
    | error exception filled =>
      have unrelated := (wp_error served fill).allocators pool.2
      rw [here] at unrelated
      unfold wp
      rw [fill]
      refine .inr ?_
      by_cases fatal : exception.Fatal
      · refine .inl ⟨admitted, ⟨admits.2, ?_⟩, fatal⟩
        unfold wp
        rwa [fill]
      · refine .inr ⟨admitted, fun serves => ?_, fatal, ?_⟩
        · have excused := wp_error serves.fills fill
          exact fatal excused
        · exact .inl ⟨_, unrelated.captures.trans captures⟩
    | ok tensor filled =>
      have kept := wp_ok served fill
      have unrelated := kept.allocators pool.2
      rw [here] at unrelated
      refine wp_of_ok fill ?_
      unfold registerMemPool
      rw [bind_assoc]
      refine bind_read ?_
      cases registers : backend.registerMemPool filled with
      | some exception =>
        rw [bind_assoc]
        have destroyed := destroy_served backend tensor fun device => (kept.allocators device).sound
        refine wp_seq _ (wp_mono destroyed (fun _ _ holds => holds) fun _ _ absurd => absurd.elim)
          fun _ after dropped => .inr ?_
        have left := (dropped.allocators pool.2).captures
        by_cases fatal : exception.Fatal
        · refine .inl ⟨admitted, ⟨admits.2, wp_of_ok fill ?_⟩, fatal⟩
          intro other same
          rw [registers] at same
          cases same
          exact fatal
        · refine .inr ⟨admitted, fun serves => ?_, fatal, ?_⟩
          · exact fatal (wp_ok serves.fills fill exception registers)
          · exact .inl ⟨_, left.trans (unrelated.captures.trans captures)⟩
      | none =>
        have serves : Serves backend size options host pool := by
          refine ⟨admits.2, wp_of_ok fill ?_⟩
          intro exception same
          rw [registers] at same
          cases same
        refine wp_mono (leave_returns (fun device => (kept.allocators device).sound) ?_ ?_ ?_ tensor)
          (fun _ _ _ => ⟨admitted, serves⟩) fun _ _ absurd => absurd.elim
        · rw [kept.others]
          exact valid
        · rw [unrelated.captures, captures]
          exact ⟨(pool.1.id, everything), by simp, rfl⟩
        · rw [unrelated.counts, counted.here]
          have counts := nonneg_of_usable admits.1
          omega
  · rcases wp_error begins run with ⟨freeable, same⟩ | ⟨usable, recorded, survives, count⟩
    · refine .inl ⟨.inr freeable, restored_of_callers rfl rfl fun device => ?_⟩
      subst same
      by_cases here : device = pool.2
      · subst here
        exact ⟨⟨host.thread, some pool.1⟩, update_self _ _ _⟩
      · exact ⟨(host.allocators device).caller, update_of_ne here _ _⟩
    · refine .inr (.inr ⟨?_, ?_, survives, ?_⟩)
      · rintro (invalid | freeable)
        · exact invalid valid
        · exact usable freeable
      · intro serves
        exact recorded ⟨usable, serves.unrecorded⟩
      · refine .inr ?_
        unfold Host.setAllocator
        dsimp only
        rw [update_self]
        exact count
  · exact .inl ⟨.inl invalid, ⟨fun _ => rfl, rfl, rfl, fun _ _ _ => rfl⟩⟩

structure Readied (before inside : Host) (pool : MemPool × DeviceIndex) : Prop where
  sound : ∀ device, PoolsSound (inside.allocators device)
  captures : (inside.allocators pool.2).capturesUnderway =
    (before.allocators pool.2).capturesUnderway
  count : useCount (before.allocators pool.2) pool.1.id ≤
    useCount (inside.allocators pool.2) pool.1.id
  fresh : inside = before ∨ ¬ Refuses inside pool

theorem ensureMemPool_readied (sound : ∀ device, PoolsSound (host.allocators device)) :
    wp (ensureMemPool backend) (fun pool inside => Readied host inside pool) (fun _ _ => True)
      host := by
  refine bind_read ?_
  cases host.memPool with
  | some pool => exact ⟨sound, rfl, le_refl _, .inl rfl⟩
  | none =>
    refine bind_check (fun _ => bind_read (bind_write ?_)) fun _ => trivial
    have spec := @createOrIncrefPool_spec _ (sound_entered sound host.currentDevice)
      (0, host.uid) (some backend.bcclMemAllocator)
    refine bind_onDevice (fun _ after valid run => ?_) (fun _ _ _ _ => trivial) fun _ => trivial
    obtain ⟨counted, captures, usable⟩ := wp_ok spec run
    refine bind_write ?_
    have counts : 0 ≤ useCount (host.allocators host.currentDevice) (0, host.uid) :=
      nonneg_of_usable usable
    have raised : useCount after (0, host.uid) =
        useCount (host.allocators host.currentDevice) (0, host.uid) + 1 := counted.here
    have here : Function.update host.allocators host.currentDevice after host.currentDevice =
        after := update_self _ _ _
    refine ⟨fun device => ?_, ?_, ?_, .inr ?_⟩
    · by_cases same : device = host.currentDevice
      · subst same
        unfold Host.setAllocator
        dsimp only
        rw [here]
        exact counted.sound
      · unfold Host.setAllocator
        dsimp only
        rw [update_of_ne same]
        exact sound device
    · unfold Host.setAllocator
      dsimp only
      rw [here]
      exact captures
    · unfold Host.setAllocator
      dsimp only
      rw [here]
      omega
    · rintro (invalid | freeable)
      · exact invalid valid
      · have unused := freeable.2
        unfold Host.setAllocator at unused
        dsimp only at unused
        rw [here] at unused
        omega

theorem wp_withDevice {index : Option DeviceIndex}
    (valid : index.getD host.currentDevice < host.deviceCount) :
    wp (withDevice index body) normal thrown host ↔
      wp body (fun value after => normal value { after with currentDevice := host.currentDevice })
        (fun exception after => thrown exception { after with currentDevice := host.currentDevice })
        { host with currentDevice := index.getD host.currentDevice } := by
  have runs : withDevice index body host =
      (match body { host with currentDevice := index.getD host.currentDevice } with
      | .ok value after => .ok value { after with currentDevice := host.currentDevice }
      | .error exception after =>
        .error exception { after with currentDevice := host.currentDevice }) := by
    unfold withDevice check
    rw [run_bind, run_get]
    dsimp only
    rw [run_bind, run_get]
    dsimp only
    rw [if_pos (decide_eq_true valid)]
    rfl
  unfold wp
  rw [runs]
  cases body { host with currentDevice := index.getD host.currentDevice } <;> rfl

theorem activates_iff {device : Device} (given : options.device = some device)
    (isPrivateuseone : device.isPrivateuseone = true)
    (valid : device.index.getD host.currentDevice < host.deviceCount) :
    Activates backend options host pool inside ↔
      ensureMemPool backend { host with currentDevice := device.index.getD host.currentDevice } =
        .ok pool inside := by
  refine ⟨?_, fun made => ⟨device, given, isPrivateuseone, valid, made⟩⟩
  rintro ⟨other, same, _, _, made⟩
  rw [given] at same
  cases same
  exact made

theorem Restored.elsewhere {first last : DeviceIndex} (restored : Restored pool inside after)
    (same : inside = { host with currentDevice := first }) :
    Restored pool host { after with currentDevice := last } := by
  subst same
  exact ⟨restored.captures, restored.count, restored.active, restored.routes⟩

theorem atomic_iff_inside (activates : Activates backend options host pool inside) :
    AllocatesAtomically backend size options host ↔
      wp (withMemPool pool.1 (allocateFrom backend pool size options)) (fun _ _ => True)
        (fun exception after => exception.Fatal ∨
          Restored pool host { after with currentDevice := host.currentDevice }) inside := by
  obtain ⟨device, given, isPrivateuseone, valid, made⟩ := activates
  have only : ∀ other there, Activates backend options host other there →
      other = pool ∧ there = inside := by
    intro other there activates
    have same := (activates_iff given isPrivateuseone valid).mp activates
    rw [made] at same
    cases same
    exact ⟨rfl, rfl⟩
  unfold AllocatesAtomically allocateTensor demand check
  rw [given]
  rw [pure_bind, if_pos isPrivateuseone, pure_bind, wp_withDevice valid, wp_bind]
  have resume : ∀ {finish : MemPool × DeviceIndex → Host → Prop} {thrown : Exn → Host → Prop},
      wp (ensureMemPool backend) finish thrown
        { host with currentDevice := device.index.getD host.currentDevice } ↔
        finish pool inside := by
    intro finish thrown
    unfold wp
    rw [made]
  rw [resume]
  refine ⟨fun holds => wp_mono holds (fun _ _ _ => trivial) fun exception after excused => ?_,
    fun holds => wp_mono holds (fun _ _ _ => trivial) fun exception after excused => ?_⟩
  · exact excused.imp_right fun restored =>
      restored pool inside ⟨device, given, isPrivateuseone, valid, made⟩
  · refine excused.imp_right fun restored other there activates => ?_
    obtain ⟨rfl, rfl⟩ := only other there activates
    exact restored

/-- `allocateTensor` is atomic if and only if the pool is refused before anything is counted, or
nothing throws once the pool is open. -/
theorem allocateTensor_atomic_iff (backend : Backend) (size : Int) (options : TensorOptions)
    (host : Host) (sound : ∀ device, PoolsSound (host.allocators device)) :
    AllocatesAtomically backend size options host ↔
      ∀ pool inside, Activates backend options host pool inside →
        Refuses inside pool ∨ Serves backend size options inside pool := by
  by_cases comes : ∃ pool inside, Activates backend options host pool inside
  · obtain ⟨pool, inside, activates⟩ := comes
    obtain ⟨device, given, isPrivateuseone, valid, made⟩ := id activates
    have spec := @ensureMemPool_readied backend
      { host with currentDevice := device.index.getD host.currentDevice } sound
    have readied := wp_ok spec made
    have exact := @allocateFrom_exact backend size options inside pool readied.sound
    rw [atomic_iff_inside activates]
    have one : (∀ pool inside, Activates backend options host pool inside →
        Refuses inside pool ∨ Serves backend size options inside pool) ↔
        (Refuses inside pool ∨ Serves backend size options inside pool) := by
      refine ⟨fun every => every pool inside activates, fun here other there activates => ?_⟩
      have same := (activates_iff given isPrivateuseone valid).mp activates
      rw [made] at same
      cases same
      exact here
    rw [one]
    unfold wp at exact ⊢
    cases run : withMemPool pool.1 (allocateFrom backend pool size options) inside with
    | ok tensor after =>
      rw [run] at exact
      exact iff_of_true trivial (Or.inr exact.2)
    | error exception after =>
      rw [run] at exact
      rcases exact with ⟨refuses, restored⟩ | ⟨_, serves, fatal⟩ | ⟨admitted, fails, survives, leaks⟩
      · refine iff_of_true (Or.inr ?_) (Or.inl refuses)
        rcases readied.fresh with same | admitted
        · exact restored.elsewhere same
        · exact absurd refuses admitted
      · exact iff_of_true (Or.inl fatal) (Or.inr serves)
      · refine iff_of_false ?_ ?_
        · rintro (fatal | restored)
          · exact survives fatal
          · refine leaks.not_restored readied.captures readied.count ?_
            exact ⟨restored.captures, restored.count, restored.active, restored.routes⟩
        · rintro (refuses | serves)
          · exact admitted refuses
          · exact fails serves
  · refine iff_of_true (wp_mono (wp_true _) (fun _ _ _ => trivial) fun _ _ _ => Or.inr ?_) ?_
    · exact fun pool inside activates => absurd ⟨pool, inside, activates⟩ comes
    · exact fun pool inside activates => absurd ⟨pool, inside, activates⟩ comes

end Atomicity

section Sample

def sampleHost : Host where
  allocators device := initial device {}
  deviceCount := 1
  currentDevice := 0
  currentStream _ := 0
  thread := 0
  activeMempool := none
  uid := 1
  memPool := none

def sampleBackend : Backend where
  driver := emptyDriver
  callbacks := {}
  supportsTensorAlloc := true
  bcclMemAllocator := 0
  registerMemPool _ := none

open List

theorem sampleHost_sound (device : DeviceIndex) : PoolsSound (sampleHost.allocators device) :=
  ⟨nodup_nil, nodup_nil, fun _ member => absurd member not_mem_nil,
    fun _ member => absurd member not_mem_nil⟩

theorem le_behind (live : List (Nat × Nat)) : ∀ range ∈ live,
    range.1 + range.2 ≤ 512 + (live.map fun range => range.1 + range.2).sum := by
  induction live with
  | nil => exact fun _ member => absurd member not_mem_nil
  | cons first rest ih =>
    intro range member
    rw [map_cons, sum_cons]
    rcases mem_cons.mp member with rfl | later
    · omega
    · have bound := ih range later
      omega

/-- The device hands out what lies behind all ranges in use. -/
def roomyBackend : Backend :=
  { sampleBackend with
    driver := { emptyDriver with
      allocate := fun _ _ live size =>
        if 0 < size then some (512 + (live.map fun range => range.1 + range.2).sum) else none
      allocate_nonnull := fun _ _ live size address found => by
        obtain ⟨_, same⟩ := Option.ite_none_right_eq_some.mp found
        have := Option.some.inj same
        omega
      allocate_nonempty := fun _ _ _ _ _ found => (Option.ite_none_right_eq_some.mp found).1
      allocate_disjoint := fun _ _ live _ _ found range member => by
        obtain ⟨_, same⟩ := Option.ite_none_right_eq_some.mp found
        exact .inr (Option.some.inj same ▸ le_behind live range member) } }

/-- The process group has its pool. -/
def pooledHost : Host :=
  { sampleHost with
    allocators := fun device => final (createOrIncrefPool (0, 1) (some 0)) (initial device {})
    uid := 2
    memPool := some (⟨(0, 1), some 0⟩, 0) }

theorem pooledHost_sound (device : DeviceIndex) : PoolsSound (pooledHost.allocators device) := by
  have spec := @createOrIncrefPool_spec _ (sampleHost_sound device) (0, 1) (some 0)
  exact (wp_ok spec rfl).1.sound

/-- A tensor of 512 bytes from the pool. -/
theorem allocateTensor_atomic_iff_sample : (pooledHost.allocators 0).graphPools.length = 1 ∧
    (wp (allocateTensor roomyBackend 128 ⟨some ⟨true, none⟩, 4⟩)
      (fun tensor after => tensor.isSome = true ∧ (after.allocators 0).segments.length = 1)
      (fun _ _ => False) pooledHost) ∧
    AllocatesAtomically roomyBackend 128 ⟨some ⟨true, none⟩, 4⟩ pooledHost := by
  refine ⟨rfl, ⟨rfl, rfl⟩, (allocateTensor_atomic_iff roomyBackend 128 ⟨some ⟨true, none⟩, 4⟩
    pooledHost pooledHost_sound).mpr fun pool inside activates => .inr ?_⟩
  have made := (activates_iff rfl rfl (by decide)).mp activates
  cases made
  refine ⟨fun _ member => absurd member not_mem_nil, ?_⟩
  have fills : wp (empty roomyBackend 128 ⟨some ⟨true, none⟩, 4⟩) (fun _ _ => True)
      (fun _ _ => False) (pooledHost.opened (⟨(0, 1), some 0⟩, 0)) := trivial
  exact wp_mono fills (fun _ _ _ _ throws => by cases throws) fun _ _ => False.elim

/-- The device has no memory for the tensor. -/
theorem allocateTensor_not_atomic :
    ¬ AllocatesAtomically sampleBackend 512 ⟨some ⟨true, none⟩, 4⟩ sampleHost := by
  intro atomic
  have leaves : wp (allocateTensor sampleBackend 512 ⟨some ⟨true, none⟩, 4⟩)
      (fun _ _ => False) (fun exception after => ¬ exception.Fatal ∧
        (after.allocators 0).capturesUnderway.length = 1) sampleHost := ⟨id, rfl⟩
  have activates : Activates sampleBackend ⟨some ⟨true, none⟩, 4⟩ sampleHost
      (⟨(0, 1), some 0⟩, 0) _ := ⟨⟨true, none⟩, rfl, rfl, Nat.one_pos, rfl⟩
  cases run : allocateTensor sampleBackend 512 ⟨some ⟨true, none⟩, 4⟩ sampleHost with
  | ok tensor after =>
    have never := wp_ok leaves run
    exact never
  | error exception after =>
    have left := wp_error leaves run
    have excused := wp_error atomic run
    rcases excused with fatal | restored
    · exact left.1 fatal
    · have captures : (after.allocators 0).capturesUnderway = [] :=
        (restored _ _ activates).captures 0
      have one := left.2
      rw [captures] at one
      cases one

end Sample

end TorchSupa.MemPools.AllocateTensor
