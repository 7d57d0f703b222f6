import TorchSupa.Proofs.Synchronizing
import TorchSupa.Logic.Brackets

/-!
`emptyCache` while a capture is under way, called by itself or by the destructor of a `MemPool`:
when it comes to the assertion in `synchronize_and_free_events` that there is none.
-/

namespace TorchSupa.MemPools

open Outcome Allocator

section EmptyCache

variable {driver : Driver} {mempoolId : MempoolId} {state : DeviceCachingAllocator}

def released (state : DeviceCachingAllocator) (mempoolId : MempoolId) : MempoolId :=
  (state.caller.activeMemPool.map (·.id)).getD mempoolId

def InFreeable (state : DeviceCachingAllocator) (mempoolId : MempoolId) : Prop :=
  ∃ pool, state.graphPoolsFreeable.find? (·.2 == pool) = some (mempoolId, pool)

/-- `emptyCache` calls `synchronize_and_free_events` while a capture is under way: what that
function does first is to count the call, and then it asserts that there is no capture. -/
def Trips (driver : Driver) (mempoolId : MempoolId) (state : DeviceCachingAllocator) : Prop :=
  state.capturesUnderway ≠ [] ∧ ¬ SameSyncs state (final (emptyCache driver mempoolId) state)

theorem synchronize_of_capture (pool : Option PrivatePoolId)
    (capture : state.capturesUnderway ≠ []) :
    synchronizeAndFreeEvents driver pool state = .error .internalAssert { state with stats :=
        { state.stats with numSyncAllStreams := state.stats.numSyncAllStreams + 1 } } := by
  simp [synchronizeAndFreeEvents, modifyStats, internalAssert, run_modify, run_bind, run_get,
    capture, run_throw]

theorem releaseFreeablePool_skips {pool : PrivatePoolId} (one : mempoolId ≠ (0, 0))
    (other : ¬ state.graphPoolsFreeable.find? (·.2 == pool) = some (mempoolId, pool)) :
    releaseFreeablePool driver mempoolId pool state = .ok () state := by
  simp only [releaseFreeablePool, run_bind, run_get]
  cases found : state.graphPoolsFreeable.find? (·.2 == pool) with
  | none => rfl
  | some entry =>
    have own : entry.2 = pool := by simpa using List.find?_some found
    have different : entry.1 ≠ mempoolId := by
      intro same
      apply other
      rw [found, ← same, ← own]
    simp [one, different, run_pure]

theorem releaseFreeablePool_synchronizes {pool : PrivatePoolId} (one : mempoolId ≠ (0, 0))
    (capture : state.capturesUnderway ≠ [])
    (found : state.graphPoolsFreeable.find? (·.2 == pool) = some (mempoolId, pool)) :
    releaseFreeablePool driver mempoolId pool state = .error .internalAssert { state with stats :=
        { state.stats with numSyncAllStreams := state.stats.numSyncAllStreams + 1 } } := by
  have trips := @synchronize_of_capture driver state (some pool) capture
  simp [releaseFreeablePool, run_bind, run_get, found, one, when, trips]

theorem loop_same_iff (one : mempoolId ≠ (0, 0)) (capture : state.capturesUnderway ≠ [])
    (pools : List PrivatePoolId) :
    SameSyncs state (final (forEach (releaseFreeablePool driver mempoolId) pools) state) ↔
      ∀ pool ∈ pools, ¬ state.graphPoolsFreeable.find? (·.2 == pool) = some (mempoolId, pool) := by
  induction pools with
  | nil => simp [forEach, final, SameSyncs, run_pure]
  | cons pool rest ih =>
    unfold forEach
    by_cases here : state.graphPoolsFreeable.find? (·.2 == pool) = some (mempoolId, pool)
    · rw [final_bind_error (releaseFreeablePool_synchronizes one capture here)]
      simp [SameSyncs, here]
    · rw [final_bind_ok (releaseFreeablePool_skips one here), ih]
      simp [here]

theorem sameSyncs_releaseFreeablePool (pool : PrivatePoolId) :
    Respects SameSyncs (releaseFreeablePool driver (0, 0) pool) := by
  refine .read fun state => ?_
  cases state.graphPoolsFreeable.find? (·.2 == pool) with
  | none => exact .pure _
  | some entry =>
    simp only [ne_eq, not_true_eq_false, decide_false, Bool.false_and, Bool.false_eq_true,
      if_false, when]
    exact .bind (.pure _) fun _ => .bind (sameSyncs_of_silent (silent_derefPool _)) fun _ =>
      .bind (sameSyncs_of_silent (silent_internalAssert _)) fun _ =>
      .bind (sameSyncs_of_silent (silent_releaseBlocks _)) fun _ =>
      .bind (sameSyncs_of_silent (silent_releaseBlocks _)) fun _ =>
      .bind (sameSyncs_of_silent (silent_derefPool _)) fun _ =>
      .ite (sameSyncs_deletePrivatePool _ _) (.pure _)

theorem trips_iff (driver : Driver) (mempoolId : MempoolId) (state : DeviceCachingAllocator) :
    Trips driver mempoolId state ↔ state.capturesUnderway ≠ [] ∧
      released state mempoolId ≠ (0, 0) ∧ InFreeable state (released state mempoolId) := by
  apply and_congr_right
  intro capture
  have underway : state.capturesUnderway.isEmpty = false := by simpa using capture
  have loop : final (emptyCache driver mempoolId) state =
      final (forEach (releaseFreeablePool driver (released state mempoolId))
        (driver.order state.memory.tick (state.graphPoolsFreeable.map (·.2)))) state := by
    simp only [final, emptyCache, releaseCachedBlocks, released, underway, when, Bool.and_false,
      Bool.false_eq_true, if_false, run_bind, run_get,
      run_pure]
    cases forEach (releaseFreeablePool driver
      ((state.caller.activeMemPool.map (·.id)).getD mempoolId))
      (driver.order state.memory.tick (state.graphPoolsFreeable.map (·.2))) state <;> rfl
  rw [loop]
  by_cases all : released state mempoolId = (0, 0)
  · rw [all]
    have loop : Respects SameSyncs (forEach (releaseFreeablePool driver (0, 0))
        (driver.order state.memory.tick (state.graphPoolsFreeable.map (·.2)))) :=
      .forEach sameSyncs_releaseFreeablePool _
    have same := wp_final (SameSyncs state) (wp_mono (loop state state rfl) (fun _ _ kept => kept)
      fun _ _ failed => failed.resolve_left id)
    simp [same]
  · rw [loop_same_iff all capture]
    simp only [driver.mem_order, not_forall, not_not, ne_eq, all, not_false_eq_true, true_and,
      InFreeable, exists_prop]
    constructor
    · rintro ⟨pool, _, found⟩
      exact ⟨pool, found⟩
    · rintro ⟨pool, found⟩
      exact ⟨pool, List.mem_map.mpr ⟨_, List.mem_of_find?_eq_some found, rfl⟩, found⟩

end EmptyCache

section Runs

abbrev Process := Nat → DeviceCachingAllocator

structure Call where
  device : Nat
  caller : Caller
  op : Op

def Call.entered (call : Call) (process : Process) : DeviceCachingAllocator :=
  { process call.device with caller := call.caller }

def Call.after (driver : Nat → Driver) (call : Call) (process : Process) : Process :=
  Function.update process call.device
    (final (call.op.run (driver call.device)) (call.entered process))

def emptyCaches (devices : List Nat) (caller : Caller) (mempoolId : MempoolId) : List Call :=
  devices.map fun device => ⟨device, caller, .emptyCache mempoolId⟩

/-- `MemPool::~MemPool`, by a thread whose context the pool is meanwhile -/
def destroyMemPool (pool : MemPool) (device : Nat) (devices : List Nat) (caller : Caller) :
    List Call :=
  ⟨device, caller, .releasePool pool.id⟩ ::
    emptyCaches devices { caller with activeMemPool := some pool } pool.id

def Call.Trips (driver : Nat → Driver) (call : Call) (process : Process) : Prop :=
  ∃ mempoolId, call.op = .emptyCache mempoolId ∧
    MemPools.Trips (driver call.device) mempoolId (call.entered process)

/-- Where the call is `emptyCache` and the allocator has a capture under way, it does not release
one pool that is freeable. -/
def Call.Spares (call : Call) (process : Process) : Prop :=
  ∀ mempoolId, call.op = .emptyCache mempoolId → (process call.device).capturesUnderway ≠ [] →
    released (call.entered process) mempoolId ≠ (0, 0) →
    ¬ InFreeable (process call.device) (released (call.entered process) mempoolId)

def Along (driver : Nat → Driver) (holds : Call → Process → Prop) : List Call → Process → Prop
  | [], _ => True
  | call :: rest, process => holds call process ∧ Along driver holds rest (call.after driver process)

variable {driver : Nat → Driver}

theorem Call.trips_iff (call : Call) (process : Process) :
    ¬ call.Trips driver process ↔ call.Spares process := by
  unfold Call.Trips Call.Spares
  simp only [MemPools.trips_iff, not_exists, not_and]
  exact Iff.rfl

theorem Along.congr {holds other : Call → Process → Prop}
    (same : ∀ call process, holds call process ↔ other call process) (calls : List Call)
    (process : Process) : Along driver holds calls process ↔ Along driver other calls process := by
  induction calls generalizing process with
  | nil => exact Iff.rfl
  | cons call rest ih => exact and_congr (same call process) (ih _)

def emptyDriver : Driver where
  fuel := 8
  totalGlobalMem := 1
  totalGlobalMem_pos := Nat.one_pos
  order _ elements := elements
  order_perm _ _ := .refl _
  allocate _ _ _ _ := none
  allocate_nonnull _ _ _ _ _ found := by cases found
  allocate_nonempty _ _ _ _ _ found := by cases found
  allocate_disjoint _ _ _ _ _ found := by cases found
  memCreate _ := false
  mapsBeyondHandle := false
  memGetInfo _ := (0, 1)
  eventCallFails _ := false
  eventDone _ _ := true
  eventDone_mono _ _ _ _ done := done
  waitUntil tick _ := tick

def destroyWhileCapturing : List Call :=
  [⟨0, ⟨0, none⟩, .createOrIncrefPool (0, 1) none⟩,
    ⟨0, ⟨0, none⟩, .beginAllocateToPool (1, 0) { accepts := fun _ _ => true }⟩] ++
    destroyMemPool ⟨(0, 1), none⟩ 0 [0] ⟨0, none⟩

end Runs

end TorchSupa.MemPools
