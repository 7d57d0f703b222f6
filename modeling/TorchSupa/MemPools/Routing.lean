import TorchSupa.MemPools.UseMemPool
import Mathlib.Data.List.Count

/-!
Which pool an allocation is taken from, and what a block leaves behind. All threads share the
entries of a device, the oldest block has the first of them, and its filter accepts every thread.
-/

namespace TorchSupa.MemPools

open List

open Outcome Allocator TorchSupa.Graph

section Calls

variable {allocator : DeviceCachingAllocator} {mempoolId : MempoolId}

theorem bind_run {α β : Type} {program : M α} {next : α → M β} {value : α}
    {after : DeviceCachingAllocator} (run : program allocator = .ok value after) :
    (program >>= next) allocator = next value after := by
  simp only [run_bind, run]

theorem get_run : (get : M DeviceCachingAllocator) allocator = .ok allocator allocator := rfl

variable {condition : Bool} {id : PrivatePoolId} {pool : PrivatePool}

theorem internalAssert_run (holds : condition = true) :
    internalAssert condition allocator = .ok () allocator := by
  subst holds
  rfl

theorem torchCheck_run (message : String) (holds : condition = true) :
    torchCheck condition message allocator = .ok () allocator := by
  subst holds
  rfl

theorem derefPool_run (alive : allocator.privatePools.get? id = some pool) :
    derefPool id allocator = .ok pool allocator := by
  unfold derefPool
  rw [bind_run get_run]
  simp only [alive]
  rfl

theorem updatePrivatePool_run
    (alive : allocator.privatePools.get? id = some pool) (change : PrivatePool → PrivatePool) :
    updatePrivatePool id change allocator = .ok () { allocator with
      privatePools := allocator.privatePools.modify id change } := by
  unfold updatePrivatePool
  rw [bind_run get_run]
  simp only [alive]
  rfl

theorem createOrIncrefPool_returns (sound : PoolsSound allocator)
    (usable : ¬ Freeable allocator mempoolId) :
    ∃ after, createOrIncrefPool mempoolId none allocator = .ok () after := by
  unfold createOrIncrefPool
  rw [bind_run get_run]
  cases found : allocator.graphPools.find? (·.1 == mempoolId) with
  | none => exact ⟨_, rfl⟩
  | some entry =>
    have member := mem_of_find?_eq_some found
    have named : entry.1 = mempoolId := by simpa using find?_some found
    obtain ⟨pool, alive⟩ := sound.alive entry member
    have used : 0 < pool.useCount := by
      rw [← useCount_of_mem sound member alive, named]
      by_contra unused
      exact usable ⟨by simp [found], by omega⟩
    dsimp only
    rw [bind_run (derefPool_run alive), bind_run (internalAssert_run (by simpa using used)),
      bind_run (internalAssert_run Option.isNone_none), updatePrivatePool_run alive]
    exact ⟨_, rfl⟩

theorem forEach_torchCheck (entries : List (MempoolId × CaptureFilter)) (message : String)
    (free : ∀ entry ∈ entries, entry.1 ≠ mempoolId) :
    forEach (fun entry => torchCheck (entry.1 != mempoolId) message) entries allocator =
      .ok () allocator := by
  induction entries with
  | nil => rfl
  | cons entry rest ih =>
    have other : entry.1 ≠ mempoolId := free entry (.head _)
    unfold forEach
    rw [bind_run (torchCheck_run message (by simpa using other))]
    exact ih fun later member => free later (.tail _ member)

theorem beginAllocateToPool_returns (sound : PoolsSound allocator)
    (usable : ¬ Freeable allocator mempoolId)
    (free : ∀ entry ∈ allocator.capturesUnderway, entry.1 ≠ mempoolId) :
    ∃ after, beginAllocateToPool mempoolId everything allocator = .ok () after ∧
      Counted allocator after mempoolId 1 ∧
      after.capturesUnderway = allocator.capturesUnderway ++ [(mempoolId, everything)] := by
  obtain ⟨counted, run⟩ := createOrIncrefPool_returns sound usable
  have same := wp_ok (createOrIncrefPool_spec sound mempoolId) run
  have returns : ∃ after, beginAllocateToPool mempoolId everything allocator = .ok () after := by
    unfold Allocator.beginAllocateToPool
    rw [bind_run run, bind_run get_run,
      bind_run (forEach_torchCheck counted.capturesUnderway _ (by rw [same.2.1]; exact free))]
    exact ⟨_, rfl⟩
  obtain ⟨after, run⟩ := returns
  have spec := wp_ok (beginAllocateToPool_spec sound mempoolId everything free) run
  exact ⟨after, run, spec⟩

theorem releasePool_returns (sound : PoolsSound allocator) (used : 1 ≤ useCount allocator mempoolId) :
    ∃ after, releasePool mempoolId allocator = .ok () after ∧
      Counted allocator after mempoolId (-1) ∧
      after.capturesUnderway = allocator.capturesUnderway := by
  have spec := releasePool_spec sound mempoolId used
  have returns : ∃ after, releasePool mempoolId allocator = .ok () after := by
    cases found : allocator.graphPools.find? (·.1 == mempoolId) with
    | none =>
      rw [useCount_of_absent found] at used
      exact absurd used (by decide)
    | some entry =>
      have member := mem_of_find?_eq_some found
      have named : entry.1 = mempoolId := by simpa using find?_some found
      obtain ⟨pool, alive⟩ := sound.alive entry member
      have count := useCount_of_mem sound member alive
      rw [named] at count
      have read : getPrivatePool mempoolId allocator = .ok entry.2 allocator := by
        unfold getPrivatePool
        rw [bind_run get_run]
        simp only [found]
        rfl
      have lowered : (allocator.privatePools.modify entry.2 fun self =>
          { self with useCount := self.useCount - 1 }).get? entry.2 =
          some { pool with useCount := pool.useCount - 1 } := Store.get?_modify_found alive _
      unfold releasePool
      rw [bind_run read, bind_run (updatePrivatePool_run alive _), bind_run (derefPool_run lowered),
        bind_run (internalAssert_run (by simp; omega))]
      split
      · rw [bind_run get_run]
        have fresh : (allocator.graphPoolsFreeable.any fun other => other.1 == mempoolId) = false := by
          rw [any_eq_false]
          intro other inFreeable same
          have unused := (sound.freeable other inFreeable).2
          rw [beq_iff_eq.mp same] at unused
          omega
        rw [fresh]
        exact ⟨_, rfl⟩
      · exact ⟨_, rfl⟩
  obtain ⟨after, run⟩ := returns
  have spec := wp_ok spec run
  exact ⟨after, run, spec⟩

theorem getPool_default (size : Nat) (stream : Stream) (caller : Caller)
    (empty : allocator.capturesUnderway = []) :
    getPool size stream { allocator with caller } =
      .ok ⟨none, size ≤ kSmallSize⟩ { allocator with caller } := by
  unfold getPool
  rw [bind_run get_run]
  simp only [empty, find?_nil]
  rfl

theorem getPool_first (size : Nat) (stream : Stream) (caller : Caller)
    {rest : List (MempoolId × CaptureFilter)} {entry : MempoolId × PrivatePoolId}
    (first : allocator.capturesUnderway = (mempoolId, everything) :: rest)
    (found : allocator.graphPools.find? (·.1 == mempoolId) = some entry) :
    getPool size stream { allocator with caller } =
      .ok ⟨some entry.2, size ≤ kSmallSize⟩ { allocator with caller } := by
  unfold getPool
  rw [bind_run get_run]
  simp only [first, everything, find?_cons, found]
  rfl

end Calls

section Routed

def top (outside : Option MemPool) : List Use → Option MemPool
  | [] => outside
  | use :: _ => some use.pool

def Stacked (outside : Option MemPool) : List Use → Prop
  | [] => True
  | use :: rest => use.prevMempool = top outside rest ∧ Stacked outside rest

def Use.on (use : Use) (device : DeviceIndex) (mempoolId : MempoolId) : Prop :=
  use.device = device ∧ use.pool.id = mempoolId

instance (use : Use) (device : DeviceIndex) (mempoolId : MempoolId) :
    Decidable (use.on device mempoolId) := by
  unfold Use.on
  infer_instance

def World.users (world : World) (device : DeviceIndex) (mempoolId : MempoolId) : Nat :=
  (world.allocators device).capturesUnderway.countP (·.1 == mempoolId) +
    world.leaving.countP fun entry => entry.2.on device mempoolId

def World.innermost (world : World) (thread : Thread) (device : DeviceIndex) : Option Use :=
  (world.threads thread).uses.find? (·.device == device)

def TakenFrom (allocator : DeviceCachingAllocator) (size : Nat) (pool : PoolRef) :
    Option Use → Prop
  | none => pool = ⟨none, size ≤ kSmallSize⟩
  | some use => ∃ entry ∈ allocator.graphPools, entry.1 = use.pool.id ∧
      pool = ⟨some entry.2, size ≤ kSmallSize⟩

/-- A block is entered when its pool is not open on the device and can be used there; an
allocation is made when no block is open on the device, or the one that was opened first is the
only one of the thread there; and a thread leaves its innermost block. -/
def Allowed (world : World) : Action → Prop
  | .begin thread => ∀ use, (world.threads thread).doing = .entering use →
      (∀ entry ∈ (world.allocators use.device).capturesUnderway, entry.1 ≠ use.pool.id) ∧
        ¬ Freeable (world.allocators use.device) use.pool.id
  | .allocate thread device _ _ => (world.allocators device).capturesUnderway = [] ∨
      ∃ use, (world.threads thread).uses.filter (·.device == device) = [use] ∧
        (world.allocators device).capturesUnderway.head?.map (·.1) = some use.pool.id
  | .finish _ place => place = 0
  | _ => True

structure Routed (start world : World) : Prop where
  routes : ∀ thread device size stream, (world.threads thread).doing = .body →
    Allowed world (.allocate thread device size stream) →
      ∃ pool after, route world thread device size stream = .ok pool after ∧
        TakenFrom (world.allocators device) size pool (world.innermost thread device)
  active : ∀ thread, (world.threads thread).doing = .body →
    (world.threads thread).active = top (start.threads thread).active (world.threads thread).uses
  blocks : ∀ device mempoolId,
    (∃ entry ∈ (world.allocators device).capturesUnderway, entry.1 = mempoolId) ↔
      ∃ thread, ∃ use ∈ (world.threads thread).uses, use.on device mempoolId
  alone : ∀ device, ((world.allocators device).capturesUnderway.map (·.1)).Nodup
  counts : ∀ device mempoolId, useCount (world.allocators device) mempoolId =
    useCount (start.allocators device) mempoolId + world.users device mempoolId
  entered : ∀ thread, (world.threads thread).held = []

/-- With the blocks of the thread as they were, it is as it was before; so is the use count of a
pool that is in as many blocks. -/
def Restored (before after : World) : Prop :=
  (∀ thread, (before.threads thread).doing = .body → (after.threads thread).doing = .body →
    (after.threads thread).uses = (before.threads thread).uses →
      (after.threads thread).active = (before.threads thread).active ∧
        ∀ device, after.innermost thread device = before.innermost thread device) ∧
  ∀ device mempoolId, after.users device mempoolId = before.users device mempoolId →
    useCount (after.allocators device) mempoolId = useCount (before.allocators device) mempoolId

end Routed

def Active (outside : Option MemPool) (routine : Routine) : Prop :=
  match routine.doing with
  | .body => routine.active = top outside routine.uses
  | .entering use => routine.active = some use.pool ∧ use.prevMempool = top outside routine.uses
  | .ended use | .released use => use.prevMempool = top outside routine.uses

structure Tidy (start world : World) : Prop where
  sound : ∀ device, PoolsSound (world.allocators device)
  positive : ∀ device mempoolId, 0 ≤ useCount (start.allocators device) mempoolId
  blocks : ∀ device mempoolId,
    (∃ entry ∈ (world.allocators device).capturesUnderway, entry.1 = mempoolId) ↔
      ∃ thread, ∃ use ∈ (world.threads thread).uses, use.on device mempoolId
  alone : ∀ device, ((world.allocators device).capturesUnderway.map (·.1)).Nodup
  filters : ∀ device, ∀ entry ∈ (world.allocators device).capturesUnderway, entry.2 = everything
  apart : ∀ thread other, ∀ use ∈ (world.threads thread).uses,
    ∀ another ∈ (world.threads other).uses, another.on use.device use.pool.id → thread = other
  once : ∀ thread, ((world.threads thread).uses.map fun use => (use.device, use.pool.id)).Nodup
  stacked : ∀ thread, Stacked (start.threads thread).active (world.threads thread).uses
  active : ∀ thread, Active (start.threads thread).active (world.threads thread)
  leaving : ∀ thread use, (world.threads thread).doing = .ended use → (thread, use) ∈ world.leaving
  counts : ∀ device mempoolId, useCount (world.allocators device) mempoolId =
    useCount (start.allocators device) mempoolId + world.users device mempoolId
  entered : ∀ thread, (world.threads thread).held = []

section Kept

variable {start world : World}

theorem World.Starts.tidy (starts : start.Starts) : Tidy start start := by
  constructor
  · exact starts.sound
  · exact starts.counts
  · intro device mempoolId
    simp [starts.captures, starts.uses]
  · intro device
    simp [starts.captures]
  · intro device
    simp [starts.captures]
  · intro thread other use member
    simp [starts.uses] at member
  · intro thread
    simp [starts.uses]
  · intro thread
    rw [starts.uses]
    trivial
  · intro thread
    simp only [Active, starts.doing, starts.uses, top]
  · intro thread use ended
    simp [starts.doing] at ended
  · intro device mempoolId
    simp [World.users, starts.captures, starts.leaving]
  · exact starts.held

variable {device : DeviceIndex}

theorem Tidy.routes (tidy : Tidy start world) {thread : Thread} {size : Nat}
    {stream : Stream} (allowed : Allowed world (.allocate thread device size stream)) :
    ∃ pool after, route world thread device size stream = .ok pool after ∧
      TakenFrom (world.allocators device) size pool (world.innermost thread device) := by
  rcases allowed with empty | ⟨use, own, oldest⟩
  · have none' : world.innermost thread device = none := by
      rw [World.innermost, find?_eq_none]
      intro use member here
      have on : use.on device use.pool.id := ⟨beq_iff_eq.mp here, rfl⟩
      obtain ⟨entry, inCaptures, -⟩ := (tidy.blocks device use.pool.id).mpr ⟨thread, use, member, on⟩
      simp [empty] at inCaptures
    refine ⟨_, _, getPool_default size stream _ empty, ?_⟩
    rw [none']
    exact rfl
  · obtain ⟨entry, first, named⟩ := Option.map_eq_some_iff.mp oldest
    obtain ⟨rest, captures⟩ := head?_eq_some_iff.mp first
    have accepts := tidy.filters device entry (by simp [captures])
    have here : world.innermost thread device = some use := by
      rw [World.innermost, ← head?_filter, own]
      rfl
    have member : use ∈ (world.threads thread).uses.filter (·.device == device) := by simp [own]
    have used : 0 < useCount (world.allocators device) use.pool.id := by
      have counted := tidy.counts device use.pool.id
      have start := tidy.positive device use.pool.id
      have open' : 0 < (world.allocators device).capturesUnderway.countP (·.1 == use.pool.id) :=
        countP_pos_iff.mpr ⟨entry, by simp [captures], by simp [named]⟩
      simp only [World.users] at counted
      omega
    cases found : (world.allocators device).graphPools.find? (·.1 == use.pool.id) with
    | none =>
      rw [useCount_of_absent found] at used
      omega
    | some pool =>
      have exact' : (world.allocators device).capturesUnderway =
          (use.pool.id, everything) :: rest := by
        rw [captures, ← named, ← accepts]
      refine ⟨_, _, getPool_first size stream _ exact' found, ?_⟩
      rw [here]
      exact ⟨pool, mem_of_find?_eq_some found, by simpa using find?_some found, rfl⟩

theorem Tidy.routed (tidy : Tidy start world) : Routed start world := by
  refine ⟨fun thread device size stream _ => tidy.routes, ?_, tidy.blocks, tidy.alone, tidy.counts,
    tidy.entered⟩
  intro thread body
  have active := tidy.active thread
  simpa only [Active, body] using active

theorem Tidy.restored {later : World} (tidy : Tidy start world) (also : Tidy start later) :
    Restored world later := by
  refine ⟨fun thread body bodyLater same => ⟨?_, fun device => ?_⟩, fun device mempoolId same => ?_⟩
  · rw [also.routed.active thread bodyLater, tidy.routed.active thread body, same]
  · rw [World.innermost, same, World.innermost]
  · rw [also.counts, tidy.counts, same]

@[simp] theorem setThread_threads (world : World) (thread other : Thread) (routine : Routine) :
    (world.setThread thread routine).threads other =
      if other = thread then routine else world.threads other := by
  simp only [World.setThread, Function.update_apply]

@[simp] theorem setThread_allocators (world : World) (thread : Thread) (routine : Routine) :
    (world.setThread thread routine).allocators = world.allocators := rfl

@[simp] theorem setThread_leaving (world : World) (thread : Thread) (routine : Routine) :
    (world.setThread thread routine).leaving = world.leaving := rfl

@[simp] theorem setAllocator_allocators (world : World) (device other : DeviceIndex)
    (after : DeviceCachingAllocator) :
    (world.setAllocator device after).allocators other =
      if other = device then after else world.allocators other := by
  simp only [World.setAllocator, Function.update_apply]

@[simp] theorem setAllocator_threads (world : World) (device : DeviceIndex)
    (after : DeviceCachingAllocator) : (world.setAllocator device after).threads = world.threads := rfl

@[simp] theorem setAllocator_leaving (world : World) (device : DeviceIndex)
    (after : DeviceCachingAllocator) : (world.setAllocator device after).leaving = world.leaving := rfl

theorem Tidy.thread (tidy : Tidy start world) {thread : Thread} {routine : Routine}
    (uses : routine.uses = (world.threads thread).uses)
    (active : Active (start.threads thread).active routine)
    (ended : ∀ use, routine.doing ≠ .ended use) (held : routine.held = []) :
    Tidy start (world.setThread thread routine) := by
  have same : ∀ other, ((world.setThread thread routine).threads other).uses =
      (world.threads other).uses := by
    intro other
    rw [setThread_threads]
    split
    · rename_i here
      rw [uses, here]
    · rfl
  refine { tidy with blocks := ?_, apart := ?_, once := ?_, stacked := ?_, active := ?_, leaving := ?_, entered := ?_ }
  · simpa only [same, setThread_allocators] using tidy.blocks
  · simpa only [same] using tidy.apart
  · simpa only [same] using tidy.once
  · simpa only [same] using tidy.stacked
  · intro other
    by_cases here : other = thread
    · subst here
      simpa using active
    · simpa [here] using tidy.active other
  · intro other use isEnded
    rw [setThread_threads] at isEnded
    split at isEnded
    · exact absurd isEnded (ended use)
    · exact tidy.leaving other use isEnded
  · intro other
    rw [setThread_threads]
    split
    · exact held
    · exact tidy.entered other

variable {after : World}

theorem Tidy.enter (tidy : Tidy start world) {thread : Thread} {pool : MemPool}
    (taken : enter world thread pool device = some after) :
    Tidy start after := by
  unfold MemPools.enter at taken
  dsimp only at taken
  split at taken
  · rename_i body
    cases taken
    have active := tidy.active thread
    simp only [Active, body] at active
    exact tidy.thread rfl ⟨rfl, active⟩ (by simp) (tidy.entered thread)
  · simp at taken

theorem Tidy.leave (tidy : Tidy start world) {thread : Thread}
    (taken : leave world thread = some after) : Tidy start after := by
  unfold MemPools.leave at taken
  dsimp only at taken
  split at taken
  · rename_i use released
    cases taken
    have active := tidy.active thread
    simp only [Active, released] at active
    exact tidy.thread rfl active (by simp) (tidy.entered thread)
  · simp at taken

theorem Tidy.drop (tidy : Tidy start world) {thread : Thread} {place : Nat}
    (taken : drop world thread place = some after) : Tidy start after := by
  unfold MemPools.drop at taken
  simp [tidy.entered thread] at taken

theorem Tidy.closed (tidy : Tidy start world) {mempoolId : MempoolId}
    (free : ∀ entry ∈ (world.allocators device).capturesUnderway, entry.1 ≠ mempoolId)
    {thread : Thread} {use : Use} (member : use ∈ (world.threads thread).uses) :
    ¬ use.on device mempoolId := by
  intro on
  obtain ⟨entry, inCaptures, named⟩ := (tidy.blocks device mempoolId).mpr ⟨thread, use, member, on⟩
  exact free entry inCaptures named

theorem exists_push (uses pushed : Thread → List Use) (thread : Thread) (use : Use)
    (here : pushed thread = use :: uses thread)
    (others : ∀ other, other ≠ thread → pushed other = uses other) (property : Use → Prop) :
    (∃ other, ∃ another ∈ pushed other, property another) ↔
      (∃ other, ∃ another ∈ uses other, property another) ∨ property use := by
  constructor
  · rintro ⟨other, another, member, holds⟩
    by_cases same : other = thread
    · subst same
      rw [here] at member
      rcases mem_cons.mp member with rfl | old
      · exact .inr holds
      · exact .inl ⟨other, another, old, holds⟩
    · rw [others other same] at member
      exact .inl ⟨other, another, member, holds⟩
  · rintro (⟨other, another, member, holds⟩ | holds)
    · refine ⟨other, another, ?_, holds⟩
      by_cases same : other = thread
      · subst same
        rw [here]
        exact .tail _ member
      · rwa [others other same]
    · exact ⟨thread, use, by rw [here]; exact (.head _), holds⟩

theorem Tidy.begin (tidy : Tidy start world) {thread : Thread}
    (allowed : Allowed world (.begin thread)) (taken : begin world thread = some after) :
    Tidy start after := by
  unfold MemPools.begin at taken
  dsimp only at taken
  split at taken
  case h_2 => simp at taken
  case h_1 use entering =>
    obtain ⟨free, usable⟩ := allowed use entering
    obtain ⟨opened, run, counted, captures⟩ :=
      beginAllocateToPool_returns (tidy.sound use.device) usable free
    rw [run] at taken
    cases taken
    have active := tidy.active thread
    simp only [Active, entering] at active
    have fresh : ∀ other, ∀ another ∈ (world.threads other).uses,
        ¬ another.on use.device use.pool.id := fun other another => tidy.closed free
    have opens : ∀ other, ∀ another ∈ (((world.setAllocator use.device opened).setThread thread
        { world.threads thread with uses := use :: (world.threads thread).uses, doing := .body }).threads
          other).uses, (other = thread ∧ another = use) ∨ another ∈ (world.threads other).uses := by
      intro other another member
      by_cases same : other = thread
      · subst same
        have split : another = use ∨ another ∈ (world.threads other).uses := by simpa using member
        exact split.imp_left fun equal => ⟨rfl, equal⟩
      · exact .inr (by simpa [same] using member)
    constructor
    · intro device
      by_cases here : device = use.device
      · simpa [here] using counted.sound
      · simpa [here] using tidy.sound device
    · exact tidy.positive
    · intro device mempoolId
      refine Iff.trans ?_ (exists_push (fun other => (world.threads other).uses) _ thread use
        (by simp) (fun other same => by simp [same]) _).symm
      rw [← tidy.blocks device mempoolId]
      by_cases here : device = use.device
      · subst here
        simp [captures, Use.on, or_and_right, exists_or, eq_comm]
      · simp [here, Use.on, Ne.symm here]
    · intro device
      by_cases here : device = use.device
      · subst here
        simp only [setThread_allocators, setAllocator_allocators, if_true, captures, map_append,
          map_cons, map_nil]
        rw [← concat_eq_append]
        refine Nodup.concat (fun member => ?_) (tidy.alone use.device)
        obtain ⟨entry, inCaptures, named⟩ := mem_map.mp member
        exact free entry inCaptures named
      · simpa [here] using tidy.alone device
    · intro device
      by_cases here : device = use.device
      · subst here
        intro entry member
        simp only [setThread_allocators, setAllocator_allocators, if_true, captures,
          mem_append, mem_singleton] at member
        rcases member with old | rfl
        · exact tidy.filters use.device entry old
        · rfl
      · simpa [here] using tidy.filters device
    · intro one other first inFirst another inAnother on
      rcases opens one first inFirst with ⟨rfl, rfl⟩ | oldFirst <;>
        rcases opens other another inAnother with ⟨rfl, rfl⟩ | oldAnother
      · rfl
      · exact absurd on (fresh other another oldAnother)
      · exact absurd ⟨on.1.symm, on.2.symm⟩ (fresh one first oldFirst)
      · exact tidy.apart one other first oldFirst another oldAnother on
    · intro other
      by_cases same : other = thread
      · subst same
        rw [setThread_threads, if_pos rfl]
        refine nodup_cons.mpr ⟨?_, tidy.once other⟩
        intro again
        obtain ⟨another, member, equal⟩ := mem_map.mp again
        rw [Prod.mk.injEq] at equal
        exact fresh other another member equal
      · simpa [same] using tidy.once other
    · intro other
      by_cases same : other = thread
      · subst same
        simpa using ⟨active.2, tidy.stacked other⟩
      · simpa [same] using tidy.stacked other
    · intro other
      by_cases same : other = thread
      · subst same
        simpa [Active, top] using active.1
      · simpa [same] using tidy.active other
    · intro other another ended
      by_cases same : other = thread
      · subst same
        simp at ended
      · exact tidy.leaving other another (by simpa [same] using ended)
    · intro device mempoolId
      have before := tidy.counts device mempoolId
      by_cases here : device = use.device
      · subst here
        by_cases named : mempoolId = use.pool.id
        · subst named
          simp only [World.users] at before
          simp [World.users, captures, counted.here, before]
          omega
        · simp only [World.users] at before
          simp [World.users, captures, counted.others _ named, before, Ne.symm named]
      · simpa [World.users, here] using before
    · intro other
      by_cases same : other = thread
      · subst same
        simpa using tidy.entered other
      · simpa [same] using tidy.entered other

theorem ids_erase (entries : List (MempoolId × CaptureFilter)) (mempoolId : MempoolId) :
    (entries.eraseP (·.1 == mempoolId)).map (·.1) = (entries.map (·.1)).erase mempoolId := by
  rw [erase_eq_eraseP', eraseP_map]
  rfl

theorem countP_ids (entries : List (MempoolId × CaptureFilter)) (mempoolId : MempoolId) :
    entries.countP (·.1 == mempoolId) = (entries.map (·.1)).count mempoolId := by
  rw [count, countP_map]
  rfl

theorem Tidy.finish (tidy : Tidy start world) {thread : Thread}
    (taken : finish world thread 0 = some after) : Tidy start after := by
  unfold MemPools.finish at taken
  dsimp only at taken
  split at taken
  case h_2 => simp at taken
  case h_1 use body found =>
    obtain ⟨rest, uses⟩ : ∃ rest, (world.threads thread).uses = use :: rest := by
      cases blocks : (world.threads thread).uses with
      | nil => simp [blocks] at found
      | cons first rest =>
        have first : first = use := by simpa [blocks] using found
        exact ⟨rest, by rw [first]⟩
    have inBlocks : use ∈ (world.threads thread).uses := by simp [uses]
    have recording := (tidy.blocks use.device use.pool.id).mpr ⟨thread, use, inBlocks, rfl, rfl⟩
    rw [endAllocateToPool_spec use.pool.id recording, Option.some.injEq] at taken
    have idsAfter : (after.allocators use.device).capturesUnderway.map (·.1) =
        ((world.allocators use.device).capturesUnderway.map (·.1)).erase use.pool.id := by
      simp [← taken, ids_erase]
    have usesAfter : ∀ other, (after.threads other).uses =
        if other = thread then rest else (world.threads other).uses := by
      intro other
      by_cases same : other = thread
      · subst same
        simp [← taken, uses]
      · simp [← taken, same]
    have open' : use.pool.id ∈ (world.allocators use.device).capturesUnderway.map (·.1) := by
      obtain ⟨entry, member, named⟩ := recording
      exact mem_map.mpr ⟨entry, member, named⟩
    have active := tidy.active thread
    simp only [Active, body, uses, top] at active
    have stacked := tidy.stacked thread
    rw [uses] at stacked
    have others : ∀ other, ∀ another ∈ (world.threads other).uses, other ≠ thread ∨ another ∈ rest →
        ¬ another.on use.device use.pool.id := by
      intro other another member which on
      rcases which with apart | inRest
      · exact apart (tidy.apart thread other use inBlocks another member on).symm
      · have once := tidy.once thread
        rw [uses, map_cons, nodup_cons] at once
        exact once.1 (mem_map.mpr ⟨another, inRest, Prod.ext on.1 on.2⟩)
    have kept : ∀ other, ∀ another ∈ (after.threads other).uses,
        another ∈ (world.threads other).uses ∧ (other ≠ thread ∨ another ∈ rest) := by
      intro other another member
      rw [usesAfter] at member
      split at member
      · rename_i same
        rw [same, uses]
        exact ⟨mem_cons_of_mem _ member, .inr member⟩
      · exact ⟨member, .inl ‹_›⟩
    have ids : ∀ device mempoolId,
        (∃ entry ∈ (after.allocators device).capturesUnderway, entry.1 = mempoolId) ↔
          ¬ use.on device mempoolId ∧
            ∃ entry ∈ (world.allocators device).capturesUnderway, entry.1 = mempoolId := by
      intro device mempoolId
      by_cases here : device = use.device
      · subst here
        rw [← mem_map, ← mem_map, idsAfter, (tidy.alone use.device).mem_erase_iff]
        simp [Use.on, eq_comm]
      · simp [← taken, here, Use.on, Ne.symm here]
    constructor
    · intro device
      by_cases here : device = use.device
      · subst here
        have sound := tidy.sound use.device
        simpa [← taken] using ⟨sound.names, sound.distinct, sound.alive, sound.freeable⟩
      · simpa [← taken, here] using tidy.sound device
    · exact tidy.positive
    · intro device mempoolId
      have popped := exists_push (fun other => (after.threads other).uses)
        (fun other => (world.threads other).uses) thread use (by simp [usesAfter, uses])
        (fun other same => by simp [usesAfter, same]) (·.on device mempoolId)
      rw [ids, tidy.blocks device mempoolId, popped]
      constructor
      · rintro ⟨other, inside | on⟩
        · exact inside
        · exact absurd on other
      · rintro ⟨other, another, member, on⟩
        obtain ⟨old, apart⟩ := kept other another member
        refine ⟨fun same => others other another old apart ?_, .inl ⟨other, another, member, on⟩⟩
        exact ⟨on.1.trans same.1.symm, on.2.trans same.2.symm⟩
    · intro device
      by_cases here : device = use.device
      · subst here
        simpa [← taken, ids_erase] using (tidy.alone use.device).erase _
      · simpa [← taken, here] using tidy.alone device
    · intro device entry member
      refine tidy.filters device entry ?_
      by_cases here : device = use.device
      · subst here
        exact mem_of_mem_eraseP (by simpa [← taken] using member)
      · simpa [← taken, here] using member
    · intro one other first inFirst another inAnother on
      exact tidy.apart one other first (kept one first inFirst).1 another
        (kept other another inAnother).1 on
    · intro other
      rw [usesAfter]
      split
      · have once := tidy.once thread
        rw [uses, map_cons, nodup_cons] at once
        exact once.2
      · exact tidy.once other
    · intro other
      rw [usesAfter]
      split
      · rename_i same
        rw [same]
        exact stacked.2
      · exact tidy.stacked other
    · intro other
      by_cases same : other = thread
      · subst same
        simpa [← taken, Active, uses] using stacked.1
      · simpa [← taken, same] using tidy.active other
    · intro other another ended
      by_cases same : other = thread
      · subst same
        have equal : use = another := by simpa [← taken] using ended
        simp [← taken, equal]
      · have member := tidy.leaving other another (by simpa [← taken, same] using ended)
        simpa [← taken] using .inr member
    · intro device mempoolId
      have before := tidy.counts device mempoolId
      have count : useCount (after.allocators device) mempoolId =
          useCount (world.allocators device) mempoolId := by
        by_cases here : device = use.device
        · subst here
          simp only [← taken, setThread_allocators, setAllocator_allocators, if_true]
          rfl
        · simp [← taken, here]
      have left : after.leaving = (thread, use) :: world.leaving := by simp [← taken]
      rw [count, before]
      simp only [World.users, left, countP_cons, countP_ids]
      by_cases here : device = use.device
      · subst here
        rw [idsAfter, count_erase]
        by_cases named : use.pool.id = mempoolId
        · subst named
          have positive := count_pos_iff.mpr open'
          simp [Use.on]
          omega
        · simp [Use.on, named]
      · simp [← taken, here, Use.on, Ne.symm here]
    · intro other
      by_cases same : other = thread
      · subst same
        simpa [← taken] using tidy.entered other
      · simpa [← taken, same] using tidy.entered other

theorem Tidy.release (tidy : Tidy start world) {thread : Thread}
    (taken : release world thread = some after) : Tidy start after := by
  unfold MemPools.release at taken
  dsimp only at taken
  split at taken
  case h_2 => simp at taken
  case h_1 use ended =>
    have member := tidy.leaving thread use ended
    have before := tidy.counts use.device use.pool.id
    have positive := tidy.positive use.device use.pool.id
    have left : 0 < world.leaving.countP fun entry => entry.2.on use.device use.pool.id :=
      countP_pos_iff.mpr ⟨(thread, use), member, by simp [Use.on]⟩
    simp only [World.users] at before
    obtain ⟨released, run, counted, captures⟩ :=
      releasePool_returns (tidy.sound use.device)
        (show 1 ≤ useCount (world.allocators use.device) use.pool.id by omega)
    rw [run, Option.some.injEq] at taken
    have usesAfter : ∀ other, (after.threads other).uses = (world.threads other).uses := by
      intro other
      by_cases same : other = thread
      · subst same
        simp [← taken]
      · simp [← taken, same]
    have capturesAfter : ∀ device, (after.allocators device).capturesUnderway =
        (world.allocators device).capturesUnderway := by
      intro device
      by_cases here : device = use.device
      · subst here
        simp [← taken, captures]
      · simp [← taken, here]
    have active := tidy.active thread
    simp only [Active, ended] at active
    constructor
    · intro device
      by_cases here : device = use.device
      · subst here
        simpa [← taken] using counted.sound
      · simpa [← taken, here] using tidy.sound device
    · exact tidy.positive
    · simpa only [capturesAfter, usesAfter] using tidy.blocks
    · simpa only [capturesAfter] using tidy.alone
    · simpa only [capturesAfter] using tidy.filters
    · simpa only [usesAfter] using tidy.apart
    · simpa only [usesAfter] using tidy.once
    · simpa only [usesAfter] using tidy.stacked
    · intro other
      by_cases same : other = thread
      · subst same
        simpa [← taken, Active] using active
      · simpa [← taken, same] using tidy.active other
    · intro other another isEnded
      by_cases same : other = thread
      · subst same
        simp [← taken] at isEnded
      · have inLeaving := tidy.leaving other another (by simpa [← taken, same] using isEnded)
        have differs : (other, another) ≠ (thread, use) := fun equal => same (congrArg Prod.fst equal)
        simpa [← taken] using (mem_erase_of_ne differs).mpr inLeaving
    · intro device mempoolId
      have counts := tidy.counts device mempoolId
      have removed : after.leaving = world.leaving.erase (thread, use) := by simp [← taken]
      simp only [World.users, capturesAfter, removed] at counts ⊢
      have permuted := perm_cons_erase member
      rw [permuted.countP_eq, countP_cons] at counts
      by_cases here : device = use.device
      · subst here
        by_cases named : use.pool.id = mempoolId
        · subst named
          have count := counted.here
          simp only [Use.on, and_self, decide_true, if_true] at counts ⊢
          simp only [← taken, setThread_allocators, setAllocator_allocators, if_true]
          omega
        · have count := counted.others mempoolId (Ne.symm named)
          simpa [← taken, Use.on, named, count] using counts
      · simpa [← taken, here, Use.on, Ne.symm here] using counts
    · intro other
      by_cases same : other = thread
      · subst same
        simpa [← taken] using tidy.entered other
      · simpa [← taken, same] using tidy.entered other

theorem Tidy.unrelated (tidy : Tidy start world)
    {allocator : DeviceCachingAllocator} (unrelated : Unrelated (world.allocators device) allocator) :
    Tidy start (world.setAllocator device allocator) := by
  have captures : ∀ other, ((world.setAllocator device allocator).allocators other).capturesUnderway =
      (world.allocators other).capturesUnderway := by
    intro other
    by_cases here : other = device
    · subst here
      simp [unrelated.captures]
    · simp [here]
  constructor
  · intro other
    by_cases here : other = device
    · simpa [here] using unrelated.sound
    · simpa [here] using tidy.sound other
  · exact tidy.positive
  · simpa only [captures, setAllocator_threads] using tidy.blocks
  · simpa only [captures] using tidy.alone
  · simpa only [captures] using tidy.filters
  · exact tidy.apart
  · exact tidy.once
  · exact tidy.stacked
  · exact tidy.active
  · exact tidy.leaving
  · intro other mempoolId
    have before := tidy.counts other mempoolId
    simp only [World.users, captures] at before ⊢
    by_cases here : other = device
    · subst here
      simpa [unrelated.counts mempoolId] using before
    · simpa [here] using before
  · exact tidy.entered

theorem Tidy.step (tidy : Tidy start world) {action : Action}
    (allowed : Allowed world action) (taken : Step world action after) : Tidy start after := by
  cases action with
  | enter thread pool device => exact tidy.enter taken
  | begin thread => exact tidy.begin allowed taken
  | allocate thread device size stream => exact taken.2.2 ▸ tidy
  | finish thread place =>
    have innermost : place = 0 := allowed
    subst innermost
    exact tidy.finish taken
  | release thread => exact tidy.release taken
  | leave thread => exact tidy.leave taken
  | drop thread place => exact tidy.drop taken
  | unrelated device allocator => exact taken.2 ▸ tidy.unrelated taken.1

theorem Tidy.reachable (reached : (system start).Reachable Allowed world) : Tidy start world :=
  reached.invariant (fun _ begins => begins.1 ▸ begins.2.tidy)
    fun _ _ _ tidy allowed taken => tidy.step allowed taken

end Kept

section Sample

def idle : World where
  allocators device := { device, config := {} }
  threads _ := { active := none }

theorem idle_starts : idle.Starts where
  sound _ := ⟨nodup_nil, nodup_nil, fun _ member => absurd member not_mem_nil,
    fun _ member => absurd member not_mem_nil⟩
  captures _ := rfl
  counts _ _ := Int.le_refl 0
  uses _ := rfl
  doing _ := rfl
  held _ := rfl
  leaving := rfl

def poolOf (number : Nat) : MemPool where
  id := (0, number)
  allocator := none

/-- What the thread 0 does with blocks for the device 0: each pool is entered in the one before. -/
def nested : List Nat → World
  | [] => idle
  | number :: outer =>
    ((enter (nested outer) 0 (poolOf number) 0).bind fun world => begin world 0).getD idle

theorem nested_reachable {allowed : World → Action → Prop} (number : Nat) (outer : List Nat)
    (reached : (system idle).Reachable allowed (nested outer))
    (enters : ∀ world pool, allowed world (.enter 0 pool 0))
    (begins : ∀ world, enter (nested outer) 0 (poolOf number) 0 = some world →
      allowed world (.begin 0))
    (begun : ((enter (nested outer) 0 (poolOf number) 0).bind fun world => begin world 0).isSome) :
    (system idle).Reachable allowed (nested (number :: outer)) := by
  obtain ⟨after, taken⟩ := Option.isSome_iff_exists.mp begun
  obtain ⟨entered, first, second⟩ := Option.bind_eq_some_iff.mp taken
  have same : nested (number :: outer) = after := by
    rw [nested, taken, Option.getD_some]
  rw [same]
  exact .step (.step reached (enters _ (poolOf number)) first) (begins entered first) second

def back : World :=
  (((finish (nested [1]) 0 0).bind fun world => release world 0).bind fun world =>
    leave world 0).getD idle

theorem nested_one_reachable : (system idle).Reachable Allowed (nested [1]) := by
  refine nested_reachable 1 [] (.initial ⟨rfl, idle_starts⟩) (fun _ _ => trivial) ?_ (by rfl)
  intro world entered use entering
  cases entered
  refine ⟨fun entry member => absurd member not_mem_nil, fun freeable => ?_⟩
  exact absurd freeable.1 (by simp [nested, idle])

theorem back_reachable : (system idle).Reachable Allowed back := by
  have taken : (((finish (nested [1]) 0 0).bind fun world => release world 0).bind fun world =>
      leave world 0).isSome := by rfl
  obtain ⟨after, taken⟩ := Option.isSome_iff_exists.mp taken
  have same : back = after := by
    rw [back, taken, Option.getD_some]
  obtain ⟨released, first, last⟩ := Option.bind_eq_some_iff.mp taken
  obtain ⟨finished, first, second⟩ := Option.bind_eq_some_iff.mp first
  have inner : Allowed (nested [1]) (.finish 0 0) := rfl
  have free : Allowed finished (.release 0) := trivial
  have gone : Allowed released (.leave 0) := trivial
  rw [same]
  exact .step (.step (.step nested_one_reachable inner first) free second) gone last

end Sample

end TorchSupa.MemPools
