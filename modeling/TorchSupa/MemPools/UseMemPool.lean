import TorchSupa.Graph.Pools
import TorchSupa.Logic.Transitions

/-!
Threads in blocks of `use_mem_pool`. A call into an allocator is one step, so other threads may
come between the calls of one block. `MemPool` objects outlive their blocks.
-/

namespace TorchSupa.MemPools

open Outcome Allocator TorchSupa.Graph

structure Use where
  pool : MemPool
  device : DeviceIndex
  prevMempool : Option MemPool
deriving DecidableEq, Repr

inductive Doing
  | body
  | entering (use : Use)
  | ended (use : Use)
  | released (use : Use)
deriving DecidableEq, Repr

structure Routine where
  active : Option MemPool
  uses : List Use := []
  doing : Doing := .body
  held : List Use := []
deriving DecidableEq, Repr

structure World where
  allocators : DeviceIndex → DeviceCachingAllocator
  threads : Thread → Routine
  /-- ghost: the blocks that are left and not yet released -/
  leaving : List (Thread × Use) := []

section Steps

def World.setThread (world : World) (thread : Thread) (routine : Routine) : World :=
  { world with threads := Function.update world.threads thread routine }

def World.setAllocator (world : World) (device : DeviceIndex) (after : DeviceCachingAllocator) :
    World :=
  { world with allocators := Function.update world.allocators device after }

def everything : CaptureFilter where
  accepts _ _ := true

def enter (world : World) (thread : Thread) (pool : MemPool) (device : DeviceIndex) :
    Option World :=
  let routine := world.threads thread
  match routine.doing with
  | .body => some (world.setThread thread { routine with
      active := some pool
      doing := .entering ⟨pool, device, routine.active⟩ })
  | _ => none

/-- `_supa_beginAllocateToPool`. If it throws, the traceback keeps the context. -/
def begin (world : World) (thread : Thread) : Option World :=
  let routine := world.threads thread
  match routine.doing with
  | .entering use =>
    match beginAllocateToPool use.pool.id everything (world.allocators use.device) with
    | .ok _ after => some ((world.setAllocator use.device after).setThread thread
        { routine with uses := use :: routine.uses, doing := .body })
    | .error _ after => some ((world.setAllocator use.device after).setThread thread
        { routine with doing := .body, held := use :: routine.held })
  | _ => none

def finish (world : World) (thread : Thread) (place : Nat) : Option World :=
  let routine := world.threads thread
  match routine.doing, routine.uses[place]? with
  | .body, some use =>
    let uses := routine.uses.eraseIdx place
    match endAllocateToPool use.pool.id (world.allocators use.device) with
    | .ok _ after => some { (world.setAllocator use.device after).setThread thread
        { routine with uses, doing := .ended use } with
      leaving := (thread, use) :: world.leaving }
    | .error _ after => some ((world.setAllocator use.device after).setThread thread
        { routine with uses, held := use :: routine.held })
  | _, _ => none

def release (world : World) (thread : Thread) : Option World :=
  let routine := world.threads thread
  match routine.doing with
  | .ended use =>
    let world := { world with leaving := world.leaving.erase (thread, use) }
    match releasePool use.pool.id (world.allocators use.device) with
    | .ok _ after => some ((world.setAllocator use.device after).setThread thread
        { routine with doing := .released use })
    | .error _ after => some ((world.setAllocator use.device after).setThread thread
        { routine with doing := .body, held := use :: routine.held })
  | _ => none

def leave (world : World) (thread : Thread) : Option World :=
  let routine := world.threads thread
  match routine.doing with
  | .released use => some (world.setThread thread
      { routine with active := use.prevMempool, doing := .body })
  | _ => none

def drop (world : World) (thread : Thread) (place : Nat) : Option World :=
  let routine := world.threads thread
  match routine.held[place]? with
  | some use => some (world.setThread thread
      { routine with active := use.prevMempool, held := routine.held.eraseIdx place })
  | none => none

def route (world : World) (thread : Thread) (device : DeviceIndex) (size : Nat) (stream : Stream) :
    EStateM.Result Exn DeviceCachingAllocator PoolRef :=
  getPool size stream { world.allocators device with
    caller := ⟨thread, (world.threads thread).active⟩ }

end Steps

/-- What allocations and frees may do to an allocator: everything but to what decides about the
pools. A pool that nobody uses may go. -/
structure Unrelated (before after : DeviceCachingAllocator) : Prop where
  sound : PoolsSound after
  captures : after.capturesUnderway = before.capturesUnderway
  counts : ∀ mempoolId, useCount after mempoolId = useCount before mempoolId

inductive Action
  | enter (thread : Thread) (pool : MemPool) (device : DeviceIndex)
  | begin (thread : Thread)
  | allocate (thread : Thread) (device : DeviceIndex) (size : Nat) (stream : Stream)
  | finish (thread : Thread) (place : Nat)
  | release (thread : Thread)
  | leave (thread : Thread)
  | drop (thread : Thread) (place : Nat)
  | unrelated (device : DeviceIndex) (after : DeviceCachingAllocator)

def Step (world : World) : Action → World → Prop
  | .enter thread pool device, after => enter world thread pool device = some after
  | .begin thread, after => begin world thread = some after
  | .allocate thread device size stream, after => (world.threads thread).doing = .body ∧
      (∃ pool allocator, route world thread device size stream = .ok pool allocator) ∧ after = world
  | .finish thread place, after => finish world thread place = some after
  | .release thread, after => release world thread = some after
  | .leave thread, after => leave world thread = some after
  | .drop thread place, after => drop world thread place = some after
  | .unrelated device allocator, after =>
    Unrelated (world.allocators device) allocator ∧ after = world.setAllocator device allocator

structure World.Starts (world : World) : Prop where
  sound : ∀ device, PoolsSound (world.allocators device)
  captures : ∀ device, (world.allocators device).capturesUnderway = []
  counts : ∀ device mempoolId, 0 ≤ useCount (world.allocators device) mempoolId
  uses : ∀ thread, (world.threads thread).uses = []
  doing : ∀ thread, (world.threads thread).doing = .body
  held : ∀ thread, (world.threads thread).held = []
  leaving : world.leaving = []

def system (start : World) : System World Action where
  initial world := world = start ∧ world.Starts
  step := Step

end TorchSupa.MemPools
