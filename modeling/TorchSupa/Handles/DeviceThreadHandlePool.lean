import TorchSupa.Data.Store
import TorchSupa.Logic.Outcome

/-!
`DeviceThreadHandles.h`: the library handles that threads reserve through their windows of
a pool and that go back to the pool with the thread.
-/

namespace TorchSupa.Handles

open Outcome

abbrev Device := Int
abbrev Thread := Nat

/-- The value that a call of `Create` has stored, numbered by these calls: each makes a new
handle. -/
abbrev Handle := Nat

/-- `created_handles` and `available_handles`; the last element of a list is its back. -/
structure DeviceThreadHandlePool where
  createdHandles : Device → List Handle := fun _ => []
  availableHandles : Device → List Handle := fun _ => []
deriving Inhabited

structure PoolWindow where
  myHandles : Device → Option Handle := fun _ => none
deriving Inhabited

structure Process where
  pool : DeviceThreadHandlePool := {}
  alive : Bool := true
  windows : Store PoolWindow := .empty
  creations : Nat := 0
  /-- ghost: what `reserve` has returned, newest first -/
  reserved : List (Thread × Device × Handle) := []
deriving Inhabited

inductive Exn
  | torchCheck (message : String)
  /-- thrown by `Create` -/
  | create
  | undefinedBehaviour
deriving DecidableEq, Repr, Inhabited

abbrev M := EStateM Exn Process

def setAt {α : Type} (entries : Device → α) (device : Device) (value : α) : Device → α :=
  fun other => if other = device then value else entries other

def newPoolWindow : M Thread := do
  let process ← get
  check process.alive .undefinedBehaviour
  modify fun process => { process with windows := process.windows.push {} }
  pure process.windows.fresh

def owning (windows : Store PoolWindow) (thread : Thread) (device : Device) (handle : Handle) :
    Store PoolWindow :=
  windows.modify thread fun window =>
    { window with myHandles := setAt window.myHandles device (some handle) }

def own (thread : Thread) (device : Device) (handle : Handle) : M Unit :=
  modify fun process => { process with windows := owning process.windows thread device handle }

def popAvailable (device : Device) : M Unit :=
  modify fun process =>
    let pool := process.pool
    { process with pool := { pool with
        availableHandles :=
          setAt pool.availableHandles device (pool.availableHandles device).dropLast } }

def emplaceCreated (device : Device) : M Handle := do
  let handle := (← get).creations
  modify fun process =>
    let pool := process.pool
    { process with
      pool := { pool with
        createdHandles :=
          setAt pool.createdHandles device (pool.createdHandles device ++ [handle]) }
      creations := handle + 1 }
  pure handle

/-- The part of `reserve` under the lock of the pool; `creates` says whether a call of `Create`
succeeds. -/
def acquire (creates : Bool) (thread : Thread) (device : Device) : M Handle := do
  check (← get).alive (.torchCheck "Cannot create handle during program termination")
  match ((← get).pool.availableHandles device).getLast? with
  | some handle => do
      own thread device handle
      popAvailable device
      pure handle
  | none => do
      check creates .create
      let handle ← emplaceCreated device
      own thread device handle
      pure handle

def lookup (thread : Thread) (device : Device) : M (Option Handle) := do
  match (← get).windows.get? thread with
  | some window => pure (window.myHandles device)
  | none => throw .undefinedBehaviour

def reserve (creates : Bool) (thread : Thread) (device : Device) : M Handle := do
  let handle ←
    match ← lookup thread device with
    | some handle => pure handle
    | none => acquire creates thread device
  modify fun process => { process with reserved := (thread, device, handle) :: process.reserved }
  pure handle

def released (pool : DeviceThreadHandlePool) (window : PoolWindow) : DeviceThreadHandlePool :=
  { pool with
    availableHandles := fun device =>
      pool.availableHandles device ++ (window.myHandles device).toList }

/-- `~PoolWindow`, when the thread ends; the handles leak once the pool is gone. -/
def release (thread : Thread) : M Unit := do
  match (← get).windows.get? thread with
  | none => throw .undefinedBehaviour
  | some window =>
    modify fun process =>
      { process with
        pool := if process.alive then released process.pool window else process.pool
        windows := process.windows.erase thread }

def dropPool : M Unit := modify fun process => { process with alive := false }

inductive Op
  | newPoolWindow
  | reserve (creates : Bool) (thread : Thread) (device : Device)
  | release (thread : Thread)
  | dropPool
deriving DecidableEq, Repr, Inhabited

def Op.run : Op → M Unit
  | .newPoolWindow => do let _thread ← Handles.newPoolWindow
  | .reserve creates thread device => do let _handle ← Handles.reserve creates thread device
  | .release thread => Handles.release thread
  | .dropPool => Handles.dropPool

/-- The states that a process goes through, newest first. Each operation runs under the lock
of the pool or on data of its own thread, so that operations of different threads follow
each other in some order. -/
inductive Run : List Process → Prop
  | start : Run [{}]
  | returns {process after : Process} {past : List Process} (op : Op) :
      Run (process :: past) → op.run process = .ok () after → Run (after :: process :: past)
  | throws {process after : Process} {past : List Process} (op : Op) (exception : Exn) :
      Run (process :: past) → op.run process = .error exception after →
      exception ≠ .undefinedBehaviour → Run (after :: process :: past)

def Held (windows : Store PoolWindow) (thread : Thread) (device : Device) (handle : Handle) : Prop :=
  ∃ window, windows.get? thread = some window ∧ window.myHandles device = some handle

def holders (windows : Store PoolWindow) (device : Device) : Int :=
  windows.sum fun window => if (window.myHandles device).isSome then 1 else 0

def peak (device : Device) : List Process → Int
  | [] => 0
  | process :: past => max (holders process.windows device) (peak device past)

end TorchSupa.Handles
