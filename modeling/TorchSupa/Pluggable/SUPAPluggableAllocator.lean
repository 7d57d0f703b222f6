import TorchSupa.Data.Store
import TorchSupa.Logic.Outcome

/-!
`SUPAPluggableAllocator.cpp`: memory that the functions of a user hand out and take back. The
allocator keeps what it was asked for, by the address, for the calls of the free function.
-/

namespace TorchSupa.Pluggable

open Outcome

abbrev Address := Nat
abbrev ContextId := Nat

structure AllocationMetadata where
  size : Nat
  deviceIdx : Int
  stream : Nat
deriving DecidableEq, Repr, Inhabited

structure DeleterContext where
  data : Address
  size : Nat
  device : Int
  stream : Nat
deriving DecidableEq, Repr, Inhabited

def DeleterContext.metadata (context : DeleterContext) : AllocationMetadata :=
  ⟨context.size, context.device, context.stream⟩

structure FreeCall where
  ptr : Address
  given : AllocationMetadata
  /-- ghost: the most recent allocation of the address -/
  latest : Option AllocationMetadata
deriving DecidableEq, Repr, Inhabited

structure SUPAPluggableAllocator where
  allocationMetadata : Address → Option AllocationMetadata := fun _ => none
  contexts : Store DeleterContext := .empty
  /-- ghost: newest first -/
  calls : List FreeCall := []
  /-- ghost: the most recent allocation of each address -/
  latest : Address → Option AllocationMetadata := fun _ => none
  /-- ghost: the addresses that were handed out and not taken back since -/
  live : Address → Bool := fun _ => false
deriving Inhabited

inductive Exn
  | torchCheck (message : String)
  /-- thrown by a function of the user -/
  | user
  | undefinedBehaviour
deriving DecidableEq, Repr, Inhabited

abbrev M := EStateM Exn SUPAPluggableAllocator

def setAt {α : Type} (entries : Address → α) (address : Address) (value : α) : Address → α :=
  fun other => if other = address then value else entries other

/-- `alloc_fn_(size, device, stream)`, which yields `given` or throws. -/
def allocFn (metadata : AllocationMetadata) (given : Option Address) : M Address := do
  let ptr ← demand given .user
  modify fun allocator =>
    { allocator with
      latest := setAt allocator.latest ptr (some metadata)
      live := setAt allocator.live ptr true }
  pure ptr

def freeFn (ptr : Address) (metadata : AllocationMetadata) : M Unit :=
  modify fun allocator =>
    { allocator with
      calls := ⟨ptr, metadata, allocator.latest ptr⟩ :: allocator.calls
      live := setAt allocator.live ptr false }

/-- `allocation_metadata_.emplace(r, ...)`: an entry that is there stays. -/
def emplace (ptr : Address) (metadata : AllocationMetadata) : M Unit :=
  modify fun allocator =>
    if (allocator.allocationMetadata ptr).isSome then allocator
    else { allocator with
      allocationMetadata := setAt allocator.allocationMetadata ptr (some metadata) }

def malloc (metadata : AllocationMetadata) (given : Option Address) : M Address := do
  let ptr ← allocFn metadata given
  emplace ptr metadata
  pure ptr

def allocate (metadata : AllocationMetadata) (given : Option Address) : M ContextId := do
  let ptr ← malloc metadata given
  let context := (← get).contexts.fresh
  modify fun allocator =>
    { allocator with
      contexts := allocator.contexts.push
        ⟨ptr, metadata.size, metadata.deviceIdx, metadata.stream⟩ }
  pure context

def rawDelete (ptr : Address) : M Unit := do
  let metadata ← demand ((← get).allocationMetadata ptr)
    (.torchCheck "Trying to free a pointer not allocated here")
  modify fun allocator =>
    { allocator with allocationMetadata := setAt allocator.allocationMetadata ptr none }
  freeFn ptr metadata

/-- `custom_raw_deleter`, which destroys a `DataPtr`: `free_fn_(...)` and `delete this`. -/
def free (context : ContextId) : M Unit := do
  match (← get).contexts.get? context with
  | none => throw .undefinedBehaviour
  | some self => do
      freeFn self.data self.metadata
      modify fun allocator => { allocator with contexts := allocator.contexts.erase context }

inductive Op
  | malloc (metadata : AllocationMetadata) (given : Option Address)
  | allocate (metadata : AllocationMetadata) (given : Option Address)
  | rawDelete (ptr : Address)
  | free (context : ContextId)
deriving DecidableEq, Repr, Inhabited

def Op.run : Op → M Unit
  | .malloc metadata given => do let _ptr ← Pluggable.malloc metadata given
  | .allocate metadata given => do let _context ← Pluggable.allocate metadata given
  | .rawDelete ptr => Pluggable.rawDelete ptr
  | .free context => Pluggable.free context

def Enabled (allocator : SUPAPluggableAllocator) : Op → Prop
  | .malloc _ given => ∀ ptr, given = some ptr → allocator.live ptr = false
  | .allocate _ given => ∀ ptr, given = some ptr → allocator.live ptr = false
  | _ => True

inductive Run : List (SUPAPluggableAllocator × Op) → SUPAPluggableAllocator → Prop
  | start : Run [] {}
  | returns {past : List (SUPAPluggableAllocator × Op)} {allocator after : SUPAPluggableAllocator}
      (op : Op) : Run past allocator → Enabled allocator op → op.run allocator = .ok () after →
      Run ((allocator, op) :: past) after
  | throws {past : List (SUPAPluggableAllocator × Op)} {allocator after : SUPAPluggableAllocator}
      (op : Op) (exception : Exn) : Run past allocator → Enabled allocator op →
      op.run allocator = .error exception after → exception ≠ .undefinedBehaviour →
      Run ((allocator, op) :: past) after

end TorchSupa.Pluggable
