import TorchSupa.Allocator.Driver

/-!
What `CachingHostAllocator.cpp` works on. The event pool is left out: an event is one
recording, and the pool hands an event object out again only after its holder is gone.
-/

namespace TorchSupa.Host

open Allocator

abbrev BlockId := Nat
abbrev Stream := Nat
abbrev Event := Nat

inductive Api
  | hostAlloc
  | hostRegister
deriving DecidableEq, Repr, Inhabited

def apiOf (setting : Bool) : Api := if setting then .hostRegister else .hostAlloc

structure Block where
  size : Nat
  ptr : Nat
  allocated : Bool := false
  eventCount : Nat := 0
  streams : List Stream := []
  /-- ghost: `pinned_use_supa_host_register` as `allocate` has read it -/
  setting : Bool
  /-- ghost: what made the memory -/
  madeWith : Api
  /-- ghost: the events that its last `free` has recorded -/
  lastEvents : List Event := []
deriving Repr, Inhabited

/-- ghost: `empty_cache` has released the memory of a block. -/
structure Release where
  block : BlockId
  madeWith : Api
  releasedWith : Api
deriving DecidableEq, Repr, Inhabited

structure World where
  heap : Store Block := .empty
  blocks : List BlockId := []
  ptrToBlock : List (Nat × BlockId) := []
  freeList : List BlockId := []
  supaEvents : List (Event × BlockId) := []
  pinnedUseSupaHostRegister : Bool := false
  locked : Bool := false
  /-- ghost: the number of recordings so far, which is the next event -/
  recordings : Nat := 0
  completed : List Event := []
  /-- ghost: the blocks that callers hold -/
  live : List BlockId := []
  releases : List Release := []
deriving Repr, Inhabited

abbrev HostM := EStateM Exn World

def ensure (condition : Bool) (otherwise : Exn) : HostM Unit :=
  if condition then pure () else throw otherwise

def getBlock (block : BlockId) : HostM Block := do
  match (← get).heap.get? block with
  | some self => pure self
  | none => throw .undefinedBehaviour

def updateBlock (block : BlockId) (change : Block → Block) : HostM Unit :=
  modify fun world => { world with heap := world.heap.modify block change }

/-- What `BlockComparator` compares: the size, and then the pointer. -/
def World.key (world : World) (block : BlockId) : Nat × Nat :=
  ((world.heap.get? block).map fun self => (self.size, self.ptr)).getD (0, 0)

def BlockComparator (a b : Nat × Nat) : Bool :=
  if a.1 ≠ b.1 then a.1 < b.1 else a.2 < b.2

/-- `std::set::insert`: nothing is inserted beside an equivalent element. -/
def insertOrdered (key : BlockId → Nat × Nat) (block : BlockId) : List BlockId → List BlockId
  | [] => [block]
  | first :: rest =>
    if BlockComparator (key block) (key first) then block :: first :: rest
    else if BlockComparator (key first) (key block) then first :: insertOrdered key block rest
    else first :: rest

theorem BlockComparator_total {a b : Nat × Nat} (less : BlockComparator a b = false)
    (greater : BlockComparator b a = false) : a = b := by
  unfold BlockComparator at less greater
  by_cases same : a.1 = b.1
  · simp only [same, ne_eq, not_true_eq_false, ↓reduceIte, decide_eq_false_iff_not] at less greater
    exact Prod.ext same (by omega)
  · simp only [ne_eq, same, Ne.symm same, not_false_eq_true, ↓reduceIte,
      decide_eq_false_iff_not] at less greater
    omega

theorem insertOrdered_perm {key : BlockId → Nat × Nat} {block : BlockId} {blocks : List BlockId}
    (distinct : ∀ other ∈ blocks, key other ≠ key block) :
    (insertOrdered key block blocks).Perm (block :: blocks) := by
  induction blocks with
  | nil => exact List.Perm.refl _
  | cons first rest ih =>
    simp only [List.mem_cons, forall_eq_or_imp] at distinct
    unfold insertOrdered
    split
    · exact List.Perm.refl _
    · rename_i less
      split
      · exact ((ih distinct.2).cons first).trans (List.Perm.swap block first rest)
      · rename_i greater
        have same := BlockComparator_total (by simpa using less) (by simpa using greater)
        exact absurd same.symm distinct.1

def World.lowerBound (world : World) (size : Nat) : Option BlockId :=
  world.freeList.find? fun block => !BlockComparator (world.key block) (size, 0)

def nextPowerOf2 (value : Nat) : Nat :=
  if value = 0 then 1 else 2 ^ (value.log2 + 1) % 2 ^ 64

def powerOf2Ceil (size : Nat) : Nat := if size = 0 then 0 else nextPowerOf2 (size - 1)

structure Answers where
  pointer : Option Nat := none
  hostRegister : Bool := true
  hostGetDevicePointer : Option Nat := none
  eventRecord : Bool := true
  eventQuery : Bool := true
  hostUnregister : Bool := true
  freeHost : Bool := true
deriving Repr, Inhabited

def Answers.Fresh (answers : Answers) (world : World) : Prop :=
  ∀ pointer block self, answers.pointer = some pointer → world.heap.get? block = some self →
    self.ptr ≠ pointer

end TorchSupa.Host
