import TorchSupa.Allocator.Block
import TorchSupa.Logic.Outcome

/-!
The SUPA runtime and driver, which are not part of the repository. Every answer
may depend on the time of the call (`tick`), so a theorem over all drivers covers
every outcome the calls can have.
-/

namespace TorchSupa.Allocator

inductive Exn
  | torchCheck (message : String)
  | internalAssert
  | standard
  | driver
  | outOfMemory (allocSize deviceTotal deviceFree : Nat) (allocatedBytes reservedBytes : Int)
  | undefinedBehaviour
  | diverged
deriving DecidableEq, Repr

def Exn.Fatal : Exn → Prop
  | .undefinedBehaviour => True
  | .diverged => True
  | _ => False

instance : DecidablePred Exn.Fatal := fun exception => by
  cases exception <;> unfold Exn.Fatal <;> infer_instance

def Apart (base size otherBase otherSize : Nat) : Prop :=
  base + size ≤ otherBase ∨ otherBase + otherSize ≤ base

instance (base size otherBase otherSize : Nat) :
    Decidable (Apart base size otherBase otherSize) := by
  unfold Apart; infer_instance

structure Driver where
  fuel : Nat
  totalGlobalMem : Nat
  totalGlobalMem_pos : 0 < totalGlobalMem
  order : Nat → List Nat → List Nat
  order_perm : ∀ tick elements, (order tick elements).Perm elements
  allocate : Source → Nat → List (Nat × Nat) → Nat → Option Nat
  allocate_nonnull : ∀ source tick live size address,
    allocate source tick live size = some address → 0 < address
  allocate_nonempty : ∀ source tick live size address,
    allocate source tick live size = some address → 0 < size
  allocate_disjoint : ∀ source tick live size address,
    allocate source tick live size = some address →
      ∀ range ∈ live, Apart address size range.1 range.2
  memCreate : Nat → Bool
  mapsBeyondHandle : Bool
  memGetInfo : Nat → Nat × Nat
  eventCallFails : Nat → Bool
  eventDone : Nat → Nat → Bool
  eventDone_mono : ∀ tick later event, tick ≤ later →
    eventDone tick event = true → eventDone later event = true
  waitUntil : Nat → Nat → Nat

theorem Driver.mem_order (driver : Driver) (tick : Nat) (elements : List Nat) (element : Nat) :
    element ∈ driver.order tick elements ↔ element ∈ elements :=
  (driver.order_perm tick elements).mem_iff

end TorchSupa.Allocator
