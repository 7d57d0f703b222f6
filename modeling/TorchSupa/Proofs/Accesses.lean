import TorchSupa.Allocator.Machine

/-!
Rules for the accesses that the methods are made of. A dangling pointer ends the run,
so a rule that reads through one hands on that it was alive.
-/

namespace TorchSupa.Allocator

open Outcome

def Fails (after : DeviceCachingAllocator → Prop) : Exn → DeviceCachingAllocator → Prop :=
  fun exception state => exception.Fatal ∨ after state

section Rules

variable {α β : Type} {state : DeviceCachingAllocator} {normal : β → DeviceCachingAllocator → Prop}
  {thrown : DeviceCachingAllocator → Prop}

variable {program : M β} {condition : Bool} {next : PUnit → M β} {id : PrivatePoolId}

theorem wp_undefined (undefined : program state = .error .undefinedBehaviour state) :
    wp program normal (Fails thrown) state := by
  unfold wp
  rw [undefined]
  exact .inl trivial

theorem bind_get {next : DeviceCachingAllocator → M β}
    (spec : wp (next state) normal (Fails thrown) state) :
    wp (get >>= next) normal (Fails thrown) state := spec

theorem wp_last (spec : wp (program >>= pure) normal (Fails thrown) state) :
    wp program normal (Fails thrown) state := by
  rwa [bind_pure] at spec

theorem bind_internalAssert (failed : condition = false → thrown state)
    (spec : condition = true → wp (next ⟨⟩) normal (Fails thrown) state) :
    wp (internalAssert condition >>= next) normal (Fails thrown) state := by
  cases holds : condition with
  | false => exact .inr (failed holds)
  | true => exact spec holds

theorem bind_torchCheck {message : String} (failed : condition = false → thrown state)
    (spec : condition = true → wp (next ⟨⟩) normal (Fails thrown) state) :
    wp (torchCheck condition message >>= next) normal (Fails thrown) state := by
  cases holds : condition with
  | false => exact .inr (failed holds)
  | true => exact spec holds

theorem bind_derefPool {next : PrivatePool → M β}
    (spec : ∀ pool, state.privatePools.get? id = some pool →
      wp (next pool) normal (Fails thrown) state) :
    wp (derefPool id >>= next) normal (Fails thrown) state := by
  cases found : state.privatePools.get? id with
  | none =>
    apply wp_undefined
    simp [derefPool, run_bind, run_get, found, run_throw]
  | some pool =>
    have run : derefPool id state = .ok pool state := by
      simp [derefPool, run_bind, run_get, found, run_pure]
    rw [wp_bind]
    unfold wp
    rw [run]
    exact spec pool found

theorem bind_updatePrivatePool {change : PrivatePool → PrivatePool}
    (spec : ∀ pool, state.privatePools.get? id = some pool → wp (next ⟨⟩) normal (Fails thrown)
      { state with privatePools := state.privatePools.modify id change }) :
    wp (updatePrivatePool id change >>= next) normal (Fails thrown) state := by
  cases found : state.privatePools.get? id with
  | none =>
    apply wp_undefined
    simp [updatePrivatePool, run_bind, run_get, found, run_throw]
  | some pool =>
    have run : updatePrivatePool id change state =
        .ok ⟨⟩ { state with privatePools := state.privatePools.modify id change } := by
      simp [updatePrivatePool, run_bind, run_get, found, run_modify]
    rw [wp_bind]
    unfold wp
    rw [run]
    exact spec pool found

end Rules

end TorchSupa.Allocator
