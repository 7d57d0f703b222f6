/-!
Labelled transition systems and the states they reach by steps that are allowed.
-/

structure System (σ α : Type) where
  initial : σ → Prop
  step : σ → α → σ → Prop

namespace System

variable {σ α : Type}

inductive Reachable (system : System σ α) (allowed : σ → α → Prop) : σ → Prop
  | initial {state : σ} : system.initial state → Reachable system allowed state
  | step {state after : σ} {label : α} : Reachable system allowed state → allowed state label →
      system.step state label after → Reachable system allowed after

variable {system : System σ α} {allowed : σ → α → Prop}

/-- The run rule: what holds at the start and what every allowed step keeps holds
throughout. -/
theorem Reachable.invariant
    {invariant : σ → Prop} (start : ∀ state, system.initial state → invariant state)
    (keeps : ∀ state label after, invariant state → allowed state label →
      system.step state label after → invariant after)
    {state : σ} (reached : system.Reachable allowed state) : invariant state := by
  induction reached with
  | initial begins => exact start _ begins
  | step _ permitted taken ih => exact keeps _ _ _ ih permitted taken

theorem Reachable.strengthen {allowed permitted : σ → α → Prop}
    {invariant : σ → Prop} (start : ∀ state, system.initial state → invariant state)
    (keeps : ∀ state label after, invariant state → allowed state label →
      system.step state label after → invariant after)
    (permits : ∀ state label, invariant state → allowed state label → permitted state label)
    {state : σ} (reached : system.Reachable allowed state) :
    system.Reachable permitted state := by
  have both : system.Reachable permitted state ∧ invariant state := by
    induction reached with
    | initial begins => exact ⟨.initial begins, start _ begins⟩
    | step _ may taken ih =>
      exact ⟨.step ih.1 (permits _ _ ih.2 may) taken, keeps _ _ _ ih.2 may taken⟩
  exact both.1

def runs (advance : σ → α → Option σ) (guard : σ → α → Bool) : σ → List α → Option σ
  | state, [] => some state
  | state, label :: rest =>
    if guard state label then (advance state label).bind fun after => runs advance guard after rest
    else none

variable {advance : σ → α → Option σ} {guard : σ → α → Bool}

theorem Reachable.runs
    (sound : ∀ state label after, advance state label = some after → system.step state label after)
    (allow : ∀ state label, guard state label = true → allowed state label) (labels : List α) :
    ∀ {state final : σ}, system.Reachable allowed state →
      System.runs advance guard state labels = some final → system.Reachable allowed final := by
  induction labels with
  | nil =>
    intro state final reached ends
    cases ends
    exact reached
  | cons label rest ih =>
    intro state final reached ends
    unfold System.runs at ends
    split at ends
    · rename_i passes
      obtain ⟨after, taken, later⟩ := Option.bind_eq_some_iff.mp ends
      exact ih (.step reached (allow state label passes) (sound _ _ _ taken)) later
    · simp at ends

theorem Reachable.ended {state : σ} {labels : List α} (reached : system.Reachable allowed state)
    (sound : ∀ state label after, advance state label = some after → system.step state label after)
    (allow : ∀ state label, guard state label = true → allowed state label)
    (ends : (System.runs advance guard state labels).isSome = true) (otherwise : σ) :
    system.Reachable allowed ((System.runs advance guard state labels).getD otherwise) := by
  obtain ⟨final, same⟩ := Option.isSome_iff_exists.mp ends
  rw [same]
  exact reached.runs sound allow labels same

end System
