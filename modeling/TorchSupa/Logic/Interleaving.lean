import TorchSupa.Logic.Transitions
import Mathlib.Logic.Function.Basic

/-!
Threads that take steps in turn on a shared state. The invariant rule keeps a ghost state
beside the shared one: a thread owns what its place in the program says, and a step of one
thread leaves what the others own.
-/

namespace Interleaving

open Function

/-- What every thread runs: an action takes the shared state and the place of the thread to
their next values. -/
structure Program (σ ρ α : Type) where
  initial : σ → Prop
  start : ρ
  step : σ → ρ → α → σ → ρ → Prop

structure Threads (σ ρ : Type) where
  shared : σ
  place : Nat → ρ

/-- `owns` is what a thread knows of the ghost state from its place, `apart` what the places of
two threads have to do with each other, and a key that is `wanted` is carried by a thread. -/
structure Discipline (σ ρ γ κ : Type) where
  sound : γ → σ → Prop
  owns : γ → ρ → Prop
  apart : ρ → ρ → Prop
  wanted : γ → κ → Prop
  carries : ρ → κ → Prop

section Rules

variable {σ ρ α γ κ : Type}

def Program.interleaved (program : Program σ ρ α) : System (Threads σ ρ) (Nat × α) where
  initial state := program.initial state.shared ∧ ∀ thread, state.place thread = program.start
  step state label after := ∃ next,
    program.step state.shared (state.place label.1) label.2 after.shared next ∧
      after.place = update state.place label.1 next

structure Discipline.HoldsWith (discipline : Discipline σ ρ γ κ) (ghost : γ)
    (state : Threads σ ρ) : Prop where
  sound : discipline.sound ghost state.shared
  owns : ∀ thread, discipline.owns ghost (state.place thread)
  apart : ∀ thread other, thread ≠ other →
    discipline.apart (state.place thread) (state.place other)
  carried : ∀ key, discipline.wanted ghost key → ∃ thread, discipline.carries (state.place thread) key

def Discipline.Holds (discipline : Discipline σ ρ γ κ) (state : Threads σ ρ) : Prop :=
  ∃ ghost, discipline.HoldsWith ghost state

/-- What a step from `before` has to ensure, in terms of the thread that takes it alone. -/
structure Discipline.Keeps (discipline : Discipline σ ρ γ κ) (ghost later : γ) (before : ρ)
    (after : σ) (next : ρ) : Prop where
  sound : discipline.sound later after
  owns : discipline.owns later next
  others : ∀ other, discipline.owns ghost other → discipline.apart before other →
    discipline.owns later other ∧ discipline.apart next other
  carried : ∀ key, discipline.wanted later key →
    discipline.carries next key ∨ discipline.wanted ghost key ∧ ¬ discipline.carries before key

variable {discipline : Discipline σ ρ γ κ} {program : Program σ ρ α}

section

variable (symmetric : ∀ {place other}, discipline.apart place other → discipline.apart other place)
include symmetric

theorem Discipline.Keeps.step {ghost later : γ}
    {state after : Threads σ ρ} {thread : Nat} {next : ρ}
    (keeps : discipline.Keeps ghost later (state.place thread) after.shared next)
    (placed : after.place = update state.place thread next)
    (holds : discipline.HoldsWith ghost state) : discipline.HoldsWith later after := by
  have here : after.place thread = next := by rw [placed, update_self]
  have there : ∀ other, other ≠ thread → after.place other = state.place other := by
    intro other different
    rw [placed, update_of_ne different]
  have others : ∀ other, other ≠ thread → discipline.owns later (state.place other) ∧
      discipline.apart next (state.place other) := fun other different =>
    keeps.others _ (holds.owns other) (holds.apart thread other (Ne.symm different))
  constructor
  · exact keeps.sound
  · intro other
    by_cases same : other = thread
    · rw [same, here]
      exact keeps.owns
    · rw [there other same]
      exact (others other same).1
  · intro first second different
    by_cases same : first = thread
    · subst same
      rw [here, there second (Ne.symm different)]
      exact (others second (Ne.symm different)).2
    · rw [there first same]
      by_cases also : second = thread
      · subst also
        rw [here]
        exact symmetric (others first same).2
      · rw [there second also]
        exact holds.apart first second different
  · intro key wanted
    rcases keeps.carried key wanted with carries | ⟨before, not⟩
    · exact ⟨thread, by rwa [here]⟩
    · obtain ⟨other, carries⟩ := holds.carried key before
      have different : other ≠ thread := by
        intro same
        rw [same] at carries
        exact not carries
      exact ⟨other, by rwa [there other different]⟩

/-- The run rule: the discipline holds throughout when every allowed step of one thread
keeps it. -/
theorem Discipline.holds {allowed : Threads σ ρ → Nat × α → Prop}
    (begins : ∀ shared, program.initial shared → ∃ ghost, discipline.sound ghost shared ∧
      discipline.owns ghost program.start ∧ ∀ key, ¬ discipline.wanted ghost key)
    (idle : discipline.apart program.start program.start)
    (keeps : ∀ ghost state thread action after next, discipline.HoldsWith ghost state →
      allowed state (thread, action) →
      program.step state.shared (state.place thread) action after next →
      ∃ later, discipline.Keeps ghost later (state.place thread) after next)
    {state : Threads σ ρ} (reached : program.interleaved.Reachable allowed state) :
    discipline.Holds state := by
  refine reached.invariant ?_ ?_
  · rintro first ⟨initial, places⟩
    obtain ⟨ghost, sound, owns, none'⟩ := begins first.shared initial
    refine ⟨ghost, sound, fun thread => ?_, fun thread other _ => ?_, fun key wanted => ?_⟩
    · rw [places]
      exact owns
    · rw [places, places]
      exact idle
    · exact absurd wanted (none' key)
  · rintro before ⟨thread, action⟩ after ⟨ghost, holds⟩ permitted ⟨next, step, placed⟩
    obtain ⟨later, kept⟩ := keeps ghost before thread action after.shared next holds permitted step
    exact ⟨later, kept.step symmetric placed holds⟩

end

def turn (advance : σ → ρ → α → Option (σ × ρ)) (state : Threads σ ρ) (label : Nat × α) :
    Option (Threads σ ρ) :=
  (advance state.shared (state.place label.1) label.2).map fun after =>
    ⟨after.1, update state.place label.1 after.2⟩

theorem step_of_turn {advance : σ → ρ → α → Option (σ × ρ)}
    (sound : ∀ before place action after next, advance before place action = some (after, next) →
      program.step before place action after next)
    (state : Threads σ ρ) (label : Nat × α) (after : Threads σ ρ)
    (taken : turn advance state label = some after) : program.interleaved.step state label after := by
  obtain ⟨⟨shared, next⟩, advances, rfl⟩ := Option.map_eq_some_iff.mp taken
  exact ⟨next, sound _ _ _ _ _ advances, rfl⟩

end Rules

end Interleaving
