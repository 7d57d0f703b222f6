import Mathlib.Data.List.Induction
import Mathlib.Data.List.Perm.Basic

/-!
Writes to a memory in an unknown order, as those of the threads of a grid: what is left is decided
by the writes alone if and only if each of them is one that may come last.
-/

namespace Writes

variable {α β : Type} [DecidableEq α]

def after (writes : List (α × β)) (before : α → β) : α → β :=
  writes.foldl (fun memory write => Function.update memory write.1 write.2) before

variable {writes : List (α × β)} {before : α → β} {address : α}

theorem after_append (writes : List (α × β)) (last : α × β) (before : α → β) :
    after (writes ++ [last]) before = Function.update (after writes before) last.1 last.2 := by
  simp [after]

open List

theorem after_cases (writes : List (α × β)) (before : α → β) (address : α) :
    (∃ write ∈ writes, write.1 = address ∧ after writes before address = write.2) ∨
      (∀ write ∈ writes, write.1 ≠ address) ∧ after writes before address = before address := by
  induction writes using List.reverseRecOn with
  | nil =>
    right
    simp [after]
  | append_singleton writes last ih =>
    rw [after_append]
    by_cases here : last.1 = address
    · subst here
      exact .inl ⟨last, by simp, rfl, by simp⟩
    · rw [Function.update_of_ne (Ne.symm here)]
      rcases ih with ⟨write, member, same, value⟩ | ⟨unwritten, value⟩
      · exact .inl ⟨write, by simp [member], same, value⟩
      · refine .inr ⟨?_, value⟩
        intro write member
        rcases mem_append.mp member with old | new
        · exact unwritten write old
        · rw [mem_singleton.mp new]
          exact here

theorem exists_last {write : α × β} (member : write ∈ writes) :
    ∃ order, order.Perm writes ∧ ∀ before, after order before write.1 = write.2 := by
  obtain ⟨front, back, rfl⟩ := append_of_mem member
  refine ⟨front ++ back ++ [write], ?_, ?_⟩
  · rw [append_assoc]
    exact List.Perm.append_left front perm_append_comm
  · intro before
    rw [after_append]
    simp

variable (writes before) in
theorem unordered_iff (allowed : α → β → Prop) :
    (∀ order, order.Perm writes → ∀ address, allowed address (after order before address)) ↔
      (∀ write ∈ writes, allowed write.1 write.2) ∧
        ∀ address, (∀ write ∈ writes, write.1 ≠ address) → allowed address (before address) := by
  constructor
  · intro any
    constructor
    · intro write member
      obtain ⟨order, same, last⟩ := exists_last member
      simpa only [last] using any order same write.1
    · intro address unwritten
      have here := any writes (List.Perm.refl _) address
      rcases after_cases writes before address with ⟨write, member, same, _⟩ | ⟨_, value⟩
      · exact absurd same (unwritten write member)
      · rwa [value] at here
  · rintro ⟨written, kept⟩ order same address
    rcases after_cases order before address with ⟨write, member, rfl, value⟩ | ⟨unwritten, value⟩
    · rw [value]
      exact written write (same.mem_iff.mp member)
    · rw [value]
      exact kept address fun write member => unwritten write (same.mem_iff.mpr member)

end Writes
