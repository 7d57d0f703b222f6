import Mathlib.Data.List.Basic
import Mathlib.Tactic.Ring

/-!
Vector accesses to memory: an address must be a multiple of the width, and all bytes must belong to
the same tensor.
-/

structure VectorAccess where
  first : Nat
  bytes : Nat
  address : Nat
  width : Nat
deriving DecidableEq, Repr

namespace VectorAccess

def Inside (self : VectorAccess) : Prop :=
  self.first ≤ self.address ∧ self.address + self.width ≤ self.first + self.bytes

def Right (self : VectorAccess) : Prop := self.width ∣ self.address ∧ self.Inside

instance (self : VectorAccess) : Decidable self.Right :=
  inferInstanceAs (Decidable (_ ∣ _ ∧ _ ≤ _ ∧ _ ≤ _))

def parts (self : VectorAccess) (width : Nat) : List VectorAccess :=
  (List.range (self.width / width)).map fun part =>
    { self with address := self.address + width * part, width := width }

variable {access : VectorAccess} {width : Nat}

open Nat

theorem parts_right_iff (positive : 0 < access.width) (divides : width ∣ access.width) :
    (∀ part ∈ access.parts width, part.Right) ↔ width ∣ access.address ∧ access.Inside := by
  obtain ⟨count, same⟩ := divides
  have wide : 0 < width := Nat.pos_of_ne_zero fun none => by
    rw [same, none, zero_mul] at positive
    exact Nat.lt_irrefl _ positive
  have many : 0 < count := Nat.pos_of_ne_zero fun none => by
    rw [same, none, mul_zero] at positive
    exact Nat.lt_irrefl _ positive
  have number : access.width / width = count := by
    rw [same, Nat.mul_div_cancel_left _ wide]
  simp only [parts, number, List.forall_mem_map, List.mem_range, Right, Inside]
  constructor
  · intro all
    obtain ⟨aligned, low, _⟩ := all 0 many
    obtain ⟨_, _, high⟩ := all (count - 1) (by omega)
    have last : width * (count - 1) + width = width * count := by
      rw [← mul_succ, succ_eq_add_one, Nat.sub_add_cancel many]
    rw [mul_zero, Nat.add_zero] at aligned low
    refine ⟨aligned, low, ?_⟩
    rw [same]
    omega
  · rintro ⟨aligned, low, high⟩ part few
    have room : width * part + width ≤ width * count := by
      rw [← mul_succ]
      exact Nat.mul_le_mul_left _ few
    rw [same] at high
    refine ⟨Nat.dvd_add aligned (Nat.dvd_mul_right _ _), by omega, by omega⟩

theorem walk_right_iff (positive : 0 < width) (first bytes base bound : Nat) :
    (∀ i, width ∣ i → i < bound → Right ⟨first, bytes, base + i, width⟩) ↔
      bound = 0 ∨ width ∣ base ∧ first ≤ base ∧
        base + (bound + width - 1) / width * width ≤ first + bytes := by
  have rounded := div_add_mod (bound + width - 1) width
  have below := mod_lt (bound + width - 1) positive
  rw [Nat.mul_comm] at rounded
  constructor
  · intro all
    by_cases empty : bound = 0
    · exact .inl empty
    · obtain ⟨aligned, low, _⟩ := all 0 (Nat.dvd_zero _) (by omega)
      have some : 0 < (bound + width - 1) / width := Nat.div_pos (by omega) positive
      have step : ((bound + width - 1) / width - 1) * width + width =
          (bound + width - 1) / width * width := by
        rw [← succ_mul, succ_eq_add_one, Nat.sub_add_cancel some]
      obtain ⟨_, _, high⟩ := all (((bound + width - 1) / width - 1) * width)
        (Nat.dvd_mul_left _ _) (by omega)
      exact .inr ⟨aligned, low, by dsimp only at high; omega⟩
  · rintro (rfl | ⟨aligned, low, high⟩) i multiple early
    · exact absurd early (Nat.not_lt_zero _)
    · obtain ⟨place, rfl⟩ := multiple
      have inside : place < (bound + width - 1) / width := by
        rw [Nat.lt_div_iff_mul_lt positive]
        rw [Nat.mul_comm] at early
        omega
      have room : width * place + width ≤ (bound + width - 1) / width * width := by
        rw [← mul_succ, Nat.mul_comm _ width]
        exact Nat.mul_le_mul_left _ inside
      refine ⟨Nat.dvd_add aligned (Nat.dvd_mul_right _ _), ?_, ?_⟩
      · dsimp only
        omega
      · dsimp only
        omega

end VectorAccess
