import Mathlib.Tactic.Ring

/-!
Integers as a machine type keeps them: 32 bits with a sign, and 64 bits without one.
-/

namespace MachineIntegers

def int32 (value : Int) : Int := (value + 2147483648) % 4294967296 - 2147483648

def uint64 (value : Int) : Int := value % 18446744073709551616

variable {value : Int}

theorem int32_of_fits (lower : -2147483648 ≤ value) (upper : value < 2147483648) :
    int32 value = value := by
  unfold int32
  omega

theorem int32_range (value : Int) : -2147483648 ≤ int32 value ∧ int32 value < 2147483648 := by
  unfold int32
  omega

theorem int32_spec (value : Int) : ∃ turns, value = int32 value + 4294967296 * turns := by
  refine ⟨(value + 2147483648) / 4294967296, ?_⟩
  unfold int32
  omega

theorem int32_mul (value factor : Int) : int32 (int32 value * factor) = int32 (value * factor) := by
  obtain ⟨turns, same⟩ := int32_spec value
  generalize int32 value = kept at same
  unfold int32
  have spread : value * factor = kept * factor + 4294967296 * (turns * factor) := by
    rw [same]
    ring
  rw [spread]
  omega

theorem uint64_of_fits (lower : 0 ≤ value) (upper : value < 18446744073709551616) :
    uint64 value = value := by
  unfold uint64
  omega

theorem uint64_range (value : Int) : 0 ≤ uint64 value ∧ uint64 value < 18446744073709551616 := by
  unfold uint64
  omega

theorem uint64_spec (value : Int) :
    ∃ turns, value = uint64 value + 18446744073709551616 * turns := by
  refine ⟨value / 18446744073709551616, ?_⟩
  unfold uint64
  omega

theorem uint64_mul (value factor : Int) :
    uint64 (uint64 value * factor) = uint64 (value * factor) := by
  unfold uint64
  rw [Int.mul_emod, Int.emod_emod_of_dvd _ (Int.dvd_refl _), ← Int.mul_emod]

end MachineIntegers
