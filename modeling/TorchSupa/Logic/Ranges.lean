import Mathlib.Data.Set.BooleanAlgebra
import Mathlib.Order.CompletePartialOrder

/-!
Half-open ranges of natural numbers, laid out below a bound that moves on as ranges are
added. A range is its start and its length.
-/

namespace Ranges

def offsets (range : Nat × Nat) : Set Nat := Set.Ico range.1 (range.1 + range.2)

/-- The ranges lie below the bound, start at multiples of `unit` and do not meet. -/
structure Laid (unit : Nat) (ranges : List (Nat × Nat)) (bound : Nat) : Prop where
  apart : ranges.Pairwise fun a b => a.1 + a.2 ≤ b.1 ∨ b.1 + b.2 ≤ a.1
  aligned : ∀ range ∈ ranges, range.1 % unit = 0
  within : ∀ range ∈ ranges, range.1 + range.2 ≤ bound

variable {unit : Nat} {ranges others : List (Nat × Nat)} {bound : Nat}

theorem Laid.nil : Laid unit [] bound where
  apart := List.Pairwise.nil
  aligned := by simp
  within := by simp

theorem Laid.mono {further : Nat} (laid : Laid unit ranges bound) (later : bound ≤ further) :
    Laid unit ranges further where
  apart := laid.apart
  aligned := laid.aligned
  within range member := le_trans (laid.within range member) later

open List

variable (laid : Laid unit ranges bound)
include laid

theorem Laid.append {width : Nat} (block : Laid unit others width) (aligned : bound % unit = 0) :
    Laid unit (others.map (fun range => (bound + range.1, range.2)) ++ ranges) (bound + width) where
  apart := by
    rw [pairwise_append]
    refine ⟨?_, laid.apart, ?_⟩
    · rw [pairwise_map]
      refine block.apart.imp ?_
      intro a b apart
      omega
    · intro a moved b member
      obtain ⟨range, _, rfl⟩ := mem_map.mp moved
      have below := laid.within b member
      omega
  aligned := by
    intro range member
    rcases mem_append.mp member with moved | old
    · obtain ⟨original, inBlock, rfl⟩ := mem_map.mp moved
      have start := block.aligned original inBlock
      simp [Nat.add_mod, aligned, start]
    · exact laid.aligned range old
  within := by
    intro range member
    rcases mem_append.mp member with moved | old
    · obtain ⟨original, inBlock, rfl⟩ := mem_map.mp moved
      have within := block.within original inBlock
      omega
    · have within := laid.within range old
      omega

theorem Laid.cons (aligned : bound % unit = 0) {length width : Nat}
    (fits : length ≤ width) : Laid unit ((bound, length) :: ranges) (bound + width) := by
  have single : Laid unit [(0, length)] width := {
    apart := pairwise_singleton _ _
    aligned := by simp
    within := by simpa using fits }
  simpa using laid.append single aligned

theorem Laid.disjoint : ranges.Pairwise fun a b => Disjoint (offsets a) (offsets b) := by
  refine laid.apart.imp ?_
  intro a b apart
  rw [Set.disjoint_left]
  intro offset inA inB
  simp only [offsets, Set.mem_Ico] at inA inB
  omega

end Ranges
