import Mathlib.Tactic.Ring

/-!
Grid-stride loops: the threads of all blocks go through the multiples of a width, each multiple
being the index of exactly one thread on exactly one of its turns.
-/

namespace GridStride

open Nat

def index (blocks threads width block thread turn : Nat) : Nat :=
  (threads * block + thread) * width + turn * (threads * blocks * width)

variable {blocks threads width block thread turn : Nat}

theorem index_eq : index blocks threads width block thread turn =
      width * (threads * blocks * turn + (threads * block + thread)) := by
  unfold index
  ring

theorem width_dvd_index : width ∣ index blocks threads width block thread turn := by
  rw [index_eq]
  exact dvd_mul_right _ _

theorem thread_lt (one : block < blocks) (two : thread < threads) :
    threads * block + thread < threads * blocks := by
  have room : threads * (block + 1) ≤ threads * blocks := mul_le_mul_left _ one
  rw [mul_add, mul_one] at room
  omega

theorem index_inj {other peer later : Nat} (positive : 0 < width) (one : block < blocks)
    (two : thread < threads) (also : other < blocks) (too : peer < threads)
    (same : index blocks threads width block thread turn =
      index blocks threads width other peer later) :
    block = other ∧ thread = peer ∧ turn = later := by
  rw [index_eq, index_eq] at same
  have places := Nat.eq_of_mul_eq_mul_left positive same
  have here := thread_lt one two
  have there := thread_lt also too
  have lanes := congrArg (· % (threads * blocks)) places
  have turns := congrArg (· / (threads * blocks)) places
  have room : 0 < threads * blocks := Nat.zero_lt_of_lt here
  simp only [Nat.mul_add_mod, Nat.mod_eq_of_lt here, Nat.mod_eq_of_lt there] at lanes
  simp only [Nat.mul_add_div room, Nat.div_eq_of_lt here, Nat.div_eq_of_lt there] at turns
  have many : 0 < threads := Nat.zero_lt_of_lt two
  have numbers := congrArg (· % threads) lanes
  have positions := congrArg (· / threads) lanes
  simp only [Nat.mul_add_mod, Nat.mod_eq_of_lt two, Nat.mod_eq_of_lt too] at numbers
  simp only [Nat.mul_add_div many, Nat.div_eq_of_lt two, Nat.div_eq_of_lt too] at positions
  exact ⟨positions, numbers, turns⟩

theorem exists_index {position : Nat} (blocky : 0 < blocks) (many : 0 < threads)
    (multiple : width ∣ position) :
    ∃ block thread turn, block < blocks ∧ thread < threads ∧
      index blocks threads width block thread turn = position := by
  obtain ⟨place, rfl⟩ := multiple
  have room : 0 < threads * blocks := mul_pos many blocky
  refine ⟨place % (threads * blocks) / threads, place % (threads * blocks) % threads,
    place / (threads * blocks), ?_, Nat.mod_lt _ many, ?_⟩
  · exact Nat.div_lt_of_lt_mul (Nat.mod_lt _ room)
  · rw [index_eq, Nat.div_add_mod, Nat.div_add_mod]

theorem turn_lt_of_index_lt {later : Nat} (before : index blocks threads width block thread turn <
      index blocks threads width block thread later) : turn < later := by
  by_contra behind
  have stride := Nat.mul_le_mul_right (threads * blocks * width) (Nat.le_of_not_lt behind)
  unfold index at before
  omega

theorem end_le_of_lt {first bound : Nat} (one : width ∣ first) (two : width ∣ bound)
    (before : first < bound) : first + width ≤ bound := by
  obtain ⟨place, rfl⟩ := one
  obtain ⟨limit, rfl⟩ := two
  have next : place + 1 ≤ limit := Nat.lt_of_mul_lt_mul_left before
  calc width * place + width = width * (place + 1) := by ring
    _ ≤ width * limit := mul_le_mul_left _ next

theorem eq_of_overlap {first second element : Nat} (one : width ∣ first) (two : width ∣ second)
    (low : first ≤ element) (high : element < first + width) (below : second ≤ element)
    (above : element < second + width) : first = second := by
  obtain ⟨place, rfl⟩ := one
  obtain ⟨other, rfl⟩ := two
  have left : element / width = place := Nat.div_eq_of_lt_le (by rwa [Nat.mul_comm])
    (by rwa [Nat.add_mul, Nat.one_mul, Nat.mul_comm place])
  have right : element / width = other := Nat.div_eq_of_lt_le (by rwa [Nat.mul_comm])
    (by rwa [Nat.add_mul, Nat.one_mul, Nat.mul_comm other])
  rw [← left, right]

open List

theorem flatMap_blocks (perBlock blocks : Nat) : ((List.range blocks).flatMap fun block =>
      (List.range perBlock).map fun group => block * perBlock + group) =
      List.range (blocks * perBlock) := by
  induction blocks with
  | zero => rw [zero_mul]; rfl
  | succ blocks ih =>
    rw [range_succ, flatMap_append, ih, succ_mul, range_add]
    exact congrArg _ (append_nil _)

end GridStride
