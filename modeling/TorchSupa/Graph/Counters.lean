import TorchSupa.Graph.Draws

/-!
`SUPAGeneratorState::increase` over the natural numbers: when one of the two counters wraps
around instead of advancing.
-/

namespace TorchSupa.Graph

open Outcome Allocator

section Counters

variable {world : World} {generator : GeneratorId} {increment : Nat}

/-- The seed and the counters are two `uint64_t` and a `uint32_t`. -/
structure GeneratorState.Fits (state : GeneratorState) : Prop where
  seed : state.seed < 2 ^ 64
  philox : state.philoxOffsetPerThread < 2 ^ 64
  intragraph : state.offsetIntragraph < 2 ^ 32

def nextMultiple (increment : Nat) : Nat := (increment + 3) / 4 * 4

def World.capturesCurrent (world : World) : Bool :=
  world.captureStatus world.currentStream != .none

/-- `increase` throws and changes nothing, or advances the active counter of the generator by the
increment rounded up and leaves the other one. -/
def IncreasesExactly (world : World) (generator : GeneratorId) (increment : Nat) : Prop :=
  let before := world.generators generator
  wp (increase generator increment)
    (fun _ after =>
      let now := after.generators generator
      if world.capturesCurrent then
        now.offsetIntragraph = before.offsetIntragraph + nextMultiple increment ∧
          now.philoxOffsetPerThread = before.philoxOffsetPerThread
      else
        now.philoxOffsetPerThread = before.philoxOffsetPerThread + nextMultiple increment ∧
          now.offsetIntragraph = before.offsetIntragraph)
    (fun _ after => after = world) world

def World.admitsIncrease (world : World) (generator : GeneratorId) : Bool :=
  let self := world.generators generator
  if world.capturesCurrent then self.capturing && self.offsetIntragraph % 4 == 0
  else !self.capturing && self.philoxOffsetPerThread % 4 == 0

/-- The increment, rounded up, fits the counter: outside a capture with what it has counted so
far, during one on its own. -/
def World.HasRoom (world : World) (generator : GeneratorId) (increment : Nat) : Prop :=
  if world.capturesCurrent then nextMultiple increment < 2 ^ 32
  else (world.generators generator).philoxOffsetPerThread + nextMultiple increment < 2 ^ 64

theorem capturesCurrent_iff : world.capturesCurrent = true ↔
    world.captureStatus world.currentStream ≠ .none := by
  simp [World.capturesCurrent]

theorem nextMultiple_of_small (small : nextMultiple increment < 2 ^ 64) :
    roundUp increment = nextMultiple increment := by
  unfold roundUp nextMultiple at *
  omega

theorem wp_ensure_iff {β : Type} {condition : Bool} {otherwise : Exn} {next : PUnit → GraphM β}
    {normal : β → World → Prop} {thrown : Exn → World → Prop} :
    wp (ensure condition otherwise >>= next) normal thrown world ↔
      (condition = true → wp (next ⟨⟩) normal thrown world) ∧
        (condition = false → thrown otherwise world) := by
  cases condition with
  | true => exact ⟨fun holds => ⟨fun _ => holds, fun no => by cases no⟩, fun both => both.1 rfl⟩
  | false => exact ⟨fun fails => ⟨fun no => (by cases no), fun _ => fails⟩, fun both => both.2 rfl⟩

theorem increasesExactly_eager_iff (eager : world.capturesCurrent = false) :
    IncreasesExactly world generator increment ↔ (world.admitsIncrease generator = true →
      ((world.generators generator).philoxOffsetPerThread + roundUp increment) % 2 ^ 64 =
        (world.generators generator).philoxOffsetPerThread + nextMultiple increment) := by
  have status : world.captureStatus world.currentStream = .none := by
    simpa [World.capturesCurrent] using eager
  unfold IncreasesExactly World.admitsIncrease increase
  simp only [eager, Bool.false_eq_true, if_false, Bool.and_eq_true]
  change wp (if world.captureStatus world.currentStream ≠ .none then _ else _) _ _ world ↔ _
  rw [if_neg (by simp [status]), wp_ensure_iff]
  constructor
  · intro exact_ ready
    have advanced := (wp_ensure_iff.mp (exact_.1 ready.1)).1 ready.2
    have counter := advanced.1
    simpa using counter
  · intro exact_
    refine ⟨fun idle => wp_ensure_iff.mpr ⟨fun aligned => ?_, fun _ => rfl⟩, fun _ => rfl⟩
    have counter := exact_ ⟨idle, aligned⟩
    constructor
    · simpa using counter
    · simp

theorem increasesExactly_captured_iff (captured : world.capturesCurrent = true) :
    IncreasesExactly world generator increment ↔ (world.admitsIncrease generator = true →
      (world.generators generator).offsetIntragraph ≤ wrappingSub uint32Max (roundUp increment) →
      ((world.generators generator).offsetIntragraph + roundUp increment) % 2 ^ 32 =
        (world.generators generator).offsetIntragraph + nextMultiple increment) := by
  have status := capturesCurrent_iff.mp captured
  unfold IncreasesExactly World.admitsIncrease increase
  simp only [captured, if_true, Bool.and_eq_true]
  change wp (if world.captureStatus world.currentStream ≠ .none then _ else _) _ _ world ↔ _
  rw [if_pos status, wp_ensure_iff]
  constructor
  · intro exact_ ready within
    have checked := (wp_ensure_iff.mp (exact_.1 ready.1)).1 ready.2
    have advanced := (wp_ensure_iff.mp checked).1 (decide_eq_true within)
    have counter := advanced.1
    simpa using counter
  · intro exact_
    refine ⟨fun capturing => wp_ensure_iff.mpr ⟨fun aligned => ?_, fun _ => rfl⟩, fun _ => rfl⟩
    refine wp_ensure_iff.mpr ⟨fun within => ?_, fun _ => rfl⟩
    have counter := exact_ ⟨capturing, aligned⟩ (of_decide_eq_true within)
    constructor
    · simpa using counter
    · simp

theorem wraps_eager_iff (fits : (world.generators generator).Fits) :
    ((world.generators generator).philoxOffsetPerThread + roundUp increment) % 2 ^ 64 =
        (world.generators generator).philoxOffsetPerThread + nextMultiple increment ↔
      (world.generators generator).philoxOffsetPerThread + nextMultiple increment < 2 ^ 64 := by
  have bounded := fits.philox
  constructor
  · intro same
    rw [← same]
    exact Nat.mod_lt _ (by decide)
  · intro small
    rw [nextMultiple_of_small (by omega), Nat.mod_eq_of_lt small]

theorem wraps_captured_iff (fits : (world.generators generator).Fits) (wide : increment < 2 ^ 64) :
    ((world.generators generator).offsetIntragraph ≤ wrappingSub uint32Max (roundUp increment) →
      ((world.generators generator).offsetIntragraph + roundUp increment) % 2 ^ 32 =
        (world.generators generator).offsetIntragraph + nextMultiple increment) ↔
      nextMultiple increment < 2 ^ 32 := by
  have bounded := fits.intragraph
  constructor
  · intro same
    by_contra large
    have passes : (world.generators generator).offsetIntragraph ≤
        wrappingSub uint32Max (roundUp increment) := by
      unfold wrappingSub
      by_cases word : roundUp increment ≤ uint32Max
      · rw [if_pos word]
        unfold uint32Max roundUp nextMultiple at *
        omega
      · rw [if_neg word]
        unfold uint32Max roundUp at *
        omega
    have counter := same passes
    have below := Nat.mod_lt ((world.generators generator).offsetIntragraph + roundUp increment)
      (show 0 < 2 ^ 32 by decide)
    omega
  · intro small within
    rw [nextMultiple_of_small (by omega)] at within ⊢
    unfold wrappingSub uint32Max at within
    rw [if_pos (by omega)] at within
    exact Nat.mod_eq_of_lt (by omega)

/-- `increase` is exact if and only if it throws at the state of the generator or its counter has
room for the increment. -/
theorem increase_exact_iff (world : World) (generator : GeneratorId) (increment : Nat)
    (fits : (world.generators generator).Fits) (wide : increment < 2 ^ 64) :
    IncreasesExactly world generator increment ↔
      (world.admitsIncrease generator = true → world.HasRoom generator increment) := by
  unfold World.HasRoom
  cases captured : world.capturesCurrent with
  | false =>
    rw [increasesExactly_eager_iff captured, wraps_eager_iff fits]
    simp
  | true =>
    rw [increasesExactly_captured_iff captured, wraps_captured_iff fits wide]
    simp

def capturingWorld : World where
  generators := fun _ => { capturing := true }
  defaultGenerator := fun _ => 0
  allocators := fun _ => default
  deviceCount := 1
  captures := fun stream => if stream = 7 then some { id := 0, owner := 0, generators := [0] } else none
  currentStream := 7

theorem capturingWorld_fits : (capturingWorld.generators 0).Fits := ⟨by decide, by decide, by decide⟩

theorem increase_exact_iff_sample : IncreasesExactly capturingWorld 0 6 := by
  refine (increase_exact_iff capturingWorld 0 6 capturingWorld_fits (by decide)).mpr fun _ => ?_
  rw [World.HasRoom, if_pos (by decide)]
  decide

/-- The counter of the graph does not move for an increment of 2^32. -/
theorem increase_not_exact : ¬ ∀ (world : World) (generator : GeneratorId) (increment : Nat),
    (world.generators generator).Fits → increment < 2 ^ 64 →
      IncreasesExactly world generator increment := by
  intro exact_
  have captured : capturingWorld.capturesCurrent = true := by decide
  have wraps := (increasesExactly_captured_iff captured).mp
    (exact_ capturingWorld 0 (2 ^ 32) capturingWorld_fits (by decide)) (by decide)
  have small := (wraps_captured_iff capturingWorld_fits (by decide)).mp wraps
  exact absurd small (by decide)

end Counters

end TorchSupa.Graph
