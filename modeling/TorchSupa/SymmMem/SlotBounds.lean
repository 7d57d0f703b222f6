import TorchSupa.SymmMem.Barriers
import TorchSupa.Logic.MachineIntegers

/-!
Where the words of the signals lie. `check_channel` multiplies the words of a pad by the world size
where it would have to divide them.
-/

namespace TorchSupa.SymmMem

open MachineIntegers Nat

def Round.word (group : Group) (round : Round) (channel rank : Nat) : Int :=
  match round with
  | .barrier => int32 (group.worldSize * channel : Nat) + rank
  | .syncRemoteBlocks .. => group.slot channel rank

structure Round.SlotsFit (group : Group) (round : Round) (channel : Nat) : Prop where
  inside : ∀ rank < group.worldSize, 0 ≤ round.word group channel rank ∧
    4 * (round.word group channel rank + 1) ≤ group.signalPadSize
  own : ∀ rank < group.worldSize, ∀ other ≤ channel, ∀ source < group.worldSize,
    round.word group channel rank = round.word group other source → channel = other ∧ rank = source

section Bounds

variable {group : Group} {round : Round} {channel rank : Nat}

theorem word_eq_slot (small : round = .barrier → group.worldSize * channel < 2147483648) (rank : Nat) :
    round.word group channel rank = group.slot channel rank := by
  cases round with
  | barrier =>
    have fits := small rfl
    simp only [Round.word, Group.slot]
    rw [int32_of_fits (by omega) (by omega)]
    omega
  | syncRemoteBlocks _ _ _ _ _ => rfl

theorem slots_inside_iff (positive : 0 < group.worldSize) :
    (∀ rank < group.worldSize, 4 * (group.slot channel rank + 1) ≤ group.signalPadSize) ↔
      channel < group.signalPadSize / 4 / group.worldSize := by
  rw [lt_iff_add_one_le, le_div_iff_mul_le positive, le_div_iff_mul_le (by omega)]
  have spread : (channel + 1) * group.worldSize = group.worldSize * channel + group.worldSize := by
    rw [add_mul, mul_comm, one_mul]
  unfold Group.slot
  rw [spread]
  constructor
  · intro inside
    have last := inside (group.worldSize - 1) (by omega)
    omega
  · intro fits rank below
    omega

theorem not_slotsFit_of_wrap (positive : 0 < group.worldSize)
    (large : 2147483648 ≤ group.worldSize * channel) : ¬Round.SlotsFit group .barrier channel := by
  intro fits
  have inside := (fits.inside 0 positive).1
  obtain ⟨index, same⟩ := Int.eq_ofNat_of_zero_le inside
  have upper := (int32_range (group.worldSize * channel : Nat)).2
  have within : index < 2147483648 := by
    simp only [Round.word] at same
    omega
  have rest := Nat.div_add_mod index group.worldSize
  have source := Nat.mod_lt index positive
  have earlier : index / group.worldSize < channel := by
    apply Nat.div_lt_of_lt_mul
    omega
  have again : Round.word group .barrier (index / group.worldSize) (index % group.worldSize) =
      index := by
    rw [word_eq_slot (fun _ => by omega), Group.slot, rest]
  have clash := (fits.own 0 positive _ (Nat.le_of_lt earlier) _ source (same.trans again.symm)).1
  omega

/-- The words of an accepted channel lie in the pad and are its own if and only if the channel is
below the words of the pad divided by the world size, and the product of the kernel fits in an
`int`. -/
theorem slotsFit_iff (group : Group) (round : Round) (positive : 0 < group.worldSize) :
    ∀ channel, round.accepts group channel = true → (round.SlotsFit group channel ↔
        channel < group.signalPadSize / 4 / group.worldSize ∧
          (round = .barrier → group.worldSize * channel < 2147483648)) := by
  intro channel _
  constructor
  · intro fits
    have product : round = .barrier → group.worldSize * channel < 2147483648 := by
      rintro rfl
      by_contra large
      exact not_slotsFit_of_wrap positive (not_lt.mp large) fits
    refine ⟨(slots_inside_iff positive).mp ?_, product⟩
    intro rank below
    have inside := (fits.inside rank below).2
    rw [word_eq_slot product] at inside
    omega
  · rintro ⟨within, product⟩
    refine ⟨?_, ?_⟩
    · intro rank below
      have inside := (slots_inside_iff positive).mpr within rank below
      rw [word_eq_slot product]
      omega
    · intro rank below other le source also same
      have fits : round = .barrier → group.worldSize * other < 2147483648 := fun here =>
        lt_of_le_of_lt (mul_le_mul_left _ le) (product here)
      rw [word_eq_slot product, word_eq_slot fits] at same
      exact slot_inj below also (Int.ofNat.inj same)

theorem slotsFit_iff_sample : Round.SlotsFit (groupOf 8 32) .barrier 63 :=
  (slotsFit_iff (groupOf 8 32) .barrier (by decide) 63 (by decide)).mpr
    ⟨by decide, fun _ => by decide⟩

/-- With eight ranks and a pad of 512 words, channel 64 is accepted and begins behind the pad. -/
theorem accepted_not_slotsFit : Round.accepts (groupOf 8 32) .barrier 64 = true ∧
    ¬Round.SlotsFit (groupOf 8 32) .barrier 64 := by
  refine ⟨by decide, fun fits => ?_⟩
  have inside := (fits.inside 0 (by decide)).2
  exact absurd inside (by decide)

end Bounds

end TorchSupa.SymmMem
