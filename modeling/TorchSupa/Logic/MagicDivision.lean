import Mathlib.Tactic.Ring

/-!
Division of numbers of `width` bits by a constant with a multiplication and a shift: the product with
a magic number that stands for `2 ^ width * (2 ^ shift / divisor - 1)`, rounded up.
-/

namespace MagicDivision

def magic (width shift divisor : Nat) : Nat := 2 ^ width * (2 ^ shift - divisor) / divisor + 1

variable {width shift divisor n : Nat}

theorem magic_add (some : 0 < divisor) (covers : divisor ≤ 2 ^ shift) :
    magic width shift divisor + 2 ^ width = 2 ^ width * 2 ^ shift / divisor + 1 := by
  unfold magic
  have parts : 2 ^ width * 2 ^ shift = 2 ^ width * (2 ^ shift - divisor) + 2 ^ width * divisor := by
    rw [← Nat.mul_add, Nat.sub_add_cancel covers]
  rw [parts, Nat.add_mul_div_right _ _ some]
  omega

theorem mul_reciprocal {scale : Nat} (some : 0 < divisor) (fine : n * divisor < scale) :
    n * (scale / divisor + 1) / scale = n / divisor := by
  have quotient := Nat.div_add_mod n divisor
  have rest := Nat.mod_lt n some
  have reciprocal := Nat.div_add_mod scale divisor
  have left := Nat.mod_lt scale some
  generalize n / divisor = q at quotient ⊢
  generalize n % divisor = r at quotient rest
  generalize scale / divisor = inverse at reciprocal ⊢
  generalize scale % divisor = remainder at reciprocal left
  have below : q * scale ≤ n * (inverse + 1) := by
    calc q * scale ≤ q * (divisor * (inverse + 1)) :=
          Nat.mul_le_mul_left q (by rw [Nat.mul_succ]; omega)
      _ = divisor * q * (inverse + 1) := by ring
      _ ≤ n * (inverse + 1) := Nat.mul_le_mul_right _ (by omega)
  have above : n * (inverse + 1) < (q + 1) * scale := by
    have scaled : divisor * (n * (inverse + 1)) < divisor * ((q + 1) * scale) := by
      calc divisor * (n * (inverse + 1)) = n * (divisor * inverse) + n * divisor := by ring
        _ ≤ n * scale + n * divisor := Nat.add_le_add_right (Nat.mul_le_mul_left n (by omega)) _
        _ < n * scale + scale := Nat.add_lt_add_left fine _
        _ = (n + 1) * scale := by ring
        _ ≤ divisor * (q + 1) * scale := Nat.mul_le_mul_right _ (by rw [Nat.mul_succ]; omega)
        _ = divisor * ((q + 1) * scale) := by ring
    exact Nat.lt_of_mul_lt_mul_left scaled
  exact Nat.div_eq_of_lt_le below above

theorem quotient_eq (some : 0 < divisor) (covers : divisor ≤ 2 ^ shift) (small : n < 2 ^ width) :
    (n * magic width shift divisor / 2 ^ width + n) / 2 ^ shift = n / divisor := by
  have high : n * magic width shift divisor / 2 ^ width + n =
      n * (2 ^ width * 2 ^ shift / divisor + 1) / 2 ^ width := by
    rw [← magic_add some covers, Nat.mul_add, Nat.add_mul_div_right _ _ (Nat.two_pow_pos width)]
  rw [high, Nat.div_div_eq_div_mul]
  refine mul_reciprocal some ?_
  calc n * divisor < 2 ^ width * divisor := Nat.mul_lt_mul_of_pos_right small some
    _ ≤ 2 ^ width * 2 ^ shift := Nat.mul_le_mul_left _ covers

theorem magic_lt (some : 0 < divisor) (least : 2 ^ shift < 2 * divisor)
    (small : divisor < 2 ^ width) : magic width shift divisor < 2 ^ width := by
  have excess : 2 ^ shift - divisor + 1 ≤ divisor := by omega
  have scaled := Nat.mul_le_mul_left (2 ^ width) excess
  have fraction : 2 ^ width * (2 ^ shift - divisor) / divisor < 2 ^ width - 1 := by
    rw [Nat.div_lt_iff_lt_mul some, Nat.sub_mul, Nat.one_mul]
    rw [Nat.mul_succ] at scaled
    omega
  unfold magic
  omega

theorem sum_lt (fits : magic width shift divisor < 2 ^ width) (half : n + n < 2 ^ width) :
    n * magic width shift divisor / 2 ^ width + n < 2 ^ width := by
  have most : n * magic width shift divisor / 2 ^ width ≤ n := by
    refine Nat.div_le_of_le_mul ?_
    rw [Nat.mul_comm]
    exact Nat.mul_le_mul_right n fits.le
  omega

end MagicDivision
