import Mathlib.Algebra.Order.Ring.Nat

/-!
Unsigned integers in memory, lowest byte first.
-/

namespace Bytes

def littleEndian : List UInt8 → Nat
  | [] => 0
  | byte :: rest => byte.toNat + 256 * littleEndian rest

def bytesOf : Nat → Nat → List UInt8
  | 0, _ => []
  | count + 1, value => UInt8.ofNat value :: bytesOf count (value / 256)

@[simp] theorem length_bytesOf (count value : Nat) : (bytesOf count value).length = count := by
  induction count generalizing value with
  | zero => rfl
  | succ count ih => simp [bytesOf, ih]

theorem littleEndian_lt (bytes : List UInt8) : littleEndian bytes < 256 ^ bytes.length := by
  induction bytes with
  | nil => simp [littleEndian]
  | cons byte rest ih =>
    have small := byte.toNat_lt
    simp only [littleEndian, List.length_cons, pow_succ]
    omega

theorem bytesOf_littleEndian (bytes : List UInt8) :
    bytesOf bytes.length (littleEndian bytes) = bytes := by
  induction bytes with
  | nil => rfl
  | cons byte rest ih =>
    have small := byte.toNat_lt
    have low : UInt8.ofNat (byte.toNat + 256 * littleEndian rest) = byte := by
      apply UInt8.toNat_inj.mp
      simp only [UInt8.toNat_ofNat']
      omega
    have high : (byte.toNat + 256 * littleEndian rest) / 256 = littleEndian rest := by omega
    simp only [littleEndian, List.length_cons, bytesOf, low, high, ih]

theorem littleEndian_bytesOf (count value : Nat) :
    littleEndian (bytesOf count value) = value % 256 ^ count := by
  induction count generalizing value with
  | zero => simp [bytesOf, littleEndian, Nat.mod_one]
  | succ count ih =>
    simp only [bytesOf, littleEndian, ih, UInt8.toNat_ofNat']
    have split : value % (256 * 256 ^ count) = value % 256 + 256 * (value / 256 % 256 ^ count) :=
      Nat.mod_mul
    exact split.symm.trans (congrArg (value % ·) Nat.pow_succ'.symm)

theorem bytesOf_injective {count first second : Nat} (isFirst : first < 256 ^ count)
    (isSecond : second < 256 ^ count) (same : bytesOf count first = bytesOf count second) :
    first = second := by
  have values := congrArg littleEndian same
  rwa [littleEndian_bytesOf, littleEndian_bytesOf, Nat.mod_eq_of_lt isFirst,
    Nat.mod_eq_of_lt isSecond] at values

end Bytes
