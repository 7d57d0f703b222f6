import Mathlib.Data.Int.Log
import Mathlib.Data.Rat.Floor
import Mathlib.Data.List.TakeWhile
import Mathlib.Tactic.Positivity

/-!
The numbers that `std::stoi` and `std::stod` read off the front of a text, in the "C" locale. Both
skip white space, take a sign, and say nothing about what follows the number.
-/

namespace Numerals

open List

inductive Failure
  | invalidArgument
  | outOfRange
deriving DecidableEq, Repr, Inhabited

def isSpace (character : Char) : Bool :=
  character ∈ [' ', '\t', '\n', '\x0b', '\x0c', '\r']

def isHexDigit (character : Char) : Bool :=
  character.isDigit || ('a' ≤ character.toLower && character.toLower ≤ 'f')

def digitValue (character : Char) : Nat :=
  if character.isDigit then character.toNat - '0'.toNat
  else character.toLower.toNat - 'a'.toNat + 10

def digitsValue (base : Nat) (digits : List Char) : Nat :=
  digits.foldl (fun value digit => base * value + digitValue digit) 0

def sign : List Char → Bool × List Char
  | '+' :: text => (false, text)
  | '-' :: text => (true, text)
  | text => (false, text)

def signed {R : Type} [Neg R] (negative : Bool) (value : R) : R :=
  if negative then -value else value

def stoi (text : List Char) : Except Failure Int :=
  let (negative, text) := sign (text.dropWhile isSpace)
  let digits := text.takeWhile Char.isDigit
  if digits = [] then throw .invalidArgument
  else
    let value : Int := signed negative (digitsValue 10 digits : Int)
    if -2 ^ 31 ≤ value ∧ value < 2 ^ 31 then pure value else throw .outOfRange

inductive Double
  | finite (value : ℚ)
  | infinite (negative : Bool)
  | nan
deriving Inhabited

def roundHalfEven (value : ℚ) : Int :=
  let below := ⌊value⌋
  if value - below < 1 / 2 then below
  else if 1 / 2 < value - below then below + 1
  else if below % 2 = 0 then below else below + 1

def lastPlace (value : ℚ) : Int := max (-1074) (Int.log 2 value - 52)

def binary64 (value : ℚ) : ℚ :=
  if value = 0 then 0
  else roundHalfEven (value / 2 ^ lastPlace value) * 2 ^ lastPlace value

/-- The digits of a number with or without a point, how many of them follow it, and the rest of
the text. -/
def mantissa (isDigit : Char → Bool) (text : List Char) : List Char × Nat × List Char :=
  let whole := text.takeWhile isDigit
  match text.dropWhile isDigit with
  | '.' :: rest =>
    (whole ++ rest.takeWhile isDigit, (rest.takeWhile isDigit).length, rest.dropWhile isDigit)
  | rest => (whole, 0, rest)

def exponent (marker : Char) : List Char → Int
  | [] => 0
  | character :: text =>
    if character.toLower = marker then
      let (negative, text) := sign text
      signed negative (digitsValue 10 (text.takeWhile Char.isDigit) : Int)
    else 0

def hexadecimal : List Char → Option (List Char)
  | zero :: marker :: text =>
    if zero = '0' ∧ marker.toLower = 'x' ∧ (mantissa isHexDigit text).1 ≠ [] then some text
    else none
  | _ => none

def strtod (text : List Char) : Option (Bool × Double) :=
  let (negative, text) := sign (text.dropWhile isSpace)
  let lower := text.map Char.toLower
  if lower.take 3 = ['i', 'n', 'f'] then some (negative, .infinite negative)
  else if lower.take 3 = ['n', 'a', 'n'] then some (negative, .nan)
  else
    match hexadecimal text with
    | some text =>
      let (digits, places, rest) := mantissa isHexDigit text
      some (negative, .finite
        (digitsValue 16 digits / 16 ^ places * 2 ^ exponent 'p' rest))
    | none =>
      let (digits, places, rest) := mantissa Char.isDigit text
      if digits = [] then none
      else some (negative, .finite
        (digitsValue 10 digits / 10 ^ places * 10 ^ exponent 'e' rest))

def stod (text : List Char) : Except Failure Double :=
  match strtod text with
  | none => throw .invalidArgument
  | some (negative, .finite value) =>
    let nearest := binary64 value
    if 2 ^ 1024 ≤ nearest ∨ nearest < 1 / 2 ^ 1022 ∧ nearest ≠ value then throw .outOfRange
    else pure (.finite (signed negative nearest))
  | some (_, special) => pure special

section Integers

variable {text : List Char}

theorem dropWhile_eq_self {p : Char → Bool} (first : ∀ character, text.head? = some character →
    p character = false) : text.dropWhile p = text := by
  cases text with
  | nil => rfl
  | cons character rest => rw [dropWhile_cons_of_neg (by simp [first character rfl])]

section

variable {character : Char} (digit : character.isDigit = true)
include digit

theorem not_isSpace_of_isDigit : isSpace character = false := by
  by_contra space
  simp only [isSpace, mem_cons, not_mem_nil, or_false, decide_eq_false_iff_not, not_not] at space
  rcases space with rfl | rfl | rfl | rfl | rfl | rfl <;> revert digit <;> decide

theorem toLower_of_isDigit : character.toLower = character := by
  unfold Char.toLower
  rw [dif_neg]
  rintro ⟨upper, _⟩
  have below : character.val ≤ 57 := by
    simp only [Char.isDigit, Bool.and_eq_true, decide_eq_true_eq] at digit
    exact digit.2
  exact absurd (UInt32.le_trans upper below) (by decide)

theorem sign_of_digit {rest : List Char} :
    sign (character :: rest) = (false, character :: rest) := by
  have plus : character ≠ '+' := by rintro rfl; revert digit; decide
  have minus : character ≠ '-' := by rintro rfl; revert digit; decide
  simp [sign, plus, minus]

end

theorem stoi_digits (some_ : text ≠ []) (digits : text.all Char.isDigit = true) :
    stoi text = if digitsValue 10 text < 2 ^ 31 then .ok (digitsValue 10 text : Int)
      else .error .outOfRange := by
  cases text with
  | nil => exact absurd rfl some_
  | cons character rest =>
    have first : character.isDigit = true := by simp_all
    have all : (character :: rest).takeWhile Char.isDigit = character :: rest :=
      takeWhile_eq_self_iff.mpr (by simpa using digits)
    have kept : (character :: rest).dropWhile isSpace = character :: rest :=
      dropWhile_eq_self (by simp [not_isSpace_of_isDigit first])
    simp only [stoi, kept, sign_of_digit first, all, signed, Bool.false_eq_true, if_false,
      cons_ne_nil]
    by_cases small : digitsValue 10 (character :: rest) < 2 ^ 31
    · rw [if_pos small, if_pos (by omega)]
      rfl
    · rw [if_neg small, if_neg (by omega)]
      rfl

end Integers

def decimal (text : List Char) : Option ℚ :=
  let (digits, places, rest) := mantissa Char.isDigit text
  if digits ≠ [] ∧ rest = [] then some (digitsValue 10 digits / 10 ^ places) else none

section Decimals

variable {text : List Char} {value : ℚ}

theorem mantissa_characters {isDigit : Char → Bool} (whole : (mantissa isDigit text).2.2 = []) :
    ∀ character ∈ text, isDigit character = true ∨ character = '.' := by
  intro character member
  unfold mantissa at whole
  rw [← takeWhile_append_dropWhile (p := isDigit) (l := text)] at member
  rcases mem_append.mp member with before | behind
  · exact .inl (mem_takeWhile_imp before)
  · cases tail : text.dropWhile isDigit with
    | nil => simp [tail] at behind
    | cons point rest =>
      rw [tail] at behind whole
      by_cases dot : point = '.'
      · subst dot
        rcases mem_cons.mp behind with point | fraction
        · exact .inr point
        · exact .inl (dropWhile_eq_nil_iff.mp whole character fraction)
      · simp [dot] at whole

variable (plain : decimal text = some value)
include plain

theorem decimal_whole :
    (mantissa Char.isDigit text).1 ≠ [] ∧ (mantissa Char.isDigit text).2.2 = [] ∧
      value = digitsValue 10 (mantissa Char.isDigit text).1 /
        10 ^ (mantissa Char.isDigit text).2.1 := by
  simp only [decimal] at plain
  split at plain
  · next plainly => exact ⟨plainly.1, plainly.2, (Option.some.inj plain).symm⟩
  · cases plain

theorem strtod_decimal : strtod text = some (false, .finite value) := by
  obtain ⟨some_, ended, rfl⟩ := decimal_whole plain
  have characters := mantissa_characters ended
  cases text with
  | nil => simp [decimal, mantissa] at plain
  | cons character rest =>
    have first := characters character (.head _)
    have notSpace : isSpace character = false := by
      rcases first with digit | rfl
      · exact not_isSpace_of_isDigit digit
      · decide
    have kept : (character :: rest).dropWhile isSpace = character :: rest :=
      dropWhile_eq_self (by simp [notSpace])
    have unsigned : sign (character :: rest) = (false, character :: rest) := by
      rcases first with digit | rfl
      · exact sign_of_digit digit
      · rfl
    have notLetter : ∀ other ∈ character :: rest, ∀ letter ∈ ['i', 'n', 'x'],
        other.toLower ≠ letter := by
      intro other member letter isLetter
      rcases characters other member with digit | rfl
      · rw [toLower_of_isDigit digit]
        rintro rfl
        simp only [mem_cons, not_mem_nil, or_false] at isLetter
        rcases isLetter with rfl | rfl | rfl <;> revert digit <;> decide
      · simp only [mem_cons, not_mem_nil, or_false] at isLetter
        rcases isLetter with rfl | rfl | rfl <;> decide
    have decimal_ : hexadecimal (character :: rest) = none := by
      cases rest with
      | nil => rfl
      | cons marker rest =>
        have notMarker := notLetter marker (by simp) 'x' (by simp)
        simp [hexadecimal, notMarker]
    have notInf : ((character :: rest).map Char.toLower).take 3 ≠ ['i', 'n', 'f'] := by
      have := notLetter character (by simp) 'i' (by simp)
      simp [this]
    have notNan : ((character :: rest).map Char.toLower).take 3 ≠ ['n', 'a', 'n'] := by
      have := notLetter character (by simp) 'n' (by simp)
      simp [this]
    simp only [strtod, kept, unsigned, if_neg notInf, if_neg notNan, decimal_, if_neg some_,
      ended, exponent, zpow_zero, mul_one]

theorem decimal_nonneg : 0 ≤ value := by
  obtain ⟨_, _, rfl⟩ := decimal_whole plain
  positivity

end Decimals

section Rounding

variable {value : ℚ}

theorem floor_le_roundHalfEven (value : ℚ) : ⌊value⌋ ≤ roundHalfEven value := by
  unfold roundHalfEven
  dsimp only
  split_ifs <;> omega

theorem one_le_binary64 (large : 1 ≤ value) : 1 ≤ binary64 value := by
  have positive : 0 < value := by linarith
  have log : (2 : ℚ) ^ Int.log 2 value ≤ value := by
    exact_mod_cast Int.zpow_log_le_self (b := 2) (by decide) positive
  have whole : 0 ≤ Int.log 2 value := by
    have := Int.log_one_right (R := ℚ) 2
    have := Int.log_mono_right (b := 2) (by norm_num : (0 : ℚ) < 1) large
    omega
  have place : lastPlace value = Int.log 2 value - 52 := by
    unfold lastPlace
    omega
  have scale : (0 : ℚ) < 2 ^ lastPlace value := zpow_pos (by norm_num) _
  have split : (2 : ℚ) ^ (52 : ℕ) * 2 ^ lastPlace value = 2 ^ Int.log 2 value := by
    rw [place, ← zpow_natCast, ← zpow_add₀ (by norm_num)]
    congr 1
    omega
  have rounded : 2 ^ 52 ≤ roundHalfEven (value / 2 ^ lastPlace value) := by
    refine le_trans (Int.le_floor.mpr ?_) (floor_le_roundHalfEven _)
    rw [le_div_iff₀ scale]
    push_cast
    exact split.trans_le log
  have power : (1 : ℚ) ≤ 2 ^ Int.log 2 value := one_le_zpow₀ (by norm_num) whole
  rw [binary64, if_neg positive.ne']
  calc (1 : ℚ) ≤ 2 ^ Int.log 2 value := power
    _ = ((2 ^ 52 : ℤ) : ℚ) * 2 ^ lastPlace value := by rw [← split]; push_cast; rfl
    _ ≤ roundHalfEven (value / 2 ^ lastPlace value) * 2 ^ lastPlace value := by
      exact mul_le_mul_of_nonneg_right (by exact_mod_cast rounded) scale.le

end Rounding

end Numerals
