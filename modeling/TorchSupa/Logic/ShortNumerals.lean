import Mathlib.Data.List.Chain
import Mathlib.Tactic.Linarith

/-!
Lists of numbers of one or two digits, written one after the other without leading zeros and
without separators: which lists can be told from the digits and their length.
-/

namespace ShortNumerals

open List Nat

variable {base : Nat}

def digits (base value : Nat) : List Nat :=
  if value < base then [value] else [value / base, value % base]

def spell (base : Nat) (values : List Nat) : List Nat := values.flatMap (digits base)

def longs (base : Nat) (values : List Nat) : Nat := values.countP (base ≤ ·)

/-- A second digit does not run into the number on the right, nor a first digit that stands
alone. -/
def Apart (base left right : Nat) : Prop :=
  (right < base → left % base = 0) ∧ (left < base → left = 0)

instance (base left right : Nat) : Decidable (Apart base left right) :=
  inferInstanceAs (Decidable (_ ∧ _))

def Unambiguous (base : Nat) (values : List Nat) : Prop :=
  (∀ value ∈ values, value < base) ∨ values.IsChain (Apart base)

variable {value : Nat} {values : List Nat}

theorem digits_of_short (short : value < base) : digits base value = [value] := if_pos short

theorem digits_of_long (long : base ≤ value) : digits base value = [value / base, value % base] :=
  if_neg (by omega)

theorem digits_joined {first second : Nat} (positive : 0 < first) (below : second < base) :
    digits base (first * base + second) = [first, second] := by
  have long : base ≤ first * base + second := by nlinarith
  rw [digits_of_long long, mul_comm first base, mul_add_div (by omega),
    mul_add_mod, div_eq_of_lt below, mod_eq_of_lt below, add_zero]

@[simp] theorem spell_nil : spell base [] = [] := rfl

@[simp] theorem spell_cons (value : Nat) (rest : List Nat) :
    spell base (value :: rest) = digits base value ++ spell base rest := by
  simp [spell]

@[simp] theorem spell_append (front rest : List Nat) :
    spell base (front ++ rest) = spell base front ++ spell base rest := by
  simp [spell]

theorem longs_cons (value : Nat) (rest : List Nat) :
    longs base (value :: rest) = longs base rest + if base ≤ value then 1 else 0 := by
  simp [longs, countP_cons]

theorem length_spell (values : List Nat) :
    (spell base values).length = values.length + longs base values := by
  induction values with
  | nil => rfl
  | cons value rest ih =>
    rw [spell_cons, length_append, ih, longs_cons, length_cons]
    by_cases short : value < base
    · rw [digits_of_short short, if_neg (by omega)]
      simp
      omega
    · rw [digits_of_long (by omega), if_pos (by omega)]
      simp
      omega

theorem spell_of_short (short : ∀ value ∈ values, value < base) : spell base values = values := by
  induction values with
  | nil => rfl
  | cons value rest ih =>
    obtain ⟨first, others⟩ := forall_mem_cons.mp short
    rw [spell_cons, digits_of_short first, ih others]
    rfl

theorem first_of_spell {digit : Nat} {text other : List Nat}
    (spells : spell base other = digit :: text) :
    (∃ rest, other = digit :: rest ∧ digit < base ∧ spell base rest = text) ∨
      ∃ value rest, other = value :: rest ∧ base ≤ value ∧ value / base = digit ∧
        text = value % base :: spell base rest := by
  cases other with
  | nil => cases spells
  | cons value rest =>
    rw [spell_cons] at spells
    by_cases short : value < base
    · rw [digits_of_short short] at spells
      obtain ⟨rfl, same⟩ := cons.inj spells
      exact .inl ⟨rest, rfl, short, same⟩
    · rw [digits_of_long (by omega)] at spells
      obtain ⟨front, same⟩ := cons.inj spells
      exact .inr ⟨value, rest, rfl, by omega, front, same.symm⟩

theorem longs_le (positive : 0 < base) (values : List Nat) (apart : values.IsChain (Apart base)) :
    (∀ other, spell base other = spell base values → longs base other ≤ longs base values ∧
        (longs base other = longs base values → other = values)) ∧
      ∀ digit other, (∀ next ∈ values.head?, next < base → digit = 0) →
        spell base other = digit :: spell base values → longs base other ≤ longs base values := by
  induction values with
  | nil =>
    have empty : ∀ other, spell base other = [] → other = [] ∧ longs base other = 0 := by
      intro other spells
      have lengths : (spell base other).length = _ := length_spell other
      rw [spells, length_nil] at lengths
      exact ⟨length_eq_zero_iff.mp (by omega), by omega⟩
    refine ⟨fun other spells => ?_, fun digit other _ spells => ?_⟩
    · obtain ⟨rfl, none⟩ := empty other spells
      exact ⟨by omega, fun _ => rfl⟩
    · rcases first_of_spell spells with ⟨others, rfl, below, same⟩ | ⟨first, others, _, _, _, same⟩
      · rw [longs_cons, if_neg (by omega), (empty others same).2]
        exact zero_le _
      · cases same
  | cons value rest ih =>
    obtain ⟨next, later⟩ := isChain_cons.mp apart
    obtain ⟨tight, loose⟩ := ih later
    have whole : ∀ other, spell base other = spell base (value :: rest) →
        longs base other ≤ longs base (value :: rest) ∧
          (longs base other = longs base (value :: rest) → other = value :: rest) := by
      intro other spells
      rw [spell_cons] at spells
      by_cases short : value < base
      · rw [digits_of_short short] at spells
        rcases first_of_spell spells with ⟨others, rfl, _, same⟩ | ⟨first, others, rfl, long, front, same⟩
        · obtain ⟨most, only⟩ := tight others same
          rw [longs_cons, longs_cons, if_neg (by omega)]
          exact ⟨by omega, fun equal => by rw [only (by omega)]⟩
        · -- the digit of a short number would have to start a long one, so it is not zero
          exfalso
          have nonzero : 0 < first / base := div_pos long positive
          cases rest with
          | nil => cases same
          | cons following others =>
            have zero := (next following rfl).2 short
            omega
      · rw [digits_of_long (by omega), cons_append, singleton_append] at spells
        rcases first_of_spell spells with ⟨others, rfl, below, same⟩ | ⟨first, others, rfl, long, front, same⟩
        · have most := loose (value % base) others (fun following here small =>
            (next following here).1 small) same
          rw [longs_cons, longs_cons, if_neg (by omega), if_pos (by omega)]
          exact ⟨by omega, fun equal => by omega⟩
        · obtain ⟨second, following⟩ := cons.inj same
          have equal : first = value := by
            rw [← div_add_mod first base, ← div_add_mod value base, front, second]
          subst equal
          obtain ⟨most, only⟩ := tight others following.symm
          rw [longs_cons, longs_cons]
          exact ⟨by omega, fun same => by rw [only (by omega)]⟩
    refine ⟨whole, fun digit other free spells => ?_⟩
    rcases first_of_spell spells with ⟨others, rfl, below, same⟩ | ⟨first, others, rfl, long, front, same⟩
    · rw [longs_cons, if_neg (by omega)]
      exact (whole others same).1
    · have nonzero : 0 < first / base := div_pos long positive
      have large : base ≤ value := by
        by_contra short
        have zero := free value rfl (by omega)
        omega
      rw [spell_cons, digits_of_long large, cons_append, singleton_append] at same
      obtain ⟨_, same⟩ := cons.inj same
      have most := loose (value % base) others (fun following here small =>
        (next following here).1 small) same.symm
      rw [longs_cons, longs_cons, if_pos long, if_pos large]
      omega

theorem eq_of_spell (positive : 0 < base) {other : List Nat}
    (unambiguous : Unambiguous base values) (spells : spell base other = spell base values)
    (lengths : other.length = values.length) : other = values := by
  have counts : longs base other = longs base values := by
    have left : (spell base other).length = _ := length_spell other
    have right : (spell base values).length = _ := length_spell values
    rw [spells] at left
    omega
  rcases unambiguous with short | apart
  · have none : longs base values = 0 := countP_eq_zero.mpr fun value member => by
      simpa using short value member
    have shorts : ∀ value ∈ other, value < base := by
      intro value member
      have absent := countP_eq_zero.mp (counts.trans none) value member
      simpa using absent
    rwa [spell_of_short shorts, spell_of_short short] at spells
  · exact ((longs_le positive values apart).1 other spells).2 counts

def HasRival (base : Nat) (values : List Nat) : Prop :=
  ∃ other : List Nat, other.length = values.length ∧ (∀ value ∈ other, value < base * base) ∧
    spell base other = spell base values ∧ other ≠ values

theorem digit_lt (bounded : value < base * base) (long : base ≤ value) :
    value / base < base ∧ value % base < base ∧ 0 < value / base := by
  have positive : 0 < base := by
    by_contra zero
    simp [Nat.eq_zero_of_not_pos zero] at bounded
  exact ⟨Nat.div_lt_of_lt_mul bounded, Nat.mod_lt _ positive, Nat.div_pos long positive⟩

theorem joined_lt {first second : Nat} (below : first < base) (below' : second < base) :
    first * base + second < base * base := by
  nlinarith

theorem rival_of_pair {front rest : List Nat} {left right : Nat} (left' right' : Nat)
    (bounded : ∀ value ∈ front ++ left :: right :: rest, value < base * base)
    (leftBound : left' < base * base) (rightBound : right' < base * base)
    (same : digits base left' ++ digits base right' = digits base left ++ digits base right)
    (other : left' ≠ left) : HasRival base (front ++ left :: right :: rest) := by
  refine ⟨front ++ left' :: right' :: rest, by simp, ?_, ?_, ?_⟩
  · intro value member
    simp only [mem_append, mem_cons] at member bounded
    rcases member with before | rfl | rfl | later
    · exact bounded value (.inl before)
    · exact leftBound
    · exact rightBound
    · exact bounded value (.inr (.inr (.inr later)))
  · simp only [spell_append, spell_cons]
    rw [← append_assoc (digits base left'), same, append_assoc]
  · intro equal
    exact other (cons.inj (append_cancel_left equal)).1

theorem rival_of_later {front middle rest : List Nat} {left right long : Nat}
    (bounded : ∀ value ∈ front ++ left :: right :: (middle ++ long :: rest), value < base * base)
    (leftShort : left < base) (rightShort : right < base) (positive : 0 < left)
    (large : base ≤ long) :
    HasRival base (front ++ left :: right :: (middle ++ long :: rest)) := by
  obtain ⟨high, low, _⟩ := digit_lt (bounded long (by simp)) large
  have square : base ≤ base * base := le_mul_self base
  refine ⟨front ++ (left * base + right) :: (middle ++ long / base :: long % base :: rest),
    by simp; omega, ?_, ?_, ?_⟩
  · intro value member
    simp only [mem_append, mem_cons] at member bounded
    rcases member with before | rfl | between | rfl | rfl | later
    · exact bounded value (.inl before)
    · exact joined_lt leftShort rightShort
    · exact bounded value (.inr (.inr (.inr (.inl between))))
    · omega
    · omega
    · exact bounded value (.inr (.inr (.inr (.inr (.inr later)))))
  · simp only [spell_append, spell_cons, digits_joined positive rightShort, digits_of_long large,
      digits_of_short high, digits_of_short low, digits_of_short leftShort,
      digits_of_short rightShort]
    simp
  · intro equal
    have first := (cons.inj (append_cancel_left equal)).1
    nlinarith

theorem rival_of_earlier {front middle rest : List Nat} {left right long : Nat}
    (bounded : ∀ value ∈ front ++ long :: (middle ++ left :: right :: rest), value < base * base)
    (leftShort : left < base) (rightShort : right < base) (positive : 0 < left)
    (large : base ≤ long) :
    HasRival base (front ++ long :: (middle ++ left :: right :: rest)) := by
  obtain ⟨high, low, _⟩ := digit_lt (bounded long (by simp)) large
  have square : base ≤ base * base := le_mul_self base
  refine ⟨front ++ long / base :: long % base :: (middle ++ (left * base + right) :: rest),
    by simp; omega, ?_, ?_, ?_⟩
  · intro value member
    simp only [mem_append, mem_cons] at member bounded
    rcases member with before | rfl | rfl | between | rfl | later
    · exact bounded value (.inl before)
    · omega
    · omega
    · exact bounded value (.inr (.inr (.inl between)))
    · exact joined_lt leftShort rightShort
    · exact bounded value (.inr (.inr (.inr (.inr (.inr later)))))
  · simp only [spell_append, spell_cons, digits_joined positive rightShort, digits_of_long large,
      digits_of_short high, digits_of_short low, digits_of_short leftShort,
      digits_of_short rightShort]
    simp
  · intro equal
    have first := (cons.inj (append_cancel_left equal)).1
    omega

theorem exists_rival (bounded : ∀ value ∈ values, value < base * base)
    (ambiguous : ¬ Unambiguous base values) : HasRival base values := by
  unfold Unambiguous at ambiguous
  rw [isChain_iff_forall_rel_of_append_cons_cons] at ambiguous
  push Not at ambiguous
  obtain ⟨⟨long, member, large⟩, left, right, front, rest, rfl, touching⟩ := ambiguous
  have leftBound : left < base * base := bounded left (by simp)
  have rightBound : right < base * base := bounded right (by simp)
  by_cases leftShort : left < base
  · have positive : 0 < left := by
      by_contra zero
      have none : left = 0 := by omega
      exact touching ⟨fun _ => by simp [none], fun _ => none⟩
    by_cases rightShort : right < base
    · have elsewhere : long ∈ front ∨ long ∈ rest := by
        simp only [mem_append, mem_cons] at member
        rcases member with before | rfl | rfl | later
        · exact .inl before
        · omega
        · omega
        · exact .inr later
      rcases elsewhere with before | later
      · obtain ⟨start, middle, rfl⟩ := append_of_mem before
        rw [append_assoc, cons_append] at bounded ⊢
        exact rival_of_earlier bounded leftShort rightShort positive large
      · obtain ⟨middle, last, rfl⟩ := append_of_mem later
        exact rival_of_later bounded leftShort rightShort positive large
    · obtain ⟨high, low, _⟩ := digit_lt rightBound (by omega)
      refine rival_of_pair (left * base + right / base) (right % base) bounded
        (joined_lt leftShort high) (by nlinarith) ?_ (by nlinarith)
      rw [digits_joined positive high, digits_of_short leftShort, digits_of_short low,
        digits_of_long (by omega)]
      rfl
  · obtain ⟨high, low, _⟩ := digit_lt leftBound (by omega)
    have rightShort : right < base := by
      by_contra long
      exact touching ⟨fun short => absurd short long, fun short => absurd short leftShort⟩
    have second : 0 < left % base := by
      by_contra zero
      exact touching ⟨fun _ => by omega, fun short => absurd short leftShort⟩
    refine rival_of_pair (left / base) (left % base * base + right) bounded
      (by nlinarith) (joined_lt low rightShort) ?_ (by omega)
    rw [digits_joined second rightShort, digits_of_short high, digits_of_short rightShort,
      digits_of_long (by omega)]
    rfl

end ShortNumerals
