import Mathlib.Data.List.Perm.Basic
import Mathlib.Data.List.Nodup
import Mathlib.Data.Nat.Bitwise

/-!
Reductions of many values by threads that work together: loops that stride over the values, trees
in memory that the threads share, and butterflies of exchanges between lanes. All give what a
sequential loop over the values gives, if the operation is associative and commutative.
-/

namespace Reduction

open List Nat

variable {α β : Type}

def strided (start stride bound : Nat) : List Nat :=
  (List.range ((bound - start + stride - 1) / stride)).map (start + stride * ·)

def halvings : Nat → List Nat
  | 0 => []
  | k + 1 => 2 ^ k :: halvings k

variable (op : β → β → β)

def tree (strides : List Nat) (scratch : Nat → β) : Nat → β :=
  strides.foldl (fun scratch stride thread =>
    if thread < stride then op (scratch thread) (scratch (thread + stride)) else scratch thread)
    scratch

def butterfly (strides : List Nat) (values : Nat → β) : Nat → β :=
  strides.foldl (fun values stride lane => op (values lane) (values (lane ^^^ stride))) values

/-- For each stride, every lane takes in the value of the lane that is a stride further, and its own
where there is none. -/
def shuffleDown (width : Nat) (strides : List Nat) (values : Nat → β) : Nat → β :=
  strides.foldl (fun values stride lane =>
    op (values lane) (if lane + stride < width then values (lane + stride) else values lane)) values

def total (unit : β) (values : List β) : β := values.foldr op unit

section Strides

variable {start stride bound index : Nat}

theorem mem_strided (positive : 0 < stride) (small : start < stride) :
    index ∈ strided start stride bound ↔ index < bound ∧ index % stride = start := by
  unfold strided
  rw [mem_map]
  constructor
  · rintro ⟨turn, inside, rfl⟩
    have inside := mem_range.mp inside
    have below := (lt_div_iff_mul_lt positive).mp inside
    rw [mul_comm] at below
    refine ⟨by omega, ?_⟩
    rw [add_mul_mod_self_left, mod_eq_of_lt small]
  · rintro ⟨below, rest⟩
    have split := div_add_mod index stride
    refine ⟨index / stride, mem_range.mpr ?_, by omega⟩
    rw [lt_div_iff_mul_lt positive, mul_comm]
    omega

theorem nodup_strided (positive : 0 < stride) : (strided start stride bound).Nodup := by
  refine nodup_range.map fun one two same => ?_
  exact Nat.eq_of_mul_eq_mul_left positive (Nat.add_left_cancel same)

theorem strided_perm (positive : 0 < stride) :
    ((List.range stride).flatMap fun thread => strided thread stride bound).Perm
      (List.range bound) := by
  refine (perm_ext_iff_of_nodup ?_ nodup_range).mpr fun index => ?_
  · refine nodup_flatMap.mpr ⟨fun thread _ => nodup_strided positive, ?_⟩
    refine Nodup.pairwise_of_forall_ne nodup_range fun one first two second different => ?_
    intro index mine theirs
    have one_ := (mem_strided positive (mem_range.mp first)).mp mine
    have two_ := (mem_strided positive (mem_range.mp second)).mp theirs
    exact different (one_.2.symm.trans two_.2)
  · rw [mem_flatMap, mem_range]
    constructor
    · rintro ⟨thread, inside, there⟩
      exact ((mem_strided positive (mem_range.mp inside)).mp there).1
    · intro below
      have small := mod_lt index positive
      exact ⟨_, mem_range.mpr small, (mem_strided positive small).mpr ⟨below, rfl⟩⟩

end Strides

section Totals

variable {op} {unit : β}

theorem total_cons (value : β) (values : List β) :
    total op unit (value :: values) = op value (total op unit values) := rfl

theorem total_congr {list : List α} {one two : α → β} (same : ∀ index ∈ list, one index = two index) :
    total op unit (list.map one) = total op unit (list.map two) := by
  rw [map_congr_left same]

variable [Std.Associative op] [Std.LawfulIdentity op unit]

theorem total_append (first second : List β) :
    total op unit (first ++ second) = op (total op unit first) (total op unit second) := by
  induction first with
  | nil => exact (Std.LawfulLeftIdentity.left_id _).symm
  | cons value rest ih =>
    rw [cons_append, total_cons, total_cons, ih, ‹Std.Associative op›.assoc]

theorem foldl_eq_total (values : List β) : ∀ start : β,
    values.foldl op start = op start (total op unit values) := by
  induction values with
  | nil =>
    intro start
    exact (Std.LawfulRightIdentity.right_id start).symm
  | cons value rest ih =>
    intro start
    rw [foldl_cons, ih, total_cons, ‹Std.Associative op›.assoc]

theorem total_flatMap (list : List α) (part : α → List β) :
    total op unit (list.flatMap part) = total op unit (list.map fun one => total op unit (part one)) := by
  induction list with
  | nil => rfl
  | cons one rest ih =>
    rw [flatMap_cons, total_append, map_cons, total_cons, ih]

variable [Std.Commutative op]

omit [Std.LawfulIdentity op unit] in
theorem total_perm {first second : List β} (same : first.Perm second) :
    total op unit first = total op unit second := same.foldr_op_eq

theorem total_zip (list : List α) (one two : α → β) :
    total op unit (list.map fun index => op (one index) (two index)) =
      op (total op unit (list.map one)) (total op unit (list.map two)) := by
  induction list with
  | nil => exact (‹Std.LawfulIdentity op unit›.left_id unit).symm
  | cons index rest ih =>
    rw [map_cons, map_cons, map_cons, total_cons, total_cons, total_cons, ih]
    ac_rfl

theorem total_strided {stride : Nat} (bound : Nat) (positive : 0 < stride) (value : Nat → β) :
    total op unit ((List.range stride).map fun thread =>
      total op unit ((strided thread stride bound).map value)) =
      total op unit ((List.range bound).map value) := by
  rw [← total_flatMap, ← map_flatMap]
  exact total_perm ((strided_perm positive).map value)

end Totals

section Trees

variable {op}

theorem butterfly_map {γ : Type} {other : γ → γ → γ} (map : β → γ)
    (keeps : ∀ one two, map (op one two) = other (map one) (map two)) (strides : List Nat) :
    ∀ (values : Nat → β) (lane : Nat), map (butterfly op strides values lane) =
      butterfly other strides (fun lane => map (values lane)) lane := by
  induction strides with
  | nil =>
    intro values lane
    rfl
  | cons stride rest ih =>
    intro values lane
    change map (butterfly op rest _ lane) = butterfly other rest _ lane
    rw [ih]
    exact congrArg (fun values => butterfly other rest values lane) (funext fun lane => keeps _ _)

theorem butterfly_xor (mask : Nat) (strides : List Nat) : ∀ (values : Nat → β) (lane : Nat),
    butterfly op strides values (lane ^^^ mask) =
      butterfly op strides (fun lane => values (lane ^^^ mask)) lane := by
  induction strides with
  | nil =>
    intro values lane
    rfl
  | cons stride rest ih =>
    intro values lane
    change butterfly op rest _ (lane ^^^ mask) = butterfly op rest _ lane
    rw [ih]
    refine congrArg (fun values => butterfly op rest values lane) (funext fun other => ?_)
    dsimp only
    rw [Nat.xor_assoc, Nat.xor_assoc, Nat.xor_comm mask stride]

variable {unit : β} [Std.Commutative op] [Std.Associative op] [Std.LawfulIdentity op unit]

theorem total_double (k : Nat) (value : Nat → β) :
    total op unit ((List.range (2 ^ (k + 1))).map value) =
      total op unit ((List.range (2 ^ k)).map fun index => op (value index) (value (index + 2 ^ k))) := by
  rw [total_zip, pow_succ, mul_two, range_add, map_append, map_map, total_append]
  refine congrArg _ (total_congr fun index _ => ?_)
  rw [Function.comp_apply, add_comm]

theorem tree_eq_total (k : Nat) : ∀ scratch : Nat → β,
    tree op (halvings k) scratch 0 = total op unit ((List.range (2 ^ k)).map scratch) := by
  induction k with
  | zero =>
    intro scratch
    exact (‹Std.LawfulIdentity op unit›.right_id (scratch 0)).symm
  | succ k ih =>
    intro scratch
    rw [total_double]
    change tree op (halvings k) _ 0 = _
    rw [ih]
    refine total_congr fun index inside => ?_
    dsimp only
    rw [if_pos (mem_range.mp inside)]

theorem shuffleDown_eq_total {width : Nat} (k : Nat) (wide : 2 ^ k ≤ width) : ∀ values : Nat → β,
      shuffleDown op width (halvings k) values 0 = total op unit ((List.range (2 ^ k)).map values) := by
  induction k with
  | zero =>
    intro values
    exact (‹Std.LawfulIdentity op unit›.right_id (values 0)).symm
  | succ k ih =>
    intro values
    rw [total_double]
    change shuffleDown op width (halvings k) _ 0 = _
    rw [ih (by omega)]
    refine total_congr fun lane inside => ?_
    dsimp only
    rw [if_pos (by have := mem_range.mp inside; omega)]

theorem xor_two_pow_of_lt {k lane : Nat} (small : lane < 2 ^ k) : lane ^^^ 2 ^ k = lane + 2 ^ k := by
  refine eq_of_testBit_eq fun bit => ?_
  rw [testBit_xor, testBit_two_pow, add_comm]
  rcases lt_trichotomy bit k with below | same | above
  · rw [testBit_two_pow_add_gt below, decide_eq_false (ne_of_gt below), Bool.xor_false]
  · subst same
    rw [testBit_two_pow_add_eq, decide_eq_true rfl, Bool.xor_true]
  · have large : 2 ^ k + lane < 2 ^ bit :=
      calc 2 ^ k + lane < 2 ^ k + 2 ^ k := Nat.add_lt_add_left small _
        _ = 2 ^ (k + 1) := by rw [Nat.pow_succ, Nat.mul_two]
        _ ≤ 2 ^ bit := Nat.pow_le_pow_right (by decide) above
    rw [Nat.testBit_lt_two_pow large, Nat.testBit_lt_two_pow (by omega),
      decide_eq_false (Nat.ne_of_lt above), Bool.xor_false]

variable (unit) in
theorem butterfly_eq_total (k : Nat) : ∀ (values : Nat → β) (lane : Nat), lane < 2 ^ k →
    butterfly op (halvings k) values lane = total op unit ((List.range (2 ^ k)).map values) := by
  induction k with
  | zero =>
    intro values lane small
    obtain rfl : lane = 0 := by omega
    exact (‹Std.LawfulIdentity op unit›.right_id (values 0)).symm
  | succ k ih =>
    intro values lane small
    rw [total_double]
    change butterfly op (halvings k) (fun lane => op (values lane) (values (lane ^^^ 2 ^ k))) lane = _
    have low : ∀ other, other < 2 ^ k →
        butterfly op (halvings k) (fun lane => op (values lane) (values (lane ^^^ 2 ^ k))) other =
          total op unit ((range (2 ^ k)).map fun index =>
            op (values index) (values (index + 2 ^ k))) := by
      intro other below
      rw [ih _ other below]
      refine total_congr fun index inside => ?_
      rw [xor_two_pow_of_lt (mem_range.mp inside)]
    by_cases below : lane < 2 ^ k
    · exact low lane below
    · -- a lane of the upper half has what its partner has
      have partner : lane = (lane - 2 ^ k) ^^^ 2 ^ k := by
        rw [pow_succ] at small
        rw [xor_two_pow_of_lt (by omega)]
        omega
      rw [partner, butterfly_xor]
      have swapped : (fun other => op (values (other ^^^ 2 ^ k))
          (values (other ^^^ 2 ^ k ^^^ 2 ^ k))) =
            fun other => op (values other) (values (other ^^^ 2 ^ k)) := by
        funext other
        rw [Nat.xor_assoc, Nat.xor_self, Nat.xor_zero, ‹Std.Commutative op›.comm]
      rw [swapped]
      exact low _ (by rw [pow_succ] at small; omega)

end Trees

end Reduction
