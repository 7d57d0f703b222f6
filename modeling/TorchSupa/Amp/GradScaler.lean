import Mathlib.Algebra.Ring.Nat
import Mathlib.Data.List.Nodup
import Mathlib.Data.List.Dedup
import Mathlib.Data.List.Perm.Basic

/-!
`GradScaler.unscale_`: the gradients are grouped by device and dtype, checked and multiplied by the
inverse scale. Sparse gradients are consumed with the values of one index added up.
-/

namespace TorchSupa.Amp

open List Nat

inductive DType
  | float16
  | bfloat16
  | float32
  | float64
deriving DecidableEq, Repr

/-- The values with their indices; those of a dense gradient have different ones. -/
structure Grad (V : Type) where
  device : Nat
  dtype : DType
  isSparse : Bool
  entries : List (Nat × V)
deriving DecidableEq, Repr

inductive OptState
  | ready
  | unscaled
  | stepped
deriving DecidableEq, Repr

inductive Exn
  | assertion
  | runtimeError (text : String)
  | valueError (text : String)
deriving DecidableEq, Repr

/-- What `unscale_` reads and writes; the parameters are those of all groups in their order, each
with a gradient tensor of its own. -/
structure GradScaler (V : Type) where
  enabled : Bool
  /-- whether `_scale` has been initialized -/
  scaled : Bool
  stage : OptState
  grads : List (Option (Grad V))
  foundInfPerDevice : List (Nat × Nat)

section Code

variable {V : Type} (finite : V → Bool) (add : V → V → V)
-- the product with the inverse scale
variable (product : V → V)

def Grad.indices (grad : Grad V) : List Nat := (grad.entries.map Prod.fst).dedup

/-- The values of an index, added up in their order. -/
def Grad.sum (grad : Grad V) (index : Nat) : List V :=
  match (grad.entries.filter (·.1 = index)).map Prod.snd with
  | [] => []
  | first :: later => [later.foldl add first]

def Grad.coalesce (grad : Grad V) : Grad V :=
  { grad with entries := grad.indices.flatMap fun index => (grad.sum add index).map (index, ·) }

def entered {κ ν : Type} [DecidableEq κ] (initial : ν) (key : κ) (change : ν → ν) :
    List (κ × ν) → List (κ × ν)
  | [] => [(key, change initial)]
  | (other, value) :: rest =>
    if other = key then (other, change value) :: rest
    else (other, value) :: entered initial key change rest

abbrev Table := List (Nat × List (DType × List Nat))

/-- The first loop of `_unscale_grads_` from parameter `i` on. -/
def collect (allowBf16 : Bool) : Nat → List (Option (Grad V)) → Table →
    Except Exn (Table × List (Option (Grad V)))
  | _, [], table => .ok (table, [])
  | i, none :: rest, table => do
      let (table, grads) ← collect allowBf16 (i + 1) rest table
      return (table, none :: grads)
  | i, some grad :: rest, table => do
      if !allowBf16 && grad.dtype = .bfloat16 then
        throw (.valueError "Attempting to unscale BF16 gradients.")
      let grad := if grad.isSparse ∧ grad.dtype = .bfloat16 then grad.coalesce add else grad
      let (table, grads) ← collect allowBf16 (i + 1) rest
        (entered [] grad.device (entered [] grad.dtype (· ++ [i])) table)
      return (table, some grad :: grads)

def Grad.scaled (grad : Grad V) : Grad V :=
  { grad with entries := grad.entries.map fun entry => (entry.1, product entry.2) }

def Grad.overflows (grad : Grad V) : Bool := grad.entries.any fun entry => !finite entry.2

/-- `_amp_foreach_non_finite_check_and_unscale_` of the gradients with these numbers. -/
def checkAndUnscale (self : GradScaler V) (device : Nat) (refs : List Nat) : GradScaler V :=
  { self with
    grads := refs.foldl (fun grads i => grads.modify i (·.map (Grad.scaled product))) self.grads
    foundInfPerDevice := entered 0 device
      (fun foundInf =>
        if refs.any fun i => (self.grads[i]?.join).any (Grad.overflows finite) then 1 else foundInf)
      self.foundInfPerDevice }

def Table.groups (table : Table) : List (Nat × List Nat) :=
  table.flatMap fun device => device.2.map fun dtype => (device.1, dtype.2)

/-- With the exception, if there is one. -/
def unscaleGrads (self : GradScaler V) (allowBf16 : Bool) : Option Exn × GradScaler V :=
  match collect add allowBf16 0 self.grads [] with
  | .error exception => (some exception, self)
  | .ok (table, grads) => (none, table.groups.foldl
      (fun self group => checkAndUnscale finite product self group.1 group.2)
      { self with grads, foundInfPerDevice := [] })

def GradScaler.unscale (self : GradScaler V) : Option Exn × GradScaler V :=
  if !self.enabled then (none, self)
  else if !self.scaled then (some .assertion, self)
  else
    match self.stage with
    | .unscaled => (some (.runtimeError
        "unscale_() has already been called on this optimizer since the last update()."), self)
    | .stepped => (some (.runtimeError "unscale_() is being called after step()."), self)
    | .ready =>
      match unscaleGrads finite add product self false with
      | (some exception, after) => (some exception, after)
      | (none, after) => (none, { after with stage := .unscaled })

/-- What `update` adds up. -/
def GradScaler.foundInfCombined (self : GradScaler V) : Nat :=
  (self.foundInfPerDevice.map Prod.snd).sum

end Code

section Specification

variable {V : Type} (finite : V → Bool) (add : V → V → V) (product : V → V)

def Grad.consumed (grad : Grad V) : List V :=
  if grad.isSparse then grad.indices.flatMap (grad.sum add) else grad.entries.map Prod.snd

/-- The flag is right and each value has been multiplied once, or nothing has changed. -/
def GradScaler.Right (self : GradScaler V) : Prop :=
  if (self.unscale finite add product).1 = none then
    (0 < (self.unscale finite add product).2.foundInfCombined ↔
      ∃ grad, some grad ∈ self.grads ∧ ∃ value ∈ grad.consumed add, finite value = false) ∧
    (self.unscale finite add product).2.grads =
      self.grads.map (Option.map (Grad.scaled product))
  else
    (self.unscale finite add product).2.grads = self.grads ∧
      (self.unscale finite add product).2.stage = self.stage

def GradScaler.Refused (self : GradScaler V) : Prop :=
  self.scaled = false ∨ self.stage ≠ .ready ∨
    ∃ grad, some grad ∈ self.grads ∧ grad.dtype = .bfloat16

/-- No values of one index of a sparse gradient have a sum beyond the range. -/
def GradScaler.InRange (self : GradScaler V) : Prop :=
  ∀ grad, some grad ∈ self.grads → grad.isSparse = true →
    ∀ index, ∀ value ∈ grad.sum add index, finite value = true

def GradScaler.Finite (self : GradScaler V) : Prop :=
  ∀ grad, some grad ∈ self.grads → ∀ entry ∈ grad.entries, finite entry.2 = true

end Specification

section Grouping

variable {V : Type} {finite : V → Bool} {add : V → V → V} {product : V → V}

theorem entered_perm {κ ν α : Type} [DecidableEq κ] {initial : ν} {change : ν → ν} {one : α}
    (weight : ν → List α) (empty : weight initial = [])
    (more : ∀ value, (weight (change value)).Perm (one :: weight value)) (key : κ)
    (table : List (κ × ν)) :
    ((entered initial key change table).flatMap fun entry => weight entry.2).Perm
      (one :: table.flatMap fun entry => weight entry.2) := by
  induction table with
  | nil =>
    have first := more initial
    rw [empty] at first
    simpa [entered] using first
  | cons entry rest ih =>
    unfold entered
    split
    · exact (more entry.2).append_right _
    · exact (ih.append_left _).trans perm_middle

theorem groups_refs (table : Table) : table.groups.flatMap Prod.snd =
    table.flatMap fun device => device.2.flatMap Prod.snd := by
  unfold Table.groups
  rw [flatMap_assoc]
  congr
  funext device
  rw [flatMap_map]

/-- The numbers of the parameters that have a gradient, from `i` on. -/
def present : Nat → List (Option (Grad V)) → List Nat
  | _, [] => []
  | i, none :: rest => present (i + 1) rest
  | i, some _ :: rest => i :: present (i + 1) rest

theorem mem_present {i j : Nat} {grads : List (Option (Grad V))} :
    j ∈ present i grads ↔ i ≤ j ∧ ∃ grad, grads[j - i]? = some (some grad) := by
  induction grads generalizing i with
  | nil => simp [present]
  | cons first rest ih =>
    have later : ∀ {grad : Grad V}, i + 1 ≤ j →
        ((first :: rest)[j - i]? = some (some grad) ↔ rest[j - (i + 1)]? = some (some grad)) := by
      intro grad above
      rw [show j - i = j - (i + 1) + 1 by omega, getElem?_cons_succ]
    cases first with
    | none =>
      rw [present, ih]
      constructor
      · rintro ⟨above, grad, found⟩
        exact ⟨by omega, grad, (later above).mpr found⟩
      · rintro ⟨above, grad, found⟩
        by_cases same : j = i
        · subst same
          rw [Nat.sub_self] at found
          cases found
        · exact ⟨by omega, grad, (later (by omega)).mp found⟩
    | some own =>
      rw [present, mem_cons, ih]
      constructor
      · rintro (rfl | ⟨above, grad, found⟩)
        · exact ⟨Nat.le_refl _, own, by rw [Nat.sub_self]; rfl⟩
        · exact ⟨by omega, grad, (later above).mpr found⟩
      · rintro ⟨above, grad, found⟩
        by_cases same : j = i
        · exact .inl same
        · exact .inr ⟨by omega, grad, (later (by omega)).mp found⟩

theorem nodup_present (i : Nat) (grads : List (Option (Grad V))) : (present i grads).Nodup := by
  induction grads generalizing i with
  | nil => exact nodup_nil
  | cons first rest ih =>
    cases first with
    | none => exact ih (i + 1)
    | some own =>
      refine nodup_cons.mpr ⟨fun again => ?_, ih (i + 1)⟩
      exact absurd (mem_present.mp again).1 (by omega)

theorem collect_spec (grads : List (Option (Grad V))) : ∀ (i : Nat) (table : Table),
    (∃ grad, some grad ∈ grads ∧ grad.dtype = .bfloat16) ∧
        (∃ exception, collect add false i grads table = .error exception) ∨
      (∀ grad, some grad ∈ grads → grad.dtype ≠ .bfloat16) ∧
        ∃ after, collect add false i grads table = .ok (after, grads) ∧
          (after.groups.flatMap Prod.snd).Perm
            (present i grads ++ table.groups.flatMap Prod.snd) := by
  induction grads with
  | nil => exact fun _ table => .inr ⟨by simp, table, rfl, .refl _⟩
  | cons first rest ih =>
    intro i table
    cases first with
    | none =>
      rcases ih (i + 1) table with ⟨⟨grad, there, half⟩, exception, raised⟩ |
          ⟨others, after, done, refs⟩
      · exact .inl ⟨⟨grad, mem_cons_of_mem _ there, half⟩, exception, by
          simp only [collect, raised, bind, Except.bind]⟩
      · exact .inr ⟨by simpa using others, after, by
          simp only [collect, done, bind, Except.bind, pure, Except.pure], refs⟩
    | some own =>
      by_cases half : own.dtype = .bfloat16
      · exact .inl ⟨⟨own, (.head _), half⟩, _, by
          simp only [collect, half, decide_true, Bool.not_false, Bool.and_self, if_true]
          rfl⟩
      · have step : ∀ result, collect add false (i + 1) rest
              (entered [] own.device (entered [] own.dtype (· ++ [i])) table) = result →
            collect add false i (some own :: rest) table =
              result.map fun pair => (pair.1, some own :: pair.2) := by
          rintro result rfl
          simp only [collect, half, decide_false, Bool.and_false, Bool.false_eq_true, if_false,
            and_false]
          cases collect add false (i + 1) rest
            (entered [] own.device (entered [] own.dtype (· ++ [i])) table) <;> rfl
        rcases ih (i + 1) (entered [] own.device (entered [] own.dtype (· ++ [i])) table) with
          ⟨⟨grad, there, is⟩, exception, raised⟩ | ⟨others, after, done, refs⟩
        · exact .inl ⟨⟨grad, mem_cons_of_mem _ there, is⟩, exception, step _ raised⟩
        · refine .inr ⟨?_, after, step _ done, refs.trans ?_⟩
          · rintro grad there
            rcases mem_cons.mp there with same | later
            · cases same
              exact half
            · exact others grad later
          · have inner : ∀ value : List (DType × List Nat),
                ((entered [] own.dtype (· ++ [i]) value).flatMap Prod.snd).Perm
                  (i :: value.flatMap Prod.snd) := fun value =>
              entered_perm id rfl (fun refs => perm_append_singleton i refs) _ _
            have outer := entered_perm (flatMap Prod.snd) flatMap_nil inner own.device table
            rw [groups_refs, groups_refs]
            exact (outer.append_left _).trans perm_middle

end Grouping

section Unscaling

variable {V : Type} {finite : V → Bool} {add : V → V → V} {product : V → V}

theorem foundInf_pos (device : Nat) (flag : Bool) (found : List (Nat × Nat)) :
    0 < ((entered 0 device (fun foundInf => if flag then 1 else foundInf) found).map Prod.snd).sum ↔
      0 < (found.map Prod.snd).sum ∨ flag = true := by
  induction found with
  | nil => cases flag <;> simp [entered]
  | cons entry rest ih =>
    unfold entered
    split
    · cases flag with
      | false => simp
      | true =>
        simp only [reduceIte, or_true, iff_true, map_cons, sum_cons]
        omega
    · rw [map_cons, sum_cons, map_cons, sum_cons, add_pos_iff_pos_or_pos,
        add_pos_iff_pos_or_pos, ih, or_assoc]

theorem getElem?_modified (refs : List Nat) : ∀ (grads : List (Option (Grad V))), refs.Nodup →
    ∀ i, (refs.foldl (fun grads i => grads.modify i (·.map (Grad.scaled product))) grads)[i]? =
      if i ∈ refs then grads[i]?.map (·.map (Grad.scaled product)) else grads[i]? := by
  induction refs with
  | nil => simp
  | cons first later ih =>
    intro grads distinct i
    obtain ⟨absent, rest⟩ := nodup_cons.mp distinct
    rw [foldl_cons, ih _ rest]
    by_cases same : i = first
    · subst same
      rw [if_neg absent, if_pos (.head _), getElem?_modify_eq]
      rfl
    · rw [getElem?_modify_ne _ _ (Ne.symm same)]
      simp only [mem_cons, same, false_or]

theorem groups_spec (groups : List (Nat × List Nat)) : ∀ self : GradScaler V,
    (groups.flatMap Prod.snd).Nodup →
    (groups.foldl (fun self group => checkAndUnscale finite product self group.1 group.2) self).grads =
        (groups.flatMap Prod.snd).foldl
          (fun grads i => grads.modify i (·.map (Grad.scaled product))) self.grads ∧
      (0 < (groups.foldl (fun self group => checkAndUnscale finite product self group.1 group.2)
          self).foundInfCombined ↔
        0 < self.foundInfCombined ∨ ∃ i ∈ groups.flatMap Prod.snd,
          (self.grads[i]?.join).any (Grad.overflows finite) = true) := by
  induction groups with
  | nil => simp
  | cons group rest ih =>
    intro self distinct
    rw [flatMap_cons] at distinct ⊢
    obtain ⟨own, others, apart⟩ := nodup_append.mp distinct
    obtain ⟨grads, positive⟩ := ih (checkAndUnscale finite product self group.1 group.2) others
    refine ⟨by rw [foldl_cons, grads, foldl_append]; rfl, ?_⟩
    rw [foldl_cons, positive]
    have first : 0 < (checkAndUnscale finite product self group.1 group.2).foundInfCombined ↔ _ :=
      foundInf_pos group.1 (group.2.any fun i => (self.grads[i]?.join).any (Grad.overflows finite))
        self.foundInfPerDevice
    have unread : ∀ i ∈ rest.flatMap Prod.snd,
        (checkAndUnscale finite product self group.1 group.2).grads[i]? = self.grads[i]? :=
      fun i there => by
        rw [checkAndUnscale, getElem?_modified _ _ own, if_neg fun here => apart i here i there rfl]
    rw [first, any_eq_true, or_assoc]
    refine or_congr Iff.rfl ⟨?_, ?_⟩
    · rintro (⟨i, there, found⟩ | ⟨i, there, found⟩)
      · exact ⟨i, mem_append_left _ there, found⟩
      · exact ⟨i, mem_append_right _ there, by rwa [unread i there] at found⟩
    · rintro ⟨i, there, found⟩
      rcases mem_append.mp there with here | later
      · exact .inl ⟨i, here, found⟩
      · exact .inr ⟨i, later, by rwa [unread i later]⟩

/-- Where the call is not refused, every value has been multiplied once, and the flag says whether
a value that was stored is not finite. -/
theorem unscale_spec (self : GradScaler V) (enabled : self.enabled = true) :
    self.Refused ∧ (∃ exception, self.unscale finite add product = (some exception, self)) ∨
      ¬ self.Refused ∧ (self.unscale finite add product).1 = none ∧
        (self.unscale finite add product).2.grads =
          self.grads.map (Option.map (Grad.scaled product)) ∧
        (0 < (self.unscale finite add product).2.foundInfCombined ↔ ¬ self.Finite finite) := by
  unfold GradScaler.unscale GradScaler.Refused
  rw [enabled]
  cases initialized : self.scaled with
  | false => exact .inl ⟨.inl rfl, _, rfl⟩
  | true =>
    cases stage : self.stage with
    | unscaled => exact .inl ⟨.inr (.inl (by decide)), _, rfl⟩
    | stepped => exact .inl ⟨.inr (.inl (by decide)), _, rfl⟩
    | ready =>
      rcases @collect_spec V add self.grads 0 [] with ⟨half, exception, raised⟩ |
          ⟨none_, table, done, refs⟩
      · exact .inl ⟨.inr (.inr half), exception, by simp [unscaleGrads, raised]⟩
      · refine .inr ⟨?_, ?_⟩
        · rintro (no | no | ⟨grad, there, half⟩)
          · cases no
          · exact no rfl
          · exact none_ grad there half
        · have all : (present 0 self.grads).Perm (table.groups.flatMap Prod.snd) := by
            have same := refs.symm
            rwa [show Table.groups [] = [] from rfl, flatMap_nil, append_nil] at same
          have distinct := all.nodup_iff.mp (nodup_present 0 self.grads)
          obtain ⟨grads, positive⟩ := @groups_spec V finite product table.groups
            { self with foundInfPerDevice := [] } distinct
          simp only [unscaleGrads, done, Bool.not_true, Bool.false_eq_true, if_false]
          refine ⟨trivial, ?_, ?_⟩
          · refine grads.trans (ext_getElem? fun i => ?_)
            rw [getElem?_modified _ _ distinct, getElem?_map]
            split
            · rfl
            · rename_i absent
              cases found : self.grads[i]? with
              | none => rfl
              | some grad =>
                cases grad with
                | none => rfl
                | some grad =>
                  exact absurd (all.mem_iff.mp (mem_present.mpr ⟨zero_le i, grad, found⟩)) absent
          · refine positive.trans ?_
            have zero : ¬ 0 < ({ self with foundInfPerDevice := [] } :
                GradScaler V).foundInfCombined := lt_irrefl 0
            rw [or_iff_right zero]
            unfold GradScaler.Finite
            push Not
            constructor
            · rintro ⟨i, there, overflows⟩
              cases found : self.grads[i]? with
              | none => rw [found] at overflows; cases overflows
              | some grad =>
                rw [found] at overflows
                cases grad with
                | none => cases overflows
                | some grad =>
                  obtain ⟨entry, among, not_⟩ := any_eq_true.mp overflows
                  exact ⟨grad, mem_of_getElem? found, entry, among, by simpa using not_⟩
            · rintro ⟨grad, there, entry, among, not_⟩
              obtain ⟨i, found⟩ := getElem?_of_mem there
              refine ⟨i, all.mem_iff.mp (mem_present.mpr ⟨zero_le i, grad, found⟩), ?_⟩
              rw [found]
              exact any_eq_true.mpr ⟨entry, among, by simpa using not_⟩

end Unscaling

section Sums

variable {V : Type} {finite : V → Bool} {add : V → V → V} {product : V → V}

section

variable (overflow : ∀ x y, finite (add x y) = true → finite x = true ∧ finite y = true)
include overflow

theorem foldl_finite (values : List V) : ∀ first, finite (values.foldl add first) = true →
      finite first = true ∧ ∀ value ∈ values, finite value = true := by
  induction values with
  | nil => exact fun first whole => ⟨whole, by simp⟩
  | cons value rest ih =>
    intro first whole
    obtain ⟨both, others⟩ := ih (add first value) whole
    exact ⟨(overflow _ _ both).1, by simpa [(overflow _ _ both).2] using others⟩

theorem sum_finite {grad : Grad V} {entry : Nat × V} (there : entry ∈ grad.entries)
    (whole : ∀ value ∈ grad.sum add entry.1, finite value = true) : finite entry.2 = true := by
  have among : entry.2 ∈ (grad.entries.filter (·.1 = entry.1)).map Prod.snd :=
    mem_map.mpr ⟨entry, mem_filter.mpr ⟨there, by simp⟩, rfl⟩
  unfold Grad.sum at whole
  split at whole
  · rename_i none_
    rw [none_] at among
    cases among
  · rename_i first later some_
    rw [some_] at among
    obtain ⟨begins, others⟩ := foldl_finite overflow later first (whole _ (.head _))
    rcases mem_cons.mp among with same | behind
    · rwa [same]
    · exact others _ behind

end

theorem mem_indices {grad : Grad V} {index : Nat} {value : V} (there : value ∈ grad.sum add index) :
    index ∈ grad.indices := by
  unfold Grad.sum at there
  split at there
  · cases there
  · rename_i first later some_
    have among : first ∈ (grad.entries.filter (·.1 = index)).map Prod.snd := by
      rw [some_]
      exact .head _
    obtain ⟨entry, inside, _⟩ := mem_map.mp among
    obtain ⟨inside, same⟩ := mem_filter.mp inside
    exact mem_dedup.mpr (mem_map.mpr ⟨entry, inside, by simpa using same⟩)

theorem consumed_finite (overflow : ∀ x y, finite (add x y) = true →
      finite x = true ∧ finite y = true) (self : GradScaler V) :
    (∀ grad, some grad ∈ self.grads → ∀ value ∈ grad.consumed add, finite value = true) ↔
      self.Finite finite ∧ self.InRange finite add := by
  constructor
  · refine fun consumed => ⟨fun grad there entry among => ?_, fun grad there sparse index value is => ?_⟩
    · have all := consumed grad there
      unfold Grad.consumed at all
      split at all
      · refine sum_finite overflow among fun value is => all value ?_
        exact mem_flatMap.mpr ⟨_, mem_indices is, is⟩
      · exact all _ (mem_map_of_mem among)
    · refine consumed grad there value ?_
      rw [Grad.consumed, if_pos sparse]
      exact mem_flatMap.mpr ⟨_, mem_indices is, is⟩
  · rintro ⟨stored, sums⟩ grad there value is
    unfold Grad.consumed at is
    split at is
    · rename_i sparse
      obtain ⟨index, _, is⟩ := mem_flatMap.mp is
      exact sums grad there sparse index value is
    · obtain ⟨entry, among, rfl⟩ := mem_map.mp is
      exact stored grad there entry among

end Sums

/-- The flag is right unless the sum of the finite values of an index of a sparse gradient
overflows and nothing else tells. -/
theorem unscale_right_iff {V : Type} {finite : V → Bool} {add : V → V → V} {product : V → V}
    (overflow : ∀ x y, finite (add x y) = true → finite x = true ∧ finite y = true)
    (self : GradScaler V) (enabled : self.enabled = true) :
    self.Right finite add product ↔
      self.Refused ∨ (self.Finite finite → self.InRange finite add) := by
  unfold GradScaler.Right
  rcases @unscale_spec V finite add product self enabled with
    ⟨refused, exception, raised⟩ | ⟨accepted, returned, grads, positive⟩
  · rw [raised, if_neg (Option.some_ne_none _)]
    exact ⟨fun _ => .inl refused, fun _ => ⟨rfl, rfl⟩⟩
  · have consumed := consumed_finite overflow self
    rw [if_pos returned, positive, and_iff_left grads, or_iff_right accepted]
    have told : (∃ grad, some grad ∈ self.grads ∧ ∃ value ∈ grad.consumed add,
        finite value = false) ↔ ¬ (self.Finite finite ∧ self.InRange finite add) := by
      rw [← consumed]
      push Not
      simp only [Bool.not_eq_true]
    rw [told, not_iff_not, iff_self_and]

section Samples

/-- A number up to the largest of `float16`, or infinity. -/
abbrev Half := Option Nat

def sampleAdd (x y : Half) : Half :=
  (x.bind fun x => y.map (x + ·)).filter (· ≤ 65504)

/-- A sparse gradient with two values for one index. -/
def sampleScaler (value : Nat) : GradScaler Half :=
  { enabled := true, scaled := true, stage := .ready, foundInfPerDevice := []
    grads := [some ⟨0, .float16, true, [(0, some value), (0, some value)]⟩] }

theorem sampleAdd_overflow (x y : Half) (whole : (sampleAdd x y).isSome = true) :
    x.isSome = true ∧ y.isSome = true := by
  cases x <;> cases y <;> simp_all [sampleAdd]

theorem unscale_right_iff_sample : (sampleScaler 1000).Right Option.isSome sampleAdd id := by
  refine (unscale_right_iff sampleAdd_overflow (sampleScaler 1000) rfl).mpr (.inr fun _ => ?_)
  intro grad there sparse index value is
  obtain rfl := Option.some.inj (mem_singleton.mp there)
  cases index with
  | zero =>
    obtain rfl := mem_singleton.mp is
    decide
  | succ index => simp [Grad.sum] at is

/-- Two finite values whose sum overflows are not noticed. -/
theorem overflow_not_found : ¬ (sampleScaler 60000).Right Option.isSome sampleAdd id := by
  intro right
  have returned : ((sampleScaler 60000).unscale Option.isSome sampleAdd id).1 = none := by decide
  rw [GradScaler.Right, if_pos returned] at right
  exact absurd (right.1.mpr ⟨_, (.head _), none, by decide, rfl⟩) (by decide)

end Samples

end TorchSupa.Amp
