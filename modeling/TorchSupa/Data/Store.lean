import Mathlib.Algebra.Order.BigOperators.Group.List
import Mathlib.Tactic.Ring

/-!
A store of objects addressed by identities that are never reused. A deleted
object leaves a hole, so a stale identity reads `none` for ever after.
-/

structure Store (α : Type) where
  cells : List (Option α)
deriving Repr

namespace Store

open Option

variable {α : Type}

def empty : Store α := ⟨[]⟩

instance : Inhabited (Store α) := ⟨empty⟩

def get? (store : Store α) (id : Nat) : Option α := (store.cells[id]?).join

def fresh (store : Store α) : Nat := store.cells.length

def push (store : Store α) (object : α) : Store α := ⟨store.cells ++ [some object]⟩

def modify (store : Store α) (id : Nat) (change : α → α) : Store α :=
  ⟨store.cells.modify id (Option.map change)⟩

def erase (store : Store α) (id : Nat) : Store α := ⟨store.cells.set id none⟩

def sum (store : Store α) (weight : α → Int) : Int :=
  (store.cells.map fun cell => cell.elim 0 weight).sum

@[simp] theorem get?_empty (id : Nat) : (empty : Store α).get? id = none := by
  simp [get?, empty]

@[simp] theorem sum_empty (weight : α → Int) : (empty : Store α).sum weight = 0 := rfl

theorem get?_fresh (store : Store α) : store.get? store.fresh = none := by
  simp [get?, fresh]

variable {object : α}

open List

variable {id : Nat}

theorem lt_fresh {store : Store α} (found : store.get? id = some object) : id < store.fresh := by
  by_contra beyond
  have absent : store.cells[id]? = none := getElem?_eq_none (by simpa [fresh] using beyond)
  simp [get?, absent] at found

theorem get?_push (store : Store α) (object : α) (id : Nat) :
    (store.push object).get? id = if id = store.fresh then some object else store.get? id := by
  unfold get? push fresh
  by_cases last : id = store.cells.length
  · simp [last]
  · rw [if_neg last]
    by_cases before : id < store.cells.length
    · rw [getElem?_append_left before]
    · have absent : store.cells[id]? = none := getElem?_eq_none (by omega)
      have beyond : (store.cells ++ [some object])[id]? = none := getElem?_eq_none (by simp; omega)
      rw [absent, beyond]

theorem get?_modify (store : Store α) (target id : Nat) (change : α → α) :
    (store.modify target change).get? id =
      if id = target then (store.get? target).map change else store.get? id := by
  unfold get? modify
  simp only [getElem?_modify]
  by_cases same : id = target
  · subst same
    cases store.cells[id]? with
    | none => simp
    | some cell => cases cell <;> simp
  · simp [same, Ne.symm same]

theorem get?_modify_found {store : Store α} (found : store.get? id = some object) (change : α → α) :
    (store.modify id change).get? id = some (change object) := by
  rw [get?_modify, if_pos rfl, found, map_some]

theorem get?_modify_of_ne (store : Store α) {target : Nat} (different : id ≠ target)
    (change : α → α) : (store.modify target change).get? id = store.get? id := by
  rw [get?_modify, if_neg different]

theorem of_get?_modify {store : Store α} {target : Nat} {change : α → α}
    (there : (store.modify target change).get? id = some object) :
    (id = target ∧ ∃ old, store.get? id = some old ∧ object = change old) ∨
      (id ≠ target ∧ store.get? id = some object) := by
  rw [get?_modify] at there
  split at there
  · rename_i same
    obtain ⟨old, found, rfl⟩ := map_eq_some_iff.mp there
    exact .inl ⟨same, old, same ▸ found, rfl⟩
  · exact .inr ⟨‹_›, there⟩

section

variable (store : Store α)
include store

theorem get?_erase (target id : Nat) :
    (store.erase target).get? id = if id = target then none else store.get? id := by
  unfold get? erase
  by_cases same : id = target
  · subst same
    by_cases bound : id < store.cells.length
    · simp [bound]
    · simp [bound]
  · simp [same, Ne.symm same]

@[simp] theorem fresh_push (object : α) : (store.push object).fresh = store.fresh + 1 := by
  simp [fresh, push]

@[simp] theorem fresh_modify (id : Nat) (change : α → α) :
    (store.modify id change).fresh = store.fresh := by
  simp [fresh, modify]

@[simp] theorem fresh_erase (id : Nat) : (store.erase id).fresh = store.fresh := by
  simp [fresh, erase]

theorem modify_modify (id : Nat) (first second : α → α) :
    (store.modify id first).modify id second = store.modify id (second ∘ first) := by
  simp [modify, modify_modify_eq, Option.map_comp_map]

theorem modify_push_fresh (object : α) (change : α → α) :
    (store.push object).modify store.fresh change = store.push (change object) := by
  have last : ∀ cells : List (Option α), (cells ++ [some object]).modify cells.length
      (Option.map change) = cells ++ [some (change object)] := by
    intro cells
    induction cells with
    | nil => rfl
    | cons cell rest ih => simp [ih]
  simp [modify, push, fresh, last]

theorem sum_push (object : α) (weight : α → Int) :
    (store.push object).sum weight = store.sum weight + weight object := by
  simp [sum, push]

end

theorem sum_cells_modify (cells : List (Option α)) (id : Nat) (change : α → α) (weight : α → Int) :
    ((cells.modify id (Option.map change)).map fun cell => cell.elim 0 weight).sum =
      (cells.map fun cell => cell.elim 0 weight).sum +
        ((cells[id]?).join.elim 0 fun object => weight (change object) - weight object) := by
  induction cells generalizing id with
  | nil => simp
  | cons cell rest ih =>
    cases id with
    | zero => cases cell <;> simp; ring
    | succ id =>
      simp only [modify_succ_cons, map_cons, sum_cons, ih, getElem?_cons_succ]
      ring

theorem sum_modify (store : Store α) (id : Nat) (change : α → α) (weight : α → Int)
    (found : store.get? id = some object) :
    (store.modify id change).sum weight =
      store.sum weight + (weight (change object) - weight object) := by
  have sums := sum_cells_modify store.cells id change weight
  unfold get? at found
  rw [found] at sums
  exact sums

theorem sum_modify_same (store : Store α) (id : Nat) (change : α → α) (weight : α → Int)
    (same : ∀ object, store.get? id = some object → weight (change object) = weight object) :
    (store.modify id change).sum weight = store.sum weight := by
  cases found : store.get? id with
  | none =>
    have sums := sum_cells_modify store.cells id change weight
    unfold get? at found
    rw [found] at sums
    simpa [sum, modify] using sums
  | some object => rw [sum_modify store id change weight found, same object found]; ring

theorem sum_cells_erase (cells : List (Option α)) (id : Nat) (weight : α → Int) :
    ((cells.set id none).map fun cell => cell.elim 0 weight).sum =
      (cells.map fun cell => cell.elim 0 weight).sum - (cells[id]?).join.elim 0 weight := by
  induction cells generalizing id with
  | nil => simp
  | cons cell rest ih =>
    cases id with
    | zero => cases cell <;> simp
    | succ id =>
      simp only [set_cons_succ, map_cons, sum_cons, ih, getElem?_cons_succ]
      ring

theorem sum_erase (store : Store α) (id : Nat) (weight : α → Int)
    (found : store.get? id = some object) :
    (store.erase id).sum weight = store.sum weight - weight object := by
  have sums := sum_cells_erase store.cells id weight
  unfold get? at found
  rw [found] at sums
  exact sums

theorem le_sum (store : Store α) (weight : α → Int) (nonneg : ∀ object, 0 ≤ weight object)
    (found : store.get? id = some object) :
    weight object ≤ store.sum weight := by
  refine single_le_sum (fun value member => ?_) _ ?_
  · obtain ⟨cell, _, rfl⟩ := mem_map.mp member
    cases cell with
    | none => exact le_rfl
    | some other => exact nonneg other
  · unfold get? at found
    cases cell : store.cells[id]? with
    | none => simp [cell] at found
    | some content =>
      rw [cell, join_some] at found
      exact mem_map.mpr ⟨content, mem_of_getElem? cell, by rw [found]; rfl⟩

end Store
