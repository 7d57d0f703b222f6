import Mathlib.Data.List.Basic
import Mathlib.Algebra.Order.Group.Nat

/-!
A ring that is filled from the front and then overwritten at a cursor, against the list of all
that was ever put into it.
-/

structure RingBuffer (α : Type) where
  entries : List α := []
  next : Nat := 0
  count : Nat := 0
  capacity : Nat

namespace RingBuffer

open Nat

variable {α : Type}

def push (ring : RingBuffer α) (element : α) : RingBuffer α :=
  if ring.entries.length < ring.capacity then
    { ring with entries := ring.entries ++ [element], count := ring.count + 1 }
  else
    { ring with
      entries := ring.entries.set ring.next element
      next := if ring.next + 1 = ring.capacity then 0 else ring.next + 1
      count := ring.count + 1 }

def inOrder (ring : RingBuffer α) : List α :=
  ring.entries.drop ring.next ++ ring.entries.take ring.next

/-- The ring has the last elements of the history, each at the place that its number gives it. -/
structure Keeps (ring : RingBuffer α) (history : List α) : Prop where
  positive : 0 < ring.capacity
  counted : ring.count = history.length
  size : ring.entries.length = min history.length ring.capacity
  cursor : ring.next =
    if history.length < ring.capacity then 0 else history.length % ring.capacity
  kept : ∀ number < history.length, history.length ≤ number + ring.capacity →
    ring.entries[number % ring.capacity]? = history[number]?

theorem keeps_empty {capacity : Nat} (positive : 0 < capacity) :
    Keeps ({ capacity := capacity } : RingBuffer α) [] where
  positive := positive
  counted := rfl
  size := by simp
  cursor := by simp [positive]
  kept := by simp

theorem eq_of_place {capacity first second : Nat} (same : first % capacity = second % capacity)
    (below : first ≤ second) (near : second < first + capacity) : first = second := by
  have whole := div_add_mod first capacity
  have also := div_add_mod second capacity
  rw [same] at whole
  by_cases quotients : first / capacity = second / capacity
  · rw [quotients] at whole
    omega
  · have more : first / capacity + 1 ≤ second / capacity := by
      have := Nat.div_le_div_right (c := capacity) below
      omega
    have scaled := mul_le_mul_left capacity more
    rw [Nat.mul_add] at scaled
    omega

section Keeps

variable {ring : RingBuffer α} {history : List α}

theorem Keeps.cursor_lt (keeps : ring.Keeps history) : ring.next < ring.capacity := by
  rw [keeps.cursor]
  split
  · exact keeps.positive
  · exact mod_lt _ keeps.positive

theorem Keeps.next_le (keeps : ring.Keeps history) : ring.next ≤ ring.entries.length := by
  have size := keeps.size
  have below := keeps.cursor_lt
  have cursor := keeps.cursor
  split at cursor <;> omega

theorem Keeps.room (keeps : ring.Keeps history) :
    ring.entries.length < ring.capacity ∨ ring.next < ring.entries.length := by
  have size := keeps.size
  have below := keeps.cursor_lt
  omega

open List

section

variable (keeps : ring.Keeps history)
include keeps

theorem Keeps.push (element : α) : (ring.push element).Keeps (history ++ [element]) := by
  obtain ⟨positive, counted, size, cursor, kept⟩ := keeps
  have longer : (history ++ [element]).length = history.length + 1 := by simp
  unfold RingBuffer.push
  by_cases room : ring.entries.length < ring.capacity
  · have all : ring.entries.length = history.length := by omega
    rw [if_pos room]
    refine ⟨positive, by simp [counted], by simp; omega, ?_, ?_⟩
    · rw [if_pos (by omega)] at cursor
      dsimp only
      rw [cursor, longer]
      split
      · rfl
      · rw [show history.length + 1 = ring.capacity by omega, mod_self]
    · intro number below _
      dsimp only at below ⊢
      rw [longer] at below
      have place : number % ring.capacity = number := mod_eq_of_lt (by omega)
      rw [place]
      by_cases last : number = history.length
      · rw [getElem?_append_right (by omega), getElem?_append_right (by omega), all]
      · rw [getElem?_append_left (by omega), getElem?_append_left (by omega)]
        have found := kept number (by omega) (by omega)
        rwa [place] at found
  · have full : ring.entries.length = ring.capacity := by omega
    have past : ¬ history.length < ring.capacity := by omega
    rw [if_neg room]
    rw [if_neg past] at cursor
    refine ⟨positive, by simp [counted], by simp; omega, ?_, ?_⟩
    · dsimp only
      have later : ¬ history.length + 1 < ring.capacity := by omega
      rw [longer, if_neg later, add_mod, ← cursor]
      split
      · next last => rw [add_mod_mod, last, mod_self]
      · have below := mod_lt history.length positive
        rw [add_mod_mod, mod_eq_of_lt (by omega)]
    · intro number below near
      dsimp only at near ⊢
      rw [longer] at below near
      by_cases last : number = history.length
      · have inside := mod_lt history.length positive
        rw [last, cursor, getElem?_set_self (by omega), getElem?_append_right (by omega)]
        simp
      · rw [getElem?_set_ne, getElem?_append_left (by omega)]
        · exact kept number (by omega) (by omega)
        · intro same
          rw [cursor] at same
          exact last (eq_of_place same.symm (by omega) (by omega))

theorem Keeps.found {place : Nat} {element : α} (here : ring.entries[place]? = some element) :
    ∃ number < history.length, history.length ≤ number + ring.capacity ∧
      number % ring.capacity = place ∧ history[number]? = some element := by
  have inside : place < ring.entries.length := by
    by_contra outside
    rw [getElem?_eq_none (by omega)] at here
    cases here
  have sized := keeps.size
  have exists_number : ∃ number < history.length, history.length ≤ number + ring.capacity ∧
      number % ring.capacity = place := by
    by_cases filling : history.length < ring.capacity
    · exact ⟨place, by omega, by omega, mod_eq_of_lt (by omega)⟩
    · -- the last number of the place below the length of the history
      have whole := div_add_mod history.length ring.capacity
      have residue := mod_lt history.length keeps.positive
      by_cases before : place < history.length % ring.capacity
      · refine ⟨ring.capacity * (history.length / ring.capacity) + place, by omega, by omega, ?_⟩
        rw [mul_add_mod]
        exact mod_eq_of_lt (by omega)
      · have turns : 1 ≤ history.length / ring.capacity :=
          (one_le_div_iff keeps.positive).mpr (by omega)
        have split : ring.capacity * (history.length / ring.capacity) =
            ring.capacity * (history.length / ring.capacity - 1) + ring.capacity := by
          rw [← mul_succ]
          congr 1
          omega
        refine ⟨ring.capacity * (history.length / ring.capacity - 1) + place, by omega, by omega,
          ?_⟩
        rw [mul_add_mod]
        exact mod_eq_of_lt (by omega)
  obtain ⟨number, below, near, same⟩ := exists_number
  refine ⟨number, below, near, same, ?_⟩
  rw [← keeps.kept number below near, same, here]

theorem Keeps.inOrder :
    ring.inOrder = history.drop (history.length - ring.capacity) := by
  have sized := keeps.size
  have placed := keeps.cursor
  have below := keeps.cursor_lt
  apply ext_getElem?
  intro index
  rw [RingBuffer.inOrder, getElem?_append, length_drop, getElem?_drop, getElem?_drop, getElem?_take]
  by_cases inside : index < ring.entries.length
  · have found := keeps.kept (history.length - ring.capacity + index) (by omega) (by omega)
    rw [← found]
    by_cases filling : history.length < ring.capacity
    · rw [if_pos filling] at placed
      have none_before : history.length - ring.capacity = 0 := by omega
      rw [placed, none_before, if_pos (by omega), zero_add, mod_eq_of_lt (by omega)]
    · rw [if_neg filling] at placed
      have place : (history.length - ring.capacity + index) % ring.capacity =
          (ring.next + index) % ring.capacity := by
        rw [placed, mod_add_mod, ← add_mod_right]
        congr 1
        omega
      rw [place]
      split
      · rw [mod_eq_of_lt (by omega)]
      · rw [if_pos (by omega), mod_eq_sub_mod (by omega), mod_eq_of_lt (by omega)]
        congr 1
        omega
  · have outside : history.length ≤ history.length - ring.capacity + index := by omega
    have none_left : ¬ index < ring.entries.length - ring.next := by omega
    have reach := keeps.next_le
    have none_right : ¬ index - (ring.entries.length - ring.next) < ring.next := by omega
    rw [if_neg none_left, if_neg none_right, getElem?_eq_none outside]

theorem Keeps.modify {number : Nat} (below : number < history.length)
    (near : history.length ≤ number + ring.capacity) (change : α → α) :
    Keeps { ring with entries := ring.entries.modify (number % ring.capacity) change }
      (history.modify number change) := by
  obtain ⟨positive, counted, size, cursor, kept⟩ := keeps
  refine ⟨positive, by simpa using counted, by simpa using size, by simpa using cursor, ?_⟩
  intro other otherBelow otherNear
  dsimp only at otherNear ⊢
  rw [length_modify] at otherBelow otherNear
  rw [getElem?_modify, getElem?_modify, kept other otherBelow otherNear]
  by_cases same : number = other
  · simp [same]
  · have apart : number % ring.capacity ≠ other % ring.capacity := by
      intro place
      rcases le_total number other with first | second
      · exact same (eq_of_place place first (by omega))
      · exact same (eq_of_place place.symm second (by omega)).symm
    simp [same, apart]

theorem Keeps.resize {capacity : Nat} (positive : 0 < capacity) (fits : capacity = ring.capacity ∨
      history.length ≤ ring.capacity ∧ history.length ≤ capacity) :
    Keeps { ring with capacity } history := by
  rcases fits with same | ⟨old, new⟩
  · rw [same]
    exact keeps
  · obtain ⟨-, counted, size, cursor, kept⟩ := keeps
    have home : ring.next = 0 := by
      rw [cursor]
      split
      · rfl
      · rw [show history.length = ring.capacity by omega, mod_self]
    refine ⟨positive, counted, by dsimp only; omega, ?_, ?_⟩
    · dsimp only
      rw [home]
      split
      · rfl
      · rw [show history.length = capacity by omega, mod_self]
    · intro number below _
      have found := kept number below (by omega)
      rw [mod_eq_of_lt (by omega)] at found
      dsimp only
      rwa [mod_eq_of_lt (by omega)]

end

/-- The number of each element is its place in the history. -/
def Numbered (number : α → Nat) (history : List α) : Prop :=
  ∀ place element, history[place]? = some element → number element = place

variable {number : α → Nat}

theorem numbered_nil : Numbered number [] := by simp [Numbered]

variable {element : α}

theorem Numbered.push (numbered : Numbered number history)
    (last : number element = history.length) : Numbered number (history ++ [element]) := by
  intro place other found
  rw [getElem?_append] at found
  split at found
  · exact numbered place other found
  · obtain ⟨first, rfl⟩ := List.getElem?_eq_some_iff.mp found
    rw [length_singleton] at first
    rw [getElem_singleton]
    omega

theorem Numbered.modify (numbered : Numbered number history) {change : α → α}
    (old : history[number element]? = some element)
    (same : number (change element) = number element) :
    Numbered number (history.modify (number element) change) := by
  intro place other found
  rw [getElem?_modify] at found
  by_cases own : number element = place
  · subst own
    rw [old] at found
    simp only [if_true, Option.map_eq_map, Option.map_some, Option.some.injEq] at found
    rw [← found, same]
  · simp only [own, if_false, Option.map_eq_map, Option.map_id'] at found
    exact numbered place other found

theorem Keeps.found_numbered (keeps : ring.Keeps history) (numbered : Numbered number history)
    {place : Nat} (here : ring.entries[place]? = some element) :
    number element < history.length ∧ history.length ≤ number element + ring.capacity ∧
      number element % ring.capacity = place ∧ history[number element]? = some element := by
  obtain ⟨own, below, near, same, old⟩ := keeps.found here
  obtain rfl := numbered own element old
  exact ⟨below, near, same, old⟩

theorem Keeps.set (keeps : ring.Keeps history) (numbered : Numbered number history)
    (here : ring.entries[number element % ring.capacity]? = some element) (change : α → α) :
    Keeps { ring with
        entries := ring.entries.set (number element % ring.capacity) (change element) }
      (history.modify (number element) change) := by
  obtain ⟨below, near, _, _⟩ := keeps.found_numbered numbered here
  have agree : ring.entries.set (number element % ring.capacity) (change element) =
      ring.entries.modify (number element % ring.capacity) change := by
    apply ext_getElem?
    intro index
    rw [getElem?_set, getElem?_modify]
    by_cases at_ : number element % ring.capacity = index
    · subst at_
      obtain ⟨inside, value⟩ := List.getElem?_eq_some_iff.mp here
      simp [inside, value]
    · simp [at_]
  rw [agree]
  exact keeps.modify below near change

end Keeps

end RingBuffer
