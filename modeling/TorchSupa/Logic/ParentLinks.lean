import Mathlib.Data.List.Sort

/-!
A stack that is kept as a top element and a parent link for each element, and the greatest number
below a bound that passes a test.
-/

namespace ParentLinks

section Linked

variable {α : Type} {parent other : α → Option α} {top base : Option α} {list above below : List α}

def Linked (parent : α → Option α) : List α → Option α → Option α → Prop
  | [], top, base => top = base
  | one :: rest, top, base => top = some one ∧ Linked parent rest (parent one) base

theorem Linked.top_eq (linked : Linked parent list top base) : top = list.head?.or base := by
  cases list with
  | nil => exact linked
  | cons one rest => exact linked.1

theorem Linked.congr (same : ∀ one ∈ list, parent one = other one)
    (linked : Linked parent list top base) : Linked other list top base := by
  induction list generalizing top with
  | nil => exact linked
  | cons one rest ih =>
    refine ⟨linked.1, ?_⟩
    rw [← same one (.head _)]
    exact ih (fun later there => same later (.tail _ there)) linked.2

theorem Linked.drop {one : α} (linked : Linked parent (above ++ one :: below) top base) :
    Linked parent below (parent one) base := by
  induction above generalizing top with
  | nil => exact linked.2
  | cons first rest ih => exact ih linked.2

end Linked

section Falling

open List

theorem length_le_of_falling {first : Nat} {rest : List Nat}
    (falling : (first :: rest).Pairwise (· > ·)) : rest.length ≤ first := by
  induction rest generalizing first with
  | nil => simp
  | cons second rest ih =>
    have down : second < first := (pairwise_cons.mp falling).1 second (.head _)
    have shorter := ih (pairwise_cons.mp falling).2
    simp only [length_cons]
    omega

theorem falling_range (bound : Nat) : (List.range bound).reverse.Pairwise (· > ·) := by
  simpa [pairwise_reverse] using pairwise_lt_range

theorem head?_of_falling {list : List Nat} {bound : Nat} {test : Nat → Bool}
    (falling : list.Pairwise (· > ·))
    (members : ∀ one, one ∈ list ↔ one < bound ∧ test one = true) :
    list.head? = (List.range bound).reverse.find? test := by
  have same : list = (List.range bound).reverse.filter test := by
    refine List.Perm.eq_of_pairwise (fun a b _ _ more less => ?_) falling
      ((falling_range bound).filter _) ?_
    · omega
    · apply (perm_ext_iff_of_nodup _ _).mpr
      · intro one
        simp [members]
      · exact falling.imp fun more => Nat.ne_of_gt more
      · exact ((falling_range bound).filter _).imp fun more => Nat.ne_of_gt more
  rw [same, head?_filter]

end Falling

end ParentLinks
