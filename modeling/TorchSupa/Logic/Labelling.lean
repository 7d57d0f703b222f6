import Mathlib.Order.WellFounded

/-!
Labels of the vertices of a graph whose order is well founded, where each vertex takes the label of
a smaller neighbour if it has one, and a new label if not. They tell the connected components apart
if and only if only the least vertex of a component has no smaller neighbour.
-/

namespace Labelling

variable {α ℓ : Type} [LinearOrder α]

def Root (edge : α → α → Prop) (vertex : α) : Prop :=
  ∀ smaller < vertex, ¬edge smaller vertex

structure Descends (present : α → Prop) (edge : α → α → Prop) (label : α → ℓ) : Prop where
  ends : ∀ {low high}, edge low high → present low ∧ present high
  down : ∀ {vertex}, present vertex → ¬Root edge vertex →
    ∃ smaller < vertex, edge smaller vertex ∧ label smaller = label vertex
  fresh : ∀ {one other}, present one → present other → Root edge one → Root edge other →
    label one = label other → one = other

variable {present : α → Prop} {edge : α → α → Prop} {label : α → ℓ}

theorem Descends.root [WellFoundedLT α] (descends : Descends present edge label) {vertex : α}
    (here : present vertex) : ∃ root ≤ vertex, present root ∧ Root edge root ∧
      label root = label vertex ∧ Relation.EqvGen edge root vertex := by
  induction vertex using WellFoundedLT.induction with
  | ind vertex ih =>
    by_cases isRoot : Root edge vertex
    · exact ⟨vertex, le_refl _, here, isRoot, rfl, .refl _⟩
    · obtain ⟨smaller, less, joined, same⟩ := descends.down here isRoot
      obtain ⟨root, below, also, isRoot, named, reached⟩ := ih smaller less (descends.ends joined).1
      refine ⟨root, below.trans less.le, also, isRoot, named.trans same, ?_⟩
      exact reached.trans _ _ _ (.rel _ _ joined)

theorem Descends.separates_iff [WellFoundedLT α] (descends : Descends present edge label) :
    (∀ one other, present one → present other →
      (label one = label other ↔ Relation.EqvGen edge one other)) ↔
      ∀ low high, present low → present high → low < high → Relation.EqvGen edge low high →
        ¬Root edge high := by
  constructor
  · intro separates low high atLow atHigh less connected isRoot
    obtain ⟨root, below, here, alsoRoot, named, reached⟩ := descends.root atLow
    have same : label root = label high :=
      named.trans ((separates low high atLow atHigh).mpr connected)
    have equal := descends.fresh here atHigh alsoRoot isRoot same
    exact absurd (equal ▸ below) (not_le.mpr less)
  · intro single one other atOne atOther
    obtain ⟨root, _, here, isRoot, named, reached⟩ := descends.root atOne
    obtain ⟨root', _, here', isRoot', named', reached'⟩ := descends.root atOther
    constructor
    · intro same
      have equal : root = root' := descends.fresh here here' isRoot isRoot'
        (named.trans (same.trans named'.symm))
      subst equal
      exact .trans _ _ _ (.symm _ _ reached) reached'
    · intro connected
      have joined : Relation.EqvGen edge root root' :=
        .trans _ _ _ reached (.trans _ _ _ connected (.symm _ _ reached'))
      have equal : root = root' := by
        rcases lt_trichotomy root root' with less | equal | greater
        · exact absurd isRoot' (single root root' here here' less joined)
        · exact equal
        · exact absurd isRoot (single root' root here' here greater (.symm _ _ joined))
      rw [← named, ← named', equal]

end Labelling
