import Mathlib.Data.List.Basic

/-!
What `mapM` returns where an element may fail, and the elements of a list with one more.
-/

namespace Lists

open List Nat

section Excepts

variable {α β ε : Type} {f : α → Except ε β}

theorem ok_bind (value : α) (next : α → Except ε β) : (Except.ok value >>= next) = next value := rfl

theorem mapM_ok {g : α → β} : ∀ {list : List α}, (∀ one ∈ list, f one = .ok (g one)) →
    list.mapM f = .ok (list.map g) := by
  intro list
  induction list with
  | nil =>
    intro _
    rfl
  | cons first rest ih =>
    intro each
    rw [mapM_cons, each first (.head _), ih fun one there => each one (.tail _ there)]
    rfl

theorem mapM_error : ∀ {list : List α} {one : α}, one ∈ list → (∃ fault, f one = .error fault) →
    ∃ fault, list.mapM f = .error fault := by
  intro list one there fails
  induction list with
  | nil => cases there
  | cons first rest ih =>
    rw [mapM_cons]
    cases made : f first with
    | error fault => exact ⟨fault, rfl⟩
    | ok result =>
      rcases mem_cons.mp there with rfl | later
      · obtain ⟨fault, failed⟩ := fails
        rw [failed] at made
        cases made
      · obtain ⟨fault, failed⟩ := ih later
        rw [failed]
        exact ⟨fault, rfl⟩

end Excepts

section Options

variable {α β : Type} {f : α → Option β}

variable (f) in
theorem mapM_option (xs : List α) : (xs.mapM f = none ↔ ∃ x ∈ xs, f x = none) ∧
      ∀ ys, xs.mapM f = some ys → ys.length = xs.length := by
  induction xs with
  | nil => simp
  | cons x xs ih =>
    simp only [mapM_cons]
    cases found : f x with
    | none => simp [found]
    | some y =>
      cases rest : xs.mapM f with
      | none => simpa [found, rest] using ih.1.mp rest
      | some ys =>
        have none' : ¬ ∃ x ∈ xs, f x = none := by simp [← ih.1, rest]
        push Not at none'
        simpa [found, rest] using ⟨none', ih.2 ys rest⟩

theorem mapM_getElem? : ∀ {list : List α} {results : List β}, list.mapM f = some results →
    ∀ rank : Nat, (∀ one, list[rank]? = some one → ∃ result, results[rank]? = some result ∧
        f one = some result) ∧
      ∀ result, results[rank]? = some result → ∃ one, list[rank]? = some one ∧
        f one = some result := by
  intro list
  induction list with
  | nil =>
    intro results collected rank
    cases collected
    constructor
    · intro one there
      cases there
    · intro result there
      cases there
  | cons first rest ih =>
    intro results collected rank
    rw [mapM_cons] at collected
    obtain ⟨result, made, collected⟩ := Option.bind_eq_some_iff.mp collected
    obtain ⟨more, others, same⟩ := Option.bind_eq_some_iff.mp collected
    cases same
    cases rank with
    | zero =>
      refine ⟨fun one there => ⟨result, rfl, ?_⟩, fun other there => ⟨first, rfl, ?_⟩⟩
      · exact Option.some.inj there ▸ made
      · exact Option.some.inj there ▸ made
    | succ rank => exact ih others rank

theorem mem_of_lookup [BEq α] [LawfulBEq α] {list : List (α × β)} {key : α} {value : β}
    (found : list.lookup key = some value) : (key, value) ∈ list := by
  obtain ⟨before, after, rfl, _⟩ := lookup_eq_some_iff.mp found
  exact mem_append_right _ (.head _)

end Options

variable {α : Type} {list : List α}

theorem getElem?_concat {front : List α} {last value : α} {i : Nat} :
    (front ++ [last])[i]? = some value ↔
      front[i]? = some value ∨ i = front.length ∧ value = last := by
  rw [getElem?_append]
  split
  · next inside =>
      constructor
      · exact .inl
      · rintro (there | ⟨rfl, _⟩)
        · exact there
        · exact absurd inside (Nat.lt_irrefl _)
  · next outside =>
      rw [getElem?_eq_none (Nat.not_lt.mp outside)]
      rcases Nat.eq_or_lt_of_le (Nat.not_lt.mp outside) with here | beyond
      · simp [← here, eq_comm]
      · have far : i - front.length ≠ 0 := by omega
        simp [far]
        omega

theorem filter_mergeSort {le : α → α → Bool}
    (trans : ∀ one other third, le one other → le other third → le one third)
    (total : ∀ one other, le one other || le other one) {keep : α → Bool}
    (sorted : (list.filter keep).Pairwise (le · ·)) :
    (list.mergeSort le).filter keep = list.filter keep := by
  have sub := (sublist_mergeSort trans total sorted filter_sublist).filter keep
  rw [filter_filter] at sub
  simp only [Bool.and_self] at sub
  exact (sub.eq_of_length ((mergeSort_perm list le).filter keep).length_eq.symm).symm

theorem filter_append_filter {first : α → Bool}
    (ordered : list.Pairwise fun one other => first other → first one) :
    list = list.filter first ++ list.filter (!first ·) := by
  induction list with
  | nil => rfl
  | cons one later ih =>
    obtain ⟨here, rest⟩ := pairwise_cons.mp ordered
    cases is : first one with
    | true => simpa [is] using ih rest
    | false =>
      have none' : later.filter first = [] := by
        rw [filter_eq_nil_iff]
        intro other member holds
        rw [here other member holds] at is
        cases is
      have all : later.filter (!first ·) = later := by
        have same := ih rest
        rw [none', nil_append] at same
        exact same.symm
      simp [is, none', all]

theorem filter_flatMap_zipIdx {β : Type} {f : α × Nat → List β} (place : β → Nat)
    (placed : ∀ one i, ∀ other ∈ f (one, i), place other = i) :
    ∀ {list : List α} (start : Nat) {i : Nat} {one : α}, list[i]? = some one →
      ((list.zipIdx start).flatMap f).filter (place · == start + i) = f (one, start + i) := by
  intro list
  induction list with
  | nil => simp
  | cons first later ih =>
    intro start i one at_
    rw [zipIdx_cons, flatMap_cons, filter_append]
    cases i with
    | zero =>
      obtain rfl : first = one := by simpa using at_
      have here : (f (first, start)).filter (place · == start) = f (first, start) :=
        filter_eq_self.mpr fun other member => by simp [placed _ _ _ member]
      have behind : ((later.zipIdx (start + 1)).flatMap f).filter (place · == start) = [] := by
        rw [filter_eq_nil_iff]
        intro other member
        obtain ⟨⟨one, i⟩, from_, member⟩ := mem_flatMap.mp member
        have bound := (mem_zipIdx from_).1
        rw [placed _ _ _ member]
        simp only [beq_iff_eq]
        omega
      simp only [Nat.add_zero, here, behind, append_nil]
    | succ i =>
      have here : (f (first, start)).filter (place · == start + (i + 1)) = [] := by
        rw [filter_eq_nil_iff]
        intro other member
        rw [placed _ _ _ member]
        simp only [beq_iff_eq]
        omega
      rw [here, nil_append, ← Nat.add_assoc, Nat.add_right_comm]
      exact ih (start + 1) (by simpa using at_)

end Lists
