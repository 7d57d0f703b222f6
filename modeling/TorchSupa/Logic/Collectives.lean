import Mathlib.Data.List.Basic

/-!
Programs that run on several ranks and meet in collective exchanges, in each of which every rank
reads what all of them brought.
-/

namespace Collectives

variable {μ α : Type}

inductive Program (μ α : Type)
  | done (value : α)
  | gather (mine : μ) (next : List μ → Program μ α)

inductive Runs (size : Nat) : (Nat → Program μ α) → (Nat → α) → Prop
  | done {programs : Nat → Program μ α} {results : Nat → α}
      (ends : ∀ rank < size, programs rank = .done (results rank)) : Runs size programs results
  | gather {programs : Nat → Program μ α} {results : Nat → α} {mine : Nat → μ}
      {next : Nat → List μ → Program μ α}
      (meet : ∀ rank < size, programs rank = .gather (mine rank) (next rank))
      (later : Runs size (fun rank => next rank ((List.range size).map mine)) results) :
      Runs size programs results

theorem Runs.unique {size : Nat} {programs other : Nat → Program μ α} {results results' : Nat → α}
    (runs : Runs size programs results) (also : Runs size other results')
    (same : ∀ rank < size, programs rank = other rank) :
    ∀ rank < size, results rank = results' rank := by
  induction runs generalizing other with
  | done ends =>
    intro rank below
    cases also with
    | done ends' =>
      have equal := (ends rank below).symm.trans ((same rank below).trans (ends' rank below))
      exact Program.done.inj equal
    | gather meet _ =>
      have equal := (ends rank below).symm.trans ((same rank below).trans (meet rank below))
      cases equal
  | gather meet later ih =>
    intro rank below
    cases also with
    | done ends' =>
      have equal := (meet rank below).symm.trans ((same rank below).trans (ends' rank below))
      cases equal
    | gather meet' later' =>
      have brought (rank : Nat) (below : rank < size) := Program.gather.inj
        ((meet rank below).symm.trans ((same rank below).trans (meet' rank below)))
      refine ih later' (fun rank below => ?_) rank below
      refine (congrFun (brought rank below).2 _).trans (congrArg _ ?_)
      apply List.map_congr_left
      intro rank there
      exact (brought rank (List.mem_range.mp there)).1

end Collectives
