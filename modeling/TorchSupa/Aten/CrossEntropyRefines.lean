import TorchSupa.Aten.CrossEntropyRows
import TorchSupa.Logic.GridStride

/-!
On which calls the fast path gives what the logarithm of the softmax and the negative log
likelihood give one after the other.
-/

namespace TorchSupa.Aten.CrossEntropy

open Reduction Lists List Nat

variable {runtime : Runtime} {problem : Problem ℝ}

def Valid (problem : Problem ℝ) : Prop :=
  ∀ row, row < problem.rows → problem.target row = problem.ignoreIndex ∨
    0 ≤ problem.target row ∧ problem.target row < problem.classes

def usesNoignore (problem : Problem ℝ) : Prop :=
  problem.reduction = .none ∧ problem.classes = 32 ∧ 8 ≤ problem.rows ∧ problem.ignoreIndex < 0

structure Computes (runtime : Runtime) (problem : Problem ℝ) : Prop where
  few : problem.rows ≤ 2147483647
  grids : problem.rows ≠ 0 ∨ runtime.acceptsEmptyGrid = true
  tested : usesNoignore problem → problem.rows ≤ 2 ^ 26 ∧
    ∀ row, row < problem.rows → problem.target row ≠ problem.ignoreIndex

section Grids

variable {perBlock : Nat} {β : Type}

theorem rowsOf_eq {rows : Nat} (positive : 0 < perBlock) :
    rowsOf rows perBlock (blocksFor rows perBlock) = List.range rows := by
  have covers : rows ≤ blocksFor rows perBlock * perBlock := by
    unfold blocksFor
    have divided := Nat.div_add_mod (rows + perBlock - 1) perBlock
    have remainder := Nat.mod_lt (rows + perBlock - 1) positive
    rw [Nat.mul_comm]
    omega
  obtain ⟨more, total⟩ := Nat.exists_eq_add_of_le covers
  unfold rowsOf
  rw [GridStride.flatMap_blocks, total, range_add, filter_append]
  have kept : (range rows).filter (· < rows) = range rows := by
    refine filter_eq_self.mpr fun row there => ?_
    exact decide_eq_true (mem_range.mp there)
  have dropped : ((range more).map (rows + ·)).filter (· < rows) = [] := by
    refine filter_eq_nil_iff.mpr fun row there => ?_
    obtain ⟨beyond, _, rfl⟩ := mem_map.mp there
    rw [decide_eq_true_eq]
    omega
  rw [kept, dropped, append_nil]

theorem blocksFor_eq_zero {rows : Nat} (positive : 0 < perBlock) :
    blocksFor rows perBlock = 0 ↔ rows = 0 := by
  unfold blocksFor
  rw [Nat.div_eq_zero_iff]
  omega

theorem lookup_pairs (value : Nat → β) : ∀ {list : List Nat} {key : Nat}, key ∈ list →
    (list.map fun one => (one, value one)).lookup key = some (value key) := by
  intro list key there
  induction list with
  | nil => cases there
  | cons first rest ih =>
    rw [map_cons, lookup_cons]
    by_cases same : key = first
    · subst same
      rw [beq_self_eq_true]
    · rw [beq_false_of_ne same]
      exact ih ((mem_cons.mp there).resolve_left same)

theorem launch_ok {blocks : Nat} {body : Except Fault β}
    (grids : blocks ≠ 0 ∨ runtime.acceptsEmptyGrid = true) : launch runtime blocks body = body := by
  refine if_neg fun refused => ?_
  rcases grids with some_ | accepts
  · exact some_ refused.1
  · exact absurd (accepts.symm.trans refused.2) (by decide)

variable {body : Nat → Except Fault (Option ℝ)}

theorem noneKernel_ok {value : Nat → Option ℝ} (positive : 0 < perBlock)
    (grids : problem.rows ≠ 0 ∨ runtime.acceptsEmptyGrid = true)
    (each : ∀ row, row < problem.rows → body row = .ok (value row)) :
    noneKernel runtime problem perBlock body =
      .ok (.rows ((List.range problem.rows).map fun row => some ((value row).getD 0))) := by
  have written : (rowsOf problem.rows perBlock (blocksFor problem.rows perBlock)).mapM (fun row => do
      let loss ← body row
      pure (row, loss.getD 0)) =
      .ok ((range problem.rows).map fun row => (row, (value row).getD 0)) := by
    rw [rowsOf_eq positive]
    refine mapM_ok fun row there => ?_
    rw [each row (mem_range.mp there)]
    rfl
  unfold noneKernel
  dsimp only
  rw [launch_ok (grids.imp_left fun some_ none_ => some_ ((blocksFor_eq_zero positive).mp none_)),
    written]
  refine congrArg (fun rows => Except.ok (Output.rows rows)) (map_congr_left fun row there => ?_)
  exact lookup_pairs (fun row => (value row).getD 0) there

theorem noneKernel_error {row : Nat} (positive : 0 < perBlock) (inside : row < problem.rows)
    (fails : ∃ fault, body row = .error fault) :
    ∃ fault, noneKernel runtime problem perBlock body = .error fault := by
  obtain ⟨fault, failed⟩ := fails
  have stops : ∃ fault, (rowsOf problem.rows perBlock (blocksFor problem.rows perBlock)).mapM
      (fun row => do
        let loss ← body row
        pure (row, loss.getD 0)) = .error fault := by
    rw [rowsOf_eq positive]
    refine mapM_error (mem_range.mpr inside) ⟨fault, ?_⟩
    rw [failed]
    rfl
  obtain ⟨fault, stopped⟩ := stops
  unfold noneKernel
  dsimp only
  rw [launch_ok (.inl fun none_ => by
    rw [blocksFor_eq_zero positive] at none_
    omega), stopped]
  exact ⟨fault, rfl⟩

theorem noneKernel_empty (positive : 0 < perBlock) (none_ : problem.rows = 0)
    (refuses : runtime.acceptsEmptyGrid = false) :
    noneKernel runtime problem perBlock body = .error .invalidConfiguration := by
  unfold noneKernel launch
  dsimp only
  rw [if_pos ⟨(blocksFor_eq_zero positive).mpr none_, refuses⟩]
  rfl

end Grids

section Scalars

variable {row : Nat}

theorem Valid.counts (valid : Valid problem) (inside : row < problem.rows)
    (different : problem.target row ≠ problem.ignoreIndex) : Counts problem row := by
  obtain ⟨nonneg, below⟩ := (valid row inside).resolve_left different
  exact ⟨inside, nonneg, below⟩

noncomputable def testedLoss (problem : Problem ℝ) (row : Nat) : Option ℝ :=
  if problem.target row = problem.ignoreIndex then none
  else some (rowLoss realFunctions problem row)

theorem testedLoss_getD (problem : Problem ℝ) (row : Nat) : (testedLoss problem row).getD 0 = rowLoss realFunctions problem row := by
  unfold testedLoss
  split
  · next ignored =>
      unfold rowLoss
      rw [if_pos ignored]
      rfl
  · rfl

theorem indexRow_tested (logThreads : Nat) (valid : Valid problem) (inside : row < problem.rows) :
    indexRow realFunctions problem logThreads row = .ok (testedLoss problem row) := by
  unfold testedLoss
  split
  · next ignored => exact indexRow_ignored logThreads inside ignored
  · next different => exact indexRow_counts logThreads (valid.counts inside different) different

theorem indexKernel_ok (valid : Valid problem)
    (grids : problem.rows ≠ 0 ∨ runtime.acceptsEmptyGrid = true) :
    ∃ count, indexKernel runtime realFunctions problem =
      .ok (((List.range problem.rows).map (rowLoss realFunctions problem)).sum, count) := by
  have adds : ∀ (rows : List Nat) (sums : ℝ × ℝ), (∀ row ∈ rows, row < problem.rows) →
      ∃ count, rows.foldlM (fun sums row => do
        let loss ← indexRow realFunctions problem 8 row
        pure (accumulate problem sums loss)) sums =
        (.ok (sums.1 + (rows.map (rowLoss realFunctions problem)).sum, count) :
          Except Fault (ℝ × ℝ)) := by
    intro rows
    induction rows with
    | nil =>
      intro sums _
      exact ⟨sums.2, by rw [map_nil, sum_nil, add_zero]; rfl⟩
    | cons row rest ih =>
      intro sums inside
      rw [foldlM_cons, indexRow_tested 8 valid (inside row (.head _)), map_cons,
        sum_cons, ← testedLoss_getD problem row, ← add_assoc]
      have later := fun sums => ih sums fun other there => inside other (.tail _ there)
      cases testedLoss problem row with
      | none =>
        obtain ⟨count, ends⟩ := later sums
        exact ⟨count, ends.trans (by rw [Option.getD_none, add_zero])⟩
      | some loss => exact later (sums.1 + loss, _)
  have perm := runtime.schedulePerm problem.rows
  obtain ⟨count, ends⟩ := adds (runtime.schedule problem.rows) (0, 0) fun row there =>
    mem_range.mp (perm.mem_iff.mp there)
  refine ⟨count, ?_⟩
  unfold indexKernel
  rw [launch_ok grids, ends, zero_add, (perm.map _).sum_eq]

noncomputable def buffered (problem : Problem ℝ) (row : Nat) : ℝ × ℝ :=
  match testedLoss problem row with
  | none => (0, 0)
  | some loss => (loss, 1)

theorem indexMeanKernel_ok (valid : Valid problem)
    (grids : problem.rows ≠ 0 ∨ runtime.acceptsEmptyGrid = true) :
    indexMeanKernel runtime realFunctions problem =
      .ok ((List.range problem.rows).map (buffered problem)) := by
  unfold indexMeanKernel
  rw [launch_ok grids]
  refine mapM_ok fun row there => ?_
  rw [indexRow_tested 8 valid (mem_range.mp there)]
  unfold buffered
  cases testedLoss problem row <;> rfl

theorem tree_buffer (select : ℝ × ℝ → ℝ) :
    tree (· + ·) (halvings 8) (fun thread => ((strided thread 256 problem.rows).map fun row =>
      select (((List.range problem.rows).map (buffered problem)).getD row (0, 0))).foldl (· + ·) 0) 0 =
      ((List.range problem.rows).map fun row => select (buffered problem row)).sum := by
  change _ = total (· + ·) 0 ((range problem.rows).map fun row =>
    select (buffered problem row))
  rw [tree_eq_total 8, ← total_strided problem.rows (show 0 < 256 by decide)]
  refine total_congr fun thread inside => ?_
  have folded : ∀ values : List ℝ, values.foldl (· + ·) 0 = 0 + total (· + ·) 0 values :=
    fun values => foldl_eq_total values 0
  rw [folded, zero_add]
  refine total_congr fun row there => ?_
  have below := ((mem_strided (by decide) (mem_range.mp inside)).mp there).1
  rw [getD_eq_getElem?_getD, getElem?_map, getElem?_range below]
  rfl

theorem finalize_ok : finalizeMeanBuffer problem ((List.range problem.rows).map (buffered problem)) =
    if (counted problem).length = 0 then none
    else some (((List.range problem.rows).map (rowLoss realFunctions problem)).sum /
      (counted problem).length) := by
  have losses : ((range problem.rows).map fun row => (buffered problem row).1).sum =
      ((range problem.rows).map (rowLoss realFunctions problem)).sum := by
    refine congrArg sum (map_congr_left fun row _ => ?_)
    rw [← testedLoss_getD]
    unfold buffered
    cases testedLoss problem row <;> rfl
  have counts : ((range problem.rows).map fun row => (buffered problem row).2).sum =
      ((counted problem).length : ℝ) := by
    unfold counted
    induction range problem.rows with
    | nil => exact cast_zero.symm
    | cons row rest ih =>
      rw [map_cons, sum_cons, ih]
      unfold buffered testedLoss
      by_cases ignored : problem.target row = problem.ignoreIndex
      · rw [if_pos ignored, filter_cons_of_neg (by simpa using ignored), zero_add]
      · rw [if_neg ignored, filter_cons_of_pos (by simpa using ignored), length_cons,
          cast_succ, add_comm]
  unfold finalizeMeanBuffer
  dsimp only
  rw [tree_buffer, tree_buffer, losses, counts]
  by_cases none_ : (counted problem).length = 0
  · rw [if_pos none_, none_, cast_zero, if_neg (lt_irrefl _)]
  · rw [if_neg none_, if_pos (cast_pos.mpr (pos_of_ne_zero none_))]

end Scalars

section Dispatch

variable {row : Nat}

theorem nllLoss_none (none_ : problem.reduction = .none) : nllLoss realFunctions problem =
      .rows ((List.range problem.rows).map fun row => some (rowLoss realFunctions problem row)) := by
  unfold nllLoss
  rw [none_]
  dsimp only
  rw [map_map]
  rfl

variable {body : Nat → Except Fault (Option ℝ)}

theorem noneKernel_refines {perBlock : Nat}
    (none_ : problem.reduction = .none) (positive : 0 < perBlock)
    (grids : problem.rows ≠ 0 ∨ runtime.acceptsEmptyGrid = true)
    (each : ∀ row, row < problem.rows → body row = .ok (testedLoss problem row)) :
    noneKernel runtime problem perBlock body = .ok (nllLoss realFunctions problem) := by
  rw [noneKernel_ok positive grids each, nllLoss_none none_]
  refine congrArg (fun rows => Except.ok (Output.rows rows)) (map_congr_left fun row _ => ?_)
  rw [testedLoss_getD]

structure Untested (problem : Problem ℝ) (body : Nat → Except Fault (Option ℝ)) : Prop where
  taken : ∀ row col, Taken problem row col → body row = .ok (some (lossOf problem row col))
  refused : ∀ row, row < problem.rows →
    ¬(0 ≤ toInt32 (problem.target row) ∧ toInt32 (problem.target row) < 32) →
    body row = .error .assertion

theorem Untested.tested (untested : Untested problem body)
    (valid : Valid problem) (classes : problem.classes = 32) (few : problem.rows ≤ 2 ^ 26)
    (inside : row < problem.rows) (different : problem.target row ≠ problem.ignoreIndex) :
    body row = .ok (testedLoss problem row) := by
  have counts := valid.counts inside different
  have nonneg := counts.nonneg
  have below := counts.below
  rw [classes] at below
  unfold testedLoss
  rw [if_neg different, rowLoss_eq different]
  refine untested.taken row _ ⟨classes, inside, by omega, ?_, by omega⟩
  rw [toInt32_of_small (by omega) (by omega), Int.toNat_of_nonneg nonneg]

theorem Untested.wrong {perBlock : Nat} (untested : Untested problem body) (positive : 0 < perBlock)
    (none_ : problem.reduction = .none) (classes : problem.classes = 32)
    (inside : row < problem.rows) (early : row < 2 ^ 26)
    (ignored : problem.target row = problem.ignoreIndex) :
    noneKernel runtime problem perBlock body ≠ .ok (nllLoss realFunctions problem) := by
  intro same
  have each : ∀ other, other < problem.rows → ∃ loss, body other = .ok loss := by
    intro other below
    cases made : body other with
    | ok loss => exact ⟨loss, rfl⟩
    | error fault =>
      obtain ⟨fault, failed⟩ : ∃ fault, noneKernel runtime problem perBlock body = .error fault :=
        noneKernel_error positive below ⟨fault, made⟩
      rw [failed] at same
      cases same
  have chosen : ∃ value : Nat → Option ℝ, ∀ other, other < problem.rows →
      body other = .ok (value other) := by
    refine ⟨fun other => (body other).toOption.getD none, fun other below => ?_⟩
    obtain ⟨loss, made⟩ := each other below
    dsimp only
    rw [made]
    rfl
  obtain ⟨value, each⟩ := chosen
  rw [noneKernel_ok positive (.inl (by omega)) each, nllLoss_none none_] at same
  have rows := Output.rows.inj (Except.ok.inj same)
  have equal := map_inj_left.mp rows row (mem_range.mpr inside)
  unfold rowLoss at equal
  rw [if_pos ignored] at equal
  by_cases taken : 0 ≤ toInt32 (problem.target row) ∧ toInt32 (problem.target row) < 32
  · obtain ⟨col, target⟩ := Int.eq_ofNat_of_zero_le taken.1
    have small : col < 32 := by omega
    have made := untested.taken row col ⟨classes, inside, early, target, small⟩
    rw [each row inside] at made
    rw [Except.ok.inj made] at equal
    exact absurd (Option.some.inj equal) (ne_of_gt (lossOf_pos classes small))
  · have failed := untested.refused row inside taken
    rw [each row inside] at failed
    cases failed

theorem halfwarp_untested : Untested problem (noignoreHalfwarpRow realFunctions problem) where
  taken _ _ taken := noignoreHalfwarpRow_taken taken
  refused _ inside outside := noignoreHalfwarpRow_refused inside outside

theorem quarterwarp_untested : Untested problem (noignoreQuarterwarpRow realFunctions problem) where
  taken _ _ taken := noignoreQuarterwarpRow_taken taken
  refused _ inside outside := noignoreQuarterwarpRow_refused inside outside

theorem index32Row_tested (valid : Valid problem) (classes : problem.classes = 32)
    (inside : row < problem.rows) :
    index32Row realFunctions problem row = .ok (testedLoss problem row) := by
  unfold testedLoss
  split
  · next ignored => exact index32Row_ignored inside ignored
  · next different => exact index32Row_counts classes (valid.counts inside different) different

theorem small32Row_tested (valid : Valid problem) (few : problem.classes ≤ 32)
    (inside : row < problem.rows) :
    small32Row realFunctions problem row = .ok (testedLoss problem row) := by
  unfold testedLoss
  split
  · next ignored => exact small32Row_ignored inside ignored
  · next different => exact small32Row_counts few (valid.counts inside different) different

theorem Computes.refines (computes : Computes runtime problem) (valid : Valid problem) :
    crossEntropyLoss2d runtime realFunctions problem = .ok (nllLoss realFunctions problem) := by
  have grids := computes.grids
  unfold crossEntropyLoss2d
  rw [if_neg (not_lt.mpr computes.few)]
  cases kind : problem.reduction with
  | none =>
    dsimp only
    split
    · split
      · next few =>
          split
          · next chosen =>
              obtain ⟨early, counted⟩ := computes.tested ⟨kind, chosen.1, few.2, chosen.2.1⟩
              split
              · exact noneKernel_refines kind (by decide) grids fun row inside =>
                  halfwarp_untested.tested valid chosen.1 early inside (counted row inside)
              · exact noneKernel_refines kind (by decide) grids fun row inside =>
                  quarterwarp_untested.tested valid chosen.1 early inside (counted row inside)
          · split
            · next classes =>
                exact noneKernel_refines kind (by decide) grids fun row inside =>
                  index32Row_tested valid classes inside
            · exact noneKernel_refines kind (by decide) grids fun row inside =>
                small32Row_tested valid few.1 inside
      · split
        · exact noneKernel_refines kind (by decide) grids fun row inside =>
            indexRow_tested 0 valid inside
        · exact noneKernel_refines kind (by decide) grids fun row inside =>
            indexRow_tested 5 valid inside
    · exact noneKernel_refines kind (by decide) grids fun row inside =>
        indexRow_tested 8 valid inside
  | mean =>
    dsimp only
    rw [indexMeanKernel_ok valid grids]
    change Except.ok (Output.scalar (finalizeMeanBuffer problem _)) = _
    rw [finalize_ok]
    unfold nllLoss
    rw [kind]
    dsimp only
    split <;> rfl
  | sum =>
    dsimp only
    obtain ⟨count, ends⟩ := indexKernel_ok valid grids
    rw [ends]
    unfold nllLoss
    rw [kind]
    rfl

theorem empty_refused (none_ : problem.rows = 0) (refuses : runtime.acceptsEmptyGrid = false) :
    crossEntropyLoss2d runtime realFunctions problem = .error .invalidConfiguration := by
  have launches : ∀ {β : Type} (body : Except Fault β),
      launch runtime problem.rows body = .error .invalidConfiguration :=
    fun _ => if_pos ⟨none_, refuses⟩
  have grids : ∀ {perBlock : Nat} {body : Nat → Except Fault (Option ℝ)}, 0 < perBlock →
      noneKernel runtime problem perBlock body = .error .invalidConfiguration :=
    fun positive => noneKernel_empty positive none_ refuses
  unfold crossEntropyLoss2d
  rw [if_neg (by omega)]
  cases kind : problem.reduction with
  | none =>
    dsimp only
    split
    · rw [if_neg (by omega), if_neg (by omega)]
      exact grids (by decide)
    · exact grids (by decide)
  | mean =>
    dsimp only
    unfold indexMeanKernel
    rw [launches]
    rfl
  | sum =>
    dsimp only
    unfold indexKernel
    rw [launches]
    rfl

theorem computes_of_refines (refines : crossEntropyLoss2d runtime realFunctions problem =
      .ok (nllLoss realFunctions problem)) : Computes runtime problem := by
  have few : problem.rows ≤ 2147483647 := by
    by_contra many
    unfold crossEntropyLoss2d at refines
    rw [if_pos (Nat.lt_of_not_le many)] at refines
    cases refines
  refine ⟨few, ?_, fun uses => ?_⟩
  · by_contra neither
    rw [not_or, not_not, Bool.not_eq_true] at neither
    rw [empty_refused neither.1 neither.2] at refines
    cases refines
  · obtain ⟨kind, classes, some_, negative⟩ := uses
    unfold crossEntropyLoss2d at refines
    rw [if_neg (not_lt.mpr few), kind] at refines
    dsimp only at refines
    rw [if_pos (by omega), if_pos ⟨by omega, some_⟩, if_pos ⟨classes, negative, few⟩] at refines
    have early : problem.rows ≤ 2 ^ 26 := by
      by_contra many
      have late := Nat.lt_of_not_le many
      rw [if_neg (by omega)] at refines
      obtain ⟨fault, failed⟩ : ∃ fault, noneKernel runtime problem 32
          (noignoreQuarterwarpRow realFunctions problem) = .error fault :=
        noneKernel_error (by decide) late (noignoreQuarterwarpRow_late late)
      rw [failed] at refines
      cases refines
    refine ⟨early, fun row inside ignored => ?_⟩
    split at refines
    · exact halfwarp_untested.wrong (by decide) kind classes inside (by omega) ignored refines
    · exact quarterwarp_untested.wrong (by decide) kind classes inside (by omega) ignored refines

end Dispatch

/-- Where the fast path is supported, it gives what the reference gives just if there are not too
many rows and, without a test for them, no targets to be ignored. -/
theorem cross_entropy_refines (runtime : Runtime) (arguments : Arguments ℝ)
    (supported : supportedFastPath arguments = true) (valid : Valid arguments.problem) :
    crossEntropyLossForward runtime realFunctions arguments =
      some (.ok (nllLoss realFunctions arguments.problem)) ↔ Computes runtime arguments.problem := by
  unfold crossEntropyLossForward
  rw [if_pos supported]
  constructor
  · intro same
    exact computes_of_refines (Option.some.inj same)
  · intro computes
    exact congrArg some (computes.refines valid)

section Inputs

def inOrder (accepts : Bool) : Runtime where
  acceptsEmptyGrid := accepts
  schedule := List.range
  schedulePerm _ := .refl _

def eightRows (last : Int) : Arguments ℝ where
  problem :=
    { input := fun _ => 0
      target := fun row => if row = 7 then last else row
      rows := 8
      classes := 32
      reduction := .none
      ignoreIndex := -100 }
  dim := 2
  scalarType := .float
  hasWeight := false
  smooths := false

theorem eightRows_valid {last : Int} (named : last = -100 ∨ 0 ≤ last ∧ last < 32) :
    Valid (eightRows last).problem := by
  intro row inside
  have inside : row < 8 := inside
  unfold eightRows
  dsimp only
  split
  · exact named
  · exact .inr ⟨Int.natCast_nonneg _, by omega⟩

theorem cross_entropy_refines_sample :
    crossEntropyLossForward (inOrder false) realFunctions (eightRows 7) =
      some (.ok (nllLoss realFunctions (eightRows 7).problem)) := by
  refine (cross_entropy_refines (inOrder false) (eightRows 7) rfl
    (eightRows_valid (.inr ⟨by decide, by decide⟩))).mpr
    ⟨by decide, .inl (by decide), fun _ => ⟨by decide, fun row inside ignored => ?_⟩⟩
  unfold eightRows at ignored
  dsimp only at ignored
  split at ignored
  · exact absurd ignored (by decide)
  · omega

/-- A target of -100, the usual one to be ignored, fails an assertion. -/
theorem cross_entropy_differs : ¬ ∀ (runtime : Runtime) (arguments : Arguments ℝ),
    supportedFastPath arguments = true → Valid arguments.problem →
    crossEntropyLossForward runtime realFunctions arguments =
      some (.ok (nllLoss realFunctions arguments.problem)) := by
  intro all
  have same := all (inOrder true) (eightRows (-100)) rfl (eightRows_valid (.inl rfl))
  have computes := computes_of_refines (Option.some.inj same)
  have tested := (computes.tested ⟨rfl, rfl, by decide, by decide⟩).2 7 (by decide)
  exact tested rfl

end Inputs

end TorchSupa.Aten.CrossEntropy
