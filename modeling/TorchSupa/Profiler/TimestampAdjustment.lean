import TorchSupa.Logic.MachineIntegers
import Mathlib.Data.List.Basic

/-!
`adjust_timestamps`. A root of `build_tree` is a tree here, with the children of an event in the
order of `children_`. Sums of `int64_t` are sums of integers; `std::accumulate` starts at the `int`
literal `0`, so what it keeps after each child is an `int`.
-/

namespace TorchSupa.Profiler.Adjustment

open MachineIntegers (int32)

inductive ExtraFields
  | torchOp (endTimeNS : Int)
  | vulkan (durationNS : Int)
  | allocation
  | other
deriving DecidableEq, Repr

inductive Result
  | event (startTimeNS : Int) (extraFields : ExtraFields) (children : List Result)
deriving Repr

def Result.startTimeNS : Result → Int
  | .event start _ _ => start

def Result.extraFields : Result → ExtraFields
  | .event _ fields _ => fields

def Result.children : Result → List Result
  | .event _ _ children => children

/-- `Result::endTimeNS` of libtorch, for an event that is finished. -/
structure Library where
  endTime : Int → ExtraFields → Int
  endTime_torchOp : ∀ start recorded, start ≤ recorded → endTime start (.torchOp recorded) = recorded
  endTime_allocation : ∀ start, endTime start .allocation = start

def ExtraFields.stretch (start total : Int) : ExtraFields → ExtraFields
  | .torchOp _ => .torchOp (start + total)
  | .vulkan _ => .vulkan total
  | fields => fields

def ExtraFields.move (start newStart : Int) : ExtraFields → ExtraFields
  | .torchOp recorded => .torchOp (newStart + (recorded - start))
  | fields => fields

section Adjusting

variable (lib : Library)

def Result.endTimeNS (event : Result) : Int := lib.endTime event.startTimeNS event.extraFields

def Result.duration (event : Result) : Int := event.endTimeNS lib - event.startTimeNS

mutual
def adjustDurationsDfs : Result → Result × Int
  | .event start fields children =>
    let original := lib.endTime start fields - start
    let adjusted := adjustDurationsAll children 0
    if adjusted.2 > original then
      (.event start (fields.stretch start adjusted.2) adjusted.1, adjusted.2)
    else (.event start fields adjusted.1, original)

def adjustDurationsAll : List Result → Int → List Result × Int
  | [], acc => ([], acc)
  | child :: later, acc =>
    let adjusted := adjustDurationsDfs child
    let rest := adjustDurationsAll later (int32 (acc + adjusted.2))
    (adjusted.1 :: rest.1, rest.2)
end

def childrenTotal (acc : Int) (children : List Result) : Int :=
  children.foldl (fun acc child => int32 (acc + child.duration lib)) acc

mutual
def adjustTimestampsDfs : Result → Int → Result
  | .event start fields children, newStart =>
    let fields := if start ≠ newStart then fields.move start newStart else fields
    .event newStart fields (adjustTimestampsAll children
      (lib.endTime newStart fields - childrenTotal lib 0 children))

def adjustTimestampsAll : List Result → Int → List Result
  | [], _ => []
  | child :: later, start =>
    let moved := adjustTimestampsDfs child start
    moved :: adjustTimestampsAll later (moved.endTimeNS lib)
end

def minTime : Int := -2 ^ 63

def Result.earliest : Result → Int
  | .event _ (.vulkan _) _ => minTime
  | .event start _ _ => start

def adjustRoots : List Result → Int → List Result
  | [], _ => []
  | root :: later, minStartTime =>
    let adjusted := (adjustDurationsDfs lib root).1
    let moved := adjustTimestampsDfs lib adjusted (max adjusted.earliest minStartTime)
    moved :: adjustRoots later (moved.endTimeNS lib)

def adjustTimestamps : List Result → List Result
  | [] => []
  | root :: later => adjustRoots lib (root :: later) root.startTimeNS

/-! What `adjust_timestamps` is to keep and to reach, and which events it can do that for. -/

mutual
def Result.Proper : Result → Prop
  | .event start (.torchOp recorded) children => start ≤ recorded ∧ allProper children
  | .event _ .allocation children => children = []
  | .event _ _ _ => False

def allProper : List Result → Prop
  | [] => True
  | event :: later => event.Proper ∧ allProper later
end

def Ordered (events : List Result) : Prop :=
  events.Pairwise fun event later => event.endTimeNS lib ≤ later.startTimeNS

mutual
def Result.Nested : Result → Prop
  | .event start fields children =>
    (∀ child ∈ children,
      start ≤ child.startTimeNS ∧ child.endTimeNS lib ≤ lib.endTime start fields) ∧
    Ordered lib children ∧ allNested children

def allNested : List Result → Prop
  | [] => True
  | event :: later => event.Nested ∧ allNested later
end

mutual
def Result.Kept : Result → Result → Prop
  | .event start fields children, .event start' fields' children' =>
    lib.endTime start fields - start ≤ lib.endTime start' fields' - start' ∧
    (children = [] → lib.endTime start' fields' - start' = lib.endTime start fields - start) ∧
    allKept children children'

def allKept : List Result → List Result → Prop
  | [], [] => True
  | event :: later, event' :: later' => event.Kept event' ∧ allKept later later'
  | _, _ => False
end

mutual
def Result.stretched : Result → Int
  | .event start fields children => max (lib.endTime start fields - start) (stretchedSum children)

def stretchedSum : List Result → Int
  | [] => 0
  | event :: later => event.stretched + stretchedSum later
end

mutual
def Result.Short : Result → Prop
  | .event _ _ children => stretchedSum lib children < 2 ^ 31 ∧ allShort children

def allShort : List Result → Prop
  | [] => True
  | event :: later => event.Short ∧ allShort later
end

def durationSum (lib : Library) : List Result → Int
  | [] => 0
  | event :: later => event.duration lib + durationSum lib later

mutual
def Result.Covering (lib : Library) : Result → Prop
  | .event start fields children =>
    childrenTotal lib 0 children ≤ lib.endTime start fields - start ∧ allCovering lib children

def allCovering (lib : Library) : List Result → Prop
  | [] => True
  | event :: later => event.Covering lib ∧ allCovering lib later
end

mutual
def Result.Counted (lib : Library) : Result → Prop
  | .event _ _ children => durationSum lib children < 2 ^ 31 ∧ allCounted lib children

def allCounted (lib : Library) : List Result → Prop
  | [] => True
  | event :: later => event.Counted lib ∧ allCounted lib later
end

variable (lib : Library)

open Result

theorem duration_nonneg {event : Result} (proper : event.Proper) : 0 ≤ event.duration lib := by
  obtain ⟨start, fields, children⟩ := event
  cases fields with
  | torchOp recorded =>
    simp only [duration, endTimeNS, extraFields, startTimeNS, lib.endTime_torchOp _ _ proper.1]
    have := proper.1
    omega
  | allocation =>
    simp [duration, endTimeNS, extraFields, startTimeNS, lib.endTime_allocation]
  | vulkan | other => exact proper.elim

theorem durationSum_nonneg {events : List Result} (proper : allProper events) :
    0 ≤ durationSum lib events := by
  induction events with
  | nil => simp [durationSum]
  | cons event later ih =>
    have first := duration_nonneg lib proper.1
    have rest := ih proper.2
    simp only [durationSum]
    omega

open List

theorem childrenTotal_int32 (acc : Int) (children : List Result) :
    childrenTotal lib (int32 acc) children = int32 (acc + durationSum lib children) := by
  induction children generalizing acc with
  | nil => simp [childrenTotal, durationSum]
  | cons child later ih =>
    have step : int32 (int32 acc + child.duration lib) = int32 (acc + child.duration lib) := by
      unfold int32
      omega
    have rest := ih (acc + child.duration lib)
    simp only [childrenTotal, foldl_cons, step, durationSum] at rest ⊢
    rw [rest, add_assoc]

theorem childrenTotal_zero (children : List Result) :
    childrenTotal lib 0 children = int32 (durationSum lib children) := by
  simpa [int32] using childrenTotal_int32 lib 0 children

variable {children : List Result}

theorem durationSum_le_total (proper : allProper children) :
    durationSum lib children ≤ childrenTotal lib 0 children ↔ durationSum lib children < 2 ^ 31 := by
  have nonneg := durationSum_nonneg lib proper
  rw [childrenTotal_zero]
  unfold int32
  omega

theorem total_le_durationSum (proper : allProper children) :
    childrenTotal lib 0 children ≤ durationSum lib children := by
  have nonneg := durationSum_nonneg lib proper
  rw [childrenTotal_zero]
  unfold int32
  omega

/-! The first pass. -/

mutual
theorem adjustDurationsDfs_spec (event : Result) (proper : event.Proper) :
    let adjusted := adjustDurationsDfs lib event
    adjusted.1.Proper ∧ adjusted.1.startTimeNS = event.startTimeNS ∧
      adjusted.2 = adjusted.1.duration lib ∧ adjusted.1.Covering lib ∧
      event.Kept lib adjusted.1 := by
  obtain ⟨start, fields, children⟩ := event
  cases fields with
  | torchOp recorded =>
    obtain ⟨valid, proper⟩ := proper
    obtain ⟨proper, total, covering, kept, leaf⟩ := adjustDurationsAll_spec children 0 proper
    have ends := lib.endTime_torchOp start recorded valid
    simp only [adjustDurationsDfs, ends]
    split
    next stretched =>
      have later : start ≤ start + (adjustDurationsAll lib children 0).2 := by omega
      have ends' := lib.endTime_torchOp _ _ later
      refine ⟨⟨later, proper⟩, rfl, ?_, ⟨?_, covering⟩, ?_, ?_, kept⟩
      · simp only [duration, endTimeNS, extraFields, startTimeNS, ExtraFields.stretch, ends']
        omega
      · simp only [ExtraFields.stretch, ends', ← total]
        omega
      · simp only [ExtraFields.stretch, ends, ends']
        omega
      · intro none
        subst none
        simp only [adjustDurationsAll] at stretched
        omega
    next fits =>
      refine ⟨⟨valid, proper⟩, rfl, ?_, ⟨?_, covering⟩, le_refl _, fun _ => rfl, kept⟩
      · simp only [duration, endTimeNS, extraFields, startTimeNS, ends]
      · rw [← total, ends]
        omega
  | allocation =>
    cases proper
    have still : adjustDurationsDfs lib (.event start .allocation []) =
        (.event start .allocation [], 0) := by
      simp [adjustDurationsDfs, adjustDurationsAll, lib.endTime_allocation]
    simp only [still]
    refine ⟨rfl, trivial, ?_, ⟨?_, trivial⟩, le_refl _, fun _ => rfl, trivial⟩
    · simp [duration, endTimeNS, extraFields, startTimeNS, lib.endTime_allocation]
    · simp [childrenTotal, lib.endTime_allocation]
  | vulkan | other => exact proper.elim

theorem adjustDurationsAll_spec (events : List Result) (acc : Int) (proper : allProper events) :
    let adjusted := adjustDurationsAll lib events acc
    allProper adjusted.1 ∧ adjusted.2 = childrenTotal lib acc adjusted.1 ∧
      allCovering lib adjusted.1 ∧ allKept lib events adjusted.1 ∧
      (events = [] → adjusted.1 = []) := by
  cases events with
  | nil => simp [adjustDurationsAll, allProper, childrenTotal, allCovering, allKept]
  | cons event later =>
    obtain ⟨first, -, returned, covering, kept⟩ := adjustDurationsDfs_spec event proper.1
    obtain ⟨rest, total, covers, keeps, -⟩ := adjustDurationsAll_spec later
      (int32 (acc + (adjustDurationsDfs lib event).2)) proper.2
    refine ⟨⟨first, rest⟩, ?_, ⟨covering, covers⟩, ⟨kept, keeps⟩, fun none => by cases none⟩
    simp only [adjustDurationsAll, total]
    simp only [childrenTotal, foldl_cons, returned]
end

mutual
theorem adjustDurationsDfs_counted (event : Result) (proper : event.Proper) :
    ((adjustDurationsDfs lib event).1.Counted lib ↔ event.Short lib) ∧
      (event.Short lib → (adjustDurationsDfs lib event).1.duration lib = event.stretched lib) := by
  have spec := adjustDurationsDfs_spec lib event proper
  obtain ⟨start, fields, children⟩ := event
  have properAll : allProper children := by
    cases fields with
    | torchOp recorded => exact proper.2
    | allocation => cases proper; trivial
    | vulkan | other => exact proper.elim
  obtain ⟨counted, sums⟩ := adjustDurationsAll_counted children 0 properAll
  obtain ⟨proper', total, -⟩ := adjustDurationsAll_spec lib children 0 properAll
  have adjusted : (adjustDurationsDfs lib (.event start fields children)).1.children =
      (adjustDurationsAll lib children 0).1 := by
    simp only [adjustDurationsDfs]
    split <;> rfl
  have reads : ∀ event : Result, event.Counted lib ↔
      durationSum lib event.children < 2 ^ 31 ∧ allCounted lib event.children := by
    rintro ⟨⟩
    rfl
  constructor
  · rw [reads, adjusted, counted]
    constructor
    · rintro ⟨sum, short⟩
      exact ⟨sums short ▸ sum, short⟩
    · rintro ⟨sum, short⟩
      exact ⟨(sums short).symm ▸ sum, short⟩
  · rintro ⟨sum, short⟩
    have exact := sums short
    have nonneg := durationSum_nonneg lib proper'
    have counts : (adjustDurationsAll lib children 0).2 = stretchedSum lib children := by
      rw [total, childrenTotal_zero, exact]
      unfold int32
      omega
    rw [← spec.2.2.1]
    simp only [adjustDurationsDfs, stretched, counts]
    split
    · exact (max_eq_right (by omega)).symm
    · exact (max_eq_left (by omega)).symm

theorem adjustDurationsAll_counted (events : List Result) (acc : Int) (proper : allProper events) :
    (allCounted lib (adjustDurationsAll lib events acc).1 ↔ allShort lib events) ∧
      (allShort lib events →
        durationSum lib (adjustDurationsAll lib events acc).1 = stretchedSum lib events) := by
  cases events with
  | nil => simp [adjustDurationsAll, allCounted, allShort, durationSum, stretchedSum]
  | cons event later =>
    obtain ⟨first, duration⟩ := adjustDurationsDfs_counted event proper.1
    obtain ⟨rest, sum⟩ := adjustDurationsAll_counted later
      (int32 (acc + (adjustDurationsDfs lib event).2)) proper.2
    simp only [adjustDurationsAll, allCounted, allShort, durationSum, stretchedSum, first, rest,
      true_and]
    rintro ⟨short, shorts⟩
    rw [duration short, sum shorts]
end

/-! The second pass. -/

theorem endTime_move (newStart : Int) {start : Int} {fields : ExtraFields}
    (proper : (event start fields children).Proper) :
    lib.endTime newStart (if start ≠ newStart then fields.move start newStart else fields) =
      newStart + (lib.endTime start fields - start) := by
  cases fields with
  | torchOp recorded =>
    have valid := proper.1
    rw [lib.endTime_torchOp _ _ valid]
    split
    · exact lib.endTime_torchOp _ _ (by omega)
    next same =>
      have same : start = newStart := by simpa using same
      rw [← same, lib.endTime_torchOp _ _ valid]
      omega
  | allocation =>
    have still : (if start ≠ newStart then ExtraFields.allocation.move start newStart
        else .allocation) = .allocation := by split <;> rfl
    rw [still, lib.endTime_allocation, lib.endTime_allocation]
    omega
  | vulkan | other => exact proper.elim

theorem proper_children {start : Int} {fields : ExtraFields}
    (proper : (event start fields children).Proper) : allProper children := by
  cases fields with
  | torchOp recorded => exact proper.2
  | allocation => cases proper; trivial
  | vulkan | other => exact proper.elim

@[simp] theorem adjustTimestampsDfs_start (event : Result) (newStart : Int) :
    (adjustTimestampsDfs lib event newStart).startTimeNS = newStart := by
  obtain ⟨start, fields, children⟩ := event
  rfl

theorem adjustTimestampsDfs_end {event : Result} (proper : event.Proper) (newStart : Int) :
    (adjustTimestampsDfs lib event newStart).endTimeNS lib = newStart + event.duration lib := by
  obtain ⟨start, fields, children⟩ := event
  exact endTime_move lib newStart proper

theorem adjustTimestampsAll_places {events : List Result} (start : Int)
    (proper : allProper events) :
    Ordered lib (adjustTimestampsAll lib events start) ∧
      (∀ event ∈ adjustTimestampsAll lib events start, start ≤ event.startTimeNS ∧
        event.endTimeNS lib ≤ start + durationSum lib events) ∧
      (events ≠ [] → ∃ event ∈ adjustTimestampsAll lib events start,
        event.endTimeNS lib = start + durationSum lib events) := by
  induction events generalizing start with
  | nil => simp [adjustTimestampsAll, Ordered]
  | cons event later ih =>
    have ends := adjustTimestampsDfs_end lib proper.1 start
    have long := duration_nonneg lib proper.1
    have sum := durationSum_nonneg lib proper.2
    obtain ⟨ordered, within, last⟩ :=
      ih ((adjustTimestampsDfs lib event start).endTimeNS lib) proper.2
    simp only [adjustTimestampsAll, durationSum]
    refine ⟨?_, ?_, fun _ => ?_⟩
    · exact pairwise_cons.mpr ⟨fun other member => (within other member).1, ordered⟩
    · intro other member
      rcases mem_cons.mp member with rfl | member
      · rw [adjustTimestampsDfs_start, ends]
        omega
      · have bounds := within other member
        omega
    · cases later with
      | nil => exact ⟨_, (.head _), by simp [durationSum, ends]⟩
      | cons next rest =>
        obtain ⟨other, member, at_end⟩ := last (by simp)
        exact ⟨other, mem_cons_of_mem _ member, by rw [at_end, ends]; omega⟩

mutual
theorem adjustTimestampsDfs_nested (event : Result) (newStart : Int) (proper : event.Proper)
    (covering : event.Covering lib) :
    (adjustTimestampsDfs lib event newStart).Nested lib ↔ event.Counted lib := by
  obtain ⟨start, fields, children⟩ := event
  have properAll := proper_children proper
  have total := durationSum_le_total lib properAll
  have below := total_le_durationSum lib properAll
  simp only [adjustTimestampsDfs, Result.Nested, Result.Counted, endTime_move lib newStart proper]
  obtain ⟨ordered, within, last⟩ := adjustTimestampsAll_places lib
    (newStart + (lib.endTime start fields - start) - childrenTotal lib 0 children) properAll
  rw [adjustTimestampsAll_nested children _ properAll covering.2]
  constructor
  · rintro ⟨inside, -, counted⟩
    refine ⟨total.mp ?_, counted⟩
    cases children with
    | nil => simp [durationSum, childrenTotal]
    | cons child later =>
      obtain ⟨other, member, at_end⟩ := last (by simp)
      have bound := (inside other member).2
      omega
  · rintro ⟨sum, counted⟩
    have covers := covering.1
    have exact := total.mpr sum
    refine ⟨fun child member => ?_, ordered, counted⟩
    have bounds := within child member
    omega

theorem adjustTimestampsAll_nested (events : List Result) (start : Int)
    (proper : allProper events) (covering : allCovering lib events) :
    allNested lib (adjustTimestampsAll lib events start) ↔ allCounted lib events := by
  cases events with
  | nil => simp [adjustTimestampsAll, allNested, allCounted]
  | cons event later =>
    simp only [adjustTimestampsAll, allNested, allCounted]
    rw [adjustTimestampsDfs_nested event _ proper.1 covering.1,
      adjustTimestampsAll_nested later _ proper.2 covering.2]
end

mutual
theorem adjustTimestampsDfs_kept (before event : Result) (newStart : Int) (proper : event.Proper)
    (kept : before.Kept lib event) :
    before.Kept lib (adjustTimestampsDfs lib event newStart) := by
  obtain ⟨start', fields', children'⟩ := before
  obtain ⟨start, fields, children⟩ := event
  obtain ⟨grows, leaf, kept⟩ := kept
  have ends := endTime_move lib newStart proper
  refine ⟨?_, fun none => ?_, adjustTimestampsAll_kept children' children _
    (proper_children proper) kept⟩
  · omega
  · have same := leaf none
    omega

theorem adjustTimestampsAll_kept (before events : List Result) (start : Int)
    (proper : allProper events) (kept : allKept lib before events) :
    allKept lib before (adjustTimestampsAll lib events start) := by
  cases before with
  | nil =>
    cases events with
    | nil => trivial
    | cons event later => exact kept.elim
  | cons first rest =>
    cases events with
    | nil => exact kept.elim
    | cons event later =>
      exact ⟨adjustTimestampsDfs_kept first event _ proper.1 kept.1,
        adjustTimestampsAll_kept rest later _ proper.2 kept.2⟩
end

theorem adjustRoots_spec {roots : List Result} (minStartTime : Int) (proper : allProper roots) :
    Ordered lib (adjustRoots lib roots minStartTime) ∧
      (∀ root ∈ adjustRoots lib roots minStartTime, minStartTime ≤ root.startTimeNS) ∧
      allKept lib roots (adjustRoots lib roots minStartTime) ∧
      (allNested lib (adjustRoots lib roots minStartTime) ↔ allShort lib roots) := by
  induction roots generalizing minStartTime with
  | nil => simp [adjustRoots, Ordered, allKept, allNested, allShort]
  | cons root later ih =>
    obtain ⟨adjusted, -, -, covering, kept⟩ := adjustDurationsDfs_spec lib root proper.1
    obtain ⟨counted, -⟩ := adjustDurationsDfs_counted lib root proper.1
    simp only [adjustRoots, allKept, allNested, allShort]
    generalize (adjustDurationsDfs lib root).1 = event at adjusted covering kept counted ⊢
    have late : minStartTime ≤ max event.earliest minStartTime := le_max_right _ _
    generalize max event.earliest minStartTime = newStart at late
    have ends := adjustTimestampsDfs_end lib adjusted newStart
    have long := duration_nonneg lib adjusted
    obtain ⟨ordered, starts, keeps, nested⟩ :=
      ih ((adjustTimestampsDfs lib event newStart).endTimeNS lib) proper.2
    refine ⟨pairwise_cons.mpr ⟨starts, ordered⟩, fun other member => ?_,
      ⟨adjustTimestampsDfs_kept lib root event newStart adjusted kept, keeps⟩, ?_⟩
    · rcases mem_cons.mp member with rfl | member
      · rw [adjustTimestampsDfs_start]
        exact late
      · have after := starts other member
        omega
    · rw [nested, adjustTimestampsDfs_nested lib event newStart adjusted covering, counted]

/-- An adjusted forest is a proper timeline exactly when no event's children overflow the `int` that
their durations are summed in. -/
theorem adjustTimestamps_iff (roots : List Result) (proper : allProper roots) :
    (allNested lib (adjustTimestamps lib roots) ∧ Ordered lib (adjustTimestamps lib roots) ∧
      allKept lib roots (adjustTimestamps lib roots)) ↔ allShort lib roots := by
  cases roots with
  | nil => simp [adjustTimestamps, allNested, Ordered, allKept, allShort]
  | cons root later =>
    obtain ⟨ordered, -, kept, nested⟩ := adjustRoots_spec lib root.startTimeNS proper
    exact ⟨fun holds => nested.mp holds.1, fun short => ⟨nested.mpr short, ordered, kept⟩⟩

end Adjusting

def libtorch : Library where
  endTime start fields :=
    match fields with
    | .torchOp recorded => max start recorded
    | .vulkan duration => start + duration
    | .allocation | .other => start
  endTime_torchOp _ _ valid := max_eq_right valid
  endTime_allocation _ := rfl

/-- The children overlap and reach out of their parent. -/
def overlapping : List Result :=
  [.event 0 (.torchOp 5)
    [.event 1 (.torchOp 5) [], .event 3 (.torchOp 7) [.event 4 .allocation []]]]

theorem adjustTimestamps_iff_overlapping :
    allNested libtorch (adjustTimestamps libtorch overlapping) ∧
      Ordered libtorch (adjustTimestamps libtorch overlapping) ∧
      allKept libtorch overlapping (adjustTimestamps libtorch overlapping) :=
  (adjustTimestamps_iff libtorch overlapping
    ⟨⟨by decide, ⟨by decide, trivial⟩, ⟨by decide, rfl, trivial⟩, trivial⟩, trivial⟩).mpr
    ⟨⟨by decide, ⟨by decide, trivial⟩, ⟨by decide, ⟨by decide, trivial⟩, trivial⟩, trivial⟩, trivial⟩

def longOperators : List Result :=
  [.event 0 (.torchOp 4000000003)
    [.event 1 (.torchOp 2000000001) [], .event 2000000002 (.torchOp 4000000002) []]]

/-- The second child ends after its parent. -/
theorem longOperators_spill : ¬ (allNested libtorch (adjustTimestamps libtorch longOperators) ∧
      Ordered libtorch (adjustTimestamps libtorch longOperators) ∧
      allKept libtorch longOperators (adjustTimestamps libtorch longOperators)) := by
  have moved : adjustTimestamps libtorch longOperators = [.event 0 (.torchOp 4000000003)
        [.event 4294967299 (.torchOp 6294967299) [], .event 6294967299 (.torchOp 8294967299) []]] := by
    rfl
  rw [moved]
  rintro ⟨⟨⟨inside, -⟩, -⟩, -⟩
  exact absurd (inside _ (.head _)).2 (by decide)

end TorchSupa.Profiler.Adjustment
