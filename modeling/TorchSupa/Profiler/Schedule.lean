import Mathlib.Data.Nat.Notation
import Mathlib.Logic.Basic

/-!
The schedule of `profile`: which traces are prepared, started and stopped between two steps. What
the profiler does is a log, in which a callback that raises ends the list of actions it stands in.
-/

namespace TorchSupa.Profiler.Schedule

open List

inductive ProfilerAction
  | none
  | warmup
  | record
  | recordAndSave
deriving DecidableEq, Repr

inductive Event
  | warn (text : String)
  | prepareTrace
  | startTrace
  | stopTrace
  | traceReady
  | enterStep (stepNum : Nat)
  | exitStep
  | incrementStep
deriving DecidableEq, Repr

section Code

def actionMap : ProfilerAction → Option ProfilerAction → List Event
  | .none, some .none => []
  | .none, some .warmup => [.prepareTrace]
  | .none, some .record => [.prepareTrace, .startTrace]
  | .none, some .recordAndSave => [.prepareTrace, .startTrace]
  | .warmup, some .none =>
    [.warn "Incorrect schedule: WARMUP followed by NONE", .startTrace, .stopTrace]
  | .warmup, some .warmup => []
  | .warmup, some .record => [.startTrace]
  | .warmup, some .recordAndSave => [.startTrace]
  | .record, some .none => [.warn "Incorrect schedule: RECORD followed by NONE", .stopTrace]
  | .record, some .warmup => [.warn "Incorrect schedule: RECORD followed by WARMUP", .stopTrace]
  | .record, some .record => []
  | .record, some .recordAndSave => []
  | .recordAndSave, some .none => [.stopTrace, .traceReady]
  | .recordAndSave, some .warmup => [.stopTrace, .traceReady, .prepareTrace]
  | .recordAndSave, some .record => [.stopTrace, .traceReady, .prepareTrace, .startTrace]
  | .recordAndSave, some .recordAndSave => [.stopTrace, .traceReady, .prepareTrace, .startTrace]
  | .none, Option.none => []
  | .warmup, Option.none => [.startTrace, .stopTrace]
  | .record, Option.none => [.stopTrace, .traceReady]
  | .recordAndSave, Option.none => [.stopTrace, .traceReady]

def performed (raises : Bool) : List Event → List Event × Bool
  | [] => ([], false)
  | .traceReady :: later =>
    if raises then ([.traceReady], true)
    else (.traceReady :: (performed raises later).1, (performed raises later).2)
  | action :: later => (action :: (performed raises later).1, (performed raises later).2)

structure Profile where
  recordSteps : Bool
  stepNum : Nat
  currentAction : ProfilerAction
  stepRecFn : Option Nat := none
  log : List Event := []
deriving Repr

namespace Profile

def new (schedule : Nat → ProfilerAction) (recordSteps : Bool) : Profile where
  recordSteps
  stepNum := 0
  currentAction := schedule 0

def enterStep (self : Profile) : Profile :=
  if self.recordSteps then
    { self with stepRecFn := some self.stepNum, log := self.log ++ [.enterStep self.stepNum] }
  else self

def exitStep (self : Profile) : Profile :=
  if self.recordSteps && self.stepRecFn.isSome then { self with log := self.log ++ [.exitStep] }
  else self

def transitAction (self : Profile) (raises : Bool) (prevAction : ProfilerAction)
    (currentAction : Option ProfilerAction) : Profile × Bool :=
  let actions := performed raises (actionMap prevAction currentAction)
  ({ self with log := self.log ++ actions.1 }, actions.2)

def start (self : Profile) : Profile :=
  (self.transitAction false .none (some self.currentAction)).1.enterStep

def stop (raises : Bool) (self : Profile) : Profile :=
  (self.exitStep.transitAction raises self.currentAction none).1

/-- A `step()` in which the callback may raise; the loop goes on with what is left of the state. -/
def step (schedule : Nat → ProfilerAction) (self : Profile) (raises : Bool) : Profile :=
  let exited := self.exitStep
  let next := { exited with
    stepNum := exited.stepNum + 1
    currentAction := schedule (exited.stepNum + 1) }
  let transited := next.transitAction raises self.currentAction (some next.currentAction)
  if transited.2 then transited.1
  else { transited.1 with log := transited.1.log ++ [Event.incrementStep] : Profile }.enterStep

end Profile

def run (schedule : Nat → ProfilerAction) (recordSteps : Bool) (steps : List Bool) : Profile :=
  steps.foldl (Profile.step schedule) (Profile.new schedule recordSteps).start

end Code

section Specification

structure Tracing where
  prepared : Bool := false
  running : Bool := false
deriving DecidableEq, Repr

/-- A log in which every start uses up a preparation of its own, and starts and stops alternate. -/
def Tracing.follow (self : Tracing) : List Event → Option Tracing
  | [] => some self
  | .prepareTrace :: later => { self with prepared := true }.follow later
  | .startTrace :: later =>
    if self.prepared && !self.running then
      { prepared := false, running := true : Tracing }.follow later
    else none
  | .stopTrace :: later => if self.running then { self with running := false }.follow later else none
  | _ :: later => self.follow later

def ProfilerAction.records : ProfilerAction → Bool
  | .record => true
  | .recordAndSave => true
  | _ => false

def Profile.tracing (self : Profile) : Option Tracing := Tracing.follow {} self.log

def Profile.Right (self : Profile) : Prop :=
  ∃ tracing, self.tracing = some tracing ∧ tracing.running = self.currentAction.records

def Profile.Stopped (self : Profile) : Prop :=
  ∃ tracing, self.tracing = some tracing ∧ tracing.running = false

def Kept (prevAction currentAction : ProfilerAction) (raises : Bool) : Prop :=
  ¬ (prevAction = .record ∧ currentAction = .warmup) ∧
    (raises = true → prevAction = .recordAndSave → currentAction = .none)

end Specification

section Steps

variable {schedule : Nat → ProfilerAction} {self : Profile} {raises : Bool}

theorem Tracing.follow_append (self : Tracing) (front back : List Event) :
    self.follow (front ++ back) = (self.follow front).bind (·.follow back) := by
  induction front generalizing self with
  | nil => rfl
  | cons event front ih =>
    cases event with
    | prepareTrace => exact ih _
    | startTrace =>
      rw [cons_append, follow, follow]
      split
      · exact ih _
      · rfl
    | stopTrace =>
      rw [cons_append, follow, follow]
      split
      · exact ih _
      · rfl
    | warn | traceReady | enterStep | exitStep | incrementStep => exact ih _

open Profile

open Option

theorem tracing_enterStep (self : Profile) : self.enterStep.tracing = self.tracing := by
  unfold enterStep
  split
  · rw [tracing, Tracing.follow_append]
    exact bind_fun_some _
  · rfl

theorem tracing_exitStep (self : Profile) : self.exitStep.tracing = self.tracing := by
  unfold exitStep
  split
  · rw [tracing, Tracing.follow_append]
    exact bind_fun_some _
  · rfl

theorem exitStep_stepNum (self : Profile) : self.exitStep.stepNum = self.stepNum := by
  unfold exitStep
  split <;> rfl

theorem tracing_stop : (self.stop raises).tracing = self.tracing.bind
    (·.follow (performed raises (actionMap self.currentAction none)).1) := by
  rw [Profile.stop, transitAction, tracing, Tracing.follow_append, ← tracing_exitStep self]
  rfl

theorem tracing_step : (self.step schedule raises).tracing = self.tracing.bind (·.follow
    (performed raises (actionMap self.currentAction (some (schedule (self.stepNum + 1))))).1) := by
  rw [← tracing_exitStep self, ← exitStep_stepNum self]
  unfold step
  dsimp only
  split
  · exact Tracing.follow_append _ _ _
  · rw [tracing_enterStep, tracing, Tracing.follow_append, transitAction, Tracing.follow_append]
    exact bind_fun_some _

theorem step_state : (self.step schedule raises).stepNum = self.stepNum + 1 ∧
    (self.step schedule raises).currentAction = schedule (self.stepNum + 1) := by
  rw [← exitStep_stepNum self]
  unfold step enterStep
  dsimp only
  split
  · exact ⟨rfl, rfl⟩
  · split <;> exact ⟨rfl, rfl⟩

def ProfilerAction.tracing : ProfilerAction → Tracing
  | .none => {}
  | .warmup => { prepared := true }
  | .record => { running := true }
  | .recordAndSave => { running := true }

theorem follow_kept {prevAction currentAction : ProfilerAction}
    (kept : Kept prevAction currentAction raises) :
    prevAction.tracing.follow (performed raises (actionMap prevAction (some currentAction))).1 =
      some currentAction.tracing := by
  cases prevAction <;> cases currentAction <;> cases raises <;>
    first | rfl | exact absurd ⟨rfl, rfl⟩ kept.1 | cases kept.2 rfl rfl

def Profile.Lost (self : Profile) : Prop :=
  self.tracing = none ∨ self.tracing = some {} ∧ self.currentAction = .warmup

theorem unkept {s : Profile} (current : s.tracing = some s.currentAction.tracing)
    (unkept : ¬ Kept s.currentAction (schedule (s.stepNum + 1)) raises) :
    (s.step schedule raises).Lost ∨ ¬ (s.step schedule raises).Right := by
  have next := @tracing_step schedule s raises
  have action := (@step_state schedule s raises).2
  rw [current, bind_some] at next
  unfold Profile.Lost Profile.Right
  rw [next, action]
  generalize schedule (s.stepNum + 1) = currentAction at unkept ⊢
  generalize s.currentAction = prevAction at unkept ⊢
  cases prevAction <;> cases currentAction <;> cases raises <;>
    simp [Kept, performed, actionMap, ProfilerAction.tracing, Tracing.follow,
      ProfilerAction.records] at unkept ⊢

theorem Profile.Lost.step (lost : self.Lost) : (self.step schedule raises).Lost := by
  have next := @tracing_step schedule self raises
  have action := (@step_state schedule self raises).2
  unfold Profile.Lost
  rw [next, action]
  rcases lost with failed | ⟨idle, warm⟩
  · rw [failed]
    exact .inl rfl
  · rw [idle, warm, bind_some]
    generalize schedule (self.stepNum + 1) = currentAction
    cases currentAction <;> simp [performed, actionMap, Tracing.follow]

theorem Profile.Lost.stop (lost : self.Lost) : ¬ (self.stop raises).Stopped := by
  rintro ⟨tracing, follows, _⟩
  rw [tracing_stop] at follows
  rcases lost with failed | ⟨idle, warm⟩
  · rw [failed] at follows
    cases follows
  · rw [idle, warm] at follows
    cases follows

variable (current : self.tracing = some self.currentAction.tracing)
include current

theorem stopped_of_current : (self.stop raises).Stopped := by
  unfold Profile.Stopped
  rw [tracing_stop, current, bind_some]
  cases self.currentAction <;> cases raises <;> exact ⟨{}, rfl, rfl⟩

theorem right_of_current :
    self.Right :=
  ⟨_, current, by cases self.currentAction <;> rfl⟩

end Steps

section Runs

variable {schedule : Nat → ProfilerAction}

theorem right_iff_of_current (steps : List Bool) (last : Bool) {self : Profile}
    (current : self.tracing = some self.currentAction.tracing)
    (scheduled : self.currentAction = schedule self.stepNum) :
    (∀ front, front <+: steps → (front.foldl (Profile.step schedule) self).Right) ∧
      ((steps.foldl (Profile.step schedule) self).stop last).Stopped ↔
    ∀ k raises, steps[k]? = some raises →
      Kept (schedule (self.stepNum + k)) (schedule (self.stepNum + k + 1)) raises := by
  induction steps generalizing self with
  | nil =>
    refine ⟨fun _ k raises at_ => (by cases at_), fun _ => ⟨fun front empty => ?_, ?_⟩⟩
    · rw [prefix_nil.mp empty]
      exact right_of_current current
    · exact stopped_of_current current
  | cons raises steps ih =>
    by_cases kept : Kept self.currentAction (schedule (self.stepNum + 1)) raises
    · obtain ⟨number, action⟩ := @step_state schedule self raises
      have next : (self.step schedule raises).tracing =
          some (self.step schedule raises).currentAction.tracing := by
        rw [tracing_step, current, Option.bind_some, follow_kept kept, action]
      have rest := ih next (by rw [number, action])
      rw [number] at rest
      constructor
      · rintro ⟨right, stopped⟩ k other at_
        cases k with
        | zero =>
          obtain rfl : raises = other := by simpa using at_
          exact scheduled ▸ kept
        | succ k =>
          have later := rest.mp ⟨fun front sub => right (raises :: front)
            (cons_prefix_cons.mpr ⟨rfl, sub⟩), stopped⟩ k other (by simpa using at_)
          rwa [Nat.add_right_comm] at later
      · intro all
        obtain ⟨right, stopped⟩ := rest.mpr fun k other at_ => by
          have later := all (k + 1) other (by simpa using at_)
          rwa [← Nat.add_assoc, Nat.add_right_comm] at later
        refine ⟨fun front sub => ?_, stopped⟩
        rcases prefix_cons_iff.mp sub with rfl | ⟨tail, rfl, behind⟩
        · exact right_of_current current
        · exact right tail behind
    · constructor
      · rintro ⟨right, stopped⟩
        exfalso
        rcases unkept current kept with lost | wrong
        · have all : ∀ (steps : List Bool) {self : Profile}, self.Lost →
              (steps.foldl (Profile.step schedule) self).Lost := by
            intro steps
            induction steps with
            | nil => exact id
            | cons first later ih => exact fun lost => ih lost.step
          exact (all steps lost).stop stopped
        · exact wrong (right [raises] (cons_prefix_cons.mpr ⟨rfl, nil_prefix⟩))
      · intro all
        exact absurd (scheduled ▸ all 0 raises rfl) kept

/-- The traces are prepared, started and stopped as they should be exactly if the action never goes
from `RECORD` to `WARMUP`, and the callback raises only where tracing ends. -/
theorem traces_right_iff (schedule : Nat → ProfilerAction) (recordSteps : Bool)
    (steps : List Bool) (last : Bool) :
    (∀ front, front <+: steps → (run schedule recordSteps front).Right) ∧
      ((run schedule recordSteps steps).stop last).Stopped ↔
    ∀ k raises, steps[k]? = some raises → Kept (schedule k) (schedule (k + 1)) raises := by
  have state : (Profile.new schedule recordSteps).start.currentAction = schedule 0 ∧
      (Profile.new schedule recordSteps).start.stepNum = 0 := by
    unfold Profile.start Profile.enterStep
    split <;> exact ⟨rfl, rfl⟩
  have current : (Profile.new schedule recordSteps).start.tracing = some (schedule 0).tracing := by
    rw [Profile.start, tracing_enterStep]
    change Tracing.follow {} (performed false (actionMap .none (some (schedule 0)))).1 = _
    exact @follow_kept false .none _ ⟨fun both => (by cases both.1), fun yes => (by cases yes)⟩
  have whole := @right_iff_of_current schedule steps last _ (current.trans (by rw [state.1]))
    (state.1.trans (by rw [state.2]))
  rw [state.2] at whole
  simpa only [Nat.zero_add, run] using whole

/-- The callback raises, and what was to be recorded next is not traced. -/
theorem traces_wrong :
    let schedule := fun k : Nat => if k = 0 then ProfilerAction.recordAndSave else .record
    ¬ (run schedule true [true]).Right ∧ ¬ ((run schedule true [true]).stop false).Stopped := by
  constructor
  · rintro ⟨tracing, follows, records⟩
    cases follows
    cases records
  · rintro ⟨tracing, follows, _⟩
    cases follows

end Runs

end TorchSupa.Profiler.Schedule
