import TorchSupa.Profiler.CallTree
import TorchSupa.Logic.ParentLinks

/-!
What the call tree of a trace should be, told from the times of its events alone, and the tree that
`build_tree` makes of them. The two differ because a thread keeps the last frame that `pop_event`
restored, also where that frame is one of the forward thread.
-/

namespace TorchSupa.Profiler.CallTree

variable (lib : Library) (events : Nat → Result)

section Spec

def ending (event : Nat) : Int :=
  lib.recordedEnd (events event).startTimeNS ((events event).extraFields.setInTreeBuilding true)

def Ignored (event : Nat) : Prop :=
  (events event).extraFields.isKineto = true ∧ (events event).finished = true

def Lasts (event : Nat) : Prop :=
  ¬Ignored events event ∧ (events event).startTimeNS < ending lib events event

/-- An event that others can be put under: one with a duration, or one that is never ended. -/
def Opens (event : Nat) : Prop :=
  ¬Ignored events event ∧
    ((events event).startTimeNS < ending lib events event ∨ ending lib events event = noEnd)

def Encloses (outer event : Nat) : Prop :=
  outer < event ∧ Lasts lib events outer ∧ (events outer).startTid = (events event).startTid ∧
    (events event).startTimeNS ≤ ending lib events outer

instance : DecidablePred (Ignored events) := fun event => by unfold Ignored; infer_instance

instance : DecidablePred (Lasts lib events) := fun event => by unfold Lasts; infer_instance

instance : DecidablePred (Opens lib events) := fun event => by unfold Opens; infer_instance

instance (outer event : Nat) : Decidable (Encloses lib events outer event) := by
  unfold Encloses; infer_instance

/-- An event has ended when its end time has passed. One that is never ended is over with the first
of the events that it was opened inside. -/
def Over (passed : Int → Prop) (event : Nat) : Prop :=
  if Lasts lib events event then passed (ending lib events event)
  else ∃ outer < event, Encloses lib events outer event ∧ passed (ending lib events outer)

instance (passed : Int → Prop) [DecidablePred passed] : DecidablePred (Over lib events passed) :=
  fun event => by unfold Over; infer_instance

def Open (thread : Nat) (time : Int) (event : Nat) : Prop :=
  Opens lib events event ∧ (events event).startTid = thread ∧
    ¬Over lib events (fun finish => finish < time) event

instance (thread : Nat) (time : Int) : DecidablePred (Open lib events thread time) :=
  fun event => by unfold Open; infer_instance

def innermost (event thread : Nat) : Option Nat :=
  (List.range event).reverse.find? fun earlier =>
    decide (Open lib events thread (events event).startTimeNS earlier)

def forwardParent (event : Nat) : Option Nat :=
  if (events event).extraFields.forwardTid ≠ 0 then
    innermost lib events event (events event).extraFields.forwardTid
  else none

def expectedParent (event : Nat) : Option Nat :=
  (innermost lib events event (events event).startTid).or (forwardParent lib events event)

/-- The list is sorted, an event that starts while another of its thread is open ends no later than
that one, and no event but those of finished Kineto subtrees is in a tree yet. -/
structure Traced (count : Nat) : Prop where
  sorted : ∀ j i, j ≤ i → i < count → (events j).startTimeNS ≤ (events i).startTimeNS
  nested : ∀ j i, i < count → Encloses lib events j i → Lasts lib events i →
    ending lib events i ≤ ending lib events j
  unfinished : ∀ i < count, ¬Ignored events i → (events i).finished = false
  noParent : ∀ i < count, ¬Ignored events i → (events i).parent = none
  children : ∀ i < count, ¬Ignored events i → ∀ child ∈ (events i).children,
    (events child).finished = true

/-- `build_tree` ends normally, every ended event is finished, and every event that it puts into the
tree gets the parent it should, which has not ended before the event starts. -/
def CallTreeBuilt (count : Nat) : Prop :=
  ∃ results, buildTree lib count events = .ok results ∧
    (∀ i < count, ending lib events i ≠ noEnd → (results i).finished = true) ∧
    (∀ i < count, ¬Ignored events i → (results i).parent = expectedParent lib events i) ∧
    ∀ i < count, ¬Ignored events i → ∀ parent, (results i).parent = some parent →
      ending lib events parent ≠ noEnd → (events i).startTimeNS ≤ ending lib events parent

def Bottom (event thread : Nat) : Prop :=
  Opens lib events event ∧ (events event).startTid = thread ∧
    innermost lib events event thread = none

instance (event thread : Nat) : Decidable (Bottom lib events event thread) := by
  unfold Bottom; infer_instance

def adopted (event thread : Nat) : Option Nat :=
  (List.range event).findSome? fun earlier =>
    if Bottom lib events earlier thread then forwardParent lib events earlier else none

/-- Where nothing is open on the thread of an event, the frame that its thread adopted is the one
the event belongs under; and if there is none, and nothing is open on its forward thread either,
then that thread has adopted no frame. -/
def Unmixed (count : Nat) : Prop :=
  ∀ i < count, ¬Ignored events i → innermost lib events i (events i).startTid = none →
    match adopted lib events i (events i).startTid with
    | some frame => forwardParent lib events i = some frame
    | none => (events i).extraFields.forwardTid ≠ 0 →
        innermost lib events i (events i).extraFields.forwardTid = none →
        adopted lib events i (events i).extraFields.forwardTid = none

end Spec

section Restored

def frameOf (left : Nat → Option Nat) (event thread : Nat) : Option Nat :=
  (innermost lib events event thread).or (left thread)

def attached (left : Nat → Option Nat) (event : Nat) : Option Nat :=
  (frameOf lib events left event (events event).startTid).or
    (if (events event).extraFields.forwardTid ≠ 0 then
      frameOf lib events left event (events event).extraFields.forwardTid
    else none)

def leftover : Nat → Nat → Option Nat
  | 0, _ => none
  | event + 1, thread =>
    if Bottom lib events event thread then attached lib events (leftover event) event
    else leftover event thread

def builtParent (event : Nat) : Option Nat :=
  attached lib events (leftover lib events event) event

end Restored

section Compare

variable {lib events} {count : Nat}

theorem adopted_succ (event thread : Nat) :
    adopted lib events (event + 1) thread = (adopted lib events event thread).or
      (if Bottom lib events event thread then forwardParent lib events event else none) := by
  unfold adopted
  rw [List.range_succ, List.findSome?_append]
  simp

theorem attached_bottom {left : Nat → Option Nat} {event thread : Nat}
    (bottom : Bottom lib events event thread) :
    attached lib events left event = (left thread).or
      (if (events event).extraFields.forwardTid ≠ 0 then
        frameOf lib events left event (events event).extraFields.forwardTid
      else none) := by
  obtain ⟨_, rfl, nothing⟩ := bottom
  simp [attached, frameOf, nothing]

theorem leftover_eq_adopted (event : Nat) (right : ∀ earlier < event, ¬Ignored events earlier →
    builtParent lib events earlier = expectedParent lib events earlier) :
    leftover lib events event = adopted lib events event := by
  induction event with
  | zero => rfl
  | succ event ih =>
    have before := ih fun earlier below => right earlier (by omega)
    funext thread
    rw [adopted_succ]
    by_cases bottom : Bottom lib events event thread
    · have here := right event (by omega) bottom.1.1
      have belongs : expectedParent lib events event = forwardParent lib events event := by
        obtain ⟨_, rfl, nothing⟩ := bottom
        simp [expectedParent, nothing]
      rw [belongs, builtParent] at here
      simp only [leftover, bottom, ↓reduceIte, here]
      rw [attached_bottom bottom, before] at here
      cases held : adopted lib events event thread with
      | none => rfl
      | some frame =>
        rw [held] at here
        exact here.symm
    · simp [leftover, bottom, before]

theorem builtParent_iff (event : Nat)
    (kept : leftover lib events event = adopted lib events event) :
    builtParent lib events event = expectedParent lib events event ↔
      (innermost lib events event (events event).startTid = none →
        match adopted lib events event (events event).startTid with
        | some frame => forwardParent lib events event = some frame
        | none => (events event).extraFields.forwardTid ≠ 0 →
            innermost lib events event (events event).extraFields.forwardTid = none →
            adopted lib events event (events event).extraFields.forwardTid = none) := by
  unfold builtParent attached expectedParent frameOf
  rw [kept]
  cases inner : innermost lib events event (events event).startTid with
  | some frame => simp
  | none =>
    cases held : adopted lib events event (events event).startTid with
    | some frame => simp [eq_comm]
    | none =>
      by_cases forward : (events event).extraFields.forwardTid = 0
      · simp [forwardParent, forward]
      · cases found : innermost lib events event (events event).extraFields.forwardTid with
        | some frame => simp [forwardParent, forward, found]
        | none => simp [forwardParent, forward, found]

theorem builtParent_eq_expectedParent_iff : (∀ i < count, ¬Ignored events i →
      builtParent lib events i = expectedParent lib events i) ↔ Unmixed lib events count := by
  constructor
  · intro right i below considered
    apply (builtParent_iff i _).mp (right i below considered)
    exact leftover_eq_adopted i fun earlier sooner => right earlier (by omega)
  · intro unmixed i
    -- The frames left over are those adopted only if all earlier parents are right.
    induction i using Nat.strong_induction_on with
    | _ i ih =>
      intro below considered
      apply (builtParent_iff i _).mpr (unmixed i below considered)
      exact leftover_eq_adopted i fun earlier sooner => ih earlier sooner (by omega)

end Compare

end TorchSupa.Profiler.CallTree
