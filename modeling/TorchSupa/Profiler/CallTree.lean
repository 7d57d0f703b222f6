import Mathlib.Logic.Function.Basic
import Mathlib.Algebra.Group.Int.Defs

/-!
`build_tree`. A result is named by its place in `sorted_events`, so the store below is what the
shared pointers of that vector point to. `Result::endTimeNS` belongs to libtorch, and which of the
events with one end time a priority queue has on top is left open by the standard library; both are
given by a `Library`.
-/

namespace TorchSupa.Profiler.CallTree

open Function

/-- `std::numeric_limits<c10::time_t>::min()`, the end time of an event without a termination
event. -/
def noEnd : Int := -2 ^ 63

inductive ExtraFields
  | torchOp (forwardTid : Nat) (endTimeNS : Int)
  | vulkan (durationNS : Int) (inTreeBuilding : Bool)
  | kineto (durationNS : Int)
  | other (endTimeNS : Int)
deriving DecidableEq, Repr

def ExtraFields.setInTreeBuilding (value : Bool) : ExtraFields → ExtraFields
  | .vulkan durationNS _ => .vulkan durationNS value
  | fields => fields

def ExtraFields.isKineto : ExtraFields → Bool
  | .kineto _ => true
  | _ => false

def ExtraFields.forwardTid : ExtraFields → Nat
  | .torchOp forwardTid _ => forwardTid
  | _ => 0

structure Result where
  startTimeNS : Int
  startTid : Nat
  extraFields : ExtraFields
  finished : Bool
  parent : Option Nat
  children : List Nat
deriving DecidableEq, Repr

structure Library where
  recordedEnd : Int → ExtraFields → Int
  endTimeNS : (Nat → Result) → Nat → Int
  top : (Nat → Int) → List Nat → Option Nat
  endTimeNS_unfinished : ∀ results event, (results event).finished = false →
    endTimeNS results event = recordedEnd (results event).startTimeNS (results event).extraFields
  endTimeNS_valid : ∀ results event,
    (results event).startTimeNS ≤
      recordedEnd (results event).startTimeNS (results event).extraFields →
    endTimeNS results event = recordedEnd (results event).startTimeNS (results event).extraFields
  endTimeNS_finished : ∀ results event, (results event).finished = true →
    (results event).startTimeNS ≤ endTimeNS results event
  top_least : ∀ ends queue event, top ends queue = some event →
    event ∈ queue ∧ ∀ other ∈ queue, ends event ≤ ends other
  top_none : ∀ ends queue, top ends queue = none → queue = []

inductive Failure
  | internalAssert
  | outOfRange
  | diverges
deriving DecidableEq, Repr

structure Tree where
  results : Nat → Result
  threadStacks : Nat → Option Nat
  endEvents : List Nat

section Building

variable (lib : Library)

def markFinished (event : Nat) (results : Nat → Result) : Except Failure (Nat → Result) :=
  if (results event).finished then .error .internalAssert
  else
    let marked := update results event { results event with finished := true }
    if lib.endTimeNS marked event ≥ (marked event).startTimeNS then .ok marked
    else .error .internalAssert

def setInTreeBuilding (value : Bool) (results : Nat → Result) : Nat → Result := fun event =>
  { results event with extraFields := (results event).extraFields.setInTreeBuilding value }

def findParent (event : Result) (threadStacks : Nat → Option Nat) : Option Nat :=
  match threadStacks event.startTid with
  | some frame => some frame
  | none =>
    if event.extraFields.forwardTid ≠ 0 then threadStacks event.extraFields.forwardTid else none

def attach (event : Nat) (parent : Option Nat) (results : Nat → Result) : Nat → Result :=
  match parent with
  | none => results
  | some frame =>
    let linked := update results event { results event with parent := some frame }
    update linked frame
      { linked frame with children := (linked frame).children ++ [event] }

def pushEvent (event : Nat) (tree : Tree) : Except Failure Tree :=
  if (tree.results event).extraFields.isKineto && (tree.results event).finished then .ok tree
  else if (tree.results event).parent.isSome then .error .internalAssert
  else if (tree.results event).children.any fun child => !(tree.results child).finished then
    .error .internalAssert
  else if (tree.results event).finished then .error .internalAssert
  else
    let tid := (tree.results event).startTid
    let results := attach event (findParent (tree.results event) tree.threadStacks) tree.results
    if lib.endTimeNS results event > (results event).startTimeNS then
      .ok ⟨results, update tree.threadStacks tid (some event), tree.endEvents ++ [event]⟩
    else if lib.endTimeNS results event = noEnd then
      .ok ⟨results, update tree.threadStacks tid (some event), tree.endEvents⟩
    else do
      let results ← markFinished lib event results
      .ok ⟨results, tree.threadStacks, tree.endEvents⟩

def closeFrames (event : Nat) : Nat → Nat → (Nat → Result) → Except Failure (Nat → Result)
  | 0, _, _ => .error .diverges
  | fuel + 1, frame, results =>
    if frame = event then .ok results
    else do
      let results ← markFinished lib frame results
      match (results frame).parent with
      | none => .error .internalAssert
      | some next => closeFrames event fuel next results

def popEvent (event : Nat) (tree : Tree) : Except Failure Tree :=
  if (tree.results event).finished then .ok tree
  else
    let tid := (tree.results event).startTid
    match tree.threadStacks tid with
    | none => .error .outOfRange
    | some frame => do
        let results ← closeFrames lib event (frame + 1) frame tree.results
        let results ← markFinished lib event results
        let threadStacks := update tree.threadStacks tid none
        match (results event).parent with
        | none => .ok ⟨results, threadStacks, tree.endEvents⟩
        | some frame => .ok ⟨results, update threadStacks tid (some frame), tree.endEvents⟩

def popEvents (before : Option Int) : Nat → Tree → Except Failure Tree
  | 0, _ => .error .diverges
  | fuel + 1, tree =>
    match lib.top (lib.endTimeNS tree.results) tree.endEvents with
    | none => .ok tree
    | some event =>
      if ∀ start ∈ before, lib.endTimeNS tree.results event < start then do
        let popped ← popEvent lib event tree
        popEvents before fuel { popped with endEvents := popped.endEvents.erase event }
      else .ok tree

def popAll (before : Option Int) (tree : Tree) : Except Failure Tree :=
  popEvents lib before (tree.endEvents.length + 1) tree

def replay (tree : Tree) (event : Nat) : Except Failure Tree := do
  let tree ← popAll lib (some (tree.results event).startTimeNS) tree
  pushEvent lib event tree

def buildTree (count : Nat) (sortedEvents : Nat → Result) : Except Failure (Nat → Result) := do
  let tree ← (List.range count).foldlM (replay lib)
    ⟨setInTreeBuilding true sortedEvents, fun _ => none, []⟩
  let tree ← popAll lib none tree
  .ok (setInTreeBuilding false tree.results)

end Building

end TorchSupa.Profiler.CallTree
