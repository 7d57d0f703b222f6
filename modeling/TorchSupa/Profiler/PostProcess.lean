import TorchSupa.Logic.Lists
import Mathlib.Data.List.Forall2

/-!
`PostProcess`, which puts together again the calls and the returns that the profile functions have
logged apart. Times are those after `time_converter_`. A trace key is what `nextKey` has given a
number of its own to: the thread, the kind of the call and the call site. What is kept of a system
thread, its id and its `kineto_info_`, is one value.
-/

namespace TorchSupa.Profiler.PostProcess

open Function List Nat

inductive EventType
  | pyCall
  | pyCCall
deriving DecidableEq, Repr

structure TraceKey (σ : Type) where
  pythonTid : Nat
  eventType : EventType
  callsite : σ
deriving DecidableEq, Repr

inductive Happening (σ : Type)
  | call (eventType : EventType) (callsite : σ) (time : Int)
  | returns (eventType : EventType) (time : Int)
deriving DecidableEq, Repr

def Happening.time {σ : Type} : Happening σ → Int
  | .call _ _ time => time
  | .returns _ time => time

structure PythonThread (σ α : Type) where
  systemTid : α
  stack : List (σ × Int)
  log : List (Happening σ)

structure CompressedEvent (σ α : Type) where
  key : TraceKey σ
  systemTid : Option α
  enterT : Int
deriving DecidableEq, Repr

structure Exit where
  t : Int
  pythonTid : Nat
deriving DecidableEq, Repr

structure Result (σ α : Type) where
  startTime : Int
  startTid : Option α
  key : TraceKey σ
  endTime : Option Int
deriving DecidableEq, Repr

section Code

variable {σ α : Type}

def PythonThread.startFrames (self : PythonThread σ α) : List (σ × Int) :=
  (self.stack.take 128).reverse

def PythonThread.exitTimes (self : PythonThread σ α) (eventType : EventType) : List Int :=
  self.log.filterMap fun
    | .returns kind time => if kind = eventType then some time else none
    | .call .. => none

def PythonThread.enters (self : PythonThread σ α) (pythonTid : Nat) : List (CompressedEvent σ α) :=
  self.log.filterMap fun
    | .call eventType callsite time =>
      some ⟨⟨pythonTid, eventType, callsite⟩, some self.systemTid, time⟩
    | .returns .. => none

def PythonThread.starts (self : PythonThread σ α) (pythonTid : Nat) :
    List (CompressedEvent σ α) :=
  self.startFrames.map fun frame => ⟨⟨pythonTid, .pyCall, frame.1⟩, none, frame.2⟩

def exits (threads : List (PythonThread σ α)) (eventType : EventType) : List Exit :=
  (threads.zipIdx.flatMap fun entry =>
    (entry.1.exitTimes eventType).map (Exit.mk · entry.2)).mergeSort
      fun one other => one.t ≤ other.t

def setStartFrames (threads : List (PythonThread σ α)) (enters : List (CompressedEvent σ α)) :
    List (CompressedEvent σ α) :=
  enters ++ threads.zipIdx.flatMap fun entry => entry.1.starts entry.2

structure Replay (σ α : Type) where
  out : List (CompressedEvent σ α) := []
  endTime : Nat → Option Int := fun _ => none
  threadStacks : Nat → List Nat := fun _ => []

def Replay.pop (self : Replay σ α) (pythonTid : Nat) (t : Int) : Option (Replay σ α) :=
  match self.threadStacks pythonTid with
  | [] => none
  | result :: rest => some { self with
      endTime := update self.endTime result (some t)
      threadStacks := update self.threadStacks pythonTid rest }

def popExits (enterT : Int) : List Exit → Replay σ α → Option (List Exit × Replay σ α)
  | [], self => some ([], self)
  | exit :: later, self =>
    if exit.t < enterT then
      (self.pop exit.pythonTid exit.t).bind (popExits enterT later)
    else some (exit :: later, self)

def Replay.push (self : Replay σ α) (enter : CompressedEvent σ α) : Replay σ α :=
  { self with
    out := self.out ++ [enter]
    threadStacks := update self.threadStacks enter.key.pythonTid
      (self.out.length :: self.threadStacks enter.key.pythonTid) }

def replay (eventType : EventType) :
    List (CompressedEvent σ α) → List Exit → Replay σ α → Option (Replay σ α)
  | [], _, self => some self
  | enter :: later, exits, self =>
    if enter.key.eventType = eventType then
      (popExits enter.enterT exits self).bind fun popped =>
        replay eventType later popped.1 (popped.2.push enter)
    else replay eventType later exits self

def closeStack (endTime : Int) : List Nat → (Nat → Option Int) → Nat → Option Int
  | [], ends => ends
  | result :: rest, ends => closeStack endTime rest (update ends result (some endTime))

def Replay.close (self : Replay σ α) (endTime : Int) : List Nat → (Nat → Option Int)
  | [] => self.endTime
  | pythonTid :: others => closeStack endTime (self.threadStacks pythonTid) (self.close endTime others)

def assignTids (eventType : EventType) :
    List (CompressedEvent σ α) → List (CompressedEvent σ α) × (Nat → Option α)
  | [] => ([], fun _ => none)
  | event :: later =>
    let assigned := assignTids eventType later
    let tid := if event.systemTid.isNone && eventType == .pyCall then
        assigned.2 event.key.pythonTid
      else event.systemTid
    ({ event with systemTid := tid } :: assigned.1,
      update assigned.2 event.key.pythonTid tid)

def populate (threads : List (PythonThread σ α)) (endTime : Int) (eventType : EventType)
    (enters : List (CompressedEvent σ α)) : Option (List (Result σ α)) :=
  (replay eventType enters (exits threads eventType) {}).map fun replayed =>
    (assignTids eventType replayed.out).1.zipIdx.map fun entry =>
      ⟨entry.1.enterT, entry.1.systemTid, entry.1.key,
        replayed.close endTime (List.range threads.length) entry.2⟩

def run (threads : List (PythonThread σ α)) (enters : List (CompressedEvent σ α)) (endTime : Int) :
    Option (List (Result σ α)) := do
  let enters := (setStartFrames threads enters).mergeSort fun one other => one.enterT ≤ other.enterT
  let calls ← populate threads endTime .pyCall enters
  let cCalls ← populate threads endTime .pyCCall enters
  some (calls ++ cCalls)

end Code

section Specification

variable {σ α : Type}

inductive Step (σ α : Type)
  | enter (event : CompressedEvent σ α)
  | exit (time : Int)

def stepOf (pythonTid : Nat) (systemTid : α) (eventType : EventType) :
    Happening σ → Option (Step σ α)
  | .call kind callsite time =>
    if kind = eventType then some (.enter ⟨⟨pythonTid, kind, callsite⟩, some systemTid, time⟩)
    else none
  | .returns kind time => if kind = eventType then some (.exit time) else none

def PythonThread.steps (self : PythonThread σ α) (pythonTid : Nat) (eventType : EventType) :
    List (Step σ α) :=
  ((self.starts pythonTid).filter (·.key.eventType == eventType)).map .enter ++
    self.log.filterMap (stepOf pythonTid self.systemTid eventType)

def ownReturn (endTime : Int) : Nat → List (Step σ α) → Int
  | _, [] => endTime
  | depth, .enter _ :: later => ownReturn endTime (depth + 1) later
  | 0, .exit time :: _ => time
  | depth + 1, .exit _ :: later => ownReturn endTime depth later

def calls : List (Step σ α) → List (CompressedEvent σ α × List (Step σ α))
  | [] => []
  | .enter event :: later => (event, later) :: calls later
  | .exit _ :: later => calls later

def returnTimes : List (Step σ α) → List Int
  | [] => []
  | .enter _ :: later => returnTimes later
  | .exit time :: later => time :: returnTimes later

def Followed (enters : List (CompressedEvent σ α)) (eventType : EventType) (time : Int) : Prop :=
  ∃ event ∈ enters, event.key.eventType = eventType ∧ time < event.enterT

/-- With so many calls open, a return that is followed by a call is that of a call that was logged,
and one that is not followed comes with the end of the trace, if its call was logged. -/
def Settled (followed : Int → Prop) (endTime : Int) : Nat → List (Step σ α) → Prop
  | _, [] => True
  | depth, .enter _ :: later => Settled followed endTime (depth + 1) later
  | 0, .exit time :: _ => ¬ followed time
  | depth + 1, .exit time :: later =>
    (followed time ∨ time = endTime) ∧ Settled followed endTime depth later

def PythonThread.results (self : PythonThread σ α) (pythonTid : Nat) (endTime : Int)
    (eventType : EventType) : List (Result σ α) :=
  (calls (self.steps pythonTid eventType)).map fun call =>
    ⟨call.1.enterT, some self.systemTid, call.1.key, some (ownReturn endTime 0 call.2)⟩

structure Logged (threads : List (PythonThread σ α)) (enters : List (CompressedEvent σ α)) :
    Prop where
  known : ∀ event ∈ enters, event.key.pythonTid < threads.length
  queued : ∀ pythonTid thread, threads[pythonTid]? = some thread →
    enters.filter (·.key.pythonTid == pythonTid) = thread.enters pythonTid
  ordered : ∀ thread ∈ threads,
    (thread.startFrames.map (·.2) ++ thread.log.map Happening.time).Pairwise (· ≤ ·)

/-- The returns are settled; no call comes with the tick of an earlier return of its kind, or of a
frame, in its thread; and a thread with frames makes a call. -/
structure Replayable (threads : List (PythonThread σ α)) (enters : List (CompressedEvent σ α))
    (endTime : Int) : Prop where
  settled : ∀ pythonTid (thread : PythonThread σ α), threads[pythonTid]? = some thread →
    ∀ eventType, Settled (Followed (setStartFrames threads enters) eventType) endTime 0
      (thread.steps pythonTid eventType)
  apart : ∀ thread ∈ threads, thread.log.Pairwise fun earlier later =>
    ∀ eventType callsite time, earlier = .returns eventType time →
      later ≠ .call eventType callsite time
  frames : ∀ thread ∈ threads, ∀ frame ∈ thread.startFrames, ∀ callsite,
    .call .pyCall callsite frame.2 ∉ thread.log
  observed : ∀ thread ∈ threads, thread.startFrames ≠ [] →
    ∃ callsite time, .call .pyCall callsite time ∈ thread.log

end Specification

section Following

variable {σ α : Type} {followed : Int → Prop} {endTime : Int} {eventType : EventType}
  {enters : List (CompressedEvent σ α)} {exits : List Exit} {current : Replay σ α} {tid : Nat}

def Ordered : List (Step σ α) → Prop
  | [] => True
  | .enter event :: later => (∀ time ∈ returnTimes later, event.enterT ≤ time) ∧ Ordered later
  | .exit time :: later => (∀ call ∈ calls later, time < call.1.enterT) ∧ Ordered later

def CompressedEvent.isOf (tid : Nat) (eventType : EventType) (event : CompressedEvent σ α) : Bool :=
  event.key.pythonTid == tid && event.key.eventType == eventType

def Replay.resultsOf (current : Replay σ α) (tid : Nat) : List (CompressedEvent σ α × Nat) :=
  current.out.zipIdx.filter (·.1.key.pythonTid == tid)

/-- A result against its call and what happened behind it: either it has the time of the return, or
the return is still to come. -/
def Paired (endTime : Int) (stack : List Nat) (ends : Nat → Option Int) (rest : List (Step σ α))
    (result : CompressedEvent σ α × Nat) (call : CompressedEvent σ α × List (Step σ α)) : Prop :=
  result.1 = call.1 ∧
    (result.2 ∉ stack ∧ ends result.2 = some (ownReturn endTime 0 call.2) ∨
      ∃ depth, stack[depth]? = some result.2 ∧
        ownReturn endTime 0 call.2 = ownReturn endTime depth rest)

/-- The replay against what has happened in a thread, the rest of which is still to be replayed. -/
structure Follows (followed : Int → Prop) (steps : List (Step σ α)) (endTime : Int)
    (eventType : EventType) (enters : List (CompressedEvent σ α)) (exits : List Exit)
    (current : Replay σ α) (tid : Nat) (rest : List (Step σ α)) : Prop where
  entered : enters.filter (·.isOf tid eventType) = (calls rest).map (·.1)
  returned : (exits.filter (·.pythonTid == tid)).map (·.t) = returnTimes rest
  ordered : Ordered rest
  settled : Settled followed endTime (current.threadStacks tid).length rest
  places : ∀ result ∈ current.threadStacks tid,
    ∃ event, current.out[result]? = some event ∧ event.key.pythonTid = tid
  nodup : (current.threadStacks tid).Nodup
  paired : ∃ done, calls steps = done ++ calls rest ∧
    List.Forall₂ (Paired endTime (current.threadStacks tid) current.endTime rest) (current.resultsOf tid)
      done

variable {steps rest : List (Step σ α)}

open Replay

theorem Replay.getElem?_of_resultsOf {result : CompressedEvent σ α × Nat}
    (member : result ∈ current.resultsOf tid) :
    current.out[result.2]? = some result.1 ∧ result.1.key.pythonTid = tid := by
  obtain ⟨listed, owner⟩ := mem_filter.mp member
  exact ⟨mem_zipIdx_iff_getElem?.mp listed, by simpa using owner⟩

variable {event : CompressedEvent σ α}

theorem Follows.skip
    (follows : Follows followed steps endTime eventType (event :: enters) exits current tid rest)
    (other : event.isOf tid eventType = false) :
    Follows followed steps endTime eventType enters exits current tid rest :=
  { follows with
    entered := by
      have same := follows.entered
      rwa [filter_cons_of_neg (by simp [other])] at same }

variable {exit : Exit} {later : List (Step σ α)}

theorem Follows.next_exit
    (follows : Follows followed steps endTime eventType enters (exit :: exits) current
      exit.pythonTid rest)
    (early : ∀ event ∈ enters, event.key.eventType = eventType → exit.t < event.enterT) :
    ∃ later, rest = .exit exit.t :: later := by
  have returned := follows.returned
  rw [filter_cons_of_pos (by simp), map_cons] at returned
  cases rest with
  | nil => cases returned
  | cons step later =>
    cases step with
    | exit time => exact ⟨later, by rw [(cons.inj returned).1]⟩
    | enter event =>
      have member : event ∈ enters.filter (·.isOf exit.pythonTid eventType) := by
        rw [follows.entered]
        exact .head _
      obtain ⟨queued, kind⟩ := mem_filter.mp member
      have after := early event queued (beq_iff_eq.mp (Bool.and_eq_true_iff.mp kind).2)
      have before := follows.ordered.1 exit.t (by
        rw [show returnTimes later = _ from returned.symm]
        exact (.head _))
      omega

theorem Follows.next_enter
    (follows : Follows followed steps endTime eventType (event :: enters) exits current tid rest)
    (is : event.isOf tid eventType = true) (late : ∀ exit ∈ exits, event.enterT ≤ exit.t) :
    ∃ later, rest = .enter event :: later := by
  have entered := follows.entered
  rw [filter_cons_of_pos is] at entered
  cases rest with
  | nil => cases entered
  | cons step later =>
    cases step with
    | enter other => exact ⟨later, by rw [(cons.inj entered).1]⟩
    | exit time =>
      have first : time ∈ (exits.filter (·.pythonTid == tid)).map (·.t) := by
        rw [follows.returned]
        exact .head _
      obtain ⟨exit, member, rfl⟩ := mem_map.mp first
      have after := late exit (mem_filter.mp member).1
      have called : event ∈ (calls later).map (·.1) := by
        rw [show (calls later).map (·.1) = _ from entered.symm]
        exact .head _
      obtain ⟨call, there, rfl⟩ := mem_map.mp called
      have before := follows.ordered.1 call there
      omega

theorem Follows.pop
    (follows : Follows followed steps endTime eventType enters (exit :: exits) current
      exit.pythonTid (.exit exit.t :: later)) (replayed : followed exit.t) :
    ∃ result stack, current.threadStacks exit.pythonTid = result :: stack ∧
      Follows followed steps endTime eventType enters exits { current with
        endTime := update current.endTime result (some exit.t)
        threadStacks := update current.threadStacks exit.pythonTid stack } exit.pythonTid later := by
  obtain ⟨entered, returned, ordered, settled, places, nodup, done, split, pairs⟩ := follows
  rw [filter_cons_of_pos (by simp), map_cons] at returned
  cases opened : current.threadStacks exit.pythonTid with
  | nil =>
    rw [opened] at settled
    exact absurd replayed settled
  | cons result stack =>
    rw [opened] at settled places nodup pairs
    obtain ⟨popped, fresh⟩ := nodup_cons.mp nodup
    refine ⟨result, stack, rfl, entered, (cons.inj returned).2, ordered.2, ?_, ?_, ?_, done,
      split, ?_⟩
    · simp only [update_self]
      exact settled.2
    · simp only [update_self]
      exact fun other member => places other (.tail _ member)
    · simpa only [update_self] using fresh
    · simp only [update_self]
      refine pairs.imp ?_
      rintro entry call ⟨agree, ⟨closed, ended⟩ | ⟨depth, at_, return_⟩⟩
      · rw [mem_cons, not_or] at closed
        refine ⟨agree, .inl ⟨closed.2, ?_⟩⟩
        rw [update_of_ne closed.1]
        exact ended
      · cases depth with
        | zero =>
          obtain rfl : result = entry.2 := by simpa using at_
          exact ⟨agree, .inl ⟨popped, by rw [update_self, return_]; rfl⟩⟩
        | succ depth => exact ⟨agree, .inr ⟨depth, by simpa using at_, return_⟩⟩

theorem Follows.pop_other {result : Nat} {stack : List Nat}
    (follows : Follows followed steps endTime eventType enters (exit :: exits) current tid rest)
    (different : tid ≠ exit.pythonTid) (there : current.out[result]? = some event)
    (owner : event.key.pythonTid = exit.pythonTid) :
    Follows followed steps endTime eventType enters exits { current with
      endTime := update current.endTime result (some exit.t)
      threadStacks := update current.threadStacks exit.pythonTid stack } tid rest := by
  obtain ⟨entered, returned, ordered, settled, places, nodup, done, split, pairs⟩ := follows
  rw [filter_cons_of_neg (by simpa using Ne.symm different)] at returned
  refine ⟨entered, returned, ordered, ?_, ?_, ?_, done, split, ?_⟩
  all_goals simp only [update_of_ne different]
  · exact settled
  · exact places
  · exact nodup
  · have owned : ∀ entry ∈ current.resultsOf tid, entry.2 ≠ result := by
      rintro entry member rfl
      obtain ⟨here, own⟩ := current.getElem?_of_resultsOf member
      rw [there] at here
      have agree := congrArg (·.key.pythonTid) (Option.some.inj here)
      exact different (own.symm.trans (agree.symm.trans owner))
    refine ((forall₂_and_left _ _).mpr ⟨owned, pairs⟩).imp ?_
    rintro entry call ⟨apart, agree, ⟨closed, ended⟩ | open_⟩
    · exact ⟨agree, .inl ⟨closed, by rw [update_of_ne apart]; exact ended⟩⟩
    · exact ⟨agree, .inr open_⟩

theorem Replay.resultsOf_push (event : CompressedEvent σ α) :
    (current.push event).resultsOf tid = current.resultsOf tid ++
      if event.key.pythonTid = tid then [(event, current.out.length)] else [] := by
  unfold resultsOf push
  simp only [zipIdx_append, filter_append, zipIdx_singleton, Nat.zero_add]
  congr 1
  split
  · simp [*]
  · simp [*]

theorem Follows.push
    (follows : Follows followed steps endTime eventType (event :: enters) exits current tid
      (.enter event :: later)) (is : event.isOf tid eventType = true) :
    Follows followed steps endTime eventType enters exits (current.push event) tid later := by
  obtain ⟨entered, returned, ordered, settled, places, nodup, done, split, pairs⟩ := follows
  rw [filter_cons_of_pos is] at entered
  obtain rfl : event.key.pythonTid = tid := beq_iff_eq.mp (Bool.and_eq_true_iff.mp is).1
  have threadStacks : (current.push event).threadStacks event.key.pythonTid =
      current.out.length :: current.threadStacks event.key.pythonTid := update_self _ _ _
  have bounded : ∀ result ∈ current.threadStacks event.key.pythonTid, result < current.out.length := by
    intro result member
    obtain ⟨_, there, _⟩ := places result member
    exact (List.getElem?_eq_some_iff.mp there).1
  refine ⟨(List.cons.inj entered).2, returned, ordered.2, ?_, ?_, ?_, done ++ [(event, later)],
    ?_, ?_⟩
  · rw [threadStacks]
    exact settled
  · rw [threadStacks]
    intro result member
    rcases mem_cons.mp member with rfl | old
    · exact ⟨event, getElem?_concat_length, rfl⟩
    · obtain ⟨other, there, owner⟩ := places result old
      exact ⟨other, (getElem?_append_left (bounded result old)).trans there, owner⟩
  · rw [threadStacks]
    exact nodup_cons.mpr ⟨fun member => Nat.lt_irrefl _ (bounded _ member), nodup⟩
  · rw [split]
    simp [calls]
  · rw [threadStacks, resultsOf_push, if_pos rfl]
    refine rel_append ?_ (.cons ⟨rfl, .inr ⟨0, rfl, rfl⟩⟩ .nil)
    have older : ∀ entry ∈ current.resultsOf event.key.pythonTid, entry.2 ≠ current.out.length :=
      fun entry member => Nat.ne_of_lt
        (List.getElem?_eq_some_iff.mp (current.getElem?_of_resultsOf member).1).1
    refine ((forall₂_and_left _ _).mpr ⟨older, pairs⟩).imp ?_
    rintro entry call ⟨apart, agree, ⟨closed, ended⟩ | ⟨depth, at_, return_⟩⟩
    · exact ⟨agree, .inl ⟨not_mem_cons_of_ne_of_not_mem apart closed, ended⟩⟩
    · exact ⟨agree, .inr ⟨depth + 1, at_, return_⟩⟩

theorem Follows.push_other
    (follows : Follows followed steps endTime eventType (event :: enters) exits current tid rest)
    (different : event.key.pythonTid ≠ tid) :
    Follows followed steps endTime eventType enters exits (current.push event) tid rest := by
  obtain ⟨entered, returned, ordered, settled, places, nodup, done, split, pairs⟩ :=
    follows.skip (by simp [CompressedEvent.isOf, different])
  have threadStacks : (current.push event).threadStacks tid = current.threadStacks tid :=
    update_of_ne (Ne.symm different) _ _
  refine ⟨entered, returned, ordered, ?_, ?_, ?_, done, split, ?_⟩
  · rw [threadStacks]
    exact settled
  · rw [threadStacks]
    intro result member
    obtain ⟨other, there, owner⟩ := places result member
    have inside := (List.getElem?_eq_some_iff.mp there).1
    exact ⟨other, (getElem?_append_left inside).trans there, owner⟩
  · rw [threadStacks]
    exact nodup
  · rw [threadStacks, resultsOf_push, if_neg different, append_nil]
    exact pairs

end Following

section Replaying

variable {σ α : Type} {followed : Int → Prop} {endTime : Int} {eventType : EventType}
  {steps : Nat → List (Step σ α)}

variable {current : Replay σ α}

theorem popExits_spec {enters : List (CompressedEvent σ α)} {enterT : Int}
    (next : ∀ event ∈ enters, event.key.eventType = eventType → enterT ≤ event.enterT)
    (before : ∀ time, time < enterT → followed time)
    (exits : List Exit) (sorted : exits.Pairwise (·.t ≤ ·.t)) (following : ∀ tid, ∃ rest,
      Follows followed (steps tid) endTime eventType enters exits current tid rest) :
    ∃ left after, popExits enterT exits current = some (left, after) ∧
      (∀ tid, ∃ rest, Follows followed (steps tid) endTime eventType enters left after tid rest) ∧
      left <:+ exits ∧ ∀ exit ∈ left, enterT ≤ exit.t := by
  induction exits generalizing current with
  | nil => exact ⟨[], current, rfl, following, suffix_refl _, by simp⟩
  | cons exit later ih =>
    obtain ⟨first, ordered⟩ := pairwise_cons.mp sorted
    unfold popExits
    split
    next early =>
      obtain ⟨rest, here⟩ := following exit.pythonTid
      obtain ⟨behind, rfl⟩ := here.next_exit fun event member kind =>
        Int.lt_of_lt_of_le early (next event member kind)
      obtain ⟨result, stack, opened, popped⟩ := here.pop (before _ early)
      obtain ⟨event, there, owner⟩ := here.places result (opened ▸ (.head _))
      rw [Replay.pop, opened, Option.bind_some]
      obtain ⟨left, after, ran, still, sub, late⟩ := ih ordered fun tid => by
        by_cases same : tid = exit.pythonTid
        · subst same
          exact ⟨behind, popped⟩
        · obtain ⟨rest, follows⟩ := following tid
          exact ⟨rest, follows.pop_other same there owner⟩
      exact ⟨left, after, ran, still, sub.trans (suffix_cons _ _), late⟩
    next late =>
      refine ⟨exit :: later, current, rfl, following, suffix_refl _, fun other member => ?_⟩
      rcases mem_cons.mp member with rfl | old
      · exact Int.not_lt.mp late
      · exact Int.le_trans (Int.not_lt.mp late) (first other old)

theorem replay_spec (enters : List (CompressedEvent σ α))
    (sorted : enters.Pairwise (·.enterT ≤ ·.enterT))
    (known : ∀ time, Followed enters eventType time → followed time) {exits : List Exit}
    (sortedExits : exits.Pairwise (·.t ≤ ·.t)) (following : ∀ tid, ∃ rest,
      Follows followed (steps tid) endTime eventType enters exits current tid rest) :
    ∃ left after, replay eventType enters exits current = some after ∧
      (∀ tid, ∃ rest, Follows followed (steps tid) endTime eventType [] left after tid rest) ∧
      left <:+ exits ∧ ∀ exit ∈ left, ¬ Followed enters eventType exit.t := by
  induction enters generalizing exits current with
  | nil =>
    refine ⟨exits, current, rfl, following, suffix_refl _, fun exit _ => ?_⟩
    rintro ⟨_, none', _⟩
    cases none'
  | cons enter later ih =>
    obtain ⟨first, ordered⟩ := pairwise_cons.mp sorted
    have knownLater : ∀ time, Followed later eventType time → followed time := by
      rintro time ⟨event, member, is⟩
      exact known time ⟨event, mem_cons_of_mem _ member, is⟩
    unfold replay
    split
    next kind =>
      obtain ⟨left, popped, pops, still, sub, late⟩ := popExits_spec (fun event member _ => by
        rcases mem_cons.mp member with rfl | old
        · exact Int.le_refl _
        · exact first event old) (fun time early => known time ⟨enter, (.head _), kind,
          early⟩) exits sortedExits following
      rw [pops, Option.bind_some]
      have pushed : ∀ tid, ∃ rest, Follows followed (steps tid) endTime eventType later left
          (popped.push enter) tid rest := fun tid => by
        obtain ⟨rest, follows⟩ := still tid
        by_cases same : enter.key.pythonTid = tid
        · have is : enter.isOf tid eventType = true := by
            simp [CompressedEvent.isOf, same, kind]
          obtain ⟨behind, rfl⟩ := follows.next_enter is late
          exact ⟨behind, follows.push is⟩
        · exact ⟨rest, follows.push_other same⟩
      obtain ⟨unread, after, ran, done, sub', unfollowed⟩ := ih ordered knownLater
        (sortedExits.sublist sub.sublist) pushed
      refine ⟨unread, after, ran, done, sub'.trans sub, fun exit member => ?_⟩
      rintro ⟨event, there, is, before⟩
      rcases mem_cons.mp there with rfl | old
      · exact absurd before (Int.not_lt.mpr (late exit (sub'.mem member)))
      · exact unfollowed exit member ⟨event, old, is, before⟩
    next other =>
      obtain ⟨unread, after, ran, done, sub, unfollowed⟩ := ih ordered knownLater sortedExits
        fun tid => by
          obtain ⟨rest, follows⟩ := following tid
          exact ⟨rest, follows.skip (by simp [CompressedEvent.isOf, other])⟩
      refine ⟨unread, after, ran, done, sub, fun exit member => ?_⟩
      rintro ⟨event, there, is, before⟩
      rcases mem_cons.mp there with rfl | old
      · exact other is
      · exact unfollowed exit member ⟨event, old, is, before⟩

theorem closeStack_eq (stack : List Nat) (ends : Nat → Option Int) (result : Nat) :
    closeStack endTime stack ends result =
      if result ∈ stack then some endTime else ends result := by
  induction stack generalizing ends with
  | nil => simp [closeStack]
  | cons first rest ih =>
    rw [closeStack, ih]
    by_cases same : result = first
    · subst same
      simp
    · simp [same]

theorem Replay.close_eq (current : Replay σ α) (tids : List Nat) (result : Nat) :
    current.close endTime tids result =
      if ∃ tid ∈ tids, result ∈ current.threadStacks tid then some endTime
      else current.endTime result := by
  induction tids with
  | nil => simp [close]
  | cons tid others ih =>
    rw [close, closeStack_eq, ih]
    by_cases here : result ∈ current.threadStacks tid
    · simp [here]
    · simp [here]

theorem ownReturn_idle {rest : List (Step σ α)} (called : calls rest = [])
    (unfollowed : ∀ time ∈ returnTimes rest, ¬ followed time) {depth : Nat} {size : Nat}
    (settled : Settled followed endTime size rest) (inside : depth < size) :
    ownReturn endTime depth rest = endTime := by
  induction rest generalizing depth size with
  | nil => simp [ownReturn]
  | cons step later ih =>
    cases step with
    | enter event => cases called
    | exit time =>
      obtain ⟨first, others⟩ := forall_mem_cons.mp unfollowed
      cases size with
      | zero => omega
      | succ size =>
        have ends : time = endTime := settled.1.resolve_left first
        cases depth with
        | zero => exact ends
        | succ depth => exact ih called others settled.2 (lt_of_succ_lt_succ inside)

theorem Follows.closed {steps rest : List (Step σ α)} {left : List Exit}
    {tid : Nat} {tids : List Nat}
    (follows : Follows followed steps endTime eventType [] left current tid rest)
    (member : tid ∈ tids) (unfollowed : ∀ exit ∈ left, ¬ followed exit.t)
    (places : ∀ other, ∀ result ∈ current.threadStacks other,
      ∃ event, current.out[result]? = some event ∧ event.key.pythonTid = other) :
    List.Forall₂ (fun entry call => entry.1 = call.1 ∧
      current.close endTime tids entry.2 = some (ownReturn endTime 0 call.2))
      (current.resultsOf tid) (calls steps) := by
  obtain ⟨done, split, pairs⟩ := follows.paired
  have none' : calls rest = [] := map_eq_nil_iff.mp follows.entered.symm
  have returned : ∀ time ∈ returnTimes rest, ¬ followed time := by
    rw [← follows.returned]
    intro time there
    obtain ⟨exit, listed, rfl⟩ := mem_map.mp there
    exact unfollowed exit (mem_filter.mp listed).1
  rw [split, none', append_nil]
  have owned : ∀ entry ∈ current.resultsOf tid, ∀ other, entry.2 ∈ current.threadStacks other →
      other = tid := by
    intro entry listed other stacked
    obtain ⟨here, own⟩ := current.getElem?_of_resultsOf listed
    obtain ⟨event, there, owner⟩ := places other entry.2 stacked
    rw [there] at here
    exact owner.symm.trans ((congrArg (·.key.pythonTid) (Option.some.inj here)).trans own)
  refine ((forall₂_and_left _ _).mpr ⟨owned, pairs⟩).imp ?_
  rintro entry call ⟨own, agree, ⟨closed, ends⟩ | ⟨depth, at_, return_⟩⟩
  · refine ⟨agree, ?_⟩
    rw [Replay.close_eq, if_neg]
    · exact ends
    · rintro ⟨other, _, stacked⟩
      exact closed (own other stacked ▸ stacked)
  · refine ⟨agree, ?_⟩
    rw [Replay.close_eq, if_pos ⟨tid, member, List.mem_of_getElem? at_⟩, return_,
      ownReturn_idle none' returned follows.settled (List.getElem?_eq_some_iff.mp at_).1]

theorem assignTids_eq (tidOf : Nat → Option α) (events : List (CompressedEvent σ α))
    (known : ∀ event ∈ events, event.systemTid = none ∧ eventType = .pyCall ∨
      event.systemTid = tidOf event.key.pythonTid ∧ event.systemTid.isSome)
    (observed : ∀ event later, event :: later <:+ events → event.systemTid = none →
      ∃ next ∈ later, next.key.pythonTid = event.key.pythonTid) :
    (assignTids eventType events).1 = events.map (fun event =>
        { event with systemTid := tidOf event.key.pythonTid }) ∧
      ∀ event ∈ events,
        (assignTids eventType events).2 event.key.pythonTid = tidOf event.key.pythonTid := by
  induction events with
  | nil => simp [assignTids]
  | cons event later ih =>
    obtain ⟨first, others⟩ := forall_mem_cons.mp known
    obtain ⟨assigned, map⟩ := ih others fun other behind sub =>
      observed other behind (sub.trans (suffix_cons _ _))
    have tid : (if event.systemTid.isNone && eventType == .pyCall then
        (assignTids eventType later).2 event.key.pythonTid else event.systemTid) =
        tidOf event.key.pythonTid := by
      rcases first with ⟨none', kind⟩ | ⟨same, some_⟩
      · obtain ⟨next, member, owner⟩ := observed event later (suffix_refl _) none'
        rw [none', kind, ← owner, ← map next member, kind]
        rfl
      · have not' : event.systemTid.isNone = false := by
          rw [← Option.not_isSome, some_]
          rfl
        rw [not', Bool.false_and, if_neg Bool.false_ne_true, same]
    refine ⟨by rw [assignTids, tid, assigned]; rfl, ?_⟩
    rw [assignTids, tid]
    refine forall_mem_cons.mpr ⟨update_self _ _ _, fun other member => ?_⟩
    by_cases same : other.key.pythonTid = event.key.pythonTid
    · rw [same]
      exact update_self _ _ _
    · exact (update_of_ne same _ _).trans (map other member)

end Replaying

section Recording

variable {σ α : Type} {eventType : EventType} {tid : Nat}

theorem calls_append (events : List (CompressedEvent σ α)) (later : List (Step σ α)) :
    (calls (events.map .enter ++ later)).map (·.1) = events ++ (calls later).map (·.1) := by
  induction events with
  | nil => rfl
  | cons event events ih => simp [calls, ih]

theorem returnTimes_append (events : List (CompressedEvent σ α)) (later : List (Step σ α)) :
    returnTimes (events.map .enter ++ later) = returnTimes later := by
  induction events with
  | nil => rfl
  | cons event events ih => simpa [returnTimes] using ih

theorem ordered_append {events : List (CompressedEvent σ α)} {later : List (Step σ α)}
    (before : ∀ event ∈ events, ∀ time ∈ returnTimes later, event.enterT ≤ time)
    (ordered : Ordered later) : Ordered (events.map .enter ++ later) := by
  induction events with
  | nil => exact ordered
  | cons event events ih =>
    obtain ⟨first, others⟩ := forall_mem_cons.mp before
    refine ⟨fun time member => first time ?_, ih others⟩
    rw [← returnTimes_append events later]
    exact member

theorem calls_log (systemTid : α) (log : List (Happening σ)) :
    (calls (log.filterMap (stepOf tid systemTid eventType))).map (·.1) =
      (PythonThread.enters ⟨systemTid, [], log⟩ tid).filter (·.key.eventType == eventType) := by
  induction log with
  | nil => rfl
  | cons happening log ih =>
    unfold PythonThread.enters at ih ⊢
    cases happening with
    | call kind callsite time =>
      by_cases same : kind = eventType
      · simp [stepOf, same, calls, ih]
      · simp [stepOf, same, ih]
    | returns kind time =>
      by_cases same : kind = eventType
      · simp [stepOf, same, calls, ih]
      · simp [stepOf, same, ih]

theorem returnTimes_log (systemTid : α) (log : List (Happening σ)) :
    returnTimes (log.filterMap (stepOf tid systemTid eventType)) =
      PythonThread.exitTimes (⟨systemTid, [], log⟩ : PythonThread σ α) eventType := by
  induction log with
  | nil => rfl
  | cons happening log ih =>
    unfold PythonThread.exitTimes at ih ⊢
    cases happening with
    | call kind callsite time =>
      by_cases same : kind = eventType
      · simp [stepOf, same, returnTimes, ih]
      · simp [stepOf, same, ih]
    | returns kind time =>
      by_cases same : kind = eventType
      · simp [stepOf, same, returnTimes, ih]
      · simp [stepOf, same, ih]

variable {thread : PythonThread σ α} {event : CompressedEvent σ α}

theorem mem_enters : event ∈ thread.enters tid ↔ event.key.pythonTid = tid ∧
      event.systemTid = some thread.systemTid ∧
      .call event.key.eventType event.key.callsite event.enterT ∈ thread.log := by
  unfold PythonThread.enters
  rw [mem_filterMap]
  constructor
  · rintro ⟨happening, member, is⟩
    cases happening with
    | call kind callsite time =>
      cases is
      exact ⟨rfl, rfl, member⟩
    | returns kind time => cases is
  · rintro ⟨own, system, member⟩
    refine ⟨_, member, ?_⟩
    obtain ⟨⟨pythonTid, kind, callsite⟩, systemTid, enterT⟩ := event
    obtain rfl : pythonTid = tid := own
    obtain rfl : systemTid = _ := system
    rfl

theorem mem_exitTimes {time : Int} :
    time ∈ thread.exitTimes eventType ↔ .returns eventType time ∈ thread.log := by
  unfold PythonThread.exitTimes
  rw [mem_filterMap]
  constructor
  · rintro ⟨happening, member, is⟩
    cases happening with
    | call kind callsite time => cases is
    | returns kind time =>
      dsimp only at is
      by_cases same : kind = eventType
      · rw [if_pos same] at is
        cases is
        exact same ▸ member
      · rw [if_neg same] at is
        cases is
  · exact fun member => ⟨_, member, if_pos rfl⟩

theorem ordered_log (systemTid : α) {log : List (Happening σ)}
    (clock : (log.map Happening.time).Pairwise (· ≤ ·))
    (apart : log.Pairwise fun earlier later => ∀ eventType callsite time,
      earlier = .returns eventType time → later ≠ .call eventType callsite time) :
    Ordered (log.filterMap (stepOf tid systemTid eventType)) := by
  induction log with
  | nil => trivial
  | cons happening log ih =>
    obtain ⟨first, rest⟩ := pairwise_cons.mp clock
    obtain ⟨tick, ticks⟩ := pairwise_cons.mp apart
    have ordered := ih rest ticks
    have after : ∀ other ∈ log, happening.time ≤ other.time := fun other member =>
      first _ (mem_map_of_mem member)
    cases happening with
    | call kind callsite time =>
      by_cases same : kind = eventType
      · rw [filterMap_cons_some (by rw [stepOf, if_pos same])]
        refine ⟨fun returned member => ?_, ordered⟩
        rw [returnTimes_log, mem_exitTimes] at member
        exact after _ member
      · rw [filterMap_cons_none (by rw [stepOf, if_neg same])]
        exact ordered
    | returns kind time =>
      by_cases same : kind = eventType
      · rw [filterMap_cons_some (by rw [stepOf, if_pos same])]
        refine ⟨fun call member => ?_, ordered⟩
        have listed := mem_map_of_mem (f := (·.1)) member
        rw [calls_log] at listed
        obtain ⟨entered, is⟩ := mem_filter.mp listed
        obtain ⟨_, _, there⟩ := mem_enters.mp entered
        rw [beq_iff_eq.mp is, ← same] at there
        have late := after _ there
        have other := tick _ there kind call.1.key.callsite time rfl
        refine Int.lt_iff_le_and_ne.mpr ⟨late, fun equal => other ?_⟩
        rw [show time = call.1.enterT from equal]
      · rw [filterMap_cons_none (by rw [stepOf, if_neg same])]
        exact ordered

theorem mem_starts
    (member : event ∈ thread.starts tid) : event.key.pythonTid = tid ∧ event.systemTid = none ∧
      event.key.eventType = .pyCall ∧ ∃ frame ∈ thread.startFrames, frame.2 = event.enterT := by
  obtain ⟨frame, listed, rfl⟩ := mem_map.mp member
  exact ⟨rfl, rfl, rfl, frame, listed, rfl⟩

variable {threads : List (PythonThread σ α)} {enters : List (CompressedEvent σ α)} {endTime : Int}

variable (logged : Logged threads enters)
include logged

theorem Logged.recorded (at_ : threads[tid]? = some thread) :
    (setStartFrames threads enters).filter (·.key.pythonTid == tid) =
      thread.enters tid ++ thread.starts tid := by
  rw [setStartFrames, filter_append, logged.queued tid thread at_]
  have frames := Lists.filter_flatMap_zipIdx
    (fun event : CompressedEvent σ α => event.key.pythonTid)
    (f := fun entry : PythonThread σ α × Nat => entry.1.starts entry.2)
    (fun one i other member => (mem_starts member).1) 0 at_
  rw [Nat.zero_add] at frames
  rw [frames]

theorem Logged.unknown (event : CompressedEvent σ α)
    (member : event ∈ setStartFrames threads enters) : event.key.pythonTid < threads.length := by
  rcases mem_append.mp member with queued | frame
  · exact logged.known event queued
  · obtain ⟨entry, listed, there⟩ := mem_flatMap.mp frame
    rw [(mem_starts there).1]
    exact (mem_zipIdx' listed).1

theorem Logged.frames_first (member : thread ∈ threads)
    (frames : ∀ frame ∈ thread.startFrames, ∀ callsite, .call .pyCall callsite frame.2 ∉ thread.log)
    {start : CompressedEvent σ α} (starts : start ∈ thread.starts tid)
    (called : event ∈ thread.enters tid) (kind : event.key.eventType = .pyCall) :
    start.enterT < event.enterT := by
  obtain ⟨_, _, _, frame, listed, time⟩ := mem_starts starts
  obtain ⟨_, _, there⟩ := mem_enters.mp called
  rw [kind] at there
  have order := (pairwise_append.mp (logged.ordered thread member)).2.2 frame.2
    (mem_map_of_mem listed) _ (mem_map_of_mem there)
  rw [← time]
  refine Int.lt_iff_le_and_ne.mpr ⟨order, fun equal => frames frame listed event.key.callsite ?_⟩
  rw [show frame.2 = event.enterT from equal]
  exact there

end Recording

section Runs

variable {σ α : Type} {threads : List (PythonThread σ α)} {enters : List (CompressedEvent σ α)}
  {endTime : Int} {eventType : EventType} {tid : Nat} {thread : PythonThread σ α}

def sortedEnters (threads : List (PythonThread σ α)) (enters : List (CompressedEvent σ α)) :
    List (CompressedEvent σ α) :=
  (setStartFrames threads enters).mergeSort fun one other => one.enterT ≤ other.enterT

theorem sortedEnters_sorted (threads : List (PythonThread σ α))
    (enters : List (CompressedEvent σ α)) :
    (sortedEnters threads enters).Pairwise (·.enterT ≤ ·.enterT) := by
  refine Pairwise.imp ?_ (pairwise_mergeSort
    (fun _ _ _ => by simpa using Int.le_trans) (fun one other => by simpa using Int.le_total _ _)
    (setStartFrames threads enters))
  exact fun le => of_decide_eq_true le

theorem exits_sorted (threads : List (PythonThread σ α)) (eventType : EventType) :
    (exits threads eventType).Pairwise (·.t ≤ ·.t) := by
  refine Pairwise.imp ?_ (pairwise_mergeSort
    (fun _ _ _ => by simpa using Int.le_trans) (fun one other => by simpa using Int.le_total _ _) _)
  exact fun le => of_decide_eq_true le

theorem sortedEnters_filter {keep : CompressedEvent σ α → Bool}
    (sorted : ((setStartFrames threads enters).filter keep).Pairwise (·.enterT ≤ ·.enterT)) :
    (sortedEnters threads enters).filter keep = (setStartFrames threads enters).filter keep :=
  Lists.filter_mergeSort (fun _ _ _ => by simpa using Int.le_trans)
    (fun one other => by simpa using Int.le_total _ _) (sorted.imp (by simp))

theorem Logged.entered (logged : Logged threads enters)
    (replayable : Replayable threads enters endTime) (at_ : threads[tid]? = some thread)
    (eventType : EventType) :
    (sortedEnters threads enters).filter (·.isOf tid eventType) =
      (calls (thread.steps tid eventType)).map (·.1) := by
  have member : thread ∈ threads := mem_of_getElem? at_
  obtain ⟨startOrder, logOrder, _⟩ := pairwise_append.mp (logged.ordered thread member)
  -- what is kept of the thread, started and called events apart
  have parts : ∀ started : Bool, (setStartFrames threads enters).filter
      (fun event => (event.systemTid.isNone == started) && event.isOf tid eventType) =
      ((if started then thread.starts tid else thread.enters tid)).filter
        (·.key.eventType == eventType) := by
    intro started
    have split : ∀ list : List (CompressedEvent σ α), list.filter
        (fun event => (event.systemTid.isNone == started) && event.isOf tid eventType) =
        ((list.filter (·.key.pythonTid == tid)).filter (·.systemTid.isNone == started)).filter
          (·.key.eventType == eventType) := by
      intro list
      rw [filter_filter, filter_filter]
      refine filter_congr fun event _ => ?_
      unfold CompressedEvent.isOf
      cases event.systemTid.isNone == started <;> cases event.key.pythonTid == tid <;>
        cases event.key.eventType == eventType <;> rfl
    rw [split, logged.recorded at_, filter_append]
    congr 1
    have called : ∀ event ∈ thread.enters tid, event.systemTid.isNone = false := by
      intro event there
      rw [(mem_enters.mp there).2.1]
      rfl
    have starting : ∀ event ∈ thread.starts tid, event.systemTid.isNone = true := by
      intro event there
      rw [(mem_starts there).2.1]
      rfl
    cases started with
    | true =>
      rw [filter_eq_nil_iff.mpr fun event there => by simp [called event there],
        filter_eq_self.mpr fun event there => by simp [starting event there], nil_append]
      rfl
    | false =>
      rw [filter_eq_self.mpr fun event there => by simp [called event there],
        filter_eq_nil_iff.mpr fun event there => by simp [starting event there],
        append_nil]
      rfl
  have starts : (thread.starts tid).Pairwise (·.enterT ≤ ·.enterT) :=
    pairwise_map.mpr (pairwise_map.mp startOrder)
  have entered : (thread.enters tid).Pairwise (·.enterT ≤ ·.enterT) := by
    refine Pairwise.filterMap _ (fun one other le event is event' is' => ?_)
      (pairwise_map.mp logOrder)
    cases one with
    | returns => cases is
    | call =>
      cases other with
      | returns => cases is'
      | call =>
        cases is
        cases is'
        exact le
  have kept : ∀ started : Bool, (sortedEnters threads enters).filter
      (fun event => (event.systemTid.isNone == started) && event.isOf tid eventType) =
      (if started then thread.starts tid else thread.enters tid).filter
        (·.key.eventType == eventType) := by
    intro started
    rw [← parts, sortedEnters_filter]
    rw [parts]
    cases started with
    | true => exact starts.filter _
    | false => exact entered.filter _
  have first : ((sortedEnters threads enters).filter (·.isOf tid eventType)).Pairwise
      fun one other => other.systemTid.isNone → one.systemTid.isNone := by
    refine ((sortedEnters_sorted threads enters).filter _).imp_of_mem fun {one other} there there' le
      frame => ?_
    by_contra called
    have among : ∀ event ∈ (sortedEnters threads enters).filter (·.isOf tid eventType),
        event ∈ thread.enters tid ++ thread.starts tid ∧ event.key.eventType = eventType := by
      intro event listed
      obtain ⟨sorted, is⟩ := mem_filter.mp listed
      obtain ⟨own, kind⟩ := Bool.and_eq_true_iff.mp is
      rw [← logged.recorded at_]
      exact ⟨mem_filter.mpr ⟨mem_mergeSort.mp sorted, own⟩, beq_iff_eq.mp kind⟩
    obtain ⟨entering, kind⟩ := among one there
    obtain ⟨starting, kind'⟩ := among other there'
    rcases mem_append.mp starting with other' | starting
    · rw [(mem_enters.mp other').2.1] at frame
      cases frame
    · rcases mem_append.mp entering with entering | one'
      · have before := logged.frames_first member (replayable.frames thread member) starting entering
          (kind.trans (kind'.symm.trans (mem_starts starting).2.2.1))
        omega
      · exact called (by rw [(mem_starts one').2.1]; rfl)
  have apart := Lists.filter_append_filter first
  rw [filter_filter, filter_filter] at apart
  have started := kept true
  have called := kept false
  simp only [beq_true, beq_false, if_true, Bool.false_eq_true, if_false] at started called
  rw [started, called] at apart
  rw [apart, PythonThread.steps, calls_append, calls_log]
  rfl

theorem Logged.returned (logged : Logged threads enters) (at_ : threads[tid]? = some thread)
    (eventType : EventType) :
    ((exits threads eventType).filter (·.pythonTid == tid)).map (·.t) =
      returnTimes (thread.steps tid eventType) := by
  have own : (threads.zipIdx.flatMap fun entry => (entry.1.exitTimes eventType).map
      (Exit.mk · entry.2)).filter (·.pythonTid == tid) =
      (thread.exitTimes eventType).map (Exit.mk · tid) := by
    have exits := Lists.filter_flatMap_zipIdx Exit.pythonTid
      (f := fun entry : PythonThread σ α × Nat => (entry.1.exitTimes eventType).map
        (Exit.mk · entry.2)) (fun one i other there => by
          obtain ⟨time, _, rfl⟩ := mem_map.mp there
          rfl) 0 at_
    rw [Nat.zero_add] at exits
    exact exits
  obtain ⟨_, logOrder, _⟩ := pairwise_append.mp (logged.ordered thread (mem_of_getElem? at_))
  have sorted : ((thread.exitTimes eventType).map (Exit.mk · tid)).Pairwise (·.t ≤ ·.t) := by
    refine pairwise_map.mpr (Pairwise.filterMap _ (fun one other le time is time' is' => ?_)
      (pairwise_map.mp logOrder))
    cases one with
    | call => cases is
    | returns kind =>
      cases other with
      | call => cases is'
      | returns kind' =>
        simp only [Option.ite_none_right_eq_some, Option.some.injEq] at is is'
        rw [← is.2, ← is'.2]
        exact le
  rw [exits, Lists.filter_mergeSort (fun _ _ _ => by simpa using Int.le_trans)
    (fun one other => by simpa using Int.le_total _ _)]
  · rw [own, map_map, PythonThread.steps, returnTimes_append, returnTimes_log]
    exact map_id _
  · rw [own]
    exact sorted.imp (by simp)

def stepsOf (threads : List (PythonThread σ α)) (eventType : EventType) (tid : Nat) :
    List (Step σ α) :=
  (threads[tid]?).elim [] fun thread => thread.steps tid eventType

theorem Logged.follows (logged : Logged threads enters)
    (replayable : Replayable threads enters endTime) (eventType : EventType) (tid : Nat) :
    Follows (Followed (setStartFrames threads enters) eventType) (stepsOf threads eventType tid)
      endTime eventType (sortedEnters threads enters)
      (exits threads eventType) {} tid (stepsOf threads eventType tid) := by
  cases at_ : threads[tid]? with
  | none =>
    have beyond : threads.length ≤ tid := getElem?_eq_none_iff.mp at_
    have steps : stepsOf threads eventType tid = [] := by rw [stepsOf, at_]; rfl
    rw [steps]
    refine ⟨?_, ?_, trivial, trivial, by simp, nodup_nil, [], rfl, .nil⟩
    · refine filter_eq_nil_iff.mpr fun event member is => ?_
      have inside := logged.unknown event (mem_mergeSort.mp member)
      rw [beq_iff_eq.mp (Bool.and_eq_true_iff.mp is).1] at inside
      omega
    · rw [filter_eq_nil_iff.mpr]
      · rfl
      · intro exit member is
        obtain ⟨entry, listed, there⟩ := mem_flatMap.mp (mem_mergeSort.mp member)
        obtain ⟨time, _, rfl⟩ := mem_map.mp there
        have inside := (mem_zipIdx' listed).1
        rw [show entry.2 = tid from beq_iff_eq.mp is] at inside
        omega
  | some thread =>
    have steps : stepsOf threads eventType tid = thread.steps tid eventType := by
      rw [stepsOf, at_]
      rfl
    rw [steps]
    have member : thread ∈ threads := mem_of_getElem? at_
    obtain ⟨_, logOrder, before⟩ := pairwise_append.mp (logged.ordered thread member)
    refine ⟨logged.entered replayable at_ eventType, logged.returned at_ eventType, ?_,
      replayable.settled tid thread at_ eventType, by simp, nodup_nil, [], rfl, .nil⟩
    refine ordered_append (fun event started time returned => ?_)
      (ordered_log thread.systemTid logOrder (replayable.apart thread member))
    obtain ⟨_, _, _, frame, listed, same⟩ := mem_starts (mem_filter.mp started).1
    rw [returnTimes_log, mem_exitTimes] at returned
    rw [← same]
    exact before frame.2 (mem_map_of_mem listed) _ (mem_map_of_mem returned)

theorem calls_steps (thread : PythonThread σ α) (tid : Nat) (eventType : EventType) :
    (calls (thread.steps tid eventType)).map (·.1) =
      (thread.starts tid).filter (·.key.eventType == eventType) ++
        (thread.enters tid).filter (·.key.eventType == eventType) := by
  rw [PythonThread.steps, calls_append, calls_log]
  rfl

theorem Follows.played {followed : Int → Prop} {steps rest : List (Step σ α)} {left : List Exit}
    {current : Replay σ α}
    (follows : Follows followed steps endTime eventType [] left current tid rest) :
    current.out.filter (·.key.pythonTid == tid) = (calls steps).map (·.1) := by
  obtain ⟨done, split, pairs⟩ := follows.paired
  have none' : calls rest = [] := map_eq_nil_iff.mp follows.entered.symm
  rw [split, none', append_nil]
  have listed : current.out.filter (·.key.pythonTid == tid) =
      (current.resultsOf tid).map (·.1) := by
    conv_lhs => rw [← zipIdx_map_fst 0 current.out, filter_map]
    rfl
  rw [listed, ← forall₂_eq_eq_eq, forall₂_map_left_iff, forall₂_map_right_iff]
  exact pairs.imp fun _ _ paired => paired.1

section Played

variable {out : List (CompressedEvent σ α)}
  (played : ∀ tid, out.filter (·.key.pythonTid == tid) =
    (calls (stepsOf threads eventType tid)).map (·.1))

include played

variable {event : CompressedEvent σ α}

theorem played_thread (member : event ∈ out) :
    ∃ thread, threads[event.key.pythonTid]? = some thread ∧
      event ∈ (thread.starts event.key.pythonTid).filter (·.key.eventType == eventType) ++
        (thread.enters event.key.pythonTid).filter (·.key.eventType == eventType) := by
  have listed : event ∈ out.filter (·.key.pythonTid == event.key.pythonTid) :=
    mem_filter.mpr ⟨member, beq_self_eq_true _⟩
  rw [played, stepsOf] at listed
  cases at_ : threads[event.key.pythonTid]? with
  | none =>
    rw [at_] at listed
    cases listed
  | some thread =>
    rw [at_] at listed
    exact ⟨thread, rfl, calls_steps thread _ eventType ▸ listed⟩

variable
  (observed : ∀ thread ∈ threads, thread.startFrames ≠ [] →
    ∃ callsite time, .call .pyCall callsite time ∈ thread.log)
include observed

theorem played_observed {later : List (CompressedEvent σ α)}
    (sub : event :: later <:+ out) (none' : event.systemTid = none) :
    ∃ next ∈ later, next.key.pythonTid = event.key.pythonTid := by
  obtain ⟨thread, at_, listed⟩ := played_thread played (sub.mem (.head _))
  by_contra nothing
  have last : later.filter (·.key.pythonTid == event.key.pythonTid) = [] :=
    filter_eq_nil_iff.mpr fun next member own => nothing ⟨next, member, beq_iff_eq.mp own⟩
  obtain ⟨front, rfl⟩ := sub
  have whole := played event.key.pythonTid
  rw [filter_append, filter_cons_of_pos (by simp), last, stepsOf, at_] at whole
  replace whole := whole.trans (calls_steps thread event.key.pythonTid eventType)
  rcases mem_append.mp listed with started | called
  · obtain ⟨starts, kind⟩ := mem_filter.mp started
    obtain ⟨_, _, call, frame, there, _⟩ := mem_starts starts
    obtain ⟨callsite, time, logged⟩ := observed thread (mem_of_getElem? at_) (ne_nil_of_mem there)
    have entered : (⟨⟨event.key.pythonTid, .pyCall, callsite⟩, some thread.systemTid, time⟩ :
        CompressedEvent σ α) ∈ (thread.enters event.key.pythonTid).filter
          (·.key.eventType == eventType) := by
      refine mem_filter.mpr ⟨mem_enters.mpr ⟨rfl, rfl, logged⟩, ?_⟩
      rw [← beq_iff_eq.mp kind, call]
      rfl
    have ends := congrArg getLast? whole
    rw [getLast?_append_of_ne_nil _ (ne_nil_of_mem entered),
      getLast?_append_of_ne_nil _ (cons_ne_nil _ _), getLast?_singleton] at ends
    obtain ⟨_, system, _⟩ := mem_enters.mp (mem_filter.mp (mem_of_getLast? ends.symm)).1
    rw [none'] at system
    cases system
  · rw [(mem_enters.mp (mem_filter.mp called).1).2.1] at none'
    cases none'

theorem played_tids : (assignTids eventType out).1 = out.map fun event =>
      { event with systemTid := (threads[event.key.pythonTid]?).map (·.systemTid) } := by
  refine (assignTids_eq (fun tid => (threads[tid]?).map (·.systemTid)) out
    (fun event member => ?_) fun event later sub none' =>
      played_observed played observed sub none').1
  obtain ⟨thread, at_, listed⟩ := played_thread played member
  rcases mem_append.mp listed with started | called
  · obtain ⟨starts, kind⟩ := mem_filter.mp started
    obtain ⟨_, none', call, _⟩ := mem_starts starts
    exact .inl ⟨none', (beq_iff_eq.mp kind).symm.trans call⟩
  · obtain ⟨_, system, _⟩ := mem_enters.mp (mem_filter.mp called).1
    refine .inr ⟨?_, by rw [system]; rfl⟩
    rw [system, at_]
    rfl

end Played

theorem Logged.populated (logged : Logged threads enters)
    (replayable : Replayable threads enters endTime) (eventType : EventType) :
    ∃ results, populate threads endTime eventType (sortedEnters threads enters) = some results ∧
      (∀ result ∈ results, result.key.eventType = eventType ∧
        result.key.pythonTid < threads.length) ∧
      ∀ tid thread, threads[tid]? = some thread →
        results.filter (·.key.pythonTid == tid) = thread.results tid endTime eventType := by
  have same : ∀ time, Followed (sortedEnters threads enters) eventType time ↔
      Followed (setStartFrames threads enters) eventType time := fun time =>
    exists_congr fun event => and_congr_left' mem_mergeSort
  obtain ⟨left, replayed, ran, follows, _, ended⟩ := replay_spec (sortedEnters threads enters)
    (sortedEnters_sorted threads enters) (fun time => (same time).mp) (exits_sorted threads eventType)
    fun tid => ⟨_, logged.follows replayable eventType tid⟩
  have played : ∀ tid, replayed.out.filter (·.key.pythonTid == tid) =
      (calls (stepsOf threads eventType tid)).map (·.1) := fun tid => by
    obtain ⟨rest, follow⟩ := follows tid
    exact follow.played
  have listing : populate threads endTime eventType (sortedEnters threads enters) =
      some (replayed.out.zipIdx.map fun entry => ⟨entry.1.enterT,
        (threads[entry.1.key.pythonTid]?).map (·.systemTid), entry.1.key,
        replayed.close endTime (range threads.length) entry.2⟩) := by
    rw [populate, ran, Option.map_some, played_tids played replayable.observed, zipIdx_map, map_map]
    rfl
  refine ⟨_, listing, fun result member => ?_, fun tid thread at_ => ?_⟩
  · obtain ⟨entry, there, rfl⟩ := mem_map.mp member
    obtain ⟨thread, at_, listed⟩ := played_thread played
      (List.mem_of_getElem? (List.mem_zipIdx_iff_getElem?.mp there))
    refine ⟨?_, (List.getElem?_eq_some_iff.mp at_).1⟩
    rcases List.mem_append.mp listed with started | called
    · exact beq_iff_eq.mp (mem_filter.mp started).2
    · exact beq_iff_eq.mp (mem_filter.mp called).2
  · obtain ⟨rest, follow⟩ := follows tid
    have places : ∀ other, ∀ result ∈ replayed.threadStacks other,
        ∃ event, replayed.out[result]? = some event ∧ event.key.pythonTid = other := fun other => by
      obtain ⟨_, there⟩ := follows other
      exact there.places
    have closed := follow.closed (List.mem_range.mpr (List.getElem?_eq_some_iff.mp at_).1)
      (fun exit there => mt (same exit.t).mpr (ended exit there)) places
    have steps : stepsOf threads eventType tid = thread.steps tid eventType := by
      rw [stepsOf, at_]
      rfl
    have owned : ∀ entry ∈ replayed.resultsOf tid, entry.1.key.pythonTid = tid :=
      fun entry there => (replayed.getElem?_of_resultsOf there).2
    rw [steps] at closed
    rw [filter_map, PythonThread.results, ← forall₂_eq_eq_eq, forall₂_map_left_iff,
      forall₂_map_right_iff]
    refine ((forall₂_and_left _ _).mpr ⟨owned, closed⟩).imp ?_
    rintro entry call ⟨own, agree, ends⟩
    rw [own, at_, ends, ← agree]
    rfl

/-- The replay gives each logged call one result, with the time of its own return and the system
thread. -/
theorem replay_right (logged : Logged threads enters)
    (replayable : Replayable threads enters endTime) :
    ∃ results, run threads enters endTime = some results ∧
      (∀ result ∈ results, result.key.pythonTid < threads.length) ∧
      ∀ tid thread, threads[tid]? = some thread → ∀ eventType, results.filter (fun result =>
          result.key.pythonTid == tid && result.key.eventType == eventType) =
          thread.results tid endTime eventType := by
  obtain ⟨pyCalls, called, kind, right⟩ := logged.populated replayable .pyCall
  obtain ⟨cCalls, cCalled, cKind, cRight⟩ := logged.populated replayable .pyCCall
  refine ⟨pyCalls ++ cCalls, ?_, fun result member => ?_, fun tid thread at_ eventType => ?_⟩
  · rw [sortedEnters] at called cCalled
    simp only [run, called, cCalled]
    rfl
  · rcases mem_append.mp member with here | there
    · exact (kind result here).2
    · exact (cKind result there).2
  · have split : ∀ (results : List (Result σ α)) (of : EventType),
        (∀ result ∈ results, result.key.eventType = of) →
        results.filter (fun result =>
          result.key.pythonTid == tid && result.key.eventType == eventType) =
          if of = eventType then results.filter (·.key.pythonTid == tid) else [] := by
      intro results of all
      split
      next same =>
        refine filter_congr fun result member => ?_
        rw [all result member, same, beq_self_eq_true, Bool.and_true]
      next other =>
        refine filter_eq_nil_iff.mpr fun result member is => ?_
        exact other ((all result member).symm.trans (beq_iff_eq.mp (Bool.and_eq_true_iff.mp is).2))
    rw [filter_append, split pyCalls .pyCall fun result member => (kind result member).1,
      split cCalls .pyCCall fun result member => (cKind result member).1, right tid thread at_,
      cRight tid thread at_]
    cases eventType with
    | pyCall => simp
    | pyCCall => simp

end Runs

section Examples

def lateReturn : PythonThread Unit Nat where
  systemTid := 7
  stack := []
  log := [.call .pyCall () 1, .returns .pyCall 2]

theorem lateReturn_logged : Logged [lateReturn] (lateReturn.enters 0) where
  known event member := by
    rw [(mem_enters.mp member).1]
    exact Nat.zero_lt_one
  queued tid thread at_ := by
    obtain ⟨bound, rfl⟩ := List.getElem?_eq_some_iff.mp at_
    obtain rfl : tid = 0 := lt_one_iff.mp bound
    rfl
  ordered := by simp [lateReturn, PythonThread.startFrames, Happening.time]

/-- The return at 2 is never replayed, and the call ends with the trace. -/
theorem run_lateReturn : Logged [lateReturn] (lateReturn.enters 0) ∧
    run [lateReturn] (lateReturn.enters 0) 9 = some [⟨1, some 7, ⟨0, .pyCall, ()⟩, some 9⟩] ∧
    lateReturn.results 0 9 .pyCall = [⟨1, some 7, ⟨0, .pyCall, ()⟩, some 2⟩] := by
  refine ⟨lateReturn_logged, ?_, rfl⟩
  simp [run, setStartFrames, PythonThread.enters, PythonThread.starts, lateReturn,
    PythonThread.startFrames, populate, replay, exits, PythonThread.exitTimes, popExits,
    Replay.push, Replay.close, closeStack, assignTids]

instance (enters : List (CompressedEvent Unit Nat)) (eventType : EventType) :
    DecidablePred (Followed enters eventType) :=
  fun _ => inferInstanceAs (Decidable (∃ event ∈ enters, _ ∧ _))

instance decideSettled (followed : Int → Prop) [DecidablePred followed] (endTime : Int) :
    (depth : Nat) → (steps : List (Step Unit Nat)) → Decidable (Settled followed endTime depth steps)
  | _, [] => .isTrue (by rw [Settled]; trivial)
  | depth, .enter _ :: later =>
    have := decideSettled followed endTime (depth + 1) later
    decidable_of_iff (Settled followed endTime (depth + 1) later) (by rw [Settled])
  | 0, .exit time :: _ => inferInstanceAs (Decidable (¬ followed time))
  | depth + 1, .exit time :: later =>
    have := decideSettled followed endTime depth later
    decidable_of_iff ((followed time ∨ time = endTime) ∧ Settled followed endTime depth later)
      (by rw [Settled])

/-- The stack of the first thread is cut off at 128 frames. -/
def traced : List (PythonThread Unit Nat) :=
  [⟨7, List.replicate 129 ((), 0), [.call .pyCall () 1, .call .pyCCall () 2, .returns .pyCCall 3,
      .returns .pyCall 4]⟩,
    ⟨8, [((), 0)], [.call .pyCall () 5, .call .pyCCall () 6, .returns .pyCCall 9,
      .returns .pyCall 9, .returns .pyCall 9]⟩]

def tracedEnters : List (CompressedEvent Unit Nat) :=
  traced.zipIdx.flatMap fun entry => entry.1.enters entry.2

theorem traced_replayed : ∃ results, run traced tracedEnters 9 = some results ∧
    (∀ result ∈ results, result.key.pythonTid < 2) ∧
    ∀ tid thread, traced[tid]? = some thread → ∀ eventType, results.filter (fun result =>
        result.key.pythonTid == tid && result.key.eventType == eventType) =
        thread.results tid 9 eventType := by
  have among : ∀ {tid : Nat} {thread : PythonThread Unit Nat}, traced[tid]? = some thread →
      (thread, tid) ∈ traced.zipIdx := fun at_ => mem_zipIdx_iff_getElem?.mpr at_
  refine replay_right ⟨by decide, fun tid thread at_ => ?_, by decide +kernel⟩
    ⟨fun tid thread at_ eventType => ?_, by simp [traced], ?_, by simp [traced]⟩
  · exact (by decide +kernel : ∀ entry ∈ traced.zipIdx,
      tracedEnters.filter (·.key.pythonTid == entry.2) = entry.1.enters entry.2) _ (among at_)
  · have settled : ∀ entry ∈ traced.zipIdx, ∀ eventType ∈ [EventType.pyCall, .pyCCall],
        Settled (Followed (setStartFrames traced tracedEnters) eventType) 9 0
          (entry.1.steps entry.2 eventType) := by decide +kernel
    exact settled _ (among at_) eventType (by cases eventType <;> simp)
  · simp [traced, PythonThread.startFrames]

end Examples

end TorchSupa.Profiler.PostProcess
