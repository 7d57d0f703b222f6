import TorchSupa.Distributed.ProcessGroupBCCL
import TorchSupa.Logic.Transitions

/-!
The threads of a process that uses process groups, one step at a time: user threads in the
sections of a call, the watchdog and the hook thread of each group, threads that begin and end
graph captures, and the device.
-/

namespace TorchSupa.Distributed

open Function

inductive Operation
  | collective (device : Nat) (opType : OpType)
  | collectiveCoalesced (device : Nat) (opType : OpType)
  | pointToPoint (device : Nat) (peer : Int) (opType : OpType)
  | endCoalescing (opType : OpType)
deriving DecidableEq, Repr

def Operation.begin (thread group : Nat) (fate : Fate) : Operation → M Call
  | .collective device opType => beginCollective group device opType fate
  | .collectiveCoalesced device opType => beginCollectiveCoalesced group device opType fate
  | .pointToPoint device peer opType => beginPointToPoint thread group device peer opType fate
  | .endCoalescing opType => beginEndCoalescing thread group opType fate

inductive HookOutcome
  | returns
  | throws
  | unprepared
deriving DecidableEq, Repr

inductive Action
  | begin (thread group : Nat) (operation : Operation) (fate : Fate)
  | proceed (thread : Nat) (fate : Fate)
  | startCoalescing (thread group : Nat) (fate : Fate)
  | groupStart (thread : Nat) (fate : Fate)
  | groupEnd (thread : Nat) (fate : Fate)
  | addEphemeralTimeout (group : Nat) (timeout : Int)
  | finish (work : Nat)
  | watchdog (group : Nat) (queries : Queries)
  | registerOnCompletionHook (group : Nat)
  | hookThread (group : Nat) (outcome : HookOutcome)
  | terminate (group : Nat)
  | checkPending (thread : Nat)
  | beginCapture (thread : Nat) (begins : Bool)
  | endCapture (thread : Nat)

def World.finish (world : World) (work : Nat) : World :=
  { world with finished := work :: world.finished }

def World.setCapture (world : World) (thread : Nat) (stage : Capture) : World :=
  { world with captures := update world.captures thread stage }

def World.setCall (world : World) (thread : Nat) (call : Option Call) : World :=
  { world with calls := update world.calls thread call }

@[simp] theorem World.setCall_same (world : World) (thread : Nat) (call : Option Call) :
    (world.setCall thread call).calls thread = call := update_self _ _ _

theorem World.setCall_other (world : World) {thread other : Nat} (call : Option Call)
    (different : other ≠ thread) : (world.setCall thread call).calls other = world.calls other :=
  update_of_ne different _ _

def World.outcome (thread : Nat) : EStateM.Result Exn World Call → World
  | .ok call after => after.setCall thread (if call.rest.isEmpty then none else some call)
  | .error _ after => after.setCall thread none

def World.afterwards {α : Type} : EStateM.Result Exn World α → World
  | .ok _ after => after
  | .error _ after => after

def Call.mayRun (call : Call) (world : World) : Section → Bool
  | .emplace => !call.admitted || !(world.groups call.group).watchdog.holdsLock
  | _ => true

def proceed (thread : Nat) (fate : Fate) (world : World) : Option World :=
  match world.calls thread with
  | none => none
  | some call =>
    match call.rest with
    | [] => none
    | next :: rest =>
      if call.mayRun world next then
        some (World.outcome thread (perform thread fate { call with rest } next world))
      else none

def endPass (self : Group) : Group :=
  { self with
    watchdog :=
      if self.workMetaList.isEmpty && self.terminateProcessGroup then .left else .resting }

def resetTimeout (work : Work) (it : Nat) (self : Group) : Group :=
  { self with
    ephemeralTimeoutActive :=
      if 0 < work.ownedEphermeralTimeout then
        self.ephemeralTimeoutActive - work.ownedEphermeralTimeout
      else self.ephemeralTimeoutActive
    ephemeralTimeoutInflight :=
      if 0 < work.ownedEphermeralTimeout then
        self.ephemeralTimeoutInflight - work.ownedEphermeralTimeout
      else self.ephemeralTimeoutInflight
    reset := work.id :: self.reset
    watchdog := .reset it }

def cleanUp (work : Work) (it : Nat) (self : Group) : Group :=
  { self with
    workMetaList := self.workMetaList.eraseIdx it
    completedWorkList :=
      if self.onCompletionHook then self.completedWorkList ++ [work] else self.completedWorkList
    completed := if self.onCompletionHook then work.id :: self.completed else self.completed
    unhooked := if self.onCompletionHook then self.unhooked else work.id :: self.unhooked
    watchdog := .removed work.id it }

def setWatchdog (stage : Watchdog) (self : Group) : Group := { self with watchdog := stage }

def watchdogHandler (group : Nat) (queries : Queries) (world : World) : Option World :=
  let self := world.groups group
  match self.watchdog with
  | .resting => some (world.modifyGroup group (setWatchdog (.scanning 0)))
  | .scanning it =>
    match self.workMetaList[it]? with
    | none => some (world.modifyGroup group endPass)
    | some work =>
      if work.id ∈ world.finished then some (world.modifyGroup group (resetTimeout work it))
      else some (world.modifyGroup group (setWatchdog (.scanning (it + 1))))
  | .reset it =>
    match self.workMetaList[it]? with
    | none => none
    | some work =>
      match world.recorder.retireId queries work.traceId with
      -- an exception ends the watchdog
      | none => some (world.modifyGroup group (setWatchdog .left))
      | some recorder =>
        some (({ world with recorder } : World).modifyGroup group (setWatchdog (.retired it)))
  | .retired it =>
    match self.workMetaList[it]? with
    | none => none
    | some work => some (world.modifyGroup group (cleanUp work it))
  | .removed work it =>
    if 0 < world.pendingEventQueries then
      some ((world.lowered work).modifyGroup group (setWatchdog (.scanning it)))
    else some (world.modifyGroup group (setWatchdog .left))
  | .left => none

def setHookThread (stage : HookThread) (self : Group) : Group := { self with hookThread := stage }

def nextWork (self : Group) : Group :=
  setHookThread (if self.completedWorkList.isEmpty then .polling true else .calling) self

/-- The hook was called with the work; `rest` is left on the list. -/
def handOver (work : Work) (rest : List Work) (self : Group) : Group :=
  { self with
    completedWorkList := rest
    handed := work.id :: self.handed }

def runHookLoop (outcome : HookOutcome) (self : Group) : Option Group :=
  match self.hookThread with
  | .absent | .left => none
  | .polling done =>
    some (setHookThread (if done && self.terminateProcessGroup then .left else .waiting) self)
  | .waiting => some (nextWork self)
  | .calling =>
    match self.completedWorkList with
    | [] => none
    | work :: rest =>
      match outcome with
      | .returns => some (nextWork (handOver work rest self))
      -- the work stays on the list
      | .throws => some (setHookThread (.polling false)
          (handOver work self.completedWorkList self))
      | .unprepared => some (setHookThread (.polling false) self)

def waitForPendingWorks (self : Group) : Bool :=
  !self.watchdog.holdsLock && self.workMetaList.isEmpty && self.completedWorkList.isEmpty

def registerHook (self : Group) : Group :=
  { self with
    onCompletionHook := true
    hookThread := .polling false }

def setTerminate (self : Group) : Group := { self with terminateProcessGroup := true }

def step (world : World) : Action → Option World
  | .begin thread group operation fate =>
    if (world.calls thread).isNone then
      some (World.outcome thread (operation.begin thread group fate world))
    else none
  | .proceed thread fate => proceed thread fate world
  | .startCoalescing thread group fate =>
    if (world.calls thread).isNone then
      some (World.afterwards (startCoalescing thread group fate world))
    else none
  | .groupStart thread fate =>
    if (world.calls thread).isNone then some (World.afterwards (groupStart thread fate world))
    else none
  | .groupEnd thread fate =>
    if (world.calls thread).isNone then some (World.afterwards (groupEnd thread fate world))
    else none
  | .addEphemeralTimeout group timeout =>
    some (World.afterwards (addEphemeralTimeout group timeout world))
  | .finish work =>
    if work < world.nextCall then some (world.finish work) else none
  | .watchdog group queries => watchdogHandler group queries world
  | .registerOnCompletionHook group =>
    if !(world.groups group).onCompletionHook && (world.groups group).enableTiming then
      some (world.modifyGroup group registerHook)
    else none
  | .hookThread group outcome =>
    (runHookLoop outcome (world.groups group)).map fun self => world.modifyGroup group fun _ => self
  | .terminate group =>
    some (world.modifyGroup group setTerminate)
  | .checkPending thread =>
    if world.captures thread = .idle ∧ world.pendingEventQueries = 0 then
      some (world.setCapture thread .cleared)
    else none
  | .beginCapture thread begins =>
    if world.captures thread = .cleared then
      some (world.setCapture thread (if begins then .capturing else .idle))
    else none
  | .endCapture thread =>
    if world.captures thread = .capturing then
      some (world.setCapture thread .idle)
    else none

structure Initial (world : World) : Prop where
  groups : ∀ group, ∃ rank blockingWait enableTiming timeout, world.groups group =
    { rank := rank, blockingWait := blockingWait, enableTiming := enableTiming, timeout := timeout }
  rest : ∃ maxEntries capturable, world =
    { groups := world.groups, recorder := { maxEntries := maxEntries }, capturable := capturable }

def process : System World Action where
  initial := Initial
  step world action after := step world action = some after

section Runs

def allDone : Queries where
  started := fun _ => true
  completed := fun _ => true
  now := 0

def startWorld (blockingWait enableTiming : Bool) (maxEntries : Nat) : World where
  groups := fun _ => { blockingWait, enableTiming }
  recorder := { maxEntries }

theorem startWorld_initial (blockingWait enableTiming : Bool) (maxEntries : Nat) :
    Initial (startWorld blockingWait enableTiming maxEntries) where
  groups := fun _ => ⟨0, blockingWait, enableTiming, 600000, rfl⟩
  rest := ⟨maxEntries, true, rfl⟩

def finalWorld (guard : World → Action → Bool) (start : World) (actions : List Action) : World :=
  (System.runs step guard start actions).getD start

theorem reachable_finalWorld {allowed : World → Action → Prop} {guard : World → Action → Bool}
    {start : World} (initial : Initial start) (actions : List Action)
    (ends : (System.runs step guard start actions).isSome = true)
    (allow : ∀ world action, guard world action = true → allowed world action) :
    process.Reachable allowed (finalWorld guard start actions) := by
  exact System.Reachable.ended (.initial initial) (fun _ _ _ taken => taken) allow ends _

end Runs

end TorchSupa.Distributed
