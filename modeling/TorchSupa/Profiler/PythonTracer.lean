import Mathlib.Data.List.Basic
import TorchSupa.Logic.Transitions

/-!
The Python tracer: tracers, the threads of the interpreter and the profile callback that each
thread has. A step holds the GIL; only the lock of a tracer that is made is taken before.
-/

namespace TorchSupa.Profiler

open Function

inductive What
  | call
  | cCall
  | exception
  | ret
  | cException
  | cRet
deriving DecidableEq, Repr

structure ThreadLocalResults where
  threadState : Nat
  recorded : List (Nat × What)
deriving DecidableEq, Repr

structure PythonTracer where
  activeLock : Bool
  active : Bool
  constructed : Bool
  startFrames : Nat := 0
  threadLocalResults : List ThreadLocalResults := []
deriving DecidableEq, Repr

structure Interpreter where
  threads : List Nat
  born : Nat
  profile : Nat → Option (Nat × Nat)
  tracers : Nat → Option PythonTracer
  made : Nat

section Tracing

def compareExchangeStrong (value expected desired : Bool) : Bool × Bool × Bool :=
  if value = expected then (true, desired, expected) else (false, value, value)

def Interpreter.setTracer (state : Interpreter) (i : Nat) (tracer : Option PythonTracer) :
    Interpreter :=
  { state with tracers := update state.tracers i tracer }

def construct (state : Interpreter) : Interpreter :=
  let (active, lock, _) := compareExchangeStrong false false true
  { state.setTracer state.made (some { activeLock := lock, active, constructed := !active }) with
    made := state.made + 1 }

def registerThread (i : Nat) (frames : Nat → Nat) :
    (Nat → Option (Nat × Nat)) × PythonTracer → Nat → (Nat → Option (Nat × Nat)) × PythonTracer
  | (profile, tracer), thread =>
    let depth := min (frames thread) 128
    (update profile thread (some (i, tracer.threadLocalResults.length)),
      { tracer with
        startFrames := tracer.startFrames + depth
        threadLocalResults := tracer.threadLocalResults ++
          [⟨thread, List.replicate depth (thread, .call)⟩] })

def register (state : Interpreter) (i : Nat) (frames : Nat → Nat) : Option Interpreter :=
  match state.tracers i with
  | none => none
  | some tracer =>
    if tracer.constructed then none
    else
      let (profile, tracer) := state.threads.foldl (registerThread i frames) (state.profile, tracer)
      some ({ state with profile }.setTracer i (some { tracer with constructed := true }))

def stopThread (profile : Nat → Option (Nat × Nat)) (thread : Nat) : Nat → Option (Nat × Nat) :=
  if (profile thread).isSome then update profile thread none else profile

def stopTracer (state : Interpreter) (i : Nat) (tracer : PythonTracer) : Interpreter :=
  if tracer.active then
    let (_, lock, _) := compareExchangeStrong tracer.activeLock tracer.active false
    { state with profile := state.threads.foldl stopThread state.profile }.setTracer i
      (some { tracer with activeLock := lock, active := false })
  else state

def stop (state : Interpreter) (i : Nat) : Option Interpreter :=
  match state.tracers i with
  | none => none
  | some tracer => if tracer.constructed then some (stopTracer state i tracer) else none

def restartThread (i : Nat) (profile : Nat → Option (Nat × Nat)) (thread : Nat) :
    Nat → Option (Nat × Nat) :=
  let curThread := 0
  if (profile thread).isNone then update profile thread (some (i, curThread)) else profile

def restartTracer (state : Interpreter) (i : Nat) (tracer : PythonTracer) : Option Interpreter :=
  let (active, lock, _) := compareExchangeStrong tracer.activeLock tracer.active true
  let state := state.setTracer i (some { tracer with activeLock := lock, active })
  if !active then some state
  -- the results of a thread that are not there
  else if tracer.threadLocalResults = [] ∧ ∃ thread ∈ state.threads, state.profile thread = none then
    none
  else some { state with profile := state.threads.foldl (restartThread i) state.profile }

def restart (state : Interpreter) (i : Nat) : Option Interpreter :=
  match state.tracers i with
  | none => none
  | some tracer => if tracer.constructed then restartTracer state i tracer else none

def destroy (state : Interpreter) (i : Nat) : Option Interpreter :=
  match state.tracers i with
  | none => none
  | some tracer =>
    if tracer.constructed then some ((stopTracer state i tracer).setTracer i none) else none

def ThreadLocalResults.record (results : ThreadLocalResults) (thread : Nat) (what : What) :
    ThreadLocalResults :=
  { results with recorded := results.recorded ++ [(thread, what)] }

def pyProfileFn (state : Interpreter) (thread : Nat) (what : What) : Option Interpreter :=
  match state.profile thread with
  | none => some state
  | some (i, k) =>
    match state.tracers i with
    | none => none
    | some tracer =>
      if k < tracer.threadLocalResults.length then
        some (state.setTracer i (some { tracer with
          threadLocalResults := tracer.threadLocalResults.modify k (·.record thread what) }))
      else none

end Tracing

inductive Action
  | birth
  | death (thread : Nat)
  | construct
  | register (tracer : Nat) (frames : Nat → Nat)
  | stop (tracer : Nat)
  | restart (tracer : Nat)
  | destroy (tracer : Nat)
  | event (thread : Nat) (what : What)

def advance (state : Interpreter) : Action → Option Interpreter
  | .birth => some { state with threads := state.born :: state.threads, born := state.born + 1 }
  | .death thread => some { state with
      threads := state.threads.erase thread
      profile := update state.profile thread none }
  | .construct => some (construct state)
  | .register tracer frames => register state tracer frames
  | .stop tracer => stop state tracer
  | .restart tracer => restart state tracer
  | .destroy tracer => destroy state tracer
  | .event thread what => if thread ∈ state.threads then pyProfileFn state thread what else none

structure Interpreter.Starts (state : Interpreter) : Prop where
  nodup : state.threads.Nodup
  below : ∀ thread ∈ state.threads, thread < state.born
  profile : ∀ thread, state.profile thread = none
  tracers : ∀ i, state.tracers i = none

def system : System Interpreter Action where
  initial := Interpreter.Starts
  step state action after := advance state action = some after

end TorchSupa.Profiler
