import TorchSupa.Graph.SUPAGraph
import TorchSupa.Logic.Transitions

/-!
What a program does with graphs and generators, one call after the other.
-/

namespace TorchSupa.Graph

open Outcome Allocator

inductive Action
  | create
  | registerGeneratorState (self : GraphId) (generator : GeneratorId)
  | captureBegin (self : GraphId) (pool : MempoolId) (accepts : Thread → Stream → Bool)
  | captureEnd (self : GraphId)
  | philoxSupaState (generator : GeneratorId) (increment : Nat)
  | philoxEngineInputs (generator : GeneratorId) (increment : Nat)
  | replay (self : GraphId)
  | enableDebugMode
  | debugDump (self : GraphId)
  | reset (self : GraphId)
  | destroy (self : GraphId)
  | invalidate (stream : Stream)

def invalidate (stream : Stream) : GraphM Unit :=
  modify fun world =>
    match world.captures stream with
    | none => world
    | some capture =>
      { world with
        captures := Function.update world.captures stream
          (some { capture with valid := false }) }

def Action.run : Action → GraphM Unit
  | .create => newSUPAGraph
  | .registerGeneratorState self generator => Graph.registerGeneratorState self generator
  | .captureBegin self pool accepts => Graph.captureBegin self pool accepts
  | .captureEnd self => Graph.captureEnd self
  | .philoxSupaState generator increment => do
      let philox ← Graph.philoxSupaState generator increment
      launchKernel generator increment philox
  | .philoxEngineInputs generator increment => do
      let (seed, offset) ← Graph.philoxEngineInputs generator increment
      launchKernel generator increment (.value seed offset)
  | .replay self => Graph.replay self
  | .enableDebugMode => Graph.enableDebugMode
  | .debugDump self => Graph.debugDump self
  | .reset self => Graph.reset self
  | .destroy self => Graph.destroySUPAGraph self
  | .invalidate stream => Graph.invalidate stream

structure Call where
  action : Action
  stream : Stream
  device : DeviceIndex := 0
  answers : RuntimeCall → Bool := fun _ => true

def Call.enter (call : Call) (world : World) : World :=
  { world with
    currentStream := call.stream
    currentDevice := call.device
    answers := call.answers }

/-- An exception is caught and leaves what the call has done so far; one that leaves the
destructor, which is `noexcept`, ends the process. -/
inductive Step (world : World) (call : Call) : World → Prop
  | returns (after : World) : call.action.run (call.enter world) = .ok () after →
      Step world call after
  | throws (exception : Exn) (after : World) :
      call.action.run (call.enter world) = .error exception after → ¬ exception.Fatal →
      (∀ self, call.action ≠ .destroy self) → Step world call after

def Initial (world : World) : Prop :=
  world.graphs = .empty ∧ world.captures = (fun _ => none) ∧ world.draws = [] ∧
  world.contribution = (fun _ _ => 0) ∧ world.cleared = [] ∧
  (∀ generator, (world.generators generator).philoxOffsetPerThread % 4 = 0 ∧
    (world.generators generator).spent = (world.generators generator).philoxOffsetPerThread ∧
    (world.generators generator).offsetIntragraph % 4 = 0 ∧
    (world.generators generator).offsetIntragraph < 2 ^ 32) ∧
  ∀ device, (world.allocators device).graphPools = [] ∧
    (world.allocators device).graphPoolsFreeable = [] ∧
    (world.allocators device).capturesUnderway = []

def machine : System World Call where
  initial := Initial
  step := Step

variable {world : World} {call : Call} {calls : List Call}

theorem Step.ensures {after : World} {result : World → Prop} (taken : Step world call after)
    (spec : wp call.action.run (fun _ after => result after)
      (fun exception after => exception.Fatal ∨ (∃ self, call.action = .destroy self) ∨
        result after) (call.enter world)) : result after := by
  cases taken with
  | returns after run => exact wp_ok spec run
  | throws exception after run survives caught =>
    rcases wp_error spec run with fatal | destroys | holds
    · exact absurd fatal survives
    · exact absurd destroys.choose_spec (caught destroys.choose)
    · exact holds

def Call.after (call : Call) (world : World) : World :=
  match call.action.run (call.enter world) with
  | .ok _ after => after
  | .error _ after => after

def Call.succeeds (call : Call) (world : World) : Bool :=
  match call.action.run (call.enter world) with
  | .ok _ _ => true
  | .error _ _ => false

def afterCalls (calls : List Call) (world : World) (count : Nat) : World :=
  (calls.take count).foldl (fun world call => call.after world) world

theorem afterCalls_succ {count : Nat} (world : World) (next : calls[count]? = some call) :
    afterCalls calls world (count + 1) = call.after (afterCalls calls world count) := by
  simp [afterCalls, List.take_add_one, next]

theorem reachable_afterCalls {allowed : World → Call → Prop} (initial : Initial world)
    (step : ∀ count call, calls[count]? = some call → allowed (afterCalls calls world count) call ∧
        call.succeeds (afterCalls calls world count) = true) (count : Nat) :
    machine.Reachable allowed (afterCalls calls world count) := by
  induction count with
  | zero => exact .initial initial
  | succ count ih =>
    cases next : calls[count]? with
    | none =>
      have beyond : calls.length ≤ count := by simpa using next
      unfold afterCalls at ih ⊢
      rw [List.take_of_length_le (by omega)]
      rwa [List.take_of_length_le beyond] at ih
    | some call =>
      obtain ⟨permitted, succeeds⟩ := step count call next
      rw [afterCalls_succ world next]
      refine .step ih permitted (.returns _ ?_)
      unfold Call.succeeds at succeeds
      unfold Call.after
      cases run : call.action.run (call.enter (afterCalls calls world count)) with
      | ok _ after => rfl
      | error _ after => simp [run] at succeeds

def Call.exception (call : Call) (world : World) : Option Exn :=
  match call.action.run (call.enter world) with
  | .ok _ _ => none
  | .error exception _ => some exception

theorem Step.returned (returns : call.exception world = none) :
    Step world call (call.after world) := by
  unfold Call.exception at returns
  unfold Call.after
  cases run : call.action.run (call.enter world) with
  | ok value after => exact .returns after run
  | error exception after => simp [run] at returns

theorem Step.caught {exception : Exn}
    (throws : call.exception world = some exception) (survives : ¬ exception.Fatal)
    (catches : ∀ self, call.action ≠ .destroy self) : Step world call (call.after world) := by
  unfold Call.exception at throws
  unfold Call.after
  cases run : call.action.run (call.enter world) with
  | ok value after => simp [run] at throws
  | error other after =>
    obtain rfl : other = exception := by simpa [run] using throws
    exact .throws other after run survives catches

def sampleWorld : World where
  generators := fun _ => {}
  defaultGenerator := fun _ => 0
  allocators := fun _ => default
  deviceCount := 1

theorem sampleWorld_initial : Initial sampleWorld := by
  refine ⟨rfl, rfl, rfl, rfl, rfl, fun _ => ?_, fun _ => ⟨rfl, rfl, rfl⟩⟩
  simp [sampleWorld]

end TorchSupa.Graph
