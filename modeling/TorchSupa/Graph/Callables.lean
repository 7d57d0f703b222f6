import TorchSupa.Logic.Transitions
import TorchSupa.Logic.Writes

/-!
`make_graphed_callables`: the static buffers of each callable, what its graphed version copies into
them, and training iterations over a tuple of callables. A replay reads and writes the memory as it
did when it was captured.
-/

namespace TorchSupa.Graph.Callables

abbrev Address := Nat

abbrev Memory (V : Type) := Address → V

structure Tensor where
  cells : List Address
  requiresGrad : Bool := false
deriving DecidableEq, Repr

def Tensor.dataPtr (tensor : Tensor) : Address := tensor.cells.headD 0

variable {V : Type}

def Tensor.read (tensor : Tensor) (memory : Memory V) : List V := tensor.cells.map memory

/-- A callable as its user sees it, in one training state (`none` if it is no module): what it
computes from the values of its inputs and parameters, and the gradient in a slot of them for given
gradients of the outputs that have one, if the slot is used. -/
structure Callable (V : Type) where
  forward : Option Bool → List (List V) → List (List V)
  gradient : Option Bool → List (List V) → List (List V) → Nat → Option (List V)

structure Sample where
  args : List Tensor
  params : List Tensor
  training : Option Bool

/-- What the captures of a callable make: the two graphs, the outputs, the buffers that `empty_like`
makes for the outputs that require a gradient, and what `torch.autograd.grad` returns. -/
structure Captured (V : Type) where
  fwdGraph : Memory V → Memory V
  outputs : List Tensor
  emptyLike : List Tensor
  bwdGraph : Memory V → Memory V
  gradInputs : List (Option Tensor)

structure Graphed (V : Type) where
  fwdGraph : Memory V → Memory V
  bwdGraph : Option (Memory V → Memory V)
  moduleParams : List Tensor
  lenUserArgs : Nat
  staticInputSurface : List Tensor
  staticOutputs : List Tensor
  staticGradOutputs : List (Option Tensor)
  staticGradInputs : List (Option Tensor)
  graphTrainingState : Option Bool

section Making

def Sample.surface (sample : Sample) : List Tensor := sample.args ++ sample.params

def pad {α : Type} : List Bool → List α → List (Option α)
  | [], _ => []
  | true :: flags, value :: values => some value :: pad flags values
  | _ :: flags, values => none :: pad flags values

structure Backward (V : Type) where
  bwdGraph : Option (Memory V → Memory V)
  staticGradOutputs : List (Option Tensor)
  staticGradInputs : List (Option Tensor)

def captureBackward (sample : Sample) (captured : Captured V) : Backward V :=
  let outputsGrad := captured.outputs.filter (·.requiresGrad)
  { bwdGraph := if outputsGrad.length > 0 then some captured.bwdGraph else none
    staticGradOutputs := pad (captured.outputs.map (·.requiresGrad)) captured.emptyLike
    staticGradInputs :=
      if outputsGrad.length > 0 then
        (pad (sample.surface.map (·.requiresGrad)) captured.gradInputs).map Option.join
      else sample.surface.map fun _ => none }

def makeGraphedCallables (samples : List (Sample × Captured V)) : List (Graphed V) :=
  let backward := (samples.reverse.map fun (sample, captured) => captureBackward sample captured).reverse
  List.zipWith (fun (sample, captured) backward =>
    { fwdGraph := captured.fwdGraph
      bwdGraph := backward.bwdGraph
      moduleParams := sample.params
      lenUserArgs := sample.args.length
      staticInputSurface := sample.surface
      staticOutputs := captured.outputs
      staticGradOutputs := backward.staticGradOutputs
      staticGradInputs := backward.staticGradInputs
      graphTrainingState := sample.training }) samples backward

end Making

section Replaying

/-- `copy_` where the target has no element twice and shares none with the source; elsewhere what the
parameter says, if it does not raise. -/
def copy (strange : Tensor → Tensor → Memory V → Option (Memory V)) (target source : Tensor)
    (memory : Memory V) : Option (Memory V) :=
  if target.cells.length = source.cells.length ∧ target.cells.Nodup ∧
      (∀ cell ∈ target.cells, cell ∉ source.cells) then
    some (Writes.after (target.cells.zip (source.read memory)) memory)
  else strange target source memory

variable (strange : Tensor → Tensor → Memory V → Option (Memory V))

def copyInto : List (Option Tensor × Tensor) → Memory V → Option (Memory V)
  | [], memory => some memory
  | (none, _) :: rest, memory => copyInto rest memory
  | (some target, given) :: rest, memory =>
    if target.dataPtr ≠ given.dataPtr then (copy strange target given memory).bind (copyInto rest)
    else copyInto rest memory

def Graphed.inputs (graphed : Graphed V) (args : List Tensor) : List (Option Tensor × Tensor) :=
  ((graphed.staticInputSurface.take graphed.lenUserArgs).map some).zip (args ++ graphed.moduleParams)

def Graphed.forward (graphed : Graphed V) (args : List Tensor) (memory : Memory V) :
    Option (Memory V × List Tensor) :=
  (copyInto strange (graphed.inputs args) memory).map fun memory =>
    (graphed.fwdGraph memory, graphed.staticOutputs)

def Graphed.backward (graphed : Graphed V) (grads : List Tensor) (memory : Memory V) :
    Option (Memory V × List (Option Tensor)) :=
  if grads.length = graphed.staticGradOutputs.length then
    match copyInto strange (graphed.staticGradOutputs.zip grads) memory, graphed.bwdGraph with
    | some memory, some bwdGraph => some (bwdGraph memory, graphed.staticGradInputs)
    | _, _ => none
  else none

end Replaying

section Training

structure Entry (V : Type) where
  callable : Callable V
  sample : Sample
  captured : Captured V

structure Result (V : Type) where
  got : Option (List (Option (List V)))
  expected : List (Option (List V))

inductive Phase
  | forward (calls : Nat)
  | backward (left : Nat)
  | raised
deriving DecidableEq, Repr

structure World (V : Type) where
  memory : Memory V
  training : Nat → Option Bool
  phase : Phase := .forward 0
  ran : Nat → Option Bool
  /-- ghost: the values of the inputs and parameters in the last call -/
  inputs : Nat → List (List V)
  /-- ghost -/
  results : List (Result V) := []

def World.next (world : World V) : Option Nat :=
  match world.phase with
  | .forward calls => some calls
  | .backward 0 => some 0
  | _ => none

def World.previous (world : World V) (count : Nat) : Option Nat :=
  match world.phase with
  | .forward (calls + 1) => if calls + 1 = count then some calls else none
  | .backward (left + 1) => some left
  | _ => none

def Entry.gradients (entry : Entry V) (training : Option Bool) (inputs grads : List (List V)) :
    List (Option (List V)) :=
  entry.sample.surface.zipIdx.map fun (tensor, slot) =>
    if tensor.requiresGrad ∧ (entry.captured.outputs.filter (·.requiresGrad)).length > 0 then
      entry.callable.gradient training inputs grads slot
    else none

variable (strange : Tensor → Tensor → Memory V → Option (Memory V)) (entries : List (Entry V))

def graphedAt (place : Nat) : Option (Graphed V) :=
  (makeGraphedCallables (entries.map fun entry => (entry.sample, entry.captured)))[place]?

/-- A call of the next callable; a module in another training state runs its own `forward`. -/
def call (world : World V) (args : List Tensor) : Option (World V) := do
  let place ← world.next
  let entry ← entries[place]?
  let graphed ← graphedAt entries place
  let training := world.training place
  let inputs := (args ++ entry.sample.params).map (·.read world.memory)
  let expected := (entry.callable.forward training inputs).map some
  let called := { world with
    phase := .forward (place + 1)
    ran := Function.update world.ran place training
    inputs := Function.update world.inputs place inputs }
  if training = graphed.graphTrainingState then
    match graphed.forward strange args world.memory with
    | some (memory, outputs) => some { called with
        memory
        results := ⟨some (outputs.map fun output => some (output.read memory)), expected⟩ ::
          world.results }
    | none => some { world with phase := .raised, results := ⟨none, expected⟩ :: world.results }
  else some { called with results := ⟨some expected, expected⟩ :: world.results }

def gradValues (outputs grads : List Tensor) (memory : Memory V) : List (List V) :=
  ((outputs.zip grads).filter (·.1.requiresGrad)).map (·.2.read memory)

def runBackward (world : World V) (grads : List Tensor) : Option (World V) := do
  let place ← world.previous entries.length
  let entry ← entries[place]?
  let graphed ← graphedAt entries place
  let training := world.ran place
  let expected := entry.gradients training (world.inputs place)
    (gradValues entry.captured.outputs grads world.memory)
  if training = graphed.graphTrainingState then
    match graphed.backward strange grads world.memory with
    | some (memory, gradInputs) => some { world with
        memory
        phase := .backward place
        results := ⟨some (gradInputs.map fun grad => grad.map (·.read memory)), expected⟩ ::
          world.results }
    | none => some { world with phase := .raised, results := ⟨none, expected⟩ :: world.results }
  else some { world with
    phase := .backward place
    results := ⟨some expected, expected⟩ :: world.results }

inductive Action (V : Type)
  | call (args : List Tensor)
  | backward (grads : List Tensor)
  | outside (memory : Memory V)
  | train (place : Nat) (mode : Bool)

def Step (world : World V) : Action V → World V → Prop
  | .call args, after => call strange entries world args = some after
  | .backward grads, after => runBackward strange entries world grads = some after
  | .outside memory, after => after = { world with memory }
  | .train place mode, after => (∃ entry, entries[place]? = some entry ∧ entry.sample.training.isSome) ∧
      after = { world with training := Function.update world.training place (some mode) }

def system : System (World V) (Action V) where
  initial world := world.phase = .forward 0 ∧ world.results = [] ∧
    ∀ place entry, entries[place]? = some entry → world.training place = entry.sample.training
  step := Step strange entries

end Training

end TorchSupa.Graph.Callables
