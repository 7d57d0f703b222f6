import TorchSupa.Host.SUPAHostAllocator
import TorchSupa.Logic.Interleaving

/-!
Any number of threads that use the host allocator, each lock-protected section being one step.
-/

namespace TorchSupa.Host

open Allocator Interleaving

inductive Action
  | allocate (size : Nat)
  | free (ctx : Option BlockId)
  | recordEvent (ptr : Nat) (ctx : BlockId) (stream : Stream)
  | processEvents (size : Int)
  | emptyCache
  | parsePinnedUseSupaHostRegister (config : List String) (i : Nat)
  | proceed (answers : Answers)
  | complete (event : Event)

def Action.run : Operation → Action → Option (HostM Operation)
  | .idle, .allocate size =>
    some (pure (if size = 0 then .idle else .countEvents (-1) (.allocate size)))
  | .idle, .free none => some (pure .idle)
  | .idle, .free (some block) => some do
      modify fun world => { world with live := world.live.erase block }
      pure (.freeBlock block)
  | .idle, .recordEvent ptr ctx stream => some (Host.recordEvent ptr ctx stream)
  | .idle, .processEvents size => some (pure (.countEvents size .none))
  | .idle, .emptyCache => some (pure (.countEvents (-1) .emptyCache))
  | .idle, .parsePinnedUseSupaHostRegister config i => some do
      let _ ← Host.parsePinnedUseSupaHostRegister config i
      pure .idle
  | place, .proceed answers => some (place.section answers)
  | place, .complete event => some do
      modify fun world => { world with completed := event :: world.completed }
      pure place
  | _, _ => none

/-- The programs of the actions, each at the places where it can begin. -/
inductive Action.Runs : Operation → Action → HostM Operation → Prop
  | allocate (size : Nat) : Runs .idle (.allocate size)
      (pure (if size = 0 then .idle else .countEvents (-1) (.allocate size)))
  | nothing : Runs .idle (.free none) (pure .idle)
  | free (block : BlockId) : Runs .idle (.free (some block)) do
      modify fun world => { world with live := world.live.erase block }
      pure (.freeBlock block)
  | recordEvent (ptr : Nat) (ctx : BlockId) (stream : Stream) :
      Runs .idle (.recordEvent ptr ctx stream) (Host.recordEvent ptr ctx stream)
  | processEvents (size : Int) :
      Runs .idle (.processEvents size) (pure (.countEvents size .none))
  | emptyCache : Runs .idle .emptyCache (pure (.countEvents (-1) .emptyCache))
  | parse (config : List String) (i : Nat) :
      Runs .idle (.parsePinnedUseSupaHostRegister config i) do
        let _ ← Host.parsePinnedUseSupaHostRegister config i
        pure .idle
  | proceed (place : Operation) (answers : Answers) :
      Runs place (.proceed answers) (place.section answers)
  | complete (place : Operation) (event : Event) : Runs place (.complete event) do
      modify fun world => { world with completed := event :: world.completed }
      pure place

theorem Action.runs {place : Operation} {action : Action} {program : HostM Operation}
    (run : action.run place = some program) : Runs place action program := by
  unfold Action.run at run
  split at run <;> cases run <;> constructor

def Operation.locks : Operation → Bool
  | .allocateFromFreeList _ => true
  | .insertNew _ => true
  | .insertFreed _ => true
  | .insertProcessed _ _ => true
  | .takeFreeList => true
  | _ => false

def Enabled (world : World) (place : Operation) : Action → Prop
  | .proceed answers => answers.Fresh world ∧ (place.locks = true → world.locked = false)
  | .recordEvent _ _ _ => world.locked = false
  | .complete event => event < world.recordings
  | _ => True

inductive Step (world : World) (place : Operation) (action : Action) : World → Operation → Prop
  | returns (program : HostM Operation) (next : Operation) (after : World) :
      action.run place = some program → Enabled world place action →
      program world = .ok next after → Step world place action after next
  | throws (program : HostM Operation) (exception : Exn) (after : World) :
      action.run place = some program → Enabled world place action →
      program world = .error exception after → ¬ exception.Fatal →
      Step world place action after .idle

def Initial (world : World) : Prop :=
  world.heap = .empty ∧ world.blocks = [] ∧ world.ptrToBlock = [] ∧ world.freeList = [] ∧
    world.supaEvents = [] ∧ world.live = [] ∧ world.releases = [] ∧ world.locked = false

def hostProgram : Program World Operation Action where
  initial := Initial
  start := .idle
  step := Step

abbrev State := Threads World Operation

/-- Callers free a block that they hold, and record events on blocks that are held, or on
memory that is no block's. -/
def Respects (world : World) : Action → Prop
  | .free (some block) => block ∈ world.live
  | .recordEvent ptr ctx _ => ctx ∈ world.live ∨ ctx ∉ world.blocks ∧
      ∀ block self, world.heap.get? block = some self → self.ptr = ptr → block ∈ world.live
  | _ => True

section Runs

def admitted (world : World) (place : Operation) : Action → Bool
  | .proceed answers =>
    (answers.pointer.all fun pointer => world.heap.cells.all fun cell =>
      cell.all fun self => self.ptr != pointer) && (!place.locks || !world.locked)
  | .recordEvent _ ctx _ => !world.locked && world.live.contains ctx
  | .complete event => event < world.recordings
  | .free (some block) => world.live.contains block
  | _ => true

open List Option

variable {world : World} {place : Operation} {action : Action}

theorem enabled_of_admitted
    (admits : admitted world place action = true) : Enabled world place action := by
  cases action with
  | proceed answers =>
    simp only [admitted, Bool.and_eq_true, Bool.or_eq_true, Bool.not_eq_true'] at admits
    refine ⟨fun pointer block self handed found => ?_, fun locks => ?_⟩
    · have all := admits.1
      rw [handed] at all
      unfold Store.get? at found
      cases cell : world.heap.cells[block]? with
      | none => simp [cell] at found
      | some content =>
        have here := all_eq_true.mp (by simpa using all) content (mem_of_getElem? cell)
        simp only [cell, join_some] at found
        rw [found] at here
        simpa using here
    · rcases admits.2 with unlocked | free
      · rw [unlocked] at locks
        simp at locks
      · exact free
  | recordEvent ptr ctx stream =>
    simp only [admitted, Bool.and_eq_true, Bool.not_eq_true'] at admits
    exact admits.1
  | complete event =>
    simp only [admitted, decide_eq_true_eq] at admits
    exact admits
  | allocate size => trivial
  | free ctx => cases ctx <;> trivial
  | processEvents size => trivial
  | emptyCache => trivial
  | parsePinnedUseSupaHostRegister config i => trivial

theorem respects_of_admitted
    (admits : admitted world place action = true) : Respects world action := by
  cases action with
  | recordEvent ptr ctx stream =>
    simp only [admitted, Bool.and_eq_true] at admits
    exact .inl (by simpa using admits.2)
  | free ctx =>
    cases ctx with
    | none => trivial
    | some block => exact contains_iff_mem.mp admits
  | proceed answers => trivial
  | complete event => trivial
  | allocate size => trivial
  | processEvents size => trivial
  | emptyCache => trivial
  | parsePinnedUseSupaHostRegister config i => trivial

def advance (state : State) (label : Nat × Action) : Option State := do
  let program ← label.2.run (state.place label.1)
  if admitted state.shared (state.place label.1) label.2 then
    match program state.shared with
    | .ok next after => some ⟨after, Function.update state.place label.1 next⟩
    | .error _ _ => none
  else none

theorem step_of_advance {state after : State} {label : Nat × Action}
    (steps : advance state label = some after) :
    hostProgram.interleaved.step state label after ∧ Respects state.shared label.2 := by
  unfold advance at steps
  cases run : label.2.run (state.place label.1) with
  | none => simp [run] at steps
  | some program =>
    simp only [run, bind_eq_bind, bind_some] at steps
    split at steps
    · rename_i admits
      cases result : program state.shared with
      | error exception world => simp [result] at steps
      | ok next world =>
        simp only [result, some.injEq] at steps
        subst steps
        exact ⟨⟨next, .returns program next world run (enabled_of_admitted admits) result, rfl⟩,
          respects_of_admitted admits⟩
    · simp at steps

def advances (guard : State → Nat × Action → Bool) (state : State) (labels : List (Nat × Action)) :
    Option State :=
  labels.foldlM (fun state label => if guard state label then advance state label else none) state

variable {allowed : State → Nat × Action → Prop}

theorem reachable_advances {guard : State → Nat × Action → Bool}
    (allow : ∀ state label, guard state label = true → Respects state.shared label.2 →
      allowed state label) (labels : List (Nat × Action)) :
    ∀ {state final : State}, hostProgram.interleaved.Reachable allowed state →
      advances guard state labels = some final → hostProgram.interleaved.Reachable allowed final := by
  induction labels with
  | nil =>
    intro state final reached runs
    obtain rfl : state = final := by simpa [advances] using runs
    exact reached
  | cons label rest ih =>
    intro state final reached runs
    simp only [advances, foldlM_cons, bind_eq_bind] at runs
    obtain ⟨between, first, later⟩ := bind_eq_some_iff.mp runs
    split at first
    · rename_i passes
      obtain ⟨step, respects⟩ := step_of_advance first
      exact ih (.step reached (allow state label passes respects) step) later
    · simp at first

def emptyState : State := ⟨{}, fun _ => .idle⟩

def turns (thread count : Nat) : List (Nat × Action) :=
  List.replicate count (thread, .proceed {})

def finalState (guard : State → Nat × Action → Bool) (labels : List (Nat × Action)) : State :=
  (advances guard emptyState labels).getD emptyState

def allocates (thread size pointer : Nat) : List (Nat × Action) :=
  (thread, .allocate size) :: turns thread 3 ++
    [(thread, .proceed { pointer := some pointer, hostGetDevicePointer := some pointer })] ++
    turns thread 1

theorem reachable_emptyState : hostProgram.interleaved.Reachable allowed emptyState :=
  .initial ⟨⟨rfl, rfl, rfl, rfl, rfl, rfl, rfl, rfl⟩, fun _ => rfl⟩

theorem reachable_finalState (guard : State → Nat × Action → Bool) (labels : List (Nat × Action))
    (runs : (advances guard emptyState labels).isSome = true)
    (allow : ∀ state label, guard state label = true → Respects state.shared label.2 →
      allowed state label) :
    hostProgram.interleaved.Reachable allowed (finalState guard labels) := by
  obtain ⟨final, ends⟩ := isSome_iff_exists.mp runs
  refine reachable_advances allow labels reachable_emptyState ?_
  unfold finalState
  rw [ends]
  rfl

end Runs

end TorchSupa.Host
