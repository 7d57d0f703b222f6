import TorchSupa.Pluggable.SUPAPluggableAllocator

/-!
The metadata follow the allocations as long as no `DataPtr` is destroyed: its context gives the
memory back and leaves the entry behind.
-/

namespace TorchSupa.Pluggable

open Outcome List

/-- Every call of the free function got the data of the most recent allocation of its address,
and the live addresses are those with metadata. -/
structure Right (allocator : SUPAPluggableAllocator) : Prop where
  calls : ∀ call ∈ allocator.calls, call.latest = some call.given
  exact_ : ∀ ptr, (allocator.allocationMetadata ptr).isSome = allocator.live ptr

/-- Where a `DataPtr` is destroyed its address is not live any more, and was not handed out
with other data since. -/
def Harmless (allocator : SUPAPluggableAllocator) : Op → Prop
  | .free context => ∀ self, allocator.contexts.get? context = some self →
      allocator.live self.data = false ∧ allocator.latest self.data = some self.metadata
  | _ => True

structure Sound (allocator : SUPAPluggableAllocator) : Prop where
  right : Right allocator
  current : ∀ ptr metadata, allocator.allocationMetadata ptr = some metadata →
    allocator.latest ptr = some metadata

section Steps

variable {allocator : SUPAPluggableAllocator} {metadata : AllocationMetadata} {ptr : Address}
  {context : ContextId} {self : DeleterContext}

@[simp] theorem setAt_same {α : Type} (entries : Address → α) (ptr : Address) (value : α) :
    setAt entries ptr value ptr = value := if_pos rfl

theorem setAt_other {α : Type} (entries : Address → α) (value : α) {other : Address}
    (different : other ≠ ptr) : setAt entries ptr value other = entries other := if_neg different

def handedOut (allocator : SUPAPluggableAllocator) (ptr : Address) (metadata : AllocationMetadata) :
    SUPAPluggableAllocator :=
  { allocator with
    latest := setAt allocator.latest ptr (some metadata)
    live := setAt allocator.live ptr true
    allocationMetadata := setAt allocator.allocationMetadata ptr (some metadata) }

theorem Sound.absent (sound : Sound allocator) (unused : allocator.live ptr = false) :
    allocator.allocationMetadata ptr = none := by
  have exact_ := sound.right.exact_ ptr
  rw [unused] at exact_
  simpa using exact_

open Pluggable

section

variable (sound : Sound allocator)
include sound

theorem Sound.handedOut (unused : allocator.live ptr = false) :
    Sound (handedOut allocator ptr metadata) := by
  refine ⟨⟨sound.right.calls, fun other => ?_⟩, fun other found there => ?_⟩
  · by_cases same : other = ptr
    · subst same
      simp [Pluggable.handedOut]
    · simp only [Pluggable.handedOut, setAt_other _ _ same]
      exact sound.right.exact_ other
  · by_cases same : other = ptr
    · subst same
      simpa [Pluggable.handedOut] using there
    · simp only [Pluggable.handedOut, setAt_other _ _ same] at there ⊢
      exact sound.current other found there

theorem malloc_run (unused : allocator.live ptr = false) :
    malloc metadata (some ptr) allocator = .ok ptr (handedOut allocator ptr metadata) := by
  have absent := sound.absent unused
  simp only [malloc, allocFn, emplace, demand, run_bind, run_pure, run_modify, absent,
    Option.isSome_none, Bool.false_eq_true, if_false, handedOut]

theorem Sound.contexts (contexts : Store DeleterContext) :
    Sound { allocator with contexts } := ⟨⟨sound.right.calls, sound.right.exact_⟩, sound.current⟩

theorem Sound.deleted (found : allocator.allocationMetadata ptr = some metadata) :
    Sound { allocator with
      allocationMetadata := setAt allocator.allocationMetadata ptr none
      calls := ⟨ptr, metadata, allocator.latest ptr⟩ :: allocator.calls
      live := setAt allocator.live ptr false } := by
  refine ⟨⟨fun call member => ?_, fun other => ?_⟩, fun other found' there => ?_⟩
  · rcases mem_cons.mp member with rfl | old
    · exact sound.current ptr metadata found
    · exact sound.right.calls call old
  · by_cases same : other = ptr
    · subst same
      simp
    · simp only [setAt_other _ _ same]
      exact sound.right.exact_ other
  · by_cases same : other = ptr
    · subst same
      simp at there
    · simp only [setAt_other _ _ same] at there
      exact sound.current other found' there

end

def destroyed (allocator : SUPAPluggableAllocator) (context : ContextId) (self : DeleterContext) :
    SUPAPluggableAllocator :=
  { allocator with
    calls := ⟨self.data, self.metadata, allocator.latest self.data⟩ :: allocator.calls
    live := setAt allocator.live self.data false
    contexts := allocator.contexts.erase context }

theorem free_run (found : allocator.contexts.get? context = some self) :
    free context allocator = .ok () (destroyed allocator context self) := by
  simp only [free, run_bind, run_get, found]
  rfl

theorem free_lost (missing : allocator.contexts.get? context = none) :
    free context allocator = .error .undefinedBehaviour allocator := by
  simp only [free, run_bind, run_get, missing]
  rfl

theorem Sound.destroyed (sound : Sound allocator) (idle : allocator.live self.data = false)
    (latest : allocator.latest self.data = some self.metadata) :
    Sound (destroyed allocator context self) := by
  refine ⟨⟨fun call member => ?_, fun other => ?_⟩, sound.current⟩
  · rcases mem_cons.mp member with rfl | old
    · exact latest
    · exact sound.right.calls call old
  · have exact_ := sound.right.exact_ other
    by_cases same : other = self.data
    · subst same
      simp only [Pluggable.destroyed, setAt_same]
      exact exact_.trans idle
    · simp only [Pluggable.destroyed, setAt_other _ _ same]
      exact exact_

theorem Right.not_destroyed (right : Right allocator)
    (after : Right (destroyed allocator context self)) :
    allocator.live self.data = false ∧ allocator.latest self.data = some self.metadata := by
  have exact_ := after.exact_ self.data
  simp only [destroyed, setAt_same] at exact_
  exact ⟨(right.exact_ self.data).symm.trans exact_, after.calls _ (.head _)⟩

end Steps

section Runs

variable {allocator after : SUPAPluggableAllocator} {op : Op}
  {past : List (SUPAPluggableAllocator × Op)}

theorem run_spec (sound : Sound allocator) (enabled : Enabled allocator op)
    (harmless : Harmless allocator op) :
    wp op.run (fun _ after => Sound after)
      (fun exception after => exception = .undefinedBehaviour ∨ Sound after) allocator := by
  cases op with
  | malloc metadata given =>
    cases given with
    | none => exact .inr sound
    | some ptr =>
      unfold Op.run
      rw [wp_bind]
      exact wp_of_ok (malloc_run sound (enabled ptr rfl)) (sound.handedOut (enabled ptr rfl))
  | allocate metadata given =>
    cases given with
    | none => exact .inr sound
    | some ptr =>
      unfold Op.run allocate
      rw [wp_bind, wp_bind]
      exact wp_of_ok (malloc_run sound (enabled ptr rfl))
        ((sound.handedOut (enabled ptr rfl)).contexts _)
  | rawDelete ptr =>
    unfold Op.run rawDelete
    exact bind_read (bind_demand (fun metadata found => sound.deleted found) fun _ => .inr sound)
  | free context =>
    cases found : allocator.contexts.get? context with
    | none =>
      have ran : Op.run (.free context) allocator = .error .undefinedBehaviour allocator :=
        free_lost found
      unfold wp
      rw [ran]
      exact .inl rfl
    | some self =>
      obtain ⟨idle, latest⟩ := harmless self found
      exact wp_of_ok (free_run found) (sound.destroyed idle latest)

theorem sound_start : Sound {} := ⟨⟨nofun, fun _ => rfl⟩, nofun⟩

theorem Run.sound (run : Run past allocator) (harmless : ∀ step ∈ past, Harmless step.1 step.2) :
    Sound allocator ∧ ∀ step ∈ past, Right step.1 := by
  induction run with
  | start => exact ⟨sound_start, by simp⟩
  | returns op _ enabled ran ih =>
    obtain ⟨sound, before⟩ := ih fun step member => harmless step (.tail _ member)
    refine ⟨wp_ok (run_spec sound enabled (harmless _ (.head _))) ran, ?_⟩
    exact forall_mem_cons.mpr ⟨sound.right, before⟩
  | throws op exception _ enabled ran caught ih =>
    obtain ⟨sound, before⟩ := ih fun step member => harmless step (.tail _ member)
    refine ⟨(wp_error (run_spec sound enabled (harmless _ (.head _))) ran).resolve_left caught, ?_⟩
    exact forall_mem_cons.mpr ⟨sound.right, before⟩

theorem harmless_of_right (before : Right allocator) (right : Right after)
    (ran : op.run allocator = .ok () after ∨ ∃ exception, op.run allocator = .error exception after ∧
      exception ≠ .undefinedBehaviour) : Harmless allocator op := by
  cases op with
  | malloc metadata given => exact trivial
  | allocate metadata given => exact trivial
  | rawDelete ptr => exact trivial
  | free context =>
    intro self found
    have run : Op.run (.free context) allocator = .ok () (destroyed allocator context self) :=
      free_run found
    rw [run] at ran
    rcases ran with ran | ⟨_, ran, _⟩
    · cases ran
      exact before.not_destroyed right
    · cases ran

theorem Run.harmless (run : Run past allocator) (right : Right allocator)
    (all : ∀ step ∈ past, Right step.1) : ∀ step ∈ past, Harmless step.1 step.2 := by
  induction run with
  | start => simp
  | returns op _ _ ran ih =>
    obtain ⟨before, older⟩ := forall_mem_cons.mp all
    exact forall_mem_cons.mpr ⟨harmless_of_right before right (.inl ran), ih before older⟩
  | throws op exception _ _ ran caught ih =>
    obtain ⟨before, older⟩ := forall_mem_cons.mp all
    exact forall_mem_cons.mpr
      ⟨harmless_of_right before right (.inr ⟨exception, ran, caught⟩), ih before older⟩

end Runs

/-- In a sequence of calls the metadata are right all the time exactly if no `DataPtr` is
destroyed whose memory is still live, or was handed out with other data since. -/
theorem metadata_right_iff {past : List (SUPAPluggableAllocator × Op)}
    {allocator : SUPAPluggableAllocator} (run : Run past allocator) :
    (Right allocator ∧ ∀ step ∈ past, Right step.1) ↔ ∀ step ∈ past, Harmless step.1 step.2 := by
  constructor
  · rintro ⟨right, all⟩
    exact run.harmless right all
  · intro harmless
    obtain ⟨sound, all⟩ := run.sound harmless
    exact ⟨sound.right, all⟩

/-- An address that goes back through `raw_delete` and is handed out again. -/
theorem metadata_right_iff_sample : ∃ past allocator, Run past allocator ∧
    allocator.calls = [⟨4096, ⟨200, 0, 1⟩, some ⟨200, 0, 1⟩⟩, ⟨4096, ⟨100, 0, 0⟩, some ⟨100, 0, 0⟩⟩] ∧
    Right allocator := by
  have first := (Run.start.returns (.malloc ⟨100, 0, 0⟩ (some 4096)) (by simp [Enabled]) rfl).returns
    (.rawDelete 4096) trivial rfl
  have second := (first.returns (.malloc ⟨200, 0, 1⟩ (some 4096)) (by simp [Enabled, setAt]) rfl).returns
    (.rawDelete 4096) trivial rfl
  exact ⟨_, _, second, rfl, ((metadata_right_iff second).mpr (by simp [Harmless])).1⟩

/-- After a `DataPtr` has been destroyed its address is handed out again: `raw_delete` passes the
size and the stream of the allocation before. -/
theorem metadata_wrong : ∃ past allocator, Run past allocator ∧
    ⟨4096, ⟨100, 0, 0⟩, some ⟨200, 0, 1⟩⟩ ∈ allocator.calls ∧ ¬Right allocator := by
  have first := (Run.start.returns (.allocate ⟨100, 0, 0⟩ (some 4096)) (by simp [Enabled]) rfl).returns
    (.free 0) trivial rfl
  have second := (first.returns (.malloc ⟨200, 0, 1⟩ (some 4096)) (by simp [Enabled, setAt]) rfl).returns
    (.rawDelete 4096) trivial rfl
  refine ⟨_, _, second, (.head _), fun right => ?_⟩
  have wrong := right.calls _ (.head _)
  cases wrong

end TorchSupa.Pluggable
