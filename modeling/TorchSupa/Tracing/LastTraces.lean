import TorchSupa.Tracing.AllocTrace

/-!
The trace has the last entries as long as the limit does not change once entries have been
overwritten, and does not go below the number of entries.
-/

namespace TorchSupa.Tracing

open Outcome

variable {Context : Type} {trace after : AllocTrace Context}

/-- The next entry has a place, and `trace` yields the last entries since recording was enabled. -/
structure Right (trace : AllocTrace Context) : Prop where
  bounds : trace.recordHistory = true → trace.allocTrace.length < trace.allocTraceMaxEntries ∨
    trace.allocTraceNext < trace.allocTrace.length
  last : ∀ tscToUs, trace.trace tscToUs = some
    ((trace.recorded.drop (trace.recorded.length - trace.allocTraceMaxEntries)).map
      fun te => { te with time := tscToUs te.time })

/-- A limit that is taken over while recording goes on is the old one, or nothing has been
overwritten yet and no entry is too many. -/
def Harmless (trace : AllocTrace Context) : Op Context → Prop
  | .recordHistory enabled contextRecorder maxEntries when_ =>
    (when_ = .never ∨ contextRecorder.isSome) → enabled = true →
      max 1 maxEntries = trace.allocTraceMaxEntries ∨
      trace.recorded.length ≤ trace.allocTraceMaxEntries ∧
        trace.recorded.length ≤ max 1 maxEntries
  | .recordTrace _ _ _ => True

structure Sound (trace : AllocTrace Context) : Prop where
  keeps : trace.ring.Keeps trace.recorded

theorem Sound.right (sound : Sound trace) : Right trace := by
  refine ⟨fun _ => sound.keeps.room, fun tscToUs => ?_⟩
  have reach : trace.allocTraceNext ≤ trace.allocTrace.length := sound.keeps.next_le
  rw [AllocTrace.trace, if_pos reach]
  exact congrArg (fun entries => some (List.map _ entries)) sound.keeps.inOrder

section Steps

variable {enabled : Bool} {contextRecorder : Option (Unit → Context)} {maxEntries : Nat}
  {when_ : RecordContext}

section

variable (sound : Sound trace)
include sound

theorem recordHistory_spec
    (harmless : Harmless trace (.recordHistory enabled contextRecorder maxEntries when_)) :
    wp (recordHistory enabled contextRecorder maxEntries when_) (fun _ after => Sound after)
      (fun _ after => Sound after) trace := by
  refine bind_check (fun given => ?_) fun _ => sound
  rw [wp_modify]
  cases enabled with
  | false => exact ⟨RingBuffer.keeps_empty (Nat.le_max_left 1 maxEntries)⟩
  | true =>
    have allowed : when_ = .never ∨ contextRecorder.isSome = true := by simpa using given
    exact ⟨sound.keeps.resize (Nat.le_max_left 1 maxEntries) (harmless allowed rfl)⟩

theorem Sound.pushed (te : Traced Context) :
    if trace.allocTrace.length < trace.allocTraceMaxEntries then
      Sound { trace with
        allocTrace := trace.allocTrace ++ [te]
        recorded := trace.recorded ++ [te] }
    else
      Sound { trace with
        allocTrace := trace.allocTrace.set trace.allocTraceNext te
        allocTraceNext :=
          if trace.allocTraceNext + 1 = trace.allocTraceMaxEntries then 0
          else trace.allocTraceNext + 1
        recorded := trace.recorded ++ [te] } := by
  have pushed := sound.keeps.push te
  have longer : (trace.recorded ++ [te]).length = trace.recorded.length + 1 := by simp
  split
  · next room =>
    replace room : trace.ring.entries.length < trace.ring.capacity := room
    rw [RingBuffer.push, if_pos room] at pushed
    refine ⟨?_⟩
    simp only [AllocTrace.ring, longer]
    exact pushed
  · next full =>
    replace full : ¬ trace.ring.entries.length < trace.ring.capacity := full
    rw [RingBuffer.push, if_neg full] at pushed
    refine ⟨?_⟩
    simp only [AllocTrace.ring, longer]
    exact pushed

theorem recordTrace_spec {entry : Allocator.TraceEntry} {time : Nat} {context : Option Context} :
    wp (recordTrace entry time context) (fun _ after => Sound after) (fun _ _ => False) trace := by
  refine bind_read ?_
  have pushed := sound.pushed (trace.traced entry time context)
  split
  · split at pushed
    · next room =>
      rw [if_pos room, wp_set]
      exact pushed
    · next full =>
      rw [if_neg full]
      have inside := sound.keeps.room.resolve_left full
      refine bind_check (fun _ => ?_) fun outside => ?_
      · rw [wp_set]
        exact pushed
      · exact absurd inside (of_decide_eq_false outside)
  · exact sound

theorem run_spec {op : Op Context} (harmless : Harmless trace op) :
    wp op.run (fun _ after => Sound after) (fun _ after => Sound after) trace := by
  cases op with
  | recordHistory enabled contextRecorder maxEntries when_ => exact recordHistory_spec sound harmless
  | recordTrace entry time context =>
    exact wp_mono (recordTrace_spec sound) (fun _ _ sound => sound) fun _ _ never => never.elim

theorem harmless_of_right {op : Op Context} (ran : op.run trace = .ok () after)
    (right : Right after) : Harmless trace op := by
  cases op with
  | recordTrace entry time context => trivial
  | recordHistory enabled contextRecorder maxEntries when_ =>
    intro allowed on
    subst on
    have given : (when_ == .never || contextRecorder.isSome) = true := by simpa using allowed
    simp only [Op.run, recordHistory, check, given, if_true, run_bind, run_pure, run_modify,
      EStateM.Result.ok.injEq, true_and] at ran
    have length := congrArg (Option.map List.length) (right.last id)
    have size := sound.keeps.size
    have reach := sound.keeps.next_le
    subst ran
    simp only [AllocTrace.ring] at size reach
    simp only [AllocTrace.trace, if_pos reach] at length
    simp at length
    omega

end

theorem harmless_of_thrown {op : Op Context} {exception : Exn}
    (ran : op.run trace = .error exception after) : Harmless trace op := by
  cases op with
  | recordTrace entry time context => trivial
  | recordHistory enabled contextRecorder maxEntries when_ =>
    intro allowed
    have given : (when_ == .never || contextRecorder.isSome) = true := by simpa using allowed
    simp [Op.run, recordHistory, check, given, run_bind, run_pure, run_modify] at ran

end Steps

section Runs

variable {past : List (AllocTrace Context × Op Context)}

open List

theorem Run.sound (run : Run past trace) (harmless : ∀ step ∈ past, Harmless step.1 step.2) :
    Sound trace ∧ ∀ step ∈ past, Right step.1 := by
  induction run with
  | start => exact ⟨⟨RingBuffer.keeps_empty Nat.one_pos⟩, by simp⟩
  | returns op _ ran ih =>
    obtain ⟨sound, before⟩ := ih fun step member => harmless step (.tail _ member)
    refine ⟨wp_ok (run_spec sound (harmless _ (.head _))) ran, ?_⟩
    exact forall_mem_cons.mpr ⟨sound.right, before⟩
  | throws op exception _ ran _ ih =>
    obtain ⟨sound, before⟩ := ih fun step member => harmless step (.tail _ member)
    refine ⟨wp_error (run_spec sound (harmless _ (.head _))) ran, ?_⟩
    exact forall_mem_cons.mpr ⟨sound.right, before⟩

theorem Run.harmless (run : Run past trace) (right : Right trace)
    (all : ∀ step ∈ past, Right step.1) : ∀ step ∈ past, Harmless step.1 step.2 := by
  induction run with
  | start => simp
  | returns op earlier ran ih =>
    obtain ⟨before, older⟩ := forall_mem_cons.mp all
    have harmless := ih before older
    exact forall_mem_cons.mpr ⟨harmless_of_right (earlier.sound harmless).1 ran right, harmless⟩
  | throws op exception earlier ran caught ih =>
    obtain ⟨before, older⟩ := forall_mem_cons.mp all
    have harmless := ih before older
    exact forall_mem_cons.mpr ⟨harmless_of_thrown ran, harmless⟩

end Runs

/-- In a sequence of calls the trace is right all the time exactly if every limit that is taken
over while recording goes on is the old one, or leaves room for all entries of which none has been
overwritten. -/
theorem trace_right_iff {past : List (AllocTrace Context × Op Context)} {trace : AllocTrace Context}
    (run : Run past trace) :
    (Right trace ∧ ∀ step ∈ past, Right step.1) ↔ ∀ step ∈ past, Harmless step.1 step.2 := by
  constructor
  · rintro ⟨right, all⟩
    exact run.harmless right all
  · intro harmless
    obtain ⟨sound, all⟩ := run.sound harmless
    exact ⟨sound.right, all⟩

def sampleEntry (addr : Int) : Traced Unit := ⟨⟨.alloc, 0, addr, 512, 0, (0, 0)⟩, 0, none⟩

def sampleTrace (maxEntries next : Nat) (allocTrace recorded : List Int) : AllocTrace Unit where
  recordHistory := true
  allocTrace := allocTrace.map sampleEntry
  allocTraceNext := next
  allocTraceMaxEntries := maxEntries
  recorded := recorded.map sampleEntry

def sampleRecord (addr : Int) : Op Unit := .recordTrace (sampleEntry addr).entry 0 none

/-- A limit of two that is taken over again after the first of three entries. -/
theorem trace_right_iff_sample : ∃ past, ∃ trace : AllocTrace Unit, Run past trace ∧
    trace.trace id = some [sampleEntry 1, sampleEntry 2] ∧ Right trace := by
  have enabled : Run _ (sampleTrace 2 0 [] []) :=
    Run.start.returns (.recordHistory true none 2 .never) rfl
  have first : Run _ (sampleTrace 2 0 [0] [0]) := enabled.returns (sampleRecord 0) rfl
  have again : Run _ (sampleTrace 2 0 [0] [0]) :=
    first.returns (.recordHistory true none 2 .never) rfl
  have second : Run _ (sampleTrace 2 0 [0, 1] [0, 1]) := again.returns (sampleRecord 1) rfl
  have third : Run _ (sampleTrace 2 1 [2, 1] [0, 1, 2]) := second.returns (sampleRecord 2) rfl
  exact ⟨_, _, third, rfl, ((trace_right_iff third).mpr
    (by simp [Harmless, sampleRecord, sampleTrace])).1⟩

/-- The limit goes from three to one after an entry has been overwritten: the cursor passes the
new limit and runs off the end. -/
theorem trace_wrong : ∃ past, ∃ trace : AllocTrace Unit, Run past trace ∧ (∀ entry time context,
      recordTrace entry time context trace = .error .undefinedBehaviour trace) ∧
    ¬Right trace := by
  have enabled : Run _ (sampleTrace 3 0 [] []) :=
    Run.start.returns (.recordHistory true none 3 .never) rfl
  have first : Run _ (sampleTrace 3 0 [0] [0]) := enabled.returns (sampleRecord 0) rfl
  have second : Run _ (sampleTrace 3 0 [0, 1] [0, 1]) := first.returns (sampleRecord 1) rfl
  have third : Run _ (sampleTrace 3 0 [0, 1, 2] [0, 1, 2]) := second.returns (sampleRecord 2) rfl
  have fourth : Run _ (sampleTrace 3 1 [3, 1, 2] [0, 1, 2, 3]) := third.returns (sampleRecord 3) rfl
  have shrunk : Run _ (sampleTrace 1 1 [3, 1, 2] [0, 1, 2, 3]) :=
    fourth.returns (.recordHistory true none 1 .never) rfl
  have fifth : Run _ (sampleTrace 1 2 [3, 4, 2] [0, 1, 2, 3, 4]) :=
    shrunk.returns (sampleRecord 4) rfl
  have sixth : Run _ (sampleTrace 1 3 [3, 4, 5] [0, 1, 2, 3, 4, 5]) :=
    fifth.returns (sampleRecord 5) rfl
  refine ⟨_, _, sixth, fun entry time context => rfl, fun right => ?_⟩
  have bounds := right.bounds rfl
  revert bounds
  decide

section OfAllocator

variable {state : Allocator.DeviceCachingAllocator} {recorded : List (Traced Unit)}

theorem recordHistory_ofAllocator (enabled : Bool) (maxEntries : Nat) :
    ∃ next, Allocator.recordHistory enabled maxEntries state = .ok () next ∧
      recordHistory enabled none maxEntries .never (ofAllocator state recorded) =
        .ok () (ofAllocator next (if enabled then recorded else [])) := by
  cases enabled <;>
    simp [Allocator.recordHistory, recordHistory, ofAllocator, check, run_modify, run_bind, run_pure]

def traceAfter (state : Allocator.DeviceCachingAllocator) (entry : Allocator.TraceEntry) :
    Allocator.DeviceCachingAllocator :=
  if state.recordHistory then
    if state.allocTrace.length < state.allocTraceMaxEntries then
      { state with allocTrace := state.allocTrace ++ [entry] }
    else
      { state with
        allocTrace := state.allocTrace.set state.allocTraceNext entry
        allocTraceNext :=
          if state.allocTraceNext + 1 = state.allocTraceMaxEntries then 0
          else state.allocTraceNext + 1 }
  else state

theorem recordTrace_run (entry : Allocator.TraceEntry) :
    Allocator.recordTrace entry.action entry.addr entry.size entry.stream entry.device
      entry.mempool state = .ok () (traceAfter state entry) := by
  unfold Allocator.recordTrace traceAfter
  cases recording : state.recordHistory <;>
    simp [run_modify, recording]

theorem recordTrace_ofAllocator (entry : Allocator.TraceEntry) : wp (recordTrace entry 0 none)
      (fun _ after => after = ofAllocator (traceAfter state entry) after.recorded)
      (fun exception _ => exception = .undefinedBehaviour) (ofAllocator state recorded) := by
  have made : (ofAllocator state recorded).traced entry 0 none = ⟨entry, 0, none⟩ := rfl
  unfold recordTrace
  refine bind_read ?_
  rw [made]
  unfold traceAfter
  split
  · next recording =>
    replace recording : state.recordHistory = true := recording
    rw [if_pos recording]
    split
    · next room =>
      replace room : state.allocTrace.length < state.allocTraceMaxEntries := by
        simpa [ofAllocator] using room
      rw [if_pos room, wp_set]
      simp [ofAllocator]
    · next full =>
      replace full : ¬ state.allocTrace.length < state.allocTraceMaxEntries := by
        simpa [ofAllocator] using full
      rw [if_neg full]
      refine bind_check (fun _ => ?_) fun _ => rfl
      rw [wp_set]
      simp [ofAllocator]
      rfl
  · next idle =>
    replace idle : ¬ state.recordHistory = true := idle
    rw [if_neg idle]
    rfl

end OfAllocator

end TorchSupa.Tracing
