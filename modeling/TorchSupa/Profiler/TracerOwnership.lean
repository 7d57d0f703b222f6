import TorchSupa.Profiler.PythonTracer

/-!
Which tracer the threads report to. The lock is one of each tracer, so it keeps no other tracer
out, and a restart gives every thread without a callback the first results.
-/

namespace TorchSupa.Profiler

open List Nat Option

namespace Interpreter

variable (state : Interpreter)

def Active (i : Nat) (tracer : PythonTracer) : Prop :=
  state.tracers i = some tracer ∧ tracer.active = true

def Results (i k : Nat) (results : ThreadLocalResults) : Prop :=
  ∃ tracer, state.Active i tracer ∧ tracer.threadLocalResults[k]? = some results

/-- One tracer at most is active; callbacks refer to results that it made for their thread, and
each thread it made results for has such a callback, so that what happens on the thread goes to
these results; what any tracer has recorded for a thread happened on it. -/
structure Owned : Prop where
  exclusive : ∀ i j tracer other, state.Active i tracer → state.Active j other → i = j
  owned : ∀ thread i k, state.profile thread = some (i, k) →
    ∃ results, state.Results i k results ∧ results.threadState = thread
  traced : ∀ thread ∈ state.threads, ∀ i k results, state.Results i k results →
    results.threadState = thread → state.profile thread = some (i, k)
  reported : ∀ thread ∈ state.threads, ∀ i k results, state.Results i k results →
    results.threadState = thread → ∀ what, ∃ after,
      advance state (.event thread what) = some after ∧
        after.Results i k (results.record thread what)
  recorded : ∀ i tracer results, state.tracers i = some tracer →
    results ∈ tracer.threadLocalResults → ∀ entry ∈ results.recorded, entry.1 = results.threadState
  released : ∀ i tracer, state.tracers i = some tracer → tracer.active = false →
    ∀ thread k, state.profile thread ≠ some (i, k)

/-- A tracer is made or restarted when no other one is active, and restarted when the first
results are those of every thread that has no callback. -/
def Allowed : Action → Prop
  | .construct => ∀ i tracer, ¬ state.Active i tracer
  | .restart i => (∀ j tracer, state.Active j tracer → j = i) ∧
      ∀ tracer, state.tracers i = some tracer → ∀ thread ∈ state.threads,
        state.profile thread = none →
          tracer.threadLocalResults.head?.map (·.threadState) = some thread
  | _ => True

end Interpreter

section Enumeration

variable (i : Nat) (frames : Nat → Nat)

theorem stopThread_foldl (threads : List Nat) (profile : Nat → Option (Nat × Nat)) (thread : Nat) :
    threads.foldl stopThread profile thread = if thread ∈ threads then none else profile thread := by
  induction threads generalizing profile with
  | nil => simp
  | cons first rest ih =>
    have head : stopThread profile first thread = if thread = first then none else profile thread := by
      unfold stopThread
      split
      · rw [Function.update_apply]
      · rename_i empty
        split
        · rename_i same
          subst same
          simpa using empty
        · rfl
    simp only [foldl_cons, ih, head, mem_cons]
    by_cases same : thread = first <;> by_cases later : thread ∈ rest <;> simp [same, later]

theorem restartThread_foldl (threads : List Nat) (profile : Nat → Option (Nat × Nat))
    (thread : Nat) :
    threads.foldl (restartThread i) profile thread =
      if thread ∈ threads ∧ profile thread = none then some (i, 0) else profile thread := by
  induction threads generalizing profile with
  | nil => simp
  | cons first rest ih =>
    have head : restartThread i profile first thread =
        if thread = first ∧ profile thread = none then some (i, 0) else profile thread := by
      simp only [restartThread, isNone_iff_eq_none]
      by_cases same : thread = first
      · subst same
        by_cases empty : profile thread = none <;> simp [empty]
      · split <;> simp [same]
    simp only [foldl_cons, ih, head, mem_cons]
    by_cases same : thread = first
    · subst same
      by_cases empty : profile thread = none <;> simp [empty]
    · simp [same]

def firstResults (thread : Nat) : ThreadLocalResults :=
  ⟨thread, List.replicate (min (frames thread) 128) (thread, .call)⟩

theorem registerThread_foldl (threads : List Nat) (nodup : threads.Nodup)
    (profile : Nat → Option (Nat × Nat)) (tracer : PythonTracer) :
    let after := threads.foldl (registerThread i frames) (profile, tracer)
    after.2.threadLocalResults = tracer.threadLocalResults ++ threads.map (firstResults frames) ∧
    after.2.active = tracer.active ∧ after.2.activeLock = tracer.activeLock ∧
    ∀ thread, after.1 thread = if thread ∈ threads then
      some (i, tracer.threadLocalResults.length + threads.idxOf thread) else profile thread := by
  induction threads generalizing profile tracer with
  | nil => simp
  | cons first rest ih =>
    obtain ⟨fresh, nodup⟩ := nodup_cons.mp nodup
    have later := ih nodup (registerThread i frames (profile, tracer) first).1
      (registerThread i frames (profile, tracer) first).2
    simp only [foldl_cons]
    refine ⟨?_, later.2.1, later.2.2.1, fun thread => ?_⟩
    · rw [later.1]
      simp [registerThread, firstResults]
    · rw [later.2.2.2 thread]
      by_cases same : thread = first
      · subst same
        simp [fresh, registerThread]
      · have different : first ≠ thread := fun eq => same eq.symm
        simp only [registerThread, mem_cons, same, false_or, length_append,
          length_singleton, idxOf_cons_ne rest different, Function.update_of_ne same]
        split
        · congr 2
          omega
        · rfl

end Enumeration

namespace Interpreter

structure Tidy (state : Interpreter) : Prop where
  nodup : state.threads.Nodup
  below : ∀ thread ∈ state.threads, thread < state.born
  gone : ∀ thread, thread ∉ state.threads → state.profile thread = none
  fresh : ∀ i, state.made ≤ i → state.tracers i = none
  locked : ∀ i tracer, state.tracers i = some tracer → tracer.activeLock = tracer.active
  distinct : ∀ i tracer, state.tracers i = some tracer →
    (tracer.threadLocalResults.map (·.threadState)).Nodup
  known : ∀ i tracer, state.tracers i = some tracer → ∀ results ∈ tracer.threadLocalResults,
    results.threadState < state.born
  begun : ∀ i tracer, state.tracers i = some tracer → tracer.constructed = false →
    tracer.threadLocalResults = [] ∧ tracer.active = true
  exclusive : ∀ i j tracer other, state.Active i tracer → state.Active j other → i = j
  owned : ∀ thread i k, state.profile thread = some (i, k) →
    ∃ results, state.Results i k results ∧ results.threadState = thread
  traced : ∀ thread ∈ state.threads, ∀ i k results, state.Results i k results →
    results.threadState = thread → state.profile thread = some (i, k)
  recorded : ∀ i tracer results, state.tracers i = some tracer →
    results ∈ tracer.threadLocalResults → ∀ entry ∈ results.recorded, entry.1 = results.threadState

variable {state after : Interpreter}

theorem Starts.tidy (starts : state.Starts) : state.Tidy := by
  constructor
  · exact starts.nodup
  · exact starts.below
  · exact fun thread _ => starts.profile thread
  · exact fun i _ => starts.tracers i
  · intro i tracer held
    simp [starts.tracers i] at held
  · intro i tracer held
    simp [starts.tracers i] at held
  · intro i tracer held
    simp [starts.tracers i] at held
  · intro i tracer held
    simp [starts.tracers i] at held
  · rintro i j tracer other ⟨held, -⟩
    simp [starts.tracers i] at held
  · intro thread i k refers
    simp [starts.profile thread] at refers
  · rintro thread member i k results ⟨tracer, ⟨held, -⟩, -⟩
    simp [starts.tracers i] at held
  · intro i tracer results held
    simp [starts.tracers i] at held

variable {thread : Nat} {results : ThreadLocalResults} {what : What}

theorem Tidy.reported (tidy : state.Tidy) {i k : Nat}
    (alive : thread ∈ state.threads) (made : state.Results i k results)
    (own : results.threadState = thread) (what : What) : ∃ after,
    advance state (.event thread what) = some after ∧
      after.Results i k (results.record thread what) := by
  have refers := tidy.traced thread alive i k results made own
  obtain ⟨tracer, ⟨held, active⟩, place⟩ := made
  have bound := (List.getElem?_eq_some_iff.mp place).1
  refine ⟨state.setTracer i (some { tracer with
    threadLocalResults := tracer.threadLocalResults.modify k (·.record thread what) }), ?_, ?_⟩
  · simp [advance, pyProfileFn, alive, refers, held, bound]
  · refine ⟨{ tracer with
      threadLocalResults := tracer.threadLocalResults.modify k (·.record thread what) }, ?_, ?_⟩
    · exact ⟨by simp [setTracer], active⟩
    · simp [place]

theorem Tidy.isOwned (tidy : state.Tidy) : state.Owned := by
  refine ⟨tidy.exclusive, tidy.owned, tidy.traced, ?_, tidy.recorded, ?_⟩
  · intro thread alive i k results made own what
    exact tidy.reported alive made own what
  · intro i tracer held inactive thread k refers
    obtain ⟨results, ⟨other, ⟨also, active⟩, -⟩, -⟩ := tidy.owned thread i k refers
    rw [held] at also
    cases also
    simp [inactive] at active

theorem Tidy.birth (tidy : state.Tidy) :
    Tidy { state with threads := state.born :: state.threads, born := state.born + 1 } := by
  have unborn : state.born ∉ state.threads := fun member => Nat.lt_irrefl _ (tidy.below _ member)
  refine { tidy with
    nodup := nodup_cons.mpr ⟨unborn, tidy.nodup⟩
    below := ?_, gone := ?_, known := ?_, owned := tidy.owned, traced := ?_ }
  · intro thread member
    rcases mem_cons.mp member with rfl | member
    · exact lt_succ_self _
    · exact lt_succ_of_lt (tidy.below thread member)
  · intro thread absent
    exact tidy.gone thread fun member => absent (.tail _ member)
  · intro i tracer held results member
    exact lt_succ_of_lt (tidy.known i tracer held results member)
  · intro thread member i k results made own
    rcases mem_cons.mp member with rfl | member
    · obtain ⟨tracer, ⟨held, -⟩, place⟩ := made
      have below := tidy.known i tracer held results (mem_of_getElem? place)
      omega
    · exact tidy.traced thread member i k results made own

theorem Tidy.death (tidy : state.Tidy) (thread : Nat) : Tidy { state with
      threads := state.threads.erase thread
      profile := Function.update state.profile thread none } := by
  refine { tidy with
    nodup := tidy.nodup.erase thread
    below := fun other member => tidy.below other (mem_of_mem_erase member)
    gone := ?_, owned := ?_, traced := ?_ }
  · intro other absent
    by_cases same : other = thread
    · simp [same]
    · simp only [Function.update_of_ne same]
      exact tidy.gone other fun member => absent ((mem_erase_of_ne same).mpr member)
  · intro other i k refers
    by_cases same : other = thread
    · simp [same] at refers
    · simp only [Function.update_of_ne same] at refers
      exact tidy.owned other i k refers
  · intro other member i k results made own
    have same : other ≠ thread := by
      rintro rfl
      exact tidy.nodup.not_mem_erase member
    simp only [Function.update_of_ne same]
    exact tidy.traced other (mem_of_mem_erase member) i k results made own

@[simp] theorem setTracer_tracers (i j : Nat) (tracer : Option PythonTracer) :
    (state.setTracer i tracer).tracers j = if j = i then tracer else state.tracers j := by
  simp only [setTracer, Function.update_apply]

theorem distinct_place {tracer : PythonTracer}
    (distinct : (tracer.threadLocalResults.map (·.threadState)).Nodup) {j k : Nat}
    {others : ThreadLocalResults} (first : tracer.threadLocalResults[j]? = some results)
    (second : tracer.threadLocalResults[k]? = some others)
    (same : results.threadState = others.threadState) : j = k := by
  have bound := (List.getElem?_eq_some_iff.mp first).1
  refine (List.getElem?_inj (by simpa using bound) distinct).mp ?_
  simp [first, second, same]

theorem Tidy.construct (tidy : state.Tidy) (idle : ∀ i tracer, ¬ state.Active i tracer) :
    Tidy (construct state) := by
  have silent : ∀ thread, state.profile thread = none := by
    intro thread
    cases refers : state.profile thread with
    | none => rfl
    | some place =>
      obtain ⟨results, ⟨tracer, active, -⟩, -⟩ := tidy.owned thread place.1 place.2 refers
      exact absurd active (idle _ _)
  have held : ∀ {i tracer}, (Profiler.construct state).tracers i = some tracer →
      i = state.made ∧ tracer = { activeLock := true, active := true, constructed := false } ∨
        state.tracers i = some tracer := by
    intro i tracer found
    simp only [Profiler.construct, compareExchangeStrong, ↓reduceIte, setTracer_tracers] at found
    split at found
    · rename_i same
      exact .inl ⟨same, (some.inj found).symm⟩
    · exact .inr found
  have active : ∀ {i tracer}, (Profiler.construct state).Active i tracer →
      i = state.made ∧ tracer.threadLocalResults = [] := by
    rintro i tracer ⟨found, on⟩
    rcases held found with ⟨same, rfl⟩ | old
    · exact ⟨same, rfl⟩
    · exact absurd ⟨old, on⟩ (idle i tracer)
  constructor
  · exact tidy.nodup
  · exact tidy.below
  · exact tidy.gone
  · intro i later
    have later : state.made + 1 ≤ i := later
    have other : i ≠ state.made := by omega
    simp only [Profiler.construct, compareExchangeStrong, ↓reduceIte, setTracer_tracers, other]
    exact tidy.fresh i (by omega)
  · intro i tracer found
    rcases held found with ⟨-, rfl⟩ | old
    · rfl
    · exact tidy.locked i tracer old
  · intro i tracer found
    rcases held found with ⟨-, rfl⟩ | old
    · exact nodup_nil
    · exact tidy.distinct i tracer old
  · intro i tracer found results member
    rcases held found with ⟨-, rfl⟩ | old
    · simp at member
    · exact tidy.known i tracer old results member
  · intro i tracer found begun
    rcases held found with ⟨-, rfl⟩ | old
    · exact ⟨rfl, rfl⟩
    · exact tidy.begun i tracer old begun
  · intro i j tracer other first second
    rw [(active first).1, (active second).1]
  · intro thread i k refers
    have refers : state.profile thread = some (i, k) := refers
    simp [silent thread] at refers
  · rintro thread - i k results ⟨tracer, on, place⟩
    simp [(active on).2] at place
  · intro i tracer results found member
    rcases held found with ⟨-, rfl⟩ | old
    · simp at member
    · exact tidy.recorded i tracer results old member

structure Replaces (state : Interpreter) (i : Nat) (tracer : PythonTracer)
    (profile : Nat → Option (Nat × Nat)) : Prop where
  alone : ∀ j other, state.Active j other → j = i
  held : state.tracers i ≠ none
  locked : tracer.activeLock = tracer.active
  distinct : (tracer.threadLocalResults.map (·.threadState)).Nodup
  known : ∀ results ∈ tracer.threadLocalResults, results.threadState < state.born
  begun : tracer.constructed = false → tracer.threadLocalResults = [] ∧ tracer.active = true
  recorded : ∀ results ∈ tracer.threadLocalResults,
    ∀ entry ∈ results.recorded, entry.1 = results.threadState
  gone : ∀ thread, thread ∉ state.threads → profile thread = none
  owned : ∀ thread j k, profile thread = some (j, k) → j = i ∧ tracer.active = true ∧
    ∃ results, tracer.threadLocalResults[k]? = some results ∧ results.threadState = thread
  traced : tracer.active = true → ∀ thread ∈ state.threads, ∀ k results,
    tracer.threadLocalResults[k]? = some results → results.threadState = thread →
      profile thread = some (i, k)

section

variable (tidy : state.Tidy)
include tidy

theorem Tidy.replace (i : Nat) (tracer : PythonTracer)
    (profile : Nat → Option (Nat × Nat)) (replaces : state.Replaces i tracer profile) :
    Tidy ({ state with profile }.setTracer i (some tracer)) := by
  have cases : ∀ {j other}, ({ state with profile }.setTracer i (some tracer)).tracers j =
      some other → j = i ∧ other = tracer ∨ state.tracers j = some other := by
    intro j other found
    rw [setTracer_tracers] at found
    split at found
    · rename_i same
      exact .inl ⟨same, (some.inj found).symm⟩
    · exact .inr found
  have active : ∀ {j other}, ({ state with profile }.setTracer i (some tracer)).Active j other →
      j = i ∧ other = tracer := by
    rintro j other ⟨found, on⟩
    rcases cases found with new | old
    · exact new
    · have same := replaces.alone j other ⟨old, on⟩
      subst same
      simpa [eq_comm] using found
  constructor
  · exact tidy.nodup
  · exact tidy.below
  · exact replaces.gone
  · intro j later
    have other : j ≠ i := by
      rintro rfl
      exact replaces.held (tidy.fresh j later)
    rw [setTracer_tracers, if_neg other]
    exact tidy.fresh j later
  · intro j other found
    rcases cases found with ⟨-, rfl⟩ | old
    · exact replaces.locked
    · exact tidy.locked j other old
  · intro j other found
    rcases cases found with ⟨-, rfl⟩ | old
    · exact replaces.distinct
    · exact tidy.distinct j other old
  · intro j other found
    rcases cases found with ⟨-, rfl⟩ | old
    · exact replaces.known
    · exact tidy.known j other old
  · intro j other found
    rcases cases found with ⟨-, rfl⟩ | old
    · exact replaces.begun
    · exact tidy.begun j other old
  · intro j k other another first second
    rw [(active first).1, (active second).1]
  · intro thread j k refers
    obtain ⟨rfl, on, results, place, own⟩ := replaces.owned thread j k refers
    exact ⟨results, ⟨tracer, ⟨by simp, on⟩, place⟩, own⟩
  · rintro thread alive j k results ⟨other, on, place⟩ own
    obtain ⟨rfl, rfl⟩ := active on
    exact replaces.traced on.2 thread alive k results place own
  · intro j other results found
    rcases cases found with ⟨-, rfl⟩ | old
    · exact replaces.recorded results
    · exact tidy.recorded j other results old

variable {i : Nat}

theorem Tidy.drop
    (inactive : ∀ tracer, ¬ state.Active i tracer) : Tidy (state.setTracer i none) := by
  have held : ∀ {j other}, (state.setTracer i none).tracers j = some other →
      state.tracers j = some other := by
    intro j other found
    rw [setTracer_tracers] at found
    split at found
    · simp at found
    · exact found
  have kept : ∀ {j other}, state.Active j other → (state.setTracer i none).Active j other := by
    rintro j other ⟨found, on⟩
    have different : j ≠ i := by
      rintro rfl
      exact inactive other ⟨found, on⟩
    exact ⟨by rw [setTracer_tracers, if_neg different]; exact found, on⟩
  constructor
  · exact tidy.nodup
  · exact tidy.below
  · exact tidy.gone
  · intro j later
    have none' := tidy.fresh j later
    simp [none']
  · exact fun j other found => tidy.locked j other (held found)
  · exact fun j other found => tidy.distinct j other (held found)
  · exact fun j other found => tidy.known j other (held found)
  · exact fun j other found => tidy.begun j other (held found)
  · exact fun j k other another first second =>
      tidy.exclusive j k other another ⟨held first.1, first.2⟩ ⟨held second.1, second.2⟩
  · intro thread j k refers
    obtain ⟨results, ⟨tracer, on, place⟩, own⟩ := tidy.owned thread j k refers
    exact ⟨results, ⟨tracer, kept on, place⟩, own⟩
  · rintro thread alive j k results ⟨tracer, on, place⟩ own
    exact tidy.traced thread alive j k results ⟨tracer, ⟨held on.1, on.2⟩, place⟩ own
  · exact fun j other results found => tidy.recorded j other results (held found)

theorem Tidy.register {frames : Nat → Nat}
    (taken : register state i frames = some after) : after.Tidy := by
  unfold Profiler.register at taken
  split at taken
  · simp at taken
  rename_i tracer held
  split at taken
  · simp at taken
  rename_i begins
  obtain ⟨empty, on⟩ := tidy.begun i tracer held (by simpa using begins)
  obtain ⟨results, active, lock, profile⟩ :=
    registerThread_foldl i frames state.threads tidy.nodup state.profile tracer
  rw [empty, List.nil_append] at results
  cases taken
  refine tidy.replace _ _ _ ?_
  have threads : (state.threads.map (firstResults frames)).map (·.threadState) = state.threads := by
    simp [firstResults, Function.comp_def]
  have member : ∀ {results : ThreadLocalResults}, results ∈ state.threads.map (firstResults frames) →
      ∃ thread ∈ state.threads, results = firstResults frames thread := by
    intro results member
    obtain ⟨thread, alive, rfl⟩ := List.mem_map.mp member
    exact ⟨thread, alive, rfl⟩
  constructor
  · exact fun j other also => tidy.exclusive j i other tracer also ⟨held, on⟩
  · simp [held]
  · simp only [active, lock]
    exact tidy.locked i tracer held
  · simp only [results, threads]
    exact tidy.nodup
  · simp only [results]
    intro own found
    obtain ⟨thread, alive, rfl⟩ := member found
    exact tidy.below thread alive
  · simp
  · simp only [results]
    intro own found entry listed
    obtain ⟨thread, alive, rfl⟩ := member found
    simp only [firstResults] at listed ⊢
    exact congrArg Prod.fst (List.eq_of_mem_replicate listed)
  · intro thread absent
    rw [profile thread, if_neg absent]
    exact tidy.gone thread absent
  · intro thread j k refers
    simp only [results, active]
    rw [profile thread, empty, List.length_nil, Nat.zero_add] at refers
    split at refers
    · rename_i alive
      simp only [some.injEq, Prod.mk.injEq] at refers
      obtain ⟨rfl, rfl⟩ := refers
      exact ⟨rfl, on, firstResults frames thread, by simp [List.getElem?_idxOf alive], rfl⟩
    · rename_i absent
      simp [tidy.gone thread absent] at refers
  · simp only [results]
    intro _ thread alive k own place same
    rw [profile thread, if_pos alive, empty, List.length_nil, Nat.zero_add]
    obtain ⟨other, there, rfl⟩ := by simpa using place
    obtain rfl : other = thread := same
    have bound := (List.getElem?_eq_some_iff.mp there).1
    have index : state.threads.idxOf other = k := by
      rw [(List.getElem?_eq_some_iff.mp there).2.symm]
      exact tidy.nodup.idxOf_getElem k bound
    rw [index]

theorem Tidy.stopTracer {tracer : PythonTracer}
    (held : state.tracers i = some tracer) (done : tracer.constructed = true) :
    Tidy (stopTracer state i tracer) ∧ ∀ other, ¬ (stopTracer state i tracer).Active i other := by
  unfold Profiler.stopTracer
  split
  · rename_i on
    have lock : compareExchangeStrong tracer.activeLock tracer.active false = (true, false, true) := by
      simp [compareExchangeStrong, tidy.locked i tracer held, on]
    simp only [lock]
    have silent : ∀ thread, state.threads.foldl stopThread state.profile thread = none := by
      intro thread
      rw [stopThread_foldl]
      split
      · rfl
      · rename_i absent
        exact tidy.gone thread absent
    refine ⟨tidy.replace _ _ _ ?_, ?_⟩
    · constructor
      · exact fun j other also => tidy.exclusive j i other tracer also ⟨held, on⟩
      · simp [held]
      · rfl
      · exact tidy.distinct i tracer held
      · exact tidy.known i tracer held
      · simp [done]
      · exact fun results => tidy.recorded i tracer results held
      · exact fun thread _ => silent thread
      · intro thread j k refers
        simp [silent thread] at refers
      · simp
    · rintro other ⟨found, stays⟩
      rw [setTracer_tracers, if_pos rfl] at found
      simp [← some.inj found] at stays
  · rename_i off
    refine ⟨tidy, ?_⟩
    rintro other ⟨found, on⟩
    rw [held] at found
    exact off (some.inj found ▸ on)

theorem Tidy.stop (taken : stop state i = some after) :
    after.Tidy := by
  unfold Profiler.stop at taken
  split at taken
  · simp at taken
  rename_i tracer held
  split at taken
  · rename_i done
    cases taken
    exact (tidy.stopTracer held done).1
  · simp at taken

theorem Tidy.destroy (taken : destroy state i = some after) :
    after.Tidy := by
  unfold Profiler.destroy at taken
  split at taken
  · simp at taken
  rename_i tracer held
  split at taken
  · rename_i done
    cases taken
    obtain ⟨stopped, inactive⟩ := tidy.stopTracer held done
    exact stopped.drop inactive
  · simp at taken

theorem Tidy.restart (allowed : state.Allowed (.restart i))
    (taken : restart state i = some after) : after.Tidy := by
  obtain ⟨alone, first⟩ := allowed
  unfold Profiler.restart at taken
  split at taken
  · simp at taken
  rename_i tracer held
  split at taken
  swap
  · simp at taken
  rename_i done
  have lock : compareExchangeStrong tracer.activeLock tracer.active true =
      (true, true, tracer.active) := by
    simp [compareExchangeStrong, tidy.locked i tracer held]
  simp only [restartTracer, lock, Bool.not_true, Bool.false_eq_true, ↓reduceIte] at taken
  split at taken
  · simp at taken
  cases taken
  have head : ∀ thread ∈ state.threads, state.profile thread = none →
      ∃ results, tracer.threadLocalResults[0]? = some results ∧ results.threadState = thread := by
    intro thread alive empty
    simpa [head?_eq_getElem?] using first tracer held thread alive empty
  have old : ∀ thread j k, state.profile thread = some (j, k) → j = i ∧
      ∃ results, tracer.threadLocalResults[k]? = some results ∧ results.threadState = thread := by
    intro thread j k refers
    obtain ⟨results, ⟨other, on, place⟩, own⟩ := tidy.owned thread j k refers
    obtain rfl := alone j other on
    obtain rfl : tracer = other := mem_unique held on.1
    exact ⟨rfl, results, place, own⟩
  refine tidy.replace i { tracer with activeLock := true, active := true }
    (state.threads.foldl (restartThread i) state.profile) ?_
  constructor
  · exact alone
  · simp [held]
  · rfl
  · exact tidy.distinct i tracer held
  · exact tidy.known i tracer held
  · simp [done]
  · exact fun results => tidy.recorded i tracer results held
  · intro thread absent
    rw [restartThread_foldl, if_neg (fun both => absent both.1)]
    exact tidy.gone thread absent
  · intro thread j k refers
    rw [restartThread_foldl] at refers
    split at refers
    · rename_i both
      simp only [some.injEq, Prod.mk.injEq] at refers
      obtain ⟨rfl, rfl⟩ := refers
      exact ⟨rfl, rfl, head thread both.1 both.2⟩
    · obtain ⟨same, results⟩ := old thread j k refers
      exact ⟨same, rfl, results⟩
  · intro _ thread alive k results place own
    rw [restartThread_foldl]
    cases refers : state.profile thread with
    | none =>
      obtain ⟨front, zero, also⟩ := head thread alive refers
      rw [if_pos ⟨alive, rfl⟩, distinct_place (tidy.distinct i tracer held) place zero
        (own.trans also.symm)]
    | some entry =>
      obtain ⟨same, there, at', also⟩ := old thread entry.1 entry.2 refers
      rw [if_neg (by simp), distinct_place (tidy.distinct i tracer held) place at'
        (own.trans also.symm), ← same]

end

theorem record_modified {held : List ThreadLocalResults} {k n : Nat}
    (place : (held.modify k (·.record thread what))[n]? = some results) :
    ∃ old, held[n]? = some old ∧ results.threadState = old.threadState ∧
      (results = old ∨ k = n ∧ results = old.record thread what) := by
  rw [getElem?_modify] at place
  obtain ⟨old, there, changed⟩ := map_eq_some_iff.mp place
  refine ⟨old, there, ?_⟩
  by_cases same : k = n
  · rw [if_pos same] at changed
    rw [← changed]
    exact ⟨rfl, .inr ⟨same, rfl⟩⟩
  · rw [if_neg same] at changed
    rw [← changed]
    exact ⟨rfl, .inl rfl⟩

theorem Tidy.event (tidy : state.Tidy)
    (taken : pyProfileFn state thread what = some after) : after.Tidy := by
  unfold pyProfileFn at taken
  split at taken
  · cases taken
    exact tidy
  rename_i i k refers
  split at taken
  · simp at taken
  rename_i tracer held
  split at taken
  swap
  · simp at taken
  cases taken
  obtain ⟨results, ⟨other, on, place⟩, own⟩ := tidy.owned thread i k refers
  obtain rfl : tracer = other := Option.mem_unique held on.1
  have states : (tracer.threadLocalResults.modify k (·.record thread what)).map (·.threadState) =
      tracer.threadLocalResults.map (·.threadState) := by
    apply ext_getElem?
    intro n
    simp only [getElem?_map, getElem?_modify, Option.map_eq_map, Option.map_map]
    congr 1
    funext results
    simp only [Function.comp_apply]
    split <;> rfl
  have members : ∀ {results}, results ∈ tracer.threadLocalResults.modify k (·.record thread what) →
      ∃ old ∈ tracer.threadLocalResults, results.threadState = old.threadState ∧
        (results = old ∨ old.threadState = thread ∧ results = old.record thread what) := by
    intro changed member
    obtain ⟨n, there⟩ := getElem?_of_mem member
    obtain ⟨old, found, same, cases⟩ := record_modified there
    refine ⟨old, mem_of_getElem? found, same, cases.imp id ?_⟩
    rintro ⟨rfl, more⟩
    obtain rfl : results = old := Option.mem_unique place found
    exact ⟨own, more⟩
  refine tidy.replace i _ state.profile ?_
  constructor
  · exact fun j other also => tidy.exclusive j i other tracer also on
  · simp [held]
  · exact tidy.locked i tracer held
  · simp only [states]
    exact tidy.distinct i tracer held
  · intro changed member
    obtain ⟨old, was, same, -⟩ := members member
    rw [same]
    exact tidy.known i tracer held old was
  · intro begins
    have empty := (tidy.begun i tracer held begins).1
    simp [empty] at place
  · intro changed member entry listed
    obtain ⟨old, was, -, rfl | ⟨mine, rfl⟩⟩ := members member
    · exact tidy.recorded i tracer changed held was entry listed
    · rcases mem_append.mp listed with before | last
      · exact tidy.recorded i tracer old held was entry before
      · rw [mem_singleton.mp last]
        exact mine.symm
  · exact tidy.gone
  · intro other j n also
    obtain ⟨found, ⟨another, onToo, there⟩, mine⟩ := tidy.owned other j n also
    obtain rfl := tidy.exclusive j i another tracer onToo on
    obtain rfl : tracer = another := Option.mem_unique held onToo.1
    refine ⟨rfl, on.2, if k = n then found.record thread what else found, ?_, ?_⟩
    · simp [getElem?_modify, there]
    · split
      · exact mine
      · exact mine
  · intro _ other alive n changed there mine
    obtain ⟨old, found, same, -⟩ := record_modified there
    exact tidy.traced other alive i n old ⟨tracer, on, found⟩ (same.symm.trans mine)

theorem Tidy.step (tidy : state.Tidy) {action : Action} (allowed : state.Allowed action)
    (taken : advance state action = some after) : after.Tidy := by
  cases action with
  | birth =>
    cases taken
    exact tidy.birth
  | death thread =>
    cases taken
    exact tidy.death thread
  | construct =>
    cases taken
    exact tidy.construct allowed
  | register i frames => exact tidy.register taken
  | stop i => exact tidy.stop taken
  | restart i => exact tidy.restart allowed taken
  | destroy i => exact tidy.destroy taken
  | event thread what =>
    simp only [advance] at taken
    split at taken
    · exact tidy.event taken
    · simp at taken

theorem reachable_tidy {state : Interpreter}
    (reached : system.Reachable Interpreter.Allowed state) : state.Tidy :=
  reached.invariant (fun first (starts : first.Starts) => starts.tidy)
    fun _ _ _ tidy allowed taken => tidy.step allowed taken

theorem owned_throughout {state : Interpreter}
    (reached : system.Reachable Interpreter.Allowed state) : state.Owned :=
  (reachable_tidy reached).isOwned

end Interpreter

section Sample

def oneThread : Interpreter where
  threads := [0]
  born := 1
  profile _ := none
  tracers _ := none
  made := 0

theorem oneThread_starts : oneThread.Starts where
  nodup := by decide
  below := by decide
  profile _ := rfl
  tracers _ := rfl

def runFrom (state : Interpreter) (actions : List Action) : Interpreter :=
  (actions.foldlM advance state).getD state

theorem reachable_step {state after : Interpreter} (action : Action)
    (reached : system.Reachable Interpreter.Allowed state) (allowed : state.Allowed action)
    (taken : advance state action = some after) : system.Reachable Interpreter.Allowed after :=
  .step reached allowed taken

/-- A tracer that is stopped and goes on after a thread was there for a while. -/
theorem owned_throughout_restart : Interpreter.Owned (runFrom oneThread [.construct,
    .register 0 fun _ => 2, .event 0 .call, .stop 0, .birth, .death 1, .restart 0,
    .event 0 .ret]) := by
  apply Interpreter.owned_throughout
  have made : system.Reachable Interpreter.Allowed (runFrom oneThread [.construct]) := by
    refine reachable_step .construct (.initial oneThread_starts) ?_ rfl
    rintro i tracer ⟨held, -⟩
    simp [oneThread] at held
  have registered := reachable_step (.register 0 fun _ => 2) made trivial rfl
  have called := reachable_step (.event 0 .call) registered trivial rfl
  have stopped := reachable_step (.stop 0) called trivial rfl
  have born := reachable_step .birth stopped trivial rfl
  have died := reachable_step (.death 1) born trivial rfl
  refine reachable_step (.event 0 .ret) (reachable_step (.restart 0) died ?_ rfl) trivial rfl
  constructor
  · rintro j tracer ⟨held, -⟩
    by_contra other
    have none' := (Interpreter.reachable_tidy died).fresh j (one_le_iff_ne_zero.mpr other)
    cases none'.symm.trans held
  · intro tracer held thread alive _
    cases held
    obtain rfl : thread = 0 := mem_singleton.mp alive
    rfl

/-- Two tracers are active at once: the second has a lock of its own. -/
theorem second_tracer_registers : ¬ ∀ state,
    system.Reachable (fun _ _ => True) state → state.Owned := by
  intro always
  have first : system.Reachable (fun _ _ => True) (runFrom oneThread [.construct]) :=
    .step (.initial oneThread_starts) trivial (rfl : advance _ .construct = some _)
  have registered : system.Reachable (fun _ _ => True)
      (runFrom oneThread [.construct, .register 0 fun _ => 2]) :=
    .step first trivial (rfl : advance _ (.register 0 fun _ => 2) = some _)
  have both : system.Reachable (fun _ _ => True)
      (runFrom oneThread [.construct, .register 0 fun _ => 2, .construct]) :=
    .step registered trivial (rfl : advance _ .construct = some _)
  have same := (always _ both).exclusive 0 1 _ _ ⟨rfl, rfl⟩ ⟨rfl, rfl⟩
  simp at same

end Sample

end TorchSupa.Profiler
