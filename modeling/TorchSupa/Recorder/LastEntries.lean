import TorchSupa.Recorder.Entries

/-!
Whatever calls are made, and whatever runs while a retirement is without the lock: the recorder has
the last entries, and only the retirement of an entry changes it.
-/

namespace TorchSupa.Recorder

open List

def Entry.made (entry : Entry) : Entry :=
  { entry with
    startEvent := none
    endEvent := none
    duration := none
    timeDiscoveredStarted := none
    timeDiscoveredCompleted := none
    retired := false }

@[simp] theorem Entry.made_id (entry : Entry) : entry.made.id = entry.id := rfl

structure Call where
  entry : Entry
  returned : Option Nat

/-- The recorder, the retirements without the lock and, for the statements only, the calls of
`record` so far. -/
structure World where
  recorder : FlightRecorder
  windows : List Window := []
  calls : List Call := []

def World.record (world : World) (given : Arguments) : World :=
  { world with
    recorder := (world.recorder.record given).1
    calls := world.calls ++
      [⟨world.recorder.newEntry given, (world.recorder.record given).2⟩] }

inductive Step : World → World → Prop
  | record {world : World} (given : Arguments) : Step world (world.record given)
  | recordPgRanks {world : World} (pgName : String × String) (ranks : List Nat) :
      Step world { world with recorder := world.recorder.recordPgRanks pgName ranks }
  /-- `getEntry`, `dump_entries`, and what throws with the lock -/
  | reads {world : World} : Step world world
  | retireId {world : World} (queries : Queries) (id : Option Nat) (computeDuration : Bool)
      {recorder : FlightRecorder} {window : Option Window}
      (retires : world.recorder.retireId queries id computeDuration = some (recorder, window)) :
      Step world { world with recorder, windows := window.toList ++ world.windows }
  | resumeRetireId {world : World} {window : Window} (duration : Rat) {recorder : FlightRecorder}
      (pending : window ∈ world.windows)
      (resumes : world.recorder.resumeRetireId window duration = some recorder) :
      Step world { world with recorder, windows := world.windows.erase window }
  /-- `getDurationFromEvent` throws. -/
  | abandon {world : World} {window : Window} (pending : window ∈ world.windows) :
      Step world { world with windows := world.windows.erase window }

inductive Reachable (maxEntries : Nat) : World → Prop
  | start : Reachable maxEntries { recorder := .new maxEntries }
  | step {world next : World} (reached : Reachable maxEntries world) (step : Step world next) :
      Reachable maxEntries next

def FlightRecorder.ring (recorder : FlightRecorder) : RingBuffer Entry :=
  ⟨recorder.entries, recorder.next, recorder.id, recorder.maxEntries⟩

open FlightRecorder

variable {recorder : FlightRecorder}

theorem record_ring (given : Arguments) (enabled : recorder.enabled = true) :
    (recorder.record given).1.ring = recorder.ring.push (recorder.newEntry given) := by
  unfold record ring RingBuffer.push
  rw [if_pos enabled]
  by_cases room : recorder.entries.length < recorder.maxEntries
  · rw [if_pos room, if_pos room]
  · rw [if_neg room, if_neg room]

@[simp] theorem record_enabled (recorder : FlightRecorder) (given : Arguments) :
    (recorder.record given).1.enabled = recorder.enabled := by
  unfold record
  split
  · dsimp only
    split <;> rfl
  · rfl

@[simp] theorem record_maxEntries (recorder : FlightRecorder) (given : Arguments) :
    (recorder.record given).1.maxEntries = recorder.maxEntries := by
  unfold record
  split
  · dsimp only
    split <;> rfl
  · rfl

theorem record_returns (given : Arguments)
    (enabled : recorder.enabled = true) : (recorder.record given).2 = some recorder.id := by
  simp only [record, enabled, if_true]
  split <;> rfl

@[simp] theorem recordPgRanks_ring (recorder : FlightRecorder) (pgName : String × String)
    (ranks : List Nat) : (recorder.recordPgRanks pgName ranks).ring = recorder.ring := by
  unfold recordPgRanks
  split <;> rfl

@[simp] theorem recordPgRanks_enabled (recorder : FlightRecorder) (pgName : String × String)
    (ranks : List Nat) : (recorder.recordPgRanks pgName ranks).enabled = recorder.enabled := by
  unfold recordPgRanks
  split <;> rfl

structure Numbered (recorder : FlightRecorder) (history : List Entry) : Prop where
  enabled : recorder.enabled = true
  keeps : recorder.ring.Keeps history
  numbered : RingBuffer.Numbered Entry.id history

section Numbered

variable {history : List Entry}

variable (numbered : Numbered recorder history)
include numbered

theorem Numbered.id_eq : recorder.id = history.length := numbered.keeps.counted

theorem Numbered.found {place : Nat} {entry : Entry}
    (here : recorder.entries[place]? = some entry) :
    entry.id < history.length ∧ history.length ≤ entry.id + recorder.maxEntries ∧
      entry.id % recorder.maxEntries = place ∧ history[entry.id]? = some entry :=
  numbered.keeps.found_numbered numbered.numbered here

theorem Numbered.record (given : Arguments) :
    Numbered (recorder.record given).1 (history ++ [recorder.newEntry given]) := by
  refine ⟨by simpa using numbered.enabled, ?_, numbered.numbered.push numbered.id_eq⟩
  rw [record_ring given numbered.enabled]
  exact numbered.keeps.push _

theorem Numbered.set {entry : Entry}
    (here : recorder.entries[entry.id % recorder.maxEntries]? = some entry)
    (change : Entry → Entry) (same : (change entry).id = entry.id) :
    Numbered { recorder with
        entries := recorder.entries.set (entry.id % recorder.maxEntries) (change entry) }
      (history.modify entry.id change) :=
  ⟨numbered.enabled, numbered.keeps.set numbered.numbered here change,
    numbered.numbered.modify (numbered.found here).2.2.2 same⟩

end Numbered

section Retire

variable {after : FlightRecorder} {history : List Entry}

inductive Changes (id : Nat) (recorder after : FlightRecorder) : Prop
  | nothing (same : after = recorder)
  | entry (old : Entry) (change : Entry → Entry) (own : old.id = id)
      (here : recorder.entries[old.id % recorder.maxEntries]? = some old)
      (made : ∀ entry, (change entry).made = entry.made)
      (same : after = { recorder with
        entries := recorder.entries.set (old.id % recorder.maxEntries) (change old) })

variable {id : Nat}

theorem retireId_changes {queries : Queries} {computeDuration : Bool} {window : Option Window}
    (retires : recorder.retireId queries (some id) computeDuration = some (after, window)) :
    Changes id recorder after := by
  simp only [retireId] at retires
  split at retires
  · obtain ⟨entry, here, same⟩ := Option.map_eq_some_iff.mp retires
    split at same
    · next own =>
        subst own
        cases same
        exact .entry entry (retire queries) rfl here (fun _ => rfl) rfl
    · cases same
      exact .nothing rfl
  · cases retires
    exact .nothing rfl

theorem resumeRetireId_changes {window : Window} {duration : Rat}
    (resumes : recorder.resumeRetireId window duration = some after) :
    Changes window.id recorder after := by
  obtain ⟨entry, here, same⟩ := Option.map_eq_some_iff.mp resumes
  split at same
  · exact .nothing same.symm
  · next own =>
      rw [ne_eq, not_not] at own
      rw [← own] at here same
      exact .entry entry (fun entry => { entry with duration := some duration }) own here
        (fun _ => rfl) same.symm

theorem made_id {change : Entry → Entry} (made : ∀ entry, (change entry).made = entry.made)
    (entry : Entry) : (change entry).id = entry.id := by
  have same := congrArg Entry.id (made entry)
  simpa using same

theorem Changes.others (changes : Changes id recorder after) {entry : Entry}
    (other : entry.id ≠ id) (place : Nat) :
    after.entries[place]? = some entry ↔ recorder.entries[place]? = some entry := by
  cases changes with
  | nothing same => rw [same]
  | entry old change own here made same =>
    subst same
    rw [List.getElem?_set]
    by_cases at_ : old.id % recorder.maxEntries = place
    · subst at_
      obtain ⟨inside, _⟩ := List.getElem?_eq_some_iff.mp here
      have changed := made_id made old
      simp only [if_true, inside, here, Option.some.injEq]
      constructor
      · rintro rfl
        exact absurd (changed.trans own) other
      · rintro rfl
        exact absurd own other
    · rw [if_neg at_]

theorem Changes.numbered (changes : Changes id recorder after)
    (numbered : Numbered recorder history) :
    ∃ later, Numbered after later ∧ later.map Entry.made = history.map Entry.made := by
  cases changes with
  | nothing same => exact ⟨history, same ▸ numbered, rfl⟩
  | entry old change own here made same =>
    refine ⟨history.modify old.id change, same ▸ numbered.set here change (made_id made old), ?_⟩
    apply ext_getElem?
    intro index
    rw [getElem?_map, getElem?_map, getElem?_modify]
    cases history[index]? with
    | none => rfl
    | some entry =>
      by_cases at_ : old.id = index
      · simp [at_, made]
      · simp [at_]

end Retire

/-- What every run keeps: the recorder has the last of the entries, which are made as the calls of
`record` made them, and each call returned the number of its entry. -/
structure Sound (maxEntries : Nat) (world : World) : Prop where
  size : world.recorder.maxEntries = maxEntries
  history : ∃ history, Numbered world.recorder history ∧
    history.map Entry.made = world.calls.map fun call => call.entry.made
  returned : ∀ (number : Nat) (call : Call), world.calls[number]? = some call →
    call.returned = some number

section Runs

variable {maxEntries : Nat} {world : World}

theorem Changes.size {id : Nat} {recorder after : FlightRecorder}
    (changes : Changes id recorder after) : after.maxEntries = recorder.maxEntries := by
  cases changes with
  | nothing same => rw [same]
  | entry _ _ _ _ _ same => rw [same]

theorem Sound.changes (sound : Sound maxEntries world) {id : Nat} {after : FlightRecorder}
    (changes : Changes id world.recorder after) (windows : List Window) :
    Sound maxEntries { world with recorder := after, windows } := by
  obtain ⟨size, ⟨history, numbered, made⟩, returned⟩ := sound
  obtain ⟨later, also, unchanged⟩ := changes.numbered numbered
  exact ⟨changes.size.trans size, ⟨later, also, unchanged.trans made⟩, returned⟩

theorem Sound.step {next : World} (sound : Sound maxEntries world) (step : Step world next) :
    Sound maxEntries next := by
  cases step with
  | record given =>
    obtain ⟨size, ⟨history, numbered, made⟩, returned⟩ := sound
    refine ⟨by simpa [World.record] using size,
      ⟨_, numbered.record given, by simp [World.record, made]⟩, ?_⟩
    intro number call found
    simp only [World.record] at found
    rw [getElem?_append] at found
    split at found
    · exact returned number call found
    · rw [getElem?_singleton] at found
      split at found
      · cases found
        have counted : history.length = world.calls.length := by
          simpa using congrArg length made
        have last : number = world.recorder.id := by
          rw [numbered.id_eq]
          omega
        rw [last]
        exact record_returns given numbered.enabled
      · cases found
  | recordPgRanks pgName ranks =>
    obtain ⟨size, ⟨history, numbered, made⟩, returned⟩ := sound
    have same := recordPgRanks_ring world.recorder pgName ranks
    refine ⟨(congrArg RingBuffer.capacity same).trans size, ⟨history, ⟨?_, ?_, numbered.numbered⟩, made⟩,
      returned⟩
    · simpa using numbered.enabled
    · simpa using numbered.keeps
  | reads => exact sound
  | retireId queries id computeDuration retires =>
    cases id with
    | none =>
      cases retires
      exact sound
    | some id => exact sound.changes (retireId_changes retires) _
  | resumeRetireId duration _ resumes => exact sound.changes (resumeRetireId_changes resumes) _
  | abandon _ => exact ⟨sound.size, sound.history, sound.returned⟩

theorem Reachable.sound (positive : 1 ≤ maxEntries) (reached : Reachable maxEntries world) :
    Sound maxEntries world := by
  induction reached with
  | start =>
    exact ⟨rfl, ⟨[], ⟨decide_eq_true positive, RingBuffer.keeps_empty positive,
      RingBuffer.numbered_nil⟩, rfl⟩, by simp⟩
  | step _ step ih => exact ih.step step

theorem Sound.place (sound : Sound maxEntries world) {place : Nat} {entry : Entry}
    (here : world.recorder.entries[place]? = some entry) : entry.id % maxEntries = place := by
  obtain ⟨history, numbered, _⟩ := sound.history
  rw [← sound.size]
  exact (numbered.found here).2.2.1

theorem dumpEntries_map {β : Type} (field : Entry → β) (queries : Queries)
    (untouched : ∀ entry, field { updateState queries entry with
      startEvent := none, endEvent := none } = field entry) (recorder : FlightRecorder) :
    (recorder.dumpEntries queries).map field = recorder.ring.inOrder.map field := by
  rw [dumpEntries, map_map]
  exact map_congr_left fun entry _ => untouched entry

theorem Sound.dumped (sound : Sound maxEntries world) (queries : Queries) :
    (world.recorder.dumpEntries queries).map Entry.made =
      (world.calls.drop (world.calls.length - maxEntries)).map fun call => call.entry.made := by
  obtain ⟨size, ⟨history, numbered, made⟩, _⟩ := sound
  have counted : history.length = world.calls.length := by
    simpa using congrArg length made
  have ordered := numbered.keeps.inOrder
  have same := dumpEntries_map Entry.made queries (fun _ => rfl) world.recorder
  rw [same, ordered, map_drop, made, counted, ← map_drop]
  exact congrArg _ (congrArg (drop · _) (congrArg _ size))

theorem Sound.dumped_ids (sound : Sound maxEntries world) (queries : Queries) :
    (world.recorder.dumpEntries queries).map Entry.id =
      (List.range world.calls.length).drop (world.calls.length - maxEntries) := by
  obtain ⟨size, ⟨history, numbered, made⟩, _⟩ := sound
  have counted : history.length = world.calls.length := by
    simpa using congrArg length made
  have ordered := numbered.keeps.inOrder
  have same := dumpEntries_map Entry.id queries (fun _ => rfl) world.recorder
  have ids : history.map Entry.id = range history.length := by
    apply ext_getElem?
    intro index
    rw [getElem?_map]
    by_cases inside : index < history.length
    · have own := numbered.numbered index _ (getElem?_eq_getElem inside)
      simp [inside, own]
    · simp [inside]
  rw [same, ordered, map_drop, ids, counted]
  exact congrArg (drop · _) (congrArg _ size)

theorem Sound.getEntry (sound : Sound maxEntries world) {number : Nat} {call : Call}
    (made : world.calls[number]? = some call) :
    if world.calls.length ≤ number + maxEntries then
      ∃ entry ∈ world.recorder.entries, world.recorder.getEntry (some number) = some (some entry) ∧
        entry.id = number ∧ entry.made = call.entry.made
    else world.recorder.getEntry (some number) = some none := by
  obtain ⟨size, ⟨history, numbered, same⟩, _⟩ := sound
  have counted : history.length = world.calls.length := by
    simpa using congrArg length same
  have below : number < history.length := by
    rw [counted]
    exact (List.getElem?_eq_some_iff.mp made).1
  have positive := numbered.keeps.positive
  have sized := numbered.keeps.size
  simp only [FlightRecorder.ring] at positive sized
  simp only [FlightRecorder.getEntry, numbered.enabled, if_true]
  split
  · next near =>
      have here : world.recorder.entries[number % world.recorder.maxEntries]? =
          history[number]? := numbered.keeps.kept number below
            (by simp only [FlightRecorder.ring]; omega)
      rw [getElem?_eq_getElem below] at here
      have own := numbered.numbered number _ (getElem?_eq_getElem below)
      have agree : (history.map Entry.made)[number]? = some call.entry.made := by
        rw [same, getElem?_map, made]
        rfl
      rw [getElem?_map, getElem?_eq_getElem below, Option.map_some] at agree
      refine ⟨_, mem_of_getElem? here, ?_, own, Option.some.inj agree⟩
      simp [here, own]
  · next far =>
      have inside : number % world.recorder.maxEntries < world.recorder.entries.length := by
        have := Nat.mod_lt number positive
        omega
      rw [getElem?_eq_getElem inside, Option.map_some, if_neg]
      intro own
      have found := numbered.found (getElem?_eq_getElem inside)
      omega

/-- In every run the entry at a place has a number of that place, a dump has the last entries in
the order of their numbers, `getEntry` finds an entry until it has been overwritten, and each half
of a retirement leaves the other entries alone. -/
theorem last_entries (maxEntries : Nat) (positive : 1 ≤ maxEntries) (world : World)
    (reached : Reachable maxEntries world) :
    (∀ (place : Nat) (entry : Entry), world.recorder.entries[place]? = some entry →
      entry.id % maxEntries = place) ∧
    (∀ queries, (world.recorder.dumpEntries queries).map Entry.made =
        (world.calls.drop (world.calls.length - min world.calls.length maxEntries)).map
          (fun call => call.entry.made) ∧
      ((world.recorder.dumpEntries queries).map Entry.id).Pairwise (· < ·)) ∧
    (∀ (number : Nat) (call : Call), world.calls[number]? = some call →
      ∃ id, call.returned = some id ∧ call.entry.id = id ∧
        if world.calls.length - (number + 1) ≤ maxEntries - 1 then
          ∃ entry ∈ world.recorder.entries,
            world.recorder.getEntry (some id) = some (some entry) ∧ entry.id = id ∧
              entry.made = call.entry.made
        else world.recorder.getEntry (some id) = some none) ∧
    (∀ queries id computeDuration recorder window,
      world.recorder.retireId queries id computeDuration = some (recorder, window) →
      ∀ (entry : Entry) (place : Nat), some entry.id ≠ id →
        (recorder.entries[place]? = some entry ↔ world.recorder.entries[place]? = some entry)) ∧
    (∀ window duration recorder, world.recorder.resumeRetireId window duration = some recorder →
      ∀ (entry : Entry) (place : Nat), entry.id ≠ window.id →
        (recorder.entries[place]? = some entry ↔ world.recorder.entries[place]? = some entry)) := by
  have sound := reached.sound positive
  refine ⟨fun place entry here => sound.place here, ?_, ?_, ?_, ?_⟩
  · intro queries
    refine ⟨?_, ?_⟩
    · rw [sound.dumped]
      congr 2
      omega
    · rw [sound.dumped_ids]
      exact (pairwise_lt_range).drop
  · intro number call made
    have below := (List.getElem?_eq_some_iff.mp made).1
    refine ⟨number, sound.returned number call made, ?_, ?_⟩
    · obtain ⟨history, numbered, same⟩ := sound.history
      have agree := congrArg (·[number]?) same
      simp only [getElem?_map, made, Option.map_some] at agree
      obtain ⟨entry, old, equal⟩ := Option.map_eq_some_iff.mp agree
      have own := numbered.numbered number entry old
      have ids := congrArg Entry.id equal
      simp only [Entry.made_id] at ids
      rw [← ids, own]
    · have found := sound.getEntry made
      have same : world.calls.length - (number + 1) ≤ maxEntries - 1 ↔
          world.calls.length ≤ number + maxEntries := by omega
      simpa only [same] using found
  · intro queries id computeDuration recorder window retires entry place other
    cases id with
    | none =>
      cases retires
      exact Iff.rfl
    | some id => exact (retireId_changes retires).others (fun own => other (congrArg _ own)) place
  · intro window duration recorder resumes entry place other
    exact (resumeRetireId_changes resumes).others other place

def allReduce (number : Nat) : Arguments :=
  { (default : Arguments) with
    collectiveSeqId := number
    profilingName := "bccl:all_reduce"
    inputs := [⟨[2, 3], .float⟩]
    startEvent := some (2 * number)
    endEvent := some (2 * number + 1) }

/-- In a ring of two, the third entry overwrites the first while its duration is computed. -/
theorem last_entries_of_two : ∃ world, Reachable 2 world ∧ world.calls.length = 3 ∧
      world.recorder.getEntry (some 0) = some none ∧
      ∃ entry, world.recorder.getEntry (some 2) = some (some entry) ∧ entry.collectiveSeqId = 2 := by
  have filled : Reachable 2 _ := .step (.step .start (.record (allReduce 0))) (.record (allReduce 1))
  have retires := Reachable.step filled (.retireId ⟨fun _ => true, 5⟩ (some 0) true rfl)
  have reached := Reachable.step (.step retires (.record (allReduce 2)))
    (.resumeRetireId (1 / 2) (.head _) rfl)
  obtain ⟨_, _, entries, _⟩ := last_entries 2 (by decide) _ reached
  refine ⟨_, reached, rfl, ?_, ?_⟩
  · obtain ⟨id, returned, _, found⟩ := entries 0 _ rfl
    cases returned
    exact found
  · obtain ⟨id, returned, _, found⟩ := entries 2 _ rfl
    cases returned
    obtain ⟨entry, _, same, _, made⟩ := found
    exact ⟨entry, same, congrArg Entry.collectiveSeqId made⟩

end Runs

end TorchSupa.Recorder
