import TorchSupa.Distributed.Calls
import TorchSupa.Recorder.LastEntries

/-!
The ring of the process groups has of each entry what the works read. In every run it is what they
see of a whole recorder, in which a work has two events with numbers of their own.
-/

namespace TorchSupa.Distributed

open Option

namespace FlightRecorder

/-- An entry without what the process groups leave out. -/
def bare (entry : Recorder.Entry) : Recorder.Entry :=
  { entry with
    pgName := ("", "")
    profilingName := ""
    traceback := 0
    timeCreated := 0
    timeoutMs := 0
    duration := none
    inputDims := []
    inputDtypes := []
    outputDims := []
    outputDtypes := []
    sizes := [] }

def Entry.whole (entry : Entry) : Recorder.Entry where
  id := entry.id
  pgId := entry.pgId
  pgName := ("", "")
  collectiveSeqId := entry.collectiveSeqId
  p2pSeqId := entry.p2pSeqId
  opId := entry.opId
  profilingName := ""
  traceback := 0
  startEvent := entry.startEvent.map (2 * ·)
  endEvent := entry.endEvent.map (2 * · + 1)
  timeCreated := 0
  timeoutMs := 0
  isP2P := entry.isP2P
  timeDiscoveredStarted := entry.timeDiscoveredStarted.map Int.ofNat
  timeDiscoveredCompleted := entry.timeDiscoveredCompleted.map Int.ofNat
  retired := entry.retired

def queriesOf (queries : Queries) : Recorder.Queries where
  query event := if event % 2 = 0 then queries.started (event / 2) else queries.completed (event / 2)
  now := queries.now

structure Shows (whole : Recorder.FlightRecorder) (part : FlightRecorder) : Prop where
  enabled : whole.enabled = part.enabled
  entries : whole.entries.map bare = part.entries.map Entry.whole
  next : whole.next = part.next
  id : whole.id = part.id
  maxEntries : whole.maxEntries = part.maxEntries

section Simulation

variable {whole : Recorder.FlightRecorder} {part : FlightRecorder}

theorem Shows.getElem? (shows : Shows whole part) (place : Nat) :
    (whole.entries[place]?).map bare = (part.entries[place]?).map Entry.whole := by
  rw [← List.getElem?_map, shows.entries, List.getElem?_map]

variable {entry : Recorder.Entry} {seen : Entry}

theorem Shows.set (shows : Shows whole part) (place : Nat) (same : bare entry = seen.whole) :
    (whole.entries.set place entry).map bare = (part.entries.set place seen).map Entry.whole := by
  rw [List.map_set, List.map_set, shows.entries, same]

theorem Shows.record (shows : Shows whole part) (given : Recorder.Arguments)
    {startEvent endEvent : Option Nat} (begins : given.startEvent = startEvent.map (2 * ·))
    (ends : given.endEvent = endEvent.map (2 * · + 1)) :
    Shows (whole.record given).1 (part.record given.pgId given.collectiveSeqId given.p2pSeqId
      given.opId startEvent endEvent given.isP2P).1 := by
  have length : whole.entries.length = part.entries.length := by
    simpa using congrArg List.length shows.entries
  have entry : bare (whole.newEntry given) = Entry.whole ⟨part.id, given.pgId,
      given.collectiveSeqId, given.p2pSeqId, given.opId, given.isP2P, startEvent, endEvent, none,
      none, false⟩ := by
    simp [bare, Recorder.FlightRecorder.newEntry, Entry.whole, begins, ends, shows.id]
  unfold Recorder.FlightRecorder.record FlightRecorder.record
  rw [shows.enabled]
  split
  · dsimp only
    rw [length, shows.maxEntries]
    split
    · exact ⟨rfl, by simp [shows.entries, entry], shows.next, by simp [shows.id], rfl⟩
    · rw [shows.next]
      exact ⟨rfl, shows.set _ entry, rfl, by simp [shows.id], rfl⟩
  · exact shows

theorem updateState_whole (queries : Queries) (same : bare entry = seen.whole) :
    bare (Recorder.updateState (queriesOf queries) entry) = (updateState queries seen).whole := by
  change Recorder.updateState (queriesOf queries) (bare entry) = _
  have odd : ∀ event : Nat, (2 * event + 1) / 2 = event := by omega
  rw [same]
  simp only [Recorder.updateState, updateState, Entry.whole, queriesOf, any_map,
    Nat.mul_mod_right, Nat.mul_add_mod, odd, isNone_map]
  simp [apply_ite (Option.map Int.ofNat)]

theorem Shows.retireId (shows : Shows whole part) (queries : Queries) (id : Option Nat)
    (computeDuration : Bool) :
    Option.Rel (fun after later => Shows after.1 later)
      (whole.retireId (queriesOf queries) id computeDuration) (part.retireId queries id) := by
  cases id with
  | none => exact .some shows
  | some id =>
    simp only [Recorder.FlightRecorder.retireId, FlightRecorder.retireId, shows.enabled,
      shows.maxEntries]
    split
    · have here := shows.getElem? (id % part.maxEntries)
      cases found : whole.entries[id % part.maxEntries]? with
      | none =>
        rw [found] at here
        rw [map_eq_none_iff.mp here.symm]
        exact .none
      | some entry =>
        rw [found] at here
        obtain ⟨seen, there, same⟩ := map_eq_some_iff.mp here.symm
        have ids : entry.id = seen.id := congrArg Recorder.Entry.id same.symm
        rw [there, map_some, map_some, ids]
        split
        · have retired := congrArg (fun entry : Recorder.Entry => { entry with
            retired := true
            startEvent := none
            endEvent := none }) (updateState_whole queries same.symm)
          exact .some ⟨rfl, shows.set _ retired, shows.next, shows.id, rfl⟩
        · exact .some shows
    · exact .some shows

end Simulation

end FlightRecorder

open FlightRecorder

/-- The calls of the recorder that the steps of the process groups make. -/
inductive Records (recorder : FlightRecorder) : FlightRecorder → Prop
  | none : Records recorder recorder
  | record (pgId collectiveSeqId p2pSeqId opId : Nat) (startEvent endEvent : Option Nat)
      (isP2P : Bool) : Records recorder
        (recorder.record pgId collectiveSeqId p2pSeqId opId startEvent endEvent isP2P).1
  | retireId (queries : Queries) (id : Option Nat) {after : FlightRecorder}
      (retires : recorder.retireId queries id = some after) : Records recorder after

theorem Stepped.records {world after : World} {action : Action}
    (stepped : Stepped world action after) : Records world.recorder after.recorder := by
  have kept : ∀ {final : World}, final.recorder = world.recorder →
      Records world.recorder final.recorder := fun same => same ▸ .none
  cases stepped with
  | made _ made =>
    rcases made.recorded with ⟨same, _⟩ | ⟨_, _, _, _, _, _, _, same, _, _⟩
    · exact kept same
    · rw [show World.recorder (World.setCall _ _ _) = _ from same]
      exact .record ..
  | notMade _ same => exact kept same.recorder
  | ran _ _ ran =>
    cases ran with
    | closed same => exact kept same.recorder
    | notClosed same => exact kept same.recorder
    | _ => exact .none
  | started same => exact kept same.recorder
  | entered same => exact kept same.recorder
  | exited same => exact kept same.recorder
  | watched watched =>
    cases watched with
    | retires _ _ retires => exact .retireId _ _ retires
    | _ => exact .none
  | _ => exact .none

/-- Whatever the process groups do, their ring is what they see of a whole recorder in a run of its
own. -/
theorem shown_of_reachable {allowed : World → Action → Prop} {world : World}
    (reached : process.Reachable allowed world) : ∃ maxEntries whole,
      Recorder.Reachable maxEntries whole ∧ Shows whole.recorder world.recorder := by
  induction reached with
  | initial begins =>
    obtain ⟨maxEntries, _, same⟩ := begins.rest
    rw [same]
    exact ⟨maxEntries, _, .start, ⟨rfl, rfl, rfl, rfl, rfl⟩⟩
  | @step before after _ _ _ taken shown =>
    obtain ⟨maxEntries, whole, run, shows⟩ := shown
    have records := (stepped_of_step taken).records
    generalize after.recorder = later at records
    cases records with
    | none => exact ⟨maxEntries, whole, run, shows⟩
    | record pgId collectiveSeqId p2pSeqId opId startEvent endEvent isP2P =>
      exact ⟨maxEntries, _, .step run (.record { (default : Recorder.Arguments) with
        pgId, collectiveSeqId, p2pSeqId, opId, isP2P
        startEvent := startEvent.map (2 * ·)
        endEvent := endEvent.map (2 * · + 1) }), shows.record _ rfl rfl⟩
    | retireId queries id retires =>
      have rel := shows.retireId queries id false
      rw [retires] at rel
      cases made : whole.recorder.retireId (queriesOf queries) id false with
      | none => rw [made] at rel; cases rel
      | some pair =>
        rw [made] at rel
        cases rel with
        | some shows => exact ⟨maxEntries, _, .step run (.retireId _ _ _ made), shows⟩

end TorchSupa.Distributed
