import TorchSupa.Distributed.World
import TorchSupa.Logic.RingBuffer

/-!
The ring of the flight recorder. An entry keeps the place that its number gives it, so the
work that made it finds it again unless it was overwritten.
-/

namespace TorchSupa.Distributed

open Option

namespace FlightRecorder

def enabled (recorder : FlightRecorder) : Bool := 0 < recorder.maxEntries

def record (recorder : FlightRecorder) (pgId collectiveSeqId p2pSeqId opId : Nat)
    (startEvent endEvent : Option Nat) (isP2P : Bool) : FlightRecorder × Option Nat :=
  if recorder.enabled then
    let te : Entry := {
      id := recorder.id
      pgId, collectiveSeqId, p2pSeqId, opId, isP2P, startEvent, endEvent }
    if recorder.entries.length < recorder.maxEntries then
      ({ recorder with entries := recorder.entries ++ [te], id := recorder.id + 1 },
        some recorder.id)
    else
      ({ recorder with
          entries := recorder.entries.set recorder.next te
          next := if recorder.next + 1 = recorder.maxEntries then 0 else recorder.next + 1
          id := recorder.id + 1 },
        some recorder.id)
  else (recorder, none)

def updateState (queries : Queries) (r : Entry) : Entry :=
  { r with
    timeDiscoveredStarted :=
      if r.startEvent.any queries.started && r.timeDiscoveredStarted.isNone then some queries.now
      else r.timeDiscoveredStarted
    timeDiscoveredCompleted :=
      if r.endEvent.any queries.completed && r.timeDiscoveredCompleted.isNone then
        some queries.now
      else r.timeDiscoveredCompleted }

/-- `none` when `entries_.at` throws. -/
def retireId (queries : Queries) (id : Option Nat) (recorder : FlightRecorder) :
    Option FlightRecorder :=
  match id with
  | none => some recorder
  | some id =>
    if recorder.enabled then
      (recorder.entries[id % recorder.maxEntries]?).map fun entry =>
        if entry.id = id then
          { recorder with
            entries := recorder.entries.set (id % recorder.maxEntries)
              { updateState queries entry with
                retired := true
                startEvent := none
                endEvent := none } }
        else recorder
    else some recorder

def Entry.PointsTo (entry : Entry) (work : Nat) : Prop :=
  entry.startEvent = some work ∨ entry.endEvent = some work

instance (entry : Entry) (work : Nat) : Decidable (entry.PointsTo work) :=
  inferInstanceAs (Decidable (_ ∨ _))

def ring (recorder : FlightRecorder) : RingBuffer Entry :=
  ⟨recorder.entries, recorder.next, recorder.id, recorder.maxEntries⟩

/-- A recorder that is enabled has the last entries, each at the place of its number. -/
structure Ring (recorder : FlightRecorder) : Prop where
  enabled : ∀ entry ∈ recorder.entries, recorder.enabled = true
  keeps : recorder.enabled = true → ∃ history, recorder.ring.Keeps history ∧
    RingBuffer.Numbered Entry.id history

theorem ring_empty (maxEntries : Nat) : Ring { maxEntries := maxEntries } where
  enabled := by simp
  keeps := fun enabled =>
    ⟨[], RingBuffer.keeps_empty (of_decide_eq_true enabled), RingBuffer.numbered_nil⟩

theorem Ring.placed {recorder : FlightRecorder} (ring : Ring recorder) {place : Nat} {entry : Entry}
    (found : recorder.entries[place]? = some entry) : entry.id % recorder.maxEntries = place := by
  obtain ⟨_, keeps, numbered⟩ := ring.keeps (ring.enabled entry (List.mem_of_getElem? found))
  exact (keeps.found_numbered numbered found).2.2.1

section Record

variable {recorder : FlightRecorder} {pgId collectiveSeqId p2pSeqId opId : Nat}
  {startEvent endEvent : Option Nat} {isP2P : Bool}

open List Nat

theorem mem_record {entry : Entry} (member : entry ∈ (recorder.record pgId collectiveSeqId p2pSeqId
      opId startEvent endEvent isP2P).1.entries) :
    entry ∈ recorder.entries ∨ recorder.enabled = true ∧ entry.id = recorder.id ∧
      entry.startEvent = startEvent ∧ entry.endEvent = endEvent := by
  unfold record at member
  split at member
  · next enabled =>
      split at member
      · rcases mem_append.mp member with old | new
        · exact .inl old
        · rw [mem_singleton] at new
          subst new
          exact .inr ⟨enabled, rfl, rfl, rfl⟩
      · rcases mem_or_eq_of_mem_set member with old | new
        · exact .inl old
        · subst new
          exact .inr ⟨enabled, rfl, rfl, rfl⟩
  · exact .inl member

theorem record_traceId (enabled : recorder.enabled = true) :
    (recorder.record pgId collectiveSeqId p2pSeqId opId startEvent endEvent isP2P).2 =
      some recorder.id := by
  unfold record
  rw [if_pos enabled]
  split <;> rfl

theorem record_enabled : (recorder.record pgId collectiveSeqId p2pSeqId opId startEvent endEvent
    isP2P).1.enabled = recorder.enabled := by
  unfold record
  split
  · dsimp only
    split <;> rfl
  · rfl

theorem record_ring (enabled : recorder.enabled = true) :
    (recorder.record pgId collectiveSeqId p2pSeqId opId startEvent endEvent isP2P).1.ring =
      recorder.ring.push ⟨recorder.id, pgId, collectiveSeqId, p2pSeqId, opId, isP2P, startEvent,
        endEvent, none, none, false⟩ := by
  unfold record ring RingBuffer.push
  rw [if_pos enabled]
  by_cases room : recorder.entries.length < recorder.maxEntries
  · rw [if_pos room, if_pos room]
  · rw [if_neg room, if_neg room]

theorem Ring.record (ring : Ring recorder) :
    Ring (recorder.record pgId collectiveSeqId p2pSeqId opId startEvent endEvent isP2P).1 := by
  by_cases enabled : recorder.enabled = true
  · obtain ⟨history, keeps, numbered⟩ := ring.keeps enabled
    have same := @record_ring recorder pgId collectiveSeqId p2pSeqId opId startEvent endEvent isP2P
      enabled
    exact ⟨fun _ _ => record_enabled.trans enabled, fun _ =>
      ⟨_, same ▸ keeps.push _, numbered.push keeps.counted⟩⟩
  · unfold FlightRecorder.record
    rwa [if_neg enabled]

end Record

section Retire

variable {recorder after : FlightRecorder} {queries : Queries} {id : Option Nat}

theorem Ring.retireId (ring : Ring recorder) (retires : recorder.retireId queries id = some after) :
    Ring after := by
  unfold FlightRecorder.retireId at retires
  cases id with
  | none => rwa [← some.inj retires]
  | some id =>
    dsimp only at retires
    split at retires
    · obtain ⟨entry, found, same⟩ := map_eq_some_iff.mp retires
      split at same
      · next mine =>
          subst same mine
          obtain ⟨history, keeps, numbered⟩ := ring.keeps ‹_›
          let retire (entry : Entry) : Entry := { updateState queries entry with
            retired := true
            startEvent := none
            endEvent := none }
          exact ⟨fun _ _ => ‹_›, fun _ => ⟨_, keeps.set numbered found retire,
            numbered.modify (keeps.found_numbered numbered found).2.2.2 rfl⟩⟩
      · rwa [← same]
    · rwa [← some.inj retires]

theorem pointsTo_retireId {entry : Entry} {work : Nat} (ring : Ring recorder)
    (retires : recorder.retireId queries id = some after) (member : entry ∈ after.entries)
    (points : entry.PointsTo work) : entry ∈ recorder.entries ∧ (recorder.enabled = true →
      id ≠ some entry.id) := by
  unfold FlightRecorder.retireId at retires
  cases id with
  | none =>
    cases retires
    exact ⟨member, fun _ => nofun⟩
  | some id =>
    dsimp only at retires
    split at retires
    · obtain ⟨found, at_, same⟩ := map_eq_some_iff.mp retires
      split at same
      · next mine =>
          subst same
          obtain ⟨place, here⟩ := List.mem_iff_getElem?.mp member
          rw [List.getElem?_set] at here
          split at here
          · split at here
            · cases here
              rcases points with start | stop
              · cases start
              · cases stop
            · cases here
          · next elsewhere =>
              refine ⟨List.mem_of_getElem? here, fun _ same => elsewhere ?_⟩
              rw [some.inj same]
              exact ring.placed here
      · next other =>
          subst same
          refine ⟨member, fun _ same => other ?_⟩
          obtain ⟨place, here⟩ := List.mem_iff_getElem?.mp member
          have home := ring.placed here
          rw [← some.inj same] at home
          rw [home, here] at at_
          rw [← some.inj at_, some.inj same]
    · next disabled =>
        cases retires
        exact ⟨member, fun enabled => absurd enabled disabled⟩

end Retire

end FlightRecorder

end TorchSupa.Distributed
