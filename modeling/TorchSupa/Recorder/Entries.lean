import TorchSupa.Logic.RingBuffer
import Mathlib.Data.Rat.Defs

/-!
The flight recorder: the ring of its entries, and `retire_id` in the two halves between which it
does not hold the lock.
-/

namespace TorchSupa.Recorder

inductive ScalarType
  | byte | char | short | int | long | half | float | double
  | complexHalf | complexFloat | complexDouble | bool
  | qint8 | quint8 | qint32 | bfloat16 | quint4x2 | quint2x4
  | bits1x8 | bits2x4 | bits4x2 | bits8 | bits16
  | float8E5m2 | float8E4m3fn | float8E5m2fnuz | float8E4m3fnuz
  | uint16 | uint32 | uint64 | undefined
deriving DecidableEq, Repr, Inhabited

structure Tensor where
  sizes : List Int
  dtype : ScalarType
deriving DecidableEq, Repr, Inhabited

/-- `Entry`: tracebacks and events are named by numbers. The identifiers count without a bound. -/
structure Entry where
  id : Nat
  pgId : Nat
  pgName : String × String
  collectiveSeqId : Nat
  p2pSeqId : Nat
  opId : Nat
  profilingName : String
  traceback : Nat
  startEvent : Option Nat
  endEvent : Option Nat
  timeCreated : Int
  timeoutMs : Int
  isP2P : Bool
  duration : Option Rat := none
  timeDiscoveredStarted : Option Int := none
  timeDiscoveredCompleted : Option Int := none
  inputDims : List Int := []
  inputDtypes : List ScalarType := []
  outputDims : List Int := []
  outputDtypes : List ScalarType := []
  sizes : List Int := []
  retired : Bool := false
deriving DecidableEq, Repr, Inhabited

structure Arguments where
  pgId : Nat
  pgName : String × String
  collectiveSeqId : Nat
  p2pSeqId : Nat
  opId : Nat
  profilingName : String
  inputs : List Tensor
  outputs : List Tensor
  startEvent : Option Nat
  endEvent : Option Nat
  timeoutMs : Int
  pgStatus : Nat
  isP2P : Bool
  traceback : Nat
  now : Int
deriving DecidableEq, Repr, Inhabited

/-- `std::map::operator[]` with an assignment, on the pairs in the order of their keys. -/
def assign {κ ν : Type} [DecidableEq κ] (less : κ → κ → Bool) (key : κ) (value : ν) :
    List (κ × ν) → List (κ × ν)
  | [] => [(key, value)]
  | (other, old) :: rest =>
    if less key other then (key, value) :: (other, old) :: rest
    else if other = key then (key, value) :: rest
    else (other, old) :: assign less key value rest

structure FlightRecorder where
  enabled : Bool := false
  entries : List Entry := []
  maxEntries : Nat := 0
  next : Nat := 0
  id : Nat := 0
  allPgStatus : List (Nat × Nat) := []
  pgNameToRanks : List ((String × String) × List Nat) := []
deriving DecidableEq, Repr, Inhabited

def FlightRecorder.new (maxEntries : Nat) : FlightRecorder :=
  { maxEntries, enabled := 0 < maxEntries }

structure Queries where
  query : Nat → Bool
  now : Int

/-- A call of `retire_id` that computes a duration without the lock. -/
structure Window where
  id : Nat
  startEvent : Nat
  endEvent : Nat
deriving DecidableEq, Repr, Inhabited

namespace FlightRecorder

def newEntry (recorder : FlightRecorder) (given : Arguments) : Entry where
  id := recorder.id
  pgId := given.pgId
  pgName := given.pgName
  collectiveSeqId := given.collectiveSeqId
  p2pSeqId := given.p2pSeqId
  opId := given.opId
  profilingName := given.profilingName
  traceback := given.traceback
  startEvent := given.startEvent
  endEvent := given.endEvent
  timeCreated := given.now
  timeoutMs := given.timeoutMs
  isP2P := given.isP2P
  inputDims := given.inputs.map fun input => input.sizes.length
  inputDtypes := given.inputs.map Tensor.dtype
  outputDims := given.outputs.map fun output => output.sizes.length
  outputDtypes := given.outputs.map Tensor.dtype
  sizes := given.inputs.flatMap Tensor.sizes ++ given.outputs.flatMap Tensor.sizes

def record (recorder : FlightRecorder) (given : Arguments) : FlightRecorder × Option Nat :=
  if recorder.enabled then
    let allPgStatus :=
      if recorder.allPgStatus.any (fun status => status.1 = given.pgId) then recorder.allPgStatus
      else assign (fun key other => key < other) given.pgId given.pgStatus recorder.allPgStatus
    let te := recorder.newEntry given
    if recorder.entries.length < recorder.maxEntries then
      ({ recorder with
          allPgStatus
          entries := recorder.entries ++ [te]
          id := recorder.id + 1 },
        some recorder.id)
    else
      ({ recorder with
          allPgStatus
          entries := recorder.entries.set recorder.next te
          next := if recorder.next + 1 = recorder.maxEntries then 0 else recorder.next + 1
          id := recorder.id + 1 },
        some recorder.id)
  else (recorder, none)

def lessName (name other : String × String) : Bool :=
  name.1 < other.1 || name.1 = other.1 && name.2 < other.2

def recordPgRanks (recorder : FlightRecorder) (pgName : String × String) (ranks : List Nat) :
    FlightRecorder :=
  if recorder.enabled then
    { recorder with pgNameToRanks := assign lessName pgName ranks recorder.pgNameToRanks }
  else recorder

end FlightRecorder

def updateState (queries : Queries) (r : Entry) : Entry :=
  { r with
    timeDiscoveredStarted :=
      if r.startEvent.any queries.query && r.timeDiscoveredStarted.isNone then some queries.now
      else r.timeDiscoveredStarted
    timeDiscoveredCompleted :=
      if r.endEvent.any queries.query && r.timeDiscoveredCompleted.isNone then some queries.now
      else r.timeDiscoveredCompleted }

namespace FlightRecorder

def dumpEntries (queries : Queries) (recorder : FlightRecorder) : List Entry :=
  (recorder.entries.drop recorder.next ++ recorder.entries.take recorder.next).map fun r =>
    { updateState queries r with startEvent := none, endEvent := none }

/-- `none` when `entries_.at` throws. -/
def getEntry (recorder : FlightRecorder) (id : Option Nat) : Option (Option Entry) :=
  match id with
  | none => some none
  | some id =>
    if recorder.enabled then
      recorder.entries[id % recorder.maxEntries]?.map fun entry =>
        if entry.id = id then some entry else none
    else some none

def retire (queries : Queries) (entry : Entry) : Entry :=
  { updateState queries entry with retired := true, startEvent := none, endEvent := none }

def window (queries : Queries) (computeDuration : Bool) (entry : Entry) : Option Window :=
  let updated := updateState queries entry
  if computeDuration && updated.timeDiscoveredCompleted.isSome then
    match updated.startEvent, updated.endEvent with
    | some startEvent, some endEvent => some ⟨entry.id, startEvent, endEvent⟩
    | _, _ => none
  else none

/-- `retire_id` up to the point where it gives the lock back, to return or to compute a duration.
`none` when `entries_.at` throws. -/
def retireId (queries : Queries) (id : Option Nat) (computeDuration : Bool)
    (recorder : FlightRecorder) : Option (FlightRecorder × Option Window) :=
  match id with
  | none => some (recorder, none)
  | some id =>
    if recorder.enabled then
      recorder.entries[id % recorder.maxEntries]?.map fun entry =>
        if entry.id = id then
          ({ recorder with
              entries := recorder.entries.set (id % recorder.maxEntries) (retire queries entry) },
            window queries computeDuration entry)
        else (recorder, none)
    else some (recorder, none)

/-- `retire_id` from where it has the lock again: the entry may have been overwritten. -/
def resumeRetireId (window : Window) (duration : Rat) (recorder : FlightRecorder) :
    Option FlightRecorder :=
  recorder.entries[window.id % recorder.maxEntries]?.map fun entry =>
    if entry.id ≠ window.id then recorder
    else
      { recorder with
        entries := recorder.entries.set (window.id % recorder.maxEntries)
          { entry with duration := some duration } }

end FlightRecorder

end TorchSupa.Recorder
