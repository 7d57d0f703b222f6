import TorchSupa.Recorder.Entries

/-!
The two dumps of the flight recorder: the dictionary that is pickled, and the JSON text that is
written piece by piece.
-/

namespace TorchSupa.Recorder

def ScalarType.toString : ScalarType → String
  | byte => "Byte"
  | char => "Char"
  | short => "Short"
  | int => "Int"
  | long => "Long"
  | half => "Half"
  | float => "Float"
  | double => "Double"
  | complexHalf => "ComplexHalf"
  | complexFloat => "ComplexFloat"
  | complexDouble => "ComplexDouble"
  | bool => "Bool"
  | qint8 => "QInt8"
  | quint8 => "QUInt8"
  | qint32 => "QInt32"
  | bfloat16 => "BFloat16"
  | quint4x2 => "QUInt4x2"
  | quint2x4 => "QUInt2x4"
  | bits1x8 => "Bits1x8"
  | bits2x4 => "Bits2x4"
  | bits4x2 => "Bits4x2"
  | bits8 => "Bits8"
  | bits16 => "Bits16"
  | float8E5m2 => "Float8_e5m2"
  | float8E4m3fn => "Float8_e4m3fn"
  | float8E5m2fnuz => "Float8_e5m2fnuz"
  | float8E4m3fnuz => "Float8_e4m3fnuz"
  | uint16 => "UInt16"
  | uint32 => "UInt32"
  | uint64 => "UInt64"
  | undefined => "Undefined"

structure ProcessGroupStatus where
  lastEnqueuedSeq : Int := -1
  lastStartedSeq : Int := -1
  lastCompletedSeq : Int := -1
deriving DecidableEq, Repr, Inhabited

/-- What the recorder borrows when it dumps: the state of the events and the statuses of the process
groups. -/
structure Surroundings where
  queries : Queries
  statuses : Nat → ProcessGroupStatus

def ranksStr (ranks : List Nat) : String :=
  "[" ++ ", ".intercalate (ranks.map toString) ++ "]"

def int64 (value : Nat) : Int :=
  ((value : Int) + 9223372036854775808) % 18446744073709551616 - 9223372036854775808

def readSizes : List Int → List Int → List (List Int) × List Int
  | [], it => ([], it)
  | dim :: dims, it =>
    let (sizes, rest) := readSizes dims (it.drop dim.toNat)
    (it.take dim.toNat :: sizes, rest)

def Entry.inputSizes (e : Entry) : List (List Int) := (readSizes e.inputDims e.sizes).1

def Entry.outputSizes (e : Entry) : List (List Int) :=
  (readSizes e.outputDims (readSizes e.inputDims e.sizes).2).1

def Entry.state (e : Entry) : String :=
  if e.timeDiscoveredCompleted.isSome then "completed"
  else if e.timeDiscoveredStarted.isSome then "started"
  else "scheduled"

def shown (onlyActive : Bool) (entries : List Entry) : List Entry :=
  entries.filter fun e => !(onlyActive && e.timeDiscoveredCompleted.isSome)

section Pickle

inductive IValue
  | none
  | bool (value : Bool)
  | int (value : Int)
  | double (value : Rat)
  | string (text : String)
  | tuple (items : List IValue)
  | list (items : List IValue)
  | dict (entries : List (String × IValue))

def insert {α : Type} (key : String) (value : α) (dict : List (String × α)) :
    List (String × α) :=
  if dict.any (fun entry => entry.1 = key) then dict else dict ++ [(key, value)]

def sizesValue (sizes : List (List Int)) : IValue :=
  .list (sizes.map fun dims => .list (dims.map .int))

def dtypesValue (dtypes : List ScalarType) : IValue :=
  .list (dtypes.map fun dtype => .string dtype.toString)

def timeValue : Option Int → IValue
  | none => .none
  | some time => .int time

/-- The dictionary that `getCollectiveTrace` makes of an entry, without stack traces. -/
def entryDict (e : Entry) : List (String × IValue) :=
  [("record_id", IValue.int (int64 e.id)),
    ("pg_id", .int (int64 e.pgId)),
    ("process_group", .tuple [.string e.pgName.1, .string e.pgName.2]),
    ("collective_seq_id", .int (int64 e.collectiveSeqId)),
    ("p2p_seq_id", .int (int64 e.p2pSeqId)),
    ("op_id", .int (int64 e.opId)),
    ("profiling_name", .string e.profilingName),
    ("time_created_ns", .int e.timeCreated)] ++
  (match e.duration with
    | none => []
    | some duration => [("duration_ms", IValue.double duration)]) ++
  [("input_sizes", sizesValue e.inputSizes),
    ("input_dtypes", dtypesValue e.inputDtypes),
    ("output_sizes", sizesValue e.outputSizes),
    ("output_dtypes", dtypesValue e.outputDtypes),
    ("state", .string e.state),
    ("time_discovered_started_ns", timeValue e.timeDiscoveredStarted),
    ("time_discovered_completed_ns", timeValue e.timeDiscoveredCompleted),
    ("retired", .bool e.retired),
    ("timeout_ms", .int e.timeoutMs),
    ("is_p2p", .bool e.isP2P)]

def getCollectiveTrace (surroundings : Surroundings) (onlyActive : Bool)
    (recorder : FlightRecorder) : List IValue :=
  (shown onlyActive (recorder.dumpEntries surroundings.queries)).map fun e => .dict (entryDict e)

def getPgConfig (recorder : FlightRecorder) : List (String × IValue) :=
  recorder.pgNameToRanks.foldl (fun config group =>
    insert group.1.1 (.dict [("name", .string group.1.1), ("desc", .string group.1.2),
      ("ranks", .string (ranksStr group.2))]) config) []

def getPgStatus (surroundings : Surroundings) (recorder : FlightRecorder) :
    List (String × IValue) :=
  recorder.allPgStatus.foldl (fun statuses group =>
    let status := surroundings.statuses group.2
    insert (toString group.1) (.dict
      [("last_enqueued_collective", .int status.lastEnqueuedSeq),
        ("last_started_collective", .int status.lastStartedSeq),
        ("last_completed_collective", .int status.lastCompletedSeq)]) statuses) []

abbrev DumpMap := List (String × List (String × String))

def dump (surroundings : Surroundings) (bcclDumpMap : Option DumpMap) (includeCollectives : Bool)
    (onlyActive : Bool) (recorder : FlightRecorder) : IValue :=
  let perCommDict := (bcclDumpMap.getD []).foldl (fun comms comm =>
    insert comm.1 (.dict (comm.2.foldl (fun inner pair =>
      insert pair.1 (.string pair.2) inner) [])) comms) []
  .dict ([("version", IValue.string "2.4"),
      ("pg_config", .dict (getPgConfig recorder)),
      ("pg_status", .dict (getPgStatus surroundings recorder))] ++
    (if includeCollectives then
      [("entries", IValue.list (getCollectiveTrace surroundings onlyActive recorder))] else []) ++
    (if perCommDict.isEmpty then [] else [("bccl_comm_state", IValue.dict perCommDict)]))

end Pickle

section Json

def quoted (text : String) : List Char := '\x22' :: text.toList ++ ['\x22']

def writeAll {α : Type} (write : Char → α → List Char) : Char → List α → List Char
  | _, [] => []
  | before, element :: rest => write before element ++ writeAll write ',' rest

def keyValueString (key value : String) (before : Char) : List Char :=
  before :: (quoted key ++ [' ', ':', ' '] ++ quoted value)

def keyValueInt (key : String) (value : Int) (before : Char) : List Char :=
  before :: (quoted key ++ [' ', ':', ' '] ++ (toString value).toList)

def keyValueMap (key : String) (valueMap : List (String × String)) (before : Char) : List Char :=
  before :: (quoted key ++ [':', ' ', '\x7b'] ++
    writeAll (fun before pair => keyValueString pair.1 pair.2 before) ' ' valueMap ++ ['\x7d'])

def keyValueTuple (key : String) (valueTuple : String × String) (before : Char) : List Char :=
  before :: (quoted key ++ [':', ' ', '['] ++ quoted valueTuple.1 ++ [','] ++
    quoted valueTuple.2 ++ [']'])

def keyValueStrings (key : String) (valueList : List String) (before : Char) : List Char :=
  before :: (quoted key ++ [':', ' ', '['] ++
    writeAll (fun before value => before :: quoted value) ' ' valueList ++ [']'])

def keyValueSizes (key : String) (values : List (List Int)) (before : Char) : List Char :=
  before :: (quoted key ++ [':', ' ', '['] ++
    writeAll (fun before value => before :: ('[' ::
      writeAll (fun before value2 => before :: (toString value2).toList) ' ' value ++ [']']))
      ' ' values ++ [']'])

def keyValueMaps (key : String) (valueMap : List (String × List (String × String)))
    (before : Char) : List Char :=
  before :: (quoted key ++ [' ', ':', ' ', '\x7b'] ++
    writeAll (fun before pair => keyValueMap pair.1 pair.2 before) ' ' valueMap ++ ['\x7d'])

/-- `std::unordered_map<std::string, std::string>`: what is to be written before it is not, and
every element has a `,` before it. -/
def keyValueUnordered (key : String) (valueMap : List (String × String)) (_before : Char) :
    List Char :=
  quoted key ++ [' ', ':', ' ', '\x7b'] ++
    valueMap.flatMap (fun pair => keyValueString pair.1 pair.2 ',') ++ ['\x7d']

def keyValueUnorderedMaps (key : String) (valueMap : DumpMap) (before : Char) : List Char :=
  before :: (quoted key ++ [' ', ':', ' ', '\x7b'] ++
    writeAll (fun before pair => keyValueUnordered pair.1 pair.2 before) ' ' valueMap ++ ['\x7d'])

def lessString (key other : String) : Bool := key < other

def emplace {ν : Type} (key : String) (value : ν) (map : List (String × ν)) :
    List (String × ν) :=
  if map.any (fun entry => entry.1 = key) then map else assign lessString key value map

def getPgConfigJson (recorder : FlightRecorder) : List (String × List (String × String)) :=
  recorder.pgNameToRanks.foldl (fun result group =>
    emplace group.1.1 (assign lessString "ranks" (ranksStr group.2)
      (assign lessString "desc" group.1.2 (assign lessString "name" group.1.1 []))) result) []

def getPgStatusJson (surroundings : Surroundings) (recorder : FlightRecorder) :
    List (String × List (String × String)) :=
  recorder.allPgStatus.foldl (fun result group =>
    let status := surroundings.statuses group.2
    assign lessString (toString group.1)
      (assign lessString "last_completed_collective" (toString status.lastCompletedSeq)
        (assign lessString "last_started_collective" (toString status.lastStartedSeq)
          (assign lessString "last_enqueued_collective" (toString status.lastEnqueuedSeq) [])))
      result) []

def truncated (duration : Rat) : Int := duration.num.tdiv duration.den

def flag (value : Bool) : Int := if value then 1 else 0

def entryJson (e : Entry) : List Char :=
  '\x7b' :: (keyValueInt "record_id" (int64 e.id) ' ' ++
    keyValueInt "pg_id" (int64 e.pgId) ',' ++
    keyValueTuple "process_group" e.pgName ',' ++
    keyValueInt "collective_seq_id" (int64 e.collectiveSeqId) ',' ++
    keyValueInt "p2p_seq_id" (int64 e.p2pSeqId) ',' ++
    keyValueInt "op_id" (int64 e.opId) ',' ++
    keyValueString "profiling_name" e.profilingName ',' ++
    keyValueInt "time_created_ns" e.timeCreated ',' ++
    (match e.duration with
      | none => []
      | some duration => keyValueInt "duration_ms" (truncated duration) ',') ++
    keyValueSizes "input_sizes" e.inputSizes ',' ++
    keyValueStrings "input_dtypes" (e.inputDtypes.map ScalarType.toString) ',' ++
    keyValueSizes "output_sizes" e.outputSizes ',' ++
    keyValueStrings "output_dtypes" (e.outputDtypes.map ScalarType.toString) ',' ++
    keyValueString "state" e.state ',' ++
    keyValueInt "time_discovered_started_ns" (e.timeDiscoveredStarted.getD 0) ',' ++
    keyValueInt "time_discovered_completed_ns" (e.timeDiscoveredCompleted.getD 0) ',' ++
    keyValueInt "retired" (flag e.retired) ',' ++
    keyValueInt "timeout_ms" e.timeoutMs ',' ++
    keyValueInt "is_p2p" (flag e.isP2P) ',') ++ ['\x7d']

def dumpJson (surroundings : Surroundings) (bcclDumpMap : Option DumpMap)
    (includeCollectives : Bool) (onlyActive : Bool) (recorder : FlightRecorder) : List Char :=
  let entries := recorder.dumpEntries surroundings.queries
  '\x7b' :: (keyValueString "version" "2.4" ' ' ++
    keyValueMaps "pg_config" (getPgConfigJson recorder) ',' ++
    keyValueMaps "pg_status" (getPgStatusJson surroundings recorder) ',' ++
    (if includeCollectives then
      (if entries.isEmpty then []
        else ',' :: (quoted "entries" ++ [':', '['] ++
          writeAll (fun before e => before :: entryJson e) ' ' (shown onlyActive entries) ++
          [']'])) ++
      (match bcclDumpMap with
        | none => []
        | some bcclDumpMap => keyValueUnorderedMaps "bccl_comm_state" bcclDumpMap ',')
    else [])) ++ ['\x7d']

end Json

end TorchSupa.Recorder
