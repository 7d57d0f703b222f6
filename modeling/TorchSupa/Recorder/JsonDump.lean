import TorchSupa.Recorder.Rendering

/-!
What the JSON dump is worth: its writers put strings into the text as they are, the loops over maps
place the commas, and some parts are written when they should not be, or are not when they should.
-/

namespace TorchSupa.Recorder

open Json List Nat

section Loops

def Written {β : Type} (spells : List Char → β → Prop) (write : Char → List Char) (result : β) :
    Prop :=
  ∃ text, (∀ before, write before = before :: text) ∧ spells text result

abbrev Writes := Written SpellsMember

theorem listed_of_written {α β : Type} {spells : List Char → β → Prop}
    {write : Char → α → List Char} {elements : List α} {results : List β}
    (all : List.Forall₂ (fun element => Written spells fun before => write before element)
      elements results) :
    ∃ texts, List.Forall₂ spells texts results ∧
      ∀ before, writeAll write before elements = listed before texts := by
  induction all with
  | nil => exact ⟨[], .nil, fun _ => rfl⟩
  | cons first _ ih =>
    obtain ⟨text, writes, spelled⟩ := first
    obtain ⟨texts, all, rest⟩ := ih
    refine ⟨text :: texts, .cons spelled all, fun before => ?_⟩
    simp [writeAll, listed, writes, rest]

theorem forall₂_written {α β : Type} {spells : List Char → β → Prop} {write : Char → α → List Char}
    {elements : List α} {result : α → β}
    (each : ∀ element ∈ elements, Written spells (fun before => write before element)
      (result element)) :
    List.Forall₂ (fun element => Written spells fun before => write before element) elements
      (elements.map result) := by
  rw [forall₂_map_right_iff, forall₂_same]
  exact each

theorem spells_members {α : Type} {write : Char → α → List Char} {elements : List α}
    {members : List (List Char × Json.Value)}
    (all : List.Forall₂ (fun element => Writes fun before => write before element) elements
      members) :
    Spells ('\x7b' :: writeAll write ' ' elements ++ ['\x7d']) (.object members) := by
  obtain ⟨texts, spelled, same⟩ := listed_of_written all
  rw [same]
  exact spells_object spelled

theorem spells_items {α : Type} {write : Char → α → List Char} {elements : List α}
    {value : α → Json.Value}
    (each : ∀ element ∈ elements, Written Spells (fun before => write before element)
      (value element)) :
    Spells ('[' :: writeAll write ' ' elements ++ [']']) (.array (elements.map value)) := by
  obtain ⟨texts, spelled, same⟩ := listed_of_written (forall₂_written each)
  rw [same]
  exact spells_array spelled

end Loops

section Writers

def PlainText (text : String) : Prop := ∀ char ∈ text.toList, Plain char

instance (text : String) : Decidable (PlainText text) := decidableBAll Plain text.toList

def stringsValue (texts : List String) : Json.Value := .array (texts.map stringValue)

def sizesJson (sizes : List (List Int)) : Json.Value :=
  .array (sizes.map fun dims => .array (dims.map asNumber))

theorem spells_quoted (text : String) : Spells (quoted text) (stringValue text) :=
  spells_string text.toList

theorem spells_asNumber (value : Int) : Spells (toString value).toList (asNumber value) :=
  spells_number value

variable (key : String)

theorem weight_quoted (text : String) : weight (quoted text) = weight text.toList := by
  have quote : weigh '\x22' = 0 := rfl
  simp [quoted, quote]

variable {value : Json.Value}

section

variable {text : List Char} (spells : Spells text value)
include spells

theorem member_wide : SpellsMember (quoted key ++ [' ', ':', ' '] ++ text) (key.toList, value) where
  light := by
    have colon : weigh ' ' = 0 ∧ weigh ':' = 0 := ⟨rfl, rfl⟩
    simpa [weight_quoted, colon] using spells.light
  reads plain clear := by
    have member := ReadsMember.intro [' '] [' '] plain rfl rfl (spells.reads clear)
    simpa [quoted] using member

theorem member_narrow : SpellsMember (quoted key ++ [':', ' '] ++ text) (key.toList, value) where
  light := by
    have colon : weigh ' ' = 0 ∧ weigh ':' = 0 := ⟨rfl, rfl⟩
    simpa [weight_quoted, colon] using spells.light
  reads plain clear := by
    have member := ReadsMember.intro [] [' '] plain rfl rfl (spells.reads clear)
    simpa [quoted] using member

theorem member_close : SpellsMember (quoted key ++ [':'] ++ text) (key.toList, value) where
  light := by
    have colon : weigh ':' = 0 := rfl
    simpa [weight_quoted, colon] using spells.light
  reads plain clear := by
    have member := ReadsMember.intro [] [] plain rfl rfl (spells.reads clear)
    simpa [quoted] using member

end

theorem writes_string (value : String) :
    Writes (keyValueString key value) (key.toList, stringValue value) :=
  ⟨_, fun _ => rfl, member_wide key (spells_quoted value)⟩

theorem writes_int (value : Int) : Writes (keyValueInt key value) (key.toList, asNumber value) :=
  ⟨_, fun _ => rfl, member_wide key (spells_asNumber value)⟩

theorem spells_map (map : List (String × String)) :
    Spells ('\x7b' :: writeAll (fun before pair => keyValueString pair.1 pair.2 before) ' ' map ++
      ['\x7d']) (mapValue map) :=
  spells_members (forall₂_written fun pair _ => writes_string pair.1 pair.2)

theorem writes_map (map : List (String × String)) :
    Writes (keyValueMap key map) (key.toList, mapValue map) := by
  refine ⟨_, fun _ => rfl, ?_⟩
  have member := member_narrow key (spells_map map)
  simpa using member

theorem writes_maps (maps : List (String × List (String × String))) :
    Writes (keyValueMaps key maps) (key.toList, mapsValue maps) := by
  have object : Spells ('\x7b' :: writeAll (fun before pair => keyValueMap pair.1 pair.2 before)
      ' ' maps ++ ['\x7d']) (mapsValue maps) :=
    spells_members (forall₂_written fun pair _ => writes_map pair.1 pair.2)
  refine ⟨_, fun _ => rfl, ?_⟩
  have member := member_wide key object
  simpa using member

theorem writes_tuple (tuple : String × String) : Writes (keyValueTuple key tuple)
      (key.toList, .array [stringValue tuple.1, stringValue tuple.2]) := by
  have items : Spells ('[' :: quoted tuple.1 ++ [','] ++ quoted tuple.2 ++ [']'])
      (.array [stringValue tuple.1, stringValue tuple.2]) := by
    constructor
    · have marks : weigh '[' = 0 ∧ weigh ',' = 0 ∧ weigh ']' = 0 := ⟨rfl, rfl, rfl⟩
      simp [Value.weight, stringValue, weight_quoted, marks]
    · intro plain
      simp only [plain_array, forall_mem_cons] at plain
      have array := reads_items (show skipSpace [] = [] from rfl)
        ((spells_quoted tuple.1).reads plain.1)
        (.cons ((spells_quoted tuple.2).reads plain.2.1) .nil)
      simpa [listed] using array
  refine ⟨_, fun _ => rfl, ?_⟩
  have member := member_narrow key items
  simpa using member

theorem writes_strings (texts : List String) :
    Writes (keyValueStrings key texts) (key.toList, stringsValue texts) := by
  have array : Spells ('[' :: writeAll (fun before value => before :: quoted value) ' ' texts ++
      [']']) (stringsValue texts) :=
    spells_items fun text _ => ⟨_, fun _ => rfl, spells_quoted text⟩
  refine ⟨_, fun _ => rfl, ?_⟩
  have member := member_narrow key array
  simpa using member

theorem writes_sizes (sizes : List (List Int)) :
    Writes (keyValueSizes key sizes) (key.toList, sizesJson sizes) := by
  have dims (dims : List Int) : Spells ('[' :: writeAll
      (fun before size => before :: (toString size).toList) ' ' dims ++ [']'])
      (.array (dims.map asNumber)) :=
    spells_items fun size _ => ⟨_, fun _ => rfl, spells_asNumber size⟩
  have array : Spells ('[' :: writeAll (fun before value => before :: ('[' ::
      writeAll (fun before value2 => before :: (toString value2).toList) ' ' value ++ [']']))
      ' ' sizes ++ [']']) (sizesJson sizes) :=
    spells_items fun each _ => ⟨_, fun _ => rfl, dims each⟩
  refine ⟨_, fun _ => rfl, ?_⟩
  have member := member_narrow key array
  simpa using member

end Writers

section Entries

def lastWriters (e : Entry) : List (Char → List Char) :=
  [keyValueSizes "input_sizes" e.inputSizes,
    keyValueStrings "input_dtypes" (e.inputDtypes.map ScalarType.toString),
    keyValueSizes "output_sizes" e.outputSizes,
    keyValueStrings "output_dtypes" (e.outputDtypes.map ScalarType.toString),
    keyValueString "state" e.state,
    keyValueInt "time_discovered_started_ns" (e.timeDiscoveredStarted.getD 0),
    keyValueInt "time_discovered_completed_ns" (e.timeDiscoveredCompleted.getD 0),
    keyValueInt "retired" (flag e.retired),
    keyValueInt "timeout_ms" e.timeoutMs,
    keyValueInt "is_p2p" (flag e.isP2P)]

def entryWriters (e : Entry) : List (Char → List Char) :=
  [keyValueInt "record_id" (int64 e.id),
    keyValueInt "pg_id" (int64 e.pgId),
    keyValueTuple "process_group" e.pgName,
    keyValueInt "collective_seq_id" (int64 e.collectiveSeqId),
    keyValueInt "p2p_seq_id" (int64 e.p2pSeqId),
    keyValueInt "op_id" (int64 e.opId),
    keyValueString "profiling_name" e.profilingName,
    keyValueInt "time_created_ns" e.timeCreated] ++
  (match e.duration with
    | none => []
    | some duration => [keyValueInt "duration_ms" (truncated duration)]) ++
  lastWriters e

def inTurn (before : Char) (write : Char → List Char) : List Char := write before

theorem entryJson_eq (e : Entry) :
    entryJson e = '\x7b' :: writeAll inTurn ' ' (entryWriters e) ++ ['\x7d'] := by
  cases duration : e.duration with
  | none => simp [entryJson, entryWriters, lastWriters, writeAll, inTurn, duration]
  | some time => simp [entryJson, entryWriters, lastWriters, writeAll, inTurn, duration]

theorem render_sizes (sizes : List (List Int)) :
    render asNumber (sizesValue sizes) = sizesJson sizes := by
  have size (value : Int) : render asNumber (.int value) = asNumber value := by rw [render]
  simp [sizesValue, sizesJson, size, Function.comp_def]

theorem render_dtypes (dtypes : List ScalarType) :
    render asNumber (dtypesValue dtypes) = stringsValue (dtypes.map ScalarType.toString) := by
  have dtype (text : String) : render asNumber (.string text) = stringValue text := by
    rw [render, stringValue]
  simp [dtypesValue, stringsValue, dtype, Function.comp_def]

theorem render_time (time : Option Int) :
    render asNumber (timeValue time) = asNumber (time.getD 0) := by
  cases time with
  | none => rw [timeValue, render, Option.getD_none]
  | some time => rw [timeValue, render, Option.getD_some]

theorem writes_entry (e : Entry) :
    List.Forall₂ (fun write => Writes fun before => inTurn before write) (entryWriters e)
      ((entryDict e).map fun entry => (entry.1.toList, render asNumber entry.2)) := by
  have int (key : String) (value : Int) : Writes (keyValueInt key value)
      (key.toList, render asNumber (.int value)) := by
    rw [render]
    exact writes_int key value
  have bool (key : String) (value : Bool) : Writes (keyValueInt key (flag value))
      (key.toList, render asNumber (.bool value)) := by
    rw [render]
    exact writes_int key (flag value)
  have double (key : String) (value : Rat) : Writes (keyValueInt key (truncated value))
      (key.toList, render asNumber (.double value)) := by
    rw [render]
    exact writes_int key (truncated value)
  have time (key : String) (value : Option Int) : Writes (keyValueInt key (value.getD 0))
      (key.toList, render asNumber (timeValue value)) := by
    rw [render_time]
    exact writes_int key _
  have string (key value : String) : Writes (keyValueString key value)
      (key.toList, render asNumber (.string value)) := by
    rw [render]
    exact writes_string key value
  have tuple (key : String) (value : String × String) : Writes (keyValueTuple key value)
      (key.toList, render asNumber (.tuple [.string value.1, .string value.2])) := by
    rw [render_tuple, map_cons, map_singleton, render, render]
    exact writes_tuple key value
  have sizes (key : String) (value : List (List Int)) : Writes (keyValueSizes key value)
      (key.toList, render asNumber (sizesValue value)) := by
    rw [render_sizes]
    exact writes_sizes key value
  have dtypes (key : String) (value : List ScalarType) :
      Writes (keyValueStrings key (value.map ScalarType.toString))
        (key.toList, render asNumber (dtypesValue value)) := by
    rw [render_dtypes]
    exact writes_strings key _
  have last : List.Forall₂ (fun write => Writes fun before => inTurn before write) (lastWriters e) _ :=
    .cons (sizes _ _) (.cons (dtypes _ _) (.cons (sizes _ _) (.cons (dtypes _ _)
      (.cons (string _ _) (.cons (time _ _) (.cons (time _ _) (.cons (bool _ _)
        (.cons (int _ _) (.cons (bool _ _) .nil)))))))))
  cases duration : e.duration with
  | none =>
    simp only [entryWriters, entryDict, duration, append_nil, map_append]
    exact .cons (int _ _) (.cons (int _ _) (.cons (tuple _ _) (.cons (int _ _) (.cons (int _ _)
      (.cons (int _ _) (.cons (string _ _) (.cons (int _ _) last)))))))
  | some taken =>
    simp only [entryWriters, entryDict, duration, map_append]
    exact .cons (int _ _) (.cons (int _ _) (.cons (tuple _ _) (.cons (int _ _) (.cons (int _ _)
      (.cons (int _ _) (.cons (string _ _) (.cons (int _ _) (.cons (double _ _) last))))))))

theorem spells_entry (e : Entry) :
    Spells (entryJson e) (render asNumber (.dict (entryDict e))) := by
  rw [entryJson_eq, render_dict]
  exact spells_members (writes_entry e)

end Entries

section Dump

variable (surroundings : Surroundings) (recorder : FlightRecorder)

def frontWriters (includeCollectives onlyActive : Bool) : List (Char → List Char) :=
  let entries := recorder.dumpEntries surroundings.queries
  [keyValueString "version" "2.4", keyValueMaps "pg_config" (getPgConfigJson recorder),
    keyValueMaps "pg_status" (getPgStatusJson surroundings recorder)] ++
  (if includeCollectives && !entries.isEmpty then
    [fun before => before :: (quoted "entries" ++ [':', '['] ++
      writeAll (fun before e => before :: entryJson e) ' ' (shown onlyActive entries) ++ [']'])]
    else [])

def commWriters (bcclDumpMap : Option DumpMap) (includeCollectives : Bool) :
    List (Char → List Char) :=
  if includeCollectives then
    bcclDumpMap.toList.map fun bcclDumpMap => keyValueUnorderedMaps "bccl_comm_state" bcclDumpMap
  else []

theorem dumpJson_eq (bcclDumpMap : Option DumpMap) (includeCollectives onlyActive : Bool) :
    dumpJson surroundings bcclDumpMap includeCollectives onlyActive recorder =
      '\x7b' :: writeAll inTurn ' ' (frontWriters surroundings recorder includeCollectives onlyActive ++
        commWriters bcclDumpMap includeCollectives) ++ ['\x7d'] := by
  cases includeCollectives with
  | false => simp [dumpJson, frontWriters, commWriters, writeAll, inTurn]
  | true =>
    cases bcclDumpMap with
    | none =>
      by_cases empty : (recorder.dumpEntries surroundings.queries).isEmpty = true
      · simp [dumpJson, frontWriters, commWriters, writeAll, inTurn, empty]
      · simp [dumpJson, frontWriters, commWriters, writeAll, inTurn, empty]
    | some bcclDumpMap =>
      by_cases empty : (recorder.dumpEntries surroundings.queries).isEmpty = true
      · simp [dumpJson, frontWriters, commWriters, writeAll, inTurn, empty]
      · simp [dumpJson, frontWriters, commWriters, writeAll, inTurn, empty]

def frontMembers (includeCollectives onlyActive : Bool) : List (List Char × Json.Value) :=
  let entries := recorder.dumpEntries surroundings.queries
  [("version".toList, stringValue "2.4"),
    ("pg_config".toList, mapsValue (getPgConfigJson recorder)),
    ("pg_status".toList, mapsValue (getPgStatusJson surroundings recorder))] ++
  (if includeCollectives && !entries.isEmpty then
    [("entries".toList, entriesValue surroundings onlyActive recorder)] else [])

def commMembers (bcclDumpMap : Option DumpMap) (includeCollectives : Bool) :
    List (List Char × Json.Value) :=
  if includeCollectives then
    bcclDumpMap.toList.map fun bcclDumpMap => ("bccl_comm_state".toList, mapsValue bcclDumpMap)
  else []

theorem writes_front (includeCollectives onlyActive : Bool) :
    List.Forall₂ (fun write => Writes fun before => inTurn before write)
      (frontWriters surroundings recorder includeCollectives onlyActive)
      (frontMembers surroundings recorder includeCollectives onlyActive) := by
  have entries : Spells ('[' :: writeAll (fun before e => before :: entryJson e) ' '
      (shown onlyActive (recorder.dumpEntries surroundings.queries)) ++ [']'])
      (entriesValue surroundings onlyActive recorder) :=
    spells_items fun e _ => ⟨_, fun _ => rfl, spells_entry e⟩
  have member := member_close "entries" entries
  refine .cons (writes_string _ _) (.cons (writes_maps _ _) (.cons (writes_maps _ _) ?_))
  split
  · refine .cons ⟨_, fun _ => rfl, ?_⟩ .nil
    simpa using member
  · exact .nil

variable {surroundings recorder}

theorem writeAll_append {α : Type} (write : Char → α → List Char) (before : Char) (first : α)
    (rest more : List α) :
    writeAll write before (first :: rest ++ more) =
      writeAll write before (first :: rest) ++ writeAll write ',' more := by
  induction rest generalizing before first with
  | nil => simp [writeAll]
  | cons second rest ih =>
    have later := ih ',' second
    simp only [cons_append, writeAll, append_assoc] at later ⊢
    rw [later]

theorem weight_unordered (key : String) (map : List (String × String)) (before : Char) :
    weight (keyValueUnordered key map before) = weight key.toList + (mapValue map).weight := by
  have marks : weigh ' ' = 0 ∧ weigh ':' = 0 ∧ weigh ',' = 0 ∧ weigh '\x7b' = 0 ∧
      weigh '\x7d' = 0 := ⟨rfl, rfl, rfl, rfl, rfl⟩
  have pairs : weight (map.flatMap fun pair => keyValueString pair.1 pair.2 ',') =
      (mapValue map).weight := by
    induction map with
    | nil => rfl
    | cons pair map ih =>
      rw [flatMap_cons, weight_append, ih, mapValue, mapValue, map_cons, weight_object_cons]
      simp [keyValueString, weight_quoted, marks, stringValue, Value.weight]
  simp [keyValueUnordered, weight_quoted, marks, pairs]

theorem weight_comms (bcclDumpMap : DumpMap) :
    weight (keyValueUnorderedMaps "bccl_comm_state" bcclDumpMap ',') =
      (mapsValue bcclDumpMap).weight := by
  have marks : weigh ' ' = 0 ∧ weigh ':' = 0 ∧ weigh ',' = 0 ∧ weigh '\x7b' = 0 ∧
      weigh '\x7d' = 0 := ⟨rfl, rfl, rfl, rfl, rfl⟩
  have key : weight "bccl_comm_state".toList = 0 := by decide
  have comms (before : Char) :
      weight (writeAll (fun before pair => keyValueUnordered pair.1 pair.2 before) before
        bcclDumpMap) = (mapsValue bcclDumpMap).weight := by
    induction bcclDumpMap generalizing before with
    | nil => rfl
    | cons comm bcclDumpMap ih =>
      rw [writeAll, weight_append, ih, weight_unordered, mapsValue, mapsValue, map_cons,
        weight_object_cons]
  simp only [keyValueUnorderedMaps, weight_cons, weight_append, weight_quoted, key, marks, comms,
    weight_nil, zero_add, add_zero]

def Balanced (bcclDumpMap : Option DumpMap) (includeCollectives : Bool) : Prop :=
  includeCollectives = true →
    ∀ map, bcclDumpMap = some map → map = [] ∨ ∃ comm, map = [(comm, [])]

variable {bcclDumpMap : Option DumpMap}

section

variable {includeCollectives : Bool} (balanced : Balanced bcclDumpMap includeCollectives)
include balanced

theorem writes_comms : List.Forall₂ (fun write => Writes fun before => inTurn before write)
      (commWriters bcclDumpMap includeCollectives) (commMembers bcclDumpMap includeCollectives) := by
  unfold commWriters commMembers
  split
  · next included =>
      cases bcclDumpMap with
      | none => exact .nil
      | some map =>
        refine .cons ⟨_, fun _ => rfl, ?_⟩ .nil
        rcases balanced included map rfl with rfl | ⟨comm, rfl⟩
        · have member := member_wide "bccl_comm_state" (spells_object .nil)
          simpa [listed, writeAll, mapsValue] using member
        · have inner := member_wide comm (spells_object .nil)
          have member := member_wide "bccl_comm_state" (spells_member inner)
          simpa [listed, writeAll, keyValueUnordered, mapsValue, mapValue] using member
  · exact .nil

theorem spells_dump (onlyActive : Bool) :
    Spells (dumpJson surroundings bcclDumpMap includeCollectives onlyActive recorder)
      (.object (frontMembers surroundings recorder includeCollectives onlyActive ++
        commMembers bcclDumpMap includeCollectives)) := by
  rw [dumpJson_eq]
  exact spells_members (rel_append (writes_front _ _ _ _) (writes_comms balanced))

end

theorem light_comms (bcclDumpMap : Option DumpMap) (includeCollectives : Bool) :
    weight (writeAll inTurn ',' (commWriters bcclDumpMap includeCollectives)) ≤
      (Value.object (if (bcclDumpMap.getD []).isEmpty then []
        else [("bccl_comm_state".toList, mapsValue (bcclDumpMap.getD []))])).weight := by
  cases includeCollectives with
  | false => exact zero_le _
  | true =>
    cases bcclDumpMap with
    | none => exact zero_le _
    | some map =>
      have written : writeAll inTurn ',' (commWriters (some map) true) =
          keyValueUnorderedMaps "bccl_comm_state" map ',' ++ [] := rfl
      rw [written, append_nil, weight_comms]
      cases map with
      | nil => exact le_refl _
      | cons comm map =>
        have shown : (if ((some (comm :: map)).getD []).isEmpty then []
            else [("bccl_comm_state".toList, mapsValue ((some (comm :: map)).getD []))]) =
            [("bccl_comm_state".toList, mapsValue (comm :: map))] := rfl
        rw [shown, weight_object_cons]
        omega

theorem light_front (surroundings : Surroundings)
    (keyed : Keyed recorder bcclDumpMap) (includeCollectives onlyActive : Bool) :
    (Value.object (frontMembers surroundings recorder includeCollectives onlyActive)).weight +
      (Value.object (if (bcclDumpMap.getD []).isEmpty then []
        else [("bccl_comm_state".toList, mapsValue (bcclDumpMap.getD []))])).weight ≤
      (Value.object (expectedMembers surroundings bcclDumpMap includeCollectives onlyActive
        recorder)).weight := by
  have config := (equal_config recorder).weight
  have status := (equal_status surroundings keyed.statuses).weight
  have entries : (Value.object
      (if includeCollectives && !(recorder.dumpEntries surroundings.queries).isEmpty then
        [("entries".toList, entriesValue surroundings onlyActive recorder)] else [])).weight ≤
      (Value.object (if includeCollectives then
        [("entries".toList, entriesValue surroundings onlyActive recorder)] else [])).weight := by
    cases includeCollectives with
    | false => exact le_refl _
    | true =>
      cases (recorder.dumpEntries surroundings.queries).isEmpty with
      | false => exact le_refl _
      | true => exact zero_le _
  rw [frontMembers, expectedMembers, weight_object_append, weight_object_append,
    weight_object_append]
  simp only [weight_object_cons, config, status]
  omega

theorem light_dump (keyed : Keyed recorder bcclDumpMap) (includeCollectives onlyActive : Bool) :
    weight (dumpJson surroundings bcclDumpMap includeCollectives onlyActive recorder) ≤
      (Value.object (expectedMembers surroundings bcclDumpMap includeCollectives onlyActive
        recorder)).weight := by
  obtain ⟨texts, spelled, same⟩ := listed_of_written
    (writes_front surroundings recorder includeCollectives onlyActive)
  have split : writeAll inTurn ' '
      (frontWriters surroundings recorder includeCollectives onlyActive ++
        commWriters bcclDumpMap includeCollectives) =
      listed ' ' texts ++ writeAll inTurn ',' (commWriters bcclDumpMap includeCollectives) := by
    rw [← same]
    exact writeAll_append inTurn ' ' _ _ _
  have braces : weigh '\x7b' = 0 ∧ weigh '\x7d' = 0 ∧ weigh ' ' = 0 := ⟨rfl, rfl, rfl⟩
  have front := light_of_spells spelled
  have comms := light_comms bcclDumpMap includeCollectives
  have whole := light_front surroundings keyed includeCollectives onlyActive
  rw [dumpJson_eq, split]
  simp only [weight_cons, weight_append, weight_nil, braces.1, braces.2.1, weight_listed braces.2.2]
  omega

end Dump

end TorchSupa.Recorder
