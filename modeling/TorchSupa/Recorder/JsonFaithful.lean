import TorchSupa.Recorder.JsonDump

/-!
When the JSON dump says what the pickled dump says.
-/

namespace TorchSupa.Recorder

open Json List

section Plainness

theorem plain_digits {text : List Char} (digits : ∀ char ∈ text, char.isDigit = true) :
    ∀ char ∈ text, Plain char := by
  intro char there
  have digit := digits char there
  refine ⟨?_, ?_, ?_⟩
  · rintro rfl
    cases digit
  · rintro rfl
    cases digit
  · simp only [Char.isDigit, Bool.and_eq_true, decide_eq_true_eq] at digit
    have above : '0'.toNat ≤ char.toNat := digit.1
    have zero : '0'.toNat = 48 := rfl
    omega

theorem plain_natural (number : Nat) : PlainText (toString number) := by
  have digits := plain_digits (toDigits_digits number)
  rwa [← Nat.toList_repr] at digits

theorem plain_integer (number : Int) : PlainText (toString number) := by
  have digits := plain_digits (toDigits_digits number.natAbs)
  unfold PlainText
  rw [toList_toString]
  split
  · intro char there
    rcases mem_cons.mp there with rfl | inside
    · decide
    · exact digits char inside
  · exact digits

theorem plain_append {text other : String} (plain : PlainText text) (also : PlainText other) :
    PlainText (text ++ other) := by
  intro char there
  rw [String.toList_append, mem_append] at there
  exact there.elim (plain char) (also char)

theorem plain_intercalate {mark : String} (plain : PlainText mark) {texts : List String}
    (all : ∀ text ∈ texts, PlainText text) : PlainText (mark.intercalate texts) := by
  induction texts with
  | nil =>
    rw [String.intercalate_nil]
    exact fun _ there => by simp at there
  | cons text texts ih =>
    have later := ih fun other there => all other (.tail _ there)
    by_cases empty : texts = []
    · rw [empty, String.intercalate_singleton]
      exact all text (.head _)
    · rw [String.intercalate_cons_of_ne_nil empty]
      exact plain_append (plain_append (all text (.head _)) plain) later

theorem plain_ranks (ranks : List Nat) : PlainText (ranksStr ranks) := by
  refine plain_append (plain_append (by decide) (plain_intercalate (by decide) ?_)) (by decide)
  intro text there
  obtain ⟨rank, _, rfl⟩ := mem_map.mp there
  exact plain_natural rank

theorem plain_stringValue {text : String} : (stringValue text).Plain ↔ PlainText text :=
  plain_string

theorem plain_mapValue {map : List (String × String)} :
    (mapValue map).Plain ↔ ∀ pair ∈ map, PlainText pair.1 ∧ PlainText pair.2 := by
  simp only [mapValue, plain_object, forall_mem_map, plain_stringValue, PlainText]

theorem plain_mapsValue {maps : List (String × List (String × String))} :
    (mapsValue maps).Plain ↔ ∀ entry ∈ maps, PlainText entry.1 ∧
      ∀ pair ∈ entry.2, PlainText pair.1 ∧ PlainText pair.2 := by
  simp only [mapsValue, plain_object, forall_mem_map, plain_mapValue, PlainText]

end Plainness

section Parts

variable {recorder : FlightRecorder}

theorem plain_config : (render asNumber (.dict (getPgConfig recorder))).Plain ↔
    ∀ group, FirstOf (fun group : Group => group.1.1) recorder.pgNameToRanks group →
      PlainText group.1.1 ∧ PlainText group.1.2 := by
  have names : PlainText "name" ∧ PlainText "desc" ∧ PlainText "ranks" := by decide
  have info (group : Group) : (mapValue (groupInfo group)).Plain ↔
      PlainText group.1.1 ∧ PlainText group.1.2 := by
    simp [plain_mapValue, groupInfo, names, plain_ranks]
  rw [getPgConfig_eq, render_dict, plain_object]
  simp only [map_map, Function.comp_def, forall_mem_map, render_stringDict, info]
  constructor
  · intro all group first
    exact (all (group.1.1, group) (mem_inserted.mpr ⟨rfl, first⟩)).2
  · rintro all ⟨name, group⟩ there
    obtain ⟨rfl, first⟩ := mem_inserted.mp there
    exact ⟨(all group first).1, all group first⟩

theorem plain_status (surroundings : Surroundings)
    (distinct : (recorder.allPgStatus.map Prod.fst).Nodup) :
    (mapsValue (getPgStatusJson surroundings recorder)).Plain := by
  rw [plain_mapsValue]
  have names : PlainText "last_enqueued_collective" ∧ PlainText "last_started_collective" ∧
    PlainText "last_completed_collective" := by decide
  have written := assigned_perm lessString
    (fun group => statusInfoJson (surroundings.statuses group.2)) (keys_nodup distinct)
  intro entry there
  have there' := written.mem_iff.mp there
  obtain ⟨group, _, rfl⟩ := mem_map.mp there'
  refine ⟨plain_natural _, fun pair inside => ?_⟩
  have inside' := (statusInfoJson_perm _).mem_iff.mp inside
  simp only [statusInfoText, statusInfo, map_cons, map_nil, mem_cons,
    not_mem_nil, or_false] at inside'
  rcases inside' with rfl | rfl | rfl
  · exact ⟨names.1, plain_integer _⟩
  · exact ⟨names.2.1, plain_integer _⟩
  · exact ⟨names.2.2, plain_integer _⟩

theorem plain_sizes (sizes : List (List Int)) : (render asNumber (sizesValue sizes)).Plain := by
  rw [render_sizes, sizesJson]
  simp only [plain_array, forall_mem_map]
  exact fun _ _ _ _ => plain_number _

theorem plain_dtypes (dtypes : List ScalarType) : (render asNumber (dtypesValue dtypes)).Plain := by
  have dtype (type : ScalarType) : PlainText type.toString := by
    cases type <;> decide
  rw [render_dtypes, stringsValue]
  simp only [plain_array, forall_mem_map, plain_stringValue]
  exact fun type _ => dtype type

theorem plain_time (time : Option Int) : (render asNumber (timeValue time)).Plain := by
  rw [render_time]
  exact plain_number _

theorem plain_state (e : Entry) : PlainText e.state := by
  unfold Entry.state
  split
  · decide
  · split
    · decide
    · decide

theorem plain_entry (e : Entry) : (render asNumber (.dict (entryDict e))).Plain ↔
    PlainText e.pgName.1 ∧ PlainText e.pgName.2 ∧ PlainText e.profilingName := by
  have keys : ∀ entry ∈ entryDict e, PlainText entry.1 := by
    cases duration : e.duration with
    | none =>
      simp only [entryDict, duration, forall_mem_append, forall_mem_cons]
      decide
    | some taken =>
      simp only [entryDict, duration, forall_mem_append, forall_mem_cons]
      decide
  have int (value : Int) : (render asNumber (.int value)).Plain := by
    rw [render]
    exact plain_number _
  have bool (value : Bool) : (render asNumber (.bool value)).Plain := by
    rw [render]
    exact plain_number _
  have double (value : Rat) : (render asNumber (.double value)).Plain := by
    rw [render]
    exact plain_number _
  have string (value : String) : (render asNumber (.string value)).Plain ↔ PlainText value := by
    rw [render]
    exact plain_stringValue
  have tuple (value : String × String) :
      (render asNumber (.tuple [.string value.1, .string value.2])).Plain ↔
        PlainText value.1 ∧ PlainText value.2 := by
    rw [render_tuple, plain_array]
    simp [string]
  have values : (∀ entry ∈ entryDict e, (render asNumber entry.2).Plain) ↔
      PlainText e.pgName.1 ∧ PlainText e.pgName.2 ∧ PlainText e.profilingName := by
    cases duration : e.duration with
    | none =>
      simp only [entryDict, duration, forall_mem_append, forall_mem_cons, int, bool,
        string, tuple, plain_sizes, plain_dtypes, plain_time, plain_state]
      tauto
    | some taken =>
      simp only [entryDict, duration, forall_mem_append, forall_mem_cons, int, bool,
        double, string, tuple, plain_sizes, plain_dtypes, plain_time, plain_state]
      tauto
  rw [render_dict, plain_object, ← values]
  simp only [forall_mem_map]
  exact forall₂_congr fun entry there => and_iff_right (keys entry there)

end Parts

section Conditions

variable (surroundings : Surroundings) (bcclDumpMap : Option DumpMap)
  (includeCollectives onlyActive : Bool) (recorder : FlightRecorder)

structure PlainStrings : Prop where
  groups : ∀ group, FirstOf (fun group : Group => group.1.1) recorder.pgNameToRanks group →
    PlainText group.1.1 ∧ PlainText group.1.2
  entries : includeCollectives = true → ∀ e ∈ recorder.entries,
    (onlyActive = true → (updateState surroundings.queries e).timeDiscoveredCompleted = none) →
    PlainText e.pgName.1 ∧ PlainText e.pgName.2 ∧ PlainText e.profilingName
  comms : ∀ comm ∈ bcclDumpMap.getD [], PlainText comm.1

/-- With the collectives there is an entry, and no communicator, or one that says nothing. Without
them there is no communicator. -/
def Shape : Prop :=
  if includeCollectives then
    recorder.entries ≠ [] ∧ (bcclDumpMap = none ∨ ∃ comm, bcclDumpMap = some [(comm, [])])
  else bcclDumpMap.getD [] = []

end Conditions

section Faithfulness

variable {surroundings : Surroundings} {bcclDumpMap : Option DumpMap}
  {includeCollectives onlyActive : Bool} {recorder : FlightRecorder}

theorem mem_dumpEntries {queries : Queries} {e : Entry} :
    e ∈ recorder.dumpEntries queries ↔ ∃ r ∈ recorder.entries,
      { updateState queries r with startEvent := none, endEvent := none } = e := by
  rw [FlightRecorder.dumpEntries, mem_map]
  have same (r : Entry) : r ∈ recorder.entries.drop recorder.next ++
      recorder.entries.take recorder.next ↔ r ∈ recorder.entries := by
    rw [mem_append, or_comm, ← mem_append, take_append_drop]
  simp only [same]

theorem dumpEntries_isEmpty {queries : Queries} :
    (recorder.dumpEntries queries).isEmpty = true ↔ recorder.entries = [] := by
  rw [FlightRecorder.dumpEntries, isEmpty_map, isEmpty_iff_length_eq_zero, ← length_eq_zero_iff]
  simp only [length_append, length_drop, length_take]
  omega

theorem plain_entries : (entriesValue surroundings onlyActive recorder).Plain ↔
    ∀ e ∈ recorder.entries,
      (onlyActive = true → (updateState surroundings.queries e).timeDiscoveredCompleted = none) →
      PlainText e.pgName.1 ∧ PlainText e.pgName.2 ∧ PlainText e.profilingName := by
  have left (r : Entry) : (!(onlyActive && (updateState surroundings.queries
      r).timeDiscoveredCompleted.isSome)) = true ↔ (onlyActive = true →
        (updateState surroundings.queries r).timeDiscoveredCompleted = none) := by
    cases onlyActive <;> simp
  rw [entriesValue, plain_array]
  simp only [forall_mem_map, plain_entry, shown, mem_filter, mem_dumpEntries]
  constructor
  · intro all e there active
    exact all { updateState surroundings.queries e with startEvent := none, endEvent := none }
      ⟨⟨e, there, rfl⟩, (left e).mpr active⟩
  · rintro all _ ⟨⟨e, there, rfl⟩, active⟩
    exact all e there ((left e).mp active)

theorem plain_expected : (Value.object (expectedMembers surroundings bcclDumpMap includeCollectives
    onlyActive recorder)).Plain ↔ (render asNumber (.dict (getPgConfig recorder))).Plain ∧
      (render asText (.dict (getPgStatus surroundings recorder))).Plain ∧
      (includeCollectives = true → (entriesValue surroundings onlyActive recorder).Plain) ∧
      (mapsValue (bcclDumpMap.getD [])).Plain := by
  have names : PlainText "version" ∧ PlainText "pg_config" ∧ PlainText "pg_status" ∧
    PlainText "entries" ∧ PlainText "bccl_comm_state" := by decide
  have version : (stringValue "2.4").Plain := plain_stringValue.mpr (by decide)
  have comms : (∀ member ∈ (if (bcclDumpMap.getD []).isEmpty then []
      else [("bccl_comm_state".toList, mapsValue (bcclDumpMap.getD []))]),
      (∀ char ∈ member.1, Plain char) ∧ member.2.Plain) ↔
      (mapsValue (bcclDumpMap.getD [])).Plain := by
    cases bcclDumpMap.getD [] with
    | nil => simp [mapsValue, plain_object]
    | cons comm rest =>
      simp only [isEmpty_cons, Bool.false_eq_true, if_false, forall_mem_singleton]
      exact and_iff_right names.2.2.2.2
  have entries : (∀ member ∈ (if includeCollectives then
      [("entries".toList, entriesValue surroundings onlyActive recorder)] else []),
      (∀ char ∈ member.1, Plain char) ∧ member.2.Plain) ↔
      (includeCollectives = true → (entriesValue surroundings onlyActive recorder).Plain) := by
    cases includeCollectives with
    | false => simp
    | true =>
      simp only [if_true, forall_mem_singleton, forall_const]
      exact and_iff_right names.2.2.2.1
  rw [plain_object, expectedMembers, forall_mem_append, comms, forall_mem_append, entries]
  constructor
  · rintro ⟨⟨front, entries⟩, comms⟩
    simp only [forall_mem_cons] at front
    exact ⟨front.2.1.2, front.2.2.1.2, entries, comms⟩
  · rintro ⟨config, status, entries, comms⟩
    refine ⟨⟨?_, entries⟩, comms⟩
    simp only [forall_mem_cons]
    exact ⟨⟨names.1, version⟩, ⟨names.2.1, config⟩, ⟨names.2.2.1, status⟩, by simp⟩

theorem plainStrings_of_expected
    (plain : (Value.object (expectedMembers surroundings bcclDumpMap includeCollectives
      onlyActive recorder)).Plain) :
    PlainStrings surroundings bcclDumpMap includeCollectives onlyActive recorder := by
  obtain ⟨config, _, entries, comms⟩ := plain_expected.mp plain
  exact ⟨plain_config.mp config, fun included => plain_entries.mp (entries included),
    fun comm there => (plain_mapsValue.mp comms comm there).1⟩

theorem expected_of_plainStrings (keyed : Keyed recorder bcclDumpMap)
    (plain : PlainStrings surroundings bcclDumpMap includeCollectives onlyActive recorder)
    (shape : Shape bcclDumpMap includeCollectives recorder) :
    (Value.object (expectedMembers surroundings bcclDumpMap includeCollectives onlyActive
      recorder)).Plain := by
  refine plain_expected.mpr ⟨plain_config.mpr plain.groups,
    (equal_status surroundings keyed.statuses).plain.mp (plain_status surroundings keyed.statuses),
    fun included => plain_entries.mpr (plain.entries included), plain_mapsValue.mpr ?_⟩
  intro comm there
  refine ⟨plain.comms comm there, ?_⟩
  have silent : comm.2 = [] := by
    unfold Shape at shape
    split at shape
    · rcases shape.2 with rfl | ⟨name, rfl⟩
      · simp at there
      · rw [mem_singleton.mp there]
    · rw [shape] at there
      simp at there
  simp [silent]

theorem equal_expected (keyed : Keyed recorder bcclDumpMap)
    (shape : Shape bcclDumpMap includeCollectives recorder) :
    Equal (.object (frontMembers surroundings recorder includeCollectives onlyActive ++
        commMembers bcclDumpMap includeCollectives))
      (.object (expectedMembers surroundings bcclDumpMap includeCollectives onlyActive
        recorder)) := by
  have front (rest : List (List Char × Json.Value)) : EqualMembers
      ([("version".toList, stringValue "2.4"),
        ("pg_config".toList, mapsValue (getPgConfigJson recorder)),
        ("pg_status".toList, mapsValue (getPgStatusJson surroundings recorder))] ++ rest)
      ([("version".toList, stringValue "2.4"),
        ("pg_config".toList, render asNumber (.dict (getPgConfig recorder))),
        ("pg_status".toList, render asText (.dict (getPgStatus surroundings recorder)))] ++ rest) :=
    .cons (.refl _) (.cons (equal_config recorder) (.cons (equal_status surroundings keyed.statuses)
      (.refl rest)))
  have same : (if includeCollectives && !(recorder.dumpEntries surroundings.queries).isEmpty then
        [("entries".toList, entriesValue surroundings onlyActive recorder)] else []) ++
      commMembers bcclDumpMap includeCollectives =
      (if includeCollectives then
        [("entries".toList, entriesValue surroundings onlyActive recorder)] else []) ++
      (if (bcclDumpMap.getD []).isEmpty then []
        else [("bccl_comm_state".toList, mapsValue (bcclDumpMap.getD []))]) := by
    cases includeCollectives with
    | false =>
      have silent : bcclDumpMap.getD [] = [] := shape
      simp [silent, commMembers]
    | true =>
      obtain ⟨some, comms⟩ := shape
      have more : (recorder.dumpEntries surroundings.queries).isEmpty = false := by
        rw [← Bool.not_eq_true, dumpEntries_isEmpty]
        exact some
      rcases comms with rfl | ⟨comm, rfl⟩
      · simp [more, commMembers]
      · simp [more, commMembers]
  rw [frontMembers, expectedMembers, append_assoc, same, append_assoc]
  exact .object (.refl _) (front _)

theorem keys_written : (frontMembers surroundings recorder includeCollectives onlyActive ++
      commMembers bcclDumpMap includeCollectives).map Prod.fst =
    (["version", "pg_config", "pg_status"] ++
      (if includeCollectives && !(recorder.dumpEntries surroundings.queries).isEmpty then
        ["entries"] else []) ++
      (if includeCollectives && bcclDumpMap.isSome then ["bccl_comm_state"] else [])).map
        String.toList := by
  cases includeCollectives with
  | false => rfl
  | true =>
    cases bcclDumpMap with
    | none =>
      cases empty : (recorder.dumpEntries surroundings.queries).isEmpty with
      | false => simp only [frontMembers, empty]; rfl
      | true => simp only [frontMembers, empty]; rfl
    | some map =>
      cases empty : (recorder.dumpEntries surroundings.queries).isEmpty with
      | false => simp only [frontMembers, empty]; rfl
      | true => simp only [frontMembers, empty]; rfl

theorem keys_expected : (expectedMembers surroundings bcclDumpMap includeCollectives onlyActive
      recorder).map Prod.fst =
    (["version", "pg_config", "pg_status"] ++ (if includeCollectives then ["entries"] else []) ++
      (if (bcclDumpMap.getD []).isEmpty then [] else ["bccl_comm_state"])).map String.toList := by
  cases includeCollectives with
  | false =>
    cases empty : (bcclDumpMap.getD []).isEmpty with
    | false => simp only [expectedMembers, empty]; rfl
    | true => simp only [expectedMembers, empty]; rfl
  | true =>
    cases empty : (bcclDumpMap.getD []).isEmpty with
    | false => simp only [expectedMembers, empty]; rfl
    | true => simp only [expectedMembers, empty]; rfl

theorem shape_of_keys (balanced : Balanced bcclDumpMap includeCollectives)
    (equal : Equal (.object (frontMembers surroundings recorder includeCollectives onlyActive ++
        commMembers bcclDumpMap includeCollectives))
      (.object (expectedMembers surroundings bcclDumpMap includeCollectives onlyActive recorder))) :
    Shape bcclDumpMap includeCollectives recorder := by
  have same := equal.keys
  rw [keys_written, keys_expected] at same
  have keys (key : String) := same.mem_iff (a := key.toList)
  simp only [mem_map_of_injective (fun _ _ => String.toList_inj.mp)] at keys
  have entries := keys "entries"
  have comms := keys "bccl_comm_state"
  unfold Shape
  cases included : includeCollectives with
  | false =>
    rw [included] at comms
    simpa using comms
  | true =>
    rw [included] at entries comms
    have written : (recorder.dumpEntries surroundings.queries).isEmpty = false := by
      simpa using entries
    have shown : bcclDumpMap.isSome = true ↔ bcclDumpMap.getD [] ≠ [] := by
      simpa using comms
    refine ⟨fun none => ?_, ?_⟩
    · rw [dumpEntries_isEmpty.mpr none] at written
      cases written
    · cases bcclDumpMap with
      | none => exact .inl rfl
      | some map =>
        rcases balanced included map rfl with rfl | ⟨comm, rfl⟩
        · exact absurd rfl (shown.mp rfl)
        · exact .inr ⟨comm, rfl⟩

theorem readMembers_comma_fails (text : List Char) (fuel : Nat) :
    readMembers fuel (',' :: text) = none := by
  cases fuel with
  | zero => simp [readMembers]
  | succ fuel => simp [readMembers, skipSpace, isSpace]

theorem readMembers_key_fails {key : String} (plain : PlainText key) {text : List Char}
    (fails : ∀ fuel value rest, readValue fuel text = some (value, rest) →
      ∀ next, skipSpace rest ≠ ',' :: next ∧ skipSpace rest ≠ '\x7d' :: next) (fuel : Nat) :
    readMembers fuel (quoted key ++ [' ', ':', ' '] ++ text) = none := by
  have none := readMembers_value_fails plain (show skipSpace [' '] = [] from rfl)
    (show skipSpace [' '] = [] from rfl) fails fuel
  simpa [quoted] using none

theorem readMembers_comms_fails {map : DumpMap} (more : map ≠ [])
    (several : ∀ comm, map ≠ [(comm, [])]) (plain : ∀ comm ∈ map, PlainText comm.1) (before : Char)
    (rest : List Char) (fuel : Nat) :
    readMembers fuel (writeAll (fun before pair => keyValueUnordered pair.1 pair.2 before) before
      map ++ rest) = none := by
  obtain _ | ⟨⟨name, pairs⟩, others⟩ := map
  · exact absurd rfl more
  · have key := plain _ (.head _)
    cases pairs with
    | cons pair pairs =>
      have object (text : List Char) (fuel : Nat) : readValue fuel ('\x7b' :: ',' :: text) = none :=
        readValue_fails (readMembers_comma_fails text) (by simp [skipSpace, isSpace]) fuel
      have fails := readMembers_key_fails key (fun fuel _ _ reads => by
        rw [object ((quoted pair.1 ++ [' ', ':', ' '] ++ quoted pair.2) ++
          (pairs.flatMap (fun pair => keyValueString pair.1 pair.2 ',') ++ ['\x7d'] ++
            writeAll (fun before pair => keyValueUnordered pair.1 pair.2 before) ',' others ++
              rest)) fuel] at reads
        cases reads) fuel
      simpa [writeAll, keyValueUnordered, keyValueString] using fails
    | nil =>
      obtain _ | ⟨⟨other, pairs⟩, others⟩ := others
      · exact absurd rfl (several name)
      · have empty (text : List Char) (fuel : Nat) (value : Json.Value) (left : List Char)
            (reads : readValue fuel ('\x7b' :: '\x7d' :: text) = some (value, left)) :
            left = text := by
          cases fuel with
          | zero => simp [readValue] at reads
          | succ fuel =>
            simp [readValue, skipSpace, isSpace] at reads
            exact reads.2.symm
        have fails := readMembers_key_fails key (fun fuel value left reads next => by
          rw [empty (writeAll (fun before pair => keyValueUnordered pair.1 pair.2 before) ','
            ((other, pairs) :: others) ++ rest) fuel value left reads]
          simp [writeAll, keyValueUnordered, quoted, skipSpace, isSpace]) fuel
        simpa [writeAll, keyValueUnordered] using fails

theorem plain_front (keyed : Keyed recorder bcclDumpMap)
    (plain : (Value.object (expectedMembers surroundings bcclDumpMap includeCollectives onlyActive
      recorder)).Plain) :
    (Value.object (frontMembers surroundings recorder includeCollectives onlyActive)).Plain := by
  obtain ⟨config, status, entries, _⟩ := plain_expected.mp plain
  have names : PlainText "version" ∧ PlainText "pg_config" ∧ PlainText "pg_status" ∧
    PlainText "entries" := by decide
  have version : (stringValue "2.4").Plain := plain_stringValue.mpr (by decide)
  rw [plain_object, frontMembers, forall_mem_append]
  constructor
  · simp only [forall_mem_cons]
    exact ⟨⟨names.1, version⟩, ⟨names.2.1, (equal_config recorder).plain.mpr config⟩,
      ⟨names.2.2.1, (equal_status surroundings keyed.statuses).plain.mpr status⟩, by simp⟩
  · split
    · next included =>
        rw [Bool.and_eq_true] at included
        rw [forall_mem_singleton]
        exact ⟨names.2.2.2, entries included.1⟩
    · simp

theorem plain_written (keyed : Keyed recorder bcclDumpMap)
    (plain : (Value.object (expectedMembers surroundings bcclDumpMap includeCollectives onlyActive
      recorder)).Plain) :
    (Value.object (frontMembers surroundings recorder includeCollectives onlyActive ++
      commMembers bcclDumpMap includeCollectives)).Plain := by
  have front := plain_front keyed plain
  obtain ⟨_, _, _, comms⟩ := plain_expected.mp plain
  have name : PlainText "bccl_comm_state" := by decide
  rw [plain_object] at front ⊢
  rw [forall_mem_append]
  refine ⟨front, ?_⟩
  unfold commMembers
  split
  · cases bcclDumpMap with
    | none => simp
    | some map =>
      rw [Option.toList_some, map_singleton, forall_mem_singleton]
      exact ⟨name, comms⟩
  · simp

theorem decode_unbalanced (keyed : Keyed recorder bcclDumpMap)
    (unbalanced : ¬ Balanced bcclDumpMap includeCollectives)
    (plain : (Value.object (expectedMembers surroundings bcclDumpMap includeCollectives onlyActive
      recorder)).Plain) :
    decode (dumpJson surroundings bcclDumpMap includeCollectives onlyActive recorder) = none := by
  simp only [Balanced, not_forall, not_or, not_exists] at unbalanced
  obtain ⟨rfl, map, rfl, more, several⟩ := unbalanced
  obtain ⟨texts, spelled, same⟩ := listed_of_written
    (writes_front surroundings recorder true onlyActive)
  have reads := readsMember_of_spells spelled (plain_front keyed plain)
  have nonempty : texts ≠ [] := by
    rintro rfl
    cases spelled
  have comms (comm) (there : comm ∈ map) : PlainText comm.1 :=
    (plain_mapsValue.mp (plain_expected.mp plain).2.2.2 comm there).1
  have object (rest : List Char) (fuel : Nat) : readValue fuel ('\x7b' ::
      (writeAll (fun before pair => keyValueUnordered pair.1 pair.2 before) ' ' map ++ rest)) =
        none := by
    refine readValue_fails (readMembers_comms_fails more several comms ' ' rest) ?_ fuel
    obtain _ | ⟨⟨name, pairs⟩, others⟩ := map
    · exact absurd rfl more
    · simp [writeAll, keyValueUnordered, quoted, skipSpace, isSpace]
  have fails (fuel : Nat) := readMembers_key_fails (show PlainText "bccl_comm_state" by decide)
    (fun fuel _ _ reads => by
      rw [object ['\x7d', '\x7d'] fuel] at reads
      cases reads) fuel
  have split : writeAll inTurn ' ' (frontWriters surroundings recorder true onlyActive ++
        commWriters (some map) true) =
      listed ' ' texts ++ writeAll inTurn ',' (commWriters (some map) true) := by
    rw [← same]
    exact writeAll_append inTurn ' ' _ _ _
  have none := decode_fails reads nonempty fails
  rw [dumpJson_eq, split]
  simpa [commWriters, writeAll, inTurn, keyValueUnorderedMaps] using none

theorem balanced_of_shape (shape : Shape bcclDumpMap includeCollectives recorder) :
    Balanced bcclDumpMap includeCollectives := by
  rintro rfl map rfl
  rcases shape.2 with none | ⟨comm, same⟩
  · cases none
  · cases same
    exact .inr ⟨comm, rfl⟩

theorem faithful_iff (keyed : Keyed recorder bcclDumpMap) :
    Faithful (dumpJson surroundings bcclDumpMap includeCollectives onlyActive recorder)
      (dump surroundings bcclDumpMap includeCollectives onlyActive recorder) ↔
      PlainStrings surroundings bcclDumpMap includeCollectives onlyActive recorder ∧
        Shape bcclDumpMap includeCollectives recorder := by
  rw [Faithful, renderDump_eq keyed]
  constructor
  · rintro ⟨found, decodes, equal⟩
    have plain := plain_of_decode (light_dump keyed includeCollectives onlyActive) decodes equal
    refine ⟨plainStrings_of_expected plain, ?_⟩
    by_cases balanced : Balanced bcclDumpMap includeCollectives
    · have written := plain_written keyed plain
      rw [decode_of_reads ((spells_dump balanced onlyActive).reads written)] at decodes
      cases decodes
      exact shape_of_keys balanced equal
    · rw [decode_unbalanced keyed balanced plain] at decodes
      cases decodes
  · rintro ⟨strings, shape⟩
    exact (understood_iff (spells_dump (balanced_of_shape shape) onlyActive)
      (equal_expected keyed shape)).mpr (expected_of_plainStrings keyed strings shape)

theorem readSizes_flatMap (tensors : List Tensor) (rest : List Int) :
    readSizes (tensors.map fun tensor => (tensor.sizes.length : Int))
      (tensors.flatMap Tensor.sizes ++ rest) = (tensors.map Tensor.sizes, rest) := by
  induction tensors with
  | nil => rfl
  | cons tensor tensors ih => simp [readSizes, ih]

theorem sizes_newEntry (recorder : FlightRecorder) (given : Arguments) :
    (recorder.newEntry given).inputSizes = given.inputs.map Tensor.sizes ∧
      (recorder.newEntry given).outputSizes = given.outputs.map Tensor.sizes := by
  have inputs := readSizes_flatMap given.inputs (given.outputs.flatMap Tensor.sizes)
  have outputs := readSizes_flatMap given.outputs []
  rw [append_nil] at outputs
  constructor
  · rw [Entry.inputSizes, FlightRecorder.newEntry, inputs]
  · rw [Entry.outputSizes, FlightRecorder.newEntry, inputs, outputs]

/-- The JSON dump is well-formed and says what the pickled dump says just when its strings are
plain and the right parts are there. The sizes in both are the shapes of the tensors. -/
theorem json_dump_faithful_iff (keyed : Keyed recorder bcclDumpMap) :
    (Faithful (dumpJson surroundings bcclDumpMap includeCollectives onlyActive recorder)
      (dump surroundings bcclDumpMap includeCollectives onlyActive recorder) ↔
      PlainStrings surroundings bcclDumpMap includeCollectives onlyActive recorder ∧
        Shape bcclDumpMap includeCollectives recorder) ∧
    ∀ given, (recorder.newEntry given).inputSizes = given.inputs.map Tensor.sizes ∧
      (recorder.newEntry given).outputSizes = given.outputs.map Tensor.sizes :=
  ⟨faithful_iff keyed, sizes_newEntry recorder⟩

def sampleArguments : Arguments where
  pgId := 0
  pgName := ("0", "default_pg")
  collectiveSeqId := 1
  p2pSeqId := 0
  opId := 1
  profilingName := "bccl:all_reduce"
  inputs := [⟨[2, 3], .float⟩]
  outputs := [⟨[2, 3], .float⟩]
  startEvent := none
  endEvent := none
  timeoutMs := 1000
  pgStatus := 0
  isP2P := false
  traceback := 0
  now := 5

def sampleRecorder (desc : String) : FlightRecorder :=
  (((FlightRecorder.new 1).recordPgRanks ("0", desc) [0, 1]).record sampleArguments).1

def sampleSurroundings : Surroundings where
  queries := { query := fun _ => false, now := 7 }
  statuses _ := {}

theorem sample_dump_faithful : Keyed (sampleRecorder "default_pg") none ∧
      Faithful (dumpJson sampleSurroundings none true false (sampleRecorder "default_pg"))
        (dump sampleSurroundings none true false (sampleRecorder "default_pg")) := by
  have keyed : Keyed (sampleRecorder "default_pg") none := ⟨by decide, by decide, by simp⟩
  refine ⟨keyed, (json_dump_faithful_iff keyed).1.mpr ⟨⟨?_, ?_, by simp⟩, ?_⟩⟩
  · rintro group ⟨before, after, same, _⟩
    have there : group ∈ (sampleRecorder "default_pg").pgNameToRanks := by
      rw [same]
      simp
    rw [show (sampleRecorder "default_pg").pgNameToRanks = [(("0", "default_pg"), [0, 1])] from rfl,
      mem_singleton] at there
    rw [there]
    decide
  · intro _ e there _
    revert e
    decide
  · exact ⟨by decide, .inl rfl⟩

/-- A quote in the description of a group, an empty recorder, an empty map of communicators and
one that says something. -/
theorem json_dump_unfaithful :
    ¬ Faithful (dumpJson sampleSurroundings none true false (sampleRecorder "a\"b"))
      (dump sampleSurroundings none true false (sampleRecorder "a\"b")) ∧
    ¬ Faithful (dumpJson sampleSurroundings none true false (FlightRecorder.new 1))
      (dump sampleSurroundings none true false (FlightRecorder.new 1)) ∧
    ¬ Faithful (dumpJson sampleSurroundings (some []) true false (sampleRecorder "default_pg"))
      (dump sampleSurroundings (some []) true false (sampleRecorder "default_pg")) ∧
    ¬ Faithful (dumpJson sampleSurroundings (some [("0", [("rank", "0")])]) true false
        (sampleRecorder "default_pg"))
      (dump sampleSurroundings (some [("0", [("rank", "0")])]) true false
        (sampleRecorder "default_pg")) := by
  refine ⟨fun faithful => ?_, fun faithful => ?_, fun faithful => ?_, fun faithful => ?_⟩
  · have plain := ((faithful_iff ⟨by decide, by decide, by simp⟩).mp faithful).1.groups
      (("0", "a\"b"), [0, 1]) ⟨[], [], rfl, by simp⟩
    revert plain
    decide
  · exact ((faithful_iff ⟨by decide, by decide, by simp⟩).mp faithful).2.1 rfl
  · have shape := ((faithful_iff ⟨by decide, by decide, by simp⟩).mp faithful).2.2
    simp at shape
  · have shape := ((faithful_iff ⟨by decide, by decide, by simp⟩).mp faithful).2.2
    simp at shape

end Faithfulness

end TorchSupa.Recorder
