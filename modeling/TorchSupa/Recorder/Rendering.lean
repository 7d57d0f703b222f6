import TorchSupa.Logic.JsonSpelling
import TorchSupa.Recorder.Dump
import Mathlib.Data.List.Induction
import Mathlib.Data.List.Nodup

/-!
What the JSON dump should say: the dictionary that is pickled, with the numbers that stand in it for
what JSON has no value for. The maps that the JSON dump makes of the process groups are shown to
have what the dictionary has of them.
-/

namespace TorchSupa.Recorder

open Json Function List

section Rendering

mutual

/-- A value of the dictionary in JSON: flags are numbers, a time that is missing is 0, a duration
is cut off. -/
def render (number : Int → Json.Value) : IValue → Json.Value
  | .none => number 0
  | .bool value => number (flag value)
  | .int value => number value
  | .double value => number (truncated value)
  | .string text => .string text.toList
  | .tuple items => .array (renderItems number items)
  | .list items => .array (renderItems number items)
  | .dict entries => .object (renderEntries number entries)

def renderItems (number : Int → Json.Value) : List IValue → List Json.Value
  | [] => []
  | item :: items => render number item :: renderItems number items

def renderEntries (number : Int → Json.Value) :
    List (String × IValue) → List (List Char × Json.Value)
  | [] => []
  | (key, value) :: entries => (key.toList, render number value) :: renderEntries number entries

end

def asNumber (value : Int) : Json.Value := .number value

def asText (value : Int) : Json.Value := .string (toString value).toList

def renderDump : IValue → Json.Value
  | .dict entries => .object (entries.map fun entry =>
    (entry.1.toList, render (if entry.1 = "pg_status" then asText else asNumber) entry.2))
  | other => render asNumber other

def Faithful (text : List Char) (dumped : IValue) : Prop :=
  ∃ found, decode text = some found ∧ Equal found (renderDump dumped)

variable {number : Int → Json.Value}

theorem renderItems_eq (items : List IValue) :
    renderItems number items = items.map (render number) := by
  induction items with
  | nil => rfl
  | cons item items ih => simp [renderItems, ih]

theorem renderEntries_eq (entries : List (String × IValue)) : renderEntries number entries =
      entries.map fun entry => (entry.1.toList, render number entry.2) := by
  induction entries with
  | nil => rfl
  | cons entry entries ih => simp [renderEntries, ih]

@[simp] theorem render_list (items : List IValue) :
    render number (.list items) = .array (items.map (render number)) := by
  rw [render, renderItems_eq]

@[simp] theorem render_tuple (items : List IValue) :
    render number (.tuple items) = .array (items.map (render number)) := by
  rw [render, renderItems_eq]

@[simp] theorem render_dict (entries : List (String × IValue)) : render number (.dict entries) =
      .object (entries.map fun entry => (entry.1.toList, render number entry.2)) := by
  rw [render, renderEntries_eq]

end Rendering

section Dictionaries

variable {α ν μ : Type}

def inserted (key : α → String) (value : α → ν) (elements : List α) : List (String × ν) :=
  elements.foldl (fun dict element => insert (key element) (value element) dict) []

variable {dict : List (String × ν)}

theorem any_key {key : String} :
    dict.any (fun entry => decide (entry.1 = key)) = true ↔ key ∈ dict.map Prod.fst := by
  simp only [any_eq_true, decide_eq_true_eq, mem_map]

theorem insert_old {key : String} (there : key ∈ dict.map Prod.fst)
    (value : ν) : insert key value dict = dict :=
  if_pos (any_key.mpr there)

theorem insert_new {key : String} (new : key ∉ dict.map Prod.fst)
    (value : ν) : insert key value dict = dict ++ [(key, value)] :=
  if_neg fun there => new (any_key.mp there)

theorem inserted_append (key : α → String) (value : α → ν) (elements : List α) (element : α) :
    inserted key value (elements ++ [element]) =
      insert (key element) (value element) (inserted key value elements) := by
  simp [inserted]

theorem mem_keys_inserted (key : α → String) (value : α → ν) (elements : List α) (name : String) :
    name ∈ (inserted key value elements).map Prod.fst ↔ name ∈ elements.map key := by
  induction elements using reverseRecOn generalizing name with
  | nil => simp [inserted]
  | append_singleton elements element ih =>
    rw [inserted_append]
    by_cases there : key element ∈ (inserted key value elements).map Prod.fst
    · rw [insert_old there, ih, map_append, mem_append, map_singleton, mem_singleton]
      refine ⟨.inl, ?_⟩
      rintro (old | rfl)
      · exact old
      · exact (ih _).mp there
    · rw [insert_new there, map_append, mem_append, ih]
      simp

theorem inserted_map (key : α → String) (value : α → ν) (change : ν → μ) (elements : List α) :
    inserted key (fun element => change (value element)) elements =
      (inserted key value elements).map fun entry => (entry.1, change entry.2) := by
  induction elements using reverseRecOn with
  | nil => rfl
  | append_singleton elements element ih =>
    have keys : ((inserted key value elements).map
        fun entry => (entry.1, change entry.2)).map Prod.fst =
        (inserted key value elements).map Prod.fst := by
      simp
    rw [inserted_append, inserted_append, ih]
    by_cases there : key element ∈ (inserted key value elements).map Prod.fst
    · rw [insert_old there, insert_old (keys ▸ there)]
    · rw [insert_new there, insert_new (keys ▸ there)]
      simp

variable {elements : List α}

theorem inserted_of_nodup {key : α → String} (distinct : (elements.map key).Nodup) (value : α → ν) :
    inserted key value elements = elements.map fun element => (key element, value element) := by
  induction elements using reverseRecOn with
  | nil => rfl
  | append_singleton elements element ih =>
    rw [map_append, nodup_append] at distinct
    obtain ⟨before, _, apart⟩ := distinct
    have new : key element ∉ (inserted key value elements).map Prod.fst := by
      rw [mem_keys_inserted]
      exact fun there => apart _ there _ (by simp) rfl
    rw [inserted_append, insert_new new, ih before]
    simp

def FirstOf (key : α → String) (elements : List α) (element : α) : Prop :=
  ∃ before after, elements = before ++ element :: after ∧
    ∀ other ∈ before, key other ≠ key element

theorem firstOf_append {key : α → String} {last element : α} :
    FirstOf key (elements ++ [last]) element ↔
      FirstOf key elements element ∨ element = last ∧ key last ∉ elements.map key := by
  constructor
  · rintro ⟨before, after, same, first⟩
    rcases eq_nil_or_concat after with rfl | ⟨after, final, rfl⟩
    · obtain ⟨rfl, last⟩ := append_inj' same rfl
      cases last
      refine .inr ⟨rfl, fun there => ?_⟩
      obtain ⟨other, inside, key⟩ := mem_map.mp there
      exact first other inside key
    · rw [concat_eq_append, ← cons_append, ← append_assoc] at same
      obtain ⟨rfl, _⟩ := append_inj' same rfl
      exact .inl ⟨before, after, rfl, first⟩
  · rintro (⟨before, after, rfl, first⟩ | ⟨rfl, new⟩)
    · exact ⟨before, after ++ [last], by simp, first⟩
    · exact ⟨elements, [], rfl, fun other there same => new (mem_map.mpr ⟨other, there, same⟩)⟩

theorem mem_inserted {key : α → String} {name : String} {element : α} :
    (name, element) ∈ inserted key (fun element => element) elements ↔
      key element = name ∧ FirstOf key elements element := by
  induction elements using reverseRecOn with
  | nil => simp [inserted, FirstOf]
  | append_singleton elements last ih =>
    rw [inserted_append, firstOf_append, ← mem_keys_inserted key (fun element => element)]
    by_cases there : key last ∈ (inserted key (fun element => element) elements).map Prod.fst
    · rw [insert_old there, ih]
      simp [there]
    · rw [insert_new there, mem_append, ih, mem_singleton]
      simp only [there, not_false_eq_true, and_true, Prod.mk.injEq]
      constructor
      · rintro (⟨same, first⟩ | ⟨rfl, rfl⟩)
        · exact ⟨same, .inl first⟩
        · exact ⟨rfl, .inr rfl⟩
      · rintro ⟨same, first | rfl⟩
        · exact .inl ⟨same, first⟩
        · exact .inr ⟨same.symm, rfl⟩

end Dictionaries

section Maps

variable {α ν : Type}

theorem assign_new {κ : Type} [DecidableEq κ] {less : κ → κ → Bool} {key : κ}
    {map : List (κ × ν)} (new : key ∉ map.map Prod.fst) (value : ν) :
    (assign less key value map).Perm ((key, value) :: map) := by
  induction map with
  | nil => exact .refl _
  | cons entry map ih =>
    simp only [map_cons, mem_cons, not_or] at new
    rw [assign]
    split
    · exact .refl _
    · rw [if_neg fun same => new.1 same.symm]
      exact ((ih new.2).cons _).trans (.swap _ _ _)

theorem emplace_perm {key : String} {value : ν} {map dict : List (String × ν)}
    (perm : map.Perm dict) : (emplace key value map).Perm (insert key value dict) := by
  have keys := (perm.map Prod.fst).mem_iff (a := key)
  by_cases there : key ∈ dict.map Prod.fst
  · rw [insert_old there, emplace, if_pos (any_key.mpr (keys.mpr there))]
    exact perm
  · have new : key ∉ map.map Prod.fst := fun old => there (keys.mp old)
    rw [insert_new there, emplace, if_neg fun old => new (any_key.mp old)]
    exact (assign_new new value).trans ((perm.cons _).trans (perm_append_singleton _ _).symm)

theorem emplaced_perm (key : α → String) (value : α → ν) (elements : List α) :
    (elements.foldl (fun map element => emplace (key element) (value element) map) []).Perm
      (inserted key value elements) := by
  induction elements using reverseRecOn with
  | nil => exact .refl _
  | append_singleton elements element ih =>
    rw [inserted_append, foldl_append, foldl_cons, foldl_nil]
    exact emplace_perm ih

theorem assigned_perm (less : String → String → Bool) {key : α → String} (value : α → ν)
    {elements : List α} (distinct : (elements.map key).Nodup) :
    (elements.foldl (fun map element => assign less (key element) (value element) map) []).Perm
      (elements.map fun element => (key element, value element)) := by
  induction elements using reverseRecOn with
  | nil => exact .refl _
  | append_singleton elements element ih =>
    rw [map_append, nodup_append] at distinct
    obtain ⟨before, _, apart⟩ := distinct
    have perm := ih before
    have new : key element ∉ (elements.foldl
        (fun map element => assign less (key element) (value element) map) []).map Prod.fst := by
      rw [(perm.map Prod.fst).mem_iff, map_map]
      exact fun there => apart _ there _ (by simp) rfl
    rw [foldl_append, foldl_cons, foldl_nil, map_append]
    exact (assign_new new _).trans ((perm.cons _).trans (perm_append_singleton _ _).symm)

end Maps

section Groups

variable {surroundings : Surroundings} {recorder : FlightRecorder}

abbrev Group := (String × String) × List Nat

def groupInfo (group : Group) : List (String × String) :=
  [("name", group.1.1), ("desc", group.1.2), ("ranks", ranksStr group.2)]

def stringDict (map : List (String × String)) : IValue :=
  .dict (map.map fun pair => (pair.1, .string pair.2))

def stringValue (text : String) : Json.Value := .string text.toList

def mapValue (map : List (String × String)) : Json.Value :=
  .object (map.map fun pair => (pair.1.toList, stringValue pair.2))

def mapsValue (maps : List (String × List (String × String))) : Json.Value :=
  .object (maps.map fun pair => (pair.1.toList, mapValue pair.2))

theorem render_stringDict (number : Int → Json.Value) (map : List (String × String)) :
    render number (stringDict map) = mapValue map := by
  have shown (text : String) : render number (.string text) = stringValue text := by
    rw [render, stringValue]
  simp [stringDict, mapValue, shown, comp_def]

def groups (recorder : FlightRecorder) : List (String × Group) :=
  inserted (fun group => group.1.1) (fun group => group) recorder.pgNameToRanks

theorem getPgConfig_eq : getPgConfig recorder =
    (groups recorder).map fun group => (group.1, stringDict (groupInfo group.2)) :=
  inserted_map _ _ (fun group => stringDict (groupInfo group)) _

theorem equal_mapValue {map other : List (String × String)} (perm : map.Perm other) :
    Equal (mapValue map) (mapValue other) :=
  equal_object (perm.map _) fun _ _ => .refl _

def groupInfoJson (group : Group) : List (String × String) :=
  assign lessString "ranks" (ranksStr group.2)
    (assign lessString "desc" group.1.2 (assign lessString "name" group.1.1 []))

theorem groupInfoJson_perm (group : Group) : (groupInfoJson group).Perm (groupInfo group) := by
  have sorted : groupInfoJson group =
      [("desc", group.1.2), ("name", group.1.1), ("ranks", ranksStr group.2)] := by
    have front : lessString "desc" "name" = true := by decide
    have behind : lessString "ranks" "desc" = false := by decide
    have last : lessString "ranks" "name" = false := by decide
    simp [groupInfoJson, assign, front, behind, last]
  rw [sorted]
  exact .swap _ _ _

theorem getPgConfigJson_perm (recorder : FlightRecorder) : (getPgConfigJson recorder).Perm
    ((groups recorder).map fun group => (group.1, groupInfoJson group.2)) := by
  have perm := emplaced_perm (fun group : Group => group.1.1) groupInfoJson recorder.pgNameToRanks
  rwa [inserted_map _ (fun group => group) groupInfoJson] at perm

theorem equal_config (recorder : FlightRecorder) : Equal (mapsValue (getPgConfigJson recorder))
    (render asNumber (.dict (getPgConfig recorder))) := by
  have perm := (getPgConfigJson_perm recorder).map fun pair => (pair.1.toList, mapValue pair.2)
  rw [map_map] at perm
  rw [render_dict, getPgConfig_eq, map_map]
  simp only [comp_def, render_stringDict] at perm ⊢
  exact equal_object perm fun group _ => equal_mapValue (groupInfoJson_perm group.2)

def statusInfo (status : ProcessGroupStatus) : List (String × Int) :=
  [("last_enqueued_collective", status.lastEnqueuedSeq),
    ("last_started_collective", status.lastStartedSeq),
    ("last_completed_collective", status.lastCompletedSeq)]

def statusInfoText (status : ProcessGroupStatus) : List (String × String) :=
  (statusInfo status).map fun pair => (pair.1, toString pair.2)

def statusInfoJson (status : ProcessGroupStatus) : List (String × String) :=
  assign lessString "last_completed_collective" (toString status.lastCompletedSeq)
    (assign lessString "last_started_collective" (toString status.lastStartedSeq)
      (assign lessString "last_enqueued_collective" (toString status.lastEnqueuedSeq) []))

theorem statusInfoJson_perm (status : ProcessGroupStatus) :
    (statusInfoJson status).Perm (statusInfoText status) := by
  have sorted : statusInfoJson status =
      [("last_completed_collective", toString status.lastCompletedSeq),
        ("last_enqueued_collective", toString status.lastEnqueuedSeq),
        ("last_started_collective", toString status.lastStartedSeq)] := by
    have behind : lessString "last_started_collective" "last_enqueued_collective" = false := by
      decide
    have front : lessString "last_completed_collective" "last_enqueued_collective" = true := by
      decide
    simp [statusInfoJson, assign, behind, front]
  rw [sorted]
  exact (perm_append_comm : ([_, _] ++ [_]).Perm ([_] ++ [_, _])).symm

/-- The maps have each key once, as those of the library do. -/
structure Keyed (recorder : FlightRecorder) (bcclDumpMap : Option DumpMap) : Prop where
  statuses : (recorder.allPgStatus.map Prod.fst).Nodup
  comms : ((bcclDumpMap.getD []).map Prod.fst).Nodup
  pairs : ∀ comm ∈ bcclDumpMap.getD [], (comm.2.map Prod.fst).Nodup

theorem toString_injective : Function.Injective (toString : Nat → String) := by
  intro number other same
  have digits : Nat.toDigits 10 number = Nat.toDigits 10 other := by
    rw [← Nat.toList_repr, ← Nat.toList_repr]
    exact congrArg String.toList same
  rw [← Nat.ofDigitChars_ten_toDigits (n := number), digits, Nat.ofDigitChars_ten_toDigits]

theorem keys_nodup {statuses : List (Nat × Nat)} (distinct : (statuses.map Prod.fst).Nodup) :
    (statuses.map fun group => toString group.1).Nodup := by
  have keys := Nodup.map toString_injective distinct
  rwa [map_map] at keys

theorem equal_status (surroundings : Surroundings)
    (distinct : (recorder.allPgStatus.map Prod.fst).Nodup) :
    Equal (mapsValue (getPgStatusJson surroundings recorder))
      (render asText (.dict (getPgStatus surroundings recorder))) := by
  have keys := keys_nodup distinct
  have written := assigned_perm lessString
    (fun group => statusInfoJson (surroundings.statuses group.2)) keys
  have perm := written.map fun pair => (pair.1.toList, mapValue pair.2)
  have dict := inserted_of_nodup keys fun group => IValue.dict
    ((statusInfo (surroundings.statuses group.2)).map fun pair => (pair.1, .int pair.2))
  have pickled : getPgStatus surroundings recorder = _ := dict
  rw [render_dict, pickled, map_map]
  rw [map_map] at perm
  simp only [comp_def] at perm ⊢
  apply equal_object perm
  intro group _
  have info := equal_mapValue (statusInfoJson_perm (surroundings.statuses group.2))
  have shown (value : Int) : render asText (.int value) = stringValue (toString value) := by
    rw [render, asText, stringValue]
  simpa [mapValue, statusInfoText, shown, comp_def] using info

theorem perCommDict_eq {bcclDumpMap : DumpMap} (comms : (bcclDumpMap.map Prod.fst).Nodup)
    (pairs : ∀ comm ∈ bcclDumpMap, (comm.2.map Prod.fst).Nodup) :
    bcclDumpMap.foldl (fun comms comm => insert comm.1 (.dict (comm.2.foldl (fun inner pair =>
      insert pair.1 (.string pair.2) inner) [])) comms) [] =
      bcclDumpMap.map fun comm => (comm.1, stringDict comm.2) := by
  have outer := inserted_of_nodup comms fun comm => IValue.dict
    (inserted Prod.fst (fun pair => IValue.string pair.2) comm.2)
  refine Eq.trans outer (map_congr_left fun comm there => ?_)
  rw [inserted_of_nodup (pairs comm there), stringDict]

def entriesValue (surroundings : Surroundings) (onlyActive : Bool) (recorder : FlightRecorder) :
    Json.Value :=
  .array ((shown onlyActive (recorder.dumpEntries surroundings.queries)).map
    fun e => render asNumber (.dict (entryDict e)))

def expectedMembers (surroundings : Surroundings) (bcclDumpMap : Option DumpMap)
    (includeCollectives onlyActive : Bool) (recorder : FlightRecorder) :
    List (List Char × Json.Value) :=
  [("version".toList, stringValue "2.4"),
    ("pg_config".toList, render asNumber (.dict (getPgConfig recorder))),
    ("pg_status".toList, render asText (.dict (getPgStatus surroundings recorder)))] ++
  (if includeCollectives then
    [("entries".toList, entriesValue surroundings onlyActive recorder)] else []) ++
  (if (bcclDumpMap.getD []).isEmpty then []
    else [("bccl_comm_state".toList, mapsValue (bcclDumpMap.getD []))])

theorem renderDump_eq {bcclDumpMap : Option DumpMap} (keyed : Keyed recorder bcclDumpMap)
    (includeCollectives onlyActive : Bool) :
    renderDump (dump surroundings bcclDumpMap includeCollectives onlyActive recorder) =
      .object (expectedMembers surroundings bcclDumpMap includeCollectives onlyActive recorder) := by
  have entries : render asNumber (.list (getCollectiveTrace surroundings onlyActive recorder)) =
      entriesValue surroundings onlyActive recorder := by
    rw [render_list, getCollectiveTrace, map_map]
    rfl
  have comms : render asNumber (.dict ((bcclDumpMap.getD []).map
      fun comm => (comm.1, stringDict comm.2))) = mapsValue (bcclDumpMap.getD []) := by
    rw [render_dict, map_map, mapsValue]
    simp only [comp_def, render_stringDict]
  have version : render asNumber (.string "2.4") = stringValue "2.4" := by
    rw [render, stringValue]
  simp only [dump, perCommDict_eq keyed.comms keyed.pairs, renderDump, map_append,
    expectedMembers, isEmpty_map]
  rw [← version, ← entries, ← comms]
  congr 2
  · congr 1
    split
    · rfl
    · rfl
  · split
    · rfl
    · rfl

end Groups

end TorchSupa.Recorder
