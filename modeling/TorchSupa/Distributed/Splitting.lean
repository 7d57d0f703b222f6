import TorchSupa.Distributed.SplitGroup
import TorchSupa.Logic.Lists

/-!
When the members of a parent agree on a split. A member checks the lists before the one it is in,
so other members may have got past a list that it stops at; and what `create_fn` writes to the
options is not what the new group is.
-/

namespace TorchSupa.Distributed.SplitGroup

section Lists

def Malformed (globalWorldSize : Nat) (list : List Int) : Prop :=
  list = [] ∨ globalWorldSize < list.length ∨ ¬ list.Nodup

instance (globalWorldSize : Nat) (list : List Int) : Decidable (Malformed globalWorldSize list) := by
  unfold Malformed
  infer_instance

def met (globalWorldSize : Nat) (rank : Int) (lists : List (List Int)) : Option (List Int) :=
  lists.find? fun list => Malformed globalWorldSize list ∨ rank ∈ list

variable {globalWorldSize : Nat} {rank : Int}

open List

theorem dedup_length_iff (list : List Int) : list.length ≠ list.dedup.length ↔ ¬ list.Nodup := by
  rw [not_iff_not, eq_comm]
  constructor
  · intro same
    exact dedup_eq_self.mp ((dedup_sublist list).eq_of_length same)
  · intro nodup
    rw [dedup_eq_self.mpr nodup]

theorem findMyGroup_malformed {splitGroup : List Int} (rest : List (List Int))
    (bad : Malformed globalWorldSize splitGroup) :
    ∃ message, findMyGroup globalWorldSize rank (splitGroup :: rest) = .error message := by
  unfold findMyGroup
  split
  · exact ⟨_, rfl⟩
  rename_i nonempty
  split
  · exact ⟨_, rfl⟩
  rename_i fits
  split
  · exact ⟨_, rfl⟩
  rename_i distinct
  rw [dedup_length_iff] at distinct
  rcases bad with rfl | long | repeated
  · simp at nonempty
  · omega
  · exact absurd repeated distinct

theorem findMyGroup_cons {splitGroup : List Int} (rest : List (List Int))
    (good : ¬ Malformed globalWorldSize splitGroup) :
    findMyGroup globalWorldSize rank (splitGroup :: rest) =
      if rank ∈ splitGroup then
        .ok (some (splitGroup.insertionSort (· ≤ ·), (splitGroup.insertionSort (· ≤ ·)).idxOf rank))
      else findMyGroup globalWorldSize rank rest := by
  simp only [Malformed, not_or, not_lt, not_not] at good
  have nonempty : splitGroup.length ≠ 0 := by simpa using good.1
  have fits : ¬ splitGroup.length > globalWorldSize := by omega
  have distinct : ¬ splitGroup.length ≠ splitGroup.dedup.length := by
    rw [dedup_length_iff]
    exact not_not.mpr good.2.2
  rw [findMyGroup, if_neg nonempty, if_neg fits, if_neg distinct]
  simp only [mem_insertionSort]

theorem findMyGroup_met (globalWorldSize : Nat) (rank : Int) (lists : List (List Int)) :
    match met globalWorldSize rank lists with
    | none => findMyGroup globalWorldSize rank lists = .ok none
    | some list =>
      if Malformed globalWorldSize list then
        ∃ message, findMyGroup globalWorldSize rank lists = .error message
      else rank ∈ list ∧ findMyGroup globalWorldSize rank lists =
        .ok (some (list.insertionSort (· ≤ ·), (list.insertionSort (· ≤ ·)).idxOf rank)) := by
  induction lists with
  | nil => rfl
  | cons list rest ih =>
    simp only [met, find?_cons]
    by_cases bad : Malformed globalWorldSize list
    · simp only [bad, true_or, decide_true, ↓reduceIte]
      exact findMyGroup_malformed rest bad
    · by_cases inside : rank ∈ list
      · simp [inside, bad, findMyGroup_cons rest bad]
      · simp only [bad, inside, or_self, decide_false, findMyGroup_cons rest bad, ↓reduceIte]
        exact ih

end Lists

section Members

variable (setting : Setting)

def Process.met (process : Process) (lists : List (List Int)) : Option (List Int) :=
  SplitGroup.met setting.worldSize (setting.parentRanks.idxOf process.globalRank) lists

def Process.Ready (process : Process) : Prop :=
  process.deviceId ≠ none ∧ process.globalRank ∈ setting.parentRanks ∧
    setting.supportsSplitting = true

/-- Such a check fails, or the first list that the member stops at is malformed, has a rank that
the parent does not have, or is to be a group of an unknown backend. -/
def Rejected (splitRanks : Option (List (List Int))) (process : Process) : Prop :=
  splitRanks = none ∨ ¬ process.Ready setting ∨
    ∃ lists, splitRanks = some lists ∧ ∃ list, process.met setting lists = some list ∧
      (Malformed setting.worldSize list ∨
        (∃ rank ∈ list, parentGroupToGlobalRank setting rank = none) ∨
        setting.backendStr.toUpper ∉ setting.plugins)

def Outside (splitRanks : Option (List (List Int))) (process : Process) : Prop :=
  ¬ Rejected setting splitRanks process ∧ process.connected setting.parent = true ∧
    ∃ lists, splitRanks = some lists ∧ process.met setting lists = none

variable {setting}

theorem createFn_ranks (setting : Setting) (distBackendOpts : DistributedBackendOptions) (object : Nat)
    (process : Process) :
    (createFn setting distBackendOpts (some object) process).1 = object ∧
      ((createFn setting distBackendOpts (some object) process).2.options
        object).globalRanksInGroup = distBackendOpts.globalRanksInGroup := by
  simp [createFn, Process.setOptions]

theorem eagerConnect_options (options : Options) (process : Process) :
    (eagerConnectSingleDevice options process).options = process.options := by
  unfold eagerConnectSingleDevice
  split
  · split <;> rfl
  · rfl

def Ending.Raises (ending : Ending) : Prop := ∃ message, ending = .raised message

@[simp] theorem raises_raised (message : String) : (Ending.raised message).Raises := ⟨message, rfl⟩

def Misnamed (result : Ending × Process) : Prop :=
  ∃ group, result.1 = .returned (some group) ∧ group.globalRanks ≠ [] ∧
    (result.2.options group.options).globalRanksInGroup = []

theorem createGroup_ending (setting : Setting) (timeout : Int) (pgOptions : Nat) {myGroup : List Int} (groupRank : Nat)
    (process : Process) (nonempty : myGroup ≠ []) :
    let result := createGroup setting timeout pgOptions myGroup groupRank process
    if (∃ rank ∈ myGroup, parentGroupToGlobalRank setting rank = none) ∨
        setting.backendStr.toUpper ∉ setting.plugins then result.1.Raises
    else Misnamed result := by
  intro result
  obtain ⟨unknown, lengths⟩ := Lists.mapM_option (parentGroupToGlobalRank setting) myGroup
  cases ranks : myGroup.mapM (parentGroupToGlobalRank setting) with
  | none =>
    rw [if_pos (.inl (unknown.mp ranks))]
    simp only [result, createGroup, ranks, raises_raised]
  | some globalRanks =>
    have known : ¬ ∃ rank ∈ myGroup, parentGroupToGlobalRank setting rank = none := by
      rw [← unknown, ranks]
      simp
    have some' : globalRanks ≠ [] := by
      rintro rfl
      exact nonempty (List.length_eq_zero_iff.mp (lengths _ ranks).symm)
    by_cases plugin : setting.backendStr.toUpper ∈ setting.plugins
    · rw [if_neg (by simp [known, plugin])]
      have made := createFn_ranks setting { groupRank, groupSize := myGroup.length } pgOptions
      simp only [result, createGroup, ranks, plugin, not_true_eq_false, ↓reduceIte, Misnamed,
        eagerConnect_options]
      exact ⟨_, rfl, some', by rw [(made _).1]; exact (made _).2⟩
    · rw [if_pos (.inr plugin)]
      simp only [result, createGroup, ranks, plugin, not_false_eq_true, ↓reduceIte, raises_raised]

variable {process : Process}

theorem splitGroup_unready (splitRanks : Option (List (List Int))) (timeout : Option Int)
    (pgOptions : Option Nat) (unready : splitRanks = none ∨ ¬ process.Ready setting) :
    (splitGroup setting splitRanks timeout pgOptions process).1.Raises := by
  unfold splitGroup
  split
  · simp
  · simp
  rename_i lists device bound
  rcases unready with absent | unready
  · simp at absent
  by_cases member : process.globalRank ∈ setting.parentRanks
  · have splitting : setting.supportsSplitting = false := by
      by_contra supported
      exact unready ⟨by simp [bound], member, by simpa using supported⟩
    simp [member, splitting]
  · simp [member]

theorem splitGroup_ready (lists : List (List Int)) (timeout : Option Int) (pgOptions : Option Nat)
    (ready : process.Ready setting) :
    splitGroup setting (some lists) timeout pgOptions process =
      match findMyGroup setting.worldSize (setting.parentRanks.idxOf process.globalRank) lists with
      | .error message => (.raised message, process)
      | .ok none => performNocolorSplit setting process
      | .ok (some (myGroup, groupRank)) => createGroup setting (timeout.getD setting.defaultTimeout)
          (pgOptions.getD (setting.optionsOf setting.parent)) myGroup groupRank process := by
  obtain ⟨bound, member, splitting⟩ := ready
  obtain ⟨device, bound⟩ := Option.ne_none_iff_exists'.mp bound
  unfold splitGroup
  rw [bound]
  exact (if_neg (not_not.mpr member)).trans (if_neg (by simp [splitting]))

theorem splitGroup_ending (setting : Setting) (splitRanks : Option (List (List Int)))
    (timeout : Option Int) (pgOptions : Option Nat) (process : Process) :
    let result := splitGroup setting splitRanks timeout pgOptions process
    Rejected setting splitRanks process ∧ result.1.Raises ∨
    Outside setting splitRanks process ∧ result = (.returned none,
      { process with splits := process.splits ++ [⟨setting.parent, splitNocolor⟩] }) ∨
    ¬ Rejected setting splitRanks process ∧ ¬ Outside setting splitRanks process ∧
      (result.1 = .crashed ∨ Misnamed result) := by
  intro result
  by_cases unready : splitRanks = none ∨ ¬ process.Ready setting
  · exact .inl ⟨unready.imp id .inl, splitGroup_unready splitRanks timeout pgOptions unready⟩
  simp only [not_or, not_not] at unready
  obtain ⟨asked, ready⟩ := unready
  obtain ⟨lists, rfl⟩ := Option.ne_none_iff_exists'.mp asked
  have rejected : Rejected setting (some lists) process ↔
      ∃ list, process.met setting lists = some list ∧ (Malformed setting.worldSize list ∨
        (∃ rank ∈ list, parentGroupToGlobalRank setting rank = none) ∨
        setting.backendStr.toUpper ∉ setting.plugins) := by
    simp [Rejected, ready]
  have outside : Outside setting (some lists) process ↔
      ¬ Rejected setting (some lists) process ∧ process.connected setting.parent = true ∧
        process.met setting lists = none := by
    simp [Outside]
  have found := findMyGroup_met setting.worldSize
    (setting.parentRanks.idxOf process.globalRank) lists
  have ends : result = _ := splitGroup_ready lists timeout pgOptions ready
  cases stops : process.met setting lists with
  | none =>
    have passes : ¬ Rejected setting (some lists) process := by simp [rejected, stops]
    rw [Process.met] at stops
    rw [stops] at found
    simp only [found, performNocolorSplit] at ends
    cases connected : process.connected setting.parent with
    | false => exact .inr (.inr ⟨passes, by simp [outside, connected], .inl (by simp [ends, connected])⟩)
    | true =>
      exact .inr (.inl ⟨outside.mpr ⟨passes, connected, stops⟩, by simp [ends, connected]⟩)
  | some list =>
    have inside : ¬ Outside setting (some lists) process := by simp [outside, stops]
    have rejected' : Rejected setting (some lists) process ↔ Malformed setting.worldSize list ∨
        (∃ rank ∈ list, parentGroupToGlobalRank setting rank = none) ∨
        setting.backendStr.toUpper ∉ setting.plugins := by
      simp [rejected, stops]
    rw [Process.met] at stops
    rw [stops] at found
    by_cases bad : Malformed setting.worldSize list
    · simp only [bad, ↓reduceIte] at found
      obtain ⟨message, found⟩ := found
      simp only [found] at ends
      exact .inl ⟨rejected'.mpr (.inl bad), by simp [ends]⟩
    · simp only [bad, ↓reduceIte] at found
      obtain ⟨member, found⟩ := found
      simp only [found] at ends
      have nonempty : list.insertionSort (· ≤ ·) ≠ [] := by
        apply List.ne_nil_of_mem
        exact (List.mem_insertionSort _).mpr member
      have created := createGroup_ending setting (timeout.getD setting.defaultTimeout)
        (pgOptions.getD (setting.optionsOf setting.parent))
        ((list.insertionSort (· ≤ ·)).idxOf
          (setting.parentRanks.idxOf process.globalRank : Int)) process nonempty
      rw [← ends] at created
      simp only [List.mem_insertionSort] at created
      by_cases refused : (∃ rank ∈ list, parentGroupToGlobalRank setting rank = none) ∨
          setting.backendStr.toUpper ∉ setting.plugins
      · rw [if_pos refused] at created
        exact .inl ⟨rejected'.mpr (.inr refused), created⟩
      · rw [if_neg refused] at created
        refine .inr (.inr ⟨?_, inside, .inr created⟩)
        rw [rejected']
        exact not_or.mpr ⟨bad, refused⟩

end Members

section Agreement

variable (setting : Setting) (splitRanks : Option (List (List Int))) (timeout : Option Int)
  (pgOptions : Option Nat)

def Splits (process : Process) (source : Nat) (color : Int) : Prop :=
  (splitGroup setting splitRanks timeout pgOptions process).2.splits =
    process.splits ++ [⟨source, color⟩]

def Returns (process : Process) (group : Option NewGroup) : Prop :=
  (splitGroup setting splitRanks timeout pgOptions process).1 = .returned group

structure Agree (members : List Process) : Prop where
  returned : ∀ process ∈ members, ∃ group, Returns setting splitRanks timeout pgOptions process group
  once : ∀ process ∈ members, ∃ color,
    Splits setting splitRanks timeout pgOptions process setting.parent color
  colors : ∀ process ∈ members, ∀ other ∈ members, ∀ group same source from' color again,
    Returns setting splitRanks timeout pgOptions process group →
    Returns setting splitRanks timeout pgOptions other same →
    Splits setting splitRanks timeout pgOptions process source color →
    Splits setting splitRanks timeout pgOptions other from' again →
      (color = again ∧ color ≠ splitNocolor ↔
        ∃ mine theirs, group = some mine ∧ same = some theirs ∧ mine.ranks = theirs.ranks)
  described : ∀ process ∈ members, ∀ group,
    Returns setting splitRanks timeout pgOptions process (some group) →
    let options := (splitGroup setting splitRanks timeout pgOptions process).2.options group.options
    options.globalRanksInGroup = group.globalRanks ∧ options.groupName = group.name ∧
      options.timeout = timeout.getD setting.defaultTimeout
  unchanged : ∀ process ∈ members,
    (splitGroup setting splitRanks timeout pgOptions process).2.options
      (setting.optionsOf setting.parent) = process.options (setting.optionsOf setting.parent)

def AllOrNone (members : List Process) : Prop :=
  (∀ process ∈ members, (splitGroup setting splitRanks timeout pgOptions process).1.Raises) ∨
    Agree setting splitRanks timeout pgOptions members

theorem splitGroup_agrees_iff (members : List Process) :
    AllOrNone setting splitRanks timeout pgOptions members ↔
      (∀ process ∈ members, Rejected setting splitRanks process) ∨
        ∀ process ∈ members, Outside setting splitRanks process := by
  have ending := splitGroup_ending setting splitRanks timeout pgOptions
  constructor
  · rintro (raise | agree)
    · left
      intro process member
      obtain ⟨message, raised⟩ := raise process member
      rcases ending process with ⟨rejected, -⟩ | ⟨-, result⟩ | ⟨-, -, crashed | ⟨group, made, -⟩⟩
      · exact rejected
      · simp [result] at raised
      · simp [crashed] at raised
      · simp [made] at raised
    · right
      intro process member
      obtain ⟨group, returned⟩ := agree.returned process member
      unfold Returns at returned
      rcases ending process with ⟨-, message, raised⟩ | ⟨outside, -⟩ |
        ⟨-, -, crashed | ⟨made, named, some', none'⟩⟩
      · simp [raised] at returned
      · exact outside
      · simp [crashed] at returned
      · have described := (agree.described process member made named).1
        rw [none'] at described
        exact absurd described.symm some'
  · rintro (rejected | outside)
    · left
      intro process member
      rcases ending process with ⟨-, raises⟩ | ⟨⟨passes, -⟩, -⟩ | ⟨passes, -⟩
      · exact raises
      · exact absurd (rejected process member) passes
      · exact absurd (rejected process member) passes
    · right
      have result : ∀ process ∈ members, splitGroup setting splitRanks timeout pgOptions process =
          (.returned none,
            { process with splits := process.splits ++ [⟨setting.parent, splitNocolor⟩] }) := by
        intro process member
        rcases ending process with ⟨rejected, -⟩ | ⟨-, result⟩ | ⟨-, inside, -⟩
        · exact absurd rejected (outside process member).1
        · exact result
        · exact absurd (outside process member) inside
      constructor
      · intro process member
        exact ⟨none, by simp [Returns, result process member]⟩
      · intro process member
        exact ⟨splitNocolor, by simp [Splits, result process member]⟩
      · intro process member other also group same source from' color again returned _ once _
        have ungrouped : none = group := by simpa [Returns, result process member] using returned
        have colorless : setting.parent = source ∧ splitNocolor = color := by
          simpa [Splits, result process member] using once
        simp [← ungrouped, ← colorless.2]
      · intro process member group returned
        simp [Returns, result process member] at returned
      · intro process member
        simp [result process member]

end Agreement

section Sample

def sampleSetting : Setting where
  parent := 0
  parentRanks := [0, 1, 2, 3]
  worldSize := 4
  backendStr := "bccl"
  supportsSplitting := true
  defaultSupportsSplitting := true
  defaultTimeout := 600000
  plugins := ["BCCL"]
  optionsOf := id
  -- injective on lists of these ranks
  processGroupColor ranks := ranks.foldl (fun color rank => 5 * color + rank + 1) 0

def sampleMember (rank : Int) : Process where
  globalRank := rank
  deviceId := some rank
  groupCount := 1
  options _ := { timeout := 600000 }
  fresh := 1
  connected _ := true

/-- Two halves, by well-formed lists: the options of the new backends have no ranks. -/
theorem halves_not_described : ¬ ∀ splitRanks timeout pgOptions,
    AllOrNone sampleSetting splitRanks timeout pgOptions [sampleMember 0, sampleMember 1,
      sampleMember 2, sampleMember 3] := by
  intro always
  have returned : Returns sampleSetting (some [[0, 1], [2, 3]]) none none (sampleMember 0)
      (some { ranks := [0, 1], globalRanks := [0, 1], name := "1", options := 0 }) := by
    unfold Returns
    decide +kernel
  rcases always (some [[0, 1], [2, 3]]) none none with raise | agree
  · obtain ⟨message, raised⟩ := raise (sampleMember 0) (by simp)
    rw [Returns, raised] at returned
    simp at returned
  · have described := (agree.described (sampleMember 0) (by simp) _ returned).1
    revert described
    decide +kernel

end Sample

end TorchSupa.Distributed.SplitGroup
