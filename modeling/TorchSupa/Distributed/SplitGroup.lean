import Mathlib.Data.List.Sort
import Mathlib.Data.List.Dedup

/-!
Splitting a process group: what one member does in `split_group`, with the objects that hold the
options of backends, which may be the same for two of them.
-/

namespace TorchSupa.Distributed.SplitGroup

/-- `ProcessGroupBCCL.Options`; groups are numbered, the default one is 0. -/
structure Options where
  isHighPriorityStream : Bool := false
  timeout : Int
  splitFrom : Option Nat := none
  splitColor : Int := -2
  globalRanksInGroup : List Int := []
  groupName : String := ""
deriving DecidableEq, Repr

structure DistributedBackendOptions where
  groupRank : Nat
  groupSize : Nat
  timeout : Int := 0
  groupId : String := ""
  globalRanksInGroup : List Int := []
deriving DecidableEq, Repr

structure Split where
  source : Nat
  color : Int
deriving DecidableEq, Repr

def splitNocolor : Int := -1

structure Setting where
  parent : Nat
  parentRanks : List Int
  worldSize : Nat
  backendStr : String
  supportsSplitting : Bool
  defaultSupportsSplitting : Bool
  defaultTimeout : Int
  plugins : List String
  optionsOf : Nat → Nat
  processGroupColor : List Int → Int

structure Process where
  globalRank : Int
  deviceId : Option Int
  groupCount : Nat
  options : Nat → Options
  fresh : Nat
  connected : Nat → Bool
  splits : List Split := []

structure NewGroup where
  ranks : List Int
  globalRanks : List Int
  name : String
  options : Nat
deriving DecidableEq, Repr

inductive Ending
  | raised (message : String)
  | crashed
  | returned (group : Option NewGroup)
deriving DecidableEq, Repr

def Process.setOptions (process : Process) (object : Nat) (value : Options) : Process :=
  { process with options := Function.update process.options object value }

section Group

def findMyGroup (globalWorldSize : Nat) (parentGroupRank : Int) :
    List (List Int) → Except String (Option (List Int × Nat))
  | [] => .ok none
  | splitGroup :: rest =>
    if splitGroup.length = 0 then .error "the split group cannot be empty"
    else if splitGroup.length > globalWorldSize then
      .error "the split group's size should be less or equal to the world_size set by init_process_group"
    else if splitGroup.length ≠ splitGroup.dedup.length then
      .error "the split group cannot have duplicate ranks"
    else
      let sorted := splitGroup.insertionSort (· ≤ ·)
      if parentGroupRank ∈ sorted then .ok (some (sorted, sorted.idxOf parentGroupRank))
      else findMyGroup globalWorldSize parentGroupRank rest

def parentGroupToGlobalRank (setting : Setting) (rank : Int) : Option Int :=
  if rank < 0 then none else setting.parentRanks[rank.toNat]?

def getSplitSource (setting : Setting) : Option Nat :=
  if setting.defaultSupportsSplitting then some 0 else none

def createFn (setting : Setting) (distBackendOpts : DistributedBackendOptions)
    (pgOptions : Option Nat) (process : Process) : Nat × Process :=
  let (object, process) := match pgOptions with
    | some object => (object, process)
    | none => (process.fresh, { process.setOptions process.fresh
        { timeout := distBackendOpts.timeout } with fresh := process.fresh + 1 })
  let splitFrom := if process.deviceId.isSome then getSplitSource setting else none
  let options := process.options object
  let options := match splitFrom with
    | some source => { options with
        splitFrom := some source
        splitColor := setting.processGroupColor options.globalRanksInGroup }
    | none => options
  (object, process.setOptions object { options with
    globalRanksInGroup := distBackendOpts.globalRanksInGroup
    groupName := distBackendOpts.groupId })

def eagerConnectSingleDevice (options : Options) (process : Process) : Process :=
  match options.splitFrom with
  | some source =>
    if process.connected source then
      { process with splits := process.splits ++ [⟨source, options.splitColor⟩] }
    else process
  | none => process

def performNocolorSplit (setting : Setting) (process : Process) : Ending × Process :=
  if process.connected setting.parent then
    (.returned none,
      { process with splits := process.splits ++ [⟨setting.parent, splitNocolor⟩] })
  else (.crashed, process)

def createGroup (setting : Setting) (timeout : Int) (pgOptions : Nat) (myGroup : List Int)
    (groupRank : Nat) (process : Process) : Ending × Process :=
  let groupName := toString process.groupCount
  let process := { process with groupCount := process.groupCount + 1 }
  match myGroup.mapM (parentGroupToGlobalRank setting) with
  | none => (.raised "KeyError", process)
  | some globalRanks =>
    let process := process.setOptions pgOptions { process.options pgOptions with
      timeout
      splitFrom := some setting.parent
      splitColor := setting.processGroupColor myGroup
      globalRanksInGroup := globalRanks
      groupName }
    if setting.backendStr.toUpper ∉ setting.plugins then
      (.raised ("Unknown c10d backend type " ++ setting.backendStr.toUpper), process)
    else
      let (object, process) :=
        createFn setting { groupRank, groupSize := myGroup.length } (some pgOptions) process
      (.returned (some { ranks := myGroup, globalRanks, name := groupName, options := object }),
        eagerConnectSingleDevice (process.options object) process)

end Group

def splitGroup (setting : Setting) (splitRanks : Option (List (List Int))) (timeout : Option Int)
    (pgOptions : Option Nat) (process : Process) : Ending × Process :=
  match splitRanks, process.deviceId with
  | none, _ => (.raised "split_ranks cannot be None", process)
  | some _, none =>
    (.raised "No device associated with the default pg, not safe to split any process groups",
      process)
  | some splitRanks, some _ =>
    if process.globalRank ∉ setting.parentRanks then
      (.raised ("Global rank " ++ toString process.globalRank ++
        " is not part of the parent group"), process)
    else if !setting.supportsSplitting then
      (.raised "No backend for the parent process group or its backend does not support splitting",
        process)
    else
      let pgOptions := pgOptions.getD (setting.optionsOf setting.parent)
      let timeout := timeout.getD setting.defaultTimeout
      let parentGroupRank := setting.parentRanks.idxOf process.globalRank
      match findMyGroup setting.worldSize parentGroupRank splitRanks with
      | .error message => (.raised message, process)
      | .ok none => performNocolorSplit setting process
      | .ok (some (myGroup, groupRank)) =>
        createGroup setting timeout pgOptions myGroup groupRank process

end TorchSupa.Distributed.SplitGroup
