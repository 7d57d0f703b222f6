import TorchSupa.Bccl.Groups

/-!
When the collectives leave the depth of the thread's group as it was: only the group that
`AutoBcclGroup` opens is closed on every exit. For a group that is opened by hand every step up to
`bcclGroupEnd` has to go well.
-/

namespace TorchSupa.Bccl.Groups

open Outcome MachineIntegers

section Calls

variable (build : Build) (library : Library)

/-- `BCCL_CHECK_TIMEOUT` accepts the call, or `BCCL_CHECK` where the build has only that. -/
def Library.completes (call : Call) : Prop :=
  if build.hasCommNonblocking then
    settle library.nonblockingTimeout (library.polls call) (library.result call) = some .success
  else library.result call = .success

theorem settle_done {timeout : Int} {polls : List Poll} {result : BcclResult}
    (done : result ≠ .inProgress) : settle timeout polls result = some result := by
  cases polls <;> simp [settle, done]

theorem Build.converts_of_settled (call : Call) (nonblocking : build.hasCommNonblocking = true)
    (settled : settle library.nonblockingTimeout (library.polls call) (library.result call) =
      some .success) : build.converts (library.result call) = true := by
  cases answer : library.result call with
  | remoteError =>
    rw [answer, settle_done (by simp)] at settled
    simp at settled
  | unlisted code =>
    rw [answer, settle_done (by simp)] at settled
    simp at settled
  | inProgress => exact nonblocking
  | _ => rfl

theorem bcclCheck_spec (call : Call) (calls : List Call) : wp (bcclCheck build library call)
      (fun _ after => library.result call = .success ∧ depth after = depth calls + call.delta)
      (fun _ after => library.result call ≠ .success ∧ depth after = depth calls + call.delta)
      calls := by
  apply bind_write
  by_cases accepted : library.result call = .success
  · simp [check, accepted, wp_pure]
  · simp [check, accepted, wp_throw]

theorem bcclCheckTimeout_spec (call : Call) (calls : List Call)
    (nonblocking : build.hasCommNonblocking = true) :
    wp (bcclCheckTimeout build library call)
      (fun _ after => library.completes build call ∧ depth after = depth calls + call.delta)
      (fun _ after => ¬ library.completes build call ∧ depth after = depth calls + call.delta)
      calls := by
  have converted := build.converts_of_settled library call nonblocking
  simp only [Library.completes, nonblocking, if_true]
  apply bind_write
  generalize settle library.nonblockingTimeout (library.polls call) (library.result call) =
    outcome at converted ⊢
  by_cases accepted : outcome = some .success
  · simp [check, accepted, converted accepted, nonblocking, wp_pure]
  · apply bind_check
    · intro _
      apply bind_check
      · intro _
        apply bind_check
        · intro _
          simp [check, accepted, wp_throw]
        · intro _
          simp [accepted]
      · intro _
        simp [accepted]
    · intro _
      simp [accepted]

theorem bcclCheckNonblocking_spec (call : Call) (calls : List Call) :
    wp (bcclCheckNonblocking build library call)
      (fun _ after => library.completes build call ∧ depth after = depth calls + call.delta)
      (fun _ after => ¬ library.completes build call ∧ depth after = depth calls + call.delta)
      calls := by
  unfold bcclCheckNonblocking
  by_cases nonblocking : build.hasCommNonblocking = true
  · simpa only [nonblocking, if_true] using
      bcclCheckTimeout_spec build library call calls nonblocking
  · simpa only [Library.completes, if_neg nonblocking] using bcclCheck_spec build library call calls

variable {build library}

theorem bcclCheck_decides {call : Call} (neither : call.delta = 0) :
    Decides depth (bcclCheck build library call) (library.result call = .success) := by
  intro calls
  simpa [neither] using bcclCheck_spec build library call calls

theorem bcclCheckNonblocking_decides {call : Call} (neither : call.delta = 0) :
    Decides depth (bcclCheckNonblocking build library call) (library.completes build call) := by
  intro calls
  simpa [neither] using bcclCheckNonblocking_spec build library call calls

theorem group_restores {body : M Unit} {passes : Prop} (between : Decides depth body passes) :
    Restores depth
      (do bcclCheck build library .groupStart; body; bcclCheckNonblocking build library .groupEnd)
      (library.result .groupStart = .success ∧ passes) := by
  apply Restores.bracket (bcclCheck_spec build library .groupStart) _ between
  intro calls
  exact wp_mono (bcclCheckNonblocking_spec build library .groupEnd calls)
    (fun _ _ both => both.2) fun _ _ both => both.2

theorem copyInto_decides (dst src : Tensor) :
    Decides depth (copyInto library dst src) (library.copyError dst src = none) := by
  unfold copyInto
  cases library.copyError dst src with
  | none => exact (Decides.pure ()).congr (by simp)
  | some message => exact (Decides.throw message).congr (by simp)

end Calls

section Transfers

variable (build : Build) (library : Library) (comm stream : Nat)

/-- The library takes what is sent, unless the message is left out. -/
def Library.takes (count : Int) (call : Call) : Prop :=
  shouldSendRecv build count = true → library.result call = .success

def Library.takesTensor (tensor : Tensor) (call : Nat → BcclDataType → Call) : Prop :=
  ∃ buffer, tensor.dataPtr = some buffer ∧
    ∃ type, tensor.bcclType = some type ∧ library.result (call buffer type) = .success

def EqualPasses (sendbuff recvbuff count rankdiff : Nat) (type : BcclDataType) (r : Nat) : Prop :=
  library.takes build count (.send (sendbuff + r * rankdiff) count type r comm stream) ∧
    library.takes build count (.recv (recvbuff + r * rankdiff) count type r comm stream)

def UnequalPasses (sendbuff : Nat) (sendcounts senddispls : List Nat) (recvbuff : Nat)
    (recvcounts recvdispls : List Nat) (size : Nat) (type : BcclDataType) (r : Nat) : Prop :=
  library.takes build (sendcounts.getD r 0) (.send (sendbuff + senddispls.getD r 0 * size)
      (sendcounts.getD r 0) type r comm stream) ∧
    library.takes build (recvcounts.getD r 0) (.recv (recvbuff + recvdispls.getD r 0 * size)
      (recvcounts.getD r 0) type r comm stream)

def TensorsPass (outputTensors inputTensors : List Tensor) (r : Nat) : Prop :=
  let input := inputTensors.getD r default
  let output := outputTensors.getD r default
  (shouldSendRecv build input.numel = true → library.takesTensor input fun buffer type =>
      .send buffer input.numel type r comm stream) ∧
    (shouldSendRecv build output.numel = true → library.takesTensor output fun buffer type =>
      .recv buffer output.numel type r comm stream)

def GatherPasses (inputs : Tensor) (outputs : List Tensor) (type : BcclDataType) (root : Int)
    (r : Nat) : Prop :=
  if r ≠ root then ∃ recvbuff, (outputs.getD r default).dataPtr = some recvbuff ∧
    library.result (.recv recvbuff inputs.numel type r comm stream) = .success
  else library.copyError (outputs.getD r default) inputs = none

def ScatterPasses (inputs : List Tensor) (outputs : Tensor) (root : Int) (r : Nat) : Prop :=
  let input := inputs.getD r default
  if r ≠ root then library.takesTensor input fun buffer type =>
    .send buffer input.numel type r comm stream
  else library.copyError outputs input = none

variable {build library}

theorem exchangeEqual_decides (sendbuff recvbuff count rankdiff : Nat) (type : BcclDataType)
    (r : Nat) :
    Decides depth (exchangeEqual build library comm stream sendbuff recvbuff count rankdiff type r)
      (EqualPasses build library comm stream sendbuff recvbuff count rankdiff type r) := by
  unfold exchangeEqual EqualPasses Library.takes
  rw [← forall_and]
  apply Decides.optional
  exact (bcclCheck_decides rfl).bind fun _ _ => bcclCheck_decides rfl

theorem exchangeUnequal_decides (sendbuff : Nat) (sendcounts senddispls : List Nat)
    (recvbuff : Nat) (recvcounts recvdispls : List Nat) (size : Nat) (type : BcclDataType)
    (r : Nat) :
    Decides depth (exchangeUnequal build library comm stream sendbuff sendcounts senddispls recvbuff
        recvcounts recvdispls size type r)
      (UnequalPasses build library comm stream sendbuff sendcounts senddispls recvbuff recvcounts
        recvdispls size type r) := by
  apply Decides.bind
  · exact Decides.optional (bcclCheck_decides rfl)
  · intro _ _
    exact Decides.optional (bcclCheck_decides rfl)

variable {tensor : Tensor} {call : Nat → BcclDataType → Call}

theorem takesTensor_decides (neither : ∀ buffer type, (call buffer type).delta = 0) :
    Decides depth (do
        let buffer ← tensor.pointer
        let type ← tensor.toBcclDataType
        bcclCheck build library (call buffer type))
      (library.takesTensor tensor call) := by
  apply Decides.demand
  intro buffer
  apply Decides.demand
  intro type
  exact bcclCheck_decides (neither buffer type)

theorem exchangeTensors_decides (outputTensors inputTensors : List Tensor) (r : Nat) :
    Decides depth (exchangeTensors build library comm stream outputTensors inputTensors r)
      (TensorsPass build library comm stream outputTensors inputTensors r) := by
  apply Decides.bind
  · exact Decides.optional (takesTensor_decides fun _ _ => rfl)
  · intro _ _
    exact Decides.optional (takesTensor_decides fun _ _ => rfl)

theorem gatherFrom_decides (inputs : Tensor) (outputs : List Tensor) (type : BcclDataType)
    (root : Int) (r : Nat) :
    Decides depth (gatherFrom build library comm stream inputs outputs type root r)
      (GatherPasses library comm stream inputs outputs type root r) := by
  apply Decides.ite
  · apply Decides.demand
    intro recvbuff
    exact bcclCheck_decides rfl
  · exact copyInto_decides _ _

theorem takesTyped_decides (neither : ∀ buffer type, (call buffer type).delta = 0) :
    Decides depth (do
        let type ← tensor.toBcclDataType
        let buffer ← tensor.pointer
        bcclCheck build library (call buffer type))
      (library.takesTensor tensor call) := by
  have decides : Decides depth (do
        let type ← tensor.toBcclDataType
        let buffer ← tensor.pointer
        bcclCheck build library (call buffer type))
      (∃ type, tensor.bcclType = some type ∧ ∃ buffer, tensor.dataPtr = some buffer ∧
        library.result (call buffer type) = .success) := by
    apply Decides.demand
    intro type
    apply Decides.demand
    intro buffer
    exact bcclCheck_decides (neither buffer type)
  apply decides.congr
  constructor
  · rintro ⟨type, typed, buffer, stored, taken⟩
    exact ⟨buffer, stored, type, typed, taken⟩
  · rintro ⟨buffer, stored, type, typed, taken⟩
    exact ⟨type, typed, buffer, stored, taken⟩

theorem scatterTo_decides (inputs : List Tensor) (outputs : Tensor) (root : Int) (r : Nat) :
    Decides depth (scatterTo build library comm stream inputs outputs root r)
      (ScatterPasses library comm stream inputs outputs root r) := by
  apply Decides.ite
  · exact takesTyped_decides fun _ _ => rfl
  · exact copyInto_decides _ _

end Transfers

section Operations

variable (build : Build) (library : Library) (comm stream : Nat)

inductive Operation
  | all2allSingleEqualSplit (input output : Tensor) (size : Int)
  | all2allSingleUnequalSplit (sendbuff : Nat) (sendcounts senddispls : List Nat) (recvbuff : Nat)
      (recvcounts recvdispls : List Nat) (size : Nat) (scalarType : ScalarType)
  | all2all (outputTensors inputTensors : List Tensor)
  | gather (inputs : Tensor) (outputs : List Tensor) (root : Int)
  | scatter (inputs : List Tensor) (outputs : Tensor) (root : Int)

def Operation.run : Operation → M Unit
  | all2allSingleEqualSplit input output size =>
    Groups.all2allSingleEqualSplit build library comm stream input output size
  | all2allSingleUnequalSplit sendbuff sendcounts senddispls recvbuff recvcounts recvdispls size
      scalarType =>
      Groups.all2allSingleUnequalSplit build library comm stream sendbuff sendcounts senddispls
        recvbuff recvcounts recvdispls size scalarType
  | all2all outputTensors inputTensors =>
    Groups.all2all build library comm stream outputTensors inputTensors
  | gather inputs outputs root => Groups.gather build library comm stream inputs outputs root
  | scatter inputs outputs root => Groups.scatter build library comm stream inputs outputs root

def Build.sendsAndReceives (build : Build) : Prop :=
  build.useBccl = true ∧ build.atLeast 7 = true

/-- Where an operation gets as far as `bcclGroupStart`, that call and every step up to
`bcclGroupEnd` go well. -/
def Operation.GroupPasses : Operation → Prop
  | all2allSingleEqualSplit input output size =>
    build.sendsAndReceives → ∀ type, input.bcclType = some type →
      ∀ sendbuff, input.dataPtr = some sendbuff → ∀ recvbuff, output.dataPtr = some recvbuff →
      build.alltoallSupported = false → library.result (.commCount comm) = .success →
      library.result .groupStart = .success ∧
        ∀ r ∈ library.ranks, EqualPasses build library comm stream sendbuff recvbuff
          (uint64 ((input.numel : Int).tdiv size)).toNat
          (uint64 ((input.nbytes : Int).tdiv size)).toNat type r
  | all2allSingleUnequalSplit sendbuff sendcounts senddispls recvbuff recvcounts recvdispls size
      scalarType =>
      build.sendsAndReceives → ∀ type, bcclDataType scalarType = some type →
        build.alltoallvSupported = false → library.result (.commCount comm) = .success →
        library.result .groupStart = .success ∧
          ∀ r ∈ library.ranks, UnequalPasses build library comm stream sendbuff sendcounts
            senddispls recvbuff recvcounts recvdispls size type r
  | all2all outputTensors inputTensors =>
    build.sendsAndReceives → library.result .groupStart = .success ∧
      ∀ r ∈ List.range outputTensors.length,
        TensorsPass build library comm stream outputTensors inputTensors r
  | gather inputs outputs root =>
    build.sendsAndReceives → library.result (.commCount comm) = .success →
      library.result (.commUserRank comm) = .success →
      ∀ type, inputs.bcclType = some type → ∀ sendbuff, inputs.dataPtr = some sendbuff →
      library.result .groupStart = .success ∧
        if library.commUserRank = root then
          ∀ r ∈ library.ranks, GatherPasses library comm stream inputs outputs type root r
        else library.result (.send sendbuff inputs.numel type root comm stream) = .success
  | scatter inputs outputs root =>
    build.sendsAndReceives → library.completes build (.commCount comm) →
      library.completes build (.commUserRank comm) →
      library.result .groupStart = .success ∧
        if library.commUserRank = root then
          ∀ r ∈ library.ranks, ScatterPasses library comm stream inputs outputs root r
        else library.takesTensor outputs fun buffer type =>
          .recv buffer outputs.numel type root comm stream

variable {build library comm stream}

theorem requireSendRecv_decides (name : String) :
    Decides depth (requireSendRecv build name) build.sendsAndReceives :=
  (Decides.check _ _).bind fun _ _ => Decides.check _ _

theorem all2allSingleEqualSplit_restores (input output : Tensor) (size : Int) :
    Restores depth (all2allSingleEqualSplit build library comm stream input output size)
      ((Operation.all2allSingleEqualSplit input output size).GroupPasses build library comm
        stream) := by
  apply (requireSendRecv_decides "all2all").before
  intro _ _
  apply Restores.demand
  intro type
  apply Restores.demand
  intro sendbuff
  apply Restores.demand
  intro recvbuff
  apply Restores.unless (bcclCheck_decides rfl)
  apply (bcclCheck_decides rfl).before
  intro _ _
  exact group_restores (Decides.forEach (exchangeEqual_decides comm stream _ _ _ _ _) _)

theorem all2allSingleUnequalSplit_restores (sendbuff : Nat) (sendcounts senddispls : List Nat)
    (recvbuff : Nat) (recvcounts recvdispls : List Nat) (size : Nat) (scalarType : ScalarType) :
    Restores depth
      (all2allSingleUnequalSplit build library comm stream sendbuff sendcounts senddispls recvbuff
        recvcounts recvdispls size scalarType)
      ((Operation.all2allSingleUnequalSplit sendbuff sendcounts senddispls recvbuff recvcounts
        recvdispls size scalarType).GroupPasses build library comm stream) := by
  apply (requireSendRecv_decides "all2all").before
  intro _ _
  apply Restores.demand
  intro type
  apply Restores.unless (bcclCheck_decides rfl)
  apply (bcclCheck_decides rfl).before
  intro _ _
  exact group_restores (Decides.forEach (exchangeUnequal_decides comm stream _ _ _ _ _ _ _ _) _)

theorem all2all_restores (outputTensors inputTensors : List Tensor) :
    Restores depth (all2all build library comm stream outputTensors inputTensors)
      ((Operation.all2all outputTensors inputTensors).GroupPasses build library comm stream) := by
  apply (requireSendRecv_decides "all2all").before
  intro _ _
  exact group_restores (Decides.forEach (exchangeTensors_decides comm stream _ _) _)

theorem gather_restores (inputs : Tensor) (outputs : List Tensor) (root : Int) :
    Restores depth (gather build library comm stream inputs outputs root)
      ((Operation.gather inputs outputs root).GroupPasses build library comm stream) := by
  apply (requireSendRecv_decides "gather").before
  intro _ _
  apply (bcclCheck_decides rfl).before
  intro _ _
  apply (bcclCheck_decides rfl).before
  intro _ _
  apply Restores.demand
  intro type
  apply Restores.demand
  intro sendbuff
  apply group_restores
  apply Decides.ite
  · exact Decides.forEach (gatherFrom_decides comm stream inputs outputs type root) _
  · exact bcclCheck_decides rfl

theorem scatter_restores (inputs : List Tensor) (outputs : Tensor) (root : Int) :
    Restores depth (scatter build library comm stream inputs outputs root)
      ((Operation.scatter inputs outputs root).GroupPasses build library comm stream) := by
  apply (requireSendRecv_decides "scatter").before
  intro _ _
  apply (bcclCheckNonblocking_decides rfl).before
  intro _ _
  apply (bcclCheckNonblocking_decides rfl).before
  intro _ _
  apply group_restores
  apply Decides.ite
  · exact Decides.forEach (scatterTo_decides comm stream inputs outputs root) _
  · exact takesTyped_decides fun _ _ => rfl

/-- On every exit the depth is back where it was if and only if nothing fails from
`bcclGroupStart` on until the group is closed. -/
theorem depth_restored_iff (build : Build) (library : Library) (comm stream : Nat)
    (operation : Operation) (calls : List Call) :
    depth (final (operation.run build library comm stream) calls) = depth calls ↔
      operation.GroupPasses build library comm stream := by
  cases operation with
  | all2allSingleEqualSplit input output size =>
    exact all2allSingleEqualSplit_restores input output size calls
  | all2allSingleUnequalSplit sendbuff sendcounts senddispls recvbuff recvcounts recvdispls size
      scalarType =>
      exact all2allSingleUnequalSplit_restores sendbuff sendcounts senddispls recvbuff recvcounts
        recvdispls size scalarType calls
  | all2all outputTensors inputTensors => exact all2all_restores outputTensors inputTensors calls
  | gather inputs outputs root => exact gather_restores inputs outputs root calls
  | scatter inputs outputs root => exact scatter_restores inputs outputs root calls

def pairLibrary : Library where
  result _ := .success
  polls _ := []
  errorString _ := ""
  commCount := 2
  commUserRank := 0
  copyError _ _ := none

def shortTensor : Tensor :=
  { device := "supa:0", isPrivateuseone := true, scalarType := .other "Short", numel := 8,
    nbytes := 16, dataPtr := some 4096 }

/-- The root scatters tensors of a type that the library does not have. -/
theorem scatter_leaves_group_open :
    ¬ depth (final ((Operation.scatter [shortTensor, shortTensor] shortTensor 0).run
      { major := 2, minor := 18 } pairLibrary 1 1) []) = depth [] := by
  decide

end Operations

end TorchSupa.Bccl.Groups
