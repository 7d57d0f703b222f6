import TorchSupa.Aten.SudnnMha

/-!
The graphs that a thread reuses. The key of a backward graph leaves out the layouts of the output,
of its gradient and of the statistics, and both keys keep 32 bits of a size or a stride.
-/

namespace TorchSupa.Aten.SudnnMha

variable {ρ : Type}

structure Caches (ρ : Type) where
  mhagraphcache : MHAParams ρ → Option (Graph ρ)
  mhagraphbackwardcache : MHAParams ρ → Option (GraphBackward ρ)

def noGraphs : Caches ρ := ⟨fun _ => none, fun _ => none⟩

inductive Call (ρ : Type)
  | fprop (call : Fprop ρ) (frontend : Frontend)
  | bprop (call : Bprop ρ) (frontend : Frontend)

section Keys

def Congruent (values others : List Nat) : Prop :=
  ∀ axis < 4, values.getD axis 0 % 2 ^ 32 = others.getD axis 0 % 2 ^ 32

theorem ints_eq_iff {values others : List Nat} :
    ints values = ints others ↔ Congruent values others := by
  constructor
  · intro same axis below
    have entry := congrArg (fun row : Vector (BitVec 32) 4 => row[axis]) same
    simpa [ints, ← BitVec.toNat_inj] using entry
  · intro congruent
    apply Vector.ext
    intro axis below
    simpa [ints, ← BitVec.toNat_inj] using congruent axis below

structure Alike (past call : Attention ρ) : Prop where
  device : past.device = call.device
  ioType : ioType past.q = ioType call.q
  b : past.b = call.b
  h : past.h = call.h
  sQ : past.sQ = call.sQ
  sKv : past.sKv = call.sKv
  dQk : past.dQk = call.dQk
  dV : past.dV = call.dV
  isCausal : past.isCausal = call.isCausal
  dropoutProbability : past.dropoutProbability = call.dropoutProbability
  bias : past.attnBias.isSome = call.attnBias.isSome
  qDim : Congruent past.q.sizes call.q.sizes
  qStride : Congruent past.q.strides call.q.strides
  kDim : Congruent past.k.sizes call.k.sizes
  kStride : Congruent past.k.strides call.k.strides
  vDim : Congruent past.v.sizes call.v.sizes
  vStride : Congruent past.v.strides call.v.strides
  biasDim : Congruent ((past.attnBias.map Layout.sizes).getD [])
    ((call.attnBias.map Layout.sizes).getD [])
  biasStride : Congruent ((past.attnBias.map Layout.strides).getD [])
    ((call.attnBias.map Layout.strides).getD [])

structure SameOperands (library : Library ρ) (past call : Attention ρ) : Prop where
  q : layout past.q = layout call.q
  k : layout past.k = layout call.k
  v : layout past.v = layout call.v
  bias : past.attnBias = call.attnBias
  seed : library.seedType past.device past.dropoutseed = .kInt ↔
    library.seedType call.device call.dropoutseed = .kInt
  offset : library.seedType past.device past.dropoutoffset = .kInt ↔
    library.seedType call.device call.dropoutoffset = .kInt

theorem alike_of_setMHAParams {past call : Attention ρ} {pastStats stats : Bool}
    {key : MHAParams ρ} (before : setMHAParams past pastStats = .ok key)
    (now : setMHAParams call stats = .ok key) : Alike past call ∧ pastStats = stats := by
  unfold setMHAParams at before now
  split_ifs at before now
  cases before
  have same := Except.ok.inj now
  simp only [MHAParams.mk.injEq, ints_eq_iff] at same
  obtain ⟨device, ioType, qDim, kDim, vDim, qStride, kStride, vStride, biasDim, biasStride, b, h,
    sQ, sKv, dQk, dV, dropout, causal, stats, bias⟩ := same
  have symm : ∀ {values others : List Nat}, Congruent values others → Congruent others values :=
    fun congruent axis below => (congruent axis below).symm
  exact ⟨{
    device := device.symm, ioType := ioType.symm, b := b.symm, h := h.symm, sQ := sQ.symm
    sKv := sKv.symm, dQk := dQk.symm, dV := dV.symm, isCausal := causal.symm
    dropoutProbability := dropout.symm, bias := bias.symm, qDim := symm qDim
    qStride := symm qStride, kDim := symm kDim, kStride := symm kStride, vDim := symm vDim
    vStride := symm vStride, biasDim := symm biasDim, biasStride := symm biasStride }, stats.symm⟩

end Keys

section Builds

variable (library : Library ρ)

def Told : Call ρ → Call ρ → Prop
  | .fprop past _, .fprop call _ =>
    Alike past.toAttention call.toAttention → past.returnSoftmaxstats = call.returnSoftmaxstats →
      SameOperands library past.toAttention call.toAttention ∧ past.o = call.o
  | .bprop past _, .bprop call _ =>
    Alike past.toAttention call.toAttention →
      SameOperands library past.toAttention call.toAttention ∧ past.o = call.o ∧
        past.gradOutput = call.gradOutput ∧ past.softmaxstats = call.softmaxstats ∧
        past.gradQ = call.gradQ ∧ past.gradK = call.gradK ∧ past.gradV = call.gradV
  | _, _ => True

theorem philoxInput_congr {name : String} {dtype other : ScalarType}
    (same : dtype = .kInt ↔ other = .kInt) : philoxInput name dtype = philoxInput name other := by
  simp only [philoxInput, same]

variable {past call : Fprop ρ}

theorem output_congr (alike : Alike past.toAttention call.toAttention)
    (same : SameOperands library past.toAttention call.toAttention) (o : past.o = call.o) :
    past.output library = call.output library := by
  simp only [Fprop.output, o, same.q, alike.b, alike.h, alike.sQ, alike.dV]

theorem buildGraphAndTensors_congr (output : Layout)
    (alike : Alike past.toAttention call.toAttention)
    (stats : past.returnSoftmaxstats = call.returnSoftmaxstats)
    (same : SameOperands library past.toAttention call.toAttention) :
    buildGraphAndTensors library past output = buildGraphAndTensors library call output := by
  simp only [buildGraphAndTensors, alike.device, alike.ioType, alike.isCausal,
    alike.dropoutProbability, stats, same.q, same.k, same.v, same.bias]
  rw [← alike.device, philoxInput_congr same.seed, philoxInput_congr same.offset, alike.device]

theorem buildGraphAndTensorsBackward_congr {past call : Bprop ρ} (gradO : Layout)
    (alike : Alike past.toAttention call.toAttention)
    (same : SameOperands library past.toAttention call.toAttention) (o : past.o = call.o)
    (stats : past.softmaxstats = call.softmaxstats) (gradQ : past.gradQ = call.gradQ)
    (gradK : past.gradK = call.gradK) (gradV : past.gradV = call.gradV) :
    buildGraphAndTensorsBackward library past gradO =
      buildGraphAndTensorsBackward library call gradO := by
  simp only [buildGraphAndTensorsBackward, alike.device, alike.ioType, alike.isCausal,
    alike.dropoutProbability, same.q, same.k, same.v, same.bias, o, stats, gradQ, gradK, gradV]
  rw [← alike.device, philoxInput_congr same.seed, philoxInput_congr same.offset, alike.device]

variable {key : MHAParams ρ}

theorem Fprop.prepared_inv {call : Fprop ρ} {build : Graph ρ}
    (ready : call.prepared library = .ok (some (key, build))) : ∃ o, call.output library = .ok o ∧
      setMHAParams call.toAttention call.returnSoftmaxstats = .ok key ∧
      buildGraphAndTensors library call o = build := by
  unfold Fprop.prepared at ready
  split at ready
  · simp at ready
  rename_i o made
  split at ready
  · simp at ready
  cases keyed : setMHAParams call.toAttention call.returnSoftmaxstats with
  | error message => simp [keyed, Except.map] at ready
  | ok found =>
    simp only [keyed, Except.map, Except.ok.injEq, Option.some.injEq, Prod.mk.injEq] at ready
    exact ⟨o, made, by rw [ready.1], ready.2⟩

theorem Bprop.prepared_inv {call : Bprop ρ} {build : GraphBackward ρ}
    (ready : call.prepared library = .ok (some (key, build))) :
    ∃ gradO, call.gradOutput = .ok gradO ∧ setMHAParams call.toAttention true = .ok key ∧
      buildGraphAndTensorsBackward library call gradO = build := by
  unfold Bprop.prepared at ready
  split at ready
  · simp at ready
  split at ready
  · simp at ready
  rename_i gradO made
  cases keyed : setMHAParams call.toAttention true with
  | error message => simp [keyed, Except.map] at ready
  | ok found =>
    simp only [keyed, Except.map, Except.ok.injEq, Option.some.injEq, Prod.mk.injEq] at ready
    exact ⟨gradO, made, by rw [ready.1], ready.2⟩

theorem Told.fprop {before now : Frontend}
    {graph build : Graph ρ} (told : Told library (.fprop past before) (.fprop call now))
    (first : past.prepared library = .ok (some (key, graph)))
    (second : call.prepared library = .ok (some (key, build))) : graph = build := by
  obtain ⟨output, made, keyed, rfl⟩ := Fprop.prepared_inv library first
  obtain ⟨own, madeNow, keyedNow, rfl⟩ := Fprop.prepared_inv library second
  obtain ⟨alike, stats⟩ := alike_of_setMHAParams keyed keyedNow
  obtain ⟨same, o⟩ := told alike stats
  have outputs : output = own := by
    rw [output_congr library alike same o, madeNow] at made
    exact (Except.ok.inj made).symm
  rw [outputs]
  exact buildGraphAndTensors_congr library own alike stats same

theorem Told.bprop {past call : Bprop ρ} {before now : Frontend}
    {graph build : GraphBackward ρ} (told : Told library (.bprop past before) (.bprop call now))
    (first : past.prepared library = .ok (some (key, graph)))
    (second : call.prepared library = .ok (some (key, build))) : graph = build := by
  obtain ⟨gradO, made, keyed, rfl⟩ := Bprop.prepared_inv library first
  obtain ⟨own, madeNow, keyedNow, rfl⟩ := Bprop.prepared_inv library second
  obtain ⟨alike, -⟩ := alike_of_setMHAParams keyed keyedNow
  obtain ⟨same, o, gradients, stats, gradQ, gradK, gradV⟩ := told alike
  have outputs : gradO = own := by
    rw [gradients, madeNow] at made
    exact (Except.ok.inj made).symm
  rw [outputs]
  exact buildGraphAndTensorsBackward_congr library own alike same o stats gradQ gradK gradV

end Builds

def Accepted (library : Library ρ) : Call ρ → Prop
  | .fprop call _ => ∃ device query key value bias computeLogsumexp dropoutP isCausal,
      scaledDotProductCudnnAttention device query key value bias computeLogsumexp dropoutP
        isCausal = .ok call
  | .bprop call _ => ∃ device gradOut query key value out logsumexp seed offset bias maxQ maxK
      dropoutP isCausal, scaledDotProductCudnnAttentionBackward library device gradOut query key
        value out logsumexp seed offset bias maxQ maxK dropoutP isCausal = .ok call

section Runs

variable [DecidableEq ρ]

def advance (library : Library ρ) (caches : Caches ρ) : Call ρ → Caches ρ
  | .fprop call frontend =>
    { caches with
      mhagraphcache := (runSudnnSDPFprop library caches.mhagraphcache call frontend).2 }
  | .bprop call frontend =>
    { caches with
      mhagraphbackwardcache :=
        (runSudnnSDPBprop library caches.mhagraphbackwardcache call frontend).2 }

/-- A graph that the call takes from the cache is the one it would build, and so the call ends as
it would with nothing cached. -/
def ReusesOwn (library : Library ρ) (caches : Caches ρ) : Call ρ → Prop
  | .fprop call frontend =>
    (∀ key build graph, call.prepared library = .ok (some (key, build)) →
      Caching.find caches.mhagraphcache key = some graph → graph = build) ∧
    (frontend.built = .ok () →
      (runSudnnSDPFprop library caches.mhagraphcache call frontend).1 =
        (runSudnnSDPFprop library noGraphs.mhagraphcache call frontend).1)
  | .bprop call frontend =>
    (∀ key build graph, call.prepared library = .ok (some (key, build)) →
      Caching.find caches.mhagraphbackwardcache key = some graph → graph = build) ∧
    (frontend.built = .ok () →
      (runSudnnSDPBprop library caches.mhagraphbackwardcache call frontend).1 =
        (runSudnnSDPBprop library noGraphs.mhagraphbackwardcache call frontend).1)

def Transparent (library : Library ρ) (calls : List (Call ρ)) : Prop :=
  ∀ earlier call later, calls = earlier ++ call :: later →
    ReusesOwn library (earlier.foldl (advance library) noGraphs) call


variable {frontend : Frontend}

open Caching

variable {γ : Type} {cache : MHAParams ρ → Option γ}
  {prepared : Except String (Option (MHAParams ρ × γ))} {library : Library ρ}

theorem find_execute {key other : MHAParams ρ} {graph value : γ}
    (found : find (execute cache key graph frontend).2 other = some value) :
    find cache other = some value ∨ other = key ∧ value = graph := by
  unfold execute at found
  split at found
  · rw [find_update] at found
    split at found
    · rename_i same
      exact .inr ⟨same, (Option.some.inj found).symm⟩
    · exact .inl found
  · exact .inl found

variable {key : MHAParams ρ}

theorem find_runPrepared {value : γ}
    (found : find (runPrepared cache prepared frontend).2 key = some value) :
    find cache key = some value ∨ prepared = .ok (some (key, value)) := by
  unfold runPrepared at found
  split at found
  · exact .inl found
  · exact .inl found
  rename_i own build
  unfold findOrBuild at found
  split at found
  · rename_i graph cached
    rcases find_execute found with old | ⟨rfl, rfl⟩
    · exact .inl old
    · exact .inl cached
  · split at found
    · exact .inl found
    rcases find_execute found with old | ⟨rfl, rfl⟩
    · exact .inl old
    · exact .inr rfl

def makesGraph (library : Library ρ) : Call ρ → MHAParams ρ → Graph ρ → Prop
  | .fprop call _, key, graph => call.prepared library = .ok (some (key, graph))
  | .bprop _ _, _, _ => False

def makesGraphBackward (library : Library ρ) :
    Call ρ → MHAParams ρ → GraphBackward ρ → Prop
  | .fprop _ _, _, _ => False
  | .bprop call _, key, graph => call.prepared library = .ok (some (key, graph))

theorem runPrepared_uncached (own : ∀ key build graph, prepared = .ok (some (key, build)) →
      find cache key = some graph → graph = build) (built : frontend.built = .ok ()) :
    (runPrepared cache prepared frontend).1 =
      (runPrepared (fun _ => none) prepared frontend).1 := by
  have same : ∀ (held : MHAParams ρ → Option γ) (key : MHAParams ρ) (build : γ),
      (execute held key build frontend).1 = (execute (fun _ => none) key build frontend).1 := by
    intro held key build
    simp only [execute]
    split <;> rfl
  rcases prepared with message | _ | ⟨key, build⟩
  · rfl
  · rfl
  simp only [runPrepared, findOrBuild, built, find_empty]
  cases found : find cache key with
  | none => exact same cache key build
  | some graph =>
    obtain rfl := own key build graph rfl found
    exact same cache key graph

theorem fprop_reuses {earlier later : List (Call ρ)} {call : Fprop ρ}
    (told : (earlier ++ .fprop call frontend :: later).Pairwise (Told library))
    {build graph : Graph ρ} (ready : call.prepared library = .ok (some (key, build)))
    (found : find (earlier.foldl (advance library) noGraphs).mhagraphcache key =
      some graph) : graph = build := by
  refine transparent (makesGraph library) noGraphs (fun _ => rfl) ?_ (told.imp ?_) ready found
  · rintro caches (past | past) other value left
    · exact find_runPrepared left
    · exact .inl left
  · rintro (past | past) (present | present) apart other value result first second
    · exact apart.fprop library first second
    · exact second.elim
    · exact first.elim
    · exact first.elim

theorem bprop_reuses {earlier later : List (Call ρ)} {call : Bprop ρ}
    (told : (earlier ++ .bprop call frontend :: later).Pairwise (Told library))
    {build graph : GraphBackward ρ} (ready : call.prepared library = .ok (some (key, build)))
    (found : find (earlier.foldl (advance library) noGraphs).mhagraphbackwardcache key =
      some graph) : graph = build := by
  refine transparent (makesGraphBackward library) noGraphs (fun _ => rfl) ?_
    (told.imp ?_) ready found
  · rintro caches (past | past) other value left
    · exact .inl left
    · exact find_runPrepared left
  · rintro (past | past) (present | present) apart other value result first second
    · exact first.elim
    · exact first.elim
    · exact second.elim
    · exact apart.bprop library first second

theorem cached_graphs_match (library : Library ρ) (calls : List (Call ρ))
    (told : calls.Pairwise (Told library)) : Transparent library calls := by
  rintro earlier call later rfl
  cases call with
  | fprop call frontend =>
    exact ⟨fun _ _ _ ready found => fprop_reuses told ready found,
      runPrepared_uncached fun _ _ _ ready found => fprop_reuses told ready found⟩
  | bprop call frontend =>
    exact ⟨fun _ _ _ ready found => bprop_reuses told ready found,
      runPrepared_uncached fun _ _ _ ready found => bprop_reuses told ready found⟩

end Runs

section Sample

def sampleLibrary : Library ℚ where
  toFloat := id
  isZero p := p == 0
  emptyLike operand := operand.strides
  seedsInLong _ := false

def sampleOperand : Tensor where
  dtype := .kHalf
  sizes := [1, 2, 4, 8]
  strides := [64, 32, 8, 1]
  dataPtr := 0
  ranked := rfl

def succeeds : Frontend := ⟨.ok (), true⟩

def sampleAttention : Attention ℚ where
  device := 0
  b := 1
  h := 2
  sQ := 4
  sKv := 4
  dQk := 8
  dV := 8
  isCausal := false
  dropoutProbability := 0
  q := sampleOperand
  k := sampleOperand
  v := sampleOperand
  attnBias := none
  dropoutseed := .kLong
  dropoutoffset := .kLong

def sampleBackward (gradStrides : List Nat) : Bprop ℚ where
  toAttention := sampleAttention
  o := layout sampleOperand
  gradO := ⟨[1, 2, 4, 8], gradStrides⟩
  softmaxstats := ⟨[1, 2, 4, 1], [8, 4, 1, 1]⟩
  gradQ := layout sampleOperand
  gradK := layout sampleOperand
  gradV := layout sampleOperand

theorem sampleBackward_accepted (gradStrides : List Nat) :
    Accepted sampleLibrary (.bprop (sampleBackward gradStrides) succeeds) :=
  ⟨0, ⟨[1, 2, 4, 8], gradStrides⟩, sampleOperand, sampleOperand, sampleOperand,
    layout sampleOperand, ⟨[1, 2, 4], [8, 4, 1]⟩, .kLong, .kLong, none, 4, 4, 0, false, rfl⟩

/-- The same call a second time uses the graph of the first. -/
theorem cached_graphs_match_repeated :
    Transparent sampleLibrary [.bprop (sampleBackward [64, 32, 8, 1]) succeeds,
      .bprop (sampleBackward [64, 32, 8, 1]) succeeds] := by
  apply cached_graphs_match
  simp only [List.pairwise_cons, List.mem_singleton, forall_eq, List.not_mem_nil,
    false_implies, implies_true, List.Pairwise.nil, and_self, and_true]
  intro alike
  exact ⟨⟨rfl, rfl, rfl, rfl, Iff.rfl, Iff.rfl⟩, rfl, rfl, rfl, rfl, rfl, rfl⟩

/-- The gradient of a transposed result is laid out differently, and the key is the same. -/
theorem reuses_graph_of_other_gradient : ¬ ∀ calls : List (Call ℚ),
    (∀ call ∈ calls, Accepted sampleLibrary call) → Transparent sampleLibrary calls := by
  intro always
  have transparent := always [.bprop (sampleBackward [64, 32, 8, 1]) succeeds,
    .bprop (sampleBackward [64, 8, 16, 1]) succeeds] (by
      simp only [List.mem_cons, List.not_mem_nil, or_false, forall_eq_or_imp, forall_eq]
      exact ⟨sampleBackward_accepted _, sampleBackward_accepted _⟩)
  have own := (transparent [.bprop (sampleBackward [64, 32, 8, 1]) succeeds] _ [] rfl).1 _
    (buildGraphAndTensorsBackward sampleLibrary (sampleBackward [64, 8, 16, 1])
      ⟨[1, 2, 4, 8], [64, 8, 16, 1]⟩)
    (buildGraphAndTensorsBackward sampleLibrary (sampleBackward [64, 32, 8, 1])
      ⟨[1, 2, 4, 8], [64, 32, 8, 1]⟩) rfl rfl
  have strides := congrArg (fun graph => graph.dO.stride) own
  simp [buildGraphAndTensorsBackward, input] at strides

end Sample

end TorchSupa.Aten.SudnnMha
