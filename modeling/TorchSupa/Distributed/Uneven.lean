import TorchSupa.Distributed.ProcessGroupBCCL

/-!
`allgather` and `reduce_scatter` of tensors of different sizes issue one operation for each
rank between `startCoalescing` and `endCoalescing`. What an exception on the way leaves of the
state of the region.
-/

namespace TorchSupa.Distributed

open Outcome

structure Tensor where
  sizes : List Nat
  device : Nat
deriving DecidableEq, Repr, Inhabited

def Tensor.numel (tensor : Tensor) : Nat := tensor.sizes.prod

def checkSameSize : List Tensor → Bool
  | [] => true
  | first :: rest => rest.all fun tensor => first.sizes == tensor.sizes

structure Piece where
  output : Tensor
  input : Tensor
  fate : Fate
deriving DecidableEq, Repr, Inhabited

def outOfPlace (name : String) (opType : OpType) (thread group : Nat) (piece : Piece) : M Call := do
  check (piece.output.numel == piece.input.numel) (.valueError
    ("Tensor input and output of " ++ name ++ " must have the same number of elements "))
  collective thread group piece.input.device opType piece.fate

def broadcastOop (thread group : Nat) (piece : Piece) : M Call :=
  outOfPlace "_broadcast_oop" .broadcast thread group piece

def reduceOop (thread group : Nat) (piece : Piece) : M Call :=
  outOfPlace "_reduce_oop" .reduce thread group piece

def coalesced (operation : Piece → M Call) (thread group : Nat) (opType : OpType)
    (pieces : List Piece) (start finish : Fate) : M Call := do
  startCoalescing thread group start
  forEach (fun piece => do let _work ← operation piece) pieces
  endCoalescing thread group opType finish

/-- The tensors with the outcomes of their operations; the own tensor of the rank is `own`. -/
def gatherPieces (rank : Int) (own : Tensor) (outputs : List (Tensor × Fate)) : List Piece :=
  outputs.mapIdx fun i entry =>
    ⟨entry.1, if (i : Int) = rank then own else entry.1, entry.2⟩

def scatterPieces (rank : Int) (own : Tensor) (inputs : List (Tensor × Fate)) : List Piece :=
  inputs.mapIdx fun i entry =>
    ⟨if (i : Int) = rank then own else entry.1, entry.1, entry.2⟩

def allgather (thread group : Nat) (outputTensors : List (Tensor × Fate)) (inputTensor : Tensor)
    (start finish : Fate) : M Call := do
  if checkSameSize (outputTensors.map (·.1)) then
    collective thread group inputTensor.device .allgather finish
  else do
    let rank := (← getGroup group).rank
    coalesced (broadcastOop thread group) thread group .allgather
      (gatherPieces rank inputTensor outputTensors) start finish

def reduceScatter (thread group : Nat) (outputTensor : Tensor) (inputTensors : List (Tensor × Fate))
    (start finish : Fate) : M Call := do
  if checkSameSize (inputTensors.map (·.1)) then
    collective thread group outputTensor.device .reduceScatter finish
  else do
    let rank := (← getGroup group).rank
    coalesced (reduceOop thread group) thread group .reduceScatter
      (scatterPieces rank outputTensor inputTensors) start finish

/-- What a failed call is to leave as it was: the members of the group and the counter of the thread. -/
structure RegionState where
  coalescingState : CoalescingState
  coalescedDevice : Int
  coalescedComm : Option Nat
  bcclActiveGroupCounter : UInt64
deriving DecidableEq, Repr, Inhabited

def regionState (thread group : Nat) (world : World) : RegionState where
  coalescingState := (world.groups group).coalescingState
  coalescedDevice := (world.groups group).coalescedDevice
  coalescedComm := (world.groups group).coalescedComm
  bcclActiveGroupCounter := world.bcclActiveGroupCounter thread

def Restores (call : M Call) (thread group : Nat) (world : World) : Prop :=
  ∀ exception after, call world = .error exception after →
    regionState thread group after = regionState thread group world

section Operations

variable {start world : World} {thread group device comm : Nat}

structure Joined (start : World) (thread group device comm : Nat) (world : World) : Prop where
  state : (world.groups group).coalescingState =
    { (start.groups group).coalescingState with coalActive := true, coalColl := true }
  onDevice : (world.groups group).coalescedDevice = device
  onComm : (world.groups group).coalescedComm = some comm
  counter : world.bcclActiveGroupCounter thread = start.bcclActiveGroupCounter thread + 1
  capturable : world.capturable = start.capturable
  pending : world.pendingEventQueries = start.pendingEventQueries
  cached : (world.groups group).devBCCLCommMap.lookup (.device device) = some comm
  stream : (world.groups group).bcclStreams.contains (.device device) = true

structure Opened (start : World) (thread group : Nat) (world : World) : Prop where
  state : (world.groups group).coalescingState =
    { (start.groups group).coalescingState with coalActive := true }
  onDevice : (world.groups group).coalescedDevice = -1
  onComm : (world.groups group).coalescedComm = none
  counter : world.bcclActiveGroupCounter thread = start.bcclActiveGroupCounter thread + 1
  capturable : world.capturable = start.capturable
  pending : world.pendingEventQueries = start.pendingEventQueries
  cache : (world.groups group).devBCCLCommMap = (start.groups group).devBCCLCommMap
  streams : (world.groups group).bcclStreams = (start.groups group).bcclStreams
  fresh : world.nextComm = start.nextComm

def LeftOpen (start : World) (thread : Nat) (world : World) : Prop :=
  world.bcclActiveGroupCounter thread = start.bcclActiveGroupCounter thread + 1

open World

theorem joinCollective_open (active : (world.groups group).coalescingState.coalActive = true)
    (device_unset : (world.groups group).coalescedDevice = -1)
    (comm_unset : (world.groups group).coalescedComm = none) :
    joinCollective group device comm world = .ok ⟨⟩ (world.modifyGroup group fun self =>
      { markCoalColl (if (world.groups group).coalescingState.coalColl then self
          else bumpSeqCollective self) with
        coalescedDevice := device
        coalescedComm := some comm }) := by
  have kept : ∀ self : Group, (markCoalColl (if (world.groups group).coalescingState.coalColl then
      self else bumpSeqCollective self)).coalescedDevice = self.coalescedDevice := by
    intro self
    split <;> rfl
  have comms : ∀ self : Group, (markCoalColl (if (world.groups group).coalescingState.coalColl then
      self else bumpSeqCollective self)).coalescedComm = self.coalescedComm := by
    intro self
    split <;> rfl
  have steps : wp (joinCollective group device comm) (fun _ after => after = world.modifyGroup group
      fun self => { markCoalColl (if (world.groups group).coalescingState.coalColl then self
          else bumpSeqCollective self) with
        coalescedDevice := device
        coalescedComm := some comm }) (fun _ _ => False) world := by
    unfold joinCollective
    refine bind_getGroup ?_
    rw [if_pos active]
    refine bind_modifyGroup ?_
    unfold coalesceOn coalesceDevice
    rw [wp_bind]
    refine bind_getGroup ?_
    rw [World.modifyGroup_same, kept, device_unset, if_pos (by decide)]
    change wp (coalesceComm group comm) _ _ (World.modifyGroup _ _ _)
    unfold coalesceComm
    refine bind_getGroup ?_
    rw [World.modifyGroup_twice, World.modifyGroup_same]
    simp only [comms, comm_unset]
    change World.modifyGroup _ _ _ = _
    rw [World.modifyGroup_twice]
  unfold wp at steps
  split at steps
  · next value after run => rw [run, steps]
  · exact steps.elim

structure Spares (change : Group → Group) : Prop where
  state : ∀ self, (change self).coalescingState = self.coalescingState
  onDevice : ∀ self, (change self).coalescedDevice = self.coalescedDevice
  onComm : ∀ self, (change self).coalescedComm = self.coalescedComm
  cache : ∀ self, (change self).devBCCLCommMap = self.devBCCLCommMap
  streams : ∀ self, (change self).bcclStreams = self.bcclStreams

theorem spares_bump : Spares fun self =>
    if self.coalescingState.isSet then self else bumpSeqCollective self := by
  constructor <;> intro self <;> split <;> rfl

theorem spares_bumpOpId : Spares bumpOpId := by
  constructor <;> intro self <;> rfl

theorem spares_takeTimeout (finished : List Nat) (work : Work) :
    Spares (takeTimeout finished work) := by
  constructor <;> intro self <;> rfl

variable {change : Group → Group} {after : World} {call : Call} {piece first : Piece}
  {rest : List Piece}

theorem Joined.modify (joined : Joined start thread group device comm world)
    (spares : Spares change) :
    Joined start thread group device comm (world.modifyGroup group change) where
  state := by rw [modifyGroup_same, spares.state, joined.state]
  onDevice := by rw [modifyGroup_same, spares.onDevice, joined.onDevice]
  onComm := by rw [modifyGroup_same, spares.onComm, joined.onComm]
  counter := joined.counter
  capturable := joined.capturable
  pending := joined.pending
  cached := by rw [modifyGroup_same, spares.cache, joined.cached]
  stream := by rw [modifyGroup_same, spares.streams, joined.stream]

theorem joinCollective_joined {first own : Nat} (joined : Joined start thread group first own world) :
    wp (joinCollective group device comm)
      (fun _ after => device = first ∧ Joined start thread group first own after)
      (fun _ after => ¬(device = first ∧ comm = own) ∧ LeftOpen start thread after) world := by
  have kept : Joined start thread group first own (world.modifyGroup group fun self =>
      markCoalColl (if (world.groups group).coalescingState.coalColl then self
        else bumpSeqCollective self)) := by
    have marked : (world.groups group).coalescingState.coalColl = true := by rw [joined.state]
    simp only [marked, if_true]
    constructor
    · rw [World.modifyGroup_same]
      simp only [markCoalColl, joined.state]
    · simpa [markCoalColl] using joined.onDevice
    · simpa [markCoalColl] using joined.onComm
    · exact joined.counter
    · exact joined.capturable
    · exact joined.pending
    · simpa [markCoalColl] using joined.cached
    · simpa [markCoalColl] using joined.stream
  unfold joinCollective
  refine bind_getGroup ?_
  rw [if_pos (by rw [joined.state])]
  refine bind_modifyGroup ?_
  unfold coalesceOn coalesceDevice
  rw [wp_bind]
  refine bind_getGroup ?_
  rw [kept.onDevice, if_neg (by omega)]
  unfold check
  split
  · next same =>
      have same : first = device := by exact_mod_cast (by simpa using same : (first : Int) = device)
      change wp (coalesceComm group comm) _ _ (World.modifyGroup _ _ _)
      refine bind_getGroup ?_
      rw [kept.onComm]
      dsimp only
      unfold check
      split
      · exact ⟨same.symm, kept⟩
      · next other => exact ⟨fun both => other (by simpa using both.2.symm), kept.counter⟩
  · next other => exact ⟨fun both => other (by simp [both.1]), kept.counter⟩

def CommReady (world : World) (group device : Nat) (fate : Fate) : Prop :=
  match (world.groups group).devBCCLCommMap.lookup (.device device) with
  | some _ => (world.groups group).bcclStreams.contains (.device device) = true
  | none => fate.createsComm = true

def commOf (world : World) (group device : Nat) : Nat :=
  ((world.groups group).devBCCLCommMap.lookup (.device device)).getD world.nextComm

structure Silent (call : Call) (group : Nat) : Prop where
  group : call.group = group
  enqueue : call.enqueue = false
  admitted : call.admitted = false
  rest : call.rest = collectiveSections
  work : call.work.isSome = true

variable {opType : OpType} {fate : Fate}

theorem makeSilent (joined : Joined start thread group device comm world) : wp (do
        bcclStreamAt group (.device device)
        check fate.syncs .runtime
        let enqueue := !(← getGroup group).coalescingState.isSet && fate.captureStatus == .none
        let work ← initWork group opType false enqueue
        pure ({
          id := work.id
          group
          work := some work
          enqueue
          rest := collectiveSections } : Call))
      (fun call after => fate.syncs = true ∧ Silent call group ∧
        Joined start thread group device comm after)
      (fun _ after => fate.syncs = false ∧ LeftOpen start thread after) world := by
  refine bind_bcclStreamAt (fun _ => ?_) fun missing => ?_
  · refine bind_check (fun syncs => ?_) fun stops => ⟨stops, joined.counter⟩
    refine bind_getGroup ?_
    have set : (world.groups group).coalescingState.isSet = true := by
      rw [joined.state]
      rfl
    simp only [set, Bool.not_true, Bool.false_and]
    exact ⟨syncs, ⟨rfl, rfl, rfl, rfl, rfl⟩, joined.state, joined.onDevice, joined.onComm,
      joined.counter, joined.capturable, joined.pending, joined.cached, joined.stream⟩
  · rw [joined.stream] at missing
    cases missing

theorem Opened.modify (opened : Opened start thread group world) (spares : Spares change) :
    Opened start thread group (world.modifyGroup group change) where
  state := by rw [modifyGroup_same, spares.state, opened.state]
  onDevice := by rw [modifyGroup_same, spares.onDevice, opened.onDevice]
  onComm := by rw [modifyGroup_same, spares.onComm, opened.onComm]
  counter := opened.counter
  capturable := opened.capturable
  pending := opened.pending
  cache := by rw [modifyGroup_same, spares.cache, opened.cache]
  streams := by rw [modifyGroup_same, spares.streams, opened.streams]
  fresh := opened.fresh

theorem joined_of_open {marked : Bool} (opened : Opened start thread group world)
    (counter : after.bcclActiveGroupCounter = world.bcclActiveGroupCounter)
    (capturable : after.capturable = world.capturable)
    (pending : after.pendingEventQueries = world.pendingEventQueries)
    (same : (after.groups group).coalescingState = (world.groups group).coalescingState)
    (cached : (after.groups group).devBCCLCommMap.lookup (.device device) = some comm)
    (stream : (after.groups group).bcclStreams.contains (.device device) = true) :
    Joined start thread group device comm (after.modifyGroup group fun self =>
      { markCoalColl (if marked then self else bumpSeqCollective self) with
        coalescedDevice := device
        coalescedComm := some comm }) := by
  have unchanged : ∀ self : Group,
      (if marked then self else bumpSeqCollective self).coalescingState = self.coalescingState ∧
      (if marked then self else bumpSeqCollective self).devBCCLCommMap = self.devBCCLCommMap ∧
      (if marked then self else bumpSeqCollective self).bcclStreams = self.bcclStreams := by
    intro self
    split <;> exact ⟨rfl, rfl, rfl⟩
  constructor
  · rw [modifyGroup_same]
    simp only [markCoalColl, (unchanged _).1, same, opened.state]
  · rw [modifyGroup_same]
  · rw [modifyGroup_same]
  · change after.bcclActiveGroupCounter thread = _
    rw [counter, opened.counter]
  · exact capturable.trans opened.capturable
  · exact pending.trans opened.pending
  · rw [modifyGroup_same]
    simpa only [markCoalColl, (unchanged _).2.1] using cached
  · rw [modifyGroup_same]
    simpa only [markCoalColl, (unchanged _).2.2] using stream

open List

theorem beginCollective_open (opened : Opened start thread group world) :
    wp (beginCollective group device opType fate)
      (fun call after => ((start.capturable = true ∨ fate.captureStatus = .none) ∧
          CommReady start group device fate ∧ fate.syncs = true) ∧ Silent call group ∧
        Joined start thread group device (commOf start group device) after)
      (fun _ after => ¬((start.capturable = true ∨ fate.captureStatus = .none) ∧
          CommReady start group device fate ∧ fate.syncs = true) ∧ LeftOpen start thread after)
      world := by
  unfold beginCollective
  refine bind_errorIfCapturing (fun capturable => ?_) fun refused exception => ?_
  · rw [opened.capturable] at capturable
    refine bind_modifyGroup (bind_modifyGroup ?_)
    have bumped := (opened.modify spares_bump).modify spares_bumpOpId
    generalize World.modifyGroup (World.modifyGroup world group _) group bumpOpId = ready at bumped ⊢
    refine bind_communicator (fun comm cached => ?_) (fun absent creates => ?_)
      fun absent refuses exception => ?_
    · have known := cached
      rw [bumped.cache] at known
      have own : commOf start group device = comm := by
        unfold commOf
        rw [known]
        rfl
      rw [own]
      refine wp_seq (fun _ after => after = _) (wp_of_ok (joinCollective_open (by rw [bumped.state])
        bumped.onDevice bumped.onComm) rfl) fun _ _ same => ?_
      subst same
      by_cases stream : (ready.groups group).bcclStreams.contains (.device device) = true
      · have present : CommReady start group device fate := by
          unfold CommReady
          rw [known]
          exact bumped.streams ▸ stream
        exact wp_mono (makeSilent (joined_of_open bumped rfl rfl rfl rfl cached stream))
          (fun call after made => ⟨⟨capturable, present, made.1⟩, made.2⟩)
          fun _ after stopped => ⟨fun all => by simp [stopped.1] at all, stopped.2⟩
      · refine bind_bcclStreamAt (fun found => absurd ?_ stream) fun missing exception => ⟨?_, ?_⟩
        · rw [World.modifyGroup_same] at found
          simp only [markCoalColl] at found
          split at found <;> exact found
        · rintro ⟨_, present, _⟩
          unfold CommReady at present
          rw [known] at present
          exact stream (bumped.streams ▸ present)
        · exact bumped.counter
    · have known := absent
      rw [bumped.cache] at known
      have own : commOf start group device = ready.nextComm := by
        unfold commOf
        rw [known, bumped.fresh]
        rfl
      have present : CommReady start group device fate := by
        unfold CommReady
        rw [known]
        exact creates
      rw [own]
      refine wp_seq (fun _ after => after = _) (wp_of_ok (joinCollective_open
        (by rw [World.modifyGroup_same, bumped.state]) (by rw [World.modifyGroup_same, bumped.onDevice])
        (by rw [World.modifyGroup_same, bumped.onComm])) rfl) fun _ _ same => ?_
      subst same
      exact wp_mono (makeSilent (joined_of_open bumped rfl rfl rfl
          (by rw [World.modifyGroup_same]) (by rw [World.modifyGroup_same, lookup_cons_self])
          (by simp)))
        (fun call after made => ⟨⟨capturable, present, made.1⟩, made.2⟩)
        fun _ after stopped => ⟨fun all => by simp [stopped.1] at all, stopped.2⟩
    · refine ⟨fun all => ?_, bumped.counter⟩
      have present := all.2.1
      unfold CommReady at present
      rw [← bumped.cache, absent] at present
      rw [refuses] at present
      cases present
  · rw [opened.capturable] at refused
    exact ⟨fun all => refused all.1, opened.counter⟩

theorem beginCollective_joined {first : Nat} (joined : Joined start thread group first comm world) :
    wp (beginCollective group device opType fate)
      (fun call after => ((start.capturable = true ∨ fate.captureStatus = .none) ∧
          device = first ∧ fate.syncs = true) ∧ Silent call group ∧
        Joined start thread group first comm after)
      (fun _ after => ¬((start.capturable = true ∨ fate.captureStatus = .none) ∧
          device = first ∧ fate.syncs = true) ∧ LeftOpen start thread after)
      world := by
  refine bind_errorIfCapturing (fun capturable => ?_) fun refused exception => ?_
  · rw [joined.capturable] at capturable
    refine bind_modifyGroup (bind_modifyGroup ?_)
    have bumped := (joined.modify spares_bump).modify spares_bumpOpId
    generalize World.modifyGroup (World.modifyGroup world group _) group bumpOpId = ready at bumped ⊢
    have continues : ∀ own (later : World), (device = first → own = comm) →
        Joined start thread group first comm later →
        wp (do
            joinCollective group device own
            bcclStreamAt group (.device device)
            check fate.syncs .runtime
            let enqueue := !(← getGroup group).coalescingState.isSet && fate.captureStatus == .none
            let work ← initWork group opType false enqueue
            pure ({
              id := work.id
              group
              work := some work
              enqueue
              rest := collectiveSections } : Call))
          (fun call after => ((start.capturable = true ∨ fate.captureStatus = .none) ∧
              device = first ∧ fate.syncs = true) ∧ Silent call group ∧
            Joined start thread group first comm after)
          (fun _ after => ¬((start.capturable = true ∨ fate.captureStatus = .none) ∧
              device = first ∧ fate.syncs = true) ∧ LeftOpen start thread after)
          later := by
      intro own later agrees joined
      refine wp_seq _ (wp_mono (joinCollective_joined joined) (fun _ _ spec => spec) ?_) ?_
      · rintro exception after ⟨differs, left⟩
        exact ⟨fun all => differs ⟨all.2.1, agrees all.2.1⟩, left⟩
      · rintro _ after ⟨rfl, joined⟩
        exact wp_mono (makeSilent joined)
          (fun call after made => ⟨⟨capturable, rfl, made.1⟩, made.2⟩)
          fun _ after stopped => ⟨fun all => by simp [stopped.1] at all, stopped.2⟩
    refine bind_communicator (fun own cached => ?_) (fun absent creates => ?_)
      fun absent refuses exception => ?_
    · refine continues own ready (fun same => ?_) bumped
      subst same
      rw [bumped.cached] at cached
      exact (Option.some.inj cached).symm
    · have different : device ≠ first := by
        rintro rfl
        rw [bumped.cached] at absent
        cases absent
      refine continues _ _ (fun same => absurd same different) ?_
      constructor
      · rw [World.modifyGroup_same]
        exact bumped.state
      · rw [World.modifyGroup_same]
        exact bumped.onDevice
      · rw [World.modifyGroup_same]
        exact bumped.onComm
      · exact bumped.counter
      · exact bumped.capturable
      · exact bumped.pending
      · have apart : (CommKey.device first == CommKey.device device) = false := by
          simpa using fun same : (first : Int) = device => different (by exact_mod_cast same.symm)
        rw [World.modifyGroup_same, lookup_cons, apart]
        exact bumped.cached
      · rw [World.modifyGroup_same, contains_cons]
        exact Bool.or_eq_true_iff.mpr (.inr bumped.stream)
    · refine ⟨fun all => ?_, bumped.counter⟩
      obtain rfl := all.2.1
      rw [bumped.cached] at absent
      cases absent
  · rw [joined.capturable] at refused
    exact ⟨fun all => refused all.1, joined.counter⟩

theorem wp_runSections_cons {next : Section} {rest : List Section}
    {normal : Call → World → Prop} {thrown : Exn → World → Prop} :
    wp (runSections thread fate (next :: rest) call) normal thrown world ↔
      wp (perform thread fate call next)
        (fun call after => wp (runSections thread fate rest call) normal thrown after) thrown world :=
  wp_bind _ _

theorem finishSilent (silent : Silent call group)
    (joined : Joined start thread group device comm world) :
    wp (finishCall thread fate call)
      (fun _ after => (fate.launches = true ∧ 0 ≤ start.pendingEventQueries) ∧
        Joined start thread group device comm after)
      (fun _ after => ¬(fate.launches = true ∧ 0 ≤ start.pendingEventQueries) ∧
        LeftOpen start thread after) world := by
  obtain ⟨work, has⟩ := Option.isSome_iff_exists.mp silent.work
  unfold finishCall
  rw [silent.rest]
  refine wp_runSections_cons.mpr ?_
  by_cases launches : fate.launches = true
  · refine wp_of_ok (by rw [perform_launch, if_pos launches]) ?_
    refine wp_runSections_cons.mpr (wp_of_ok (perform_assignTimeout has) ?_)
    refine wp_runSections_cons.mpr (wp_of_ok perform_incPendingEventQueries ?_)
    refine wp_runSections_cons.mpr ?_
    have charged := joined.modify (spares_takeTimeout world.finished
      (withTimeout (world.groups call.group) work))
    rw [← silent.group] at charged ⊢
    have refuses : ({ call with work := some (withTimeout (world.groups call.group) work) } :
      Call).enqueue = false := silent.enqueue
    unfold wp
    rw [perform_workEnqueue_not refuses]
    by_cases counted : 0 ≤ start.pendingEventQueries
    · rw [if_pos (by
        change 0 < world.pendingEventQueries + 1
        rw [joined.pending]
        omega)]
      refine wp_runSections_cons.mpr (wp_of_ok (perform_emplace_not silent.admitted) ?_)
      exact ⟨⟨launches, counted⟩, charged.state, charged.onDevice, charged.onComm, charged.counter,
        charged.capturable, by
          change world.pendingEventQueries + 1 - 1 = _
          rw [joined.pending]
          omega, charged.cached, charged.stream⟩
    · rw [if_neg (by
        change ¬0 < world.pendingEventQueries + 1
        rw [joined.pending]
        omega)]
      exact ⟨fun all => counted all.2, joined.counter⟩
  · unfold wp
    rw [perform_launch, if_neg launches]
    exact ⟨fun all => launches all.1, joined.counter⟩

/-- Nothing throws in the operation for a piece, once its communicator is there. -/
def Piece.Runs (world : World) (piece : Piece) : Prop :=
  piece.output.numel = piece.input.numel ∧
    (world.capturable = true ∨ piece.fate.captureStatus = .none) ∧
    piece.fate.syncs = true ∧ piece.fate.launches = true

variable {name : String}

theorem outOfPlace_open (opened : Opened start thread group world) :
    wp (outOfPlace name opType thread group piece)
      (fun _ after => (piece.Runs start ∧ CommReady start group piece.input.device piece.fate ∧
          0 ≤ start.pendingEventQueries) ∧
        Joined start thread group piece.input.device (commOf start group piece.input.device) after)
      (fun _ after => ¬(piece.Runs start ∧ CommReady start group piece.input.device piece.fate ∧
        0 ≤ start.pendingEventQueries) ∧ LeftOpen start thread after) world := by
  refine bind_check (fun same => ?_) fun differ => ⟨fun all => ?_, opened.counter⟩
  · have same : piece.output.numel = piece.input.numel := by simpa using same
    refine wp_seq _ (wp_mono (beginCollective_open opened) (fun _ _ spec => spec) ?_) ?_
    · rintro exception after ⟨fails, left⟩
      exact ⟨fun all => fails ⟨all.1.2.1, all.2.1, all.1.2.2.1⟩, left⟩
    · rintro call after ⟨⟨captured, ready, syncs⟩, silent, joined⟩
      refine wp_mono (finishSilent silent joined) ?_ ?_
      · rintro _ final ⟨⟨launches, counted⟩, kept⟩
        exact ⟨⟨⟨same, captured, syncs, launches⟩, ready, counted⟩, kept⟩
      · rintro exception final ⟨fails, left⟩
        exact ⟨fun all => fails ⟨all.1.2.2.2, all.2.2⟩, left⟩
  · rw [all.1.1, beq_self_eq_true] at differ
    cases differ

theorem outOfPlace_joined (joined : Joined start thread group device comm world) :
    wp (outOfPlace name opType thread group piece)
      (fun _ after => (piece.Runs start ∧ piece.input.device = device) ∧
        Joined start thread group device comm after)
      (fun _ after => ¬((piece.Runs start ∧ piece.input.device = device) ∧
        0 ≤ start.pendingEventQueries) ∧ LeftOpen start thread after) world := by
  refine bind_check (fun same => ?_) fun differ => ⟨fun all => ?_, joined.counter⟩
  · have same : piece.output.numel = piece.input.numel := by simpa using same
    refine wp_seq _ (wp_mono (beginCollective_joined joined) (fun _ _ spec => spec) ?_) ?_
    · rintro exception after ⟨fails, left⟩
      exact ⟨fun all => fails ⟨all.1.1.2.1, all.1.2, all.1.1.2.2.1⟩, left⟩
    · rintro call after ⟨⟨captured, here, syncs⟩, silent, joined⟩
      refine wp_mono (finishSilent silent joined) ?_ ?_
      · rintro _ final ⟨⟨launches, counted⟩, kept⟩
        exact ⟨⟨⟨same, captured, syncs, launches⟩, here⟩, kept⟩
      · rintro exception final ⟨fails, left⟩
        exact ⟨fun all => fails ⟨all.1.1.2.2.2, all.2⟩, left⟩
  · rw [all.1.1.1, beq_self_eq_true] at differ
    cases differ

theorem forEach_joined {pieces : List Piece} :
    ∀ {world : World}, Joined start thread group device comm world →
    wp (forEach (fun piece => do let _work ← outOfPlace name opType thread group piece) pieces)
      (fun _ after => (∀ piece ∈ pieces, piece.Runs start ∧ piece.input.device = device) ∧
        Joined start thread group device comm after)
      (fun _ after => ¬((∀ piece ∈ pieces, piece.Runs start ∧ piece.input.device = device) ∧
        0 ≤ start.pendingEventQueries) ∧ LeftOpen start thread after) world := by
  induction pieces with
  | nil => exact fun joined => ⟨by simp, joined⟩
  | cons piece rest ih =>
    intro world joined
    unfold forEach
    rw [wp_bind, wp_bind]
    refine wp_mono (outOfPlace_joined joined) ?_ ?_
    · rintro _ after ⟨runs, kept⟩
      refine (wp_pure _).mpr (wp_mono (ih kept) ?_ ?_)
      · rintro _ final ⟨others, last⟩
        exact ⟨forall_mem_cons.mpr ⟨runs, others⟩, last⟩
      · rintro exception final ⟨fails, left⟩
        exact ⟨fun all => fails ⟨(forall_mem_cons.mp all.1).2, all.2⟩, left⟩
    · rintro exception after ⟨fails, left⟩
      exact ⟨fun all => fails ⟨(forall_mem_cons.mp all.1).1, all.2⟩, left⟩

/-- The region as `endCoalescing` leaves it when it throws after `groupEnd`. -/
def unclosed (start : World) (thread group device comm : Nat) : RegionState where
  coalescingState :=
    { (start.groups group).coalescingState with coalActive := true, coalColl := true }
  coalescedDevice := device
  coalescedComm := some comm
  bcclActiveGroupCounter := start.bcclActiveGroupCounter thread

structure Ending (call : Call) (group : Nat) : Prop where
  group : call.group = group
  admitted : call.admitted = false
  rest : call.rest = endCoalescingSections
  work : call.work.isSome = true

theorem beginEndCoalescing_joined (joined : Joined start thread group device comm world) :
    wp (beginEndCoalescing thread group opType fate)
      (fun call after => Ending call group ∧ Joined start thread group device comm after)
      (fun _ _ => False) world := by
  refine bind_getGroup ?_
  rw [joined.onComm]
  refine bind_getGroup ?_
  rw [joined.onDevice]
  refine bind_check (fun _ => ?_) fun negative => by simp at negative
  refine bind_bcclStreamAt (fun _ => ?_) fun missing => ?_
  · have recorded : ∀ shouldRecord, wp (initWork group opType
        (world.groups group).coalescingState.coalP2P shouldRecord)
        (fun _ after => Joined start thread group device comm after) (fun _ _ => False) world := by
      intro shouldRecord
      cases shouldRecord
      · exact wp_of_ok (initWork_plain _ _ _ _) ⟨joined.state, joined.onDevice, joined.onComm,
          joined.counter, joined.capturable, joined.pending, joined.cached, joined.stream⟩
      · exact wp_of_ok (initWork_recorded _ _ _ _) ⟨joined.state, joined.onDevice, joined.onComm,
          joined.counter, joined.capturable, joined.pending, joined.cached, joined.stream⟩
    refine wp_seq _ (recorded _) fun work after kept => ?_
    exact ⟨⟨rfl, rfl, rfl, rfl⟩, kept⟩
  · rw [joined.stream] at missing
    cases missing

theorem endCoalescing_joined
    (counted : 0 ≤ start.pendingEventQueries) (joined : Joined start thread group device comm world) :
    wp (endCoalescing thread group opType fate)
      (fun _ _ => fate.launches = true ∧ fate.groups = true ∧ fate.recordsEnd = true)
      (fun _ after => (¬(fate.launches = true ∧ fate.groups = true) ∧ LeftOpen start thread after) ∨
        (fate.launches = true ∧ fate.groups = true ∧ fate.recordsEnd = false ∧
          regionState thread group after = unclosed start thread group device comm)) world := by
  refine wp_seq _ (wp_mono (beginEndCoalescing_joined joined) (fun _ _ spec => spec)
    fun _ _ impossible => impossible.elim) ?_
  rintro call after ⟨ending, joined⟩
  obtain ⟨work, has⟩ := Option.isSome_iff_exists.mp ending.work
  unfold finishCall
  rw [ending.rest]
  refine wp_runSections_cons.mpr (wp_of_ok (perform_assignTimeout has) ?_)
  have charged := joined.modify (spares_takeTimeout after.finished
    (withTimeout (after.groups call.group) work))
  rw [← ending.group] at charged ⊢
  generalize World.modifyGroup after call.group _ = ready at charged ⊢
  refine wp_runSections_cons.mpr ?_
  by_cases closes : fate.launches = true ∧ fate.groups = true
  · by_cases records : fate.recordsEnd = true
    · refine wp_of_ok (by rw [perform_closeGroup, if_pos closes, if_pos records]) ?_
      refine wp_runSections_cons.mpr (wp_of_ok perform_incPendingEventQueries ?_)
      refine wp_runSections_cons.mpr ?_
      have finishes : ∀ (last : Call) (final : World),
          wp (runSections thread fate [.emplace, .resetCoalescing] last)
            (fun _ _ => fate.launches = true ∧ fate.groups = true ∧ fate.recordsEnd = true)
            (fun _ after => (¬(fate.launches = true ∧ fate.groups = true) ∧
              LeftOpen start thread after) ∨ (fate.launches = true ∧ fate.groups = true ∧
              fate.recordsEnd = false ∧
              regionState thread call.group after = unclosed start thread call.group device comm))
            final := by
        intro last final
        refine wp_runSections_cons.mpr ?_
        by_cases admitted : last.admitted = true
        · cases has : last.work with
          | none => exact wp_of_ok (perform_emplace_none has) ⟨closes.1, closes.2, records⟩
          | some work => exact wp_of_ok (perform_emplace has admitted) ⟨closes.1, closes.2, records⟩
        · exact wp_of_ok (perform_emplace_not (by simpa using admitted))
            ⟨closes.1, closes.2, records⟩
      by_cases enqueues : call.enqueue = true
      · have enqueues : ({ call with work := some (withTimeout (after.groups call.group) work) } :
          Call).enqueue = true := enqueues
        exact wp_of_ok (perform_workEnqueue enqueues) (finishes _ _)
      · have refuses : ({ call with work := some (withTimeout (after.groups call.group) work) } :
          Call).enqueue = false := by simpa using enqueues
        unfold wp
        rw [perform_workEnqueue_not refuses, if_pos (by
          change 0 < ready.pendingEventQueries + 1
          rw [charged.pending]
          omega)]
        exact finishes _ _
    · unfold wp
      rw [perform_closeGroup, if_pos closes, if_neg records]
      refine .inr ⟨closes.1, closes.2, by simpa using records, ?_⟩
      simp only [regionState, unclosed, World.leaveGroup_groups, World.leaveGroup_counter,
        charged.state, charged.onDevice, charged.onComm, charged.counter, UInt64.add_sub_cancel]
  · unfold wp
    rw [perform_closeGroup, if_neg closes]
    by_cases launches : fate.launches = true
    · rw [if_pos launches]
      exact .inl ⟨closes, charged.counter⟩
    · rw [if_neg launches]
      exact .inl ⟨closes, charged.counter⟩

/-- The region as `startCoalescing` leaves it when it throws. -/
def unopened (start : World) (thread group : Nat) : RegionState where
  coalescingState := { (start.groups group).coalescingState with coalActive := true }
  coalescedDevice := -1
  coalescedComm := none
  bcclActiveGroupCounter := start.bcclActiveGroupCounter thread

theorem startCoalescing_open : wp (startCoalescing thread group fate)
    (fun _ after => fate.groups = true ∧ Opened start thread group after)
    (fun _ after => fate.groups = false ∧
      regionState thread group after = unopened start thread group) start := by
  refine bind_modifyGroup ?_
  refine bind_check (fun groups => ?_) fun fails => ⟨fails, ?_⟩
  · refine ⟨groups, ?_⟩
    constructor <;> simp
    · rfl
    · rfl
    · rfl
    · rfl
  · simp [regionState, unopened]
    rfl

/-- No operation of the region throws: each runs on the device of the first, whose
communicator is there or can be made. -/
def NothingThrows (start : World) (group : Nat) (first : Piece) (rest : List Piece) : Prop :=
  (∀ piece ∈ first :: rest, piece.Runs start ∧ piece.input.device = first.input.device) ∧
    CommReady start group first.input.device first.fate ∧ 0 ≤ start.pendingEventQueries

theorem coalesced_outcome {opType endType : OpType} {begins finish : Fate} :
    wp (coalesced (outOfPlace name opType thread group) thread group endType (first :: rest) begins
        finish)
      (fun _ _ => begins.groups = true ∧ NothingThrows start group first rest ∧
        finish.launches = true ∧ finish.groups = true ∧ finish.recordsEnd = true)
      (fun _ after =>
        begins.groups = false ∧ regionState thread group after = unopened start thread group ∨
        begins.groups = true ∧ ¬(NothingThrows start group first rest ∧ finish.launches = true ∧
          finish.groups = true) ∧ LeftOpen start thread after ∨
        begins.groups = true ∧ NothingThrows start group first rest ∧ finish.launches = true ∧
          finish.groups = true ∧ finish.recordsEnd = false ∧
          regionState thread group after = unclosed start thread group first.input.device
            (commOf start group first.input.device)) start := by
  refine wp_seq _ (wp_mono startCoalescing_open (fun _ _ spec => spec) fun _ _ fails => .inl fails) ?_
  rintro _ world ⟨groups, opened⟩
  refine wp_seq (fun _ after => NothingThrows start group first rest ∧
    Joined start thread group first.input.device (commOf start group first.input.device) after) ?_ ?_
  · unfold forEach
    rw [wp_bind, wp_bind]
    refine wp_mono (outOfPlace_open opened) ?_ ?_
    · rintro _ after ⟨⟨runs, ready, counted⟩, joined⟩
      refine (wp_pure _).mpr (wp_mono (forEach_joined joined) ?_ ?_)
      · rintro _ final ⟨others, last⟩
        exact ⟨⟨forall_mem_cons.mpr ⟨⟨runs, rfl⟩, others⟩, ready, counted⟩, last⟩
      · rintro exception final ⟨fails, left⟩
        exact .inr (.inl ⟨groups, fun all =>
          fails ⟨(forall_mem_cons.mp all.1.1).2, all.1.2.2⟩, left⟩)
    · rintro exception after ⟨fails, left⟩
      exact .inr (.inl ⟨groups, fun all =>
        fails ⟨(forall_mem_cons.mp all.1.1).1.1, all.1.2⟩, left⟩)
  · rintro _ after ⟨nothing, joined⟩
    refine wp_mono (endCoalescing_joined nothing.2.2 joined) ?_ ?_
    · rintro _ _ ⟨launches, ends, records⟩
      exact ⟨groups, nothing, launches, ends, records⟩
    · rintro exception final (⟨fails, left⟩ | ⟨launches, ends, fails, same⟩)
      · exact .inr (.inl ⟨groups, fun all => fails all.2, left⟩)
      · exact .inr (.inr ⟨groups, nothing, launches, ends, fails, same⟩)

/-- When an exception leaves the region as it was: it is not thrown between the two, and it
finds the region in the state that `startCoalescing` or the operations make. -/
def Undisturbed (start : World) (thread group : Nat) (begins finish : Fate) : List Piece → Prop
  | [] => True
  | first :: rest =>
    if begins.groups then
      NothingThrows start group first rest ∧ finish.launches = true ∧ finish.groups = true ∧
        (finish.recordsEnd = true ∨ regionState thread group start =
          unclosed start thread group first.input.device (commOf start group first.input.device))
    else regionState thread group start = unopened start thread group

theorem not_leftOpen (left : LeftOpen start thread after)
    (same : regionState thread group after = regionState thread group start) : False := by
  have counters : after.bcclActiveGroupCounter thread = start.bcclActiveGroupCounter thread :=
    congrArg RegionState.bcclActiveGroupCounter same
  rw [left] at counters
  simp at counters

theorem restores_coalesced {opType endType : OpType} {begins finish : Fate} :
    Restores (coalesced (outOfPlace name opType thread group) thread group endType (first :: rest)
      begins finish) thread group start ↔
      Undisturbed start thread group begins finish (first :: rest) := by
  constructor
  · intro restores
    simp only [Undisturbed]
    cases run : coalesced (outOfPlace name opType thread group) thread group endType (first :: rest)
      begins finish start with
    | ok call after =>
      have ⟨groups, nothing, launches, ends, records⟩ := wp_ok coalesced_outcome run
      rw [if_pos groups]
      exact ⟨nothing, launches, ends, .inl records⟩
    | error exception after =>
      have same := restores exception after run
      rcases wp_error coalesced_outcome run with ⟨fails, made⟩ | ⟨_, _, left⟩ |
        ⟨groups, nothing, launches, ends, _, made⟩
      · rw [if_neg (by simp [fails])]
        exact same.symm.trans made
      · exact (not_leftOpen left same).elim
      · rw [if_pos groups]
        exact ⟨nothing, launches, ends, .inr (same.symm.trans made)⟩
  · intro undisturbed exception after run
    simp only [Undisturbed] at undisturbed
    rcases wp_error coalesced_outcome run with ⟨fails, made⟩ | ⟨groups, broken, _⟩ |
      ⟨groups, _, _, _, fails, made⟩
    · rw [if_neg (by simp [fails])] at undisturbed
      exact made.trans undisturbed.symm
    · rw [if_pos groups] at undisturbed
      exact (broken ⟨undisturbed.1, undisturbed.2.1, undisturbed.2.2.1⟩).elim
    · rw [if_pos groups] at undisturbed
      rcases undisturbed.2.2.2 with records | same
      · rw [fails] at records
        cases records
      · exact made.trans same.symm

end Operations

/-- The paths for tensors of different sizes leave the region as it was exactly when no step of
theirs throws, or the exception finds the region already in the state that they make. -/
theorem uneven_restores (world : World) (thread group : Nat) (own : Tensor)
    (tensors : List (Tensor × Fate)) (begins finish : Fate)
    (uneven : checkSameSize (tensors.map (·.1)) = false) :
    (Restores (allgather thread group tensors own begins finish) thread group world ↔
      Undisturbed world thread group begins finish
        (gatherPieces (world.groups group).rank own tensors)) ∧
    (Restores (reduceScatter thread group own tensors begins finish) thread group world ↔
      Undisturbed world thread group begins finish
        (scatterPieces (world.groups group).rank own tensors)) := by
  obtain ⟨first, rest, rfl⟩ : ∃ first rest, tensors = first :: rest := by
    cases tensors with
    | nil => cases uneven
    | cons first rest => exact ⟨first, rest, rfl⟩
  constructor
  · have path : allgather thread group (first :: rest) own begins finish world =
        coalesced (broadcastOop thread group) thread group .allgather
          (gatherPieces (world.groups group).rank own (first :: rest)) begins finish world := by
      unfold allgather
      rw [if_neg (Bool.eq_false_iff.mp uneven)]
      rfl
    unfold Restores
    rw [path]
    unfold gatherPieces
    rw [List.mapIdx_cons]
    exact restores_coalesced
  · have path : reduceScatter thread group own (first :: rest) begins finish world =
        coalesced (reduceOop thread group) thread group .reduceScatter
          (scatterPieces (world.groups group).rank own (first :: rest)) begins finish world := by
      unfold reduceScatter
      rw [if_neg (Bool.eq_false_iff.mp uneven)]
      rfl
    unfold Restores
    rw [path]
    unfold scatterPieces
    rw [List.mapIdx_cons]
    exact restores_coalesced

section Runs

def regionThrown (call : M Call) (thread group : Nat) (world : World) : Option RegionState :=
  match call world with
  | .ok _ _ => none
  | .error _ after => some (regionState thread group after)

theorem Restores.regionThrown {call : M Call} {thread group : Nat} {world : World}
    (restores : Restores call thread group world) {state : RegionState}
    (thrown : regionThrown call thread group world = some state) :
    state = regionState thread group world := by
  unfold Distributed.regionThrown at thrown
  split at thrown
  · cases thrown
  · next exception after run => rw [← Option.some.inj thrown, restores exception after run]

/-- Rank 0 of two gathers tensors of two and of three elements, its own has one. -/
theorem uneven_restores_fails : ¬∀ (world : World) (thread group : Nat) (own : Tensor)
    (tensors : List (Tensor × Fate)) (begins finish : Fate),
    checkSameSize (tensors.map (·.1)) = false →
    Restores (allgather thread group tensors own begins finish) thread group world ∧
      Restores (reduceScatter thread group own tensors begins finish) thread group world := by
  intro all
  have restores := (all { groups := fun _ => {} } 0 0 ⟨[1], 0⟩
    [(⟨[2], 0⟩, {}), (⟨[3], 0⟩, {})] {} {} (by decide)).1
  have thrown : regionThrown (allgather 0 0 [(⟨[2], 0⟩, {}), (⟨[3], 0⟩, {})] ⟨[1], 0⟩ {} {}) 0 0
      { groups := fun _ => {} } = some ⟨{ coalActive := true }, -1, none, 1⟩ := by decide +kernel
  exact absurd (restores.regionThrown thrown) (by decide +kernel)

instance (piece : Piece) (world : World) : Decidable (piece.Runs world) :=
  inferInstanceAs (Decidable (_ ∧ _ ∧ _ ∧ _))

/-- The same with an own tensor of two elements goes through on both paths. -/
theorem uneven_restores_sample :
    Restores (allgather 0 0 [(⟨[2], 0⟩, {}), (⟨[3], 0⟩, {})] ⟨[1, 2], 0⟩ {} {}) 0 0
      { groups := fun _ => {} } ∧
    Restores (reduceScatter 0 0 ⟨[1, 2], 0⟩ [(⟨[2], 0⟩, {}), (⟨[3], 0⟩, {})] {} {}) 0 0
      { groups := fun _ => {} } := by
  have both := uneven_restores { groups := fun _ => {} } 0 0 ⟨[1, 2], 0⟩
    [(⟨[2], 0⟩, {}), (⟨[3], 0⟩, {})] {} {} (by decide)
  have passes : ∀ pieces : List Piece, (∀ piece ∈ pieces, piece.Runs { groups := fun _ => {} } ∧
      piece.input.device = 0) → pieces.head?.any (·.fate.createsComm) = true →
      Undisturbed { groups := fun _ => {} } 0 0 {} {} pieces := by
    intro pieces runs creates
    cases pieces with
    | nil => trivial
    | cons first rest =>
      have here := (List.forall_mem_cons.mp runs).1.2
      simp only [Undisturbed]
      refine ⟨⟨fun piece member => ?_, by simpa [CommReady] using creates, by decide⟩, trivial,
        trivial, .inl trivial⟩
      rw [here]
      exact runs piece member
  exact ⟨both.1.mpr (passes _ (by decide +kernel) (by decide)),
    both.2.mpr (passes _ (by decide +kernel) (by decide))⟩

end Runs

end TorchSupa.Distributed
