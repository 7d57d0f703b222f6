import TorchSupa.Distributed.Machine

/-!
What issuing an operation has to do with the works of the process: up to the point where the
work is made nothing, and from there on one work, with its entry in the flight recorder.
-/

namespace TorchSupa.Distributed

open Outcome

def Group.works (self : Group) : Group :=
  { self with
    devBCCLCommMap := []
    bcclStreams := []
    coalescingState := {}
    coalescedDevice := -1
    coalescedComm := none
    seqCollective := 0
    seqP2P := 0
    opId := 0 }

def World.works (world : World) : World :=
  { world with
    groups := fun group => (world.groups group).works
    recorder := {}
    bcclActiveGroupCounter := fun _ => 0
    nextComm := 0
    nextCall := 0 }

theorem read_of_works {field : Type _} {before after : World} (read : World → field)
    (blind : ∀ world, read world.works = read world) (same : after.works = before.works) :
    read after = read before := by
  rw [← blind after, same, blind before]

theorem group_of_works {field : Type _} {before after : World} (read : Group → field)
    (blind : ∀ self, read self.works = read self) (same : after.works = before.works) (group : Nat) :
    read (after.groups group) = read (before.groups group) :=
  read_of_works (fun world => read (world.groups group)) (fun world => blind (world.groups group)) same

structure SameWorks (before after : World) : Prop where
  works : after.works = before.works
  recorder : after.recorder = before.recorder
  nextCall : after.nextCall = before.nextCall

theorem SameWorks.refl (world : World) : SameWorks world world := ⟨rfl, rfl, rfl⟩

abbrev Sparing {α : Type} (program : M α) : Prop := Respects SameWorks program

theorem respects_getGroup {α : Type} {relation : World → World → Prop} {group : Nat}
    {next : Group → M α} (respects : ∀ self, Respects relation (next self)) :
    Respects relation (getGroup group >>= next) :=
  fun before world same => respects (world.groups group) before world same

section Sparing

variable {group : Nat} {change : Group → Group}

theorem modifyGroup_works {world : World} (spares : ∀ self, (change self).works = self.works) :
    (world.modifyGroup group change).works = world.works := by
  have groups : ∀ other, ((world.modifyGroup group change).groups other).works =
      (world.groups other).works := by
    intro other
    unfold World.modifyGroup
    dsimp only
    by_cases same : other = group
    · rw [same, Function.update_self, spares]
    · rw [Function.update_of_ne same]
  unfold World.works
  rw [funext groups]
  rfl

theorem sparing_modifyGroup
    (spares : ∀ self, (change self).works = self.works) : Sparing (modifyGroup group change) :=
  fun _ _ same => ⟨(modifyGroup_works spares).trans same.works, same.recorder, same.nextCall⟩

theorem sparing_errorIfCapturing (status : CaptureStatus) :
    Sparing (errorIfCapturingNonCapturableBCCL status) :=
  .read fun _ => .check _ _

theorem sparing_communicator (group : Nat) (key : CommKey) (fate : Fate) :
    Sparing (communicator group key fate) := by
  refine .bind (respects_getGroup fun _ => .pure _) fun found => ?_
  cases found with
  | some comm => exact .pure _
  | none =>
    refine .bind (.check _ _) fun _ => .read fun world => .bind ?_ fun _ => ?_
    · exact fun _ _ same => ⟨same.works, same.recorder, same.nextCall⟩
    · exact .bind (sparing_modifyGroup fun _ => rfl) fun _ => .pure _

theorem sparing_coalesceOn (group device comm : Nat) : Sparing (coalesceOn group device comm) := by
  refine .bind (respects_getGroup fun _ => .ite (sparing_modifyGroup fun _ => rfl) (.check _ _)) fun _ =>
    respects_getGroup fun self => ?_
  cases self.coalescedComm with
  | none => exact sparing_modifyGroup fun _ => rfl
  | some comm => exact .check _ _

theorem sparing_joinCollective (group device comm : Nat) :
    Sparing (joinCollective group device comm) := by
  refine respects_getGroup fun _ => .ite (.bind (sparing_modifyGroup fun _ => ?_) fun _ =>
    sparing_coalesceOn group device comm) (.pure _)
  split <;> rfl

theorem sparing_joinCollectiveCoalesced (group device comm : Nat) :
    Sparing (joinCollectiveCoalesced group device comm) :=
  respects_getGroup fun _ => .ite (.bind (sparing_modifyGroup fun _ => rfl) fun _ =>
    sparing_coalesceOn group device comm) (.pure _)

theorem sparing_joinPointToPoint (group device comm : Nat) :
    Sparing (joinPointToPoint group device comm) := by
  refine respects_getGroup fun _ => .ite (.bind (sparing_modifyGroup fun _ => ?_) fun _ =>
    sparing_coalesceOn group device comm) (.pure _)
  split <;> rfl

theorem sparing_bcclStreamAt (group : Nat) (key : CommKey) : Sparing (bcclStreamAt group key) :=
  respects_getGroup fun _ => .check _ _

theorem sparing_groupStart (thread : Nat) (fate : Fate) : Sparing (groupStart thread fate) :=
  .bind (.check _ _) fun _ _ _ same => ⟨same.works, same.recorder, same.nextCall⟩

theorem sparing_groupEnd (thread : Nat) (fate : Fate) : Sparing (groupEnd thread fate) :=
  .bind (.check _ _) fun _ _ _ same => ⟨same.works, same.recorder, same.nextCall⟩

theorem sparing_startCoalescing (thread group : Nat) (fate : Fate) :
    Sparing (startCoalescing thread group fate) :=
  .bind (sparing_modifyGroup fun _ => rfl) fun _ => sparing_groupStart thread fate

end Sparing

section Begin

variable {before world : World} {thread group : Nat} {fate : Fate}

def Recorded (before after : World) (call : Call) : Prop :=
  (after.recorder = before.recorder ∧ ∀ work, call.work = some work → work.traceId = none) ∨
    ∃ pgId collectiveSeqId p2pSeqId opId startEvent endEvent isP2P,
      after.recorder = (before.recorder.record pgId collectiveSeqId p2pSeqId opId startEvent
        endEvent isP2P).1 ∧
      (∀ work, call.work = some work → work.traceId = (before.recorder.record pgId collectiveSeqId
        p2pSeqId opId startEvent endEvent isP2P).2) ∧
      ∀ event, startEvent = some event ∨ endEvent = some event →
        event = call.id ∧ call.work.isSome = true

structure Made (before : World) (group : Nat) (call : Call) (after : World) : Prop where
  works : after.works = before.works
  next : after.nextCall = before.nextCall + 1
  group : call.group = group
  id : call.id = before.nextCall
  admitted : call.admitted = false
  own : ∀ work, call.work = some work → work.id = call.id
  workless : call.work = none → call.enqueue = false
  rest : call.rest = [] ∧ call.work = none ∨ call.rest = collectiveSections ∨
    call.rest = pointToPointSections ∨ call.rest = endCoalescingSections
  recorded : Recorded before after call

open Option

theorem startEvent_own {work : Work} {event : Nat} (starts : work.startEvent = some event) :
    event = work.id := by
  unfold Work.startEvent at starts
  split at starts
  · exact (some.inj starts).symm
  · cases starts

variable {opType : OpType}

theorem made_initWork {isP2P shouldRecord enqueue : Bool} {rest : List Section}
    (same : SameWorks before world)
    (known : rest = collectiveSections ∨ rest = pointToPointSections ∨ rest = endCoalescingSections) :
    wp (do
        let work ← initWork group opType isP2P shouldRecord
        pure ({ id := work.id, group, work := some work, enqueue, rest } : Call))
      (fun call after => Made before group call after) (fun _ after => SameWorks before after)
      world := by
  cases shouldRecord with
  | false =>
    refine wp_seq (fun work after => work = _ ∧ after = _)
      (wp_of_ok (initWork_plain _ _ _ _) ⟨rfl, rfl⟩) ?_
    rintro _ _ ⟨rfl, rfl⟩
    refine (wp_pure _).mpr ?_
    constructor
    · exact same.works
    · exact congrArg (· + 1) same.nextCall
    · rfl
    · exact same.nextCall
    · rfl
    · intro work has
      rw [← some.inj has]
    · nofun
    · exact .inr known
    · refine .inl ⟨same.recorder, fun work has => ?_⟩
      rw [← some.inj has]
      rfl
  | true =>
    refine wp_seq (fun work after => work = _ ∧ after = _)
      (wp_of_ok (initWork_recorded _ _ _ _) ⟨rfl, rfl⟩) ?_
    rintro _ _ ⟨rfl, rfl⟩
    refine (wp_pure _).mpr ?_
    constructor
    · exact same.works
    · exact congrArg (· + 1) same.nextCall
    · rfl
    · exact same.nextCall
    · rfl
    · intro work has
      rw [← some.inj has]
    · nofun
    · exact .inr known
    · rw [World.recorded, same.recorder]
      refine .inr ⟨_, _, _, _, _, _, _, rfl, fun work has => ?_, ?_⟩
      · rw [← some.inj has]
      rintro event (starts | ends)
      · exact ⟨startEvent_own starts, rfl⟩
      · exact ⟨(some.inj ends).symm, rfl⟩

variable {device : Nat}

theorem beginCollective_made :
    wp (beginCollective group device opType fate) (fun call after => Made world group call after)
      (fun _ after => SameWorks world after) world := by
  refine bind_kept (sparing_errorIfCapturing _) (.refl world) fun _ _ same => ?_
  refine bind_kept (sparing_modifyGroup fun _ => ?_) same fun _ _ same => ?_
  · split <;> rfl
  refine bind_kept (sparing_modifyGroup fun _ => rfl) same fun _ _ same => ?_
  refine bind_kept (sparing_communicator _ _ _) same fun _ _ same => ?_
  refine bind_kept (sparing_joinCollective _ _ _) same fun _ _ same => ?_
  refine bind_kept (sparing_bcclStreamAt _ _) same fun _ _ same => ?_
  refine bind_kept (.check _ _) same fun _ _ same => ?_
  exact made_initWork same (.inl rfl)

theorem beginCollectiveCoalesced_made : wp (beginCollectiveCoalesced group device opType fate)
      (fun call after => Made world group call after) (fun _ after => SameWorks world after)
      world := by
  refine bind_kept (sparing_errorIfCapturing _) (.refl world) fun _ _ same => ?_
  refine bind_kept (sparing_modifyGroup fun _ => rfl) same fun _ _ same => ?_
  refine bind_kept (sparing_modifyGroup fun _ => rfl) same fun _ _ same => ?_
  refine bind_kept (sparing_communicator _ _ _) same fun _ _ same => ?_
  refine bind_kept (sparing_joinCollectiveCoalesced _ _ _) same fun _ _ same => ?_
  refine bind_kept (sparing_bcclStreamAt _ _) same fun _ _ same => ?_
  refine bind_kept (.check _ _) same fun _ _ same => ?_
  exact made_initWork same (.inl rfl)

theorem beginPointToPoint_made {peer : Int} :
    wp (beginPointToPoint thread group device peer opType fate)
      (fun call after => Made world group call after) (fun _ after => SameWorks world after)
      world := by
  refine bind_read ?_
  refine bind_kept (respects_getGroup fun _ => .pure _) (.refl world) fun _ _ same => ?_
  refine bind_kept (sparing_modifyGroup fun _ => ?_) same fun _ _ same => ?_
  · split <;> rfl
  refine bind_kept (sparing_modifyGroup fun _ => rfl) same fun _ _ same => ?_
  refine bind_kept (sparing_communicator _ _ _) same fun _ _ same => ?_
  refine bind_kept (sparing_joinPointToPoint _ _ _) same fun _ _ same => ?_
  refine bind_kept (sparing_bcclStreamAt _ _) same fun _ _ same => ?_
  refine bind_kept (.check _ _) same fun _ ready same => ?_
  refine bind_read ?_
  cases region : (ready.groups group).coalescingState.isSet with
  | true =>
    refine wp_seq (fun work after => work = none ∧ after = _)
      (wp_of_ok (initWorkP2P_region region) ⟨rfl, rfl⟩) ?_
    rintro _ _ ⟨rfl, rfl⟩
    change Made _ _ _ _
    constructor
    · exact same.works
    · exact congrArg (· + 1) same.nextCall
    · rfl
    · exact same.nextCall
    · rfl
    · nofun
    · exact fun _ => rfl
    · exact .inr (.inr (.inl rfl))
    · rw [World.recorded, same.recorder]
      exact .inr ⟨_, _, _, _, none, none, _, rfl, nofun, nofun⟩
  | false =>
    refine wp_seq (fun work after => work = _ ∧ after = _)
      (wp_of_ok (initWorkP2P_single region) ⟨rfl, rfl⟩) ?_
    rintro _ _ ⟨rfl, rfl⟩
    change Made _ _ _ _
    constructor
    · exact same.works
    · exact congrArg (· + 1) same.nextCall
    · rfl
    · exact same.nextCall
    · rfl
    · intro work has
      rw [← some.inj has]
      rfl
    · nofun
    · exact .inr (.inr (.inl rfl))
    · rw [World.recorded, same.recorder]
      refine .inr ⟨_, _, _, _, _, _, _, rfl, fun work has => ?_, ?_⟩
      · rw [← some.inj has]
      rintro event (starts | ends)
      · exact ⟨startEvent_own starts, rfl⟩
      · exact ⟨(some.inj ends).symm, rfl⟩

theorem beginEndCoalescing_made :
    wp (beginEndCoalescing thread group opType fate) (fun call after => Made world group call after)
      (fun _ after => SameWorks world after) world := by
  refine bind_getGroup ?_
  cases (world.groups group).coalescedComm with
  | none =>
    refine bind_kept (sparing_groupEnd _ _) (.refl world) fun _ _ same => ?_
    refine bind_kept (sparing_modifyGroup fun _ => rfl) same fun _ _ same => ?_
    change Made _ _ _ _
    constructor
    · exact same.works
    · exact congrArg (· + 1) same.nextCall
    · rfl
    · exact same.nextCall
    · rfl
    · nofun
    · exact fun _ => rfl
    · exact .inl ⟨rfl, rfl⟩
    · exact .inl ⟨same.recorder, nofun⟩
  | some comm =>
    refine bind_getGroup ?_
    refine bind_kept (.check _ _) (.refl world) fun _ _ same => ?_
    refine bind_kept (sparing_bcclStreamAt _ _) same fun _ _ same => ?_
    exact made_initWork same (.inr (.inr rfl))

theorem begin_made (operation : Operation) :
    wp (operation.begin thread group fate) (fun call after => Made world group call after)
      (fun _ after => SameWorks world after) world := by
  cases operation with
  | collective => exact beginCollective_made
  | collectiveCoalesced => exact beginCollectiveCoalesced_made
  | pointToPoint => exact beginPointToPoint_made
  | endCoalescing => exact beginEndCoalescing_made

end Begin

end TorchSupa.Distributed
