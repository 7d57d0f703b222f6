import TorchSupa.Distributed.Issuing

/-!
What issuing an operation does to the sequence numbers of its group and to the state of the
coalescing region, and what number its work gets.
-/

namespace TorchSupa.Distributed

open Outcome

inductive Kind
  | collective
  | pointToPoint
deriving DecidableEq, Repr

structure Numbers where
  seqCollective : Nat
  seqP2P : Nat
  coalescingState : CoalescingState
deriving DecidableEq, Repr

def Group.numbers (self : Group) : Numbers where
  seqCollective := self.seqCollective
  seqP2P := self.seqP2P
  coalescingState := self.coalescingState

def Numbers.last (self : Numbers) (isP2P : Bool) : Nat :=
  if isP2P then self.seqP2P else self.seqCollective

def CoalescingState.used (state : CoalescingState) : Prop :=
  state.coalColl = true ∨ state.coalP2P = true

def Group.Marked (self : Group) : Prop :=
  self.coalescedComm.isSome = true → self.coalescingState.used

structure Steady (before after : World) : Prop where
  numbers : ∀ group, (after.groups group).numbers = (before.groups group).numbers
  marked : ∀ group, (before.groups group).Marked → (after.groups group).Marked

theorem Steady.refl (world : World) : Steady world world := ⟨fun _ => rfl, fun _ => id⟩

theorem Steady.trans {first second third : World} (before : Steady first second)
    (after : Steady second third) : Steady first third where
  numbers := fun group => (after.numbers group).trans (before.numbers group)
  marked := fun group marked => after.marked group (before.marked group marked)

theorem Steady.groups {before after : World} (same : after.groups = before.groups) :
    Steady before after := ⟨fun _ => by rw [same], fun _ => by rw [same]; exact id⟩

open World

theorem steady_modifyGroup {world : World} {group : Nat} {change : Group → Group}
    (numbers : (change (world.groups group)).numbers = (world.groups group).numbers)
    (comm : (change (world.groups group)).coalescedComm = (world.groups group).coalescedComm) :
    Steady world (world.modifyGroup group change) where
  numbers := modifyGroup_keeps numbers
  marked := fun other => by
    by_cases same : other = group
    · have state := congrArg Numbers.coalescingState numbers
      rw [same, modifyGroup_same]
      unfold Group.Marked
      rw [comm, show (change (world.groups group)).coalescingState = _ from state]
      exact id
    · rw [modifyGroup_other _ same]
      exact id

abbrev Calm {α : Type} (program : M α) : Prop := Respects Steady program

section Calm

theorem calm_modifyGroup {group : Nat} {change : Group → Group}
    (numbers : ∀ self, (change self).numbers = self.numbers)
    (comm : ∀ self, (change self).coalescedComm = self.coalescedComm) :
    Calm (modifyGroup group change) :=
  fun _ _ same => same.trans (steady_modifyGroup (numbers _) (comm _))

theorem calm_communicator (group : Nat) (key : CommKey) (fate : Fate) :
    Calm (communicator group key fate) := by
  refine .bind (respects_getGroup fun _ => .pure _) fun found => ?_
  cases found with
  | some comm => exact .pure _
  | none =>
    refine .bind (.check _ _) fun _ => .read fun world => .bind ?_ fun _ => ?_
    · exact .modify fun _ _ same => same.trans (.groups rfl)
    · exact .bind (calm_modifyGroup (fun _ => rfl) fun _ => rfl) fun _ => .pure _

theorem calm_bcclStreamAt (group : Nat) (key : CommKey) : Calm (bcclStreamAt group key) :=
  respects_getGroup fun _ => .check _ _

theorem coalesceOn_steady {before : World} {group device comm : Nat}
    (used : (before.groups group).coalescingState.used) :
    Keeps (Steady before) (fun _ => False) (coalesceOn group device comm) := by
  refine Keeps.bind ?_ fun _ => ?_
  · have calm : Calm (do
        let coalescedDevice := (← getGroup group).coalescedDevice
        if coalescedDevice < 0 then
          modifyGroup group fun self => { self with coalescedDevice := device }
        else check (coalescedDevice == device) (.torchCheck multiDeviceErrorMsg)) :=
      respects_getGroup fun _ => .ite (calm_modifyGroup (fun _ => rfl) fun _ => rfl) (.check _ _)
    exact calm before
  · intro world same
    refine bind_getGroup ?_
    cases (world.groups group).coalescedComm with
    | some coalescedComm => exact (Respects.check _ _) before world same
    | none =>
      have numbers : ∀ other, ((world.modifyGroup group fun self =>
          { self with coalescedComm := some comm }).groups other).numbers =
          (before.groups other).numbers := fun other =>
        (modifyGroup_keeps rfl other).trans (same.numbers other)
      refine ⟨numbers, fun other marked => ?_⟩
      by_cases here : other = group
      · have state := congrArg Numbers.coalescingState (numbers other)
        intro _
        rw [show (Group.coalescingState _) = _ from state, here]
        exact used
      · rw [modifyGroup_other _ here]
        exact same.marked other marked

end Calm

def World.hasComm (world : World) (group : Nat) (key : CommKey) (fate : Fate) : Bool :=
  ((world.groups group).devBCCLCommMap.lookup key).isSome || fate.createsComm

/-- An operation is issued when it gets past the check for a capture and, in a region, has its
communicator. -/
def Operation.issues (thread group : Nat) (fate : Fate) (world : World) : Operation → Bool
  | .collective device _ => (world.capturable || fate.captureStatus == .none) &&
      (!(world.groups group).coalescingState.isSet || world.hasComm group (.device device) fate)
  | .collectiveCoalesced _ _ => world.capturable || fate.captureStatus == .none
  | .pointToPoint device peer _ => !(world.groups group).coalescingState.isSet ||
      world.hasComm group (if world.bcclActiveGroupCounter thread > 0 then .device device
        else getKeySendRecv (world.groups group).rank peer) fate
  | .endCoalescing _ => false

def Operation.isP2P : Operation → Bool
  | .pointToPoint _ _ _ => true
  | _ => false

def Operation.count (operation : Operation) (self : Group) : Group :=
  match operation with
  | .collective _ _ =>
    if self.coalescingState.isSet then
      markCoalColl (if self.coalescingState.coalColl then self else bumpSeqCollective self)
    else bumpSeqCollective self
  | .collectiveCoalesced _ _ => bumpSeqCollective self
  | .pointToPoint _ _ _ =>
    if self.coalescingState.isSet then
      markCoalP2P (if self.coalescingState.coalP2P then self else bumpSeqP2P self)
    else bumpSeqP2P self
  | .endCoalescing _ => self

def Call.NumberedBy (call : Call) (numbers : Numbers) (isP2P : Bool) : Prop :=
  ∀ work, call.work = some work → work.isP2P = isP2P ∧ work.seq = numbers.last isP2P

section Begin

variable {before world : World} {thread group device : Nat} {fate : Fate}

variable {opType : OpType}

theorem numbered_initWork {isP2P shouldRecord enqueue : Bool} {rest : List Section}
    (same : Steady before world) :
    wp (do
        let work ← initWork group opType isP2P shouldRecord
        pure ({ id := work.id, group, work := some work, enqueue, rest } : Call))
      (fun call after => Steady before after ∧
        call.NumberedBy (before.groups group).numbers isP2P ∧ call.enqueue = enqueue ∧
        call.rest = rest)
      (fun _ after => Steady before after) world := by
  have number : (newWork (world.groups group) world.nextCall opType isP2P).seq =
      (before.groups group).numbers.last isP2P := by
    rw [← same.numbers group]
    rfl
  cases shouldRecord with
  | false =>
    refine wp_seq (fun work after => work = _ ∧ after = _)
      (wp_of_ok (initWork_plain _ _ _ _) ⟨rfl, rfl⟩) ?_
    rintro _ _ ⟨rfl, rfl⟩
    refine (wp_pure _).mpr ⟨same.trans (.groups rfl), fun work has => ?_, rfl, rfl⟩
    cases has
    exact ⟨rfl, number⟩
  | true =>
    refine wp_seq (fun work after => work = _ ∧ after = _)
      (wp_of_ok (initWork_recorded _ _ _ _) ⟨rfl, rfl⟩) ?_
    rintro _ _ ⟨rfl, rfl⟩
    refine (wp_pure _).mpr ⟨same.trans (.groups rfl), fun work has => ?_, rfl, rfl⟩
    cases has
    exact ⟨rfl, number⟩

structure Numbered (operation : Operation) (group : Nat) (world : World) (call : Call)
    (after : World) : Prop where
  counted : Steady (world.modifyGroup group operation.count) after
  numbered : call.NumberedBy (operation.count (world.groups group)).numbers operation.isP2P
  rest : call.rest = collectiveSections ∨ call.rest = pointToPointSections
  -- nothing of a region is enqueued
  inside : (world.groups group).coalescingState.isSet = true → call.enqueue = false ∧
    (call.rest = pointToPointSections → call.work = none)

def Begins (operation : Operation) (thread group : Nat) (fate : Fate) (world : World) : Prop :=
  wp (operation.begin thread group fate)
    (fun call after => operation.issues thread group fate world = true ∧
      Numbered operation group world call after)
    (fun _ after => Steady (if operation.issues thread group fate world = true then
      world.modifyGroup group operation.count else world) after) world

variable {operation : Operation}

theorem begins_issued (issues : operation.issues thread group fate world = true)
    (spec : wp (operation.begin thread group fate) (Numbered operation group world)
      (fun _ after => Steady (world.modifyGroup group operation.count) after) world) :
    Begins operation thread group fate world :=
  wp_mono spec (fun _ _ numbered => ⟨issues, numbered⟩) fun _ _ kept => by
    rw [if_pos issues]
    exact kept

theorem steady_changes {first second : Group → Group}
    (numbers : (second (world.groups group)).numbers = (first (world.groups group)).numbers)
    (comm : (second (world.groups group)).coalescedComm =
      (first (world.groups group)).coalescedComm) :
    Steady (world.modifyGroup group first) (world.modifyGroup group second) where
  numbers := fun other => by
    by_cases same : other = group
    · rw [same, modifyGroup_same, modifyGroup_same, numbers]
    · rw [modifyGroup_other _ same, modifyGroup_other _ same]
  marked := fun other => by
    by_cases same : other = group
    · have state := congrArg Numbers.coalescingState numbers
      rw [same, modifyGroup_same, modifyGroup_same]
      unfold Group.Marked
      rw [comm, show (second (world.groups group)).coalescingState = _ from state]
      exact id
    · rw [modifyGroup_other _ same, modifyGroup_other _ same]
      exact id

theorem steady_join {count mark : Group → Group} (same : Steady before world)
    (numbers : (mark (world.groups group)).numbers = (count (before.groups group)).numbers)
    (used : (count (before.groups group)).coalescingState.used) :
    Steady (before.modifyGroup group count) (world.modifyGroup group mark) where
  numbers := fun other => by
    by_cases here : other = group
    · rw [here, modifyGroup_same, modifyGroup_same, numbers]
    · rw [modifyGroup_other _ here, modifyGroup_other _ here, same.numbers]
  marked := fun other => by
    by_cases here : other = group
    · have state := congrArg Numbers.coalescingState numbers
      rw [here, modifyGroup_same, modifyGroup_same]
      intro _ _
      rw [show (mark (world.groups group)).coalescingState = _ from state]
      exact used
    · rw [modifyGroup_other _ here, modifyGroup_other _ here]
      exact same.marked other

theorem Steady.state {after : World} (same : Steady world after) (group : Nat) :
    (after.groups group).coalescingState = (world.groups group).coalescingState := by
  have state := congrArg Numbers.coalescingState (same.numbers group)
  exact state

open CoalescingState

theorem isSet_of_active {state : CoalescingState} (active : state.coalActive = true) :
    state.isSet = true := by
  simp [isSet, active]

theorem active_of_unset {state : CoalescingState} (unset : state.isSet = false) :
    state.coalActive = false := by
  simp only [isSet, Bool.or_eq_false_iff] at unset
  exact unset.1.1

theorem numbered_collective (shouldRecord enqueue : World → Bool)
    (steady : Steady (world.modifyGroup group operation.count) before)
    (plain : operation.isP2P = false)
    (silent : (world.groups group).coalescingState.isSet = true → ∀ after,
      Steady (world.modifyGroup group operation.count) after → enqueue after = false) :
    wp (do
        bcclStreamAt group (.device device)
        check fate.syncs .runtime
        let ready ← get
        let work ← initWork group opType false (shouldRecord ready)
        pure ({
          id := work.id
          group
          work := some work
          enqueue := enqueue ready
          rest := collectiveSections } : Call))
      (Numbered operation group world)
      (fun _ after => Steady (world.modifyGroup group operation.count) after) before := by
  refine bind_kept (calm_bcclStreamAt _ _) steady fun _ _ steady => ?_
  refine bind_kept (.check _ _) steady fun _ ready steady => ?_
  refine bind_read ?_
  refine wp_mono (numbered_initWork steady) (fun call after made => ?_) fun _ _ => id
  obtain ⟨kept, numbered, enqueues, rest⟩ := made
  refine ⟨kept, ?_, .inl rest, fun set => ⟨enqueues.trans (silent set ready steady), ?_⟩⟩
  · rw [modifyGroup_same] at numbered
    rw [plain]
    exact numbered
  · intro other
    rw [rest] at other
    exact absurd other (by decide)

theorem bind_communicator_counted {key : CommKey} {next : Nat → M Call} (idle : Steady world before)
    (cache : (before.groups group).devBCCLCommMap = (world.groups group).devBCCLCommMap)
    (meaning : operation.issues thread group fate world = world.hasComm group key fate)
    (rest : ∀ comm joining, Steady world joining → wp (next comm) (Numbered operation group world)
      (fun _ after => Steady (world.modifyGroup group operation.count) after) joining) :
    wp (communicator group key fate >>= next)
      (fun call after => operation.issues thread group fate world = true ∧
        Numbered operation group world call after)
      (fun _ after => Steady (if operation.issues thread group fate world = true then
        world.modifyGroup group operation.count else world) after) before := by
  have issued : operation.issues thread group fate world = true → ∀ comm joining,
      Steady world joining → wp (next comm)
        (fun call after => operation.issues thread group fate world = true ∧
          Numbered operation group world call after)
        (fun _ after => Steady (if operation.issues thread group fate world = true then
          world.modifyGroup group operation.count else world) after) joining := by
    intro issues comm joining same
    refine wp_mono (rest comm joining same) (fun _ _ numbered => ⟨issues, numbered⟩) fun _ _ kept => ?_
    rw [if_pos issues]
    exact kept
  rw [hasComm, ← cache] at meaning
  refine bind_communicator (fun comm found => ?_) (fun missing creates => ?_)
    fun missing fails _ => ?_
  · rw [found] at meaning
    exact issued meaning comm before idle
  · rw [missing, creates] at meaning
    have counted : Steady before ({ before with nextComm := before.nextComm + 1 } : World) :=
      .groups rfl
    exact issued meaning _ _ ((idle.trans counted).trans (steady_modifyGroup rfl rfl))
  · rw [missing, fails] at meaning
    rw [meaning]
    exact idle

theorem beginCollective_begins (ready : (world.groups group).coalescingState.isSet =
      (world.groups group).coalescingState.coalActive) :
    Begins (.collective device opType) thread group fate world := by
  have silent : ∀ after, Steady (world.modifyGroup group
      (Operation.collective device opType).count) after →
      (world.groups group).coalescingState.isSet = true →
      (!(after.groups group).coalescingState.isSet && fate.captureStatus == .none) = false := by
    intro after steady set
    rw [steady.state group, modifyGroup_same]
    simp only [Operation.count, if_pos set, markCoalColl]
    simp [isSet]
  by_cases passes : world.capturable = true ∨ fate.captureStatus = .none
  · cases set : (world.groups group).coalescingState.isSet with
    | false =>
      -- outside of a region it is counted before anything can fail
      refine begins_issued (by simpa [Operation.issues, set] using passes) ?_
      refine bind_errorIfCapturing (fun _ => ?_) fun refuses => absurd passes refuses
      refine bind_modifyGroup (bind_modifyGroup ?_)
      rw [modifyGroup_twice]
      have counts : Steady (world.modifyGroup group (Operation.collective device opType).count)
          (world.modifyGroup group fun self =>
            bumpOpId (if self.coalescingState.isSet then self else bumpSeqCollective self)) :=
        steady_changes (by simp only [Operation.count, set]; rfl)
          (by simp only [Operation.count, set]; rfl)
      refine bind_kept (calm_communicator _ _ _) counts fun comm joined steady => ?_
      rw [wp_bind]
      refine bind_getGroup ?_
      have inactive : (joined.groups group).coalescingState.coalActive = false := by
        rw [steady.state group, modifyGroup_same]
        simp only [Operation.count, set]
        exact active_of_unset set
      rw [if_neg (by simp [inactive])]
      exact numbered_collective _ (fun ready => !(ready.groups group).coalescingState.isSet &&
        fate.captureStatus == .none) steady rfl fun now => by rw [set] at now; cases now
    | true =>
      have active : (world.groups group).coalescingState.coalActive = true := ready.symm.trans set
      have used : ((Operation.collective device opType).count
          (world.groups group)).coalescingState.used := by
        simp only [Operation.count, if_pos set]
        exact .inl rfl
      have rest : ∀ comm joining, Steady world joining → wp (do
          joinCollective group device comm
          bcclStreamAt group (.device device)
          check fate.syncs .runtime
          let ready ← get
          let work ← initWork group opType false
            (!(ready.groups group).coalescingState.isSet && fate.captureStatus == .none)
          pure ({
            id := work.id
            group
            work := some work
            enqueue := !(ready.groups group).coalescingState.isSet && fate.captureStatus == .none
            rest := collectiveSections } : Call))
          (Numbered (.collective device opType) group world) (fun _ after => Steady
            (world.modifyGroup group (Operation.collective device opType).count) after)
          joining := by
        intro comm joining same
        rw [wp_bind]
        refine bind_getGroup ?_
        rw [if_pos ((congrArg coalActive (same.state group)).trans active)]
        refine bind_modifyGroup ?_
        have joins : Steady (world.modifyGroup group (Operation.collective device opType).count)
            (joining.modifyGroup group fun self => markCoalColl
              (if (joining.groups group).coalescingState.coalColl then self
                else bumpSeqCollective self)) := by
          refine steady_join same ?_ used
          have numbers := same.numbers group
          simp only [Operation.count, if_pos set]
          rw [same.state group]
          cases (world.groups group).coalescingState.coalColl with
          | true => exact congrArg (fun numbers : Numbers => { numbers with
              coalescingState := { numbers.coalescingState with coalColl := true } }) numbers
          | false => exact congrArg (fun numbers : Numbers => { numbers with
              seqCollective := numbers.seqCollective + 1
              coalescingState := { numbers.coalescingState with coalColl := true } }) numbers
        refine wp_mono (coalesceOn_steady (by rw [modifyGroup_same]; exact used) _ joins)
          (fun _ _ steady => ?_) fun _ _ failed => failed.resolve_left id
        exact numbered_collective _ (fun ready => !(ready.groups group).coalescingState.isSet &&
          fate.captureStatus == .none) steady rfl fun now after steady => silent after steady now
      refine bind_errorIfCapturing (fun _ => ?_) fun refuses => absurd passes refuses
      refine bind_modifyGroup (bind_modifyGroup ?_)
      rw [modifyGroup_twice]
      have idle : Steady world (world.modifyGroup group fun self =>
          bumpOpId (if self.coalescingState.isSet then self else bumpSeqCollective self)) :=
        steady_modifyGroup (by rw [if_pos set]; rfl) (by rw [if_pos set]; rfl)
      have cache : ((world.modifyGroup group fun self => bumpOpId
          (if self.coalescingState.isSet then self else bumpSeqCollective self)).groups
          group).devBCCLCommMap = (world.groups group).devBCCLCommMap := by
        rw [modifyGroup_same, if_pos set]
        rfl
      have meaning : (Operation.collective device opType).issues thread group fate world =
          world.hasComm group (.device device) fate := by
        simp [Operation.issues, set, passes]
      exact bind_communicator_counted idle cache meaning rest
  · have refuses : (Operation.collective device opType).issues thread group fate world = false := by
      simp only [not_or] at passes
      simp [Operation.issues, passes]
    refine bind_errorIfCapturing (fun passed => absurd passed passes) fun _ _ => ?_
    rw [refuses]
    exact .refl world

theorem beginCollectiveCoalesced_begins
    (outside : (world.groups group).coalescingState.isSet = false) :
    Begins (.collectiveCoalesced device opType) thread group fate world := by
  by_cases passes : world.capturable = true ∨ fate.captureStatus = .none
  · refine begins_issued (by simpa [Operation.issues] using passes) ?_
    refine bind_errorIfCapturing (fun _ => ?_) fun refuses => absurd passes refuses
    refine bind_modifyGroup (bind_modifyGroup ?_)
    rw [modifyGroup_twice]
    have counts : Steady (world.modifyGroup group
        (Operation.collectiveCoalesced device opType).count)
        (world.modifyGroup group fun self => bumpOpId (bumpSeqCollective self)) :=
      steady_changes rfl rfl
    refine bind_kept (calm_communicator _ _ _) counts fun comm joined steady => ?_
    rw [wp_bind]
    refine bind_getGroup ?_
    have inactive : (joined.groups group).coalescingState.coalActive = false := by
      rw [steady.state group, modifyGroup_same]
      exact active_of_unset outside
    rw [if_neg (by simp [inactive])]
    exact numbered_collective (fun _ => true) (fun _ => fate.captureStatus == .none) steady rfl
      fun now => by rw [outside] at now; cases now
  · have refuses : (Operation.collectiveCoalesced device opType).issues thread group fate world =
        false := by
      simp only [not_or] at passes
      simp [Operation.issues, passes]
    refine bind_errorIfCapturing (fun passed => absurd passed passes) fun _ _ => ?_
    rw [refuses]
    exact .refl world

theorem numbered_pointToPoint {key : CommKey} {peer : Int}
    (steady : Steady (world.modifyGroup group (Operation.pointToPoint device peer opType).count)
      before) (silent : (world.groups group).coalescingState.isSet = true → ∀ after,
      Steady (world.modifyGroup group (Operation.pointToPoint device peer opType).count) after →
      (after.groups group).coalescingState.isSet = true) :
    wp (do
        bcclStreamAt group key
        check fate.syncs .runtime
        let id := (← get).nextCall
        let work ← initWorkP2P group opType
        pure ({
          id
          group
          work
          enqueue := false
          rest := pointToPointSections } : Call))
      (Numbered (.pointToPoint device peer opType) group world)
      (fun _ after => Steady (world.modifyGroup group
        (Operation.pointToPoint device peer opType).count) after) before := by
  refine bind_kept (calm_bcclStreamAt _ _) steady fun _ _ steady => ?_
  refine bind_kept (.check _ _) steady fun _ ready steady => ?_
  refine bind_read ?_
  cases region : (ready.groups group).coalescingState.isSet with
  | true =>
    refine wp_seq (fun work after => work = none ∧ after = _)
      (wp_of_ok (initWorkP2P_region region) ⟨rfl, rfl⟩) ?_
    rintro _ _ ⟨rfl, rfl⟩
    refine (wp_pure _).mpr ⟨steady.trans (.groups rfl), fun work has => ?_, .inr rfl,
      fun _ => ⟨rfl, fun _ => rfl⟩⟩
    cases has
  | false =>
    refine wp_seq (fun work after => work = _ ∧ after = _)
      (wp_of_ok (initWorkP2P_single region) ⟨rfl, rfl⟩) ?_
    rintro _ _ ⟨rfl, rfl⟩
    refine (wp_pure _).mpr ⟨steady.trans (.groups rfl), fun work has => ?_, .inr rfl, fun set => ?_⟩
    · cases has
      refine ⟨rfl, ?_⟩
      have numbers := steady.numbers group
      rw [modifyGroup_same] at numbers
      rw [← numbers]
      rfl
    · have still := silent set ready steady
      rw [region] at still
      cases still

theorem beginPointToPoint_begins {peer : Int} (ready : (world.groups group).coalescingState.isSet =
      (world.groups group).coalescingState.coalActive)
    (single : (world.groups group).coalescingState.isSet = false →
      world.bcclActiveGroupCounter thread = 0) :
    Begins (.pointToPoint device peer opType) thread group fate world := by
  cases set : (world.groups group).coalescingState.isSet with
  | false =>
    have alone : ¬world.bcclActiveGroupCounter thread > 0 := by
      rw [single set]
      decide
    refine begins_issued (by simp [Operation.issues, set]) ?_
    refine bind_read (bind_getGroup (bind_modifyGroup (bind_modifyGroup ?_)))
    rw [modifyGroup_twice]
    have counts : Steady (world.modifyGroup group (Operation.pointToPoint device peer opType).count)
        (world.modifyGroup group fun self => bumpOpId
          (if decide (world.bcclActiveGroupCounter thread > 0) || self.coalescingState.isSet then
            self else bumpSeqP2P self)) :=
      steady_changes (by simp only [Operation.count, set, alone, decide_false]; rfl)
        (by simp only [Operation.count, set, alone, decide_false]; rfl)
    refine bind_kept (calm_communicator _ _ _) counts fun comm joined steady => ?_
    rw [wp_bind]
    refine bind_getGroup ?_
    have inactive : (joined.groups group).coalescingState.coalActive = false := by
      rw [steady.state group, modifyGroup_same]
      simp only [Operation.count, set]
      exact active_of_unset set
    rw [if_neg (by simp [inactive])]
    exact numbered_pointToPoint steady fun now => by rw [set] at now; cases now
  | true =>
    have active : (world.groups group).coalescingState.coalActive = true := ready.symm.trans set
    have used : ((Operation.pointToPoint device peer opType).count
        (world.groups group)).coalescingState.used := by
      simp only [Operation.count, if_pos set]
      exact .inr rfl
    refine bind_read (bind_getGroup (bind_modifyGroup (bind_modifyGroup ?_)))
    rw [modifyGroup_twice]
    have stays : ∀ self : Group, self.coalescingState.isSet = true →
        (if decide (world.bcclActiveGroupCounter thread > 0) || self.coalescingState.isSet then
          self else bumpSeqP2P self) = self := by
      intro self region
      rw [if_pos (by simp [region])]
    refine bind_communicator_counted ?_ ?_ ?_ fun comm joining same => ?_
    · exact steady_modifyGroup (by rw [stays _ set]; rfl) (by rw [stays _ set]; rfl)
    · rw [modifyGroup_same, stays _ set]
      rfl
    · simp [Operation.issues, set]
    · rw [wp_bind]
      refine bind_getGroup ?_
      rw [if_pos ((congrArg coalActive (same.state group)).trans active)]
      refine bind_modifyGroup ?_
      have joins : Steady (world.modifyGroup group
          (Operation.pointToPoint device peer opType).count)
          (joining.modifyGroup group fun self => markCoalP2P
            (if (joining.groups group).coalescingState.coalP2P then self
              else bumpSeqP2P self)) := by
        refine steady_join same ?_ used
        have numbers := same.numbers group
        simp only [Operation.count, if_pos set]
        rw [same.state group]
        cases (world.groups group).coalescingState.coalP2P with
        | true => exact congrArg (fun numbers : Numbers => { numbers with
            coalescingState := { numbers.coalescingState with coalP2P := true } }) numbers
        | false => exact congrArg (fun numbers : Numbers => { numbers with
            seqP2P := numbers.seqP2P + 1
            coalescingState := { numbers.coalescingState with coalP2P := true } }) numbers
      refine wp_mono (coalesceOn_steady (by rw [modifyGroup_same]; exact used) _ joins)
        (fun _ _ steady => ?_) fun _ _ failed => failed.resolve_left id
      refine numbered_pointToPoint steady fun _ after steady => ?_
      rw [steady.state group, modifyGroup_same]
      simp only [Operation.count, if_pos set, markCoalP2P]
      simp [isSet]

structure Ended (group : Nat) (world : World) (call : Call) (after : World) : Prop where
  idle : (world.groups group).coalescedComm = none → call.work = none ∧ call.rest = [] ∧
    Steady (world.modifyGroup group fun self => { self with coalescingState := {} }) after
  used : (world.groups group).coalescedComm ≠ none → call.rest = endCoalescingSections ∧
    Steady world after ∧ call.NumberedBy (world.groups group).numbers
      (world.groups group).coalescingState.coalP2P

theorem beginEndCoalescing_ended :
    wp (beginEndCoalescing thread group opType fate) (Ended group world)
      (fun _ after => Steady world after) world := by
  refine bind_getGroup ?_
  cases comm : (world.groups group).coalescedComm with
  | none =>
    rw [wp_bind]
    refine bind_check (fun _ => ?_) fun _ => .refl world
    refine (wp_modify _).mpr (bind_modifyGroup ?_)
    change Ended group world _ _
    exact ⟨fun _ => ⟨rfl, rfl, .groups rfl⟩, fun used => absurd comm used⟩
  | some _ =>
    refine bind_getGroup (bind_check (fun _ => ?_) fun _ => .refl world)
    refine bind_kept (calm_bcclStreamAt _ _) (.refl world) fun _ _ steady => ?_
    refine wp_mono (numbered_initWork steady) (fun call after made => ?_) fun _ _ => id
    obtain ⟨kept, numbered, _, rest⟩ := made
    refine ⟨fun unused => ?_, fun _ => ⟨rest, kept, numbered⟩⟩
    rw [comm] at unused
    cases unused

end Begin

end TorchSupa.Distributed
