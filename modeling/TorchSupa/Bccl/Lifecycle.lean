import TorchSupa.Bccl.BCCLComm
import TorchSupa.Logic.Transitions

/-!
The lifecycle of communicators: each is aborted or destroyed at most once, and an object that
has been aborted gives out no communicator.
-/

namespace TorchSupa.Bccl

open Outcome List Option

inductive Action
  | create (rank deviceIndex : Int)
  | createConfig (rank deviceIndex : Int) (blocking : Bool)
  | split (source : Nat) (colorId rank : Int) (blocking : Bool)
  | getBcclComm (comm : Nat)
  | waitReady (comm : Nat)
  | abort (comm : Nat) (commFailureReason : Option String)
  | finalize (comm : Nat)
  | destroy (comm : Nat)
  | destructor (comm : Nat)
  | registerSegment (comm : Nat) (ptr size : Nat) (errorOnRereg window : Bool)
  | deregisterSegment (comm : Nat) (ptr : Nat) (window : Bool)

def Action.run (library : Library) : Action → M Unit
  | .create rank deviceIndex => do let _comm ← Bccl.create library rank deviceIndex
  | .createConfig rank deviceIndex blocking => do
      let _comm ← Bccl.createConfig library rank deviceIndex blocking
  | .split source colorId rank blocking => do
      let _comm ← Bccl.split library source colorId rank blocking
  | .getBcclComm comm => do let _handle ← Bccl.getBcclComm library comm
  | .waitReady comm => Bccl.waitReady library comm
  | .abort comm reason => Bccl.abort library comm reason
  | .finalize comm => Bccl.finalize library comm
  | .destroy comm => Bccl.destroy library comm
  | .destructor comm => Bccl.destructor comm
  | .registerSegment comm ptr size errorOnRereg window =>
    Bccl.registerSegment library comm ptr size errorOnRereg window
  | .deregisterSegment comm ptr window => Bccl.deregisterSegment library comm ptr window

inductive Step (library : Library) (world : World) (action : Action) : World → Prop
  | returns (after : World) : action.run library world = .ok () after → Step library world action after
  | throws (exception : Exn) (after : World) :
      action.run library world = .error exception after → exception ≠ .undefinedBehaviour →
      Step library world action after

def lifecycle (library : Library) : System World Action where
  initial world := world = {}
  step := Step library

def LibraryCall.closes : LibraryCall → Option (Option Nat)
  | .abort comm _ => some comm
  | .destroy comm _ => some comm
  | _ => none

def closed (calls : List LibraryCall) : List (Option Nat) := calls.filterMap LibraryCall.closes

def FailedToClose (calls : List LibraryCall) (comm : Nat) : Prop :=
  .abort (some comm) true ∈ calls ∨ .destroy (some comm) true ∈ calls

/-- No communicator is ended twice, and a null one never; an object whose `abort` has
returned throws at every `getBcclComm`. -/
structure Disciplined (library : Library) (world : World) : Prop where
  nonnull : none ∉ closed world.calls
  once : (closed world.calls).Nodup
  poisoned : ∀ id ∈ world.abortedBy, ∀ comm, world.comms.get? id = some comm →
    getBcclComm library id world = .error (.distBackend (abortedMessage comm)) world

/-- An object that still has its communicator, and none of the calls that were to end it failed. -/
def Closable (world : World) (comm : BCCLComm) : Prop :=
  ∃ handle, comm.bcclComm = some handle ∧ ¬FailedToClose world.calls handle

/-- When `abort` and `destroy` are right: not again on an object whose first attempt failed, not
on one that `split` has left without a communicator, and `abort` not on an object that has
been aborted or destroyed and was initialized. -/
def Allowed (world : World) : Action → Prop
  | .abort id _ => ∀ comm, world.comms.get? id = some comm →
      if comm.aborted then comm.initialized = false else Closable world comm
  | .destroy id => ∀ comm, world.comms.get? id = some comm → comm.aborted = false →
      Closable world comm
  | _ => True

/-- What keeps the calls disciplined: an object has its communicator to itself, and if a
call was made to end it while the object is not aborted, that call has failed. -/
structure Tidy (world : World) : Prop where
  nonnull : none ∉ closed world.calls
  once : (closed world.calls).Nodup
  made : ∀ id comm handle, world.comms.get? id = some comm → comm.bcclComm = some handle →
    handle < world.nextComm
  known : ∀ handle, some handle ∈ closed world.calls → handle < world.nextComm
  own : ∀ id other comm member handle, world.comms.get? id = some comm →
    world.comms.get? other = some member → comm.bcclComm = some handle →
    member.bcclComm = some handle → id = other
  attempted : ∀ id comm handle, world.comms.get? id = some comm → comm.aborted = false →
    comm.bcclComm = some handle → some handle ∈ closed world.calls →
    FailedToClose world.calls handle
  old : ∀ id ∈ world.abortedBy, id < world.comms.fresh
  poisoned : ∀ id ∈ world.abortedBy, ∀ comm, world.comms.get? id = some comm → comm.aborted = true

section Keeping

variable {library : Library} {world : World} {α : Type}

abbrev KeepsTidy (program : M α) : Prop := Keeps Tidy (fun _ => False) program

theorem nextTick_keeps : KeepsTidy nextTick := fun _ tidy => { tidy with }

theorem deref_keeps (id : Nat) : KeepsTidy (deref id) := by
  intro world tidy
  unfold deref
  rw [wp_bind, wp_get]
  split
  · exact tidy
  · exact .inr tidy

open Keeps

theorem throwIfFailed_keeps (failure : Option String) : KeepsTidy (throwIfFailed failure) := by
  cases failure with
  | none => exact pure ()
  | some message => exact throw _

theorem callFailure_keeps : KeepsTidy (callFailure library) := nextTick_keeps.bind fun _ => pure _

theorem awaitedFailure_keeps : KeepsTidy (awaitedFailure library) :=
  nextTick_keeps.bind fun _ => pure _

theorem bcclCheck_keeps : KeepsTidy (bcclCheck library) :=
  callFailure_keeps.bind throwIfFailed_keeps

theorem bcclCheckTimeout_keeps : KeepsTidy (bcclCheckTimeout library) :=
  awaitedFailure_keeps.bind throwIfFailed_keeps

theorem bcclCheckNonblocking_keeps : KeepsTidy (bcclCheckNonblocking library) :=
  nextTick_keeps.bind fun _ => Keeps.ite (throw _) (pure ())

def Gentle (change : BCCLComm → BCCLComm) : Prop :=
  ∀ comm, (change comm).bcclComm = comm.bcclComm ∧ (comm.aborted = true → (change comm).aborted = true)

variable {change : BCCLComm → BCCLComm}

theorem Tidy.modify (tidy : Tidy world) (id : Nat)
    (gentle : Gentle change) : Tidy { world with comms := world.comms.modify id change } := by
  have came : ∀ other member, (world.comms.modify id change).get? other = some member →
      ∃ before, world.comms.get? other = some before ∧ member.bcclComm = before.bcclComm ∧
        (before.aborted = true → member.aborted = true) := by
    intro other member found
    rcases Store.of_get?_modify found with ⟨_, before, stood, rfl⟩ | ⟨_, stood⟩
    · exact ⟨before, stood, gentle before⟩
    · exact ⟨member, stood, rfl, fun aborted => aborted⟩
  constructor
  case nonnull => exact tidy.nonnull
  case once => exact tidy.once
  case made =>
    intro other member handle found has
    obtain ⟨before, stood, same, _⟩ := came other member found
    exact tidy.made other before handle stood (same ▸ has)
  case known => exact tidy.known
  case own =>
    intro other third member later handle found there has has'
    obtain ⟨before, stood, same, _⟩ := came other member found
    obtain ⟨before', stood', same', _⟩ := came third later there
    exact tidy.own other third before before' handle stood stood' (same ▸ has) (same' ▸ has')
  case attempted =>
    intro other member handle found live has
    obtain ⟨before, stood, same, stays⟩ := came other member found
    refine tidy.attempted other before handle stood ?_ (same ▸ has)
    cases wasAborted : before.aborted with
    | false => rfl
    | true => rw [stays wasAborted] at live; cases live
  case old =>
    intro other member
    rw [Store.fresh_modify]
    exact tidy.old other member
  case poisoned =>
    intro other aborted member found
    obtain ⟨before, stood, _, stays⟩ := came other member found
    exact stays (tidy.poisoned other aborted before stood)

theorem update_keeps (id : Nat) (gentle : Gentle change) : KeepsTidy (update id change) := by
  intro world tidy
  unfold update
  rw [wp_bind, wp_get]
  split
  · exact tidy.modify id gentle
  · exact .inr tidy

theorem logCall_keeps {call : LibraryCall} (leaves : call.closes = none) :
    KeepsTidy (logCall call) := by
  intro world tidy
  have same : closed (call :: world.calls) = closed world.calls := by
    unfold closed
    rw [filterMap_cons, leaves]
  have failed : ∀ handle, FailedToClose world.calls handle →
      FailedToClose (call :: world.calls) handle :=
    fun handle failed => failed.imp (mem_cons_of_mem _) (mem_cons_of_mem _)
  exact { tidy with
    nonnull := by rw [same]; exact tidy.nonnull
    once := by rw [same]; exact tidy.once
    known := by rw [same]; exact tidy.known
    attempted := by
      rw [same]
      exact fun id comm handle found live has attempted =>
        failed handle (tidy.attempted id comm handle found live has attempted) }

theorem waitReady_keeps (id : Nat) : KeepsTidy (waitReady library id) :=
  (deref_keeps id).bind fun _ => Keeps.ite (pure ()) bcclCheckTimeout_keeps

theorem getBcclComm_keeps (id : Nat) : KeepsTidy (getBcclComm library id) := by
  refine (deref_keeps id).bind fun comm => Keeps.ite (throw _) ?_
  refine (Keeps.ite (waitReady_keeps id) (pure ())).bind fun _ => ?_
  refine Keeps.bind (update_keeps id ?_) fun _ => pure _
  exact fun self => ⟨rfl, fun aborted => aborted⟩

theorem Tidy.push (tidy : Tidy world) {comm : BCCLComm}
    (own : ∀ handle, comm.bcclComm = some handle → handle = world.nextComm) :
    Tidy { world with nextComm := world.nextComm + 1, comms := world.comms.push comm } := by
  have came : ∀ other member, (world.comms.push comm).get? other = some member →
      other = world.comms.fresh ∧ member = comm ∨ world.comms.get? other = some member := by
    intro other member found
    rw [Store.get?_push] at found
    split at found
    · next isNew => exact .inl ⟨isNew, (some.inj found).symm⟩
    · exact .inr found
  constructor
  case nonnull => exact tidy.nonnull
  case once => exact tidy.once
  case made =>
    intro other member handle found has
    dsimp only
    rcases came other member found with ⟨_, rfl⟩ | stood
    · have := own handle has
      omega
    · have := tidy.made other member handle stood has
      omega
  case known =>
    intro handle member
    have := tidy.known handle member
    dsimp only
    omega
  case own =>
    intro other third member later handle found there has has'
    rcases came other member found with ⟨rfl, rfl⟩ | stood
    · rcases came third later there with ⟨rfl, rfl⟩ | stood'
      · rfl
      · have := tidy.made third later handle stood' has'
        have := own handle has
        omega
    · rcases came third later there with ⟨rfl, rfl⟩ | stood'
      · have := tidy.made other member handle stood has
        have := own handle has'
        omega
      · exact tidy.own other third member later handle stood stood' has has'
  case attempted =>
    intro other member handle found live has attempted
    rcases came other member found with ⟨_, rfl⟩ | stood
    · have := tidy.known handle attempted
      have := own handle has
      omega
    · exact tidy.attempted other member handle stood live has attempted
  case old =>
    intro other member
    have := tidy.old other member
    rw [Store.fresh_push]
    omega
  case poisoned =>
    intro other aborted member found
    rcases came other member found with ⟨rfl, _⟩ | stood
    · exact absurd (tidy.old _ aborted) (Nat.lt_irrefl _)
    · exact tidy.poisoned other aborted member stood

theorem create_keeps (rank deviceIndex : Int) : KeepsTidy (create library rank deviceIndex) := by
  refine bcclCheck_keeps.bind fun _ => ?_
  intro world tidy
  exact tidy.push fun handle made => (some.inj made).symm

theorem createConfig_keeps (rank deviceIndex : Int) (blocking : Bool) :
    KeepsTidy (createConfig library rank deviceIndex blocking) := by
  refine bcclCheckNonblocking_keeps.bind fun _ => ?_
  intro world tidy
  exact tidy.push fun handle made => (some.inj made).symm

theorem split_keeps (source : Nat) (colorId rank : Int) (blocking : Bool) :
    KeepsTidy (split library source colorId rank blocking) := by
  refine Keeps.ite (throw _) ?_
  refine bcclCheckTimeout_keeps.bind fun _ => ?_
  refine Keeps.bind (update_keeps source fun self => ⟨rfl, fun aborted => aborted⟩) fun _ => ?_
  refine (deref_keeps source).bind fun parent => ?_
  intro world tidy
  refine tidy.push fun handle made => ?_
  split at made
  · exact (some.inj made).symm
  · cases made

theorem finalize_keeps (id : Nat) : KeepsTidy (finalize library id) :=
  (deref_keeps id).bind fun _ => Keeps.ite (pure ())
    ((getBcclComm_keeps id).bind fun _ => bcclCheckNonblocking_keeps)

theorem destructor_keeps (id : Nat) : KeepsTidy (destructor id) := by
  refine (deref_keeps id).bind fun _ => ?_
  intro world tidy
  have came : ∀ other member, (world.comms.erase id).get? other = some member →
      world.comms.get? other = some member := by
    intro other member found
    rw [Store.get?_erase] at found
    split at found
    · cases found
    · exact found
  exact { tidy with
    made := fun other member handle found =>
      tidy.made other member handle (came other member found)
    own := fun other third member later handle found there =>
      tidy.own other third member later handle (came other member found) (came third later there)
    attempted := fun other member handle found =>
      tidy.attempted other member handle (came other member found)
    old := fun other member => by
      rw [Store.fresh_erase]
      exact tidy.old other member
    poisoned := fun other aborted member found =>
      tidy.poisoned other aborted member (came other member found) }

theorem registerSegment_keeps (id ptr size : Nat) (errorOnRereg window : Bool) :
    KeepsTidy (registerSegment library id ptr size errorOnRereg window) := by
  refine (deref_keeps id).bind fun comm => Keeps.ite (Keeps.ite (throw _) (pure ())) ?_
  refine (getBcclComm_keeps id).bind fun bcclComm => bcclCheck_keeps.bind fun _ => ?_
  have gentle : ∀ handle, Gentle fun self =>
      { self with registeredSegmentHandles := (ptr, handle) :: self.registeredSegmentHandles } :=
    fun handle self => ⟨rfl, fun aborted => aborted⟩
  intro world tidy
  exact ((logCall_keeps rfl).bind fun _ => update_keeps id (gentle _)) _ { tidy with }

theorem deregisterSegment_keeps (id ptr : Nat) (window : Bool) :
    KeepsTidy (deregisterSegment library id ptr window) := by
  refine (deref_keeps id).bind fun comm => ?_
  cases comm.registeredSegmentHandles.find? (·.1 == ptr) with
  | none => exact throw _
  | some entry =>
    refine (getBcclComm_keeps id).bind fun bcclComm => (logCall_keeps rfl).bind fun _ => ?_
    exact bcclCheck_keeps.bind fun _ => update_keeps id fun self =>
      ⟨rfl, fun aborted => aborted⟩

end Keeping

section Closing

variable {library : Library} {world : World} {id handle : Nat}

structure Attemptable (id handle : Nat) (world : World) : Prop where
  tidy : Tidy world
  has : ∃ comm, world.comms.get? id = some comm ∧ comm.bcclComm = some handle ∧
    comm.aborted = false
  unfailed : ¬FailedToClose world.calls handle

variable {comm : BCCLComm} {normal : Option String → World → Prop}

theorem Tidy.attemptable (tidy : Tidy world)
    (found : world.comms.get? id = some comm) (live : comm.aborted = false)
    (closable : Closable world comm) : ∃ handle, comm.bcclComm = some handle ∧
      Attemptable id handle world := by
  obtain ⟨handle, has, unfailed⟩ := closable
  exact ⟨handle, has, tidy, ⟨comm, found, has, live⟩, unfailed⟩

section

variable (attemptable : Attemptable id handle world)
include attemptable

theorem Attemptable.note (call : LibraryCall) (leaves : call.closes = none) :
    Attemptable id handle { world with calls := call :: world.calls } where
  tidy := logCall_keeps leaves world attemptable.tidy
  has := attemptable.has
  unfailed := by
    intro failed
    refine attemptable.unfailed ?_
    rcases failed with aborted | destroyed
    · rcases mem_cons.mp aborted with rfl | earlier
      · cases leaves
      · exact .inl earlier
    · rcases mem_cons.mp destroyed with rfl | earlier
      · cases leaves
      · exact .inr earlier

theorem nextTick_attemptable (tick : Nat) : Attemptable id handle { world with tick } :=
  ⟨{ attemptable.tidy with }, attemptable.has, attemptable.unfailed⟩

theorem Attemptable.modify (change : BCCLComm → BCCLComm) (gentle : Gentle change)
    (live : ∀ comm, (change comm).aborted = comm.aborted) :
    Attemptable id handle { world with comms := world.comms.modify id change } where
  tidy := attemptable.tidy.modify id gentle
  has := by
    obtain ⟨comm, found, has, isLive⟩ := attemptable.has
    exact ⟨change comm, Store.get?_modify_found found change, (gentle comm).1.trans has,
      (live comm).trans isLive⟩
  unfailed := attemptable.unfailed

end

theorem deregisterAll_spec (comm : Option Nat) (entries : List (Nat × SegmentHandle))
    (attemptable : Attemptable id handle world) :
    wp (deregisterAll library comm entries) (fun _ after => Attemptable id handle after)
      (fun _ after => Tidy after) world := by
  refine wp_forEach (fun _ after => Attemptable id handle after) (fun entry _ now holds => ?_)
    entries world attemptable
  have noted := holds.note (.deregister comm entry.2 false) rfl
  unfold logCall bcclCheck callFailure nextTick
  simp only [wp_bind, wp_modify, wp_get, wp_pure]
  have ticked := nextTick_attemptable noted (now.tick + 1)
  split
  · exact ticked
  · exact ticked.tidy

theorem getBcclComm_spec (attemptable : Attemptable id handle world) :
    wp (getBcclComm library id) (fun value after => value = some handle ∧
      Attemptable id handle after) (fun _ after => Tidy after) world := by
  obtain ⟨comm, found, has, live⟩ := attemptable.has
  have derefs : ∀ {now : World} {normal thrown}, now.comms.get? id = some comm →
      normal comm now → wp (deref id) normal thrown now := by
    intro now normal thrown there holds
    unfold deref
    rw [wp_bind, wp_get, there]
    exact holds
  unfold getBcclComm
  refine wp_seq (fun value after => comm = value ∧ world = after) (derefs found ⟨rfl, rfl⟩) ?_
  rintro _ _ ⟨rfl, rfl⟩
  rw [wp_ite, if_neg (by rw [live]; decide)]
  refine wp_seq (fun _ after => Attemptable id handle after) ?_ fun _ after ready => ?_
  · unfold ensureReady
    rw [wp_ite]
    split
    · unfold waitReady
      refine wp_seq (fun value after => comm = value ∧ world = after) (derefs found ⟨rfl, rfl⟩) ?_
      rintro _ _ ⟨rfl, rfl⟩
      rw [wp_ite, if_neg (by rw [live]; decide)]
      unfold bcclCheckTimeout awaitedFailure nextTick
      simp only [wp_bind, wp_modify, wp_get, wp_pure]
      have ticked := nextTick_attemptable attemptable (world.tick + 1)
      unfold throwIfFailed
      split
      · exact ticked.tidy
      · exact ticked
    · exact attemptable
  · obtain ⟨now, there, _, _⟩ := ready.has
    unfold update
    simp only [wp_bind, wp_get, there, wp_modify, wp_pure]
    exact ⟨has, ready.modify _ (fun self => ⟨rfl, fun aborted => aborted⟩) fun self => rfl⟩

variable {call : LibraryCall}

theorem Attemptable.ends (attemptable : Attemptable id handle world)
    (ends : call.closes = some (some handle)) :
    none ∉ closed (call :: world.calls) ∧ (closed (call :: world.calls)).Nodup ∧
      ∀ other, some other ∈ closed (call :: world.calls) → other < world.nextComm := by
  obtain ⟨comm, found, has, live⟩ := attemptable.has
  have new : some handle ∉ closed world.calls := fun attempted =>
    attemptable.unfailed (attemptable.tidy.attempted id comm handle found live has attempted)
  have all : closed (call :: world.calls) = some handle :: closed world.calls := by
    unfold closed
    rw [filterMap_cons, ends]
  rw [all]
  refine ⟨?_, nodup_cons.mpr ⟨new, attemptable.tidy.once⟩, fun other member => ?_⟩
  · intro null
    rcases mem_cons.mp null with absurd' | earlier
    · cases absurd'
    · exact attemptable.tidy.nonnull earlier
  · rcases mem_cons.mp member with same | earlier
    · exact some.inj same ▸ attemptable.tidy.made id comm handle found has
    · exact attemptable.tidy.known other earlier

theorem mem_closed_cons {calls : List LibraryCall} {other : Nat}
    (ends : call.closes = some (some handle)) (member : some other ∈ closed (call :: calls)) :
    other = handle ∨ some other ∈ closed calls := by
  unfold closed at member
  rw [filterMap_cons, ends] at member
  rcases mem_cons.mp member with same | earlier
  · exact .inl (some.inj same)
  · exact .inr earlier

theorem Attemptable.failed (attemptable : Attemptable id handle world)
    (ends : call.closes = some (some handle))
    (isFailed : FailedToClose (call :: world.calls) handle) :
    Tidy { world with calls := call :: world.calls } := by
  obtain ⟨nonnull, once, known⟩ := attemptable.ends ends
  refine { attemptable.tidy with nonnull, once, known, attempted := ?_ }
  intro other member handle' found live has attempted
  rcases mem_closed_cons ends attempted with rfl | earlier
  · exact isFailed
  · exact (attemptable.tidy.attempted other member handle' found live has earlier).imp
      (mem_cons_of_mem _) (mem_cons_of_mem _)

theorem Attemptable.done (attemptable : Attemptable id handle world) (call : LibraryCall)
    (change : BCCLComm → BCCLComm) (ends : call.closes = some (some handle))
    (aborts : ∀ comm, (change comm).aborted = true)
    (keeps : ∀ comm other, (change comm).bcclComm = some other → comm.bcclComm = some other) :
    Tidy { world with
      comms := world.comms.modify id change, calls := call :: world.calls } := by
  obtain ⟨nonnull, once, known⟩ := attemptable.ends ends
  obtain ⟨comm, found, has, _⟩ := attemptable.has
  have came : ∀ other member, (world.comms.modify id change).get? other = some member →
      ∃ before, world.comms.get? other = some before ∧
        (∀ handle', member.bcclComm = some handle' → before.bcclComm = some handle') ∧
        (other = id ∧ member.aborted = true ∨ other ≠ id ∧ member = before) := by
    intro other member there
    rcases Store.of_get?_modify there with ⟨same, before, stood, rfl⟩ | ⟨different, stood⟩
    · exact ⟨before, stood, keeps before, .inl ⟨same, aborts before⟩⟩
    · exact ⟨member, stood, fun _ has => has, .inr ⟨different, rfl⟩⟩
  constructor
  case nonnull => exact nonnull
  case once => exact once
  case made =>
    intro other member handle' there has'
    obtain ⟨before, stood, same, _⟩ := came other member there
    exact attemptable.tidy.made other before handle' stood (same handle' has')
  case known => exact known
  case own =>
    intro other third member later handle' there there' has' has''
    obtain ⟨before, stood, same, _⟩ := came other member there
    obtain ⟨before', stood', same', _⟩ := came third later there'
    exact attemptable.tidy.own other third before before' handle' stood stood' (same handle' has')
      (same' handle' has'')
  case attempted =>
    intro other member handle' there live has' attempted
    obtain ⟨before, stood, same, isId | ⟨different, rfl⟩⟩ := came other member there
    · rw [isId.2] at live
      cases live
    · rcases mem_closed_cons ends attempted with rfl | earlier
      · exact absurd (attemptable.tidy.own other id member comm handle' stood found has' has) different
      · exact (attemptable.tidy.attempted other member handle' stood live has' earlier).imp
          (mem_cons_of_mem _) (mem_cons_of_mem _)
  case old =>
    intro other member
    rw [Store.fresh_modify]
    exact attemptable.tidy.old other member
  case poisoned =>
    intro other aborted member there
    obtain ⟨before, stood, _, isId | ⟨_, rfl⟩⟩ := came other member there
    · exact isId.2
    · exact attemptable.tidy.poisoned other aborted member stood

theorem Tidy.abortedBy (tidy : Tidy world)
    (found : world.comms.get? id = some comm) (aborted : comm.aborted = true) :
    Tidy { world with abortedBy := id :: world.abortedBy } := by
  refine { tidy with old := fun other member => ?_, poisoned := fun other member => ?_ }
  · rcases mem_cons.mp member with rfl | earlier
    · exact Store.lt_fresh found
    · exact tidy.old other earlier
  · rcases mem_cons.mp member with rfl | earlier
    · intro object there
      obtain rfl := mem_unique found there
      exact aborted
    · exact tidy.poisoned other earlier

variable {thrown : Exn → World → Prop}

theorem throwIfFailed_spec {failure : Option String} {normal : Unit → World → Prop}
    (fails : ∀ message, failure = some message →
      thrown (.distBackend message) world) (holds : failure = none → normal () world) :
    wp (throwIfFailed failure) normal thrown world := by
  cases failure with
  | none => exact holds rfl
  | some message => exact fails message rfl

section

variable (holds : ∀ failure, normal failure { world with tick := world.tick + 1 })
include holds

theorem awaitedFailure_spec : wp (awaitedFailure library) normal thrown world := holds _

theorem callFailure_spec : wp (callFailure library) normal thrown world := holds _

end

theorem abort_spec (reason : Option String) (tidy : Tidy world)
    (allowed : Allowed world (.abort id reason)) :
    wp (abort library id reason) (fun _ after => Tidy after) (fun _ after => Tidy after) world := by
  unfold abort deref
  simp only [wp_bind, wp_get]
  cases found : world.comms.get? id with
  | none => exact tidy
  | some comm =>
    have may := allowed comm found
    rw [wp_pure]
    cases aborted : comm.aborted with
    | true =>
      rw [aborted, if_pos rfl] at may
      rw [wp_ite, if_pos (by simp [may]), wp_modify]
      exact tidy.abortedBy found aborted
    | false =>
      rw [aborted, if_neg Bool.false_ne_true] at may
      obtain ⟨handle, has, attemptable⟩ := tidy.attemptable found aborted may
      rw [wp_ite, if_neg (by simp), has]
      refine wp_seq (fun _ after => Attemptable id handle after)
        (deregisterAll_spec _ _ attemptable) fun _ after ready => ?_
      obtain ⟨now, there, _, _⟩ := ready.has
      unfold update
      simp only [wp_bind, wp_get, there, wp_modify, logCall]
      have settled := ready.modify
        (fun self => { self with registeredSegmentHandles := [], commFailureReason := reason })
        (fun self => ⟨rfl, fun aborted => aborted⟩) fun self => rfl
      refine awaitedFailure_spec fun failure => ?_
      have ticked := nextTick_attemptable settled (after.tick + 1)
      refine throwIfFailed_spec (fun message failed => ?_) fun passed => ?_
      · refine ticked.failed rfl (.inl ?_)
        rw [failed]
        exact .head _
      · obtain ⟨object, here, _, _⟩ := ticked.has
        simp only [here, wp_modify]
        have done := ticked.done (.abort (some handle) failure.isSome) (fun self => { self with
            aborted := true
            bcclComm := none
            bcclAsyncErr := if self.bcclAsyncErr = .success then .error else self.bcclAsyncErr })
          rfl (fun self => rfl) fun self other none => by cases none
        exact done.abortedBy (Store.get?_modify_found here _) rfl

theorem destroy_spec (tidy : Tidy world) (allowed : Allowed world (.destroy id)) :
    wp (destroy library id) (fun _ after => Tidy after) (fun _ after => Tidy after) world := by
  unfold destroy deref
  simp only [wp_bind, wp_get]
  cases found : world.comms.get? id with
  | none => exact tidy
  | some comm =>
    rw [wp_pure]
    cases aborted : comm.aborted with
    | true =>
      rw [wp_ite, if_pos rfl, wp_pure]
      exact tidy
    | false =>
      obtain ⟨handle, has, attemptable⟩ :=
        tidy.attemptable found aborted (allowed comm found aborted)
      rw [wp_ite, if_neg (by simp)]
      refine wp_seq _ (getBcclComm_spec attemptable) ?_
      rintro _ after ⟨rfl, ready⟩
      simp only [wp_bind, wp_modify, logCall]
      refine callFailure_spec fun failure => ?_
      have ticked := nextTick_attemptable ready (after.tick + 1)
      refine throwIfFailed_spec (fun message failed => ?_) fun passed => ?_
      · refine ticked.failed rfl (.inr ?_)
        rw [failed]
        exact .head _
      · obtain ⟨object, here, _, _⟩ := ticked.has
        unfold update
        simp only [wp_bind, wp_get, here, wp_modify]
        exact ticked.done (.destroy (some handle) failure.isSome) _ rfl
          (fun self => rfl) fun self other same => same

end Closing

section Runs

variable {library : Library} {world after : World} {action : Action}

theorem keeps_run {program : M Unit} (keeps : KeepsTidy program) (tidy : Tidy world) :
    wp program (fun _ now => Tidy now) (fun _ now => Tidy now) world :=
  wp_mono (keeps world tidy) (fun _ _ kept => kept) fun _ _ kept => kept.resolve_left id

theorem Action.keeps (tidy : Tidy world) (allowed : Allowed world action) :
    wp (action.run library) (fun _ now => Tidy now) (fun _ now => Tidy now) world := by
  cases action with
  | create rank deviceIndex =>
    exact keeps_run ((create_keeps rank deviceIndex).bind fun _ => Keeps.pure ()) tidy
  | createConfig rank deviceIndex blocking =>
    exact keeps_run ((createConfig_keeps rank deviceIndex blocking).bind fun _ => Keeps.pure ()) tidy
  | split source colorId rank blocking =>
    exact keeps_run ((split_keeps source colorId rank blocking).bind fun _ => Keeps.pure ()) tidy
  | getBcclComm comm => exact keeps_run ((getBcclComm_keeps comm).bind fun _ => Keeps.pure ()) tidy
  | waitReady comm => exact keeps_run (waitReady_keeps comm) tidy
  | abort comm reason => exact abort_spec reason tidy allowed
  | finalize comm => exact keeps_run (finalize_keeps comm) tidy
  | destroy comm => exact destroy_spec tidy allowed
  | destructor comm => exact keeps_run (destructor_keeps comm) tidy
  | registerSegment comm ptr size errorOnRereg window =>
    exact keeps_run (registerSegment_keeps comm ptr size errorOnRereg window) tidy
  | deregisterSegment comm ptr window => exact keeps_run (deregisterSegment_keeps comm ptr window) tidy

theorem Tidy.step (tidy : Tidy world) (allowed : Allowed world action)
    (taken : Step library world action after) : Tidy after := by
  have keeps : wp (action.run library) (fun _ now => Tidy now) (fun _ now => Tidy now) world :=
    Action.keeps tidy allowed
  cases taken with
  | returns _ run => exact wp_ok keeps run
  | throws exception _ run _ => exact wp_error keeps run

theorem tidy_initial : Tidy {} := by
  constructor <;> simp [closed]

theorem reachable_tidy (reached : (lifecycle library).Reachable Allowed world) : Tidy world := by
  induction reached with
  | initial begins => exact begins ▸ tidy_initial
  | step _ allowed taken tidy => exact tidy.step allowed taken

theorem getBcclComm_aborted {id : Nat} {comm : BCCLComm}
    (found : world.comms.get? id = some comm) (aborted : comm.aborted = true) :
    getBcclComm library id world = .error (.distBackend (abortedMessage comm)) world := by
  have derefs : deref id world = .ok comm world := by
    simp only [deref, run_bind, run_get, found]
    rfl
  unfold getBcclComm
  simp only [run_bind, derefs, aborted, if_true]
  rfl

theorem comms_disciplined (library : Library) (world : World)
    (reached : (lifecycle library).Reachable Allowed world) : Disciplined library world := by
  have tidy := reachable_tidy reached
  exact ⟨tidy.nonnull, tidy.once, fun id member comm found =>
    getBcclComm_aborted found (tidy.poisoned id member comm found)⟩

def advance (library : Library) (world : World) (action : Action) : Option World :=
  match action.run library world with
  | .ok _ after => some after
  | .error exception after => if exception = .undefinedBehaviour then none else some after

theorem step_of_advance (world : World) (action : Action) (after : World)
    (advances : advance library world action = some after) : Step library world action after := by
  unfold advance at advances
  split at advances
  · next run => exact .returns after ((some.inj advances) ▸ run)
  · next run =>
      split at advances
      · cases advances
      · next defined => exact .throws _ after ((some.inj advances) ▸ run) defined

def permits (world : World) : Action → Bool
  | .abort id _ => (world.comms.get? id).all fun comm =>
    if comm.aborted then !comm.initialized else
      comm.bcclComm.any fun handle =>
        !world.calls.contains (.abort (some handle) true) &&
          !world.calls.contains (.destroy (some handle) true)
  | .destroy _ => false
  | _ => true

theorem allowed_of_permits (world : World) (action : Action)
    (passes : permits world action = true) : Allowed world action := by
  cases action with
  | abort id reason =>
    intro comm found
    simp only [permits, found, all_some] at passes
    split at passes
    · next aborted =>
        rw [if_pos aborted]
        simpa using passes
    · next live =>
        rw [if_neg live]
        obtain ⟨handle, has, unfailed⟩ := (any_eq_true _ _).mp passes
        refine ⟨handle, has, fun failed => ?_⟩
        simp only [Bool.and_eq_true, Bool.not_eq_true', contains_eq_mem,
          decide_eq_false_iff_not] at unfailed
        exact failed.elim unfailed.1 unfailed.2
  | destroy id => cases passes
  | _ => trivial

def reliable : Library where
  result := fun _ => .success
  settles := fun _ => true

def finalWorld (guard : World → Action → Bool) (actions : List Action) : World :=
  (System.runs (advance reliable) guard {} actions).getD {}

theorem reachable_finalWorld {allowed : World → Action → Prop} (guard : World → Action → Bool)
    (actions : List Action)
    (ends : (System.runs (advance reliable) guard {} actions).isSome = true)
    (allow : ∀ world action, guard world action = true → allowed world action) :
    (lifecycle reliable).Reachable allowed (finalWorld guard actions) := by
  exact System.Reachable.ended (.initial rfl) step_of_advance allow ends _

/-- A split communicator that was never used is aborted twice, its parent once. -/
theorem comms_disciplined_sample :
    let final := finalWorld permits [.create 0 0, .split 0 3 1 true, .abort 1 none, .abort 1 none,
      .abort 0 (some "timeout")]
    Disciplined reliable final ∧ final.calls = [.abort (some 0) false, .abort (some 1) false] :=
  ⟨comms_disciplined reliable _ (reachable_finalWorld _ _ (by decide +kernel) allowed_of_permits),
    by decide +kernel⟩

/-- A communicator that was created in blocking mode is aborted twice. -/
theorem comms_not_disciplined : ¬ ∀ world,
    (lifecycle reliable).Reachable (fun _ _ => True) world → Disciplined reliable world := by
  intro all
  have disciplined := all _ (reachable_finalWorld (fun _ _ => true)
    [.create 0 0, .abort 0 none, .abort 0 none] (by decide +kernel) fun _ _ _ => trivial)
  exact absurd disciplined.nonnull (by decide +kernel)

end Runs

end TorchSupa.Bccl
