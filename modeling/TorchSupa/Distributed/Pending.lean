import TorchSupa.Distributed.Calls
import Mathlib.Data.List.Perm.Subperm

/-!
`pending_event_queries` counts the works that the watchdog may query: it is raised by a call
before it decides about its work and lowered by the call, if the work is not enqueued, or by
the watchdog once the work is off its list. A capture is to begin only when there are none.
-/

namespace TorchSupa.Distributed

open Nat Function

/-- The call has raised the count and still has to put its work on the list or to take it back. -/
def Call.Announces (call : Call) : Prop :=
  .incPendingEventQueries ∉ call.rest ∧
    (.workEnqueue ∈ call.rest ∨ call.admitted = true ∧ .emplace ∈ call.rest)

def Leaving (world : World) (id : Nat) : Prop :=
  ∃ group it, (world.groups group).watchdog = .removed id it

def Announced (world : World) (id : Nat) : Prop :=
  ∃ thread call, world.calls thread = some call ∧ call.id = id ∧ call.Announces

/-- The count is the number of increments that are not paid back. Each work on the list of the
watchdog has made one; it is paid back once, when the work has left the list or when its call
finds that it is not to be enqueued. No capture begins before all are paid back. -/
structure Balanced (world : World) : Prop where
  raisedOnce : world.increments.Nodup
  loweredOnce : world.decrements.Nodup
  raisedFirst : ∀ id ∈ world.decrements, id ∈ world.increments
  count : world.pendingEventQueries = (world.increments.length : Int) - world.decrements.length
  nonneg : 0 ≤ world.pendingEventQueries
  listedOnce : ∀ group, ((world.groups group).enqueued.map (·.id)).Nodup
  listed : ∀ id, Listed world id → id ∈ world.increments ∧ id ∉ world.decrements
  left : ∀ group, ∀ work ∈ (world.groups group).enqueued,
    work ∈ (world.groups group).workMetaList ∨ Leaving world work.id ∨ work.id ∈ world.decrements
  unpaid : ∀ id ∈ world.increments, id ∉ world.decrements →
    Listed world id ∨ Leaving world id ∨ Announced world id
  clear : ∀ thread, world.captures thread = .cleared →
    world.pendingEventQueries = 0 ∧ ∀ group, (world.groups group).workMetaList = []

/-- When the count is kept right: a call that is to enqueue its work finds the group neither
terminated nor in blocking wait, and no call raises the count between the last look of a capture
at it and the beginning of the capture. -/
def KeepsCount (world : World) : Action → Prop
  | .proceed thread _ => ∀ call next rest, world.calls thread = some call →
      call.rest = next :: rest →
      (next = .workEnqueue → call.enqueue = true →
        (world.groups call.group).terminateProcessGroup = false ∧
          (world.groups call.group).blockingWait = false) ∧
      (next = .incPendingEventQueries → ∀ other, world.captures other ≠ .cleared)
  | _ => True

structure Ledger (world : World) : Prop where
  raisedOnce : world.increments.Nodup
  loweredOnce : world.decrements.Nodup
  raisedFirst : ∀ id ∈ world.decrements, id ∈ world.increments
  count : world.pendingEventQueries = (world.increments.length : Int) - world.decrements.length
  known : ∀ id ∈ world.increments, id < world.nextCall
  listed : ∀ id, Listed world id → id ∈ world.increments ∧ id ∉ world.decrements
  leaving : ∀ id, Leaving world id → id ∈ world.increments ∧ id ∉ world.decrements
  announced : ∀ id, Announced world id → id ∈ world.increments ∧ id ∉ world.decrements
  before : ∀ thread call, world.calls thread = some call →
    .incPendingEventQueries ∈ call.rest → call.id ∉ world.increments
  gone : ∀ group id it, (world.groups group).watchdog = .removed id it →
    (∃ work ∈ (world.groups group).enqueued, work.id = id) ∧
      ∀ work ∈ (world.groups group).workMetaList, work.id ≠ id
  left : ∀ group, ∀ work ∈ (world.groups group).enqueued,
    work ∈ (world.groups group).workMetaList ∨ Leaving world work.id ∨ work.id ∈ world.decrements
  unpaid : ∀ id ∈ world.increments, id ∉ world.decrements →
    Listed world id ∨ Leaving world id ∨ Announced world id
  clear : ∀ thread, world.captures thread = .cleared → world.pendingEventQueries = 0

section Keeping

variable {world after : World} {thread group : Nat}

open List Option World

section

variable (ledger : Ledger world)
include ledger

theorem Ledger.positive {id : Nat} (raised : id ∈ world.increments)
    (unpaid : id ∉ world.decrements) : 0 < world.pendingEventQueries := by
  have shorter : (id :: world.decrements).length ≤ world.increments.length :=
    ((nodup_cons.mpr ⟨unpaid, ledger.loweredOnce⟩).subperm
      (cons_subset.mpr ⟨raised, ledger.raisedFirst⟩)).length_le
  have count := ledger.count
  simp only [length_cons] at shorter
  omega

theorem Ledger.nonneg : 0 ≤ world.pendingEventQueries := by
  have shorter := (ledger.loweredOnce.subperm ledger.raisedFirst).length_le
  have count := ledger.count
  omega

theorem Ledger.balanced (orderly : Orderly world) : Balanced world where
  raisedOnce := ledger.raisedOnce
  loweredOnce := ledger.loweredOnce
  raisedFirst := ledger.raisedFirst
  count := ledger.count
  nonneg := ledger.nonneg
  listedOnce := orderly.once
  listed := ledger.listed
  left := ledger.left
  unpaid := ledger.unpaid
  clear := fun thread cleared => by
    have zero := ledger.clear thread cleared
    refine ⟨zero, fun group => ?_⟩
    by_contra some_
    obtain ⟨work, member⟩ := exists_mem_of_ne_nil _ some_
    obtain ⟨raised, unpaid⟩ := ledger.listed work.id ⟨group, work, member, rfl⟩
    have positive := ledger.positive raised unpaid
    omega

theorem Ledger.congr (increments : after.increments = world.increments)
    (decrements : after.decrements = world.decrements)
    (pending : after.pendingEventQueries = world.pendingEventQueries)
    (nextCall : world.nextCall ≤ after.nextCall) (calls : after.calls = world.calls)
    (enqueued : ∀ group, (after.groups group).enqueued = (world.groups group).enqueued)
    (list : ∀ group, (after.groups group).workMetaList = (world.groups group).workMetaList)
    (removed : ∀ group id it, (after.groups group).watchdog = .removed id it ↔
      (world.groups group).watchdog = .removed id it)
    (captures : ∀ thread, after.captures thread = .cleared →
      world.captures thread = .cleared ∨ world.pendingEventQueries = 0) :
    Ledger after := by
  have listed : ∀ id, Listed after id ↔ Listed world id := fun id => by
    simp only [Listed, list]
  have leaving : ∀ id, Leaving after id ↔ Leaving world id := fun id => by
    simp only [Leaving, removed]
  have announced : ∀ id, Announced after id ↔ Announced world id := fun id => by
    simp only [Announced, calls]
  constructor
  · rw [increments]
    exact ledger.raisedOnce
  · rw [decrements]
    exact ledger.loweredOnce
  · rw [increments, decrements]
    exact ledger.raisedFirst
  · rw [increments, decrements, pending]
    exact ledger.count
  · rw [increments]
    exact fun id member => lt_of_lt_of_le (ledger.known id member) nextCall
  · rw [increments, decrements]
    exact fun id here => ledger.listed id ((listed id).mp here)
  · rw [increments, decrements]
    exact fun id here => ledger.leaving id ((leaving id).mp here)
  · rw [increments, decrements]
    exact fun id here => ledger.announced id ((announced id).mp here)
  · rw [increments, calls]
    exact ledger.before
  · intro group id it stage
    rw [enqueued, list]
    exact ledger.gone group id it ((removed group id it).mp stage)
  · intro group work member
    rw [enqueued] at member
    rw [list, leaving, decrements]
    exact ledger.left group work member
  · rw [increments, decrements]
    intro id raised unpaid
    rw [listed, leaving, announced]
    exact ledger.unpaid id raised unpaid
  · intro thread cleared
    rw [pending]
    exact (captures thread cleared).elim (ledger.clear thread) id

theorem Ledger.sameWorks (same : SameWorks world after) : Ledger after :=
  ledger.congr (read_of_works increments (fun _ => rfl) same.works)
    (read_of_works decrements (fun _ => rfl) same.works)
    (read_of_works pendingEventQueries (fun _ => rfl) same.works)
    (le_of_eq same.nextCall.symm) (read_of_works calls (fun _ => rfl) same.works)
    (group_of_works Group.enqueued (fun _ => rfl) same.works)
    (group_of_works Group.workMetaList (fun _ => rfl) same.works)
    (fun group id it => by rw [group_of_works Group.watchdog (fun _ => rfl) same.works])
    fun thread cleared => .inl (by
      rw [← read_of_works captures (fun _ => rfl) same.works]
      exact cleared)

theorem Ledger.setCall {outcome : Option Call}
    (announces : ∀ call, outcome = some call → call.Announces →
      call.id ∈ world.increments ∧ call.id ∉ world.decrements)
    (before : ∀ call, outcome = some call → .incPendingEventQueries ∈ call.rest →
      call.id ∉ world.increments)
    (pays : ∀ call, world.calls thread = some call → call.Announces →
      (∃ later, outcome = some later ∧ later.id = call.id ∧ later.Announces) ∨
        Listed world call.id ∨ Leaving world call.id ∨ call.id ∈ world.decrements) :
    Ledger (world.setCall thread outcome) := by
  have here : (world.setCall thread outcome).calls thread = outcome := setCall_same _ _ _
  have there : ∀ other, other ≠ thread →
      (world.setCall thread outcome).calls other = world.calls other := fun other different =>
    setCall_other _ _ different
  refine ⟨ledger.raisedOnce, ledger.loweredOnce, ledger.raisedFirst, ledger.count, ledger.known,
    ledger.listed, ledger.leaving, ?_, ?_, ledger.gone, ledger.left, ?_, ledger.clear⟩
  · rintro id ⟨other, call, found, rfl, announcing⟩
    by_cases same : other = thread
    · rw [same, here] at found
      exact announces call found announcing
    · rw [there other same] at found
      exact ledger.announced call.id ⟨other, call, found, rfl, announcing⟩
  · intro other call found
    by_cases same : other = thread
    · rw [same, here] at found
      exact before call found
    · rw [there other same] at found
      exact ledger.before other call found
  · intro id raised unpaid
    rcases ledger.unpaid id raised unpaid with listed | leaving | ⟨other, call, found, rfl, announcing⟩
    · exact .inl listed
    · exact .inr (.inl leaving)
    · by_cases same : other = thread
      · rw [same] at found
        rcases pays call found announcing with ⟨later, goes, agree, announcing⟩ | listed | leaving |
          paid
        · exact .inr (.inr ⟨thread, later, here.trans goes, agree, announcing⟩)
        · exact .inl listed
        · exact .inr (.inl leaving)
        · exact absurd paid unpaid
      · exact .inr (.inr ⟨other, call, (there other same).trans found, rfl, announcing⟩)

end

variable {call : Call}

theorem remaining_of_announces (announces : call.Announces) :
    remaining (some call) = some call := by
  have some_ : call.rest ≠ [] := by
    intro empty
    rcases announces.2 with decides | ⟨_, emplaces⟩
    · rw [empty] at decides
      cases decides
    · rw [empty] at emplaces
      cases emplaces
  unfold remaining
  rw [filter_some_pos (by simpa using some_)]

theorem Ledger.advance {call later : Call} (ledger : Ledger world)
    (found : world.calls thread = some call) (same : later.id = call.id)
    (announces : later.Announces → later.id ∈ world.increments ∧ later.id ∉ world.decrements)
    (before : .incPendingEventQueries ∈ later.rest → later.id ∉ world.increments)
    (pays : call.Announces → later.Announces) :
    Ledger (world.setCall thread (remaining (some later))) := by
  refine ledger.setCall (fun _ remains => ?_) (fun _ remains => ?_) fun old there announcing => ?_
  · obtain rfl := some.inj (remaining_some remains)
    exact announces
  · obtain rfl := some.inj (remaining_some remains)
    exact before
  · obtain rfl := mem_unique found there
    have still := pays announcing
    exact .inl ⟨later, remaining_of_announces still, same, still⟩

theorem Ledger.alone (ledger : Ledger world) (orderly : Orderly world)
    (found : world.calls thread = some call) (emplaces : .emplace ∈ call.rest) :
    ¬Listed world call.id ∧ ¬Leaving world call.id ∧
      ∀ other member, other ≠ thread → world.calls other = some member → member.id ≠ call.id := by
  refine ⟨?_, ?_, fun other member different there agree =>
    different (orderly.apart other thread member call there found agree)⟩
  · rintro ⟨group, work, member, agree⟩
    have enqueued : work ∈ (world.groups group).enqueued :=
      mem_reverse.mp ((orderly.listed group).subset member)
    exact (orderly.ok thread call found).placed group work enqueued agree emplaces
  · rintro ⟨group, it, stage⟩
    obtain ⟨work, enqueued, agree⟩ := (ledger.gone group call.id it stage).1
    exact (orderly.ok thread call found).placed group work enqueued agree emplaces

variable {rest : List Section}

theorem Ledger.raised (call : Call) (ledger : Ledger world)
    (orderly : Orderly world) (found : world.calls thread = some call)
    (left : call.rest = .incPendingEventQueries :: rest)
    (unseen : ∀ other, world.captures other ≠ .cleared) :
    Ledger ((world.raised call.id).setCall thread (remaining (some { call with rest }))) := by
  have ok := orderly.ok thread call found
  have order := inOrder (left ▸ ok.shaped)
  have fresh : call.id ∉ world.increments :=
    ledger.before thread call found (by rw [left]; exact (.head _))
  have announces : ({ call with rest } : Call).Announces := ⟨order.once, .inl (order.announces rfl)⟩
  have here : ((world.raised call.id).setCall thread (remaining (some { call with rest }))).calls
      thread = some { call with rest } := by
    rw [remaining_of_announces announces]
    exact setCall_same _ _ _
  have there : ∀ other, other ≠ thread → ((world.raised call.id).setCall thread
      (remaining (some { call with rest }))).calls other = world.calls other :=
    fun other different => setCall_other _ _ different
  constructor
  · exact nodup_cons.mpr ⟨fresh, ledger.raisedOnce⟩
  · exact ledger.loweredOnce
  · exact fun id member => mem_cons_of_mem _ (ledger.raisedFirst id member)
  · change world.pendingEventQueries + 1 = ((call.id :: world.increments).length : Int) - _
    rw [ledger.count]
    simp only [length_cons]
    push_cast
    change _ = _ - (world.decrements.length : Int)
    omega
  · intro id member
    rcases mem_cons.mp member with rfl | old
    · exact ok.known
    · exact ledger.known id old
  · exact fun id listed => ⟨mem_cons_of_mem _ (ledger.listed id listed).1,
      (ledger.listed id listed).2⟩
  · exact fun id leaving => ⟨mem_cons_of_mem _ (ledger.leaving id leaving).1,
      (ledger.leaving id leaving).2⟩
  · rintro id ⟨other, member, at_, rfl, announcing⟩
    by_cases same : other = thread
    · rw [same, here] at at_
      cases at_
      exact ⟨mem_cons_self, fun paid => fresh (ledger.raisedFirst _ paid)⟩
    · rw [there other same] at at_
      obtain ⟨raised, unpaid⟩ := ledger.announced member.id ⟨other, member, at_, rfl, announcing⟩
      exact ⟨mem_cons_of_mem _ raised, unpaid⟩
  · intro other member at_ raises
    by_cases same : other = thread
    · rw [same, here] at at_
      cases at_
      exact absurd raises order.once
    · rw [there other same] at at_
      intro raised
      rcases mem_cons.mp raised with agree | old
      · exact same (orderly.apart other thread member call at_ found agree)
      · exact ledger.before other member at_ raises old
  · exact ledger.gone
  · exact ledger.left
  · intro id raised unpaid
    rcases mem_cons.mp raised with rfl | old
    · exact .inr (.inr ⟨thread, _, here, rfl, announces⟩)
    · rcases ledger.unpaid id old unpaid with listed | leaving | ⟨other, member, at_, rfl, announcing⟩
      · exact .inl listed
      · exact .inr (.inl leaving)
      · have different : other ≠ thread := by
          rintro rfl
          obtain rfl := mem_unique found at_
          exact announcing.1 (by rw [left]; exact (.head _))
        exact .inr (.inr ⟨other, member, (there other different).trans at_, rfl, announcing⟩)
  · exact fun other cleared => absurd cleared (unseen other)

theorem Ledger.lowered (call : Call) (ledger : Ledger world)
    (orderly : Orderly world) (found : world.calls thread = some call)
    (left : call.rest = .workEnqueue :: rest) :
    Ledger ((world.lowered call.id).setCall thread (remaining (some { call with rest }))) := by
  have ok := orderly.ok thread call found
  have order := inOrder (left ▸ ok.shaped)
  have emplaces : .emplace ∈ call.rest := by
    rw [left]
    exact .tail _ (order.counted rfl).2
  have announcing : call.Announces := by
    refine ⟨?_, .inl (by rw [left]; exact (.head _))⟩
    rw [left]
    exact not_mem_cons_of_ne_of_not_mem (by decide) (order.counted rfl).1
  obtain ⟨raised, unpaid⟩ := ledger.announced call.id ⟨thread, call, found, rfl, announcing⟩
  have positive := ledger.positive raised unpaid
  obtain ⟨unlisted, staying, others⟩ := ledger.alone orderly found emplaces
  have silent : ¬({ call with rest } : Call).Announces := by
    rintro ⟨_, decides | ⟨admitted, _⟩⟩
    · exact order.once decides
    · exact (ok.decided admitted).2.2 (by rw [left]; exact (.head _))
  have there : ∀ other, other ≠ thread → ((world.lowered call.id).setCall thread
      (remaining (some { call with rest }))).calls other = world.calls other :=
    fun other different => setCall_other _ _ different
  have here : ∀ later, ((world.lowered call.id).setCall thread
      (remaining (some { call with rest }))).calls thread = some later →
      later = { call with rest } := fun later at_ =>
    (some.inj (remaining_some ((setCall_same _ _ _).symm.trans at_))).symm
  constructor
  · exact ledger.raisedOnce
  · exact nodup_cons.mpr ⟨unpaid, ledger.loweredOnce⟩
  · exact forall_mem_cons.mpr ⟨raised, ledger.raisedFirst⟩
  · change world.pendingEventQueries - 1 = _ - ((call.id :: world.decrements).length : Int)
    rw [ledger.count]
    simp only [length_cons]
    push_cast
    change _ = (world.increments.length : Int) - _
    omega
  · exact ledger.known
  · refine fun id listed => ⟨(ledger.listed id listed).1, fun paid => ?_⟩
    rcases mem_cons.mp paid with rfl | old
    · exact unlisted listed
    · exact (ledger.listed id listed).2 old
  · refine fun id leaving => ⟨(ledger.leaving id leaving).1, fun paid => ?_⟩
    rcases mem_cons.mp paid with rfl | old
    · exact staying leaving
    · exact (ledger.leaving id leaving).2 old
  · rintro id ⟨other, member, at_, rfl, announces⟩
    by_cases same : other = thread
    · subst same
      obtain rfl := here member at_
      exact absurd announces silent
    · rw [there other same] at at_
      obtain ⟨counted, open_⟩ := ledger.announced member.id ⟨other, member, at_, rfl, announces⟩
      refine ⟨counted, fun paid => ?_⟩
      rcases mem_cons.mp paid with agree | old
      · exact others other member same at_ agree
      · exact open_ old
  · intro other member at_ raises
    by_cases same : other = thread
    · subst same
      obtain rfl := here member at_
      exact absurd raises (order.counted rfl).1
    · rw [there other same] at at_
      exact ledger.before other member at_ raises
  · exact ledger.gone
  · intro group work member
    rcases ledger.left group work member with listed | leaving | paid
    · exact .inl listed
    · exact .inr (.inl leaving)
    · exact .inr (.inr (.tail _ paid))
  · intro id counted open_
    have different : id ≠ call.id := fun same => open_ (same ▸ (.head _))
    rcases ledger.unpaid id counted (not_mem_of_not_mem_cons open_) with listed | leaving | ⟨other, member, at_, rfl, announces⟩
    · exact .inl listed
    · exact .inr (.inl leaving)
    · have apart : other ≠ thread := by
        rintro rfl
        obtain rfl := mem_unique found at_
        exact different rfl
      exact .inr (.inr ⟨other, member, (there other apart).trans at_, rfl, announces⟩)
  · intro other cleared
    have zero := ledger.clear other cleared
    omega

theorem Ledger.emplace {work : Work} (ledger : Ledger world)
    (raised : work.id ∈ world.increments) (unpaid : work.id ∉ world.decrements)
    (unlocked : (world.groups group).watchdog.holdsLock = false) :
    Ledger (world.modifyGroup group (emplaceBack work)) := by
  have watchdog : ∀ other, ((world.modifyGroup group (emplaceBack work)).groups other).watchdog =
      (world.groups other).watchdog := modifyGroup_keeps rfl
  have leaving : ∀ id, Leaving (world.modifyGroup group (emplaceBack work)) id ↔ Leaving world id :=
    fun id => by simp only [Leaving, watchdog]
  have listed : ∀ id, Listed (world.modifyGroup group (emplaceBack work)) id →
      id = work.id ∨ Listed world id := by
    rintro id ⟨other, member, there, rfl⟩
    rcases mem_emplaced.mp there with old | ⟨_, rfl⟩
    · exact .inr ⟨other, member, old, rfl⟩
    · exact .inl rfl
  refine ⟨ledger.raisedOnce, ledger.loweredOnce, ledger.raisedFirst, ledger.count, ledger.known,
    ?_, fun id here => ledger.leaving id ((leaving id).mp here), ledger.announced, ledger.before,
    ?_, ?_, ?_, ledger.clear⟩
  · intro id here
    rcases listed id here with rfl | old
    · exact ⟨raised, unpaid⟩
    · exact ledger.listed id old
  · intro other id it stage
    rw [watchdog] at stage
    have different : other ≠ group := by
      rintro rfl
      rw [stage] at unlocked
      cases unlocked
    rw [modifyGroup_other _ different]
    exact ledger.gone other id it stage
  · intro other member there
    rw [leaving]
    by_cases same : other = group
    · rw [same, modifyGroup_same] at there
      rcases mem_cons.mp there with rfl | old
      · exact .inl (mem_emplaced.mpr (.inr ⟨same, rfl⟩))
      · exact (ledger.left other member (same ▸ old)).imp_left fun here =>
          mem_emplaced.mpr (.inl here)
    · rw [modifyGroup_other _ same] at there
      exact (ledger.left other member there).imp_left fun here => mem_emplaced.mpr (.inl here)
  · intro id counted open_
    rw [leaving]
    refine (ledger.unpaid id counted open_).imp_left ?_
    rintro ⟨other, member, there, agree⟩
    exact ⟨other, member, mem_emplaced.mpr (.inl there), agree⟩

theorem Call.Announces.emplaces (announces : call.Announces)
    (shaped : call.rest ∈ shapes) : .emplace ∈ call.rest := by
  rcases announces.2 with decides | ⟨_, emplaces⟩
  · exact emplace_of_workEnqueue shaped decides
  · exact emplaces

theorem announces_iff {call later : Call} {next : Section} (left : call.rest = next :: later.rest)
    (admitted : later.admitted = call.admitted) (raises : next ≠ .incPendingEventQueries)
    (decides : next ≠ .workEnqueue) (emplaces : next ≠ .emplace) :
    later.Announces ↔ call.Announces := by
  unfold Call.Announces
  rw [left, admitted, mem_cons, mem_cons, mem_cons]
  simp [raises.symm, decides.symm, emplaces.symm]

section

variable (ledger : Ledger world)
include ledger

variable {next : Section} {change : Group → Group}

theorem Ledger.passing {call later : Call}
    (found : world.calls thread = some call) (left : call.rest = next :: later.rest)
    (same : later.id = call.id) (admitted : later.admitted = call.admitted)
    (raises : next ≠ .incPendingEventQueries) (decides : next ≠ .workEnqueue)
    (emplaces : next ≠ .emplace) : Ledger (world.setCall thread (remaining (some later))) := by
  have agree := announces_iff left admitted raises decides emplaces
  refine ledger.advance found same (fun announces => ?_) (fun later => ?_) agree.mpr
  · rw [same]
    exact ledger.announced call.id ⟨thread, call, found, rfl, agree.mp announces⟩
  · rw [same]
    exact ledger.before thread call found (by rw [left]; exact .tail _ later)

theorem Ledger.dropCall (found : world.calls thread = some call) (silent : ¬call.Announces) :
    Ledger (world.setCall thread (remaining none)) := by
  refine ledger.setCall (fun _ ended => by cases ended) (fun _ ended => by cases ended) ?_
  intro old there announces
  obtain rfl := mem_unique found there
  exact absurd announces silent

theorem Ledger.modifyGroup (enqueued : ∀ self, (change self).enqueued = self.enqueued)
    (listed : ∀ self, (change self).workMetaList = self.workMetaList)
    (watchdog : ∀ self, (change self).watchdog = self.watchdog) :
    Ledger (world.modifyGroup group change) :=
  ledger.congr rfl rfl rfl (le_refl _) rfl (modifyGroup_keeps (enqueued _))
    (modifyGroup_keeps (listed _))
    (fun other id it => by rw [modifyGroup_keeps (watchdog _)]) fun _ cleared => .inl cleared

theorem Ledger.ran {fate : Fate} {outcome : Option Call} {final : World} (orderly : Orderly world)
    (allowed : KeepsCount world (.proceed thread fate)) (found : world.calls thread = some call)
    (left : call.rest = next :: rest) (ran : Ran world fate { call with rest } next outcome final) :
    Ledger (final.setCall thread (remaining outcome)) := by
  have ok := orderly.ok thread call found
  have order := inOrder (left ▸ ok.shaped)
  have permitted := allowed call next rest found left
  have unraised : next = .launch ∨ next = .closeGroup → ¬call.Announces := fun launches announces =>
    announces.1 (by rw [left]; exact .tail _ (order.launches launches))
  have deciding : next = .workEnqueue → call.Announces := by
    rintro rfl
    refine ⟨?_, .inl (by rw [left]; exact (.head _))⟩
    rw [left]
    exact not_mem_cons_of_ne_of_not_mem (by decide) (order.counted rfl).1
  cases ran with
  | launched =>
    exact ledger.passing found left rfl rfl (by decide) (by decide) (by decide)
  | notLaunched => exact ledger.dropCall found (unraised (.inl rfl))
  | closed same calls =>
    exact (ledger.sameWorks same).passing (calls ▸ found) left rfl rfl (by decide) (by decide)
      (by decide)
  | notClosed same calls =>
    exact (ledger.sameWorks same).dropCall (calls ▸ found) (unraised (.inr rfl))
  | @charged work =>
    have kept : Ledger (world.modifyGroup call.group
        (takeTimeout world.finished (withTimeout (world.groups call.group) work))) :=
      ledger.modifyGroup (fun _ => rfl) (fun _ => rfl) fun _ => rfl
    exact kept.passing found left rfl rfl (by decide) (by decide) (by decide)
  | nothingToCharge =>
    exact ledger.passing found left rfl rfl (by decide) (by decide) (by decide)
  | readStatus =>
    exact ledger.passing found left rfl rfl (by decide) (by decide) (by decide)
  | raised => exact ledger.raised call orderly found left (permitted.2 rfl)
  | @admitted admitted enqueues decision =>
    obtain ⟨running, nonblocking⟩ := permitted.1 rfl enqueues
    have admits : admitted = true := by
      rw [decision, running, nonblocking]
      rfl
    have still : ({ call with
        rest
        admitted } : Call).Announces := ⟨(order.counted rfl).1, .inr ⟨admits, (order.counted rfl).2⟩⟩
    refine ledger.advance found rfl (fun _ => ?_) (fun raises => ?_) fun _ => still
    · exact ledger.announced call.id ⟨thread, call, found, rfl, deciding rfl⟩
    · exact absurd raises (order.counted rfl).1
  | lowered => exact ledger.lowered call orderly found left
  | notLowered _ stuck =>
    obtain ⟨raised, unpaid⟩ := ledger.announced call.id ⟨thread, call, found, rfl, deciding rfl⟩
    exact absurd (ledger.positive raised unpaid) stuck
  | @emplaced work has admitted unlocked =>
    have own : work.id = call.id := ok.own work has
    have announcing : call.Announces := by
      refine ⟨?_, .inr ⟨admitted, by rw [left]; exact (.head _)⟩⟩
      rw [left]
      exact not_mem_cons_of_ne_of_not_mem (by decide) (order.decided rfl).1
    obtain ⟨raised, unpaid⟩ := ledger.announced call.id ⟨thread, call, found, rfl, announcing⟩
    refine (ledger.emplace (own ▸ raised) (own ▸ unpaid) unlocked).setCall ?_ ?_ ?_
    · rintro _ remains ⟨_, decides | ⟨_, emplaces⟩⟩
      · obtain rfl := some.inj (remaining_some remains)
        exact absurd decides (order.decided rfl).2
      · obtain rfl := some.inj (remaining_some remains)
        exact absurd emplaces order.once
    · intro _ remains raises
      obtain rfl := some.inj (remaining_some remains)
      exact absurd raises (order.decided rfl).1
    · intro old there _
      obtain rfl := mem_unique found there
      exact .inr (.inl ⟨call.group, work, mem_emplaced.mpr (.inr ⟨rfl, rfl⟩), own⟩)
  | notEmplaced refused =>
    have silent : ¬call.Announces := by
      rintro ⟨_, decides | ⟨admitted, _⟩⟩
      · rw [left] at decides
        rcases mem_cons.mp decides with now | later
        · cases now
        · exact (order.decided rfl).2 later
      · rcases refused with not | lacks
        · rw [show call.admitted = false from not] at admitted
          cases admitted
        · have enqueues := (ok.decided admitted).1
          rw [ok.workless lacks] at enqueues
          cases enqueues
    refine ledger.advance found rfl ?_ (fun raises => absurd raises (order.decided rfl).1)
      fun announces => absurd announces silent
    rintro ⟨_, decides | ⟨_, emplaces⟩⟩
    · exact absurd decides (order.decided rfl).2
    · exact absurd emplaces order.once
  | reset =>
    have kept : Ledger (world.modifyGroup call.group closeRegion) :=
      ledger.modifyGroup (fun _ => rfl) (fun _ => rfl) fun _ => rfl
    exact kept.passing found left rfl rfl (by decide) (by decide) (by decide)

theorem Ledger.begin (idle : world.calls thread = none) (made : Made world group call after) :
    Ledger (after.setCall thread (remaining (some call))) := by
  have kept : Ledger after :=
    ledger.congr (read_of_works increments (fun _ => rfl) made.works)
      (read_of_works decrements (fun _ => rfl) made.works)
      (read_of_works pendingEventQueries (fun _ => rfl) made.works)
      (by rw [made.next]; exact le_succ _) (read_of_works calls (fun _ => rfl) made.works)
      (group_of_works Group.enqueued (fun _ => rfl) made.works)
      (group_of_works Group.workMetaList (fun _ => rfl) made.works)
      (fun group id it => by rw [group_of_works Group.watchdog (fun _ => rfl) made.works])
      fun thread cleared => .inl (by
        rw [← read_of_works captures (fun _ => rfl) made.works]
        exact cleared)
  have calls : after.calls = world.calls := read_of_works calls (fun _ => rfl) made.works
  have increments : after.increments = world.increments :=
    read_of_works increments (fun _ => rfl) made.works
  refine kept.setCall (fun later remains announces => ?_) (fun later remains _ raised => ?_) ?_
  · obtain rfl := some.inj (remaining_some remains)
    rcases made.rest with ⟨empty, _⟩ | sections | sections | sections
    · rcases announces.2 with decides | ⟨_, emplaces⟩
      · rw [empty] at decides
        cases decides
      · rw [empty] at emplaces
        cases emplaces
    · exact absurd announces.1 (by rw [sections]; decide)
    · exact absurd announces.1 (by rw [sections]; decide)
    · exact absurd announces.1 (by rw [sections]; decide)
  · obtain rfl := some.inj (remaining_some remains)
    rw [increments] at raised
    have older := ledger.known call.id raised
    rw [made.id] at older
    exact absurd older (lt_irrefl _)
  · intro old there _
    rw [calls, idle] at there
    cases there

theorem Ledger.watch (enqueued : ∀ self, (change self).enqueued = self.enqueued)
    (listed : ∀ self, (change self).workMetaList = self.workMetaList)
    (before : ∀ id it, (world.groups group).watchdog ≠ .removed id it)
    (later : ∀ id it, (change (world.groups group)).watchdog ≠ .removed id it) :
    Ledger (world.modifyGroup group change) := by
  refine ledger.congr rfl rfl rfl (le_refl _) rfl (modifyGroup_keeps (enqueued _))
    (modifyGroup_keeps (listed _)) (fun other id it => ?_) fun _ cleared => .inl cleared
  by_cases same : other = group
  · rw [same, modifyGroup_same]
    exact ⟨fun now => absurd now (later id it), fun now => absurd now (before id it)⟩
  · rw [modifyGroup_other _ same]

theorem Ledger.removes {work : Work} {it : Nat} (orderly : Orderly world)
    (stage : (world.groups group).watchdog = .retired it)
    (found : (world.groups group).workMetaList[it]? = some work) :
    Ledger (world.modifyGroup group (cleanUp work it)) := by
  have member : work ∈ (world.groups group).workMetaList := mem_of_getElem? found
  obtain ⟨raised, unpaid⟩ := ledger.listed work.id ⟨group, work, member, rfl⟩
  have enqueued : ∀ other, ((world.modifyGroup group (cleanUp work it)).groups other).enqueued =
      (world.groups other).enqueued := modifyGroup_keeps rfl
  have shrinks : ∀ other, ∀ member ∈
      ((world.modifyGroup group (cleanUp work it)).groups other).workMetaList,
      member ∈ (world.groups other).workMetaList := by
    intro other member there
    by_cases same : other = group
    · rw [same, modifyGroup_same] at there
      exact same ▸ mem_of_mem_eraseIdx there
    · rw [modifyGroup_other _ same] at there
      exact there
  have listed : ∀ id, Listed (world.modifyGroup group (cleanUp work it)) id → Listed world id :=
    fun id ⟨other, member, there, agree⟩ => ⟨other, member, shrinks other member there, agree⟩
  have now : Leaving (world.modifyGroup group (cleanUp work it)) work.id :=
    ⟨group, it, by rw [modifyGroup_same]; rfl⟩
  have leaving : ∀ id, Leaving world id → Leaving (world.modifyGroup group (cleanUp work it)) id := by
    rintro id ⟨other, place, there⟩
    have different : other ≠ group := by
      rintro rfl
      rw [stage] at there
      cases there
    exact ⟨other, place, by rw [modifyGroup_other _ different]; exact there⟩
  have remains : ∀ other, ∀ member ∈ (world.groups other).workMetaList, member = work ∨
      member ∈ ((world.modifyGroup group (cleanUp work it)).groups other).workMetaList := by
    intro other partner there
    by_cases same : other = group
    · subst same
      rw [modifyGroup_same]
      exact mem_eraseIdx_or found there
    · rw [modifyGroup_other _ same]
      exact .inr there
  refine ⟨ledger.raisedOnce, ledger.loweredOnce, ledger.raisedFirst, ledger.count, ledger.known,
    fun id here => ledger.listed id (listed id here), ?_, ledger.announced, ledger.before, ?_, ?_,
    ?_, ledger.clear⟩
  · rintro id ⟨other, place, there⟩
    by_cases same : other = group
    · rw [same, modifyGroup_same] at there
      obtain ⟨rfl, _⟩ := Watchdog.removed.inj there
      exact ⟨raised, unpaid⟩
    · rw [modifyGroup_other _ same] at there
      exact ledger.leaving id ⟨other, place, there⟩
  · intro other id place there
    rw [enqueued]
    by_cases same : other = group
    · subst same
      rw [modifyGroup_same] at there ⊢
      obtain ⟨rfl, _⟩ := Watchdog.removed.inj there
      exact ⟨⟨work, mem_reverse.mp ((orderly.listed other).subset member), rfl⟩,
        fun partner kept => orderly.erased found kept⟩
    · rw [modifyGroup_other _ same] at there ⊢
      exact ledger.gone other id place there
  · intro other partner there
    rw [enqueued] at there
    rcases ledger.left other partner there with here | going | paid
    · rcases remains other partner here with rfl | still
      · exact .inr (.inl now)
      · exact .inl still
    · exact .inr (.inl (leaving _ going))
    · exact .inr (.inr paid)
  · intro id counted open_
    rcases ledger.unpaid id counted open_ with ⟨other, partner, here, rfl⟩ | going | announced
    · rcases remains other partner here with rfl | still
      · exact .inr (.inl now)
      · exact .inl ⟨other, partner, still, rfl⟩
    · exact .inr (.inl (leaving _ going))
    · exact .inr (.inr announced)

theorem Ledger.lowers {id it : Nat} (orderly : Orderly world)
    (stage : (world.groups group).watchdog = .removed id it) :
    Ledger ((world.lowered id).modifyGroup group (setWatchdog (.scanning it))) := by
  obtain ⟨raised, unpaid⟩ := ledger.leaving id ⟨group, it, stage⟩
  have positive := ledger.positive raised unpaid
  obtain ⟨⟨work, enqueued, rfl⟩, gone⟩ := ledger.gone group id it stage
  have alone : ∀ other, ∀ member ∈ (world.groups other).enqueued, member.id = work.id →
      other = group := fun other member there agree =>
    orderly.own other group member there work enqueued agree
  have unlisted : ¬Listed world work.id := by
    rintro ⟨other, member, there, agree⟩
    have same := alone other member (mem_reverse.mp ((orderly.listed other).subset there)) agree
    exact gone member (same ▸ there) agree
  have silent : ¬Announced world work.id := by
    rintro ⟨thread, call, found, agree, announces⟩
    exact (orderly.ok thread call found).placed group work enqueued agree.symm
      (announces.emplaces (orderly.ok thread call found).shaped)
  have list : ∀ other, (((world.lowered work.id).modifyGroup group
      (setWatchdog (.scanning it))).groups other).workMetaList = (world.groups other).workMetaList :=
    modifyGroup_keeps rfl
  have history : ∀ other, (((world.lowered work.id).modifyGroup group
      (setWatchdog (.scanning it))).groups other).enqueued = (world.groups other).enqueued :=
    modifyGroup_keeps rfl
  have listed : ∀ id, Listed ((world.lowered work.id).modifyGroup group
      (setWatchdog (.scanning it))) id ↔ Listed world id := fun id => by simp only [Listed, list]
  have watchdog : ∀ other place id, (((world.lowered work.id).modifyGroup group
      (setWatchdog (.scanning it))).groups other).watchdog = .removed id place ↔
      other ≠ group ∧ (world.groups other).watchdog = .removed id place := by
    intro other place id
    by_cases same : other = group
    · rw [same, modifyGroup_same]
      exact ⟨fun now => (by cases now), fun now => absurd rfl now.1⟩
    · rw [modifyGroup_other _ same]
      exact ⟨fun now => ⟨same, now⟩, fun now => now.2⟩
  have leaving : ∀ id, Leaving ((world.lowered work.id).modifyGroup group
      (setWatchdog (.scanning it))) id ↔ id ≠ work.id ∧ Leaving world id := by
    intro id
    constructor
    · rintro ⟨other, place, there⟩
      obtain ⟨different, before⟩ := (watchdog other place id).mp there
      refine ⟨?_, other, place, before⟩
      rintro rfl
      obtain ⟨member, here, agree⟩ := (ledger.gone other work.id place before).1
      exact different (alone other member here agree)
    · rintro ⟨different, other, place, before⟩
      refine ⟨other, place, (watchdog other place id).mpr ⟨?_, before⟩⟩
      rintro rfl
      rw [stage] at before
      exact different (Watchdog.removed.inj before).1.symm
  constructor
  · exact ledger.raisedOnce
  · exact nodup_cons.mpr ⟨unpaid, ledger.loweredOnce⟩
  · exact forall_mem_cons.mpr ⟨raised, ledger.raisedFirst⟩
  · change world.pendingEventQueries - 1 = _ - ((work.id :: world.decrements).length : Int)
    rw [ledger.count]
    simp only [length_cons]
    push_cast
    change _ = (world.increments.length : Int) - _
    omega
  · exact ledger.known
  · intro id here
    rw [listed] at here
    refine ⟨(ledger.listed id here).1, fun paid => ?_⟩
    rcases mem_cons.mp paid with rfl | old
    · exact unlisted here
    · exact (ledger.listed id here).2 old
  · intro id here
    obtain ⟨different, here⟩ := (leaving id).mp here
    refine ⟨(ledger.leaving id here).1, fun paid => ?_⟩
    rcases mem_cons.mp paid with same | old
    · exact different same
    · exact (ledger.leaving id here).2 old
  · intro id here
    refine ⟨(ledger.announced id here).1, fun paid => ?_⟩
    rcases mem_cons.mp paid with rfl | old
    · exact silent here
    · exact (ledger.announced id here).2 old
  · exact ledger.before
  · intro other id place there
    rw [history, list]
    exact ledger.gone other id place ((watchdog other place id).mp there).2
  · intro other member there
    rw [history] at there
    rw [list, leaving]
    rcases ledger.left other member there with here | going | paid
    · exact .inl here
    · by_cases same : member.id = work.id
      · rw [same]
        exact .inr (.inr (.head _))
      · exact .inr (.inl ⟨same, going⟩)
    · exact .inr (.inr (.tail _ paid))
  · intro id counted open_
    have different : id ≠ work.id := fun same => open_ (same ▸ (.head _))
    rw [listed, leaving]
    rcases ledger.unpaid id counted (not_mem_of_not_mem_cons open_) with here | going | here
    · exact .inl here
    · exact .inr (.inl ⟨different, going⟩)
    · exact .inr (.inr here)
  · intro other cleared
    have zero := ledger.clear other cleared
    omega

theorem Ledger.watched {queries : Queries} (orderly : Orderly world)
    (watched : Watched world group queries after) : Ledger after := by
  have stays : ∀ stage, (∀ id it, stage ≠ .removed id it) →
      (∀ id it, (world.groups group).watchdog ≠ .removed id it) →
      Ledger (world.modifyGroup group (setWatchdog stage)) := fun stage later before =>
    ledger.watch (fun _ => rfl) (fun _ => rfl) before later
  cases watched with
  | wakes stage => exact stays _ (by simp) (by simp [stage])
  | ends stage =>
    refine ledger.watch (fun _ => rfl) (fun _ => rfl) (by simp [stage]) fun id it now => ?_
    unfold endPass at now
    split at now
    · cases now
    · cases now
  | completes stage =>
    exact ledger.watch (fun _ => rfl) (fun _ => rfl) (by simp [stage]) fun _ _ now => by cases now
  | passes stage => exact stays _ (by simp) (by simp [stage])
  | @retires it work recorder stage =>
    have kept : Ledger { world with recorder } :=
      ledger.congr rfl rfl rfl (le_refl _) rfl (fun _ => rfl) (fun _ => rfl)
        (fun _ _ _ => Iff.rfl) fun _ cleared => .inl cleared
    exact kept.watch (fun _ => rfl) (fun _ => rfl) (by simp [stage]) fun _ _ now => by cases now
  | throws stage => exact stays _ (by simp) (by simp [stage])
  | removes stage found => exact ledger.removes orderly stage found
  | lowers stage => exact ledger.lowers orderly stage
  | @asserts id it stage stuck =>
    obtain ⟨raised, unpaid⟩ := ledger.leaving id ⟨group, it, stage⟩
    exact absurd (ledger.positive raised unpaid) stuck

theorem Ledger.setCapture {stage : Capture}
    (clear : stage = .cleared → world.pendingEventQueries = 0) :
    Ledger (world.setCapture thread stage) := by
  refine ledger.congr rfl rfl rfl (le_refl _) rfl (fun _ => rfl) (fun _ => rfl)
    (fun _ _ _ => Iff.rfl) fun other cleared => ?_
  change update world.captures thread stage other = .cleared at cleared
  by_cases same : other = thread
  · rw [same, update_self] at cleared
    exact .inr (clear cleared)
  · rw [update_of_ne same] at cleared
    exact .inl cleared

end

theorem Initial.ledger (initial : Initial world) : Ledger world := by
  obtain ⟨maxEntries, capturable, same⟩ := initial.rest
  have unlisted : ∀ id, ¬Listed world id := by
    rintro id ⟨group, work, member, _⟩
    obtain ⟨_, _, _, _, made⟩ := initial.groups group
    rw [made] at member
    cases member
  have staying : ∀ group id it, (world.groups group).watchdog ≠ .removed id it := by
    intro group id it stage
    obtain ⟨_, _, _, _, made⟩ := initial.groups group
    rw [made] at stage
    cases stage
  have calls : ∀ thread, world.calls thread = none := fun thread => by rw [same]
  have increments : world.increments = [] := by rw [same]
  have decrements : world.decrements = [] := by rw [same]
  constructor
  · rw [increments]
    exact nodup_nil
  · rw [decrements]
    exact nodup_nil
  · rw [decrements]
    exact fun _ member => absurd member not_mem_nil
  · rw [same]
    rfl
  · rw [increments]
    exact fun _ member => absurd member not_mem_nil
  · exact fun id listed => absurd listed (unlisted id)
  · rintro id ⟨group, it, stage⟩
    exact absurd stage (staying group id it)
  · rintro id ⟨thread, call, found, _⟩
    rw [calls] at found
    cases found
  · intro thread call found
    rw [calls] at found
    cases found
  · exact fun group id it stage => absurd stage (staying group id it)
  · intro group work member
    obtain ⟨_, _, _, _, made⟩ := initial.groups group
    rw [made] at member
    cases member
  · rw [increments]
    exact fun _ member => absurd member not_mem_nil
  · intro thread cleared
    rw [same] at cleared
    cases cleared

theorem Ledger.step {action : Action} (ledger : Ledger world) (orderly : Orderly world)
    (allowed : KeepsCount world action) (stepped : Stepped world action after) : Ledger after := by
  cases stepped with
  | made idle made => exact ledger.begin idle made
  | @notMade thread group operation fate final idle same =>
    have calls : final.calls = world.calls := read_of_works calls (fun _ => rfl) same.works
    refine (ledger.sameWorks same).setCall (fun _ ended => by cases ended)
      (fun _ ended => by cases ended) fun call found => ?_
    rw [calls, idle] at found
    cases found
  | ran found left ran => exact ledger.ran orderly allowed found left ran
  | started same => exact ledger.sameWorks same
  | entered same => exact ledger.sameWorks same
  | exited same => exact ledger.sameWorks same
  | added => exact ledger.modifyGroup (fun _ => rfl) (fun _ => rfl) fun _ => rfl
  | finished =>
    exact ledger.congr rfl rfl rfl (le_refl _) rfl (fun _ => rfl) (fun _ => rfl)
      (fun _ _ _ => Iff.rfl) fun _ cleared => .inl cleared
  | watched watched => exact ledger.watched orderly watched
  | registered => exact ledger.modifyGroup (fun _ => rfl) (fun _ => rfl) fun _ => rfl
  | @hooked group outcome later hooked =>
    refine ledger.congr rfl rfl rfl (le_refl _) rfl
      (modifyGroup_keeps (hooked.keeps (fun _ _ => rfl) fun _ _ _ => rfl))
      (modifyGroup_keeps (hooked.keeps (fun _ _ => rfl) fun _ _ _ => rfl))
      (fun other id it => ?_) fun _ cleared => .inl cleared
    have watchdog : ((world.modifyGroup group fun _ => later).groups other).watchdog =
        (world.groups other).watchdog :=
      modifyGroup_keeps (hooked.keeps (fun _ _ => rfl) fun _ _ _ => rfl) other
    rw [watchdog]
  | terminated => exact ledger.modifyGroup (fun _ => rfl) (fun _ => rfl) fun _ => rfl
  | checked _ zero => exact ledger.setCapture fun _ => zero
  | @began thread begins =>
    refine ledger.setCapture fun cleared => ?_
    cases begins <;> cases cleared
  | ended => exact ledger.setCapture fun cleared => by cases cleared

/-- In a run whose steps keep the count, it is the number of works that may yet be queried. -/
theorem pending_balanced (world : World) (reached : process.Reachable KeepsCount world) :
    Balanced world := by
  have start : ∀ world, process.initial world → Orderly world ∧ Ledger world :=
    fun _ initial => ⟨initial.orderly, initial.ledger⟩
  have keeps : ∀ before action after, Orderly before ∧ Ledger before → KeepsCount before action →
      process.step before action after → Orderly after ∧ Ledger after := by
    intro before action after ⟨orderly, ledger⟩ allowed taken
    have stepped := stepped_of_step taken
    exact ⟨orderly.step stepped, ledger.step orderly allowed stepped⟩
  obtain ⟨orderly, ledger⟩ := reached.invariant start keeps
  exact ledger.balanced orderly

def keepsCount (world : World) : Action → Bool
  | .proceed thread _ => (world.calls thread).all fun call =>
    (call.rest.head? != some .workEnqueue || !call.enqueue ||
      !(world.groups call.group).terminateProcessGroup && !(world.groups call.group).blockingWait) &&
    (call.rest.head? != some .incPendingEventQueries || world.captures 0 != .cleared)
  | .checkPending thread => thread == 0
  | _ => true

/-- No other thread than thread 0 is about to capture. -/
def Alone (world : World) : Prop := ∀ thread, world.captures thread = .cleared → thread = 0

theorem keepsCount_of_pass (action : Action) (alone : Alone world)
    (passes : keepsCount world action = true) : KeepsCount world action := by
  cases action with
  | proceed thread fate =>
    intro call next rest found left
    simp only [keepsCount, found, left, all_some, head?_cons] at passes
    constructor
    · rintro rfl enqueues
      simpa [enqueues] using passes
    · rintro rfl other cleared
      obtain rfl := alone other cleared
      simp [cleared] at passes
  | _ => trivial

theorem Alone.setCapture (alone : Alone world) {thread : Nat} {stage : Capture}
    (first : stage = .cleared → thread = 0) : Alone (world.setCapture thread stage) := by
  intro other cleared
  change update world.captures thread stage other = .cleared at cleared
  by_cases same : other = thread
  · rw [same, update_self] at cleared
    rw [same, first cleared]
  · rw [update_of_ne same] at cleared
    exact alone other cleared

theorem Alone.step {action : Action} (alone : Alone world) (stepped : Stepped world action after)
    (passes : keepsCount world action = true) : Alone after := by
  have kept : ∀ {final : World}, final.works = world.works → Alone final := by
    intro final same thread cleared
    rw [read_of_works World.captures (fun _ => rfl) same] at cleared
    exact alone thread cleared
  cases stepped with
  | made _ made =>
    have same := kept made.works
    exact same
  | notMade _ same =>
    have same := kept same.works
    exact same
  | ran _ _ ran =>
    cases ran with
    | closed same =>
      have same := kept same.works
      exact same
    | notClosed same =>
      have same := kept same.works
      exact same
    | _ => exact alone
  | started same => exact kept same.works
  | entered same => exact kept same.works
  | exited same => exact kept same.works
  | watched watched => cases watched <;> exact alone
  | checked => exact alone.setCapture fun _ => eq_of_beq passes
  | @began thread begins =>
    refine alone.setCapture fun cleared => ?_
    cases begins <;> cases cleared
  | ended => exact alone.setCapture fun cleared => by cases cleared
  | _ => exact alone

theorem reachable_keepsCount {start : World} (initial : Initial start) (actions : List Action)
    (ends : (System.runs step keepsCount start actions).isSome = true) :
    process.Reachable KeepsCount (finalWorld keepsCount start actions) := by
  have reached : process.Reachable (fun world action => keepsCount world action = true)
      (finalWorld keepsCount start actions) :=
    reachable_finalWorld initial actions ends fun _ _ passes => passes
  have start : ∀ world, process.initial world → Alone world := by
    intro world initial thread cleared
    obtain ⟨_, _, same⟩ := initial.rest
    rw [same] at cleared
    cases cleared
  exact reached.strengthen start
    (fun _ _ _ alone passes taken => alone.step (stepped_of_step taken) passes)
    fun _ action alone passes => keepsCount_of_pass action alone passes

/-- A call during a capture, while another thread issues its own. -/
def threeCollectives : World :=
  finalWorld keepsCount (startWorld false false 0)
    [.begin 0 0 (.collective 0 .allreduce) {}, .proceed 0 {}, .proceed 0 {}, .proceed 0 {},
      .begin 1 0 (.collective 0 .allreduce) {}, .proceed 0 {}, .proceed 0 {}, .finish 0,
      .watchdog 0 allDone, .watchdog 0 allDone, .watchdog 0 allDone, .watchdog 0 allDone,
      .watchdog 0 allDone, .checkPending 0, .beginCapture 0 true,
      .begin 0 0 (.collective 0 .allreduce) { captureStatus := .active }, .proceed 0 {},
      .proceed 0 {}, .proceed 0 {}, .proceed 1 {}, .proceed 1 {}, .proceed 1 {}, .endCapture 0,
      .proceed 0 {}, .proceed 1 {}, .watchdog 0 allDone, .proceed 1 {}]

theorem pending_balanced_sample : Balanced threeCollectives ∧
    threeCollectives.increments = [1, 2, 0] ∧ threeCollectives.decrements = [2, 0] ∧
      (threeCollectives.groups 0).workMetaList.map (·.id) = [1] :=
  ⟨pending_balanced _ (reachable_keepsCount (startWorld_initial _ _ _) _ (by decide +kernel)),
    by decide +kernel, by decide +kernel, by decide +kernel⟩

def blockingCollective : World :=
  finalWorld (fun _ _ => true) (startWorld true false 0)
    [.begin 0 0 (.collective 0 .allreduce) {}, .proceed 0 {}, .proceed 0 {}, .proceed 0 {},
      .proceed 0 {}, .proceed 0 {}]

/-- Nothing takes its event query back. -/
theorem pending_not_balanced : ¬ ∀ world, process.Reachable (fun _ _ => True) world →
    Balanced world := by
  intro all
  have balanced := all blockingCollective
    (reachable_finalWorld (startWorld_initial _ _ _) _ (by decide +kernel) fun _ _ _ => trivial)
  rcases balanced.unpaid 0 (by decide +kernel) (by decide +kernel) with
    ⟨group, work, member, _⟩ | ⟨group, it, stage⟩ | ⟨thread, call, found, _⟩
  · have empty : (blockingCollective.groups group).workMetaList = [] := by
      cases group with
      | zero => decide +kernel
      | succ other => rfl
    rw [empty] at member
    cases member
  · have resting : (blockingCollective.groups group).watchdog = .resting := by
      cases group with
      | zero => decide +kernel
      | succ other => rfl
    rw [resting] at stage
    cases stage
  · have ended : blockingCollective.calls thread = none := by
      cases thread with
      | zero => decide +kernel
      | succ other => rfl
    rw [ended] at found
    cases found

end Keeping

end TorchSupa.Distributed
