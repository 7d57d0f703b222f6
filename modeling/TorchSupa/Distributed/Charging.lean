import TorchSupa.Distributed.Calls
import TorchSupa.Distributed.Timeouts

/-!
A timeout that was added is owned by the first work that takes it, until the watchdog finds that
work completed. The works that own one are with their calls or on the list of the watchdog.
-/

namespace TorchSupa.Distributed

open Nat

def Stale (world : World) (group : Nat) : Prop :=
  (∃ work ∈ (world.groups group).workMetaList, work.ownedEphermeralTimeout ≠ 0 ∧
    work.id ∈ world.finished ∧ work.id ∉ (world.groups group).reset) ∨
  ∃ thread call work, world.calls thread = some call ∧ call.group = group ∧
    call.work = some work ∧ work.ownedEphermeralTimeout ≠ 0 ∧ work.id ∈ world.finished ∧
    work.id ∉ (world.groups group).reset

/-- When timeouts are added and given back right: what is added is not negative, a call whose
work owns a timeout does not throw and enqueues its work, and no work takes its timeout while
the timeout of a finished work waits for the watchdog. -/
def KeepsTimeouts (world : World) : Action → Prop
  | .addEphemeralTimeout _ timeout => 0 ≤ timeout
  | .proceed thread fate => ∀ call next rest work, world.calls thread = some call →
      call.rest = next :: rest → call.work = some work →
      (work.ownedEphermeralTimeout ≠ 0 → call.loses world fate next = false) ∧
      (next = .assignTimeout → ¬Stale world call.group)
  | _ => True

/-- What was promised about the timeouts of a group: the counters are sums of what was added, in
flight is what is owned by the works that took it and were not reset, every added timeout that was
taken has one owner, and the timeout of a work is extended by what has no finished owner. -/
structure Promised (world : World) (group : Group) : Prop where
  nonneg : 0 ≤ group.ephemeralTimeoutInflight
  bounded : group.ephemeralTimeoutInflight ≤ group.ephemeralTimeoutActive
  inflight : group.ephemeralTimeoutInflight = owed group.reset group.charged
  waiting : group.ephemeralTimeoutActive - group.ephemeralTimeoutInflight =
    total (unowned group.grants)
  owner : ∀ grant ∈ group.grants, ∀ work, grant.owner = some work →
    ∃ entry ∈ group.charged, entry.1.id = work
  owned : ∀ entry ∈ group.charged,
    entry.1.ownedEphermeralTimeout = total (ownedBy entry.1.id group.grants)
  once : (group.charged.map (·.1.id)).Nodup
  extended : ∀ entry ∈ group.charged, entry.1.opTimeout = group.timeout + entry.2
  completed : ∀ id ∈ group.reset, id ∈ world.finished
  retired : ∀ work ∈ group.enqueued, work ∈ group.workMetaList ∨ work.id ∈ group.reset

structure Charging (world : World) : Prop where
  accounted : ∀ group, (world.groups group).Accounted
  known : ∀ group, ∀ entry ∈ (world.groups group).charged, entry.1.id < world.nextCall
  taken : ∀ thread call work, world.calls thread = some call → call.work = some work →
    .assignTimeout ∉ call.rest → ∃ live, (work, live) ∈ (world.groups call.group).charged
  untaken : ∀ thread call, world.calls thread = some call → .assignTimeout ∈ call.rest →
    ∀ group, ∀ entry ∈ (world.groups group).charged, entry.1.id ≠ call.id
  listed : ∀ group, ∀ work ∈ (world.groups group).workMetaList,
    ∃ live, (work, live) ∈ (world.groups group).charged
  waiting : ∀ group, ∀ entry ∈ (world.groups group).charged, entry.1.ownedEphermeralTimeout ≠ 0 →
    entry.1.id ∉ (world.groups group).reset → entry.1 ∈ (world.groups group).workMetaList ∨
      ∃ thread call, world.calls thread = some call ∧ call.group = group ∧
        call.work = some entry.1 ∧ call.Waits
  finished : ∀ group, ∀ id ∈ (world.groups group).reset, id ∈ world.finished
  placed : ∀ group, ∀ id ∈ (world.groups group).reset,
    ∃ work ∈ (world.groups group).enqueued, work.id = id
  stage : ∀ group it work, (world.groups group).watchdog = .reset it ∨
    (world.groups group).watchdog = .retired it →
    (world.groups group).workMetaList[it]? = some work → work.id ∈ (world.groups group).reset
  alone : ∀ group, ∀ work ∈ (world.groups group).workMetaList,
    work.id ∈ (world.groups group).reset → (world.groups group).watchdog = .left ∨
      ∃ it, ((world.groups group).watchdog = .reset it ∨
        (world.groups group).watchdog = .retired it) ∧
        (world.groups group).workMetaList[it]? = some work
  retired : ∀ group, ∀ work ∈ (world.groups group).enqueued,
    work ∈ (world.groups group).workMetaList ∨ work.id ∈ (world.groups group).reset

section Keeping

variable {world after : World} {thread group : Nat}

theorem Charging.promised (charging : Charging world) (group : Nat) :
    Promised world (world.groups group) where
  nonneg := (charging.accounted group).inflight_nonneg
  bounded := (charging.accounted group).inflight_le
  inflight := (charging.accounted group).inflight
  waiting := by
    have split := (charging.accounted group).unowned
    omega
  owner := (charging.accounted group).owner
  owned := (charging.accounted group).owned
  once := (charging.accounted group).once
  extended := (charging.accounted group).extended
  completed := charging.finished group
  retired := charging.retired group

theorem Charging.settled (charging : Charging world) (fresh : ¬Stale world group) :
    total (liveGrants world.finished (world.groups group).grants) =
      total (liveGrants (world.groups group).reset (world.groups group).grants) := by
  have accounted := charging.accounted group
  refine total_filter_congr fun grant member => ?_
  cases owner : grant.owner with
  | none => rfl
  | some id =>
    by_cases reset : id ∈ (world.groups group).reset
    · simp [reset, charging.finished group id reset]
    · by_cases finished : id ∈ world.finished
      · -- its owner would still be waiting
        have idle : grant.amount = 0 := by
          by_contra some_
          obtain ⟨entry, there, rfl⟩ := accounted.owner grant member id owner
          have positive := accounted.amounts grant member
          have part : grant.amount ≤ total (ownedBy entry.1.id (world.groups group).grants) :=
            amount_le_total accounted.amounts member (by simp [owner])
          have owns := accounted.owned entry there
          have holds : entry.1.ownedEphermeralTimeout ≠ 0 := by omega
          rcases charging.waiting group entry there holds reset with
            listed | ⟨thread, call, found, same, has, _⟩
          · exact fresh (.inl ⟨entry.1, listed, holds, finished, reset⟩)
          · exact fresh (.inr ⟨thread, call, entry.1, found, same, has, holds, finished, reset⟩)
        simp [idle]
      · simp [reset, finished]

open Distributed.Group

theorem Charging.congr (charging : Charging world) (calls : after.calls = world.calls)
    (nextCall : world.nextCall ≤ after.nextCall) (finished : world.finished ⊆ after.finished)
    (accounts : ∀ group, (after.groups group).accounts = (world.groups group).accounts)
    (enqueued : ∀ group, (after.groups group).enqueued = (world.groups group).enqueued)
    (list : ∀ group, (after.groups group).workMetaList = (world.groups group).workMetaList)
    (watchdog : ∀ group, (after.groups group).watchdog = (world.groups group).watchdog) :
    Charging after := by
  have charged : ∀ group, (after.groups group).charged = (world.groups group).charged := by
    intro group
    have same := congrArg charged (accounts group)
    exact same
  have reset : ∀ group, (after.groups group).reset = (world.groups group).reset := by
    intro group
    have same := congrArg reset (accounts group)
    exact same
  constructor
  · exact fun group => (charging.accounted group).congr (accounts group)
  · intro group
    rw [charged]
    exact fun entry member => lt_of_lt_of_le (charging.known group entry member) nextCall
  · rw [calls]
    intro thread call work
    rw [charged]
    exact charging.taken thread call work
  · rw [calls]
    intro thread call found assigns group
    rw [charged]
    exact charging.untaken thread call found assigns group
  · intro group
    rw [list, charged]
    exact charging.listed group
  · intro group
    rw [charged, reset, list, calls]
    exact charging.waiting group
  · intro group
    rw [reset]
    exact fun id member => finished (charging.finished group id member)
  · intro group
    rw [reset, enqueued]
    exact charging.placed group
  · intro group
    rw [watchdog, list, reset]
    exact charging.stage group
  · intro group
    rw [watchdog, list, reset]
    exact charging.alone group
  · intro group
    rw [enqueued, list, reset]
    exact charging.retired group

open World

theorem Charging.sameWorks (charging : Charging world) (same : SameWorks world after) :
    Charging after :=
  charging.congr (read_of_works World.calls (fun _ => rfl) same.works) (le_of_eq same.nextCall.symm)
    (read_of_works World.finished (fun _ => rfl) same.works ▸ List.Subset.refl _)
    (group_of_works accounts (fun _ => rfl) same.works)
    (group_of_works enqueued (fun _ => rfl) same.works)
    (group_of_works workMetaList (fun _ => rfl) same.works)
    (group_of_works watchdog (fun _ => rfl) same.works)

variable {change : Group → Group}

theorem Charging.modifyGroup (charging : Charging world)
    (accounts : (change (world.groups group)).accounts = (world.groups group).accounts)
    (enqueued : (change (world.groups group)).enqueued = (world.groups group).enqueued)
    (list : (change (world.groups group)).workMetaList = (world.groups group).workMetaList)
    (watchdog : (change (world.groups group)).watchdog = (world.groups group).watchdog) :
    Charging (world.modifyGroup group change) :=
  charging.congr rfl (le_refl _) (List.Subset.refl _) (modifyGroup_keeps accounts)
    (modifyGroup_keeps enqueued) (modifyGroup_keeps list)
    (modifyGroup_keeps watchdog)

theorem Charging.setCall {outcome : Option Call} (charging : Charging world)
    (taken : ∀ call work, outcome = some call → call.work = some work →
      .assignTimeout ∉ call.rest → ∃ live, (work, live) ∈ (world.groups call.group).charged)
    (untaken : ∀ call, outcome = some call → .assignTimeout ∈ call.rest →
      ∀ group, ∀ entry ∈ (world.groups group).charged, entry.1.id ≠ call.id)
    (waiting : ∀ call work, world.calls thread = some call → call.work = some work →
      work.ownedEphermeralTimeout ≠ 0 → call.Waits →
      work ∈ (world.groups call.group).workMetaList ∨ ∃ later, outcome = some later ∧
        later.group = call.group ∧ later.work = some work ∧ later.Waits) :
    Charging (world.setCall thread outcome) := by
  refine ⟨charging.accounted, charging.known, ?_, ?_, charging.listed, ?_, charging.finished,
    charging.placed, charging.stage, charging.alone, charging.retired⟩
  · intro other call work found
    by_cases same : other = thread
    · rw [same, setCall_same] at found
      exact taken call work found
    · rw [setCall_other _ _ same] at found
      exact charging.taken other call work found
  · intro other call found
    by_cases same : other = thread
    · rw [same, setCall_same] at found
      exact untaken call found
    · rw [setCall_other _ _ same] at found
      exact charging.untaken other call found
  · intro group entry member owns unreset
    rcases charging.waiting group entry member owns unreset with
      listed | ⟨other, call, found, rfl, has, waits⟩
    · exact .inl listed
    · by_cases same : other = thread
      · subst same
        refine (waiting call entry.1 found has owns waits).imp_right ?_
        rintro ⟨later, goes, agree, holds, still⟩
        exact ⟨other, later, (setCall_same _ _ _).trans goes, agree, holds, still⟩
      · exact .inr ⟨other, call, (setCall_other _ _ same).trans found, rfl, has, waits⟩

variable {work : Work}

open List Option

theorem Charging.charge {rest : List Section} (call : Call)
    (charging : Charging world) (orderly : Orderly world) (found : world.calls thread = some call)
    (left : call.rest = .assignTimeout :: rest) (has : call.work = some work)
    (fresh : ¬Stale world call.group) :
    Charging ((world.modifyGroup call.group
      (takeTimeout world.finished (withTimeout (world.groups call.group) work))).setCall thread
      (remaining (some { call with
        rest
        work := some (withTimeout (world.groups call.group) work) }))) := by
  have ok := orderly.ok thread call found
  have order := inOrder (left ▸ ok.shaped)
  have own : work.id = call.id := ok.own work has
  have emplaces : .emplace ∈ call.rest := by
    rw [left]
    exact .tail _ (order.last (order.timed rfl))
  have waits : ({ call with
      rest
      work := some (withTimeout (world.groups call.group) work) } : Call).Waits :=
    ⟨order.last (order.timed rfl), .inl (order.timed rfl)⟩
  have unreset : ∀ group, work.id ∉ (world.groups group).reset := by
    intro group reset
    obtain ⟨member, enqueued, agree⟩ := charging.placed group work.id reset
    exact ok.placed group member enqueued (agree.trans own) emplaces
  have untaken : ∀ group, ∀ entry ∈ (world.groups group).charged, entry.1.id ≠ work.id := by
    rw [own]
    exact charging.untaken thread call found (by rw [left]; exact (.head _))
  generalize named : (world.modifyGroup call.group
      (takeTimeout world.finished (withTimeout (world.groups call.group) work))).setCall thread
      (remaining (some { call with
        rest
        work := some (withTimeout (world.groups call.group) work) })) = final
  have here : final.calls thread = some { call with
      rest
      work := some (withTimeout (world.groups call.group) work) } := by
    rw [← named]
    exact (setCall_same _ _ _).trans waits.remains
  have there : ∀ other, other ≠ thread → final.calls other = world.calls other := by
    intro other different
    rw [← named]
    exact setCall_other _ _ different
  have changed : final.groups call.group = takeTimeout world.finished
      (withTimeout (world.groups call.group) work) (world.groups call.group) := by
    rw [← named]
    exact modifyGroup_same _
  have others : ∀ group, group ≠ call.group → final.groups group = world.groups group := by
    intro group different
    rw [← named]
    exact modifyGroup_other _ different
  have finished : final.finished = world.finished := by rw [← named]; rfl
  have nextCall : final.nextCall = world.nextCall := by rw [← named]; rfl
  have charged : ∀ group, ∀ entry ∈ (final.groups group).charged,
      entry ∈ (world.groups group).charged ∨
        group = call.group ∧ entry.1 = withTimeout (world.groups call.group) work := by
    intro group entry member
    by_cases same : group = call.group
    · rw [same, changed] at member
      rcases mem_cons.mp member with rfl | old
      · exact .inr ⟨same, rfl⟩
      · exact .inl (same ▸ old)
    · rw [others group same] at member
      exact .inl member
  have older : ∀ group, ∀ entry ∈ (world.groups group).charged,
      entry ∈ (final.groups group).charged := by
    intro group entry member
    by_cases same : group = call.group
    · rw [same, changed]
      exact .tail _ (same ▸ member)
    · rw [others group same]
      exact member
  have keeps : ∀ {field : Type} (read : Group → field), (∀ finished work self,
      read (takeTimeout finished work self) = read self) → ∀ group,
      read (final.groups group) = read (world.groups group) := by
    intro field read blind group
    by_cases same : group = call.group
    · rw [same, changed, blind]
    · rw [others group same]
  have reset := keeps reset fun _ _ _ => rfl
  have list := keeps workMetaList fun _ _ _ => rfl
  have enqueued := keeps enqueued fun _ _ _ => rfl
  have watchdog := keeps watchdog fun _ _ _ => rfl
  constructor
  · intro group
    by_cases same : group = call.group
    · rw [same, changed]
      exact (charging.accounted call.group).takeTimeout (unreset _) (untaken _)
        (charging.settled fresh)
    · rw [others group same]
      exact charging.accounted group
  · rw [nextCall]
    intro group entry member
    rcases charged group entry member with old | ⟨_, same⟩
    · exact charging.known group entry old
    · rw [same]
      exact own ▸ ok.known
  · intro other partner made at_ holds assigned
    by_cases same : other = thread
    · rw [same, here] at at_
      cases at_
      cases holds
      refine ⟨total (liveGrants world.finished (world.groups call.group).grants), ?_⟩
      rw [changed]
      exact .head _
    · rw [there other same] at at_
      obtain ⟨live, member⟩ := charging.taken other partner made at_ holds assigned
      exact ⟨live, older _ _ member⟩
  · intro other partner at_ assigns group entry member
    by_cases same : other = thread
    · rw [same, here] at at_
      cases at_
      exact absurd assigns order.once
    · rw [there other same] at at_
      rcases charged group entry member with old | ⟨_, agree⟩
      · exact charging.untaken other partner at_ assigns group entry old
      · rw [agree]
        exact fun collides => same (orderly.apart other thread partner call at_ found
          (collides.symm.trans own))
  · intro group member listed
    rw [list] at listed
    obtain ⟨live, old⟩ := charging.listed group member listed
    exact ⟨live, older _ _ old⟩
  · intro group entry member owns unreset_
    rw [reset] at unreset_
    rw [list]
    rcases charged group entry member with old | ⟨rfl, same⟩
    · rcases charging.waiting group entry old owns unreset_ with
        listed | ⟨other, partner, at_, agree, holds, still⟩
      · exact .inl listed
      · have different : other ≠ thread := by
          rintro rfl
          obtain rfl := mem_unique found at_
          obtain rfl := mem_unique has holds
          exact untaken group entry old rfl
        exact .inr ⟨other, partner, (there other different).trans at_, agree, holds, still⟩
    · exact .inr ⟨thread, _, here, rfl, by rw [same], waits⟩
  · intro group
    rw [reset, finished]
    exact charging.finished group
  · intro group
    rw [reset, enqueued]
    exact charging.placed group
  · intro group
    rw [watchdog, list, reset]
    exact charging.stage group
  · intro group
    rw [list, reset, watchdog]
    exact charging.alone group
  · intro group
    rw [enqueued, list, reset]
    exact charging.retired group

section

variable (charging : Charging world)
include charging

theorem Charging.regroup {later : Group} (is : change (world.groups group) = later)
    (charged : later.charged = (world.groups group).charged) (accounted : later.Accounted)
    (listed : ∀ work ∈ later.workMetaList, ∃ live, (work, live) ∈ (world.groups group).charged)
    (waiting : ∀ entry ∈ (world.groups group).charged, entry.1.id ∉ later.reset →
      entry.1.id ∉ (world.groups group).reset ∧
        (entry.1 ∈ (world.groups group).workMetaList → entry.1 ∈ later.workMetaList))
    (finished : ∀ id ∈ later.reset, id ∈ world.finished)
    (placed : ∀ id ∈ later.reset, ∃ work ∈ later.enqueued, work.id = id)
    (stage : ∀ it work, later.watchdog = .reset it ∨ later.watchdog = .retired it →
      later.workMetaList[it]? = some work → work.id ∈ later.reset)
    (alone : ∀ work ∈ later.workMetaList, work.id ∈ later.reset → later.watchdog = .left ∨
      ∃ it, (later.watchdog = .reset it ∨ later.watchdog = .retired it) ∧
        later.workMetaList[it]? = some work)
    (retired : ∀ work ∈ later.enqueued, work ∈ later.workMetaList ∨ work.id ∈ later.reset) :
    Charging (world.modifyGroup group change) := by
  have here : (world.modifyGroup group change).groups group = later := (modifyGroup_same _).trans is
  have others : ∀ other, other ≠ group →
      (world.modifyGroup group change).groups other = world.groups other :=
    fun _ different => modifyGroup_other _ different
  have kept : ∀ other, ((world.modifyGroup group change).groups other).charged =
      (world.groups other).charged := modifyGroup_keeps ((congrArg _ is).trans charged)
  -- what holds of the later group, and of every other one as before, holds of all
  have each : ∀ property : Nat → Group → Prop, property group later →
      (∀ other, property other (world.groups other)) →
      ∀ other, property other ((world.modifyGroup group change).groups other) := by
    intro property changed before other
    by_cases same : other = group
    · rw [same, here]
      exact changed
    · rw [others other same]
      exact before other
  refine ⟨each (fun _ self => self.Accounted) accounted charging.accounted, ?_, ?_, ?_, ?_, ?_,
    each (fun _ self => ∀ id ∈ self.reset, id ∈ world.finished) finished charging.finished,
    each (fun _ self => ∀ id ∈ self.reset, ∃ work ∈ self.enqueued, work.id = id) placed
      charging.placed,
    each (fun _ self => ∀ it work, self.watchdog = .reset it ∨ self.watchdog = .retired it →
      self.workMetaList[it]? = some work → work.id ∈ self.reset) stage charging.stage,
    each (fun _ self => ∀ work ∈ self.workMetaList, work.id ∈ self.reset → self.watchdog = .left ∨
      ∃ it, (self.watchdog = .reset it ∨ self.watchdog = .retired it) ∧
        self.workMetaList[it]? = some work) alone charging.alone,
    each (fun _ self => ∀ work ∈ self.enqueued, work ∈ self.workMetaList ∨ work.id ∈ self.reset)
      retired charging.retired⟩
  · intro other
    rw [kept]
    exact charging.known other
  · intro thread call work found has assigned
    rw [kept]
    exact charging.taken thread call work found has assigned
  · intro thread call found assigns other
    rw [kept]
    exact charging.untaken thread call found assigns other
  · intro other
    rw [kept]
    exact each (fun other self => ∀ work ∈ self.workMetaList,
      ∃ live, (work, live) ∈ (world.groups other).charged) listed charging.listed other
  · intro other entry member owns unreset
    rw [kept] at member
    by_cases same : other = group
    · subst same
      rw [here] at unreset ⊢
      obtain ⟨before, keeps⟩ := waiting entry member unreset
      exact (charging.waiting other entry member owns before).imp_left keeps
    · rw [others other same] at unreset ⊢
      exact charging.waiting other entry member owns unreset

theorem Charging.emplace (taken : ∃ live, (work, live) ∈ (world.groups group).charged)
    (unreset : work.id ∉ (world.groups group).reset)
    (unlocked : (world.groups group).watchdog.holdsLock = false) :
    Charging (world.modifyGroup group (emplaceBack work)) := by
  have resting : ∀ it, (world.groups group).watchdog ≠ .reset it ∧
      (world.groups group).watchdog ≠ .retired it := by
    refine fun it => ⟨fun now => ?_, fun now => ?_⟩
    · rw [now] at unlocked
      cases unlocked
    · rw [now] at unlocked
      cases unlocked
  refine charging.regroup rfl rfl ((charging.accounted group).congr rfl) (fun member there => ?_)
    (fun entry _ before => ⟨before, fun listed => mem_append_left _ listed⟩)
    (charging.finished group) (fun id reset => ?_)
    (fun it _ stage _ => absurd stage (not_or.mpr (resting it))) (fun member there reset => ?_)
    fun member there => ?_
  · rcases mem_append.mp there with old | new
    · exact charging.listed group member old
    · rw [mem_singleton.mp new]
      exact taken
  · obtain ⟨placed, enqueued, agree⟩ := charging.placed group id reset
    exact ⟨placed, mem_cons_of_mem _ enqueued, agree⟩
  · rcases mem_append.mp there with old | new
    · rcases charging.alone group member old reset with left | ⟨it, stage, _⟩
      · exact .inl left
      · exact absurd stage (not_or.mpr (resting it))
    · rw [mem_singleton.mp new] at reset
      exact absurd reset unreset
  · rcases mem_cons.mp there with rfl | old
    · exact .inl (mem_append_right _ (mem_singleton_self _))
    · exact (charging.retired group member old).imp_left (mem_append_left _)

theorem Charging.ran {fate : Fate} {call : Call} {next : Section} {rest : List Section}
    {outcome : Option Call} {final : World} (orderly : Orderly world)
    (allowed : KeepsTimeouts world (.proceed thread fate)) (found : world.calls thread = some call)
    (left : call.rest = next :: rest)
    (ran : Ran world fate { call with rest } next outcome final) :
    Charging (final.setCall thread (remaining outcome)) := by
  have ok := orderly.ok thread call found
  have order := inOrder (left ▸ ok.shaped)
  by_cases charges : next = .assignTimeout
  · subst charges
    cases ran with
    | charged has =>
      exact charging.charge call orderly found left has
        ((allowed call _ rest _ found left has).2 rfl)
    | nothingToCharge lacks =>
      have lacks : call.work = none := lacks
      refine charging.setCall (fun later work remains has => ?_) (fun later remains assigns => ?_)
        fun old work there has => ?_
      · obtain rfl := some.inj (remaining_some remains)
        rw [show call.work = some work from has] at lacks
        cases lacks
      · obtain rfl := some.inj (remaining_some remains)
        exact absurd assigns order.once
      · obtain rfl := mem_unique found there
        rw [has] at lacks
        cases lacks
  · have kept : Charging final := by
      cases ran with
      | launched => exact charging
      | notLaunched => exact charging
      | closed same => exact charging.sameWorks same
      | notClosed same => exact charging.sameWorks same
      | charged => exact absurd rfl charges
      | nothingToCharge => exact absurd rfl charges
      | readStatus => exact charging
      | raised =>
        exact charging.congr rfl (le_refl _) (List.Subset.refl _) (fun _ => rfl)
          (fun _ => rfl) (fun _ => rfl) fun _ => rfl
      | admitted => exact charging
      | lowered =>
        exact charging.congr rfl (le_refl _) (List.Subset.refl _) (fun _ => rfl)
          (fun _ => rfl) (fun _ => rfl) fun _ => rfl
      | notLowered => exact charging
      | @emplaced work has _ unlocked =>
        have own : work.id = call.id := ok.own work has
        refine charging.emplace (charging.taken thread call work found has ?_) (fun reset => ?_)
          unlocked
        · rw [left]
          refine not_mem_cons_of_ne_of_not_mem (by decide) fun assigns => ?_
          exact (order.decided rfl).2 (order.charges assigns)
        · obtain ⟨member, enqueued, agree⟩ := charging.placed call.group work.id reset
          refine ok.placed call.group member enqueued (agree.trans own) ?_
          rw [left]
          exact .head _
      | notEmplaced => exact charging
      | reset => exact charging.modifyGroup rfl rfl rfl rfl
    have calls : final.calls = world.calls := ran.calls
    refine kept.setCall (fun later work remains has assigned => ?_) (fun later remains assigns => ?_)
      fun old work there has owns waits => ?_
    · obtain ⟨_, same, tail, holds, _⟩ := ran.later (remaining_some remains)
      rw [same]
      refine kept.taken thread call work (calls ▸ found) (holds charges ▸ has) ?_
      rw [left]
      rw [tail] at assigned
      exact not_mem_cons_of_ne_of_not_mem (Ne.symm charges) assigned
    · obtain ⟨same, _, tail, _⟩ := ran.later (remaining_some remains)
      rw [same]
      refine kept.untaken thread call (calls ▸ found) ?_
      rw [left]
      rw [tail] at assigns
      exact .tail _ assigns
    · rw [calls] at there
      obtain rfl := mem_unique found there
      have keeps := (allowed call next rest work found left has).1 owns
      rcases ran.waits ok left keeps has waits with ⟨later, _, goes, still, _⟩ | ⟨_, rfl⟩
      · obtain ⟨_, same, _, holds, _⟩ := ran.later goes
        refine .inr ⟨later, ?_, same, (holds charges).trans has, still⟩
        rw [goes]
        exact still.remains
      · exact .inl (mem_emplaced.mpr (.inr ⟨rfl, rfl⟩))

theorem Charging.begin {call : Call} (idle : world.calls thread = none)
    (made : Made world group call after) :
    Charging (after.setCall thread (remaining (some call))) := by
  have calls : after.calls = world.calls := read_of_works World.calls (fun _ => rfl) made.works
  have kept : Charging after := charging.congr calls (by rw [made.next]; exact le_succ _)
    (read_of_works World.finished (fun _ => rfl) made.works ▸ List.Subset.refl _)
    (group_of_works accounts (fun _ => rfl) made.works)
    (group_of_works enqueued (fun _ => rfl) made.works)
    (group_of_works workMetaList (fun _ => rfl) made.works)
    (group_of_works watchdog (fun _ => rfl) made.works)
  refine kept.setCall (fun later work remains has assigned => ?_)
    (fun later remains _ other entry member => ?_) fun old work there => ?_
  · obtain rfl := some.inj (remaining_some remains)
    rcases made.rest with ⟨_, lacks⟩ | sections | sections | sections
    · rw [lacks] at has
      cases has
    · exact absurd assigned (by rw [sections]; decide)
    · exact absurd assigned (by rw [sections]; decide)
    · exact absurd assigned (by rw [sections]; decide)
  · obtain rfl := some.inj (remaining_some remains)
    rw [group_of_works charged (fun _ => rfl) made.works] at member
    have older := charging.known other entry member
    rw [made.id]
    exact Nat.ne_of_lt older
  · rw [calls, idle] at there
    cases there

theorem Charging.resets {it : Nat}
    (orderly : Orderly world) (stage : (world.groups group).watchdog = .scanning it)
    (found : (world.groups group).workMetaList[it]? = some work) (done : work.id ∈ world.finished) :
    Charging (world.modifyGroup group (resetTimeout work it)) := by
  have member : work ∈ (world.groups group).workMetaList := mem_of_getElem? found
  have active : ∀ other ∈ (world.groups group).workMetaList,
      other.id ∉ (world.groups group).reset := by
    intro other there reset
    rcases charging.alone group other there reset with left | ⟨_, now | now, _⟩
    · rw [stage] at left
      cases left
    · rw [stage] at now
      cases now
    · rw [stage] at now
      cases now
  obtain ⟨live, entry⟩ := charging.listed group work member
  refine charging.regroup rfl rfl ((charging.accounted group).resetTimeout entry (active work member))
    (charging.listed group)
    (fun entry _ before => ⟨fun old => before (.tail _ old), fun listed => listed⟩)
    (fun id here => ?_) (fun id here => ?_) (fun place partner now there => ?_)
    (fun partner there here => ?_)
    fun partner there => (charging.retired group partner there).imp_right (mem_cons_of_mem _)
  · rcases mem_cons.mp here with rfl | old
    · exact done
    · exact charging.finished group id old
  · rcases mem_cons.mp here with rfl | old
    · exact ⟨work, mem_reverse.mp ((orderly.listed group).subset member), rfl⟩
    · exact charging.placed group id old
  · rcases now with now | now
    · obtain rfl := Watchdog.reset.inj now
      obtain rfl := mem_unique found there
      exact .head _
    · cases now
  · rcases mem_cons.mp here with agree | old
    · obtain rfl := inj_on_of_nodup_map (orderly.distinct group) there member agree
      exact .inr ⟨it, .inl rfl, found⟩
    · exact absurd old (active partner there)

theorem Charging.removes {it : Nat}
    (orderly : Orderly world) (stage : (world.groups group).watchdog = .retired it)
    (found : (world.groups group).workMetaList[it]? = some work) :
    Charging (world.modifyGroup group (cleanUp work it)) := by
  have given : work.id ∈ (world.groups group).reset :=
    charging.stage group it work (.inr stage) found
  refine charging.regroup rfl rfl ((charging.accounted group).congr rfl)
    (fun member there => charging.listed group member (mem_of_mem_eraseIdx there))
    (fun entry _ before => ⟨before, fun listed => ?_⟩) (charging.finished group)
    (charging.placed group) (fun place member now _ => ?_) (fun member there here => ?_)
    fun member there => ?_
  · rcases mem_eraseIdx_or found listed with same | stays
    · rw [same] at before
      exact absurd given before
    · exact stays
  · rcases now with now | now
    · cases now
    · cases now
  · rcases charging.alone group member (mem_of_mem_eraseIdx there) here with
      left | ⟨place, now | now, at_⟩
    · rw [stage] at left
      cases left
    · rw [stage] at now
      cases now
    · rw [stage] at now
      obtain rfl := Watchdog.retired.inj now
      obtain rfl := mem_unique found at_
      exact absurd rfl (orderly.erased found there)
  · rcases charging.retired group member there with listed | done
    · rcases mem_eraseIdx_or found listed with rfl | stays
      · exact .inr given
      · exact .inl stays
    · exact .inr done

theorem Charging.moves
    (accounts : (change (world.groups group)).accounts = (world.groups group).accounts)
    (enqueued : (change (world.groups group)).enqueued = (world.groups group).enqueued)
    (list : (change (world.groups group)).workMetaList = (world.groups group).workMetaList)
    (from_ : ∀ it, (change (world.groups group)).watchdog = .reset it ∨
      (change (world.groups group)).watchdog = .retired it →
      (world.groups group).watchdog = .reset it)
    (onward : ∀ it, (world.groups group).watchdog = .reset it →
      (change (world.groups group)).watchdog = .left ∨
        (change (world.groups group)).watchdog = .retired it)
    (stays : (world.groups group).watchdog ≠ .left)
    (passes : ∀ it, (world.groups group).watchdog ≠ .retired it) :
    Charging (world.modifyGroup group change) := by
  have charged := congrArg Group.charged accounts
  have reset := congrArg Group.reset accounts
  dsimp only [Group.accounts] at charged reset
  refine charging.regroup rfl charged ((charging.accounted group).congr accounts) ?_ ?_ ?_ ?_ ?_ ?_ ?_
  · rw [list]
    exact charging.listed group
  · rw [list, reset]
    exact fun entry _ before => ⟨before, fun listed => listed⟩
  · rw [reset]
    exact charging.finished group
  · rw [reset, enqueued]
    exact charging.placed group
  · rw [list, reset]
    exact fun it member now there => charging.stage group it member (.inl (from_ it now)) there
  · rw [list, reset]
    intro member there here
    rcases charging.alone group member there here with left | ⟨it, now | now, at_⟩
    · exact absurd left stays
    · exact (onward it now).imp_right fun retired => ⟨it, .inr retired, at_⟩
    · exact absurd now (passes it)
  · rw [enqueued, list, reset]
    exact charging.retired group

theorem Charging.watched {queries : Queries} (orderly : Orderly world)
    (watched : Watched world group queries after) : Charging after := by
  cases watched with
  | wakes stage =>
    exact charging.moves rfl rfl rfl (by simp [setWatchdog]) (by simp [stage]) (by simp [stage])
      (by simp [stage])
  | ends stage =>
    refine charging.moves rfl rfl rfl (fun it now => ?_) (by simp [stage]) (by simp [stage])
      (by simp [stage])
    unfold endPass at now
    split at now
    · simp at now
    · simp at now
  | completes stage found done => exact charging.resets orderly stage found done
  | passes stage =>
    exact charging.moves rfl rfl rfl (by simp [setWatchdog]) (by simp [stage]) (by simp [stage])
      (by simp [stage])
  | @retires it work recorder stage =>
    have kept : Charging { world with recorder } :=
      charging.congr rfl (le_refl _) (List.Subset.refl _) (fun _ => rfl) (fun _ => rfl)
        (fun _ => rfl) fun _ => rfl
    exact kept.moves rfl rfl rfl (by simp [setWatchdog, stage]) (by simp [setWatchdog, stage])
      (by simp [stage]) (by simp [stage])
  | throws stage =>
    exact charging.moves rfl rfl rfl (by simp [setWatchdog]) (by simp [setWatchdog])
      (by simp [stage]) (by simp [stage])
  | removes stage found => exact charging.removes orderly stage found
  | @lowers work it stage =>
    have kept : Charging (world.lowered work) :=
      charging.congr rfl (le_refl _) (List.Subset.refl _) (fun _ => rfl) (fun _ => rfl)
        (fun _ => rfl) fun _ => rfl
    have before : ((world.lowered work).groups group).watchdog = .removed work it := stage
    exact kept.moves rfl rfl rfl (by simp [setWatchdog]) (by simp [before]) (by simp [before])
      (by simp [before])
  | asserts stage =>
    exact charging.moves rfl rfl rfl (by simp [setWatchdog]) (by simp [stage]) (by simp [stage])
      (by simp [stage])

theorem Charging.addTimeout {timeout : Int} (nonneg : 0 ≤ timeout) :
    Charging (world.modifyGroup group (addTimeout timeout)) :=
  charging.regroup rfl rfl ((charging.accounted group).addTimeout nonneg) (charging.listed group)
    (fun _ _ before => ⟨before, fun listed => listed⟩) (charging.finished group)
    (charging.placed group) (charging.stage group) (charging.alone group) (charging.retired group)

end

theorem Initial.charging (initial : Initial world) : Charging world := by
  obtain ⟨maxEntries, capturable, same⟩ := initial.rest
  have calls : ∀ thread, world.calls thread = none := fun thread => by rw [same]
  have idle : ∀ thread call, world.calls thread ≠ some call := fun thread call => by simp [calls]
  refine ⟨fun group => ?_, fun group => ?_, fun thread call _ found => absurd found (idle _ _),
    fun thread call found => absurd found (idle _ _), fun group => ?_, fun group => ?_,
    fun group => ?_, fun group => ?_, fun group => ?_, fun group => ?_, fun group => ?_⟩
  · obtain ⟨_, _, _, _, made⟩ := initial.groups group
    rw [made]
    exact ⟨by simp, rfl, rfl, rfl, by simp, by simp, nodup_nil, by simp⟩
  all_goals
    obtain ⟨_, _, _, _, made⟩ := initial.groups group
    rw [made]
    simp

theorem Charging.step {action : Action} (charging : Charging world) (orderly : Orderly world)
    (allowed : KeepsTimeouts world action) (stepped : Stepped world action after) :
    Charging after := by
  have unseen : ∀ {final : World}, final.calls = world.calls → final.groups = world.groups →
      world.nextCall ≤ final.nextCall → world.finished ⊆ final.finished → Charging final :=
    fun calls groups nextCall finished =>
      charging.congr calls nextCall finished (fun group => by rw [groups])
        (fun group => by rw [groups]) (fun group => by rw [groups]) fun group => by rw [groups]
  cases stepped with
  | made idle made => exact charging.begin idle made
  | @notMade thread group operation fate final idle same =>
    have calls : final.calls = world.calls := read_of_works calls (fun _ => rfl) same.works
    refine (charging.sameWorks same).setCall (fun _ _ ended => by cases ended)
      (fun _ ended => by cases ended) fun call work found => ?_
    rw [calls, idle] at found
    cases found
  | ran found left ran => exact charging.ran orderly allowed found left ran
  | started same => exact charging.sameWorks same
  | entered same => exact charging.sameWorks same
  | exited same => exact charging.sameWorks same
  | added => exact charging.addTimeout allowed
  | finished => exact unseen rfl rfl (le_refl _) (subset_cons_self _ _)
  | watched watched => exact charging.watched orderly watched
  | registered => exact charging.modifyGroup rfl rfl rfl rfl
  | hooked hooked =>
    exact charging.modifyGroup (hooked.keeps (fun _ _ => rfl) fun _ _ _ => rfl)
      (hooked.keeps (fun _ _ => rfl) fun _ _ _ => rfl)
      (hooked.keeps (fun _ _ => rfl) fun _ _ _ => rfl)
      (hooked.keeps (fun _ _ => rfl) fun _ _ _ => rfl)
  | terminated => exact charging.modifyGroup rfl rfl rfl rfl
  | checked => exact unseen rfl rfl (le_refl _) (List.Subset.refl _)
  | began => exact unseen rfl rfl (le_refl _) (List.Subset.refl _)
  | ended => exact unseen rfl rfl (le_refl _) (List.Subset.refl _)

theorem timeouts_promised (world : World) (reached : process.Reachable KeepsTimeouts world)
    (group : Nat) : Promised world (world.groups group) := by
  have start : ∀ world, process.initial world → Orderly world ∧ Charging world :=
    fun _ initial => ⟨initial.orderly, initial.charging⟩
  have keeps : ∀ before action after, Orderly before ∧ Charging before →
      KeepsTimeouts before action → process.step before action after →
      Orderly after ∧ Charging after := by
    intro before action after ⟨orderly, charging⟩ allowed taken
    have stepped := stepped_of_step taken
    exact ⟨orderly.step stepped, charging.step orderly allowed stepped⟩
  exact (reached.invariant start keeps).2.promised group

def keepsTimeouts (world : World) : Action → Bool
  | .addEphemeralTimeout _ timeout => 0 ≤ timeout
  | .proceed thread fate => (world.calls thread).all fun call => call.work.all fun work =>
    call.rest.head?.all fun next =>
      (work.ownedEphermeralTimeout == 0 || !call.loses world fate next) &&
        (next != .assignTimeout ||
          world.finished.all fun id => (world.groups call.group).reset.contains id)
  | _ => true

theorem keepsTimeouts_of_pass (world : World) (action : Action)
    (passes : keepsTimeouts world action = true) : KeepsTimeouts world action := by
  cases action with
  | proceed thread fate =>
    intro call next rest work found left has
    simp only [keepsTimeouts, found, left, has, all_some, head?_cons,
      Bool.and_eq_true, Bool.or_eq_true] at passes
    obtain ⟨keeps, settled⟩ := passes
    refine ⟨fun owns => ?_, ?_⟩
    · simpa using keeps.resolve_left (by simpa using owns)
    · rintro rfl stale
      have reset : ∀ id ∈ world.finished, id ∈ (world.groups call.group).reset := by
        simpa using settled
      rcases stale with ⟨work, _, _, done, unreset⟩ | ⟨_, _, work, _, _, _, _, done, unreset⟩
      · exact unreset (reset work.id done)
      · exact unreset (reset work.id done)
  | addEphemeralTimeout group timeout =>
    have nonneg : 0 ≤ timeout := of_decide_eq_true passes
    exact nonneg
  | _ => trivial

def extendedTwice : World :=
  finalWorld keepsTimeouts (startWorld false false 0)
    [.addEphemeralTimeout 0 5000, .begin 0 0 (.collective 0 .allreduce) {}, .proceed 0 {},
      .proceed 0 {}, .proceed 0 {}, .proceed 0 {}, .proceed 0 {},
      .begin 0 0 (.collective 0 .allreduce) {}, .proceed 0 {}, .proceed 0 {}, .finish 0,
      .watchdog 0 allDone, .watchdog 0 allDone, .begin 1 0 (.collective 0 .allreduce) {},
      .proceed 1 {}, .proceed 1 {}]

theorem timeouts_promised_sample : Promised extendedTwice (extendedTwice.groups 0) ∧
    (extendedTwice.groups 0).charged.map (·.1.opTimeout) = [600000, 605000, 605000] :=
  ⟨timeouts_promised _ (reachable_finalWorld (startWorld_initial _ _ _) _ (by decide +kernel)
    keepsTimeouts_of_pass) 0, by decide +kernel⟩

def neverReset : World :=
  finalWorld (fun _ _ => true) (startWorld true false 0)
    [.addEphemeralTimeout 0 5000, .begin 0 0 (.collective 0 .allreduce) {}, .proceed 0 {},
      .proceed 0 {}, .proceed 0 {}, .proceed 0 {}, .proceed 0 {}, .finish 0,
      .begin 0 0 (.collective 0 .allreduce) {}, .proceed 0 {}, .proceed 0 {}]

theorem timeouts_not_promised : ¬ ∀ world, process.Reachable (fun _ _ => True) world →
    ∀ group, Promised world (world.groups group) := by
  intro all
  have promised := all neverReset (reachable_finalWorld (startWorld_initial _ _ _) _
    (by decide +kernel) fun _ _ _ => trivial) 0
  exact absurd promised.extended (by decide +kernel)

end Keeping

end TorchSupa.Distributed
