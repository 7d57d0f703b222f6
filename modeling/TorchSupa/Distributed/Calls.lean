import TorchSupa.Distributed.Issuing
import Mathlib.Data.List.Infix
import Mathlib.Data.List.Nodup

/-!
What a step can do, said once, and what holds of the calls in every state of a process: their
sections come in the order of the source, every call has a number of its own, and a work is put
on the list of the watchdog at most once, by its call.
-/

namespace TorchSupa.Distributed

open Outcome Function Nat

def shapes : List (List Section) :=
  collectiveSections.tails ++ pointToPointSections.tails ++ endCoalescingSections.tails

structure InOrder (next : Section) (rest : List Section) : Prop where
  tail : rest ∈ shapes
  once : next ∉ rest
  counted : next = .workEnqueue → .incPendingEventQueries ∉ rest ∧ .emplace ∈ rest
  decided : next = .emplace → .incPendingEventQueries ∉ rest ∧ .workEnqueue ∉ rest
  announces : next = .incPendingEventQueries → .workEnqueue ∈ rest
  later : .incPendingEventQueries ∈ rest → .workEnqueue ∈ rest
  last : .workEnqueue ∈ rest → .emplace ∈ rest
  timed : next = .assignTimeout → .workEnqueue ∈ rest
  charges : .assignTimeout ∈ rest → .workEnqueue ∈ rest
  reads : next = .readCaptureStatus → .workEnqueue ∈ rest
  launches : next = .launch ∨ next = .closeGroup → .incPendingEventQueries ∈ rest

instance (next : Section) (rest : List Section) : Decidable (InOrder next rest) :=
  decidable_of_iff (rest ∈ shapes ∧ next ∉ rest ∧
    (next = .workEnqueue → .incPendingEventQueries ∉ rest ∧ .emplace ∈ rest) ∧
    (next = .emplace → .incPendingEventQueries ∉ rest ∧ .workEnqueue ∉ rest) ∧
    (next = .incPendingEventQueries → .workEnqueue ∈ rest) ∧
    (.incPendingEventQueries ∈ rest → .workEnqueue ∈ rest) ∧
    (.workEnqueue ∈ rest → .emplace ∈ rest) ∧ (next = .assignTimeout → .workEnqueue ∈ rest) ∧
    (.assignTimeout ∈ rest → .workEnqueue ∈ rest) ∧ (next = .readCaptureStatus → .workEnqueue ∈ rest) ∧
    (next = .launch ∨ next = .closeGroup → .incPendingEventQueries ∈ rest))
    ⟨fun ⟨a, b, c, d, e, f, g, h, i, j, k⟩ => ⟨a, b, c, d, e, f, g, h, i, j, k⟩,
      fun ⟨a, b, c, d, e, f, g, h, i, j, k⟩ => ⟨a, b, c, d, e, f, g, h, i, j, k⟩⟩

def HeadInOrder : List Section → Prop
  | [] => True
  | next :: rest => InOrder next rest

open List World Option

theorem inOrder {next : Section} {rest : List Section} (shaped : next :: rest ∈ shapes) :
    InOrder next rest := by
  have every : ∀ sections ∈ shapes, HeadInOrder sections := by
    simp only [HeadInOrder, shapes, collectiveSections, pointToPointSections, endCoalescingSections, List.tails,
      cons_append, nil_append, forall_mem_cons, not_mem_nil, false_implies,
      implies_true, and_true, true_and]
    decide
  exact every _ shaped

theorem emplace_of_workEnqueue {sections : List Section} (shaped : sections ∈ shapes)
    (decides : .workEnqueue ∈ sections) : .emplace ∈ sections := by
  cases sections with
  | nil => cases decides
  | cons next rest =>
    have order := inOrder shaped
    rcases mem_cons.mp decides with first | later
    · exact .tail _ (order.counted first.symm).2
    · exact .tail _ (order.last later)

inductive Ran (world : World) (fate : Fate) (call : Call) : Section → Option Call → World → Prop
  | launched : fate.launches = true → Ran world fate call .launch (some call) world
  | notLaunched : fate.launches = false → Ran world fate call .launch none world
  | closed {after : World} : SameWorks world after → after.calls = world.calls →
      fate.launches = true → fate.groups = true → fate.recordsEnd = true →
      after.groups = world.groups → Ran world fate call .closeGroup (some call) after
  | notClosed {after : World} : SameWorks world after → after.calls = world.calls →
      ¬(fate.launches = true ∧ fate.groups = true ∧ fate.recordsEnd = true) →
      after.groups = world.groups → Ran world fate call .closeGroup none after
  | charged {work : Work} : call.work = some work → Ran world fate call .assignTimeout
      (some { call with work := some (withTimeout (world.groups call.group) work) })
      (world.modifyGroup call.group
        (takeTimeout world.finished (withTimeout (world.groups call.group) work)))
  | nothingToCharge : call.work = none → Ran world fate call .assignTimeout (some call) world
  | readStatus {enqueue : Bool} : (enqueue = true → call.work.isSome = true) →
      Ran world fate call .readCaptureStatus (some { call with enqueue }) world
  | raised : Ran world fate call .incPendingEventQueries (some call) (world.raised call.id)
  | admitted {admitted : Bool} : call.enqueue = true →
      admitted = (!(world.groups call.group).terminateProcessGroup &&
        !(world.groups call.group).blockingWait) →
      Ran world fate call .workEnqueue (some { call with admitted }) world
  | lowered : call.enqueue = false → 0 < world.pendingEventQueries →
      Ran world fate call .workEnqueue (some call) (world.lowered call.id)
  | notLowered : call.enqueue = false → ¬0 < world.pendingEventQueries →
      Ran world fate call .workEnqueue none world
  | emplaced {work : Work} : call.work = some work → call.admitted = true →
      (world.groups call.group).watchdog.holdsLock = false →
      Ran world fate call .emplace (some call) (world.modifyGroup call.group (emplaceBack work))
  | notEmplaced : call.admitted = false ∨ call.work = none →
      Ran world fate call .emplace (some call) world
  | reset : Ran world fate call .resetCoalescing (some call)
      (world.modifyGroup call.group closeRegion)

def remaining (outcome : Option Call) : Option Call :=
  outcome.filter fun call => !call.rest.isEmpty

theorem outcome_ok (thread : Nat) (call : Call) (after : World) :
    outcome thread (.ok call after) = after.setCall thread (remaining (some call)) := by
  unfold outcome remaining
  cases call.rest.isEmpty <;> simp [Option.filter]

theorem outcome_error (thread : Nat) (exception : Exn) (after : World) :
    outcome thread (.error exception after : EStateM.Result Exn World Call) =
      after.setCall thread (remaining none) := rfl

theorem sameWorks_leaveGroup (world : World) (thread : Nat) :
    SameWorks world (world.leaveGroup thread) := ⟨rfl, rfl, rfl⟩

theorem ran_perform {world : World} {thread : Nat} {fate : Fate} {call : Call} {next : Section}
    (runs : call.mayRun world next = true) : ∃ outcome after,
      Ran world fate call next outcome after ∧
        World.outcome thread (perform thread fate call next world) =
          after.setCall thread (remaining outcome) := by
  cases next with
  | launch =>
    rw [perform_launch]
    cases launches : fate.launches with
    | true => exact ⟨_, _, .launched launches, outcome_ok thread call world⟩
    | false => exact ⟨_, _, .notLaunched launches, rfl⟩
  | closeGroup =>
    rw [perform_closeGroup]
    by_cases closes : fate.launches = true ∧ fate.groups = true
    · rw [if_pos closes]
      cases records : fate.recordsEnd with
      | true =>
        exact ⟨_, _, .closed (sameWorks_leaveGroup world thread) rfl closes.1 closes.2 records
          rfl, outcome_ok _ _ _⟩
      | false =>
        exact ⟨_, _, .notClosed (sameWorks_leaveGroup world thread) rfl
          (fun all => by simp [records] at all) rfl, rfl⟩
    · rw [if_neg closes]
      refine ⟨none, world, .notClosed (.refl world) rfl (fun all => closes ⟨all.1, all.2.1⟩) rfl, ?_⟩
      cases fate.launches <;> rfl
  | assignTimeout =>
    cases has : call.work with
    | none =>
      rw [perform_assignTimeout_none has]
      exact ⟨_, _, .nothingToCharge has, outcome_ok _ _ _⟩
    | some work =>
      rw [perform_assignTimeout has]
      exact ⟨_, _, .charged has, outcome_ok _ _ _⟩
  | readCaptureStatus =>
    exact ⟨_, _, .readStatus fun reads => (Bool.and_eq_true_iff.mp reads).1, outcome_ok _ _ _⟩
  | incPendingEventQueries => exact ⟨_, _, .raised, outcome_ok _ _ _⟩
  | workEnqueue =>
    cases enqueues : call.enqueue with
    | true =>
      rw [perform_workEnqueue enqueues]
      exact ⟨_, _, .admitted enqueues rfl, outcome_ok _ _ _⟩
    | false =>
      rw [perform_workEnqueue_not enqueues]
      by_cases positive : 0 < world.pendingEventQueries
      · rw [if_pos positive]
        exact ⟨_, _, .lowered enqueues positive, outcome_ok _ _ _⟩
      · rw [if_neg positive]
        exact ⟨_, _, .notLowered enqueues positive, rfl⟩
  | emplace =>
    cases admitted : call.admitted with
    | false =>
      rw [perform_emplace_not admitted]
      exact ⟨_, _, .notEmplaced (.inl admitted), outcome_ok _ _ _⟩
    | true =>
      cases has : call.work with
      | none =>
        rw [perform_emplace_none has]
        exact ⟨_, _, .notEmplaced (.inr has), outcome_ok _ _ _⟩
      | some work =>
        rw [perform_emplace has admitted]
        refine ⟨_, _, .emplaced has admitted ?_, outcome_ok _ _ _⟩
        simpa [Call.mayRun, admitted] using runs
  | resetCoalescing => exact ⟨_, _, .reset, outcome_ok _ _ _⟩

theorem ran_of_proceed {world after : World} {thread : Nat} {fate : Fate}
    (taken : proceed thread fate world = some after) : ∃ call next rest outcome final,
      world.calls thread = some call ∧ call.rest = next :: rest ∧
        Ran world fate { call with rest } next outcome final ∧
        after = final.setCall thread (remaining outcome) := by
  unfold proceed at taken
  cases found : world.calls thread with
  | none =>
    rw [found] at taken
    cases taken
  | some call =>
    rw [found] at taken
    dsimp only at taken
    cases left : call.rest with
    | nil =>
      rw [left] at taken
      cases taken
    | cons next rest =>
      rw [left] at taken
      dsimp only at taken
      split at taken
      · next runs =>
          have mayRun : ({ call with rest } : Call).mayRun world next = true := by
            rw [← runs]
            cases next <;> rfl
          obtain ⟨outcome, final, ran, same⟩ := ran_perform mayRun
          exact ⟨call, next, rest, outcome, final, rfl, left, ran, (some.inj taken).symm.trans same⟩
      · cases taken

structure Call.Ok (world : World) (call : Call) : Prop where
  shaped : call.rest ∈ shapes
  known : call.id < world.nextCall
  own : ∀ work, call.work = some work → work.id = call.id
  workless : call.work = none → call.enqueue = false
  decided : call.admitted = true → call.enqueue = true ∧
    .incPendingEventQueries ∉ call.rest ∧ .workEnqueue ∉ call.rest
  placed : ∀ group, ∀ work ∈ (world.groups group).enqueued, work.id = call.id → .emplace ∉ call.rest

structure Orderly (world : World) : Prop where
  ok : ∀ thread call, world.calls thread = some call → call.Ok world
  apart : ∀ thread other call member, world.calls thread = some call →
    world.calls other = some member → call.id = member.id → thread = other
  known : ∀ group, ∀ work ∈ (world.groups group).enqueued, work.id < world.nextCall
  once : ∀ group, ((world.groups group).enqueued.map (·.id)).Nodup
  own : ∀ group other, ∀ work ∈ (world.groups group).enqueued,
    ∀ member ∈ (world.groups other).enqueued, work.id = member.id → group = other
  listed : ∀ group, ((world.groups group).workMetaList).Sublist (world.groups group).enqueued.reverse
  position : ∀ group it, (world.groups group).watchdog = .reset it ∨
    (world.groups group).watchdog = .retired it → it < (world.groups group).workMetaList.length

def Listed (world : World) (id : Nat) : Prop :=
  ∃ group, ∃ work ∈ (world.groups group).workMetaList, work.id = id

section Orderly

variable {world after : World} {thread group : Nat}

variable {call : Call}

theorem Call.Ok.congr (ok : call.Ok world) (nextCall : world.nextCall ≤ after.nextCall)
    (enqueued : ∀ group, (after.groups group).enqueued = (world.groups group).enqueued) :
    call.Ok after where
  shaped := ok.shaped
  known := lt_of_lt_of_le ok.known nextCall
  own := ok.own
  workless := ok.workless
  decided := ok.decided
  placed := fun group => by
    rw [enqueued]
    exact ok.placed group

theorem Orderly.congr (orderly : Orderly world) (calls : after.calls = world.calls)
    (nextCall : world.nextCall ≤ after.nextCall)
    (enqueued : ∀ group, (after.groups group).enqueued = (world.groups group).enqueued)
    (listed : ∀ group, (after.groups group).workMetaList = (world.groups group).workMetaList)
    (watchdog : ∀ group, (after.groups group).watchdog = (world.groups group).watchdog) :
    Orderly after where
  ok := fun thread call found => (orderly.ok thread call (calls ▸ found)).congr nextCall enqueued
  apart := fun thread other call member found there =>
    orderly.apart thread other call member (calls ▸ found) (calls ▸ there)
  known := fun group work member =>
    lt_of_lt_of_le (orderly.known group work (enqueued group ▸ member)) nextCall
  once := fun group => by
    rw [enqueued]
    exact orderly.once group
  own := fun group other work member work' member' =>
    orderly.own group other work (enqueued group ▸ member) work' (enqueued other ▸ member')
  listed := fun group => by
    rw [enqueued, listed]
    exact orderly.listed group
  position := fun group it => by
    rw [watchdog, listed]
    exact orderly.position group it

theorem Orderly.modifyGroup {change : Group → Group} (orderly : Orderly world)
    (enqueued : ∀ self, (change self).enqueued = self.enqueued)
    (listed : ∀ self, (change self).workMetaList = self.workMetaList)
    (watchdog : ∀ self, (change self).watchdog = self.watchdog) :
    Orderly (world.modifyGroup group change) :=
  orderly.congr rfl (le_refl _) (modifyGroup_keeps (enqueued _))
    (modifyGroup_keeps (listed _)) (modifyGroup_keeps (watchdog _))

theorem Orderly.sameWorks (orderly : Orderly world) (same : SameWorks world after) :
    Orderly after :=
  orderly.congr (read_of_works calls (fun _ => rfl) same.works) (le_of_eq same.nextCall.symm)
    (group_of_works Group.enqueued (fun _ => rfl) same.works)
    (group_of_works Group.workMetaList (fun _ => rfl) same.works)
    (group_of_works Group.watchdog (fun _ => rfl) same.works)

variable {outcome : Option Call}

theorem Orderly.setCall (orderly : Orderly world) (ok : ∀ call, outcome = some call → call.Ok world)
    (apart : ∀ call, outcome = some call → ∀ other member, other ≠ thread →
      world.calls other = some member → call.id ≠ member.id) :
    Orderly (world.setCall thread outcome) where
  ok := fun other call found => by
    change update world.calls thread outcome other = some call at found
    by_cases same : other = thread
    · rw [same, update_self] at found
      exact (ok call found).congr (le_refl _) fun _ => rfl
    · rw [update_of_ne same] at found
      exact (orderly.ok other call found).congr (le_refl _) fun _ => rfl
  apart := fun first second call member found there agree => by
    change update world.calls thread outcome first = some call at found
    change update world.calls thread outcome second = some member at there
    by_cases here : first = thread
    · by_cases same : second = thread
      · rw [here, same]
      · rw [here, update_self] at found
        rw [update_of_ne same] at there
        exact absurd agree (apart call found second member same there)
    · rw [update_of_ne here] at found
      by_cases same : second = thread
      · rw [same, update_self] at there
        exact absurd agree.symm (apart member there first call here found)
      · rw [update_of_ne same] at there
        exact orderly.apart first second call member found there agree
  known := orderly.known
  once := orderly.once
  own := orderly.own
  listed := orderly.listed
  position := orderly.position

theorem Orderly.dropCall (orderly : Orderly world) :
    Orderly (world.setCall thread (remaining none)) :=
  orderly.setCall (fun _ ended => by cases ended) fun _ ended => by cases ended

theorem remaining_some (remains : remaining outcome = some call) : outcome = some call :=
  (filter_eq_some_iff.mp remains).1

theorem Orderly.begin (orderly : Orderly world) (made : Made world group call after) :
    Orderly (after.setCall thread (remaining (some call))) := by
  have kept : Orderly after := orderly.congr (read_of_works calls (fun _ => rfl) made.works)
    (by rw [made.next]; exact le_succ _)
    (group_of_works Group.enqueued (fun _ => rfl) made.works)
    (group_of_works Group.workMetaList (fun _ => rfl) made.works)
    (group_of_works Group.watchdog (fun _ => rfl) made.works)
  refine kept.setCall (fun later remains => ?_) fun later remains other member _ there agree => ?_
  · obtain rfl := some.inj (remaining_some remains)
    constructor
    · rcases made.rest with ⟨empty, _⟩ | sections | sections | sections
      · rw [empty]
        decide
      · rw [sections]
        decide
      · rw [sections]
        decide
      · rw [sections]
        decide
    · rw [made.id, made.next]
      exact lt_succ_self _
    · exact made.own
    · exact made.workless
    · rw [made.admitted]
      nofun
    · intro group work member agree
      rw [group_of_works Group.enqueued (fun _ => rfl) made.works] at member
      have older := orderly.known group work member
      rw [agree, made.id] at older
      exact absurd older (lt_irrefl _)
  · obtain rfl := some.inj (remaining_some remains)
    rw [read_of_works calls (fun _ => rfl) made.works] at there
    have older := (orderly.ok other member there).known
    rw [← agree, made.id] at older
    exact absurd older (lt_irrefl _)

variable {next : Section} {rest : List Section}

theorem Call.Ok.tail (ok : call.Ok world)
    (left : call.rest = next :: rest) : ({ call with rest } : Call).Ok world := by
  have order := inOrder (left ▸ ok.shaped)
  constructor
  · exact order.tail
  · exact ok.known
  · exact ok.own
  · exact ok.workless
  · intro admitted
    obtain ⟨enqueue, counted, decided⟩ := ok.decided admitted
    rw [left] at counted decided
    exact ⟨enqueue, not_mem_of_not_mem_cons counted, not_mem_of_not_mem_cons decided⟩
  · intro group work member agree
    have placed := ok.placed group work member agree
    rw [left] at placed
    exact not_mem_of_not_mem_cons placed

theorem Orderly.emplace {work : Work} (orderly : Orderly world) (known : work.id < world.nextCall)
    (unlocked : (world.groups group).watchdog.holdsLock = false)
    (fresh : ∀ other, ∀ member ∈ (world.groups other).enqueued, member.id ≠ work.id)
    (placed : ∀ thread call, world.calls thread = some call → work.id = call.id →
      .emplace ∉ call.rest) : Orderly (world.modifyGroup group (emplaceBack work)) := by
  have enqueued : ∀ other member,
      member ∈ ((world.modifyGroup group (emplaceBack work)).groups other).enqueued →
      other = group ∧ member = work ∨ member ∈ (world.groups other).enqueued := by
    intro other member there
    by_cases same : other = group
    · rw [same, modifyGroup_same] at there
      rcases mem_cons.mp there with new | old
      · exact .inl ⟨same, new⟩
      · exact .inr (same ▸ old)
    · rw [modifyGroup_other _ same] at there
      exact .inr there
  constructor
  · intro thread call found
    have ok := orderly.ok thread call found
    refine ⟨ok.shaped, ok.known, ok.own, ok.workless, ok.decided, fun other member there agree => ?_⟩
    rcases enqueued other member there with ⟨_, rfl⟩ | old
    · exact placed thread call found agree
    · exact ok.placed other member old agree
  · exact orderly.apart
  · intro other member there
    rcases enqueued other member there with ⟨_, rfl⟩ | old
    · exact known
    · exact orderly.known other member old
  · intro other
    by_cases same : other = group
    · rw [same, modifyGroup_same]
      refine nodup_cons.mpr ⟨fun there => ?_, orderly.once group⟩
      obtain ⟨member, old, agree⟩ := mem_map.mp there
      exact fresh group member old agree
    · rw [modifyGroup_other _ same]
      exact orderly.once other
  · intro first second member there partner here agree
    rcases enqueued first member there with ⟨rfl, rfl⟩ | old
    · rcases enqueued second partner here with ⟨rfl, _⟩ | older
      · rfl
      · exact absurd agree.symm (fresh second partner older)
    · rcases enqueued second partner here with ⟨rfl, rfl⟩ | older
      · exact absurd agree (fresh first member old)
      · exact orderly.own first second member old partner older agree
  · intro other
    by_cases same : other = group
    · rw [same, modifyGroup_same]
      change (_ ++ [work]).Sublist (work :: _).reverse
      rw [reverse_cons]
      exact (orderly.listed group).append (List.Sublist.refl _)
    · rw [modifyGroup_other _ same]
      exact orderly.listed other
  · intro other it stage
    by_cases same : other = group
    · subst same
      rw [modifyGroup_same] at stage
      rcases stage with reset | retired
      · rw [show (world.groups other).watchdog = _ from reset] at unlocked
        cases unlocked
      · rw [show (world.groups other).watchdog = _ from retired] at unlocked
        cases unlocked
    · rw [modifyGroup_other _ same] at stage ⊢
      exact orderly.position other it stage

variable {fate : Fate} {final : World}

theorem Orderly.ran (orderly : Orderly world)
    (found : world.calls thread = some call) (left : call.rest = next :: rest)
    (ran : Ran world fate { call with rest } next outcome final) :
    Orderly (final.setCall thread (remaining outcome)) := by
  have ok := orderly.ok thread call found
  have order := inOrder (left ▸ ok.shaped)
  have tail := ok.tail left
  have apart : ∀ other member, other ≠ thread → world.calls other = some member →
      call.id ≠ member.id := fun other member different there agree =>
    different (orderly.apart thread other call member found there agree).symm
  have continues : ∀ {final : World} {later : Call}, Orderly final → final.calls = world.calls →
      later.id = call.id → later.Ok final → Orderly (final.setCall thread (remaining (some later))) := by
    intro final later kept calls same ok
    refine kept.setCall (fun _ remains => ?_) fun _ remains other member different there => ?_
    · obtain rfl := some.inj (remaining_some remains)
      exact ok
    · obtain rfl := some.inj (remaining_some remains)
      rw [same]
      exact apart other member different (calls ▸ there)
  cases ran with
  | launched => exact continues orderly rfl rfl tail
  | notLaunched => exact orderly.dropCall
  | closed same calls =>
    exact continues (orderly.sameWorks same) calls rfl (tail.congr (le_of_eq same.nextCall.symm)
      (group_of_works Group.enqueued (fun _ => rfl) same.works))
  | notClosed same => exact (orderly.sameWorks same).dropCall
  | @charged work has =>
    refine continues (orderly.modifyGroup (fun _ => rfl) (fun _ => rfl) fun _ => rfl) rfl rfl ?_
    have charged : ({ call with
        rest
        work := some (withTimeout (world.groups call.group) work) } : Call).Ok world :=
      ⟨tail.shaped, tail.known, fun other same => by
        cases same
        exact tail.own work has, nofun, tail.decided, tail.placed⟩
    exact charged.congr (le_refl _) (modifyGroup_keeps rfl)
  | nothingToCharge => exact continues orderly rfl rfl tail
  | @readStatus enqueue reads =>
    refine continues orderly rfl rfl ⟨tail.shaped, tail.known, tail.own, fun lacks => ?_,
      fun admitted => absurd (order.reads rfl) (tail.decided admitted).2.2, tail.placed⟩
    by_contra enqueues
    have has := reads (by simpa using enqueues)
    rw [show call.work = none from lacks] at has
    cases has
  | raised =>
    exact continues (orderly.congr rfl (le_refl _) (fun _ => rfl) (fun _ => rfl) fun _ => rfl)
      rfl rfl (tail.congr (le_refl _) fun _ => rfl)
  | admitted enqueues =>
    exact continues orderly rfl rfl ⟨tail.shaped, tail.known, tail.own, tail.workless,
      fun _ => ⟨enqueues, (order.counted rfl).1, order.once⟩, tail.placed⟩
  | lowered =>
    exact continues (orderly.congr rfl (le_refl _) (fun _ => rfl) (fun _ => rfl) fun _ => rfl)
      rfl rfl (tail.congr (le_refl _) fun _ => rfl)
  | notLowered => exact orderly.dropCall
  | @emplaced work has admitted unlocked =>
    have own : work.id = call.id := ok.own work has
    have moved : Orderly (world.setCall thread (remaining (some { call with rest }))) :=
      continues orderly rfl rfl tail
    refine moved.emplace (own ▸ ok.known) unlocked ?_ ?_
    · intro other member there agree
      refine ok.placed other member there (agree.trans own) ?_
      rw [left]
      exact .head _
    · intro other later there agree
      change update world.calls thread _ other = some later at there
      by_cases same : other = thread
      · rw [same, update_self] at there
        obtain rfl := some.inj (remaining_some there)
        exact order.once
      · rw [update_of_ne same] at there
        exact absurd (own.symm.trans agree) (apart other later same there)
  | notEmplaced => exact continues orderly rfl rfl tail
  | reset =>
    exact continues (orderly.modifyGroup (fun _ => rfl) (fun _ => rfl) fun _ => rfl) rfl rfl
      (tail.congr (le_refl _) (modifyGroup_keeps rfl))

inductive Watched (world : World) (group : Nat) (queries : Queries) : World → Prop
  | wakes : (world.groups group).watchdog = .resting →
      Watched world group queries (world.modifyGroup group (setWatchdog (.scanning 0)))
  | ends {it : Nat} : (world.groups group).watchdog = .scanning it →
      (world.groups group).workMetaList[it]? = none →
      Watched world group queries (world.modifyGroup group endPass)
  | completes {it : Nat} {work : Work} : (world.groups group).watchdog = .scanning it →
      (world.groups group).workMetaList[it]? = some work → work.id ∈ world.finished →
      Watched world group queries (world.modifyGroup group (resetTimeout work it))
  | passes {it : Nat} {work : Work} : (world.groups group).watchdog = .scanning it →
      (world.groups group).workMetaList[it]? = some work → work.id ∉ world.finished →
      Watched world group queries (world.modifyGroup group (setWatchdog (.scanning (it + 1))))
  | retires {it : Nat} {work : Work} {recorder : FlightRecorder} :
      (world.groups group).watchdog = .reset it →
      (world.groups group).workMetaList[it]? = some work →
      world.recorder.retireId queries work.traceId = some recorder →
      Watched world group queries
        (({ world with recorder } : World).modifyGroup group (setWatchdog (.retired it)))
  | throws {it : Nat} {work : Work} : (world.groups group).watchdog = .reset it →
      (world.groups group).workMetaList[it]? = some work →
      world.recorder.retireId queries work.traceId = none →
      Watched world group queries (world.modifyGroup group (setWatchdog .left))
  | removes {it : Nat} {work : Work} : (world.groups group).watchdog = .retired it →
      (world.groups group).workMetaList[it]? = some work →
      Watched world group queries (world.modifyGroup group (cleanUp work it))
  | lowers {work it : Nat} : (world.groups group).watchdog = .removed work it →
      0 < world.pendingEventQueries → Watched world group queries
        ((world.lowered work).modifyGroup group (setWatchdog (.scanning it)))
  | asserts {work it : Nat} : (world.groups group).watchdog = .removed work it →
      ¬0 < world.pendingEventQueries →
      Watched world group queries (world.modifyGroup group (setWatchdog .left))

theorem watched_of_handler {queries : Queries}
    (taken : watchdogHandler group queries world = some after) :
    Watched world group queries after := by
  unfold watchdogHandler at taken
  dsimp only at taken
  cases stage : (world.groups group).watchdog with
  | resting =>
    rw [stage] at taken
    exact some.inj taken ▸ .wakes stage
  | scanning it =>
    rw [stage] at taken
    dsimp only at taken
    cases found : (world.groups group).workMetaList[it]? with
    | none =>
      rw [found] at taken
      exact some.inj taken ▸ .ends stage found
    | some work =>
      rw [found] at taken
      dsimp only at taken
      split at taken
      · next done => exact some.inj taken ▸ .completes stage found done
      · next undone => exact some.inj taken ▸ .passes stage found undone
  | reset it =>
    rw [stage] at taken
    dsimp only at taken
    cases found : (world.groups group).workMetaList[it]? with
    | none =>
      rw [found] at taken
      cases taken
    | some work =>
      rw [found] at taken
      dsimp only at taken
      cases retired : world.recorder.retireId queries work.traceId with
      | none =>
        rw [retired] at taken
        exact some.inj taken ▸ .throws stage found retired
      | some recorder =>
        rw [retired] at taken
        exact some.inj taken ▸ .retires stage found retired
  | retired it =>
    rw [stage] at taken
    dsimp only at taken
    cases found : (world.groups group).workMetaList[it]? with
    | none =>
      rw [found] at taken
      cases taken
    | some work =>
      rw [found] at taken
      exact some.inj taken ▸ .removes stage found
  | removed work it =>
    rw [stage] at taken
    dsimp only at taken
    split at taken
    · next positive => exact some.inj taken ▸ .lowers stage positive
    · next stuck => exact some.inj taken ▸ .asserts stage stuck
  | left =>
    rw [stage] at taken
    cases taken

inductive Hooked (self : Group) : HookOutcome → Group → Prop
  | leaves {outcome : HookOutcome} : self.hookThread = .polling true →
      self.terminateProcessGroup = true → Hooked self outcome (setHookThread .left self)
  | polls {outcome : HookOutcome} {done : Bool} : self.hookThread = .polling done →
      (done && self.terminateProcessGroup) = false →
      Hooked self outcome (setHookThread .waiting self)
  | wakes {outcome : HookOutcome} : self.hookThread = .waiting →
      Hooked self outcome (nextWork self)
  | returns {work : Work} {rest : List Work} : self.hookThread = .calling →
      self.completedWorkList = work :: rest →
      Hooked self .returns (nextWork (handOver work rest self))
  | throws {work : Work} {rest : List Work} : self.hookThread = .calling →
      self.completedWorkList = work :: rest →
      Hooked self .throws (setHookThread (.polling false)
        (handOver work self.completedWorkList self))
  | unprepared : self.hookThread = .calling →
      Hooked self .unprepared (setHookThread (.polling false) self)

theorem hooked_of_loop {self later : Group} {outcome : HookOutcome}
    (taken : runHookLoop outcome self = some later) : Hooked self outcome later := by
  unfold runHookLoop at taken
  cases stage : self.hookThread with
  | absent =>
    rw [stage] at taken
    cases taken
  | left =>
    rw [stage] at taken
    cases taken
  | polling done =>
    rw [stage] at taken
    dsimp only at taken
    split at taken
    · next ends =>
        obtain ⟨rfl, terminated⟩ := Bool.and_eq_true_iff.mp ends
        exact some.inj taken ▸ .leaves stage terminated
    · next stays => exact some.inj taken ▸ .polls stage (Bool.eq_false_iff.mpr stays)
  | waiting =>
    rw [stage] at taken
    exact some.inj taken ▸ .wakes stage
  | calling =>
    rw [stage] at taken
    dsimp only at taken
    cases listed : self.completedWorkList with
    | nil =>
      rw [listed] at taken
      cases taken
    | cons work rest =>
      rw [listed] at taken
      cases outcome with
      | returns => exact some.inj taken ▸ .returns stage listed
      | throws =>
        rw [← some.inj taken, ← listed]
        exact .throws stage listed
      | unprepared => exact some.inj taken ▸ .unprepared stage

theorem Hooked.keeps {field : Type} {read : Group → field} {self later : Group}
    {outcome : HookOutcome} (hooked : Hooked self outcome later)
    (thread : ∀ stage self, read (setHookThread stage self) = read self)
    (hands : ∀ work rest self, read (handOver work rest self) = read self) :
    read later = read self := by
  cases hooked with
  | leaves => exact thread _ _
  | polls => exact thread _ _
  | wakes => exact thread _ _
  | returns => exact (thread _ _).trans (hands _ _ _)
  | throws => exact (thread _ _).trans (hands _ _ _)
  | unprepared => exact thread _ _

theorem Orderly.watch {change : Group → Group} (orderly : Orderly world)
    (enqueued : ∀ self, (change self).enqueued = self.enqueued)
    (listed : (change (world.groups group)).workMetaList.Sublist (world.groups group).workMetaList)
    (position : ∀ it, (change (world.groups group)).watchdog = .reset it ∨
      (change (world.groups group)).watchdog = .retired it →
      it < (change (world.groups group)).workMetaList.length) :
    Orderly (world.modifyGroup group change) where
  ok := fun thread call found =>
    (orderly.ok thread call found).congr (le_refl _) (modifyGroup_keeps (enqueued _))
  apart := orderly.apart
  known := fun other => by
    rw [modifyGroup_keeps (enqueued _)]
    exact orderly.known other
  once := fun other => by
    rw [modifyGroup_keeps (enqueued _)]
    exact orderly.once other
  own := fun first second => by
    rw [modifyGroup_keeps (enqueued _), modifyGroup_keeps (enqueued _)]
    exact orderly.own first second
  listed := fun other => by
    rw [modifyGroup_keeps (enqueued _)]
    by_cases same : other = group
    · rw [same, modifyGroup_same]
      exact listed.trans (orderly.listed group)
    · rw [modifyGroup_other _ same]
      exact orderly.listed other
  position := fun other it => by
    by_cases same : other = group
    · rw [same, modifyGroup_same]
      exact position it
    · rw [modifyGroup_other _ same]
      exact orderly.position other it

theorem Orderly.watched {queries : Queries} (orderly : Orderly world)
    (watched : Watched world group queries after) : Orderly after := by
  have stays : ∀ stage, (∀ it, stage = .reset it ∨ stage = .retired it →
      it < (world.groups group).workMetaList.length) →
      Orderly (world.modifyGroup group (setWatchdog stage)) := fun stage position =>
    orderly.watch (fun _ => rfl) (List.Sublist.refl _) position
  cases watched with
  | wakes => exact stays _ (by simp)
  | ends =>
    refine orderly.watch (fun _ => rfl) (List.Sublist.refl _) fun it stage => ?_
    unfold endPass at stage
    split at stage
    · simp at stage
    · simp at stage
  | completes stage found =>
    refine orderly.watch (fun _ => rfl) (List.Sublist.refl _) ?_
    rintro it (same | same)
    · obtain rfl := Watchdog.reset.inj same
      exact (List.getElem?_eq_some_iff.mp found).1
    · cases same
  | passes => exact stays _ (by simp)
  | @retires it work recorder stage found retired =>
    have kept : Orderly { world with recorder } :=
      orderly.congr rfl (le_refl _) (fun _ => rfl) (fun _ => rfl) fun _ => rfl
    refine kept.watch (fun _ => rfl) (List.Sublist.refl _) ?_
    rintro place (same | same)
    · cases same
    · obtain rfl := Watchdog.retired.inj same
      exact (List.getElem?_eq_some_iff.mp found).1
  | throws => exact stays _ (by simp)
  | removes =>
    refine orderly.watch (fun _ => rfl) (eraseIdx_sublist _ _) ?_
    rintro place (same | same)
    · cases same
    · cases same
  | @lowers work it =>
    have kept : Orderly (world.lowered work) :=
      orderly.congr rfl (le_refl _) (fun _ => rfl) (fun _ => rfl) fun _ => rfl
    refine kept.watch (fun _ => rfl) (List.Sublist.refl _) ?_
    rintro place (same | same)
    · cases same
    · cases same
  | asserts => exact stays _ (by simp)

theorem Initial.orderly (initial : Initial world) : Orderly world := by
  obtain ⟨maxEntries, capturable, same⟩ := initial.rest
  have calls : ∀ thread, world.calls thread = none := fun thread => by rw [same]
  have empty : ∀ group, (world.groups group).enqueued = [] := fun group => by
    obtain ⟨_, _, _, _, made⟩ := initial.groups group
    rw [made]
  constructor
  · intro thread call found
    rw [calls] at found
    cases found
  · intro thread other call member found
    rw [calls] at found
    cases found
  · intro group work member
    rw [empty] at member
    cases member
  · intro group
    rw [empty]
    exact nodup_nil
  · intro group other work member
    rw [empty] at member
    cases member
  · intro group
    obtain ⟨_, _, _, _, made⟩ := initial.groups group
    rw [made]
    exact List.Sublist.refl _
  · intro group it stage
    obtain ⟨_, _, _, _, made⟩ := initial.groups group
    rw [made] at stage
    simp at stage

theorem sameWorks_afterwards {α : Type} {program : M α} (spares : Sparing program) :
    SameWorks world (afterwards (program world)) := by
  have spec := spares world world (.refl world)
  cases run : program world with
  | ok value after =>
    have kept := wp_ok spec run
    exact kept
  | error exception after =>
    have kept := wp_error spec run
    exact kept.resolve_left id

inductive Stepped (world : World) : Action → World → Prop
  | made {thread group : Nat} {operation : Operation} {fate : Fate} {call : Call} {after : World} :
      world.calls thread = none → Made world group call after →
      Stepped world (.begin thread group operation fate) (after.setCall thread (remaining (some call)))
  | notMade {thread group : Nat} {operation : Operation} {fate : Fate} {after : World} :
      world.calls thread = none → SameWorks world after →
      Stepped world (.begin thread group operation fate) (after.setCall thread (remaining none))
  | ran {thread : Nat} {fate : Fate} {call : Call} {next : Section} {rest : List Section}
      {outcome : Option Call} {final : World} : world.calls thread = some call →
      call.rest = next :: rest → Ran world fate { call with rest } next outcome final →
      Stepped world (.proceed thread fate) (final.setCall thread (remaining outcome))
  | started {thread group : Nat} {fate : Fate} {after : World} : SameWorks world after →
      Stepped world (.startCoalescing thread group fate) after
  | entered {thread : Nat} {fate : Fate} {after : World} : SameWorks world after →
      Stepped world (.groupStart thread fate) after
  | exited {thread : Nat} {fate : Fate} {after : World} : SameWorks world after →
      Stepped world (.groupEnd thread fate) after
  | added {group : Nat} {timeout : Int} : Stepped world (.addEphemeralTimeout group timeout)
      (world.modifyGroup group (addTimeout timeout))
  | finished {work : Nat} : work < world.nextCall →
      Stepped world (.finish work) (world.finish work)
  | watched {group : Nat} {queries : Queries} {after : World} :
      Watched world group queries after → Stepped world (.watchdog group queries) after
  | registered {group : Nat} : (world.groups group).onCompletionHook = false →
      Stepped world (.registerOnCompletionHook group) (world.modifyGroup group registerHook)
  | hooked {group : Nat} {outcome : HookOutcome} {later : Group} :
      Hooked (world.groups group) outcome later →
      Stepped world (.hookThread group outcome) (world.modifyGroup group fun _ => later)
  | terminated {group : Nat} :
      Stepped world (.terminate group) (world.modifyGroup group setTerminate)
  | checked {thread : Nat} : world.captures thread = .idle → world.pendingEventQueries = 0 →
      Stepped world (.checkPending thread) (world.setCapture thread .cleared)
  | began {thread : Nat} {begins : Bool} : world.captures thread = .cleared →
      Stepped world (.beginCapture thread begins)
        (world.setCapture thread (if begins then .capturing else .idle))
  | ended {thread : Nat} : world.captures thread = .capturing →
      Stepped world (.endCapture thread) (world.setCapture thread .idle)

theorem stepped_of_step {action : Action} (taken : step world action = some after) :
    Stepped world action after := by
  cases action with
  | begin thread group operation fate =>
    simp only [step] at taken
    split at taken
    · next idle =>
        have idle : world.calls thread = none := isNone_iff_eq_none.mp idle
        have spec : wp (operation.begin thread group fate)
            (fun call after => Made world group call after) (fun _ after => SameWorks world after)
            world := begin_made operation
        cases taken
        cases run : operation.begin thread group fate world with
        | error exception final =>
          have same := wp_error spec run
          exact .notMade idle same
        | ok call final =>
          have made := wp_ok spec run
          rw [outcome_ok]
          exact .made idle made
    · cases taken
  | proceed thread fate =>
    obtain ⟨call, next, rest, outcome, final, found, left, ran, rfl⟩ := ran_of_proceed taken
    exact .ran found left ran
  | startCoalescing thread group fate =>
    simp only [step] at taken
    split at taken
    · exact some.inj taken ▸ .started (sameWorks_afterwards (sparing_startCoalescing _ _ _))
    · cases taken
  | groupStart thread fate =>
    simp only [step] at taken
    split at taken
    · exact some.inj taken ▸ .entered (sameWorks_afterwards (sparing_groupStart _ _))
    · cases taken
  | groupEnd thread fate =>
    simp only [step] at taken
    split at taken
    · exact some.inj taken ▸ .exited (sameWorks_afterwards (sparing_groupEnd _ _))
    · cases taken
  | addEphemeralTimeout group timeout => exact some.inj taken ▸ .added
  | finish work =>
    simp only [step] at taken
    split at taken
    · next known => exact some.inj taken ▸ .finished known
    · cases taken
  | watchdog group queries => exact .watched (watched_of_handler taken)
  | registerOnCompletionHook group =>
    simp only [step] at taken
    split at taken
    · next free => exact some.inj taken ▸ .registered (by simp at free; exact free.1)
    · cases taken
  | hookThread group outcome =>
    obtain ⟨later, ran, same⟩ := map_eq_some_iff.mp taken
    exact same ▸ .hooked (hooked_of_loop ran)
  | terminate group => exact some.inj taken ▸ .terminated
  | checkPending thread =>
    simp only [step] at taken
    split at taken
    · next clear => exact some.inj taken ▸ .checked clear.1 clear.2
    · cases taken
  | beginCapture thread begins =>
    simp only [step] at taken
    split at taken
    · next clear => exact some.inj taken ▸ .began clear
    · cases taken
  | endCapture thread =>
    simp only [step] at taken
    split at taken
    · next capturing => exact some.inj taken ▸ .ended capturing
    · cases taken

theorem Orderly.step {action : Action} (orderly : Orderly world)
    (stepped : Stepped world action after) : Orderly after := by
  cases stepped with
  | made _ made => exact orderly.begin made
  | notMade _ same => exact (orderly.sameWorks same).dropCall
  | ran found left ran => exact orderly.ran found left ran
  | started same => exact orderly.sameWorks same
  | entered same => exact orderly.sameWorks same
  | exited same => exact orderly.sameWorks same
  | added => exact orderly.modifyGroup (fun _ => rfl) (fun _ => rfl) fun _ => rfl
  | finished =>
    exact orderly.congr rfl (le_refl _) (fun _ => rfl) (fun _ => rfl) fun _ => rfl
  | watched watched => exact orderly.watched watched
  | registered => exact orderly.modifyGroup (fun _ => rfl) (fun _ => rfl) fun _ => rfl
  | hooked hooked =>
    exact orderly.congr rfl (le_refl _)
      (modifyGroup_keeps (hooked.keeps (fun _ _ => rfl) fun _ _ _ => rfl))
      (modifyGroup_keeps (hooked.keeps (fun _ _ => rfl) fun _ _ _ => rfl))
      (modifyGroup_keeps (hooked.keeps (fun _ _ => rfl) fun _ _ _ => rfl))
  | terminated => exact orderly.modifyGroup (fun _ => rfl) (fun _ => rfl) fun _ => rfl
  | checked =>
    exact orderly.congr rfl (le_refl _) (fun _ => rfl) (fun _ => rfl) fun _ => rfl
  | began =>
    exact orderly.congr rfl (le_refl _) (fun _ => rfl) (fun _ => rfl) fun _ => rfl
  | ended =>
    exact orderly.congr rfl (le_refl _) (fun _ => rfl) (fun _ => rfl) fun _ => rfl

theorem Orderly.distinct (orderly : Orderly world) (group : Nat) :
    ((world.groups group).workMetaList.map (·.id)).Nodup := by
  have sub := (orderly.listed group).map (·.id)
  rw [map_reverse] at sub
  exact (nodup_reverse.mpr (orderly.once group)).sublist sub

variable {work member : Work}

theorem mem_eraseIdx_or {list : List Work} {it : Nat}
    (found : list[it]? = some work) (there : member ∈ list) :
    member = work ∨ member ∈ list.eraseIdx it := by
  obtain ⟨place, here⟩ := mem_iff_getElem?.mp there
  by_cases agree : place = it
  · subst agree
    exact .inl (mem_unique here found)
  · exact .inr (mem_eraseIdx_iff_getElem?.mpr ⟨place, agree, here⟩)

theorem Orderly.erased {it : Nat} (orderly : Orderly world)
    (found : (world.groups group).workMetaList[it]? = some work)
    (stays : member ∈ (world.groups group).workMetaList.eraseIdx it) : member.id ≠ work.id := by
  intro agree
  obtain ⟨bound, at_⟩ := List.getElem?_eq_some_iff.mp found
  obtain ⟨place, apart, here⟩ := mem_eraseIdx_iff_getElem?.mp stays
  obtain ⟨inside, here⟩ := List.getElem?_eq_some_iff.mp here
  have first : place < ((world.groups group).workMetaList.map (·.id)).length := by simpa using inside
  have second : it < ((world.groups group).workMetaList.map (·.id)).length := by simpa using bound
  have alike : ((world.groups group).workMetaList.map (·.id))[place] =
      ((world.groups group).workMetaList.map (·.id))[it] := by
    rw [getElem_map, getElem_map, here, at_, agree]
  exact apart ((orderly.distinct group).getElem_inj_iff.mp alike)

theorem mem_emplaced {other : Nat} :
    member ∈ ((world.modifyGroup group (emplaceBack work)).groups other).workMetaList ↔
      member ∈ (world.groups other).workMetaList ∨ other = group ∧ member = work := by
  by_cases same : other = group
  · rw [same, modifyGroup_same]
    simp [emplaceBack]
  · rw [modifyGroup_other _ same]
    simp [same]

def Call.Waits (call : Call) : Prop :=
  .emplace ∈ call.rest ∧ (.workEnqueue ∈ call.rest ∨ call.admitted = true)

theorem Call.Waits.remains (waits : call.Waits) : remaining (some call) = some call := by
  refine filter_some_pos ?_
  cases left : call.rest with
  | nil =>
    have emplaces := waits.1
    rw [left] at emplaces
    cases emplaces
  | cons => rfl

theorem Call.Waits.passing {call later : Call} (waits : call.Waits)
    (left : call.rest = next :: later.rest) (admitted : later.admitted = call.admitted)
    (decides : next ≠ .workEnqueue) (emplaces : next ≠ .emplace) : later.Waits := by
  obtain ⟨places, waits⟩ := waits
  rw [left] at places waits
  refine ⟨(mem_cons.mp places).resolve_left emplaces.symm, ?_⟩
  rw [admitted]
  exact waits.imp_left fun waits => (mem_cons.mp waits).resolve_left decides.symm

theorem not_waits (left : call.rest = .emplace :: rest)
    (order : InOrder .emplace rest) (refused : call.admitted = false ∨ call.work = none)
    (has : call.work.isSome = true) : ¬call.Waits := by
  rintro ⟨_, decides | admitted⟩
  · rw [left] at decides
    rcases mem_cons.mp decides with now | later
    · cases now
    · exact (order.decided rfl).2 later
  · rcases refused with not | lacks
    · rw [not] at admitted
      cases admitted
    · rw [lacks] at has
      cases has

def Call.loses (call : Call) (world : World) (fate : Fate) : Section → Bool
  | .launch => !fate.launches
  | .closeGroup => !(fate.launches && fate.groups && fate.recordsEnd)
  | .workEnqueue => !call.enqueue || (world.groups call.group).terminateProcessGroup ||
      (world.groups call.group).blockingWait
  | _ => false

theorem Ran.later {call later : Call} (ran : Ran world fate { call with rest } next outcome final)
    (goes : outcome = some later) : later.id = call.id ∧ later.group = call.group ∧
      later.rest = rest ∧ (next ≠ .assignTimeout → later.work = call.work) ∧
      ∀ made, later.work = some made →
        ∃ work, call.work = some work ∧ made.id = work.id ∧ made.traceId = work.traceId := by
  cases ran with
  | @charged work has =>
    cases goes
    refine ⟨rfl, rfl, rfl, fun other => absurd rfl other, fun made same => ?_⟩
    cases same
    exact ⟨work, has, rfl, rfl⟩
  | _ =>
    cases goes
    try exact ⟨rfl, rfl, rfl, fun _ => rfl, fun made same => ⟨made, same, rfl, rfl⟩⟩

theorem Ran.calls (ran : Ran world fate call next outcome final) : final.calls = world.calls := by
  cases ran with
  | closed _ calls => exact calls
  | notClosed _ calls => exact calls
  | _ => rfl

theorem Ran.waits {work : Work} (ok : call.Ok world)
    (left : call.rest = next :: rest) (ran : Ran world fate { call with rest } next outcome final)
    (keeps : call.loses world fate next = false) (has : call.work = some work)
    (waits : call.Waits) :
    (∃ later made, outcome = some later ∧ later.Waits ∧ later.work = some made ∧
      made.id = work.id ∧ made.traceId = work.traceId) ∨
      next = .emplace ∧ final = world.modifyGroup call.group (emplaceBack work) := by
  have order := inOrder (left ▸ ok.shaped)
  have passes : ∀ {later : Call}, later.rest = rest → later.admitted = call.admitted →
      next ≠ .workEnqueue → next ≠ .emplace → later.Waits := by
    rintro later rfl admitted decides emplaces
    exact waits.passing left admitted decides emplaces
  cases ran with
  | launched => exact .inl ⟨_, work, rfl, passes rfl rfl (by decide) (by decide), has, rfl, rfl⟩
  | notLaunched fails => simp [Call.loses, fails] at keeps
  | closed => exact .inl ⟨_, work, rfl, passes rfl rfl (by decide) (by decide), has, rfl, rfl⟩
  | notClosed _ _ fails =>
    refine absurd ?_ fails
    simpa [Call.loses, and_assoc] using keeps
  | @charged old had =>
    obtain rfl := mem_unique has had
    exact .inl ⟨_, _, rfl, passes rfl rfl (by decide) (by decide), rfl, rfl, rfl⟩
  | nothingToCharge lacks =>
    rw [show call.work = none from lacks] at has
    cases has
  | readStatus => exact .inl ⟨_, work, rfl, passes rfl rfl (by decide) (by decide), has, rfl, rfl⟩
  | raised => exact .inl ⟨_, work, rfl, passes rfl rfl (by decide) (by decide), has, rfl, rfl⟩
  | @admitted admitted _ decision =>
    simp only [Call.loses, Bool.or_eq_false_iff] at keeps
    refine .inl ⟨_, work, rfl, ⟨(order.counted rfl).2, .inr ?_⟩, has, rfl, rfl⟩
    rw [decision, keeps.1.2, keeps.2]
    rfl
  | lowered refuses => simp [Call.loses, show call.enqueue = false from refuses] at keeps
  | notLowered refuses => simp [Call.loses, show call.enqueue = false from refuses] at keeps
  | @emplaced old had =>
    obtain rfl := mem_unique has had
    exact .inr ⟨rfl, rfl⟩
  | notEmplaced refused =>
    exact absurd waits (not_waits left order refused (isSome_iff_exists.mpr ⟨work, has⟩))
  | reset => exact .inl ⟨_, work, rfl, passes rfl rfl (by decide) (by decide), has, rfl, rfl⟩

theorem Made.waits (made : Made world group call after)
    (has : call.work.isSome = true) : call.Waits := by
  rcases made.rest with ⟨_, lacks⟩ | sections | sections | sections
  · rw [lacks] at has
    cases has
  · exact ⟨by rw [sections]; decide, .inl (by rw [sections]; decide)⟩
  · exact ⟨by rw [sections]; decide, .inl (by rw [sections]; decide)⟩
  · exact ⟨by rw [sections]; decide, .inl (by rw [sections]; decide)⟩

end Orderly

end TorchSupa.Distributed
