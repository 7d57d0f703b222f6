import TorchSupa.Distributed.Calls

/-!
The entries of the flight recorder point to events that belong to works. A work is kept alive by
the call that issues it and then by the list of the watchdog, which retires its entry before it
takes the work off the list.
-/

namespace TorchSupa.Distributed

open FlightRecorder Nat

def Held (world : World) (id : Nat) : Prop :=
  ∃ thread call, world.calls thread = some call ∧ call.id = id ∧ call.work.isSome = true ∧ call.Waits

def NoneDangling (world : World) : Prop :=
  ∀ entry ∈ world.recorder.entries, ∀ work, entry.PointsTo work → Listed world work ∨ Held world work

/-- When no entry is left dangling: a call whose work was recorded does not throw, and finds
that its work is to be enqueued and its group neither terminated nor in blocking wait. -/
def KeepsWorks (world : World) : Action → Prop
  | .proceed thread fate => ∀ call next rest work, world.calls thread = some call →
      call.rest = next :: rest → call.work = some work → work.traceId ≠ none →
      call.loses world fate next = false
  | _ => True

structure Traced (world : World) : Prop where
  ring : Ring world.recorder
  alive : NoneDangling world
  known : ∀ entry ∈ world.recorder.entries, ∀ work, entry.PointsTo work → work < world.nextCall
  listed : ∀ entry ∈ world.recorder.entries, ∀ group, ∀ work ∈ (world.groups group).workMetaList,
    entry.PointsTo work.id → work.traceId = some entry.id
  held : ∀ entry ∈ world.recorder.entries, ∀ thread call work, world.calls thread = some call →
    call.work = some work → entry.PointsTo work.id → work.traceId = some entry.id
  retired : ∀ group it work, (world.groups group).watchdog = .retired it →
    (world.groups group).workMetaList[it]? = some work →
    ∀ entry ∈ world.recorder.entries, ¬entry.PointsTo work.id

section Keeping

variable {world after : World} {thread group : Nat}

theorem Traced.congr (traced : Traced world) (recorder : after.recorder = world.recorder)
    (calls : after.calls = world.calls) (nextCall : world.nextCall ≤ after.nextCall)
    (list : ∀ group, (after.groups group).workMetaList = (world.groups group).workMetaList)
    (stage : ∀ group it, (after.groups group).watchdog = .retired it →
      (world.groups group).watchdog = .retired it) : Traced after := by
  have listed : ∀ id, Listed after id ↔ Listed world id := fun id => by simp only [Listed, list]
  have held : ∀ id, Held after id ↔ Held world id := fun id => by simp only [Held, calls]
  constructor
  · rw [recorder]
    exact traced.ring
  · intro entry member work points
    rw [listed, held]
    exact traced.alive entry (recorder ▸ member) work points
  · intro entry member work points
    exact lt_of_lt_of_le (traced.known entry (recorder ▸ member) work points) nextCall
  · rw [recorder]
    intro entry member other
    rw [list]
    exact traced.listed entry member other
  · rw [recorder, calls]
    exact traced.held
  · rw [recorder]
    intro other it work there
    rw [list]
    exact traced.retired other it work (stage other it there)

open World

theorem Traced.sameWorks (traced : Traced world) (same : SameWorks world after) : Traced after :=
  traced.congr same.recorder (read_of_works calls (fun _ => rfl) same.works)
    (le_of_eq same.nextCall.symm) (group_of_works Group.workMetaList (fun _ => rfl) same.works)
    fun group it stage => by rwa [group_of_works Group.watchdog (fun _ => rfl) same.works] at stage

theorem Traced.modifyGroup {change : Group → Group} (traced : Traced world)
    (listed : (change (world.groups group)).workMetaList = (world.groups group).workMetaList)
    (stage : ∀ it, (change (world.groups group)).watchdog = .retired it →
      (world.groups group).watchdog = .retired it) : Traced (world.modifyGroup group change) := by
  refine traced.congr rfl rfl (le_refl _) (modifyGroup_keeps listed) fun other it now => ?_
  by_cases same : other = group
  · rw [same, modifyGroup_same] at now
    rw [same]
    exact stage it now
  · rwa [modifyGroup_other _ same] at now

variable {outcome : Option Call} {work : Work} {call : Call} {queries : Queries} {it : Nat}

theorem Traced.setCall (traced : Traced world)
    (held : ∀ call work, outcome = some call → call.work = some work →
      ∀ entry ∈ world.recorder.entries, entry.PointsTo work.id → work.traceId = some entry.id)
    (keeps : ∀ entry ∈ world.recorder.entries, ∀ call, world.calls thread = some call →
      call.work.isSome = true → entry.PointsTo call.id → Listed world call.id ∨
        ∃ later, outcome = some later ∧ later.id = call.id ∧ later.work.isSome = true ∧
          later.Waits) :
    Traced (world.setCall thread outcome) := by
  refine ⟨traced.ring, ?_, traced.known, traced.listed, ?_, traced.retired⟩
  · intro entry member work points
    rcases traced.alive entry member work points with listed | ⟨other, call, found, rfl, has, waits⟩
    · exact .inl listed
    · by_cases same : other = thread
      · subst same
        rcases keeps entry member call found has points with listed | ⟨later, goes, waits⟩
        · exact .inl listed
        · exact .inr ⟨other, later, (setCall_same _ _ _).trans goes, waits⟩
      · exact .inr ⟨other, call, (setCall_other _ _ same).trans found, rfl, has, waits⟩
  · intro entry member other call work found has points
    by_cases same : other = thread
    · rw [same, setCall_same] at found
      exact held call work found has entry member points
    · rw [setCall_other _ _ same] at found
      exact traced.held entry member other call work found has points

theorem Traced.emplace (traced : Traced world)
    (traces : ∀ entry ∈ world.recorder.entries, entry.PointsTo work.id →
      work.traceId = some entry.id)
    (unlocked : (world.groups group).watchdog.holdsLock = false) :
    Traced (world.modifyGroup group (emplaceBack work)) := by
  refine ⟨traced.ring, fun entry member id points => ?_, traced.known, ?_, traced.held, ?_⟩
  · refine (traced.alive entry member id points).imp_left ?_
    rintro ⟨other, partner, there, agree⟩
    exact ⟨other, partner, mem_emplaced.mpr (.inl there), agree⟩
  · intro entry member other partner there points
    rcases mem_emplaced.mp there with old | ⟨_, rfl⟩
    · exact traced.listed entry member other partner old points
    · exact traces entry member points
  · intro other it partner stage found
    by_cases same : other = group
    · subst same
      rw [modifyGroup_same] at stage
      rw [show (world.groups other).watchdog = _ from stage] at unlocked
      cases unlocked
    · rw [modifyGroup_other _ same] at stage found
      exact traced.retired other it partner stage found

open Option

theorem Traced.ran {fate : Fate} {next : Section} {rest : List Section} {final : World}
    (traced : Traced world) (orderly : Orderly world)
    (allowed : KeepsWorks world (.proceed thread fate)) (found : world.calls thread = some call)
    (left : call.rest = next :: rest)
    (ran : Ran world fate { call with rest } next outcome final) :
    Traced (final.setCall thread (remaining outcome)) := by
  have ok := orderly.ok thread call found
  have kept : Traced final := by
    cases ran with
    | launched => exact traced
    | notLaunched => exact traced
    | closed same => exact traced.sameWorks same
    | notClosed same => exact traced.sameWorks same
    | charged => exact traced.modifyGroup rfl fun _ => id
    | nothingToCharge => exact traced
    | readStatus => exact traced
    | raised => exact traced.congr rfl rfl (le_refl _) (fun _ => rfl) fun _ _ => id
    | admitted => exact traced
    | lowered => exact traced.congr rfl rfl (le_refl _) (fun _ => rfl) fun _ _ => id
    | notLowered => exact traced
    | emplaced has _ unlocked =>
      exact traced.emplace (fun entry member =>
        traced.held entry member thread call _ found has) unlocked
    | notEmplaced => exact traced
    | reset => exact traced.modifyGroup rfl fun _ => id
  have calls : final.calls = world.calls := ran.calls
  refine kept.setCall (fun later made remains has entry member points => ?_)
    fun entry member old there has points => ?_
  · obtain ⟨_, _, _, _, traces⟩ := ran.later (remaining_some remains)
    obtain ⟨work, had, same, agree⟩ := traces made has
    rw [agree]
    exact kept.held entry member thread call work (calls ▸ found) had (same ▸ points)
  · rw [calls] at there
    obtain rfl := mem_unique found there
    obtain ⟨work, has⟩ := isSome_iff_exists.mp has
    have own : work.id = call.id := ok.own work has
    have recorded : work.traceId ≠ none := fun plain => by
      have traces := kept.held entry member thread call work (calls ▸ found) has (own ▸ points)
      rw [plain] at traces
      cases traces
    have keeps := allowed call next rest work found left has recorded
    rcases kept.alive entry member call.id points with
      listed | ⟨other, partner, at_, agree, _, waits⟩
    · exact .inl listed
    · rw [calls] at at_
      obtain rfl := orderly.apart other thread partner call at_ found agree
      obtain rfl := mem_unique found at_
      rcases ran.waits ok left keeps has waits with
        ⟨later, made, goes, still, holds, _⟩ | ⟨_, rfl⟩
      · obtain ⟨same, _⟩ := ran.later goes
        refine .inr ⟨later, ?_, same, by rw [holds]; rfl, still⟩
        rw [goes]
        exact still.remains
      · exact .inl ⟨call.group, work, mem_emplaced.mpr (.inr ⟨rfl, rfl⟩), own⟩

open List

section

variable (traced : Traced world)
include traced

theorem Traced.begin (orderly : Orderly world)
    (idle : world.calls thread = none) (made : Made world group call after) :
    Traced (after.setCall thread (remaining (some call))) := by
  have calls : after.calls = world.calls := read_of_works calls (fun _ => rfl) made.works
  have list : ∀ other, (after.groups other).workMetaList = (world.groups other).workMetaList :=
    group_of_works Group.workMetaList (fun _ => rfl) made.works
  have watchdog : ∀ other, (after.groups other).watchdog = (world.groups other).watchdog :=
    group_of_works Group.watchdog (fun _ => rfl) made.works
  have ring : Ring after.recorder := by
    rcases made.recorded with ⟨same, _⟩ | ⟨_, _, _, _, _, _, _, same, _, _⟩
    · rw [same]
      exact traced.ring
    · rw [same]
      exact traced.ring.record
  -- an entry that points anywhere is an old one, or the one of this call
  have origin : ∀ entry ∈ after.recorder.entries, ∀ id, entry.PointsTo id →
      entry ∈ world.recorder.entries ∧ id < world.nextCall ∨
        id = call.id ∧ call.work.isSome = true ∧
          ∀ work, call.work = some work → work.traceId = some entry.id := by
    intro entry member id points
    rcases made.recorded with ⟨same, _⟩ | ⟨_, _, _, _, starts, ends, _, same, traces, owns⟩
    · rw [same] at member
      exact .inl ⟨member, traced.known entry member id points⟩
    · rw [same] at member
      rcases mem_record member with old | ⟨enabled, number, start, stop⟩
      · exact .inl ⟨old, traced.known entry old id points⟩
      · obtain ⟨own, has⟩ := owns id (by rw [← start, ← stop]; exact points)
        refine .inr ⟨own, has, fun work holds => ?_⟩
        rw [traces work holds, record_traceId enabled, number]
  have older : ∀ other, ∀ work ∈ (world.groups other).workMetaList, work.id ≠ call.id := by
    intro other work member agree
    have known := orderly.known other work (mem_reverse.mp ((orderly.listed other).subset member))
    rw [agree, made.id] at known
    exact absurd known (lt_irrefl _)
  refine ⟨ring, fun entry member id points => ?_, fun entry member id points => ?_, ?_, ?_, ?_⟩
  · rcases origin entry member id points with ⟨old, _⟩ | ⟨rfl, has, _⟩
    · rcases traced.alive entry old id points with ⟨other, work, there, agree⟩ |
        ⟨other, partner, there, held⟩
      · exact .inl ⟨other, work, by rw [← list other] at there; exact there, agree⟩
      · have different : other ≠ thread := by
          rintro rfl
          rw [idle] at there
          cases there
        refine .inr ⟨other, partner, ?_, held⟩
        rw [setCall_other _ _ different, calls]
        exact there
    · have waits := made.waits has
      exact .inr ⟨thread, call, (setCall_same _ _ _).trans waits.remains, rfl, has, waits⟩
  · change id < after.nextCall
    rw [made.next]
    rcases origin entry member id points with ⟨_, known⟩ | ⟨rfl, _⟩
    · exact lt_succ_of_lt known
    · rw [made.id]
      exact lt_succ_self _
  · intro entry member other work there points
    change work ∈ (after.groups other).workMetaList at there
    rw [list] at there
    rcases origin entry member work.id points with ⟨old, _⟩ | ⟨same, _⟩
    · exact traced.listed entry old other work there points
    · exact absurd same (older other work there)
  · intro entry member other partner work found has points
    by_cases same : other = thread
    · rw [same, setCall_same] at found
      obtain rfl := some.inj (remaining_some found)
      rcases origin entry member work.id points with ⟨_, known⟩ | ⟨_, _, traces⟩
      · rw [made.own work has, made.id] at known
        exact absurd known (lt_irrefl _)
      · exact traces work has
    · rw [setCall_other _ _ same, calls] at found
      rcases origin entry member work.id points with ⟨old, _⟩ | ⟨own, _⟩
      · exact traced.held entry old other partner work found has points
      · have known := (orderly.ok other partner found).known
        rw [← (orderly.ok other partner found).own work has, own, made.id] at known
        exact absurd known (lt_irrefl _)
  · intro other it work stage there entry member points
    change (after.groups other).watchdog = _ at stage
    change (after.groups other).workMetaList[it]? = _ at there
    rw [watchdog] at stage
    rw [list] at there
    rcases origin entry member work.id points with ⟨old, _⟩ | ⟨same, _⟩
    · exact traced.retired other it work stage there entry old points
    · exact older other work (mem_of_getElem? there) same

theorem Traced.retires {recorder : FlightRecorder}
    (found : (world.groups group).workMetaList[it]? = some work)
    (retired : world.recorder.retireId queries work.traceId = some recorder) :
    Traced (({ world with recorder } : World).modifyGroup group (setWatchdog (.retired it))) := by
  have list : ∀ other, ((({ world with recorder } : World).modifyGroup group
      (setWatchdog (.retired it))).groups other).workMetaList = (world.groups other).workMetaList :=
    modifyGroup_keeps rfl
  have older : ∀ entry ∈ recorder.entries, ∀ id, entry.PointsTo id →
      entry ∈ world.recorder.entries := fun entry member id points =>
    (pointsTo_retireId traced.ring retired member points).1
  refine ⟨traced.ring.retireId retired, fun entry member id points => ?_,
    fun entry member id points => traced.known entry (older entry member id points) id points,
    ?_, fun entry member other call partner there has points =>
      traced.held entry (older entry member _ points) other call partner there has points, ?_⟩
  · rcases traced.alive entry (older entry member id points) id points with
      ⟨other, partner, there, agree⟩ | held
    · exact .inl ⟨other, partner, by rw [list]; exact there, agree⟩
    · exact .inr held
  · intro entry member other partner there points
    rw [list] at there
    exact traced.listed entry (older entry member _ points) other partner there points
  · intro other place partner stage there entry member points
    rw [list] at there
    by_cases same : other = group
    · subst same
      rw [modifyGroup_same] at stage
      obtain rfl := Watchdog.retired.inj stage
      obtain rfl := mem_unique found there
      obtain ⟨old, unlike⟩ := pointsTo_retireId traced.ring retired member points
      exact unlike (traced.ring.enabled entry old)
        (traced.listed entry old other work (mem_of_getElem? there) points)
    · rw [modifyGroup_other _ same] at stage
      exact traced.retired other place partner stage there entry (older entry member _ points) points

theorem Traced.removes (stage : (world.groups group).watchdog = .retired it)
    (found : (world.groups group).workMetaList[it]? = some work) :
    Traced (world.modifyGroup group (cleanUp work it)) := by
  refine ⟨traced.ring, fun entry member id points => ?_, traced.known, ?_, traced.held, ?_⟩
  · refine (traced.alive entry member id points).imp_left ?_
    rintro ⟨other, partner, there, rfl⟩
    refine ⟨other, partner, ?_, rfl⟩
    by_cases same : other = group
    · subst same
      rw [modifyGroup_same]
      refine (mem_eraseIdx_or found there).resolve_left ?_
      rintro rfl
      exact traced.retired other it partner stage found entry member points
    · rw [modifyGroup_other _ same]
      exact there
  · intro entry member other partner there points
    by_cases same : other = group
    · rw [same, modifyGroup_same] at there
      exact traced.listed entry member group partner (mem_of_mem_eraseIdx there) points
    · rw [modifyGroup_other _ same] at there
      exact traced.listed entry member other partner there points
  · intro other place partner now there
    by_cases same : other = group
    · rw [same, modifyGroup_same] at now
      cases now
    · rw [modifyGroup_other _ same] at now there
      exact traced.retired other place partner now there

theorem Traced.watched (watched : Watched world group queries after) : Traced after := by
  have stays : ∀ stage, (∀ it, stage ≠ .retired it) →
      Traced (world.modifyGroup group (setWatchdog stage)) := fun stage other =>
    traced.modifyGroup rfl fun it now => absurd now (other it)
  cases watched with
  | wakes => exact stays _ (by simp)
  | ends =>
    refine traced.modifyGroup rfl fun it now => ?_
    unfold endPass at now
    split at now
    · cases now
    · cases now
  | completes => exact traced.modifyGroup rfl fun it now => by cases now
  | passes => exact stays _ (by simp)
  | retires _ found retired => exact traced.retires found retired
  | throws => exact stays _ (by simp)
  | removes stage found => exact traced.removes stage found
  | @lowers work it =>
    have kept : Traced (world.lowered work) :=
      traced.congr rfl rfl (le_refl _) (fun _ => rfl) fun _ _ => id
    exact kept.modifyGroup rfl fun it now => by cases now
  | asserts => exact stays _ (by simp)

end

theorem Initial.traced (initial : Initial world) : Traced world := by
  obtain ⟨maxEntries, capturable, same⟩ := initial.rest
  have empty : world.recorder.entries = [] := by rw [same]
  have none_ : ∀ entry, entry ∉ world.recorder.entries := fun entry => by simp [empty]
  constructor
  · rw [same]
    exact ring_empty maxEntries
  · exact fun entry member => absurd member (none_ entry)
  · exact fun entry member => absurd member (none_ entry)
  · exact fun entry member => absurd member (none_ entry)
  · exact fun entry member => absurd member (none_ entry)
  · exact fun _ _ _ _ _ entry member => absurd member (none_ entry)

theorem Traced.step {action : Action} (traced : Traced world) (orderly : Orderly world)
    (allowed : KeepsWorks world action) (stepped : Stepped world action after) : Traced after := by
  have unseen : ∀ {final : World}, final.recorder = world.recorder → final.calls = world.calls →
      final.groups = world.groups → world.nextCall ≤ final.nextCall → Traced final :=
    fun recorder calls groups nextCall =>
      traced.congr recorder calls nextCall (fun group => by rw [groups])
        fun group it stage => by rwa [groups] at stage
  cases stepped with
  | made idle made => exact traced.begin orderly idle made
  | @notMade thread group operation fate final idle same =>
    have calls : final.calls = world.calls := read_of_works calls (fun _ => rfl) same.works
    refine (traced.sameWorks same).setCall (fun _ _ ended => by cases ended)
      fun entry member call found => ?_
    rw [calls, idle] at found
    cases found
  | ran found left ran => exact traced.ran orderly allowed found left ran
  | started same => exact traced.sameWorks same
  | entered same => exact traced.sameWorks same
  | exited same => exact traced.sameWorks same
  | added => exact traced.modifyGroup rfl fun _ => id
  | finished => exact unseen rfl rfl rfl (le_refl _)
  | watched watched => exact traced.watched watched
  | registered => exact traced.modifyGroup rfl fun _ => id
  | @hooked group outcome later hooked =>
    have watchdog : later.watchdog = (world.groups group).watchdog :=
      hooked.keeps (fun _ _ => rfl) fun _ _ _ => rfl
    exact traced.modifyGroup (hooked.keeps (fun _ _ => rfl) fun _ _ _ => rfl) fun it now =>
      watchdog.symm.trans now
  | terminated => exact traced.modifyGroup rfl fun _ => id
  | checked => exact unseen rfl rfl rfl (le_refl _)
  | began => exact unseen rfl rfl rfl (le_refl _)
  | ended => exact unseen rfl rfl rfl (le_refl _)

theorem events_alive (world : World) (reached : process.Reachable KeepsWorks world) :
    NoneDangling world := by
  have start : ∀ world, process.initial world → Orderly world ∧ Traced world :=
    fun _ initial => ⟨initial.orderly, initial.traced⟩
  have keeps : ∀ before action after, Orderly before ∧ Traced before → KeepsWorks before action →
      process.step before action after → Orderly after ∧ Traced after := by
    intro before action after ⟨orderly, traced⟩ allowed taken
    have stepped := stepped_of_step taken
    exact ⟨orderly.step stepped, traced.step orderly allowed stepped⟩
  exact (reached.invariant start keeps).2.alive

def keepsWorks (world : World) : Action → Bool
  | .proceed thread fate => (world.calls thread).all fun call => call.work.all fun work =>
    work.traceId.isNone || call.rest.head?.all fun next => !call.loses world fate next
  | _ => true

theorem keepsWorks_of_pass (world : World) (action : Action)
    (passes : keepsWorks world action = true) : KeepsWorks world action := by
  cases action with
  | proceed thread fate =>
    intro call next rest work found left has recorded
    have traced : work.traceId.isNone = false := by
      simpa [← ne_none_iff_isSome] using recorded
    simpa [keepsWorks, found, left, has, traced] using passes
  | _ => trivial

def threeRecorded : World :=
  finalWorld keepsWorks (startWorld false true 2)
    [.begin 0 0 (.collective 0 .allreduce) {}, .proceed 0 {}, .proceed 0 {}, .proceed 0 {},
      .proceed 0 {}, .proceed 0 {}, .begin 0 0 (.pointToPoint 0 1 .send) {}, .proceed 0 {},
      .finish 0, .watchdog 0 allDone, .watchdog 0 allDone, .watchdog 0 allDone,
      .watchdog 0 allDone, .begin 1 0 (.collective 0 .allreduce) {}]

theorem events_alive_sample : NoneDangling threeRecorded ∧
    threeRecorded.recorder.entries.map (·.endEvent) = [some 2, some 1] :=
  ⟨events_alive _ (reachable_finalWorld (startWorld_initial _ _ _) _ (by decide +kernel)
    keepsWorks_of_pass), by decide +kernel⟩

def capturedCoalesced : World :=
  finalWorld (fun _ _ => true) (startWorld false true 2)
    [.begin 0 0 (.collectiveCoalesced 0 .allreduceCoalesced)
        { captureStatus := .active },
      .proceed 0 {}, .proceed 0 {}, .proceed 0 {}, .proceed 0 {}, .proceed 0 {}]

theorem events_not_alive : ¬ ∀ world, process.Reachable (fun _ _ => True) world →
    NoneDangling world := by
  intro all
  have alive := all capturedCoalesced
    (reachable_finalWorld (startWorld_initial _ _ _) _ (by decide +kernel) fun _ _ _ => trivial)
  have left : ∃ entry ∈ capturedCoalesced.recorder.entries, entry.PointsTo 0 := by decide +kernel
  obtain ⟨entry, member, points⟩ := left
  rcases alive entry member 0 points with ⟨group, work, listed, _⟩ | ⟨thread, call, found, _⟩
  · have empty : (capturedCoalesced.groups group).workMetaList = [] := by
      cases group with
      | zero => decide +kernel
      | succ other => rfl
    rw [empty] at listed
    cases listed
  · have ended : capturedCoalesced.calls thread = none := by
      cases thread with
      | zero => decide +kernel
      | succ other => rfl
    rw [ended] at found
    cases found

end Keeping

end TorchSupa.Distributed
