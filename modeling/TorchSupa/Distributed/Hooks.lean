import TorchSupa.Distributed.Calls

/-!
A completed work is moved to `completedWorkList_`, from where the hook thread takes it: it calls
the hook for the first work of the list and erases the work when the hook has returned.
-/

namespace TorchSupa.Distributed

open List

def hookSteps : Nat → Group → Option Group
  | 0, self => some self
  | steps + 1, self => (runHookLoop .returns self).bind (hookSteps steps)

/-- When the hook is called once for each work: it returns, no work is moved when the hook thread
has left or is about to, and the group is not terminated between the last look of the hook thread
at a list that is not empty any more and its return to the head of the loop. -/
def KeepsHooks (world : World) : Action → Prop
  | .hookThread group outcome => (world.groups group).hookThread = .calling → outcome = .returns
  | .watchdog group _ => ∀ it, (world.groups group).watchdog = .retired it →
      (world.groups group).onCompletionHook = true →
      (world.groups group).hookThread ≠ .left ∧
        ((world.groups group).hookThread = .polling true →
          (world.groups group).terminateProcessGroup = false)
  | .terminate group => (world.groups group).hookThread = .polling true →
      (world.groups group).completedWorkList = []
  | _ => True

/-- The hook is called once for each work that was moved, the hook thread leaves when the group is
terminated and the list is empty, and then it does leave; and when `waitForPendingWorks` returns,
every work has completed and its hook was called, unless it left the list before there was a hook. -/
structure HandedOnce (world : World) (group : Group) : Prop where
  once : group.handed.Nodup
  only : ∀ id ∈ group.handed, id ∈ group.completed
  moved : ∀ id ∈ group.completed, id ∈ group.handed ∨ ∃ work ∈ group.completedWorkList, work.id = id
  waiting : ∀ work ∈ group.completedWorkList, work.id ∉ group.handed
  left : group.hookThread = .left →
    group.terminateProcessGroup = true ∧ group.completedWorkList = []
  leaves : group.terminateProcessGroup = true → group.hookThread ≠ .absent →
    ∃ steps later, hookSteps steps group = some later ∧ later.hookThread = .left ∧
      later.completedWorkList = [] ∧ ∀ id ∈ group.completed, id ∈ later.handed
  waits : waitForPendingWorks group = true → ∀ work ∈ group.enqueued,
    work.id ∈ world.finished ∧ (work.id ∈ group.handed ∨ work.id ∈ group.unhooked)

structure Group.Handing (finished : List Nat) (group : Group) : Prop where
  once : group.completed.Nodup
  moved : (group.completedWorkList.map (·.id) ++ group.handed).Perm group.completed
  gone : ∀ id ∈ group.completed, (∃ work ∈ group.enqueued, work.id = id) ∧
    ∀ work ∈ group.workMetaList, work.id ≠ id
  stage : ∀ it work, group.watchdog = .reset it ∨ group.watchdog = .retired it →
    group.workMetaList[it]? = some work → work.id ∈ finished
  retired : ∀ work ∈ group.enqueued, work ∈ group.workMetaList ∨
    work.id ∈ finished ∧ (work.id ∈ group.completed ∨ work.id ∈ group.unhooked)
  left : group.hookThread = .left →
    group.terminateProcessGroup = true ∧ group.completedWorkList = []
  polled : group.hookThread = .polling true → group.terminateProcessGroup = true →
    group.completedWorkList = []
  calling : group.hookThread = .calling → group.completedWorkList ≠ []

section Leaving

variable {self : Group}

theorem hookSteps_add (first second : Nat) (self : Group) :
    hookSteps (first + second) self = (hookSteps first self).bind (hookSteps second) := by
  induction first generalizing self with
  | zero => rw [Nat.zero_add]; rfl
  | succ first ih =>
    rw [Nat.succ_add]
    change (runHookLoop .returns self).bind (hookSteps (first + second)) =
      ((runHookLoop .returns self).bind (hookSteps first)).bind (hookSteps second)
    cases runHookLoop .returns self with
    | none => rfl
    | some later => exact ih later

theorem hookSteps_calling (rest : List Work) : ∀ {self : Group} {work : Work},
    self.hookThread = .calling → self.completedWorkList = work :: rest →
    ∃ later, hookSteps (rest.length + 1) self = some later ∧ later.hookThread = .polling true ∧
      later.completedWorkList = [] ∧ later.terminateProcessGroup = self.terminateProcessGroup ∧
      (∀ id ∈ self.handed, id ∈ later.handed) ∧
      ∀ work ∈ self.completedWorkList, work.id ∈ later.handed := by
  induction rest with
  | nil =>
    intro self work calling listed
    refine ⟨nextWork (handOver work [] self), ?_, rfl, rfl, rfl,
      fun id member => mem_cons_of_mem _ member, ?_⟩
    · simp only [length_nil, hookSteps, runHookLoop, calling, listed]
      rfl
    · rw [listed]
      exact forall_mem_singleton.mpr (.head _)
  | cons next rest ih =>
    intro self work calling listed
    have goes : runHookLoop .returns self =
        some (nextWork (handOver work (next :: rest) self)) := by
      simp only [runHookLoop, calling, listed]
    have calls : (nextWork (handOver work (next :: rest) self)).hookThread = .calling := rfl
    obtain ⟨later, runs, polling, empty, terminated, kept, handed⟩ := ih calls rfl
    refine ⟨later, ?_, polling, empty, terminated, fun id member => kept id (.tail _ member), ?_⟩
    · change (runHookLoop .returns self).bind (hookSteps (rest.length + 1)) = _
      rw [goes]
      exact runs
    · rw [listed]
      exact forall_mem_cons.mpr ⟨kept work.id (.head _), handed⟩

theorem hookSteps_waiting (self : Group) (terminated : self.terminateProcessGroup = true)
    (waiting : self.hookThread = .waiting) :
    ∃ steps later, hookSteps steps self = some later ∧ later.hookThread = .left ∧
      later.completedWorkList = [] ∧ (∀ id ∈ self.handed, id ∈ later.handed) ∧
      ∀ work ∈ self.completedWorkList, work.id ∈ later.handed := by
  have goes : runHookLoop .returns self = some (nextWork self) := by
    simp only [runHookLoop, waiting]
  have leaves : ∀ {polled : Group}, polled.hookThread = .polling true →
      polled.terminateProcessGroup = true → hookSteps 1 polled = some (setHookThread .left polled) := by
    intro polled polling ends
    simp only [hookSteps, runHookLoop, polling, ends, Bool.and_self, if_true]
    rfl
  cases listed : self.completedWorkList with
  | nil =>
    have polls : (nextWork self).hookThread = .polling true := by
      simp [nextWork, setHookThread, listed]
    refine ⟨2, setHookThread .left (nextWork self), ?_, rfl, listed, fun _ => id, by simp⟩
    change (runHookLoop .returns self).bind (hookSteps 1) = _
    rw [goes]
    exact leaves polls terminated
  | cons work rest =>
    have calls : (nextWork self).hookThread = .calling := by
      simp [nextWork, setHookThread, listed]
    obtain ⟨polled, runs, polling, empty, same, kept, handed⟩ := hookSteps_calling rest calls listed
    refine ⟨1 + (rest.length + 1) + 1, setHookThread .left polled, ?_, rfl, empty, kept, ?_⟩
    · rw [hookSteps_add, hookSteps_add]
      change ((((runHookLoop .returns self).bind (hookSteps 0))).bind _).bind _ = _
      rw [goes]
      change (hookSteps (rest.length + 1) (nextWork self)).bind _ = _
      rw [runs]
      exact leaves polling (same.trans terminated)
    · rw [← listed]
      exact handed

theorem hookSteps_leaves {finished : List Nat} (handing : self.Handing finished)
    (terminated : self.terminateProcessGroup = true) (here : self.hookThread ≠ .absent) :
    ∃ steps later, hookSteps steps self = some later ∧ later.hookThread = .left ∧
      later.completedWorkList = [] ∧ (∀ id ∈ self.handed, id ∈ later.handed) ∧
      ∀ work ∈ self.completedWorkList, work.id ∈ later.handed := by
  cases stage : self.hookThread with
  | absent => exact absurd stage here
  | left =>
    have empty := (handing.left stage).2
    exact ⟨0, self, rfl, stage, empty, fun _ => id, by simp [empty]⟩
  | waiting => exact hookSteps_waiting self terminated stage
  | polling done =>
    cases done with
    | true =>
      have empty := handing.polled stage terminated
      refine ⟨1, setHookThread .left self, ?_, rfl, empty, fun _ => id, by simp [empty]⟩
      simp only [hookSteps, runHookLoop, stage, terminated, Bool.and_self, if_true]
      rfl
    | false =>
      obtain ⟨steps, later, runs, rest⟩ :=
        hookSteps_waiting (setHookThread .waiting self) terminated rfl
      refine ⟨steps + 1, later, ?_, rest⟩
      change (runHookLoop .returns self).bind (hookSteps steps) = _
      have goes : runHookLoop .returns self = some (setHookThread .waiting self) := by
        simp only [runHookLoop, stage, Bool.false_and, Bool.false_eq_true, if_false]
      rw [goes]
      exact runs
  | calling =>
    obtain ⟨work, rest, listed⟩ := exists_cons_of_ne_nil (handing.calling stage)
    obtain ⟨polled, runs, polling, empty, same, kept, handed⟩ := hookSteps_calling rest stage listed
    refine ⟨rest.length + 1 + 1, setHookThread .left polled, ?_, rfl, empty, kept, handed⟩
    rw [hookSteps_add, runs]
    change (runHookLoop .returns polled).bind (hookSteps 0) = _
    have goes : runHookLoop .returns polled = some (setHookThread .left polled) := by
      simp only [runHookLoop, polling, same, terminated, Bool.and_self, if_true]
    rw [goes]
    rfl

theorem Group.Handing.handedOnce {world : World} (handing : self.Handing world.finished) :
    HandedOnce world self := by
  have once : (self.completedWorkList.map (·.id) ++ self.handed).Nodup :=
    handing.moved.nodup_iff.mpr handing.once
  obtain ⟨_, handedOnce, apart⟩ := nodup_append.mp once
  have moved : ∀ id ∈ self.completed, id ∈ self.handed ∨
      ∃ work ∈ self.completedWorkList, work.id = id := by
    intro id member
    rcases mem_append.mp (handing.moved.mem_iff.mpr member) with listed | handed
    · exact .inr (mem_map.mp listed)
    · exact .inl handed
  constructor
  · exact handedOnce
  · exact fun id member => handing.moved.mem_iff.mp (mem_append_right _ member)
  · exact moved
  · exact fun work member handed => apart _ (mem_map_of_mem member) _ handed rfl
  · exact handing.left
  · intro terminated here
    obtain ⟨steps, later, runs, left, empty, kept, handed⟩ :=
      hookSteps_leaves handing terminated here
    refine ⟨steps, later, runs, left, empty, fun id member => ?_⟩
    rcases moved id member with old | ⟨work, listed, rfl⟩
    · exact kept id old
    · exact handed work listed
  · intro returns work member
    simp only [waitForPendingWorks, Bool.and_eq_true, List.isEmpty_iff] at returns
    obtain ⟨⟨_, noneListed⟩, noneWaiting⟩ := returns
    rcases handing.retired work member with listed | ⟨finished, completed | unhooked⟩
    · rw [noneListed] at listed
      cases listed
    · refine ⟨finished, .inl ?_⟩
      rcases moved work.id completed with handed | ⟨_, waiting, _⟩
      · exact handed
      · rw [noneWaiting] at waiting
        cases waiting
    · exact ⟨finished, .inr unhooked⟩

end Leaving

section Keeping

variable {self : Group} {finished : List Nat} {world after : World} {thread group : Nat}

def Group.hooks (self : Group) : Group where
  terminateProcessGroup := self.terminateProcessGroup
  workMetaList := self.workMetaList
  completedWorkList := self.completedWorkList
  watchdog := self.watchdog
  hookThread := self.hookThread
  enqueued := self.enqueued
  completed := self.completed
  unhooked := self.unhooked
  handed := self.handed

theorem handing_hooks (self : Group) : self.hooks.Handing finished ↔ self.Handing finished :=
  ⟨fun ⟨a, b, c, d, e, f, g, h⟩ => ⟨a, b, c, d, e, f, g, h⟩,
    fun ⟨a, b, c, d, e, f, g, h⟩ => ⟨a, b, c, d, e, f, g, h⟩⟩

section

variable (handing : self.Handing finished)
include handing

variable {later : Group} {work : Work}

theorem Group.Handing.congr (same : later.hooks = self.hooks) : later.Handing finished :=
  (handing_hooks later).mp (same ▸ (handing_hooks self).mpr handing)

theorem Group.Handing.finish {more : List Nat} (grows : finished ⊆ more) : self.Handing more where
  once := handing.once
  moved := handing.moved
  gone := handing.gone
  stage := fun it work stage found => grows (handing.stage it work stage found)
  retired := fun work member => (handing.retired work member).imp_right fun rest =>
    ⟨grows rest.1, rest.2⟩
  left := handing.left
  polled := handing.polled
  calling := handing.calling

theorem Group.Handing.emplace (fresh : ∀ member ∈ self.enqueued, member.id ≠ work.id)
    (unlocked : self.watchdog.holdsLock = false) : (emplaceBack work self).Handing finished where
  once := handing.once
  moved := handing.moved
  gone := fun id member => by
    obtain ⟨⟨old, enqueued, rfl⟩, gone⟩ := handing.gone id member
    refine ⟨⟨old, mem_cons_of_mem _ enqueued, rfl⟩, fun partner there => ?_⟩
    rcases mem_append.mp there with listed | new
    · exact gone partner listed
    · rw [mem_singleton.mp new]
      exact Ne.symm (fresh old enqueued)
  stage := fun it partner stage => by
    rcases stage with now | now
    · rw [show self.watchdog = _ from now] at unlocked
      cases unlocked
    · rw [show self.watchdog = _ from now] at unlocked
      cases unlocked
  retired := fun partner member => by
    rcases mem_cons.mp member with rfl | old
    · exact .inl (mem_append_right _ (.head _))
    · exact (handing.retired partner old).imp_left fun listed => mem_append_left _ listed
  left := handing.left
  polled := handing.polled
  calling := handing.calling

theorem Group.Handing.moves
    (same : ({ later with watchdog := self.watchdog } : Group).hooks = self.hooks)
    (stage : ∀ it work, later.watchdog = .reset it ∨ later.watchdog = .retired it →
      self.workMetaList[it]? = some work → work.id ∈ finished) : later.Handing finished := by
  have kept : ({ later with watchdog := self.watchdog } : Group).Handing finished :=
    handing.congr same
  have list : later.workMetaList = self.workMetaList := by
    have lists := congrArg Group.workMetaList same
    exact lists
  refine ⟨kept.once, kept.moved, kept.gone, fun it work now found => ?_, kept.retired, kept.left,
    kept.polled, kept.calling⟩
  rw [list] at found
  exact stage it work now found

theorem Group.Handing.cleanUp {it : Nat}
    (stage : self.watchdog = .retired it) (found : self.workMetaList[it]? = some work)
    (enqueued : work ∈ self.enqueued)
    (erased : ∀ member ∈ self.workMetaList.eraseIdx it, member.id ≠ work.id)
    (permitted : self.onCompletionHook = true → self.hookThread ≠ .left ∧
      (self.hookThread = .polling true → self.terminateProcessGroup = false)) :
    (cleanUp work it self).Handing finished := by
  have member : work ∈ self.workMetaList := mem_of_getElem? found
  have new : work.id ∉ self.completed := fun old => (handing.gone work.id old).2 work member rfl
  have done : work.id ∈ finished := handing.stage it work (.inr stage) found
  have smaller : ∀ partner ∈ (Distributed.cleanUp work it self).workMetaList,
      partner ∈ self.workMetaList := fun partner there => mem_of_mem_eraseIdx there
  have stages : ∀ place partner, (Distributed.cleanUp work it self).watchdog = .reset place ∨
      (Distributed.cleanUp work it self).watchdog = .retired place →
      (Distributed.cleanUp work it self).workMetaList[place]? = some partner →
      partner.id ∈ finished := by
    rintro place partner (now | now)
    · cases now
    · cases now
  cases hook : self.onCompletionHook with
  | false =>
    have same : (Distributed.cleanUp work it self).completed = self.completed ∧
        (Distributed.cleanUp work it self).completedWorkList = self.completedWorkList ∧
        (Distributed.cleanUp work it self).unhooked = work.id :: self.unhooked := by
      simp [Distributed.cleanUp, hook]
    obtain ⟨completed, list, unhooked⟩ := same
    refine ⟨completed ▸ handing.once, by rw [list, completed]; exact handing.moved, ?_, stages, ?_,
      by rw [list]; exact handing.left, by rw [list]; exact handing.polled,
      by rw [list]; exact handing.calling⟩
    · rw [completed]
      exact fun id old => ⟨(handing.gone id old).1,
        fun partner there => (handing.gone id old).2 partner (smaller partner there)⟩
    · rw [completed, unhooked]
      intro partner there
      rcases handing.retired partner there with listed | ⟨ended, rest⟩
      · rcases mem_eraseIdx_or found listed with rfl | stays
        · exact .inr ⟨done, .inr (.head _)⟩
        · exact .inl stays
      · exact .inr ⟨ended, rest.imp_right (mem_cons_of_mem _)⟩
  | true =>
    obtain ⟨running, polling⟩ := permitted hook
    have same : (Distributed.cleanUp work it self).completed = work.id :: self.completed ∧
        (Distributed.cleanUp work it self).completedWorkList = self.completedWorkList ++ [work] ∧
        (Distributed.cleanUp work it self).unhooked = self.unhooked := by
      simp [Distributed.cleanUp, hook]
    obtain ⟨completed, list, unhooked⟩ := same
    refine ⟨?_, ?_, ?_, stages, ?_, fun left => absurd left running, fun now terminated => ?_, ?_⟩
    · rw [completed]
      exact nodup_cons.mpr ⟨new, handing.once⟩
    · rw [completed, list, map_append, append_assoc]
      exact perm_middle.trans (handing.moved.cons work.id)
    · rw [completed]
      intro id there
      rcases mem_cons.mp there with rfl | old
      · exact ⟨⟨work, enqueued, rfl⟩, erased⟩
      · exact ⟨(handing.gone id old).1,
          fun partner here => (handing.gone id old).2 partner (smaller partner here)⟩
    · rw [completed, unhooked]
      intro partner there
      rcases handing.retired partner there with listed | ⟨ended, rest⟩
      · rcases mem_eraseIdx_or found listed with rfl | stays
        · exact .inr ⟨done, .inl (.head _)⟩
        · exact .inl stays
      · exact .inr ⟨ended, rest.imp_left (mem_cons_of_mem _)⟩
    · have runs := polling now
      rw [show self.terminateProcessGroup = true from terminated] at runs
      cases runs
    · rw [list]
      simp

theorem Group.Handing.hooked {outcome : HookOutcome} (hooked : Hooked self outcome later)
    (returns : self.hookThread = .calling → outcome = .returns) : later.Handing finished := by
  have next : ∀ {before : Group}, before.completed.Nodup →
      (before.completedWorkList.map (·.id) ++ before.handed).Perm before.completed →
      before.completed = self.completed → before.enqueued = self.enqueued →
      before.workMetaList = self.workMetaList → before.watchdog = self.watchdog →
      before.unhooked = self.unhooked → (nextWork before).Handing finished := by
    intro before once moved completed enqueued list watchdog unhooked
    refine ⟨once, moved, ?_, ?_, ?_, ?_, ?_, ?_⟩
    · change ∀ id ∈ before.completed, (∃ work ∈ before.enqueued, work.id = id) ∧
        ∀ work ∈ before.workMetaList, work.id ≠ id
      rw [completed, enqueued, list]
      exact handing.gone
    · change ∀ (it : Nat) (work : Work), before.watchdog = .reset it ∨ before.watchdog = .retired it →
        before.workMetaList[it]? = some work → work.id ∈ finished
      rw [watchdog, list]
      exact handing.stage
    · change ∀ work ∈ before.enqueued, work ∈ before.workMetaList ∨
        work.id ∈ finished ∧ (work.id ∈ before.completed ∨ work.id ∈ before.unhooked)
      rw [enqueued, list, completed, unhooked]
      exact handing.retired
    · change (if before.completedWorkList.isEmpty then _ else _) = _ → _
      split <;> nofun
    · change (if before.completedWorkList.isEmpty then _ else _) = _ → _ →
        before.completedWorkList = []
      split
      · next empty => exact fun _ _ => isEmpty_iff.mp empty
      · nofun
    · change (if before.completedWorkList.isEmpty then _ else _) = _ → before.completedWorkList ≠ []
      split
      · nofun
      · next some_ => exact fun _ empty => some_ (isEmpty_iff.mpr empty)
  cases hooked with
  | leaves stage terminated =>
    have empty := handing.polled stage terminated
    exact ⟨handing.once, handing.moved, handing.gone, handing.stage, handing.retired,
      fun _ => ⟨terminated, empty⟩, nofun, nofun⟩
  | polls =>
    exact ⟨handing.once, handing.moved, handing.gone, handing.stage, handing.retired, nofun, nofun,
      nofun⟩
  | wakes => exact next handing.once handing.moved rfl rfl rfl rfl rfl
  | @returns work rest _ listed =>
    refine next handing.once ?_ rfl rfl rfl rfl rfl
    have moved := handing.moved
    rw [listed] at moved
    exact perm_middle.trans moved
  | throws stage => exact absurd (returns stage) (by simp)
  | unprepared stage => exact absurd (returns stage) (by simp)

end

def Handing (world : World) : Prop := ∀ group, (world.groups group).Handing world.finished

section

variable (handing : Handing world)
include handing

theorem Handing.congr (finished : after.finished = world.finished)
    (hooks : ∀ group, (after.groups group).hooks = (world.groups group).hooks) : Handing after :=
  fun group => finished ▸ (handing group).congr (hooks group)

theorem Handing.works (same : after.works = world.works) : Handing after :=
  handing.congr (read_of_works World.finished (fun _ => rfl) same)
    (group_of_works Group.hooks (fun _ => rfl) same)

theorem Handing.modifyGroup {change : Group → Group}
    (keeps : (change (world.groups group)).Handing world.finished) :
    Handing (world.modifyGroup group change) := by
  intro other
  by_cases same : other = group
  · rw [same, World.modifyGroup_same]
    exact keeps
  · rw [World.modifyGroup_other _ same]
    exact handing other

theorem Handing.ran {fate : Fate} {call : Call} {next : Section} {rest : List Section}
    {outcome : Option Call} {final : World} (orderly : Orderly world)
    (found : world.calls thread = some call) (left : call.rest = next :: rest)
    (ran : Ran world fate { call with rest } next outcome final) : Handing final := by
  have ok := orderly.ok thread call found
  cases ran with
  | closed same => exact handing.works same.works
  | notClosed same => exact handing.works same.works
  | charged => exact handing.modifyGroup ((handing _).congr rfl)
  | @emplaced work has _ unlocked =>
    refine handing.modifyGroup ((handing _).emplace (fun member enqueued agree => ?_) unlocked)
    refine ok.placed call.group member enqueued (agree.trans (ok.own work has)) ?_
    rw [left]
    exact .head _
  | reset => exact handing.modifyGroup ((handing _).congr rfl)
  | _ => exact handing

theorem Handing.watched {queries : Queries} (orderly : Orderly world)
    (allowed : KeepsHooks world (.watchdog group queries))
    (watched : Watched world group queries after) : Handing after := by
  have here := handing group
  cases watched with
  | wakes => exact handing.modifyGroup (here.moves rfl (by simp [setWatchdog]))
  | ends =>
    refine handing.modifyGroup (here.moves rfl fun it work now => ?_)
    unfold endPass at now
    split at now
    · simp at now
    · simp at now
  | completes _ found done =>
    refine handing.modifyGroup (here.moves rfl ?_)
    rintro it work (now | now) at_
    · obtain rfl := Watchdog.reset.inj now
      obtain rfl := Option.mem_unique found at_
      exact done
    · cases now
  | passes => exact handing.modifyGroup (here.moves rfl (by simp [setWatchdog]))
  | @retires it work recorder stage found =>
    have kept : Handing { world with recorder } := handing
    refine kept.modifyGroup (here.moves rfl ?_)
    rintro place partner (now | now) at_
    · cases now
    · obtain rfl := Watchdog.retired.inj now
      exact here.stage it partner (.inl stage) at_
  | throws => exact handing.modifyGroup (here.moves rfl (by simp [setWatchdog]))
  | @removes it work stage found =>
    have member : work ∈ (world.groups group).workMetaList := mem_of_getElem? found
    exact handing.modifyGroup (here.cleanUp stage found
      (mem_reverse.mp ((orderly.listed group).subset member))
      (fun _ => orderly.erased found) (allowed it stage))
  | @lowers work it =>
    have kept : Handing (world.lowered work) := handing
    exact kept.modifyGroup (here.moves rfl (by simp [setWatchdog]))
  | asserts => exact handing.modifyGroup (here.moves rfl (by simp [setWatchdog]))

end

theorem Initial.handing (initial : Initial world) : Handing world := by
  intro group
  obtain ⟨_, _, _, _, made⟩ := initial.groups group
  rw [made]
  exact ⟨nodup_nil, .refl _, by simp, by simp, by simp, nofun, nofun, nofun⟩

theorem Handing.step {action : Action} (handing : Handing world) (orderly : Orderly world)
    (allowed : KeepsHooks world action) (stepped : Stepped world action after) : Handing after := by
  cases stepped with
  | made _ made =>
    have kept := handing.works made.works
    exact kept
  | notMade _ same =>
    have kept := handing.works same.works
    exact kept
  | ran found left ran =>
    have kept := handing.ran orderly found left ran
    exact kept
  | started same => exact handing.works same.works
  | entered same => exact handing.works same.works
  | exited same => exact handing.works same.works
  | added => exact handing.modifyGroup ((handing _).congr rfl)
  | finished => exact fun group => (handing group).finish (subset_cons_self _ _)
  | watched watched => exact handing.watched orderly allowed watched
  | @registered group =>
    have here := handing group
    exact handing.modifyGroup ⟨here.once, here.moved, here.gone, here.stage, here.retired, nofun,
      nofun, nofun⟩
  | hooked hooked => exact handing.modifyGroup ((handing _).hooked hooked allowed)
  | @terminated group =>
    have here := handing group
    exact handing.modifyGroup ⟨here.once, here.moved, here.gone, here.stage, here.retired,
      fun left => ⟨rfl, (here.left left).2⟩, fun polling _ => allowed polling, here.calling⟩
  | checked => exact handing
  | began => exact handing
  | ended => exact handing

theorem hooks_handedOnce (world : World) (reached : process.Reachable KeepsHooks world)
    (group : Nat) : HandedOnce world (world.groups group) := by
  have start : ∀ world, process.initial world → Orderly world ∧ Handing world :=
    fun _ initial => ⟨initial.orderly, initial.handing⟩
  have keeps : ∀ before action after, Orderly before ∧ Handing before →
      KeepsHooks before action → process.step before action after →
      Orderly after ∧ Handing after := by
    intro before action after ⟨orderly, handing⟩ allowed taken
    have stepped := stepped_of_step taken
    exact ⟨orderly.step stepped, handing.step orderly allowed stepped⟩
  exact ((reached.invariant start keeps).2 group).handedOnce

def keepsHooks (world : World) : Action → Bool
  | .hookThread _ outcome => outcome == .returns
  | .watchdog group _ => (world.groups group).hookThread != .left &&
      ((world.groups group).hookThread != .polling true ||
        !(world.groups group).terminateProcessGroup)
  | .terminate group => (world.groups group).hookThread != .polling true
  | _ => true

theorem keepsHooks_of_pass (world : World) (action : Action)
    (passes : keepsHooks world action = true) : KeepsHooks world action := by
  cases action with
  | hookThread group outcome => exact fun _ => by simpa [keepsHooks] using passes
  | watchdog group queries =>
    intro it _ _
    simp only [keepsHooks, Bool.and_eq_true, Bool.or_eq_true, bne_iff_ne, ne_eq,
      Bool.not_eq_true'] at passes
    exact ⟨passes.1, fun polling => passes.2.resolve_left fun other => other polling⟩
  | terminate group =>
    exact fun polling => absurd polling (by simpa [keepsHooks] using passes)
  | _ => trivial

def bothHanded : World :=
  finalWorld keepsHooks (startWorld false true 0)
    [.registerOnCompletionHook 0, .begin 0 0 (.collective 0 .allreduce) {}, .proceed 0 {},
      .proceed 0 {}, .proceed 0 {}, .proceed 0 {}, .proceed 0 {},
      .begin 0 0 (.collective 0 .allreduce) {}, .proceed 0 {}, .proceed 0 {}, .proceed 0 {},
      .proceed 0 {}, .proceed 0 {}, .finish 1, .finish 0, .watchdog 0 allDone, .watchdog 0 allDone,
      .watchdog 0 allDone, .watchdog 0 allDone, .watchdog 0 allDone, .hookThread 0 .returns,
      .hookThread 0 .returns, .watchdog 0 allDone, .watchdog 0 allDone, .watchdog 0 allDone,
      .watchdog 0 allDone, .terminate 0, .hookThread 0 .returns, .hookThread 0 .returns,
      .hookThread 0 .returns]

theorem hooks_handedOnce_sample : HandedOnce bothHanded (bothHanded.groups 0) ∧
    (bothHanded.groups 0).handed = [1, 0] ∧ (bothHanded.groups 0).hookThread = .left :=
  ⟨hooks_handedOnce _ (reachable_finalWorld (startWorld_initial _ _ _) _ (by decide +kernel)
    keepsHooks_of_pass) 0, by decide +kernel, by decide +kernel⟩

def handedTwice : World :=
  finalWorld (fun _ _ => true) (startWorld false true 0)
    [.registerOnCompletionHook 0, .begin 0 0 (.collective 0 .allreduce) {}, .proceed 0 {},
      .proceed 0 {}, .proceed 0 {}, .proceed 0 {}, .proceed 0 {}, .finish 0, .watchdog 0 allDone,
      .watchdog 0 allDone, .watchdog 0 allDone, .watchdog 0 allDone, .watchdog 0 allDone,
      .hookThread 0 .returns, .hookThread 0 .returns, .hookThread 0 .throws,
      .hookThread 0 .returns, .hookThread 0 .returns, .hookThread 0 .returns]

theorem hooks_not_handedOnce : ¬ ∀ world, process.Reachable (fun _ _ => True) world →
    ∀ group, HandedOnce world (world.groups group) := by
  intro all
  have handed := all handedTwice (reachable_finalWorld (startWorld_initial _ _ _) _
    (by decide +kernel) fun _ _ _ => trivial) 0
  exact absurd handed.once (by decide +kernel)

end Keeping

end TorchSupa.Distributed
