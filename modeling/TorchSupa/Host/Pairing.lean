import TorchSupa.Host.Partition

/-!
The API that `empty_cache` releases a block with, and the setting it is read from.
-/

namespace TorchSupa.Host

open Allocator Interleaving Outcome Option

theorem apiOf_inj {first second : Bool} : apiOf first = apiOf second ↔ first = second := by
  cases first <;> cases second <;> simp [apiOf]

structure Tagged (releases : List Release) (world : World) : Prop where
  made : ∀ id block, world.heap.get? id = some block → block.madeWith = apiOf block.setting
  same : world.releases = releases

section Sections

variable {releases : List Release}

theorem keeps_updateBlock (block : BlockId) (change : Block → Block)
    (setting : ∀ self, (change self).setting = self.setting)
    (madeWith : ∀ self, (change self).madeWith = self.madeWith) :
    Keeps (Tagged releases) Exn.Fatal (updateBlock block change) := by
  refine Keeps.modify fun world tagged => ⟨fun id self found => ?_, tagged.same⟩
  rcases Store.of_get?_modify found with ⟨_, old, there, rfl⟩ | ⟨_, there⟩
  · rw [setting, madeWith]
    exact tagged.made id old there
  · exact tagged.made id self there

open Keeps

theorem keeps_ensure (condition : Bool) (otherwise : Exn) :
    Keeps (Tagged releases) Exn.Fatal (ensure condition otherwise) := by
  exact Keeps.ite (pure _) (throw _)

theorem keeps_get : Keeps (Tagged releases) Exn.Fatal (get : HostM World) := fun _ tagged => tagged

theorem keeps_getBlock (block : BlockId) : Keeps (Tagged releases) Exn.Fatal (getBlock block) := by
  refine Keeps.bind keeps_get fun world => ?_
  cases world.heap.get? block with
  | none => exact throw _
  | some self => exact pure _

theorem keeps_modify {change : World → World} (heap : ∀ world, (change world).heap = world.heap)
    (same : ∀ world, (change world).releases = world.releases) :
    Keeps (Tagged releases) Exn.Fatal (modify change : HostM PUnit) := by
  refine Keeps.modify fun world tagged => ⟨fun id self found => ?_, ?_⟩
  · rw [heap] at found
    exact tagged.made id self found
  · rw [same]
    exact tagged.same

theorem keeps_allocateNew (answers : Answers) (size : Nat) :
    Keeps (Tagged releases) Exn.Fatal (allocateNew answers size) := by
  intro world tagged
  refine bind_read (wp_seq _ (wp_mono (allocatePinned_spec answers _ world)
    (fun _ _ made => made) ?_) ?_)
  · rintro exception after ⟨rfl, _⟩
    exact .inr tagged
  · rintro ⟨ptr, madeWith⟩ after ⟨rfl, _, rfl⟩
    refine bind_read (bind_write ⟨fun id self found => ?_, tagged.same⟩)
    rw [Store.get?_push] at found
    split at found
    · rw [← some.inj found]
    · exact tagged.made id self found

theorem keeps_examineEvent (answers : Answers) (loop : Loop) (event : Event) (block : BlockId) :
    Keeps (Tagged releases) Exn.Fatal (examineEvent answers loop event block) := by
  refine Keeps.ite (pure _) (Keeps.bind (keeps_getBlock block) fun self => ?_)
  refine Keeps.ite (pure _) (Keeps.bind ?_ fun ready => ?_)
  · exact Keeps.bind (keeps_ensure _ _) fun _ => Keeps.bind keeps_get fun _ => pure _
  · exact Keeps.ite (pure _) (Keeps.ite (pure _) (pure _))

theorem keeps_section (place : Operation) (answers : Answers)
    (other : ∀ block rest, place ≠ .releaseBlocks (block :: rest)) :
    Keeps (Tagged releases) Exn.Fatal (place.section answers) := by
  cases place with
  | idle => exact pure _
  | allocateFromFreeList size =>
    refine Keeps.bind keeps_get fun world => ?_
    cases world.lowerBound size with
    | none => exact pure _
    | some block =>
      refine Keeps.bind (keeps_updateBlock block _ (fun _ => rfl) fun _ => rfl) fun _ => ?_
      exact Keeps.bind (keeps_modify (fun _ => rfl) fun _ => rfl) fun _ => pure _
  | allocateNew size => exact keeps_allocateNew answers size
  | insertNew block =>
    refine Keeps.bind (keeps_getBlock block) fun self => ?_
    exact Keeps.bind (keeps_modify (fun _ => rfl) fun _ => rfl) fun _ => pure _
  | freeBlock block =>
    refine Keeps.bind (keeps_updateBlock block _ (fun _ => rfl) fun _ => rfl) fun _ => ?_
    refine Keeps.bind (keeps_getBlock block) fun self => ?_
    refine Keeps.ite (Keeps.bind (keeps_ensure _ _) fun _ => pure _) ?_
    exact Keeps.bind (keeps_updateBlock block _ (fun _ => rfl) fun _ => rfl) fun _ => pure _
  | recordStreams block streams events =>
    cases streams with
    | nil => exact pure _
    | cons stream rest =>
      refine Keeps.bind (keeps_ensure _ _) fun _ => Keeps.bind keeps_get fun world => ?_
      refine Keeps.bind (keeps_modify (fun _ => rfl) fun _ => rfl) fun _ => ?_
      exact Keeps.bind (keeps_updateBlock block _ (fun _ => rfl) fun _ => rfl) fun _ =>
        pure _
  | insertFreed block => exact Keeps.bind (keeps_modify (fun _ => rfl) fun _ => rfl) fun _ => pure _
  | publishEvents block events =>
    exact Keeps.bind (keeps_modify (fun _ => rfl) fun _ => rfl) fun _ => pure _
  | countEvents size caller => exact Keeps.bind keeps_get fun _ => pure _
  | popEvent loop =>
    refine Keeps.bind keeps_get fun world => ?_
    cases world.supaEvents.getLast? with
    | none => exact pure _
    | some entry => exact Keeps.bind (keeps_modify (fun _ => rfl) fun _ => rfl) fun _ => pure _
  | examineEvent loop event block => exact keeps_examineEvent answers loop event block
  | pushFront loop event block last =>
    exact Keeps.bind (keeps_modify (fun _ => rfl) fun _ => rfl) fun _ => pure _
  | pushBack loop event block =>
    exact Keeps.bind (keeps_modify (fun _ => rfl) fun _ => rfl) fun _ => pure _
  | countDown loop event block =>
    refine Keeps.bind (keeps_getBlock block) fun self => Keeps.bind (keeps_ensure _ _) fun _ => ?_
    exact Keeps.bind (keeps_updateBlock block _ (fun _ => rfl) fun _ => rfl) fun _ => pure _
  | insertProcessed loop block =>
    exact Keeps.bind (keeps_modify (fun _ => rfl) fun _ => rfl) fun _ => pure _
  | takeFreeList =>
    refine Keeps.bind keeps_get fun world => ?_
    exact Keeps.bind (keeps_modify (fun _ => rfl) fun _ => rfl) fun _ => pure _
  | releaseBlocks blocks =>
    cases blocks with
    | nil => exact Keeps.bind (keeps_modify (fun _ => rfl) fun _ => rfl) fun _ => pure _
    | cons block rest => exact absurd rfl (other block rest)

def releaseOf (world : World) (block : BlockId) (self : Block) : Release :=
  ⟨block, self.madeWith, apiOf world.pinnedUseSupaHostRegister⟩

theorem releaseBlocks_logs {world : World} (answers : Answers) {block : BlockId} {self : Block}
    (rest : List BlockId) (tagged : Tagged releases world)
    (found : world.heap.get? block = some self) :
    wp (releaseBlocks answers (block :: rest))
      (fun _ after => Tagged (releaseOf world block self :: releases) after)
      (fun _ after => Tagged (releaseOf world block self :: releases) after) world := by
  have log : releaseOf world block self :: world.releases =
      releaseOf world block self :: releases := by
    rw [tagged.same]
  refine bind_getBlock found (bind_write (bind_read (bind_write ?_)))
  change wp (if answers.released (apiOf world.pinnedUseSupaHostRegister) = true then _ else _) _ _ _
  cases answers.released (apiOf world.pinnedUseSupaHostRegister) with
  | true =>
    refine bind_write ⟨fun id other there => ?_, log⟩
    rw [Store.get?_erase] at there
    split at there
    · simp at there
    · exact tagged.made id other there
  | false => exact bind_write ⟨tagged.made, log⟩

end Sections

section Runs

def Paired (world : World) : Prop := ∀ release ∈ world.releases, release.releasedWith = release.madeWith

/-- When `empty_cache` reaches a block, the setting is what `allocate` read for the block. -/
def Steady (state : State) (label : Nat × Action) : Prop :=
  match state.place label.1, label.2 with
  | .releaseBlocks (block :: _), .proceed _ => ∀ self, state.shared.heap.get? block = some self →
      self.setting = state.shared.pinnedUseSupaHostRegister
  | _, _ => True

theorem keeps_action {releases : List Release} {place : Operation} {action : Action}
    {program : HostM Operation} (run : action.run place = some program)
    (other : ∀ block rest answers, ¬ (place = .releaseBlocks (block :: rest) ∧
      action = .proceed answers)) : Keeps (Tagged releases) Exn.Fatal program := by
  cases Action.runs run with
  | proceed _ answers =>
    exact keeps_section place answers fun block rest here => other block rest answers ⟨here, rfl⟩
  | complete _ event =>
    exact Keeps.bind (keeps_modify (fun _ => rfl) fun _ => rfl) fun _ => Keeps.pure _
  | allocate size => exact Keeps.pure _
  | nothing => exact Keeps.pure _
  | free block =>
    exact Keeps.bind (keeps_modify (fun _ => rfl) fun _ => rfl) fun _ => Keeps.pure _
  | recordEvent ptr ctx stream =>
    refine Keeps.bind keeps_get fun world => ?_
    cases (if world.blocks.contains ctx then some ctx
      else (world.ptrToBlock.find? (·.1 == ptr)).map (·.2)) with
    | none => exact Keeps.pure _
    | some block =>
      refine Keeps.bind (keeps_getBlock block) fun self => Keeps.bind (keeps_ensure _ _) fun _ => ?_
      exact Keeps.bind (keeps_updateBlock block _ (fun _ => rfl) fun _ => rfl) fun _ => Keeps.pure _
  | processEvents size => exact Keeps.pure _
  | emptyCache => exact Keeps.pure _
  | parse config i =>
    refine Keeps.bind (Keeps.bind (keeps_ensure _ _) fun _ => ?_) fun _ => Keeps.pure _
    cases config[i + 2]? with
    | none => exact Keeps.throw _
    | some token =>
      refine Keeps.bind (keeps_ensure _ _) fun _ => ?_
      exact Keeps.bind (keeps_modify (fun _ => rfl) fun _ => rfl) fun _ => Keeps.pure _

theorem Step.releases {world after : World} {place next : Operation} {action : Action}
    (tagged : Tagged world.releases world) (taken : Step world place action after next) :
    (∃ block rest answers self, place = .releaseBlocks (block :: rest) ∧ action = .proceed answers ∧
      world.heap.get? block = some self ∧
      Tagged (releaseOf world block self :: world.releases) after) ∨
    (∀ block rest answers, ¬ (place = .releaseBlocks (block :: rest) ∧ action = .proceed answers)) ∧
      Tagged world.releases after := by
  by_cases releasing : ∃ block rest answers, place = .releaseBlocks (block :: rest) ∧
      action = .proceed answers
  · obtain ⟨block, rest, answers, rfl, rfl⟩ := releasing
    cases found : world.heap.get? block with
    | none =>
      have dangling : releaseBlocks answers (block :: rest) world = .error .undefinedBehaviour world := by
        simp [releaseBlocks, getBlock, run_bind, run_get, found, run_throw]
      cases taken with
      | returns program _ _ run enabled result =>
        rw [← some.inj run] at result
        exact absurd (dangling.symm.trans result) (by simp)
      | throws program exception _ run enabled result survives =>
        rw [← some.inj run] at result
        have same := dangling.symm.trans result
        simp only [EStateM.Result.error.injEq] at same
        rw [← same.1] at survives
        exact absurd trivial survives
    | some self =>
      have spec := releaseBlocks_logs answers rest tagged found
      refine .inl ⟨block, rest, answers, self, rfl, rfl, found, ?_⟩
      cases taken with
      | returns program _ _ run enabled result =>
        rw [← some.inj run] at result
        have logged := wp_ok spec result
        exact logged
      | throws program exception _ run enabled result survives =>
        rw [← some.inj run] at result
        have logged := wp_error spec result
        exact logged
  · have other : ∀ block rest answers, ¬ (place = .releaseBlocks (block :: rest) ∧
        action = .proceed answers) := fun block rest answers here =>
      releasing ⟨block, rest, answers, here⟩
    refine .inr ⟨other, ?_⟩
    cases taken with
    | returns program _ _ run enabled result =>
      have kept := wp_ok (keeps_action run other world tagged) result
      exact kept
    | throws program exception _ run enabled result survives =>
      have kept := wp_error (keeps_action run other world tagged) result
      exact kept.resolve_left survives

theorem reachable_tagged {allowed : State → Nat × Action → Prop} {state : State}
    (reached : hostProgram.interleaved.Reachable allowed state) :
    Tagged state.shared.releases state.shared := by
  induction reached with
  | initial begins =>
    obtain ⟨⟨heap, _⟩, _⟩ := begins
    exact ⟨fun id block found => by simp [heap] at found, rfl⟩
  | step _ _ taken tagged =>
    obtain ⟨next, taken, _⟩ := taken
    rcases Step.releases tagged taken with ⟨_, _, _, _, _, _, _, later⟩ | ⟨_, later⟩
    · exact ⟨later.made, rfl⟩
    · exact ⟨later.made, rfl⟩

theorem step_paired {state after : State} {label : Nat × Action}
    (tagged : Tagged state.shared.releases state.shared) (paired : Paired state.shared)
    (taken : hostProgram.interleaved.step state label after) :
    Paired after.shared ↔ Steady state label := by
  obtain ⟨next, taken, _⟩ := taken
  rcases Step.releases tagged taken with
    ⟨block, rest, answers, self, place, action, found, later⟩ | ⟨other, later⟩
  · have made := tagged.made block self found
    unfold Paired Steady
    rw [later.same, place, action]
    simp only [List.mem_cons, forall_eq_or_imp, releaseOf, made, apiOf_inj]
    constructor
    · rintro ⟨same, _⟩ other alsoFound
      rw [← mem_unique found alsoFound]
      exact same.symm
    · exact fun steady => ⟨(steady self found).symm, paired⟩
  · have steady : Steady state label := by
      unfold Steady
      split
      · rename_i block rest answers place action
        exact absurd ⟨place, action⟩ (other block rest answers)
      · trivial
    unfold Paired
    rw [later.same]
    exact iff_of_true paired steady

/-- While the setting is steady, every block is released with the API that made it; the first
step that is not steady releases a block with the other one. -/
theorem releases_paired (state : State) :
    (hostProgram.interleaved.Reachable Steady state → Paired state.shared) ∧
    ∀ label after, hostProgram.interleaved.Reachable (fun _ _ => True) state →
      Paired state.shared → hostProgram.interleaved.step state label after →
      (Paired after.shared ↔ Steady state label) := by
  refine ⟨fun reached => ?_, fun label after reached paired taken =>
    step_paired (reachable_tagged reached) paired taken⟩
  induction reached with
  | initial begins =>
    obtain ⟨⟨_, _, _, _, _, _, releases, _⟩, _⟩ := begins
    simp [Paired, releases]
  | step before steady taken paired =>
    exact (step_paired (reachable_tagged before) paired taken).mpr steady

def emptyLabels (first second : String) : List (Nat × Action) :=
  (0, .parsePinnedUseSupaHostRegister ["pinned_use_supa_host_register", ":", first] 0) ::
    allocates 0 100 4096 ++ (0, .free (some 0)) :: turns 0 2 ++
    (0, .parsePinnedUseSupaHostRegister ["pinned_use_supa_host_register", ":", second] 0) ::
    (0, .emptyCache) :: turns 0 5

def steadyGuard (state : State) (label : Nat × Action) : Bool :=
  match state.place label.1 with
  | .releaseBlocks (block :: _) => (state.shared.heap.get? block).all fun self =>
    self.setting == state.shared.pinnedUseSupaHostRegister
  | _ => true

theorem releases_paired_sample :
    let final := finalState steadyGuard (emptyLabels "True" "True")
    Paired final.shared ∧ final.shared.releases = [⟨0, .hostRegister, .hostRegister⟩] := by
  refine ⟨(releases_paired _).1 ?_, by decide +kernel⟩
  refine reachable_finalState steadyGuard _ (by decide +kernel) ?_
  rintro state ⟨thread, action⟩ passes _
  unfold Steady
  split
  · rename_i block rest answers place _
    intro self found
    change state.place thread = _ at place
    simp only [steadyGuard, place, found] at passes
    simpa using passes
  · trivial

theorem releases_not_paired : ¬ ∀ state,
    hostProgram.interleaved.Reachable (fun _ _ => True) state → Paired state.shared := by
  intro all
  have reached : hostProgram.interleaved.Reachable (fun _ _ => True)
      (finalState (fun _ _ => true) (emptyLabels "False" "True")) :=
    reachable_finalState _ _ (by decide +kernel) fun _ _ _ _ => trivial
  have released : (finalState (fun _ _ => true) (emptyLabels "False" "True")).shared.releases =
      [⟨0, .hostAlloc, .hostRegister⟩] := by
    decide +kernel
  have paired := all _ reached ⟨0, .hostAlloc, .hostRegister⟩ (by rw [released]; simp)
  exact absurd paired (by decide)

end Runs

end TorchSupa.Host
