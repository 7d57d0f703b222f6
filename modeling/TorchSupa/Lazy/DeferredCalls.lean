import Mathlib.Data.List.Nodup
import Mathlib.Logic.Function.Basic
import TorchSupa.Logic.Transitions

/-!
`_lazy_call` and `_lazy_init`: calls that are put off until the runtime is initialised, in any
interleaving of threads that make and drain them.
-/

namespace TorchSupa.Lazy

open List Nat Function

section Code

abbrev Thread := Nat

/-- A callable by the thread that passes it to `_lazy_call` and the number of that call. -/
abbrev CallId := Thread × Nat

/-- Where `_lazy_init` is in the block of the lock. -/
inductive Stage
  | recheck
  | start
  | mark
  | drain (next : Nat)
  | running (index : Nat)
  | failing
  | finish
  | publish
  | release (normally : Bool)
deriving DecidableEq

/-- What a thread is about to do: code of the user, a step of `_lazy_call` or of `_lazy_init`. -/
inductive Control
  | user
  | testCall
  | append
  | testInit
  | acquire
  | locked
deriving DecidableEq

/-- The callables that a thread is inside, and who has invoked them. -/
inductive Caller
  | immediate (id : CallId)
  | queued (id : CallId)
deriving DecidableEq

def Caller.isQueued : Caller → Bool
  | .immediate _ => false
  | .queued _ => true

structure ThreadState where
  control : Control := .user
  callers : List Caller := []
  calls : Nat := 0
  isInitializing : Bool := false
deriving DecidableEq

structure World where
  initialized : Bool := false
  queuedCalls : List CallId := []
  initializationLock : Option (Thread × Stage) := none
  threads : Thread → ThreadState := fun _ => {}
  /-- ghost: `_supa_init` has returned -/
  runtime : Bool := false
  /-- ghost: the calls that the loop over the queue has invoked -/
  drawn : List CallId := []
  /-- ghost: the calls that `_lazy_call` has invoked -/
  direct : List CallId := []
  /-- ghost: the loop has come to the end of the queue -/
  drained : Bool := false
  /-- ghost: the calls that have been invoked and have returned -/
  ended : List CallId := []
  /-- ghost: the calls whose `_lazy_call` has returned -/
  returned : List CallId := []
  /-- ghost: a `_lazy_init` that did not return for its thread alone -/
  succeeded : Bool := false
  /-- ghost: a `_lazy_init` of another thread has returned before the queue was drained -/
  early : Bool := false

inductive Event
  | lazyCall
  | lazyInit
  | step
  | fails
  | returns
  | raises
deriving DecidableEq

namespace World

def setThread (world : World) (thread : Thread) (state : ThreadState) : World :=
  { world with threads := Function.update world.threads thread state }

/-- `_lazy_init` returns normally. -/
def initReturns (world : World) (thread : Thread) : World :=
  let self := world.threads thread
  { world with
    succeeded := world.succeeded || world.initialized
    early := world.early || !self.isInitializing && !world.queuedCalls.all (· ∈ world.drawn)
  }.setThread thread { self with control := .user }

/-- A step in the block of the lock. -/
def lockedStep (world : World) (thread : Thread) (stage : Stage) : World :=
  let self := world.threads thread
  let goes (stage : Stage) : World := { world with initializationLock := some (thread, stage) }
  match stage with
  | .recheck => goes (if world.initialized then .release true else .start)
  | .start => { goes .mark with runtime := true }
  | .mark => (goes (.drain 0)).setThread thread { self with isInitializing := true }
  | .drain next =>
      match world.queuedCalls[next]? with
      | some id => { goes (.running next) with drawn := world.drawn ++ [id] }.setThread thread
          { self with control := .user, callers := .queued id :: self.callers }
      | none => { goes .finish with drained := true }
  | .running _ => world
  | .failing => (goes (.release false)).setThread thread { self with isInitializing := false }
  | .finish => (goes .publish).setThread thread { self with isInitializing := false }
  | .publish => { goes (.release true) with initialized := true }
  | .release normally =>
      let after := { world with initializationLock := none }
      if normally then after.initReturns thread
      else after.setThread thread { self with control := .user }

/-- A step of `_lazy_call` or `_lazy_init`: a flag, the lock or the queue is read or written. -/
def step (world : World) (thread : Thread) : Option World :=
  let self := world.threads thread
  let id := (thread, self.calls)
  match self.control with
  | .user => none
  | .testCall =>
      if world.initialized then
        some ({ world with direct := world.direct ++ [id] }.setThread thread { self with
          control := .user, callers := .immediate id :: self.callers, calls := self.calls + 1 })
      else some (world.setThread thread { self with control := .append })
  | .append =>
      some ({ world with
        queuedCalls := world.queuedCalls ++ [id], returned := id :: world.returned
      }.setThread thread { self with control := .user, calls := self.calls + 1 })
  | .testInit =>
      if world.initialized ∨ self.isInitializing then some (world.initReturns thread)
      else some (world.setThread thread { self with control := .acquire })
  | .acquire =>
      match world.initializationLock with
      | none => some ({ world with initializationLock := some (thread, .recheck) }.setThread thread
          { self with control := .locked })
      | some _ => none
  | .locked => world.initializationLock.map fun lock => world.lockedStep thread lock.2

/-- A callable returns or raises an exception, and with it what has called it. -/
def leave (world : World) (thread : Thread) (normally : Bool) : Option World :=
  let self := world.threads thread
  match self.callers with
  | [] => none
  | .immediate id :: callers =>
      some ({ world with
        ended := if normally then id :: world.ended else world.ended
        returned := if normally then id :: world.returned else world.returned
      }.setThread thread { self with callers })
  | .queued id :: callers =>
      match world.initializationLock with
      | some (_, .running index) =>
          some ({ world with
            ended := if normally then id :: world.ended else world.ended
            initializationLock :=
              some (thread, if normally then .drain (index + 1) else .failing)
          }.setThread thread { self with control := .locked, callers })
      | _ => none

def next (world : World) (thread : Thread) : Event → Option World
  | .step => world.step thread
  | .fails =>
      if world.initializationLock = some (thread, .start) then
        some { world with initializationLock := some (thread, .release false) }
      else none
  | event =>
      let self := world.threads thread
      if self.control = .user then
        match event with
        | .lazyCall => some (world.setThread thread { self with control := .testCall })
        | .lazyInit => some (world.setThread thread { self with control := .testInit })
        | event => world.leave thread (event = .returns)
      else none

end World

def system : System World (Thread × Event) where
  initial world := world = {}
  step world label after := world.next label.1 label.2 = some after

end Code

section Specification

namespace World

def invoked (world : World) : List CallId := world.drawn ++ world.direct

/-- Once `_lazy_init` has succeeded, each call whose `_lazy_call` has returned was invoked once; the
runtime was initialised before; no other thread was let through before the queue was drained; and no
call that has returned is invoked again. -/
structure Right (world : World) : Prop where
  once : world.succeeded → ∀ id ∈ world.returned, world.invoked.count id = 1
  after : world.invoked ≠ [] → world.runtime
  drained : world.early = false
  again : ∀ id ∈ world.ended, world.invoked.count id ≤ 1

/-- No call is queued behind a loop that has come to the end of the queue, and no queued call
raises an exception. -/
def Allowed (world : World) (label : Thread × Event) : Prop :=
  (label.2 = .step → (world.threads label.1).control = .append → world.drained = false) ∧
    (label.2 = .raises → (world.threads label.1).callers.head?.any Caller.isQueued = false)

instance {world : World} {label : Thread × Event} : Decidable (world.Allowed label) :=
  inferInstanceAs (Decidable (_ ∧ _))

end World

end Specification

section Proof

namespace World

variable {world : World} {thread : Thread}

/-- Nothing is initialised, and the loop has invoked so many of the queued calls. -/
def Begun (world : World) (count : Nat) : Prop :=
  world.initialized = false ∧ world.drained = false ∧ count ≤ world.queuedCalls.length ∧
    world.drawn = world.queuedCalls.take count

def Done (world : World) : Prop :=
  world.runtime = true ∧ world.drained = true ∧ world.drawn = world.queuedCalls

/-- What holds at each place in the block of the lock, and outside of it. -/
def At (world : World) : Option Stage → Prop
  | none | some .recheck | some (.release false) =>
      world.Begun 0 ∨ world.initialized = true ∧ world.Done
  | some .start => world.Begun 0
  | some .mark => world.runtime = true ∧ world.Begun 0
  | some (.drain next) => world.runtime = true ∧ world.Begun next
  | some (.running index) => world.runtime = true ∧ world.Begun (index + 1)
  | some .failing => False
  | some .finish | some .publish => world.Done
  | some (.release true) => world.initialized = true ∧ world.Done

structure Sound (world : World) : Prop where
  place : world.At (world.initializationLock.map Prod.snd)
  fresh : ∀ id ∈ world.queuedCalls ++ world.direct, id.2 < (world.threads id.1).calls
  distinct : (world.queuedCalls ++ world.direct).Nodup
  direct : world.direct ≠ [] → world.initialized = true
  inside : ∀ thread id, .immediate id ∈ (world.threads thread).callers → id ∈ world.direct
  returned : ∀ id ∈ world.returned, id ∈ world.queuedCalls ++ world.direct
  succeeded : world.succeeded = true → world.initialized = true
  early : world.early = false

/-- At every place the runtime is there, or nothing has been invoked by the loop. -/
theorem At.begun_or_done {stage : Option Stage} (place : world.At stage) :
    (∃ count, world.Begun count ∧ (world.runtime = true ∨ count = 0)) ∨ world.Done := by
  unfold At at place
  split at place
  · exact place.imp (fun begun => ⟨0, begun, .inr rfl⟩) And.right
  · exact place.imp (fun begun => ⟨0, begun, .inr rfl⟩) And.right
  · exact place.imp (fun begun => ⟨0, begun, .inr rfl⟩) And.right
  · exact .inl ⟨0, place, .inr rfl⟩
  · exact .inl ⟨0, place.2, .inr rfl⟩
  · exact .inl ⟨_, place.2, .inl place.1⟩
  · exact .inl ⟨_, place.2, .inl place.1⟩
  · exact place.elim
  · exact .inr place
  · exact .inr place
  · exact .inr place.2

variable (sound : Sound world)
include sound

theorem Sound.done (initialized : world.initialized = true) : world.Done := by
  rcases sound.place.begun_or_done with ⟨_, begun, _⟩ | done
  · exact absurd (begun.1.symm.trans initialized) Bool.false_ne_true
  · exact done

theorem Sound.invoked_nodup : world.invoked.Nodup := by
  refine sound.distinct.sublist (Sublist.append_right ?_ _)
  rcases sound.place.begun_or_done with ⟨count, begun, _⟩ | done
  · rw [begun.2.2.2]
    exact take_sublist _ _
  · rw [done.2.2]

theorem Sound.right : world.Right := by
  refine ⟨fun succeeded id there => ?_, fun some_ => ?_, sound.early, fun id _ =>
    nodup_iff_count_le_one.mp sound.invoked_nodup id⟩
  · refine count_eq_one_of_mem sound.invoked_nodup ?_
    rw [invoked, (sound.done (sound.succeeded succeeded)).2.2]
    exact sound.returned id there
  · rcases sound.place.begun_or_done with ⟨count, begun, runtime | rfl⟩ | done
    · exact runtime
    · by_cases none_ : world.direct = []
      · exact absurd (by rw [invoked, begun.2.2.2, none_]; rfl) some_
      · exact (sound.done (sound.direct none_)).1
    · exact done.1

variable {state : ThreadState} {after : World}

theorem Sound.setThread (calls : (world.threads thread).calls ≤ state.calls)
    (callers : ∀ id, .immediate id ∈ state.callers → id ∈ world.direct) :
    Sound (world.setThread thread state) := by
  refine { sound with fresh := fun id there => ?_, inside := fun other id there => ?_ }
  · have before := sound.fresh id there
    by_cases same : id.1 = thread
    · simp only [World.setThread, same, update_self]
      rw [same] at before
      exact Nat.lt_of_lt_of_le before calls
    · simpa only [World.setThread, update_of_ne same] using before
  · by_cases same : other = thread
    · subst same
      simp only [World.setThread, update_self] at there
      exact callers id there
    · simp only [World.setThread, update_of_ne same] at there
      exact sound.inside other id there

theorem Sound.initReturns
    (may : world.initialized = true ∨ (world.threads thread).isInitializing = true) :
    Sound (world.initReturns thread) := by
  have kept : Sound { world with
      succeeded := world.succeeded || world.initialized
      early := world.early || !(world.threads thread).isInitializing &&
        !world.queuedCalls.all (· ∈ world.drawn) } := by
    refine { sound with succeeded := fun succeeded => ?_, early := ?_ }
    · exact (Bool.or_eq_true_iff.mp succeeded).elim sound.succeeded id
    · rcases may with initialized | own
      · have all : world.queuedCalls.all (· ∈ world.drawn) = true := by
          rw [(sound.done initialized).2.2]
          simp
        simp [sound.early, all]
      · simp [sound.early, own]
  exact kept.setThread (Nat.le_refl _) (sound.inside thread)

theorem Sound.lockedStep {owner : Thread} {stage : Stage}
    (held : world.initializationLock = some (owner, stage)) :
    Sound (world.lockedStep thread stage) := by
  have place := sound.place
  rw [held] at place
  have calls := Nat.le_refl (world.threads thread).calls
  have inside := sound.inside thread
  cases stage with
  | recheck =>
    refine { sound with place := ?_ }
    change world.At (some (if world.initialized then .release true else .start))
    rcases place with begun | done
    · rw [if_neg (by rw [begun.1]; decide)]
      exact begun
    · rw [if_pos done.1]
      exact done
  | start => exact { sound with place := ⟨rfl, place⟩ }
  | mark =>
    have goes : Sound { world with initializationLock := some (thread, .drain 0) } :=
      { sound with place }
    exact goes.setThread calls inside
  | drain next =>
    simp only [World.lockedStep]
    obtain ⟨runtime, initialized, drained, bound, drawn⟩ := place
    split
    · rename_i id found
      have below := (List.getElem?_eq_some_iff.mp found).1
      have goes : Sound { world with
          initializationLock := some (thread, .running next), drawn := world.drawn ++ [id] } :=
        { sound with place := ⟨runtime, initialized, drained, below, by
          rw [take_add_one, found, drawn]
          rfl⟩ }
      refine goes.setThread calls fun id there => ?_
      rcases mem_cons.mp there with same | before
      · cases same
      · exact inside id before
    · rename_i end_
      refine { sound with place := ⟨runtime, rfl, ?_⟩ }
      exact drawn.trans (take_of_length_le (getElem?_eq_none_iff.mp end_))
  | running => exact sound
  | failing => exact place.elim
  | finish =>
    have goes : Sound { world with initializationLock := some (thread, .publish) } :=
      { sound with place }
    exact goes.setThread calls inside
  | publish =>
    exact { sound with
      place := ⟨rfl, place⟩, direct := fun _ => rfl, succeeded := fun _ => rfl }
  | release normally =>
    cases normally with
    | false =>
      have goes : Sound { world with initializationLock := none } := { sound with place }
      exact goes.setThread calls inside
    | true =>
      have goes : Sound { world with initializationLock := none } :=
        { sound with place := .inr place }
      exact goes.initReturns (.inl place.1)

/-- The call that a thread makes is a new one. -/
theorem Sound.new (thread : Thread) :
    (world.queuedCalls ++ [(thread, (world.threads thread).calls)] ++ world.direct).Nodup ∧
      (world.queuedCalls ++ (world.direct ++ [(thread, (world.threads thread).calls)])).Nodup := by
  have absent : (thread, (world.threads thread).calls) ∉ world.queuedCalls ++ world.direct :=
    fun there => Nat.lt_irrefl _ (sound.fresh _ there)
  have whole : ((thread, (world.threads thread).calls) ::
      (world.queuedCalls ++ world.direct)).Nodup := nodup_cons.mpr ⟨absent, sound.distinct⟩
  refine ⟨(Perm.nodup_iff ?_).mpr whole, (Perm.nodup_iff ?_).mpr whole⟩
  · rw [append_assoc]
    exact perm_middle
  · rw [← append_assoc]
    exact perm_append_singleton _ _

theorem Sound.count {id : CallId} (calls : state.calls = (world.threads thread).calls + 1)
    (there : id ∈ world.queuedCalls ++ world.direct ∨ id = (thread, (world.threads thread).calls)) :
    id.2 < (Function.update world.threads thread state id.1).calls := by
  rcases there with old | rfl
  · have before := sound.fresh id old
    by_cases same : id.1 = thread
    · rw [same] at before ⊢
      rw [update_self, calls]
      exact lt_succ_of_lt before
    · rwa [update_of_ne same]
  · rw [update_self, calls]
    exact lt_succ_self _

/-- A call is queued while the loop has not come to the end. -/
theorem Sound.append (open_ : world.drained = false)
    (calls : state.calls = (world.threads thread).calls + 1)
    (callers : state.callers = (world.threads thread).callers) :
    Sound ({ world with
      queuedCalls := world.queuedCalls ++ [(thread, (world.threads thread).calls)]
      returned := (thread, (world.threads thread).calls) :: world.returned
    }.setThread thread state) := by
  have grows : ∀ count, world.Begun count → Begun { world with
      queuedCalls := world.queuedCalls ++ [(thread, (world.threads thread).calls)] } count := by
    rintro count ⟨initialized, drained, bound, drawn⟩
    refine ⟨initialized, drained, Nat.le_trans bound (by simp), drawn.trans ?_⟩
    exact (take_append_of_le_length bound).symm
  have undone : ¬ world.Done := fun done => Bool.false_ne_true (open_.symm.trans done.2.1)
  refine { sound with
    place := ?_, fresh := fun id there => ?_, distinct := (sound.new thread).1,
    inside := fun other id there => ?_, returned := fun id there => ?_ }
  · have place := sound.place
    change At _ (world.initializationLock.map Prod.snd)
    cases held : world.initializationLock.map Prod.snd with
    | none =>
      rw [held] at place
      exact .inl (grows 0 (place.resolve_right fun done => undone done.2))
    | some stage =>
      rw [held] at place
      cases stage with
      | recheck => exact .inl (grows 0 (place.resolve_right fun done => undone done.2))
      | start => exact grows 0 place
      | mark => exact ⟨place.1, grows 0 place.2⟩
      | drain next => exact ⟨place.1, grows next place.2⟩
      | running index => exact ⟨place.1, grows _ place.2⟩
      | failing => exact place
      | finish => exact absurd place undone
      | publish => exact absurd place undone
      | release normally =>
        cases normally with
        | false => exact .inl (grows 0 (place.resolve_right fun done => undone done.2))
        | true => exact absurd place.2 undone
  · refine sound.count calls ?_
    simp only [World.setThread, mem_append, mem_singleton] at there ⊢
    tauto
  · by_cases same : other = thread
    · subst same
      simp only [World.setThread, update_self, callers] at there
      exact sound.inside other id there
    · simp only [World.setThread, update_of_ne same] at there
      exact sound.inside other id there
  · rcases mem_cons.mp there with rfl | old
    · simp [World.setThread]
    · have before := sound.returned id old
      simp only [World.setThread, append_assoc, mem_append] at before ⊢
      tauto

theorem Sound.invoke (initialized : world.initialized = true)
    (calls : state.calls = (world.threads thread).calls + 1)
    (callers : state.callers =
      .immediate (thread, (world.threads thread).calls) :: (world.threads thread).callers) :
    Sound ({ world with
      direct := world.direct ++ [(thread, (world.threads thread).calls)]
    }.setThread thread state) := by
  refine { sound with
    fresh := fun id there => ?_, distinct := (sound.new thread).2, direct := fun _ => initialized,
    inside := fun other id there => ?_, returned := fun id there => ?_ }
  · refine sound.count calls ?_
    simp only [World.setThread, mem_append, mem_singleton] at there ⊢
    tauto
  · by_cases same : other = thread
    · subst same
      simp only [World.setThread, update_self, callers] at there
      rcases mem_cons.mp there with new | old
      · cases new
        exact mem_append_right _ (mem_singleton_self _)
      · exact mem_append_left _ (sound.inside other id old)
    · simp only [World.setThread, update_of_ne same] at there
      exact mem_append_left _ (sound.inside other id there)
  · change id ∈ world.queuedCalls ++ (world.direct ++ [_])
    rw [← append_assoc]
    exact mem_append_left _ (sound.returned id there)

theorem Sound.step (allowed : (world.threads thread).control = .append → world.drained = false)
    (taken : world.step thread = some after) : Sound after := by
  have calls := Nat.le_refl (world.threads thread).calls
  have inside := sound.inside thread
  unfold World.step at taken
  dsimp only at taken
  split at taken
  · cases taken
  · split at taken <;> cases taken
    · exact sound.invoke ‹_› rfl rfl
    · exact sound.setThread calls inside
  · cases taken
    exact sound.append (allowed ‹_›) rfl rfl
  · split at taken <;> cases taken
    · exact sound.initReturns ‹_›
    · exact sound.setThread calls inside
  · split at taken <;> cases taken
    rename_i free
    have place := sound.place
    rw [free] at place
    have held : Sound { world with initializationLock := some (thread, .recheck) } :=
      { sound with place }
    exact held.setThread calls inside
  · obtain ⟨lock, held, rfl⟩ := Option.map_eq_some_iff.mp taken
    exact sound.lockedStep held

theorem Sound.leave {normally : Bool}
    (allowed : normally = false → (world.threads thread).callers.head?.any Caller.isQueued = false)
    (taken : world.leave thread normally = some after) : Sound after := by
  have calls := Nat.le_refl (world.threads thread).calls
  unfold World.leave at taken
  dsimp only at taken
  cases inner : (world.threads thread).callers with
  | nil =>
    rw [inner] at taken
    cases taken
  | cons caller callers =>
    have inside : ∀ id, .immediate id ∈ callers → id ∈ world.direct := fun id there =>
      sound.inside thread id (inner ▸ mem_cons_of_mem _ there)
    rw [inner] at taken allowed
    cases caller with
    | immediate id =>
      cases taken
      have kept : Sound { world with
          ended := if normally then id :: world.ended else world.ended
          returned := if normally then id :: world.returned else world.returned } := by
        refine { sound with returned := fun other there => ?_ }
        dsimp only at there
        split at there
        · rcases mem_cons.mp there with rfl | old
          · exact mem_append_right _ (sound.inside thread other (inner ▸ (.head _)))
          · exact sound.returned other old
        · exact sound.returned other there
      exact kept.setThread calls inside
    | queued id =>
      cases normally with
      | false => cases allowed rfl
      | true =>
        dsimp only at taken
        split at taken <;> cases taken
        rename_i owner index held
        have place := sound.place
        rw [held] at place
        have kept : Sound { world with
            ended := if true then id :: world.ended else world.ended
            initializationLock := some (thread, if true then .drain (index + 1) else .failing) } :=
          { sound with place }
        exact kept.setThread calls inside

theorem Sound.next {event : Event}
    (allowed : world.Allowed (thread, event)) (taken : world.next thread event = some after) :
    Sound after := by
  have calls := Nat.le_refl (world.threads thread).calls
  have inside := sound.inside thread
  unfold World.next at taken
  cases event with
  | step => exact sound.step (allowed.1 rfl) taken
  | fails =>
    dsimp only at taken
    split at taken <;> cases taken
    have place := sound.place
    rw [‹world.initializationLock = _›] at place
    exact { sound with place := .inl place }
  | lazyCall =>
    dsimp only at taken
    split at taken <;> cases taken
    exact sound.setThread calls inside
  | lazyInit =>
    dsimp only at taken
    split at taken <;> cases taken
    exact sound.setThread calls inside
  | returns =>
    dsimp only at taken
    split at taken
    · exact sound.leave (fun wrong => by cases wrong) taken
    · cases taken
  | raises =>
    dsimp only at taken
    split at taken
    · exact sound.leave (fun _ => allowed.2 rfl) taken
    · cases taken

end World

end Proof

/-- Deferred calls run once, in every interleaving in which none is queued too late and none raises
an exception when it is run. -/
theorem deferred_right {world : World} (reached : system.Reachable World.Allowed world) :
    world.Right := by
  have sound : world.Sound := by
    refine reached.invariant (fun start begins => ?_)
      fun _ label _ sound allowed taken => World.Sound.next sound allowed taken
    obtain rfl : start = {} := begins
    exact {
      place := .inl ⟨rfl, rfl, Nat.le_refl _, rfl⟩
      fresh := by simp
      distinct := nodup_nil
      direct := fun some_ => absurd rfl some_
      inside := by simp
      returned := by simp
      succeeded := by simp
      early := rfl }
  exact sound.right

/-- The queued calls are run in the order in which they were queued, and all of them before any call
that is run at once and before `_lazy_init` returns. -/
theorem deferred_in_order {world : World} (reached : system.Reachable World.Allowed world) :
    world.drawn <+: world.queuedCalls ∧
      (world.direct ≠ [] ∨ world.succeeded = true → world.drawn = world.queuedCalls) := by
  have sound : world.Sound := by
    refine reached.invariant (fun start begins => ?_)
      fun _ label _ sound allowed taken => World.Sound.next sound allowed taken
    obtain rfl : start = {} := begins
    exact ⟨.inl ⟨rfl, rfl, Nat.le_refl _, rfl⟩, by simp, nodup_nil, fun some_ => absurd rfl some_,
      by simp, by simp, by simp, rfl⟩
  refine ⟨?_, fun initialized => (sound.done (initialized.elim sound.direct sound.succeeded)).2.2⟩
  rcases sound.place.begun_or_done with ⟨count, begun, _⟩ | done
  · rw [begun.2.2.2]
    exact take_prefix ..
  · exact done.2.2 ▸ prefix_rfl

section Samples

open Event

/-- What comes of these steps, as far as they are permitted. -/
def afterwards (guard : World → Thread × Event → Bool) (labels : List (Thread × Event)) : World :=
  (System.runs (fun world label => world.next label.1 label.2) guard {} labels).getD {}

/-- Two threads queue a call, a third one initialises the runtime, and then one runs at once. -/
def initialising : List (Thread × Event) :=
  [(0, lazyCall), (0, step), (2, lazyCall), (2, step), (2, step), (0, step), (1, lazyInit)] ++
    replicate 6 (1, step) ++ [(1, returns), (1, step), (1, returns)] ++ replicate 4 (1, step) ++
    [(0, lazyCall), (0, step), (0, returns)]

theorem deferred_right_sample :
    (afterwards (fun world label => decide (world.Allowed label)) initialising).Right :=
  deferred_right (.ended (.initial rfl) (fun _ _ _ taken => taken) (fun _ _ => of_decide_eq_true)
    (by decide +kernel) _)

theorem deferred_in_order_sample :
    let world := afterwards (fun world label => decide (world.Allowed label)) initialising
    world.queuedCalls = [(2, 0), (0, 0)] ∧ world.direct = [(0, 1)] ∧
      world.drawn = world.queuedCalls := by
  intro world
  have direct : world.direct ≠ [] := by decide +kernel
  exact ⟨by decide +kernel, by decide +kernel, (deferred_in_order (.ended (.initial rfl)
    (fun _ _ _ taken => taken) (fun _ _ => of_decide_eq_true) (by decide +kernel) _)).2
      (.inl direct)⟩

/-- A thread reads the flag, and queues its call when the queue has been drained. -/
theorem call_lost : ¬ ∀ world, system.Reachable (fun _ _ => True) world → world.Right := by
  intro right
  have lost := (right (afterwards (fun _ _ => true) ([(0, lazyCall), (0, step)] ++
    ((1, lazyInit) :: replicate 9 (1, step)) ++ [(0, step)]))
      (.ended (.initial rfl) (fun _ _ _ taken => taken) (fun _ _ _ => trivial)
        (by decide +kernel) _)).once (by decide +kernel) (0, 0) (by decide +kernel)
  exact absurd lost (by decide +kernel)

end Samples

end TorchSupa.Lazy
