import TorchSupa.Handles.DeviceThreadHandlePool
import Mathlib.Data.List.Nodup

/-!
No two threads share a handle, a thread keeps the one it has, and a handle is created only
when every handle of the device is held by a live thread.
-/

namespace TorchSupa.Handles

open Outcome

section Windows

variable {windows : Store PoolWindow} {thread other : Thread} {device at_ : Device}
  {handle handle' : Handle} {window : PoolWindow}

@[simp] theorem setAt_same {α : Type} (entries : Device → α) (device : Device) (value : α) :
    setAt entries device value device = value := if_pos rfl

theorem setAt_other {α : Type} (entries : Device → α) (value : α) (different : at_ ≠ device) :
    setAt entries device value at_ = entries at_ := if_neg different

open Store

theorem held_push : Held (windows.push {}) other at_ handle ↔ Held windows other at_ handle := by
  constructor
  · rintro ⟨window, found, holds⟩
    rw [get?_push] at found
    split at found
    · rw [← Option.some.inj found] at holds
      cases holds
    · exact ⟨window, found, holds⟩
  · rintro ⟨window, found, holds⟩
    have old : other ≠ windows.fresh := Nat.ne_of_lt (lt_fresh found)
    exact ⟨window, by rw [get?_push, if_neg old, found], holds⟩

theorem held_owning (found : windows.get? thread = some window)
    (absent : window.myHandles device = none) :
    Held (owning windows thread device handle) other at_ handle' ↔
      Held windows other at_ handle' ∨ other = thread ∧ at_ = device ∧ handle' = handle := by
  unfold Held owning
  simp only [get?_modify]
  by_cases same : other = thread
  · subst same
    simp only [found, if_true, Option.map_some, Option.some.injEq, exists_eq_left', true_and]
    by_cases here : at_ = device
    · subst here
      simp [absent, eq_comm]
    · simp [setAt_other _ _ here, here]
  · simp [same]

theorem held_erase : Held (windows.erase thread) other at_ handle ↔
    other ≠ thread ∧ Held windows other at_ handle := by
  unfold Held
  simp only [get?_erase]
  by_cases same : other = thread
  · simp [same]
  · simp [same]

theorem holders_push : holders (windows.push {}) at_ = holders windows at_ := by
  unfold holders
  rw [sum_push]
  simp

theorem holders_owning (found : windows.get? thread = some window)
    (absent : window.myHandles device = none) :
    holders (owning windows thread device handle) at_ =
      holders windows at_ + if at_ = device then 1 else 0 := by
  unfold holders owning
  rw [sum_modify _ _ _ _ found]
  by_cases here : at_ = device
  · subst here
    simp [absent]
  · simp [setAt_other _ _ here, here]

theorem holders_erase (found : windows.get? thread = some window) :
    holders (windows.erase thread) at_ =
      holders windows at_ - ((window.myHandles at_).toList.length : Int) := by
  unfold holders
  rw [sum_erase _ _ _ found]
  cases window.myHandles at_ with
  | none => simp
  | some handle => simp

end Windows

structure Sound (process : Process) : Prop where
  made : ∀ device, ∀ handle ∈ process.pool.availableHandles device, handle < process.creations
  given : ∀ thread device handle, Held process.windows thread device handle →
    handle < process.creations
  nodup : ∀ device, (process.pool.availableHandles device).Nodup
  apart : ∀ device other handle, handle ∈ process.pool.availableHandles device →
    handle ∈ process.pool.availableHandles other → device = other
  idle : ∀ device other thread handle, handle ∈ process.pool.availableHandles device →
    ¬Held process.windows thread other handle
  unique : ∀ thread other device at_ handle, Held process.windows thread device handle →
    Held process.windows other at_ handle → thread = other ∧ device = at_
  counted : process.alive = true → ∀ device,
    ((process.pool.createdHandles device).length : Int) =
      (process.pool.availableHandles device).length + holders process.windows device
  created : process.alive = true → ∀ device handle, handle ∈ process.pool.createdHandles device ↔
    handle ∈ process.pool.availableHandles device ∨ ∃ thread, Held process.windows thread device handle
  bounded : ∀ device,
    holders process.windows device ≤ (process.pool.createdHandles device).length
  logged : ∀ thread device handle, (thread, device, handle) ∈ process.reserved →
    thread < process.windows.fresh ∧ ∀ window, process.windows.get? thread = some window →
      window.myHandles device = some handle
  agreed : ∀ thread device handle other, (thread, device, handle) ∈ process.reserved →
    (thread, device, other) ∈ process.reserved → handle = other

def Grows (before after : Process) : Prop :=
  ∀ device, ((after.pool.createdHandles device).length : Int) =
    max ((before.pool.createdHandles device).length : Int) (holders after.windows device)

section Steps

variable {process : Process} {thread : Thread} {device : Device} {handle : Handle}
  {window : PoolWindow}

theorem Sound.grows_same (sound : Sound process) : Grows process process := fun device =>
  (max_eq_left (sound.bounded device)).symm

theorem Sound.born (sound : Sound process) :
    Sound { process with windows := process.windows.push {} } where
  made := sound.made
  given thread device handle holds := sound.given thread device handle (held_push.mp holds)
  nodup := sound.nodup
  apart := sound.apart
  idle device other thread handle member holds :=
    sound.idle device other thread handle member (held_push.mp holds)
  unique thread other device at_ handle holds holds' :=
    sound.unique thread other device at_ handle (held_push.mp holds) (held_push.mp holds')
  counted alive device := by
    rw [holders_push]
    exact sound.counted alive device
  created alive device handle := by
    simp only [held_push]
    exact sound.created alive device handle
  bounded device := by
    rw [holders_push]
    exact sound.bounded device
  logged thread device handle member := by
    obtain ⟨old, kept⟩ := sound.logged thread device handle member
    rw [Store.fresh_push]
    refine ⟨Nat.lt_succ_of_lt old, fun window found => kept window ?_⟩
    rwa [Store.get?_push, if_neg (Nat.ne_of_lt old)] at found
  agreed := sound.agreed

theorem Sound.dropped (sound : Sound process) : Sound { process with alive := false } where
  made := sound.made
  given := sound.given
  nodup := sound.nodup
  apart := sound.apart
  idle := sound.idle
  unique := sound.unique
  counted alive := by cases alive
  created alive := by cases alive
  bounded := sound.bounded
  logged := sound.logged
  agreed := sound.agreed

open List

variable (sound : Sound process)
include sound

section

variable (found : process.windows.get? thread = some window)
include found

theorem Sound.released : Sound { process with
      pool := if process.alive then Handles.released process.pool window else process.pool
      windows := process.windows.erase thread } := by
  have own : ∀ device handle, handle ∈ (window.myHandles device).toList →
      Held process.windows thread device handle := fun device handle member =>
    ⟨window, found, Option.mem_toList.mp member⟩
  -- what is available afterwards was available before, or the window had it
  have came : ∀ device handle, handle ∈
      (if process.alive then Handles.released process.pool window else
        process.pool).availableHandles device →
      handle ∈ process.pool.availableHandles device ∨ Held process.windows thread device handle := by
    intro device handle member
    split at member
    · exact (mem_append.mp member).imp_right (own device handle)
    · exact .inl member
  constructor
  case made =>
    intro device handle member
    rcases came device handle member with old | holds
    · exact sound.made device handle old
    · exact sound.given thread device handle holds
  case given =>
    intro other device handle holds
    exact sound.given other device handle (held_erase.mp holds).2
  case nodup =>
    intro device
    split
    · refine (sound.nodup device).append ?_ fun handle old member => ?_
      · cases window.myHandles device <;> simp
      · exact sound.idle device device thread handle old (own device handle member)
    · exact sound.nodup device
  case apart =>
    intro device other handle member member'
    rcases came device handle member with old | holds
    · rcases came other handle member' with old' | holds'
      · exact sound.apart device other handle old old'
      · exact absurd holds' (sound.idle device other thread handle old)
    · rcases came other handle member' with old' | holds'
      · exact absurd holds (sound.idle other device thread handle old')
      · exact (sound.unique thread thread device other handle holds holds').2
  case idle =>
    intro device other at_ handle member holds
    obtain ⟨different, holds⟩ := held_erase.mp holds
    rcases came device handle member with old | holds'
    · exact sound.idle device other at_ handle old holds
    · exact different (sound.unique at_ thread other device handle holds holds').1
  case unique =>
    intro first second device at_ handle holds holds'
    exact sound.unique first second device at_ handle (held_erase.mp holds).2 (held_erase.mp holds').2
  case counted =>
    intro alive device
    have before := sound.counted alive device
    rw [if_pos alive, holders_erase found]
    simp only [Handles.released, length_append]
    omega
  case created =>
    intro alive device handle
    simp only [if_pos alive, Handles.released, mem_append, held_erase, or_assoc,
      sound.created alive device handle]
    refine or_congr_right ⟨?_, ?_⟩
    · rintro ⟨other, holds⟩
      by_cases same : other = thread
      · obtain ⟨_, found', here⟩ := same ▸ holds
        obtain rfl := Option.mem_unique found found'
        exact .inl (Option.mem_toList.mpr here)
      · exact .inr ⟨other, same, holds⟩
    · rintro (mine | ⟨other, _, holds⟩)
      · exact ⟨thread, own device handle mine⟩
      · exact ⟨other, holds⟩
  case bounded =>
    intro device
    have before := sound.bounded device
    have same : (if process.alive then Handles.released process.pool window else
        process.pool).createdHandles device = process.pool.createdHandles device := by
      split <;> rfl
    rw [holders_erase found, same]
    omega
  case logged =>
    intro at_ device handle member
    obtain ⟨old, kept⟩ := sound.logged at_ device handle member
    rw [Store.fresh_erase]
    refine ⟨old, fun window found' => ?_⟩
    rw [Store.get?_erase] at found'
    split at found'
    · cases found'
    · exact kept window found'
  case agreed => exact sound.agreed

theorem released_grows : Grows process { process with
      pool := if process.alive then Handles.released process.pool window else process.pool
      windows := process.windows.erase thread } := by
  intro device
  have bounded := sound.bounded device
  have same : (if process.alive then Handles.released process.pool window else
      process.pool).createdHandles device = process.pool.createdHandles device := by
    split <;> rfl
  rw [holders_erase found, same]
  omega

theorem Sound.logged_owning (absent : window.myHandles device = none)
    (other : Thread) (at_ : Device) (handle' : Handle)
    (isLogged : (other, at_, handle') ∈ process.reserved) :
    other < (owning process.windows thread device handle).fresh ∧ ∀ window',
      (owning process.windows thread device handle).get? other = some window' →
        window'.myHandles at_ = some handle' := by
  obtain ⟨old, kept⟩ := sound.logged other at_ handle' isLogged
  unfold owning
  rw [Store.fresh_modify]
  refine ⟨old, fun window' found' => ?_⟩
  rcases Store.of_get?_modify found' with ⟨rfl, before, there, rfl⟩ | ⟨_, there⟩
  · obtain rfl := Option.mem_unique found there
    have holds := kept window found
    rw [← holds]
    refine setAt_other _ _ ?_
    rintro rfl
    rw [absent] at holds
    cases holds
  · exact kept window' there

end

theorem left_available
    (last : (process.pool.availableHandles device).getLast? = some handle) (at_ : Device)
    (other : Handle) (left : other ∈ setAt process.pool.availableHandles device
      (process.pool.availableHandles device).dropLast at_) :
    other ∈ process.pool.availableHandles at_ ∧ other ≠ handle := by
  obtain ⟨front, split⟩ := getLast?_eq_some_iff.mp last
  by_cases here : at_ = device
  · subst here
    rw [setAt_same, split, dropLast_concat] at left
    refine ⟨by rw [split]; exact mem_append_left _ left, ?_⟩
    rintro rfl
    have nodup := sound.nodup at_
    rw [split, nodup_append] at nodup
    exact nodup.2.2 other left other (mem_singleton_self other) rfl
  · rw [setAt_other _ _ here] at left
    refine ⟨left, ?_⟩
    rintro rfl
    exact here (sound.apart at_ device other left (mem_of_getLast? last))

theorem Sound.taken (alive : process.alive = true)
    (found : process.windows.get? thread = some window) (absent : window.myHandles device = none)
    (last : (process.pool.availableHandles device).getLast? = some handle) :
    Sound { process with
      windows := owning process.windows thread device handle
      pool := { process.pool with
        availableHandles := setAt process.pool.availableHandles device
          (process.pool.availableHandles device).dropLast } } := by
  have member : handle ∈ process.pool.availableHandles device := mem_of_getLast? last
  have left := left_available sound last
  have count : ∀ at_, ((process.pool.createdHandles at_).length : Int) =
      (setAt process.pool.availableHandles device
        (process.pool.availableHandles device).dropLast at_).length +
      holders (owning process.windows thread device handle) at_ := by
    intro at_
    have before := sound.counted alive at_
    rw [holders_owning found absent]
    by_cases here : at_ = device
    · subst here
      obtain ⟨front, split⟩ := getLast?_eq_some_iff.mp last
      rw [split, length_append, length_singleton] at before
      rw [setAt_same, split, dropLast_concat, if_pos rfl]
      omega
    · rw [setAt_other _ _ here, if_neg here]
      omega
  constructor
  case made =>
    intro at_ other isLeft
    exact sound.made at_ other (left at_ other isLeft).1
  case given =>
    intro other at_ handle' holds
    rcases (held_owning found absent).mp holds with old | ⟨_, _, rfl⟩
    · exact sound.given other at_ handle' old
    · exact sound.made device handle' member
  case nodup =>
    intro at_
    dsimp only
    by_cases here : at_ = device
    · subst here
      rw [setAt_same]
      exact (sound.nodup at_).sublist (dropLast_sublist _)
    · rw [setAt_other _ _ here]
      exact sound.nodup at_
  case apart =>
    intro at_ other handle' isLeft isLeft'
    exact sound.apart at_ other handle' (left at_ handle' isLeft).1 (left other handle' isLeft').1
  case idle =>
    intro at_ other at' handle' isLeft holds
    obtain ⟨old, different⟩ := left at_ handle' isLeft
    rcases (held_owning found absent).mp holds with held | ⟨_, _, same⟩
    · exact sound.idle at_ other at' handle' old held
    · exact different same
  case unique =>
    intro first second at_ other handle' holds holds'
    rcases (held_owning found absent).mp holds with old | ⟨rfl, rfl, rfl⟩
    · rcases (held_owning found absent).mp holds' with old' | ⟨_, _, rfl⟩
      · exact sound.unique first second at_ other handle' old old'
      · exact absurd old (sound.idle device at_ first handle' member)
    · rcases (held_owning found absent).mp holds' with old' | ⟨rfl, rfl, _⟩
      · exact absurd old' (sound.idle at_ other second handle' member)
      · exact ⟨rfl, rfl⟩
  case counted => exact fun _ at_ => count at_
  case created =>
    intro _ at_ other
    simp only [sound.created alive at_ other, held_owning found absent, exists_or, exists_eq_left]
    rw [← or_assoc, or_right_comm]
    refine or_congr_left ⟨fun old => ?_, ?_⟩
    · by_cases here : at_ = device
      · subst here
        obtain ⟨front, split⟩ := getLast?_eq_some_iff.mp last
        rw [split, mem_append, mem_singleton] at old
        rw [setAt_same, split, dropLast_concat]
        exact old.imp_right fun same => ⟨rfl, same⟩
      · rw [setAt_other _ _ here]
        exact .inl old
    · rintro (isLeft | ⟨rfl, rfl⟩)
      · exact (left at_ other isLeft).1
      · exact member
  case bounded =>
    intro at_
    have total := count at_
    dsimp only
    omega
  case logged => exact sound.logged_owning found absent
  case agreed => exact sound.agreed

theorem Sound.emplaced
    (found : process.windows.get? thread = some window) (absent : window.myHandles device = none) :
    Sound { process with
      windows := owning process.windows thread device process.creations
      pool := { process.pool with
        createdHandles := setAt process.pool.createdHandles device
          (process.pool.createdHandles device ++ [process.creations]) }
      creations := process.creations + 1 } := by
  have grown : ∀ at_, ((setAt process.pool.createdHandles device
      (process.pool.createdHandles device ++ [process.creations]) at_).length : Int) =
        (process.pool.createdHandles at_).length + if at_ = device then 1 else 0 := by
    intro at_
    by_cases here : at_ = device
    · subst here
      simp
    · simp [setAt_other _ _ here, here]
  constructor
  case made =>
    intro at_ other member
    exact Nat.lt_succ_of_lt (sound.made at_ other member)
  case given =>
    intro other at_ handle' holds
    rcases (held_owning found absent).mp holds with old | ⟨_, _, rfl⟩
    · exact Nat.lt_succ_of_lt (sound.given other at_ handle' old)
    · exact Nat.lt_succ_self _
  case nodup => exact sound.nodup
  case apart => exact sound.apart
  case idle =>
    intro at_ other at' handle' member holds
    rcases (held_owning found absent).mp holds with held | ⟨_, _, rfl⟩
    · exact sound.idle at_ other at' handle' member held
    · exact Nat.lt_irrefl _ (sound.made at_ _ member)
  case unique =>
    intro first second at_ other handle' holds holds'
    rcases (held_owning found absent).mp holds with old | ⟨rfl, rfl, rfl⟩
    · rcases (held_owning found absent).mp holds' with old' | ⟨_, _, rfl⟩
      · exact sound.unique first second at_ other handle' old old'
      · exact absurd (sound.given first at_ _ old) (Nat.lt_irrefl _)
    · rcases (held_owning found absent).mp holds' with old' | ⟨rfl, rfl, _⟩
      · exact absurd (sound.given second other _ old') (Nat.lt_irrefl _)
      · exact ⟨rfl, rfl⟩
  case counted =>
    intro alive at_
    have before := sound.counted alive at_
    dsimp only
    rw [grown, holders_owning found absent]
    omega
  case created =>
    intro alive at_ other
    simp only [held_owning found absent, exists_or, exists_eq_left]
    rw [← or_assoc, ← sound.created alive at_ other]
    by_cases here : at_ = device
    · subst here
      simp
    · simp [setAt_other _ _ here, here]
  case bounded =>
    intro at_
    have before := sound.bounded at_
    rw [grown, holders_owning found absent]
    omega
  case logged => exact sound.logged_owning found absent
  case agreed => exact sound.agreed

theorem emplaced_grows (alive : process.alive = true)
    (found : process.windows.get? thread = some window) (absent : window.myHandles device = none)
    (empty : process.pool.availableHandles device = []) :
    Grows process { process with
      windows := owning process.windows thread device process.creations
      pool := { process.pool with
        createdHandles := setAt process.pool.createdHandles device
          (process.pool.createdHandles device ++ [process.creations]) }
      creations := process.creations + 1 } := by
  intro at_
  have bounded := sound.bounded at_
  rw [holders_owning found absent]
  by_cases here : at_ = device
  · subst here
    have count := sound.counted alive at_
    rw [empty] at count
    simp only [setAt_same, length_append, length_singleton, if_true]
    simp only [length_nil] at count
    omega
  · simp only [setAt_other _ _ here, if_neg here]
    omega

theorem Sound.returned (holds : Held process.windows thread device handle) :
    Sound { process with reserved := (thread, device, handle) :: process.reserved } := by
  obtain ⟨window, found, here⟩ := holds
  exact { sound with
    logged := by
      intro other at_ handle' member
      rcases mem_cons.mp member with same | old
      · cases same
        refine ⟨Store.lt_fresh found, fun window' found' => ?_⟩
        rw [← Option.mem_unique found found', here]
      · exact sound.logged other at_ handle' old
    agreed := by
      intro other at_ first second member member'
      rcases mem_cons.mp member with same | old
      · rcases mem_cons.mp member' with same' | old'
        · cases same
          cases same'
          rfl
        · cases same
          have kept := (sound.logged thread device second old').2 window found
          exact Option.mem_unique here kept
      · rcases mem_cons.mp member' with same' | old'
        · cases same'
          have kept := (sound.logged thread device first old).2 window found
          exact Option.mem_unique kept here
        · exact sound.agreed other at_ first second old old' }

end Steps

section Operations

variable {process : Process}

def Next (before after : Process) : Prop := Sound after ∧ Grows before after

variable {thread : Thread} {device : Device}

theorem acquire_spec {window : PoolWindow} (creates : Bool)
    (sound : Sound process) (found : process.windows.get? thread = some window)
    (absent : window.myHandles device = none) :
    wp (acquire creates thread device) (fun handle after => Next process after ∧
      Held after.windows thread device handle) (fun _ after => after = process) process := by
  have holds : ∀ handle, Held (owning process.windows thread device handle) thread device handle :=
    fun handle => (held_owning found absent).mpr (.inr ⟨rfl, rfl, rfl⟩)
  refine bind_read (bind_check (fun alive => bind_read ?_) fun _ => rfl)
  cases last : (process.pool.availableHandles device).getLast? with
  | some handle =>
    have member : handle ∈ process.pool.availableHandles device := List.mem_of_getLast? last
    refine ⟨⟨sound.taken alive found absent last, fun at_ => ?_⟩, holds handle⟩
    have count := (sound.taken alive found absent last).counted alive at_
    dsimp only [popAvailable, own] at count ⊢
    omega
  | none =>
    have empty : process.pool.availableHandles device = [] := List.getLast?_eq_none_iff.mp last
    refine bind_check (fun _ => ?_) fun _ => rfl
    exact ⟨⟨sound.emplaced found absent, emplaced_grows sound alive found absent empty⟩, holds _⟩

theorem reserve_spec {creates : Bool} (sound : Sound process) :
    wp (reserve creates thread device) (fun _ after => Next process after)
      (fun _ after => after = process) process := by
  unfold reserve lookup
  simp only [bind_assoc]
  refine bind_read ?_
  cases found : process.windows.get? thread with
  | none => exact (wp_throw _).mpr rfl
  | some window =>
    cases here : window.myHandles device with
    | some handle =>
      have holds : Held process.windows thread device handle := ⟨window, found, here⟩
      simp only [pure_bind, here]
      exact ⟨sound.returned holds, sound.grows_same⟩
    | none =>
      simp only [pure_bind, here]
      refine wp_seq (fun handle after => Next process after ∧
        Held after.windows thread device handle) (acquire_spec creates sound found here)
        fun handle after held => ?_
      exact ⟨held.1.1.returned held.2, held.1.2⟩

theorem run_spec (op : Op) (sound : Sound process) :
    wp op.run (fun _ after => Next process after) (fun exception after =>
      exception = .undefinedBehaviour ∨ Next process after) process := by
  have unchanged : Next process process := ⟨sound, sound.grows_same⟩
  cases op with
  | newPoolWindow =>
    unfold Op.run newPoolWindow
    simp only [bind_assoc]
    refine bind_read (bind_check (fun _ => ?_) fun _ => .inl rfl)
    exact ⟨sound.born, fun device => by
      rw [holders_push]
      exact sound.grows_same device⟩
  | reserve creates thread device =>
    rw [Op.run, wp_bind]
    exact wp_mono (reserve_spec sound) (fun _ _ next => next) fun _ _ same => .inr (same ▸ unchanged)
  | release thread =>
    refine bind_read ?_
    cases found : process.windows.get? thread with
    | none => exact (wp_throw _).mpr (.inl rfl)
    | some window => exact ⟨sound.released found, released_grows sound found⟩
  | dropPool => exact ⟨sound.dropped, sound.grows_same⟩

theorem sound_start : Sound {} := by
  constructor <;> simp [Held, holders]

theorem Run.sound {past : List Process} (run : Run past) :
    ∃ process before, past = process :: before ∧ Sound process ∧
      ∀ device, ((process.pool.createdHandles device).length : Int) = peak device past := by
  induction run with
  | start => exact ⟨{}, [], rfl, sound_start, fun device => by simp [peak, holders]⟩
  | returns op _ ran ih =>
    obtain ⟨_, _, same, sound, created⟩ := ih
    cases same
    obtain ⟨after, grows⟩ := wp_ok (run_spec op sound) ran
    refine ⟨_, _, rfl, after, fun device => ?_⟩
    rw [grows, created]
    exact max_comm _ _
  | throws op exception _ ran caught ih =>
    obtain ⟨_, _, same, sound, created⟩ := ih
    cases same
    obtain ⟨after, grows⟩ := (wp_error (run_spec op sound) ran).resolve_left caught
    refine ⟨_, _, rfl, after, fun device => ?_⟩
    rw [grows, created]
    exact max_comm _ _

end Operations

/-- No two live threads hold the same handle, a thread always gets the same handle for a device,
and no more handles are created for a device than threads held one at the same time. -/
theorem handles_exclusive_and_reused {process : Process} {past : List Process}
    (run : Run (process :: past)) :
    (∀ thread other device at_ handle, Held process.windows thread device handle →
      Held process.windows other at_ handle → thread = other) ∧
    (∀ thread device handle other, (thread, device, handle) ∈ process.reserved →
      (thread, device, other) ∈ process.reserved → handle = other) ∧
    ∀ device, ((process.pool.createdHandles device).length : Int) = peak device (process :: past) := by
  obtain ⟨_, _, same, sound, created⟩ := run.sound
  cases same
  exact ⟨fun thread other device at_ handle holds holds' =>
    (sound.unique thread other device at_ handle holds holds').1, sound.agreed, created⟩

/-- Two threads, of which the second starts after the first has ended and gets its handle. -/
theorem handles_exclusive_and_reused_sample :
    ∃ process past, Run (process :: past) ∧ process.reserved = [(1, 0, 0), (0, 0, 0)] ∧
      ∀ device, ((process.pool.createdHandles device).length : Int) =
        peak device (process :: past) := by
  have first := (Run.start.returns .newPoolWindow rfl).returns (.reserve true 0 0) rfl
  have second := ((first.returns (.release 0) rfl).returns .newPoolWindow rfl).returns
    (.reserve true 1 0) rfl
  exact ⟨_, _, second, rfl, (handles_exclusive_and_reused second).2.2⟩

/-- While the pool lives, no handle is lost or shared between devices or threads: the idle handles
are listed once each, under one device, none of them is held by a live thread, a held one is held
for one device by one thread, and the created handles are the idle and the held ones, as many. -/
theorem handles_conserved {process : Process} {past : List Process} (run : Run (process :: past)) :
    (∀ device, (process.pool.availableHandles device).Nodup) ∧
    (∀ device other handle, handle ∈ process.pool.availableHandles device →
      handle ∈ process.pool.availableHandles other → device = other) ∧
    (∀ device other thread handle, handle ∈ process.pool.availableHandles device →
      ¬Held process.windows thread other handle) ∧
    (∀ thread other device at_ handle, Held process.windows thread device handle →
      Held process.windows other at_ handle → thread = other ∧ device = at_) ∧
    (process.alive = true → ∀ device, (∀ handle, handle ∈ process.pool.createdHandles device ↔
        handle ∈ process.pool.availableHandles device ∨
          ∃ thread, Held process.windows thread device handle) ∧
      ((process.pool.createdHandles device).length : Int) =
        (process.pool.availableHandles device).length + holders process.windows device) := by
  obtain ⟨_, _, same, sound, _⟩ := run.sound
  cases same
  exact ⟨sound.nodup, sound.apart, sound.idle, sound.unique, fun alive device =>
    ⟨sound.created alive device, sound.counted alive device⟩⟩

/-- A thread gets a handle and ends. -/
theorem handles_conserved_sample : ∃ process past, Run (process :: past) ∧
    process.pool.availableHandles 0 = [0] ∧ ((process.pool.createdHandles 0).length : Int) =
      (process.pool.availableHandles 0).length + holders process.windows 0 := by
  have run := ((Run.start.returns .newPoolWindow rfl).returns (.reserve true 0 0) rfl).returns
    (.release 0) rfl
  exact ⟨_, _, run, rfl, ((handles_conserved run).2.2.2.2 rfl 0).2⟩

end TorchSupa.Handles
