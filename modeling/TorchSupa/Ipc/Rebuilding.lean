import Mathlib.Data.List.Basic
import Mathlib.Logic.Function.Basic
import TorchSupa.Logic.Transitions

/-!
`rebuild_supa_tensor` in a consumer process: storages that are found again by weak references, and
the reference counters of the shares they were made from.
-/

namespace TorchSupa.Rebuilding

abbrev Handle := List UInt8

structure RefCounter where
  handle : String
  offset : Int
deriving DecidableEq, Repr

/-- What a tensor is rebuilt from, without what concerns its view and its event. -/
structure Share where
  storageHandle : Option Handle
  storageSizeBytes : Nat
  storageOffsetBytes : Nat
  refCounter : Option RefCounter
deriving DecidableEq, Repr

/-- The bytes of the allocation that the handle names, and the counter that the deleter lowers. -/
structure Storage where
  handle : Option Handle := none
  offsetBytes : Nat := 0
  sizeBytes : Nat := 0
  refCounter : Option RefCounter := none
deriving DecidableEq, Repr

structure Tensor where
  storage : Nat
  live : Bool := true
  /-- ghost: what it was rebuilt from -/
  share : Share
deriving DecidableEq, Repr

structure World where
  storages : List Storage := []
  tensors : List Tensor := []
  sharedCache : List ((Handle × Nat) × Nat) := []
  /-- how many times each counter has been lowered -/
  decrements : RefCounter → Nat := fun _ => 0
  /-- ghost: the shares that came -/
  received : List Share := []
  /-- ghost: a call has raised an exception -/
  raised : Bool := false

section Code

inductive Exn
  | typeError
  | invalidArguments
  | torchCheck
deriving DecidableEq, Repr

inductive Arg
  | bytes (text : String)
  | int (value : Int)
  | none
deriving DecidableEq, Repr

namespace World

def decrement (world : World) (counter : RefCounter) : World :=
  { world with
    decrements := Function.update world.decrements counter (world.decrements counter + 1) }

/-- A C function with `METH_VARARGS` takes no keyword arguments. -/
def callVarargs (function : World → List Arg → Except Exn World) (world : World)
    (args : List Arg) (kwargs : List (String × Arg)) : Except Exn World :=
  if kwargs = [] then function world args else .error .typeError

def releaseIPCCounter (world : World) : List Arg → Except Exn World
  | [.bytes handle, .int offset] => .ok (world.decrement ⟨handle, offset⟩)
  | [_, _] => .error .invalidArguments
  | _ => .error .torchCheck

/-- `_typed_storage_release_ipc_counter_supa` passes on all of its arguments. -/
def releaseIpcCounterSupa (world : World) (args : List Arg) (kwargs : List (String × Arg)) :
    Except Exn World :=
  callVarargs releaseIPCCounter world args kwargs

def alive (world : World) (storage : Nat) : Bool :=
  world.tensors.any fun tensor => tensor.live && tensor.storage == storage

def storageFromCache (world : World) (key : Handle × Nat) : Option Nat :=
  (world.sharedCache.lookup key).filter world.alive

def addTensor (world : World) (share : Share) (storage : Nat) : World :=
  { world with tensors := world.tensors ++ [{ storage, share }] }

def newStorage (world : World) (storage : Storage) : World :=
  { world with storages := world.storages ++ [storage] }

/-- `_new_shared_supa`: the pointer is that of the handle, moved by the offset. -/
def newSharedSupa (world : World) (handle : Handle) (share : Share) : Except Exn World :=
  match share.refCounter with
  | none => .error .invalidArguments
  | some counter => .ok (world.newStorage
      ⟨some handle, share.storageOffsetBytes, share.storageSizeBytes, some counter⟩)

def rebuildSupaTensor (world : World) (share : Share) : Except Exn World :=
  match share.storageHandle with
  | none => .ok ((world.newStorage {}).addTensor share world.storages.length)
  | some handle =>
    if share.storageSizeBytes = 0 then
      .ok ((world.newStorage {}).addTensor share world.storages.length)
    else
      match world.storageFromCache (handle, share.storageOffsetBytes) with
      | none => do
          let after ← world.newSharedSupa handle share
          let sharedCache :=
            ((handle, share.storageOffsetBytes), world.storages.length) :: world.sharedCache
          return { after with sharedCache }.addTensor share world.storages.length
      | some storage => do
          let args := share.refCounter.elim [.none, .int 0] fun counter =>
            [.bytes counter.handle, .int counter.offset]
          let after ← world.releaseIpcCounterSupa args [("device", .int 0)]
          return after.addTensor share storage

def drop (world : World) (tensor : Nat) : World :=
  match world.tensors[tensor]? with
  | none => world
  | some found =>
    if found.live then
      let after := { world with tensors := world.tensors.set tensor { found with live := false } }
      if after.alive found.storage then after
      else
        match (world.storages[found.storage]?).bind Storage.refCounter with
        | none => after
        | some counter => after.decrement counter
    else world

end World

inductive Label
  | receive (share : Share)
  | drop (tensor : Nat)
deriving DecidableEq, Repr

def World.next (world : World) : Label → World
  | .receive share =>
    match world.rebuildSupaTensor share with
    | .ok after => { after with received := share :: world.received }
    | .error _ => { world with received := share :: world.received, raised := true }
  | .drop tensor => world.drop tensor

def system : System World Label where
  initial world := world = {}
  step world label after := world.next label = after

end Code

section Specification

def Share.storage (share : Share) : Storage :=
  if share.storageHandle = none ∨ share.storageSizeBytes = 0 then {}
  else ⟨share.storageHandle, share.storageOffsetBytes, share.storageSizeBytes, share.refCounter⟩

/-- Every call has returned a tensor over what its share names; live tensors of one producer
storage have one storage, and a counter has been lowered once unless a storage keeps it. -/
structure Right (world : World) : Prop where
  returned : world.raised = false
  named : ∀ tensor ∈ world.tensors, tensor.live → ∃ storage,
    world.storages[tensor.storage]? = some storage ∧
      storage.handle = tensor.share.storage.handle ∧
      storage.offsetBytes = tensor.share.storage.offsetBytes ∧
      storage.sizeBytes = tensor.share.storage.sizeBytes
  shared : ∀ first ∈ world.tensors, ∀ second ∈ world.tensors, first.live → second.live →
    first.share.storage.handle ≠ none →
    first.share.storage.handle = second.share.storage.handle →
    first.share.storage.offsetBytes = second.share.storage.offsetBytes →
    first.storage = second.storage
  lowered : ∀ share ∈ world.received, ∀ counter ∈ share.refCounter, world.decrements counter =
    if ∃ tensor ∈ world.tensors, tensor.live ∧
        (world.storages[tensor.storage]?).bind Storage.refCounter = some counter then 0 else 1

/-- A share with memory has a counter of its own, and another one has none. No storage is alive
that was rebuilt for the same handle and offset, and a share of no bytes has no memory. -/
def Allowed (world : World) : Label → Prop
  | .receive share => share.refCounter.isSome = share.storageHandle.isSome ∧
      (∀ other ∈ world.received, ∀ counter ∈ share.refCounter, other.refCounter ≠ some counter) ∧
      (share.storageSizeBytes = 0 → share.storageHandle = none) ∧
      ∀ handle ∈ share.storageHandle,
        world.storageFromCache (handle, share.storageOffsetBytes) = none
  | .drop _ => True

end Specification

section Proof

/-- What every run keeps: each tensor has a storage of its own, which is found again as long as the
tensor is alive. -/
structure Sound (world : World) : Prop where
  returned : world.raised = false
  received : ∀ share ∈ world.received, ∃ tensor ∈ world.tensors, tensor.share = share
  size : world.storages.length = world.tensors.length
  placed : ∀ (i : Nat) (tensor : Tensor), world.tensors[i]? = some tensor →
    tensor.storage = i ∧ world.storages[i]? = some tensor.share.storage
  known : ∀ tensor ∈ world.tensors, tensor.share ∈ world.received
  own : ∀ (i j : Nat) (first second : Tensor) counter, world.tensors[i]? = some first →
    world.tensors[j]? = some second → first.share.refCounter = some counter →
    second.share.refCounter = some counter → i = j
  kept : ∀ tensor ∈ world.tensors, ∀ counter, tensor.share.refCounter = some counter →
    tensor.share.storage.refCounter = some counter ∧
      world.decrements counter = if tensor.live then 0 else 1
  unknown : ∀ counter, (∀ share ∈ world.received, share.refCounter ≠ some counter) →
    world.decrements counter = 0
  cached : ∀ (i : Nat) (tensor : Tensor) handle, world.tensors[i]? = some tensor → tensor.live →
    tensor.share.storage.handle = some handle →
    world.sharedCache.lookup (handle, tensor.share.storage.offsetBytes) = some i

variable {world : World} {share : Share}

theorem Share.owns {counter : RefCounter} (holds : share.storage.refCounter = some counter) :
    share.refCounter = some counter := by
  unfold Share.storage at holds
  split at holds
  · cases holds
  · exact holds

open List Option

variable (sound : Sound world)
include sound

theorem Sound.alive {i : Nat} {tensor : Tensor}
    (found : world.tensors[i]? = some tensor) (live : tensor.live) : world.alive i = true :=
  any_eq_true.mpr ⟨tensor, mem_of_getElem? found, by
    rw [live, (sound.placed i tensor found).1, beq_self_eq_true, Bool.true_and]⟩

theorem Sound.right : Right world := by
  refine ⟨sound.returned, fun tensor there live => ?_, fun first here second there one two some
    handles offsets => ?_, fun share there counter owns => ?_⟩
  · obtain ⟨i, found⟩ := getElem?_of_mem there
    obtain ⟨at_, storage⟩ := sound.placed i tensor found
    exact ⟨_, at_ ▸ storage, rfl, rfl, rfl⟩
  · obtain ⟨i, here⟩ := getElem?_of_mem here
    obtain ⟨j, there⟩ := getElem?_of_mem there
    obtain ⟨handle, is⟩ := Option.ne_none_iff_exists'.mp some
    have left := sound.cached i first handle here one is
    have right := sound.cached j second handle there two (handles ▸ is)
    rw [offsets, right] at left
    rw [(sound.placed i first here).1, (sound.placed j second there).1, Option.some.inj left]
  · obtain ⟨tensor, among, rfl⟩ := sound.received share there
    obtain ⟨keeps, lowered⟩ := sound.kept tensor among counter owns
    obtain ⟨i, found⟩ := getElem?_of_mem among
    rw [lowered]
    by_cases live : tensor.live = true
    · obtain ⟨at_, storage⟩ := sound.placed i tensor found
      rw [if_pos live, if_pos ⟨tensor, among, live, by rw [at_, storage]; exact keeps⟩]
    · rw [if_neg live, if_neg]
      rintro ⟨other, among', alive, holds⟩
      obtain ⟨j, found'⟩ := getElem?_of_mem among'
      obtain ⟨at_, storage⟩ := sound.placed j other found'
      rw [at_, storage] at holds
      obtain rfl := sound.own i j _ _ counter found found' owns (Share.owns holds)
      rw [found] at found'
      cases found'
      exact live alive

theorem Sound.grow (fresh : ∀ other ∈ world.received, ∀ counter ∈ share.refCounter,
      other.refCounter ≠ some counter)
    (keeps : ∀ counter, share.refCounter = some counter → share.storage.refCounter = some counter)
    {sharedCache : List ((Handle × Nat) × Nat)}
    (same : ∀ (i : Nat) (tensor : Tensor) handle, world.tensors[i]? = some tensor → tensor.live →
      tensor.share.storage.handle = some handle →
      sharedCache.lookup (handle, tensor.share.storage.offsetBytes) = some i)
    (new : ∀ handle, share.storage.handle = some handle →
      sharedCache.lookup (handle, share.storage.offsetBytes) = some world.storages.length) :
    Sound { world with
      storages := world.storages ++ [share.storage]
      tensors := world.tensors ++ [{ storage := world.storages.length, share }]
      received := share :: world.received
      sharedCache } := by
  have cases_ : ∀ {i : Nat} {tensor : Tensor},
      (world.tensors ++ [{ storage := world.storages.length, share }])[i]? = some tensor →
      world.tensors[i]? = some tensor ∨
        i = world.tensors.length ∧ tensor = { storage := world.storages.length, share } := by
    intro i tensor found
    by_cases before : i < world.tensors.length
    · exact .inl (by rwa [getElem?_append_left before] at found)
    · rw [getElem?_append_right (Nat.not_lt.mp before)] at found
      obtain ⟨bound, rfl⟩ := List.getElem?_eq_some_iff.mp found
      rw [length_singleton] at bound
      exact .inr ⟨by omega, getElem_singleton _⟩
  have strange : ∀ {tensor : Tensor} {counter : RefCounter}, tensor ∈ world.tensors →
      tensor.share.refCounter = some counter → share.refCounter ≠ some counter :=
    fun among owns mine => fresh _ (sound.known _ among) _ mine owns
  refine ⟨sound.returned, fun one there => ?_, by simp [sound.size], fun i tensor found => ?_,
    fun tensor there => ?_, fun i j first second counter here there mine also => ?_,
    fun tensor there counter owns => ?_, fun counter nobody => ?_,
    fun i tensor handle found live is => ?_⟩
  · rcases mem_cons.mp there with rfl | old
    · exact ⟨_, mem_append_right _ (mem_singleton_self _), rfl⟩
    · obtain ⟨tensor, among, is⟩ := sound.received one old
      exact ⟨tensor, mem_append_left _ among, is⟩
  · rcases cases_ found with old | ⟨rfl, rfl⟩
    · obtain ⟨at_, storage⟩ := sound.placed i tensor old
      have bound := (List.getElem?_eq_some_iff.mp storage).1
      exact ⟨at_, by rwa [getElem?_append_left bound]⟩
    · refine ⟨sound.size, ?_⟩
      rw [← sound.size, getElem?_concat_length]
  · rcases mem_append.mp there with old | last
    · exact .tail _ (sound.known tensor old)
    · rw [mem_singleton.mp last]
      exact .head _
  · rcases cases_ here with old | ⟨rfl, rfl⟩ <;> rcases cases_ there with old' | ⟨rfl, rfl⟩
    · exact sound.own i j first second counter old old' mine also
    · exact absurd also (strange (mem_of_getElem? old) mine)
    · exact absurd mine (strange (mem_of_getElem? old') also)
    · rfl
  · rcases mem_append.mp there with old | last
    · exact sound.kept tensor old counter owns
    · obtain rfl := mem_singleton.mp last
      exact ⟨keeps counter owns, sound.unknown counter fun other among =>
        fresh other among counter owns⟩
  · exact sound.unknown counter fun other among => nobody other (.tail _ among)
  · rcases cases_ found with old | ⟨rfl, rfl⟩
    · exact same i tensor handle old live is
    · rw [← sound.size]
      exact new handle is

theorem Sound.receive (allowed : Allowed world (.receive share)) :
    Sound (world.next (.receive share)) := by
  obtain ⟨paired, fresh, whole, absent⟩ := allowed
  cases handle : share.storageHandle with
  | none =>
    rw [handle] at paired
    have empty : share.storage = {} := if_pos (.inl handle)
    have grown := sound.grow fresh
      (fun counter owns => by rw [owns] at paired; cases paired) sound.cached
      (fun handle is => by rw [empty] at is; cases is)
    rw [empty] at grown
    have made : world.rebuildSupaTensor share =
        .ok ((world.newStorage {}).addTensor share world.storages.length) := by
      simp only [World.rebuildSupaTensor, handle]
    simp only [World.next, made]
    exact grown
  | some handle' =>
    have some_ : share.storageSizeBytes ≠ 0 := fun zero => by
      rw [whole zero] at handle
      cases handle
    rw [handle] at paired
    obtain ⟨counter, owns⟩ := isSome_iff_exists.mp paired
    have storage : share.storage = ⟨some handle', share.storageOffsetBytes,
        share.storageSizeBytes, some counter⟩ := by
      unfold Share.storage
      rw [handle, owns, if_neg (by simp [some_])]
    have grown := @Sound.grow world share sound fresh (fun other is => by rw [storage, ← is, owns])
      (((handle', share.storageOffsetBytes), world.storages.length) :: world.sharedCache)
      (fun i tensor own found live is => ?_) (fun own is => ?_)
    · rw [storage] at grown
      simp only [World.next, World.rebuildSupaTensor, handle, if_neg some_, absent handle' handle,
        World.newSharedSupa, owns, bind, Except.bind, pure, Except.pure]
      exact grown
    · have other : (own, tensor.share.storage.offsetBytes) ≠
          (handle', share.storageOffsetBytes) := by
        intro same
        have kept := sound.cached i tensor own found live is
        have gone := absent handle' handle
        rw [World.storageFromCache, ← same, kept, filter_some,
          if_pos (sound.alive found live)] at gone
        cases gone
      rw [lookup_cons, beq_false_of_ne other]
      exact sound.cached i tensor own found live is
    · rw [storage] at is ⊢
      cases is
      exact lookup_cons_self

theorem Sound.lose {place : Nat} {old : Tensor}
    (found : world.tensors[place]? = some old) {decrements : RefCounter → Nat}
    (lowered : ∀ counter, decrements counter =
      if old.share.refCounter = some counter then 1 else world.decrements counter) :
    Sound { world with
      tensors := world.tensors.set place { old with live := false }, decrements } := by
  have bound := (List.getElem?_eq_some_iff.mp found).1
  have was : ∀ {i : Nat} {one : Tensor},
      (world.tensors.set place { old with live := false })[i]? = some one →
      ∃ before, world.tensors[i]? = some before ∧ one.share = before.share ∧
        one.storage = before.storage ∧
        (one = before ∧ i ≠ place ∨ one.live = false ∧ before = old) := by
    intro i one is
    by_cases same : i = place
    · subst same
      rw [getElem?_set_self bound] at is
      cases is
      exact ⟨old, found, rfl, rfl, .inr ⟨rfl, rfl⟩⟩
    · rw [getElem?_set_ne (Ne.symm same)] at is
      exact ⟨one, is, rfl, rfl, .inl ⟨rfl, same⟩⟩
  refine ⟨sound.returned, fun share there => ?_, by simp [sound.size], fun i one is => ?_,
    fun one there => ?_, fun i j first second counter here there mine also => ?_,
    fun one there counter owns => ?_, fun counter nobody => ?_, fun i one handle is live named => ?_⟩
  · obtain ⟨tensor, among, rfl⟩ := sound.received share there
    obtain ⟨i, is⟩ := getElem?_of_mem among
    by_cases same : i = place
    · subst same
      rw [found] at is
      cases is
      exact ⟨{ old with live := false }, mem_set bound _, rfl⟩
    · exact ⟨tensor, mem_of_getElem? (i := i) (by rwa [getElem?_set_ne (Ne.symm same)]), rfl⟩
  · obtain ⟨before, is, share, storage, _⟩ := was is
    rw [share, storage]
    exact sound.placed i before is
  · obtain ⟨i, is⟩ := getElem?_of_mem there
    obtain ⟨before, is, share, _⟩ := was is
    rw [share]
    exact sound.known before (mem_of_getElem? is)
  · obtain ⟨one, here, share, _⟩ := was here
    obtain ⟨two, there, share', _⟩ := was there
    rw [share] at mine
    rw [share'] at also
    exact sound.own i j one two counter here there mine also
  · obtain ⟨i, is⟩ := getElem?_of_mem there
    obtain ⟨before, is, share, _, fate⟩ := was is
    rw [share] at owns ⊢
    obtain ⟨keeps, count⟩ := sound.kept before (mem_of_getElem? is) counter owns
    refine ⟨keeps, (lowered counter).trans ?_⟩
    rcases fate with ⟨rfl, other⟩ | ⟨dead, rfl⟩
    · rw [if_neg fun mine => other (sound.own i place _ _ counter is found owns mine), count]
    · rw [if_pos owns, dead]
      rfl
  · refine (lowered counter).trans ?_
    rw [if_neg (nobody _ (sound.known old (mem_of_getElem? found)))]
    exact sound.unknown counter nobody
  · obtain ⟨before, is, share, _, fate⟩ := was is
    rcases fate with ⟨rfl, _⟩ | ⟨dead, _⟩
    · exact sound.cached i one handle is live named
    · rw [dead] at live
      cases live

theorem Sound.drop (place : Nat) : Sound (world.drop place) := by
  cases found : world.tensors[place]? with
  | none =>
    have same : world.drop place = world := by simp only [World.drop, found]
    rwa [same]
  | some old =>
    obtain ⟨at_, storage⟩ := sound.placed place old found
    by_cases live : old.live = true
    · have alone : ¬ ({ world with tensors := world.tensors.set place { old with live := false } } :
          World).alive old.storage = true := by
        intro some_
        obtain ⟨other, there, uses⟩ := any_eq_true.mp some_
        obtain ⟨i, is⟩ := getElem?_of_mem there
        rw [Bool.and_eq_true, beq_iff_eq] at uses
        by_cases same : i = place
        · subst same
          rw [getElem?_set_self (List.getElem?_eq_some_iff.mp found).1] at is
          cases is
          cases uses.1
        · rw [getElem?_set_ne (Ne.symm same)] at is
          exact same ((sound.placed i other is).1.symm.trans (uses.2.trans at_))
      have none_ : ∀ counter, old.share.storage.refCounter = none →
          old.share.refCounter ≠ some counter := fun counter none_ owns => by
        have keeps := (sound.kept old (mem_of_getElem? found) counter owns).1
        rw [none_] at keeps
        cases keeps
      simp only [World.drop, found, live, if_true, if_neg alone]
      have holds : (world.storages[old.storage]?).bind Storage.refCounter =
          old.share.storage.refCounter := by
        rw [at_, storage]
        rfl
      rw [holds]
      cases own : old.share.storage.refCounter with
      | none => exact sound.lose found fun counter => (if_neg (none_ counter own)).symm
      | some counter =>
        have owns := Share.owns own
        have count := (sound.kept old (mem_of_getElem? found) counter owns).2
        rw [if_pos live] at count
        refine sound.lose found fun other => ?_
        rw [owns]
        by_cases same : other = counter
        · rw [same, if_pos rfl, Function.update_self, count]
        · rw [Function.update_of_ne same, if_neg fun is => same (some.inj is).symm]
    · have same : world.drop place = world := by simp only [World.drop, found, if_neg live]
      rwa [same]

end Proof

/-- Each share gets a storage of its own, whose counter is lowered once, when the storage dies. -/
theorem rebuilt_right {world : World} (reached : system.Reachable Allowed world) : Right world := by
  have sound : Sound world := by
    refine reached.invariant (fun world begins => ?_) fun world label after sound allowed taken => ?_
    · obtain rfl : world = {} := begins
      exact ⟨rfl, by simp, rfl, by simp, by simp, by simp, by simp, fun _ _ => rfl, by simp⟩
    · obtain rfl : world.next label = after := taken
      cases label with
      | receive share => exact sound.receive allowed
      | drop tensor => exact sound.drop tensor
  exact sound.right

section Samples

/-- The same storage is shared twice, each time with a counter of its own. -/
def sampleShare (counter : Int) : Share := ⟨some [1], 512, 0, some ⟨"/torch_1", counter⟩⟩

instance (world : World) : (label : Label) → Decidable (Allowed world label)
  | .receive _ => inferInstanceAs (Decidable (_ ∧ _))
  | .drop _ => .isTrue trivial

def afterwards (labels : List Label) : World :=
  (System.runs (fun world label => some (world.next label))
    (fun world label => decide (Allowed world label)) {} labels).getD {}

/-- The storage is shared again when its tensor is gone, and another share stays alive. -/
theorem rebuilt_right_sample :
    let world := afterwards [.receive (sampleShare 0), .receive ⟨some [2], 64, 0, some ⟨"/torch_1", 2⟩⟩,
      .drop 0, .receive (sampleShare 1), .drop 2]
    Right world ∧ world.storages.length = 3 ∧
      [0, 1, 2].map (fun offset => world.decrements ⟨"/torch_1", offset⟩) = [1, 1, 0] :=
  ⟨rebuilt_right (.ended (.initial rfl) (fun _ _ _ => Option.some.inj)
    (fun _ _ => of_decide_eq_true) (by decide +kernel) _), by decide +kernel⟩

/-- A share of a storage that is alive raises a `TypeError`, and its counter is not lowered. -/
theorem second_share_raises : ¬ Right
    ((World.next {} (.receive (sampleShare 0))).next (.receive (sampleShare 1))) := by
  intro right
  exact absurd right.returned (by decide)

end Samples

end TorchSupa.Rebuilding
