import TorchSupa.Ipc.Slots

/-!
Shares nest: the pointer that a share replaces is kept inside it. Every pointer is held in one
place, so that the memory of the allocator comes free only when no share of it is left.
-/

namespace TorchSupa.SentData

open Allocator Outcome Function

inductive Owner
  | nobody
  | storage (id : StorageId)
  | limbo
  | inside (sentData : SentDataId)
  | stack
deriving DecidableEq

def Task.pointers : Task → List DataPtr
  | .release ptr => [ptr]
  | .destroy sentData => [.sentData sentData]
  | .collect => []
  | .cleanCurrentFile => []

def pointers (stack : List Task) : List DataPtr := stack.flatMap Task.pointers

def Behind (world : World) (sentData : SentDataId) (allocation : Option Nat) : DataPtr → Prop
  | .allocation id => allocation = some id
  | .sentData id => id < sentData ∧ ∃ other, Live world id other ∧ other.allocation = allocation

structure Owned (owner : DataPtr → Owner) (world : World) (stack : List Task) : Prop where
  storage : ∀ id self ptr, world.storages.get? id = some self → self.dataPtr = some ptr →
    owner ptr = .storage id
  limbo : ∀ sentData ∈ world.limbo, owner (.sentData sentData) = .limbo
  limboNodup : world.limbo.Nodup
  inside : ∀ sentData self ptr, Live world sentData self → self.originalPtr = some ptr →
    owner ptr = .inside sentData
  pending : ∀ ptr ∈ pointers stack, owner ptr = .stack
  pendingNodup : (pointers stack).Nodup
  alive : ∀ sentData, owner (.sentData sentData) ≠ .nobody → ∃ self, Live world sentData self
  bound : ∀ id, owner (.allocation id) ≠ .nobody → id < world.allocations
  behind : ∀ sentData self, Live world sentData self → ∃ ptr, self.originalPtr = some ptr ∧
    Behind world sentData self.allocation ptr
  returned : ∀ id ∈ world.returned, owner (.allocation id) = .nobody ∧ id < world.allocations ∧
    ∀ sentData self, world.sentData.get? sentData = some self → self.allocation = some id →
      self.released = true
  condemned : ∀ sentData, Task.destroy sentData ∈ stack → ∀ self,
    world.sentData.get? sentData = some self → self.released = true

structure SameObjects (world after : World) : Prop where
  sentData : after.sentData = world.sentData
  storages : after.storages = world.storages
  limbo : after.limbo = world.limbo
  allocations : after.allocations = world.allocations
  returned : after.returned = world.returned

@[simp] theorem pointers_nil : pointers [] = [] := rfl

@[simp] theorem pointers_cons (task : Task) (stack : List Task) :
    pointers (task :: stack) = task.pointers ++ pointers stack := by
  simp [pointers]

@[simp] theorem pointers_append (first second : List Task) :
    pointers (first ++ second) = pointers first ++ pointers second := by
  simp [pointers]

section Owners

variable {owner : DataPtr → Owner} {world after : World} {stack rest : List Task}

theorem Owned.same (owned : Owned owner world stack) (same : SameObjects world after) :
    Owned owner after stack := by
  obtain ⟨sentData, storages, limbo, allocations, returned⟩ := same
  cases world
  cases after
  subst sentData storages limbo allocations returned
  exact { owned with }

open Option

variable {id : StorageId} {self : Storage} {sentData : SentDataId}

theorem Owned.innermost (owned : Owned owner world stack) (sentData : SentDataId) :
    ∀ self, Live world sentData self → self.allocation = some id →
      ∃ inner, owner (.allocation id) = .inside inner := by
  induction sentData using Nat.strongRecOn with
  | ind sentData ih =>
    intro self alive allocated
    obtain ⟨ptr, original, behind⟩ := owned.behind sentData self alive
    cases ptr with
    | allocation other =>
      have same : self.allocation = some other := behind
      rw [allocated] at same
      rw [← some.inj same] at original
      exact ⟨sentData, owned.inside sentData self _ alive original⟩
    | sentData other =>
      obtain ⟨older, second, there, same⟩ := behind
      exact ih other older second there (by rw [same, allocated])

open Store

theorem Owned.malloc (owned : Owned owner world []) :
    Owned (Function.update owner (.allocation world.allocations) (.storage world.storages.fresh))
      { world with
        allocations := world.allocations + 1
        storages := world.storages.push { dataPtr := some (.allocation world.allocations) } } [] := by
  have fresh : owner (.allocation world.allocations) = .nobody := by
    by_contra held
    exact absurd (owned.bound _ held) (lt_irrefl _)
  have other : ∀ ptr, owner ptr ≠ .nobody → update owner
      (.allocation world.allocations) (.storage world.storages.fresh) ptr = owner ptr := by
    intro ptr held
    refine update_of_ne ?_ _ _
    rintro rfl
    exact held fresh
  constructor
  · intro id self ptr found holds
    rw [get?_push] at found
    split at found
    · rename_i same
      rw [← some.inj found] at holds
      rw [← some.inj holds, update_self, same]
    · have before := owned.storage id self ptr found holds
      rw [other ptr (by rw [before]; simp)]
      exact before
  · intro sentData member
    rw [other _ (by rw [owned.limbo sentData member]; simp)]
    exact owned.limbo sentData member
  · exact owned.limboNodup
  · intro sentData self ptr alive original
    have before := owned.inside sentData self ptr alive original
    rw [other ptr (by rw [before]; simp)]
    exact before
  · simp
  · simp
  · intro sentData held
    rw [update_of_ne (by simp)] at held
    exact owned.alive sentData held
  · intro id held
    by_cases same : id = world.allocations
    · rw [same]
      exact Nat.lt_succ_self _
    · rw [update_of_ne (by simpa using same)] at held
      exact Nat.lt_succ_of_lt (owned.bound id held)
  · exact owned.behind
  · intro id member
    obtain ⟨nobody, bound, released⟩ := owned.returned id member
    rw [update_of_ne (by simpa using Nat.ne_of_lt bound)]
    exact ⟨nobody, Nat.lt_succ_of_lt bound, released⟩
  · simp

theorem Owned.newSharedSupa (owned : Owned owner world stack) : Owned owner { world with
      storages := world.storages.push { dataPtr := none, receivedCuda := true } } stack := by
  refine { owned with storage := ?_ }
  intro id self ptr found holds
  rw [get?_push] at found
  split at found
  · rw [← some.inj found] at holds
    simp at holds
  · exact owned.storage id self ptr found holds

theorem Owned.deleteStorage (owned : Owned owner world [])
    (found : world.storages.get? id = some self) :
    ∃ later, Owned later { world with storages := world.storages.erase id }
      (self.dataPtr.toList.map .release) := by
  have kept : ∀ other second ptr, (world.storages.erase id).get? other = some second →
      second.dataPtr = some ptr → other ≠ id ∧ owner ptr = .storage other := by
    intro other second ptr there holds
    rw [get?_erase] at there
    split at there
    · simp at there
    · rename_i different
      exact ⟨different, owned.storage other second ptr there holds⟩
  cases data : self.dataPtr with
  | none =>
    exact ⟨owner, { owned with
      storage := fun other second ptr there holds => (kept other second ptr there holds).2 }⟩
  | some moved =>
    have held := owned.storage id self moved found data
    have other : ∀ ptr, owner ptr ≠ .storage id → update owner moved .stack ptr = owner ptr := by
      intro ptr different
      refine update_of_ne ?_ _ _
      rintro rfl
      exact different held
    refine ⟨update owner moved .stack, ?_⟩
    constructor
    · intro second self' ptr there holds
      obtain ⟨different, before⟩ := kept second self' ptr there holds
      rw [other ptr (by rw [before]; simpa using different)]
      exact before
    · intro sentData member
      have before := owned.limbo sentData member
      rw [other _ (by rw [before]; simp)]
      exact before
    · exact owned.limboNodup
    · intro sentData self' ptr alive original
      have before := owned.inside sentData self' ptr alive original
      rw [other ptr (by rw [before]; simp)]
      exact before
    · intro ptr member
      obtain rfl : ptr = moved := by simpa [Task.pointers] using member
      exact update_self _ _ _
    · simp [Task.pointers]
    · intro sentData mine
      refine owned.alive sentData fun nobody => mine ?_
      rw [other _ (by rw [nobody]; simp)]
      exact nobody
    · intro second mine
      refine owned.bound second fun nobody => mine ?_
      rw [other _ (by rw [nobody]; simp)]
      exact nobody
    · exact owned.behind
    · intro second member
      obtain ⟨nobody, rest⟩ := owned.returned second member
      rw [other _ (by rw [nobody]; simp)]
      exact ⟨nobody, rest⟩
    · simp

open List

theorem Owned.toLimbo (owned : Owned owner world (.release (.sentData sentData) :: rest)) :
    Owned (Function.update owner (.sentData sentData) .limbo)
      { world with limbo := world.limbo ++ [sentData] } (.collect :: rest) := by
  have held : owner (.sentData sentData) = .stack := owned.pending _ (by simp [Task.pointers])
  have nodup : DataPtr.sentData sentData ∉ pointers rest ∧ (pointers rest).Nodup := by
    simpa [Task.pointers] using owned.pendingNodup
  have other : ∀ ptr, owner ptr ≠ .stack →
      update owner (.sentData sentData) .limbo ptr = owner ptr := by
    intro ptr different
    refine update_of_ne ?_ _ _
    rintro rfl
    exact different held
  constructor
  · intro id self ptr found holds
    have before := owned.storage id self ptr found holds
    rw [other ptr (by rw [before]; simp)]
    exact before
  · intro second member
    rcases mem_append.mp member with before | new
    · rw [other _ (by rw [owned.limbo second before]; simp)]
      exact owned.limbo second before
    · rw [mem_singleton.mp new, update_self]
  · refine nodup_append.mpr ⟨owned.limboNodup, by simp, ?_⟩
    intro second member third new
    rw [mem_singleton.mp new]
    rintro rfl
    rw [owned.limbo _ member] at held
    simp at held
  · intro second self ptr alive original
    have before := owned.inside second self ptr alive original
    rw [other ptr (by rw [before]; simp)]
    exact before
  · intro ptr member
    have later : ptr ∈ pointers rest := by simpa [Task.pointers] using member
    rw [update_of_ne]
    · exact owned.pending ptr (by simp [later])
    · rintro rfl
      exact nodup.1 later
  · simpa [Task.pointers] using nodup.2
  · intro second mine
    by_cases same : second = sentData
    · rw [same]
      exact owned.alive sentData (by rw [held]; simp)
    · rw [update_of_ne (by simpa using same)] at mine
      exact owned.alive second mine
  · intro id mine
    rw [update_of_ne (by simp)] at mine
    exact owned.bound id mine
  · exact owned.behind
  · intro id member
    rw [update_of_ne (by simp)]
    exact owned.returned id member
  · intro second member
    exact owned.condemned second (by simpa using member)

theorem Owned.condemn (owned : Owned owner world (.release (.sentData sentData) :: rest))
    (released : ∀ self, world.sentData.get? sentData = some self → self.released = true) :
    Owned owner world (.collect :: .destroy sentData :: rest) := by
  refine { owned with pending := ?_, pendingNodup := ?_, condemned := ?_ }
  · simpa [Task.pointers] using owned.pending
  · simpa [Task.pointers] using owned.pendingNodup
  · intro second member
    rcases mem_cons.mp member with new | later
    · simp at new
    · rcases mem_cons.mp later with same | before
      · obtain rfl := Task.destroy.inj same
        exact released
      · exact owned.condemned second (.tail _ before)

theorem Owned.collect (owned : Owned owner world (.collect :: rest)) (reset : SentDataId → Bool)
    (released : ∀ sentData ∈ world.limbo, reset sentData = true → ∀ self,
      world.sentData.get? sentData = some self → self.released = true) :
    ∃ later, Owned later { world with limbo := world.limbo.filter fun sentData => !reset sentData }
      ((world.limbo.filter reset).map .destroy ++ rest) := by
  have moved : pointers ((world.limbo.filter reset).map .destroy) =
      (world.limbo.filter reset).map .sentData := by
    unfold pointers
    rw [flatMap_map]
    exact map_eq_flatMap.symm
  have waiting : ∀ ptr ∈ (world.limbo.filter reset).map DataPtr.sentData, owner ptr = .limbo := by
    intro ptr member
    obtain ⟨sentData, listed, rfl⟩ := mem_map.mp member
    exact owned.limbo sentData (mem_of_mem_filter listed)
  have before : ∀ ptr ∈ pointers rest, owner ptr = .stack := by
    intro ptr member
    exact owned.pending ptr (by simpa [Task.pointers] using member)
  have other : ∀ ptr, owner ptr ≠ .limbo →
      (if ptr ∈ (world.limbo.filter reset).map DataPtr.sentData then Owner.stack else owner ptr) =
        owner ptr := fun ptr different => if_neg fun member => different (waiting ptr member)
  refine ⟨fun ptr => if ptr ∈ (world.limbo.filter reset).map .sentData then .stack else owner ptr, ?_⟩
  constructor
  · intro id self ptr found holds
    have held := owned.storage id self ptr found holds
    rw [other ptr (by rw [held]; simp)]
    exact held
  · intro sentData member
    obtain ⟨listed, kept⟩ := mem_filter.mp member
    rw [if_neg]
    · exact owned.limbo sentData listed
    · intro moved
      obtain ⟨same, inside, equal⟩ := mem_map.mp moved
      rw [← DataPtr.sentData.inj equal, (mem_filter.mp inside).2] at kept
      simp at kept
  · exact owned.limboNodup.filter _
  · intro sentData self ptr alive original
    have held := owned.inside sentData self ptr alive original
    rw [other ptr (by rw [held]; simp)]
    exact held
  · intro ptr member
    rw [pointers_append, moved] at member
    rcases mem_append.mp member with new | old
    · exact if_pos new
    · rw [other ptr (by rw [before ptr old]; simp)]
      exact before ptr old
  · rw [pointers_append, moved]
    have nodup : ((world.limbo.filter reset).map DataPtr.sentData).Nodup :=
      (owned.limboNodup.filter _).map fun _ _ same => DataPtr.sentData.inj same
    refine nodup_append.mpr ⟨nodup, by simpa [Task.pointers] using owned.pendingNodup, ?_⟩
    rintro ptr new _ old rfl
    have waits := waiting ptr new
    rw [before ptr old] at waits
    simp at waits
  · intro sentData mine
    refine owned.alive sentData fun nobody => mine ?_
    rw [other _ (by rw [nobody]; simp)]
    exact nobody
  · intro id mine
    refine owned.bound id fun nobody => mine ?_
    rw [other _ (by rw [nobody]; simp)]
    exact nobody
  · exact owned.behind
  · intro id member
    obtain ⟨nobody, others⟩ := owned.returned id member
    rw [other _ (by rw [nobody]; simp)]
    exact ⟨nobody, others⟩
  · intro sentData member
    rcases mem_append.mp member with new | old
    · obtain ⟨same, listed, equal⟩ := mem_map.mp new
      rw [← Task.destroy.inj equal]
      obtain ⟨waits, zero⟩ := mem_filter.mp listed
      exact released same waits zero
    · exact owned.condemned sentData (.tail _ old)

theorem Owned.destroy {self : SupaIPCSentData}
    (owned : Owned owner world (.destroy sentData :: rest)) (alive : Live world sentData self) :
    ∃ later, Owned later { world with
        sentData := world.sentData.modify sentData fun self => { self with destroyed := true } }
      (self.originalPtr.toList.map .release ++ rest) := by
  have held : owner (.sentData sentData) = .stack := owned.pending _ (by simp [Task.pointers])
  obtain ⟨ptr, original, behind⟩ := owned.behind sentData self alive
  have inner := owned.inside sentData self ptr alive original
  have nodup : DataPtr.sentData sentData ∉ pointers rest ∧ (pointers rest).Nodup := by
    simpa [Task.pointers] using owned.pendingNodup
  have different : ptr ≠ .sentData sentData := by
    rintro rfl
    rw [held] at inner
    simp at inner
  have other : ∀ second, second ≠ .sentData sentData → second ≠ ptr →
      update (update owner (.sentData sentData) .nobody) ptr .stack second = owner second := by
    intro second first then'
    rw [update_of_ne then', update_of_ne first]
  have elsewhere : ∀ second, owner second ≠ .stack → owner second ≠ .inside sentData →
      update (update owner (.sentData sentData) .nobody) ptr .stack second = owner second := by
    intro second notStack notInside
    refine other second ?_ ?_
    · rintro rfl
      exact notStack held
    · rintro rfl
      exact notInside inner
  have live : ∀ other later, Live { world with
      sentData := world.sentData.modify sentData fun self => { self with destroyed := true } }
      other later ↔ other ≠ sentData ∧ Live world other later := by
    intro other later
    unfold Live
    rw [get?_modify]
    by_cases same : other = sentData
    · rw [if_pos same, alive.1]
      constructor
      · rintro ⟨found, remains⟩
        rw [← some.inj found] at remains
        simp at remains
      · exact fun away => absurd same away.1
    · rw [if_neg same]
      simp [same]
  refine ⟨update (update owner (.sentData sentData) .nobody) ptr .stack, ?_⟩
  rw [original]
  constructor
  · intro id self' second found holds
    have before := owned.storage id self' second found holds
    rw [elsewhere second (by rw [before]; simp) (by rw [before]; simp)]
    exact before
  · intro second member
    have before := owned.limbo second member
    rw [elsewhere _ (by rw [before]; simp) (by rw [before]; simp)]
    exact before
  · exact owned.limboNodup
  · intro second later pointer remains holds
    obtain ⟨away, before⟩ := (live second later).mp remains
    have inside := owned.inside second later pointer before holds
    rw [elsewhere pointer (by rw [inside]; simp) (by rw [inside]; simpa using away)]
    exact inside
  · intro second member
    have listed : second = ptr ∨ second ∈ pointers rest := by simpa [Task.pointers] using member
    rcases listed with rfl | later
    · exact update_self _ _ _
    · have before : owner second = .stack := owned.pending second (by simp [later])
      rw [other second]
      · exact before
      · rintro rfl
        exact nodup.1 later
      · rintro rfl
        rw [before] at inner
        simp at inner
  · have unlisted : ptr ∉ pointers rest := by
      intro member
      have before : owner ptr = .stack := owned.pending ptr (by simp [member])
      rw [before] at inner
      simp at inner
    simpa [Task.pointers] using ⟨unlisted, nodup.2⟩
  · intro second mine
    by_cases same : second = sentData
    · subst same
      rw [update_of_ne (Ne.symm different), update_self] at mine
      exact absurd rfl mine
    · by_cases moved : DataPtr.sentData second = ptr
      · obtain ⟨later, before⟩ := owned.alive second (by rw [moved, inner]; simp)
        exact ⟨later, (live second later).mpr ⟨same, before⟩⟩
      · rw [other _ (by simpa using same) moved] at mine
        obtain ⟨later, before⟩ := owned.alive second mine
        exact ⟨later, (live second later).mpr ⟨same, before⟩⟩
  · intro id mine
    by_cases moved : DataPtr.allocation id = ptr
    · exact owned.bound id (by rw [moved, inner]; simp)
    · rw [other _ (by simp) moved] at mine
      exact owned.bound id mine
  · intro second later remains
    obtain ⟨away, before⟩ := (live second later).mp remains
    obtain ⟨pointer, holds, older⟩ := owned.behind second later before
    refine ⟨pointer, holds, ?_⟩
    cases pointer with
    | allocation id => exact older
    | sentData id =>
      obtain ⟨less, inmost, there, same⟩ := older
      refine ⟨less, inmost, (live id inmost).mpr ⟨?_, there⟩, same⟩
      rintro rfl
      rw [owned.inside second later _ before holds] at held
      simp at held
  · intro id member
    obtain ⟨nobody, bound, released⟩ := owned.returned id member
    rw [elsewhere _ (by rw [nobody]; simp) (by rw [nobody]; simp)]
    refine ⟨nobody, bound, fun second later found allocated => ?_⟩
    rcases of_get?_modify found with ⟨_, old, there, rfl⟩ | ⟨_, there⟩
    · exact released second old there allocated
    · exact released second later there allocated
  · intro second member later found
    have listed : Task.destroy second ∈ rest := by simpa using member
    rcases of_get?_modify found with ⟨_, old, there, rfl⟩ | ⟨_, there⟩
    · exact owned.condemned second (.tail _ listed) old there
    · exact owned.condemned second (.tail _ listed) later there

theorem Owned.give (slots : Slots world)
    (owned : Owned owner world (.release (.allocation id) :: rest)) :
    Owned (Function.update owner (.allocation id) .nobody)
      { world with returned := id :: world.returned } rest := by
  have held : owner (.allocation id) = .stack := owned.pending _ (by simp [Task.pointers])
  have nodup : DataPtr.allocation id ∉ pointers rest ∧ (pointers rest).Nodup := by
    simpa [Task.pointers] using owned.pendingNodup
  have other : ∀ ptr, owner ptr ≠ .stack →
      update owner (.allocation id) .nobody ptr = owner ptr := by
    intro ptr different
    refine update_of_ne ?_ _ _
    rintro rfl
    exact different held
  constructor
  · intro second self ptr found holds
    have before := owned.storage second self ptr found holds
    rw [other ptr (by rw [before]; simp)]
    exact before
  · intro sentData member
    rw [update_of_ne (by simp)]
    exact owned.limbo sentData member
  · exact owned.limboNodup
  · intro sentData self ptr alive original
    have before := owned.inside sentData self ptr alive original
    rw [other ptr (by rw [before]; simp)]
    exact before
  · intro ptr member
    rw [update_of_ne]
    · exact owned.pending ptr (by simp [member])
    · rintro rfl
      exact nodup.1 member
  · exact nodup.2
  · intro sentData mine
    rw [update_of_ne (by simp)] at mine
    exact owned.alive sentData mine
  · intro second mine
    by_cases same : second = id
    · rw [same]
      exact owned.bound id (by rw [held]; simp)
    · rw [update_of_ne (by simpa using same)] at mine
      exact owned.bound second mine
  · exact owned.behind
  · intro second member
    rcases mem_cons.mp member with rfl | before
    · refine ⟨update_self _ _ _, owned.bound _ (by rw [held]; simp), ?_⟩
      intro sentData self found allocated
      cases ended : self.destroyed with
      | true => exact slots.spent sentData self found ended
      | false =>
        obtain ⟨inner, inside⟩ := owned.innermost sentData self ⟨found, ended⟩ allocated
        rw [held] at inside
        simp at inside
    · obtain ⟨nobody, others⟩ := owned.returned second before
      rw [other _ (by rw [nobody]; simp)]
      exact ⟨nobody, others⟩
  · intro sentData member
    exact owned.condemned sentData (.tail _ member)

theorem Owned.allocationOf_held (owned : Owned owner world stack) {ptr : DataPtr}
    (held : owner ptr ≠ .nobody) (behind : world.allocationOf ptr = some id) :
    id ∉ world.returned := by
  intro member
  have nobody := (owned.returned id member).1
  cases ptr with
  | allocation other =>
    rw [some.inj behind] at held
    exact held nobody
  | sentData other =>
    obtain ⟨self, alive⟩ := owned.alive other held
    have allocated : self.allocation = some id := by
      simpa [World.allocationOf, alive.1] using behind
    obtain ⟨inner, inside⟩ := owned.innermost other self alive allocated
    rw [inside] at nobody
    simp at nobody

theorem Owned.share (owned : Owned owner world [])
    (found : world.storages.get? id = some self) {old : DataPtr} (data : self.dataPtr = some old)
    {sent : SupaIPCSentData} (original : sent.originalPtr = some old)
    (alive : sent.destroyed = false) (allocation : sent.allocation = world.allocationOf old) :
    ∃ later, Owned later { world with
      sentData := world.sentData.push sent
      storages := world.storages.modify id fun self =>
        { self with dataPtr := some (.sentData world.sentData.fresh) } } [] := by
  have held := owned.storage id self old found data
  have unheld : owner (.sentData world.sentData.fresh) = .nobody := by
    by_contra mine
    obtain ⟨other, there, _⟩ := owned.alive _ mine
    rw [get?_fresh] at there
    simp at there
  have distinct : old ≠ .sentData world.sentData.fresh := by
    rintro rfl
    rw [held] at unheld
    simp at unheld
  have elsewhere : ∀ ptr, owner ptr ≠ .storage id → owner ptr ≠ .nobody →
      update (update owner old (.inside world.sentData.fresh))
        (.sentData world.sentData.fresh) (.storage id) ptr = owner ptr := by
    intro ptr notHere somewhere
    rw [update_of_ne, update_of_ne]
    · rintro rfl
      exact notHere held
    · rintro rfl
      exact somewhere unheld
  have live : ∀ other later, Live { world with
      sentData := world.sentData.push sent
      storages := world.storages.modify id fun self =>
        { self with dataPtr := some (.sentData world.sentData.fresh) } } other later ↔
      other = world.sentData.fresh ∧ later = sent ∨ Live world other later := by
    intro other later
    unfold Live
    rw [get?_push]
    by_cases same : other = world.sentData.fresh
    · rw [if_pos same, same, get?_fresh]
      simp only [some.injEq, true_and, reduceCtorEq, false_and, or_false]
      exact ⟨fun both => both.1.symm, fun equal => ⟨equal.symm, by rw [equal]; exact alive⟩⟩
    · rw [if_neg same]
      simp [same]
  refine ⟨update (update owner old (.inside world.sentData.fresh))
    (.sentData world.sentData.fresh) (.storage id), ?_⟩
  constructor
  · intro other second ptr there holds
    rw [get?_modify] at there
    split at there
    · rename_i same
      rw [found] at there
      rw [← some.inj there] at holds
      rw [← some.inj holds, update_self, same]
    · rename_i different
      have before := owned.storage other second ptr there holds
      rw [elsewhere ptr (by rw [before]; simpa using different) (by rw [before]; simp)]
      exact before
  · intro sentData member
    have before := owned.limbo sentData member
    rw [elsewhere _ (by rw [before]; simp) (by rw [before]; simp)]
    exact before
  · exact owned.limboNodup
  · intro other later ptr remains holds
    rcases (live other later).mp remains with ⟨rfl, rfl⟩ | before
    · rw [original] at holds
      rw [← some.inj holds, update_of_ne distinct, update_self]
    · have inside := owned.inside other later ptr before holds
      rw [elsewhere ptr (by rw [inside]; simp) (by rw [inside]; simp)]
      exact inside
  · simp
  · simp
  · intro other mine
    by_cases new : other = world.sentData.fresh
    · exact ⟨sent, (live other sent).mpr (.inl ⟨new, rfl⟩)⟩
    · have held' : owner (.sentData other) ≠ .nobody := by
        intro nobody
        rw [update_of_ne (by simpa using new), update_of_ne] at mine
        · exact mine nobody
        · rintro rfl
          rw [held] at nobody
          simp at nobody
      obtain ⟨later, before⟩ := owned.alive other held'
      exact ⟨later, (live other later).mpr (.inr before)⟩
  · intro other mine
    refine owned.bound other fun nobody => mine ?_
    rw [update_of_ne (by simp), update_of_ne]
    · exact nobody
    · rintro rfl
      rw [held] at nobody
      simp at nobody
  · intro other later remains
    rcases (live other later).mp remains with ⟨rfl, rfl⟩ | before
    · refine ⟨old, original, ?_⟩
      cases old with
      | allocation number => exact allocation
      | sentData inner =>
        obtain ⟨second, there⟩ := owned.alive inner (by rw [held]; simp)
        refine ⟨lt_fresh there.1, second, (live inner second).mpr (.inr there), ?_⟩
        rw [allocation]
        simp [World.allocationOf, there.1]
    · obtain ⟨ptr, holds, behind⟩ := owned.behind other later before
      refine ⟨ptr, holds, ?_⟩
      cases ptr with
      | allocation number => exact behind
      | sentData inner =>
        obtain ⟨less, second, there, same⟩ := behind
        exact ⟨less, second, (live inner second).mpr (.inr there), same⟩
  · intro number member
    obtain ⟨nobody, bound, released⟩ := owned.returned number member
    have free : old ≠ .allocation number := by
      rintro rfl
      rw [held] at nobody
      simp at nobody
    rw [update_of_ne (by simp), update_of_ne (Ne.symm free)]
    refine ⟨nobody, bound, fun other later there allocated => ?_⟩
    rw [get?_push] at there
    split at there
    · rw [← some.inj there, allocation] at allocated
      exact absurd member (owned.allocationOf_held (by rw [held]; simp) allocated)
    · exact released other later there allocated
  · simp

theorem Owned.release (owned : Owned owner world stack) (sentData : SentDataId)
    (change : SupaIPCSentData → SupaIPCSentData)
    (originalPtr : ∀ self, (change self).originalPtr = self.originalPtr)
    (destroyed : ∀ self, (change self).destroyed = self.destroyed)
    (allocation : ∀ self, (change self).allocation = self.allocation)
    (released : ∀ self, (change self).released = true) :
    Owned owner { world with sentData := world.sentData.modify sentData change } stack := by
  have before : ∀ other later, (world.sentData.modify sentData change).get? other = some later →
      ∃ old, world.sentData.get? other = some old ∧ later.originalPtr = old.originalPtr ∧
        later.destroyed = old.destroyed ∧ later.allocation = old.allocation ∧
        (old.released = true → later.released = true) := by
    intro other later found
    rcases of_get?_modify found with ⟨_, old, there, rfl⟩ | ⟨_, there⟩
    · exact ⟨old, there, originalPtr old, destroyed old, allocation old, fun _ => released old⟩
    · exact ⟨later, there, rfl, rfl, rfl, id⟩
  have after : ∀ other old, Live world other old → ∃ later,
      Live { world with sentData := world.sentData.modify sentData change } other later ∧
        later.allocation = old.allocation := by
    rintro other old ⟨there, alive⟩
    unfold Live
    rw [get?_modify]
    split
    · rename_i same
      rw [← same, there]
      exact ⟨change old, ⟨rfl, by rw [destroyed]; exact alive⟩, allocation old⟩
    · exact ⟨old, ⟨there, alive⟩, rfl⟩
  constructor
  · exact owned.storage
  · exact owned.limbo
  · exact owned.limboNodup
  · rintro other later ptr ⟨found, alive⟩ holds
    obtain ⟨old, there, sameOriginal, sameDestroyed, _⟩ := before other later found
    exact owned.inside other old ptr ⟨there, by rw [← sameDestroyed]; exact alive⟩
      (by rw [← sameOriginal]; exact holds)
  · exact owned.pending
  · exact owned.pendingNodup
  · intro other mine
    obtain ⟨old, there⟩ := owned.alive other mine
    obtain ⟨later, alive, _⟩ := after other old there
    exact ⟨later, alive⟩
  · exact owned.bound
  · rintro other later ⟨found, alive⟩
    obtain ⟨old, there, sameOriginal, sameDestroyed, sameAllocation, _⟩ := before other later found
    obtain ⟨ptr, holds, behind⟩ := owned.behind other old ⟨there, by rw [← sameDestroyed]; exact alive⟩
    refine ⟨ptr, by rw [sameOriginal]; exact holds, ?_⟩
    rw [sameAllocation]
    cases ptr with
    | allocation id => exact behind
    | sentData inner =>
      obtain ⟨less, second, inside, same⟩ := behind
      obtain ⟨third, remains, equal⟩ := after inner second inside
      exact ⟨less, third, remains, equal.trans same⟩
  · intro id member
    obtain ⟨nobody, bound, spent⟩ := owned.returned id member
    refine ⟨nobody, bound, fun other later found allocated => ?_⟩
    obtain ⟨old, there, _, _, sameAllocation, kept⟩ := before other later found
    exact kept (spent other old there (by rw [← sameAllocation]; exact allocated))
  · intro other member later found
    obtain ⟨old, there, _, _, _, kept⟩ := before other later found
    exact kept (owned.condemned other member old there)

end Owners

end TorchSupa.SentData
