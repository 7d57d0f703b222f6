import TorchSupa.SymmMem.LoadAndReduce

/-!
One-shot all-reduce: each rank reads all buffers and writes its own output.
-/

namespace TorchSupa.SymmMem.Collective

open Nat

section Kernel

variable {operands : Operands} {copies : Bool} {group : Group} {site : Site} {op : Op}

inductive OneShotOp (operands : Operands) (copies : Bool) (worldSize : Nat) (site : Site)
    (index : Nat) : Op → Prop
  | copyLoad : copies = true → site.round = 0 → site.step = 0 → index < operands.numel →
      OneShotOp operands copies worldSize site index (.load .localInput index 0)
  | copyStore : copies = true → site.round = 0 → site.step = 1 → index < operands.numel →
      OneShotOp operands copies worldSize site index
        (.store (.buffer site.rank) (operands.inputOffset + index) (.register 0))
  | load (peer : Nat) : peer < worldSize → site.round = 1 → index < operands.numel →
      OneShotOp operands copies worldSize site index
        (.load (.buffer peer) (operands.inputOffset + index) peer)
  | store : site.round = 1 → index < operands.numel →
      (loadOrder worldSize site.rank).length ≤ site.step →
      OneShotOp operands copies worldSize site index (.store .output index .reduced)

theorem oneShot_does
    (does : site.Does (oneShotAllReduceKernel operands copies group.worldSize) group op) :
    OneShotOp operands copies group.worldSize site
      (site.index (oneShotAllReduceKernel operands copies group.worldSize) group) op := by
  obtain ⟨valid, found⟩ := does
  have bound := valid.bound
  have early := valid.round
  generalize site.index (oneShotAllReduceKernel operands copies group.worldSize) group = index at *
  have cases : site.round = 0 ∨ site.round = 1 := by
    change site.round < 2 at early
    omega
  rcases cases with first | second
  · rw [first] at bound found
    have copied : copies = true := by
      by_contra without
      rw [Bool.not_eq_true] at without
      subst without
      exact not_lt_zero _ bound
    subst copied
    cases step : site.step with
    | zero =>
      rw [step] at found
      cases found
      exact .copyLoad rfl first step bound
    | succ later =>
      rw [step] at found
      cases later with
      | zero =>
        cases found
        exact .copyStore rfl first step bound
      | succ _ => cases found
  · rw [second] at bound found
    rcases turn_cases found with ⟨peer, member, rfl, _⟩ | ⟨late, member⟩
    · exact .load peer (mem_loadOrder.mp member) second bound
    · obtain rfl := List.mem_singleton.mp member
      exact .store second bound late

end Kernel

section Values

variable {α : Type} [AddCommMonoid α]

def oneShotMemory (operands : Operands) (copies : Bool) (before locals : Nat → Nat → α) :
    Nat → Nat → Nat → α
  | 0, rank, element => before rank element
  | _, rank, element =>
    if copies then locals rank (element - operands.inputOffset) else before rank element

def oneShotInput (operands : Operands) (copies : Bool) (before locals : Nat → Nat → α)
    (rank element : Nat) : α :=
  if copies then locals rank element else before rank (operands.inputOffset + element)

def oneShotFinal (operands : Operands) (copies : Bool) (worldSize : Nat)
    (before locals : Nat → Nat → α) : Cell → α
  | .buffer rank element => locals rank (element - operands.inputOffset)
  | .output _ element =>
    ∑ rank ∈ Finset.range worldSize, oneShotInput operands copies before locals rank element

variable {operands : Operands} {copies : Bool} {group : Group}

structure OneShotOperands (operands : Operands) (copies : Bool) (worldSize : Nat) : Prop where
  vectored : operands.Vectored
  output : operands.outNumel = operands.numel
  aligned : operands.outOffset * operands.elementSize % operands.storeAlignment = 0
  alone : copies = true → worldSize = 1
  whole : copies = true → operands.localNumel = operands.numel
  local_ : copies = true → operands.localOffset * operands.elementSize % operands.alignment = 0

theorem oneShot_fits (vectored : operands.Vectored) (output : operands.outNumel = operands.numel)
    (aligned : operands.outOffset * operands.elementSize % operands.storeAlignment = 0)
    (whole : copies = true → operands.localNumel = operands.numel)
    (local_ : copies = true → operands.localOffset * operands.elementSize % operands.alignment = 0)
    {site : Site} {op : Op}
    (does : site.Does (oneShotAllReduceKernel operands copies group.worldSize) group op) :
    op.fits operands = true := by
  have multiple : operands.numelPerThread ∣
      site.index (oneShotAllReduceKernel operands copies group.worldSize) group := dvd_index
  have moved := Nat.dvd_add vectored.offset multiple
  have zero : 0 * operands.elementSize % operands.alignment = 0 := by simp
  cases oneShot_does does with
  | copyLoad copied _ _ below =>
    have room := GridStride.end_le_of_lt multiple vectored.numel below
    exact vectored.vectorIn multiple (zero_le _)
      (room.trans_eq ((whole copied).symm.trans (zero_add _).symm)) (local_ copied)
      (dvd_refl _)
  | copyStore _ _ _ below =>
    have room := GridStride.end_le_of_lt multiple vectored.numel below
    exact vectored.vectorIn moved (Nat.le_add_right _ _)
      (by rw [Nat.add_assoc]; exact Nat.add_le_add_left room _) (by simp) vectored.stores
  | load peer _ _ below =>
    have room := GridStride.end_le_of_lt multiple vectored.numel below
    exact vectored.vectorIn moved (Nat.le_add_right _ _)
      (by rw [Nat.add_assoc]; exact Nat.add_le_add_left room _) zero (Nat.dvd_refl _)
  | store _ below _ =>
    have room := GridStride.end_le_of_lt multiple vectored.numel below
    exact vectored.vectorIn multiple (zero_le _)
      (room.trans_eq (output.symm.trans (zero_add _).symm)) aligned vectored.stores

theorem oneShot_sound (facts : OneShotOperands operands copies group.worldSize)
    (before locals : Nat → Nat → α) :
    Sound group (oneShotAllReduceKernel operands copies group.worldSize) before locals
      (oneShotMemory operands copies before locals)
      (oneShotFinal operands copies group.worldSize before locals) where
  fits _ _ does :=
    oneShot_fits facts.vectored facts.output facts.aligned facts.whole facts.local_ does
  peers := by
    intro site op peer does touched
    cases oneShot_does does with
    | copyLoad => cases touched
    | copyStore =>
      cases touched
      exact ⟨does.1.rank, fun _ => rfl⟩
    | load other small second =>
      cases touched
      exact ⟨small, fun first => absurd (second.symm.trans first) (by decide)⟩
    | store => cases touched
  values := by
    intro site target index value lane does small
    unfold Site.registers
    cases oneShot_does does with
    | copyStore copied first step below =>
      rw [first, step]
      change locals site.rank (site.index (oneShotAllReduceKernel operands copies
        group.worldSize) group + lane) = locals site.rank (_ + _ + lane - _)
      rw [Nat.add_assoc, Nat.add_sub_cancel_left]
    | store second below late =>
      rw [second]
      refine (reduced_turn (zero_lt_of_lt does.1.rank) (by simp [Op.stores]) late lane).trans ?_
      refine Finset.sum_congr rfl fun peer member => ?_
      change (if copies then locals peer (_ - _) else before peer _) = _
      unfold oneShotInput
      rw [Nat.add_assoc, Nat.add_sub_cancel_left]
  loads := by
    intro site peer index register lane does small
    cases oneShot_does does with
    | load _ member second below =>
      cases copied : copies with
      | true =>
        subst copied
        have one := facts.alone rfl
        have own : peer = site.rank := by
          have rank := does.1.rank
          omega
        subst own
        have earlier : Site.Does { site with round := 0, step := 1 }
            (oneShotAllReduceKernel operands true group.worldSize) group _ :=
          ⟨⟨does.1.rank, does.1.block, does.1.thread, two_pos, below⟩, rfl⟩
        refine .inl ⟨_, ⟨_, _, _, lane, earlier, small, rfl⟩, ⟨?_, rfl, .inl rfl⟩, ?_⟩
        · exact second.symm ▸ one_pos
        · rw [second]
          rfl
      | false =>
        refine .inr ⟨by rw [second]; rfl, fun later writes => ?_⟩
        obtain ⟨target, place, value, _, also, _, same⟩ := writes
        subst copied
        cases oneShot_does also with
        | copyStore copied => cases copied
        | store => cases same

end Values

section Operation

variable {α : Type} [AddCommMonoid α]

structure AllReduced (group : Group) (numel : Nat) (input : Nat → Nat → α) (world : World α) :
    Prop where
  noFault : world.fault = false
  outputs : ∀ rank element, rank < group.worldSize → world.ended rank = true → element < numel →
    world.outputs rank element = ∑ peer ∈ Finset.range group.worldSize, input peer element

def World.reducedInput (world : World α) (input : Tensor) (localInput : Option Tensor)
    (rank element : Nat) : α :=
  match localInput with
  | some _ => world.beforeLocal rank element
  | none => world.before rank (input.storageOffset + element)

variable {group : Group} {operands : Operands} {copies : Bool} {world : World α}

theorem oneShot_reduces (fitting : Fitting group (oneShotAllReduceKernel operands copies group.worldSize))
    (facts : OneShotOperands operands copies group.worldSize)
    (reached : (operation group (oneShotAllReduceKernel operands copies group.worldSize)).Reachable
      (fun _ _ => True) world) :
    AllReduced group operands.numel
      (oneShotInput operands copies world.before world.beforeLocal) world := by
  obtain ⟨placed, valued⟩ := contents_reachable fitting (oneShot_sound facts) reached
  have here := valued world.before world.beforeLocal fun _ _ => ⟨rfl, rfl⟩
  refine ⟨here.noFault, fun rank element member ends below => ?_⟩
  have vectored := facts.vectored
  obtain ⟨first, lane, multiple, before, small, rfl⟩ := vector_of_element vectored.positive below
  obtain ⟨block, thread, turn, place⟩ := exists_site
    (oneShotAllReduceKernel operands copies group.worldSize) fitting.small fitting.warp
    vectored.positive member one_lt_two multiple before
  obtain ⟨valid, same⟩ := place (loadOrder group.worldSize rank).length
  have does : Site.Does ⟨rank, block, thread, 1, turn, (loadOrder group.worldSize rank).length⟩
      (oneShotAllReduceKernel operands copies group.worldSize) group
      (.store .output first .reduced) := by
    refine ⟨valid, ?_⟩
    unfold Site.index
    rw [same]
    exact reduce_beyond 0
  refine here.outputs rank (first + lane) _ ⟨_, _, _, lane, does, small, rfl⟩ ?_
  exact placed.done_of_ended valid ends

end Operation

section Runs

def emptyWorld (buffers locals : Nat → Nat → Nat) : World Nat where
  signals := { signalPads := fun _ _ => 0 }
  buffers := buffers
  localInputs := locals
  outputs := fun _ _ => 0
  threads := fun _ _ _ => fresh
  before := fun _ _ => 0
  beforeLocal := fun _ _ => 0
  left := fun _ _ => 0

def finalWorld (group : Group) (program : Program) (initial : World Nat) (actions : List (Action Nat)) :
    World Nat :=
  (System.runs (World.act group program) (fun _ _ => true) initial actions).getD initial

theorem reachable_finalWorld {group : Group} {program : Program} {buffers locals : Nat → Nat → Nat}
    (actions : List (Action Nat))
    (ends : (System.runs (World.act group program) (fun _ _ => true) (emptyWorld buffers locals)
      actions).isSome = true) :
    (operation group program).Reachable (fun _ _ => True)
      (finalWorld group program (emptyWorld buffers locals) actions) := by
  refine System.Reachable.ended (.initial ?_) (fun _ _ _ taken => taken) (fun _ _ _ => trivial) ends _
  exact ⟨⟨_, fun _ _ _ => rfl, rfl⟩, rfl, rfl, rfl, rfl⟩

def work (rank count : Nat) : List (Action Nat) := List.replicate count (.advance rank 0 0)

def casAll : List (Action Nat) :=
  [.signal (.cas 0 0 0), .signal (.cas 0 0 1), .signal (.cas 1 0 0), .signal (.cas 1 0 1)]

def enterAll : List (Action Nat) := [.signal (.enter 0 0), .signal (.enter 1 0)]

def leaveAll : List (Action Nat) := [.signal (.leave 0 0), .signal (.leave 1 0)]

def synchronise : List (Action Nat) := enterAll ++ casAll ++ casAll ++ leaveAll

def fourFloats : Tensor := { sizes := [4] }

def fourOperands (localNumel : Nat) : Operands where
  elementSize := 4
  alignment := 16
  mira := false
  inputOffset := 0
  numel := 4
  localNumel := localNumel
  outNumel := 4

end Runs

end TorchSupa.SymmMem.Collective
