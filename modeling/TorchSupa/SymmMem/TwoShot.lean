import TorchSupa.SymmMem.OneShot

/-!
Two-shot all-reduce: each rank reduces its own part of the buffers, and hands it to the others.
-/

namespace TorchSupa.SymmMem.Collective

open List Nat

section Chunks

theorem numelPerRank_eq {numel unit worldSize : Nat} (ranks : 0 < worldSize) :
    roundUp numel (unit * worldSize) / worldSize = ceilDiv numel (unit * worldSize) * unit := by
  unfold roundUp
  rw [← Nat.mul_assoc, Nat.mul_div_cancel _ ranks]

theorem chunk_of_element {numel unit worldSize element : Nat} (ranks : 0 < worldSize)
    (positive : 0 < unit) (below : element < numel) :
    let numelPerRank := roundUp numel (unit * worldSize) / worldSize
    ∃ rank place, rank < worldSize ∧ place < numelPerRank ∧ numelPerRank * rank + place = element := by
  intro numelPerRank
  have covered : numel ≤ numelPerRank * worldSize := by
    have le : numel ≤ roundUp numel (unit * worldSize) := le_roundUp (Nat.mul_pos positive ranks)
    have divides : worldSize ∣ roundUp numel (unit * worldSize) :=
      (Nat.dvd_mul_left _ _).trans (Nat.dvd_mul_left _ _)
    exact le.trans_eq (Nat.div_mul_cancel divides).symm
  have some : 0 < numelPerRank := by
    by_contra none
    rw [Nat.eq_zero_of_not_pos none, Nat.zero_mul] at covered
    omega
  refine ⟨element / numelPerRank, element % numelPerRank, ?_, Nat.mod_lt _ some, Nat.div_add_mod _ _⟩
  exact Nat.div_lt_of_lt_mul (below.trans_le covered)

theorem chunk_unique {numelPerRank rank other place also : Nat} (one : place < numelPerRank)
    (two : also < numelPerRank) (same : numelPerRank * rank + place = numelPerRank * other + also) :
    rank = other ∧ place = also := by
  have some := zero_lt_of_lt one
  have ranks := congrArg (· / numelPerRank) same
  have places := congrArg (· % numelPerRank) same
  simp only [mul_add_div some, div_eq_of_lt one, div_eq_of_lt two] at ranks
  simp only [mul_add_mod, mod_eq_of_lt one, mod_eq_of_lt two] at places
  exact ⟨ranks, places⟩

end Chunks

section Inplace

variable {operands : Operands} {group : Group} {site : Site} {op : Op}

def inplacePerRank (operands : Operands) (worldSize : Nat) : Nat :=
  roundUp operands.numel (operands.alignment * worldSize) / worldSize

theorem dvd_inplacePerRank (vectored : operands.Vectored) {worldSize : Nat} (ranks : 0 < worldSize) :
    operands.numelPerThread ∣ inplacePerRank operands worldSize := by
  unfold inplacePerRank
  rw [numelPerRank_eq ranks, ← vectored.bytes]
  exact (dvd_mul_right _ _).trans (dvd_mul_left _ _)

inductive InplaceOp (operands : Operands) (worldSize : Nat) (site : Site) (place : Nat) : Op → Prop
  | load (peer : Nat) : peer < worldSize → site.step < (loadOrder worldSize site.rank).length →
      InplaceOp operands worldSize site place (.load (.buffer peer) (operands.inputOffset + place) peer)
  | store (peer : Nat) : peer < worldSize → (loadOrder worldSize site.rank).length ≤ site.step →
      InplaceOp operands worldSize site place
        (.store (.buffer peer) (operands.inputOffset + place) .reduced)

theorem inplace_does
    (does : site.Does (twoShotAllReduceKernelInplace operands group.worldSize) group op) :
    let index := site.index (twoShotAllReduceKernelInplace operands group.worldSize) group
    let place := inplacePerRank operands group.worldSize * site.rank + index
    site.round = 1 ∧ index < inplacePerRank operands group.worldSize ∧ place < operands.numel ∧
      InplaceOp operands group.worldSize site place op := by
  intro index place
  obtain ⟨valid, found⟩ := does
  have bound := valid.bound
  have early := valid.round
  have second : site.round = 1 := by
    rcases Nat.lt_succ_iff_lt_or_eq.mp early with first | second
    · rw [Nat.lt_one_iff.mp first] at bound
      exact absurd bound (Nat.not_lt_zero _)
    · exact second
  rw [second] at bound
  refine ⟨second, bound, ?_⟩
  change (if place ≥ operands.numel then ([] : List Op) else _)[site.step]? = some op at found
  split at found
  · cases found
  · next below =>
      refine ⟨Nat.lt_of_not_le below, ?_⟩
      rw [Nat.add_assoc] at found
      rcases turn_cases found with ⟨peer, member, rfl, early⟩ | ⟨late, member⟩
      · exact .load peer (mem_loadOrder.mp member) early
      · obtain ⟨step, small, rfl⟩ := mem_map.mp member
        exact .store _ (Nat.mod_lt _ (Nat.zero_lt_of_lt (mem_range.mp small))) late

end Inplace

section InplaceContents

variable {α : Type} [AddCommMonoid α] {operands : Operands} {group : Group}

def bufferSum (worldSize : Nat) (before : Nat → Nat → α) (element : Nat) : α :=
  ∑ peer ∈ Finset.range worldSize, before peer element

def inplaceFinal (worldSize : Nat) (before : Nat → Nat → α) : Cell → α
  | .buffer _ element => bufferSum worldSize before element
  | .output _ _ => 0

theorem same_thread {numelPerRank : Nat} {program : Program} {site later : Site} (element : Nat)
    (positive : 0 < program.operands.numelPerThread) (one : site.Valid program group)
    (two : later.Valid program group) (below : site.index program group < numelPerRank)
    (also : later.index program group < numelPerRank)
    (divides : program.operands.numelPerThread ∣ numelPerRank)
    (low : numelPerRank * site.rank + site.index program group ≤ element)
    (high : element < numelPerRank * site.rank + site.index program group +
      program.operands.numelPerThread)
    (under : numelPerRank * later.rank + later.index program group ≤ element)
    (beyond : element < numelPerRank * later.rank + later.index program group +
      program.operands.numelPerThread) :
    later.rank = site.rank ∧ later.block = site.block ∧ later.thread = site.thread ∧
      later.turn = site.turn := by
  have same := GridStride.eq_of_overlap (Nat.dvd_add (divides.mul_right _) dvd_index)
    (Nat.dvd_add (divides.mul_right _) dvd_index) under beyond low high
  obtain ⟨rank, index⟩ := chunk_unique also below same
  obtain ⟨block, thread, turn⟩ := GridStride.index_inj positive two.block two.thread one.block one.thread
    index
  exact ⟨rank, block, thread, turn⟩

theorem inplace_sound (vectored : operands.Vectored) (before locals : Nat → Nat → α) :
    Sound group (twoShotAllReduceKernelInplace operands group.worldSize) before locals
      (fun _ => before) (inplaceFinal group.worldSize before) where
  fits := by
    intro site op does
    obtain ⟨_, _, below, kind⟩ := inplace_does does
    have part := (dvd_inplacePerRank vectored (zero_lt_of_lt does.1.rank)).mul_right site.rank
    have index : operands.numelPerThread ∣
        site.index (twoShotAllReduceKernelInplace operands group.worldSize) group := dvd_index
    have multiple := Nat.dvd_add part index
    have room := GridStride.end_le_of_lt multiple vectored.numel below
    have moved := Nat.dvd_add vectored.offset multiple
    cases kind with
    | load peer _ _ =>
      exact vectored.vectorIn moved (Nat.le_add_right _ _)
        (by rw [Nat.add_assoc]; exact Nat.add_le_add_left room _) (by simp) (Nat.dvd_refl _)
    | store peer _ _ =>
      exact vectored.vectorIn moved (Nat.le_add_right _ _)
        (by rw [Nat.add_assoc]; exact Nat.add_le_add_left room _) (by simp) vectored.stores
  peers := by
    intro site op peer does touched
    obtain ⟨second, _, _, kind⟩ := inplace_does does
    have later : site.round = 0 → peer = site.rank := fun first =>
      absurd (second.symm.trans first) (by decide)
    cases kind with
    | load other small _ =>
      cases touched
      exact ⟨small, later⟩
    | store other small _ =>
      cases touched
      exact ⟨small, later⟩
  values := by
    intro site target index value lane does small
    obtain ⟨second, _, below, kind⟩ := inplace_does does
    unfold Site.registers
    cases kind with
    | store peer _ late =>
      have body : (twoShotAllReduceKernelInplace operands group.worldSize).body site.round site.rank
          (site.index (twoShotAllReduceKernelInplace operands group.worldSize) group) = _ :=
        if_neg (Nat.not_le_of_lt below)
      rw [body, Nat.add_assoc operands.inputOffset]
      refine (reduced_turn (zero_lt_of_lt does.1.rank) ?_ late lane).trans rfl
      intro op member
      obtain ⟨step, _, rfl⟩ := mem_map.mp member
      rfl
  loads := by
    intro site peer index register lane does small
    obtain ⟨second, below, _, kind⟩ := inplace_does does
    cases kind with
    | load _ _ early =>
      refine .inr ⟨rfl, fun later writes => ?_⟩
      obtain ⟨target, place, value, further, also, few, same⟩ := writes
      obtain ⟨too, under, _, stores⟩ := inplace_does also
      cases stores with
      | store _ _ late =>
        have here := congrArg Cell.element same
        change _ + further = _ + lane at here
        change further < operands.numelPerThread at few
        change lane < operands.numelPerThread at small
        obtain ⟨rank, block, thread, turn⟩ := same_thread
          (inplacePerRank operands group.worldSize * site.rank + site.index
            (twoShotAllReduceKernelInplace operands group.worldSize) group + lane)
          vectored.positive does.1 also.1 below under
          (dvd_inplacePerRank vectored (Nat.zero_lt_of_lt does.1.rank)) (Nat.le_add_right _ _)
          (Nat.add_lt_add_left small _) (by omega) (by
            change _ < _ + operands.numelPerThread
            omega)
        refine ⟨rank, block, thread, too.trans second.symm, ?_⟩
        rw [rank] at late
        rintro (sooner | ⟨_, sooner⟩)
        · omega
        · omega

end InplaceContents

section Gather

variable {operands : Operands} {group : Group} {site : Site} {op : Op}

def gatherPerRank (operands : Operands) (worldSize : Nat) : Nat :=
  roundUp operands.numel (operands.numelPerThread * worldSize) / worldSize

theorem dvd_gatherPerRank {worldSize : Nat} (ranks : 0 < worldSize) :
    operands.numelPerThread ∣ gatherPerRank operands worldSize := by
  unfold gatherPerRank
  rw [numelPerRank_eq ranks]
  exact dvd_mul_left _ _

def gatherSteps (operands : Operands) (worldSize rank index : Nat) : List Nat :=
  (List.range worldSize).filter fun step =>
    gatherPerRank operands worldSize * ((rank + step) % worldSize) + index < operands.numel

theorem mem_gatherSteps {worldSize rank index step : Nat} :
    step ∈ gatherSteps operands worldSize rank index ↔ step < worldSize ∧
      gatherPerRank operands worldSize * ((rank + step) % worldSize) + index < operands.numel := by
  simp [gatherSteps]

inductive GatherOp (operands : Operands) (worldSize : Nat) (site : Site) (index : Nat) : Op → Prop
  | reduceLoad (peer : Nat) : peer < worldSize → site.round = 1 →
      site.step < (loadOrder worldSize site.rank).length →
      gatherPerRank operands worldSize * site.rank + index < operands.numel →
      GatherOp operands worldSize site index (.load (.buffer peer)
        (operands.inputOffset + (gatherPerRank operands worldSize * site.rank + index)) peer)
  | reduceStore : site.round = 1 → (loadOrder worldSize site.rank).length ≤ site.step →
      gatherPerRank operands worldSize * site.rank + index < operands.numel →
      GatherOp operands worldSize site index (.store (.buffer site.rank)
        (operands.inputOffset + (gatherPerRank operands worldSize * site.rank + index)) .reduced)
  | load (step : Nat) : site.round = 2 → step ∈ gatherSteps operands worldSize site.rank index →
      GatherOp operands worldSize site index (.load (.buffer ((site.rank + step) % worldSize))
        (operands.inputOffset +
          (gatherPerRank operands worldSize * ((site.rank + step) % worldSize) + index)) step)
  | store (step : Nat) : site.round = 2 → step ∈ gatherSteps operands worldSize site.rank index →
      (gatherSteps operands worldSize site.rank index).length ≤ site.step →
      GatherOp operands worldSize site index (.store .output
        (gatherPerRank operands worldSize * ((site.rank + step) % worldSize) + index)
        (.register step))

theorem gather_does (does : site.Does (twoShotAllReduceKernel operands group.worldSize) group op) :
    let index := site.index (twoShotAllReduceKernel operands group.worldSize) group
    index < gatherPerRank operands group.worldSize ∧
      GatherOp operands group.worldSize site index op := by
  intro index
  obtain ⟨valid, found⟩ := does
  have bound := valid.bound
  have early := valid.round
  change site.round < 3 at early
  have cases : site.round = 0 ∨ site.round = 1 ∨ site.round = 2 := by omega
  rcases cases with first | second | third
  · rw [first] at bound
    exact absurd bound (not_lt_zero _)
  · rw [second] at bound found
    refine ⟨bound, ?_⟩
    change (if _ ≥ operands.numel then ([] : List Op) else _)[site.step]? = some op at found
    split at found
    · cases found
    · next below =>
        rw [add_assoc] at found
        rcases turn_cases found with ⟨peer, member, rfl, early⟩ | ⟨late, member⟩
        · exact .reduceLoad peer (mem_loadOrder.mp member) second early (Nat.lt_of_not_le below)
        · obtain rfl := mem_singleton.mp member
          exact .reduceStore second late (Nat.lt_of_not_le below)
  · rw [third] at bound found
    refine ⟨bound, ?_⟩
    change (loads (gatherSteps operands group.worldSize site.rank index)
      (fun step => .buffer ((site.rank + step) % group.worldSize))
      (fun step => operands.inputOffset +
        gatherPerRank operands group.worldSize * ((site.rank + step) % group.worldSize) + index) ++
      (gatherSteps operands group.worldSize site.rank index).map _)[site.step]? = some op at found
    rcases turn_cases found with ⟨step, member, rfl, _⟩ | ⟨late, member⟩
    · rw [add_assoc]
      exact .load step third member
    · obtain ⟨step, here, rfl⟩ := mem_map.mp member
      exact .store step third here late

end Gather

section GatherContents

variable {α : Type} [AddCommMonoid α] {operands : Operands} {group : Group}

def gatherMemory (worldSize : Nat) (before : Nat → Nat → α) : Nat → Nat → Nat → α
  | 2, _, element => bufferSum worldSize before element
  | _, rank, element => before rank element

def gatherFinal (operands : Operands) (worldSize : Nat) (before : Nat → Nat → α) : Cell → α
  | .buffer _ element => bufferSum worldSize before element
  | .output _ element => bufferSum worldSize before (operands.inputOffset + element)

structure OutputOperands (operands : Operands) (outNumel : Nat) : Prop where
  vectored : operands.Vectored
  output : operands.outNumel = outNumel
  aligned : operands.outOffset * operands.elementSize % operands.storeAlignment = 0

theorem gather_sound (facts : OutputOperands operands operands.numel)
    (before locals : Nat → Nat → α) :
    Sound group (twoShotAllReduceKernel operands group.worldSize) before locals
      (gatherMemory group.worldSize before) (gatherFinal operands group.worldSize before) where
  fits := by
    intro site op does
    have vectored := facts.vectored
    have ranks := zero_lt_of_lt does.1.rank
    have index : operands.numelPerThread ∣
        site.index (twoShotAllReduceKernel operands group.worldSize) group := dvd_index
    have multiple : ∀ rank, operands.numelPerThread ∣ gatherPerRank operands group.worldSize * rank +
        site.index (twoShotAllReduceKernel operands group.worldSize) group := fun rank =>
      Nat.dvd_add ((dvd_gatherPerRank ranks).mul_right rank) index
    have buffer : ∀ rank, gatherPerRank operands group.worldSize * rank +
        site.index (twoShotAllReduceKernel operands group.worldSize) group < operands.numel →
        ∀ alignment, alignment ∣ operands.alignment →
        operands.vectorIn operands.inputOffset operands.numel 0 alignment (operands.inputOffset +
          (gatherPerRank operands group.worldSize * rank +
            site.index (twoShotAllReduceKernel operands group.worldSize) group)) = true := by
      intro rank below alignment coarse
      have room := GridStride.end_le_of_lt (multiple rank) vectored.numel below
      exact vectored.vectorIn (Nat.dvd_add vectored.offset (multiple rank)) (Nat.le_add_right _ _)
        (by rw [Nat.add_assoc]; exact Nat.add_le_add_left room _) (by simp) coarse
    cases (gather_does does).2 with
    | reduceLoad _ _ _ _ below => exact buffer _ below _ (dvd_refl _)
    | reduceStore _ _ below => exact buffer _ below _ vectored.stores
    | load step _ member => exact buffer _ (mem_gatherSteps.mp member).2 _ (dvd_refl _)
    | store step _ member _ =>
      have room := GridStride.end_le_of_lt (multiple _) vectored.numel (mem_gatherSteps.mp member).2
      exact vectored.vectorIn (multiple _) (zero_le _)
        (room.trans_eq (facts.output.symm.trans (zero_add _).symm)) facts.aligned vectored.stores
  peers := by
    intro site op peer does touched
    have ranks := zero_lt_of_lt does.1.rank
    cases (gather_does does).2 with
    | reduceLoad other small second =>
      cases touched
      exact ⟨small, fun first => absurd (second.symm.trans first) (by decide)⟩
    | reduceStore second =>
      cases touched
      exact ⟨does.1.rank, fun _ => rfl⟩
    | load step third =>
      cases touched
      exact ⟨mod_lt _ ranks, fun first => absurd (third.symm.trans first) (by decide)⟩
    | store step third => cases touched
  values := by
    intro site target index value lane does small
    unfold Site.registers
    cases (gather_does does).2 with
    | reduceStore second late below =>
      have body : (twoShotAllReduceKernel operands group.worldSize).body 1 site.rank
          (site.index (twoShotAllReduceKernel operands group.worldSize) group) = _ :=
        if_neg (Nat.not_le_of_lt below)
      rw [second, body, Nat.add_assoc operands.inputOffset]
      exact (reduced_turn (zero_lt_of_lt does.1.rank) (by simp [Op.stores]) late lane).trans rfl
    | store step third member late =>
      rw [third]
      have stores : ∀ op ∈ (gatherSteps operands group.worldSize site.rank
          (site.index (twoShotAllReduceKernel operands group.worldSize) group)).map (fun step =>
            Op.store .output (gatherPerRank operands group.worldSize *
              ((site.rank + step) % group.worldSize) +
                site.index (twoShotAllReduceKernel operands group.worldSize) group) (.register step)),
          op.stores = true := by
        intro op among
        obtain ⟨_, _, rfl⟩ := mem_map.mp among
        rfl
      refine (congrFun (loaded_turn stores late member) lane).trans ?_
      change bufferSum group.worldSize before _ = bufferSum group.worldSize before _
      rw [add_assoc, add_assoc, add_assoc]
      rfl
  loads := by
    intro site peer index register lane does small
    obtain ⟨below, kind⟩ := gather_does does
    cases kind with
    | reduceLoad _ _ second early _ =>
      refine .inr ⟨by rw [second]; rfl, fun later writes => ?_⟩
      obtain ⟨target, place, value, further, also, few, same⟩ := writes
      obtain ⟨under, stores⟩ := gather_does also
      cases stores with
      | store => cases same
      | reduceStore too late _ =>
        have here := congrArg Cell.element same
        change _ + further = _ + lane at here
        change further < operands.numelPerThread at few
        change lane < operands.numelPerThread at small
        obtain ⟨rank, block, thread, turn⟩ := same_thread
          (gatherPerRank operands group.worldSize * site.rank + site.index
            (twoShotAllReduceKernel operands group.worldSize) group + lane)
          facts.vectored.positive does.1 also.1 below under
          (dvd_gatherPerRank (Nat.zero_lt_of_lt does.1.rank)) (Nat.le_add_right _ _)
          (Nat.add_lt_add_left small _) (by omega) (by
            change _ < _ + operands.numelPerThread
            omega)
        refine ⟨rank, block, thread, too.trans second.symm, ?_⟩
        rw [rank] at late
        rintro (sooner | ⟨_, sooner⟩)
        · omega
        · omega
    | load _ third member =>
      have remote : (site.rank + register) % group.worldSize < group.worldSize :=
        mod_lt _ (zero_lt_of_lt does.1.rank)
      have part := (mem_gatherSteps.mp member).2
      have earlier : Site.Does ⟨(site.rank + register) % group.worldSize, site.block, site.thread, 1,
            site.turn, (loadOrder group.worldSize ((site.rank + register) % group.worldSize)).length⟩
          (twoShotAllReduceKernel operands group.worldSize) group
          (.store (.buffer ((site.rank + register) % group.worldSize)) (operands.inputOffset +
            gatherPerRank operands group.worldSize * ((site.rank + register) % group.worldSize) +
              site.index (twoShotAllReduceKernel operands group.worldSize) group) .reduced) := by
        refine ⟨⟨remote, does.1.block, does.1.thread, (by decide : 1 < 3), below⟩, ?_⟩
        have body : (twoShotAllReduceKernel operands group.worldSize).body 1
            ((site.rank + register) % group.worldSize)
            (site.index (twoShotAllReduceKernel operands group.worldSize) group) = _ :=
          if_neg (Nat.not_le_of_lt part)
        exact (congrArg (fun ops : List Op => ops[_]?) body).trans (reduce_beyond 0)
      refine .inl ⟨_, ⟨_, _, _, lane, earlier, small, ?_⟩, ⟨?_, rfl, .inr one_pos⟩, ?_⟩
      · change Cell.buffer _ _ = Cell.buffer _ _
        rw [add_assoc operands.inputOffset]
      · exact third.symm ▸ one_lt_two
      · rw [third]
        rfl

end GatherContents

section Parts

variable {program : Program} {group : Group} {numelPerRank : Nat}

def Program.Reduces (program : Program) (group : Group) (rank element : Nat) : Prop :=
  ∃ site : Site, site.rank = rank ∧ ∃ peer index lane,
    site.Does program group (.store (.buffer peer) index .reduced) ∧
      lane < program.operands.numelPerThread ∧ index + lane = program.operands.inputOffset + element

structure Parted (program : Program) (group : Group) (numelPerRank : Nat) : Prop where
  vectored : program.operands.Vectored
  divides : program.operands.numelPerThread ∣ numelPerRank
  rounds : 1 < program.rounds
  bound : program.bound 1 = numelPerRank
  covers : ∀ element, element < program.operands.numel →
    ∃ rank place, rank < group.worldSize ∧ place < numelPerRank ∧ numelPerRank * rank + place = element
  sums : ∀ (site : Site) (peer index : Nat),
    site.Does program group (.store (.buffer peer) index .reduced) →
      site.index program group < numelPerRank ∧
      index = program.operands.inputOffset +
        (numelPerRank * site.rank + site.index program group)
  every : ∀ site : Site, site.round = 1 → site.step = (loadOrder group.worldSize site.rank).length →
    site.Valid program group →
    numelPerRank * site.rank + site.index program group < program.operands.numel →
      ∃ peer, site.Does program group (.store (.buffer peer) (program.operands.inputOffset +
        (numelPerRank * site.rank + site.index program group)) .reduced)

theorem Parted.once (parted : Parted program group numelPerRank)
    (small : group.worldSize ≤ maxSupaP2pDomainSize) (warp : 0 < group.warpSize) {element : Nat}
    (below : element < program.operands.numel) :
    ∃ rank, (rank < group.worldSize ∧ program.Reduces group rank element) ∧
      ∀ other, program.Reduces group other element → other = rank := by
  obtain ⟨rank, place, member, inside, rfl⟩ := parted.covers element below
  have vectored := parted.vectored
  have part := parted.divides.mul_right rank
  obtain ⟨first, lane, multiple, before, few, rfl⟩ := vector_of_element vectored.positive inside
  obtain ⟨block, thread, turn, valid⟩ := exists_site program small warp vectored.positive member
    parted.rounds multiple (before.trans_eq parted.bound.symm)
  obtain ⟨valid, same⟩ := valid (loadOrder group.worldSize rank).length
  have index : Site.index ⟨rank, block, thread, 1, turn, (loadOrder group.worldSize rank).length⟩
      program group = first := same
  obtain ⟨peer, does⟩ := parted.every _ rfl rfl valid (by
    rw [index]
    change numelPerRank * rank + first < _
    omega)
  rw [index] at does
  refine ⟨rank, ⟨member, _, rfl, peer, _, lane, does, few, ?_⟩, ?_⟩
  · change _ + (numelPerRank * rank + first) + lane = _
    omega
  · rintro other ⟨site, rfl, owner, base, further, also, less, here⟩
    obtain ⟨within, rfl⟩ := parted.sums site owner base also
    have low : numelPerRank * site.rank + site.index program group ≤
        numelPerRank * rank + (first + lane) := by omega
    have high : numelPerRank * rank + (first + lane) <
        numelPerRank * rank + first + program.operands.numelPerThread := by omega
    have places : numelPerRank * site.rank + site.index program group =
        numelPerRank * rank + first :=
      GridStride.eq_of_overlap (Nat.dvd_add (parted.divides.mul_right _) dvd_index)
        (Nat.dvd_add part multiple) low (by omega) (by omega) high
    exact (chunk_unique within before places).1

end Parts

section Results

variable {α : Type} [AddCommMonoid α] {operands : Operands} {group : Group} {world : World α}

theorem inplace_store {site : Site}
    (valid : site.Valid (twoShotAllReduceKernelInplace operands group.worldSize) group)
    (below : inplacePerRank operands group.worldSize * site.rank + site.index
      (twoShotAllReduceKernelInplace operands group.worldSize) group < operands.numel)
    {later : Nat} (small : later < group.worldSize)
    (step : site.step = (loadOrder group.worldSize site.rank).length + later) :
    site.Does (twoShotAllReduceKernelInplace operands group.worldSize) group
      (.store (.buffer ((site.rank + later) % group.worldSize)) (operands.inputOffset +
        (inplacePerRank operands group.worldSize * site.rank + site.index
          (twoShotAllReduceKernelInplace operands group.worldSize) group)) .reduced) := by
  refine ⟨valid, ?_⟩
  have body : (twoShotAllReduceKernelInplace operands group.worldSize).body site.round site.rank
      (site.index (twoShotAllReduceKernelInplace operands group.worldSize) group) = _ :=
    if_neg (Nat.not_le_of_lt below)
  rw [body, step, reduce_beyond later, getElem?_map, getElem?_range small, Nat.add_assoc]
  rfl

theorem inplace_parted (vectored : operands.Vectored) (ranks : 0 < group.worldSize) :
    Parted (twoShotAllReduceKernelInplace operands group.worldSize) group
      (inplacePerRank operands group.worldSize) where
  vectored := vectored
  divides := dvd_inplacePerRank vectored ranks
  rounds := one_lt_two
  bound := rfl
  covers := by
    intro element below
    refine chunk_of_element ranks ?_ below
    have positive := vectored.positive
    unfold Operands.numelPerThread at positive
    exact Nat.pos_of_ne_zero fun none => by rw [none, Nat.zero_div] at positive; omega
  sums := by
    intro site peer index does
    obtain ⟨_, within, _, kind⟩ := inplace_does does
    cases kind with
    | store => exact ⟨within, rfl⟩
  every := by
    intro site second step valid below
    exact ⟨(site.rank + 0) % group.worldSize, inplace_store valid below ranks step⟩

theorem gather_parted (vectored : operands.Vectored) (ranks : 0 < group.worldSize) :
    Parted (twoShotAllReduceKernel operands group.worldSize) group
      (gatherPerRank operands group.worldSize) where
  vectored := vectored
  divides := dvd_gatherPerRank ranks
  rounds := (by decide : 1 < 3)
  bound := rfl
  covers := fun _ below => chunk_of_element ranks vectored.positive below
  sums := by
    intro site peer index does
    obtain ⟨within, kind⟩ := gather_does does
    cases kind with
    | reduceStore => exact ⟨within, rfl⟩
  every := by
    intro site second step valid below
    refine ⟨site.rank, valid, ?_⟩
    have body : (twoShotAllReduceKernel operands group.worldSize).body 1 site.rank
        (site.index (twoShotAllReduceKernel operands group.worldSize) group) = _ :=
      if_neg (Nat.not_le_of_lt below)
    rw [second, body, step, ← Nat.add_assoc]
    exact reduce_beyond 0

theorem inplace_left
    (fitting : Fitting group (twoShotAllReduceKernelInplace operands group.worldSize))
    (vectored : operands.Vectored)
    (reached : (operation group (twoShotAllReduceKernelInplace operands group.worldSize)).Reachable
      (fun _ _ => True) world) :
    world.fault = false ∧ ∀ rank element, rank < group.worldSize → world.ended rank = true →
      element < operands.numel → world.left rank (operands.inputOffset + element) =
        bufferSum group.worldSize world.before (operands.inputOffset + element) := by
  obtain ⟨placed, valued⟩ := contents_reachable fitting (inplace_sound vectored) reached
  have here := valued world.before world.beforeLocal fun _ _ => ⟨rfl, rfl⟩
  refine ⟨here.noFault, fun rank element member ends below => ?_⟩
  have ranks := zero_lt_of_lt member
  have parted := inplace_parted vectored ranks
  obtain ⟨owner, place, one, inside, rfl⟩ := parted.covers element below
  obtain ⟨first, lane, multiple, before, few, rfl⟩ := vector_of_element vectored.positive inside
  obtain ⟨block, thread, turn, valid⟩ := exists_site
    (twoShotAllReduceKernelInplace operands group.worldSize) fitting.small fitting.warp
    vectored.positive one parted.rounds multiple before
  have turned : owner % group.worldSize < group.worldSize := mod_lt _ ranks
  obtain ⟨valid, same⟩ := valid ((loadOrder group.worldSize owner).length +
    (rank + (group.worldSize - owner % group.worldSize)) % group.worldSize)
  have index : Site.index ⟨owner, block, thread, 1, turn, (loadOrder group.worldSize owner).length +
      (rank + (group.worldSize - owner % group.worldSize)) % group.worldSize⟩
      (twoShotAllReduceKernelInplace operands group.worldSize) group = first := same
  have does := inplace_store valid (by
    rw [index]
    change inplacePerRank operands group.worldSize * owner + first < _
    omega) (mod_lt _ ranks) rfl
  rw [index] at does
  have back : (owner + (rank + (group.worldSize - owner % group.worldSize)) % group.worldSize) %
      group.worldSize = rank := rotation member
  refine here.left rank ends _ _ ⟨_, _, _, lane, does, few, ?_⟩
  change Cell.buffer _ _ = Cell.buffer _ _
  rw [add_assoc operands.inputOffset, ← add_assoc _ first lane]
  exact congrArg (Cell.buffer · _) back

/-- A vector that a thread reads in the second loop of `two_shot_all_reduce_kernel` has been
reduced. -/
def World.FindsReduced (group : Group) (program : Program) (input : Nat → Nat → α)
    (world : World α) : Prop :=
  ∀ rank block thread peer index register lane,
    Free group program world rank block thread → world.round rank block = 2 →
    (world.current rank block thread).Does program group (.load (.buffer peer) index register) →
    lane < program.operands.numelPerThread →
      world.buffers peer (index + lane) = bufferSum group.worldSize input (index + lane)

theorem gather_outputs (fitting : Fitting group (twoShotAllReduceKernel operands group.worldSize))
    (facts : OutputOperands operands operands.numel)
    (reached : (operation group (twoShotAllReduceKernel operands group.worldSize)).Reachable
      (fun _ _ => True) world) :
    AllReduced group operands.numel
        (fun rank element => world.before rank (operands.inputOffset + element)) world ∧
      world.FindsReduced group (twoShotAllReduceKernel operands group.worldSize) world.before := by
  obtain ⟨placed, valued⟩ := contents_reachable fitting (gather_sound facts) reached
  have here := valued world.before world.beforeLocal fun _ _ => ⟨rfl, rfl⟩
  have vectored := facts.vectored
  refine ⟨⟨here.noFault, fun rank element member ends below => ?_⟩, ?_⟩
  · have ranks := zero_lt_of_lt member
    have parted := gather_parted vectored ranks
    obtain ⟨owner, place, one, inside, rfl⟩ := parted.covers element below
    obtain ⟨first, lane, multiple, before, few, rfl⟩ := vector_of_element vectored.positive inside
    obtain ⟨block, thread, turn, valid⟩ := exists_site (twoShotAllReduceKernel operands group.worldSize)
      fitting.small fitting.warp vectored.positive member (by decide : 2 < 3) multiple before
    have back : (rank + (owner + (group.worldSize - rank % group.worldSize)) % group.worldSize) %
        group.worldSize = owner := rotation one
    have turned : (owner + (group.worldSize - rank % group.worldSize)) % group.worldSize <
        group.worldSize := mod_lt _ ranks
    generalize (owner + (group.worldSize - rank % group.worldSize)) % group.worldSize = step at *
    have among : step ∈ gatherSteps operands group.worldSize rank first := by
      refine mem_gatherSteps.mpr ⟨turned, ?_⟩
      rw [back]
      change gatherPerRank operands group.worldSize * owner + (first + lane) < _ at below
      omega
    obtain ⟨later, found⟩ := mem_iff_getElem?.mp among
    obtain ⟨valid, same⟩ := valid ((gatherSteps operands group.worldSize rank first).length + later)
    have does : Site.Does ⟨rank, block, thread, 2, turn,
        (gatherSteps operands group.worldSize rank first).length + later⟩
        (twoShotAllReduceKernel operands group.worldSize) group
        (.store .output (gatherPerRank operands group.worldSize * owner + first)
          (.register step)) := by
      refine ⟨valid, ?_⟩
      unfold Site.index
      rw [same, ← back]
      exact stores_beyond found
    refine here.outputs rank _ _ ⟨_, _, _, lane, does, few, ?_⟩ (placed.done_of_ended valid ends)
    change Cell.output _ _ = Cell.output _ _
    rw [add_assoc]
  · intro rank block thread peer index register lane free second does small
    rw [here.found placed fitting (gather_sound facts _ _) free does small, second]
    rfl

end Results

end TorchSupa.SymmMem.Collective
