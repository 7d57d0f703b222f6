import TorchSupa.Aten.DirectCopy

/-!
What the two kernels for permuted tensors store, and when they go wrong: the threads of a plane
store its first elements, those of a batch the elements of all its tiles.
-/

namespace TorchSupa.Aten.DirectCopy

open List Nat

variable {α : Type} {contents : Nat → α}

theorem bad_counter {value : Int} :
    (Event.counter value : Event α).Bad ↔ ¬(-2 ^ 31 ≤ value ∧ value < 2 ^ 31) := Iff.rfl

section Loops

variable {start stride bound k : Int}

variable (start bound) in
theorem turn_below (positive : 0 < stride) (turn : Nat) :
    turn < ((bound - start + stride - 1) / stride).toNat ↔ start + stride * turn < bound := by
  rw [Int.lt_toNat, ← Int.add_one_le_iff, Int.le_ediv_iff_mul_le positive, Int.add_mul,
    Int.mul_comm stride]
  omega

theorem mem_loop (positive : 0 < stride) :
    k ∈ loop start stride bound ↔ start ≤ k ∧ k < bound ∧ stride ∣ k - start := by
  simp only [loop, mem_map, mem_range, turn_below start bound positive]
  constructor
  · rintro ⟨turn, below, rfl⟩
    have forward : 0 ≤ stride * turn := Int.mul_nonneg positive.le (Int.natCast_nonneg _)
    exact ⟨by omega, below, ⟨turn, by omega⟩⟩
  · rintro ⟨low, high, turn, multiple⟩
    have forward : 0 ≤ turn := by
      by_contra backward
      have less := Int.mul_lt_mul_of_pos_left (Int.not_le.mp backward) positive
      omega
    lift turn to Nat using forward
    exact ⟨turn, by omega, by omega⟩

variable (start bound) in
theorem loopExit_cases (positive : 0 < stride) :
    (bound ≤ start ∧ loopExit start stride bound = start) ∨
      (bound ≤ loopExit start stride bound ∧ loopExit start stride bound < bound + stride) := by
  have last := turn_below start bound positive ((bound - start + stride - 1) / stride).toNat
  have ends : bound ≤ loopExit start stride bound := by
    unfold loopExit
    omega
  rcases Nat.eq_zero_or_pos ((bound - start + stride - 1) / stride).toNat with none | some
  · left
    unfold loopExit at ends ⊢
    rw [none] at ends ⊢
    simp only [Nat.cast_zero, Int.mul_zero, Int.add_zero] at ends ⊢
    exact ⟨ends, trivial⟩
  · right
    refine ⟨ends, ?_⟩
    have before := (turn_below start bound positive
      (((bound - start + stride - 1) / stride).toNat - 1)).mp (by omega)
    unfold loopExit
    rw [Nat.cast_sub some, Int.mul_sub] at before
    omega

variable (start stride bound) in
theorem dvd_loopExit : stride ∣ loopExit start stride bound - start :=
  ⟨((bound - start + stride - 1) / stride).toNat, by unfold loopExit; omega⟩

end Loops

section Planes

variable {srcBase dstBase : Nat} {start bound tailLen : Int} {address : Nat} {value : Option α}

theorem store_scalarLoop (low : 0 ≤ start ∨ bound ≤ start) :
    (∃ thread < 256, .store address value ∈ scalarLoop contents srcBase dstBase thread start bound) ↔
      ∃ elem : Nat, start ≤ elem ∧ elem < bound ∧ address = dstBase + 2 * elem ∧
        value = some (contents (srcBase + 2 * elem)) := by
  simp only [scalarLoop, mem_cons, reduceCtorEq, false_or, mem_flatMap, mem_range,
    mem_loop (show (0 : Int) < 256 * 2 by decide)]
  constructor
  · rintro ⟨thread, _, k, ⟨first, _, _⟩, p, _, stored⟩
    split at stored
    · next inside =>
        simp only [mem_singleton, Event.store.injEq] at stored
        exact ⟨(k + p).toNat, by omega, by omega, stored.1, stored.2⟩
    · cases stored
  · rintro ⟨elem, above, below, rfl, rfl⟩
    have split : ((elem : Int) - start) % 512 < 512 := Int.emod_lt_of_pos _ (by decide)
    refine ⟨((elem - start) % 512 / 2).toNat, by omega, elem - (elem - start) % 2, ?_,
      ((elem - start) % 2).toNat, by omega, ?_⟩
    · refine ⟨by omega, by omega, ?_⟩
      omega
    · rw [if_pos (by omega)]
      have same : (elem - (elem - start) % 2 + (((elem : Int) - start) % 2).toNat).toNat = elem := by
        omega
      simp only [same, mem_singleton]

theorem store_burstLoop (low : 0 ≤ start) (whole : (bound - start) % 16 = 0) :
    (∃ thread < 256, .store address value ∈ burstLoop contents srcBase dstBase thread start bound) ↔
      ∃ elem : Nat, start ≤ elem ∧ elem < bound ∧ address = dstBase + 2 * elem ∧
        value = some (contents (srcBase + 2 * elem)) := by
  simp only [burstLoop, mem_cons, reduceCtorEq, false_or, mem_flatMap, mem_append,
    not_mem_nil, mem_map, mem_range, Event.store.injEq,
    mem_loop (show (0 : Int) < 256 * 16 by decide)]
  constructor
  · rintro ⟨thread, _, k, ⟨first, before, multiple⟩, lane, small, rfl, rfl⟩
    exact ⟨k.toNat + lane, by omega, by omega, rfl, rfl⟩
  · rintro ⟨elem, above, below, rfl, rfl⟩
    refine ⟨((elem - start) % 4096 / 16).toNat, by omega, elem - (elem - start) % 16, ?_,
      ((elem - start) % 16).toNat, by omega, ?_⟩
    · exact ⟨by omega, by omega, by omega⟩
    · have same : (elem - ((elem : Int) - start) % 16).toNat + (((elem : Int) - start) % 16).toNat =
          elem := by omega
      simp [same]

def planeEvents (contents : Nat → α) (srcBase dstBase : Nat) (tailLen : Int) (thread : Nat) :
    List (Event α) :=
  scalarLoop contents srcBase dstBase thread 0 (alignElems srcBase dstBase) ++
    .counter (tailLen - alignElems srcBase dstBase) ::
    burstLoop contents srcBase dstBase thread (alignElems srcBase dstBase)
      (burstEnd srcBase dstBase tailLen) ++
    scalarLoop contents srcBase dstBase thread (burstEnd srcBase dstBase tailLen) tailLen

variable (srcBase dstBase) in
theorem alignElems_le : alignElems srcBase dstBase ≤ 8 := by
  unfold alignElems
  split <;> omega

theorem alignElems_of_ne (apart : srcBase % 16 ≠ dstBase % 16) : alignElems srcBase dstBase = 0 := by
  simp [alignElems, apart]

theorem burstEnd_cases (srcBase dstBase : Nat) (tailLen : Int) : (srcBase % 16 = dstBase % 16 ∧
      (burstEnd srcBase dstBase tailLen - alignElems srcBase dstBase) % 16 = 0 ∧
      (alignElems srcBase dstBase ≤ tailLen ∧
          alignElems srcBase dstBase ≤ burstEnd srcBase dstBase tailLen ∧
          burstEnd srcBase dstBase tailLen ≤ tailLen ∧
          tailLen < burstEnd srcBase dstBase tailLen + 16 ∨
        tailLen < alignElems srcBase dstBase ∧ tailLen ≤ burstEnd srcBase dstBase tailLen ∧
          burstEnd srcBase dstBase tailLen ≤ alignElems srcBase dstBase)) ∨
      srcBase % 16 ≠ dstBase % 16 ∧ burstEnd srcBase dstBase tailLen = 0 := by
  by_cases together : srcBase % 16 = dstBase % 16
  · left
    refine ⟨together, ?_⟩
    simp only [burstEnd, together, if_true]
    generalize (alignElems srcBase dstBase : Int) = first
    rcases Int.lt_or_le tailLen first with short | long
    · have turned : (tailLen - first).tdiv 16 = -((first - tailLen) / 16) := by
        rw [← Int.neg_sub, Int.neg_tdiv, Int.tdiv_eq_ediv_of_nonneg (by omega)]
      rw [turned]
      omega
    · rw [Int.tdiv_eq_ediv_of_nonneg (by omega)]
      omega
  · right
    exact ⟨together, by simp [burstEnd, together]⟩

theorem store_plane :
    (∃ thread < 256, .store address value ∈ planeEvents contents srcBase dstBase tailLen thread) ↔
      ∃ elem : Nat, (elem < alignElems srcBase dstBase ∨ elem < tailLen) ∧
        address = dstBase + 2 * elem ∧ value = some (contents (srcBase + 2 * elem)) := by
  have stop := burstEnd_cases srcBase dstBase tailLen
  simp only [planeEvents, mem_append, mem_cons, reduceCtorEq, false_or, and_or_left, exists_or]
  rw [store_scalarLoop (.inl (le_refl _)), store_scalarLoop (by omega)]
  rcases stop with ⟨_, whole, _⟩ | ⟨apart, stop⟩
  · rw [store_burstLoop (by omega) whole, ← exists_or, ← exists_or]
    apply exists_congr
    intro elem
    constructor
    · rintro ((⟨_, first, rest⟩ | ⟨_, inner, rest⟩) | ⟨_, last, rest⟩)
      · exact ⟨by omega, rest⟩
      · exact ⟨by omega, rest⟩
      · exact ⟨by omega, rest⟩
    · rintro ⟨inside, rest⟩
      by_cases first : elem < alignElems srcBase dstBase
      · exact .inl (.inl ⟨by omega, by omega, rest⟩)
      · by_cases inner : (elem : Int) < burstEnd srcBase dstBase tailLen
        · exact .inl (.inr ⟨by omega, inner, rest⟩)
        · exact .inr ⟨by omega, by omega, rest⟩
  · have first := alignElems_of_ne apart
    rw [stop, first, store_burstLoop (by simp) (by simp), ← exists_or, ← exists_or]
    apply exists_congr
    intro elem
    constructor
    · rintro ((⟨_, first, rest⟩ | ⟨_, inner, rest⟩) | ⟨_, last, rest⟩)
      · exact ⟨by omega, rest⟩
      · exact ⟨by omega, rest⟩
      · exact ⟨by omega, rest⟩
    · rintro ⟨inside, rest⟩
      exact .inr ⟨by omega, by omega, rest⟩

def CountersFit (srcBase dstBase : Nat) (tailLen : Int) : Prop :=
  if srcBase % 16 = dstBase % 16 then burstEnd srcBase dstBase tailLen + 4080 < 2 ^ 31
  else tailLen + 511 < 2 ^ 31

theorem bad_scalarLoop {thread : Nat} :
    (∃ event ∈ scalarLoop contents srcBase dstBase thread start bound, event.Bad) ↔
      ¬(-2 ^ 31 ≤ loopExit (start + thread * 2) (256 * 2) bound ∧
        loopExit (start + thread * 2) (256 * 2) bound < 2 ^ 31) := by
  simp only [scalarLoop, mem_cons, exists_eq_or_imp]
  constructor
  · rintro (bad | ⟨event, member, bad⟩)
    · exact bad
    · simp only [mem_flatMap] at member
      obtain ⟨k, _, p, _, stored⟩ := member
      split at stored
      · rw [mem_singleton.mp stored] at bad
        exact absurd bad id
      · cases stored
  · exact .inl

theorem bad_burstLoop {thread : Nat} (low : 0 ≤ start)
    (source : start < bound → (srcBase + 2 * start) % 16 = 0)
    (target : start < bound → (dstBase + 2 * start) % 16 = 0) :
    (∃ event ∈ burstLoop contents srcBase dstBase thread start bound, event.Bad) ↔
      ¬(-2 ^ 31 ≤ loopExit (start + thread * 16) (256 * 16) bound ∧
        loopExit (start + thread * 16) (256 * 16) bound < 2 ^ 31) := by
  simp only [burstLoop, mem_cons, exists_eq_or_imp]
  constructor
  · rintro (bad | ⟨event, member, bad⟩)
    · exact bad
    · simp only [mem_flatMap, mem_loop (show (0 : Int) < 256 * 16 by decide), mem_append,
        mem_cons, not_mem_nil, or_false, mem_map] at member
      obtain ⟨k, ⟨first, before, multiple⟩, (rfl | rfl | rfl | rfl) | ⟨lane, _, rfl⟩⟩ := member
      · exact absurd (show (srcBase + 2 * k.toNat) % 16 = 0 by omega) bad
      · exact absurd (show (srcBase + 2 * (k.toNat + 8)) % 16 = 0 by omega) bad
      · exact absurd (show (dstBase + 2 * k.toNat) % 16 = 0 by omega) bad
      · exact absurd (show (dstBase + 2 * (k.toNat + 8)) % 16 = 0 by omega) bad
      · exact absurd bad id
  · exact .inl

variable (contents) in
theorem bad_plane (forward : 0 ≤ tailLen) (short : tailLen < 2 ^ 31) (even : srcBase % 2 = 0) :
    (∃ thread < 256, ∃ event ∈ planeEvents contents srcBase dstBase tailLen thread, event.Bad) ↔
      ¬CountersFit srcBase dstBase tailLen := by
  have small := alignElems_le srcBase dstBase
  have stop := burstEnd_cases srcBase dstBase tailLen
  have together : srcBase % 16 = dstBase % 16 →
      (srcBase + 2 * (alignElems srcBase dstBase : Int)) % 16 = 0 ∧
        (dstBase + 2 * (alignElems srcBase dstBase : Int)) % 16 = 0 := by
    intro same
    unfold alignElems
    split <;> omega
  have events : ∀ thread, (∃ event ∈ planeEvents contents srcBase dstBase tailLen thread, event.Bad) ↔
      ¬(-2 ^ 31 ≤ loopExit (0 + (thread : Int) * 2) (256 * 2) (alignElems srcBase dstBase) ∧
          loopExit (0 + (thread : Int) * 2) (256 * 2) (alignElems srcBase dstBase) < 2 ^ 31) ∨
        ¬(-2 ^ 31 ≤ tailLen - alignElems srcBase dstBase ∧
          tailLen - alignElems srcBase dstBase < 2 ^ 31) ∨
        ¬(-2 ^ 31 ≤ loopExit (alignElems srcBase dstBase + (thread : Int) * 16) (256 * 16)
            (burstEnd srcBase dstBase tailLen) ∧
          loopExit (alignElems srcBase dstBase + (thread : Int) * 16) (256 * 16)
            (burstEnd srcBase dstBase tailLen) < 2 ^ 31) ∨
        ¬(-2 ^ 31 ≤ loopExit (burstEnd srcBase dstBase tailLen + (thread : Int) * 2) (256 * 2) tailLen ∧
          loopExit (burstEnd srcBase dstBase tailLen + (thread : Int) * 2) (256 * 2) tailLen < 2 ^ 31) := by
    intro thread
    simp only [planeEvents, mem_append, mem_cons, or_and_right, exists_or, exists_eq_left, or_assoc]
    rw [bad_scalarLoop, bad_burstLoop (by omega) (by omega) (by omega), bad_scalarLoop]
    rfl
  simp only [events]
  constructor
  · rintro ⟨thread, inside, bad⟩ fit
    have head := loopExit_cases (0 + (thread : Int) * 2) (alignElems srcBase dstBase)
      (show (0 : Int) < 256 * 2 by decide)
    have inner := loopExit_cases (alignElems srcBase dstBase + (thread : Int) * 16)
      (burstEnd srcBase dstBase tailLen) (show (0 : Int) < 256 * 16 by decide)
    have turns := dvd_loopExit (alignElems srcBase dstBase + (thread : Int) * 16) (256 * 16)
      (burstEnd srcBase dstBase tailLen)
    have last := loopExit_cases (burstEnd srcBase dstBase tailLen + (thread : Int) * 2) tailLen
      (show (0 : Int) < 256 * 2 by decide)
    unfold CountersFit at fit
    split at fit <;> omega
  · intro unfit
    unfold CountersFit at unfit
    split at unfit
    · -- the thread that handles the last vectors
      have thread : 0 ≤ ((burstEnd srcBase dstBase tailLen - alignElems srcBase dstBase) / 16 + 255) % 256 :=
        Int.emod_nonneg _ (by decide)
      refine ⟨(((burstEnd srcBase dstBase tailLen - alignElems srcBase dstBase) / 16 + 255) % 256).toNat,
        by omega, .inr (.inr (.inl ?_))⟩
      rw [Int.toNat_of_nonneg thread]
      have inner := loopExit_cases (alignElems srcBase dstBase +
          ((burstEnd srcBase dstBase tailLen - alignElems srcBase dstBase) / 16 + 255) % 256 * 16)
        (burstEnd srcBase dstBase tailLen) (show (0 : Int) < 256 * 16 by decide)
      have turns := dvd_loopExit (alignElems srcBase dstBase +
          ((burstEnd srcBase dstBase tailLen - alignElems srcBase dstBase) / 16 + 255) % 256 * 16)
        (256 * 16) (burstEnd srcBase dstBase tailLen)
      omega
    · have thread : 0 ≤ ((tailLen + 1) / 2 + 255) % 256 := Int.emod_nonneg _ (by decide)
      refine ⟨(((tailLen + 1) / 2 + 255) % 256).toNat, by omega, .inr (.inr (.inr ?_))⟩
      rw [Int.toNat_of_nonneg thread]
      have last := loopExit_cases (burstEnd srcBase dstBase tailLen +
          ((tailLen + 1) / 2 + 255) % 256 * 2) tailLen (show (0 : Int) < 256 * 2 by decide)
      have turns := dvd_loopExit (burstEnd srcBase dstBase tailLen +
          ((tailLen + 1) / 2 + 255) % 256 * 2) (256 * 2) tailLen
      omega

end Planes

section TailGrid

variable (cfg : ContiguousTail)

def ContiguousTail.srcBase (src i j : Nat) : Nat :=
  src + i * cfg.srcStrideRowBytes + j * cfg.srcStrideColBytes

def ContiguousTail.dstBase (dst i j : Nat) : Nat :=
  dst + i * cfg.dstStrideRowBytes + j * cfg.dstStrideColBytes

theorem kernel_eq (src dst blockX blockY thread : Nat) (onX : Bool) :
    permute102ContigTailKernel contents src dst cfg onX blockX blockY thread =
      if cfg.planeRows ≤ (if onX then blockY else blockX : Nat) ∨
        cfg.planeCols ≤ (if onX then blockX else blockY : Nat) then []
      else planeEvents contents
        (cfg.srcBase src (if onX then blockY else blockX) (if onX then blockX else blockY))
        (cfg.dstBase dst (if onX then blockY else blockX) (if onX then blockX else blockY))
        cfg.tailLen thread := rfl

theorem mem_tailGrid {src dst : Tensor} {event : Event α} :
    event ∈ permute3dTransposeCopyImpl contents src dst (.contiguousTail cfg) ↔
      ∃ i j : Nat, i < cfg.planeRows ∧ j < cfg.planeCols ∧ ∃ thread < 256,
        event ∈ planeEvents contents (cfg.srcBase src.dataPtr i j) (cfg.dstBase dst.dataPtr i j)
          cfg.tailLen thread := by
  simp only [permute3dTransposeCopyImpl, mem_flatMap, mem_range, kernel_eq]
  by_cases onX : cfg.planeCols ≤ cfg.planeRows
  · simp only [onX, decide_true, if_true]
    constructor
    · rintro ⟨x, xInside, y, yInside, thread, inside, member⟩
      rw [if_neg (by omega)] at member
      exact ⟨y, x, by omega, by omega, thread, inside, member⟩
    · rintro ⟨i, j, row, col, thread, inside, member⟩
      refine ⟨j, by omega, i, by omega, thread, inside, ?_⟩
      rwa [if_neg (by omega)]
  · simp only [onX, decide_false, Bool.false_eq_true, if_false]
    constructor
    · rintro ⟨x, xInside, y, yInside, thread, inside, member⟩
      rw [if_neg (by omega)] at member
      exact ⟨x, y, by omega, by omega, thread, inside, member⟩
    · rintro ⟨i, j, row, col, thread, inside, member⟩
      refine ⟨i, by omega, j, by omega, thread, inside, ?_⟩
      rwa [if_neg (by omega)]

end TailGrid

section Tiles

variable {puts : List (Put α)} {row col : Nat} {value : Option α}

theorem held_eq (content : Nat → Nat → α) (same : ∀ put ∈ puts, put.value = content put.row put.col)
    (covered : ∃ put ∈ puts, put.row = row ∧ put.col = col) :
    held puts row col = some (content row col) := by
  unfold held
  cases found : puts.find? fun put => put.row = row ∧ put.col = col with
  | none =>
    obtain ⟨put, member, here⟩ := covered
    have missed := find?_eq_none.mp found put member
    simp [here] at missed
  | some put =>
    have member := mem_of_find?_eq_some found
    have here := find?_some found
    simp only [decide_eq_true_eq] at here
    simp [same put member, here]

theorem mem_places_full : (row, col) ∈ places 8 ↔ row < 64 ∧ col < 8 := by
  simp only [places, mem_flatMap, mem_map, mem_range, Prod.mk.injEq]
  constructor
  · rintro ⟨thread, inside, t, small, rfl, rfl⟩
    omega
  · rintro ⟨rows, cols⟩
    exact ⟨row % 32 * 8 + col, by omega, row / 32, by omega, by omega, by omega⟩

theorem mem_places_rest : (row, col) ∈ places 64 ↔ row < 64 ∧ col < 64 := by
  simp only [places, mem_flatMap, mem_map, mem_range, Prod.mk.injEq]
  constructor
  · rintro ⟨thread, inside, t, small, rfl, rfl⟩
    omega
  · rintro ⟨rows, cols⟩
    exact ⟨row % 4 * 64 + col, by omega, row / 4, by omega, by omega, by omega⟩

variable {address pat pc strideN strideK : Nat}

theorem store_fullTile : .store address value ∈ fullTile contents pat pc strideN strideK ↔
      ∃ n k, n < 64 ∧ k < 64 ∧ address = pc + n * strideK + k * 2 ∧
        value = some (contents (pat + k * strideN + n * 2)) := by
  have cells : ∀ row col, row < 64 → col < 64 →
      held ((places 8).flatMap fun place => (range 8).map fun i =>
        Put.mk place.1 (place.2 * 8 + i)
          (contents (pat + (place.1 * strideN + place.2 * 16) + 2 * i))) row col =
        some (contents (pat + row * strideN + col * 2)) := by
    intro row col rows cols
    refine held_eq (fun row col => contents (pat + row * strideN + col * 2)) ?_ ?_
    · intro put member
      simp only [mem_flatMap, mem_map, mem_range] at member
      obtain ⟨⟨row, col⟩, _, i, _, rfl⟩ := member
      exact congrArg contents (by ring)
    · simp only [mem_flatMap, mem_map, mem_range]
      exact ⟨_, ⟨(row, col / 8), mem_places_full.mpr ⟨rows, by omega⟩, col % 8, by omega, rfl⟩, rfl,
        by simp only; omega⟩
  simp only [fullTile, mem_append, mem_map, reduceCtorEq, and_false, exists_false, false_or,
    mem_flatMap, mem_cons, mem_range, Event.store.injEq, Prod.exists]
  constructor
  · rintro ⟨row, col, inside, i, small, rfl, rfl⟩
    have inside := mem_places_full.mp inside
    refine ⟨row, col * 8 + i, by omega, by omega, by ring, ?_⟩
    exact cells _ _ (by omega) (by omega)
  · rintro ⟨n, k, rows, cols, rfl, rfl⟩
    refine ⟨n, k / 8, mem_places_full.mpr ⟨rows, by omega⟩, k % 8, by omega, ?_, ?_⟩
    · omega
    · have split : k / 8 * 8 + k % 8 = k := by omega
      rw [split]
      exact cells k n cols rows

theorem store_partialTile {maxPartN maxPartK : Nat} {cfg : Tile} (rows : maxPartN ≤ 64)
    (cols : maxPartK ≤ 64) :
    .store address value ∈ partialTile contents pat pc maxPartN maxPartK cfg ↔
      ∃ n k, n < maxPartN ∧ k < maxPartK ∧
        address = pc + n * cfg.dstStrideRowBytes + k * cfg.dstStrideColBytes ∧
        value = some (contents (pat + k * cfg.srcStrideKBytes + n * cfg.srcStrideNBytes)) := by
  have cells : ∀ row col, row < maxPartK → col < maxPartN →
      held (((places 64).filter fun place => place.2 < maxPartN ∧ place.1 < maxPartK).map
        fun place => Put.mk place.1 place.2
          (contents (pat + (place.1 * cfg.srcStrideKBytes + place.2 * cfg.srcStrideNBytes)))) row col =
        some (contents (pat + row * cfg.srcStrideKBytes + col * cfg.srcStrideNBytes)) := by
    intro row col here there
    refine held_eq (fun row col =>
        contents (pat + row * cfg.srcStrideKBytes + col * cfg.srcStrideNBytes)) ?_ ?_
    · intro put member
      simp only [mem_map] at member
      obtain ⟨⟨row, col⟩, _, rfl⟩ := member
      exact congrArg contents (by ring)
    · simp only [mem_map, mem_filter, decide_eq_true_eq]
      exact ⟨_, ⟨(row, col), ⟨mem_places_rest.mpr ⟨by omega, by omega⟩, there, here⟩, rfl⟩, rfl, rfl⟩
  simp only [partialTile, mem_map, mem_filter, decide_eq_true_eq, Event.store.injEq, Prod.exists]
  constructor
  · rintro ⟨row, col, ⟨_, below, under⟩, rfl, rfl⟩
    exact ⟨row, col, under, below, by ring, cells _ _ below under⟩
  · rintro ⟨n, k, under, below, rfl, rfl⟩
    exact ⟨n, k, ⟨mem_places_rest.mpr ⟨by omega, by omega⟩, below, under⟩, by ring,
      cells _ _ below under⟩

theorem bad_fullTile : (∃ event ∈ fullTile contents pat pc strideN strideK, event.Bad) ↔
      ¬(pat % 16 = 0 ∧ pc % 16 = 0 ∧ strideN % 16 = 0 ∧ strideK % 16 = 0) := by
  simp only [fullTile, mem_append, mem_map, mem_flatMap, mem_cons, mem_range]
  constructor
  · rintro ⟨event, (⟨⟨row, col⟩, _, rfl⟩ | ⟨⟨row, col⟩, _, rfl | ⟨i, _, rfl⟩⟩), bad⟩ aligned
    · have rows := mod_eq_zero_of_dvd ((dvd_of_mod_eq_zero aligned.2.2.1).mul_left row)
      change (pat + (row * strideN + col * 16)) % 16 ≠ 0 at bad
      omega
    · have rows := mod_eq_zero_of_dvd ((dvd_of_mod_eq_zero aligned.2.2.2).mul_left row)
      change (pc + (row * strideK + col * 16)) % 16 ≠ 0 at bad
      omega
    · exact bad
  · intro misaligned
    by_contra fine
    push Not at fine
    have loads : ∀ row < 64, (pat + (row * strideN + 0 * 16)) % 16 = 0 := fun row small =>
      not_not.mp (fine _ (.inl ⟨(row, 0), mem_places_full.mpr ⟨small, by decide⟩, rfl⟩))
    have stores : ∀ row < 64, (pc + (row * strideK + 0 * 16)) % 16 = 0 := fun row small =>
      not_not.mp (fine _ (.inr ⟨(row, 0), mem_places_full.mpr ⟨small, by decide⟩, .inl rfl⟩))
    have first := loads 0 (by decide)
    have second := loads 1 (by decide)
    have third := stores 0 (by decide)
    have fourth := stores 1 (by decide)
    exact misaligned ⟨by omega, by omega, by omega, by omega⟩

theorem bad_partialTile {maxPartN maxPartK : Nat} {cfg : Tile} :
    ¬∃ event ∈ partialTile contents pat pc maxPartN maxPartK cfg, event.Bad := by
  rintro ⟨event, member, bad⟩
  simp only [partialTile, mem_map] at member
  obtain ⟨_, _, rfl⟩ := member
  exact bad

end Tiles

section TileGrid

variable (cfg : Tile)

def Tile.source (src m n k : Nat) : Nat :=
  src + m * cfg.srcBatchStrideBytes + n * cfg.srcStrideNBytes + k * cfg.srcStrideKBytes

def Tile.target (dst m n k : Nat) : Nat :=
  dst + m * cfg.dstBatchStrideBytes + n * cfg.dstStrideRowBytes + k * cfg.dstStrideColBytes

def Tile.Contiguous : Prop := cfg.srcNContiguous = true → cfg.srcStrideNBytes = 2

def Tile.Vectored (n k : Nat) : Prop :=
  cfg.srcNContiguous = true ∧ cfg.dstStrideColBytes = 2 ∧ 64 ≤ n ∧ 64 ≤ k

def Tile.Aligned (src dst batchCount : Nat) : Prop :=
  src % 16 = 0 ∧ dst % 16 = 0 ∧ cfg.srcStrideKBytes % 16 = 0 ∧ cfg.dstStrideRowBytes % 16 = 0 ∧
    (1 < batchCount → cfg.srcBatchStrideBytes % 16 = 0 ∧ cfg.dstBatchStrideBytes % 16 = 0)

def tileCount (size : Nat) : Nat := (size + 63) / 64

def part (size tile : Nat) : Nat :=
  if tile = tileCount size - 1 ∧ size % 64 ≠ 0 then size % 64 else 64

variable {cfg} {n k m ti tj a c address : Nat} {value : Option α}

theorem part_le (size tile : Nat) : part size tile ≤ 64 := by
  unfold part
  split <;> omega

theorem lt_part {size tile place : Nat} (inside : tile < tileCount size) :
    place < part size tile ↔ place < 64 ∧ tile * 64 + place < size := by
  unfold part tileCount at *
  split <;> omega

theorem tile_lt {size place : Nat} (inside : place < size) : place / 64 < tileCount size := by
  unfold tileCount
  omega

theorem block_digits {rows cols : Nat} (row : ti < rows) (col : tj < cols) :
    (m * (rows * cols) + (ti * cols + tj)) / (rows * cols) = m ∧
      (m * (rows * cols) + (ti * cols + tj)) % (rows * cols) = ti * cols + tj ∧
      (ti * cols + tj) / cols = ti ∧ (ti * cols + tj) % cols = tj := by
  have inside : ti * cols + tj < rows * cols := by
    calc ti * cols + tj < ti * cols + cols := Nat.add_lt_add_left col _
      _ = (ti + 1) * cols := by ring
      _ ≤ rows * cols := mul_le_mul_right _ row
  have some : 0 < rows * cols := zero_lt_of_lt inside
  refine ⟨?_, ?_, ?_, ?_⟩
  · rw [mul_comm m, mul_add_div some, div_eq_of_lt inside, add_zero]
  · rw [mul_comm m, mul_add_mod, mod_eq_of_lt inside]
  · rw [mul_comm ti, mul_add_div (zero_lt_of_lt col), div_eq_of_lt col, add_zero]
  · rw [mul_comm ti, mul_add_mod, mod_eq_of_lt col]

theorem exists_digits {rows cols batches block : Nat} (inside : block < batches * (rows * cols)) :
    ∃ m ti tj, m < batches ∧ ti < rows ∧ tj < cols ∧ block = m * (rows * cols) + (ti * cols + tj) := by
  have some : 0 < rows * cols := by
    by_contra none
    rw [Nat.eq_zero_of_not_pos none, Nat.mul_zero] at inside
    omega
  have positive : 0 < cols := Nat.pos_of_mul_pos_left some
  refine ⟨block / (rows * cols), block % (rows * cols) / cols, block % (rows * cols) % cols, ?_, ?_,
    Nat.mod_lt _ positive, ?_⟩
  · exact Nat.div_lt_of_lt_mul (by rwa [Nat.mul_comm])
  · exact Nat.div_lt_of_lt_mul (by
      rw [Nat.mul_comm cols]
      exact mod_lt _ some)
  · rw [div_add_mod', div_add_mod']

def tileBlock {β : Type} (whole : Nat → Nat → Nat → Nat → β) (rest : Nat → Nat → Nat → Nat → β)
    (a c n k : Nat) (cfg : Tile) (block : Nat) : β :=
  let nTiles := u32 (n + 64 - 1) / 64
  let kTiles := u32 (k + 64 - 1) / 64
  let nkTiles := u32 (nTiles * kTiles)
  let m := block / nkTiles
  let inBatch := block % nkTiles
  let tIdx := if inBatch > 0 then inBatch
    else inBatch / 64 * 64 + inBatch % 64 / 8 + inBatch % 8 * 8
  let ti := tIdx / kTiles
  let tj := tIdx % kTiles
  let maxPartN := if ti = nTiles - 1 ∧ n % 64 ≠ 0 then n % 64 else 64
  let maxPartK := if tj = kTiles - 1 ∧ k % 64 ≠ 0 then k % 64 else 64
  if cfg.srcNContiguous && decide (cfg.dstStrideColBytes = 2) && maxPartN = 64 && maxPartK = 64 then
    whole (a + u32 (tj * 64) * cfg.srcStrideKBytes + u32 (ti * 128) + m * cfg.srcBatchStrideBytes)
      (c + u32 (ti * 64) * cfg.dstStrideRowBytes + u32 (tj * 128) + m * cfg.dstBatchStrideBytes)
      cfg.srcStrideKBytes cfg.dstStrideRowBytes
  else
    rest (a + m * cfg.srcBatchStrideBytes + ti * 64 * cfg.srcStrideNBytes +
        tj * 64 * cfg.srcStrideKBytes)
      (c + m * cfg.dstBatchStrideBytes + ti * 64 * cfg.dstStrideRowBytes +
        tj * 64 * cfg.dstStrideColBytes) maxPartN maxPartK

theorem tileBlock_eq {β : Type} (whole rest : Nat → Nat → Nat → Nat → β) (cfg : Tile)
    (some : 0 < n ∧ 0 < k) (ints : n < 2 ^ 31 ∧ k < 2 ^ 31)
    (grid : tileCount n * tileCount k < 2 ^ 32) (row : ti < tileCount n) (col : tj < tileCount k) :
    tileBlock whole rest a c n k cfg (m * (tileCount n * tileCount k) + (ti * tileCount k + tj)) =
      if cfg.srcNContiguous = true ∧ cfg.dstStrideColBytes = 2 ∧ part n ti = 64 ∧ part k tj = 64 then
        whole (a + tj * 64 * cfg.srcStrideKBytes + ti * 128 + m * cfg.srcBatchStrideBytes)
          (c + ti * 64 * cfg.dstStrideRowBytes + tj * 128 + m * cfg.dstBatchStrideBytes)
          cfg.srcStrideKBytes cfg.dstStrideRowBytes
      else rest
        (a + m * cfg.srcBatchStrideBytes + ti * 64 * cfg.srcStrideNBytes + tj * 64 * cfg.srcStrideKBytes)
        (c + m * cfg.dstBatchStrideBytes + ti * 64 * cfg.dstStrideRowBytes +
          tj * 64 * cfg.dstStrideColBytes) (part n ti) (part k tj) := by
  obtain ⟨slice, tile, tileRow, tileCol⟩ := block_digits (m := m) row col
  have nTiles : u32 (n + 64 - 1) / 64 = tileCount n := by
    unfold u32 tileCount
    omega
  have kTiles : u32 (k + 64 - 1) / 64 = tileCount k := by
    unfold u32 tileCount
    omega
  have rows : u32 (ti * 64) = ti * 64 ∧ u32 (ti * 128) = ti * 128 := by
    unfold u32
    unfold tileCount at row
    omega
  have cols : u32 (tj * 64) = tj * 64 ∧ u32 (tj * 128) = tj * 128 := by
    unfold u32
    unfold tileCount at col
    omega
  -- there is no swizzle but of the first tile, which it leaves where it is
  have swizzle : ∀ tIdx : Nat,
      (if tIdx > 0 then tIdx else tIdx / 64 * 64 + tIdx % 64 / 8 + tIdx % 8 * 8) = tIdx := by
    intro tIdx
    split <;> omega
  simp only [tileBlock, nTiles, kTiles,
    show u32 (tileCount n * tileCount k) = tileCount n * tileCount k from mod_eq_of_lt grid,
    slice, tile, swizzle, tileRow, tileCol, rows, cols, Bool.and_eq_true, decide_eq_true_eq, and_assoc]
  rfl

theorem block_eq (cfg : Tile) (some : 0 < n ∧ 0 < k) (ints : n < 2 ^ 31 ∧ k < 2 ^ 31)
    (grid : tileCount n * tileCount k < 2 ^ 32) (row : ti < tileCount n) (col : tj < tileCount k) :
    transposeTileBigKernel contents a c n k cfg
        (m * (tileCount n * tileCount k) + (ti * tileCount k + tj)) =
      if cfg.srcNContiguous = true ∧ cfg.dstStrideColBytes = 2 ∧ part n ti = 64 ∧ part k tj = 64 then
        fullTile contents
          (a + tj * 64 * cfg.srcStrideKBytes + ti * 128 + m * cfg.srcBatchStrideBytes)
          (c + ti * 64 * cfg.dstStrideRowBytes + tj * 128 + m * cfg.dstBatchStrideBytes)
          cfg.srcStrideKBytes cfg.dstStrideRowBytes
      else partialTile contents
        (a + m * cfg.srcBatchStrideBytes + ti * 64 * cfg.srcStrideNBytes + tj * 64 * cfg.srcStrideKBytes)
        (c + m * cfg.dstBatchStrideBytes + ti * 64 * cfg.dstStrideRowBytes +
          tj * 64 * cfg.dstStrideColBytes) (part n ti) (part k tj) cfg :=
  tileBlock_eq (fullTile contents) (fun pat pc rows cols => partialTile contents pat pc rows cols cfg)
    cfg some ints grid row col

theorem store_block (contents : Nat → α) (a c m address : Nat) (value : Option α)
    (contiguous : cfg.Contiguous) (some : 0 < n ∧ 0 < k)
    (ints : n < 2 ^ 31 ∧ k < 2 ^ 31) (grid : tileCount n * tileCount k < 2 ^ 32)
    (row : ti < tileCount n) (col : tj < tileCount k) :
    .store address value ∈ transposeTileBigKernel contents a c n k cfg
        (m * (tileCount n * tileCount k) + (ti * tileCount k + tj)) ↔
      ∃ r s, r < part n ti ∧ s < part k tj ∧ address = cfg.target c m (ti * 64 + r) (tj * 64 + s) ∧
        value = .some (contents (cfg.source a m (ti * 64 + r) (tj * 64 + s))) := by
  rw [block_eq cfg some ints grid row col]
  split
  · next vectors =>
      obtain ⟨nContiguous, kContiguous, fullN, fullK⟩ := vectors
      rw [store_fullTile, fullN, fullK]
      simp only [Tile.target, Tile.source, contiguous nContiguous, kContiguous]
      apply exists_congr
      intro r
      apply exists_congr
      intro s
      have target : c + ti * 64 * cfg.dstStrideRowBytes + tj * 128 + m * cfg.dstBatchStrideBytes +
          r * cfg.dstStrideRowBytes + s * 2 = c + m * cfg.dstBatchStrideBytes +
          (ti * 64 + r) * cfg.dstStrideRowBytes + (tj * 64 + s) * 2 := by ring
      have source : a + tj * 64 * cfg.srcStrideKBytes + ti * 128 + m * cfg.srcBatchStrideBytes +
          s * cfg.srcStrideKBytes + r * 2 = a + m * cfg.srcBatchStrideBytes + (ti * 64 + r) * 2 +
          (tj * 64 + s) * cfg.srcStrideKBytes := by ring
      rw [target, source]
  · rw [store_partialTile (part_le _ _) (part_le _ _)]
    simp only [Tile.target, Tile.source]
    apply exists_congr
    intro r
    apply exists_congr
    intro s
    have target : c + m * cfg.dstBatchStrideBytes + ti * 64 * cfg.dstStrideRowBytes +
        tj * 64 * cfg.dstStrideColBytes + r * cfg.dstStrideRowBytes + s * cfg.dstStrideColBytes =
        c + m * cfg.dstBatchStrideBytes + (ti * 64 + r) * cfg.dstStrideRowBytes +
        (tj * 64 + s) * cfg.dstStrideColBytes := by ring
    have source : a + m * cfg.srcBatchStrideBytes + ti * 64 * cfg.srcStrideNBytes +
        tj * 64 * cfg.srcStrideKBytes + s * cfg.srcStrideKBytes + r * cfg.srcStrideNBytes =
        a + m * cfg.srcBatchStrideBytes + (ti * 64 + r) * cfg.srcStrideNBytes +
        (tj * 64 + s) * cfg.srcStrideKBytes := by ring
    rw [target, source]

theorem bad_block (contents : Nat → α) (cfg : Tile) (a c m : Nat) (some : 0 < n ∧ 0 < k) (ints : n < 2 ^ 31 ∧ k < 2 ^ 31)
    (grid : tileCount n * tileCount k < 2 ^ 32) (row : ti < tileCount n) (col : tj < tileCount k) :
    (∃ event ∈ transposeTileBigKernel contents a c n k cfg
        (m * (tileCount n * tileCount k) + (ti * tileCount k + tj)), event.Bad) ↔
      (cfg.srcNContiguous = true ∧ cfg.dstStrideColBytes = 2 ∧ part n ti = 64 ∧ part k tj = 64) ∧
        ¬((a + m * cfg.srcBatchStrideBytes) % 16 = 0 ∧ (c + m * cfg.dstBatchStrideBytes) % 16 = 0 ∧
          cfg.srcStrideKBytes % 16 = 0 ∧ cfg.dstStrideRowBytes % 16 = 0) := by
  rw [block_eq cfg some ints grid row col]
  split
  · next vectors =>
      have loads : (tj * 64 * cfg.srcStrideKBytes) % 16 = 0 :=
        Nat.mod_eq_zero_of_dvd ((Nat.dvd_mul_left_of_dvd (by decide) tj).mul_right _)
      have stores : (ti * 64 * cfg.dstStrideRowBytes) % 16 = 0 :=
        Nat.mod_eq_zero_of_dvd ((Nat.dvd_mul_left_of_dvd (by decide) ti).mul_right _)
      simp only [vectors, and_self, true_and, bad_fullTile]
      omega
  · next single =>
      simp only [single, false_and, iff_false]
      exact bad_partialTile

theorem wrap_of_int {size : Nat} (int : size < 2 ^ 31) : ((size : Int) % 2 ^ 32).toNat = size := by
  omega

theorem blocks_eq (batches rows cols : Nat) :
    (batches : Int) * rows * cols = (batches * (rows * cols) : Nat) := by
  rw [← mul_assoc]
  norm_cast

structure Tile.Launched (cfg : Tile) (batches n k : Nat) : Prop where
  contiguous : cfg.Contiguous
  tileN : cfg.tileN = n
  tileK : cfg.tileK = k
  batchCount : cfg.batchCount = batches
  some : 0 < n ∧ 0 < k
  batchy : 0 < batches
  ints : n < 2 ^ 31 ∧ k < 2 ^ 31
  grid : batches * (tileCount n * tileCount k) < 2 ^ 31

section Launched

variable {batches : Nat}

theorem tiles_eq (size : Nat) : tiles size = tileCount size := by
  unfold tiles tileCount
  rw [Int.tdiv_eq_ediv_of_nonneg (by omega)]
  omega

theorem tileCount_pos {size : Nat} (some : 0 < size) : 0 < tileCount size := by
  unfold tileCount
  omega

variable {src dst : Tensor}

variable (launched : cfg.Launched batches n k)
include launched

theorem Tile.Launched.tiles_small : tileCount n * tileCount k < 2 ^ 32 := by
  have grid := launched.grid
  have one := mul_le_mul_right (tileCount n * tileCount k) launched.batchy
  omega

theorem Tile.Launched.copy_eq : permute3dTransposeCopyImpl contents src dst (.tile cfg) =
      [.counter (n + 64), .counter (k + 64), .counter (batches * tileCount n : Nat),
        .counter (batches * (tileCount n * tileCount k) : Nat)] ++
      (List.range (batches * (tileCount n * tileCount k))).flatMap fun block =>
        transposeTileBigKernel contents src.dataPtr dst.dataPtr n k cfg block := by
  have slices : (batches : Int) * tileCount n = (batches * tileCount n : Nat) := by norm_cast
  simp only [permute3dTransposeCopyImpl, launched.tileN, launched.tileK, launched.batchCount,
    tiles_eq, wrap_of_int launched.ints.1, wrap_of_int launched.ints.2, blocks_eq, Int.toNat_natCast]
  rw [slices]

theorem Tile.Launched.store_grid :
    .store address value ∈ permute3dTransposeCopyImpl contents src dst (.tile cfg) ↔
      ∃ m r s, m < batches ∧ r < n ∧ s < k ∧ address = cfg.target dst.dataPtr m r s ∧
        value = .some (contents (cfg.source src.dataPtr m r s)) := by
  have block := fun m ti tj (row : ti < tileCount n) (col : tj < tileCount k) =>
    store_block contents src.dataPtr dst.dataPtr m address value launched.contiguous launched.some launched.ints
      launched.tiles_small row col
  simp only [launched.copy_eq, mem_append, mem_cons, reduceCtorEq, not_mem_nil, or_false,
    false_or, mem_flatMap, mem_range]
  constructor
  · rintro ⟨number, inside, stored⟩
    obtain ⟨m, ti, tj, slice, row, col, rfl⟩ := exists_digits inside
    obtain ⟨r, s, rows, cols, rest⟩ := (block m ti tj row col).mp stored
    exact ⟨m, _, _, slice, ((lt_part row).mp rows).2, ((lt_part col).mp cols).2, rest⟩
  · rintro ⟨m, r, s, slice, rows, cols, rest⟩
    have row := tile_lt rows
    have col := tile_lt cols
    refine ⟨m * (tileCount n * tileCount k) + (r / 64 * tileCount k + s / 64), ?_,
      (block m _ _ row col).mpr ⟨r % 64, s % 64, ?_, ?_, ?_⟩⟩
    · calc m * (tileCount n * tileCount k) + (r / 64 * tileCount k + s / 64)
          < m * (tileCount n * tileCount k) + tileCount n * tileCount k := by
            apply Nat.add_lt_add_left
            calc r / 64 * tileCount k + s / 64 < r / 64 * tileCount k + tileCount k :=
                  Nat.add_lt_add_left col _
              _ = (r / 64 + 1) * tileCount k := by ring
              _ ≤ tileCount n * tileCount k := mul_le_mul_right _ row
        _ = (m + 1) * (tileCount n * tileCount k) := by ring
        _ ≤ batches * (tileCount n * tileCount k) := mul_le_mul_right _ slice
    · exact (lt_part row).mpr ⟨by omega, by omega⟩
    · exact (lt_part col).mpr ⟨by omega, by omega⟩
    · rwa [div_add_mod', div_add_mod']

theorem Tile.Launched.bad_grid :
    (∃ event ∈ permute3dTransposeCopyImpl contents src dst (.tile cfg), event.Bad) ↔
      ¬(n + 64 < 2 ^ 31 ∧ k + 64 < 2 ^ 31 ∧
        (cfg.Vectored n k → cfg.Aligned src.dataPtr dst.dataPtr batches)) := by
  have block := fun m ti tj (row : ti < tileCount n) (col : tj < tileCount k) =>
    bad_block contents cfg src.dataPtr dst.dataPtr m launched.some launched.ints launched.tiles_small row col
  have manyRows := tileCount_pos launched.some.1
  have manyCols := tileCount_pos launched.some.2
  have blocks : batches * tileCount n ≤ batches * (tileCount n * tileCount k) :=
    Nat.mul_le_mul_left _ (Nat.le_mul_of_pos_right _ manyCols)
  have grid := launched.grid
  simp only [launched.copy_eq, mem_append, mem_cons, not_mem_nil, or_false, or_and_right,
    exists_or, exists_eq_left, mem_flatMap, mem_range, bad_counter]
  constructor
  · rintro ((one | two | three | four) | ⟨event, ⟨number, inside, member⟩, bad⟩)
    · omega
    · omega
    · omega
    · omega
    · obtain ⟨m, ti, tj, slice, row, col, rfl⟩ := exists_digits inside
      obtain ⟨⟨nContiguous, kContiguous, fullN, fullK⟩, misaligned⟩ :=
        (block m ti tj row col).mp ⟨event, member, bad⟩
      rintro ⟨_, _, aligned⟩
      have lastRow := (lt_part row).mp (show 63 < part n ti by omega)
      have lastCol := (lt_part col).mp (show 63 < part k tj by omega)
      obtain ⟨first, second, third, fourth, batch⟩ := aligned ⟨nContiguous, kContiguous, by omega, by omega⟩
      rcases Nat.eq_zero_or_pos m with rfl | later
      · omega
      · obtain ⟨source, target⟩ := batch (by omega)
        have loads := Nat.mod_eq_zero_of_dvd ((Nat.dvd_of_mod_eq_zero source).mul_left m)
        have stores := Nat.mod_eq_zero_of_dvd ((Nat.dvd_of_mod_eq_zero target).mul_left m)
        omega
  · intro unfit
    by_contra fine
    push Not at fine
    obtain ⟨⟨one, two, _, _⟩, blocks⟩ := fine
    refine unfit ⟨by omega, by omega, fun vectored => ?_⟩
    obtain ⟨nContiguous, kContiguous, wideN, wideK⟩ := vectored
    have whole : ∀ size, 64 ≤ size → part size 0 = 64 := by
      intro size wide
      unfold part tileCount
      split <;> omega
    have aligned : ∀ m < batches, (src.dataPtr + m * cfg.srcBatchStrideBytes) % 16 = 0 ∧
        (dst.dataPtr + m * cfg.dstBatchStrideBytes) % 16 = 0 ∧ cfg.srcStrideKBytes % 16 = 0 ∧
        cfg.dstStrideRowBytes % 16 = 0 := by
      intro m slice
      by_contra misaligned
      obtain ⟨event, member, bad⟩ := (block m 0 0 manyRows manyCols).mpr
        ⟨⟨nContiguous, kContiguous, whole n wideN, whole k wideK⟩, misaligned⟩
      refine blocks event ⟨_, ?_, member⟩ bad
      calc m * (tileCount n * tileCount k) + (0 * tileCount k + 0) = m * (tileCount n * tileCount k) := by
            ring
        _ < batches * (tileCount n * tileCount k) :=
            Nat.mul_lt_mul_of_pos_right slice (Nat.mul_pos manyRows manyCols)
    obtain ⟨first, second, third, fourth⟩ := aligned 0 launched.batchy
    refine ⟨by omega, by omega, third, fourth, fun more => ?_⟩
    obtain ⟨fifth, sixth, _⟩ := aligned 1 more
    omega

end Launched

end TileGrid

end TorchSupa.Aten.DirectCopy
