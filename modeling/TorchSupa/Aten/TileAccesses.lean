import TorchSupa.Aten.TailAccesses
import TorchSupa.Aten.FastPath
import TorchSupa.Logic.Visits

/-!
The kernel that transposes tiles: what its threads load and store, and when they copy every element
once and touch nothing else.
-/

namespace TorchSupa.Aten.DirectCopy

open List Nat Function

variable {α : Type}

section Accesses

def fullTileAccesses (pat pc strideN strideK : Nat) : List Access :=
  (places 8).map (fun place => .load (pat + (place.1 * strideN + place.2 * 16)) 16) ++
    (places 8).map fun place => .store (pc + (place.1 * strideK + place.2 * 16)) 16

def partialTileAccesses (cfg : Tile) (pat pc maxPartN maxPartK : Nat) : List Access :=
  ((places 64).filter fun place => place.2 < maxPartN ∧ place.1 < maxPartK).map (fun place =>
      .load (pat + (place.1 * cfg.srcStrideKBytes + place.2 * cfg.srcStrideNBytes)) 2) ++
    ((places 64).filter fun place => place.2 < maxPartK ∧ place.1 < maxPartN).map fun place =>
      .store (pc + (place.1 * cfg.dstStrideRowBytes + place.2 * cfg.dstStrideColBytes)) 2

def tileAccesses (a c n k : Nat) (cfg : Tile) (block : Nat) : List Access :=
  tileBlock fullTileAccesses (partialTileAccesses cfg) a c n k cfg block

def tileGridAccesses (src dst : Nat) (cfg : Tile) : List Access :=
  (List.range (cfg.batchCount * tiles cfg.tileN * tiles cfg.tileK).toNat).flatMap
    (tileAccesses src dst (cfg.tileN % 2 ^ 32).toNat (cfg.tileK % 2 ^ 32).toNat cfg)

end Accesses

section Made

variable {β : Type} (contents : Nat → α)

theorem Made.map {event : β → Event α} {access : β → Access}
    (each : ∀ item, Made [event item] [access item]) (items : List β) :
    Made (items.map event) (items.map access) := by
  rw [map_eq_flatMap, map_eq_flatMap]
  exact .flatMap each items

theorem made_loads (address : β → Nat) (items : List β) :
    Made ([] : List (Event α)) (items.map fun item => .load (address item) 2) := by
  induction items with
  | nil => exact ⟨rfl, rfl⟩
  | cons item rest ih => exact ⟨ih.stored, ih.vectors⟩

theorem made_fullTile (pat pc strideN strideK : Nat) :
    Made (fullTile contents pat pc strideN strideK) (fullTileAccesses pat pc strideN strideK) := by
  refine .append (.map (fun _ => ⟨rfl, rfl⟩) _) ?_
  rw [map_eq_flatMap]
  exact .flatMap (fun _ => ⟨rfl, rfl⟩) _

theorem made_partialTile (cfg : Tile) (pat pc maxPartN maxPartK : Nat) :
    Made (partialTile contents pat pc maxPartN maxPartK cfg)
      (partialTileAccesses cfg pat pc maxPartN maxPartK) :=
  (made_loads _ _).append (.map (fun _ => ⟨rfl, rfl⟩) _)

theorem made_tileAccesses (a c n k : Nat) (cfg : Tile) (block : Nat) :
    Made (transposeTileBigKernel contents a c n k cfg block) (tileAccesses a c n k cfg block) := by
  unfold transposeTileBigKernel tileAccesses tileBlock
  extract_lets
  split
  · exact made_fullTile ..
  · exact made_partialTile ..

theorem made_tileGridAccesses (src dst : Tensor) (cfg : Tile) :
    Made (permute3dTransposeCopyImpl contents src dst (.tile cfg))
      (tileGridAccesses src.dataPtr dst.dataPtr cfg) :=
  .counter (.counter (.counter (.counter (.flatMap (made_tileAccesses contents _ _ _ _ cfg) _) _) _) _) _

end Made

section Property

variable (contents : Nat → α) (src dst : Tensor)

def Access.Within : Access → Prop
  | .load address width => ∀ byte, address ≤ byte → byte < address + width →
      ∃ index ∈ indices src.sizes, src.address index ≤ byte ∧ byte < src.address index + 2
  | .store address width => ∀ byte, address ≤ byte → byte < address + width →
      ∃ index ∈ indices dst.sizes, dst.address index ≤ byte ∧ byte < dst.address index + 2

def copied : List (Nat × Option α) :=
  (indices dst.sizes).map fun index => (dst.address index, some (contents (src.address index)))

/-- The blocks store every element once, with the element of the source that has its index, and
touch nothing else; vectors are aligned, and no int overflows. -/
structure CopiesTiles (cfg : Tile) : Prop where
  stores : (stores (permute3dTransposeCopyImpl contents src dst (.tile cfg))).Perm
    (copied contents src dst)
  within : ∀ access ∈ tileGridAccesses src.dataPtr dst.dataPtr cfg, access.Within src dst
  aligned : ∀ access ∈ tileGridAccesses src.dataPtr dst.dataPtr cfg, access.Aligned
  fine : ∀ event ∈ permute3dTransposeCopyImpl contents src dst (.tile cfg), ¬ event.Bad

end Property

section Once

variable {contents : Nat → α} {pat pc strideN strideK : Nat}

theorem nodup_places {perRow : Nat} (known : perRow = 8 ∨ perRow = 64) : (places perRow).Nodup := by
  refine Visits.nodup_flatMap (fun place => place.1 % (256 / perRow) * perRow + place.2)
    nodup_range (fun thread _ => ?_) fun thread member place found => ?_
  · refine nodup_range.map_on fun one _ two _ same => ?_
    have rows := (Prod.mk.inj same).1
    rcases known with rfl | rfl <;> omega
  · have small := mem_range.mp member
    obtain ⟨t, _, rfl⟩ := mem_map.mp found
    rcases known with rfl | rfl <;> omega

def wholeCells : List (Nat × Nat) :=
  (places 8).flatMap fun place => (List.range 8).map fun i => (place.1, place.2 * 8 + i)

theorem nodup_wholeCells : wholeCells.Nodup := by
  refine Visits.nodup_flatMap (fun cell => (cell.1, cell.2 / 8)) (nodup_places (.inl rfl))
    (fun place _ => ?_) fun place _ cell found => ?_
  · refine nodup_range.map_on fun one _ two _ same => ?_
    have cols := (Prod.mk.inj same).2
    omega
  · obtain ⟨i, small, rfl⟩ := mem_map.mp found
    have small := mem_range.mp small
    exact Prod.ext rfl (by dsimp only; omega)

theorem stores_append (one two : List (Event α)) : stores (one ++ two) = stores one ++ stores two :=
  filterMap_append

variable {β : Type} {cell : Nat × Nat × Nat}

theorem stores_flatMap (items : List β) (events : β → List (Event α)) :
    stores (items.flatMap events) = items.flatMap fun item => stores (events item) := by
  induction items with
  | nil => rfl
  | cons item rest ih => rw [flatMap_cons, flatMap_cons, stores_append, ih]

theorem stores_map (items : List β) (address : β → Nat) (value : β → Option α) :
    stores (items.map fun item => .store (address item) (value item)) =
      items.map fun item => (address item, value item) := by
  induction items with
  | nil => rfl
  | cons item rest ih => exact congrArg _ ih

theorem stores_vectors (items : List β) (address : β → Nat) :
    stores (items.map fun item => (.vector (address item) : Event α)) = [] := by
  induction items with
  | nil => rfl
  | cons item rest ih => exact ih

theorem stores_fullTile : (stores (fullTile contents pat pc strideN strideK)).map Prod.fst =
      wholeCells.map fun cell => pc + cell.1 * strideK + cell.2 * 2 := by
  have row : ∀ (address : Nat) (later : List (Event α)),
      stores (.vector address :: later) = stores later := fun _ _ => rfl
  unfold fullTile wholeCells
  rw [stores_append, stores_vectors, nil_append, stores_flatMap, map_flatMap, map_flatMap]
  refine congrArg (flatMap · (places 8)) (funext fun place => ?_)
  rw [row, stores_map, map_map, map_map]
  refine map_congr_left fun i _ => ?_
  simp only [comp]
  ring

theorem stores_partialTile (cfg : Tile) {maxPartN maxPartK : Nat} :
    (stores (partialTile contents pat pc maxPartN maxPartK cfg)).map Prod.fst =
      ((places 64).filter fun place => place.2 < maxPartK ∧ place.1 < maxPartN).map fun cell =>
        pc + cell.1 * cfg.dstStrideRowBytes + cell.2 * cfg.dstStrideColBytes := by
  unfold partialTile
  rw [stores_map, map_map]
  refine map_congr_left fun cell _ => ?_
  simp only [comp]
  ring

variable {cfg : Tile} {n k m ti tj : Nat}

def blockCells (cfg : Tile) (n k m ti tj : Nat) : List (Nat × Nat × Nat) :=
  (if cfg.srcNContiguous = true ∧ cfg.dstStrideColBytes = 2 ∧ part n ti = 64 ∧ part k tj = 64 then
      wholeCells
    else (places 64).filter fun place => place.2 < part k tj ∧ place.1 < part n ti).map
    fun cell => (m, ti * 64 + cell.1, tj * 64 + cell.2)

theorem mem_blockCells (row : ti < tileCount n) (col : tj < tileCount k)
    (member : cell ∈ blockCells cfg n k m ti tj) :
    cell.1 = m ∧ cell.2.1 / 64 = ti ∧ cell.2.2 / 64 = tj ∧ cell.2.1 < n ∧ cell.2.2 < k := by
  have partial_ : ∀ r s, r < part n ti → s < part k tj →
      (ti * 64 + r) / 64 = ti ∧ (tj * 64 + s) / 64 = tj ∧ ti * 64 + r < n ∧ tj * 64 + s < k := by
    intro r s rows cols
    have rows := (lt_part row).mp rows
    have cols := (lt_part col).mp cols
    omega
  obtain ⟨place, inside, rfl⟩ := mem_map.mp member
  refine ⟨rfl, partial_ place.1 place.2 ?_ ?_⟩ <;> split at inside
  · next whole =>
      simp only [wholeCells, mem_flatMap, mem_map, mem_range] at inside
      obtain ⟨cell, inside, i, small, rfl⟩ := inside
      have bounds := mem_places_full.mp inside
      rw [whole.2.2.1]
      exact bounds.1
  · simp only [mem_filter, decide_eq_true_eq] at inside
    exact inside.2.2
  · next whole =>
      simp only [wholeCells, mem_flatMap, mem_map, mem_range] at inside
      obtain ⟨cell, inside, i, small, rfl⟩ := inside
      have bounds := mem_places_full.mp inside
      rw [whole.2.2.2]
      omega
  · simp only [mem_filter, decide_eq_true_eq] at inside
    exact inside.2.1

theorem nodup_blockCells : (blockCells cfg n k m ti tj).Nodup := by
  refine Nodup.map_on (fun one _ two _ same => ?_) ?_
  · simp only [Prod.mk.injEq] at same
    exact Prod.ext (by omega) (by omega)
  · split
    · exact nodup_wholeCells
    · exact (nodup_places (.inr rfl)).filter _

theorem stores_block (contents : Nat → α) (a c m : Nat) (some : 0 < n ∧ 0 < k) (ints : n < 2 ^ 31 ∧ k < 2 ^ 31)
    (grid : tileCount n * tileCount k < 2 ^ 32) (row : ti < tileCount n) (col : tj < tileCount k) :
    (stores (transposeTileBigKernel contents a c n k cfg
        (m * (tileCount n * tileCount k) + (ti * tileCount k + tj)))).map Prod.fst =
      (blockCells cfg n k m ti tj).map fun cell => cfg.target c cell.1 cell.2.1 cell.2.2 := by
  rw [block_eq cfg some ints grid row col]
  unfold blockCells
  rw [map_map]
  split
  · next whole =>
      rw [stores_fullTile]
      refine map_congr_left fun cell _ => ?_
      simp only [comp, Tile.target, whole.2.1]
      ring
  · rw [stores_partialTile]
    refine map_congr_left fun cell _ => ?_
    simp only [comp, Tile.target]
    ring

def gridCells (cfg : Tile) (batches n k : Nat) : List (Nat × Nat × Nat) :=
  (List.range (batches * (tileCount n * tileCount k))).flatMap fun block =>
    blockCells cfg n k (block / (tileCount n * tileCount k))
      (block % (tileCount n * tileCount k) / tileCount k)
      (block % (tileCount n * tileCount k) % tileCount k)

variable {batches : Nat}

theorem block_inside {block : Nat} (inside : block < batches * (tileCount n * tileCount k)) :
    block / (tileCount n * tileCount k) < batches ∧
      block % (tileCount n * tileCount k) / tileCount k < tileCount n ∧
      block % (tileCount n * tileCount k) % tileCount k < tileCount k ∧
      block / (tileCount n * tileCount k) * (tileCount n * tileCount k) +
        (block % (tileCount n * tileCount k) / tileCount k * tileCount k +
          block % (tileCount n * tileCount k) % tileCount k) = block := by
  obtain ⟨slice, row, col, many, rows, cols, rfl⟩ := exists_digits inside
  obtain ⟨one, two, three, four⟩ := block_digits (m := slice) rows cols
  rw [one, two, three, four]
  exact ⟨many, rows, cols, rfl⟩

theorem mem_gridCells
    (member : cell ∈ gridCells cfg batches n k) : cell.1 < batches ∧ cell.2.1 < n ∧ cell.2.2 < k := by
  obtain ⟨block, inside, here⟩ := mem_flatMap.mp member
  obtain ⟨many, rows, cols, _⟩ := block_inside (mem_range.mp inside)
  obtain ⟨slice, _, _, row, col⟩ := mem_blockCells rows cols here
  exact ⟨slice ▸ many, row, col⟩

theorem nodup_gridCells : (gridCells cfg batches n k).Nodup := by
  refine Visits.nodup_flatMap (fun cell => cell.1 * (tileCount n * tileCount k) +
    (cell.2.1 / 64 * tileCount k + cell.2.2 / 64)) nodup_range
    (fun _ _ => nodup_blockCells) fun block member cell here => ?_
  obtain ⟨_, rows, cols, whole⟩ := block_inside (mem_range.mp member)
  obtain ⟨slice, row, col, _, _⟩ := mem_blockCells rows cols here
  rw [slice, row, col]
  exact whole

theorem Tile.Launched.stores_eq (launched : cfg.Launched batches n k) {src dst : Tensor} :
    (stores (permute3dTransposeCopyImpl contents src dst (.tile cfg))).map Prod.fst =
      (gridCells cfg batches n k).map fun cell =>
        cfg.target dst.dataPtr cell.1 cell.2.1 cell.2.2 := by
  rw [launched.copy_eq, stores_append, stores_flatMap, map_append, map_flatMap]
  unfold gridCells
  rw [map_flatMap]
  refine flatMap_congr fun block member => ?_
  obtain ⟨_, rows, cols, whole⟩ := block_inside (mem_range.mp member)
  have here := @stores_block _ cfg _ _ _ _ contents src.dataPtr dst.dataPtr
    (block / (tileCount n * tileCount k)) launched.some launched.ints launched.tiles_small rows cols
  rw [whole] at here
  exact here

end Once

section Inside

variable {cfg : Tile} {n k m batches : Nat}

inductive Tile.Accesses (cfg : Tile) (a c batches n k : Nat) : Access → Prop
  | load (m r s : Nat) (slice : m < batches) (row : r < n) (col : s < k) :
      Accesses cfg a c batches n k (.load (cfg.source a m r s) 2)
  | store (m r s : Nat) (slice : m < batches) (row : r < n) (col : s < k) :
      Accesses cfg a c batches n k (.store (cfg.target c m r s) 2)
  | loads (m r s : Nat) (slice : m < batches) (row : 8 * r + 8 ≤ n) (col : s < k)
      (vectored : cfg.Vectored n k) : Accesses cfg a c batches n k (.load (cfg.source a m (8 * r) s) 16)
  | stores (m r s : Nat) (slice : m < batches) (row : r < n) (col : 8 * s + 8 ≤ k)
      (vectored : cfg.Vectored n k) : Accesses cfg a c batches n k (.store (cfg.target c m r (8 * s)) 16)

theorem Tile.Launched.mem_accesses (launched : cfg.Launched batches n k) {a c : Nat} {access : Access}
    (member : access ∈ tileGridAccesses a c cfg) : cfg.Accesses a c batches n k access := by
  unfold tileGridAccesses tileAccesses at member
  rw [launched.tileN, launched.tileK, launched.batchCount, tiles_eq, tiles_eq,
    wrap_of_int launched.ints.1, wrap_of_int launched.ints.2, blocks_eq,
    Int.toNat_natCast] at member
  obtain ⟨block, inside, here⟩ := mem_flatMap.mp member
  obtain ⟨m, ti, tj, slice, row, col, rfl⟩ := exists_digits (mem_range.mp inside)
  rw [tileBlock_eq _ _ cfg launched.some launched.ints launched.tiles_small row col] at here
  split at here
  · next whole =>
      obtain ⟨nContiguous, kContiguous, fullN, fullK⟩ := whole
      have rows : ∀ r, r < 64 → ti * 64 + r < n := fun r small =>
        ((lt_part row).mp (by omega)).2
      have cols : ∀ s, s < 64 → tj * 64 + s < k := fun s small =>
        ((lt_part col).mp (by omega)).2
      have lastRow := rows 63 (by decide)
      have lastCol := cols 63 (by decide)
      have vectored : cfg.Vectored n k := ⟨nContiguous, kContiguous, by omega, by omega⟩
      simp only [fullTileAccesses, mem_append, mem_map, Prod.exists] at here
      rcases here with ⟨r, s, place, rfl⟩ | ⟨r, s, place, rfl⟩
      · have small := mem_places_full.mp place
        have source : a + tj * 64 * cfg.srcStrideKBytes + ti * 128 + m * cfg.srcBatchStrideBytes +
            (r * cfg.srcStrideKBytes + s * 16) =
            cfg.source a m (8 * (ti * 8 + s)) (tj * 64 + r) := by
          unfold Tile.source
          rw [launched.contiguous nContiguous]
          ring
        rw [source]
        exact .loads m _ _ slice (by omega) (cols r small.1) vectored
      · have small := mem_places_full.mp place
        have target : c + ti * 64 * cfg.dstStrideRowBytes + tj * 128 + m * cfg.dstBatchStrideBytes +
            (r * cfg.dstStrideRowBytes + s * 16) =
            cfg.target c m (ti * 64 + r) (8 * (tj * 8 + s)) := by
          unfold Tile.target
          rw [kContiguous]
          ring
        rw [target]
        exact .stores m _ _ slice (rows r small.1) (by omega) vectored
  · simp only [partialTileAccesses, mem_append, mem_map, mem_filter,
      decide_eq_true_eq, Prod.exists] at here
    rcases here with ⟨r, s, ⟨_, below, under⟩, rfl⟩ | ⟨r, s, ⟨_, below, under⟩, rfl⟩
    · have source : a + m * cfg.srcBatchStrideBytes + ti * 64 * cfg.srcStrideNBytes +
          tj * 64 * cfg.srcStrideKBytes + (r * cfg.srcStrideKBytes + s * cfg.srcStrideNBytes) =
          cfg.source a m (ti * 64 + s) (tj * 64 + r) := by
        unfold Tile.source
        ring
      rw [source]
      exact .load m _ _ slice ((lt_part row).mp below).2 ((lt_part col).mp under).2
    · have target : c + m * cfg.dstBatchStrideBytes + ti * 64 * cfg.dstStrideRowBytes +
          tj * 64 * cfg.dstStrideColBytes + (r * cfg.dstStrideRowBytes + s * cfg.dstStrideColBytes) =
          cfg.target c m (ti * 64 + r) (tj * 64 + s) := by
        unfold Tile.target
        ring
      rw [target]
      exact .store m _ _ slice ((lt_part row).mp under).2 ((lt_part col).mp below).2

end Inside

section Elements

theorem nodup_indices : ∀ sizes : List Nat, (indices sizes).Nodup
  | [] => List.nodup_singleton _
  | size :: sizes => by
      refine Visits.nodup_flatMap (fun index => index.headD 0) List.nodup_range
        (fun place _ => ?_) fun place _ index member => ?_
      · exact (nodup_indices sizes).map (List.cons_injective)
      · obtain ⟨rest, _, rfl⟩ := mem_map.mp member
        rfl

variable {tensor : Tensor} {s0 s1 s2 : Nat}

theorem contiguous_address (sizes : tensor.sizes = [s0, s1, s2])
    (contiguous : tensor.isContiguous = true) {i j k : Nat} (row : i < s0) (col : j < s1)
    (tail : k < s2) :
    tensor.address [i, j, k] = tensor.dataPtr +
      (i * (s1 * s2) + (j * s2 + k)) * tensor.dtype.elementSize := by
  have some : tensor.numel ≠ 0 := by
    rw [numel_three sizes]
    have inside := linear_lt row col tail
    omega
  obtain ⟨last, inner, outer⟩ := contiguous_three sizes contiguous some
  have along : ∀ place size stride expected : Nat, place < size → (size ≠ 1 → stride = expected) →
      place * stride = place * expected := by
    intro place size stride expected inside known
    by_cases one : size = 1
    · have first : place = 0 := by omega
      rw [first, zero_mul, zero_mul]
    · rw [known one]
  rw [address_three sizes, along i s0 _ _ row outer, along j s1 _ _ col inner, along k s2 _ _ tail last,
    mul_one]

theorem contiguous_apart (sizes : tensor.sizes = [s0, s1, s2])
    (contiguous : tensor.isContiguous = true) :
    ∀ one ∈ indices tensor.sizes, ∀ two ∈ indices tensor.sizes,
      tensor.address one = tensor.address two → one = two := by
  intro one first two second same
  rw [sizes] at first second
  obtain ⟨i, j, k, row, col, tail, rfl⟩ := mem_indices_three.mp first
  obtain ⟨i', j', k', row', col', tail', rfl⟩ := mem_indices_three.mp second
  rw [contiguous_address sizes contiguous row col tail,
    contiguous_address sizes contiguous row' col' tail'] at same
  have places := eq_of_mul_eq_mul_right tensor.dtype.elementSize_pos (add_left_cancel same)
  have here := block_digits (m := i) col tail
  have there := block_digits (m := i') col' tail'
  rw [places] at here
  obtain ⟨one, two, three, four⟩ := here
  obtain ⟨five, six, seven, eight⟩ := there
  rw [five] at one
  rw [six] at two
  rw [← two] at three four
  rw [seven] at three
  rw [eight] at four
  rw [one, three, four]

end Elements

section Result

variable {contents : Nat → α} {src dst : Tensor} {cfg : Tile} {best : Decomposition}
  {s0 s1 s2 batches n k : Nat} {access : Access}

theorem Tile.Accesses.within (accesses : cfg.Accesses src.dataPtr dst.dataPtr batches n k access)
    (contiguous : cfg.Contiguous)
    (source : ∀ m r s, m < batches → r < n → s < k →
      ∃ index ∈ indices src.sizes, src.address index = cfg.source src.dataPtr m r s)
    (target : ∀ m r s, m < batches → r < n → s < k →
      ∃ index ∈ indices dst.sizes, dst.address index = cfg.target dst.dataPtr m r s) :
    access.Within src dst := by
  cases accesses with
  | load m r s slice row col =>
    intro byte low high
    obtain ⟨index, member, same⟩ := source m r s slice row col
    exact ⟨index, member, by omega, by omega⟩
  | store m r s slice row col =>
    intro byte low high
    obtain ⟨index, member, same⟩ := target m r s slice row col
    exact ⟨index, member, by omega, by omega⟩
  | loads m r s slice row col vectored =>
    intro byte low high
    obtain ⟨index, member, same⟩ := source m (8 * r + (byte - cfg.source src.dataPtr m (8 * r) s) / 2)
      s slice (by omega) col
    have along : cfg.source src.dataPtr m
        (8 * r + (byte - cfg.source src.dataPtr m (8 * r) s) / 2) s =
        cfg.source src.dataPtr m (8 * r) s +
          (byte - cfg.source src.dataPtr m (8 * r) s) / 2 * 2 := by
      generalize (byte - cfg.source src.dataPtr m (8 * r) s) / 2 = place
      unfold Tile.source
      rw [contiguous vectored.1]
      ring
    exact ⟨index, member, by omega, by omega⟩
  | stores m r s slice row col vectored =>
    intro byte low high
    obtain ⟨index, member, same⟩ := target m r
      (8 * s + (byte - cfg.target dst.dataPtr m r (8 * s)) / 2) slice row (by omega)
    have along : cfg.target dst.dataPtr m r
        (8 * s + (byte - cfg.target dst.dataPtr m r (8 * s)) / 2) =
        cfg.target dst.dataPtr m r (8 * s) +
          (byte - cfg.target dst.dataPtr m r (8 * s)) / 2 * 2 := by
      generalize (byte - cfg.target dst.dataPtr m r (8 * s)) / 2 = place
      unfold Tile.target
      rw [vectored.2.1]
      ring
    exact ⟨index, member, by omega, by omega⟩

structure Tile.Even (cfg : Tile) (a c : Nat) : Prop where
  bases : 2 ∣ a ∧ 2 ∣ c
  srcStrides : 2 ∣ cfg.srcBatchStrideBytes ∧ 2 ∣ cfg.srcStrideNBytes ∧ 2 ∣ cfg.srcStrideKBytes
  dstStrides : 2 ∣ cfg.dstBatchStrideBytes ∧ 2 ∣ cfg.dstStrideRowBytes ∧ 2 ∣ cfg.dstStrideColBytes

theorem Tile.Accesses.aligned {a c : Nat} (accesses : cfg.Accesses a c batches n k access)
    (contiguous : cfg.Contiguous) (even : cfg.Even a c)
    (aligned : cfg.Vectored n k → cfg.Aligned a c batches) : access.Aligned := by
  have batch : ∀ m stride : Nat, m < batches → (1 < batches → stride % 16 = 0) → 16 ∣ m * stride := by
    intro m stride inside multiple
    rcases Nat.eq_zero_or_pos m with rfl | later
    · rw [Nat.zero_mul]
      exact dvd_zero _
    · exact Dvd.dvd.mul_left (Nat.dvd_of_mod_eq_zero (multiple (by omega))) m
  cases accesses with
  | load m r s slice row col =>
    exact Dvd.dvd.add (Dvd.dvd.add (Dvd.dvd.add even.bases.1 (even.srcStrides.1.mul_left m))
      (even.srcStrides.2.1.mul_left r)) (even.srcStrides.2.2.mul_left s)
  | store m r s slice row col =>
    exact Dvd.dvd.add (Dvd.dvd.add (Dvd.dvd.add even.bases.2 (even.dstStrides.1.mul_left m))
      (even.dstStrides.2.1.mul_left r)) (even.dstStrides.2.2.mul_left s)
  | loads m r s slice row col vectored =>
    obtain ⟨base, _, strideK, _, batchStrides⟩ := aligned vectored
    have along : 16 ∣ 8 * r * cfg.srcStrideNBytes := by
      rw [contiguous vectored.1]
      exact ⟨r, by ring⟩
    exact Dvd.dvd.add (Dvd.dvd.add (Dvd.dvd.add (Nat.dvd_of_mod_eq_zero base)
      (batch m _ slice fun more => (batchStrides more).1)) along)
      (Dvd.dvd.mul_left (Nat.dvd_of_mod_eq_zero strideK) s)
  | stores m r s slice row col vectored =>
    obtain ⟨_, base, _, strideRow, batchStrides⟩ := aligned vectored
    have along : 16 ∣ 8 * s * cfg.dstStrideColBytes := by
      rw [vectored.2.1]
      exact ⟨s, by ring⟩
    exact Dvd.dvd.add (Dvd.dvd.add (Dvd.dvd.add (Nat.dvd_of_mod_eq_zero base)
      (batch m _ slice fun more => (batchStrides more).2))
      (Dvd.dvd.mul_left (Nat.dvd_of_mod_eq_zero strideRow) r)) along

theorem nodup_stores (proper : best.Proper src) (permuted : Permuted src dst s0 s1 s2)
    (launched : cfg.Launched batches n k)
    (inside : batches ≤ src.size best.batch ∧ n ≤ src.size best.dimN ∧ k ≤ src.size best.dimK)
    (target : ∀ m r s, dst.address (best.index m r s) = cfg.target dst.dataPtr m r s) :
    (stores (permute3dTransposeCopyImpl contents src dst (.tile cfg))).Nodup := by
  refine Nodup.of_map Prod.fst ?_
  rw [launched.stores_eq]
  refine nodup_gridCells.map_on fun one first two second same => ?_
  have here := mem_gridCells first
  have there := mem_gridCells second
  rw [← target, ← target] at same
  have equal := contiguous_apart permuted.dstSizes permuted.contiguous _
    ((proper.mem_index permuted).mpr ⟨by omega, by omega, by omega⟩) _
    ((proper.mem_index permuted).mpr ⟨by omega, by omega, by omega⟩) same
  obtain ⟨slice, row, col⟩ := proper.index_inj equal
  exact Prod.ext slice (Prod.ext row col)

theorem toInt_toNat_le (value : Nat) : (toInt value).toNat ≤ value := by
  have cases := toInt_cases value
  omega

theorem toInt_toNat_of_int {value : Nat} (int : value < 2 ^ 31) : (toInt value).toNat = value := by
  have cases := toInt_cases value
  omega

theorem int_of_toInt {value : Nat} (last : value - 1 < (toInt value).toNat) : value < 2 ^ 31 := by
  have cases := toInt_cases value
  omega

/-- The blocks copy the elements if and only if the sizes are ints, the last tiles do not overflow, and
vectors are aligned. -/
theorem transpose_tile_big_iff (contents : Nat → α) (src dst : Tensor) (cfg : Tile)
    (taken : fastPath src dst = some (.tile cfg)) (same : dst.dtype = src.dtype)
    (wide : dst.dtype.elementSize = 2) (bytes : dst.numel * 2 < 2 ^ 63)
    (bases : src.dataPtr % 2 = 0 ∧ dst.dataPtr % 2 = 0) :
    CopiesTiles contents src dst cfg ↔ TileFits src dst cfg := by
  obtain ⟨canLaunch, s0, s1, s2, layout⟩ := fastPath_cases taken
  rcases layout with ⟨other, _⟩ | ⟨best, tile, permuted, proper⟩
  · cases other
  obtain rfl := Permute3DTransposeConfig.tile.inj tile
  have wideSrc : src.dtype.elementSize = 2 := same ▸ wide
  have launched := tile_launched proper permuted canLaunch bytes wideSrc
  clear bytes
  have source : ∀ m r s, src.address (best.index m r s) =
      (tileConfig src dst best).source src.dataPtr m r s :=
    fun m r s => proper.address permuted.srcSizes
  have target : ∀ m r s, dst.address (best.index m r s) =
      (tileConfig src dst best).target dst.dataPtr m r s := by
    intro m r s
    rw [proper.address permuted.dstSizes, same]
    rfl
  have sizes : src.sizes = dst.sizes := permuted.srcSizes.trans permuted.dstSizes.symm
  have element : ∀ m r s, m < (toInt (src.size best.batch)).toNat →
      r < (toInt (src.size best.dimN)).toNat → s < (toInt (src.size best.dimK)).toNat →
      best.index m r s ∈ indices dst.sizes := fun m r s slice row col =>
    (proper.mem_index permuted).mpr ⟨slice.trans_le (toInt_toNat_le _),
      row.trans_le (toInt_toNat_le _), col.trans_le (toInt_toNat_le _)⟩
  rw [tileFits_iff launched, ints_iff proper permuted]
  constructor
  · intro copies
    have fits := not_not.mp fun unfit => by
      obtain ⟨event, member, bad⟩ := launched.bad_grid.mpr unfit
      exact copies.fine event member bad
    -- the last element of each axis is stored only if its index is an int
    have last : best.index (src.size best.batch - 1) (src.size best.dimN - 1)
        (src.size best.dimK - 1) ∈ indices dst.sizes :=
      (proper.mem_index permuted).mpr ⟨sub_lt (launched.batchy.trans_le (toInt_toNat_le _)) one_pos,
          sub_lt (launched.some.1.trans_le (toInt_toNat_le _)) one_pos,
          sub_lt (launched.some.2.trans_le (toInt_toNat_le _)) one_pos⟩
    have stored := mem_stores.mp (copies.stores.mem_iff.mpr (mem_map.mpr ⟨_, last, rfl⟩))
    obtain ⟨m, r, s, slice, row, col, here, _⟩ := launched.store_grid.mp stored
    rw [← target] at here
    have equal := contiguous_apart permuted.dstSizes permuted.contiguous _ last _
      (element m r s slice row col) here
    obtain ⟨rfl, rfl, rfl⟩ := proper.index_inj equal
    exact ⟨⟨int_of_toInt slice, int_of_toInt row, int_of_toInt col⟩, fits⟩
  · rintro ⟨ints, fits⟩
    have even : ∀ stride : Nat, 2 ∣ stride * src.dtype.elementSize := fun stride => by
      rw [wideSrc]
      exact dvd_mul_left 2 stride
    refine ⟨?_, fun access member => ?_, fun access member => ?_, fun event member bad => ?_⟩
    · have once : (stores (permute3dTransposeCopyImpl contents src dst
          (.tile (tileConfig src dst best)))).Nodup :=
        nodup_stores proper permuted launched
          ⟨toInt_toNat_le _, toInt_toNat_le _, toInt_toNat_le _⟩ target
      have wanted : (copied contents src dst).Nodup := by
        refine Nodup.map_on (fun one first two second equal => ?_) (nodup_indices _)
        exact contiguous_apart permuted.dstSizes permuted.contiguous one first two second
          (Prod.mk.inj equal).1
      refine (perm_ext_iff_of_nodup once wanted).mpr fun write => ?_
      obtain ⟨address, value⟩ := write
      rw [mem_stores, launched.store_grid]
      constructor
      · rintro ⟨m, r, s, slice, row, col, rfl, rfl⟩
        rw [← target, ← source]
        exact mem_map.mpr ⟨_, element m r s slice row col, rfl⟩
      · intro member
        obtain ⟨index, inside, write⟩ := mem_map.mp member
        obtain ⟨m, r, s, rfl⟩ := proper.exists_index permuted inside
        obtain ⟨slice, row, col⟩ := (proper.mem_index permuted).mp inside
        obtain ⟨rfl, rfl⟩ := Prod.mk.inj write
        rw [toInt_toNat_of_int ints.1, toInt_toNat_of_int ints.2.1, toInt_toNat_of_int ints.2.2]
        exact ⟨m, r, s, slice, row, col, target m r s, by rw [source]⟩
    · refine (launched.mem_accesses member).within launched.contiguous (fun m r s slice row col => ?_)
        fun m r s slice row col => ?_
      · exact ⟨_, sizes ▸ element m r s slice row col, source m r s⟩
      · exact ⟨_, element m r s slice row col, target m r s⟩
    · refine (launched.mem_accesses member).aligned launched.contiguous
        ⟨⟨by omega, by omega⟩, ⟨even _, even _, even _⟩, ⟨even _, even _, even _⟩⟩ fits.2.2
    · exact launched.bad_grid.mp ⟨event, member, bad⟩ fits

theorem transpose_tile_big_iff_sample :
    CopiesTiles (fun address => address) (sampleSrc .kHalf) sampleDst
      ⟨2, 2, 2, true, 8, 2, 4, 8, 2, 4⟩ := by
  refine (transpose_tile_big_iff _ (sampleSrc .kHalf) sampleDst ⟨2, 2, 2, true, 8, 2, 4, 8, 2, 4⟩
    (by decide +kernel) rfl rfl (by decide) (by decide)).mpr ⟨by decide, by decide, by decide, ?_⟩
  rintro ⟨_, _, wide, _⟩
  exact absurd wide (by decide)

def oddRows : Tensor := ⟨.kHalf, [1, 64, 65], [4160, 65, 1], 1024, rfl⟩

def oddRowsTransposed : Tensor := ⟨.kHalf, [1, 64, 65], [4160, 1, 64], 16384, rfl⟩

/-- The second row of the destination does not begin at a multiple of 16. -/
theorem transpose_tile_big_misaligned :
    ∃ cfg, fastPath oddRowsTransposed oddRows = some (.tile cfg) ∧
      ¬ CopiesTiles (fun address => address) oddRowsTransposed oddRows cfg := by
  refine ⟨⟨64, 65, 1, true, 128, 2, 8320, 130, 2, 8320⟩, by decide +kernel, fun copies => ?_⟩
  have misaligned := copies.aligned (.store 1154 16) (by decide +kernel)
  exact absurd (show 16 ∣ 1154 from misaligned) (by decide)

end Result

end TorchSupa.Aten.DirectCopy
