import TorchSupa.Logic.GridStride
import TorchSupa.Logic.Lists
import TorchSupa.Logic.MachineIntegers
import TorchSupa.Logic.Reduction
import TorchSupa.Logic.Visits
import Mathlib.Analysis.SpecialFunctions.Pow.NNReal

/-!
`normalize_fused`: every row of the last dimension is divided by its norm, by a warp, two warps or a
block. A kernel is the list of its writes; signed arithmetic that overflows is a fault.
-/

namespace TorchSupa.Aten.NormalizeFused

open MachineIntegers Reduction Lists List

inductive Fault
  | check (message : String)
  | divisionByZero
  | overflow
  | endless
  | outOfBounds
  | invalidConfiguration
deriving DecidableEq, Repr

structure Tensor (α : Type) where
  privateUse1 : Bool
  float : Bool
  contiguous : Bool
  sizes : List Nat
  data : Nat → α

structure Runtime where
  acceptsEmptyGrid : Bool

def signed (value : Int) : Except Fault Int :=
  if -2147483648 ≤ value ∧ value < 2147483648 then .ok value else .error .overflow

section Columns

variable (maxCols : Nat) (cols : Int)

def warpBucketColumns (lane : Nat) : List Int :=
  let col0 : Int := lane
  let col1 := col0 + 32
  (if col0 < cols then [col0] else []) ++ if 32 < maxCols ∧ col1 < cols then [col1] else []

def twoWarpBucketColumns (tid : Nat) : List Int :=
  let baseCol : Int := (tid / 32 : Nat) * 64
  let col0 := baseCol + (tid % 32 : Nat)
  let col1 := col0 + 32
  (if col0 < cols then [col0] else []) ++
    if 64 < maxCols ∧ col1 < cols ∧ col1 < baseCol + 64 then [col1] else []

def blockBucketColumns (tid : Nat) : List Int :=
  let col0 : Int := tid
  let col1 := int32 (col0 + 256)
  (if col0 < cols then [col0] else []) ++ if 256 < maxCols ∧ col1 < cols then [col1] else []

/-- The loop of `normalize_fused_block_dynamic_kernel`, with a bound on its turns. The block size is
unsigned, so that the counter wraps around. -/
def blockDynamicColumns : Nat → Int → Except Fault (List Int)
  | 0, _ => .error .endless
  | turns + 1, col =>
    if col < cols then do
      let col1 := int32 (col + 256)
      let rest ← blockDynamicColumns turns (int32 (col + 2 * 256))
      pure (col :: (if col1 < cols then [col1] else []) ++ rest)
    else pure []

end Columns

section Kernels

variable {α : Type} [Field α] [LinearOrder α]

def warpReduceSum (sums : Nat → α) (warp : Nat) : α :=
  shuffleDown (· + ·) 32 (halvings 5) (fun lane => sums (32 * warp + lane)) 0

def twoWarpTotal (sums : Nat → α) : α := warpReduceSum sums 0 + warpReduceSum sums 1

def blockTotal (sums : Nat → α) : α :=
  warpReduceSum (fun lane => if lane < 8 then warpReduceSum sums lane else 0) 0

structure Call (α : Type) where
  numel : Nat
  input : Nat → α
  rows : Int
  cols : Int
  epsSquare : α
  invEps : α

variable (rsqrtf : α → α) (runtime : Runtime) (call : Call α)

def Call.element (index : Int) : Except Fault Nat :=
  if 0 ≤ index ∧ index < call.numel then .ok index.toNat else .error .outOfBounds

/-- A row, by the threads that share it: the second loop of a thread visits the columns of the first
one. -/
def Call.normalizeRow (threads : Nat) (columns : Nat → Except Fault (List Int))
    (reduce : (Nat → α) → α) (row : Int) : Except Fault (List (Nat × α)) := do
  let start ← signed (row * call.cols)
  let owned ← (List.range threads).mapM fun tid => do
    let visited ← columns tid
    visited.mapM fun col => call.element (start + col)
  let sum tid := (owned.getD tid []).foldl (fun sum x => sum + call.input x * call.input x) 0
  let total := reduce sum
  let inv := if call.epsSquare < total then rsqrtf total else call.invEps
  pure (owned.flatten.map fun x => (x, call.input x * inv))

/-- The writes of a grid whose blocks have a number of rows each. Blocks are counted without sign. -/
def Call.launch (grid : Int) (rowsPerBlock : Nat)
    (body : Int → Except Fault (List (Nat × α))) : Except Fault (List (Nat × α)) := do
  let blocks := (grid % 4294967296).toNat
  if blocks = 0 ∧ runtime.acceptsEmptyGrid = false then throw .invalidConfiguration
  let written ← (((List.range blocks).flatMap fun block =>
    (List.range rowsPerBlock).map fun (group : Nat) => int32 ((block * rowsPerBlock + group : Nat) : Int)).filter
      (· < call.rows)).mapM body
  pure written.flatten

def Call.bucketGrid (rowsPerBlock : Nat) : Except Fault Int := do
  let more ← signed (call.rows + rowsPerBlock)
  let last ← signed (more - 1)
  pure (last.tdiv rowsPerBlock)

def Call.launchWarpBucket (rowsPerBlock : Nat) : Except Fault (List (Nat × α)) := do
  let grid ← call.bucketGrid rowsPerBlock
  call.launch runtime grid rowsPerBlock <| call.normalizeRow rsqrtf 32
    (fun lane => .ok (warpBucketColumns 64 call.cols lane)) fun sums => warpReduceSum sums 0

def Call.launchTwoWarpBucket (rowsPerBlock : Nat) : Except Fault (List (Nat × α)) := do
  let grid ← call.bucketGrid rowsPerBlock
  call.launch runtime grid rowsPerBlock <| call.normalizeRow rsqrtf 64
    (fun tid => .ok (twoWarpBucketColumns 128 call.cols tid)) twoWarpTotal

def Call.launchBlockBucket (maxCols : Nat) : Except Fault (List (Nat × α)) :=
  call.launch runtime call.rows 1 <| call.normalizeRow rsqrtf 256
    (fun tid => .ok (blockBucketColumns maxCols call.cols tid)) blockTotal

def Call.launchBlockDynamic : Except Fault (List (Nat × α)) :=
  call.launch runtime call.rows 1 <| call.normalizeRow rsqrtf 256
    (fun tid => blockDynamicColumns call.cols (call.cols.toNat + 1) tid) blockTotal

def normalizeFusedKernelLaunch (blockSize : Nat) : Except Fault (List (Nat × α)) :=
  if 256 < blockSize then
    .error (.check "normalize_fused block_size exceeds shared-memory reduction capacity")
  else if call.cols ≤ 64 then
    if blockSize ≤ 64 then call.launchWarpBucket rsqrtf runtime 2
    else if blockSize ≤ 128 then call.launchWarpBucket rsqrtf runtime 4
    else call.launchWarpBucket rsqrtf runtime 8
  else if call.cols ≤ 128 then
    if blockSize ≤ 64 then call.launchTwoWarpBucket rsqrtf runtime 1
    else if blockSize ≤ 128 then call.launchTwoWarpBucket rsqrtf runtime 2
    else call.launchTwoWarpBucket rsqrtf runtime 4
  else if call.cols ≤ 256 then call.launchBlockBucket rsqrtf runtime 256
  else if call.cols ≤ 512 then call.launchBlockBucket rsqrtf runtime 512
  else call.launchBlockDynamic rsqrtf runtime

end Kernels

def selectBlockSize (rows cols : Int) : Nat :=
  if cols ≤ 128 then
    if rows ≤ 8 then 64
    else if rows ≤ 32 then 128
    else 256
  else 256

def rowsCols (sizes : List Nat) : Except Fault (Int × Int) :=
  let cols := int32 (sizes.getLastD 0 : Nat)
  if cols = 0 then .error .divisionByZero
  else .ok (int32 (Int.tdiv (sizes.prod : Nat) cols), cols)

section Host

variable {α : Type} [Field α] [LinearOrder α]

def Tensor.check (input : Tensor α) : Except Fault Unit :=
  if input.privateUse1 = false then .error (.check "normalize_fused expects a SUPA tensor")
  else if input.float = false then .error (.check "normalize_fused expects float32 input")
  else if input.sizes.length < 1 then .error (.check "normalize_fused expects at least 1D input")
  else if input.contiguous = false then .error (.check "normalize_fused expects contiguous input")
  else .ok ()

def normalizeFused (rsqrtf : α → α) (runtime : Runtime) (input : Tensor α) (eps : α) :
    Except Fault (List (Nat × α)) := do
  input.check
  let dims ← rowsCols input.sizes
  normalizeFusedKernelLaunch rsqrtf runtime
    { numel := input.sizes.prod
      input := input.data
      rows := dims.1
      cols := dims.2
      epsSquare := eps * eps
      invEps := 1 / eps } (selectBlockSize dims.1 dims.2)

end Host

section Shares

def Shares (threads cols : Nat) (columns : Nat → Except Fault (List Int)) : Prop :=
  ∃ owner : Int → Nat, (∀ col, 0 ≤ col → col < cols → owner col < threads) ∧
    ∀ tid < threads, ∃ visited, columns tid = .ok visited ∧ visited.Nodup ∧
      ∀ col, col ∈ visited ↔ 0 ≤ col ∧ col < cols ∧ owner col = tid

variable {threads cols : Nat}

theorem Shares.perm {columns : Nat → Except Fault (List Int)} (shares : Shares threads cols columns) :
    ∃ visited : Nat → List Int, (∀ tid < threads, columns tid = .ok (visited tid)) ∧
      ((List.range threads).flatMap visited).Perm ((List.range cols).map fun (col : Nat) => (col : Int)) := by
  obtain ⟨owner, owned, each⟩ := shares
  choose! visited made nodup members using each
  refine ⟨visited, made, (perm_ext_iff_of_nodup ?_ ?_).mpr fun col => ?_⟩
  · exact Visits.nodup_flatMap owner nodup_range (fun tid inside => nodup tid (mem_range.mp inside))
      fun tid inside col there => ((members tid (mem_range.mp inside) col).mp there).2.2
  · exact nodup_range.map Nat.cast_injective
  · rw [mem_flatMap, mem_map]
    constructor
    · rintro ⟨tid, inside, there⟩
      obtain ⟨low, high, -⟩ := (members tid (mem_range.mp inside) col).mp there
      exact ⟨col.toNat, mem_range.mpr (by omega), by omega⟩
    · rintro ⟨place, inside, rfl⟩
      have small := mem_range.mp inside
      have mine := owned place (by omega) (by omega)
      exact ⟨_, mem_range.mpr mine, (members _ mine _).mpr ⟨by omega, by omega, rfl⟩⟩

section Pairs

variable {one two : Prop} [Decidable one] [Decidable two] {first second col : Int}

theorem nodup_pair (apart : one → two → first ≠ second) :
    ((if one then [first] else []) ++ if two then [second] else []).Nodup := by
  split_ifs with low high
  · simpa using apart low high
  all_goals simp

theorem mem_pair : col ∈ ((if one then [first] else []) ++ if two then [second] else []) ↔
    (one ∧ col = first) ∨ (two ∧ col = second) := by
  split_ifs with low high <;> simp_all

end Pairs

theorem shares_warpBucket (narrow : cols ≤ 64) :
    Shares 32 cols fun lane => .ok (warpBucketColumns 64 cols lane) := by
  refine ⟨fun col => (col % 32).toNat, fun col low _ => ?_, fun lane small =>
    ⟨_, rfl, nodup_pair fun _ _ => by omega, fun col => mem_pair.trans ?_⟩⟩ <;> dsimp only <;> omega

theorem shares_twoWarpBucket (narrow : cols ≤ 128) :
    Shares 64 cols fun tid => .ok (twoWarpBucketColumns 128 cols tid) := by
  refine ⟨fun col => (col / 64 * 32 + col % 32).toNat, fun col low _ => ?_, fun tid small =>
    ⟨_, rfl, nodup_pair fun _ _ => by omega, fun col => mem_pair.trans ?_⟩⟩ <;> dsimp only <;> omega

theorem shares_blockBucket {maxCols : Nat} (narrow : cols ≤ 512) (wide : 256 < maxCols ∨ cols ≤ 256) :
    Shares 256 cols fun tid => .ok (blockBucketColumns maxCols cols tid) := by
  refine ⟨fun col => (col % 256).toNat, fun col low _ => ?_, fun tid small =>
    ⟨_, rfl, nodup_pair fun _ _ => ?_, fun col => mem_pair.trans ?_⟩⟩ <;> dsimp only [int32] <;> omega

theorem blockDynamicColumns_spec (bounded : cols ≤ 2147483136) : ∀ (turns : Nat) (col : Int),
    0 ≤ col → col < cols + 512 → cols - col + 512 ≤ 512 * (turns : Int) →
    ∃ visited, blockDynamicColumns cols turns col = .ok visited ∧ visited.Nodup ∧
      ∀ place, place ∈ visited ↔ col ≤ place ∧ place < cols ∧ (place - col) % 256 = 0 := by
  intro turns
  induction turns with
  | zero =>
    intro col _ near enough
    omega
  | succ turns ih =>
    intro col positive near enough
    rw [blockDynamicColumns]
    by_cases inside : col < cols
    · obtain ⟨rest, made, nodup, members⟩ := ih (col + 2 * 256) (by omega) (by omega) (by omega)
      rw [if_pos inside, int32_of_fits (by omega) (by omega), int32_of_fits (by omega) (by omega), made]
      have first : (col :: if col + 256 < cols then [col + 256] else []).Nodup := by
        split <;> simp
      refine ⟨_, rfl, first.append nodup fun place here there => ?_, fun place => ?_⟩
      · have beyond := ((members place).mp there).1
        split at here <;> simp at here <;> omega
      · rw [mem_append, members]
        split <;> simp <;> omega
    · rw [if_neg inside]
      refine ⟨[], rfl, nodup_nil, fun place => ?_⟩
      simp only [not_mem_nil, false_iff]
      omega

theorem shares_blockDynamic (some_ : 0 < cols) (bounded : cols ≤ 2147483136) :
    Shares 256 cols fun tid => blockDynamicColumns cols ((cols : Int).toNat + 1) tid := by
  refine ⟨fun col => (col % 256).toNat, fun col low _ => by dsimp only; omega, fun tid small => ?_⟩
  obtain ⟨visited, made, nodup, members⟩ := blockDynamicColumns_spec bounded ((cols : Int).toNat + 1)
    tid (by omega) (by omega) (by omega)
  refine ⟨visited, made, nodup, fun col => (members col).trans ?_⟩
  dsimp only
  omega

theorem blockDynamicColumns_endless (more : 2147483136 < cols) : ∀ (turns : Nat) (col : Int),
    -2147483648 ≤ col → col < 2147483648 → col % 512 = 0 →
    blockDynamicColumns cols turns col = .error .endless := by
  intro turns
  induction turns with
  | zero => exact fun _ _ _ _ => rfl
  | succ turns ih =>
    intro col low high multiple
    obtain ⟨least, most⟩ := int32_range (col + 2 * 256)
    rw [blockDynamicColumns, if_pos (by omega), ih _ least most (by unfold int32; omega)]
    rfl

end Shares

section Rows

variable {α : Type} [Field α] [LinearOrder α] {call : Call α} {rsqrtf : α → α}

omit [LinearOrder α] in
theorem warpReduceSum_eq (sums : Nat → α) (warp : Nat) :
    warpReduceSum sums warp = ((List.range 32).map fun lane => sums (32 * warp + lane)).sum :=
  @shuffleDown_eq_total _ HAdd.hAdd (0 : α) inferInstance inferInstance inferInstance 32 5
    (by decide) _

omit [LinearOrder α] in
theorem sum_warps (sums : Nat → α) (warps : Nat) :
    ((List.range warps).map (warpReduceSum sums)).sum = ((List.range (32 * warps)).map sums).sum := by
  induction warps with
  | zero => rfl
  | succ warps ih =>
    rw [range_succ, map_append, sum_append, ih, Nat.mul_succ, range_add,
      map_append, sum_append, map_map]
    simp [warpReduceSum_eq, Function.comp_def]

omit [LinearOrder α] in
theorem twoWarpTotal_eq (sums : Nat → α) : twoWarpTotal sums = ((List.range 64).map sums).sum := by
  rw [← sum_warps sums 2]
  simp [twoWarpTotal, range_succ]

omit [LinearOrder α] in
theorem blockTotal_eq (sums : Nat → α) : blockTotal sums = ((List.range 256).map sums).sum := by
  rw [← sum_warps sums 8, blockTotal, warpReduceSum_eq]
  simp [range_succ]

def Call.squares (call : Call α) (cols row : Nat) : α :=
  ((List.range cols).map fun col => call.input (row * cols + col) * call.input (row * cols + col)).sum

def Call.inverse (call : Call α) (rsqrtf : α → α) (total : α) : α :=
  if call.epsSquare < total then rsqrtf total else call.invEps

theorem Call.normalizeRow_writes {threads cols row : Nat} {columns : Nat → Except Fault (List Int)}
    {reduce : (Nat → α) → α} (same : call.cols = cols) (shares : Shares threads cols columns)
    (reduces : ∀ sums, reduce sums = ((List.range threads).map sums).sum)
    (fits : row * cols < 2147483648) (inside : row * cols + cols ≤ call.numel) :
    ∃ writes, call.normalizeRow rsqrtf threads columns reduce row = .ok writes ∧
      writes.Perm ((List.range cols).map fun col => (row * cols + col,
        call.input (row * cols + col) * call.inverse rsqrtf (call.squares cols row))) := by
  obtain ⟨visited, made, all⟩ := shares.perm
  have start : signed (row * call.cols) = .ok ((row * cols : Nat) : Int) := by
    rw [same, signed, if_pos (by constructor <;> [omega; exact_mod_cast fits])]
    rfl
  have within : ∀ tid < threads, ∀ col ∈ visited tid, 0 ≤ col ∧ col < cols := by
    intro tid small col there
    have found := all.mem_iff.mp (mem_flatMap.mpr ⟨tid, mem_range.mpr small, there⟩)
    obtain ⟨one, below, rfl⟩ := mem_map.mp found
    have := mem_range.mp below
    omega
  have loaded : ((range threads).mapM fun tid => do
      let visited ← columns tid
      visited.mapM fun col => call.element (((row * cols : Nat) : Int) + col)) =
        .ok ((range threads).map fun tid =>
          (visited tid).map fun col => row * cols + col.toNat) := by
    refine mapM_ok fun tid small => ?_
    rw [made tid (mem_range.mp small)]
    refine mapM_ok fun col there => ?_
    obtain ⟨low, high⟩ := within tid (mem_range.mp small) col there
    rw [Call.element, if_pos (by omega)]
    exact congrArg _ (by omega)
  have total : reduce (fun tid => (((range threads).map fun tid =>
      (visited tid).map fun col => row * cols + col.toNat).getD tid []).foldl
        (fun sum x => sum + call.input x * call.input x) 0) = call.squares cols row := by
    rw [reduces, Call.squares]
    have each : ∀ tid ∈ range threads, (((range threads).map fun tid =>
        (visited tid).map fun col => row * cols + col.toNat).getD tid []).foldl
          (fun sum x => sum + call.input x * call.input x) 0 = ((visited tid).map fun col =>
            call.input (row * cols + col.toNat) * call.input (row * cols + col.toNat)).sum := by
      intro tid small
      rw [getD_eq_getElem?_getD, getElem?_map,
        getElem?_range (mem_range.mp small), Option.map_some, Option.getD_some,
        foldl_map, sum_eq_foldl, foldl_map]
    rw [map_congr_left each]
    have joined : ∀ tids : List Nat, (tids.map fun tid => ((visited tid).map fun col =>
        call.input (row * cols + col.toNat) * call.input (row * cols + col.toNat)).sum).sum =
          ((tids.flatMap visited).map fun col =>
            call.input (row * cols + col.toNat) * call.input (row * cols + col.toNat)).sum := by
      intro tids
      induction tids with
      | nil => rfl
      | cons tid tids ih =>
        rw [map_cons, sum_cons, ih, flatMap_cons, map_append, sum_append]
    rw [joined, (all.map _).sum_eq, map_map]
    rfl
  refine ⟨((range threads).map fun tid =>
    (visited tid).map fun col => row * cols + col.toNat).flatten.map fun x =>
      (x, call.input x * call.inverse rsqrtf (call.squares cols row)), ?_, ?_⟩
  · rw [Call.normalizeRow, start, ok_bind, loaded, ok_bind]
    dsimp only
    rw [total]
    rfl
  · rw [← flatMap_def, ← map_flatMap, map_map]
    refine (all.map _).trans (Perm.of_eq ?_)
    rw [map_map]
    rfl

theorem Call.normalizeRow_overflow {threads cols row : Nat} {columns : Nat → Except Fault (List Int)}
    {reduce : (Nat → α) → α} (same : call.cols = cols) (large : 2147483648 ≤ row * cols) :
    ∃ fault, call.normalizeRow rsqrtf threads columns reduce row = .error fault := by
  refine ⟨.overflow, ?_⟩
  rw [Call.normalizeRow, same, signed, if_neg (by rw [← Int.natCast_mul]; omega)]
  rfl

theorem Call.normalizeRow_endless {threads : Nat} {row : Int} {columns : Nat → Except Fault (List Int)}
    {reduce : (Nat → α) → α} (some_ : 0 < threads) (endless : columns 0 = .error .endless) :
    ∃ fault, call.normalizeRow rsqrtf threads columns reduce row = .error fault := by
  rw [Call.normalizeRow]
  cases signed (row * call.cols) with
  | error fault => exact ⟨fault, rfl⟩
  | ok start =>
    rw [ok_bind]
    obtain ⟨fault, failed⟩ := mapM_error (f := fun tid => do
      let visited ← columns tid
      visited.mapM fun col => call.element (start + col)) (mem_range.mpr some_)
      ⟨.endless, by rw [endless]; rfl⟩
    exact ⟨fault, by rw [failed]; rfl⟩

end Rows

section Launches

variable {α : Type} [Field α] [LinearOrder α] {call : Call α} {runtime : Runtime}

theorem rows_of_blocks {blocks rowsPerBlock rows : Nat} (covers : rows ≤ blocks * rowsPerBlock)
    (fits : blocks * rowsPerBlock ≤ 2147483648) :
    ((List.range blocks).flatMap fun block => (List.range rowsPerBlock).map fun (group : Nat) =>
      int32 ((block * rowsPerBlock + group : Nat) : Int)).filter (· < (rows : Int)) =
        (List.range rows).map fun (row : Nat) => (row : Int) := by
  have numbered : ((range blocks).flatMap fun block => (range rowsPerBlock).map
      fun (group : Nat) => int32 ((block * rowsPerBlock + group : Nat) : Int)) =
        (range (blocks * rowsPerBlock)).map fun (row : Nat) => (row : Int) := by
    rw [← GridStride.flatMap_blocks, map_flatMap]
    simp only [map_map]
    refine flatMap_congr fun block inside => map_congr_left fun group there => ?_
    have one := mem_range.mp inside
    have two := mem_range.mp there
    have below : block * rowsPerBlock + group < blocks * rowsPerBlock := by nlinarith
    exact int32_of_fits (by omega) (by omega)
  obtain ⟨more, total⟩ := Nat.exists_eq_add_of_le covers
  rw [numbered, total, range_add, map_append, filter_append]
  have kept : ((range rows).map fun (row : Nat) => (row : Int)).filter (· < (rows : Int)) =
      (range rows).map fun (row : Nat) => (row : Int) := by
    refine filter_eq_self.mpr fun row there => ?_
    obtain ⟨one, inside, rfl⟩ := mem_map.mp there
    have := mem_range.mp inside
    exact decide_eq_true (by omega)
  rw [kept, filter_eq_nil_iff.mpr, append_nil]
  intro row there
  rw [map_map] at there
  obtain ⟨beyond, -, rfl⟩ := mem_map.mp there
  simp

structure Covers (call : Call α) (grid : Int) (rowsPerBlock rows : Nat) : Prop where
  same : call.rows = rows
  low : 0 ≤ grid
  covers : rows ≤ grid.toNat * rowsPerBlock
  fits : grid.toNat * rowsPerBlock ≤ 2147483648
  some_ : 0 < rowsPerBlock
  empty : grid = 0 ↔ rows = 0

omit [Field α] [LinearOrder α] in
theorem Covers.launch {grid : Int} {rowsPerBlock rows : Nat}
    (covers : Covers call grid rowsPerBlock rows) (body : Int → Except Fault (List (Nat × α))) :
    call.launch runtime grid rowsPerBlock body =
      if rows = 0 ∧ runtime.acceptsEmptyGrid = false then .error .invalidConfiguration
      else List.flatten <$> (List.range rows).mapM fun (row : Nat) => body row := by
  have small : grid.toNat ≤ 2147483648 := (Nat.le_mul_of_pos_right _ covers.some_).trans covers.fits
  have blocks : (grid % 4294967296).toNat = grid.toNat := by
    have := covers.low
    omega
  have empty : grid.toNat = 0 ↔ rows = 0 := by
    rw [← covers.empty]
    have := covers.low
    omega
  unfold Call.launch
  simp only [blocks, empty]
  split
  · rfl
  · rw [covers.same, rows_of_blocks covers.covers covers.fits, mapM_map]
    rfl

structure Plan (α : Type) where
  grid : Except Fault Int
  rowsPerBlock : Nat
  threads : Nat
  columns : Nat → Except Fault (List Int)
  reduce : (Nat → α) → α

def Plan.outcome (plan : Plan α) (call : Call α) (rsqrtf : α → α) (runtime : Runtime) :
    Except Fault (List (Nat × α)) := do
  let grid ← plan.grid
  call.launch runtime grid plan.rowsPerBlock
    (call.normalizeRow rsqrtf plan.threads plan.columns plan.reduce)

structure Plan.Right (plan : Plan α) (call : Call α) (rows cols : Nat) : Prop where
  some_ : 0 < plan.threads
  reduces : ∀ sums, plan.reduce sums = ((List.range plan.threads).map sums).sum
  shares : cols ≤ 2147483136 → Shares plan.threads cols plan.columns
  endless : 2147483136 < cols → plan.columns 0 = .error .endless
  grid : rows < 2147483648 →
    (∃ grid, plan.grid = .ok grid ∧ Covers call grid plan.rowsPerBlock rows) ∨
      2147483648 ≤ rows + 8 ∧ ∃ fault, plan.grid = .error fault
  overflow : 2147483648 ≤ rows + 8 → cols = 1 → ∃ fault, plan.grid = .error fault

variable {rows cols : Nat}

omit [Field α] [LinearOrder α] in
theorem bucketGrid_covers {rowsPerBlock : Nat} (same : call.rows = rows) (some_ : 0 < rowsPerBlock)
    (few : rowsPerBlock ≤ 8) (fits : rows < 2147483648) :
    (∃ grid, call.bucketGrid rowsPerBlock = .ok grid ∧ Covers call grid rowsPerBlock rows) ∨
      2147483648 ≤ rows + 8 ∧ ∃ fault, call.bucketGrid rowsPerBlock = .error fault := by
  rw [Call.bucketGrid, same]
  by_cases more : rows + rowsPerBlock < 2147483648
  · have divided : (((rows + rowsPerBlock - 1 : Nat) : Int)).tdiv rowsPerBlock =
        ((rows + rowsPerBlock - 1) / rowsPerBlock : Nat) := rfl
    have remainder := Nat.mod_lt (rows + rowsPerBlock - 1) some_
    have split := Nat.div_add_mod (rows + rowsPerBlock - 1) rowsPerBlock
    rw [Nat.mul_comm] at split
    refine .inl ⟨((rows + rowsPerBlock - 1) / rowsPerBlock : Nat), ?_, same,
      Int.natCast_nonneg _, ?_, ?_, some_, ?_⟩
    · rw [signed, if_pos (by omega), ok_bind, signed, if_pos (by omega), ok_bind, ← divided]
      congr 2
      omega
    · rw [Int.toNat_natCast]
      omega
    · rw [Int.toNat_natCast]
      omega
    · rw [Int.natCast_eq_zero, Nat.div_eq_zero_iff]
      omega
  · rw [signed, if_neg (by omega)]
    exact .inr ⟨by omega, _, rfl⟩

omit [Field α] [LinearOrder α] in
theorem blocks_cover (same : call.rows = rows) (fits : rows < 2147483648) :
    (∃ grid, (Except.ok call.rows : Except Fault Int) = .ok grid ∧ Covers call grid 1 rows) ∨
      2147483648 ≤ rows + 8 ∧ ∃ fault, (Except.ok call.rows : Except Fault Int) = .error fault := by
  refine .inl ⟨_, rfl, same, ?_, ?_, ?_, Nat.one_pos, ?_⟩
  all_goals
    rw [same]
    omega

omit [LinearOrder α] in
theorem warpBucket_right {rowsPerBlock : Nat} (same : call.rows = rows) (same' : call.cols = cols)
    (narrow : cols ≤ 64) (some_ : 0 < rowsPerBlock) (few : rowsPerBlock ≤ 8)
    (many : 32 < rows → rowsPerBlock = 8) :
    Plan.Right ⟨call.bucketGrid rowsPerBlock, rowsPerBlock, 32,
      fun lane => .ok (warpBucketColumns 64 call.cols lane), fun sums => warpReduceSum sums 0⟩
      call rows cols where
  some_ := Nat.succ_pos _
  reduces sums := (warpReduceSum_eq sums 0).trans (by simp)
  shares _ := by
    rw [same']
    exact shares_warpBucket narrow
  endless more := absurd more (by omega)
  grid := bucketGrid_covers same some_ few
  overflow large _ := by
    refine ⟨.overflow, ?_⟩
    rw [Call.bucketGrid, same, many (by omega), signed, if_neg (by omega)]
    rfl

omit [LinearOrder α] in
theorem twoWarpBucket_right {rowsPerBlock : Nat} (same : call.rows = rows) (same' : call.cols = cols)
    (narrow : 64 < cols ∧ cols ≤ 128) (some_ : 0 < rowsPerBlock) (few : rowsPerBlock ≤ 8) :
    Plan.Right ⟨call.bucketGrid rowsPerBlock, rowsPerBlock, 64,
      fun tid => .ok (twoWarpBucketColumns 128 call.cols tid), twoWarpTotal⟩ call rows cols where
  some_ := Nat.succ_pos _
  reduces := twoWarpTotal_eq
  shares _ := by
    rw [same']
    exact shares_twoWarpBucket narrow.2
  endless more := absurd more (by omega)
  grid := bucketGrid_covers same some_ few
  overflow _ one := absurd one (by omega)

omit [LinearOrder α] in
theorem blockBucket_right {maxCols : Nat} (same : call.rows = rows) (same' : call.cols = cols)
    (narrow : 128 < cols ∧ cols ≤ 512) (wide : 256 < maxCols ∨ cols ≤ 256) :
    Plan.Right ⟨.ok call.rows, 1, 256, fun tid => .ok (blockBucketColumns maxCols call.cols tid),
      blockTotal⟩ call rows cols where
  some_ := Nat.succ_pos _
  reduces := blockTotal_eq
  shares _ := by
    rw [same']
    exact shares_blockBucket narrow.2 wide
  endless more := absurd more (by omega)
  grid := blocks_cover same
  overflow _ one := absurd one (by omega)

omit [LinearOrder α] in
theorem blockDynamic_right (same : call.rows = rows) (same' : call.cols = cols) (wide : 512 < cols) :
    Plan.Right ⟨.ok call.rows, 1, 256,
      fun tid => blockDynamicColumns call.cols (call.cols.toNat + 1) tid, blockTotal⟩ call rows cols where
  some_ := Nat.succ_pos _
  reduces := blockTotal_eq
  shares bounded := by
    rw [same']
    exact shares_blockDynamic (by omega) bounded
  endless more := by
    rw [same']
    exact blockDynamicColumns_endless more _ _ (by decide) (by decide) (by decide)
  grid := blocks_cover same
  overflow _ one := absurd one (by omega)

theorem selectBlockSize_cases (rows cols : Nat) :
    rows ≤ 8 ∧ selectBlockSize rows cols = 64 ∨ rows ≤ 32 ∧ selectBlockSize rows cols = 128 ∨
      selectBlockSize rows cols = 256 := by
  unfold selectBlockSize
  split_ifs <;> simp <;> omega

theorem selectBlockSize_wide (wide : 128 < cols) : selectBlockSize rows cols = 256 := by
  rw [selectBlockSize, if_neg (by omega)]

theorem plan_right (rsqrtf : α → α) (same : call.rows = rows) (same' : call.cols = cols)
    (some_ : 0 < cols) : ∃ plan : Plan α, plan.Right call rows cols ∧
      normalizeFusedKernelLaunch rsqrtf runtime call (selectBlockSize rows cols) =
        plan.outcome call rsqrtf runtime := by
  by_cases wide : 128 < cols
  · rw [selectBlockSize_wide wide, normalizeFusedKernelLaunch, same', if_neg (by decide),
      if_neg (by omega), if_neg (by omega)]
    by_cases small : cols ≤ 256
    · rw [if_pos (by omega)]
      exact ⟨_, blockBucket_right same same' (by omega) (.inr small), rfl⟩
    rw [if_neg (by omega)]
    by_cases large : cols ≤ 512
    · rw [if_pos (by omega)]
      exact ⟨_, blockBucket_right same same' (by omega) (.inl (by decide)), rfl⟩
    · rw [if_neg (by omega)]
      exact ⟨_, blockDynamic_right same same' (by omega), rfl⟩
  by_cases narrow : cols ≤ 64
  · obtain ⟨few, size⟩ | ⟨few, size⟩ | size := selectBlockSize_cases rows cols <;>
      rw [size, normalizeFusedKernelLaunch, same', if_neg (by decide), if_pos (by omega)]
    · exact ⟨_, warpBucket_right same same' narrow (by decide) (by decide) (by omega), rfl⟩
    · exact ⟨_, warpBucket_right same same' narrow (by decide) (by decide) (by omega), rfl⟩
    · exact ⟨_, warpBucket_right same same' narrow (by decide) (by decide) fun _ => rfl, rfl⟩
  · obtain ⟨few, size⟩ | ⟨few, size⟩ | size := selectBlockSize_cases rows cols <;>
      rw [size, normalizeFusedKernelLaunch, same', if_neg (by decide), if_neg (by omega),
        if_pos (by omega)]
    · exact ⟨_, twoWarpBucket_right same same' (by omega) (by decide) (by decide), rfl⟩
    · exact ⟨_, twoWarpBucket_right same same' (by omega) (by decide) (by decide), rfl⟩
    · exact ⟨_, twoWarpBucket_right same same' (by omega) (by decide) (by decide), rfl⟩

def Call.normalized (call : Call α) (rsqrtf : α → α) (rows cols : Nat) : List (Nat × α) :=
  (List.range rows).flatMap fun row => (List.range cols).map fun col => (row * cols + col,
    call.input (row * cols + col) * call.inverse rsqrtf (call.squares cols row))

theorem Plan.Right.writes {plan : Plan α} (right : plan.Right call rows cols) {rsqrtf : α → α}
    (same : call.cols = cols) (numel : call.numel = rows * cols) (fits : rows + 8 < 2147483648)
    (product : (rows - 1) * cols < 2147483648) (bounded : rows = 0 ∨ cols ≤ 2147483136)
    (grids : rows ≠ 0 ∨ runtime.acceptsEmptyGrid) :
    ∃ writes, plan.outcome call rsqrtf runtime = .ok writes ∧
      writes.Perm (call.normalized rsqrtf rows cols) := by
  obtain ⟨grid, made, covers⟩ | ⟨large, -⟩ := right.grid (by omega)
  swap
  · omega
  have each : ∀ row : Nat, ∃ writes, row < rows →
      call.normalizeRow rsqrtf plan.threads plan.columns plan.reduce row = .ok writes ∧
        writes.Perm ((range cols).map fun col => (row * cols + col,
          call.input (row * cols + col) * call.inverse rsqrtf (call.squares cols row))) := by
    intro row
    by_cases inside : row < rows
    · have before : row * cols ≤ (rows - 1) * cols := Nat.mul_le_mul_right _ (by omega)
      have after : row * cols + cols ≤ call.numel := by
        rw [numel, ← Nat.succ_mul]
        exact Nat.mul_le_mul_right _ inside
      obtain ⟨writes, ok, perm⟩ := call.normalizeRow_writes same (right.shares (by omega))
        right.reduces (before.trans_lt product) after
      exact ⟨writes, fun _ => ⟨ok, perm⟩⟩
    · exact ⟨[], fun small => absurd small inside⟩
  choose writes spec using each
  refine ⟨((range rows).map writes).flatten, ?_, ?_⟩
  · rw [Plan.outcome, made, ok_bind, covers.launch, if_neg (by simp only [not_and]; grind),
      mapM_ok fun row small => (spec row (mem_range.mp small)).1]
    rfl
  · rw [← flatMap_def]
    exact Perm.flatMap_left _ fun row small => (spec row (mem_range.mp small)).2

theorem Plan.Right.fails {plan : Plan α} (right : plan.Right call rows cols) {rsqrtf : α → α}
    (few : rows < 2147483648)
    (bad : rows = 0 ∧ runtime.acceptsEmptyGrid = false ∨ ∃ row < rows, ∃ fault,
      call.normalizeRow rsqrtf plan.threads plan.columns plan.reduce row = .error fault) :
    ∃ fault, plan.outcome call rsqrtf runtime = .error fault := by
  obtain ⟨grid, made, covers⟩ | ⟨-, fault, failed⟩ := right.grid few
  · rw [Plan.outcome, made, ok_bind, covers.launch]
    obtain empty | ⟨row, inside, fails⟩ := bad
    · exact ⟨_, if_pos empty⟩
    · rw [if_neg (by omega)]
      obtain ⟨fault, failed⟩ := mapM_error (f := fun (row : Nat) =>
        call.normalizeRow rsqrtf plan.threads plan.columns plan.reduce row)
        (mem_range.mpr inside) fails
      exact ⟨fault, by rw [failed]; rfl⟩
  · exact ⟨fault, by rw [Plan.outcome, failed]; rfl⟩

end Launches

section Reals

noncomputable def rsqrt (total : ℝ) : ℝ := 1 / √total

noncomputable def rowNorm (data : Nat → ℝ) (cols row : Nat) : ℝ :=
  √ ((List.range cols).map fun col => data (row * cols + col) * data (row * cols + col)).sum

noncomputable def normalizedRows (data : Nat → ℝ) (eps : ℝ) (rows cols : Nat) : List (Nat × ℝ) :=
  (List.range rows).flatMap fun row => (List.range cols).map fun col =>
    (row * cols + col, data (row * cols + col) / max (rowNorm data cols row) eps)

theorem mul_inverse {call : Call ℝ} {eps : ℝ} (positive : 0 < eps) (square : call.epsSquare = eps * eps)
    (inverse : call.invEps = 1 / eps) (x total : ℝ) :
    x * call.inverse rsqrt total = x / max √total eps := by
  rw [Call.inverse, square, inverse, rsqrt]
  split
  · next large =>
      rw [max_eq_left (Real.le_sqrt_of_sq_le (by rw [sq]; exact large.le)), mul_one_div]
  · next small =>
      rw [max_eq_right ((Real.sqrt_le_left positive.le).mpr (by rw [sq]; exact not_lt.mp small)),
        mul_one_div]

/-- For an input of these sizes that passes the checks of the host: `rows` and `cols` are what they
are to be, and every element is written once. -/
def Normalizes (runtime : Runtime) (sizes : List Nat) : Prop :=
  ∃ rows : Nat, rowsCols sizes = .ok ((rows : Int), ((sizes.getLastD 0 : Nat) : Int)) ∧
    rows * sizes.getLastD 0 = sizes.prod ∧
    ∀ (data : Nat → ℝ) (eps : ℝ), 0 < eps →
      ∃ writes, normalizeFused rsqrt runtime ⟨true, true, true, sizes, data⟩ eps = .ok writes ∧
        writes.Perm (normalizedRows data eps rows (sizes.getLastD 0))

variable {runtime : Runtime} {dims : List Nat} {size : Nat}

theorem rowsCols_eq (some_ : size ≠ 0) (fits : size < 2147483648) (few : dims.prod < 2147483648) :
    rowsCols (dims ++ [size]) = .ok ((dims.prod : Int), (size : Int)) := by
  have product : (dims ++ [size]).prod = dims.prod * size := by
    rw [prod_append, prod_singleton]
  have quotient : Int.tdiv (dims.prod * size : Nat) size = (dims.prod : Int) := by
    rw [Int.natCast_mul]
    exact Int.mul_tdiv_cancel _ (by omega)
  rw [rowsCols, getLastD_concat, product, int32_of_fits (by omega) (by omega), if_neg (by omega),
    quotient, int32_of_fits (by omega) (by omega)]

theorem rowsCols_spec {rows : Nat} (made : rowsCols (dims ++ [size]) = .ok ((rows : Int), (size : Int)))
    (product : rows * size = (dims ++ [size]).prod) :
    size ≠ 0 ∧ size < 2147483648 ∧ rows < 2147483648 ∧ rows = dims.prod := by
  rw [rowsCols, getLastD_concat] at made
  split at made
  · cases made
  · next some_ =>
      obtain ⟨one, two⟩ := Prod.ext_iff.mp (Except.ok.inj made)
      dsimp only at one two
      rw [two] at some_
      have low := int32_range (size : Int)
      have high := int32_range (Int.tdiv ((dims ++ [size]).prod : Nat) (int32 (size : Int)))
      rw [two] at low
      rw [one] at high
      rw [prod_append, prod_singleton] at product
      exact ⟨by omega, by omega, by omega, Nat.eq_of_mul_eq_mul_right (by omega) product⟩

theorem planned (runtime : Runtime) (data : Nat → ℝ) (eps : ℝ) (some_ : size ≠ 0) (fits : size < 2147483648)
    (few : dims.prod < 2147483648) : ∃ (call : Call ℝ) (plan : Plan ℝ),
      plan.Right call dims.prod size ∧
      normalizeFused rsqrt runtime ⟨true, true, true, dims ++ [size], data⟩ eps =
        plan.outcome call rsqrt runtime ∧
      call = ⟨dims.prod * size, data, dims.prod, size, eps * eps, 1 / eps⟩ := by
  have product : (dims ++ [size]).prod = dims.prod * size := by
    rw [prod_append, prod_singleton]
  obtain ⟨plan, right, launched⟩ := @plan_right _ _ _
    ⟨dims.prod * size, data, dims.prod, size, eps * eps, 1 / eps⟩ runtime _ _ rsqrt rfl rfl
    (Nat.pos_of_ne_zero some_)
  refine ⟨_, plan, right, ?_, rfl⟩
  rw [← launched, normalizeFused]
  have checked : Tensor.check ⟨true, true, true, dims ++ [size], data⟩ = .ok () := by
    simp [Tensor.check]
  rw [checked, ok_bind]
  rw [rowsCols_eq some_ fits few, ok_bind, product]

theorem normalizes_of_fits (some_ : size ≠ 0) (fits : size < 2147483648)
    (few : dims.prod + 8 < 2147483648) (product : (dims.prod - 1) * size < 2147483648)
    (bounded : dims.prod = 0 ∨ size ≤ 2147483136)
    (grids : dims.prod ≠ 0 ∨ runtime.acceptsEmptyGrid) : Normalizes runtime (dims ++ [size]) := by
  have last : (dims ++ [size]).getLastD 0 = size := getLastD_concat
  refine ⟨dims.prod, ?_, ?_, fun data eps positive => ?_⟩
  · rw [last, rowsCols_eq some_ fits (by omega)]
  · rw [last, prod_append, prod_singleton]
  · obtain ⟨call, plan, right, run, made⟩ :=
      planned runtime data eps some_ fits (by omega : dims.prod < 2147483648)
    have numel : call.numel = dims.prod * size := by rw [made]
    obtain ⟨writes, ok, perm⟩ :=
      @Plan.Right.writes _ _ _ _ runtime _ _ _ right rsqrt (by rw [made]) numel few product bounded grids
    refine ⟨writes, run.trans ok, perm.trans (Perm.of_eq ?_)⟩
    rw [last]
    refine flatMap_congr fun row _ => map_congr_left fun col _ => ?_
    rw [mul_inverse positive (by rw [made]) (by rw [made]), made]
    rfl

/-- It does what it is to do exactly for these sizes. -/
theorem normalizes_iff (runtime : Runtime) (dims : List Nat) (size : Nat) :
    Normalizes runtime (dims ++ [size]) ↔
      size ≠ 0 ∧ size < 2147483648 ∧ dims.prod + 8 < 2147483648 ∧
        (dims.prod - 1) * size < 2147483648 ∧ (dims.prod = 0 ∨ size ≤ 2147483136) ∧
        (dims.prod ≠ 0 ∨ runtime.acceptsEmptyGrid) := by
  constructor
  · rintro ⟨rows, host, product, written⟩
    rw [getLastD_concat] at host product written
    obtain ⟨some_, fits, few, rfl⟩ := rowsCols_spec host product
    obtain ⟨call, plan, right, run, made⟩ := planned runtime (fun _ => 0) 1 some_ fits few
    have works : ¬ ∃ fault, plan.outcome call rsqrt runtime = .error fault := by
      rintro ⟨fault, failed⟩
      obtain ⟨writes, ok, -⟩ := written (fun _ => 0) 1 one_pos
      rw [run, failed] at ok
      cases ok
    refine ⟨some_, fits, ?_⟩
    by_contra wrong
    by_cases empty : dims.prod = 0
    · refine works (right.fails few (Or.inl ⟨empty, ?_⟩))
      rw [empty] at wrong
      simpa using wrong
    by_cases product : (dims.prod - 1) * size < 2147483648
    · by_cases large : dims.prod + 8 < 2147483648
      · have wide : 2147483136 < size := by
          by_contra narrow
          exact wrong ⟨large, product, Or.inr (by omega), Or.inl empty⟩
        exact works (right.fails few (Or.inr ⟨0, Nat.pos_of_ne_zero empty,
          call.normalizeRow_endless right.some_ (right.endless wide)⟩))
      · refine works ?_
        obtain ⟨fault, failed⟩ := right.overflow (by omega) (by
          by_contra more
          have := Nat.mul_le_mul_left (dims.prod - 1) (by omega : 2 ≤ size)
          omega)
        exact ⟨fault, by rw [Plan.outcome, failed]; rfl⟩
    · exact works (right.fails few (Or.inr ⟨dims.prod - 1, by omega,
        call.normalizeRow_overflow (by rw [made]) (by omega)⟩))
  · rintro ⟨some_, fits, few, product, bounded, grids⟩
    exact normalizes_of_fits some_ fits few product bounded grids

/-- An empty last dimension. -/
theorem empty_rows_divide : ¬ ∀ runtime dims size, Normalizes runtime (dims ++ [size]) := by
  intro all
  obtain ⟨rows, host, -⟩ := all ⟨true⟩ [2] 0
  cases host

end Reals

end TorchSupa.Aten.NormalizeFused
