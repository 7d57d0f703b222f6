import TorchSupa.Aten.Tensors
import TorchSupa.Logic.Writes

/-!
Copies on a device: the choice of a kernel by types and layouts, and the two kernels for permuted
tensors with three axes. What a kernel does is the list of what its threads do.
-/

namespace TorchSupa.Aten.DirectCopy

variable {α : Type}

inductive Event (α : Type)
  | store (address : Nat) (value : Option α)
  | vector (address : Nat)
  | counter (value : Int)
deriving DecidableEq, Repr

def Event.Bad : Event α → Prop
  | .store _ _ => False
  | .vector address => address % 16 ≠ 0
  | .counter value => ¬(-2 ^ 31 ≤ value ∧ value < 2 ^ 31)

def toInt (value : Nat) : Int := Int.bmod value (2 ^ 32)

def u32 (value : Nat) : Nat := value % 2 ^ 32

section Analysis

def candidatePerms : List (List Nat) :=
  (List.range 3).flatMap fun p0 => ((List.range 3).filter (· ≠ p0)).flatMap fun p1 =>
    ((List.range 3).filter fun p2 => p2 ≠ p0 ∧ p2 ≠ p1).map fun p2 => [p0, p1, p2]

def origSize (perm sizes : List Nat) (axis : Nat) : Nat := sizes.getD (perm.idxOf axis) 0

def expectedStride (perm sizes : List Nat) (i : Nat) : Nat :=
  if perm.getD i 0 = 0 then origSize perm sizes 1 * origSize perm sizes 2
  else if perm.getD i 0 = 1 then origSize perm sizes 2
  else 1

def detect3dPermuteStrides (input output : Tensor) : Option (List Nat) :=
  if input.dim ≠ 3 ∨ output.dim ≠ 3 then none
  else if input.sizes ≠ output.sizes then none
  else if !output.isContiguous then none
  else if !input.isNonOverlappingAndDense then none
  else candidatePerms.find? fun perm =>
    (List.range 3).all fun i => input.stride i == expectedStride perm input.sizes i

structure ContiguousTail where
  planeRows : Int
  planeCols : Int
  tailLen : Int
  srcStrideRowBytes : Nat
  srcStrideColBytes : Nat
  dstStrideRowBytes : Nat
  dstStrideColBytes : Nat
deriving DecidableEq, Repr

structure Tile where
  tileN : Int
  tileK : Int
  batchCount : Int
  srcNContiguous : Bool
  srcStrideKBytes : Nat
  srcStrideNBytes : Nat
  srcBatchStrideBytes : Nat
  dstStrideRowBytes : Nat
  dstStrideColBytes : Nat
  dstBatchStrideBytes : Nat
deriving DecidableEq, Repr

inductive Permute3DTransposeConfig
  | contiguousTail (cfg : ContiguousTail)
  | tile (cfg : Tile)
deriving DecidableEq, Repr

structure Decomposition where
  batch : Nat
  dimN : Nat
  dimK : Nat
  srcNContiguous : Bool
deriving DecidableEq, Repr

def decompose (perm : List Nat) (input : Tensor) (batchDim : Nat) : Option Decomposition :=
  let inner := (List.range 3).filter (· ≠ batchDim)
  let v0 := inner.getD 0 0
  let v1 := inner.getD 1 0
  if perm.getD v0 0 ≤ perm.getD v1 0 then none
  else if input.stride v0 = 1 then some ⟨batchDim, v0, v1, true⟩
  else if input.stride v1 = 1 then some ⟨batchDim, v1, v0, true⟩
  else some ⟨batchDim, v0, v1, false⟩

def better : Option Decomposition → Option Decomposition → Option Decomposition
  | best, none => best
  | none, some found => some found
  | some best, some found =>
    if !best.srcNContiguous && found.srcNContiguous then some found else some best

def bestDecomposition (perm : List Nat) (input : Tensor) : Option Decomposition :=
  (List.range 3).foldl (fun best batchDim => better best (decompose perm input batchDim)) none

def analyzePermute3dTranspose (input output : Tensor) : Option Permute3DTransposeConfig :=
  let elemSize := input.dtype.elementSize
  match detect3dPermuteStrides input output with
  | none => none
  | some perm =>
    if perm = [0, 1, 2] then none
    else if perm = [1, 0, 2] ∧ input.stride 2 = 1 ∧ output.stride 2 = 1 then
      some (.contiguousTail {
        planeRows := toInt (output.size 0)
        planeCols := toInt (output.size 1)
        tailLen := toInt (output.size 2)
        srcStrideRowBytes := input.stride 0 * elemSize
        srcStrideColBytes := input.stride 1 * elemSize
        dstStrideRowBytes := output.stride 0 * elemSize
        dstStrideColBytes := output.stride 1 * elemSize })
    else (bestDecomposition perm input).map fun best =>
      .tile {
        tileN := toInt (input.size best.dimN)
        tileK := toInt (input.size best.dimK)
        batchCount := toInt (input.size best.batch)
        srcNContiguous := best.srcNContiguous
        srcStrideKBytes := input.stride best.dimK * elemSize
        srcStrideNBytes := input.stride best.dimN * elemSize
        srcBatchStrideBytes := input.stride best.batch * elemSize
        dstStrideRowBytes := output.stride best.dimN * elemSize
        dstStrideColBytes := output.stride best.dimK * elemSize
        dstBatchStrideBytes := output.stride best.batch * elemSize }

def tiles (size : Int) : Int := (size + 64 - 1).tdiv 64

def canLaunchPermute3dFastpath : Permute3DTransposeConfig → Bool
  | .contiguousTail cfg =>
    let planeJOnX : Bool := cfg.planeCols ≤ cfg.planeRows
    let gridX := if planeJOnX then cfg.planeCols else cfg.planeRows
    let gridY := if planeJOnX then cfg.planeRows else cfg.planeCols
    gridX > 0 && gridY > 0 && gridX ≤ 2 ^ 31 - 1 && gridY ≤ 2 ^ 31 - 1
  | .tile cfg =>
    let grid := cfg.batchCount * tiles cfg.tileN * tiles cfg.tileK
    grid > 0 && grid ≤ 2 ^ 31 - 1

end Analysis

section Loops

/-- The values of the variable of `for (int k = start; k < bound; k += stride)`. -/
def loop (start stride bound : Int) : List Int :=
  (List.range ((bound - start + stride - 1) / stride).toNat).map fun (turn : Nat) =>
    start + stride * turn

def loopExit (start stride bound : Int) : Int :=
  start + stride * ((bound - start + stride - 1) / stride).toNat

end Loops

section Tail

variable (contents : Nat → α)

def alignElems (srcBase dstBase : Nat) : Nat :=
  if srcBase % 16 = dstBase % 16 ∧ srcBase % 16 ≠ 0 then (16 - srcBase % 16) / 2 else 0

def burstEnd (srcBase dstBase : Nat) (tailLen : Int) : Int :=
  if srcBase % 16 = dstBase % 16 then
    alignElems srcBase dstBase + (tailLen - alignElems srcBase dstBase).tdiv 16 * 16
  else 0

def scalarLoop (srcBase dstBase thread : Nat) (start bound : Int) : List (Event α) :=
  .counter (loopExit (start + thread * 2) (256 * 2) bound) ::
    (loop (start + thread * 2) (256 * 2) bound).flatMap fun k =>
      (List.range 2).flatMap fun (p : Nat) =>
        let elemIdx : Int := k + p
        if elemIdx < bound then
          [.store (dstBase + 2 * elemIdx.toNat) (some (contents (srcBase + 2 * elemIdx.toNat)))]
        else []

def burstLoop (srcBase dstBase thread : Nat) (start bound : Int) : List (Event α) :=
  .counter (loopExit (start + thread * 16) (256 * 16) bound) ::
    (loop (start + thread * 16) (256 * 16) bound).flatMap fun k =>
      [.vector (srcBase + 2 * k.toNat), .vector (srcBase + 2 * (k.toNat + 8)),
        .vector (dstBase + 2 * k.toNat), .vector (dstBase + 2 * (k.toNat + 8))] ++
      (List.range 16).map fun lane =>
        .store (dstBase + 2 * (k.toNat + lane)) (some (contents (srcBase + 2 * (k.toNat + lane))))

def permute102ContigTailKernel (src dst : Nat) (cfg : ContiguousTail) (planeJMapsToBlockX : Bool)
    (blockX blockY thread : Nat) : List (Event α) :=
  let planeI := if planeJMapsToBlockX then blockY else blockX
  let planeJ := if planeJMapsToBlockX then blockX else blockY
  if cfg.planeRows ≤ planeI ∨ cfg.planeCols ≤ planeJ then []
  else
    let srcBase := src + planeI * cfg.srcStrideRowBytes + planeJ * cfg.srcStrideColBytes
    let dstBase := dst + planeI * cfg.dstStrideRowBytes + planeJ * cfg.dstStrideColBytes
    let burstStart := alignElems srcBase dstBase
    let burstStop := burstEnd srcBase dstBase cfg.tailLen
    scalarLoop contents srcBase dstBase thread 0 burstStart ++
      .counter (cfg.tailLen - burstStart) ::
      burstLoop contents srcBase dstBase thread burstStart burstStop ++
      scalarLoop contents srcBase dstBase thread burstStop cfg.tailLen

end Tail

section Tiles

variable (contents : Nat → α)

structure Put (α : Type) where
  row : Nat
  col : Nat
  value : α

def held (puts : List (Put α)) (row col : Nat) : Option α :=
  (puts.find? fun put => put.row = row ∧ put.col = col).map Put.value

def places (perRow : Nat) : List (Nat × Nat) :=
  (List.range 256).flatMap fun thread =>
    (List.range (64 / (256 / perRow))).map fun t =>
      (thread / perRow + t * (256 / perRow), thread % perRow)

/-- A tile without partial rows or columns: `pat` and `pc` are where it begins. -/
def fullTile (pat pc strideN strideK : Nat) : List (Event α) :=
  let sa := (places 8).flatMap fun (row, col) => (List.range 8).map fun i =>
    Put.mk row (col * 8 + i) (contents (pat + (row * strideN + col * 16) + 2 * i))
  (places 8).map (fun (row, col) => .vector (pat + (row * strideN + col * 16))) ++
    (places 8).flatMap fun (row, col) =>
      .vector (pc + (row * strideK + col * 16)) ::
        (List.range 8).map fun i =>
          .store (pc + (row * strideK + col * 16) + 2 * i) (held sa (col * 8 + i) row)

def partialTile (pat pc maxPartN maxPartK : Nat) (cfg : Tile) : List (Event α) :=
  let sa := ((places 64).filter fun (row, col) => col < maxPartN ∧ row < maxPartK).map
    fun (row, col) =>
      Put.mk row col (contents (pat + (row * cfg.srcStrideKBytes + col * cfg.srcStrideNBytes)))
  ((places 64).filter fun (row, col) => col < maxPartK ∧ row < maxPartN).map fun (row, col) =>
    .store (pc + (row * cfg.dstStrideRowBytes + col * cfg.dstStrideColBytes)) (held sa col row)

def transposeTileBigKernel (a c : Nat) (n k : Nat) (cfg : Tile) (block : Nat) : List (Event α) :=
  let nTiles := u32 (n + 64 - 1) / 64
  let kTiles := u32 (k + 64 - 1) / 64
  let nkTiles := u32 (nTiles * kTiles)
  let m := block / nkTiles
  let strideN := cfg.srcStrideKBytes
  let strideK := cfg.dstStrideRowBytes
  let strideNk := cfg.srcBatchStrideBytes
  let strideNkDst := cfg.dstBatchStrideBytes
  let dstKContiguous : Bool := cfg.dstStrideColBytes = 2
  let inBatch := block % nkTiles
  let tIdx := if inBatch > 0 then inBatch
    else inBatch / 64 * 64 + inBatch % 64 / 8 + inBatch % 8 * 8
  let ti := tIdx / kTiles
  let tj := tIdx % kTiles
  let maxPartN := if ti = nTiles - 1 ∧ n % 64 ≠ 0 then n % 64 else 64
  let maxPartK := if tj = kTiles - 1 ∧ k % 64 ≠ 0 then k % 64 else 64
  if cfg.srcNContiguous && dstKContiguous && maxPartN = 64 && maxPartK = 64 then
    fullTile contents (a + u32 (tj * 64) * strideN + u32 (ti * 128) + m * strideNk)
      (c + u32 (ti * 64) * strideK + u32 (tj * 128) + m * strideNkDst) strideN strideK
  else
    partialTile contents
      (a + m * strideNk + ti * 64 * cfg.srcStrideNBytes + tj * 64 * cfg.srcStrideKBytes)
      (c + m * strideNkDst + ti * 64 * cfg.dstStrideRowBytes + tj * 64 * cfg.dstStrideColBytes)
      maxPartN maxPartK cfg

end Tiles

section Copies

variable (contents : Nat → α) (src dst : Tensor)

def permute3dTransposeCopyImpl : Permute3DTransposeConfig → List (Event α)
  | .contiguousTail cfg =>
    let planeJOnX : Bool := cfg.planeCols ≤ cfg.planeRows
    let gridX := if planeJOnX then cfg.planeCols else cfg.planeRows
    let gridY := if planeJOnX then cfg.planeRows else cfg.planeCols
    (List.range gridX.toNat).flatMap fun blockX => (List.range gridY.toNat).flatMap fun blockY =>
      (List.range 256).flatMap fun thread =>
        permute102ContigTailKernel contents src.dataPtr dst.dataPtr cfg planeJOnX blockX blockY thread
  | .tile cfg =>
    let nTiles := tiles cfg.tileN
    let kTiles := tiles cfg.tileK
    let bigTileWg := cfg.batchCount * nTiles * kTiles
    -- the first sum of `(tile_n + 64) - 1`: where it fits an int, so does the difference
    [.counter (cfg.tileN + 64), .counter (cfg.tileK + 64),
      .counter (cfg.batchCount * nTiles), .counter bigTileWg] ++
    (List.range bigTileWg.toNat).flatMap fun block =>
      transposeTileBigKernel contents src.dataPtr dst.dataPtr (cfg.tileN % 2 ^ 32).toNat
        (cfg.tileK % 2 ^ 32).toNat cfg block

def permute3dTransposeCopy (cfg : Permute3DTransposeConfig) : Except String (List (Event α)) :=
  if dst.dtype ≠ src.dtype then
    .error "permute_3d_transpose_copy requires matching input and output dtypes"
  else if dst.dtype = .kBFloat16 ∨ dst.dtype = .kHalf then
    .ok (permute3dTransposeCopyImpl contents src dst cfg)
  else .error ("permute_3d_transpose_copy expects Half or BFloat16, got " ++ dst.dtype.toString)

def elementwise (f : α → α) : List (Event α) :=
  (indices dst.sizes).map fun index =>
    .store (dst.address index) (some (f (contents (src.address (src.unexpand index)))))

variable (conversions : Conversions α)

/-- `gpu_kernel` with a function from one type to itself: values are converted on the way in and
on the way out. -/
def gpuKernel (scalar : ScalarType) (f : α → α) : Except String (List (Event α)) :=
  .ok (elementwise contents src dst fun value =>
    conversions.convert dst.dtype scalar (f (conversions.convert scalar src.dtype value)))

def gpuKernelNocast (argument result : ScalarType) (f : α → α) : Except String (List (Event α)) :=
  if src.dtype = argument ∧ dst.dtype = result then .ok (elementwise contents src dst f)
  else .error "!needs_dynamic_casting<func_t>::check(iter)"

def notImplemented (dtype : ScalarType) : String :=
  "\"copy_\" not implemented for '" ++ dtype.toString ++ "'"

def dispatchQInt : ScalarType → Bool
  | .kQInt8 | .kQUInt8 | .kQInt32 => true
  | _ => false

def dispatchCopy : ScalarType → Bool
  | .kByte | .kChar | .kInt | .kLong | .kShort | .kFloat | .kDouble | .kComplexFloat
  | .kComplexDouble | .kHalf | .kBool | .kBFloat16 | .kComplexHalf | .kUInt16 | .kUInt32
  | .kUInt64 => true
  | _ => false

def copyKernel : Except String (List (Event α)) :=
  if dispatchCopy dst.dtype then gpuKernel contents src dst conversions dst.dtype id
  else .error (notImplemented dst.dtype)

def float8CopyKernelCuda : Except String (List (Event α)) :=
  match src.dtype with
  | .kFloat => gpuKernelNocast contents src dst .kFloat dst.dtype
      (conversions.convert dst.dtype .kFloat)
  | .kHalf => gpuKernelNocast contents src dst .kHalf dst.dtype (conversions.convert dst.dtype .kHalf)
  | .kBFloat16 => gpuKernelNocast contents src dst .kBFloat16 dst.dtype
      (conversions.convert dst.dtype .kBFloat16)
  | _ => gpuKernel contents src dst conversions dst.dtype id

def fastPath : Option Permute3DTransposeConfig :=
  (analyzePermute3dTranspose src dst).filter canLaunchPermute3dFastpath

def directCopyKernelCuda : Except String (List (Event α)) :=
  if dst.dtype.isQIntType then
    if dispatchQInt dst.dtype then gpuKernel contents src dst conversions dst.dtype id
    else .error (notImplemented dst.dtype)
  else if dst.dtype.isFloat8Type then float8CopyKernelCuda contents src dst conversions
  else if src.dtype = .kFloat ∧ (dst.dtype = .kBFloat16 ∨ dst.dtype = .kHalf) then
    gpuKernelNocast contents src dst .kFloat dst.dtype (conversions.convert dst.dtype .kFloat)
  else if (src.dtype = .kBFloat16 ∨ src.dtype = .kHalf) ∧ dst.dtype = .kFloat then
    gpuKernelNocast contents src dst src.dtype .kFloat (conversions.convert .kFloat src.dtype)
  else if src.dtype = .kFloat ∧ dst.dtype = .kShort then
    gpuKernelNocast contents src dst .kFloat .kShort fun value =>
      if conversions.isBelowShort value then conversions.ofShort 0
      else conversions.convert .kShort .kFloat value
  else if src.dtype = .kFloat8_e8m0fnu ∧
      (dst.dtype = .kFloat ∨ dst.dtype = .kBFloat16 ∨ dst.dtype = .kHalf) then
    gpuKernelNocast contents src dst .kFloat8_e8m0fnu dst.dtype fun value =>
      conversions.convert dst.dtype .kFloat (conversions.convert .kFloat .kFloat8_e8m0fnu value)
  else if dst.dtype.isBitsType then
    if dst.dtype ≠ src.dtype then
      .error ("copy_() does not support casting bits types to different bits types. Source dtype is " ++
        src.dtype.toString ++ "target dtype is " ++ dst.dtype.toString)
    else gpuKernelNocast contents src dst dst.dtype dst.dtype id
  else if (dst.dtype = .kBFloat16 ∨ dst.dtype = .kHalf) ∧ src.dim = 3 then
    match fastPath src dst with
    | some cfg => permute3dTransposeCopy contents src dst cfg
    | none => copyKernel contents src dst conversions
  else copyKernel contents src dst conversions

end Copies

end TorchSupa.Aten.DirectCopy
