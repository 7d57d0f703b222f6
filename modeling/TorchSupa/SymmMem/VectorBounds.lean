import TorchSupa.SymmMem.Multimem
import TorchSupa.SymmMem.ReduceScatter

/-!
The vector accesses of all operators on symmetric memory, byte by byte: whether they are aligned and
stay in the tensors, or in a rank's part of them. Storages begin at addresses that are multiples of
16, so that addresses are counted from there.
-/

namespace TorchSupa.SymmMem.Collective

open List Nat Option

section Accesses

def Op.accesses (operands : Operands) : Op → List VectorAccess
  | .load (.buffer _) index _ =>
    [{ first := operands.inputOffset * operands.elementSize
       bytes := operands.numel * operands.elementSize
       address := index * operands.elementSize
       width := operands.alignment }]
  | .load .localInput index _ =>
    [{ first := operands.localOffset * operands.elementSize
       bytes := operands.localNumel * operands.elementSize
       address := (operands.localOffset + index) * operands.elementSize
       width := operands.alignment }]
  | .store (.buffer _) index _ =>
    { first := operands.inputOffset * operands.elementSize
      bytes := operands.numel * operands.elementSize
      address := index * operands.elementSize
      width := operands.alignment : VectorAccess }.parts operands.storeAlignment
  | .store .output index _ =>
    { first := operands.outOffset * operands.elementSize
      bytes := operands.outNumel * operands.elementSize
      address := (operands.outOffset + index) * operands.elementSize
      width := operands.alignment : VectorAccess }.parts operands.storeAlignment

inductive Launched
  | vectors (program : Program)
  | multimem (kernel : MultimemKernel)

def Launched.Makes (group : Group) (rank : Nat) : Launched → VectorAccess → Prop
  | .vectors program, access => ∃ (site : Site) (op : Op), site.rank = rank ∧
      site.Does program group op ∧ access ∈ op.accesses program.operands
  | .multimem kernel, access => ∃ block thread turn,
      let launch := kernel.launch group.warpSize
      let i := GridStride.index launch.numBlocks launch.numThreads kernel.numelPerThread block thread turn
      block < launch.numBlocks ∧ thread < launch.numThreads ∧ i < kernel.bound ∧
        access ∈ kernel.body i

variable {operands : Operands}

theorem vectorIn_iff (bytes : operands.numelPerThread * operands.elementSize = operands.alignment)
    (positive : 0 < operands.elementSize) {first numel base width index : Nat} :
    operands.vectorIn first numel base width index = true ↔
      width ∣ (base + index) * operands.elementSize ∧
        VectorAccess.Inside ⟨(base + first) * operands.elementSize, numel * operands.elementSize,
          (base + index) * operands.elementSize, operands.alignment⟩ := by
  have low : (base + first) * operands.elementSize ≤ (base + index) * operands.elementSize ↔
      first ≤ index := by
    rw [Nat.mul_le_mul_right_iff positive]
    omega
  have high : (base + index) * operands.elementSize + operands.alignment ≤
      (base + first) * operands.elementSize + numel * operands.elementSize ↔
        index + operands.numelPerThread ≤ first + numel := by
    rw [← bytes, ← Nat.add_mul, ← Nat.add_mul, Nat.mul_le_mul_right_iff positive]
    omega
  simp only [Operands.vectorIn, VectorAccess.Inside, low, high, Bool.and_eq_true, decide_eq_true_eq,
    beq_iff_eq, dvd_iff_mod_eq_zero]
  exact and_comm

theorem fits_iff (vectored : operands.Vectored) (positive : 0 < operands.elementSize) (op : Op) :
    op.fits operands = true ↔ ∀ access ∈ op.accesses operands, access.Right := by
  have bytes := vectored.bytes
  have wide : 0 < operands.alignment := bytes ▸ mul_pos vectored.positive positive
  cases op with
  | load source index register =>
    cases source with
    | buffer rank =>
      rw [Op.fits, vectorIn_iff bytes positive, zero_add, zero_add]
      simp [Op.accesses, VectorAccess.Right]
    | localInput =>
      rw [Op.fits, vectorIn_iff bytes positive, add_zero]
      simp [Op.accesses, VectorAccess.Right]
  | store target index value =>
    cases target with
    | buffer rank =>
      rw [Op.fits, vectorIn_iff bytes positive, zero_add, zero_add, Op.accesses,
        VectorAccess.parts_right_iff wide vectored.stores]
    | output =>
      rw [Op.fits, vectorIn_iff bytes positive, add_zero, Op.accesses,
        VectorAccess.parts_right_iff wide vectored.stores]

theorem vectors_right_iff {group : Group} {rank : Nat} {program : Program}
    (vectored : program.operands.Vectored) (positive : 0 < program.operands.elementSize) :
    (∀ access, (Launched.vectors program).Makes group rank access → access.Right) ↔
      ∀ (site : Site) (op : Op), site.rank = rank → site.Does program group op →
        op.fits program.operands = true := by
  constructor
  · intro all site op own does
    rw [fits_iff vectored positive]
    exact fun access there => all access ⟨site, op, own, does, there⟩
  · rintro all access ⟨site, op, own, does, there⟩
    exact (fits_iff vectored positive op).mp (all site op own does) access there

end Accesses

section OneShot

variable {operands : Operands} {copies : Bool} {group : Group} {rank : Nat}

theorem oneShot_right_iff (small : group.worldSize ≤ maxSupaP2pDomainSize)
    (warp : 0 < group.warpSize) (member : rank < group.worldSize) (vectored : operands.Vectored)
    (some : 0 < operands.numel) (output : operands.outNumel = operands.numel)
    (local_ : copies = true → operands.localOffset * operands.elementSize % operands.alignment = 0)
    (few : copies = true → operands.localNumel ≤ operands.numel) :
    (∀ (site : Site) (op : Op), site.rank = rank →
        site.Does (oneShotAllReduceKernel operands copies group.worldSize) group op →
          op.fits operands = true) ↔
      operands.outOffset * operands.elementSize % operands.storeAlignment = 0 ∧
        (copies = true → operands.localNumel = operands.numel) := by
  constructor
  · intro all
    constructor
    · obtain ⟨block, thread, turn, place⟩ := exists_site
        (oneShotAllReduceKernel operands copies group.worldSize) small warp vectored.positive member
        one_lt_two (dvd_zero _) some
      obtain ⟨valid, same⟩ := place (loadOrder group.worldSize rank).length
      have fits := all ⟨rank, block, thread, 1, turn, (loadOrder group.worldSize rank).length⟩
        (.store .output 0 .reduced) rfl ⟨valid, by
          unfold Site.index
          rw [same]
          exact reduce_beyond 0⟩
      simp only [Op.fits, Operands.vectorIn, Bool.and_eq_true, beq_iff_eq, add_zero] at fits
      exact fits.2
    · intro copied
      have last : operands.numelPerThread ≤ operands.numel := le_of_dvd some vectored.numel
      have width := vectored.positive
      have bound : operands.numel - operands.numelPerThread <
          (oneShotAllReduceKernel operands copies group.worldSize).bound 0 := by
        change _ < if copies then operands.numel else 0
        rw [if_pos copied]
        omega
      obtain ⟨block, thread, turn, place⟩ := exists_site
        (oneShotAllReduceKernel operands copies group.worldSize) small warp vectored.positive member
        two_pos (dvd_sub vectored.numel (dvd_refl _)) bound
      obtain ⟨valid, same⟩ := place 0
      have fits := all ⟨rank, block, thread, 0, turn, 0⟩
        (.load .localInput (operands.numel - operands.numelPerThread) 0) rfl ⟨valid, by
          unfold Site.index
          rw [same]
          rfl⟩
      simp only [Op.fits, Operands.vectorIn, Bool.and_eq_true, decide_eq_true_eq] at fits
      have below := few copied
      omega
  · rintro ⟨aligned, whole⟩ site op _ does
    exact oneShot_fits vectored output aligned whole local_ does

end OneShot

section Scatter

variable {operands : Operands} {lastDimSize : Option Nat} {group : Group} {rank : Nat}

def scatterIndex (operands : Operands) (lastDimSize : Option Nat) (worldSize rank i : Nat) : Nat :=
  match lastDimSize with
  | some size => size / worldSize * rank + splitIndex worldSize size i
  | none => roundUp operands.numel (operands.numelPerThread * worldSize) / worldSize * rank + i

theorem reduce_load {worldSize index step peer : Nat} {rest : List Op}
    (found : (loadOrder worldSize rank)[step]? = some peer) :
    (loadAndReduce worldSize rank index ++ rest)[step]? = some (.load (.buffer peer) index peer) := by
  have length : (loadAndReduce worldSize rank index).length = (loadOrder worldSize rank).length :=
    length_map _
  have early := (List.getElem?_eq_some_iff.mp found).1
  rw [getElem?_append_left (by rwa [length]), loadAndReduce, getElem?_map, found]
  rfl

variable (lastDimSize) in
theorem scatter_right_iff (small : group.worldSize ≤ maxSupaP2pDomainSize)
    (warp : 0 < group.warpSize) (member : rank < group.worldSize) (vectored : operands.Vectored)
    (divides : group.worldSize * operands.numelPerThread ∣ operands.numel)
    (output : operands.outNumel = operands.numel / group.worldSize) (some : 0 < operands.numel) :
    (∀ (site : Site) (op : Op), site.rank = rank →
        site.Does (reduceScatterKernel operands lastDimSize group.worldSize) group op →
          op.fits operands = true) ↔
      operands.outOffset * operands.elementSize % operands.storeAlignment = 0 ∧
        ∀ i, operands.numelPerThread ∣ i → i < operands.numel / group.worldSize →
          (Op.load (.buffer rank) (operands.inputOffset +
            scatterIndex operands lastDimSize group.worldSize rank i) rank).fits operands = true := by
  have ranks := Nat.zero_lt_of_lt member
  have part : roundUp operands.numel (operands.numelPerThread * group.worldSize) / group.worldSize =
      operands.numel / group.worldSize := by
    rw [roundUp_of_dvd (Nat.mul_pos vectored.positive ranks) (by rwa [Nat.mul_comm])]
  have body (round i : Nat) : (reduceScatterKernel operands lastDimSize group.worldSize).body round
      rank i = loadAndReduce group.worldSize rank (operands.inputOffset +
        scatterIndex operands lastDimSize group.worldSize rank i) ++ [.store .output i .reduced] := rfl
  have multiples : operands.numelPerThread ∣ operands.numel / group.worldSize := by
    obtain ⟨count, same⟩ := divides
    rw [same, Nat.mul_assoc, Nat.mul_div_cancel_left _ ranks]
    exact Nat.dvd_mul_right _ _
  have bound (i : Nat) (below : i < operands.numel / group.worldSize) :
      i < (reduceScatterKernel operands lastDimSize group.worldSize).bound 1 :=
    below.trans_eq part.symm
  constructor
  · intro all
    constructor
    · have first : 0 < operands.numel / group.worldSize :=
        Nat.div_pos (Nat.le_of_dvd some ((Nat.dvd_mul_right _ _).trans divides)) ranks
      obtain ⟨block, thread, turn, place⟩ := exists_site
        (reduceScatterKernel operands lastDimSize group.worldSize) small warp vectored.positive member
        Nat.one_lt_two (Nat.dvd_zero _) (bound 0 first)
      obtain ⟨valid, same⟩ := place (loadOrder group.worldSize rank).length
      have fits := all ⟨rank, block, thread, 1, turn, (loadOrder group.worldSize rank).length⟩
        (.store .output 0 .reduced) rfl ⟨valid, by
          unfold Site.index
          rw [same, body]
          exact reduce_beyond 0⟩
      simp only [Op.fits, Operands.vectorIn, Bool.and_eq_true, beq_iff_eq, Nat.add_zero] at fits
      exact fits.2
    · intro i multiple below
      obtain ⟨block, thread, turn, place⟩ := exists_site
        (reduceScatterKernel operands lastDimSize group.worldSize) small warp vectored.positive member
        Nat.one_lt_two multiple (bound i below)
      obtain ⟨step, found⟩ := getElem?_of_mem (mem_loadOrder.mpr member :
        rank ∈ loadOrder group.worldSize rank)
      obtain ⟨valid, same⟩ := place step
      refine all ⟨rank, block, thread, 1, turn, step⟩ _ rfl ⟨valid, ?_⟩
      unfold Site.index
      rw [same, body]
      exact reduce_load found
  · rintro ⟨aligned, loads⟩ site op own does
    obtain ⟨valid, found⟩ := does
    have early := valid.bound
    have second : site.round = 1 := by
      rcases Nat.lt_succ_iff_lt_or_eq.mp valid.round with first | second
      · rw [Nat.lt_one_iff.mp first] at early
        exact absurd early (Nat.not_lt_zero _)
      · exact second
    have multiple : operands.numelPerThread ∣
        site.index (reduceScatterKernel operands lastDimSize group.worldSize) group := dvd_index
    rw [second] at early
    have below := early.trans_eq part
    rw [own, body] at found
    rcases turn_cases found with ⟨peer, _, rfl, _⟩ | ⟨_, member⟩
    · exact loads _ multiple below
    · obtain rfl := mem_singleton.mp member
      exact vectored.vectorIn multiple (Nat.zero_le _)
        ((GridStride.end_le_of_lt multiple multiples below).trans_eq
          (output.symm.trans (Nat.zero_add _).symm)) aligned vectored.stores

/-- What the kernel divides by is not what it should be, and is too small: vectors of later rows are
read beyond the input. -/
def WrapsInt32 (size worldSize : Nat) : Prop :=
  2 ^ 32 ≤ size / worldSize ∧ size / worldSize % 2 ^ 32 < 2 ^ 31

instance (size worldSize : Nat) : Decidable (WrapsInt32 size worldSize) :=
  inferInstanceAs (Decidable (_ ∧ _))

section Splits

variable {size rows columns worldSize width i : Nat}

theorem throughInt32_cases (columns : Nat) :
    columns % 2 ^ 32 < 2 ^ 31 ∧ throughInt32 columns = columns % 2 ^ 32 ∨
      2 ^ 31 ≤ columns % 2 ^ 32 ∧ 2 ^ 63 ≤ throughInt32 columns := by
  unfold throughInt32
  dsimp only
  split
  · next small => exact .inl ⟨small, rfl⟩
  · exact .inr ⟨by omega, by omega⟩

theorem split_inside (member : rank < worldSize) (positive : 0 < width) (multiples : width ∣ columns)
    (whole : size = columns * worldSize) (some : 0 < columns) (multiple : width ∣ i)
    (below : i < rows * columns) :
    width ∣ columns * rank + (i / columns * size + i % columns) ∧
      columns * rank + (i / columns * size + i % columns) + width ≤ rows * size := by
  have row : i / columns + 1 ≤ rows := Nat.div_lt_of_lt_mul (by rwa [Nat.mul_comm])
  have inside := (vector_in_row multiple multiples some positive).2.2
  have first := mul_le_mul_right size row
  have second : columns * (rank + 1) ≤ size := by
    rw [whole]
    exact mul_le_mul_left _ member
  rw [mul_add, mul_one] at second
  rw [add_mul, one_mul] at first
  refine ⟨Nat.dvd_add (multiples.mul_right _) (Nat.dvd_add ?_ ((dvd_mod_iff multiples).mpr
    multiple)), by omega⟩
  rw [whole]
  exact (multiples.mul_right _).mul_left _

theorem split_flat (member : rank < worldSize) (multiples : width ∣ columns)
    (whole : size = columns * worldSize) (some : 0 < rows) (multiple : width ∣ i)
    (below : i < rows * columns) :
    width ∣ columns * rank + i ∧ columns * rank + i + width ≤ rows * size := by
  have room := GridStride.end_le_of_lt multiple (multiples.mul_left rows) below
  obtain ⟨later, rfl⟩ : ∃ later, worldSize = rank + later + 1 := ⟨worldSize - rank - 1, by omega⟩
  obtain ⟨more, rfl⟩ : ∃ more, rows = more + 1 := ⟨rows - 1, by omega⟩
  have wide : columns * rank + (more + 1) * columns ≤ (more + 1) * size := by
    rw [whole]
    have split : (more + 1) * (columns * (rank + later + 1)) =
        columns * rank + (more + 1) * columns + (more * (columns * (rank + later)) +
          columns * later) := by
      ring
    omega
  exact ⟨Nat.dvd_add (multiples.mul_right _) multiple, by omega⟩

theorem split_beyond {divisor : Nat} (some : 0 < divisor) (wide : width ≤ columns - divisor)
    (less : divisor < columns) (rows_ : 0 < rows) :
    rows * size ≤ (rows * columns - width) / divisor * size := by
  refine Nat.mul_le_mul_right _ ((Nat.le_div_iff_mul_le some).mpr ?_)
  have gap : rows * divisor + rows * (columns - divisor) = rows * columns := by
    rw [← Nat.mul_add, Nat.add_sub_cancel' (Nat.le_of_lt less)]
  have enough : columns - divisor ≤ rows * (columns - divisor) := Nat.le_mul_of_pos_left _ rows_
  omega

theorem split_right_iff (member : rank < worldSize) (positive : 0 < width) (narrow : width ≤ 16)
    (multiples : width ∣ columns) (whole : size = columns * worldSize) (some : 0 < rows * columns)
    (representable : rows * columns < 2 ^ 63) :
    (throughInt32 columns ≠ 0 ∧ ∀ i, width ∣ i → i < rows * columns →
      width ∣ columns * rank + splitIndex worldSize size i ∧
        columns * rank + splitIndex worldSize size i + width ≤ rows * size) ↔
      ¬ WrapsInt32 size worldSize := by
  have rows_ : 0 < rows := Nat.pos_of_mul_pos_right some
  have columns_ : 0 < columns := Nat.pos_of_mul_pos_left some
  have part : size / worldSize = columns := by
    rw [whole, Nat.mul_div_cancel _ (Nat.zero_lt_of_lt member)]
  unfold WrapsInt32 splitIndex
  rw [part]
  dsimp only
  rcases throughInt32_cases columns with ⟨low, same⟩ | ⟨high, beyond⟩
  · rw [same]
    by_cases fits : columns < 2 ^ 32
    · rw [Nat.mod_eq_of_lt fits]
      constructor
      · intro _ wraps
        omega
      · exact fun _ => ⟨by omega, fun i multiple below =>
          split_inside member positive multiples whole columns_ multiple below⟩
    · constructor
      · rintro ⟨divisor, all⟩ _
        have last := (all (rows * columns - width)
          (Nat.dvd_sub (multiples.mul_left _) (Nat.dvd_refl _)) (by omega)).2
        have far : rows * size ≤ (rows * columns - width) / (columns % 2 ^ 32) * size :=
          split_beyond (by omega) (by omega) (by omega) rows_
        omega
      · intro wraps
        exact absurd ⟨by omega, low⟩ wraps
  · constructor
    · intro _ wraps
      omega
    · refine fun _ => ⟨by omega, fun i multiple below => ?_⟩
      rw [Nat.div_eq_of_lt (by omega), Nat.mod_eq_of_lt (by omega), Nat.zero_mul, Nat.zero_add]
      exact split_flat member multiples whole rows_ multiple below

end Splits

end Scatter

section Multimem

variable {mira : Bool} {symmMem : Handle} {group : Group} {input out : Tensor} {alignment : Nat}

theorem multimem_right_iff {rank : Nat} {kernel : MultimemKernel}
    (launches : 0 < (kernel.launch group.warpSize).numThreads ∧
      0 < (kernel.launch group.warpSize).numBlocks) :
    (∀ access, (Launched.multimem kernel).Makes group rank access → access.Right) ↔
      ∀ i, kernel.numelPerThread ∣ i → i < kernel.bound → ∀ access ∈ kernel.body i, access.Right := by
  constructor
  · intro all i multiple below access there
    obtain ⟨block, thread, turn, few, numbered, rfl⟩ :=
      GridStride.exists_index launches.2 launches.1 multiple
    exact all access ⟨block, thread, turn, few, numbered, below, there⟩
  · rintro all access ⟨block, thread, turn, _, _, below, there⟩
    exact all _ GridStride.width_dvd_index below access there

theorem vectorAt_inside (vectors : Vectors input alignment) (out : Tensor)
    (numel : out.numel = input.numel) {index : Nat} (multiple : alignment / input.elementSize ∣ index)
    (below : index < input.numel) : (out.vectorAt input.elementSize alignment index).Inside := by
  have vectored := vectors.vectored false none none
  have room : index + alignment / input.elementSize ≤ input.numel :=
    GridStride.end_le_of_lt multiple vectored.numel below
  have bytes : alignment / input.elementSize * input.elementSize = alignment := vectored.bytes
  have wide := mul_le_mul_right input.elementSize room
  rw [add_mul, bytes] at wide
  unfold VectorAccess.Inside Tensor.vectorAt
  dsimp only
  rw [numel, add_mul]
  omega

theorem vectorAt_aligned (vectors : Vectors input alignment) {width : Nat} (coarse : width ∣ alignment)
    (out : Tensor) {index : Nat} (multiple : alignment / input.elementSize ∣ index) :
    width ∣ (out.vectorAt input.elementSize alignment index).address ↔
      width ∣ out.storageOffset * input.elementSize := by
  have bytes : alignment / input.elementSize * input.elementSize = alignment :=
    (vectors.vectored false none none).bytes
  obtain ⟨place, rfl⟩ := multiple
  have vector : width ∣ alignment / input.elementSize * place * input.elementSize := by
    rw [mul_right_comm, bytes]
    exact coarse.mul_right _
  unfold Tensor.vectorAt
  rw [Nat.add_mul]
  exact (Nat.dvd_add_iff_left vector).symm

theorem multimemAllReduce_right (vectors : Vectors input alignment) (ranks : 0 < symmMem.worldSize)
    {i : Nat} (multiple : alignment / input.elementSize ∣ i) :
    ∀ access ∈ (multimemAllReduceKernel alignment symmMem input).body i, access.Right := by
  intro access there
  unfold multimemAllReduceKernel at there
  dsimp only at there
  split at there
  · cases there
  · next below =>
      have part : alignment / input.elementSize ∣
          roundUp input.numel (alignment * symmMem.worldSize) / symmMem.worldSize :=
        dvd_inplacePerRank (vectors.vectored false none none) ranks
      have place := Nat.dvd_add (part.mul_right symmMem.rank) multiple
      have right : (input.vectorAt input.elementSize alignment
          (roundUp input.numel (alignment * symmMem.worldSize) / symmMem.worldSize * symmMem.rank +
            i)).Right :=
        ⟨(vectorAt_aligned vectors (Nat.dvd_refl _) input place).mpr vectors.offset,
          vectorAt_inside vectors input rfl place (Nat.lt_of_not_le below)⟩
      rcases mem_cons.mp there with rfl | there
      · exact right
      · rw [mem_singleton.mp there]
        exact right

theorem storeWidth_dvd (mira : Bool) (powers : alignment = 16 ∨ alignment = 8 ∨ alignment = 4) :
    storeWidth mira alignment ∣ alignment := by
  unfold storeWidth
  split
  · exact dvd_refl _
  · rcases powers with rfl | rfl | rfl <;> decide

theorem multimemOneShotReduce_right_iff (vectors : Vectors input alignment) {root : Nat}
    (sizes : symmMem.rank = root → out.numel = input.numel) :
    (∀ i, alignment / input.elementSize ∣ i →
      i < (multimemOneShotReduceKernel mira alignment symmMem input out root).bound →
      ∀ access ∈ (multimemOneShotReduceKernel mira alignment symmMem input out root).body i,
        access.Right) ↔
      (symmMem.rank = root → input.numel = 0 ∨
        storeWidth mira alignment ∣ out.storageOffset * input.elementSize) := by
  have wide : 0 < alignment := by
    rcases vectors.powers with rfl | rfl | rfl <;> decide
  have coarse := storeWidth_dvd mira vectors.powers
  unfold multimemOneShotReduceKernel
  by_cases own : symmMem.rank = root
  · have loads {i : Nat} (multiple : alignment / input.elementSize ∣ i) (below : i < input.numel) :
        (input.vectorAt input.elementSize alignment i).Right :=
      ⟨(vectorAt_aligned vectors (dvd_refl _) input multiple).mpr vectors.offset,
        vectorAt_inside vectors input rfl multiple below⟩
    have stores {i : Nat} (multiple : alignment / input.elementSize ∣ i) (below : i < input.numel) :
        (∀ part ∈ (out.vectorAt input.elementSize alignment i).parts (storeWidth mira alignment),
          part.Right) ↔ storeWidth mira alignment ∣ out.storageOffset * input.elementSize := by
      rw [VectorAccess.parts_right_iff wide coarse, vectorAt_aligned vectors coarse out multiple]
      exact and_iff_left (vectorAt_inside vectors out (sizes own) multiple below)
    simp only [own, if_true, forall_mem_cons, forall_const]
    constructor
    · intro all
      by_cases empty : input.numel = 0
      · exact .inl empty
      · have some := pos_of_ne_zero empty
        exact .inr ((stores (dvd_zero _) some).mp (all 0 (dvd_zero _) some).2)
    · rintro (empty | aligned) i multiple below
      · omega
      · exact ⟨loads multiple below, (stores multiple below).mpr aligned⟩
  · simp [own]

theorem multimemAllGather_right_iff (wide : 0 < alignment)
    (offset : alignment ∣ out.storageOffset * out.elementSize)
    (numel : out.numel = input.numel * symmMem.worldSize) (ranks : 0 < symmMem.worldSize) :
    (∀ i, alignment ∣ i → i < (multimemAllGatherKernel alignment symmMem input out).bound →
      ∀ access ∈ (multimemAllGatherKernel alignment symmMem input out).body i, access.Right) ↔
      input.numel * input.elementSize = 0 ∨ alignment ∣ input.storageOffset * input.elementSize ∧
        alignment ∣ input.numel * input.elementSize ∧
        (input.elementSize = out.elementSize ∨
          symmMem.rank = 0 ∧ input.elementSize ≤ out.elementSize) := by
  have sliced : out.slice symmMem.worldSize = input.numel * out.elementSize := by
    unfold Tensor.slice
    rw [numel, Nat.mul_right_comm, Nat.mul_div_cancel _ ranks]
  have both : (∀ i, alignment ∣ i →
      i < (multimemAllGatherKernel alignment symmMem input out).bound →
      ∀ access ∈ (multimemAllGatherKernel alignment symmMem input out).body i, access.Right) ↔
      (∀ i, alignment ∣ i → i < input.numel * input.elementSize →
        VectorAccess.Right ⟨input.storageOffset * input.elementSize, input.numel * input.elementSize,
          input.storageOffset * input.elementSize + i, alignment⟩) ∧
      ∀ i, alignment ∣ i → i < input.numel * input.elementSize →
        VectorAccess.Right ⟨out.storageOffset * out.elementSize +
            out.slice symmMem.worldSize * symmMem.rank, out.slice symmMem.worldSize,
          out.storageOffset * out.elementSize + input.numel * input.elementSize * symmMem.rank + i,
          alignment⟩ := by
    simp only [multimemAllGatherKernel, forall_mem_cons, not_mem_nil, false_implies,
      implies_true, and_true, Nat.add_assoc, imp_and, forall_and]
  rw [both, VectorAccess.walk_right_iff wide, VectorAccess.walk_right_iff wide, sliced]
  by_cases empty : input.numel * input.elementSize = 0
  · simp [empty]
  · simp only [empty, false_or, Nat.le_refl, true_and]
    have some : 0 < input.numel := Nat.pos_of_mul_pos_right (Nat.pos_of_ne_zero empty)
    have narrower : input.numel * input.elementSize ≤ input.numel * out.elementSize ↔
        input.elementSize ≤ out.elementSize := Nat.mul_le_mul_left_iff some
    have wider : input.numel * out.elementSize ≤ input.numel * input.elementSize ↔
        out.elementSize ≤ input.elementSize := Nat.mul_le_mul_left_iff some
    clear both sliced
    generalize input.numel * input.elementSize = bytesPerRank at *
    generalize input.numel * out.elementSize = slice at *
    have rounded (multiple : alignment ∣ bytesPerRank) :
        (bytesPerRank + alignment - 1) / alignment * alignment = bytesPerRank :=
      roundUp_of_dvd wide multiple
    have covers : bytesPerRank ≤ (bytesPerRank + alignment - 1) / alignment * alignment :=
      le_roundUp wide
    constructor
    · rintro ⟨⟨aligned, whole⟩, _, low, high⟩
      have multiple : alignment ∣ bytesPerRank := by
        have same : (bytesPerRank + alignment - 1) / alignment * alignment = bytesPerRank := by omega
        exact Dvd.intro_left _ same
      rw [rounded multiple] at high
      refine ⟨aligned, multiple, ?_⟩
      have ends : bytesPerRank * (symmMem.rank + 1) ≤ slice * (symmMem.rank + 1) := by
        rw [Nat.mul_succ, Nat.mul_succ]
        omega
      have less := narrower.mp (Nat.le_of_mul_le_mul_right ends (Nat.succ_pos _))
      rcases Nat.eq_zero_or_pos symmMem.rank with first | later
      · exact .inr ⟨first, less⟩
      · have starts : slice * symmMem.rank ≤ bytesPerRank * symmMem.rank := by omega
        exact .inl (Nat.le_antisymm less (wider.mp (Nat.le_of_mul_le_mul_right starts later)))
    · rintro ⟨aligned, multiple, sizes⟩
      rw [rounded multiple]
      refine ⟨⟨aligned, Nat.le_refl _⟩, Nat.dvd_add offset (multiple.mul_right _), ?_⟩
      rcases sizes with same | ⟨first, less⟩
      · have equal : slice = bytesPerRank :=
          Nat.le_antisymm (wider.mpr (Nat.le_of_eq same.symm)) (narrower.mpr (Nat.le_of_eq same))
        rw [equal]
        exact ⟨Nat.le_refl _, Nat.le_refl _⟩
      · have below := narrower.mpr less
        rw [first, Nat.mul_zero, Nat.mul_zero]
        omega

end Multimem

section Calls

inductive VectorCall
  | oneShotAllReduce (input : Tensor) (localInput : Option Tensor) (reduceOp : String) (out : Tensor)
  | twoShotAllReduce (input : Tensor) (output : Option Tensor) (reduceOp : String)
  | reduceScatterOut (input : Tensor) (splitLastDim : Bool) (output : Tensor)
  | multimemAllReduce (input : Tensor) (reduceOp : String)
  | multimemOneShotReduceOut (input : Tensor) (reduceOp : String) (root : Int) (out : Tensor)
  | multimemAllGatherOut (input out : Tensor)
deriving DecidableEq, Repr

def VectorCall.input : VectorCall → Tensor
  | .oneShotAllReduce input .. => input
  | .twoShotAllReduce input .. => input
  | .reduceScatterOut input .. => input
  | .multimemAllReduce input _ => input
  | .multimemOneShotReduceOut input .. => input
  | .multimemAllGatherOut input _ => input

def VectorCall.launch (mira : Bool) (symmMem : Handle) : VectorCall → Except String (Option Launched)
  | .oneShotAllReduce input localInput reduceOp out => do
      let program ← oneShotAllReduceOutImpl mira (some symmMem.worldSize) input localInput reduceOp out
      return program.map .vectors
  | .twoShotAllReduce input output reduceOp => do
      let program ← twoShotAllReduceImpl mira (some symmMem.worldSize) input output reduceOp
      return program.map .vectors
  | .reduceScatterOut input splitLastDim output => do
      let program ← Collective.reduceScatterOut mira (some symmMem.worldSize) input splitLastDim output
      return program.map .vectors
  | .multimemAllReduce input reduceOp => do
      let kernel ← Collective.multimemAllReduce (some symmMem) input reduceOp
      return some (.multimem kernel)
  | .multimemOneShotReduceOut input reduceOp root out => do
      let kernel ← Collective.multimemOneShotReduceOut mira (some symmMem) input reduceOp root out
      return some (.multimem kernel)
  | .multimemAllGatherOut input out => do
      let kernel ← Collective.multimemAllGatherOut (some symmMem) input out
      return some (.multimem kernel)

def VectorCall.Divides (worldSize : Nat) : VectorCall → Prop
  | .reduceScatterOut input true _ => throughInt32 (input.lastDim / worldSize) ≠ 0
  | _ => True

def StoresAligned (mira : Bool) (input out : Tensor) : Prop :=
  storeWidth mira (vectorWidth input) ∣ out.storageOffset * input.elementSize

instance (mira : Bool) (input out : Tensor) : Decidable (StoresAligned mira input out) :=
  inferInstanceAs (Decidable (_ ∣ _))

def VectorCall.Meets (mira : Bool) (symmMem : Handle) : VectorCall → Prop
  | .oneShotAllReduce input localInput _ out =>
    StoresAligned mira input out ∧
      ∀ tensor, localInput = some tensor → tensor.numel = 0 ∨ tensor.numel = input.numel
  | .twoShotAllReduce .. => True
  | .reduceScatterOut input splitLastDim output =>
    StoresAligned mira input output ∧
      (splitLastDim = true → ¬ WrapsInt32 input.lastDim symmMem.worldSize)
  | .multimemAllReduce .. => True
  | .multimemOneShotReduceOut input _ root out =>
    (symmMem.rank : Int) = root → input.numel = 0 ∨ StoresAligned mira input out
  | .multimemAllGatherOut input out =>
    input.numel * input.elementSize = 0 ∨
      vectorWidth out ∣ input.storageOffset * input.elementSize ∧
      vectorWidth out ∣ input.numel * input.elementSize ∧
      (input.elementSize = out.elementSize ∨
        symmMem.rank = 0 ∧ input.elementSize ≤ out.elementSize)

variable {α β : Type} {launched : β}

variable {wrap : α → β} {alignment worldSize : Nat} {operands : Operands} {splitLastDim : Bool}

theorem map_launched {first : Except String (Option α)} (accepted : (do
      let program ← first
      return program.map wrap) = .ok (some launched)) :
    ∃ program, first = .ok (some program) ∧ launched = wrap program := by
  obtain ⟨value, done, same⟩ := bind_ok.mp accepted
  obtain ⟨program, rfl, rfl⟩ := map_eq_some_iff.mp (Except.ok.inj same)
  exact ⟨program, done, rfl⟩

theorem some_launched {first : Except String α} (accepted : (do
      let kernel ← first
      return some (wrap kernel)) = .ok (some launched)) :
    ∃ kernel, first = .ok kernel ∧ launched = wrap kernel := by
  obtain ⟨kernel, done, same⟩ := bind_ok.mp accepted
  exact ⟨kernel, done, (some.inj (Except.ok.inj same)).symm⟩

variable {mira : Bool} {symmMem : Handle} {group : Group} {input out : Tensor}

theorem Vectors.element_pos (vectors : Vectors input alignment) : 0 < input.elementSize := by
  rcases vectors.element with size | size <;> omega

theorem Widest.stores_aligned (vectors : Widest input alignment)
    (localInput : Option Tensor) : out.storageOffset * input.elementSize %
        (operandsOf mira input alignment localInput (some out)).storeAlignment = 0 ↔
      StoresAligned mira input out := by
  rw [← dvd_iff_mod_eq_zero, vectors.widest]
  rfl

theorem load_fits_iff (vectored : operands.Vectored)
    (positive : 0 < operands.elementSize) (peer place register : Nat) :
    (Op.load (.buffer peer) (operands.inputOffset + place) register).fits operands = true ↔
      operands.numelPerThread ∣ place ∧ place + operands.numelPerThread ≤ operands.numel := by
  have aligned : (operands.inputOffset + place) * operands.elementSize % operands.alignment = 0 ↔
      operands.numelPerThread ∣ place := by
    rw [← vectored.bytes, ← Nat.dvd_iff_mod_eq_zero, Nat.mul_dvd_mul_iff_right positive]
    exact Nat.dvd_add_right vectored.offset
  simp only [Op.fits, Operands.vectorIn, Bool.and_eq_true, decide_eq_true_eq, beq_iff_eq, zero_add,
    aligned]
  omega

variable {rank : Nat} {program : Program} {kernel : MultimemKernel} {reduceOp : String}

theorem oneShotCall_right_iff {localInput : Option Tensor}
    (small : group.worldSize ≤ maxSupaP2pDomainSize) (warp : 0 < group.warpSize)
    (member : rank < group.worldSize)
    (accepted : oneShotAllReduceOutImpl mira (some group.worldSize) input localInput reduceOp out =
      .ok (some program)) :
    (∀ access, (Launched.vectors program).Makes group rank access → access.Right) ↔
      StoresAligned mira input out ∧
        ∀ tensor, localInput = some tensor → tensor.numel = 0 ∨ tensor.numel = input.numel := by
  obtain ⟨alignment, vectors, some_, sizes, locals, rfl⟩ := oneShot_accepted accepted
  have vectored := vectors.vectored mira localInput (some out)
  have copied (copies : (operandsOf mira input alignment localInput (some out)).localNumel != 0) :
      ∃ tensor, localInput = some tensor := by
    cases localInput with
    | none => cases copies
    | some tensor => exact ⟨tensor, rfl⟩
  have right := oneShot_right_iff small warp member vectored some_ (congrArg prod sizes)
    (fun copies => by
      obtain ⟨tensor, rfl⟩ := copied copies
      obtain ⟨facts, size, _⟩ := locals tensor rfl
      have offset := facts.offset
      rw [size] at offset
      exact mod_eq_zero_of_dvd offset)
    (fun copies => by
      obtain ⟨tensor, rfl⟩ := copied copies
      exact (locals tensor rfl).2.2)
  refine (vectors_right_iff vectored vectors.element_pos).trans (right.trans ?_)
  refine and_congr (vectors.stores_aligned localInput) ?_
  cases localInput with
  | none => simp [operandsOf]
  | some tensor =>
    simp only [operandsOf, map_some, getD_some, bne_iff_ne, some.injEq, forall_eq']
    omega

theorem twoShotCall_right {output : Option Tensor}
    (accepted : twoShotAllReduceImpl mira (some group.worldSize) input output reduceOp =
      .ok (some program)) :
    ∀ access, (Launched.vectors program).Makes group rank access → access.Right := by
  cases output with
  | none =>
    obtain ⟨alignment, vectors, rfl⟩ := inplace_accepted accepted
    have vectored := vectors.vectored mira none none
    rw [vectors_right_iff vectored vectors.element_pos]
    exact fun _ _ _ does =>
      (inplace_sound vectored (fun _ _ => (0 : Nat)) fun _ _ => 0).fits _ _ does
  | some output =>
    obtain ⟨alignment, vectors, sizes, offset, _, rfl⟩ := twoShot_accepted accepted
    have vectored := vectors.vectored mira none (some output)
    have facts : OutputOperands (operandsOf mira input alignment none (some output)) input.numel :=
      ⟨vectored, congrArg prod sizes, mod_eq_zero_of_dvd (vectored.stores.trans offset)⟩
    rw [vectors_right_iff vectored vectors.element_pos]
    exact fun _ _ _ does => (gather_sound facts (fun _ _ => (0 : Nat)) fun _ _ => 0).fits _ _ does

theorem slice_right {numel width i : Nat} (member : rank < worldSize)
    (divides : worldSize * width ∣ numel) (multiple : width ∣ i) (below : i < numel / worldSize) :
    width ∣ numel / worldSize * rank + i ∧ numel / worldSize * rank + i + width ≤ numel := by
  obtain ⟨count, rfl⟩ := divides
  rw [Nat.mul_assoc, Nat.mul_div_cancel_left _ (Nat.zero_lt_of_lt member)] at *
  have part : width ∣ width * count := Nat.dvd_mul_right _ _
  have room := GridStride.end_le_of_lt multiple part below
  have whole : width * count * (rank + 1) ≤ width * count * worldSize := mul_le_mul_left _ member
  rw [mul_succ, mul_comm _ worldSize] at whole
  exact ⟨Nat.dvd_add (part.mul_right _) multiple, by omega⟩

theorem scatterIndex_right_iff (member : rank < worldSize)
    (positive : 0 < operands.numelPerThread) (narrow : operands.numelPerThread ≤ 16)
    (divides : worldSize * operands.numelPerThread ∣ operands.numel) (some_ : 0 < operands.numel)
    (representable : operands.numel < 2 ^ 63) {size : Nat}
    (last : splitLastDim = true → worldSize * operands.numelPerThread ∣ size ∧
      ∃ rows, operands.numel = rows * size) :
    ((splitLastDim = true → throughInt32 (size / worldSize) ≠ 0) ∧
      ∀ i, operands.numelPerThread ∣ i → i < operands.numel / worldSize →
        let place := scatterIndex operands (if splitLastDim then some size else none) worldSize rank i
        operands.numelPerThread ∣ place ∧ place + operands.numelPerThread ≤ operands.numel) ↔
      (splitLastDim = true → ¬ WrapsInt32 size worldSize) := by
  have ranks := Nat.zero_lt_of_lt member
  cases splitLastDim with
  | false =>
    have part : roundUp operands.numel (operands.numelPerThread * worldSize) / worldSize =
        operands.numel / worldSize := by
      rw [roundUp_of_dvd (Nat.mul_pos positive ranks) (by rwa [Nat.mul_comm])]
    simp only [Bool.false_eq_true, false_implies, true_and, if_false, scatterIndex, part, iff_true]
    exact fun i multiple below => slice_right member divides multiple below
  | true =>
    obtain ⟨⟨count, same⟩, rows, numel⟩ := last rfl
    have columns : size / worldSize = operands.numelPerThread * count := by
      rw [same, Nat.mul_assoc, Nat.mul_div_cancel_left _ ranks]
    have whole : size = size / worldSize * worldSize := by
      rw [columns, same]
      ring
    have part : operands.numel / worldSize = rows * (size / worldSize) := by
      rw [numel, Nat.mul_div_assoc _ ⟨_, same.trans (Nat.mul_assoc _ _ _)⟩]
    have some : 0 < operands.numel / worldSize :=
      Nat.div_pos (Nat.le_of_dvd some_ ((Nat.dvd_mul_right _ _).trans divides)) ranks
    have small := (Nat.div_le_self operands.numel worldSize).trans_lt representable
    rw [part] at some small
    have right := split_right_iff member positive narrow (columns ▸ Nat.dvd_mul_right _ _) whole
      some small
    simp only [forall_const, if_true, scatterIndex, part]
    rw [numel]
    exact right

theorem scatterCall_right_iff (small : group.worldSize ≤ maxSupaP2pDomainSize)
    (warp : 0 < group.warpSize) (member : rank < group.worldSize)
    (representable : input.numel < 2 ^ 63)
    (accepted : Collective.reduceScatterOut mira (some group.worldSize) input splitLastDim out =
      .ok (some program)) :
    ((VectorCall.reduceScatterOut input splitLastDim out).Divides group.worldSize ∧
      ∀ access, (Launched.vectors program).Makes group rank access → access.Right) ↔
      StoresAligned mira input out ∧
        (splitLastDim = true → ¬ WrapsInt32 input.lastDim group.worldSize) := by
  obtain ⟨alignment, vectors, some_, _, scatters, rfl⟩ := reduceScatter_accepted accepted
  have vectored := vectors.vectored mira none (some out)
  have positive := vectors.element_pos
  have narrow : alignment / input.elementSize ≤ 16 := by
    refine (div_le_self _ _).trans ?_
    rcases vectors.powers with rfl | rfl | rfl <;> decide
  have right := scatter_right_iff (if splitLastDim then some input.lastDim else none) small warp
    member vectored scatters.divides scatters.output some_
  have all := (vectors_right_iff vectored positive).trans right
  simp only [load_fits_iff vectored positive] at all
  have divides : (VectorCall.reduceScatterOut input splitLastDim out).Divides group.worldSize ↔
      (splitLastDim = true → throughInt32 (input.lastDim / group.worldSize) ≠ 0) := by
    cases splitLastDim <;> simp [VectorCall.Divides]
  refine (and_congr divides all).trans (and_left_comm.trans (and_congr
    (vectors.stores_aligned none) ?_))
  exact scatterIndex_right_iff member vectored.positive narrow scatters.divides some_ representable
    scatters.last

theorem multimemCall_right_iff (small : group.worldSize ≤ maxSupaP2pDomainSize)
    (warp : 0 < group.warpSize) (member : rank < group.worldSize) {numel elementSize splits : Nat}
    (positive : 0 < alignment / elementSize)
    (launch : kernel.launch = initElementwiseLaunchConfig numel elementSize alignment splits 8 1024
      group.worldSize) :
    (∀ access, (Launched.multimem kernel).Makes group rank access → access.Right) ↔
      ∀ i, kernel.numelPerThread ∣ i → i < kernel.bound → ∀ access ∈ kernel.body i, access.Right := by
  apply multimem_right_iff
  rw [launch]
  exact config_pos (zero_lt_of_lt member) (small.trans (by decide)) warp (by decide) positive

end Calls

end TorchSupa.SymmMem.Collective
