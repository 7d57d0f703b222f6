import TorchSupa.Logic.MachineIntegers
import Mathlib.Algebra.BigOperators.Group.List.Basic
import Mathlib.Algebra.Order.BigOperators.GroupWithZero.List
import Mathlib.Algebra.Order.Ring.Int

/-!
`get_buffer` and `get_signal_pad`: the size checks in the integer types of the code, and where the
bytes of a returned tensor lie.
-/

namespace TorchSupa.SymmMem.Views

open MachineIntegers

structure ForBlob where
  makes : List Int → Int → Int → Bool
  nonnegative : ∀ sizes storageOffset elementSize, makes sizes storageOffset elementSize = true →
    ∀ size ∈ sizes, 0 ≤ size

structure PeerAllocInfo where
  bufferSize : Int
  signalPadSize : Int
  bufferFits : bufferSize < 18446744073709551616
  signalPadFits : 0 ≤ signalPadSize ∧ signalPadSize < 18446744073709551616

structure View where
  displacement : Int
  sizes : List Int
  elementSize : Int
deriving DecidableEq, Repr

/-- `std::accumulate(sizes.begin(), sizes.end(), 1, std::multiplies<int>())` -/
def numelInt (sizes : List Int) : Int :=
  sizes.foldl (fun numel size => int32 (numel * int32 size)) 1

def numelSize (sizes : List Int) : Int :=
  sizes.foldl (fun numel size => uint64 (numel * uint64 size)) 1

def getBuffer (blob : ForBlob) (pai : PeerAllocInfo) (sizes : List Int) (elementSize : Int)
    (storageOffset : Int) : Option View :=
  let reqSize := uint64 ((numelInt sizes + storageOffset) * elementSize)
  if reqSize ≤ pai.bufferSize ∧ blob.makes sizes storageOffset elementSize = true then
    some ⟨uint64 (storageOffset * elementSize), sizes, elementSize⟩
  else none

def signalPadShape (pai : PeerAllocInfo) (sizes : List Int) (elementSize : Int) : List Int :=
  if sizes ≠ [] then sizes else [pai.signalPadSize / elementSize]

def getSignalPad (blob : ForBlob) (pai : PeerAllocInfo) (sizes : List Int) (elementSize : Int)
    (storageOffset : Int) : Option View :=
  let shape := signalPadShape pai sizes elementSize
  let reqSize := uint64 ((numelSize shape + storageOffset) * elementSize)
  if reqSize ≤ pai.signalPadSize ∧ blob.makes shape 0 elementSize = true then
    some ⟨uint64 (storageOffset * elementSize), shape, elementSize⟩
  else none

def View.numBytes (view : View) : Int := view.sizes.prod * view.elementSize

def View.Inside (view : View) (size : Int) : Prop :=
  ∀ byte, 0 ≤ byte → byte < view.numBytes → uint64 (view.displacement + byte) < size

def lastByte (sizes : List Int) (elementSize storageOffset : Int) : Int :=
  uint64 (storageOffset * elementSize) + sizes.prod * elementSize

section Sizes

variable {sizes : List Int}

open List

theorem foldl_int32 (sizes : List Int) (start : Int) :
    sizes.foldl (fun numel size => int32 (numel * int32 size)) (int32 start) =
      int32 (start * sizes.prod) := by
  induction sizes generalizing start with
  | nil => simp
  | cons size rest ih =>
    have narrow : int32 (int32 start * int32 size) = int32 (start * size) := by
      rw [int32_mul, Int.mul_comm start, int32_mul, Int.mul_comm]
    simp only [foldl_cons, narrow, ih, prod_cons, Int.mul_assoc]

theorem numelInt_eq (sizes : List Int) : numelInt sizes = int32 sizes.prod := by
  have folded := foldl_int32 sizes 1
  rw [int32_of_fits (by omega) (by omega), Int.one_mul] at folded
  exact folded

theorem foldl_uint64 (sizes : List Int) (start : Int) :
    sizes.foldl (fun numel size => uint64 (numel * uint64 size)) (uint64 start) =
      uint64 (start * sizes.prod) := by
  induction sizes generalizing start with
  | nil => simp
  | cons size rest ih =>
    have narrow : uint64 (uint64 start * uint64 size) = uint64 (start * size) := by
      rw [uint64_mul, Int.mul_comm start, uint64_mul, Int.mul_comm]
    simp only [foldl_cons, narrow, ih, prod_cons, Int.mul_assoc]

theorem numelSize_eq (sizes : List Int) : numelSize sizes = uint64 sizes.prod := by
  have folded := foldl_uint64 sizes 1
  rw [uint64_of_fits (by omega) (by omega), Int.one_mul] at folded
  exact folded

end Sizes

section Inside

variable {blob : ForBlob} {pai : PeerAllocInfo} {sizes : List Int}
  {elementSize storageOffset size : Int} {view : View}

theorem inside_iff (view : View) (start : 0 ≤ view.displacement)
    (upper : view.displacement < 18446744073709551616) (fits : size < 18446744073709551616)
    (count : 0 ≤ view.numBytes) :
    view.Inside size ↔ view.numBytes = 0 ∨ view.displacement + view.numBytes ≤ size := by
  constructor
  · intro inside
    by_contra leaves
    have first := inside 0 (Int.le_refl 0) (by omega)
    rw [uint64_of_fits (by omega) (by omega)] at first
    have last := inside (size - view.displacement) (by omega) (by omega)
    rw [uint64_of_fits (by omega) (by omega)] at last
    omega
  · rintro (empty | within) byte lower below
    · omega
    · rw [uint64_of_fits (by omega) (by omega)]
      omega

theorem prod_nonneg_of_makes (made : blob.makes sizes storageOffset elementSize = true) :
    0 ≤ sizes.prod :=
  List.prod_nonneg fun size there => blob.nonnegative _ _ _ made size there

theorem uint64_request (sizes : List Int) (numel turns : Int)
    (kept : sizes.prod = numel + 18446744073709551616 * turns) :
    uint64 ((numel + storageOffset) * elementSize) =
      uint64 (lastByte sizes elementSize storageOffset) := by
  obtain ⟨wraps, same⟩ := uint64_spec (storageOffset * elementSize)
  unfold lastByte
  generalize uint64 (storageOffset * elementSize) = displacement at same
  have spread : displacement + sizes.prod * elementSize = (numel + storageOffset) * elementSize +
      18446744073709551616 * (turns * elementSize - wraps) := by
    rw [kept, Int.add_mul, Int.add_mul, same]
    ring
  rw [spread]
  unfold uint64
  omega

theorem numBytes_eq_zero (positive : 0 < elementSize) :
    sizes.prod * elementSize = 0 ↔ sizes.prod = 0 := by
  rw [Int.mul_eq_zero]
  constructor
  · rintro (none | none)
    · exact none
    · omega
  · exact .inl

theorem getBuffer_inside_iff (positive : 0 < elementSize)
    (got : getBuffer blob pai sizes elementSize storageOffset = some view) :
    view.Inside pai.bufferSize ↔ sizes.prod = 0 ∨
      lastByte sizes elementSize storageOffset < 18446744073709551616 ∧
        (sizes.prod < 2147483648 ∨ lastByte sizes elementSize storageOffset ≤ pai.bufferSize) := by
  unfold getBuffer at got
  obtain ⟨⟨checked, made⟩, rfl⟩ : _ ∧ _ = view := by
    simpa only [Option.ite_none_right_eq_some, Option.some.injEq] using got
  have count := prod_nonneg_of_makes made
  have bytes := Int.mul_nonneg count (Int.le_of_lt positive)
  have range := uint64_range (storageOffset * elementSize)
  have fits := pai.bufferFits
  refine (inside_iff ⟨uint64 (storageOffset * elementSize), sizes, elementSize⟩ range.1 range.2 fits
    bytes).trans ?_
  simp only [View.numBytes, numBytes_eq_zero positive]
  change _ ∨ lastByte sizes elementSize storageOffset ≤ _ ↔ _
  apply or_congr_right
  constructor
  · intro within
    exact ⟨by omega, .inr within⟩
  · rintro ⟨upper, small | within⟩
    · -- The count is the true one, and so is the size that was checked.
      rw [numelInt_eq, int32_of_fits (by omega) small,
        uint64_request sizes sizes.prod 0 (by omega)] at checked
      have lower : 0 ≤ lastByte sizes elementSize storageOffset := by
        unfold lastByte
        omega
      rwa [uint64_of_fits lower upper] at checked
    · exact within

theorem getSignalPad_inside_iff (positive : 0 < elementSize)
    (got : getSignalPad blob pai sizes elementSize storageOffset = some view) :
    view.Inside pai.signalPadSize ↔ (signalPadShape pai sizes elementSize).prod = 0 ∨
      lastByte (signalPadShape pai sizes elementSize) elementSize storageOffset <
        18446744073709551616 := by
  unfold getSignalPad at got
  obtain ⟨⟨checked, made⟩, rfl⟩ : _ ∧ _ = view := by
    simpa only [Option.ite_none_right_eq_some, Option.some.injEq] using got
  have count := prod_nonneg_of_makes made
  have bytes := Int.mul_nonneg count (Int.le_of_lt positive)
  have range := uint64_range (storageOffset * elementSize)
  have fits := pai.signalPadFits.2
  refine (inside_iff ⟨uint64 (storageOffset * elementSize), signalPadShape pai sizes elementSize,
    elementSize⟩ range.1 range.2 fits bytes).trans ?_
  simp only [View.numBytes, numBytes_eq_zero positive]
  change _ ∨ lastByte (signalPadShape pai sizes elementSize) elementSize storageOffset ≤ _ ↔ _
  apply or_congr_right
  constructor
  · omega
  · intro upper
    obtain ⟨turns, kept⟩ := uint64_spec (signalPadShape pai sizes elementSize).prod
    rw [numelSize_eq, uint64_request _ _ turns kept] at checked
    have lower : 0 ≤ lastByte (signalPadShape pai sizes elementSize) elementSize storageOffset := by
      unfold lastByte
      omega
    rwa [uint64_of_fits lower upper] at checked

/-- A returned tensor lies in the memory of the rank if and only if it is empty, or its end does
not wrap round and, for a buffer, the element count fits in an `int` (where it does not, the check
says nothing, and the buffer must be large enough by itself). -/
theorem views_inside_iff (blob : ForBlob) (pai : PeerAllocInfo) (sizes : List Int)
    (elementSize storageOffset : Int) (positive : 0 < elementSize) :
    (∀ view, getBuffer blob pai sizes elementSize storageOffset = some view →
      (view.Inside pai.bufferSize ↔ sizes.prod = 0 ∨
        lastByte sizes elementSize storageOffset < 18446744073709551616 ∧ (sizes.prod < 2147483648 ∨
            lastByte sizes elementSize storageOffset ≤ pai.bufferSize))) ∧
    ∀ view, getSignalPad blob pai sizes elementSize storageOffset = some view →
      (view.Inside pai.signalPadSize ↔ (signalPadShape pai sizes elementSize).prod = 0 ∨
        lastByte (signalPadShape pai sizes elementSize) elementSize storageOffset <
          18446744073709551616) := by
  constructor
  · intro view got
    exact getBuffer_inside_iff positive got
  · intro view got
    exact getSignalPad_inside_iff positive got

end Inside

section Sample

/-- `check_size_nonnegative`, and the storage size computed without an overflow. -/
def sampleBlob : ForBlob where
  makes sizes storageOffset elementSize := sizes.all (0 ≤ ·) &&
    decide ((sizes.prod + uint64 storageOffset) * elementSize < 18446744073709551616)
  nonnegative sizes storageOffset elementSize made size there := by
    simp only [Bool.and_eq_true, List.all_eq_true, decide_eq_true_eq] at made
    exact made.1 size there

def samplePai : PeerAllocInfo where
  bufferSize := 4096
  signalPadSize := 2048
  bufferFits := by decide
  signalPadFits := by decide

theorem views_inside_iff_sample : (∃ view, getBuffer sampleBlob samplePai [4, 8] 4 16 = some view ∧
      view.Inside samplePai.bufferSize) ∧
    ∃ view, getSignalPad sampleBlob samplePai [4, 8] 4 16 = some view ∧
      view.Inside samplePai.signalPadSize := by
  obtain ⟨buffer, pad⟩ := views_inside_iff sampleBlob samplePai [4, 8] 4 16 (by decide)
  exact ⟨⟨_, rfl, (buffer _ rfl).mpr (.inr ⟨by decide, .inl (by decide)⟩)⟩,
    ⟨_, rfl, (pad _ rfl).mpr (.inr (by decide))⟩⟩

/-- `2 ^ 32` elements are counted as none, and four elements at offset -4 end where the pad
begins. -/
theorem views_outside : (∃ view, getBuffer sampleBlob samplePai [65536, 65536] 4 0 = some view ∧
      ¬view.Inside samplePai.bufferSize) ∧
    ∃ view, getSignalPad sampleBlob samplePai [4] 4 (-4) = some view ∧
      ¬view.Inside samplePai.signalPadSize := by
  refine ⟨⟨_, rfl, fun inside => ?_⟩, ⟨_, rfl, fun inside => ?_⟩⟩
  · have byte := inside 4096 (by decide) (by decide)
    exact absurd byte (by decide)
  · have byte := inside 0 (by decide) (by decide)
    exact absurd byte (by decide)

end Sample

end TorchSupa.SymmMem.Views
