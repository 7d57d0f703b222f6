import TorchSupa.Aten.TransposeKernels

/-!
When a copy on a device leaves what the generic copy of elements leaves.
-/

namespace TorchSupa.Aten.DirectCopy

variable {α : Type}

section Right

variable (conversions : Conversions α) (contents before : Nat → α) (src dst : Tensor)

/-- The C++ conversion of a value is defined: from a float to a short only of what a short can
hold. -/
def Defined (value : α) : Prop :=
  dst.dtype = .kShort → src.dtype = .kFloat →
    ∃ real, conversions.asReal value = some real ∧ -32769 < real ∧ real < 32768

def element (index : List Nat) : α := contents (src.address (src.unexpand index))

def Allowed (address : Nat) (value : Option α) : Prop :=
  (∀ index ∈ indices dst.sizes, dst.address index = address →
    Defined conversions src dst (element contents src index) →
      value = some (conversions.convert dst.dtype src.dtype (element contents src index))) ∧
    ((∀ index ∈ indices dst.sizes, dst.address index ≠ address) → value = some (before address))

def stores (events : List (Event α)) : List (Nat × Option α) :=
  events.filterMap fun event => match event with
    | .store address value => some (address, value)
    | _ => none

/-- The copy does not fail, and in whatever order its threads store it leaves what the generic copy
leaves. -/
def Right : Prop :=
  ∃ events, directCopyKernelCuda contents src dst conversions = .ok events ∧
    (∀ event ∈ events, ¬event.Bad) ∧
    ∀ order, order.Perm (stores events) → ∀ address,
      Allowed conversions contents before src dst address
        (Writes.after order (fun address => some (before address)) address)

def castable : ScalarType → Bool
  | .kFloat8_e5m2 | .kFloat8_e4m3fn | .kFloat8_e5m2fnuz | .kFloat8_e4m3fnuz | .kFloat8_e8m0fnu => true
  | dtype => dispatchCopy dtype

structure Operands : Prop where
  expands : src.ExpandsTo dst.sizes
  supported : castable dst.dtype = true ∧ castable src.dtype = true ∨
    dst.dtype = src.dtype ∧ (dispatchQInt dst.dtype = true ∨ dst.dtype.isBitsType = true)
  apart : ∀ one ∈ indices dst.sizes, ∀ two ∈ indices dst.sizes,
    dst.address one = dst.address two → one = two
  bytes : dst.numel * dst.dtype.elementSize < 2 ^ 63
  srcAligned : src.dataPtr % src.dtype.elementSize = 0

variable {conversions contents before src dst} {events : List (Event α)}

theorem mem_stores {address : Nat} {value : Option α} :
    (address, value) ∈ stores events ↔ .store address value ∈ events := by
  simp only [stores, List.mem_filterMap]
  constructor
  · rintro ⟨event, member, found⟩
    cases event with
    | store one two =>
      simp only [Option.some.injEq, Prod.mk.injEq] at found
      obtain ⟨rfl, rfl⟩ := found
      exact member
    | vector _ => cases found
    | counter _ => cases found
  · exact fun member => ⟨_, member, rfl⟩

theorem right_iff (ran : directCopyKernelCuda contents src dst conversions = .ok events) :
    Right conversions contents before src dst ↔ (∀ event ∈ events, ¬event.Bad) ∧
      (∀ address value, .store address value ∈ events →
        Allowed conversions contents before src dst address value) ∧
      ∀ address, (∀ value, .store address value ∉ events) →
        Allowed conversions contents before src dst address (some (before address)) := by
  have unordered := Writes.unordered_iff (stores events) (fun address => some (before address))
    (Allowed conversions contents before src dst)
  constructor
  · rintro ⟨others, same, fine, any⟩
    obtain rfl := Except.ok.inj (ran.symm.trans same)
    obtain ⟨written, kept⟩ := unordered.mp any
    refine ⟨fine, fun address value member => written (address, value) (mem_stores.mpr member), ?_⟩
    intro address unwritten
    apply kept address
    rintro ⟨one, value⟩ member rfl
    exact unwritten value (mem_stores.mp member)
  · rintro ⟨fine, written, kept⟩
    refine ⟨events, ran, fine, unordered.mpr ⟨?_, ?_⟩⟩
    · rintro ⟨address, value⟩ member
      exact written address value (mem_stores.mp member)
    · intro address unwritten
      apply kept address
      intro value member
      exact unwritten _ (mem_stores.mpr member) rfl

theorem right_elementwise {f : α → α} (operands : Operands src dst)
    (ran : directCopyKernelCuda contents src dst conversions = .ok (elementwise contents src dst f)) :
    Right conversions contents before src dst ↔
      ∀ index ∈ indices dst.sizes, Defined conversions src dst (element contents src index) →
        f (element contents src index) =
          conversions.convert dst.dtype src.dtype (element contents src index) := by
  rw [right_iff ran]
  simp only [elementwise, List.mem_map, Event.store.injEq]
  constructor
  · rintro ⟨_, written, _⟩ index member defined
    have allowed := written _ _ ⟨index, member, rfl, rfl⟩
    exact Option.some.inj (allowed.1 index member rfl defined)
  · intro same
    refine ⟨?_, ?_, ?_⟩
    · rintro event ⟨index, _, rfl⟩ bad
      exact bad
    · rintro address value ⟨index, member, rfl, rfl⟩
      refine ⟨fun other also here defined => ?_, fun none => absurd rfl (none index member)⟩
      obtain rfl := operands.apart other also index member here
      exact congrArg some (same other member defined)
    · intro address unwritten
      refine ⟨fun index member here => ?_, fun _ => rfl⟩
      exact absurd ⟨index, member, here, rfl⟩ (unwritten _)

end Right

section Generic

variable (conversions : Conversions α) (src dst : Tensor)

def takenFastPath : Option Permute3DTransposeConfig :=
  if (dst.dtype = .kBFloat16 ∨ dst.dtype = .kHalf) ∧ src.dtype ≠ .kFloat ∧
      src.dtype ≠ .kFloat8_e8m0fnu ∧ src.dim = 3 then fastPath src dst
  else none

def converted (value : α) : α :=
  if dst.dtype = .kShort ∧ src.dtype = .kFloat ∧ conversions.isBelowShort value = true then
    conversions.ofShort 0
  else conversions.convert dst.dtype src.dtype value

variable {conversions src dst} {contents : Nat → α}

theorem copyKernel_eq (short : ¬(dst.dtype = .kShort ∧ src.dtype = .kFloat))
    (dispatched : dispatchCopy dst.dtype = true) :
    copyKernel contents src dst conversions =
      .ok (elementwise contents src dst (converted conversions src dst)) := by
  have same : (fun value => conversions.convert dst.dtype dst.dtype
      (id (conversions.convert dst.dtype src.dtype value))) = converted conversions src dst := by
    funext value
    rw [conversions.convert_self, converted, if_neg (fun all => short ⟨all.1, all.2.1⟩), id]
  simp only [copyKernel, dispatched, if_true, gpuKernel, same]

theorem nocast_eq {argument result : ScalarType} {f : α → α} (source : src.dtype = argument)
    (target : dst.dtype = result) (same : ∀ value, f value = converted conversions src dst value) :
    gpuKernelNocast contents src dst argument result f =
      .ok (elementwise contents src dst (converted conversions src dst)) := by
  rw [gpuKernelNocast, if_pos ⟨source, target⟩, funext same]

theorem converted_eq (short : ¬(dst.dtype = .kShort ∧ src.dtype = .kFloat)) (value : α) :
    converted conversions src dst value = conversions.convert dst.dtype src.dtype value :=
  if_neg fun all => short ⟨all.1, all.2.1⟩

theorem castable_qint : ∀ dtype : ScalarType, dtype.isQIntType = true →
    castable dtype = false ∧ dtype.isBitsType = false := by
  intro dtype
  cases dtype <;> decide

theorem castable_bits : ∀ dtype : ScalarType, dtype.isBitsType = true → castable dtype = false := by
  intro dtype
  cases dtype <;> decide

theorem dispatchCopy_of_castable : ∀ dtype : ScalarType, castable dtype = true →
    dtype.isFloat8Type = false → dispatchCopy dtype = true := by
  intro dtype
  cases dtype <;> decide

theorem not_short_float8 : ∀ dtype : ScalarType, dtype.isFloat8Type = true → dtype ≠ .kShort := by
  intro dtype
  cases dtype <;> decide

theorem qint_dispatch : ∀ dtype : ScalarType, dispatchQInt dtype = true →
    dtype.isQIntType = true := by
  intro dtype
  cases dtype <;> decide

theorem directCopy_eq (operands : Operands src dst) (slow : takenFastPath src dst = none) :
    directCopyKernelCuda contents src dst conversions =
      .ok (elementwise contents src dst (converted conversions src dst)) := by
  have generic : ∀ scalar, scalar = dst.dtype → ¬(dst.dtype = .kShort ∧ src.dtype = .kFloat) →
      gpuKernel contents src dst conversions scalar id =
        .ok (elementwise contents src dst (converted conversions src dst)) := by
    rintro scalar rfl short
    rw [gpuKernel]
    congr 2
    funext value
    rw [conversions.convert_self, converted_eq short, id]
  have supported := operands.supported
  unfold directCopyKernelCuda
  split
  · next qint =>
      have castable := castable_qint dst.dtype qint
      have listed : dispatchQInt dst.dtype = true := by
        rcases supported with ⟨cast, _⟩ | ⟨_, listed | bits⟩
        · rw [castable.1] at cast
          cases cast
        · exact listed
        · rw [castable.2] at bits
          cases bits
      rw [if_pos listed]
      refine generic _ rfl fun short => ?_
      rw [short.1] at qint
      cases qint
  · next qint =>
      split
      · next float8 =>
          have short := not_short_float8 _ float8
          unfold float8CopyKernelCuda
          split
          · next source =>
              refine nocast_eq source rfl fun value => ?_
              rw [converted_eq (fun both => short both.1), source]
          · next source =>
              refine nocast_eq source rfl fun value => ?_
              rw [converted_eq (fun both => short both.1), source]
          · next source =>
              refine nocast_eq source rfl fun value => ?_
              rw [converted_eq (fun both => short both.1), source]
          · exact generic _ rfl fun both => short both.1
      · next float8 =>
          split
          · next types =>
              refine nocast_eq types.1 rfl fun value => ?_
              rw [converted_eq (fun both => by rw [both.1] at types; simp at types), types.1]
          · next half =>
            split
            · next types =>
                refine nocast_eq rfl types.2 fun value => ?_
                rw [converted_eq (fun both => by rw [both.1] at types; simp at types), types.2]
            · split
              · next types =>
                  refine nocast_eq types.1 types.2 fun value => ?_
                  simp only [converted, types, true_and]
              · next short =>
                  have short : ¬(dst.dtype = .kShort ∧ src.dtype = .kFloat) := fun both =>
                    short ⟨both.2, both.1⟩
                  split
                  · next types =>
                      refine nocast_eq types.1 rfl fun value => ?_
                      rw [converted_eq short, types.1]
                      rcases types.2 with target | target | target
                      · rw [target, conversions.convert_self]
                      · rw [target, conversions.convert_bfloat16]
                      · rw [target, conversions.convert_half]
                  · next source =>
                      split
                      · next bits =>
                          have castable := castable_bits _ bits
                          have same : dst.dtype = src.dtype := by
                            rcases supported with ⟨cast, _⟩ | ⟨same, _⟩
                            · rw [castable] at cast
                              cases cast
                            · exact same
                          rw [if_neg (not_not.mpr same)]
                          refine nocast_eq same.symm rfl fun value => ?_
                          rw [converted_eq short, same, conversions.convert_self, id]
                      · next bits =>
                          have dispatched : dispatchCopy dst.dtype = true := by
                            rcases supported with ⟨cast, _⟩ | ⟨_, listed | isBits⟩
                            · exact dispatchCopy_of_castable _ cast (Bool.not_eq_true _ ▸ float8)
                            · exact absurd (qint_dispatch _ listed) qint
                            · exact absurd isBits bits
                          split
                          · next three =>
                              split
                              · next cfg taken =>
                                  rw [takenFastPath, if_pos, taken] at slow
                                  · cases slow
                                  · exact ⟨three.1, fun float => half ⟨float, three.1⟩,
                                      fun float8 => source ⟨float8, .inr three.1⟩, three.2⟩
                              · exact copyKernel_eq short dispatched
                          · exact copyKernel_eq short dispatched

variable {cfg : Permute3DTransposeConfig}

theorem taken_cases (taken : takenFastPath src dst = some cfg) :
    ((dst.dtype = .kBFloat16 ∨ dst.dtype = .kHalf) ∧ src.dtype ≠ .kFloat ∧
      src.dtype ≠ .kFloat8_e8m0fnu ∧ src.dim = 3) ∧ fastPath src dst = some cfg := by
  unfold takenFastPath at taken
  split at taken
  · next types => exact ⟨types, taken⟩
  · cases taken

theorem directCopy_taken (taken : takenFastPath src dst = some cfg) :
    directCopyKernelCuda contents src dst conversions = permute3dTransposeCopy contents src dst cfg := by
  obtain ⟨⟨half, float, float8, three⟩, fast⟩ := taken_cases taken
  rcases half with half | half
  · simp [directCopyKernelCuda, half, float, float8, three, fast, ScalarType.isQIntType,
      ScalarType.isFloat8Type, ScalarType.isBitsType]
  · simp [directCopyKernelCuda, half, float, float8, three, fast, ScalarType.isQIntType,
      ScalarType.isFloat8Type, ScalarType.isBitsType]

theorem right_slow (operands : Operands src dst) (slow : takenFastPath src dst = none)
    {before : Nat → α} :
    Right conversions contents before src dst ↔
      (dst.dtype = .kShort → src.dtype = .kFloat → ∀ index ∈ indices dst.sizes, ∀ real,
        conversions.asReal (element contents src index) = some real →
          ¬(-32769 < real ∧ real < -32768)) := by
  rw [right_elementwise operands (directCopy_eq operands slow)]
  constructor
  · intro right short float index member real number between
    have value := right index member fun _ _ => ⟨real, number, between.1, by linarith [between.2]⟩
    have below : conversions.isBelowShort (element contents src index) = true :=
      (conversions.isBelowShort_eq _ real number).mpr between.2
    rw [converted, if_pos ⟨short, float, below⟩, short, float,
      conversions.convert_short _ real number between.1 (by linarith [between.2]),
      if_neg (by linarith [between.2])] at value
    have ceil : ⌈real⌉ = -32768 := by
      rw [Int.ceil_eq_iff]
      push_cast
      exact ⟨by linarith [between.1], by linarith [between.2]⟩
    rw [ceil] at value
    exact absurd (conversions.ofShort_inj 0 (-32768) (by decide) (by decide) (by decide) (by decide)
      value) (by decide)
  · intro apart index member defined
    unfold converted
    split
    · next types =>
        obtain ⟨real, number, low, _⟩ := defined types.1 types.2.1
        have below := (conversions.isBelowShort_eq _ real number).mp types.2.2
        exact absurd ⟨low, below⟩ (apart types.1 types.2.1 index member real number)
    · rfl

end Generic

end TorchSupa.Aten.DirectCopy
