import TorchSupa.Graph.Counters
import TorchSupa.Logic.Bytes

/-!
`SUPAGeneratorImpl::get_state` and `set_state`: the seed and the offset of a generator as bytes.
-/

namespace TorchSupa.Graph

open Outcome Allocator Bytes Function

def setCurrentSeed (generator : GeneratorId) (seed : Nat) : GraphM Unit := do
  assertNotCapturing "Cannot call SUPAGeneratorImpl::set_current_seed"
  updateGenerator generator fun self => { self with seed, philoxOffsetPerThread := 0, spent := 0 }

def currentSeed (generator : GeneratorId) : GraphM Nat := do
  assertNotCapturing "Cannot call SUPAGeneratorImpl::current_seed"
  pure (← getGenerator generator).seed

def setPhiloxOffsetPerThread (generator : GeneratorId) (offset : Nat) : GraphM Unit := do
  ensure (offset % 4 == 0) (.torchCheck "offset must be a multiple of 4")
  updateGenerator generator fun self => { self with philoxOffsetPerThread := offset, spent := offset }

def getState (generator : GeneratorId) : GraphM (List UInt8) := do
  assertNotCapturing "Cannot call SUPAGeneratorImpl::get_state"
  let seed ← currentSeed generator
  pure (bytesOf 8 seed ++ bytesOf 8 (← getGenerator generator).philoxOffsetPerThread)

/-- A tensor as `set_state` sees it: whether `check_rng_state` of ATen accepts it, and its bytes. -/
structure RngTensor where
  accepted : Bool := true
  bytes : List UInt8
deriving DecidableEq, Repr

def RngTensor.seed (tensor : RngTensor) : Nat := littleEndian (tensor.bytes.take 8)

def RngTensor.offset (tensor : RngTensor) : Nat := littleEndian (tensor.bytes.drop 8)

def setState (generator : GeneratorId) (tensor : RngTensor) : GraphM Unit := do
  ensure tensor.accepted (.torchCheck "RNG state must be a torch.ByteTensor")
  let noPhiloxSeed := tensor.bytes.length == 8
  whenever (!noPhiloxSeed) do
    ensure (tensor.bytes.length == 16) (.torchCheck "RNG state is wrong size")
  setCurrentSeed generator tensor.seed
  setPhiloxOffsetPerThread generator (if noPhiloxSeed then 0 else tensor.offset)

inductive Request
  | philoxSupaState (increment : Nat)
  | philoxEngineInputs (increment : Nat)
deriving DecidableEq, Repr

def Request.increment : Request → Nat
  | .philoxSupaState increment => increment
  | .philoxEngineInputs increment => increment

def Request.run (generator : GeneratorId) : Request → GraphM PhiloxSupaState
  | .philoxSupaState increment => Graph.philoxSupaState generator increment
  | .philoxEngineInputs increment => do
      let (seed, offset) ← Graph.philoxEngineInputs generator increment
      pure (.value seed offset)

def requestAll (generator : GeneratorId) : List Request → GraphM (List PhiloxSupaState)
  | [] => pure []
  | request :: rest => do
      let output ← request.run generator
      let outputs ← requestAll generator rest
      pure (output :: outputs)

def outputsFrom (seed : Nat) : Nat → List Request → List PhiloxSupaState
  | _, [] => []
  | offset, request :: rest =>
    .value seed offset :: outputsFrom seed ((offset + roundUp request.increment) % 2 ^ 64) rest

def RngTensor.fullBytes (tensor : RngTensor) : List UInt8 :=
  if tensor.bytes.length = 8 then tensor.bytes ++ List.replicate 8 0 else tensor.bytes

/-- The generator has the state of the tensor: `get_state` gives it back, and what it puts out
until a stream is captured depends on the tensor only. -/
structure Restored (generator : GeneratorId) (tensor : RngTensor) (after : World) : Prop where
  bytes : getState generator after = .ok tensor.fullBytes after
  outputs : ∀ requests results later, requestAll generator requests after = .ok results later →
    results = outputsFrom tensor.seed tensor.offset requests
  runs : (after.generators generator).capturing = false →
    ∀ requests, ∃ later, requestAll generator requests after =
      .ok (outputsFrom tensor.seed tensor.offset requests) later

def outcomeOf {α : Type} (program : GraphM α) (world : World) : Except Exn α :=
  match program world with
  | .ok value _ => .ok value
  | .error exception _ => .error exception

/-- `set_state` restores the state of the tensor, or throws and `get_state` tells no difference. -/
def SetsState (generator : GeneratorId) (tensor : RngTensor) (world : World) : Prop :=
  wp (setState generator tensor)
    (fun _ after => Restored generator tensor after)
    (fun _ after => outcomeOf (getState generator) after = outcomeOf (getState generator) world) world

section Requests

variable {world : World} {generator : GeneratorId}

theorem ok_of_wp {α : Type} {program : GraphM α} {value : α} {after : World}
    (spec : wp program (fun result final => result = value ∧ final = after) (fun _ _ => False) world) :
    program world = .ok value after := by
  unfold wp at spec
  split at spec
  · next run =>
      obtain ⟨rfl, rfl⟩ := spec
      exact run
  · exact spec.elim

variable {β : Type} {next : PUnit → GraphM β} {normal : β → World → Prop}
  {thrown : Exn → World → Prop}

theorem bind_assertNotCapturing {attempt : String}
    (eager : world.capturesCurrent = false → wp (next ⟨⟩) normal thrown world)
    (captured : world.capturesCurrent = true → thrown (.torchCheck attempt) world) :
    wp (assertNotCapturing attempt >>= next) normal thrown world := by
  refine wp_ensure_iff.mpr ⟨fun none => eager ?_, fun some_ => captured ?_⟩
  · simpa [World.capturesCurrent] using none
  · simpa [World.capturesCurrent] using some_

theorem getState_eager (eager : world.capturesCurrent = false) :
    getState generator world = .ok (bytesOf 8 (world.generators generator).seed ++
      bytesOf 8 (world.generators generator).philoxOffsetPerThread) world := by
  apply ok_of_wp
  unfold getState currentSeed
  simp only [bind_assoc]
  refine bind_assertNotCapturing (fun _ => ?_) fun captured => ?_
  · refine bind_assertNotCapturing (fun _ => ⟨rfl, rfl⟩) fun captured => ?_
    rw [eager] at captured
    cases captured
  · rw [eager] at captured
    cases captured

theorem bind_increase {increment : Nat} (eager : world.capturesCurrent = false)
    (advanced : world.admitsIncrease generator = true →
      wp (next ⟨⟩) normal thrown (world.advance generator increment))
    (refused : world.admitsIncrease generator = false → ∀ exception, thrown exception world) :
    wp (increase generator increment >>= next) normal thrown world := by
  have status : world.captureStatus world.currentStream = .none := by
    simpa [World.capturesCurrent] using eager
  unfold World.admitsIncrease at advanced refused
  simp only [eager, Bool.false_eq_true, if_false] at advanced refused
  rw [wp_bind]
  change wp (if world.captureStatus world.currentStream ≠ .none then _ else _) _ _ world
  rw [if_neg (by simp [status])]
  refine wp_ensure_iff.mpr ⟨fun idle => wp_ensure_iff.mpr ⟨fun aligned => ?_, fun odd => ?_⟩,
    fun busy => ?_⟩
  · exact advanced (by rw [idle, aligned]; rfl)
  · exact refused (by rw [odd, Bool.and_false]) _
  · exact refused (by rw [busy, Bool.false_and]) _

theorem Request.run_spec (request : Request) (eager : world.capturesCurrent = false) :
    wp (request.run generator) (fun output after =>
        let self := world.generators generator
        output = .value self.seed self.philoxOffsetPerThread ∧
          after = world.advance generator request.increment)
      (fun _ _ => world.admitsIncrease generator = false) world := by
  have status : world.captureStatus world.currentStream = .none := by
    simpa [World.capturesCurrent] using eager
  cases request with
  | philoxSupaState increment =>
    change wp (if world.captureStatus world.currentStream ≠ .none then _ else _) _ _ world
    rw [if_neg (by simp [status])]
    exact bind_increase eager (fun _ => ⟨rfl, rfl⟩) fun refused _ => refused
  | philoxEngineInputs increment =>
    unfold Request.run Graph.philoxEngineInputs
    simp only [bind_assoc]
    refine bind_assertNotCapturing (fun _ => ?_) fun captured => ?_
    · exact bind_increase eager (fun _ => ⟨rfl, rfl⟩) fun refused _ => refused
    · rw [eager] at captured
      cases captured

theorem requestAll_spec (requests : List Request) (world : World)
    (eager : world.capturesCurrent = false)
    (aligned : (world.generators generator).philoxOffsetPerThread % 4 = 0) :
    wp (requestAll generator requests)
      (fun results _ => results = outputsFrom (world.generators generator).seed
        (world.generators generator).philoxOffsetPerThread requests)
      (fun _ _ => (world.generators generator).capturing = true) world := by
  induction requests generalizing world with
  | nil => exact rfl
  | cons request rest ih =>
    unfold requestAll
    rw [wp_bind]
    refine wp_mono (request.run_spec eager) ?_ fun _ _ refused => ?_
    · rintro output after ⟨rfl, rfl⟩
      have next : ((world.advance generator request.increment).generators
          generator).philoxOffsetPerThread % 4 = 0 := by
        have rounded := roundUp_mod request.increment
        simp only [World.advance, update_self]
        omega
      rw [wp_bind]
      refine wp_mono (ih (world.advance generator request.increment) eager next) ?_ ?_
      · rintro results later rfl
        exact congrArg (List.cons _) (by simp [World.advance])
      · intro _ _ capturing
        simpa [World.advance] using capturing
    · unfold World.admitsIncrease at refused
      simpa [eager, aligned] using refused

end Requests

section SetState

variable {world : World} {generator : GeneratorId} {tensor : RngTensor}

def RngTensor.wellSized (tensor : RngTensor) : Bool :=
  tensor.accepted && (tensor.bytes.length == 8 || tensor.bytes.length == 16)

def RngTensor.misaligned (tensor : RngTensor) : Bool :=
  tensor.wellSized && tensor.offset % 4 != 0

def World.seeded (world : World) (generator : GeneratorId) (seed offset : Nat) : World :=
  { world with
    generators := Function.update world.generators generator
      { world.generators generator with seed, philoxOffsetPerThread := offset, spent := offset } }

open List RngTensor

theorem RngTensor.offset_of_short (short : tensor.bytes.length = 8) : tensor.offset = 0 := by
  unfold offset
  rw [drop_eq_nil_of_le (Nat.le_of_eq short)]
  rfl

theorem setBoth_spec (generator : GeneratorId) (seed offset : Nat) (world : World) : wp (do
      setCurrentSeed generator seed
      setPhiloxOffsetPerThread generator offset)
      (fun _ after => world.capturesCurrent = false ∧ offset % 4 = 0 ∧
        after = world.seeded generator seed offset)
      (fun _ after => world.capturesCurrent = true ∧ after = world ∨
        world.capturesCurrent = false ∧ offset % 4 ≠ 0 ∧ after = world.seeded generator seed 0)
      world := by
  unfold setCurrentSeed setPhiloxOffsetPerThread
  simp only [bind_assoc]
  refine bind_assertNotCapturing (fun eager => ?_) fun captured => .inl ⟨captured, rfl⟩
  refine bind_write (wp_ensure_iff.mpr ⟨fun aligned => ?_, fun odd => ?_⟩)
  · refine ⟨eager, by simpa using aligned, ?_⟩
    simp [World.seeded, update_idem]
  · exact .inr ⟨eager, by simpa using odd, rfl⟩

theorem setState_spec (generator : GeneratorId) (tensor : RngTensor) (world : World) :
    wp (setState generator tensor)
      (fun _ after => world.capturesCurrent = false ∧ tensor.wellSized = true ∧
        tensor.offset % 4 = 0 ∧ after = world.seeded generator tensor.seed tensor.offset)
      (fun _ after => after = world ∧ (world.capturesCurrent = true ∨ tensor.misaligned = false) ∨
        world.capturesCurrent = false ∧ tensor.misaligned = true ∧
          after = world.seeded generator tensor.seed 0) world := by
  have given : (if (tensor.bytes.length == 8) = true then 0 else tensor.offset) =
      tensor.offset := by
    split
    · next short => exact (tensor.offset_of_short (by simpa using short)).symm
    · rfl
  unfold setState
  dsimp only
  rw [given]
  refine wp_ensure_iff.mpr ⟨fun accepted => ?_, fun refused => ?_⟩
  · have seeding : tensor.wellSized = true → wp (do
        setCurrentSeed generator tensor.seed
        setPhiloxOffsetPerThread generator tensor.offset)
        (fun _ after => world.capturesCurrent = false ∧ tensor.wellSized = true ∧
          tensor.offset % 4 = 0 ∧ after = world.seeded generator tensor.seed tensor.offset)
        (fun _ after => after = world ∧ (world.capturesCurrent = true ∨ tensor.misaligned = false) ∨
          world.capturesCurrent = false ∧ tensor.misaligned = true ∧
            after = world.seeded generator tensor.seed 0) world := by
      intro sized
      refine wp_mono (setBoth_spec generator tensor.seed tensor.offset world) ?_ ?_
      · rintro _ after ⟨eager, aligned, same⟩
        exact ⟨eager, sized, aligned, same⟩
      · rintro _ after (⟨captured, same⟩ | ⟨eager, odd, same⟩)
        · exact .inl ⟨same, .inl captured⟩
        · exact .inr ⟨eager, by simp [misaligned, sized, odd], same⟩
    refine bind_whenever (fun long => ?_) fun short => ?_
    · refine wp_ensure_iff.mpr ⟨fun full => seeding ?_, fun wrong => ?_⟩
      · simp [wellSized, accepted, full]
      · have other : (tensor.bytes.length == 8) = false := by simpa using long
        exact .inl ⟨rfl, .inr (by
          simp [misaligned, wellSized, wrong, other])⟩
    · have isShort : (tensor.bytes.length == 8) = true := by simpa using short
      exact seeding (by simp [wellSized, accepted, isShort])
  · exact .inl ⟨rfl, .inr (by simp [misaligned, wellSized, refused])⟩

theorem seeded_bytes (sized : tensor.wellSized = true) :
    bytesOf 8 tensor.seed ++ bytesOf 8 tensor.offset = tensor.fullBytes := by
  have lengths : tensor.bytes.length = 8 ∨ tensor.bytes.length = 16 := by
    have both := (Bool.and_eq_true _ _ ▸ sized).2
    simpa using both
  have first : (tensor.bytes.take 8).length = 8 := by
    rw [length_take]
    omega
  have seed : bytesOf 8 tensor.seed = tensor.bytes.take 8 := by
    have back := bytesOf_littleEndian (tensor.bytes.take 8)
    rwa [first] at back
  unfold fullBytes
  rcases lengths with short | long
  · rw [if_pos short, seed, tensor.offset_of_short short, take_of_length_le (by omega)]
    rfl
  · have second : (tensor.bytes.drop 8).length = 8 := by
      rw [length_drop, long]
    have offset : bytesOf 8 tensor.offset = tensor.bytes.drop 8 := by
      have back := bytesOf_littleEndian (tensor.bytes.drop 8)
      rwa [second] at back
    rw [if_neg (by omega), seed, offset, take_append_drop]

theorem restored_seeded (eager : world.capturesCurrent = false) (sized : tensor.wellSized = true)
    (aligned : tensor.offset % 4 = 0) :
    Restored generator tensor (world.seeded generator tensor.seed tensor.offset) := by
  have quiet : (world.seeded generator tensor.seed tensor.offset).capturesCurrent = false := eager
  have self : (world.seeded generator tensor.seed tensor.offset).generators generator =
      { world.generators generator with
        seed := tensor.seed, philoxOffsetPerThread := tensor.offset, spent := tensor.offset } := by
    simp [World.seeded]
  have run := fun requests => requestAll_spec requests
    (world.seeded generator tensor.seed tensor.offset) quiet
    (show ((world.seeded generator tensor.seed tensor.offset).generators
      generator).philoxOffsetPerThread % 4 = 0 by rw [self]; exact aligned)
  constructor
  case bytes =>
    rw [getState_eager quiet, self, seeded_bytes sized]
  case outputs =>
    intro requests results later returned
    have holds := wp_ok (run requests) returned
    rwa [self] at holds
  case runs =>
    intro idle requests
    have holds := run requests
    unfold wp at holds
    split at holds
    · next results later returned =>
        rw [self] at holds
        exact ⟨later, holds ▸ returned⟩
    · rw [idle] at holds
      cases holds

theorem outcomeOf_getState (eager : world.capturesCurrent = false) :
    outcomeOf (getState generator) world = .ok (bytesOf 8 (world.generators generator).seed ++
      bytesOf 8 (world.generators generator).philoxOffsetPerThread) := by
  unfold outcomeOf
  rw [getState_eager eager]

theorem outcomeOf_seeded_iff (fits : (world.generators generator).Fits)
    (eager : world.capturesCurrent = false) (sized : tensor.wellSized = true) :
    outcomeOf (getState generator) (world.seeded generator tensor.seed 0) =
        outcomeOf (getState generator) world ↔
      (world.generators generator).seed = tensor.seed ∧
        (world.generators generator).philoxOffsetPerThread = 0 := by
  have quiet : (world.seeded generator tensor.seed 0).capturesCurrent = false := eager
  have small : tensor.seed < 256 ^ 8 := by
    have bound := littleEndian_lt (tensor.bytes.take 8)
    have lengths : tensor.bytes.length = 8 ∨ tensor.bytes.length = 16 := by
      have both := (Bool.and_eq_true _ _ ▸ sized).2
      simpa using both
    have first : (tensor.bytes.take 8).length = 8 := by
      rw [length_take]
      omega
    rwa [first] at bound
  rw [outcomeOf_getState quiet, outcomeOf_getState eager]
  simp only [World.seeded, update_self]
  constructor
  · intro same
    obtain ⟨seeds, offsets⟩ := append_inj (Except.ok.inj same) (by simp)
    exact ⟨(bytesOf_injective small fits.seed seeds).symm,
      (bytesOf_injective (by decide) fits.philox offsets).symm⟩
  · rintro ⟨seed, offset⟩
    rw [seed, offset]

/-- `set_state` restores the state or changes nothing, except that an offset that is not a
multiple of 4 is refused when the seed is set and the offset is gone. -/
theorem set_state_iff (generator : GeneratorId) (tensor : RngTensor) (world : World)
    (fits : (world.generators generator).Fits) :
    SetsState generator tensor world ↔ (world.capturesCurrent = false → tensor.misaligned = true →
        (world.generators generator).seed = tensor.seed ∧
          (world.generators generator).philoxOffsetPerThread = 0) := by
  have spec := setState_spec generator tensor world
  constructor
  · intro sets eager misaligned
    have sized : tensor.wellSized = true := (Bool.and_eq_true _ _ ▸ misaligned).1
    have odd : tensor.offset % 4 ≠ 0 := by
      have both := misaligned
      simp only [RngTensor.misaligned, Bool.and_eq_true, bne_iff_ne] at both
      exact both.2
    have both := wp_and sets spec
    unfold wp at both
    split at both
    · exact absurd both.2.2.2.1 odd
    · obtain ⟨unchanged, ⟨-, captured | aligned⟩ | ⟨-, -, rfl⟩⟩ := both
      · rw [eager] at captured
        cases captured
      · rw [misaligned] at aligned
        cases aligned
      · exact (outcomeOf_seeded_iff fits eager sized).mp unchanged
  · intro same
    refine wp_mono spec ?_ ?_
    · rintro _ after ⟨eager, sized, aligned, rfl⟩
      exact restored_seeded eager sized aligned
    · rintro _ after (⟨rfl, -⟩ | ⟨eager, misaligned, rfl⟩)
      · rfl
      · have sized : tensor.wellSized = true := (Bool.and_eq_true _ _ ▸ misaligned).1
        exact (outcomeOf_seeded_iff fits eager sized).mpr (same eager misaligned)

def alignedTensor : RngTensor where
  bytes := [5, 0, 0, 0, 0, 0, 0, 0, 8, 0, 0, 0, 0, 0, 0, 0]

def misalignedTensor : RngTensor where
  bytes := [5, 0, 0, 0, 0, 0, 0, 0, 2, 0, 0, 0, 0, 0, 0, 0]

theorem sampleWorld_fits : (sampleWorld.generators 0).Fits := ⟨by decide, by decide, by decide⟩

theorem set_state_iff_sample : SetsState 0 alignedTensor sampleWorld :=
  (set_state_iff 0 alignedTensor sampleWorld sampleWorld_fits).mpr
    fun _ misaligned => absurd misaligned (by decide)

theorem set_state_not_atomic : ¬ ∀ (generator : GeneratorId) (tensor : RngTensor) (world : World),
    (world.generators generator).Fits → SetsState generator tensor world := by
  intro sets
  have both := wp_and (sets 0 misalignedTensor sampleWorld sampleWorld_fits)
    (setState_spec 0 misalignedTensor sampleWorld)
  unfold wp at both
  split at both
  · exact absurd both.2.2.2.1 (by decide)
  · obtain ⟨unchanged, ⟨-, captured | aligned⟩ | ⟨-, -, rfl⟩⟩ := both
    · exact absurd captured (by decide)
    · exact absurd aligned (by decide)
    · have same := (outcomeOf_seeded_iff sampleWorld_fits (by decide) (by decide)).mp unchanged
      exact absurd same.1 (by decide)

end SetState

end TorchSupa.Graph
