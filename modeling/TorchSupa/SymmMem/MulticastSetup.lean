import TorchSupa.Logic.Collectives

/-!
`init_multicast_for_block`, with the outcome of every driver call as a parameter. Only whether a
handle is the invalidator matters of the handles that are sent.
-/

namespace TorchSupa.SymmMem.Multicast

open Collectives List

structure Driver where
  create : Bool
  exportToShareableHandle : Bool
  importFromShareableHandle : Bool
  addDevice : Bool
  bindMem : Bool
deriving DecidableEq, Repr

inductive Payload
  | handle (valid : Bool)
  | success (value : Bool)
deriving DecidableEq, Repr

structure Outcome where
  exchanges : Nat
  maps : Bool
  handle : Bool
  bound : Bool
deriving DecidableEq, Repr

def Payload.succeeded : Payload → Bool
  | .success value => value
  | .handle _ => false

def Payload.isInvalidator : Payload → Bool
  | .handle valid => !valid
  | .success _ => false

def checkAll (exchanges : Nat) (handle bound successEnd : Bool) : Program Payload Outcome :=
  .gather (.success successEnd) fun rankSuccesses =>
    .done { exchanges := exchanges + 1
            maps := rankSuccesses.all Payload.succeeded
            handle := handle
            bound := bound }

def initMulticastForBlock (useFabricHandle : Bool) (rank : Nat) (driver : Driver) :
    Program Payload Outcome :=
  let created := decide (rank = 0) && driver.create
  let mcExportedHandle := rank ≠ 0 || (driver.create && driver.exportToShareableHandle)
  let exchanges := if useFabricHandle then 1 else 0
  .gather (.handle mcExportedHandle) fun gatheredHandles =>
    if gatheredHandles.head?.any Payload.isInvalidator then
      .done { exchanges := exchanges, maps := false, handle := created, bound := false }
    else if rank ≠ 0 && !driver.importFromShareableHandle then
      checkAll exchanges false false false
    else if !driver.addDevice then checkAll exchanges true false false
    else if !driver.bindMem then checkAll exchanges true false false
    else checkAll exchanges true true true

/-- The ranks go through the same number of exchanges, they all map the object or none does, and a
rank that does not holds nothing. -/
structure Agree (size : Nat) (outcomes : Nat → Outcome) : Prop where
  exchanges : ∀ rank < size, ∀ other < size, (outcomes rank).exchanges = (outcomes other).exchanges
  maps : (∀ rank < size, (outcomes rank).maps = true) ∨ ∀ rank < size, (outcomes rank).maps = false
  released : ∀ rank < size, (outcomes rank).maps = false →
    (outcomes rank).handle = false ∧ (outcomes rank).bound = false

def Driver.succeeds (driver : Driver) (rank : Nat) : Bool :=
  (if rank = 0 then driver.create && driver.exportToShareableHandle
    else driver.importFromShareableHandle) && driver.addDevice && driver.bindMem

section Setup

variable (useFabricHandle : Bool) {size : Nat} {drivers : Nat → Driver}

theorem head?_range (positive : 0 < size) (payload : Nat → Payload) :
    ((List.range size).map payload).head? = some (payload 0) := by
  obtain ⟨rest, rfl⟩ : ∃ rest, size = rest + 1 := ⟨size - 1, by omega⟩
  simp [range_succ_eq_map]

def exported (drivers : Nat → Driver) : Bool :=
  (drivers 0).create && (drivers 0).exportToShareableHandle

theorem runs_skipped (positive : 0 < size) (failed : exported drivers = false) :
    Runs size (fun rank => initMulticastForBlock useFabricHandle rank (drivers rank)) fun rank =>
      { exchanges := if useFabricHandle then 1 else 0
        maps := false
        handle := decide (rank = 0) && (drivers 0).create
        bound := false } := by
  refine .gather (fun _ _ => rfl) (.done fun rank below => ?_)
  simp only [head?_range positive]
  have invalid : (Payload.handle (decide ((0 : Nat) ≠ 0) ||
      (drivers 0).create && (drivers 0).exportToShareableHandle)).isInvalidator = true := by
    unfold exported at failed
    simp [Payload.isInvalidator, failed]
  rw [Option.any_some, invalid, if_pos rfl]
  by_cases first : rank = 0
  · subst first
    rfl
  · simp [first]

theorem runs_checkAll (success : Nat → Bool) {programs : Nat → Program Payload Outcome}
    {exchanges : Nat} {held bound : Nat → Bool}
    (meet : ∀ rank < size, programs rank =
      checkAll exchanges (held rank) (bound rank) (success rank)) :
    Runs size programs fun rank =>
      { exchanges := exchanges + 1
        maps := (List.range size).all success
        handle := held rank
        bound := bound rank } := by
  refine .gather meet (.done fun rank below => ?_)
  simp only [all_map]
  rfl

theorem runs_checked (positive : 0 < size) (made : exported drivers = true) :
    ∃ held bound : Nat → Bool, held 0 = true ∧
      Runs size (fun rank => initMulticastForBlock useFabricHandle rank (drivers rank)) fun rank =>
        { exchanges := (if useFabricHandle then 1 else 0) + 1
          maps := (List.range size).all fun other => (drivers other).succeeds other
          handle := held rank
          bound := bound rank } := by
  have valid : (Payload.handle (decide ((0 : Nat) ≠ 0) ||
      (drivers 0).create && (drivers 0).exportToShareableHandle)).isInvalidator = false := by
    unfold exported at made
    simp [Payload.isInvalidator, made]
  have after (rank : Nat) : ∃ handle bound, (rank = 0 → handle = true) ∧
      (if (rank ≠ 0 && !(drivers rank).importFromShareableHandle) = true then
        checkAll (if useFabricHandle then 1 else 0) false false false
      else if (!(drivers rank).addDevice) = true then
        checkAll (if useFabricHandle then 1 else 0) true false false
      else if (!(drivers rank).bindMem) = true then
        checkAll (if useFabricHandle then 1 else 0) true false false
      else checkAll (if useFabricHandle then 1 else 0) true true true) =
      checkAll (if useFabricHandle then 1 else 0) handle bound ((drivers rank).succeeds rank) := by
    have ready : (if rank = 0 then (drivers rank).create && (drivers rank).exportToShareableHandle
        else (drivers rank).importFromShareableHandle) =
        !(rank ≠ 0 && !(drivers rank).importFromShareableHandle) := by
      by_cases first : rank = 0
      · subst first
        simpa [exported] using made
      · simp [first]
    unfold Driver.succeeds
    rw [ready]
    by_cases unimported : (rank ≠ 0 && !(drivers rank).importFromShareableHandle) = true
    · refine ⟨false, false, fun first => ?_, by simp only [unimported]; rfl⟩
      simp [first] at unimported
    · simp only [Bool.not_eq_true] at unimported
      simp only [unimported, Bool.not_false, Bool.true_and, Bool.false_eq_true, ↓reduceIte]
      cases (drivers rank).addDevice with
      | false => exact ⟨true, false, fun _ => rfl, rfl⟩
      | true =>
        cases (drivers rank).bindMem with
        | false => exact ⟨true, false, fun _ => rfl, rfl⟩
        | true => exact ⟨true, true, fun _ => rfl, rfl⟩
  choose held bound first same using after
  refine ⟨held, bound, first 0 rfl, .gather (fun _ _ => rfl) (runs_checkAll _ fun rank below => ?_)⟩
  simp only [head?_range positive]
  rw [Option.any_some, valid, if_neg Bool.false_ne_true]
  exact same rank

/-- The set-up agrees if and only if every driver call of every rank succeeds or the first one, by
which rank 0 creates the object, fails. -/
theorem agree_iff (useFabricHandle : Bool) (size : Nat) (drivers : Nat → Driver) :
    (∃ outcomes, Runs size
      (fun rank => initMulticastForBlock useFabricHandle rank (drivers rank)) outcomes ∧
        Agree size outcomes) ↔
      (∀ rank < size, (drivers rank).succeeds rank = true) ∨ (drivers 0).create = false := by
  by_cases positive : 0 < size
  · cases made : exported drivers with
    | false =>
      have skipped := runs_skipped useFabricHandle positive made
      constructor
      · rintro ⟨outcomes, runs, agree⟩
        have same := skipped.unique runs (fun _ _ => rfl)
        have released := agree.released 0 positive (by rw [← same 0 positive])
        rw [← same 0 positive] at released
        exact .inr (by simpa using released.1)
      · rintro (all | uncreated)
        · have first := all 0 positive
          unfold exported at made
          simp [Driver.succeeds, made] at first
        · refine ⟨_, skipped, ?_, .inr fun _ _ => rfl, ?_⟩
          · intro rank below other also
            rfl
          · intro rank below _
            simp [uncreated]
    | true =>
      obtain ⟨held, bound, first, checked⟩ := runs_checked useFabricHandle positive made
      constructor
      · rintro ⟨outcomes, runs, agree⟩
        have same := checked.unique runs (fun _ _ => rfl)
        left
        intro rank below
        by_contra fails
        have skips : (outcomes 0).maps = false := by
          rw [← same 0 positive]
          rw [all_eq_false]
          exact ⟨rank, mem_range.mpr below, fails⟩
        have released := (agree.released 0 positive skips).1
        rw [← same 0 positive] at released
        change held 0 = false at released
        rw [first] at released
        cases released
      · rintro (all | uncreated)
        · have maps : ((range size).all fun other => (drivers other).succeeds other) = true :=
            all_eq_true.mpr fun rank there => all rank (mem_range.mp there)
          refine ⟨_, checked, fun _ _ _ _ => rfl, .inl fun _ _ => maps, ?_⟩
          intro rank below skips
          rw [maps] at skips
          cases skips
        · unfold exported at made
          simp [uncreated] at made
  · obtain rfl : size = 0 := by omega
    have nobody (rank : Nat) : ¬rank < 0 := Nat.not_lt_zero rank
    refine ⟨fun _ => .inl fun rank below => absurd below (nobody rank), fun _ => ?_⟩
    exact ⟨fun _ => ⟨0, false, false, false⟩, .done fun rank below => absurd below (nobody rank),
      fun rank below => absurd below (nobody rank), .inr fun _ _ => rfl, fun _ _ _ => ⟨rfl, rfl⟩⟩

/-- Rank 1 cannot add its device: rank 0 keeps the object it created, and its memory bound. -/
theorem not_agree : ¬∃ outcomes, Runs 2 (fun rank => initMulticastForBlock false rank
    { create := true, exportToShareableHandle := true, importFromShareableHandle := true,
      addDevice := rank ≠ 1, bindMem := true }) outcomes ∧ Agree 2 outcomes := by
  rintro ⟨outcomes, runs, agree⟩
  have expected : Runs 2 (fun rank => initMulticastForBlock false rank
      { create := true, exportToShareableHandle := true, importFromShareableHandle := true,
        addDevice := rank ≠ 1, bindMem := true })
      (fun rank => ⟨1, false, true, decide (rank = 0)⟩) := by
    refine .gather (fun _ _ => rfl) (runs_checkAll (fun rank => decide (rank = 0)) ?_)
    intro rank below
    obtain rfl | rfl : rank = 0 ∨ rank = 1 := by omega
    · rfl
    · rfl
  have same := expected.unique runs (fun _ _ => rfl) 0 (by decide)
  have released := agree.released 0 (by decide) (by rw [← same])
  rw [← same] at released
  exact absurd released.1 (by decide)

end Setup

end TorchSupa.SymmMem.Multicast
