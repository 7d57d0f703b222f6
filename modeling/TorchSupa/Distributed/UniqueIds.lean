import TorchSupa.Logic.ShortNumerals

/-!
The strings that `ProcessGroupBCCL.cpp` makes of unique ids, and the dump map that uses them as
keys.
-/

namespace TorchSupa.Distributed

open ShortNumerals

def bcclUniqueIdBytes : Nat := 128

structure BcclUniqueId where
  internal : List UInt8
  length_internal : internal.length = bcclUniqueIdBytes

def hexadecimal (value : Nat) : String := String.ofList (Nat.toDigits 16 value)

def buildBcclUniqueIdStr (bcclID : BcclUniqueId) : String :=
  bcclID.internal.foldl (fun oss byte => oss ++ hexadecimal byte.toNat) ""

def addDump {Dump : Type} (bcclDumpMap : String → Option Dump) (bcclComm : BcclUniqueId × Dump) :
    String → Option Dump :=
  Function.update bcclDumpMap (buildBcclUniqueIdStr bcclComm.1) (some bcclComm.2)

def getBCCLCommDumpMap {Dump : Type} (allBCCLComms : List (BcclUniqueId × Dump)) :
    String → Option Dump :=
  allBCCLComms.foldl addDump fun _ => none

def BcclUniqueId.bytes (bcclID : BcclUniqueId) : List Nat := bcclID.internal.map UInt8.toNat

open List BcclUniqueId

theorem BcclUniqueId.bounded (bcclID : BcclUniqueId) : ∀ byte ∈ bcclID.bytes, byte < 16 * 16 := by
  intro byte member
  obtain ⟨source, _, rfl⟩ := mem_map.mp member
  exact source.toNat_lt

theorem BcclUniqueId.eq_of_bytes {left right : BcclUniqueId} (same : left.bytes = right.bytes) :
    left = right := by
  have internal : left.internal = right.internal :=
    map_injective_iff.mpr (fun _ _ equal => UInt8.toNat_inj.mp equal) same
  cases left
  cases right
  cases internal
  rfl

section Strings

theorem digitChar_inj : ∀ left < 16, ∀ right < 16, Nat.digitChar left = Nat.digitChar right →
    left = right := by
  decide

theorem map_digitChar_inj {left right : List Nat} (leftDigits : ∀ digit ∈ left, digit < 16)
    (rightDigits : ∀ digit ∈ right, digit < 16)
    (same : left.map Nat.digitChar = right.map Nat.digitChar) : left = right := by
  induction left generalizing right with
  | nil => exact (map_eq_nil_iff.mp same.symm).symm
  | cons digit rest ih =>
    cases right with
    | nil => cases same
    | cons other others =>
      obtain ⟨first, later⟩ := List.cons.inj same
      obtain ⟨leftFirst, leftRest⟩ := forall_mem_cons.mp leftDigits
      obtain ⟨rightFirst, rightRest⟩ := forall_mem_cons.mp rightDigits
      rw [digitChar_inj digit leftFirst other rightFirst first, ih leftRest rightRest later]

theorem toDigits_byte {byte : Nat} (bounded : byte < 16 * 16) :
    Nat.toDigits 16 byte = (digits 16 byte).map Nat.digitChar := by
  by_cases short : byte < 16
  · rw [Nat.toDigits_of_lt_base short, digits_of_short short]
    rfl
  · rw [Nat.toDigits_of_base_le (by decide) (by omega), digits_of_long (by omega),
      Nat.toDigits_of_lt_base (by omega)]
    rfl

theorem spell_digits {values : List Nat} (bounded : ∀ value ∈ values, value < 16 * 16) :
    ∀ digit ∈ spell 16 values, digit < 16 := by
  intro digit member
  obtain ⟨value, there, among⟩ := mem_flatMap.mp member
  have small := bounded value there
  unfold digits at among
  split at among
  · simp only [mem_singleton] at among
    omega
  · simp only [mem_cons, not_mem_nil, or_false] at among
    omega

theorem toList_buildBcclUniqueIdStr (bcclID : BcclUniqueId) :
    (buildBcclUniqueIdStr bcclID).toList = (spell 16 bcclID.bytes).map Nat.digitChar := by
  have printed : ∀ (internal : List UInt8) (oss : String),
      (internal.foldl (fun oss byte => oss ++ hexadecimal byte.toNat) oss).toList =
        oss.toList ++ (spell 16 (internal.map UInt8.toNat)).map Nat.digitChar := by
    intro internal
    induction internal with
    | nil => simp
    | cons byte rest ih =>
      intro oss
      have bounded : byte.toNat < 16 * 16 := byte.toNat_lt
      rw [foldl_cons, ih]
      simp [hexadecimal, toDigits_byte bounded]
  simpa [buildBcclUniqueIdStr, bytes] using printed bcclID.internal ""

theorem buildBcclUniqueIdStr_eq_iff (left right : BcclUniqueId) :
    buildBcclUniqueIdStr left = buildBcclUniqueIdStr right ↔
      spell 16 left.bytes = spell 16 right.bytes := by
  rw [← String.toList_inj, toList_buildBcclUniqueIdStr, toList_buildBcclUniqueIdStr]
  constructor
  · exact map_digitChar_inj (spell_digits left.bounded) (spell_digits right.bounded)
  · intro same
    rw [same]

end Strings

section Keys

/-- The bytes all have one digit; or the byte before a one-digit byte ends in 0, and a one-digit
byte before another byte is 0. -/
def BcclUniqueId.Unambiguous (bcclID : BcclUniqueId) : Prop :=
  ShortNumerals.Unambiguous 16 bcclID.bytes

theorem eq_of_buildBcclUniqueIdStr {bcclID other : BcclUniqueId} (unambiguous : bcclID.Unambiguous)
    (same : buildBcclUniqueIdStr other = buildBcclUniqueIdStr bcclID) : other = bcclID := by
  apply eq_of_bytes
  refine eq_of_spell (by decide) unambiguous ((buildBcclUniqueIdStr_eq_iff _ _).mp same) ?_
  simp [bytes, other.length_internal, bcclID.length_internal]

theorem exists_same_string {bcclID : BcclUniqueId} (ambiguous : ¬ bcclID.Unambiguous) :
    ∃ other, buildBcclUniqueIdStr other = buildBcclUniqueIdStr bcclID ∧ other ≠ bcclID := by
  obtain ⟨values, lengths, bounded, spells, different⟩ := exists_rival bcclID.bounded ambiguous
  have bytes : (values.map UInt8.ofNat).map UInt8.toNat = values := by
    rw [map_map]
    refine (map_congr_left fun value member => ?_).trans (map_id values)
    exact UInt8.toNat_ofNat_of_lt' (bounded value member)
  refine ⟨⟨values.map UInt8.ofNat, ?_⟩, ?_, ?_⟩
  · rw [length_map, lengths]
    simp [BcclUniqueId.bytes, bcclID.length_internal]
  · rw [buildBcclUniqueIdStr_eq_iff]
    unfold BcclUniqueId.bytes at spells ⊢
    rw [bytes, spells]
  · intro same
    apply different
    rw [← bytes]
    exact congrArg BcclUniqueId.bytes same

/-- The string of an id is that of no other id if and only if its bytes cannot be divided
differently. -/
theorem buildBcclUniqueIdStr_injective_iff (bcclID : BcclUniqueId) :
    (∀ other, buildBcclUniqueIdStr other = buildBcclUniqueIdStr bcclID → other = bcclID) ↔
      bcclID.Unambiguous := by
  constructor
  · intro alone
    by_contra ambiguous
    obtain ⟨other, same, different⟩ := exists_same_string ambiguous
    exact different (alone other same)
  · intro unambiguous other same
    exact eq_of_buildBcclUniqueIdStr unambiguous same

/-- No other communicator overwrites the dump of one whose string is that of no other id. -/
theorem getBCCLCommDumpMap_own {Dump : Type} {allBCCLComms : List (BcclUniqueId × Dump)}
    (distinct : (allBCCLComms.map Prod.fst).Nodup) {bcclComm : BcclUniqueId × Dump}
    (listed : bcclComm ∈ allBCCLComms) (unambiguous : bcclComm.1.Unambiguous) :
    getBCCLCommDumpMap allBCCLComms (buildBcclUniqueIdStr bcclComm.1) = some bcclComm.2 := by
  unfold getBCCLCommDumpMap
  induction allBCCLComms using reverseRecOn with
  | nil => cases listed
  | append_singleton earlier last ih =>
    rw [map_append, nodup_append] at distinct
    rw [foldl_concat, addDump]
    rcases mem_append.mp listed with before | same
    · have other := distinct.2.2 _ (mem_map_of_mem before) last.1 (by simp)
      rw [Function.update_of_ne fun same => other (eq_of_buildBcclUniqueIdStr unambiguous same.symm).symm]
      exact ih distinct.1 before
    · rw [mem_singleton.mp same, Function.update_self]

/-- The bytes 01 11 and 11 01 are both printed as 111. -/
theorem buildBcclUniqueIdStr_not_injective : ¬ ∀ left right : BcclUniqueId,
      buildBcclUniqueIdStr left = buildBcclUniqueIdStr right → left = right := by
  intro injective
  have same := injective ⟨0x01 :: 0x11 :: List.replicate 126 0, by simp [bcclUniqueIdBytes]⟩
    ⟨0x11 :: 0x01 :: List.replicate 126 0, by simp [bcclUniqueIdBytes]⟩ (by
      rw [buildBcclUniqueIdStr_eq_iff]
      simp [BcclUniqueId.bytes, digits])
  exact absurd (congrArg (fun bcclID => bcclID.internal.head?) same) (by decide)

end Keys

end TorchSupa.Distributed
