import TorchSupa.Logic.Labelling
import TorchSupa.Logic.Lists
import TorchSupa.Profiler.Dataflow
import Mathlib.Data.List.Dedup

/-!
Which tensor records `calculateUniqueTensorIDs` gives one id. The pairs are swept once, in their
order, so an allocation takes the id of the smallest earlier one that it is paired with.
-/

namespace TorchSupa.Profiler

open Lists Function List Nat

section Identity

def RawTensorInfo.key (t : RawTensorInfo) : StorageImplData × Device :=
  (t.storage, t.device)

variable (records : List RawTensorInfo)

def SameAllocation (i j : Nat) : Prop :=
  ∃ r s, records[i]? = some r ∧ records[j]? = some s ∧ r.key = s.key ∧
    ∀ k t, min i j ≤ k → k < max i j → records[k]? = some t → t.key = r.key → t.isFree = false

def SameImpl (i j : Nat) : Prop :=
  ∃ r s, records[i]? = some r ∧ records[j]? = some s ∧ r.impl = s.impl ∧ r.impl ≠ NoTensorImpl

def Connected : Nat → Nat → Prop :=
  Relation.EqvGen fun i j => SameAllocation records i j ∨ SameImpl records i j

def Seen (i : Nat) : Prop :=
  ∃ j r, SameAllocation records i j ∧ records[j]? = some r ∧ r.impl ≠ NoTensorImpl

def Before (i j : Nat) : Prop :=
  ∃ k, SameAllocation records k i ∧ ∀ l, SameAllocation records l j → k < l

/-- The allocation of one record is the first that some `TensorImpl` is seen with, and that of the
other is used by it as well. -/
def FirstOf (i j : Nat) : Prop :=
  ∃ k l, SameImpl records k l ∧ (∀ earlier < k, ¬SameImpl records earlier k) ∧
    SameAllocation records k i ∧ SameAllocation records l j

/-- The records with an id are those whose allocation is seen with a tensor, and two of them have
the same id if and only if they are connected. -/
structure Identified (ids : List (Option TensorID)) : Prop where
  length : ids.length = records.length
  seen : ∀ i < records.length, (∃ id, ids[i]? = some (some id)) ↔ Seen records i
  same : ∀ i j id other, ids[i]? = some (some id) → ids[j]? = some (some other) →
    (id = other ↔ Connected records i j)

end Identity

section Assigning

variable {records : List RawTensorInfo} {i j k : Nat}

theorem SameAllocation.symm (same : SameAllocation records i j) : SameAllocation records j i := by
  obtain ⟨r, s, first, second, keys, kept⟩ := same
  refine ⟨s, r, second, first, keys.symm, fun k t low high there => ?_⟩
  rw [← keys]
  exact kept k t (by omega) (by omega) there

theorem SameAllocation.inside (same : SameAllocation records i j) :
    i < records.length ∧ j < records.length := by
  obtain ⟨r, s, first, second, _⟩ := same
  exact ⟨(List.getElem?_eq_some_iff.mp first).1, (List.getElem?_eq_some_iff.mp second).1⟩

variable {last : RawTensorInfo}

open Option

theorem sameAllocation_concat (first : i < records.length) (second : j < records.length) :
    SameAllocation (records ++ [last]) i j ↔ SameAllocation records i j := by
  have before : ∀ k < records.length, (records ++ [last])[k]? = records[k]? :=
    fun k inside => getElem?_append_left inside
  unfold SameAllocation
  rw [before i first, before j second]
  constructor
  · rintro ⟨r, s, atFirst, atSecond, keys, kept⟩
    refine ⟨r, s, atFirst, atSecond, keys, fun k t low high there => ?_⟩
    exact kept k t low high (by rwa [before k (by omega)])
  · rintro ⟨r, s, atFirst, atSecond, keys, kept⟩
    refine ⟨r, s, atFirst, atSecond, keys, fun k t low high there => ?_⟩
    exact kept k t low high (by rwa [before k (by omega)] at there)

def Live (records : List RawTensorInfo) (key : StorageImplData × Device) (i : Nat) : Prop :=
  ∃ r, records[i]? = some r ∧ r.key = key ∧
    ∀ k t, i ≤ k → records[k]? = some t → t.key = key → t.isFree = false

theorem sameAllocation_last (inside : i < records.length) :
    SameAllocation (records ++ [last]) i records.length ↔ Live records last.key i := by
  have before : ∀ k < records.length, (records ++ [last])[k]? = records[k]? :=
    fun k inside => getElem?_append_left inside
  have atLast : (records ++ [last])[records.length]? = some last := by simp
  unfold SameAllocation Live
  rw [before i inside, atLast]
  constructor
  · rintro ⟨r, s, atFirst, atSecond, keys, kept⟩
    cases atSecond
    refine ⟨r, atFirst, keys, fun k t low there named => ?_⟩
    have within := (List.getElem?_eq_some_iff.mp there).1
    exact kept k t (by omega) (by omega) (by rwa [before k within]) (named.trans keys.symm)
  · rintro ⟨r, atFirst, keys, kept⟩
    refine ⟨r, last, atFirst, rfl, keys, fun k t low high there named => ?_⟩
    rw [before k (by omega)] at there
    exact kept k t (by omega) there (named.trans keys)

theorem SameAllocation.refl (inside : i < records.length) : SameAllocation records i i := by
  refine ⟨records[i], records[i], getElem?_eq_getElem inside, getElem?_eq_getElem inside,
    rfl, fun k t low high => ?_⟩
  omega

variable {key : StorageImplData × Device}

theorem live_concat : Live (records ++ [last]) key i ↔ (last.key = key → last.isFree = false) ∧
        (Live records key i ∨ i = records.length ∧ last.key = key) := by
  constructor
  · rintro ⟨r, there, named, kept⟩
    constructor
    · intro same
      have inside := (List.getElem?_eq_some_iff.mp there).1
      rw [length_append, length_singleton] at inside
      exact kept records.length last (by omega) (by simp) same
    · rcases getElem?_concat.mp there with old | ⟨rfl, rfl⟩
      · exact .inl ⟨r, old, named, fun k t low at' => kept k t low (getElem?_concat.mpr (.inl at'))⟩
      · exact .inr ⟨rfl, named⟩
  · rintro ⟨fine, ⟨r, there, named, kept⟩ | ⟨rfl, named⟩⟩
    · refine ⟨r, getElem?_concat.mpr (.inl there), named, fun k t low at' same => ?_⟩
      rcases getElem?_concat.mp at' with old | ⟨rfl, rfl⟩
      · exact kept k t low old same
      · exact fine same
    · refine ⟨last, by simp, named, fun k t low at' same => ?_⟩
      rcases getElem?_concat.mp at' with old | ⟨rfl, rfl⟩
      · exact absurd (List.getElem?_eq_some_iff.mp old).1 (by omega)
      · exact fine same

theorem Live.same (first : Live records key i)
    (second : Live records key j) : SameAllocation records i j := by
  obtain ⟨r, atFirst, rfl, kept⟩ := first
  obtain ⟨s, atSecond, keys, also⟩ := second
  refine ⟨r, s, atFirst, atSecond, keys.symm, fun k t low high there named => ?_⟩
  rcases le_total i j with before | after
  · exact kept k t (by omega) there named
  · exact also k t (by omega) there named

theorem Live.of_same (live : Live records key j)
    (same : SameAllocation records i j) : Live records key i := by
  obtain ⟨s, atSecond, rfl, kept⟩ := live
  obtain ⟨r, s', atFirst, at', keys, between⟩ := same
  obtain rfl := mem_unique at' atSecond
  refine ⟨r, atFirst, keys, fun k t low there named => ?_⟩
  rcases le_or_gt j k with after | before
  · exact kept k t after there named
  · exact between k t (by omega) (by omega) there (named.trans keys.symm)

structure Assigned (records : List RawTensorInfo) (ids : List Nat) (counter : Nat)
    (versions : StorageImplData × Device → Option Nat) : Prop where
  length : ids.length = records.length
  table : ∀ key id, versions key = some id ↔ ∃ i : Nat, Live records key i ∧ ids[i]? = some id
  same : ∀ (i j : Nat) (id other : Nat), ids[i]? = some id → ids[j]? = some other →
    (id = other ↔ SameAllocation records i j)
  positive : 1 ≤ counter
  range : ∀ (i : Nat) (id : Nat), ids[i]? = some id → 1 ≤ id ∧ id < counter
  earlier : ∀ (i : Nat) (id : Nat), ids[i]? = some id →
    ∀ low, 1 ≤ low → low < id → ∃ k < i, ids[k]? = some low
  used : ∀ id, 1 ≤ id → id < counter → ∃ i : Nat, ids[i]? = some id

theorem assigned_nil : Assigned [] [] 1 fun _ => none where
  length := rfl
  table key id := by simp
  same i j id other here := by simp at here
  positive := le_refl 1
  range i id here := by simp at here
  earlier i id here := by simp at here
  used id low high := by omega

@[simp] theorem insert_same {κ ν : Type} [DecidableEq κ] (table : κ → Option ν) (key : κ) (value : ν) :
    insert table key value key = some (inserted table key value) := by
  cases found : table key <;> simp [insert, inserted, found]

theorem insert_other {κ ν : Type} [DecidableEq κ] (table : κ → Option ν) {key other : κ} (value : ν)
    (differs : other ≠ key) : insert table key value other = table other := by
  unfold insert
  split
  · rfl
  · exact update_of_ne differs _ _

variable {ids : List Nat} {counter : Nat}
  {versions : StorageImplData × Device → Option Nat}

theorem Assigned.next (assigned : Assigned records ids counter versions)
    (key : StorageImplData × Device) {id : Nat} (there : ids[i]? = some id) :
    id = inserted versions key counter ↔ Live records key i := by
  cases found : versions key with
  | none =>
    have small := (assigned.range i id there).2
    simp only [inserted, found, getD_none]
    constructor
    · omega
    · intro live
      have known := (assigned.table key id).mpr ⟨i, live, there⟩
      simp [found] at known
  | some known =>
    obtain ⟨j, live, at'⟩ := (assigned.table key known).mp found
    simp only [inserted, found, getD_some]
    rw [assigned.same i j id known there at']
    exact ⟨live.of_same, fun also => also.same live⟩

theorem Assigned.concat (assigned : Assigned records ids counter versions) (t : RawTensorInfo) :
    Assigned (records ++ [t]) (ids ++ [inserted versions t.key counter])
      (if (versions t.key).isSome then counter else counter + 1)
      (if t.isFree then update (insert versions t.key counter) t.key none
        else insert versions t.key counter) := by
  have next : ∀ i id : Nat, ids[i]? = some id →
      (id = inserted versions t.key counter ↔ Live records t.key i) :=
    fun _ _ there => assigned.next t.key there
  have inside : ∀ (i : Nat) (id : Nat), ids[i]? = some id → i < records.length :=
    fun i id there => assigned.length ▸ (List.getElem?_eq_some_iff.mp there).1
  have positive := assigned.positive
  have new : (versions t.key).isSome ∧ inserted versions t.key counter < counter ∧
        1 ≤ inserted versions t.key counter ∨
      versions t.key = none ∧ inserted versions t.key counter = counter := by
    cases found : versions t.key with
    | none => exact .inr ⟨rfl, by simp [inserted, found]⟩
    | some known =>
      obtain ⟨j, _, at'⟩ := (assigned.table t.key known).mp found
      obtain ⟨low, high⟩ := assigned.range j known at'
      exact .inl ⟨rfl, by simpa [inserted, found] using high, by simpa [inserted, found] using low⟩
  constructor
  · simp [assigned.length]
  · intro key id
    by_cases here : key = t.key
    · subst here
      have reach : (∃ i, Live (records ++ [t]) t.key i ∧
          (ids ++ [inserted versions t.key counter])[i]? = some id) ↔
            t.isFree = false ∧ inserted versions t.key counter = id := by
        constructor
        · rintro ⟨i, live, there⟩
          obtain ⟨fine, cases⟩ := live_concat.mp live
          refine ⟨fine rfl, ?_⟩
          rcases getElem?_concat.mp there with old | ⟨_, rfl⟩
          · rcases cases with before | ⟨rfl, _⟩
            · exact ((next i id old).mpr before).symm
            · exact absurd (inside _ id old) (lt_irrefl _)
          · rfl
        · rintro ⟨fine, rfl⟩
          refine ⟨records.length, live_concat.mpr ⟨fun _ => fine, .inr ⟨rfl, rfl⟩⟩, ?_⟩
          exact getElem?_concat.mpr (.inr ⟨assigned.length.symm, rfl⟩)
      rw [reach]
      cases t.isFree <;> simp
    · have same : (if t.isFree then update (insert versions t.key counter) t.key none
          else insert versions t.key counter) key = versions key := by
        split
        · rw [update_of_ne here, insert_other _ _ here]
        · exact insert_other _ _ here
      rw [same, assigned.table]
      constructor
      · rintro ⟨i, live, there⟩
        refine ⟨i, live_concat.mpr ⟨fun again => absurd again.symm here, .inl live⟩, ?_⟩
        exact getElem?_concat.mpr (.inl there)
      · rintro ⟨i, live, there⟩
        obtain ⟨_, before | ⟨_, again⟩⟩ := live_concat.mp live
        · rcases getElem?_concat.mp there with old | ⟨rfl, _⟩
          · exact ⟨i, before, old⟩
          · obtain ⟨r, at', _⟩ := before
            have within := (List.getElem?_eq_some_iff.mp at').1
            exact absurd assigned.length (by omega)
        · exact absurd again.symm here
  · intro i j id other first second
    rcases getElem?_concat.mp first with old | ⟨rfl, rfl⟩ <;>
      rcases getElem?_concat.mp second with also | ⟨rfl, rfl⟩
    · rw [sameAllocation_concat (inside i id old) (inside j other also)]
      exact assigned.same i j id other old also
    · rw [assigned.length, sameAllocation_last (inside i id old)]
      exact assigned.next t.key old
    · rw [assigned.length, eq_comm, assigned.next t.key also, ← sameAllocation_last (inside j other also)]
      exact ⟨SameAllocation.symm, SameAllocation.symm⟩
    · exact iff_of_true rfl (.refl (by simp [assigned.length]))
  · split <;> omega
  · intro i id there
    rcases getElem?_concat.mp there with old | ⟨rfl, rfl⟩
    · have range := assigned.range i id old
      split <;> omega
    · rcases new with ⟨found, less, low⟩ | ⟨found, same⟩
      · simp [found, less, low]
      · simp [found, same, positive]
  · intro i id there low one less
    rcases getElem?_concat.mp there with old | ⟨rfl, rfl⟩
    · obtain ⟨k, before, at'⟩ := assigned.earlier i id old low one less
      exact ⟨k, before, getElem?_concat.mpr (.inl at')⟩
    · obtain ⟨k, at'⟩ := assigned.used low one (by omega)
      exact ⟨k, assigned.length ▸ inside k low at', getElem?_concat.mpr (.inl at')⟩
  · intro id low high
    rcases lt_or_ge id counter with less | more
    · obtain ⟨k, at'⟩ := assigned.used id low less
      exact ⟨k, getElem?_concat.mpr (.inl at')⟩
    · rcases new with ⟨found, _⟩ | ⟨found, same⟩
      · simp only [found, if_true] at high
        omega
      · simp only [found, Option.isSome_none, Bool.false_eq_true, if_false] at high
        exact ⟨ids.length, getElem?_concat.mpr (.inr ⟨rfl, by omega⟩)⟩

theorem Assigned.all (rest : List RawTensorInfo) (assigned : Assigned records ids counter versions) :
    ∃ after table, Assigned (records ++ rest) (ids ++ assignAllocations counter versions rest) after
      table := by
  induction rest generalizing records ids counter versions with
  | nil => exact ⟨counter, versions, by simpa [assignAllocations] using assigned⟩
  | cons t rest ih =>
    obtain ⟨after, table, done⟩ := ih (assigned.concat t)
    refine ⟨after, table, ?_⟩
    simp only [append_assoc, singleton_append] at done
    exact done

theorem Assigned.before (assigned : Assigned records ids counter versions) {first second : Nat}
    (atFirst : ids[i]? = some first) (atSecond : ids[j]? = some second) :
    first < second ↔ Before records i j := by
  have inside : ∀ l, SameAllocation records l j → ids[l]? = some second := by
    intro l same
    have within : l < ids.length := assigned.length ▸ same.inside.1
    have there := getElem?_eq_getElem within
    rw [there, ((assigned.same l j _ second there atSecond).mpr same)]
  constructor
  · intro less
    have some : ∃ k : Nat, ids[k]? = some first := ⟨i, atFirst⟩
    have low := (assigned.range i first atFirst).1
    refine ⟨Nat.find some, (assigned.same _ i _ _ (Nat.find_spec some) atFirst).mp rfl, fun l same => ?_⟩
    obtain ⟨k, before, there⟩ := assigned.earlier l second (inside l same) first low less
    exact Nat.lt_of_le_of_lt (Nat.find_min' some there) before
  · rintro ⟨k, same, ahead⟩
    have within : k < ids.length := assigned.length ▸ same.inside.1
    have there := getElem?_eq_getElem within
    have equal := (assigned.same k i _ first there atFirst).mpr same
    rw [equal] at there
    rcases lt_trichotomy first second with less | rfl | more
    · exact less
    · exact absurd (ahead k ((assigned.same k j _ _ there atSecond).mp rfl)) (lt_irrefl k)
    · have low := (assigned.range j second atSecond).1
      obtain ⟨l, before, at'⟩ := assigned.earlier k first there second low more
      have after := ahead l ((assigned.same l j _ _ at' atSecond).mp rfl)
      omega

end Assigning

section Coalescing

variable {pairs : List (Nat × Nat)} {idMap : Nat → Option TensorID} {currentId : Nat}

def Edge (pairs : List (Nat × Nat)) (low high : Nat) : Prop :=
  (low, high) ∈ pairs

structure Coalesced (pairs : List (Nat × Nat)) (currentId : Nat) (idMap : Nat → Option TensorID) :
    Prop where
  below : ∀ (allocation id : Nat), idMap allocation = some id → id < currentId
  down : ∀ (allocation id : Nat), idMap allocation = some id →
    ¬Labelling.Root (Edge pairs) allocation →
    ∃ smaller < allocation, Edge pairs smaller allocation ∧ idMap smaller = some id
  fresh : ∀ (one other id : Nat), idMap one = some id → idMap other = some id →
    Labelling.Root (Edge pairs) one → Labelling.Root (Edge pairs) other → one = other

theorem Coalesced.low (coalesced : Coalesced pairs currentId idMap) {low : Nat}
    (swept : ∀ smaller < low, Edge pairs smaller low → (idMap low).isSome) :
    Coalesced pairs (if (idMap low).isSome then currentId else currentId + 1)
      (insert idMap low currentId) := by
  cases found : idMap low with
  | some id => simpa [insert, found] using coalesced
  | none =>
    have isRoot : Labelling.Root (Edge pairs) low := by
      intro smaller less joined
      simpa [found] using swept smaller less joined
    have cases : ∀ (allocation id : Nat), insert idMap low currentId allocation = some id →
        allocation = low ∧ id = currentId ∨ allocation ≠ low ∧ idMap allocation = some id := by
      intro allocation id there
      by_cases here : allocation = low
      · subst here
        rw [insert_same] at there
        exact .inl ⟨rfl, by simpa [inserted, found] using there.symm⟩
      · rw [insert_other _ _ here] at there
        exact .inr ⟨here, there⟩
    simp only [Option.isSome_none, Bool.false_eq_true, if_false]
    constructor
    · intro allocation id there
      rcases cases allocation id there with ⟨_, rfl⟩ | ⟨_, old⟩
      · exact lt_succ_self _
      · exact lt_succ_of_lt (coalesced.below allocation id old)
    · intro allocation id there grounded
      rcases cases allocation id there with ⟨rfl, _⟩ | ⟨_, old⟩
      · exact absurd isRoot grounded
      · obtain ⟨smaller, less, joined, same⟩ := coalesced.down allocation id old grounded
        refine ⟨smaller, less, joined, ?_⟩
        rw [insert_other]
        · exact same
        · rintro rfl
          simp [found] at same
    · intro one other id first second isOne isOther
      rcases cases one id first with ⟨rfl, rfl⟩ | ⟨_, old⟩ <;>
        rcases cases other _ second with ⟨rfl, again⟩ | ⟨_, also⟩
      · rfl
      · exact absurd (coalesced.below other _ also) (lt_irrefl _)
      · exact absurd (coalesced.below one id old) (again ▸ lt_irrefl _)
      · exact coalesced.fresh one other id old also isOne isOther

theorem Coalesced.high (coalesced : Coalesced pairs currentId idMap) {low high id : Nat}
    (ordered : low ≤ high) (joined : Edge pairs low high) (named : idMap low = some id) :
    Coalesced pairs currentId (insert idMap high id) := by
  cases found : idMap high with
  | some known => simpa [insert, found] using coalesced
  | none =>
    have less : low < high := by
      refine lt_of_le_of_ne ordered ?_
      rintro rfl
      simp [found] at named
    have cases : ∀ (allocation other : Nat), insert idMap high id allocation = some other →
        allocation = high ∧ other = id ∨ allocation ≠ high ∧ idMap allocation = some other := by
      intro allocation other there
      by_cases here : allocation = high
      · subst here
        rw [insert_same] at there
        exact .inl ⟨rfl, by simpa [inserted, found] using there.symm⟩
      · rw [insert_other _ _ here] at there
        exact .inr ⟨here, there⟩
    have known : ∀ (allocation other : Nat), idMap allocation = some other →
        insert idMap high id allocation = some other := by
      intro allocation other there
      rw [insert_other]
      · exact there
      · rintro rfl
        simp [found] at there
    constructor
    · intro allocation other there
      rcases cases allocation other there with ⟨_, rfl⟩ | ⟨_, old⟩
      · exact coalesced.below low _ named
      · exact coalesced.below allocation other old
    · intro allocation other there grounded
      rcases cases allocation other there with ⟨rfl, rfl⟩ | ⟨_, old⟩
      · exact ⟨low, less, joined, known low _ named⟩
      · obtain ⟨smaller, less, joined, same⟩ := coalesced.down allocation other old grounded
        exact ⟨smaller, less, joined, known smaller other same⟩
    · intro one other label first second isOne isOther
      rcases cases one label first with ⟨rfl, _⟩ | ⟨_, old⟩
      · exact absurd joined (isOne low less)
      · rcases cases other label second with ⟨rfl, _⟩ | ⟨_, also⟩
        · exact absurd joined (isOther low less)
        · exact coalesced.fresh one other label old also isOne isOther

theorem Coalesced.sweep {done : List (Nat × Nat)} (rest : List (Nat × Nat))
    (coalesced : Coalesced (done ++ rest) currentId idMap)
    (sorted : (done ++ rest).Pairwise pairLe) (ordered : ∀ pair ∈ done ++ rest, pair.1 ≤ pair.2)
    (known : ∀ allocation, (idMap allocation).isSome ↔
      ∃ pair ∈ done, pair.1 = allocation ∨ pair.2 = allocation) :
    ∃ lastId, Coalesced (done ++ rest) lastId (coalesce currentId idMap rest) ∧
      ∀ allocation, (coalesce currentId idMap rest allocation).isSome ↔
        ∃ pair ∈ done ++ rest, pair.1 = allocation ∨ pair.2 = allocation := by
  induction rest generalizing done currentId idMap with
  | nil => exact ⟨currentId, coalesced, by simpa [coalesce] using known⟩
  | cons pair rest ih =>
    obtain ⟨low, high⟩ := pair
    have swept : ∀ smaller < low, Edge (done ++ (low, high) :: rest) smaller low →
        (idMap low).isSome := by
      intro smaller less joined
      rcases mem_append.mp joined with earlier | later
      · exact (known low).mpr ⟨_, earlier, .inr rfl⟩
      · have after := (pairwise_append.mp sorted).2.1
        rcases mem_cons.mp later with same | later
        · exact absurd (congrArg Prod.fst same) (Nat.ne_of_lt less)
        · have ahead := rel_of_pairwise_cons after later
          simp only [pairLe] at ahead
          omega
    have joined : Edge (done ++ (low, high) :: rest) low high := mem_append_right _ (.head _)
    have both := (coalesced.low swept).high (ordered _ joined) joined (insert_same idMap low currentId)
    have split : done ++ (low, high) :: rest = done ++ [(low, high)] ++ rest := by simp
    rw [split] at both sorted ordered ⊢
    have next := ih both sorted ordered ?_
    · rw [coalesce]
      exact next
    · intro allocation
      have here : (insert (insert idMap low currentId) high (inserted idMap low currentId)
          allocation).isSome ↔
          (idMap allocation).isSome ∨ low = allocation ∨ high = allocation := by
        by_cases isHigh : allocation = high
        · subst isHigh
          simp
        · rw [insert_other _ _ isHigh]
          by_cases isLow : allocation = low
          · subst isLow
            simp
          · rw [insert_other _ _ isLow]
            simp [Ne.symm isHigh, Ne.symm isLow]
      rw [here, known]
      simp [or_and_right, exists_or]

instance : Std.Total pairLe where
  total one other := by
    simp only [pairLe]
    omega

instance : IsTrans (Nat × Nat) pairLe where
  trans one other third := by
    simp only [pairLe]
    omega

theorem coalesced_all {unsorted : List (Nat × Nat)} (ordered : ∀ pair ∈ unsorted, pair.1 ≤ pair.2)
    (idMap : Nat → Option TensorID)
    (swept : idMap = coalesce 0 (fun _ => none) (unsorted.dedup.insertionSort pairLe)) :
    Labelling.Descends (fun allocation => (idMap allocation).isSome) (Edge unsorted) idMap ∧
      ∀ allocation, (idMap allocation).isSome ↔
        ∃ pair ∈ unsorted, pair.1 = allocation ∨ pair.2 = allocation := by
  have member : ∀ pair, pair ∈ unsorted.dedup.insertionSort pairLe ↔ pair ∈ unsorted :=
    fun pair => (mem_insertionSort pairLe).trans mem_dedup
  have empty : Coalesced ([] ++ unsorted.dedup.insertionSort pairLe) 0 fun _ => none := by
    constructor <;> simp
  obtain ⟨lastId, coalesced, known⟩ := empty.sweep _ (pairwise_insertionSort pairLe _)
    (fun pair inside => ordered pair ((member pair).mp inside)) (by simp)
  rw [← swept] at coalesced known
  have edges : Edge ([] ++ unsorted.dedup.insertionSort pairLe) = Edge unsorted := by
    funext low high
    exact propext (member (low, high))
  simp only [nil_append, member] at known
  refine ⟨⟨?_, ?_, ?_⟩, known⟩
  · intro low high joined
    exact ⟨(known low).mpr ⟨_, joined, .inl rfl⟩, (known high).mpr ⟨_, joined, .inr rfl⟩⟩
  · intro allocation there grounded
    obtain ⟨id, named⟩ := Option.isSome_iff_exists.mp there
    obtain ⟨smaller, less, joined, same⟩ := coalesced.down allocation id named (by rwa [edges])
    rw [edges] at joined
    exact ⟨smaller, less, joined, same.trans named.symm⟩
  · intro one other first _ isOne isOther same
    obtain ⟨id, named⟩ := Option.isSome_iff_exists.mp first
    rw [← edges] at isOne isOther
    exact coalesced.fresh one other id named (same ▸ named) isOne isOther

end Coalescing

section Pairing

variable {tensors : List (RawTensorInfo × Nat)} {low high : Nat}

def firstSeen (implMap : TensorImplAddress → Option Nat) (tensors : List (RawTensorInfo × Nat))
    (impl : TensorImplAddress) : Option Nat :=
  (implMap impl).or ((tensors.find? (·.1.impl == impl)).map (·.2))

def Sorted (first allocation low high : Nat) : Prop :=
  low = first ∧ high = allocation ∧ low ≤ high ∨ low = allocation ∧ high = first ∧ low ≤ high

theorem sorted_iff (first allocation : Nat) :
    (low, high) = (if first < allocation then (first, allocation) else (allocation, first)) ↔
      Sorted first allocation low high := by
  unfold Sorted
  split <;> simp only [Prod.mk.injEq] <;> omega

theorem mem_sameGroup (implMap : TensorImplAddress → Option Nat) :
    (low, high) ∈ sameGroup implMap tensors ↔ ∃ t ∈ tensors, t.1.impl ≠ NoTensorImpl ∧
      ∃ first, firstSeen implMap tensors t.1.impl = some first ∧ Sorted first t.2 low high := by
  induction tensors generalizing implMap with
  | nil => simp [sameGroup]
  | cons head rest ih =>
    obtain ⟨t, allocation⟩ := head
    by_cases storage : t.impl = NoTensorImpl
    · have skip : ∀ impl, impl ≠ NoTensorImpl →
          firstSeen implMap ((t, allocation) :: rest) impl = firstSeen implMap rest impl := by
        intro impl some
        simp [firstSeen, storage, Ne.symm some]
      simp only [sameGroup, storage, if_true, ih, mem_cons, exists_eq_or_imp, ne_eq,
        not_true_eq_false, false_and, false_or]
      apply exists_congr
      intro other
      refine and_congr_right fun _ => and_congr_right fun some => ?_
      rw [skip other.1.impl some]
    · have here : firstSeen implMap ((t, allocation) :: rest) t.impl =
          some (inserted implMap t.impl allocation) := by
        cases found : implMap t.impl <;> simp [firstSeen, inserted, found]
      have there : ∀ impl, firstSeen (insert implMap t.impl allocation) rest impl =
          firstSeen implMap ((t, allocation) :: rest) impl := by
        intro impl
        by_cases same : impl = t.impl
        · rw [same, here, firstSeen, insert_same, Option.some_or]
        · rw [firstSeen, insert_other _ _ same, firstSeen]
          simp [Ne.symm same]
      simp only [sameGroup, storage, if_false, mem_cons, sorted_iff, ih, there,
        exists_eq_or_imp, here, Option.some.injEq, exists_eq_left', ne_eq, not_false_eq_true, true_and]

theorem sameGroup_filter (implMap : TensorImplAddress → Option Nat)
    (keep : RawTensorInfo × Nat → Bool)
    (kept : ∀ t ∈ tensors, t.1.impl ≠ NoTensorImpl → keep t = true) :
    sameGroup implMap (tensors.filter keep) = sameGroup implMap tensors := by
  induction tensors generalizing implMap with
  | nil => rfl
  | cons head rest ih =>
    have ih := fun implMap => ih implMap fun t member => kept t (.tail _ member)
    obtain ⟨t, allocation⟩ := head
    by_cases storage : t.impl = NoTensorImpl
    · simp only [filter_cons]
      split <;> simp [sameGroup, storage, ih]
    · rw [filter_cons_of_pos (kept _ (.head _) storage)]
      simp [sameGroup, storage, ih]

end Pairing

section Together

variable {records : List RawTensorInfo} {ids : List Nat} {counter : Nat}
  {versions : StorageImplData × Device → Option Nat} {i j a b : Nat}

theorem Assigned.id_of_inside (assigned : Assigned records ids counter versions)
    (inside : i < records.length) : ∃ id, ids[i]? = some id :=
  ⟨_, getElem?_eq_getElem (assigned.length.symm ▸ inside)⟩

theorem Assigned.of_same (assigned : Assigned records ids counter versions)
    (same : SameAllocation records i j) (there : ids[j]? = some a) : ids[i]? = some a := by
  obtain ⟨id, here⟩ := assigned.id_of_inside same.inside.1
  rw [here, (assigned.same i j id a here there).mpr same]

theorem Seen.inside (seen : Seen records i) : i < records.length := by
  obtain ⟨_, _, same, _⟩ := seen
  exact same.inside.1

theorem mem_zip_iff {t : RawTensorInfo} :
    (t, a) ∈ records.zip ids ↔ ∃ i : Nat, records[i]? = some t ∧ ids[i]? = some a := by
  simp only [mem_iff_getElem?, getElem?_zip_eq_some]

theorem Assigned.mem_tensorSet (assigned : Assigned records ids counter versions)
    (there : ids[i]? = some a) : a ∈ tensorSet (records.zip ids) ↔ Seen records i := by
  simp only [tensorSet, mem_map, mem_filter, decide_eq_true_eq, Prod.exists,
    exists_eq_right, mem_zip_iff, Seen]
  constructor
  · rintro ⟨r, ⟨j, atJ, at'⟩, used⟩
    exact ⟨j, r, (assigned.same i j a a there at').mp rfl, atJ, used⟩
  · rintro ⟨j, r, same, atJ, used⟩
    exact ⟨r, ⟨j, atJ, assigned.of_same same.symm there⟩, used⟩

theorem firstSeen_iff {impl : TensorImplAddress} {first : Nat} :
    firstSeen (fun _ => none) (records.zip ids) impl = some first ↔
      ∃ (k : Nat) (r : RawTensorInfo), records[k]? = some r ∧ r.impl = impl ∧ ids[k]? = some first ∧
        ∀ earlier < k, ∀ s : RawTensorInfo, records[earlier]? = some s → s.impl ≠ impl := by
  simp only [firstSeen, Option.none_or, Option.map_eq_some_iff, Prod.exists, exists_eq_right,
    List.find?_eq_some_iff_getElem, beq_iff_eq]
  constructor
  · rintro ⟨r, named, k, inside, here, before⟩
    have at' := (List.getElem?_eq_some_iff.mpr ⟨inside, here⟩)
    obtain ⟨atRecord, atId⟩ := List.getElem?_zip_eq_some.mp at'
    refine ⟨k, r, atRecord, named, atId, fun earlier less s there => ?_⟩
    have apart := before earlier less
    rw [List.getElem_zip] at apart
    rw [← Option.some.inj ((List.getElem?_eq_getElem _).symm.trans there)]
    simpa using apart
  · rintro ⟨k, r, atRecord, named, atId, before⟩
    have at' : (records.zip ids)[k]? = some (r, first) :=
      List.getElem?_zip_eq_some.mpr ⟨atRecord, atId⟩
    obtain ⟨inside, here⟩ := List.getElem?_eq_some_iff.mp at'
    refine ⟨r, named, k, inside, here, fun earlier less => ?_⟩
    rw [List.getElem_zip]
    simpa using before earlier less _ (List.getElem?_eq_getElem _)

def pairsOf (records : List RawTensorInfo) (ids : List Nat) : List (Nat × Nat) :=
  sameGroup (fun _ => none) ((records.zip ids).filter (·.2 ∈ tensorSet (records.zip ids)))

theorem edge_iff {low high : Nat} : Edge (pairsOf records ids) low high ↔ low ≤ high ∧
      ∃ k l : Nat, SameImpl records k l ∧ (∀ earlier < k, ¬SameImpl records earlier k) ∧
        (ids[k]? = some low ∧ ids[l]? = some high ∨ ids[k]? = some high ∧ ids[l]? = some low) := by
  have kept : ∀ t ∈ records.zip ids, t.1.impl ≠ NoTensorImpl →
      decide (t.2 ∈ tensorSet (records.zip ids)) = true := by
    intro t member used
    exact decide_eq_true (mem_map.mpr ⟨t, mem_filter.mpr ⟨member, by simpa using used⟩, rfl⟩)
  rw [Edge, pairsOf, sameGroup_filter _ _ kept, mem_sameGroup]
  constructor
  · rintro ⟨⟨t, a⟩, member, used, first, seen, sorted⟩
    obtain ⟨l, atRecord, atId⟩ := mem_zip_iff.mp member
    obtain ⟨k, r, atFirst, named, here, before⟩ := firstSeen_iff.mp seen
    have sameImpl : SameImpl records k l := ⟨r, t, atFirst, atRecord, named, named ▸ used⟩
    have earliest : ∀ earlier < k, ¬SameImpl records earlier k := by
      rintro earlier less ⟨s, r', there, again, same, _⟩
      obtain rfl := Option.mem_unique again atFirst
      exact before earlier less s there (same.trans named)
    rcases sorted with ⟨rfl, rfl, ordered⟩ | ⟨rfl, rfl, ordered⟩
    · exact ⟨ordered, k, l, sameImpl, earliest, .inl ⟨here, atId⟩⟩
    · exact ⟨ordered, k, l, sameImpl, earliest, .inr ⟨here, atId⟩⟩
  · rintro ⟨ordered, k, l, ⟨r, t, atFirst, atRecord, named, used⟩, earliest, ends⟩
    have before : ∀ earlier < k, ∀ s : RawTensorInfo, records[earlier]? = some s →
        s.impl ≠ t.impl := by
      intro earlier less s there same
      exact earliest earlier less ⟨s, r, there, atFirst, same.trans named.symm, by
        rw [same, ← named]; exact used⟩
    rcases ends with ⟨here, atId⟩ | ⟨here, atId⟩
    · exact ⟨(t, high), mem_zip_iff.mpr ⟨l, atRecord, atId⟩, named ▸ used, low,
        firstSeen_iff.mpr ⟨k, r, atFirst, named, here, before⟩, .inl ⟨rfl, rfl, ordered⟩⟩
    · exact ⟨(t, low), mem_zip_iff.mpr ⟨l, atRecord, atId⟩, named ▸ used, high,
        firstSeen_iff.mpr ⟨k, r, atFirst, named, here, before⟩, .inr ⟨rfl, rfl, ordered⟩⟩

theorem SameImpl.inside (same : SameImpl records i j) : i < records.length ∧ j < records.length := by
  obtain ⟨r, s, first, second, _⟩ := same
  exact ⟨(List.getElem?_eq_some_iff.mp first).1, (List.getElem?_eq_some_iff.mp second).1⟩

theorem exists_first (same : SameImpl records i j) :
    ∃ k, SameImpl records k i ∧ ∀ earlier < k, ¬SameImpl records earlier k := by
  have loop : ∃ k, SameImpl records k i := by
    obtain ⟨r, s, atFirst, atSecond, named, used⟩ := same
    exact ⟨i, r, r, atFirst, atFirst, rfl, used⟩
  classical
  refine ⟨Nat.find loop, Nat.find_spec loop, fun earlier less also => ?_⟩
  obtain ⟨r, s, atFirst, atSecond, named, used⟩ := Nat.find_spec loop
  obtain ⟨t, r', atEarlier, again, same', used'⟩ := also
  obtain rfl := Option.mem_unique again atFirst
  exact Nat.find_min loop less ⟨t, s, atEarlier, atSecond, same'.trans named, used'⟩

variable (assigned : Assigned records ids counter versions)
include assigned

theorem Assigned.joined
    (same : SameImpl records i j) (atI : ids[i]? = some a) (atJ : ids[j]? = some b) :
    Relation.EqvGen (Edge (pairsOf records ids)) a b := by
  obtain ⟨k, sameI, earliest⟩ := exists_first same
  obtain ⟨first, atFirst⟩ := assigned.id_of_inside sameI.inside.1
  have sameJ : SameImpl records k j := by
    obtain ⟨r, s, one, two, named, used⟩ := sameI
    obtain ⟨s', t, again, three, also, _⟩ := same
    obtain rfl := Option.mem_unique again two
    exact ⟨r, t, one, three, named.trans also, used⟩
  have star : ∀ (l c : Nat), SameImpl records k l → ids[l]? = some c →
      Relation.EqvGen (Edge (pairsOf records ids)) first c := by
    intro l c also atL
    rcases le_total first c with less | more
    · exact .rel _ _ (edge_iff.mpr ⟨less, k, l, also, earliest, .inl ⟨atFirst, atL⟩⟩)
    · exact .symm _ _ (.rel _ _ (edge_iff.mpr ⟨more, k, l, also, earliest, .inr ⟨atFirst, atL⟩⟩))
  exact .trans _ _ _ (.symm _ _ (star i a sameI atI)) (star j b sameJ atJ)

theorem Assigned.connected_iff (atI : ids[i]? = some a) (atJ : ids[j]? = some b) :
    Relation.EqvGen (Edge (pairsOf records ids)) a b ↔ Connected records i j := by
  constructor
  · intro connected
    have reach : a = b ∨ ∃ k l : Nat, ids[k]? = some a ∧ ids[l]? = some b ∧ Connected records k l := by
      clear atI atJ
      induction connected with
      | rel low high joined =>
        obtain ⟨_, k, l, same, _, ends⟩ := edge_iff.mp joined
        rcases ends with ⟨atLow, atHigh⟩ | ⟨atHigh, atLow⟩
        · exact .inr ⟨k, l, atLow, atHigh, .rel _ _ (.inr same)⟩
        · exact .inr ⟨l, k, atLow, atHigh, .symm _ _ (.rel _ _ (.inr same))⟩
      | refl allocation => exact .inl rfl
      | symm one other _ ih =>
        rcases ih with rfl | ⟨k, l, atK, atL, reached⟩
        · exact .inl rfl
        · exact .inr ⟨l, k, atL, atK, .symm _ _ reached⟩
      | trans one other third _ _ first second =>
        rcases first with rfl | ⟨k, l, atK, atL, reached⟩
        · exact second
        · rcases second with rfl | ⟨l', m, atL', atM, further⟩
          · exact .inr ⟨k, l, atK, atL, reached⟩
          · have meet : SameAllocation records l l' :=
              (assigned.same l l' other other atL atL').mp rfl
            exact .inr ⟨k, m, atK, atM, .trans _ _ _ reached (.trans _ _ _ (.rel _ _ (.inl meet))
              further)⟩
    rcases reach with rfl | ⟨k, l, atK, atL, reached⟩
    · exact .rel _ _ (.inl ((assigned.same i j a a atI atJ).mp rfl))
    · have start := (assigned.same i k a a atI atK).mp rfl
      have stop := (assigned.same l j b b atL atJ).mp rfl
      exact .trans _ _ _ (.rel _ _ (.inl start)) (.trans _ _ _ reached (.rel _ _ (.inl stop)))
  · intro connected
    have reach : i = j ∨ ∃ c d : Nat, ids[i]? = some c ∧ ids[j]? = some d ∧
        Relation.EqvGen (Edge (pairsOf records ids)) c d := by
      clear atI atJ
      induction connected with
      | rel one other related =>
        rcases related with same | same
        · obtain ⟨id, there⟩ := assigned.id_of_inside same.inside.2
          exact .inr ⟨id, id, assigned.of_same same there, there, .refl _⟩
        · obtain ⟨c, atOne⟩ := assigned.id_of_inside same.inside.1
          obtain ⟨d, atOther⟩ := assigned.id_of_inside same.inside.2
          exact .inr ⟨c, d, atOne, atOther, assigned.joined same atOne atOther⟩
      | refl record => exact .inl rfl
      | symm one other _ ih =>
        rcases ih with rfl | ⟨c, d, atOne, atOther, reached⟩
        · exact .inl rfl
        · exact .inr ⟨d, c, atOther, atOne, .symm _ _ reached⟩
      | trans one other third _ _ first second =>
        rcases first with rfl | ⟨c, d, atOne, atOther, reached⟩
        · exact second
        · rcases second with rfl | ⟨d', e, again, atThird, further⟩
          · exact .inr ⟨c, d, atOne, atOther, reached⟩
          · obtain rfl := Option.mem_unique again atOther
            exact .inr ⟨c, e, atOne, atThird, .trans _ _ _ reached further⟩
    rcases reach with rfl | ⟨c, d, again, also, reached⟩
    · obtain rfl := Option.mem_unique atI atJ
      exact .refl _
    · obtain rfl := Option.mem_unique again atI
      obtain rfl := Option.mem_unique also atJ
      exact reached

theorem Assigned.paired_iff (atI : ids[i]? = some a) :
    (∃ pair ∈ pairsOf records ids, pair.1 = a ∨ pair.2 = a) ↔ Seen records i := by
  constructor
  · rintro ⟨⟨low, high⟩, joined, ends⟩
    obtain ⟨_, k, l, ⟨r, s, atK, atL, named, used⟩, _, places⟩ := edge_iff.mp joined
    have cases : ids[k]? = some a ∨ ids[l]? = some a := by
      rcases ends with rfl | rfl
      · exact places.imp (·.1) (·.2)
      · exact places.symm.imp (·.1) (·.2)
    rcases cases with here | here
    · exact ⟨k, r, (assigned.same i k a a atI here).mp rfl, atK, used⟩
    · exact ⟨l, s, (assigned.same i l a a atI here).mp rfl, atL, named ▸ used⟩
  · rintro ⟨j, r, same, atJ, used⟩
    have loop : SameImpl records j j := ⟨r, r, atJ, atJ, rfl, used⟩
    obtain ⟨k, also, earliest⟩ := exists_first loop
    obtain ⟨first, atFirst⟩ := assigned.id_of_inside also.inside.1
    have here := assigned.of_same same.symm atI
    rcases le_total first a with less | more
    · exact ⟨(first, a), edge_iff.mpr ⟨less, k, j, also, earliest, .inl ⟨atFirst, here⟩⟩, .inr rfl⟩
    · exact ⟨(a, first), edge_iff.mpr ⟨more, k, j, also, earliest, .inr ⟨atFirst, here⟩⟩, .inl rfl⟩

theorem Assigned.root_iff (atJ : ids[j]? = some b) :
    ¬Labelling.Root (Edge (pairsOf records ids)) b ↔
      ∃ k, Before records k j ∧ (FirstOf records k j ∨ FirstOf records j k) := by
  simp only [Labelling.Root, not_forall, not_not, exists_prop]
  constructor
  · rintro ⟨low, less, joined⟩
    obtain ⟨_, k, l, same, earliest, ⟨atLow, atHigh⟩ | ⟨atHigh, atLow⟩⟩ := edge_iff.mp joined
    · refine ⟨k, (assigned.before atLow atJ).mp less, .inl ⟨k, l, same, earliest, ?_, ?_⟩⟩
      · exact .refl same.inside.1
      · exact (assigned.same l j b b atHigh atJ).mp rfl
    · refine ⟨l, (assigned.before atLow atJ).mp less, .inr ⟨k, l, same, earliest, ?_, ?_⟩⟩
      · exact (assigned.same k j b b atHigh atJ).mp rfl
      · exact .refl same.inside.2
  · rintro ⟨i, before, cases⟩
    have inside : i < records.length := by
      obtain ⟨_, same, _⟩ := before
      exact same.inside.2
    obtain ⟨a, atI⟩ := assigned.id_of_inside inside
    have less := (assigned.before atI atJ).mpr before
    refine ⟨a, less, edge_iff.mpr ⟨less.le, ?_⟩⟩
    rcases cases with ⟨k, l, same, earliest, first, other⟩ | ⟨k, l, same, earliest, first, other⟩
    · exact ⟨k, l, same, earliest, .inl ⟨assigned.of_same first atI, assigned.of_same other atJ⟩⟩
    · exact ⟨k, l, same, earliest, .inr ⟨assigned.of_same first atJ, assigned.of_same other atI⟩⟩

end Together

def Swept (records : List RawTensorInfo) : Prop :=
  ∀ i j, Seen records i → Seen records j → Connected records i j → Before records i j →
    ∃ k, Before records k j ∧ (FirstOf records k j ∨ FirstOf records j k)

theorem calculateUniqueTensorIDs_ok (results : List ExtraFields) :
    ∃ (ids : List Nat) (counter : Nat) (versions : StorageImplData × Device → Option Nat)
      (idMap : Nat → Option TensorID) (written : List (Nat × Option TensorID)),
      Assigned (flatten [] [] results) ids counter versions ∧
      idMap = coalesce 0 (fun _ => none)
        ((pairsOf (flatten [] [] results) ids).dedup.insertionSort pairLe) ∧
      (∀ (i a : Nat), ids[i]? = some a → ((idMap a).isSome ↔ Seen (flatten [] [] results) i)) ∧
      calculateUniqueTensorIDs results = .ok written ∧
      written.length = (flatten [] [] results).length ∧
      ∀ (i id : Nat), (written.map (·.2))[i]? = some (some id) ↔
        ∃ a, ids[i]? = some a ∧ idMap a = some id := by
  obtain ⟨counter, versions, assigned⟩ := assigned_nil.all (flatten [] [] results)
  rw [nil_append, nil_append] at assigned
  unfold calculateUniqueTensorIDs
  dsimp only
  generalize assignAllocations 1 (fun _ => none) (flatten [] [] results) = ids at *
  generalize flatten [] [] results = records at *
  obtain ⟨_, known⟩ := coalesced_all (fun pair joined => (edge_iff.mp joined).1 :
    ∀ pair ∈ pairsOf records ids, pair.1 ≤ pair.2) _ rfl
  have seen : ∀ (i a : Nat), ids[i]? = some a → ((coalesce 0 (fun _ => none)
      ((pairsOf records ids).dedup.insertionSort pairLe) a).isSome ↔ Seen records i) :=
    fun i a there => (known a).trans (assigned.paired_iff there)
  refine ⟨ids, counter, versions, _, (records.zip ids).map fun t => (t.2, coalesce 0 (fun _ => none)
    ((pairsOf records ids).dedup.insertionSort pairLe) t.2), assigned, rfl, seen, ?_, ?_, ?_⟩
  · refine mapM_ok fun t member => ?_
    obtain ⟨i, _, there⟩ := mem_zip_iff.mp member
    have same := assigned.mem_tensorSet there
    rw [← seen i t.2 there] at same
    obtain ⟨tensor, allocationId⟩ := t
    cases found : coalesce 0 (fun _ => none) ((pairsOf records ids).dedup.insertionSort pairLe) allocationId with
    | none =>
      have apart : allocationId ∉ tensorSet (records.zip ids) := by simp [same, found]
      rw [if_neg apart]
    | some id =>
      have inside : allocationId ∈ tensorSet (records.zip ids) := by simp [same, found]
      have given : coalesce 0 (fun _ => none) (uniquePairs ((records.zip ids).filter fun tensor =>
          tensor.2 ∈ tensorSet (records.zip ids))) allocationId = some id := found
      rw [if_pos inside, given]
  · simp [assigned.length]
  · intro i id
    simp only [map_map, getElem?_map, Option.map_eq_some_iff, comp_apply,
      Prod.exists, getElem?_zip_eq_some]
    constructor
    · rintro ⟨r, a, ⟨_, there⟩, named⟩
      exact ⟨a, there, named⟩
    · rintro ⟨a, there, named⟩
      have inside := (List.getElem?_eq_some_iff.mp there).1
      exact ⟨records.get ⟨i, assigned.length ▸ inside⟩, a, ⟨List.getElem?_eq_getElem _, there⟩, named⟩

/-- The ids tell the components apart exactly where of each of them only the first allocation is
without an earlier pair. -/
theorem uniqueTensorIDs_iff (results : List ExtraFields) :
    (∃ written, calculateUniqueTensorIDs results = .ok written ∧
      Identified (flatten [] [] results) (written.map (·.2))) ↔ Swept (flatten [] [] results) := by
  obtain ⟨ids, counter, versions, idMap, written, assigned, swept, known, run, length, places⟩ :=
    calculateUniqueTensorIDs_ok results
  have ordered : ∀ pair ∈ pairsOf (flatten [] [] results) ids, pair.1 ≤ pair.2 :=
    fun pair joined => (edge_iff.mp joined).1
  obtain ⟨descends, all⟩ := coalesced_all ordered idMap swept
  have separates := descends.separates_iff
  have somewhere : ∀ a : Nat, (idMap a).isSome → ∃ i : Nat, ids[i]? = some a := by
    intro a there
    obtain ⟨⟨low, high⟩, joined, ends⟩ := (all a).mp there
    obtain ⟨_, k, l, _, _, ⟨atLow, atHigh⟩ | ⟨atHigh, atLow⟩⟩ := edge_iff.mp joined
    · rcases ends with rfl | rfl
      · exact ⟨k, atLow⟩
      · exact ⟨l, atHigh⟩
    · rcases ends with rfl | rfl
      · exact ⟨l, atLow⟩
      · exact ⟨k, atHigh⟩
  have identified : Identified (flatten [] [] results) (written.map (·.2)) ↔
      ∀ one other, (idMap one).isSome → (idMap other).isSome →
        (idMap one = idMap other ↔ Relation.EqvGen (Edge (pairsOf (flatten [] [] results) ids)) one
          other) := by
    constructor
    · intro holds one other isOne isOther
      obtain ⟨i, atOne⟩ := somewhere one isOne
      obtain ⟨j, atOther⟩ := somewhere other isOther
      obtain ⟨id, named⟩ := Option.isSome_iff_exists.mp isOne
      obtain ⟨also, named'⟩ := Option.isSome_iff_exists.mp isOther
      rw [assigned.connected_iff atOne atOther, named, named', Option.some.injEq]
      exact holds.same i j id also ((places i id).mpr ⟨one, atOne, named⟩)
        ((places j also).mpr ⟨other, atOther, named'⟩)
    · intro tells
      refine ⟨by simp [length], fun i inside => ?_, fun i j id other first second => ?_⟩
      · obtain ⟨a, there⟩ := assigned.id_of_inside inside
        rw [← known i a there, Option.isSome_iff_exists]
        apply exists_congr
        intro id
        rw [places]
        constructor
        · rintro ⟨a', again, named⟩
          rwa [Option.mem_unique there again]
        · exact fun named => ⟨a, there, named⟩
      · obtain ⟨a, atFirst, named⟩ := (places i id).mp first
        obtain ⟨b, atSecond, named'⟩ := (places j other).mp second
        rw [← assigned.connected_iff atFirst atSecond, ← tells a b (by simp [named]) (by simp [named']),
          named, named', Option.some.injEq]
  have grounded : Swept (flatten [] [] results) ↔
      ∀ low high, (idMap low).isSome → (idMap high).isSome → low < high →
        Relation.EqvGen (Edge (pairsOf (flatten [] [] results) ids)) low high →
          ¬Labelling.Root (Edge (pairsOf (flatten [] [] results) ids)) high := by
    constructor
    · intro single low high isLow isHigh less connected
      obtain ⟨i, atLow⟩ := somewhere low isLow
      obtain ⟨j, atHigh⟩ := somewhere high isHigh
      rw [assigned.root_iff atHigh]
      exact single i j ((known i low atLow).mp isLow) ((known j high atHigh).mp isHigh)
        ((assigned.connected_iff atLow atHigh).mp connected) ((assigned.before atLow atHigh).mp less)
    · intro single i j seenI seenJ connected before
      obtain ⟨a, atI⟩ := assigned.id_of_inside seenI.inside
      obtain ⟨b, atJ⟩ := assigned.id_of_inside seenJ.inside
      rw [← assigned.root_iff atJ]
      exact single a b ((known i a atI).mpr seenI) ((known j b atJ).mpr seenJ)
        ((assigned.before atI atJ).mpr before) ((assigned.connected_iff atI atJ).mpr connected)
  rw [grounded, ← separates, ← identified]
  constructor
  · rintro ⟨other, again, holds⟩
    rwa [Except.ok.inj (run.symm.trans again)]
  · exact fun holds => ⟨written, run, holds⟩

def twoReset : List ExtraFields :=
  let tensor (impl storage : Nat) : Input := .tensor ⟨impl, storage, ⟨0, -1⟩⟩
  [.torchOp [tensor 100 1, tensor 200 2], .torchOp [tensor 100 3, tensor 200 3]]

theorem twoReset_apart : ¬ ∀ results, ∃ written, calculateUniqueTensorIDs results = .ok written ∧
    Identified (flatten [] [] results) (written.map (·.2)) := by
  intro all
  obtain ⟨written, run, identified⟩ := all twoReset
  have ids : calculateUniqueTensorIDs twoReset =
      .ok [(1, some 0), (2, some 1), (3, some 0), (3, some 0)] := by rfl
  obtain rfl := Except.ok.inj (ids.symm.trans run)
  have left : SameImpl (flatten [] [] twoReset) 0 2 := ⟨_, _, rfl, rfl, rfl, by decide⟩
  have right : SameImpl (flatten [] [] twoReset) 3 1 := ⟨_, _, rfl, rfl, rfl, by decide⟩
  have meet : SameAllocation (flatten [] [] twoReset) 2 3 := by
    refine ⟨_, _, rfl, rfl, rfl, fun k t low high there => ?_⟩
    obtain rfl : k = 2 := by omega
    cases there
    intro
    rfl
  have connected : Connected (flatten [] [] twoReset) 0 1 :=
    .trans _ _ _ (.rel _ _ (.inr left)) (.trans _ _ _ (.rel _ _ (.inl meet)) (.rel _ _ (.inr right)))
  exact absurd ((identified.same 0 1 0 1 rfl rfl).mpr connected) (by decide)

end TorchSupa.Profiler
