import TorchSupa.Distributed.Machine
import Mathlib.Algebra.Order.BigOperators.Group.List
import Mathlib.Algebra.Order.Group.Int
import Mathlib.Data.List.Nodup

/-!
The books of a group about the timeouts that were added: which work took which, and what the two
counters of the group have to do with it. Three operations change them.
-/

namespace TorchSupa.Distributed

open List

def ownedBy (work : Nat) (grants : List Grant) : List Grant :=
  grants.filter fun grant => grant.owner == some work

def unowned (grants : List Grant) : List Grant := grants.filter fun grant => grant.owner == none

def owed (reset : List Nat) (charged : List (Work × Int)) : Int :=
  ((charged.filter fun entry => !reset.contains entry.1.id).map
    (·.1.ownedEphermeralTimeout)).sum

/-- The counters follow the grants. A work owns all of what was added since the work before it,
and its timeout is extended by what is added and not owned by a finished work. -/
structure Group.Accounted (group : Group) : Prop where
  amounts : ∀ grant ∈ group.grants, 0 ≤ grant.amount
  active : group.ephemeralTimeoutActive = total (liveGrants group.reset group.grants)
  inflight : group.ephemeralTimeoutInflight = owed group.reset group.charged
  unowned : group.ephemeralTimeoutActive =
    group.ephemeralTimeoutInflight + total (unowned group.grants)
  owned : ∀ entry ∈ group.charged,
    entry.1.ownedEphermeralTimeout = total (ownedBy entry.1.id group.grants)
  owner : ∀ grant ∈ group.grants, ∀ work, grant.owner = some work →
    ∃ entry ∈ group.charged, entry.1.id = work
  once : (group.charged.map (·.1.id)).Nodup
  extended : ∀ entry ∈ group.charged, entry.1.opTimeout = group.timeout + entry.2

section Sums

variable {grants : List Grant} {reset finished : List Nat} {work : Nat}

open Grant

theorem total_nonneg (amounts : ∀ grant ∈ grants, 0 ≤ grant.amount) : 0 ≤ total grants := by
  refine sum_nonneg fun amount member => ?_
  obtain ⟨grant, there, rfl⟩ := mem_map.mp member
  exact amounts grant there

theorem total_filter_nonneg (keep : Grant → Bool) (amounts : ∀ grant ∈ grants, 0 ≤ grant.amount) :
    0 ≤ total (grants.filter keep) :=
  total_nonneg fun grant member => amounts grant (mem_filter.mp member).1

theorem total_cons_filter (keep : Grant → Bool) (grant : Grant) (grants : List Grant) :
    total ((grant :: grants).filter keep) =
      (if keep grant then grant.amount else 0) + total (grants.filter keep) := by
  rw [filter_cons]
  split
  · rfl
  · exact (Int.zero_add _).symm

variable {keep : Grant → Bool} {charged : List (Work × Int)}

theorem total_filter_split {first second : Grant → Bool}
    (split : ∀ grant ∈ grants, (if keep grant then grant.amount else 0) =
      (if first grant then grant.amount else 0) + (if second grant then grant.amount else 0)) :
    total (grants.filter keep) = total (grants.filter first) + total (grants.filter second) := by
  induction grants with
  | nil => rfl
  | cons grant rest ih =>
    rw [total_cons_filter, total_cons_filter, total_cons_filter,
      split grant (.head _),
      ih fun other member => split other (.tail _ member)]
    omega

theorem total_filter_congr {other : Grant → Bool}
    (same : ∀ grant ∈ grants, (if keep grant then grant.amount else 0) =
      if other grant then grant.amount else 0) :
    total (grants.filter keep) = total (grants.filter other) := by
  induction grants with
  | nil => rfl
  | cons grant rest ih =>
    rw [total_cons_filter, total_cons_filter, same grant (.head _),
      ih fun member there => same member (.tail _ there)]

theorem amount_le_total {grant : Grant}
    (amounts : ∀ grant ∈ grants, 0 ≤ grant.amount) (member : grant ∈ grants)
    (kept : keep grant = true) : grant.amount ≤ total (grants.filter keep) := by
  refine single_le_sum (fun amount there => ?_) _ (mem_map.mpr
    ⟨grant, mem_filter.mpr ⟨member, kept⟩, rfl⟩)
  obtain ⟨other, here, rfl⟩ := mem_map.mp there
  exact amounts other (mem_filter.mp here).1

theorem total_filter_claim (keep : Grant → Bool) (work : Nat) (grants : List Grant) :
    total ((grants.map (claim work)).filter keep) =
      total (grants.filter fun grant => keep (grant.claim work)) := by
  unfold total
  rw [filter_map, map_map]
  rfl

@[simp] theorem claim_amount (work : Nat) (grant : Grant) : (grant.claim work).amount = grant.amount :=
  rfl

theorem total_live (fresh : work ∉ reset) : total (liveGrants reset grants) =
      total (liveGrants (work :: reset) grants) + total (ownedBy work grants) := by
  refine total_filter_split fun grant _ => ?_
  cases owner : grant.owner with
  | none => simp
  | some id =>
    by_cases same : id = work
    · subst same
      simp [fresh]
    · simp [same]

theorem total_live_claim (fresh : work ∉ reset) :
    total (liveGrants reset (grants.map (claim work))) = total (liveGrants reset grants) := by
  unfold liveGrants
  rw [total_filter_claim]
  refine total_filter_congr fun grant _ => ?_
  cases owner : grant.owner with
  | none => simp [claim, owner, fresh]
  | some id => simp [claim, owner]

theorem total_ownedBy_claim (untaken : ∀ grant ∈ grants, grant.owner ≠ some work) :
    total (ownedBy work (grants.map (claim work))) = total (unowned grants) := by
  unfold ownedBy unowned
  rw [total_filter_claim]
  refine total_filter_congr fun grant member => ?_
  cases owner : grant.owner with
  | none => simp [claim, owner]
  | some id =>
    have different : id ≠ work := fun same => untaken grant member (owner.trans (same ▸ rfl))
    simp [claim, owner, different]

theorem total_ownedBy_claim_other {other : Nat} (different : other ≠ work) :
    total (ownedBy other (grants.map (claim work))) = total (ownedBy other grants) := by
  unfold ownedBy
  rw [total_filter_claim]
  refine total_filter_congr fun grant _ => ?_
  cases owner : grant.owner with
  | none => simp [claim, owner, different.symm]
  | some id => simp [claim, owner]

theorem unowned_claim (work : Nat) (grants : List Grant) :
    unowned (grants.map (claim work)) = [] := by
  unfold unowned
  rw [filter_eq_nil_iff]
  intro grant member
  obtain ⟨old, _, rfl⟩ := mem_map.mp member
  simp [claim]

theorem owed_cons (reset : List Nat) (entry : Work × Int) (charged : List (Work × Int)) :
    owed reset (entry :: charged) =
      (if reset.contains entry.1.id then 0 else entry.1.ownedEphermeralTimeout) +
        owed reset charged := by
  unfold owed
  rw [filter_cons]
  cases reset.contains entry.1.id with
  | true => exact (Int.zero_add _).symm
  | false => rfl

theorem owed_reset {entry : Work × Int}
    (once : (charged.map (·.1.id)).Nodup) (member : entry ∈ charged) (fresh : entry.1.id ∉ reset) :
    owed reset charged = owed (entry.1.id :: reset) charged + entry.1.ownedEphermeralTimeout := by
  induction charged with
  | nil => cases member
  | cons first rest ih =>
    rw [map_cons, nodup_cons] at once
    rw [owed_cons, owed_cons]
    rcases mem_cons.mp member with rfl | later
    · have alike : owed reset rest = owed (entry.1.id :: reset) rest := by
        unfold owed
        congr 2
        refine filter_congr fun other there => ?_
        have different : other.1.id ≠ entry.1.id := fun same =>
          once.1 (mem_map.mpr ⟨other, there, same⟩)
        simp [different]
      rw [alike, if_neg (by simpa using fresh), if_pos (by simp)]
      omega
    · have different : first.1.id ≠ entry.1.id := fun same =>
        once.1 (mem_map.mpr ⟨entry, later, same.symm⟩)
      rw [ih once.2 later]
      have alike : (entry.1.id :: reset).contains first.1.id = reset.contains first.1.id := by
        simp [different]
      rw [alike]
      omega

theorem owed_nonneg
    (owned : ∀ entry ∈ charged, 0 ≤ entry.1.ownedEphermeralTimeout) : 0 ≤ owed reset charged := by
  refine sum_nonneg fun amount member => ?_
  obtain ⟨entry, there, rfl⟩ := mem_map.mp member
  exact owned entry (mem_filter.mp there).1

end Sums

section Accounts

variable {self : Group}

def Group.accounts (self : Group) : Group where
  timeout := self.timeout
  ephemeralTimeoutActive := self.ephemeralTimeoutActive
  ephemeralTimeoutInflight := self.ephemeralTimeoutInflight
  grants := self.grants
  charged := self.charged
  reset := self.reset

theorem accounted_accounts (self : Group) : self.accounts.Accounted ↔ self.Accounted :=
  ⟨fun ⟨a, b, c, d, e, f, g, h⟩ => ⟨a, b, c, d, e, f, g, h⟩,
    fun ⟨a, b, c, d, e, f, g, h⟩ => ⟨a, b, c, d, e, f, g, h⟩⟩

variable (accounted : self.Accounted)
include accounted

theorem Group.Accounted.congr {later : Group}
    (same : later.accounts = self.accounts) : later.Accounted :=
  (accounted_accounts later).mp (same ▸ (accounted_accounts self).mpr accounted)

theorem Group.Accounted.owned_nonneg {entry : Work × Int}
    (member : entry ∈ self.charged) : 0 ≤ entry.1.ownedEphermeralTimeout := by
  rw [accounted.owned entry member]
  exact total_filter_nonneg _ accounted.amounts

theorem Group.Accounted.inflight_nonneg : 0 ≤ self.ephemeralTimeoutInflight := by
  rw [accounted.inflight]
  exact owed_nonneg fun entry member => accounted.owned_nonneg member

theorem Group.Accounted.inflight_le :
    self.ephemeralTimeoutInflight ≤ self.ephemeralTimeoutActive := by
  have rest : 0 ≤ total (Distributed.unowned self.grants) := total_filter_nonneg _ accounted.amounts
  have split := accounted.unowned
  omega

theorem Group.Accounted.addTimeout {timeout : Int}
    (nonneg : 0 ≤ timeout) : (addTimeout timeout self).Accounted where
  amounts := forall_mem_cons.mpr ⟨nonneg, accounted.amounts⟩
  active := by
    change self.ephemeralTimeoutActive + timeout = total ((_ :: self.grants).filter _)
    rw [total_cons_filter, accounted.active]
    exact Int.add_comm _ _
  inflight := accounted.inflight
  unowned := by
    change self.ephemeralTimeoutActive + timeout =
      self.ephemeralTimeoutInflight + total ((_ :: self.grants).filter _)
    rw [total_cons_filter, accounted.unowned]
    change _ = _ + (timeout + total (Distributed.unowned self.grants))
    omega
  owned := fun entry member => by
    rw [accounted.owned entry member]
    exact ((total_cons_filter _ _ _).trans (Int.zero_add _)).symm
  owner := fun grant member work owned => by
    rcases mem_cons.mp member with rfl | old
    · cases owned
    · exact accounted.owner grant old work owned
  once := accounted.once
  extended := accounted.extended

theorem Group.Accounted.takeTimeout {finished : List Nat} {work : Work} (unreset : work.id ∉ self.reset)
    (fresh : ∀ entry ∈ self.charged, entry.1.id ≠ work.id)
    (settled : total (liveGrants finished self.grants) = total (liveGrants self.reset self.grants)) :
    (takeTimeout finished (withTimeout self work) self).Accounted := by
  have untaken : ∀ grant ∈ self.grants, grant.owner ≠ some work.id := by
    intro grant member owned
    obtain ⟨entry, there, same⟩ := accounted.owner grant member work.id owned
    exact fresh entry there same
  have split := accounted.unowned
  constructor
  · intro grant member
    obtain ⟨old, there, rfl⟩ := mem_map.mp member
    exact accounted.amounts old there
  · exact accounted.active.trans (total_live_claim unreset).symm
  · change self.ephemeralTimeoutActive = owed self.reset ((withTimeout self work, _) :: self.charged)
    rw [owed_cons, ← accounted.inflight]
    have counts : self.reset.contains (withTimeout self work).id = false := by
      simpa [withTimeout] using unreset
    rw [counts]
    change _ = (self.ephemeralTimeoutActive - self.ephemeralTimeoutInflight) + _
    omega
  · change self.ephemeralTimeoutActive = self.ephemeralTimeoutActive +
      total (Distributed.unowned (self.grants.map (Grant.claim work.id)))
    rw [unowned_claim]
    exact (Int.add_zero _).symm
  · refine forall_mem_cons.mpr ⟨?_, fun entry member => ?_⟩
    · change self.ephemeralTimeoutActive - self.ephemeralTimeoutInflight =
        total (ownedBy work.id (self.grants.map (Grant.claim work.id)))
      rw [total_ownedBy_claim untaken]
      omega
    · change _ = total (ownedBy entry.1.id (self.grants.map (Grant.claim work.id)))
      rw [total_ownedBy_claim_other (fresh entry member)]
      exact accounted.owned entry member
  · intro grant member id owned
    obtain ⟨old, there, rfl⟩ := mem_map.mp member
    cases owner : old.owner with
    | none =>
      simp only [Grant.claim, owner, Option.getD_none, Option.some.injEq] at owned
      exact ⟨_, (.head _), owned⟩
    | some id' =>
      simp only [Grant.claim, owner, Option.getD_some, Option.some.injEq] at owned
      obtain ⟨entry, here, same⟩ := accounted.owner old there id' owner
      exact ⟨entry, mem_cons_of_mem _ here, same.trans owned⟩
  · refine nodup_cons.mpr ⟨fun member => ?_, accounted.once⟩
    obtain ⟨entry, there, same⟩ := mem_map.mp member
    exact fresh entry there same
  · refine forall_mem_cons.mpr ⟨?_, accounted.extended⟩
    change (if 0 < self.ephemeralTimeoutActive then self.timeout + self.ephemeralTimeoutActive
      else self.timeout) = self.timeout + total (liveGrants finished self.grants)
    rw [settled, ← accounted.active]
    have lower := accounted.inflight_nonneg
    have upper := accounted.inflight_le
    split
    · rfl
    · omega

theorem Group.Accounted.resetTimeout {work : Work} {live : Int} {it : Nat}
    (member : (work, live) ∈ self.charged)
    (unreset : work.id ∉ self.reset) : (resetTimeout work it self).Accounted := by
  have owned : work.ownedEphermeralTimeout = total (ownedBy work.id self.grants) :=
    accounted.owned (work, live) member
  have nonneg : 0 ≤ work.ownedEphermeralTimeout := accounted.owned_nonneg member
  have owes := owed_reset accounted.once member unreset
  have lives : total (liveGrants self.reset self.grants) = _ := total_live unreset
  refine ⟨accounted.amounts, ?_, ?_, ?_, accounted.owned, accounted.owner, accounted.once,
    accounted.extended⟩
  · change (if 0 < work.ownedEphermeralTimeout then _ else _) =
      total (liveGrants (work.id :: self.reset) self.grants)
    rw [accounted.active]
    split <;> omega
  · change (if 0 < work.ownedEphermeralTimeout then _ else _) =
      owed (work.id :: self.reset) self.charged
    rw [accounted.inflight]
    dsimp only at owes
    split <;> omega
  · change (if 0 < work.ownedEphermeralTimeout then _ else _) =
      (if 0 < work.ownedEphermeralTimeout then _ else _) + total (Distributed.unowned self.grants)
    rw [accounted.unowned]
    split <;> omega

end Accounts

end TorchSupa.Distributed
