import Mathlib.Data.List.Induction
import Mathlib.Data.Nat.Bitwise

/-!
`generateForwardBackwardLinks`. A result and its activity are named by their place in the two
vectors, which have one size. Ids of flows are counted in a `uint64_t` from 1 on; the activity is
kineto's, and is given the id as it is counted.
-/

namespace TorchSupa.Profiler.ForwardBackward

open Function List Nat

structure TorchOp where
  startTid : Nat
  forwardTid : Nat
  sequenceNumber : Int
  startTime : Int
  endTimeNS : Int
deriving DecidableEq, Repr, Inhabited

inductive LinkType
  | none
  | fwdBwd
deriving DecidableEq, Repr

structure Flow where
  id : Nat := 0
  type : LinkType := .none
  start : Bool := false
deriving DecidableEq, Repr

def getForwardThreadKey (tid seqNr : Nat) : Nat :=
  ((tid <<< 48) % 2 ^ 64) ||| (seqNr &&& (2 ^ 48 - 1))

structure Sweep where
  fwdBwdLinkId : Nat
  tidSeq2activity : Nat → Option Nat
  flows : Nat → Flow

def generateForwardBackwardLink (op : Nat → TorchOp) (sweep : Sweep) (event : Nat) : Sweep :=
  if (op event).forwardTid > 0 then
    let key := getForwardThreadKey (op event).forwardTid (op event).sequenceNumber.toNat
    match sweep.tidSeq2activity key with
    | some fwd =>
      let id := sweep.fwdBwdLinkId
      let linked := update sweep.flows fwd ⟨id, .fwdBwd, true⟩
      { fwdBwdLinkId := id + 1
        tidSeq2activity := update sweep.tidSeq2activity key none
        flows := update linked event ⟨id, .fwdBwd, (linked event).start⟩ }
    | none => sweep
  else if (op event).startTid ≠ 0 then
    let key := getForwardThreadKey (op event).startTid (op event).sequenceNumber.toNat
    match sweep.tidSeq2activity key with
    | none => { sweep with tidSeq2activity := update sweep.tidSeq2activity key (some event) }
    | some kept =>
      if (op event).startTime ≥ (op kept).startTime then
        { sweep with tidSeq2activity := update sweep.tidSeq2activity key (some event) }
      else sweep
  else sweep

def initial : Sweep := ⟨1, fun _ => none, fun _ => {}⟩

def torchEvents (results : List TorchOp) : List Nat :=
  (List.range results.length).filter fun place => (results.getD place default).sequenceNumber ≥ 0

/-- `std::sort` by the end time leaves events of one end time in any order. -/
structure Arranged (results : List TorchOp) (events : List Nat) : Prop where
  perm : events.Perm (torchEvents results)
  sorted : events.Pairwise fun left right =>
    (results.getD left default).endTimeNS ≤ (results.getD right default).endTimeNS

def generateForwardBackwardLinks (results : List TorchOp) (events : List Nat) : Nat → Flow :=
  (events.foldl (generateForwardBackwardLink fun place => results.getD place default) initial).flows

/-! The links without the packed keys. -/

def TorchOp.Backward (op : TorchOp) : Prop := 0 < op.forwardTid

def TorchOp.Forward (op : TorchOp) : Prop := op.forwardTid = 0 ∧ op.startTid ≠ 0

instance (op : TorchOp) : Decidable op.Backward := Nat.decLt _ _

instance (op : TorchOp) : Decidable op.Forward := instDecidableAnd

def TorchOp.pair (op : TorchOp) : Nat × Nat :=
  (if op.forwardTid > 0 then op.forwardTid else op.startTid, op.sequenceNumber.toNat)

section Sweeping

variable (op : Nat → TorchOp)

def pending (pair : Nat × Nat) (events : List Nat) : List Nat :=
  events.foldl (fun waiting event =>
    if (op event).pair ≠ pair then waiting
    else if (op event).Backward then []
    else if (op event).Forward then waiting ++ [event]
    else waiting) []

def latest (events : List Nat) : Option Nat :=
  events.foldl (fun kept event =>
    match kept with
    | none => some event
    | some old => if (op event).startTime ≥ (op old).startTime then some event else some old) none

/-- What is said of the links among the events that were swept: a backward operator is linked to the
latest of the forward operators that wait for it, by an id that only the two have. -/
structure Linked (events : List Nat) (flows : Nat → Flow) : Prop where
  answered : ∀ before backward after, events = before ++ backward :: after →
    (op backward).Backward →
      (pending op (op backward).pair before = [] ∧ flows backward = {}) ∨
      ∃ forward ∈ pending op (op backward).pair before,
        (∀ other ∈ pending op (op backward).pair before,
          (op other).startTime ≤ (op forward).startTime) ∧
        (flows forward).start ∧ (flows forward).type = .fwdBwd ∧
        flows backward = ⟨(flows forward).id, .fwdBwd, false⟩ ∧ (flows forward).id ≠ 0 ∧
        ∀ event, (flows event).id = (flows forward).id → event = backward ∨ event = forward
  paired : ∀ event, flows event ≠ {} → ∃ before backward after forward,
    events = before ++ backward :: after ∧ (op backward).Backward ∧
      forward ∈ pending op (op backward).pair before ∧
      (flows backward).id = (flows forward).id ∧ (event = backward ∨ event = forward)

variable {op}

theorem key_injective {tid tid' seq seq' : Nat} (small : tid < 2 ^ 16) (small' : tid' < 2 ^ 16)
    (short : seq < 2 ^ 48) (short' : seq' < 2 ^ 48)
    (same : getForwardThreadKey tid seq = getForwardThreadKey tid' seq') :
    tid = tid' ∧ seq = seq' := by
  have packed : ∀ tid seq, tid < 2 ^ 16 → seq < 2 ^ 48 →
      getForwardThreadKey tid seq = tid * 2 ^ 48 + seq := by
    intro tid seq small short
    have shifted : tid <<< 48 = tid * 2 ^ 48 := shiftLeft_eq tid 48
    rw [getForwardThreadKey, and_two_pow_sub_one_eq_mod, mod_eq_of_lt short,
      mod_eq_of_lt (by omega), ← shiftLeft_add_eq_or_of_lt short, shifted]
  rw [packed tid seq small short, packed tid' seq' small' short'] at same
  omega

theorem pending_snoc (pair : Nat × Nat) (events : List Nat) (event : Nat) :
    pending op pair (events ++ [event]) =
      if (op event).pair ≠ pair then pending op pair events
      else if (op event).Backward then []
      else if (op event).Forward then pending op pair events ++ [event]
      else pending op pair events := by
  simp [pending, foldl_append]

variable {events : List Nat} {event : Nat}

theorem mem_pending {pair : Nat × Nat} (waits : event ∈ pending op pair events) :
    event ∈ events ∧ (op event).Forward ∧ (op event).pair = pair := by
  induction events using reverseRecOn with
  | nil => simp [pending] at waits
  | append_singleton events last ih =>
    rw [pending_snoc] at waits
    grind

theorem latest_snoc (events : List Nat) (event : Nat) : latest op (events ++ [event]) =
      match latest op events with
      | none => some event
      | some old => if (op event).startTime ≥ (op old).startTime then some event else some old := by
  simp [latest, foldl_append]

theorem latest_spec (events : List Nat) :
    match latest op events with
    | none => events = []
    | some event => event ∈ events ∧ ∀ other ∈ events, (op other).startTime ≤ (op event).startTime := by
  induction events using reverseRecOn with
  | nil => simp [latest]
  | append_singleton events last ih =>
    rw [latest_snoc]
    cases found : latest op events with
    | none =>
      rw [found] at ih
      simp [ih]
    | some old =>
      rw [found] at ih
      grind

theorem snoc_split {events before after : List Nat} {event place : Nat}
    (same : events ++ [event] = before ++ place :: after) :
    (after = [] ∧ before = events ∧ place = event) ∨
      ∃ rest, after = rest ++ [event] ∧ events = before ++ place :: rest := by
  rcases eq_nil_or_concat after with rfl | ⟨rest, last, rfl⟩
  · have parts := append_inj' same rfl
    exact .inl ⟨rfl, parts.1.symm, by simpa using parts.2.symm⟩
  · rw [concat_eq_append, ← cons_append, ← append_assoc] at same
    have parts := append_inj' same rfl
    have same : last = event := by simpa using parts.2.symm
    exact .inr ⟨rest, by rw [concat_eq_append, same], parts.1⟩

theorem Linked.snoc {flows : Nat → Flow} (linked : Linked op events flows)
    (free : (op event).Backward → pending op (op event).pair events = [] ∧ flows event = {}) :
    Linked op (events ++ [event]) flows where
  answered before backward after split answers := by
    rcases snoc_split split with ⟨rfl, rfl, rfl⟩ | ⟨rest, rfl, inside⟩
    · exact .inl (free answers)
    · exact linked.answered before backward rest inside answers
  paired other named := by
    obtain ⟨before, backward, after, forward, split, found⟩ := linked.paired other named
    exact ⟨before, backward, after ++ [event], forward, by simp [split], found⟩

structure Swept (op : Nat → TorchOp) (events : List Nat) (sweep : Sweep) : Prop where
  kept : ∀ tid seq, tid < 2 ^ 16 → seq < 2 ^ 48 →
    sweep.tidSeq2activity (getForwardThreadKey tid seq) = latest op (pending op (tid, seq) events)
  waiting : ∀ pair, ∀ event ∈ pending op pair events, sweep.flows event = {}
  later : ∀ event, event ∉ events → sweep.flows event = {}
  positive : 0 < sweep.fwdBwdLinkId
  counted : ∀ event, (sweep.flows event).id < sweep.fwdBwdLinkId
  identified : ∀ event, (sweep.flows event).id = 0 → sweep.flows event = {}
  linked : Linked op events sweep.flows

structure TorchOp.Small (op : TorchOp) : Prop where
  startTid : op.startTid < 2 ^ 16
  forwardTid : op.forwardTid < 2 ^ 16
  sequenceNumber : op.sequenceNumber < 2 ^ 48

theorem TorchOp.Small.pair {op : TorchOp} (small : op.Small) :
    op.pair.1 < 2 ^ 16 ∧ op.pair.2 < 2 ^ 48 := by
  have short := small.sequenceNumber
  unfold TorchOp.pair
  refine ⟨?_, by omega⟩
  split
  · exact small.forwardTid
  · exact small.startTid

variable {sweep : Sweep}

theorem Swept.link {event fwd : Nat}
    (swept : Swept op events sweep) (new : event ∉ events) (answers : (op event).Backward)
    (found : latest op (pending op (op event).pair events) = some fwd) :
    Linked op (events ++ [event])
      (update (update sweep.flows fwd ⟨sweep.fwdBwdLinkId, .fwdBwd, true⟩) event
        ⟨sweep.fwdBwdLinkId, .fwdBwd, false⟩) := by
  have greatest := @latest_spec op (pending op (op event).pair events)
  rw [found] at greatest
  obtain ⟨waits, greatest⟩ := greatest
  obtain ⟨member, forwards, -⟩ := mem_pending waits
  have apart : fwd ≠ event := fun same => new (same ▸ member)
  have blank := swept.waiting _ fwd waits
  obtain ⟨flows, linked⟩ : ∃ flows, flows = update
      (update sweep.flows fwd ⟨sweep.fwdBwdLinkId, .fwdBwd, true⟩) event
      ⟨sweep.fwdBwdLinkId, .fwdBwd, false⟩ := ⟨_, rfl⟩
  have atEvent : flows event = ⟨sweep.fwdBwdLinkId, .fwdBwd, false⟩ := by
    rw [linked, update_self]
  have atFwd : flows fwd = ⟨sweep.fwdBwdLinkId, .fwdBwd, true⟩ := by
    rw [linked, update_of_ne apart, update_self]
  have elsewhere : ∀ place, place ≠ event → place ≠ fwd → flows place = sweep.flows place := by
    intro place notEvent notFwd
    rw [linked, update_of_ne notEvent, update_of_ne notFwd]
  -- an operator that had a link is neither of the two
  have filled : ∀ place, sweep.flows place ≠ {} →
      place ≠ event ∧ place ≠ fwd ∧ flows place = sweep.flows place := by
    intro place filled
    have notEvent : place ≠ event := fun same => filled (same ▸ swept.later event new)
    have notFwd : place ≠ fwd := fun same => filled (same ▸ blank)
    exact ⟨notEvent, notFwd, elsewhere place notEvent notFwd⟩
  rw [← linked]
  constructor
  · intro before backward after split replies
    rcases snoc_split split with ⟨rfl, rfl, rfl⟩ | ⟨rest, rfl, inside⟩
    · refine .inr ⟨fwd, waits, greatest, by rw [atFwd], by rw [atFwd], by rw [atEvent, atFwd],
        by rw [atFwd]; exact Nat.pos_iff_ne_zero.mp swept.positive, fun other same => ?_⟩
      have below := swept.counted other
      grind
    · have member : backward ∈ events := by simp [inside]
      have notEvent : backward ≠ event := fun same => new (same ▸ member)
      have notFwd : backward ≠ fwd := by
        rintro rfl
        exact absurd forwards.1 (Nat.pos_iff_ne_zero.mp replies)
      have same := elsewhere backward notEvent notFwd
      rcases swept.linked.answered before backward rest inside replies with free | answered
      · exact .inl (same ▸ free)
      · obtain ⟨forward, waiting, most, start, type, shared, named, only⟩ := answered
        have kept := filled forward fun none => named (by rw [none])
        refine .inr ⟨forward, waiting, most, ?_⟩
        rw [kept.2.2, same]
        refine ⟨start, type, shared, named, fun other shares => ?_⟩
        have below := swept.counted forward
        grind
  · intro other named
    by_cases fresh : other = event ∨ other = fwd
    · exact ⟨events, event, [], fwd, rfl, answers, waits, by rw [atEvent, atFwd], fresh⟩
    · simp only [not_or] at fresh
      rw [elsewhere other fresh.1 fresh.2] at named
      obtain ⟨before, backward, after, forward, split, replies, waiting, same, either⟩ :=
        swept.linked.paired other named
      have first := swept.identified backward
      have second := swept.identified forward
      have one := filled backward (by grind)
      have two := filled forward (by grind)
      refine ⟨before, backward, after ++ [event], forward, by simp [split], replies, waiting, ?_,
        either⟩
      rw [one.2.2, two.2.2, same]

theorem Swept.kept_update {event key : Nat}
    {entry : Option Nat} (swept : Swept op events sweep) (small : (op event).Small)
    (named : key = getForwardThreadKey (op event).pair.1 (op event).pair.2)
    (replaced : entry = latest op (pending op (op event).pair (events ++ [event]))) (tid seq : Nat)
    (one : tid < 2 ^ 16) (two : seq < 2 ^ 48) :
    update sweep.tidSeq2activity key entry (getForwardThreadKey tid seq) =
      latest op (pending op (tid, seq) (events ++ [event])) := by
  by_cases same : (op event).pair = (tid, seq)
  · rw [same] at replaced named
    rw [named, update_self, replaced]
  · obtain ⟨first, second⟩ := small.pair
    have apart : getForwardThreadKey tid seq ≠ key := by
      rw [named]
      intro keys
      obtain ⟨rfl, rfl⟩ := key_injective one first two second keys
      exact same rfl
    rw [update_of_ne apart, swept.kept tid seq one two, pending_snoc, if_pos same]

theorem mem_pending_snoc {pair : Nat × Nat} {event other : Nat}
    (waits : other ∈ pending op pair (events ++ [event])) :
    (other ∈ pending op pair events ∧ ((op event).Backward → (op event).pair ≠ pair)) ∨
      other = event := by
  rw [pending_snoc] at waits
  split at waits
  next different => exact .inl ⟨waits, fun _ => different⟩
  · split at waits
    · simp at waits
    next silent =>
      split at waits
      · rcases mem_append.mp waits with old | last
        · exact .inl ⟨old, fun answers => absurd answers silent⟩
        · exact .inr (mem_singleton.mp last)
      · exact .inl ⟨waits, fun answers => absurd answers silent⟩

section

variable (swept : Swept op events sweep)
include swept

theorem Swept.snoc {event key : Nat} {entry : Option Nat} (new : event ∉ events)
    (small : (op event).Small)
    (named : key = getForwardThreadKey (op event).pair.1 (op event).pair.2)
    (replaced : entry = latest op (pending op (op event).pair (events ++ [event])))
    (free : (op event).Backward → pending op (op event).pair events = []) :
    Swept op (events ++ [event])
      { sweep with tidSeq2activity := update sweep.tidSeq2activity key entry } where
  kept tid seq one two := swept.kept_update small named replaced tid seq one two
  waiting pair other waits := by
    rcases mem_pending_snoc waits with ⟨old, -⟩ | rfl
    · exact swept.waiting pair other old
    · exact swept.later other new
  later other outside := swept.later other fun member => outside (mem_append_left _ member)
  positive := swept.positive
  counted := swept.counted
  identified := swept.identified
  linked := swept.linked.snoc fun answers => ⟨free answers, swept.later event new⟩

theorem Swept.snoc_same (new : event ∉ events) (small : (op event).Small)
    (kept : latest op (pending op (op event).pair (events ++ [event])) =
      latest op (pending op (op event).pair events))
    (free : (op event).Backward → pending op (op event).pair events = []) :
    Swept op (events ++ [event]) sweep := by
  obtain ⟨first, second⟩ := small.pair
  have old := swept.kept _ _ first second
  have same := swept.snoc new small rfl (old.trans kept.symm) free
  rwa [update_eq_self] at same

theorem Swept.answer {event fwd key : Nat} (new : event ∉ events) (small : (op event).Small)
    (named : key = getForwardThreadKey (op event).pair.1 (op event).pair.2)
    (answers : (op event).Backward)
    (found : latest op (pending op (op event).pair events) = some fwd) :
    Swept op (events ++ [event])
      { fwdBwdLinkId := sweep.fwdBwdLinkId + 1
        tidSeq2activity := update sweep.tidSeq2activity key none
        flows := update (update sweep.flows fwd ⟨sweep.fwdBwdLinkId, .fwdBwd, true⟩) event
          ⟨sweep.fwdBwdLinkId, .fwdBwd, false⟩ } := by
  have linked := swept.link new answers found
  have greatest := @latest_spec op (pending op (op event).pair events)
  rw [found] at greatest
  obtain ⟨member, -, pair⟩ := mem_pending greatest.1
  have elsewhere : ∀ place, place ≠ event → place ≠ fwd → update
      (update sweep.flows fwd ⟨sweep.fwdBwdLinkId, .fwdBwd, true⟩) event
      ⟨sweep.fwdBwdLinkId, .fwdBwd, false⟩ place = sweep.flows place := by
    intro place notEvent notFwd
    rw [update_of_ne notEvent, update_of_ne notFwd]
  have emptied : pending op (op event).pair (events ++ [event]) = [] := by
    rw [pending_snoc, if_neg (by simp), if_pos answers]
  constructor
  · intro tid seq one two
    exact swept.kept_update small named (by rw [emptied]; rfl) tid seq one two
  · intro other place waits
    rcases mem_pending_snoc waits with ⟨old, different⟩ | rfl
    · obtain ⟨inside, -, same⟩ := mem_pending old
      have notFwd : place ≠ fwd := fun equal => different answers (pair.symm.trans (equal ▸ same))
      exact (elsewhere place (fun equal => new (equal ▸ inside)) notFwd).trans
        (swept.waiting other place old)
    · exact absurd (mem_pending waits).2.1.1 (Nat.pos_iff_ne_zero.mp answers)
  · intro other outside
    simp only [mem_append, mem_singleton, not_or] at outside
    exact (elsewhere other outside.2 fun equal => outside.1 (equal ▸ member)).trans
      (swept.later other outside.1)
  · exact succ_pos _
  · intro other
    have below := swept.counted other
    grind [update]
  · intro other
    have blank := swept.identified other
    have positive := swept.positive
    grind [update]
  · exact linked

theorem Swept.step (new : event ∉ events) (small : (op event).Small) :
    Swept op (events ++ [event]) (generateForwardBackwardLink op sweep event) := by
  obtain ⟨first, second⟩ := small.pair
  have found := swept.kept _ _ first second
  have after := @pending_snoc op (op event).pair events event
  simp only [ne_eq, not_true_eq_false, if_false] at after
  have greatest := @latest_spec op (pending op (op event).pair events)
  unfold generateForwardBackwardLink
  by_cases answers : (op event).forwardTid > 0
  · have named : getForwardThreadKey (op event).forwardTid (op event).sequenceNumber.toNat =
        getForwardThreadKey (op event).pair.1 (op event).pair.2 := by
      rw [TorchOp.pair, if_pos answers]
    rw [if_pos (show (op event).Backward from answers)] at after
    simp only [if_pos answers, named, found]
    cases waits : latest op (pending op (op event).pair events) with
    | none =>
      rw [waits] at greatest
      exact swept.snoc_same new small (by rw [after, greatest]) fun _ => greatest
    | some fwd =>
      have apart : event ≠ fwd := by
        rintro rfl
        rw [waits] at greatest
        exact new (mem_pending greatest.1).1
      simp only [update_of_ne apart, swept.later event new]
      exact swept.answer new small rfl answers waits
  · have silent : ¬ (op event).Backward := answers
    rw [if_neg silent] at after
    rw [if_neg answers]
    have free : (op event).Backward → pending op (op event).pair events = [] :=
      fun replies => absurd replies silent
    by_cases launches : (op event).startTid ≠ 0
    · have named : getForwardThreadKey (op event).startTid (op event).sequenceNumber.toNat =
          getForwardThreadKey (op event).pair.1 (op event).pair.2 := by
        rw [TorchOp.pair, if_neg answers]
      rw [if_pos (show (op event).Forward from ⟨by omega, launches⟩)] at after
      have replaced := @latest_snoc op (pending op (op event).pair events) event
      rw [← after] at replaced
      simp only [if_pos launches, named, found]
      cases waits : latest op (pending op (op event).pair events) with
      | none =>
        rw [waits] at replaced
        exact swept.snoc new small rfl replaced.symm free
      | some kept =>
        rw [waits] at replaced
        simp only at replaced ⊢
        split
        next later =>
          rw [if_pos later] at replaced
          exact swept.snoc new small rfl replaced.symm free
        next earlier =>
          rw [if_neg earlier] at replaced
          exact swept.snoc_same new small (replaced.trans waits.symm) free
    · rw [if_neg (fun forwards => launches forwards.2)] at after
      rw [if_neg launches]
      exact swept.snoc_same new small (by rw [after]) free

end

theorem swept_initial : Swept op [] initial where
  kept _ _ _ _ := rfl
  waiting _ _ waits := absurd waits not_mem_nil
  later _ _ := rfl
  positive := Nat.one_pos
  counted _ := Nat.one_pos
  identified _ _ := rfl
  linked := ⟨fun before _ _ split => by simp at split, fun _ named => absurd rfl named⟩

theorem sweep_run (distinct : events.Nodup) (small : ∀ event ∈ events, (op event).Small) :
    Swept op events (events.foldl (generateForwardBackwardLink op) initial) := by
  induction events using reverseRecOn with
  | nil => exact swept_initial
  | append_singleton events event ih =>
    rw [foldl_append]
    obtain ⟨nodup, -, apart⟩ := nodup_append.mp distinct
    exact (ih nodup fun other member => small other (mem_append_left _ member)).step
      (fun member => apart event member event (mem_singleton_self _) rfl)
      (small event (by simp))

end Sweeping

/-- With thread ids that fit in 16 bits and sequence numbers that fit in 48, a backward operator is
linked exactly when forward operators of its thread and number ended since the last backward operator
of the two, and to the one of these that started last. -/
theorem forward_backward_linked (results : List TorchOp) (events : List Nat)
    (arranged : Arranged results events) (small : ∀ op ∈ results, op.Small) :
    Linked (fun place => results.getD place default) events
      (generateForwardBackwardLinks results events) := by
  have distinct : events.Nodup := arranged.perm.nodup_iff.mpr (nodup_range.filter _)
  refine (sweep_run distinct fun event member => ?_).linked
  have listed := arranged.perm.mem_iff.mp member
  simp only [torchEvents, mem_filter, mem_range] at listed
  rw [getD_eq_getElem?_getD, getElem?_eq_getElem listed.1]
  exact small _ (getElem_mem _)

def twoBackwards : List TorchOp :=
  [⟨1, 0, 7, 2, 4⟩, ⟨1, 0, 7, 1, 5⟩, ⟨2, 1, 7, 6, 8⟩, ⟨2, 1, 7, 7, 9⟩]

theorem twoBackwards_arranged : Arranged twoBackwards [0, 1, 2, 3] := ⟨Perm.refl _, by decide⟩

theorem forward_backward_linked_two :
    Linked (fun place => twoBackwards.getD place default) [0, 1, 2, 3]
      (generateForwardBackwardLinks twoBackwards [0, 1, 2, 3]) :=
  forward_backward_linked twoBackwards [0, 1, 2, 3] twoBackwards_arranged (by
    intro op member
    simp only [twoBackwards, mem_cons, not_mem_nil, or_false] at member
    rcases member with rfl | rfl | rfl | rfl <;> exact ⟨by decide, by decide, by decide⟩)

/-- The second backward operator has no link, though a forward operator of its pair was never
linked; and threads that differ by `2 ^ 16` share a key. -/
theorem second_backward_unlinked : (Arranged twoBackwards [0, 1, 2, 3] ∧
      (twoBackwards.getD 3 default).Backward ∧ (twoBackwards.getD 1 default).Forward ∧
      (twoBackwards.getD 1 default).pair = (twoBackwards.getD 3 default).pair ∧
      generateForwardBackwardLinks twoBackwards [0, 1, 2, 3] 1 = {} ∧
      generateForwardBackwardLinks twoBackwards [0, 1, 2, 3] 3 = {}) ∧
    (generateForwardBackwardLinks [⟨1, 0, 7, 1, 2⟩, ⟨2, 65537, 7, 3, 4⟩] [0, 1] 0).id ≠ 0 ∧
    (generateForwardBackwardLinks [⟨1, 0, 7, 1, 2⟩, ⟨2, 65537, 7, 3, 4⟩] [0, 1] 0).id =
      (generateForwardBackwardLinks [⟨1, 0, 7, 1, 2⟩, ⟨2, 65537, 7, 3, 4⟩] [0, 1] 1).id := by
  exact ⟨⟨twoBackwards_arranged, by decide, by decide, by decide, by decide, by decide⟩, by decide,
    by decide⟩

end TorchSupa.Profiler.ForwardBackward
