import TorchSupa.Distributed.Numbers
import TorchSupa.Distributed.Calls

/-!
The sequence numbers of a group against the operations that were issued on it, each alone or in
a coalescing region: they count the operations, and no two works are enqueued under one number.
-/

namespace TorchSupa.Distributed

open Outcome Function Nat Option

def Kind.of (isP2P : Bool) : Kind := if isP2P then .pointToPoint else .collective

inductive Region
  | outside
  | inside
  | ending
deriving DecidableEq, Repr

structure Issued where
  items : List (List Kind) := []
  region : Region := .outside
deriving DecidableEq, Repr

def Issued.add (kind : Kind) (self : Issued) : Issued :=
  { self with
    items :=
      match self.region, self.items with
      | .inside, item :: items => (kind :: item) :: items
      | _, items => [kind] :: items }

structure Session where
  world : World
  issued : Nat → Issued

def Call.resets (call : Call) : Bool := call.rest.contains .resetCoalescing

def Issued.leave (call : Option Call) (self : Issued) : Issued :=
  { self with region := if call.any Call.resets then .ending else .outside }

def Session.follow (session : Session) (after : World) : Action → Nat → Issued
  | .begin thread group operation fate =>
    match operation with
    | .endCoalescing _ =>
      update session.issued group ((session.issued group).leave (after.calls thread))
    | _ =>
      if operation.issues thread group fate session.world then
        update session.issued group
          ((session.issued group).add (.of operation.isP2P))
      else session.issued
  | .proceed thread _ =>
    match session.world.calls thread with
    | some call =>
      if call.resets then update session.issued call.group
        ((session.issued call.group).leave (after.calls thread))
      else session.issued
    | none => session.issued
  | .startCoalescing _ group fate =>
    if fate.groups then update session.issued group
      { items := [] :: (session.issued group).items, region := .inside }
    else session.issued
  | _ => session.issued

def Session.advance (session : Session) (action : Action) : Option Session :=
  (step session.world action).map fun after =>
    { world := after, issued := session.follow after action }

def sessions : System Session Action where
  initial session := Initial session.world ∧ session.issued = fun _ => {}
  step session action after := session.advance action = some after

structure WellNumbered (session : Session) (group : Nat) : Prop where
  collectives : (session.world.groups group).seqCollective =
    (session.issued group).items.countP (·.contains .collective)
  pointToPoints : (session.world.groups group).seqP2P =
    (session.issued group).items.countP (·.contains .pointToPoint)
  apart : ((session.world.groups group).enqueued.map fun work => (work.isP2P, work.seq)).Nodup

/-- An operation that raises the numbers as it should: `collectiveCoalesced` does not look at the
region, and `pointToPoint` takes a batch for a region. -/
def Operation.Fits (region : Region) (counter : UInt64) : Operation → Prop
  | .collectiveCoalesced _ _ => region = .outside
  | .pointToPoint _ _ _ => region = .outside → counter = 0
  | _ => True

instance (region : Region) (counter : UInt64) (operation : Operation) :
    Decidable (operation.Fits region counter) := by
  cases operation <;> unfold Operation.Fits <;> infer_instance

/-- No region begins in another, none is used while it is ended, and outside of regions no flag of
one is left. -/
def KeepsNumbers (session : Session) : Action → Prop
  | .begin thread group operation _ => (session.issued group).region ≠ .ending ∧
      ((session.issued group).region = .outside →
        (session.world.groups group).coalescingState.isSet = false) ∧
      operation.Fits (session.issued group).region (session.world.bcclActiveGroupCounter thread)
  | .startCoalescing _ group _ => (session.issued group).region = .outside ∧
      (session.world.groups group).coalescingState.isSet = false
  | _ => True

instance (session : Session) (action : Action) : Decidable (KeepsNumbers session action) := by
  cases action <;> unfold KeepsNumbers <;> infer_instance

structure Ticket where
  id : Nat
  isP2P : Bool
  seq : Nat

def Work.ticket (work : Work) : Ticket where
  id := work.id
  isP2P := work.isP2P
  seq := work.seq

def Call.Entitled (call : Call) : Prop :=
  .emplace ∈ call.rest ∧ (call.enqueue = true ∨ .readCaptureStatus ∈ call.rest)

def World.Holds (world : World) (group : Nat) (ticket : Ticket) : Prop :=
  (∃ work ∈ (world.groups group).enqueued, work.ticket = ticket) ∨
    ∃ thread call, world.calls thread = some call ∧ call.group = group ∧ call.Entitled ∧
      call.work.map Work.ticket = some ticket

def CoalescingState.has (state : CoalescingState) (isP2P : Bool) : Bool :=
  if isP2P then state.coalP2P else state.coalColl

structure Tally (numbers : Numbers) (issued : Issued) (tickets : Ticket → Prop) : Prop where
  counts : ∀ isP2P, numbers.last isP2P = issued.items.countP (·.contains (.of isP2P))
  inside : issued.region = .inside → numbers.coalescingState.coalActive = true ∧
    ∃ item items, issued.items = item :: items ∧
      ∀ isP2P, numbers.coalescingState.has isP2P = item.contains (.of isP2P)
  bounded : ∀ ticket, tickets ticket → ticket.seq ≤ numbers.last ticket.isP2P
  apart : ∀ ticket other, tickets ticket → tickets other → ticket.isP2P = other.isP2P →
    ticket.seq = other.seq → ticket = other
  -- the number of the region is left for the work of its end
  fresh : issued.region = .inside → ∀ ticket, tickets ticket →
    numbers.coalescingState.has ticket.isP2P = true → ticket.seq < numbers.last ticket.isP2P

section Tally

variable {numbers after : Numbers} {issued : Issued} {tickets later : Ticket → Prop} {isP2P : Bool}

open List

theorem contains_of (kind : Bool) (item : List Kind) :
    ((Kind.of isP2P :: item).contains (.of kind)) = (kind == isP2P || item.contains (.of kind)) := by
  rw [contains_cons]
  congr 1
  cases kind <;> cases isP2P <;> rfl

variable (tally : Tally numbers issued tickets)
include tally

theorem Tally.single {new : Ticket} (outside : issued.region = .outside)
    (lasts : ∀ kind, after.last kind = numbers.last kind + if kind = isP2P then 1 else 0)
    (kind : new.isP2P = isP2P) (seq : new.seq = after.last isP2P)
    (held : ∀ ticket, later ticket → tickets ticket ∨ ticket = new) :
    Tally after (issued.add (.of isP2P)) later := by
  have unread : (issued.add (.of isP2P)).region = .inside → False := by
    intro inside
    rw [show (issued.add (.of isP2P)).region = issued.region from rfl, outside] at inside
    cases inside
  have items : (issued.add (.of isP2P)).items = [.of isP2P] :: issued.items := by
    unfold Issued.add
    rw [outside]
  have older : ∀ ticket, tickets ticket → ticket.isP2P = isP2P → ticket.seq < after.last isP2P := by
    rintro ticket there rfl
    rw [lasts, if_pos rfl]
    exact lt_succ_of_le (tally.bounded ticket there)
  constructor
  · intro other
    rw [lasts, tally.counts, items, countP_cons]
    congr 1
    rw [contains_of]
    simp
  · exact fun inside => (unread inside).elim
  · intro ticket there
    rcases held ticket there with old | rfl
    · rw [lasts]
      exact le_add_right_of_le (tally.bounded ticket old)
    · rw [seq, kind]
  · intro ticket other there also kinds seqs
    rcases held ticket there with old | rfl
    · rcases held other also with older_ | rfl
      · exact tally.apart ticket other old older_ kinds seqs
      · have less := older ticket old (kinds.trans kind)
        rw [seqs, seq] at less
        exact absurd less (lt_irrefl _)
    · rcases held other also with old | rfl
      · have less := older other old (kinds.symm.trans kind)
        rw [← seqs, seq] at less
        exact absurd less (lt_irrefl _)
      · rfl
  · exact fun inside => (unread inside).elim

theorem Tally.join (inside : issued.region = .inside)
    (lasts : ∀ kind, after.last kind = numbers.last kind +
      if kind = isP2P ∧ numbers.coalescingState.has isP2P = false then 1 else 0)
    (has : ∀ kind, after.coalescingState.has kind =
      (kind == isP2P || numbers.coalescingState.has kind))
    (active : after.coalescingState.coalActive = true)
    (held : ∀ ticket, later ticket → tickets ticket) :
    Tally after (issued.add (.of isP2P)) later := by
  obtain ⟨_, item, items, here, bits⟩ := tally.inside inside
  have added : (issued.add (.of isP2P)).items = (.of isP2P :: item) :: items := by
    unfold Issued.add
    rw [inside, here]
  constructor
  · intro kind
    rw [lasts, tally.counts, here, added, countP_cons, countP_cons, add_assoc]
    congr 1
    rw [contains_of, ← bits]
    by_cases same : kind = isP2P
    · rw [same]
      cases numbers.coalescingState.has isP2P <;> simp
    · simp [same]
  · refine fun _ => ⟨active, _, _, added, fun kind => ?_⟩
    rw [has, contains_of, bits]
  · intro ticket there
    rw [lasts]
    exact le_add_right_of_le (tally.bounded ticket (held ticket there))
  · exact fun ticket other there also => tally.apart ticket other (held _ there) (held _ also)
  · intro _ ticket there used
    have old := held ticket there
    rw [lasts]
    cases before : numbers.coalescingState.has ticket.isP2P with
    | true => exact lt_of_lt_of_le (tally.fresh inside ticket old before) (le_add_right _ _)
    | false =>
      rw [has, before, Bool.or_false, beq_iff_eq] at used
      rw [if_pos ⟨used, used ▸ before⟩]
      exact lt_succ_of_le (tally.bounded ticket old)

theorem Tally.leave {region : Region}
    (left : region ≠ .inside) (lasts : ∀ kind, after.last kind = numbers.last kind)
    (held : ∀ ticket, later ticket → tickets ticket) :
    Tally after { issued with region } later where
  counts := fun kind => by rw [lasts, tally.counts]
  inside := fun inside => absurd inside left
  bounded := fun ticket there => by
    rw [lasts]
    exact tally.bounded ticket (held ticket there)
  apart := fun ticket other there also => tally.apart ticket other (held _ there) (held _ also)
  fresh := fun inside => absurd inside left

theorem Tally.close {region : Region} (new : Ticket)
    (inside : issued.region = .inside) (left : region ≠ .inside)
    (lasts : ∀ kind, after.last kind = numbers.last kind)
    (used : numbers.coalescingState.has new.isP2P = true)
    (seq : new.seq = numbers.last new.isP2P)
    (held : ∀ ticket, later ticket → tickets ticket ∨ ticket = new) :
    Tally after { issued with region } later where
  counts := fun kind => by rw [lasts, tally.counts]
  inside := fun inside => absurd inside left
  bounded := fun ticket there => by
    rw [lasts]
    rcases held ticket there with old | rfl
    · exact tally.bounded ticket old
    · exact le_of_eq seq
  apart := fun ticket other there also kinds seqs => by
    have older : ∀ ticket, tickets ticket → ticket.isP2P = new.isP2P → ticket.seq = new.seq →
        False := by
      intro ticket there kind same
      have less := tally.fresh inside ticket there (kind ▸ used)
      rw [same, seq, kind] at less
      exact lt_irrefl _ less
    rcases held ticket there with old | rfl
    · rcases held other also with aged | rfl
      · exact tally.apart ticket other old aged kinds seqs
      · exact (older ticket old kinds seqs).elim
    · rcases held other also with old | rfl
      · exact (older other old kinds.symm seqs.symm).elim
      · rfl
  fresh := fun inside => absurd inside left

theorem Tally.start (lasts : ∀ kind, after.last kind = numbers.last kind)
    (active : after.coalescingState.coalActive = true)
    (unused : ∀ kind, after.coalescingState.has kind = false)
    (held : ∀ ticket, later ticket → tickets ticket) :
    Tally after { items := [] :: issued.items, region := .inside } later where
  counts := fun kind => by
    rw [lasts, tally.counts, countP_cons]
    rfl
  inside := fun _ => ⟨active, [], issued.items, rfl, fun kind => by rw [unused]; rfl⟩
  bounded := fun ticket there => by
    rw [lasts]
    exact tally.bounded ticket (held ticket there)
  apart := fun ticket other there also => tally.apart ticket other (held _ there) (held _ also)
  fresh := fun _ ticket _ used => by
    rw [unused] at used
    cases used

theorem Tally.congr
    (held : ∀ ticket, later ticket → tickets ticket) : Tally numbers issued later where
  counts := tally.counts
  inside := tally.inside
  bounded := fun ticket there => tally.bounded ticket (held ticket there)
  apart := fun ticket other there also => tally.apart ticket other (held _ there) (held _ also)
  fresh := fun inside ticket there => tally.fresh inside ticket (held ticket there)

end Tally

def Group.issuing (self : Group) : Numbers × Option Nat × List Work :=
  (self.numbers, self.coalescedComm, self.enqueued)

structure Numbering (session : Session) : Prop where
  tally : ∀ group, Tally (session.world.groups group).numbers (session.issued group)
    (session.world.Holds group)
  marked : ∀ group, (session.world.groups group).Marked
  ending : ∀ thread call, session.world.calls thread = some call → call.resets = true →
    (session.issued call.group).region = .ending
  alone : ∀ thread other call member, session.world.calls thread = some call →
    session.world.calls other = some member → call.resets = true → member.resets = true →
    call.group = member.group → thread = other

section Numbering

variable {world after : World} {session : Session} {thread group : Nat} {fate : Fate}

theorem holds_of_same (calls : after.calls = world.calls)
    (enqueued : (after.groups group).enqueued = (world.groups group).enqueued) {ticket : Ticket}
    (held : after.Holds group ticket) : world.Holds group ticket := by
  unfold World.Holds at held ⊢
  rw [calls, enqueued] at held
  exact held

variable {outcome : Option Call}

theorem holds_of_setCall {ticket : Ticket}
    (held : (world.setCall thread (remaining outcome)).Holds group ticket) :
    (∃ work ∈ (world.groups group).enqueued, work.ticket = ticket) ∨
      (∃ other call, other ≠ thread ∧ world.calls other = some call ∧ call.group = group ∧
        call.Entitled ∧ call.work.map Work.ticket = some ticket) ∨
      ∃ call, outcome = some call ∧ call.group = group ∧ call.Entitled ∧
        call.work.map Work.ticket = some ticket := by
  rcases held with placed | ⟨other, call, found, same, entitled, holds⟩
  · exact .inl placed
  · change update world.calls thread _ other = some call at found
    by_cases here : other = thread
    · rw [here, update_self] at found
      exact .inr (.inr ⟨call, remaining_some found, same, entitled, holds⟩)
    · rw [update_of_ne here] at found
      exact .inr (.inl ⟨other, call, here, found, same, entitled, holds⟩)

variable {next : Section} {rest : List Section} {final : World}

theorem Ran.ticket {call later : Call}
    {ticket : Ticket} (ran : Ran world fate { call with rest } next (some later) final)
    (left : call.rest = next :: rest) (entitled : later.Entitled)
    (holds : later.work.map Work.ticket = some ticket) :
    call.Entitled ∧ call.work.map Work.ticket = some ticket := by
  obtain ⟨places, enqueues⟩ := entitled
  have tail : ∀ {section_ : Section}, section_ ∈ rest → section_ ∈ call.rest := by
    intro section_ there
    rw [left]
    exact .tail _ there
  cases ran with
  | charged has =>
    refine ⟨⟨tail places, enqueues.imp_right tail⟩, ?_⟩
    rw [show call.work = _ from has]
    exact holds
  | readStatus =>
    refine ⟨⟨tail places, .inr ?_⟩, holds⟩
    rw [left]
    exact .head _
  | _ => exact ⟨⟨tail places, enqueues.imp_right tail⟩, holds⟩

theorem enqueued_modifyGroup (change : Group → Group)
    (same : ∀ self, (change self).enqueued = self.enqueued) (other : Nat) :
    ((world.modifyGroup group change).groups other).enqueued = (world.groups other).enqueued :=
  World.modifyGroup_keeps (same _) other

variable {call : Call}

theorem Ran.enqueues (ran : Ran world fate call next outcome final) {work : Work}
    (member : work ∈ (final.groups group).enqueued) :
    work ∈ (world.groups group).enqueued ∨
      next = .emplace ∧ call.group = group ∧ call.work = some work ∧ call.admitted = true := by
  cases ran with
  | closed same =>
    exact .inl (group_of_works Group.enqueued (fun _ => rfl) same.works group ▸ member)
  | notClosed same =>
    exact .inl (group_of_works Group.enqueued (fun _ => rfl) same.works group ▸ member)
  | charged =>
    rw [enqueued_modifyGroup (takeTimeout _ _) fun _ => rfl] at member
    exact .inl member
  | @emplaced placed has admitted =>
    by_cases same : group = call.group
    · rw [same, World.modifyGroup_same] at member
      rcases List.mem_cons.mp member with rfl | old
      · exact .inr ⟨rfl, same.symm, has, admitted⟩
      · exact .inl (same ▸ old)
    · rw [World.modifyGroup_other _ same] at member
      exact .inl member
  | reset =>
    rw [enqueued_modifyGroup closeRegion fun _ => rfl] at member
    exact .inl member
  | _ => exact .inl member

theorem holds_of_ran {ticket : Ticket} (orderly : Orderly world)
    (found : world.calls thread = some call) (left : call.rest = next :: rest)
    (ran : Ran world fate { call with rest } next outcome final)
    (held : (final.setCall thread (remaining outcome)).Holds group ticket) :
    world.Holds group ticket := by
  rcases holds_of_setCall held with ⟨work, member, same⟩ | ⟨other, member, _, there, rest⟩ |
      ⟨later, goes, here, entitled, holds⟩
  · rcases ran.enqueues member with old | ⟨rfl, here, has, admitted⟩
    · exact .inl ⟨work, old, same⟩
    · have enqueue := ((orderly.ok thread call found).decided admitted).1
      refine .inr ⟨thread, call, found, here, ⟨?_, .inl enqueue⟩, ?_⟩
      · rw [left]
        exact .head _
      · rw [show call.work = _ from has, ← same]
        rfl
  · rw [ran.calls] at there
    exact .inr ⟨other, member, there, rest⟩
  · subst goes
    obtain ⟨_, same, _⟩ := ran.later rfl
    obtain ⟨entitled, holds⟩ := ran.ticket left entitled holds
    exact .inr ⟨thread, call, found, same ▸ here, entitled, holds⟩

variable {self : Group} {numbers : Numbers}

theorem Group.marked_of_issuing {before : Group} (same : self.issuing = before.issuing)
    (marked : before.Marked) : self.Marked := by
  have comm : self.coalescedComm = before.coalescedComm := congrArg (·.2.1) same
  have state : self.coalescingState = before.coalescingState := congrArg (·.1.coalescingState) same
  unfold Group.Marked
  rw [comm, state]
  exact marked

theorem Numbering.keep (numbering : Numbering session) (calls : after.calls = session.world.calls)
    (issuing : ∀ group, (after.groups group).issuing = (session.world.groups group).issuing) :
    Numbering { session with world := after } where
  tally := fun group => by
    have numbers : (after.groups group).numbers = (session.world.groups group).numbers :=
      congrArg (·.1) (issuing group)
    have tally := numbering.tally group
    rw [← numbers] at tally
    exact tally.congr fun ticket => holds_of_same calls (congrArg (·.2.2) (issuing group))
  marked := fun group => Group.marked_of_issuing (issuing group) (numbering.marked group)
  ending := fun thread call found => numbering.ending thread call (calls ▸ found)
  alone := fun thread other call member found also =>
    numbering.alone thread other call member (calls ▸ found) (calls ▸ also)

theorem Watched.issuing {queries : Queries} (watched : Watched world group queries after) :
    after.calls = world.calls ∧
      ∀ other, (after.groups other).issuing = (world.groups other).issuing := by
  cases watched <;> exact ⟨rfl, World.modifyGroup_keeps rfl⟩

theorem calls_of_setCall {other : Nat}
    (found : (world.setCall thread outcome).calls other = some call) :
    other = thread ∧ outcome = some call ∨ other ≠ thread ∧ world.calls other = some call := by
  change update world.calls thread outcome other = some call at found
  by_cases same : other = thread
  · rw [same, update_self] at found
    exact .inl ⟨same, found⟩
  · rw [update_of_ne same] at found
    exact .inr ⟨same, found⟩

section

variable (ran : Ran world fate call next outcome final)
include ran

theorem Ran.counts : (∀ other, (final.groups other).numbers = (world.groups other).numbers ∧
      (final.groups other).coalescedComm = (world.groups other).coalescedComm) ∨
      next = .resetCoalescing ∧ final = world.modifyGroup call.group closeRegion := by
  cases ran with
  | closed _ _ _ _ _ groups => exact .inl fun other => by rw [groups]; exact ⟨rfl, rfl⟩
  | notClosed _ _ _ groups => exact .inl fun other => by rw [groups]; exact ⟨rfl, rfl⟩
  | charged =>
    exact .inl fun other => ⟨World.modifyGroup_keeps rfl other, World.modifyGroup_keeps rfl other⟩
  | emplaced =>
    exact .inl fun other => ⟨World.modifyGroup_keeps rfl other, World.modifyGroup_keeps rfl other⟩
  | reset => exact .inr ⟨rfl, rfl⟩
  | _ => exact .inl fun _ => ⟨rfl, rfl⟩

theorem Ran.lasts (other : Nat) (kind : Bool) :
    (final.groups other).numbers.last kind = (world.groups other).numbers.last kind := by
  rcases ran.counts with same | ⟨_, rfl⟩
  · rw [(same other).1]
  · by_cases here : other = call.group
    · rw [here, World.modifyGroup_same]
      rfl
    · rw [World.modifyGroup_other _ here]

theorem Ran.marked {other : Nat}
    (marked : (world.groups other).Marked) : (final.groups other).Marked := by
  rcases ran.counts with same | ⟨_, rfl⟩
  · obtain ⟨numbers, comm⟩ := same other
    have state := congrArg Numbers.coalescingState numbers
    unfold Group.Marked
    rw [comm, show (final.groups other).coalescingState = _ from state]
    exact marked
  · by_cases here : other = call.group
    · rw [here, World.modifyGroup_same]
      exact fun set => by cases set
    · rw [World.modifyGroup_other _ here]
      exact marked

end

theorem Numbering.proceed (numbering : Numbering session)
    (orderly : Orderly session.world) (found : session.world.calls thread = some call)
    (left : call.rest = next :: rest)
    (ran : Ran session.world fate { call with rest } next outcome final) :
    Numbering {
      world := final.setCall thread (remaining outcome)
      issued := session.follow (final.setCall thread (remaining outcome)) (.proceed thread fate) } := by
  have follows : session.follow (final.setCall thread (remaining outcome)) (.proceed thread fate) =
      if call.resets then update session.issued call.group
        ((session.issued call.group).leave (remaining outcome)) else session.issued := by
    simp only [Session.follow, found, World.setCall_same]
  have still : ∀ later, remaining outcome = some later → later.group = call.group ∧
      (later.resets = true → call.resets = true) := by
    intro later remains
    obtain ⟨_, same, tail, _⟩ := ran.later (remaining_some remains)
    refine ⟨same, fun resets => ?_⟩
    simp only [Call.resets, tail, left, List.contains_cons] at resets ⊢
    rw [resets, Bool.or_true]
  have others : ∀ other, other ≠ call.group →
      (final.groups other).numbers = (session.world.groups other).numbers := by
    intro other different
    rcases ran.counts with same | ⟨_, rfl⟩
    · exact (same other).1
    · rw [World.modifyGroup_other _ different]
  have held : ∀ other ticket, (final.setCall thread (remaining outcome)).Holds other ticket →
      session.world.Holds other ticket := fun other ticket => holds_of_ran orderly found left ran
  have marked : ∀ group, ((final.setCall thread (remaining outcome)).groups group).Marked :=
    fun group => ran.marked (numbering.marked group)
  have alone : ∀ first second later member,
      (final.setCall thread (remaining outcome)).calls first = some later →
      (final.setCall thread (remaining outcome)).calls second = some member →
      later.resets = true → member.resets = true → later.group = member.group → first = second := by
    intro first second later member there also resets too same
    rcases calls_of_setCall there with ⟨rfl, goes⟩ | ⟨_, old⟩
    · rcases calls_of_setCall also with ⟨rfl, _⟩ | ⟨_, aged⟩
      · rfl
      · rw [ran.calls] at aged
        obtain ⟨here, did⟩ := still later goes
        exact numbering.alone first second call member found aged (did resets) too
          (here.symm.trans same)
    · rw [ran.calls] at old
      rcases calls_of_setCall also with ⟨rfl, goes⟩ | ⟨_, aged⟩
      · obtain ⟨here, did⟩ := still member goes
        exact numbering.alone first second later call old found resets (did too) (same.trans here)
      · rw [ran.calls] at aged
        exact numbering.alone first second later member old aged resets too same
  rw [follows]
  cases resets : call.resets with
  | false =>
    have stays : ∀ group, (final.groups group).numbers = (session.world.groups group).numbers := by
      intro group
      rcases ran.counts with same | ⟨rfl, _⟩
      · exact (same group).1
      · simp [Call.resets, left] at resets
    refine ⟨fun group => ?_, marked, fun other member there resets_ => ?_, alone⟩
    · have tally := numbering.tally group
      rw [← stays] at tally
      exact tally.congr fun ticket => held group ticket
    · rcases calls_of_setCall there with ⟨rfl, goes⟩ | ⟨_, there⟩
      · rw [(still member goes).2 resets_] at resets
        cases resets
      · rw [ran.calls] at there
        exact numbering.ending other member there resets_
  | true =>
    rw [if_pos rfl]
    refine ⟨fun group => ?_, marked, fun other member there resets_ => ?_, alone⟩
    · by_cases here : group = call.group
      · rw [here]
        dsimp only
        rw [update_self]
        refine (numbering.tally call.group).leave ?_ (ran.lasts _) (held _)
        split <;> nofun
      · dsimp only
        rw [update_of_ne here]
        have tally := numbering.tally group
        rw [← others group here] at tally
        exact tally.congr fun ticket => held group ticket
    · rcases calls_of_setCall there with ⟨rfl, goes⟩ | ⟨different, there⟩
      · rw [(still member goes).1]
        dsimp only
        rw [update_self]
        rw [goes]
        exact if_pos resets_
      · rw [ran.calls] at there
        have apart : member.group ≠ call.group := fun same =>
          different (numbering.alone other thread member call there found resets_ resets same)
        dsimp only
        rw [update_of_ne apart]
        exact numbering.ending other member there resets_

theorem Numbering.issue {issued : Nat → Issued}
    (numbering : Numbering session) (free : (session.issued group).region ≠ .ending)
    (calls : final.calls = session.world.calls)
    (enqueued : ∀ other, (final.groups other).enqueued = (session.world.groups other).enqueued)
    (called : ∀ call, outcome = some call → call.group = group)
    (others : ∀ other, other ≠ group → issued other = session.issued other ∧
      (final.groups other).numbers = (session.world.groups other).numbers)
    (marked : ∀ group, (final.groups group).Marked)
    (ends : ∀ call, remaining outcome = some call → call.resets = true →
      (issued group).region = .ending) (tally : ∀ later : Ticket → Prop,
      (∀ ticket, later ticket → session.world.Holds group ticket ∨
        ∃ call, outcome = some call ∧ call.Entitled ∧ call.work.map Work.ticket = some ticket) →
      Tally (final.groups group).numbers (issued group) later) :
    Numbering { world := final.setCall thread (remaining outcome), issued } := by
  have held : ∀ {other ticket}, (final.setCall thread (remaining outcome)).Holds other ticket →
      session.world.Holds other ticket ∨ ∃ call, outcome = some call ∧ call.group = other ∧
        call.Entitled ∧ call.work.map Work.ticket = some ticket := by
    intro other ticket holds
    rcases holds_of_setCall holds with ⟨work, member, same⟩ |
        ⟨partner, call, _, there, rest⟩ | new
    · rw [enqueued] at member
      exact .inl (.inl ⟨work, member, same⟩)
    · rw [calls] at there
      exact .inl (.inr ⟨partner, call, there, rest⟩)
    · exact .inr new
  have apart : ∀ {other member}, session.world.calls other = some member → member.resets = true →
      member.group ≠ group := by
    intro other member there resets same
    exact free (same ▸ numbering.ending other member there resets)
  constructor
  · intro other
    by_cases here : other = group
    · rw [here]
      refine tally _ fun ticket holds => (held holds).imp_right ?_
      rintro ⟨call, goes, _, rest⟩
      exact ⟨call, goes, rest⟩
    · obtain ⟨same, numbers⟩ := others other here
      change Tally (final.groups other).numbers (issued other) _
      rw [same, numbers]
      refine (numbering.tally other).congr fun ticket holds => (held holds).resolve_right ?_
      rintro ⟨call, goes, there, _⟩
      exact here (there.symm.trans (called call goes))
  · exact marked
  · intro other call found resets
    rcases calls_of_setCall found with ⟨rfl, goes⟩ | ⟨_, old⟩
    · rw [called call (remaining_some goes)]
      exact ends call goes resets
    · rw [calls] at old
      change (issued call.group).region = .ending
      rw [(others call.group (apart old resets)).1]
      exact numbering.ending other call old resets
  · intro first second call member found also resets too same
    rcases calls_of_setCall found with ⟨rfl, goes⟩ | ⟨_, old⟩
    · rcases calls_of_setCall also with ⟨rfl, _⟩ | ⟨_, aged⟩
      · rfl
      · rw [calls] at aged
        exact absurd (same.symm.trans (called call (remaining_some goes))) (apart aged too)
    · rw [calls] at old
      rcases calls_of_setCall also with ⟨rfl, goes⟩ | ⟨_, aged⟩
      · exact absurd (same.trans (called member (remaining_some goes))) (apart old resets)
      · rw [calls] at aged
        exact numbering.alone first second call member old aged resets too same

variable {operation : Operation}

theorem count_outside
    (outside : self.coalescingState.isSet = false) (issues : ∀ opType, operation ≠ .endCoalescing opType)
    (kind : Bool) : (operation.count self).numbers.last kind =
      self.numbers.last kind + if kind = operation.isP2P then 1 else 0 := by
  cases operation with
  | endCoalescing opType => exact absurd rfl (issues opType)
  | _ =>
    simp only [Operation.count, outside]
    cases kind <;> rfl

theorem count_inside {counter : UInt64}
    (inside : self.coalescingState.isSet = true) (issues : ∀ opType, operation ≠ .endCoalescing opType)
    (fits : operation.Fits .inside counter) :
    (∀ kind, (operation.count self).numbers.last kind = self.numbers.last kind +
      if kind = operation.isP2P ∧ self.coalescingState.has operation.isP2P = false then 1 else 0) ∧
    (∀ kind, (operation.count self).coalescingState.has kind =
      (kind == operation.isP2P || self.coalescingState.has kind)) ∧
    (operation.count self).coalescingState.coalActive = self.coalescingState.coalActive := by
  cases operation with
  | endCoalescing opType => exact absurd rfl (issues opType)
  | collectiveCoalesced => cases fits
  | collective =>
    simp only [Operation.count, inside]
    refine ⟨fun kind => ?_, fun kind => ?_, ?_⟩
    · cases kind <;> cases used : self.coalescingState.coalColl <;>
        simp [Operation.isP2P, CoalescingState.has, Group.numbers, Numbers.last, markCoalColl,
          bumpSeqCollective, used]
    · cases kind <;> cases self.coalescingState.coalColl <;> rfl
    · cases self.coalescingState.coalColl <;> rfl
  | pointToPoint =>
    simp only [Operation.count, inside]
    refine ⟨fun kind => ?_, fun kind => ?_, ?_⟩
    · cases kind <;> cases used : self.coalescingState.coalP2P <;>
        simp [Operation.isP2P, CoalescingState.has, Group.numbers, Numbers.last, markCoalP2P,
          bumpSeqP2P, used]
    · cases kind <;> cases self.coalescingState.coalP2P <;> rfl
    · cases self.coalescingState.coalP2P <;> rfl

theorem count_marked (operation : Operation) (marked : self.Marked) :
    (operation.count self).Marked := by
  have flag : ∀ {group : Group}, group.coalescedComm = self.coalescedComm →
      (self.coalescingState.used → group.coalescingState.used) → group.Marked := by
    intro group comm grows set
    rw [comm] at set
    exact grows (marked set)
  cases operation with
  | endCoalescing => exact marked
  | collectiveCoalesced => exact flag rfl id
  | collective =>
    unfold Operation.count
    dsimp only
    split
    · split
      · exact flag rfl fun _ => .inl rfl
      · exact flag rfl fun _ => .inl rfl
    · exact flag rfl id
  | pointToPoint =>
    unfold Operation.count
    dsimp only
    split
    · split
      · exact flag rfl fun _ => .inr rfl
      · exact flag rfl fun _ => .inr rfl
    · exact flag rfl id

theorem Numbering.isSet (numbering : Numbering session)
    (inside : (session.issued group).region = .inside) :
    (session.world.groups group).coalescingState.isSet = true :=
  isSet_of_active ((numbering.tally group).inside inside).1

theorem Numbering.begins (numbering : Numbering session)
    (allowed : KeepsNumbers session (.begin thread group operation fate))
    (issues : ∀ opType, operation ≠ .endCoalescing opType) :
    Begins operation thread group fate session.world := by
  obtain ⟨unended, clear, fits⟩ := allowed
  have outside : (session.world.groups group).coalescingState.isSet = false →
      (session.issued group).region = .outside := by
    intro unset
    cases region : (session.issued group).region with
    | outside => rfl
    | inside =>
      rw [numbering.isSet region] at unset
      cases unset
    | ending => exact absurd region unended
  have ready : (session.world.groups group).coalescingState.isSet =
      (session.world.groups group).coalescingState.coalActive := by
    cases region : (session.issued group).region with
    | outside => rw [clear region, active_of_unset (clear region)]
    | inside => exact (numbering.isSet region).trans ((numbering.tally group).inside region).1.symm
    | ending => exact absurd region unended
  cases operation with
  | collective => exact beginCollective_begins ready
  | collectiveCoalesced => exact beginCollectiveCoalesced_begins (clear fits)
  | pointToPoint => exact beginPointToPoint_begins ready fun unset => fits (outside unset)
  | endCoalescing opType => exact absurd rfl (issues opType)

theorem Numbering.counted {later : Ticket → Prop} (numbering : Numbering session) (new : Ticket)
    (allowed : KeepsNumbers session (.begin thread group operation fate))
    (issues : ∀ opType, operation ≠ .endCoalescing opType)
    (same : numbers = (operation.count (session.world.groups group)).numbers)
    (kind : new.isP2P = operation.isP2P) (seq : new.seq = numbers.last operation.isP2P)
    (held : ∀ ticket, later ticket → session.world.Holds group ticket ∨
      (session.issued group).region ≠ .inside ∧ ticket = new) :
    Tally numbers ((session.issued group).add (.of operation.isP2P)) later := by
  obtain ⟨unended, clear, fits⟩ := allowed
  have tally := numbering.tally group
  subst same
  cases region : (session.issued group).region with
  | outside =>
    exact tally.single region (count_outside (clear region) issues) kind seq
      fun ticket holds => (held ticket holds).imp_right And.right
  | inside =>
    rw [region] at fits
    obtain ⟨lasts, has, active⟩ := count_inside (numbering.isSet region) issues fits
    exact tally.join region lasts has (active.trans (tally.inside region).1)
      fun ticket holds => (held ticket holds).resolve_right fun new => new.1 region
  | ending => exact absurd region unended

theorem Numbered.unentitled {ticket : Ticket} (numbered : Numbered operation group world call after)
    (inside : (world.groups group).coalescingState.isSet = true) (entitled : call.Entitled)
    (holds : call.work.map Work.ticket = some ticket) : False := by
  obtain ⟨silent, workless⟩ := numbered.inside inside
  rcases entitled.2 with enqueues | reads
  · rw [silent] at enqueues
    cases enqueues
  · rcases numbered.rest with plain | single
    · rw [plain] at reads
      exact absurd reads (by decide)
    · rw [workless single] at holds
      cases holds

theorem Numbering.begin (numbering : Numbering session)
    (allowed : KeepsNumbers session (.begin thread group operation fate))
    (issues : ∀ opType, operation ≠ .endCoalescing opType) :
    Numbering {
      world := World.outcome thread (operation.begin thread group fate session.world)
      issued := session.follow (World.outcome thread (operation.begin thread group fate session.world))
        (.begin thread group operation fate) } := by
  have follows : ∀ final, session.follow final (.begin thread group operation fate) =
      if operation.issues thread group fate session.world then update session.issued group
        ((session.issued group).add (.of operation.isP2P)) else session.issued := by
    intro final
    cases operation with
    | endCoalescing opType => exact absurd rfl (issues opType)
    | _ => rfl
  have marked : ∀ other,
      ((session.world.modifyGroup group operation.count).groups other).Marked := by
    intro other
    by_cases here : other = group
    · rw [here, World.modifyGroup_same]
      exact count_marked operation (numbering.marked group)
    · rw [World.modifyGroup_other _ here]
      exact numbering.marked other
  have made : wp (operation.begin thread group fate) (fun call after =>
      Made session.world group call after) (fun _ after => SameWorks session.world after)
      session.world := begin_made operation
  have spec := wp_and made (numbering.begins allowed issues)
  rw [follows]
  cases run : operation.begin thread group fate session.world with
  | error exception final =>
    obtain ⟨same, steady⟩ := wp_error spec run
    have calls := read_of_works World.calls (fun _ => rfl) same.works
    have enqueued := group_of_works Group.enqueued (fun _ => rfl) same.works
    rw [outcome_error]
    cases issued : operation.issues thread group fate session.world with
    | false =>
      rw [if_neg (by rw [issued]; decide)] at steady
      refine numbering.issue allowed.1 calls enqueued (fun _ ended => by cases ended)
        (fun other _ => ⟨rfl, steady.numbers other⟩)
        (fun other => steady.marked other (numbering.marked other))
        (fun _ ended => by cases ended) fun later held => ?_
      rw [steady.numbers group]
      refine (numbering.tally group).congr fun ticket there => ?_
      exact (held ticket there).resolve_right fun ⟨_, none_, _⟩ => by cases none_
    | true =>
      rw [if_pos issued] at steady
      rw [if_pos rfl]
      refine numbering.issue allowed.1 calls enqueued (fun _ ended => by cases ended)
        (fun other different => ?_)
        (fun other => steady.marked other (marked other)) (fun _ ended => by cases ended)
        fun later held => ?_
      · rw [update_of_ne different, steady.numbers other, World.modifyGroup_other _ different]
        exact ⟨rfl, rfl⟩
      · rw [update_self]
        refine numbering.counted
          ⟨0, operation.isP2P, (final.groups group).numbers.last operation.isP2P⟩ allowed issues ?_
          rfl rfl fun ticket there => ?_
        · rw [steady.numbers group, World.modifyGroup_same]
        · exact .inl ((held ticket there).resolve_right fun ⟨_, none_, _⟩ => by cases none_)
  | ok call final =>
    obtain ⟨made, issued, numbered⟩ := wp_ok spec run
    have steady := numbered.counted
    have calls := read_of_works World.calls (fun _ => rfl) made.works
    have enqueued := group_of_works Group.enqueued (fun _ => rfl) made.works
    have numbers : (final.groups group).numbers =
        (operation.count (session.world.groups group)).numbers := by
      rw [steady.numbers group, World.modifyGroup_same]
    have ticket : ∃ new : Ticket, new.isP2P = operation.isP2P ∧
        new.seq = (final.groups group).numbers.last operation.isP2P ∧
        ∀ ticket, call.work.map Work.ticket = some ticket → ticket = new := by
      cases has : call.work with
      | none => exact ⟨⟨0, operation.isP2P, _⟩, rfl, rfl, nofun⟩
      | some work =>
        obtain ⟨kind, seq⟩ := numbered.numbered work has
        refine ⟨work.ticket, kind, ?_, fun ticket same => (some.inj same).symm⟩
        rw [numbers]
        exact seq
    obtain ⟨new, kind, seq, only⟩ := ticket
    rw [outcome_ok, if_pos issued]
    refine numbering.issue allowed.1 calls enqueued (fun later same => ?_)
      (fun other different => ?_) (fun other => steady.marked other (marked other))
      (fun later remains resets => ?_) fun later held => ?_
    · cases same
      exact made.group
    · rw [update_of_ne different, steady.numbers other, World.modifyGroup_other _ different]
      exact ⟨rfl, rfl⟩
    · obtain rfl := some.inj (remaining_some remains)
      unfold Call.resets at resets
      rcases numbered.rest with plain | single
      · rw [plain] at resets
        exact absurd resets (by decide)
      · rw [single] at resets
        exact absurd resets (by decide)
    · rw [update_self]
      refine numbering.counted new allowed issues numbers kind seq fun ticket there => ?_
      rcases held ticket there with old | ⟨_, same, entitled, holds⟩
      · exact .inl old
      · cases same
        exact .inr ⟨fun inside => numbered.unentitled (numbering.isSet inside) entitled holds,
          only ticket holds⟩

theorem Tally.ended {after : Numbers} {issued : Issued} {tickets later : Ticket → Prop}
    {region : Region} (tally : Tally numbers issued tickets)
    (inside : issued.region = .inside) (left : region ≠ .inside) (same : after = numbers)
    (used : numbers.coalescingState.used)
    (numbered : call.NumberedBy numbers numbers.coalescingState.coalP2P)
    (held : ∀ ticket, later ticket → tickets ticket ∨ call.work.map Work.ticket = some ticket) :
    Tally after { issued with region } later := by
  have flagged : numbers.coalescingState.has numbers.coalescingState.coalP2P = true := by
    cases batch : numbers.coalescingState.coalP2P with
    | true => exact batch
    | false => exact used.resolve_right fun set => by rw [batch] at set; cases set
  subst same
  cases has : call.work with
  | none =>
    refine tally.leave left (fun _ => rfl) fun ticket there => (held ticket there).resolve_right ?_
    rw [has]
    nofun
  | some work =>
    obtain ⟨kind, seq⟩ := numbered work has
    have named : work.ticket.isP2P = after.coalescingState.coalP2P := kind
    refine tally.close work.ticket inside left (fun _ => rfl) (named ▸ flagged)
      (named ▸ seq) fun ticket there => (held ticket there).imp_right fun same => ?_
    rw [has] at same
    exact (some.inj same).symm

theorem Numbering.finish {opType : OpType} (numbering : Numbering session)
    (allowed : KeepsNumbers session (.begin thread group (.endCoalescing opType) fate)) :
    Numbering {
      world := World.outcome thread (beginEndCoalescing thread group opType fate session.world)
      issued := session.follow
        (World.outcome thread (beginEndCoalescing thread group opType fate session.world))
        (.begin thread group (.endCoalescing opType) fate) } := by
  obtain ⟨unended, clear, _⟩ := allowed
  have made : wp (beginEndCoalescing thread group opType fate) (fun call after =>
      Made session.world group call after) (fun _ after => SameWorks session.world after)
      session.world := beginEndCoalescing_made
  have ended : wp (beginEndCoalescing thread group opType fate) (Ended group session.world)
      (fun _ after => Steady session.world after) session.world := beginEndCoalescing_ended
  have spec := wp_and made ended
  have left : ∀ outcome, (Issued.leave outcome (session.issued group)).region ≠ .inside := by
    intro outcome
    unfold Issued.leave
    dsimp only
    split <;> nofun
  have leaving : ∀ outcome other, other ≠ group → update session.issued group
      ((session.issued group).leave outcome) other = session.issued other :=
    fun outcome other different => update_of_ne different _ _
  unfold Session.follow
  dsimp only
  cases run : beginEndCoalescing thread group opType fate session.world with
  | error exception final =>
    obtain ⟨same, steady⟩ := wp_error spec run
    have calls := read_of_works World.calls (fun _ => rfl) same.works
    have enqueued := group_of_works Group.enqueued (fun _ => rfl) same.works
    rw [outcome_error]
    refine numbering.issue unended calls enqueued (fun _ ended => by cases ended)
      (fun other different => ⟨leaving _ other different, steady.numbers other⟩)
      (fun other => steady.marked other (numbering.marked other)) (fun _ ended => by cases ended)
      fun later held => ?_
    rw [update_self, steady.numbers group]
    refine (numbering.tally group).leave (left _) (fun _ => rfl) fun ticket there => ?_
    exact (held ticket there).resolve_right fun ⟨_, none_, _⟩ => by cases none_
  | ok call final =>
    obtain ⟨made, ended⟩ := wp_ok spec run
    have calls := read_of_works World.calls (fun _ => rfl) made.works
    have enqueued := group_of_works Group.enqueued (fun _ => rfl) made.works
    have called : ∀ later, some call = some later → later.group = group := by
      intro later same
      cases same
      exact made.group
    rw [outcome_ok]
    cases comm : (session.world.groups group).coalescedComm with
    | none =>
      obtain ⟨workless, noneLeft, steady⟩ := ended.idle comm
      refine numbering.issue unended calls enqueued called (fun other different => ?_)
        (fun other => ?_) (fun later remains resets => ?_) fun later held => ?_
      · rw [steady.numbers other, World.modifyGroup_other _ different]
        exact ⟨leaving _ other different, rfl⟩
      · refine steady.marked other ?_
        by_cases here : other = group
        · rw [here, World.modifyGroup_same]
          intro set
          rw [show (Group.coalescedComm _) = _ from comm] at set
          cases set
        · rw [World.modifyGroup_other _ here]
          exact numbering.marked other
      · obtain rfl := some.inj (remaining_some remains)
        rw [Call.resets, noneLeft] at resets
        cases resets
      · rw [update_self, steady.numbers group, World.modifyGroup_same]
        refine (numbering.tally group).leave (left _) (fun _ => rfl) fun ticket there => ?_
        refine (held ticket there).resolve_right ?_
        rintro ⟨_, same, _, holds⟩
        rw [← some.inj same, workless] at holds
        cases holds
    | some _ =>
      obtain ⟨sections, steady, numbered⟩ := ended.used (by rw [comm]; nofun)
      have used := numbering.marked group (by rw [comm]; rfl)
      have inside : (session.issued group).region = .inside := by
        cases region : (session.issued group).region with
        | inside => rfl
        | ending => exact absurd region unended
        | outside =>
          have unset := clear region
          simp only [CoalescingState.isSet, Bool.or_eq_false_iff] at unset
          rcases used with coll | p2p
          · rw [unset.1.2] at coll
            cases coll
          · rw [unset.2] at p2p
            cases p2p
      refine numbering.issue unended calls enqueued called
        (fun other different => ⟨leaving _ other different, steady.numbers other⟩)
        (fun other => steady.marked other (numbering.marked other))
        (fun later remains resets => ?_) fun later held => ?_
      · rw [update_self, World.setCall_same]
        unfold Issued.leave
        rw [remains]
        exact if_pos resets
      · rw [update_self]
        refine (numbering.tally group).ended inside (left _) (steady.numbers group) used numbered
          fun ticket there => (held ticket there).imp_right ?_
        rintro ⟨_, same, _, holds⟩
        rw [← some.inj same] at holds
        exact holds

def openRegion (self : Group) : Group :=
  { self with
    coalescedDevice := -1
    coalescedComm := none
    coalescingState := { self.coalescingState with coalActive := true } }

theorem startCoalescing_groups (world : World) (thread group : Nat) (fate : Fate) :
    (World.afterwards (startCoalescing thread group fate world)).groups =
      (world.modifyGroup group openRegion).groups := by
  cases fate with
  | mk _ _ _ _ groups _ => cases groups <;> rfl

theorem groupStart_groups (world : World) (thread : Nat) (fate : Fate) :
    (World.afterwards (groupStart thread fate world)).groups = world.groups := by
  cases fate with
  | mk _ _ _ _ groups _ => cases groups <;> rfl

theorem groupEnd_groups (world : World) (thread : Nat) (fate : Fate) :
    (World.afterwards (groupEnd thread fate world)).groups = world.groups := by
  cases fate with
  | mk _ _ _ _ groups _ => cases groups <;> rfl

theorem Numbering.start (numbering : Numbering session)
    (allowed : KeepsNumbers session (.startCoalescing thread group fate))
    (same : SameWorks session.world after)
    (groups : after.groups = (session.world.modifyGroup group openRegion).groups) :
    Numbering {
      world := after
      issued := session.follow after (.startCoalescing thread group fate) } := by
  obtain ⟨outside, unset⟩ := allowed
  have calls := read_of_works World.calls (fun _ => rfl) same.works
  have enqueued := group_of_works Group.enqueued (fun _ => rfl) same.works
  have held : ∀ other ticket, after.Holds other ticket → session.world.Holds other ticket :=
    fun other ticket => holds_of_same calls (enqueued other)
  have lasts : ∀ kind, (after.groups group).numbers.last kind =
      (session.world.groups group).numbers.last kind := by
    intro kind
    rw [groups, World.modifyGroup_same]
    rfl
  have begins : Tally (after.groups group).numbers
      { items := [] :: (session.issued group).items, region := .inside } (after.Holds group) := by
    simp only [CoalescingState.isSet, Bool.or_eq_false_iff] at unset
    refine (numbering.tally group).start lasts ?_ (fun kind => ?_) (held group)
    · rw [groups, World.modifyGroup_same]
      rfl
    · rw [groups, World.modifyGroup_same]
      cases kind
      · exact unset.1.2
      · exact unset.2
  have fails : Tally (after.groups group).numbers (session.issued group) (after.Holds group) :=
    (numbering.tally group).leave (by rw [outside]; decide) lasts (held group)
  have here : (session.follow after (.startCoalescing thread group fate) group =
      { items := [] :: (session.issued group).items, region := .inside } ∨
      session.follow after (.startCoalescing thread group fate) group = session.issued group) ∧
      ∀ other, other ≠ group →
        session.follow after (.startCoalescing thread group fate) other = session.issued other := by
    unfold Session.follow
    dsimp only
    split
    · exact ⟨.inl (update_self _ _ _), fun other different => update_of_ne different _ _⟩
    · exact ⟨.inr rfl, fun _ _ => rfl⟩
  constructor
  · intro other
    dsimp only
    by_cases same : other = group
    · rw [same]
      rcases here.1 with begun | failed
      · rw [begun]
        exact begins
      · rw [failed]
        exact fails
    · rw [here.2 other same]
      have tally := numbering.tally other
      rw [show session.world.groups other = after.groups other by
        rw [groups, World.modifyGroup_other _ same]] at tally
      exact tally.congr fun ticket => held other ticket
  · intro other
    dsimp only
    rw [groups]
    by_cases same : other = group
    · rw [same, World.modifyGroup_same]
      exact fun set => by cases set
    · rw [World.modifyGroup_other _ same]
      exact numbering.marked other
  · intro other call found resets
    have old := numbering.ending other call (calls ▸ found) resets
    dsimp only
    rw [here.2 call.group fun same => by rw [same, outside] at old; cases old]
    exact old
  · exact fun first second call member found also =>
      numbering.alone first second call member (calls ▸ found) (calls ▸ also)

theorem Numbering.advance {action : Action} (numbering : Numbering session)
    (orderly : Orderly session.world) (allowed : KeepsNumbers session action)
    (taken : step session.world action = some after) :
    Numbering { world := after, issued := session.follow after action } := by
  have stepped := stepped_of_step taken
  cases action with
  | begin thread group operation fate =>
    simp only [step] at taken
    split at taken
    · cases taken
      cases operation with
      | endCoalescing => exact numbering.finish allowed
      | _ => exact numbering.begin allowed (by simp)
    · cases taken
  | proceed thread fate =>
    cases stepped with
    | ran found left ran => exact numbering.proceed orderly found left ran
  | startCoalescing thread group fate =>
    cases stepped with
    | started same =>
      simp only [step] at taken
      split at taken
      · refine numbering.start allowed same ?_
        cases taken
        exact startCoalescing_groups _ _ _ _
      · cases taken
  | groupStart thread fate =>
    cases stepped with
    | entered same =>
      simp only [step] at taken
      split at taken
      · refine numbering.keep (read_of_works World.calls (fun _ => rfl) same.works) fun other => ?_
        rw [← some.inj taken, groupStart_groups]
      · cases taken
  | groupEnd thread fate =>
    cases stepped with
    | exited same =>
      simp only [step] at taken
      split at taken
      · refine numbering.keep (read_of_works World.calls (fun _ => rfl) same.works) fun other => ?_
        rw [← some.inj taken, groupEnd_groups]
      · cases taken
  | hookThread group outcome =>
    cases stepped with
    | hooked hooked =>
      exact numbering.keep rfl
        (World.modifyGroup_keeps (hooked.keeps (fun _ _ => rfl) fun _ _ _ => rfl))
  | watchdog group queries =>
    cases stepped with
    | watched watched => exact numbering.keep watched.issuing.1 watched.issuing.2
  | addEphemeralTimeout => cases stepped; exact numbering.keep rfl (World.modifyGroup_keeps rfl)
  | registerOnCompletionHook => cases stepped; exact numbering.keep rfl (World.modifyGroup_keeps rfl)
  | terminate => cases stepped; exact numbering.keep rfl (World.modifyGroup_keeps rfl)
  | _ => cases stepped; exact numbering.keep rfl fun _ => rfl

theorem Numbering.initial (initial : Initial session.world) (fresh : session.issued = fun _ => {}) :
    Numbering session := by
  obtain ⟨maxEntries, capturable, same⟩ := initial.rest
  have idle : ∀ thread, session.world.calls thread = none := fun thread => by rw [same]
  constructor
  · intro group
    have empty : ∀ ticket, ¬session.world.Holds group ticket := by
      rintro ticket (⟨work, member, _⟩ | ⟨thread, call, found, _⟩)
      · obtain ⟨_, _, _, _, made⟩ := initial.groups group
        rw [made] at member
        cases member
      · rw [idle] at found
        cases found
    obtain ⟨_, _, _, _, made⟩ := initial.groups group
    rw [fresh, made]
    exact ⟨fun kind => by cases kind <;> rfl, nofun, fun ticket there => absurd there (empty ticket),
      fun ticket _ there => absurd there (empty ticket), nofun⟩
  · intro group
    obtain ⟨_, _, _, _, made⟩ := initial.groups group
    rw [made]
    exact fun set => by cases set
  · intro thread call found
    rw [idle] at found
    cases found
  · intro thread other call member found
    rw [idle] at found
    cases found

theorem Numbering.wellNumbered (numbering : Numbering session) (orderly : Orderly session.world) :
    WellNumbered session group where
  collectives := (numbering.tally group).counts false
  pointToPoints := (numbering.tally group).counts true
  apart := by
    have once := orderly.once group
    refine List.Nodup.map_on (fun work member other also same => ?_) once.of_map
    have same : work.isP2P = other.isP2P ∧ work.seq = other.seq := Prod.mk.inj same
    have ticket := (numbering.tally group).apart work.ticket other.ticket
      (.inl ⟨work, member, rfl⟩) (.inl ⟨other, also, rfl⟩) same.1 same.2
    exact List.inj_on_of_nodup_map once member also (congrArg Ticket.id ticket)

end Numbering

theorem wellNumbered_reachable {session : Session} (reached : sessions.Reachable KeepsNumbers session)
    (group : Nat) : WellNumbered session group := by
  have start : ∀ session, sessions.initial session → Orderly session.world ∧ Numbering session :=
    fun _ initial => ⟨initial.1.orderly, .initial initial.1 initial.2⟩
  have keeps : ∀ before action after, Orderly before.world ∧ Numbering before →
      KeepsNumbers before action → sessions.step before action after →
      Orderly after.world ∧ Numbering after := by
    intro before action after ⟨orderly, numbering⟩ allowed taken
    obtain ⟨world, stepped, rfl⟩ := map_eq_some_iff.mp taken
    exact ⟨orderly.step (stepped_of_step stepped), numbering.advance orderly allowed stepped⟩
  obtain ⟨orderly, numbering⟩ := reached.invariant start keeps
  exact numbering.wellNumbered orderly

/-- The second session may be that of another rank. -/
theorem numbers_counted (session other : Session) (reached : sessions.Reachable KeepsNumbers session)
    (also : sessions.Reachable KeepsNumbers other) (group partner : Nat) :
    WellNumbered session group ∧ ((session.issued group).items = (other.issued partner).items →
        (session.world.groups group).seqCollective = (other.world.groups partner).seqCollective ∧
        (session.world.groups group).seqP2P = (other.world.groups partner).seqP2P) := by
  have here := wellNumbered_reachable reached group
  have there := wellNumbered_reachable also partner
  refine ⟨here, fun same => ⟨?_, ?_⟩⟩
  · rw [here.collectives, there.collectives, same]
  · rw [here.pointToPoints, there.pointToPoints, same]

section Runs

def finalSession (guard : Session → Action → Bool) (start : World) (actions : List Action) : Session :=
  (System.runs Session.advance guard { world := start, issued := fun _ => {} } actions).getD
    { world := start, issued := fun _ => {} }

theorem reachable_finalSession {allowed : Session → Action → Prop}
    {guard : Session → Action → Bool} {start : World} (initial : Initial start)
    (actions : List Action) (ends : (System.runs Session.advance guard
      { world := start, issued := fun _ => {} } actions).isSome = true)
    (allow : ∀ session action, guard session action = true → allowed session action) :
    sessions.Reachable allowed (finalSession guard start actions) := by
  have begins : sessions.Reachable allowed { world := start, issued := fun _ => {} } :=
    .initial ⟨initial, rfl⟩
  exact begins.ended (fun _ _ _ taken => taken) allow ends _

def whole (thread : Nat) (operation : Operation) (sections : List Section) : List Action :=
  .begin thread 0 operation {} :: sections.map fun _ => .proceed thread {}

def issueAll (thread : Nat) : List Action :=
  .startCoalescing thread 0 {} :: List.flatten [
    whole thread (.collective 0 .allreduce) collectiveSections,
    whole thread (.pointToPoint 0 1 .send) pointToPointSections,
    whole thread (.endCoalescing .coalesced) endCoalescingSections,
    whole thread (.pointToPoint 0 1 .send) pointToPointSections,
    whole thread (.collective 0 .allreduce) collectiveSections]

def issuedBy (thread : Nat) : Session :=
  finalSession (fun session action => KeepsNumbers session action) (startWorld false false 0)
    (issueAll thread)

def batchedSends : Session :=
  finalSession (fun _ _ => true) (startWorld false false 0) (.groupStart 0 {} :: List.flatten [
    whole 0 (.pointToPoint 0 1 .send) pointToPointSections,
    whole 0 (.pointToPoint 0 1 .send) pointToPointSections])

end Runs

theorem numbers_counted_sample : WellNumbered (issuedBy 0) 0 ∧
    ((issuedBy 0).world.groups 0).seqCollective = ((issuedBy 1).world.groups 0).seqCollective ∧
    ((issuedBy 0).world.groups 0).seqP2P = ((issuedBy 1).world.groups 0).seqP2P ∧
    ((issuedBy 0).world.groups 0).enqueued.map (·.seq) = [2, 2, 1] := by
  have allow : ∀ session action, decide (KeepsNumbers session action) = true →
      KeepsNumbers session action := fun _ _ => of_decide_eq_true
  have first : sessions.Reachable KeepsNumbers (issuedBy 0) :=
    reachable_finalSession (startWorld_initial _ _ _) _ (by decide +kernel) allow
  have second : sessions.Reachable KeepsNumbers (issuedBy 1) :=
    reachable_finalSession (startWorld_initial _ _ _) _ (by decide +kernel) allow
  have same : ((issuedBy 0).issued 0).items = ((issuedBy 1).issued 0).items := by decide +kernel
  obtain ⟨numbered, agree⟩ := numbers_counted (issuedBy 0) (issuedBy 1) first second 0 0
  exact ⟨numbered, (agree same).1, (agree same).2, by decide +kernel⟩

theorem numbers_not_counted : ¬ ∀ session, sessions.Reachable (fun _ _ => True) session →
    ∀ group, WellNumbered session group := by
  intro all
  have numbered := all batchedSends (reachable_finalSession (startWorld_initial _ _ _) _
    (by decide +kernel) fun _ _ _ => trivial) 0
  exact absurd numbered.pointToPoints (by decide +kernel)

end TorchSupa.Distributed
