import TorchSupa.SymmMem.StoreExchange

/-!
In which histories the members of a group use the same keys for the exchanges of a rendezvous, and
read the values that their peers have set for it.
-/

namespace TorchSupa.SymmMem.Exchange

open Function List Nat

structure Agreeing (processes : Processes) (world : World) : Prop where
  keys : ∀ (group process other count : Nat) (visit peer : Visit), process ∈ processes.members group →
    other ∈ processes.members group → (world.visits process group)[count]? = some visit →
    (world.visits other group)[count]? = some peer →
    ∀ index, index < visit.exchanges.length → index < peer.exchanges.length →
      visit.start + index = peer.start + index ∧
      (sites (processes.fabric process))[index]? = (sites (processes.fabric other))[index]?
  numbers : ∀ (group process other count : Nat) (visit peer : Visit), process ∈ processes.members group →
    other ∈ processes.members group → (world.visits process group)[count]? = some visit →
    (world.visits other group)[count]? = some peer → visit.left = true → peer.left = true →
    visit.exchanges.length = peer.exchanges.length
  values : ∀ (process group count : Nat) (visit : Visit), (world.visits process group)[count]? = some visit →
    ∀ (index : Nat) (gathering : Gathering) (rank : Nat) (value : Payload),
      visit.exchanges[index]? = some gathering →
      gathering.read[rank]? = some value →
      ∃ (peer : Nat) (theirs : Visit) (set : Gathering), (processes.members group)[rank]? = some peer ∧
        (world.visits peer group)[count]? = some theirs ∧
        theirs.exchanges[index]? = some set ∧ set.payload = value

def Processes.Alike (processes : Processes) : Prop :=
  ∀ group, ∀ process ∈ processes.members group, ∀ other ∈ processes.members group,
    processes.fabric process = processes.fabric other ∧
    processes.allowOverlapping process = processes.allowOverlapping other

/-- When a member makes its call, it has made as many exchanges as every other member had when it
made the call of the same number, and the block is new to all or to none. No call throws. -/
def Concerted (processes : Processes) (world : World) : Action → Prop
  | .rendezvous process group block _ => ∀ other ∈ processes.members group, ∀ visit : Visit,
      (world.visits other group)[(world.visits process group).length]? = some visit →
      visit.start = world.seqId process ∧
      visit.cached = (world.symmMems process group).contains block
  | .fail _ => False
  | _ => True

section Visits

variable {world : World} {process group count : Nat} {running : Running} {visit : Visit}

open List Exchange.World

theorem visits_idle (idle : world.running process = none) :
    world.visits process group = world.past process group := by
  unfold visits
  rw [idle]
  exact append_nil _

theorem visits_running (runs : world.running process = some running) :
    world.visits process running.group = world.past process running.group ++ [running.visit] := by
  unfold visits
  rw [runs]
  dsimp only
  rw [if_pos rfl]

theorem visits_elsewhere (runs : world.running process = some running)
    (different : group ≠ running.group) :
    world.visits process group = world.past process group := by
  unfold visits
  rw [runs]
  dsimp only
  rw [if_neg fun same => different same.symm, append_nil]

theorem visits_length_le :
    (world.visits process group).length ≤ (world.past process group).length + 1 := by
  unfold visits
  rw [length_append]
  split
  · split <;> simp
  · simp

theorem past_of_later {later : Nat} (below : count < later)
    (there : (world.visits process group)[later]? = some visit) :
    count < (world.past process group).length := by
  have bound := (List.getElem?_eq_some_iff.mp there).1
  have size : (world.visits process group).length ≤ (world.past process group).length + 1 :=
    visits_length_le
  omega

theorem visits_past (small : count < (world.past process group).length) :
    (world.visits process group)[count]? = some (world.past process group)[count] := by
  unfold visits
  rw [getElem?_append_left small]
  exact getElem?_eq_getElem small

structure Filed (world after : World) (process group : Nat) (visit : Visit) : Prop where
  here : after.visits process group = world.past process group ++ [visit]
  elsewhere : ∀ other place, ¬(other = process ∧ place = group) →
    after.visits other place = world.visits other place

variable {after : World} (filed : Filed world after process group visit)
include filed

theorem Filed.lookup :
    (after.visits process group)[(world.past process group).length]? = some visit := by
  rw [filed.here, getElem?_append_right (Nat.le_refl _), Nat.sub_self]
  rfl

theorem Filed.found {other place index : Nat} {found : Visit}
    (there : (after.visits other place)[index]? = some found) :
    (other = process ∧ place = group ∧ index = (world.past process group).length ∧ found = visit) ∨
    ((world.visits other place)[index]? = some found ∧
      ¬(other = process ∧ place = group ∧ index = (world.past process group).length)) := by
  by_cases here : other = process ∧ place = group
  · obtain ⟨rfl, rfl⟩ := here
    rw [filed.here] at there
    rcases Nat.lt_trichotomy index (world.past other place).length with below | same | above
    · rw [getElem?_append_left below] at there
      refine .inr ⟨?_, fun all => Nat.ne_of_lt below all.2.2⟩
      unfold visits
      rw [getElem?_append_left below]
      exact there
    · subst same
      rw [getElem?_append_right (Nat.le_refl _), Nat.sub_self] at there
      exact .inl ⟨rfl, rfl, rfl, (Option.some.inj there).symm⟩
    · rw [getElem?_append_right (Nat.le_of_lt above)] at there
      have beyond : 0 < index - (world.past other place).length := Nat.sub_pos_of_lt above
      rw [getElem?_eq_none (by rw [length_singleton]; omega)] at there
      cases there
  · rw [filed.elsewhere other place here] at there
    exact .inr ⟨there, fun all => here ⟨all.1, all.2.1⟩⟩

theorem Filed.kept {other place index : Nat} {found : Visit}
    (there : (world.visits other place)[index]? = some found)
    (different : ¬(other = process ∧ place = group ∧ index = (world.past process group).length)) :
    (after.visits other place)[index]? = some found := by
  by_cases here : other = process ∧ place = group
  · obtain ⟨rfl, rfl⟩ := here
    rw [filed.here]
    have below : index < (world.past other place).length := by
      by_contra above
      have beyond : (world.past other place).length < index := by
        refine Nat.lt_of_le_of_ne (Nat.le_of_not_lt above) fun same => different ⟨rfl, rfl, same.symm⟩
      exact Nat.lt_irrefl _ (past_of_later beyond there)
    unfold visits at there
    rw [getElem?_append_left below] at there ⊢
    exact there
  · rw [filed.elsewhere other place here]
    exact there

end Visits

structure Orderly (processes : Processes) (world : World) (process group count : Nat)
    (visit : Visit) : Prop where
  member : process ∈ processes.members group
  bound : visit.start + visit.exchanges.length ≤ world.seqId process
  -- all but the last exchange are complete
  full : ∀ (index : Nat) (gathering : Gathering), visit.exchanges[index]? = some gathering →
    index + 1 < visit.exchanges.length ∨ visit.left = true →
    gathering.read.length = (processes.members group).length
  short : ∀ gathering ∈ visit.exchanges,
    gathering.read.length ≤ (processes.members group).length
  kinds : ∀ (index : Nat) (gathering : Gathering), visit.exchanges[index]? = some gathering →
    ∃ site, (sites (processes.fabric process))[index]? = some site ∧
      gathering.payload.isOf site = true
  went : ∀ index, 0 < index → index < visit.exchanges.length →
    goesOn (processes.fabric process) (processes.allowOverlapping process)
      (visit.reads.take index) visit.broadcast = true
  stopped : visit.left = true → visit.cached = false →
    goesOn (processes.fabric process) (processes.allowOverlapping process) visit.reads
      visit.broadcast = false ∧
    awaitsBroadcast (processes.fabric process) (processes.allowOverlapping process) visit = false
  values : ∀ (index : Nat) (gathering : Gathering) (rank : Nat) (value : Payload),
    visit.exchanges[index]? = some gathering → gathering.read[rank]? = some value →
    ∃ (peer : Nat) (theirs : Visit) (set : Gathering),
      (processes.members group)[rank]? = some peer ∧
      (world.visits peer group)[count]? = some theirs ∧
      theirs.exchanges[index]? = some set ∧ set.payload = value
  broadcast : ∀ created, visit.broadcast = some created → ∃ (first : Nat) (theirs : Visit),
    (processes.members group)[0]? = some first ∧
    (world.visits first group)[count]? = some theirs ∧ theirs.broadcast = some created

structure Consistent (processes : Processes) (world : World) : Prop where
  orderly : ∀ (process group count : Nat) (visit : Visit),
    (world.visits process group)[count]? = some visit →
    Orderly processes world process group count visit
  nothing : ∀ (process group count : Nat) (visit : Visit),
    (world.visits process group)[count]? = some visit →
    (visit.cached = true ↔ visit.exchanges = [])
  ordered : ∀ (process group count later : Nat) (visit next : Visit), count < later →
    (world.visits process group)[count]? = some visit →
    (world.visits process group)[later]? = some next →
    visit.start + visit.exchanges.length ≤ next.start
  ended : ∀ process group, ∀ visit ∈ world.past process group, visit.left = true
  current : ∀ (process : Nat) (running : Running), world.running process = some running →
    running.visit.start + running.visit.exchanges.length = world.seqId process ∧
    running.visit.exchanges ≠ [] ∧ running.visit.left = false
  agree : ∀ (group process other count : Nat) (visit peer : Visit),
    (world.visits process group)[count]? = some visit →
    (world.visits other group)[count]? = some peer →
    visit.start = peer.start ∧ visit.cached = peer.cached
  stored : ∀ (group number rank : Nat) (value : Payload),
    world.stores group (number, rank) = some value →
    ∃ (peer count index : Nat) (theirs : Visit) (set : Gathering),
      (processes.members group)[rank]? = some peer ∧
      (world.visits peer group)[count]? = some theirs ∧ theirs.start + index = number ∧
      theirs.exchanges[index]? = some set ∧ set.payload = value
  sockets : ∀ (process : Nat) (running : Running), world.running process = some running →
    world.sockets process = [] ∨ ∃ (created : Bool) (first : Nat) (theirs : Visit),
      world.sockets process = [created] ∧ running.visit.broadcast = none ∧
      (processes.members running.group)[0]? = some first ∧
      (world.visits first running.group)[(world.past process running.group).length]? = some theirs ∧
      theirs.broadcast = some created

section Deciding

variable {fabric allowOverlapping : Bool} {reads : List (List Payload)}
  {broadcast other : Option Bool}

theorem goesOn_congr (goes : goesOn fabric allowOverlapping reads broadcast = true)
    (same : fabric = false → reads.length = 2 → triesMulticast allowOverlapping reads = true →
      broadcast = some true → other = some true) :
    goesOn fabric allowOverlapping reads other = true := by
  unfold goesOn at goes ⊢
  cases fabric with
  | true =>
    cases site : (sites true)[reads.length - 1]? with
    | none => rw [site] at goes; cases goes
    | some kind =>
      rw [site] at goes
      cases kind <;> simp_all
  | false =>
    match size : reads.length - 1 with
    | 0 =>
      rw [size] at goes
      exact goes
    | 1 =>
      rw [size] at goes
      simp only [sites, Bool.false_eq_true, if_false, getElem?_cons_succ,
        getElem?_cons_zero, Bool.false_or, Bool.and_eq_true, beq_iff_eq] at goes ⊢
      exact ⟨goes.1, same rfl (by omega) goes.1 goes.2⟩
    | 2 =>
      rw [size] at goes
      exact goes
    | more + 3 =>
      rw [size] at goes
      exact goes

end Deciding

section Determined

variable {processes : Processes} {world : World} {process other group count : Nat}
  {visit peer : Visit}

variable (consistent : Consistent processes world)
include consistent

section

variable (mine : (world.visits process group)[count]? = some visit)
  (theirs : (world.visits other group)[count]? = some peer)
include mine theirs

theorem Consistent.reads_agree {index : Nat}
    {one two : Gathering} (first : visit.exchanges[index]? = some one)
    (second : peer.exchanges[index]? = some two)
    (sizes : one.read.length = two.read.length) : one.read = two.read := by
  refine ext_getElem? fun rank => ?_
  by_cases small : rank < one.read.length
  · have some_one := getElem?_eq_getElem small
    have some_two := getElem?_eq_getElem (sizes ▸ small)
    obtain ⟨p, u, x, atRank, visited, set, same⟩ := (consistent.orderly _ _ _ _ mine).values index
      one rank _ first some_one
    obtain ⟨q, w, y, again, found, put, equal⟩ := (consistent.orderly _ _ _ _ theirs).values index
      two rank _ second some_two
    obtain rfl := Option.mem_unique atRank again
    obtain rfl := Option.mem_unique visited found
    obtain rfl := Option.mem_unique set put
    rw [some_one, some_two, ← same, ← equal]
  · rw [getElem?_eq_none (Nat.le_of_not_lt small),
      getElem?_eq_none (sizes ▸ Nat.le_of_not_lt small)]

theorem Consistent.reads_take {size : Nat}
    (first : ∀ index one, index < size → visit.exchanges[index]? = some one →
      one.read.length = (processes.members group).length)
    (second : ∀ index two, index < size → peer.exchanges[index]? = some two →
      two.read.length = (processes.members group).length)
    (long : size ≤ visit.exchanges.length) (also : size ≤ peer.exchanges.length) :
    visit.reads.take size = peer.reads.take size := by
  refine ext_getElem? fun index => ?_
  rw [getElem?_take, getElem?_take]
  by_cases small : index < size
  · rw [if_pos small, if_pos small]
    unfold Visit.reads
    rw [getElem?_map, getElem?_map]
    have one := getElem?_eq_getElem (Nat.lt_of_lt_of_le small long)
    have two := getElem?_eq_getElem (Nat.lt_of_lt_of_le small also)
    have same := consistent.reads_agree mine theirs one two
      ((first index _ small one).trans (second index _ small two).symm)
    rw [one, two, Option.map_some, Option.map_some, same]
  · rw [if_neg small, if_neg small]

theorem Consistent.broadcast_agree {one two : Bool}
    (first : visit.broadcast = some one) (second : peer.broadcast = some two) : one = two := by
  obtain ⟨p, u, atRank, visited, heard⟩ := (consistent.orderly _ _ _ _ mine).broadcast one first
  obtain ⟨q, w, again, found, told⟩ := (consistent.orderly _ _ _ _ theirs).broadcast two second
  obtain rfl := Option.mem_unique atRank again
  obtain rfl := Option.mem_unique visited found
  exact Option.mem_unique heard told

end

theorem Consistent.no_overtake (alike : processes.Alike)
    (mine : (world.visits process group)[count]? = some visit)
    (theirs : (world.visits other group)[count]? = some peer) (left : visit.left = true) :
    peer.exchanges.length ≤ visit.exchanges.length := by
  have orderly := consistent.orderly _ _ _ _ mine
  have also := consistent.orderly _ _ _ _ theirs
  obtain ⟨_, caches⟩ := consistent.agree _ _ _ _ _ _ mine theirs
  cases cached : visit.cached with
  | true =>
    rw [(consistent.nothing _ _ _ _ theirs).mp (caches.symm.trans cached)]
    exact zero_le _
  | false =>
    by_contra more
    have more : visit.exchanges.length < peer.exchanges.length := Nat.lt_of_not_le more
    have some_ : 0 < visit.exchanges.length := by
      refine length_pos_iff.mpr fun none_ => ?_
      rw [(consistent.nothing _ _ _ _ mine).mpr none_] at cached
      cases cached
    obtain ⟨stops, heard⟩ := orderly.stopped left cached
    have goes := also.went _ some_ more
    obtain ⟨fabric, overlap⟩ := alike group process orderly.member other also.member
    have reads := consistent.reads_take mine theirs
      (fun index one _ there => orderly.full index one there (.inr left))
      (fun index two small there => also.full index two there (.inl (by omega)))
      (Nat.le_refl _) (Nat.le_of_lt more)
    have whole : visit.reads.take visit.exchanges.length = visit.reads := by
      refine take_of_length_le ?_
      unfold Visit.reads
      exact Nat.le_of_eq (length_map _)
    rw [← fabric, ← overlap, ← reads, whole] at goes
    have went : goesOn (processes.fabric process) (processes.allowOverlapping process)
        visit.reads visit.broadcast = true := by
      refine goesOn_congr goes fun posix two tries sent => ?_
      have size : visit.exchanges.length = 2 := by
        rw [← two]
        unfold Visit.reads
        rw [length_map]
      unfold awaitsBroadcast at heard
      rw [posix, size, tries] at heard
      cases told : visit.broadcast with
      | none =>
        rw [told] at heard
        cases heard
      | some created => rw [consistent.broadcast_agree mine theirs told sent]
    rw [stops] at went
    cases went

end Determined

structure Extends (old new : Visit) : Prop where
  start : new.start = old.start
  cached : new.cached = old.cached
  payloads : ∀ (index : Nat) (gathering : Gathering), old.exchanges[index]? = some gathering →
    ∃ same, new.exchanges[index]? = some same ∧ same.payload = gathering.payload
  broadcast : ∀ created, old.broadcast = some created → new.broadcast = some created

theorem Extends.refl (visit : Visit) : Extends visit visit :=
  ⟨rfl, rfl, fun _ gathering there => ⟨gathering, there, rfl⟩, fun _ told => told⟩

section Filing

variable {processes : Processes} {world after : World} {process group : Nat} {visit : Visit}

theorem Filed.grows (filed : Filed world after process group visit)
    (extends_ : ∀ old, (world.visits process group)[(world.past process group).length]? = some old →
      Extends old visit) {other place index : Nat} {found : Visit}
    (there : (world.visits other place)[index]? = some found) :
    ∃ now, (after.visits other place)[index]? = some now ∧ Extends found now := by
  by_cases here : other = process ∧ place = group ∧ index = (world.past process group).length
  · obtain ⟨rfl, rfl, rfl⟩ := here
    exact ⟨visit, filed.lookup, extends_ found there⟩
  · exact ⟨found, filed.kept there here, .refl found⟩

theorem Orderly.mono {other place index : Nat} {found : Visit}
    (orderly : Orderly processes world other place index found)
    (counter : world.seqId other ≤ after.seqId other)
    (grows : ∀ {one two three : Nat} {visit : Visit}, (world.visits one two)[three]? = some visit →
      ∃ now, (after.visits one two)[three]? = some now ∧ Extends visit now) :
    Orderly processes after other place index found where
  member := orderly.member
  bound := Nat.le_trans orderly.bound counter
  full := orderly.full
  short := orderly.short
  kinds := orderly.kinds
  went := orderly.went
  stopped := orderly.stopped
  values := by
    intro number gathering rank value there read
    obtain ⟨peer, theirs, set, atRank, visited, put, same⟩ :=
      orderly.values number gathering rank value there read
    obtain ⟨now, lookup, more⟩ := grows visited
    obtain ⟨still, again, equal⟩ := more.payloads number set put
    exact ⟨peer, now, still, atRank, lookup, again, equal.trans same⟩
  broadcast := by
    intro created told
    obtain ⟨first, theirs, atRank, visited, heard⟩ := orderly.broadcast created told
    obtain ⟨now, lookup, more⟩ := grows visited
    exact ⟨first, now, atRank, lookup, more.broadcast created heard⟩

theorem Consistent.file (consistent : Consistent processes world)
    (filed : Filed world after process group visit)
    (extends_ : ∀ old, (world.visits process group)[(world.past process group).length]? = some old →
      Extends old visit)
    (counter : ∀ other, world.seqId other ≤ after.seqId other)
    (orderly : (∀ {one two three : Nat} {visit : Visit},
        (world.visits one two)[three]? = some visit →
        ∃ now, (after.visits one two)[three]? = some now ∧ Extends visit now) →
      Orderly processes after process group (world.past process group).length visit)
    (nothing : visit.cached = true ↔ visit.exchanges = [])
    (ordered : ∀ count earlier, count < (world.past process group).length →
      (world.visits process group)[count]? = some earlier →
      earlier.start + earlier.exchanges.length ≤ visit.start)
    (ended : ∀ other place, ∀ found ∈ after.past other place, found.left = true)
    (current : ∀ other running, after.running other = some running →
      running.visit.start + running.visit.exchanges.length = after.seqId other ∧
      running.visit.exchanges ≠ [] ∧ running.visit.left = false)
    (agree : ∀ other peer, other ≠ process →
      (world.visits other group)[(world.past process group).length]? = some peer →
      visit.start = peer.start ∧ visit.cached = peer.cached)
    (stored : ∀ place number rank value, after.stores place (number, rank) = some value →
      world.stores place (number, rank) = some value ∨
      place = group ∧ (processes.members group)[rank]? = some process ∧ ∃ index set,
        visit.start + index = number ∧ visit.exchanges[index]? = some set ∧ set.payload = value)
    (sockets : (∀ {one two three : Nat} {visit : Visit},
        (world.visits one two)[three]? = some visit →
        ∃ now, (after.visits one two)[three]? = some now ∧ Extends visit now) →
      ∀ other running, after.running other = some running →
      after.sockets other = [] ∨ ∃ created first theirs, after.sockets other = [created] ∧
        running.visit.broadcast = none ∧ (processes.members running.group)[0]? = some first ∧
        (after.visits first running.group)[(after.past other running.group).length]? = some theirs ∧
        theirs.broadcast = some created) :
    Consistent processes after := by
  have grows : ∀ {one two three : Nat} {visit : Visit}, (world.visits one two)[three]? = some visit →
      ∃ now, (after.visits one two)[three]? = some now ∧ Extends visit now :=
    fun there => filed.grows extends_ there
  constructor
  · intro other place index found there
    rcases filed.found there with ⟨rfl, rfl, rfl, rfl⟩ | ⟨before, _⟩
    · exact orderly grows
    · exact (consistent.orderly _ _ _ _ before).mono (counter other) grows
  · intro other place index found there
    rcases filed.found there with ⟨rfl, rfl, rfl, rfl⟩ | ⟨before, _⟩
    · exact nothing
    · exact consistent.nothing _ _ _ _ before
  · intro other place count later one two below there next
    rcases filed.found there with ⟨rfl, rfl, rfl, rfl⟩ | ⟨before, away⟩
    · rcases filed.found next with ⟨_, _, same, _⟩ | ⟨known, different⟩
      · exact absurd same (Nat.ne_of_gt below)
      · have beyond := filed.kept known different
        rw [filed.here, getElem?_eq_none (by simp; omega)] at beyond
        cases beyond
    · rcases filed.found next with ⟨rfl, rfl, rfl, rfl⟩ | ⟨known, _⟩
      · exact ordered count one below before
      · exact consistent.ordered _ _ _ _ _ _ below before known
  · exact ended
  · exact current
  · intro place one two count mine theirs first second
    rcases filed.found first with ⟨rfl, rfl, rfl, rfl⟩ | ⟨before, away⟩
    · rcases filed.found second with ⟨rfl, _, _, rfl⟩ | ⟨known, different⟩
      · exact ⟨rfl, rfl⟩
      · refine agree two theirs (fun same => different ⟨same, rfl, rfl⟩) known
    · rcases filed.found second with ⟨rfl, rfl, rfl, rfl⟩ | ⟨known, _⟩
      · obtain ⟨start, cached⟩ := agree one mine (fun same => away ⟨same, rfl, rfl⟩) before
        exact ⟨start.symm, cached.symm⟩
      · exact consistent.agree _ _ _ _ _ _ before known
  · intro place number rank value there
    rcases stored place number rank value there with before | ⟨rfl, atRank, index, set, at_, put, same⟩
    · obtain ⟨peer, count, index, theirs, set, atRank, visited, at_, put, same⟩ :=
        consistent.stored place number rank value before
      obtain ⟨now, lookup, more⟩ := grows visited
      obtain ⟨still, again, equal⟩ := more.payloads index set put
      exact ⟨peer, count, index, now, still, atRank, lookup, by rw [more.start]; exact at_, again,
        equal.trans same⟩
    · exact ⟨process, _, index, visit, set, atRank, filed.lookup, at_, put, same⟩
  · exact sockets grows

end Filing

section Steps

variable {processes : Processes} {world after : World} {process group : Nat} {running : Running}

theorem filed_running (now : after.running process = some running) (past : after.past = world.past)
    (others : ∀ other, other ≠ process → after.running other = world.running other)
    (before : ∀ place, place ≠ running.group → world.visits process place = world.past process place) :
    Filed world after process running.group running.visit where
  here := by rw [visits_running now, past]
  elsewhere := by
    intro other place different
    by_cases same : other = process
    · subst same
      have away : place ≠ running.group := fun here => different ⟨rfl, here⟩
      rw [visits_elsewhere now away, before place away, past]
    · unfold World.visits
      rw [others other same, past]

theorem leave_filed (before : ∀ place, place ≠ running.group →
    world.visits process place = world.past process place) :
    Filed world (world.leave process running) process running.group
      { running.visit with left := true } where
  here := by
    have idle : (world.leave process running).running process = none := update_self _ _ _
    rw [visits_idle idle]
    unfold World.leave
    dsimp only
    rw [update_self, update_self]
  elsewhere := by
    intro other place different
    by_cases same : other = process
    · subst same
      have idle : (world.leave other running).running other = none := update_self _ _ _
      have away : place ≠ running.group := fun here => different ⟨rfl, here⟩
      rw [visits_idle idle, before place away]
      unfold World.leave
      dsimp only
      rw [update_self, update_of_ne away]
    · unfold World.visits World.leave
      dsimp only
      rw [update_of_ne same, update_of_ne same]

theorem current_lookup (runs : world.running process = some running) :
    (world.visits process running.group)[(world.past process running.group).length]? =
      some running.visit := by
  rw [visits_running runs, getElem?_append_right (Nat.le_refl _), Nat.sub_self]
  rfl

theorem rank_lookup (member : process ∈ processes.members group) :
    (processes.members group)[rankOf processes process group]? = some process := by
  exact List.getElem?_eq_some_iff.mpr ⟨List.idxOf_lt_length_of_mem member, List.getElem_idxOf _⟩

theorem Consistent.sockets_mono (process : Nat) (consistent : Consistent processes world)
    (past : ∀ other, other ≠ process → ∀ place, after.past other place = world.past other place)
    (others : ∀ other, other ≠ process → after.running other = world.running other)
    (socket : ∀ other, other ≠ process → after.sockets other = world.sockets other)
    (own : ∀ running, after.running process = some running → after.sockets process = [] ∨
      after.sockets process = world.sockets process ∧ ∃ before,
        world.running process = some before ∧ running.group = before.group ∧
        running.visit.broadcast = before.visit.broadcast ∧
        after.past process running.group = world.past process running.group)
    (grows : ∀ {one two three : Nat} {visit : Visit}, (world.visits one two)[three]? = some visit →
      ∃ now, (after.visits one two)[three]? = some now ∧ Extends visit now) :
    ∀ other running, after.running other = some running →
      after.sockets other = [] ∨ ∃ created first theirs, after.sockets other = [created] ∧
        running.visit.broadcast = none ∧ (processes.members running.group)[0]? = some first ∧
        (after.visits first running.group)[(after.past other running.group).length]? = some theirs ∧
        theirs.broadcast = some created := by
  intro other running runs
  by_cases same : other = process
  · subst same
    rcases own running runs with empty | ⟨kept, before, ran, group, broadcast, old⟩
    · exact .inl empty
    · rw [kept, old, group, broadcast]
      rcases consistent.sockets other before ran with empty | ⟨created, first, theirs, holds, unheard,
        atRank, visited, heard⟩
      · exact .inl empty
      · obtain ⟨now, lookup, more⟩ := grows visited
        exact .inr ⟨created, first, now, holds, unheard, atRank, lookup,
          more.broadcast created heard⟩
  · rw [others other same] at runs
    rw [socket other same, past other same]
    rcases consistent.sockets other running runs with empty | ⟨created, first, theirs, holds, unheard,
      atRank, visited, heard⟩
    · exact .inl empty
    · obtain ⟨now, lookup, more⟩ := grows visited
      exact .inr ⟨created, first, now, holds, unheard, atRank, lookup, more.broadcast created heard⟩

theorem past_over (consistent : Consistent processes world) (place : Nat) :
    ∀ other, ∀ visit ∈ (world.leave process running).past other place, visit.left = true := by
  intro other visit there
  unfold World.leave at there
  dsimp only at there
  by_cases same : other = process
  · subst same
    rw [update_self] at there
    by_cases here : place = running.group
    · subst here
      rw [update_self] at there
      rcases mem_append.mp there with old | new
      · exact consistent.ended other _ visit old
      · rw [mem_singleton.mp new]
    · rw [update_of_ne here] at there
      exact consistent.ended other place visit there
  · rw [update_of_ne same] at there
    exact consistent.ended other place visit there

theorem Consistent.leave (consistent : Consistent processes world)
    (runs : world.running process = some running)
    (complete : ∀ gathering ∈ running.visit.exchanges.getLast?,
      gathering.read.length = (processes.members running.group).length)
    (stops : goesOn (processes.fabric process) (processes.allowOverlapping process)
      running.visit.reads running.visit.broadcast = false)
    (heard : awaitsBroadcast (processes.fabric process) (processes.allowOverlapping process)
      running.visit = false) : Consistent processes (world.leave process running) := by
  have lookup := current_lookup runs
  have orderly := consistent.orderly _ _ _ _ lookup
  have filed : Filed world (world.leave process running) process running.group _ :=
    leave_filed fun place away => visits_elsewhere runs away
  have nothing := consistent.nothing _ _ _ _ lookup
  refine consistent.file filed (fun old there => ?_) (fun _ => Nat.le_refl _) (fun grows => ?_)
    nothing (fun count earlier below there => ?_)
    (fun other place => past_over consistent place other)
    (fun other running now => ?_) (fun other peer different there => ?_)
    (fun place number rank value there => .inl there) ?_
  · obtain rfl := Option.mem_unique lookup there
    exact ⟨rfl, rfl, fun _ gathering at_ => ⟨gathering, at_, rfl⟩, fun _ told => told⟩
  · have same : Orderly processes (world.leave process running) process running.group _
        running.visit := orderly.mono (Nat.le_refl _) grows
    refine { same with full := fun index gathering there _ => ?_, stopped := fun _ _ => ⟨stops, heard⟩ }
    by_cases last : index + 1 < running.visit.exchanges.length
    · exact orderly.full index gathering there (.inl last)
    · have bound := (List.getElem?_eq_some_iff.mp there).1
      have ends : index = running.visit.exchanges.length - 1 := by
        change ¬index + 1 < running.visit.exchanges.length at last
        change index < running.visit.exchanges.length at bound
        omega
      subst ends
      refine complete gathering ?_
      rw [getLast?_eq_getElem?]
      exact there
  · have before := consistent.ordered _ _ _ _ _ _ below there lookup
    exact before
  · unfold World.leave at now ⊢
    dsimp only at now ⊢
    by_cases same : other = process
    · rw [same, update_self] at now
      cases now
    · rw [update_of_ne same] at now
      exact consistent.current other running now
  · have same := consistent.agree _ _ _ _ _ _ lookup there
    exact same
  · intro grows
    refine consistent.sockets_mono process (fun other different place => ?_)
      (fun other different => update_of_ne different _ _) (fun _ _ => rfl)
      (fun running now => ?_) grows
    · unfold World.leave
      dsimp only
      rw [update_of_ne different]
    · unfold World.leave at now
      dsimp only at now
      rw [update_self] at now
      cases now

theorem Consistent.put {payload : Payload} (site : Site) (consistent : Consistent processes world)
    (before : ∀ place, place ≠ running.group →
      world.visits process place = world.past process place)
    (old : ∀ visit, (world.visits process running.group)[
      (world.past process running.group).length]? = some visit → visit = running.visit)
    (start : running.visit.start + running.visit.exchanges.length = world.seqId process)
    (fresh : running.visit.left = false ∧ running.visit.cached = false)
    (sofar : Orderly processes world process running.group
      (world.past process running.group).length running.visit)
    (complete : ∀ gathering ∈ running.visit.exchanges.getLast?,
      gathering.read.length = (processes.members running.group).length)
    (goes : running.visit.exchanges ≠ [] → goesOn (processes.fabric process)
      (processes.allowOverlapping process) running.visit.reads running.visit.broadcast = true)
    (kind : (sites (processes.fabric process))[running.visit.exchanges.length]? = some site)
    (isOf : payload.isOf site = true)
    (ordered : ∀ count earlier, count < (world.past process running.group).length →
      (world.visits process running.group)[count]? = some earlier →
      earlier.start + earlier.exchanges.length ≤ running.visit.start)
    (agree : ∀ other peer, other ≠ process →
      (world.visits other running.group)[(world.past process running.group).length]? = some peer →
      running.visit.start = peer.start ∧ running.visit.cached = peer.cached)
    (own : world.sockets process = [] ∨ world.running process = some running) :
    Consistent processes (world.put processes process running payload) := by
  have now : (world.put processes process running payload).running process =
      some { running with visit := running.visit.next payload } := update_self _ _ _
  have filed : Filed world (world.put processes process running payload) process running.group
      (running.visit.next payload) :=
    filed_running now rfl (fun other different => update_of_ne different _ _) before
  have counter : ∀ other, world.seqId other ≤
      (world.put processes process running payload).seqId other := by
    intro other
    unfold World.put
    dsimp only
    by_cases same : other = process
    · rw [same, update_self]
      exact le_succ _
    · exact Nat.le_of_eq (update_of_ne same _ _).symm
  have split : ∀ {index : Nat} {gathering : Gathering},
      (running.visit.next payload).exchanges[index]? = some gathering →
      running.visit.exchanges[index]? = some gathering ∨
      index = running.visit.exchanges.length ∧ gathering = Gathering.of payload := by
    intro index gathering there
    unfold Visit.next at there
    rcases Nat.lt_or_ge index running.visit.exchanges.length with below | above
    · rw [getElem?_append_left below] at there
      exact .inl there
    · rw [getElem?_append_right above] at there
      have last : index - running.visit.exchanges.length = 0 := by
        have bound := (List.getElem?_eq_some_iff.mp there).1
        rw [List.length_singleton] at bound
        omega
      rw [last] at there
      exact .inr ⟨by omega, (Option.some.inj there).symm⟩
  have extended : (running.visit.next payload).exchanges.length =
      running.visit.exchanges.length + 1 := length_append
  have some_ : (running.visit.next payload).exchanges ≠ [] := fun none_ => by
    rw [none_] at extended
    cases extended
  have reads : ∀ index, index ≤ running.visit.exchanges.length →
      (running.visit.next payload).reads.take index = running.visit.reads.take index := by
    intro index bound
    unfold Visit.reads Visit.next
    rw [map_append, take_append_of_le_length (by rw [length_map]; exact bound)]
  refine consistent.file filed (fun visit there => ?_) counter (fun grows => ?_) ?_
    (fun count earlier below there => ordered count earlier below there)
    (fun other place visit there => consistent.ended other place visit there)
    (fun other ran there => ?_) (fun other peer different there => agree other peer different there)
    (fun place number rank value there => ?_) fun grows => ?_
  · obtain rfl := old visit there
    refine ⟨rfl, rfl, fun index gathering at_ => ⟨gathering, ?_, rfl⟩, fun _ told => told⟩
    exact (List.getElem?_append_left (List.getElem?_eq_some_iff.mp at_).1).trans at_
  · have same := sofar.mono (counter process) grows
    refine ⟨same.member, ?_, ?_, ?_, ?_, ?_, ?_, ?_, same.broadcast⟩
    · change running.visit.start + (running.visit.next payload).exchanges.length ≤
        update world.seqId process (world.seqId process + 1) process
      exact Nat.le_of_eq (by rw [update_self, extended, ← Nat.add_assoc, start])
    · intro index gathering there finished
      have small : index + 1 < (running.visit.next payload).exchanges.length := by
        rcases finished with below | left
        · exact below
        · exact absurd (left.symm.trans fresh.1) (by decide)
      rw [extended] at small
      rcases split there with earlier | ⟨rfl, _⟩
      · by_cases last : index + 1 < running.visit.exchanges.length
        · exact sofar.full index gathering earlier (.inl last)
        · refine complete gathering ?_
          rw [getLast?_eq_getElem?]
          have ends : running.visit.exchanges.length - 1 = index := by omega
          rw [ends]
          exact earlier
      · omega
    · intro gathering there
      rcases mem_append.mp there with earlier | last
      · exact sofar.short gathering earlier
      · rw [mem_singleton.mp last]
        exact zero_le _
    · intro index gathering there
      rcases split there with earlier | ⟨rfl, rfl⟩
      · exact sofar.kinds index gathering earlier
      · exact ⟨site, kind, isOf⟩
    · intro index positive below
      change index < (running.visit.next payload).exchanges.length at below
      rw [extended] at below
      rw [reads index (by omega)]
      by_cases last : index < running.visit.exchanges.length
      · exact sofar.went index positive last
      · have whole : running.visit.reads.take index = running.visit.reads := by
          refine take_of_length_le ?_
          unfold Visit.reads
          rw [length_map]
          omega
        rw [whole]
        refine goes fun none_ => ?_
        rw [none_, length_nil] at last below
        omega
    · intro left
      exact absurd (left.symm.trans fresh.1) (by decide)
    · intro index gathering rank value there read
      rcases split there with earlier | ⟨_, rfl⟩
      · exact same.values index gathering rank value earlier read
      · cases read
  · refine ⟨fun cached => ?_, fun none_ => ?_⟩
    · exact absurd (cached.symm.trans fresh.2) (by decide)
    · exact absurd none_ some_
  · change update world.running process _ other = some ran at there
    change ran.visit.start + ran.visit.exchanges.length = update world.seqId process
      (world.seqId process + 1) other ∧ _
    by_cases here : other = process
    · subst here
      rw [update_self] at there ⊢
      cases there
      refine ⟨?_, some_, fresh.1⟩
      change running.visit.start + (running.visit.next payload).exchanges.length = _
      rw [extended, ← start, Nat.add_assoc]
    · rw [update_of_ne here] at there ⊢
      exact consistent.current other ran there
  · change update world.stores running.group _ place (number, rank) = some value at there
    by_cases here : place = running.group
    · subst here
      rw [update_self] at there
      by_cases key : (number, rank) = (world.seqId process, rankOf processes process running.group)
      · obtain ⟨rfl, rfl⟩ := Prod.mk.inj key
        rw [update_self] at there
        refine .inr ⟨rfl, rank_lookup sofar.member, running.visit.exchanges.length, Gathering.of payload,
          start, ?_, Option.some.inj there⟩
        unfold Visit.next
        rw [getElem?_append_right (Nat.le_refl _), Nat.sub_self]
        rfl
      · rw [update_of_ne key] at there
        exact .inl there
    · rw [update_of_ne here] at there
      exact .inl there
  · refine consistent.sockets_mono process (fun _ _ _ => rfl)
      (fun other different => update_of_ne different _ _) (fun _ _ => rfl)
      (fun ran there => ?_) grows
    change update world.running process _ process = some ran at there
    rw [update_self] at there
    cases there
    rcases own with empty | runs
    · exact .inl empty
    · exact .inr ⟨rfl, running, runs, rfl, rfl, rfl⟩

variable (consistent : Consistent processes world)
include consistent

theorem Consistent.set_here (alike : processes.Alike)
    (runs : world.running process = some running) {rank : Nat} {value : Payload}
    (there : world.stores running.group (world.seqId process - 1, rank) = some value) :
    ∃ (peer : Nat) (theirs : Visit) (set : Gathering),
      (processes.members running.group)[rank]? = some peer ∧
      (world.visits peer running.group)[(world.past process running.group).length]? = some theirs ∧
      theirs.exchanges[running.visit.exchanges.length - 1]? = some set ∧ set.payload = value := by
  have mine := current_lookup runs
  obtain ⟨counter, some_, _⟩ := consistent.current process running runs
  have positive := List.length_pos_iff.mpr some_
  obtain ⟨peer, count, index, theirs, set, atRank, visited, number, put, same⟩ :=
    consistent.stored _ _ _ _ there
  have small := (List.getElem?_eq_some_iff.mp put).1
  rcases Nat.lt_trichotomy count (world.past process running.group).length with before | now | beyond
  · -- the process has left that call, and the peer has not made more exchanges in it
    have own : (world.visits process running.group)[count]? =
        some (world.past process running.group)[count] := visits_past before
    have left := consistent.ended process running.group _ (List.getElem_mem before)
    obtain ⟨start, _⟩ := consistent.agree _ _ _ _ _ _ own visited
    have bound := consistent.no_overtake alike own visited left
    have order := consistent.ordered _ _ _ _ _ _ before own mine
    omega
  · subst now
    obtain ⟨start, _⟩ := consistent.agree _ _ _ _ _ _ mine visited
    have last : index = running.visit.exchanges.length - 1 := by omega
    exact ⟨peer, theirs, set, atRank, visited, last ▸ put, same⟩
  · -- the peer has left this call, with no fewer exchanges than the process has begun in it
    have small := past_of_later beyond visited
    have gone : (world.visits peer running.group)[(world.past process running.group).length]? =
        some (world.past peer running.group)[(world.past process running.group).length] :=
      visits_past small
    have left := consistent.ended peer running.group _ (List.getElem_mem small)
    obtain ⟨start, _⟩ := consistent.agree _ _ _ _ _ _ gone mine
    have bound := consistent.no_overtake alike gone mine left
    have order := consistent.ordered _ _ _ _ _ _ beyond gone visited
    omega

theorem Consistent.fits (alike : processes.Alike)
    {other count index : Nat} {theirs : Visit} {set : Gathering} {site : Site}
    (member : process ∈ processes.members group)
    (visited : (world.visits other group)[count]? = some theirs)
    (put : theirs.exchanges[index]? = some set)
    (read : (sites (processes.fabric process))[index]? = some site) :
    set.payload.sizeFits site = true := by
  have orderly := consistent.orderly _ _ _ _ visited
  obtain ⟨kind, there, isOf⟩ := orderly.kinds index set put
  rw [← (alike group process member other orderly.member).1, read] at there
  cases there
  unfold Payload.sizeFits
  split
  · rfl
  · rfl
  · exact isOf

theorem Consistent.setRead {last : Gathering} {value : Payload}
    (runs : world.running process = some running)
    (ends : running.visit.exchanges.getLast? = some last)
    (small : last.read.length < (processes.members running.group).length)
    (known : ∃ (peer : Nat) (theirs : Visit) (set : Gathering),
      (processes.members running.group)[last.read.length]? = some peer ∧
      (world.visits peer running.group)[(world.past process running.group).length]? = some theirs ∧
      theirs.exchanges[running.visit.exchanges.length - 1]? = some set ∧ set.payload = value) :
    Consistent processes (world.setRead process running last value) := by
  have lookup := current_lookup runs
  have orderly := consistent.orderly _ _ _ _ lookup
  have nothing := consistent.nothing _ _ _ _ lookup
  obtain ⟨counter, some_, open_⟩ := consistent.current process running runs
  have positive := length_pos_iff.mpr some_
  have now : (world.setRead process running last value).running process =
      some { running with visit := running.visit.hear last value } := update_self _ _ _
  have filed : Filed world (world.setRead process running last value) process running.group
      (running.visit.hear last value) :=
    filed_running now rfl (fun other different => update_of_ne different _ _)
      fun place away => visits_elsewhere runs away
  have size : (running.visit.hear last value).exchanges.length = running.visit.exchanges.length := by
    unfold Visit.hear
    rw [length_append, length_dropLast, length_singleton]
    omega
  -- the exchanges before the last are as they were
  have split : ∀ {index : Nat} {gathering : Gathering},
      (running.visit.hear last value).exchanges[index]? = some gathering →
      index + 1 < running.visit.exchanges.length ∧
        running.visit.exchanges[index]? = some gathering ∨
      index = running.visit.exchanges.length - 1 ∧
        gathering = { last with read := last.read ++ [value] } := by
    intro index gathering there
    have below := (List.getElem?_eq_some_iff.mp there).1
    rw [size] at below
    unfold Visit.hear at there
    rcases Nat.lt_or_ge (index + 1) running.visit.exchanges.length with early | late
    · rw [getElem?_append_left (by rw [length_dropLast]; omega), getElem?_dropLast,
        if_pos (by omega)] at there
      exact .inl ⟨early, there⟩
    · have index_ : index = running.visit.exchanges.length - 1 := by omega
      rw [getElem?_append_right (by rw [length_dropLast]; omega), length_dropLast,
        index_, Nat.sub_self] at there
      exact .inr ⟨index_, (Option.some.inj there).symm⟩
  rw [getLast?_eq_getElem?] at ends
  have taken : ∀ index, index < running.visit.exchanges.length →
      (running.visit.hear last value).reads.take index = running.visit.reads.take index := by
    intro index bound
    unfold Visit.reads Visit.hear
    rw [map_append, take_append_of_le_length (by
      rw [length_map, length_dropLast]; omega), ← map_take, ← map_take,
      dropLast_eq_take, take_take, Nat.min_eq_left (by omega)]
  refine consistent.file filed (fun old there => ?_) (fun _ => Nat.le_refl _) (fun grows => ?_) ?_
    (fun count earlier below there => ?_)
    (fun other place visit there => consistent.ended other place visit there)
    (fun other ran there => ?_)
    (fun other peer different there => ?_)
    (fun place number rank value there => .inl there) fun grows => ?_
  · obtain rfl := Option.mem_unique lookup there
    refine ⟨rfl, rfl, fun index gathering at_ => ?_, fun _ told => told⟩
    have below := (List.getElem?_eq_some_iff.mp at_).1
    rw [← size] at below
    have there := getElem?_eq_getElem below
    refine ⟨_, there, ?_⟩
    rcases split there with ⟨_, same⟩ | ⟨index_, new⟩
    · rw [Option.mem_unique same at_]
    · rw [new]
      rw [index_] at at_
      rw [Option.mem_unique at_ ends]
  · have same : Orderly processes (world.setRead process running last value) process running.group
        _ running.visit := orderly.mono (Nat.le_refl _) grows
    refine ⟨same.member, ?_, ?_, ?_, ?_, ?_, ?_, ?_, same.broadcast⟩
    · rw [size]
      exact same.bound
    · intro index gathering there finished
      rw [size] at finished
      rcases finished with early | left
      · rcases split there with ⟨_, earlier⟩ | ⟨index_, _⟩
        · exact orderly.full index gathering earlier (.inl early)
        · omega
      · exact absurd (left.symm.trans open_) (by decide)
    · intro gathering there
      obtain ⟨index, at_⟩ := getElem?_of_mem there
      rcases split at_ with ⟨_, earlier⟩ | ⟨_, rfl⟩
      · exact orderly.short gathering (mem_of_getElem? earlier)
      · change (last.read ++ [value]).length ≤ _
        rw [length_append]
        exact small
    · intro index gathering there
      rcases split there with ⟨_, earlier⟩ | ⟨rfl, rfl⟩
      · exact orderly.kinds index gathering earlier
      · exact orderly.kinds _ last ends
    · intro index first below
      rw [size] at below
      rw [taken index below]
      exact orderly.went index first below
    · intro left
      exact absurd (left.symm.trans open_) (by decide)
    · intro index gathering rank found there read
      rcases split there with ⟨_, earlier⟩ | ⟨rfl, rfl⟩
      · exact same.values index gathering rank found earlier read
      · rcases Nat.lt_or_ge rank last.read.length with below | above
        · change (last.read ++ [value])[rank]? = some found at read
          rw [getElem?_append_left below] at read
          exact same.values _ last rank found ends read
        · change (last.read ++ [value])[rank]? = some found at read
          have bound := (List.getElem?_eq_some_iff.mp read).1
          rw [List.length_append, List.length_singleton] at bound
          have rank_ : rank = last.read.length := by omega
          rw [rank_, getElem?_append_right (Nat.le_refl _), Nat.sub_self] at read
          cases read
          obtain ⟨peer, theirs, set, atRank, visited, put, equal⟩ := known
          obtain ⟨now, found, more⟩ := grows visited
          obtain ⟨still, again, payload⟩ := more.payloads _ set put
          exact ⟨peer, now, still, rank_ ▸ atRank, found, again, payload.trans equal⟩
  · refine ⟨fun cached => absurd (nothing.mp cached) some_, fun none_ => ?_⟩
    rw [none_, length_nil] at size
    omega
  · have order := consistent.ordered _ _ _ _ _ _ below there lookup
    exact order
  · change update world.running process _ other = some ran at there
    by_cases here : other = process
    · subst here
      rw [update_self] at there
      cases there
      refine ⟨?_, fun none_ => ?_, open_⟩
      · change running.visit.start + (running.visit.hear last value).exchanges.length = _
        rw [size]
        exact counter
      · change (running.visit.hear last value).exchanges = [] at none_
        rw [none_, length_nil] at size
        omega
    · rw [update_of_ne here] at there
      exact consistent.current other ran there
  · have same := consistent.agree _ _ _ _ _ _ lookup there
    exact same
  · refine consistent.sockets_mono process (fun _ _ _ => rfl)
      (fun other different => update_of_ne different _ _) (fun _ _ => rfl)
      (fun ran there => ?_) grows
    change update world.running process _ process = some ran at there
    rw [update_self] at there
    cases there
    exact .inr ⟨rfl, running, runs, rfl, rfl, rfl⟩

end Steps

end TorchSupa.SymmMem.Exchange
