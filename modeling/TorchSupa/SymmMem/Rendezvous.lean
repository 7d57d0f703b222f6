import TorchSupa.SymmMem.Agreement

/-!
Every step of the exchanges keeps what is known of them, so that in a concerted history the members
of a group agree.
-/

namespace TorchSupa.SymmMem.Exchange

open Function List Nat Option

section Broadcast

variable {processes : Processes} {world : World} {process other group : Nat} {running : Running}

variable {count : Nat} {visit : Visit}

theorem Consistent.running_of_open (consistent : Consistent processes world)
    (there : (world.visits process group)[count]? = some visit)
    (open_ : visit.left = false) :
    ∃ running, world.running process = some running ∧ running.group = group ∧
      running.visit = visit ∧ count = (world.past process group).length := by
  rcases Nat.lt_or_ge count (world.past process group).length with small | large
  · rw [visits_past small] at there
    have ended := consistent.ended process group _ (getElem_mem small)
    rw [some.inj there, open_] at ended
    cases ended
  · cases runs : world.running process with
    | none =>
      rw [visits_idle runs, getElem?_eq_none large] at there
      cases there
    | some running =>
      by_cases here : group = running.group
      · subst here
        have bound := (List.getElem?_eq_some_iff.mp there).1
        rw [visits_running runs, length_append, length_singleton] at bound
        have last : count = (world.past process running.group).length := by omega
        subst last
        rw [current_lookup runs] at there
        exact ⟨running, rfl, rfl, some.inj there, rfl⟩
      · rw [visits_elsewhere runs here, getElem?_eq_none large] at there
        cases there

theorem awaits_iff {fabric allowOverlapping : Bool} :
    awaitsBroadcast fabric allowOverlapping visit = true ↔ fabric = false ∧
      visit.exchanges.length = 2 ∧ triesMulticast allowOverlapping visit.reads = true ∧
      visit.broadcast = none := by
  unfold awaitsBroadcast
  cases fabric <;> simp [isNone_iff_eq_none, and_assoc]

variable (consistent : Consistent processes world)
include consistent

theorem Consistent.unheard (first : (processes.members group)[0]? = some process) {peer : Visit}
    (mine : (world.visits process group)[count]? = some visit) (unheard : visit.broadcast = none)
    (theirs : (world.visits other group)[count]? = some peer) : peer.broadcast = none := by
  cases told : peer.broadcast with
  | none => rfl
  | some created =>
    obtain ⟨sender, found, atRank, visited, heard⟩ :=
      (consistent.orderly _ _ _ _ theirs).broadcast created told
    obtain rfl := mem_unique first atRank
    rw [mem_unique mine visited, heard] at unheard
    cases unheard

theorem Consistent.listening (alike : processes.Alike) (runs : world.running process = some running)
    (first : (processes.members running.group)[0]? = some process)
    (complete : ∀ gathering ∈ running.visit.exchanges.getLast?,
      gathering.read.length = (processes.members running.group).length)
    (awaits : awaitsBroadcast (processes.fabric process) (processes.allowOverlapping process)
      running.visit = true)
    (other : Nat) (member : other ∈ processes.members running.group) :
    ∃ theirs, world.running other = some theirs ∧ theirs.group = running.group ∧
      theirs.visit.broadcast = none ∧
      (world.past process running.group).length = (world.past other running.group).length ∧
      world.sockets other = [] := by
  obtain ⟨posix, size, tries, undecided⟩ := awaits_iff.mp awaits
  have mine := current_lookup runs
  have orderly := consistent.orderly _ _ _ _ mine
  obtain ⟨fabric, overlap⟩ := alike running.group process orderly.member other member
  obtain ⟨last, barrier⟩ : ∃ last, running.visit.exchanges[1]? = some last :=
    ⟨_, getElem?_eq_getElem (by omega)⟩
  have whole := complete last (by
    rw [getLast?_eq_getElem?, size]
    exact barrier)
  -- the barrier of the other member has been read
  have rank := rank_lookup member
  have bound := (List.getElem?_eq_some_iff.mp rank).1
  rw [← whole] at bound
  obtain ⟨peer, theirs, set, atRank, visited, put, _⟩ :=
    orderly.values 1 _ _ _ barrier (getElem?_eq_getElem bound)
  obtain rfl := mem_unique rank atRank
  have also := consistent.orderly _ _ _ _ visited
  have long := (List.getElem?_eq_some_iff.mp put).1
  have unheard := consistent.unheard first mine undecided visited
  have short : theirs.exchanges.length = 2 := by
    by_contra more
    have went := also.went 2 (by decide) (by omega)
    have taken : (theirs.reads.take 2).length = 2 := by
      rw [length_take]
      unfold Visit.reads
      rw [length_map]
      omega
    unfold goesOn at went
    rw [taken, ← fabric, posix, unheard] at went
    simp [sites] at went
  have reads : theirs.left = true → theirs.reads = running.visit.reads := by
    intro left
    have same : theirs.reads.take 2 = running.visit.reads.take 2 :=
      consistent.reads_take visited mine
      (fun index one _ there => also.full index one there (.inr left))
      (fun index two below there => by
        rcases Nat.lt_or_ge (index + 1) 2 with early | late
        · exact orderly.full index two there (.inl (by omega))
        · obtain rfl : index = 1 := by omega
          exact (mem_unique barrier there) ▸ whole)
      (Nat.le_of_eq short.symm) (Nat.le_of_eq size.symm)
    unfold Visit.reads at same ⊢
    rwa [take_of_length_le (by rw [length_map]; omega),
      take_of_length_le (by rw [length_map]; omega)] at same
  have open_ : theirs.left = false := by
    cases left : theirs.left with
    | false => rfl
    | true =>
      have nothing := consistent.nothing _ _ _ _ visited
      have fresh : theirs.cached = false := by
        cases cached : theirs.cached with
        | false => rfl
        | true =>
          rw [nothing.mp cached, length_nil] at short
          cases short
      have heard := (also.stopped left fresh).2
      have still : awaitsBroadcast (processes.fabric other) (processes.allowOverlapping other)
          theirs = true := by
        refine awaits_iff.mpr ⟨fabric ▸ posix, short, ?_, unheard⟩
        rw [reads left, ← overlap]
        exact tries
      rw [heard] at still
      cases still
  obtain ⟨now, there, group, same, count⟩ := consistent.running_of_open visited open_
  refine ⟨now, there, group, same ▸ unheard, count, ?_⟩
  rcases consistent.sockets other now there with empty | ⟨created, rank0, sender, _, _, atZero, sent,
    told⟩
  · exact empty
  · rw [group] at atZero sent
    obtain rfl := mem_unique first atZero
    rw [← count, mine] at sent
    rw [← some.inj sent, undecided] at told
    cases told

theorem Consistent.setBroadcast {created : Bool} {sockets : Nat → List Bool}
    (runs : world.running process = some running)
    (size : running.visit.exchanges.length = 2) (unheard : running.visit.broadcast = none)
    (source : (processes.members running.group)[0]? = some process ∨ ∃ first theirs,
      (processes.members running.group)[0]? = some first ∧
      (world.visits first running.group)[(world.past process running.group).length]? =
        some theirs ∧ theirs.broadcast = some created)
    (own : sockets process = [])
    (others : ∀ other, other ≠ process → sockets other = world.sockets other ∨
      sockets other = [created] ∧ (processes.members running.group)[0]? = some process ∧
      ∃ theirs, world.running other = some theirs ∧ theirs.group = running.group ∧
        theirs.visit.broadcast = none ∧
        (world.past process running.group).length = (world.past other running.group).length) :
    Consistent processes
      (World.setBroadcast { world with sockets := sockets } process running created) := by
  have lookup := current_lookup runs
  have orderly := consistent.orderly _ _ _ _ lookup
  have nothing := consistent.nothing _ _ _ _ lookup
  obtain ⟨counter, some_, open_⟩ := consistent.current process running runs
  have now : (World.setBroadcast { world with sockets := sockets } process running created).running
      process = some { running with visit := running.visit.told created } :=
    update_self _ _ _
  have filed : Filed world (World.setBroadcast { world with sockets := sockets } process running
      created) process running.group (running.visit.told created) :=
    filed_running now rfl (fun other different => update_of_ne different _ _)
      fun place away => visits_elsewhere runs away
  refine consistent.file filed (fun old there => ?_) (fun _ => Nat.le_refl _) (fun grows => ?_)
    nothing (fun count earlier below there => ?_)
    (fun other place visit there => consistent.ended other place visit there)
    (fun other ran there => ?_) (fun other peer different there => ?_)
    (fun place number rank value there => .inl there) fun grows other ran there => ?_
  · obtain rfl := mem_unique lookup there
    refine ⟨rfl, rfl, fun index gathering at_ => ⟨gathering, at_, rfl⟩, fun told heard => ?_⟩
    rw [unheard] at heard
    cases heard
  · have same : Orderly processes (World.setBroadcast { world with sockets := sockets } process
        running created) process running.group _ running.visit :=
      orderly.mono (Nat.le_refl _) grows
    refine { same with went := ?_, stopped := ?_, broadcast := ?_ }
    · intro index positive below
      refine goesOn_congr (orderly.went index positive below) fun _ two => ?_
      change (running.visit.reads.take index).length = 2 at two
      change index < running.visit.exchanges.length at below
      rw [length_take] at two
      omega
    · intro left
      exact absurd (left.symm.trans open_) (by decide)
    · intro heard told
      cases told
      rcases source with first | ⟨first, theirs, atRank, visited, sent⟩
      · exact ⟨process, _, first, filed.lookup, rfl⟩
      · obtain ⟨now, found, more⟩ := grows visited
        exact ⟨first, now, atRank, found, more.broadcast _ sent⟩
  · have order := consistent.ordered _ _ _ _ _ _ below there lookup
    exact order
  · change update world.running process _ other = some ran at there
    by_cases here : other = process
    · subst here
      rw [update_self] at there
      cases there
      exact ⟨counter, some_, open_⟩
    · rw [update_of_ne here] at there
      exact consistent.current other ran there
  · have same := consistent.agree _ _ _ _ _ _ lookup there
    exact same
  · change update world.running process _ other = some ran at there
    by_cases here : other = process
    · exact .inl (here ▸ own)
    · rw [update_of_ne here] at there
      rcases others other here with kept | ⟨sent, first, theirs, now, group, undecided, count⟩
      · rcases consistent.sockets other ran there with empty | ⟨old, rank0, sender, holds, undecided,
          atRank, visited, told⟩
        · exact .inl (kept.trans empty)
        · obtain ⟨now, found, more⟩ := grows visited
          exact .inr ⟨old, rank0, now, kept.trans holds, undecided, atRank, found,
            more.broadcast old told⟩
      · obtain rfl := mem_unique there now
        refine .inr ⟨created, process, running.visit.told created, sent,
          undecided, group ▸ first, ?_, rfl⟩
        rw [group]
        change ((World.setBroadcast _ process running created).visits process running.group)[
          (world.past other running.group).length]? = _
        rw [← count]
        exact filed.lookup

end Broadcast

section Steps

variable {processes : Processes} {world after : World} {process group block : Nat}
  {running : Running}

section

variable (consistent : Consistent processes world)
include consistent

theorem Consistent.remember (symmMems : Nat → Nat → List Nat) :
    Consistent processes { world with symmMems := symmMems } where
  orderly := fun _ _ _ _ there => (consistent.orderly _ _ _ _ there).mono (Nat.le_refl _)
    fun found => ⟨_, found, .refl _⟩
  nothing := consistent.nothing
  ordered := consistent.ordered
  ended := consistent.ended
  current := consistent.current
  agree := consistent.agree
  stored := consistent.stored
  sockets := consistent.sockets

theorem Consistent.bind :
    Consistent processes { world with sockets := update world.sockets process [] } where
  orderly := fun _ _ _ _ there => (consistent.orderly _ _ _ _ there).mono (Nat.le_refl _)
    fun found => ⟨_, found, .refl _⟩
  nothing := consistent.nothing
  ordered := consistent.ordered
  ended := consistent.ended
  current := consistent.current
  agree := consistent.agree
  stored := consistent.stored
  sockets := by
    intro other running runs
    by_cases same : other = process
    · subst same
      exact .inl (update_self _ _ _)
    · dsimp only
      rw [update_of_ne same]
      exact consistent.sockets other running runs

omit consistent in
theorem Orderly.opened {count start : Nat} {cached left : Bool}
    (member : process ∈ processes.members group)
    (bound : start ≤ world.seqId process) (unread : left = true → cached = true) :
    Orderly processes world process group count { start, cached, left } := by
  refine ⟨member, bound, ?_, ?_, ?_, ?_, fun was fresh => ?_, ?_, ?_⟩
  · intro index gathering there
    cases there
  · intro gathering there
    cases there
  · intro index gathering there
    cases there
  · intro index _ below
    exact absurd below (not_lt_zero _)
  · exact absurd (unread was) (Bool.eq_false_iff.mp fresh)
  · intro index gathering rank value there
    cases there
  · intro created told
    cases told

theorem Consistent.revisit
    (idle : world.running process = none) (member : process ∈ processes.members group)
    (agree : ∀ other peer, other ≠ process →
      (world.visits other group)[(world.past process group).length]? = some peer →
      world.seqId process = peer.start ∧ true = peer.cached) :
    Consistent processes (world.leave process
      ⟨group, block, { start := world.seqId process, cached := true }⟩) := by
  have none_ : (world.visits process group)[(world.past process group).length]? = none := by
    rw [visits_idle idle]
    exact getElem?_eq_none (Nat.le_refl _)
  have filed : Filed world (world.leave process
      ⟨group, block, { start := world.seqId process, cached := true }⟩) process group _ :=
    leave_filed fun place _ => visits_idle idle
  refine consistent.file filed (fun old there => ?_) (fun _ => Nat.le_refl _) (fun grows => ?_)
    ⟨fun _ => rfl, fun _ => rfl⟩
    (fun count earlier _ there => (consistent.orderly _ _ _ _ there).bound)
    (fun other place => past_over consistent place other) (fun other ran now => ?_)
    (fun other peer different there => agree other peer different there)
    (fun place number rank value there => .inl there) fun grows => ?_
  · rw [none_] at there
    cases there
  · exact .opened member (Nat.le_refl _) fun _ => rfl
  · unfold World.leave at now ⊢
    dsimp only at now ⊢
    by_cases same : other = process
    · rw [same, update_self] at now
      cases now
    · rw [update_of_ne same] at now
      exact consistent.current other ran now
  · refine consistent.sockets_mono process (fun other different place => ?_)
      (fun other different => update_of_ne different _ _) (fun _ _ => rfl)
      (fun ran now => ?_) grows
    · unfold World.leave
      dsimp only
      rw [update_of_ne different]
    · unfold World.leave at now
      dsimp only at now
      rw [update_self] at now
      cases now

theorem Consistent.begin
    (idle : world.running process = none) (member : process ∈ processes.members group)
    (agree : ∀ other peer, other ≠ process →
      (world.visits other group)[(world.past process group).length]? = some peer →
      world.seqId process = peer.start ∧ false = peer.cached) (request : RendezvousRequest) :
    Consistent processes
      (World.put { world with sockets := update world.sockets process [] } processes
        process ⟨group, block, { start := world.seqId process }⟩ (.request request)) := by
  refine consistent.bind.put .requests (fun place _ => visits_idle idle)
    (fun visit there => ?_) rfl ⟨rfl, rfl⟩ ?_ (fun gathering there => ?_) (fun some_ => ?_) ?_ rfl
    (fun count earlier _ there => ?_) (fun other peer different there => ?_)
    (.inl (update_self _ _ _))
  · have none_ : (world.visits process group)[(world.past process group).length]? = some visit := there
    rw [visits_idle idle, getElem?_eq_none (Nat.le_refl _)] at none_
    cases none_
  · refine .opened member (Nat.le_refl _) fun left => ?_
    cases left
  · cases there
  · exact absurd rfl some_
  · cases processes.fabric process <;> rfl
  · exact (consistent.orderly _ _ _ _ there).bound
  · exact agree other peer different there

theorem Consistent.rendezvous {request : RendezvousRequest}
    (concerted : Concerted processes world (.rendezvous process group block request))
    (taken : world.rendezvous processes process group block request = some after) :
    Consistent processes after := by
  unfold World.rendezvous at taken
  split at taken
  · next may =>
      obtain ⟨idle, within⟩ := Bool.and_eq_true_iff.mp may
      have idle := isNone_iff_eq_none.mp idle
      have member := contains_iff_mem.mp within
      have agree : ∀ other peer, other ≠ process →
          (world.visits other group)[(world.past process group).length]? = some peer →
          world.seqId process = peer.start ∧
            (world.symmMems process group).contains block = peer.cached := by
        intro other peer _ there
        have also := consistent.orderly _ _ _ _ there
        rw [← visits_idle idle] at there
        obtain ⟨start, cached⟩ := concerted other also.member peer there
        exact ⟨start.symm, cached.symm⟩
      split at taken
      · next known =>
          rw [known] at agree
          cases taken
          exact consistent.revisit idle member agree
      · next unknown =>
          rw [Bool.not_eq_true _ |>.mp unknown] at agree
          cases taken
          exact consistent.begin idle member agree request
  · cases taken

end

theorem gathering_some {last : Gathering} (at_ : world.gathering process = some (running, last)) :
    world.running process = some running ∧ running.visit.exchanges.getLast? = some last := by
  obtain ⟨now, runs, rest⟩ := bind_eq_some_iff.mp at_
  obtain ⟨final, ends, same⟩ := bind_eq_some_iff.mp rest
  obtain ⟨rfl, rfl⟩ := Prod.mk.inj (some.inj same)
  exact ⟨runs, ends⟩

section

variable (consistent : Consistent processes world)
include consistent

theorem Consistent.gather (alike : processes.Alike)
    (taken : world.gather processes process = some after) : Consistent processes after := by
  obtain ⟨⟨running, last⟩, at_, taken⟩ := bind_eq_some_iff.mp taken
  obtain ⟨runs, ends⟩ := gathering_some at_
  have lookup := current_lookup runs
  have orderly := consistent.orderly _ _ _ _ lookup
  have atLast := getLast?_eq_getElem? ▸ ends
  dsimp only at taken
  split at taken
  · next small =>
      split at taken
      · next own =>
          cases taken
          refine consistent.setRead runs ends small ⟨process, running.visit, last, ?_, lookup, atLast,
            rfl⟩
          rw [own]
          exact rank_lookup orderly.member
      · obtain ⟨value, there, taken⟩ := bind_eq_some_iff.mp taken
        obtain ⟨site, reads, taken⟩ := bind_eq_some_iff.mp taken
        obtain ⟨peer, theirs, set, atRank, visited, put, same⟩ := consistent.set_here alike runs there
        have fits := consistent.fits alike orderly.member visited put reads
        rw [same] at fits
        rw [if_pos fits] at taken
        cases taken
        exact consistent.setRead runs ends small ⟨peer, theirs, set, atRank, visited, put, same⟩
  · cases taken

theorem Consistent.broadcastFds (alike : processes.Alike)
    {created : Bool} (taken : world.broadcastFds processes process created = some after) :
    Consistent processes after := by
  obtain ⟨⟨running, last⟩, at_, taken⟩ := bind_eq_some_iff.mp taken
  obtain ⟨runs, ends⟩ := gathering_some at_
  have orderly := consistent.orderly _ _ _ _ (current_lookup runs)
  dsimp only at taken
  split at taken
  · next may =>
      obtain ⟨whole, awaits⟩ := Bool.and_eq_true_iff.mp may
      obtain ⟨_, size, _, undecided⟩ := awaits_iff.mp awaits
      have own := rank_lookup orderly.member
      split at taken
      · next zeroth =>
          cases taken
          rw [zeroth] at own
          have listening := fun other => consistent.listening alike runs own
            (fun gathering there => by
              obtain rfl := mem_unique ends there
              exact eq_of_beq whole) awaits other
          refine consistent.setBroadcast runs size undecided (.inl own) ?_ fun other different => ?_
          · rw [if_neg fun both => both.1 rfl]
            obtain ⟨now, there, _, _, _, empty⟩ := listening process orderly.member
            exact empty
          · by_cases member : other ∈ processes.members running.group
            · rw [if_pos ⟨different, member⟩]
              obtain ⟨now, there, same, unheard, count, empty⟩ := listening other member
              exact .inr ⟨by rw [empty]; rfl, own, now, there, same, unheard, count⟩
            · exact .inl (if_neg fun both => member both.2)
      · rcases consistent.sockets process running runs with empty | ⟨sent, first, theirs, holds, _,
          atRank, visited, told⟩
        · rw [empty] at taken
          cases taken
        · rw [holds] at taken
          cases taken
          exact consistent.setBroadcast runs size undecided (.inr ⟨first, theirs, atRank, visited, told⟩)
            (update_self _ _ _) fun other different =>
              .inl (update_of_ne different _ _)
  · cases taken

theorem Consistent.proceed {payload : Payload}
    (taken : world.proceed processes process payload = some after) : Consistent processes after := by
  obtain ⟨⟨running, last⟩, at_, taken⟩ := bind_eq_some_iff.mp taken
  obtain ⟨runs, ends⟩ := gathering_some at_
  have lookup := current_lookup runs
  obtain ⟨counter, some_, open_⟩ := consistent.current process running runs
  dsimp only at taken
  split at taken
  · next may =>
      obtain ⟨whole, heard⟩ := Bool.and_eq_true_iff.mp may
      have complete : ∀ gathering ∈ running.visit.exchanges.getLast?,
          gathering.read.length = (processes.members running.group).length := by
        intro gathering there
        obtain rfl := mem_unique ends there
        exact eq_of_beq whole
      split at taken
      · next goes =>
          obtain ⟨site, kind, taken⟩ := bind_eq_some_iff.mp taken
          split at taken
          · next isOf =>
              cases taken
              have nothing := consistent.nothing _ _ _ _ lookup
              have fresh : running.visit.cached = false := by
                cases cached : running.visit.cached with
                | false => rfl
                | true => exact absurd (nothing.mp cached) some_
              exact consistent.put site (fun place away => visits_elsewhere runs away)
                (fun visit there => mem_unique there lookup) counter
                ⟨open_, fresh⟩ (consistent.orderly _ _ _ _ lookup) complete (fun _ => goes) kind isOf
                (fun count earlier below there => consistent.ordered _ _ _ _ _ _ below there lookup)
                (fun other peer different there => consistent.agree _ _ _ _ _ _ lookup there)
                (.inr runs)
          · cases taken
      · next stops =>
          have left := consistent.leave runs complete (Bool.not_eq_true _ |>.mp stops)
            (Bool.not_eq_true' _ |>.mp heard)
          split at taken
          · cases taken
            exact left
          · cases taken
            exact left.remember _
  · cases taken

theorem Consistent.step (alike : processes.Alike)
    {action : Action} (concerted : Concerted processes world action)
    (taken : world.advance processes action = some after) : Consistent processes after := by
  cases action with
  | rendezvous process group block request => exact consistent.rendezvous concerted taken
  | gather process => exact consistent.gather alike taken
  | broadcastFds process created => exact consistent.broadcastFds alike taken
  | proceed process payload => exact consistent.proceed taken
  | fail process => exact concerted.elim

end

theorem consistent_initial : Consistent processes {} := by
  constructor
  · intro process group count visit there
    cases there
  · intro process group count visit there
    cases there
  · intro process group count later visit next _ there
    cases there
  · intro process group visit there
    cases there
  · intro process running there
    cases there
  · intro group process other count visit peer there
    cases there
  · intro group number rank value there
    cases there
  · intro process running there
    cases there

theorem Consistent.agreeing (consistent : Consistent processes world) (alike : processes.Alike) :
    Agreeing processes world where
  keys := by
    intro group process other count visit peer member also mine theirs index _ _
    obtain ⟨start, _⟩ := consistent.agree _ _ _ _ _ _ mine theirs
    obtain ⟨fabric, _⟩ := alike group process member other also
    rw [start, fabric]
    exact ⟨rfl, rfl⟩
  numbers := by
    intro group process other count visit peer _ _ mine theirs left gone
    exact Nat.le_antisymm (consistent.no_overtake alike theirs mine gone)
      (consistent.no_overtake alike mine theirs left)
  values := by
    intro process group count visit there index gathering rank value at_ read
    exact (consistent.orderly _ _ _ _ there).values index gathering rank value at_ read

end Steps

/-- Members that have made as many exchanges when they call use the same keys, and read the values
of this exchange only. -/
theorem rendezvous_agree (processes : Processes) (world : World) (alike : processes.Alike)
    (reached : (exchanging processes).Reachable (Concerted processes) world) :
    Agreeing processes world := by
  have consistent : Consistent processes world :=
    reached.invariant (fun _ begins => begins ▸ consistent_initial)
      fun _ _ _ consistent concerted taken => consistent.step alike concerted taken
  exact consistent.agreeing alike

section Runs

def overlapping : Processes where
  members group := if group = 0 then [0, 2] else [0, 1]
  distinct := by
    intro group
    split <;> decide
  fabric _ := false
  allowOverlapping _ := false

theorem overlapping_alike : overlapping.Alike := fun _ _ _ _ _ => ⟨rfl, rfl⟩

def requestOf (process : Nat) : RendezvousRequest where
  deviceIdx := process
  pid := process
  blockSize := 4096
  bufferSize := 2048
  signalPadOffset := 2048
  hasMulticastSupport := false
  hostname := "host"

def concertedCheck (counts : Bool) (processes : Processes) (world : World) : Action → Bool
  | .rendezvous process group block _ => (processes.members group).all fun other =>
    match (world.visits other group)[(world.visits process group).length]? with
    | some visit => (!counts || visit.start == world.seqId process) &&
        visit.cached == (world.symmMems process group).contains block
    | none => true
  | .fail _ => false
  | _ => true

theorem concertedCheck_sound {processes : Processes} {world : World} {action : Action}
    (passes : concertedCheck true processes world action = true) :
    Concerted processes world action := by
  cases action with
  | rendezvous process group block request =>
    intro other member visit there
    have checked := all_eq_true.mp passes other member
    rw [there] at checked
    obtain ⟨start, cached⟩ := Bool.and_eq_true_iff.mp checked
    exact ⟨eq_of_beq start, eq_of_beq cached⟩
  | fail process => cases passes
  | _ => trivial

def finalWorld (counts : Bool) (processes : Processes) (actions : List Action) : World :=
  (System.runs (World.advance processes) (concertedCheck counts processes) {} actions).getD {}

theorem reachable_finalWorld {allowed : World → Action → Prop} (counts : Bool)
    (processes : Processes) (actions : List Action)
    (ends : (System.runs (World.advance processes) (concertedCheck counts processes) {}
      actions).isSome = true)
    (allow : ∀ world action, concertedCheck counts processes world action = true →
      allowed world action) :
    (exchanging processes).Reachable allowed (finalWorld counts processes actions) := by
  exact System.Reachable.ended (.initial rfl) (fun _ _ _ taken => taken) allow ends _

def wholeRendezvous (group block one two : Nat) : List Action :=
  [.rendezvous one group block (requestOf one), .rendezvous two group block (requestOf two),
    .gather one, .gather one, .proceed one .barrier, .gather two, .gather two,
    .proceed two .barrier, .gather one, .gather one, .proceed one (.success true), .gather two,
    .gather two, .proceed two (.success true)]

theorem rendezvous_agree_sample :
    let final := finalWorld true overlapping (wholeRendezvous 0 7 0 2)
    Agreeing overlapping final ∧ (final.visits 2 0).map Visit.reads =
      [[[.request (requestOf 0), .request (requestOf 2)], [.barrier, .barrier]]] := by
  intro final
  exact ⟨rendezvous_agree overlapping _ overlapping_alike
    (reachable_finalWorld true _ _ (by decide +kernel) fun _ _ => concertedCheck_sound),
    by decide +kernel⟩

/-- A member that has made a rendezvous with another group has other keys. -/
theorem rendezvous_disagree : ¬ ∀ (processes : Processes) (world : World), processes.Alike →
    (exchanging processes).Reachable (fun world action =>
      concertedCheck false processes world action = true) world → Agreeing processes world := by
  intro all
  let actions := wholeRendezvous 0 7 0 2 ++
    [.rendezvous 0 1 8 (requestOf 0), .rendezvous 1 1 8 (requestOf 1)]
  let visit (start process : Nat) : Visit :=
    { start := start, exchanges := [.of (.request (requestOf process))] }
  have agreeing := all overlapping (finalWorld false overlapping actions) overlapping_alike
    (reachable_finalWorld false _ _ (by decide +kernel) fun _ _ passes => passes)
  have keys := agreeing.keys 1 0 1 0 (visit 2 0) (visit 0 1) (by decide) (by decide)
    (by decide +kernel) (by decide +kernel) 0 (by decide) (by decide)
  exact absurd keys.1 (by decide)

end Runs

end TorchSupa.SymmMem.Exchange
