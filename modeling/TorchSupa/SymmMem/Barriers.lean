import TorchSupa.SymmMem.Signals
import Mathlib.Tactic.Ring

/-!
Rounds of signals are barriers: what every compare-and-swap keeps of the words of the pads, and
in which runs no rank is a round ahead of another.
-/

namespace TorchSupa.SymmMem

open Function List

def Party.entered (self : Party) : Nat := self.round + if self.running then 1 else 0

def Group.holds (group : Group) (channel : Nat) : Prop :=
  group.worldSize * (channel + 1) ≤ group.words

structure Synchronised (group : Group) (world : World) : Prop where
  -- no rank leaves a round before all others have entered it
  together : ∀ channel rank other, rank < group.worldSize → other < group.worldSize →
    (world.parties rank channel).round ≤ (world.parties other channel).entered
  -- no signal is lost, and none is taken twice
  signals : ∀ channel, group.holds channel → ∀ source target, source < group.worldSize →
    target < group.worldSize →
    world.consumed channel source target ≤ world.sent channel source target ∧
    world.sent channel source target = world.consumed channel source target +
      (world.signalPads target (group.slot channel source)).toNat
  zero : ∀ channel, group.holds channel → ∀ count, (∀ rank, rank < group.worldSize →
      (world.parties rank channel).running = false ∧
      (world.parties rank channel).round = count) →
    ∀ source target, source < group.worldSize → target < group.worldSize →
      world.signalPads target (group.slot channel source) = 0

def Round.Fits (group : Group) (channel : Nat) (round : Round) : Prop :=
  group.holds channel ∧ (round = .barrier → group.worldSize ≤ group.warpSize)

def EntersFitting (group : Group) (rounds : Nat → Nat → Round) (world : World) : Action → Prop
  | .enter rank channel => (rounds channel (world.parties rank channel).round).Fits group channel
  | _ => True

section Launches

theorem enough_threads {numel elementSize alignment splits blocks threads worldSize warpSize : Nat}
    (few : worldSize ≤ threads) (warp : 0 < warpSize) :
    worldSize ≤ (initElementwiseLaunchConfig numel elementSize alignment splits blocks threads
      worldSize warpSize).numThreads := by
  unfold initElementwiseLaunchConfig
  dsimp only
  split
  · exact (Nat.le_max_right _ _).trans (le_roundUp warp)
  · exact few

variable {group : Group} {round : Round} {rank thread channel : Nat}

theorem Round.Fits.threads (fits : round.Fits group channel)
    (small : group.worldSize ≤ maxSupaP2pDomainSize) (warp : 0 < group.warpSize) :
    group.worldSize ≤ (round.launch group).numThreads := by
  cases round with
  | barrier => exact fits.2 rfl
  | syncRemoteBlocks kernel numel elementSize alignment splits =>
    refine enough_threads (small.trans ?_) warp
    cases kernel <;> decide

theorem Round.Fits.symmetric (fits : round.Fits group channel)
    (small : group.worldSize ≤ maxSupaP2pDomainSize) (warp : 0 < group.warpSize)
    (one : rank < group.worldSize) (two : thread < group.worldSize) :
    round.active group rank thread = round.active group thread rank := by
  have threads := fits.threads small warp
  unfold Round.active
  rw [decide_eq_true (two.trans_le threads), decide_eq_true two,
    decide_eq_true (one.trans_le threads), decide_eq_true one]
  cases round with
  | barrier => exact congrArg (true && true && ·) (bne_comm)
  | syncRemoteBlocks => rfl

theorem Round.Fits.takesPart (fits : round.Fits group channel)
    (small : group.worldSize ≤ maxSupaP2pDomainSize) (warp : 0 < group.warpSize)
    (two : thread < group.worldSize) (different : thread ≠ rank) :
    round.active group rank thread = true := by
  have threads := fits.threads small warp
  unfold Round.active
  rw [decide_eq_true (two.trans_le threads), decide_eq_true two]
  cases round with
  | barrier => simpa using different
  | syncRemoteBlocks => rfl

theorem active_lt (active : round.active group rank thread = true) : thread < group.worldSize := by
  unfold Round.active at active
  simp only [Bool.and_eq_true, decide_eq_true_eq] at active
  exact active.1.2

theorem active_launched (active : round.active group rank thread = true) :
    thread < (round.launch group).numThreads := by
  unfold Round.active at active
  simp only [Bool.and_eq_true, decide_eq_true_eq] at active
  exact active.1.1

end Launches

section Slots

variable {group : Group}

open Nat

theorem slot_inj {channel other source rank : Nat} (small : source < group.worldSize)
    (also : rank < group.worldSize) (same : group.slot channel source = group.slot other rank) :
    channel = other ∧ source = rank := by
  unfold Group.slot at same
  have channels := congrArg (· / group.worldSize) same
  have ranks := congrArg (· % group.worldSize) same
  have positive : 0 < group.worldSize := zero_lt_of_lt small
  simp only [mul_add_div positive, div_eq_of_lt small, div_eq_of_lt also] at channels
  simp only [mul_add_mod, mod_eq_of_lt small, mod_eq_of_lt also] at ranks
  exact ⟨channels, ranks⟩

theorem slot_lt {channel source : Nat} (held : group.holds channel)
    (small : source < group.worldSize) : group.slot channel source < group.words := by
  unfold Group.holds at held
  unfold Group.slot
  rw [Nat.mul_add, Nat.mul_one] at held
  omega

end Slots

def turns (group : Group) (rounds : Nat → Nat → Round) (channel rank thread : Nat) : Nat → Nat
  | 0 => 0
  | count + 1 => turns group rounds channel rank thread count +
      if (rounds channel count).active group rank thread then 1 else 0

theorem turns_succ {group : Group} {rounds : Nat → Nat → Round} {channel rank thread : Nat}
    (count : Nat) : turns group rounds channel rank thread (count + 1) =
      turns group rounds channel rank thread count +
        if (rounds channel count).active group rank thread then 1 else 0 := rfl

def Party.given (self : Party) (active : Bool) (thread : Nat) : Nat :=
  if self.running ∧ active ∧ self.phase thread ≠ .put then 1 else 0

def Party.taken (self : Party) (active : Bool) (thread : Nat) : Nat :=
  if self.running ∧ active ∧ self.phase thread = .done then 1 else 0

structure Counted (group : Group) (rounds : Nat → Nat → Round) (world : World) : Prop where
  phases : ∀ rank channel thread, (world.parties rank channel).phase thread ≠ .done →
    (world.parties rank channel).running = true ∧
    (rounds channel (world.parties rank channel).round).active group rank thread = true
  sent : ∀ rank channel thread, rank < group.worldSize → thread < group.worldSize →
    world.sent channel rank thread =
      turns group rounds channel rank thread (world.parties rank channel).round +
      (world.parties rank channel).given
        ((rounds channel (world.parties rank channel).round).active group rank thread) thread
  consumed : ∀ rank channel thread, rank < group.worldSize → thread < group.worldSize →
    world.consumed channel thread rank =
      turns group rounds channel rank thread (world.parties rank channel).round +
      (world.parties rank channel).taken
        ((rounds channel (world.parties rank channel).round).active group rank thread) thread
  slots : ∀ channel, group.holds channel → ∀ source target, source < group.worldSize →
    target < group.worldSize →
    world.sent channel source target = world.consumed channel source target ∧
      world.signalPads target (group.slot channel source) = 0 ∨
    world.sent channel source target = world.consumed channel source target + 1 ∧
      world.signalPads target (group.slot channel source) = 1
  fits : ∀ rank channel count, rank < group.worldSize →
    count < (world.parties rank channel).entered → (rounds channel count).Fits group channel

section Counting

variable {group : Group} {rounds : Nat → Nat → Round} {world : World}

theorem turns_symmetric (small : group.worldSize ≤ maxSupaP2pDomainSize) (warp : 0 < group.warpSize)
    {channel rank thread : Nat} (one : rank < group.worldSize) (two : thread < group.worldSize) :
    ∀ count, (∀ earlier, earlier < count → (rounds channel earlier).Fits group channel) →
      turns group rounds channel rank thread count = turns group rounds channel thread rank count := by
  intro count
  induction count with
  | zero => exact fun _ => rfl
  | succ count ih =>
    intro fits
    have before := ih fun earlier below => fits earlier (Nat.lt_succ_of_lt below)
    unfold turns
    rw [before, (fits count (Nat.lt_succ_self count)).symmetric small warp one two]

theorem turns_all (small : group.worldSize ≤ maxSupaP2pDomainSize) (warp : 0 < group.warpSize)
    {channel rank thread : Nat} (two : thread < group.worldSize) (different : thread ≠ rank) :
    ∀ count, (∀ earlier, earlier < count → (rounds channel earlier).Fits group channel) →
      turns group rounds channel rank thread count = count := by
  intro count
  induction count with
  | zero => exact fun _ => rfl
  | succ count ih =>
    intro fits
    have before := ih fun earlier below => fits earlier (Nat.lt_succ_of_lt below)
    unfold turns
    rw [before, (fits count (Nat.lt_succ_self count)).takesPart small warp two different, if_pos rfl]

open Party

theorem given_le (party : Party) (active : Bool) (thread : Nat) :
    party.given active thread ≤ if party.running then 1 else 0 := by
  unfold given
  cases party.running <;> simp
  split <;> omega

theorem Counted.synchronised (counted : Counted group rounds world)
    (small : group.worldSize ≤ maxSupaP2pDomainSize) (warp : 0 < group.warpSize) :
    Synchronised group world where
  together := by
    intro channel rank other one two
    by_cases same : rank = other
    · subst same
      exact Nat.le_add_right _ _
    · by_cases begun : (world.parties rank channel).round = 0
      · rw [begun]
        exact Nat.zero_le _
      · have held : group.holds channel := (counted.fits rank channel 0 one (by
          unfold entered
          omega)).1
        have takes := counted.consumed rank channel other one two
        have gives := counted.sent other channel rank two one
        rw [turns_all small warp two (Ne.symm same) _ fun count below =>
          counted.fits rank channel count one (Nat.lt_add_right _ below)] at takes
        rw [turns_all small warp one same _ fun count below =>
          counted.fits other channel count two (Nat.lt_add_right _ below)] at gives
        have bound := given_le (world.parties other channel) ((rounds channel
          (world.parties other channel).round).active group other rank) rank
        have slots := counted.slots channel held other rank two one
        unfold entered
        omega
  signals := by
    intro channel held source target one two
    rcases counted.slots channel held source target one two with ⟨same, empty⟩ | ⟨more, full⟩
    · rw [empty, same]
      exact ⟨Nat.le_refl _, rfl⟩
    · rw [full, more]
      exact ⟨Nat.le_add_right _ _, rfl⟩
  zero := by
    intro channel held count idle source target one two
    obtain ⟨stopped, ended⟩ := idle source one
    obtain ⟨halted, done⟩ := idle target two
    have gives := counted.sent source channel target one two
    have takes := counted.consumed target channel source two one
    have fits := fun earlier below => counted.fits source channel earlier one below
    unfold given at gives
    unfold taken at takes
    unfold entered at fits
    rw [ended, stopped] at gives
    rw [done, halted] at takes
    rw [ended] at fits
    rw [turns_symmetric small warp two one count fun earlier below =>
      fits earlier (Nat.lt_add_right _ below)] at takes
    simp only [Bool.false_eq_true, false_and, if_false, Nat.add_zero] at gives takes
    rcases counted.slots channel held source target one two with ⟨_, empty⟩ | ⟨more, _⟩
    · exact empty
    · omega

end Counting

section Steps

variable {group : Group} {rounds : Nat → Nat → Round} {world : World} {rank channel thread : Nat}

theorem setParty_here (party : Party) : (world.setParty rank channel party).parties rank channel = party := by
  unfold World.setParty
  dsimp only
  rw [update_self, update_self]

theorem setParty_other {one two : Nat} (party : Party) (other : ¬(one = rank ∧ two = channel)) :
    (world.setParty rank channel party).parties one two = world.parties one two := by
  unfold World.setParty
  dsimp only
  by_cases same : one = rank
  · subst same
    rw [update_self, update_of_ne fun here => other ⟨rfl, here⟩]
  · rw [update_of_ne same]

theorem Counted.move (counted : Counted group rounds world) (party : Party)
    (phases : ∀ thread, party.phase thread ≠ .done → party.running = true ∧
      (rounds channel party.round).active group rank thread = true)
    (sent : ∀ thread, thread < group.worldSize →
      turns group rounds channel rank thread party.round +
          party.given ((rounds channel party.round).active group rank thread) thread =
        turns group rounds channel rank thread (world.parties rank channel).round +
          (world.parties rank channel).given
            ((rounds channel (world.parties rank channel).round).active group rank thread) thread)
    (consumed : ∀ thread, thread < group.worldSize →
      turns group rounds channel rank thread party.round +
          party.taken ((rounds channel party.round).active group rank thread) thread =
        turns group rounds channel rank thread (world.parties rank channel).round +
          (world.parties rank channel).taken
            ((rounds channel (world.parties rank channel).round).active group rank thread) thread)
    (fits : ∀ count, count < party.entered → (rounds channel count).Fits group channel) :
    Counted group rounds (world.setParty rank channel party) where
  phases := by
    intro one two peer
    by_cases here : one = rank ∧ two = channel
    · obtain ⟨rfl, rfl⟩ := here
      rw [setParty_here]
      exact phases peer
    · rw [setParty_other party here]
      exact counted.phases one two peer
  sent := by
    intro one two peer small also
    by_cases here : one = rank ∧ two = channel
    · obtain ⟨rfl, rfl⟩ := here
      rw [setParty_here, sent peer also]
      exact counted.sent one two peer small also
    · rw [setParty_other party here]
      exact counted.sent one two peer small also
  consumed := by
    intro one two peer small also
    by_cases here : one = rank ∧ two = channel
    · obtain ⟨rfl, rfl⟩ := here
      rw [setParty_here, consumed peer also]
      exact counted.consumed one two peer small also
    · rw [setParty_other party here]
      exact counted.consumed one two peer small also
  slots := counted.slots
  fits := by
    intro one two count small below
    by_cases here : one = rank ∧ two = channel
    · obtain ⟨rfl, rfl⟩ := here
      rw [setParty_here] at below
      exact fits count below
    · rw [setParty_other party here] at below
      exact counted.fits one two count small below

variable {after : World}

theorem Counted.enter (counted : Counted group rounds world) (small : rank < group.worldSize)
    (fits : (rounds channel (world.parties rank channel).round).Fits group channel)
    (taken : world.enter group rounds rank channel = some after) : Counted group rounds after := by
  unfold World.enter at taken
  dsimp only at taken
  split at taken
  · next may =>
      obtain ⟨stopped, _⟩ := Bool.and_eq_true_iff.mp may
      have stopped : (world.parties rank channel).running = false := by simpa using stopped
      cases taken
      refine counted.move _ (fun peer busy => ⟨rfl, ?_⟩) (fun peer _ => ?_) (fun peer _ => ?_)
        fun count below => ?_
      · by_contra inactive
        exact busy (if_neg inactive)
      · unfold Party.given
        rw [stopped]
        cases active : (rounds channel (world.parties rank channel).round).active group rank peer <;>
          simp [active]
      · unfold Party.taken
        rw [stopped]
        cases active : (rounds channel (world.parties rank channel).round).active group rank peer <;>
          simp [active]
      · rcases Nat.lt_succ_iff_lt_or_eq.mp below with earlier | rfl
        · exact counted.fits rank channel count small (Nat.lt_add_right _ earlier)
        · exact fits
  · cases taken

theorem Counted.leave (counted : Counted group rounds world) (small : rank < group.worldSize)
    (taken : world.leave group rounds rank channel = some after) : Counted group rounds after := by
  unfold World.leave at taken
  dsimp only at taken
  split at taken
  · next may =>
      obtain ⟨running, finished⟩ := Bool.and_eq_true_iff.mp may
      have finished : ∀ peer, (rounds channel (world.parties rank channel).round).active group rank
          peer = true → (world.parties rank channel).phase peer = .done := by
        intro peer active
        have ended := all_eq_true.mp finished peer (mem_range.mpr (active_launched active))
        exact eq_of_beq ended
      cases taken
      refine counted.move _ (fun peer busy => ?_) (fun peer _ => ?_) (fun peer _ => ?_)
        fun count below => ?_
      · exact absurd (finished peer (counted.phases rank channel peer busy).2) busy
      · rw [turns_succ]
        unfold Party.given
        cases active : (rounds channel (world.parties rank channel).round).active group rank peer with
        | false => simp
        | true => simp [running, finished peer active]
      · rw [turns_succ]
        unfold Party.taken
        cases active : (rounds channel (world.parties rank channel).round).active group rank peer with
        | false => simp
        | true => simp [running, finished peer active]
      · refine counted.fits rank channel count small ?_
        unfold Party.entered at below ⊢
        rw [running]
        exact below
  · cases taken

theorem bump_here (counts : Nat → Nat → Nat → Nat) (one two three : Nat) :
    bump counts one two three one two three = counts one two three + 1 := if_pos ⟨rfl, rfl, rfl⟩

theorem bump_other {counts : Nat → Nat → Nat → Nat} {one two three first second third : Nat}
    (other : ¬(first = one ∧ second = two ∧ third = three)) :
    bump counts one two three first second third = counts first second third := if_neg other

theorem store_here (word : Nat) (value : UInt32) :
    (world.store rank word value).signalPads rank word = value := by
  unfold World.store
  dsimp only
  rw [update_self, update_self]

theorem store_other {one two word : Nat} (value : UInt32) (other : ¬(one = rank ∧ two = word)) :
    (world.store rank word value).signalPads one two = world.signalPads one two := by
  unfold World.store
  dsimp only
  by_cases same : one = rank
  · subst same
    rw [update_self, update_of_ne fun here => other ⟨rfl, here⟩]
  · rw [update_of_ne same]

structure Advanced (world after : World) (rank channel thread : Nat) (next : Phase) : Prop where
  here : after.parties rank channel = { world.parties rank channel with
    phase := update (world.parties rank channel).phase thread next }
  other : ∀ one two, ¬(one = rank ∧ two = channel) → after.parties one two = world.parties one two

variable {next : Phase}

theorem Advanced.entered
    (advanced : Advanced world after rank channel thread next) (one two : Nat) :
    (after.parties one two).entered = (world.parties one two).entered := by
  by_cases here : one = rank ∧ two = channel
  · obtain ⟨rfl, rfl⟩ := here
    rw [advanced.here]
    rfl
  · rw [advanced.other one two here]

theorem Advanced.phases (counted : Counted group rounds world)
    (advanced : Advanced world after rank channel thread next)
    (busy : (world.parties rank channel).phase thread ≠ .done) :
    ∀ one two peer, (after.parties one two).phase peer ≠ .done →
      (after.parties one two).running = true ∧
      (rounds two (after.parties one two).round).active group one peer = true := by
  intro one two peer working
  by_cases here : one = rank ∧ two = channel
  · obtain ⟨rfl, rfl⟩ := here
    rw [advanced.here] at working ⊢
    by_cases same : peer = thread
    · subst same
      exact counted.phases one two peer busy
    · refine counted.phases one two peer fun ended => working ?_
      exact (update_of_ne same _ _).trans ended
  · rw [advanced.other one two here] at working ⊢
    exact counted.phases one two peer working

theorem Advanced.same
    (advanced : Advanced world after rank channel thread next) {one two peer : Nat}
    (other : ¬(one = rank ∧ two = channel ∧ peer = thread)) :
    (after.parties one two).round = (world.parties one two).round ∧
    (∀ active, (after.parties one two).given active peer =
      (world.parties one two).given active peer) ∧
    ∀ active, (after.parties one two).taken active peer =
      (world.parties one two).taken active peer := by
  by_cases here : one = rank ∧ two = channel
  · obtain ⟨rfl, rfl⟩ := here
    have different : peer ≠ thread := fun same => other ⟨rfl, rfl, same⟩
    rw [advanced.here]
    unfold Party.given Party.taken
    simp [update_of_ne different]
  · rw [advanced.other one two here]
    exact ⟨rfl, fun _ => rfl, fun _ => rfl⟩

section

variable (counted : Counted group rounds world)
include counted

theorem Counted.put
    (small : rank < group.worldSize) (phase : (world.parties rank channel).phase thread = .put)
    (empty : world.signalPads thread (group.slot channel rank) = 0)
    (advanced : Advanced world after rank channel thread .wait)
    (pads : after.signalPads = (world.store thread (group.slot channel rank) 1).signalPads)
    (sent : after.sent = bump world.sent channel rank thread)
    (consumed : after.consumed = world.consumed) : Counted group rounds after := by
  have busy : (world.parties rank channel).phase thread ≠ .done := by rw [phase]; decide
  obtain ⟨running, active⟩ := counted.phases rank channel thread busy
  have peer := active_lt active
  constructor
  · exact advanced.phases counted busy
  · intro one two other below also
    rw [sent]
    by_cases here : one = rank ∧ two = channel ∧ other = thread
    · obtain ⟨rfl, rfl, rfl⟩ := here
      rw [bump_here, counted.sent one two other small peer, advanced.here]
      unfold Party.given
      simp [phase, running, active]
    · obtain ⟨round, given, _⟩ := advanced.same here
      rw [bump_other (fun same => here ⟨same.2.1, same.1, same.2.2⟩), round, given]
      exact counted.sent one two other below also
  · intro one two other below also
    rw [consumed]
    by_cases here : one = rank ∧ two = channel ∧ other = thread
    · obtain ⟨rfl, rfl, rfl⟩ := here
      rw [counted.consumed one two other small peer, advanced.here]
      unfold Party.taken
      simp [phase]
    · obtain ⟨round, _, taken⟩ := advanced.same here
      rw [round, taken]
      exact counted.consumed one two other below also
  · intro two held source target below also
    rw [sent, consumed, pads]
    by_cases here : two = channel ∧ source = rank ∧ target = thread
    · obtain ⟨rfl, rfl, rfl⟩ := here
      rw [bump_here, store_here]
      refine .inr ⟨?_, rfl⟩
      rcases counted.slots two held source target below also with ⟨same, _⟩ | ⟨_, full⟩
      · rw [same]
      · rw [full] at empty
        exact absurd empty (by decide)
    · rw [bump_other here, store_other _ fun same => ?_]
      · exact counted.slots two held source target below also
      · obtain ⟨rfl, rfl⟩ := slot_inj below small same.2
        exact here ⟨rfl, rfl, same.1⟩
  · intro one two count below earlier
    rw [advanced.entered] at earlier
    exact counted.fits one two count below earlier

theorem Counted.wait
    (small : rank < group.worldSize) (phase : (world.parties rank channel).phase thread = .wait)
    (full : world.signalPads rank (group.slot channel thread) = 1)
    (advanced : Advanced world after rank channel thread .done)
    (pads : after.signalPads = (world.store rank (group.slot channel thread) 0).signalPads)
    (sent : after.sent = world.sent)
    (consumed : after.consumed = bump world.consumed channel thread rank) :
    Counted group rounds after := by
  have busy : (world.parties rank channel).phase thread ≠ .done := by rw [phase]; decide
  obtain ⟨running, active⟩ := counted.phases rank channel thread busy
  have peer := active_lt active
  constructor
  · exact advanced.phases counted busy
  · intro one two other below also
    rw [sent]
    by_cases here : one = rank ∧ two = channel ∧ other = thread
    · obtain ⟨rfl, rfl, rfl⟩ := here
      rw [counted.sent one two other small peer, advanced.here]
      unfold Party.given
      simp [phase]
    · obtain ⟨round, given, _⟩ := advanced.same here
      rw [round, given]
      exact counted.sent one two other below also
  · intro one two other below also
    rw [consumed]
    by_cases here : one = rank ∧ two = channel ∧ other = thread
    · obtain ⟨rfl, rfl, rfl⟩ := here
      rw [bump_here, counted.consumed one two other small peer, advanced.here]
      unfold Party.taken
      simp [phase, running, active]
    · obtain ⟨round, _, taken⟩ := advanced.same here
      rw [bump_other (fun same => here ⟨same.2.2, same.1, same.2.1⟩), round, taken]
      exact counted.consumed one two other below also
  · intro two held source target below also
    rw [sent, consumed, pads]
    by_cases here : two = channel ∧ source = thread ∧ target = rank
    · obtain ⟨rfl, rfl, rfl⟩ := here
      rw [bump_here, store_here]
      refine .inl ⟨?_, rfl⟩
      rcases counted.slots two held source target below also with ⟨_, empty⟩ | ⟨more, _⟩
      · rw [empty] at full
        exact absurd full (by decide)
      · exact more
    · rw [bump_other here, store_other _ fun same => ?_]
      · exact counted.slots two held source target below also
      · obtain ⟨rfl, rfl⟩ := slot_inj below peer same.2
        exact here ⟨rfl, rfl, same.1⟩
  · intro one two count below earlier
    rw [advanced.entered] at earlier
    exact counted.fits one two count below earlier

theorem Counted.cas (small : rank < group.worldSize)
    (taken : world.cas group rank channel thread = some after) : Counted group rounds after := by
  unfold World.cas at taken
  dsimp only at taken
  cases phase : (world.parties rank channel).phase thread with
  | put =>
    rw [phase] at taken
    dsimp only at taken
    split at taken
    · next empty =>
        cases taken
        exact counted.put small phase empty ⟨setParty_here _, fun _ _ other =>
          setParty_other _ other⟩ rfl rfl rfl
    · cases taken
      exact counted
  | wait =>
    rw [phase] at taken
    dsimp only at taken
    split at taken
    · next full =>
        cases taken
        exact counted.wait small phase full ⟨setParty_here _, fun _ _ other =>
          setParty_other _ other⟩ rfl rfl rfl
    · cases taken
      exact counted
  | done =>
    rw [phase] at taken
    cases taken

theorem Counted.step {action : Action} (fits : EntersFitting group rounds world action)
    (taken : world.advance group rounds action = some after) : Counted group rounds after := by
  unfold World.advance at taken
  split at taken
  · next may =>
      have small : action.rank < group.worldSize :=
        of_decide_eq_true (Bool.and_eq_true_iff.mp may).1
      cases action with
      | enter rank channel => exact counted.enter small fits taken
      | cas rank channel thread => exact counted.cas small taken
      | trap rank channel thread =>
        unfold World.trap at taken
        dsimp only at taken
        split at taken
        · cases taken
          exact { counted with }
        · cases taken
      | leave rank channel => exact counted.leave small taken
  · cases taken

end

theorem counted_initial (begins : (signalling group rounds).initial world) :
    Counted group rounds world := by
  obtain ⟨signalPads, zero, rfl⟩ := begins
  refine ⟨fun _ _ _ busy => absurd rfl busy, fun _ _ _ _ _ => rfl, fun _ _ _ _ _ => rfl, ?_,
    fun _ _ _ _ below => absurd below (Nat.not_lt_zero _)⟩
  exact fun channel held source target below _ =>
    .inl ⟨rfl, zero target _ (slot_lt held below)⟩

end Steps

/-- No rank leaves a round before all others have entered it, no signal is lost or taken twice,
and the slots are zero when all ranks have finished as many rounds. -/
theorem signals_synchronise (group : Group) (rounds : Nat → Nat → Round) (world : World)
    (small : group.worldSize ≤ maxSupaP2pDomainSize) (warp : 0 < group.warpSize)
    (reached : (signalling group rounds).Reachable (EntersFitting group rounds) world) :
    Synchronised group world :=
  (reached.invariant (fun _ begins => counted_initial begins)
    fun _ _ _ counted fits taken => counted.step fits taken).synchronised small warp

section Runs

def groupOf (worldSize warpSize : Nat) : Group where
  worldSize := worldSize
  warpSize := warpSize
  signalPadSize := 2048
  words := 512

def finalWorld (group : Group) (rounds : Nat → Nat → Round) (guard : World → Action → Bool)
    (actions : List Action) : World :=
  (System.runs (World.advance group rounds) guard { signalPads := fun _ _ => 0 } actions).getD
    { signalPads := fun _ _ => 0 }

theorem reachable_finalWorld {group : Group} {rounds : Nat → Nat → Round}
    {allowed : World → Action → Prop} (guard : World → Action → Bool) (actions : List Action)
    (ends : (System.runs (World.advance group rounds) guard { signalPads := fun _ _ => 0 }
      actions).isSome = true)
    (allow : ∀ world action, guard world action = true → allowed world action) :
    (signalling group rounds).Reachable allowed (finalWorld group rounds guard actions) := by
  refine System.Reachable.ended (.initial ?_) (fun _ _ _ taken => taken) allow ends _
  exact ⟨_, fun _ _ _ => rfl, rfl⟩

def signalAll (rank : Nat) (peers : List Nat) : List Action :=
  peers.flatMap fun peer => [.cas rank 0 peer, .cas rank 0 peer]

/-- Two ranks, of which one is in its second round before the other has left the first. -/
theorem signals_synchronise_sample :
    let onFirst := fun (_ : World) (action : Action) => match action with
      | .enter _ channel => channel == 0
      | _ => true
    let final := finalWorld (groupOf 2 32) (fun _ _ => .barrier) onFirst [.enter 0 0, .cas 0 0 1,
      .enter 1 0, .cas 1 0 0, .cas 1 0 0, .leave 1 0, .enter 1 0, .cas 0 0 1, .cas 1 0 0, .leave 0 0]
    Synchronised (groupOf 2 32) final ∧ (final.parties 0 0).round = 1 ∧
      (final.parties 1 0).entered = 2 := by
  intro onFirst final
  have fits : ∀ world action, onFirst world action = true →
      EntersFitting (groupOf 2 32) (fun _ _ => .barrier) world action := by
    intro world action passes
    cases action with
    | enter rank channel =>
      obtain rfl : channel = 0 := eq_of_beq passes
      exact ⟨by unfold Group.holds; decide, fun _ => by decide⟩
    | _ => trivial
  exact ⟨signals_synchronise _ _ _ (by decide) (by decide)
    (reachable_finalWorld onFirst _ (by decide +kernel) fits), by decide +kernel, by decide +kernel⟩

/-- With 33 ranks the last one is not waited for. -/
theorem signals_not_synchronised : ¬ ∀ group : Group, ∀ rounds : Nat → Nat → Round, ∀ world,
    group.worldSize ≤ maxSupaP2pDomainSize → 0 < group.warpSize →
    (signalling group rounds).Reachable (fun _ _ => True) world → Synchronised group world := by
  intro all
  have synchronised := all (groupOf 33 32) (fun _ _ => .barrier) _ (by decide) (by decide)
    (reachable_finalWorld (fun _ _ => true) (flatten [ (range 32).map fun rank => .enter rank 0,
      (range 32).tail.map fun rank => .cas rank 0 0,
      signalAll 0 (range 32).tail, [.leave 0 0]]) (by decide +kernel) fun _ _ _ => trivial)
  have ahead := synchronised.together 0 0 32 (by decide) (by decide)
  exact absurd ahead (by decide +kernel)

end Runs

end TorchSupa.SymmMem
