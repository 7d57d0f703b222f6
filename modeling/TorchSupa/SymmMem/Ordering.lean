import TorchSupa.SymmMem.Kernels
import TorchSupa.SymmMem.Barriers
import TorchSupa.Logic.GridStride

/-!
What the synchronisation of the kernels orders: which vectors have been read and written when a
thread of any rank comes to another.
-/

namespace TorchSupa.SymmMem

open Function Nat Option

inductive Moved (world after : World) : Action → Prop
  | enter (rank channel : Nat) : (world.parties rank channel).running = false →
      (after.parties rank channel).running = true →
      (after.parties rank channel).round = (world.parties rank channel).round →
      (∀ one two, ¬(one = rank ∧ two = channel) → after.parties one two = world.parties one two) →
      Moved world after (.enter rank channel)
  | still (action : Action) : (∀ rank channel, action ≠ .enter rank channel) →
      (∀ rank channel, action ≠ .leave rank channel) →
      (∀ one two, (after.parties one two).running = (world.parties one two).running ∧
        (after.parties one two).round = (world.parties one two).round) → Moved world after action
  | leave (rank channel : Nat) : (world.parties rank channel).running = true →
      (after.parties rank channel).running = false →
      (after.parties rank channel).round = (world.parties rank channel).round + 1 →
      (∀ one two, ¬(one = rank ∧ two = channel) → after.parties one two = world.parties one two) →
      Moved world after (.leave rank channel)

theorem Advanced.still {world after : World} {rank channel thread : Nat} {next : Phase}
    (advanced : Advanced world after rank channel thread next) (one two : Nat) :
    (after.parties one two).running = (world.parties one two).running ∧
      (after.parties one two).round = (world.parties one two).round := by
  by_cases here : one = rank ∧ two = channel
  · obtain ⟨rfl, rfl⟩ := here
    rw [advanced.here]
    exact ⟨rfl, rfl⟩
  · rw [advanced.other one two here]
    exact ⟨rfl, rfl⟩

open World

theorem moved_cas {group : Group} {world after : World} {rank channel thread : Nat}
    (taken : world.cas group rank channel thread = some after) :
    Moved world after (.cas rank channel thread) := by
  refine .still _ (fun _ _ => nofun) (fun _ _ => nofun) ?_
  unfold cas at taken
  dsimp only at taken
  cases phase : (world.parties rank channel).phase thread with
  | put =>
    rw [phase] at taken
    dsimp only at taken
    split at taken
    · cases taken
      have advanced : Advanced world _ rank channel thread .wait :=
        ⟨setParty_here _, fun _ _ other => setParty_other _ other⟩
      exact advanced.still
    · cases taken
      exact fun _ _ => ⟨rfl, rfl⟩
  | wait =>
    rw [phase] at taken
    dsimp only at taken
    split at taken
    · cases taken
      have advanced : Advanced world _ rank channel thread .done :=
        ⟨setParty_here _, fun _ _ other => setParty_other _ other⟩
      exact advanced.still
    · cases taken
      exact fun _ _ => ⟨rfl, rfl⟩
  | done =>
    rw [phase] at taken
    cases taken

theorem advance_moved {group : Group} {rounds : Nat → Nat → Round} {world after : World}
    {action : Action} (taken : world.advance group rounds action = some after) :
    action.rank < group.worldSize ∧ Moved world after action := by
  unfold advance at taken
  split at taken
  · next may =>
      refine ⟨of_decide_eq_true (Bool.and_eq_true_iff.mp may).1, ?_⟩
      cases action with
      | enter rank channel =>
        unfold enter at taken
        dsimp only at taken
        split at taken
        · next fits =>
            cases taken
            refine .enter rank channel (by simp_all) ?_ ?_ fun _ _ other => setParty_other _ other
            · rw [setParty_here]
            · rw [setParty_here]
        · cases taken
      | cas rank channel thread => exact moved_cas taken
      | trap rank channel thread =>
        refine .still _ (fun _ _ => nofun) (fun _ _ => nofun) ?_
        unfold trap at taken
        dsimp only at taken
        split at taken
        · cases taken
          exact fun _ _ => ⟨rfl, rfl⟩
        · cases taken
      | leave rank channel =>
        unfold leave at taken
        dsimp only at taken
        split at taken
        · next passes =>
            cases taken
            refine .leave rank channel (Bool.and_eq_true_iff.mp passes).1 ?_ ?_
              fun _ _ other => setParty_other _ other
            · rw [setParty_here]
            · rw [setParty_here]
        · cases taken
  · cases taken

namespace Collective

structure Site where
  rank : Nat
  block : Nat
  thread : Nat
  round : Nat
  turn : Nat
  step : Nat
deriving DecidableEq, Repr

def Site.index (self : Site) (program : Program) (group : Group) : Nat :=
  program.index group self.block self.thread self.turn

structure Site.Valid (site : Site) (program : Program) (group : Group) : Prop where
  rank : site.rank < group.worldSize
  block : site.block < (program.launch group).numBlocks
  thread : site.thread < (program.launch group).numThreads
  round : site.round < program.rounds
  bound : site.index program group < program.bound site.round

def Site.Does (self : Site) (program : Program) (group : Group) (op : Op) : Prop :=
  self.Valid program group ∧
    (program.body self.round self.rank (self.index program group))[self.step]? = some op

inductive Cell
  | buffer (rank element : Nat)
  | output (rank element : Nat)
deriving DecidableEq, Repr

def Target.cell (rank : Nat) : Target → Nat → Cell
  | .buffer peer => .buffer peer
  | .output => .output rank

def Site.Writes (self : Site) (program : Program) (group : Group) (cell : Cell) : Prop :=
  ∃ target index value lane, self.Does program group (.store target index value) ∧
    lane < program.operands.numelPerThread ∧ target.cell self.rank (index + lane) = cell

section Positions

variable {α : Type} {group : Group} {program : Program} {world after : World α} {site : Site}
  {rank block peer thread : Nat}

def World.round (self : World α) (rank block : Nat) : Nat := (self.signals.parties rank block).round

def World.entered (self : World α) (rank block : Nat) : Nat :=
  (self.signals.parties rank block).entered

def World.Done (self : World α) (site : Site) : Prop :=
  let state := self.threads site.rank site.block site.thread
  site.round < self.round site.rank site.block ∨
    site.round = self.round site.rank site.block ∧
      (site.turn < state.turn ∨ site.turn = state.turn ∧ site.step < state.step)

theorem blockComplete_iff : world.blockComplete group program rank block = true ↔
    ∀ thread, thread < (program.launch group).numThreads → program.bound (world.round rank block) ≤
        program.index group block thread (world.threads rank block thread).turn := by
  simp [World.blockComplete, World.complete, World.round]

theorem turn_lt {turn later bound : Nat} (before : program.index group block thread turn < bound)
    (beyond : bound ≤ program.index group block thread later) : turn < later :=
  GridStride.turn_lt_of_index_lt (before.trans_le beyond)

theorem done_of_complete (valid : site.Valid program group)
    (complete : world.blockComplete group program site.rank site.block = true)
    (here : site.round = world.round site.rank site.block) : world.Done site := by
  have beyond := blockComplete_iff.mp complete site.thread valid.thread
  rw [← here] at beyond
  exact .inr ⟨here, .inl (turn_lt valid.bound beyond)⟩

variable [AddCommMonoid α]

structure Placed (group : Group) (program : Program) (world : World α) : Prop where
  counted : Counted group (fun _ _ => program.round) world.signals
  within : ∀ rank block, world.entered rank block ≤ program.rounds
  begun : ∀ rank, world.started rank = false →
    ∀ block, world.entered rank block = 0 ∧ ∀ thread, world.threads rank block thread = fresh
  stopped : ∀ rank block, (world.signals.parties rank block).running = true →
    0 < world.round rank block → world.blockComplete group program rank block = true
  finished : ∀ rank, world.ended rank = true → world.started rank = true ∧
    ∀ block, block < (program.launch group).numBlocks → world.round rank block = program.rounds

def Program.signalsFit (program : Program) (group : Group) : Prop :=
  (program.launch group).numBlocks * group.worldSize ≤ group.words

structure Fitting (group : Group) (program : Program) : Prop where
  small : group.worldSize ≤ maxSupaP2pDomainSize
  warp : 0 < group.warpSize
  signals : program.signalsFit group
  rounds : 2 ≤ program.rounds

variable (placed : Placed group program world) (fitting : Fitting group program)
include placed fitting

theorem Placed.together
    (block : Nat) (one : rank < group.worldSize) (two : peer < group.worldSize) :
    world.round rank block ≤ world.entered peer block :=
  (placed.counted.synchronised fitting.small fitting.warp).together block rank peer one two

theorem Placed.started (one : rank < group.worldSize) (two : peer < group.worldSize)
    (past : 0 < world.round rank block) : world.started peer = true := by
  have entered := placed.together fitting block one two
  cases begins : world.started peer with
  | true => rfl
  | false =>
    have nothing := (placed.begun peer begins block).1
    omega

theorem Placed.not_ended (one : rank < group.worldSize) (two : peer < group.worldSize)
    (few : block < (program.launch group).numBlocks)
    (left : world.round rank block < program.rounds)
    (free : (world.signals.parties rank block).running = false ∨ world.round rank block = 0) :
    world.ended peer = false := by
  cases ends : world.ended peer with
  | false => rfl
  | true =>
    have last := (placed.finished peer ends).2 block few
    have ahead := placed.together fitting block two one
    have many := fitting.rounds
    unfold World.entered Party.entered at ahead
    unfold World.round at last ahead left free
    rcases free with idle | first
    · rw [idle] at ahead
      simp only [Bool.false_eq_true, if_false] at ahead
      omega
    · split at ahead <;> omega

theorem Placed.done_of_passed (valid : site.Valid program group)
    (one : rank < group.worldSize) (past : site.round < world.round rank site.block)
    (joined : site.rank = rank ∨ 0 < site.round) : world.Done site := by
  by_cases own : site.rank = rank
  · exact .inl (by rwa [own])
  · have positive := joined.resolve_left own
    have entered := placed.together fitting site.block one valid.rank
    by_cases ahead : site.round < world.round site.rank site.block
    · exact .inl ahead
    · cases running : (world.signals.parties site.rank site.block).running with
      | false =>
        unfold World.entered Party.entered at entered
        unfold World.round at past ahead entered
        rw [running] at entered
        simp only [Bool.false_eq_true, if_false] at entered
        omega
      | true =>
        have same : site.round = world.round site.rank site.block := by
          unfold World.entered Party.entered at entered
          unfold World.round at past ahead entered ⊢
          rw [running] at entered
          simp only [if_true] at entered
          omega
        refine done_of_complete valid (placed.stopped _ _ running ?_) same
        omega

theorem Placed.done_of_last (valid : site.Valid program group) (one : rank < group.worldSize)
    (last : world.round rank site.block = program.rounds) (joined : site.rank = rank ∨ 0 < site.round) :
    world.Done site :=
  placed.done_of_passed fitting valid one (by rw [last]; exact valid.round) joined

end Positions

section Placing

variable {α : Type} {group : Group} {program : Program} {world after : World α} {site : Site}
  {rank block peer thread : Nat}

theorem blockComplete_congr {one two : Nat} (same : after.round one two = world.round one two)
    (threads : after.threads one two = world.threads one two) :
    after.blockComplete group program one two = world.blockComplete group program one two := by
  unfold World.round at same
  unfold World.blockComplete World.complete
  rw [same, threads]

variable [AddCommMonoid α]

theorem Placed.congr (placed : Placed group program world) (signals : after.signals = world.signals)
    (threads : after.threads = world.threads)
    (started : ∀ rank, after.started rank = false → world.started rank = false)
    (finished : ∀ rank, after.ended rank = true → after.started rank = true ∧
      ∀ block, block < (program.launch group).numBlocks →
        world.round rank block = program.rounds) : Placed group program after where
  counted := by rw [signals]; exact placed.counted
  within := by
    intro rank block
    unfold World.entered
    rw [signals]
    exact placed.within rank block
  begun := by
    intro rank idle block
    unfold World.entered
    rw [signals, threads]
    exact placed.begun rank (started rank idle) block
  stopped := by
    intro rank block
    unfold World.round World.blockComplete World.complete
    rw [signals, threads]
    exact placed.stopped rank block
  finished := by
    intro rank ends
    unfold World.round
    rw [signals]
    exact finished rank ends

theorem enter_accepts {world after : SymmMem.World} {rounds : Nat → Nat → Round}
    (taken : world.advance group rounds (.enter rank block) = some after) :
    (rounds block (world.parties rank block).round).accepts group block = true := by
  unfold SymmMem.World.advance at taken
  dsimp only at taken
  split at taken
  · unfold SymmMem.World.enter at taken
    dsimp only at taken
    split at taken
    · next may => exact (Bool.and_eq_true_iff.mp may).2
    · cases taken
  · cases taken

variable {action : SymmMem.Action}

theorem fits_of_enter (fitting : Fitting group program) {signals after : SymmMem.World}
    (taken : signals.advance group (fun _ _ => program.round) action = some after) :
    EntersFitting group (fun _ _ => program.round) signals action := by
  cases action with
  | enter rank block =>
    have few : block < (program.launch group).numBlocks := of_decide_eq_true (enter_accepts taken)
    refine ⟨?_, nofun⟩
    have room := mul_le_mul_right group.worldSize (succ_le_of_lt few)
    have words := fitting.signals
    unfold Group.holds
    rw [mul_comm]
    exact room.trans words
  | cas rank block thread => trivial
  | trap rank block thread => trivial
  | leave rank block => trivial

theorem signal_still (other : ∀ rank block, action ≠ .leave rank block)
    (taken : world.signal group program action = some after) :
    ∃ signals, world.signals.advance group (fun _ _ => program.round) action = some signals ∧
      after = { world with signals := signals } := by
  unfold World.signal at taken
  split at taken
  · obtain ⟨signals, stepped, rfl⟩ := map_eq_some_iff.mp taken
    refine ⟨signals, stepped, ?_⟩
    cases action with
    | leave rank block => exact absurd rfl (other rank block)
    | _ => rfl
  · cases taken

theorem signal_leave (taken : world.signal group program (.leave rank block) = some after) :
    world.blockComplete group program rank block = true ∧
    ∃ signals, world.signals.advance group (fun _ _ => program.round) (.leave rank block) =
        some signals ∧
      after = { world with
        signals := signals
        threads := update world.threads rank
          (update (world.threads rank) block fun _ => fresh) } := by
  unfold World.signal at taken
  split at taken
  · next may =>
      obtain ⟨signals, stepped, rfl⟩ := map_eq_some_iff.mp taken
      exact ⟨may, signals, stepped, rfl⟩
  · cases taken

variable (placed : Placed group program world) (fitting : Fitting group program)
include placed fitting

theorem Placed.enter (taken : world.signal group program (.enter rank block) = some after) :
    Placed group program after := by
  have apart : ∀ one two, SymmMem.Action.enter rank block ≠ .leave one two := fun _ _ => nofun
  obtain ⟨signals, stepped, rfl⟩ := signal_still apart taken
  have may : world.mayTake group program (.enter rank block) = true := by
    unfold World.signal at taken
    split at taken
    · assumption
    · cases taken
  obtain ⟨⟨begun, left⟩, complete⟩ : (world.started rank = true ∧
      world.round rank block < program.rounds) ∧ (world.round rank block = 0 ∨
        world.blockComplete group program rank block = true) := by
    simpa [World.mayTake, World.round] using may
  obtain ⟨small, moved⟩ := advance_moved stepped
  cases moved with
  | still _ different => exact absurd rfl (different rank block)
  | enter _ _ stopped runs same other =>
    have rounds : ∀ one two, (signals.parties one two).round = (world.signals.parties one two).round := by
      intro one two
      by_cases here : one = rank ∧ two = block
      · rw [here.1, here.2, same]
      · rw [other one two here]
    have completes : ∀ one two, ({ world with signals := signals } : World α).blockComplete group
        program one two = world.blockComplete group program one two :=
      fun one two => blockComplete_congr (rounds one two) rfl
    constructor
    · exact placed.counted.step (fits_of_enter fitting stepped) stepped
    · intro one two
      unfold World.entered Party.entered
      by_cases here : one = rank ∧ two = block
      · obtain ⟨rfl, rfl⟩ := here
        rw [runs, same]
        exact left
      · rw [other one two here]
        exact placed.within one two
    · intro one idle two
      have different : one ≠ rank := by
        rintro rfl
        exact absurd begun (ne_true_of_eq_false idle)
      unfold World.entered
      rw [other one two fun here => different here.1]
      exact placed.begun one idle two
    · intro one two running later
      rw [completes]
      by_cases here : one = rank ∧ two = block
      · obtain ⟨rfl, rfl⟩ := here
        refine complete.resolve_left fun first => ?_
        unfold World.round at later first
        rw [rounds, first] at later
        exact absurd later (lt_irrefl 0)
      · have still : (signals.parties one two).running = true := running
        rw [other one two here] at still
        refine placed.stopped one two still ?_
        unfold World.round at later ⊢
        rwa [← rounds]
    · intro one ends
      refine ⟨(placed.finished one ends).1, fun two few => ?_⟩
      unfold World.round
      rw [rounds]
      exact (placed.finished one ends).2 two few

theorem Placed.exchange (entering : ∀ rank block, action ≠ .enter rank block)
    (leaving : ∀ rank block, action ≠ .leave rank block)
    (taken : world.signal group program action = some after) : Placed group program after := by
  obtain ⟨signals, stepped, rfl⟩ := signal_still leaving taken
  obtain ⟨_, moved⟩ := advance_moved stepped
  cases moved with
  | enter rank block => exact absurd rfl (entering rank block)
  | leave rank block => exact absurd rfl (leaving rank block)
  | still _ _ _ same =>
    have completes : ∀ one two, ({ world with signals := signals } : World α).blockComplete group
        program one two = world.blockComplete group program one two :=
      fun one two => blockComplete_congr (same one two).2 rfl
    constructor
    · exact placed.counted.step (fits_of_enter fitting stepped) stepped
    · intro one two
      unfold World.entered Party.entered
      rw [(same one two).1, (same one two).2]
      exact placed.within one two
    · intro one idle two
      unfold World.entered Party.entered
      rw [(same one two).1, (same one two).2]
      exact placed.begun one idle two
    · intro one two running later
      rw [completes]
      refine placed.stopped one two ((same one two).1.symm.trans running) ?_
      exact lt_of_lt_of_eq later (same one two).2
    · intro one ends
      refine ⟨(placed.finished one ends).1, fun two few => ?_⟩
      exact ((same one two).2).trans ((placed.finished one ends).2 two few)

theorem Placed.leave (taken : world.signal group program (.leave rank block) = some after) :
    Placed group program after := by
  obtain ⟨complete, signals, stepped, rfl⟩ := signal_leave taken
  obtain ⟨small, moved⟩ := advance_moved stepped
  cases moved with
  | still _ _ different => exact absurd rfl (different rank block)
  | leave _ _ ran stopped next other =>
    have threads : ∀ one two, ¬(one = rank ∧ two = block) → update world.threads rank
        (update (world.threads rank) block fun _ => fresh) one two = world.threads one two := by
      intro one two elsewhere
      by_cases same : one = rank
      · subst same
        rw [update_self, update_of_ne fun here => elsewhere ⟨rfl, here⟩]
      · rw [update_of_ne same]
    have entered : world.entered rank block = world.round rank block + 1 := by
      unfold World.entered Party.entered
      rw [ran]
      rfl
    have within := placed.within rank block
    constructor
    · exact placed.counted.step (fits_of_enter fitting stepped) stepped
    · intro one two
      by_cases here : one = rank ∧ two = block
      · obtain ⟨rfl, rfl⟩ := here
        unfold World.entered Party.entered
        rw [stopped, next]
        exact entered.symm.trans_le within
      · unfold World.entered
        rw [other one two here]
        exact placed.within one two
    · intro one idle two
      have different : one ≠ rank := by
        rintro rfl
        have nothing := (placed.begun one idle block).1
        omega
      have elsewhere : ¬(one = rank ∧ two = block) := fun here => different here.1
      unfold World.entered
      dsimp only
      rw [other one two elsewhere, threads one two elsewhere]
      exact placed.begun one idle two
    · intro one two running later
      by_cases here : one = rank ∧ two = block
      · obtain ⟨rfl, rfl⟩ := here
        exact absurd running (ne_true_of_eq_false stopped)
      · have still : (signals.parties one two).running = true := running
        have party := other one two here
        rw [party] at still
        have complete := placed.stopped one two still
          (lt_of_lt_of_eq later (congrArg Party.round party))
        rw [← complete]
        exact blockComplete_congr (congrArg Party.round party) (threads one two here)
    · intro one ends
      refine ⟨(placed.finished one ends).1, fun two few => ?_⟩
      have last := (placed.finished one ends).2 two few
      by_cases here : one = rank ∧ two = block
      · obtain ⟨rfl, rfl⟩ := here
        omega
      · exact (congrArg Party.round (other one two here)).trans last

end Placing

section Advancing

variable {α : Type} {group : Group} {program : Program} {world after : World α} {site : Site}
  {rank block thread : Nat}

def World.current (self : World α) (rank block thread : Nat) : Site :=
  { rank := rank
    block := block
    thread := thread
    round := self.round rank block
    turn := (self.threads rank block thread).turn
    step := (self.threads rank block thread).step }

structure Stepped (world after : World α) (rank block thread : Nat) (state : Thread α) : Prop where
  signals : after.signals = world.signals
  started : after.started = world.started
  ended : after.ended = world.ended
  here : after.threads rank block thread = state
  other : ∀ one two three, ¬(one = rank ∧ two = block ∧ three = thread) →
    after.threads one two three = world.threads one two three

theorem setThread_here (state : Thread α) :
    (world.setThread rank block thread state).threads rank block thread = state := by
  unfold World.setThread
  dsimp only
  rw [update_self, update_self, update_self]

theorem setThread_other {one two three : Nat} (state : Thread α)
    (other : ¬(one = rank ∧ two = block ∧ three = thread)) :
    (world.setThread rank block thread state).threads one two three =
      world.threads one two three := by
  unfold World.setThread
  dsimp only
  by_cases first : one = rank
  · subst first
    rw [update_self]
    by_cases second : two = block
    · subst second
      rw [update_self, update_of_ne fun third => other ⟨rfl, rfl, third⟩]
    · rw [update_of_ne second]
  · rw [update_of_ne first]

theorem stepped_setThread (state : Thread α) :
    Stepped world (world.setThread rank block thread state) rank block thread state :=
  ⟨rfl, rfl, rfl, setThread_here state, fun _ _ _ => setThread_other state⟩

section

variable {state : Thread α} (stepped : Stepped world after rank block thread state)
include stepped

theorem Stepped.done (turn : state.turn = (world.threads rank block thread).turn)
    (step : state.step = (world.threads rank block thread).step + 1) :
    after.Done site ↔ world.Done site ∨ site = world.current rank block thread := by
  unfold World.Done World.round
  rw [stepped.signals]
  by_cases here : site.rank = rank ∧ site.block = block ∧ site.thread = thread
  · obtain ⟨one, two, three, round, later, place⟩ := site
    obtain ⟨rfl, rfl, rfl⟩ : one = rank ∧ two = block ∧ three = thread := here
    dsimp only
    rw [stepped.here, turn, step]
    unfold World.current World.round
    simp only [Site.mk.injEq, true_and]
    omega
  · dsimp only
    rw [stepped.other _ _ _ here]
    constructor
    · exact .inl
    · rintro (already | same)
      · exact already
      · rw [same] at here
        exact absurd ⟨rfl, rfl, rfl⟩ here

theorem Stepped.done_turn
    (turn : state.turn = (world.threads rank block thread).turn + 1) (step : state.step = 0)
    (none : ∀ op, ¬(world.current rank block thread).Does program group op) {op : Op}
    (does : site.Does program group op) : after.Done site ↔ world.Done site := by
  unfold World.Done World.round
  rw [stepped.signals]
  by_cases here : site.rank = rank ∧ site.block = block ∧ site.thread = thread
  · obtain ⟨one, two, three, round, later, place⟩ := site
    obtain ⟨rfl, rfl, rfl⟩ : one = rank ∧ two = block ∧ three = thread := here
    dsimp only
    rw [stepped.here, turn, step]
    have beyond : round = world.round one two → later = (world.threads one two three).turn →
        place < (world.threads one two three).step := by
      rintro rfl rfl
      by_contra further
      obtain ⟨valid, found⟩ := does
      obtain ⟨small, -⟩ := List.getElem?_eq_some_iff.mp found
      have room : (world.threads one two three).step <
          (program.body (world.round one two) one (program.index group two three
            (world.threads one two three).turn)).length := (Nat.le_of_not_lt further).trans_lt small
      exact none _ ⟨⟨valid.rank, valid.block, valid.thread, valid.round, valid.bound⟩,
        List.getElem?_eq_some_iff.mpr ⟨room, rfl⟩⟩
    constructor
    · rintro (passed | ⟨same, early | ⟨_, never⟩⟩)
      · exact .inl passed
      · rcases Nat.lt_succ_iff_lt_or_eq.mp early with before | equal
        · exact .inr ⟨same, .inl before⟩
        · exact .inr ⟨same, .inr ⟨equal, beyond same equal⟩⟩
      · exact absurd never (Nat.not_lt_zero _)
    · rintro (passed | ⟨same, before | ⟨equal, _⟩⟩)
      · exact .inl passed
      · exact .inr ⟨same, .inl (Nat.lt_succ_of_lt before)⟩
      · exact .inr ⟨same, .inl (Nat.lt_succ_of_le (Nat.le_of_eq equal))⟩
  · dsimp only
    rw [stepped.other _ _ _ here]

theorem current_stepped
    {one two three : Nat} (other : ¬(one = rank ∧ two = block ∧ three = thread)) :
    after.current one two three = world.current one two three := by
  unfold World.current World.round
  rw [stepped.signals, stepped.other one two three other]

theorem current_next (turn : state.turn = (world.threads rank block thread).turn)
    (step : state.step = (world.threads rank block thread).step + 1) :
    after.current rank block thread =
      { world.current rank block thread with step := (world.current rank block thread).step + 1 } := by
  unfold World.current World.round
  rw [stepped.signals, stepped.here, turn, step]

end

variable [AddCommMonoid α]

structure Free (group : Group) (program : Program) (world : World α) (rank block thread : Nat) :
    Prop where
  started : world.started rank = true
  valid : (world.current rank block thread).Valid program group
  free : (world.signals.parties rank block).running = false ∨ world.round rank block = 0

theorem advance_cases (taken : world.advance group program rank block thread = some after) :
    Free group program world rank block thread ∧
    ((∃ op, (world.current rank block thread).Does program group op ∧
        after = { world.exec group program rank block thread op with
          fault := world.fault || !world.permits program op }) ∨
      (∀ op, ¬(world.current rank block thread).Does program group op) ∧
        after = world.setThread rank block thread
          { (fresh : Thread α) with turn := (world.threads rank block thread).turn + 1 }) := by
  unfold World.advance at taken
  dsimp only at taken
  split at taken
  · next may =>
      simp only [Bool.and_eq_true, decide_eq_true_eq, Bool.or_eq_true, Bool.not_eq_true', beq_iff_eq,
        World.complete, decide_eq_false_iff_not, not_le] at may
      obtain ⟨⟨⟨⟨⟨⟨begun, small⟩, few⟩, numbered⟩, left⟩, free⟩, before⟩ := may
      have valid : (world.current rank block thread).Valid program group := ⟨small, few, numbered, left, before⟩
      refine ⟨⟨begun, valid, free⟩, ?_⟩
      split at taken
      · next op found => exact .inl ⟨op, ⟨valid, found⟩, (some.inj taken).symm⟩
      · next ended =>
          refine .inr ⟨fun op does => ?_, (some.inj taken).symm⟩
          exact some_ne_none op (does.2.symm.trans ended)
  · cases taken

theorem stepped_exec {op : Op} {fault : Bool} :
    Stepped world { world.exec group program rank block thread op with fault := fault } rank block
      thread ((world.exec group program rank block thread op).threads rank block thread) := by
  cases op with
  | load source index register =>
    exact ⟨rfl, rfl, rfl, rfl, fun _ _ _ other => setThread_other _ other⟩
  | store target index value =>
    cases target with
    | buffer peer => exact ⟨rfl, rfl, rfl, rfl, fun _ _ _ other => setThread_other _ other⟩
    | output => exact ⟨rfl, rfl, rfl, rfl, fun _ _ _ other => setThread_other _ other⟩

variable (group program world rank block thread) in
theorem exec_position (op : Op) :
    ((world.exec group program rank block thread op).threads rank block thread).turn =
        (world.threads rank block thread).turn ∧
      ((world.exec group program rank block thread op).threads rank block thread).step =
        (world.threads rank block thread).step + 1 := by
  cases op with
  | load source index register =>
    unfold World.exec
    rw [setThread_here]
    exact ⟨rfl, rfl⟩
  | store target index value =>
    unfold World.exec
    rw [setThread_here]
    exact ⟨rfl, rfl⟩

theorem Placed.stepped (placed : Placed group program world)
    (free : Free group program world rank block thread) {state : Thread α}
    (stepped : Stepped world after rank block thread state) : Placed group program after where
  counted := by rw [stepped.signals]; exact placed.counted
  within := by
    intro one two
    unfold World.entered
    rw [stepped.signals]
    exact placed.within one two
  begun := by
    intro one idle two
    rw [stepped.started] at idle
    have different : one ≠ rank := by
      rintro rfl
      exact absurd free.started (ne_true_of_eq_false idle)
    unfold World.entered
    rw [stepped.signals]
    refine ⟨(placed.begun one idle two).1, fun three => ?_⟩
    rw [stepped.other one two three fun here => different here.1]
    exact (placed.begun one idle two).2 three
  stopped := by
    intro one two running later
    unfold World.round at later
    rw [stepped.signals] at running later
    have elsewhere : ¬(one = rank ∧ two = block) := by
      rintro ⟨rfl, rfl⟩
      rcases free.free with idle | first
      · exact absurd running (ne_true_of_eq_false idle)
      · unfold World.round at first
        omega
    have threads : after.threads one two = world.threads one two := by
      funext three
      exact stepped.other one two three fun here => elsewhere ⟨here.1, here.2.1⟩
    rw [← placed.stopped one two running later]
    refine blockComplete_congr ?_ threads
    unfold World.round
    rw [stepped.signals]
  finished := by
    intro one ends
    unfold World.round
    rw [stepped.ended] at ends
    rw [stepped.started, stepped.signals]
    exact placed.finished one ends

end Advancing

end Collective

end TorchSupa.SymmMem
