import TorchSupa.SymmMem.Ordering

/-!
The contents of the tensors under every interleaving: a kernel whose vectors are written and read
in an order that the synchronisation keeps leaves in each tensor what its program says.
-/

namespace TorchSupa.SymmMem.Collective

open Function Nat

section Streams

variable {α : Type} {group : Group} {program : Program} {world after : World α}
  {before locals : Nat → Nat → α} {rank : Nat}

open Collective.World

open Option

variable {index : Nat} {value : α}

theorem write_cases [AddCommMonoid α]
    (taken : world.act group program (.write rank index value) = some after) :
    world.running rank = false ∧ after = { world with
      buffers := update world.buffers rank (update (world.buffers rank) index value) } := by
  unfold act at taken
  dsimp only at taken
  split at taken
  · cases taken
  · exact ⟨Bool.eq_false_of_not_eq_true ‹_›, (some.inj taken).symm⟩

theorem writeLocal_cases [AddCommMonoid α]
    (taken : world.act group program (.writeLocal rank index value) = some after) :
    world.running rank = false ∧ after = { world with
      localInputs := update world.localInputs rank
        (update (world.localInputs rank) index value) } := by
  unfold act at taken
  dsimp only at taken
  split at taken
  · cases taken
  · exact ⟨Bool.eq_false_of_not_eq_true ‹_›, (some.inj taken).symm⟩

theorem start_cases (taken : world.start group rank = some after) :
    rank < group.worldSize ∧ world.started rank = false ∧ after = { world with
        started := update world.started rank true
        before := update world.before rank (world.buffers rank)
        beforeLocal := update world.beforeLocal rank (world.localInputs rank) } := by
  unfold start at taken
  split at taken
  · next may =>
      obtain ⟨small, idle⟩ := Bool.and_eq_true_iff.mp may
      exact ⟨of_decide_eq_true small, by simpa using idle, (some.inj taken).symm⟩
  · cases taken

theorem finish_cases (taken : world.finish group program rank = some after) :
    rank < group.worldSize ∧ world.running rank = true ∧
    (∀ block, block < (program.launch group).numBlocks → world.round rank block = program.rounds) ∧
      after = { world with
        ended := update world.ended rank true
        left := update world.left rank (world.buffers rank) } := by
  unfold finish at taken
  split at taken
  · next may =>
      obtain ⟨both, last⟩ := Bool.and_eq_true_iff.mp may
      obtain ⟨small, running⟩ := Bool.and_eq_true_iff.mp both
      refine ⟨of_decide_eq_true small, running, fun block few => ?_, (some.inj taken).symm⟩
      exact eq_of_beq (List.all_eq_true.mp last block (List.mem_range.mpr few))
  · cases taken

def Agrees (before locals : Nat → Nat → α) (world : World α) : Prop :=
  ∀ rank, world.started rank = true →
    before rank = world.before rank ∧ locals rank = world.beforeLocal rank

theorem Agrees.of_start (agrees : Agrees before locals after)
    (taken : world.start group rank = some after) : Agrees before locals world := by
  obtain ⟨_, idle, rfl⟩ := start_cases taken
  intro peer begun
  have different : peer ≠ rank := by
    rintro rfl
    exact absurd begun (ne_true_of_eq_false idle)
  have found := agrees peer ((update_of_ne different _ _).trans begun)
  dsimp only at found
  rwa [update_of_ne different, update_of_ne different] at found

end Streams

section Programs

variable {α : Type} [AddCommMonoid α]

def Source.contents (memory : Nat → Nat → α) (localInput : Nat → α) : Source → Nat → α
  | .buffer peer => memory peer
  | .localInput => localInput

def loadInto (memory : Nat → Nat → α) (localInput : Nat → α) (registers : Nat → Nat → α) :
    Op → Nat → Nat → α
  | .load source index register =>
    update registers register fun lane => source.contents memory localInput (index + lane)
  | .store .. => registers

def loaded (memory : Nat → Nat → α) (localInput : Nat → α) (ops : List Op) : Nat → Nat → α :=
  ops.foldl (loadInto memory localInput) fun _ _ => 0

def Site.registers (self : Site) (program : Program) (group : Group)
    (memory : Nat → Nat → Nat → α) (locals : Nat → Nat → α) : Nat → Nat → α :=
  loaded (memory self.round) (locals self.rank)
    ((program.body self.round self.rank (self.index program group)).take self.step)

def Site.Precedes (earlier site : Site) : Prop :=
  earlier.round < site.round ∧ earlier.block = site.block ∧
    (earlier.rank = site.rank ∨ 0 < earlier.round)

def Site.Follows (later site : Site) : Prop :=
  later.rank = site.rank ∧ later.block = site.block ∧ later.thread = site.thread ∧
    later.round = site.round ∧
    ¬(later.turn < site.turn ∨ later.turn = site.turn ∧ later.step < site.step)

structure Sound (group : Group) (program : Program) (before locals : Nat → Nat → α)
    (memory : Nat → Nat → Nat → α) (final : Cell → α) : Prop where
  fits : ∀ (site : Site) (op : Op), site.Does program group op → op.fits program.operands = true
  peers : ∀ (site : Site) (op : Op) (peer : Nat), site.Does program group op → op.peer = some peer →
    peer < group.worldSize ∧ (site.round = 0 → peer = site.rank)
  values : ∀ (site : Site) (target : Target) (index : Nat) (value : Value) (lane : Nat),
    site.Does program group (.store target index value) →
    lane < program.operands.numelPerThread →
    value.of group.worldSize (site.registers program group memory locals) lane =
      final (target.cell site.rank (index + lane))
  loads : ∀ (site : Site) (peer index register lane : Nat),
    site.Does program group (.load (.buffer peer) index register) →
    lane < program.operands.numelPerThread →
    (∃ earlier : Site, earlier.Writes program group (.buffer peer (index + lane)) ∧
      earlier.Precedes site ∧ memory site.round peer (index + lane) = final (.buffer peer (index + lane))) ∨
    memory site.round peer (index + lane) = before peer (index + lane) ∧
      ∀ later : Site, later.Writes program group (.buffer peer (index + lane)) → later.Follows site

end Programs

section Contents

variable {α : Type} [AddCommMonoid α] {group : Group} {program : Program} {world after : World α}
  {before locals : Nat → Nat → α} {memory : Nat → Nat → Nat → α} {final : Cell → α} {site : Site}
  {rank block thread : Nat}

structure Valued (group : Group) (program : Program) (before locals : Nat → Nat → α)
    (memory : Nat → Nat → Nat → α) (final : Cell → α) (world : World α) : Prop where
  noFault : world.fault = false
  registers : ∀ rank block thread, (world.current rank block thread).Valid program group →
    ∀ register lane, lane < program.operands.numelPerThread →
      (world.threads rank block thread).registers register lane =
        (world.current rank block thread).registers program group memory locals register lane
  written : ∀ rank element, world.running rank = true → ∀ site : Site,
    site.Writes program group (.buffer rank element) → world.Done site →
      world.buffers rank element = final (.buffer rank element)
  unwritten : ∀ rank element, rank < group.worldSize → world.running rank = true →
    (∀ site : Site, site.Writes program group (.buffer rank element) → ¬world.Done site) →
      world.buffers rank element = before rank element
  locals : ∀ rank, world.running rank = true → world.localInputs rank = locals rank
  outputs : ∀ rank element (site : Site), site.Writes program group (.output rank element) →
    world.Done site → world.outputs rank element = final (.output rank element)
  left : ∀ rank, world.ended rank = true → ∀ element (site : Site),
    site.Writes program group (.buffer rank element) →
      world.left rank element = final (.buffer rank element)

theorem Valued.still (valued : Valued group program before locals memory final world)
    (fault : after.fault = world.fault) (buffers : after.buffers = world.buffers)
    (localInputs : after.localInputs = world.localInputs) (outputs : after.outputs = world.outputs)
    (left : after.left = world.left) (started : after.started = world.started)
    (ended : after.ended = world.ended)
    (registers : ∀ rank block thread, (after.current rank block thread).Valid program group →
      ∀ register lane, lane < program.operands.numelPerThread →
        (after.threads rank block thread).registers register lane =
          (after.current rank block thread).registers program group memory locals register lane)
    (same : ∀ site cell, Site.Writes site program group cell →
      (after.Done site ↔ world.Done site)) :
    Valued group program before locals memory final after := by
  have running : after.running = world.running := by
    unfold World.running
    rw [started, ended]
  constructor
  · rw [fault]
    exact valued.noFault
  · exact registers
  · intro rank element may site writes did
    rw [running] at may
    rw [buffers]
    exact valued.written rank element may site writes ((same site _ writes).mp did)
  · intro rank element small may nothing
    rw [running] at may
    rw [buffers]
    exact valued.unwritten rank element small may fun site writes did =>
      nothing site writes ((same site _ writes).mpr did)
  · rw [running, localInputs]
    exact valued.locals
  · intro rank element site writes did
    rw [outputs]
    exact valued.outputs rank element site writes ((same site _ writes).mp did)
  · rw [ended, left]
    exact valued.left

theorem registers_begin (begins : site.step = 0) :
    site.registers program group memory locals = fun _ _ => 0 := by
  unfold Site.registers
  rw [begins]
  rfl

theorem Valued.exchange (valued : Valued group program before locals memory final world)
    {action : SymmMem.Action} (leaving : ∀ rank block, action ≠ .leave rank block)
    (taken : world.signal group program action = some after) :
    Valued group program before locals memory final after := by
  obtain ⟨signals, stepped, rfl⟩ := signal_still leaving taken
  obtain ⟨_, moved⟩ := advance_moved stepped
  have rounds : ∀ one two, (signals.parties one two).round = (world.signals.parties one two).round := by
    intro one two
    cases moved with
    | leave rank block => exact absurd rfl (leaving rank block)
    | still _ _ _ same => exact (same one two).2
    | enter rank block _ _ same other =>
      by_cases here : one = rank ∧ two = block
      · rw [here.1, here.2, same]
      · rw [other one two here]
  have positions : ({ world with signals := signals } : World α).round = world.round := by
    funext one two
    exact rounds one two
  have current : ({ world with signals := signals } : World α).current = world.current := by
    unfold World.current
    rw [positions]
  refine valued.still rfl rfl rfl rfl rfl rfl rfl ?_ fun site cell _ => ?_
  · rw [current]
    exact valued.registers
  · unfold World.Done
    rw [positions]

theorem done_leave (complete : world.blockComplete group program rank block = true)
    (next : after.round rank block = world.round rank block + 1)
    (other : ∀ one two, ¬(one = rank ∧ two = block) →
      after.round one two = world.round one two ∧ after.threads one two = world.threads one two)
    (reset : ∀ thread, after.threads rank block thread = fresh) {op : Op}
    (does : site.Does program group op) : after.Done site ↔ world.Done site := by
  unfold World.Done
  by_cases here : site.rank = rank ∧ site.block = block
  · have done : site.round = world.round site.rank site.block → world.Done site :=
      done_of_complete does.1 (by rw [here.1, here.2]; exact complete)
    unfold World.Done at done
    rw [here.1, here.2] at done ⊢
    rw [next, reset]
    constructor
    · rintro (passed | ⟨_, early | ⟨_, early⟩⟩)
      · rcases Nat.lt_succ_iff_lt_or_eq.mp passed with before | same
        · exact .inl before
        · exact done same
      · exact absurd early (Nat.not_lt_zero _)
      · exact absurd early (Nat.not_lt_zero _)
    · rintro (passed | ⟨same, _⟩)
      · exact .inl (Nat.lt_succ_of_lt passed)
      · exact .inl (Nat.lt_succ_of_le (Nat.le_of_eq same))
  · obtain ⟨round, threads⟩ := other _ _ here
    rw [round, threads]

theorem Valued.leave (valued : Valued group program before locals memory final world)
    (taken : world.signal group program (.leave rank block) = some after) :
    Valued group program before locals memory final after := by
  obtain ⟨complete, signals, stepped, rfl⟩ := signal_leave taken
  obtain ⟨_, moved⟩ := advance_moved stepped
  cases moved with
  | still _ _ different => exact absurd rfl (different rank block)
  | leave _ _ _ _ next other =>
    have reset : ∀ thread, update world.threads rank
        (update (world.threads rank) block fun _ => fresh) rank block thread =
          (fresh : Thread α) := by
      intro thread
      rw [update_self, update_self]
    have threads : ∀ one two, ¬(one = rank ∧ two = block) → update world.threads rank
        (update (world.threads rank) block fun _ => fresh) one two = world.threads one two := by
      intro one two elsewhere
      by_cases same : one = rank
      · subst same
        rw [update_self, update_of_ne fun here => elsewhere ⟨rfl, here⟩]
      · rw [update_of_ne same]
    refine valued.still rfl rfl rfl rfl rfl rfl rfl ?_ fun site cell writes => ?_
    · intro one two three valid register lane small
      by_cases here : one = rank ∧ two = block
      · obtain ⟨rfl, rfl⟩ := here
        rw [registers_begin (congrArg Thread.step (reset three))]
        exact congrArg (fun state => state.registers register lane) (reset three)
      · have round : World.round { world with
            signals := signals
            threads := update world.threads rank
              (update (world.threads rank) block fun _ => fresh) } one two =
            world.round one two := congrArg Party.round (other one two here)
        unfold World.current at valid ⊢
        dsimp only at valid ⊢
        rw [round, threads one two here] at valid ⊢
        exact valued.registers one two three valid register lane small
    · obtain ⟨target, index, value, lane, does, -, -⟩ := writes
      exact done_leave complete next (fun one two here =>
        ⟨congrArg Party.round (other one two here), threads one two here⟩) reset does

theorem Valued.outside (valued : Valued group program before locals memory final world)
    (idle : world.running rank = false) {buffers localInputs : Nat → Nat → α}
    (one : ∀ peer, peer ≠ rank → buffers peer = world.buffers peer)
    (two : ∀ peer, peer ≠ rank → localInputs peer = world.localInputs peer) :
    Valued group program before locals memory final
      { world with buffers := buffers, localInputs := localInputs } := by
  have different : ∀ peer, world.running peer = true → peer ≠ rank := by
    rintro peer may rfl
    exact absurd may (ne_true_of_eq_false idle)
  constructor
  · exact valued.noFault
  · exact valued.registers
  · intro peer element may site writes did
    dsimp only
    rw [one peer (different peer may)]
    exact valued.written peer element may site writes did
  · intro peer element small may nothing
    dsimp only
    rw [one peer (different peer may)]
    exact valued.unwritten peer element small may nothing
  · intro peer may
    dsimp only
    rw [two peer (different peer may)]
    exact valued.locals peer may
  · exact valued.outputs
  · exact valued.left

theorem Sound.joined (sound : Sound group program before locals memory final) {element : Nat}
    (writes : site.Writes program group (.buffer rank element)) :
    site.Valid program group ∧ (site.rank = rank ∨ 0 < site.round) := by
  obtain ⟨target, index, value, lane, does, -, same⟩ := writes
  cases target with
  | output => cases same
  | buffer peer =>
    obtain ⟨rfl, -⟩ := Cell.buffer.inj same
    refine ⟨does.1, ?_⟩
    by_cases first : site.round = 0
    · exact .inl ((sound.peers site _ peer does rfl).2 first).symm
    · exact .inr (pos_of_ne_zero first)

theorem Placed.not_done (placed : Placed group program world) (fitting : Fitting group program)
    (sound : Sound group program before locals memory final) (small : rank < group.worldSize)
    (idle : world.started rank = false) {element : Nat}
    (writes : site.Writes program group (.buffer rank element)) : ¬world.Done site := by
  obtain ⟨valid, rfl | later⟩ := sound.joined writes
  · obtain ⟨entered, threads⟩ := placed.begun site.rank idle site.block
    have round : world.round site.rank site.block = 0 := by
      unfold World.entered Party.entered at entered
      unfold World.round
      omega
    unfold World.Done
    rw [round, threads]
    rintro (before | ⟨_, before | ⟨_, before⟩⟩)
    · exact not_lt_zero _ before
    · exact not_lt_zero _ before
    · exact not_lt_zero _ before
  · intro did
    have past : 0 < world.round site.rank site.block := by
      rcases did with passed | ⟨here, _⟩
      · exact zero_lt_of_lt passed
      · exact lt_of_lt_of_eq later here
    exact absurd (placed.started fitting valid.rank small past) (ne_true_of_eq_false idle)

variable (valued : Valued group program before locals memory final world)
include valued

theorem Valued.start (placed : Placed group program world) (fitting : Fitting group program)
    (sound : Sound group program before locals memory final) (agrees : Agrees before locals after)
    (taken : world.start group rank = some after) :
    Valued group program before locals memory final after := by
  obtain ⟨small, idle, rfl⟩ := start_cases taken
  have found := agrees rank (update_self _ _ _)
  dsimp only at found
  rw [update_self, update_self] at found
  have ran : ∀ peer, peer ≠ rank → World.running { world with
      started := update world.started rank true
      before := update world.before rank (world.buffers rank)
      beforeLocal := update world.beforeLocal rank (world.localInputs rank) } peer =
        world.running peer := by
    intro peer different
    unfold World.running
    dsimp only
    rw [update_of_ne different]
  constructor
  · exact valued.noFault
  · exact valued.registers
  · intro peer element may site writes did
    by_cases here : peer = rank
    · subst here
      exact absurd did (placed.not_done fitting sound small idle writes)
    · rw [ran peer here] at may
      exact valued.written peer element may site writes did
  · intro peer element few may nothing
    by_cases here : peer = rank
    · subst here
      rw [found.1]
    · rw [ran peer here] at may
      exact valued.unwritten peer element few may nothing
  · intro peer may
    by_cases here : peer = rank
    · subst here
      exact found.2.symm
    · rw [ran peer here] at may
      exact valued.locals peer may
  · exact valued.outputs
  · exact valued.left

theorem Valued.finish (placed : Placed group program world) (fitting : Fitting group program)
    (sound : Sound group program before locals memory final)
    (taken : world.finish group program rank = some after) :
    Valued group program before locals memory final after := by
  obtain ⟨small, running, last, rfl⟩ := finish_cases taken
  have ran : ∀ peer, World.running { world with
      ended := update world.ended rank true
      left := update world.left rank (world.buffers rank) } peer = true →
        world.running peer = true := by
    intro peer may
    unfold World.running at may ⊢
    dsimp only at may
    by_cases here : peer = rank
    · rw [here, update_self] at may
      simp at may
    · rwa [update_of_ne here] at may
  constructor
  · exact valued.noFault
  · exact valued.registers
  · exact fun peer element may => valued.written peer element (ran peer may)
  · exact fun peer element few may => valued.unwritten peer element few (ran peer may)
  · exact fun peer may => valued.locals peer (ran peer may)
  · exact valued.outputs
  · intro peer ends element site writes
    dsimp only at ends ⊢
    by_cases here : peer = rank
    · subst here
      rw [update_self]
      refine valued.written peer element running site writes ?_
      obtain ⟨valid, joined⟩ := sound.joined writes
      exact placed.done_of_last fitting valid small (last _ valid.block) joined
    · rw [update_of_ne here] at ends ⊢
      exact valued.left peer ends element site writes

end Contents

def Cell.element : Cell → Nat
  | .buffer _ element => element
  | .output _ element => element

def Target.Covers (rank index numelPerThread : Nat) : Target → Cell → Prop
  | .buffer peer, .buffer owner element =>
    owner = peer ∧ index ≤ element ∧ element < index + numelPerThread
  | .output, .output owner element =>
    owner = rank ∧ index ≤ element ∧ element < index + numelPerThread
  | _, _ => False

theorem Target.Covers.bounds {rank index numelPerThread : Nat} {target : Target} {cell : Cell}
    (covers : target.Covers rank index numelPerThread cell) :
    index ≤ cell.element ∧ cell.element < index + numelPerThread := by
  cases target <;> cases cell
  · exact covers.2
  · exact covers.elim
  · exact covers.elim
  · exact covers.2

def World.at {α : Type} (self : World α) : Cell → α
  | .buffer rank element => self.buffers rank element
  | .output rank element => self.outputs rank element

section Vectors

variable {α : Type} [AddCommMonoid α] {group : Group} {program : Program} {world after : World α}
  {before locals : Nat → Nat → α} {memory : Nat → Nat → Nat → α} {final : Cell → α} {site : Site}
  {rank block thread : Nat}

variable {op : Op} {cell : Cell}

theorem registers_next (does : site.Does program group op) :
    ({ site with step := site.step + 1 } : Site).registers program group memory locals =
      loadInto (memory site.round) (locals site.rank) (site.registers program group memory locals) op := by
  obtain ⟨_, found⟩ := does
  change List.foldl _ _ ((program.body site.round site.rank (site.index program group)).take
    (site.step + 1)) = _
  rw [List.take_add_one, found, List.foldl_append]
  rfl

theorem Placed.permits (placed : Placed group program world) (fitting : Fitting group program)
    (sound : Sound group program before locals memory final)
    (free : Free group program world rank block thread)
    (does : (world.current rank block thread).Does program group op) :
    world.permits program op = true := by
  unfold World.permits
  rw [sound.fits _ op does, Bool.true_and]
  cases touched : op.peer with
  | none => rfl
  | some peer =>
    obtain ⟨small, own⟩ := sound.peers _ op peer does touched
    have open_ := placed.not_ended fitting free.valid.rank small free.valid.block free.valid.round
      free.free
    unfold World.running
    dsimp only
    rw [open_]
    by_cases first : world.round rank block = 0
    · have same : peer = rank := own first
      rw [same, free.started]
      rfl
    · rw [placed.started fitting free.valid.rank small (pos_of_ne_zero first)]
      rfl

theorem Valued.found (valued : Valued group program before locals memory final world)
    (placed : Placed group program world) (fitting : Fitting group program)
    (sound : Sound group program before locals memory final)
    (free : Free group program world rank block thread) {peer index register lane : Nat}
    (does : (world.current rank block thread).Does program group (.load (.buffer peer) index register))
    (small : lane < program.operands.numelPerThread) :
    world.buffers peer (index + lane) = memory (world.round rank block) peer (index + lane) := by
  have running : world.running peer = true := by
    have permitted := placed.permits fitting sound free does
    exact (Bool.and_eq_true_iff.mp permitted).2
  rcases sound.loads _ peer index register lane does small with
    ⟨earlier, writes, ⟨sooner, here, joined⟩, same⟩ | ⟨same, later⟩
  · refine Eq.trans ?_ same.symm
    refine valued.written peer _ running earlier writes ?_
    refine placed.done_of_passed fitting (sound.joined writes).1 free.valid.rank ?_ joined
    rw [here]
    exact sooner
  · refine Eq.trans ?_ same.symm
    refine valued.unwritten peer _ (sound.peers _ _ peer does rfl).1 running fun site writes did => ?_
    obtain ⟨one, two, three, four, behind⟩ := later site writes
    unfold World.Done at did
    rw [one, two, three, four] at did
    rcases did with passed | ⟨_, sooner⟩
    · exact lt_irrefl _ passed
    · exact behind sooner

theorem Valued.turn (valued : Valued group program before locals memory final world)
    (none : ∀ op, ¬(world.current rank block thread).Does program group op) {turn : Nat}
    (next : turn = (world.threads rank block thread).turn + 1) :
    Valued group program before locals memory final
      (world.setThread rank block thread { (fresh : Thread α) with turn := turn }) := by
  have stepped : Stepped world (world.setThread rank block thread { (fresh : Thread α) with
      turn := turn }) rank block thread _ := stepped_setThread _
  refine valued.still rfl rfl rfl rfl rfl rfl rfl ?_ fun site cell writes => ?_
  · intro one two three valid register lane small
    by_cases here : one = rank ∧ two = block ∧ three = thread
    · obtain ⟨rfl, rfl, rfl⟩ := here
      have begins : ((world.setThread one two three { (fresh : Thread α) with turn := turn }).current
          one two three).step = 0 := congrArg Thread.step (setThread_here _)
      rw [registers_begin begins, setThread_here]
      rfl
    · rw [current_stepped stepped here] at valid ⊢
      rw [stepped.other one two three here]
      exact valued.registers one two three valid register lane small
  · obtain ⟨target, index, value, lane, does, -, -⟩ := writes
    exact stepped.done_turn next rfl none does

theorem Site.Does.unique {other : Op} (does : site.Does program group op)
    (also : site.Does program group other) : op = other :=
  Option.mem_unique does.2 also.2

theorem value_congr {registers others : Nat → Nat → α} {lane : Nat}
    (same : ∀ register, registers register lane = others register lane) (value : Value) :
    value.of group.worldSize registers lane = value.of group.worldSize others lane := by
  cases value with
  | register number => exact same number
  | reduced =>
    exact congrArg (accumulate group.worldSize) (funext same)

variable {target : Target} {index : Nat} {value : Value}

theorem Site.Does.writes_iff
    (does : site.Does program group (.store target index value)) (cell : Cell) :
    site.Writes program group cell ↔
      target.Covers site.rank index program.operands.numelPerThread cell := by
  constructor
  · rintro ⟨_, _, _, lane, also, small, rfl⟩
    obtain ⟨rfl, rfl, rfl⟩ := Op.store.inj (does.unique also)
    cases target with
    | buffer peer => exact ⟨rfl, Nat.le_add_right _ _, Nat.add_lt_add_left small _⟩
    | output => exact ⟨rfl, Nat.le_add_right _ _, Nat.add_lt_add_left small _⟩
  · intro covers
    refine ⟨target, index, value, cell.element - index, does, ?_, ?_⟩
    · have bounds := covers.bounds
      omega
    · have low := covers.bounds.1
      cases target with
      | buffer peer =>
        cases cell with
        | buffer owner element =>
          obtain ⟨rfl, -⟩ := covers
          exact congrArg (Cell.buffer owner) (Nat.add_sub_cancel' low)
        | output owner element => exact covers.elim
      | output =>
        cases cell with
        | buffer owner element => exact covers.elim
        | output owner element =>
          obtain ⟨rfl, -⟩ := covers
          exact congrArg (Cell.output site.rank) (Nat.add_sub_cancel' low)

theorem exec_covered (covers : target.Covers rank index program.operands.numelPerThread cell) :
    (world.exec group program rank block thread (.store target index value)).at cell =
      value.of group.worldSize (world.threads rank block thread).registers (cell.element - index) := by
  unfold World.exec World.setThread World.store
  cases target with
  | buffer peer =>
    cases cell with
    | buffer owner element =>
      obtain ⟨rfl, bounds⟩ := covers
      simp [World.at, storeVector, Cell.element, bounds]
    | output owner element => exact covers.elim
  | output =>
    cases cell with
    | buffer owner element => exact covers.elim
    | output owner element =>
      obtain ⟨rfl, bounds⟩ := covers
      simp [World.at, storeVector, Cell.element, bounds]

theorem exec_uncovered
    (uncovered : ¬target.Covers rank index program.operands.numelPerThread cell) :
    (world.exec group program rank block thread (.store target index value)).at cell =
      world.at cell := by
  unfold World.exec World.setThread World.store
  cases target with
  | buffer peer =>
    cases cell with
    | buffer owner element =>
      by_cases same : owner = peer
      · subst same
        have elsewhere : ¬(index ≤ element ∧
            element < index + program.operands.numelPerThread) := fun bounds => uncovered ⟨rfl, bounds⟩
        simp only [World.at, update_self, storeVector, if_neg elsewhere]
      · simp only [World.at, update_of_ne same]
    | output owner element => rfl
  | output =>
    cases cell with
    | buffer owner element => rfl
    | output owner element =>
      by_cases same : owner = rank
      · subst same
        have elsewhere : ¬(index ≤ element ∧
            element < index + program.operands.numelPerThread) := fun bounds => uncovered ⟨rfl, bounds⟩
        simp only [World.at, update_self, storeVector, if_neg elsewhere]
      · simp only [World.at, update_of_ne same]

theorem Valued.operand (valued : Valued group program before locals memory final world)
    (sound : Sound group program before locals memory final)
    (free : Free group program world rank block thread)
    (does : (world.current rank block thread).Does program group (.store target index value))
    (covers : target.Covers rank index program.operands.numelPerThread cell) :
    value.of group.worldSize (world.threads rank block thread).registers (cell.element - index) =
      final cell := by
  obtain ⟨_, _, _, lane, also, small, here⟩ := (does.writes_iff cell).mpr covers
  obtain ⟨rfl, rfl, rfl⟩ := Op.store.inj (does.unique also)
  have place : cell.element - index = lane := by
    have same := congrArg Cell.element here
    cases target with
    | buffer peer => exact Nat.sub_eq_of_eq_add' same.symm
    | output => exact Nat.sub_eq_of_eq_add' same.symm
  rw [place, ← here, ← sound.values _ _ _ _ lane does small]
  exact value_congr (fun register => valued.registers rank block thread free.valid register lane small) _

theorem exec_registers (contents : ∀ source index register lane,
      op = .load source index register → lane < program.operands.numelPerThread →
        world.contents rank source (index + lane) =
          source.contents (memory (world.round rank block)) (locals rank) (index + lane))
    (does : (world.current rank block thread).Does program group op)
    (same : ∀ register lane, lane < program.operands.numelPerThread →
      (world.threads rank block thread).registers register lane =
        (world.current rank block thread).registers program group memory locals register lane)
    (register lane : Nat) (small : lane < program.operands.numelPerThread) :
    ((world.exec group program rank block thread op).threads rank block thread).registers register
        lane =
      ({ world.current rank block thread with
        step := (world.current rank block thread).step + 1 } : Site).registers program group memory
          locals register lane := by
  rw [registers_next does]
  unfold World.exec
  cases op with
  | store target index value =>
    rw [setThread_here]
    exact same register lane small
  | load source index number =>
    dsimp only
    rw [setThread_here]
    unfold loadInto
    dsimp only
    by_cases here : register = number
    · subst here
      rw [update_self, update_self]
      exact contents source index register lane rfl small
    · rw [update_of_ne here, update_of_ne here]
      exact same register lane small

section

variable (valued : Valued group program before locals memory final world)
  (placed : Placed group program world) (fitting : Fitting group program)
  (sound : Sound group program before locals memory final)
include valued placed fitting sound

section

variable (free : Free group program world rank block thread)
include free

theorem Valued.registers_after {op : Op}
    (does : (world.current rank block thread).Does program group op) {state : Thread α}
    (stepped : Stepped world after rank block thread state)
    (here : state = (world.exec group program rank block thread op).threads rank block thread)
    (one two three : Nat) (valid : (after.current one two three).Valid program group)
    (register lane : Nat) (small : lane < program.operands.numelPerThread) :
    (after.threads one two three).registers register lane =
      (after.current one two three).registers program group memory locals register lane := by
  obtain ⟨turn, step⟩ := exec_position group program world rank block thread op
  rw [← here] at turn step
  by_cases same : one = rank ∧ two = block ∧ three = thread
  · obtain ⟨rfl, rfl, rfl⟩ := same
    rw [current_next stepped turn step, stepped.here, here]
    refine exec_registers ?_ does (valued.registers one two three free.valid) register lane small
    rintro source index number place rfl few
    cases source with
    | buffer peer => exact valued.found placed fitting sound free does few
    | localInput =>
      have last : world.ended one = false := placed.not_ended fitting free.valid.rank
        free.valid.rank free.valid.block free.valid.round free.free
      refine congrFun (valued.locals one ?_) _
      unfold World.running
      rw [free.started, last]
      rfl
  · rw [current_stepped stepped same] at valid ⊢
    rw [stepped.other one two three same]
    exact valued.registers one two three valid register lane small

theorem Valued.load {source : Source} {index register : Nat}
    (does : (world.current rank block thread).Does program group (.load source index register)) :
    Valued group program before locals memory final
      { world.exec group program rank block thread (.load source index register) with
        fault := world.fault || !world.permits program (.load source index register) } := by
  have stepped : Stepped world { world.exec group program rank block thread
      (.load source index register) with
        fault := world.fault || !world.permits program (.load source index register) } rank block
          thread _ := stepped_exec
  obtain ⟨turn, step⟩ := exec_position group program world rank block thread (.load source index register)
  refine valued.still ?_ rfl rfl rfl rfl rfl rfl
    (valued.registers_after placed fitting sound free does stepped rfl) fun site cell writes => ?_
  · rw [placed.permits fitting sound free does]
    exact Bool.or_false _
  · rw [stepped.done turn step]
    constructor
    · rintro (did | rfl)
      · exact did
      · obtain ⟨target, place, value, lane, also, -, -⟩ := writes
        exact nomatch does.unique also
    · exact .inl

theorem Valued.store
    (does : (world.current rank block thread).Does program group (.store target index value)) :
    Valued group program before locals memory final
      { world.exec group program rank block thread (.store target index value) with
        fault := world.fault || !world.permits program (.store target index value) } := by
  have stepped : Stepped world { world.exec group program rank block thread
      (.store target index value) with
        fault := world.fault || !world.permits program (.store target index value) } rank block
          thread _ := stepped_exec
  obtain ⟨turn, step⟩ := exec_position group program world rank block thread (.store target index value)
  have written : ∀ cell (site : Site), site.Writes program group cell →
      (world.Done site → world.at cell = final cell) →
      (world.Done site ∨ site = world.current rank block thread) →
      (world.exec group program rank block thread (.store target index value)).at cell = final cell := by
    intro cell site writes earlier did
    by_cases covers : target.Covers rank index program.operands.numelPerThread cell
    · rw [exec_covered covers]
      exact valued.operand sound free does covers
    · rw [exec_uncovered covers]
      rcases did with did | rfl
      · exact earlier did
      · exact absurd ((does.writes_iff cell).mp writes) covers
  have running : ∀ peer, World.running { world.exec group program rank block thread
      (.store target index value) with
        fault := world.fault || !world.permits program (.store target index value) } peer =
      world.running peer := by
    intro peer
    unfold World.running
    rw [stepped.started, stepped.ended]
  constructor
  · rw [placed.permits fitting sound free does, valued.noFault]
    rfl
  · exact valued.registers_after placed fitting sound free does stepped rfl
  · intro peer element may site writes did
    rw [running] at may
    exact written (.buffer peer element) site writes
      (valued.written peer element may site writes) ((stepped.done turn step).mp did)
  · intro peer element small may nothing
    rw [running] at may
    have untouched : ¬target.Covers rank index program.operands.numelPerThread (.buffer peer element) :=
      fun covers => nothing _ ((does.writes_iff _).mpr covers) ((stepped.done turn step).mpr (.inr rfl))
    refine (exec_uncovered untouched).trans (valued.unwritten peer element small may ?_)
    exact fun site writes did => nothing site writes ((stepped.done turn step).mpr (.inl did))
  · intro peer may
    rw [running] at may
    cases target with
    | buffer owner => exact valued.locals peer may
    | output => exact valued.locals peer may
  · intro owner element site writes did
    exact written (.output owner element) site writes
      (valued.outputs owner element site writes) ((stepped.done turn step).mp did)
  · intro peer ends
    cases target with
    | buffer owner => exact valued.left peer ends
    | output => exact valued.left peer ends

end

theorem Valued.advance (taken : world.advance group program rank block thread = some after) :
    Valued group program before locals memory final after := by
  obtain ⟨free, ⟨op, does, rfl⟩ | ⟨none, rfl⟩⟩ := advance_cases taken
  · cases op with
    | load source index register => exact valued.load placed fitting sound free does
    | store target index value => exact valued.store placed fitting sound free does
  · exact valued.turn none rfl

end

theorem Placed.advance (placed : Placed group program world)
    (taken : world.advance group program rank block thread = some after) :
    Placed group program after := by
  obtain ⟨free, ⟨op, does, rfl⟩ | ⟨none, rfl⟩⟩ := advance_cases taken
  · exact placed.stepped free stepped_exec
  · exact placed.stepped free (stepped_setThread _)

end Vectors

section Runs

variable {α : Type} [AddCommMonoid α] {group : Group} {program : Program} {world after : World α}

section

variable (placed : Placed group program world)
include placed

theorem Placed.signal (fitting : Fitting group program)
    {action : SymmMem.Action} (taken : world.signal group program action = some after) :
    Placed group program after := by
  cases action with
  | enter rank block => exact placed.enter fitting taken
  | cas rank block thread =>
    refine placed.exchange fitting (fun _ _ => ?_) (fun _ _ => ?_) taken
    · nofun
    · nofun
  | trap rank block thread =>
    refine placed.exchange fitting (fun _ _ => ?_) (fun _ _ => ?_) taken
    · nofun
    · nofun
  | leave rank block => exact placed.leave fitting taken

theorem Placed.start {rank : Nat}
    (taken : world.start group rank = some after) : Placed group program after := by
  obtain ⟨small, idle, rfl⟩ := start_cases taken
  refine placed.congr rfl rfl (fun peer waits => ?_) fun peer ends => ?_
  · by_cases here : peer = rank
    · rw [here]
      exact idle
    · exact (update_of_ne here _ _).symm.trans waits
  · obtain ⟨begun, last⟩ := placed.finished peer ends
    refine ⟨?_, last⟩
    by_cases here : peer = rank
    · rw [here]
      exact update_self _ _ _
    · exact (update_of_ne here _ _).trans begun

theorem Placed.finish {rank : Nat}
    (taken : world.finish group program rank = some after) : Placed group program after := by
  obtain ⟨small, running, last, rfl⟩ := finish_cases taken
  refine placed.congr rfl rfl (fun _ waits => waits) fun peer ends => ?_
  by_cases here : peer = rank
  · rw [here]
    exact ⟨(Bool.and_eq_true_iff.mp running).1, last⟩
  · exact placed.finished peer ((update_of_ne here _ _).symm.trans ends)

end

variable {action : Action α}

theorem Placed.act (placed : Placed group program world)
    (fitting : Fitting group program) (taken : world.act group program action = some after) :
    Placed group program after := by
  cases action with
  | write rank index value =>
    obtain ⟨_, rfl⟩ := write_cases taken
    exact placed.congr rfl rfl (fun _ waits => waits) placed.finished
  | writeLocal rank index value =>
    obtain ⟨_, rfl⟩ := writeLocal_cases taken
    exact placed.congr rfl rfl (fun _ waits => waits) placed.finished
  | start rank => exact placed.start taken
  | signal action => exact placed.signal fitting taken
  | advance rank block thread => exact placed.advance taken
  | finish rank => exact placed.finish taken

variable {before locals : Nat → Nat → α} {memory : Nat → Nat → Nat → α} {final : Cell → α}

theorem Agrees.of_act (agrees : Agrees before locals after)
    (taken : world.act group program action = some after) : Agrees before locals world := by
  cases action with
  | start rank => exact agrees.of_start taken
  | write rank index value =>
    obtain ⟨_, rfl⟩ := write_cases taken
    exact agrees
  | writeLocal rank index value =>
    obtain ⟨_, rfl⟩ := writeLocal_cases taken
    exact agrees
  | signal action =>
    cases action with
    | leave rank block =>
      obtain ⟨_, _, _, rfl⟩ := signal_leave taken
      exact agrees
    | _ =>
      obtain ⟨_, _, rfl⟩ := signal_still (fun _ _ => by nofun) taken
      exact agrees
  | advance rank block thread =>
    obtain ⟨free, ⟨op, does, rfl⟩ | ⟨none, rfl⟩⟩ := advance_cases taken
    · cases op with
      | load source index register => exact agrees
      | store target index value =>
        cases target with
        | buffer peer => exact agrees
        | output => exact agrees
    · exact agrees
  | finish rank =>
    obtain ⟨_, _, _, rfl⟩ := finish_cases taken
    exact agrees

theorem Valued.act (valued : Valued group program before locals memory final world)
    (placed : Placed group program world) (fitting : Fitting group program)
    (sound : Sound group program before locals memory final) (agrees : Agrees before locals after)
    (taken : world.act group program action = some after) :
    Valued group program before locals memory final after := by
  cases action with
  | write rank index value =>
    obtain ⟨idle, rfl⟩ := write_cases taken
    exact valued.outside idle (fun peer other => update_of_ne other _ _) fun _ _ => rfl
  | writeLocal rank index value =>
    obtain ⟨idle, rfl⟩ := writeLocal_cases taken
    exact valued.outside idle (fun _ _ => rfl) fun peer other => update_of_ne other _ _
  | start rank => exact valued.start placed fitting sound agrees taken
  | signal action =>
    cases action with
    | enter rank block => exact valued.exchange (fun _ _ => by nofun) taken
    | cas rank block thread => exact valued.exchange (fun _ _ => by nofun) taken
    | trap rank block thread => exact valued.exchange (fun _ _ => by nofun) taken
    | leave rank block => exact valued.leave taken
  | advance rank block thread => exact valued.advance placed fitting sound taken
  | finish rank => exact valued.finish placed fitting sound taken

theorem placed_initial (begins : (operation group program).initial world) :
    Placed group program world := by
  obtain ⟨signals, started, ended, threads, _⟩ := begins
  have parties : ∀ rank block, world.signals.parties rank block = {} := by
    obtain ⟨pads, _, same⟩ := signals
    rw [same]
    exact fun _ _ => rfl
  constructor
  · exact counted_initial signals
  · intro rank block
    unfold World.entered
    rw [parties]
    exact zero_le _
  · intro rank _ block
    unfold World.entered
    rw [parties, threads]
    exact ⟨rfl, fun _ => rfl⟩
  · intro rank block running
    rw [parties] at running
    cases running
  · intro rank ends
    rw [ended] at ends
    cases ends

theorem valued_initial (begins : (operation group program).initial world) :
    Valued group program before locals memory final world := by
  have placed := placed_initial begins
  obtain ⟨_, started, ended, threads, fault⟩ := begins
  have idle : ∀ rank, world.running rank = false := by
    intro rank
    unfold World.running
    rw [started]
    rfl
  have waits : ∀ rank, world.started rank = false := fun rank => congrFun started rank
  constructor
  · exact fault
  · intro rank block thread valid register lane small
    have begins : (world.current rank block thread).step = 0 := by
      unfold World.current
      rw [threads]
      rfl
    rw [registers_begin begins, threads]
    rfl
  · exact fun rank element may => absurd may (ne_true_of_eq_false (idle rank))
  · exact fun rank element _ may => absurd may (ne_true_of_eq_false (idle rank))
  · exact fun rank may => absurd may (ne_true_of_eq_false (idle rank))
  · intro rank element site _ did
    have nothing := (placed.begun site.rank (waits _) site.block).1
    unfold World.entered Party.entered at nothing
    unfold World.Done World.round at did
    rw [threads] at did
    rcases did with passed | ⟨_, early | ⟨_, early⟩⟩
    · omega
    · exact absurd early (not_lt_zero _)
    · exact absurd early (not_lt_zero _)
  · intro rank ends
    rw [ended] at ends
    cases ends

theorem contents_reachable (fitting : Fitting group program)
    {memory : (Nat → Nat → α) → (Nat → Nat → α) → Nat → Nat → Nat → α}
    {final : (Nat → Nat → α) → (Nat → Nat → α) → Cell → α}
    (sound : ∀ before locals, Sound group program before locals (memory before locals)
      (final before locals))
    (reached : (operation group program).Reachable (fun _ _ => True) world) :
    Placed group program world ∧ ∀ before locals, Agrees before locals world →
      Valued group program before locals (memory before locals) (final before locals) world := by
  induction reached with
  | initial begins => exact ⟨placed_initial begins, fun _ _ _ => valued_initial begins⟩
  | step _ _ taken ih =>
    obtain ⟨placed, valued⟩ := ih
    refine ⟨placed.act fitting taken, fun before locals agrees => ?_⟩
    exact (valued before locals (agrees.of_act taken)).act placed fitting (sound before locals)
      agrees taken

end Runs

end TorchSupa.SymmMem.Collective
