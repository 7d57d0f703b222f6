import TorchSupa.Logic.Reduction
import TorchSupa.Logic.Transitions
import Mathlib.Tactic.Ring

/-!
Tree reductions that the threads of a block make one after the other in shared arrays, with a
barrier after every round. Each read and each write is one step, and a barrier is the only thing
that orders steps of different threads.
-/

namespace BlockReduction

open Function Nat

open Reduction (tree halvings)

variable {α : Type}

inductive Combine (α : Type)
  | fold (op : α → α → α)
  | select (better : α → α → Bool)

def Combine.op : Combine α → α → α → α
  | .fold op => op
  | .select better => fun own other => if better own other then own else other

structure Kernel (α : Type) where
  logThreads : Nat
  calls : Nat
  array : Nat → Nat
  combine : Nat → Combine α
  value : Nat → List α → α

inductive Stage (α : Type)
  | reading
  | writing
  | own
  | other (own : α)
  | again (cell : Nat)
  | storing (value : α)
  | waiting

structure Thread (α : Type) where
  call : Nat
  round : Nat
  stage : Stage α
  results : List α
  passed : List α

structure Block (α : Type) where
  scratch : Nat → Nat → α
  threads : Nat → Thread α

def Stage.isWaiting : Stage α → Bool
  | .waiting => true
  | _ => false

def Block.setThread (block : Block α) (tid : Nat) (thread : Thread α) : Block α :=
  { block with threads := update block.threads tid thread }

def Block.write (block : Block α) (array cell : Nat) (value : α) : Block α :=
  let changed := update (block.scratch array) cell value
  { block with scratch := update block.scratch array changed }

section Running

variable (kernel : Kernel α)

def Kernel.stride (round : Nat) : Nat := 2 ^ (kernel.logThreads - round)

def Kernel.phase (thread : Thread α) : Nat := thread.call * (kernel.logThreads + 1) + thread.round

def Kernel.next (tid : Nat) (thread : Thread α) : Thread α :=
  if thread.round < kernel.logThreads then
    { thread with
      round := thread.round + 1
      stage := if tid < kernel.stride (thread.round + 1) then .own else .waiting }
  else { thread with call := thread.call + 1, round := 0, stage := .reading }

def Kernel.Complete (block : Block α) (thread : Thread α) : Prop :=
  ∀ other < 2 ^ kernel.logThreads, kernel.phase thread < kernel.phase (block.threads other) ∨
    (kernel.phase thread = kernel.phase (block.threads other) ∧
      (block.threads other).stage.isWaiting)

instance (block : Block α) (thread : Thread α) : Decidable (kernel.Complete block thread) :=
  Nat.decidableBallLT _ _

def Kernel.advance (block : Block α) (tid : Nat) : Option (Block α) :=
  let thread := block.threads tid
  let array := kernel.array thread.call
  let across := tid + kernel.stride thread.round
  match thread.stage with
  | .reading =>
    let result := block.scratch (kernel.array (thread.call - 1)) 0
    some (block.setThread tid { thread with
      results := thread.results ++ [result]
      stage := if thread.call < kernel.calls then .writing else .waiting })
  | .writing =>
    let value := kernel.value tid thread.results
    some ((block.write array tid value).setThread tid { thread with
      passed := thread.passed ++ [value]
      stage := .waiting })
  | .own => some (block.setThread tid { thread with stage := .other (block.scratch array tid) })
  | .other own =>
    let other := block.scratch array across
    some (block.setThread tid { thread with
      stage := match kernel.combine thread.call with
        | .fold op => .storing (op own other)
        | .select better => .again (if better own other then tid else across) })
  | .again cell => some (block.setThread tid { thread with stage := .storing (block.scratch array cell) })
  | .storing value =>
    some ((block.write array tid value).setThread tid { thread with stage := .waiting })
  | .waiting =>
    if thread.call < kernel.calls ∧ kernel.Complete block thread then
      some (block.setThread tid (kernel.next tid thread))
    else none

def start : Thread α := ⟨0, 0, .writing, [], []⟩

def Kernel.system : System (Block α) Nat where
  initial block := ∀ tid, block.threads tid = start
  step block tid after := tid < 2 ^ kernel.logThreads ∧ kernel.advance block tid = some after

def Kernel.Run (block : Block α) : Prop := kernel.system.Reachable (fun _ _ => True) block

/-! What the cells hold: each is written by its own thread only, and a thread reads a cell in a round
in which that cell stays. -/

variable [Inhabited α]

def Block.values (block : Block α) (call tid : Nat) : α :=
  (block.threads tid).passed.getD call default

def Kernel.content (block : Block α) (call rounds : Nat) : Nat → α :=
  tree (kernel.combine call).op ((halvings kernel.logThreads).take rounds) (block.values call)

structure Kernel.Placed (tid : Nat) (thread : Thread α) : Prop where
  round_le : thread.round ≤ kernel.logThreads
  call_le : thread.call ≤ kernel.calls
  finished : thread.call = kernel.calls → thread.round = 0
  results : thread.results.length =
    thread.call - if thread.stage matches .reading then 1 else 0
  passed : thread.passed.length = thread.call +
    if thread.call < kernel.calls ∧ ¬ thread.stage matches .reading | .writing then 1 else 0
  made : ∀ (call : Nat) value, thread.passed[call]? = some value →
    value = kernel.value tid (thread.results.take call)
  stage : match thread.stage with
    | .reading => thread.round = 0 ∧ 0 < thread.call
    | .writing => thread.round = 0 ∧ thread.call < kernel.calls
    | .waiting => True
    | _ => 0 < thread.round ∧ tid < kernel.stride thread.round

structure Kernel.Holds (block : Block α) (tid : Nat) (thread : Thread α) : Prop where
  before : thread.round = 0 → 0 < thread.call →
    thread.stage matches .reading | .writing ∨ thread.call = kernel.calls ∨
      kernel.array (thread.call - 1) ≠ kernel.array thread.call →
    block.scratch (kernel.array (thread.call - 1)) tid =
      kernel.content block (thread.call - 1) kernel.logThreads tid
  waits : thread.stage matches .waiting → thread.call < kernel.calls →
    block.scratch (kernel.array thread.call) tid =
      kernel.content block thread.call thread.round tid
  works : 0 < thread.round → ¬ thread.stage matches .waiting →
    block.scratch (kernel.array thread.call) tid =
      kernel.content block thread.call (thread.round - 1) tid
  read : match thread.stage with
    | .other own => own = kernel.content block thread.call (thread.round - 1) tid
    | .again cell => ∃ better, kernel.combine thread.call = .select better ∧
        cell = if better (kernel.content block thread.call (thread.round - 1) tid)
          (kernel.content block thread.call (thread.round - 1) (tid + kernel.stride thread.round))
          then tid else tid + kernel.stride thread.round
    | .storing value => value = kernel.content block thread.call thread.round tid
    | _ => True
  right : ∀ call < thread.results.length,
    (tid = 0 ∨ call + 1 = kernel.calls ∨ kernel.array call ≠ kernel.array (call + 1)) →
    thread.results[call]? = some (kernel.content block call kernel.logThreads 0)

def Kernel.Ordered (block : Block α) : Prop :=
  ∀ tid < 2 ^ kernel.logThreads, ∀ other < 2 ^ kernel.logThreads,
    kernel.phase (block.threads tid) ≤ kernel.phase (block.threads other) ∨
    (kernel.phase (block.threads tid) = kernel.phase (block.threads other) + 1 ∧
      (block.threads other).stage.isWaiting)

structure Kernel.Sound (block : Block α) : Prop where
  placed : ∀ tid < 2 ^ kernel.logThreads, kernel.Placed tid (block.threads tid)
  holds : ∀ tid < 2 ^ kernel.logThreads, kernel.Holds block tid (block.threads tid)
  ordered : kernel.Ordered block

end Running

section Proofs

variable {kernel : Kernel α}

open Kernel

theorem phase_inj {one two : Thread α} (first : one.round ≤ kernel.logThreads)
    (second : two.round ≤ kernel.logThreads) (same : kernel.phase one = kernel.phase two) :
    one.call = two.call ∧ one.round = two.round := by
  unfold phase at same
  rcases lt_trichotomy one.call two.call with below | equal | above
  · have := mul_le_mul_right (kernel.logThreads + 1) below
    rw [succ_mul] at this
    omega
  · rw [equal] at same
    omega
  · have := mul_le_mul_right (kernel.logThreads + 1) above
    rw [succ_mul] at this
    omega

theorem call_le_of_phase_le {one two : Thread α} (second : two.round ≤ kernel.logThreads)
    (le : kernel.phase one ≤ kernel.phase two) : one.call ≤ two.call := by
  unfold phase at le
  by_contra above
  have := Nat.mul_le_mul_right (kernel.logThreads + 1) (Nat.lt_of_not_le above)
  rw [Nat.succ_mul] at this
  omega

variable {thread : Thread α}

theorem next_phase (tid : Nat) (small : thread.round ≤ kernel.logThreads) :
    kernel.phase (kernel.next tid thread) = kernel.phase thread + 1 := by
  unfold next phase
  split
  · simp only
    omega
  · simp only [succ_mul]
    omega

theorem halvings_get (k round : Nat) (below : round < k) :
    (halvings k)[round]? = some (2 ^ (k - (round + 1))) := by
  induction k generalizing round with
  | zero => omega
  | succ k ih =>
    cases round with
    | zero => simp [halvings]
    | succ round =>
      have rest := ih round (by omega)
      simpa [halvings] using rest

theorem halvings_length (k : Nat) : (halvings k).length = k := by
  induction k with
  | zero => rfl
  | succ k ih => simp [halvings, ih]

variable [Inhabited α]

open List Block

theorem content_succ (block : Block α) (call : Nat) {round : Nat} (positive : 0 < round)
    (below : round ≤ kernel.logThreads) (tid : Nat) :
    kernel.content block call round tid =
      if tid < kernel.stride round then
        (kernel.combine call).op (kernel.content block call (round - 1) tid)
          (kernel.content block call (round - 1) (tid + kernel.stride round))
      else kernel.content block call (round - 1) tid := by
  obtain ⟨before, rfl⟩ := exists_eq_succ_of_ne_zero (Nat.pos_iff_ne_zero.mp positive)
  have stride := halvings_get kernel.logThreads before (by omega)
  simp only [Kernel.content, succ_eq_add_one, take_add_one, stride, Option.toList_some, tree,
    foldl_append, foldl_cons, foldl_nil, Nat.add_sub_cancel, Kernel.stride]

@[simp] theorem content_zero (block : Block α) (call tid : Nat) :
    kernel.content block call 0 tid = block.values call tid := rfl

theorem content_congr {block after : Block α} {call : Nat}
    (same : ∀ tid, after.values call tid = block.values call tid) :
    kernel.content after call = kernel.content block call := by
  have values : after.values call = block.values call := funext same
  unfold content
  rw [values]

structure Kernel.Agree (kernel : Kernel α) (block after : Block α) (tid : Nat) (thread : Thread α) :
    Prop where
  scratch : ∀ array, after.scratch array tid = block.scratch array tid
  earlier : ∀ call < thread.call, kernel.content after call = kernel.content block call
  current : 0 < thread.round →
    kernel.content after thread.call = kernel.content block thread.call
  own : after.values thread.call tid = block.values thread.call tid

variable {tid : Nat}

theorem Kernel.Holds.transfer {block after : Block α}
    (placed : kernel.Placed tid thread) (holds : kernel.Holds block tid thread)
    (agree : kernel.Agree block after tid thread) : kernel.Holds after tid thread where
  before first later free := by
    rw [agree.scratch, agree.earlier _ (by omega)]
    exact holds.before first later free
  waits waiting runs := by
    rw [agree.scratch, holds.waits waiting runs]
    rcases Nat.eq_zero_or_pos thread.round with first | later
    · rw [first, content_zero, content_zero, agree.own]
    · rw [agree.current later]
  works later working := by
    rw [agree.scratch, agree.current later, holds.works later working]
  read := by
    have read := holds.read
    have stage := placed.stage
    cases at_ : thread.stage with
    | other own =>
      simp only [at_] at read stage ⊢
      rw [agree.current stage.1, read]
    | again cell =>
      simp only [at_] at read stage ⊢
      rw [agree.current stage.1]
      exact read
    | storing value =>
      simp only [at_] at read stage ⊢
      rw [agree.current stage.1, read]
    | reading | writing | own | waiting => trivial
  right call below trusted := by
    have results := placed.results
    rw [agree.earlier call (by split at results <;> omega)]
    exact holds.right call below trusted

variable {block : Block α}

theorem Kernel.Sound.order (sound : kernel.Sound block) {tid other : Nat}
    (small : tid < 2 ^ kernel.logThreads) (small' : other < 2 ^ kernel.logThreads)
    (works : (block.threads tid).stage.isWaiting = false) :
    kernel.phase (block.threads other) ≤ kernel.phase (block.threads tid) ∧
      (kernel.phase (block.threads other) = kernel.phase (block.threads tid) ∨
        (kernel.phase (block.threads tid) = kernel.phase (block.threads other) + 1 ∧
          (block.threads other).stage.isWaiting)) := by
  have one := sound.ordered other small' tid small
  have two := sound.ordered tid small other small'
  rw [works] at one
  simp only [Bool.false_eq_true, and_false, or_false] at one
  refine ⟨one, two.imp (fun le => by omega) id⟩

theorem Kernel.Sound.frame {block after : Block α} (sound : kernel.Sound block)
    (small : tid < 2 ^ kernel.logThreads) (works : (block.threads tid).stage.isWaiting = false)
    (threads : after.threads = update block.threads tid thread)
    (phase : thread.call = (block.threads tid).call ∧ thread.round = (block.threads tid).round)
    (cells : ∀ array other, other ≠ tid → after.scratch array other = block.scratch array other)
    (passed : thread.passed = (block.threads tid).passed ∨ (block.threads tid).round = 0 ∧
        ∃ value, thread.passed = (block.threads tid).passed ++ [value] ∧
          (block.threads tid).passed.length = (block.threads tid).call)
    (placed : kernel.Placed tid thread) (holds : kernel.Holds after tid thread) :
    kernel.Sound after := by
  have same : kernel.phase thread = kernel.phase (block.threads tid) := by
    rw [Kernel.phase, phase.1, phase.2, Kernel.phase]
  have values : ∀ call other, other ≠ tid ∨ call < (block.threads tid).call →
      after.values call other = block.values call other := by
    intro call other apart
    unfold Block.values
    rw [threads]
    by_cases here : other = tid
    · subst here
      rw [update_self]
      rcases passed with passed | ⟨-, value, passed, length⟩
      · rw [passed]
      · rw [passed, getD_append _ _ _ _ (by rw [length]; exact apart.resolve_left (by simp))]
    · rw [update_of_ne here]
  -- only what the first round of a call writes can change the contents, and only those of the call
  have contents : ∀ call, call < (block.threads tid).call ∨ 0 < (block.threads tid).round →
      kernel.content after call = kernel.content block call := by
    intro call early
    refine content_congr fun other => ?_
    by_cases apart : other ≠ tid ∨ call < (block.threads tid).call
    · exact values call other apart
    · simp only [not_or, Decidable.not_not] at apart
      have later := early.resolve_left apart.2
      rcases passed with passed | ⟨first, -⟩
      · rw [Block.values, threads, apart.1, update_self, passed, Block.values]
      · omega
  have elsewhere : ∀ other, other ≠ tid → after.threads other = block.threads other := by
    intro other apart
    rw [threads, update_of_ne apart]
  have here : after.threads tid = thread := by rw [threads, update_self]
  constructor
  · intro other inside
    by_cases this : other = tid
    · rw [this, here]
      exact placed
    · rw [elsewhere other this]
      exact sound.placed other inside
  · intro other inside
    by_cases this : other = tid
    · rw [this, here]
      exact holds
    · rw [elsewhere other this]
      have theirs := sound.placed other inside
      have mine := sound.placed tid small
      have behind := (sound.order small inside works).1
      have calls := call_le_of_phase_le mine.round_le behind
      refine (sound.holds other inside).transfer theirs ?_
      refine ⟨fun array => cells array other this, fun call below => contents call (.inl (by omega)),
        fun later => contents _ ?_, values _ other (.inl this)⟩
      by_contra late
      have equal : (block.threads other).call = (block.threads tid).call := by omega
      unfold Kernel.phase at behind
      rw [equal] at behind
      omega
  · intro one inside two inside'
    have order := sound.ordered one inside two inside'
    by_cases first : one = tid <;> by_cases second : two = tid
    · rw [first, second]
      exact .inl (le_refl _)
    · subst first
      rw [here, elsewhere two second, same]
      exact order
    · subst second
      rw [here, elsewhere one first, same]
      rw [works] at order
      simp only [Bool.false_eq_true, and_false, or_false] at order
      exact .inl order
    · rw [elsewhere one first, elsewhere two second]
      exact order

theorem Kernel.Sound.neighbour (sound : kernel.Sound block) {tid other : Nat}
    (small : tid < 2 ^ kernel.logThreads) (small' : other < 2 ^ kernel.logThreads)
    (works : (block.threads tid).stage.isWaiting = false) :
    ((block.threads other).call = (block.threads tid).call ∧
      (block.threads other).round = (block.threads tid).round) ∨
    (block.threads other).stage matches .waiting ∧
      ((0 < (block.threads tid).round ∧ (block.threads other).call = (block.threads tid).call ∧
        (block.threads other).round = (block.threads tid).round - 1) ∨
      ((block.threads tid).round = 0 ∧ (block.threads other).call + 1 = (block.threads tid).call ∧
        (block.threads other).round = kernel.logThreads)) := by
  have mine := sound.placed tid small
  have theirs := sound.placed other small'
  rcases (sound.order small small' works).2 with equal | ⟨behind, waiting⟩
  · exact .inl (phase_inj theirs.round_le mine.round_le equal)
  · have waits : (block.threads other).stage matches .waiting := by
      cases at_ : (block.threads other).stage <;> simp_all [Stage.isWaiting]
    have next := next_phase other theirs.round_le
    rw [← behind] at next
    have round_le : (kernel.next other (block.threads other)).round ≤ kernel.logThreads := by
      unfold Kernel.next
      split <;> simp only <;> omega
    obtain ⟨call, round⟩ := phase_inj round_le mine.round_le next
    have last := theirs.round_le
    refine .inr ⟨waits, ?_⟩
    unfold Kernel.next at call round
    split at round
    next more =>
      rw [if_pos more] at call
      simp only at call round
      exact .inl ⟨by omega, call, by omega⟩
    next done =>
      rw [if_neg done] at call
      simp only at call round
      exact .inr ⟨round.symm, call, by omega⟩

theorem Kernel.Sound.across (sound : kernel.Sound block) (small : tid < 2 ^ kernel.logThreads)
    (works : (block.threads tid).stage.isWaiting = false) (later : 0 < (block.threads tid).round)
    (inside : tid < kernel.stride (block.threads tid).round) :
    block.scratch (kernel.array (block.threads tid).call)
        (tid + kernel.stride (block.threads tid).round) =
      kernel.content block (block.threads tid).call ((block.threads tid).round - 1)
        (tid + kernel.stride (block.threads tid).round) := by
  have mine := sound.placed tid small
  have half : kernel.stride (block.threads tid).round + kernel.stride (block.threads tid).round ≤
      2 ^ kernel.logThreads := by
    unfold stride
    rw [← Nat.two_mul, ← Nat.pow_succ']
    exact Nat.pow_le_pow_right (by decide) (by have := mine.round_le; omega)
  generalize across : tid + kernel.stride (block.threads tid).round = other
  have small' : other < 2 ^ kernel.logThreads := by omega
  have stage := (sound.placed other small').stage
  have runs : (block.threads tid).call < kernel.calls := by
    rcases lt_or_eq_of_le mine.call_le with below | last
    · exact below
    · exact absurd (mine.finished last) (by omega)
  rcases sound.neighbour small small' works with ⟨call, round⟩ | ⟨waiting, before | first⟩
  · have waiting : (block.threads other).stage matches .waiting := by
      cases at_ : (block.threads other).stage with
      | waiting => rfl
      | reading | writing =>
        simp only [at_] at stage
        omega
      | own | other | again | storing =>
        simp only [at_, round] at stage
        omega
    have holds := (sound.holds other small').waits waiting (by omega)
    rw [call, round, content_succ block _ later mine.round_le, if_neg (by omega)] at holds
    exact holds
  · have holds := (sound.holds other small').waits waiting (by omega)
    rw [before.2.1, before.2.2] at holds
    exact holds
  · omega

theorem Kernel.Sound.result (sound : kernel.Sound block)
    (small : tid < 2 ^ kernel.logThreads) (reads : (block.threads tid).stage = .reading)
    (trusted : tid = 0 ∨ (block.threads tid).call = kernel.calls ∨
      kernel.array ((block.threads tid).call - 1) ≠ kernel.array (block.threads tid).call) :
    block.scratch (kernel.array ((block.threads tid).call - 1)) 0 =
      kernel.content block ((block.threads tid).call - 1) kernel.logThreads 0 := by
  have mine := sound.placed tid small
  have stage := mine.stage
  simp only [reads] at stage
  have first : 0 < 2 ^ kernel.logThreads := Nat.two_pow_pos _
  have holds := sound.holds 0 first
  rcases sound.neighbour small first (by rw [reads]; rfl) with
    ⟨call, round⟩ | ⟨waiting, later | last⟩
  · rw [← call] at trusted ⊢
    refine holds.before (by omega) (by omega) ?_
    rcases trusted with rfl | still
    · exact .inl (by rw [reads])
    · exact .inr still
  · omega
  · have held := holds.waits waiting (by have := mine.call_le; omega)
    have call : (block.threads 0).call = (block.threads tid).call - 1 := by omega
    rw [call, last.2.2] at held
    exact held

omit [Inhabited α] in
theorem Block.write_other (block : Block α) (array cell : Nat) (value : α) {place other : Nat}
    (apart : place ≠ array ∨ other ≠ cell) :
    (block.write array cell value).scratch place other = block.scratch place other := by
  unfold write
  by_cases same : place = array
  · subst same
    simp only [update_self]
    exact update_of_ne (apart.resolve_left (by simp)) _ _
  · simp only [update_of_ne same]

omit [Inhabited α] in
theorem Block.write_self (block : Block α) (array cell : Nat) (value : α) :
    (block.write array cell value).scratch array cell = value := by
  simp [write]

theorem content_registers {block after : Block α}
    (threads : after.threads = update block.threads tid thread)
    (passed : thread.passed = (block.threads tid).passed) :
    kernel.content after = kernel.content block := by
  funext call
  refine content_congr fun other => ?_
  unfold values
  rw [threads]
  by_cases here : other = tid
  · rw [here, update_self, passed]
  · rw [update_of_ne here]

theorem Kernel.Holds.congr {block after : Block α}
    (holds : kernel.Holds block tid thread) (scratch : after.scratch = block.scratch)
    (contents : kernel.content after = kernel.content block) :
    kernel.Holds after tid thread := by
  constructor
  · rw [contents, scratch]
    exact holds.before
  · rw [contents, scratch]
    exact holds.waits
  · rw [contents, scratch]
    exact holds.works
  · rw [contents]
    exact holds.read
  · rw [contents]
    exact holds.right

theorem Kernel.Sound.register (sound : kernel.Sound block) (small : tid < 2 ^ kernel.logThreads)
    (works : (block.threads tid).stage.isWaiting = false)
    (phase : thread.call = (block.threads tid).call ∧ thread.round = (block.threads tid).round)
    (passed : thread.passed = (block.threads tid).passed)
    (placed : kernel.Placed tid thread) (holds : kernel.Holds block tid thread) :
    kernel.Sound (block.setThread tid thread) :=
  sound.frame small works rfl phase (fun _ _ _ => rfl) (.inl passed) placed
    (holds.congr rfl (content_registers rfl passed))

omit [Inhabited α] in
theorem Kernel.Placed.next (placed : kernel.Placed tid thread)
    (waits : thread.stage = .waiting) (runs : thread.call < kernel.calls) :
    kernel.Placed tid (kernel.next tid thread) := by
  have results := placed.results
  have passed := placed.passed
  simp only [waits] at results passed
  unfold Kernel.next
  split
  next more =>
    have place : ∀ stage : Stage α, (stage = .own ∧ tid < kernel.stride (thread.round + 1)) ∨
        stage = .waiting → kernel.Placed tid
          { thread with round := thread.round + 1, stage := stage } := by
      rintro stage (⟨rfl, inside⟩ | rfl)
      · exact ⟨more, placed.call_le, fun last => absurd last (by simp only; omega), results, passed,
          placed.made, succ_pos _, inside⟩
      · exact ⟨more, placed.call_le, fun last => absurd last (by simp only; omega), results, passed,
          placed.made, trivial⟩
    split
    next inside => exact place _ (.inl ⟨rfl, inside⟩)
    · exact place _ (.inr rfl)
  · refine ⟨zero_le _, runs, fun _ => rfl, by simpa using results, ?_, placed.made, rfl, succ_pos _⟩
    simp only [passed]
    simp [runs]

theorem Kernel.Holds.next
    (holds : kernel.Holds block tid thread) (small : thread.round ≤ kernel.logThreads)
    (waits : thread.stage = .waiting) (runs : thread.call < kernel.calls) :
    kernel.Holds block tid (kernel.next tid thread) := by
  have held := holds.waits (by rw [waits]) runs
  unfold Kernel.next
  split
  next more =>
    have succ := content_succ block thread.call (succ_pos thread.round) more tid
    split
    · exact ⟨fun first => absurd first (succ_ne_zero _), fun waiting => by simp at waiting,
        fun _ _ => held, trivial, holds.right⟩
    next outside =>
      rw [if_neg outside] at succ
      exact ⟨fun first => absurd first (succ_ne_zero _), fun _ _ => held.trans succ.symm,
        fun _ working => absurd rfl working, trivial, holds.right⟩
  · have last : thread.round = kernel.logThreads := by omega
    exact ⟨fun _ _ _ => last ▸ held, fun waiting => by simp at waiting,
      fun later => absurd later (by simp), trivial, holds.right⟩

theorem Kernel.Sound.barrier (sound : kernel.Sound block)
    (small : tid < 2 ^ kernel.logThreads) (waits : (block.threads tid).stage = .waiting)
    (runs : (block.threads tid).call < kernel.calls)
    (complete : kernel.Complete block (block.threads tid)) :
    kernel.Sound (block.setThread tid (kernel.next tid (block.threads tid))) := by
  have placed := sound.placed tid small
  have passed : (kernel.next tid (block.threads tid)).passed = (block.threads tid).passed := by
    unfold next
    split <;> rfl
  have contents : kernel.content (block.setThread tid (kernel.next tid (block.threads tid))) =
      kernel.content block := content_registers rfl passed
  have further := next_phase tid placed.round_le
  generalize reached : kernel.next tid (block.threads tid) = thread at *
  have threads : ∀ other, (block.setThread tid thread).threads other =
      if other = tid then thread else block.threads other := fun other =>
    update_apply _ _ _ _
  constructor
  · intro other inside
    rw [threads]
    split
    next here =>
      rw [here, ← reached]
      exact placed.next waits runs
    · exact sound.placed other inside
  · intro other inside
    rw [threads]
    split
    next here =>
      rw [here, ← reached]
      exact ((sound.holds tid small).next placed.round_le waits runs).congr rfl (reached ▸ contents)
    · exact (sound.holds other inside).congr rfl contents
  · intro one inside two inside'
    rw [threads, threads]
    have order := sound.ordered one inside two inside'
    split <;> split
    · exact .inl (le_refl _)
    · rcases complete two inside' with ahead | ⟨equal, waiting⟩
      · exact .inl (by omega)
      · exact .inr ⟨by omega, waiting⟩
    next first second =>
      rw [second] at order
      exact .inl (by omega)
    · exact order

theorem Kernel.Holds.pass {value : α} (holds : kernel.Holds block tid (block.threads tid))
    (writes : (block.threads tid).stage = .writing) (first : (block.threads tid).round = 0)
    (runs : (block.threads tid).call < kernel.calls)
    (count : (block.threads tid).passed.length = (block.threads tid).call)
    (results : (block.threads tid).results.length = (block.threads tid).call) :
    let thread := { block.threads tid with
      passed := (block.threads tid).passed ++ [value], stage := .waiting }
    kernel.Holds ((block.write (kernel.array (block.threads tid).call) tid value).setThread tid
      thread) tid thread := by
  intro thread
  generalize written : (block.write (kernel.array (block.threads tid).call) tid value).setThread tid
    thread = after
  have threads : ∀ other, after.threads other = if other = tid then thread else block.threads other :=
    fun other => written ▸ update_apply _ _ _ _
  have earlier : ∀ call < (block.threads tid).call,
      kernel.content after call = kernel.content block call := by
    intro call early
    refine content_congr fun other => ?_
    rw [values, threads, values]
    split
    next here => rw [here, getD_append _ _ _ _ (by omega)]
    · rfl
  have scratch : after.scratch =
      (block.write (kernel.array (block.threads tid).call) tid value).scratch := written ▸ rfl
  constructor
  · intro _ later free
    have apart : kernel.array ((block.threads tid).call - 1) ≠
        kernel.array (block.threads tid).call := by
      simpa [thread, Nat.ne_of_lt runs] using free
    have below : (block.threads tid).call - 1 < (block.threads tid).call := by
      have : 0 < (block.threads tid).call := later
      omega
    rw [scratch, block.write_other _ _ _ (.inl apart), earlier _ below]
    exact holds.before first later (.inl (by rw [writes]))
  · intro _ _
    rw [scratch, block.write_self, show thread.round = 0 from first, content_zero, values,
      threads, if_pos rfl, ← count]
    simp [thread]
  · intro _ working
    exact absurd rfl working
  · trivial
  · intro call below trusted
    rw [earlier call (results ▸ below)]
    exact holds.right call below trusted

theorem Kernel.Sound.advance {block after : Block α} (sound : kernel.Sound block)
    (small : tid < 2 ^ kernel.logThreads) (taken : kernel.advance block tid = some after) :
    kernel.Sound after := by
  have placed := sound.placed tid small
  have holds := sound.holds tid small
  have stage := placed.stage
  have results := placed.results
  have passed := placed.passed
  unfold Kernel.advance at taken
  cases at_ : (block.threads tid).stage with
  | reading =>
    have reads := sound.result small at_
    simp only [at_] at taken stage results passed
    cases taken
    have right : ∀ call < ((block.threads tid).results ++
        [block.scratch (kernel.array ((block.threads tid).call - 1)) 0]).length,
        (tid = 0 ∨ call + 1 = kernel.calls ∨ kernel.array call ≠ kernel.array (call + 1)) →
        ((block.threads tid).results ++
          [block.scratch (kernel.array ((block.threads tid).call - 1)) 0])[call]? =
          some (kernel.content block call kernel.logThreads 0) := by
      intro call below trusted
      simp only [length_append, length_singleton] at below
      rcases Nat.lt_succ_iff_lt_or_eq.mp below with old | rfl
      · rw [getElem?_append_left old]
        exact holds.right call old trusted
      · rw [getElem?_concat_length, results]
        simp only [results] at trusted
        have call : (block.threads tid).call - 1 + 1 = (block.threads tid).call := by omega
        rw [if_pos trivial, call] at trusted
        exact congrArg some (reads trusted)
    have made : ∀ (call : Nat) value, (block.threads tid).passed[call]? = some value →
        value = kernel.value tid (((block.threads tid).results ++
          [block.scratch (kernel.array ((block.threads tid).call - 1)) 0]).take call) := by
      intro call value found
      have below := (List.getElem?_eq_some_iff.mp found).1
      simp only [not_true_eq_false, and_false, if_false, Nat.add_zero] at passed
      rw [take_append_of_le_length (by simp only [results, if_pos]; omega)]
      exact placed.made call value found
    have le := placed.call_le
    have before := fun first later => holds.before first later (.inl (by rw [at_]))
    by_cases runs : (block.threads tid).call < kernel.calls
    · rw [if_pos runs]
      refine sound.register small (by rw [at_]; rfl) ⟨rfl, rfl⟩ rfl ?_ ?_
      · exact ⟨placed.round_le, le, placed.finished, by simp [results]; omega,
          by simpa using passed, made, stage.1, runs⟩
      · exact ⟨fun first later _ => before first later, fun waiting => by simp at waiting,
          fun later => absurd later (by simp [stage.1]), trivial, right⟩
    · rw [if_neg runs]
      refine sound.register small (by rw [at_]; rfl) ⟨rfl, rfl⟩ rfl ?_ ?_
      · exact ⟨placed.round_le, le, placed.finished, by simp [results]; omega,
          by simp [passed, runs], made, trivial⟩
      · exact ⟨fun first later _ => before first later, fun _ below => absurd below runs,
          fun later => absurd later (by simp [stage.1]), trivial, right⟩
  | writing =>
    simp only [at_] at taken stage results passed
    cases taken
    have count : (block.threads tid).passed.length = (block.threads tid).call := by
      simpa using passed
    refine sound.frame small (by rw [at_]; rfl) rfl ⟨rfl, rfl⟩
      (fun array other apart => block.write_other _ _ _ (.inr apart))
      (.inr ⟨stage.1, _, rfl, count⟩) ?_ ?_
    · refine ⟨placed.round_le, placed.call_le, placed.finished, by simpa using results,
        by simp [passed, stage.2], fun call value found => ?_, trivial⟩
      simp only at found ⊢
      rcases Nat.lt_or_ge call (block.threads tid).passed.length with old | new
      · rw [getElem?_append_left old] at found
        exact placed.made call value found
      · have last := (List.getElem?_eq_some_iff.mp found).1
        rw [length_append, length_singleton] at last
        obtain rfl : call = (block.threads tid).passed.length := by omega
        rw [getElem?_concat_length] at found
        rw [take_of_length_le (by simp [results, count])]
        exact (Option.some.inj found).symm
    · exact holds.pass at_ stage.1 stage.2 count (by simpa using results)
  | own =>
    simp only [at_] at taken stage results passed
    cases taken
    have working := holds.works stage.1 (by simp [at_])
    refine sound.register small (by rw [at_]; rfl) ⟨rfl, rfl⟩ rfl
      ⟨placed.round_le, placed.call_le, placed.finished, results, passed, placed.made, stage⟩
      ⟨fun first => ?_, fun waiting => by simp at waiting, fun _ _ => working, working, holds.right⟩
    exact absurd stage.1 (by simp only at first; omega)
  | other own =>
    have across := sound.across small (by rw [at_]; rfl)
    have read := holds.read
    simp only [at_] at taken stage results passed read
    have working := holds.works stage.1 (by simp [at_])
    cases taken
    rw [across stage.1 stage.2]
    have next := content_succ block (block.threads tid).call stage.1 placed.round_le tid
    rw [if_pos stage.2, ← read] at next
    cases combine : kernel.combine (block.threads tid).call with
    | fold op =>
      refine sound.register small (by rw [at_]; rfl) ⟨rfl, rfl⟩ rfl
        ⟨placed.round_le, placed.call_le, placed.finished, results, passed, placed.made, stage⟩
        ⟨fun first => ?_, fun waiting => by simp at waiting, fun _ _ => working, ?_, holds.right⟩
      · exact absurd stage.1 (by simp only at first; omega)
      · rw [combine] at next
        exact next.symm
    | select better =>
      refine sound.register small (by rw [at_]; rfl) ⟨rfl, rfl⟩ rfl
        ⟨placed.round_le, placed.call_le, placed.finished, results, passed, placed.made, stage⟩
        ⟨fun first => ?_, fun waiting => by simp at waiting, fun _ _ => working,
          ⟨better, combine, ?_⟩, holds.right⟩
      · exact absurd stage.1 (by simp only at first; omega)
      · rw [read]
  | again cell =>
    have across := sound.across small (by rw [at_]; rfl)
    have read := holds.read
    simp only [at_] at taken stage results passed read
    have working := holds.works stage.1 (by simp [at_])
    cases taken
    obtain ⟨better, combine, cell_eq⟩ := read
    refine sound.register small (by rw [at_]; rfl) ⟨rfl, rfl⟩ rfl
      ⟨placed.round_le, placed.call_le, placed.finished, results, passed, placed.made, stage⟩
      ⟨fun first => ?_, fun waiting => by simp at waiting, fun _ _ => working, ?_, holds.right⟩
    · exact absurd stage.1 (by simp only at first; omega)
    · simp only
      rw [content_succ block _ stage.1 placed.round_le, if_pos stage.2, combine, cell_eq]
      simp only [Combine.op]
      split
      · exact working
      · exact across stage.1 stage.2
  | storing value =>
    have read := holds.read
    simp only [at_] at taken stage results passed read
    cases taken
    refine sound.frame small (by rw [at_]; rfl) rfl ⟨rfl, rfl⟩
      (fun array other apart => block.write_other _ _ _ (.inr apart)) (.inl rfl) ?_ ?_
    · exact ⟨placed.round_le, placed.call_le, placed.finished, results, by simpa using passed,
        placed.made, trivial⟩
    · have contents : kernel.content ((block.write (kernel.array (block.threads tid).call) tid
          value).setThread tid { block.threads tid with stage := .waiting }) =
          kernel.content block := content_registers rfl rfl
      refine ⟨fun first => absurd stage.1 (by simp only at first; omega), fun _ _ => ?_,
        fun _ working => absurd rfl working, trivial, ?_⟩
      · rw [contents]
        exact (block.write_self _ _ _).trans read
      · rw [contents]
        exact holds.right
  | waiting =>
    simp only [at_] at taken stage results passed
    split at taken
    next runs =>
      cases taken
      exact sound.barrier small at_ runs.1 runs.2
    · cases taken

theorem Kernel.Run.sound (run : kernel.Run block) (some_ : 0 < kernel.calls) :
    kernel.Sound block := by
  refine System.Reachable.invariant ?_ ?_ run
  · intro block begins
    refine ⟨fun tid _ => ?_, fun tid _ => ?_, fun one _ two _ => ?_⟩
    · rw [begins]
      exact ⟨zero_le _, zero_le _, fun _ => rfl, rfl, by simp [start],
        fun call value found => by simp [start] at found, rfl, some_⟩
    · rw [begins]
      exact ⟨fun _ later => absurd later (lt_irrefl 0), fun waiting => by simp [start] at waiting,
        fun later => absurd later (lt_irrefl 0), trivial, fun _ below => by simp [start] at below⟩
    · rw [begins, begins]
      exact .inl (le_refl _)
  · intro block tid after sound _ taken
    exact sound.advance taken.1 taken.2

theorem Kernel.Run.result (run : kernel.Run block) (some_ : 0 < kernel.calls)
    {tid call : Nat} (small : tid < 2 ^ kernel.logThreads)
    (read : call < (block.threads tid).results.length)
    (trusted : tid = 0 ∨ call + 1 = kernel.calls ∨ kernel.array call ≠ kernel.array (call + 1)) :
    (block.threads tid).results[call]? =
      some (tree (kernel.combine call).op (halvings kernel.logThreads) (block.values call) 0) := by
  have right := ((run.sound some_).holds tid small).right call read trusted
  rw [right, content, take_of_length_le (halvings_length _).le]

theorem Kernel.Run.passed (run : kernel.Run block) (some_ : 0 < kernel.calls)
    {tid call : Nat} (small : tid < 2 ^ kernel.logThreads)
    (made : call < (block.threads tid).passed.length) :
    block.values call tid = kernel.value tid ((block.threads tid).results.take call) := by
  have found := ((run.sound some_).placed tid small).made call _ (getElem?_eq_getElem made)
  rw [← found, values, getD_eq_getElem?_getD, getElem?_eq_getElem made, Option.getD_some]

/-! Every barrier is reached in some order of the steps. -/

def Stage.rank : Stage α → Nat
  | .waiting => 0
  | .storing _ | .writing => 1
  | .again _ | .reading => 2
  | .other _ => 3
  | .own => 4

structure Moved (block after : Block α) (tid : Nat) : Prop where
  others : ∀ other, other ≠ tid → after.threads other = block.threads other
  call : (after.threads tid).call = (block.threads tid).call
  round : (after.threads tid).round = (block.threads tid).round

omit [Inhabited α] in
theorem advance_working (block : Block α) (tid : Nat) (works : 0 < (block.threads tid).stage.rank) :
    ∃ after, kernel.advance block tid = some after ∧ Moved block after tid ∧
      (after.threads tid).stage.rank < (block.threads tid).stage.rank := by
  cases at_ : (block.threads tid).stage with
  | waiting => simp [at_, Stage.rank] at works
  | reading | other | writing | own | again | storing =>
    simp only [advance, at_, Option.some.injEq, exists_eq_left']
    refine ⟨⟨fun other apart => ?_, ?_, ?_⟩, ?_⟩
    · exact update_of_ne apart _ _
    · simp only [setThread, update_self]
    · simp only [setThread, update_self]
    · simp only [setThread, update_self, Stage.rank]
      grind [Stage.rank]

omit [Inhabited α] in
theorem Kernel.Run.settle (run : kernel.Run block)
    (small : tid < 2 ^ kernel.logThreads) : ∃ after, kernel.Run after ∧ Moved block after tid ∧
      (after.threads tid).stage.rank = 0 := by
  generalize bound : (block.threads tid).stage.rank = rank
  induction rank using Nat.strongRecOn generalizing block with
  | ind rank ih =>
    rcases Nat.eq_zero_or_pos rank with zero | works
    · exact ⟨block, run, ⟨fun _ _ => rfl, rfl, rfl⟩, bound.trans zero⟩
    · obtain ⟨between, taken, moved, lower⟩ :=
        @advance_working _ kernel block tid (by omega)
      obtain ⟨after, reached, rest, waits⟩ :=
        ih _ (bound ▸ lower) (run.step trivial ⟨small, taken⟩) rfl
      exact ⟨after, reached, ⟨fun other apart => (rest.others other apart).trans
        (moved.others other apart), rest.call.trans moved.call, rest.round.trans moved.round⟩, waits⟩

def Kernel.AtBarrier (kernel : Kernel α) (block : Block α) (call round : Nat) : Prop :=
  ∀ tid < 2 ^ kernel.logThreads, (block.threads tid).stage = .waiting ∧
    (block.threads tid).call = call ∧ (block.threads tid).round = round

omit [Inhabited α] in
theorem waiting_of_rank {stage : Stage α} (zero : stage.rank = 0) : stage = .waiting := by
  cases stage <;> simp_all [Stage.rank]

omit [Inhabited α] in
theorem Kernel.Run.cross (run : kernel.Run block)
    (small : tid < 2 ^ kernel.logThreads) (waits : (block.threads tid).stage = .waiting)
    (runs : (block.threads tid).call < kernel.calls)
    (complete : kernel.Complete block (block.threads tid)) : ∃ after, kernel.Run after ∧
      (∀ other, other ≠ tid → after.threads other = block.threads other) ∧
      (after.threads tid).stage = .waiting ∧
      (after.threads tid).call = (kernel.next tid (block.threads tid)).call ∧
      (after.threads tid).round = (kernel.next tid (block.threads tid)).round := by
  have taken : kernel.advance block tid =
      some (block.setThread tid (kernel.next tid (block.threads tid))) := by
    simp only [advance, waits]
    rw [if_pos ⟨runs, complete⟩]
  have here : (block.setThread tid (kernel.next tid (block.threads tid))).threads tid =
      kernel.next tid (block.threads tid) := update_self _ _ _
  obtain ⟨after, reached, moved, settled⟩ :=
    Kernel.Run.settle (run.step trivial ⟨small, taken⟩) small
  refine ⟨after, reached, fun other apart => ?_, waiting_of_rank settled, ?_, ?_⟩
  · exact (moved.others other apart).trans (update_of_ne apart _ _)
  · rw [moved.call, here]
  · rw [moved.round, here]

omit [Inhabited α] in
theorem advance_reading (block : Block α) (tid : Nat)
    (reads : (block.threads tid).stage = .reading) :
    kernel.advance block tid = some (block.setThread tid { block.threads tid with
      results := (block.threads tid).results ++
        [block.scratch (kernel.array ((block.threads tid).call - 1)) 0]
      stage := if (block.threads tid).call < kernel.calls then .writing else .waiting }) := by
  simp only [advance, reads]

omit [Inhabited α] in
theorem Kernel.Run.takeResult (run : kernel.Run block)
    (small : tid < 2 ^ kernel.logThreads) (waits : (block.threads tid).stage = .waiting)
    (runs : (block.threads tid).call < kernel.calls)
    (last : (block.threads tid).round = kernel.logThreads)
    (complete : kernel.Complete block (block.threads tid)) : ∃ after, kernel.Run after ∧
      (∀ other, other ≠ tid → after.threads other = block.threads other) ∧
      after.threads tid =
        { call := (block.threads tid).call + 1
          round := 0
          stage := if (block.threads tid).call + 1 < kernel.calls then .writing else .waiting
          results := (block.threads tid).results ++
            [block.scratch (kernel.array (block.threads tid).call) 0]
          passed := (block.threads tid).passed } := by
  have past : kernel.next tid (block.threads tid) =
      { block.threads tid with call := (block.threads tid).call + 1, round := 0, stage := .reading } := by
    rw [next, if_neg (by omega)]
  have left : kernel.advance block tid =
      some (block.setThread tid (kernel.next tid (block.threads tid))) := by
    simp only [advance, waits]
    rw [if_pos ⟨runs, complete⟩]
  have reading : (block.setThread tid (kernel.next tid (block.threads tid))).threads tid =
      kernel.next tid (block.threads tid) := update_self _ _ _
  refine ⟨_, (run.step trivial ⟨small, left⟩).step trivial
    ⟨small, advance_reading _ _ (by rw [reading, past])⟩, fun other apart => ?_, ?_⟩
  · exact (update_of_ne apart _ _).trans (update_of_ne apart _ _)
  · refine (update_self _ _ _).trans ?_
    rw [reading, past]
    rfl

def Kernel.following (kernel : Kernel α) (call round : Nat) : Nat × Nat :=
  if round < kernel.logThreads then (call, round + 1) else (call + 1, 0)

omit [Inhabited α] in
theorem Kernel.Run.crossAll (run : kernel.Run block) {call round : Nat}
    (at_ : kernel.AtBarrier block call round) (runs : call < kernel.calls)
    (small : round ≤ kernel.logThreads) : ∃ after, kernel.Run after ∧
      kernel.AtBarrier after (kernel.following call round).1 (kernel.following call round).2 := by
  have goes : ∀ tid, ∀ thread : Thread α, thread.call = call → thread.round = round →
      (kernel.next tid thread).call = (kernel.following call round).1 ∧
      (kernel.next tid thread).round = (kernel.following call round).2 := by
    rintro tid thread rfl rfl
    unfold next following
    split <;> exact ⟨rfl, rfl⟩
  have further : call * (kernel.logThreads + 1) + round <
      (kernel.following call round).1 * (kernel.logThreads + 1) + (kernel.following call round).2 := by
    have one := @next_phase _ kernel ⟨call, round, .waiting, [], []⟩ 0 small
    have place := goes 0 ⟨call, round, .waiting, [], []⟩ rfl rfl
    simp only [phase, place] at one
    omega
  have each : ∀ count ≤ 2 ^ kernel.logThreads, ∃ after, kernel.Run after ∧
      ∀ tid < 2 ^ kernel.logThreads, (after.threads tid).stage = .waiting ∧
        if tid < count then (after.threads tid).call = (kernel.following call round).1 ∧
          (after.threads tid).round = (kernel.following call round).2
        else (after.threads tid).call = call ∧ (after.threads tid).round = round := by
    intro count
    induction count with
    | zero => exact fun _ => ⟨block, run, fun tid inside => by simpa using at_ tid inside⟩
    | succ count ih =>
      intro inside
      obtain ⟨between, reached, placed⟩ := ih (by omega)
      have mine := placed count inside
      rw [if_neg (lt_irrefl _)] at mine
      obtain ⟨next, next'⟩ := goes count _ mine.2.1 mine.2.2
      have complete : kernel.Complete between (between.threads count) := by
        intro other below
        have theirs := placed other below
        unfold phase
        rw [mine.2.1, mine.2.2]
        split at theirs
        · exact .inl (by rw [theirs.2.1, theirs.2.2]; exact further)
        · exact .inr ⟨by rw [theirs.2.1, theirs.2.2], by rw [theirs.1]; rfl⟩
      obtain ⟨after, reached, others, waits, call_, round_⟩ :=
        reached.cross inside mine.1 (mine.2.1 ▸ runs) complete
      refine ⟨after, reached, fun tid below => ?_⟩
      by_cases here : tid = count
      · rw [here, if_pos (lt_succ_self _)]
        exact ⟨waits, call_.trans next, round_.trans next'⟩
      · have theirs := placed tid below
        rw [others tid here]
        split at theirs <;> split <;> first | exact theirs | omega
  obtain ⟨after, reached, placed⟩ := each _ (le_refl _)
  refine ⟨after, reached, fun tid below => ?_⟩
  have there := placed tid below
  rwa [if_pos below] at there

omit [Inhabited α] in
theorem Kernel.reaches_barrier (kernel : Kernel α) (scratch : Nat → Nat → α) (call round : Nat)
    (runs : call < kernel.calls) (small : round ≤ kernel.logThreads) :
    ∃ after, kernel.Run after ∧ kernel.AtBarrier after call round := by
  have begun : ∀ count ≤ 2 ^ kernel.logThreads, ∃ after, kernel.Run after ∧ ∀ tid,
      (after.threads tid).call = 0 ∧ (after.threads tid).round = 0 ∧
        (tid < count → (after.threads tid).stage = .waiting) := by
    intro count
    induction count with
    | zero => exact fun _ => ⟨⟨scratch, fun _ => start⟩, .initial fun _ => rfl, fun _ =>
      ⟨rfl, rfl, fun below => absurd below (not_lt_zero _)⟩⟩
    | succ count ih =>
      intro inside
      obtain ⟨between, reached, placed⟩ := ih (by omega)
      obtain ⟨after, reached, moved, settled⟩ := reached.settle inside
      refine ⟨after, reached, fun tid => ?_⟩
      by_cases here : tid = count
      · subst here
        rw [moved.call, moved.round]
        exact ⟨(placed tid).1, (placed tid).2.1, fun _ => waiting_of_rank settled⟩
      · rw [moved.others tid here]
        exact ⟨(placed tid).1, (placed tid).2.1, fun below => (placed tid).2.2 (by omega)⟩
  induction call generalizing round with
  | zero =>
    induction round with
    | zero =>
      obtain ⟨after, reached, placed⟩ := begun _ (le_refl _)
      exact ⟨after, reached, fun tid below =>
        ⟨(placed tid).2.2 below, (placed tid).1, (placed tid).2.1⟩⟩
    | succ round ih =>
      obtain ⟨between, reached, placed⟩ := ih (by omega)
      simpa [following, lt_of_succ_le small] using reached.crossAll placed runs (by omega)
  | succ call ih =>
    induction round with
    | zero =>
      obtain ⟨between, reached, placed⟩ := ih kernel.logThreads (by omega) (le_refl _)
      simpa [following] using reached.crossAll placed (by omega) (le_refl _)
    | succ round ih =>
      obtain ⟨between, reached, placed⟩ := ih (by omega)
      simpa [following, lt_of_succ_le small] using reached.crossAll placed runs (by omega)

end Proofs

end BlockReduction
