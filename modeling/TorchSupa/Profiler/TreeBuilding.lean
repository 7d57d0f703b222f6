import TorchSupa.Profiler.OpenFrames
import Mathlib.Data.List.MinMax
import Mathlib.Tactic.IntervalCases

/-!
`build_tree` on a trace: the stacks hold the open events of each thread over the frame left on it,
so every event is put under its `builtParent`.
-/

namespace TorchSupa.Profiler.CallTree

open ParentLinks Function List Nat

section Marking

variable (lib : Library) {results : Nat → Result} {event frame : Nat}

def finishAll (list : List Nat) (results : Nat → Result) : Nat → Result := fun event =>
  { results event with finished := decide (event ∈ list) || (results event).finished }

@[simp]
theorem finishAll_parent (list : List Nat) (event : Nat) :
    (finishAll list results event).parent = (results event).parent := rfl

@[simp]
theorem finishAll_children (list : List Nat) (event : Nat) :
    (finishAll list results event).children = (results event).children := rfl

@[simp]
theorem finishAll_startTimeNS (list : List Nat) (event : Nat) :
    (finishAll list results event).startTimeNS = (results event).startTimeNS := rfl

@[simp]
theorem finishAll_startTid (list : List Nat) (event : Nat) :
    (finishAll list results event).startTid = (results event).startTid := rfl

@[simp]
theorem finishAll_extraFields (list : List Nat) (event : Nat) :
    (finishAll list results event).extraFields = (results event).extraFields := rfl

@[simp]
theorem finishAll_finished (list : List Nat) (event : Nat) :
    (finishAll list results event).finished = true ↔
      event ∈ list ∨ (results event).finished = true := by
  simp [finishAll]

theorem finishAll_of_notMem {list : List Nat} (absent : event ∉ list) :
    finishAll list results event = results event := by
  simp [finishAll, absent]

theorem finishAll_nil : finishAll [] results = results := by
  funext event
  simp [finishAll]

theorem finishAll_finishAll (list more : List Nat) :
    finishAll list (finishAll more results) = finishAll (list ++ more) results := by
  funext event
  simp [finishAll, Bool.or_assoc]

theorem markFinished_ok (open' : (results event).finished = false) :
    markFinished lib event results = .ok (finishAll [event] results) := by
  have marked : update results event { results event with finished := true } =
      finishAll [event] results := by
    funext other
    by_cases same : other = event
    · subst same
      simp [finishAll]
    · simp [finishAll, same]
  have ends := lib.endTimeNS_finished (finishAll [event] results) event (by simp)
  simp only [markFinished, open', Bool.false_eq_true, ↓reduceIte, marked]
  rw [if_pos ends]

theorem closeFrames_ok {above below : List Nat} {base : Option Nat} {fuel : Nat}
    (linked : Linked (fun one => (results one).parent) (above ++ event :: below) (some frame) base)
    (unfinished : ∀ one ∈ above, (results one).finished = false) (distinct : above.Nodup)
    (absent : event ∉ above) (enough : above.length < fuel) :
    closeFrames lib event fuel frame results = .ok (finishAll above results) := by
  induction above generalizing fuel frame results with
  | nil =>
    obtain ⟨fuel, rfl⟩ := exists_eq_succ_of_ne_zero (ne_of_gt enough)
    have here : frame = event := Option.some.inj linked.1
    simp [closeFrames, here, finishAll_nil]
  | cons first rest ih =>
    obtain ⟨fuel, rfl⟩ := exists_eq_succ_of_ne_zero (ne_zero_of_lt enough)
    obtain rfl : frame = first := Option.some.inj linked.1
    have next : Linked (fun one => (results one).parent) (rest ++ event :: below)
      (results frame).parent base := linked.2
    have other : frame ≠ event := fun same => absent (same ▸ .head _)
    have distinct := nodup_cons.mp distinct
    have follows := next.top_eq
    simp only [closeFrames, other, ↓reduceIte, markFinished_ok lib (unfinished frame (.head _))]
    simp only [bind, Except.bind, finishAll_parent]
    obtain ⟨second, goes⟩ : ∃ second, (results frame).parent = some second := by
      rw [follows]
      cases rest <;> simp
    rw [goes]
    rw [goes] at next
    have still : ∀ one ∈ rest, (finishAll [frame] results one).finished = false := by
      intro one there
      have apart : one ≠ frame := fun same => distinct.1 (same ▸ there)
      simpa [finishAll, apart] using unfinished one (.tail _ there)
    have led : Linked (fun one => (finishAll [frame] results one).parent)
        (rest ++ event :: below) (some second) base := by
      simpa using next
    have rest_ok := ih led still distinct.2 (fun there => absent (.tail _ there))
      (lt_of_succ_lt_succ enough)
    refine rest_ok.trans (congrArg Except.ok ?_)
    rw [finishAll_finishAll]
    funext one
    simp [finishAll, or_comm]

theorem popEvent_ok {tree : Tree} {above below : List Nat} {base : Option Nat}
    (unfinished : ∀ one ∈ event :: above, (tree.results one).finished = false)
    (falling : (above ++ event :: below).Pairwise (· > ·))
    (linked : Linked (fun one => (tree.results one).parent) (above ++ event :: below)
      (tree.threadStacks (tree.results event).startTid) base) :
    popEvent lib event tree = .ok ⟨finishAll (event :: above) tree.results,
      update tree.threadStacks (tree.results event).startTid (tree.results event).parent,
      tree.endEvents⟩ := by
  have higher : ∀ one ∈ above, event < one := fun one there =>
    (pairwise_append.mp falling).2.2 one there event (.head _)
  have absent : event ∉ above := fun there => lt_irrefl _ (higher event there)
  have distinct : above.Nodup := (pairwise_append.mp falling).1.imp fun more => ne_of_gt more
  obtain ⟨frame, held, enough⟩ : ∃ frame,
      tree.threadStacks (tree.results event).startTid = some frame ∧ above.length < frame + 1 := by
    cases above with
    | nil => exact ⟨event, linked.1, succ_pos _⟩
    | cons first rest =>
      refine ⟨first, linked.1, ?_⟩
      have short := length_le_of_falling falling
      simp only [append_eq, length_append, length_cons] at short ⊢
      omega
  have closed := closeFrames_ok lib (held ▸ linked)
    (fun one there => unfinished one (.tail _ there)) distinct absent enough
  have open' : (finishAll above tree.results event).finished = false := by
    simp [finishAll, absent, unfinished event (.head _)]
  have marked := markFinished_ok lib open'
  simp only [popEvent, unfinished event (.head _), Bool.false_eq_true, ↓reduceIte, held, closed,
    bind, Except.bind, marked, finishAll_finishAll, finishAll_parent]
  cases (tree.results event).parent with
  | none => rfl
  | some next => simp [update_idem]

end Marking

section Standing

variable (lib : Library) (events : Nat → Result)

structure Stored (pushed : Nat) (results : Nat → Result) : Prop where
  startTimeNS : ∀ i, (results i).startTimeNS = (events i).startTimeNS
  startTid : ∀ i, (results i).startTid = (events i).startTid
  extraFields : ∀ i, (results i).extraFields = (events i).extraFields.setInTreeBuilding true
  ahead : ∀ i, pushed ≤ i → (results i).finished = (events i).finished ∧
    (results i).parent = (events i).parent ∧ (results i).children = (events i).children
  stays : ∀ i, (events i).finished = true → (results i).finished = true
  parents : ∀ i < pushed, ¬Ignored events i → (results i).parent = builtParent lib events i

structure Standing (passed : Int → Prop) (pushed : Nat) (tree : Tree) (own : Nat → List Nat) :
    Prop extends Stored lib events pushed tree.results where
  linked : ∀ thread, Linked (fun one => (tree.results one).parent) (own thread)
    (tree.threadStacks thread) (leftover lib events pushed thread)
  falling : ∀ thread, (own thread).Pairwise (· > ·)
  mem_own : ∀ thread i, i ∈ own thread ↔ i < pushed ∧ Opens lib events i ∧
    (events i).startTid = thread ∧ (tree.results i).finished = false
  inside : ∀ thread, ∀ i ∈ own thread, ∀ outer, Encloses lib events outer i → outer ∈ own thread
  closed : ∀ i < pushed, ¬Opens lib events i → (tree.results i).finished = true
  whenOver : ∀ i < pushed, Opens lib events i → (tree.results i).finished = true →
    Over lib events passed i
  queued : ∀ i ∈ tree.endEvents, i < pushed ∧ Lasts lib events i
  waiting : ∀ i < pushed, Lasts lib events i → (tree.results i).finished = false →
    i ∈ tree.endEvents
  reaches : ∀ i ∈ tree.endEvents, ∀ j < pushed, (events j).startTimeNS ≤ ending lib events i

variable {lib events} {passed : Int → Prop} {count pushed : Nat} {tree : Tree}
  {own : Nat → List Nat}

variable {event : Nat} {before : Option Int} {wider : Int → Prop}

theorem Lasts.opens (lasts : Lasts lib events event) : Opens lib events event :=
  ⟨lasts.1, .inl lasts.2⟩

theorem Opens.lasts (opens : Opens lib events event)
    (ends : ending lib events event ≠ noEnd) : Lasts lib events event :=
  ⟨opens.1, opens.2.resolve_right ends⟩

theorem Standing.endTimeNS (standing : Standing lib events passed pushed tree own)
    (known : (tree.results event).finished = false ∨ Lasts lib events event) :
    lib.endTimeNS tree.results event = ending lib events event := by
  have recorded : lib.recordedEnd (tree.results event).startTimeNS (tree.results event).extraFields
      = ending lib events event := by
    rw [standing.startTimeNS, standing.extraFields, ending]
  rcases known with unfinished | lasts
  · rw [lib.endTimeNS_unfinished _ _ unfinished, recorded]
  · rw [lib.endTimeNS_valid, recorded]
    rw [recorded, standing.startTimeNS]
    exact Int.le_of_lt lasts.2

theorem over_above (traced : Traced lib events count) {i : Nat} (below : i < count)
    (after : event < i) (lasts : Lasts lib events event)
    (same : (events event).startTid = (events i).startTid)
    (reached : (events i).startTimeNS ≤ ending lib events event)
    (closer : ∀ finish ≤ ending lib events event, passed finish) : Over lib events passed i := by
  have encloses : Encloses lib events event i := ⟨after, lasts, same, reached⟩
  unfold Over
  by_cases ends : Lasts lib events i
  · rw [if_pos ends]
    exact closer _ (traced.nested event i below encloses ends)
  · rw [if_neg ends]
    exact ⟨event, after, encloses, closer _ (Int.le_refl _)⟩

theorem Standing.pop (traced : Traced lib events count) (inside : pushed ≤ count)
    (standing : Standing lib events passed pushed tree own)
    (there : event ∈ tree.endEvents)
    (closer : ∀ finish ≤ ending lib events event, passed finish) :
    ∃ popped, popEvent lib event tree = .ok popped ∧ popped.endEvents = tree.endEvents ∧
      ∃ rest, Standing lib events passed pushed
        { popped with endEvents := tree.endEvents.erase event } rest := by
  obtain ⟨earlier, lasts⟩ := standing.queued event there
  have fewer : ∀ i ∈ tree.endEvents.erase event, i ∈ tree.endEvents :=
    fun i there => mem_of_mem_erase there
  cases done : (tree.results event).finished with
  | true =>
    refine ⟨tree, by simp [popEvent, done], rfl, own, ?_⟩
    exact { standing with
      queued := fun i there => standing.queued i (fewer i there)
      waiting := fun i before lasts unfinished => by
        apply (mem_erase_of_ne _).mpr (standing.waiting i before lasts unfinished)
        rintro rfl
        simp [done] at unfinished
      reaches := fun i there => standing.reaches i (fewer i there) }
  | false =>
    have mine : event ∈ own (events event).startTid :=
      (standing.mem_own _ _).mpr ⟨earlier, lasts.opens, rfl, done⟩
    obtain ⟨above, below, split⟩ := append_of_mem mine
    have falling := standing.falling (events event).startTid
    have linked := standing.linked (events event).startTid
    have member := standing.mem_own (events event).startTid
    rw [split] at falling linked member
    have higher : ∀ one ∈ above, event < one := fun one there =>
      (pairwise_append.mp falling).2.2 one there event (.head _)
    have lower := pairwise_cons.mp (pairwise_append.mp falling).2.1
    have unfinished : ∀ one ∈ event :: above, (tree.results one).finished = false := by
      intro one there
      apply ((member one).mp _).2.2.2
      rcases mem_cons.mp there with rfl | there
      · exact mem_append_right _ (.head _)
      · exact mem_append_left _ there
    have popped := popEvent_ok lib unfinished falling (standing.startTid event ▸ linked)
    rw [standing.startTid] at popped
    refine ⟨_, popped, rfl, update own (events event).startTid below, ?_⟩
    have gone : ∀ one ∈ event :: above, one < pushed ∧ Opens lib events one ∧
        (events one).startTid = (events event).startTid := by
      intro one there
      have facts := (member one).mp (by
        rcases mem_cons.mp there with rfl | there
        · exact mem_append_right _ (.head _)
        · exact mem_append_left _ there)
      exact ⟨facts.1, facts.2.1, facts.2.2.1⟩
    have left : ∀ one ∈ below, one ∉ event :: above := by
      intro one there raised
      have lesser := lower.1 one there
      rcases mem_cons.mp raised with rfl | raised
      · omega
      · have := higher one raised
        omega
    exact {
      startTimeNS := fun i => by simp [standing.startTimeNS]
      startTid := fun i => by simp [standing.startTid]
      extraFields := fun i => by simp [standing.extraFields]
      ahead := fun i later => by
        have apart : i ∉ event :: above := fun there => by
          have := (gone i there).1
          omega
        have same : finishAll (event :: above) tree.results i = tree.results i :=
          finishAll_of_notMem apart
        simpa only [same] using standing.ahead i later
      stays := fun i was => by simp [standing.stays i was]
      parents := fun i before considered => by simpa using standing.parents i before considered
      linked := fun thread => by
        apply Linked.congr (fun one _ => (finishAll_parent (event :: above) one).symm)
        by_cases same : thread = (events event).startTid
        · subst same
          simpa using linked.drop
        · simpa [same] using standing.linked thread
      falling := fun thread => by
        by_cases same : thread = (events event).startTid
        · subst same
          simpa using lower.2
        · simpa [same] using standing.falling thread
      mem_own := fun thread i => by
        by_cases same : thread = (events event).startTid
        · subst same
          have known := member i
          have apart := left i
          simp only [mem_append, mem_cons] at known apart
          simp only [update_self, ← Bool.not_eq_true, finishAll_finished, mem_cons] at known ⊢
          tauto
        · have known := standing.mem_own thread i
          have apart : (events i).startTid = thread → i ∉ event :: above :=
            fun mine there => same (mine ▸ (gone i there).2.2)
          simp only [← Bool.not_eq_true] at known
          simp only [update_of_ne same, known, ← Bool.not_eq_true, finishAll_finished]
          tauto
      inside := fun thread i there outer encloses => by
        by_cases same : thread = (events event).startTid
        · subst same
          simp only [update_self] at there ⊢
          have was := standing.inside (events event).startTid i
            (by simp [split, there]) outer encloses
          rw [split] at was
          have lesser := lower.1 i there
          have first := encloses.1
          rcases mem_append.mp was with raised | was
          · have := higher outer raised
            omega
          · rcases mem_cons.mp was with rfl | was
            · omega
            · exact was
        · simp only [update_of_ne same] at there ⊢
          exact standing.inside thread i there outer encloses
      closed := fun i before never => by simp [standing.closed i before never]
      whenOver := fun i before opens finished => by
        rcases (finishAll_finished _ i).mp finished with there | finished
        · rcases mem_cons.mp there with rfl | raised
          · unfold Over
            rw [if_pos lasts]
            exact closer _ (Int.le_refl _)
          · exact over_above traced (by omega) (higher i raised) lasts (gone i there).2.2.symm
              (standing.reaches event ‹_› i before) closer
        · exact standing.whenOver i before opens finished
      queued := fun i there => standing.queued i (fewer i there)
      waiting := fun i before lasts unfinished => by
        simp only [← Bool.not_eq_true, finishAll_finished] at unfinished
        apply (mem_erase_of_ne _).mpr
          (standing.waiting i before lasts (by simpa using fun was => unfinished (.inr was)))
        rintro rfl
        exact unfinished (.inl (.head _))
      reaches := fun i there => standing.reaches i (fewer i there) }

def Passed (before : Option Int) (finish : Int) : Prop :=
  ∀ start ∈ before, finish < start

instance (before : Option Int) : DecidablePred (Passed before) := fun finish => by
  unfold Passed; infer_instance

theorem Passed.earlier {finish sooner : Int} (passed : Passed before finish)
    (le : sooner ≤ finish) : Passed before sooner :=
  fun start there => Int.lt_of_le_of_lt le (passed start there)

theorem Over.imp (weaker : ∀ finish, passed finish → wider finish)
    (holds : Over lib events passed event) : Over lib events wider event := by
  unfold Over at holds ⊢
  split at holds
  · next lasts =>
      rw [if_pos lasts]
      exact weaker _ holds
  · next endless =>
      rw [if_neg endless]
      obtain ⟨outer, before, encloses, past⟩ := holds
      exact ⟨outer, before, encloses, weaker _ past⟩

theorem Standing.imp (weaker : ∀ finish, passed finish → wider finish)
    (standing : Standing lib events passed pushed tree own) :
    Standing lib events wider pushed tree own :=
  { standing with
    whenOver := fun i before opens finished => (standing.whenOver i before opens finished).imp weaker }

theorem Standing.popEvents (traced : Traced lib events count) (inside : pushed ≤ count) {fuel : Nat}
    (enough : tree.endEvents.length < fuel)
    (standing : Standing lib events (Passed before) pushed tree own) :
    ∃ popped rest, popEvents lib before fuel tree = .ok popped ∧
      Standing lib events (Passed before) pushed popped rest ∧
      ∀ i ∈ popped.endEvents, ¬Passed before (ending lib events i) := by
  induction fuel generalizing tree own with
  | zero => omega
  | succ fuel ih =>
    simp only [CallTree.popEvents]
    cases chosen : lib.top (lib.endTimeNS tree.results) tree.endEvents with
    | none =>
      refine ⟨tree, own, rfl, standing, ?_⟩
      simp [lib.top_none _ _ chosen]
    | some event =>
      obtain ⟨there, least⟩ := lib.top_least _ _ _ chosen
      have lasts (i : Nat) (queued : i ∈ tree.endEvents) :=
        standing.endTimeNS (.inr (standing.queued i queued).2)
      by_cases passes : Passed before (ending lib events event)
      · have reached : ∀ start ∈ before, lib.endTimeNS tree.results event < start := by
          rw [lasts event there]
          exact passes
        obtain ⟨popped, pops, queue, rest, after⟩ :=
          standing.pop traced inside there fun finish le => passes.earlier le
        have shorter : (tree.endEvents.erase event).length < fuel := by
          have := length_erase_of_mem there
          have := length_pos_of_mem there
          omega
        obtain ⟨last, frames, ends, stands, none'⟩ := ih shorter after
        refine ⟨last, frames, (if_pos reached).trans ?_, stands, none'⟩
        simpa only [bind, Except.bind, pops, queue] using ends
      · have stopped : ¬∀ start ∈ before, lib.endTimeNS tree.results event < start := by
          rw [lasts event there]
          exact passes
        refine ⟨tree, own, if_neg stopped, standing, ?_⟩
        intro i queued passed
        have le := least i queued
        rw [lasts event there, lasts i queued] at le
        exact passes (passed.earlier le)

section Pushing

variable {time : Int} {i : Nat}

theorem Standing.mem_own_iff_open
    (standing : Standing lib events (Passed (some time)) pushed tree own)
    (current : ∀ i ∈ tree.endEvents, ¬Passed (some time) (ending lib events i)) (thread j : Nat) :
    j ∈ own thread ↔ j < pushed ∧ Open lib events thread time j := by
  have later (k : Nat) (before : k < pushed) (lasts : Lasts lib events k)
      (unfinished : (tree.results k).finished = false) : ¬ending lib events k < time := by
    simpa [Passed] using current k (standing.waiting k before lasts unfinished)
  rw [standing.mem_own]
  constructor
  · rintro ⟨before, opens, mine, unfinished⟩
    refine ⟨before, opens, mine, ?_⟩
    unfold Over
    split
    · next lasts => exact later j before lasts unfinished
    · rintro ⟨outer, _, encloses, past⟩
      have there := standing.inside thread j
        ((standing.mem_own thread j).mpr ⟨before, opens, mine, unfinished⟩) outer encloses
      have facts := (standing.mem_own thread outer).mp there
      exact later outer facts.1 encloses.2.1 facts.2.2.2 past
  · rintro ⟨before, opens, mine, lasting⟩
    refine ⟨before, opens, mine, ?_⟩
    by_contra finished
    apply lasting
    apply (standing.whenOver j before opens (by simpa using finished)).imp
    simp [Passed]

section

variable (standing : Standing lib events (Passed (some (events i).startTimeNS)) i tree own)
  (current : ∀ k ∈ tree.endEvents, ¬Passed (some (events i).startTimeNS) (ending lib events k))
include standing current

theorem Standing.head?_own (thread : Nat) : (own thread).head? = innermost lib events i thread := by
  apply head?_of_falling (standing.falling thread)
  intro j
  rw [standing.mem_own_iff_open current, decide_eq_true_eq]

theorem Standing.findParent_eq :
    findParent (tree.results i) tree.threadStacks = builtParent lib events i := by
  have stack (thread : Nat) :
      tree.threadStacks thread = frameOf lib events (leftover lib events i) i thread := by
    rw [(standing.linked thread).top_eq, standing.head?_own current, frameOf]
  have forward : (tree.results i).extraFields.forwardTid = (events i).extraFields.forwardTid := by
    rw [standing.extraFields]
    cases (events i).extraFields <;> rfl
  unfold findParent builtParent attached
  rw [stack, stack, standing.startTid, forward]
  cases frameOf lib events (leftover lib events i) i (events i).startTid <;> rfl

end

theorem innermost_lt {event thread frame : Nat}
    (found : innermost lib events event thread = some frame) : frame < event := by
  simpa using mem_of_find?_eq_some found

theorem attached_lt {left : Nat → Option Nat} {event frame : Nat}
    (older : ∀ thread frame, left thread = some frame → frame < event)
    (found : attached lib events left event = some frame) : frame < event := by
  have held (thread : Nat) (there : frameOf lib events left event thread = some frame) :
      frame < event := by
    rcases Option.or_eq_some_iff.mp there with inner | ⟨_, kept⟩
    · exact innermost_lt inner
    · exact older thread frame kept
  rcases Option.or_eq_some_iff.mp found with mine | ⟨_, forward⟩
  · exact held _ mine
  · split at forward
    · exact held _ forward
    · cases forward

theorem leftover_lt {event thread frame : Nat}
    (found : leftover lib events event thread = some frame) : frame < event := by
  induction event generalizing thread frame with
  | zero => cases found
  | succ event ih =>
    simp only [leftover] at found
    split at found
    · exact lt_succ_of_lt (attached_lt (fun _ _ => ih) found)
    · exact lt_succ_of_lt (ih found)

theorem builtParent_lt {event frame : Nat} (found : builtParent lib events event = some frame) :
    frame < event :=
  attached_lt (fun _ _ => leftover_lt) found

structure Grown (lib : Library) (events : Nat → Result) (i : Nat)
    (results next : Nat → Result) : Prop where
  startTimeNS : ∀ j, (next j).startTimeNS = (results j).startTimeNS
  startTid : ∀ j, (next j).startTid = (results j).startTid
  extraFields : ∀ j, (next j).extraFields = (results j).extraFields
  finished : ∀ j, j ≠ i → (next j).finished = (results j).finished
  stays : (results i).finished = true → (next i).finished = true
  parent : ∀ j, j ≠ i → (next j).parent = (results j).parent
  children : ∀ j, i < j → (next j).children = (results j).children
  built : ¬Ignored events i → (next i).parent = builtParent lib events i

variable {results next : Nat → Result}

theorem Stored.grow (stored : Stored lib events i results) (grown : Grown lib events i results next) :
    Stored lib events (i + 1) next where
  startTimeNS j := by rw [grown.startTimeNS, stored.startTimeNS]
  startTid j := by rw [grown.startTid, stored.startTid]
  extraFields j := by rw [grown.extraFields, stored.extraFields]
  ahead j later := by
    rw [grown.finished j (by omega), grown.parent j (by omega), grown.children j (by omega)]
    exact stored.ahead j (by omega)
  stays j was := by
    by_cases here : j = i
    · subst here
      exact grown.stays (stored.stays j was)
    · rw [grown.finished j here]
      exact stored.stays j was
  parents j before considered := by
    by_cases here : j = i
    · subst here
      exact grown.built considered
    · rw [grown.parent j here]
      exact stored.parents j (by omega) considered

theorem Standing.linked_grown (standing : Standing lib events passed i tree own)
    (grown : Grown lib events i tree.results next) (thread : Nat) :
    Linked (fun one => (next one).parent) (own thread) (tree.threadStacks thread)
      (leftover lib events i thread) := by
  apply (standing.linked thread).congr
  intro one there
  have before := ((standing.mem_own thread one).mp there).1
  exact (grown.parent one (by omega)).symm

theorem Standing.unopened (standing : Standing lib events passed i tree own)
    (grown : Grown lib events i tree.results next) (never : ¬Opens lib events i)
    (finished : (next i).finished = true)
    (reached : ∀ k ∈ tree.endEvents, (events i).startTimeNS ≤ ending lib events k) :
    Standing lib events passed (i + 1) ⟨next, tree.threadStacks, tree.endEvents⟩ own where
  toStored := standing.toStored.grow grown
  linked thread := by
    have closed : ¬Bottom lib events i thread := fun bottom => never bottom.1
    simpa only [leftover, closed, ↓reduceIte] using standing.linked_grown grown thread
  falling := standing.falling
  mem_own thread j := by
    rw [standing.mem_own]
    by_cases here : j = i
    · subst here
      simp [never]
    · rw [grown.finished j here]
      have same : j < i + 1 ↔ j < i := by omega
      rw [same]
  inside := standing.inside
  closed j before opens := by
    by_cases here : j = i
    · rw [here, finished]
    · rw [grown.finished j here]
      exact standing.closed j (by omega) opens
  whenOver j before opens finished := by
    have apart : j ≠ i := fun here => never (here ▸ opens)
    rw [grown.finished j apart] at finished
    exact standing.whenOver j (by omega) opens finished
  queued j there := by
    obtain ⟨before, lasts⟩ := standing.queued j there
    exact ⟨by omega, lasts⟩
  waiting j before lasts unfinished := by
    have apart : j ≠ i := fun here => never (here ▸ lasts.opens)
    rw [grown.finished j apart] at unfinished
    exact standing.waiting j (by omega) lasts unfinished
  reaches k there j before := by
    by_cases here : j = i
    · rw [here]
      exact reached k there
    · exact standing.reaches k there j (by omega)

theorem Standing.opened (queue : List Nat)
    (standing : Standing lib events (Passed (some (events i).startTimeNS)) i tree own)
    (current : ∀ k ∈ tree.endEvents, ¬Passed (some (events i).startTimeNS) (ending lib events k))
    (grown : Grown lib events i tree.results next) (opens : Opens lib events i)
    (unfinished : (next i).finished = false)
    (pushed : ∀ k, k ∈ queue ↔ k ∈ tree.endEvents ∨ k = i ∧ Lasts lib events i)
    (sorted : ∀ j ≤ i, (events j).startTimeNS ≤ (events i).startTimeNS) :
    ∃ frames, Standing lib events (Passed (some (events i).startTimeNS)) (i + 1)
      ⟨next, update tree.threadStacks (events i).startTid (some i), queue⟩ frames := by
  have before (thread : Nat) : ∀ one ∈ own thread, one < i :=
    fun one there => ((standing.mem_own thread one).mp there).1
  refine ⟨update own (events i).startTid (i :: own (events i).startTid), ?_⟩
  exact {
    toStored := standing.toStored.grow grown
    linked := fun thread => by
      have linked := standing.linked_grown grown thread
      by_cases same : thread = (events i).startTid
      · subst same
        have head := standing.head?_own current (events i).startTid
        have parent := grown.built opens.1
        simp only [update_self]
        refine ⟨rfl, ?_⟩
        simp only [parent]
        cases held : own (events i).startTid with
        | nil =>
          have bottom : Bottom lib events i (events i).startTid :=
            ⟨opens, rfl, by rw [← head, held]; rfl⟩
          simp only [Linked, leftover, bottom, ↓reduceIte, builtParent]
        | cons first rest =>
          rw [held] at head linked
          have shut : ¬Bottom lib events i (events i).startTid := fun bottom => by
            have nothing := bottom.2.2
            simp [← head] at nothing
          have under : builtParent lib events i = some first := by
            simp [builtParent, attached, frameOf, ← head]
          simp only [leftover, shut, ↓reduceIte]
          exact ⟨under, linked.2⟩
      · have shut : ¬Bottom lib events i thread := fun bottom => same bottom.2.1.symm
        simpa [leftover, shut, same] using linked
    falling := fun thread => by
      by_cases same : thread = (events i).startTid
      · subst same
        simpa using ⟨before _, standing.falling _⟩
      · simpa [same] using standing.falling thread
    mem_own := fun thread j => by
      by_cases here : j = i
      · subst here
        by_cases same : thread = (events j).startTid
        · simp [same, opens, unfinished]
        · have absent : j ∉ own thread := fun there => lt_irrefl _ (before thread j there)
          simp [same, absent, Ne.symm same]
      · have earlier : j < i + 1 ↔ j < i := by omega
        rw [grown.finished j here, earlier, ← standing.mem_own]
        by_cases same : thread = (events i).startTid
        · subst same
          simp [here]
        · simp [same]
    inside := fun thread j there outer encloses => by
      have first := encloses.1
      by_cases same : thread = (events i).startTid
      · subst same
        simp only [update_self, mem_cons] at there ⊢
        right
        rcases there with rfl | there
        · apply (standing.mem_own _ _).mpr
          refine ⟨first, encloses.2.1.opens, encloses.2.2.1, ?_⟩
          -- Had it been popped, its end time would have passed.
          by_contra finished
          have past := standing.whenOver outer first encloses.2.1.opens (by simpa using finished)
          rw [Over, if_pos encloses.2.1] at past
          have past : ending lib events outer < (events j).startTimeNS := by
            simpa [Passed] using past
          have reach := encloses.2.2.2
          omega
        · exact standing.inside _ j there outer encloses
      · simp only [update_of_ne same] at there ⊢
        exact standing.inside thread j there outer encloses
    closed := fun j earlier never => by
      have apart : j ≠ i := fun here => never (here ▸ opens)
      rw [grown.finished j apart]
      exact standing.closed j (by omega) never
    whenOver := fun j earlier opens finished => by
      have apart : j ≠ i := fun here => by simp [here, unfinished] at finished
      rw [grown.finished j apart] at finished
      exact standing.whenOver j (by omega) opens finished
    queued := fun j there => by
      rcases (pushed j).mp there with there | ⟨rfl, lasts⟩
      · obtain ⟨earlier, lasts⟩ := standing.queued j there
        exact ⟨by omega, lasts⟩
      · exact ⟨by omega, lasts⟩
    waiting := fun j earlier lasts open' => by
      apply (pushed j).mpr
      by_cases here : j = i
      · exact .inr ⟨here, here ▸ lasts⟩
      · rw [grown.finished j here] at open'
        exact .inl (standing.waiting j (by omega) lasts open')
    reaches := fun k there j earlier => by
      have early := sorted j (by omega)
      rcases (pushed k).mp there with there | ⟨rfl, lasts⟩
      · have later := current k there
        simp [Passed] at later
        omega
      · have := lasts.2
        omega }

variable (i results) in
theorem attach_keeps (parent : Option Nat) (j : Nat) : ∃ up down,
    attach i parent results j = { results j with parent := up, children := down } := by
  cases parent with
  | none => exact ⟨(results j).parent, (results j).children, rfl⟩
  | some frame =>
    simp only [attach, update_apply]
    split
    · next here =>
        subst here
        split
        · next same => exact ⟨some j, (results j).children ++ [i], by rw [same]⟩
        · exact ⟨(results j).parent, (results j).children ++ [i], rfl⟩
    · split
      · next here => exact ⟨some frame, (results j).children, by rw [here]⟩
      · exact ⟨(results j).parent, (results j).children, rfl⟩

theorem attach_finished (parent : Option Nat) (j : Nat) :
    (attach i parent results j).finished = (results j).finished := by
  obtain ⟨up, down, same⟩ := attach_keeps i results parent j
  rw [same]

variable (lib events) in
theorem grown_attach (fresh : (results i).parent = none) :
    Grown lib events i results (attach i (builtParent lib events i) results) where
  startTimeNS j := by
    obtain ⟨up, down, same⟩ := attach_keeps i results (builtParent lib events i) j
    rw [same]
  startTid j := by
    obtain ⟨up, down, same⟩ := attach_keeps i results (builtParent lib events i) j
    rw [same]
  extraFields j := by
    obtain ⟨up, down, same⟩ := attach_keeps i results (builtParent lib events i) j
    rw [same]
  finished j _ := attach_finished _ j
  stays was := by rw [attach_finished, was]
  parent j apart := by
    cases built : builtParent lib events i with
    | none => rfl
    | some frame =>
      simp only [attach, update_apply, apart, ↓reduceIte]
      split
      · next here => simp [here ▸ apart, here]
      · rfl
  children j later := by
    cases built : builtParent lib events i with
    | none => rfl
    | some frame =>
      have under := builtParent_lt built
      have apart : j ≠ frame := by omega
      have other : j ≠ i := by omega
      simp [attach, apart, other]
  built _ := by
    cases built : builtParent lib events i with
    | none => exact fresh
    | some frame =>
      have under := builtParent_lt built
      have apart : i ≠ frame := by omega
      simp [attach, apart]

theorem Standing.push (traced : Traced lib events count) (below : i < count)
    (standing : Standing lib events (Passed (some (events i).startTimeNS)) i tree own)
    (current : ∀ k ∈ tree.endEvents, ¬Passed (some (events i).startTimeNS) (ending lib events k)) :
    ∃ next frames, pushEvent lib i tree = .ok next ∧
      Standing lib events (Passed (some (events i).startTimeNS)) (i + 1) next frames := by
  obtain ⟨finishedAhead, parentAhead, childrenAhead⟩ := standing.ahead i (le_refl i)
  have kind : (tree.results i).extraFields.isKineto = (events i).extraFields.isKineto := by
    rw [standing.extraFields]
    cases (events i).extraFields <;> rfl
  have sorted (j : Nat) (le : j ≤ i) := traced.sorted j i le below
  have reached : ∀ k ∈ tree.endEvents, (events i).startTimeNS ≤ ending lib events k := by
    intro k there
    simpa [Passed] using current k there
  by_cases ignored : Ignored events i
  · refine ⟨tree, own, by simp [pushEvent, kind, finishedAhead, ignored.1, ignored.2], ?_⟩
    have same : Grown lib events i tree.results tree.results :=
      ⟨fun _ => rfl, fun _ => rfl, fun _ => rfl, fun _ _ => rfl, id, fun _ _ => rfl,
        fun _ _ => rfl, fun considered => absurd ignored considered⟩
    exact standing.unopened same (fun opens => opens.1 ignored) (finishedAhead.trans ignored.2)
      reached
  · have unfinished := finishedAhead.trans (traced.unfinished i below ignored)
    have fresh := parentAhead.trans (traced.noParent i below ignored)
    have settled : ((tree.results i).children.any fun child => !(tree.results child).finished) =
        false := by
      rw [childrenAhead, any_eq_false]
      intro child there
      simp [standing.stays child (traced.children i below ignored child there)]
    have grown := grown_attach lib events fresh
    generalize attached' : attach i (builtParent lib events i) tree.results = next at grown
    have waits : (next i).finished = false := by
      rw [← attached', attach_finished, unfinished]
    have ends : lib.endTimeNS next i = ending lib events i := by
      rw [lib.endTimeNS_unfinished _ _ waits, grown.startTimeNS, grown.extraFields,
        standing.startTimeNS, standing.extraFields, ending]
    simp only [pushEvent, unfinished, fresh, settled, standing.findParent_eq current, attached',
      ends, grown.startTimeNS, standing.startTimeNS, standing.startTid, Bool.and_false,
      Bool.false_eq_true, Option.isSome_none, ↓reduceIte]
    by_cases lasts : ending lib events i > (events i).startTimeNS
    · obtain ⟨frames, stands⟩ := standing.opened (tree.endEvents ++ [i]) current grown
        ⟨ignored, .inl lasts⟩ waits (fun k => by
          simp only [mem_append, mem_singleton]
          constructor
          · rintro (there | rfl)
            · exact .inl there
            · exact .inr ⟨rfl, ignored, lasts⟩
          · rintro (there | ⟨rfl, _⟩)
            · exact .inl there
            · exact .inr rfl) sorted
      exact ⟨_, frames, if_pos lasts, stands⟩
    · by_cases endless : ending lib events i = noEnd
      · obtain ⟨frames, stands⟩ := standing.opened tree.endEvents current grown
          ⟨ignored, .inr endless⟩ waits (fun k => by
            constructor
            · exact .inl
            · rintro (there | ⟨rfl, opens⟩)
              · exact there
              · exact absurd opens.2 lasts) sorted
        exact ⟨_, frames, (if_neg lasts).trans (if_pos endless), stands⟩
      · have marked := markFinished_ok lib waits
        have never : ¬Opens lib events i := fun opens => opens.2.elim lasts endless
        have done : Grown lib events i tree.results (finishAll [i] next) := {
          startTimeNS := fun j => by simp [grown.startTimeNS]
          startTid := fun j => by simp [grown.startTid]
          extraFields := fun j => by simp [grown.extraFields]
          finished := fun j apart => by simp [finishAll, apart, grown.finished j apart]
          stays := fun _ => by simp
          parent := fun j apart => by simp [grown.parent j apart]
          children := fun j later => by simp [grown.children j later]
          built := fun considered => by simp [grown.built considered] }
        refine ⟨⟨finishAll [i] next, tree.threadStacks, tree.endEvents⟩, own, ?_, ?_⟩
        · rw [if_neg lasts, if_neg endless, marked]
          rfl
        · exact standing.unopened done never (by simp) reached

end Pushing

theorem standing_start : Standing lib events passed 0
    ⟨setInTreeBuilding true events, fun _ => none, []⟩ fun _ => [] where
  startTimeNS _ := rfl
  startTid _ := rfl
  extraFields _ := rfl
  ahead _ _ := ⟨rfl, rfl, rfl⟩
  stays _ was := was
  parents _ before := absurd before (not_lt_zero _)
  linked _ := rfl
  falling _ := .nil
  mem_own _ _ := by simp
  inside _ _ there := absurd there not_mem_nil
  closed _ before := absurd before (not_lt_zero _)
  whenOver _ before := absurd before (not_lt_zero _)
  queued _ there := absurd there not_mem_nil
  waiting _ before := absurd before (not_lt_zero _)
  reaches _ there := absurd there not_mem_nil

theorem replay_ok (traced : Traced lib events count) (inside : pushed ≤ count) :
    ∃ tree own, (List.range pushed).foldlM (replay lib)
        ⟨setInTreeBuilding true events, fun _ => none, []⟩ = .ok tree ∧
      ∀ time, (∀ j < pushed, (events j).startTimeNS ≤ time) →
        Standing lib events (Passed (some time)) pushed tree own := by
  induction pushed with
  | zero => exact ⟨_, _, rfl, fun _ _ => standing_start⟩
  | succ i ih =>
    obtain ⟨tree, own, ran, stands⟩ := ih (by omega)
    have standing := stands (events i).startTimeNS
      fun j before => traced.sorted j i (by omega) (by omega)
    obtain ⟨popped, rest, pops, standing, current⟩ :=
      standing.popEvents traced (by omega) (lt_succ_self _)
    obtain ⟨next, frames, pushes, standing⟩ := standing.push traced (by omega) current
    refine ⟨next, frames, ?_, ?_⟩
    · have start := (stands (events i).startTimeNS
        fun j before => traced.sorted j i (by omega) (by omega)).startTimeNS i
      simp only [range_succ, foldlM_append, ran, bind, Except.bind, foldlM_cons,
        foldlM_nil, pure, Except.pure, replay, start, popAll, pops, pushes]
    · intro time latest
      apply standing.imp
      intro finish passed
      simp only [Passed, Option.mem_def, Option.some.injEq, forall_eq'] at passed ⊢
      have := latest i (by omega)
      omega

theorem buildTree_ok (traced : Traced lib events count) :
    ∃ results, buildTree lib count events = .ok results ∧
      (∀ i < count, ending lib events i ≠ noEnd → (results i).finished = true) ∧
      ∀ i < count, ¬Ignored events i → (results i).parent = builtParent lib events i := by
  obtain ⟨tree, own, ran, stands⟩ := replay_ok traced (le_refl count)
  obtain ⟨latest, bound⟩ : ∃ latest, ∀ j < count, (events j).startTimeNS ≤ latest :=
    ⟨(events (count - 1)).startTimeNS,
      fun j before => traced.sorted j (count - 1) (by omega) (by omega)⟩
  have standing : Standing lib events (Passed none) count tree own :=
    (stands latest bound).imp (by simp [Passed])
  obtain ⟨popped, rest, pops, standing, current⟩ :=
    standing.popEvents traced (le_refl count) (lt_succ_self _)
  refine ⟨setInTreeBuilding false popped.results, ?_, ?_, ?_⟩
  · simp only [buildTree, ran, popAll, pops, bind, Except.bind]
  · intro i below ends
    change (popped.results i).finished = true
    by_cases opens : Opens lib events i
    · by_contra unfinished
      have there := standing.waiting i below (opens.lasts ends) (by simpa using unfinished)
      exact current i there (by simp [Passed])
    · exact standing.closed i below opens
  · intro i below considered
    exact standing.parents i below considered

theorem le_ending_of_innermost {thread frame : Nat}
    (found : innermost lib events event thread = some frame)
    (ends : ending lib events frame ≠ noEnd) :
    (events event).startTimeNS ≤ ending lib events frame := by
  have open' := find?_some found
  obtain ⟨opens, _, lasting⟩ := of_decide_eq_true open'
  rw [Over, if_pos (opens.lasts ends)] at lasting
  omega

theorem le_ending_of_expectedParent {frame : Nat}
    (found : expectedParent lib events event = some frame)
    (ends : ending lib events frame ≠ noEnd) :
    (events event).startTimeNS ≤ ending lib events frame := by
  rcases Option.or_eq_some_iff.mp found with mine | ⟨_, forward⟩
  · exact le_ending_of_innermost mine ends
  · unfold forwardParent at forward
    split at forward
    · exact le_ending_of_innermost forward ends
    · cases forward

/-- `build_tree` makes the call tree of a trace if and only if no thread is left with a frame of a
forward thread that an event does not belong under. -/
theorem callTreeBuilt_iff (lib : Library) (events : Nat → Result) (count : Nat)
    (traced : Traced lib events count) :
    CallTreeBuilt lib events count ↔ Unmixed lib events count := by
  obtain ⟨results, built, finished, parents⟩ := buildTree_ok traced
  rw [← builtParent_eq_expectedParent_iff]
  constructor
  · rintro ⟨other, also, _, expected, _⟩ i below considered
    obtain rfl : results = other := Except.ok.inj (built.symm.trans also)
    rw [← parents i below considered, expected i below considered]
  · intro right
    have expected : ∀ i < count, ¬Ignored events i →
        (results i).parent = expectedParent lib events i := by
      intro i below considered
      rw [parents i below considered, right i below considered]
    refine ⟨results, built, finished, expected, ?_⟩
    intro i below considered parent found ends
    rw [expected i below considered] at found
    exact le_ending_of_expectedParent found ends

end Standing

section Sample

def sampleEnd (start : Int) : ExtraFields → Int
  | .torchOp _ endTimeNS => endTimeNS
  | .vulkan durationNS inTreeBuilding => if inTreeBuilding then start else start + durationNS
  | .kineto durationNS => start + durationNS
  | .other endTimeNS => endTimeNS

def sampleLibrary : Library where
  recordedEnd := sampleEnd
  endTimeNS results event :=
    let recorded := sampleEnd (results event).startTimeNS (results event).extraFields
    if (results event).finished then max recorded (results event).startTimeNS else recorded
  top ends queue :=
    letI : Preorder Int := Int.instLinearOrder.toPreorder
    queue.argmin ends
  endTimeNS_unfinished results event unfinished := by simp [unfinished]
  endTimeNS_valid results event valid := by
    split
    · exact max_eq_left valid
    · rfl
  endTimeNS_finished results event finished := by simp [finished]
  top_least ends queue event chosen :=
    ⟨List.argmin_mem chosen, fun other there => List.le_of_mem_argmin there chosen⟩
  top_none ends queue nothing := List.argmin_eq_none.mp nothing

def sampleTrace (event : Nat) : Result :=
  match event with
  | 0 => ⟨0, 1, .torchOp 0 10, false, none, []⟩
  | 1 => ⟨1, 2, .torchOp 1 2, false, none, []⟩
  | _ => ⟨20, 2, .torchOp 0 30, false, none, []⟩

theorem traced_of_fresh {trace : Nat → Result} {count : Nat}
    (sorted : ∀ i < count, ∀ j ≤ i, (trace j).startTimeNS ≤ (trace i).startTimeNS)
    (nested : ∀ i < count, ∀ j < i, Encloses sampleLibrary trace j i →
      Lasts sampleLibrary trace i → ending sampleLibrary trace i ≤ ending sampleLibrary trace j)
    (fresh : ∀ i < count, (trace i).finished = false ∧ (trace i).parent = none ∧
      (trace i).children = []) : Traced sampleLibrary trace count where
  sorted j i le below := sorted i below j le
  nested j i below encloses := nested i below j encloses.1 encloses
  unfinished i below _ := (fresh i below).1
  noParent i below _ := (fresh i below).2.1
  children i below _ child there := by
    rw [(fresh i below).2.2] at there
    cases there

/-- The last event is put under one that ended before it started. -/
theorem sampleTrace_leftover :
    Traced sampleLibrary sampleTrace 3 ∧ ¬CallTreeBuilt sampleLibrary sampleTrace 3 := by
  refine ⟨traced_of_fresh (by decide +kernel) (by decide +kernel) (by decide +kernel), ?_⟩
  rintro ⟨results, built, _, expected, _⟩
  have parent := expected 2 (by decide) (by decide)
  have made : (buildTree sampleLibrary 3 sampleTrace).map (fun made => (made 2).parent) =
      .ok (some 0) := by decide +kernel
  have wanted : expectedParent sampleLibrary sampleTrace 2 = none := by decide +kernel
  rw [built] at made
  simp [Except.map, parent, wanted] at made

/-- Thread 2 runs two operators for the open one of thread 1. -/
def nestedTrace (event : Nat) : Result :=
  match event with
  | 0 => ⟨0, 1, .torchOp 0 10, false, none, []⟩
  | 1 => ⟨1, 1, .torchOp 0 2, false, none, []⟩
  | 2 => ⟨3, 2, .torchOp 1 4, false, none, []⟩
  | _ => ⟨5, 2, .torchOp 1 6, false, none, []⟩

theorem unmixed_nestedTrace : Unmixed sampleLibrary nestedTrace 4 := by
  have before : ∀ i < 3, adopted sampleLibrary nestedTrace i (nestedTrace i).startTid = none ∧
      ((nestedTrace i).extraFields.forwardTid = 0 ∨ innermost sampleLibrary nestedTrace i
        (nestedTrace i).extraFields.forwardTid ≠ none) := by decide +kernel
  intro i below _ _
  by_cases early : i < 3
  · obtain ⟨nothing, plain | found⟩ := before i early
    · rw [nothing]
      exact fun forward => absurd plain forward
    · rw [nothing]
      exact fun _ none_ => absurd none_ found
  · obtain rfl : i = 3 := by omega
    have adopts : adopted sampleLibrary nestedTrace 3 (nestedTrace 3).startTid = some 0 := by
      decide +kernel
    rw [adopts]
    decide +kernel

theorem callTreeBuilt_nestedTrace : CallTreeBuilt sampleLibrary nestedTrace 4 :=
  (callTreeBuilt_iff sampleLibrary nestedTrace 4 (traced_of_fresh (by decide +kernel)
    (by decide +kernel) (by decide +kernel))).mpr unmixed_nestedTrace

end Sample

end TorchSupa.Profiler.CallTree
