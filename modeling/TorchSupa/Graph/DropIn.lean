import TorchSupa.Graph.Callables
import Mathlib.Data.Set.Insert
import Mathlib.Algebra.Ring.Int.Defs

/-!
When the graphed callables return what the callables would. The arguments are copied one after the
other, and a tensor at the address of a static buffer is taken for that buffer.
-/

namespace TorchSupa.Graph.Callables

open Function List

variable {V : Type}

section Copying

def Apart (one other : Tensor) : Prop :=
  ∀ cell ∈ one.cells, cell ∉ other.cells

instance (one other : Tensor) : Decidable (Apart one other) := by
  unfold Apart
  infer_instance

/-- Each buffer is given itself, or what shares nothing with it; then what is given after it shares
nothing with it either, and the buffer has no element twice. The buffers share nothing. -/
def Fits : List (Option Tensor × Tensor) → Prop
  | [] => True
  | (none, _) :: rest => Fits rest
  | (some target, given) :: rest =>
    (target.cells = given.cells ∨
      target.cells.length = given.cells.length ∧ target.cells.Nodup ∧
        Apart target given ∧ ∀ later ∈ rest, later.1.isSome → Apart target later.2) ∧
    (∀ later ∈ rest, ∀ other, later.1 = some other → Apart target other) ∧ Fits rest

variable {target given : Tensor} {memory : Memory V}

variable {cells : List Address} {values : List V}

theorem after_zip_of_not_mem {memory : Memory V} {cell : Address} (outside : cell ∉ cells) :
    Writes.after (cells.zip values) memory cell = memory cell := by
  rcases Writes.after_cases (cells.zip values) memory cell with ⟨write, member, here, _⟩ | ⟨_, same⟩
  · exact absurd (here ▸ (of_mem_zip member).1) outside
  · exact same

theorem read_after_zip (memory : Memory V)
    (same : cells.length = values.length) (distinct : cells.Nodup) :
    cells.map (Writes.after (cells.zip values) memory) = values := by
  induction cells generalizing values memory with
  | nil => simpa [eq_comm] using same
  | cons cell rest ih =>
    cases values with
    | nil => simp at same
    | cons value values =>
      obtain ⟨fresh, distinct⟩ := nodup_cons.mp distinct
      have first : Writes.after ((cell :: rest).zip (value :: values)) memory cell = value := by
        change Writes.after (rest.zip values) (update memory cell value) cell = value
        rw [after_zip_of_not_mem fresh, update_self]
      rw [map_cons, first]
      exact congrArg (value :: ·) (ih (update memory cell value) (by simpa using same) distinct)

theorem read_copied (same : target.cells.length = given.cells.length) (distinct : target.cells.Nodup) :
    target.read (Writes.after (target.cells.zip (given.read memory)) memory) = given.read memory := by
  exact read_after_zip memory (by simpa [Tensor.read] using same) distinct

theorem read_congr {tensor : Tensor} {after : Memory V}
    (same : ∀ cell ∈ tensor.cells, after cell = memory cell) :
    tensor.read after = tensor.read memory :=
  map_congr_left same

theorem dataPtr_ne (same : target.cells.length = given.cells.length) (apart : Apart target given)
    (some : target.cells ≠ []) : target.dataPtr ≠ given.dataPtr := by
  unfold Tensor.dataPtr
  obtain ⟨first, rest, cells⟩ := exists_cons_of_ne_nil some
  cases others : given.cells with
  | nil =>
    rw [cells, others] at same
    simp at same
  | cons head tail =>
    intro equal
    rw [cells] at equal
    have head : first = head := equal
    exact apart first (by simp [cells]) (by simp [others, head])

variable (strange : Tensor → Tensor → Memory V → Option (Memory V))

theorem copyInto_fits {pairs : List (Option Tensor × Tensor)} (fits : Fits pairs)
    (memory : Memory V) :
    ∃ after, copyInto strange pairs memory = some after ∧
      (∀ pair ∈ pairs, ∀ target, pair.1 = some target → target.read after = pair.2.read memory) ∧
      ∀ cell, (∀ pair ∈ pairs, ∀ target, pair.1 = some target → cell ∉ target.cells) →
        after cell = memory cell := by
  induction pairs generalizing memory with
  | nil => exact ⟨memory, rfl, by simp, fun _ _ => rfl⟩
  | cons pair rest ih =>
    obtain ⟨buffer, given⟩ := pair
    cases buffer with
    | none =>
      obtain ⟨after, run, reads, kept⟩ := ih fits memory
      refine ⟨after, run, ?_, ?_⟩
      · intro pair member target here
        rcases mem_cons.mp member with rfl | later
        · cases here
        · exact reads pair later target here
      · exact fun cell outside => kept cell fun pair member =>
          outside pair (.tail _ member)
    | some target =>
      obtain ⟨places, buffers, fits⟩ := fits
      have placed : ∃ middle, target.read middle = given.read memory ∧
          (∀ cell ∉ target.cells, middle cell = memory cell) ∧
          (∀ later ∈ rest, later.1.isSome → later.2.read middle = later.2.read memory) ∧
          copyInto strange ((some target, given) :: rest) memory =
            copyInto strange rest middle := by
        rcases places with itself | ⟨same, distinct, apart, later⟩
        · refine ⟨memory, ?_, fun _ _ => rfl, fun _ _ _ => rfl, ?_⟩
          · rw [Tensor.read, itself, Tensor.read]
          · have pointer : target.dataPtr = given.dataPtr := by
              rw [Tensor.dataPtr, itself, Tensor.dataPtr]
            simp [copyInto, pointer]
        · by_cases empty : target.cells = []
          · have none' : given.cells = [] := by
              rw [empty] at same
              exact eq_nil_of_length_eq_zero same.symm
            refine ⟨memory, ?_, fun _ _ => rfl, fun _ _ _ => rfl, ?_⟩
            · simp [Tensor.read, empty, none']
            · simp [copyInto, Tensor.dataPtr, empty, none']
          · refine ⟨Writes.after (target.cells.zip (given.read memory)) memory,
              read_copied same distinct, fun cell outside => after_zip_of_not_mem outside, ?_, ?_⟩
            · intro pair member used
              refine read_congr fun cell inside => after_zip_of_not_mem fun also => ?_
              exact later pair member used cell also inside
            · have pointers := dataPtr_ne same apart empty
              have copied : copy strange target given memory =
                  some (Writes.after (target.cells.zip (given.read memory)) memory) :=
                if_pos ⟨same, distinct, apart⟩
              simp [copyInto, pointers, copied]
      obtain ⟨middle, here, elsewhere, others, run⟩ := placed
      obtain ⟨after, rest', reads, kept⟩ := ih fits middle
      refine ⟨after, run.trans rest', ?_, ?_⟩
      · intro pair member buffer named
        rcases mem_cons.mp member with rfl | later
        · cases named
          rw [← here]
          refine read_congr fun cell inside => kept cell fun pair member other named also => ?_
          exact buffers pair member other named cell inside also
        · rw [reads pair later buffer named, others pair later (by simp [named])]
      · intro cell outside
        rw [kept cell fun pair member => outside pair (.tail _ member)]
        exact elsewhere cell (outside _ (.head _) target rfl)

end Copying

section Making

theorem makeGraphedCallables_getElem? (samples : List (Sample × Captured V)) (place : Nat) :
    (makeGraphedCallables samples)[place]? = samples[place]?.map fun (sample, captured) =>
      { fwdGraph := captured.fwdGraph
        bwdGraph := (captureBackward sample captured).bwdGraph
        moduleParams := sample.params
        lenUserArgs := sample.args.length
        staticInputSurface := sample.surface
        staticOutputs := captured.outputs
        staticGradOutputs := (captureBackward sample captured).staticGradOutputs
        staticGradInputs := (captureBackward sample captured).staticGradInputs
        graphTrainingState := sample.training } := by
  unfold makeGraphedCallables
  rw [map_reverse, reverse_reverse]
  simp only [getElem?_zipWith, getElem?_map]
  cases samples[place]? <;> rfl

theorem length_pad {α : Type} (flags : List Bool) (values : List α) :
    (pad flags values).length = flags.length := by
  induction flags generalizing values with
  | nil => rfl
  | cons flag rest ih =>
    cases flag with
    | false => simp [pad, ih]
    | true => cases values <;> simp [pad, ih]

theorem pad_map {α β γ : Type} {flag : α → Bool} {values : List β} {read : β → γ} {find : α → γ}
    (slots : List α) (same : values.map read = (slots.filter flag).map find) :
    (pad (slots.map flag) values).map (Option.map read) =
      slots.map fun slot => if flag slot then some (find slot) else none := by
  induction slots generalizing values with
  | nil => rfl
  | cons slot rest ih =>
    cases flagged : flag slot with
    | false =>
      rw [filter_cons_of_neg (by simp [flagged])] at same
      simp [pad, flagged, ih same]
    | true =>
      rw [filter_cons_of_pos flagged, map_cons] at same
      cases values with
      | nil => simp at same
      | cons value values =>
        obtain ⟨first, others⟩ := cons.inj same
        simp [pad, flagged, first, ih others]

end Making

section Contract

/-- What the captures of one callable are: `saved` is the memory that the forward graph leaves for the
backward graph, `own` what its kernels write besides the arguments. -/
structure Faithful (entry : Entry V) (saved own : Set Address) : Prop where
  computes : ∀ memory, entry.captured.outputs.map (·.read (entry.captured.fwdGraph memory)) =
    entry.callable.forward entry.sample.training (entry.sample.surface.map (·.read memory))
  writes : ∀ memory cell, cell ∉ own → (∀ arg ∈ entry.sample.args, cell ∉ arg.cells) →
    entry.captured.fwdGraph memory cell = memory cell
  differentiates : entry.sample.surface.Pairwise Apart → ∀ memory later,
    (∀ cell ∈ saved, later cell = entry.captured.fwdGraph memory cell) →
      entry.captured.gradInputs.map (fun grad => grad.map (·.read (entry.captured.bwdGraph later))) =
        (entry.sample.surface.zipIdx.filter (·.1.requiresGrad)).map fun (_, slot) =>
          entry.callable.gradient entry.sample.training (entry.sample.surface.map (·.read memory))
            (entry.captured.emptyLike.map (·.read later)) slot
  returns : ∀ memory cell, cell ∉ own → entry.captured.bwdGraph memory cell = memory cell
  buffers : entry.captured.emptyLike.map (·.cells.length) =
    (entry.captured.outputs.filter (·.requiresGrad)).map (·.cells.length)
  distinct : ∀ buffer ∈ entry.captured.emptyLike, buffer.cells.Nodup
  apart : entry.captured.emptyLike.Pairwise Apart

/-- Captures that share a pool: what one callable saves is not given to the graphs of the callables
behind it, which are captured while it is alive, and buffers of gradients are not from the pool. -/
structure Captures (entries : List (Entry V)) (saved own : Nat → Set Address) : Prop where
  faithful : ∀ place entry, entries[place]? = some entry → Faithful entry (saved place) (own place)
  alive : ∀ place later, place < later → ∀ cell ∈ saved place, cell ∉ own later
  fresh : ∀ (place later : Nat) (entry : Entry V), entries[later]? = some entry →
    ∀ buffer ∈ entry.captured.emptyLike, ∀ cell ∈ buffer.cells, cell ∉ saved place

/-- The sample arguments of a callable and its parameters share no memory, nor do those of one callable
with what a callable before it saves. -/
structure Separate (entries : List (Entry V)) (saved : Nat → Set Address) : Prop where
  inputs : ∀ entry ∈ entries, entry.sample.surface.Pairwise Apart
  later : ∀ (place next : Nat) (entry : Entry V), place < next → entries[next]? = some entry →
    ∀ arg ∈ entry.sample.args, ∀ cell ∈ arg.cells, cell ∉ saved place

def World.pending (world : World V) : Nat :=
  match world.phase with
  | .forward calls => calls
  | .backward left => left
  | .raised => 0

/-- The copies of a call fit, as do those of a backward pass, which has a gradient of some output to
begin with; what runs between the calls leaves alone what is saved. -/
def Allowed (entries : List (Entry V)) (saved : Nat → Set Address) (world : World V) :
    Action V → Prop
  | .call args => ∀ place entry graphed, world.next = some place → entries[place]? = some entry →
      graphedAt entries place = some graphed → args.length = entry.sample.args.length ∧
        Fits (graphed.inputs args)
  | .backward grads => ∀ place entry graphed, world.previous entries.length = some place →
      entries[place]? = some entry → graphedAt entries place = some graphed →
      grads.length = entry.captured.outputs.length ∧
        (∃ output ∈ entry.captured.outputs, output.requiresGrad = true) ∧
        Fits (graphed.staticGradOutputs.zip grads)
  | .outside memory => ∀ place < world.pending, ∀ cell ∈ saved place, memory cell = world.memory cell
  | .train _ _ => True

end Contract

section Runs

variable {strange : Tensor → Tensor → Memory V → Option (Memory V)} {entries : List (Entry V)}
  {saved own : Nat → Set Address} {world : World V}

def World.DropIn (world : World V) : Prop :=
  ∀ result ∈ world.results, result.got = some result.expected

variable {grads args : List Tensor} {place : Nat} {entry : Entry V} {graphed : Graphed V}
  {after : World V}

theorem gradValues_of_copied {outputs buffers : List Tensor} {before after : Memory V}
    (many : buffers.length = (outputs.filter (·.requiresGrad)).length)
    (same : grads.length = outputs.length)
    (copied : ∀ pair ∈ (pad (outputs.map (·.requiresGrad)) buffers).zip grads, ∀ target,
      pair.1 = some target → target.read after = pair.2.read before) :
    buffers.map (·.read after) = gradValues outputs grads before := by
  induction outputs generalizing grads buffers with
  | nil =>
    have none' : buffers = [] := eq_nil_of_length_eq_zero (by simpa using many)
    simp [none', gradValues]
  | cons output rest ih =>
    cases grads with
    | nil => simp at same
    | cons grad grads =>
      have same : grads.length = rest.length := by simpa using same
      cases flagged : output.requiresGrad with
      | false =>
        rw [filter_cons_of_neg (by simp [flagged])] at many
        have tail := ih many same fun pair member => copied pair (by simp [pad, flagged, member])
        simpa [gradValues, flagged] using tail
      | true =>
        rw [filter_cons_of_pos flagged, length_cons] at many
        cases buffers with
        | nil => simp at many
        | cons buffer buffers =>
          have tail := ih (by simpa using many) same fun pair member =>
            copied pair (by simp [pad, flagged, member])
          have head := copied (some buffer, grad) (by simp [pad, flagged]) buffer rfl
          simpa [gradValues, flagged, head] using tail

theorem mem_pad {α : Type} {flags : List Bool} {values : List α} {value : α}
    (member : some value ∈ pad flags values) : value ∈ values := by
  induction flags generalizing values with
  | nil => simp [pad] at member
  | cons flag rest ih =>
    cases flag with
    | false =>
      simp only [pad, mem_cons, reduceCtorEq, false_or] at member
      exact ih member
    | true =>
      cases values with
      | nil =>
        simp only [pad, mem_cons, reduceCtorEq, false_or] at member
        exact ih member
      | cons first others =>
        simp only [pad, mem_cons, Option.some.injEq] at member
        rcases member with rfl | later
        · exact .head _
        · exact .tail _ (ih later)

structure Inv (entries : List (Entry V)) (saved : Nat → Set Address) (world : World V) : Prop where
  results : world.DropIn
  bounded : world.pending ≤ entries.length
  waiting : ∀ place entry, place < world.pending → entries[place]? = some entry →
    world.ran place = entry.sample.training →
    ∃ memory, entry.sample.surface.map (·.read memory) = world.inputs place ∧
      ∀ cell ∈ saved place, world.memory cell = entry.captured.fwdGraph memory cell

theorem graphedAt_eq (place : Nat) : graphedAt entries place = entries[place]?.map fun entry =>
    { fwdGraph := entry.captured.fwdGraph
      bwdGraph := (captureBackward entry.sample entry.captured).bwdGraph
      moduleParams := entry.sample.params
      lenUserArgs := entry.sample.args.length
      staticInputSurface := entry.sample.surface
      staticOutputs := entry.captured.outputs
      staticGradOutputs := (captureBackward entry.sample entry.captured).staticGradOutputs
      staticGradInputs := (captureBackward entry.sample entry.captured).staticGradInputs
      graphTrainingState := entry.sample.training } := by
  unfold graphedAt
  rw [makeGraphedCallables_getElem?, getElem?_map, Option.map_map]
  rfl

theorem map_read_of_copied {buffers given : List Tensor} {before after : Memory V}
    (same : given.length = buffers.length)
    (copied : ∀ pair ∈ (buffers.map some).zip given, ∀ target, pair.1 = some target →
      target.read after = pair.2.read before) :
    buffers.map (·.read after) = given.map (·.read before) := by
  induction buffers generalizing given with
  | nil =>
    have none' : given = [] := eq_nil_of_length_eq_zero (by simpa using same)
    simp [none']
  | cons buffer rest ih =>
    cases given with
    | nil => simp at same
    | cons tensor given =>
      have head := copied (some buffer, tensor) (by simp) buffer rfl
      have tail := ih (by simpa using same) fun pair member => copied pair (by simp [member])
      simp [head, tail]

variable (strange) in
theorem forward_returns (captures : Captures entries saved own) (separate : Separate entries saved)
    (there : entries[place]? = some entry)
    (made : graphedAt entries place = some graphed)
    (many : args.length = entry.sample.args.length) (fits : Fits (graphed.inputs args))
    (memory : Memory V) :
    ∃ start after, graphed.forward strange args memory = some (after, graphed.staticOutputs) ∧
      entry.sample.surface.map (·.read start) = (args ++ entry.sample.params).map (·.read memory) ∧
      graphed.staticOutputs.map (·.read after) = entry.callable.forward entry.sample.training
        ((args ++ entry.sample.params).map (·.read memory)) ∧
      after = entry.captured.fwdGraph start ∧
      ∀ earlier < place, ∀ cell ∈ saved earlier, after cell = memory cell := by
  rw [graphedAt_eq, there, Option.map_some, Option.some.injEq] at made
  obtain ⟨start, run, reads, kept⟩ := copyInto_fits strange fits memory
  have faithful := captures.faithful place entry there
  have pairs : graphed.inputs args = (entry.sample.args.map some).zip args := by
    have surface : entry.sample.surface.take entry.sample.args.length = entry.sample.args :=
      take_left
    rw [← made, Graphed.inputs, surface, ← append_nil (entry.sample.args.map some),
      zip_append (by simp [many])]
    simp
  rw [pairs] at reads kept
  have isArg : ∀ pair ∈ (entry.sample.args.map some).zip args, ∀ target, pair.1 = some target →
      target ∈ entry.sample.args := by
    intro pair member target named
    have first := (of_mem_zip member).1
    rw [named] at first
    simpa using first
  have params : ∀ param ∈ entry.sample.params, param.read start = param.read memory := by
    intro param member
    refine read_congr fun cell inside => kept cell fun pair given target named also => ?_
    have apart := (pairwise_append.mp (separate.inputs entry (mem_of_getElem? there))).2.2
    exact apart target (isArg pair given target named) param member cell also inside
  have arguments : entry.sample.args.map (·.read start) = args.map (·.read memory) :=
    map_read_of_copied many reads
  have surface : entry.sample.surface.map (·.read start) =
      (args ++ entry.sample.params).map (·.read memory) := by
    rw [Sample.surface, map_append, arguments, map_append]
    exact congrArg _ (map_congr_left params)
  refine ⟨start, entry.captured.fwdGraph start, ?_, surface, ?_, rfl, ?_⟩
  · rw [Graphed.forward, run, Option.map_some, ← made]
  · rw [← made, faithful.computes, surface]
  · intro earlier less cell inside
    rw [faithful.writes start cell (captures.alive earlier place less cell inside)]
    · refine kept cell fun pair member target named also => ?_
      exact separate.later earlier place entry less there target (isArg pair member target named) cell
        also inside
    · exact fun arg member also => separate.later earlier place entry less there arg member cell also inside

variable (strange) in
theorem backward_returns (captures : Captures entries saved own) (separate : Separate entries saved)
    (there : entries[place]? = some entry)
    (made : graphedAt entries place = some graphed)
    (many : grads.length = entry.captured.outputs.length)
    (some' : ∃ output ∈ entry.captured.outputs, output.requiresGrad = true)
    (fits : Fits (graphed.staticGradOutputs.zip grads)) {start memory : Memory V}
    (left : ∀ cell ∈ saved place, memory cell = entry.captured.fwdGraph start cell) :
    ∃ after, graphed.backward strange grads memory = some (after, graphed.staticGradInputs) ∧
      graphed.staticGradInputs.map (fun grad => grad.map (·.read after)) =
        entry.gradients entry.sample.training (entry.sample.surface.map (·.read start))
          (gradValues entry.captured.outputs grads memory) ∧
      ∀ earlier < place, ∀ cell ∈ saved earlier, after cell = memory cell := by
  rw [graphedAt_eq, there, Option.map_some, Option.some.injEq] at made
  have faithful := captures.faithful place entry there
  have positive : 0 < (entry.captured.outputs.filter (·.requiresGrad)).length := by
    obtain ⟨output, member, flagged⟩ := some'
    exact length_pos_of_mem (mem_filter.mpr ⟨member, flagged⟩)
  have buffers : graphed.staticGradOutputs =
      pad (entry.captured.outputs.map (·.requiresGrad)) entry.captured.emptyLike := by
    rw [← made]
    rfl
  have gradInputs : graphed.staticGradInputs =
      (pad (entry.sample.surface.map (·.requiresGrad)) entry.captured.gradInputs).map Option.join := by
    rw [← made]
    exact if_pos positive
  have graph : graphed.bwdGraph = some entry.captured.bwdGraph := by
    rw [← made]
    exact if_pos positive
  rw [buffers] at fits
  obtain ⟨later, run, reads, kept⟩ := copyInto_fits strange fits memory
  have untouched : ∀ earlier, ∀ cell ∈ saved earlier, later cell = memory cell := by
    intro earlier cell inside
    refine kept cell fun pair member target named also => ?_
    have first := (of_mem_zip member).1
    rw [named] at first
    exact captures.fresh earlier place entry there target (mem_pad first) cell also inside
  have sizes : entry.captured.emptyLike.length =
      (entry.captured.outputs.filter (·.requiresGrad)).length := by
    simpa using congrArg length faithful.buffers
  have values := gradValues_of_copied sizes many reads
  have differentiates := faithful.differentiates (separate.inputs entry (mem_of_getElem? there))
    start later fun cell inside => (untouched place cell inside).trans (left cell inside)
  refine ⟨entry.captured.bwdGraph later, ?_, ?_, ?_⟩
  · have lengths : grads.length = graphed.staticGradOutputs.length := by
      rw [buffers, length_pad, length_map, many]
    rw [Graphed.backward, if_pos lengths, buffers, run, graph]
  · rw [gradInputs, ← values]
    have slots : entry.sample.surface.map (·.requiresGrad) =
        entry.sample.surface.zipIdx.map fun slot => slot.1.requiresGrad := by
      rw [← zipIdx_map_fst 0 entry.sample.surface, map_map]
      simp
    have padded := pad_map entry.sample.surface.zipIdx differentiates
    have joined : ∀ (slots : List (Option (Option Tensor))) (read : Tensor → List V),
        (slots.map Option.join).map (fun grad => grad.map read) =
          (slots.map (Option.map fun grad => grad.map read)).map Option.join := by
      intro slots read
      rw [map_map, map_map]
      exact map_congr_left fun slot _ => by rcases slot with _ | _ | _ <;> rfl
    rw [slots, joined, padded, map_map, Entry.gradients]
    refine map_congr_left fun slot _ => ?_
    simp only [comp_apply, positive, and_true]
    split <;> rfl
  · intro earlier less cell inside
    rw [faithful.returns later cell (captures.alive earlier place less cell inside)]
    exact untouched earlier cell inside

theorem graphedAt_training
    (there : entries[place]? = some entry) (made : graphedAt entries place = some graphed) :
    graphed.graphTrainingState = entry.sample.training := by
  rw [graphedAt_eq, there, Option.map_some, Option.some.injEq] at made
  rw [← made]

theorem World.pending_of_next (next : world.next = some place) : world.pending = place := by
  unfold World.next at next
  unfold World.pending
  cases phase : world.phase with
  | forward calls => simpa [phase] using next
  | backward left => cases left <;> simp_all
  | raised => simp [phase] at next

theorem World.pending_of_previous {count : Nat} (previous : world.previous count = some place) :
    world.pending = place + 1 := by
  unfold World.previous at previous
  unfold World.pending
  cases phase : world.phase with
  | forward calls => cases calls <;> simp_all
  | backward left => cases left <;> simp_all
  | raised => simp [phase] at previous

theorem Inv.call (inv : Inv entries saved world) (captures : Captures entries saved own)
    (separate : Separate entries saved)
    (allowed : Allowed entries saved world (.call args))
    (taken : call strange entries world args = some after) : Inv entries saved after := by
  obtain ⟨place, next, taken⟩ := Option.bind_eq_some_iff.mp taken
  obtain ⟨entry, there, taken⟩ := Option.bind_eq_some_iff.mp taken
  obtain ⟨graphed, made, taken⟩ := Option.bind_eq_some_iff.mp taken
  dsimp only at taken
  have pending := World.pending_of_next next
  have inside := (List.getElem?_eq_some_iff.mp there).1
  have training := graphedAt_training there made
  split at taken
  · next same =>
      obtain ⟨many, fits⟩ := allowed place entry graphed next there made
      obtain ⟨start, memory, run, surface, outputs, left, kept⟩ :=
        forward_returns strange captures separate there made many fits world.memory
      rw [run, Option.some.injEq] at taken
      rw [← taken]
      constructor
      · intro result member
        rcases List.mem_cons.mp member with rfl | old
        · dsimp only
          rw [same, training, ← outputs, List.map_map]
          rfl
        · exact inv.results result old
      · exact inside
      · intro earlier other less at' ran
        dsimp only at ran ⊢
        rcases Nat.lt_succ_iff_lt_or_eq.mp less with before | rfl
        · rw [update_of_ne (Nat.ne_of_lt before)] at ran ⊢
          obtain ⟨first, values, was⟩ := inv.waiting earlier other (by omega) at' ran
          exact ⟨first, values, fun cell member => (kept earlier before cell member).trans (was cell member)⟩
        · obtain rfl := Option.mem_unique at' there
          rw [update_self]
          exact ⟨start, surface, fun cell _ => congrFun left cell⟩
  · next other =>
      rw [Option.some.injEq] at taken
      rw [← taken]
      constructor
      · intro result member
        rcases List.mem_cons.mp member with rfl | old
        · rfl
        · exact inv.results result old
      · exact inside
      · intro earlier another less at' ran
        dsimp only at ran ⊢
        rcases Nat.lt_succ_iff_lt_or_eq.mp less with before | rfl
        · rw [update_of_ne (Nat.ne_of_lt before)] at ran ⊢
          exact inv.waiting earlier another (by omega) at' ran
        · obtain rfl := Option.mem_unique at' there
          rw [update_self] at ran
          exact absurd (ran.trans training.symm) other

theorem Inv.runBackward (inv : Inv entries saved world) (captures : Captures entries saved own)
    (separate : Separate entries saved)
    (allowed : Allowed entries saved world (.backward grads))
    (taken : runBackward strange entries world grads = some after) : Inv entries saved after := by
  obtain ⟨place, previous, taken⟩ := Option.bind_eq_some_iff.mp taken
  obtain ⟨entry, there, taken⟩ := Option.bind_eq_some_iff.mp taken
  obtain ⟨graphed, made, taken⟩ := Option.bind_eq_some_iff.mp taken
  dsimp only at taken
  have pending := World.pending_of_previous previous
  have inside := (List.getElem?_eq_some_iff.mp there).1
  have training := graphedAt_training there made
  split at taken
  · next same =>
      obtain ⟨many, some', fits⟩ := allowed place entry graphed previous there made
      obtain ⟨start, values, left⟩ := inv.waiting place entry (by omega) there (same.trans training)
      obtain ⟨memory, run, gradients, kept⟩ :=
        backward_returns strange captures separate there made many some' fits left
      rw [run, Option.some.injEq] at taken
      rw [← taken]
      constructor
      · intro result member
        rcases List.mem_cons.mp member with rfl | old
        · dsimp only
          rw [same, training, ← values, gradients]
        · exact inv.results result old
      · exact Nat.le_of_lt inside
      · intro earlier other less at' ran
        have before : earlier < place := less
        obtain ⟨first, seen, was⟩ := inv.waiting earlier other (by omega) at' ran
        exact ⟨first, seen, fun cell member => (kept earlier before cell member).trans (was cell member)⟩
  · rw [Option.some.injEq] at taken
    rw [← taken]
    constructor
    · intro result member
      rcases List.mem_cons.mp member with rfl | old
      · rfl
      · exact inv.results result old
    · exact Nat.le_of_lt inside
    · intro earlier other less at' ran
      have before : earlier < place := less
      exact inv.waiting earlier other (by omega) at' ran

theorem Inv.step (inv : Inv entries saved world) (captures : Captures entries saved own)
    (separate : Separate entries saved) {action : Action V}
    (allowed : Allowed entries saved world action) (taken : Step strange entries world action after) :
    Inv entries saved after := by
  cases action with
  | call args => exact inv.call captures separate allowed taken
  | backward grads => exact inv.runBackward captures separate allowed taken
  | outside memory =>
    obtain rfl : after = { world with memory } := taken
    refine ⟨inv.results, inv.bounded, fun place entry less there ran => ?_⟩
    obtain ⟨start, values, was⟩ := inv.waiting place entry less there ran
    exact ⟨start, values, fun cell member => (allowed place less cell member).trans (was cell member)⟩
  | train place mode =>
    obtain rfl := taken.2
    exact ⟨inv.results, inv.bounded, inv.waiting⟩

variable (strange) in
/-- While the copies fit, graphed callables return what the callables would. -/
theorem graphed_drop_in (captures : Captures entries saved own) (separate : Separate entries saved)
    (reached : (system strange entries).Reachable (Allowed entries saved) world) : world.DropIn := by
  have inv : Inv entries saved world := by
    refine reached.invariant ?_ fun _ _ _ inv allowed taken => inv.step captures separate allowed taken
    rintro state ⟨phase, results, _⟩
    refine ⟨?_, ?_, ?_⟩
    · simp [World.DropIn, results]
    · simp [World.pending, phase]
    · intro place entry less
      simp [World.pending, phase] at less
  exact inv.results

end Runs

section Sample

def product (place : Nat) : Entry Int where
  callable :=
    { forward _ inputs := [[(inputs.map fun input => input.headD 0).prod]]
      gradient _ inputs grads slot :=
        some [(grads.headD []).headD 0 * (inputs.getD (1 - slot) []).headD 0] }
  sample :=
    { args := [{ cells := [10 * place], requiresGrad := true },
        { cells := [10 * place + 1], requiresGrad := true }]
      params := []
      training := none }
  captured :=
    { fwdGraph memory := update memory (10 * place + 2)
        (memory (10 * place) * memory (10 * place + 1))
      outputs := [{ cells := [10 * place + 2], requiresGrad := true }]
      emptyLike := [{ cells := [10 * place + 3] }]
      bwdGraph memory := update (update memory (10 * place + 4)
        (memory (10 * place + 3) * memory (10 * place + 1))) (10 * place + 5)
        (memory (10 * place + 3) * memory (10 * place))
      gradInputs := [some { cells := [10 * place + 4] }, some { cells := [10 * place + 5] }] }

def products : List (Entry Int) := [product 0, product 1]

def productSaved (place : Nat) : Set Address := {10 * place, 10 * place + 1}

def productOwn (place : Nat) : Set Address := {10 * place + 2, 10 * place + 4, 10 * place + 5}

variable {place : Nat} {allowed : World Int → Action Int → Prop}

theorem mem_productSaved {cell : Nat} :
    cell ∈ productSaved place ↔ cell = 10 * place ∨ cell = 10 * place + 1 := Iff.rfl

theorem mem_productOwn {cell : Nat} : cell ∈ productOwn place ↔
    cell = 10 * place + 2 ∨ cell = 10 * place + 4 ∨ cell = 10 * place + 5 := Iff.rfl

theorem products_getElem? {entry : Entry Int} (there : products[place]? = some entry) :
    entry = product place := by
  rcases place with _ | _ | _ <;> cases there <;> rfl

theorem products_captures : Captures products productSaved productOwn where
  faithful place entry there := by
    obtain rfl := products_getElem? there
    constructor
    · intro memory
      simp [product, Tensor.read, Sample.surface]
    · intro memory cell apart _
      have other : cell ≠ 10 * place + 2 := by
        rintro rfl
        exact apart (by simp [productOwn])
      exact update_of_ne other _ _
    · intro _ memory later kept
      have first : later (10 * place) = memory (10 * place) := by
        simpa [product] using kept (10 * place) (by simp [productSaved])
      have second : later (10 * place + 1) = memory (10 * place + 1) := by
        simpa [product] using kept (10 * place + 1) (by simp [productSaved])
      simp [product, Tensor.read, Sample.surface, first, second]
    · intro memory cell apart
      simp only [mem_productOwn, not_or] at apart
      simp [product, update_of_ne apart.2.2, update_of_ne apart.2.1]
    · rfl
    · simp [product]
    · simp [product]
  alive place later less cell inside own := by
    have here := mem_productSaved.mp inside
    have there := mem_productOwn.mp own
    omega
  fresh place later entry there buffer member cell inside saved := by
    obtain rfl := products_getElem? there
    obtain rfl : buffer = { cells := [10 * later + 3] } := by simpa [product] using member
    obtain rfl : cell = 10 * later + 3 := by simpa using inside
    have here := mem_productSaved.mp saved
    omega

theorem products_separate : Separate products productSaved where
  inputs := by simp [products, product, Sample.surface, Apart]
  later place next entry less there arg member cell inside saved := by
    obtain rfl := products_getElem? there
    have among : cell ∈ productSaved next := by
      rcases mem_pair.mp member with rfl | rfl
      · exact .inl (mem_singleton.mp inside)
      · exact .inr (mem_singleton.mp inside)
    have here := mem_productSaved.mp saved
    have there := mem_productSaved.mp among
    omega

def productStart : World Int where
  memory cell :=
    if cell = 6 then 3 else if cell = 7 then 5 else if cell = 8 then 2 else if cell = 9 then 1
    else cell
  training _ := none
  ran _ := none
  inputs _ := []

def noCopy (_ _ : Tensor) (_ : Memory Int) : Option (Memory Int) := none

def World.advance (world : World Int) : Action Int → Option (World Int)
  | .call args => call noCopy products world args
  | .backward grads => runBackward noCopy products world grads
  | _ => none

def afterwards (world : World Int) (action : Action Int) : World Int :=
  (world.advance action).getD world

theorem start_reachable : (system noCopy products).Reachable allowed productStart := by
  refine .initial ⟨rfl, rfl, fun place entry there => ?_⟩
  obtain rfl := products_getElem? there
  rfl

theorem afterwards_reachable {world : World Int}
    {action : Action Int} (reached : (system noCopy products).Reachable allowed world)
    (may : allowed world action) (taken : (world.advance action).isSome) :
    (system noCopy products).Reachable allowed (afterwards world action) := by
  refine .step reached may ?_
  obtain ⟨after, taken⟩ := Option.isSome_iff_exists.mp taken
  rw [afterwards, taken, Option.getD_some]
  cases action with
  | call | backward => exact taken
  | outside | train => cases taken

def afterCalls : World Int :=
  afterwards (afterwards productStart (.call [{ cells := [6] }, { cells := [7] }]))
    (.call [{ cells := [2] }, { cells := [8] }])

def afterBackward : World Int :=
  afterwards (afterwards afterCalls (.backward [{ cells := [9] }])) (.backward [{ cells := [14] }])

/-- Three times five, times two, and the gradients of the factors. -/
theorem graphed_drop_in_product : afterBackward.DropIn ∧ afterBackward.results.map (·.got) =
    [some [some [10], some [6]], some [some [2], some [15]], some [some [30]], some [some [15]]] := by
  refine ⟨graphed_drop_in noCopy products_captures products_separate ?_, by rfl⟩
  refine afterwards_reachable (afterwards_reachable (afterwards_reachable
    (afterwards_reachable start_reachable ?_ rfl) ?_ rfl) ?_ rfl) ?_ rfl
  · intro place entry graphed next there made
    cases next
    cases there
    cases made
    refine ⟨rfl, ?_⟩
    change Fits [(some { cells := [0], requiresGrad := true }, { cells := [6] }),
      (some { cells := [1], requiresGrad := true }, { cells := [7] })]
    simp [Fits, Apart]
  · intro place entry graphed next there made
    cases next
    cases there
    cases made
    refine ⟨rfl, ?_⟩
    change Fits [(some { cells := [10], requiresGrad := true }, { cells := [2] }),
      (some { cells := [11], requiresGrad := true }, { cells := [8] })]
    simp [Fits, Apart]
  · intro place entry graphed previous there made
    cases previous
    cases there
    cases made
    refine ⟨rfl, ⟨_, (.head _), rfl⟩, ?_⟩
    change Fits [(some { cells := [13] }, { cells := [9] })]
    simp [Fits, Apart]
  · intro place entry graphed previous there made
    cases previous
    cases there
    cases made
    refine ⟨rfl, ⟨_, (.head _), rfl⟩, ?_⟩
    change Fits [(some { cells := [3] }, { cells := [14] })]
    simp [Fits, Apart]

/-- The arguments are the sample arguments, the other way round. -/
theorem swapped_arguments_differ : ¬ ∀ (strange : Tensor → Tensor → Memory Int → Option (Memory Int))
    (entries : List (Entry Int)) (saved own : Nat → Set Address) (world : World Int),
    Captures entries saved own → Separate entries saved →
      (system strange entries).Reachable (fun _ action => ∃ args, action = .call args) world →
        world.DropIn := by
  intro all
  have holds := all noCopy products productSaved productOwn _ products_captures products_separate
    (afterwards_reachable start_reachable ⟨[{ cells := [1] }, { cells := [0] }], rfl⟩ rfl)
  have computed : (afterwards productStart (.call [{ cells := [1] }, { cells := [0] }])).results =
      [⟨some [some [1]], [some [0]]⟩] := by rfl
  have same := holds _ (by rw [computed]; exact (.head _))
  simp at same

end Sample

end TorchSupa.Graph.Callables
