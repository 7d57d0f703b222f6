/-!
Reasoning about programs that change a state and may throw, where a thrown
exception keeps the changes made so far. `wp` speaks of both exits, so a spec
also says what an exception leaves behind.
-/

namespace Outcome

variable {ε σ α β : Type}

/-- Every exit of `program` from `state` satisfies its postcondition: `normal`
on return, `thrown` on an exception. -/
def wp (program : EStateM ε σ α) (normal : α → σ → Prop) (thrown : ε → σ → Prop) (state : σ) :
    Prop :=
  match program state with
  | .ok value next => normal value next
  | .error exception next => thrown exception next

section Runs

variable {state : σ}

theorem run_pure (value : α) : (pure value : EStateM ε σ α) state = .ok value state := rfl

theorem run_bind (program : EStateM ε σ α) (next : α → EStateM ε σ β) :
    (program >>= next) state = match program state with
      | .ok value after => next value after
      | .error exception after => .error exception after := rfl

theorem run_get : (get : EStateM ε σ σ) state = .ok state state := rfl

theorem run_modify (change : σ → σ) :
    (modify change : EStateM ε σ PUnit) state = .ok ⟨⟩ (change state) := rfl

theorem run_throw (exception : ε) :
    (throw exception : EStateM ε σ α) state = .error exception state := rfl

end Runs

section Rules

variable {normal : α → σ → Prop} {thrown : ε → σ → Prop} {state : σ}

theorem wp_pure (value : α) :
    wp (pure value : EStateM ε σ α) normal thrown state ↔ normal value state := Iff.rfl

variable {finish : β → σ → Prop}

theorem wp_bind (program : EStateM ε σ α) (next : α → EStateM ε σ β) :
    wp (program >>= next) finish thrown state ↔
      wp program (fun value after => wp (next value) finish thrown after) thrown state := by
  simp only [wp, bind, EStateM.bind]
  cases program state <;> rfl

theorem wp_get {normal : σ → σ → Prop} :
    wp (get : EStateM ε σ σ) normal thrown state ↔ normal state state := Iff.rfl

theorem wp_set {normal : PUnit → σ → Prop} (next : σ) :
    wp (set next : EStateM ε σ PUnit) normal thrown state ↔ normal ⟨⟩ next := Iff.rfl

theorem wp_modify {normal : PUnit → σ → Prop} (change : σ → σ) :
    wp (modify change : EStateM ε σ PUnit) normal thrown state ↔ normal ⟨⟩ (change state) :=
  Iff.rfl

theorem wp_true (program : EStateM ε σ α) :
    wp program (fun _ _ => True) (fun _ _ => True) state := by
  unfold wp
  cases program state <;> trivial

theorem bind_read {next : σ → EStateM ε σ β}
    (spec : wp (next state) finish thrown state) : wp (get >>= next) finish thrown state := spec

theorem bind_write {change : σ → σ} {next : PUnit → EStateM ε σ β}
    (spec : wp (next ⟨⟩) finish thrown (change state)) :
    wp (modify change >>= next) finish thrown state := spec

theorem wp_throw (exception : ε) :
    wp (throw exception : EStateM ε σ α) normal thrown state ↔ thrown exception state := Iff.rfl

theorem wp_ite (condition : Prop) [Decidable condition] (yes no : EStateM ε σ α) :
    wp (if condition then yes else no) normal thrown state ↔
      if condition then wp yes normal thrown state else wp no normal thrown state := by
  split <;> rfl

variable {program : EStateM ε σ α}

theorem wp_mono {stronger : α → σ → Prop} {fewer : ε → σ → Prop}
    (spec : wp program stronger fewer state)
    (returns : ∀ value after, stronger value after → normal value after)
    (throws : ∀ exception after, fewer exception after → thrown exception after) :
    wp program normal thrown state := by
  unfold wp at spec ⊢
  cases outcome : program state with
  | ok value after =>
    rw [outcome] at spec
    exact returns value after spec
  | error exception after =>
    rw [outcome] at spec
    exact throws exception after spec

theorem wp_seq {next : α → EStateM ε σ β} (between : α → σ → Prop)
    (first : wp program between thrown state)
    (second : ∀ value after, between value after → wp (next value) finish thrown after) :
    wp (program >>= next) finish thrown state :=
  (wp_bind program next).mpr (wp_mono first second fun _ _ failed => failed)

theorem wp_and {other : α → σ → Prop} {otherThrown : ε → σ → Prop}
    (first : wp program normal thrown state) (second : wp program other otherThrown state) :
    wp program (fun value after => normal value after ∧ other value after)
      (fun exception after => thrown exception after ∧ otherThrown exception after) state := by
  unfold wp at first second ⊢
  cases outcome : program state with
  | ok value after =>
    rw [outcome] at first second
    exact ⟨first, second⟩
  | error exception after =>
    rw [outcome] at first second
    exact ⟨first, second⟩

theorem wp_of_ok {value : α} {after : σ}
    (run : program state = .ok value after) (holds : normal value after) :
    wp program normal thrown state := by
  unfold wp
  rwa [run]

theorem wp_ok {value : α} {after : σ}
    (spec : wp program normal thrown state) (run : program state = .ok value after) :
    normal value after := by
  unfold wp at spec
  rwa [run] at spec

theorem wp_error {exception : ε} {after : σ}
    (spec : wp program normal thrown state) (run : program state = .error exception after) :
    thrown exception after := by
  unfold wp at spec
  rwa [run] at spec

end Rules

/-- Throws unless the condition holds. -/
def check (condition : Bool) (otherwise : ε) : EStateM ε σ Unit :=
  if condition then pure () else throw otherwise

/-- Throws unless there is a value. -/
def demand (value : Option α) (otherwise : ε) : EStateM ε σ α :=
  match value with
  | some value => pure value
  | none => throw otherwise

variable {finish : β → σ → Prop} {thrown : ε → σ → Prop}

variable {otherwise : ε} {state : σ} {value : Option α} {body : α → EStateM ε σ Unit}

theorem bind_check {condition : Bool} {next : PUnit → EStateM ε σ β}
    (holds : condition = true → wp (next ⟨⟩) finish thrown state)
    (fails : condition = false → thrown otherwise state) :
    wp (check condition otherwise >>= next) finish thrown state := by
  cases condition with
  | false => exact fails rfl
  | true => exact holds rfl

variable {next : α → EStateM ε σ β}

theorem bind_demand
    (given : ∀ content, value = some content → wp (next content) finish thrown state)
    (fails : value = none → thrown otherwise state) :
    wp (demand value otherwise >>= next) finish thrown state := by
  cases value with
  | none => exact fails rfl
  | some content => exact given content rfl

theorem bind_given {content : α} (given : value = some content)
    (spec : wp (next content) finish thrown state) :
    wp (demand value otherwise >>= next) finish thrown state := by
  rw [given]
  exact spec

def forEach (body : α → EStateM ε σ Unit) : List α → EStateM ε σ Unit
  | [] => pure ()
  | element :: rest => do
      body element
      forEach body rest

theorem wp_forEach (invariant : List α → σ → Prop)
    (step : ∀ element rest state, invariant (element :: rest) state →
      wp (body element) (fun _ after => invariant rest after) thrown state) :
    ∀ (elements : List α) (state : σ), invariant elements state →
      wp (forEach body elements) (fun _ after => invariant [] after) thrown state := by
  intro elements
  induction elements with
  | nil => exact fun state holds => holds
  | cons element rest ih =>
    intro state holds
    unfold forEach
    rw [wp_bind]
    exact wp_mono (step element rest state holds) (fun _ after next => ih after next)
      (fun _ _ failed => failed)

/-- What holds after an exception that does not end the run. -/
abbrev Spares (fatal : ε → Prop) (holds : σ → Prop) (exception : ε) (after : σ) : Prop :=
  fatal exception ∨ holds after

/-- `program` keeps `invariant` at both exits, but for the exceptions in `fatal`
that end the run. -/
def Keeps (invariant : σ → Prop) (fatal : ε → Prop) (program : EStateM ε σ α) : Prop :=
  ∀ state, invariant state → wp program (fun _ after => invariant after)
    (fun exception after => fatal exception ∨ invariant after) state

variable {invariant : σ → Prop} {fatal : ε → Prop}

theorem Keeps.pure (value : α) : Keeps invariant fatal (Pure.pure value : EStateM ε σ α) :=
  fun _ holds => holds

theorem Keeps.bind {program : EStateM ε σ α} (first : Keeps invariant fatal program)
    (second : ∀ value, Keeps invariant fatal (next value)) :
    Keeps invariant fatal (program >>= next) := by
  intro state holds
  rw [wp_bind]
  exact wp_mono (first state holds) (fun value after kept => second value after kept)
    (fun _ _ failed => failed)

theorem Keeps.throw (exception : ε) : Keeps invariant fatal (throw exception : EStateM ε σ α) :=
  fun _ holds => .inr holds

theorem Keeps.ite {condition : Prop} [Decidable condition] {yes no : EStateM ε σ α}
    (first : Keeps invariant fatal yes) (second : Keeps invariant fatal no) :
    Keeps invariant fatal (if condition then yes else no) := by
  split
  · exact first
  · exact second

theorem Keeps.modify {change : σ → σ} (kept : ∀ state, invariant state → invariant (change state)) :
    Keeps invariant fatal (modify change : EStateM ε σ PUnit) :=
  fun state holds => kept state holds

theorem Keeps.forEach (step : ∀ element, Keeps invariant fatal (body element)) (elements : List α) :
    Keeps invariant fatal (Outcome.forEach body elements) := by
  intro state holds
  exact wp_forEach (fun _ after => invariant after)
    (fun element _ after kept => step element after kept) elements state holds

/-- Whatever `relation` says of the states before and after, it keeps saying at both exits. -/
def Respects (relation : σ → σ → Prop) (program : EStateM ε σ α) : Prop :=
  ∀ before, Keeps (relation before) (fun _ => False) program

section Respects

variable {relation : σ → σ → Prop}

theorem Respects.pure (value : α) : Respects relation (Pure.pure value : EStateM ε σ α) :=
  fun _ => Keeps.pure value

variable {program : EStateM ε σ α}

theorem Respects.bind
    (first : Respects relation program) (second : ∀ value, Respects relation (next value)) :
    Respects relation (program >>= next) :=
  fun before => (first before).bind fun value => second value before

theorem Respects.check (condition : Bool) (exception : ε) :
    Respects relation (check condition exception : EStateM ε σ Unit) :=
  fun _ => Keeps.ite (Keeps.pure _) (Keeps.throw _)

theorem Respects.ite {condition : Prop} [Decidable condition] {yes no : EStateM ε σ α}
    (first : Respects relation yes) (second : Respects relation no) :
    Respects relation (if condition then yes else no) :=
  fun before => Keeps.ite (first before) (second before)

theorem Respects.read {next : σ → EStateM ε σ α} (respects : ∀ state, Respects relation (next state)) :
    Respects relation (get >>= next) :=
  fun before state same => bind_read (respects state before state same)

theorem Respects.modify {change : σ → σ}
    (kept : ∀ before state, relation before state → relation before (change state)) :
    Respects relation (modify change : EStateM ε σ PUnit) :=
  fun before => Keeps.modify (kept before)

theorem Respects.throw (exception : ε) : Respects relation (throw exception : EStateM ε σ α) :=
  fun _ => Keeps.throw exception

theorem Respects.forEach {body : α → EStateM ε σ Unit}
    (step : ∀ element, Respects relation (body element)) (elements : List α) :
    Respects relation (Outcome.forEach body elements) :=
  fun before => Keeps.forEach (fun element => step element before) elements

theorem bind_respects {normal : β → σ → Prop} {thrown : ε → σ → Prop} {before state : σ}
    (respects : Respects relation program) (same : relation before state)
    (continues : ∀ value after, relation before after → wp (next value) normal thrown after)
    (throws : ∀ exception after, relation before after → thrown exception after) :
    wp (program >>= next) normal thrown state :=
  wp_seq (fun _ after => relation before after)
    (wp_mono (respects before state same) (fun _ _ kept => kept)
      fun exception after failed => throws exception after (failed.resolve_left id))
    continues

theorem bind_kept {normal : β → σ → Prop} {before state : σ} (respects : Respects relation program)
    (same : relation before state) (continues : ∀ value after, relation before after →
      wp (next value) normal (fun _ after => relation before after) after) :
    wp (program >>= next) normal (fun _ after => relation before after) state :=
  bind_respects respects same continues fun _ _ => id

end Respects

end Outcome
