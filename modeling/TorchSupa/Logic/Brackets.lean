import TorchSupa.Logic.Outcome
import Mathlib.Data.Int.Basic

/-!
Programs that raise a measure of the state, work, and lower it again. When the measure is back
where it was, on whichever exit.
-/

namespace Outcome

variable {ε σ α β : Type}

def final (program : EStateM ε σ α) (state : σ) : σ :=
  match program state with
  | .ok _ after => after
  | .error _ after => after

variable {program : EStateM ε σ α} {state : σ} {next : α → EStateM ε σ β}

theorem wp_final (holds : σ → Prop)
    (spec : wp program (fun _ after => holds after) (fun _ after => holds after) state) :
    holds (final program state) := by
  unfold wp at spec
  unfold final
  cases outcome : program state with
  | ok value after => simpa [outcome] using spec
  | error exception after => simpa [outcome] using spec

theorem final_bind_ok {after : σ} {value : α} (outcome : program state = .ok value after) :
    final (program >>= next) state = final (next value) after := by
  simp [final, Bind.bind, EStateM.bind, outcome]

theorem final_bind_error {after : σ}
    {exception : ε} (outcome : program state = .error exception after) :
    final (program >>= next) state = after := by
  simp [final, Bind.bind, EStateM.bind, outcome]

variable (measure : σ → Int)

/-- The program returns if and only if `passes` holds, and keeps the measure on both exits. -/
def Decides (program : EStateM ε σ α) (passes : Prop) : Prop :=
  ∀ state, wp program (fun _ after => passes ∧ measure after = measure state)
    (fun _ after => ¬ passes ∧ measure after = measure state) state

/-- The measure is back where it was, on either exit, if and only if `condition` holds. -/
def Restores (program : EStateM ε σ α) (condition : Prop) : Prop :=
  ∀ state, measure (final program state) = measure state ↔ condition

variable {measure}

section Decides

theorem Decides.pure (value : α) : Decides measure (Pure.pure value : EStateM ε σ α) True :=
  fun _ => ⟨trivial, rfl⟩

theorem Decides.throw (exception : ε) : Decides measure (throw exception : EStateM ε σ α) False :=
  fun _ => ⟨not_false, rfl⟩

theorem Decides.congr {program : EStateM ε σ α} {passes other : Prop}
    (decides : Decides measure program passes) (same : passes ↔ other) :
    Decides measure program other := by
  rwa [← propext same]

theorem Decides.bind {program : EStateM ε σ α} {next : α → EStateM ε σ β} {passes later : Prop}
    (first : Decides measure program passes)
    (second : passes → ∀ value, Decides measure (next value) later) :
    Decides measure (program >>= next) (passes ∧ later) := by
  intro state
  rw [wp_bind]
  apply wp_mono (first state)
  · rintro value after ⟨passed, kept⟩
    apply wp_mono (second passed value after)
    · rintro _ last ⟨also, keptToo⟩
      exact ⟨⟨passed, also⟩, keptToo.trans kept⟩
    · rintro _ last ⟨fails, keptToo⟩
      exact ⟨fun both => fails both.2, keptToo.trans kept⟩
  · rintro _ after ⟨fails, kept⟩
    exact ⟨fun both => fails both.1, kept⟩

theorem Decides.check (condition : Bool) (otherwise : ε) :
    Decides measure (check condition otherwise : EStateM ε σ Unit) (condition = true) := by
  intro state
  cases condition with
  | false => exact ⟨Bool.false_ne_true, rfl⟩
  | true => exact ⟨rfl, rfl⟩

theorem Decides.demand {value : Option α} {otherwise : ε} {next : α → EStateM ε σ β}
    {passes : α → Prop} (given : ∀ content, Decides measure (next content) (passes content)) :
    Decides measure (demand value otherwise >>= next)
      (∃ content, value = some content ∧ passes content) := by
  cases value with
  | none => exact (Decides.throw otherwise).congr (by simp)
  | some content => exact (given content).congr (by simp)

theorem Decides.ite {condition : Prop} [Decidable condition] {yes no : EStateM ε σ α}
    {passes other : Prop} (first : Decides measure yes passes) (second : Decides measure no other) :
    Decides measure (if condition then yes else no) (if condition then passes else other) := by
  split
  · exact first
  · exact second

theorem Decides.optional {program : EStateM ε σ Unit} {wanted : Bool} {passes : Prop}
    (decides : Decides measure program passes) :
    Decides measure (if wanted then program else Pure.pure ()) (wanted = true → passes) := by
  cases wanted with
  | false => exact (Decides.pure ()).congr (by simp)
  | true => simpa using decides

theorem Decides.forEach {body : α → EStateM ε σ Unit} {passes : α → Prop}
    (step : ∀ element, Decides measure (body element) (passes element)) (elements : List α) :
    Decides measure (forEach body elements) (∀ element ∈ elements, passes element) := by
  induction elements with
  | nil => exact (Decides.pure ()).congr (by simp)
  | cons element rest ih =>
    apply ((step element).bind fun _ _ => ih).congr
    simp

end Decides

section Restores

variable {passes condition : Prop}

theorem Decides.keeps (decides : Decides measure program passes) (state : σ) :
    measure (final program state) = measure state := by
  apply wp_final (fun after => measure after = measure state)
  exact wp_mono (decides state) (fun _ _ both => both.2) fun _ _ both => both.2

theorem Decides.restores (decides : Decides measure program passes) :
    Restores measure program True :=
  fun state => iff_true_intro (decides.keeps state)

theorem Restores.congr {other : Prop} (restores : Restores measure program condition)
    (same : condition ↔ other) : Restores measure program other := by
  rwa [← propext same]

theorem Decides.before (first : Decides measure program passes)
    (second : passes → ∀ value, Restores measure (next value) condition) :
    Restores measure (program >>= next) (passes → condition) := by
  intro state
  have spec := first state
  unfold wp at spec
  cases outcome : program state with
  | ok value after =>
    simp only [outcome] at spec
    have later := second spec.1 value after
    rw [spec.2] at later
    simpa [spec.1, final_bind_ok outcome] using later
  | error exception after =>
    simp only [outcome] at spec
    simp [spec.1, spec.2, final_bind_error outcome]

theorem Restores.demand {value : Option α} {otherwise : ε} {condition : α → Prop}
    (given : ∀ content, Restores measure (next content) (condition content)) :
    Restores measure (demand value otherwise >>= next)
      (∀ content, value = some content → condition content) := by
  cases value with
  | none => exact (Decides.throw otherwise).restores.congr (by simp)
  | some content => exact (given content).congr (by simp)

theorem Restores.unless {other : EStateM ε σ α} {there : Bool}
    (single : Decides measure other passes) (restores : Restores measure program condition) :
    Restores measure (if there then other else program) (there = false → condition) := by
  cases there with
  | true => exact single.restores.congr (by simp)
  | false => simpa using restores

theorem Restores.bracket {enter : EStateM ε σ Unit} {body : EStateM ε σ Unit}
    {leave : EStateM ε σ β} {entered : Prop}
    (raises : ∀ state, wp enter (fun _ after => entered ∧ measure after = measure state + 1)
      (fun _ after => ¬ entered ∧ measure after = measure state + 1) state)
    (lowers : ∀ state, wp leave (fun _ after => measure after = measure state - 1)
      (fun _ after => measure after = measure state - 1) state)
    (between : Decides measure body passes) :
    Restores measure (do enter; body; leave) (entered ∧ passes) := by
  intro state
  apply wp_final (fun after => measure after = measure state ↔ entered ∧ passes)
  simp only [wp_bind]
  apply wp_mono (raises state)
  · rintro _ inside ⟨opened, raised⟩
    apply wp_mono (between inside)
    · rintro _ last ⟨passed, kept⟩
      apply wp_mono (lowers last)
      · intro _ after lowered
        simp only [opened, passed, and_self, iff_true]
        omega
      · intro _ after lowered
        simp only [opened, passed, and_self, iff_true]
        omega
    · rintro _ last ⟨fails, kept⟩
      simp only [fails, and_false, iff_false]
      omega
  · rintro _ inside ⟨fails, raised⟩
    simp only [fails, false_and, iff_false]
    omega

end Restores

end Outcome
