import Mathlib.Data.List.Induction

/-!
Results kept under keys. What a cache gives back is what an earlier input was worked out to, and
so what this input would be if no two inputs under one key have different results.
-/

namespace Caching

variable {κ γ ι σ : Type}

def find (cache : κ → Option γ) (key : κ) : Option γ := cache key

def update [DecidableEq κ] (cache : κ → Option γ) (key : κ) (value : γ) : κ → Option γ :=
  Function.update cache key (some value)

@[simp] theorem find_empty (key : κ) : find (fun _ => (none : Option γ)) key = none := rfl

theorem find_update [DecidableEq κ] (cache : κ → Option γ) (key other : κ) (value : γ) :
    find (update cache key value) other = if other = key then some value else find cache other := by
  simp only [find, update, Function.update_apply]

def Explained (makes : ι → κ → γ → Prop) (inputs : List ι) (cache : κ → Option γ) : Prop :=
  ∀ key value, find cache key = some value → ∃ input ∈ inputs, makes input key value

section Runs

variable {advance : σ → ι → σ} {cache : σ → κ → Option γ}

theorem Explained.step {makes : ι → κ → γ → Prop} {inputs : List ι} {input : ι} {before after : κ → Option γ}
    (explained : Explained makes inputs before)
    (stores : ∀ key value, find after key = some value →
      find before key = some value ∨ makes input key value) :
    Explained makes (inputs ++ [input]) after := by
  intro key value found
  rcases stores key value found with old | new
  · obtain ⟨past, member, made⟩ := explained key value old
    exact ⟨past, by simp [member], made⟩
  · exact ⟨input, by simp, new⟩

theorem explained_of_run (makes : ι → κ → γ → Prop) (start : σ) (empty : ∀ key, find (cache start) key = none)
    (stores : ∀ state input key value, find (cache (advance state input)) key = some value →
      find (cache state) key = some value ∨ makes input key value) (inputs : List ι) :
    Explained makes inputs (cache (inputs.foldl advance start)) := by
  induction inputs using List.reverseRecOn with
  | nil =>
    intro key value found
    simp [empty] at found
  | append_singleton inputs input ih =>
    rw [List.foldl_append]
    exact ih.step (stores _ input)

theorem transparent (makes : ι → κ → γ → Prop) (start : σ) (empty : ∀ key, find (cache start) key = none)
    (stores : ∀ state input key value, find (cache (advance state input)) key = some value →
      find (cache state) key = some value ∨ makes input key value)
    {earlier later : List ι} {input : ι}
    (agree : (earlier ++ input :: later).Pairwise fun past present =>
      ∀ key value result, makes past key value → makes present key result → value = result)
    {key : κ} {value result : γ} (made : makes input key result)
    (found : find (cache (earlier.foldl advance start)) key = some value) : value = result := by
  obtain ⟨past, member, kept⟩ := explained_of_run makes start empty stores earlier key value found
  have pair := (List.pairwise_append.mp agree).2.2 past member input (by simp)
  exact pair key value result kept made

end Runs

end Caching
