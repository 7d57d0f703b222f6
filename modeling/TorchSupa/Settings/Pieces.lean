import TorchSupa.Settings.Items

/-!
The pieces of a text between its commas. A text that is parsed to its end has an item in each
piece, apart from an empty one at the end.
-/

namespace TorchSupa.Settings

open List

def pieces (env : List Char) : List (List Char) := (env.filter (· ≠ ' ')).splitOn ','

/-- The setting that a piece names and the value that it gives, if it has the form `name:value`. -/
def givenBy (piece : List Char) : Option (Setting × Token) :=
  match piece.dropWhile (· ≠ ':') with
  | _ :: token => (settingOf (piece.takeWhile (· ≠ ':'))).map (·, token)
  | [] => none

def given (env : List Char) : List (Setting × Token) := (pieces env).filterMap givenBy

section Lexing

variable {buf piece : List Char}

theorem lexFrom_spaces (env buf : List Char) :
    lexFrom buf (env.filter (· ≠ ' ')) = lexFrom buf env := by
  induction env generalizing buf with
  | nil => rfl
  | cons character env ih =>
    by_cases space : character = ' '
    · subst space
      simpa [lexFrom, isDelimiter] using ih buf
    · simp only [ne_eq, space, not_false_eq_true, decide_true, filter_cons_of_pos, lexFrom]
      split
      · rw [← ih []]
      · rw [← ih (buf ++ [character])]
        simp

theorem lexFrom_comma (piece rest buf : List Char) :
    lexFrom buf (piece ++ ',' :: rest) = lexFrom buf piece ++ [','] :: lexFrom [] rest := by
  induction piece generalizing buf with
  | nil => simp [lexFrom, isDelimiter]
  | cons character piece ih =>
    simp only [cons_append, lexFrom]
    split
    · simp [ih []]
    · split
      · exact ih _
      · exact ih _

theorem mem_flush {token : Token} (member : token ∈ flush buf) : token = buf := by
  unfold flush at member
  split at member
  · simp at member
  · simpa using member

theorem lexFrom_noComma (bufClean : ',' ∉ buf) (clean : ',' ∉ piece) :
    ∀ token ∈ lexFrom buf piece, ',' ∉ token := by
  induction piece generalizing buf with
  | nil =>
    intro token member
    rw [mem_flush member]
    exact bufClean
  | cons character piece ih =>
    intro token member
    have different : ',' ≠ character := fun same => clean (same ▸ (.head _))
    have rest : ',' ∉ piece := fun more => clean (.tail _ more)
    unfold lexFrom at member
    split at member
    · rcases mem_append.mp member with flushed | later
      · rw [mem_flush flushed]
        exact bufClean
      · rcases mem_cons.mp later with rfl | later
        · simpa using different
        · exact ih (by simp) rest token later
    · split at member
      · exact ih (by simp [bufClean, different]) rest token member
      · exact ih bufClean rest token member

theorem flatten_lexFrom (clean : ' ' ∉ piece) : (lexFrom buf piece).flatten = buf ++ piece := by
  induction piece generalizing buf with
  | nil =>
    unfold lexFrom flush
    split
    · next empty => simp [empty]
    · simp
  | cons character piece ih =>
    have different : character ≠ ' ' := fun same => clean (same ▸ (.head _))
    have rest : ' ' ∉ piece := fun more => clean (.tail _ more)
    have flushed : (flush buf).flatten = buf := by
      unfold flush
      split
      · next empty => simp [empty]
      · simp
    unfold lexFrom
    split
    · simp [ih rest, flushed]
    · rw [ih rest]
      simp

end Lexing

section Pieces

variable {name token : Token} {setting : Setting} {item : Item} {piece : List Char}
  {tokens : List Token}

theorem stored_comma (setting : Setting) : stored [','] setting = none := by
  cases setting <;> rfl

theorem name_noColon (known : settingOf name = some setting) : ':' ∉ name := by
  unfold settingOf at known
  split_ifs at known with first second third fourth fifth sixth seventh
  · subst first; decide
  · subst second; decide
  · subst third; decide
  · subst fourth; decide
  · rcases fifth with rfl | rfl | rfl <;> decide
  · rcases sixth with rfl | rfl | rfl <;> decide
  · subst seventh; decide

variable {colon : Token}

theorem itemOf_spec (takes : itemOf name colon token = some item) :
    colon = [':'] ∧ settingOf name = some item.setting ∧ item.token = token ∧
      stored token item.setting = some item.value := by
  unfold itemOf at takes
  split at takes
  · next isColon =>
    cases known : settingOf name with
    | none => simp [known] at takes
    | some setting =>
      cases stores : stored token setting with
      | none => simp [known, stores] at takes
      | some value =>
        simp only [known, stores, Option.bind_some, Option.map_some, Option.some.injEq] at takes
        subst takes
        exact ⟨isColon, rfl, rfl, stores⟩
  · cases takes

theorem itemOf_commaName (colon token : Token) : itemOf [','] colon token = none := by
  unfold itemOf
  split <;> rfl

theorem itemOf_commaValue (name colon : Token) : itemOf name colon [','] = none := by
  unfold itemOf
  split
  · cases settingOf name with
    | none => rfl
    | some setting => simp [stored_comma]
  · rfl

theorem givenBy_item (takes : itemOf name colon token = some item) :
    givenBy (name ++ colon ++ token) = some (item.setting, item.token) := by
  obtain ⟨rfl, known, rfl, _⟩ := itemOf_spec takes
  have noColon := name_noColon known
  have whole : ∀ character ∈ name, decide (character ≠ ':') = true := by
    intro character member
    simp only [ne_eq, decide_not, Bool.not_eq_true', decide_eq_false_iff_not]
    rintro rfl
    exact noColon member
  have before : (name ++ [':'] ++ item.token).takeWhile (· ≠ ':') = name := by
    rw [append_assoc, takeWhile_append_of_pos whole]
    simp
  have behind : (name ++ [':'] ++ item.token).dropWhile (· ≠ ':') = ':' :: item.token := by
    rw [append_assoc, dropWhile_append_of_pos whole]
    simp
  simp only [givenBy, before, behind, known, Option.map_some]

theorem givenBy_of_tokens {text : List Char}
    (takes : itemOf name colon token = some item) (whole : name ++ (colon ++ token) = text) :
    givenBy text = some (item.setting, item.token) := by
  rw [← whole, ← append_assoc]
  exact givenBy_item takes

theorem tokens_of_complete (clean : ∀ token ∈ tokens, ',' ∉ token)
    (ends : complete tokens = true) : tokens = [] ∨ ∃ name colon token item,
      tokens = [name, colon, token] ∧ itemOf name colon token = some item := by
  match tokens with
  | [] => exact .inl rfl
  | [_] => cases ends
  | [_, _] => cases ends
  | name :: colon :: token :: rest =>
    cases takes : itemOf name colon token with
    | none =>
      rw [complete.eq_def] at ends
      simp [takes] at ends
    | some item =>
      rw [complete_cons takes] at ends
      cases rest with
      | nil => exact .inr ⟨name, colon, token, item, rfl, takes⟩
      | cons comma rest =>
        simp only [Bool.and_eq_true, decide_eq_true_eq] at ends
        exact absurd (by simp [ends.1]) (clean comma (by simp))

theorem tokens_of_complete_comma {rest : List Token} (clean : ∀ token ∈ tokens, ',' ∉ token)
    (ends : complete (tokens ++ [','] :: rest) = true) : ∃ name colon token item,
      tokens = [name, colon, token] ∧ itemOf name colon token = some item ∧
        complete rest = true := by
  rcases tokens with _ | ⟨name, _ | ⟨colon, _ | ⟨token, more⟩⟩⟩
  · rcases rest with _ | ⟨colon, _ | ⟨token, rest⟩⟩
    · cases ends
    · cases ends
    · rw [nil_append, complete.eq_def] at ends
      simp [itemOf_commaName] at ends
  · rcases rest with _ | ⟨token, rest⟩
    · cases ends
    · rw [cons_append, nil_append, complete.eq_def] at ends
      simp [itemOf] at ends
  · rw [cons_append, cons_append, nil_append, complete.eq_def] at ends
    simp [itemOf_commaValue] at ends
  · cases takes : itemOf name colon token with
    | none =>
      rw [cons_append, cons_append, cons_append, complete.eq_def] at ends
      simp [takes] at ends
    | some item =>
      rw [cons_append, cons_append, cons_append, complete_cons takes] at ends
      cases more with
      | nil =>
        simp only [nil_append, decide_true, Bool.true_and] at ends
        exact ⟨name, colon, token, item, rfl, takes, ends⟩
      | cons comma more =>
        simp only [cons_append, Bool.and_eq_true, decide_eq_true_eq] at ends
        exact absurd (by simp [ends.1]) (clean comma (by simp))

theorem complete_pieces (texts : List (List Char))
    (clean : ∀ text ∈ texts, ',' ∉ text ∧ ' ' ∉ text) (some_ : texts ≠ [])
    (ends : complete (lexArgs ([','].intercalate texts)) = true) :
    texts.filterMap givenBy = (taken (lexArgs ([','].intercalate texts))).map
        (fun item => (item.setting, item.token)) ∧
      ∀ text ∈ texts, text = [] ∨ (givenBy text).isSome = true := by
  induction texts with
  | nil => exact absurd rfl some_
  | cons text rest ih =>
    obtain ⟨noComma, noSpace⟩ := clean text (.head _)
    have tokensClean := lexFrom_noComma not_mem_nil noComma
    have whole : (lexFrom [] text).flatten = [] ++ text := flatten_lexFrom noSpace
    cases rest with
    | nil =>
      rw [intercalate_singleton] at ends ⊢
      rcases tokens_of_complete tokensClean ends with none_ | ⟨name, colon, token, item, tokens, takes⟩
      · have empty : text = [] := by simpa [none_] using whole.symm
        subst empty
        exact ⟨rfl, by simp⟩
      · have gives := givenBy_of_tokens takes (by simpa [tokens] using whole)
        have one : taken (lexArgs text) = [item] := by
          rw [lexArgs, tokens, taken_cons takes]
        rw [one]
        simp [gives]
    | cons next rest =>
      rw [intercalate_cons_cons, append_assoc, singleton_append, lexArgs, lexFrom_comma] at ends ⊢
      obtain ⟨name, colon, token, item, tokens, takes, ends⟩ :=
        tokens_of_complete_comma tokensClean ends
      obtain ⟨given, gives⟩ := ih (fun other member => clean other (.tail _ member)) (by simp) ends
      have here := givenBy_of_tokens takes (by simpa [tokens] using whole)
      have cons : taken (lexFrom [] text ++ [','] :: lexFrom [] ([','].intercalate (next :: rest))) =
          item :: taken (lexFrom [] ([','].intercalate (next :: rest))) := by
        rw [tokens, cons_append, cons_append, cons_append, taken_cons takes]
        simp
      rw [cons, filterMap_cons_some here, map_cons, given]
      exact ⟨rfl, forall_mem_cons.mpr ⟨.inr (by rw [here]; rfl), gives⟩⟩

theorem mem_splitOn {α : Type} [DecidableEq α] {separator : α} (elements : List α) :
    ∀ part ∈ elements.splitOn separator, separator ∉ part ∧ ∀ element ∈ part, element ∈ elements := by
  induction elements with
  | nil => simp
  | cons first rest ih =>
    rw [splitOn_cons_eq_if_modifyHead]
    split
    · intro part member
      rcases mem_cons.mp member with rfl | later
      · simp
      · obtain ⟨clean, within⟩ := ih part later
        exact ⟨clean, fun element there => mem_cons_of_mem _ (within element there)⟩
    · next different =>
      have other : separator ≠ first := fun same => different (by simp [same])
      cases parts : rest.splitOn separator with
      | nil => simp
      | cons head tail =>
        rw [parts] at ih
        intro part member
        rcases mem_cons.mp member with rfl | later
        · obtain ⟨clean, within⟩ := ih head (.head _)
          refine ⟨by simp [other, clean], fun element there => ?_⟩
          rcases mem_cons.mp there with rfl | there
          · exact .head _
          · exact .tail _ (within element there)
        · obtain ⟨clean, within⟩ := ih part (.tail _ later)
          exact ⟨clean, fun element there => mem_cons_of_mem _ (within element there)⟩

theorem pieces_clean (env : List Char) : ∀ text ∈ pieces env, ',' ∉ text ∧ ' ' ∉ text := by
  intro text member
  obtain ⟨clean, within⟩ := mem_splitOn _ text member
  refine ⟨clean, fun space => ?_⟩
  simpa using within ' ' space

theorem given_of_complete {env : List Char} (ends : complete (lexArgs env) = true) :
    given env = (taken (lexArgs env)).map (fun item => (item.setting, item.token)) ∧
      ∀ text ∈ pieces env, text = [] ∨ (givenBy text).isSome = true := by
  have text : [','].intercalate (pieces env) = env.filter (· ≠ ' ') := intercalate_splitOn ','
  have tokens : lexArgs ([','].intercalate (pieces env)) = lexArgs env := by
    rw [text]
    exact lexFrom_spaces env []
  rw [← tokens] at ends ⊢
  exact complete_pieces (pieces env) (pieces_clean env) (splitOn_ne_nil _ _) ends

end Pieces

end TorchSupa.Settings
