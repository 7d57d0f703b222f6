import TorchSupa.Logic.Json
import Mathlib.Algebra.GroupWithZero.Nat

/-!
JSON texts with strings that are put into them as they are: what the decoder makes of them is what
was meant just when all strings stand for themselves. The argument weighs texts: an escape is
heavier than the character that it stands for.
-/

namespace Json

section Strings

mutual

def Value.strings : Value → List (List Char)
  | .null => []
  | .bool _ => []
  | .number _ => []
  | .string text => [text]
  | .array items => itemsStrings items
  | .object members => membersStrings members

def itemsStrings : List Value → List (List Char)
  | [] => []
  | item :: items => item.strings ++ itemsStrings items

def membersStrings : List (List Char × Value) → List (List Char)
  | [] => []
  | (key, value) :: members => key :: (value.strings ++ membersStrings members)

end

attribute [simp] Value.strings itemsStrings membersStrings

def Value.Plain (value : Value) : Prop := ∀ text ∈ value.strings, ∀ char ∈ text, Json.Plain char

theorem mem_itemsStrings {items : List Value} {text : List Char} :
    text ∈ itemsStrings items ↔ ∃ item ∈ items, text ∈ item.strings := by
  induction items with
  | nil => simp
  | cons item items ih => simp [ih]

theorem mem_membersStrings {members : List (List Char × Value)} {text : List Char} :
    text ∈ membersStrings members ↔
      ∃ member ∈ members, text = member.1 ∨ text ∈ member.2.strings := by
  induction members with
  | nil => simp
  | cons member members ih => simp [ih, or_assoc]

open Value

theorem plain_string {text : List Char} : (string text).Plain ↔ ∀ char ∈ text, Json.Plain char := by
  simp [Value.Plain]

theorem plain_number (number : Rat) : (Value.number number).Plain := by
  simp [Value.Plain]

theorem plain_array {items : List Value} : (array items).Plain ↔ ∀ item ∈ items, item.Plain := by
  simp only [Value.Plain, strings, mem_itemsStrings]
  constructor
  · intro all item there text inside
    exact all text ⟨item, there, inside⟩
  · rintro all text ⟨item, there, inside⟩
    exact all item there text inside

theorem plain_object {members : List (List Char × Value)} : (object members).Plain ↔
      ∀ member ∈ members, (∀ char ∈ member.1, Json.Plain char) ∧ member.2.Plain := by
  simp only [Value.Plain, strings, mem_membersStrings]
  constructor
  · intro all member there
    exact ⟨all member.1 ⟨member, there, .inl rfl⟩,
      fun text inside => all text ⟨member, there, .inr inside⟩⟩
  · rintro all text ⟨member, there, rfl | inside⟩
    · exact (all member there).1
    · exact (all member there).2 text inside

end Strings

section Weights

def weigh (char : Char) : Nat := if char = '\x5c' ∨ char = 'u' then 1 else 0

def weight (text : List Char) : Nat := (text.map weigh).sum

def Value.weight (value : Value) : Nat := (value.strings.map Json.weight).sum

@[simp] theorem weight_nil : weight [] = 0 := rfl

@[simp] theorem weight_cons (char : Char) (text : List Char) :
    weight (char :: text) = weigh char + weight text := rfl

@[simp] theorem weight_append (text rest : List Char) :
    weight (text ++ rest) = weight text + weight rest := by
  simp [weight]

theorem weigh_le (char : Char) : weigh char ≤ 1 := by
  unfold weigh
  split <;> omega

theorem weight_suffix {rest text : List Char} (suffix : rest <:+ text) :
    weight rest ≤ weight text := by
  obtain ⟨front, rfl⟩ := suffix
  simp

theorem weight_skipSpace (text : List Char) : weight (skipSpace text) = weight text := by
  induction text with
  | nil => rfl
  | cons char text ih =>
    by_cases space : isSpace char = true
    · have nothing : weigh char = 0 := by
        simp only [isSpace, Bool.or_eq_true, decide_eq_true_eq] at space
        rcases space with ((rfl | rfl) | rfl) | rfl <;> rfl
      rw [skipSpace_cons space, weight_cons, nothing, ih, Nat.zero_add]
    · rw [skipSpace_stays (by simpa using space)]

end Weights

section Reading

def Weighs {α : Type} (strings : α → List (List Char)) (text : List Char)
    (read : α × List Char) : Prop :=
  ((strings read.1).map weight).sum + weight read.2 ≤ weight text ∧
    (((strings read.1).map weight).sum + weight read.2 = weight text →
      ∀ string ∈ strings read.1, ∀ char ∈ string, Plain char)

theorem weigh_simpleEscape {char escaped : Char} (escape : simpleEscape char = some escaped) :
    weigh escaped ≤ weigh char := by
  unfold simpleEscape at escape
  split at escape <;> cases escape <;> decide

variable {text : List Char}

open List Option

theorem readString_weighs {read : List Char × List Char}
    (reads : readString text = some read) : Weighs (fun content => [content]) text read := by
  induction text using readString.induct generalizing read with
  | case1 => simp [readString] at reads
  | case2 rest =>
    cases (some.inj (by simpa [readString] using reads) : ([], rest) = read)
    refine ⟨?_, ?_⟩
    · simp
    · simp
  | case3 first second third fourth rest ih =>
    simp only [readString, bind_eq_bind, bind_eq_some_iff, map_eq_some_iff] at reads
    obtain ⟨unit, _, later, reads, rfl⟩ := reads
    have below := (ih reads).1
    have light := weigh_le (if unit.isValidChar then Char.ofNat unit else '\uFFFD')
    have heavy : weigh '\x5c' = 1 ∧ weigh 'u' = 1 := ⟨rfl, rfl⟩
    simp only [Weighs, put, map_cons, map_nil, sum_cons, sum_nil, weight_cons] at below ⊢
    constructor
    · omega
    · omega
  | case4 char rest notUnit ih =>
    rw [readString] at reads
    · simp only [bind_eq_bind, bind_eq_some_iff, map_eq_some_iff] at reads
      obtain ⟨escaped, escape, later, reads, rfl⟩ := reads
      have below := (ih reads).1
      have light := weigh_simpleEscape escape
      have heavy : weigh '\x5c' = 1 := rfl
      simp only [Weighs, put, map_cons, map_nil, sum_cons, sum_nil, weight_cons] at below ⊢
      constructor
      · omega
      · omega
    · exact notUnit
  | case5 char rest notQuote notUnit notEscape bad =>
    rw [readString, if_pos bad] at reads
    · cases reads
    · exact notQuote
    · exact notUnit
    · exact notEscape
  | case6 char rest notQuote notUnit notEscape good ih =>
    rw [readString, if_neg good] at reads
    · obtain ⟨later, ⟨first, rfl⟩⟩ := map_eq_some_iff.mp reads
      have below := (ih first).1
      have plain := (ih first).2
      simp only [Weighs, put, map_cons, map_nil, sum_cons, sum_nil,
        weight_cons, mem_cons, not_mem_nil, or_false, forall_eq, forall_eq_or_imp]
        at below plain ⊢
      refine ⟨by omega, fun same => ⟨⟨notQuote, ?_, ?_⟩, plain (by omega)⟩⟩
      · exact fun escape => good (.inr escape)
      · have printed : ¬ char.toNat < 32 := fun low => good (.inl low)
        omega
    · exact notQuote
    · exact notUnit
    · exact notEscape

theorem readFraction_suffix {read : List Char × List Char}
    (reads : readFraction text = some read) : read.2 <:+ text := by
  unfold readFraction at reads
  split at reads
  · next rest =>
      simp only [ite_none_left_eq_some, some.injEq] at reads
      obtain ⟨_, rfl⟩ := reads
      exact (dropWhile_suffix _).trans (suffix_cons _ _)
  · cases reads
    exact suffix_refl _

theorem readExponent_suffix {read : Int × List Char}
    (reads : readExponent text = some read) : read.2 <:+ text := by
  unfold readExponent at reads
  split at reads
  · cases reads
    exact suffix_refl _
  · next char rest =>
      split at reads
      · simp only [ite_none_left_eq_some, some.injEq] at reads
        obtain ⟨_, rfl⟩ := reads
        refine (dropWhile_suffix _).trans ?_
        split
        · exact (tail_suffix _).trans (suffix_cons _ _)
        · exact suffix_cons _ _
      · cases reads
        exact suffix_refl _

theorem readUnsigned_reads {negative : Bool} {read : Value × List Char}
    (reads : readUnsigned negative text = some read) :
    (∃ number, read.1 = .number number) ∧ read.2 <:+ text := by
  unfold readUnsigned at reads
  simp only [ite_none_left_eq_some, bind_eq_bind, bind_eq_some_iff] at reads
  obtain ⟨_, fraction, first, exponent, second, same⟩ := reads
  cases same
  exact ⟨⟨_, rfl⟩, (readExponent_suffix second).trans
    ((readFraction_suffix first).trans (dropWhile_suffix _))⟩

theorem readNumber_weighs {read : Value × List Char}
    (reads : readNumber text = some read) : Weighs Value.strings text read := by
  have found : (∃ number, read.1 = .number number) ∧ read.2 <:+ text := by
    unfold readNumber at reads
    split at reads
    · obtain ⟨number, suffix⟩ := readUnsigned_reads reads
      exact ⟨number, suffix.trans (suffix_cons _ _)⟩
    · exact readUnsigned_reads reads
  obtain ⟨⟨number, same⟩, suffix⟩ := found
  refine ⟨?_, ?_⟩
  · simpa [same] using weight_suffix suffix
  · simp [same]

theorem Weighs.skip {α : Type} {strings : α → List (List Char)}
    {read : α × List Char} (weighs : Weighs strings (skipSpace text) read) :
    Weighs strings text read := by
  simpa [Weighs, weight_skipSpace] using weighs

theorem Weighs.cons {α : Type} {strings : α → List (List Char)}
    {read : α × List Char} (weighs : Weighs strings text read) {char : Char}
    (light : weigh char = 0) : Weighs strings (char :: text) read := by
  simpa [Weighs, light] using weighs

theorem Weighs.then {α β γ : Type} {first : α → List (List Char)} {later : β → List (List Char)}
    {both : γ → List (List Char)} {text middle rest : List Char} {one : α} {two : β} {all : γ}
    (begins : Weighs first text (one, middle)) (continues : Weighs later middle (two, rest))
    (joins : both all = first one ++ later two) : Weighs both text (all, rest) := by
  obtain ⟨below, plain⟩ := begins
  obtain ⟨under, clear⟩ := continues
  simp only [Weighs, joins, map_append, sum_append, mem_append] at *
  refine ⟨by omega, fun same string there => ?_⟩
  rcases there with inside | inside
  · exact plain (by omega) string inside
  · exact clear (by omega) string inside

theorem Weighs.map {α β : Type} {strings : α → List (List Char)} {others : β → List (List Char)}
    {text rest : List Char} {one : α} {other : β} (weighs : Weighs strings text (one, rest))
    (same : others other = strings one) : Weighs others text (other, rest) := by
  simpa [Weighs, same] using weighs

theorem weighs_suffix {α : Type} {strings : α → List (List Char)} {text rest : List Char}
    {value : α} (none : strings value = []) (suffix : rest <:+ text) :
    Weighs strings text (value, rest) := by
  refine ⟨?_, ?_⟩
  · simpa [none] using weight_suffix suffix
  · simp [none]

section Steps

variable {fuel : Nat}
  (values : ∀ text read, readValue fuel text = some read → Weighs Value.strings text read)
  (items : ∀ text read, readItems fuel text = some read → Weighs itemsStrings text read)
  (members : ∀ text read, readMembers fuel text = some read → Weighs membersStrings text read)

include items members in
theorem readValue_weighs {text : List Char} {read : Value × List Char}
    (reads : readValue (fuel + 1) text = some read) : Weighs Value.strings text read := by
  apply Weighs.skip
  rw [readValue] at reads
  split at reads
  · next rest same =>
      obtain ⟨found, inner, rfl⟩ := map_eq_some_iff.mp reads
      rw [same]
      exact ((readString_weighs inner).map rfl).cons rfl
  · next rest same =>
      rw [same]
      apply Weighs.cons _ rfl
      split at reads
      · cases reads
        exact (weighs_suffix rfl (tail_suffix _)).skip
      · obtain ⟨found, inner, rfl⟩ := map_eq_some_iff.mp reads
        exact (items _ _ inner).map rfl
  · next rest same =>
      rw [same]
      apply Weighs.cons _ rfl
      split at reads
      · cases reads
        exact (weighs_suffix rfl (tail_suffix _)).skip
      · obtain ⟨found, inner, rfl⟩ := map_eq_some_iff.mp reads
        exact (members _ _ inner).map rfl
  · next rest same =>
      cases reads
      rw [same]
      exact weighs_suffix rfl ⟨['t', 'r', 'u', 'e'], rfl⟩
  · next rest same =>
      cases reads
      rw [same]
      exact weighs_suffix rfl ⟨['f', 'a', 'l', 's', 'e'], rfl⟩
  · next rest same =>
      cases reads
      rw [same]
      exact weighs_suffix rfl ⟨['n', 'u', 'l', 'l'], rfl⟩
  · exact readNumber_weighs reads

include values items in
theorem readItems_weighs {text : List Char} {read : List Value × List Char}
    (reads : readItems (fuel + 1) text = some read) : Weighs itemsStrings text read := by
  rw [readItems] at reads
  split at reads
  · cases reads
  · next item rest first =>
      have weighs := values _ _ first
      split at reads
      · next next same =>
          obtain ⟨found, inner, rfl⟩ := map_eq_some_iff.mp reads
          have later : Weighs itemsStrings rest found := by
            apply Weighs.skip
            rw [same]
            exact (items _ _ inner).cons rfl
          exact weighs.then later rfl
      · next after same =>
          cases reads
          have later : Weighs itemsStrings rest ([], after) := by
            apply Weighs.skip
            rw [same]
            exact weighs_suffix rfl (suffix_cons _ _)
          exact weighs.then later rfl
      · cases reads

include values members in
theorem readMembers_weighs {text : List Char} {read : List (List Char × Value) × List Char}
    (reads : readMembers (fuel + 1) text = some read) : Weighs membersStrings text read := by
  apply Weighs.skip
  rw [readMembers] at reads
  split at reads
  · next opened same =>
      rw [same]
      apply Weighs.cons _ rfl
      split at reads
      · cases reads
      · next key colon string =>
          have weighsKey := readString_weighs string
          split at reads
          · next valued same =>
              split at reads
              · cases reads
              · next value rest first =>
                  have weighs : Weighs Value.strings colon (value, rest) := by
                    apply Weighs.skip
                    rw [same]
                    exact (values _ _ first).cons rfl
                  have joined {more : List (List Char × Value)} {after : List Char}
                      (later : Weighs membersStrings rest (more, after)) :
                      Weighs membersStrings opened ((key, value) :: more, after) := by
                    have both : Weighs (fun strings => strings) colon
                        (value.strings ++ membersStrings more, after) := weighs.then later rfl
                    exact weighsKey.then both rfl
                  split at reads
                  · next next same =>
                      obtain ⟨found, inner, rfl⟩ := map_eq_some_iff.mp reads
                      apply joined
                      apply Weighs.skip
                      rw [same]
                      exact (members _ _ inner).cons rfl
                  · next after same =>
                      cases reads
                      apply joined
                      apply Weighs.skip
                      rw [same]
                      exact weighs_suffix rfl (suffix_cons _ _)
                  · cases reads
          · cases reads
  · cases reads

end Steps

theorem reads_weigh (fuel : Nat) :
    (∀ text read, readValue fuel text = some read → Weighs Value.strings text read) ∧
    (∀ text read, readItems fuel text = some read → Weighs itemsStrings text read) ∧
    ∀ text read, readMembers fuel text = some read → Weighs membersStrings text read := by
  induction fuel with
  | zero => simp [readValue, readItems, readMembers]
  | succ fuel ih =>
    obtain ⟨values, items, members⟩ := ih
    exact ⟨fun _ _ => readValue_weighs items members, fun _ _ => readItems_weighs values items,
      fun _ _ => readMembers_weighs values members⟩

theorem decode_weighs {value : Value} (decodes : decode text = some value) :
    value.weight ≤ weight text ∧ (value.weight = weight text → value.Plain) := by
  unfold decode at decodes
  split at decodes
  · cases decodes
  · next found rest reads =>
      simp only [ite_none_right_eq_some, some.injEq] at decodes
      obtain ⟨end', rfl⟩ := decodes
      have nothing : weight rest = 0 := by
        rw [← weight_skipSpace, end', weight_nil]
      have weighs := (reads_weigh _).1 _ _ reads
      simpa [Weighs, nothing, Value.weight, Value.Plain] using weighs

end Reading

section Equality

mutual

inductive Equal : Value → Value → Prop
  | null : Equal .null .null
  | bool (value : Bool) : Equal (.bool value) (.bool value)
  | number (value : Rat) : Equal (.number value) (.number value)
  | string (text : List Char) : Equal (.string text) (.string text)
  | array {items others : List Value} : EqualItems items others →
      Equal (.array items) (.array others)
  | object {members middle others : List (List Char × Value)} : members.Perm middle →
      EqualMembers middle others → Equal (.object members) (.object others)

inductive EqualItems : List Value → List Value → Prop
  | nil : EqualItems [] []
  | cons {item other : Value} {items others : List Value} : Equal item other →
      EqualItems items others → EqualItems (item :: items) (other :: others)

inductive EqualMembers : List (List Char × Value) → List (List Char × Value) → Prop
  | nil : EqualMembers [] []
  | cons {key : List Char} {value other : Value} {members others : List (List Char × Value)} :
      Equal value other → EqualMembers members others →
      EqualMembers ((key, value) :: members) ((key, other) :: others)

end

theorem perm_membersStrings {members others : List (List Char × Value)}
    (perm : members.Perm others) : (membersStrings members).Perm (membersStrings others) := by
  induction perm with
  | nil => rfl
  | cons member _ ih => exact (ih.append_left _).cons _
  | swap first second rest =>
    simp only [membersStrings, ← List.cons_append, ← List.append_assoc]
    exact List.perm_append_comm.append_right _
  | trans _ _ ih later => exact ih.trans later

mutual

theorem Equal.strings {value other : Value} : Equal value other → value.strings.Perm other.strings
  | .null | .bool _ | .number _ | .string _ => .refl _
  | .array all => all.strings
  | .object perm all => (perm_membersStrings perm).trans all.strings

theorem EqualItems.strings {items others : List Value} :
    EqualItems items others → (itemsStrings items).Perm (itemsStrings others)
  | .nil => .refl _
  | .cons first later => first.strings.append later.strings

theorem EqualMembers.strings {members others : List (List Char × Value)} :
    EqualMembers members others → (membersStrings members).Perm (membersStrings others)
  | .nil => .refl _
  | .cons first later => (first.strings.append later.strings).cons _

end

theorem Equal.weight {value other : Value} (equal : Equal value other) :
    value.weight = other.weight :=
  (equal.strings.map Json.weight).sum_nat

theorem Equal.plain {value other : Value} (equal : Equal value other) :
    value.Plain ↔ other.Plain := by
  unfold Value.Plain
  simp only [equal.strings.mem_iff]

theorem Equal.keys {members others : List (List Char × Value)}
    (equal : Equal (.object members) (.object others)) :
    (members.map Prod.fst).Perm (others.map Prod.fst) := by
  cases equal with
  | object perm all =>
    have same {middle others : List (List Char × Value)} (all : EqualMembers middle others) :
        middle.map Prod.fst = others.map Prod.fst := by
      induction middle generalizing others with
      | nil =>
        cases all
        rfl
      | cons member members ih =>
        cases all with
        | cons first later => simp [ih later]
    rw [← same all]
    exact perm.map _

mutual

theorem Equal.refl : (value : Value) → Equal value value
  | .null => .null
  | .bool value => .bool value
  | .number value => .number value
  | .string text => .string text
  | .array items => .array (EqualItems.refl items)
  | .object members => .object (.refl _) (EqualMembers.refl members)

theorem EqualItems.refl : (items : List Value) → EqualItems items items
  | [] => .nil
  | item :: items => .cons (Equal.refl item) (EqualItems.refl items)

theorem EqualMembers.refl : (members : List (List Char × Value)) → EqualMembers members members
  | [] => .nil
  | (_, value) :: members => .cons (Equal.refl value) (EqualMembers.refl members)

end

theorem equalMembers_map {α : Type} {elements : List α} {key : α → List Char}
    {value other : α → Value} (each : ∀ element ∈ elements, Equal (value element) (other element)) :
    EqualMembers (elements.map fun element => (key element, value element))
      (elements.map fun element => (key element, other element)) := by
  induction elements with
  | nil => exact .nil
  | cons element elements ih =>
    exact .cons (each element (.head _)) (ih fun later there => each later (.tail _ there))

theorem equal_object {α : Type} {members : List (List Char × Value)} {elements : List α}
    {key : α → List Char} {value other : α → Value}
    (perm : members.Perm (elements.map fun element => (key element, value element)))
    (each : ∀ element ∈ elements, Equal (value element) (other element)) :
    Equal (.object members) (.object (elements.map fun element => (key element, other element))) :=
  .object perm (equalMembers_map each)

end Equality

section Spelling

structure Spells (text : List Char) (value : Value) : Prop where
  light : weight text ≤ value.weight
  reads : value.Plain → Reads text value

structure SpellsMember (text : List Char) (member : List Char × Value) : Prop where
  light : weight text ≤ weight member.1 + member.2.weight
  reads : (∀ char ∈ member.1, Plain char) → member.2.Plain → ReadsMember text member

variable {text : List Char}

theorem plain_of_decode {value expected : Value}
    (light : weight text ≤ expected.weight) (decodes : decode text = some value)
    (equal : Equal value expected) : expected.Plain := by
  obtain ⟨below, plain⟩ := decode_weighs decodes
  rw [equal.weight] at below plain
  exact equal.plain.mp (plain (by omega))

theorem spells_string (text : List Char) : Spells ('\x22' :: text ++ ['\x22']) (.string text) where
  light := by
    have quote : weigh '\x22' = 0 := rfl
    simp [Value.weight, quote]
  reads plain := reads_string (plain_string.mp plain)

theorem weight_digits (digits : ∀ char ∈ text, char.isDigit = true) : weight text = 0 := by
  induction text with
  | nil => rfl
  | cons char text ih =>
    have light : weigh char = 0 := by
      have digit := digits char (.head _)
      unfold weigh
      split
      · next heavy => rcases heavy with rfl | rfl <;> cases digit
      · rfl
    rw [weight_cons, light, ih fun other there => digits other (.tail _ there)]

theorem spells_number (number : Int) : Spells (toString number).toList (.number number) where
  light := by
    have digits := weight_digits (toDigits_digits number.natAbs)
    have sign : weigh '-' = 0 := rfl
    rw [toList_toString]
    split
    · simp [digits, sign]
    · simp [digits]
  reads _ := reads_number number

theorem itemsStrings_weight (items : List Value) :
    ((itemsStrings items).map weight).sum = (items.map Value.weight).sum := by
  induction items with
  | nil => rfl
  | cons item items ih => simp [ih, Value.weight]

theorem membersStrings_weight (members : List (List Char × Value)) :
    ((membersStrings members).map weight).sum =
      (members.map fun member => weight member.1 + member.2.weight).sum := by
  induction members with
  | nil => rfl
  | cons member members ih =>
    simp [ih, Value.weight]
    omega

theorem weight_object_cons (key : List Char) (value : Value) (members : List (List Char × Value)) :
    (Value.object ((key, value) :: members)).weight =
      weight key + value.weight + (Value.object members).weight := by
  simp [Value.weight]
  omega

theorem weight_object_append (members others : List (List Char × Value)) :
    (Value.object (members ++ others)).weight =
      (Value.object members).weight + (Value.object others).weight := by
  simp [Value.weight, membersStrings_weight]

theorem weight_listed {before : Char} (light : weigh before = 0) (texts : List (List Char)) :
    weight (listed before texts) = (texts.map weight).sum := by
  induction texts generalizing before with
  | nil => rfl
  | cons text texts ih => simp [listed, light, ih (show weigh ',' = 0 from rfl)]

variable {texts : List (List Char)}

theorem sum_le_of_forall₂ {α : Type} {heavy : α → Nat}
    {values : List α} (all : List.Forall₂ (fun text value => weight text ≤ heavy value) texts values) :
    (texts.map weight).sum ≤ (values.map heavy).sum := by
  induction all with
  | nil => simp
  | cons first _ ih =>
    simp only [List.map_cons, List.sum_cons]
    omega

theorem spells_array {values : List Value} (all : List.Forall₂ Spells texts values) :
    Spells ('[' :: listed ' ' texts ++ [']']) (.array values) where
  light := by
    have below := sum_le_of_forall₂ (all.imp fun _ _ spells => spells.light)
    have brackets : weigh '[' = 0 ∧ weigh ']' = 0 ∧ weigh ' ' = 0 := ⟨rfl, rfl, rfl⟩
    simpa [Value.weight, itemsStrings_weight, brackets, weight_listed brackets.2.2] using below
  reads plain := by
    apply reads_array
    rw [plain_array] at plain
    induction all with
    | nil => exact .nil
    | cons first _ ih =>
      exact .cons (first.reads (plain _ (.head _)))
        (ih fun item there => plain item (.tail _ there))

variable {members : List (List Char × Value)}

section

variable (all : List.Forall₂ SpellsMember texts members)
include all

theorem readsMember_of_spells (plain : (Value.object members).Plain) :
    List.Forall₂ ReadsMember texts members := by
  rw [plain_object] at plain
  induction all with
  | nil => exact .nil
  | cons first _ ih =>
    have clear := plain _ (.head _)
    exact .cons (first.reads clear.1 clear.2) (ih fun member there => plain member (.tail _ there))

theorem light_of_spells : (texts.map weight).sum ≤ (Value.object members).weight := by
  have below := sum_le_of_forall₂ (all.imp fun _ _ spells => spells.light)
  simpa [Value.weight, membersStrings_weight] using below

theorem spells_object : Spells ('\x7b' :: listed ' ' texts ++ ['\x7d']) (.object members) where
  light := by
    have below := light_of_spells all
    have braces : weigh '\x7b' = 0 ∧ weigh '\x7d' = 0 ∧ weigh ' ' = 0 := ⟨rfl, rfl, rfl⟩
    simpa [braces, weight_listed braces.2.2] using below
  reads plain := reads_object (readsMember_of_spells all plain)

end

theorem spells_member {member : List Char × Value}
    (spells : SpellsMember text member) : Spells ('\x7b' :: text ++ ['\x7d']) (.object [member]) where
  light := by
    have below := spells.light
    have braces : weigh '\x7b' = 0 ∧ weigh '\x7d' = 0 := ⟨rfl, rfl⟩
    simpa [braces, Value.weight] using below
  reads plain := by
    rw [plain_object] at plain
    have clear := plain member (.head _)
    have reads := reads_members (show skipSpace [] = [] from rfl) (spells.reads clear.1 clear.2) .nil
    simpa [listed] using reads

theorem understood_iff {value expected : Value} (spells : Spells text value)
    (equal : Equal value expected) :
    (∃ found, decode text = some found ∧ Equal found expected) ↔ expected.Plain := by
  constructor
  · rintro ⟨found, decodes, same⟩
    exact plain_of_decode (equal.weight ▸ spells.light) decodes same
  · intro plain
    exact ⟨value, decode_of_reads (spells.reads (equal.plain.mpr plain)), equal⟩

end Spelling

end Json
