import Mathlib.Algebra.Order.Ring.Rat
import Mathlib.Data.List.Forall2

/-!
JSON texts: a decoder, and rules for what it makes of a text that has been written part by part.
-/

namespace Json

open List Nat

inductive Value
  | null
  | bool (value : Bool)
  | number (value : Rat)
  | string (text : List Char)
  | array (items : List Value)
  | object (members : List (List Char × Value))

def isSpace (char : Char) : Bool := char = ' ' || char = '\t' || char = '\n' || char = '\r'

def skipSpace (text : List Char) : List Char := text.dropWhile isSpace

section Decoder

def hexDigit (char : Char) : Option Nat :=
  if '0' ≤ char ∧ char ≤ '9' then some (char.toNat - '0'.toNat)
  else if 'a' ≤ char ∧ char ≤ 'f' then some (char.toNat - 'a'.toNat + 10)
  else if 'A' ≤ char ∧ char ≤ 'F' then some (char.toNat - 'A'.toNat + 10)
  else none

/-- The code unit of an escape. -/
def hexUnit (first second third fourth : Char) : Option Nat := do
  let first ← hexDigit first
  let second ← hexDigit second
  let third ← hexDigit third
  let fourth ← hexDigit fourth
  some (((first * 16 + second) * 16 + third) * 16 + fourth)

def simpleEscape : Char → Option Char
  | '\x22' => some '\x22'
  | '\x5c' => some '\x5c'
  | '/' => some '/'
  | 'b' => some '\x08'
  | 'f' => some '\x0c'
  | 'n' => some '\n'
  | 'r' => some '\r'
  | 't' => some '\t'
  | _ => none

def put (char : Char) (read : List Char × List Char) : List Char × List Char :=
  (char :: read.1, read.2)

def readString : List Char → Option (List Char × List Char)
  | [] => none
  | '\x22' :: rest => some ([], rest)
  | '\x5c' :: 'u' :: first :: second :: third :: fourth :: rest => do
      let unit ← hexUnit first second third fourth
      (readString rest).map (put (if unit.isValidChar then Char.ofNat unit else '\uFFFD'))
  | '\x5c' :: char :: rest => do
      let escaped ← simpleEscape char
      (readString rest).map (put escaped)
  | char :: rest => if char.toNat < 32 ∨ char = '\x5c' then none else (readString rest).map (put char)

def readFraction : List Char → Option (List Char × List Char)
  | '.' :: rest =>
    let digits := rest.takeWhile Char.isDigit
    if digits = [] then none else some (digits, rest.dropWhile Char.isDigit)
  | text => some ([], text)

def readExponent : List Char → Option (Int × List Char)
  | [] => some (0, [])
  | char :: rest =>
    if char = 'e' ∨ char = 'E' then
      let negative := rest.head? = some '-'
      let rest := if negative ∨ rest.head? = some '+' then rest.tail else rest
      let digits := rest.takeWhile Char.isDigit
      let exponent : Int := Nat.ofDigitChars 10 digits 0
      if digits = [] then none
      else some (if negative then -exponent else exponent, rest.dropWhile Char.isDigit)
    else some (0, char :: rest)

def readUnsigned (negative : Bool) (text : List Char) : Option (Value × List Char) :=
  let whole := text.takeWhile Char.isDigit
  if whole = [] ∨ whole.head? = some '0' ∧ whole ≠ ['0'] then none
  else do
    let (fraction, rest) ← readFraction (text.dropWhile Char.isDigit)
    let (exponent, rest) ← readExponent rest
    let digits : Rat := Nat.ofDigitChars 10 (whole ++ fraction) 0
    let scale := exponent - fraction.length
    let value := if 0 ≤ scale then digits * 10 ^ scale.toNat else digits / 10 ^ (-scale).toNat
    some (.number (if negative then -value else value), rest)

def readNumber : List Char → Option (Value × List Char)
  | '-' :: rest => readUnsigned true rest
  | text => readUnsigned false text

mutual

def readValue : Nat → List Char → Option (Value × List Char)
  | 0, _ => none
  | fuel + 1, text =>
    match skipSpace text with
    | '\x22' :: rest => (readString rest).map fun read => (.string read.1, read.2)
    | '[' :: rest =>
      if (skipSpace rest).head? = some ']' then some (.array [], (skipSpace rest).tail)
      else (readItems fuel rest).map fun read => (.array read.1, read.2)
    | '\x7b' :: rest =>
      if (skipSpace rest).head? = some '\x7d' then some (.object [], (skipSpace rest).tail)
      else (readMembers fuel rest).map fun read => (.object read.1, read.2)
    | 't' :: 'r' :: 'u' :: 'e' :: rest => some (.bool true, rest)
    | 'f' :: 'a' :: 'l' :: 's' :: 'e' :: rest => some (.bool false, rest)
    | 'n' :: 'u' :: 'l' :: 'l' :: rest => some (.null, rest)
    | text => readNumber text

def readItems : Nat → List Char → Option (List Value × List Char)
  | 0, _ => none
  | fuel + 1, text =>
    match readValue fuel text with
    | none => none
    | some (item, rest) =>
      match skipSpace rest with
      | ',' :: rest => (readItems fuel rest).map fun read => (item :: read.1, read.2)
      | ']' :: rest => some ([item], rest)
      | _ => none

def readMembers : Nat → List Char → Option (List (List Char × Value) × List Char)
  | 0, _ => none
  | fuel + 1, text =>
    match skipSpace text with
    | '\x22' :: rest =>
      match readString rest with
      | none => none
      | some (key, rest) =>
        match skipSpace rest with
        | ':' :: rest =>
          match readValue fuel rest with
          | none => none
          | some (value, rest) =>
            match skipSpace rest with
            | ',' :: rest =>
              (readMembers fuel rest).map fun read => ((key, value) :: read.1, read.2)
            | '\x7d' :: rest => some ([(key, value)], rest)
            | _ => none
        | _ => none
    | _ => none

end

def decode (text : List Char) : Option Value :=
  match readValue (text.length + 1) text with
  | none => none
  | some (value, rest) => if skipSpace rest = [] then some value else none

end Decoder

def Ends (rest : List Char) : Prop :=
  ∀ char, rest.head? = some char →
    char.isDigit = false ∧ char ≠ '.' ∧ char ≠ 'e' ∧ char ≠ 'E'

def Reads (text : List Char) (value : Value) : Prop :=
  ∀ rest fuel, Ends rest → text.length ≤ fuel → readValue fuel (text ++ rest) = some (value, rest)

def Plain (char : Char) : Prop := char ≠ '\x22' ∧ char ≠ '\x5c' ∧ 32 ≤ char.toNat

instance (char : Char) : Decidable (Plain char) := inferInstanceAs (Decidable (_ ∧ _ ∧ _))

theorem decode_of_reads {text : List Char} {value : Value} (reads : Reads text value) :
    decode text = some value := by
  have read := reads [] (text.length + 1) (by simp [Ends]) (le_succ _)
  rw [append_nil] at read
  simp [decode, read, skipSpace]

section Strings

variable {text : List Char} (plain : ∀ char ∈ text, Plain char)
include plain

theorem readString_plain
    (rest : List Char) : readString (text ++ '\x22' :: rest) = some (text, rest) := by
  induction text with
  | nil => simp [readString]
  | cons char text ih =>
    obtain ⟨notQuote, notEscape, printed⟩ := plain char (.head _)
    have later := ih fun other there => plain other (.tail _ there)
    rw [cons_append, readString]
    · have low : ¬ (char.toNat < 32 ∨ char = '\x5c') := by
        rintro (below | same)
        · omega
        · exact notEscape same
      rw [if_neg low, later]
      rfl
    · exact fun same => notQuote same
    · exact fun _ _ _ _ _ same => absurd same notEscape
    · exact fun _ _ same => absurd same notEscape

theorem reads_string : Reads ('\x22' :: text ++ ['\x22']) (.string text) := by
  intro rest fuel _ enough
  cases fuel with
  | zero => simp at enough
  | succ fuel => simp [readValue, skipSpace, isSpace, readString_plain plain]

end Strings

section Numbers

variable {rest : List Char}

theorem digits_of_ends {digits : List Char} (all : ∀ char ∈ digits, char.isDigit = true)
    (ends : Ends rest) : (digits ++ rest).takeWhile Char.isDigit = digits ∧
      (digits ++ rest).dropWhile Char.isDigit = rest := by
  induction digits with
  | nil =>
    cases rest with
    | nil => simp
    | cons char rest => simp [(ends char rfl).1]
  | cons digit digits ih =>
    have later := ih fun char there => all char (.tail _ there)
    simp [all digit (.head _), later]

theorem toDigits_digits (number : Nat) : ∀ char ∈ Nat.toDigits 10 number, char.isDigit = true :=
  fun _ there => isDigit_of_mem_toDigits (by decide) (by decide) there

theorem toDigits_head {number : Nat} (zero : (Nat.toDigits 10 number).head? = some '0') :
    Nat.toDigits 10 number = ['0'] := by
  induction number using Nat.strong_induction_on with
  | _ number ih =>
    by_cases small : number < 10
    · rw [toDigits_of_lt_base small] at zero ⊢
      simpa using zero
    · rw [toDigits_of_base_le (by decide) (by omega)] at zero
      rw [head?_append_of_ne_nil _ toDigits_ne_nil] at zero
      have front := ih (number / 10) (by omega) zero
      have value : number / 10 = Nat.ofDigitChars 10 ['0'] 0 := by
        rw [← front, ofDigitChars_ten_toDigits]
      have nothing : Nat.ofDigitChars 10 ['0'] 0 = 0 := rfl
      omega

theorem readEnd (ends : Ends rest) :
    readFraction rest = some ([], rest) ∧ readExponent rest = some (0, rest) := by
  cases rest with
  | nil => exact ⟨rfl, rfl⟩
  | cons char rest =>
    obtain ⟨_, point, small, large⟩ := ends char rfl
    constructor
    · unfold readFraction
      split
      · next same => exact absurd (cons.inj same).1 point
      · rfl
    · simp [readExponent, small, large]

theorem readUnsigned_digits (negative : Bool) (number : Nat) (ends : Ends rest) :
    readUnsigned negative (Nat.toDigits 10 number ++ rest) =
      some (.number (if negative then -number else number), rest) := by
  obtain ⟨whole, after⟩ := digits_of_ends (toDigits_digits number) ends
  obtain ⟨fraction, exponent⟩ := readEnd ends
  have valid : ¬ (Nat.toDigits 10 number = [] ∨
      (Nat.toDigits 10 number).head? = some '0' ∧ Nat.toDigits 10 number ≠ ['0']) := by
    rintro (empty | ⟨zero, more⟩)
    · exact toDigits_ne_nil empty
    · exact more (toDigits_head zero)
  rw [readUnsigned, whole, after, if_neg valid, fraction]
  simp [exponent]

theorem readNumber_natural (number : Nat) (ends : Ends rest) :
    readNumber (Nat.toDigits 10 number ++ rest) = some (.number number, rest) := by
  have read := readUnsigned_digits false number ends
  cases digits : Nat.toDigits 10 number with
  | nil => exact absurd digits toDigits_ne_nil
  | cons char more =>
    rw [digits] at read
    rw [cons_append, readNumber]
    · simpa using read
    · rintro rest' same
      have digit := toDigits_digits number char (by rw [digits]; simp)
      rw [(cons.inj same).1] at digit
      cases digit

theorem readValue_digit {char : Char} (first : char.isDigit = true ∨ char = '-') (fuel : Nat)
    (text : List Char) : readValue (fuel + 1) (char :: text) = readNumber (char :: text) := by
  have other (opening : Char) (not : opening.isDigit = false ∧ opening ≠ '-') : char ≠ opening := by
    rintro rfl
    rcases first with digit | sign
    · rw [not.1] at digit
      cases digit
    · exact not.2 sign
  have visible : isSpace char = false := by
    simp [isSpace, other ' ' (by decide), other '\t' (by decide), other '\n' (by decide),
      other '\r' (by decide)]
  have stays : skipSpace (char :: text) = char :: text := by simp [skipSpace, visible]
  rw [readValue, stays]
  split
  · next same => exact absurd (cons.inj same).1 (other _ (by decide))
  · next same => exact absurd (cons.inj same).1 (other _ (by decide))
  · next same => exact absurd (cons.inj same).1 (other _ (by decide))
  · next same => exact absurd (cons.inj same).1 (other _ (by decide))
  · next same => exact absurd (cons.inj same).1 (other _ (by decide))
  · next same => exact absurd (cons.inj same).1 (other _ (by decide))
  · rfl

theorem toList_toString (number : Int) :
    (toString number).toList = if number < 0 then '-' :: Nat.toDigits 10 number.natAbs
      else Nat.toDigits 10 number.natAbs := by
  cases number with
  | ofNat number =>
    have positive : ¬ (Int.ofNat number < 0) := by
      simp
    rw [if_neg positive]
    exact toList_repr
  | negSucc number =>
    rw [if_pos (Int.negSucc_lt_zero number)]
    change ("-" ++ Nat.repr (number + 1)).toList = _
    simp [toList_repr]

theorem reads_number (number : Int) : Reads (toString number).toList (.number number) := by
  intro rest fuel ends enough
  rw [toList_toString] at enough ⊢
  split at enough
  · next negative =>
      rw [if_pos negative]
      cases fuel with
      | zero => simp at enough
      | succ fuel =>
        rw [cons_append, readValue_digit (.inr rfl), readNumber, readUnsigned_digits true _ ends]
        have value : (number : Rat) = -(number.natAbs : Rat) := by
          rw [← Int.cast_natCast, Int.ofNat_natAbs_of_nonpos (by omega), Int.cast_neg, neg_neg]
        rw [value, if_pos rfl]
  · next natural =>
      rw [if_neg natural]
      have value : (number : Rat) = (number.natAbs : Rat) := by
        rw [← Int.cast_natCast, Int.natAbs_of_nonneg (by omega)]
      cases digits : Nat.toDigits 10 number.natAbs with
      | nil => exact absurd digits toDigits_ne_nil
      | cons char more =>
        cases fuel with
        | zero =>
          rw [digits] at enough
          simp at enough
        | succ fuel =>
          have first := toDigits_digits number.natAbs char (by rw [digits]; simp)
          rw [cons_append, readValue_digit (.inl first), ← cons_append, ← digits,
            readNumber_natural _ ends, value]

end Numbers

section Lists

def listed : Char → List (List Char) → List Char
  | _, [] => []
  | before, text :: rest => before :: text ++ listed ',' rest

theorem ends_listed (texts : List (List Char)) {close : Char}
    (closes : close.isDigit = false ∧ close ≠ '.' ∧ close ≠ 'e' ∧ close ≠ 'E')
    (rest : List Char) : Ends (listed ',' texts ++ close :: rest) := by
  intro char first
  cases texts with
  | nil =>
    cases first
    exact closes
  | cons text texts =>
    cases first
    decide

variable {char : Char} {fuel : Nat} {value : Value} {bad : List Char}

theorem skipSpace_cons (space : isSpace char = true) (text : List Char) :
    skipSpace (char :: text) = skipSpace text := by
  simp [skipSpace, space]

theorem skipSpace_stays (visible : isSpace char = false) (text : List Char) :
    skipSpace (char :: text) = char :: text := by
  simp [skipSpace, visible]

variable {spaces : List Char}

section

variable (all : skipSpace spaces = [])
include all

theorem skipSpace_append (text : List Char) : skipSpace (spaces ++ text) = skipSpace text := by
  induction spaces with
  | nil => rfl
  | cons char spaces ih =>
    unfold skipSpace at all
    rw [dropWhile_cons] at all
    split at all
    · next space => rw [cons_append, skipSpace_cons space, ih all]
    · cases all

theorem readValue_spaces (fuel : Nat)
    (text : List Char) : readValue fuel (spaces ++ text) = readValue fuel text := by
  cases fuel with
  | zero => simp [readValue]
  | succ fuel => simp only [readValue, skipSpace_append all]

theorem readItems_spaces (fuel : Nat)
    (text : List Char) : readItems fuel (spaces ++ text) = readItems fuel text := by
  cases fuel with
  | zero => simp [readItems]
  | succ fuel => simp only [readItems, readValue_spaces all]

theorem readMembers_spaces (fuel : Nat)
    (text : List Char) : readMembers fuel (spaces ++ text) = readMembers fuel text := by
  cases fuel with
  | zero => simp [readMembers]
  | succ fuel => simp only [readMembers, skipSpace_append all]

end

variable {text : List Char}

theorem head_of_readValue {read : Value × List Char}
    (reads : readValue fuel text = some read) : (skipSpace text).head? ≠ some ']' := by
  intro first
  cases fuel with
  | zero => simp [readValue] at reads
  | succ fuel =>
    cases same : skipSpace text with
    | nil => simp [same] at first
    | cons char rest =>
      rw [same] at first
      cases first
      simp [readValue, same, readNumber, readUnsigned] at reads

variable {texts : List (List Char)} {values : List Value}

theorem readItems_listed (all : List.Forall₂ Reads texts values)
    (reads : Reads text value) (fuel : Nat) (rest : List Char)
    (enough : (text ++ listed ',' texts).length + 1 ≤ fuel) :
    readItems fuel (text ++ (listed ',' texts ++ ']' :: rest)) = some (value :: values, rest) := by
  induction all generalizing text value fuel with
  | nil =>
    cases fuel with
    | zero => simp at enough
    | succ fuel =>
      have read := reads (']' :: rest) fuel (ends_listed [] (by decide) rest)
        (by simpa [listed] using enough)
      simp [readItems, listed, read, skipSpace, isSpace]
  | @cons next nextValue texts values first _ ih =>
    cases fuel with
    | zero => simp at enough
    | succ fuel =>
      simp only [listed, length_append, length_cons] at enough
      have read := reads (listed ',' (next :: texts) ++ ']' :: rest) fuel
        (ends_listed _ (by decide) rest) (by omega)
      have later := ih first fuel (by simp only [length_append]; omega)
      simp only [listed, cons_append, append_assoc] at read
      simp [readItems, listed, read, skipSpace, isSpace, later]

theorem reads_items (all : skipSpace spaces = []) (first : Reads text value)
    (later : List.Forall₂ Reads texts values) :
    Reads ('[' :: spaces ++ text ++ listed ',' texts ++ [']']) (.array (value :: values)) := by
  intro rest fuel _ enough
  cases fuel with
  | zero => simp at enough
  | succ fuel =>
    simp only [length_append, length_cons, length_nil] at enough
    have items := readItems_listed later first fuel rest (by simp only [length_append]; omega)
    have begins := first (listed ',' texts ++ ']' :: rest) text.length
      (ends_listed _ (by decide) rest) (le_refl _)
    have more := head_of_readValue begins
    simp only [cons_append, append_assoc, nil_append]
    rw [readValue, skipSpace_stays (by decide)]
    simp only [skipSpace_append all, more, if_false, readItems_spaces all, items, Option.map_some]

theorem reads_array (all : List.Forall₂ Reads texts values) :
    Reads ('[' :: listed ' ' texts ++ [']']) (.array values) := by
  cases all with
  | nil =>
    intro rest fuel _ enough
    cases fuel with
    | zero => simp at enough
    | succ fuel => simp [readValue, listed, skipSpace, isSpace]
  | cons first later =>
    have spaced := reads_items (show skipSpace [' '] = [] from rfl) first later
    simpa [listed] using spaced

inductive ReadsMember : List Char → List Char × Value → Prop
  | intro {key text : List Char} {value : Value} (before after : List Char)
      (plain : ∀ char ∈ key, Plain char) (spaces : skipSpace before = [])
      (more : skipSpace after = []) (reads : Reads text value) :
      ReadsMember ('\x22' :: key ++ '\x22' :: before ++ ':' :: after ++ text) (key, value)

variable {member : List Char × Value}

theorem readMembers_first (reads : ReadsMember text member) {rest : List Char} (ends : Ends rest)
    (enough : text.length ≤ fuel) :
    readMembers (fuel + 1) (text ++ rest) =
      match skipSpace rest with
      | ',' :: rest => (readMembers fuel rest).map fun read => (member :: read.1, read.2)
      | '\x7d' :: rest => some ([member], rest)
      | _ => none := by
  cases reads with
  | @intro key text value before after plain spaces more reads =>
    have short : text.length ≤ fuel := by
      simp only [length_append, length_cons] at enough
      omega
    have read := reads rest fuel ends short
    have string := readString_plain plain (before ++ (':' :: (after ++ (text ++ rest))))
    simp only [cons_append, append_assoc]
    rw [readMembers, skipSpace_stays (by decide)]
    simp only [string, skipSpace_append spaces,
      skipSpace_stays (show isSpace ':' = false by decide), readValue_spaces more, read]

variable {members : List (List Char × Value)}

theorem readMembers_listed (all : List.Forall₂ ReadsMember texts members)
    (reads : ReadsMember text member) (fuel : Nat)
    (rest : List Char) (enough : (text ++ listed ',' texts).length + 1 ≤ fuel) :
    readMembers fuel (text ++ (listed ',' texts ++ '\x7d' :: rest)) =
      some (member :: members, rest) := by
  induction all generalizing text member fuel with
  | nil =>
    cases fuel with
    | zero => simp at enough
    | succ fuel =>
      have short : text.length ≤ fuel := by simpa [listed] using enough
      rw [readMembers_first reads (ends_listed [] (by decide) rest) short]
      simp [listed, skipSpace, isSpace]
  | @cons next nextMember texts members first _ ih =>
    cases fuel with
    | zero => simp at enough
    | succ fuel =>
      simp only [listed, length_append, length_cons] at enough
      rw [readMembers_first reads (ends_listed _ (by decide) rest) (by omega)]
      have later := ih first fuel (by simp only [length_append]; omega)
      simp [listed, skipSpace, isSpace, later]

theorem head_of_readsMember (reads : ReadsMember text member) (rest : List Char) :
    (skipSpace (text ++ rest)).head? ≠ some '\x7d' := by
  cases reads with
  | intro before after =>
    simp only [cons_append, skipSpace_stays (show isSpace '\x22' = false by decide)]
    simp

theorem reads_members (all : skipSpace spaces = []) (first : ReadsMember text member)
    (later : List.Forall₂ ReadsMember texts members) :
    Reads ('\x7b' :: spaces ++ text ++ listed ',' texts ++ ['\x7d'])
      (.object (member :: members)) := by
  intro rest fuel _ enough
  cases fuel with
  | zero => simp at enough
  | succ fuel =>
    simp only [length_append, length_cons, length_nil] at enough
    have read := readMembers_listed later first fuel rest (by simp only [length_append]; omega)
    have more := head_of_readsMember first (listed ',' texts ++ '\x7d' :: rest)
    simp only [cons_append, append_assoc, nil_append]
    rw [readValue, skipSpace_stays (by decide)]
    simp only [skipSpace_append all, more, if_false, readMembers_spaces all, read, Option.map_some]

theorem reads_object (all : List.Forall₂ ReadsMember texts members) :
    Reads ('\x7b' :: listed ' ' texts ++ ['\x7d']) (.object members) := by
  cases all with
  | nil =>
    intro rest fuel _ enough
    cases fuel with
    | zero => simp at enough
    | succ fuel => simp [readValue, listed, skipSpace, isSpace]
  | cons first later =>
    have spaced := reads_members (show skipSpace [' '] = [] from rfl) first later
    simpa [listed] using spaced

theorem readMembers_fails (all : List.Forall₂ ReadsMember texts members)
    (reads : ReadsMember text member) (fuel : Nat) (fails : ∀ fuel, readMembers fuel bad = none)
    (enough : (text ++ listed ',' texts).length + 1 ≤ fuel) :
    readMembers fuel (text ++ (listed ',' texts ++ ',' :: bad)) = none := by
  induction all generalizing text member fuel with
  | nil =>
    cases fuel with
    | zero => simp at enough
    | succ fuel =>
      have short : text.length ≤ fuel := by simpa [listed] using enough
      rw [readMembers_first reads (ends_listed [] (by decide) bad) short]
      simp [listed, skipSpace, isSpace, fails]
  | @cons next nextMember texts members first _ ih =>
    cases fuel with
    | zero => simp at enough
    | succ fuel =>
      simp only [listed, length_append, length_cons] at enough
      rw [readMembers_first reads (ends_listed _ (by decide) bad) (by omega)]
      have later := ih first fuel (by simp only [length_append]; omega)
      simp [listed, skipSpace, isSpace, later]

theorem readValue_fails (fails : ∀ fuel, readMembers fuel text = none)
    (more : (skipSpace text).head? ≠ some '\x7d') (fuel : Nat) :
    readValue fuel ('\x7b' :: text) = none := by
  cases fuel with
  | zero => simp [readValue]
  | succ fuel =>
    rw [readValue, skipSpace_stays (by decide)]
    simp [more, fails]

theorem readMembers_value_fails {key : List Char} (plain : ∀ char ∈ key, Plain char)
    {before after : List Char} (spaces : skipSpace before = []) (more : skipSpace after = [])
    (fails : ∀ fuel value rest, readValue fuel text = some (value, rest) →
      ∀ next, skipSpace rest ≠ ',' :: next ∧ skipSpace rest ≠ '\x7d' :: next) (fuel : Nat) :
    readMembers fuel ('\x22' :: key ++ '\x22' :: before ++ ':' :: after ++ text) = none := by
  cases fuel with
  | zero => simp [readMembers]
  | succ fuel =>
    have string := readString_plain plain (before ++ (':' :: (after ++ text)))
    simp only [cons_append, append_assoc]
    rw [readMembers, skipSpace_stays (by decide)]
    simp only [string, skipSpace_append spaces,
      skipSpace_stays (show isSpace ':' = false by decide), readValue_spaces more]
    split
    · rfl
    · next value rest reads =>
        split
        · next next same => exact absurd same (fails _ _ _ reads next).1
        · next next same => exact absurd same (fails _ _ _ reads next).2
        · rfl

theorem decode_fails (all : List.Forall₂ ReadsMember texts members) (nonempty : texts ≠ [])
    (fails : ∀ fuel, readMembers fuel bad = none) :
    decode ('\x7b' :: (listed ' ' texts ++ ',' :: bad)) = none := by
  cases all with
  | nil => exact absurd rfl nonempty
  | @cons text member texts members first later =>
    have more := head_of_readsMember first (listed ',' texts ++ ',' :: bad)
    have nothing := readMembers_fails later first
      ('\x7b' :: (listed ' ' (text :: texts) ++ ',' :: bad)).length fails
      (by simp only [listed, length_cons, length_append]; omega)
    have spaced (fuel : Nat) (rest : List Char) :
        readMembers fuel (' ' :: rest) = readMembers fuel rest :=
      readMembers_spaces (show skipSpace [' '] = [] from rfl) fuel rest
    rw [decode, readValue, skipSpace_stays (by decide)]
    simp only [listed, cons_append, append_assoc] at nothing ⊢
    simp only [skipSpace_cons (show isSpace ' ' = true from rfl), more, if_false, spaced,
      nothing, Option.map_none]

end Lists

end Json
