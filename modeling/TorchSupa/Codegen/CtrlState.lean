import Mathlib.Data.List.Basic

/-!
The lines that `CppImplements.__get_impl_names` keeps of a source file, and those that a preprocessor
keeps. A text is the list of its characters.
-/

namespace TorchSupa.Codegen

open List

section Versions

def torchVersions : List (Nat × Nat × Nat) :=
  [(1, 10, 0), (1, 10, 1), (1, 10, 2), (1, 11, 0), (1, 12, 0), (1, 12, 1), (1, 13, 0), (1, 13, 1),
    (2, 0, 0), (2, 1, 0), (2, 2, 0), (2, 3, 0), (2, 4, 1), (2, 5, 0), (2, 5, 1), (2, 6, 0),
    (2, 7, 0), (2, 8, 0), (2, 9, 0), (2, 10, 0), (2, 11, 0), (2, 12, 0)]

def versions : List (List Char × Nat) := torchVersions.map fun version =>
  (s!"TORCH_{version.1}_{version.2.1}_{version.2.2}".toList,
    version.1 * 10000 + version.2.1 * 100 + version.2.2)

def torchVer : List Char := "TORCH_VER".toList

def getVersion (current : Nat) (ver : List Char) : Nat :=
  if ver = torchVer then current else (versions.lookup ver).getD 0

def versionFile (current : Nat) : List (List Char × Nat) := versions ++ [(torchVer, current)]

end Versions

section Matching

def isSpace (char : Char) : Bool := char.isWhitespace || char == '\x0b' || char == '\x0c'

def isWord (char : Char) : Bool := char.isAlphanum || char == '_'

def strip (line : List Char) : List Char :=
  ((line.dropWhile isSpace).reverse.dropWhile isSpace).reverse

inductive Operator
  | le
  | lt
  | eq
  | ge
  | gt
  | ne
deriving DecidableEq, Repr

def Operator.text : Operator → List Char
  | .le => ['<', '=']
  | .lt => ['<']
  | .eq => ['=', '=']
  | .ge => ['>', '=']
  | .gt => ['>']
  | .ne => ['!', '=']

def Operator.holds : Operator → Nat → Nat → Bool
  | .le, a, b => a ≤ b
  | .lt, a, b => a < b
  | .eq, a, b => a == b
  | .ge, a, b => a ≥ b
  | .gt, a, b => a > b
  | .ne, a, b => a != b

def readOperator : List Char → Option (Operator × List Char)
  | '<' :: '=' :: rest => some (.le, rest)
  | '<' :: rest => some (.lt, rest)
  | '=' :: '=' :: rest => some (.eq, rest)
  | '>' :: '=' :: rest => some (.ge, rest)
  | '>' :: rest => some (.gt, rest)
  | _ => none

def readCondition : List Char → Option (List Char × Operator × List Char)
  | '#' :: 'i' :: 'f' :: rest =>
    let first := rest.dropWhile isSpace
    if rest.takeWhile isSpace = [] ∨ first.takeWhile isWord = [] then none
    else (readOperator ((first.dropWhile isWord).dropWhile isSpace)).map fun found =>
      (first.takeWhile isWord, found.1, (found.2.dropWhile isSpace).takeWhile isWord)
  | _ => none

def searchCondition : List Char → Option (List Char × Operator × List Char)
  | [] => none
  | char :: rest => (readCondition (char :: rest)).or (searchCondition rest)

def forceCondition : List Char → Option (List Char)
  | '#' :: 'i' :: 'f' :: rest =>
    let value := rest.dropWhile isSpace
    if rest.takeWhile isSpace ≠ [] ∧
        value ∈ ["0".toList, "1".toList, "true".toList, "false".toList] then some value
    else none
  | _ => none

end Matching

section Code

structure CtrlState where
  isVersionFlag : Bool := false
  record : Bool := false
  active : Bool
deriving DecidableEq, Repr

namespace CtrlState

def checkCondition (self : CtrlState) (current : Nat) (name : List Char) : CtrlState :=
  match searchCondition name with
  | some groups =>
    if torchVer ∈ [groups.1, groups.2.1.text, groups.2.2] then
      { self with
        isVersionFlag := true
        record := groups.2.1.holds (getVersion current groups.1) (getVersion current groups.2.2) }
    else self
  | none =>
    match forceCondition name with
    | some value =>
      { self with
        isVersionFlag := true
        record := value = "1".toList ∨ value = "true".toList }
    | none => self

def new (current : Nat) (name : List Char) (initial : Bool) : CtrlState :=
  if initial then { active := initial : CtrlState }.checkCondition current name
  else { active := initial }

def updateElse (self : CtrlState) : CtrlState :=
  let active := if self.record then false else self.active
  { self with active, record := !self.record && active }

def updateElif (self : CtrlState) (current : Nat) (name : List Char) : CtrlState :=
  if self.updateElse.active then self.updateElse.checkCondition current name else self.updateElse

end CtrlState

structure Scan where
  stack : List CtrlState
  content : List (List Char)
deriving DecidableEq, Repr

/-- No result stands for an exception. -/
def scanLine (current : Nat) (self : Scan) (line : List Char) : Option Scan :=
  let stripped := strip line
  match self.stack with
  | [] => none
  | top :: below =>
    if "#if".toList <+: stripped then
      if ['\\'] <:+ stripped then none
      else some { self with stack := .new current stripped top.record :: self.stack }
    else if "#else".toList <+: stripped then some { self with stack := top.updateElse :: below }
    else if "#elif".toList <+: stripped then
      if ['\\'] <:+ stripped then none
      else some { self with stack := top.updateElif current stripped :: below }
    else if "#endif".toList <+: stripped then
      if below = [] then none else some { self with stack := below }
    else if top.record then some { self with content := self.content ++ [line] }
    else some self

/-- What the implementations are searched in; `CtrlState("global")` matches nothing. -/
def validContent (current : Nat) (lines : List (List Char)) : Option (List (List Char)) :=
  (lines.foldlM (scanLine current) ⟨[{ active := true, record := true }], []⟩).map Scan.content

end Code

section Specification

inductive Condition
  | compare (left : List Char) (op : Operator) (right : List Char)
  | force (value : Bool)

def Identifier (name : List Char) : Prop :=
  name.all isWord ∧ ∃ char ∈ name.head?, char.isDigit = false

def Condition.Text : Condition → List Char → Prop
  | .compare left op right, text =>
    Identifier left ∧ Identifier right ∧ (left = torchVer ∨ right = torchVer) ∧
      ∃ before after, before.all isSpace ∧ after.all isSpace ∧
        text = left ++ before ++ op.text ++ after ++ right
  | .force value, text => text ∈ if value then ["1".toList, "true".toList]
      else ["0".toList, "false".toList]

def macroValue (defines : List (List Char × Nat)) (name : List Char) : Nat :=
  (defines.lookup name).getD 0

def Condition.holds (defines : List (List Char × Nat)) : Condition → Bool
  | .compare left op right => op.holds (macroValue defines left) (macroValue defines right)
  | .force value => value

def Directive (word : String) (condition : Condition) (line : List Char) : Prop :=
  ∃ indent gap text trail, indent.all isSpace ∧ gap.all isSpace ∧ gap ≠ [] ∧
    condition.Text text ∧ trail.all isSpace ∧ line = indent ++ word.toList ++ gap ++ text ++ trail

def Begins (word : String) (line : List Char) : Prop :=
  ∃ indent rest, indent.all isSpace ∧ line = indent ++ word.toList ++ rest

def Plain (line : List Char) : Prop :=
  ∀ word ∈ ["#if", "#else", "#elif", "#endif"], ¬ word.toList <+: strip line

mutual

inductive Group
  | nil
  | line (text : List Char) (later : Group)
  | conditional (text : List Char) (condition : Condition) (body : Group) (chain : Chain)
      (later : Group)

inductive Chain
  | endif (text : List Char)
  | otherwise (text : List Char) (body : Group) (endText : List Char)
  | elif (text : List Char) (condition : Condition) (body : Group) (chain : Chain)

end

mutual

def Group.lines : Group → List (List Char)
  | .nil => []
  | .line text later => text :: later.lines
  | .conditional text _ body chain later => text :: (body.lines ++ chain.lines ++ later.lines)

def Chain.lines : Chain → List (List Char)
  | .endif text => [text]
  | .otherwise text body endText => text :: (body.lines ++ [endText])
  | .elif text _ body chain => text :: (body.lines ++ chain.lines)

end

mutual

def Group.Written : Group → Prop
  | .nil => True
  | .line text later => Plain text ∧ later.Written
  | .conditional text condition body chain later =>
    Directive "#if" condition text ∧ body.Written ∧ chain.Written ∧ later.Written

def Chain.Written : Chain → Prop
  | .endif text => Begins "#endif" text
  | .otherwise text body endText => Begins "#else" text ∧ body.Written ∧ Begins "#endif" endText
  | .elif text condition body chain =>
    Directive "#elif" condition text ∧ body.Written ∧ chain.Written

end

mutual

def Group.kept (defines : List (List Char × Nat)) : Group → List (List Char)
  | .nil => []
  | .line text later => text :: later.kept defines
  | .conditional _ condition body chain later =>
    (if condition.holds defines then body.kept defines else chain.kept defines) ++
      later.kept defines

def Chain.kept (defines : List (List Char × Nat)) : Chain → List (List Char)
  | .endif _ => []
  | .otherwise _ body _ => body.kept defines
  | .elif _ condition body chain =>
    if condition.holds defines then body.kept defines else chain.kept defines

end

mutual

/-- In what is kept, no condition of an `#if` is a `!=`, and after one that does not hold the first
`#elif`, if there is one, holds. -/
def Group.Simple (defines : List (List Char × Nat)) : Group → Prop
  | .nil => True
  | .line _ later => later.Simple defines
  | .conditional _ condition body chain later =>
    (∀ left right, condition ≠ .compare left .ne right) ∧
      (if condition.holds defines then body.Simple defines else chain.Simple defines) ∧
      later.Simple defines

def Chain.Simple (defines : List (List Char × Nat)) : Chain → Prop
  | .endif _ => True
  | .otherwise _ body _ => body.Simple defines
  | .elif _ condition body _ => condition.holds defines = true ∧ body.Simple defines

end

end Specification

section Texts

variable {char : Char} {p : Char → Bool} {word : String} {line name : List Char}

theorem isWord_of_isSpace (space : isSpace char = true) : isWord char = false := by
  unfold isSpace Char.isWhitespace at space
  simp only [Bool.or_eq_true, decide_eq_true_eq, beq_iff_eq] at space
  rcases space with ((((rfl | rfl) | rfl) | rfl) | rfl) | rfl
  all_goals rfl

theorem not_isSpace_of_isWord (word : isWord char = true) : isSpace char = false :=
  Bool.eq_false_iff.mpr fun space => by
    rw [isWord_of_isSpace space] at word
    cases word

theorem takeWhile_split {front back : List Char} (all : front.all p)
    (stop : ∀ char ∈ back.head?, p char = false) :
    (front ++ back).takeWhile p = front ∧ (front ++ back).dropWhile p = back := by
  rw [all_eq_true] at all
  rw [takeWhile_append_of_pos all, dropWhile_append_of_pos all]
  cases back with
  | nil => simp
  | cons char back => simp [stop char rfl]

theorem dropWhile_append {back : List Char}
    (stop : ∀ char ∈ back.head?, p char = false) (front : List Char) :
    ∃ rest, (front ++ back).dropWhile p = rest ++ back := by
  induction front with
  | nil => exact ⟨[], (@takeWhile_split p [] back rfl stop).2⟩
  | cons char front ih =>
    rw [cons_append, dropWhile_cons]
    split
    · exact ih
    · exact ⟨char :: front, rfl⟩

theorem strip_eq {indent word trail : List Char} (before : indent.all isSpace)
    (after : trail.all isSpace) (first : ∀ char ∈ word.head?, isSpace char = false)
    (last : ∀ char ∈ word.getLast?, isSpace char = false) (some : word ≠ []) :
    strip (indent ++ word ++ trail) = word := by
  have starts : ∀ char ∈ (word ++ trail).head?, isSpace char = false := by
    rw [head?_append_of_ne_nil _ some]
    exact first
  have ends : ∀ char ∈ word.reverse.head?, isSpace char = false := by
    rw [head?_reverse]
    exact last
  rw [strip, append_assoc, (takeWhile_split before starts).2, reverse_append,
    (takeWhile_split (by rw [all_reverse]; exact after) ends).2, reverse_reverse]

theorem Begins.strip (begins : Begins word line)
    (solid : word.toList.all (!isSpace ·)) (some : word.toList ≠ []) :
    word.toList <+: strip line := by
  obtain ⟨indent, rest, before, rfl⟩ := begins
  have no : ∀ char ∈ word.toList, isSpace char = false := fun char member => by
    simpa using all_eq_true.mp solid char member
  have starts : ∀ char ∈ (word.toList ++ rest).head?, isSpace char = false := by
    rw [head?_append_of_ne_nil _ some]
    exact fun char member => no char (mem_of_mem_head? member)
  obtain ⟨left, same⟩ := @dropWhile_append isSpace word.toList.reverse (fun char member =>
    no char (mem_reverse.mp (mem_of_mem_head? member))) rest.reverse
  rw [Codegen.strip, append_assoc, (takeWhile_split before starts).2, reverse_append, same,
    reverse_append, reverse_reverse]
  exact prefix_append _ _

theorem Identifier.head (identifier : Identifier name) :
    ∃ char rest, name = char :: rest ∧ isWord char = true := by
  obtain ⟨all, char, first, _⟩ := identifier
  cases name with
  | nil => cases first
  | cons char rest => exact ⟨char, rest, rfl, all_eq_true.mp all _ (.head _)⟩

theorem Identifier.last (identifier : Identifier name) :
    ∃ front char, name = front ++ [char] ∧ isWord char = true := by
  have some : name ≠ [] := by
    obtain ⟨char, rest, rfl, _⟩ := identifier.head
    exact cons_ne_nil _ _
  exact ⟨name.dropLast, name.getLast some, (dropLast_append_getLast some).symm,
    all_eq_true.mp identifier.1 _ (getLast_mem some)⟩

variable {condition : Condition} {text : List Char}

theorem Condition.Text.shape (is : condition.Text text) :
    (∃ char rest, text = char :: rest ∧ isWord char = true) ∧
      (∃ front char, text = front ++ [char] ∧ isWord char = true) ∧ '#' ∉ text := by
  cases condition with
  | compare left op right =>
    obtain ⟨leftName, rightName, _, before, after, spaces, spaces', rfl⟩ := is
    refine ⟨?_, ?_, ?_⟩
    · obtain ⟨char, rest, rfl, word⟩ := leftName.head
      exact ⟨char, _, by simp only [cons_append]; rfl, word⟩
    · obtain ⟨front, char, rfl, word⟩ := rightName.last
      exact ⟨_, char, (append_assoc _ _ _).symm, word⟩
    · have clear : ∀ {p : Char → Bool} {list : List Char}, p '#' = false → list.all p →
          '#' ∉ list := fun no all member => by
        have yes := all_eq_true.mp all _ member
        rw [no] at yes
        cases yes
      simp only [mem_append, not_or]
      exact ⟨⟨⟨⟨clear rfl leftName.1, clear rfl spaces⟩, by cases op <;> decide⟩, clear rfl spaces'⟩,
        clear rfl rightName.1⟩
  | force value =>
    have among : text ∈ ["1".toList, "true".toList, "0".toList, "false".toList] := by
      cases value <;> simp only [Condition.Text, Bool.false_eq_true, if_false, if_true] at is <;>
        simp only [mem_cons, not_mem_nil, or_false] at is ⊢ <;> tauto
    simp only [mem_cons, not_mem_nil, or_false] at among
    rcases among with rfl | rfl | rfl | rfl
    · exact ⟨⟨'1', [], rfl, rfl⟩, ⟨[], '1', rfl, rfl⟩, by decide⟩
    · exact ⟨⟨'t', _, rfl, rfl⟩, ⟨['t', 'r', 'u'], 'e', rfl, rfl⟩, by decide⟩
    · exact ⟨⟨'0', [], rfl, rfl⟩, ⟨[], '0', rfl, rfl⟩, by decide⟩
    · exact ⟨⟨'f', _, rfl, rfl⟩, ⟨['f', 'a', 'l', 's'], 'e', rfl, rfl⟩, by decide⟩

theorem Directive.strip (directive : Directive word condition line)
    (solid : ∃ rest, word.toList = '#' :: rest) :
    ∃ gap text, gap.all isSpace ∧ gap ≠ [] ∧ condition.Text text ∧
      strip line = word.toList ++ gap ++ text ∧ ¬ ['\\'] <:+ strip line := by
  obtain ⟨indent, gap, text, trail, before, spaces, some, is, after, rfl⟩ := directive
  obtain ⟨_, ⟨front, last, ends, isLast⟩, _⟩ := is.shape
  obtain ⟨rest, first⟩ := solid
  have same : Codegen.strip (indent ++ word.toList ++ gap ++ text ++ trail) =
      word.toList ++ gap ++ text := by
    rw [show indent ++ word.toList ++ gap ++ text ++ trail =
      indent ++ (word.toList ++ gap ++ text) ++ trail by simp only [append_assoc]]
    refine strip_eq before after ?_ ?_ ?_
    · rw [first]
      simp [isSpace]
    · rw [ends, ← append_assoc, getLast?_concat]
      rintro char ⟨⟩
      exact not_isSpace_of_isWord isLast
    · rw [first]
      simp
  refine ⟨gap, text, spaces, some, is, same, ?_⟩
  rw [same, ends, ← append_assoc]
  intro slash
  obtain ⟨_, other⟩ := slash
  obtain rfl : '\\' = last := (cons.inj (append_inj' other rfl).2).1
  cases isLast

end Texts

section Conditions

variable {current : Nat} {condition : Condition} {gap text : List Char}

theorem lookup_versions {ver : List Char} :
    getVersion current ver = macroValue (versionFile current) ver := by
  unfold getVersion macroValue versionFile
  rw [lookup_append]
  split
  · next same =>
      have other : versions.lookup torchVer = none := by decide +kernel
      rw [same, other]
      simp
  · next different =>
      have none' : [(torchVer, current)].lookup ver = none := by
        rw [lookup_cons, beq_false_of_ne different]
        rfl
      rw [none', Option.or_none]

theorem readOperator_text {op : Operator} (known : op ≠ .ne) {rest : List Char}
    (stop : '=' ∉ rest.head?) : readOperator (op.text ++ rest) = some (op, rest) := by
  have other : ∀ tail, rest = '=' :: tail → False := fun tail same => stop (by rw [same]; rfl)
  cases op with
  | le | eq | ge => rfl
  | lt => exact readOperator.eq_2 rest other
  | gt => exact readOperator.eq_5 rest other
  | ne => exact absurd rfl known

theorem searchCondition_none (clear : '#' ∉ text) : searchCondition text = none := by
  induction text with
  | nil => rfl
  | cons char rest ih =>
    rw [mem_cons, not_or] at clear
    rw [searchCondition, ih clear.2, Option.or_none]
    exact readCondition.eq_2 _ fun tail same => clear.1 (cons.inj same).1.symm

theorem hash_not_mem (spaces : gap.all isSpace) : '#' ∉ gap := fun member =>
  absurd (all_eq_true.mp spaces _ member) (by decide)

theorem CtrlState.checkCondition_elif (self : CtrlState) (spaces : gap.all isSpace)
    (is : condition.Text text) :
    self.checkCondition current ("#elif".toList ++ gap ++ text) = self := by
  have clear : '#' ∉ ['e', 'l', 'i', 'f'] ++ gap ++ text := by
    simp only [mem_append, not_or]
    exact ⟨⟨by decide, hash_not_mem spaces⟩, is.shape.2.2⟩
  have search : searchCondition ("#elif".toList ++ gap ++ text) = none := by
    change searchCondition ('#' :: (['e', 'l', 'i', 'f'] ++ gap ++ text)) = none
    rw [searchCondition, searchCondition_none clear]
    rfl
  unfold checkCondition
  rw [search]
  rfl

theorem CtrlState.checkCondition_if (self : CtrlState) (spaces : gap.all isSpace) (some : gap ≠ [])
    (is : condition.Text text) (known : ∀ left right, condition ≠ .compare left .ne right) :
    self.checkCondition current ("#if".toList ++ gap ++ text) = { self with
      isVersionFlag := true
      record := condition.holds (versionFile current) } := by
  obtain ⟨⟨char, tail, starts, word⟩, _, clear⟩ := is.shape
  have begin_ := @takeWhile_split isSpace gap text spaces (by
    rw [starts]
    rintro _ ⟨⟩
    exact not_isSpace_of_isWord word)
  have behind : searchCondition (['i', 'f'] ++ gap ++ text) = none := by
    refine searchCondition_none ?_
    simp only [mem_append, not_or]
    exact ⟨⟨by decide, hash_not_mem spaces⟩, clear⟩
  have search : searchCondition ("#if".toList ++ gap ++ text) =
      readCondition ('#' :: 'i' :: 'f' :: (gap ++ text)) := by
    change searchCondition ('#' :: (['i', 'f'] ++ gap ++ text)) = _
    rw [searchCondition, behind, Option.or_none]
    rfl
  unfold checkCondition
  rw [search, readCondition, begin_.1, begin_.2]
  cases condition with
  | compare left op right =>
    obtain ⟨leftName, rightName, torch, before, after, blank, blank', rfl⟩ := is
    obtain ⟨one, more, rfl, isWord'⟩ := rightName.head
    have operators : ∀ rest : List Char, ∀ char ∈ (op.text ++ rest).head?,
        isSpace char = false ∧ isWord char = false := by
      rintro rest char first
      cases op <;> cases first <;> exact ⟨rfl, rfl⟩
    have name : (left ++ before ++ op.text ++ after ++ one :: more).takeWhile isWord = left ∧
        (left ++ before ++ op.text ++ after ++ one :: more).dropWhile isWord =
          before ++ (op.text ++ (after ++ one :: more)) := by
      simp only [append_assoc]
      refine takeWhile_split leftName.1 fun char first => ?_
      cases before with
      | nil => exact (operators _ char first).2
      | cons space before =>
        cases first
        exact isWord_of_isSpace (all_eq_true.mp blank _ (.head _))
    have operator := (@takeWhile_split isSpace before _ blank fun char first =>
      (operators (after ++ one :: more) char first).1).2
    have argument := (@takeWhile_split isSpace after (one :: more) blank' (by
      rintro _ ⟨⟩
      exact not_isSpace_of_isWord isWord')).2
    have last := (@takeWhile_split isWord (one :: more) [] rightName.1 (by rintro _ ⟨⟩)).1
    have nonempty : left ≠ [] := by
      obtain ⟨_, _, rfl, _⟩ := leftName.head
      exact cons_ne_nil _ _
    rw [name.1, name.2, if_neg (by simp [some, nonempty]), operator,
      readOperator_text (fun same => known left (one :: more) (by rw [same])) (by
        cases after with
        | nil =>
          rintro ⟨⟩
          cases isWord'
        | cons space after =>
          rintro ⟨⟩
          cases all_eq_true.mp blank' _ (.head _))]
    rw [append_nil] at last
    simp only [Option.map_some, argument, last]
    rw [if_pos (by rcases torch with same | same <;> simp [same])]
    rw [Condition.holds, lookup_versions, lookup_versions]
  | force value =>
    have forced : ∀ value ∈ ["0".toList, "1".toList, "true".toList, "false".toList],
        readOperator ((value.dropWhile isWord).dropWhile isSpace) = none := by decide
    have among : text ∈ ["0".toList, "1".toList, "true".toList, "false".toList] ∧
        decide (text = "1".toList ∨ text = "true".toList) = value := by
      cases value with
      | true => rcases mem_pair.mp is with rfl | rfl <;> decide
      | false => rcases mem_pair.mp is with rfl | rfl <;> decide
    have force : forceCondition ("#if".toList ++ gap ++ text) = Option.some text := by
      change forceCondition ('#' :: 'i' :: 'f' :: (gap ++ text)) = _
      rw [forceCondition, begin_.1, begin_.2]
      exact if_pos ⟨some, among.1⟩
    rw [forced text among.1, Option.map_none, ite_self, force]
    dsimp only
    rw [among.2]
    rfl

end Conditions

section Scanning

variable {current : Nat} {top : CtrlState} {below : List CtrlState} {content : List (List Char)}
  {condition : Condition} {line : List Char}

def Scans (current : Nat) (before : Scan) (lines : List (List Char)) (after : Scan) : Prop :=
  ∀ later, (lines ++ later).foldlM (scanLine current) before =
    later.foldlM (scanLine current) after

theorem Scans.append {before middle after : Scan} {lines others : List (List Char)}
    (first : Scans current before lines middle) (second : Scans current middle others after) :
    Scans current before (lines ++ others) after := fun later => by
  rw [append_assoc, first, second]

theorem Scans.cons {before middle after : Scan} {lines : List (List Char)}
    (first : scanLine current before line = some middle) (rest : Scans current middle lines after) :
    Scans current before (line :: lines) after := fun later => by
  rw [cons_append, foldlM_cons, first]
  exact rest later

theorem scanLine_plain (plain : Plain line) : scanLine current ⟨top :: below, content⟩ line =
      some ⟨top :: below, if top.record then content ++ [line] else content⟩ := by
  unfold scanLine
  dsimp only
  rw [if_neg (plain "#if" (by simp)), if_neg (plain "#else" (by simp)),
    if_neg (plain "#elif" (by simp)), if_neg (plain "#endif" (by simp))]
  split <;> rfl

theorem not_starting {word other rest : List Char} (differ : ¬ word <+: other)
    (differ' : ¬ other <+: word) : ¬ word <+: other ++ rest := fun prefix' =>
  ( prefix_or_prefix_of_prefix prefix' (prefix_append other rest)).elim differ differ'

theorem scanLine_if (directive : Directive "#if" condition line) :
    scanLine current ⟨top :: below, content⟩ line =
      some ⟨.new current (strip line) top.record :: top :: below, content⟩ := by
  obtain ⟨gap, text, _, _, _, same, slash⟩ := directive.strip ⟨_, rfl⟩
  unfold scanLine
  dsimp only
  rw [if_pos (by rw [same, append_assoc]; exact prefix_append _ _), if_neg slash]

theorem scanLine_elif (directive : Directive "#elif" condition line) :
    scanLine current ⟨top :: below, content⟩ line = some ⟨top.updateElse :: below, content⟩ := by
  obtain ⟨gap, text, spaces, _, is, same, slash⟩ := directive.strip ⟨_, rfl⟩
  have elif : top.updateElif current (strip line) = top.updateElse := by
    rw [CtrlState.updateElif, same, CtrlState.checkCondition_elif _ spaces is, ite_self]
  unfold scanLine
  dsimp only
  rw [elif]
  rw [same, append_assoc] at slash ⊢
  rw [if_neg (not_starting (by decide) (by decide)), if_neg (not_starting (by decide) (by decide)),
    if_pos (prefix_append _ _), if_neg slash]

theorem scanLine_else (begins : Begins "#else" line) :
    scanLine current ⟨top :: below, content⟩ line = some ⟨top.updateElse :: below, content⟩ := by
  obtain ⟨rest, same⟩ := begins.strip (by decide) (by decide)
  unfold scanLine
  dsimp only
  rw [← same, if_neg (not_starting (by decide) (by decide)), if_pos (prefix_append _ _)]

theorem scanLine_endif {state : CtrlState} (begins : Begins "#endif" line) :
    scanLine current ⟨state :: top :: below, content⟩ line = some ⟨top :: below, content⟩ := by
  obtain ⟨rest, same⟩ := begins.strip (by decide) (by decide)
  unfold scanLine
  dsimp only
  rw [← same, if_neg (not_starting (by decide) (by decide)),
    if_neg (not_starting (by decide) (by decide)), if_neg (not_starting (by decide) (by decide)),
    if_pos (prefix_append _ _), if_neg (cons_ne_nil _ _)]

end Scanning

section Agreement

variable {current : Nat}

theorem Scans.nil (scan : Scan) : Scans current scan [] scan := fun _ => rfl

theorem CtrlState.new_eq {condition : Condition} {line : List Char} {initial : Bool}
    (directive : Directive "#if" condition line)
    (known : initial = true → ∀ left right, condition ≠ .compare left .ne right) :
    (new current (strip line) initial).record = (initial && condition.holds (versionFile current)) ∧
      (new current (strip line) initial).active = initial := by
  unfold new
  cases initial with
  | true =>
    obtain ⟨gap, text, spaces, some, is, same, _⟩ := directive.strip ⟨_, rfl⟩
    rw [if_pos rfl, same, checkCondition_if _ spaces some is (known rfl)]
    exact ⟨rfl, rfl⟩
  | false => exact ⟨rfl, rfl⟩

theorem CtrlState.updateElse_eq (self : CtrlState) : self.updateElse.record =
      (!self.record && self.active) ∧ self.updateElse.active = (!self.record && self.active) := by
  unfold updateElse
  cases self.record <;> cases self.active <;> exact ⟨rfl, rfl⟩

mutual

theorem Group.scans (group : Group) (written : group.Written) (top : CtrlState)
    (simple : top.record = true → group.Simple (versionFile current)) (below : List CtrlState)
    (content : List (List Char)) :
    Scans current ⟨top :: below, content⟩ group.lines
      ⟨top :: below, content ++ if top.record then group.kept (versionFile current) else []⟩ := by
  cases group with
  | nil =>
    rw [Group.lines, Group.kept, ite_self, append_nil]
    exact .nil _
  | line text later =>
    obtain ⟨plain, rest⟩ := written
    have behind := later.scans rest top simple below
      (if top.record then content ++ [text] else content)
    have whole := Scans.cons (scanLine_plain plain) behind
    have same : (if top.record then content ++ [text] else content) ++
        (if top.record then later.kept (versionFile current) else []) =
        content ++ if top.record then (Group.line text later).kept (versionFile current)
          else [] := by
      cases top.record <;> simp [Group.kept]
    rw [same] at whole
    exact whole
  | conditional text condition body chain later =>
    obtain ⟨directive, bodyWritten, chainWritten, rest⟩ := written
    obtain ⟨record, active⟩ := @CtrlState.new_eq current condition text top.record directive
      fun recorded => (simple recorded).1
    have inside := body.scans bodyWritten (.new current (strip text) top.record) (fun kept => by
        rw [record, Bool.and_eq_true] at kept
        have both := (simple kept.1).2.1
        rwa [if_pos kept.2] at both) (top :: below) content
    have next := fun content => chain.scans chainWritten
      (.new current (strip text) top.record) (fun open_ => by
        rw [record, active] at open_
        have both := (simple open_.2).2.1
        rw [open_.2, Bool.true_and] at open_
        rwa [open_.1, if_neg Bool.false_ne_true] at both) top below content
    have behind := fun content => later.scans rest top (fun kept => (simple kept).2.2) below content
    have whole := (Scans.cons (scanLine_if directive) ((inside.append (next _)).append (behind _)))
    simp only [record, active, append_assoc] at whole
    have same : content ++ ((if (top.record && condition.holds (versionFile current)) = true then
          body.kept (versionFile current) else []) ++
        ((if (top.record && condition.holds (versionFile current)) = false ∧ top.record = true then
          chain.kept (versionFile current) else []) ++
        if top.record = true then later.kept (versionFile current) else [])) =
        content ++ if top.record then
          (Group.conditional text condition body chain later).kept (versionFile current)
          else [] := by
      cases top.record <;> cases held : condition.holds (versionFile current) <;>
        simp [Group.kept, held]
    rw [same] at whole
    rw [Group.lines, append_assoc]
    exact whole

theorem Chain.scans (chain : Chain) (written : chain.Written) (state : CtrlState)
    (simple : state.record = false ∧ state.active = true → chain.Simple (versionFile current))
    (top : CtrlState) (below : List CtrlState) (content : List (List Char)) :
    Scans current ⟨state :: top :: below, content⟩ chain.lines
      ⟨top :: below, content ++ if state.record = false ∧ state.active = true then
        chain.kept (versionFile current) else []⟩ := by
  obtain ⟨record, active⟩ := state.updateElse_eq
  cases chain with
  | endif text =>
    rw [Chain.kept, ite_self, append_nil]
    exact .cons (scanLine_endif written) (.nil _)
  | otherwise text body endText =>
    obtain ⟨begins, bodyWritten, ends⟩ := written
    have inside := body.scans bodyWritten state.updateElse (fun kept => by
      rw [record, Bool.and_eq_true, Bool.not_eq_true'] at kept
      exact simple kept) (top :: below) content
    have whole := Scans.cons (scanLine_else begins)
      (inside.append (.cons (scanLine_endif ends) (.nil _)))
    simp only [record, Bool.and_eq_true, Bool.not_eq_true'] at whole
    exact whole
  | elif text condition body chain =>
    obtain ⟨directive, bodyWritten, chainWritten⟩ := written
    have inside := body.scans bodyWritten state.updateElse (fun kept => by
      rw [record, Bool.and_eq_true, Bool.not_eq_true'] at kept
      exact (simple kept).2) (top :: below) content
    have closed : ¬ (state.updateElse.record = false ∧ state.updateElse.active = true) := by
      rw [record, active]
      exact fun both => by rw [both.1] at both; cases both.2
    have next := fun content => chain.scans chainWritten state.updateElse
      (fun open_ => absurd open_ closed) top below content
    have whole := Scans.cons (scanLine_elif directive) (inside.append (next _))
    rw [if_neg closed, append_nil] at whole
    simp only [record, Bool.and_eq_true, Bool.not_eq_true'] at whole
    have same : (if state.record = false ∧ state.active = true then
          body.kept (versionFile current) else []) =
        if state.record = false ∧ state.active = true then
          (Chain.elif text condition body chain).kept (versionFile current) else [] :=
      ite_congr rfl (fun open_ => by rw [Chain.kept, if_pos (simple open_).1]) fun _ => rfl
    rw [same] at whole
    exact whole

end

end Agreement

section Samples

def comparison (op : Operator) : Condition := .compare torchVer op "TORCH_2_1_0".toList

theorem directive_sample {word : String} {op : Operator} : Directive word (comparison op)
      (word.toList ++ " TORCH_VER ".toList ++ op.text ++ " TORCH_2_1_0\n".toList) := by
  have name : Identifier "TORCH_2_1_0".toList := ⟨by decide +kernel, 'T', by decide +kernel, rfl⟩
  have current : Identifier torchVer := ⟨by decide +kernel, 'T', by decide +kernel, rfl⟩
  have text : (comparison op).Text
      (torchVer ++ [' '] ++ op.text ++ [' '] ++ "TORCH_2_1_0".toList) :=
    ⟨current, name, .inl rfl, [' '], [' '], by decide, by decide, rfl⟩
  refine ⟨[], [' '], _, ['\n'], by decide, by decide, cons_ne_nil _ _, text, by decide, ?_⟩
  have spaced : " TORCH_VER ".toList = [' '] ++ torchVer ++ [' '] ∧
      " TORCH_2_1_0\n".toList = [' '] ++ "TORCH_2_1_0".toList ++ ['\n'] := by decide +kernel
  simp only [spaced.1, spaced.2, append_assoc, nil_append]

theorem plain_sample : Plain "int a;\n".toList ∧ Plain "int b;\n".toList := by
  unfold Plain
  decide +kernel

def sampleGroup (word : String) (op : Operator) (chain : Chain) : Group :=
  .conditional (word.toList ++ " TORCH_VER ".toList ++ op.text ++ " TORCH_2_1_0\n".toList)
    (comparison op) (.line "int a;\n".toList .nil) chain .nil

end Samples

end TorchSupa.Codegen
