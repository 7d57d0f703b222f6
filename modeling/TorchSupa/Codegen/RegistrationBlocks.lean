import Mathlib.Data.List.Infix

/-!
`strip_quantized_registration_blocks`, which leaves out the registration blocks of a generated file
that the repository registers itself. A block is found by the braces of its lines.
-/

namespace TorchSupa.Codegen

section Code

def contains (text part : String) : Bool := decide (part.toList <:+: text.toList)

def isHeader (line : String) : Bool :=
  contains line "TORCH_LIBRARY_IMPL(aten, QuantizedPrivateUse1, m)"

def braceDepth (line : String) : Int := line.toList.count '\x7b' - line.toList.count '\x7d'

def registers (op : String) (block : List String) : Bool :=
  contains (String.join block) ("m.impl(\"" ++ op ++ "\"")

def extend (ops : List String) (block : List String) : List String :=
  if ops.any fun op => registers op block then [] else block

def scan (ops : List String) : Option (List String × Int) → List String → List String
  | none, [] => []
  | some open_, [] => extend ops open_.1
  | none, line :: later =>
    if isHeader line then scan ops (some ([line], braceDepth line)) later
    else line :: scan ops none later
  | some open_, line :: later =>
    let block := open_.1 ++ [line]
    let depth := open_.2 + braceDepth line
    if depth ≤ 0 then extend ops block ++ scan ops none later
    else scan ops (some (block, depth)) later

def stripQuantizedRegistrationBlocks (lines : List String) (ops : List String) : List String :=
  if ops.isEmpty then lines else scan ops none lines

end Code

section Segments

inductive Segment
  | line (text : String)
  | block (header : String) (rest : List String)
deriving DecidableEq, Repr

def Segment.lines : Segment → List String
  | .line text => [text]
  | .block header rest => header :: rest

def Closes : Int → List String → Prop
  | _, [] => False
  | depth, [line] => depth + braceDepth line = 0
  | depth, line :: next :: later =>
    0 < depth + braceDepth line ∧ Closes (depth + braceDepth line) (next :: later)

def Segmented : List Segment → Prop
  | [] => True
  | .line text :: later => isHeader text = false ∧ Segmented later
  | .block header rest :: later =>
    isHeader header = true ∧ (Closes (braceDepth header) rest ∨ rest = [] ∧ later = []) ∧
      Segmented later

def Segment.kept (ops : List String) : Segment → List String
  | .line text => [text]
  | .block header rest => extend ops (header :: rest)

variable {ops : List String}

open List

theorem scan_block {rest : List String} (later block : List String) {depth : Int}
    (closes : Closes depth rest) :
    scan ops (some (block, depth)) (rest ++ later) =
      extend ops (block ++ rest) ++ scan ops none later := by
  induction rest generalizing block depth with
  | nil => exact closes.elim
  | cons line rest ih =>
    cases rest with
    | nil =>
      rw [Closes] at closes
      rw [singleton_append, scan]
      exact if_pos (Int.le_of_eq closes)
    | cons next rest =>
      obtain ⟨inside, behind⟩ := closes
      rw [cons_append, scan]
      rw [if_neg (Int.not_le.mpr inside), ih _ behind, append_assoc]
      rfl

theorem scan_segments {segments : List Segment} (segmented : Segmented segments) :
    scan ops none (segments.flatMap Segment.lines) = segments.flatMap (Segment.kept ops) := by
  induction segments with
  | nil => rfl
  | cons segment later ih =>
    rw [flatMap_cons, flatMap_cons]
    cases segment with
    | line text =>
      obtain ⟨plain, rest⟩ := segmented
      rw [Segment.lines, singleton_append, scan, plain, ih rest]
      rfl
    | block header rest =>
      obtain ⟨header_, closes | ⟨rfl, rfl⟩, behind⟩ := segmented
      · rw [Segment.lines, cons_append, scan, if_pos header_, scan_block _ _ closes, ih behind]
        rfl
      · rw [Segment.lines, cons_append, scan, if_pos header_]
        exact (append_nil _).symm

end Segments

/-- Every line outside the blocks is kept, and every block without an operator of the set; a block
that registers one is left out as a whole. -/
theorem blocks_stripped {segments : List Segment} (segmented : Segmented segments)
    (ops : List String) :
    stripQuantizedRegistrationBlocks (segments.flatMap Segment.lines) ops =
      segments.flatMap (Segment.kept ops) := by
  unfold stripQuantizedRegistrationBlocks
  split
  · next empty =>
      rw [List.isEmpty_iff.mp empty]
      refine congrArg (List.flatMap · segments) (funext fun segment => ?_)
      cases segment <;> rfl
  · exact scan_segments segmented

def sampleBlock : Segment :=
  .block "TORCH_LIBRARY_IMPL(aten, QuantizedPrivateUse1, m) \x7b\n"
    ["m.impl(\"add\", add);\n", "m.impl(\"mul\", mul);\n", "\x7d\n"]

theorem blocks_stripped_sample : stripQuantizedRegistrationBlocks
      ([.line "int a;\n", sampleBlock].flatMap Segment.lines) ["mul"] = ["int a;\n"] := by
  have closes : Closes 1 ["m.impl(\"add\", add);\n", "m.impl(\"mul\", mul);\n", "\x7d\n"] := by
    unfold Closes Closes Closes
    decide +kernel
  exact (@blocks_stripped [.line "int a;\n", sampleBlock]
    ⟨by decide +kernel, by decide +kernel, .inl closes, trivial⟩ ["mul"]).trans (by decide +kernel)

/-- The registration of `mul` goes with that of `add`. -/
theorem neighbour_stripped : registers "mul" sampleBlock.lines = true ∧
    stripQuantizedRegistrationBlocks sampleBlock.lines ["add"] = [] := by
  decide +kernel

end TorchSupa.Codegen
