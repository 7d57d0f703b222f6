import TorchSupa.Allocator.Block
import TorchSupa.Logic.Outcome
import TorchSupa.Logic.Numerals

/-!
`SUPAAllocatorConfig.cpp`: the lexer and the parser of the settings of the allocator. A text is
the characters of a C string before its end.
-/

namespace TorchSupa.Settings

open Outcome
open Allocator (kLargeBuffer sizeMax kRoundUpPowerOfTwoIntervals)

abbrev Token := List Char

structure SUPAAllocatorConfig extends Allocator.SUPAAllocatorConfig where
  maxNonSplitRoundingSize : Nat := kLargeBuffer
  releaseLockOnSupamalloc : Bool := false
  pinnedUseSupaHostRegister : Bool := false
  pinnedNumRegisterThreads : Nat := 1
deriving Inhabited

inductive Exn
  | torchCheck (message : String)
  | conversion (failure : Numerals.Failure)
deriving DecidableEq, Repr, Inhabited

abbrev M := EStateM Exn SUPAAllocatorConfig

def isDelimiter (character : Char) : Bool :=
  character = ',' || character = ':' || character = '[' || character = ']'

/-- `config.emplace_back(buf.begin(), buf.end())` unless the buffer is empty -/
def flush (buf : Token) : List Token := if buf = [] then [] else [buf]

def lexFrom (buf : Token) : List Char → List Token
  | [] => flush buf
  | character :: env =>
    if isDelimiter character then flush buf ++ [character] :: lexFrom [] env
    else if character ≠ ' ' then lexFrom (buf ++ [character]) env
    else lexFrom buf env

def lexArgs (env : List Char) : List Token := lexFrom [] env

def consumeToken (config : List Token) (i : Nat) (c : Char) : M Unit :=
  check (config[i]? == some [c])
    (.torchCheck ("Error parsing CachingAllocator settings, expected " ++ String.singleton c))

def stoi (token : Token) : M Int :=
  match Numerals.stoi token with
  | .ok value => pure value
  | .error failure => throw (.conversion failure)

def stod (token : Token) : M Numerals.Double :=
  match Numerals.stod token with
  | .ok value => pure value
  | .error failure => throw (.conversion failure)

def toSize (value : Int) : Nat := (value % (sizeMax + 1)).toNat

def mib : Nat := 1024 * 1024

def torchCheck {α : Type} (message : String) : M α := throw (.torchCheck message)

def clampSize (val1 : Nat) : Nat :=
  min (max val1 (kLargeBuffer / mib)) (sizeMax / mib) * mib % (sizeMax + 1)

def parseValue (config : List Token) (i : Nat) (missing : String) (assign : Token → M Unit) :
    M Nat := do
  consumeToken config (i + 1) ':'
  match config[i + 2]? with
  | some token => do
      assign token
      pure (i + 2)
  | none => torchCheck missing

def parseMaxSplitSize (config : List Token) (i : Nat) : M Nat :=
  parseValue config i "Error, expecting max_split_size_mb value" fun token => do
    let val1 := toSize (← stoi token)
    check (kLargeBuffer / mib < val1)
      (.torchCheck "CachingAllocator option max_split_size_mb too small, must be > 20")
    modify fun settings => { settings with maxSplitSize := clampSize val1 }

def parseMaxNonSplitRoundingSize (config : List Token) (i : Nat) : M Nat :=
  parseValue config i "Error, expecting max_non_split_rounding_mb value" fun token => do
    let val1 := toSize (← stoi token)
    check (kLargeBuffer / mib < val1)
      (.torchCheck "CachingAllocator option max_non_split_rounding_mb too small, must be > 20")
    modify fun settings => { settings with maxNonSplitRoundingSize := clampSize val1 }

def positive : Numerals.Double → Bool
  | .finite value => 0 < value
  | .infinite negative => !negative
  | .nan => false

def belowOne : Numerals.Double → Bool
  | .finite value => value < 1
  | .infinite negative => negative
  | .nan => false

def ofDouble : Numerals.Double → ℚ
  | .finite value => value
  | _ => 0

def parseGarbageCollectionThreshold (config : List Token) (i : Nat) : M Nat :=
  parseValue config i "Error, expecting garbage_collection_threshold value" fun token => do
    let val1 ← stod token
    check (positive val1) (.torchCheck "garbage_collect_threshold too small, set it 0.0~1.0")
    check (belowOne val1) (.torchCheck "garbage_collect_threshold too big, set it 0.0~1.0")
    -- what has passed both checks is finite
    modify fun settings => { settings with garbageCollectionThreshold := ofDouble val1 }

def isFlag (token : Token) : Bool := token == "True".toList || token == "False".toList

def parseExpandableSegments (config : List Token) (i : Nat) : M Nat :=
  let message := "Expected a single True/False argument for expandable_segments"
  parseValue config i message fun token => do
    check (isFlag token) (.torchCheck message)
    modify fun settings => { settings with expandableSegments := token == "True".toList }

def parseReleaseLock (config : List Token) (i : Nat) (configItemView : Token) : M Nat :=
  let message := "Expected a single True/False argument for release_lock_on_supamalloc"
  parseValue config i message fun token => do
    check (isFlag token) (.torchCheck message)
    modify fun settings =>
      { settings with releaseLockOnSupamalloc := configItemView == "True".toList }

def parsePinnedUseSupaHostRegister (config : List Token) (i : Nat) : M Nat :=
  parseValue config i "Error, expecting pinned_use_supa_host_register value" fun token => do
    check (isFlag token)
      (.torchCheck "Expected a single True/False argument for pinned_use_supa_host_register")
    modify fun settings => { settings with pinnedUseSupaHostRegister := token == "True".toList }

def pinnedMaxRegisterThreads : Nat := 128

def isPowerOf2 (value : Nat) : Bool := value != 0 && value &&& (value - 1) == 0

def parsePinnedNumRegisterThreads (config : List Token) (i : Nat) : M Nat :=
  parseValue config i "Error, expecting pinned_num_register_threads value" fun token => do
    let val2 := toSize (← stoi token)
    check (isPowerOf2 val2) (.torchCheck "Number of register threads has to be power of 2 ")
    check (val2 ≤ pinnedMaxRegisterThreads)
      (.torchCheck "Number of register threads should be less than or equal to 128")
    modify fun settings => { settings with pinnedNumRegisterThreads := val2 }

def parseOption (config : List Token) (i : Nat) (item : Token) : M Nat :=
  if item = "max_split_size_mb".toList then parseMaxSplitSize config i
  else if item = "max_non_split_rounding_mb".toList then parseMaxNonSplitRoundingSize config i
  else if item = "garbage_collection_threshold".toList then
    parseGarbageCollectionThreshold config i
  else if item = "expandable_segments".toList then parseExpandableSegments config i
  else if item = "release_lock_on_hipmalloc".toList ∨ item = "release_lock_on_supamalloc".toList ∨
      item = "release_lock_on_cudamalloc".toList then
    parseReleaseLock config i item
  else if item = "pinned_use_hip_host_register".toList ∨
      item = "pinned_use_supa_host_register".toList ∨
      item = "pinned_use_cuda_host_register".toList then
    parsePinnedUseSupaHostRegister config i
  else if item = "pinned_num_register_threads".toList then parsePinnedNumRegisterThreads config i
  else torchCheck ("Unrecognized CachingAllocator option: " ++ String.ofList item)

/-- The loop from `i` on. Every turn makes `i` larger: with fuel for each token the loop ends. -/
def parseFrom (config : List Token) : Nat → Nat → M Unit
  | 0, _ => pure ()
  | fuel + 1, i =>
    match config[i]? with
    | none => pure ()
    | some item => do
        let i ← parseOption config i item
        if i + 1 < config.length then do
          consumeToken config (i + 1) ','
          parseFrom config fuel (i + 2)
        else parseFrom config fuel (i + 1)

def SUPAAllocatorConfig.reset (settings : SUPAAllocatorConfig) : SUPAAllocatorConfig :=
  { settings with
    maxSplitSize := sizeMax
    roundupPower2Divisions := List.replicate kRoundUpPowerOfTwoIntervals 0
    garbageCollectionThreshold := 0 }

/-- `parseArgs`; `none` is a null pointer. The warning at its end is never given. -/
def parseArgs (env : Option (List Char)) : M Unit := do
  modify SUPAAllocatorConfig.reset
  match env with
  | none => pure ()
  | some env => do
      let config := lexArgs env
      parseFrom config config.length 0

end TorchSupa.Settings
