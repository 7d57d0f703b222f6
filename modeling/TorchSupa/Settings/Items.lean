import TorchSupa.Settings.SUPAAllocatorConfig

/-!
What a run of the parser does: it takes items from the front of the tokens, and assigns the value
of each, until the tokens end or do not go on as another item.
-/

namespace TorchSupa.Settings

open Outcome
open Allocator (kLargeBuffer sizeMax)

inductive Setting
  | maxSplitSize
  | maxNonSplitRoundingSize
  | garbageCollectionThreshold
  | expandableSegments
  | releaseLockOnSupamalloc
  | pinnedUseSupaHostRegister
  | pinnedNumRegisterThreads
deriving DecidableEq, Repr

inductive Value
  | number (value : Nat)
  | fraction (value : ℚ)
  | flag (value : Bool)
deriving DecidableEq

def settingOf (name : Token) : Option Setting :=
  if name = "max_split_size_mb".toList then some .maxSplitSize
  else if name = "max_non_split_rounding_mb".toList then some .maxNonSplitRoundingSize
  else if name = "garbage_collection_threshold".toList then some .garbageCollectionThreshold
  else if name = "expandable_segments".toList then some .expandableSegments
  else if name = "release_lock_on_hipmalloc".toList ∨ name = "release_lock_on_supamalloc".toList ∨
      name = "release_lock_on_cudamalloc".toList then
    some .releaseLockOnSupamalloc
  else if name = "pinned_use_hip_host_register".toList ∨
      name = "pinned_use_supa_host_register".toList ∨
      name = "pinned_use_cuda_host_register".toList then
    some .pinnedUseSupaHostRegister
  else if name = "pinned_num_register_threads".toList then some .pinnedNumRegisterThreads
  else none

def SUPAAllocatorConfig.get (settings : SUPAAllocatorConfig) : Setting → Value
  | .maxSplitSize => .number settings.maxSplitSize
  | .maxNonSplitRoundingSize => .number settings.maxNonSplitRoundingSize
  | .garbageCollectionThreshold => .fraction settings.garbageCollectionThreshold
  | .expandableSegments => .flag settings.expandableSegments
  | .releaseLockOnSupamalloc => .flag settings.releaseLockOnSupamalloc
  | .pinnedUseSupaHostRegister => .flag settings.pinnedUseSupaHostRegister
  | .pinnedNumRegisterThreads => .number settings.pinnedNumRegisterThreads

def SUPAAllocatorConfig.put (settings : SUPAAllocatorConfig) : Setting → Value → SUPAAllocatorConfig
  | .maxSplitSize, .number maxSplitSize => { settings with maxSplitSize }
  | .maxNonSplitRoundingSize, .number maxNonSplitRoundingSize =>
    { settings with maxNonSplitRoundingSize }
  | .garbageCollectionThreshold, .fraction garbageCollectionThreshold =>
    { settings with garbageCollectionThreshold }
  | .expandableSegments, .flag expandableSegments => { settings with expandableSegments }
  | .releaseLockOnSupamalloc, .flag releaseLockOnSupamalloc =>
    { settings with releaseLockOnSupamalloc }
  | .pinnedUseSupaHostRegister, .flag pinnedUseSupaHostRegister =>
    { settings with pinnedUseSupaHostRegister }
  | .pinnedNumRegisterThreads, .number pinnedNumRegisterThreads =>
    { settings with pinnedNumRegisterThreads }
  | _, _ => settings

def storedSize (token : Token) : Option Value :=
  match Numerals.stoi token with
  | .ok value =>
    if kLargeBuffer / mib < toSize value then some (.number (clampSize (toSize value))) else none
  | .error _ => none

def storedFraction (token : Token) : Option Value :=
  match Numerals.stod token with
  | .ok value =>
    if positive value && belowOne value then some (.fraction (ofDouble value)) else none
  | .error _ => none

def storedFlag (token : Token) (value : Bool) : Option Value :=
  if isFlag token then some (.flag value) else none

def storedThreads (token : Token) : Option Value :=
  match Numerals.stoi token with
  | .ok value =>
    if isPowerOf2 (toSize value) ∧ toSize value ≤ pinnedMaxRegisterThreads then
      some (.number (toSize value))
    else none
  | .error _ => none

def stored (token : Token) : Setting → Option Value
  | .maxSplitSize => storedSize token
  | .maxNonSplitRoundingSize => storedSize token
  | .garbageCollectionThreshold => storedFraction token
  | .expandableSegments => storedFlag token (token == "True".toList)
  | .releaseLockOnSupamalloc => storedFlag token false
  | .pinnedUseSupaHostRegister => storedFlag token (token == "True".toList)
  | .pinnedNumRegisterThreads => storedThreads token

structure Item where
  setting : Setting
  token : Token
  value : Value
deriving DecidableEq

def itemOf (name colon token : Token) : Option Item :=
  if colon = [':'] then
    (settingOf name).bind fun setting => (stored token setting).map fun value =>
      ⟨setting, token, value⟩
  else none

def taken : List Token → List Item
  | name :: colon :: token :: rest =>
    match itemOf name colon token with
    | none => []
    | some item => item :: (match rest with
        | comma :: rest => if comma = [','] then taken rest else []
        | [] => [])
  | _ => []

def complete : List Token → Bool
  | [] => true
  | name :: colon :: token :: rest =>
    match itemOf name colon token with
    | none => false
    | some _ => (match rest with
        | comma :: rest => comma = [','] && complete rest
        | [] => true)
  | _ => false

def SUPAAllocatorConfig.putAll (settings : SUPAAllocatorConfig) (items : List Item) :
    SUPAAllocatorConfig :=
  items.foldl (fun settings item => settings.put item.setting item.value) settings

section Options

variable {config : List Token} {i : Nat} {settings : SUPAAllocatorConfig} {token : Token}

def Assigns (assign : Token → M Unit) (setting : Setting) : Prop :=
  ∀ token settings, wp (assign token)
    (fun _ after => ∃ value, stored token setting = some value ∧ after = settings.put setting value)
    (fun _ after => stored token setting = none ∧ after = settings) settings

variable {thrown : Exn → SUPAAllocatorConfig → Prop}

theorem stoi_spec {finish : Int → SUPAAllocatorConfig → Prop}
    (converted : ∀ value, Numerals.stoi token = .ok value → finish value settings)
    (failed : ∀ failure, Numerals.stoi token = .error failure → thrown (.conversion failure) settings) :
    wp (stoi token) finish thrown settings := by
  unfold stoi
  cases result : Numerals.stoi token with
  | ok value => exact converted value result
  | error failure => exact failed failure result

theorem stod_spec {finish : Numerals.Double → SUPAAllocatorConfig → Prop}
    (converted : ∀ value, Numerals.stod token = .ok value → finish value settings)
    (failed : ∀ failure, Numerals.stod token = .error failure → thrown (.conversion failure) settings) :
    wp (stod token) finish thrown settings := by
  unfold stod
  cases result : Numerals.stod token with
  | ok value => exact converted value result
  | error failure => exact failed failure result

theorem size_assigns (message : String) (setting : Setting)
    (assign : Nat → SUPAAllocatorConfig → SUPAAllocatorConfig)
    (sizes : ∀ token, stored token setting = storedSize token)
    (assigned : ∀ settings size, assign size settings = settings.put setting (.number size)) :
    Assigns (fun token => do
      let val1 := toSize (← stoi token)
      check (kLargeBuffer / mib < val1) (.torchCheck message)
      modify (assign (clampSize val1))) setting := by
  intro token settings
  rw [sizes, storedSize, wp_bind]
  refine stoi_spec (fun value converted => ?_) fun failure failed => ?_
  · rw [converted]
    dsimp only
    refine bind_check (fun large => ?_) fun small => ?_
    · rw [wp_modify, if_pos (of_decide_eq_true large)]
      exact ⟨_, rfl, assigned _ _⟩
    · rw [if_neg (of_decide_eq_false small)]
      exact ⟨rfl, rfl⟩
  · rw [failed]
    exact ⟨rfl, rfl⟩

theorem flag_assigns (message : String) (setting : Setting) (flag : Token → Bool)
    (assign : Bool → SUPAAllocatorConfig → SUPAAllocatorConfig)
    (flags : ∀ token, stored token setting = storedFlag token (flag token))
    (assigned : ∀ settings value, assign value settings = settings.put setting (.flag value)) :
    Assigns (fun token => do
      check (isFlag token) (.torchCheck message)
      modify (assign (flag token))) setting := by
  intro token settings
  rw [flags, storedFlag]
  refine bind_check (fun isFlag => ?_) fun other => ?_
  · rw [wp_modify, if_pos isFlag]
    exact ⟨_, rfl, assigned _ _⟩
  · rw [if_neg (by simp [other])]
    exact ⟨rfl, rfl⟩

theorem threshold_assigns (small big : String) : Assigns (fun token => do
    let val1 ← stod token
    check (positive val1) (.torchCheck small)
    check (belowOne val1) (.torchCheck big)
    modify fun settings => { settings with garbageCollectionThreshold := ofDouble val1 })
    .garbageCollectionThreshold := by
  intro token settings
  rw [stored, storedFraction, wp_bind]
  refine stod_spec (fun value converted => ?_) fun failure failed => ?_
  · rw [converted]
    dsimp only
    refine bind_check (fun positive => bind_check (fun below => ?_) fun big => ?_) fun small => ?_
    · rw [wp_modify, if_pos (by simp [positive, below])]
      exact ⟨_, rfl, rfl⟩
    · rw [if_neg (by simp [big])]
      exact ⟨rfl, rfl⟩
    · rw [if_neg (by simp [small])]
      exact ⟨rfl, rfl⟩
  · rw [failed]
    exact ⟨rfl, rfl⟩

theorem threads_assigns (power large : String) : Assigns (fun token => do
    let val2 := toSize (← stoi token)
    check (isPowerOf2 val2) (.torchCheck power)
    check (val2 ≤ pinnedMaxRegisterThreads) (.torchCheck large)
    modify fun settings => { settings with pinnedNumRegisterThreads := val2 })
    .pinnedNumRegisterThreads := by
  intro token settings
  rw [stored, storedThreads, wp_bind]
  refine stoi_spec (fun value converted => ?_) fun failure failed => ?_
  · rw [converted]
    dsimp only
    refine bind_check (fun power => bind_check (fun few => ?_) fun many => ?_) fun other => ?_
    · rw [wp_modify, if_pos ⟨power, of_decide_eq_true few⟩]
      exact ⟨_, rfl, rfl⟩
    · rw [if_neg (fun both => of_decide_eq_false many both.2)]
      exact ⟨rfl, rfl⟩
    · rw [if_neg (fun both => by simp [other] at both)]
      exact ⟨rfl, rfl⟩
  · rw [failed]
    exact ⟨rfl, rfl⟩

def Takes (parser : M Nat) (config : List Token) (i : Nat) (setting : Setting) : Prop :=
  ∀ settings, wp parser
    (fun next after => next = i + 2 ∧ ∃ token value, config[i + 1]? = some [':'] ∧
      config[i + 2]? = some token ∧ stored token setting = some value ∧
      after = settings.put setting value)
    (fun _ after => after = settings ∧ ∀ token, config[i + 1]? = some [':'] →
      config[i + 2]? = some token → stored token setting = none) settings

theorem parseValue_takes {setting : Setting} {assign : Token → M Unit} (missing : String)
    (assigns : Assigns assign setting) :
    Takes (parseValue config i missing assign) config i setting := by
  intro settings
  refine bind_check (fun colon => ?_) fun other => ?_
  · cases next : config[i + 2]? with
    | none => exact ⟨rfl, fun token _ found => by cases found⟩
    | some token =>
      rw [wp_bind]
      refine wp_mono (assigns token settings) (fun _ after => ?_) fun _ after => ?_
      · rintro ⟨value, known, rfl⟩
        exact ⟨rfl, token, value, by simpa using colon, rfl, known, rfl⟩
      · rintro ⟨refused, rfl⟩
        refine ⟨rfl, fun _ _ found => ?_⟩
        cases found
        exact refused
  · refine ⟨rfl, fun token found _ => ?_⟩
    simp [found] at other

theorem parseMaxSplitSize_takes : Takes (parseMaxSplitSize config i) config i .maxSplitSize :=
  parseValue_takes _ (size_assigns _ .maxSplitSize
    (fun maxSplitSize settings => { settings with maxSplitSize }) (fun _ => rfl) fun _ _ => rfl)

theorem parseMaxNonSplitRoundingSize_takes :
    Takes (parseMaxNonSplitRoundingSize config i) config i .maxNonSplitRoundingSize :=
  parseValue_takes _ (size_assigns _ .maxNonSplitRoundingSize
    (fun maxNonSplitRoundingSize settings => { settings with maxNonSplitRoundingSize })
    (fun _ => rfl) fun _ _ => rfl)

theorem parseGarbageCollectionThreshold_takes :
    Takes (parseGarbageCollectionThreshold config i) config i .garbageCollectionThreshold :=
  parseValue_takes _ (threshold_assigns _ _)

theorem parseExpandableSegments_takes :
    Takes (parseExpandableSegments config i) config i .expandableSegments :=
  parseValue_takes _ (flag_assigns _ .expandableSegments (fun token => token == "True".toList)
    (fun expandableSegments settings => { settings with expandableSegments }) (fun _ => rfl)
    fun _ _ => rfl)

theorem parseReleaseLock_takes {item : Token} (name : item ≠ "True".toList) :
    Takes (parseReleaseLock config i item) config i .releaseLockOnSupamalloc := by
  have never : (item == "True".toList) = false := by simpa using name
  unfold parseReleaseLock
  rw [never]
  exact parseValue_takes _ (flag_assigns _ .releaseLockOnSupamalloc (fun _ => false)
    (fun releaseLockOnSupamalloc settings => { settings with releaseLockOnSupamalloc })
    (fun _ => rfl) fun _ _ => rfl)

theorem parsePinnedUseSupaHostRegister_takes :
    Takes (parsePinnedUseSupaHostRegister config i) config i .pinnedUseSupaHostRegister :=
  parseValue_takes _ (flag_assigns _ .pinnedUseSupaHostRegister
    (fun token => token == "True".toList)
    (fun pinnedUseSupaHostRegister settings => { settings with pinnedUseSupaHostRegister })
    (fun _ => rfl) fun _ _ => rfl)

theorem parsePinnedNumRegisterThreads_takes :
    Takes (parsePinnedNumRegisterThreads config i) config i .pinnedNumRegisterThreads :=
  parseValue_takes _ (threads_assigns _ _)

def TakesItem (parser : M Nat) (config : List Token) (i : Nat) (item : Token) : Prop :=
  ∀ settings, wp parser
    (fun next after => next = i + 2 ∧ ∃ colon token entry, config[i + 1]? = some colon ∧
      config[i + 2]? = some token ∧ itemOf item colon token = some entry ∧
      after = settings.put entry.setting entry.value)
    (fun _ after => after = settings ∧ ∀ colon token, config[i + 1]? = some colon →
      config[i + 2]? = some token → itemOf item colon token = none) settings

theorem Takes.item {parser : M Nat} {setting : Setting} {item : Token}
    (takes : Takes parser config i setting) (known : settingOf item = some setting) :
    TakesItem parser config i item := by
  intro settings
  refine wp_mono (takes settings) (fun next after => ?_) fun _ after => ?_
  · rintro ⟨rfl, token, value, colon, found, stores, rfl⟩
    exact ⟨rfl, _, token, ⟨setting, token, value⟩, colon, found,
      by simp [itemOf, known, stores], rfl⟩
  · rintro ⟨rfl, refused⟩
    refine ⟨rfl, fun colon token colonFound found => ?_⟩
    by_cases isColon : colon = [':']
    · rw [isColon] at colonFound
      simp [itemOf, isColon, known, refused token colonFound found]
    · simp [itemOf, isColon]

theorem parseOption_takes (item : Token) : TakesItem (parseOption config i item) config i item := by
  unfold parseOption
  split_ifs with first second third fourth fifth sixth seventh
  · exact parseMaxSplitSize_takes.item (by rw [settingOf, if_pos first])
  · exact parseMaxNonSplitRoundingSize_takes.item (by rw [settingOf, if_neg first, if_pos second])
  · exact parseGarbageCollectionThreshold_takes.item
      (by rw [settingOf, if_neg first, if_neg second, if_pos third])
  · exact parseExpandableSegments_takes.item
      (by rw [settingOf, if_neg first, if_neg second, if_neg third, if_pos fourth])
  · have name : item ≠ "True".toList := by
      rcases fifth with rfl | rfl | rfl <;> decide
    exact (parseReleaseLock_takes name).item
      (by rw [settingOf, if_neg first, if_neg second, if_neg third, if_neg fourth, if_pos fifth])
  · exact parsePinnedUseSupaHostRegister_takes.item
      (by rw [settingOf, if_neg first, if_neg second, if_neg third, if_neg fourth, if_neg fifth,
        if_pos sixth])
  · exact parsePinnedNumRegisterThreads_takes.item
      (by rw [settingOf, if_neg first, if_neg second, if_neg third, if_neg fourth, if_neg fifth,
        if_neg sixth, if_pos seventh])
  · have unknown : settingOf item = none := by
      rw [settingOf, if_neg first, if_neg second, if_neg third, if_neg fourth, if_neg fifth,
        if_neg sixth, if_neg seventh]
    refine fun settings => ⟨rfl, fun colon token _ _ => ?_⟩
    simp [itemOf, unknown]

end Options

section Loop

variable {config : List Token}

section

variable {name colon token : Token} {item : Item} (takes : itemOf name colon token = some item)
include takes

theorem taken_cons {rest : List Token} :
    taken (name :: colon :: token :: rest) = item :: (match rest with
        | comma :: rest => if comma = [','] then taken rest else []
        | [] => []) := by
  rw [taken.eq_def]
  simp only [takes]

theorem complete_cons {rest : List Token} :
    complete (name :: colon :: token :: rest) = (match rest with
        | comma :: rest => comma = [','] && complete rest
        | [] => true) := by
  rw [complete.eq_def]
  simp only [takes]

end

open List

theorem drop_of_getElem? {i : Nat} {item : Token} (here : config[i]? = some item) :
    config.drop i = item :: config.drop (i + 1) := by
  obtain ⟨inside, found⟩ := List.getElem?_eq_some_iff.mp here
  rw [drop_eq_getElem_cons inside, found]

theorem taken_refused {tokens : List Token} {item : Token} {rest : List Token}
    (tokens_ : tokens = item :: rest)
    (refused : ∀ colon token, rest[0]? = some colon → rest[1]? = some token →
      itemOf item colon token = none) : taken tokens = [] ∧ complete tokens = false := by
  subst tokens_
  match rest with
  | [] => exact ⟨rfl, rfl⟩
  | [colon] => exact ⟨rfl, rfl⟩
  | colon :: token :: rest =>
    have none_ := refused colon token rfl rfl
    rw [taken.eq_def, complete.eq_def]
    simp only [none_, and_self]

theorem parseFrom_spec (fuel i : Nat) (settings : SUPAAllocatorConfig)
    (enough : config.length ≤ i + fuel) : wp (parseFrom config fuel i)
      (fun _ after => complete (config.drop i) = true ∧
        after = settings.putAll (taken (config.drop i)))
      (fun _ after => complete (config.drop i) = false ∧
        after = settings.putAll (taken (config.drop i))) settings := by
  induction fuel generalizing i settings with
  | zero =>
    rw [drop_eq_nil_of_le (by omega)]
    exact ⟨rfl, rfl⟩
  | succ fuel ih =>
    unfold parseFrom
    cases here : config[i]? with
    | none =>
      rw [drop_eq_nil_of_le (List.getElem?_eq_none_iff.mp here)]
      exact ⟨rfl, rfl⟩
    | some item =>
      have rest := drop_of_getElem? here
      rw [wp_bind]
      refine wp_mono (parseOption_takes item settings) (fun next after => ?_) fun _ after => ?_
      · rintro ⟨rfl, colon, token, entry, colonFound, tokenFound, takes, rfl⟩
        have tokens : config.drop i = item :: colon :: token :: config.drop (i + 3) := by
          rw [rest, drop_of_getElem? colonFound, drop_of_getElem? tokenFound]
        rw [tokens, taken_cons takes, complete_cons takes]
        split
        · next more =>
          cases comma : config[i + 3]? with
          | none => exact absurd (List.getElem?_eq_none_iff.mp comma) (by omega)
          | some separator =>
            rw [drop_of_getElem? comma]
            unfold consumeToken
            refine bind_check (fun isComma => ?_) fun other => ?_
            · have same : separator = [','] := by simpa [comma] using isComma
              subst same
              simp only [if_true, decide_true, Bool.true_and]
              exact ih (i + 4) (settings.put entry.setting entry.value) (by omega)
            · have different : separator ≠ [','] := by simpa [comma] using other
              simp [different, SUPAAllocatorConfig.putAll]
        · next ended =>
          have nothing : config.drop (i + 3) = [] := drop_eq_nil_of_le (by omega)
          have spec := ih (i + 3) (settings.put entry.setting entry.value) (by omega)
          rw [nothing] at spec ⊢
          exact spec
      · rintro ⟨rfl, refused⟩
        obtain ⟨nothing, broken⟩ := taken_refused rest fun colon token colonFound tokenFound =>
          refused colon token (by simpa using colonFound) (by simpa [getElem?_drop] using tokenFound)
        rw [nothing, broken]
        exact ⟨rfl, rfl⟩

theorem parseArgs_spec (env : List Char) (settings : SUPAAllocatorConfig) :
    wp (parseArgs (some env)) (fun _ after => complete (lexArgs env) = true ∧
        after = settings.reset.putAll (taken (lexArgs env)))
      (fun _ after => complete (lexArgs env) = false ∧
        after = settings.reset.putAll (taken (lexArgs env))) settings :=
  bind_write (parseFrom_spec _ 0 _ (by omega))

end Loop

end TorchSupa.Settings
