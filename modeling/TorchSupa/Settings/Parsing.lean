import TorchSupa.Settings.Pieces

/-!
What `parseArgs` should do with a text and a configuration, and when it does: what it stores is
what the text says unless a number has more than its digits, or the lock is to be released.
-/

namespace TorchSupa.Settings

open Outcome List
open Allocator (kLargeBuffer sizeMax kRoundUpPowerOfTwoIntervals)

def isDigits (token : Token) : Bool := !token.isEmpty && token.all Char.isDigit

def meaning (token : Token) : Setting → Option Value
  | .maxSplitSize | .maxNonSplitRoundingSize =>
    if isDigits token ∧ kLargeBuffer / mib < Numerals.digitsValue 10 token then
      some (.number (Numerals.digitsValue 10 token * mib))
    else none
  | .garbageCollectionThreshold =>
    (Numerals.decimal token).bind fun value =>
      if 0 < value ∧ value < 1 then some (.fraction (Numerals.binary64 value)) else none
  | .expandableSegments | .releaseLockOnSupamalloc | .pinnedUseSupaHostRegister =>
    if isFlag token then some (.flag (token == "True".toList)) else none
  | .pinnedNumRegisterThreads =>
    if isDigits token ∧ isPowerOf2 (Numerals.digitsValue 10 token) ∧
        Numerals.digitsValue 10 token ≤ pinnedMaxRegisterThreads then
      some (.number (Numerals.digitsValue 10 token))
    else none

def lastGiven (env : List Char) (setting : Setting) : Option Token :=
  ((given env).filter (·.1 = setting)).getLast?.map (·.2)

def WellFormed (env : List Char) : Prop :=
  ∀ text ∈ pieces env, text = [] ∨ ∃ setting token, givenBy text = some (setting, token) ∧
    (meaning token setting).isSome = true

/-- If the call returns, the text is well formed, the settings that it names have the last values
that it gives, and it does not matter for the others; if it throws, nothing has changed. -/
structure Meets (env : List Char) (settings : SUPAAllocatorConfig) : Prop where
  accepts : ∀ after, parseArgs (some env) settings = .ok () after → WellFormed env
  named : ∀ after, parseArgs (some env) settings = .ok () after →
    ∀ setting token, lastGiven env setting = some token →
      meaning token setting = some (after.get setting)
  unnamed : ∀ after, parseArgs (some env) settings = .ok () after →
    ∀ setting, lastGiven env setting = none →
      ∀ other otherAfter, parseArgs (some other) settings = .ok () otherAfter →
        lastGiven other setting = none → otherAfter.get setting = after.get setting
  throws : ∀ exception after, parseArgs (some env) settings = .error exception after →
    after = settings

def Whole (token : Token) : Setting → Prop
  | .maxSplitSize | .maxNonSplitRoundingSize | .pinnedNumRegisterThreads => isDigits token = true
  | .garbageCollectionThreshold => (Numerals.decimal token).isSome = true
  | .expandableSegments | .releaseLockOnSupamalloc | .pinnedUseSupaHostRegister => True

def lastTaken (items : List Item) (setting : Setting) : Option Value :=
  ((items.filter (·.setting = setting)).getLast?).map (·.value)

section Values

variable {token : Token} {setting : Setting} {value : Value} {settings : SUPAAllocatorConfig}

theorem toSize_natCast {number : Nat} (small : number < 2 ^ 31) : toSize (number : Int) = number := by
  unfold toSize sizeMax
  omega

theorem clampSize_of_lt {number : Nat} (large : kLargeBuffer / mib < number)
    (small : number < 2 ^ 31) : clampSize number = number * mib := by
  have limit : sizeMax / mib = 2 ^ 44 - 1 := by decide
  have product : number * mib < sizeMax + 1 := by
    unfold mib sizeMax
    omega
  rw [clampSize, limit, Nat.max_eq_left (by omega), Nat.min_eq_left (by omega),
    Nat.mod_eq_of_lt product]

theorem stoi_whole (digits : isDigits token = true) :
    Numerals.stoi token = if Numerals.digitsValue 10 token < 2 ^ 31
      then .ok (Numerals.digitsValue 10 token : Int) else .error .outOfRange := by
  simp only [isDigits, Bool.and_eq_true, Bool.not_eq_true', isEmpty_eq_false_iff] at digits
  exact Numerals.stoi_digits digits.1 digits.2

open Option

theorem meaning_size (digits : isDigits token = true) (stores : storedSize token = some value) :
    kLargeBuffer / mib < Numerals.digitsValue 10 token ∧
      value = .number (Numerals.digitsValue 10 token * mib) := by
  unfold storedSize at stores
  rw [stoi_whole digits] at stores
  split at stores
  · next number found =>
    split at found
    · next small =>
      obtain rfl := (Except.ok.inj found).symm
      rw [toSize_natCast small] at stores
      split at stores
      · next large =>
        rw [clampSize_of_lt large small] at stores
        exact ⟨large, (some.inj stores).symm⟩
      · cases stores
    · cases found
  · cases stores

theorem meaning_threads (digits : isDigits token = true)
    (stores : storedThreads token = some value) :
    isPowerOf2 (Numerals.digitsValue 10 token) = true ∧
      Numerals.digitsValue 10 token ≤ pinnedMaxRegisterThreads ∧
      value = .number (Numerals.digitsValue 10 token) := by
  unfold storedThreads at stores
  rw [stoi_whole digits] at stores
  split at stores
  · next number found =>
    split at found
    · next small =>
      obtain rfl := (Except.ok.inj found).symm
      rw [toSize_natCast small] at stores
      split at stores
      · next fits => exact ⟨fits.1, fits.2, (some.inj stores).symm⟩
      · cases stores
    · cases found
  · cases stores

theorem meaning_fraction {number : ℚ} (plain : Numerals.decimal token = some number)
    (stores : storedFraction token = some value) :
    0 < number ∧ number < 1 ∧ value = .fraction (Numerals.binary64 number) := by
  unfold storedFraction Numerals.stod at stores
  rw [Numerals.strtod_decimal plain] at stores
  dsimp only at stores
  split at stores
  · next double found =>
    split at found
    · cases found
    · cases found
      simp only [Numerals.signed, Bool.false_eq_true, if_false, positive, belowOne, ofDouble,
        Bool.and_eq_true, decide_eq_true_eq] at stores
      split at stores
      · next within =>
        refine ⟨?_, ?_, (some.inj stores).symm⟩
        · refine lt_of_le_of_ne (Numerals.decimal_nonneg plain) fun zero => ?_
          rw [← zero] at within
          simp [Numerals.binary64] at within
        · by_contra large
          exact absurd (Numerals.one_le_binary64 (not_lt.mp large)) (not_le.mpr within.2)
      · cases stores
  · cases stores

theorem storedFlag_some {flag : Bool} (stores : storedFlag token flag = some value) :
    isFlag token = true ∧ value = .flag flag := by
  unfold storedFlag at stores
  split at stores
  · next isFlag => exact ⟨isFlag, (some.inj stores).symm⟩
  · cases stores

theorem meaning_of_stored (whole : Whole token setting) (stores : stored token setting = some value)
    (other : setting ≠ .releaseLockOnSupamalloc) : meaning token setting = some value := by
  cases setting with
  | maxSplitSize =>
    obtain ⟨large, rfl⟩ := meaning_size whole stores
    exact if_pos ⟨whole, large⟩
  | maxNonSplitRoundingSize =>
    obtain ⟨large, rfl⟩ := meaning_size whole stores
    exact if_pos ⟨whole, large⟩
  | garbageCollectionThreshold =>
    obtain ⟨number, plain⟩ := isSome_iff_exists.mp whole
    obtain ⟨positive, below, rfl⟩ := meaning_fraction plain stores
    rw [meaning, plain, bind_some, if_pos ⟨positive, below⟩]
  | expandableSegments =>
    obtain ⟨isFlag, rfl⟩ := storedFlag_some stores
    exact if_pos isFlag
  | releaseLockOnSupamalloc => exact absurd rfl other
  | pinnedUseSupaHostRegister =>
    obtain ⟨isFlag, rfl⟩ := storedFlag_some stores
    exact if_pos isFlag
  | pinnedNumRegisterThreads =>
    obtain ⟨power, few, rfl⟩ := meaning_threads whole stores
    exact if_pos ⟨whole, power, few⟩

end Values

section Stores

variable {settings : SUPAAllocatorConfig} {setting : Setting} {value : Value} {token : Token}

theorem get_put_self (stores : stored token setting = some value) :
    (settings.put setting value).get setting = value := by
  have sizes (stores : storedSize token = some value) : ∃ size, value = .number size := by
    unfold storedSize at stores
    split at stores
    · split at stores
      · exact ⟨_, (Option.some.inj stores).symm⟩
      · cases stores
    · cases stores
  have fractions (stores : storedFraction token = some value) :
      ∃ threshold, value = .fraction threshold := by
    unfold storedFraction at stores
    split at stores
    · split at stores
      · exact ⟨_, (Option.some.inj stores).symm⟩
      · cases stores
    · cases stores
  have threads (stores : storedThreads token = some value) : ∃ count, value = .number count := by
    unfold storedThreads at stores
    split at stores
    · split at stores
      · exact ⟨_, (Option.some.inj stores).symm⟩
      · cases stores
    · cases stores
  cases setting with
  | maxSplitSize | maxNonSplitRoundingSize =>
    obtain ⟨size, rfl⟩ := sizes stores
    rfl
  | garbageCollectionThreshold =>
    obtain ⟨threshold, rfl⟩ := fractions stores
    rfl
  | expandableSegments | releaseLockOnSupamalloc | pinnedUseSupaHostRegister =>
    obtain ⟨_, rfl⟩ := storedFlag_some stores
    rfl
  | pinnedNumRegisterThreads =>
    obtain ⟨count, rfl⟩ := threads stores
    rfl

theorem get_put_other {other : Setting} (different : other ≠ setting) :
    (settings.put setting value).get other = settings.get other := by
  cases setting <;> cases value <;> cases other <;> first | rfl | exact absurd rfl different

theorem put_roundup (settings : SUPAAllocatorConfig) (setting : Setting) (value : Value) :
    (settings.put setting value).roundupPower2Divisions = settings.roundupPower2Divisions := by
  cases setting <;> cases value <;> rfl

theorem putAll_roundup (items : List Item) (settings : SUPAAllocatorConfig) :
    (settings.putAll items).roundupPower2Divisions = settings.roundupPower2Divisions := by
  induction items generalizing settings with
  | nil => rfl
  | cons item rest ih => exact (ih _).trans (put_roundup _ _ _)

theorem taken_stored (tokens : List Token) :
    ∀ item ∈ taken tokens, stored item.token item.setting = some item.value := by
  induction tokens using taken.induct with
  | case1 name colon token rest refused =>
    rw [taken.eq_def]
    simp [refused]
  | case2 name colon token rest item takes ih =>
    rw [taken_cons takes]
    refine forall_mem_cons.mpr ⟨?_, ?_⟩
    · obtain ⟨_, _, same, stores⟩ := itemOf_spec takes
      rw [same]
      exact stores
    · cases rest with
      | nil => simp
      | cons comma rest =>
        dsimp only at ih ⊢
        split
        · exact ih
        · simp
  | case3 tokens short =>
    have nothing : taken tokens = [] := by
      rcases tokens with _ | ⟨name, _ | ⟨colon, _ | ⟨token, rest⟩⟩⟩
      · rfl
      · rfl
      · rfl
      · exact (short name colon token rest rfl).elim
    simp [nothing]

theorem lastTaken_cons_self {item : Item} (rest : List Item) (here : item.setting = setting) :
    lastTaken (item :: rest) setting = some ((lastTaken rest setting).getD item.value) := by
  unfold lastTaken
  rw [filter_cons_of_pos (by simp [here]), getLast?_cons]
  cases (rest.filter (·.setting = setting)).getLast? <;> rfl

theorem lastTaken_cons_other {item : Item} (rest : List Item) (different : item.setting ≠ setting) :
    lastTaken (item :: rest) setting = lastTaken rest setting := by
  unfold lastTaken
  rw [filter_cons_of_neg (by simp [different])]

theorem get_putAll (items : List Item) (settings : SUPAAllocatorConfig)
    (stores : ∀ item ∈ items, stored item.token item.setting = some item.value) :
    (settings.putAll items).get setting = (lastTaken items setting).getD (settings.get setting) := by
  induction items generalizing settings with
  | nil => rfl
  | cons item rest ih =>
    have later := ih (settings.put item.setting item.value)
      fun other member => stores other (.tail _ member)
    change ((settings.put item.setting item.value).putAll rest).get setting = _
    rw [later]
    by_cases here : item.setting = setting
    · subst here
      rw [lastTaken_cons_self rest rfl, get_put_self (stores item (.head _))]
      rfl
    · rw [lastTaken_cons_other rest here, get_put_other (Ne.symm here)]

end Stores

section Runs

variable {env : List Char} {settings after : SUPAAllocatorConfig} {exception : Exn}

theorem parseArgs_ok (ran : parseArgs (some env) settings = .ok () after) :
    complete (lexArgs env) = true ∧ after = settings.reset.putAll (taken (lexArgs env)) := by
  have spec := parseArgs_spec env settings
  rwa [wp, ran] at spec

theorem parseArgs_error (ran : parseArgs (some env) settings = .error exception after) :
    complete (lexArgs env) = false ∧ after = settings.reset.putAll (taken (lexArgs env)) := by
  have spec := parseArgs_spec env settings
  rwa [wp, ran] at spec

theorem parseArgs_of_complete (ends : complete (lexArgs env) = true) :
    parseArgs (some env) settings = .ok () (settings.reset.putAll (taken (lexArgs env))) := by
  cases ran : parseArgs (some env) settings with
  | ok _ after => rw [(parseArgs_ok ran).2]
  | error exception after =>
    rw [(parseArgs_error ran).1] at ends
    cases ends

theorem parseArgs_of_broken (broken : complete (lexArgs env) = false) : ∃ exception,
    parseArgs (some env) settings =
      .error exception (settings.reset.putAll (taken (lexArgs env))) := by
  cases ran : parseArgs (some env) settings with
  | error exception after => exact ⟨exception, by rw [(parseArgs_error ran).2]⟩
  | ok _ after =>
    rw [(parseArgs_ok ran).1] at broken
    cases broken

theorem get_after (env : List Char) (settings : SUPAAllocatorConfig) (setting : Setting) :
    (settings.reset.putAll (taken (lexArgs env))).get setting =
      (lastTaken (taken (lexArgs env)) setting).getD (settings.reset.get setting) :=
  get_putAll _ _ (taken_stored _)

theorem lastGiven_of_complete (ends : complete (lexArgs env) = true) (setting : Setting) :
    lastGiven env setting =
      ((taken (lexArgs env)).filter (·.setting = setting)).getLast?.map (·.token) := by
  rw [lastGiven, (given_of_complete ends).1, filter_map, getLast?_map, Option.map_map]
  rfl

theorem last_item (ends : complete (lexArgs env) = true) (setting : Setting) :
    (lastGiven env setting = none ∧ lastTaken (taken (lexArgs env)) setting = none) ∨
      ∃ item ∈ taken (lexArgs env), item.setting = setting ∧
        lastGiven env setting = some item.token ∧
        lastTaken (taken (lexArgs env)) setting = some item.value := by
  rw [lastGiven_of_complete ends, lastTaken]
  cases last : ((taken (lexArgs env)).filter (·.setting = setting)).getLast? with
  | none => exact .inl ⟨rfl, rfl⟩
  | some item =>
    have member := mem_of_getLast? last
    rw [mem_filter, decide_eq_true_eq] at member
    exact .inr ⟨item, member.1, member.2, rfl, rfl⟩

end Runs

section Meets

variable {env : List Char} {settings after : SUPAAllocatorConfig}

theorem lock_after (settings : SUPAAllocatorConfig) (ends : complete (lexArgs env) = true)
    {token : Token}
    (given_ : lastGiven env .releaseLockOnSupamalloc = some token) :
    isFlag token = true ∧
      (settings.reset.putAll (taken (lexArgs env))).get .releaseLockOnSupamalloc = .flag false := by
  rcases last_item ends .releaseLockOnSupamalloc with ⟨none_, _⟩ | ⟨item, member, lock, last, value⟩
  · rw [given_] at none_
    cases none_
  · obtain rfl := Option.mem_unique given_ last
    have stores := taken_stored _ item member
    rw [lock] at stores
    obtain ⟨isFlag, stored_⟩ := storedFlag_some stores
    rw [get_after, value, stored_]
    exact ⟨isFlag, rfl⟩

theorem unnamed_of_complete (ends : complete (lexArgs env) = true) {setting : Setting}
    (none_ : lastGiven env setting = none) :
    (settings.reset.putAll (taken (lexArgs env))).get setting = settings.reset.get setting := by
  rcases last_item ends setting with ⟨_, none_⟩ | ⟨item, _, _, last, _⟩
  · rw [get_after, none_]
    rfl
  · rw [none_] at last
    cases last

end Meets

/-- The text is a list of options between commas with values that can be converted, and each
setting has what the last value for it is converted to, or what every call starts with. Nothing is
said about the lock where it is named. -/
structure Reads (env : List Char) (settings after : SUPAAllocatorConfig) : Prop where
  roundup : after.roundupPower2Divisions = List.replicate kRoundUpPowerOfTwoIntervals 0
  listed : ∀ text ∈ pieces env, text = [] ∨ ∃ setting token,
    givenBy text = some (setting, token) ∧ (stored token setting).isSome = true
  named : ∀ setting token, setting ≠ .releaseLockOnSupamalloc →
    lastGiven env setting = some token → stored token setting = some (after.get setting)
  whole : ∀ setting token, setting ≠ .releaseLockOnSupamalloc →
    lastGiven env setting = some token → Whole token setting →
      meaning token setting = some (after.get setting)
  unnamed : ∀ setting, lastGiven env setting = none →
    after.get setting = settings.reset.get setting

/-- What has been assigned before an error stays: each setting has the value of the last item that
was taken, or what every call starts with. Nothing is said about the lock where it was taken. -/
structure Leaves (env : List Char) (settings after : SUPAAllocatorConfig) : Prop where
  roundup : after.roundupPower2Divisions = List.replicate kRoundUpPowerOfTwoIntervals 0
  get_ : ∀ setting, (setting = .releaseLockOnSupamalloc →
      lastTaken (taken (lexArgs env)) setting = none) →
    after.get setting = (lastTaken (taken (lexArgs env)) setting).getD (settings.reset.get setting)

theorem reads_of_complete (env : List Char) (settings : SUPAAllocatorConfig)
    (ends : complete (lexArgs env) = true) :
    Reads env settings (settings.reset.putAll (taken (lexArgs env))) := by
  obtain ⟨given_, gives⟩ := given_of_complete ends
  have named : ∀ setting token, setting ≠ .releaseLockOnSupamalloc →
      lastGiven env setting = some token → stored token setting =
        some ((settings.reset.putAll (taken (lexArgs env))).get setting) := by
    intro setting token _ last
    rcases last_item ends setting with ⟨none_, _⟩ | ⟨item, member, rfl, lastToken, value⟩
    · rw [last] at none_
      cases none_
    · obtain rfl := Option.mem_unique last lastToken
      rw [get_after, value]
      exact taken_stored _ item member
  refine ⟨putAll_roundup _ _, fun text member => ?_, named, fun setting token lock last whole => ?_,
    fun setting none_ => unnamed_of_complete ends none_⟩
  · refine (gives text member).imp_right fun isSome => ?_
    obtain ⟨⟨setting, token⟩, here⟩ := Option.isSome_iff_exists.mp isSome
    have listed : (setting, token) ∈ given env := mem_filterMap.mpr ⟨text, member, here⟩
    rw [given_, mem_map] at listed
    obtain ⟨item, there, same⟩ := listed
    obtain ⟨rfl, rfl⟩ := Prod.mk.inj same
    exact ⟨_, _, here, by rw [taken_stored _ item there]; rfl⟩
  · exact meaning_of_stored whole (named setting token lock last) lock

/-- A call that returns has read a list of options; one that throws leaves what it has assigned. -/
theorem parseArgs_reads (env : List Char) (settings : SUPAAllocatorConfig) :
    (∀ after, parseArgs (some env) settings = .ok () after → Reads env settings after) ∧
    ∀ exception after, parseArgs (some env) settings = .error exception after →
      Leaves env settings after := by
  refine ⟨fun after ran => ?_, fun exception after ran => ?_⟩
  · obtain ⟨ends, rfl⟩ := parseArgs_ok ran
    exact reads_of_complete env settings ends
  · obtain ⟨_, rfl⟩ := parseArgs_error ran
    exact ⟨putAll_roundup _ _, fun setting _ => get_after env settings setting⟩

/-- A number with a character behind it is taken, the lock is not set, and a text that is refused
has reset the size. -/
theorem parseArgs_not_meets : ¬Meets "max_split_size_mb:25x".toList {} ∧
    ¬Meets "release_lock_on_supamalloc:True".toList {} ∧
    ¬Meets "max_split_size_mb:20".toList { maxSplitSize := 30 * mib } := by
  refine ⟨fun meets => ?_, fun meets => ?_, fun meets => ?_⟩
  · have listed : "max_split_size_mb:25x".toList ∈ pieces "max_split_size_mb:25x".toList := by
      decide
    rcases meets.accepts _ (parseArgs_of_complete (by decide)) _ listed with
      empty | ⟨setting, token, gives, means⟩
    · revert empty
      decide
    · have given_ : givenBy "max_split_size_mb:25x".toList = some (.maxSplitSize, "25x".toList) := by
        decide
      obtain ⟨rfl, rfl⟩ := Prod.mk.inj (Option.mem_unique given_ gives)
      revert means
      decide
  · have ends : complete (lexArgs "release_lock_on_supamalloc:True".toList) = true := by decide
    have unlocks : lastGiven "release_lock_on_supamalloc:True".toList .releaseLockOnSupamalloc =
        some "True".toList := by decide
    have named := meets.named _ (parseArgs_of_complete ends) _ _ unlocks
    rw [(lock_after _ ends unlocks).2] at named
    revert named
    decide
  · have broken : complete (lexArgs "max_split_size_mb:20".toList) = false := by decide
    obtain ⟨exception, ran⟩ : ∃ exception, parseArgs (some "max_split_size_mb:20".toList)
        { maxSplitSize := 30 * mib } = .error exception _ := parseArgs_of_broken broken
    have nothing : taken (lexArgs "max_split_size_mb:20".toList) = [] := by decide
    have kept := congrArg (·.maxSplitSize) (meets.throws _ _ ran)
    rw [nothing] at kept
    revert kept
    decide

end TorchSupa.Settings
