import Mathlib.Data.List.Basic
import Mathlib.Data.List.Induction
import Mathlib.Logic.Function.Basic
import RecordQuery.Connection.Config
import RecordQuery.Proofs.Text.Numeral

/-!
Options applied to one configuration in turn. What stands in the end is written down field by field: each
field has the last valid value that was given for its option, and where there is none what it had before.
So calls for different options may change places. A call that fails or whose key is not recognized has
written nothing by then, as the value is read before anything is set. Valid are any text, a word for a truth
value, or a numeral of 32 bits, which for a capacity is not zero.
-/

namespace RecordQuery

namespace Setting

/-- One or more digits after an optional plus sign, with blanks around them or not. -/
def IsNumeral (value : String) (n : Nat) : Prop :=
  ∃ digits : List Char,
    ((Text.trim value).toList = digits ∨ (Text.trim value).toList = '+' :: digits) ∧ digits ≠ [] ∧
      (∀ c ∈ digits, c.isDigit = true) ∧ Nat.ofDigitChars 10 digits 0 = n

theorem unsigned32_eq_ok_iff {value : String} {n : UInt32} :
    unsigned32 value = .ok n ↔ IsNumeral value n.toNat := by
  have read_iff (number : Nat) : Text.readUnsigned UInt32.size (Text.trim value) = .ok number ↔
      IsNumeral value number ∧ number < UInt32.size := by
    rw [Text.readUnsigned_eq_ok_iff (by decide), IsNumeral]
    constructor
    · rintro ⟨digits, spelled, some_digit, all_digits, read, fits⟩
      exact ⟨⟨digits, spelled, some_digit, all_digits, read⟩, fits⟩
    · rintro ⟨⟨digits, spelled, some_digit, all_digits, read⟩, fits⟩
      exact ⟨digits, spelled, some_digit, all_digits, read, fits⟩
  rw [unsigned32]
  constructor
  · intro given
    split at given
    · next number read =>
      obtain ⟨numeral, fits⟩ := (read_iff number).1 read
      rw [← Except.ok.inj given, UInt32.toNat_ofNat_of_lt' fits]
      exact numeral
    · cases given
  · intro numeral
    rw [(read_iff n.toNat).2 ⟨numeral, n.toNat_lt⟩]
    exact congrArg Except.ok UInt32.ofNat_toNat

/-- A capacity is a numeral other than zero, and for zero there is a fault of its own. -/
theorem positive32_spec (value : String) :
    (∀ n, positive32 value = .ok n ↔ n ≠ 0 ∧ IsNumeral value n.toNat) ∧
      (positive32 value = .error "must be positive" ↔ IsNumeral value 0) := by
  have zero_iff : unsigned32 value = .ok 0 ↔ IsNumeral value 0 := unsigned32_eq_ok_iff
  simp only [← unsigned32_eq_ok_iff, ← zero_iff]
  rw [positive32]
  cases given : unsigned32 value with
  | ok m =>
    change (∀ n, (if m = 0 then Except.error "must be positive" else .ok m) = .ok n ↔ _) ∧
      ((if m = 0 then Except.error "must be positive" else .ok m) = _ ↔ _)
    by_cases zero : m = 0
    · subst zero
      refine ⟨fun n => iff_of_false nofun ?_, iff_of_true rfl rfl⟩
      rintro ⟨positive, same⟩
      exact positive (Except.ok.inj same).symm
    · rw [if_neg zero]
      refine ⟨fun n => ?_, iff_of_false nofun fun same => zero (Except.ok.inj same)⟩
      constructor
      · intro same
        exact ⟨Except.ok.inj same ▸ zero, same⟩
      · exact And.right
  | error reason =>
    refine ⟨fun n => iff_of_false nofun (fun ⟨_, same⟩ => nomatch same), iff_of_false ?_ nofun⟩
    rw [unsigned32] at given
    intro same
    split at given
    · cases given
    · next fault _ =>
      rw [← given] at same
      cases fault <;> exact absurd (Except.error.inj same) (by decide)

/-- A truth value is the word for it in any case, with blanks around it or not. -/
theorem boolean_spec (value : String) :
    (∀ truth, boolean value = .ok truth ↔ (Text.trim value).toLower = toString truth) ∧
      ∀ reason, boolean value = .error reason ↔
        reason = "expected true or false" ∧ ∀ truth : Bool, (Text.trim value).toLower ≠ toString truth := by
  rw [boolean]
  by_cases is_true : (Text.trim value).toLower = "true"
  · rw [if_pos is_true, is_true]
    refine ⟨fun truth => by cases truth <;> decide, fun reason => iff_of_false nofun ?_⟩
    exact fun ⟨_, differs⟩ => differs true rfl
  · rw [if_neg is_true]
    by_cases is_false : (Text.trim value).toLower = "false"
    · rw [if_pos is_false, is_false]
      refine ⟨fun truth => by cases truth <;> decide, fun reason => iff_of_false nofun ?_⟩
      exact fun ⟨_, differs⟩ => differs false rfl
    · rw [if_neg is_false]
      refine ⟨fun truth => iff_of_false nofun ?_, fun reason => ?_⟩
      · cases truth
        · exact is_false
        · exact is_true
      · rw [Except.error.injEq, eq_comm]
        exact (and_iff_left (Bool.forall_bool.2 ⟨is_false, is_true⟩)).symm

end Setting

/-- The value is one that the option can have. -/
def OptionKey.accepts (key : OptionKey) (value : String) : Bool := (Setting.read key value).isOk

theorem OptionKey.accepts_iff {key : OptionKey} {value : String} :
    key.accepts value = true ↔ ∃ setting, Setting.read key value = .ok setting := by
  rw [accepts]
  cases Setting.read key value with
  | ok setting => exact iff_of_true rfl ⟨setting, rfl⟩
  | error reason => exact iff_of_false Bool.false_ne_true (fun ⟨_, same⟩ => nomatch same)

/-- The value of the last call for an option that gave a valid one. -/
def lastValid? (calls : List (String × String)) (key : OptionKey) : Option String :=
  (calls.filter fun call => call.1 == key.name && key.accepts call.2).getLast?.map Prod.snd

/-- The value as it is read, if there is one that can be read, in place of the former one. -/
def Setting.taken {α : Type} (read : String → Except String α) (value? : Option String) (former : α) : α :=
  (value?.bind fun value => (read value).toOption).getD former

open Setting (taken unsigned32 boolean positive32)

section Updated

variable (value? : OptionKey → Option String)

/-- The base of a policy once the options have these values. -/
def BasePolicy.updated (base : BasePolicy) : BasePolicy :=
  { base with
    socketTimeoutMs := taken unsigned32 (value? .socketTimeout) base.socketTimeoutMs
    totalTimeoutMs := taken unsigned32 (value? .totalTimeout) base.totalTimeoutMs
    maxRetries := taken unsigned32 (value? .maxRetries) base.maxRetries
    sleepBetweenRetriesMs := taken unsigned32 (value? .sleepBetweenRetries) base.sleepBetweenRetriesMs
    sendKey := taken boolean (value? .sendKey) base.sendKey }

/-- The configuration once the options have these values; an option without a value is as before. -/
def Config.updated (config : Config) : Config :=
  { config with
    client := {
      user := (value? .user).or config.client.user
      password := (value? .password).or config.client.password
      clusterName := (value? .clusterName).or config.client.clusterName
      timeoutMs := taken unsigned32 (value? .timeout) config.client.timeoutMs
      loginTimeoutMs := taken unsigned32 (value? .loginTimeout) config.client.loginTimeoutMs
      maxConnsPerNode := taken unsigned32 (value? .maxConnsPerNode) config.client.maxConnsPerNode }
    read := config.read.updated value?
    scan := { config.scan with
      base := config.scan.base.updated value?
      recordsPerSecond := taken unsigned32 (value? .recordsPerSecond) config.scan.recordsPerSecond
      maxConcurrentNodes := taken unsigned32 (value? .maxConcurrentNodes) config.scan.maxConcurrentNodes }
    query := { config.query with
      base := config.query.base.updated value?
      recordsPerSecond := taken unsigned32 (value? .recordsPerSecond) config.query.recordsPerSecond }
    queueCapacity := taken (fun value => (positive32 value).map fun count => some count.toUInt64)
      (value? .recordSetQueueCapacity) config.queueCapacity
    useBoolBin := taken boolean (value? .useBoolBin) config.useBoolBin }

end Updated

namespace Config

/-- Applies an option to the configuration in use, and tells whether the key is recognized. What a call has
written when it fails stays written. -/
def assign (key value : String) : ExceptT ConfigError (StateM Config) Bool := do
  match OptionKey.ofName? key with
  | none => return false
  | some found =>
    match Setting.read found value with
    | .error reason => throw (.invalidValue key value reason)
    | .ok setting =>
      modify fun config => config.set setting
      return true

/-- The answer to a call and the configuration after it. -/
def assigned (config : Config) (key value : String) : Except ConfigError Bool × Config :=
  (assign key value).run.run config

/-- The configuration after calls, whatever became of each of them. -/
def assignAll (config : Config) (calls : List (String × String)) : Config :=
  calls.foldl (fun config call => (config.assigned call.1 call.2).2) config

/-- What point reads, scans and index queries have in common. -/
def bases (config : Config) : List BasePolicy := [config.read, config.scan.base, config.query.base]

/-- The setting stands in every place that it is for. -/
def Holds (config : Config) : Setting → Prop
  | .user name => config.client.user = some name
  | .password word => config.client.password = some word
  | .clusterName name => config.client.clusterName = some name
  | .timeout ms => config.client.timeoutMs = ms
  | .loginTimeout ms => config.client.loginTimeoutMs = ms
  | .maxConnsPerNode count => config.client.maxConnsPerNode = count
  | .socketTimeout ms => ∀ base ∈ config.bases, base.socketTimeoutMs = ms
  | .totalTimeout ms => ∀ base ∈ config.bases, base.totalTimeoutMs = ms
  | .maxRetries count => ∀ base ∈ config.bases, base.maxRetries = count
  | .sleepBetweenRetries ms => ∀ base ∈ config.bases, base.sleepBetweenRetriesMs = ms
  | .sendKey send => ∀ base ∈ config.bases, base.sendKey = send
  | .recordsPerSecond count =>
    config.scan.recordsPerSecond = count ∧ config.query.recordsPerSecond = count
  | .maxConcurrentNodes count => config.scan.maxConcurrentNodes = count
  | .recordSetQueueCapacity count => config.queueCapacity = some count.toUInt64
  | .useBoolBin use => config.useBoolBin = use

theorem holds_set (config : Config) (setting : Setting) : (config.set setting).Holds setting := by
  cases setting <;> simp [Holds, set, mapBases, bases]

/-- The three ways in which a call is answered. -/
theorem applyOption_cases (config : Config) (key value : String) :
    (OptionKey.ofName? key = none ∧ config.applyOption key value = .ok none) ∨
    (∃ found setting, OptionKey.ofName? key = some found ∧ Setting.read found value = .ok setting ∧
      config.applyOption key value = .ok (some (config.set setting))) ∨
    ∃ found reason, OptionKey.ofName? key = some found ∧ Setting.read found value = .error reason ∧
      config.applyOption key value = .error (.invalidValue key value reason) := by
  rw [applyOption]
  cases recognized : OptionKey.ofName? key with
  | none => exact Or.inl ⟨rfl, rfl⟩
  | some found =>
    dsimp only
    cases given : Setting.read found value with
    | ok setting => exact Or.inr (Or.inl ⟨found, setting, rfl, given, rfl⟩)
    | error reason => exact Or.inr (Or.inr ⟨found, reason, rfl, given, rfl⟩)

/-- To the configuration in use happens what the answer says, and otherwise nothing. -/
theorem assigned_eq (config : Config) (key value : String) :
    config.assigned key value =
      match config.applyOption key value with
      | .ok (some changed) => (.ok true, changed)
      | .ok none => (.ok false, config)
      | .error error => (.error error, config) := by
  rw [assigned, assign, applyOption]
  cases OptionKey.ofName? key with
  | none => rfl
  | some found =>
    dsimp only
    cases Setting.read found value <;> rfl

theorem assignAll_concat (config : Config) (calls : List (String × String)) (call : String × String) :
    config.assignAll (calls ++ [call]) = ((config.assignAll calls).assigned call.1 call.2).2 := by
  rw [assignAll, List.foldl_append, List.foldl_cons, List.foldl_nil, assignAll]

section LastValid

variable {calls others : List (String × String)} {call : String × String} {key : OptionKey}

theorem lastValid?_concat (calls : List (String × String)) (call : String × String) (key : OptionKey) :
    lastValid? (calls ++ [call]) key =
      if (call.1 == key.name && key.accepts call.2) = true then some call.2 else lastValid? calls key := by
  rw [lastValid?, List.filter_append, List.filter_singleton]
  split
  · next counts => rw [counts, cond_true, List.getLast?_concat, Option.map_some]
  · next idle => rw [Bool.eq_false_iff.2 idle, cond_false, List.append_nil, lastValid?]

theorem lastValid?_concat_valid (named : key.name = call.1) (valid : key.accepts call.2 = true) :
    lastValid? (calls ++ [call]) = Function.update (lastValid? calls) key (some call.2) := by
  funext other
  rw [lastValid?_concat, Function.update_apply]
  by_cases same : other = key
  · simp [same, named, valid]
  · have different : call.1 ≠ other.name := fun equal =>
      same (OptionKey.name_injective (named.trans equal)).symm
    simp [same, different]

/-- A call that gives no option a valid value does not count. -/
theorem lastValid?_concat_other (idle : ∀ key : OptionKey, key.name = call.1 → key.accepts call.2 = false) :
    lastValid? (calls ++ [call]) = lastValid? calls := by
  funext key
  rw [lastValid?_concat, if_neg]
  rintro counts
  obtain ⟨named, valid⟩ := Bool.and_eq_true_iff.1 counts
  rw [idle key (beq_iff_eq.1 named).symm] at valid
  cases valid

/-- The last valid value depends on the calls for the option alone. -/
theorem lastValid?_congr (same : ∀ name, calls.filter (fun call => call.1 == name) =
    others.filter fun call => call.1 == name) : lastValid? others = lastValid? calls := by
  funext key
  have split (calls : List (String × String)) :
      (calls.filter fun call => call.1 == key.name && key.accepts call.2) =
        (calls.filter fun call => call.1 == key.name).filter fun call => key.accepts call.2 := by
    rw [List.filter_filter]
    exact List.filter_congr fun call _ => Bool.and_comm ..
  rw [lastValid?, lastValid?, split, split, same]

end LastValid

theorem ok_of_map {α β : Type} {read : Except String α} {f : α → β} {result : β}
    (mapped : read.map f = .ok result) : ∃ value, read = .ok value ∧ f value = result := by
  cases read with
  | error reason => cases mapped
  | ok value => exact ⟨value, rfl, Except.ok.inj mapped⟩

/-- To give one more option a value is to make the setting that the value is read as. -/
theorem updated_update (config : Config) (value? : OptionKey → Option String) {key : OptionKey}
    {value : String} {setting : Setting} (given : Setting.read key value = .ok setting) :
    config.updated (Function.update value? key (some value)) = (config.updated value?).set setting := by
  cases key with
  | user | password | clusterName =>
    cases given
    rfl
  | _ =>
    rw [Setting.read] at given
    obtain ⟨read, parsed, rfl⟩ := ok_of_map given
    simp [updated, BasePolicy.updated, taken, parsed, set, mapBases, Except.toOption, Except.map]

/-- Each field has the last valid value for its option. -/
theorem assignAll_eq_updated (config : Config) (calls : List (String × String)) :
    config.assignAll calls = config.updated (lastValid? calls) := by
  induction calls using List.reverseRecOn with
  | nil => rfl
  | append_singleton calls call ih =>
    rw [assignAll_concat, ih, assigned_eq]
    obtain ⟨unknown, answer⟩ | ⟨key, setting, found, given, answer⟩ | ⟨key, reason, found, refused, answer⟩ :=
      applyOption_cases (config.updated (lastValid? calls)) call.1 call.2
    · rw [answer, lastValid?_concat_other]
      intro key named
      rw [← named, OptionKey.ofName?_name] at unknown
      cases unknown
    · have valid : key.accepts call.2 = true := OptionKey.accepts_iff.2 ⟨setting, given⟩
      rw [answer, lastValid?_concat_valid (OptionKey.name_of_ofName? found) valid,
        updated_update config (lastValid? calls) given]
    · rw [answer, lastValid?_concat_other]
      intro other named
      rw [← named, OptionKey.ofName?_name] at found
      cases found
      rw [OptionKey.accepts, refused]
      rfl

/-- However many calls there are, each field has in the end the last valid value that was given for its
option, and so the order matters only among the calls for one option. A call that fails, or whose key is not
recognized, leaves the configuration as it was; any other makes its setting in every place that it is for. -/
theorem last_valid_option_counts (config : Config) (calls : List (String × String)) :
    config.assignAll calls = config.updated (lastValid? calls) ∧
    (∀ others : List (String × String),
      (∀ name, calls.filter (fun call => call.1 == name) = others.filter fun call => call.1 == name) →
      config.assignAll others = config.assignAll calls) ∧
    (∀ key value, (config.assigned key value).1 ≠ .ok true → (config.assigned key value).2 = config) ∧
    ∀ key value found setting, OptionKey.ofName? key = some found → Setting.read found value = .ok setting →
      (config.assigned key value).1 = .ok true ∧ (config.assigned key value).2.Holds setting := by
  refine ⟨config.assignAll_eq_updated calls, fun others same => ?reordered, fun key value unanswered => ?kept,
    fun key value found setting recognized given => ?set⟩
  case reordered =>
    rw [assignAll_eq_updated, assignAll_eq_updated, lastValid?_congr same]
  case kept =>
    rw [assigned_eq] at unanswered ⊢
    split
    · next answer =>
      rw [answer] at unanswered
      exact absurd rfl unanswered
    · rfl
    · rfl
  case set =>
    have answer : config.applyOption key value = .ok (some (config.set setting)) := by
      simp only [applyOption, recognized, given]
    rw [assigned_eq, answer]
    exact ⟨rfl, config.holds_set setting⟩

/-- Two time limits, given among other options and in either order; one value is no number. -/
theorem time_limits_in_either_order :
    let limits : List (String × String) := [("timeout", "5"), ("timeout", "soon")]
    let sockets : List (String × String) := [("socketTimeout", "9"), ("zone", "1"), ("socketTimeout", " 7 ")]
    let config : Config := {}
    config.assignAll (limits ++ sockets) = config.assignAll (sockets ++ limits) ∧
      (config.assignAll (sockets ++ limits)).client.timeoutMs = 5 ∧
      (config.assignAll (sockets ++ limits)).bases.map BasePolicy.socketTimeoutMs = [7, 7, 7] ∧
      (config.assigned "timeout" "soon").2 = config ∧
      (config.assigned "socketTimeout" " 7 ").2.Holds (.socketTimeout 7) := by
  intro limits sockets config
  obtain ⟨whole, reordered, kept, made⟩ := config.last_valid_option_counts (sockets ++ limits)
  have apart (name : String) : (sockets ++ limits).filter (fun call => call.1 == name) =
      (limits ++ sockets).filter fun call => call.1 == name := by
    by_cases limit : name = "timeout"
    · subst limit
      rfl
    · have none_kept : limits.filter (fun call => call.1 == name) = [] := by
        simp [limits, Ne.symm limit]
      rw [List.filter_append, List.filter_append, none_kept, List.append_nil, List.nil_append]
  have refused : (config.assigned "timeout" "soon").1 ≠ .ok true := by
    rw [assigned_eq]
    exact fun same => nomatch same
  have recognized : OptionKey.ofName? "socketTimeout" = some .socketTimeout := by decide
  have given : Setting.read .socketTimeout " 7 " = .ok (.socketTimeout 7) := rfl
  have set := (made "socketTimeout" " 7 " _ _ recognized given).2
  refine ⟨reordered (limits ++ sockets) apart, ?_, ?_, kept "timeout" "soon" refused, set⟩
  · rw [whole]
    decide +kernel
  · rw [whole]
    decide +kernel

end Config

end RecordQuery
