import RecordQuery.Proofs.Connection.Accepted
import RecordQuery.Proofs.Connection.Options

/-!
The configuration that a URL and properties describe. For each option one value counts: that of the URL,
or where the URL has none that of the properties. Only these values are read, in ascending order of the
names, and the first that is refused is the one that is reported; if none is, each of them stands in its
place in the configuration. What the URL takes the place of and what is no option are never read.
-/

namespace RecordQuery

/-- The value that counts for a name. -/
def ConnectionUrl.effective? (url : ConnectionUrl) (properties : Fields String) (name : String) :
    Option String :=
  (url.parameters.get? name).or (properties.get? name)

namespace Config

/-- A value that its option accepts, or one for no option. -/
def Admissible (option : String × String) : Prop :=
  ∀ key, OptionKey.ofName? option.1 = some key → key.accepts option.2 = true

/-- An option with a value that it cannot have, and the error that says so. -/
def Refused (option : String × String) (error : ConfigError) : Prop :=
  ∃ key reason, OptionKey.ofName? option.1 = some key ∧ Setting.read key option.2 = .error reason ∧
    error = .invalidValue option.1 option.2 reason

section Options

variable {config changed : Config} {option : String × String} {options : List (String × String)}
  {error : ConfigError}

theorem Refused.not_admissible (refused : Refused option error) : ¬Admissible option := by
  obtain ⟨key, reason, recognized, given, -⟩ := refused
  intro admissible
  have accepted := admissible key recognized
  rw [OptionKey.accepts, given] at accepted
  cases accepted

/-- One option is applied and those after it follow, or it is refused and they are not looked at. -/
theorem applyOptions_cons (config : Config) (option : String × String)
    (options : List (String × String)) :
    (Admissible option ∧ config.applyOptions (option :: options) =
        (config.assigned option.1 option.2).2.applyOptions options) ∨
      ∃ error, Refused option error ∧ config.applyOptions (option :: options) = .error error := by
  obtain ⟨name, value⟩ := option
  rw [applyOptions, assigned_eq]
  obtain ⟨unknown, answer⟩ | ⟨key, setting, recognized, given, answer⟩ |
    ⟨key, reason, recognized, given, answer⟩ := config.applyOption_cases name value
  · refine Or.inl ⟨fun key found => ?_, ?_⟩
    · rw [unknown] at found
      cases found
    · rw [answer]
      rfl
  · refine Or.inl ⟨fun other found => ?_, ?_⟩
    · cases recognized.symm.trans found
      exact OptionKey.accepts_iff.2 ⟨setting, given⟩
    · rw [answer]
      rfl
  · refine Or.inr ⟨_, ⟨key, reason, recognized, given, rfl⟩, ?_⟩
    rw [answer]
    rfl

theorem applyOptions_eq_ok_iff : config.applyOptions options = .ok changed ↔
    (∀ option ∈ options, Admissible option) ∧ changed = config.assignAll options := by
  induction options generalizing config with
  | nil =>
    rw [applyOptions, Except.ok.injEq, eq_comm, assignAll, List.foldl_nil]
    exact (and_iff_right (List.forall_mem_nil _)).symm
  | cons option options ih =>
    obtain ⟨admissible, step⟩ | ⟨error, refused, step⟩ := config.applyOptions_cons option options
    · rw [step, ih, List.forall_mem_cons, and_iff_right admissible]
      rfl
    · simp only [step, reduceCtorEq, false_iff, not_and]
      intro all_admissible
      exact absurd (all_admissible option List.mem_cons_self) refused.not_admissible

/-- Of options in ascending order the least that is refused is reported. -/
theorem applyOptions_eq_error_iff (ascending : Fields.Ascending options) :
    config.applyOptions options = .error error ↔ ∃ option ∈ options, Refused option error ∧
      ∀ smaller ∈ options, smaller.1 < option.1 → Admissible smaller := by
  induction options generalizing config with
  | nil => exact iff_of_false (fun same => nomatch same) fun ⟨_, mem, _⟩ => nomatch mem
  | cons first options ih =>
    obtain ⟨before, ascending⟩ := List.pairwise_cons.1 ascending
    obtain ⟨admissible, step⟩ | ⟨first_error, refused, step⟩ := config.applyOptions_cons first options
    · rw [step, ih ascending]
      constructor
      · rintro ⟨option, mem, refused, least⟩
        exact ⟨option, List.mem_cons_of_mem _ mem, refused,
          List.forall_mem_cons.2 ⟨fun _ => admissible, least⟩⟩
      · rintro ⟨option, mem, refused, least⟩
        obtain rfl | later := List.mem_cons.1 mem
        · exact absurd admissible refused.not_admissible
        · exact ⟨option, later, refused, (List.forall_mem_cons.1 least).2⟩
    · rw [step, Except.error.injEq]
      constructor
      · rintro rfl
        refine ⟨first, List.mem_cons_self, refused, List.forall_mem_cons.2 ⟨?_, ?_⟩⟩
        · exact fun less => absurd less (String.lt_irrefl _)
        · exact fun option mem less => absurd less (String.lt_asymm (before option mem))
      · rintro ⟨option, mem, option_refused, least⟩
        obtain rfl | later := List.mem_cons.1 mem
        · obtain ⟨key, reason, recognized, given, rfl⟩ := refused
          obtain ⟨other, other_reason, other_recognized, other_given, rfl⟩ := option_refused
          cases recognized.symm.trans other_recognized
          cases given.symm.trans other_given
          rfl
        · have passed := least first List.mem_cons_self (before option later)
          exact absurd passed refused.not_admissible

/-- Where each name stands once with a value that is admissible, the last valid value is the only one. -/
theorem lastValid?_eq_get? (different : (options.map Prod.fst).Nodup)
    (admissible : ∀ option ∈ options, Admissible option) :
    lastValid? options = fun key => Fields.get? options key.name := by
  funext key
  have only {option : String × String}
      (counts : option ∈ options.filter fun call => call.1 == key.name && key.accepts call.2) :
      Fields.get? options key.name = some option.2 := by
    obtain ⟨mem, named⟩ := List.mem_filter.1 counts
    obtain ⟨named, -⟩ := Bool.and_eq_true_iff.1 named
    rw [← beq_iff_eq.1 named]
    exact (Fields.get?_eq_some_iff different).2 mem
  rw [lastValid?]
  cases last : (options.filter fun call => call.1 == key.name && key.accepts call.2).getLast? with
  | some option => rw [only (List.mem_of_getLast? last), Option.map_some]
  | none =>
    rw [List.getLast?_eq_none_iff] at last
    refine (Option.eq_none_iff_forall_ne_some.2 fun value given => ?_).symm
    have mem := (Fields.get?_eq_some_iff different).1 given
    have valid := admissible (key.name, value) mem key (OptionKey.ofName?_name key)
    exact List.filter_eq_nil_iff.1 last (key.name, value) mem (by simp [valid])

end Options

section Merged

variable {text : String} {url : ConnectionUrl} {properties : Fields String}

theorem get?_merged (accepted : ConnectionUrl.parse text = .ok url) (properties : Fields String)
    (name : String) :
    (properties.merge url.parameters).get? name = url.effective? properties name :=
  Fields.get?_merge _ (ConnectionUrl.ascending_of_accepted accepted).names_ne name

theorem mem_merged_iff (accepted : ConnectionUrl.parse text = .ok url) (ascending : properties.Ascending)
    {name value : String} :
    (name, value) ∈ properties.merge url.parameters ↔ url.effective? properties name = some value := by
  rw [← get?_merged accepted, Fields.get?_eq_some_iff (ascending.merge _).names_ne]

/-- Every option with a value that counts accepts it. -/
theorem admissible_merged_iff (accepted : ConnectionUrl.parse text = .ok url)
    (ascending : properties.Ascending) :
    (∀ option ∈ properties.merge url.parameters, Admissible option) ↔
      ∀ (key : OptionKey) (value : String), url.effective? properties key.name = some value →
        key.accepts value = true := by
  constructor
  · intro admissible key value counts
    have mem := (mem_merged_iff accepted ascending).2 counts
    exact admissible (key.name, value) mem key (OptionKey.ofName?_name key)
  · rintro accepts ⟨name, value⟩ mem key recognized
    obtain rfl := OptionKey.name_of_ofName? recognized
    exact accepts key value ((mem_merged_iff accepted ascending).1 mem)

theorem parse_of_accepted (accepted : ConnectionUrl.parse text = .ok url) (properties : Fields String) :
    parse text properties = ({ hosts := url.hosts, space := url.space } : Config).applyOptions
      (properties.merge url.parameters) := by
  rw [parse, accepted]
  rfl

theorem parse_eq_ok_iff (ascending : properties.Ascending) {config : Config} :
    parse text properties = .ok config ↔ ∃ url, ConnectionUrl.parse text = .ok url ∧
      (∀ (key : OptionKey) (value : String), url.effective? properties key.name = some value →
        key.accepts value = true) ∧
      config = ({ hosts := url.hosts, space := url.space } : Config).updated fun key =>
        url.effective? properties key.name := by
  cases accepted : ConnectionUrl.parse text with
  | error error =>
    rw [parse, accepted]
    exact iff_of_false (fun same => nomatch same) fun ⟨_, same, _⟩ => nomatch same
  | ok url =>
    rw [parse_of_accepted accepted, applyOptions_eq_ok_iff]
    have values (admissible : ∀ option ∈ properties.merge url.parameters, Admissible option) :
        lastValid? (properties.merge url.parameters) = fun key => url.effective? properties key.name := by
      rw [lastValid?_eq_get? (ascending.merge _).names_ne admissible]
      exact funext fun key => get?_merged accepted properties key.name
    constructor
    · rintro ⟨admissible, rfl⟩
      refine ⟨url, rfl, (admissible_merged_iff accepted ascending).1 admissible, ?_⟩
      rw [assignAll_eq_updated, values admissible]
    · rintro ⟨_, same, accepts, rfl⟩
      cases same
      have admissible := (admissible_merged_iff accepted ascending).2 accepts
      refine ⟨admissible, ?_⟩
      rw [assignAll_eq_updated, values admissible]

theorem parse_eq_error_iff (ascending : properties.Ascending) {error : ConfigError} :
    parse text properties = .error error ↔ ConnectionUrl.parse text = .error error ∨
      ∃ url key value reason, ConnectionUrl.parse text = .ok url ∧
        url.effective? properties key.name = some value ∧ Setting.read key value = .error reason ∧
        error = .invalidValue key.name value reason ∧
        ∀ smaller : OptionKey, smaller.name < key.name → ∀ other,
          url.effective? properties smaller.name = some other → smaller.accepts other = true := by
  cases accepted : ConnectionUrl.parse text with
  | error url_error =>
    have failed : parse text properties = .error url_error := by
      rw [parse, accepted]
      rfl
    rw [failed, Except.error.injEq, Except.error.injEq]
    exact (or_iff_left fun ⟨_, _, _, _, same, _⟩ => nomatch same).symm
  | ok url =>
    rw [parse_of_accepted accepted, applyOptions_eq_error_iff (ascending.merge _)]
    constructor
    · rintro ⟨⟨name, value⟩, mem, ⟨key, reason, recognized, refused, rfl⟩, least⟩
      obtain rfl := OptionKey.name_of_ofName? recognized
      refine Or.inr ⟨url, key, value, reason, rfl, (mem_merged_iff accepted ascending).1 mem, refused, rfl,
        fun smaller less other counts => ?_⟩
      have admissible := least _ ((mem_merged_iff accepted ascending).2 counts) less
      exact admissible smaller (OptionKey.ofName?_name smaller)
    · rintro (same | ⟨_, key, value, reason, same, counts, refused, rfl, least⟩)
      · cases same
      · cases same
        refine ⟨(key.name, value), (mem_merged_iff accepted ascending).2 counts,
          ⟨key, reason, OptionKey.ofName?_name key, refused, rfl⟩, ?_⟩
        rintro ⟨name, other⟩ mem less smaller recognized
        obtain rfl := OptionKey.name_of_ofName? recognized
        exact least smaller less other ((mem_merged_iff accepted ascending).1 mem)

/-- A connection is configured if its URL is accepted and so is the value that counts for each option: that
of the URL, or else of the properties. The configuration is then that of the hosts and the namespace with
these values in their places. Otherwise the error is that of the URL, or it names the least option whose
value is refused, and the value. Nothing else of the URL and the properties plays a part. -/
theorem values_merge_before_reading (ascending : properties.Ascending) :
    (∀ config, parse text properties = .ok config ↔ ∃ url, ConnectionUrl.parse text = .ok url ∧
      (∀ (key : OptionKey) (value : String), url.effective? properties key.name = some value →
        key.accepts value = true) ∧
      config = ({ hosts := url.hosts, space := url.space } : Config).updated fun key =>
        url.effective? properties key.name) ∧
    (∀ error, parse text properties = .error error ↔ ConnectionUrl.parse text = .error error ∨
      ∃ url key value reason, ConnectionUrl.parse text = .ok url ∧
        url.effective? properties key.name = some value ∧ Setting.read key value = .error reason ∧
        error = .invalidValue key.name value reason ∧
        ∀ smaller : OptionKey, smaller.name < key.name → ∀ other,
          url.effective? properties smaller.name = some other → smaller.accepts other = true) ∧
    ∀ (url url' : ConnectionUrl) (text' : String) (properties' : Fields String), properties'.Ascending →
      ConnectionUrl.parse text = .ok url → ConnectionUrl.parse text' = .ok url' →
      url'.hosts = url.hosts → url'.space = url.space →
      (∀ key : OptionKey, url'.effective? properties' key.name = url.effective? properties key.name) →
      parse text' properties' = parse text properties := by
  refine ⟨fun config => parse_eq_ok_iff ascending, fun error => parse_eq_error_iff ascending, ?_⟩
  intro url url' text' properties' ascending' accepted accepted' hosts space same
  cases outcome : parse text properties with
  | ok config =>
    obtain ⟨_, found, accepts, rfl⟩ := (parse_eq_ok_iff ascending).1 outcome
    cases accepted.symm.trans found
    simp only [← same] at accepts
    refine (parse_eq_ok_iff ascending').2 ⟨url', accepted', accepts, ?_⟩
    simp only [hosts, space, same]
  | error error =>
    obtain failed | ⟨_, key, value, reason, found, counts, refused, rfl, least⟩ :=
      (parse_eq_error_iff ascending).1 outcome
    · cases accepted.symm.trans failed
    · cases accepted.symm.trans found
      simp only [← same] at counts least
      exact (parse_eq_error_iff ascending').2
        (Or.inr ⟨url', key, value, reason, accepted', counts, refused, rfl, least⟩)

/-- The URL gives one option a value in place of a faulty one, and another one none; of two faulty values
that are left the one with the lesser name is reported. -/
theorem lesser_faulty_value_reported :
    let properties : Fields String :=
      [("loginTimeout", "soon"), ("maxRetries", "many"), ("timeout", "late"), ("zone", "x")]
    let text := "jdbc:aerospike:near/test?loginTimeout=5&timeout="
    properties.Ascending ∧ parse text properties =
        .error (.invalidValue "maxRetries" "many" "invalid digit found in string") ∧
      parse "jdbc:aerospike:near/test" [("loginTimeout", "5"), ("maxRetries", "many"), ("timeout", "late")] =
        parse text properties := by
  intro properties text
  let url : ConnectionUrl := ⟨[⟨"near", 3000⟩], some "test", [("loginTimeout", "5")]⟩
  have ascending : properties.Ascending := by decide
  have accepted : ConnectionUrl.parse text = .ok url := by
    unfold text
    rfl
  obtain ⟨_, of_error, of_values⟩ := @values_merge_before_reading text properties ascending
  have least : ∀ smaller ∈ OptionKey.all, smaller.name < "maxRetries" →
      ∀ other ∈ url.effective? properties smaller.name, smaller.accepts other = true := by
    decide +kernel
  refine ⟨ascending, (of_error _).2 (Or.inr ⟨url, .maxRetries, "many", _, accepted, rfl, rfl, rfl, ?_⟩), ?_⟩
  · intro smaller less other counts
    exact least smaller smaller.mem_all less other counts
  · refine of_values url ⟨[⟨"near", 3000⟩], some "test", []⟩ _ _ (by decide) accepted rfl rfl rfl ?_
    intro key
    cases key <;> rfl

end Merged

end Config

end RecordQuery
