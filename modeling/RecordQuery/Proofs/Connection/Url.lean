import RecordQuery.Connection.Spelling
import RecordQuery.Proofs.Fields.Order
import RecordQuery.Proofs.Text.Numeral

/-!
Reading back the spellings of a connection URL. Each part ends at a character that cannot stand in it:
the hosts at a slash or a question mark, the namespace at a question mark, an element of a list at its
separator. Nothing is required of a later part, so the separators of the earlier ones may stand there:
a value of a parameter can hold every character but its own end and a line break.
-/

namespace RecordQuery

/-- A host whose name can stand in a list of hosts. -/
def Host.Nameable (host : Host) : Prop :=
  host.name ≠ "" ∧ ∀ separator ∈ [',', ':', '/', '?'], separator ∉ host.name.toList

namespace ConnectionUrl

/-- The URLs that can be written down. -/
structure WellFormed (url : ConnectionUrl) : Prop where
  someHost : url.hosts ≠ []
  hosts : ∀ host ∈ url.hosts, host.Nameable
  space : ∀ space ∈ url.space, space ≠ "" ∧ '?' ∉ space.toList
  ascending : url.parameters.Ascending
  names : ∀ pair ∈ url.parameters,
    pair.1 ≠ "" ∧ ∀ separator ∈ ['=', '&', '\n'], separator ∉ pair.1.toList
  values : ∀ pair ∈ url.parameters,
    pair.2 ≠ "" ∧ ∀ separator ∈ ['&', '\n'], separator ∉ pair.2.toList

section Separators

variable {separator : Char}

theorem split_eq_splitOn (text : List Char) : split separator text = text.splitOn separator := by
  induction text with
  | nil => rfl
  | cons c rest ih =>
    have step := List.splitOnP_cons_eq_if_modifyHead (p := fun d => d == separator) c rest
    rw [split, ih, List.splitOn_eq_splitOnP, List.splitOn_eq_splitOnP, step]
    by_cases here : c = separator
    · simp [here]
    · cases found : rest.splitOnP (fun d => d == separator) with
      | nil => exact absurd found (List.splitOnP_ne_nil _ rest)
      | cons first others => simp [here]

theorem split_intercalate {elements : List String} (some_element : elements ≠ [])
    (plain : ∀ element ∈ elements, separator ∉ element.toList) :
    split separator ((String.singleton separator).intercalate elements).toList =
      elements.map String.toList := by
  rw [String.toList_intercalate, String.toList_singleton, split_eq_splitOn]
  refine List.splitOn_intercalate separator ?_ (by simpa using some_element)
  intro characters mem
  obtain ⟨element, element_mem, rfl⟩ := List.mem_map.1 mem
  exact plain element element_mem

/-- What separated elements do not hold their list does not hold either. -/
theorem not_mem_intercalate {c : Char} (other : c ≠ separator) {elements : List String}
    (plain : ∀ element ∈ elements, c ∉ element.toList) :
    c ∉ ((String.singleton separator).intercalate elements).toList := by
  rw [String.toList_intercalate, String.toList_singleton]
  induction elements with
  | nil => simp
  | cons first rest ih =>
    obtain ⟨plain_first, plain_rest⟩ := List.forall_mem_cons.1 plain
    cases rest with
    | nil => simpa using plain_first
    | cons second rest =>
      have plain_later := ih plain_rest
      rw [List.map_cons] at plain_later
      rw [List.map_cons, List.map_cons, List.intercalate_cons_cons]
      simp [plain_first, other, plain_later]

theorem splitOnce?_eq_none {text : List Char} (plain : separator ∉ text) :
    splitOnce? separator text = none := by
  induction text with
  | nil => rfl
  | cons c rest ih =>
    obtain ⟨other, plain⟩ := not_or.1 (List.mem_cons.not.1 plain)
    rw [splitOnce?, if_neg (Ne.symm other), ih plain, Option.map_none]

theorem splitOnce?_append {before : List Char} (plain : separator ∉ before) (after : List Char) :
    splitOnce? separator (before ++ separator :: after) = some (before, after) := by
  induction before with
  | nil => simp [splitOnce?]
  | cons c rest ih =>
    obtain ⟨other, plain⟩ := not_or.1 (List.mem_cons.not.1 plain)
    rw [List.cons_append, splitOnce?, if_neg (Ne.symm other), ih plain, Option.map_some]

end Separators

section Hosts

variable {host : Host} {hosts : List Host} {element : String} {elements : List String}

theorem host?_of_spelled (nameable : host.Nameable) (spelled : host.Spelled element) :
    host? element.toList = some host := by
  have plain : ':' ∉ host.name.toList := nameable.2 ':' (by decide)
  cases spelled with
  | withPort =>
    have text : host.text.toList = host.name.toList ++ ':' :: (toString host.port.toNat).toList := by
      simp [Host.text]
    rw [host?, text, splitOnce?_append plain]
    simp only [String.ofList_toList, Text.readUnsigned_toString host.port.toNat_lt_size,
      UInt16.ofNat_toNat]
  | nameOnly name => simp [host?, splitOnce?_eq_none plain]

/-- No spelling of a host is empty or holds a character that ends an element or the list. -/
theorem plain_of_spelled (nameable : host.Nameable) (spelled : host.Spelled element) :
    element ≠ "" ∧ ∀ separator ∈ [',', '/', '?'], separator ∉ element.toList := by
  obtain ⟨named, plain⟩ := nameable
  have fewer : [',', '/', '?'] ⊆ [',', ':', '/', '?'] := by simp
  have plain_name : ∀ separator ∈ [',', '/', '?'], separator ∉ host.name.toList :=
    fun separator mem => plain separator (fewer mem)
  cases spelled with
  | withPort =>
    refine ⟨by simp [Host.text], ?_⟩
    intro separator mem
    have other : separator ≠ ':' ∧ separator.isDigit = false := by
      simp only [List.mem_cons, List.not_mem_nil, or_false] at mem
      rcases mem with rfl | rfl | rfl <;> decide
    simp [Host.text, plain_name separator mem, other.1, Text.not_mem_toDigits other.2]
  | nameOnly name => exact ⟨named, plain_name⟩

theorem HostsSpelled.plain (spelled : HostsSpelled hosts elements)
    (nameable : ∀ host ∈ hosts, host.Nameable) :
    ∀ element ∈ elements, ∀ separator ∈ [',', '/', '?'], separator ∉ element.toList := by
  induction spelled with
  | done => simp
  | empty rest ih => exact List.forall_mem_cons.2 ⟨by simp, ih nameable⟩
  | host spelled rest ih =>
    obtain ⟨first, later⟩ := List.forall_mem_cons.1 nameable
    exact List.forall_mem_cons.2 ⟨(plain_of_spelled first spelled).2, ih later⟩

theorem HostsSpelled.read (spelled : HostsSpelled hosts elements)
    (nameable : ∀ host ∈ hosts, host.Nameable) :
    ((elements.map String.toList).filter fun element => !element.isEmpty).mapM host? =
      some hosts := by
  induction spelled with
  | done => rfl
  | empty rest ih => simpa using ih nameable
  | host spelled rest ih =>
    obtain ⟨first, later⟩ := List.forall_mem_cons.1 nameable
    have kept := (plain_of_spelled first spelled).1
    simp [kept, host?_of_spelled first spelled, ih later]

theorem hosts?_of_spelled (spelled : HostsSpelled hosts elements)
    (nameable : ∀ host ∈ hosts, host.Nameable) (some_host : hosts ≠ []) :
    hosts? (",".intercalate elements).toList = some hosts := by
  have some_element : elements ≠ [] := by
    rintro rfl
    cases spelled
    exact some_host rfl
  have plain : ∀ element ∈ elements, ',' ∉ element.toList := fun element mem =>
    spelled.plain nameable element mem ',' (by decide)
  have elements_read : split ',' (",".intercalate elements).toList = elements.map String.toList :=
    split_intercalate some_element plain
  rw [hosts?, elements_read, spelled.read nameable]

end Hosts

section Parameters

variable {pairs : List (String × String)} {element : String} {elements : List String}

theorem Valueless.parameter?_eq_none (valueless : Valueless element) :
    parameter? element.toList = none := by
  cases valueless with
  | flag plain => rw [ConnectionUrl.parameter?, splitOnce?_eq_none plain]
  | noValue plain => simp [ConnectionUrl.parameter?, splitOnce?_append plain]
  | noName value => simp [ConnectionUrl.parameter?, splitOnce?]

theorem parameter?_pair {name value : String} (named : name ≠ "") (valued : value ≠ "")
    (plain : '=' ∉ name.toList) : parameter? (name ++ "=" ++ value).toList = some (name, value) := by
  simp [parameter?, splitOnce?_append plain, named, valued]

theorem PairsSpelled.plain (spelled : PairsSpelled pairs elements) {separator : Char}
    (listed : separator ∈ ['&', '\n']) (names : ∀ pair ∈ pairs, separator ∉ pair.1.toList)
    (values : ∀ pair ∈ pairs, separator ∉ pair.2.toList) :
    ∀ element ∈ elements, separator ∉ element.toList := by
  induction spelled with
  | done => simp
  | valueless valueless plain rest ih =>
    exact List.forall_mem_cons.2 ⟨plain separator listed, ih names values⟩
  | pair name value rest ih =>
    obtain ⟨plain_name, names⟩ := List.forall_mem_cons.1 names
    obtain ⟨plain_value, values⟩ := List.forall_mem_cons.1 values
    have other : separator ≠ '=' := by
      rintro rfl
      exact absurd listed (by decide)
    refine List.forall_mem_cons.2 ⟨?_, ih names values⟩
    simp [plain_name, plain_value, other]

theorem PairsSpelled.read (spelled : PairsSpelled pairs elements)
    (names : ∀ pair ∈ pairs, pair.1 ≠ "" ∧ '=' ∉ pair.1.toList)
    (values : ∀ pair ∈ pairs, pair.2 ≠ "") :
    (elements.map String.toList).filterMap parameter? = pairs := by
  induction spelled with
  | done => rfl
  | valueless valueless plain rest ih =>
    rw [List.map_cons, List.filterMap_cons, valueless.parameter?_eq_none]
    exact ih names values
  | pair name value rest ih =>
    obtain ⟨⟨named, plain⟩, names⟩ := List.forall_mem_cons.1 names
    obtain ⟨valued, values⟩ := List.forall_mem_cons.1 values
    rw [List.map_cons, List.filterMap_cons, parameter?_pair named valued plain, ih names values]

end Parameters

/-! The whole text is taken apart from the left; what is left over each time begins with a slash or a
question mark, or is empty. -/

theorem dropSlashes_append {text : List Char} (some_host : text ≠ []) (plain : '/' ∉ text)
    (rest : List Char) : dropSlashes (text ++ rest) = text ++ rest := by
  obtain ⟨c, others, rfl⟩ := List.exists_cons_of_ne_nil some_host
  have other : c ≠ '/' := by
    rintro rfl
    exact plain List.mem_cons_self
  rw [List.cons_append, dropSlashes]
  rintro rest' same
  exact other (List.cons.inj same).1

/-- The text of the three parts. -/
def Parts.text (parts : Parts) : List Char :=
  parts.hosts ++ (parts.space.elim [] (fun space => '/' :: space) ++
    parts.parameters.elim [] fun parameters => '?' :: parameters)

theorem parameters?_text (parameters : Option (List Char))
    (oneLine : ∀ text ∈ parameters, '\n' ∉ text) :
    parameters? (parameters.elim [] fun text => '?' :: text) = some parameters := by
  cases parameters with
  | none => rfl
  | some text => simp [parameters?, oneLine text rfl]

/-- A text is taken up to where something else begins, and the rest is left. -/
theorem span_append {inside : Char → Bool} {before after : List Char}
    (kept : ∀ c ∈ before, inside c = true) (stops : ∀ c ∈ after.head?, inside c = false) :
    (before ++ after).takeWhile inside = before ∧ (before ++ after).dropWhile inside = after := by
  rw [List.takeWhile_append_of_pos kept, List.dropWhile_append_of_pos kept]
  cases after with
  | nil => simp
  | cons c rest =>
    have stop : inside c = false := stops c rfl
    simp [stop]

/-- The parts are found again in their text. -/
theorem parts?_text {parts : Parts} (some_host : parts.hosts ≠ [])
    (plain : '/' ∉ parts.hosts ∧ '?' ∉ parts.hosts)
    (plain_space : ∀ space ∈ parts.space, '?' ∉ space)
    (oneLine : ∀ text ∈ parts.parameters, '\n' ∉ text) : parts? parts.text = some parts := by
  obtain ⟨hosts, space, parameters⟩ := parts
  have in_hosts : ∀ c ∈ hosts, (decide (c ≠ '/') && decide (c ≠ '?')) = true := by
    intro c mem
    have slash : c ≠ '/' := fun same => plain.1 (same ▸ mem)
    have mark : c ≠ '?' := fun same => plain.2 (same ▸ mem)
    simp [slash, mark]
  have parameters_read := parameters?_text parameters oneLine
  have begins : ∀ c ∈ (parameters.elim [] fun text => '?' :: text).head?, c = '?' := by
    cases parameters <;> simp
  simp only [Parts.text] at some_host ⊢
  -- All that matters of the written parameters is how they begin and that they are read back.
  generalize parameters.elim [] (fun text => '?' :: text) = written at parameters_read begins ⊢
  cases space with
  | none =>
    have hosts_end : ∀ c ∈ written.head?, (decide (c ≠ '/') && decide (c ≠ '?')) = false := by
      intro c first
      simp [begins c first]
    obtain ⟨taken, left⟩ := span_append in_hosts hosts_end
    simp only [parts?, Option.elim_none, List.nil_append, taken, left]
    cases written with
    | nil => simp [some_host, parameters_read]
    | cons c rest =>
      obtain rfl : c = '?' := begins c rfl
      simp [some_host, parameters_read]
  | some space =>
    have in_space : ∀ c ∈ space, decide (c ≠ '?') = true := by
      intro c mem
      have mark : c ≠ '?' := fun same => plain_space space rfl (same ▸ mem)
      simp [mark]
    have space_end : ∀ c ∈ written.head?, decide (c ≠ '?') = false := by
      intro c first
      simp [begins c first]
    have hosts_end : ∀ c ∈ ('/' :: (space ++ written)).head?,
        (decide (c ≠ '/') && decide (c ≠ '?')) = false := by simp
    obtain ⟨taken, left⟩ := span_append in_hosts hosts_end
    obtain ⟨space_taken, space_left⟩ := span_append in_space space_end
    simp only [parts?, Option.elim_some, List.cons_append, taken, left, space_taken, space_left]
    simp [some_host, parameters_read]

namespace Spelling

variable {spelling : Spelling} {url : ConnectionUrl}

def parts (spelling : Spelling) : Parts where
  hosts := (",".intercalate spelling.hosts).toList
  space := spelling.space.map String.toList
  parameters :=
    if spelling.parameters.isEmpty then none
    else some ("&".intercalate spelling.parameters).toList

theorem toList_text (spelling : Spelling) :
    spelling.text.toList =
      scheme ++ ((if spelling.slashes then ['/', '/'] else []) ++ spelling.parts.text) := by
  have space : spelling.spaceText.toList = spelling.parts.space.elim [] fun space => '/' :: space := by
    cases found : spelling.space <;> simp [spaceText, parts, found]
  have parameters : spelling.parametersText.toList =
      spelling.parts.parameters.elim [] fun parameters => '?' :: parameters := by
    by_cases no_parameter : spelling.parameters = [] <;> simp [parametersText, parts, no_parameter]
  have slashes : (if spelling.slashes then "//" else "").toList =
      if spelling.slashes then ['/', '/'] else [] := by
    split <;> rfl
  have hosts : (",".intercalate spelling.hosts).toList = spelling.parts.hosts := rfl
  have beginning : "jdbc:aerospike:".toList = scheme := rfl
  unfold text Parts.text
  rw [String.toList_append, String.toList_append, String.toList_append, String.toList_append,
    beginning, slashes, hosts, space, parameters]
  simp only [List.append_assoc]

theorem afterScheme?_text (spelling : Spelling) :
    afterScheme? spelling.text.toList =
      some ((if spelling.slashes then ['/', '/'] else []) ++ spelling.parts.text) := by
  rw [toList_text, afterScheme?, if_pos (by simp), List.drop_left]

theorem dropSlashes_text (some_host : spelling.parts.hosts ≠ []) (plain : '/' ∉ spelling.parts.hosts) :
    dropSlashes ((if spelling.slashes then ['/', '/'] else []) ++ spelling.parts.text) =
      spelling.parts.text := by
  cases spelling.slashes with
  | true => rfl
  | false =>
    simp only [Bool.false_eq_true, if_false, List.nil_append]
    exact dropSlashes_append some_host plain _

namespace Spells

theorem hosts_read (spells : spelling.Spells url) (formed : url.WellFormed) :
    hosts? spelling.parts.hosts = some url.hosts :=
  hosts?_of_spelled spells.hosts formed.hosts formed.someHost

theorem hosts_ne (spells : spelling.Spells url) (formed : url.WellFormed) :
    spelling.parts.hosts ≠ [] := by
  intro none_written
  have read := spells.hosts_read formed
  rw [none_written] at read
  exact formed.someHost (Option.some.inj read).symm

theorem hosts_plain (spells : spelling.Spells url) (formed : url.WellFormed) {c : Char}
    (ends : c ∈ ['/', '?']) : c ∉ spelling.parts.hosts := by
  have other : c ≠ ',' := by
    rintro rfl
    exact absurd ends (by decide)
  refine not_mem_intercalate other ?_
  intro element mem
  exact spells.hosts.plain formed.hosts element mem c (List.mem_cons_of_mem _ ends)

theorem space_plain (spells : spelling.Spells url) (formed : url.WellFormed) :
    ∀ space ∈ spelling.parts.space, '?' ∉ space := by
  intro characters mem
  obtain ⟨space, found, rfl⟩ := Option.map_eq_some_iff.1 mem
  exact (formed.space space (spells.space ▸ found)).2

/-- The namespace is kept, as it is not empty. -/
theorem space_read (spells : spelling.Spells url) (formed : url.WellFormed) :
    (spelling.parts.space.filter fun space => !space.isEmpty).map String.ofList = url.space := by
  rw [parts, spells.space]
  cases found : url.space with
  | none => rfl
  | some space =>
    have named := (formed.space space found).1
    simp [Option.filter, named]

theorem parameters_plain (spells : spelling.Spells url) (formed : url.WellFormed) {c : Char}
    (listed : c ∈ ['&', '\n']) : ∀ element ∈ spelling.parameters, c ∉ element.toList := by
  obtain ⟨pairs, perm, spelled⟩ := spells.parameters
  refine spelled.plain listed ?_ ?_
  · intro pair mem
    exact (formed.names pair (perm.mem_iff.1 mem)).2 c (List.mem_cons_of_mem _ listed)
  · intro pair mem
    exact (formed.values pair (perm.mem_iff.1 mem)).2 c listed

theorem parameters_oneLine (spells : spelling.Spells url) (formed : url.WellFormed) :
    ∀ text ∈ spelling.parts.parameters, '\n' ∉ text := by
  intro characters mem
  have other : '\n' ≠ '&' := by decide
  have plain := not_mem_intercalate other (spells.parameters_plain formed (by decide))
  unfold parts at mem
  split at mem
  · cases mem
  · cases mem
    exact plain

theorem pairs_read (spells : spelling.Spells url) (formed : url.WellFormed) :
    (spelling.parts.parameters.map pairs).getD [] = url.parameters := by
  obtain ⟨pairs, perm, spelled⟩ := spells.parameters
  have built := formed.ascending.ofPairs_eq perm
  have read := spelled.read
    (fun pair mem =>
      have ⟨named, plain⟩ := formed.names pair (perm.mem_iff.1 mem)
      ⟨named, plain '=' (by decide)⟩)
    fun pair mem => (formed.values pair (perm.mem_iff.1 mem)).1
  by_cases no_parameter : spelling.parameters = []
  · rw [no_parameter] at read
    obtain rfl : [] = pairs := read
    simp [parts, no_parameter, ← built, Fields.ofPairs]
  · have elements : split '&' ("&".intercalate spelling.parameters).toList =
        spelling.parameters.map String.toList :=
      split_intercalate no_parameter (spells.parameters_plain formed (by decide))
    have all_pairs : ConnectionUrl.pairs ("&".intercalate spelling.parameters).toList =
        url.parameters := by
      rw [ConnectionUrl.pairs, elements, read, built]
    have some_written : spelling.parameters.isEmpty = false := by simpa using no_parameter
    simp only [parts, some_written, Bool.false_eq_true, if_false, Option.map_some, all_pairs,
      Option.getD_some]

end Spells

end Spelling

/-- Whichever way a URL is written, it is read as what it says. -/
theorem parse_text_of_spells {url : ConnectionUrl} {spelling : Spelling} (formed : url.WellFormed)
    (spells : spelling.Spells url) : parse spelling.text = .ok url := by
  have some_host := spells.hosts_ne formed
  have slash : '/' ∉ spelling.parts.hosts := spells.hosts_plain formed (by decide)
  have mark : '?' ∉ spelling.parts.hosts := spells.hosts_plain formed (by decide)
  have parts_read : parts? spelling.parts.text = some spelling.parts :=
    parts?_text some_host ⟨slash, mark⟩ (spells.space_plain formed) (spells.parameters_oneLine formed)
  have read : read? spelling.text.toList = some url := by
    rw [read?, spelling.afterScheme?_text, Option.bind_eq_bind, Option.bind_some,
      Spelling.dropSlashes_text some_host slash, parts_read]
    simp [spells.hosts_read formed, spells.space_read formed, spells.pairs_read formed, formed.someHost]
  rw [parse, read]

/-- The default port is left out, the parameters stand in the other order, and a value holds every
separator of the parts before it. -/
theorem parse_two_hosts :
    parse "jdbc:aerospike:near:3100,,far/test?timeout=10&flag&&sendKey=a=b?c/d:e,f" =
      .ok ⟨[⟨"near", 3100⟩, ⟨"far", 3000⟩], some "test",
        [("sendKey", "a=b?c/d:e,f"), ("timeout", "10")]⟩ := by
  have hosts : HostsSpelled [⟨"near", 3100⟩, ⟨"far", 3000⟩] ["near:3100", "", "far"] :=
    .host (.withPort ⟨"near", 3100⟩) (.empty (.host (.nameOnly "far") .done))
  have pairs : PairsSpelled [("timeout", "10"), ("sendKey", "a=b?c/d:e,f")]
      ["timeout=10", "flag", "", "sendKey=a=b?c/d:e,f"] :=
    .pair "timeout" "10" (.valueless (.flag (by decide)) (by simp)
      (.valueless (.flag (by decide)) (by simp) (.pair "sendKey" "a=b?c/d:e,f" .done)))
  have spells : Spelling.Spells
      ⟨false, ["near:3100", "", "far"], some "test",
        ["timeout=10", "flag", "", "sendKey=a=b?c/d:e,f"]⟩
      ⟨[⟨"near", 3100⟩, ⟨"far", 3000⟩], some "test",
        [("sendKey", "a=b?c/d:e,f"), ("timeout", "10")]⟩ :=
    ⟨hosts, rfl, _, .swap _ _ _, pairs⟩
  refine parse_text_of_spells ?_ spells
  exact {
    someHost := by simp
    hosts := by simp [Host.Nameable]
    space := by simp
    ascending := by decide
    names := by simp
    values := by simp }

end ConnectionUrl

end RecordQuery
