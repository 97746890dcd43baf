import Mathlib.Data.List.TakeWhile
import RecordQuery.Proofs.Connection.Url
import RecordQuery.Proofs.Json.Document

/-!
What an accepted connection URL holds, whatever its text. Each separator is cut at, so none stays in the
part before it: hosts hold no comma, slash, question mark or colon, the namespace no question mark, the
name of a parameter no equals sign, and neither it nor its value an ampersand. What is empty is left out,
with one exception: an element of the host list that has a port alone is a host without a name. Without
such elements all is as in the URLs that can be written down.
-/

namespace RecordQuery

namespace ConnectionUrl

section Separators

variable {separator : Char} {text before after : List Char}

theorem of_splitOnce? (found : splitOnce? separator text = some (before, after)) :
    text = before ++ separator :: after ∧ separator ∉ before := by
  induction text generalizing before with
  | nil => cases found
  | cons c rest ih =>
    rw [splitOnce?] at found
    split at found
    · next here =>
      cases found
      rw [here]
      exact ⟨rfl, List.not_mem_nil⟩
    · next other =>
      obtain ⟨⟨earlier, later⟩, inner, same⟩ := Option.map_eq_some_iff.1 found
      cases same
      obtain ⟨rfl, plain⟩ := ih inner
      exact ⟨rfl, List.not_mem_cons_of_ne_of_not_mem (Ne.symm other) plain⟩

theorem not_mem_of_splitOnce?_eq_none (whole : splitOnce? separator text = none) : separator ∉ text := by
  intro mem
  obtain ⟨before, after, rfl, plain⟩ := List.eq_append_cons_of_mem mem
  rw [splitOnce?_append plain] at whole
  cases whole

/-- An element holds no separator, and nothing that the text does not hold. -/
theorem of_mem_split {element : List Char} (mem : element ∈ split separator text) :
    separator ∉ element ∧ element ⊆ text := by
  induction text generalizing element with
  | nil =>
    obtain rfl := List.mem_singleton.1 mem
    exact ⟨List.not_mem_nil, List.nil_subset _⟩
  | cons c rest ih =>
    have later {element : List Char} (mem : element ∈ split separator rest) :
        separator ∉ element ∧ element ⊆ c :: rest := by
      obtain ⟨plain, within⟩ := ih mem
      exact ⟨plain, List.subset_cons_of_subset c within⟩
    rw [split] at mem
    split at mem
    · obtain rfl | mem := List.mem_cons.1 mem
      · exact ⟨List.not_mem_nil, List.nil_subset _⟩
      · exact later mem
    · next other =>
      have head_plain {tail : List Char} (plain : separator ∉ tail) : separator ∉ c :: tail :=
        List.not_mem_cons_of_ne_of_not_mem (Ne.symm other) plain
      split at mem
      · obtain rfl := List.mem_singleton.1 mem
        exact ⟨head_plain List.not_mem_nil, List.cons_subset_cons c (List.nil_subset _)⟩
      · next first others elements =>
        rw [elements] at ih later
        obtain rfl | mem := List.mem_cons.1 mem
        · obtain ⟨plain, within⟩ := ih List.mem_cons_self
          exact ⟨head_plain plain, List.cons_subset_cons c within⟩
        · exact later (List.mem_cons_of_mem _ mem)

end Separators

section Hosts

variable {text : List Char} {host : Host} {hosts : List Host}

/-- A host has as its name what stands before the colon, or else the whole element. -/
theorem of_host? (read : host? text = some host) (some_text : text ≠ []) :
    host.name.toList ⊆ text ∧ ':' ∉ host.name.toList ∧ (host.name = "" ↔ text.head? = some ':') := by
  unfold host? at read
  split at read
  · next whole =>
    have plain := not_mem_of_splitOnce?_eq_none whole
    cases read
    refine ⟨by simp, by simpa using plain, iff_of_false (by simpa using some_text) ?_⟩
    intro first
    exact plain (List.mem_of_mem_head? first)
  · next name port cut =>
    obtain ⟨rfl, plain⟩ := of_splitOnce? cut
    split at read
    · cases read
      refine ⟨by simp, by simpa using plain, ?_⟩
      cases name with
      | nil => simp
      | cons c rest =>
        have other : c ≠ ':' := by
          rintro rfl
          exact plain List.mem_cons_self
        simp [other]
    · cases read

theorem of_hosts? (read : hosts? text = some hosts) :
    (∀ host ∈ hosts, ∃ element ∈ split ',' text, element ≠ [] ∧ host? element = some host) ∧
      ∀ element ∈ split ',' text, element ≠ [] → ∃ host ∈ hosts, host? element = some host := by
  obtain ⟨from_element, to_host⟩ := of_mapM read
  constructor
  · intro host mem
    obtain ⟨element, kept, given⟩ := from_element host mem
    obtain ⟨element_mem, some_element⟩ := List.mem_filter.1 kept
    exact ⟨element, element_mem, by simpa using some_element, given⟩
  · intro element mem some_element
    exact to_host element (List.mem_filter.2 ⟨mem, by simpa using some_element⟩)

end Hosts

section Parameters

variable {text : List Char} {pair : String × String}

theorem of_parameter? (read : parameter? text = some pair) :
    pair.1 ≠ "" ∧ pair.2 ≠ "" ∧ '=' ∉ pair.1.toList ∧ pair.1.toList ⊆ text ∧ pair.2.toList ⊆ text := by
  unfold parameter? at read
  split at read
  · next name value cut =>
    obtain ⟨rfl, plain⟩ := of_splitOnce? cut
    split at read
    · cases read
    · next some_text =>
      cases read
      obtain ⟨named, valued⟩ := not_or.1 (mt (Bool.or_eq_true ..).mpr some_text)
      exact ⟨by simpa using named, by simpa using valued, by simpa using plain, by simp, by simp⟩
  · cases read

theorem of_mem_pairs (mem : pair ∈ pairs text) :
    pair.1 ≠ "" ∧ pair.2 ≠ "" ∧ '=' ∉ pair.1.toList ∧ '&' ∉ pair.1.toList ∧ '&' ∉ pair.2.toList ∧
      pair.1.toList ⊆ text ∧ pair.2.toList ⊆ text := by
  obtain ⟨element, element_mem, read⟩ := List.mem_filterMap.1 (Fields.mem_of_mem_ofPairs mem)
  obtain ⟨plain, within⟩ := of_mem_split element_mem
  obtain ⟨named, valued, no_equals, name_within, value_within⟩ := of_parameter? read
  exact ⟨named, valued, no_equals, fun mem => plain (name_within mem), fun mem => plain (value_within mem),
    List.Subset.trans name_within within, List.Subset.trans value_within within⟩

end Parameters

/-- The elements of the host list as they stand in a URL. -/
def hostElements (text : String) : List (List Char) :=
  match afterScheme? text.toList with
  | none => []
  | some rest => split ',' ((dropSlashes rest).takeWhile fun c => c ≠ '/' && c ≠ '?')

theorem of_parameters? {text : List Char} {parameters : Option (List Char)}
    (found : parameters? text = some parameters) : ∀ written ∈ parameters, '\n' ∉ written := by
  unfold parameters? at found
  split at found
  · cases found
    intro written mem
    cases mem
  · next rest =>
    split at found
    · cases found
    · next oneLine =>
      cases found
      intro written mem
      cases mem
      simpa using oneLine
  · cases found

/-- The parts of a text: the hosts up to the first slash or question mark, the namespace up to the first
question mark, and parameters on one line. -/
theorem of_parts? {text : List Char} {parts : Parts} (found : parts? text = some parts) :
    parts.hosts = text.takeWhile (fun c => c ≠ '/' && c ≠ '?') ∧
      (∀ space ∈ parts.space, '?' ∉ space) ∧ ∀ written ∈ parts.parameters, '\n' ∉ written := by
  simp only [parts?] at found
  split at found
  · cases found
  · split at found
    · next rest _ =>
      obtain ⟨parameters, read, rfl⟩ := Option.map_eq_some_iff.1 found
      refine ⟨rfl, ?_, of_parameters? read⟩
      intro space mem mark
      cases mem
      simpa using List.mem_takeWhile_imp mark
    · obtain ⟨parameters, read, rfl⟩ := Option.map_eq_some_iff.1 found
      refine ⟨rfl, ?_, of_parameters? read⟩
      intro space mem
      cases mem

theorem of_parse {text : String} {url : ConnectionUrl} (accepted : parse text = .ok url) :
    ∃ rest parts, afterScheme? text.toList = some rest ∧ parts? (dropSlashes rest) = some parts ∧
      hosts? parts.hosts = some url.hosts ∧ url.hosts ≠ [] ∧
      url.space = (parts.space.filter fun space => !space.isEmpty).map String.ofList ∧
      url.parameters = (parts.parameters.map pairs).getD [] := by
  unfold parse at accepted
  split at accepted
  · next found read =>
    cases accepted
    simp only [read?, Option.bind_eq_bind, Option.bind_eq_some_iff] at read
    obtain ⟨rest, scheme, parts, found_parts, hosts, read_hosts, _, guarded, same⟩ := read
    cases same
    exact ⟨rest, parts, scheme, found_parts, read_hosts, by simpa using guarded, rfl, rfl⟩
  · cases accepted

section Accepted

variable {text : String} {url : ConnectionUrl}

theorem space_of_accepted (accepted : parse text = .ok url) :
    ∀ space ∈ url.space, space ≠ "" ∧ '?' ∉ space.toList := by
  obtain ⟨_, parts, _, found, _, _, space_eq, _⟩ := of_parse accepted
  obtain ⟨_, plain, _⟩ := of_parts? found
  intro space mem
  rw [space_eq] at mem
  obtain ⟨written, kept, rfl⟩ := Option.map_eq_some_iff.1 mem
  obtain ⟨mem, some_written⟩ := Option.filter_eq_some_iff.1 kept
  exact ⟨by simpa using some_written, by simpa using plain written mem⟩

theorem parameters_of_accepted (accepted : parse text = .ok url) :
    ∀ pair ∈ url.parameters, pair.1 ≠ "" ∧ pair.2 ≠ "" ∧ '=' ∉ pair.1.toList ∧
      ∀ separator ∈ ['&', '\n'], separator ∉ pair.1.toList ∧ separator ∉ pair.2.toList := by
  obtain ⟨_, parts, _, found, _, _, _, parameters_eq⟩ := of_parse accepted
  obtain ⟨_, _, oneLine⟩ := of_parts? found
  intro pair mem
  rw [parameters_eq] at mem
  cases written : parts.parameters with
  | none =>
    rw [written] at mem
    cases mem
  | some parameters =>
    rw [written] at mem
    obtain ⟨named, valued, no_equals, name_whole, value_whole, name_within, value_within⟩ :=
      of_mem_pairs mem
    have no_break : '\n' ∉ parameters := oneLine parameters written
    refine ⟨named, valued, no_equals, List.forall_mem_cons.2 ⟨⟨name_whole, value_whole⟩, ?_⟩⟩
    refine List.forall_mem_singleton.2 ⟨?_, ?_⟩
    · exact fun mem => no_break (name_within mem)
    · exact fun mem => no_break (value_within mem)

theorem ascending_of_accepted (accepted : parse text = .ok url) : url.parameters.Ascending := by
  obtain ⟨_, parts, _, _, _, _, _, parameters_eq⟩ := of_parse accepted
  rw [parameters_eq]
  cases parts.parameters with
  | none => exact List.Pairwise.nil
  | some parameters => exact Fields.ascending_ofPairs _

/-- No separator stands in the name of a host, and a name is missing only where a port stands alone. -/
theorem hosts_of_accepted (accepted : parse text = .ok url) :
    (∀ host ∈ url.hosts, ∀ separator ∈ [',', ':', '/', '?'], separator ∉ host.name.toList) ∧
      ((∀ host ∈ url.hosts, host.name ≠ "") ↔
        ∀ element ∈ hostElements text, element.head? ≠ some ':') := by
  obtain ⟨rest, parts, scheme, found, read, _⟩ := of_parse accepted
  obtain ⟨hosts_eq, _⟩ := of_parts? found
  obtain ⟨from_element, to_host⟩ := of_hosts? read
  have elements : hostElements text = split ',' parts.hosts := by
    rw [hostElements, scheme, hosts_eq]
  constructor
  · intro host mem
    obtain ⟨element, element_mem, some_element, given⟩ := from_element host mem
    obtain ⟨plain, within⟩ := of_mem_split element_mem
    obtain ⟨name_within, no_colon, _⟩ := of_host? given some_element
    have inside : ∀ c ∈ host.name.toList, c ≠ '/' ∧ c ≠ '?' := by
      intro c c_mem
      have taken := within (name_within c_mem)
      rw [hosts_eq] at taken
      simpa using List.mem_takeWhile_imp taken
    have no_slash : '/' ∉ host.name.toList := fun mem => (inside '/' mem).1 rfl
    have no_mark : '?' ∉ host.name.toList := fun mem => (inside '?' mem).2 rfl
    have no_comma : ',' ∉ host.name.toList := fun mem => plain (name_within mem)
    simp [no_comma, no_colon, no_slash, no_mark]
  · rw [elements]
    constructor
    · intro named element mem first
      have some_element : element ≠ [] := by
        rintro rfl
        cases first
      obtain ⟨host, host_mem, given⟩ := to_host element mem some_element
      exact named host host_mem ((of_host? given some_element).2.2.2 first)
    · intro no_port_alone host mem nameless
      obtain ⟨element, element_mem, some_element, given⟩ := from_element host mem
      exact no_port_alone element element_mem ((of_host? given some_element).2.2.1 nameless)

/-- An accepted URL has hosts, and no part of it holds a separator that ends the part. The namespace and the
names and values of the parameters are not empty; the names of the hosts are not, and so the URL is one that
can be written down, exactly if no element of the host list is a port alone. -/
theorem accepted_names_hosts_unless_port_alone (accepted : parse text = .ok url) :
    url.hosts ≠ [] ∧
    (∀ host ∈ url.hosts, ∀ separator ∈ [',', ':', '/', '?'], separator ∉ host.name.toList) ∧
    ((∀ host ∈ url.hosts, host.name ≠ "") ↔ ∀ element ∈ hostElements text, element.head? ≠ some ':') ∧
    (∀ space ∈ url.space, space ≠ "" ∧ '?' ∉ space.toList) ∧
    (∀ pair ∈ url.parameters, pair.1 ≠ "" ∧ pair.2 ≠ "" ∧ '=' ∉ pair.1.toList ∧
      '&' ∉ pair.1.toList ∧ '&' ∉ pair.2.toList) ∧
    (url.WellFormed ↔ ∀ element ∈ hostElements text, element.head? ≠ some ':') := by
  obtain ⟨_, _, _, _, _, some_host, _⟩ := of_parse accepted
  obtain ⟨plain, named_iff⟩ := hosts_of_accepted accepted
  have space := space_of_accepted accepted
  have parameters := parameters_of_accepted accepted
  refine ⟨some_host, plain, named_iff, space, fun pair mem => ?_, ⟨fun formed => ?_, fun none_alone => ?_⟩⟩
  · obtain ⟨named, valued, no_equals, others⟩ := parameters pair mem
    exact ⟨named, valued, no_equals, others '&' List.mem_cons_self⟩
  · exact named_iff.1 fun host mem => (formed.hosts host mem).1
  · exact {
      someHost := some_host
      hosts := fun host mem => ⟨named_iff.2 none_alone host mem, plain host mem⟩
      space := space
      ascending := ascending_of_accepted accepted
      names := fun pair mem => by
        obtain ⟨named, _, no_equals, others⟩ := parameters pair mem
        exact ⟨named, List.forall_mem_cons.2 ⟨no_equals, fun separator listed => (others separator listed).1⟩⟩
      values := fun pair mem => by
        obtain ⟨_, valued, _, others⟩ := parameters pair mem
        exact ⟨valued, fun separator listed => (others separator listed).2⟩ }

/-- The namespace holds a slash and a value an equals sign, which end only the parts before them. -/
theorem two_named_hosts_accepted :
    let text := "jdbc:aerospike://near:3100,,far/a/b?timeout=1=2&flag&=x"
    let url : ConnectionUrl := ⟨[⟨"near", 3100⟩, ⟨"far", 3000⟩], some "a/b", [("timeout", "1=2")]⟩
    parse text = .ok url ∧ hostElements text = ["near:3100".toList, [], "far".toList] ∧ url.WellFormed := by
  intro text url
  have accepted : parse text = .ok url := by
    unfold text
    rfl
  have elements : hostElements text = ["near:3100".toList, [], "far".toList] := by decide +kernel
  obtain ⟨_, _, _, _, _, formed_iff⟩ := accepted_names_hosts_unless_port_alone accepted
  refine ⟨accepted, elements, formed_iff.2 ?_⟩
  rw [elements]
  decide

/-- A port alone is accepted as a host without a name. -/
theorem port_alone_accepted :
    let url : ConnectionUrl := ⟨[⟨"", 3000⟩], none, []⟩
    parse "jdbc:aerospike::3000" = .ok url ∧ ¬∀ host ∈ url.hosts, host.name ≠ "" := by
  refine ⟨rfl, fun named => ?_⟩
  exact named ⟨"", 3000⟩ List.mem_cons_self rfl

end Accepted

end ConnectionUrl

end RecordQuery
