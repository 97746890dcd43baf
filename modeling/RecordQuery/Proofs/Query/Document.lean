import RecordQuery.Query.Document
import RecordQuery.Proofs.Predicate.Document

/-!
Queries that JSON holds without loss. A primary key that is nil could not be told from a missing one;
everything else is read back as it was, together with the predicates and the values in it.
-/

namespace RecordQuery.Query

/-- The values that the query mentions. -/
def values (query : Query) : List Value :=
  query.predicate.toList.flatMap Predicate.values ++ query.primaryKey.toList

theorem list?_nameList (names : List String) :
    Document.list? Document.string? (nameList names).document = some names := by
  rw [nameList, Json.document, Json.documents_eq_map, Document.list?, List.map_map]
  exact mapM_map_eq_some fun name _ => rfl

theorem nullable?_numberOrNull (number : Option UInt64) :
    Document.nullable? Document.unsigned64? (numberOrNull number).document = some number := by
  refine Document.nullable?_elim ?_ ?_
  · rintro n -
    have fits : 0 ≤ (n.toNat : Int) ∧ (n.toNat : Int) < UInt64.size :=
      ⟨Int.natCast_nonneg _, Int.ofNat_lt.2 n.toNat_lt_size⟩
    rw [Json.document, Document.unsigned64?, if_pos fits, Int.toNat_natCast, UInt64.ofNat_toNat]
  · rintro n -
    simp [Json.document]

theorem nullable?_binNames (binNames : Option (List String)) :
    Document.nullable? (Document.list? Document.string?) (binNames.elim .null nameList).document =
      some binNames := by
  refine Document.nullable?_elim ?_ ?_
  · intro names _
    exact list?_nameList names
  · intro names _
    simp [nameList, Json.document]

theorem nullable?_predicate {predicate : Option Predicate}
    (plain : ∀ value ∈ predicate.toList.flatMap Predicate.values, value.Plain) :
    Document.nullable? Predicate.ofDocument? (predicate.elim .null Predicate.toJson).document =
      some predicate := by
  refine Document.nullable?_elim ?_ ?_
  · intro given mem
    refine Predicate.ofDocument?_toJson ?_
    intro value value_mem
    exact plain value (List.mem_flatMap_of_mem (Option.mem_toList.2 mem) value_mem)
  · intro given _
    exact given.document_ne_null

theorem nullable?_primaryKey {key : Option Value} (plain : ∀ value ∈ key.toList, value.Plain)
    (keyed : key ≠ some .nil) :
    Document.nullable? Value.ofDocument? (key.elim .null Value.toJson).document = some key := by
  have given_plain : ∀ value ∈ key, value.Plain :=
    fun value mem => plain value (Option.mem_toList.2 mem)
  refine Document.nullable?_elim ?_ ?_
  · intro value mem
    exact (given_plain value mem).ofDocument?_toJson
  · intro value mem
    refine (given_plain value mem).document_ne_null ?_
    rintro rfl
    exact keyed mem

theorem ofDocument?_toJson {query : Query} (plain : ∀ value ∈ query.values, value.Plain)
    (keyed : query.primaryKey ≠ some .nil) : ofDocument? query.toJson.document = some query := by
  obtain ⟨predicate_plain, key_plain⟩ := List.forall_mem_append.1 plain
  have predicate_read := nullable?_predicate predicate_plain
  have key_read := nullable?_primaryKey key_plain keyed
  rw [ofDocument?, toJson, Json.document]
  simp [Document.members?, Json.documentFields, Json.document, Document.string?, Members.required,
    Members.optional, Members.nullable, Members.get?, list?_nameList, nullable?_numberOrNull,
    nullable?_binNames, predicate_read, key_read]

/-- Plain values are read back as they were written, and so are the predicates that compare with them
and the queries that mention them. -/
theorem written_queries_read_back :
    (∀ query : Query, (∀ value ∈ query.values, value.Plain) → query.primaryKey ≠ some .nil →
      ofDocument? query.toJson.document = some query) ∧
    (∀ predicate : Predicate, (∀ value ∈ predicate.values, value.Plain) →
      Predicate.ofDocument? predicate.toJson.document = some predicate) ∧
    ∀ value : Value, value.Plain → Value.ofJson value.toJson = value := by
  refine ⟨?_, ?_, ?_⟩
  · intro query plain keyed
    exact ofDocument?_toJson plain keyed
  · intro predicate plain
    exact Predicate.ofDocument?_toJson plain
  · intro value plain
    exact plain.ofJson_toJson

/-- A connective inside another, an integral double, a negative zero and the ends of the integers. -/
def nestedQuery : Query where
  table := ⟨"test", "people"⟩
  columns := ["name", "age"]
  predicate := some (.and [
    .range "age" (some ⟨.int Int64.minValue, false⟩) (some ⟨.float 30.0, true⟩),
    .or [.member "tags" [.list [.nil, .float (-0.0)], .map [("a", .bool true), ("b", .string "")]] true,
      .isNull "name"]])
  primaryKey := some (.int Int64.maxValue)
  offset := some 4096
  binNames := some []

theorem nested_query_reads_back :
    (∀ value ∈ nestedQuery.values, value.Plain) ∧ nestedQuery.primaryKey ≠ some .nil ∧
      ofDocument? nestedQuery.toJson.document = some nestedQuery := by
  have items : ∀ item ∈ [Value.nil, .float (-0.0)], item.Plain :=
    List.forall_mem_cons.2 ⟨.nil, List.forall_mem_singleton.2 (.float rfl)⟩
  have fields : ∀ field ∈ [("a", Value.bool true), ("b", .string "")], field.2.Plain :=
    List.forall_mem_cons.2 ⟨.bool true, List.forall_mem_singleton.2 (.string "")⟩
  have values : ∀ value ∈ [Value.int Int64.minValue, .float 30.0, .list [.nil, .float (-0.0)],
      .map [("a", .bool true), ("b", .string "")], .int Int64.maxValue], value.Plain := by
    simp only [List.forall_mem_cons]
    exact ⟨.int _, .float rfl, .list items, .map (by decide) fields, .int _, by simp⟩
  have keyed : nestedQuery.primaryKey ≠ some .nil := by simp [nestedQuery]
  exact ⟨values, keyed, written_queries_read_back.1 nestedQuery values keyed⟩

end RecordQuery.Query
