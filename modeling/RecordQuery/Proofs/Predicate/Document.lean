import RecordQuery.Predicate.Document
import RecordQuery.Proofs.Predicate.Induction
import RecordQuery.Proofs.Value.Document

/-!
Predicates that JSON holds without loss: those that compare with plain values only. The written form
names the kind and all members, and reading it back looks at just these. The reading of a predicate
inside another takes numbers for kinds as well; none is ever written.
-/

namespace RecordQuery

theorem Limit.ofDocument?_toJson {limit : Limit} (plain : limit.value.Plain) :
    Limit.ofDocument? limit.toJson.document = some limit := by
  simp [Limit.ofDocument?, Limit.toJson, Json.document, Json.documentFields, Document.members?,
    Members.required, Members.optional, Members.get?, Document.bool?, plain.ofDocument?_toJson]

theorem Limit.nullable?_toJson? {limit : Option Limit}
    (plain : ∀ value ∈ limit.toList.map Limit.value, value.Plain) :
    Document.nullable? Limit.ofDocument? (Limit.toJson? limit).document = some limit := by
  have written : Limit.toJson? limit = limit.elim .null Limit.toJson := by cases limit <;> rfl
  rw [written]
  refine Document.nullable?_elim ?_ ?_
  · rintro given rfl
    exact ofDocument?_toJson (plain given.value List.mem_cons_self)
  · rintro given -
    simp [Limit.toJson, Json.document]

theorem Value.list?_toJson {values : List Value} (plain : ∀ value ∈ values, value.Plain) :
    Document.list? Value.ofDocument? (Json.array (values.map Value.toJson)).document = some values := by
  rw [Json.document, Json.documents_eq_map, Document.list?, List.map_map]
  exact mapM_map_eq_some fun value mem => (plain value mem).ofDocument?_toJson

namespace Predicate

mutual

/-- The values that the predicate compares with. -/
def values : Predicate → List Value
  | .equals _ value => [value]
  | .notEquals _ value => [value]
  | .range _ lower upper => lower.toList.map Limit.value ++ upper.toList.map Limit.value
  | .isNull _ => []
  | .isNotNull _ => []
  | .member _ values _ => values
  | .and parts => valuesIn parts
  | .or parts => valuesIn parts

def valuesIn : List Predicate → List Value
  | [] => []
  | part :: rest => part.values ++ valuesIn rest

end

theorem valuesIn_eq_flatMap (parts : List Predicate) : valuesIn parts = parts.flatMap values := by
  induction parts with
  | nil => rfl
  | cons part rest ih => rw [valuesIn, ih, List.flatMap_cons]

theorem toJsonParts_eq_map (parts : List Predicate) : toJsonParts parts = parts.map toJson := by
  induction parts with
  | nil => rfl
  | cons part rest ih => rw [toJsonParts, ih, List.map_cons]

theorem listOfReadable?_eq_mapM (items : List Document) :
    listOfReadable? items = items.mapM (ofReadable? true) := by
  induction items with
  | nil => rw [listOfReadable?, List.mapM_nil]; rfl
  | cons item rest ih => rw [listOfReadable?, ih, List.mapM_cons]

theorem Kind.ofDocument?_name (numbered : Bool) (kind : Kind) :
    Kind.ofDocument? numbered (.string kind.name) = some kind := by
  cases kind <;> rfl

/-- An object that names its kind once is read by its members. -/
theorem ofReadable?_object (numbered : Bool) {fields : List (String × Document)} (kind : Kind)
    (members : Members) (named : (fields.filter fun field => field.1 = "op") = [("op", .string kind.name)])
    (known : (Document.object fields).members? kind.memberNames = some members) :
    ofReadable? numbered (.object fields) = ofMembers? kind members (fieldParts fields) := by
  simp [ofReadable?, named, known, Kind.ofDocument?_name]

/-- The parts of a connective are read back from the field that they stand in. -/
theorem get?_fieldParts {parts : List Predicate} (op : Json)
    (back : ∀ part ∈ parts, ofReadable? true part.toJson.document = some part) :
    Fields.get? (fieldParts (Json.documentFields
      [("op", op), ("predicates", .array (toJsonParts parts))])) "predicates" = some (some parts) := by
  have parts_read : partsOfReadable? (Json.array (toJsonParts parts)).document = some parts := by
    rw [Json.document, partsOfReadable?, Json.documents_eq_map, toJsonParts_eq_map, List.map_map,
      listOfReadable?_eq_mapM]
    exact mapM_map_eq_some back
  simp [Json.documentFields, fieldParts, Fields.get?_cons, parts_read]

theorem values_plain_of_mem {parts : List Predicate} (plain : ∀ value ∈ valuesIn parts, value.Plain) :
    ∀ part ∈ parts, ∀ value ∈ part.values, value.Plain := by
  intro part part_mem value mem
  rw [valuesIn_eq_flatMap] at plain
  exact plain value (List.mem_flatMap_of_mem part_mem mem)

/-- A predicate is read back from what it is written as, alone and inside another. -/
theorem ofReadable?_toJson {predicate : Predicate} (plain : ∀ value ∈ predicate.values, value.Plain)
    (numbered : Bool) : ofReadable? numbered predicate.toJson.document = some predicate := by
  induction predicate generalizing numbered with
  | equals field value =>
    have value_read := (plain value (by simp [values])).ofDocument?_toJson
    rw [toJson, Json.document, ofReadable?_object numbered .equals
      [("field", .string field), ("value", value.toJson.document)] rfl rfl]
    simp [ofMembers?, Members.required, Members.get?, Document.string?, value_read]
  | notEquals field value =>
    have value_read := (plain value (by simp [values])).ofDocument?_toJson
    rw [toJson, Json.document, ofReadable?_object numbered .notEquals
      [("field", .string field), ("value", value.toJson.document)] rfl rfl]
    simp [ofMembers?, Members.required, Members.get?, Document.string?, value_read]
  | range field lower upper =>
    obtain ⟨lower_plain, upper_plain⟩ := List.forall_mem_append.1 plain
    have lower_read := Limit.nullable?_toJson? lower_plain
    have upper_read := Limit.nullable?_toJson? upper_plain
    rw [toJson, Json.document, ofReadable?_object numbered .range
      [("field", .string field), ("lower", (Limit.toJson? lower).document),
        ("upper", (Limit.toJson? upper).document)] rfl rfl]
    simp [ofMembers?, Members.required, Members.nullable, Members.optional, Members.get?,
      Document.string?, lower_read, upper_read]
  | isNull field =>
    rw [toJson, Json.document, ofReadable?_object numbered .isNull [("field", .string field)] rfl rfl]
    simp [ofMembers?, Members.required, Members.get?, Document.string?]
  | isNotNull field =>
    rw [toJson, Json.document, ofReadable?_object numbered .isNotNull [("field", .string field)] rfl rfl]
    simp [ofMembers?, Members.required, Members.get?, Document.string?]
  | member field values negated =>
    have values_read : Document.list? Value.ofDocument?
        (Json.array (values.map Value.toJson)).document = some values := Value.list?_toJson plain
    rw [toJson, Json.document, ofReadable?_object numbered .member
      [("field", .string field), ("negated", .bool negated),
        ("values", (Json.array (values.map Value.toJson)).document)] rfl rfl]
    simp [ofMembers?, Members.required, Members.optional, Members.get?, Document.string?,
      Document.bool?, values_read]
  | and parts ih =>
    have back : ∀ part ∈ parts, ofReadable? true part.toJson.document = some part := by
      intro part mem
      exact ih part mem (values_plain_of_mem plain part mem) true
    rw [toJson, Json.document, ofReadable?_object numbered .and
      [("predicates", (Json.array (toJsonParts parts)).document)] rfl rfl]
    simp [ofMembers?, get?_fieldParts _ back]
  | or parts ih =>
    have back : ∀ part ∈ parts, ofReadable? true part.toJson.document = some part := by
      intro part mem
      exact ih part mem (values_plain_of_mem plain part mem) true
    rw [toJson, Json.document, ofReadable?_object numbered .or
      [("predicates", (Json.array (toJsonParts parts)).document)] rfl rfl]
    simp [ofMembers?, get?_fieldParts _ back]

theorem ofDocument?_toJson {predicate : Predicate} (plain : ∀ value ∈ predicate.values, value.Plain) :
    ofDocument? predicate.toJson.document = some predicate := by
  rw [ofDocument?, if_pos (Json.isReadable_document _), ofReadable?_toJson plain]

theorem document_ne_null (predicate : Predicate) : predicate.toJson.document ≠ .null := by
  cases predicate <;> simp [toJson, Json.document]

end Predicate

end RecordQuery
