import RecordQuery.Value.Document
import RecordQuery.Proofs.Json.Document

/-!
Values that JSON holds without loss. Integers and doubles are kept apart by how the number stands in the
JSON value, not by its size, so a double that is integral and a negative zero come back as doubles, and
the ends of the integers as integers.
-/

namespace RecordQuery.Value

/-- Without bytes and without doubles that are no numbers, at any depth; the names in a map ascend. -/
inductive Plain : Value → Prop
  | nil : Plain .nil
  | bool (value : Bool) : Plain (.bool value)
  | int (value : Int64) : Plain (.int value)
  | float {value : Float} (finite : value.isFinite = true) : Plain (.float value)
  | string (value : String) : Plain (.string value)
  | list {items : List Value} (items_plain : ∀ item ∈ items, Plain item) : Plain (.list items)
  | map {fields : Fields Value} (ascending : fields.Ascending)
    (values_plain : ∀ field ∈ fields, Plain field.2) : Plain (.map fields)

theorem toJsonItems_eq_map (items : List Value) : toJsonItems items = items.map toJson := by
  induction items with
  | nil => rfl
  | cons item rest ih => rw [toJsonItems, ih, List.map_cons]

theorem toJsonFields_eq_mapValues (fields : Fields Value) :
    toJsonFields fields = fields.mapValues toJson := by
  induction fields with
  | nil => rfl
  | cons field rest ih => rw [toJsonFields, ih, Fields.mapValues, Fields.mapValues, List.map_cons]

theorem ofJsonItems_eq_map (items : List Json) : ofJsonItems items = items.map ofJson := by
  induction items with
  | nil => rfl
  | cons item rest ih => rw [ofJsonItems, ih, List.map_cons]

theorem ofJsonFields_eq_mapValues (fields : Fields Json) :
    ofJsonFields fields = fields.mapValues ofJson := by
  induction fields with
  | nil => rfl
  | cons field rest ih => rw [ofJsonFields, ih, Fields.mapValues, Fields.mapValues, List.map_cons]

namespace Plain

variable {value : Value}

theorem ofJson_toJson (plain : value.Plain) : ofJson value.toJson = value := by
  induction plain with
  | int value =>
    have in_range : Int64.minValue.toInt ≤ value.toInt ∧ value.toInt ≤ Int64.maxValue.toInt :=
      ⟨value.minValue_le_toInt, value.toInt_le⟩
    rw [toJson, ofJson, if_pos in_range, Int64.ofInt_toInt]
  | float finite => rw [toJson, if_pos finite, ofJson]
  | list items_plain ih =>
    rw [toJson, ofJson, toJsonItems_eq_map, ofJsonItems_eq_map, List.map_map]
    have items_back := List.map_congr_left ih
    rw [Function.comp_def, items_back, List.map_id']
  | @map fields ascending values_plain ih =>
    rw [toJson, ofJson, toJsonFields_eq_mapValues, ofJsonFields_eq_mapValues, Fields.mapValues,
      Fields.mapValues, List.map_map]
    have fields_back : ∀ field ∈ fields, (field.1, ofJson field.2.toJson) = field := by
      intro field mem
      rw [ih field mem]
    rw [Function.comp_def, List.map_congr_left fields_back, List.map_id']
  | _ => rfl

theorem ordered_toJson (plain : value.Plain) : value.toJson.Ordered := by
  induction plain with
  | nil => exact .null
  | bool value => exact .bool value
  | int value => exact .int value.toInt
  | @float value finite =>
    rw [toJson, if_pos finite]
    exact .float value
  | string value => exact .string value
  | list items_plain ih =>
    rw [toJson, toJsonItems_eq_map]
    exact .array (List.forall_mem_map.2 ih)
  | map ascending values_plain ih =>
    rw [toJson, toJsonFields_eq_mapValues]
    exact .object (ascending.mapValues toJson) (List.forall_mem_map.2 ih)

/-- The value is read back from the document that it is written as. -/
theorem ofDocument?_toJson (plain : value.Plain) : ofDocument? value.toJson.document = some value := by
  rw [ofDocument?, plain.ordered_toJson.json?_document, Option.map_some, plain.ofJson_toJson]

/-- Only nil is written as null. -/
theorem document_ne_null (plain : value.Plain) (some_value : value ≠ .nil) :
    value.toJson.document ≠ .null := by
  cases plain with
  | nil => exact absurd rfl some_value
  | float finite => simp [toJson, finite, Json.document]
  | _ => simp [toJson, Json.document]

end Plain

end RecordQuery.Value
