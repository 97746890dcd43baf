import RecordQuery.Json.Shape
import RecordQuery.Proofs.Fields.Order

/-!
JSON values as documents. The document of a value is readable, and if the fields of every object
ascend it denotes that value. The functions on values and documents have companions that recurse over
lists and fields; each of them is read once as the list operation that it is.
-/

namespace RecordQuery

/-- What is read back element by element is read back as a list. -/
theorem mapM_map_eq_some {α β : Type} {write : α → β} {read : β → Option α} {items : List α}
    (back : ∀ item ∈ items, read (write item) = some item) :
    (items.map write).mapM read = some items := by
  induction items with
  | nil => rfl
  | cons item rest ih =>
    obtain ⟨first, later⟩ := List.forall_mem_cons.1 back
    simp [first, ih later]

/-- What is read off a list was read off its items, and each item gave something. -/
theorem of_mapM {α β : Type} {read : α → Option β} {items : List α} {results : List β}
    (all_read : items.mapM read = some results) :
    (∀ result ∈ results, ∃ item ∈ items, read item = some result) ∧
      ∀ item ∈ items, ∃ result ∈ results, read item = some result := by
  induction items generalizing results with
  | nil =>
    rw [List.mapM_nil] at all_read
    cases all_read
    exact ⟨List.forall_mem_nil _, List.forall_mem_nil _⟩
  | cons item items ih =>
    rw [List.mapM_cons] at all_read
    obtain ⟨first, first_read, all_read⟩ := Option.bind_eq_some_iff.1 all_read
    obtain ⟨others, others_read, all_read⟩ := Option.bind_eq_some_iff.1 all_read
    cases all_read
    obtain ⟨from_item, to_result⟩ := ih others_read
    constructor
    · refine List.forall_mem_cons.2 ⟨⟨item, List.mem_cons_self, first_read⟩, fun result mem => ?_⟩
      obtain ⟨item, item_mem, given⟩ := from_item result mem
      exact ⟨item, List.mem_cons_of_mem _ item_mem, given⟩
    · refine List.forall_mem_cons.2 ⟨⟨first, List.mem_cons_self, first_read⟩, fun item mem => ?_⟩
      obtain ⟨result, result_mem, given⟩ := to_result item mem
      exact ⟨result, List.mem_cons_of_mem _ result_mem, given⟩

namespace Json

theorem documents_eq_map (items : List Json) : documents items = items.map document := by
  induction items with
  | nil => rfl
  | cons item rest ih => rw [documents, ih, List.map_cons]

theorem documentFields_eq_mapValues (fields : Fields Json) :
    documentFields fields = fields.mapValues document := by
  induction fields with
  | nil => rfl
  | cons field rest ih => rw [documentFields, ih, Fields.mapValues, Fields.mapValues, List.map_cons]

end Json

namespace Document

theorem jsonList?_eq_mapM (items : List Document) : jsonList? items = items.mapM json? := by
  induction items with
  | nil => rfl
  | cons item rest ih => rw [jsonList?, ih, List.mapM_cons]

theorem jsonFields?_eq_mapM (fields : Fields Document) :
    jsonFields? fields = fields.mapM fun field => field.2.json?.map fun json => (field.1, json) := by
  induction fields with
  | nil => rfl
  | cons field rest ih =>
    rw [jsonFields?, ih, List.mapM_cons]
    cases field.2.json? <;> rfl

theorem areReadable_eq_all (items : List Document) : areReadable items = items.all isReadable := by
  induction items with
  | nil => rfl
  | cons item rest ih => rw [areReadable, ih, List.all_cons]

theorem fieldsAreReadable_eq_all (fields : Fields Document) :
    fieldsAreReadable fields = fields.all fun field => field.2.isReadable := by
  induction fields with
  | nil => rfl
  | cons field rest ih => rw [fieldsAreReadable, ih, List.all_cons]

/-- What may be missing is read back, if nothing that is given is written as null. -/
theorem nullable?_elim {α : Type} {write : α → Json} {read : Document → Option α} {given : Option α}
    (back : ∀ item ∈ given, read (write item).document = some item)
    (not_null : ∀ item ∈ given, (write item).document ≠ .null) :
    nullable? read (given.elim .null write).document = some given := by
  cases given with
  | none => rfl
  | some item =>
    have first := back item rfl
    have not_null := not_null item rfl
    rw [Option.elim_some, nullable?]
    · rw [first, Option.map_some]
    · exact not_null

end Document

namespace Json

@[elab_as_elim]
theorem induct {motive : Json → Prop}
    (null : motive .null)
    (bool : ∀ value, motive (.bool value))
    (int : ∀ value, motive (.int value))
    (float : ∀ value, motive (.float value))
    (string : ∀ value, motive (.string value))
    (array : ∀ items, (∀ item ∈ items, motive item) → motive (.array items))
    (object : ∀ fields : List (String × Json), (∀ field ∈ fields, motive field.2) →
      motive (.object fields))
    (json : Json) : motive json := by
  refine @Json.rec motive (fun items => ∀ item ∈ items, motive item)
    (fun fields => ∀ field ∈ fields, motive field.2) (fun field => motive field.2)
    null bool int float string array object ?_ ?_ ?_ ?_ ?_ json
  · simp
  · intro first rest first_holds rest_hold
    exact List.forall_mem_cons.2 ⟨first_holds, rest_hold⟩
  · simp
  · intro first rest first_holds rest_hold
    exact List.forall_mem_cons.2 ⟨first_holds, rest_hold⟩
  · intro name value holds
    exact holds

theorem isReadable_document (json : Json) : json.document.isReadable = true := by
  induction json using induct with
  | array items ih =>
    simpa [document, Document.isReadable, documents_eq_map, Document.areReadable_eq_all] using ih
  | object fields ih =>
    rw [document, Document.isReadable, documentFields_eq_mapValues, Document.fieldsAreReadable_eq_all]
    simpa [Fields.mapValues] using ih
  | _ => rfl

/-- The fields of every object stand in ascending order. -/
inductive Ordered : Json → Prop
  | null : Ordered .null
  | bool (value : Bool) : Ordered (.bool value)
  | int (value : Int) : Ordered (.int value)
  | float (value : Float) : Ordered (.float value)
  | string (value : String) : Ordered (.string value)
  | array {items : List Json} (items_ordered : ∀ item ∈ items, Ordered item) : Ordered (.array items)
  | object {fields : Fields Json} (ascending : fields.Ascending)
    (values_ordered : ∀ field ∈ fields, Ordered field.2) : Ordered (.object fields)

/-- The document of a value denotes it. -/
theorem Ordered.json?_document {json : Json} (ordered : json.Ordered) :
    json.document.json? = some json := by
  induction ordered with
  | array items_ordered ih =>
    rw [document, Document.json?, documents_eq_map, Document.jsonList?_eq_mapM, mapM_map_eq_some ih,
      Option.map_some]
  | @object fields ascending values_ordered ih =>
    have pairs : Document.jsonFields? (fields.mapValues document) = some fields := by
      rw [Document.jsonFields?_eq_mapM, Fields.mapValues]
      refine mapM_map_eq_some ?_
      intro field mem
      rw [ih field mem, Option.map_some]
    rw [document, Document.json?, documentFields_eq_mapValues, pairs, Option.map_some,
      ascending.ofPairs_eq (.refl fields)]
  | _ => rfl

end Json

end RecordQuery
