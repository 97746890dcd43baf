import RecordQuery.Proofs.Json.Reading

/-!
What can be read of a text. Its integers are those that 64 bits can hold, and its containers are nested no
deeper than the reader goes, so that every value that was read can be written and read again.
-/

namespace RecordQuery

open Json

/-- Integers that 64 bits can hold, in at most so many containers; what cannot be read has none. -/
inductive Document.Within : Nat → Document → Prop
  | unreadable (depth : Nat) : Within depth .unreadable
  | null (depth : Nat) : Within depth .null
  | bool (depth : Nat) (value : Bool) : Within depth (.bool value)
  | int (depth : Nat) {value : Int} (least : Int64.minValue.toInt ≤ value) (greatest : value < UInt64.size) :
    Within depth (.int value)
  | float (depth : Nat) (value : Float) : Within depth (.float value)
  | string (depth : Nat) (value : String) : Within depth (.string value)
  | array {depth : Nat} {items : List Document} (items_within : ∀ item ∈ items, Within depth item) :
    Within (depth + 1) (.array items)
  | object {depth : Nat} {fields : Fields Document} (values_within : ∀ field ∈ fields, Within depth field.2) :
    Within (depth + 1) (.object fields)

namespace Json.Numeral

theorem integer?_within {numeral : Numeral} {n : Int} (found : numeral.integer? = some n) :
    Int64.minValue.toInt ≤ n ∧ n < UInt64.size := by
  have bound : Int64.minValue.toInt = -2 ^ 63 := by decide
  rw [integer?] at found
  rw [bound] at found ⊢
  split_ifs at found with _ negative range range
  · cases found
    exact ⟨range.2, by omega⟩
  · cases found
    exact ⟨by omega, range⟩

theorem within_document (numeral : Numeral) (depth : Nat) : numeral.document.Within depth := by
  rw [document]
  split
  · next n found =>
    obtain ⟨least, greatest⟩ := integer?_within found
    exact .int depth least greatest
  · cases numeral.float? with
    | none => exact .unreadable depth
    | some x => exact .float depth x

end Json.Numeral

namespace Json.Reader

theorem within_of_literal {word text rest : List Char} {value document : Document} {depth : Nat}
    (within : value.Within depth) (read : literal word value text = some (document, rest)) :
    document.Within depth := by
  rw [literal] at read
  split at read
  · cases read
    exact within
  · cases read

section Containers

variable {depth : Nat}

theorem within_of_number {text rest : List Char} {document : Document}
    (read : number text = some (document, rest)) : document.Within depth := by
  obtain ⟨⟨numeral, later⟩, _, same⟩ := Option.map_eq_some_iff.1 read
  cases same
  exact numeral.within_document depth

theorem within_array {items : List Document} (within : ∀ item ∈ items, item.Within (depth - 1)) :
    (if depth = 0 then Document.unreadable else .array items).Within depth := by
  split
  · exact .unreadable depth
  · next some_depth =>
    obtain ⟨depth, rfl⟩ := Nat.exists_eq_add_one_of_ne_zero some_depth
    exact .array within

theorem within_object {fields : Option (Fields Document)}
    (within : ∀ found ∈ fields, ∀ field ∈ found, field.2.Within (depth - 1)) :
    (if depth = 0 then Document.unreadable else fields.elim .unreadable .object).Within depth := by
  split
  · exact .unreadable depth
  · next some_depth =>
    obtain ⟨depth, rfl⟩ := Nat.exists_eq_add_one_of_ne_zero some_depth
    cases fields with
    | none => exact .unreadable _
    | some fields => exact .object (within fields rfl)

end Containers

/-- Whatever is read is nested no deeper than the reader goes. -/
theorem within_of_read (fuel : Nat) :
    (∀ {depth text document rest}, value fuel depth text = some (document, rest) → document.Within depth) ∧
    (∀ {depth text documents rest}, elements fuel depth text = some (documents, rest) →
      ∀ document ∈ documents, document.Within depth) ∧
    (∀ {depth text fields rest}, members fuel depth text = some (fields, rest) →
      ∀ found ∈ fields, ∀ field ∈ found, field.2.Within depth) := by
  -- The three readers call each other, each time with less fuel.
  induction fuel with
  | zero =>
    refine ⟨?_, ?_, ?_⟩ <;>
    · intro _ _ _ _ read
      cases read
  | succ fuel ih =>
    obtain ⟨value_within, elements_within, members_within⟩ := ih
    refine ⟨?value, ?elements, ?members⟩
    case value =>
      intro depth text document rest read
      rw [value] at read
      split at read
      · obtain ⟨⟨found, later⟩, _, same⟩ := Option.bind_eq_some_iff.1 read
        cases same
        cases found with
        | none => exact .unreadable depth
        | some text => exact .string depth text
      · dsimp only at read
        split at read
        · cases read
          exact within_array (List.forall_mem_nil _)
        · obtain ⟨⟨items, later⟩, items_read, same⟩ := Option.bind_eq_some_iff.1 read
          cases same
          exact within_array (elements_within items_read)
      · dsimp only at read
        split at read
        · cases read
          refine within_object ?_
          rintro _ ⟨⟩
          exact List.forall_mem_nil _
        · obtain ⟨⟨fields, later⟩, fields_read, same⟩ := Option.bind_eq_some_iff.1 read
          cases same
          exact within_object (members_within fields_read)
      · exact within_of_literal (.bool depth true) read
      · exact within_of_literal (.bool depth false) read
      · exact within_of_literal (.null depth) read
      · exact within_of_number read
    case elements =>
      intro depth text documents rest read
      rw [elements] at read
      obtain ⟨⟨first, later⟩, first_read, read⟩ := Option.bind_eq_some_iff.1 read
      have first_within := value_within first_read
      dsimp only at read
      split at read
      · obtain ⟨⟨others, last⟩, others_read, same⟩ := Option.bind_eq_some_iff.1 read
        cases same
        exact List.forall_mem_cons.2 ⟨first_within, elements_within others_read⟩
      · cases read
        exact List.forall_mem_singleton.2 first_within
      · cases read
    case members =>
      intro depth text fields rest read
      rw [members] at read
      split at read
      · obtain ⟨⟨name, later⟩, _, read⟩ := Option.bind_eq_some_iff.1 read
        dsimp only at read
        split at read
        · obtain ⟨⟨first, later⟩, first_read, read⟩ := Option.bind_eq_some_iff.1 read
          have first_within := value_within first_read
          dsimp only at read
          split at read
          · obtain ⟨⟨others, last⟩, others_read, same⟩ := Option.bind_eq_some_iff.1 read
            cases same
            cases name with
            | none => rintro _ ⟨⟩
            | some name =>
              cases others with
              | none => rintro _ ⟨⟩
              | some others =>
                rintro _ ⟨⟩
                exact List.forall_mem_cons.2 ⟨first_within, members_within others_read others rfl⟩
          · cases read
            cases name with
            | none => rintro _ ⟨⟩
            | some name =>
              rintro _ ⟨⟩
              exact List.forall_mem_singleton.2 first_within
          · cases read
        · cases read
      · cases read

end Json.Reader

namespace Document

variable {depth : Nat} {document : Document}

theorem within_of_parse {text : String} (read : parse text = some document) :
    document.Within Reader.maxDepth := by
  obtain ⟨⟨found, rest⟩, found_read, read⟩ := Option.bind_eq_some_iff.1 read
  obtain ⟨_, _, same⟩ := Option.bind_eq_some_iff.1 read
  cases same
  exact (Reader.within_of_read _).1 found_read

/-- A value that was read can be written. -/
theorem Within.writable (within : document.Within depth) {json : Json} (read : document.json? = some json) :
    json.Writable depth := by
  induction within generalizing json with
  | unreadable => cases read
  | null depth =>
    cases read
    exact .null depth
  | bool depth value =>
    cases read
    exact .bool depth value
  | int depth least greatest =>
    cases read
    exact .int depth least greatest
  | float depth value =>
    cases read
    exact .float depth value
  | string depth value =>
    cases read
    exact .string depth value
  | array items_within ih =>
    rw [json?, jsonList?_eq_mapM] at read
    obtain ⟨items, items_read, rfl⟩ := Option.map_eq_some_iff.1 read
    refine .array fun item mem => ?_
    obtain ⟨document, document_mem, read⟩ := (of_mapM items_read).1 item mem
    exact ih document document_mem read
  | object values_within ih =>
    rw [json?, jsonFields?_eq_mapM] at read
    obtain ⟨pairs, pairs_read, rfl⟩ := Option.map_eq_some_iff.1 read
    refine .object fun pair mem => ?_
    obtain ⟨field, field_mem, read⟩ := (of_mapM pairs_read).1 pair (Fields.mem_of_mem_ofPairs mem)
    obtain ⟨value, value_read, rfl⟩ := Option.map_eq_some_iff.1 read
    exact ih field field_mem value_read

theorem Within.of_list? {α : Type} {read : Document → Option α} {items : List α}
    (within : document.Within (depth + 1)) (listed : document.list? read = some items) :
    ∀ item ∈ items, ∃ part, part.Within depth ∧ read part = some item := by
  cases within with
  | array items_within =>
    intro item mem
    obtain ⟨part, part_mem, part_read⟩ := (of_mapM listed).1 item mem
    exact ⟨part, items_within part part_mem, part_read⟩
  | _ => cases listed

theorem Within.of_members? {names : List String} {members : Members} (within : document.Within (depth + 1))
    (given : document.members? names = some members) : ∀ member ∈ members, member.2.Within depth := by
  cases within with
  | array items_within =>
    rw [members?] at given
    split at given
    · cases given
      intro member mem
      exact items_within member.2 (List.of_mem_zip mem).2
    · cases given
  | object values_within =>
    rw [members?] at given
    split at given
    · cases given
      intro member mem
      exact values_within member (List.mem_filter.1 mem).1
    · cases given
  | _ => cases given

end Document

namespace Members

theorem get?_eq_fieldsGet? (members : Members) (name : String) :
    members.get? name = Fields.get? members name := by
  induction members with
  | nil => rfl
  | cons member rest ih => rw [get?, ih, Fields.get?_cons]

/-- A member that may be missing has its default or is read. -/
theorem of_optional {α : Type} {members : Members} {name : String} {default found : α}
    {read : Document → Option α} (given : members.optional name default read = some found) :
    found = default ∨ ∃ document, (name, document) ∈ members ∧ read document = some found := by
  rw [optional] at given
  split at given
  · next document present =>
    rw [get?_eq_fieldsGet?] at present
    exact Or.inr ⟨document, Fields.mem_of_get? present, given⟩
  · cases given
    exact Or.inl rfl

end Members

end RecordQuery
