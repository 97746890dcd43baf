import RecordQuery.Fields

/-!
JSON values, and documents: JSON texts whose grammar has been checked but whose meaning has not. A
document keeps repeated fields, and a part that obeys the grammar and still denotes no value (a
number out of range, a text with half a surrogate pair, a nesting too deep) stands in it as
`unreadable`. Whoever reads a document decides which parts count, so a fault in a part that is
passed over does no harm.
-/

namespace RecordQuery

/-- Integers are kept exact; the fields of an object stand in ascending order of their names. -/
inductive Json where
  | null
  | bool (value : Bool)
  | int (value : Int)
  | float (value : Float)
  | string (value : String)
  | array (items : List Json)
  | object (fields : List (String × Json))
  deriving Inhabited

inductive Document where
  | unreadable
  | null
  | bool (value : Bool)
  | int (value : Int)
  | float (value : Float)
  | string (value : String)
  | array (items : List Document)
  | object (fields : List (String × Document))

mutual

/-- The value as a document. -/
def Json.document : Json → Document
  | .null => .null
  | .bool value => .bool value
  | .int value => .int value
  | .float value => .float value
  | .string value => .string value
  | .array items => .array (Json.documents items)
  | .object fields => .object (Json.documentFields fields)

def Json.documents : List Json → List Document
  | [] => []
  | item :: rest => item.document :: Json.documents rest

def Json.documentFields : List (String × Json) → List (String × Document)
  | [] => []
  | (name, value) :: rest => (name, value.document) :: Json.documentFields rest

end

mutual

/-- The value of a document, if every part of it denotes one; the last of repeated fields counts. -/
def Document.json? : Document → Option Json
  | .unreadable => none
  | .null => some .null
  | .bool value => some (.bool value)
  | .int value => some (.int value)
  | .float value => some (.float value)
  | .string value => some (.string value)
  | .array items => (Document.jsonList? items).map .array
  | .object fields => (Document.jsonFields? fields).map fun pairs => .object (Fields.ofPairs pairs)

def Document.jsonList? : List Document → Option (List Json)
  | [] => some []
  | item :: rest => do
    let first ← item.json?
    let others ← Document.jsonList? rest
    return first :: others

def Document.jsonFields? : List (String × Document) → Option (List (String × Json))
  | [] => some []
  | (name, value) :: rest => do
    let first ← value.json?
    let others ← Document.jsonFields? rest
    return (name, first) :: others

end

mutual

/-- Whether every part of a document denotes a value. -/
def Document.isReadable : Document → Bool
  | .unreadable => false
  | .array items => Document.areReadable items
  | .object fields => Document.fieldsAreReadable fields
  | _ => true

def Document.areReadable : List Document → Bool
  | [] => true
  | item :: rest => item.isReadable && Document.areReadable rest

def Document.fieldsAreReadable : List (String × Document) → Bool
  | [] => true
  | (_, value) :: rest => value.isReadable && Document.fieldsAreReadable rest

end

end RecordQuery
