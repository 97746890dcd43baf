import RecordQuery.Json.Shape
import RecordQuery.Text.Base64
import RecordQuery.Value.Basic

/-!
Values as JSON. A number is an integer if it is written as one that fits 64 bits with a sign, and a
double otherwise. Bytes are written in base64, and doubles that are no numbers as null; both read
back as something else, all other values read back as they were.
-/

namespace RecordQuery.Value

mutual

def ofJson : Json → Value
  | .null => .nil
  | .bool value => .bool value
  | .int n =>
    if Int64.minValue.toInt ≤ n ∧ n ≤ Int64.maxValue.toInt then .int (Int64.ofInt n)
    else .float (Float.ofInt n)
  | .float x => .float x
  | .string text => .string text
  | .array items => .list (ofJsonItems items)
  | .object fields => .map (ofJsonFields fields)

def ofJsonItems : List Json → List Value
  | [] => []
  | item :: rest => ofJson item :: ofJsonItems rest

def ofJsonFields : List (String × Json) → List (String × Value)
  | [] => []
  | (name, value) :: rest => (name, ofJson value) :: ofJsonFields rest

end

mutual

def toJson : Value → Json
  | .nil => .null
  | .bool value => .bool value
  | .int n => .int n.toInt
  | .float x => if x.isFinite then .float x else .null
  | .string text => .string text
  | .blob bytes => .string (String.ofList (Text.base64 bytes))
  | .list items => .array (toJsonItems items)
  | .map fields => .object (toJsonFields fields)

def toJsonItems : List Value → List Json
  | [] => []
  | item :: rest => item.toJson :: toJsonItems rest

def toJsonFields : List (String × Value) → List (String × Json)
  | [] => []
  | (name, value) :: rest => (name, value.toJson) :: toJsonFields rest

end

def ofDocument? (document : Document) : Option Value := document.json?.map ofJson

/-- Bins by name, written as an object. -/
def binsOfDocument? : Document → Option (Fields Value)
  | .object fields => do
    let pairs ← fields.mapM fun field => (ofDocument? field.2).map fun value => (field.1, value)
    return Fields.ofPairs pairs
  | _ => none

end RecordQuery.Value
