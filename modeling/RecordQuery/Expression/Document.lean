import RecordQuery.Expression
import RecordQuery.Value.Document
import RecordQuery.Value.Tagged

/-!
Expressions as JSON: an array that begins with the kind of the expression, then its operands. Values
have their bytes and doubles spelled out, so no expression loses anything.
-/

namespace RecordQuery

namespace Comparison

def all : List Comparison := [.eq, .ne, .gt, .ge, .lt, .le]

def ofSymbol? (symbol : String) : Option Comparison :=
  all.find? fun comparison => comparison.symbol == symbol

end Comparison

namespace Expression

def taggedJson (value : Value) : Json := value.tagged.toJson

mutual

def toJson : Expression → Json
  | .value operand => .array [.string "val", taggedJson operand]
  | .bin name => .array [.string "bin", .string name]
  | .key => .array [.string "key"]
  | .binExists name => .array [.string "bin_exists", .string name]
  | .keyExists => .array [.string "key_exists"]
  | .compare comparison left right =>
    .array [.string "cmp", .string comparison.symbol, left.toJson, right.toJson]
  | .oneOf operand values =>
    .array [.string "in", operand.toJson, .array (values.map taggedJson)]
  | .and parts => .array [.string "and", .array (toJsonParts parts)]
  | .or parts => .array [.string "or", .array (toJsonParts parts)]
  | .not part => .array [.string "not", part.toJson]

def toJsonParts : List Expression → List Json
  | [] => []
  | part :: rest => part.toJson :: toJsonParts rest

end

def operand? (document : Document) : Option Value := (Value.ofDocument? document).map Value.untagged

mutual

def ofDocument? : Document → Option Expression
  | .array [.string "val", operand] => (operand? operand).map .value
  | .array [.string "bin", .string name] => some (.bin name)
  | .array [.string "key"] => some .key
  | .array [.string "bin_exists", .string name] => some (.binExists name)
  | .array [.string "key_exists"] => some .keyExists
  | .array [.string "cmp", .string symbol, left, right] => do
    return .compare (← Comparison.ofSymbol? symbol) (← ofDocument? left) (← ofDocument? right)
  | .array [.string "in", operand, .array values] => do
    return .oneOf (← ofDocument? operand) (← values.mapM operand?)
  | .array [.string "and", .array parts] => (ofDocuments? parts).map .and
  | .array [.string "or", .array parts] => (ofDocuments? parts).map .or
  | .array [.string "not", part] => (ofDocument? part).map .not
  | _ => none

def ofDocuments? : List Document → Option (List Expression)
  | [] => some []
  | document :: rest => do
    let first ← ofDocument? document
    let others ← ofDocuments? rest
    return first :: others

end

end Expression

end RecordQuery
