import RecordQuery.Decimal.Layout
import RecordQuery.Fields

/-!
Typed values, as they stand in the bins of a record and as operands of a query. Three relations
between values are kept apart. `compare?` orders numbers with numbers, an integer counting as the
double nearest to it, and texts with texts; all other pairs have no order. `==` looks at the
structure, with the arithmetic equality of doubles, so not-a-number differs from itself.
`equalTo` is the equality of queries: the order where there is one, else the structure.
-/

namespace RecordQuery

inductive Value where
  | nil
  | bool (value : Bool)
  | int (value : Int64)
  | float (value : Float)
  | string (value : String)
  | blob (bytes : List UInt8)
  | list (items : List Value)
  | map (fields : List (String × Value))
  deriving Inhabited

/-- The order of two doubles, of which neither may be not-a-number. -/
def floatOrder? (a b : Float) : Option Ordering :=
  if a < b then some .lt else if a == b then some .eq else if b < a then some .gt else none

/-- The double nearest to an integer, ties going to the even significand. -/
def nearestFloat (n : Int64) : Float := Float.ofInt n.toInt

namespace Value

def isNil : Value → Bool
  | .nil => true
  | _ => false

def int? : Value → Option Int64
  | .int n => some n
  | _ => none

def string? : Value → Option String
  | .string text => some text
  | _ => none

def typeName : Value → String
  | .nil => "nil"
  | .bool _ => "bool"
  | .int _ => "int"
  | .float _ => "float"
  | .string _ => "string"
  | .blob _ => "blob"
  | .list _ => "list"
  | .map _ => "map"

def compare? : Value → Value → Option Ordering
  | .int a, .int b => some (compare a b)
  | .float a, .float b => floatOrder? a b
  | .int a, .float b => floatOrder? (nearestFloat a) b
  | .float a, .int b => floatOrder? a (nearestFloat b)
  | .string a, .string b => some (compare a b)
  | _, _ => none

mutual

def beq : Value → Value → Bool
  | .nil, .nil => true
  | .bool a, .bool b => a == b
  | .int a, .int b => a == b
  | .float a, .float b => a == b
  | .string a, .string b => a == b
  | .blob a, .blob b => a == b
  | .list a, .list b => beqItems a b
  | .map a, .map b => beqFields a b
  | _, _ => false

def beqItems : List Value → List Value → Bool
  | [], [] => true
  | a :: as, b :: bs => a.beq b && beqItems as bs
  | _, _ => false

def beqFields : List (String × Value) → List (String × Value) → Bool
  | [], [] => true
  | (name, a) :: as, (other, b) :: bs => name == other && a.beq b && beqFields as bs
  | _, _ => false

end

instance : BEq Value := ⟨beq⟩

/-- The equality of queries, by the order of the two values where they have one. -/
def equalTo (a b : Value) : Bool :=
  match a.compare? b with
  | some order => order == .eq
  | none => a == b

/-- Doubles never have an exponent mark or a needless point. -/
def floatLayout : FloatLayout where
  tie := .up
  inPlace _ := true
  wholeEnd := ""
  notANumber := "NaN"
  infinity := "inf"

mutual

/-- The value as shown to people. -/
def text : Value → String
  | .nil => "NULL"
  | .bool true => "true"
  | .bool false => "false"
  | .int n => toString n.toInt
  | .float x => floatLayout.write x
  | .string s => "'" ++ s ++ "'"
  | .blob bytes => "blob[" ++ toString bytes.length ++ "]"
  | .list items => "[" ++ String.intercalate ", " (texts items) ++ "]"
  | .map fields => "map[" ++ toString fields.length ++ "]"

def texts : List Value → List String
  | [] => []
  | item :: rest => item.text :: texts rest

end

end Value

end RecordQuery
