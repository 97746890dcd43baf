import RecordQuery.Record

/-!
Boolean expressions that a store evaluates on every candidate record. An operand may resolve to
nothing (a missing bin, a key that was not kept); a comparison with such an operand is false, and so
is the opposite comparison. An expression holds on a record if it resolves to true there.
-/

namespace RecordQuery

inductive Comparison where
  | eq
  | ne
  | gt
  | ge
  | lt
  | le
  deriving DecidableEq, Repr

namespace Comparison

def symbol : Comparison → String
  | .eq => "=="
  | .ne => "!="
  | .gt => ">"
  | .ge => ">="
  | .lt => "<"
  | .le => "<="

/-- The order comparisons are false on values without an order. -/
def holds (comparison : Comparison) (a b : Value) : Bool :=
  match comparison with
  | .eq => a.equalTo b
  | .ne => !a.equalTo b
  | .gt => a.compare? b == some .gt
  | .ge => a.compare? b == some .gt || a.compare? b == some .eq
  | .lt => a.compare? b == some .lt
  | .le => a.compare? b == some .lt || a.compare? b == some .eq

end Comparison

inductive Expression where
  | value (operand : Value)
  | bin (name : String)
  | key
  | binExists (name : String)
  | keyExists
  | compare (comparison : Comparison) (left right : Expression)
  | oneOf (operand : Expression) (values : List Value)
  | and (parts : List Expression)
  | or (parts : List Expression)
  | not (part : Expression)
  deriving Inhabited

namespace Expression

def isTrue : Option Value → Bool
  | some (.bool true) => true
  | _ => false

mutual

/-- What an operand stands for on a record. -/
def resolve? (record : Record) : Expression → Option Value
  | .value operand => some operand
  | .bin name => record.knownBin? name
  | .key => record.userKey?
  | .binExists name => some (.bool (record.knownBin? name).isSome)
  | .keyExists => some (.bool record.key.isSome)
  | .compare comparison left right =>
    match left.resolve? record, right.resolve? record with
    | some a, some b => some (.bool (comparison.holds a b))
    | _, _ => some (.bool false)
  | .oneOf operand values =>
    match operand.resolve? record with
    | some found => some (.bool (values.any found.equalTo))
    | none => some (.bool false)
  | .and parts => some (.bool (allHold record parts))
  | .or parts => some (.bool (someHolds record parts))
  | .not part => some (.bool (!isTrue (part.resolve? record)))

def allHold (record : Record) : List Expression → Bool
  | [] => true
  | part :: rest => isTrue (part.resolve? record) && allHold record rest

def someHolds (record : Record) : List Expression → Bool
  | [] => false
  | part :: rest => isTrue (part.resolve? record) || someHolds record rest

end

def holds (expression : Expression) (record : Record) : Bool := isTrue (expression.resolve? record)

/-- Booleans as the integers one and zero; other values, and what is inside them, stay. -/
def boolAsInt : Value → Value
  | .bool true => .int 1
  | .bool false => .int 0
  | other => other

mutual

/-- The expression for stores that keep booleans as integers. -/
def boolsAsInts : Expression → Expression
  | .value operand => .value (boolAsInt operand)
  | .compare comparison left right => .compare comparison left.boolsAsInts right.boolsAsInts
  | .oneOf operand values => .oneOf operand.boolsAsInts (values.map boolAsInt)
  | .and parts => .and (boolsAsIntsIn parts)
  | .or parts => .or (boolsAsIntsIn parts)
  | .not part => .not part.boolsAsInts
  | other => other

def boolsAsIntsIn : List Expression → List Expression
  | [] => []
  | part :: rest => part.boolsAsInts :: boolsAsIntsIn rest

end

/-- Joins parts in brackets; without parts the connective's value is written. -/
def joined (parts : List String) (word empty : String) : String :=
  if parts.isEmpty then empty else "(" ++ String.intercalate word parts ++ ")"

mutual

/-- The expression as shown to people. -/
def text : Expression → String
  | .value operand => operand.text
  | .bin name => "bin(" ++ name ++ ")"
  | .key => "key()"
  | .binExists name => "bin_exists(" ++ name ++ ")"
  | .keyExists => "key_exists()"
  | .compare comparison left right => left.text ++ " " ++ comparison.symbol ++ " " ++ right.text
  | .oneOf operand values => operand.text ++ " in " ++ (Value.list values).text
  | .and parts => joined (texts parts) " and " "true"
  | .or parts => joined (texts parts) " or " "false"
  | .not part => "not(" ++ part.text ++ ")"

def texts : List Expression → List String
  | [] => []
  | part :: rest => part.text :: texts rest

end

theorem allHold_eq_all (record : Record) (parts : List Expression) :
    allHold record parts = parts.all fun part => part.holds record := by
  induction parts with
  | nil => rfl
  | cons part rest ih => simp [allHold, holds, ih]

theorem someHolds_eq_any (record : Record) (parts : List Expression) :
    someHolds record parts = parts.any fun part => part.holds record := by
  induction parts with
  | nil => rfl
  | cons part rest ih => simp [someHolds, holds, ih]

theorem isTrue_some_bool (value : Bool) : isTrue (some (.bool value)) = value := by
  cases value <;> rfl

@[simp] theorem holds_and (parts : List Expression) (record : Record) :
    (and parts).holds record = parts.all fun part => part.holds record := by
  rw [holds, resolve?, isTrue_some_bool, allHold_eq_all]

@[simp] theorem holds_or (parts : List Expression) (record : Record) :
    (or parts).holds record = parts.any fun part => part.holds record := by
  rw [holds, resolve?, isTrue_some_bool, someHolds_eq_any]

@[simp] theorem holds_not (part : Expression) (record : Record) :
    (not part).holds record = !part.holds record := by
  rw [holds, resolve?, isTrue_some_bool, holds]

end Expression

end RecordQuery
