import RecordQuery.Expression
import RecordQuery.Filter

/-!
Predicates, the conditions of a query over the fields of a record, and their two translations. Every
predicate has an expression, which a store evaluates on each record. Some have, for some bins, an
index filter as well, which narrows the candidates; no filter means that the records are scanned.
-/

namespace RecordQuery

/-- One end of a range. -/
structure Limit where
  value : Value
  inclusive : Bool

inductive Predicate where
  | equals (field : String) (value : Value)
  | notEquals (field : String) (value : Value)
  /-- Without limits: the field is known. -/
  | range (field : String) (lower upper : Option Limit)
  | isNull (field : String)
  | isNotNull (field : String)
  | member (field : String) (values : List Value) (negated : Bool)
  | and (parts : List Predicate)
  | or (parts : List Predicate)

namespace Predicate

def greaterThan (field : String) (value : Value) : Predicate := .range field (some ⟨value, false⟩) none

def atLeast (field : String) (value : Value) : Predicate := .range field (some ⟨value, true⟩) none

def lessThan (field : String) (value : Value) : Predicate := .range field none (some ⟨value, false⟩)

def atMost (field : String) (value : Value) : Predicate := .range field none (some ⟨value, true⟩)

def between (field : String) (lower upper : Value) : Predicate :=
  .range field (some ⟨lower, true⟩) (some ⟨upper, true⟩)

def operand (field : String) : Expression := if field = keyField then .key else .bin field

def known (field : String) : Expression := if field = keyField then .keyExists else .binExists field

def lowerBound (field : String) (limit : Limit) : Expression :=
  .compare (if limit.inclusive then .ge else .gt) (operand field) (.value limit.value)

def upperBound (field : String) (limit : Limit) : Expression :=
  .compare (if limit.inclusive then .le else .lt) (operand field) (.value limit.value)

mutual

def expression : Predicate → Expression
  | .equals field value => .compare .eq (operand field) (.value value)
  | .notEquals field value => .compare .ne (operand field) (.value value)
  | .range field none none => known field
  | .range field (some lower) none => lowerBound field lower
  | .range field none (some upper) => upperBound field upper
  | .range field (some lower) (some upper) =>
    .and [lowerBound field lower, upperBound field upper]
  | .isNull field => .not (known field)
  | .isNotNull field => known field
  | .member field values false => .oneOf (operand field) values
  -- an unknown field is no member and no non-member
  | .member field values true => .and [known field, .not (.oneOf (operand field) values)]
  | .and parts => .and (expressions parts)
  | .or parts => .or (expressions parts)

def expressions : List Predicate → List Expression
  | [] => []
  | part :: rest => part.expression :: expressions rest

end

/-- The first integer that a lower limit admits: none if it names no integer or lies at the end. -/
def firstInteger? : Option Limit → Option Int64
  | none => some Int64.minValue
  | some ⟨.int value, true⟩ => some value
  | some ⟨.int value, false⟩ => if value = Int64.maxValue then none else some (value + 1)
  | some _ => none

/-- The last integer that an upper limit admits. -/
def lastInteger? : Option Limit → Option Int64
  | none => some Int64.maxValue
  | some ⟨.int value, true⟩ => some value
  | some ⟨.int value, false⟩ => if value = Int64.minValue then none else some (value - 1)
  | some _ => none

def rangeFilter? (bin : String) (lower upper : Option Limit) : Option Filter := do
  guard (lower.isSome || upper.isSome)
  let first ← firstInteger? lower
  let last ← lastInteger? upper
  if first ≤ last then some (.between bin first last) else none

def integers? (values : List Value) : Option (List Int64) := values.mapM Value.int?

def least (first : Int64) (rest : List Int64) : Int64 :=
  rest.foldl (fun low n => if n < low then n else low) first

def greatest (first : Int64) (rest : List Int64) : Int64 :=
  rest.foldl (fun high n => if high < n then n else high) first

/-- Integers are narrowed to the range that they span, a single text to equality. -/
def memberFilter? (bin : String) (values : List Value) : Option Filter :=
  match integers? values with
  | some (first :: rest) => some (.between bin (least first rest) (greatest first rest))
  | some [] => none
  | none =>
    match values with
    | [.string text] => some (.equal bin (.string text))
    | _ => none

def equalFilter? (bin : String) : Value → Option Filter
  | .int n => some (.equal bin (.int n))
  | .string text => some (.equal bin (.string text))
  | _ => none

mutual

/-- The filter that narrows by the parts of the predicate on `bin`, for a bin and no other field. -/
def narrow? (bin : String) : Predicate → Option Filter
  | .equals field value => if field = bin then equalFilter? bin value else none
  | .range field lower upper => if field = bin then rangeFilter? bin lower upper else none
  | .member field values false => if field = bin then memberFilter? bin values else none
  | .and parts => Filter.intersectAll? (narrowings bin parts)
  | _ => none

def narrowings (bin : String) : List Predicate → List Filter
  | [] => []
  | part :: rest => (part.narrow? bin).toList ++ narrowings bin rest

end

/-- The index filter on `bin`, if an index on that bin can narrow the search. -/
def filter? (predicate : Predicate) (bin : String) : Option Filter :=
  if bin = keyField then none else predicate.narrow? bin

mutual

/-- The fields that the predicate compares, from left to right. Null checks compare nothing. -/
def comparedFields : Predicate → List String
  | .equals field _ => [field]
  | .notEquals field _ => [field]
  | .range field _ _ => [field]
  | .member field _ _ => [field]
  | .isNull _ => []
  | .isNotNull _ => []
  | .and parts => comparedFieldsIn parts
  | .or parts => comparedFieldsIn parts

def comparedFieldsIn : List Predicate → List String
  | [] => []
  | part :: rest => part.comparedFields ++ comparedFieldsIn rest

end

/-- The bins that the predicate compares, each once, in the order of first mention. -/
def binNames (predicate : Predicate) : List String :=
  (predicate.comparedFields.filter fun field => field != keyField).eraseDups

def isIndexable (predicate : Predicate) : Bool :=
  predicate.binNames.any fun bin => (predicate.filter? bin).isSome

mutual

/-- The predicate with every value that it compares with changed. -/
def mapValues (change : Value → Value) : Predicate → Predicate
  | .equals field value => .equals field (change value)
  | .notEquals field value => .notEquals field (change value)
  | .range field lower upper =>
    .range field (lower.map fun limit => { limit with value := change limit.value })
      (upper.map fun limit => { limit with value := change limit.value })
  | .isNull field => .isNull field
  | .isNotNull field => .isNotNull field
  | .member field values negated => .member field (values.map change) negated
  | .and parts => .and (mapValuesIn change parts)
  | .or parts => .or (mapValuesIn change parts)

def mapValuesIn (change : Value → Value) : List Predicate → List Predicate
  | [] => []
  | part :: rest => part.mapValues change :: mapValuesIn change rest

end

def limitText (field symbol : String) (limit : Limit) : String :=
  field ++ " " ++ symbol ++ " " ++ limit.value.text

def lowerText (field : String) (limit : Limit) : String :=
  limitText field (if limit.inclusive then ">=" else ">") limit

def upperText (field : String) (limit : Limit) : String :=
  limitText field (if limit.inclusive then "<=" else "<") limit

mutual

/-- The predicate as shown to people. -/
def text : Predicate → String
  | .equals field value => field ++ " = " ++ value.text
  | .notEquals field value => field ++ " <> " ++ value.text
  | .range field none none => field ++ " IS NOT NULL"
  | .range field (some lower) none => lowerText field lower
  | .range field none (some upper) => upperText field upper
  | .range field (some lower) (some upper) => lowerText field lower ++ " AND " ++ upperText field upper
  | .isNull field => field ++ " IS NULL"
  | .isNotNull field => field ++ " IS NOT NULL"
  | .member field values negated =>
    field ++ " " ++ (if negated then "NOT " else "") ++ "IN ("
      ++ String.intercalate ", " (values.map Value.text) ++ ")"
  | .and parts => String.intercalate " AND " (bracketed parts)
  | .or parts => String.intercalate " OR " (bracketed parts)

def bracketed : List Predicate → List String
  | [] => []
  | part :: rest => ("(" ++ part.text ++ ")") :: bracketed rest

end

end Predicate

end RecordQuery
