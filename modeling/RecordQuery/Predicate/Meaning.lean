import RecordQuery.Predicate.Basic

/-!
What a predicate says of a record, stated on the known values of its fields and without the
translation into expressions: a comparison holds of known fields only, and a null check asks whether
the field is known.
-/

namespace RecordQuery

namespace Limit

def admitsBelow (limit : Limit) (actual : Value) : Bool :=
  match actual.compare? limit.value with
  | some .gt => true
  | some .eq => limit.inclusive
  | _ => false

def admitsAbove (limit : Limit) (actual : Value) : Bool :=
  match actual.compare? limit.value with
  | some .lt => true
  | some .eq => limit.inclusive
  | _ => false

end Limit

namespace Predicate

mutual

def holds (record : Record) : Predicate → Bool
  | .equals field value => (record.field? field).any fun actual => actual.equalTo value
  | .notEquals field value => (record.field? field).any fun actual => !actual.equalTo value
  | .range field lower upper =>
    (record.field? field).any fun actual =>
      lower.all (fun limit => limit.admitsBelow actual)
        && upper.all (fun limit => limit.admitsAbove actual)
  | .isNull field => (record.field? field).isNone
  | .isNotNull field => (record.field? field).isSome
  | .member field values negated =>
    (record.field? field).any fun actual => values.any actual.equalTo != negated
  | .and parts => allHold record parts
  | .or parts => someHolds record parts

def allHold (record : Record) : List Predicate → Bool
  | [] => true
  | part :: rest => part.holds record && allHold record rest

def someHolds (record : Record) : List Predicate → Bool
  | [] => false
  | part :: rest => part.holds record || someHolds record rest

end

end Predicate

end RecordQuery
