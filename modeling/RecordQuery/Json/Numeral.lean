import RecordQuery.Json.Basic

/-!
Numbers as they stand in JSON texts, and what is read for them. A number without fraction and exponent
is an integer where 64 bits can hold it. Every other one is a double: its significand takes as many of
the digits as 64 bits can hold, and is then multiplied or divided by a power of ten. The significand,
the power and the result are each rounded, so what is read may be a neighbour of the nearest double.
-/

namespace RecordQuery.Json

def ofDigits (digits : List Nat) : Nat := digits.foldl (fun value digit => value * 10 + digit) 0

/-- A number as it is written; the fraction has no digits where none is written. -/
structure Numeral where
  negative : Bool
  whole : List Nat
  fraction : List Nat
  exponent : Option Int
  deriving DecidableEq, Repr

namespace Numeral

/-- An integer that 64 bits can hold, without a sign or, if negative, with one. Minus zero is not an
integer. -/
def integer? (numeral : Numeral) : Option Int :=
  let size : Int := ofDigits numeral.whole
  if !numeral.fraction.isEmpty || numeral.exponent.isSome then none
  else if numeral.negative then
    if 0 < size ∧ Int64.minValue.toInt ≤ -size then some (-size) else none
  else if size < UInt64.size then some size
  else none

/-- Goes on with a significand while 64 bits can hold it; also what is left of the digits. -/
def accumulate (significand : Nat) : List Nat → Nat × List Nat
  | [] => (significand, [])
  | digit :: rest =>
    let next := significand * 10 + digit
    if next < UInt64.size then accumulate next rest else (significand, digit :: rest)

/-- The significand, and the exponent of ten that goes with it. Each digit of the whole part that was
left out counts for the exponent, and each digit of the fraction that was taken counts against it. -/
def scientific (numeral : Numeral) : Nat × Int :=
  let (significand, left) := accumulate 0 numeral.whole
  let (significand, cut) := accumulate significand numeral.fraction
  let taken := numeral.fraction.length - cut.length
  (significand, left.length - taken + numeral.exponent.getD 0)

/-- The greatest power of ten that is a double. -/
def greatestPower : Nat := 308

def powerOfTen (exponent : Nat) : Float := Float.ofScientific 1 false exponent

/-- The double for `x * 10 ^ exponent`, unless that is infinite. What is too small for one division is
divided by the greatest power first. -/
def scale (x : Float) (exponent : Int) : Option Float :=
  if exponent.natAbs ≤ greatestPower then
    if 0 ≤ exponent then
      let product := x * powerOfTen exponent.natAbs
      if product.isInf then none else some product
    else some (x / powerOfTen exponent.natAbs)
  else if x == 0.0 then some x
  else if 0 ≤ exponent then none
  else scale (x / powerOfTen greatestPower) (exponent + greatestPower)
termination_by exponent.natAbs
decreasing_by
  simp only [greatestPower] at *
  omega

def float? (numeral : Numeral) : Option Float :=
  let (significand, exponent) := numeral.scientific
  (scale significand.toUInt64.toFloat exponent).map fun x => if numeral.negative then -x else x

/-- What is read for a number. -/
def document (numeral : Numeral) : Document :=
  match numeral.integer? with
  | some n => .int n
  | none => numeral.float?.elim .unreadable .float

example : (float? ⟨false, [5, 1], [2, 4, 8, 1, 7, 8, 3, 7, 5, 5, 0, 5, 4, 0, 4], none⟩).map Float.toBits =
    some 0x40499fc44f1b2f61 := by decide +kernel

end Numeral

end RecordQuery.Json
