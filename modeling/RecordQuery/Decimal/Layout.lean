import RecordQuery.Decimal.Shortest

/-!
The layout of a double's shortest digits as text. A layout says which decimal exponents are written
out in place, what follows a whole number, and how zero, infinities and not-a-number are spelled.
-/

namespace RecordQuery

structure FloatLayout where
  tie : Tie
  /-- Whether a number `d.ddd * 10 ^ exponent` is written without an exponent mark. -/
  inPlace : Int → Bool
  /-- What follows the digits of a whole number that is written in place. -/
  wholeEnd : String
  notANumber : String
  infinity : String

namespace Decimal

def zeros (count : Nat) : String := String.ofList (List.replicate count '0')

/-- The digits with the point at its place; `point` counts the digits in front of it. -/
def inPlace (digits : List Char) (point : Int) (wholeEnd : String) : String :=
  if point ≤ 0 then "0." ++ zeros (-point).toNat ++ String.ofList digits
  else if digits.length ≤ point.toNat then
    String.ofList digits ++ zeros (point.toNat - digits.length) ++ wholeEnd
  else String.ofList (digits.take point.toNat) ++ "." ++ String.ofList (digits.drop point.toNat)

/-- One digit in front of the point, then the exponent with its sign. -/
def withExponent (digits : List Char) (exponent : Int) : String :=
  let fraction := digits.drop 1
  let sign := if exponent < 0 then "-" else "+"
  String.ofList (digits.take 1) ++ (if fraction.isEmpty then "" else "." ++ String.ofList fraction)
    ++ "e" ++ sign ++ toString exponent.natAbs

end Decimal

namespace FloatLayout

def isNegative (x : Float) : Bool := x.toBits >>> 63 == 1

def magnitude (layout : FloatLayout) (x : Float) : String :=
  if x == 0.0 then Decimal.inPlace ['0'] 1 layout.wholeEnd
  else
    let decimal := Decimal.shortest layout.tie x
    let digits := (toString decimal.significand).toList
    let point := digits.length + decimal.exponent
    if layout.inPlace (point - 1) then Decimal.inPlace digits point layout.wholeEnd
    else Decimal.withExponent digits (point - 1)

def write (layout : FloatLayout) (x : Float) : String :=
  if x.isNaN then layout.notANumber
  else
    let sign := if isNegative x then "-" else ""
    sign ++ if x.isInf then layout.infinity else layout.magnitude x

end FloatLayout

end RecordQuery
