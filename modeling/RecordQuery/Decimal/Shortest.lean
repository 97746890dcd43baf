/-!
The shortest decimal form of a double: of all decimals that read back as the double, one with the
fewest digits, and of those the nearest; where two are equally near, a rule for ties decides. The
search is exact. A double is written `m * 2 ^ e`, the reals that round to it form an interval around
it (closed when `m` is even), and for 1, 2, … 17 digits the double's two neighbours on that decimal
grid are tested; the first grid with a neighbour in the interval decides.
-/

namespace RecordQuery

/-- Which of two equally near decimals is taken. -/
inductive Tie where
  | up
  | toEven
  deriving DecidableEq, Repr

/-- Whether a tie between `below` and its successor goes to the successor. -/
def Tie.goesUp : Tie → Nat → Bool
  | .up, _ => true
  | .toEven, below => below % 2 = 1

/-- The positive number `significand * 10 ^ exponent`. -/
structure Decimal where
  significand : Nat
  exponent : Int
  deriving DecidableEq, Repr

namespace Decimal

/-- The least mantissa that fills the 53 bits of a double. -/
def leastFullMantissa : Nat := 1 <<< 52

/-- The magnitude of a finite double as `(m, e)`, read `m * 2 ^ e`. -/
def binaryParts (x : Float) : Nat × Int :=
  let biased : Nat := ((x.toBits >>> 52) &&& 0x7ff).toNat
  let fraction : Nat := (x.toBits &&& 0xfffffffffffff).toNat
  if biased = 0 then (fraction, -1074) else (leastFullMantissa + fraction, (biased : Int) - 1075)

/-- A nonnegative rational number, written with a positive denominator. -/
structure Ratio where
  numerator : Nat
  denominator : Nat

/-- The number `factor * base ^ exponent`. -/
def Ratio.scaled (factor base : Nat) (exponent : Int) : Ratio :=
  if 0 ≤ exponent then ⟨factor * Nat.pow base exponent.toNat, 1⟩
  else ⟨factor, Nat.pow base (-exponent).toNat⟩

def Ratio.le (a b : Ratio) : Bool := a.numerator * b.denominator ≤ b.numerator * a.denominator

def Ratio.lt (a b : Ratio) : Bool := a.numerator * b.denominator < b.numerator * a.denominator

/-- The reals that round to a double: its ends, and whether they belong to it. -/
structure Interval where
  low : Ratio
  high : Ratio
  closed : Bool

/-- The ends lie half a unit away, written in quarters of a unit: below a power of two the doubles
stand twice as close, so the lower end is nearer there. -/
def Interval.around (parts : Nat × Int) : Interval :=
  let (mantissa, exponent) := parts
  let nearer := mantissa = leastFullMantissa ∧ -1074 < exponent
  { low := .scaled (4 * mantissa - if nearer then 1 else 2) 2 (exponent - 2)
    high := .scaled (4 * mantissa + 2) 2 (exponent - 2)
    closed := mantissa % 2 = 0 }

def Interval.contains (interval : Interval) (value : Ratio) : Bool :=
  if interval.closed then interval.low.le value && value.le interval.high
  else interval.low.lt value && value.lt interval.high

/-- The least `k` with `value < 10 ^ k`, for a positive value in the range of the doubles. -/
def magnitude (value : Ratio) : Int :=
  let guess := ((value.numerator.log2 : Int) - value.denominator.log2 - 1) * 30103 / 100000
  let steps : List Int := [-1, 0, 1, 2, 3]
  let candidates := steps.map (guess + ·)
  (candidates.find? fun k => value.lt (.scaled 1 10 k)).getD (guess + 4)

/-- The neighbours of `value` on the grid of multiples of `10 ^ exponent` that lie in the interval;
of two the nearer. -/
def onGrid (tie : Tie) (interval : Interval) (value : Ratio) (exponent : Int) : Option Decimal :=
  let grid := Ratio.scaled 1 10 exponent
  let top := value.numerator * grid.denominator
  let bottom := value.denominator * grid.numerator
  let below := top / bottom
  let inside (count : Nat) := interval.contains (.scaled count 10 exponent)
  let twice := 2 * (top % bottom)
  let nearerBelow := twice < bottom || (twice == bottom && !tie.goesUp below)
  if inside below && (nearerBelow || !inside (below + 1)) then some ⟨below, exponent⟩
  else if inside (below + 1) then some ⟨below + 1, exponent⟩
  else none

/-- Moves the zeros at the end of the significand into the exponent. -/
def normalize (fuel : Nat) (decimal : Decimal) : Decimal :=
  match fuel with
  | 0 => decimal
  | fuel + 1 =>
    if decimal.significand % 10 = 0 then
      normalize fuel ⟨decimal.significand / 10, decimal.exponent + 1⟩
    else decimal

/-- The shortest form of the magnitude of a finite double other than zero. Seventeen digits always
suffice, and a decimal of at most eighteen digits loses at most eighteen zeros. -/
def shortest (tie : Tie) (x : Float) : Decimal :=
  let parts := binaryParts x
  let interval := Interval.around parts
  let value := Ratio.scaled parts.1 2 parts.2
  let point := magnitude value
  let found := (List.range 17).findSome? fun (n : Nat) => onGrid tie interval value (point - (n + 1))
  normalize 18 (found.getD ⟨parts.1, 0⟩)

end Decimal

end RecordQuery
