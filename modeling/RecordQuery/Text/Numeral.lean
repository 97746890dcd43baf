/-!
Unsigned decimal numerals of bounded size. A numeral is one or more digits after an optional plus
sign; reading goes from left to right and reports the first fault.
-/

namespace RecordQuery.Text

inductive NumeralError where
  | empty
  | invalidDigit
  | tooLarge
  deriving DecidableEq, Repr

def NumeralError.message : NumeralError → String
  | .empty => "cannot parse integer from empty string"
  | .invalidDigit => "invalid digit found in string"
  | .tooLarge => "number too large to fit in target type"

def digit? (c : Char) : Option Nat :=
  if '0' ≤ c ∧ c ≤ '9' then some (c.toNat - '0'.toNat) else none

/-- Continues a numeral whose digits so far have the value `value`. -/
def readDigits (bound value : Nat) : List Char → Except NumeralError Nat
  | [] => .ok value
  | c :: rest =>
    match digit? c with
    | none => .error .invalidDigit
    | some digit =>
      let next := value * 10 + digit
      if next < bound then readDigits bound next rest else .error .tooLarge

/-- Reads a numeral whose value lies below `bound`. -/
def readUnsigned (bound : Nat) (text : String) : Except NumeralError Nat :=
  match text.toList with
  | [] => .error .empty
  | ['+'] => .error .invalidDigit
  | '+' :: digits => readDigits bound 0 digits
  | digits => readDigits bound 0 digits

end RecordQuery.Text
