import RecordQuery.Decimal.Layout
import RecordQuery.Json.Basic
import RecordQuery.Text.Hex

/-!
Writing JSON values without blanks. Inside a string the quote, the backslash and the control
characters are escaped, everything else is written as it is.
-/

namespace RecordQuery.Json

/-- Doubles keep a `.0`, stand in place for exponents from -5 to 15, and are null when no number. -/
def floatLayout : FloatLayout where
  tie := .toEven
  inPlace exponent := -5 ≤ exponent && exponent ≤ 15
  wholeEnd := ".0"
  notANumber := "null"
  infinity := "null"

def writeFloat (x : Float) : String := if x.isFinite then floatLayout.write x else "null"

def escape (c : Char) : List Char :=
  if c = '"' then ['\\', '"']
  else if c = '\\' then ['\\', '\\']
  else if c = '\x08' then ['\\', 'b']
  else if c = '\x0c' then ['\\', 'f']
  else if c = '\n' then ['\\', 'n']
  else if c = '\r' then ['\\', 'r']
  else if c = '\t' then ['\\', 't']
  else if c < ' ' then
    ['\\', 'u', '0', '0', Text.hexDigit (c.toNat / 16), Text.hexDigit (c.toNat % 16)]
  else [c]

def quote (text : String) : String := "\"" ++ String.ofList (text.toList.flatMap escape) ++ "\""

mutual

def write : Json → String
  | .null => "null"
  | .bool true => "true"
  | .bool false => "false"
  | .int n => toString n
  | .float x => writeFloat x
  | .string text => quote text
  | .array items => "[" ++ String.intercalate "," (writeItems items) ++ "]"
  | .object fields => "\x7b" ++ String.intercalate "," (writeFields fields) ++ "\x7d"

def writeItems : List Json → List String
  | [] => []
  | item :: rest => item.write :: writeItems rest

def writeFields : List (String × Json) → List String
  | [] => []
  | (name, value) :: rest => (quote name ++ ":" ++ value.write) :: writeFields rest

end

end RecordQuery.Json
