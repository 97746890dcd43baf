import RecordQuery.Json.Numeral
import RecordQuery.Text.Hex
import RecordQuery.Text.Numeral

/-!
Reading JSON texts. The grammar is the strict one: no trailing commas, no leading zeros, no raw
control characters, and of blanks only space, tab, line feed and carriage return. Containers nested
more than `maxDepth` deep, numbers beyond the doubles and halves of surrogate pairs are grammatical
but unreadable.
-/

namespace RecordQuery.Json.Reader

open RecordQuery.Text (digit? hexDigit?)

def maxDepth : Nat := 127

def skipBlanks (text : List Char) : List Char :=
  text.dropWhile fun c => c = ' ' || c = '\t' || c = '\n' || c = '\r'

/-- A piece of a string: a character, or a UTF-16 unit written as an escape. -/
inductive Piece where
  | char (c : Char)
  | unit (code : Nat)

def escape? : Char → Option Char
  | '"' => some '"'
  | '\\' => some '\\'
  | '/' => some '/'
  | 'b' => some '\x08'
  | 'f' => some '\x0c'
  | 'n' => some '\n'
  | 'r' => some '\r'
  | 't' => some '\t'
  | _ => none

/-- The pieces of a string up to its closing quote, after the opening one. -/
def pieces (found : List Piece) : List Char → Option (List Piece × List Char)
  | [] => none
  | '"' :: rest => some (found.reverse, rest)
  | '\\' :: 'u' :: a :: b :: c :: d :: rest =>
    match hexDigit? a, hexDigit? b, hexDigit? c, hexDigit? d with
    | some a, some b, some c, some d =>
      pieces (.unit (((a * 16 + b) * 16 + c) * 16 + d) :: found) rest
    | _, _, _, _ => none
  | '\\' :: c :: rest =>
    match escape? c with
    | some c => pieces (.char c :: found) rest
    | none => none
  | c :: rest => if c < ' ' then none else pieces (.char c :: found) rest

/-- The characters that the pieces denote: an escaped leading surrogate needs an escaped trailing
one right after it. -/
def characters? (found : List Char) : List Piece → Option (List Char)
  | [] => some found.reverse
  | .char c :: rest => characters? (c :: found) rest
  | .unit lead :: .unit trail :: rest =>
    if 0xD800 ≤ lead ∧ lead < 0xDC00 then
      if 0xDC00 ≤ trail ∧ trail < 0xE000 then
        let code := 0x10000 + (lead - 0xD800) * 0x400 + (trail - 0xDC00)
        characters? (Char.ofNat code :: found) rest
      else none
    else if 0xDC00 ≤ lead ∧ lead < 0xE000 then none
    else characters? (Char.ofNat lead :: found) (.unit trail :: rest)
  | .unit code :: rest =>
    if 0xD800 ≤ code ∧ code < 0xE000 then none else characters? (Char.ofNat code :: found) rest

/-- A string after its opening quote; no value if it obeys the grammar and denotes no text. -/
def string (text : List Char) : Option (Option String × List Char) := do
  let (found, rest) ← pieces [] text
  return ((characters? [] found).map String.ofList, rest)

def digits (text : List Char) : List Nat × List Char :=
  ((text.takeWhile Char.isDigit).filterMap digit?, text.dropWhile Char.isDigit)

/-- Whether a minus sign stands in front. -/
def minus : List Char → Bool × List Char
  | '-' :: rest => (true, rest)
  | text => (false, text)

/-- The whole part of a number: at least one digit, and no zero in front of others. -/
def whole (text : List Char) : Option (List Nat × List Char) :=
  let (found, rest) := digits text
  if found.isEmpty || (found.head? = some 0 && found.length ≠ 1) then none else some (found, rest)

/-- The fraction of a number, if one is written. -/
def fraction : List Char → Option (List Nat × List Char)
  | '.' :: text =>
    let (found, rest) := digits text
    if found.isEmpty then none else some (found, rest)
  | text => some ([], text)

/-- The exponent of a number, if one is written. -/
def exponent (text : List Char) : Option (Option Int × List Char) :=
  match text with
  | mark :: rest =>
    if mark = 'e' ∨ mark = 'E' then
      let (negative, rest) :=
        match rest with
        | '+' :: rest => (false, rest)
        | '-' :: rest => (true, rest)
        | rest => (false, rest)
      let (found, rest) := digits rest
      if found.isEmpty then none
      else some (some (if negative then -ofDigits found else ofDigits found), rest)
    else some (none, text)
  | [] => some (none, text)

def numeral (text : List Char) : Option (Numeral × List Char) := do
  let (negative, text) := minus text
  let (whole, text) ← whole text
  let (fraction, text) ← fraction text
  let (exponent, rest) ← exponent text
  return ({ negative, whole, fraction, exponent }, rest)

def number (text : List Char) : Option (Document × List Char) :=
  (numeral text).map fun (numeral, rest) => (numeral.document, rest)

def literal (word : List Char) (value : Document) (text : List Char) :
    Option (Document × List Char) :=
  if word.isPrefixOf text then some (value, text.drop word.length) else none

mutual

/-- A value with the text after it. `fuel` bounds the recursion and `depth` the containers that may
still be opened. -/
def value (fuel depth : Nat) (text : List Char) : Option (Document × List Char) :=
  match fuel with
  | 0 => none
  | fuel + 1 =>
    match skipBlanks text with
    | '"' :: rest => do
      let (found, rest) ← string rest
      return (found.elim .unreadable .string, rest)
    | '[' :: rest => do
      let (items, rest) ←
        match skipBlanks rest with
        | ']' :: rest => some ([], rest)
        | rest => elements fuel (depth - 1) rest
      return (if depth = 0 then .unreadable else .array items, rest)
    | '\x7b' :: rest => do
      let (fields, rest) ←
        match skipBlanks rest with
        | '\x7d' :: rest => some (some [], rest)
        | rest => members fuel (depth - 1) rest
      return (if depth = 0 then .unreadable else fields.elim .unreadable .object, rest)
    | 't' :: rest => literal "rue".toList (.bool true) rest
    | 'f' :: rest => literal "alse".toList (.bool false) rest
    | 'n' :: rest => literal "ull".toList .null rest
    | text => number text

/-- The elements of an array up to its closing bracket. -/
def elements (fuel depth : Nat) (text : List Char) : Option (List Document × List Char) :=
  match fuel with
  | 0 => none
  | fuel + 1 => do
    let (first, rest) ← value fuel depth text
    match skipBlanks rest with
    | ',' :: rest =>
      let (others, rest) ← elements fuel depth rest
      return (first :: others, rest)
    | ']' :: rest => return ([first], rest)
    | _ => none

/-- The fields of an object up to its closing brace; no value if a name denotes no text. -/
def members (fuel depth : Nat) (text : List Char) :
    Option (Option (List (String × Document)) × List Char) :=
  match fuel with
  | 0 => none
  | fuel + 1 =>
    match skipBlanks text with
    | '"' :: rest => do
      let (name, rest) ← string rest
      match skipBlanks rest with
      | ':' :: rest =>
        let (first, rest) ← value fuel depth rest
        let field := name.map fun name => (name, first)
        match skipBlanks rest with
        | ',' :: rest =>
          let (others, rest) ← members fuel depth rest
          return (field.bind fun field => others.map (field :: ·), rest)
        | '\x7d' :: rest => return (field.map ([·]), rest)
        | _ => none
      | _ => none
    | _ => none

end

end Json.Reader

/-- The document that a whole text holds. Each character read allows at most two steps. -/
def Document.parse (text : String) : Option Document := do
  let characters := text.toList
  let (document, rest) ← Json.Reader.value (2 * characters.length + 2) Json.Reader.maxDepth characters
  guard (Json.Reader.skipBlanks rest).isEmpty
  return document

def Json.parse (text : String) : Option Json := (Document.parse text).bind Document.json?

end RecordQuery
