import RecordQuery.Bytes
import RecordQuery.Text.Hex
import RecordQuery.Value.Basic

/-!
Values in which bytes and doubles are spelled out, so that JSON can hold them without loss. A map
with the single field `$blob` stands for bytes, given by their hexadecimal digits; one with the single
field `$float` stands for a double, given by the digits of its 64 bits or by a name. All values that
are not numbers are spelled alike.
-/

namespace RecordQuery.Value

def blobTag : String := "$blob"

def floatTag : String := "$float"

def floatName (x : Float) : String :=
  if x.isNaN then "nan"
  else String.ofList (Text.hex (Bytes.bigEndian 8 x.toBits.toNat))

def floatOfName? (name : String) : Option Float :=
  if name = "nan" then some (0.0 / 0.0)
  else if name = "inf" then some (1.0 / 0.0)
  else if name = "-inf" then some (-1.0 / 0.0)
  else if name.length = 16 then
    (Text.ofHex? name.toList).map fun bytes => .ofBits (UInt64.ofNat (Bytes.ofBigEndian bytes))
  else none

mutual

/-- Spells out the bytes and doubles in a value. -/
def tagged : Value → Value
  | .float x => .map [(floatTag, .string (floatName x))]
  | .blob bytes => .map [(blobTag, .string (String.ofList (Text.hex bytes)))]
  | .list items => .list (taggedItems items)
  | .map fields => .map (taggedFields fields)
  | other => other

def taggedItems : List Value → List Value
  | [] => []
  | item :: rest => item.tagged :: taggedItems rest

def taggedFields : List (String × Value) → List (String × Value)
  | [] => []
  | (name, value) :: rest => (name, value.tagged) :: taggedFields rest

end

/-- What a map with this single field stands for, if it spells something out. -/
def spelled? (name : String) : Value → Option Value
  | .string text =>
    if name = blobTag then (Text.ofHex? text.toList).map .blob
    else if name = floatTag then (floatOfName? text).map .float
    else none
  | _ => none

mutual

/-- Puts bytes and doubles in the place of the maps that spell them out. -/
def untagged : Value → Value
  | .list items => .list (untaggedItems items)
  | .map [(name, value)] => (spelled? name value).getD (.map [(name, value.untagged)])
  | .map fields => .map (untaggedFields fields)
  | other => other

def untaggedItems : List Value → List Value
  | [] => []
  | item :: rest => item.untagged :: untaggedItems rest

def untaggedFields : List (String × Value) → List (String × Value)
  | [] => []
  | (name, value) :: rest => (name, value.untagged) :: untaggedFields rest

end

end RecordQuery.Value
