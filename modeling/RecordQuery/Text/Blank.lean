/-!
Blank characters, the characters with the Unicode property `White_Space`, and the removal of blanks
around a text.
-/

namespace RecordQuery.Text

/-- The ranges of `White_Space`, first and last character of each. -/
def blankRanges : List (Nat × Nat) :=
  [(0x09, 0x0D), (0x20, 0x20), (0x85, 0x85), (0xA0, 0xA0), (0x1680, 0x1680), (0x2000, 0x200A),
   (0x2028, 0x2029), (0x202F, 0x202F), (0x205F, 0x205F), (0x3000, 0x3000)]

def isBlank (c : Char) : Bool :=
  blankRanges.any fun range => range.1 ≤ c.toNat && c.toNat ≤ range.2

def dropBlanks (text : List Char) : List Char := text.dropWhile isBlank

def trim (text : String) : String :=
  String.ofList (dropBlanks (dropBlanks text.toList).reverse).reverse

end RecordQuery.Text
