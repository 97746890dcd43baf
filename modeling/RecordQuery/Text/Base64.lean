import RecordQuery.Bytes

/-!
The standard base64 form of bytes: four characters for three bytes, the last group filled up with
`=`.
-/

namespace RecordQuery.Text

def base64Alphabet : List Char :=
  "ABCDEFGHIJKLMNOPQRSTUVWXYZabcdefghijklmnopqrstuvwxyz0123456789+/".toList

/-- The character for six bits of a group, of which the lowest `shift` bits are left out. -/
def sextet (group shift : Nat) : Char := base64Alphabet.getD ((group >>> shift) % 64) '='

def base64 : List UInt8 → List Char
  | [] => []
  | [a] =>
    let group := Bytes.ofBigEndian [a, 0, 0]
    [sextet group 18, sextet group 12, '=', '=']
  | [a, b] =>
    let group := Bytes.ofBigEndian [a, b, 0]
    [sextet group 18, sextet group 12, sextet group 6, '=']
  | a :: b :: c :: rest =>
    let group := Bytes.ofBigEndian [a, b, c]
    sextet group 18 :: sextet group 12 :: sextet group 6 :: sextet group 0 :: base64 rest

end RecordQuery.Text
