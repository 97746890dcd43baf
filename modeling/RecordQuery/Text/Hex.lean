/-!
Bytes as hexadecimal digits, two for each byte, the higher one first. Digits are written in lower
case and read in either case. Main statement: what is written reads back.
-/

namespace RecordQuery.Text

def hexDigit (n : Nat) : Char := "0123456789abcdef".toList.getD n '0'

def hexDigit? (c : Char) : Option Nat :=
  if '0' ≤ c ∧ c ≤ '9' then some (c.toNat - '0'.toNat)
  else if 'a' ≤ c ∧ c ≤ 'f' then some (c.toNat - 'a'.toNat + 10)
  else if 'A' ≤ c ∧ c ≤ 'F' then some (c.toNat - 'A'.toNat + 10)
  else none

def hex (bytes : List UInt8) : List Char :=
  bytes.flatMap fun byte => [hexDigit (byte.toNat / 16), hexDigit (byte.toNat % 16)]

def ofHex? : List Char → Option (List UInt8)
  | [] => some []
  | [_] => none
  | high :: low :: rest => do
    let first := UInt8.ofNat ((← hexDigit? high) * 16 + (← hexDigit? low))
    return first :: (← ofHex? rest)

theorem hexDigit?_hexDigit {n : Nat} (small : n < 16) : hexDigit? (hexDigit n) = some n := by
  revert n
  decide

@[simp] theorem ofHex?_hex (bytes : List UInt8) : ofHex? (hex bytes) = some bytes := by
  induction bytes with
  | nil => rfl
  | cons byte rest ih =>
    have bound := byte.toNat_lt
    have high : hexDigit? (hexDigit (byte.toNat / 16)) = some (byte.toNat / 16) :=
      hexDigit?_hexDigit (by omega)
    have low : hexDigit? (hexDigit (byte.toNat % 16)) = some (byte.toNat % 16) :=
      hexDigit?_hexDigit (by omega)
    have whole : byte.toNat / 16 * 16 + byte.toNat % 16 = byte.toNat := by omega
    have step : hex (byte :: rest) =
      hexDigit (byte.toNat / 16) :: hexDigit (byte.toNat % 16) :: hex rest := rfl
    rw [step, ofHex?, high, low, Option.bind_eq_bind, Option.bind_some, Option.bind_eq_bind,
      Option.bind_some, whole, ih, UInt8.ofNat_toNat]
    rfl

end RecordQuery.Text
