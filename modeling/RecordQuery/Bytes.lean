/-!
Numbers as lists of bytes, the most significant byte first. Main statement: reading what was written
gives the number back, as far as the bytes have room for it.
-/

namespace RecordQuery.Bytes

/-- The lowest `size` bytes of a number. -/
def bigEndian : Nat → Nat → List UInt8
  | 0, _ => []
  | size + 1, value => bigEndian size (value / 256) ++ [UInt8.ofNat (value % 256)]

def ofBigEndian (bytes : List UInt8) : Nat :=
  bytes.foldl (fun value byte => value * 256 + byte.toNat) 0

@[simp] theorem length_bigEndian (size value : Nat) : (bigEndian size value).length = size := by
  induction size generalizing value with
  | zero => rfl
  | succ size ih => simp [bigEndian, ih]

theorem ofBigEndian_concat (bytes : List UInt8) (last : UInt8) :
    ofBigEndian (bytes ++ [last]) = ofBigEndian bytes * 256 + last.toNat := by
  simp [ofBigEndian]

theorem ofBigEndian_bigEndian (size value : Nat) :
    ofBigEndian (bigEndian size value) = value % Nat.pow 256 size := by
  induction size generalizing value with
  | zero => exact (Nat.mod_one value).symm
  | succ size ih =>
    have low : (UInt8.ofNat (value % 256)).toNat = value % 256 := by
      rw [UInt8.toNat_ofNat', Nat.mod_mod]
    rw [bigEndian, ofBigEndian_concat, ih, low, Nat.pow_eq, Nat.pow_eq, Nat.pow_succ',
      Nat.mod_mul, Nat.mul_comm, Nat.add_comm]

end RecordQuery.Bytes
