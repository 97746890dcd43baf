import RecordQuery.Address.Partition
import RecordQuery.Digest.Sha256
import RecordQuery.Value.Basic

/-!
Record keys. A record is addressed by its namespace, its set and a user key, which is an integer, a
text or bytes. The digest of set and user key decides the partition in which the record lives; the
namespace takes no part in it.
-/

namespace RecordQuery

/-- A set of records with the namespace that it belongs to. -/
structure TableName where
  space : String
  set : String
  deriving DecidableEq, Repr

instance : Ord TableName := ⟨compareLex (compareOn TableName.space) (compareOn TableName.set)⟩

instance : Std.TransOrd TableName :=
  inferInstanceAs <| Std.TransCmp (compareLex (compareOn TableName.space) (compareOn TableName.set))

instance : Std.LawfulEqOrd TableName where
  eq_of_compare {a b} same := by
    obtain ⟨space, set⟩ := a
    obtain ⟨space', set'⟩ := b
    simp only [compare, compareLex, compareOn, Ordering.then_eq_eq] at same
    have space_eq : space = space' := Std.LawfulEqOrd.eq_of_compare same.1
    have set_eq : set = set' := Std.LawfulEqOrd.eq_of_compare same.2
    rw [space_eq, set_eq]

inductive UserKey where
  | int (value : Int64)
  | string (value : String)
  | blob (bytes : List UInt8)
  deriving DecidableEq

namespace UserKey

def value : UserKey → Value
  | .int n => .int n
  | .string text => .string text
  | .blob bytes => .blob bytes

def ofValue? : Value → Option UserKey
  | .int n => some (.int n)
  | .string text => some (.string text)
  | .blob bytes => some (.blob bytes)
  | _ => none

/-- Tells the three kinds of keys apart in a digest. -/
def tag : UserKey → UInt8
  | .int _ => 1
  | .string _ => 3
  | .blob _ => 4

def bytes : UserKey → List UInt8
  | .int n => Bytes.bigEndian 8 n.toUInt64.toNat
  | .string text => text.toUTF8.data.toList
  | .blob bytes => bytes

@[simp] theorem ofValue?_value (key : UserKey) : ofValue? key.value = some key := by
  cases key <;> rfl

end UserKey

structure Key where
  table : TableName
  user : UserKey
  deriving DecidableEq

namespace Key

/-- What the digest is taken of: the set, the kind of the user key, and its bytes. -/
def preimage (key : Key) : List UInt8 :=
  key.table.set.toUTF8.data.toList ++ key.user.tag :: key.user.bytes

/-- The first twenty bytes of the hash. -/
def digest (key : Key) : List UInt8 := (Sha256.hash key.preimage).take 20

/-- The partition that the first two bytes of a digest name. -/
def partitionOf (digest : List UInt8) : UInt16 :=
  UInt16.ofNat (((digest.getD 0 0).toNat + 256 * (digest.getD 1 0).toNat) % partitionCount)

def partition (key : Key) : UInt16 := partitionOf key.digest

theorem partition_lt (key : Key) : key.partition.toNat < partitionCount := by
  have := Nat.mod_lt ((key.digest.getD 0 0).toNat + 256 * (key.digest.getD 1 0).toNat)
    (show partitionCount > 0 by decide)
  simp only [partition, partitionOf, partitionCount, UInt16.toNat_ofNat'] at *
  omega

end Key

/-- Why a record or a range of partitions cannot be addressed. -/
inductive AddressError where
  | unsupportedKey (value : Value)
  | offsetOutOfRange (offset : UInt64)

namespace AddressError

def message : AddressError → String
  | .unsupportedKey value =>
    "primary key of type " ++ value.typeName ++ " is not supported: " ++ value.text
  | .offsetOutOfRange offset =>
    "offset " ++ toString offset.toNat ++ " exceeds partition count " ++ toString partitionCount

end AddressError

def Key.ofValue (table : TableName) (value : Value) : Except AddressError Key :=
  match UserKey.ofValue? value with
  | some user => .ok ⟨table, user⟩
  | none => .error (.unsupportedKey value)

def PartitionRange.startingAt (offset : UInt64) : Except AddressError PartitionRange :=
  match startingAt? offset with
  | some range => .ok range
  | none => .error (.offsetOutOfRange offset)

end RecordQuery
