import RecordQuery.Address.Key

/-!
Records as a store delivers them, and the field names by which a query speaks of them. A field is a
bin, or the user key under a reserved name.
-/

namespace RecordQuery

structure Record where
  /-- The key, if the store kept the user key. -/
  key : Option Key
  bins : Fields Value
  generation : UInt32
  /-- Zero for records that never expire. -/
  expiration : UInt32 := 0

/-- The field name that stands for the user key. -/
def keyField : String := "__key"

namespace Record

def bin? (record : Record) (name : String) : Option Value := record.bins.get? name

/-- The value of a bin, which is unknown where the bin is missing or nil. -/
def knownBin? (record : Record) (name : String) : Option Value :=
  (record.bin? name).filter fun value => !value.isNil

def userKey? (record : Record) : Option Value := record.key.map fun key => key.user.value

/-- The known value of a field. -/
def field? (record : Record) (name : String) : Option Value :=
  if name = keyField then record.userKey? else record.knownBin? name

end Record

end RecordQuery
