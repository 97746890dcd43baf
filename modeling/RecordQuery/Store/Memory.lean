import Std.Data.TreeMap
import RecordQuery.Store.Basic

/-!
A store that keeps its records in memory. The records of a table are ordered by partition and
digest, and are scanned in that order. One failure of a point read and one of a delivery can be
ordered in advance; the store also remembers the last scan and the last index query that it was
asked for, and how many records it has handed out.
-/

namespace RecordQuery

/-- Where a record stands in its table: its partition, then its digest. -/
abbrev Slot := UInt16 × List UInt8

def Slot.order : Slot → Slot → Ordering := compareLex (compareOn Prod.fst) (compareOn Prod.snd)

instance : Std.TransCmp Slot.order :=
  inferInstanceAs <| Std.TransCmp (compareLex (compareOn Prod.fst) (compareOn Prod.snd))

instance : Std.LawfulEqCmp Slot.order where
  eq_of_compare {a b} same := by
    obtain ⟨partition, digest⟩ := a
    obtain ⟨partition', digest'⟩ := b
    simp only [Slot.order, compareLex, compareOn, Ordering.then_eq_eq] at same
    have partition_eq : partition = partition' := Std.LawfulEqOrd.eq_of_compare same.1
    have digest_eq : digest = digest' := Std.LawfulEqOrd.eq_of_compare same.2
    rw [partition_eq, digest_eq]

def Key.slot (key : Key) : Slot := let digest := key.digest; (Key.partitionOf digest, digest)

structure StoredRecord where
  key : Key
  /-- Whether the user key is kept and returned with the record. -/
  keepsKey : Bool
  bins : Fields Value
  generation : UInt32

namespace StoredRecord

def toRecord (stored : StoredRecord) (includeBins : Bool) (binNames : Option (List String)) :
    Record where
  key := if stored.keepsKey then some stored.key else none
  bins :=
    if includeBins then
      match binNames with
      | some names => stored.bins.restrict names
      | none => stored.bins
    else []
  generation := stored.generation

/-- The whole record, as filters see it. -/
def view (stored : StoredRecord) : Record := stored.toRecord true none

end StoredRecord

/-- The records of one table. -/
abbrev Table := Std.TreeMap Slot StoredRecord Slot.order

structure MemoryStore where
  tables : Std.TreeMap TableName Table := ∅
  indexes : List Index := []
  supportsIndexes : Bool := true
  /-- The failure of the next point read. -/
  readFailure : Option StoreError := none
  /-- The failure of the next delivery, after some records. -/
  deliveryFailure : Option (Nat × StoreError) := none
  lastScan : Option ScanPolicy := none
  lastQuery : Option (QueryPolicy × Statement) := none
  fetched : Nat := 0

namespace MemoryStore

def table (store : MemoryStore) (name : TableName) : Table := (store.tables[name]?).getD ∅

/-- Writes a record in place of the one with the same digest, whose generation goes up by one. -/
def put (store : MemoryStore) (key : Key) (bins : Fields Value) (keepsKey : Bool) : MemoryStore :=
  let table := store.table key.table
  let slot := key.slot
  let generation := (table[slot]?).elim 1 fun stored => stored.generation + 1
  { store with
    tables := store.tables.insert key.table (table.insert slot ⟨key, keepsKey, bins, generation⟩) }

def dropIndex (store : MemoryStore) (name : String) : MemoryStore :=
  { store with indexes := store.indexes.filter fun index => index.name != name }

/-- Adds an index in place of the one of the same name. -/
def createIndex (store : MemoryStore) (index : Index) : MemoryStore :=
  let others := (store.dropIndex index.name).indexes
  { store with indexes := others ++ [index] }

/-- The number of records of a table, which is never too large for its type. -/
def recordCount (store : MemoryStore) (name : TableName) : UInt64 :=
  UInt64.ofNat (store.table name).size

/-- Which records of a table are wanted. -/
structure Selection where
  partitions : Option PartitionRange := none
  indexFilter : Option Filter := none
  expression : Option Expression := none

namespace Selection

def admits (selection : Selection) (slot : Slot) (stored : StoredRecord) : Bool :=
  selection.partitions.all (fun range => range.contains slot.1)
    && selection.indexFilter.all (fun filter => filter.selects stored.view)
    && selection.expression.all (fun expression => expression.holds stored.view)

end Selection

/-- The wanted records of a table in their order; zero for no limit. -/
def select (store : MemoryStore) (name : TableName) (selection : Selection) (maxRecords : UInt64) :
    List StoredRecord :=
  let admitted := (store.table name).toList.filter fun entry => selection.admits entry.1 entry.2
  let limited := if maxRecords = 0 then admitted else admitted.take maxRecords.toNat
  limited.map Prod.snd

/-- Starts a delivery, which fails as was ordered for it. A failure that is ordered for later than
the last record comes after that one. -/
def deliver (store : MemoryStore) (records : List Record) : Delivery × MemoryStore :=
  let delivery : Delivery :=
    match store.deliveryFailure with
    | some (after, error) => { waiting := records.take after, ending := some (.failure error) }
    | none => { waiting := records, ending := some .success }
  (delivery, { store with deliveryFailure := none })

def get (store : MemoryStore) (key : Key) (binNames : Option (List String)) :
    Except StoreError (Option Record) × MemoryStore :=
  match store.readFailure with
  | some error => (.error error, { store with readFailure := none })
  | none =>
    match (store.table key.table)[key.slot]? with
    | some stored =>
      (.ok (some (stored.toRecord true binNames)), { store with fetched := store.fetched + 1 })
    | none => (.ok none, store)

def scan (store : MemoryStore) (policy : ScanPolicy) (name : TableName)
    (binNames : Option (List String)) : Delivery × MemoryStore :=
  let selection : Selection :=
    { partitions := policy.partitions, expression := policy.base.filter }
  let chosen := store.select name selection policy.maxRecords
  let asked := { store with lastScan := some policy }
  asked.deliver (chosen.map fun stored => stored.toRecord policy.includeBinData binNames)

/-- Whether the index that a statement names is there, on the bin and over the table it asks for. -/
def hasIndexFor (store : MemoryStore) (statement : Statement) : Bool :=
  store.indexes.any fun index =>
    index.name == statement.indexName && index.bin == statement.filter.bin
      && index.covers statement.table

def query (store : MemoryStore) (policy : QueryPolicy) (statement : Statement) :
    Except StoreError Delivery × MemoryStore :=
  if !store.supportsIndexes then (.error (.unsupported "secondary index query"), store)
  else
    let asked := { store with lastQuery := some (policy, statement) }
    if store.hasIndexFor statement then
      let selection : Selection :=
        { indexFilter := some statement.filter, expression := policy.base.filter }
      let chosen := store.select statement.table selection policy.maxRecords
      let (delivery, after) := asked.deliver
        (chosen.map fun stored => stored.toRecord policy.includeBinData statement.binNames)
      (.ok delivery, after)
    else (.ok { ending := some (.failure (.indexNotFound statement.indexName)) }, asked)

instance : RecordStore MemoryStore where
  get store _ key binNames := store.get key binNames
  scan store policy name binNames :=
    let (delivery, after) := store.scan policy name binNames
    (.ok delivery, after)
  query store policy statement := store.query policy statement
  recordCount store name := .ok (store.recordCount name)
  indexes store := .ok store.indexes
  supportsIndexes store := store.supportsIndexes
  noteHandedOut store count := { store with fetched := store.fetched + count }

end MemoryStore

end RecordQuery
