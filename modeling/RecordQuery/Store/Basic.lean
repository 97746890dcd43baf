import RecordQuery.Index.Basic
import RecordQuery.Policy
import RecordQuery.Stream.Delivery

/-!
What a query needs of a record store. Reading one record is answered at once; a scan and an index
query are answered by a delivery, which goes on while the consumer reads. Every command may change
the store's own state.
-/

namespace RecordQuery

/-- An index query: which index is asked, with which filter, and the bins to return. -/
structure Statement where
  table : TableName
  binNames : Option (List String)
  indexName : String
  filter : Filter

class RecordStore (σ : Type) where
  get : σ → BasePolicy → Key → Option (List String) → Except StoreError (Option Record) × σ
  scan : σ → ScanPolicy → TableName → Option (List String) → Except StoreError Delivery × σ
  query : σ → QueryPolicy → Statement → Except StoreError Delivery × σ
  /-- The number of records of a table, from statistics. -/
  recordCount : σ → TableName → Except StoreError UInt64
  indexes : σ → Except StoreError (List Index)
  supportsIndexes : σ → Bool
  /-- Notes how many records a delivery has handed out. -/
  noteHandedOut : σ → Nat → σ

end RecordQuery
