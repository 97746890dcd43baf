import RecordQuery.Proofs.Store.Put

/-!
The states that a store in memory gets into: it is new, and then commands follow in any order, those
that order failures and those that queries send among them. In every such state a record stands where
its key puts it, in the table of its key and at the slot of its key, so that the partition of its slot
is its own.
-/

namespace RecordQuery.MemoryStore

inductive Reached : MemoryStore → Prop
  | new (supportsIndexes : Bool) : Reached { supportsIndexes }
  | put {store : MemoryStore} (reached : Reached store) (key : Key) (bins : Fields Value)
    (keepsKey : Bool) : Reached (store.put key bins keepsKey)
  | createIndex {store : MemoryStore} (reached : Reached store) (index : Index) :
    Reached (store.createIndex index)
  | dropIndex {store : MemoryStore} (reached : Reached store) (name : String) :
    Reached (store.dropIndex name)
  | failRead {store : MemoryStore} (reached : Reached store) (error : StoreError) :
    Reached { store with readFailure := some error }
  | failDelivery {store : MemoryStore} (reached : Reached store) (after : Nat) (error : StoreError) :
    Reached { store with deliveryFailure := some (after, error) }
  | get {store : MemoryStore} (reached : Reached store) (key : Key) (binNames : Option (List String)) :
    Reached (store.get key binNames).2
  | scan {store : MemoryStore} (reached : Reached store) (policy : ScanPolicy) (name : TableName)
    (binNames : Option (List String)) : Reached (store.scan policy name binNames).2
  | query {store : MemoryStore} (reached : Reached store) (policy : QueryPolicy)
    (statement : Statement) : Reached (store.query policy statement).2
  | handOut {store : MemoryStore} (reached : Reached store) (count : Nat) :
    Reached { store with fetched := store.fetched + count }

/-- Every record stands in the table and at the slot of its key. -/
def Keyed (store : MemoryStore) : Prop :=
  ∀ (name : TableName) (slot : Slot) (stored : StoredRecord),
    (store.table name)[slot]? = some stored → stored.key.table = name ∧ stored.key.slot = slot

variable {store after : MemoryStore}

theorem Keyed.of_tables_eq (keyed : store.Keyed) (same : after.tables = store.tables) :
    after.Keyed := by
  intro name slot stored there
  rw [table, same] at there
  exact keyed name slot stored there

theorem Keyed.put (keyed : store.Keyed) (key : Key) (bins : Fields Value) (keepsKey : Bool) :
    (store.put key bins keepsKey).Keyed := by
  intro name slot stored there
  rw [table_put] at there
  by_cases here : key.table = name
  · rw [if_pos here, Std.TreeMap.getElem?_insert] at there
    split at there
    · next same =>
      cases there
      exact ⟨here, Std.LawfulEqCmp.eq_of_compare same⟩
    · exact keyed name slot stored there
  · rw [if_neg here] at there
    exact keyed name slot stored there

theorem tables_get (store : MemoryStore) (key : Key) (binNames : Option (List String)) :
    (store.get key binNames).2.tables = store.tables := by
  unfold get
  split
  · rfl
  · split <;> rfl

theorem tables_query (store : MemoryStore) (policy : QueryPolicy) (statement : Statement) :
    (store.query policy statement).2.tables = store.tables := by
  unfold query
  split
  · rfl
  · dsimp only
    split <;> rfl

theorem Reached.keyed (reached : store.Reached) : store.Keyed := by
  induction reached with
  | new supportsIndexes =>
    intro name slot stored there
    cases there
  | put _ key bins keepsKey keyed => exact keyed.put key bins keepsKey
  | createIndex _ index keyed => exact keyed.of_tables_eq rfl
  | dropIndex _ name keyed => exact keyed.of_tables_eq rfl
  | failRead _ error keyed => exact keyed.of_tables_eq rfl
  | failDelivery _ after error keyed => exact keyed.of_tables_eq rfl
  | get _ key binNames keyed => exact keyed.of_tables_eq (tables_get _ key binNames)
  | scan _ policy name binNames keyed => exact keyed.of_tables_eq rfl
  | query _ policy statement keyed => exact keyed.of_tables_eq (tables_query _ policy statement)
  | handOut _ count keyed => exact keyed.of_tables_eq rfl

end RecordQuery.MemoryStore
