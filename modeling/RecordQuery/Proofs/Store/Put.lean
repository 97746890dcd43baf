import RecordQuery.Store.Memory

/-!
The tables of a store in memory after a record was put.
-/

namespace RecordQuery.MemoryStore

variable {store : MemoryStore} {key : Key} {bins : Fields Value} {keepsKey : Bool}

/-- The generation that a record gets when it is put. -/
def nextGeneration (store : MemoryStore) (key : Key) : UInt32 :=
  ((store.table key.table)[key.slot]?).elim 1 fun stored => stored.generation + 1

theorem table_put (name : TableName) :
    (store.put key bins keepsKey).table name =
      if key.table = name then
        (store.table name).insert key.slot ⟨key, keepsKey, bins, store.nextGeneration key⟩
      else store.table name := by
  rw [table, put, Std.TreeMap.getElem?_insert]
  by_cases here : key.table = name
  · subst here
    rw [if_pos rfl, if_pos Std.ReflCmp.compare_self]
    rfl
  · rw [if_neg here, if_neg]
    · rfl
    · exact fun same => here (Std.LawfulEqOrd.eq_of_compare same)

/-- A record of the store after a put was put there, or was there before. -/
theorem bins_of_put {name : TableName} {slot : Slot} {stored : StoredRecord}
    (there : ((store.put key bins keepsKey).table name)[slot]? = some stored) :
    stored.bins = bins ∨ (store.table name)[slot]? = some stored := by
  rw [table_put] at there
  split at there
  · rw [Std.TreeMap.getElem?_insert] at there
    split at there
    · cases there
      exact Or.inl rfl
    · exact Or.inr there
  · exact Or.inr there

end RecordQuery.MemoryStore
