import Mathlib.Data.Finset.Card
import Mathlib.Data.List.Induction
import RecordQuery.Proofs.Store.Delivery
import RecordQuery.Proofs.Store.Put
import RecordQuery.Proofs.Store.Reached

/-!
A store in memory that records are put into is a map from keys to what was put last. The store itself
knows a record by the digest of its key, so this is said of keys that their digests tell apart; then the
slot of a key holds its last put, with as many generations as there were puts of it, a table has one
record for each user key, and the tables of other names do not show in it.
-/

namespace RecordQuery.MemoryStore

/-- A record that is put, with its user key or without. -/
structure Put where
  key : Key
  bins : Fields Value
  keepsKey : Bool

/-- The store after the records were put one after the other. -/
def putAll (store : MemoryStore) (puts : List Put) : MemoryStore :=
  puts.foldl (fun store put => store.put put.key put.bins put.keepsKey) store

def putsOf (puts : List Put) (key : Key) : List Put := puts.filter fun put => put.key = key

/-- What a map from keys holds after the puts. -/
def held? (puts : List Put) (key : Key) : Option StoredRecord :=
  (putsOf puts key).getLast?.map fun last =>
    ⟨key, last.keepsKey, last.bins, UInt32.ofNat (putsOf puts key).length⟩

/-- The user keys of one table that occur in the puts. -/
def usersIn (puts : List Put) (name : TableName) : Finset UserKey :=
  ((puts.filter fun put => put.key.table = name).map fun put => put.key.user).toFinset

/-- No two keys of one table have the same digest. -/
def Distinguished (keys : List Key) : Prop :=
  ∀ a ∈ keys, ∀ b ∈ keys, a.table = b.table → a.digest = b.digest → a = b

instance (keys : List Key) : Decidable (Distinguished keys) :=
  inferInstanceAs (Decidable (∀ a ∈ keys, ∀ b ∈ keys, _))

variable {store : MemoryStore} {puts : List Put} {put : Put} {key : Key} {name : TableName}

theorem putAll_concat (store : MemoryStore) (puts : List Put) (put : Put) :
    store.putAll (puts ++ [put]) = (store.putAll puts).put put.key put.bins put.keepsKey := by
  simp [putAll]

theorem putsOf_concat (puts : List Put) (put : Put) (key : Key) :
    putsOf (puts ++ [put]) key = if put.key = key then putsOf puts key ++ [put] else putsOf puts key := by
  by_cases same : put.key = key <;> simp [putsOf, List.filter_append, same]

theorem mem_usersIn_iff : key.user ∈ usersIn puts key.table ↔ ∃ put ∈ puts, put.key = key := by
  obtain ⟨table, user⟩ := key
  simp only [usersIn, List.mem_toFinset, List.mem_map, List.mem_filter, decide_eq_true_eq]
  constructor
  · rintro ⟨put, ⟨mem, rfl⟩, rfl⟩
    exact ⟨put, mem, rfl⟩
  · rintro ⟨put, mem, same⟩
    exact ⟨put, ⟨mem, by rw [same]⟩, by rw [same]⟩

theorem held?_isSome_iff : (held? puts key).isSome = true ↔ ∃ put ∈ puts, put.key = key := by
  simp [held?, putsOf]

/-- A put replaces what the map holds of its key, with one more generation, and nothing else. -/
theorem held?_concat (puts : List Put) (put : Put) (key : Key) :
    held? (puts ++ [put]) key =
      if put.key = key then
        some ⟨key, put.keepsKey, put.bins,
          (held? puts key).elim 1 fun stored => stored.generation + 1⟩
      else held? puts key := by
  rw [held?, putsOf_concat]
  by_cases same : put.key = key
  · have generation : UInt32.ofNat (putsOf puts key ++ [put]).length =
        (held? puts key).elim 1 fun stored => stored.generation + 1 := by
      rw [held?, List.length_append, List.length_singleton, UInt32.ofNat_add]
      cases putsOf puts key with
      | nil => rfl
      | cons first rest => simp [List.getLast?_cons]
    rw [if_pos same, if_pos same, List.getLast?_concat, Option.map_some, generation]
  · rw [if_neg same, if_neg same, held?]

theorem Distinguished.of_subset {keys fewer : List Key} (distinguished : Distinguished keys)
    (subset : fewer ⊆ keys) : Distinguished fewer :=
  fun a a_mem b b_mem => distinguished a (subset a_mem) b (subset b_mem)

theorem Distinguished.slot_ne {keys : List Key} (distinguished : Distinguished keys) {a b : Key}
    (a_mem : a ∈ keys) (b_mem : b ∈ keys) (table : a.table = b.table) (differ : a ≠ b) :
    a.slot ≠ b.slot := by
  intro same
  have digest : a.digest = b.digest := congrArg Prod.snd same
  exact differ (distinguished a a_mem b b_mem table digest)

/-- The slot of a key holds what the map does. -/
theorem getElem?_putAll (supportsIndexes : Bool)
    (distinguished : Distinguished (key :: puts.map Put.key)) :
    ((putAll { supportsIndexes } puts).table key.table)[key.slot]? = held? puts key := by
  induction puts using List.reverseRecOn with
  | nil => rfl
  | append_singleton puts put ih =>
    have before := ih (distinguished.of_subset (by simp))
    rw [putAll_concat, table_put, held?_concat]
    by_cases same : put.key = key
    · subst same
      rw [if_pos rfl, if_pos rfl, Std.TreeMap.getElem?_insert_self, nextGeneration, before]
    · rw [if_neg same]
      by_cases table : put.key.table = key.table
      · have apart : put.key.slot ≠ key.slot :=
          distinguished.slot_ne (by simp) (by simp) table same
        have not_here : Slot.order put.key.slot key.slot ≠ .eq :=
          fun same_slot => apart (Std.LawfulEqCmp.eq_of_compare same_slot)
        rw [if_pos table, Std.TreeMap.getElem?_insert, if_neg not_here, before]
      · rw [if_neg table, before]

theorem usersIn_concat (puts : List Put) (put : Put) (name : TableName) :
    usersIn (puts ++ [put]) name =
      if put.key.table = name then insert put.key.user (usersIn puts name) else usersIn puts name := by
  by_cases here : put.key.table = name
  · ext user
    simp [usersIn, List.filter_append, here]
  · simp [usersIn, List.filter_append, here]

theorem card_usersIn_le (puts : List Put) (name : TableName) :
    (usersIn puts name).card ≤ puts.length := by
  calc (usersIn puts name).card
      ≤ ((puts.filter fun put => put.key.table = name).map fun put => put.key.user).length :=
        List.toFinset_card_le _
    _ ≤ puts.length := by rw [List.length_map]; exact List.length_filter_le ..

/-- A table has one record for each user key that was put there. -/
theorem size_putAll (supportsIndexes : Bool) (distinguished : Distinguished (puts.map Put.key))
    (name : TableName) :
    ((putAll { supportsIndexes } puts).table name).size = (usersIn puts name).card := by
  induction puts using List.reverseRecOn with
  | nil => rfl
  | append_singleton puts put ih =>
    have before := ih (distinguished.of_subset (by simp))
    rw [putAll_concat, table_put, usersIn_concat]
    by_cases here : put.key.table = name
    · subst here
      have there : put.key.slot ∈ (putAll { supportsIndexes } puts).table put.key.table ↔
          put.key.user ∈ usersIn puts put.key.table := by
        have found : ((putAll { supportsIndexes } puts).table put.key.table)[put.key.slot]? =
            held? puts put.key := getElem?_putAll supportsIndexes (distinguished.of_subset (by simp))
        rw [mem_usersIn_iff, ← held?_isSome_iff, ← found, Std.TreeMap.mem_iff_isSome_getElem?]
      rw [if_pos rfl, if_pos rfl, Std.TreeMap.size_insert, Finset.card_insert_eq_ite, before]
      exact if_congr there rfl rfl
    · rw [if_neg here, if_neg here, before]

/-- What is put into other tables does not show in a table. -/
theorem table_putAll (store : MemoryStore) (puts : List Put) (name : TableName) :
    (store.putAll puts).table name =
      (store.putAll (puts.filter fun put => put.key.table = name)).table name := by
  induction puts using List.reverseRecOn with
  | nil => rfl
  | append_singleton puts put ih =>
    rw [putAll_concat, table_put, List.filter_append]
    by_cases here : put.key.table = name
    · subst here
      have kept : [put].filter (fun other => other.key.table = put.key.table) = [put] := by simp
      rw [kept, putAll_concat, table_put, if_pos rfl, if_pos rfl, nextGeneration, nextGeneration, ih]
    · simp [here, ih]

/-- What a table holds was put there. -/
theorem put_of_there {slot : Slot} {stored : StoredRecord} (supportsIndexes : Bool)
    (there : ((putAll { supportsIndexes } puts).table name)[slot]? = some stored) :
    ∃ put ∈ puts, put.key = stored.key := by
  induction puts using List.reverseRecOn with
  | nil => cases there
  | append_singleton puts put ih =>
    have earlier (there : ((putAll { supportsIndexes } puts).table name)[slot]? = some stored) :
        ∃ other ∈ puts ++ [put], other.key = stored.key := by
      obtain ⟨other, mem, same⟩ := ih there
      exact ⟨other, List.mem_append_left _ mem, same⟩
    rw [putAll_concat, table_put] at there
    split at there
    · rw [Std.TreeMap.getElem?_insert] at there
      split at there
      · cases there
        exact ⟨put, List.mem_concat_self, rfl⟩
      · exact earlier there
    · exact earlier there

theorem Reached.putAll (reached : store.Reached) (puts : List Put) : (store.putAll puts).Reached := by
  induction puts generalizing store with
  | nil => exact reached
  | cons put rest ih => exact ih (reached.put put.key put.bins put.keepsKey)

/-- A table holds what the map does of its keys. -/
theorem there_putAll_iff (supportsIndexes : Bool) (distinguished : Distinguished (puts.map Put.key))
    (stored : StoredRecord) :
    ((putAll { supportsIndexes } puts).table name)[stored.key.slot]? = some stored ↔
      stored.key.table = name ∧ held? puts stored.key = some stored := by
  have found (was_put : ∃ put ∈ puts, put.key = stored.key) :
      ((putAll { supportsIndexes } puts).table stored.key.table)[stored.key.slot]? =
        held? puts stored.key := by
    refine getElem?_putAll supportsIndexes (distinguished.of_subset ?_)
    exact List.cons_subset.2 ⟨List.mem_map.2 was_put, List.Subset.refl _⟩
  constructor
  · intro there
    have keyed := ((Reached.new supportsIndexes).putAll puts).keyed
    obtain ⟨rfl, _⟩ := keyed name _ stored there
    exact ⟨rfl, found (put_of_there supportsIndexes there) ▸ there⟩
  · rintro ⟨rfl, held⟩
    rw [found (held?_isSome_iff.1 (Option.isSome_of_eq_some held)), held]

theorem readFailure_putAll (store : MemoryStore) (puts : List Put) :
    (store.putAll puts).readFailure = store.readFailure := by
  induction puts using List.reverseRecOn with
  | nil => rfl
  | append_singleton puts put ih => rw [putAll_concat, ← ih]; rfl

theorem fst_get_putAll (supportsIndexes : Bool) (puts : List Put) (key : Key)
    (binNames : Option (List String)) :
    ((putAll { supportsIndexes } puts).get key binNames).1 =
      .ok ((((putAll { supportsIndexes } puts).table key.table)[key.slot]?).map fun stored =>
        stored.toRecord true binNames) :=
  fst_get (readFailure_putAll { supportsIndexes } puts) key binNames

/-- Of a key the map holds its last put. -/
theorem held?_of_last {earlier later : List Put} {last : Put} (same : last.key = key)
    (no_later : key ∉ later.map Put.key) :
    held? (earlier ++ last :: later) key =
      some ⟨key, last.keepsKey, last.bins,
        UInt32.ofNat ((earlier ++ last :: later).countP fun put => put.key = key)⟩ := by
  have nothing : putsOf later key = [] := by
    simp only [putsOf, List.filter_eq_nil_iff, decide_eq_true_eq]
    intro put mem same
    exact no_later (List.mem_map.2 ⟨put, mem, same⟩)
  have ends : putsOf (earlier ++ last :: later) key = putsOf earlier key ++ [last] := by
    rw [putsOf, List.filter_append, List.filter_cons_of_pos (by simpa using same)]
    exact congrArg (putsOf earlier key ++ last :: ·) nothing
  rw [List.countP_eq_length_filter, held?, ← putsOf, ends, List.getLast?_concat, Option.map_some]

/-- A store answers as the map from keys to their last puts does: a read finds nothing unless the key was
put, and then the bins of its last put, its user key if that put kept it, and a generation for each put; a
table counts its user keys; and puts into other tables change no answer. -/
theorem store_keeps_last_puts (supportsIndexes : Bool) {puts : List Put}
    (few : puts.length < UInt32.size) (distinguished : Distinguished (puts.map Put.key)) :
    let store := putAll { supportsIndexes } puts
    (∀ key binNames, Distinguished (key :: puts.map Put.key) →
      ((store.get key binNames).1 = .ok none ↔ key ∉ puts.map Put.key) ∧
      ∀ earlier last later, puts = earlier ++ last :: later → last.key = key →
        key ∉ later.map Put.key →
        ∃ record, (store.get key binNames).1 = .ok (some record) ∧
          record.bins = binNames.elim last.bins last.bins.restrict ∧
          record.generation.toNat = puts.countP (fun put => put.key = key) ∧
          record.key = if last.keepsKey then some key else none) ∧
    (∀ name, (store.recordCount name).toNat = (usersIn puts name).card) ∧
    ∀ name, let alone := putAll { supportsIndexes } (puts.filter fun put => put.key.table = name)
      store.recordCount name = alone.recordCount name ∧
      ∀ key binNames, key.table = name → (store.get key binNames).1 = (alone.get key binNames).1 := by
  intro store
  refine ⟨?reads, ?counts, ?apart⟩
  case reads =>
    intro key binNames distinguished
    have answer : (store.get key binNames).1 =
        .ok ((held? puts key).map fun stored => stored.toRecord true binNames) := by
      rw [fst_get_putAll, getElem?_putAll supportsIndexes distinguished]
    constructor
    · rw [answer, Except.ok.injEq, Option.map_eq_none_iff, ← Option.not_isSome_iff_eq_none,
        held?_isSome_iff, List.mem_map]
    · rintro earlier last later split same no_later
      refine ⟨_, by rw [answer, split, held?_of_last same no_later]; rfl, ?_, ?_, rfl⟩
      · cases binNames <;> rfl
      · have few_of_key : (earlier ++ last :: later).countP (fun put => put.key = key) < UInt32.size :=
          split ▸ Nat.lt_of_le_of_lt List.countP_le_length few
        rw [split]
        exact UInt32.toNat_ofNat_of_lt' few_of_key
  case counts =>
    intro name
    have fits : (usersIn puts name).card < UInt64.size :=
      Nat.lt_of_le_of_lt (card_usersIn_le puts name) (Nat.lt_trans few (by decide))
    rw [recordCount, size_putAll supportsIndexes distinguished]
    exact UInt64.toNat_ofNat_of_lt' fits
  case apart =>
    intro name alone
    have same_table : store.table name = alone.table name := table_putAll _ puts name
    refine ⟨by rw [recordCount, recordCount, same_table], ?_⟩
    rintro key binNames rfl
    rw [fst_get_putAll, fst_get_putAll, same_table]

/-- Of three keys that are written alike two share a digest, in different namespaces. The one that is put
again has its second bins, and the first put of the other shows in another table only. -/
theorem second_put_replaces_first :
    let table : TableName := ⟨"test", "people"⟩
    let person : Key := ⟨table, .int 1⟩
    let namesake : Key := ⟨table, .string "1"⟩
    let copy : Key := ⟨⟨"backup", "people"⟩, .int 1⟩
    let puts : List Put :=
      [⟨person, [("age", .int 30)], true⟩, ⟨copy, [], true⟩, ⟨namesake, [], true⟩,
        ⟨person, [("age", .int 31), ("name", .string "Ann")], false⟩]
    let store := putAll {} puts
    copy.digest = person.digest ∧ puts.length < UInt32.size ∧ Distinguished (puts.map Put.key) ∧
      (store.recordCount table).toNat = 2 ∧
      ∃ record, (store.get person (some ["age"])).1 = .ok (some record) ∧
        record.bins = [("age", .int 31)] ∧ record.generation.toNat = 2 ∧ record.key = none := by
  intro table person namesake copy puts store
  have few : puts.length < UInt32.size := by decide
  have distinguished : Distinguished (puts.map Put.key) := by decide +kernel
  have known : Distinguished (person :: puts.map Put.key) := distinguished.of_subset (by simp [puts])
  obtain ⟨reads, counts, _⟩ := store_keeps_last_puts true few distinguished
  let last : Put := ⟨person, [("age", .int 31), ("name", .string "Ann")], false⟩
  obtain ⟨record, found, bins, generation, user⟩ :=
    (reads person (some ["age"]) known).2 (puts.take 3) last [] rfl rfl (by simp)
  exact ⟨rfl, few, distinguished, counts table, record, found, bins, generation, user⟩

end RecordQuery.MemoryStore
