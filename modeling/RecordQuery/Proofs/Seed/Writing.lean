import RecordQuery.Proofs.Json.Nesting
import RecordQuery.Proofs.Value.Document
import RecordQuery.Seed

/-!
Whatever a seed has in its bins was read from a text, so it can be written again. Each of the containers
around a bin leaves the bin one level less: the seed, its records, a record and its bins.
-/

namespace RecordQuery

open Json (Writable)

variable {depth : Nat} {document : Document}

namespace Value

theorem writable_int (depth : Nat) (n : Int64) : (toJson (.int n)).Writable depth := by
  have above := n.minValue_le_toInt
  have below : n.toInt < UInt64.size := Int.lt_of_le_of_lt n.toInt_le (by decide)
  exact .int depth above below

theorem writable_float (depth : Nat) (x : Float) : (toJson (.float x)).Writable depth := by
  rw [toJson]
  split
  · exact .float depth x
  · exact .null depth

/-- The value of something that can be written can be written. It need not be written alike: an integer
that 64 bits with a sign do not hold has become a double. -/
theorem writable_ofJson {json : Json} (writable : json.Writable depth) :
    (ofJson json).toJson.Writable depth := by
  induction writable with
  | null depth => exact .null depth
  | bool depth value => exact .bool depth value
  | int depth =>
    rw [ofJson]
    split
    · exact writable_int depth _
    · exact writable_float depth _
  | float depth x => exact writable_float depth x
  | string depth text => exact .string depth text
  | array _ ih =>
    rw [ofJson, toJson, toJsonItems_eq_map, ofJsonItems_eq_map, List.map_map]
    exact .array (List.forall_mem_map.2 ih)
  | object _ ih =>
    rw [ofJson, toJson, toJsonFields_eq_mapValues, ofJsonFields_eq_mapValues, Fields.mapValues,
      Fields.mapValues, List.map_map]
    exact .object (List.forall_mem_map.2 ih)

theorem writable_of_ofDocument? (within : document.Within depth) {value : Value}
    (read : ofDocument? document = some value) : value.toJson.Writable depth := by
  obtain ⟨json, json_read, rfl⟩ := Option.map_eq_some_iff.1 read
  exact writable_ofJson (within.writable json_read)

theorem writable_of_binsOfDocument? (within : document.Within (depth + 1)) {bins : Fields Value}
    (read : binsOfDocument? document = some bins) : ∀ bin ∈ bins, bin.2.toJson.Writable depth := by
  cases within with
  | object values_within =>
    obtain ⟨pairs, pairs_read, same⟩ := Option.bind_eq_some_iff.1 read
    cases same
    intro bin mem
    obtain ⟨field, field_mem, bin_read⟩ := (of_mapM pairs_read).1 bin (Fields.mem_of_mem_ofPairs mem)
    obtain ⟨value, value_read, rfl⟩ := Option.map_eq_some_iff.1 bin_read
    exact writable_of_ofDocument? (values_within field field_mem) value_read
  | _ => cases read

/-- A key is a number, a text or bytes, which can be written at any depth. -/
theorem writable_of_isUser {value : Value} {user : UserKey} (is_user : UserKey.ofValue? value = some user)
    (depth : Nat) : value.toJson.Writable depth := by
  cases value with
  | int n => exact writable_int depth n
  | string text => exact .string depth text
  | blob bytes => exact .string depth _
  | _ => cases is_user

end Value

theorem SeedRecord.writable_bins (within : document.Within (depth + 2)) {record : SeedRecord}
    (read : ofDocument? document = some record) : ∀ bin ∈ record.bins, bin.2.toJson.Writable depth := by
  obtain ⟨members, members_read, read⟩ := Option.bind_eq_some_iff.1 read
  obtain ⟨_, _, read⟩ := Option.bind_eq_some_iff.1 read
  obtain ⟨_, _, read⟩ := Option.bind_eq_some_iff.1 read
  obtain ⟨_, _, read⟩ := Option.bind_eq_some_iff.1 read
  obtain ⟨bins, bins_read, read⟩ := Option.bind_eq_some_iff.1 read
  obtain ⟨_, _, same⟩ := Option.bind_eq_some_iff.1 read
  cases same
  obtain rfl | ⟨part, part_mem, part_read⟩ := Members.of_optional bins_read
  · exact List.forall_mem_nil _
  · exact Value.writable_of_binsOfDocument? (within.of_members? members_read _ part_mem) part_read

namespace Seed

theorem writable_bins (within : document.Within (depth + 4)) {seed : Seed}
    (read : ofDocument? document = some seed) :
    ∀ record ∈ seed.records, ∀ bin ∈ record.bins, bin.2.toJson.Writable depth := by
  obtain ⟨members, members_read, read⟩ := Option.bind_eq_some_iff.1 read
  obtain ⟨records, records_read, read⟩ := Option.bind_eq_some_iff.1 read
  obtain ⟨_, _, read⟩ := Option.bind_eq_some_iff.1 read
  obtain ⟨_, _, read⟩ := Option.bind_eq_some_iff.1 read
  obtain ⟨_, _, same⟩ := Option.bind_eq_some_iff.1 read
  cases same
  obtain rfl | ⟨list, list_mem, list_read⟩ := Members.of_optional records_read
  · exact List.forall_mem_nil _
  · intro record mem
    have list_within : list.Within (depth + 3) := within.of_members? members_read _ list_mem
    obtain ⟨part, part_within, part_read⟩ := list_within.of_list? list_read record mem
    exact SeedRecord.writable_bins part_within part_read

end Seed

end RecordQuery
