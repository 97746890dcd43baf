import RecordQuery.Address.Key

/-!
What the digest of a key is taken of: the name of the set, a tag for the kind of the user key, and the
bytes of the user key, one after the other and with no length in between. Two keys are written alike only
if they are of one set and one user key, or if the longer of the two set names goes on after the shorter
one with the tag and some bytes of the key of the shorter. Within one set, and between sets whose names
have no tag in them, a shared digest therefore means the same record or two byte strings of one hash.
-/

namespace RecordQuery

namespace UserKey

theorem eq_of_bytes {a b : UserKey} (same_tag : a.tag = b.tag) (same : a.bytes = b.bytes) : a = b := by
  cases a with
  | int m =>
    cases b with
    | int n =>
      have same_number := congrArg Bytes.ofBigEndian same
      simp only [bytes, Bytes.ofBigEndian_bigEndian, Nat.pow_eq] at same_number
      rw [Nat.mod_eq_of_lt m.toUInt64.toNat_lt, Nat.mod_eq_of_lt n.toUInt64.toNat_lt] at same_number
      rw [Int64.toBitVec_inj.1 (congrArg UInt64.toBitVec (UInt64.toNat_inj.1 same_number))]
    | _ => cases same_tag
  | string text =>
    cases b with
    | string other =>
      have same_array : text.toUTF8 = other.toUTF8 := ByteArray.ext (Array.toList_inj.1 same)
      rw [String.toByteArray_inj.1 same_array]
    | _ => cases same_tag
  | blob first =>
    cases b with
    | blob second => exact congrArg blob same
    | _ => cases same_tag

end UserKey

/-- The bytes of the name of a set. -/
def TableName.setBytes (table : TableName) : List UInt8 := table.set.toUTF8.data.toList

theorem TableName.set_eq_of_setBytes {a b : TableName} (same : a.setBytes = b.setBytes) :
    a.set = b.set :=
  String.toByteArray_inj.1 (ByteArray.ext (Array.toList_inj.1 same))

/-- No byte in the name of the set is one that tags a user key. -/
def TableName.TagFree (table : TableName) : Prop := ∀ user : UserKey, user.tag ∉ table.setBytes

theorem TableName.tagFree_of_forall {table : TableName}
    (free : ∀ tag ∈ ([1, 3, 4] : List UInt8), tag ∉ table.setBytes) : table.TagFree := by
  intro user
  refine free user.tag ?_
  cases user <;> simp [UserKey.tag]

namespace Key

/-- The set of the second key has the name of the first one's set, the tag of the first key, and the
bytes with which that key begins; those that are left are the tag and the bytes of the second key. -/
def RunsInto (first second : Key) : Prop :=
  ∃ piece, second.table.setBytes = first.table.setBytes ++ first.user.tag :: piece ∧
    first.user.bytes = piece ++ second.user.tag :: second.user.bytes

theorem preimage_eq (key : Key) : key.preimage = key.table.setBytes ++ key.user.tag :: key.user.bytes :=
  rfl

theorem RunsInto.preimage_eq {first second : Key} (runs : first.RunsInto second) :
    first.preimage = second.preimage := by
  obtain ⟨piece, set_eq, bytes_eq⟩ := runs
  rw [Key.preimage_eq, Key.preimage_eq, set_eq, bytes_eq, List.append_assoc, List.cons_append]

theorem RunsInto.not_tagFree {first second : Key} (runs : first.RunsInto second) :
    ¬second.table.TagFree := by
  obtain ⟨piece, set_eq, _⟩ := runs
  intro tagFree
  apply tagFree first.user
  rw [set_eq]
  exact List.mem_append_right _ List.mem_cons_self

theorem RunsInto.set_ne {first second : Key} (runs : first.RunsInto second) :
    first.table.set ≠ second.table.set := by
  obtain ⟨piece, set_eq, _⟩ := runs
  intro same
  have same_length : first.table.setBytes.length = second.table.setBytes.length := by
    rw [TableName.setBytes, same, TableName.setBytes]
  rw [set_eq, List.length_append, List.length_cons] at same_length
  omega

/-- Where the name of one set begins that of the other, keys that go on alike are the same or run together. -/
theorem same_or_runsInto {a b : Key} {between : List UInt8}
    (set_eq : b.table.setBytes = a.table.setBytes ++ between)
    (rest_eq : a.user.tag :: a.user.bytes = between ++ b.user.tag :: b.user.bytes) :
    (a.table.set = b.table.set ∧ a.user = b.user) ∨ a.RunsInto b := by
  cases between with
  | nil =>
    obtain ⟨same_tag, same_bytes⟩ := List.cons.inj rest_eq
    rw [List.append_nil] at set_eq
    exact Or.inl ⟨(TableName.set_eq_of_setBytes set_eq).symm, UserKey.eq_of_bytes same_tag same_bytes⟩
  | cons tag piece =>
    obtain ⟨rfl, bytes_eq⟩ := List.cons.inj rest_eq
    exact Or.inr ⟨piece, set_eq, bytes_eq⟩

theorem preimage_eq_iff {a b : Key} :
    a.preimage = b.preimage ↔
      (a.table.set = b.table.set ∧ a.user = b.user) ∨ a.RunsInto b ∨ b.RunsInto a := by
  constructor
  · intro same
    rw [preimage_eq, preimage_eq, List.append_eq_append_iff] at same
    obtain ⟨between, set_eq, rest_eq⟩ | ⟨between, set_eq, rest_eq⟩ := same
    · exact (same_or_runsInto set_eq rest_eq).imp_right Or.inl
    · obtain ⟨same_set, same_user⟩ | runs := same_or_runsInto set_eq rest_eq
      · exact Or.inl ⟨same_set.symm, same_user.symm⟩
      · exact Or.inr (Or.inr runs)
  · rintro (⟨same_set, same_user⟩ | runs | runs)
    · rw [preimage_eq, preimage_eq, TableName.setBytes, same_set, same_user, TableName.setBytes]
    · exact runs.preimage_eq
    · exact runs.preimage_eq.symm

/-- The sets of the two keys are one, or their names have no tag in them. -/
def SetsApart (a b : Key) : Prop :=
  a.table.set = b.table.set ∨ (a.table.TagFree ∧ b.table.TagFree)

theorem SetsApart.same_of_preimage {a b : Key} (apart : a.SetsApart b)
    (same : a.preimage = b.preimage) : a.table.set = b.table.set ∧ a.user = b.user := by
  obtain both | runs | runs := preimage_eq_iff.1 same
  · exact both
  · obtain same_set | ⟨_, tagFree⟩ := apart
    · exact absurd same_set runs.set_ne
    · exact absurd tagFree runs.not_tagFree
  · obtain same_set | ⟨tagFree, _⟩ := apart
    · exact absurd same_set.symm runs.set_ne
    · exact absurd tagFree runs.not_tagFree

/-- Two different byte strings, of which the first twenty bytes of the hash are the same. -/
def HashesCollide (a b : Key) : Prop :=
  a.preimage ≠ b.preimage ∧ (Sha256.hash a.preimage).take 20 = (Sha256.hash b.preimage).take 20

/-- Keys are written alike if set and user key are the same or one runs into the other, and not else.
Where the sets are apart the former is the only way, and then keys of one namespace that share a digest
are one key unless their hashes collide. -/
theorem written_alike_if_same_or_run_together (a b : Key) :
    (a.preimage = b.preimage ↔
      (a.table.set = b.table.set ∧ a.user = b.user) ∨ a.RunsInto b ∨ b.RunsInto a) ∧
    (a.SetsApart b →
      (a.preimage = b.preimage → a.table.set = b.table.set ∧ a.user = b.user) ∧
        (a.table.space = b.table.space → a.digest = b.digest → a = b ∨ a.HashesCollide b)) := by
  refine ⟨preimage_eq_iff, fun apart => ⟨apart.same_of_preimage, ?_⟩⟩
  intro same_space same_digest
  by_cases same : a.preimage = b.preimage
  · obtain ⟨same_set, same_user⟩ := apart.same_of_preimage same
    obtain ⟨⟨space, set⟩, user⟩ := a
    obtain ⟨⟨space', set'⟩, user'⟩ := b
    obtain rfl : space = space' := same_space
    obtain rfl : set = set' := same_set
    obtain rfl : user = user' := same_user
    exact Or.inl rfl
  · exact Or.inr ⟨same, same_digest⟩

/-- A number and a text of one set, and a text in the set whose name is a letter shorter. -/
theorem keys_of_plain_sets_told_apart :
    let number : Key := ⟨⟨"test", "users"⟩, .int 1⟩
    let text : Key := ⟨⟨"test", "users"⟩, .string "1"⟩
    let shifted : Key := ⟨⟨"test", "user"⟩, .string "s1"⟩
    (number.SetsApart text ∧ number.preimage ≠ text.preimage) ∧
      (text.table.TagFree ∧ shifted.table.TagFree) ∧ text.preimage ≠ shifted.preimage := by
  intro number text shifted
  have one_set : number.SetsApart text := Or.inl rfl
  have text_tagFree : text.table.TagFree := TableName.tagFree_of_forall (by decide +kernel)
  have shifted_tagFree : shifted.table.TagFree := TableName.tagFree_of_forall (by decide +kernel)
  obtain ⟨_, number_apart⟩ := written_alike_if_same_or_run_together number text
  obtain ⟨_, shifted_apart⟩ := written_alike_if_same_or_run_together text shifted
  refine ⟨⟨one_set, fun same => ?_⟩, ⟨text_tagFree, shifted_tagFree⟩, fun same => ?_⟩
  · cases ((number_apart one_set).1 same).2
  · exact absurd ((shifted_apart (Or.inr ⟨text_tagFree, shifted_tagFree⟩)).1 same).1 (by decide)

/-- With a control character in a name and in a key two records of different sets are written alike. -/
theorem text_runs_into_longer_set :
    ¬∀ a b : Key, a.preimage = b.preimage → a.table.set = b.table.set ∧ a.user = b.user := by
  intro told_apart
  let shorter : Key := ⟨⟨"test", "a"⟩, .string "b\x03c"⟩
  let longer : Key := ⟨⟨"test", "a\x03b"⟩, .string "c"⟩
  have same : shorter.preimage = longer.preimage := by decide +kernel
  exact absurd (told_apart shorter longer same).1 (by decide)

end Key

end RecordQuery
