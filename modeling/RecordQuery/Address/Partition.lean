/-!
Partitions: every namespace is split into a fixed number of them, and a scan may be restricted to a
run of consecutive ones.
-/

namespace RecordQuery

def partitionCount : Nat := 4096

/-- The partitions from `first` on, `count` of them. -/
structure PartitionRange where
  first : UInt16
  count : UInt16
  deriving DecidableEq, Repr

namespace PartitionRange

/-- All partitions from the given one to the last; none if there is no such partition. -/
def startingAt? (offset : UInt64) : Option PartitionRange :=
  if offset.toNat < partitionCount then
    some ⟨UInt16.ofNat offset.toNat, UInt16.ofNat (partitionCount - offset.toNat)⟩
  else none

def contains (range : PartitionRange) (partition : UInt16) : Bool :=
  range.first ≤ partition && partition - range.first < range.count

def text (range : PartitionRange) : String :=
  "partitions [" ++ toString range.first.toNat ++ ", "
    ++ toString (range.first.toNat + range.count.toNat) ++ ")"

theorem contains_iff (range : PartitionRange) (partition : UInt16) :
    range.contains partition ↔
      range.first.toNat ≤ partition.toNat ∧
        partition.toNat < range.first.toNat + range.count.toNat := by
  simp only [contains, Bool.and_eq_true, decide_eq_true_eq, UInt16.le_iff_toNat_le,
    UInt16.lt_iff_toNat_lt]
  constructor
  · rintro ⟨above, within⟩
    rw [UInt16.toNat_sub_of_le _ _ (UInt16.le_iff_toNat_le.2 above)] at within
    omega
  · rintro ⟨above, within⟩
    refine ⟨above, ?_⟩
    rw [UInt16.toNat_sub_of_le _ _ (UInt16.le_iff_toNat_le.2 above)]
    omega

theorem contains_of_startingAt? {offset : UInt64} {range : PartitionRange}
    (found : startingAt? offset = some range) {partition : UInt16}
    (exists_partition : partition.toNat < partitionCount) :
    range.contains partition ↔ offset.toNat ≤ partition.toNat := by
  unfold startingAt? at found
  split at found
  · next inside =>
    cases found
    simp only [partitionCount] at *
    rw [contains_iff]
    simp only [UInt16.toNat_ofNat']
    rw [Nat.mod_eq_of_lt (by omega), Nat.mod_eq_of_lt (by omega)]
    omega
  · cases found

end PartitionRange

end RecordQuery
