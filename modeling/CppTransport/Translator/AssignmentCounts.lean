import CppTransport.Translator.AssignmentSet

/-!
# The number of assignments

An `assignment_set` counts its assignments by multiplying the ranges of its indices, and `apply_unroll_policy`
multiplies the numbers of assignments on both sides of a line and compares the product with the limit for unrolling.
All this is done with 32 bits, and nothing looks for an overflow.

## What is proved

`counted_iff`: the numbers mean what they should if and only if the product of all ranges is below 2³², and neither
side has a product of ranges that is a multiple of 2³² without being zero. A set whose product is such a multiple
looks like one with an empty range.
-/

namespace CppTransport.Translator.AssignmentSet

open Library

/-- What `apply_unroll_policy` compares with the limit. -/
def total_assignment_size (LHS_assignments RHS_assignments : assignment_set) : ℕ :=
  LHS_assignments.size * RHS_assignments.size % 2 ^ 32

/-- Some index has no values. -/
def HasEmptyRange (s : abstract_index_database) : Prop := ∃ idx ∈ s.records, idx.extent = 0

/-- **The numbers mean what they should**: an empty set has an index with an empty range, and the total is the product
of all ranges. -/
structure Counted (left right : assignment_set) : Prop where
  left_empty : left.size = 0 ↔ HasEmptyRange left.source_set
  right_empty : right.size = 0 ↔ HasEmptyRange right.source_set
  total : total_assignment_size left right =
    ((left.source_set.records ++ right.source_set.records).map (·.extent)).prod

/-- The product of the ranges does not wrap around to zero. -/
def Nonvanishing (s : abstract_index_database) : Prop := 2 ^ 32 ∣ volume (extents s) → volume (extents s) = 0

section

variable {s t : abstract_index_database} {o o' : index_order}

theorem volume_eq_zero_iff : volume (extents s) = 0 ↔ HasEmptyRange s := by
  rw [volume_extents, List.prod_eq_zero_iff, List.mem_map]
  rfl

theorem size_eq_zero_iff (address : ℕ) :
    (assignment_set.construct address s o).size = 0 ↔ 2 ^ 32 ∣ volume (extents s) := by
  rw [size_eq_mod, Nat.dvd_iff_mod_eq_zero]

/-- Zero is the size of sets with an empty range only, unless the product vanishes. -/
theorem empty_iff (address : ℕ) :
    ((assignment_set.construct address s o).size = 0 ↔ HasEmptyRange s) ↔ Nonvanishing s := by
  rw [size_eq_zero_iff, ← volume_eq_zero_iff, Nonvanishing]
  constructor
  · exact fun h => h.mp
  · exact fun h => ⟨h, fun zero => zero ▸ dvd_zero _⟩

theorem total_eq (address address' : ℕ) :
    total_assignment_size (assignment_set.construct address s o) (assignment_set.construct address' t o') =
      volume (extents s) * volume (extents t) % 2 ^ 32 := by
  rw [total_assignment_size, size_eq_mod, size_eq_mod, ← Nat.mul_mod]

theorem prod_append : ((s.records ++ t.records).map (·.extent)).prod = volume (extents s) * volume (extents t) := by
  rw [List.map_append, List.prod_append, volume_extents, volume_extents]

theorem mod_eq_self_iff {n : ℕ} : n % 2 ^ 32 = n ↔ n < 2 ^ 32 :=
  ⟨fun h => h ▸ Nat.mod_lt _ (by decide), Nat.mod_eq_of_lt⟩

/-- **The numbers of assignments** are right if and only if no product vanishes and the product of all ranges has at
most 32 bits. -/
theorem counted_iff (address address' : ℕ) (s t : abstract_index_database) (o o' : index_order) :
    Counted (assignment_set.construct address s o) (assignment_set.construct address' t o') ↔
      Nonvanishing s ∧ Nonvanishing t ∧ ((s.records ++ t.records).map (·.extent)).prod < 2 ^ 32 := by
  have total : total_assignment_size (assignment_set.construct address s o) (assignment_set.construct address' t o') =
      ((s.records ++ t.records).map (·.extent)).prod ↔ ((s.records ++ t.records).map (·.extent)).prod < 2 ^ 32 := by
    rw [total_eq, prod_append, mod_eq_self_iff]
  constructor
  · exact fun h => ⟨(empty_iff address).mp h.left_empty, (empty_iff address').mp h.right_empty, total.mp h.total⟩
  · rintro ⟨left, right, fits⟩
    exact ⟨(empty_iff address).mpr left, (empty_iff address').mpr right, total.mpr fits⟩

end

/-- Eight phase-space indices of a model with eight fields. -/
def eight_indices : abstract_index_database :=
  ⟨['A', 'B', 'C', 'D', 'E', 'F', 'G', 'H'].map fun label => ⟨label, .full, 8, 0⟩, by decide⟩

/-- They have 2³² assignments, and their number is zero. -/
theorem eight_indices_not_counted : ¬∀ left right : abstract_index_database,
    Counted (assignment_set.construct 0 left .right) (assignment_set.construct 1 right .right) := by
  intro h
  have zero : (assignment_set.construct 0 eight_indices .right).size = 0 := by decide
  obtain ⟨idx, hidx, none⟩ := (h eight_indices .empty).left_empty.mp zero
  have values : ∀ idx ∈ eight_indices.records, idx.extent ≠ 0 := by decide
  exact values idx hidx none

end CppTransport.Translator.AssignmentSet
