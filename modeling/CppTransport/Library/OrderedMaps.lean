import Mathlib.Data.List.Sort

/-!
# Maps in the order of their keys

A `std::map` is the list of its values in increasing order of their keys. `insert` does nothing if the
key is there. Where the order of keys never contradicts the order of dates (`InOrder`), the last
value of a map has the latest date (`date_le_of_getLast?`), also after some values have been removed.
-/

namespace CppTransport.Library.OrderedMap

variable {α κ τ : Type*} [LinearOrder κ] {key : α → κ} {m l : List α} {x y : α}

/-- Two keys are the same if they compare so. -/
scoped instance (priority := high) lawfulBEq_key : LawfulBEq κ := inferInstance

/-- `std::map::insert`. -/
def insert (key : α → κ) (m : List α) (x : α) : List α :=
  if key x ∈ m.map key then m else m.orderedInsert (fun a b => key a ≤ key b) x

/-- Insert one value after the other. -/
def ofList (key : α → κ) (l : List α) : List α := l.foldl (insert key) []

theorem pairwise_insert (h : m.Pairwise fun a b => key a < key b) (x : α) :
    (insert key m x).Pairwise fun a b => key a < key b := by
  rw [insert]
  split_ifs with there
  · exact h
  · induction m with
    | nil => exact List.pairwise_singleton _ x
    | cons a m ih =>
      obtain ⟨ne, fresh⟩ : key x ≠ key a ∧ key x ∉ m.map key := by simpa using there
      rw [List.orderedInsert_cons]
      split_ifs with hle
      · refine List.pairwise_cons.mpr ⟨fun b hb => ?_, h⟩
        have first : key x < key a := lt_of_le_of_ne hle ne
        rcases List.mem_cons.mp hb with rfl | hb
        · exact first
        · exact first.trans (List.rel_of_pairwise_cons h hb)
      · refine List.pairwise_cons.mpr ⟨fun b hb => ?_, ih h.of_cons fresh⟩
        rcases (List.mem_orderedInsert _).mp hb with rfl | hb
        · exact not_le.mp hle
        · exact List.rel_of_pairwise_cons h hb

theorem mem_insert (fresh : key x ∉ m.map key) : y ∈ insert key m x ↔ y = x ∨ y ∈ m := by
  rw [insert, if_neg fresh, List.mem_orderedInsert]

theorem pairwise_foldl_insert (h : m.Pairwise fun a b => key a < key b) (l : List α) :
    (l.foldl (insert key) m).Pairwise fun a b => key a < key b := by
  induction l generalizing m with
  | nil => exact h
  | cons x l ih => exact ih (pairwise_insert h x)

/-- A map is in the order of its keys. -/
theorem pairwise_ofList (key : α → κ) (l : List α) : (ofList key l).Pairwise fun a b => key a < key b :=
  pairwise_foldl_insert .nil l

theorem mem_foldl_insert (h : (l.map key).Nodup) (fresh : ∀ a ∈ l, key a ∉ m.map key) :
    y ∈ l.foldl (insert key) m ↔ y ∈ m ∨ y ∈ l := by
  induction l generalizing m with
  | nil => simp
  | cons x l ih =>
    obtain ⟨other, h⟩ := List.nodup_cons.mp h
    have fresh_x := fresh x List.mem_cons_self
    have fresh' : ∀ a ∈ l, key a ∉ (insert key m x).map key := by
      intro a ha hmem
      obtain ⟨b, hb, eq⟩ := List.mem_map.mp hmem
      rcases (mem_insert fresh_x).mp hb with rfl | hb
      · exact other (eq ▸ List.mem_map_of_mem ha)
      · exact fresh a (List.mem_cons_of_mem x ha) (eq ▸ List.mem_map_of_mem hb)
    rw [List.foldl_cons, ih h fresh', mem_insert fresh_x, List.mem_cons]
    tauto

/-- Values with different keys are all there. -/
theorem mem_ofList (h : (l.map key).Nodup) : y ∈ ofList key l ↔ y ∈ l := by
  rw [ofList, mem_foldl_insert h fun a _ => List.not_mem_nil]
  simp

/-! ### Dates -/

section Dates

variable [LinearOrder τ] {date : α → τ}

/-- The dates of two values are not in the opposite order to their keys. -/
def InOrder (key : α → κ) (date : α → τ) (x y : α) : Prop :=
  (key x < key y → date x ≤ date y) ∧ (key y < key x → date y ≤ date x)

instance : Decidable (InOrder key date x y) := inferInstanceAs (Decidable (_ ∧ _))

theorem InOrder.symm (h : InOrder key date x y) : InOrder key date y x := ⟨h.2, h.1⟩

/-- **The last value has the latest date**. -/
theorem date_le_of_getLast? (sorted : m.Pairwise fun a b => key a < key b)
    (h : ∀ a ∈ m, ∀ b ∈ m, InOrder key date a b) (last : m.getLast? = some x) (hy : y ∈ m) : date y ≤ date x := by
  obtain ⟨front, rfl⟩ := List.getLast?_eq_some_iff.mp last
  have hx : x ∈ front ++ [x] := List.mem_append_right front (List.mem_singleton.mpr rfl)
  rcases List.mem_append.mp hy with front_y | rest
  · have before : key y < key x := (List.pairwise_append.mp sorted).2.2 y front_y x (List.mem_singleton.mpr rfl)
    exact (h y hy x hx).1 before
  · rw [List.mem_singleton.mp rest]

end Dates

end CppTransport.Library.OrderedMap
