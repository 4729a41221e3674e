import Mathlib.Data.List.InsertIdx
import Mathlib.Data.List.Nodup
import Mathlib.Data.List.Range
import Mathlib.Data.List.Sort

/-!
# Erasing positions one after the other

When positions of a list are erased one at a time, each counts what is left at its turn. `storedIndex` translates such a
position to the index that the entry had at first, and `erasures` collects these. The entries that are left in the end
are the others, in order (`foldl_eraseIdx_range`), so the positions are erased as if they had been taken out all at once
just if they collect themselves.
-/

namespace CppTransport.Library

/-- The first index of what is at a position once the entries `gone` have been erased; these are in increasing order. -/
def storedIndex : List ℕ → ℕ → ℕ
  | [], i => i
  | g :: gone, i => if g ≤ i then storedIndex gone (i + 1) else i

/-- Add what is erased to what is gone already, from a list of `n` entries; positions behind its end erase nothing. -/
def erasures (n : ℕ) : List ℕ → List ℕ → List ℕ
  | gone, [] => gone
  | gone, i :: is =>
    if storedIndex gone i < n then erasures n (gone.orderedInsert (· ≤ ·) (storedIndex gone i)) is
    else erasures n gone is

variable {n i : ℕ} {gone is : List ℕ}

theorem storedIndex_of_lt (h : ∀ g ∈ gone, i < g) : storedIndex gone i = i := by
  cases gone with
  | nil => rfl
  | cons g gone => rw [storedIndex, if_neg (Nat.not_le.mpr (h g List.mem_cons_self))]

theorem le_storedIndex (gone : List ℕ) (i : ℕ) : i ≤ storedIndex gone i := by
  induction gone generalizing i with
  | nil => exact le_rfl
  | cons g gone ih =>
    rw [storedIndex]
    split_ifs
    · exact (Nat.le_succ i).trans (ih (i + 1))
    · exact le_rfl

/-- What is at a position of a list of numbers from `s`, of which some are gone. -/
theorem getElem?_filter_range' {s len : ℕ} (sorted : gone.Pairwise (· < ·)) (inside : ∀ g ∈ gone, s ≤ g) :
    ((List.range' s len).filter (· ∉ gone))[i]? =
      if storedIndex gone (s + i) < s + len then some (storedIndex gone (s + i)) else none := by
  induction len generalizing s i gone with
  | zero =>
    have := le_storedIndex gone (s + i)
    rw [if_neg (by omega)]
    simp
  | succ len ih =>
    rw [List.range'_succ]
    by_cases first : s ∈ gone
    · obtain ⟨g, gone, rfl⟩ := List.exists_cons_of_ne_nil (List.ne_nil_of_mem first)
      obtain ⟨later, sorted⟩ := List.pairwise_cons.mp sorted
      obtain rfl : g = s := by
        rcases List.mem_cons.mp first with rfl | mem
        · rfl
        · have := later s mem
          have := inside g List.mem_cons_self
          omega
      have rest : (List.range' (g + 1) len).filter (· ∉ g :: gone) =
          (List.range' (g + 1) len).filter (· ∉ gone) := by
        refine List.filter_congr fun x hx => ?_
        have := List.mem_range'_1.mp hx
        simp only [List.mem_cons, decide_eq_decide]
        have ne : x ≠ g := by omega
        simp [ne]
      have shift : storedIndex (g :: gone) (g + i) = storedIndex gone (g + 1 + i) := by
        rw [storedIndex, if_pos (Nat.le_add_right g i), Nat.add_right_comm]
      rw [List.filter_cons_of_neg (by simp), rest, ih sorted later, shift, Nat.add_right_comm g 1 len, Nat.add_assoc]
    · have inside : ∀ g ∈ gone, s + 1 ≤ g := fun g hg => by
        have := inside g hg
        have ne : g ≠ s := fun same => first (same ▸ hg)
        omega
      rw [List.filter_cons_of_pos (by simpa using first)]
      cases i with
      | zero =>
        have stays : storedIndex gone (s + 0) = s := storedIndex_of_lt inside
        rw [stays, if_pos (by omega)]
        rfl
      | succ i =>
        rw [List.getElem?_cons_succ, ih sorted inside, Nat.add_right_comm s 1 i, Nat.add_right_comm s 1 len,
          Nat.add_assoc, Nat.add_assoc]

theorem getElem?_filter_range (sorted : gone.Pairwise (· < ·)) :
    ((List.range n).filter (· ∉ gone))[i]? = if storedIndex gone i < n then some (storedIndex gone i) else none := by
  have at_zero : ((List.range' 0 n).filter (· ∉ gone))[i]? =
      if storedIndex gone (0 + i) < 0 + n then some (storedIndex gone (0 + i)) else none :=
    getElem?_filter_range' sorted fun _ _ => Nat.zero_le _
  simpa only [← List.range_eq_range', Nat.zero_add] using at_zero

/-- **Erasing a position** takes out the entry that it stands for. -/
theorem eraseIdx_filter_range (sorted : gone.Pairwise (· < ·)) :
    ((List.range n).filter (· ∉ gone)).eraseIdx i =
      (List.range n).filter fun x => x ∉ gone ∧ (x = storedIndex gone i → n ≤ storedIndex gone i) := by
  have place := getElem?_filter_range (n := n) (i := i) sorted
  split_ifs at place with inside
  · obtain ⟨hi, entry⟩ := List.getElem?_eq_some_iff.mp place
    have nodup : ((List.range n).filter (· ∉ gone)).Nodup := List.nodup_range.filter _
    rw [← nodup.erase_getElem i hi, entry, nodup.erase_eq_filter, List.filter_filter]
    refine List.filter_congr fun x _ => ?_
    have reach : ¬ n ≤ storedIndex gone i := Nat.not_le.mpr inside
    by_cases same : x = storedIndex gone i <;> simp [same, reach]
  · rw [List.eraseIdx_of_length_le (List.getElem?_eq_none_iff.mp place)]
    refine List.filter_congr fun x _ => ?_
    simp [Nat.not_lt.mp inside]

theorem pairwise_orderedInsert {x : ℕ} (sorted : gone.Pairwise (· < ·)) (fresh : x ∉ gone) :
    (gone.orderedInsert (· ≤ ·) x).Pairwise (· < ·) := by
  have weakly : (gone.orderedInsert (· ≤ ·) x).Pairwise (· ≤ ·) := (sorted.imp Nat.le_of_lt).orderedInsert x gone
  have nodup : (gone.orderedInsert (· ≤ ·) x).Nodup :=
    (List.perm_orderedInsert _ x gone).nodup_iff.mpr (List.nodup_cons.mpr ⟨fresh, sorted.imp Nat.ne_of_lt⟩)
  exact (weakly.and nodup).imp fun h => lt_of_le_of_ne h.1 h.2

/-- **Erasing one position after the other** leaves the entries that `erasures` does not collect. -/
theorem foldl_eraseIdx_filter (sorted : gone.Pairwise (· < ·)) :
    is.foldl List.eraseIdx ((List.range n).filter (· ∉ gone)) = (List.range n).filter (· ∉ erasures n gone is) := by
  induction is generalizing gone with
  | nil => rfl
  | cons i is ih =>
    rw [List.foldl_cons, eraseIdx_filter_range sorted, erasures]
    split_ifs with inside
    · have fresh : storedIndex gone i ∉ gone := by
        have place := getElem?_filter_range (n := n) (i := i) sorted
        rw [if_pos inside] at place
        simpa using (List.mem_filter.mp (List.mem_of_getElem? place)).2
      rw [← ih (pairwise_orderedInsert sorted fresh)]
      congr 1
      refine List.filter_congr fun x _ => ?_
      have reach : ¬ n ≤ storedIndex gone i := Nat.not_le.mpr inside
      simp [List.mem_orderedInsert, reach, and_comm]
    · rw [← ih sorted]
      congr 1
      refine List.filter_congr fun x _ => ?_
      simp [Nat.not_lt.mp inside]

theorem foldl_eraseIdx_range (n : ℕ) (is : List ℕ) :
    is.foldl List.eraseIdx (List.range n) = (List.range n).filter (· ∉ erasures n [] is) := by
  have all : (List.range n).filter (· ∉ ([] : List ℕ)) = List.range n := by simp
  rw [← foldl_eraseIdx_filter .nil, all]

theorem map_foldl_eraseIdx {α β : Type*} (f : α → β) (l : List α) (is : List ℕ) :
    (is.foldl List.eraseIdx l).map f = is.foldl List.eraseIdx (l.map f) := by
  induction is generalizing l with
  | nil => rfl
  | cons i is ih => rw [List.foldl_cons, List.foldl_cons, ih, List.eraseIdx_map]

/-- **Any list**, with the indices of its entries. -/
theorem foldl_eraseIdx_zipIdx {α : Type*} (l : List α) (is : List ℕ) :
    is.foldl List.eraseIdx l.zipIdx = l.zipIdx.filter fun e => e.2 ∉ erasures l.length [] is := by
  have places : is.foldl List.eraseIdx (List.finRange l.length) =
      (List.finRange l.length).filter fun i => i.val ∉ erasures l.length [] is := by
    refine List.map_injective_iff.mpr Fin.val_injective ?_
    have values : (List.finRange l.length).map Fin.val = List.range l.length := by simp
    rw [map_foldl_eraseIdx, values, foldl_eraseIdx_range, ← values, List.filter_map]
    rfl
  have entries : l.zipIdx = (List.finRange l.length).map fun i => (l.get i, i.val) := by
    refine List.ext_getElem (by simp) fun i _ _ => ?_
    simp
  rw [entries, ← map_foldl_eraseIdx, places, List.filter_map]
  rfl

/-- Which entries a list of indices excludes. -/
theorem filter_zipIdx_eq_iff {α : Type*} (l : List α) {as bs : List ℕ} :
    (l.zipIdx.filter fun e => e.2 ∉ as) = (l.zipIdx.filter fun e => e.2 ∉ bs) ↔
      ∀ i < l.length, i ∈ as ↔ i ∈ bs := by
  constructor
  · intro same i hi
    have entry : (l[i], i) ∈ l.zipIdx := List.mem_zipIdx_iff_getElem?.mpr (by simp [hi])
    have mem : (l[i], i) ∈ (l.zipIdx.filter fun e => e.2 ∉ as) ↔ (l[i], i) ∈ l.zipIdx.filter fun e => e.2 ∉ bs := by
      rw [same]
    simp only [List.mem_filter, entry, true_and, decide_eq_true_eq] at mem
    exact not_iff_not.mp mem
  · intro same
    refine List.filter_congr fun e he => ?_
    have hi : e.2 < l.length := by
      obtain ⟨inside, -⟩ := List.getElem?_eq_some_iff.mp (List.mem_zipIdx_iff_getElem?.mp he)
      exact inside
    simp only [same e.2 hi]

end CppTransport.Library
