import Mathlib.Algebra.BigOperators.Fin
import Mathlib.Algebra.BigOperators.Group.List.Basic
import Mathlib.Data.List.FinRange
import Mathlib.Tactic.Ring

/-!
# Triangular storage

An array that is symmetric or antisymmetric in a pair of indices is often kept as
one flat list holding its lower triangle, row after row. This module counts the
cells of such lists and bounds the positions the usual index formulas give.

`triangle n` is the number of cells of a triangle with rows of `1, …, n` cells.
`withDiagonal j k` is the position of the cell `k ≤ j` when row `j` has `j + 1`
cells, `belowDiagonal i j` that of `j < i` when row `i` has `i` cells, and
`lowerTriangle n` the cells below the diagonal in the order a double loop visits
them. A list that keeps, for each item, its values against the items up to it is a
`halfSquare`; four-index arrays with the symmetries of a curvature are stored so.
-/

namespace CppTransport.Library.TriangularStorage

/-- The cells of a triangle with `n` rows. -/
def triangle (n : ℕ) : ℕ := n * (n + 1) / 2

@[simp]
theorem triangle_zero : triangle 0 = 0 := rfl

theorem two_mul_triangle (n : ℕ) : 2 * triangle n = n * (n + 1) := by
  unfold triangle
  have h : 2 ∣ n * (n + 1) := (Nat.even_mul_succ_self n).two_dvd
  omega

theorem triangle_succ (n : ℕ) : triangle (n + 1) = triangle n + (n + 1) := by
  have h := two_mul_triangle n
  have h' := two_mul_triangle (n + 1)
  have he : (n + 1) * (n + 1 + 1) = n * (n + 1) + 2 * (n + 1) := by ring
  omega

theorem triangle_mono {m n : ℕ} (h : m ≤ n) : triangle m ≤ triangle n :=
  Nat.div_le_div_right (Nat.mul_le_mul h (by omega))

theorem sum_range_succ_eq_triangle (n : ℕ) : ((List.range n).map (· + 1)).sum = triangle n := by
  induction n with
  | zero => rfl
  | succ n ih => simp [List.range_succ, ih, triangle_succ]

/-! ### Positions -/

/-- The position of the cell `k ≤ j` of a triangle that has its diagonal. -/
def withDiagonal (j k : ℕ) : ℕ := j * (j + 1) / 2 + k

/-- The position of the cell `j < i` of a triangle without its diagonal. -/
def belowDiagonal (i j : ℕ) : ℕ := i * (i - 1) / 2 + j

theorem withDiagonal_lt {n j k : ℕ} (hk : k ≤ j) (hj : j < n) : withDiagonal j k < triangle n := by
  have h : triangle (j + 1) ≤ triangle n := triangle_mono hj
  have hs := triangle_succ j
  unfold withDiagonal
  change triangle j + k < triangle n
  omega

theorem belowDiagonal_eq {i j : ℕ} : belowDiagonal i j = triangle (i - 1) + j := by
  cases i with
  | zero => simp [belowDiagonal]
  | succ i => simp [belowDiagonal, triangle, Nat.mul_comm]

theorem belowDiagonal_lt {n i j : ℕ} (hj : j < i) (hi : i < n) :
    belowDiagonal i j < triangle (n - 1) := by
  rw [belowDiagonal_eq]
  obtain ⟨i, rfl⟩ : ∃ m, i = m + 1 := ⟨i - 1, by omega⟩
  have h : triangle (i + 1) ≤ triangle (n - 1) := triangle_mono (by omega)
  have hs := triangle_succ i
  simp only [Nat.add_sub_cancel]
  omega

/-! ### The cells below the diagonal -/

/-- The pairs `j < i` below `n`, in the order of a double loop. -/
def lowerTriangle (n : ℕ) : List (Fin n × Fin n) :=
  (List.finRange n).flatMap fun i : Fin n =>
    (List.finRange i.val).map fun j => (i, Fin.castLE i.isLt.le j)

theorem mem_lowerTriangle {n : ℕ} {p : Fin n × Fin n} : p ∈ lowerTriangle n ↔ p.2 < p.1 := by
  obtain ⟨i, j⟩ := p
  simp only [lowerTriangle, List.mem_flatMap, List.mem_finRange, true_and, List.mem_map, Prod.mk.injEq]
  constructor
  · rintro ⟨a, b, rfl, rfl⟩
    exact b.isLt
  · intro h
    exact ⟨i, ⟨j, h⟩, rfl, rfl⟩

/-- The double loop visits the positions of the triangle one after the other. -/
theorem map_belowDiagonal_lowerTriangle (n : ℕ) :
    (lowerTriangle n).map (fun p => belowDiagonal p.1 p.2) = List.range (triangle (n - 1)) := by
  have h : ∀ m, (List.range m).flatMap (fun i => (List.range i).map (belowDiagonal i))
      = List.range (triangle (m - 1)) := by
    intro m
    induction m with
    | zero => rfl
    | succ m ih =>
      have ht : triangle m = triangle (m - 1) + m := by
        cases m with
        | zero => rfl
        | succ m => exact triangle_succ m
      rw [List.range_succ, List.flatMap_append, ih, Nat.add_sub_cancel, ht, List.range_add]
      congr 1
      rw [List.flatMap_singleton]
      exact List.map_congr_left fun j _ => belowDiagonal_eq
  rw [← h n, lowerTriangle, List.map_flatMap, ← List.map_coe_finRange_eq_range, List.flatMap_map]
  congr 1
  funext i
  rw [← List.map_coe_finRange_eq_range, List.map_map, List.map_map]
  rfl

/-! ### Items numbered in order -/

section Numbered

variable {α β : Type*} {cells : List α} {code : α → ℕ} {n : ℕ}

/-- Items numbered in order: the number of an item is its place. -/
theorem code_getElem (h : cells.map code = List.range n) {i : ℕ} (hi : i < cells.length) : code cells[i] = i := by
  have numbers := List.getElem_of_eq h (by rwa [List.length_map] : i < (cells.map code).length)
  simpa using numbers

theorem getElem?_code (h : cells.map code = List.range n) {p : α} (hp : p ∈ cells) : cells[code p]? = some p := by
  obtain ⟨i, hi, rfl⟩ := List.getElem_of_mem hp
  rw [code_getElem h hi, List.getElem?_eq_getElem hi]

theorem code_lt (h : cells.map code = List.range n) {p : α} (hp : p ∈ cells) : code p < n := by
  have number : code p ∈ cells.map code := List.mem_map_of_mem hp
  rwa [h, List.mem_range] at number

/-- The items up to one of them come first. -/
theorem filter_code_le (h : cells.map code = List.range n) (r : ℕ) :
    cells.filter (fun q => code q ≤ r) = cells.take (r + 1) := by
  have before : (cells.take (r + 1)).filter (fun q => code q ≤ r) = cells.take (r + 1) := by
    refine List.filter_eq_self.mpr fun a ha => ?_
    obtain ⟨i, hi, rfl⟩ := List.mem_take_iff_getElem.mp ha
    rw [code_getElem h]
    exact decide_eq_true (by omega)
  have after : (cells.drop (r + 1)).filter (fun q => code q ≤ r) = [] := by
    refine List.filter_eq_nil_iff.mpr fun a ha => ?_
    obtain ⟨i, hi, rfl⟩ := List.mem_drop_iff_getElem.mp ha
    rw [code_getElem h, decide_eq_true_iff]
    omega
  conv_lhs => rw [← List.take_append_drop (r + 1) cells]
  rw [List.filter_append, before, after, List.append_nil]

/-! ### Values against the items before -/

/-- For each item its values against the items that do not come after it. -/
def halfSquare (cells : List α) (code : α → ℕ) (f : α → α → β) : List β :=
  cells.flatMap fun p => (cells.filter fun q => code q ≤ code p).map (f p)

theorem mem_halfSquare {cells : List α} {code : α → ℕ} {f : α → α → β} {b : β}
    (h : b ∈ halfSquare cells code f) : ∃ p ∈ cells, ∃ q ∈ cells, b = f p q := by
  simp only [halfSquare, List.mem_flatMap, List.mem_map, List.mem_filter] at h
  obtain ⟨p, hp, q, ⟨hq, _⟩, rfl⟩ := h
  exact ⟨p, hp, q, hq, rfl⟩

/-- The values of an item, one more than there are items before it. -/
theorem length_row (h : cells.map code = List.range n) (f : α → α → β) {p : α} (hp : p ∈ cells) :
    ((cells.filter fun q => code q ≤ code p).map (f p)).length = code p + 1 := by
  have length : cells.length = n := by simpa using congrArg List.length h
  have inside := code_lt h hp
  rw [filter_code_le h, List.length_map, List.length_take]
  omega

/-- The values of the first items. -/
theorem length_rows (h : cells.map code = List.range n) (f : α → α → β) {m : ℕ} (hm : m ≤ n) :
    ((cells.take m).flatMap fun p => (cells.filter fun q => code q ≤ code p).map (f p)).length = triangle m := by
  have here : (cells.take m).map code = List.range m := by
    rw [List.map_take, h, List.take_range, Nat.min_eq_left hm]
  rw [List.length_flatMap, ← sum_range_succ_eq_triangle, ← here, List.map_map]
  congr 1
  exact List.map_congr_left fun p hp => length_row h f (List.mem_of_mem_take hp)

/-- Items numbered `0, …, n - 1` in order have a triangle of values. -/
theorem length_halfSquare (h : cells.map code = List.range n) (f : α → α → β) :
    (halfSquare cells code f).length = triangle n := by
  have length : cells.length = n := by simpa using congrArg List.length h
  have rows := length_rows h f le_rfl
  rwa [List.take_of_length_le length.le] at rows

/-- A value stands behind the triangle of the rows before its own. -/
theorem getElem?_halfSquare (h : cells.map code = List.range n) (f : α → α → β) {p q : α} (hp : p ∈ cells)
    (hq : q ∈ cells) (hle : code q ≤ code p) :
    (halfSquare cells code f)[withDiagonal (code p) (code q)]? = some (f p q) := by
  have rows := length_rows h f (code_lt h hp).le
  have row := length_row h f hp
  obtain ⟨inside, at_place⟩ := List.getElem?_eq_some_iff.mp (getElem?_code h hp)
  have split : cells = cells.take (code p) ++ p :: cells.drop (code p + 1) := by
    conv_lhs => rw [← List.take_append_drop (code p) cells, List.drop_eq_getElem_cons inside, at_place]
  have place : withDiagonal (code p) (code q) = triangle (code p) + code q := rfl
  have values (row : α → List β) : cells.flatMap row =
      (cells.take (code p)).flatMap row ++ (row p ++ (cells.drop (code p + 1)).flatMap row) := by
    conv_lhs => rw [split, List.flatMap_append, List.flatMap_cons]
  rw [halfSquare, values, List.getElem?_append_right (by omega), place, rows, Nat.add_sub_cancel_left,
    List.getElem?_append_left (by omega), filter_code_le h, List.getElem?_map, List.getElem?_take_of_lt (by omega),
    getElem?_code h hq, Option.map_some]

/-- Every place below a triangle is that of a cell. -/
theorem exists_withDiagonal {t : ℕ} (h : t < triangle n) : ∃ j < n, ∃ k ≤ j, withDiagonal j k = t := by
  induction n with
  | zero => exact absurd h (Nat.not_lt_zero t)
  | succ n ih =>
    by_cases before : t < triangle n
    · obtain ⟨j, hj, k, hk, place⟩ := ih before
      exact ⟨j, hj.trans n.lt_succ_self, k, hk, place⟩
    · rw [triangle_succ] at h
      refine ⟨n, n.lt_succ_self, t - triangle n, by omega, ?_⟩
      change triangle n + (t - triangle n) = t
      omega

/-- Every value that is kept is one of an item against one up to it. -/
theorem exists_of_lt_triangle (h : cells.map code = List.range n) {t : ℕ} (ht : t < triangle n) :
    ∃ p ∈ cells, ∃ q ∈ cells, code q ≤ code p ∧ withDiagonal (code p) (code q) = t := by
  have length : cells.length = n := by simpa using congrArg List.length h
  obtain ⟨j, hj, k, hk, place⟩ := exists_withDiagonal ht
  refine ⟨cells[j], List.getElem_mem _, cells[k], List.getElem_mem _, ?_⟩
  rw [code_getElem h, code_getElem h]
  exact ⟨hk, place⟩

end Numbered

/-! ### Blocks of equal length -/

/-- A list made of `n` blocks of one length. -/
theorem length_flatMap_finRange {β : Type*} {n len : ℕ} {f : Fin n → List β}
    (h : ∀ i, (f i).length = len) : ((List.finRange n).flatMap f).length = n * len := by
  rw [List.length_flatMap]
  simp [h]

end CppTransport.Library.TriangularStorage
