import CppTransport.Library.TriangularStorage
import Mathlib.Data.List.GetD
import Mathlib.Data.Matrix.Mul
import Mathlib.RingTheory.Derivation.Basic

/-!
# The curvature of field space

`Christoffel`, `Riemann_T` and `DRiemann_T` compute the connexion of the
field-space metric, its Riemann tensor and the covariant derivative of that, once,
when the resources of a nontrivial-metric model are built. Each keeps its
independent components in one flat vector and returns any component from there,
reordering the indices first.

## The model

Expressions are elements of a commutative ring over the rationals and
`GiNaC::diff` is a derivation of it. `FieldSpace` is what the three classes share:
the metric, its inverse and the derivative by each field. The vectors are lists
filled in the order of the loops (`gamma`, `rieT`, `rieTCovarDeriv`), and a
component is read at the position its `operator()` computes. A read outside a
vector, undefined in C++, returns the arbitrary `stray`.

## What is proved

For every metric each read is inside its vector (`christoffel_mem`,
`riemann_index_lt`, `dRiemann_index_lt`), although `DRiemann_T` steps from one
copy of the Riemann tensor to the next by fewer cells than a copy has
(`nRieT_le`). Where the metric is constant all three tensors vanish
(`christoffel_eq_zero`, `riemann_eq_zero`, `dRiemann_eq_zero`).
-/

namespace CppTransport.Translator

open Library.TriangularStorage

/-- What the curvature classes are built from. -/
structure FieldSpace (N : ℕ) (K : Type*) [CommRing K] [Algebra ℚ K] where
  /-- The metric. -/
  G : Matrix (Fin N) (Fin N) K
  /-- Its inverse, from `GiNaC::matrix::inverse`. -/
  Ginv : Matrix (Fin N) (Fin N) K
  /-- What `inverse` guarantees. -/
  mul_Ginv : G * Ginv = 1
  /-- `GiNaC::diff` by the symbol of a field. -/
  diff : Fin N → Derivation ℚ K K
  /-- What a read outside a vector returns. -/
  stray : K

namespace FieldSpace

variable {N : ℕ} {K : Type*} [CommRing K] [Algebra ℚ K] (M : FieldSpace N K)

/-! ### `Christoffel` -/

/-- One component as the constructor computes it. -/
def christoffelEntry (i j k : Fin N) : K :=
  ∑ m, (2⁻¹ : ℚ) • (M.Ginv i m * (M.diff k (M.G m j) + M.diff j (M.G m k) - M.diff m (M.G j k)))

/-- The components with `k ≤ j`, in the order of the loops. -/
def gamma : List K :=
  (List.finRange N).flatMap fun i => (List.finRange N).flatMap fun j =>
    (List.finRange (j.val + 1)).map fun k => M.christoffelEntry i j (Fin.castLE j.isLt k)

/-- `Christoffel::operator()`; `i` is the top index. -/
def christoffel (i j k : Fin N) : K :=
  let jk := if k > j then (k, j) else (j, k)
  M.gamma.getD ((i * N * (N + 1)) / 2 + withDiagonal jk.1 jk.2) M.stray

/-! ### `Riemann_T` -/

/-- One component `R_{ijkl}` as the constructor computes it. -/
def riemannEntry (i j k l : Fin N) : K :=
  ∑ n, (M.G n i * (M.diff k (M.christoffel n l j) - M.diff l (M.christoffel n k j))
    + ∑ m, M.G n i * (M.christoffel n k m * M.christoffel m l j
        - M.christoffel n l m * M.christoffel m k j))

/-- The components with `j < i` and `l < k`, the second pair not after the first. -/
def rieT : List K :=
  halfSquare (lowerTriangle N) (fun p => belowDiagonal p.1 p.2)
    fun p q => M.riemannEntry p.1 p.2 q.1 q.2

/-- The larger index of a pair first, with the sign of the exchange. -/
def ordered (i j : Fin N) : ℤ × Fin N × Fin N := if j > i then (-1, j, i) else (1, i, j)

/-- The numeric factor and the position of a component among those stored. -/
def pairIndex (i j k l : Fin N) : ℤ × ℕ :=
  let p := ordered i j
  let q := ordered k l
  let r := belowDiagonal p.2.1 p.2.2
  let s := belowDiagonal q.2.1 q.2.2
  let rs := if s > r then (s, r) else (r, s)
  (p.1 * q.1, withDiagonal rs.1 rs.2)

/-- `Riemann_T::operator()`. -/
def riemann (i j k l : Fin N) : K :=
  if i = j ∨ k = l then 0
  else (pairIndex i j k l).1 * M.rieT.getD (pairIndex i j k l).2 M.stray

/-! ### `DRiemann_T` -/

/-- One component `R_{ijkl;m}` as the constructor computes it. -/
def dRiemannEntry (m i j k l : Fin N) : K :=
  M.diff m (M.riemann i j k l)
    - ∑ n, (M.christoffel n m i * M.riemann n j k l + M.christoffel n m j * M.riemann i n k l
        + M.christoffel n m k * M.riemann i j n l + M.christoffel n m l * M.riemann i j k n)

/-- The components of one copy of the Riemann tensor after the other. -/
def rieTCovarDeriv : List K :=
  (List.finRange N).flatMap fun m =>
    halfSquare (lowerTriangle N) (fun p => belowDiagonal p.1 p.2)
      fun p q => M.dRiemannEntry m p.1 p.2 q.1 q.2

/-- `N_Rie_T`, taken for the number of components of one copy. -/
def nRieT (N : ℕ) : ℕ := N * (N - 1) * (N * N - N - 2) / 8

/-- `DRiemann_T::operator()`. -/
def dRiemann (i j k l m : Fin N) : K :=
  if i = j ∨ k = l then 0
  else (pairIndex i j k l).1 *
    M.rieTCovarDeriv.getD ((pairIndex i j k l).2 + m * nRieT N) M.stray

/-! ### Every read is inside its vector -/

private theorem getD_mem {α : Type*} {l : List α} {n : ℕ} (h : n < l.length) (d : α) :
    l.getD n d ∈ l := by
  rw [List.getD_eq_getElem _ _ h]
  exact List.getElem_mem h

theorem length_gamma : M.gamma.length = N * triangle N := by
  refine length_flatMap_finRange fun i => ?_
  rw [List.length_flatMap, ← sum_range_succ_eq_triangle, ← List.map_coe_finRange_eq_range,
    List.map_map]
  simp [Function.comp_def]

theorem christoffel_mem (i j k : Fin N) : M.christoffel i j k ∈ M.gamma := by
  have hrow : (i * N * (N + 1)) / 2 = i * triangle N := by
    have h := two_mul_triangle N
    rw [Nat.mul_assoc, ← h, ← Nat.mul_assoc, Nat.mul_comm (i : ℕ) 2, Nat.mul_assoc,
      Nat.mul_div_cancel_left _ two_pos]
  have hlast : (i + 1) * triangle N ≤ N * triangle N := Nat.mul_le_mul_right _ i.isLt
  have hexp : ((i : ℕ) + 1) * triangle N = i * triangle N + triangle N := by ring
  unfold christoffel
  refine getD_mem ?_ _
  rw [M.length_gamma, hrow]
  split
  case isTrue h =>
    have := withDiagonal_lt (Fin.le_def.1 h.le) k.isLt
    simp only
    omega
  case isFalse h =>
    have := withDiagonal_lt (Fin.le_def.1 (not_lt.1 h)) j.isLt
    simp only
    omega

theorem length_rieT : M.rieT.length = triangle (triangle (N - 1)) :=
  length_halfSquare (map_belowDiagonal_lowerTriangle N) _

theorem length_rieTCovarDeriv :
    M.rieTCovarDeriv.length = N * triangle (triangle (N - 1)) :=
  length_flatMap_finRange fun _ => length_halfSquare (map_belowDiagonal_lowerTriangle N) _

theorem ordered_lt {i j : Fin N} (h : i ≠ j) : (ordered i j).2.2 < (ordered i j).2.1 := by
  unfold ordered
  split
  case isTrue h' => exact h'
  case isFalse h' => exact lt_of_le_of_ne (not_lt.1 h') (Ne.symm h)

theorem pairIndex_lt {i j k l : Fin N} (hij : i ≠ j) (hkl : k ≠ l) :
    (pairIndex i j k l).2 < triangle (triangle (N - 1)) := by
  have hr := belowDiagonal_lt (Fin.lt_def.1 (ordered_lt hij)) (ordered i j).2.1.isLt
  have hs := belowDiagonal_lt (Fin.lt_def.1 (ordered_lt hkl)) (ordered k l).2.1.isLt
  unfold pairIndex
  simp only
  split
  case isTrue h => exact withDiagonal_lt h.le hs
  case isFalse h => exact withDiagonal_lt (not_lt.1 h) hr

theorem riemann_index_lt {i j k l : Fin N} (hij : i ≠ j) (hkl : k ≠ l) :
    (pairIndex i j k l).2 < M.rieT.length := by
  rw [M.length_rieT]
  exact pairIndex_lt hij hkl

/-- The step from copy to copy is not larger than a copy. -/
theorem nRieT_le (N : ℕ) : nRieT N ≤ triangle (triangle (N - 1)) := by
  have hP : N * (N - 1) = 2 * triangle (N - 1) := by
    cases N with
    | zero => rfl
    | succ n => rw [two_mul_triangle, Nat.add_sub_cancel, Nat.mul_comm]
  have hS : N * N - N - 2 ≤ 2 * triangle (N - 1) := by
    rw [← hP, Nat.mul_sub, Nat.mul_one]
    omega
  have hT := two_mul_triangle (triangle (N - 1))
  unfold nRieT
  refine (Nat.div_le_div_right (Nat.mul_le_mul hP.le hS)).trans ?_
  refine Nat.div_le_of_le_mul ?_
  have he : 2 * triangle (N - 1) * (2 * triangle (N - 1))
      ≤ 4 * (triangle (N - 1) * (triangle (N - 1) + 1)) := by
    have : 2 * triangle (N - 1) * (2 * triangle (N - 1))
        = 4 * (triangle (N - 1) * triangle (N - 1)) := by ring
    rw [this]
    exact Nat.mul_le_mul_left 4 (Nat.mul_le_mul_left _ (Nat.le_succ _))
  omega

theorem dRiemann_index_lt {i j k l : Fin N} (hij : i ≠ j) (hkl : k ≠ l) (m : Fin N) :
    (pairIndex i j k l).2 + m * nRieT N < M.rieTCovarDeriv.length := by
  have hp := pairIndex_lt hij hkl
  have hm : m * nRieT N ≤ m * triangle (triangle (N - 1)) := Nat.mul_le_mul_left _ (nRieT_le N)
  have hlast : (m + 1) * triangle (triangle (N - 1)) ≤ N * triangle (triangle (N - 1)) :=
    Nat.mul_le_mul_right _ m.isLt
  have hexp : ((m : ℕ) + 1) * triangle (triangle (N - 1))
      = m * triangle (triangle (N - 1)) + triangle (triangle (N - 1)) := by ring
  rw [M.length_rieTCovarDeriv]
  omega

/-! ### A constant metric is flat -/

/-- No component of the metric depends on a field. -/
def Constant : Prop := ∀ m i j, M.diff m (M.G i j) = 0

variable {M}

theorem christoffel_eq_zero (h : M.Constant) (i j k : Fin N) : M.christoffel i j k = 0 := by
  have hentry : ∀ i j k, M.christoffelEntry i j k = 0 := by
    intro i j k
    exact Finset.sum_eq_zero fun m _ => by simp [h k m j, h j m k, h m j k]
  have hmem := M.christoffel_mem i j k
  simp only [gamma, List.mem_flatMap, List.mem_map, hentry] at hmem
  obtain ⟨_, _, _, _, _, _, h0⟩ := hmem
  exact h0.symm

theorem riemann_eq_zero (h : M.Constant) (i j k l : Fin N) : M.riemann i j k l = 0 := by
  have hentry : ∀ i j k l, M.riemannEntry i j k l = 0 := by
    intro i j k l
    exact Finset.sum_eq_zero fun n _ => by simp [christoffel_eq_zero h]
  unfold riemann
  split
  case isTrue => rfl
  case isFalse hne =>
    obtain ⟨hij, hkl⟩ := not_or.1 hne
    obtain ⟨p, _, q, _, he⟩ := mem_halfSquare (getD_mem (M.riemann_index_lt hij hkl) M.stray)
    rw [he, hentry, mul_zero]

theorem dRiemann_eq_zero (h : M.Constant) (i j k l m : Fin N) : M.dRiemann i j k l m = 0 := by
  have hentry : ∀ m i j k l, M.dRiemannEntry m i j k l = 0 := by
    intro m i j k l
    simp [dRiemannEntry, riemann_eq_zero h]
  unfold dRiemann
  split
  case isTrue => rfl
  case isFalse hne =>
    obtain ⟨hij, hkl⟩ := not_or.1 hne
    have hmem := getD_mem (M.dRiemann_index_lt hij hkl m) M.stray
    obtain ⟨m', _, hmem'⟩ := List.mem_flatMap.1 hmem
    obtain ⟨p, _, q, _, he⟩ := mem_halfSquare hmem'
    rw [he, hentry, mul_zero]

/-! ### The identity matrix -/

theorem constant_of_identity (h : M.G = 1) : M.Constant := by
  intro m i j
  rw [h, Matrix.one_apply]
  split
  case isTrue => exact (M.diff m).map_one_eq_zero
  case isFalse => exact map_zero _

theorem Ginv_of_identity (h : M.G = 1) : M.Ginv = 1 := by
  have hinv := M.mul_Ginv
  rwa [h, Matrix.one_mul] at hinv

end FieldSpace

end CppTransport.Translator
