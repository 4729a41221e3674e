import CppTransport.Library.IndexLoops
import CppTransport.Translator.CurvatureTensors
import Mathlib.Algebra.Polynomial.Derivation
import Mathlib.LinearAlgebra.Matrix.Notation
import Mathlib.Tactic.LinearCombination
import Mathlib.Tactic.Module
import Mathlib.Tactic.Polynomial.Basic

/-!
# Components of the curvature

What `Christoffel`, `Riemann_T` and `DRiemann_T` return is compared with the tensors of the textbooks: the Levi-Civita
connexion of the metric, its Riemann tensor with all indices down, and the covariant derivative of that.

## What is proved

The symmetries of the Riemann tensor (`curvature_symmetries`) come from the metric alone, so that the component that
is kept gives all others. `Christoffel` and `Riemann_T` always return the right component. `DRiemann_T` steps from one
copy to the next by `N_Rie_T` cells, fewer than a copy has, and is right only where the derivatives repeat after so many
cells (`correct_iff`).
-/

set_option linter.unusedSectionVars false

namespace CppTransport.Translator

open Library Library.TriangularStorage

/-- A field space: the metric is symmetric, and derivatives by different fields commute. -/
structure Geometry (N : ℕ) (K : Type*) [CommRing K] [Algebra ℚ K] extends FieldSpace N K where
  G_symm : ∀ i j, G i j = G j i
  diff_comm : ∀ i j f, diff i (diff j f) = diff j (diff i f)

namespace Geometry

variable {N : ℕ} {K : Type*} [CommRing K] [Algebra ℚ K] (M : Geometry N K)

/-! ### The tensors of the textbooks -/

/-- The connexion with its first index down. -/
def lowered (i j k : Fin N) : K := (2⁻¹ : ℚ) • (M.diff k (M.G i j) + M.diff j (M.G i k) - M.diff i (M.G j k))

/-- The Levi-Civita connexion; `i` is the top index. -/
def leviCivita (i j k : Fin N) : K := ∑ m, M.Ginv i m * M.lowered m j k

/-- The Riemann tensor with all indices down. -/
def curvature (i j k l : Fin N) : K :=
  ∑ n, M.G i n * (M.diff k (M.leviCivita n l j) - M.diff l (M.leviCivita n k j)
    + ∑ m, (M.leviCivita n k m * M.leviCivita m l j - M.leviCivita n l m * M.leviCivita m k j))

/-- The covariant derivative of the Riemann tensor in direction `m`. -/
def covariantDerivative (m i j k l : Fin N) : K :=
  M.diff m (M.curvature i j k l) - ∑ n, M.leviCivita n m i * M.curvature n j k l
    - ∑ n, M.leviCivita n m j * M.curvature i n k l - ∑ n, M.leviCivita n m k * M.curvature i j n l
    - ∑ n, M.leviCivita n m l * M.curvature i j k n

variable {M}

/-! ### Symmetries -/

theorem lowered_comm (i j k : Fin N) : M.lowered i j k = M.lowered i k j := by
  rw [lowered, lowered, M.G_symm j k, add_comm (M.diff k _)]

theorem leviCivita_comm (i j k : Fin N) : M.leviCivita i j k = M.leviCivita i k j := by
  simp only [leviCivita, M.lowered_comm _ j k]

/-- The connexion is that of the metric. -/
theorem diff_G (i j k : Fin N) : M.diff k (M.G i j) = M.lowered i j k + M.lowered j i k := by
  rw [lowered, lowered, M.G_symm j i, M.G_symm i k, M.G_symm j k]
  module

theorem sum_G_Ginv (i m : Fin N) : ∑ n, M.G i n * M.Ginv n m = if i = m then 1 else 0 := by
  rw [← Matrix.mul_apply, M.mul_Ginv, Matrix.one_apply]

/-- The top index of the connexion comes down. -/
theorem sum_G_leviCivita (i j k : Fin N) : ∑ n, M.G i n * M.leviCivita n j k = M.lowered i j k := by
  simp only [leviCivita, Finset.mul_sum, ← mul_assoc]
  rw [Finset.sum_comm]
  simp only [← Finset.sum_mul, sum_G_Ginv, ite_mul, one_mul, zero_mul, Finset.sum_ite_eq, Finset.mem_univ, if_true]

/-- The product of two connexions, contracted over their top indices. -/
def product (M : Geometry N K) (a b c d : Fin N) : K := ∑ n, M.lowered n a b * M.leviCivita n c d

theorem product_swap (a b c d : Fin N) : M.product a b c d = M.product c d a b := by
  simp only [product, ← sum_G_leviCivita, Finset.sum_mul]
  rw [Finset.sum_comm]
  refine Finset.sum_congr rfl fun p _ => Finset.sum_congr rfl fun n _ => ?_
  rw [M.G_symm p n]
  ring

theorem product_comm (a b c d : Fin N) : M.product a b c d = M.product b a d c := by
  simp only [product, lowered_comm _ a b, leviCivita_comm _ c d]

/-- The derivative of the connexion, with its index down. -/
theorem sum_G_diff (i j k l : Fin N) : ∑ n, M.G i n * M.diff k (M.leviCivita n l j) =
    M.diff k (M.lowered i l j) - ∑ n, (M.lowered i n k + M.lowered n i k) * M.leviCivita n l j := by
  have whole : M.diff k (M.lowered i l j) =
      ∑ n, (M.G i n * M.diff k (M.leviCivita n l j) + M.leviCivita n l j * M.diff k (M.G i n)) := by
    rw [← sum_G_leviCivita, map_sum]
    exact Finset.sum_congr rfl fun n _ => by rw [Derivation.leibniz, smul_eq_mul, smul_eq_mul]
  rw [whole, Finset.sum_add_distrib, add_sub_assoc, left_eq_add, sub_eq_zero]
  exact Finset.sum_congr rfl fun n _ => by rw [diff_G, mul_comm]

/-- The Riemann tensor by connexions with their index down. -/
theorem curvature_eq (i j k l : Fin N) : M.curvature i j k l =
    M.diff k (M.lowered i l j) - M.diff l (M.lowered i k j) - (M.product i k l j - M.product i l k j) := by
  have contracted (k l : Fin N) : ∑ n, M.G i n * ∑ m, M.leviCivita n k m * M.leviCivita m l j =
      ∑ n, M.lowered i n k * M.leviCivita n l j := by
    simp only [Finset.mul_sum, ← mul_assoc]
    rw [Finset.sum_comm]
    refine Finset.sum_congr rfl fun m _ => ?_
    rw [← Finset.sum_mul, sum_G_leviCivita, lowered_comm]
  have split : M.curvature i j k l =
      ∑ n, M.G i n * M.diff k (M.leviCivita n l j) - ∑ n, M.G i n * M.diff l (M.leviCivita n k j)
        + (∑ n, M.G i n * ∑ m, M.leviCivita n k m * M.leviCivita m l j
          - ∑ n, M.G i n * ∑ m, M.leviCivita n l m * M.leviCivita m k j) := by
    simp only [curvature, Finset.sum_sub_distrib, mul_add, mul_sub, Finset.sum_add_distrib]
  rw [split, contracted, contracted, sum_G_diff, sum_G_diff]
  simp only [product, add_mul, Finset.sum_add_distrib]
  ring

/-- The symmetries of a Riemann tensor. -/
structure Symmetries (R : Fin N → Fin N → Fin N → Fin N → K) : Prop where
  first : ∀ i j k l, R j i k l = -R i j k l
  second : ∀ i j k l, R i j l k = -R i j k l
  pairs : ∀ i j k l, R k l i j = R i j k l

/-- The second derivatives of the metric in the Riemann tensor. -/
theorem diff_lowered_sub (i j k l : Fin N) : M.diff k (M.lowered i l j) - M.diff l (M.lowered i k j) =
    (2⁻¹ : ℚ) • (M.diff k (M.diff j (M.G i l)) - M.diff k (M.diff i (M.G l j))
      - M.diff l (M.diff j (M.G i k)) + M.diff l (M.diff i (M.G k j))) := by
  simp only [lowered, Derivation.map_smul, map_sub, map_add]
  rw [M.diff_comm l k]
  module

/-- **The Riemann tensor** has its symmetries. -/
theorem curvature_symmetries : Symmetries M.curvature where
  first i j k l := by
    have left : M.product j k l i = M.product i l k j := by rw [product_swap, product_comm]
    have right : M.product j l k i = M.product i k l j := by rw [product_swap, product_comm]
    rw [curvature_eq, curvature_eq, diff_lowered_sub, diff_lowered_sub, left, right, M.G_symm j l, M.G_symm l i,
      M.G_symm j k, M.G_symm k i]
    module
  second i j k l := by
    rw [curvature_eq, curvature_eq]
    ring
  pairs i j k l := by
    have left : M.product k i j l = M.product i k l j := product_comm ..
    have right : M.product k j i l = M.product i l k j := by rw [product_swap]
    rw [curvature_eq, curvature_eq, diff_lowered_sub, diff_lowered_sub, left, right, M.diff_comm i l, M.diff_comm i k,
      M.diff_comm j l, M.diff_comm j k, M.G_symm j l, M.G_symm k i]
    module

/-! ### What is stored -/

/-- The numbers below `N` are numbered by themselves. -/
theorem map_val_finRange (N : ℕ) : (List.finRange N).map Fin.val = List.range N := List.map_coe_finRange_eq_range

/-- A row of the connexion has the components up to the diagonal. -/
theorem map_castLE_finRange {j : Fin N} :
    (List.finRange (j.val + 1)).map (Fin.castLE j.isLt) = (List.finRange N).filter fun k => k.val ≤ j.val := by
  rw [filter_code_le (map_val_finRange N)]
  refine List.ext_getElem (by simp) fun i _ _ => ?_
  simp

theorem gamma_eq : M.gamma =
    (List.finRange N).flatMap fun i => halfSquare (List.finRange N) Fin.val (M.christoffelEntry i) := by
  unfold FieldSpace.gamma halfSquare
  congr
  funext i
  congr
  funext j
  rw [← map_castLE_finRange, List.map_map]
  rfl

/-- A component of the connexion stands where it is looked for. -/
theorem getElem?_gamma {i j k : Fin N} (h : k ≤ j) :
    M.gamma[(i * N * (N + 1)) / 2 + withDiagonal j k]? = some (M.christoffelEntry i j k) := by
  have block : (i * N * (N + 1)) / 2 = triangle N * i := by
    rw [Nat.mul_assoc, ← two_mul_triangle, Nat.mul_left_comm, Nat.mul_div_cancel_left _ two_pos, Nat.mul_comm]
  have here : (List.finRange N)[(i : ℕ)]? = some i := by simp
  rw [gamma_eq, block, getElem?_flatMap_of_length _ (fun i _ => length_halfSquare (map_val_finRange N) _) here
    (withDiagonal_lt h j.isLt)]
  exact getElem?_halfSquare (map_val_finRange N) _ (List.mem_finRange j) (List.mem_finRange k) h

theorem christoffelEntry_eq (i j k : Fin N) : M.christoffelEntry i j k = M.leviCivita i j k := by
  refine Finset.sum_congr rfl fun m _ => ?_
  rw [lowered, mul_smul_comm, add_comm (M.diff k _)]

/-- **`Christoffel`** returns the Levi-Civita connexion. -/
theorem christoffel_eq (i j k : Fin N) : M.christoffel i j k = M.leviCivita i j k := by
  unfold FieldSpace.christoffel
  by_cases h : k > j
  · simp only [if_pos h, List.getD_eq_getElem?_getD, getElem?_gamma h.le, Option.getD_some]
    rw [christoffelEntry_eq, leviCivita_comm]
  · simp only [if_neg h, List.getD_eq_getElem?_getD, getElem?_gamma (not_lt.mp h), Option.getD_some]
    exact christoffelEntry_eq i j k

/-- One component after another of a tensor with the symmetries of the Riemann tensor. -/
def packed (R : Fin N → Fin N → Fin N → Fin N → K) : List K :=
  halfSquare (lowerTriangle N) (fun p => belowDiagonal p.1 p.2) fun p q => R p.1 p.2 q.1 q.2

/-- A component with its indices in order. -/
theorem getElem?_packed (R : Fin N → Fin N → Fin N → Fin N → K) {i j k l : Fin N} (hij : j < i) (hkl : l < k)
    (hle : belowDiagonal k l ≤ belowDiagonal i j) :
    (packed R)[withDiagonal (belowDiagonal i j) (belowDiagonal k l)]? = some (R i j k l) :=
  getElem?_halfSquare (map_belowDiagonal_lowerTriangle N) (fun p q => R p.1 p.2 q.1 q.2)
    (mem_lowerTriangle.mpr hij : (i, j) ∈ lowerTriangle N) (mem_lowerTriangle.mpr hkl : (k, l) ∈ lowerTriangle N) hle

/-- To put the first pair in order costs its sign. -/
theorem ordered_first {R : Fin N → Fin N → Fin N → Fin N → K} (symmetries : Symmetries R) (i j k l : Fin N) :
    ((FieldSpace.ordered i j).1 : K) * R (FieldSpace.ordered i j).2.1 (FieldSpace.ordered i j).2.2 k l = R i j k l := by
  unfold FieldSpace.ordered
  split_ifs
  · simp [symmetries.first i j]
  · simp

theorem ordered_second {R : Fin N → Fin N → Fin N → Fin N → K} (symmetries : Symmetries R) (i j k l : Fin N) :
    ((FieldSpace.ordered k l).1 : K) * R i j (FieldSpace.ordered k l).2.1 (FieldSpace.ordered k l).2.2 = R i j k l := by
  unfold FieldSpace.ordered
  split_ifs
  · simp [symmetries.second i j k]
  · simp

/-- **What is kept** gives all components, up to the sign. -/
theorem packed_pairIndex {R : Fin N → Fin N → Fin N → Fin N → K} (symmetries : Symmetries R) {i j k l : Fin N}
    (hij : i ≠ j) (hkl : k ≠ l) : ∃ x, (packed R)[(FieldSpace.pairIndex i j k l).2]? = some x ∧
      ((FieldSpace.pairIndex i j k l).1 : K) * x = R i j k l := by
  have first := FieldSpace.ordered_lt hij
  have second := FieldSpace.ordered_lt hkl
  have signs : ((FieldSpace.pairIndex i j k l).1 : K) * R (FieldSpace.ordered i j).2.1 (FieldSpace.ordered i j).2.2
      (FieldSpace.ordered k l).2.1 (FieldSpace.ordered k l).2.2 = R i j k l := by
    rw [← ordered_first symmetries i j k l, ← ordered_second symmetries _ _ k l, ← mul_assoc]
    simp [FieldSpace.pairIndex]
  simp only [FieldSpace.pairIndex] at signs ⊢
  split_ifs with exchanged
  · refine ⟨_, getElem?_packed R second first exchanged.le, ?_⟩
    rw [symmetries.pairs]
    exact signs
  · exact ⟨_, getElem?_packed R first second (not_lt.mp exchanged), signs⟩

theorem riemannEntry_eq (i j k l : Fin N) : M.riemannEntry i j k l = M.curvature i j k l := by
  simp only [FieldSpace.riemannEntry, curvature, christoffel_eq, mul_add, Finset.mul_sum, M.G_symm _ i]

theorem rieT_eq : M.rieT = packed M.curvature := by
  simp only [FieldSpace.rieT, packed, riemannEntry_eq]

theorem eq_zero_of_eq_neg {x : K} (h : x = -x) : x = 0 := by
  calc
    x = (2⁻¹ : ℚ) • (x - -x) := by module
    _ = 0 := by rw [← h, sub_self, smul_zero]

/-- A pair of equal indices. -/
theorem Symmetries.eq_zero {R : Fin N → Fin N → Fin N → Fin N → K} (symmetries : Symmetries R) {i j k l : Fin N}
    (h : i = j ∨ k = l) : R i j k l = 0 := by
  rcases h with rfl | rfl
  · exact eq_zero_of_eq_neg (symmetries.first i i k l)
  · exact eq_zero_of_eq_neg (symmetries.second i j k k)

/-- **`Riemann_T`** returns the Riemann tensor. -/
theorem riemann_eq (i j k l : Fin N) : M.riemann i j k l = M.curvature i j k l := by
  unfold FieldSpace.riemann
  split_ifs with equal
  · exact (curvature_symmetries.eq_zero equal).symm
  · obtain ⟨hij, hkl⟩ := not_or.mp equal
    obtain ⟨x, kept, value⟩ := packed_pairIndex (curvature_symmetries (M := M)) hij hkl
    rw [rieT_eq, List.getD_eq_getElem?_getD, kept, Option.getD_some, value]

/-! ### The stack of copies -/

/-- Each direction of the derivative keeps the symmetries. -/
theorem covariantDerivative_symmetries (m : Fin N) : Symmetries (M.covariantDerivative m) where
  first i j k l := by
    have first := (curvature_symmetries (M := M)).first
    simp only [covariantDerivative, fun a => first i a, fun a => first a j, map_neg, mul_neg, Finset.sum_neg_distrib]
    ring
  second i j k l := by
    have second := (curvature_symmetries (M := M)).second
    simp only [covariantDerivative, fun i j a => second i j k a, fun i j a => second i j a l, map_neg, mul_neg,
      Finset.sum_neg_distrib]
    ring
  pairs i j k l := by
    have pairs := (curvature_symmetries (M := M)).pairs
    simp only [covariantDerivative, fun a => pairs i j a l, fun a => pairs i j k a, fun a => pairs a j k l,
      fun a => pairs i a k l]
    ring

theorem dRiemannEntry_eq (m i j k l : Fin N) : M.dRiemannEntry m i j k l = M.covariantDerivative m i j k l := by
  simp only [FieldSpace.dRiemannEntry, covariantDerivative, riemann_eq, christoffel_eq, Finset.sum_add_distrib]
  ring

/-- The independent components of one covariant derivative of the Riemann tensor after the other. -/
def stack (M : Geometry N K) : List K := (List.finRange N).flatMap fun m => packed (M.covariantDerivative m)

theorem rieTCovarDeriv_eq : M.rieTCovarDeriv = M.stack := by
  simp only [FieldSpace.rieTCovarDeriv, stack, packed, dRiemannEntry_eq]

/-- The number of independent components. -/
def copySize (N : ℕ) : ℕ := triangle (triangle (N - 1))

theorem length_packed (R : Fin N → Fin N → Fin N → Fin N → K) : (packed R).length = copySize N :=
  length_halfSquare (map_belowDiagonal_lowerTriangle N) _

/-- A component stands in the copy of its direction. -/
theorem getElem?_stack (m : Fin N) {t : ℕ} (ht : t < copySize N) :
    M.stack[copySize N * m + t]? = (packed (M.covariantDerivative m))[t]? := by
  have here : (List.finRange N)[(m : ℕ)]? = some m := by simp
  exact getElem?_flatMap_of_length _ (fun m _ => length_packed _) here ht

/-- The step of `DRiemann_T` leads to the same value as that from copy to copy. -/
def StepsRight (M : Geometry N K) : Prop :=
  ∀ m : Fin N, ∀ t < copySize N,
    M.stack[FieldSpace.nRieT N * m + t]? = M.stack[copySize N * m + t]?

/-- What the three classes are for. -/
structure Correct (M : Geometry N K) : Prop where
  /-- No read is outside its vector. -/
  christoffel_lt : ∀ i j k : Fin N, k ≤ j → (i * N * (N + 1)) / 2 + withDiagonal j k < M.gamma.length
  riemann_lt : ∀ i j k l : Fin N, i ≠ j → k ≠ l → (FieldSpace.pairIndex i j k l).2 < M.rieT.length
  dRiemann_lt : ∀ i j k l m : Fin N, i ≠ j → k ≠ l →
    (FieldSpace.pairIndex i j k l).2 + m * FieldSpace.nRieT N < M.rieTCovarDeriv.length
  christoffel : ∀ i j k, M.christoffel i j k = M.leviCivita i j k
  riemann : ∀ i j k l, M.riemann i j k l = M.curvature i j k l
  dRiemann : ∀ i j k l m, M.dRiemann i j k l m = M.covariantDerivative m i j k l

/-- With its indices in order, a component is read where it is counted. -/
theorem pairIndex_of_lt {i j k l : Fin N} (hij : j < i) (hkl : l < k) (hle : belowDiagonal k l ≤ belowDiagonal i j) :
    FieldSpace.pairIndex i j k l = (1, withDiagonal (belowDiagonal i j) (belowDiagonal k l)) := by
  simp only [FieldSpace.pairIndex, FieldSpace.ordered, if_neg hij.asymm, if_neg hkl.asymm, if_neg (not_lt.mpr hle),
    mul_one]

/-- What `DRiemann_T` reads. -/
theorem dRiemann_eq {i j k l : Fin N} (hij : i ≠ j) (hkl : k ≠ l) (m : Fin N) : ∃ x,
    M.stack[FieldSpace.nRieT N * m + (FieldSpace.pairIndex i j k l).2]? = some x ∧
      M.dRiemann i j k l m = (FieldSpace.pairIndex i j k l).1 * x := by
  have inside := M.dRiemann_index_lt hij hkl m
  rw [rieTCovarDeriv_eq, add_comm, mul_comm] at inside
  refine ⟨_, List.getElem?_eq_getElem inside, ?_⟩
  rw [FieldSpace.dRiemann, if_neg (not_or.mpr ⟨hij, hkl⟩), rieTCovarDeriv_eq, add_comm, mul_comm (m : ℕ),
    List.getD_eq_getElem _ _ inside]

/-- With steps to the right values, the right components are returned. -/
theorem dRiemann_of_stepsRight (h : M.StepsRight) (i j k l m : Fin N) :
    M.dRiemann i j k l m = M.covariantDerivative m i j k l := by
  by_cases equal : i = j ∨ k = l
  · rw [FieldSpace.dRiemann, if_pos equal, (covariantDerivative_symmetries m).eq_zero equal]
  · obtain ⟨hij, hkl⟩ := not_or.mp equal
    obtain ⟨x, read, value⟩ := M.dRiemann_eq hij hkl m
    obtain ⟨y, kept, right⟩ := packed_pairIndex (M.covariantDerivative_symmetries m) hij hkl
    have below : (FieldSpace.pairIndex i j k l).2 < copySize N := FieldSpace.pairIndex_lt hij hkl
    rw [h m _ below, getElem?_stack m below, kept] at read
    cases read
    rw [value, right]

/-- And only with these. -/
theorem stepsRight_of_dRiemann (h : ∀ i j k l m, M.dRiemann i j k l m = M.covariantDerivative m i j k l) :
    M.StepsRight := by
  intro m t ht
  obtain ⟨⟨i, j⟩, hp, ⟨k, l⟩, hq, hle, place⟩ := exists_of_lt_triangle (map_belowDiagonal_lowerTriangle N) ht
  have hij : j < i := mem_lowerTriangle.mp hp
  have hkl : l < k := mem_lowerTriangle.mp hq
  obtain ⟨x, read, value⟩ := M.dRiemann_eq hij.ne' hkl.ne' m
  rw [pairIndex_of_lt hij hkl hle] at read value
  simp only [place, Int.cast_one, one_mul] at read value
  rw [read, getElem?_stack m ht, ← place, getElem?_packed _ hij hkl hle, ← h, value]

/-- The connexion is read inside its vector. -/
theorem christoffel_index_lt {i j k : Fin N} (h : k ≤ j) :
    (i * N * (N + 1)) / 2 + withDiagonal j k < M.gamma.length := by
  obtain ⟨inside, -⟩ := List.getElem?_eq_some_iff.mp (M.getElem?_gamma (i := i) h)
  exact inside

/-- **Curvature tensors**: the right components are returned exactly if the step leads to the right values. -/
theorem correct_iff : M.Correct ↔ M.StepsRight where
  mp h := stepsRight_of_dRiemann h.dRiemann
  mpr h :=
    { christoffel_lt := fun _ _ _ => christoffel_index_lt
      riemann_lt := fun _ _ _ _ => M.riemann_index_lt
      dRiemann_lt := fun _ _ _ _ m hij hkl => M.dRiemann_index_lt hij hkl m
      christoffel := christoffel_eq
      riemann := riemann_eq
      dRiemann := dRiemann_of_stepsRight h }

/-! ### The step -/

/-- The step is short of a copy by the number of pairs of indices. -/
theorem nRieT_add (N : ℕ) : FieldSpace.nRieT N + triangle (N - 1) = copySize N := by
  have pairs : N * (N - 1) = 2 * triangle (N - 1) := by
    cases N with
    | zero => rfl
    | succ n => rw [two_mul_triangle, Nat.add_sub_cancel, Nat.mul_comm]
  have less : N * N - N - 2 = 2 * (triangle (N - 1) - 1) := by
    have : N * N - N = N * (N - 1) := by rw [Nat.mul_sub, Nat.mul_one]
    omega
  have eighth : FieldSpace.nRieT N = triangle (N - 1) * (triangle (N - 1) - 1) / 2 := by
    rw [FieldSpace.nRieT, pairs, less, Nat.mul_mul_mul_comm]
    exact Nat.mul_div_mul_left _ 2 (by norm_num : 0 < 4)
  rw [eighth, copySize]
  cases triangle (N - 1) with
  | zero => rfl
  | succ n => rw [triangle_succ, Nat.add_sub_cancel, Nat.mul_comm, triangle]

/-- With one field there is nothing to be read. -/
theorem stepsRight_of_le_one (h : N ≤ 1) : M.StepsRight := by
  intro m t ht
  have one : N - 1 = 0 := Nat.sub_eq_zero_of_le h
  rw [copySize, one] at ht
  exact absurd ht (Nat.not_lt_zero t)

/-- Where the Riemann tensor is constant all steps are right. -/
theorem stepsRight_of_constant (h : ∀ m i j k l, M.covariantDerivative m i j k l = 0) : M.StepsRight := by
  have zero : M.stack = List.replicate (N * copySize N) 0 := by
    refine List.eq_replicate_iff.mpr ⟨length_flatMap_finRange fun _ => length_packed _, fun x hx => ?_⟩
    obtain ⟨m, -, hx⟩ := List.mem_flatMap.mp hx
    obtain ⟨p, -, q, -, rfl⟩ := mem_halfSquare hx
    exact h m ..
  intro m t ht
  have short : FieldSpace.nRieT N * m ≤ copySize N * m := Nat.mul_le_mul_right _ (FieldSpace.nRieT_le N)
  have inside : copySize N * m + t < N * copySize N := by
    calc
      copySize N * m + t < copySize N * (m + 1) := by rw [Nat.mul_succ]; omega
      _ ≤ copySize N * N := Nat.mul_le_mul_left _ m.isLt
      _ = N * copySize N := Nat.mul_comm ..
  rw [zero, List.getElem?_replicate, List.getElem?_replicate, if_pos inside, if_pos (by omega)]

section Sheared

open Polynomial

/-- Two fields, of which the metric depends on one only. -/
noncomputable def sheared : Geometry 2 ℚ[X] where
  G := !![1, X ^ 2; X ^ 2, 1 + X ^ 4]
  Ginv := !![1 + X ^ 4, -X ^ 2; -X ^ 2, 1]
  mul_Ginv := by
    rw [Matrix.mul_fin_two, Matrix.one_fin_two]
    congr <;> ring
  diff := ![Polynomial.derivative', 0]
  stray := 0
  G_symm i j := by
    fin_cases i <;> fin_cases j <;> rfl
  diff_comm i j f := by
    fin_cases i <;> fin_cases j <;> simp

theorem sheared_lowered (i j k : Fin 2) : sheared.lowered i j k =
    ![!![0, 0; 0, -2 * X ^ 3], !![2 * X, 2 * X ^ 3; 2 * X ^ 3, 0]] i j k := by
  fin_cases i <;> fin_cases j <;> fin_cases k <;> simp [lowered, sheared]
  all_goals polynomial

theorem sheared_curvature : sheared.curvature 1 0 1 0 = -6 * X ^ 2 := by
  simp only [curvature_eq, product, leviCivita, sheared_lowered, Fin.sum_univ_two]
  simp [sheared]
  polynomial

theorem sheared_trace (m : Fin 2) : sheared.leviCivita 0 m 0 + sheared.leviCivita 1 m 1 = 0 := by
  simp only [leviCivita, sheared_lowered, Fin.sum_univ_two]
  fin_cases m <;> simp [sheared]
  polynomial

/-- In two dimensions. -/
theorem sheared_derivative (m : Fin 2) : sheared.covariantDerivative m 1 0 1 0 = sheared.diff m (-6 * X ^ 2) := by
  have zero (i j k l : Fin 2) (h : i = j ∨ k = l) : sheared.curvature i j k l = 0 := curvature_symmetries.eq_zero h
  simp only [covariantDerivative, Fin.sum_univ_two, sheared_curvature, zero 0 0 _ _ (.inl rfl), zero 1 1 _ _ (.inl rfl),
    zero _ _ 0 0 (.inr rfl), zero _ _ 1 1 (.inr rfl)]
  linear_combination 12 * X ^ 2 * sheared_trace m

theorem sheared_not_correct : ¬ sheared.Correct := by
  intro h
  have step : sheared.stack[FieldSpace.nRieT 2 * (1 : Fin 2) + 0]? = sheared.stack[copySize 2 * (1 : Fin 2) + 0]? :=
    stepsRight_of_dRiemann h.dRiemann 1 0 (by decide)
  have below : (0 : Fin 2) < 1 := by decide
  have copy (m : Fin 2) : sheared.stack[copySize 2 * m + 0]? = some (sheared.covariantDerivative m 1 0 1 0) := by
    rw [getElem?_stack m (by decide)]
    exact getElem?_packed _ below below le_rfl
  have same : sheared.covariantDerivative 0 1 0 1 0 = sheared.covariantDerivative 1 1 0 1 0 :=
    Option.some.inj ((copy 0).symm.trans (step.trans (copy 1)))
  rw [sheared_derivative, sheared_derivative] at same
  have values := congrArg (eval 1) same
  simp [sheared] at values

end Sheared

end Geometry

end CppTransport.Translator
