import CppTransport.Library.IndexLoops
import CppTransport.Library.Numerals
import CppTransport.Translator.CurvatureTensors
import CppTransport.Translator.TransportTensors
import Mathlib.Algebra.BigOperators.Fin
import Mathlib.Data.Fin.Tuple.Basic
import Mathlib.LinearAlgebra.Matrix.Notation

/-!
# Tensors of nontrivial-metric models

The classes of the namespace `nontrivial_metric`. Components are computed in one
position of their indices, covariant for the derivatives of the potential and the
combinations of the Riemann tensor, contravariant for the momenta, and brought to
the positions asked for by `position_indices`, which contracts with the metric or
its inverse. Derivatives of the potential are covariant derivatives.

## What is proved

`position_indices` leaves an index that is in place alone (`positionIndices_same`)
and contracts any other with the metric (`positionIndices_move`). Where the metric is the identity all its work is in vain
(`positionIndices_identity`).
-/

namespace CppTransport.Translator

open scoped Library.Numerals

/-- A model with a metric on field space. -/
structure MetricModel (N : ℕ) (K : Type*) [Field K] [Algebra ℚ K] extends ModelData N K where
  /-- The metric. -/
  G : Matrix (Fin N) (Fin N) K
  /-- Its inverse, from `GiNaC::matrix::inverse`. -/
  Ginv : Matrix (Fin N) (Fin N) K
  /-- A `field_metric` has one entry for two labels in either order. -/
  G_symm : ∀ i j, G i j = G j i
  /-- What `inverse` guarantees. -/
  mul_Ginv : G * Ginv = 1
  /-- What a read outside a vector returns. -/
  stray : K

namespace MetricModel

variable {N : ℕ} {K : Type*} [Field K] [Algebra ℚ K] (S : MetricModel N K)

/-- What the curvature classes are built from. -/
def fieldSpace : FieldSpace N K where
  G := S.G
  Ginv := S.Ginv
  mul_Ginv := S.mul_Ginv
  diff i := S.diff (.inl i)
  stray := S.stray

end MetricModel

namespace NontrivialMetric

variable {N : ℕ} {K : Type*} [Field K] [Algebra ℚ K] (S : MetricModel N K)

/-! ### The metric -/

/-- `raw_G_resource`: the lower triangle is read and copied to the other. -/
def rawG (i j : Fin N) : K := if j ≤ i then S.G i j else S.G j i

/-- `raw_Ginv_resource`. -/
def rawGinv (i j : Fin N) : K := if j ≤ i then S.Ginv i j else S.Ginv j i

/-- `metric_resource::operator()`. -/
def metric (i j : FieldIndex N) : K :=
  if i.variance ≠ j.variance then deltaTensor i.value j.value
  else if i.variance = .covariant then rawG S i.value j.value
  else rawGinv S i.value j.value

/-! ### `position_indices` -/

/-- The number of terms of the contraction. -/
def positionSize {n : ℕ} (N : ℕ) (avail reqd : Fin n → Variance) : ℕ :=
  ∏ j, if reqd j ≠ avail j then N else 1

/-- The factor that brings an index to the position `r`. -/
def positionFactor (r : Variance) (i v : Fin N) : K :=
  match r with
  | .contravariant => rawGinv S i v
  | .covariant => rawG S i v

/-- The remainder is a value of an index, as there is an index. -/
theorem mod_lt_of_indices {n : ℕ} (indices : Fin (n + 1) → Fin N) (pos : ℕ) : pos % N < N :=
  Nat.mod_lt _ (indices 0).pos

/-- The factors of the metric in the term numbered `pos`, and where it reads the tensor. -/
def positionTerm : {n : ℕ} → (avail reqd : Fin n → Variance) → (indices : Fin n → Fin N) → ℕ →
    K × (Fin n → Fin N)
  | 0, _, _, indices, _ => (1, indices)
  | _ + 1, avail, reqd, indices, pos =>
    if reqd 0 ≠ avail 0 then
      let v : Fin N := ⟨pos % N, mod_lt_of_indices indices pos⟩
      let term := positionTerm (Fin.tail avail) (Fin.tail reqd) (Fin.tail indices) (pos / N)
      (positionFactor S (reqd 0) (indices 0) v * term.1, Fin.cons v term.2)
    else
      let term := positionTerm (Fin.tail avail) (Fin.tail reqd) (Fin.tail indices) pos
      (term.1, Fin.cons (indices 0) term.2)

/-- `position_indices`: the component of a tensor whose indices are at `avail` with its
indices at `reqd`. -/
def positionIndices {n : ℕ} (avail reqd : Fin n → Variance) (indices : Fin n → Fin N)
    (tensor : (Fin n → Fin N) → K) : K :=
  ∑ pos ∈ Finset.range (positionSize N avail reqd),
    (positionTerm S avail reqd indices pos).1 * tensor (positionTerm S avail reqd indices pos).2

theorem positionSize_succ {n : ℕ} (avail reqd : Fin (n + 1) → Variance) :
    positionSize N avail reqd
      = (if reqd 0 ≠ avail 0 then N else 1) * positionSize N (Fin.tail avail) (Fin.tail reqd) := by
  rw [positionSize, Fin.prod_univ_succ]
  rfl

theorem positionIndices_zero (avail reqd : Fin 0 → Variance) (indices : Fin 0 → Fin N)
    (tensor : (Fin 0 → Fin N) → K) :
    positionIndices S avail reqd indices tensor = tensor indices := by
  simp [positionIndices, positionSize, positionTerm]

/-- An index that is in place is left alone. -/
theorem positionIndices_same {n : ℕ} {avail reqd : Fin (n + 1) → Variance} (h : reqd 0 = avail 0)
    (indices : Fin (n + 1) → Fin N) (tensor : (Fin (n + 1) → Fin N) → K) :
    positionIndices S avail reqd indices tensor
      = positionIndices S (Fin.tail avail) (Fin.tail reqd) (Fin.tail indices)
          fun w => tensor (Fin.cons (indices 0) w) := by
  simp [positionIndices, positionSize_succ, positionTerm, h]

/-- Any other is contracted with the metric or its inverse. -/
theorem positionIndices_move {n : ℕ} {avail reqd : Fin (n + 1) → Variance} (h : reqd 0 ≠ avail 0)
    (indices : Fin (n + 1) → Fin N) (tensor : (Fin (n + 1) → Fin N) → K) :
    positionIndices S avail reqd indices tensor
      = ∑ v, positionFactor S (reqd 0) (indices 0) v
          * positionIndices S (Fin.tail avail) (Fin.tail reqd) (Fin.tail indices)
              fun w => tensor (Fin.cons v w) := by
  have hN : 0 < N := (indices 0).pos
  have hsum := Library.sum_range_digits N (positionSize N (Fin.tail avail) (Fin.tail reqd))
    fun d q => positionFactor S (reqd 0) (indices 0) ⟨d % N, Nat.mod_lt _ hN⟩
      * ((positionTerm S (Fin.tail avail) (Fin.tail reqd) (Fin.tail indices) q).1
        * tensor (Fin.cons ⟨d % N, Nat.mod_lt _ hN⟩
            (positionTerm S (Fin.tail avail) (Fin.tail reqd) (Fin.tail indices) q).2))
  simp only [Nat.mod_mod, Nat.mod_eq_of_lt (Fin.isLt _), Fin.eta] at hsum
  simp only [positionIndices, positionSize_succ, positionTerm, if_pos h, Finset.mul_sum, ← hsum,
    mul_assoc]

/-! ### `resources` -/

/-- `generate_deriv_vector`. -/
def derivs (i : FieldIndex N) : K :=
  positionIndices S (fun _ => .contravariant) ![i.variance] ![i.value] fun v => S.deriv (v 0)

/-- `raw_eps_resource`. -/
def rawEps : K := (∑ i, ∑ j, S.G i j * S.deriv i * S.deriv j) / (2 * S.Mp * S.Mp)

/-- `raw_Hsq_resource`. -/
def rawHsq : K := S.V / ((3 - rawEps S) * S.Mp * S.Mp)

/-- `eps_resource`. -/
def eps : K := if S.doCse then S.epsSymbol else rawEps S

/-- `Hsq_resource`. -/
def Hsq : K := if S.doCse then S.HsqSymbol else rawHsq S

/-- `ConnexionCache`: the components with `k ≤ j` are read and copied. -/
def connexion (i j k : Fin N) : K :=
  if k ≤ j then S.fieldSpace.christoffel i j k else S.fieldSpace.christoffel i k j

/-- `CovariantdVCache`. -/
def covariantdV (i : Fin N) : K := S.diff (.inl i) S.V

/-- One component of `CovariantddVCache`. -/
def covariantddVEntry (i j : Fin N) : K :=
  S.diff (.inl j) (covariantdV S i) - ∑ k, connexion S k i j * covariantdV S k

/-- `CovariantddVCache`: the components with `j ≤ i` are computed and copied. -/
def covariantddV (i j : Fin N) : K :=
  if j ≤ i then covariantddVEntry S i j else covariantddVEntry S j i

/-- `CovariantdddVCache`. -/
def covariantdddV (i j k : Fin N) : K :=
  S.diff (.inl k) (covariantddV S i j)
    - ∑ l, (connexion S l i k * covariantddV S l j + connexion S l j k * covariantddV S l i)

/-- One component of `CovariantRiemannA2Cache`. -/
def covariantA2Entry (i j : Fin N) : K :=
  ∑ l, ∑ m, (S.fieldSpace.riemann l i j m + S.fieldSpace.riemann l j i m) / 2
    * S.deriv l * S.deriv m

/-- `CovariantRiemannA2Cache`: the components with `j ≤ i` are computed and copied. -/
def covariantA2 (i j : Fin N) : K :=
  if j ≤ i then covariantA2Entry S i j else covariantA2Entry S j i

/-- `CovariantRiemannA3Cache`. -/
def covariantA3 (i j k : Fin N) : K :=
  ∑ l, ∑ m, (S.fieldSpace.dRiemann l i j m k + S.fieldSpace.dRiemann l i k m j
    + S.fieldSpace.dRiemann l j i m k + S.fieldSpace.dRiemann l j k m i
    + S.fieldSpace.dRiemann l k i m j + S.fieldSpace.dRiemann l k j m i) / 6
    * S.deriv l * S.deriv m

/-- `CovariantRiemannB3Cache`. -/
def covariantB3 (i j k : Fin N) : K :=
  ∑ l, (S.fieldSpace.riemann k i j l + S.fieldSpace.riemann k j i l) / 2 * S.deriv l

/-- A covariant tensor with one index, at the position of the index. -/
def position1 (tensor : Fin N → K) (i : FieldIndex N) : K :=
  positionIndices S (fun _ => .covariant) ![i.variance] ![i.value] fun v => tensor (v 0)

/-- A covariant tensor with two indices. -/
def position2 (tensor : Fin N → Fin N → K) (i j : FieldIndex N) : K :=
  positionIndices S (fun _ => .covariant) ![i.variance, j.variance] ![i.value, j.value]
    fun v => tensor (v 0) (v 1)

/-- A covariant tensor with three indices. -/
def position3 (tensor : Fin N → Fin N → Fin N → K) (i j k : FieldIndex N) : K :=
  positionIndices S (fun _ => .covariant) ![i.variance, j.variance, k.variance]
    ![i.value, j.value, k.value] fun v => tensor (v 0) (v 1) (v 2)

/-- `dV_resource`. -/
def dV : FieldIndex N → K := position1 S (covariantdV S)

/-- `ddV_resource`. -/
def ddV : FieldIndex N → FieldIndex N → K := position2 S (covariantddV S)

/-- `dddV_resource`. -/
def dddV : FieldIndex N → FieldIndex N → FieldIndex N → K := position3 S (covariantdddV S)

/-- `Riemann_A2_resource`. -/
def A2 : FieldIndex N → FieldIndex N → K := position2 S (covariantA2 S)

/-- `Riemann_A3_resource`. -/
def A3 : FieldIndex N → FieldIndex N → FieldIndex N → K := position3 S (covariantA3 S)

/-- `Riemann_B3_resource`. -/
def B3 : FieldIndex N → FieldIndex N → FieldIndex N → K := position3 S (covariantB3 S)

/-- `raw_eta_resource`: the momenta are contravariant, the derivative of the potential covariant. -/
def rawEta (eps Hsq : K) : K :=
  (2 * eps * (eps - 3) - ∑ i, S.deriv i * dV S ⟨i, .covariant⟩ / (Hsq * S.Mp * S.Mp)) / eps

/-- `eta_resource`. -/
def eta : K := if S.doCse then S.etaSymbol else rawEta S (eps S) (Hsq S)

/-- What a tensor asks of the resources: components at given positions of the indices. -/
structure Components (N : ℕ) (K : Type*) where
  derivs : FieldIndex N → K
  dV : FieldIndex N → K
  ddV : FieldIndex N → FieldIndex N → K
  dddV : FieldIndex N → FieldIndex N → FieldIndex N → K
  A2 : FieldIndex N → FieldIndex N → K
  A3 : FieldIndex N → FieldIndex N → FieldIndex N → K
  B3 : FieldIndex N → FieldIndex N → FieldIndex N → K
  metric : FieldIndex N → FieldIndex N → K

/-- The components when no label is assigned. -/
def components : Components N K where
  derivs := derivs S
  dV := dV S
  ddV := ddV S
  dddV := dddV S
  A2 := A2 S
  A3 := A3 S
  B3 := B3 S
  metric := metric S

/-- The mean of `dddV` over the orders of its indices. -/
def Components.symmetrizeddV (r : Components N K) (i j k : FieldIndex N) : K :=
  (r.dddV i j k + r.dddV i k j + r.dddV j i k + r.dddV j k i + r.dddV k i j + r.dddV k j i) / 6

variable (r : Components N K)

/-! ### `A` -/

def A.expr (delta_ij delta_jk delta_ik Vijk Vij Vjk Vik Vi Vj Vk A2_ij A2_jk A2_ik A3_ijk
    deriv_i deriv_j deriv_k k1 k2 k3 a : K) : K :=
  let eps := eps S
  let Hsq := Hsq S
  let Mp := S.Mp
  let xi_i := -2 * (3 - eps) * deriv_i - 2 * Vi / Hsq
  let xi_j := -2 * (3 - eps) * deriv_j - 2 * Vj / Hsq
  let xi_k := -2 * (3 - eps) * deriv_k - 2 * Vk / Hsq
  let k1dotk2 := (k3 * k3 - k1 * k1 - k2 * k2) / 2
  let k1dotk3 := (k2 * k2 - k1 * k1 - k3 * k3) / 2
  let k2dotk3 := (k1 * k1 - k2 * k2 - k3 * k3) / 2
  let result := - Vijk / (3 * Hsq)
  let result := result + (- (deriv_i / (2 * Mp * Mp)) * (Vjk / (3 * Hsq))
    - (deriv_j / (2 * Mp * Mp)) * (Vik / (3 * Hsq))
    - (deriv_k / (2 * Mp * Mp)) * (Vij / (3 * Hsq)))
  let result := result + ((deriv_i * deriv_j * xi_k) / (8 * 3 * Mp * Mp * Mp * Mp)
    + (deriv_j * deriv_k * xi_i) / (8 * 3 * Mp * Mp * Mp * Mp)
    + (deriv_i * deriv_k * xi_j) / (8 * 3 * Mp * Mp * Mp * Mp))
  let result := result
    + ((deriv_i * xi_j * xi_k) / (32 * Mp * Mp * Mp * Mp)
        * (1 - k2dotk3 * k2dotk3 / (k2 * k2 * k3 * k3)) / 3
    + (deriv_j * xi_i * xi_k) / (32 * Mp * Mp * Mp * Mp)
        * (1 - k1dotk3 * k1dotk3 / (k1 * k1 * k3 * k3)) / 3
    + (deriv_k * xi_i * xi_j) / (32 * Mp * Mp * Mp * Mp)
        * (1 - k1dotk2 * k1dotk2 / (k1 * k1 * k2 * k2)) / 3)
  let result := result + (deriv_i * deriv_j * deriv_k) / (8 * Mp * Mp * Mp * Mp) * (6 - 2 * eps)
  let result := result + delta_jk * (deriv_i / (2 * Mp * Mp)) * k2dotk3 / (3 * a * a * Hsq)
  let result := result + delta_ik * (deriv_j / (2 * Mp * Mp)) * k1dotk3 / (3 * a * a * Hsq)
  let result := result + delta_ij * (deriv_k / (2 * Mp * Mp)) * k1dotk2 / (3 * a * a * Hsq)
  let result := result + (- (deriv_k * A2_ij) / (2 * 3 * Mp * Mp)
    - (deriv_j * A2_ik) / (2 * 3 * Mp * Mp)
    - (deriv_i * A2_jk) / (2 * 3 * Mp * Mp))
  result + A3_ijk / 3

def A.computeComponent (i j k : FieldIndex N) (k1 k2 k3 a : K) : K :=
  A.expr S (r.metric i j) (r.metric j k) (r.metric i k) (r.symmetrizeddV i j k)
    (r.ddV i j) (r.ddV j k) (r.ddV i k) (r.dV i) (r.dV j) (r.dV k)
    (r.A2 i j) (r.A2 j k) (r.A2 i k) (r.A3 i j k) (r.derivs i) (r.derivs j) (r.derivs k) k1 k2 k3 a

/-! ### `Atilde` -/

def Atilde.expr (Vijk Vij Vjk Vik Vi Vj Vk A2_ij A2_jk A2_ik A3_ijk
    deriv_i deriv_j deriv_k k1 k2 k3 : K) : K :=
  let eps := eps S
  let Hsq := Hsq S
  let Mp := S.Mp
  let xi_i := -2 * (3 - eps) * deriv_i - 2 * Vi / Hsq
  let xi_j := -2 * (3 - eps) * deriv_j - 2 * Vj / Hsq
  let xi_k := -2 * (3 - eps) * deriv_k - 2 * Vk / Hsq
  let k1dotk2 := (k3 * k3 - k1 * k1 - k2 * k2) / 2
  let k1dotk3 := (k2 * k2 - k1 * k1 - k3 * k3) / 2
  let k2dotk3 := (k1 * k1 - k2 * k2 - k3 * k3) / 2
  let result := - Vijk / (3 * Hsq)
  let result := result + (- (deriv_i / (2 * Mp * Mp)) * (Vjk / (3 * Hsq))
    - (deriv_j / (2 * Mp * Mp)) * (Vik / (3 * Hsq))
    - (deriv_k / (2 * Mp * Mp)) * (Vij / (3 * Hsq)))
  let result := result + ((deriv_i * deriv_j * xi_k) / (8 * 3 * Mp * Mp * Mp * Mp)
    + (deriv_j * deriv_k * xi_i) / (8 * 3 * Mp * Mp * Mp * Mp)
    + (deriv_i * deriv_k * xi_j) / (8 * 3 * Mp * Mp * Mp * Mp))
  let result := result
    + ((deriv_i * xi_j * xi_k) / (32 * Mp * Mp * Mp * Mp)
        * (1 - k2dotk3 * k2dotk3 / (k2 * k2 * k3 * k3)) / 3
    + (deriv_j * xi_i * xi_k) / (32 * Mp * Mp * Mp * Mp)
        * (1 - k1dotk3 * k1dotk3 / (k1 * k1 * k3 * k3)) / 3
    + (deriv_k * xi_i * xi_j) / (32 * Mp * Mp * Mp * Mp)
        * (1 - k1dotk2 * k1dotk2 / (k1 * k1 * k2 * k2)) / 3)
  let result := result + (deriv_i * deriv_j * deriv_k) / (8 * Mp * Mp * Mp * Mp) * (6 - 2 * eps)
  let result := result + (- (deriv_k * A2_ij) / (2 * 3 * Mp * Mp)
    - (deriv_j * A2_ik) / (2 * 3 * Mp * Mp)
    - (deriv_i * A2_jk) / (2 * 3 * Mp * Mp))
  result + A3_ijk / 3

def Atilde.computeComponent (i j k : FieldIndex N) (k1 k2 k3 _a : K) : K :=
  Atilde.expr S (r.symmetrizeddV i j k) (r.ddV i j) (r.ddV j k) (r.ddV i k)
    (r.dV i) (r.dV j) (r.dV k) (r.A2 i j) (r.A2 j k) (r.A2 i k) (r.A3 i j k)
    (r.derivs i) (r.derivs j) (r.derivs k) k1 k2 k3

/-! ### `B` and `C` -/

def B.expr (delta_ik delta_jk Vi Vj B3_ijk deriv_i deriv_j deriv_k k1 k2 k3 : K) : K :=
  let eps := eps S
  let Hsq := Hsq S
  let Mp := S.Mp
  let xi_i := -2 * (3 - eps) * deriv_i - 2 * Vi / Hsq
  let xi_j := -2 * (3 - eps) * deriv_j - 2 * Vj / Hsq
  let k1dotk2 := (k3 * k3 - k1 * k1 - k2 * k2) / 2
  let k1dotk3 := (k2 * k2 - k1 * k1 - k3 * k3) / 2
  let k2dotk3 := (k1 * k1 - k2 * k2 - k3 * k3) / 2
  let result := deriv_i * deriv_j * deriv_k / (4 * Mp * Mp * Mp * Mp)
  let result := result
    + (- (deriv_i * xi_j * deriv_k / (8 * Mp * Mp * Mp * Mp))
        * (1 - k2dotk3 * k2dotk3 / (k2 * k2 * k3 * k3)) / 2
    - (deriv_j * xi_i * deriv_k / (8 * Mp * Mp * Mp * Mp))
        * (1 - k1dotk3 * k1dotk3 / (k1 * k1 * k3 * k3)) / 2)
  let result := result + - delta_jk * (xi_i / (2 * Mp * Mp)) * k1dotk2 / (k1 * k1) / 2
  let result := result + - delta_ik * (xi_j / (2 * Mp * Mp)) * k1dotk2 / (k2 * k2) / 2
  result + 4 * B3_ijk / 3

def B.computeComponent (i j k : FieldIndex N) (k1 k2 k3 _a : K) : K :=
  B.expr S (r.metric i k) (r.metric j k) (r.dV i) (r.dV j) (r.B3 i j k)
    (r.derivs i) (r.derivs j) (r.derivs k) k1 k2 k3

def C.expr (delta_ij delta_jk delta_ik deriv_i deriv_j deriv_k k1 k2 k3 : K) : K :=
  let Mp := S.Mp
  let k1dotk2 := (k3 * k3 - k1 * k1 - k2 * k2) / 2
  let k1dotk3 := (k2 * k2 - k1 * k1 - k3 * k3) / 2
  let k2dotk3 := (k1 * k1 - k2 * k2 - k3 * k3) / 2
  let result := - delta_ij * deriv_k / (2 * Mp * Mp)
  let result := result + (deriv_i * deriv_j * deriv_k / (8 * Mp * Mp * Mp * Mp))
    * (1 - k1dotk2 * k1dotk2 / (k1 * k1 * k2 * k2))
  let result := result + delta_jk * (deriv_i / (Mp * Mp)) * (k1dotk3 / (k1 * k1)) / 2
  result + delta_ik * (deriv_j / (Mp * Mp)) * (k2dotk3 / (k2 * k2)) / 2

def C.computeComponent (i j k : FieldIndex N) (k1 k2 k3 _a : K) : K :=
  C.expr S (r.metric i j) (r.metric j k) (r.metric i k) (r.derivs i) (r.derivs j) (r.derivs k)
    k1 k2 k3

/-! ### `M`, `u1` and `u2` -/

def M.expr (Vij Vi Vj A2_ij deriv_i deriv_j : K) : K :=
  let u := Vij / Hsq S
  let u := u + (3 - eps S) * deriv_i * deriv_j / (S.Mp * S.Mp)
  let u := u + (deriv_i * Vj + deriv_j * Vi) / (S.Mp * S.Mp * Hsq S)
  u + - A2_ij

def M.computeComponent (i j : FieldIndex N) : K :=
  M.expr S (r.ddV i j) (r.dV i) (r.dV j) (r.A2 i j) (r.derivs i) (r.derivs j)

def u1.exprMomentum (Vi deriv_i : K) : K := - (3 - eps S) * deriv_i - Vi / Hsq S

def u1.computeComponent (i : PhaseIndex N) : K :=
  if i.isSpecies then r.derivs i.toSpecies
  else u1.exprMomentum S (r.dV i.toSpecies) (r.derivs i.toSpecies)

def u2.exprMomentumField (delta_ij Vij Vi Vj deriv_i deriv_j A2_ij k a : K) : K :=
  let result := delta_ij * (- k * k / (a * a * Hsq S))
  let result := result + - Vij / Hsq S
  let result := result + - (3 - eps S) * deriv_i * deriv_j / (S.Mp * S.Mp)
  let result := result + - (deriv_i * Vj + deriv_j * Vi) / (S.Mp * S.Mp * Hsq S)
  result + A2_ij

def u2.computeComponent (i j : PhaseIndex N) (k a : K) : K :=
  let species_i := i.toSpecies
  let species_j := j.toSpecies
  match i.isSpecies, j.isSpecies with
  | true, true => 0
  | true, false => r.metric species_i species_j
  | false, true =>
    u2.exprMomentumField S (r.metric species_i species_j) (r.ddV species_i species_j)
      (r.dV species_i) (r.dV species_j) (r.derivs species_i) (r.derivs species_j)
      (r.A2 species_i species_j) k a
  | false, false => r.metric species_i species_j * (eps S - 3)

/-! ### `u3`, `zeta1` and `zeta2` -/

def u3.computeComponent : PhaseIndex N → PhaseIndex N → PhaseIndex N → K → K → K → K → K :=
  u3Component (A.computeComponent S r) (B.computeComponent S r) (C.computeComponent S r)


def zeta1.expr (deriv_i : K) : K := - deriv_i / (2 * S.Mp * S.Mp * eps S)

def zeta1.computeComponent (i : PhaseIndex N) : K :=
  if i.isSpecies then zeta1.expr S (r.derivs i.toSpecies) else 0

/-- The scalar `p` that `pre_lambda` computes. -/
def zeta2.p : K :=
  (∑ i, r.dV ⟨i, .covariant⟩ * r.derivs ⟨i, .contravariant⟩) / (S.Mp * S.Mp * Hsq S)

def zeta2.exprFieldField (deriv_i deriv_j : K) : K :=
  let eps := eps S
  (-1 / 2 + 3 / (2 * eps) + zeta2.p S r / (4 * eps * eps)) * deriv_i * deriv_j
    / (S.Mp * S.Mp * S.Mp * S.Mp * eps)

def zeta2.exprFieldMomentum (delta_ij deriv_i deriv_j k k1 k2 : K) : K :=
  let eps := eps S
  let Mp := S.Mp
  let k1dotk2 := (k * k - k1 * k1 - k2 * k2) / 2
  let k12sq := k * k
  let result := deriv_i * deriv_j / (2 * Mp * Mp * Mp * Mp * eps * eps)
  let result := result + - delta_ij * (k1dotk2 / k12sq) / (2 * Mp * Mp * eps)
  result + - delta_ij * (k1 * k1 / k12sq) / (2 * Mp * Mp * eps)

def zeta2.computeComponent (i j : PhaseIndex N) (k k1 k2 _a : K) : K :=
  let species_i := i.toSpecies
  let species_j := j.toSpecies
  let deriv_i := r.derivs species_i
  let deriv_j := r.derivs species_j
  let delta_ij := r.metric species_i species_j
  match i.isSpecies, j.isSpecies with
  | true, true => zeta2.exprFieldField S r deriv_i deriv_j
  | true, false => zeta2.exprFieldMomentum S delta_ij deriv_i deriv_j k k1 k2
  | false, true => zeta2.exprFieldMomentum S delta_ij deriv_j deriv_i k k2 k1
  | false, false => 0

/-! ### `dN2` -/

def dN2.dotH : K := - rawEps S * rawHsq S

/-- The scalar `p` that `pre_explicit` computes. -/
def dN2.p : K :=
  ∑ i, (S.diff (.inl i) (1 / (2 * dN2.dotH S)) * S.deriv i
    + S.diff (.inr i) (1 / (2 * dN2.dotH S))
        * ((rawEps S - 3) * S.deriv i - r.dV ⟨i, .covariant⟩ / rawHsq S))

def dN2.computeComponent (i j : PhaseIndex N) : K :=
  let coord_i := i.coordinate
  let coord_j := j.coordinate
  let Hsq := rawHsq S
  let dotH := dN2.dotH S
  let result := -1 / (2 * dotH) * S.diff coord_j (S.diff coord_i Hsq)
    - S.diff coord_i (1 / (2 * dotH)) * S.diff coord_j Hsq
    - S.diff coord_j (1 / (2 * dotH)) * S.diff coord_i Hsq
    - 1 / (2 * dotH) * dN2.p S r * S.diff coord_i Hsq * S.diff coord_j Hsq
  result

/-! ### The family -/

/-- What the nontrivial-metric classes compute. -/
def backend : Backend N K where
  rawEps := rawEps S
  rawHsq := rawHsq S
  rawEta := rawEta S (eps S) (Hsq S)
  eps := eps S
  Hsq := Hsq S
  eta := eta S
  A := A.computeComponent S (components S)
  Atilde := Atilde.computeComponent S (components S)
  B := B.computeComponent S (components S)
  C := C.computeComponent S (components S)
  M := M.computeComponent S (components S)
  u2 := u2.computeComponent S (components S)
  u3 := u3.computeComponent S (components S)
  zeta1 := zeta1.computeComponent S (components S)
  zeta2 := zeta2.computeComponent S (components S)
  dN2 := dN2.computeComponent S (components S)

/-! ### The identity matrix -/

variable {S}

theorem rawG_identity (h : S.G = 1) (i j : Fin N) : rawG S i j = deltaTensor i j := by
  simp only [rawG, h, Matrix.one_apply, deltaTensor, ite_self, eq_comm]

theorem rawGinv_identity (h : S.G = 1) (i j : Fin N) : rawGinv S i j = deltaTensor i j := by
  have hinv : S.Ginv = 1 := FieldSpace.Ginv_of_identity (M := S.fieldSpace) h
  simp only [rawGinv, hinv, Matrix.one_apply, deltaTensor, ite_self, eq_comm]

theorem metric_identity (h : S.G = 1) (i j : FieldIndex N) :
    metric S i j = deltaTensor i.value j.value := by
  simp only [metric, rawG_identity h, rawGinv_identity h, ite_self]

theorem positionFactor_identity (h : S.G = 1) (r : Variance) (i v : Fin N) :
    positionFactor S r i v = deltaTensor i v := by
  cases r with
  | covariant => exact rawG_identity h i v
  | contravariant => exact rawGinv_identity h i v

/-- With the identity for a metric the position of an index makes no difference. -/
theorem positionIndices_identity (h : S.G = 1) {n : ℕ} (avail reqd : Fin n → Variance)
    (indices : Fin n → Fin N) (tensor : (Fin n → Fin N) → K) :
    positionIndices S avail reqd indices tensor = tensor indices := by
  induction n with
  | zero => exact positionIndices_zero S avail reqd indices tensor
  | succ n ih =>
    have hcons : Fin.cons (indices 0) (Fin.tail indices) = indices := Fin.cons_self_tail indices
    by_cases hr : reqd 0 = avail 0
    · rw [positionIndices_same S hr, ih, hcons]
    · rw [positionIndices_move S hr]
      simp only [ih, positionFactor_identity h, deltaTensor, ite_mul, one_mul, zero_mul,
        Finset.sum_ite_eq, Finset.mem_univ, if_true, hcons]

end NontrivialMetric

end CppTransport.Translator
