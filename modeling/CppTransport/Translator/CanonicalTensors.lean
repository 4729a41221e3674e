import CppTransport.Library.Numerals
import CppTransport.Translator.TransportTensors
import Mathlib.Algebra.BigOperators.Fin

/-!
# Tensors of canonical models

The classes of the namespace `canonical`. With a trivial metric there is no
difference between co- and contravariant components: derivatives of the potential
are partial derivatives, the momenta are their symbols, and contractions are
Kronecker deltas. The definitions follow the classes: `expr` is the formula of a
tensor, `computeComponent` puts the components of the potential and the momenta
into it.
-/

namespace CppTransport.Translator.Canonical

open scoped Library.Numerals

variable {N : ℕ} {K : Type*} [Field K] [Algebra ℚ K] (S : ModelData N K)

/-! ### `resources` -/

/-- `raw_eps_resource`. -/
def rawEps : K := (∑ i, S.deriv i * S.deriv i) / (2 * S.Mp * S.Mp)

/-- `raw_Hsq_resource`. -/
def rawHsq : K := S.V / ((3 - rawEps S) * S.Mp * S.Mp)

/-- `eps_resource`. -/
def eps : K := if S.doCse then S.epsSymbol else rawEps S

/-- `Hsq_resource`. -/
def Hsq : K := if S.doCse then S.HsqSymbol else rawHsq S

/-- `dV_resource_expr`. -/
def dV (i : Fin N) : K := S.diff (.inl i) S.V

/-- `ddV_resource_expr`. -/
def ddV (i j : Fin N) : K := S.diff (.inl j) (S.diff (.inl i) S.V)

/-- `dddV_resource_expr`. -/
def dddV (i j k : Fin N) : K := S.diff (.inl k) (S.diff (.inl j) (S.diff (.inl i) S.V))

/-- `raw_eta_resource`. -/
def rawEta (eps Hsq : K) : K :=
  (2 * eps * (eps - 3) - ∑ i, S.deriv i * dV S i / (Hsq * S.Mp * S.Mp)) / eps

/-- `eta_resource`. -/
def eta : K := if S.doCse then S.etaSymbol else rawEta S (eps S) (Hsq S)

/-! ### `A` -/

def A.expr (i j k : Fin N) (Vijk Vij Vjk Vik Vi Vj Vk deriv_i deriv_j deriv_k k1 k2 k3 a : K) : K :=
  let eps := eps S
  let Hsq := Hsq S
  let Mp := S.Mp
  let xi_i := -2 * (3 - eps) * deriv_i - 2 * Vi / Hsq
  let xi_j := -2 * (3 - eps) * deriv_j - 2 * Vj / Hsq
  let xi_k := -2 * (3 - eps) * deriv_k - 2 * Vk / Hsq
  let k1dotk2 := (k3 * k3 - k1 * k1 - k2 * k2) / 2
  let k1dotk3 := (k2 * k2 - k1 * k1 - k3 * k3) / 2
  let k2dotk3 := (k1 * k1 - k2 * k2 - k3 * k3) / 2
  let result := - Vijk / (3 * Hsq)
  let result := result + (- (deriv_i / (2 * Mp * Mp)) * (Vjk / (3 * Hsq))
    - (deriv_j / (2 * Mp * Mp)) * (Vik / (3 * Hsq))
    - (deriv_k / (2 * Mp * Mp)) * (Vij / (3 * Hsq)))
  let result := result + ((deriv_i * deriv_j * xi_k) / (8 * 3 * Mp * Mp * Mp * Mp)
    + (deriv_j * deriv_k * xi_i) / (8 * 3 * Mp * Mp * Mp * Mp)
    + (deriv_i * deriv_k * xi_j) / (8 * 3 * Mp * Mp * Mp * Mp))
  let result := result
    + ((deriv_i * xi_j * xi_k) / (32 * Mp * Mp * Mp * Mp)
        * (1 - k2dotk3 * k2dotk3 / (k2 * k2 * k3 * k3)) / 3
    + (deriv_j * xi_i * xi_k) / (32 * Mp * Mp * Mp * Mp)
        * (1 - k1dotk3 * k1dotk3 / (k1 * k1 * k3 * k3)) / 3
    + (deriv_k * xi_i * xi_j) / (32 * Mp * Mp * Mp * Mp)
        * (1 - k1dotk2 * k1dotk2 / (k1 * k1 * k2 * k2)) / 3)
  let result := result + (deriv_i * deriv_j * deriv_k) / (8 * Mp * Mp * Mp * Mp) * (6 - 2 * eps)
  let delta_ij := deltaTensor i j
  let delta_jk := deltaTensor j k
  let delta_ik := deltaTensor i k
  let result := result + delta_jk * (deriv_i / (2 * Mp * Mp)) * k2dotk3 / (3 * a * a * Hsq)
  let result := result + delta_ik * (deriv_j / (2 * Mp * Mp)) * k1dotk3 / (3 * a * a * Hsq)
  result + delta_ij * (deriv_k / (2 * Mp * Mp)) * k1dotk2 / (3 * a * a * Hsq)

def A.computeComponent (i j k : FieldIndex N) (k1 k2 k3 a : K) : K :=
  let i := i.value
  let j := j.value
  let k := k.value
  A.expr S i j k (dddV S i j k) (ddV S i j) (ddV S j k) (ddV S i k) (dV S i) (dV S j) (dV S k)
    (S.deriv i) (S.deriv j) (S.deriv k) k1 k2 k3 a

/-! ### `Atilde` -/

def Atilde.expr (Vijk Vij Vjk Vik Vi Vj Vk deriv_i deriv_j deriv_k k1 k2 k3 : K) : K :=
  let eps := eps S
  let Hsq := Hsq S
  let Mp := S.Mp
  let xi_i := -2 * (3 - eps) * deriv_i - 2 * Vi / Hsq
  let xi_j := -2 * (3 - eps) * deriv_j - 2 * Vj / Hsq
  let xi_k := -2 * (3 - eps) * deriv_k - 2 * Vk / Hsq
  let k1dotk2 := (k3 * k3 - k1 * k1 - k2 * k2) / 2
  let k1dotk3 := (k2 * k2 - k1 * k1 - k3 * k3) / 2
  let k2dotk3 := (k1 * k1 - k2 * k2 - k3 * k3) / 2
  let result := - Vijk / (3 * Hsq)
  let result := result + (- (deriv_i / (2 * Mp * Mp)) * (Vjk / (3 * Hsq))
    - (deriv_j / (2 * Mp * Mp)) * (Vik / (3 * Hsq))
    - (deriv_k / (2 * Mp * Mp)) * (Vij / (3 * Hsq)))
  let result := result + ((deriv_i * deriv_j * xi_k) / (8 * 3 * Mp * Mp * Mp * Mp)
    + (deriv_j * deriv_k * xi_i) / (8 * 3 * Mp * Mp * Mp * Mp)
    + (deriv_i * deriv_k * xi_j) / (8 * 3 * Mp * Mp * Mp * Mp))
  let result := result
    + ((deriv_i * xi_j * xi_k) / (32 * Mp * Mp * Mp * Mp)
        * (1 - k2dotk3 * k2dotk3 / (k2 * k2 * k3 * k3)) / 3
    + (deriv_j * xi_i * xi_k) / (32 * Mp * Mp * Mp * Mp)
        * (1 - k1dotk3 * k1dotk3 / (k1 * k1 * k3 * k3)) / 3
    + (deriv_k * xi_i * xi_j) / (32 * Mp * Mp * Mp * Mp)
        * (1 - k1dotk2 * k1dotk2 / (k1 * k1 * k2 * k2)) / 3)
  result + (deriv_i * deriv_j * deriv_k) / (8 * Mp * Mp * Mp * Mp) * (6 - 2 * eps)

def Atilde.computeComponent (i j k : FieldIndex N) (k1 k2 k3 _a : K) : K :=
  let i := i.value
  let j := j.value
  let k := k.value
  Atilde.expr S (dddV S i j k) (ddV S i j) (ddV S j k) (ddV S i k) (dV S i) (dV S j) (dV S k)
    (S.deriv i) (S.deriv j) (S.deriv k) k1 k2 k3

/-! ### `B` and `C` -/

def B.expr (i j k : Fin N) (Vi Vj deriv_i deriv_j deriv_k k1 k2 k3 : K) : K :=
  let eps := eps S
  let Hsq := Hsq S
  let Mp := S.Mp
  let xi_i := -2 * (3 - eps) * deriv_i - 2 * Vi / Hsq
  let xi_j := -2 * (3 - eps) * deriv_j - 2 * Vj / Hsq
  let k1dotk2 := (k3 * k3 - k1 * k1 - k2 * k2) / 2
  let k1dotk3 := (k2 * k2 - k1 * k1 - k3 * k3) / 2
  let k2dotk3 := (k1 * k1 - k2 * k2 - k3 * k3) / 2
  let result := deriv_i * deriv_j * deriv_k / (4 * Mp * Mp * Mp * Mp)
  let result := result
    + (- (deriv_i * xi_j * deriv_k / (8 * Mp * Mp * Mp * Mp))
        * (1 - k2dotk3 * k2dotk3 / (k2 * k2 * k3 * k3)) / 2
    - (deriv_j * xi_i * deriv_k / (8 * Mp * Mp * Mp * Mp))
        * (1 - k1dotk3 * k1dotk3 / (k1 * k1 * k3 * k3)) / 2)
  let delta_jk := deltaTensor j k
  let delta_ik := deltaTensor i k
  let result := result + - delta_jk * (xi_i / (2 * Mp * Mp)) * k1dotk2 / (k1 * k1) / 2
  result + - delta_ik * (xi_j / (2 * Mp * Mp)) * k1dotk2 / (k2 * k2) / 2

def B.computeComponent (i j k : FieldIndex N) (k1 k2 k3 _a : K) : K :=
  let i := i.value
  let j := j.value
  let k := k.value
  B.expr S i j k (dV S i) (dV S j) (S.deriv i) (S.deriv j) (S.deriv k) k1 k2 k3

def C.expr (i j k : Fin N) (deriv_i deriv_j deriv_k k1 k2 k3 : K) : K :=
  let Mp := S.Mp
  let k1dotk2 := (k3 * k3 - k1 * k1 - k2 * k2) / 2
  let k1dotk3 := (k2 * k2 - k1 * k1 - k3 * k3) / 2
  let k2dotk3 := (k1 * k1 - k2 * k2 - k3 * k3) / 2
  let delta_ij := deltaTensor i j
  let result := - delta_ij * deriv_k / (2 * Mp * Mp)
  let result := result + (deriv_i * deriv_j * deriv_k / (8 * Mp * Mp * Mp * Mp))
    * (1 - k1dotk2 * k1dotk2 / (k1 * k1 * k2 * k2))
  let delta_jk := deltaTensor j k
  let delta_ik := deltaTensor i k
  let result := result + delta_jk * (deriv_i / (Mp * Mp)) * (k1dotk3 / (k1 * k1)) / 2
  result + delta_ik * (deriv_j / (Mp * Mp)) * (k2dotk3 / (k2 * k2)) / 2

def C.computeComponent (i j k : FieldIndex N) (k1 k2 k3 _a : K) : K :=
  let i := i.value
  let j := j.value
  let k := k.value
  C.expr S i j k (S.deriv i) (S.deriv j) (S.deriv k) k1 k2 k3

/-! ### `M` and `u2` -/

def M.expr (Vij Vi Vj deriv_i deriv_j : K) : K :=
  let u := Vij / Hsq S
  let u := u + (3 - eps S) * deriv_i * deriv_j / (S.Mp * S.Mp)
  u + (deriv_i * Vj + deriv_j * Vi) / (S.Mp * S.Mp * Hsq S)

def M.computeComponent (i j : FieldIndex N) : K :=
  let i := i.value
  let j := j.value
  M.expr S (ddV S i j) (dV S i) (dV S j) (S.deriv i) (S.deriv j)

def u2.exprMomentumField (i j : Fin N) (Vij Vi Vj deriv_i deriv_j k a : K) : K :=
  let delta_ij := deltaTensor i j
  let result := delta_ij * (- k * k / (a * a * Hsq S))
  let result := result + - Vij / Hsq S
  let result := result + - (3 - eps S) * deriv_i * deriv_j / (S.Mp * S.Mp)
  result + - (deriv_i * Vj + deriv_j * Vi) / (S.Mp * S.Mp * Hsq S)

def u2.computeComponent (i j : PhaseIndex N) (k a : K) : K :=
  let species_i := i.toSpecies.value
  let species_j := j.toSpecies.value
  match i.isSpecies, j.isSpecies with
  | true, true => 0
  | true, false => deltaTensor species_i species_j
  | false, true =>
    u2.exprMomentumField S species_i species_j (ddV S species_i species_j) (dV S species_i)
      (dV S species_j) (S.deriv species_i) (S.deriv species_j) k a
  | false, false => deltaTensor species_i species_j * (eps S - 3)

/-! ### `zeta1` and `zeta2` -/

def zeta1.expr (deriv_i : K) : K := - deriv_i / (2 * S.Mp * S.Mp * eps S)

def zeta1.computeComponent (i : PhaseIndex N) : K :=
  if i.isSpecies then zeta1.expr S (S.deriv i.toSpecies.value) else 0

/-- The scalar `p` that `pre_lambda` computes. -/
def zeta2.p : K := (∑ i, dV S i * S.deriv i) / (S.Mp * S.Mp * Hsq S)

def zeta2.exprFieldField (deriv_i deriv_j : K) : K :=
  let eps := eps S
  (-1 / 2 + 3 / (2 * eps) + zeta2.p S / (4 * eps * eps)) * deriv_i * deriv_j
    / (S.Mp * S.Mp * S.Mp * S.Mp * eps)

def zeta2.exprFieldMomentum (i j : Fin N) (deriv_i deriv_j k k1 k2 : K) : K :=
  let eps := eps S
  let Mp := S.Mp
  let k1dotk2 := (k * k - k1 * k1 - k2 * k2) / 2
  let k12sq := k * k
  let result := deriv_i * deriv_j / (2 * Mp * Mp * Mp * Mp * eps * eps)
  let delta_ij := deltaTensor i j
  let result := result + - delta_ij * (k1dotk2 / k12sq) / (2 * Mp * Mp * eps)
  result + - delta_ij * (k1 * k1 / k12sq) / (2 * Mp * Mp * eps)

def zeta2.computeComponent (i j : PhaseIndex N) (k k1 k2 _a : K) : K :=
  let species_i := i.toSpecies.value
  let species_j := j.toSpecies.value
  let deriv_i := S.deriv species_i
  let deriv_j := S.deriv species_j
  match i.isSpecies, j.isSpecies with
  | true, true => zeta2.exprFieldField S deriv_i deriv_j
  | true, false => zeta2.exprFieldMomentum S species_i species_j deriv_i deriv_j k k1 k2
  | false, true => zeta2.exprFieldMomentum S species_j species_i deriv_j deriv_i k k2 k1
  | false, false => 0

/-! ### `dN2` -/

def dN2.dotH : K := - rawEps S * rawHsq S

/-- The scalar `p` that `pre_explicit` computes. -/
def dN2.p : K :=
  ∑ i, (S.diff (.inl i) (1 / (2 * dN2.dotH S)) * S.deriv i
    + S.diff (.inr i) (1 / (2 * dN2.dotH S))
        * ((rawEps S - 3) * S.deriv i - dV S i / rawHsq S))

def dN2.computeComponent (i j : PhaseIndex N) : K :=
  let coord_i := i.coordinate
  let coord_j := j.coordinate
  let Hsq := rawHsq S
  let dotH := dN2.dotH S
  let result := -1 / (2 * dotH) * S.diff coord_j (S.diff coord_i Hsq)
    - S.diff coord_i (1 / (2 * dotH)) * S.diff coord_j Hsq
    - S.diff coord_j (1 / (2 * dotH)) * S.diff coord_i Hsq
    - 1 / (2 * dotH) * dN2.p S * S.diff coord_i Hsq * S.diff coord_j Hsq
  result

/-! ### The family -/

/-- What the canonical classes compute. -/
def backend : Backend N K where
  rawEps := rawEps S
  rawHsq := rawHsq S
  rawEta := rawEta S (eps S) (Hsq S)
  eps := eps S
  Hsq := Hsq S
  eta := eta S
  A := A.computeComponent S
  Atilde := Atilde.computeComponent S
  B := B.computeComponent S
  C := C.computeComponent S
  M := M.computeComponent S
  u2 := u2.computeComponent S
  u3 := u3Component (A.computeComponent S) (B.computeComponent S) (C.computeComponent S)
  zeta1 := zeta1.computeComponent S
  zeta2 := zeta2.computeComponent S
  dN2 := dN2.computeComponent S

end CppTransport.Translator.Canonical
