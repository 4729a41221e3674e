import CppTransport.Translator.CanonicalTensors
import CppTransport.Translator.MetricTensors
import Mathlib.Algebra.CharP.Algebra
import Mathlib.Tactic.Ring

/-!
# The nontrivial-metric backend with a trivial metric

With the identity matrix for the metric the connexion and the curvature vanish,
covariant derivatives are partial derivatives, and the position of an index makes
no difference. So everything the classes of `nontrivial_metric` compute is what
those of `canonical` compute.

## What is proved

`backend_identity`: the two families agree, for every number of fields, potential,
wavenumbers, momenta, indices and positions of indices, with and without names for
common subexpressions. It rests on one lemma for each of the resources and one for
each formula; the formulas with curvature terms reduce to the others where these
are zero.
-/

namespace CppTransport.Translator.NontrivialMetric

variable {N : ℕ} {K : Type*} [Field K] [Algebra ℚ K] {S : MetricModel N K}

/-! ### Resources -/

theorem derivs_identity (h : S.G = 1) (i : FieldIndex N) : derivs S i = S.deriv i.value :=
  positionIndices_identity h _ _ _ _

theorem position1_identity (h : S.G = 1) (tensor : Fin N → K) (i : FieldIndex N) :
    position1 S tensor i = tensor i.value :=
  positionIndices_identity h _ _ _ _

theorem position2_identity (h : S.G = 1) (tensor : Fin N → Fin N → K) (i j : FieldIndex N) :
    position2 S tensor i j = tensor i.value j.value :=
  positionIndices_identity h _ _ _ _

theorem position3_identity (h : S.G = 1) (tensor : Fin N → Fin N → Fin N → K)
    (i j k : FieldIndex N) : position3 S tensor i j k = tensor i.value j.value k.value :=
  positionIndices_identity h _ _ _ _

theorem rawEps_identity (h : S.G = 1) : rawEps S = Canonical.rawEps S.toModelData := by
  simp only [rawEps, Canonical.rawEps, h, Matrix.one_apply, ite_mul, one_mul, zero_mul,
    Finset.sum_ite_eq, Finset.mem_univ, if_true]

theorem rawHsq_identity (h : S.G = 1) : rawHsq S = Canonical.rawHsq S.toModelData := by
  simp only [rawHsq, Canonical.rawHsq, rawEps_identity h]

theorem eps_identity (h : S.G = 1) : eps S = Canonical.eps S.toModelData := by
  simp only [eps, Canonical.eps, rawEps_identity h]

theorem Hsq_identity (h : S.G = 1) : Hsq S = Canonical.Hsq S.toModelData := by
  simp only [Hsq, Canonical.Hsq, rawHsq_identity h]

theorem constant_identity (h : S.G = 1) : S.fieldSpace.Constant :=
  FieldSpace.constant_of_identity h

theorem connexion_identity (h : S.G = 1) (i j k : Fin N) : connexion S i j k = 0 := by
  simp only [connexion, FieldSpace.christoffel_eq_zero (constant_identity h), ite_self]

theorem covariantddV_identity (h : S.G = 1) (i j : Fin N) :
    covariantddV S i j = Canonical.ddV S.toModelData i j := by
  have hentry : ∀ i j, covariantddVEntry S i j = Canonical.ddV S.toModelData i j := by
    intro i j
    simp only [covariantddVEntry, connexion_identity h, zero_mul, Finset.sum_const_zero, sub_zero]
    rfl
  unfold covariantddV
  split
  case isTrue => exact hentry i j
  case isFalse =>
    -- the copied component is the one with the derivatives in the other order
    rw [hentry]
    exact S.diff_comm _ _ _

theorem dV_identity (h : S.G = 1) (i : FieldIndex N) :
    dV S i = Canonical.dV S.toModelData i.value :=
  position1_identity h _ i

theorem ddV_identity (h : S.G = 1) (i j : FieldIndex N) :
    ddV S i j = Canonical.ddV S.toModelData i.value j.value :=
  (position2_identity h _ i j).trans (covariantddV_identity h _ _)

theorem dddV_identity (h : S.G = 1) (i j k : FieldIndex N) :
    dddV S i j k = Canonical.dddV S.toModelData i.value j.value k.value := by
  refine (position3_identity h _ i j k).trans ?_
  simp only [covariantdddV, connexion_identity h, zero_mul, add_zero, Finset.sum_const_zero,
    sub_zero, covariantddV_identity h]
  rfl

theorem rawEta_identity (h : S.G = 1) (eps Hsq : K) :
    rawEta S eps Hsq = Canonical.rawEta S.toModelData eps Hsq := by
  simp only [rawEta, Canonical.rawEta, dV_identity h]

theorem eta_identity (h : S.G = 1) : eta S = Canonical.eta S.toModelData := by
  simp only [eta, Canonical.eta, rawEta_identity h, eps_identity h, Hsq_identity h]

/-! ### Curvature -/

theorem A2_identity (h : S.G = 1) (i j : FieldIndex N) : A2 S i j = 0 := by
  refine (position2_identity h _ i j).trans ?_
  simp only [covariantA2, covariantA2Entry, FieldSpace.riemann_eq_zero (constant_identity h),
    add_zero, zero_div, zero_mul, Finset.sum_const_zero, ite_self]

theorem A3_identity (h : S.G = 1) (i j k : FieldIndex N) : A3 S i j k = 0 := by
  refine (position3_identity h _ i j k).trans ?_
  simp only [covariantA3, FieldSpace.dRiemann_eq_zero (constant_identity h), add_zero, zero_div,
    zero_mul, Finset.sum_const_zero]

theorem B3_identity (h : S.G = 1) (i j k : FieldIndex N) : B3 S i j k = 0 := by
  refine (position3_identity h _ i j k).trans ?_
  simp only [covariantB3, FieldSpace.riemann_eq_zero (constant_identity h), add_zero, zero_div,
    zero_mul, Finset.sum_const_zero]

/-! ### What a tensor asks of the resources -/

/-- The components a canonical tensor reads, whatever the positions of the indices. -/
def flatComponents (S : ModelData N K) : Components N K where
  derivs i := S.deriv i.value
  dV i := Canonical.dV S i.value
  ddV i j := Canonical.ddV S i.value j.value
  dddV i j k := Canonical.dddV S i.value j.value k.value
  A2 _ _ := 0
  A3 _ _ _ := 0
  B3 _ _ _ := 0
  metric i j := deltaTensor i.value j.value

theorem components_identity (h : S.G = 1) : components S = flatComponents S.toModelData := by
  simp only [components, flatComponents, Components.mk.injEq]
  refine ⟨?_, ?_, ?_, ?_, ?_, ?_, ?_, ?_⟩
  · exact funext (derivs_identity h)
  · exact funext (dV_identity h)
  · exact funext fun i => funext (ddV_identity h i)
  · exact funext fun i => funext fun j => funext (dddV_identity h i j)
  · exact funext fun i => funext (A2_identity h i)
  · exact funext fun i => funext fun j => funext (A3_identity h i j)
  · exact funext fun i => funext fun j => funext (B3_identity h i j)
  · exact funext fun i => funext (metric_identity h i)

/-- Partial derivatives commute, so the mean over all orders changes nothing. -/
theorem symmetrizeddV_flat (S : ModelData N K) (i j k : FieldIndex N) :
    (flatComponents S).symmetrizeddV i j k = Canonical.dddV S i.value j.value k.value := by
  have hchar : CharZero K := charZero_of_injective_algebraMap (algebraMap ℚ K).injective
  have hswap₁ : ∀ i j k, Canonical.dddV S j i k = Canonical.dddV S i j k :=
    fun i j k => congrArg (S.diff (.inl k)) (S.diff_comm _ _ _)
  have hswap₂ : ∀ i j k, Canonical.dddV S i k j = Canonical.dddV S i j k :=
    fun i j k => S.diff_comm _ _ _
  simp only [Components.symmetrizeddV, flatComponents]
  rw [hswap₂ i.value j.value k.value, hswap₁ i.value j.value k.value, hswap₂ j.value i.value k.value,
    hswap₁ i.value j.value k.value, hswap₁ i.value k.value j.value, hswap₂ i.value j.value k.value,
    hswap₁ j.value k.value i.value, hswap₂ j.value i.value k.value, hswap₁ i.value j.value k.value]
  ring

/-! ### The tensors -/

theorem A_identity (h : S.G = 1) :
    A.computeComponent S (components S) = Canonical.A.computeComponent S.toModelData := by
  rw [components_identity h]
  funext i j k k1 k2 k3 a
  simp only [A.computeComponent, A.expr, Canonical.A.computeComponent, Canonical.A.expr,
    symmetrizeddV_flat]
  simp only [flatComponents, eps_identity h, Hsq_identity h, mul_zero, neg_zero, zero_div, sub_zero,
    add_zero]

theorem Atilde_identity (h : S.G = 1) :
    Atilde.computeComponent S (components S) = Canonical.Atilde.computeComponent S.toModelData := by
  rw [components_identity h]
  funext i j k k1 k2 k3 a
  simp only [Atilde.computeComponent, Atilde.expr, Canonical.Atilde.computeComponent,
    Canonical.Atilde.expr, symmetrizeddV_flat]
  simp only [flatComponents, eps_identity h, Hsq_identity h, mul_zero, neg_zero, zero_div, sub_zero,
    add_zero]

theorem B_identity (h : S.G = 1) :
    B.computeComponent S (components S) = Canonical.B.computeComponent S.toModelData := by
  rw [components_identity h]
  funext i j k k1 k2 k3 a
  simp only [B.computeComponent, B.expr, Canonical.B.computeComponent, Canonical.B.expr,
    flatComponents, eps_identity h, Hsq_identity h, mul_zero, zero_div, add_zero]

theorem C_identity (h : S.G = 1) :
    C.computeComponent S (components S) = Canonical.C.computeComponent S.toModelData := by
  rw [components_identity h]
  rfl

theorem M_identity (h : S.G = 1) :
    M.computeComponent S (components S) = Canonical.M.computeComponent S.toModelData := by
  rw [components_identity h]
  funext i j
  simp only [M.computeComponent, M.expr, Canonical.M.computeComponent, Canonical.M.expr,
    flatComponents, eps_identity h, Hsq_identity h, neg_zero, add_zero]

theorem u2_identity (h : S.G = 1) :
    u2.computeComponent S (components S) = Canonical.u2.computeComponent S.toModelData := by
  rw [components_identity h]
  funext i j k a
  cases hi : i.isSpecies <;> cases hj : j.isSpecies <;>
    simp only [u2.computeComponent, u2.exprMomentumField, Canonical.u2.computeComponent,
      Canonical.u2.exprMomentumField, flatComponents, eps_identity h, Hsq_identity h, add_zero,
      hi, hj]

theorem u3_identity (h : S.G = 1) :
    u3.computeComponent S (components S) = u3Component (Canonical.A.computeComponent S.toModelData)
      (Canonical.B.computeComponent S.toModelData) (Canonical.C.computeComponent S.toModelData) := by
  rw [u3.computeComponent, A_identity h, B_identity h, C_identity h]

theorem zeta1_identity (h : S.G = 1) :
    zeta1.computeComponent S (components S) = Canonical.zeta1.computeComponent S.toModelData := by
  rw [components_identity h]
  funext i
  simp only [zeta1.computeComponent, zeta1.expr, Canonical.zeta1.computeComponent,
    Canonical.zeta1.expr, flatComponents, eps_identity h]

theorem zeta2_identity (h : S.G = 1) :
    zeta2.computeComponent S (components S) = Canonical.zeta2.computeComponent S.toModelData := by
  have hdelta : ∀ i j : Fin N, (deltaTensor i j : K) = deltaTensor j i := fun i j => by
    simp only [deltaTensor, eq_comm]
  rw [components_identity h]
  funext i j k k1 k2 a
  simp only [zeta2.computeComponent, zeta2.exprFieldField, zeta2.exprFieldMomentum, zeta2.p,
    Canonical.zeta2.computeComponent, Canonical.zeta2.exprFieldField,
    Canonical.zeta2.exprFieldMomentum, Canonical.zeta2.p, flatComponents, eps_identity h,
    Hsq_identity h]
  cases i.isSpecies <;> cases j.isSpecies
  case false.true =>
    -- here the canonical delta has its indices exchanged
    rw [hdelta j.toSpecies.value]
  all_goals rfl

theorem dN2_identity (h : S.G = 1) :
    dN2.computeComponent S (components S) = Canonical.dN2.computeComponent S.toModelData := by
  rw [components_identity h]
  funext i j
  simp only [dN2.computeComponent, dN2.p, dN2.dotH, Canonical.dN2.computeComponent,
    Canonical.dN2.p, Canonical.dN2.dotH, flatComponents, rawEps_identity h, rawHsq_identity h]

/-! ### The family -/

/-- With the identity matrix for a metric the two families compute the same. -/
theorem backend_identity (h : S.G = 1) : backend S = Canonical.backend S.toModelData := by
  simp only [backend, Canonical.backend, rawEps_identity h, rawHsq_identity h, rawEta_identity h,
    eps_identity h, Hsq_identity h, eta_identity h, A_identity h, Atilde_identity h, B_identity h,
    C_identity h, M_identity h, u2_identity h, u3_identity h, zeta1_identity h, zeta2_identity h, dN2_identity h]

/-- Two fields that roll along a flat potential. -/
def twoFields : MetricModel 2 ℚ where
  V := 3
  Mp := 1
  deriv := ![1, 2]
  diff _ := 0
  diff_comm _ _ _ := rfl
  doCse := false
  epsSymbol := 0
  HsqSymbol := 0
  etaSymbol := 0
  G := 1
  Ginv := 1
  G_symm i j := by simp only [Matrix.one_apply, eq_comm]
  mul_Ginv := Matrix.one_mul 1
  stray := 0

theorem backend_twoFields : backend twoFields = Canonical.backend twoFields.toModelData :=
  backend_identity rfl

/-- `(1² + 2²) / 2`. -/
example : rawEps twoFields = 5 / 2 := by decide +kernel

end CppTransport.Translator.NontrivialMetric
