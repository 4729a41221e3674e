import CppTransport.Translator.IdentityMetric
import Mathlib.GroupTheory.Perm.Sign

/-!
# Exchange of legs

The vertices of the three-point functions are symmetric: an index and its wavenumber can change places with another
index and its wavenumber. `A` has this symmetry in all its legs, `B` and `C` in their first two, and `u3`, which puts
them together in eight cases, in its last two.

## What is proved

`exchangeSymmetric_backends`: both families have these symmetries. In the formulas the legs change places as long as
the components that go into them are symmetric (`Components.Symmetric`). Those of the nontrivial-metric classes are:
some are copied from one triangle to the other, some are means over the orders of their indices, and to bring indices
to other positions keeps a symmetry because contractions of different indices commute (`contract_comm`). A canonical
model is one with the identity for a metric.
-/

namespace CppTransport.Translator

/-- A function of a tuple does not depend on the order of the tuple if neighbours can be exchanged. -/
theorem apply_comp_perm {α β : Type*} {n : ℕ} {f : (Fin (n + 1) → α) → β}
    (h : ∀ (i : Fin n) (x : Fin (n + 1) → α), f (x ∘ Equiv.swap i.castSucc i.succ) = f x)
    (σ : Equiv.Perm (Fin (n + 1))) (x : Fin (n + 1) → α) : f (x ∘ σ) = f x := by
  have generated : σ ∈ Submonoid.closure (Set.range fun i : Fin n => Equiv.swap i.castSucc i.succ) := by
    rw [Equiv.Perm.mclosure_swap_castSucc_succ]
    exact Submonoid.mem_top σ
  induction generated using Submonoid.closure_induction generalizing x with
  | mem τ hτ =>
    obtain ⟨i, rfl⟩ := hτ
    exact h i x
  | one => rfl
  | mul σ τ _ _ hσ hτ => exact (hτ (x ∘ σ)).trans (hσ x)

/-- A matrix that is read in one triangle and copied to the other is symmetric. -/
theorem ite_triangle {α : Type*} {N : ℕ} (entry : Fin N → Fin N → α) (i j : Fin N) :
    (if i ≤ j then entry j i else entry i j) = if j ≤ i then entry i j else entry j i := by
  rcases lt_trichotomy i j with lt | rfl | gt
  · rw [if_pos lt.le, if_neg lt.not_ge]
  · rfl
  · rw [if_neg gt.not_ge, if_pos gt.le]

variable {N : ℕ} {K : Type*}

/-- The legs of the vertices can be exchanged. -/
structure ExchangeSymmetric (b : Backend N K) : Prop where
  A : ∀ (σ : Equiv.Perm (Fin 3)) (i : Fin 3 → FieldIndex N) (k : Fin 3 → K) (a : K),
    b.A (i (σ 0)) (i (σ 1)) (i (σ 2)) (k (σ 0)) (k (σ 1)) (k (σ 2)) a = b.A (i 0) (i 1) (i 2) (k 0) (k 1) (k 2) a
  B : ∀ i j k k1 k2 k3 a, b.B j i k k2 k1 k3 a = b.B i j k k1 k2 k3 a
  C : ∀ i j k k1 k2 k3 a, b.C j i k k2 k1 k3 a = b.C i j k k1 k2 k3 a
  u3 : ∀ i j k k1 k2 k3 a, b.u3 i j k k1 k2 k3 a = b.u3 i k j k1 k3 k2 a

/-- The symmetries are those of the four tensors. -/
theorem ExchangeSymmetric.congr {b c : Backend N K} (h : ExchangeSymmetric b) (hA : b.A = c.A) (hB : b.B = c.B)
    (hC : b.C = c.C) (hu3 : b.u3 = c.u3) : ExchangeSymmetric c where
  A := hA ▸ h.A
  B := hB ▸ h.B
  C := hC ▸ h.C
  u3 := hu3 ▸ h.u3

variable [Field K]

/-- The cases of `u3` go over into one another. -/
theorem u3Component_exchange {A B C : FieldIndex N → FieldIndex N → FieldIndex N → K → K → K → K → K}
    (hA : ∀ i j k k1 k2 k3 a, A i k j k1 k3 k2 a = A i j k k1 k2 k3 a)
    (hB : ∀ i j k k1 k2 k3 a, B j i k k2 k1 k3 a = B i j k k1 k2 k3 a)
    (hC : ∀ i j k k1 k2 k3 a, C j i k k2 k1 k3 a = C i j k k1 k2 k3 a)
    (i j k : PhaseIndex N) (k1 k2 k3 a : K) :
    u3Component A B C i j k k1 k2 k3 a = u3Component A B C i k j k1 k3 k2 a := by
  cases hi : i.isSpecies <;> cases hj : j.isSpecies <;> cases hk : k.isSpecies <;>
    simp only [u3Component, hi, hj, hk]
  case false.false.false => exact hC _ _ _ _ _ _ _
  case false.true.true => rw [hA]
  case true.true.true => rw [hB]

/-- It is enough to exchange neighbours. -/
theorem exchangeSymmetric_of_swaps {b : Backend N K} (hu3 : b.u3 = u3Component b.A b.B b.C)
    (hA₁ : ∀ i j k k1 k2 k3 a, b.A j i k k2 k1 k3 a = b.A i j k k1 k2 k3 a)
    (hA₂ : ∀ i j k k1 k2 k3 a, b.A i k j k1 k3 k2 a = b.A i j k k1 k2 k3 a)
    (hB : ∀ i j k k1 k2 k3 a, b.B j i k k2 k1 k3 a = b.B i j k k1 k2 k3 a)
    (hC : ∀ i j k k1 k2 k3 a, b.C j i k k2 k1 k3 a = b.C i j k k1 k2 k3 a) : ExchangeSymmetric b where
  A σ i k a := by
    let vertex (x : Fin 3 → FieldIndex N × K) : K := b.A (x 0).1 (x 1).1 (x 2).1 (x 0).2 (x 1).2 (x 2).2 a
    have swaps : ∀ (s : Fin 2) (x : Fin 3 → FieldIndex N × K),
        vertex (x ∘ Equiv.swap s.castSucc s.succ) = vertex x := by
      intro s x
      fin_cases s
      · exact hA₁ _ _ _ _ _ _ _
      · exact hA₂ _ _ _ _ _ _ _
    exact apply_comp_perm swaps σ fun n => (i n, k n)
  B := hB
  C := hC
  u3 := by
    rw [hu3]
    exact u3Component_exchange hA₂ hB hC

namespace NontrivialMetric

/-! ### Formulas -/

/-- The components a vertex is built from are symmetric. -/
structure Components.Symmetric (r : Components N K) : Prop where
  metric : ∀ i j, r.metric j i = r.metric i j
  ddV : ∀ i j, r.ddV j i = r.ddV i j
  A2 : ∀ i j, r.A2 j i = r.A2 i j
  A3_left : ∀ i j k, r.A3 j i k = r.A3 i j k
  A3_right : ∀ i j k, r.A3 i k j = r.A3 i j k
  B3 : ∀ i j k, r.B3 j i k = r.B3 i j k

variable {r : Components N K}

theorem symmetrizeddV_left (i j k : FieldIndex N) : r.symmetrizeddV j i k = r.symmetrizeddV i j k := by
  simp only [Components.symmetrizeddV]
  ring

theorem symmetrizeddV_right (i j k : FieldIndex N) : r.symmetrizeddV i k j = r.symmetrizeddV i j k := by
  simp only [Components.symmetrizeddV]
  ring

variable [Algebra ℚ K] (S : MetricModel N K) (h : r.Symmetric)

section

include h

theorem A_left (i j k : FieldIndex N) (k1 k2 k3 a : K) :
    A.computeComponent S r j i k k2 k1 k3 a = A.computeComponent S r i j k k1 k2 k3 a := by
  simp only [A.computeComponent, A.expr]
  rw [symmetrizeddV_left i j k, h.metric i j, h.ddV i j, h.A2 i j, h.A3_left i j k]
  ring

theorem A_right (i j k : FieldIndex N) (k1 k2 k3 a : K) :
    A.computeComponent S r i k j k1 k3 k2 a = A.computeComponent S r i j k k1 k2 k3 a := by
  simp only [A.computeComponent, A.expr]
  rw [symmetrizeddV_right i j k, h.metric j k, h.ddV j k, h.A2 j k, h.A3_right i j k]
  ring

theorem B_left (i j k : FieldIndex N) (k1 k2 k3 a : K) :
    B.computeComponent S r j i k k2 k1 k3 a = B.computeComponent S r i j k k1 k2 k3 a := by
  simp only [B.computeComponent, B.expr]
  rw [h.B3 i j k]
  ring

theorem C_left (i j k : FieldIndex N) (k1 k2 k3 a : K) :
    C.computeComponent S r j i k k2 k1 k3 a = C.computeComponent S r i j k k1 k2 k3 a := by
  simp only [C.computeComponent, C.expr]
  rw [h.metric i j]
  ring

end

/-! ### Positions of indices -/

/-- Bring one index of a covariant tensor to its position. -/
def contract (i : FieldIndex N) (f : Fin N → K) : K :=
  if i.variance = .covariant then f i.value else ∑ v, positionFactor S i.variance i.value v * f v

theorem positionIndices_cons {n : ℕ} (i : FieldIndex N) (reqd : Fin n → Variance) (indices : Fin n → Fin N)
    (tensor : (Fin (n + 1) → Fin N) → K) :
    positionIndices S (fun _ => .covariant) (Fin.cons i.variance reqd) (Fin.cons i.value indices) tensor =
      contract S i fun v => positionIndices S (fun _ => .covariant) reqd indices fun w => tensor (Fin.cons v w) := by
  rw [contract]
  split
  case isTrue here => exact positionIndices_same S here _ _
  case isFalse away => exact positionIndices_move S away _ _

theorem position2_eq (tensor : Fin N → Fin N → K) (i j : FieldIndex N) :
    position2 S tensor i j = contract S i fun u => contract S j fun v => tensor u v := by
  refine (positionIndices_cons S i ![j.variance] ![j.value] _).trans (congrArg _ (funext fun u => ?_))
  refine (positionIndices_cons S j ![] ![] _).trans (congrArg _ (funext fun v => ?_))
  exact positionIndices_zero S _ _ _ _

theorem position3_eq (tensor : Fin N → Fin N → Fin N → K) (i j k : FieldIndex N) :
    position3 S tensor i j k = contract S i fun u => contract S j fun v => contract S k fun w => tensor u v w := by
  refine (positionIndices_cons S i ![j.variance, k.variance] ![j.value, k.value] _).trans
    (congrArg _ (funext fun u => ?_))
  refine (positionIndices_cons S j ![k.variance] ![k.value] _).trans (congrArg _ (funext fun v => ?_))
  refine (positionIndices_cons S k ![] ![] _).trans (congrArg _ (funext fun w => ?_))
  exact positionIndices_zero S _ _ _ _

/-- Contractions of different indices commute. -/
theorem contract_comm (i j : FieldIndex N) (f : Fin N → Fin N → K) :
    (contract S i fun u => contract S j fun v => f u v) = contract S j fun v => contract S i fun u => f u v := by
  unfold contract
  split_ifs
  · rfl
  · rfl
  · rfl
  · simp only [Finset.mul_sum]
    rw [Finset.sum_comm]
    exact Finset.sum_congr rfl fun v _ => Finset.sum_congr rfl fun u _ => mul_left_comm _ _ _

theorem position2_comm {tensor : Fin N → Fin N → K} (symmetric : ∀ u v, tensor v u = tensor u v)
    (i j : FieldIndex N) : position2 S tensor j i = position2 S tensor i j := by
  rw [position2_eq, contract_comm, position2_eq]
  simp only [symmetric]

theorem position3_left {tensor : Fin N → Fin N → Fin N → K} (symmetric : ∀ u v w, tensor v u w = tensor u v w)
    (i j k : FieldIndex N) : position3 S tensor j i k = position3 S tensor i j k := by
  rw [position3_eq, contract_comm, position3_eq]
  simp only [symmetric]

theorem position3_right {tensor : Fin N → Fin N → Fin N → K} (symmetric : ∀ u v w, tensor u w v = tensor u v w)
    (i j k : FieldIndex N) : position3 S tensor i k j = position3 S tensor i j k := by
  rw [position3_eq, position3_eq]
  congr 1
  funext u
  rw [contract_comm]
  simp only [symmetric]

/-! ### Components -/

theorem metric_comm (i j : FieldIndex N) : metric S j i = metric S i j := by
  by_cases same : i.variance = j.variance
  · simp only [metric, same, ne_eq, not_true_eq_false, if_false]
    split
    · exact ite_triangle S.G _ _
    · exact ite_triangle S.Ginv _ _
  · simp only [metric, ne_eq, same, Ne.symm same, not_false_eq_true, if_true, deltaTensor, eq_comm]

theorem covariantA3_left (i j k : Fin N) : covariantA3 S j i k = covariantA3 S i j k :=
  Finset.sum_congr rfl fun l _ => Finset.sum_congr rfl fun m _ => by ring

theorem covariantA3_right (i j k : Fin N) : covariantA3 S i k j = covariantA3 S i j k :=
  Finset.sum_congr rfl fun l _ => Finset.sum_congr rfl fun m _ => by ring

theorem covariantB3_left (i j k : Fin N) : covariantB3 S j i k = covariantB3 S i j k :=
  Finset.sum_congr rfl fun l _ => by ring

theorem symmetric_components : (components S).Symmetric where
  metric := metric_comm S
  ddV := position2_comm S fun _ _ => ite_triangle (covariantddVEntry S) _ _
  A2 := position2_comm S fun _ _ => ite_triangle (covariantA2Entry S) _ _
  A3_left := position3_left S (covariantA3_left S)
  A3_right := position3_right S (covariantA3_right S)
  B3 := position3_left S (covariantB3_left S)

theorem exchangeSymmetric_backend : ExchangeSymmetric (backend S) :=
  exchangeSymmetric_of_swaps rfl (A_left S (symmetric_components S)) (A_right S (symmetric_components S))
    (B_left S (symmetric_components S)) (C_left S (symmetric_components S))

end NontrivialMetric

/-! ### Both families -/

variable [Algebra ℚ K]

/-- A canonical model with the identity for a metric. -/
def ModelData.withIdentity (S : ModelData N K) : MetricModel N K where
  toModelData := S
  G := 1
  Ginv := 1
  G_symm i j := by simp only [Matrix.one_apply, eq_comm]
  mul_Ginv := Matrix.one_mul 1
  stray := 0

theorem Canonical.exchangeSymmetric_backend (S : ModelData N K) : ExchangeSymmetric (Canonical.backend S) :=
  have identity : S.withIdentity.G = 1 := rfl
  (NontrivialMetric.exchangeSymmetric_backend S.withIdentity).congr (NontrivialMetric.A_identity identity)
    (NontrivialMetric.B_identity identity) (NontrivialMetric.C_identity identity)
    (NontrivialMetric.u3_identity identity)

/-- **The vertices of both families are symmetric under an exchange of their legs.** -/
theorem exchangeSymmetric_backends (S : ModelData N K) (T : MetricModel N K) :
    ExchangeSymmetric (Canonical.backend S) ∧ ExchangeSymmetric (NontrivialMetric.backend T) :=
  ⟨Canonical.exchangeSymmetric_backend S, NontrivialMetric.exchangeSymmetric_backend T⟩

end CppTransport.Translator
