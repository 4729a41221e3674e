import Mathlib.Algebra.Algebra.Rat
import Mathlib.RingTheory.Derivation.Basic

/-!
# Tensors of the transport equations

For each kind of model the translator has a family of classes that compute the
tensors of the transport equations: `canonical` for models with a trivial field
metric, `nontrivial_metric` for the others. This module holds what the two
families share: indices, the model, and the list of what a family computes.

## The model

Expressions are elements of a field over the rationals. `GiNaC::diff` by the
symbol of a field or of a momentum is a derivation, and derivations by different
symbols commute; nothing else is assumed of expressions, so the potential is
arbitrary. No resource label is assigned: every component is built from the
potential itself. The expression cache and the tensors a class keeps while it
works return what was computed before, and are left out.
-/

namespace CppTransport.Translator

/-- The position of an index. `variance::none` marks indices of canonical models;
each index of a nontrivial-metric model has been given one of these two. -/
inductive Variance where
  | covariant
  | contravariant
deriving DecidableEq, Repr

/-- `field_index`. -/
structure FieldIndex (N : ℕ) where
  value : Fin N
  variance : Variance
deriving DecidableEq, Repr

/-- `phase_index`: the fields first, then the momenta. -/
structure PhaseIndex (N : ℕ) where
  value : Fin (2 * N)
  variance : Variance
deriving DecidableEq, Repr

namespace PhaseIndex

variable {N : ℕ}

/-- `index_traits::is_species`; an index is a momentum otherwise. -/
def isSpecies (i : PhaseIndex N) : Bool := i.value < N

/-- `index_traits::to_species`. -/
def toSpecies (i : PhaseIndex N) : FieldIndex N where
  value := if h : i.value < N then ⟨i.value, h⟩ else ⟨i.value - N, by omega⟩
  variance := i.variance

/-- The symbol an index stands for: a field or a momentum. -/
def coordinate (i : PhaseIndex N) : Fin N ⊕ Fin N :=
  if i.isSpecies then .inl i.toSpecies.value else .inr i.toSpecies.value

end PhaseIndex

/-- What every backend reads of a model. -/
structure ModelData (N : ℕ) (K : Type*) [Field K] [Algebra ℚ K] where
  /-- The potential. -/
  V : K
  /-- The Planck mass. -/
  Mp : K
  /-- The symbols of the momenta. -/
  deriv : Fin N → K
  /-- `GiNaC::diff` by the symbol of a field or of a momentum. -/
  diff : Fin N ⊕ Fin N → Derivation ℚ K K
  diff_comm : ∀ s t e, diff s (diff t e) = diff t (diff s e)
  /-- Whether common subexpressions are given names. -/
  doCse : Bool
  /-- The names `generate_eps`, `generate_Hsq` and `generate_eta` return. -/
  epsSymbol : K
  HsqSymbol : K
  etaSymbol : K

/-- `GiNaC::delta_tensor` of two numbers. -/
def deltaTensor {N : ℕ} {K : Type*} [Field K] (i j : Fin N) : K := if i = j then 1 else 0

/-- What a family of tensor classes computes. The arguments after the indices are
wavenumbers and the scale factor. -/
@[ext]
structure Backend (N : ℕ) (K : Type*) where
  rawEps : K
  rawHsq : K
  rawEta : K
  eps : K
  Hsq : K
  eta : K
  A : FieldIndex N → FieldIndex N → FieldIndex N → K → K → K → K → K
  Atilde : FieldIndex N → FieldIndex N → FieldIndex N → K → K → K → K → K
  B : FieldIndex N → FieldIndex N → FieldIndex N → K → K → K → K → K
  C : FieldIndex N → FieldIndex N → FieldIndex N → K → K → K → K → K
  M : FieldIndex N → FieldIndex N → K
  u2 : PhaseIndex N → PhaseIndex N → K → K → K
  u3 : PhaseIndex N → PhaseIndex N → PhaseIndex N → K → K → K → K → K
  zeta1 : PhaseIndex N → K
  zeta2 : PhaseIndex N → PhaseIndex N → K → K → K → K → K
  dN2 : PhaseIndex N → PhaseIndex N → K

/-- `u3::compute_component`, the same text in both families, over their `A`, `B` and `C`. -/
def u3Component {N : ℕ} {K : Type*} [Field K]
    (A B C : FieldIndex N → FieldIndex N → FieldIndex N → K → K → K → K → K)
    (i j k : PhaseIndex N) (k1 k2 k3 a : K) : K :=
  let species_i := i.toSpecies
  let species_j := j.toSpecies
  let species_k := k.toSpecies
  match i.isSpecies, j.isSpecies, k.isSpecies with
  | true, true, true => - B species_j species_k species_i k2 k3 k1 a
  | true, true, false => - C species_i species_k species_j k1 k3 k2 a
  | true, false, true => - C species_i species_j species_k k1 k2 k3 a
  | true, false, false => 0
  | false, true, true => 3 * A species_i species_j species_k k1 k2 k3 a
  | false, true, false => B species_i species_j species_k k1 k2 k3 a
  | false, false, true => B species_i species_k species_j k1 k3 k2 a
  | false, false, false => C species_j species_k species_i k2 k3 k1 a

end CppTransport.Translator
