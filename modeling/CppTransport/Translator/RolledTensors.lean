import CppTransport.Translator.ResourceLabels

/-!
# Tensors in loops

For each tensor `get_unroll` says whether it may stand in a loop, and
`compute_lambda` computes it over the loop variables, for the tensors with indices
over phase space once for each choice of fields and momenta. The tensor whose
indices have values comes from `compute_component`.

## What is proved

`rolling_iff`: where `get_unroll` allows a loop, `compute_lambda` finds its labels
and agrees with `compute_component` at all values of the indices, for each tensor
and all positions of its indices, if and only if labels are assigned that
`get_unroll` does not ask for but the lambda uses (`Needs`): the inverse metric for
`C` and `zeta2`, the metric for `M`, the combinations of the Riemann tensor for
`u3`, and the flattener and the working type for `C` and `zeta1`. With labels for
all but the Riemann tensor a loop over `u3` fails (`u3_not_agrees`).
-/

namespace CppTransport.Translator.NontrivialMetric

open Library
open scoped Library.Numerals

variable {N : ℕ} {K : Type*} [Field K] [Algebra ℚ K] (S : MetricModel N K) (R : Resources)

/-! ### Components over loop variables -/

/-- `generate_deriv_vector`. -/
def derivLambda (v : Variance) : Except ResourceFailure (Fin N → K) :=
  if R.canRollCoordinates then do
    let f ← labelIndices S R (fun _ => .contravariant) ![v] fun w => S.deriv (w 0)
    return fun i => f ![i]
  else .error ⟨"coordinate vector"⟩

/-- `dV_resource`. -/
def dVLambda (v : Variance) : Except ResourceFailure (Fin N → K) := do
  let f ← labelled S R "dV" R.dV (fun v => covariantdV S (v 0)) ![v]
  return fun i => f ![i]

/-- `ddV_resource`. -/
def ddVLambda (vi vj : Variance) : Except ResourceFailure (Fin N → Fin N → K) := do
  let f ← labelled S R "ddV" R.ddV (fun v => covariantddV S (v 0) (v 1)) ![vi, vj]
  return fun i j => f ![i, j]

/-- `dddV_resource`. -/
def dddVLambda (vi vj vk : Variance) : Except ResourceFailure (Fin N → Fin N → Fin N → K) := do
  let f ← labelled S R "dddV" R.dddV (fun v => covariantdddV S (v 0) (v 1) (v 2)) ![vi, vj, vk]
  return fun i j k => f ![i, j, k]

/-- `Riemann_A2_resource`. -/
def A2Lambda (vi vj : Variance) : Except ResourceFailure (Fin N → Fin N → K) := do
  let f ← labelled S R "Riemann_A2" R.A2 (fun v => covariantA2 S (v 0) (v 1)) ![vi, vj]
  return fun i j => f ![i, j]

/-- `Riemann_A3_resource`. -/
def A3Lambda (vi vj vk : Variance) : Except ResourceFailure (Fin N → Fin N → Fin N → K) := do
  let f ← labelled S R "Riemann_A3" R.A3 (fun v => covariantA3 S (v 0) (v 1) (v 2)) ![vi, vj, vk]
  return fun i j k => f ![i, j, k]

/-- `Riemann_B3_resource`. -/
def B3Lambda (vi vj vk : Variance) : Except ResourceFailure (Fin N → Fin N → Fin N → K) := do
  let f ← labelled S R "Riemann_B3" R.B3 (fun v => covariantB3 S (v 0) (v 1) (v 2)) ![vi, vj, vk]
  return fun i j k => f ![i, j, k]

/-- `metric_resource::operator()`. -/
def metricLambda (vi vj : Variance) : Except ResourceFailure (Fin N → Fin N → K) :=
  if vi ≠ vj then .ok deltaTensor
  else match vi with
    | .covariant =>
      if R.metric.isSome && R.fieldFlatten.isSome then .ok (rawG S) else .error ⟨"metric"⟩
    | .contravariant =>
      if R.metricInverse.isSome && R.fieldFlatten.isSome then .ok (rawGinv S)
      else .error ⟨"metric inverse"⟩

/-- The constructor of a lambda, which is given the working type. -/
def makeLambda {α : Type*} (lambda : α) : Except ResourceFailure α :=
  if R.workingType.isSome then .ok lambda else .error ⟨"working type"⟩

/-! ### `get_unroll` -/

/-- The metric has to be there when an index is covariant. -/
def hasG (vars : List Variance) : Bool := if .covariant ∈ vars then R.canRollMetric else true

/-- The inverse has to be there when an index is contravariant. -/
def hasGinv (vars : List Variance) : Bool :=
  if .contravariant ∈ vars then R.canRollMetricInverse else true

/-- The derivatives of the potential that `A`, `Atilde` and `u3` ask for. -/
def canRollPotential (i j k : Variance) : Bool :=
  R.canRollCoordinates && hasG R [i, j, k] && hasGinv R [i, j, k]
    && R.canRoll R.dV ![i] && R.canRoll R.dV ![j] && R.canRoll R.dV ![k]
    && R.canRoll R.ddV ![i, j] && R.canRoll R.ddV ![i, k] && R.canRoll R.ddV ![j, k]
    && R.canRoll R.dddV ![i, j, k] && R.canRoll R.dddV ![i, k, j] && R.canRoll R.dddV ![j, i, k]
    && R.canRoll R.dddV ![j, k, i] && R.canRoll R.dddV ![k, i, j] && R.canRoll R.dddV ![k, j, i]

/-- The combinations of the Riemann tensor that `A` and `Atilde` ask for. -/
def canRollRiemannA (i j k : Variance) : Bool :=
  R.canRoll R.A2 ![i, j] && R.canRoll R.A2 ![j, k] && R.canRoll R.A2 ![i, k]
    && R.canRoll R.A3 ![i, j, k]

def A.getUnroll (i j k : Variance) : Bool := canRollPotential R i j k && canRollRiemannA R i j k

def Atilde.getUnroll (i j k : Variance) : Bool := canRollPotential R i j k && canRollRiemannA R i j k

def B.getUnroll (i j k : Variance) : Bool :=
  R.canRollCoordinates && hasG R [i, j, k] && hasGinv R [i, j, k]
    && R.canRoll R.dV ![i] && R.canRoll R.dV ![j] && R.canRoll R.dV ![k]
    && R.canRoll R.B3 ![i, j, k]

def C.getUnroll (i j k : Variance) : Bool := R.canRollCoordinates && hasG R [i, j, k]

def M.getUnroll (i j : Variance) : Bool :=
  R.canRollCoordinates && R.canRoll R.dV ![i] && R.canRoll R.dV ![j] && R.canRoll R.ddV ![i, j]
    && R.canRoll R.A2 ![i, j]

def u1.getUnroll (i : Variance) : Bool :=
  R.canRollCoordinates && hasG R [i] && hasGinv R [i] && R.canRoll R.dV ![i]

def u2.getUnroll (i j : Variance) : Bool :=
  R.canRollCoordinates && hasG R [i, j] && hasGinv R [i, j]
    && R.canRoll R.dV ![i] && R.canRoll R.dV ![j] && R.canRoll R.ddV ![i, j]
    && R.canRoll R.A2 ![i, j]

def u3.getUnroll (i j k : Variance) : Bool := canRollPotential R i j k

def zeta1.getUnroll (i : Variance) : Bool := R.canRollCoordinates && hasG R [i]

def zeta2.getUnroll (i j : Variance) : Bool :=
  R.canRollCoordinates && hasG R [i, j] && R.canRoll R.dV ![i] && R.canRoll R.dV ![j]

/-! ### `compute_lambda` -/

def A.computeLambda (i j k : Variance) (k1 k2 k3 a : K) :
    Except ResourceFailure (Fin N → Fin N → Fin N → K) := do
  let deriv_i ← derivLambda S R i
  let deriv_j ← derivLambda S R j
  let deriv_k ← derivLambda S R k
  let V_ijk ← dddVLambda S R i j k
  let V_ikj ← dddVLambda S R i k j
  let V_jik ← dddVLambda S R j i k
  let V_jki ← dddVLambda S R j k i
  let V_kij ← dddVLambda S R k i j
  let V_kji ← dddVLambda S R k j i
  let Vij ← ddVLambda S R i j
  let Vjk ← ddVLambda S R j k
  let Vik ← ddVLambda S R i k
  let Vi ← dVLambda S R i
  let Vj ← dVLambda S R j
  let Vk ← dVLambda S R k
  let A2_ij ← A2Lambda S R i j
  let A2_jk ← A2Lambda S R j k
  let A2_ik ← A2Lambda S R i k
  let A3_ijk ← A3Lambda S R i j k
  let delta_ij ← metricLambda S R i j
  let delta_jk ← metricLambda S R j k
  let delta_ik ← metricLambda S R i k
  makeLambda R fun x y z =>
    A.expr S (delta_ij x y) (delta_jk y z) (delta_ik x z)
      ((V_ijk x y z + V_ikj x z y + V_jik y x z + V_jki y z x + V_kij z x y + V_kji z y x) / 6)
      (Vij x y) (Vjk y z) (Vik x z) (Vi x) (Vj y) (Vk z) (A2_ij x y) (A2_jk y z) (A2_ik x z)
      (A3_ijk x y z) (deriv_i x) (deriv_j y) (deriv_k z) k1 k2 k3 a

def Atilde.computeLambda (i j k : Variance) (k1 k2 k3 _a : K) :
    Except ResourceFailure (Fin N → Fin N → Fin N → K) := do
  let deriv_i ← derivLambda S R i
  let deriv_j ← derivLambda S R j
  let deriv_k ← derivLambda S R k
  let V_ijk ← dddVLambda S R i j k
  let V_ikj ← dddVLambda S R i k j
  let V_jik ← dddVLambda S R j i k
  let V_jki ← dddVLambda S R j k i
  let V_kij ← dddVLambda S R k i j
  let V_kji ← dddVLambda S R k j i
  let Vij ← ddVLambda S R i j
  let Vjk ← ddVLambda S R j k
  let Vik ← ddVLambda S R i k
  let Vi ← dVLambda S R i
  let Vj ← dVLambda S R j
  let Vk ← dVLambda S R k
  let A2_ij ← A2Lambda S R i j
  let A2_jk ← A2Lambda S R j k
  let A2_ik ← A2Lambda S R i k
  let A3_ijk ← A3Lambda S R i j k
  makeLambda R fun x y z =>
    Atilde.expr S
      ((V_ijk x y z + V_ikj x z y + V_jik y x z + V_jki y z x + V_kij z x y + V_kji z y x) / 6)
      (Vij x y) (Vjk y z) (Vik x z) (Vi x) (Vj y) (Vk z) (A2_ij x y) (A2_jk y z) (A2_ik x z)
      (A3_ijk x y z) (deriv_i x) (deriv_j y) (deriv_k z) k1 k2 k3

def B.computeLambda (i j k : Variance) (k1 k2 k3 _a : K) :
    Except ResourceFailure (Fin N → Fin N → Fin N → K) := do
  let deriv_i ← derivLambda S R i
  let deriv_j ← derivLambda S R j
  let deriv_k ← derivLambda S R k
  let Vi ← dVLambda S R i
  let Vj ← dVLambda S R j
  let _Vk ← dVLambda S R k
  let B3_ijk ← B3Lambda S R i j k
  let delta_ik ← metricLambda S R i k
  let delta_jk ← metricLambda S R j k
  makeLambda R fun x y z =>
    B.expr S (delta_ik x z) (delta_jk y z) (Vi x) (Vj y) (B3_ijk x y z)
      (deriv_i x) (deriv_j y) (deriv_k z) k1 k2 k3

def C.computeLambda (i j k : Variance) (k1 k2 k3 _a : K) :
    Except ResourceFailure (Fin N → Fin N → Fin N → K) := do
  let deriv_i ← derivLambda S R i
  let deriv_j ← derivLambda S R j
  let deriv_k ← derivLambda S R k
  let delta_ij ← metricLambda S R i j
  let delta_jk ← metricLambda S R j k
  let delta_ik ← metricLambda S R i k
  makeLambda R fun x y z =>
    C.expr S (delta_ij x y) (delta_jk y z) (delta_ik x z)
      (deriv_i x) (deriv_j y) (deriv_k z) k1 k2 k3

def M.computeLambda (i j : Variance) : Except ResourceFailure (Fin N → Fin N → K) := do
  let deriv_i ← derivLambda S R i
  let deriv_j ← derivLambda S R j
  let Vij ← ddVLambda S R i j
  let Vi ← dVLambda S R i
  let Vj ← dVLambda S R j
  let A2_ij ← A2Lambda S R i j
  makeLambda R fun x y => M.expr S (Vij x y) (Vi x) (Vj y) (A2_ij x y) (deriv_i x) (deriv_j y)

/-! The lambdas over phase space take the entry for the kinds of their indices, at the fields
these belong to. -/

def u1.computeLambda (i : Variance) : Except ResourceFailure (PhaseIndex N → K) := do
  let deriv_a_i ← derivLambda S R i
  let deriv_b_i ← derivLambda S R i
  let V_b_i ← dVLambda S R i
  makeLambda R fun x =>
    let x' := x.toSpecies.value
    if x.isSpecies then deriv_a_i x' else u1.exprMomentum S (V_b_i x') (deriv_b_i x')

def u2.computeLambda (i j : Variance) (k a : K) :
    Except ResourceFailure (PhaseIndex N → PhaseIndex N → K) := do
  let _deriv_a_i ← derivLambda S R i
  let deriv_b_i ← derivLambda S R i
  let deriv_a_j ← derivLambda S R j
  let _deriv_b_j ← derivLambda S R j
  let fm ← metricLambda S R i j
  let mm ← metricLambda S R i j
  let V_ba_ij ← ddVLambda S R i j
  let V_b_i ← dVLambda S R i
  let V_a_j ← dVLambda S R j
  let A2_ij ← A2Lambda S R i j
  let delta_ij ← metricLambda S R i j
  makeLambda R fun x y =>
    let x' := x.toSpecies.value
    let y' := y.toSpecies.value
    match x.isSpecies, y.isSpecies with
    | true, true => 0
    | true, false => fm x' y'
    | false, true =>
      u2.exprMomentumField S (delta_ij x' y') (V_ba_ij x' y') (V_b_i x') (V_a_j y') (deriv_b_i x')
        (deriv_a_j y') (A2_ij x' y') k a
    | false, false => mm x' y' * (eps S - 3)

def u3.computeLambda (i j k : Variance) (k1 k2 k3 a : K) :
    Except ResourceFailure (PhaseIndex N → PhaseIndex N → PhaseIndex N → K) := do
  let fff ← B.computeLambda S R j k i k2 k3 k1 a
  let ffm ← C.computeLambda S R i k j k1 k3 k2 a
  let fmf ← C.computeLambda S R i j k k1 k2 k3 a
  let mff ← A.computeLambda S R i j k k1 k2 k3 a
  let mfm ← B.computeLambda S R i j k k1 k2 k3 a
  let mmf ← B.computeLambda S R i k j k1 k3 k2 a
  let mmm ← C.computeLambda S R j k i k2 k3 k1 a
  makeLambda R fun x y z =>
    let x' := x.toSpecies.value
    let y' := y.toSpecies.value
    let z' := z.toSpecies.value
    match x.isSpecies, y.isSpecies, z.isSpecies with
    | true, true, true => - fff y' z' x'
    | true, true, false => - ffm x' z' y'
    | true, false, true => - fmf x' y' z'
    | true, false, false => 0
    | false, true, true => 3 * mff x' y' z'
    | false, true, false => mfm x' y' z'
    | false, false, true => mmf x' z' y'
    | false, false, false => mmm y' z' x'

def zeta1.computeLambda (i : Variance) : Except ResourceFailure (PhaseIndex N → K) := do
  let deriv_a_i ← derivLambda S R i
  makeLambda R fun x => if x.isSpecies then zeta1.expr S (deriv_a_i x.toSpecies.value) else 0

def zeta2.computeLambda (i j : Variance) (k k1 k2 _a : K) :
    Except ResourceFailure (PhaseIndex N → PhaseIndex N → K) := do
  let deriv_a_i ← derivLambda S R i
  let deriv_b_i ← derivLambda S R i
  let deriv_a_j ← derivLambda S R j
  let deriv_b_j ← derivLambda S R j
  let delta_ij ← metricLambda S R i j
  let delta_ij' ← metricLambda S R i j
  makeLambda R fun x y =>
    let x' := x.toSpecies.value
    let y' := y.toSpecies.value
    match x.isSpecies, y.isSpecies with
    | true, true => zeta2.exprFieldField S (resolvedComponents S R) (deriv_a_i x') (deriv_a_j y')
    | true, false =>
      zeta2.exprFieldMomentum S (delta_ij x' y') (deriv_a_i x') (deriv_b_j y') k k1 k2
    | false, true =>
      zeta2.exprFieldMomentum S (delta_ij' x' y') (deriv_a_j y') (deriv_b_i x') k k2 k1
    | false, false => 0

/-! ### When a request is met -/

/-- The labels `derivLambda` needs. -/
def Resources.HasDeriv (N : ℕ) (v : Variance) : Prop :=
  R.canRollCoordinates = true ∧ R.fieldFlatten.isSome ∧ (0 < N → v = .covariant → R.metric.isSome)

/-- The labels `metricLambda` needs. -/
def Resources.HasMetric (vi vj : Variance) : Prop :=
  vi = vj → R.positions vi = true ∧ R.fieldFlatten.isSome

variable {S R}

theorem derivLambda_eq_ok {v : Variance} {f : Fin N → K} :
    derivLambda S R v = .ok f ↔ R.HasDeriv N v ∧ f = fun i => derivs S ⟨i, v⟩ := by
  have hposition : (∀ j : Fin 1, ![v] j ≠ .contravariant → R.positions (![v] j) = true)
      ↔ (v = .covariant → R.metric.isSome) := by
    cases v <;> simp [Resources.positions]
  unfold derivLambda Resources.HasDeriv
  by_cases hroll : R.canRollCoordinates = true
  · simp only [hroll, if_true, bind_eq_ok, labelIndices_eq_ok, pure_eq_ok, hposition, true_and,
      and_assoc, exists_and_left, exists_eq_left]
    rfl
  · simp [hroll]

theorem dVLambda_eq_ok {v : Variance} {f : Fin N → K} :
    dVLambda S R v = .ok f ↔ R.Serves N R.dV ![v] ∧ f = fun i => dV S ⟨i, v⟩ := by
  simp only [dVLambda, bind_eq_ok, labelled_eq_ok, pure_eq_ok, and_assoc, exists_and_left,
    exists_eq_left]
  rfl

theorem ddVLambda_eq_ok {vi vj : Variance} {f : Fin N → Fin N → K} :
    ddVLambda S R vi vj = .ok f ↔
      R.Serves N R.ddV ![vi, vj] ∧ f = fun i j => ddV S ⟨i, vi⟩ ⟨j, vj⟩ := by
  simp only [ddVLambda, bind_eq_ok, labelled_eq_ok, pure_eq_ok, and_assoc, exists_and_left,
    exists_eq_left]
  rfl

theorem dddVLambda_eq_ok {vi vj vk : Variance} {f : Fin N → Fin N → Fin N → K} :
    dddVLambda S R vi vj vk = .ok f ↔ R.Serves N R.dddV ![vi, vj, vk] ∧
      f = fun i j k => dddV S ⟨i, vi⟩ ⟨j, vj⟩ ⟨k, vk⟩ := by
  simp only [dddVLambda, bind_eq_ok, labelled_eq_ok, pure_eq_ok, and_assoc, exists_and_left,
    exists_eq_left]
  rfl

theorem A2Lambda_eq_ok {vi vj : Variance} {f : Fin N → Fin N → K} :
    A2Lambda S R vi vj = .ok f ↔
      R.Serves N R.A2 ![vi, vj] ∧ f = fun i j => A2 S ⟨i, vi⟩ ⟨j, vj⟩ := by
  simp only [A2Lambda, bind_eq_ok, labelled_eq_ok, pure_eq_ok, and_assoc, exists_and_left,
    exists_eq_left]
  rfl

theorem A3Lambda_eq_ok {vi vj vk : Variance} {f : Fin N → Fin N → Fin N → K} :
    A3Lambda S R vi vj vk = .ok f ↔ R.Serves N R.A3 ![vi, vj, vk] ∧
      f = fun i j k => A3 S ⟨i, vi⟩ ⟨j, vj⟩ ⟨k, vk⟩ := by
  simp only [A3Lambda, bind_eq_ok, labelled_eq_ok, pure_eq_ok, and_assoc, exists_and_left,
    exists_eq_left]
  rfl

theorem B3Lambda_eq_ok {vi vj vk : Variance} {f : Fin N → Fin N → Fin N → K} :
    B3Lambda S R vi vj vk = .ok f ↔ R.Serves N R.B3 ![vi, vj, vk] ∧
      f = fun i j k => B3 S ⟨i, vi⟩ ⟨j, vj⟩ ⟨k, vk⟩ := by
  simp only [B3Lambda, bind_eq_ok, labelled_eq_ok, pure_eq_ok, and_assoc, exists_and_left,
    exists_eq_left]
  rfl

theorem metricLambda_eq_ok {vi vj : Variance} {f : Fin N → Fin N → K} :
    metricLambda S R vi vj = .ok f ↔
      R.HasMetric vi vj ∧ f = fun i j => metric S ⟨i, vi⟩ ⟨j, vj⟩ := by
  unfold metricLambda Resources.HasMetric
  by_cases hvar : vi = vj
  · subst hvar
    cases vi with
    | covariant =>
      by_cases hlabels : R.metric.isSome ∧ R.fieldFlatten.isSome
      · simp [hlabels, Resources.positions, metric, eq_comm]
      · simp [hlabels, Resources.positions]
    | contravariant =>
      by_cases hlabels : R.metricInverse.isSome ∧ R.fieldFlatten.isSome
      · simp [hlabels, Resources.positions, metric, eq_comm]
      · simp [hlabels, Resources.positions]
  · simp only [ne_eq, hvar, not_false_eq_true, if_true, false_implies, true_and, metric,
      Except.ok.injEq]
    exact eq_comm

theorem makeLambda_eq_ok {α : Type*} {lambda f : α} :
    makeLambda R lambda = .ok f ↔ R.workingType.isSome ∧ f = lambda := by
  unfold makeLambda
  by_cases htype : R.workingType.isSome <;> simp [htype, eq_comm]

/-! ### Tensors that ask for the metric and its inverse -/

/-- What `get_unroll` ensures for indices at the positions `vars` when it asks for the metric and
its inverse. -/
structure Resources.Ready (R : Resources) (vars : List Variance) : Prop where
  roll : R.canRollCoordinates = true
  flatten : R.fieldFlatten.isSome
  workingType : R.workingType.isSome
  positions : ∀ v ∈ vars, R.positions v = true

theorem hasG_eq_true {vars : List Variance} :
    hasG R vars = true ↔ (.covariant ∈ vars → R.canRollMetric = true) := by
  unfold hasG
  split
  case isTrue h => simp [h]
  case isFalse h => simp [h]

theorem hasGinv_eq_true {vars : List Variance} :
    hasGinv R vars = true ↔ (.contravariant ∈ vars → R.canRollMetricInverse = true) := by
  unfold hasGinv
  split
  case isTrue h => simp [h]
  case isFalse h => simp [h]

theorem canRollMetric_eq_true :
    R.canRollMetric = true ↔
      R.positions .covariant = true ∧ R.fieldFlatten.isSome ∧ R.workingType.isSome := by
  simp only [Resources.canRollMetric, Bool.and_eq_true, and_assoc]
  rfl

theorem canRollMetricInverse_eq_true :
    R.canRollMetricInverse = true ↔
      R.positions .contravariant = true ∧ R.fieldFlatten.isSome ∧ R.workingType.isSome := by
  simp only [Resources.canRollMetricInverse, Bool.and_eq_true, and_assoc]
  rfl

theorem Resources.Ready.intro {v : Variance} {vars : List Variance}
    (hroll : R.canRollCoordinates = true) (hG : hasG R (v :: vars) = true)
    (hGinv : hasGinv R (v :: vars) = true) : R.Ready (v :: vars) := by
  rw [hasG_eq_true, canRollMetric_eq_true] at hG
  rw [hasGinv_eq_true, canRollMetricInverse_eq_true] at hGinv
  -- the position of any one index brings the flattener and the working type
  have htypes : R.fieldFlatten.isSome ∧ R.workingType.isSome := by
    cases v with
    | covariant => exact (hG (List.mem_cons_self ..)).2
    | contravariant => exact (hGinv (List.mem_cons_self ..)).2
  refine ⟨hroll, htypes.1, htypes.2, fun w hw => ?_⟩
  cases w with
  | covariant => exact (hG hw).1
  | contravariant => exact (hGinv hw).1

theorem ne_nil_of_canRoll {n : ℕ} {labels : Labels n} {reqd : Fin n → Variance}
    (h : R.canRoll labels reqd = true) : labels ≠ [] := by
  rintro rfl
  simp [Resources.canRoll, Labels.find] at h

namespace Resources.Ready

variable {vars : List Variance} (h : R.Ready vars) {v vi vj vk : Variance}
include h

theorem hasDeriv (hv : v ∈ vars) : R.HasDeriv N v :=
  ⟨h.roll, h.flatten, fun _ hcov => by simpa [Resources.positions, hcov] using h.positions v hv⟩

theorem hasMetric (hi : vi ∈ vars) : R.HasMetric vi vj := fun _ => ⟨h.positions vi hi, h.flatten⟩

theorem serves1 (labels : Labels 1) (hv : v ∈ vars) :
    R.Serves N labels ![v] ↔ labels ≠ [] :=
  serves_of_positions h.flatten fun j => by
    fin_cases j
    exact h.positions v hv

theorem serves2 (labels : Labels 2) (hi : vi ∈ vars) (hj : vj ∈ vars) :
    R.Serves N labels ![vi, vj] ↔ labels ≠ [] :=
  serves_of_positions h.flatten fun j => by
    fin_cases j
    · exact h.positions vi hi
    · exact h.positions vj hj

theorem serves3 (labels : Labels 3) (hi : vi ∈ vars) (hj : vj ∈ vars) (hk : vk ∈ vars) :
    R.Serves N labels ![vi, vj, vk] ↔ labels ≠ [] :=
  serves_of_positions h.flatten fun j => by
    fin_cases j
    · exact h.positions vi hi
    · exact h.positions vj hj
    · exact h.positions vk hk

variable {i j k : Variance} {k1 k2 k3 a : K}

theorem A_eq_ok (hi : i ∈ vars) (hj : j ∈ vars) (hk : k ∈ vars)
    {f : Fin N → Fin N → Fin N → K} :
    A.computeLambda S R i j k k1 k2 k3 a = .ok f ↔
      (R.dddV ≠ [] ∧ R.ddV ≠ [] ∧ R.dV ≠ [] ∧ R.A2 ≠ [] ∧ R.A3 ≠ []) ∧
        f = fun x y z => A.computeComponent S (components S) ⟨x, i⟩ ⟨y, j⟩ ⟨z, k⟩ k1 k2 k3 a := by
  simp only [A.computeLambda, bind_eq_ok, derivLambda_eq_ok, dddVLambda_eq_ok, ddVLambda_eq_ok,
    dVLambda_eq_ok, A2Lambda_eq_ok, A3Lambda_eq_ok, metricLambda_eq_ok, makeLambda_eq_ok,
    h.serves1, h.serves2, h.serves3, h.hasDeriv, h.hasMetric, h.workingType, hi, hj, hk,
    and_assoc, exists_and_left, exists_eq_left, true_and, and_self_left]
  rfl

theorem Atilde_eq_ok (hi : i ∈ vars) (hj : j ∈ vars) (hk : k ∈ vars)
    {f : Fin N → Fin N → Fin N → K} :
    Atilde.computeLambda S R i j k k1 k2 k3 a = .ok f ↔
      (R.dddV ≠ [] ∧ R.ddV ≠ [] ∧ R.dV ≠ [] ∧ R.A2 ≠ [] ∧ R.A3 ≠ []) ∧
        f = fun x y z =>
          Atilde.computeComponent S (components S) ⟨x, i⟩ ⟨y, j⟩ ⟨z, k⟩ k1 k2 k3 a := by
  simp only [Atilde.computeLambda, bind_eq_ok, derivLambda_eq_ok, dddVLambda_eq_ok,
    ddVLambda_eq_ok, dVLambda_eq_ok, A2Lambda_eq_ok, A3Lambda_eq_ok, makeLambda_eq_ok,
    h.serves1, h.serves2, h.serves3, h.hasDeriv, h.workingType, hi, hj, hk,
    and_assoc, exists_and_left, exists_eq_left, true_and, and_self_left]
  rfl

theorem B_eq_ok (hi : i ∈ vars) (hj : j ∈ vars) (hk : k ∈ vars)
    {f : Fin N → Fin N → Fin N → K} :
    B.computeLambda S R i j k k1 k2 k3 a = .ok f ↔
      (R.dV ≠ [] ∧ R.B3 ≠ []) ∧
        f = fun x y z => B.computeComponent S (components S) ⟨x, i⟩ ⟨y, j⟩ ⟨z, k⟩ k1 k2 k3 a := by
  simp only [B.computeLambda, bind_eq_ok, derivLambda_eq_ok, dVLambda_eq_ok, B3Lambda_eq_ok,
    metricLambda_eq_ok, makeLambda_eq_ok, h.serves1, h.serves3, h.hasDeriv, h.hasMetric,
    h.workingType, hi, hj, hk, and_assoc, exists_and_left, exists_eq_left, true_and, and_self_left]
  rfl

theorem C_eq_ok (hi : i ∈ vars) (hj : j ∈ vars) (hk : k ∈ vars)
    {f : Fin N → Fin N → Fin N → K} :
    C.computeLambda S R i j k k1 k2 k3 a = .ok f ↔
      f = fun x y z => C.computeComponent S (components S) ⟨x, i⟩ ⟨y, j⟩ ⟨z, k⟩ k1 k2 k3 a := by
  simp only [C.computeLambda, bind_eq_ok, derivLambda_eq_ok, metricLambda_eq_ok, makeLambda_eq_ok,
    h.hasDeriv, h.hasMetric, h.workingType, hi, hj, hk, exists_eq_left, true_and]
  rfl

theorem u1_eq_ok (hi : i ∈ vars) {f : PhaseIndex N → K} :
    u1.computeLambda S R i = .ok f ↔
      R.dV ≠ [] ∧ f = fun x => u1.computeComponent S (components S) { x with variance := i } := by
  simp only [u1.computeLambda, bind_eq_ok, derivLambda_eq_ok, dVLambda_eq_ok, makeLambda_eq_ok,
    h.serves1, h.hasDeriv, h.workingType, hi, and_assoc, exists_and_left, exists_eq_left, true_and]
  rfl

theorem u2_eq_ok (hi : i ∈ vars) (hj : j ∈ vars) {f : PhaseIndex N → PhaseIndex N → K} :
    u2.computeLambda S R i j k1 a = .ok f ↔
      (R.ddV ≠ [] ∧ R.dV ≠ [] ∧ R.A2 ≠ []) ∧
        f = fun x y => u2.computeComponent S (components S) { x with variance := i }
          { y with variance := j } k1 a := by
  simp only [u2.computeLambda, bind_eq_ok, derivLambda_eq_ok, dVLambda_eq_ok, ddVLambda_eq_ok,
    A2Lambda_eq_ok, metricLambda_eq_ok, makeLambda_eq_ok, h.serves1, h.serves2, h.hasDeriv,
    h.hasMetric, h.workingType, hi, hj, and_assoc, exists_and_left, exists_eq_left, true_and,
    and_self_left]
  rfl

/-- The agents of `u3` use combinations of the Riemann tensor. -/
theorem u3_eq_ok (hi : i ∈ vars) (hj : j ∈ vars) (hk : k ∈ vars)
    {f : PhaseIndex N → PhaseIndex N → PhaseIndex N → K} :
    u3.computeLambda S R i j k k1 k2 k3 a = .ok f ↔
      (R.dV ≠ [] ∧ R.B3 ≠ [] ∧ R.dddV ≠ [] ∧ R.ddV ≠ [] ∧ R.A2 ≠ [] ∧ R.A3 ≠ []) ∧
        f = fun x y z => u3.computeComponent S (components S) { x with variance := i }
          { y with variance := j } { z with variance := k } k1 k2 k3 a := by
  simp only [u3.computeLambda, bind_eq_ok, h.A_eq_ok, h.B_eq_ok, h.C_eq_ok, makeLambda_eq_ok,
    h.workingType, hi, hj, hk, and_assoc, exists_and_left, exists_eq_left, true_and]
  constructor
  · rintro ⟨hV, hB3, hdddV, hddV, -, hA2, hA3, -, -, -, -, hf⟩
    exact ⟨hV, hB3, hdddV, hddV, hA2, hA3, hf⟩
  · rintro ⟨hV, hB3, hdddV, hddV, hA2, hA3, hf⟩
    exact ⟨hV, hB3, hdddV, hddV, hV, hA2, hA3, hV, hB3, hV, hB3, hf⟩

end Resources.Ready

/-! ### The other tensors -/

variable {i j k : Variance} {k0 k1 k2 k3 a : K}

theorem C.computeLambda_eq_ok {f : Fin N → Fin N → Fin N → K} :
    C.computeLambda S R i j k k1 k2 k3 a = .ok f ↔
      (R.HasDeriv N i ∧ R.HasDeriv N j ∧ R.HasDeriv N k ∧ R.HasMetric i j ∧ R.HasMetric j k ∧
        R.HasMetric i k ∧ R.workingType.isSome) ∧
        f = fun x y z => C.computeComponent S (components S) ⟨x, i⟩ ⟨y, j⟩ ⟨z, k⟩ k1 k2 k3 a := by
  simp only [C.computeLambda, bind_eq_ok, derivLambda_eq_ok, metricLambda_eq_ok, makeLambda_eq_ok,
    and_assoc, exists_and_left, exists_eq_left]
  rfl

theorem M.computeLambda_eq_ok {f : Fin N → Fin N → K} :
    M.computeLambda S R i j = .ok f ↔
      (R.HasDeriv N i ∧ R.HasDeriv N j ∧ R.Serves N R.ddV ![i, j] ∧ R.Serves N R.dV ![i] ∧
        R.Serves N R.dV ![j] ∧ R.Serves N R.A2 ![i, j] ∧ R.workingType.isSome) ∧
        f = fun x y => M.computeComponent S (components S) ⟨x, i⟩ ⟨y, j⟩ := by
  simp only [M.computeLambda, bind_eq_ok, derivLambda_eq_ok, dVLambda_eq_ok, ddVLambda_eq_ok,
    A2Lambda_eq_ok, makeLambda_eq_ok, and_assoc, exists_and_left, exists_eq_left]
  rfl

theorem zeta1.computeLambda_eq_ok {f : PhaseIndex N → K} :
    zeta1.computeLambda S R i = .ok f ↔
      (R.HasDeriv N i ∧ R.workingType.isSome) ∧
        f = fun x => zeta1.computeComponent S (components S) { x with variance := i } := by
  simp only [zeta1.computeLambda, bind_eq_ok, derivLambda_eq_ok, makeLambda_eq_ok, and_assoc,
    exists_and_left, exists_eq_left]
  rfl

theorem zeta2.computeLambda_eq_ok {f : PhaseIndex N → PhaseIndex N → K} :
    zeta2.computeLambda S R i j k0 k1 k2 a = .ok f ↔
      (R.HasDeriv N i ∧ R.HasDeriv N j ∧ R.HasMetric i j ∧ R.workingType.isSome) ∧
        f = fun x y => zeta2.computeComponent S (components S) { x with variance := i }
          { y with variance := j } k0 k1 k2 a := by
  simp only [zeta2.computeLambda, bind_eq_ok, derivLambda_eq_ok, metricLambda_eq_ok,
    makeLambda_eq_ok, resolvedComponents_eq, and_assoc, exists_and_left, exists_eq_left,
    and_self_left]
  rfl

/-! ### All tensors -/

/-- The tensors of the transport equations. -/
inductive Tensor where
  | A | Atilde | B | C | M | u1 | u2 | u3 | zeta1 | zeta2
deriving DecidableEq, Repr

namespace Tensor

/-- The number of indices. -/
abbrev arity : Tensor → ℕ
  | .A | .Atilde | .B | .C | .u3 => 3
  | .M | .u2 | .zeta2 => 2
  | .u1 | .zeta1 => 1

/-- The number of values of an index: fields, or fields and momenta. -/
abbrev range (N : ℕ) : Tensor → ℕ
  | .A | .Atilde | .B | .C | .M => N
  | .u1 | .u2 | .u3 | .zeta1 | .zeta2 => 2 * N

end Tensor

/-- The wavenumbers and the scale factor. -/
structure Waves (K : Type*) where
  k : K
  k1 : K
  k2 : K
  k3 : K
  a : K

variable (S R)

/-- `get_unroll` of a tensor: whether rolling is allowed. -/
def getUnroll : (t : Tensor) → (Fin t.arity → Variance) → Bool
  | .A, v => A.getUnroll R (v 0) (v 1) (v 2)
  | .Atilde, v => Atilde.getUnroll R (v 0) (v 1) (v 2)
  | .B, v => B.getUnroll R (v 0) (v 1) (v 2)
  | .C, v => C.getUnroll R (v 0) (v 1) (v 2)
  | .M, v => M.getUnroll R (v 0) (v 1)
  | .u1, v => u1.getUnroll R (v 0)
  | .u2, v => u2.getUnroll R (v 0) (v 1)
  | .u3, v => u3.getUnroll R (v 0) (v 1) (v 2)
  | .zeta1, v => zeta1.getUnroll R (v 0)
  | .zeta2, v => zeta2.getUnroll R (v 0) (v 1)

/-- `compute_lambda` of a tensor. -/
def computeLambda (w : Waves K) : (t : Tensor) → (Fin t.arity → Variance) →
    Except ResourceFailure ((Fin t.arity → Fin (t.range N)) → K)
  | .A, v => do
    let f ← A.computeLambda S R (v 0) (v 1) (v 2) w.k1 w.k2 w.k3 w.a
    return fun x => f (x 0) (x 1) (x 2)
  | .Atilde, v => do
    let f ← Atilde.computeLambda S R (v 0) (v 1) (v 2) w.k1 w.k2 w.k3 w.a
    return fun x => f (x 0) (x 1) (x 2)
  | .B, v => do
    let f ← B.computeLambda S R (v 0) (v 1) (v 2) w.k1 w.k2 w.k3 w.a
    return fun x => f (x 0) (x 1) (x 2)
  | .C, v => do
    let f ← C.computeLambda S R (v 0) (v 1) (v 2) w.k1 w.k2 w.k3 w.a
    return fun x => f (x 0) (x 1) (x 2)
  | .M, v => do
    let f ← M.computeLambda S R (v 0) (v 1)
    return fun x => f (x 0) (x 1)
  | .u1, v => do
    let f ← u1.computeLambda S R (v 0)
    return fun x => f ⟨x 0, v 0⟩
  | .u2, v => do
    let f ← u2.computeLambda S R (v 0) (v 1) w.k w.a
    return fun x => f ⟨x 0, v 0⟩ ⟨x 1, v 1⟩
  | .u3, v => do
    let f ← u3.computeLambda S R (v 0) (v 1) (v 2) w.k1 w.k2 w.k3 w.a
    return fun x => f ⟨x 0, v 0⟩ ⟨x 1, v 1⟩ ⟨x 2, v 2⟩
  | .zeta1, v => do
    let f ← zeta1.computeLambda S R (v 0)
    return fun x => f ⟨x 0, v 0⟩
  | .zeta2, v => do
    let f ← zeta2.computeLambda S R (v 0) (v 1) w.k w.k1 w.k2 w.a
    return fun x => f ⟨x 0, v 0⟩ ⟨x 1, v 1⟩

/-- `compute_component` of a tensor. -/
def computeComponent (r : Components N K) (w : Waves K) : (t : Tensor) → (Fin t.arity → Variance) →
    (Fin t.arity → Fin (t.range N)) → K
  | .A, v, x =>
    A.computeComponent S r ⟨x 0, v 0⟩ ⟨x 1, v 1⟩ ⟨x 2, v 2⟩ w.k1 w.k2 w.k3 w.a
  | .Atilde, v, x =>
    Atilde.computeComponent S r ⟨x 0, v 0⟩ ⟨x 1, v 1⟩ ⟨x 2, v 2⟩ w.k1 w.k2 w.k3 w.a
  | .B, v, x =>
    B.computeComponent S r ⟨x 0, v 0⟩ ⟨x 1, v 1⟩ ⟨x 2, v 2⟩ w.k1 w.k2 w.k3 w.a
  | .C, v, x =>
    C.computeComponent S r ⟨x 0, v 0⟩ ⟨x 1, v 1⟩ ⟨x 2, v 2⟩ w.k1 w.k2 w.k3 w.a
  | .M, v, x => M.computeComponent S r ⟨x 0, v 0⟩ ⟨x 1, v 1⟩
  | .u1, v, x => u1.computeComponent S r ⟨x 0, v 0⟩
  | .u2, v, x => u2.computeComponent S r ⟨x 0, v 0⟩ ⟨x 1, v 1⟩ w.k w.a
  | .u3, v, x =>
    u3.computeComponent S r ⟨x 0, v 0⟩ ⟨x 1, v 1⟩ ⟨x 2, v 2⟩ w.k1 w.k2 w.k3 w.a
  | .zeta1, v, x => zeta1.computeComponent S r ⟨x 0, v 0⟩
  | .zeta2, v, x => zeta2.computeComponent S r ⟨x 0, v 0⟩ ⟨x 1, v 1⟩ w.k w.k1 w.k2 w.a

/-- Where rolling is allowed there is a lambda, with the value `compute_component` has. -/
def RollingAgrees (t : Tensor) (v : Fin t.arity → Variance) (w : Waves K) : Prop :=
  getUnroll R t v = true →
    computeLambda S R w t v = .ok (computeComponent S (resolvedComponents S R) w t v)

/-- Labels that a lambda uses and `get_unroll` does not ask for. -/
def Needs (N : ℕ) : (t : Tensor) → (Fin t.arity → Variance) → Prop
  | .C, v => R.fieldFlatten.isSome ∧ R.workingType.isSome ∧
      (2 ≤ List.count .contravariant [v 0, v 1, v 2] → R.metricInverse.isSome)
  | .M, v => 0 < N → .covariant ∈ [v 0, v 1] → R.metric.isSome
  | .u3, _ => R.A2 ≠ [] ∧ R.A3 ≠ [] ∧ R.B3 ≠ []
  | .zeta1, _ => R.fieldFlatten.isSome ∧ R.workingType.isSome
  | .zeta2, v => v 0 = .contravariant → v 1 = .contravariant → R.metricInverse.isSome
  | .A, _ | .Atilde, _ | .B, _ | .u1, _ | .u2, _ => True

variable {S R} {w : Waves K}

/-- Rolling agrees if what `get_unroll` asks for and what is needed besides gives a lambda. -/
theorem rollingAgrees_iff {t : Tensor} {v : Fin t.arity → Variance} {p : Prop}
    (hlambda : getUnroll R t v = true →
      (computeLambda S R w t v = .ok (computeComponent S (components S) w t v) ↔ p)) :
    RollingAgrees S R t v w ↔ (getUnroll R t v = true → p) := by
  unfold RollingAgrees
  rw [resolvedComponents_eq]
  exact forall_congr' hlambda

theorem ready_of_canRollPotential (h : canRollPotential R i j k = true) :
    R.Ready [i, j, k] ∧ R.dV ≠ [] ∧ R.ddV ≠ [] ∧ R.dddV ≠ [] := by
  simp only [canRollPotential, Bool.and_eq_true] at h
  obtain ⟨⟨⟨⟨⟨⟨⟨⟨⟨⟨⟨⟨⟨⟨hroll, hG⟩, hGinv⟩, hV⟩, -⟩, -⟩, hddV⟩, -⟩, -⟩, hdddV⟩, -⟩, -⟩, -⟩, -⟩, -⟩ := h
  exact ⟨.intro hroll hG hGinv, ne_nil_of_canRoll hV, ne_nil_of_canRoll hddV,
    ne_nil_of_canRoll hdddV⟩

theorem riemann_of_canRollRiemannA (h : canRollRiemannA R i j k = true) :
    R.A2 ≠ [] ∧ R.A3 ≠ [] := by
  simp only [canRollRiemannA, Bool.and_eq_true] at h
  exact ⟨ne_nil_of_canRoll h.1.1.1, ne_nil_of_canRoll h.2⟩

theorem A.lambda_iff (h : A.getUnroll R i j k = true) {f : Fin N → Fin N → Fin N → K} :
    A.computeLambda S R i j k k1 k2 k3 a = .ok f ↔
      f = fun x y z => A.computeComponent S (components S) ⟨x, i⟩ ⟨y, j⟩ ⟨z, k⟩ k1 k2 k3 a := by
  obtain ⟨hpotential, hriemann⟩ := (Bool.and_eq_true ..).mp h
  obtain ⟨hready, hV, hddV, hdddV⟩ := ready_of_canRollPotential hpotential
  obtain ⟨hA2, hA3⟩ := riemann_of_canRollRiemannA hriemann
  rw [hready.A_eq_ok (by simp) (by simp) (by simp)]
  exact and_iff_right ⟨hdddV, hddV, hV, hA2, hA3⟩

theorem Atilde.lambda_iff (h : Atilde.getUnroll R i j k = true) {f : Fin N → Fin N → Fin N → K} :
    Atilde.computeLambda S R i j k k1 k2 k3 a = .ok f ↔
      f = fun x y z =>
        Atilde.computeComponent S (components S) ⟨x, i⟩ ⟨y, j⟩ ⟨z, k⟩ k1 k2 k3 a := by
  obtain ⟨hpotential, hriemann⟩ := (Bool.and_eq_true ..).mp h
  obtain ⟨hready, hV, hddV, hdddV⟩ := ready_of_canRollPotential hpotential
  obtain ⟨hA2, hA3⟩ := riemann_of_canRollRiemannA hriemann
  rw [hready.Atilde_eq_ok (by simp) (by simp) (by simp)]
  exact and_iff_right ⟨hdddV, hddV, hV, hA2, hA3⟩

theorem B.lambda_iff (h : B.getUnroll R i j k = true) {f : Fin N → Fin N → Fin N → K} :
    B.computeLambda S R i j k k1 k2 k3 a = .ok f ↔
      f = fun x y z => B.computeComponent S (components S) ⟨x, i⟩ ⟨y, j⟩ ⟨z, k⟩ k1 k2 k3 a := by
  simp only [B.getUnroll, Bool.and_eq_true] at h
  obtain ⟨⟨⟨⟨⟨⟨hroll, hG⟩, hGinv⟩, hV⟩, -⟩, -⟩, hB3⟩ := h
  rw [(Resources.Ready.intro hroll hG hGinv).B_eq_ok (by simp) (by simp) (by simp)]
  exact and_iff_right ⟨ne_nil_of_canRoll hV, ne_nil_of_canRoll hB3⟩

theorem u1.lambda_iff (h : u1.getUnroll R i = true) {f : PhaseIndex N → K} :
    u1.computeLambda S R i = .ok f ↔
      f = fun x => u1.computeComponent S (components S) { x with variance := i } := by
  simp only [u1.getUnroll, Bool.and_eq_true] at h
  obtain ⟨⟨⟨hroll, hG⟩, hGinv⟩, hV⟩ := h
  rw [(Resources.Ready.intro hroll hG hGinv).u1_eq_ok (by simp)]
  exact and_iff_right (ne_nil_of_canRoll hV)

theorem u2.lambda_iff (h : u2.getUnroll R i j = true) {f : PhaseIndex N → PhaseIndex N → K} :
    u2.computeLambda S R i j k0 a = .ok f ↔
      f = fun x y => u2.computeComponent S (components S) { x with variance := i }
        { y with variance := j } k0 a := by
  simp only [u2.getUnroll, Bool.and_eq_true] at h
  obtain ⟨⟨⟨⟨⟨⟨hroll, hG⟩, hGinv⟩, hV⟩, -⟩, hddV⟩, hA2⟩ := h
  rw [(Resources.Ready.intro hroll hG hGinv).u2_eq_ok (by simp) (by simp)]
  exact and_iff_right ⟨ne_nil_of_canRoll hddV, ne_nil_of_canRoll hV, ne_nil_of_canRoll hA2⟩

/-- `get_unroll` says nothing about the combinations of the Riemann tensor. -/
theorem u3.lambda_iff (h : u3.getUnroll R i j k = true)
    {f : PhaseIndex N → PhaseIndex N → PhaseIndex N → K} :
    u3.computeLambda S R i j k k1 k2 k3 a = .ok f ↔
      (R.A2 ≠ [] ∧ R.A3 ≠ [] ∧ R.B3 ≠ []) ∧
        f = fun x y z => u3.computeComponent S (components S) { x with variance := i }
          { y with variance := j } { z with variance := k } k1 k2 k3 a := by
  obtain ⟨hready, hV, hddV, hdddV⟩ := ready_of_canRollPotential h
  rw [hready.u3_eq_ok (by simp) (by simp) (by simp)]
  refine and_congr_left fun _ => ⟨?_, ?_⟩
  · rintro ⟨-, hB3, -, -, hA2, hA3⟩
    exact ⟨hA2, hA3, hB3⟩
  · rintro ⟨hA2, hA3, hB3⟩
    exact ⟨hV, hB3, hdddV, hddV, hA2, hA3⟩

/-- The metric is asked for, so only the types and the inverse can be missing. -/
theorem C.lambda_iff (h : C.getUnroll R i j k = true) {f : Fin N → Fin N → Fin N → K} :
    C.computeLambda S R i j k k1 k2 k3 a = .ok f ↔
      (R.fieldFlatten.isSome ∧ R.workingType.isSome ∧
        (2 ≤ List.count .contravariant [i, j, k] → R.metricInverse.isSome)) ∧
        f = fun x y z => C.computeComponent S (components S) ⟨x, i⟩ ⟨y, j⟩ ⟨z, k⟩ k1 k2 k3 a := by
  obtain ⟨hroll, hG⟩ := (Bool.and_eq_true ..).mp h
  rw [hasG_eq_true, canRollMetric_eq_true] at hG
  rw [C.computeLambda_eq_ok]
  refine and_congr_left fun _ => ?_
  simp only [Resources.HasDeriv, Resources.HasMetric, hroll, true_and]
  cases i <;> cases j <;> cases k <;>
    simp_all [Resources.positions, and_comm]

theorem zeta1.lambda_iff (h : zeta1.getUnroll R i = true) {f : PhaseIndex N → K} :
    zeta1.computeLambda S R i = .ok f ↔
      (R.fieldFlatten.isSome ∧ R.workingType.isSome) ∧
        f = fun x => zeta1.computeComponent S (components S) { x with variance := i } := by
  obtain ⟨hroll, hG⟩ := (Bool.and_eq_true ..).mp h
  rw [hasG_eq_true, canRollMetric_eq_true] at hG
  rw [zeta1.computeLambda_eq_ok]
  refine and_congr_left fun _ => and_congr_left fun _ => ?_
  refine ⟨fun hderiv => hderiv.2.1, fun hflat => ⟨hroll, hflat, fun _ hcov => ?_⟩⟩
  exact (hG (by simp [hcov])).1

theorem types_of_canRoll {n : ℕ} {labels : Labels n} {reqd : Fin n → Variance}
    (h : R.canRoll labels reqd = true) : R.fieldFlatten.isSome ∧ R.workingType.isSome := by
  unfold Resources.canRoll at h
  split at h
  case h_1 => exact ⟨(Bool.and_eq_true_iff.mp (Bool.and_eq_true_iff.mp h).1).2,
    (Bool.and_eq_true_iff.mp h).2⟩
  case h_2 => exact absurd h Bool.false_ne_true

/-- The metric is not asked for, but the momenta are lowered with it. -/
theorem M.lambda_iff (h : M.getUnroll R i j = true) {f : Fin N → Fin N → K} :
    M.computeLambda S R i j = .ok f ↔
      (0 < N → .covariant ∈ [i, j] → R.metric.isSome) ∧
        f = fun x y => M.computeComponent S (components S) ⟨x, i⟩ ⟨y, j⟩ := by
  simp only [M.getUnroll, Bool.and_eq_true] at h
  obtain ⟨⟨⟨⟨hroll, hVi⟩, hVj⟩, hddV⟩, hA2⟩ := h
  obtain ⟨hflat, htype⟩ := types_of_canRoll hVi
  rw [M.computeLambda_eq_ok]
  refine and_congr_left fun _ => ?_
  simp only [serves_of_canRoll hVi, serves_of_canRoll hVj, serves_of_canRoll hddV,
    serves_of_canRoll hA2, Resources.HasDeriv, hroll, hflat, htype, true_and, and_true]
  cases i <;> cases j <;> simp

/-- The derivatives of the potential are asked for but not used; the inverse is used. -/
theorem zeta2.lambda_iff (h : zeta2.getUnroll R i j = true) {f : PhaseIndex N → PhaseIndex N → K} :
    zeta2.computeLambda S R i j k0 k1 k2 a = .ok f ↔
      (i = .contravariant → j = .contravariant → R.metricInverse.isSome) ∧
        f = fun x y => zeta2.computeComponent S (components S) { x with variance := i }
          { y with variance := j } k0 k1 k2 a := by
  simp only [zeta2.getUnroll, Bool.and_eq_true] at h
  obtain ⟨⟨⟨hroll, hG⟩, hVi⟩, -⟩ := h
  obtain ⟨hflat, htype⟩ := types_of_canRoll hVi
  rw [hasG_eq_true, canRollMetric_eq_true] at hG
  rw [zeta2.computeLambda_eq_ok]
  refine and_congr_left fun _ => ?_
  simp only [Resources.HasDeriv, Resources.HasMetric, hroll, hflat, htype, true_and, and_true]
  cases i <;> cases j <;> simp_all [Resources.positions]

/-- **Rolled and unrolled tensors agree** where the labels are assigned that `get_unroll` does not
ask for, and only there. -/
theorem rolling_iff (t : Tensor) (v : Fin t.arity → Variance) (w : Waves K) :
    RollingAgrees S R t v w ↔ (getUnroll R t v = true → Needs R N t v) := by
  refine rollingAgrees_iff fun h => ?_
  cases t with
  | A =>
    simp only [computeLambda, bind_eq_ok, A.lambda_iff h, exists_eq_left, pure_eq_ok]
    exact iff_of_true rfl trivial
  | Atilde =>
    simp only [computeLambda, bind_eq_ok, Atilde.lambda_iff h, exists_eq_left, pure_eq_ok]
    exact iff_of_true rfl trivial
  | B =>
    simp only [computeLambda, bind_eq_ok, B.lambda_iff h, exists_eq_left, pure_eq_ok]
    exact iff_of_true rfl trivial
  | C =>
    simp only [computeLambda, bind_eq_ok, C.lambda_iff h, and_assoc, exists_and_left,
      exists_eq_left, pure_eq_ok]
    exact and_congr_right fun _ => and_congr_right fun _ => and_iff_left rfl
  | M =>
    simp only [computeLambda, bind_eq_ok, M.lambda_iff h, and_assoc, exists_and_left,
      exists_eq_left, pure_eq_ok]
    exact and_iff_left rfl
  | u1 =>
    simp only [computeLambda, bind_eq_ok, u1.lambda_iff h, exists_eq_left, pure_eq_ok]
    exact iff_of_true rfl trivial
  | u2 =>
    simp only [computeLambda, bind_eq_ok, u2.lambda_iff h, exists_eq_left, pure_eq_ok]
    exact iff_of_true rfl trivial
  | u3 =>
    simp only [computeLambda, bind_eq_ok, u3.lambda_iff h, and_assoc, exists_and_left,
      exists_eq_left, pure_eq_ok]
    exact and_congr_right fun _ => and_congr_right fun _ => and_iff_left rfl
  | zeta1 =>
    simp only [computeLambda, bind_eq_ok, zeta1.lambda_iff h, and_assoc, exists_and_left,
      exists_eq_left, pure_eq_ok]
    exact and_congr_right fun _ => and_iff_left rfl
  | zeta2 =>
    simp only [computeLambda, bind_eq_ok, zeta2.lambda_iff h, and_assoc, exists_and_left,
      exists_eq_left, pure_eq_ok]
    exact and_iff_left rfl

/-! ### A loop that fails -/

/-- One field with a constant potential. -/
def constantField : MetricModel 1 ℚ where
  V := 1
  Mp := 1
  deriv _ := 1
  diff _ := 0
  diff_comm _ _ _ := rfl
  doCse := false
  epsSymbol := 0
  HsqSymbol := 0
  etaSymbol := 0
  G := 1
  Ginv := 1
  G_symm _ _ := by simp [Matrix.one_apply, eq_comm]
  mul_Ginv := one_mul 1
  stray := 0

/-- What a template has that computes the potential and its derivatives. -/
def potentialLabels : Resources where
  coordinates := some "__coords"
  phaseFlatten := some "FLATTEN"
  fieldFlatten := some "FIELDS_FLATTEN"
  workingType := some "number"
  metric := some "__G"
  metricInverse := some "__Ginv"
  dV := [(![.covariant], "__dV")]
  ddV := [(![.covariant, .covariant], "__ddV")]
  dddV := [(![.covariant, .covariant, .covariant], "__dddV")]

/-- `u3` may be rolled, but its lambda asks for a combination of the Riemann tensor. -/
theorem u3_not_agrees :
    ¬ RollingAgrees constantField potentialLabels .u3 (fun _ => .contravariant) ⟨1, 1, 1, 1, 1⟩ := by
  intro h
  have hunroll : getUnroll potentialLabels .u3 (fun _ => .contravariant) = true := by decide
  have hlambda := h hunroll
  simp only [computeLambda, bind_eq_ok, u3.lambda_iff hunroll] at hlambda
  obtain ⟨_, ⟨⟨hA2, -, -⟩, -⟩, -⟩ := hlambda
  exact hA2 rfl

end CppTransport.Translator.NontrivialMetric
