import CppTransport.Library.Exceptions
import CppTransport.Translator.MetricTensors
import Mathlib.Data.List.MinMax

/-!
# Resource labels

A template may assign labels to arrays of the code that is generated: the
coordinates, the metric, the derivatives of the potential with their indices in
one or several positions, and so on. A tensor that is computed for given values of
its indices uses the labels there are and builds the rest from the potential. A
tensor in a loop has to use labels for everything, and a label that is missing is a
`resource_failure`.

## The model

`Resources` is what `resource_manager` holds; parameters are left out. An element
of a labelled array stands for the component the array is meant to hold: labels of
the metric for the metric, labels with indices at given positions for the tensor
with its indices there (`held`). So an expression with labels is here the value it
has then, and an expression over loop variables a function of their values.

## What is proved

`positionIndices_held`: bringing the indices of a labelled array to other positions
gives the tensor with its indices there, from whatever positions they come.
`labelled_eq_ok` says when a labelled tensor can be had and what it is then, and
`resolvedComponents_eq`: which labels are assigned makes no difference to a tensor that is
computed for given values of its indices.
-/

namespace CppTransport.Translator.NontrivialMetric

open Library
open scoped Library.Numerals

variable {N : ℕ} {K : Type*} [Field K] [Algebra ℚ K] (S : MetricModel N K)

/-! ### `indexed_resource` -/

/-- The distance between two arrays of positions: the number of indices in which they differ. -/
def varianceDistance {n : ℕ} (a b : Fin n → Variance) : ℕ := ∑ i, if a i ≠ b i then 1 else 0

/-- The labels of a resource, each with the positions of its indices, in the order of the map. -/
abbrev Labels (n : ℕ) := List ((Fin n → Variance) × String)

/-- `indexed_resource::find`. -/
def Labels.find {n : ℕ} (labels : Labels n) (v : Fin n → Variance) (exact : Bool) :
    Option ((Fin n → Variance) × String) :=
  match List.find? (fun r => varianceDistance v r.1 = 0) labels with
  | some r => some r
  | none => if exact then none else List.argmin (fun r => varianceDistance v r.1) labels

theorem Labels.find_isSome {n : ℕ} (labels : Labels n) (v : Fin n → Variance) :
    (labels.find v false).isSome ↔ labels ≠ [] := by
  unfold Labels.find
  split
  case h_1 r h => simpa using List.ne_nil_of_mem (List.mem_of_find?_eq_some h)
  case h_2 => simp [Option.isSome_iff_ne_none, List.argmin_eq_none]

/-! ### `resource_manager` -/

/-- The labels that are assigned. -/
structure Resources where
  coordinates : Option String := none
  phaseFlatten : Option String := none
  fieldFlatten : Option String := none
  workingType : Option String := none
  metric : Option String := none
  metricInverse : Option String := none
  dV : Labels 1 := []
  ddV : Labels 2 := []
  dddV : Labels 3 := []
  A2 : Labels 2 := []
  A3 : Labels 3 := []
  B3 : Labels 3 := []

/-- `resource_failure`, with the resource that is missing. -/
structure ResourceFailure where
  resource : String
deriving DecidableEq, Repr

namespace Resources

variable (R : Resources)

/-- `shared_resources::can_roll_coordinates`. -/
def canRollCoordinates : Bool := R.coordinates.isSome && R.phaseFlatten.isSome

/-- `can_roll_metric`. -/
def canRollMetric : Bool := R.metric.isSome && R.fieldFlatten.isSome && R.workingType.isSome

/-- `can_roll_metric_inverse`. -/
def canRollMetricInverse : Bool :=
  R.metricInverse.isSome && R.fieldFlatten.isSome && R.workingType.isSome

/-- `get_roll_metric_requirements`. -/
def rollMetricRequirements {n : ℕ} (avail reqd : Fin n → Variance) : Bool :=
  let requireG := decide (∃ i, reqd i = .covariant ∧ avail i = .contravariant)
  let requireGinv := decide (∃ i, reqd i = .contravariant ∧ avail i = .covariant)
  (!requireG || R.metric.isSome) && (!requireGinv || R.metricInverse.isSome)

/-- `can_roll_dV` and its siblings. -/
def canRoll {n : ℕ} (labels : Labels n) (vars : Fin n → Variance) : Bool :=
  match labels.find vars false with
  | some r => R.rollMetricRequirements r.1 vars && R.fieldFlatten.isSome && R.workingType.isSome
  | none => false

end Resources

/-! ### Labels in expressions -/

/-- What a labelled array with indices at `a` holds. -/
def held {n : ℕ} (tensor : (Fin n → Fin N) → K) (a : Fin n → Variance) : (Fin n → Fin N) → K :=
  fun v => positionIndices S (fun _ => .covariant) a v tensor

variable (R : Resources)

/-- Whether the metric that brings an index to the position `r` has a label. -/
def Resources.positions (r : Variance) : Bool :=
  match r with
  | .contravariant => R.metricInverse.isSome
  | .covariant => R.metric.isSome

/-- The label a factor of the contraction needs. -/
def Resources.positionLabel (r : Variance) : Except ResourceFailure PUnit :=
  if R.positions r then .ok ⟨⟩
  else match r with
    | .contravariant => .error ⟨"metric inverse"⟩
    | .covariant => .error ⟨"metric"⟩

/-- `position_indices` on a labelled array that holds `content`. Every term needs the same labels,
so the first one fails or none does. -/
def labelIndices {n : ℕ} (avail reqd : Fin n → Variance) (content : (Fin n → Fin N) → K) :
    Except ResourceFailure ((Fin n → Fin N) → K) :=
  if R.fieldFlatten.isSome then do
    if 0 < positionSize N avail reqd then
      forM (List.finRange n) fun j =>
        if reqd j ≠ avail j then R.positionLabel (reqd j) else .ok ⟨⟩
    return fun indices => positionIndices S avail reqd indices content
  else .error ⟨"fields flatten"⟩

/-- A resource function for index literals, such as `dV_resource`. -/
def labelled {n : ℕ} (name : String) (labels : Labels n) (tensor : (Fin n → Fin N) → K)
    (reqd : Fin n → Variance) : Except ResourceFailure ((Fin n → Fin N) → K) :=
  match labels.find reqd false with
  | some r =>
    if R.fieldFlatten.isSome then labelIndices S R r.1 reqd (held S tensor r.1) else .error ⟨name⟩
  | none => .error ⟨name⟩

/-- A resource function for values of indices: the label if it serves, else the expression. -/
def resolved {n : ℕ} (name : String) (labels : Labels n) (tensor : (Fin n → Fin N) → K)
    (reqd : Fin n → Variance) : (Fin n → Fin N) → K :=
  match labelled S R name labels tensor reqd with
  | .ok f => f
  | .error _ => fun indices => positionIndices S (fun _ => .covariant) reqd indices tensor

/-! ### What labels stand for -/

variable {S R}

theorem rawG_eq (i j : Fin N) : rawG S i j = S.G i j := by
  unfold rawG
  split
  case isTrue => rfl
  case isFalse => exact S.G_symm j i

theorem transpose_G : S.G.transpose = S.G := by
  ext i j
  exact S.G_symm j i

/-- The transposed inverse is a left inverse, and so the inverse. -/
theorem transpose_Ginv : S.Ginv.transpose = S.Ginv := by
  have hleft : S.Ginv.transpose * S.G = 1 := by
    rw [← transpose_G, ← Matrix.transpose_mul, S.mul_Ginv, Matrix.transpose_one]
  rw [← Matrix.mul_one S.Ginv.transpose, ← S.mul_Ginv, ← Matrix.mul_assoc, hleft, Matrix.one_mul]

theorem Ginv_mul : S.Ginv * S.G = 1 := by
  rw [← transpose_G, ← transpose_Ginv, ← Matrix.transpose_mul, S.mul_Ginv, Matrix.transpose_one]

theorem rawGinv_eq (i j : Fin N) : rawGinv S i j = S.Ginv i j := by
  unfold rawGinv
  split
  case isTrue => rfl
  case isFalse => exact congrFun (congrFun transpose_Ginv i) j

/-- To raise and lower an index, or to lower and raise it, changes nothing. -/
theorem sum_positionFactor {r a : Variance} (h : r ≠ a) (i u : Fin N) :
    ∑ v, positionFactor S r i v * positionFactor S a v u = if i = u then 1 else 0 := by
  cases r with
  | covariant =>
    cases a with
    | covariant => exact absurd rfl h
    | contravariant =>
      simp only [positionFactor, rawG_eq, rawGinv_eq, ← Matrix.mul_apply, S.mul_Ginv,
        Matrix.one_apply]
  | contravariant =>
    cases a with
    | covariant =>
      simp only [positionFactor, rawG_eq, rawGinv_eq, ← Matrix.mul_apply, Ginv_mul, Matrix.one_apply]
    | contravariant => exact absurd rfl h

theorem positionIndices_sum {n : ℕ} (avail reqd : Fin n → Variance) (indices : Fin n → Fin N)
    (c : Fin N → K) (T : Fin N → (Fin n → Fin N) → K) :
    positionIndices S avail reqd indices (fun w => ∑ v, c v * T v w)
      = ∑ v, c v * positionIndices S avail reqd indices (T v) := by
  simp only [positionIndices, Finset.mul_sum]
  rw [Finset.sum_comm]
  exact Finset.sum_congr rfl fun v _ => Finset.sum_congr rfl fun p _ => by ring

/-- The indices of a tensor come to the same positions from wherever they are. -/
theorem positionIndices_trans {n : ℕ} (c a r : Fin n → Variance) (indices : Fin n → Fin N)
    (tensor : (Fin n → Fin N) → K) :
    positionIndices S a r indices (fun v => positionIndices S c a v tensor)
      = positionIndices S c r indices tensor := by
  induction n with
  | zero => simp only [positionIndices_zero]
  | succ n ih =>
    by_cases hra : r 0 = a 0
    · rw [positionIndices_same S hra]
      by_cases hac : a 0 = c 0
      · rw [positionIndices_same S (hra.trans hac)]
        simp only [positionIndices_same S hac, Fin.cons_zero, Fin.tail_cons]
        exact ih _ _ _ _ _
      · rw [positionIndices_move S (hra ▸ hac)]
        simp only [positionIndices_move S hac, Fin.cons_zero, Fin.tail_cons, positionIndices_sum,
          ih, hra]
    · rw [positionIndices_move S hra]
      by_cases hac : a 0 = c 0
      · rw [positionIndices_move S (hac ▸ hra)]
        simp only [positionIndices_same S hac, Fin.cons_zero, Fin.tail_cons, ih]
      · -- the index has been moved to `a` and comes back
        have hrc : r 0 = c 0 := by
          cases hr : r 0 <;> cases ha : a 0 <;> cases hc : c 0 <;> simp_all
        rw [positionIndices_same S hrc]
        simp only [positionIndices_move S hac, Fin.cons_zero, Fin.tail_cons, positionIndices_sum,
          ih, Finset.mul_sum, ← mul_assoc]
        rw [Finset.sum_comm]
        simp only [← Finset.sum_mul, sum_positionFactor hra, ite_mul, one_mul, zero_mul,
          Finset.sum_ite_eq, Finset.mem_univ, if_true]

theorem positionIndices_held {n : ℕ} (a r : Fin n → Variance) (indices : Fin n → Fin N)
    (tensor : (Fin n → Fin N) → K) :
    positionIndices S a r indices (held S tensor a)
      = positionIndices S (fun _ => .covariant) r indices tensor :=
  positionIndices_trans _ a r indices tensor

/-! ### When a labelled tensor can be had -/

theorem Resources.positionLabel_eq_ok (r : Variance) :
    R.positionLabel r = .ok ⟨⟩ ↔ R.positions r = true := by
  unfold Resources.positionLabel
  cases R.positions r <;> cases r <;> simp

theorem Resources.rollMetricRequirements_iff {n : ℕ} (avail reqd : Fin n → Variance) :
    R.rollMetricRequirements avail reqd = true ↔
      ∀ j, reqd j ≠ avail j → R.positions (reqd j) = true := by
  simp only [Resources.rollMetricRequirements, Bool.and_eq_true, Bool.or_eq_true,
    Bool.not_eq_true', decide_eq_false_iff_not, Resources.positions]
  constructor
  · rintro ⟨hG, hGinv⟩ j hj
    cases hr : reqd j with
    | covariant => exact hG.resolve_left fun h => h ⟨j, hr, by cases ha : avail j <;> simp_all⟩
    | contravariant => exact hGinv.resolve_left fun h => h ⟨j, hr, by cases ha : avail j <;> simp_all⟩
  · intro h
    refine ⟨or_iff_not_imp_left.2 fun hx => ?_, or_iff_not_imp_left.2 fun hx => ?_⟩
    · obtain ⟨j, hr, ha⟩ := not_not.1 hx
      simpa [hr] using h j (by simp [hr, ha])
    · obtain ⟨j, hr, ha⟩ := not_not.1 hx
      simpa [hr] using h j (by simp [hr, ha])

theorem positionSize_pos {n : ℕ} (avail reqd : Fin n → Variance) :
    0 < positionSize N avail reqd ↔ ∀ j, reqd j ≠ avail j → 0 < N := by
  rw [Nat.pos_iff_ne_zero, positionSize, Finset.prod_ne_zero_iff]
  refine ⟨fun h j hj => ?_, fun h j _ => ?_⟩
  · have := h j (Finset.mem_univ j)
    rw [if_pos hj] at this
    exact Nat.pos_of_ne_zero this
  · by_cases hj : reqd j ≠ avail j
    · rw [if_pos hj]
      exact (h j hj).ne'
    · rw [if_neg hj]
      exact one_ne_zero

theorem forM_positionLabel {n : ℕ} (avail reqd : Fin n → Variance) :
    (forM (List.finRange n) fun j =>
        if reqd j ≠ avail j then R.positionLabel (reqd j) else .ok ⟨⟩) = .ok ⟨⟩ ↔
      ∀ j, reqd j ≠ avail j → R.positions (reqd j) = true := by
  rw [forM_eq_ok]
  refine ⟨fun h j hj => ?_, fun h j _ => ?_⟩
  · have := h j (List.mem_finRange j)
    rwa [if_pos hj, Resources.positionLabel_eq_ok] at this
  · by_cases hj : reqd j ≠ avail j
    · rw [if_pos hj, Resources.positionLabel_eq_ok]
      exact h j hj
    · rw [if_neg hj]

theorem labelIndices_eq_ok {n : ℕ} {avail reqd : Fin n → Variance}
    {content f : (Fin n → Fin N) → K} :
    labelIndices S R avail reqd content = .ok f ↔
      R.fieldFlatten.isSome ∧ (0 < N → ∀ j, reqd j ≠ avail j → R.positions (reqd j) = true) ∧
        f = fun indices => positionIndices S avail reqd indices content := by
  unfold labelIndices
  by_cases hflat : R.fieldFlatten.isSome
  · rw [if_pos hflat]
    by_cases hsize : 0 < positionSize N avail reqd
    · have hN := (positionSize_pos avail reqd).1 hsize
      simp only [if_pos hsize, bind_eq_ok, pure_eq_ok, hflat, true_and]
      constructor
      · rintro ⟨_, hlabels, hf⟩
        exact ⟨fun _ => (forM_positionLabel avail reqd).1 hlabels, hf⟩
      · rintro ⟨hlabels, hf⟩
        exact ⟨⟨⟩, (forM_positionLabel avail reqd).2 fun j hj => hlabels (hN j hj) j hj, hf⟩
    · have hN : ¬ 0 < N := fun h => hsize ((positionSize_pos avail reqd).2 fun _ _ => h)
      simp only [if_neg hsize, hflat, true_and, hN, false_implies]
      exact pure_eq_ok
  · simp [hflat]

/-- What `labelled` needs of the labels. -/
def Resources.Serves (R : Resources) (N : ℕ) {n : ℕ} (labels : Labels n) (reqd : Fin n → Variance) :
    Prop :=
  R.fieldFlatten.isSome ∧ ∃ r, labels.find reqd false = some r ∧
    (0 < N → ∀ j, reqd j ≠ r.1 j → R.positions (reqd j) = true)

/-- The value of a labelled tensor is the tensor with its indices where they are asked for. -/
theorem labelled_eq_ok {n : ℕ} {name : String} {labels : Labels n}
    {tensor f : (Fin n → Fin N) → K} {reqd : Fin n → Variance} :
    labelled S R name labels tensor reqd = .ok f ↔ R.Serves N labels reqd ∧
      f = fun indices => positionIndices S (fun _ => .covariant) reqd indices tensor := by
  unfold labelled Resources.Serves
  cases hfind : labels.find reqd false with
  | none => simp
  | some r =>
    by_cases hflat : R.fieldFlatten.isSome
    · simp only [hflat, if_true, labelIndices_eq_ok, true_and, positionIndices_held,
        Option.some.injEq, exists_eq_left']
    · simp [hflat]

theorem serves_of_canRoll {n : ℕ} {labels : Labels n} {reqd : Fin n → Variance}
    (h : R.canRoll labels reqd = true) : R.Serves N labels reqd := by
  unfold Resources.canRoll at h
  cases hfind : labels.find reqd false with
  | none => simp [hfind] at h
  | some r =>
    simp only [hfind, Bool.and_eq_true, Resources.rollMetricRequirements_iff] at h
    exact ⟨h.1.2, r, hfind, fun _ => h.1.1⟩

/-- With labels for all positions asked for any label serves. -/
theorem serves_of_positions {n : ℕ} {labels : Labels n} {reqd : Fin n → Variance}
    (hflat : R.fieldFlatten.isSome) (hpos : ∀ j, R.positions (reqd j) = true) :
    R.Serves N labels reqd ↔ labels ≠ [] := by
  rw [← Labels.find_isSome labels reqd, Option.isSome_iff_exists]
  exact ⟨fun ⟨_, r, hr, _⟩ => ⟨r, hr⟩, fun ⟨r, hr⟩ => ⟨hflat, r, hr, fun _ j _ => hpos j⟩⟩

/-! ### Components for values of the indices -/

theorem resolved_eq {n : ℕ} (name : String) (labels : Labels n) (tensor : (Fin n → Fin N) → K)
    (reqd : Fin n → Variance) (indices : Fin n → Fin N) :
    resolved S R name labels tensor reqd indices
      = positionIndices S (fun _ => .covariant) reqd indices tensor := by
  unfold resolved
  cases h : labelled S R name labels tensor reqd with
  | ok f => exact congrFun (labelled_eq_ok.1 h).2 indices
  | error e => rfl

variable (S R)

/-- What a tensor reads for values of its indices. The label of `dddV` is tried, but the expression
replaces what it gives. -/
def resolvedComponents : Components N K where
  derivs := derivs S
  dV i := resolved S R "dV" R.dV (fun v => covariantdV S (v 0)) ![i.variance] ![i.value]
  ddV i j := resolved S R "ddV" R.ddV (fun v => covariantddV S (v 0) (v 1))
    ![i.variance, j.variance] ![i.value, j.value]
  dddV := dddV S
  A2 i j := resolved S R "Riemann_A2" R.A2 (fun v => covariantA2 S (v 0) (v 1))
    ![i.variance, j.variance] ![i.value, j.value]
  A3 i j k := resolved S R "Riemann_A3" R.A3 (fun v => covariantA3 S (v 0) (v 1) (v 2))
    ![i.variance, j.variance, k.variance] ![i.value, j.value, k.value]
  B3 i j k := resolved S R "Riemann_B3" R.B3 (fun v => covariantB3 S (v 0) (v 1) (v 2))
    ![i.variance, j.variance, k.variance] ![i.value, j.value, k.value]
  metric := metric S

/-- The labels that are assigned make no difference. -/
theorem resolvedComponents_eq : resolvedComponents S R = components S := by
  simp only [resolvedComponents, resolved_eq]
  rfl

end CppTransport.Translator.NontrivialMetric
