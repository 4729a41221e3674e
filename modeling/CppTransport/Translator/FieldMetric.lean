import Mathlib.Algebra.Field.Defs
import Mathlib.Algebra.Field.Rat
import Mathlib.Data.String.Basic
import Mathlib.Tactic.Ring

/-!
# The field-space metric: parser actions and evaluation

A model file may define the metric on field space by an expression: literals
`[ a,b = …; … ]`, sums, differences, unary minus, brackets, and scaling by a
scalar expression from either side. The parser builds a `field_metric` object
from it, and later stages read the object one component at a time.

## The model

`MetricDef` is the grammar symbol `metric_def`, one constructor per production.
`FieldMetric` is the class hierarchy: `field_metric_base` holds the components
of one literal, `field_metric_binop` two operands. A binary node carries *two*
prefactors, as in the source: the one inherited from `field_metric`, which
`multiply` updates, and the one `field_metric_binop` declares for itself, which
its `operator()` reads. `build` runs the parser actions. Scalars are elements of
a field; dividing by an expression that is zero raises a pole error, `none`.

## What is proved

A literal evaluates as written (`FieldMetric.eval_literal`). The value of the
object built from an expression differs from the value of the expression by
exactly the scale factors applied to binary nodes (`build_eval`,
`lostScale`), so that evaluation is right at every declared pair iff these
losses cancel.
-/

namespace CppTransport.Translator

/-- A pair of field names labelling one component of the metric. -/
abbrev TensorIndex := String × String

/-- The metric is symmetric: both orders of a pair of labels share one entry. -/
def canonicalize (T : TensorIndex) : TensorIndex :=
  if T.1 ≤ T.2 then (T.1, T.2) else (T.2, T.1)

theorem canonicalize_swap (T : TensorIndex) : canonicalize T.swap = canonicalize T := by
  obtain ⟨a, b⟩ := T
  rcases lt_trichotomy a b with h | h | h
  · simp [canonicalize, h.le, h.not_ge]
  · simp [canonicalize, h]
  · simp [canonicalize, h.le, h.not_ge]

/-- Two pairs share an entry iff they are equal up to order. -/
theorem canonicalize_eq_iff (S T : TensorIndex) :
    canonicalize S = canonicalize T ↔ S = T ∨ S = T.swap := by
  constructor
  · intro h
    obtain ⟨a, b⟩ := S
    obtain ⟨c, d⟩ := T
    unfold canonicalize at h
    split at h <;> split at h <;> simp_all
  · rintro (rfl | rfl)
    · rfl
    · exact canonicalize_swap T

/-! ### The object -/

/-- The errors the metric code reports. -/
inductive MetricError where
  /-- A label that is not a declared field. -/
  | badIndexLabel (label : String)
  /-- A component given twice, named as in the second definition. -/
  | componentRedefinition (idx : TensorIndex)
deriving DecidableEq, Repr

/-- The text of an error. -/
def MetricError.message : MetricError → String
  | .badIndexLabel label => "Unknown field-space metric index label '" ++ label ++ "'"
  | .componentRedefinition idx => "Redefinition of metric component (" ++ idx.1 ++ "," ++ idx.2 ++ ")"

/-- `field_metric_binop::op`. -/
inductive Op where
  | add
  | sub
deriving DecidableEq, Repr

/-- A `field_metric` object over scalars `K`. -/
inductive FieldMetric (K : Type) where
  /-- `field_metric_base`: the components of a literal, keyed by canonical index. -/
  | base (prefactor : Option K) (indices : List String) (components : List (TensorIndex × K))
  /-- `field_metric_binop`: `prefactor` belongs to the base class, `ownPrefactor` is the
  member the class declares itself. -/
  | binop (prefactor ownPrefactor : Option K) (O : Op) (A B : FieldMetric K)

/-- `check_indices`: both labels must be declared fields; the first bad one is reported. -/
def checkIndices (indices : List String) (idx : TensorIndex) : Except MetricError Unit :=
  if idx.1 ∉ indices then .error (.badIndexLabel idx.1)
  else if idx.2 ∉ indices then .error (.badIndexLabel idx.2)
  else .ok ()

theorem checkIndices_ok {indices : List String} {idx : TensorIndex} (h₁ : idx.1 ∈ indices)
    (h₂ : idx.2 ∈ indices) : checkIndices indices idx = .ok () := by
  simp [checkIndices, h₁, h₂]

theorem checkIndices_ok_iff {indices : List String} {idx : TensorIndex} :
    checkIndices indices idx = .ok () ↔ idx.1 ∈ indices ∧ idx.2 ∈ indices := by
  unfold checkIndices
  split
  · simp_all
  · split <;> simp_all

namespace FieldMetric

variable {K : Type}

/-- `field_metric::multiply`: accumulate a factor in the prefactor of the base class. -/
def multiply [Mul K] (f : K) : FieldMetric K → FieldMetric K
  | base prefactor indices components => base (some (prefactor.elim f (· * f))) indices components
  | binop prefactor own O A B => binop (some (prefactor.elim f (· * f))) own O A B

/-- `field_metric_base::set_component`: the first definition of a component stays. -/
def setComponent (indices : List String) (components : List (TensorIndex × K)) (idx : TensorIndex)
    (expr : K) : Except MetricError (List (TensorIndex × K)) := do
  checkIndices indices idx
  match components.lookup (canonicalize idx) with
  | some _ => .error (.componentRedefinition idx)
  | none => .ok (components ++ [(canonicalize idx, expr)])

/-- Apply an optional prefactor. -/
def scaled [Mul K] (prefactor : Option K) (e : K) : K := prefactor.elim e (· * e)

/-- The two `operator()`s: one component of the metric. -/
def eval [Field K] : FieldMetric K → TensorIndex → Except MetricError K
  | base prefactor indices components, idx => do
    checkIndices indices idx
    match components.lookup (canonicalize idx) with
    | none => .ok 0
    | some v => .ok (scaled prefactor v)
  | binop _ own O A B, idx => do
    let a ← A.eval idx
    let b ← B.eval idx
    match O with
    | .add => .ok (scaled own (a + b))
    | .sub => .ok (scaled own (a - b))

end FieldMetric

/-! ### The grammar and its actions -/

/-- One line `i, j = expr;` of a metric literal. -/
structure MetricElement (K : Type) where
  /-- The two labels as written. -/
  idx : TensorIndex
  /-- The value given. -/
  expr : K

/-- `metric_def`, one constructor per production. -/
inductive MetricDef (K : Type) where
  /-- `[ … ]`. -/
  | literal (elements : List (MetricElement K))
  /-- `A + B`. -/
  | plus (A B : MetricDef K)
  /-- `A - B`. -/
  | minus (A B : MetricDef K)
  /-- `s * M`. -/
  | scaleLeft (s : K) (M : MetricDef K)
  /-- `M * s`. -/
  | scaleRight (M : MetricDef K) (s : K)
  /-- `M / s`. -/
  | divide (M : MetricDef K) (s : K)
  /-- `- M`. -/
  | neg (M : MetricDef K)
  /-- `( M )`. -/
  | bracket (M : MetricDef K)

variable {K : Type}

/-- The components of a literal under construction, with the errors reported so far. -/
structure LiteralState (K : Type) where
  /-- Components accepted. -/
  components : List (TensorIndex × K)
  /-- Errors reported, in order. -/
  errors : List MetricError

/-- `add_metric_component`: a rejected component is reported and dropped. -/
def addMetricComponent (indices : List String) (st : LiteralState K) (el : MetricElement K) :
    LiteralState K :=
  match FieldMetric.setComponent indices st.components el.idx el.expr with
  | .ok components => { st with components := components }
  | .error e => { st with errors := st.errors ++ [e] }

/-- `metric_element_list`: the elements of a literal, in order. -/
def readElements (indices : List String) (elements : List (MetricElement K)) : LiteralState K :=
  elements.foldl (addMetricComponent indices) ⟨[], []⟩

variable [Field K]

/-- The parser actions of `metric_def`; `none` is the pole error of a division by zero. -/
def build [DecidableEq K] (indices : List String) : MetricDef K → Option (FieldMetric K)
  | .literal elements => some (.base none indices (readElements indices elements).components)
  | .plus A B => do return .binop none none .add (← build indices A) (← build indices B)
  | .minus A B => do return .binop none none .sub (← build indices A) (← build indices B)
  | .scaleLeft s M => do return (← build indices M).multiply s
  | .scaleRight M s => do return (← build indices M).multiply s
  | .divide M s => do
    let m ← build indices M
    if s = 0 then none else return m.multiply (1 / s)
  | .neg M => do return (← build indices M).multiply (-1)
  | .bracket M => build indices M

/-! ### What the expression means -/

/-- The entry a literal gives for a pair of labels, in either order; `0` when none was given. -/
def literalValue (elements : List (MetricElement K)) (idx : TensorIndex) : K :=
  ((elements.find? fun el => el.idx = idx ∨ el.idx = idx.swap).map (·.expr)).getD 0

/-- The componentwise value of a metric expression. -/
def value : MetricDef K → TensorIndex → K
  | .literal elements, idx => literalValue elements idx
  | .plus A B, idx => value A idx + value B idx
  | .minus A B, idx => value A idx - value B idx
  | .scaleLeft s M, idx => s * value M idx
  | .scaleRight M s, idx => s * value M idx
  | .divide M s, idx => value M idx / s
  | .neg M, idx => - value M idx
  | .bracket M, idx => value M idx

/-- What the scale factors applied to sums and differences amount to at `idx`: each binary node
reached with the accumulated factor `f` contributes `f - 1` times its value, with the sign with
which the node enters the expression. -/
def lostScale : MetricDef K → K → TensorIndex → K
  | .literal _, _, _ => 0
  | .plus A B, f, idx =>
    (f - 1) * (value A idx + value B idx) + (lostScale A 1 idx + lostScale B 1 idx)
  | .minus A B, f, idx =>
    (f - 1) * (value A idx - value B idx) + (lostScale A 1 idx - lostScale B 1 idx)
  | .scaleLeft s M, f, idx => lostScale M (f * s) idx
  | .scaleRight M s, f, idx => lostScale M (f * s) idx
  | .divide M s, f, idx => lostScale M (f / s) idx
  | .neg M, f, idx => lostScale M (-f) idx
  | .bracket M, f, idx => lostScale M f idx

/-- No division by the zero expression occurs. -/
def DivisorsNonzero : MetricDef K → Prop
  | .literal _ => True
  | .plus A B | .minus A B => DivisorsNonzero A ∧ DivisorsNonzero B
  | .scaleLeft _ M | .scaleRight M _ | .neg M | .bracket M => DivisorsNonzero M
  | .divide M s => DivisorsNonzero M ∧ s ≠ 0

/-! ### Literals -/

section Literal

variable {K : Type} {indices : List String} {idx : TensorIndex}

/-- An accepted component is recorded under a key not yet in use. -/
theorem setComponent_ok_iff {components components' : List (TensorIndex × K)} {T : TensorIndex}
    {expr : K} :
    FieldMetric.setComponent indices components T expr = .ok components' ↔
      (T.1 ∈ indices ∧ T.2 ∈ indices) ∧ components.lookup (canonicalize T) = none ∧
        components' = components ++ [(canonicalize T, expr)] := by
  rw [← checkIndices_ok_iff]
  cases hck : checkIndices indices T with
  | error e => simp [FieldMetric.setComponent, hck, bind, Except.bind]
  | ok _ =>
    cases hl : components.lookup (canonicalize T) with
    | some v => simp [FieldMetric.setComponent, hck, hl, bind, Except.bind]
    | none => simp [FieldMetric.setComponent, hck, hl, bind, Except.bind, eq_comm]

/-- One more element: an entry already present stays, a new one is added where it belongs. -/
theorem lookup_addMetricComponent (h₁ : idx.1 ∈ indices) (h₂ : idx.2 ∈ indices)
    (st : LiteralState K) (el : MetricElement K) :
    (addMetricComponent indices st el).components.lookup (canonicalize idx) =
      (st.components.lookup (canonicalize idx)).or
        (if el.idx = idx ∨ el.idx = idx.swap then some el.expr else none) := by
  unfold addMetricComponent
  split
  · rename_i components hset
    obtain ⟨-, hnone, rfl⟩ := setComponent_ok_iff.mp hset
    simp only [List.lookup_append, List.lookup_cons, List.lookup_nil, ← canonicalize_eq_iff]
    by_cases hkey : canonicalize el.idx = canonicalize idx
    · simp [hkey]
    · have hbeq : (canonicalize idx == canonicalize el.idx) = false := by simpa using Ne.symm hkey
      simp [hkey, hbeq]
  · rename_i e hset
    by_cases hel : el.idx = idx ∨ el.idx = idx.swap
    · have hdecl : el.idx.1 ∈ indices ∧ el.idx.2 ∈ indices := by
        rcases hel with h | h <;> simp [h, h₁, h₂]
      have hkey : canonicalize el.idx = canonicalize idx := (canonicalize_eq_iff _ _).mpr hel
      cases hl : st.components.lookup (canonicalize idx) with
      | some v => simp
      | none =>
        rw [setComponent_ok_iff.mpr ⟨hdecl, hkey ▸ hl, rfl⟩] at hset
        cases hset
    · simp [hel]

/-- Reading a literal keeps the first entry given for each component. -/
theorem lookup_readElements (h₁ : idx.1 ∈ indices) (h₂ : idx.2 ∈ indices)
    (elements : List (MetricElement K)) :
    (readElements indices elements).components.lookup (canonicalize idx) =
      (elements.find? fun el => el.idx = idx ∨ el.idx = idx.swap).map (·.expr) := by
  have run : ∀ st : LiteralState K,
      (elements.foldl (addMetricComponent indices) st).components.lookup (canonicalize idx) =
        (st.components.lookup (canonicalize idx)).or
          ((elements.find? fun el => el.idx = idx ∨ el.idx = idx.swap).map (·.expr)) := by
    induction elements with
    | nil => simp
    | cons el elements ih =>
      intro st
      rw [List.foldl_cons, ih, lookup_addMetricComponent h₁ h₂, List.find?_cons]
      by_cases hel : el.idx = idx ∨ el.idx = idx.swap
      · simp [hel]
      · simp [hel]
  simpa [readElements] using run ⟨[], []⟩

/-- A literal is read without error iff its labels are declared and no component is given twice. -/
theorem readElements_errors_eq_nil_iff (elements : List (MetricElement K)) :
    (readElements indices elements).errors = [] ↔
      (∀ el ∈ elements, el.idx.1 ∈ indices ∧ el.idx.2 ∈ indices) ∧
        (elements.map fun el => canonicalize el.idx).Nodup := by
  have run : ∀ st : LiteralState K,
      (elements.foldl (addMetricComponent indices) st).errors = [] ↔
        st.errors = [] ∧ (∀ el ∈ elements, el.idx.1 ∈ indices ∧ el.idx.2 ∈ indices) ∧
          (elements.map fun el => canonicalize el.idx).Nodup ∧
          ∀ el ∈ elements, st.components.lookup (canonicalize el.idx) = none := by
    induction elements with
    | nil => simp
    | cons el elements ih =>
      intro st
      rw [List.foldl_cons, ih]
      cases hset : FieldMetric.setComponent indices st.components el.idx el.expr with
      | error e =>
        have hbad : ¬ ((el.idx.1 ∈ indices ∧ el.idx.2 ∈ indices) ∧
            st.components.lookup (canonicalize el.idx) = none) := by
          rintro ⟨hdecl, hl⟩
          rw [setComponent_ok_iff.mpr ⟨hdecl, hl, rfl⟩] at hset
          cases hset
        simp only [addMetricComponent, hset, List.append_eq_nil_iff, List.cons_ne_nil, and_false,
          false_and, false_iff, List.forall_mem_cons]
        tauto
      | ok components =>
        obtain ⟨hdecl, hl, rfl⟩ := setComponent_ok_iff.mp hset
        simp only [addMetricComponent, hset, List.forall_mem_cons, hdecl, hl, List.map_cons,
          List.nodup_cons, List.mem_map, List.lookup_append, Option.or_eq_none_iff, true_and,
          List.lookup_cons, List.lookup_nil, not_exists, not_and]
        constructor
        · rintro ⟨he, hd, hn, hk⟩
          refine ⟨he, hd, ⟨fun x hx hxe => ?_, hn⟩, fun x hx => (hk x hx).1⟩
          simpa [hxe] using (hk x hx).2
        · rintro ⟨he, hd, ⟨hne, hn⟩, hk⟩
          refine ⟨he, hd, hn, fun x hx => ⟨hk x hx, ?_⟩⟩
          have hbeq : (canonicalize x.idx == canonicalize el.idx) = false := by simpa using hne x hx
          rw [hbeq]
  simpa [readElements] using run ⟨[], []⟩

/-- A literal, scaled or not, evaluates to its entry times the prefactor. -/
theorem FieldMetric.eval_literal [Field K] (h₁ : idx.1 ∈ indices) (h₂ : idx.2 ∈ indices)
    (prefactor : Option K) (elements : List (MetricElement K)) :
    (FieldMetric.base prefactor indices (readElements indices elements).components).eval idx =
      .ok (scaled prefactor (literalValue elements idx)) := by
  simp only [FieldMetric.eval, checkIndices_ok h₁ h₂, lookup_readElements h₁ h₂, literalValue, bind,
    Except.bind]
  cases (elements.find? fun el => el.idx = idx ∨ el.idx = idx.swap).map (·.expr) with
  | none => cases prefactor <;> simp [scaled]
  | some v => simp

end Literal

/-! ### Evaluation of the object built -/

/-- Two factors applied in turn act as their product. -/
theorem FieldMetric.multiply_multiply (m : FieldMetric K) (s f : K) :
    (m.multiply s).multiply f = m.multiply (f * s) := by
  cases m with
  | base prefactor _ _ => cases prefactor <;> simp [multiply, mul_comm, mul_left_comm]
  | binop prefactor _ _ _ _ => cases prefactor <;> simp [multiply, mul_comm, mul_left_comm]

variable [DecidableEq K]

/-- The parser actions complete iff no division by zero occurs. -/
theorem build_isSome_iff (indices : List String) (e : MetricDef K) :
    (build indices e).isSome ↔ DivisorsNonzero e := by
  induction e with
  | literal elements => simp [build, DivisorsNonzero]
  | plus A B ihA ihB | minus A B ihA ihB =>
    cases hA : build indices A <;> cases hB : build indices B <;>
      simp_all [build, DivisorsNonzero]
  | scaleLeft s M ih | scaleRight M s ih | neg M ih =>
    cases hM : build indices M <;> simp_all [build, DivisorsNonzero]
  | divide M s ih =>
    by_cases hs : s = 0 <;> cases hM : build indices M <;> simp_all [build, DivisorsNonzero]
  | bracket M ih => simpa [build, DivisorsNonzero] using ih

/-- **What the object evaluates to**: the value of the expression less the scale factors lost,
both as built and after one more `multiply`. -/
theorem build_eval {indices : List String} {idx : TensorIndex} (h₁ : idx.1 ∈ indices)
    (h₂ : idx.2 ∈ indices) {e : MetricDef K} {m : FieldMetric K} (hm : build indices e = some m) :
    m.eval idx = .ok (value e idx - lostScale e 1 idx) ∧
      ∀ f, (m.multiply f).eval idx = .ok (f * value e idx - lostScale e f idx) := by
  induction e generalizing m with
  | literal elements =>
    obtain rfl := Option.some.inj hm
    constructor
    · rw [FieldMetric.eval_literal h₁ h₂]
      simp [FieldMetric.scaled, value, lostScale]
    · intro f
      rw [FieldMetric.multiply, FieldMetric.eval_literal h₁ h₂]
      simp [FieldMetric.scaled, value, lostScale]
  | plus A B ihA ihB =>
    obtain ⟨a, ha, b, hb, rfl⟩ : ∃ a, build indices A = some a ∧ ∃ b, build indices B = some b ∧
        FieldMetric.binop none none .add a b = m := by simpa [build, Option.bind_eq_some_iff] using hm
    simp only [FieldMetric.multiply, FieldMetric.eval, (ihA ha).1, (ihB hb).1, bind, Except.bind,
      FieldMetric.scaled, Option.elim, value, lostScale, Except.ok.injEq]
    exact ⟨by ring, fun f => by ring⟩
  | minus A B ihA ihB =>
    obtain ⟨a, ha, b, hb, rfl⟩ : ∃ a, build indices A = some a ∧ ∃ b, build indices B = some b ∧
        FieldMetric.binop none none .sub a b = m := by simpa [build, Option.bind_eq_some_iff] using hm
    simp only [FieldMetric.multiply, FieldMetric.eval, (ihA ha).1, (ihB hb).1, bind, Except.bind,
      FieldMetric.scaled, Option.elim, value, lostScale, Except.ok.injEq]
    exact ⟨by ring, fun f => by ring⟩
  | scaleLeft s M ih | scaleRight M s ih =>
    obtain ⟨a, ha, rfl⟩ : ∃ a, build indices M = some a ∧ a.multiply s = m := by
      simpa [build, Option.bind_eq_some_iff] using hm
    refine ⟨?_, fun f => ?_⟩
    · rw [(ih ha).2 s, value, lostScale, one_mul]
    · rw [FieldMetric.multiply_multiply, (ih ha).2, value, lostScale, mul_assoc]
  | divide M s ih =>
    obtain ⟨a, ha, -, rfl⟩ : ∃ a, build indices M = some a ∧ s ≠ 0 ∧ a.multiply (1 / s) = m := by
      by_cases hs : s = 0
      · simp [build, hs] at hm
      · simpa [build, Option.bind_eq_some_iff, hs] using hm
    refine ⟨?_, fun f => ?_⟩
    · rw [(ih ha).2, value, lostScale, div_mul_eq_mul_div, one_mul]
    · rw [FieldMetric.multiply_multiply, (ih ha).2, value, lostScale, mul_one_div, div_mul_eq_mul_div,
        mul_div_assoc]
  | neg M ih =>
    obtain ⟨a, ha, rfl⟩ : ∃ a, build indices M = some a ∧ a.multiply (-1) = m := by
      simpa [build, Option.bind_eq_some_iff] using hm
    refine ⟨?_, fun f => ?_⟩
    · rw [(ih ha).2, value, lostScale, neg_one_mul]
    · rw [FieldMetric.multiply_multiply, (ih ha).2, value, lostScale, mul_neg_one, neg_mul, mul_neg]
  | bracket M ih => exact ih hm

/-- **When evaluation is right**: the object is built whenever no division by zero occurs, and
gives the value of the expression at every declared pair iff the scale factors applied to sums and
differences cancel there. -/
theorem build_eval_iff_lostScale {indices : List String} {e : MetricDef K} (he : DivisorsNonzero e) :
    ∃ m, build indices e = some m ∧
      ((∀ i ∈ indices, ∀ j ∈ indices, m.eval (i, j) = .ok (value e (i, j))) ↔
        ∀ i ∈ indices, ∀ j ∈ indices, lostScale e 1 (i, j) = 0) := by
  obtain ⟨m, hm⟩ := Option.isSome_iff_exists.mp ((build_isSome_iff indices e).mpr he)
  refine ⟨m, hm, forall₂_congr fun i hi => forall₂_congr fun j hj => ?_⟩
  have heval := (build_eval (show (i, j).1 ∈ indices from hi) hj hm).1
  rw [heval, Except.ok.injEq, sub_eq_self]

/-- Every sum and difference is reached with accumulated factor `1`. -/
def SumsUnscaled : MetricDef K → K → Prop
  | .literal _, _ => True
  | .plus A B, f | .minus A B, f => f = 1 ∧ SumsUnscaled A 1 ∧ SumsUnscaled B 1
  | .scaleLeft s M, f | .scaleRight M s, f => SumsUnscaled M (f * s)
  | .divide M s, f => SumsUnscaled M (f / s)
  | .neg M, f => SumsUnscaled M (-f)
  | .bracket M, f => SumsUnscaled M f

omit [DecidableEq K] in
/-- Scale factors applied to literals only are never lost. -/
theorem lostScale_eq_zero {e : MetricDef K} {f : K} (h : SumsUnscaled e f) (idx : TensorIndex) :
    lostScale e f idx = 0 := by
  induction e generalizing f with
  | literal _ => rfl
  | plus A B ihA ihB | minus A B ihA ihB =>
    obtain ⟨rfl, hA, hB⟩ := h
    simp [lostScale, ihA hA, ihB hB]
  | scaleLeft s M ih | scaleRight M s ih | divide M s ih | neg M ih | bracket M ih => exact ih h

/-- `2 * (A + A)` for the metric `A` with the single component `1`. -/
def doubledSum : MetricDef ℚ :=
  .scaleLeft 2 (.bracket (.plus (.literal [⟨("phi", "phi"), 1⟩]) (.literal [⟨("phi", "phi"), 1⟩])))

theorem value_doubledSum : value doubledSum ("phi", "phi") = 4 := by
  norm_num [doubledSum, value, literalValue]

theorem lostScale_doubledSum : lostScale doubledSum 1 ("phi", "phi") = 2 := by
  norm_num [doubledSum, value, literalValue, lostScale]

/-- The factor `2` is lost: the component is `4`, and the object gives `2`. -/
theorem doubledSum_loses_scale :
    ∃ m, build ["phi"] doubledSum = some m ∧ m.eval ("phi", "phi") = .ok 2 ∧
      value doubledSum ("phi", "phi") = 4 := by
  refine ⟨_, rfl, ?_, value_doubledSum⟩
  have hphi : ("phi", "phi").1 ∈ ["phi"] ∧ ("phi", "phi").2 ∈ ["phi"] := by simp
  have heval := (build_eval hphi.1 hphi.2 (show build ["phi"] doubledSum = some _ from rfl)).1
  rw [heval, value_doubledSum, lostScale_doubledSum]
  norm_num

/-- The loss of `doubledSum` does not cancel. -/
theorem build_eval_iff_lostScale_doubledSum :
    DivisorsNonzero doubledSum ∧ lostScale doubledSum 1 ("phi", "phi") = 2 ∧
      ∃ m, build ["phi"] doubledSum = some m ∧
        ((∀ i ∈ ["phi"], ∀ j ∈ ["phi"], m.eval (i, j) = .ok (value doubledSum (i, j))) ↔
          ∀ i ∈ ["phi"], ∀ j ∈ ["phi"], lostScale doubledSum 1 (i, j) = 0) :=
  ⟨⟨trivial, trivial⟩, lostScale_doubledSum, build_eval_iff_lostScale ⟨trivial, trivial⟩⟩

end CppTransport.Translator
