import CppTransport.Library.Exceptions
import CppTransport.Library.IndexLoops
import CppTransport.Library.RelatedLists
import CppTransport.Translator.ResourceLabels
import Mathlib.Algebra.BigOperators.Fin
import Mathlib.Data.Fin.Tuple.Basic
import Mathlib.LinearAlgebra.Matrix.NonsingularInverse

/-!
# Positions of indices

`position_indices` brings the indices of a tensor to other positions. There are two versions: one for a tensor whose
components are at hand, and one for an array of the program that is generated, of which only the label is known. Both
go through the terms of the contraction by counting, and take the values of the indices that move from the digits of
the count.

## The model

A `FlattenedTensor` is a vector with an element for each component; sizes and places are `unsigned`, so that it has fewer
than `2 ^ 32`. The components are those of any commutative ring. An expression over labels is kept as a sum of products
of symbols, and a symbol as what its text is made of. Subscripts of the generated program are `unsigned` as well.

## What is proved

`contracts`: the first version is the contraction with the metric or its inverse (`contraction`), the second denotes the
same value whatever the offsets, and to bring the indices elsewhere and back changes nothing.
-/

set_option linter.unusedSectionVars false

namespace CppTransport.Translator.IndexPositions

open Library
open scoped Library.Numerals

variable {N n : ℕ} {K : Type*}

/-! ### Flattened tensors -/

/-- `index_flatten::get_flattened_size`. -/
def getFlattenedSize (N : ℕ) : ℕ → ℕ
  | 0 => 1
  | d + 1 => getFlattenedSize N d * N % 2 ^ 32

/-- `index_flatten::flatten`. -/
def flatten : {n : ℕ} → (Fin n → Fin N) → ℕ
  | 0, _ => 0
  | n + 1, indices => (N ^ n * indices 0 + flatten (Fin.tail indices)) % 2 ^ 32

/-- `flattened_tensor`: a vector with room for all components. -/
structure FlattenedTensor (N n : ℕ) (K : Type*) where
  values : List K
  size : values.length = getFlattenedSize N n
  complete : N ^ n ≤ values.length

theorem getFlattenedSize_le (N d : ℕ) : getFlattenedSize N d ≤ N ^ d := by
  induction d with
  | zero => simp [getFlattenedSize]
  | succ d ih =>
    calc
      getFlattenedSize N (d + 1) ≤ getFlattenedSize N d * N := Nat.mod_le _ _
      _ ≤ N ^ d * N := Nat.mul_le_mul_right _ ih
      _ = N ^ (d + 1) := (Nat.pow_succ ..).symm

theorem getFlattenedSize_lt (N d : ℕ) : getFlattenedSize N d < 2 ^ 32 := by
  cases d with
  | zero => simp [getFlattenedSize]
  | succ d => exact Nat.mod_lt _ (by positivity)

theorem flatten_lt (indices : Fin n → Fin N) : flatten indices < N ^ n := by
  induction n with
  | zero => simp [flatten]
  | succ n ih =>
    have later := ih (Fin.tail indices)
    calc
      flatten indices ≤ N ^ n * indices 0 + flatten (Fin.tail indices) := Nat.mod_le _ _
      _ < N ^ n * (indices 0 + 1) := by rw [Nat.mul_succ]; omega
      _ ≤ N ^ n * N := Nat.mul_le_mul_left _ (indices 0).isLt

/-- `flatten` without wrapping around. -/
theorem flatten_succ (indices : Fin (n + 1) → Fin N) (h : N ^ (n + 1) < 2 ^ 32) :
    flatten indices = N ^ n * indices 0 + flatten (Fin.tail indices) := by
  have later := flatten_lt (Fin.tail indices)
  refine Nat.mod_eq_of_lt (lt_of_lt_of_le ?_ h.le)
  calc
    N ^ n * indices 0 + flatten (Fin.tail indices) < N ^ n * (indices 0 + 1) := by rw [Nat.mul_succ]; omega
    _ ≤ N ^ n * N := Nat.mul_le_mul_left _ (indices 0).isLt

namespace FlattenedTensor

theorem length_eq (tensor : FlattenedTensor N n K) : tensor.values.length = N ^ n :=
  le_antisymm (tensor.size.trans_le (getFlattenedSize_le N n)) tensor.complete

theorem volume_lt (tensor : FlattenedTensor N n K) : N ^ n < 2 ^ 32 :=
  tensor.length_eq ▸ tensor.size ▸ getFlattenedSize_lt N n

/-- The component for these values of the indices: `tensor[fl.flatten(..)]`. -/
def component (tensor : FlattenedTensor N n K) (indices : Fin n → Fin N) : K :=
  tensor.values.get ⟨flatten indices, (flatten_lt indices).trans_le tensor.complete⟩

end FlattenedTensor

/-- The values of the indices, in the order of nested loops over them. -/
def indexValues (N : ℕ) : (n : ℕ) → List (Fin n → Fin N)
  | 0 => [Fin.elim0]
  | n + 1 => (List.finRange N).flatMap fun i => (indexValues N n).map (Fin.cons i)

theorem length_indexValues (N n : ℕ) : (indexValues N n).length = N ^ n := by
  induction n with
  | zero => rfl
  | succ n ih => simp [indexValues, ih, pow_succ, mul_comm]

/-- In loops over the indices, `flatten` numbers the components from zero on. -/
theorem indexValues_flatten (indices : Fin n → Fin N) (h : N ^ n < 2 ^ 32) :
    (indexValues N n)[flatten indices]? = some indices := by
  induction n with
  | zero => simp [indexValues, flatten, eq_iff_true_of_subsingleton]
  | succ n ih =>
    have fewer : N ^ n < 2 ^ 32 := (Nat.pow_le_pow_right (indices 0).pos n.le_succ).trans_lt h
    have here : (List.finRange N)[(indices 0 : ℕ)]? = some (indices 0) := by simp
    rw [flatten_succ indices h, indexValues, getElem?_flatMap_of_length _ (fun i _ => ?_) here (flatten_lt _)]
    · rw [List.getElem?_map, ih _ fewer, Option.map_some, Fin.cons_self_tail]
    · rw [List.length_map, length_indexValues]

/-- `tensor_resource_expr` and its siblings: a tensor with these components, by loops over all values of the indices. -/
def FlattenedTensor.tabulate (shape : FlattenedTensor N n K) (f : (Fin n → Fin N) → K) : FlattenedTensor N n K where
  values := (indexValues N n).map f
  size := by rw [List.length_map, length_indexValues, ← shape.length_eq, shape.size]
  complete := by rw [List.length_map, length_indexValues]

theorem FlattenedTensor.component_tabulate (shape : FlattenedTensor N n K) (f : (Fin n → Fin N) → K)
    (indices : Fin n → Fin N) : (shape.tabulate f).component indices = f indices := by
  have at_place := indexValues_flatten indices shape.volume_lt
  rw [component, List.get_eq_getElem, ← Option.some_inj, ← List.getElem?_eq_getElem]
  simp [tabulate, at_place]

/-! ### The version for components -/

section Components

variable [CommRing K] (G Ginv : FlattenedTensor N 2 K)

/-- The first loop over the indices: how many terms the sum has. -/
def positionSize (N : ℕ) (avail reqd : Fin n → Variance) : ℕ :=
  (List.finRange n).foldl (fun size i => if reqd i ≠ avail i then size * N % 2 ^ 32 else size) 1

/-- The factor that brings an index to the position `r`. -/
def positionFactor (r : Variance) (i v : Fin N) : K :=
  match r with
  | .contravariant => Ginv.component ![i, v]
  | .covariant => G.component ![i, v]

/-- The second loop over the indices: the factors of a term, and the `index_values` of its component. -/
def positionTerm : {n : ℕ} → (avail reqd : Fin n → Variance) → (indices : Fin n → Fin N) → (index_pos : ℕ) →
    K × (Fin n → Fin N)
  | 0, _, _, indices, _ => (1, indices)
  | _ + 1, avail, reqd, indices, index_pos =>
    if reqd 0 ≠ avail 0 then
      let v : Fin N := ⟨index_pos % N, NontrivialMetric.mod_lt_of_indices indices index_pos⟩
      let term := positionTerm (Fin.tail avail) (Fin.tail reqd) (Fin.tail indices) (index_pos / N)
      (positionFactor G Ginv (reqd 0) (indices 0) v * term.1, Fin.cons v term.2)
    else
      let term := positionTerm (Fin.tail avail) (Fin.tail reqd) (Fin.tail indices) index_pos
      (term.1, Fin.cons (indices 0) term.2)

/-- `position_indices` for a tensor whose components are at hand. -/
def positionIndices (avail reqd : Fin n → Variance) (indices : Fin n → Fin N) (tensor : FlattenedTensor N n K) : K :=
  ∑ i ∈ Finset.range (positionSize N avail reqd),
    (positionTerm G Ginv avail reqd indices i).1 * tensor.component (positionTerm G Ginv avail reqd indices i).2

/-- The contraction: a sum over all values of the indices that move, with a factor for each of them. -/
def contraction (avail reqd : Fin n → Variance) (indices : Fin n → Fin N) (T : (Fin n → Fin N) → K) : K :=
  ∑ v with ∀ j, reqd j = avail j → v j = indices j,
    (∏ j with reqd j ≠ avail j, positionFactor G Ginv (reqd j) (indices j) (v j)) * T v

/-- What becomes of an index in one term: it stays as it is, or has a factor. -/
def move (a r : Variance) (i v : Fin N) : K :=
  if r = a then if v = i then 1 else 0 else positionFactor G Ginv r i v

/-- The indices that stay can be summed over as well. -/
theorem contraction_eq (avail reqd : Fin n → Variance) (indices : Fin n → Fin N) (T : (Fin n → Fin N) → K) :
    contraction G Ginv avail reqd indices T = ∑ v, (∏ j, move G Ginv (avail j) (reqd j) (indices j) (v j)) * T v := by
  rw [contraction, Finset.sum_filter]
  refine Finset.sum_congr rfl fun v _ => ?_
  split_ifs with stays
  · congr 1
    rw [Finset.prod_filter]
    refine Finset.prod_congr rfl fun j _ => ?_
    by_cases same : reqd j = avail j
    · rw [if_neg (not_not.mpr same), move, if_pos same, if_pos (stays j same)]
    · rw [if_pos same, move, if_neg same]
  · push Not at stays
    obtain ⟨j, same, other⟩ := stays
    have zero : move G Ginv (avail j) (reqd j) (indices j) (v j) = 0 := by rw [move, if_pos same, if_neg other]
    rw [Finset.prod_eq_zero (Finset.mem_univ j) zero, zero_mul]

/-- One index at a time. -/
theorem contraction_succ (avail reqd : Fin (n + 1) → Variance) (indices : Fin (n + 1) → Fin N)
    (T : (Fin (n + 1) → Fin N) → K) :
    contraction G Ginv avail reqd indices T = ∑ v, move G Ginv (avail 0) (reqd 0) (indices 0) v *
      contraction G Ginv (Fin.tail avail) (Fin.tail reqd) (Fin.tail indices) fun w => T (Fin.cons v w) := by
  rw [contraction_eq, ← (Fin.consEquiv fun _ => Fin N).sum_comp, Fintype.sum_prod_type]
  refine Finset.sum_congr rfl fun v _ => ?_
  rw [contraction_eq, Finset.mul_sum]
  refine Finset.sum_congr rfl fun w _ => ?_
  rw [Fin.prod_univ_succ, ← mul_assoc]
  rfl

/-- The first loop counts modulo `2 ^ 32`. -/
theorem foldl_size (avail reqd : Fin n → Variance) (l : List (Fin n)) {size : ℕ} (h : size < 2 ^ 32) :
    l.foldl (fun size i => if reqd i ≠ avail i then size * N % 2 ^ 32 else size) size =
      size * (l.map fun i => if reqd i ≠ avail i then N else 1).prod % 2 ^ 32 := by
  induction l generalizing size with
  | nil => simpa using (Nat.mod_eq_of_lt h).symm
  | cons i l ih =>
    rw [List.foldl_cons, List.map_cons, List.prod_cons]
    by_cases moves : reqd i ≠ avail i
    · rw [if_pos moves, if_pos moves, ih (Nat.mod_lt _ (by positivity)), ← Nat.mul_assoc, Nat.mod_mul_mod]
    · rw [if_neg moves, if_neg moves, ih h, Nat.one_mul]

/-- The terms of a tensor that there is can be counted. -/
theorem positionSize_eq (avail reqd : Fin n → Variance) (h : N ^ n < 2 ^ 32) (positive : 0 < n → 0 < N) :
    positionSize N avail reqd = ∏ j, if reqd j ≠ avail j then N else 1 := by
  have few : ∏ j, (if reqd j ≠ avail j then N else 1) ≤ N ^ n := by
    calc
      ∏ j, (if reqd j ≠ avail j then N else 1) ≤ ∏ _j : Fin n, N := by
        refine Finset.prod_le_prod' fun j _ => ?_
        split_ifs
        · exact le_rfl
        · exact positive j.pos
      _ = N ^ n := by simp
  rw [positionSize, foldl_size avail reqd _ (by norm_num), Nat.one_mul, ← List.ofFn_eq_map, List.prod_ofFn]
  exact Nat.mod_eq_of_lt (few.trans_lt h)

/-- **The terms** that are counted are those of the contraction. -/
theorem sum_positionTerm (avail reqd : Fin n → Variance) (indices : Fin n → Fin N) (T : (Fin n → Fin N) → K) :
    ∑ i ∈ Finset.range (∏ j, if reqd j ≠ avail j then N else 1),
      (positionTerm G Ginv avail reqd indices i).1 * T (positionTerm G Ginv avail reqd indices i).2 =
    contraction G Ginv avail reqd indices T := by
  induction n with
  | zero => simp [contraction, positionTerm, Subsingleton.elim indices default]
  | succ n ih =>
    have later (v : Fin N) := ih (Fin.tail avail) (Fin.tail reqd) (Fin.tail indices) fun w => T (Fin.cons v w)
    rw [Fin.prod_univ_succ, contraction_succ]
    by_cases moves : reqd 0 ≠ avail 0
    · have digits := sum_range_digits N (∏ j : Fin n, if reqd j.succ ≠ avail j.succ then N else 1) fun d q =>
        positionFactor G Ginv (reqd 0) (indices 0) ⟨d % N, NontrivialMetric.mod_lt_of_indices indices d⟩ *
          ((positionTerm G Ginv (Fin.tail avail) (Fin.tail reqd) (Fin.tail indices) q).1 *
            T (Fin.cons ⟨d % N, NontrivialMetric.mod_lt_of_indices indices d⟩
              (positionTerm G Ginv (Fin.tail avail) (Fin.tail reqd) (Fin.tail indices) q).2))
      simp only [Nat.mod_mod, Nat.mod_eq_of_lt (Fin.isLt _), Fin.eta] at digits
      simp only [if_pos moves, positionTerm, mul_assoc, digits, move, if_neg moves, ← later, Finset.mul_sum]
      rfl
    · have same : reqd 0 = avail 0 := not_not.mp moves
      simp only [if_neg moves, one_mul, positionTerm, move, if_pos same, ite_mul, zero_mul, Finset.sum_ite_eq',
        Finset.mem_univ, if_true, ← later]
      rfl

/-- **The version for components** contracts. -/
theorem positionIndices_eq (avail reqd : Fin n → Variance) (indices : Fin n → Fin N) (tensor : FlattenedTensor N n K) :
    positionIndices G Ginv avail reqd indices tensor = contraction G Ginv avail reqd indices tensor.component := by
  rw [positionIndices, positionSize_eq avail reqd tensor.volume_lt fun some => (indices ⟨0, some⟩).pos]
  exact sum_positionTerm G Ginv avail reqd indices tensor.component

/-- The metric as a matrix. -/
def FlattenedTensor.matrix (G : FlattenedTensor N 2 K) : Matrix (Fin N) (Fin N) K := fun i j => G.component ![i, j]

/-- To move an index there and back leaves it as it was. -/
theorem sum_move (inverse : G.matrix * Ginv.matrix = 1) (a r : Variance) (i w : Fin N) :
    ∑ v, move G Ginv a r i v * move G Ginv r a v w = if w = i then 1 else 0 := by
  have inverse' : Ginv.matrix * G.matrix = 1 := mul_eq_one_comm.mp inverse
  have back (A B : Matrix (Fin N) (Fin N) K) (h : A * B = 1) : ∑ v, A i v * B v w = if w = i then 1 else 0 := by
    rw [← Matrix.mul_apply, h, Matrix.one_apply]
    simp only [eq_comm]
  by_cases same : r = a
  · subst same
    simp [move]
  · simp only [move, if_neg same, if_neg (Ne.symm same)]
    cases r <;> cases a
    · exact absurd rfl same
    · exact back G.matrix Ginv.matrix inverse
    · exact back Ginv.matrix G.matrix inverse'
    · exact absurd rfl same

/-- **There and back**: the contraction is undone. -/
theorem contraction_contraction (inverse : G.matrix * Ginv.matrix = 1) (avail reqd : Fin n → Variance)
    (indices : Fin n → Fin N) (T : (Fin n → Fin N) → K) :
    contraction G Ginv reqd avail indices (fun v => contraction G Ginv avail reqd v T) = T indices := by
  have undone (w : Fin n → Fin N) :
      ∑ v : Fin n → Fin N,
        (∏ j, move G Ginv (reqd j) (avail j) (indices j) (v j)) * ∏ j, move G Ginv (avail j) (reqd j) (v j) (w j) =
        if w = indices then 1 else 0 := by
    calc
      _ = ∑ v : Fin n → Fin N,
          ∏ j, move G Ginv (reqd j) (avail j) (indices j) (v j) * move G Ginv (avail j) (reqd j) (v j) (w j) := by
        simp only [Finset.prod_mul_distrib]
      _ = ∏ j, ∑ v, move G Ginv (reqd j) (avail j) (indices j) v * move G Ginv (avail j) (reqd j) v (w j) := by
        rw [Finset.prod_univ_sum, Fintype.piFinset_univ]
      _ = ∏ j, if w j = indices j then 1 else 0 := by simp only [sum_move G Ginv inverse]
      _ = if w = indices then 1 else 0 := by
        rw [Finset.prod_ite_zero]
        simp [funext_iff]
  simp only [contraction_eq, Finset.mul_sum, ← mul_assoc]
  rw [Finset.sum_comm]
  simp only [← Finset.sum_mul, undone, ite_mul, one_mul, zero_mul, Finset.sum_ite_eq', Finset.mem_univ, if_true]

end Components

/-! ### The version for labels -/

section Labels

open NontrivialMetric (Resources ResourceFailure)

/-- A subscript in the text of the generated program. -/
inductive Subscript where
  /-- `to_index_string` of an index: its loop variable, or the number it stands for. -/
  | index (text : String)
  /-- `to_index_string` of a number. -/
  | number (v : BitVec 32)
  /-- The text of an index to which a number is appended, with its sign. -/
  | displaced (text : String) (m : ℤ)
deriving DecidableEq

/-- An index whose value the template leaves open, or which stands for a number. -/
structure IndexLabel where
  text : String
  variance : Variance

/-- A symbol, by what `array_subscript` makes its text of. -/
structure Symbol where
  kernel : String
  arguments : List Subscript
  flatten : String
deriving DecidableEq

/-- A sum of products of symbols. -/
abbrev Expression := List (List Symbol)

/-- The label of the metric that brings an index to the position `r`. -/
def metricLabel (R : Resources) (r : Variance) : Except ResourceFailure String :=
  match r with
  | .contravariant =>
    match R.metricInverse with
    | some Ginv => .ok Ginv
    | none => .error ⟨"metric inverse"⟩
  | .covariant =>
    match R.metric with
    | some G => .ok G
    | none => .error ⟨"metric"⟩

/-- The subscript of an index that stays. -/
def displace (N : ℕ) (text : String) (offset : ℤ) : Subscript :=
  if offset > 0 then .displaced text (N * offset)
  else if offset < 0 then .displaced text (N * offset)
  else .index text

/-- The loop over the indices: the symbols of the metric in a term, and the `index_values` of its component. -/
def labelTerm (R : Resources) (fieldFlatten : String) (N : ℕ) : {n : ℕ} → (avail : Fin n → Variance) →
    (reqd : Fin n → IndexLabel) → (offsets : Fin n → ℤ) → (index_pos : ℕ) →
    Except ResourceFailure (List Symbol × List Subscript)
  | 0, _, _, _, _ => .ok ([], [])
  | _ + 1, avail, reqd, offsets, index_pos =>
    if (reqd 0).variance ≠ avail 0 then do
      let v := BitVec.ofNat 32 (index_pos % N)
      let kernel ← metricLabel R (reqd 0).variance
      let term ← labelTerm R fieldFlatten N (Fin.tail avail) (Fin.tail reqd) (Fin.tail offsets) (index_pos / N)
      return (⟨kernel, [.index (reqd 0).text, .number v], fieldFlatten⟩ :: term.1,
        .number (v + BitVec.ofInt 32 (N * offsets 0)) :: term.2)
    else do
      let term ← labelTerm R fieldFlatten N (Fin.tail avail) (Fin.tail reqd) (Fin.tail offsets) index_pos
      return (term.1, displace N (reqd 0).text (offsets 0) :: term.2)

/-- `position_indices` for an array that has a label. -/
def labelIndices (R : Resources) (N : ℕ) (avail : Fin n → Variance) (reqd : Fin n → IndexLabel) (label flatten : String)
    (offsets : Fin n → ℤ) : Except ResourceFailure Expression :=
  match R.fieldFlatten with
  | none => .error ⟨"fields flatten"⟩
  | some fieldFlatten =>
    (List.range (positionSize N avail fun j => (reqd j).variance)).mapM fun i => do
      let term ← labelTerm R fieldFlatten N avail reqd offsets i
      return term.1 ++ [⟨label, term.2, flatten⟩]

/-! ### What the text denotes -/

/-- What the generated program has when it comes to an expression: the values of its indices, and the elements of its
arrays, by the function that flattens their subscripts. -/
structure Environment (K : Type*) where
  index : String → BitVec 32
  array : String → String → List (BitVec 32) → K

variable [CommRing K] (env : Environment K)

def Subscript.value : Subscript → BitVec 32
  | .index text => env.index text
  | .number v => v
  | .displaced text m => env.index text + BitVec.ofInt 32 m

def Symbol.value (s : Symbol) : K := env.array s.kernel s.flatten (s.arguments.map (Subscript.value env))

def Expression.value (e : Expression) : K := (e.map fun term => (term.map (Symbol.value env)).prod).sum

/-- The subscripts at which an array has a component, if it is displaced by some multiples of the number of fields. -/
def place (offsets : Fin n → ℤ) (indices : Fin n → Fin N) : List (BitVec 32) :=
  List.ofFn fun j => BitVec.ofNat 32 (indices j) + BitVec.ofInt 32 (N * offsets j)

/-- An array holds the components of a tensor. -/
def Environment.Holds (kernel flatten : String) (offsets : Fin n → ℤ) (tensor : FlattenedTensor N n K) : Prop :=
  ∀ indices, env.array kernel flatten (place offsets indices) = tensor.component indices

/-- The labels denote what they are for: the metric, its inverse, the tensor with its offsets, and the values of the
indices. -/
structure Environment.Describes (R : Resources) (reqd : Fin n → IndexLabel) (label flatten : String)
    (offsets : Fin n → ℤ) (G Ginv : FlattenedTensor N 2 K) (tensor : FlattenedTensor N n K)
    (indices : Fin n → Fin N) : Prop where
  metric : ∀ kernel ∈ R.metric, ∀ fieldFlatten ∈ R.fieldFlatten, env.Holds kernel fieldFlatten (fun _ => 0) G
  metricInverse :
    ∀ kernel ∈ R.metricInverse, ∀ fieldFlatten ∈ R.fieldFlatten, env.Holds kernel fieldFlatten (fun _ => 0) Ginv
  array : env.Holds label flatten offsets tensor
  index : ∀ j, env.index (reqd j).text = BitVec.ofNat 32 (indices j)

/-- The labels that are needed are there. -/
structure Served (R : Resources) (avail : Fin n → Variance) (reqd : Fin n → IndexLabel) : Prop where
  fieldFlatten : R.fieldFlatten.isSome
  metric : ∀ j, (reqd j).variance ≠ avail j → R.positions (reqd j).variance

variable {env} {R : Resources} {G Ginv : FlattenedTensor N 2 K}

theorem place_cons (offsets : Fin (n + 1) → ℤ) (indices : Fin (n + 1) → Fin N) :
    place offsets indices = (BitVec.ofNat 32 (indices 0) + BitVec.ofInt 32 (N * offsets 0)) ::
      place (Fin.tail offsets) (Fin.tail indices) := by
  rw [place, List.ofFn_succ]
  rfl

/-- An index that stays is displaced like the others. -/
theorem value_displace (text : String) (offset : ℤ) :
    (displace N text offset).value env = env.index text + BitVec.ofInt 32 (N * offset) := by
  unfold displace
  split_ifs with above below
  · rfl
  · rfl
  · have none : offset = 0 := by omega
    simp [Subscript.value, none]

/-- A label of the metric denotes the factor. -/
def MetricLabels (env : Environment K) (R : Resources) (fieldFlatten : String) (G Ginv : FlattenedTensor N 2 K) : Prop :=
  ∀ r kernel, metricLabel R r = .ok kernel → ∀ i v : Fin N,
    env.array kernel fieldFlatten [BitVec.ofNat 32 i, BitVec.ofNat 32 v] = positionFactor G Ginv r i v

theorem metricLabel_ok {r : Variance} (h : R.positions r) : ∃ kernel, metricLabel R r = .ok kernel := by
  cases r with
  | covariant =>
    obtain ⟨kernel, assigned⟩ := Option.isSome_iff_exists.mp h
    exact ⟨kernel, by rw [metricLabel, assigned]⟩
  | contravariant =>
    obtain ⟨kernel, assigned⟩ := Option.isSome_iff_exists.mp h
    exact ⟨kernel, by rw [metricLabel, assigned]⟩

theorem place_metric (i v : Fin N) :
    place (fun _ => 0) ![i, v] = [BitVec.ofNat 32 i, BitVec.ofNat 32 v] := by
  simp [place, List.ofFn_succ]

theorem metricLabels_of_describes {reqd : Fin n → IndexLabel} {label flatten fieldFlatten : String}
    {offsets : Fin n → ℤ} {tensor : FlattenedTensor N n K} {indices : Fin n → Fin N}
    (h : env.Describes R reqd label flatten offsets G Ginv tensor indices) (assigned : R.fieldFlatten = some fieldFlatten) :
    MetricLabels env R fieldFlatten G Ginv := by
  intro r kernel eq i v
  rw [← place_metric]
  unfold metricLabel at eq
  cases r with
  | covariant =>
    cases metric : R.metric with
    | none => simp [metric] at eq
    | some G =>
      simp only [metric, Except.ok.injEq] at eq
      exact h.metric kernel (eq ▸ metric) fieldFlatten assigned _
  | contravariant =>
    cases metric : R.metricInverse with
    | none => simp [metric] at eq
    | some Ginv =>
      simp only [metric, Except.ok.injEq] at eq
      exact h.metricInverse kernel (eq ▸ metric) fieldFlatten assigned _

/-- **One term** denotes the same factors, and subscripts where the array has the component. -/
theorem labelTerm_value {fieldFlatten : String} (labels : MetricLabels env R fieldFlatten G Ginv)
    {avail : Fin n → Variance} {reqd : Fin n → IndexLabel} (offsets : Fin n → ℤ) {indices : Fin n → Fin N}
    (served : ∀ j, (reqd j).variance ≠ avail j → R.positions (reqd j).variance)
    (index : ∀ j, env.index (reqd j).text = BitVec.ofNat 32 (indices j)) (index_pos : ℕ) :
    ∃ term, labelTerm R fieldFlatten N avail reqd offsets index_pos = .ok term ∧
      (term.1.map (Symbol.value env)).prod =
        (positionTerm G Ginv avail (fun j => (reqd j).variance) indices index_pos).1 ∧
      term.2.map (Subscript.value env) =
        place offsets (positionTerm G Ginv avail (fun j => (reqd j).variance) indices index_pos).2 := by
  induction n generalizing index_pos with
  | zero => exact ⟨([], []), rfl, rfl, rfl⟩
  | succ n ih =>
    have served' (j : Fin n) : (Fin.tail reqd j).variance ≠ Fin.tail avail j →
        R.positions (Fin.tail reqd j).variance := served j.succ
    have index' (j : Fin n) : env.index (Fin.tail reqd j).text = BitVec.ofNat 32 (Fin.tail indices j) := index j.succ
    unfold labelTerm positionTerm
    by_cases moves : (reqd 0).variance ≠ avail 0
    · obtain ⟨term, eq, factors, subscripts⟩ := ih (Fin.tail offsets) served' index' (index_pos / N)
      obtain ⟨kernel, label⟩ := metricLabel_ok (served 0 moves)
      have factor := labels _ kernel label (indices 0)
        ⟨index_pos % N, NontrivialMetric.mod_lt_of_indices indices index_pos⟩
      rw [← index 0] at factor
      refine ⟨_, by rw [if_pos moves, label, ok_bind, eq]; rfl, ?_, ?_⟩
      · have value : Symbol.value env ⟨kernel, [.index (reqd 0).text, .number (BitVec.ofNat 32 (index_pos % N))],
            fieldFlatten⟩ = _ := factor
        rw [if_pos moves, List.map_cons, List.prod_cons, factors, value]
        rfl
      · rw [if_pos moves, place_cons, List.map_cons, subscripts]
        rfl
    · obtain ⟨term, eq, factors, subscripts⟩ := ih (Fin.tail offsets) served' index' index_pos
      refine ⟨_, by rw [if_neg moves, eq]; rfl, ?_, ?_⟩
      · rw [if_neg moves]
        exact factors
      · rw [if_neg moves, place_cons, List.map_cons, value_displace, index 0, subscripts]
        rfl

/-- **The version for labels** denotes what the other returns. -/
theorem labelIndices_value {avail : Fin n → Variance} {reqd : Fin n → IndexLabel} {label flatten : String}
    {offsets : Fin n → ℤ} {tensor : FlattenedTensor N n K} {indices : Fin n → Fin N} (served : Served R avail reqd)
    (h : env.Describes R reqd label flatten offsets G Ginv tensor indices) :
    ∃ e, labelIndices R N avail reqd label flatten offsets = .ok e ∧
      Expression.value env e = positionIndices G Ginv avail (fun j => (reqd j).variance) indices tensor := by
  obtain ⟨fieldFlatten, assigned⟩ := Option.isSome_iff_exists.mp served.fieldFlatten
  have labels : MetricLabels env R fieldFlatten G Ginv := metricLabels_of_describes h assigned
  have terms (i : ℕ) : ∃ term, (do
      let term ← labelTerm R fieldFlatten N avail reqd offsets i
      return term.1 ++ [⟨label, term.2, flatten⟩] : Except ResourceFailure (List Symbol)) = .ok term ∧
        (term.map (Symbol.value env)).prod =
          (positionTerm G Ginv avail (fun j => (reqd j).variance) indices i).1 *
            tensor.component (positionTerm G Ginv avail (fun j => (reqd j).variance) indices i).2 := by
    obtain ⟨term, eq, factors, subscripts⟩ := labelTerm_value labels offsets served.metric h.index i
    refine ⟨_, by rw [eq]; rfl, ?_⟩
    rw [List.map_append, List.prod_append, factors, List.map_singleton, List.prod_singleton, Symbol.value, subscripts,
      h.array]
  obtain ⟨e, eq, values⟩ := exists_mapM_eq_ok fun i (_ : i ∈ List.range
    (positionSize N avail fun j => (reqd j).variance)) => terms i
  refine ⟨e, by rw [labelIndices, assigned]; exact eq, ?_⟩
  rw [Expression.value, ← map_eq_map_of_forall₂ values fun i term h => h.symm, positionIndices]
  rfl

end Labels

/-! ### Both versions -/

section Contracts

variable [CommRing K]

/-- What `position_indices` is for: the version for components contracts, the version for labels denotes the same value
wherever the labels denote what they are for, and to bring the indices elsewhere and back gives the tensor there was. -/
structure Contracts (G Ginv : FlattenedTensor N 2 K) (avail reqd : Fin n → Variance)
    (tensor : FlattenedTensor N n K) : Prop where
  components : ∀ indices, positionIndices G Ginv avail reqd indices tensor =
    contraction G Ginv avail reqd indices tensor.component
  labels : ∀ (R : NontrivialMetric.Resources) (texts : Fin n → String) (label flatten : String) (offsets : Fin n → ℤ)
      (env : Environment K) (indices : Fin n → Fin N),
    Served R avail (fun j => ⟨texts j, reqd j⟩) →
    env.Describes R (fun j => ⟨texts j, reqd j⟩) label flatten offsets G Ginv tensor indices →
    ∃ e, labelIndices R N avail (fun j => ⟨texts j, reqd j⟩) label flatten offsets = .ok e ∧
      Expression.value env e = positionIndices G Ginv avail reqd indices tensor
  back : G.matrix * Ginv.matrix = 1 → ∀ indices,
    positionIndices G Ginv reqd avail indices
      (tensor.tabulate fun v => positionIndices G Ginv avail reqd v tensor) = tensor.component indices

/-- **Index positioning** is tensor contraction, for every tensor and any positions. -/
theorem contracts (G Ginv : FlattenedTensor N 2 K) (avail reqd : Fin n → Variance) (tensor : FlattenedTensor N n K) :
    Contracts G Ginv avail reqd tensor where
  components indices := positionIndices_eq G Ginv avail reqd indices tensor
  labels _ _ _ _ _ _ _ served h := labelIndices_value served h
  back inverse indices := by
    have there : (tensor.tabulate fun v => positionIndices G Ginv avail reqd v tensor).component =
        fun v => contraction G Ginv avail reqd v tensor.component := by
      funext v
      rw [FlattenedTensor.component_tabulate, positionIndices_eq]
    rw [positionIndices_eq, there, contraction_contraction G Ginv inverse]

end Contracts

/-! ### The momenta of a model -/

/-- A metric of two fields, which is its own inverse. -/
def reflection : FlattenedTensor 2 2 ℤ := ⟨[1, 0, 0, -1], rfl, le_rfl⟩

/-- The contravariant momenta. -/
def momenta : FlattenedTensor 2 1 ℤ := ⟨[3, 5], rfl, le_rfl⟩

/-- The coordinates have the fields first and the momenta then. -/
def program : Environment ℤ where
  index _ := 1
  array kernel _ subscripts :=
    if kernel = "coords" then if subscripts = [2] then 3 else 5
    else if subscripts = [0, 0] then 1 else if subscripts = [1, 1] then -1 else 0

def programLabels : NontrivialMetric.Resources where
  coordinates := some "coords"
  phaseFlatten := some "FLATTEN"
  fieldFlatten := some "FIELDS_FLATTEN"
  metric := some "G"

theorem contracts_momenta :
    ∃ e, labelIndices programLabels 2 (fun _ => .contravariant) (fun _ : Fin 1 => ⟨"a", .covariant⟩) "coords" "FLATTEN"
        (fun _ => 1) = .ok e ∧
      Expression.value program e = -5 := by
  refine (contracts reflection reflection (fun _ => .contravariant) (fun _ => .covariant) momenta).labels programLabels
    (fun _ => "a") "coords" "FLATTEN" (fun _ => 1) program (fun _ => 1) ⟨rfl, fun _ _ => rfl⟩ ⟨?_, ?_, ?_, ?_⟩
  · rintro _ ⟨⟩ _ ⟨⟩ indices
    revert indices
    decide
  · rintro _ ⟨⟩
  · intro indices
    revert indices
    decide
  · exact fun _ => rfl

end CppTransport.Translator.IndexPositions
