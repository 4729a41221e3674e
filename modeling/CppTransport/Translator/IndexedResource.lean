import CppTransport.Library.OrderedMaps
import Mathlib.Algebra.BigOperators.Group.List.Basic
import Mathlib.Data.ENat.Basic
import Mathlib.Data.List.Induction
import Mathlib.Data.List.Lex
import Mathlib.Data.Vector.Basic

/-!
# Labels for resources with indices

An `indexed_resource` holds labels for arrays of the generated code, one for each list of positions of their indices.
It is asked for the label with exactly given positions, or for the nearest there is.

## The model

The labels are those of a `std::map`, in the order of their lists of positions, and each has a flag that says whether
it has been used. `std::sort` may leave labels at the same distance in any order, so that it is a parameter (`Sorting`).
Messages are returned with the place they are about.

## What is proved

`content_run`: a resource holds what has been assigned last since it was reset. `looks_up_iff` says when a label is
found as it should be. An index that has a position in one of two lists only should make their distance infinite, but
unsigned integers have no infinity, and `infinity()` is zero: such an index counts as one that agrees.
-/

namespace CppTransport.Translator.IndexedResource

open Library

/-- The position of an index. -/
inductive variance where
  | covariant
  | contravariant
  | none
deriving DecidableEq, Repr

instance : LinearOrder variance :=
  LinearOrder.lift' variance.ctorIdx fun a b h => by cases a <;> cases b <;> first | rfl | cases h

/-- `std::array< variance, Indices >`. -/
abbrev variance_list (Indices : UInt32) := List.Vector variance Indices.toNat

instance (Indices : UInt32) : LinearOrder (variance_list Indices) :=
  inferInstanceAs (LinearOrder {v : List variance // v.length = Indices.toNat})

/-- `std::numeric_limits<unsigned int>::infinity()`. It is zero for a type that has no infinity. -/
def infinity : UInt32 := 0

/-- The distance between the positions of an index. -/
def variance_distance (a b : variance) : UInt32 :=
  if a = .none ∨ b = .none then
    if a = b then 0 else infinity
  else if a ≠ b then 1 else 0

/-- The distance between two lists of positions. -/
def variance_metric {Indices : UInt32} (a b : variance_list Indices) : UInt32 :=
  (List.zipWith variance_distance a.toList b.toList).foldl (· + ·) 0

/-- A value, with the place where it is declared. -/
structure contexted_value (DataType error_context : Type*) where
  get : DataType
  declaration_point : error_context

/-- A label. -/
structure label_record (Indices : UInt32) (DataType error_context : Type*) where
  variances : variance_list Indices
  /-- Has it been used? -/
  used : Bool
  value : contexted_value DataType error_context

/-- A message. -/
inductive Message (error_context : Type*) where
  | error (text : String) (context : error_context)
  | warn (text : String) (context : error_context)
deriving DecidableEq, Repr

def NOTIFY_RESOURCE_REDECLARATION : String := "Note: redeclaration of resource without prior release"

def NOTIFY_RESOURCE_DECLARATION_WAS : String := "Note: location of original declaration was"

def ERROR_RESOURCE_LABEL_IN_USE : String :=
  "Resource label already in use for an index assignment with different variance"

def NOTIFY_RESOURCE_DECLARED_NOT_USED : String :=
  "Note: resource label declared but not used; consider removal as a performance optimization"

variable {Indices : UInt32} {DataType error_context : Type*}

/-- The labels of a resource, in the order of a `std::map`. -/
structure indexed_resource (Indices : UInt32) (DataType error_context : Type*) where
  labels : List (label_record Indices DataType error_context)
  sorted : labels.Pairwise fun a b => a.variances < b.variances
  /-- Are warnings for developers shown? -/
  dev_warn : Bool

/-- A resource without labels. -/
def indexed_resource.empty (dev_warn : Bool) : indexed_resource Indices DataType error_context :=
  ⟨[], .nil, dev_warn⟩

namespace indexed_resource

variable (r : indexed_resource Indices DataType error_context)

/-- Change labels, but not their positions. -/
def update (f : label_record Indices DataType error_context → label_record Indices DataType error_context)
    (h : ∀ t, (f t).variances = t.variances) : indexed_resource Indices DataType error_context where
  labels := r.labels.map f
  sorted := List.pairwise_map.mpr (r.sorted.imp fun {a b} lt => by rwa [h a, h b])
  dev_warn := r.dev_warn

/-- `std::map::emplace`. -/
def emplace (t : label_record Indices DataType error_context) : indexed_resource Indices DataType error_context where
  labels := OrderedMap.insert label_record.variances r.labels t
  sorted := OrderedMap.pairwise_insert r.sorted t
  dev_warn := r.dev_warn

/-- Look a value up. -/
def find_value [DecidableEq DataType] (d : DataType) : Option (label_record Indices DataType error_context) :=
  r.labels.find? fun t => t.value.get = d

/-- Warnings about labels that are not used. -/
def warn_unused : List (Message error_context) :=
  if r.dev_warn then
    (r.labels.filter fun t => !t.used).map fun t =>
      .warn NOTIFY_RESOURCE_DECLARED_NOT_USED t.value.declaration_point
  else []

/-- The error about a value that is a label already. -/
def label_in_use (d : contexted_value DataType error_context) (u : label_record Indices DataType error_context) :
    List (Message error_context) :=
  [.error ERROR_RESOURCE_LABEL_IN_USE d.declaration_point,
    .warn NOTIFY_RESOURCE_DECLARATION_WAS u.value.declaration_point]

/-- Assign a value to a list of positions. -/
def assign [DecidableEq DataType] (d : contexted_value DataType error_context) (v : variance_list Indices) :
    indexed_resource Indices DataType error_context × List (Message error_context) :=
  match r.labels.find? fun t => t.variances = v with
  | none =>
    let messages := match r.find_value d.get with
      | some u => label_in_use d u
      | none => []
    (r.emplace ⟨v, false, d⟩, messages)
  | some t =>
    let redeclaration := if r.dev_warn then
        [.warn NOTIFY_RESOURCE_REDECLARATION d.declaration_point,
          .warn NOTIFY_RESOURCE_DECLARATION_WAS t.value.declaration_point]
      else []
    let messages := match r.find_value d.get with
      | some u => if t.variances ≠ v then label_in_use d u else []
      | none => []
    (r.update (fun t => if t.variances = v then { t with value := d } else t) (by intro t; split <;> rfl),
      redeclaration ++ messages)

/-- Remove all labels. -/
def reset : indexed_resource Indices DataType error_context × List (Message error_context) :=
  ({ r with labels := [], sorted := .nil }, r.warn_unused)

/-- A label has been used. -/
def mark_used (w : variance_list Indices) : indexed_resource Indices DataType error_context :=
  r.update (fun t => if t.variances = w then { t with used := true } else t) (by intro t; split <;> rfl)

/-- `std::sort` on values with their distances. Values at the same distance can be left in any order. -/
structure Sorting (α : Type*) where
  sort : List (UInt32 × α) → List (UInt32 × α)
  perm : ∀ l, (sort l).Perm l
  sorted : ∀ l, (sort l).Pairwise fun a b => a.1 ≤ b.1

/-- Go through the labels until one is at distance zero, and collect the others with their distances. -/
def search (v : variance_list Indices) : List (label_record Indices DataType error_context) →
    List (UInt32 × label_record Indices DataType error_context) →
    label_record Indices DataType error_context ⊕ List (UInt32 × label_record Indices DataType error_context)
  | [], records => .inr records
  | t :: labels, records =>
    if variance_metric v t.variances = 0 then .inl t
    else search v labels (records ++ [(variance_metric v t.variances, t)])

/-- Look a label up by its positions. -/
def find (S : Sorting (label_record Indices DataType error_context)) (v : variance_list Indices) (exact : Bool) :
    Option (variance_list Indices × contexted_value DataType error_context) ×
      indexed_resource Indices DataType error_context :=
  if r.labels.isEmpty then (none, r)
  else match search v r.labels [] with
    | .inl t => (some (t.variances, t.value), r.mark_used t.variances)
    | .inr records =>
      if exact then (none, r)
      else match S.sort records with
        | [] => (none, r)
        | (_, top_choice) :: _ =>
          (some (top_choice.variances, top_choice.value), r.mark_used top_choice.variances)

end indexed_resource

/-! ### Histories -/

/-- A call. -/
inductive Call (Indices : UInt32) (DataType error_context : Type*) where
  | assign (d : contexted_value DataType error_context) (v : variance_list Indices)
  | reset
  | find (v : variance_list Indices) (exact : Bool)

section Run

variable [DecidableEq DataType] (S : indexed_resource.Sorting (label_record Indices DataType error_context))

/-- What a call does to the labels. -/
def step (r : indexed_resource Indices DataType error_context) :
    Call Indices DataType error_context → indexed_resource Indices DataType error_context
  | .assign d v => (r.assign d v).1
  | .reset => r.reset.1
  | .find v exact => (r.find S v exact).2

/-- A history of calls. -/
def run (dev_warn : Bool) (calls : List (Call Indices DataType error_context)) :
    indexed_resource Indices DataType error_context :=
  calls.foldl (step S) (.empty dev_warn)

end Run

/-! ### What a lookup is for -/

/-- The value that has been assigned last, since the labels were removed. -/
def last_assigned (calls : List (Call Indices DataType error_context)) (w : variance_list Indices) :
    Option (contexted_value DataType error_context) :=
  calls.foldl
    (fun last call => match call with
      | .assign d v => if v = w then some d else last
      | .reset => none
      | .find _ _ => last)
    none

/-- The distance between the positions of an index, which is infinite when only one is known. -/
def index_distance (a b : variance) : ℕ∞ :=
  if a = .none ∨ b = .none then
    if a = b then 0 else ⊤
  else if a ≠ b then 1 else 0

/-- The distance between two lists of positions. -/
def distance (v w : variance_list Indices) : ℕ∞ := (List.zipWith index_distance v.toList w.toList).sum

/-- A lookup after a history of calls: a label that is found for an exact match has been assigned to these positions,
the other lookup finds a label if there is one, and no label is nearer. -/
structure LooksUp [DecidableEq DataType] (S : indexed_resource.Sorting (label_record Indices DataType error_context))
    (dev_warn : Bool) (calls : List (Call Indices DataType error_context)) (v : variance_list Indices) : Prop where
  exact_match : ∀ w d, ((run S dev_warn calls).find S v true).1 = some (w, d) → w = v ∧ last_assigned calls v = some d
  found : (∃ w, last_assigned calls w ≠ none) → ((run S dev_warn calls).find S v false).1 ≠ none
  nearest : ∀ w d, ((run S dev_warn calls).find S v false).1 = some (w, d) → last_assigned calls w = some d ∧
    ∀ u, last_assigned calls u ≠ none → distance v w ≤ distance v u

/-! ### What a resource holds -/

namespace indexed_resource

variable (r : indexed_resource Indices DataType error_context)

/-- The value for given positions. -/
def content (w : variance_list Indices) : Option (contexted_value DataType error_context) :=
  (r.labels.find? fun t => t.variances = w).map label_record.value

variable {r} {v w : variance_list Indices} {d : contexted_value DataType error_context}

/-- There is one label for given positions. -/
theorem eq_of_variances {t u : label_record Indices DataType error_context} (ht : t ∈ r.labels) (hu : u ∈ r.labels)
    (h : t.variances = u.variances) : t = u := by
  have keys : (r.labels.map label_record.variances).Nodup := List.pairwise_map.mpr (r.sorted.imp ne_of_lt)
  exact List.inj_on_of_nodup_map keys ht hu h

theorem content_eq_some : r.content w = some d ↔ ∃ t ∈ r.labels, t.variances = w ∧ t.value = d := by
  rw [content, Option.map_eq_some_iff]
  constructor
  · rintro ⟨t, found, rfl⟩
    exact ⟨t, List.mem_of_find?_eq_some found, by simpa using List.find?_some found, rfl⟩
  · rintro ⟨t, ht, rfl, rfl⟩
    have found : (r.labels.find? fun u => u.variances = t.variances).isSome := List.find?_isSome.mpr ⟨t, ht, by simp⟩
    obtain ⟨u, hu⟩ := Option.isSome_iff_exists.mp found
    have same : u = t := eq_of_variances (List.mem_of_find?_eq_some hu) ht (by simpa using List.find?_some hu)
    exact ⟨t, same ▸ hu, rfl⟩

theorem content_ne_none : r.content w ≠ none ↔ ∃ t ∈ r.labels, t.variances = w := by
  simp [content]

theorem content_update (f : label_record Indices DataType error_context → label_record Indices DataType error_context)
    (h : ∀ t, (f t).variances = t.variances) :
    (r.update f h).content w = (r.labels.find? fun t => t.variances = w).map fun t => (f t).value := by
  simp [content, update, List.find?_map, h, Function.comp_def]

theorem content_mark_used : (r.mark_used v).content w = r.content w := by
  rw [mark_used, content_update, content]
  congr 1
  funext t
  split <;> rfl

theorem content_emplace {t : label_record Indices DataType error_context} (h : r.content t.variances = none) :
    (r.emplace t).content w = if t.variances = w then some t.value else r.content w := by
  have fresh : t.variances ∉ r.labels.map label_record.variances := by
    intro there
    obtain ⟨u, hu, hut⟩ := List.mem_map.mp there
    exact content_ne_none.mpr ⟨u, hu, hut⟩ h
  ext d
  rw [content_eq_some]
  simp only [emplace, OrderedMap.mem_insert fresh]
  split
  case isTrue same =>
    subst same
    constructor
    · rintro ⟨u, rfl | hu, huw, rfl⟩
      · rfl
      · exact absurd (List.mem_map.mpr ⟨u, hu, huw⟩) fresh
    · rintro ⟨⟩
      exact ⟨t, .inl rfl, rfl, rfl⟩
  case isFalse other =>
    rw [content_eq_some]
    constructor
    · rintro ⟨u, rfl | hu, huw, rfl⟩
      · exact absurd huw other
      · exact ⟨u, hu, huw, rfl⟩
    · rintro ⟨u, hu, huw, rfl⟩
      exact ⟨u, .inr hu, huw, rfl⟩

/-- An assignment changes the value for its positions, and no other. -/
theorem content_assign [DecidableEq DataType] :
    (r.assign d v).1.content w = if v = w then some d else r.content w := by
  rw [assign]
  split
  case h_1 missing => exact content_emplace (by simp only [content, missing, Option.map_none])
  case h_2 t found =>
    rw [content_update]
    split
    case isTrue same =>
      subst same
      have there : t.variances = v := by simpa using List.find?_some found
      simp [found, there]
    case isFalse other =>
      rw [content]
      refine Option.map_congr fun u hu => ?_
      have here : u.variances = w := by simpa using List.find?_some hu
      rw [if_neg (here ▸ Ne.symm other)]

theorem content_reset : r.reset.1.content w = none := rfl

theorem content_find (S : Sorting (label_record Indices DataType error_context)) (exact : Bool) :
    (r.find S v exact).2.content w = r.content w := by
  rw [find]
  split
  · rfl
  · split
    · exact content_mark_used
    · split
      · rfl
      · split
        · rfl
        · exact content_mark_used

end indexed_resource

/-- A resource holds what has been assigned last. -/
theorem content_run [DecidableEq DataType]
    (S : indexed_resource.Sorting (label_record Indices DataType error_context)) (dev_warn : Bool)
    (calls : List (Call Indices DataType error_context)) (w : variance_list Indices) :
    (run S dev_warn calls).content w = last_assigned calls w := by
  induction calls using List.reverseRecOn with
  | nil => rfl
  | append_singleton calls call ih =>
    rw [run, last_assigned, List.foldl_append, List.foldl_append]
    cases call with
    | assign d v =>
      refine indexed_resource.content_assign.trans ?_
      exact congrArg _ ih
    | reset => rfl
    | find v exact => exact (indexed_resource.content_find S exact).trans ih

/-! ### Distances -/

/-- Is it known for the same indices where they stand? -/
def Comparable (v w : variance_list Indices) : Prop :=
  List.Forall₂ (fun a b => a = variance.none ↔ b = variance.none) v.toList w.toList

instance (v w : variance_list Indices) : Decidable (Comparable v w) :=
  inferInstanceAs (Decidable (List.Forall₂ _ _ _))

theorem variance_distance_toNat_le (a b : variance) : (variance_distance a b).toNat ≤ 1 := by
  cases a <;> cases b <;> decide

theorem index_distance_of_iff {a b : variance} (h : a = .none ↔ b = .none) :
    index_distance a b = (variance_distance a b).toNat := by
  cases a <;> cases b <;> first | rfl | simp at h

theorem index_distance_of_not_iff {a b : variance} (h : ¬(a = .none ↔ b = .none)) : index_distance a b = ⊤ := by
  cases a <;> cases b <;> first | rfl | simp at h

/-- A sum of distances does not wrap around. -/
theorem toNat_foldl {l : List UInt32} (h : ∀ d ∈ l, d.toNat ≤ 1) {n : UInt32} (bound : n.toNat + l.length < 2 ^ 32) :
    (l.foldl (· + ·) n).toNat = n.toNat + (l.map UInt32.toNat).sum := by
  induction l generalizing n with
  | nil => simp
  | cons d l ih =>
    have hd : d.toNat ≤ 1 := h d List.mem_cons_self
    rw [List.length_cons] at bound
    have next : (n + d).toNat = n.toNat + d.toNat := by
      rw [UInt32.toNat_add]
      exact Nat.mod_eq_of_lt (by omega)
    rw [List.foldl_cons, ih (fun x hx => h x (List.mem_cons_of_mem d hx)) (by omega), next, List.map_cons,
      List.sum_cons, add_assoc]

theorem variance_metric_toNat (v w : variance_list Indices) :
    (variance_metric v w).toNat = (List.zipWith (fun a b => (variance_distance a b).toNat) v.toList w.toList).sum := by
  have bound : (List.zipWith variance_distance v.toList w.toList).length < 2 ^ 32 := by
    simpa using Indices.toNat_lt
  rw [variance_metric, toNat_foldl _ (by simpa using bound), List.map_zipWith]
  · simp
  · intro d hd
    rw [← List.map_uncurry_zip_eq_zipWith] at hd
    obtain ⟨⟨a, b⟩, -, rfl⟩ := List.mem_map.mp hd
    exact variance_distance_toNat_le a b

/-- The distance of the code is the intended one for lists that can be compared. -/
theorem distance_of_comparable {v w : variance_list Indices} (h : Comparable v w) :
    distance v w = (variance_metric v w).toNat := by
  rw [variance_metric_toNat, distance]
  unfold Comparable at h
  generalize v.toList = l, w.toList = m at h ⊢
  induction h with
  | nil => rfl
  | cons hab _ ih => simp [index_distance_of_iff hab, ih]

/-- For others it is infinite. -/
theorem distance_of_not_comparable {v w : variance_list Indices} (h : ¬Comparable v w) : distance v w = ⊤ := by
  have same : v.toList.length = w.toList.length := by simp
  unfold Comparable at h
  rw [distance]
  generalize v.toList = l, w.toList = m at h same ⊢
  induction l generalizing m with
  | nil => cases m with
    | nil => exact absurd .nil h
    | cons b m => cases same
  | cons a l ih => cases m with
    | nil => cases same
    | cons b m =>
      rw [List.zipWith_cons_cons, List.sum_cons]
      by_cases hab : a = .none ↔ b = .none
      · rw [ih m (fun rest => h (.cons hab rest)) (Nat.succ.inj same), add_top]
      · rw [index_distance_of_not_iff hab, top_add]

theorem comparable_self (v : variance_list Indices) : Comparable v v := List.forall₂_same.mpr fun _ _ => Iff.rfl

theorem index_distance_eq_zero {a b : variance} : index_distance a b = 0 ↔ a = b := by
  cases a <;> cases b <;> simp [index_distance]

/-- Only a list itself is at distance zero. -/
theorem distance_eq_zero {v w : variance_list Indices} : distance v w = 0 ↔ v = w := by
  have same : v.toList.length = w.toList.length := by simp
  rw [distance, ← List.Vector.toList_injective.eq_iff]
  generalize v.toList = l, w.toList = m at same ⊢
  induction l generalizing m with
  | nil => cases m with
    | nil => simp
    | cons b m => cases same
  | cons a l ih => cases m with
    | nil => cases same
    | cons b m => simp [index_distance_eq_zero, ih m (Nat.succ.inj same)]

theorem metric_eq_zero_of_comparable {v w : variance_list Indices} (h : Comparable v w) :
    variance_metric v w = 0 ↔ v = w := by
  rw [← distance_eq_zero, distance_of_comparable h, Nat.cast_eq_zero, ← UInt32.toNat_inj]
  rfl

@[simp] theorem variance_metric_self (v : variance_list Indices) : variance_metric v v = 0 :=
  (metric_eq_zero_of_comparable (comparable_self v)).mpr rfl

/-! ### What a lookup finds -/

namespace indexed_resource

variable {r : indexed_resource Indices DataType error_context} {v w : variance_list Indices}
  {d : contexted_value DataType error_context} {S : Sorting (label_record Indices DataType error_context)} {exact : Bool}

/-- The search ends at the first label at distance zero. -/
theorem search_eq (labels : List (label_record Indices DataType error_context))
    (records : List (UInt32 × label_record Indices DataType error_context)) :
    search v labels records = match labels.find? fun t => variance_metric v t.variances = 0 with
      | some t => .inl t
      | none => .inr (records ++ labels.map fun t => (variance_metric v t.variances, t)) := by
  induction labels generalizing records with
  | nil => simp [search]
  | cons t labels ih =>
    rw [search, List.find?_cons]
    by_cases zero : variance_metric v t.variances = 0
    · simp [zero]
    · simp [zero, ih]

/-- The first label at distance zero has the least positions of those. -/
theorem le_of_first {t : label_record Indices DataType error_context}
    (first : (r.labels.find? fun t => variance_metric v t.variances = 0) = some t)
    {u : label_record Indices DataType error_context} (hu : u ∈ r.labels) (zero : variance_metric v u.variances = 0) :
    t.variances ≤ u.variances := by
  obtain ⟨-, before, after, hlabels, hbefore⟩ := List.find?_eq_some_iff_append.mp first
  have sorted := r.sorted
  rw [hlabels] at hu sorted
  rcases List.mem_append.mp hu with hu | hu
  · exact absurd zero (by simpa using hbefore u hu)
  · rcases List.mem_cons.mp hu with rfl | hu
    · exact le_rfl
    · exact (List.rel_of_pairwise_cons (List.pairwise_append.mp sorted).2.1 hu).le

/-- The label that is chosen when none is at distance zero is as near as any. -/
theorem le_of_sort {labels : List (label_record Indices DataType error_context)}
    {t : label_record Indices DataType error_context} {dist : UInt32}
    {rest : List (UInt32 × label_record Indices DataType error_context)}
    (h : S.sort (labels.map fun t => (variance_metric v t.variances, t)) = (dist, t) :: rest) :
    t ∈ labels ∧ ∀ u ∈ labels, variance_metric v t.variances ≤ variance_metric v u.variances := by
  have perm := S.perm (labels.map fun t => (variance_metric v t.variances, t))
  have sorted := S.sorted (labels.map fun t => (variance_metric v t.variances, t))
  rw [h] at perm sorted
  obtain ⟨t', ht, htt⟩ := List.mem_map.mp (perm.mem_iff.mp List.mem_cons_self)
  obtain ⟨rfl, rfl⟩ := Prod.mk.inj htt
  refine ⟨ht, fun u hu => ?_⟩
  rcases List.mem_cons.mp (perm.mem_iff.mpr (List.mem_map_of_mem hu)) with same | later
  · exact UInt32.le_of_eq (congrArg Prod.fst same).symm
  · exact List.rel_of_pairwise_cons sorted later

/-- What is found is a label: the first at distance zero, or else, if an exact match is not needed, one that is as near
as any. -/
theorem find_some (h : (r.find S v exact).1 = some (w, d)) : (∃ t ∈ r.labels, t.variances = w ∧ t.value = d) ∧
    ((variance_metric v w = 0 ∧ ∀ u ∈ r.labels, variance_metric v u.variances = 0 → w ≤ u.variances) ∨
      exact = false ∧ ∀ u ∈ r.labels, variance_metric v u.variances ≠ 0 ∧
        variance_metric v w ≤ variance_metric v u.variances) := by
  rw [find, search_eq] at h
  split at h
  · cases h
  · rcases first : r.labels.find? fun t => variance_metric v t.variances = 0 with _ | t
    · have nonzero : ∀ u ∈ r.labels, variance_metric v u.variances ≠ 0 := by simpa using List.find?_eq_none.mp first
      simp only [first, List.nil_append] at h
      split at h
      · cases h
      · rename_i inexact
        split at h
        · cases h
        · rename_i sort
          cases h
          obtain ⟨there, least⟩ := le_of_sort sort
          exact ⟨⟨_, there, rfl, rfl⟩, .inr ⟨by simpa using inexact, fun u hu => ⟨nonzero u hu, least u hu⟩⟩⟩
    · simp only [first] at h
      cases h
      exact ⟨⟨t, List.mem_of_find?_eq_some first, rfl, rfl⟩,
        .inl ⟨by simpa using List.find?_some first, fun u hu zero => le_of_first first hu zero⟩⟩

/-- A label at distance zero is enough for any lookup. -/
theorem find_ne_none_of_zero {t : label_record Indices DataType error_context} (ht : t ∈ r.labels)
    (zero : variance_metric v t.variances = 0) : (r.find S v exact).1 ≠ none := by
  have found : (r.labels.find? fun t => variance_metric v t.variances = 0).isSome :=
    List.find?_isSome.mpr ⟨t, ht, by simpa using zero⟩
  obtain ⟨u, hu⟩ := Option.isSome_iff_exists.mp found
  rw [find, search_eq, if_neg (by simpa using List.ne_nil_of_mem ht), hu]
  exact Option.some_ne_none _

/-- Any label is enough if an exact match is not needed. -/
theorem find_ne_none {t : label_record Indices DataType error_context} (ht : t ∈ r.labels) :
    (r.find S v false).1 ≠ none := by
  rw [find, search_eq, if_neg (by simpa using List.ne_nil_of_mem ht)]
  split
  · exact Option.some_ne_none _
  · rename_i records hrecords
    have perm := S.perm records
    split at hrecords
    · cases hrecords
    · cases hrecords
      simp only [Bool.false_eq_true, if_false]
      split
      · rename_i empty
        rw [empty] at perm
        have none_left := perm.nil_eq
        simp only [List.nil_append, List.nil_eq, List.map_eq_nil_iff] at none_left
        exact absurd none_left (List.ne_nil_of_mem ht)
      · exact Option.some_ne_none _

/-- The order of distances, with preferred values first among those at the same distance. -/
def prefers {α : Type*} (p : α → Bool) (a b : UInt32 × α) : Bool :=
  a.1 < b.1 || (a.1 == b.1 && (p a.2 || !p b.2))

theorem le_of_prefers {α : Type*} {p : α → Bool} {a b : UInt32 × α} (h : prefers p a b) : a.1 ≤ b.1 := by
  simp only [prefers, Bool.or_eq_true, Bool.and_eq_true, decide_eq_true_eq, beq_iff_eq] at h
  rcases h with less | ⟨same, -⟩
  · exact UInt32.le_of_lt less
  · exact UInt32.le_of_eq same

theorem pairwise_mergeSort {α : Type*} (p : α → Bool) (l : List (UInt32 × α)) :
    (l.mergeSort (prefers p)).Pairwise fun a b => prefers p a b := by
  apply List.pairwise_mergeSort
  · rintro ⟨a, x⟩ ⟨b, y⟩ ⟨c, z⟩ hab hbc
    simp only [prefers] at hab hbc ⊢
    grind
  · rintro ⟨a, x⟩ ⟨b, y⟩
    simp only [prefers]
    grind

/-- A sort that prefers some values. -/
def Sorting.preferring {α : Type*} (p : α → Bool) : Sorting α where
  sort l := l.mergeSort (prefers p)
  perm l := List.mergeSort_perm l _
  sorted l := (pairwise_mergeSort p l).imp le_of_prefers

/-- A preferred value at the least distance is at the front, or another one is. -/
theorem head_preferring {α : Type*} {p : α → Bool} {l : List (UInt32 × α)} {x : UInt32 × α} (hx : x ∈ l) (hp : p x.2)
    (least : ∀ y ∈ l, x.1 ≤ y.1) : ∃ top rest, (Sorting.preferring p).sort l = top :: rest ∧ top ∈ l ∧ p top.2 := by
  have perm := List.mergeSort_perm l (prefers p)
  have sorted := pairwise_mergeSort p l
  rcases hsort : l.mergeSort (prefers p) with _ | ⟨top, rest⟩
  · rw [hsort] at perm
    rw [← perm.nil_eq] at hx
    cases hx
  · rw [hsort] at perm sorted
    have there : top ∈ l := perm.mem_iff.mp List.mem_cons_self
    refine ⟨top, rest, hsort, there, ?_⟩
    rcases List.mem_cons.mp (perm.mem_iff.mpr hx) with rfl | later
    · exact hp
    · have preferred := List.rel_of_pairwise_cons sorted later
      have near := least top there
      simp only [prefers] at preferred
      grind

/-- If no label is at distance zero, a label that is as near as any is found by the sort that prefers it. -/
theorem find_preferring {t : label_record Indices DataType error_context} (ht : t ∈ r.labels)
    (nonzero : ∀ u ∈ r.labels, variance_metric v u.variances ≠ 0)
    (least : ∀ u ∈ r.labels, variance_metric v t.variances ≤ variance_metric v u.variances) :
    (r.find (.preferring fun u => u.variances = t.variances) v false).1 = some (t.variances, t.value) := by
  have none_zero : (r.labels.find? fun t => variance_metric v t.variances = 0) = none :=
    List.find?_eq_none.mpr (by simpa using nonzero)
  obtain ⟨⟨dist, top⟩, rest, hsort, there, same⟩ :=
    head_preferring (p := fun u : label_record Indices DataType error_context => u.variances = t.variances)
      (List.mem_map_of_mem (f := fun t => (variance_metric v t.variances, t)) ht) (by simp)
      (by simpa using least)
  have label : top = t := by
    obtain ⟨u, hu, hut⟩ := List.mem_map.mp there
    obtain ⟨-, rfl⟩ := Prod.mk.inj hut
    exact eq_of_variances hu ht (by simpa using same)
  rw [find, search_eq, if_neg (by simpa using List.ne_nil_of_mem ht), none_zero]
  simp only [List.nil_append, Bool.false_eq_true, if_false, hsort, label]

end indexed_resource

/-- Are the labels that cannot be compared with the request told apart from those that can? One at distance zero has to
come after a label with exactly the positions that are requested, and there is a nearer one that can be compared for
the others, if any can. -/
structure Separated (calls : List (Call Indices DataType error_context)) (v : variance_list Indices) : Prop where
  behind : ∀ w, last_assigned calls w ≠ none → ¬Comparable v w → variance_metric v w = 0 →
    last_assigned calls v ≠ none ∧ v < w
  nearer : (∃ u, last_assigned calls u ≠ none ∧ Comparable v u) →
    ∀ w, last_assigned calls w ≠ none → ¬Comparable v w → variance_metric v w ≠ 0 →
      ∃ u, last_assigned calls u ≠ none ∧ Comparable v u ∧ variance_metric v u < variance_metric v w

/-- A label at distance zero that is found is the one that is requested. -/
theorem Separated.eq_of_first {calls : List (Call Indices DataType error_context)} {v w : variance_list Indices}
    (h : Separated calls v) (hw : last_assigned calls w ≠ none) (zero : variance_metric v w = 0)
    (first : ∀ u, last_assigned calls u ≠ none → variance_metric v u = 0 → w ≤ u) : w = v := by
  by_cases comparable : Comparable v w
  · exact ((metric_eq_zero_of_comparable comparable).mp zero).symm
  · obtain ⟨there, lt⟩ := h.behind w hw comparable zero
    exact absurd (first v there (variance_metric_self v)) lt.not_ge

section Histories

variable [DecidableEq DataType] {S : indexed_resource.Sorting (label_record Indices DataType error_context)}
  {dev_warn : Bool} {calls : List (Call Indices DataType error_context)} {v w : variance_list Indices}
  {d : contexted_value DataType error_context}

theorem last_assigned_eq_some :
    last_assigned calls w = some d ↔ ∃ t ∈ (run S dev_warn calls).labels, t.variances = w ∧ t.value = d := by
  rw [← content_run S dev_warn, indexed_resource.content_eq_some]

variable (S dev_warn) in
theorem last_assigned_ne_none :
    last_assigned calls w ≠ none ↔ ∃ t ∈ (run S dev_warn calls).labels, t.variances = w := by
  rw [← content_run S dev_warn, indexed_resource.content_ne_none]

theorem assigned_of_mem {t : label_record Indices DataType error_context} (ht : t ∈ (run S dev_warn calls).labels) :
    last_assigned calls t.variances ≠ none := (last_assigned_ne_none S dev_warn).mpr ⟨t, ht, rfl⟩

theorem Separated.looksUp (h : Separated calls v) : LooksUp S dev_warn calls v where
  exact_match w d found := by
    obtain ⟨label, ⟨zero, first⟩ | ⟨inexact, -⟩⟩ := indexed_resource.find_some found
    · have assigned := last_assigned_eq_some.mpr label
      have same : w = v := h.eq_of_first (by simp [assigned]) zero fun u hu => by
        obtain ⟨t, ht, rfl⟩ := (last_assigned_ne_none S dev_warn).mp hu
        exact first t ht
      exact ⟨same, same ▸ assigned⟩
    · cases inexact
  found := by
    rintro ⟨w, hw⟩
    obtain ⟨t, ht, -⟩ := (last_assigned_ne_none S dev_warn).mp hw
    exact indexed_resource.find_ne_none ht
  nearest w d found := by
    obtain ⟨label, chosen⟩ := indexed_resource.find_some found
    have assigned := last_assigned_eq_some.mpr label
    refine ⟨assigned, fun u hu => ?_⟩
    obtain ⟨t, ht, rfl⟩ := (last_assigned_ne_none S dev_warn).mp hu
    rcases chosen with ⟨zero, first⟩ | ⟨-, least⟩
    · have same : w = v := h.eq_of_first (by simp [assigned]) zero fun u hu => by
        obtain ⟨t, ht, rfl⟩ := (last_assigned_ne_none S dev_warn).mp hu
        exact first t ht
      rw [same, distance_eq_zero.mpr rfl]
      exact zero_le
    · by_cases near : Comparable v t.variances
      · have comparable : Comparable v w := by
          by_contra far
          obtain ⟨u, hu, rfl, -⟩ := label
          obtain ⟨c, hc, -, lt⟩ := h.nearer ⟨_, assigned_of_mem ht, near⟩ _ (assigned_of_mem hu) far (least u hu).1
          obtain ⟨s, hs, rfl⟩ := (last_assigned_ne_none S dev_warn).mp hc
          exact absurd (least s hs).2 (UInt32.not_le.mpr lt)
        rw [distance_of_comparable comparable, distance_of_comparable near]
        exact Nat.cast_le.mpr (UInt32.le_iff_toNat_le.mp (least t ht).2)
      · rw [distance_of_not_comparable near]
        exact le_top

/-- If lookups are right, a label at distance zero comes after one for the request. -/
theorem LooksUp.le_of_zero (h : LooksUp S dev_warn calls v) (hw : last_assigned calls w ≠ none)
    (zero : variance_metric v w = 0) : last_assigned calls v ≠ none ∧ v ≤ w := by
  obtain ⟨t, ht, rfl⟩ := (last_assigned_ne_none S dev_warn).mp hw
  have result : ((run S dev_warn calls).find S v true).1 ≠ none := indexed_resource.find_ne_none_of_zero ht zero
  obtain ⟨⟨u, d⟩, found⟩ := Option.ne_none_iff_exists'.mp result
  obtain ⟨rfl, assigned⟩ := h.exact_match u d found
  obtain ⟨-, ⟨-, first⟩ | ⟨inexact, -⟩⟩ := indexed_resource.find_some found
  · exact ⟨by simp [assigned], first t ht zero⟩
  · cases inexact

/-- If no label is at distance zero, one of the labels is as near as any. -/
theorem exists_least (hw : last_assigned calls w ≠ none)
    (nonzero : ∀ u, last_assigned calls u ≠ none → variance_metric v u ≠ 0) :
    ∃ u, last_assigned calls u ≠ none ∧
      ∀ c, last_assigned calls c ≠ none → variance_metric v u ≤ variance_metric v c := by
  let S : indexed_resource.Sorting (label_record Indices DataType error_context) := .preferring fun _ => false
  obtain ⟨t, ht, -⟩ := (last_assigned_ne_none S false).mp hw
  have result : ((run S false calls).find S v false).1 ≠ none := indexed_resource.find_ne_none ht
  obtain ⟨⟨u, d⟩, found⟩ := Option.ne_none_iff_exists'.mp result
  obtain ⟨⟨s, hs, rfl, -⟩, ⟨zero, -⟩ | ⟨-, least⟩⟩ := indexed_resource.find_some found
  · exact absurd zero (nonzero _ (assigned_of_mem hs))
  · refine ⟨_, assigned_of_mem hs, fun c hc => ?_⟩
    obtain ⟨a, ha, rfl⟩ := (last_assigned_ne_none S false).mp hc
    exact (least a ha).2

/-- A label that is as near as any can be found, so that it can be compared with the request if any can. -/
theorem comparable_of_least (h : ∀ S, LooksUp S dev_warn calls v)
    (nonzero : ∀ u, last_assigned calls u ≠ none → variance_metric v u ≠ 0) (hw : last_assigned calls w ≠ none)
    (least : ∀ c, last_assigned calls c ≠ none → variance_metric v w ≤ variance_metric v c)
    (some_near : ∃ u, last_assigned calls u ≠ none ∧ Comparable v u) : Comparable v w := by
  let S : indexed_resource.Sorting (label_record Indices DataType error_context) :=
    .preferring fun u => u.variances = w
  obtain ⟨t, ht, rfl⟩ := (last_assigned_ne_none S dev_warn).mp hw
  have found := indexed_resource.find_preferring ht (fun u hu => nonzero _ (assigned_of_mem hu))
    fun u hu => least _ (assigned_of_mem hu)
  obtain ⟨c, hc, near⟩ := some_near
  have nearest := ((h S).nearest _ _ found).2 c hc
  by_contra far
  rw [distance_of_not_comparable far, distance_of_comparable near] at nearest
  exact absurd nearest (by simp)

theorem separated_of_looksUp (h : ∀ S, LooksUp S dev_warn calls v) : Separated calls v where
  behind w hw far zero := by
    obtain ⟨there, le⟩ := (h (.preferring fun _ => false)).le_of_zero hw zero
    refine ⟨there, lt_of_le_of_ne le ?_⟩
    rintro rfl
    exact far (comparable_self v)
  nearer := by
    intro some_near w hw far nonzero
    by_cases zero : ∃ u, last_assigned calls u ≠ none ∧ variance_metric v u = 0
    · obtain ⟨u, hu, zero⟩ := zero
      obtain ⟨there, -⟩ := (h (.preferring fun _ => false)).le_of_zero hu zero
      refine ⟨v, there, comparable_self v, ?_⟩
      rw [variance_metric_self]
      exact UInt32.pos_iff_ne_zero.mpr nonzero
    · have none_zero : ∀ u, last_assigned calls u ≠ none → variance_metric v u ≠ 0 := fun u hu hzero =>
        zero ⟨u, hu, hzero⟩
      obtain ⟨u, hu, least⟩ := exists_least hw none_zero
      refine ⟨u, hu, comparable_of_least h none_zero hu least some_near, ?_⟩
      -- the other label would be as near as any, too
      by_contra not_nearer
      exact far (comparable_of_least h none_zero hw
        (fun c hc => UInt32.le_trans (UInt32.not_lt.mp not_nearer) (least c hc)) some_near)

/-- **Labels are found as they should be if those without a position are told apart**, whatever `std::sort` does with
labels at the same distance. -/
theorem looks_up_iff (dev_warn : Bool) (calls : List (Call Indices DataType error_context))
    (v : variance_list Indices) : (∀ S, LooksUp S dev_warn calls v) ↔ Separated calls v :=
  ⟨separated_of_looksUp, fun h _ => h.looksUp⟩

end Histories

/-- A label without a position is taken for an exact match with any position. -/
theorem label_without_position_found : ¬∀ (S : indexed_resource.Sorting (label_record 1 String ℕ))
    (calls : List (Call 1 String ℕ)) (v : variance_list 1), LooksUp S false calls v := by
  intro h
  have looks_up := h (.preferring fun _ => false) [.assign ⟨"label", 0⟩ ⟨[.none], rfl⟩] ⟨[.covariant], rfl⟩
  have found := looks_up.exact_match ⟨[.none], rfl⟩ ⟨"label", 0⟩ rfl
  exact absurd (congrArg Subtype.val found.1) (by decide)

end CppTransport.Translator.IndexedResource
