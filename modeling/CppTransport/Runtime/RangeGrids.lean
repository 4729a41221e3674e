import Mathlib.Algebra.Order.Field.Rat
import Mathlib.Data.List.Destutter
import Mathlib.Data.List.Sort
import Mathlib.Tactic.Linarith

/-!
# Grids of ranges

A range has a grid of points, which are spaced linearly or logarithmically, or are those of other ranges. A sum of
ranges is an aggregate of them, and when its left summand is an aggregate already then the other is added to it. The
points of a grid are sorted, and of neighbours that are nearly the same the second is removed.

## The model

The arithmetic is exact, and the power that logarithmic spacing takes is a parameter, which has no value where
`std::pow` is not a number. The second of two neighbours is compared with the last point that is kept, as `std::unique`
does; a comparison with zero on the left divides by zero, and fails. Extremes of aggregates are left out.

## What is proved

`not_sums`: no sum agrees with its step count, which is the number of points plus one. The rest is as it should be up
to the tolerance: `near_of_mem` and `near_of_mem_plus` say which points a sum has, `increasing_iff` that only zero can
be there twice, and `sameSums` that neither grouping nor order matter if points that are nearly the same are equal. The
order of the subranges of one aggregate never does (`get_grid_perm`).
-/

namespace CppTransport.Runtime.RangeGrids

/-! ### Grids -/

/-- The tolerance 1E-10. -/
def tol : ℚ := 1 / 10 ^ 10

/-- `DuplicateRemovalPredicate` -/
def near (a b : ℚ) : Bool := a ≠ 0 ∧ |(a - b) / a| < tol

/-- A point is kept after another. -/
abbrev Kept (a b : ℚ) : Prop := near a b = false

/-- `std::unique` -/
def unique (l : List ℚ) : List ℚ := l.destutter Kept

/-- `std::sort`, and then the duplicates are removed. -/
def tidy (l : List ℚ) : List ℚ := unique (l.insertionSort (· ≤ ·))

inductive spacing where
  | linear
  | log_bottom
  | log_top
deriving DecidableEq, Repr

structure basic_range where
  min : ℚ
  max : ℚ
  steps : ℕ
  type : spacing

section

variable (pow : ℚ → ℚ → Option ℚ)

namespace basic_range

variable (r : basic_range)

def populate_linear_grid : List ℚ :=
  if r.steps = 0 then [r.min]
  else (List.range (r.steps + 1)).map fun i => r.min + (i / r.steps) * (r.max - r.min)

/-- The powers of a base, with exponents from 0 to 1. -/
def powers (base : ℚ) : List ℚ := (List.range (r.steps + 1)).filterMap fun i => pow base (i / r.steps)

def populate_log_bottom_grid : List ℚ :=
  if r.steps = 0 then [r.min]
  else if r.max > 0 ∧ r.min > 0 then (r.powers pow (r.max / r.min)).map fun v => r.min * v
  else
    let shifted_max := r.max - (r.min - 1)
    (r.powers pow shifted_max).map fun v => r.min - 1 + v

def populate_log_top_grid : List ℚ :=
  if r.steps = 0 then [r.min]
  else if r.max > 0 ∧ r.min > 0 then (r.powers pow (r.max / r.min)).map fun v => r.max + r.min - r.min * v
  else
    let shifted_max := r.max - (r.min - 1)
    (r.powers pow shifted_max).map fun v => r.max + 1 - v

def populate_grid : List ℚ :=
  tidy (match r.type with
    | .linear => r.populate_linear_grid
    | .log_bottom => r.populate_log_bottom_grid pow
    | .log_top => r.populate_log_top_grid pow)

end basic_range

/-- A range: a basic one or an aggregate. -/
inductive range where
  | basic (r : basic_range)
  | aggregate (subrange_list : List range)

namespace range

mutual

def get_grid : range → List ℚ
  | basic r => r.populate_grid pow
  | aggregate subrange_list => tidy (splice subrange_list)

/-- The grids of all subranges, one after the other. -/
def splice : List range → List ℚ
  | [] => []
  | s :: subrange_list => get_grid s ++ splice subrange_list

end

/-- The step count that a range reports, an unsigned number. -/
def get_steps : range → ℕ
  | basic r => r.steps
  | aggregate subrange_list => ((get_grid pow (aggregate subrange_list)).length + 1) % 2 ^ 32

/-- `operator+`, for an aggregate on the left and for any range. -/
def plus : range → range → range
  | aggregate subrange_list, rhs => aggregate (subrange_list ++ [rhs])
  | basic r, rhs => aggregate [basic r, rhs]

end range

end

/-! ### Removing duplicates -/

/-- A point is in a list up to the tolerance. -/
def Near (l : List ℚ) (b : ℚ) : Prop := ∃ a ∈ l, a = b ∨ near a b = true

variable {l m : List ℚ} {a b : ℚ}

theorem near_self : near a a = true ↔ a ≠ 0 := by
  simp [near, tol]

theorem near_zero (a : ℚ) : near a 0 = false := by
  by_cases ha : a = 0
  · simp [near, ha]
  · simp [near, ha, tol]
    norm_num

theorem Near.of_mem (h : b ∈ l) : Near l b := ⟨b, h, .inl rfl⟩

theorem near_cons (h : Near l b) (a : ℚ) : Near (a :: l) b := by
  obtain ⟨c, hc, hb⟩ := h
  exact ⟨c, List.mem_cons_of_mem a hc, hb⟩

/-- A point that is removed is nearly the same as the last that has been kept. -/
theorem near_destutter' (h : b ∈ a :: l) : Near (l.destutter' Kept a) b := by
  induction l generalizing a with
  | nil => exact .of_mem h
  | cons c l ih =>
    by_cases hac : Kept a c
    · rw [List.destutter'_cons_pos _ hac]
      rcases List.mem_cons.mp h with rfl | h
      · exact .of_mem List.mem_cons_self
      · exact near_cons (ih h) a
    · rw [List.destutter'_cons_neg _ hac]
      rcases List.mem_cons.mp h with rfl | h
      · exact ih List.mem_cons_self
      · rcases List.mem_cons.mp h with rfl | h
        · exact ⟨a, List.mem_destutter' _ _ a, .inr (by simpa using hac)⟩
        · exact ih (List.mem_cons_of_mem a h)

theorem near_unique (h : b ∈ l) : Near (unique l) b := by
  cases l with
  | nil => simp at h
  | cons a l => exact near_destutter' h

/-- Zero is never removed. -/
theorem count_zero_destutter' : (l.destutter' Kept a).count 0 = (a :: l).count 0 := by
  induction l generalizing a with
  | nil => rfl
  | cons c l ih =>
    by_cases hac : Kept a c
    · rw [List.destutter'_cons_pos _ hac, List.count_cons, ih, List.count_cons (a := 0) (b := a)]
    · have hc : c ≠ 0 := by
        rintro rfl
        exact hac (near_zero a)
      rw [List.destutter'_cons_neg _ hac, ih]
      simp [List.count_cons, hc]

theorem count_zero_unique (l : List ℚ) : (unique l).count 0 = l.count 0 := by
  cases l with
  | nil => rfl
  | cons a l => exact count_zero_destutter'

theorem near_tidy (h : b ∈ l) : Near (tidy l) b := near_unique ((List.mem_insertionSort _).mpr h)

theorem mem_of_tidy (h : a ∈ tidy l) : a ∈ l :=
  (List.mem_insertionSort _).mp ((List.destutter_sublist _ _).subset h)

theorem count_zero_tidy (l : List ℚ) : (tidy l).count 0 = l.count 0 := by
  rw [tidy, count_zero_unique, (List.perm_insertionSort _ l).count_eq]

/-- The points increase, except that zero may be there more than once. -/
theorem pairwise_tidy (l : List ℚ) : (tidy l).Pairwise fun a b => a < b ∨ a = 0 ∧ b = 0 := by
  have hle : (tidy l).Pairwise (· ≤ ·) := (List.pairwise_insertionSort _ l).sublist (List.destutter_sublist _ _)
  have hchain : (tidy l).IsChain Kept := List.isChain_destutter _ _
  have hstep : (tidy l).IsChain fun a b => a < b ∨ a = 0 ∧ b = 0 := by
    refine List.isChain_iff_getElem.mpr fun i hi => ?_
    rcases (hle.isChain.getElem i hi).lt_or_eq with hlt | heq
    · exact .inl hlt
    · have hnear : near (tidy l)[i] (tidy l)[i + 1] = false := hchain.getElem i hi
      rw [← heq, ← Bool.not_eq_true, near_self, not_not] at hnear
      exact .inr ⟨hnear, heq ▸ hnear⟩
  have htrans : IsTrans ℚ fun a b => a < b ∨ a = 0 ∧ b = 0 := by
    refine ⟨fun a b c hab hbc => ?_⟩
    rcases hab with hab | ⟨rfl, rfl⟩
    · rcases hbc with hbc | ⟨rfl, rfl⟩
      · exact .inl (hab.trans hbc)
      · exact .inl hab
    · exact hbc
  exact List.isChain_iff_pairwise.mp hstep

/-- The points increase just if zero is there once at most. -/
theorem increasing_tidy_iff : (tidy l).Pairwise (· < ·) ↔ l.count 0 ≤ 1 := by
  rw [← count_zero_tidy]
  constructor
  · intro h
    exact List.nodup_iff_count_le_one.mp (h.imp fun hab => hab.ne) 0
  · intro h
    refine List.pairwise_iff_forall_sublist.mpr fun {a b} hab => ?_
    rcases List.pairwise_iff_forall_sublist.mp (pairwise_tidy l) hab with hlt | ⟨rfl, rfl⟩
    · exact hlt
    · have hcount := hab.count_le 0
      simp only [List.count_cons_self, List.count_nil] at hcount
      omega

/-! ### Points that are the same when they are nearly the same -/

/-- Points that are nearly the same are equal. -/
def Apart (l : List ℚ) : Prop := ∀ a ∈ l, ∀ b ∈ l, near a b = true → a = b

theorem Apart.mem_tidy (h : Apart l) : a ∈ tidy l ↔ a ∈ l := by
  refine ⟨mem_of_tidy, fun ha => ?_⟩
  obtain ⟨b, hb, rfl | hnear⟩ := near_tidy ha
  · exact hb
  · rw [← h b (mem_of_tidy hb) a ha hnear]
    exact hb

theorem Apart.append (h : Apart (l ++ m)) : Apart l ∧ Apart m :=
  ⟨fun a ha b hb => h a (List.mem_append_left m ha) b (List.mem_append_left m hb),
   fun a ha b hb => h a (List.mem_append_right l ha) b (List.mem_append_right l hb)⟩

theorem count_tidy_le (ha : a ≠ 0) : (tidy l).count a ≤ 1 := by
  by_contra hcount
  have htwice : [a, a].Sublist (tidy l) := List.replicate_sublist_iff.mpr (by omega : 2 ≤ (tidy l).count a)
  rcases List.pairwise_iff_forall_sublist.mp (pairwise_tidy l) htwice with hlt | ⟨hzero, -⟩
  · exact lt_irrefl a hlt
  · exact ha hzero

/-- Two lists have the same points, and zero as often. -/
def SamePoints (l m : List ℚ) : Prop := (∀ a, a ∈ l ↔ a ∈ m) ∧ l.count 0 = m.count 0

theorem SamePoints.symm (h : SamePoints l m) : SamePoints m l := ⟨fun a => (h.1 a).symm, h.2.symm⟩

theorem SamePoints.append {l' m' : List ℚ} (h : SamePoints l m) (h' : SamePoints l' m') :
    SamePoints (l ++ l') (m ++ m') := by
  refine ⟨fun a => ?_, ?_⟩
  · rw [List.mem_append, List.mem_append, h.1, h'.1]
  · rw [List.count_append, List.count_append, h.2, h'.2]

theorem Apart.congr (hl : Apart l) (h : SamePoints l m) : Apart m :=
  fun a ha b hb => hl a ((h.1 a).mpr ha) b ((h.1 b).mpr hb)

/-- The result depends only on which points there are, and on how often zero is there. -/
theorem tidy_congr (hl : Apart l) (h : SamePoints l m) : tidy l = tidy m := by
  have hm : Apart m := hl.congr h
  have hperm : (tidy l).Perm (tidy m) := by
    refine List.perm_iff_count.mpr fun a => ?_
    by_cases ha : a = 0
    · rw [ha, count_zero_tidy, count_zero_tidy, h.2]
    · have hpos : 0 < (tidy l).count a ↔ 0 < (tidy m).count a := by
        rw [List.count_pos_iff, List.count_pos_iff, hl.mem_tidy, hm.mem_tidy, h.1]
      have hl1 := count_tidy_le (l := l) ha
      have hm1 := count_tidy_le (l := m) ha
      omega
  have hle : ∀ l : List ℚ, (tidy l).Pairwise (· ≤ ·) := fun l =>
    (List.pairwise_insertionSort _ l).sublist (List.destutter_sublist _ _)
  exact hperm.eq_of_pairwise' (hle l) (hle m)

/-! ### Sums -/

namespace range

variable (pow : ℚ → ℚ → Option ℚ)

/-- The grid of a sum of two ranges is what is claimed of it. -/
structure IsSum (lhs rhs : range) : Prop where
  increasing : ((plus lhs rhs).get_grid pow).Pairwise (· < ·)
  contains : ∀ s ∈ [lhs, rhs], ∀ b ∈ s.get_grid pow, Near ((plus lhs rhs).get_grid pow) b
  only : ∀ a ∈ (plus lhs rhs).get_grid pow, ∃ s ∈ [lhs, rhs], Near (s.get_grid pow) a
  steps : (plus lhs rhs).get_steps pow + 1 = ((plus lhs rhs).get_grid pow).length

/-- The grids of three ranges that are added in any order and grouping are the same. -/
structure SameSums (A B C : range) : Prop where
  grouping : (plus A (plus B C)).get_grid pow = (plus (plus A B) C).get_grid pow
  order : (plus (plus B A) C).get_grid pow = (plus (plus A B) C).get_grid pow

variable {pow} {A B C lhs rhs : range} {subrange_list : List range}

theorem get_grid_aggregate : (aggregate subrange_list).get_grid pow = tidy (splice pow subrange_list) := by
  rw [get_grid]

theorem get_grid_basic {r : basic_range} : (basic r).get_grid pow = r.populate_grid pow := by
  rw [get_grid]

theorem splice_cons {s : range} : splice pow (s :: subrange_list) = s.get_grid pow ++ splice pow subrange_list := by
  rw [splice]

theorem splice_append {l : List range} :
    splice pow (subrange_list ++ l) = splice pow subrange_list ++ splice pow l := by
  induction subrange_list with
  | nil => rw [splice, List.nil_append, List.nil_append]
  | cons s subrange_list ih => rw [List.cons_append, splice_cons, splice_cons, ih, List.append_assoc]

/-- What a sum splices: the grids that its left summand splices, if that is an aggregate, and the right one's. -/
def summands (pow : ℚ → ℚ → Option ℚ) : range → range → List ℚ
  | aggregate subrange_list, rhs => splice pow subrange_list ++ rhs.get_grid pow
  | basic r, rhs => r.populate_grid pow ++ rhs.get_grid pow

theorem plus_eq_aggregate (lhs rhs : range) : ∃ subrange_list, plus lhs rhs = aggregate subrange_list := by
  cases lhs with
  | basic r => exact ⟨_, rfl⟩
  | aggregate subrange_list => exact ⟨_, rfl⟩

theorem get_grid_plus : (plus lhs rhs).get_grid pow = tidy (summands pow lhs rhs) := by
  cases lhs with
  | basic r => simp [plus, summands, get_grid_aggregate, get_grid_basic, splice]
  | aggregate subrange_list => simp [plus, summands, get_grid_aggregate, splice_append, splice]

/-- The points of the summands are those of the sum, up to the tolerance. -/
theorem near_of_mem (h : b ∈ lhs.get_grid pow ∨ b ∈ rhs.get_grid pow) : Near ((plus lhs rhs).get_grid pow) b := by
  rw [get_grid_plus]
  refine near_tidy ?_
  cases lhs with
  | basic r =>
    rw [get_grid_basic] at h
    exact List.mem_append.mpr h
  | aggregate subrange_list =>
    rw [get_grid_aggregate] at h
    exact List.mem_append.mpr (h.imp_left mem_of_tidy)

/-- The points of the sum are those of the summands, up to the tolerance. -/
theorem near_of_mem_plus (h : a ∈ (plus lhs rhs).get_grid pow) :
    Near (lhs.get_grid pow) a ∨ Near (rhs.get_grid pow) a := by
  rw [get_grid_plus] at h
  cases lhs with
  | basic r =>
    rw [get_grid_basic]
    exact (List.mem_append.mp (mem_of_tidy h)).imp .of_mem .of_mem
  | aggregate subrange_list =>
    rw [get_grid_aggregate]
    exact (List.mem_append.mp (mem_of_tidy h)).imp near_tidy .of_mem

/-- The points of a sum increase just if zero is there once at most among those spliced. -/
theorem increasing_iff : ((plus lhs rhs).get_grid pow).Pairwise (· < ·) ↔ (summands pow lhs rhs).count 0 ≤ 1 := by
  rw [get_grid_plus, increasing_tidy_iff]

/-- The step count of an aggregate never is one less than the number of its points. -/
theorem get_steps_ne :
    (aggregate subrange_list).get_steps pow + 1 ≠ ((aggregate subrange_list).get_grid pow).length := by
  rw [get_steps]
  omega

/-- The order of the subranges of an aggregate does not matter. -/
theorem get_grid_perm {l : List range} (h : subrange_list.Perm l) :
    (aggregate subrange_list).get_grid pow = (aggregate l).get_grid pow := by
  have hsplice : (splice pow subrange_list).Perm (splice pow l) := by
    induction h with
    | nil => exact .refl _
    | cons s _ ih =>
      rw [splice_cons, splice_cons]
      exact ih.append_left _
    | swap s t l =>
      simp only [splice_cons, ← List.append_assoc]
      exact (List.perm_append_comm).append_right _
    | trans _ _ ih ih' => exact ih.trans ih'
  have hsort : (splice pow subrange_list).insertionSort (· ≤ ·) = (splice pow l).insertionSort (· ≤ ·) := by
    refine List.Perm.eq_of_pairwise' (List.pairwise_insertionSort _ _) (List.pairwise_insertionSort _ _) ?_
    exact ((List.perm_insertionSort _ _).trans hsplice).trans (List.perm_insertionSort _ _).symm
  rw [get_grid_aggregate, get_grid_aggregate, tidy, tidy, hsort]

/-! ### Grouping -/

mutual

/-- The points of the basic ranges of a range. -/
def points (pow : ℚ → ℚ → Option ℚ) : range → List ℚ
  | basic r => r.populate_grid pow
  | aggregate subrange_list => all_points pow subrange_list

def all_points (pow : ℚ → ℚ → Option ℚ) : List range → List ℚ
  | [] => []
  | s :: subrange_list => points pow s ++ all_points pow subrange_list

end

mutual

/-- No point of a basic range is lost, at any depth. -/
theorem samePoints_get_grid : (r : range) → Apart (points pow r) → SamePoints (r.get_grid pow) (points pow r)
  | basic r, _ => by
    rw [get_grid_basic, points]
    exact ⟨fun _ => Iff.rfl, rfl⟩
  | aggregate subrange_list, h => by
    rw [points] at h
    have hsplice := samePoints_splice subrange_list h
    have hapart : Apart (splice pow subrange_list) := h.congr hsplice.symm
    rw [get_grid_aggregate, points]
    refine ⟨fun a => ?_, ?_⟩
    · rw [hapart.mem_tidy, hsplice.1]
    · rw [count_zero_tidy, hsplice.2]

theorem samePoints_splice :
    (l : List range) → Apart (all_points pow l) → SamePoints (splice pow l) (all_points pow l)
  | [], _ => by
    rw [splice, all_points]
    exact ⟨fun _ => Iff.rfl, rfl⟩
  | s :: l, h => by
    rw [all_points] at h
    rw [splice_cons, all_points]
    exact (samePoints_get_grid s h.append.1).append (samePoints_splice l h.append.2)

end

/-- The grid of an aggregate depends only on the points of the basic ranges in it. -/
theorem get_grid_eq_tidy (h : Apart (all_points pow subrange_list)) :
    (aggregate subrange_list).get_grid pow = tidy (all_points pow subrange_list) := by
  have hsplice := samePoints_splice subrange_list h
  rw [get_grid_aggregate, tidy_congr h hsplice.symm]

theorem all_points_append {l : List range} :
    all_points pow (subrange_list ++ l) = all_points pow subrange_list ++ all_points pow l := by
  induction subrange_list with
  | nil => rw [all_points, List.nil_append, List.nil_append]
  | cons s subrange_list ih => rw [List.cons_append, all_points, all_points, ih, List.append_assoc]

theorem points_plus (lhs rhs : range) : points pow (plus lhs rhs) = points pow lhs ++ points pow rhs := by
  cases lhs with
  | basic r => simp [plus, points, all_points]
  | aggregate subrange_list => simp [plus, points, all_points, all_points_append]

theorem get_grid_plus_eq_tidy (h : Apart (points pow lhs ++ points pow rhs)) :
    (plus lhs rhs).get_grid pow = tidy (points pow lhs ++ points pow rhs) := by
  rw [← points_plus] at h ⊢
  cases lhs with
  | basic r => exact get_grid_eq_tidy h
  | aggregate subrange_list => exact get_grid_eq_tidy h

/-- Neither grouping nor order matter where points that are nearly the same are equal. -/
theorem sameSums (h : Apart (points pow A ++ points pow B ++ points pow C)) : SameSums pow A B C := by
  have hgroup : SamePoints (points pow A ++ points pow B ++ points pow C)
      (points pow A ++ (points pow B ++ points pow C)) := ⟨by simp, by simp⟩
  have horder : SamePoints (points pow A ++ points pow B ++ points pow C)
      (points pow B ++ points pow A ++ points pow C) := ⟨by simp [or_left_comm], by simp [Nat.add_left_comm]⟩
  have hsum : (plus (plus A B) C).get_grid pow = tidy (points pow A ++ points pow B ++ points pow C) := by
    rw [get_grid_plus_eq_tidy (by rwa [points_plus]), points_plus]
  refine ⟨?_, ?_⟩
  · rw [hsum, get_grid_plus_eq_tidy, points_plus, tidy_congr h hgroup]
    rw [points_plus]
    exact h.congr hgroup
  · rw [hsum, get_grid_plus_eq_tidy, points_plus, tidy_congr h horder]
    rw [points_plus]
    exact h.congr horder

/-- Powers with exponents 0 and 1. -/
def ends (base exponent : ℚ) : Option ℚ := if exponent = 0 then some 1 else if exponent = 1 then some base else none

/-- Two unit steps, a sum of two others and a unit step between them. -/
theorem sameSums_of_six_points :
    let linear (min max : ℚ) := basic ⟨min, max, 1, .linear⟩
    SameSums ends (linear 0 1) (plus (linear 2 3) (linear 4 5)) (linear 1 2) := by
  intro linear
  have hapart : ∀ a ∈ points ends (linear 0 1) ++ points ends (plus (linear 2 3) (linear 4 5)) ++
      points ends (linear 1 2), ∀ b ∈ points ends (linear 0 1) ++ points ends (plus (linear 2 3) (linear 4 5)) ++
      points ends (linear 1 2), near a b = true → a = b := by decide +kernel
  exact sameSums hapart

/-- The grouping matters where a point is nearly the same as two that are not nearly the same. -/
example :
    let point (a : ℚ) := basic ⟨a, a, 0, .linear⟩
    ¬ SameSums ends (point 1) (point (1 + 9 / 10 ^ 11)) (point (1 + 18 / 10 ^ 11)) := by
  intro point h
  exact absurd h.grouping (by decide +kernel)

/-! ### What is claimed -/

/-- What is claimed of all ranges: two have a sum, and so have three, whose order and grouping do not matter. -/
structure Sums (pow : ℚ → ℚ → Option ℚ) (A B C : range) : Prop where
  pair : IsSum pow A B
  triple : IsSum pow (plus A B) C
  same : SameSums pow A B C

theorem not_sums (pow : ℚ → ℚ → Option ℚ) (A B C : range) : ¬ Sums pow A B C := by
  intro h
  obtain ⟨subrange_list, hplus⟩ := plus_eq_aggregate A B
  have hsteps := h.pair.steps
  rw [hplus] at hsteps
  exact get_steps_ne hsteps

/-- The step count of four points is 5. -/
theorem step_count_of_four_points :
    let linear (min max : ℚ) := basic ⟨min, max, 1, .linear⟩
    (plus (linear 0 1) (linear 2 3)).get_grid ends = [0, 1, 2, 3] ∧
      (plus (linear 0 1) (linear 2 3)).get_steps ends = 5 ∧ ¬ Sums ends (linear 0 1) (linear 2 3) (linear 4 5) := by
  intro linear
  have hgrid : (plus (linear 0 1) (linear 2 3)).get_grid ends = [0, 1, 2, 3] := by decide +kernel
  have hsteps : (plus (linear 0 1) (linear 2 3)).get_steps ends = 5 := by decide +kernel
  refine ⟨hgrid, hsteps, fun h => ?_⟩
  have hcount := h.pair.steps
  rw [hgrid, hsteps] at hcount
  simp at hcount

end range

end CppTransport.Runtime.RangeGrids
