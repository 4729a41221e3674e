import CppTransport.Library.Iteration
import CppTransport.Library.RelatedLists
import Mathlib.Algebra.Order.Field.Basic
import Mathlib.Algebra.Order.AbsoluteValue.Basic
import Mathlib.Algebra.Order.BigOperators.Group.List
import Mathlib.Data.Rat.Floor
import Mathlib.Tactic.Linarith

/-!
# Merging the axes of data lines

A line collection plots several data lines on one axis. Lines that cannot be plotted under its settings are left out;
the points of the others, sorted by `x`, are taken from the right: the largest of the last points of all lines is the
next value of the axis, and every line whose last point is near enough gives this point to it, the other lines an empty
entry.

## The model

Numbers are those of an ordered field, of which `Finite.max` is the largest `double`. Arithmetic is exact, but `near` follows
the source in that a quotient by zero is near nothing: zero by zero compares as false, and anything else by zero is
infinite. Warnings in the log are left out.

## What is proved

* `Placed`: an output line has the points of a line on the axis, each once and in order;
* `advance_inv`: a round keeps what has been placed; `left_emplace_lt`: and it takes a point, unless the axis value is
  zero;
* `merges_iff`: the merge ends and loses nothing exactly if no line to be plotted has a point at zero, and no points are
  left over at `-max`, which the source takes for the sign that there are none.
-/

set_option linter.unusedSectionVars false

namespace CppTransport.Runtime.LineCollection

open Library

variable {K : Type} [Field K] [LinearOrder K] [IsStrictOrderedRing K]

/-! ### Lines -/

inductive value_type where
  | field | momentum | correlation_function | fNL | r | spectral_index | dimensionless | mass | time | steps
deriving DecidableEq

inductive data_line_type where
  | scattered_data | continuous_data
deriving DecidableEq

/-- The finite numbers of a type: those up to `max` in absolute value. -/
structure Finite (K : Type) [Field K] [LinearOrder K] where
  max : K
  pos : 0 < max

/-- A line of data, with points `x` and `y` as `zip` leaves them. -/
structure data_line {K : Type} [Field K] [LinearOrder K] (d : Finite K) where
  LaTeX_label : String
  non_LaTeX_label : String
  y_type : value_type
  data_type : data_line_type
  data : List (K × K)
  /-- The axis is in ascending order. -/
  sorted : data.Pairwise fun p q => p.1 ≤ q.1
  /-- No value of the axis is infinite. -/
  finite : ∀ p ∈ data, |p.1| ≤ d.max

/-- A line of output: an entry for each value of the axis. -/
structure output_line (K : Type) where
  label : String
  value : value_type
  data_type : data_line_type
  values : List (Option K)

/-- The settings of a `line_collection` that concern its axes. -/
structure line_collection where
  log_x : Bool
  log_y : Bool
  abs_y : Bool
  use_LaTeX : Bool
deriving DecidableEq

/-- `CPPTRANSPORT_AXIS_MERGE_TOLERANCE`. -/
def tolerance : K := 1 / 10 ^ 8

/-- `std::abs((x - a)/x) < CPPTRANSPORT_AXIS_MERGE_TOLERANCE`. -/
def near (x a : K) : Bool := x ≠ 0 ∧ |(x - a) / x| < tolerance

/-- The value that is shown of a point. -/
def shown (absy : Bool) (y : K) : K := if absy then |y| else y

/-- A line that is being merged: the points that are left, and what has been written. -/
structure Strand (K : Type) where
  points : List (K × K)
  absy : Bool
  output : output_line K

/-- What the loop works on. -/
structure State (K : Type) where
  axis : List K
  strands : List (Strand K)
  finished : Bool

namespace line_collection

variable (c : line_collection)

/-- The loop over `y` values, which sets `need_abs_y` and `nonzero_values` and stops once both are set. -/
def scan_y : List (K × K) → Bool × Bool → Bool × Bool
  | [], flags => flags
  | u :: points, (need_abs_y, nonzero_values) =>
    if !need_abs_y || !nonzero_values then
      scan_y points (need_abs_y || decide (u.2 ≤ 0), nonzero_values || (decide (0 < u.2) || decide (u.2 < 0)))
    else (need_abs_y, nonzero_values)

/-- The loop over `x` values. -/
def scan_x : List (K × K) → Bool → Bool
  | [], nonzero_axis => nonzero_axis
  | u :: points, nonzero_axis => if nonzero_axis then scan_x points (!decide (u.1 ≤ 0)) else false

variable {d : Finite K}

/-- A line that can be plotted, ready to be merged. -/
def strand (line : data_line d) : Option (Strand K) :=
  let flags := if c.log_y then scan_y line.data (false, false) else (false, false)
  let nonzero_axis := if c.log_x then scan_x line.data true else true
  if (!c.log_x || (c.log_x && nonzero_axis)) && (!c.log_y || (c.log_y && flags.2)) then
    some
      { points := line.data
        absy := c.abs_y || flags.1
        output :=
          { label := if c.use_LaTeX then line.LaTeX_label else line.non_LaTeX_label
            value := line.y_type
            data_type := line.data_type
            values := [] } }
  else none

end line_collection

/-! ### Rounds -/

namespace Strand

/-- An axis value is added: the last point, if it is near enough, or an empty entry. -/
def emplace (a : K) (s : Strand K) : Strand K :=
  match s.points.getLast? with
  | some point =>
    if near point.1 a then
      { s with
        points := s.points.dropLast
        output := { s.output with values := some (shown s.absy point.2) :: s.output.values } }
    else { s with output := { s.output with values := none :: s.output.values } }
  | none => { s with output := { s.output with values := none :: s.output.values } }

end Strand

/-- The largest of the last points. -/
def next_axis_point (d : Finite K) (strands : List (Strand K)) : K :=
  strands.foldl (fun a s =>
    match s.points.getLast? with
    | some point => if point.1 > a then point.1 else a
    | none => a) (-d.max)

namespace State

/-- One round of the loop. -/
def advance (d : Finite K) (s : State K) : State K :=
  if s.strands.all fun strand => strand.points.isEmpty then { s with finished := true }
  else
    let a := next_axis_point d s.strands
    if a ≠ -d.max then
      { s with
        axis := a :: s.axis
        strands := s.strands.map (Strand.emplace a) }
    else { s with finished := true }

def Done (s : State K) : Prop := s.finished = true

instance : DecidablePred (Done (K := K)) := fun s => inferInstanceAs (Decidable (s.finished = true))

/-- The body of the loop. -/
def round (d : Finite K) : EStateM PEmpty (State K) PUnit := fun s => .ok ⟨⟩ (s.advance d)

end State

/-- `merge_lines`, up to its loop. -/
def line_collection.start (c : line_collection) {d : Finite K} (input : List (data_line d)) : State K where
  axis := []
  strands := input.filterMap c.strand
  finished := false

/-- `merge_lines` returns. -/
def line_collection.Merges (c : line_collection) {d : Finite K} (input : List (data_line d)) (axis : List K)
    (output : List (output_line K)) : Prop :=
  ∃ s, Ends State.Done (State.round d) (c.start input) (.ok ⟨⟩ s) ∧ s.axis = axis ∧
    s.strands.map Strand.output = output

/-! ### What is asked -/

/-- The line can be plotted: no points at or below zero on a logarithmic `x` axis, and something to show on a
logarithmic `y` axis. -/
def Plottable (c : line_collection) {d : Finite K} (line : data_line d) : Prop :=
  (c.log_x = true → ∀ p ∈ line.data, 0 < p.1) ∧ (c.log_y = true → ∃ p ∈ line.data, p.2 ≠ 0)

instance (c : line_collection) {d : Finite K} (line : data_line d) : Decidable (Plottable c line) :=
  inferInstanceAs (Decidable (_ ∧ _))

/-- Absolute values are required: they are asked for, or a logarithmic axis could not show all values. -/
def Absolute (c : line_collection) {d : Finite K} (line : data_line d) : Prop :=
  c.abs_y = true ∨ c.log_y = true ∧ ∃ p ∈ line.data, p.2 ≤ 0

instance (c : line_collection) {d : Finite K} (line : data_line d) : Decidable (Absolute c line) :=
  inferInstanceAs (Decidable (_ ∨ _))

/-- The tolerance within which points stand at an axis value, relative to their own `x`. -/
def Within (x a : K) : Prop := |x - a| ≤ tolerance * |x|

/-- An output line has an entry for each axis value; those that are present are the points, in order, each at an axis
value within the tolerance of its `x`. -/
inductive Placed (absy : Bool) : List K → List (Option K) → List (K × K) → Prop where
  | nil : Placed absy [] [] []
  | empty {a : K} {axis : List K} {values : List (Option K)} {points : List (K × K)} :
    Placed absy axis values points → Placed absy (a :: axis) (none :: values) points
  | point {a : K} {p : K × K} {axis : List K} {values : List (Option K)} {points : List (K × K)}
      (within : Within p.1 a) :
    Placed absy axis values points → Placed absy (a :: axis) (some (shown absy p.2) :: values) (p :: points)

/-- What an output line has of its data line, of which these points have been placed. -/
structure Shows (c : line_collection) {d : Finite K} (axis : List K) (line : data_line d) (points : List (K × K))
    (output : output_line K) : Prop where
  label : output.label = if c.use_LaTeX then line.LaTeX_label else line.non_LaTeX_label
  value : output.value = line.y_type
  data_type : output.data_type = line.data_type
  placed : Placed (decide (Absolute c line)) axis output.values points

/-- The lines that can be plotted are merged, without loss. -/
structure Lossless (c : line_collection) {d : Finite K} (input : List (data_line d)) (axis : List K)
    (output : List (output_line K)) : Prop where
  sorted : axis.Pairwise (· ≤ ·)
  lines : List.Forall₂ (fun line out => Shows c axis line line.data out) (input.filter fun line => Plottable c line) output

/-! ### The first loop -/

section Scan

open line_collection

theorem decide_exists_cons (P : K × K → Prop) [DecidablePred P] (u : K × K) (points : List (K × K)) :
    decide (∃ p ∈ u :: points, P p) = (decide (P u) || decide (∃ p ∈ points, P p)) := by
  rw [← Bool.decide_or, decide_eq_decide]
  simp

theorem scan_y_eq (points : List (K × K)) (need nonzero : Bool) : scan_y points (need, nonzero) =
    (need || decide (∃ p ∈ points, p.2 ≤ 0), nonzero || decide (∃ p ∈ points, p.2 ≠ 0)) := by
  induction points generalizing need nonzero with
  | nil => simp [scan_y]
  | cons u points ih =>
    have ne : (decide (0 < u.2) || decide (u.2 < 0)) = decide (u.2 ≠ 0) := by
      rw [← Bool.decide_or, decide_eq_decide, ne_comm.symm, lt_or_lt_iff_ne, ne_comm]
    rw [scan_y, ih, ne, decide_exists_cons, decide_exists_cons]
    cases need <;> cases nonzero <;> simp

theorem scan_x_eq (points : List (K × K)) (nonzero : Bool) :
    scan_x points nonzero = (nonzero && decide (∀ p ∈ points, 0 < p.1)) := by
  induction points generalizing nonzero with
  | nil => simp [scan_x]
  | cons u points ih =>
    have first : decide (∀ p ∈ u :: points, 0 < p.1) = (!decide (u.1 ≤ 0) && decide (∀ p ∈ points, 0 < p.1)) := by
      rw [← decide_not, ← Bool.decide_and, decide_eq_decide, List.forall_mem_cons, not_le]
    rw [scan_x, ih, first]
    cases nonzero <;> simp

variable {c : line_collection} {d : Finite K} {line : data_line d}

/-- **Lines are kept** if they can be plotted. -/
theorem strand_eq : c.strand line =
    if Plottable c line then
      some ⟨line.data, decide (Absolute c line),
        ⟨if c.use_LaTeX then line.LaTeX_label else line.non_LaTeX_label, line.y_type, line.data_type, []⟩⟩
    else none := by
  have plottable : ((!c.log_x || (c.log_x && if c.log_x then scan_x line.data true else true)) &&
      (!c.log_y || (c.log_y && (if c.log_y then scan_y line.data (false, false) else (false, false)).2))) = true ↔
      Plottable c line := by
    rw [scan_x_eq, scan_y_eq]
    unfold Plottable
    cases c.log_x <;> cases c.log_y <;> simp
  have absolute : (c.abs_y || (if c.log_y then scan_y line.data (false, false) else (false, false)).1) =
      decide (Absolute c line) := by
    rw [Bool.eq_iff_iff, decide_eq_true_iff, scan_y_eq]
    unfold Absolute
    cases c.abs_y <;> cases c.log_y <;> simp
  simp only [strand, plottable, absolute]

end Scan

/-! ### Rounds -/

section Rounds

variable {d : Finite K}

theorem near_self {x : K} (h : x ≠ 0) : near x x = true := by
  have positive : (0 : K) < tolerance := by
    rw [tolerance]
    positivity
  simpa [near, h] using positive

theorem within_of_near {x a : K} (h : near x a = true) : Within x a := by
  obtain ⟨nonzero, small⟩ : x ≠ 0 ∧ |(x - a) / x| < tolerance := by simpa [near] using h
  rw [abs_div, div_lt_iff₀ (abs_pos.mpr nonzero)] at small
  exact small.le

theorem not_near_of_zero (a : K) : near 0 a = false := by simp [near]

/-- The search for the next axis value goes through the last points. -/
theorem next_axis_point_spec (strands : List (Strand K)) (a : K) :
    let next := strands.foldl (fun a s =>
      match s.points.getLast? with
      | some point => if point.1 > a then point.1 else a
      | none => a) a
    a ≤ next ∧ (∀ s ∈ strands, ∀ p ∈ s.points.getLast?, p.1 ≤ next) ∧
      (next = a ∨ ∃ s ∈ strands, ∃ p ∈ s.points.getLast?, p.1 = next) := by
  induction strands generalizing a with
  | nil => simp
  | cons s strands ih =>
    rw [List.foldl_cons]
    cases last : s.points.getLast? with
    | none =>
      obtain ⟨above, largest, found⟩ := ih a
      refine ⟨above, ?_, found.imp_right ?_⟩
      · simpa [last] using largest
      · rintro ⟨s', hs', p, hp, h⟩
        exact ⟨s', List.mem_cons_of_mem _ hs', p, hp, h⟩
    | some p =>
      obtain ⟨above, largest, found⟩ := ih (if p.1 > a then p.1 else a)
      have here : p.1 ≤ if p.1 > a then p.1 else a := by split_ifs with h <;> [rfl; exact not_lt.mp h]
      have before : a ≤ if p.1 > a then p.1 else a := by split_ifs with h <;> [exact h.le; rfl]
      refine ⟨before.trans above, ?_, ?_⟩
      · refine List.forall_mem_cons.mpr ⟨fun q hq => ?_, largest⟩
        obtain rfl : p = q := by simpa [last] using hq
        exact here.trans above
      · rcases found with same | ⟨s', hs', q, hq, h⟩
        · by_cases h : p.1 > a
          · exact .inr ⟨s, List.mem_cons_self, p, last, by simpa [h] using same.symm⟩
          · exact .inl (by simpa [h] using same)
        · exact .inr ⟨s', List.mem_cons_of_mem _ hs', q, hq, h⟩

/-- A strand that goes on being merged: what has been placed, and what is left, make up the data line. -/
structure Follows (c : line_collection) (axis : List K) (line : data_line d) (s : Strand K) : Prop where
  absy : s.absy = decide (Absolute c line)
  shows : ∃ points, line.data = s.points ++ points ∧ Shows c axis line points s.output

/-- What holds in every round. -/
structure Inv (c : line_collection) (input : List (data_line d)) (s : State K) : Prop where
  sorted : s.axis.Pairwise (· ≤ ·)
  follows : List.Forall₂ (Follows c s.axis) (input.filter fun line => Plottable c line) s.strands
  /-- What is left is not to the right of the axis. -/
  left : ∀ strand ∈ s.strands, ∀ p ∈ strand.points, ∀ a ∈ s.axis, p.1 ≤ a

variable {c : line_collection} {input : List (data_line d)} {s s' : State K}

theorem inv_start : Inv c input (c.start input) := by
  refine ⟨.nil, ?_, fun _ _ _ _ _ h => by cases h⟩
  rw [line_collection.start]
  induction input with
  | nil => exact .nil
  | cons line input ih =>
    by_cases plottable : Plottable c line
    · rw [List.filter_cons_of_pos (by simpa using plottable), List.filterMap_cons, strand_eq, if_pos plottable]
      exact .cons ⟨rfl, [], by simp, ⟨rfl, rfl, rfl, .nil⟩⟩ ih
    · rw [List.filter_cons_of_neg (by simpa using plottable), List.filterMap_cons, strand_eq, if_neg plottable]
      exact ih

/-- What becomes of a strand: the last point is placed if it is near, and nothing otherwise. -/
theorem emplace_cases (strand : Strand K) (a : K) :
    (∃ before p, strand.points = before ++ [p] ∧ near p.1 a = true ∧ strand.emplace a =
      { strand with
        points := before
        output := { strand.output with values := some (shown strand.absy p.2) :: strand.output.values } }) ∨
    (∀ p ∈ strand.points.getLast?, near p.1 a = false) ∧ strand.emplace a =
      { strand with output := { strand.output with values := none :: strand.output.values } } := by
  unfold Strand.emplace
  cases last : strand.points.getLast? with
  | none => exact .inr ⟨fun p hp => (by cases hp), rfl⟩
  | some p =>
    obtain ⟨before, split⟩ := List.getLast?_eq_some_iff.mp last
    cases hnear : near p.1 a with
    | true =>
      refine .inl ⟨before, p, split, hnear, ?_⟩
      simp only [hnear, if_true, split, List.dropLast_concat]
    | false =>
      refine .inr ⟨fun q hq => ?_, ?_⟩
      · cases hq
        exact hnear
      · simp only [hnear, Bool.false_eq_true, if_false]

/-- **One strand**: an axis value is added. -/
theorem follows_emplace {axis : List K} {line : data_line d} {strand : Strand K} (h : Follows c axis line strand)
    (a : K) : Follows c (a :: axis) line (strand.emplace a) := by
  obtain ⟨absy, points, data, label, value, data_type, placed⟩ := h
  rcases emplace_cases strand a with ⟨before, p, split, hnear, eq⟩ | ⟨-, eq⟩
  · rw [eq]
    refine ⟨absy, p :: points, ?_, label, value, data_type, ?_⟩
    · rw [data, split, List.append_assoc]
      rfl
    · rw [absy]
      exact .point (within_of_near hnear) placed
  · rw [eq]
    exact ⟨absy, points, data, label, value, data_type, .empty placed⟩

/-- Points are only taken from the end. -/
theorem points_emplace_subset (strand : Strand K) (a : K) : (strand.emplace a).points ⊆ strand.points := by
  rcases emplace_cases strand a with ⟨before, p, split, -, eq⟩ | ⟨-, eq⟩
  · rw [eq, split]
    exact List.subset_append_left _ _
  · rw [eq]
    exact List.Subset.refl _

theorem length_emplace_le (strand : Strand K) (a : K) : (strand.emplace a).points.length ≤ strand.points.length := by
  rcases emplace_cases strand a with ⟨before, p, split, -, eq⟩ | ⟨-, eq⟩
  · rw [eq, split]
    simp
  · rw [eq]

/-- A point at zero is never taken. -/
theorem zero_mem_emplace {strand : Strand K} {p : K × K} (hp : p ∈ strand.points) (zero : p.1 = 0) (a : K) :
    p ∈ (strand.emplace a).points := by
  rcases emplace_cases strand a with ⟨before, q, split, hnear, eq⟩ | ⟨-, eq⟩
  · rw [split] at hp
    rw [eq]
    rcases List.mem_append.mp hp with hp | hp
    · exact hp
    · cases List.mem_singleton.mp hp
      rw [zero, not_near_of_zero] at hnear
      cases hnear
  · rw [eq]
    exact hp

theorem sorted_of_mem (h : Inv c input s) {strand : Strand K} (hs : strand ∈ s.strands) :
    ∃ line ∈ input, Plottable c line ∧ strand.points ⊆ line.data ∧ strand.points.Pairwise fun p q => p.1 ≤ q.1 := by
  obtain ⟨line, hline, -, points, data, -⟩ := mem_right_of_forall₂ h.follows hs
  obtain ⟨mem, plottable⟩ := List.mem_filter.mp hline
  refine ⟨line, mem, by simpa using plottable, ?_, ?_⟩
  · rw [data]
    exact List.subset_append_left _ _
  · exact (List.pairwise_append.mp (data ▸ line.sorted)).1

/-- No point that is left is to the right of the next axis value. -/
theorem le_next_axis_point (h : Inv c input s) {strand : Strand K} (hs : strand ∈ s.strands) {p : K × K}
    (hp : p ∈ strand.points) : p.1 ≤ next_axis_point d s.strands := by
  obtain ⟨-, largest, -⟩ := next_axis_point_spec s.strands (-d.max)
  obtain ⟨-, -, -, -, sorted⟩ := sorted_of_mem h hs
  obtain ⟨before, q, split⟩ := (List.eq_nil_or_concat' strand.points).resolve_left (List.ne_nil_of_mem hp)
  have last : q.1 ≤ next_axis_point d s.strands := largest strand hs q (by simp [split])
  rw [split] at hp sorted
  rcases List.mem_append.mp hp with hp | hp
  · exact ((List.pairwise_append.mp sorted).2.2 p hp q List.mem_cons_self).trans last
  · cases List.mem_singleton.mp hp
    exact last

/-- The next axis value is the last point of a strand, unless it is `-max`. -/
theorem exists_last (strands : List (Strand K)) (h : next_axis_point d strands ≠ -d.max) :
    ∃ strand ∈ strands, ∃ before p, strand.points = before ++ [p] ∧ p.1 = next_axis_point d strands := by
  obtain ⟨-, -, found⟩ := next_axis_point_spec strands (-d.max)
  obtain ⟨strand, hs, p, last, eq⟩ := found.resolve_left h
  obtain ⟨before, split⟩ := List.getLast?_eq_some_iff.mp last
  exact ⟨strand, hs, before, p, split, eq⟩

/-- No points are left in any strand. -/
def State.Empty (s : State K) : Prop := ∀ strand ∈ s.strands, strand.points = []

/-- What a round does. -/
theorem advance_cases (d : Finite K) (s : State K) :
    (s.Empty ∧ s.advance d = { s with finished := true }) ∨
    (¬ s.Empty ∧ next_axis_point d s.strands ≠ -d.max ∧ s.advance d =
      { s with
        axis := next_axis_point d s.strands :: s.axis
        strands := s.strands.map (Strand.emplace (next_axis_point d s.strands)) }) ∨
    (¬ s.Empty ∧ next_axis_point d s.strands = -d.max ∧ s.advance d = { s with finished := true }) := by
  have empty : (s.strands.all fun strand => strand.points.isEmpty) = true ↔ s.Empty := by
    simp [State.Empty, List.all_eq_true]
  rw [State.advance]
  by_cases none : s.Empty
  · exact .inl ⟨none, if_pos (empty.mpr none)⟩
  · rw [if_neg (mt empty.mp none)]
    by_cases more : next_axis_point d s.strands = -d.max
    · exact .inr (.inr ⟨none, more, if_neg (not_not.mpr more)⟩)
    · exact .inr (.inl ⟨none, more, if_pos more⟩)

/-- **A round** keeps what has been placed. -/
theorem advance_inv (h : Inv c input s) : Inv c input (s.advance d) := by
  rcases advance_cases d s with ⟨-, eq⟩ | ⟨-, more, eq⟩ | ⟨-, -, eq⟩
  · rw [eq]
    exact ⟨h.sorted, h.follows, h.left⟩
  · obtain ⟨strand, hs, before, p, split, last⟩ := exists_last s.strands more
    rw [eq]
    refine ⟨?_, ?_, ?_⟩
    · refine List.pairwise_cons.mpr ⟨fun a ha => ?_, h.sorted⟩
      rw [← last]
      exact h.left strand hs p (by simp [split]) a ha
    · rw [List.forall₂_map_right_iff]
      exact h.follows.imp fun line strand follows => follows_emplace follows _
    · intro strand' hs' q hq a ha
      obtain ⟨t, ht, rfl⟩ := List.mem_map.mp hs'
      have left := points_emplace_subset t _ hq
      rcases List.mem_cons.mp ha with rfl | ha
      · exact le_next_axis_point h ht left
      · exact h.left t ht q left a ha
  · rw [eq]
    exact ⟨h.sorted, h.follows, h.left⟩

/-- Points that are left. -/
def State.left (s : State K) : ℕ := (s.strands.map fun strand => strand.points.length).sum

/-- **Progress**: an axis value other than zero takes a point from its own strand. -/
theorem left_emplace_lt (some : next_axis_point d s.strands ≠ -d.max) (nonzero : next_axis_point d s.strands ≠ 0) :
    ((s.strands.map (Strand.emplace (next_axis_point d s.strands))).map fun strand => strand.points.length).sum <
      s.left := by
  obtain ⟨strand, hs, before, p, split, last⟩ := exists_last s.strands some
  rw [State.left, List.map_map]
  refine List.sum_lt_sum _ _ (fun t _ => length_emplace_le t _) ⟨strand, hs, ?_⟩
  have hnear : near p.1 (next_axis_point d s.strands) = true := by
    rw [last]
    exact near_self nonzero
  rcases emplace_cases strand (next_axis_point d s.strands) with ⟨before', q, split', -, placed⟩ | ⟨far, -⟩
  · simp only [Function.comp, placed, split', List.length_append, List.length_singleton]
    omega
  · rw [far p (by simp [split])] at hnear
    cases hnear

/-- Points are left, and the last ones are all at `-max`. -/
structure State.Stuck (d : Finite K) (s : State K) : Prop where
  left : ∃ strand ∈ s.strands, strand.points ≠ []
  last : ∀ strand ∈ s.strands, ∀ p ∈ strand.points.getLast?, p.1 = -d.max

/-- The source gives up just if the merge is stuck. -/
theorem stuck_iff (h : Inv c input s) : s.Stuck d ↔ ¬ s.Empty ∧ next_axis_point d s.strands = -d.max := by
  have left : (∃ strand ∈ s.strands, strand.points ≠ []) ↔ ¬ s.Empty := by simp [State.Empty]
  constructor
  · rintro ⟨some, last⟩
    refine ⟨left.mp some, ?_⟩
    by_contra more
    obtain ⟨strand, hs, before, p, split, eq⟩ := exists_last s.strands more
    exact more (eq.symm.trans (last strand hs p (by simp [split])))
  · rintro ⟨some, next⟩
    refine ⟨left.mpr some, fun strand hs p hp => ?_⟩
    obtain ⟨before, split⟩ := List.getLast?_eq_some_iff.mp hp
    have mem : p ∈ strand.points := by simp [split]
    obtain ⟨line, -, -, sub, -⟩ := sorted_of_mem h hs
    have above : -d.max ≤ p.1 := (abs_le.mp (line.finite p (sub mem))).1
    exact le_antisymm (next ▸ le_next_axis_point h hs mem) above

end Rounds

/-! ### The whole merge -/

section Merge

variable {d : Finite K} {c : line_collection} {input : List (data_line d)} {s : State K} {axis : List K}
  {output : List (output_line K)}

/-- What may come of the merge: it ends with all lines to be plotted, and loses nothing. -/
def MergesLosslessly (c : line_collection) (input : List (data_line d)) : Prop :=
  ∃ axis output, c.Merges input axis output ∧ Lossless c input axis output

/-- No line to be plotted has a point at zero. -/
def NoZero (c : line_collection) (input : List (data_line d)) : Prop :=
  ∀ line ∈ input, Plottable c line → ∀ p ∈ line.data, p.1 ≠ 0

/-- No round finds the merge stuck. -/
def NeverStuck (c : line_collection) (input : List (data_line d)) : Prop :=
  ∀ n s, Rounds State.Done (State.round d) n (c.start input) s → ¬ s.Stuck d

theorem inv_of_rounds {n : ℕ} (h : Rounds State.Done (State.round d) n (c.start input) s) : Inv c input s := by
  have keeps : ∀ {n : ℕ} {s s' : State K}, Rounds State.Done (State.round d) n s s' → Inv c input s → Inv c input s' := by
    intro n s s' h
    induction h with
    | refl s => exact id
    | head _ hm _ ih =>
      cases hm
      exact fun hI => ih (advance_inv hI)
  exact keeps h inv_start

/-- A strand without points left shows its line. -/
theorem lossless_of_empty (h : Inv c input s) (empty : s.Empty) :
    Lossless c input s.axis (s.strands.map Strand.output) := by
  refine ⟨h.sorted, ?_⟩
  rw [List.forall₂_map_right_iff]
  refine (forall₂_and_mem h.follows).imp ?_
  rintro line strand ⟨⟨-, points, data, shows⟩, hs⟩
  rw [empty strand hs, List.nil_append] at data
  exact data ▸ shows

/-- As many points have been placed as there are entries. -/
theorem Placed.length {absy : Bool} {values : List (Option K)} {points : List (K × K)}
    (h : Placed absy axis values points) : (values.filterMap id).length = points.length := by
  induction h with
  | nil => rfl
  | empty _ ih => simpa using ih
  | point _ _ ih => simpa using ih

/-- Nothing is lost only if no points are left. -/
theorem empty_of_lossless (h : Inv c input s) (lossless : Lossless c input s.axis (s.strands.map Strand.output)) :
    s.Empty := by
  have both := lossless.lines
  rw [List.forall₂_map_right_iff] at both
  intro strand hs
  obtain ⟨line, -, ⟨-, points, data, shows⟩, all⟩ := mem_right_of_forall₂ (forall₂_and h.follows both) hs
  have lengths := all.placed.length.symm.trans shows.placed.length
  rw [data, List.length_append] at lengths
  exact List.length_eq_zero_iff.mp (by omega)

/-- A point that is left is one of a line that can be plotted. -/
theorem mem_line (h : Inv c input s) {strand : Strand K} (hs : strand ∈ s.strands) {p : K × K}
    (hp : p ∈ strand.points) : ∃ line ∈ input, Plottable c line ∧ p ∈ line.data := by
  obtain ⟨line, mem, plottable, sub, -⟩ := sorted_of_mem h hs
  exact ⟨line, mem, plottable, sub hp⟩

theorem start_going : ¬ (c.start input).Done := fun h => Bool.false_ne_true h

/-- What holds of a merge that is not stuck. -/
structure Reached (c : line_collection) (input : List (data_line d)) (s : State K) : Prop extends Inv c input s where
  reached : ∃ n, Rounds State.Done (State.round d) n (c.start input) s
  done : s.Done → s.Empty

/-- Unless the merge is stuck, a round is the last one or takes a point. -/
theorem Reached.advance (h : Reached c input s) (nonzero : NoZero c input) (never : NeverStuck c input)
    (going : ¬ s.Done) : Reached c input (s.advance d) ∧ ((s.advance d).Done ∨ (s.advance d).left < s.left) := by
  obtain ⟨n, reached⟩ := h.reached
  have next := advance_inv h.toInv
  have rounds : ∃ n, Rounds State.Done (State.round d) n (c.start input) (s.advance d) :=
    ⟨n + 1, reached.concat going rfl⟩
  rcases advance_cases d s with ⟨empty, eq⟩ | ⟨-, more, eq⟩ | ⟨some, lowest, -⟩
  · rw [eq] at next rounds ⊢
    exact ⟨⟨next, rounds, fun _ => empty⟩, .inl rfl⟩
  · obtain ⟨strand, hs, before, p, split, last⟩ := exists_last s.strands more
    obtain ⟨line, mem, plottable, hp⟩ := mem_line h.toInv hs (p := p) (by simp [split])
    rw [eq] at next rounds ⊢
    exact ⟨⟨next, rounds, fun finished => absurd finished going⟩,
      .inr (left_emplace_lt more (last ▸ nonzero line mem plottable p hp))⟩
  · exact absurd ((stuck_iff h.toInv).mpr ⟨some, lowest⟩) (never n s reached)

/-- Without points at zero, a merge that is never stuck goes on until no points are left. -/
theorem merges_of_never (nonzero : NoZero c input) (never : NeverStuck c input) : MergesLosslessly c input := by
  have start : Reached c input (c.start input) := ⟨inv_start, ⟨0, .refl _⟩, fun h => absurd h start_going⟩
  obtain ⟨s, ends, h⟩ : ∃ s, Ends State.Done (State.round d) (c.start input) (.ok ⟨⟩ s) ∧ Reached c input s :=
    ends_of_measure State.left (fun s h going => ⟨s.advance d, rfl, h.advance nonzero never going⟩) start
  obtain ⟨-, -, finished⟩ := ends.rounds
  exact ⟨_, _, ⟨s, ends, rfl, rfl⟩, lossless_of_empty h.toInv (h.done finished)⟩

/-- A point at zero is left for ever, and the loop never ends. -/
theorem not_ends_of_zero {line : data_line d} (hline : line ∈ input) (plottable : Plottable c line) {p : K × K}
    (hp : p ∈ line.data) (zero : p.1 = 0) (r : EStateM.Result PEmpty (State K) PUnit) :
    ¬ Ends State.Done (State.round d) (c.start input) r := by
  refine not_ends (I := fun s => Inv c input s ∧ ¬ s.Done ∧ ∃ strand ∈ s.strands, p ∈ strand.points) ?_
    ⟨inv_start, start_going, _, List.mem_filterMap.mpr ⟨line, hline, strand_eq.trans (if_pos plottable)⟩, hp⟩
  rintro s ⟨h, going, strand, hs, hp⟩
  refine ⟨0, s.advance d, .single going rfl, advance_inv h, ?_⟩
  rcases advance_cases d s with ⟨empty, -⟩ | ⟨-, -, eq⟩ | ⟨-, lowest, -⟩
  · rw [empty strand hs] at hp
    cases hp
  · rw [eq]
    exact ⟨going, _, List.mem_map.mpr ⟨strand, hs, rfl⟩, zero_mem_emplace hp zero _⟩
  · have above : 0 ≤ -d.max := by
      rw [← zero, ← lowest]
      exact le_next_axis_point h hs hp
    exact absurd d.pos (not_lt.mpr (neg_nonneg.mp above))

/-- A merge that is stuck gives up, and what is left is lost. -/
theorem not_lossless_of_stuck {n : ℕ} (reached : Rounds State.Done (State.round d) n (c.start input) s)
    (stuck : s.Stuck d) : ¬ MergesLosslessly c input := by
  rintro ⟨_, _, ⟨s', ends, rfl, rfl⟩, lossless⟩
  have h := inv_of_rounds reached
  have same : s'.strands = s.strands ∧ s'.axis = s.axis := by
    rw [reached.ends_iff] at ends
    by_cases finished : s.Done
    · cases ends.unique (.of_done finished)
      exact ⟨rfl, rfl⟩
    · have up : s.advance d = { s with finished := true } := by
        obtain ⟨some, lowest⟩ := (stuck_iff h).mp stuck
        rcases advance_cases d s with ⟨empty, -⟩ | ⟨-, more, -⟩ | ⟨-, -, eq⟩
        · exact absurd empty some
        · exact absurd lowest more
        · exact eq
      have last : Rounds State.Done (State.round d) 1 s { s with finished := true } := .single finished (up ▸ rfl)
      cases (last.ends_iff.mp ends).unique (.of_done rfl)
      exact ⟨rfl, rfl⟩
  rw [same.1, same.2] at lossless
  exact ((stuck_iff h).mp stuck).1 (empty_of_lossless h lossless)

/-- **Merging is lossless** exactly if no line to be plotted has a point at zero, and no round finds points left with
the last ones all at `-max`. -/
theorem merges_iff : MergesLosslessly c input ↔ NoZero c input ∧ NeverStuck c input := by
  refine ⟨fun merges => ⟨fun line hline plottable p hp zero => ?_, fun n s reached stuck => ?_⟩, fun h =>
    merges_of_never h.1 h.2⟩
  · obtain ⟨_, _, ⟨s, ends, -⟩, -⟩ := merges
    exact not_ends_of_zero hline plottable hp zero _ ends
  · exact not_lossless_of_stuck reached stuck merges

/-- No round is stuck if no line to be plotted has a point at `-max`. -/
theorem never_stuck (h : ∀ line ∈ input, Plottable c line → ∀ p ∈ line.data, p.1 ≠ -d.max) : NeverStuck c input := by
  rintro n s reached ⟨⟨strand, hs, some⟩, last⟩
  obtain ⟨before, p, split⟩ := (List.eq_nil_or_concat' strand.points).resolve_left some
  obtain ⟨line, mem, plottable, hp⟩ := mem_line (inv_of_rounds reached) hs (p := p) (by simp [split])
  exact h line mem plottable p hp (last strand hs p (by simp [split]))

end Merge

/-! ### A single point -/

def double : Finite ℚ where
  max := 2 ^ 1024 - 2 ^ 971
  pos := sub_pos.mpr (pow_lt_pow_right₀ one_lt_two (by decide))

/-- One point, at zero. -/
def origin : data_line double where
  LaTeX_label := "$t$"
  non_LaTeX_label := "t"
  y_type := .time
  data_type := .continuous_data
  data := [(0, 1)]
  sorted := by simp
  finite := by simpa using double.pos.le

def linear_axes : line_collection where
  log_x := false
  log_y := false
  abs_y := false
  use_LaTeX := false

theorem one_le_max : 1 ≤ double.max := by
  refine le_sub_iff_add_le.mpr ?_
  calc (1 : ℚ) + 2 ^ 971
      ≤ 2 ^ 971 + 2 ^ 971 := by gcongr; exact one_le_pow₀ one_le_two
    _ = 2 ^ 972 := by rw [← mul_two, ← pow_succ]
    _ ≤ 2 ^ 1024 := pow_le_pow_right₀ one_le_two (by decide)

/-- One point, elsewhere. -/
def unit : data_line double where
  LaTeX_label := "$t$"
  non_LaTeX_label := "t"
  y_type := .time
  data_type := .continuous_data
  data := [(1, 1)]
  sorted := by simp
  finite := by simpa using one_le_max

theorem unit_merged : MergesLosslessly linear_axes [unit] := by
  refine merges_iff.mpr ⟨fun line hline _ p hp => ?_, never_stuck fun line hline _ p hp => ?_⟩
  · cases List.mem_singleton.mp hline
    cases List.mem_singleton.mp hp
    exact one_ne_zero
  · cases List.mem_singleton.mp hline
    cases List.mem_singleton.mp hp
    have below : -double.max < 1 := (neg_lt_zero.mpr double.pos).trans one_pos
    exact below.ne'

theorem origin_not_merged : ¬ MergesLosslessly linear_axes [origin] := by
  rintro ⟨_, _, ⟨s, ends, -⟩, -⟩
  exact not_ends_of_zero (List.mem_singleton_self origin) (by decide) (p := (0, 1)) (by simp [origin]) rfl _ ends

end CppTransport.Runtime.LineCollection
