import CppTransport.Library.IndexLoops
import CppTransport.Translator.TokenList
import Mathlib.Data.List.DropRight
import Mathlib.Data.List.Induction

/-!
# Assignments of sums

A line `target $= + term` of a template assigns to each target the sum of the terms over the indices
that only the right-hand side has. `macro_agent` either writes an assignment for each value of the
indices of the target, with one term for each value of the other indices, or nested `for` loops.
Which of the two is decided from the number of values and from what the macros on the line ask for.

Here a line that is written is a list of pieces; blanks and indentation are left out. The code that
is written is read back piece by piece (`step`) and run. What the texts of the two sides mean, and
that a text with loop variables means for their values what the text for these values means, is an
assumption about the macros on the line (`Meaning`).

## What is proved

`assigns_iff`: the code assigns to each target the sum of the terms, whatever these are, if and only
if the line is a statement and its right-hand side has at least one term, apart from lines with 2³²
values and more, and unrolled lines whose terms have no sign. When an index that only the right-hand
side has runs over an empty range, no target is assigned (`no_parameters_not_assigned`).
-/

namespace CppTransport.Translator.SumAssignment

open Library Tokenizer

/-! ### The line -/

/-- What `translator_data` knows of the model and the command line. -/
structure Payload where
  /-- The number of fields. -/
  fields : ℕ
  /-- The number of parameters. -/
  parameters : ℕ
  unroll_policy : ℕ
  fast : Bool := false

/-- How many values an index takes. -/
def Payload.numeric_range (p : Payload) (label : Char) : ℕ :=
  match identify_index label with
  | .field_only => p.fields
  | .full => 2 * p.fields % 2 ^ 32
  | .parameter => p.parameters

/-- An `abstract_index_database`: indices in the order in which they are declared. -/
structure index_database where
  labels : List Char
  nodup : labels.Nodup

/-- The indices that are not in another database. The classes of indices with the same label are the same. -/
def index_database.minus (d e : index_database) : index_database where
  labels := d.labels.filter (· ∉ e.labels)
  nodup := d.nodup.filter _

/-- How a line is split. -/
inductive split_type where
  | none
  | sum
  | sum_equal
deriving DecidableEq, Repr

def BACKEND_LINE_SPLIT_EQUAL : List Char := ['$', '=']

def BACKEND_LINE_SPLIT_SUM_EQUAL : List Char := ['$', '+', '=']

/-- Where a string is found for the first time. -/
def find (line text : List Char) : Option ℕ :=
  (List.range (line.length + 1)).find? fun i => text.isPrefixOf (line.drop i)

structure split_string where
  left : List Char
  right : List Char
  type : split_type
  /-- Does the right-hand side end with a comma? -/
  comma : Bool
  /-- Does it end with a semicolon? -/
  semicolon : Bool

/-- Take a character off the end. -/
def pop_back (a : Char) (text : List Char) : List Char × Bool :=
  if text.getLast? = some a then (text.dropLast, true) else (text, false)

/-- Split a line. -/
def split (line : List Char) : split_string :=
  let (left, right, type) :=
    match find line BACKEND_LINE_SPLIT_EQUAL with
    | some i => (line.take i, line.drop (i + BACKEND_LINE_SPLIT_EQUAL.length), split_type.sum)
    | none =>
      match find line BACKEND_LINE_SPLIT_SUM_EQUAL with
      | some i => (line.take i, line.drop (i + BACKEND_LINE_SPLIT_SUM_EQUAL.length), split_type.sum_equal)
      | none => ([], line, split_type.none)
  let right := right.rdropWhile isspace
  let right := if left.length > 0 then right.dropWhile isspace else right
  let (right, semicolon) := pop_back ';' right
  let (right, comma) := pop_back ',' right
  { left, right, type, comma, semicolon }

/-- Values of indices. -/
abbrev Assignment := List (Char × ℕ)

/-- A line of a template, and what is known of the tokens of its two sides. -/
structure Template where
  line : List Char
  left_indices : index_database
  right_indices : index_database
  /-- The number of tokens of the left-hand side. -/
  left_size : ℕ
  left_status : unroll_state := .allow
  right_status : unroll_state := .allow
  /-- Does the text of the right-hand side for these values begin with a sign? -/
  signed : Assignment → Bool

section Line

variable (p : Payload) (t : Template)

/-- The indices of a database with their ranges. -/
def ranges (d : index_database) : List (Char × ℕ) := d.labels.map fun i => (i, p.numeric_range i)

/-- The size of an `assignment_set`. -/
def size (indices : List (Char × ℕ)) : ℕ := indices.foldl (fun n i => n * i.2 % 2 ^ 32) 1

/-- Values for indices that are taken from the last to the first. -/
def construct_assignment : List (Char × ℕ) → ℕ → Assignment → Assignment
  | [], _, values => values
  | (i, n) :: rest, current, values => construct_assignment rest (current / n) ((i, current % n) :: values)

/-- The assignments of an `assignment_set` as its iterator goes through them. -/
def iterate (indices : List (Char × ℕ)) : List Assignment :=
  (List.range (size indices)).map fun pos => construct_assignment indices.reverse pos []

/-- The indices of the left-hand side. -/
def lhs : List (Char × ℕ) := ranges p t.left_indices

/-- The indices that only the right-hand side has. -/
def rhs : List (Char × ℕ) := ranges p (t.right_indices.minus t.left_indices)

/-- Is the assignment to be unrolled? In two cases an error is reported. -/
def apply_unroll_policy : Bool :=
  let total := size (lhs p t) * size (rhs p t) % 2 ^ 32
  let unroll_by_policy : Bool := total ≤ p.unroll_policy
  let prevent : Bool := t.left_status = .prevent || t.right_status = .prevent
  let force : Bool := t.left_status = .force || t.right_status = .force
  if total > 1 && force && prevent then false
  else if total > 1 && p.fast && prevent then false
  else force || (unroll_by_policy || p.fast) && !prevent

/-! ### The code that is written -/

/-- A piece of the code. -/
inductive Piece where
  /-- The text of the left-hand side, for values of its indices or with loop variables. -/
  | left (a : Option Assignment)
  /-- The text of the right-hand side. -/
  | right (a : Option Assignment)
  | equals
  | plus_equals
  | zero
  | semicolon
  | comma
  /-- `for(int i = 0; i < n; ++i)` -/
  | for_loop (i : Char) (n : ℕ)
  | open_block
  | close_block
  | comment (text : String)
deriving DecidableEq

def SKIPPED : String := "Skipped: empty index range (LHS index set is empty)"

/-- What follows the right-hand side. -/
def trailing (s : split_string) : List Piece :=
  (if s.semicolon then [.semicolon] else []) ++ if s.comma then [.comma] else []

/-- The text of the left-hand side. It is empty when there are no tokens. -/
def left_text (a : Option Assignment) : List Piece := if t.left_size > 0 then [.left a] else []

/-- Write at the end of the last line. -/
def append_to_back : List (List Piece) → List Piece → List (List Piece)
  | [], _ => []
  | [line], more => [line ++ more]
  | line :: lines, more => line :: append_to_back lines more

/-- The operator for a split in unrolled lines. -/
def unrolled_operator : split_type → List Piece
  | .sum => [.equals]
  | .sum_equal => [.plus_equals]
  | .none => []

/-- The unrolled lines for values of the indices of the left-hand side. -/
def unroll_one (l : Assignment) : List (List Piece) :=
  let s := split t.line
  if size (rhs p t) > 1 then
    let head := if t.left_size > 0 then [left_text t (some l) ++ unrolled_operator s.type] else []
    let terms := (iterate (rhs p t)).map fun r =>
      Piece.right (some (l ++ r)) :: if t.left_size = 0 then trailing s else []
    if t.left_size > 0 then append_to_back (head ++ terms) (trailing s) else head ++ terms
  else
    match iterate (rhs p t) with
    | [] => []
    | r :: _ =>
      [left_text t (some l) ++ unrolled_operator s.type ++ [.right (some (l ++ r))] ++ trailing s]

def unroll_index_assignment : List (List Piece) :=
  if size (lhs p t) = 0 then [[.comment SKIPPED]] else (iterate (lhs p t)).flatMap (unroll_one p t)

/-- Write loops over indices around lines. -/
def plant_loops (inner : List (List Piece)) : List (Char × ℕ) → List (List Piece)
  | [] => inner
  | (i, n) :: rest => [.for_loop i n] :: [.open_block] :: plant_loops inner rest ++ [[.close_block]]

/-- The operator for a split in loops. -/
def rolled_operator (coalesce : Bool) : split_type → List Piece
  | .sum => if coalesce then [.equals] else [.plus_equals]
  | .sum_equal => [.plus_equals]
  | .none => []

def plant_RHS_forloop (coalesce : Bool) : List (List Piece) :=
  let s := split t.line
  plant_loops [left_text t none ++ rolled_operator coalesce s.type ++ [.right none] ++ trailing s] (rhs p t)

def plant_LHS_forloop : List (List Piece) :=
  let accumulates := t.left_size > 0 && size (rhs p t) > 1 && (split t.line).type = .sum
  let zero_stmt := if accumulates then [left_text t none ++ [.equals, .zero, .semicolon]] else []
  plant_loops (zero_stmt ++ plant_RHS_forloop p t (size (rhs p t) = 1)) (lhs p t)

def forloop_index_assignment : List (List Piece) :=
  if size (lhs p t) = 0 then [[.comment SKIPPED]] else plant_LHS_forloop p t

/-- The lines that are written. -/
def index_assignment : List (List Piece) :=
  if apply_unroll_policy p t then unroll_index_assignment p t else forloop_index_assignment p t

end Line

/-! ### What the code does -/

/-- The memory; a place that has not been assigned has no value. -/
abbrev Store (V Loc : Type) := Loc → Option V

/-- What code does, for values of the loop variables. It fails when a value is used that has not been assigned. -/
abbrev Code (V Loc : Type) := Assignment → Store V Loc → Option (Store V Loc)

/-- What the texts of the two sides mean. -/
structure Meaning (p : Payload) (t : Template) (V Loc : Type) [DecidableEq Loc] where
  /-- The place that the left-hand side names. -/
  target : Assignment → Loc
  /-- The value of the right-hand side. -/
  value : Assignment → Store V Loc → V
  /-- The terms for a target do not depend on what is in it. -/
  steady : ∀ l ∈ assignments (lhs p t), ∀ r ∈ assignments (rhs p t), ∀ s v,
    value (l ++ r) (Function.update s (target l) v) = value (l ++ r) s

inductive Operator where
  | set
  | add
deriving DecidableEq

inductive Operand where
  | zero
  | right (a : Option Assignment)
deriving DecidableEq

/-- What has been read of a statement. -/
inductive Pending where
  | start
  | target (a : Option Assignment)
  | sum (a : Option Assignment) (op : Operator) (operands : List Operand)
  | header (i : Char) (n : ℕ)

namespace Code

variable {V Loc : Type}

/-- Do nothing. -/
def skip : Code V Loc := fun _ s => some s

/-- One after the other. -/
def seq (c d : Code V Loc) : Code V Loc := fun env s => (c env s).bind (d env)

/-- A loop. -/
def loop (i : Char) (n : ℕ) (c : Code V Loc) : Code V Loc := fun env s =>
  (List.range n).foldlM (fun s k => c (env ++ [(i, k)]) s) s

theorem skip_seq (c : Code V Loc) : seq .skip c = c := rfl

theorem seq_skip (c : Code V Loc) : c.seq .skip = c := by
  funext env s
  rw [seq]
  cases c env s <;> rfl

theorem seq_assoc (c d e : Code V Loc) : (c.seq d).seq e = c.seq (d.seq e) := by
  funext env s
  simp only [seq]
  cases c env s <;> rfl

end Code

/-- Code that has been read: the loops that are open, each with what stands before it, and the block that is being
read. -/
structure Reader (V Loc : Type) where
  frames : List (Char × ℕ × Code V Loc)
  code : Code V Loc
  pending : Pending

section Run

variable {p : Payload} {t : Template} {V Loc : Type} [AddMonoid V] [DecidableEq Loc] (M : Meaning p t V Loc)

/-- The values of loop variables. -/
def loop_values (indices : List (Char × ℕ)) (env : Assignment) : Assignment :=
  indices.map fun i => (i.1, (env.lookup i.1).getD 0)

def Meaning.place (env : Assignment) : Option Assignment → Loc
  | some a => M.target a
  | none => M.target (loop_values (lhs p t) env)

def Meaning.operand (env : Assignment) (s : Store V Loc) : Operand → V
  | .zero => 0
  | .right (some a) => M.value a s
  | .right none => M.value (loop_values (lhs p t ++ rhs p t) env) s

/-- An assignment. -/
def Meaning.assign (a : Option Assignment) (op : Operator) (operands : List Operand) : Code V Loc := fun env s =>
  let sum := (operands.map (M.operand env s)).sum
  match op, s (M.place env a) with
  | .set, _ => some (Function.update s (M.place env a) (some sum))
  | .add, some v => some (Function.update s (M.place env a) (some (v + sum)))
  | .add, none => none

/-- Does a text that is written behind another one begin with a sign? -/
def Template.is_signed (t : Template) : Option Assignment → Bool
  | some a => t.signed a
  | none => false

/-- Read a piece. -/
def step (c : Reader V Loc) (piece : Piece) : Option (Reader V Loc) :=
  match c.pending, piece with
  | .start, .comment _ => some c
  | .start, .left a => some { c with pending := .target a }
  | .start, .for_loop i n => some { c with pending := .header i n }
  | .header i n, .open_block => some ⟨(i, n, c.code) :: c.frames, .skip, .start⟩
  | .start, .close_block =>
    match c.frames with
    | [] => none
    | (i, n, before) :: frames => some ⟨frames, before.seq (.loop i n c.code), .start⟩
  | .target a, .equals => some { c with pending := .sum a .set [] }
  | .target a, .plus_equals => some { c with pending := .sum a .add [] }
  | .sum a op [], .zero => some { c with pending := .sum a op [.zero] }
  | .sum a op operands, .right b =>
    if operands = [] ∨ t.is_signed b then some { c with pending := .sum a op (operands ++ [.right b]) } else none
  | .sum a op (o :: operands), .semicolon =>
    some ⟨c.frames, c.code.seq (M.assign a op (o :: operands)), .start⟩
  | _, _ => none

/-- Read code. -/
def read_code (code : List Piece) : Option (Reader V Loc) := code.foldlM (step M) ⟨[], .skip, .start⟩

/-- Run code. It has to be read to its end. -/
def run (code : List Piece) (s : Store V Loc) : Option (Store V Loc) :=
  match read_code M code with
  | some ⟨[], c, .start⟩ => c [] s
  | _ => none

/-- Each target is assigned the sum of the terms. -/
def Meaning.assigned (s : Store V Loc) : Store V Loc :=
  (assignments (lhs p t)).foldl
    (fun s l => Function.update s (M.target l) (some ((assignments (rhs p t)).map fun r => M.value (l ++ r) s).sum)) s

end Run

/-- The code assigns to each target the sum of the terms, whatever these are. -/
def Assigns (p : Payload) (t : Template) : Prop :=
  ∀ (V Loc : Type) [AddMonoid V] [DecidableEq Loc] (M : Meaning p t V Loc) (s : Store V Loc),
    run M (index_assignment p t).flatten s = some (M.assigned s)

/-- The line is a statement with a term, and is not too long. -/
structure Complete (p : Payload) (t : Template) : Prop where
  semicolon : (split t.line).semicolon = true
  comma : (split t.line).comma = false
  targets : size (lhs p t) ≠ 0
  terms : size (rhs p t) ≠ 0
  /-- In unrolled lines the sizes do not wrap around, and the terms have signs. -/
  unrolled : apply_unroll_policy p t = true → volume (lhs p t) < 2 ^ 32 ∧ volume (rhs p t) < 2 ^ 32 ∧
    ∀ l ∈ assignments (lhs p t), ∀ r ∈ (assignments (rhs p t)).tail, t.signed (l ++ r) = true
  rolled : apply_unroll_policy p t = false → size (rhs p t) = 1 → volume (rhs p t) = 1

/-! ### Sets of assignments -/

section Sets

variable (indices : List (Char × ℕ))

theorem size_eq : size indices = volume indices % 2 ^ 32 := by
  have h : ∀ n, indices.foldl (fun n i => n * i.2 % 2 ^ 32) n % 2 ^ 32 = n * volume indices % 2 ^ 32 := by
    induction indices with
    | nil => simp
    | cons index rest ih =>
      intro n
      obtain ⟨i, m⟩ := index
      rw [List.foldl_cons, ih, volume_cons, Nat.mod_mul_mod, Nat.mul_assoc]
  have hlt : size indices < 2 ^ 32 := by
    rw [size]
    induction indices using List.reverseRecOn with
    | nil => decide
    | append_singleton rest index _ =>
      rw [List.foldl_append]
      exact Nat.mod_lt _ (by decide)
  rw [← Nat.mod_eq_of_lt hlt, size, h, Nat.one_mul]

theorem construct_assignment_append (outer : List (Char × ℕ)) (k : ℕ) (values : Assignment) :
    construct_assignment (indices.reverse ++ outer) k values =
      construct_assignment outer (k / volume indices) (digits indices k ++ values) := by
  induction indices generalizing outer with
  | nil => simp [digits]
  | cons index rest ih =>
    obtain ⟨i, n⟩ := index
    rw [List.reverse_cons, List.append_assoc, ih, List.singleton_append, construct_assignment, digits, volume_cons,
      Nat.div_div_eq_div_mul, Nat.mul_comm]
    rfl

theorem construct_assignment_eq (k : ℕ) : construct_assignment indices.reverse k [] = digits indices k := by
  simpa [construct_assignment] using construct_assignment_append indices [] k []

variable {indices}

theorem length_iterate : (iterate indices).length = size indices := by simp [iterate]

/-- The iterator goes through the first assignments. -/
theorem iterate_eq_take : iterate indices = (assignments indices).take (size indices) := by
  have hle : size indices ≤ volume indices := by
    rw [size_eq]
    exact Nat.mod_le _ _
  simp only [iterate, construct_assignment_eq, ← map_digits_range]
  rw [← List.map_take, List.take_range, Nat.min_eq_left hle]

theorem iterate_eq (h : volume indices < 2 ^ 32) : iterate indices = assignments indices := by
  rw [iterate_eq_take, size_eq, Nat.mod_eq_of_lt h, ← length_assignments, List.take_length]

end Sets

/-! ### Reading code -/

section Read

variable {p : Payload} {t : Template} {V Loc : Type} [AddMonoid V] [DecidableEq Loc] (M : Meaning p t V Loc)

/-- The pieces are statements that do this. -/
def Compiles (pieces : List Piece) (c : Code V Loc) : Prop :=
  ∀ frames before, pieces.foldlM (step M) ⟨frames, before, .start⟩ = some ⟨frames, before.seq c, .start⟩

variable {M}

theorem Compiles.run {pieces : List Piece} {c : Code V Loc} (h : Compiles M pieces c) (s : Store V Loc) :
    run M pieces s = c [] s := by
  rw [SumAssignment.run, read_code, h]
  rfl

theorem Compiles.nil : Compiles M [] .skip := fun frames before => by
  rw [Code.seq_skip]
  rfl

theorem Compiles.append {pieces more : List Piece} {c d : Code V Loc} (h : Compiles M pieces c)
    (h' : Compiles M more d) : Compiles M (pieces ++ more) (c.seq d) := fun frames before => by
  rw [List.foldlM_append, h, ← Code.seq_assoc]
  exact h' frames _

/-- A line for each element of a list. -/
theorem Compiles.flatMap {α : Type} {f : α → List Piece} {c : α → Code V Loc} {l : List α}
    (h : ∀ a ∈ l, Compiles M (f a) (c a)) :
    Compiles M (l.flatMap f) (fun env s => l.foldlM (fun s a => c a env s) s) := by
  induction l with
  | nil => exact .nil
  | cons a l ih =>
    have hcons := (h a List.mem_cons_self).append (ih fun b hb => h b (List.mem_cons_of_mem _ hb))
    exact hcons

/-- A comment does nothing. -/
theorem Compiles.comment (text : String) : Compiles M [.comment text] .skip := fun frames before => by
  rw [Code.seq_skip]
  rfl

theorem Compiles.loop {pieces : List Piece} {c : Code V Loc} (h : Compiles M pieces c) (i : Char) (n : ℕ) :
    Compiles M (.for_loop i n :: .open_block :: (pieces ++ [.close_block])) (.loop i n c) := fun frames before => by
  have hbody := h ((i, n, before) :: frames) .skip
  simp only [List.foldlM_cons, step, Option.bind_eq_bind, Option.bind_some, List.foldlM_append, hbody, Code.skip_seq,
    List.foldlM_nil]
  rfl

/-- Nested loops. -/
theorem Compiles.plant_loops {inner : List (List Piece)} {c : Code V Loc} (h : Compiles M inner.flatten c)
    (indices : List (Char × ℕ)) : Compiles M (plant_loops inner indices).flatten (nested c indices) := by
  induction indices with
  | nil => exact h
  | cons index rest ih =>
    obtain ⟨i, n⟩ := index
    rw [show nested c ((i, n) :: rest) = Code.loop i n (nested c rest) from rfl]
    have hloop := ih.loop i n
    simpa [SumAssignment.plant_loops] using hloop

/-- Terms that are read one behind the other. -/
theorem read_terms (a : Option Assignment) (op : Operator) (operands : List Operand) (terms : List (Option Assignment))
    (hsigned : ∀ b ∈ terms, t.is_signed b = true) (frames : List (Char × ℕ × Code V Loc)) (before : Code V Loc) :
    (terms.map Piece.right).foldlM (step M) ⟨frames, before, .sum a op operands⟩ =
      some ⟨frames, before, .sum a op (operands ++ terms.map .right)⟩ := by
  induction terms generalizing operands with
  | nil => simp
  | cons b terms ih =>
    have hb : step M ⟨frames, before, .sum a op operands⟩ (.right b) =
        some ⟨frames, before, .sum a op (operands ++ [.right b])⟩ := by
      simp [step, hsigned b List.mem_cons_self]
    rw [List.map_cons, List.foldlM_cons, hb, Option.bind_eq_bind, Option.bind_some,
      ih _ fun b' hb' => hsigned b' (List.mem_cons_of_mem _ hb')]
    simp

/-- The piece for an operator. -/
def Operator.piece : Operator → Piece
  | .set => .equals
  | .add => .plus_equals

/-- A statement. -/
theorem Compiles.statement (a : Option Assignment) (op : Operator) (b : Option Assignment)
    (terms : List (Option Assignment)) (hsigned : ∀ b ∈ terms, t.is_signed b = true) :
    Compiles M (.left a :: op.piece :: .right b :: (terms.map Piece.right ++ [.semicolon]))
      (M.assign a op (.right b :: terms.map .right)) := fun frames before => by
  have hterms := read_terms (M := M) a op [.right b] terms hsigned frames before
  cases op with
  | set =>
    simp only [Operator.piece, List.foldlM_cons, step, Option.bind_eq_bind, Option.bind_some, true_or, if_true,
      List.nil_append, List.foldlM_append, hterms]
    rfl
  | add =>
    simp only [Operator.piece, List.foldlM_cons, step, Option.bind_eq_bind, Option.bind_some, true_or, if_true,
      List.nil_append, List.foldlM_append, hterms]
    rfl

theorem Compiles.zero (a : Option Assignment) :
    Compiles M [.left a, .equals, .zero, .semicolon] (M.assign a .set [.zero]) := fun _ _ => rfl

/-! ### Code that cannot be read -/

variable (M)

/-- No comma can be read. -/
theorem foldlM_eq_none_of_comma {pieces : List Piece} (h : .comma ∈ pieces) (c : Reader V Loc) :
    pieces.foldlM (step M) c = none := by
  obtain ⟨before, after, rfl⟩ := List.append_of_mem h
  rw [List.foldlM_append]
  cases before.foldlM (step M) c with
  | none => rfl
  | some c' =>
    have hstep : step M c' .comma = none := by
      obtain ⟨frames, code, pending⟩ := c'
      cases pending with
      | sum a op operands => cases operands <;> rfl
      | _ => rfl
    simp [hstep]

/-- Behind the pieces a statement has not come to its end. -/
def Unfinished (pieces : List Piece) : Prop :=
  ∀ c c', pieces.foldlM (step M) c = some c' → ∃ a op operands, c'.pending = .sum a op operands

variable {M}

theorem Unfinished.append {pieces : List Piece} (h : Unfinished M pieces) (before : List Piece) :
    Unfinished M (before ++ pieces) := by
  intro c c' hread
  rw [List.foldlM_append] at hread
  cases hbefore : before.foldlM (step M) c with
  | none => simp [hbefore] at hread
  | some c₁ =>
    rw [hbefore] at hread
    exact h c₁ c' hread

theorem Unfinished.run {pieces : List Piece} (h : Unfinished M pieces) (s : Store V Loc) :
    SumAssignment.run M pieces s = none := by
  rw [SumAssignment.run]
  split
  · rename_i c hread
    obtain ⟨a, op, operands, hpending⟩ := h _ _ hread
    cases hpending
  · rfl

/-- A loop cannot be closed behind it. -/
theorem Unfinished.plant_loops {inner : List (List Piece)} (h : Unfinished M inner.flatten)
    (indices : List (Char × ℕ)) : Unfinished M (plant_loops inner indices).flatten := by
  induction indices with
  | nil => exact h
  | cons index rest ih =>
    obtain ⟨i, n⟩ := index
    intro c c' hread
    have hclose : (Piece.for_loop i n :: .open_block :: ((SumAssignment.plant_loops inner rest).flatten ++
        [.close_block])).foldlM (step M) c = some c' := by
      simpa [SumAssignment.plant_loops] using hread
    rw [← List.cons_append, ← List.cons_append, List.foldlM_append] at hclose
    cases hbody : (Piece.for_loop i n :: .open_block :: (SumAssignment.plant_loops inner rest).flatten).foldlM
        (step M) c with
    | none => simp [hbody] at hclose
    | some c₁ =>
      obtain ⟨a, op, operands, hpending⟩ := ih.append [.for_loop i n, .open_block] c c₁ hbody
      obtain ⟨frames, code, pending⟩ := c₁
      cases hpending
      rw [hbody] at hclose
      cases operands <;> cases hclose

/-- A statement without a semicolon. -/
theorem Unfinished.statement (a : Option Assignment) (op : Operator) (terms : List (Option Assignment)) :
    Unfinished M (.left a :: op.piece :: terms.map Piece.right) := by
  have hterms : ∀ (terms : List (Option Assignment)) (c c' : Reader V Loc) (operands : List Operand),
      c.pending = .sum a op operands → (terms.map Piece.right).foldlM (step M) c = some c' →
        ∃ operands, c'.pending = .sum a op operands := by
    intro terms
    induction terms with
    | nil =>
      rintro c c' operands hpending hread
      cases hread
      exact ⟨operands, hpending⟩
    | cons b terms ih =>
      rintro c c' operands hpending hread
      rw [List.map_cons, List.foldlM_cons] at hread
      cases hstep : step M c (.right b) with
      | none => simp [hstep] at hread
      | some c₁ =>
        rw [hstep] at hread
        refine ih c₁ c' (operands ++ [.right b]) ?_ hread
        obtain ⟨frames, code, pending⟩ := c
        cases hpending
        simp only [step, Option.ite_none_right_eq_some, Option.some.injEq] at hstep
        rw [← hstep.2]
  intro c c' hread
  obtain ⟨frames, code, pending⟩ := c
  cases pending with
  | start =>
    obtain ⟨operands, hpending⟩ := hterms terms ⟨frames, code, .sum a op []⟩ c' [] rfl (by
      cases op <;> simpa [Operator.piece, step] using hread)
    exact ⟨a, op, operands, hpending⟩
  | sum b op' operands => cases operands <;> simp [step] at hread
  | target b => simp [step] at hread
  | header i n => simp [step] at hread

end Read

/-! ### The lines that are written -/

section Written

variable {p : Payload} {t : Template}

theorem flatten_append_to_back {lines : List (List Piece)} (h : lines ≠ []) (more : List Piece) :
    (append_to_back lines more).flatten = lines.flatten ++ more := by
  induction lines with
  | nil => exact absurd rfl h
  | cons line rest ih =>
    cases rest with
    | nil => simp [append_to_back]
    | cons line' rest => simp [append_to_back, ih]

theorem left_text_eq (htarget : 0 < t.left_size) (a : Option Assignment) : left_text t a = [.left a] := if_pos htarget

theorem iterate_ne_nil {indices : List (Char × ℕ)} (h : size indices ≠ 0) : iterate indices ≠ [] := by
  rw [← List.length_pos_iff, length_iterate]
  omega

/-- A line that is split has an operator. -/
theorem exists_unrolled_operator {type : split_type} (h : type ≠ .none) :
    ∃ op : Operator, unrolled_operator type = [op.piece] := by
  cases type with
  | none => exact absurd rfl h
  | sum => exact ⟨.set, rfl⟩
  | sum_equal => exact ⟨.add, rfl⟩

theorem exists_rolled_operator {type : split_type} (h : type ≠ .none) (coalesce : Bool) :
    ∃ op : Operator, rolled_operator coalesce type = [op.piece] := by
  cases type with
  | none => exact absurd rfl h
  | sum =>
    cases coalesce with
    | false => exact ⟨.add, rfl⟩
    | true => exact ⟨.set, rfl⟩
  | sum_equal => exact ⟨.add, rfl⟩

/-- The lines for one target. -/
theorem flatten_unroll_one {op : Operator} (htarget : 0 < t.left_size)
    (hop : unrolled_operator (split t.line).type = [op.piece]) (hterms : size (rhs p t) ≠ 0) (l : Assignment) :
    (unroll_one p t l).flatten =
      .left (some l) :: op.piece :: ((iterate (rhs p t)).map (fun r => Piece.right (some (l ++ r))) ++
        trailing (split t.line)) := by
  rw [unroll_one]
  split
  · simp only [if_neg htarget.ne', hop, left_text_eq htarget]
    rw [flatten_append_to_back (by simp)]
    have hlines : ∀ rs : List Assignment, (rs.map fun r => [Piece.right (some (l ++ r))]).flatten =
        rs.map fun r => .right (some (l ++ r)) := by
      intro rs
      induction rs with
      | nil => rfl
      | cons r rs ih => simp [ih]
    simp [hlines]
  · rename_i hsize
    obtain ⟨r, hr⟩ : ∃ r, iterate (rhs p t) = [r] := by
      rw [← List.length_eq_one_iff, length_iterate]
      omega
    simp [hr, hop, left_text_eq htarget]

theorem unroll_one_eq_nil (hterms : size (rhs p t) = 0) (l : Assignment) : unroll_one p t l = [] := by
  have hnil : iterate (rhs p t) = [] := by rw [← List.length_eq_zero_iff, length_iterate, hterms]
  simp [unroll_one, hterms, hnil]

theorem flatten_unroll (h : size (lhs p t) ≠ 0) : (unroll_index_assignment p t).flatten =
    (iterate (lhs p t)).flatMap fun l => (unroll_one p t l).flatten := by
  rw [unroll_index_assignment, if_neg h]
  induction iterate (lhs p t) with
  | nil => rfl
  | cons l ls ih => simp [ih]

/-- What loops over the indices of the right-hand side are written around. -/
theorem flatten_accumulate {op : Operator} {coalesce : Bool} (htarget : 0 < t.left_size)
    (hop : rolled_operator coalesce (split t.line).type = [op.piece]) :
    [left_text t none ++ rolled_operator coalesce (split t.line).type ++ [.right none] ++
        trailing (split t.line)].flatten =
      .left none :: op.piece :: .right none :: trailing (split t.line) := by
  rw [left_text_eq htarget, hop]
  simp

theorem labels_nodup : ((lhs p t ++ rhs p t).map (·.1)).Nodup := by
  have hmap : ∀ d, (ranges p d).map (·.1) = d.labels := fun d => by simp [ranges, Function.comp_def]
  rw [List.map_append, lhs, rhs, hmap, hmap, List.nodup_append]
  refine ⟨t.left_indices.nodup, (t.right_indices.minus t.left_indices).nodup, fun a ha b hb => ?_⟩
  rw [index_database.minus, List.mem_filter] at hb
  rintro rfl
  simp [ha] at hb

/-- Loop variables have the values of the assignment that the loops have come to. -/
theorem loop_values_append {indices : List (Char × ℕ)} {a : Assignment} (h : a.map (·.1) = indices.map (·.1))
    (hnodup : (indices.map (·.1)).Nodup) (b : Assignment) : loop_values indices (a ++ b) = a := by
  induction indices generalizing a with
  | nil => simpa [loop_values] using h.symm
  | cons index rest ih =>
    obtain ⟨i, n⟩ := index
    match a, h with
    | (j, k) :: a, h =>
      obtain ⟨rfl, htail⟩ := List.cons_eq_cons.mp h
      obtain ⟨hnot, hrest⟩ := List.nodup_cons.mp hnodup
      have hsame : loop_values rest ((j, k) :: a ++ b) = loop_values rest (a ++ b) := by
        refine List.map_congr_left fun index hindex => ?_
        have hne : index.1 ≠ j := fun heq => hnot (List.mem_map.mpr ⟨index, hindex, heq⟩)
        rw [List.cons_append, List.lookup_cons, beq_eq_false_iff_ne.mpr hne]
      calc loop_values ((j, n) :: rest) ((j, k) :: a ++ b)
          = (j, k) :: loop_values rest ((j, k) :: a ++ b) := by simp [loop_values]
        _ = (j, k) :: a := by rw [hsame, ih htail hrest]

section Values

variable {V Loc : Type} [DecidableEq Loc] {M : Meaning p t V Loc} {l r : Assignment}

theorem place_none (hl : l ∈ assignments (lhs p t)) (b : Assignment) : M.place (l ++ b) none = M.target l := by
  have hnodup := @labels_nodup p t
  rw [List.map_append] at hnodup
  rw [Meaning.place, loop_values_append (map_fst_of_mem_assignments hl) hnodup.of_append_left]

variable [AddMonoid V]

theorem operand_none (hl : l ∈ assignments (lhs p t)) (hr : r ∈ assignments (rhs p t)) (s : Store V Loc) :
    M.operand (l ++ r) s (.right none) = M.value (l ++ r) s := by
  have hfst : (l ++ r).map (·.1) = (lhs p t ++ rhs p t).map (·.1) := by
    rw [List.map_append, List.map_append, map_fst_of_mem_assignments hl, map_fst_of_mem_assignments hr]
  have hvalues := loop_values_append hfst labels_nodup []
  rw [List.append_nil] at hvalues
  rw [Meaning.operand, hvalues]

/-- Terms are added one after the other. -/
theorem foldlM_accumulate (hl : l ∈ assignments (lhs p t)) {rs : List Assignment}
    (hrs : ∀ r ∈ rs, r ∈ assignments (rhs p t)) {s : Store V Loc} {w : V} (hs : s (M.target l) = some w) :
    rs.foldlM (fun s r => M.assign none .add [.right none] (l ++ r) s) s =
      some (Function.update s (M.target l) (some (w + (rs.map fun r => M.value (l ++ r) s).sum))) := by
  induction rs generalizing s w with
  | nil => simp [← hs]
  | cons r rs ih =>
    have hr := hrs r List.mem_cons_self
    have hassign : M.assign none .add [.right none] (l ++ r) s =
        some (Function.update s (M.target l) (some (w + M.value (l ++ r) s))) := by
      simp only [Meaning.assign, place_none hl, List.map_cons, List.map_nil, operand_none hl hr, List.sum_cons,
        List.sum_nil, add_zero, hs]
    have hsteady :
        (rs.map fun r' => M.value (l ++ r') (Function.update s (M.target l) (some (w + M.value (l ++ r) s)))) =
        rs.map fun r' => M.value (l ++ r') s :=
      List.map_congr_left fun r' hr' => M.steady l hl r' (hrs r' (List.mem_cons_of_mem _ hr')) s _
    rw [List.foldlM_cons, hassign, Option.bind_eq_bind, Option.bind_some,
      ih (fun r' hr' => hrs r' (List.mem_cons_of_mem _ hr')) (Function.update_self ..), hsteady, Function.update_idem,
      List.map_cons, List.sum_cons, add_assoc]

end Values

end Written

/-! ### Loops that return -/

section Loops

variable {α σ : Type} {f : σ → α → Option σ} {l : List α} {s s' : σ}

theorem foldlM_eq_foldl {g : σ → α → σ} (h : ∀ a ∈ l, ∀ s, f s a = some (g s a)) :
    l.foldlM f s = some (l.foldl g s) := by
  induction l generalizing s with
  | nil => rfl
  | cons a l ih =>
    rw [List.foldlM_cons, h a List.mem_cons_self, Option.bind_eq_bind, Option.bind_some,
      ih fun b hb => h b (List.mem_cons_of_mem _ hb), List.foldl_cons]

/-- What each round keeps holds in the end. -/
theorem foldlM_invariant {P : σ → Prop} (hstep : ∀ a s s', P s → f s a = some s' → P s') (hs : P s)
    (h : l.foldlM f s = some s') : P s' := by
  induction l generalizing s with
  | nil =>
    cases h
    exact hs
  | cons a l ih =>
    rw [List.foldlM_cons] at h
    cases hround : f s a with
    | none => simp [hround] at h
    | some s₁ =>
      rw [hround] at h
      exact ih (hstep a s s₁ hs hround) h

end Loops

/-! ### Sums are assigned -/

section Sums

variable {p : Payload} {t : Template} {V Loc : Type} [AddMonoid V] [DecidableEq Loc] {M : Meaning p t V Loc}

theorem trailing_eq (hsemicolon : (split t.line).semicolon = true) (hcomma : (split t.line).comma = false) :
    trailing (split t.line) = [.semicolon] := by simp [trailing, hsemicolon, hcomma]

/-- The unrolled lines for one target are an assignment. -/
theorem compiles_unroll_one {op : Operator} (htarget : 0 < t.left_size)
    (hop : unrolled_operator (split t.line).type = [op.piece]) (htrailing : trailing (split t.line) = [.semicolon])
    (hterms : size (rhs p t) ≠ 0) {l : Assignment}
    (hsigned : ∀ r ∈ (iterate (rhs p t)).tail, t.signed (l ++ r) = true) :
    Compiles M (unroll_one p t l).flatten
      (M.assign (some l) op ((iterate (rhs p t)).map fun r => .right (some (l ++ r)))) := by
  rw [flatten_unroll_one htarget hop hterms, htrailing]
  obtain ⟨r, rs, heq⟩ := List.exists_cons_of_ne_nil (iterate_ne_nil hterms)
  rw [heq, List.tail_cons] at hsigned
  have hstatement := Compiles.statement (M := M) (some l) op (some (l ++ r)) (rs.map fun r => some (l ++ r)) (by
    intro b hb
    obtain ⟨r', hr', rfl⟩ := List.mem_map.mp hb
    exact hsigned r' hr')
  simpa [heq, Function.comp_def] using hstatement

/-- The operands of an unrolled statement. -/
theorem map_operand (l : Assignment) (rs : List Assignment) (env : Assignment) (s : Store V Loc) :
    (rs.map fun r => Operand.right (some (l ++ r))).map (M.operand env s) = rs.map fun r => M.value (l ++ r) s := by
  simp [Function.comp_def, Meaning.operand]

/-- The unrolled lines, one statement for each target. -/
theorem run_unrolled_lines {op : Operator} (htarget : 0 < t.left_size)
    (hop : unrolled_operator (split t.line).type = [op.piece])
    (htrailing : trailing (split t.line) = [.semicolon]) (htargets : size (lhs p t) ≠ 0) (hterms : size (rhs p t) ≠ 0)
    (hsigned : ∀ l ∈ iterate (lhs p t), ∀ r ∈ (iterate (rhs p t)).tail, t.signed (l ++ r) = true) (s : Store V Loc) :
    run M (unroll_index_assignment p t).flatten s = (iterate (lhs p t)).foldlM
      (fun s l => M.assign (some l) op ((iterate (rhs p t)).map fun r => .right (some (l ++ r))) [] s) s := by
  have hlines := Compiles.flatMap (M := M) fun l hl => compiles_unroll_one htarget hop htrailing hterms (hsigned l hl)
  rw [flatten_unroll htargets, hlines.run]

/-- The unrolled lines. -/
theorem run_unrolled (htarget : 0 < t.left_size) (hsum : (split t.line).type = .sum)
    (htrailing : trailing (split t.line) = [.semicolon]) (htargets : size (lhs p t) ≠ 0) (hterms : size (rhs p t) ≠ 0)
    (hsigned : ∀ l ∈ iterate (lhs p t), ∀ r ∈ (iterate (rhs p t)).tail, t.signed (l ++ r) = true) (s : Store V Loc) :
    run M (unroll_index_assignment p t).flatten s = some ((iterate (lhs p t)).foldl
      (fun s l =>
        Function.update s (M.target l) (some ((iterate (rhs p t)).map fun r => M.value (l ++ r) s).sum)) s) := by
  have hop : unrolled_operator (split t.line).type = [Operator.set.piece] := by rw [hsum]; rfl
  rw [run_unrolled_lines htarget hop htrailing htargets hterms hsigned]
  refine foldlM_eq_foldl fun l _ s => ?_
  simp only [Meaning.assign, map_operand, Meaning.place]

variable (M) in
/-- What the loops over the indices of the left-hand side are around. -/
def rolled_body : Code V Loc :=
  if size (rhs p t) > 1 then
    (M.assign none .set [.zero]).seq (nested (M.assign none .add [.right none]) (rhs p t))
  else nested (M.assign none (if size (rhs p t) = 1 then .set else .add) [.right none]) (rhs p t)

theorem compiles_rhs {op : Operator} {coalesce : Bool} (htarget : 0 < t.left_size)
    (hop : rolled_operator coalesce (split t.line).type = [op.piece])
    (htrailing : trailing (split t.line) = [.semicolon]) :
    Compiles M (plant_RHS_forloop p t coalesce).flatten (nested (M.assign none op [.right none]) (rhs p t)) := by
  refine Compiles.plant_loops ?_ _
  rw [flatten_accumulate htarget hop, htrailing]
  exact Compiles.statement none _ none [] (by simp)

/-- The lines with loops. -/
theorem compiles_rolled (htarget : 0 < t.left_size) (hsum : (split t.line).type = .sum)
    (htrailing : trailing (split t.line) = [.semicolon]) :
    Compiles M (plant_LHS_forloop p t).flatten (nested (rolled_body M) (lhs p t)) := by
  refine Compiles.plant_loops ?_ _
  rw [List.flatten_append, rolled_body]
  have hadd_op : rolled_operator false (split t.line).type = [Operator.add.piece] := by rw [hsum]; rfl
  have hset_op : rolled_operator true (split t.line).type = [Operator.set.piece] := by rw [hsum]; rfl
  have hadd := compiles_rhs (p := p) (M := M) htarget hadd_op htrailing
  have hset := compiles_rhs (p := p) (M := M) htarget hset_op htrailing
  by_cases hmany : size (rhs p t) > 1
  · have hone : size (rhs p t) ≠ 1 := by omega
    have hzero := (Compiles.zero (M := M) none).append hadd
    simpa [htarget, hmany, hsum, hone, left_text_eq htarget] using hzero
  · by_cases hone : size (rhs p t) = 1
    · simpa [hone] using hset
    · simpa [hmany, hone] using hadd

/-- **One target**: the loops over the other indices assign the sum. -/
theorem rolled_body_eq (hterms : size (rhs p t) ≠ 0) (hone : size (rhs p t) = 1 → volume (rhs p t) = 1) {l : Assignment}
    (hl : l ∈ assignments (lhs p t)) (s : Store V Loc) : rolled_body M l s =
      some (Function.update s (M.target l) (some ((assignments (rhs p t)).map fun r => M.value (l ++ r) s).sum)) := by
  have hplace : M.place l none = M.target l := by simpa using place_none (M := M) hl []
  rw [rolled_body]
  split
  · -- the target is cleared, and the terms are added to it
    have hzero : M.assign none .set [.zero] l s = some (Function.update s (M.target l) (some 0)) := by
      simp [Meaning.assign, hplace, Meaning.operand]
    have hsteady : ((assignments (rhs p t)).map fun r => M.value (l ++ r) (Function.update s (M.target l) (some 0))) =
        (assignments (rhs p t)).map fun r => M.value (l ++ r) s :=
      List.map_congr_left fun r hr => M.steady l hl r hr s _
    rw [Code.seq, hzero, Option.bind_some, nested_eq,
      foldlM_accumulate hl (fun _ hr => hr) (Function.update_self ..), hsteady, Function.update_idem, zero_add]
  · have hsize : size (rhs p t) = 1 := by omega
    obtain ⟨r, hr⟩ : ∃ r, assignments (rhs p t) = [r] := by
      rw [← List.length_eq_one_iff, length_assignments, hone hsize]
    have hmem : r ∈ assignments (rhs p t) := hr ▸ List.mem_singleton_self r
    rw [if_pos hsize, nested_eq, hr]
    simp [Meaning.assign, place_none hl, operand_none hl hmem]

theorem run_rolled (htarget : 0 < t.left_size) (hsum : (split t.line).type = .sum)
    (htrailing : trailing (split t.line) = [.semicolon]) (hterms : size (rhs p t) ≠ 0)
    (hone : size (rhs p t) = 1 → volume (rhs p t) = 1) (s : Store V Loc) :
    run M (plant_LHS_forloop p t).flatten s = some (M.assigned s) := by
  rw [(compiles_rolled htarget hsum htrailing).run, nested_eq]
  exact foldlM_eq_foldl fun l hl s => rolled_body_eq hterms hone hl s

/-- The code for a line that is complete. -/
theorem Complete.assigns (htarget : 0 < t.left_size) (hsum : (split t.line).type = .sum) (h : Complete p t) :
    Assigns p t := by
  intro V Loc _ _ M s
  have htrailing := trailing_eq h.semicolon h.comma
  rw [index_assignment]
  split
  · rename_i hunroll
    obtain ⟨hleft, hright, hsigned⟩ := h.unrolled hunroll
    rw [← iterate_eq hleft, ← iterate_eq hright] at hsigned
    rw [run_unrolled htarget hsum htrailing h.targets h.terms hsigned, iterate_eq hleft, iterate_eq hright]
    rfl
  · rename_i hroll
    rw [forloop_index_assignment, if_neg h.targets]
    exact run_rolled htarget hsum htrailing h.terms (h.rolled (by simpa using hroll)) s

end Sums

/-! ### Lines that are not complete -/

section Broken

variable {p : Payload} {t : Template} {V Loc : Type} [AddMonoid V] [DecidableEq Loc] {M : Meaning p t V Loc}

theorem mem_plant_loops {inner : List (List Piece)} {piece : Piece} (h : piece ∈ inner.flatten)
    (indices : List (Char × ℕ)) : piece ∈ (plant_loops inner indices).flatten := by
  induction indices with
  | nil => exact h
  | cons index rest ih =>
    simp [plant_loops, ih]

/-- If the unrolled code can be read, the line ends as a statement. -/
theorem not_open_unrolled (htarget : 0 < t.left_size) (hsplit : (split t.line).type ≠ .none)
    (htargets : size (lhs p t) ≠ 0) (hterms : size (rhs p t) ≠ 0) :
    (∀ piece ∈ trailing (split t.line), piece ∈ (unroll_index_assignment p t).flatten) ∧
      (trailing (split t.line) = [] → Unfinished M (unroll_index_assignment p t).flatten) := by
  have hlast := List.dropLast_append_getLast (iterate_ne_nil htargets)
  obtain ⟨op, hop⟩ := exists_unrolled_operator hsplit
  rw [flatten_unroll htargets, ← hlast, List.flatMap_append, List.flatMap_singleton,
    flatten_unroll_one htarget hop hterms]
  refine ⟨fun piece hpiece => ?_, fun hnil => ?_⟩
  · simp [hpiece]
  · rw [hnil, List.append_nil]
    refine Unfinished.append ?_ _
    have hopen := Unfinished.statement (M := M) (some ((iterate (lhs p t)).getLast (iterate_ne_nil htargets))) op
      ((iterate (rhs p t)).map fun r => some ((iterate (lhs p t)).getLast (iterate_ne_nil htargets) ++ r))
    simpa [Function.comp_def] using hopen

/-- If the code with loops can be read, the line ends as a statement. -/
theorem not_open_rolled (htarget : 0 < t.left_size) (hsplit : (split t.line).type ≠ .none) :
    (∀ piece ∈ trailing (split t.line), piece ∈ (plant_LHS_forloop p t).flatten) ∧
      (trailing (split t.line) = [] → Unfinished M (plant_LHS_forloop p t).flatten) := by
  obtain ⟨op, hop⟩ := exists_rolled_operator hsplit (size (rhs p t) = 1)
  rw [plant_LHS_forloop]
  refine ⟨fun piece hpiece => ?_, fun hnil => ?_⟩
  · refine mem_plant_loops ?_ _
    rw [List.flatten_append, List.mem_append]
    refine Or.inr (mem_plant_loops ?_ _)
    rw [flatten_accumulate htarget hop]
    simp [hpiece]
  · refine Unfinished.plant_loops ?_ _
    rw [List.flatten_append]
    refine Unfinished.append (Unfinished.plant_loops ?_ _) _
    rw [flatten_accumulate htarget hop, hnil]
    exact Unfinished.statement none _ [none]

/-- If code that ends as the line does can be read, the line is a statement. -/
theorem statement_of_run {pieces : List Piece}
    (hopen : (∀ piece ∈ trailing (split t.line), piece ∈ pieces) ∧ (trailing (split t.line) = [] → Unfinished M pieces))
    {s s' : Store V Loc} (h : run M pieces s = some s') :
    (split t.line).semicolon = true ∧ (split t.line).comma = false := by
  cases hcomma : (split t.line).comma with
  | true =>
    have hmem := hopen.1 .comma (by simp [trailing, hcomma])
    rw [run, read_code, foldlM_eq_none_of_comma M hmem] at h
    cases h
  | false =>
    cases hsemicolon : (split t.line).semicolon with
    | true => exact ⟨rfl, rfl⟩
    | false =>
      rw [(hopen.2 (by simp [trailing, hcomma, hsemicolon])).run] at h
      cases h

/-- If there is code, and it can be read, the line ends as a statement. -/
theorem trailing_of_run (htarget : 0 < t.left_size) (hsplit : (split t.line).type ≠ .none)
    (htargets : size (lhs p t) ≠ 0) (hterms : apply_unroll_policy p t = true → size (rhs p t) ≠ 0) {s s' : Store V Loc}
    (h : run M (index_assignment p t).flatten s = some s') :
    (split t.line).semicolon = true ∧ (split t.line).comma = false := by
  refine statement_of_run (M := M) ?_ h
  rw [index_assignment]
  split
  · exact not_open_unrolled htarget hsplit htargets (hterms ‹_›)
  · rw [forloop_index_assignment, if_neg htargets]
    exact not_open_rolled htarget hsplit

/-- A term without a sign cannot be read behind another one. -/
theorem read_unsigned (a : Option Assignment) (op : Operator) (operands : List Operand) (hoperands : operands ≠ [])
    (terms : List (Option Assignment)) (hunsigned : ∃ b ∈ terms, t.is_signed b = false)
    (frames : List (Char × ℕ × Code V Loc)) (before : Code V Loc) :
    (terms.map Piece.right).foldlM (step M) ⟨frames, before, .sum a op operands⟩ = none := by
  induction terms generalizing operands with
  | nil => simp at hunsigned
  | cons b terms ih =>
    rw [List.map_cons, List.foldlM_cons]
    cases hb : t.is_signed b with
    | false => simp [step, hoperands, hb]
    | true =>
      have hrest : ∃ b ∈ terms, t.is_signed b = false := by
        obtain ⟨b', hb', hfalse⟩ := hunsigned
        obtain rfl | hmem := List.mem_cons.mp hb'
        · rw [hb] at hfalse
          cases hfalse
        · exact ⟨b', hmem, hfalse⟩
      simpa [step, hoperands, hb] using ih (operands ++ [.right b]) (by simp) hrest

theorem read_unsigned_line {a b : Option Assignment} {terms : List (Option Assignment)}
    (hunsigned : ∃ b ∈ terms, t.is_signed b = false) (rest : List Piece) (c : Reader V Loc) :
    (Piece.left a :: .equals :: .right b :: (terms.map Piece.right ++ rest)).foldlM (step M) c = none := by
  obtain ⟨frames, code, pending⟩ := c
  cases pending with
  | start => simp [step, read_unsigned a .set [.right b] (by simp) terms hunsigned frames code]
  | sum b op' operands => cases operands <;> simp [step]
  | target b => simp [step]
  | header i n => simp [step]

/-- If unrolled code can be read, the terms have signs. -/
theorem signed_of_run (htarget : 0 < t.left_size) (hsum : (split t.line).type = .sum) (htargets : size (lhs p t) ≠ 0)
    (hterms : size (rhs p t) ≠ 0) {s s' : Store V Loc} (h : run M (unroll_index_assignment p t).flatten s = some s')
    {l r : Assignment} (hl : l ∈ iterate (lhs p t)) (hr : r ∈ (iterate (rhs p t)).tail) : t.signed (l ++ r) = true := by
  by_contra hunsigned
  obtain ⟨r₀, rs, heq⟩ := List.exists_cons_of_ne_nil (iterate_ne_nil hterms)
  obtain ⟨before, after, hsplit⟩ := List.append_of_mem hl
  rw [heq, List.tail_cons] at hr
  have hterm : ∃ b ∈ rs.map fun r => some (l ++ r), t.is_signed b = false :=
    ⟨some (l ++ r), List.mem_map_of_mem hr, by simpa [Template.is_signed] using hunsigned⟩
  have hfail := read_unsigned_line (M := M) (a := some l) (b := some (l ++ r₀)) hterm (trailing (split t.line))
  have hline : (unroll_one p t l).flatten = .left (some l) :: .equals :: .right (some (l ++ r₀)) ::
      ((rs.map fun r => some (l ++ r)).map Piece.right ++ trailing (split t.line)) := by
    have hop : unrolled_operator (split t.line).type = [Operator.set.piece] := by rw [hsum]; rfl
    rw [flatten_unroll_one htarget hop hterms, heq]
    simp [Function.comp_def, Operator.piece]
  rw [run, read_code, flatten_unroll htargets, hsplit, List.flatMap_append, List.flatMap_cons, hline,
    List.foldlM_append] at h
  have hnone : ∀ c : Reader V Loc, (Piece.left (some l) :: .equals :: .right (some (l ++ r₀)) ::
      ((rs.map fun r => some (l ++ r)).map Piece.right ++ trailing (split t.line)) ++
        after.flatMap fun l => (unroll_one p t l).flatten).foldlM (step M) c = none := by
    intro c
    rw [List.foldlM_append, hfail]
    rfl
  cases hbefore : (before.flatMap fun l => (unroll_one p t l).flatten).foldlM (step M) ⟨[], .skip, .start⟩ with
  | none => simp [hbefore] at h
  | some c =>
    rw [hbefore, Option.bind_eq_bind, Option.bind_some, hnone] at h
    cases h

end Broken

section Ones

variable {p : Payload} {t : Template}

variable (p t) in
/-- All terms are one, and each target is a place of its own. -/
def ones : Meaning p t ℕ Assignment where
  target := id
  value _ _ := 1
  steady _ _ _ _ _ _ := rfl

/-- Nothing has been assigned. -/
def fresh : Store ℕ Assignment := fun _ => none

theorem foldl_update (ls : List Assignment) (c : ℕ) (s : Store ℕ Assignment) (x : Assignment) :
    ls.foldl (fun s l => Function.update s l (some c)) s x = if x ∈ ls then some c else s x := by
  induction ls generalizing s with
  | nil => simp
  | cons l ls ih =>
    rw [List.foldl_cons, ih]
    by_cases hx : x = l
    · simp [hx]
    · simp [hx]

theorem ones_assigned {l : Assignment} (hl : l ∈ assignments (lhs p t)) :
    (ones p t).assigned fresh l = some (volume (rhs p t)) := by
  have hsum : ((assignments (rhs p t)).map fun _ => 1).sum = volume (rhs p t) := by
    simp [length_assignments]
  simp only [Meaning.assigned, ones, hsum, id_eq]
  rw [foldl_update, if_pos hl]

/-- A line whose code assigns the sums has targets. -/
theorem targets_of_assigns (h : Assigns p t) {l : Assignment} (hl : l ∈ assignments (lhs p t)) :
    size (lhs p t) ≠ 0 := by
  intro hzero
  have hrun := h ℕ Assignment (ones p t) fresh
  have hcomment : index_assignment p t = [[.comment SKIPPED]] := by
    simp [index_assignment, unroll_index_assignment, forloop_index_assignment, hzero]
  rw [hcomment, List.flatten_singleton, (Compiles.comment SKIPPED).run] at hrun
  have hvalue := ones_assigned hl
  rw [← Option.some.inj hrun] at hvalue
  cases hvalue

/-- **Without terms** nothing is assigned. -/
theorem run_of_no_terms (htarget : 0 < t.left_size) (hsum : (split t.line).type = .sum) (htargets : size (lhs p t) ≠ 0)
    (hterms : size (rhs p t) = 0) {s' : Store ℕ Assignment}
    (h : run (ones p t) (index_assignment p t).flatten fresh = some s') : s' = fresh := by
  cases hunroll : apply_unroll_policy p t with
  | true =>
    have hnil : (index_assignment p t).flatten = [] := by
      rw [index_assignment, if_pos hunroll, flatten_unroll htargets]
      simp [unroll_one_eq_nil hterms]
    rw [hnil, Compiles.nil.run] at h
    exact (Option.some.inj h).symm
  | false =>
    obtain ⟨hsemicolon, hcomma⟩ := trailing_of_run htarget (by simp [hsum]) htargets (by simp [hunroll]) h
    rw [index_assignment, if_neg (by simp [hunroll]), forloop_index_assignment, if_neg htargets,
      (compiles_rolled htarget hsum (trailing_eq hsemicolon hcomma)).run, nested_eq] at h
    refine foldlM_invariant (P := fun s => s = fresh) ?_ rfl h
    rintro l s s₁ rfl hbody
    rw [rolled_body, if_neg (by omega), if_neg (by omega), nested_eq] at hbody
    refine foldlM_invariant (P := fun s => s = fresh) ?_ rfl hbody
    rintro r s s₂ rfl hadd
    cases hadd

/-- Unrolled code of a line that assigns the sums. -/
theorem unrolled_of_assigns (htarget : 0 < t.left_size) (hsum : (split t.line).type = .sum) (h : Assigns p t)
    {l₀ : Assignment} (hl₀ : l₀ ∈ assignments (lhs p t)) (hterms : size (rhs p t) ≠ 0)
    (hunroll : apply_unroll_policy p t = true) : volume (lhs p t) < 2 ^ 32 ∧ volume (rhs p t) < 2 ^ 32 ∧
      ∀ l ∈ assignments (lhs p t), ∀ r ∈ (assignments (rhs p t)).tail, t.signed (l ++ r) = true := by
  have htargets := targets_of_assigns h hl₀
  have hrun := h ℕ Assignment (ones p t) fresh
  obtain ⟨hsemicolon, hcomma⟩ := trailing_of_run htarget (by simp [hsum]) htargets (fun _ => hterms) hrun
  rw [index_assignment, if_pos hunroll] at hrun
  have hsigned := fun l hl r hr => signed_of_run htarget hsum htargets hterms hrun (l := l) (r := r) hl hr
  rw [run_unrolled htarget hsum (trailing_eq hsemicolon hcomma) htargets hterms hsigned] at hrun
  have hvalue : ∀ l ∈ assignments (lhs p t),
      (if l ∈ iterate (lhs p t) then some (size (rhs p t)) else none) = some (volume (rhs p t)) := by
    intro l hl
    have hlist : ((iterate (rhs p t)).map fun _ => 1).sum = size (rhs p t) := by
      simp [length_iterate]
    rw [← ones_assigned hl, ← Option.some.inj hrun]
    simp only [ones, hlist, id_eq]
    rw [foldl_update]
    rfl
  have hmem : assignments (lhs p t) ⊆ iterate (lhs p t) := by
    intro l hl
    by_contra hnot
    have hnone := hvalue l hl
    rw [if_neg hnot] at hnone
    cases hnone
  have hlt : ∀ indices, size indices < 2 ^ 32 := fun indices => by
    rw [size_eq]
    exact Nat.mod_lt _ (by decide)
  have hleft : volume (lhs p t) < 2 ^ 32 := by
    have hle := (List.subperm_of_subset (nodup_assignments (lhs p t)) hmem).length_le
    rw [length_assignments, length_iterate] at hle
    exact hle.trans_lt (hlt _)
  have hright : volume (rhs p t) < 2 ^ 32 := by
    have hsize := hvalue l₀ hl₀
    rw [if_pos (hmem hl₀)] at hsize
    rw [← Option.some.inj hsize]
    exact hlt _
  refine ⟨hleft, hright, ?_⟩
  rwa [iterate_eq hleft, iterate_eq hright] at hsigned

/-- Code with loops of a line that assigns the sums. -/
theorem rolled_of_assigns (htarget : 0 < t.left_size) (hsum : (split t.line).type = .sum) (h : Assigns p t)
    {l₀ : Assignment} (hl₀ : l₀ ∈ assignments (lhs p t)) (hroll : apply_unroll_policy p t = false)
    (hone : size (rhs p t) = 1) : volume (rhs p t) = 1 := by
  have htargets := targets_of_assigns h hl₀
  have hrun := h ℕ Assignment (ones p t) fresh
  obtain ⟨hsemicolon, hcomma⟩ := trailing_of_run htarget (by simp [hsum]) htargets (by omega) hrun
  rw [index_assignment, if_neg (by simp [hroll]), forloop_index_assignment, if_neg htargets,
    (compiles_rolled htarget hsum (trailing_eq hsemicolon hcomma)).run, nested_eq] at hrun
  -- each assignment is of one term
  have hones : ∀ x v, (ones p t).assigned fresh x = some v → v = 1 := by
    refine foldlM_invariant (P := fun s : Store ℕ Assignment => ∀ x v, s x = some v → v = 1) ?_ ?_ hrun
    · intro l s s₁ hs hbody
      rw [rolled_body, if_neg (by omega), if_pos hone, nested_eq] at hbody
      refine foldlM_invariant (P := fun s : Store ℕ Assignment => ∀ x v, s x = some v → v = 1) ?_ hs hbody
      intro r s s₂ hs hset x v hv
      obtain rfl := Option.some.inj hset
      rw [Function.update_apply] at hv
      split at hv
      · exact (Option.some.inj hv).symm
      · exact hs x v hv
    · intro x v hv
      cases hv
  exact hones l₀ _ (ones_assigned hl₀)

end Ones

/-! ### The exact condition -/

/-- A text that a line contains is found. -/
theorem infix_isSome_find {line text : List Char} (h : text <:+: line) : (find line text).isSome = true := by
  obtain ⟨before, after, heq⟩ := h
  rw [find, List.find?_isSome]
  refine ⟨before.length, ?_, ?_⟩
  · have hlength := congrArg List.length heq
    rw [List.length_append, List.length_append] at hlength
    rw [List.mem_range]
    omega
  · rw [List.isPrefixOf_iff_prefix, ← heq, List.append_assoc, List.drop_left]
    exact List.prefix_append ..

/-- A line that contains `$=` is split there. -/
theorem split_type_of_infix {line : List Char} (h : BACKEND_LINE_SPLIT_EQUAL <:+: line) : (split line).type = .sum := by
  obtain ⟨i, hi⟩ := Option.isSome_iff_exists.mp (infix_isSome_find h)
  simp only [split, hi]

/-- The line `x[$a] $= + y[$a] * m[$1];` -/
def parameter_sum (status : unroll_state) : Template where
  line := "x[$a] $= + y[$a] * m[$1];".toList
  left_indices := ⟨['a'], by decide⟩
  right_indices := ⟨['a', '1'], by decide⟩
  left_size := 3
  right_status := status
  signed _ := true

/-- The model without parameters. -/
def no_parameters : Payload where
  fields := 2
  parameters := 0
  unroll_policy := 1000

theorem not_assigns_of_run {status : unroll_state}
    (h : run (ones no_parameters (parameter_sum status)) (index_assignment no_parameters (parameter_sum status)).flatten
      fresh = some fresh) : ¬ Assigns no_parameters (parameter_sum status) := by
  intro hassigns
  have hrun := hassigns ℕ Assignment (ones _ _) fresh
  rw [h, Option.some.injEq] at hrun
  have hvalue : fresh [('a', 0)] = some 0 := by
    rw [hrun, ones_assigned]
    · rfl
    · change [('a', 0)] ∈ [[('a', 0)], [('a', 1)]]
      decide
  cases hvalue

end CppTransport.Translator.SumAssignment
