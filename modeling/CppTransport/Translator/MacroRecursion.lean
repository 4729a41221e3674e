import Mathlib.Order.Lattice

/-!
# The recursion guard of the macro agent

`macro_agent::apply` expands one line of a template. A replacement rule that is evaluated on the
way may itself call `apply`: `$TEMP_POOL` does, for the temporaries that it deposits. The agent
counts how deeply the calls are nested, and refuses to expand a line beyond a limit.

## The model

What a piece of the translator does, as far as the guard is concerned, is a `Script`: it returns,
throws, calls `apply` for a line, or runs something inside a `try` block; what comes next may
depend on the outcome. `apply_line` and the evaluation of tokens are such scripts, put together
from what the rules do; texts are modelled only by what they are made of. `execute` runs a script
with the counter `recursion_depth`, an `unsigned int`, and notes for every call of `apply` the
value of the counter before and after it.

## What is proved

`neutral_iff`: every call of `apply` leaves the counter as it found it if and only if no exception
leaves a call and the calls are not nested too deeply. A call that is refused, and one that is left
by an exception, does not decrement the counter again: so `pool_not_neutral`, where the exception
is caught by the token that is being evaluated.
-/

namespace CppTransport.Translator

namespace MacroRecursion

/-- An exception, with its text. -/
inductive exception where
  | rule_apply_fail (what : String)
  | argument_mismatch (what : String)
  | index_mismatch (what : String)
  | resource_failure (what : String)
  /-- Any other. -/
  | other (what : String)
deriving DecidableEq, Repr

/-- What a piece of the translator does. It returns some texts unless it throws. -/
inductive Script where
  /-- It returns. -/
  | done (lines : List String)
  /-- It throws. -/
  | throw (e : exception)
  /-- It calls `apply`, which expands a line or refuses to. -/
  | apply (line : Script) (k : Option (List String) → Script)
  /-- It runs something inside a `try` block. -/
  | attempt (body : Script) (k : Except exception (List String) → Script)

/-! ### The guard -/

/-- A call of `apply`: the counter before and after. -/
structure Call where
  /-- Before. -/
  before : UInt32
  /-- After. -/
  after : UInt32
deriving DecidableEq, Repr

/-- What has happened when something has run. -/
structure Run (α : Type) where
  /-- The counter. -/
  recursion_depth : UInt32
  /-- The calls of `apply`, those that ended first coming first. -/
  calls : List Call
  /-- How it ended. -/
  outcome : Except exception α

/-- `macro_agent::apply`, for a line that is expanded by `apply_line`. -/
def apply (recursion_max : UInt32) (apply_line : UInt32 → Run (List String)) (recursion_depth : UInt32) :
    Run (Option (List String)) :=
  if recursion_depth + 1 < recursion_max then
    let r := apply_line (recursion_depth + 1)
    match r.outcome with
    | .ok lines =>
      ⟨r.recursion_depth - 1, r.calls ++ [⟨recursion_depth, r.recursion_depth - 1⟩], .ok (some lines)⟩
    | .error e => ⟨r.recursion_depth, r.calls ++ [⟨recursion_depth, r.recursion_depth⟩], .error e⟩
  else
    -- a warning is issued, and nothing is returned
    ⟨recursion_depth + 1, [⟨recursion_depth, recursion_depth + 1⟩], .ok none⟩

/-- Something else runs afterwards. -/
def Run.after {α β : Type} (r : Run α) (r' : Run β) : Run β := { r' with calls := r.calls ++ r'.calls }

/-- Run a script. -/
def execute (recursion_max : UInt32) : Script → UInt32 → Run (List String)
  | .done lines, depth => ⟨depth, [], .ok lines⟩
  | .throw e, depth => ⟨depth, [], .error e⟩
  | .apply line k, depth =>
    let r := apply recursion_max (execute recursion_max line) depth
    match r.outcome with
    | .ok result => r.after (execute recursion_max (k result) r.recursion_depth)
    | .error e => ⟨r.recursion_depth, r.calls, .error e⟩
  | .attempt body k, depth =>
    let r := execute recursion_max body depth
    r.after (execute recursion_max (k r.outcome) r.recursion_depth)

/-! ### Lines -/

/-- The kinds of evaluation of a token. -/
inductive token_kind where
  | simple_macro_token
  | index_macro_pre
  | index_macro_unroll
  | index_macro_roll
  | simple_directive
  | index_directive
  | index_literal
deriving DecidableEq, Repr

/-- Which exceptions of a rule are caught where the token is evaluated. -/
def token_kind.catches : token_kind → exception → Bool
  | .simple_macro_token, .argument_mismatch _ | .simple_macro_token, .rule_apply_fail _ => true
  | .index_macro_pre, .argument_mismatch _ | .index_macro_pre, .index_mismatch _
  | .index_macro_pre, .rule_apply_fail _ => true
  | .index_macro_unroll, .argument_mismatch _ | .index_macro_unroll, .index_mismatch _
  | .index_macro_unroll, .rule_apply_fail _ => true
  | .index_macro_roll, .rule_apply_fail _ | .index_macro_roll, .resource_failure _ => true
  | .simple_directive, .argument_mismatch _ | .simple_directive, .rule_apply_fail _ => true
  | .index_directive, .argument_mismatch _ | .index_directive, .index_mismatch _
  | .index_directive, .rule_apply_fail _ => true
  | _, _ => false

/-- The evaluation of a token. -/
structure Token where
  /-- What is evaluated. -/
  kind : token_kind
  /-- What is thrown outside the `try` block, such as `rule_apply_fail` for an index without a value. -/
  fails : Option exception
  /-- The rule. -/
  rule : Script

/-- Evaluate a token, and go on with its conversion. -/
def Token.evaluate (t : Token) (k : List String → Script) : Script :=
  match t.fails with
  | some e => .throw e
  | none => .attempt t.rule fun
    | .ok conversion => k conversion
    | .error e => if t.kind.catches e then k [] else .throw e

/-- Evaluate tokens one after another, and go on with their conversions. -/
def evaluate_all : List Token → (List String → Script) → Script
  | [], k => k []
  | t :: ts, k => t.evaluate fun conversion => evaluate_all ts fun rest => k (conversion ++ rest)

/-- A line, as far as its expansion is concerned. -/
structure Line where
  /-- The directives, which are evaluated when the line is tokenized. -/
  directives : List Token
  /-- Output is enabled once the line has been tokenized. -/
  output_enabled : Bool
  /-- There is a split point. -/
  split : Bool
  /-- The line is a directive. -/
  is_directive : Bool
  /-- The pre-macros, on the left and then on the right. -/
  pre : List Token
  /-- The other tokens in the order in which they are evaluated, each as often as there are index assignments for it. -/
  tokens : List Token

/-- `macro_agent::apply_line`. -/
def apply_line (l : Line) : Script :=
  evaluate_all l.directives fun conversions =>
    if !l.output_enabled then .done []
    -- an error is reported for a directive with a split point
    else if l.split && l.is_directive then .done []
    else if l.is_directive then .done conversions
    else evaluate_all l.pre fun pre => evaluate_all l.tokens fun rest => .done (pre ++ rest)

/-- Lines are expanded one after another: by `translator::process_line` in a loop, and by
`replace_temp_pool::deposit_temporaries`. What is returned for a line is written, if anything is. -/
def expand (lines : List Line) (k : Script) : Script :=
  lines.foldr (fun line rest => .apply (apply_line line) fun _ => rest) k

/-- `$TEMP_POOL`: the temporaries found so far are deposited. -/
def temp_pool (temps : List Line) : Token where
  kind := .simple_macro_token
  fails := none
  rule := expand temps (.done [])

/-! ### What a script does when nothing is refused -/

namespace Script

/-- How it ends. -/
def outcome : Script → Except exception (List String)
  | done lines => .ok lines
  | throw e => .error e
  | apply line k =>
    match line.outcome with
    | .ok lines => (k (some lines)).outcome
    | .error e => .error e
  | attempt body k => (k body.outcome).outcome

/-- No exception leaves a call of `apply`. -/
def Calm : Script → Prop
  | done _ => True
  | throw _ => True
  | apply line k => line.Calm ∧ ∃ lines, line.outcome = .ok lines ∧ (k (some lines)).Calm
  | attempt body k => body.Calm ∧ (k body.outcome).Calm

/-- How deeply calls of `apply` are nested. -/
def nesting : Script → ℕ
  | done _ => 0
  | throw _ => 0
  | apply line k => max (line.nesting + 1) (match line.outcome with
    | .ok lines => (k (some lines)).nesting
    | .error _ => 0)
  | attempt body k => max body.nesting (k body.outcome).nesting

/-- No call of `apply` is refused or left by an exception, when the script runs at a depth. -/
def Fits (recursion_max : UInt32) : Script → UInt32 → Prop
  | done _, _ => True
  | throw _, _ => True
  | apply line k, depth => depth + 1 < recursion_max ∧ line.Fits recursion_max (depth + 1) ∧
      ∃ lines, line.outcome = .ok lines ∧ (k (some lines)).Fits recursion_max depth
  | attempt body k, depth => body.Fits recursion_max depth ∧ (k body.outcome).Fits recursion_max depth

end Script

/-! ### The counter -/

/-- Every call of `apply` has left the counter as it found it. -/
def Run.Neutral {α : Type} (r : Run α) : Prop := ∀ c ∈ r.calls, c.after = c.before

section Counter

variable {recursion_max depth : UInt32}

theorem neutral_after {α β : Type} {r : Run α} {r' : Run β} : (r.after r').Neutral ↔ r.Neutral ∧ r'.Neutral :=
  List.forall_mem_append

/-- Counting moves the counter. -/
theorem add_one_ne (d : UInt32) : d + 1 ≠ d := by
  intro h
  simp at h

/-- A call of `apply` is neutral just if it is not refused, what it does is neutral, and it returns. -/
theorem neutral_apply_iff (recursion_max : UInt32) (line : UInt32 → Run (List String))
    (hline : (line (depth + 1)).Neutral → (line (depth + 1)).recursion_depth = depth + 1) :
    (apply recursion_max line depth).Neutral ↔
      depth + 1 < recursion_max ∧ (line (depth + 1)).Neutral ∧ ∃ lines, (line (depth + 1)).outcome = .ok lines := by
  by_cases hlt : depth + 1 < recursion_max
  · cases hout : (line (depth + 1)).outcome with
    | ok lines =>
      have hcalls : (apply recursion_max line depth).calls =
          (line (depth + 1)).calls ++ [⟨depth, (line (depth + 1)).recursion_depth - 1⟩] := by
        simp [apply, hlt, hout]
      rw [Run.Neutral, hcalls, List.forall_mem_append, List.forall_mem_singleton]
      refine ⟨fun h => ⟨hlt, h.1, lines, rfl⟩, fun h => ⟨h.2.1, ?_⟩⟩
      rw [hline h.2.1, UInt32.add_sub_cancel]
    | error e =>
      have hcalls : (apply recursion_max line depth).calls =
          (line (depth + 1)).calls ++ [⟨depth, (line (depth + 1)).recursion_depth⟩] := by
        simp [apply, hlt, hout]
      rw [Run.Neutral, hcalls, List.forall_mem_append, List.forall_mem_singleton]
      refine iff_of_false (fun h => ?_) fun h => ?_
      · -- the counter has not been decremented
        exact add_one_ne depth ((hline h.1).symm.trans h.2)
      · obtain ⟨-, -, lines, hlines⟩ := h
        cases hlines
  · have hcalls : (apply recursion_max line depth).calls = [⟨depth, depth + 1⟩] := by simp [apply, hlt]
    rw [Run.Neutral, hcalls, List.forall_mem_singleton]
    exact iff_of_false (add_one_ne depth) fun h => hlt h.1

/-- A call of `apply` that is not refused returns what the line expands to. -/
theorem apply_eq {line : UInt32 → Run (List String)} {lines : List String} (hlt : depth + 1 < recursion_max)
    (hdepth : (line (depth + 1)).recursion_depth = depth + 1) (hout : (line (depth + 1)).outcome = .ok lines) :
    (apply recursion_max line depth).recursion_depth = depth ∧
      (apply recursion_max line depth).outcome = .ok (some lines) := by
  simp [apply, hlt, hout, hdepth]

/-- A script that goes on after a call of `apply` is neutral only if the call is. -/
theorem neutral_apply_of_execute {line : Script} {k : Option (List String) → Script}
    (h : (execute recursion_max (.apply line k) depth).Neutral) :
    (apply recursion_max (execute recursion_max line) depth).Neutral := by
  rw [execute] at h
  cases hout : (apply recursion_max (execute recursion_max line) depth).outcome with
  | ok result =>
    simp only [hout] at h
    exact (neutral_after.mp h).1
  | error e =>
    simp only [hout] at h
    exact h

/-- **A script runs neutrally** just if no call is refused or left by an exception. Then it ends as it would without a
guard, and leaves the counter as it was. -/
theorem execute_spec (recursion_max : UInt32) (s : Script) (depth : UInt32) :
    ((execute recursion_max s depth).Neutral ↔ s.Fits recursion_max depth) ∧
      ((execute recursion_max s depth).Neutral →
        (execute recursion_max s depth).recursion_depth = depth ∧
          (execute recursion_max s depth).outcome = s.outcome) := by
  induction s generalizing depth with
  | done lines => exact ⟨⟨fun _ => trivial, fun _ => List.forall_mem_nil _⟩, fun _ => ⟨rfl, rfl⟩⟩
  | throw e => exact ⟨⟨fun _ => trivial, fun _ => List.forall_mem_nil _⟩, fun _ => ⟨rfl, rfl⟩⟩
  | apply line k ihline ihk =>
    obtain ⟨hfits, hends⟩ := ihline (depth + 1)
    have hcall := neutral_apply_iff recursion_max (execute recursion_max line) fun h => (hends h).1
    by_cases hn : (apply recursion_max (execute recursion_max line) depth).Neutral
    · obtain ⟨hlt, hline, lines, hout⟩ := hcall.mp hn
      obtain ⟨hdepth, houtcome⟩ := hends hline
      obtain ⟨hback, hresult⟩ := apply_eq hlt hdepth hout
      have hexec : execute recursion_max (.apply line k) depth =
          (apply recursion_max (execute recursion_max line) depth).after
            (execute recursion_max (k (some lines)) depth) := by
        simp only [execute, hresult, hback]
      have hlines : line.outcome = .ok lines := houtcome.symm.trans hout
      rw [hexec, neutral_after]
      refine ⟨⟨fun h => ⟨hlt, hfits.mp hline, lines, hlines, (ihk _ _).1.mp h.2⟩, ?_⟩, fun h => ?_⟩
      · rintro ⟨-, -, lines', hlines', hk⟩
        obtain rfl : lines = lines' := Except.ok.inj (hlines.symm.trans hlines')
        exact ⟨hn, (ihk _ _).1.mpr hk⟩
      · rw [Script.outcome, hlines]
        exact (ihk _ _).2 h.2
    · have hnot : ¬ (execute recursion_max (.apply line k) depth).Neutral := fun h => hn (neutral_apply_of_execute h)
      refine ⟨iff_of_false hnot ?_, fun h => absurd h hnot⟩
      rintro ⟨hlt, hline, lines, hlines, -⟩
      have hline' := hfits.mpr hline
      exact hn (hcall.mpr ⟨hlt, hline', lines, (hends hline').2.trans hlines⟩)
  | attempt body k ihbody ihk =>
    obtain ⟨hfits, hends⟩ := ihbody depth
    rw [execute, neutral_after]
    by_cases hn : (execute recursion_max body depth).Neutral
    · obtain ⟨hdepth, houtcome⟩ := hends hn
      rw [hdepth, houtcome]
      exact ⟨⟨fun h => ⟨hfits.mp hn, (ihk _ _).1.mp h.2⟩, fun h => ⟨hn, (ihk _ _).1.mpr h.2⟩⟩,
        fun h => (ihk _ _).2 h.2⟩
    · exact ⟨iff_of_false (fun h => hn h.1) fun h => hn (hfits.mpr h.1), fun h => absurd h.1 hn⟩

/-- Nothing is refused or left by an exception just if the script is calm and its calls are not nested too deeply. -/
theorem Script.fits_iff (recursion_max : UInt32) (s : Script) (depth : UInt32) :
    s.Fits recursion_max depth ↔
      s.Calm ∧ (s.nesting = 0 ∨ (depth + 1).toNat + s.nesting ≤ recursion_max.toNat) := by
  induction s generalizing depth with
  | done lines => simp [Fits, Calm, nesting]
  | throw e => simp [Fits, Calm, nesting]
  | apply line k ihline ihk =>
    rw [Fits, Calm, ihline]
    cases hout : line.outcome with
    | error e => simp
    | ok lines =>
      have hex : ∀ P : List String → Prop,
          (∃ lines', Except.ok (ε := exception) lines = .ok lines' ∧ P lines') ↔ P lines := by
        simp
      rw [hex, hex, ihk, nesting, hout]
      simp only
      have hlt : depth + 1 < recursion_max ↔ (depth + 1).toNat + 1 ≤ recursion_max.toNat := by
        rw [UInt32.lt_iff_toNat_lt]
        omega
      have hsucc : depth + 1 < recursion_max → (depth + 1 + 1).toNat = (depth + 1).toNat + 1 := by
        intro h
        have := recursion_max.toNat_lt
        rw [UInt32.toNat_add, Nat.mod_eq_of_lt]
        · rfl
        · rw [hlt] at h
          have h1 : (1 : UInt32).toNat = 1 := rfl
          omega
      constructor
      · rintro ⟨hmax, ⟨hline, hnest⟩, hk, hnest'⟩
        have hs := hsucc hmax
        rw [hlt] at hmax
        refine ⟨⟨hline, hk⟩, .inr ?_⟩
        omega
      · rintro ⟨⟨hline, hk⟩, hnest⟩
        have hmax : depth + 1 < recursion_max := by
          rw [hlt]
          omega
        have hs := hsucc hmax
        refine ⟨hmax, ⟨hline, ?_⟩, hk, ?_⟩
        · omega
        · omega
  | attempt body k ihbody ihk =>
    rw [Fits, Calm, ihbody, ihk, nesting]
    constructor
    · rintro ⟨⟨hbody, hnest⟩, hk, hnest'⟩
      refine ⟨⟨hbody, hk⟩, ?_⟩
      omega
    · rintro ⟨⟨hbody, hk⟩, hnest⟩
      refine ⟨⟨hbody, ?_⟩, hk, ?_⟩
      · omega
      · omega

/-- **The guard is neutral**: every call of `apply` leaves the counter as it found it, if and only if no exception leaves
a call and the calls are not nested too deeply. -/
theorem neutral_iff (recursion_max : UInt32) (s : Script) (depth : UInt32) :
    (execute recursion_max s depth).Neutral ↔
      s.Calm ∧ (s.nesting = 0 ∨ (depth + 1).toNat + s.nesting ≤ recursion_max.toNat) :=
  (execute_spec recursion_max s depth).1.trans (s.fits_iff recursion_max depth)

/-- A sequence of lines goes through just if each of them does. -/
theorem fits_expand (lines : List Line) (k : Script) :
    (expand lines k).Fits recursion_max depth ↔
      (∀ l ∈ lines, depth + 1 < recursion_max ∧ (apply_line l).Fits recursion_max (depth + 1) ∧
        ∃ texts, (apply_line l).outcome = .ok texts) ∧ k.Fits recursion_max depth := by
  induction lines with
  | nil => simp [expand]
  | cons l lines ih =>
    have hcons : expand (l :: lines) k = .apply (apply_line l) fun _ => expand lines k := rfl
    rw [hcons, Script.Fits, List.forall_mem_cons, ih]
    constructor
    · rintro ⟨hlt, hline, texts, hout, hrest, hk⟩
      exact ⟨⟨⟨hlt, hline, texts, hout⟩, hrest⟩, hk⟩
    · rintro ⟨⟨⟨hlt, hline, texts, hout⟩, hrest⟩, hk⟩
      exact ⟨hlt, hline, texts, hout, hrest, hk⟩

/-- However many lines there are at top level, the counter is the same for each if they do not nest too deeply and
no exception leaves a call. -/
theorem expand_neutral {lines : List Line}
    (hcalm : ∀ l ∈ lines, (apply_line l).Calm ∧ ∃ texts, (apply_line l).outcome = .ok texts)
    (hnest : ∀ l ∈ lines, (apply_line l).nesting + 2 ≤ recursion_max.toNat) :
    (execute recursion_max (expand lines (.done [])) 0).Neutral := by
  refine (execute_spec recursion_max _ 0).1.mpr ((fits_expand lines _).mpr ⟨fun l hl => ?_, trivial⟩)
  have hl' := hnest l hl
  have h1 : (0 + 1 : UInt32).toNat = 1 := rfl
  have h2 : (0 + 1 + 1 : UInt32).toNat = 2 := rfl
  refine ⟨UInt32.lt_iff_toNat_lt.mpr (by omega), ((apply_line l).fits_iff recursion_max _).mpr
    ⟨(hcalm l hl).1, .inr (by omega)⟩, (hcalm l hl).2⟩

end Counter

/-- A line with an index that has no value. -/
def unassigned : Line where
  directives := []
  output_enabled := true
  split := false
  is_directive := false
  pre := []
  tokens := [⟨.index_literal, some (.rule_apply_fail "Internal error: missing index assignment 'A'"), .done []⟩]

/-- A line that deposits such a line as a temporary. -/
def pool : Line where
  directives := []
  output_enabled := true
  split := false
  is_directive := false
  pre := [temp_pool [unassigned]]
  tokens := []

/-- The exception leaves the inner call, and is caught while the token is evaluated: the counter stays too high. -/
theorem pool_not_neutral : ¬ (execute 127 (expand [pool] (.done [])) 0).Neutral := by
  have hcalls : (execute 127 (expand [pool] (.done [])) 0).calls = [⟨1, 2⟩, ⟨0, 1⟩] := by decide +kernel
  rw [Run.Neutral, hcalls]
  decide

end MacroRecursion

end CppTransport.Translator
