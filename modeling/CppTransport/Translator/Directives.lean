import Mathlib.Data.List.Basic

/-!
# Conditional directives in templates

A template line may be one of the directives `$IF{..}`, `$ELSE` and `$ENDIF`
(`shared/directives.cpp`). They share a stack of `if_record`s, and each of them sets
the output flag of the `macro_agent` from the record that is then on top. While the
flag is off, `macro_agent::apply_line` returns no output for a line.

## The model

`Agent` is the if-stack of the directive package together with the output flag of the
macro agent; `apply_line` processes one line. Directives are evaluated when the line
is tokenized, which is before the flag is tested. The replacement of macros in a line
that is emitted, line splitting and timing are left out: a text line is emitted as it
stands. A `Template` is a well-paired sequence of lines, given by its nesting; `lines`
writes it out, and `marked` says of each line whether every block around it is in its
live branch.

## What is proved

The templates are exactly the sequences of lines that raise no error and leave no block
open (`wellPaired_iff_exists_template`). Looking only at the top record is enough exactly
for the templates of which no dead branch holds an `$IF` with a true condition or with an
`$ELSE` (`conforms_iff_inertWhenDead`): otherwise output comes back on in the dead branch
(`nested_true_block_emitted`).
-/

namespace CppTransport.Translator

/-! ### Records and directives -/

def ERROR_UNPAIRED_ELSE : String := "Unexpected $ELSE without opening $IF"

def ERROR_UNPAIRED_ENDIF : String := "Unexpected $ENDIF without opening $IF"

def ERROR_DUPLICATE_ELSE : String := "Duplicate $ELSE clause"

/-- An open `$IF`. -/
structure if_record where
  /-- String version of the condition. -/
  condition : String
  /-- The truth value. -/
  value : Bool
  /-- Still in the if-branch? -/
  if_branch : Bool
  /-- Is output enabled in the current branch? -/
  enabled : Bool

namespace if_record

/-- The constructor. -/
def create (c : String) (v : Bool) : if_record where
  condition := c
  value := v
  if_branch := true
  enabled := v

/-- The record moves to its else-branch. -/
def mark_else_branch (r : if_record) : if_record := { r with if_branch := false, enabled := !r.value }

end if_record

/-- The if-stack, innermost record first, and the output flag of the macro agent. -/
structure Agent where
  /-- Records of the open `$IF`s. -/
  istack : List if_record
  /-- Is output enabled? -/
  output_enabled : Bool

/-- The truth value of a condition, in a translation with or without the `fast` option. -/
def truth (fast : Bool) (condition : String) : Bool :=
  (condition == "fast" && fast) || (condition == "!fast" && !fast)

/-- `if_directive::apply`. -/
def if_directive (fast : Bool) (condition : String) (a : Agent) : Except String (Agent × String) :=
  let r := if_record.create condition (truth fast condition)
  .ok ({ istack := r :: a.istack, output_enabled := r.enabled }, "IF " ++ condition)

/-- `else_directive::apply`. -/
def else_directive (a : Agent) : Except String (Agent × String) :=
  match a.istack with
  | [] => .error ERROR_UNPAIRED_ELSE
  | top :: rest =>
    if !top.if_branch then .error ERROR_DUPLICATE_ELSE
    else
      let r := top.mark_else_branch
      .ok ({ istack := r :: rest, output_enabled := r.enabled }, "ELSE " ++ r.condition)

/-- `istack.size() == 0 || istack.top().is_enabled()`. -/
def top_enabled : List if_record → Bool
  | [] => true
  | r :: _ => r.enabled

/-- `endif_directive::apply`. -/
def endif_directive (a : Agent) : Except String (Agent × String) :=
  match a.istack with
  | [] => .error ERROR_UNPAIRED_ENDIF
  | top :: rest => .ok ({ istack := rest, output_enabled := top_enabled rest }, "ENDIF " ++ top.condition)

/-! ### Lines -/

def NOTIFY_DIRECTIVE_NOT_EVALUATED : String := "Note: output disabled, so did not evaluate directive"

/-- A directive. -/
inductive Directive where
  /-- `$IF{condition}`. -/
  | ifD (condition : String)
  /-- `$ELSE`. -/
  | elseD
  /-- `$ENDIF`. -/
  | endifD
  /-- Another directive, such as `$SET`, with what it converts to; it is not applied while output is
  disabled. -/
  | other (name conversion : String)
  deriving DecidableEq

/-- A template line. -/
inductive Line where
  /-- A line that holds a directive. -/
  | directive (d : Directive)
  /-- Any other line. -/
  | text (s : String)
  deriving DecidableEq

/-- An output line. -/
inductive Emitted where
  /-- A directive, printed as a comment. -/
  | comment (s : String)
  /-- A text line. -/
  | text (s : String)
  deriving DecidableEq

/-- What `apply_line` leaves. -/
structure Applied where
  /-- Stack and flag afterwards. -/
  agent : Agent
  /-- The output lines. -/
  r_list : List Emitted
  /-- The errors reported. -/
  errors : List String

/-- `directive_simple::operator()`: the three conditionals are always applied. -/
def Directive.call (fast : Bool) (a : Agent) : Directive → Except String (Agent × String)
  | ifD condition => if_directive fast condition a
  | elseD => else_directive a
  | endifD => endif_directive a
  | other name conversion =>
    .ok (a, if a.output_enabled then conversion else NOTIFY_DIRECTIVE_NOT_EVALUATED ++ " '" ++ name ++ "'")

/-- The name under which the directive is registered. -/
def Directive.name : Directive → String
  | ifD _ => "IF"
  | elseD => "ELSE"
  | endifD => "ENDIF"
  | other name _ => name

/-- `macro_agent::apply_line`. A directive is evaluated by the constructor of its token, so before the
flag is tested; one that throws reports the error and converts to its name. -/
def apply_line (fast : Bool) (a : Agent) : Line → Applied
  | .directive d =>
    match d.call fast a with
    | .ok (a', conversion) =>
      { agent := a', r_list := if a'.output_enabled then [.comment conversion] else [], errors := [] }
    | .error e => { agent := a, r_list := if a.output_enabled then [.comment d.name] else [], errors := [e] }
  | .text s => { agent := a, r_list := if a.output_enabled then [.text s] else [], errors := [] }

/-- The agent after a line. -/
abbrev next (fast : Bool) (a : Agent) (l : Line) : Agent := (apply_line fast a l).agent

/-- The agent after a sequence of lines. -/
def exec (fast : Bool) (a : Agent) (ls : List Line) : Agent := ls.foldl (next fast) a

/-- A macro agent at the start of a template. -/
def Agent.initial : Agent := { istack := [], output_enabled := true }

section Next

variable (fast : Bool) (a : Agent)

@[simp] theorem exec_nil : exec fast a [] = a := rfl

@[simp] theorem exec_cons (l : Line) (ls : List Line) : exec fast a (l :: ls) = exec fast (next fast a l) ls := rfl

@[simp] theorem exec_append (l₁ l₂ : List Line) : exec fast a (l₁ ++ l₂) = exec fast (exec fast a l₁) l₂ :=
  List.foldl_append

theorem next_text (s : String) : next fast a (.text s) = a := rfl

theorem next_other (name conversion : String) : next fast a (.directive (.other name conversion)) = a := rfl

/-- The agent in a branch of a conditional block with record `r`. -/
def Agent.push (r : if_record) : Agent := ⟨r :: a.istack, r.enabled⟩

theorem next_if (condition : String) :
    next fast a (.directive (.ifD condition)) = a.push (.create condition (truth fast condition)) := rfl

theorem next_else {r : if_record} (hr : r.if_branch = true) :
    next fast (a.push r) (.directive .elseD) = a.push r.mark_else_branch := by
  simp [next, apply_line, Directive.call, else_directive, Agent.push, hr]

theorem next_endif (h : a.output_enabled = top_enabled a.istack) (r : if_record) :
    next fast (a.push r) (.directive .endifD) = a := by
  obtain ⟨istack, flag⟩ := a
  obtain rfl : flag = top_enabled istack := h
  rfl

end Next

/-! ### Templates -/

/-- A well-paired sequence of lines, by its nesting. -/
inductive Template where
  /-- No line. -/
  | nil
  /-- A text line, and more. -/
  | text (s : String) (rest : Template)
  /-- A directive that is no conditional, and more. -/
  | other (name conversion : String) (rest : Template)
  /-- `$IF{condition}`, `body`, `$ENDIF`, and more. -/
  | ifBlock (condition : String) (body rest : Template)
  /-- `$IF{condition}`, `body`, `$ELSE`, `otherwise`, `$ENDIF`, and more. -/
  | ifElseBlock (condition : String) (body otherwise rest : Template)

namespace Template

/-- The lines, each with whether all blocks around it are in their live branch; `live` says so of
the template as a whole. The three lines of a conditional stand outside of its branches. -/
def marked (fast live : Bool) : Template → List (Line × Bool)
  | nil => []
  | text s rest => (.text s, live) :: rest.marked fast live
  | other name conversion rest => (.directive (.other name conversion), live) :: rest.marked fast live
  | ifBlock c body rest =>
    (.directive (.ifD c), live) :: body.marked fast (live && truth fast c) ++
      (.directive .endifD, live) :: rest.marked fast live
  | ifElseBlock c body otherwise rest =>
    (.directive (.ifD c), live) :: body.marked fast (live && truth fast c) ++
      (.directive .elseD, live) :: otherwise.marked fast (live && !truth fast c) ++
        (.directive .endifD, live) :: rest.marked fast live

/-- The lines of the template. -/
def lines : Template → List Line
  | nil => []
  | text s rest => .text s :: rest.lines
  | other name conversion rest => .directive (.other name conversion) :: rest.lines
  | ifBlock c body rest => .directive (.ifD c) :: body.lines ++ .directive .endifD :: rest.lines
  | ifElseBlock c body otherwise rest =>
    .directive (.ifD c) :: body.lines ++ .directive .elseD :: otherwise.lines ++
      .directive .endifD :: rest.lines

theorem map_fst_marked (fast live : Bool) (t : Template) : (t.marked fast live).map Prod.fst = t.lines := by
  induction t generalizing live with
  | nil => rfl
  | text s rest ih => simp [marked, lines, ih]
  | other name conversion rest ih => simp [marked, lines, ih]
  | ifBlock c body rest ihb ihr => simp [marked, lines, ihb, ihr]
  | ifElseBlock c body otherwise rest ihb iho ihr => simp [marked, lines, ihb, iho, ihr]

/-- Inside a dead branch every conditional block has a false condition and no `$ELSE`. -/
def InertWhenDead (fast : Bool) : Bool → Template → Prop
  | _, nil => True
  | live, text _ rest => rest.InertWhenDead fast live
  | live, other _ _ rest => rest.InertWhenDead fast live
  | live, ifBlock c body rest =>
    (live = true ∨ truth fast c = false) ∧ body.InertWhenDead fast (live && truth fast c) ∧
      rest.InertWhenDead fast live
  | live, ifElseBlock c body otherwise rest =>
    live = true ∧ body.InertWhenDead fast (live && truth fast c) ∧
      otherwise.InertWhenDead fast (live && !truth fast c) ∧ rest.InertWhenDead fast live

end Template

/-! ### A template leaves the agent as it was -/

/-- **Pairing**: if the flag is what the top record says, it is so again after a template, and the
stack is the same, wherever the template stands. -/
theorem exec_lines (fast : Bool) (t : Template) {a : Agent} (h : a.output_enabled = top_enabled a.istack) :
    exec fast a t.lines = a := by
  induction t generalizing a with
  | nil => rfl
  | text s rest ih => exact ih h
  | other name conversion rest ih => exact ih h
  | ifBlock c body rest ihb ihr =>
    simp only [Template.lines, List.cons_append, exec_cons, exec_append]
    rw [next_if, ihb rfl, next_endif fast a h, ihr h]
  | ifElseBlock c body otherwise rest ihb iho ihr =>
    simp only [Template.lines, List.cons_append, exec_cons, exec_append]
    rw [next_if, ihb rfl, next_else fast a rfl, iho rfl, next_endif fast a h, ihr h]

/-! ### Templates are the well-paired sequences of lines -/

/-- No line reports an error, and no block is open at the end. -/
def WellPaired (fast : Bool) : Agent → List Line → Prop
  | a, [] => a.istack = []
  | a, l :: ls => (apply_line fast a l).errors = [] ∧ WellPaired fast (next fast a l) ls

/-- What lines can follow inside open blocks: the innermost one is completed first, by a template and
`$ENDIF` or, in an if-branch, by two templates with `$ELSE` between them. -/
def Completes : List if_record → List Line → Prop
  | [], ls => ∃ t : Template, ls = t.lines
  | r :: st, ls =>
    (∃ (t : Template) (ls' : List Line), ls = t.lines ++ .directive .endifD :: ls' ∧ Completes st ls') ∨
    (r.if_branch = true ∧ ∃ (t t' : Template) (ls' : List Line),
      ls = t.lines ++ .directive .elseD :: t'.lines ++ .directive .endifD :: ls' ∧ Completes st ls')

/-- Lines put before the first template of a completion. -/
theorem Completes.cons_template {st : List if_record} {ls : List Line} (more : List Line)
    (grow : Template → Template) (hgrow : ∀ t, (grow t).lines = more ++ t.lines) (h : Completes st ls) :
    Completes st (more ++ ls) := by
  cases st with
  | nil =>
    obtain ⟨t, rfl⟩ := h
    exact ⟨grow t, (hgrow t).symm⟩
  | cons r st =>
    rcases h with ⟨t, ls', rfl, h⟩ | ⟨hr, t, t', ls', rfl, h⟩
    · exact .inl ⟨grow t, ls', by simp [hgrow], h⟩
    · exact .inr ⟨hr, grow t, t', ls', by simp [hgrow], h⟩

/-- An `$IF` before lines that complete its block. -/
theorem Completes.open_block {r : if_record} {st : List if_record} {ls : List Line} (condition : String)
    (h : Completes (r :: st) ls) : Completes st (.directive (.ifD condition) :: ls) := by
  rcases h with ⟨t, ls', rfl, h⟩ | ⟨-, t, t', ls', rfl, h⟩
  · have := h.cons_template (.directive (.ifD condition) :: t.lines ++ [.directive .endifD])
      (.ifBlock condition t) fun _ => by simp [Template.lines]
    simpa using this
  · have := h.cons_template (.directive (.ifD condition) :: t.lines ++ .directive .elseD :: t'.lines ++
      [.directive .endifD]) (.ifElseBlock condition t t') fun _ => by simp [Template.lines]
    simpa using this

theorem completes_of_wellPaired (fast : Bool) {a : Agent} {ls : List Line} (h : WellPaired fast a ls) :
    Completes a.istack ls := by
  induction ls generalizing a with
  | nil =>
    rw [WellPaired] at h
    rw [h]
    exact ⟨.nil, rfl⟩
  | cons l ls ih =>
    obtain ⟨hok, h⟩ := h
    have done := ih h
    cases l with
    | text s => exact done.cons_template [.text s] (.text s) fun _ => rfl
    | directive d =>
      cases d with
      | ifD condition => exact done.open_block condition
      | other name conversion =>
        exact done.cons_template [.directive (.other name conversion)] (.other name conversion)
          fun _ => rfl
      | elseD =>
        obtain ⟨istack, flag⟩ := a
        cases istack with
        | nil => simp [apply_line, Directive.call, else_directive] at hok
        | cons r st =>
          cases hr : r.if_branch with
          | false => simp [apply_line, Directive.call, else_directive, hr] at hok
          | true =>
            simp only [next, apply_line, Directive.call, else_directive, hr] at done
            rcases done with ⟨t, ls', rfl, done⟩ | ⟨hf, -⟩
            · exact .inr ⟨hr, .nil, t, ls', rfl, done⟩
            · simp [if_record.mark_else_branch] at hf
      | endifD =>
        obtain ⟨istack, flag⟩ := a
        cases istack with
        | nil => simp [apply_line, Directive.call, endif_directive] at hok
        | cons r st => exact .inl ⟨.nil, ls, rfl, done⟩

theorem WellPaired.lines_append (fast : Bool) (t : Template) {a : Agent} {ls : List Line}
    (ha : a.output_enabled = top_enabled a.istack) (h : WellPaired fast a ls) :
    WellPaired fast a (t.lines ++ ls) := by
  induction t generalizing a ls with
  | nil => exact h
  | text s rest ih => exact ⟨rfl, ih ha h⟩
  | other name conversion rest ih => exact ⟨rfl, ih ha h⟩
  | ifBlock c body rest ihb ihr =>
    simp only [Template.lines, List.cons_append, List.append_assoc]
    refine ⟨rfl, ihb rfl ⟨rfl, ?_⟩⟩
    rw [next_if, next_endif fast a ha]
    exact ihr ha h
  | ifElseBlock c body otherwise rest ihb iho ihr =>
    simp only [Template.lines, List.cons_append, List.append_assoc]
    refine ⟨rfl, ihb rfl ⟨rfl, ?_⟩⟩
    rw [next_if, next_else fast a rfl]
    refine iho rfl ⟨rfl, ?_⟩
    rw [next_endif fast a ha]
    exact ihr ha h

/-- **Well-paired lines**: the sequences of lines that raise no error and leave no block open are the
templates. -/
theorem wellPaired_iff_exists_template (fast : Bool) (ls : List Line) :
    WellPaired fast .initial ls ↔ ∃ t : Template, ls = t.lines := by
  constructor
  · intro h
    exact completes_of_wellPaired fast h
  · rintro ⟨t, rfl⟩
    have closed : WellPaired fast .initial [] := rfl
    simpa using closed.lines_append fast t rfl

/-! ### What every line has to do -/

/-- A text line is emitted iff the blocks around it are live, and after a directive output is enabled
exactly when all records on the stack are. -/
def RightAt (fast : Bool) (a : Agent) (l : Line) (live : Bool) : Prop :=
  (∀ s, l = .text s → ((apply_line fast a l).r_list = [.text s] ↔ live = true)) ∧
  (∀ d, l = .directive d →
    ((next fast a l).output_enabled = true ↔ ∀ r ∈ (next fast a l).istack, r.enabled = true))

/-- Every line of the template does what it has to do. -/
def Conforms (fast : Bool) (t : Template) : Prop :=
  ∀ before l live after, t.marked fast true = before ++ (l, live) :: after →
    RightAt fast (exec fast .initial (before.map Prod.fst)) l live

/-- `RightAt` at each of a sequence of lines, from a given agent. -/
def AllRight (fast : Bool) (a : Agent) : List (Line × Bool) → Prop
  | [] => True
  | (l, live) :: ls => RightAt fast a l live ∧ AllRight fast (next fast a l) ls

theorem allRight_append (fast : Bool) (a : Agent) (l₁ l₂ : List (Line × Bool)) :
    AllRight fast a (l₁ ++ l₂) ↔
      AllRight fast a l₁ ∧ AllRight fast (exec fast a (l₁.map Prod.fst)) l₂ := by
  induction l₁ generalizing a with
  | nil => simp [AllRight]
  | cons x l₁ ih =>
    obtain ⟨l, live⟩ := x
    simp [AllRight, ih, and_assoc]

theorem allRight_iff_forall_split (fast : Bool) (a : Agent) (ls : List (Line × Bool)) :
    AllRight fast a ls ↔ ∀ before l live after, ls = before ++ (l, live) :: after →
      RightAt fast (exec fast a (before.map Prod.fst)) l live := by
  constructor
  · rintro h before l live after rfl
    exact ((allRight_append fast a before _).mp h).2.1
  · intro h
    induction ls generalizing a with
    | nil => trivial
    | cons x ls ih =>
      obtain ⟨l, live⟩ := x
      refine ⟨h [] l live ls rfl, ih _ fun before l' live' after hls => ?_⟩
      exact h ((l, live) :: before) l' live' after (by rw [hls]; rfl)

/-- The flag is what the top record says, and both say whether all records are enabled. -/
structure Settled (a : Agent) (live : Bool) : Prop where
  /-- The flag is that of the top record. -/
  top : a.output_enabled = top_enabled a.istack
  /-- Output is enabled where the blocks around are live. -/
  flag : a.output_enabled = live
  /-- The blocks around are live if all records are enabled. -/
  all : live = true ↔ ∀ r ∈ a.istack, r.enabled = true

theorem settled_initial : Settled .initial true := ⟨rfl, rfl, by simp [Agent.initial]⟩

theorem Settled.rightAt_text (fast : Bool) {a : Agent} {live : Bool} (h : Settled a live) (s : String) :
    RightAt fast a (.text s) live := by
  refine ⟨?_, by simp⟩
  rintro _ ⟨⟩
  simp [apply_line, h.flag]

/-- A directive that leads to a settled agent does what it has to do. -/
theorem Settled.rightAt_directive {fast : Bool} {a : Agent} {d : Directive} {live : Bool} (live' : Bool)
    (h : Settled (next fast a (.directive d)) live') : RightAt fast a (.directive d) live := by
  refine ⟨by simp, ?_⟩
  rintro _ ⟨⟩
  rw [h.flag, h.all]

/-- A record pushed on a settled stack: its branch is live if it is enabled, in a live place. -/
theorem Settled.push {a : Agent} {live : Bool} (h : Settled a live) {r : if_record}
    (hr : live = true ∨ r.enabled = false) : Settled (a.push r) (live && r.enabled) := by
  refine ⟨rfl, ?_, ?_⟩
  · rcases hr with rfl | hr
    · simp [Agent.push]
    · simp [Agent.push, hr]
  · simp [Agent.push, h.all, and_comm]

/-- A directive that pushes or flips a record is right unless the record switches output on in a dead
place. -/
theorem Settled.rightAt_push {fast : Bool} {a b : Agent} {d : Directive} {live live' : Bool} {r : if_record}
    (h : Settled a live) (hd : next fast b (.directive d) = a.push r) :
    RightAt fast b (.directive d) live' ↔ live = true ∨ r.enabled = false := by
  constructor
  · rintro ⟨-, hright⟩
    have flag := hright d rfl
    simp only [hd, Agent.push, List.forall_mem_cons, ← h.all] at flag
    cases hr : r.enabled with
    | false => exact .inr rfl
    | true => exact .inl (flag.mp hr).2
  · intro hr
    apply Settled.rightAt_directive (live && r.enabled)
    rw [hd]
    exact h.push hr

/-- An `$ENDIF` that leads back to a settled agent is right. -/
theorem Settled.rightAt_endif {fast : Bool} {a : Agent} {live live' : Bool} (h : Settled a live) (r : if_record) :
    RightAt fast (a.push r) (.directive .endifD) live' := by
  apply Settled.rightAt_directive live
  rw [next_endif fast a h.top]
  exact h

/-- **One template**: from a settled agent, all lines are right iff its dead branches are inert. -/
theorem allRight_iff_inertWhenDead (fast : Bool) (t : Template) {a : Agent} {live : Bool} (h : Settled a live) :
    AllRight fast a (t.marked fast live) ↔ t.InertWhenDead fast live := by
  induction t generalizing a live with
  | nil => simp [Template.marked, AllRight, Template.InertWhenDead]
  | text s rest ih =>
    rw [Template.marked, AllRight, Template.InertWhenDead, next_text, ih h]
    exact and_iff_right (h.rightAt_text fast s)
  | other name conversion rest ih =>
    rw [Template.marked, AllRight, Template.InertWhenDead, next_other, ih h]
    exact and_iff_right (Settled.rightAt_directive live h)
  | ifBlock c body rest ihb ihr =>
    have opening : RightAt fast a (.directive (.ifD c)) live ↔ _ := h.rightAt_push (next_if fast a c)
    simp only [Template.marked, Template.InertWhenDead, List.cons_append, AllRight, allRight_append,
      Template.map_fst_marked, opening]
    rw [next_if, exec_lines fast body rfl, next_endif fast a h.top, ihr h]
    refine and_congr_right fun hc => and_congr (ihb (h.push hc)) ?_
    exact and_iff_right (h.rightAt_endif _)
  | ifElseBlock c body otherwise rest ihb iho ihr =>
    have opening : RightAt fast a (.directive (.ifD c)) live ↔ _ := h.rightAt_push (next_if fast a c)
    have middle : RightAt fast (a.push (.create c (truth fast c))) (.directive .elseD) live ↔ _ :=
      h.rightAt_push (next_else fast a rfl)
    simp only [Template.marked, Template.InertWhenDead, List.cons_append, AllRight, allRight_append,
      List.append_assoc, Template.map_fst_marked, opening]
    rw [next_if, exec_lines fast body rfl, middle, next_else fast a rfl, exec_lines fast otherwise rfl,
      next_endif fast a h.top, ihr h]
    cases live with
    | true =>
      refine and_congr (by simp) (and_congr (ihb (h.push (.inl rfl))) ?_)
      refine (and_iff_right (.inl rfl)).trans (and_congr (iho (h.push (.inl rfl))) ?_)
      exact and_iff_right (h.rightAt_endif _)
    | false =>
      -- one of `$IF` and `$ELSE` enables its record, and so switches output on in a dead place
      simp only [Bool.false_eq_true, false_or, if_record.create, if_record.mark_else_branch, false_and,
        iff_false]
      rintro ⟨hif, -, helse, -⟩
      simp [hif] at helse

/-- **Output control**: every line of a template does what it has to do if and only if no dead branch of
it holds a conditional block with a true condition or with an `$ELSE`. -/
theorem conforms_iff_inertWhenDead (fast : Bool) (t : Template) :
    Conforms fast t ↔ t.InertWhenDead fast true := by
  rw [← allRight_iff_inertWhenDead fast t settled_initial, allRight_iff_forall_split, Conforms]

/-- A true block in a dead branch: its text is emitted. -/
theorem nested_true_block_emitted :
    ¬ Conforms true (.ifBlock "!fast" (.ifBlock "fast" (.text "x = 1;" .nil) .nil) .nil) := by
  intro h
  have emitted := (h [(.directive (.ifD "!fast"), true), (.directive (.ifD "fast"), false)] (.text "x = 1;") false
    [(.directive .endifD, false), (.directive .endifD, true)] (by decide)).1 _ rfl
  exact absurd (emitted.mp (by decide)) (by decide)

end CppTransport.Translator
