import Mathlib.Data.List.Basic
import Mathlib.Data.Nat.Notation
import Mathlib.Tactic.Common

/-!
# Parsing by operator precedence

Expressions of atoms, binary operators, a prefix operator that binds more tightly than all of them,
brackets, and functions with some numbers of arguments. Their grammar is ambiguous. A shift-reduce parser
reads it: before it shifts an operator it reduces those whose right operands are complete, where
precedence levels say which of two operators comes first, and a level with itself associates to one
side.

The ambiguous grammar is given by its derivation trees (`ParseTree.WellFormed`), and a tree is `Resolved` if
each operator is the right one of those next to it. The parser accepts what has a tree
(`parse_isSome_iff`), and computes what the one resolved tree says (`parse_eq_some_iff`). `ParseTree.bracketed` puts
brackets around the operands that need them.
-/

namespace CppTransport.Library.OperatorPrecedence

variable {A O F V W : Type*}

/-! ### The grammar and the parser -/

/-- Levels of the operators, the sides to which levels associate, and the numbers of arguments a function can have. -/
structure Grammar (O F : Type*) where
  level : O → ℕ
  right : ℕ → Bool
  arities : F → List ℕ

inductive Terminal (A O F : Type*) where
  | atom (x : A)
  | operator (op : O)
  | negative
  | opening
  | closing
  | comma
  | function (f : F)
deriving DecidableEq, Repr

/-- What is computed when a rule of the grammar is reduced. -/
structure Actions (A O F V : Type*) where
  atom : A → V
  binary : O → V → V → V
  negative : V → V
  bracket : V → V
  call : F → List V → V

/-- What stands on the stack: the beginning of an expression that waits for an operand. -/
inductive Frame (O F V : Type*) where
  | binary (left : V) (op : O)
  | negative
  | bracket
  | call (f : F) (args : List V)
deriving DecidableEq, Repr

/-- What is read next: an operand, the bracket behind the name of a function, or what follows an operand. -/
inductive Mode (F V : Type*) where
  | operand
  | function (f : F)
  | operator (v : V)
deriving DecidableEq, Repr

namespace Grammar

variable (g : Grammar O F) (a : Actions A O F V)

/-- Is an operator with both operands reduced when another one comes, or something else? -/
def reduces (op : O) : Option O → Bool
  | none => true
  | some next => g.level next < g.level op || (g.level next = g.level op && !g.right (g.level op))

/-- The reductions before a symbol is shifted. -/
def reduce (look : Option O) : List (Frame O F V) → V → List (Frame O F V) × V
  | .binary l op :: stack, v =>
    if g.reduces op look then reduce look stack (a.binary op l v) else (.binary l op :: stack, v)
  | .negative :: stack, v => reduce look stack (a.negative v)
  | .bracket :: stack, v => (.bracket :: stack, v)
  | .call f args :: stack, v => (.call f args :: stack, v)
  | [], v => ([], v)

/-- A symbol is read; there is no result if it cannot stand there. -/
def shift (stack : List (Frame O F V)) :
    Mode F V → Terminal A O F → Option (List (Frame O F V) × Mode F V)
  | .operand, .atom x => some (stack, .operator (a.atom x))
  | .operand, .negative => some (.negative :: stack, .operand)
  | .operand, .opening => some (.bracket :: stack, .operand)
  | .operand, .function f => some (stack, .function f)
  | .function f, .opening => some (.call f [] :: stack, .operand)
  | .operator v, .operator op =>
    let (stack, v) := g.reduce a (some op) stack v
    some (.binary v op :: stack, .operand)
  | .operator v, .comma =>
    match g.reduce a none stack v with
    | (.call f args :: stack, v) =>
      if ∃ n ∈ g.arities f, args.length + 1 < n then some (.call f (args ++ [v]) :: stack, .operand) else none
    | _ => none
  | .operator v, .closing =>
    match g.reduce a none stack v with
    | (.bracket :: stack, v) => some (stack, .operator (a.bracket v))
    | (.call f args :: stack, v) =>
      if args.length + 1 ∈ g.arities f then some (stack, .operator (a.call f (args ++ [v]))) else none
    | _ => none
  | _, _ => none

/-- Symbols are read one after another. -/
def run (stack : List (Frame O F V)) (mode : Mode F V) :
    List (Terminal A O F) → Option (List (Frame O F V) × Mode F V)
  | [] => some (stack, mode)
  | x :: rest => (g.shift a stack mode x).bind fun s => run s.1 s.2 rest

/-- The expression has ended. -/
def finish (stack : List (Frame O F V)) : Mode F V → Option V
  | .operator v =>
    match g.reduce a none stack v with
    | ([], v) => some v
    | _ => none
  | _ => none

/-- An expression is read. -/
def parse (symbols : List (Terminal A O F)) : Option V :=
  (g.run a [] .operand symbols).bind fun s => g.finish a s.1 s.2

end Grammar

/-! ### Derivation trees -/

inductive ParseTree (A O F : Type*) where
  | atom (x : A)
  | binary (l : ParseTree A O F) (op : O) (r : ParseTree A O F)
  | negative (t : ParseTree A O F)
  | bracket (t : ParseTree A O F)
  | call (f : F) (args : List (ParseTree A O F))

namespace ParseTree

mutual

/-- The symbols of an expression. -/
def yield : ParseTree A O F → List (Terminal A O F)
  | .atom x => [.atom x]
  | .binary l op r => l.yield ++ .operator op :: r.yield
  | .negative t => .negative :: t.yield
  | .bracket t => .opening :: (t.yield ++ [.closing])
  | .call f args => .function f :: .opening :: (yields args ++ [.closing])

/-- The symbols of arguments. -/
def yields : List (ParseTree A O F) → List (Terminal A O F)
  | [] => []
  | [t] => t.yield
  | t :: t' :: rest => t.yield ++ .comma :: yields (t' :: rest)

end

mutual

/-- The value of an expression. -/
def value (a : Actions A O F V) : ParseTree A O F → V
  | .atom x => a.atom x
  | .binary l op r => a.binary op (l.value a) (r.value a)
  | .negative t => a.negative (t.value a)
  | .bracket t => a.bracket (t.value a)
  | .call f args => a.call f (values a args)

/-- The values of arguments. -/
def values (a : Actions A O F V) : List (ParseTree A O F) → List V
  | [] => []
  | t :: rest => t.value a :: values a rest

end

/-- Trees are the values of the free actions. -/
def actions (A O F : Type*) : Actions A O F (ParseTree A O F) where
  atom := .atom
  binary op l r := .binary l op r
  negative := .negative
  bracket := .bracket
  call := .call

variable (g : Grammar O F)

/-- Functions have the numbers of arguments that they can have. -/
inductive WellFormed : ParseTree A O F → Prop where
  | atom (x : A) : WellFormed (.atom x)
  | binary {l r : ParseTree A O F} (op : O) (hl : WellFormed l) (hr : WellFormed r) : WellFormed (.binary l op r)
  | negative {t : ParseTree A O F} (h : WellFormed t) : WellFormed (.negative t)
  | bracket {t : ParseTree A O F} (h : WellFormed t) : WellFormed (.bracket t)
  | call {f : F} {args : List (ParseTree A O F)} (hne : args ≠ []) (hlen : args.length ∈ g.arities f)
      (h : ∀ t ∈ args, WellFormed t) : WellFormed (.call f args)

/-- The expression is reduced before what comes: this is said of a binary operator at its root. -/
def Before : ParseTree A O F → Option O → Prop
  | .binary _ op _, look => g.reduces op look
  | _, _ => True

/-- The expression can be the right operand of an operator: its own operator is shifted. -/
def After (op : O) : ParseTree A O F → Prop
  | .binary _ op' _ => ¬ g.reduces op (some op')
  | _ => True

/-- The root is no binary operator. -/
def Closed : ParseTree A O F → Prop
  | .binary _ _ _ => False
  | _ => True

/-- A tree in which each operator has the operands that precedence and associativity give it. -/
inductive Resolved : ParseTree A O F → Prop where
  | atom (x : A) : Resolved (.atom x)
  | binary {l r : ParseTree A O F} {op : O} (hl : Resolved l) (hr : Resolved r) (hbefore : l.Before g (some op))
      (hafter : r.After g op) : Resolved (.binary l op r)
  | negative {t : ParseTree A O F} (h : Resolved t) (hclosed : t.Closed) : Resolved (.negative t)
  | bracket {t : ParseTree A O F} (h : Resolved t) : Resolved (.bracket t)
  | call {f : F} {args : List (ParseTree A O F)} (hne : args ≠ []) (hlen : args.length ∈ g.arities f)
      (h : ∀ t ∈ args, Resolved t) : Resolved (.call f args)

variable {g} {a : Actions A O F V} {t l r : ParseTree A O F} {op : O} {look : Option O}

@[simp] theorem values_eq_map (a : Actions A O F V) (args : List (ParseTree A O F)) :
    values a args = args.map (value a) := by
  induction args with
  | nil => rfl
  | cons t rest ih => rw [values, ih, List.map_cons]

theorem Resolved.wellFormed (h : t.Resolved g) : t.WellFormed g := by
  induction h with
  | atom x => exact .atom x
  | binary _ _ _ _ ihl ihr => exact .binary _ ihl ihr
  | negative _ _ ih => exact .negative ih
  | bracket _ ih => exact .bracket ih
  | call hne hlen _ ih => exact .call hne hlen ih

theorem Closed.before (h : t.Closed) (look : Option O) : t.Before g look := by
  cases t <;> trivial

theorem Closed.after (h : t.Closed) (op : O) : t.After g op := by
  cases t <;> trivial

theorem before_none (t : ParseTree A O F) : t.Before g none := by
  cases t <;> trivial

/-- Levels make it enough to look at neighbours: an operator that was not reduced before the one above it
is reduced later than that one. -/
theorem After.before (h : t.After g op) (hop : g.reduces op look) : t.Before g look := by
  cases t with
  | binary l op' r =>
    cases look with
    | none => rfl
    | some next =>
      simp only [After, Before, Grammar.reduces, Bool.or_eq_true, Bool.and_eq_true, decide_eq_true_eq,
        Bool.not_eq_true'] at h hop ⊢
      by_cases hlevel : g.level op' = g.level op
      · rw [hlevel] at h ⊢
        have hright : g.right (g.level op) ≠ false := fun hr => h (.inr ⟨rfl, hr⟩)
        exact .inl (hop.resolve_right fun hop => hright hop.2)
      · have hless : ¬ g.level op' < g.level op := fun hlt => h (.inl hlt)
        omega
  | _ => trivial

/-! ### The parser reads resolved trees -/

/-- What an expression leaves on the stack, when nothing has come that reduces it: the operators that wait on its right
side. -/
def pending (a : Actions A O F V) : ParseTree A O F → List (Frame O F V)
  | .binary l op r => r.pending a ++ [.binary (l.value a) op]
  | .negative t => t.pending a ++ [.negative]
  | .atom _ => []
  | .bracket _ => []
  | .call _ _ => []

/-- The value of the last operand. -/
def last (a : Actions A O F V) : ParseTree A O F → V
  | .binary _ _ r => r.last a
  | .negative t => t.last a
  | .atom x => a.atom x
  | .bracket t => a.bracket (t.value a)
  | .call f args => a.call f (values a args)

/-- What comes reduces a whole expression if it reduces its root. -/
theorem Resolved.reduce_pending (h : t.Resolved g) (hbefore : t.Before g look) (stack : List (Frame O F V)) :
    g.reduce a look (t.pending a ++ stack) (t.last a) = g.reduce a look stack (t.value a) := by
  induction h generalizing stack with
  | binary _ _ _ hafter _ ihr =>
    rw [pending, last, List.append_assoc, ihr (hafter.before hbefore)]
    exact if_pos hbefore
  | negative _ hclosed ih =>
    rw [pending, last, List.append_assoc, ih (hclosed.before look)]
    rfl
  | _ => rfl

/-- The expression can be the operand that the top of the stack waits for. -/
def Fits (g : Grammar O F) (t : ParseTree A O F) : List (Frame O F V) → Prop
  | .binary _ op :: _ => t.After g op
  | .negative :: _ => t.Closed
  | _ => True

theorem Closed.fits (h : t.Closed) (stack : List (Frame O F V)) : t.Fits g stack := by
  match stack with
  | .binary _ op :: _ => exact h.after op
  | .negative :: _ => exact h
  | .bracket :: _ => trivial
  | .call _ _ :: _ => trivial
  | [] => trivial

/-- With an expression its left operand fits. -/
theorem Fits.left {stack : List (Frame O F V)} (h : (ParseTree.binary l op r).Fits g stack)
    (hl : l.Before g (some op)) :
    l.Fits g stack := by
  match stack, l with
  | .binary _ op' :: _, .binary _ op₁ _ =>
    simp only [Fits, After, Before, Grammar.reduces, Bool.or_eq_true, Bool.and_eq_true, decide_eq_true_eq,
      Bool.not_eq_true'] at h hl ⊢
    rintro (hless | ⟨heq, hleft⟩)
    · exact h (.inl (by omega))
    · rw [heq] at hl
      by_cases hlevel : g.level op = g.level op'
      · exact h (.inr ⟨hlevel, hleft⟩)
      · exact h (.inl (by omega))
  | .binary _ _ :: _, .atom _ | .binary _ _ :: _, .negative _ | .binary _ _ :: _, .bracket _
  | .binary _ _ :: _, .call _ _ => trivial
  | .negative :: _, _ => exact h.elim
  | .bracket :: _, _ | .call _ _ :: _, _ | [], _ => trivial

/-- The operator of an expression that fits does not reduce the stack. -/
theorem Fits.reduce_eq {stack : List (Frame O F V)} (h : (ParseTree.binary l op r).Fits g stack) (v : V) :
    g.reduce a (some op) stack v = (stack, v) := by
  match stack with
  | .binary _ op' :: _ => exact if_neg h
  | .negative :: _ => exact h.elim
  | .bracket :: _ | .call _ _ :: _ | [] => rfl

end ParseTree

open ParseTree

namespace Grammar

variable {g : Grammar O F} {a : Actions A O F V} {t : ParseTree A O F}

/-- With a bracket behind it an expression is complete. -/
theorem run_closing (h : t.Resolved g) (stack : List (Frame O F V)) (rest : List (Terminal A O F)) :
    g.run a (t.pending a ++ .bracket :: stack) (.operator (t.last a)) (.closing :: rest) =
      g.run a stack (.operator (a.bracket (t.value a))) rest := by
  rw [run, shift, h.reduce_pending t.before_none]
  rfl

/-- The arguments of a function are read. -/
theorem run_yields {f : F} {args : List (ParseTree A O F)} (hne : args ≠ []) (hres : ∀ t ∈ args, t.Resolved g)
    (hread : ∀ t ∈ args, ∀ (stack : List (Frame O F V)) (rest : List (Terminal A O F)), t.Fits g stack →
      g.run a stack .operand (t.yield ++ rest) = g.run a (t.pending a ++ stack) (.operator (t.last a)) rest)
    (before : List V) (hlen : before.length + args.length ∈ g.arities f) (stack : List (Frame O F V))
    (rest : List (Terminal A O F)) :
    g.run a (.call f before :: stack) .operand (yields args ++ .closing :: rest) =
      g.run a stack (.operator (a.call f (before ++ args.map (value a)))) rest := by
  induction args generalizing before with
  | nil => exact (hne rfl).elim
  | cons t args ih =>
    have ht := hres t List.mem_cons_self
    have hfirst := hread t List.mem_cons_self (.call f before :: stack)
    cases args with
    | nil =>
      rw [yields, hfirst _ trivial, run, shift, ht.reduce_pending t.before_none]
      simp only [reduce, List.length_singleton] at hlen ⊢
      rw [if_pos hlen]
      rfl
    | cons t' args =>
      have hmore : ∃ n ∈ g.arities f, before.length + 1 < n := ⟨_, hlen, by simp only [List.length_cons]; omega⟩
      rw [yields, List.append_assoc, hfirst _ trivial, List.cons_append, run, shift, ht.reduce_pending t.before_none]
      simp only [reduce, if_pos hmore, Option.bind_some]
      rw [ih (List.cons_ne_nil _ _) (fun u hu => hres u (List.mem_cons_of_mem _ hu))
        (fun u hu => hread u (List.mem_cons_of_mem _ hu))
        (before ++ [t.value a]) (by simpa [Nat.add_assoc, Nat.add_comm] using hlen)]
      simp only [List.map_cons, List.append_assoc, List.singleton_append]

/-- A resolved expression is read, up to the operators that wait on its right side. -/
theorem run_yield (h : t.Resolved g) (stack : List (Frame O F V)) (rest : List (Terminal A O F))
    (hfits : t.Fits g stack) :
    g.run a stack .operand (t.yield ++ rest) = g.run a (t.pending a ++ stack) (.operator (t.last a)) rest := by
  induction h generalizing stack rest with
  | atom x => rfl
  | binary hl hr hbefore hafter ihl ihr =>
    rw [yield, List.append_assoc, ihl _ _ (hfits.left hbefore), List.cons_append, run, shift,
      hl.reduce_pending hbefore, hfits.reduce_eq]
    simp only [Option.bind_some]
    rw [ihr (.binary _ _ :: stack) rest hafter, pending, last, List.append_assoc, List.singleton_append]
  | negative ht hclosed ih =>
    rw [yield, List.cons_append, run, shift]
    simp only [Option.bind_some]
    rw [ih (.negative :: stack) rest hclosed, pending, last, List.append_assoc, List.singleton_append]
  | bracket ht ih =>
    rw [yield, List.cons_append, List.append_assoc, run, shift]
    simp only [Option.bind_some]
    rw [ih (.bracket :: stack) _ trivial, List.singleton_append, run_closing ht]
    rfl
  | call hne hlen hres ih =>
    rw [yield, List.cons_append, List.cons_append, List.append_assoc, run, shift]
    simp only [Option.bind_some]
    rw [run, shift]
    simp only [Option.bind_some]
    rw [List.singleton_append, run_yields hne hres ih [] (by simpa using hlen), List.nil_append, ← values_eq_map]
    rfl

/-- What a resolved tree says is computed. -/
theorem parse_yield (h : t.Resolved g) : g.parse a t.yield = some (t.value a) := by
  have hread := run_yield (a := a) h [] [] (by trivial)
  rw [List.append_nil, List.append_nil] at hread
  have hreduce := h.reduce_pending (a := a) t.before_none ([] : List (Frame O F V))
  rw [List.append_nil] at hreduce
  rw [parse, hread]
  simp only [run, Option.bind_some, finish, hreduce, reduce]

end Grammar

/-! ### Values are those of trees -/

/-- What stands on the stack, with the values of trees. -/
def Frame.value (a : Actions A O F V) : Frame O F (ParseTree A O F) → Frame O F V
  | .binary l op => .binary (l.value a) op
  | .negative => .negative
  | .bracket => .bracket
  | .call f args => .call f (args.map (ParseTree.value a))

def Mode.value (a : Actions A O F V) : Mode F (ParseTree A O F) → Mode F V
  | .operand => .operand
  | .function f => .function f
  | .operator t => .operator (t.value a)

namespace Grammar

variable {g : Grammar O F} (a : Actions A O F V)

theorem reduce_value (look : Option O) (stack : List (Frame O F (ParseTree A O F))) (t : ParseTree A O F) :
    g.reduce a look (stack.map (Frame.value a)) (t.value a) =
      ((g.reduce (actions A O F) look stack t).1.map (Frame.value a),
        (g.reduce (actions A O F) look stack t).2.value a) := by
  induction stack generalizing t with
  | nil => rfl
  | cons fr stack ih =>
    cases fr with
    | binary l op =>
      by_cases hop : g.reduces op look
      · rw [List.map_cons, Frame.value, reduce, reduce, if_pos hop, if_pos hop]
        exact ih (.binary l op t)
      · simp [reduce, hop, Frame.value]
    | negative => exact ih (.negative t)
    | bracket => rfl
    | call f args => rfl

theorem shift_value (stack : List (Frame O F (ParseTree A O F))) (mode : Mode F (ParseTree A O F))
    (x : Terminal A O F) :
    g.shift a (stack.map (Frame.value a)) (mode.value a) x =
      (g.shift (actions A O F) stack mode x).map fun s => (s.1.map (Frame.value a), s.2.value a) := by
  cases mode with
  | operand => cases x <;> rfl
  | function f => cases x <;> rfl
  | operator t =>
    have hcomma := reduce_value a (g := g) none stack t
    cases x with
    | operator op => simp [shift, Mode.value, reduce_value, Frame.value]
    | comma =>
      simp only [shift, Mode.value, hcomma]
      obtain ⟨below, v⟩ := g.reduce (actions A O F) none stack t
      match below with
      | .call f args :: below =>
        simp only [List.map_cons, Frame.value, List.length_map]
        split_ifs <;> simp [Frame.value]
      | .binary _ _ :: _ | .negative :: _ | .bracket :: _ | [] => rfl
    | closing =>
      simp only [shift, Mode.value, hcomma]
      obtain ⟨below, v⟩ := g.reduce (actions A O F) none stack t
      match below with
      | .call f args :: below =>
        simp only [List.map_cons, Frame.value, List.length_map]
        split_ifs
        · simp [actions, ParseTree.value]
        · rfl
      | .bracket :: _ => rfl
      | .binary _ _ :: _ | .negative :: _ | [] => rfl
    | _ => rfl

theorem run_value (stack : List (Frame O F (ParseTree A O F))) (mode : Mode F (ParseTree A O F))
    (xs : List (Terminal A O F)) :
    g.run a (stack.map (Frame.value a)) (mode.value a) xs =
      (g.run (actions A O F) stack mode xs).map fun s => (s.1.map (Frame.value a), s.2.value a) := by
  induction xs generalizing stack mode with
  | nil => rfl
  | cons x xs ih =>
    rw [run, run, shift_value, Option.map_bind, Option.bind_map]
    exact congrArg _ (funext fun s => ih s.1 s.2)

theorem finish_value (stack : List (Frame O F (ParseTree A O F))) (mode : Mode F (ParseTree A O F)) :
    g.finish a (stack.map (Frame.value a)) (mode.value a) =
      (g.finish (actions A O F) stack mode).map (ParseTree.value a) := by
  cases mode with
  | operator t =>
    simp only [finish, Mode.value, reduce_value]
    obtain ⟨below, v⟩ := g.reduce (actions A O F) none stack t
    cases below <;> rfl
  | _ => rfl

/-- The parser computes the value of the tree that it could build. -/
theorem parse_value (xs : List (Terminal A O F)) :
    g.parse a xs = (g.parse (actions A O F) xs).map (ParseTree.value a) := by
  have hrun := run_value (g := g) a [] .operand xs
  rw [List.map_nil, show (Mode.operand : Mode F (ParseTree A O F)).value a = .operand from rfl] at hrun
  rw [parse, hrun, parse, Option.map_bind, Option.bind_map]
  exact congrArg _ (funext fun s => finish_value a s.1 s.2)

end Grammar

/-! ### The trees that are built are resolved -/

/-- The symbols for which something stands on the stack. -/
def Frame.text : Frame O F (ParseTree A O F) → List (Terminal A O F)
  | .binary l op => l.yield ++ [.operator op]
  | .negative => [.negative]
  | .bracket => [.opening]
  | .call f args => .function f :: .opening :: args.flatMap fun t => t.yield ++ [.comma]

def Mode.text : Mode F (ParseTree A O F) → List (Terminal A O F)
  | .operand => []
  | .function f => [.function f]
  | .operator t => t.yield

/-- The symbols for which the stack stands. -/
def stack_text : List (Frame O F (ParseTree A O F)) → List (Terminal A O F)
  | [] => []
  | fr :: stack => stack_text stack ++ fr.text

/-- The operator that comes does not reduce the stack. -/
def Waits (g : Grammar O F) (look : Option O) : List (Frame O F (ParseTree A O F)) → Prop
  | .binary _ op :: _ => ¬ g.reduces op look
  | .negative :: _ => False
  | _ => True

/-- What the parser has on its stack: resolved operands, under operators that had to wait for the next one. -/
inductive Stacked (g : Grammar O F) : List (Frame O F (ParseTree A O F)) → Prop where
  | nil : Stacked g []
  | binary {l : ParseTree A O F} {op : O} {stack : List (Frame O F (ParseTree A O F))} (hl : l.Resolved g)
      (hbefore : l.Before g (some op)) (hwaits : Waits g (some op) stack) (h : Stacked g stack) :
      Stacked g (.binary l op :: stack)
  | negative {stack : List (Frame O F (ParseTree A O F))} (h : Stacked g stack) : Stacked g (.negative :: stack)
  | bracket {stack : List (Frame O F (ParseTree A O F))} (h : Stacked g stack) : Stacked g (.bracket :: stack)
  | call {f : F} {args : List (ParseTree A O F)} {stack : List (Frame O F (ParseTree A O F))}
      (hargs : ∀ t ∈ args, t.Resolved g) (h : Stacked g stack) : Stacked g (.call f args :: stack)

def Mode.Sound (g : Grammar O F) : Mode F (ParseTree A O F) → Prop
  | .operator t => t.Resolved g ∧ t.Closed
  | _ => True

/-- An operand with its operator fits where that operator has to wait. -/
theorem Waits.fits {g : Grammar O F} {l r : ParseTree A O F} {op : O} {stack : List (Frame O F (ParseTree A O F))}
    (h : Waits g (some op) stack) : (ParseTree.binary l op r).Fits g stack := by
  match stack with
  | .binary _ _ :: _ => exact h
  | .negative :: _ => exact h.elim
  | .bracket :: _ | .call _ _ :: _ | [] => trivial

theorem yields_append_singleton (args : List (ParseTree A O F)) (t : ParseTree A O F) :
    yields (args ++ [t]) = (args.flatMap fun t => t.yield ++ [.comma]) ++ t.yield := by
  induction args with
  | nil => rfl
  | cons u args ih =>
    rw [List.flatMap_cons, List.append_assoc, ← ih]
    cases args <;> simp [yields]

namespace Grammar

variable {g : Grammar O F} {stack stack' : List (Frame O F (ParseTree A O F))} {t t' : ParseTree A O F}
  {look : Option O}

/-- Reductions build a resolved tree of the same symbols, on a stack that waits for what comes. -/
theorem reduce_sound (hstack : Stacked g stack) (ht : t.Resolved g) (hfits : t.Fits g stack)
    (hbefore : t.Before g look) (h : g.reduce (actions A O F) look stack t = (stack', t')) :
    Stacked g stack' ∧ t'.Resolved g ∧ t'.Before g look ∧ Waits g look stack' ∧
      stack_text stack' ++ t'.yield = stack_text stack ++ t.yield := by
  induction hstack generalizing t with
  | @binary l op stack hl hlb hwaits hstack ih =>
    by_cases hop : g.reduces op look
    · rw [reduce, if_pos hop] at h
      obtain ⟨h₁, h₂, h₃, h₄, h₅⟩ := ih (.binary hl ht hlb hfits) hwaits.fits hop h
      refine ⟨h₁, h₂, h₃, h₄, ?_⟩
      rw [h₅, stack_text, Frame.text, yield]
      simp only [List.append_assoc, List.singleton_append]
    · rw [reduce, if_neg hop, Prod.mk.injEq] at h
      obtain ⟨rfl, rfl⟩ := h
      exact ⟨.binary hl hlb hwaits hstack, ht, hbefore, hop, rfl⟩
  | @negative stack hstack ih =>
    have hclosed : (ParseTree.negative t).Closed := trivial
    obtain ⟨h₁, h₂, h₃, h₄, h₅⟩ := ih (.negative ht hfits) (hclosed.fits stack) trivial h
    refine ⟨h₁, h₂, h₃, h₄, ?_⟩
    rw [h₅, stack_text, Frame.text, yield]
    simp only [List.append_assoc, List.singleton_append]
  | nil | bracket | call =>
    obtain ⟨rfl, rfl⟩ := Prod.mk.inj h
    exact ⟨by constructor <;> assumption, ht, hbefore, trivial, rfl⟩

/-- Reading a symbol keeps this. -/
theorem shift_sound {mode mode' : Mode F (ParseTree A O F)} {x : Terminal A O F} (hstack : Stacked g stack)
    (hmode : mode.Sound g) (h : g.shift (actions A O F) stack mode x = some (stack', mode')) :
    Stacked g stack' ∧ mode'.Sound g ∧ stack_text stack' ++ mode'.text = stack_text stack ++ mode.text ++ [x] := by
  cases mode with
  | operand =>
    cases x <;> simp only [shift, Option.some.injEq, Prod.mk.injEq, reduceCtorEq] at h
    case atom x =>
      obtain ⟨rfl, rfl⟩ := h
      exact ⟨hstack, ⟨.atom x, trivial⟩, by simp [Mode.text, actions, yield]⟩
    case function f =>
      obtain ⟨rfl, rfl⟩ := h
      exact ⟨hstack, trivial, by simp [Mode.text]⟩
    all_goals
      obtain ⟨rfl, rfl⟩ := h
      exact ⟨by constructor; assumption, trivial, by simp [Mode.text, stack_text, Frame.text]⟩
  | function f =>
    cases x <;> simp only [shift, Option.some.injEq, Prod.mk.injEq, reduceCtorEq] at h
    obtain ⟨rfl, rfl⟩ := h
    exact ⟨.call (by simp) hstack, trivial, by simp [Mode.text, stack_text, Frame.text]⟩
  | operator t =>
    obtain ⟨ht, hclosed⟩ := hmode
    have hreduce (look : Option O) {below : List (Frame O F (ParseTree A O F))} {u : ParseTree A O F}
        (heq : g.reduce (actions A O F) look stack t = (below, u)) :=
      reduce_sound hstack ht (hclosed.fits stack) (hclosed.before look) heq
    cases x with
    | operator op =>
      rcases hr : g.reduce (actions A O F) (some op) stack t with ⟨below, u⟩
      obtain ⟨h₁, h₂, h₃, h₄, h₅⟩ := hreduce (some op) hr
      simp only [shift, hr, Option.some.injEq, Prod.mk.injEq] at h
      obtain ⟨rfl, rfl⟩ := h
      refine ⟨.binary h₂ h₃ h₄ h₁, trivial, ?_⟩
      rw [stack_text, Frame.text, ← List.append_assoc, h₅, Mode.text, Mode.text, List.append_nil]
    | comma =>
      rcases hr : g.reduce (actions A O F) none stack t with ⟨below, u⟩
      obtain ⟨h₁, h₂, -, -, h₅⟩ := hreduce none hr
      simp only [shift, hr] at h
      match below, h₁ with
      | .call f args :: below, .call hargs hbelow =>
        simp only [Option.ite_none_right_eq_some, Option.some.injEq, Prod.mk.injEq] at h
        obtain ⟨-, rfl, rfl⟩ := h
        refine ⟨.call (fun v hv => ?_) hbelow, trivial, ?_⟩
        · rcases List.mem_append.mp hv with hv | hv
          · exact hargs v hv
          · rwa [List.mem_singleton.mp hv]
        · rw [Mode.text, Mode.text, ← h₅]
          simp [stack_text, Frame.text]
    | closing =>
      rcases hr : g.reduce (actions A O F) none stack t with ⟨below, u⟩
      obtain ⟨h₁, h₂, -, -, h₅⟩ := hreduce none hr
      simp only [shift, hr] at h
      match below, h₁ with
      | .bracket :: below, .bracket hbelow =>
        simp only [Option.some.injEq, Prod.mk.injEq] at h
        obtain ⟨rfl, rfl⟩ := h
        refine ⟨hbelow, ⟨.bracket h₂, trivial⟩, ?_⟩
        rw [Mode.text, Mode.text, ← h₅]
        simp [stack_text, Frame.text, actions, yield]
      | .call f args :: below, .call hargs hbelow =>
        simp only [Option.ite_none_right_eq_some, Option.some.injEq, Prod.mk.injEq] at h
        obtain ⟨hlen, rfl, rfl⟩ := h
        refine ⟨hbelow, ⟨.call (by simp) (by simpa using hlen) fun v hv => ?_, trivial⟩, ?_⟩
        · rcases List.mem_append.mp hv with hv | hv
          · exact hargs v hv
          · rwa [List.mem_singleton.mp hv]
        · rw [Mode.text, Mode.text, ← h₅]
          simp [stack_text, Frame.text, actions, yield, yields_append_singleton]
    | _ => simp [shift] at h

theorem run_sound {mode mode' : Mode F (ParseTree A O F)} {xs : List (Terminal A O F)} (hstack : Stacked g stack)
    (hmode : mode.Sound g) (h : g.run (actions A O F) stack mode xs = some (stack', mode')) :
    Stacked g stack' ∧ mode'.Sound g ∧ stack_text stack' ++ mode'.text = stack_text stack ++ mode.text ++ xs := by
  induction xs generalizing stack mode with
  | nil =>
    obtain ⟨rfl, rfl⟩ := Prod.mk.inj (Option.some.inj h)
    exact ⟨hstack, hmode, (List.append_nil _).symm⟩
  | cons x xs ih =>
    obtain ⟨⟨stack₁, mode₁⟩, hshift, hrest⟩ := Option.bind_eq_some_iff.mp h
    obtain ⟨hstack₁, hmode₁, htext₁⟩ := shift_sound hstack hmode hshift
    obtain ⟨hstack', hmode', htext'⟩ := ih hstack₁ hmode₁ hrest
    refine ⟨hstack', hmode', ?_⟩
    rw [htext', htext₁, List.append_assoc _ [x], List.singleton_append]

/-- What is built has the symbols that were read. -/
theorem parse_sound {xs : List (Terminal A O F)} (h : g.parse (actions A O F) xs = some t) :
    t.Resolved g ∧ t.yield = xs := by
  obtain ⟨⟨stack, mode⟩, hrun, hfinish⟩ := Option.bind_eq_some_iff.mp h
  obtain ⟨hstack, hmode, htext⟩ := run_sound .nil (by trivial) hrun
  cases mode with
  | operator u =>
    rcases hr : g.reduce (actions A O F) none stack u with ⟨below, v⟩
    obtain ⟨-, hv, -, -, hsame⟩ := reduce_sound hstack hmode.1 (hmode.2.fits stack) u.before_none hr
    simp only [finish, hr] at hfinish
    cases below with
    | nil =>
      obtain rfl := Option.some.inj hfinish
      exact ⟨hv, hsame.trans htext⟩
    | cons _ _ => cases hfinish
  | _ => cases hfinish

/-- **The parser computes the value of a resolved tree**, and of nothing else. -/
theorem parse_eq_some_iff {a : Actions A O F V} {xs : List (Terminal A O F)} {v : V} :
    g.parse a xs = some v ↔ ∃ t : ParseTree A O F, t.Resolved g ∧ t.yield = xs ∧ t.value a = v := by
  constructor
  · intro h
    rw [parse_value, Option.map_eq_some_iff] at h
    obtain ⟨t, ht, rfl⟩ := h
    obtain ⟨hres, hyield⟩ := parse_sound ht
    exact ⟨t, hres, hyield, rfl⟩
  · rintro ⟨t, hres, rfl, rfl⟩
    exact parse_yield hres

end Grammar

theorem ParseTree.WellFormed.value_actions {g : Grammar O F} {t : ParseTree A O F} (h : t.WellFormed g) :
    t.value (actions A O F) = t := by
  induction h with
  | atom x => rfl
  | binary op _ _ ihl ihr => rw [ParseTree.value, ihl, ihr]; rfl
  | negative _ ih => rw [ParseTree.value, ih]; rfl
  | bracket _ ih => rw [ParseTree.value, ih]; rfl
  | @call f args _ _ _ ih => rw [ParseTree.value, values_eq_map, List.map_congr_left ih, List.map_id']; rfl

/-- Symbols have one resolved tree at most. -/
theorem ParseTree.Resolved.unique {g : Grammar O F} {t t' : ParseTree A O F} (h : t.Resolved g) (h' : t'.Resolved g)
    (hyield : t.yield = t'.yield) : t = t' := by
  have hparse := Grammar.parse_yield (a := actions A O F) h
  rw [hyield, Grammar.parse_yield h', h.wellFormed.value_actions, h'.wellFormed.value_actions] at hparse
  exact (Option.some.inj hparse).symm

/-! ### Every sentence of the ambiguous grammar is accepted -/

namespace Grammar

variable {g : Grammar O F} (a : Actions A O F V)

/-- The brackets and calls on a stack that are still open; operators decide nothing about what may follow. -/
def opened : List (Frame O F V) → List (Option (F × ℕ))
  | [] => []
  | .binary _ _ :: stack => opened stack
  | .negative :: stack => opened stack
  | .bracket :: stack => none :: opened stack
  | .call f args :: stack => some (f, args.length) :: opened stack

theorem opened_reduce (look : Option O) (stack : List (Frame O F V)) (v : V) :
    opened (g.reduce a look stack v).1 = opened stack := by
  induction stack generalizing v with
  | nil => rfl
  | cons fr stack ih =>
    cases fr with
    | binary l op =>
      rw [reduce]
      split_ifs
      · exact ih _
      · rfl
    | negative => exact ih _
    | bracket => rfl
    | call f args => rfl

/-- When an operand has ended, the bracket or the call in which it stands is on top. -/
theorem reduce_none (stack : List (Frame O F V)) (v : V) :
    ∃ v', match opened stack with
      | [] => g.reduce a none stack v = ([], v')
      | none :: rest => ∃ below, g.reduce a none stack v = (.bracket :: below, v') ∧ opened below = rest
      | some (f, n) :: rest => ∃ args below, g.reduce a none stack v = (.call f args :: below, v') ∧
          args.length = n ∧ opened below = rest := by
  induction stack generalizing v with
  | nil => exact ⟨v, rfl⟩
  | cons fr stack ih =>
    cases fr with
    | binary l op => exact ih (a.binary op l v)
    | negative => exact ih (a.negative v)
    | bracket => exact ⟨v, stack, rfl, rfl⟩
    | call f args => exact ⟨v, args, stack, rfl, rfl, rfl⟩

/-- An expression is read on every stack, and leaves open what was open. -/
def Readable (g : Grammar O F) (a : Actions A O F V) (xs : List (Terminal A O F)) : Prop :=
  ∀ (stack : List (Frame O F V)) (rest : List (Terminal A O F)), ∃ stack' v,
    g.run a stack .operand (xs ++ rest) = g.run a stack' (.operator v) rest ∧ opened stack' = opened stack

variable {a}

theorem readable_yields {f : F} {args : List (ParseTree A O F)} (hne : args ≠ [])
    (hread : ∀ t ∈ args, Readable g a t.yield) (before : List V) (hlen : before.length + args.length ∈ g.arities f)
    (stack below : List (Frame O F V)) (hopened : opened stack = some (f, before.length) :: opened below)
    (rest : List (Terminal A O F)) :
    ∃ stack' v, g.run a stack .operand (yields args ++ .closing :: rest) = g.run a stack' (.operator v) rest ∧
      opened stack' = opened below := by
  induction args generalizing before stack with
  | nil => exact (hne rfl).elim
  | cons t args ih =>
    cases args with
    | nil =>
      obtain ⟨stack₁, v, hrun, hstack₁⟩ := hread t List.mem_cons_self stack (.closing :: rest)
      obtain ⟨v', hreduce⟩ := reduce_none (g := g) a stack₁ v
      rw [hstack₁, hopened] at hreduce
      obtain ⟨args', below', hreduce, hargs', hbelow'⟩ := hreduce
      rw [List.length_singleton, ← hargs'] at hlen
      refine ⟨below', a.call f (args' ++ [v']), ?_, hbelow'⟩
      rw [yields, hrun, run, shift, hreduce]
      simp only [if_pos hlen, Option.bind_some]
    | cons t' args =>
      obtain ⟨stack₁, v, hrun, hstack₁⟩ :=
        hread t List.mem_cons_self stack (.comma :: (yields (t' :: args) ++ .closing :: rest))
      obtain ⟨v', hreduce⟩ := reduce_none (g := g) a stack₁ v
      rw [hstack₁, hopened] at hreduce
      obtain ⟨args', below', hreduce, hargs', hbelow'⟩ := hreduce
      have hmore : ∃ n ∈ g.arities f, args'.length + 1 < n :=
        ⟨_, hlen, by simp only [List.length_cons, hargs']; omega⟩
      obtain ⟨stack', u, hrest, hstack'⟩ := ih (List.cons_ne_nil _ _)
        (fun u hu => hread u (List.mem_cons_of_mem _ hu)) (before ++ [v'])
        (by simpa [Nat.add_assoc, Nat.add_comm] using hlen) (.call f (args' ++ [v']) :: below')
        (by simp [opened, hargs', hbelow'])
      refine ⟨stack', u, ?_, hstack'⟩
      rw [yields, List.append_assoc, List.cons_append, hrun, run, shift, hreduce]
      simp only [if_pos hmore, Option.bind_some]
      exact hrest

theorem readable_yield {t : ParseTree A O F} (h : t.WellFormed g) : Readable g a t.yield := by
  induction h with
  | atom x => exact fun stack rest => ⟨stack, a.atom x, rfl, rfl⟩
  | @binary l r op _ _ ihl ihr =>
    intro stack rest
    obtain ⟨stack₁, v, hl, hstack₁⟩ := ihl stack (.operator op :: (r.yield ++ rest))
    obtain ⟨stack', u, hr, hstack'⟩ := ihr (.binary (g.reduce a (some op) stack₁ v).2 op ::
      (g.reduce a (some op) stack₁ v).1) rest
    refine ⟨stack', u, ?_, ?_⟩
    · rw [yield, List.append_assoc, List.cons_append, hl, run, shift]
      exact hr
    · rw [hstack', opened, opened_reduce, hstack₁]
  | negative _ ih => exact fun stack rest => ih (.negative :: stack) rest
  | @bracket t _ ih =>
    intro stack rest
    obtain ⟨stack₁, v, ht, hstack₁⟩ := ih (.bracket :: stack) (.closing :: rest)
    obtain ⟨v', hreduce⟩ := reduce_none (g := g) a stack₁ v
    rw [hstack₁, opened] at hreduce
    obtain ⟨below', hreduce, hbelow'⟩ := hreduce
    refine ⟨below', a.bracket v', ?_, hbelow'⟩
    rw [yield, List.cons_append, List.append_assoc, run, shift]
    simp only [Option.bind_some]
    rw [List.singleton_append, ht, run, shift, hreduce]
    rfl
  | @call f args hne hlen _ ih =>
    intro stack rest
    obtain ⟨stack', v, hargs, hstack'⟩ := readable_yields hne ih [] (by simpa using hlen)
      (.call f [] :: stack) stack rfl rest
    refine ⟨stack', v, ?_, hstack'⟩
    rw [yield, List.cons_append, List.cons_append, List.append_assoc, List.singleton_append]
    exact hargs

/-- **The parser accepts the sentences of the ambiguous grammar.** -/
theorem parse_isSome_iff {xs : List (Terminal A O F)} :
    (g.parse a xs).isSome ↔ ∃ t : ParseTree A O F, t.WellFormed g ∧ t.yield = xs := by
  constructor
  · intro h
    obtain ⟨v, hv⟩ := Option.isSome_iff_exists.mp h
    obtain ⟨t, hres, hyield, -⟩ := parse_eq_some_iff.mp hv
    exact ⟨t, hres.wellFormed, hyield⟩
  · rintro ⟨t, hwf, rfl⟩
    obtain ⟨stack, v, hrun, hopened⟩ := readable_yield (a := a) hwf [] []
    obtain ⟨v', hreduce⟩ := reduce_none (g := g) a stack v
    rw [hopened, opened] at hreduce
    rw [List.append_nil] at hrun
    rw [parse, hrun]
    simp only [run, Option.bind_some, finish, hreduce, Option.isSome_some]

end Grammar

/-! ### Printing with brackets -/

namespace ParseTree

variable (g : Grammar O F)

/-- Is the root a binary operator? -/
def is_binary : ParseTree A O F → Bool
  | .binary _ _ _ => true
  | _ => false

/-- Does an operator that follows take the right operand of the root away? -/
def gives_way (next : O) : ParseTree A O F → Bool
  | .binary _ op _ => !g.reduces op (some next)
  | _ => false

/-- Would an operator on the left take the left operand of the root? -/
def taken_by (op : O) : ParseTree A O F → Bool
  | .binary _ op' _ => g.reduces op (some op')
  | _ => false

/-- Brackets, where they are necessary. -/
def bracket_if (b : Bool) (t : ParseTree A O F) : ParseTree A O F := if b then .bracket t else t

mutual

/-- The expression with brackets around the operands that would otherwise be read differently. -/
def bracketed : ParseTree A O F → ParseTree A O F
  | .atom x => .atom x
  | .binary l op r => .binary (bracket_if (l.gives_way g op) l.bracketed) op (bracket_if (r.taken_by g op) r.bracketed)
  | .negative t => .negative (bracket_if t.is_binary t.bracketed)
  | .bracket t => .bracket t.bracketed
  | .call f args => .call f (bracketed_list args)

def bracketed_list : List (ParseTree A O F) → List (ParseTree A O F)
  | [] => []
  | t :: rest => t.bracketed :: bracketed_list rest

end

variable {g} {t : ParseTree A O F}

@[simp] theorem bracketed_list_eq_map (args : List (ParseTree A O F)) :
    bracketed_list g args = args.map (bracketed g) := by
  induction args with
  | nil => rfl
  | cons t rest ih => rw [bracketed_list, ih, List.map_cons]

theorem Resolved.bracket_if {b : Bool} (h : t.Resolved g) : (bracket_if b t).Resolved g := by
  cases b
  · exact h
  · exact .bracket h

/-- A bracketed expression is resolved. -/
theorem WellFormed.bracketed_resolved (h : t.WellFormed g) : (t.bracketed g).Resolved g := by
  induction h with
  | atom x => exact .atom x
  | @binary l r op _ _ ihl ihr =>
    refine .binary ihl.bracket_if ihr.bracket_if ?_ ?_
    · cases l with
      | binary l op' r =>
        by_cases hop : g.reduces op' (some op) <;> simp [bracketed, ParseTree.bracket_if, gives_way, hop, Before]
      | _ => simp [bracketed, ParseTree.bracket_if, gives_way, Before]
    · cases r with
      | binary l op' r =>
        by_cases hop : g.reduces op (some op') <;> simp [bracketed, ParseTree.bracket_if, taken_by, hop, After]
      | _ => simp [bracketed, ParseTree.bracket_if, taken_by, After]
  | @negative t _ ih =>
    refine .negative ih.bracket_if ?_
    cases t <;> simp [bracketed, ParseTree.bracket_if, is_binary, Closed]
  | bracket _ ih => exact .bracket ih
  | call hne hlen _ ih =>
    rw [bracketed, bracketed_list_eq_map]
    refine .call (by simpa using hne) (by simpa using hlen) fun t ht => ?_
    obtain ⟨u, hu, rfl⟩ := List.mem_map.mp ht
    exact ih u hu

/-- Where brackets mean nothing, the bracketed expression has the value of the expression. -/
theorem WellFormed.value_bracketed {a : Actions A O F V} (ha : ∀ v, a.bracket v = v) (h : t.WellFormed g) :
    (t.bracketed g).value a = t.value a := by
  have hif (b : Bool) (t : ParseTree A O F) : (ParseTree.bracket_if b t).value a = t.value a := by
    cases b
    · rfl
    · exact ha _
  induction h with
  | atom x => rfl
  | binary _ _ _ ihl ihr => rw [bracketed, value, hif, hif, ihl, ihr, value]
  | negative _ ih => rw [bracketed, value, hif, ih, value]
  | bracket _ ih => rw [bracketed, value, ih, value]
  | call _ _ _ ih =>
    rw [bracketed, value, value, values_eq_map, values_eq_map, bracketed_list_eq_map, List.map_map]
    exact congrArg _ (List.map_congr_left ih)

end ParseTree

end CppTransport.Library.OperatorPrecedence
