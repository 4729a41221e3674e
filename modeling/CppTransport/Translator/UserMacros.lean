import CppTransport.Translator.ReplacementRules

/-!
# Macros defined in a template

A line `$SET[abc]{NAME, "definition"}` defines a macro of a template (`shared/directives.cpp`). The definition
is tokenized when the line is, with the listed indices to validate against, and its tokens are kept. When the
macro is used, the tokens are evaluated again, with the indices in the list bound, one after the other, to
what the macro is given.

## The model

The tokens are those of a line. What nested macros come to is a parameter: a text or an exception for every
call, preparation included. The errors that a token reports are listed as the exceptions it has caught; that
a token falls silent after some of them is left out. A definition that holds a directive has applied it when
the definition was tokenized, as the configuration says.
-/

namespace CppTransport.Translator.UserMacros

open Library Tokenizer
open ReplacementRules (exception)

def ERROR_MISSING_INDEX_ASSIGNMENT : String := "Internal error: missing index assignment"
def ERROR_INDEX_LITERAL_REASSIGN : String :=
  "Internal error: missing database entry during index literal reassignment, for index"
def ERROR_REPLACEMENT_RULE_ZERO_INDICES : String :=
  "Internal error: number of indices for an indexed replacement rule cannot be zero"
def ERROR_INDEX_SUBSTITUTION : String := "Missing substitution for index"
def ERROR_SET_INDEX_DUPLICATE : String := "Index list declared to $SET contains duplicated index"
def ERROR_SET_REDEFINITION : String := "Redefinition of replacement rule"
def DIRECTIVE_SET_MACRO_A : String := "set replacement rule"
def DIRECTIVE_SET_MACRO_B : String := "to"

/-! ### The directive -/

/-- A `user_macro`. -/
structure user_macro_rule where
  name : List Char
  /-- The tokens of the definition. -/
  tokens : List generic_token
  /-- The indices that were listed. -/
  indices : List index_literal
  status : unroll_state
  declaration_point : ℕ × ℕ

/-- It takes no arguments. -/
def user_macro_rule.rule (m : user_macro_rule) : index_rule where
  name := m.name
  num_args := 0
  get_unroll _ := .ok m.status

/-- What the directive and its macro agent keep. -/
structure Agent where
  rules : List user_macro_rule
  local_rules : List index_rule
  errors : List ErrorReport := []

/-- Computations of the directive. -/
abbrev A := EStateM Failure Agent

/-- `to_database`: an index that occurs again is thrown. -/
def add_to_database (db : List (Char × variance)) : List index_literal → Except index_literal (List (Char × variance))
  | [] => .ok db
  | l :: more =>
    if l.label ∈ db.map Prod.fst then .error l else add_to_database (db ++ [(l.label, l.type)]) more

def to_database (indices : List index_literal) : Except index_literal (List (Char × variance)) :=
  add_to_database [] indices

/-- `replace_database`: an index that the database does not have is a `std::out_of_range`. -/
def replace_database (db : List Char) : List index_literal → A Unit
  | [] => return ()
  | l :: more =>
    if l.label ∈ db then replace_database db more
    else throw (.fault (.other (about ERROR_INDEX_LITERAL_REASSIGN [l.label])))

/-- How a definition is tokenized. -/
def definition (c : Config) (defn : List Char) (db : List (Char × variance)) : Config :=
  { c with input := defn, validation_db := some db, strict := true }

/-- `macro_agent::tokenize` -/
def tokenize (c : Config) (defn : List Char) (db : List (Char × variance)) : A State := fun agent =>
  match (definition c defn db).token_list { local_rules := agent.local_rules } with
  | .ok _ s => .ok s { agent with local_rules := s.local_rules, errors := agent.errors ++ s.errors }
  | .error e s => .error e { agent with local_rules := s.local_rules, errors := agent.errors ++ s.errors }

/-- `token_list::unroll_status` -/
def unroll_status (s : State) : unroll_state :=
  if s.force_unroll ≠ [] ∧ s.prevent_unroll = [] then .force
  else if s.force_unroll = [] ∧ s.prevent_unroll ≠ [] then .prevent
  else .allow

/-- The constructor of a `user_macro`. -/
def make_user_macro_rule (name : macro_argument) (s : State) (indices : List index_literal) : A user_macro_rule :=
  if indices.length = 0 then throw (.fault (.runtime_error ERROR_REPLACEMENT_RULE_ZERO_INDICES))
  else return ⟨name.arg, s.tokens, indices, unroll_status s, name.span⟩

/-- Report an error; its message is returned too. -/
def report (msg : String) (span : ℕ × ℕ) : A (List Char) := do
  modify fun agent => { agent with errors := agent.errors ++ [⟨msg, span⟩] }
  return msg.toList

/-- `set_directive::apply`. The number of arguments has been checked. -/
def apply (c : Config) (args : List macro_argument) (indices : List index_literal) : A (List Char) :=
  match args with
  | name :: defn :: _ =>
    match to_database indices with
    | .error l => report (about ERROR_SET_INDEX_DUPLICATE [l.label]) l.span
    | .ok db => do
      let s ← tokenize c defn.arg db
      if (← get).rules.any (·.name = name.arg) then report (about ERROR_SET_REDEFINITION name.arg) name.span
      else
        replace_database (s.index_decls.map (·.label)) indices
        let m ← make_user_macro_rule name s indices
        modify fun agent => { agent with rules := agent.rules ++ [m], local_rules := agent.local_rules ++ [m.rule] }
        return (about DIRECTIVE_SET_MACRO_A name.arg ++ " " ++ DIRECTIVE_SET_MACRO_B ++ " \"" ++ .ofList defn.arg ++
          "\"").toList
  | _ => throw (.fault .undefined)

/-! ### Evaluation -/

/-- What nested macros come to. -/
structure Nested where
  simple : List Char → List macro_argument → Except exception (List Char)
  /-- For values of the indices. -/
  unroll : List Char → List macro_argument → List (index_literal × ℕ) → Except exception (List Char)
  /-- In a loop. -/
  roll : List Char → List macro_argument → List index_literal → Except exception (List Char)

/-- What comes of evaluating a token. -/
inductive Evaluated where
  | converts (text : List Char)
  /-- An exception is caught. -/
  | reports (e : exception)
  | throws (e : exception)

/-- Call a rule. -/
def attempt (catches : exception → Bool) : Except exception (List Char) → Evaluated
  | .ok text => .converts text
  | .error e => if catches e then .reports e else .throws e

def simple_catches : exception → Bool
  | .argument_mismatch _ | .rule_apply_fail _ => true
  | _ => false

def unroll_catches : exception → Bool
  | .argument_mismatch _ | .index_mismatch _ _ | .rule_apply_fail _ => true
  | _ => false

def roll_catches : exception → Bool
  | .rule_apply_fail _ | .resource_failure _ => true
  | _ => false

/-- `std::equal_to<index_literal>`; the class of an index is that of its label. -/
def same (l d : index_literal) : Bool := l.label = d.label && l.type = d.type

/-- What the indices of a nested macro are bound to. -/
def bound {β : Type} (find : index_literal → Option β) (msg : String) :
    List index_literal → Except exception (List β)
  | [] => .ok []
  | l :: more =>
    match find l with
    | none => .error (.rule_apply_fail (about msg [l.label]))
    | some b => (bound find msg more).map (b :: ·)

section Tokens

variable (N : Nested)

/-- Simple macros of a type. -/
def evaluate_simple (type : simple_macro_type) : token_kind → Option Evaluated
  | .simple_macro_token name args type' =>
    if type' = type then some (attempt simple_catches (N.simple name args)) else none
  | _ => none

/-- Index literals, for values of indices. -/
def evaluate_literal_unroll (a : List (Char × ℕ)) : token_kind → Option Evaluated
  | .index_literal_token l => some <|
    match a.lookup l.label with
    | some value => .converts (toString value).toList
    | none => .throws (.rule_apply_fail (about ERROR_MISSING_INDEX_ASSIGNMENT [l.label]))
  | _ => none

/-- Index macros, for values of indices. -/
def evaluate_index_unroll (a : List (Char × ℕ)) : token_kind → Option Evaluated
  | .index_macro_token name list args => some <|
    match bound (fun l => (a.lookup l.label).map fun value => (l, value)) ERROR_MISSING_INDEX_ASSIGNMENT list with
    | .ok values => attempt unroll_catches (N.unroll name args values)
    | .error e => .throws e
  | _ => none

/-- Look up an index in an `index_remap_rule`. -/
def remapped (rule : List (index_literal × index_literal)) (l : index_literal) : Option index_literal :=
  (rule.find? fun p => same l p.1).map Prod.snd

/-- Index literals, in a loop: the text is the loop variable. -/
def evaluate_literal_roll (rule : List (index_literal × index_literal)) : token_kind → Option Evaluated
  | .index_literal_token l => some <|
    match remapped rule l with
    | some l' => .converts [l'.label]
    | none => .throws (.rule_apply_fail (about ERROR_INDEX_SUBSTITUTION [l.label]))
  | _ => none

/-- Index macros, in a loop. -/
def evaluate_index_roll (rule : List (index_literal × index_literal)) : token_kind → Option Evaluated
  | .index_macro_token name list args => some <|
    match bound (remapped rule) ERROR_INDEX_SUBSTITUTION list with
    | .ok remap_list => attempt roll_catches (N.roll name args remap_list)
    | .error e => .throws e
  | _ => none

end Tokens

/-- What comes of evaluating tokens. -/
structure Sweep where
  tokens : List generic_token
  reports : List exception
  thrown : Option exception

/-- Evaluate tokens of some kinds, one after the other, up to one that throws. -/
def sweep (f : token_kind → Option Evaluated) : List generic_token → Sweep
  | [] => ⟨[], [], none⟩
  | t :: more =>
    let r := sweep f more
    match f t.kind with
    | none => { r with tokens := t :: r.tokens }
    | some (.converts text) => { r with tokens := { t with conversion := text } :: r.tokens }
    | some (.reports e) => { r with tokens := t :: r.tokens, reports := e :: r.reports }
    | some (.throws e) => ⟨t :: more, [], some e⟩

/-- Evaluate tokens of other kinds afterwards. -/
def Sweep.and_then (r : Sweep) (f : token_kind → Option Evaluated) : Sweep :=
  match r.thrown with
  | some _ => r
  | none =>
    let r' := sweep f r.tokens
    { r' with reports := r.reports ++ r'.reports }

/-- `token_list::to_string`, unless something has been thrown. -/
def Sweep.text (r : Sweep) : Except exception (List Char) :=
  match r.thrown with
  | some e => .error e
  | none => .ok (r.tokens.flatMap (·.conversion))

namespace user_macro_rule

variable (N : Nested) (m : user_macro_rule)

def pre_hook : Sweep := sweep (evaluate_simple N .pre) m.tokens

def unroll (idxs : List (index_literal × ℕ)) : Sweep :=
  let rule := (m.indices.zip idxs).map fun p => (p.1.label, p.2.2)
  ((sweep (evaluate_literal_unroll rule) m.tokens).and_then (evaluate_index_unroll N rule)).and_then
    (evaluate_simple N .post)

def roll (idxs : List index_literal) : Sweep :=
  let rule := m.indices.zip idxs
  ((sweep (evaluate_literal_roll rule) m.tokens).and_then (evaluate_index_roll N rule)).and_then
    (evaluate_simple N .post)

/-- What is done with a macro that has been defined. -/
inductive Op where
  /-- Before it is evaluated for values for the first time in a line. -/
  | pre_hook
  | unroll (idxs : List (index_literal × ℕ))
  | roll (idxs : List index_literal)

def Op.sweep : Op → Sweep
  | pre_hook => m.pre_hook N
  | unroll idxs => m.unroll N idxs
  | roll idxs => m.roll N idxs

/-- The tokens keep their texts from one evaluation to the next. -/
def run (ops : List Op) : user_macro_rule :=
  ops.foldl (fun m op => { m with tokens := (op.sweep N m).tokens }) m

end user_macro_rule

end CppTransport.Translator.UserMacros
