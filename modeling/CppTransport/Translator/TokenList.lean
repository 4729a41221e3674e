import CppTransport.Library.StateExceptions
import Mathlib.Data.List.Basic
import Mathlib.Data.List.TakeWhile

/-!
# Tokens of a template line

`token_list` splits a line of a template into tokens: text, index literals, macros and directives.
Everything but text begins with a prefix. Behind the prefix it looks for the longest macro that it
can find in six tables of rules, reads what belongs to it (a list of indices, a list of arguments,
an unroll modifier), and takes what cannot be a macro for an index literal.

## The model

The constructor runs in `EStateM`: what was done before an exception stays done. A position in the
line is read as `std::string::operator[]` reads it: the position behind the last character holds a
null character, and reading further is `Failure.out_of_bounds`. A loop that may not advance is given
as many rounds as the line has characters, and is `Failure.unfinished` if they do not suffice.

What a rule does when it is asked whether its loop is to be unrolled, or when a directive is applied,
is given with the rule: it may return, throw, or be undefined, and a directive may inject new local
rules. Applications are counted, so that a directive may do something else each time. Errors are
kept with the span they refer to; warnings are left out, as are the records of abstract indices.
Characters are classified as in the "C" locale.

## What is proved

`lossless`: the constructor ends, and does not read beyond the end of the line. If it returns, the
spans of its rounds partition the line; a round yields a token of text, verbatim, or a token for
something that begins with the prefix, or an error and no token.
-/

namespace CppTransport.Translator.Tokenizer

open Library

def ERROR_EXPECTED_OPEN_ARGUMENT_LIST : String := "Missing open of argument list '\x7b' for rule"
def ERROR_UNEXPECTED_COMMA : String := "Unexpected argument separator ',' for rule"
def ERROR_EXPECTED_CLOSE_ARGUMENT_QUOTE : String := "Missing closing quotation '\"' for rule"
def ERROR_EXPECTED_COMMA : String := "Expected argument separator ',' for rule"
def ERROR_EXPECTED_CLOSE_ARGUMENT_LIST : String := "Missing close of argument list '\x7d' for rule"
def ERROR_EXPECTED_OPEN_INDEX_LIST : String := "Expected index list beginning with '[' for indexed rule"
def ERROR_EXPECTED_INDEX_LABEL_A : String := "Expected index label for indexed rule"
def ERROR_EXPECTED_INDEX_LABEL_B : String := "received"
def ERROR_EXPECTED_CLOSE_INDEX_LIST : String := "Expected close of index list ']' for indexed rule"
def ERROR_TOKENIZE_NO_MACRO_MATCH : String := "Internal error: unexpectedly failed to match a replacement rule"
def ERROR_TOKENIZE_UNEXPECTED_LIST : String := "Did not expect index list following simple replacement rule"
def ERROR_TOKENIZE_SKIPPING : String := "skipping"
def ERROR_INCOMPATIBLE_UNROLL : String := "Conflicting unroll/roll-up requirements"
def ERROR_RULE_AFTER_DIRECTIVE : String := "Directives can not be mixed with other rules or index literals"
def ERROR_DIRECTIVE_AFTER_RULE : String := "Directives can not be mixed with other rules or index literals"
def ERROR_INDEX_LITERAL_NO_KERNEL : String := "Line ended before kernel letter for index literal"
def ERROR_INDEX_VALIDATION_FAIL : String := "Mismatched index literal: expected"
def ERROR_INDEX_NOT_VALID : String := "Use of undeclared index literal"
def ERROR_NONTRIVIAL_REQUIRES_VARIANCE : String :=
  "Variance must be assigned when using a nontrival field-space metric: assuming index is contravariant"

/-! ### Characters -/

/-- White space. -/
def isspace (c : Char) : Bool := c = ' ' || c = '\t' || c = '\n' || c = '\x0b' || c = '\x0c' || c = '\x0d'

def isalnum (c : Char) : Bool := c.isAlphanum

/-! ### Indices, rules and tokens -/

/-- Variance of an index. -/
inductive variance where
  | none
  | covariant
  | contravariant
deriving DecidableEq, Repr

def variance.to_string : variance → String
  | none => ""
  | covariant => "_"
  | contravariant => "^"

/-- What an index ranges over. -/
inductive index_class where
  | full
  | field_only
  | parameter
deriving DecidableEq, Repr

def identify_index (label : Char) : index_class :=
  if label.isLower then .field_only else if label.isUpper then .full else if label.isDigit then .parameter else .full

/-- An instance of an abstract index. -/
structure index_literal where
  /-- The label of the index. -/
  label : Char
  /-- Its variance. -/
  type : variance
  /-- Where it is declared. -/
  span : ℕ × ℕ
deriving DecidableEq, Repr

def index_literal.to_string (l : index_literal) : String := l.type.to_string ++ l.label.toString

/-- An argument, with the place where it is. -/
structure macro_argument where
  arg : List Char
  span : ℕ × ℕ
deriving DecidableEq, Repr

/-- What a rule may do other than return. -/
inductive Fault where
  /-- It throws a `std::runtime_error`. -/
  | runtime_error (what : String)
  /-- It throws any other exception. -/
  | other (what : String)
  /-- What it does is undefined. -/
  | undefined
deriving DecidableEq, Repr

/-- What ends the tokenizing of a line. -/
inductive Failure where
  /-- A rule is at fault, or a `std::runtime_error` is thrown. -/
  | fault (f : Fault)
  /-- The line is read beyond the character behind its end. -/
  | out_of_bounds
  /-- A loop has not ended. -/
  | unfinished
deriving DecidableEq, Repr

/-- Does a rule require that its loop is unrolled? -/
inductive unroll_state where
  | allow
  | prevent
  | force
deriving DecidableEq, Repr

/-- A `replacement_rule_simple`. -/
structure simple_rule where
  name : List Char
  num_args : ℕ

/-- A `replacement_rule_index`. -/
structure index_rule where
  name : List Char
  num_args : ℕ
  /-- What the rule answers for a list of indices. -/
  get_unroll : List index_literal → Except Fault unroll_state

/-- What comes of applying a directive. -/
inductive Applied where
  /-- Its text. Local rules may have been injected. -/
  | returns (conversion : List Char) (injected : List index_rule)
  | argument_mismatch (what : String)
  | rule_apply_fail (what : String)
  | index_mismatch (what : String) (span : ℕ × ℕ)
  /-- It fails in another way. -/
  | fails (f : Fault)

/-- A `directive_simple`. -/
structure simple_directive where
  name : List Char
  num_args : ℕ
  /-- What comes of it when so many directives have been applied. -/
  apply : ℕ → List macro_argument → Applied

/-- A `directive_index`. -/
structure index_directive where
  name : List Char
  num_args : ℕ
  /-- The number of indices, unless it is variable. -/
  num_indices : Option ℕ
  /-- What comes of it when so many directives have been applied. -/
  apply : ℕ → List macro_argument → List index_literal → Applied

inductive simple_macro_type where
  | pre
  | post
deriving DecidableEq, Repr

/-- The kinds of tokens. -/
inductive token_kind where
  | text_token
  | index_literal_token (index : index_literal)
  | simple_macro_token (name : List Char) (args : List macro_argument) (type : simple_macro_type)
  | index_macro_token (name : List Char) (indices : List index_literal) (args : List macro_argument)
  | simple_directive_token (name : List Char) (args : List macro_argument)
  | index_directive_token (name : List Char) (indices : List index_literal) (args : List macro_argument)
deriving DecidableEq, Repr

/-- A token. -/
structure generic_token where
  kind : token_kind
  /-- Its text. -/
  conversion : List Char
  /-- Where it is. -/
  span : ℕ × ℕ
deriving DecidableEq, Repr

namespace token_kind

/-- Is it a replacement rule or an index literal? -/
def is_rule : token_kind → Bool
  | simple_macro_token .. | index_macro_token .. | index_literal_token _ => true
  | _ => false

/-- Is it a directive? -/
def is_directive : token_kind → Bool
  | simple_directive_token .. | index_directive_token .. => true
  | _ => false

/-- The name of the macro or directive. -/
def name : token_kind → Option (List Char)
  | text_token | index_literal_token _ => none
  | simple_macro_token name .. | index_macro_token name .. | simple_directive_token name _
  | index_directive_token name .. => some name

end token_kind

/-- An error that has been reported. -/
structure ErrorReport where
  msg : String
  span : ℕ × ℕ
deriving DecidableEq, Repr

/-- What a line is tokenized with. -/
structure Config where
  /-- The line. -/
  input : List Char
  /-- The prefix of macros. -/
  pfx : List Char
  pre : List simple_rule := []
  post : List simple_rule := []
  index : List index_rule := []
  simp_dir : List simple_directive := []
  ind_dir : List index_directive := []
  /-- The indices to validate against, with their variances. -/
  validation_db : Option (List (Char × variance)) := none
  /-- Are indices that are not in it rejected? -/
  strict : Bool := false
  /-- Is the model canonical? Otherwise it has a nontrivial metric. -/
  canonical : Bool := true

/-- What the constructor changes. -/
structure State where
  /-- Local rules of the macro agent. -/
  local_rules : List index_rule
  tokens : List generic_token := []
  errors : List ErrorReport := []
  /-- Index instances in parse order. -/
  index_decls : List index_literal := []
  force_unroll : List (List Char) := []
  prevent_unroll : List (List Char) := []
  explicit_force : Option (List Char) := none
  explicit_prevent : Option (List Char) := none
  /-- How many directives have been applied. -/
  applications : ℕ := 0

/-- Computations on a line. -/
abbrev M := EStateM Failure State

/-- Report an error. -/
def error (msg : String) (start stop : ℕ) : M Unit :=
  modify fun s => { s with errors := s.errors ++ [⟨msg, (start, stop)⟩] }

/-- A message about a rule. -/
def about (msg : String) (name : List Char) : String := msg ++ " '" ++ .ofList name ++ "'"

namespace Config

variable (c : Config)

/-- Read a character. -/
def read (i : ℕ) : M Char :=
  if h : i < c.input.length then pure c.input[i] else if i = c.input.length then pure '\x00' else throw .out_of_bounds

/-- The position reached by `while(i < length && p(input[i])) ++i`. -/
def skip (p : Char → Bool) (i : ℕ) : ℕ := i + ((c.input.drop i).takeWhile p).length

/-- The characters from `i` up to `j`. -/
def slice (i j : ℕ) : List Char := (c.input.drop i).take (j - i)

/-- The test `i < length && input[i] == a`. -/
def at_char (i : ℕ) (a : Char) : Bool := c.input[i]? = some a

/-! ### Lists of arguments and indices -/

/-- An argument, with or without quotes. -/
def argument_text (name : List Char) (start : ℕ) : M (List macro_argument × ℕ) := do
  let a ← c.read start
  if a = ',' then
    error (about ERROR_UNEXPECTED_COMMA name) start (start + 1)
    return ([], start)
  else if a = '"' then
    let close := c.skip (· ≠ '"') (start + 1)
    let arg := c.slice (start + 1) close
    if c.at_char close '"' then return ([⟨arg, (start, close + 1)⟩], close + 1)
    else
      error (about ERROR_EXPECTED_CLOSE_ARGUMENT_QUOTE name) close (close + 1)
      return ([⟨arg, (start, close)⟩], close)
  else
    let stop := c.skip (fun b => b ≠ ',' && b ≠ '\x7d' && !isspace b) start
    return ([⟨c.slice start stop, (start, stop)⟩], stop)

/-- Look for an argument separator. -/
def separator (name : List Char) (current : ℕ) : M ℕ := do
  let b ← c.read current
  if b = ',' then return current + 1
  else if b = '\x7d' then return current
  else
    error (about ERROR_EXPECTED_COMMA name) current (current + 1)
    return current

/-- One round of the loop over arguments. -/
def argument (name : List Char) (position : ℕ) : M (List macro_argument × ℕ) := do
  let (args, current) ← c.argument_text name (c.skip isspace position)
  let next ← c.separator name (c.skip isspace current)
  return (args, next)

/-- The loop over arguments. -/
def arguments (name : List Char) : ℕ → ℕ → M (List macro_argument × ℕ)
  | 0, _ => throw .unfinished
  | rounds + 1, position => do
    if position < c.input.length ∧ ¬ c.at_char position '\x7d' then
      let (args, next) ← c.argument name position
      let (more, last) ← arguments name rounds next
      return (args ++ more, last)
    else return ([], position)

/-- Get a macro argument list. -/
def get_argument_list (name : List Char) (position : ℕ) (error_if_absent : Bool) : M (List macro_argument × ℕ) := do
  let start := c.skip isspace position
  if c.at_char start '\x7b' then
    let (args, current) ← c.arguments name (c.input.length + 1) (start + 1)
    if c.at_char current '\x7d' then return (args, current + 1)
    else
      error (about ERROR_EXPECTED_CLOSE_ARGUMENT_LIST name) current (current + 1)
      return (args, current)
  else if error_if_absent then
    error (about ERROR_EXPECTED_OPEN_ARGUMENT_LIST name) start (start + 1)
    return ([], start)
  else return ([], start)

/-- Validate the variance of an index. -/
def validate_index_properties (l : index_literal) : M index_literal := do
  if identify_index l.label = .parameter ∨ c.canonical then return { l with type := .none }
  else if l.type = .none then
    error ERROR_NONTRIVIAL_REQUIRES_VARIANCE l.span.1 l.span.2
    return { l with type := .contravariant }
  else return l

/-- Validate an index against the database that has been supplied. -/
def validate_index_literal (l : index_literal) : M Unit :=
  match c.validation_db with
  | none => pure ()
  | some db =>
    match db.lookup l.label with
    | none =>
      if c.strict then error (ERROR_INDEX_NOT_VALID ++ " '" ++ l.to_string ++ "'") l.span.1 l.span.2 else pure ()
    | some type =>
      if type = l.type then pure ()
      else error (ERROR_INDEX_VALIDATION_FAIL ++ " '" ++ { l with type := type }.to_string ++ "'") l.span.1 l.span.2

/-- An index is validated and declared. -/
def declare_index (label : Char) (v : variance) (start stop : ℕ) : M index_literal := do
  let l ← c.validate_index_properties ⟨label, v, (start, stop)⟩
  c.validate_index_literal l
  modify fun s => { s with index_decls := s.index_decls ++ [l] }
  return l

/-- The loop over indices, with the rest of the line. -/
def indices (name : List Char) : List Char → ℕ → variance → M (List index_literal × ℕ)
  | [], current, _ => return ([], current)
  | a :: rest, current, v => do
    if a = ']' then return ([], current)
    else if a = '^' then indices name rest (current + 1) .contravariant
    else if a = '_' then indices name rest (current + 1) .covariant
    else if isalnum a then
      let l ← c.declare_index a v current (current + 1)
      let (more, last) ← indices name rest (current + 1) v
      return (l :: more, last)
    else
      error (ERROR_EXPECTED_INDEX_LABEL_A ++ " '" ++ .ofList name ++ "', " ++ ERROR_EXPECTED_INDEX_LABEL_B ++
        " '" ++ a.toString ++ "'") current (current + 1)
      indices name rest (current + 1) v

/-- Get a macro index list. -/
def get_index_list (name : List Char) (position : ℕ) (error_if_absent : Bool) : M (List index_literal × ℕ) := do
  let start := c.skip isspace position
  if c.at_char start '[' then
    let (list, current) ← c.indices name (c.input.drop (start + 1)) (start + 1) .none
    if c.at_char current ']' then return (list, current + 1)
    else
      error (about ERROR_EXPECTED_CLOSE_INDEX_LIST name) current (current + 1)
      return (list, current)
  else if error_if_absent then
    error (about ERROR_EXPECTED_OPEN_INDEX_LIST name) start (start + 1)
    return ([], start)
  else return ([], start)

/-- Check that there is no index list, and skip over it. -/
def check_no_index_list (name : List Char) (position : ℕ) : M ℕ := do
  if c.at_char position '[' then
    error (about ERROR_TOKENIZE_UNEXPECTED_LIST name ++ "; " ++ ERROR_TOKENIZE_SKIPPING) position (position + 1)
    let close := c.skip (· ≠ ']') (position + 1)
    return if close < c.input.length then close + 1 else close
  else return position

/-! ### Tokens -/

/-- Match text, up to a terminal. -/
def match_string_literal (position : ℕ) (terminal : Char) : M (generic_token × ℕ) := do
  let a ← c.read position
  let current := c.skip (· ≠ terminal) (position + 1)
  return (⟨.text_token, a :: c.slice (position + 1) current, (position, current)⟩, current)

/-- The variance that is written before a label. -/
def written_variance (marks : List Char) : variance :=
  match marks.getLast? with
  | some '^' => .contravariant
  | some '_' => .covariant
  | _ => .none

/-- Build an index literal token. -/
def make_index_literal (position : ℕ) : M (Option generic_token × ℕ) := do
  let current := c.skip (fun a => a = '^' || a = '_') position
  if current ≥ c.input.length then
    error ERROR_INDEX_LITERAL_NO_KERNEL (current - 1) current
    return (none, current)
  else
    let label ← c.read current
    let l ← c.declare_index label (written_variance (c.slice position current)) position (current + 1)
    return (some ⟨.index_literal_token l, [label], (position, current + 1)⟩, current + 1)

/-- Replacement rules and directives are not to be mixed. -/
def validate_replacement_rule (name : List Char) (position : ℕ) : M Bool := do
  if (← get).tokens.any (·.kind.is_directive) then
    error ERROR_RULE_AFTER_DIRECTIVE position (position + name.length)
    return false
  else return true

def validate_directive (name : List Char) (position : ℕ) : M Bool := do
  if (← get).tokens.any (·.kind.is_rule) then
    error ERROR_DIRECTIVE_AFTER_RULE position (position + name.length)
    return false
  else return true

/-- Arguments, if the rule expects any. -/
def expected_arguments (name : List Char) (num_args position : ℕ) : M (List macro_argument × ℕ) :=
  if num_args > 0 then c.get_argument_list name position true else pure ([], position)

/-- Build a simple macro token. -/
def make_simple_macro_token (name : List Char) (position : ℕ) (rules : List simple_rule) (type : simple_macro_type) :
    M (Option generic_token × ℕ) := do
  if ← validate_replacement_rule name position then
    match rules.find? (·.name = name) with
    | none => throw (.fault (.runtime_error ERROR_TOKENIZE_NO_MACRO_MATCH))
    | some rule =>
      let current ← c.check_no_index_list name (position + name.length)
      let (args, current) ← c.expected_arguments name rule.num_args current
      return (some ⟨.simple_macro_token name args type, name, (position, current)⟩, current)
  else return (none, position + name.length)

/-- Push a rule to the lists that force or prevent unrolling. -/
def unroll_policy (name : List Char) (status : unroll_state) (force prevent : Bool) (s : State) : State :=
  let push_force := { s with force_unroll := s.force_unroll ++ [name] }
  let push_prevent := { s with prevent_unroll := s.prevent_unroll ++ [name] }
  if force then
    match status, s.explicit_prevent, s.explicit_force with
    | .prevent, _, _ => push_prevent
    | .force, some _, _ => push_force
    | .allow, some _, _ => s
    | _, none, some _ => push_force
    | _, none, none => { push_force with explicit_force := some name }
  else if prevent then
    match status, s.explicit_prevent, s.explicit_force with
    | .force, _, _ => push_force
    | .prevent, some _, _ => push_prevent
    | .allow, some _, _ => s
    | _, none, some _ => push_prevent
    | _, none, none => { push_prevent with explicit_prevent := some name }
  else
    match status with
    | .force => push_force
    | .prevent => push_prevent
    | .allow => s

/-- Determine unroll specifiers. -/
def find_unroll_policy (name : List Char) (status : unroll_state) (position : ℕ) : M ℕ := do
  let force := c.at_char position '|'
  let prevent := c.at_char position '@'
  modify (unroll_policy name status force prevent)
  return if force || prevent then position + 1 else position

/-- Build an index macro token. -/
def make_index_macro_token (name : List Char) (position : ℕ) (rules : List index_rule) :
    M (Option generic_token × ℕ) := do
  if ← validate_replacement_rule name position then
    match rules.find? (·.name = name) with
    | none => throw (.fault (.runtime_error ERROR_TOKENIZE_NO_MACRO_MATCH))
    | some rule =>
      let (list, current) ← c.get_index_list name (position + name.length) true
      let (args, current) ← c.expected_arguments name rule.num_args current
      match rule.get_unroll list with
      | .error f => throw (.fault f)
      | .ok status =>
        let current ← c.find_unroll_policy name status current
        return (some ⟨.index_macro_token name list args, name, (position, current)⟩, current)
  else return (none, position + name.length)

/-- A directive has been applied. -/
def count_application : M ℕ := do
  let s ← get
  modify fun s => { s with applications := s.applications + 1 }
  return s.applications

/-- Inject local rules. -/
def inject (rules : List index_rule) : M Unit :=
  modify fun s => { s with local_rules := s.local_rules ++ rules }

/-- The constructor of a simple directive token: the text of the token. -/
def apply_simple (rule : simple_directive) (args : List macro_argument) (start stop : ℕ) : M (List Char) := do
  let n ← count_application
  match rule.apply n args with
  | .returns conversion injected =>
    inject injected
    return conversion
  | .argument_mismatch what | .rule_apply_fail what =>
    error what start stop
    return rule.name
  | .index_mismatch what _ => throw (.fault (.runtime_error what))
  | .fails f => throw (.fault f)

/-- The constructor of an index directive token: the text of the token. -/
def apply_index (rule : index_directive) (args : List macro_argument) (list : List index_literal) (start stop : ℕ) :
    M (List Char) := do
  let n ← count_application
  match rule.apply n args list with
  | .returns conversion injected =>
    inject injected
    return conversion
  | .argument_mismatch what | .rule_apply_fail what =>
    error what start stop
    return rule.name
  | .index_mismatch what span =>
    error what span.1 span.2
    return rule.name
  | .fails f => throw (.fault f)

/-- Build a simple directive token. The directive is applied. -/
def make_simple_directive (name : List Char) (position : ℕ) (rules : List simple_directive) :
    M (Option generic_token × ℕ) := do
  if ← validate_directive name position then
    match rules.find? (·.name = name) with
    | none => throw (.fault (.runtime_error ERROR_TOKENIZE_NO_MACRO_MATCH))
    | some rule =>
      let current ← c.check_no_index_list name (position + name.length)
      let (args, current) ← c.expected_arguments name rule.num_args current
      let conversion ← apply_simple rule args position current
      return (some ⟨.simple_directive_token name args, conversion, (position, current)⟩, current)
  else return (none, position + name.length)

/-- The index list of a directive, which may accept none. -/
def directive_indices (name : List Char) (num_indices : Option ℕ) (position : ℕ) : M (List index_literal × ℕ) := do
  if num_indices = some 0 then
    let current ← c.check_no_index_list name position
    return ([], current)
  else c.get_index_list name position num_indices.isSome

/-- Build an index directive token. The directive is applied. -/
def make_index_directive (name : List Char) (position : ℕ) (rules : List index_directive) :
    M (Option generic_token × ℕ) := do
  if ← validate_directive name position then
    match rules.find? (·.name = name) with
    | none => throw (.fault (.runtime_error ERROR_TOKENIZE_NO_MACRO_MATCH))
    | some rule =>
      let (list, current) ← c.directive_indices name rule.num_indices (position + name.length)
      let (args, current) ← c.expected_arguments name rule.num_args current
      let conversion ← apply_index rule args list position current
      return (some ⟨.index_directive_token name list args, conversion, (position, current)⟩, current)
  else return (none, position + name.length)

/-! ### The longest macro -/

/-- Does the candidate match a name, or the beginning of a name? -/
def check_for_match (candidate : List Char) (names : List (List Char)) (allow_substring : Bool) : Bool :=
  names.any fun name => (if allow_substring then name.take candidate.length else name) = candidate

/-- The names in the tables of rules. -/
def tables (local_rules : List index_rule) : List (List (List Char)) :=
  [c.pre.map (·.name), c.post.map (·.name), c.index.map (·.name), local_rules.map (·.name), c.simp_dir.map (·.name),
    c.ind_dir.map (·.name)]

/-- Can the candidate be the beginning of a macro? -/
def possible_match (local_rules : List index_rule) (candidate : List Char) : Bool :=
  (c.tables local_rules).any fun names => check_for_match candidate names true

/-- Match greedily as much as can be the beginning of a macro. -/
def grow (local_rules : List index_rule) (candidate : List Char) : List Char → List Char
  | [] => candidate
  | a :: rest =>
    if a ≠ '[' && a ≠ '\x7b' && (isalnum a || a = '_') && c.possible_match local_rules (candidate ++ [a]) then
      grow local_rules (candidate ++ [a]) rest
    else candidate

/-- Determine what the candidate is, and build the token. -/
def make_token (candidate : List Char) (position : ℕ) : M (Option generic_token × ℕ) := do
  let local_rules := (← get).local_rules
  if check_for_match candidate (c.pre.map (·.name)) false then c.make_simple_macro_token candidate position c.pre .pre
  else if check_for_match candidate (c.post.map (·.name)) false then
    c.make_simple_macro_token candidate position c.post .post
  else if check_for_match candidate (c.index.map (·.name)) false then
    c.make_index_macro_token candidate position c.index
  else if check_for_match candidate (local_rules.map (·.name)) false then
    c.make_index_macro_token candidate position local_rules
  else if check_for_match candidate (c.simp_dir.map (·.name)) false then
    c.make_simple_directive candidate position c.simp_dir
  else if check_for_match candidate (c.ind_dir.map (·.name)) false then
    c.make_index_directive candidate position c.ind_dir
  else c.make_index_literal position

/-- Is a failure a `std::runtime_error`? -/
def is_runtime_error : Failure → Bool
  | .fault (.runtime_error _) => true
  | _ => false

/-- Match the longest macro, or else an index literal. -/
def match_macro_or_index (position : ℕ) : M (Option generic_token × ℕ) := do
  let a ← c.read position
  if position + 1 < c.input.length then
    let b ← c.read (position + 1)
    let local_rules := (← get).local_rules
    if c.possible_match local_rules [a, b] then
      let candidate := c.grow local_rules [a, b] (c.input.drop (position + 2))
      tryCatchWhen is_runtime_error (c.make_token candidate position) (c.make_index_literal position)
    else c.make_index_literal position
  else c.make_index_literal position

/-! ### The constructor -/

/-- One round of the loop over the line. -/
def round (position : ℕ) : M (Option generic_token × ℕ) := do
  let a ← c.read position
  if a ≠ c.pfx.headD '\x00' ∨ ¬ c.pfx <+: c.input.drop position then
    let (tok, current) ← c.match_string_literal position (c.pfx.headD '\x00')
    return (some tok, current)
  else c.match_macro_or_index (position + c.pfx.length)

/-- Push a token, if one was recognized. -/
def push (tok : Option generic_token) : M Unit :=
  modify fun s => { s with tokens := s.tokens ++ tok.toList }

/-- The loop over the line. -/
def rounds : ℕ → ℕ → M Unit
  | 0, _ => throw .unfinished
  | n + 1, position => do
    if position < c.input.length then
      let (tok, next) ← c.round position
      push tok
      rounds n next
    else return ()

/-- The constructor of a token list. -/
def token_list : M Unit := do
  c.rounds (c.input.length + 1) 0
  let s ← get
  if s.force_unroll ≠ [] ∧ s.prevent_unroll ≠ [] then error ERROR_INCOMPATIBLE_UNROLL 0 c.input.length

end Config

/-- Convert to a string. -/
def State.to_string (s : State) : List Char := s.tokens.flatMap (·.conversion)

/-! ### What a computation does -/

/-- The computation does not touch the tokens, and reports only errors. If it returns, its result and the errors
meet `P`; if it fails, which it does only if `faulty`, a rule is at fault. -/
def Spec {α : Type} (faulty : Prop) (m : M α) (P : α → List ErrorReport → Prop) : Prop :=
  ∀ s, wp m (fun a s' => s'.tokens = s.tokens ∧ ∃ new, s'.errors = s.errors ++ new ∧ P a new)
    (fun e s' => s'.tokens = s.tokens ∧ (∃ new, s'.errors = s.errors ++ new) ∧ faulty ∧ ∃ f, e = .fault f) s

namespace Spec

variable {α β : Type} {faulty : Prop} {m : M α} {P Q : α → List ErrorReport → Prop}

theorem imp (h : Spec faulty m P) (hPQ : ∀ a new, P a new → Q a new) : Spec faulty m Q := by
  intro s
  refine wp_imp (h s) ?_ fun _ _ => id
  rintro a s' ⟨htokens, new, herrors, hP⟩
  exact ⟨htokens, new, herrors, hPQ a new hP⟩

/-- A computation without faults returns. -/
theorem returns (h : Spec False m P) (s : State) : ∃ a s', m s = .ok a s' ∧ s'.tokens = s.tokens ∧
    ∃ new, s'.errors = s.errors ++ new ∧ P a new := by
  cases hm : m s with
  | ok a s' =>
    have hok := wp_ok (h s) hm
    exact ⟨a, s', rfl, hok⟩
  | error e s' =>
    have herror := wp_error (h s) hm
    exact herror.2.2.1.elim

theorem pure {a : α} (h : P a []) : Spec faulty (pure a) P := fun s => ⟨rfl, [], by simp, h⟩

theorem fault (f : Fault) : Spec True (throw (.fault f) : M α) P := fun _ => ⟨rfl, ⟨[], by simp⟩, trivial, f, rfl⟩

theorem bind {f : α → M β} {R : β → List ErrorReport → Prop} (hm : Spec faulty m P)
    (hf : ∀ a new, P a new → Spec faulty (f a) fun b more => R b (new ++ more)) : Spec faulty (m >>= f) R := by
  intro s
  rw [wp_bind]
  refine wp_imp (hm s) ?_ fun _ _ => id
  rintro a s' ⟨htokens, new, herrors, hP⟩
  refine wp_imp (hf a new hP s') ?_ ?_
  · rintro b s'' ⟨htokens', more, herrors', hR⟩
    exact ⟨htokens'.trans htokens, new ++ more, by rw [herrors', herrors, List.append_assoc], hR⟩
  · rintro e s'' ⟨htokens', ⟨more, herrors'⟩, hfault⟩
    exact ⟨htokens'.trans htokens, ⟨new ++ more, by rw [herrors', herrors, List.append_assoc]⟩, hfault⟩

/-- A state is changed where neither tokens nor errors are kept. -/
theorem modify {f : State → State} {P : PUnit → List ErrorReport → Prop} (htokens : ∀ s, (f s).tokens = s.tokens)
    (herrors : ∀ s, (f s).errors = s.errors) (h : P ⟨⟩ []) : Spec faulty (modify f) P :=
  fun s => ⟨htokens s, [], by simpa using herrors s, h⟩

theorem error {P : Unit → List ErrorReport → Prop} (msg : String) (start stop : ℕ) (h : P () [⟨msg, (start, stop)⟩]) :
    Spec faulty (error msg start stop) P := fun _ => ⟨rfl, _, rfl, h⟩

/-- An error is reported first. -/
theorem error_bind {k : M α} (msg : String) (start stop : ℕ)
    (hk : Spec faulty k fun a more => P a (⟨msg, (start, stop)⟩ :: more)) :
    Spec faulty (Tokenizer.error msg start stop >>= fun _ => k) P :=
  .bind (P := fun _ new => new = [⟨msg, (start, stop)⟩]) (.error msg start stop rfl) fun _ _ hnew => hnew ▸ hk

theorem get {P : State → List ErrorReport → Prop} (h : ∀ s, P s []) : Spec faulty (get : M State) P :=
  fun _ => ⟨rfl, [], by simp, h _⟩

/-- What has been reported when the first attempt has thrown is followed by what the second reports. -/
theorem tryCatchWhen {catches : Failure → Bool} {handler : M α} (hm : Spec faulty m P)
    (hh : ∀ new, Spec faulty handler fun a more => P a (new ++ more)) :
    Spec faulty (tryCatchWhen catches m handler) P := by
  intro s
  rw [wp_tryCatchWhen]
  refine wp_imp (hm s) (fun _ _ => id) ?_
  rintro e s' ⟨htokens, ⟨new, herrors⟩, hfault⟩
  split
  · refine wp_imp (hh new s') ?_ ?_
    · rintro a s'' ⟨htokens', more, herrors', hP⟩
      exact ⟨htokens'.trans htokens, new ++ more, by rw [herrors', herrors, List.append_assoc], hP⟩
    · rintro e' s'' ⟨htokens', ⟨more, herrors'⟩, hfault'⟩
      exact ⟨htokens'.trans htokens, ⟨new ++ more, by rw [herrors', herrors, List.append_assoc]⟩, hfault'⟩
  · exact ⟨htokens, ⟨new, herrors⟩, hfault⟩

end Spec

namespace Config

variable {c : Config} {faulty : Prop}

/-! ### Positions -/

theorem skip_le (p : Char → Bool) {i : ℕ} (h : i ≤ c.input.length) :
    i ≤ c.skip p i ∧ c.skip p i ≤ c.input.length := by
  have hlength : ((c.input.drop i).takeWhile p).length ≤ c.input.length - i := by
    have hprefix : (c.input.drop i).takeWhile p <+: c.input.drop i := List.takeWhile_prefix p
    simpa using hprefix.length_le
  rw [skip]
  omega

theorem drop_eq_cons {i : ℕ} {a : Char} (h : c.input[i]? = some a) :
    c.input.drop i = a :: c.input.drop (i + 1) :=
  (List.drop_eq_getElem?_toList_append ..).trans (by simp [h])

/-- The loop stops before the first character that is not skipped. -/
theorem lt_skip {p : Char → Bool} {i : ℕ} {a : Char} (h : c.input[i]? = some a) (hp : p a = true) :
    i < c.skip p i := by
  simp [skip, drop_eq_cons h, hp]

/-- Behind the last character there is a null character. -/
theorem spec_read {i : ℕ} (h : i ≤ c.input.length) :
    Spec faulty (c.read i) fun a new => new = [] ∧ (c.input[i]? = some a ∨ i = c.input.length ∧ a = '\x00') := by
  rw [read]
  split
  · rename_i hi
    exact .pure ⟨rfl, .inl (List.getElem?_eq_getElem hi)⟩
  · rename_i hi
    have hend : i = c.input.length := by omega
    rw [if_pos hend]
    exact .pure ⟨rfl, .inr ⟨hend, rfl⟩⟩

theorem lt_of_getElem? {i : ℕ} {a : Char} (h : c.input[i]? = some a) : i < c.input.length :=
  (List.getElem?_eq_some_iff.mp h).1

theorem lt_of_at_char {i : ℕ} {a : Char} (h : c.at_char i a = true) : i < c.input.length := by
  rw [at_char, decide_eq_true_eq] at h
  exact (List.getElem?_eq_some_iff.mp h).1

/-- The position has moved on, but not beyond the end of the line. -/
def Within (c : Config) (i : ℕ) {α : Type} (r : α × ℕ) : Prop := i ≤ r.2 ∧ r.2 ≤ c.input.length

theorem Within.mono {i j : ℕ} {α : Type} {r : α × ℕ} (h : c.Within j r) (hij : i ≤ j) : c.Within i r :=
  ⟨hij.trans h.1, h.2⟩

/-! ### Lists of arguments and indices -/

/-- An argument ends at a character at which the next round can go on: a comma, unless the argument has moved the
position on. -/
theorem spec_argument_text {start : ℕ} (name : List Char) (h : start ≤ c.input.length) :
    Spec faulty (c.argument_text name start) fun r _ => c.Within start r ∧
      ∀ a, c.input[start]? = some a → a ≠ '\x7d' → isspace a = false → a = ',' ∧ r.2 = start ∨ start < r.2 := by
  rw [argument_text]
  refine (spec_read h).bind fun a new ⟨_, ha⟩ => ?_
  have hat : ∀ b, c.input[start]? = some b → a = b := by
    intro b hb
    obtain ha | ⟨hend, -⟩ := ha
    · exact Option.some.inj (ha.symm.trans hb)
    · exact absurd (lt_of_getElem? hb) (by omega)
  split
  · rename_i hcomma
    exact .error_bind _ _ _ (.pure ⟨⟨le_rfl, h⟩, fun b hb _ _ => .inl ⟨hat b hb ▸ hcomma, rfl⟩⟩)
  · split
    · rename_i hquote
      have hlt : start < c.input.length := by
        obtain ha | ⟨-, hnull⟩ := ha
        · exact lt_of_getElem? ha
        · rw [hquote] at hnull
          exact absurd hnull (by decide)
      obtain ⟨hclose, hclose'⟩ := c.skip_le (· ≠ '"') (show start + 1 ≤ c.input.length from hlt)
      simp only
      split
      · rename_i hat
        have hlt' := lt_of_at_char hat
        exact .pure ⟨⟨by simp only; omega, hlt'⟩, fun _ _ _ _ => .inr (by simp only; omega)⟩
      · exact .error_bind _ _ _ (.pure ⟨⟨by simp only; omega, hclose'⟩, fun _ _ _ _ => .inr (by simp only; omega)⟩)
    · rename_i hcomma _
      obtain ⟨hstop, hstop'⟩ := c.skip_le (fun b => b ≠ ',' && b ≠ '\x7d' && !isspace b) h
      refine .pure ⟨⟨hstop, hstop'⟩, fun b hb hclose hspace => .inr (lt_skip hb ?_)⟩
      rw [hat b hb] at hcomma
      simp [hcomma, hclose, hspace]

theorem spec_separator {current : ℕ} (name : List Char) (h : current ≤ c.input.length) :
    Spec faulty (c.separator name current) fun next _ => current ≤ next ∧ next ≤ c.input.length ∧
      (c.input[current]? = some ',' → current < next) := by
  rw [separator]
  refine (spec_read h).bind fun a new ⟨_, ha⟩ => ?_
  have hcomma : c.input[current]? = some ',' → a = ',' := by
    intro hat
    obtain ha | ⟨hend, -⟩ := ha
    · exact Option.some.inj (ha.symm.trans hat)
    · exact absurd (lt_of_getElem? hat) (by omega)
  split
  · rename_i hsep
    have hlt : current < c.input.length := by
      obtain ha | ⟨-, hnull⟩ := ha
      · exact lt_of_getElem? ha
      · rw [hsep] at hnull
        exact absurd hnull (by decide)
    exact .pure ⟨by omega, hlt, fun _ => by omega⟩
  · rename_i hsep
    split
    · exact .pure ⟨le_rfl, h, fun hat => absurd (hcomma hat) hsep⟩
    · exact .error_bind _ _ _ (.pure ⟨le_rfl, h, fun hat => absurd (hcomma hat) hsep⟩)

/-- A round of the loop over arguments moves the position on. -/
theorem spec_argument {position : ℕ} (name : List Char) (h : position < c.input.length)
    (hclose : ¬ c.at_char position '\x7d') :
    Spec faulty (c.argument name position) fun r _ => c.Within (position + 1) r := by
  obtain ⟨hstart, hstart'⟩ := c.skip_le isspace h.le
  rw [argument]
  refine (spec_argument_text name hstart').bind fun r _ ⟨⟨hr, hr'⟩, hmoved⟩ => ?_
  obtain ⟨hskip, hskip'⟩ := c.skip_le isspace hr'
  refine (spec_separator name hskip').bind fun next _ ⟨hnext, hnext', hsep⟩ => .pure ⟨?_, hnext'⟩
  -- white space, an argument or a comma has been read
  obtain hlt | heq := hstart.lt_or_eq
  · simp only
    omega
  · have hfirst : c.input[position]? = some c.input[position] := List.getElem?_eq_getElem h
    have hspace : isspace c.input[position] = false := by
      by_contra hspace
      exact absurd (lt_skip hfirst (by simpa using hspace)) (by omega)
    have hne : c.input[position] ≠ '\x7d' := by
      simpa [at_char, hfirst] using hclose
    rw [← heq] at hmoved hr
    obtain ⟨hcomma, hstay⟩ | hmove := hmoved _ hfirst hne hspace
    · have hback : c.skip isspace r.2 = position := by rw [hstay, ← heq]
      have hlt := hsep (by rw [hback, hfirst, hcomma])
      simp only
      omega
    · simp only
      omega

theorem spec_arguments {position : ℕ} {n : ℕ} (name : List Char) (h : position ≤ c.input.length)
    (hn : c.input.length < position + n) :
    Spec faulty (c.arguments name n position) fun r _ => c.Within position r := by
  induction n generalizing position with
  | zero => omega
  | succ n ih =>
    rw [arguments]
    split
    · rename_i hcond
      refine (spec_argument name hcond.1 hcond.2).bind fun r _ ⟨hr, hr'⟩ => ?_
      refine (ih hr' (by omega)).bind fun q _ ⟨hq, hq'⟩ => .pure ⟨?_, hq'⟩
      simp only
      omega
    · exact .pure ⟨le_rfl, h⟩

theorem spec_get_argument_list {position : ℕ} (name : List Char) (error_if_absent : Bool)
    (h : position ≤ c.input.length) :
    Spec faulty (c.get_argument_list name position error_if_absent) fun r _ => c.Within position r := by
  obtain ⟨hstart, hstart'⟩ := c.skip_le isspace h
  rw [get_argument_list]
  simp only
  split
  · rename_i hopen
    refine (spec_arguments name (lt_of_at_char hopen) (by omega)).bind fun r _ ⟨hr, hr'⟩ => ?_
    split
    · rename_i hclose
      exact .pure ⟨by simp only; omega, lt_of_at_char hclose⟩
    · exact .error_bind _ _ _ (.pure ⟨by simp only; omega, hr'⟩)
  · split
    · exact .error_bind _ _ _ (.pure ⟨hstart, hstart'⟩)
    · exact .pure ⟨hstart, hstart'⟩

/-- No condition on what is returned or reported. -/
theorem spec_validate_index_properties (l : index_literal) :
    Spec faulty (c.validate_index_properties l) fun _ _ => True := by
  rw [validate_index_properties]
  split
  · exact .pure trivial
  · split
    · exact .error_bind _ _ _ (.pure trivial)
    · exact .pure trivial

theorem spec_validate_index_literal (l : index_literal) :
    Spec faulty (c.validate_index_literal l) fun _ _ => True := by
  rw [validate_index_literal]
  split
  · exact .pure trivial
  · split
    · split
      · exact .error (P := fun _ _ => True) _ _ _ trivial
      · exact .pure trivial
    · split
      · exact .pure trivial
      · exact .error (P := fun _ _ => True) _ _ _ trivial

theorem spec_declare_index (label : Char) (v : variance) (start stop : ℕ) :
    Spec faulty (c.declare_index label v start stop) fun _ _ => True := by
  rw [declare_index]
  refine (spec_validate_index_properties _).bind fun l _ _ => ?_
  refine (spec_validate_index_literal l).bind fun _ _ _ => ?_
  refine Spec.bind (P := fun _ _ => True) (.modify (fun _ => rfl) (fun _ => rfl) trivial) fun _ _ _ => ?_
  exact .pure (P := fun _ _ => True) trivial

theorem spec_indices (name rest : List Char) (current : ℕ) (v : variance) :
    Spec faulty (c.indices name rest current v) fun r _ => current ≤ r.2 ∧ r.2 ≤ current + rest.length := by
  induction rest generalizing current v with
  | nil => exact .pure ⟨le_rfl, le_rfl⟩
  | cons a rest ih =>
    have next : ∀ v, Spec faulty (c.indices name rest (current + 1) v) fun r _ =>
        current ≤ r.2 ∧ r.2 ≤ current + (a :: rest).length := fun v =>
      (ih (current + 1) v).imp fun r _ ⟨hr, hr'⟩ => ⟨by omega, by rw [List.length_cons]; omega⟩
    rw [indices]
    split
    · exact .pure ⟨le_rfl, by simp⟩
    · split
      · exact next _
      · split
        · exact next _
        · split
          · exact (spec_declare_index _ _ _ _).bind fun l _ _ => (next v).bind fun r _ hr => .pure hr
          · exact .error_bind _ _ _ (next v)

theorem spec_get_index_list {position : ℕ} (name : List Char) (error_if_absent : Bool)
    (h : position ≤ c.input.length) :
    Spec faulty (c.get_index_list name position error_if_absent) fun r _ => c.Within position r := by
  obtain ⟨hstart, hstart'⟩ := c.skip_le isspace h
  rw [get_index_list]
  simp only
  split
  · rename_i hopen
    have hlt := lt_of_at_char hopen
    refine (spec_indices name _ _ _).bind fun r _ ⟨hr, hr'⟩ => ?_
    rw [List.length_drop] at hr'
    split
    · rename_i hclose
      exact .pure ⟨by simp only; omega, lt_of_at_char hclose⟩
    · exact .error_bind _ _ _ (.pure ⟨by simp only; omega, by simp only; omega⟩)
  · split
    · exact .error_bind _ _ _ (.pure ⟨hstart, hstart'⟩)
    · exact .pure ⟨hstart, hstart'⟩

theorem spec_check_no_index_list {position : ℕ} (name : List Char) (h : position ≤ c.input.length) :
    Spec faulty (c.check_no_index_list name position) fun next _ => position ≤ next ∧ next ≤ c.input.length := by
  rw [check_no_index_list]
  split
  · rename_i hopen
    obtain ⟨hclose, hclose'⟩ := c.skip_le (· ≠ ']') (show position + 1 ≤ c.input.length from lt_of_at_char hopen)
    refine .error_bind _ _ _ ?_
    simp only
    split
    · exact .pure ⟨by omega, by omega⟩
    · exact .pure ⟨by omega, by omega⟩
  · exact .pure ⟨le_rfl, h⟩

theorem spec_expected_arguments {position : ℕ} (name : List Char) (num_args : ℕ) (h : position ≤ c.input.length) :
    Spec faulty (c.expected_arguments name num_args position) fun r _ => c.Within position r := by
  rw [expected_arguments]
  split
  · exact spec_get_argument_list name true h
  · exact .pure ⟨le_rfl, h⟩

theorem unroll_policy_keeps (name : List Char) (status : unroll_state) (force prevent : Bool) (s : State) :
    (unroll_policy name status force prevent s).tokens = s.tokens ∧
      (unroll_policy name status force prevent s).errors = s.errors := by
  unfold unroll_policy
  repeat' split
  all_goals exact ⟨rfl, rfl⟩

theorem spec_find_unroll_policy {position : ℕ} (name : List Char) (status : unroll_state)
    (h : position ≤ c.input.length) :
    Spec faulty (c.find_unroll_policy name status position) fun next _ =>
      position ≤ next ∧ next ≤ c.input.length := by
  rw [find_unroll_policy]
  refine (Spec.modify (P := fun _ _ => True) (fun s => (unroll_policy_keeps name status _ _ s).1)
    (fun s => (unroll_policy_keeps name status _ _ s).2) trivial).bind fun _ _ _ => .pure ?_
  split
  · rename_i hat
    rw [Bool.or_eq_true] at hat
    have hlt : position < c.input.length := hat.elim lt_of_at_char lt_of_at_char
    omega
  · exact ⟨le_rfl, h⟩

theorem spec_directive_indices {position : ℕ} (name : List Char) (num_indices : Option ℕ)
    (h : position ≤ c.input.length) :
    Spec faulty (c.directive_indices name num_indices position) fun r _ => c.Within position r := by
  rw [directive_indices]
  split
  · exact (spec_check_no_index_list name h).bind fun next _ hnext => .pure hnext
  · exact spec_get_index_list name _ h

/-! ### Tokens -/

/-- A token that begins with a prefix is not text; if there is none, an error has been reported. -/
def Recognized (tok : Option generic_token) (new : List ErrorReport) : Prop :=
  (∀ t, tok = some t → t.kind ≠ .text_token) ∧ (tok = none → new ≠ [])

theorem spec_make_index_literal {position : ℕ} (h : position ≤ c.input.length) :
    Spec faulty (c.make_index_literal position) fun r new => c.Within position r ∧
      (position < c.input.length → position < r.2) ∧ Recognized r.1 new := by
  obtain ⟨hskip, hskip'⟩ := c.skip_le (fun a => a = '^' || a = '_') h
  rw [make_index_literal]
  split
  · refine .error_bind _ _ _ (.pure ⟨⟨hskip, hskip'⟩, fun _ => by simp only; omega, by simp, by simp⟩)
  · refine (spec_read hskip').bind fun label _ _ => ?_
    refine (spec_declare_index _ _ _ _).bind fun l _ _ => .pure ⟨⟨?_, ?_⟩, ?_, by simp, by simp⟩
    all_goals simp only; omega

theorem spec_validate_replacement_rule (name : List Char) (position : ℕ) :
    Spec faulty (validate_replacement_rule name position) fun ok new => ok = false → new ≠ [] := by
  rw [validate_replacement_rule]
  refine (Spec.get (P := fun _ _ => True) fun _ => trivial).bind fun s _ _ => ?_
  split
  · exact .error_bind _ _ _ (.pure (by simp))
  · exact .pure (by simp)

theorem spec_validate_directive (name : List Char) (position : ℕ) :
    Spec faulty (validate_directive name position) fun ok new => ok = false → new ≠ [] := by
  rw [validate_directive]
  refine (Spec.get (P := fun _ _ => True) fun _ => trivial).bind fun s _ _ => ?_
  split
  · exact .error_bind _ _ _ (.pure (by simp))
  · exact .pure (by simp)

/-- What a builder of tokens does with a name that is in the line. -/
def Builds (c : Config) (name : List Char) (position : ℕ) (m : M (Option generic_token × ℕ)) : Prop :=
  Spec True m fun r new => c.Within (position + name.length) r ∧ Recognized r.1 new

theorem builds_none {name : List Char} {position : ℕ} {P : Bool → List ErrorReport → Prop} {validate : M Bool}
    (h : position + name.length ≤ c.input.length) (hvalidate : Spec True validate P)
    (hreports : ∀ new, P false new → new ≠ []) {m : M (Option generic_token × ℕ)} (hm : c.Builds name position m) :
    c.Builds name position (do if ← validate then m else return (none, position + name.length)) := by
  refine hvalidate.bind fun ok new hP => ?_
  cases ok with
  | true => exact hm.imp fun r more ⟨hwithin, hkind, hnone⟩ =>
      ⟨hwithin, hkind, fun h => List.append_ne_nil_of_right_ne_nil _ (hnone h)⟩
  | false => exact .pure ⟨⟨le_rfl, h⟩, by simp, fun _ => by simpa using hreports new hP⟩

theorem builds_make_simple_macro_token {name : List Char} {position : ℕ} (rules : List simple_rule)
    (type : simple_macro_type) (h : position + name.length ≤ c.input.length) :
    c.Builds name position (c.make_simple_macro_token name position rules type) := by
  refine builds_none h (spec_validate_replacement_rule name position) (fun _ hP => hP rfl) ?_
  cases rules.find? (·.name = name) with
  | none => exact .fault _
  | some rule =>
    refine (spec_check_no_index_list name h).bind fun current _ ⟨hcurrent, hcurrent'⟩ => ?_
    refine (spec_expected_arguments name _ hcurrent').bind fun r _ ⟨hr, hr'⟩ => ?_
    exact .pure ⟨⟨by simp only; omega, hr'⟩, by simp, by simp⟩

theorem builds_make_index_macro_token {name : List Char} {position : ℕ} (rules : List index_rule)
    (h : position + name.length ≤ c.input.length) :
    c.Builds name position (c.make_index_macro_token name position rules) := by
  refine builds_none h (spec_validate_replacement_rule name position) (fun _ hP => hP rfl) ?_
  cases rules.find? (·.name = name) with
  | none => exact .fault _
  | some rule =>
    refine (spec_get_index_list name true h).bind fun r _ ⟨hr, hr'⟩ => ?_
    refine (spec_expected_arguments name _ hr').bind fun q _ ⟨hq, hq'⟩ => ?_
    cases rule.get_unroll r.1 with
    | error f => exact .fault f
    | ok status =>
      refine (spec_find_unroll_policy name status hq').bind fun current _ ⟨hcurrent, hcurrent'⟩ => ?_
      exact .pure ⟨⟨by simp only; omega, hcurrent'⟩, by simp, by simp⟩

theorem spec_count_application : Spec faulty count_application fun _ _ => True := by
  rw [count_application]
  refine (Spec.get (P := fun _ _ => True) fun _ => trivial).bind fun s _ _ => ?_
  refine Spec.bind (P := fun _ _ => True) (.modify (fun _ => rfl) (fun _ => rfl) trivial) fun _ _ _ => ?_
  exact .pure (P := fun _ _ => True) trivial

theorem spec_inject (rules : List index_rule) (conversion : List Char) :
    Spec faulty (do inject rules; return conversion) fun _ _ => True := by
  refine Spec.bind (P := fun _ _ => True) (.modify (fun _ => rfl) (fun _ => rfl) trivial) fun _ _ _ => ?_
  exact .pure (P := fun _ _ => True) trivial

theorem spec_apply_simple (rule : simple_directive) (args : List macro_argument) (start stop : ℕ) :
    Spec True (apply_simple rule args start stop) fun _ _ => True := by
  rw [apply_simple]
  refine spec_count_application.bind fun n _ _ => ?_
  cases rule.apply n args with
  | returns conversion injected => exact spec_inject injected conversion
  | argument_mismatch what => exact .error_bind _ _ _ (.pure (P := fun _ _ => True) trivial)
  | rule_apply_fail what => exact .error_bind _ _ _ (.pure (P := fun _ _ => True) trivial)
  | index_mismatch what span => exact .fault _
  | fails f => exact .fault f

theorem spec_apply_index (rule : index_directive) (args : List macro_argument) (list : List index_literal)
    (start stop : ℕ) : Spec True (apply_index rule args list start stop) fun _ _ => True := by
  rw [apply_index]
  refine spec_count_application.bind fun n _ _ => ?_
  cases rule.apply n args list with
  | returns conversion injected => exact spec_inject injected conversion
  | argument_mismatch what => exact .error_bind _ _ _ (.pure (P := fun _ _ => True) trivial)
  | rule_apply_fail what => exact .error_bind _ _ _ (.pure (P := fun _ _ => True) trivial)
  | index_mismatch what span => exact .error_bind _ _ _ (.pure (P := fun _ _ => True) trivial)
  | fails f => exact .fault f

theorem builds_make_simple_directive {name : List Char} {position : ℕ} (rules : List simple_directive)
    (h : position + name.length ≤ c.input.length) :
    c.Builds name position (c.make_simple_directive name position rules) := by
  refine builds_none h (spec_validate_directive name position) (fun _ hP => hP rfl) ?_
  cases rules.find? (·.name = name) with
  | none => exact .fault _
  | some rule =>
    refine (spec_check_no_index_list name h).bind fun current _ ⟨hcurrent, hcurrent'⟩ => ?_
    refine (spec_expected_arguments name _ hcurrent').bind fun r _ ⟨hr, hr'⟩ => ?_
    refine (spec_apply_simple rule r.1 position r.2).bind fun _ _ _ => ?_
    exact .pure ⟨⟨by simp only; omega, hr'⟩, by simp, by simp⟩

theorem builds_make_index_directive {name : List Char} {position : ℕ} (rules : List index_directive)
    (h : position + name.length ≤ c.input.length) :
    c.Builds name position (c.make_index_directive name position rules) := by
  refine builds_none h (spec_validate_directive name position) (fun _ hP => hP rfl) ?_
  cases rules.find? (·.name = name) with
  | none => exact .fault _
  | some rule =>
    refine (spec_directive_indices name _ h).bind fun r _ ⟨hr, hr'⟩ => ?_
    refine (spec_expected_arguments name _ hr').bind fun q _ ⟨hq, hq'⟩ => ?_
    refine (spec_apply_index rule q.1 r.1 position q.2).bind fun _ _ _ => ?_
    exact .pure ⟨⟨by simp only; omega, hq'⟩, by simp, by simp⟩

/-! ### The longest macro -/

/-- What is matched is in the line. -/
theorem grow_eq (local_rules : List index_rule) (candidate rest : List Char) :
    ∃ k ≤ rest.length, c.grow local_rules candidate rest = candidate ++ rest.take k := by
  induction rest generalizing candidate with
  | nil => exact ⟨0, le_rfl, by simp [grow]⟩
  | cons a rest ih =>
    rw [grow]
    split
    · obtain ⟨k, hk, heq⟩ := ih (candidate ++ [a])
      exact ⟨k + 1, Nat.succ_le_succ hk, by rw [heq]; simp⟩
    · exact ⟨0, Nat.zero_le _, by simp⟩

/-- What the matching of a macro or an index literal does. -/
def Matches (c : Config) (position : ℕ) (m : M (Option generic_token × ℕ)) : Prop :=
  Spec True m fun r new => c.Within position r ∧ (position < c.input.length → position < r.2) ∧ Recognized r.1 new

theorem Builds.matches {name : List Char} {position : ℕ} {m : M (Option generic_token × ℕ)}
    (h : c.Builds name position m) (hname : 0 < name.length) : c.Matches position m :=
  Spec.imp h fun r _ ⟨hwithin, hrec⟩ => ⟨hwithin.mono (by omega), fun _ => by have := hwithin.1; omega, hrec⟩

theorem matches_make_token {candidate : List Char} {position : ℕ} (hpos : 0 < candidate.length)
    (h : position + candidate.length ≤ c.input.length) : c.Matches position (c.make_token candidate position) := by
  rw [make_token]
  refine (Spec.get (P := fun _ new => new = []) fun _ => rfl).bind fun s _ hnew => ?_
  subst hnew
  dsimp only
  split
  · exact (builds_make_simple_macro_token _ _ h).matches hpos
  split
  · exact (builds_make_simple_macro_token _ _ h).matches hpos
  split
  · exact (builds_make_index_macro_token _ h).matches hpos
  split
  · exact (builds_make_index_macro_token _ h).matches hpos
  split
  · exact (builds_make_simple_directive _ h).matches hpos
  split
  · exact (builds_make_index_directive _ h).matches hpos
  · exact spec_make_index_literal (by omega)

theorem matches_match_macro_or_index {position : ℕ} (h : position ≤ c.input.length) :
    c.Matches position (c.match_macro_or_index position) := by
  rw [match_macro_or_index]
  refine (spec_read h).bind fun a new ⟨hnew, _⟩ => ?_
  subst hnew
  split
  · rename_i hnext
    refine (spec_read hnext.le).bind fun b new ⟨hnew, _⟩ => ?_
    subst hnew
    refine (Spec.get (P := fun _ new => new = []) fun _ => rfl).bind fun s new hnew => ?_
    subst hnew
    dsimp only
    split
    · obtain ⟨k, hk, heq⟩ := c.grow_eq s.local_rules [a, b] (c.input.drop (position + 2))
      rw [List.length_drop] at hk
      have hlength :
          position + (c.grow s.local_rules [a, b] (c.input.drop (position + 2))).length ≤ c.input.length := by
        rw [heq, List.length_append, List.length_take, List.length_drop]
        simp only [List.length_cons, List.length_nil]
        omega
      refine Spec.tryCatchWhen (matches_make_token (by rw [heq]; simp) hlength) fun new => ?_
      exact (spec_make_index_literal h).imp fun r more ⟨hwithin, hlt, hkind, hnone⟩ =>
        ⟨hwithin, hlt, hkind, fun h => by simp [hnone h]⟩
    · exact spec_make_index_literal h
  · exact spec_make_index_literal h

theorem spec_match_string_literal {position : ℕ} (terminal : Char) (h : position < c.input.length) :
    Spec faulty (c.match_string_literal position terminal) fun r _ => c.Within (position + 1) r ∧
      r.1.kind = .text_token ∧ r.1.conversion = c.slice position r.2 := by
  obtain ⟨hskip, hskip'⟩ := c.skip_le (· ≠ terminal) (show position + 1 ≤ c.input.length from h)
  rw [match_string_literal]
  refine (spec_read h.le).bind fun a new ⟨_, ha⟩ => .pure ⟨⟨hskip, hskip'⟩, rfl, ?_⟩
  have ha : c.input[position]? = some a := ha.resolve_right fun h' => by omega
  obtain ⟨k, hk⟩ := Nat.exists_eq_add_of_le hskip
  simp only [slice, drop_eq_cons ha]
  rw [hk, show position + 1 + k - position = k + 1 by omega, show position + 1 + k - (position + 1) = k by omega,
    List.take_succ_cons]

end Config

/-! ### Rounds -/

/-- One round of the loop over the line. -/
structure Round where
  /-- Where it begins. -/
  start : ℕ
  /-- Where it ends. -/
  stop : ℕ
  /-- The token that has been pushed. -/
  token : Option generic_token

namespace Round

/-- The round yields the text of its span. -/
def IsText (c : Config) (r : Round) : Prop :=
  ∃ t, r.token = some t ∧ t.kind = .text_token ∧ t.conversion = c.slice r.start r.stop

/-- The round begins with the prefix, and yields a token that is not text, or reports an error. -/
def IsMacro (c : Config) (r : Round) (new : List ErrorReport) : Prop :=
  c.pfx <+: c.input.drop r.start ∧ Config.Recognized r.token new

/-- What the round adds to the string, if tokens that are not text are evaluated by `f`. -/
def text (c : Config) (f : generic_token → List Char) (r : Round) : List Char :=
  match r.token with
  | none => []
  | some t => if t.kind = .text_token then c.slice r.start r.stop else f t

end Round

/-- The spans of the rounds follow one another from `i` to `j`. -/
def Covers : ℕ → List Round → ℕ → Prop
  | i, [], j => i = j
  | i, r :: rs, j => r.start = i ∧ i < r.stop ∧ Covers r.stop rs j

/-- Evaluate the tokens that are not text. -/
def State.evaluate (f : generic_token → List Char) (s : State) : State :=
  { s with tokens := s.tokens.map fun t => if t.kind = .text_token then t else { t with conversion := f t } }

/-- Nothing is lost: the line is partitioned into spans, one for each round. A round yields text verbatim, or begins
with the prefix. For each round without a token an error has been reported. -/
structure Lossless (c : Config) (s : State) (rs : List Round) : Prop where
  covers : Covers 0 rs c.input.length
  tokens : s.tokens = rs.filterMap Round.token
  faithful : ∀ r ∈ rs, r.IsText c ∨ c.pfx <+: c.input.drop r.start ∧ ∀ t, r.token = some t → t.kind ≠ .text_token
  reported : (rs.filter (·.token.isNone)).length ≤ s.errors.length
  evaluated : ∀ f, (s.evaluate f).to_string = rs.flatMap (Round.text c f)
  verbatim : (∀ t ∈ s.tokens, t.kind = .text_token) → s.errors = [] → s.to_string = c.input

namespace Config

variable {c : Config}

theorem spec_round {position : ℕ} (h : position < c.input.length) :
    Spec True (c.round position) fun r new => c.Within (position + 1) r ∧
      (Round.IsText c ⟨position, r.2, r.1⟩ ∨ Round.IsMacro c ⟨position, r.2, r.1⟩ new) := by
  rw [round]
  refine (spec_read h.le).bind fun a new ⟨hnew, ha⟩ => ?_
  subst hnew
  split
  · refine (spec_match_string_literal _ h).bind fun r _ ⟨hwithin, hkind, htext⟩ => ?_
    exact .pure ⟨hwithin, .inl ⟨r.1, rfl, hkind, htext⟩⟩
  · rename_i hpfx
    rw [not_or, not_not, not_not] at hpfx
    have hle := hpfx.2.length_le
    rw [List.length_drop] at hle
    refine (matches_match_macro_or_index (by omega)).imp fun r more ⟨⟨hr, hr'⟩, hlt, hrec⟩ => ?_
    refine ⟨⟨?_, hr'⟩, .inr ⟨hpfx.2, by simpa using hrec⟩⟩
    -- an empty prefix does not move the position on, but the token does
    obtain hend | hend := Nat.lt_or_ge (position + c.pfx.length) c.input.length
    · have := hlt hend
      omega
    · omega

/-- **The loop over the line** ends, and its rounds cover the line. -/
theorem wp_rounds {n position : ℕ} (s : State) (h : position ≤ c.input.length) (hn : c.input.length < position + n) :
    wp (c.rounds n position)
      (fun _ s' => ∃ rs new, Covers position rs c.input.length ∧ s'.tokens = s.tokens ++ rs.filterMap Round.token ∧
        s'.errors = s.errors ++ new ∧ (rs.filter (·.token.isNone)).length ≤ new.length ∧
        ∀ r ∈ rs, r.IsText c ∨ c.pfx <+: c.input.drop r.start ∧ ∀ t, r.token = some t → t.kind ≠ .text_token)
      (fun e _ => ∃ f, e = .fault f) s := by
  induction n generalizing position s with
  | zero => omega
  | succ n ih =>
    rw [rounds]
    split
    · rename_i hlt
      rw [wp_bind]
      refine wp_imp (spec_round hlt s) ?_ fun e _ ⟨_, _, _, hfault⟩ => hfault
      rintro ⟨tok, next⟩ s₁ ⟨htokens, new, herrors, ⟨hnext, hnext'⟩, hround⟩
      rw [wp_bind, push, wp_modify]
      refine wp_imp (ih { s₁ with tokens := s₁.tokens ++ tok.toList } hnext' (by simp only at hnext; omega)) ?_
        fun _ _ => id
      rintro - s' ⟨rs, more, hcovers, htokens', herrors', hcount, hfaithful⟩
      refine ⟨⟨position, next, tok⟩ :: rs, new ++ more, ⟨rfl, hnext, hcovers⟩, ?_, ?_, ?_, ?_⟩
      · rw [htokens', htokens]
        cases tok <;> simp
      · rw [herrors', herrors, List.append_assoc]
      · cases tok with
        | some t => simpa using hcount.trans (Nat.le_add_left _ _)
        | none =>
          obtain ⟨t, ht, -⟩ | ⟨-, -, hnone⟩ := hround
          · cases ht
          · have hpos := List.length_pos_iff.mpr (hnone rfl)
            simp only [List.filter_cons, Option.isNone_none, if_true, List.length_cons, List.length_append]
            omega
      · rintro r hr
        obtain rfl | hr := List.mem_cons.mp hr
        · exact hround.imp_right fun ⟨hpfx, hkind, _⟩ => ⟨hpfx, hkind⟩
        · exact hfaithful r hr
    · exact ⟨[], [], by rw [Covers]; omega, by simp, by simp, by simp, by simp⟩

end Config

/-- Spans that follow one another put together the line. -/
theorem flatMap_slice {c : Config} {i : ℕ} {rs : List Round} (h : Covers i rs c.input.length) :
    rs.flatMap (fun r => c.slice r.start r.stop) = c.input.drop i := by
  induction rs generalizing i with
  | nil =>
    rw [Covers] at h
    simp [h]
  | cons r rs ih =>
    obtain ⟨rfl, hlt, hrest⟩ := h
    rw [List.flatMap_cons, ih hrest, Config.slice]
    conv_rhs => rw [← List.take_append_drop (r.stop - r.start) (c.input.drop r.start)]
    rw [List.drop_drop, Nat.add_sub_cancel' hlt.le]

section

variable {c : Config} {s : State} {rs : List Round}

/-- The string is put together round by round. -/
theorem to_string_evaluate (htokens : s.tokens = rs.filterMap Round.token)
    (hfaithful : ∀ r ∈ rs, r.IsText c ∨ c.pfx <+: c.input.drop r.start ∧ ∀ t, r.token = some t → t.kind ≠ .text_token)
    (f : generic_token → List Char) : (s.evaluate f).to_string = rs.flatMap (Round.text c f) := by
  rw [State.to_string, State.evaluate, htokens]
  clear htokens
  induction rs with
  | nil => rfl
  | cons r rs ih =>
    specialize ih fun r hr => hfaithful r (List.mem_cons_of_mem _ hr)
    rw [List.flatMap_cons, ← ih, List.filterMap_cons, Round.text]
    obtain ⟨t, ht, hkind, htext⟩ | ⟨-, hkind⟩ := hfaithful r List.mem_cons_self
    · simp [ht, hkind, htext]
    · cases ht : r.token with
      | none => simp
      | some t => simp [hkind t ht]

/-- Without macros and errors, the string is the line. -/
theorem to_string_eq_input (hcovers : Covers 0 rs c.input.length) (htokens : s.tokens = rs.filterMap Round.token)
    (hfaithful : ∀ r ∈ rs, r.IsText c ∨ c.pfx <+: c.input.drop r.start ∧ ∀ t, r.token = some t → t.kind ≠ .text_token)
    (hcount : (rs.filter (·.token.isNone)).length ≤ s.errors.length) (htext : ∀ t ∈ s.tokens, t.kind = .text_token)
    (herrors : s.errors = []) : s.to_string = c.input := by
  have hsame : (s.evaluate fun _ => []).tokens = s.tokens := by
    refine (List.map_congr_left fun t ht => ?_).trans (List.map_id _)
    simp [htext t ht]
  have hsome : ∀ r ∈ rs, ∃ t, r.token = some t := by
    rw [herrors, List.length_nil, Nat.le_zero, List.length_eq_zero_iff, List.filter_eq_nil_iff] at hcount
    exact fun r hr => Option.ne_none_iff_exists'.mp (by simpa using hcount r hr)
  have hslices : rs.flatMap (Round.text c fun _ => []) = rs.flatMap fun r => c.slice r.start r.stop := by
    refine List.flatMap_congr fun r hr => ?_
    obtain ⟨t, ht⟩ := hsome r hr
    have hkind : t.kind = .text_token := htext t (htokens ▸ List.mem_filterMap.mpr ⟨r, hr, ht⟩)
    simp [Round.text, ht, hkind]
  calc s.to_string = (s.evaluate fun _ => []).to_string := by rw [State.to_string, State.to_string, hsame]
    _ = rs.flatMap fun r => c.slice r.start r.stop := (to_string_evaluate htokens hfaithful _).trans hslices
    _ = c.input := by rw [flatMap_slice hcovers, List.drop_zero]

end

/-- **Nothing is lost**: the constructor of a token list ends without reading beyond the end of the line. If it
returns, its rounds cover the line, and what is not a macro is in the string, verbatim and in order. -/
theorem lossless (c : Config) (local_rules : List index_rule) :
    match c.token_list { local_rules := local_rules } with
    | .ok _ s => ∃ rs, Lossless c s rs
    | .error e _ => ∃ f, e = .fault f := by
  have hend : wp c.token_list (fun _ s => ∃ rs, Lossless c s rs) (fun e _ => ∃ f, e = .fault f)
      { local_rules := local_rules } := by
    rw [Config.token_list, wp_bind]
    refine wp_imp (Config.wp_rounds _ (Nat.zero_le _) (by omega)) ?_ fun _ _ => id
    rintro - s ⟨rs, new, hcovers, htokens, herrors, hcount, hfaithful⟩
    have hcount' : (rs.filter (·.token.isNone)).length ≤ s.errors.length := by
      simpa [herrors] using hcount
    have hlossless : ∀ more, Lossless c { s with errors := s.errors ++ more } rs := by
      intro more
      have hreported : (rs.filter (·.token.isNone)).length ≤ (s.errors ++ more).length := by
        rw [List.length_append]
        omega
      exact {
        covers := hcovers
        tokens := htokens
        faithful := hfaithful
        reported := hreported
        evaluated := to_string_evaluate htokens hfaithful
        verbatim := to_string_eq_input hcovers htokens hfaithful hreported }
    rw [wp_bind, wp_get]
    split
    · exact ⟨rs, hlossless _⟩
    · exact ⟨rs, by simpa using hlossless []⟩
  cases hrun : c.token_list { local_rules := local_rules } with
  | ok _ s =>
    have hok := wp_ok hend hrun
    exact hok
  | error e s =>
    have herror := wp_error hend hrun
    exact herror

/-- A line that ends with a prefix. -/
def cut_short : Config where
  input := ['a', '$']
  pfx := ['$']

/-- All its tokens are text, but the prefix is in none of them. -/
theorem cut_short_not_kept : ¬ ∀ (c : Config) (local_rules : List index_rule) (s : State),
    c.token_list { local_rules := local_rules } = .ok () s → (∀ t ∈ s.tokens, t.kind = .text_token) →
      s.to_string = c.input := by
  intro h
  have hrun : cut_short.token_list { local_rules := [] } = .ok () {
      local_rules := []
      tokens := [⟨.text_token, ['a'], (0, 1)⟩]
      errors := [⟨ERROR_INDEX_LITERAL_NO_KERNEL, (1, 2)⟩] } := rfl
  exact absurd (h cut_short [] _ hrun (by decide)) (by decide)

end CppTransport.Translator.Tokenizer
