import CppTransport.Library.Exceptions
import CppTransport.Translator.TokenList

/-!
# Replacement rules with indices

The macros of a template that take indices are replaced by rules. A rule declares how many indices it
expects, and of which classes. It is asked for its unroll status while a line is tokenized, and when the
line is evaluated it is called up to three times: to prepare (`pre_hook`), and to give its text for values
of the indices (`unroll`) or for loop variables (`roll`).

## The model

There are the rules for tensors, and rules that a `$SET` has defined. A rule that subscripts its list of
indices reads it through `get_variance`, which is `Thrown.undefined` behind the end of the list. What a
method does besides is a parameter: it returns a text, or throws. Calls are recorded with what is handed
over. Evaluation runs in `EStateM`, as tokenizing does; values are given for all indices.

The messages of `tensor_exception` are left out. It is not a `std::runtime_error` for those who catch it,
and nothing catches it.
-/

namespace CppTransport.Translator.ReplacementRules

open Library Tokenizer

def ERROR_MACRO_WRONG_ARGUMENT_COUNT : String := "Incorrect number of arguments for rule"
def ERROR_EXPECTED_ARGUMENT_COUNT : String := "expected"
def ERROR_RECEIVED_ARGUMENT_COUNT : String := "received"
def ERROR_MACRO_WRONG_INDEX_COUNT : String := "Incorrect number of indices for replacement rule"
def ERROR_EXPECTED_INDEX_COUNT : String := "expected"
def ERROR_RECEIVED_INDEX_COUNT : String := "received"
def ERROR_WRONG_INDEX_CLASS : String := "Index type mismatch for"
def ERROR_WRONG_INDEX_LABEL : String := "index"
def ERROR_WRONG_INDEX_EXPECTED : String := "expected type"
def ERROR_METRIC_RULE_MIXED_INDICES : String := "$METRIC should not be used with mixed indices"
def ERROR_CONNEXION_INDICES : String :=
  "$CONNECTION has incorrect index placement (should be first=up, second,third=down)"
def ERROR_FIELD_INDICES_ARE_CONTRAVARIANT : String := "Field indices must be contravariant"
def ERROR_COORD_INDICES_ARE_CONTRAVARIANT : String := "Coordinate indices must be contravariant"
def ERROR_DN_DOES_NOT_ROLL : String := "Internal error: attempt to roll-up a delta-N rule"
def ERROR_NO_PRE_MAP : String :=
  "Internal error: Data to perform replacement rule expansion was not correctly pre-mapped"
def ERROR_RESOURCE_FAILURE : String := "Could not evaluate roll-up due to missing resource"

def MAX_TOKEN_ERRORS : ℕ := 4

def class_label : index_class → String
  | .parameter => "parameter"
  | .field_only => "field"
  | .full => "full phase-space"

/-! ### Exceptions -/

/-- The exceptions of rules and tensors. -/
inductive exception where
  | rule_apply_fail (what : String)
  | argument_mismatch (what : String)
  | index_mismatch (what : String) (span : ℕ × ℕ)
  | resource_failure (what : String)
  | tensor_exception
deriving DecidableEq, Repr

/-- What a rule may do other than return. -/
inductive Thrown where
  | exception (e : exception)
  /-- The list of indices is subscripted behind its end. -/
  | undefined
deriving DecidableEq, Repr

/-- What the tokenizer sees of it. -/
def Thrown.fault : Thrown → Fault
  | .exception (.rule_apply_fail what) | .exception (.argument_mismatch what) | .exception (.index_mismatch what _)
  | .exception (.resource_failure what) => .runtime_error what
  | .exception .tensor_exception => .other "tensor_exception"
  | .undefined => .undefined

/-- Throw an exception. -/
def fail {α : Type} (e : exception) : Except Thrown α := .error (.exception e)

/-- `list[i]->get_variance()` -/
def get_variance (list : List index_literal) (i : ℕ) : Except Thrown variance :=
  match list[i]? with
  | some l => .ok l.type
  | none => .error .undefined

/-- Subscript the first indices. -/
def subscript (list : List index_literal) : ℕ → Except Thrown Unit
  | 0 => .ok ()
  | n + 1 => do
    subscript list n
    let _ ← get_variance list n

/-- Is one of these indices of this variance? Those behind it are not looked at. -/
def any_index (v : variance) (list : List index_literal) : List ℕ → Except Thrown Bool
  | [] => return false
  | i :: more => do
    if (← get_variance list i) = v then return true else any_index v list more

/-! ### Unroll status -/

/-- What the resources allow to roll up. In a canonical model they are asked without variances. -/
structure resources where
  canonical : Bool
  can_roll_parameters : Bool
  can_roll_coordinates : Bool
  can_roll_dV : List variance → Bool
  can_roll_ddV : List variance → Bool
  can_roll_dddV : List variance → Bool
  can_roll_metric : Bool
  can_roll_metric_inverse : Bool
  can_roll_connexion : Bool
  can_roll_Riemann_A2 : List variance → Bool
  can_roll_Riemann_A3 : List variance → Bool
  can_roll_Riemann_B3 : List variance → Bool

/-- Roll up if that is possible. -/
def allow_if (b : Bool) : unroll_state := if b then .allow else .force

section GetUnroll

variable (res : resources) (list : List index_literal)

def has_G (vars : List variance) : Bool := if .covariant ∈ vars then res.can_roll_metric else true

def has_Ginv (vars : List variance) : Bool := if .contravariant ∈ vars then res.can_roll_metric_inverse else true

/-- Can the derivatives of the potential be rolled up? -/
def can_roll_potential (i j k : variance) : Bool :=
  res.can_roll_coordinates && has_G res [i, j, k] && has_Ginv res [i, j, k] &&
    res.can_roll_dV [i] && res.can_roll_dV [j] && res.can_roll_dV [k] &&
    res.can_roll_ddV [i, j] && res.can_roll_ddV [i, k] && res.can_roll_ddV [j, k] &&
    res.can_roll_dddV [i, j, k] && res.can_roll_dddV [i, k, j] && res.can_roll_dddV [j, i, k] &&
    res.can_roll_dddV [j, k, i] && res.can_roll_dddV [k, i, j] && res.can_roll_dddV [k, j, i]

namespace nontrivial_metric

def dV.get_unroll : Except Thrown unroll_state := do
  let i ← get_variance list 0
  return allow_if (res.can_roll_dV [i])

def ddV.get_unroll : Except Thrown unroll_state := do
  let i ← get_variance list 0
  let j ← get_variance list 1
  return allow_if (res.can_roll_ddV [i, j])

def dddV.get_unroll : Except Thrown unroll_state := do
  let i ← get_variance list 0
  let j ← get_variance list 1
  let k ← get_variance list 2
  return allow_if (res.can_roll_dddV [i, j, k])

def SR_velocity.get_unroll : Except Thrown unroll_state := do
  let i ← get_variance list 0
  return allow_if (res.can_roll_dV [i])

def A.get_unroll : Except Thrown unroll_state := do
  let i ← get_variance list 0
  let j ← get_variance list 1
  let k ← get_variance list 2
  return allow_if (can_roll_potential res i j k &&
    res.can_roll_Riemann_A2 [i, j] && res.can_roll_Riemann_A2 [j, k] && res.can_roll_Riemann_A2 [i, k] &&
    res.can_roll_Riemann_A3 [i, j, k])

def Atilde.get_unroll : Except Thrown unroll_state := do
  let i ← get_variance list 0
  let j ← get_variance list 1
  let k ← get_variance list 2
  return allow_if (can_roll_potential res i j k &&
    res.can_roll_Riemann_A2 [i, j] && res.can_roll_Riemann_A2 [j, k] && res.can_roll_Riemann_A2 [i, k] &&
    res.can_roll_Riemann_A3 [i, j, k])

def B.get_unroll : Except Thrown unroll_state := do
  let i ← get_variance list 0
  let j ← get_variance list 1
  let k ← get_variance list 2
  return allow_if (res.can_roll_coordinates && has_G res [i, j, k] && has_Ginv res [i, j, k] &&
    res.can_roll_dV [i] && res.can_roll_dV [j] && res.can_roll_dV [k] && res.can_roll_Riemann_B3 [i, j, k])

def C.get_unroll : Except Thrown unroll_state := do
  let has_G := if ← any_index .covariant list [0, 1, 2] then res.can_roll_metric else true
  return allow_if (res.can_roll_coordinates && has_G)

def M.get_unroll : Except Thrown unroll_state := do
  let i ← get_variance list 0
  let j ← get_variance list 1
  return allow_if (res.can_roll_coordinates && res.can_roll_dV [i] && res.can_roll_dV [j] &&
    res.can_roll_ddV [i, j] && res.can_roll_Riemann_A2 [i, j])

def u1.get_unroll : Except Thrown unroll_state := do
  let i ← get_variance list 0
  return allow_if (res.can_roll_coordinates && has_G res [i] && has_Ginv res [i] && res.can_roll_dV [i])

def u2.get_unroll : Except Thrown unroll_state := do
  let i ← get_variance list 0
  let j ← get_variance list 1
  return allow_if (res.can_roll_coordinates && has_G res [i, j] && has_Ginv res [i, j] &&
    res.can_roll_dV [i] && res.can_roll_dV [j] && res.can_roll_ddV [i, j] && res.can_roll_Riemann_A2 [i, j])

def u3.get_unroll : Except Thrown unroll_state := do
  let i ← get_variance list 0
  let j ← get_variance list 1
  let k ← get_variance list 2
  return allow_if (can_roll_potential res i j k)

def zeta1.get_unroll : Except Thrown unroll_state := do
  let i ← get_variance list 0
  return allow_if (res.can_roll_coordinates && has_G res [i])

def zeta2.get_unroll : Except Thrown unroll_state := do
  let i ← get_variance list 0
  let j ← get_variance list 1
  return allow_if (res.can_roll_coordinates && has_G res [i, j] && res.can_roll_dV [i] && res.can_roll_dV [j])

def Riemann_A2.get_unroll : Except Thrown unroll_state := do
  let i ← get_variance list 0
  let j ← get_variance list 1
  return allow_if (res.can_roll_Riemann_A2 [i, j])

def Riemann_A3.get_unroll : Except Thrown unroll_state := do
  let i ← get_variance list 0
  let j ← get_variance list 1
  let k ← get_variance list 2
  return allow_if (res.can_roll_Riemann_A3 [i, j, k])

def Riemann_B3.get_unroll : Except Thrown unroll_state := do
  let i ← get_variance list 0
  let j ← get_variance list 1
  let k ← get_variance list 2
  return allow_if (res.can_roll_Riemann_B3 [i, j, k])

end nontrivial_metric

/-- The indices of `$METRIC` are both covariant or both contravariant. -/
def check_metric : Except Thrown Unit := do
  let i ← get_variance list 0
  let j ← get_variance list 1
  if i ≠ j then fail (.rule_apply_fail ERROR_METRIC_RULE_MIXED_INDICES) else return ()

/-- An index of `$CONNECTION` is to be placed in a certain way. -/
def check_placement (i : ℕ) (v : variance) : Except Thrown Unit := do
  let w ← get_variance list i
  if w ≠ v then fail (.rule_apply_fail ERROR_CONNEXION_INDICES) else return ()

def check_connexion : Except Thrown Unit := do
  check_placement list 0 .contravariant
  check_placement list 1 .covariant
  check_placement list 2 .covariant

def replace_metric.get_unroll : Except Thrown unroll_state := do
  check_metric list
  if (← get_variance list 0) = .covariant then return allow_if res.can_roll_metric
  else return allow_if res.can_roll_metric_inverse

def replace_connexion.get_unroll : Except Thrown unroll_state := do
  check_connexion list
  return allow_if res.can_roll_connexion

end GetUnroll

/-! ### The rules -/

/-- The rules for tensors. -/
inductive tensor_rule where
  | replace_parameter | replace_field | replace_momenta | replace_coordinate | replace_SR_velocity
  | replace_dV | replace_ddV | replace_dddV
  | replace_A | replace_Atilde | replace_B | replace_C | replace_M
  | replace_metric | replace_connexion | replace_Riemann_A2 | replace_Riemann_A3 | replace_Riemann_B3
  | replace_U1 | replace_U2 | replace_U3
  | replace_zeta1 | replace_zeta2 | replace_dN1 | replace_dN2
deriving DecidableEq, Repr

namespace tensor_rule

def get_name : tensor_rule → String
  | replace_parameter => "PARAMETER"
  | replace_field => "FIELD"
  | replace_momenta => "MOMENTA"
  | replace_coordinate => "COORDINATE"
  | replace_SR_velocity => "SR_VELOCITY"
  | replace_dV => "DV"
  | replace_ddV => "DDV"
  | replace_dddV => "DDDV"
  | replace_A => "A_TENSOR"
  | replace_Atilde => "ATILDE_TENSOR"
  | replace_B => "B_TENSOR"
  | replace_C => "C_TENSOR"
  | replace_M => "M_TENSOR"
  | replace_metric => "METRIC"
  | replace_connexion => "CONNECTION"
  | replace_Riemann_A2 => "RIEMANN_A2"
  | replace_Riemann_A3 => "RIEMANN_A3"
  | replace_Riemann_B3 => "RIEMANN_B3"
  | replace_U1 => "U1_TENSOR"
  | replace_U2 => "U2_TENSOR"
  | replace_U3 => "U3_TENSOR"
  | replace_zeta1 => "ZETA_XFM_1"
  | replace_zeta2 => "ZETA_XFM_2"
  | replace_dN1 => "DELTAN_XFM_1"
  | replace_dN2 => "DELTAN_XFM_2"

def num_args : tensor_rule → ℕ
  | replace_A | replace_Atilde | replace_B | replace_C | replace_U3 | replace_zeta2 => 4
  | replace_U2 => 2
  | _ => 0

/-- The classes of the indices, from the base classes `cse_map_field1` to `cse_map_phase3`. -/
def idx_classes : tensor_rule → List index_class
  | replace_parameter => [.parameter]
  | replace_field | replace_momenta | replace_SR_velocity | replace_dV => [.field_only]
  | replace_ddV | replace_M | replace_metric | replace_Riemann_A2 => [.field_only, .field_only]
  | replace_dddV | replace_A | replace_Atilde | replace_B | replace_C | replace_connexion | replace_Riemann_A3
  | replace_Riemann_B3 => [.field_only, .field_only, .field_only]
  | replace_coordinate | replace_U1 | replace_zeta1 | replace_dN1 => [.full]
  | replace_U2 | replace_zeta2 | replace_dN2 => [.full, .full]
  | replace_U3 => [.full, .full, .full]

/-- The number of indices, which the base classes give beside their classes. -/
def num_indices : tensor_rule → ℕ
  | replace_parameter | replace_field | replace_momenta | replace_coordinate | replace_SR_velocity | replace_dV
  | replace_U1 | replace_zeta1 | replace_dN1 => 1
  | replace_ddV | replace_M | replace_metric | replace_Riemann_A2 | replace_U2 | replace_zeta2 | replace_dN2 => 2
  | replace_dddV | replace_A | replace_Atilde | replace_B | replace_C | replace_connexion | replace_Riemann_A3
  | replace_Riemann_B3 | replace_U3 => 3

/-- The number of indices of the tensor, such as `A_TENSOR_INDICES`. -/
def tensor_indices : tensor_rule → ℕ
  | replace_parameter | replace_field | replace_momenta | replace_coordinate | replace_SR_velocity | replace_dV
  | replace_U1 | replace_zeta1 | replace_dN1 => 1
  | replace_ddV | replace_M | replace_metric | replace_Riemann_A2 | replace_U2 | replace_zeta2 | replace_dN2 => 2
  | replace_dddV | replace_A | replace_Atilde | replace_B | replace_C | replace_connexion | replace_Riemann_A3
  | replace_Riemann_B3 | replace_U3 => 3

/-- The unroll status in a canonical model. -/
def canonical_unroll (res : resources) : tensor_rule → unroll_state
  | replace_parameter => allow_if res.can_roll_parameters
  | replace_field | replace_momenta | replace_coordinate | replace_C | replace_zeta1 =>
    allow_if res.can_roll_coordinates
  | replace_dV | replace_SR_velocity => allow_if (res.can_roll_dV [])
  | replace_ddV => allow_if (res.can_roll_ddV [])
  | replace_dddV => allow_if (res.can_roll_dddV [])
  | replace_A | replace_Atilde | replace_U3 =>
    allow_if (res.can_roll_coordinates && res.can_roll_dV [] && res.can_roll_ddV [] && res.can_roll_dddV [])
  | replace_B | replace_U1 | replace_zeta2 => allow_if (res.can_roll_coordinates && res.can_roll_dV [])
  | replace_M | replace_U2 => allow_if (res.can_roll_coordinates && res.can_roll_dV [] && res.can_roll_ddV [])
  | _ => .force

/-- The unroll status in a model with a nontrivial metric. -/
def nontrivial_unroll (res : resources) (list : List index_literal) : tensor_rule → Except Thrown unroll_state
  | replace_parameter => return allow_if res.can_roll_parameters
  | replace_field | replace_momenta | replace_coordinate => return allow_if res.can_roll_coordinates
  | replace_SR_velocity => nontrivial_metric.SR_velocity.get_unroll res list
  | replace_dV => nontrivial_metric.dV.get_unroll res list
  | replace_ddV => nontrivial_metric.ddV.get_unroll res list
  | replace_dddV => nontrivial_metric.dddV.get_unroll res list
  | replace_A => nontrivial_metric.A.get_unroll res list
  | replace_Atilde => nontrivial_metric.Atilde.get_unroll res list
  | replace_B => nontrivial_metric.B.get_unroll res list
  | replace_C => nontrivial_metric.C.get_unroll res list
  | replace_M => nontrivial_metric.M.get_unroll res list
  | replace_metric => replace_metric.get_unroll res list
  | replace_connexion => replace_connexion.get_unroll res list
  | replace_Riemann_A2 => nontrivial_metric.Riemann_A2.get_unroll res list
  | replace_Riemann_A3 => nontrivial_metric.Riemann_A3.get_unroll res list
  | replace_Riemann_B3 => nontrivial_metric.Riemann_B3.get_unroll res list
  | replace_U1 => nontrivial_metric.u1.get_unroll res list
  | replace_U2 => nontrivial_metric.u2.get_unroll res list
  | replace_U3 => nontrivial_metric.u3.get_unroll res list
  | replace_zeta1 => nontrivial_metric.zeta1.get_unroll res list
  | replace_zeta2 => nontrivial_metric.zeta2.get_unroll res list
  | replace_dN1 | replace_dN2 => return .force

def get_unroll (res : resources) (t : tensor_rule) (list : List index_literal) : Except Thrown unroll_state :=
  if res.canonical then return t.canonical_unroll res else t.nontrivial_unroll res list

/-- A tensor checks the number of its indices before it is computed. -/
def compute (t : tensor_rule) (list : List index_literal) : Except Thrown Unit :=
  if list.length ≠ t.tensor_indices then fail .tensor_exception else subscript list t.tensor_indices

/-- Some indices are to be contravariant. -/
def check_contravariant (what : String) (list : List index_literal) : Except Thrown Unit := do
  let i ← get_variance list 0
  if i = .covariant then fail (.rule_apply_fail what) else return ()

/-- What a rule checks before it computes or rolls up its tensor. -/
def check (list : List index_literal) : tensor_rule → Except Thrown Unit
  | replace_metric => check_metric list
  | replace_connexion => check_connexion list
  | replace_field => check_contravariant ERROR_FIELD_INDICES_ARE_CONTRAVARIANT list
  | replace_coordinate => check_contravariant ERROR_COORD_INDICES_ARE_CONTRAVARIANT list
  | _ => .ok ()

def pre_hook (t : tensor_rule) (list : List index_literal) : Except Thrown Unit := do
  t.check list
  t.compute list

def unroll (map : Bool) (t : tensor_rule) (list : List index_literal) : Except Thrown Unit :=
  if map then subscript list t.num_indices else fail (.rule_apply_fail ERROR_NO_PRE_MAP)

def roll (t : tensor_rule) (list : List index_literal) : Except Thrown Unit :=
  match t with
  | replace_dN1 | replace_dN2 => fail (.rule_apply_fail ERROR_DN_DOES_NOT_ROLL)
  | t => do
    t.check list
    subscript list t.num_indices

end tensor_rule

/-- The replacement rules with indices. -/
inductive replacement_rule_index where
  | tensor (t : tensor_rule)
  /-- A rule that a `$SET` has defined. The status is that of its definition. -/
  | user_macro_rule (name : List Char) (num_indices : ℕ) (status : unroll_state)
deriving DecidableEq, Repr

/-- The methods of a rule that are called when a line is evaluated. -/
inductive Hook where
  | pre_hook
  | unroll
  | roll
deriving DecidableEq, Repr

/-- A call of a rule. -/
structure Call where
  hook : Hook
  rule : replacement_rule_index
  args : List macro_argument
  indices : List index_literal
  /-- The values of the indices. -/
  values : List ℕ := []
deriving DecidableEq, Repr

namespace replacement_rule_index

def get_name : replacement_rule_index → List Char
  | tensor t => t.get_name.toList
  | user_macro_rule name _ _ => name

def num_args : replacement_rule_index → ℕ
  | tensor t => t.num_args
  | user_macro_rule _ _ _ => 0

def num_indices : replacement_rule_index → ℕ
  | tensor t => t.num_indices
  | user_macro_rule _ n _ => n

def idx_classes : replacement_rule_index → Option (List index_class)
  | tensor t => some t.idx_classes
  | user_macro_rule _ _ _ => none

def get_unroll (res : resources) (list : List index_literal) : replacement_rule_index → Except Thrown unroll_state
  | tensor t => t.get_unroll res list
  | user_macro_rule _ _ status => return status

/-- The rule as the tokenizer knows it. -/
def token_rule (res : resources) (r : replacement_rule_index) : index_rule where
  name := r.get_name
  num_args := r.num_args
  get_unroll := fun list => (r.get_unroll res list).mapError Thrown.fault

/-- What a method does with the list of indices. The methods of a user macro go through it with iterators. -/
def method (map : Bool) (list : List index_literal) : Hook → replacement_rule_index → Except Thrown Unit
  | .pre_hook, tensor t => t.pre_hook list
  | .unroll, tensor t => t.unroll map list
  | .roll, tensor t => t.roll list
  | _, user_macro_rule _ _ _ => .ok ()

/-- Which classes of indices are compatible? -/
def compatible : index_class → index_class → Bool
  | .full, cl => cl = .full || cl = .field_only
  | .field_only, cl => cl = .field_only
  | .parameter, cl => cl = .parameter

def wrong_count (what name expected received : String) (n m : ℕ) : String :=
  what ++ " '" ++ name ++ "'; " ++ expected ++ " " ++ toString n ++ ", " ++ received ++ " " ++ toString m

section Validate

variable (r : replacement_rule_index)

def validate_args (args : List macro_argument) : Except Thrown Unit :=
  if args.length = r.num_args then .ok ()
  else fail (.argument_mismatch (wrong_count ERROR_MACRO_WRONG_ARGUMENT_COUNT (.ofList r.get_name)
    ERROR_EXPECTED_ARGUMENT_COUNT ERROR_RECEIVED_ARGUMENT_COUNT r.num_args args.length))

/-- Check that the classes of indices are compatible, one after the other. -/
def validate_classes : List index_class → List index_literal → Except Thrown Unit
  | expected :: classes, l :: list =>
    if compatible expected (identify_index l.label) then validate_classes classes list
    else fail (.index_mismatch (ERROR_WRONG_INDEX_CLASS ++ " '" ++ .ofList r.get_name ++ "' " ++
      ERROR_WRONG_INDEX_LABEL ++ " '" ++ l.label.toString ++ "'; " ++ ERROR_WRONG_INDEX_EXPECTED ++ " '" ++
      class_label expected ++ "'") l.span)
  | _, _ => .ok ()

def validate_indices (list : List index_literal) : Except Thrown Unit :=
  if list.length ≠ r.num_indices ∨ (∃ classes ∈ r.idx_classes, list.length ≠ classes.length) then
    fail (.rule_apply_fail (wrong_count ERROR_MACRO_WRONG_INDEX_COUNT (.ofList r.get_name)
      ERROR_EXPECTED_INDEX_COUNT ERROR_RECEIVED_INDEX_COUNT r.num_indices list.length))
  else r.validate_classes (r.idx_classes.getD []) list

end Validate

end replacement_rule_index

/-- What a call comes to, besides what is done with the list of indices. -/
abbrev Bodies := Call → Except exception (List Char)

/-! ### Tokens -/

/-- An `index_macro_token`, with what has been done for it. -/
structure token_state where
  /-- The errors that have been reported for the line. -/
  errors : List ErrorReport
  /-- The calls of the rule. -/
  calls : List Call := []
  conversion : List Char := []
  num_errors : ℕ := 0
  silent : Bool := false
  initialized : Bool := false
  argument_error : Bool := false
  index_error : Bool := false
  /-- Has the rule prepared a tensor? -/
  map : Bool := false

/-- Computations on a token. -/
abbrev Eval := EStateM Thrown token_state

/-- What a rule does, as a computation on the token. -/
def lift {α : Type} : Except Thrown α → Eval α
  | .ok a => pure a
  | .error e => throw e

/-- Catch exceptions. -/
def catching {α : Type} (handler : exception → Option (Eval α)) (m : Eval α) : Eval α :=
  tryCatchSome (fun | .exception e => handler e | .undefined => none) m

namespace index_macro_token

variable (bodies : Bodies) (r : replacement_rule_index) (args : List macro_argument) (list : List index_literal)
  (span : ℕ × ℕ)

/-- `error_context::error` -/
def report (msg : String) (span : ℕ × ℕ) : Eval Unit :=
  modify fun s => { s with errors := s.errors ++ [⟨msg, span⟩] }

/-- Report an error, unless there have been too many. -/
def error (msg : String) : Eval Unit := do
  if !(← get).silent then report msg span
  modify fun s => { s with num_errors := s.num_errors + 1 }
  modify fun s => { s with silent := s.silent || s.num_errors ≥ MAX_TOKEN_ERRORS }

/-- Call a method of the rule. -/
def call (hook : Hook) (values : List ℕ) : Eval (List Char) := do
  let c : Call := ⟨hook, r, args, list, values⟩
  modify fun s => { s with calls := s.calls ++ [c] }
  lift (r.method (← get).map list hook)
  lift ((bodies c).mapError Thrown.exception)

/-- `replacement_rule_index::pre` -/
def pre : Eval Unit := do
  lift (r.validate_args args)
  let _ ← call bodies r args list .pre_hook []
  modify fun s => { s with map := true }

/-- `replacement_rule_index::evaluate_unroll` -/
def rule_unroll (values : List ℕ) : Eval (List Char) := do
  lift (r.validate_args args)
  lift (r.validate_indices list)
  call bodies r args list .unroll values

/-- `replacement_rule_index::evaluate_roll` -/
def rule_roll : Eval (List Char) := do
  lift (r.validate_args args)
  lift (r.validate_indices list)
  call bodies r args list .roll []

/-- Exceptions of a rule that are reported once. -/
def once : exception → Option (Eval Unit)
  | .argument_mismatch what => some do
    if !(← get).argument_error then
      error span what
      modify fun s => { s with argument_error := true }
  | .index_mismatch what idx_span => some do
    if !(← get).index_error then
      report what idx_span
      modify fun s => { s with index_error := true }
  | .rule_apply_fail what => some (error span what)
  | _ => none

def invoke_pre_handler : Eval Unit := do
  if !(← get).initialized then
    catching (once span) (pre bodies r args list)
    modify fun s => { s with initialized := true }

/-- Convert the token to a text. -/
def convert (m : Eval (List Char)) : Eval Unit := do
  let text ← m
  modify fun s => { s with conversion := text }

/-- Evaluate the token for values of indices. -/
def evaluate_unroll (a : Char → ℕ) : Eval Unit := do
  invoke_pre_handler bodies r args list span
  catching (once span) (convert (rule_unroll bodies r args list (list.map fun l => a l.label)))

/-- Exceptions of a rule that are reported when it is rolled up. -/
def rolled : exception → Option (Eval Unit)
  | .rule_apply_fail what => some (error span what)
  | .resource_failure what => some (error span (ERROR_RESOURCE_FAILURE ++ " '" ++ what ++ "'"))
  | _ => none

/-- Evaluate the token in a loop. -/
def evaluate_roll : Eval Unit := catching (rolled span) (convert (rule_roll bodies r args list))

end index_macro_token

end CppTransport.Translator.ReplacementRules
