import CppTransport.Library.Exceptions
import CppTransport.Library.Json
import Mathlib.Data.List.Nodup
import Mathlib.Data.List.Sort
import Mathlib.Data.List.Zip
import Mathlib.Algebra.Order.Ring.Int

/-!
# Packages

A package of initial conditions (`concepts/initial_conditions.h`) holds values for the fields of a model and their
derivatives, and with them values for its parameters (`concepts/parameters.h`). In the repository both are stored by
name, with the identity of the model and its revision number. To read a package, the model manager
(`manager/model_manager.h`) looks for a model with that identity and no smaller revision number, and the values are
sorted into the order of that model's names (`utilities/named_list.h`).

## The model

Of a model there are the names, the numbers and the formula for missing derivatives; what the translator ensures of
names and their number is part of its type. An entry of the manager repeats what its model says of itself, so the
manager is the list of its models. How a number is stored is a parameter, with the law that it is read back. A sort of
two elements at least compares each of them, so that one whose name is unknown throws; elements with one name twice are
put in some order. Offset initial conditions, which are integrated, are left out.

## What is proved

* `registry`: whatever has been registered, a search finds the oldest revision that is new enough, it is successful
  for every model that could be registered, and later registrations do not change what it finds;
* `package_round_trip`: in every manager that holds its model a package is read back as it was;
* `newer_revision`: with a newer revision it is read just if the names are the same in whatever order, and every name
  keeps its value; a name that is the only one is not looked at.
-/

namespace CppTransport.Runtime.Packages

open Library Library.Json Library.Json.Value

/-! ### Lists with names -/

namespace named_list

variable {K : Type}

/-- What an order says of a name: `std::map::insert` keeps the first entry for a key. -/
def make_ordering (order : List String) (name : String) : Option ℕ := order.idxOf? name

structure element (K : Type) where
  name : String
  value : K
deriving DecidableEq, Repr

def CPPTRANSPORT_NAMED_LIST_FAIL : String := "Internal error: Lookup failed in named_list"

def comparator (order_map : String → Option ℕ) (a b : element K) : Except String Bool :=
  match order_map a.name, order_map b.name with
  | some i, some j => .ok (i < j)
  | _, _ => .error CPPTRANSPORT_NAMED_LIST_FAIL

/-- `std::sort` with a comparator that may throw. One element is not compared with any. -/
def sort (order_map : String → Option ℕ) (temp : List (element K)) : Except String (List (element K)) :=
  if temp.length ≤ 1 then .ok temp
  else do
    -- each element is compared, with another one or with itself
    temp.forM fun t => do
      let _ ← comparator order_map t t
    return temp.mergeSort fun a b => (order_map a.name).getD 0 ≤ (order_map b.name).getD 0

/-- The values of a list that was stored by name, in the order a model has for the names. -/
def values_in_order (badly_formed : String) (order : List String) (temp : List (element K)) :
    Except String (List K) := do
  if temp.length ≠ order.length then .error badly_formed
  let temp ← sort (make_ordering order) temp
  return temp.map (·.value)

end named_list

/-! ### Models -/

variable {K : Type}

/-- A model, as packages and the manager see it. -/
structure model (K : Type) where
  get_identity_string : String
  get_revision : UInt
  get_translator_version : UInt
  number_fields : ℕ
  get_param_names : List String
  /-- The fields, and then their derivatives. -/
  get_state_names : List String
  /-- Slow-roll values for the derivatives, from `M_Planck`, the parameters and the fields. -/
  sr_velocity : K → List K → List K → List K
  length_state_names : get_state_names.length = 2 * number_fields
  length_sr_velocity : ∀ Mp params fields, (sr_velocity Mp params fields).length = number_fields
  nodup_param_names : get_param_names.Nodup
  nodup_state_names : get_state_names.Nodup

def CPPTRANSPORT_WRONG_PARAMS_A : String := "Error: supplied number of parameters [= "
def CPPTRANSPORT_WRONG_PARAMS_B : String := "] does not match expected number [= "
def CPPTRANSPORT_WRONG_ICS_A : String := "Error: supplied number of initial conditions [= "
def CPPTRANSPORT_WRONG_ICS_B : String := "] does not match expected number [= "
def CPPTRANSPORT_WRONG_ICS_C : String := " or "

def model.validate_params (mdl : model K) (input : List K) : Except String (List K) :=
  if input.length = mdl.get_param_names.length then .ok input
  else .error (CPPTRANSPORT_WRONG_PARAMS_A ++ toString input.length ++ CPPTRANSPORT_WRONG_PARAMS_B ++
    toString mdl.get_param_names.length ++ "]")

/-- Derivatives that are not supplied are computed. -/
def model.validate_ics (mdl : model K) (Mp : K) (params input : List K) : Except String (List K) :=
  if input.length = mdl.number_fields then .ok (input ++ mdl.sr_velocity Mp params input)
  else if input.length = 2 * mdl.number_fields then .ok input
  else .error (CPPTRANSPORT_WRONG_ICS_A ++ toString input.length ++ CPPTRANSPORT_WRONG_ICS_B ++
    toString mdl.number_fields ++ CPPTRANSPORT_WRONG_ICS_C ++ toString (2 * mdl.number_fields) ++ "]")

/-! ### The model manager -/

def CPPTRANSPORT_RUNTIME_API_VERSION : UInt := 201801

def CPPTRANSPORT_OLD_RUNTIMEAPI_A : String := "Runtime API version"
def CPPTRANSPORT_OLD_RUNTIMEAPI_B : String := "is too old; model"
def CPPTRANSPORT_OLD_RUNTIMEAPI_C : String := "requires version"
def CPPTRANSPORT_INSTANCES_MULTIPLE : String :=
  "Internal error: Attempt to add multiple instances of the same 'model' object"
def CPPTRANSPORT_INSTANCES_MISSING_A : String := "No registered instance of model with uid"
def CPPTRANSPORT_INSTANCES_MISSING_B : String := "and minimum revision number"

def format_version (version : UInt) : String :=
  let major := version.val / 100
  let minor := version.val % 100
  toString major ++ "." ++ toString minor

/-- The models that are registered, in the order in which they were. -/
abbrev model_db (K : Type) := List (model K)

def ModelInstanceComparator (uid : String) (min_revision : UInt) (m : model K) : Bool :=
  m.get_identity_string = uid && m.get_revision ≥ min_revision

namespace model_manager

variable (models : model_db K)

def register_model (m : model K) : Except String (model_db K) :=
  let uid := m.get_identity_string
  let version := m.get_translator_version
  let revision := m.get_revision
  if version > CPPTRANSPORT_RUNTIME_API_VERSION then
    .error (CPPTRANSPORT_OLD_RUNTIMEAPI_A ++ " (" ++ format_version CPPTRANSPORT_RUNTIME_API_VERSION ++ ") " ++
      CPPTRANSPORT_OLD_RUNTIMEAPI_B ++ " " ++ uid ++ " " ++ CPPTRANSPORT_OLD_RUNTIMEAPI_C ++ " " ++
      toString version.val)
  else
    match models.find? (ModelInstanceComparator uid revision) with
    | none => .ok (models ++ [m])
    | some _ => .error CPPTRANSPORT_INSTANCES_MULTIPLE

/-- `operator()` -/
def get (uid : String) (min_revision : UInt) : Except String (model K) :=
  match models.find? (ModelInstanceComparator uid min_revision) with
  | none => .error (CPPTRANSPORT_INSTANCES_MISSING_A ++ " '" ++ uid ++ "' " ++ CPPTRANSPORT_INSTANCES_MISSING_B ++
      " " ++ toString min_revision.val)
  | some m => .ok m

/-- The models after an attempt to register one. -/
def attempt (m : model K) : model_db K :=
  match register_model models m with
  | .ok models => models
  | .error _ => models

/-- The models after any number of attempts. -/
def after (attempts : List (model K)) : model_db K := attempts.foldl attempt []

end model_manager

/-! ### Parameters -/

/-- How numbers are stored: what is written as a double is read as it was. -/
structure Doubles (K : Type) where
  double : K → Value
  asDouble : Value → Except String K
  asDouble_double : ∀ x, asDouble (double x) = .ok x

variable (js : Doubles K)

def CPPTRANSPORT_NODE_PARAMS_MPLANCK : String := "mplanck"
def CPPTRANSPORT_NODE_PARAMS_VALUES : String := "values"
def CPPTRANSPORT_NODE_PARAMS_VALUE : String := "value"
def CPPTRANSPORT_NODE_PARAMS_NAME : String := "name"

def CPPTRANSPORT_MPLANCK_NEGATIVE : String := "Nonpositive value for M_Planck is not allowed"
def CPPTRANSPORT_PARAM_DATA_MISMATCH : String :=
  "Internal error: Mismatched parameter and names in 'parameters' object"
def CPPTRANSPORT_BADLY_FORMED_PARAMS : String := "Repository error: badly formed JSON for 'parameters' group"
def CPPTRANSPORT_BADLY_FORMED_ICS : String := "Repository error: badly formed JSON for 'initial_conditions' group"

/-- The object for one name; the node names are those of initial conditions too. -/
def write_element (t : named_list.element K) : Except String Value :=
  writeAll [([CPPTRANSPORT_NODE_PARAMS_NAME], .string t.name), ([CPPTRANSPORT_NODE_PARAMS_VALUE], js.double t.value)]
    (.object [])

def read_element (t : Value) : Except String (named_list.element K) := do
  let param_name ← get [CPPTRANSPORT_NODE_PARAMS_NAME] asString t
  let param_value ← get [CPPTRANSPORT_NODE_PARAMS_VALUE] js.asDouble t
  return ⟨param_name, param_value⟩

/-- Names with their values. -/
def elements (names : List String) (values : List K) : List (named_list.element K) :=
  List.zipWith named_list.element.mk names values

/-- Values for the parameters of a model. -/
structure parameters (K : Type) where
  M_Planck : K
  mdl : model K
  params : List K
  /-- They have been validated. -/
  length_params : params.length = mdl.get_param_names.length

namespace parameters

/-- Parameters whose values the model validates. -/
def validated (Mp : K) (p : List K) (m : model K) : Except String (parameters K) :=
  match h : m.validate_params p with
  | .error e => .error e
  | .ok params => .ok ⟨Mp, m, params, by
      rw [model.validate_params] at h
      split_ifs at h with hlength
      exact Except.ok.inj h ▸ hlength⟩

/-- The constructor from values. -/
def create [LinearOrder K] [Zero K] (Mp : K) (p : List K) (m : model K) : Except String (parameters K) :=
  if Mp ≤ 0 then .error CPPTRANSPORT_MPLANCK_NEGATIVE
  else validated Mp p m

def serialize (p : parameters K) : Except String Value :=
  let names := p.mdl.get_param_names
  if p.params.length = names.length then do
    let param_array ← writeList (write_element js) (elements names p.params)
    writeAll [([CPPTRANSPORT_NODE_PARAMS_MPLANCK], js.double p.M_Planck),
      ([CPPTRANSPORT_NODE_PARAMS_VALUES], param_array)] (.object [])
  else .error CPPTRANSPORT_PARAM_DATA_MISMATCH

/-- The constructor from a reader; it does not check `M_Planck`. -/
def deserialize (m : model K) (reader : Value) : Except String (parameters K) := do
  let M_Planck ← get [CPPTRANSPORT_NODE_PARAMS_MPLANCK] js.asDouble reader
  let temp ← get [CPPTRANSPORT_NODE_PARAMS_VALUES] (readList (read_element js)) reader
  let p ← named_list.values_in_order CPPTRANSPORT_BADLY_FORMED_PARAMS m.get_param_names temp
  validated M_Planck p m

end parameters

/-! ### Initial conditions -/

def CPPTRANSPORT_NODE_ICS_MODEL : String := "model"
def CPPTRANSPORT_NODE_ICS_MODEL_UID : String := "uid"
def CPPTRANSPORT_NODE_ICS_MODEL_REVISION : String := "revision"
def CPPTRANSPORT_NODE_ICS_N_SUB_HORIZON : String := "sub-horizon-efolds"
def CPPTRANSPORT_NODE_ICS_N_INIT : String := "initial-time"
def CPPTRANSPORT_NODE_ICS_VALUES : String := "values"
def CPPTRANSPORT_NODE_ICS_PARAMETERS : String := "parameters"

/-- A package; its model is that of the parameters, from where every constructor takes it. -/
structure initial_conditions (K : Type) where
  name : String
  params : parameters K
  ics : List K
  N_init : K
  N_sub_horizon : K
  /-- They have been validated. -/
  length_ics : ics.length = params.mdl.get_state_names.length

namespace initial_conditions

def mdl (p : initial_conditions K) : model K := p.params.mdl

/-- A package whose values the model validates. -/
def validated (nm : String) (p : parameters K) (i : List K) (N_init N_sub_horizon : K) :
    Except String (initial_conditions K) :=
  match h : p.mdl.validate_ics p.M_Planck p.params i with
  | .error e => .error e
  | .ok ics => .ok ⟨nm, p, ics, N_init, N_sub_horizon, by
      rw [p.mdl.length_state_names]
      rw [model.validate_ics] at h
      split_ifs at h with hfields hall
      · rw [← Except.ok.inj h, List.length_append, p.mdl.length_sr_velocity, hfields]
        omega
      · exact Except.ok.inj h ▸ hall⟩

/-- The constructor from values. -/
def create (nm : String) (p : parameters K) (i : List K) (Nini Npre : K) : Except String (initial_conditions K) :=
  validated nm p i Nini Npre

def get_N_horizon_crossing [Add K] (p : initial_conditions K) : K := p.N_init + p.N_sub_horizon

def serialize (p : initial_conditions K) : Except String Value := do
  let ics ← writeList (write_element js) (elements p.mdl.get_state_names p.ics)
  let params_serialize ← p.params.serialize js
  writeAll [
    ([CPPTRANSPORT_NODE_ICS_MODEL, CPPTRANSPORT_NODE_ICS_MODEL_UID], .string p.mdl.get_identity_string),
    ([CPPTRANSPORT_NODE_ICS_MODEL, CPPTRANSPORT_NODE_ICS_MODEL_REVISION], .int (p.mdl.get_revision : ℕ)),
    ([CPPTRANSPORT_NODE_ICS_N_SUB_HORIZON], js.double p.N_sub_horizon),
    ([CPPTRANSPORT_NODE_ICS_N_INIT], js.double p.N_init),
    ([CPPTRANSPORT_NODE_ICS_VALUES], ics),
    ([CPPTRANSPORT_NODE_ICS_PARAMETERS], params_serialize)] (.object [])

/-- The constructor from a reader. -/
def deserialize (nm : String) (reader : Value) (f : model_db K) : Except String (initial_conditions K) := do
  let uid ← get [CPPTRANSPORT_NODE_ICS_MODEL, CPPTRANSPORT_NODE_ICS_MODEL_UID] asString reader
  let revision ← get [CPPTRANSPORT_NODE_ICS_MODEL, CPPTRANSPORT_NODE_ICS_MODEL_REVISION] asUInt reader
  let mdl ← model_manager.get f uid revision
  let params ← get [CPPTRANSPORT_NODE_ICS_PARAMETERS] (parameters.deserialize js mdl) reader
  let N_init ← get [CPPTRANSPORT_NODE_ICS_N_INIT] js.asDouble reader
  let N_sub_horizon ← get [CPPTRANSPORT_NODE_ICS_N_SUB_HORIZON] js.asDouble reader
  let temp ← get [CPPTRANSPORT_NODE_ICS_VALUES] (readList (read_element js)) reader
  let i ← named_list.values_in_order CPPTRANSPORT_BADLY_FORMED_ICS mdl.get_state_names temp
  validated nm params i N_init N_sub_horizon

end initial_conditions

/-! ### What the manager finds -/

namespace model_manager

variable {models : model_db K} {m m' : model K} {uid : String} {r : UInt}

/-- A model that a search for this identity and revision accepts. -/
def Matches (uid : String) (r : UInt) (m : model K) : Prop := m.get_identity_string = uid ∧ r ≤ m.get_revision

instance : Decidable (Matches uid r m) := inferInstanceAs (Decidable (_ ∧ _))

theorem comparator_iff : ModelInstanceComparator uid r m = true ↔ Matches uid r m := by
  simp [ModelInstanceComparator, Matches]

/-- The oldest revision that a search accepts. -/
def Oldest (models : model_db K) (uid : String) (r : UInt) (m : model K) : Prop :=
  m ∈ models ∧ Matches uid r m ∧ ∀ m' ∈ models, Matches uid r m' → m.get_revision ≤ m'.get_revision

/-- No model needs a later runtime, and the revisions of a model have been registered from old to new. -/
structure Registered (models : model_db K) : Prop where
  version : ∀ m ∈ models, m.get_translator_version ≤ CPPTRANSPORT_RUNTIME_API_VERSION
  increasing : models.Pairwise fun m m' => m.get_identity_string = m'.get_identity_string →
    m.get_revision < m'.get_revision

namespace Registered

/-- Identity and revision number determine a model. -/
theorem eq_of_same (h : Registered models) (hm : m ∈ models) (hm' : m' ∈ models)
    (huid : m.get_identity_string = m'.get_identity_string) (hrevision : m.get_revision = m'.get_revision) :
    m = m' := by
  have hkeys : (models.map fun m => (m.get_identity_string, m.get_revision)).Nodup :=
    List.pairwise_map.mpr (h.increasing.imp fun hlt heq => (hlt (congrArg Prod.fst heq)).ne (congrArg Prod.snd heq))
  exact List.inj_on_of_nodup_map hkeys hm hm' (Prod.ext huid hrevision)

theorem oldest_of_find? (h : Registered models) (hfind : models.find? (ModelInstanceComparator uid r) = some m) :
    Oldest models uid r m := by
  obtain ⟨hm, before, later, rfl, hbefore⟩ := List.find?_eq_some_iff_append.mp hfind
  rw [comparator_iff] at hm
  refine ⟨by simp, hm, fun m' hm' hmatches => ?_⟩
  obtain ⟨-, hpairwise, -⟩ := List.pairwise_append.mp h.increasing
  rcases List.mem_append.mp hm' with hearly | hlate
  · have hnot := hbefore m' hearly
    rw [comparator_iff.mpr hmatches] at hnot
    cases hnot
  · rcases List.mem_cons.mp hlate with rfl | hlate
    · exact le_refl _
    · exact ((List.pairwise_cons.mp hpairwise).1 m' hlate (hm.1.trans hmatches.1.symm)).le

theorem find?_eq_some_iff (h : Registered models) :
    models.find? (ModelInstanceComparator uid r) = some m ↔ Oldest models uid r m := by
  refine ⟨h.oldest_of_find?, fun ⟨hmem, hm, hleast⟩ => ?_⟩
  obtain ⟨m₁, hfind⟩ := Option.isSome_iff_exists.mp (List.find?_isSome.mpr ⟨m, hmem, comparator_iff.mpr hm⟩)
  obtain ⟨hmem₁, hm₁, hleast₁⟩ := h.oldest_of_find? hfind
  rw [hfind, h.eq_of_same hmem₁ hmem (hm₁.1.trans hm.1.symm)
    (le_antisymm (hleast₁ m hmem hm) (hleast m₁ hmem₁ hm₁))]

theorem get_eq_ok_iff (h : Registered models) : get models uid r = .ok m ↔ Oldest models uid r m := by
  rw [← h.find?_eq_some_iff, get]
  split
  · rename_i hnone
    simp [hnone]
  · rename_i m' hsome
    simp [hsome]

end Registered

/-- **One attempt**: a model is registered if the runtime is recent enough and no revision is that is as new. -/
theorem attempt_eq (models : model_db K) (m : model K) : attempt models m =
    if m.get_translator_version ≤ CPPTRANSPORT_RUNTIME_API_VERSION ∧
        ∀ m' ∈ models, ¬ Matches m.get_identity_string m.get_revision m' then models ++ [m]
    else models := by
  rw [attempt, register_model]
  by_cases hversion : m.get_translator_version > CPPTRANSPORT_RUNTIME_API_VERSION
  · rw [if_pos hversion, if_neg fun h => absurd h.1 (not_le.mpr hversion)]
  · rw [if_neg hversion]
    cases hfind : models.find? (ModelInstanceComparator m.get_identity_string m.get_revision) with
    | none =>
      have hnone : ∀ m' ∈ models, ¬ Matches m.get_identity_string m.get_revision m' := fun m' hm' hmatches =>
        List.find?_eq_none.mp hfind m' hm' (comparator_iff.mpr hmatches)
      rw [if_pos ⟨not_lt.mp hversion, hnone⟩]
    | some m₁ =>
      rw [if_neg fun h => h.2 m₁ (List.mem_of_find?_eq_some hfind) (comparator_iff.mp (List.find?_some hfind))]

theorem Registered.attempt (h : Registered models) (m : model K) : Registered (attempt models m) := by
  rw [attempt_eq]
  split_ifs with hnew
  · obtain ⟨hversion, hnone⟩ := hnew
    refine ⟨fun m' hm' => ?_, List.pairwise_append.mpr ⟨h.increasing, List.pairwise_singleton _ _, ?_⟩⟩
    · rcases List.mem_append.mp hm' with hm' | hm'
      · exact h.version m' hm'
      · rw [List.mem_singleton.mp hm']
        exact hversion
    · intro m₁ hm₁ m₂ hm₂ huid
      obtain rfl := List.mem_singleton.mp hm₂
      exact not_le.mp fun hle => hnone m₁ hm₁ ⟨huid, hle⟩
  · exact h

/-- Attempts only add models. -/
theorem foldl_attempt_eq_append (models : model_db K) (attempts : List (model K)) :
    ∃ more, attempts.foldl attempt models = models ++ more := by
  induction attempts generalizing models with
  | nil => exact ⟨[], (List.append_nil _).symm⟩
  | cons m attempts ih =>
    obtain ⟨more, hmore⟩ := ih (attempt models m)
    rw [List.foldl_cons, hmore, attempt_eq]
    split_ifs
    · exact ⟨[m] ++ more, List.append_assoc ..⟩
    · exact ⟨more, rfl⟩

theorem registered_foldl (h : Registered models) (attempts : List (model K)) :
    Registered (attempts.foldl attempt models) := by
  induction attempts generalizing models with
  | nil => exact h
  | cons m attempts ih => exact ih (h.attempt m)

theorem registered_after (attempts : List (model K)) : Registered (after attempts) :=
  registered_foldl ⟨List.forall_mem_nil _, List.Pairwise.nil⟩ attempts

/-- A model that could be registered is found, or one that is as new. -/
theorem exists_matches_of_mem {attempts : List (model K)} (hm : m ∈ attempts)
    (hversion : m.get_translator_version ≤ CPPTRANSPORT_RUNTIME_API_VERSION) (models : model_db K) :
    ∃ m' ∈ attempts.foldl attempt models, Matches m.get_identity_string m.get_revision m' := by
  induction attempts generalizing models with
  | nil => cases hm
  | cons m₁ attempts ih =>
    rcases List.mem_cons.mp hm with rfl | hm
    · obtain ⟨more, hmore⟩ := foldl_attempt_eq_append (attempt models m) attempts
      rw [List.foldl_cons, hmore]
      by_cases hnone : ∀ m' ∈ models, ¬ Matches m.get_identity_string m.get_revision m'
      · rw [attempt_eq, if_pos ⟨hversion, hnone⟩]
        exact ⟨m, by simp, rfl, le_refl _⟩
      · push Not at hnone
        obtain ⟨m', hm', hmatches⟩ := hnone
        rw [attempt_eq, if_neg fun h => h.2 m' hm' hmatches]
        exact ⟨m', List.mem_append_left _ hm', hmatches⟩
    · exact ih hm _

/-- Among models of which one matches, a search finds one. -/
theorem exists_get {models : model_db K} (hm : m ∈ models) (hmatches : Matches uid r m) :
    ∃ m', get models uid r = .ok m' := by
  obtain ⟨m', hfind⟩ := Option.isSome_iff_exists.mp
    (List.find?_isSome.mpr ⟨m, hm, comparator_iff.mpr hmatches⟩)
  exact ⟨m', by rw [get, hfind]⟩

/-- What is found does not depend on what is registered later. -/
theorem get_append (hget : get models uid r = .ok m) (more : List (model K)) :
    get (models ++ more) uid r = .ok m := by
  rw [get] at hget ⊢
  cases hfind : models.find? (ModelInstanceComparator uid r) with
  | none => simp [hfind] at hget
  | some m' =>
    rw [hfind] at hget
    rw [List.find?_append, hfind]
    exact hget

end model_manager

/-- **The manager**: a search finds the oldest revision that is new enough. After an attempt to register a model that
does not need a later runtime, a search for it is successful; and nothing that is registered later changes what a
search finds. -/
theorem registry (attempts : List (model K)) :
    (∀ uid r m, model_manager.get (model_manager.after attempts) uid r = .ok m ↔
      model_manager.Oldest (model_manager.after attempts) uid r m) ∧
    (∀ m ∈ attempts, m.get_translator_version ≤ CPPTRANSPORT_RUNTIME_API_VERSION →
      ∃ m', model_manager.get (model_manager.after attempts) m.get_identity_string m.get_revision = .ok m') ∧
    ∀ later uid r m, model_manager.get (model_manager.after attempts) uid r = .ok m →
      model_manager.get (model_manager.after (attempts ++ later)) uid r = .ok m := by
  refine ⟨fun uid r m => (model_manager.registered_after attempts).get_eq_ok_iff, fun m hm hversion => ?_,
    fun later uid r m hget => ?_⟩
  · obtain ⟨m', hm', hmatches⟩ := model_manager.exists_matches_of_mem hm hversion []
    exact model_manager.exists_get hm' hmatches
  · obtain ⟨more, hmore⟩ := model_manager.foldl_attempt_eq_append (model_manager.after attempts) later
    rw [model_manager.after, List.foldl_append]
    exact hmore ▸ model_manager.get_append hget more

/-! ### Values by name -/

section ByName

open named_list

variable {names order : List String} {values : List K} {l : List (element K)}

theorem make_ordering_getElem (h : order.Nodup) {i : ℕ} (hi : i < order.length) :
    make_ordering order order[i] = some i := by
  rw [make_ordering, List.idxOf?_eq_some_iff]
  refine ⟨hi, by simp, fun j hj => ?_⟩
  have hne : order[j] ≠ order[i] := fun heq => by
    have hji := h.getElem_inj_iff.mp heq
    omega
  simpa using hne

/-- The place of a name in the order. -/
def rank (order : List String) (name : String) : ℕ := (make_ordering order name).getD 0

theorem rank_inj (h : order.Nodup) {a b : String} (ha : a ∈ order) (hb : b ∈ order)
    (heq : rank order a = rank order b) : a = b := by
  obtain ⟨i, hi, rfl⟩ := List.getElem_of_mem ha
  obtain ⟨j, hj, rfl⟩ := List.getElem_of_mem hb
  simp only [rank, make_ordering_getElem h hi, make_ordering_getElem h hj, Option.getD_some] at heq
  subst heq
  rfl

theorem pairwise_rank (h : order.Nodup) : order.Pairwise fun a b => rank order a ≤ rank order b := by
  rw [List.pairwise_iff_getElem]
  intro i j hi hj hij
  rw [rank, rank, make_ordering_getElem h hi, make_ordering_getElem h hj]
  exact hij.le

theorem elements_map (l : List (element K)) : elements (l.map (·.name)) (l.map (·.value)) = l := by
  induction l with
  | nil => rfl
  | cons t l ih => exact congrArg (t :: ·) ih

theorem map_name_elements (h : values.length = names.length) : (elements names values).map (·.name) = names := by
  induction names generalizing values with
  | nil => rfl
  | cons name names ih =>
    cases values with
    | nil => simp at h
    | cons value values => exact congrArg (name :: ·) (ih (Nat.succ.inj h))

theorem map_value_elements (h : values.length = names.length) : (elements names values).map (·.value) = values := by
  induction names generalizing values with
  | nil => exact (List.length_eq_zero_iff.mp h).symm
  | cons name names ih =>
    cases values with
    | nil => simp at h
    | cons value values => exact congrArg (value :: ·) (ih (Nat.succ.inj h))

theorem length_elements (h : values.length = names.length) : (elements names values).length = names.length := by
  rw [← List.length_map, map_name_elements h]

/-- A list with the names of an order, each once, is sorted into that order. -/
theorem map_name_mergeSort (ho : order.Nodup) (hl : (l.map (·.name)).Perm order) :
    (l.mergeSort fun a b => (make_ordering order a.name).getD 0 ≤ (make_ordering order b.name).getD 0).map (·.name) =
      order := by
  let le (a b : element K) : Bool := rank order a.name ≤ rank order b.name
  have htrans (a b c : element K) (hab : le a b = true) (hbc : le b c = true) : le a c = true :=
    decide_eq_true ((of_decide_eq_true hab).trans (of_decide_eq_true hbc))
  have htotal (a b : element K) : (le a b || le b a) = true := by
    simpa [le] using le_total (rank order a.name) (rank order b.name)
  have hsorted : (l.mergeSort le).Pairwise fun a b => le a b = true := List.pairwise_mergeSort htrans htotal l
  have hperm : ((l.mergeSort le).map (·.name)).Perm order := ((List.mergeSort_perm l le).map _).trans hl
  have hnames : ((l.mergeSort le).map (·.name)).Pairwise fun a b => rank order a ≤ rank order b :=
    List.pairwise_map.mpr (hsorted.imp fun h => of_decide_eq_true h)
  exact hperm.eq_of_pairwise (fun a b ha hb hab hba => rank_inj ho (hperm.subset ha) hb (le_antisymm hab hba)) hnames
    (pairwise_rank ho)

theorem sort_eq_ok_iff (hlength : 2 ≤ l.length) {sorted : List (element K)} :
    sort (make_ordering order) l = .ok sorted ↔ (∀ t ∈ l, t.name ∈ order) ∧
      sorted = l.mergeSort fun a b => (make_ordering order a.name).getD 0 ≤ (make_ordering order b.name).getD 0 := by
  have hknown (t : element K) : (do let _ ← comparator (make_ordering order) t t : Except String PUnit) = .ok ⟨⟩ ↔
      t.name ∈ order := by
    cases hname : make_ordering order t.name with
    | none =>
      have : t.name ∉ order := List.idxOf?_eq_none_iff.mp hname
      simp [comparator, hname, this]
    | some i =>
      have : t.name ∈ order := by
        rw [← List.isSome_idxOf?]
        exact Option.isSome_iff_exists.mpr ⟨i, hname⟩
      simp [comparator, hname, this, pure, Except.pure]
  rw [sort, if_neg (by omega), bind_eq_ok]
  constructor
  · rintro ⟨_, hall, hsorted⟩
    exact ⟨fun t ht => (hknown t).mp (forM_eq_ok.mp hall t ht), pure_eq_ok.mp hsorted⟩
  · rintro ⟨hall, rfl⟩
    exact ⟨⟨⟩, forM_eq_ok.mpr fun t ht => (hknown t).mpr (hall t ht), rfl⟩

/-- A list with one set of names can be read with another: they are the same up to their order, or each is a single
name. -/
def Readable (names order : List String) : Prop :=
  names.Perm order ∨ names.length = 1 ∧ order.length = 1

/-- The values agree by name; the value of a single name is the same whatever the name. -/
def Agree (names : List String) (values : List K) (order : List String) (sorted : List K) : Prop :=
  sorted.length = order.length ∧
    if names.length = 1 then sorted = values else (elements order sorted).Perm (elements names values)

/-- **Reading by name** is successful just for the names of the model, and no value changes its name. -/
theorem values_in_order_elements (badly_formed : String) (hn : names.Nodup) (ho : order.Nodup)
    (hlength : values.length = names.length) :
    ((∃ sorted, values_in_order badly_formed order (elements names values) = .ok sorted) ↔ Readable names order) ∧
    ∀ sorted, values_in_order badly_formed order (elements names values) = .ok sorted →
      Agree names values order sorted := by
  have hl := length_elements hlength
  rw [values_in_order, hl]
  by_cases hsame : names.length = order.length
  swap
  · -- the check of the number fails
    have hunreadable : ¬ Readable names order := by
      rintro (hperm | ⟨hone, hone'⟩)
      · exact hsame hperm.length_eq
      · exact hsame (hone.trans hone'.symm)
    simp [hsame, hunreadable]
  simp only [hsame, ne_eq, not_true_eq_false, if_false]
  by_cases hfew : names.length ≤ 1
  · -- nothing is compared
    have hsort : sort (make_ordering order) (elements names values) = .ok (elements names values) := by
      rw [sort, if_pos (hl ▸ hfew)]
    rw [hsort, ok_bind, map_value_elements hlength]
    have hreadable : Readable names order := by
      rcases Nat.le_one_iff_eq_zero_or_eq_one.mp hfew with hzero | hone
      · rw [List.length_eq_zero_iff.mp hzero, List.length_eq_zero_iff.mp (hsame.symm.trans hzero)]
        exact .inl (.refl _)
      · exact .inr ⟨hone, hsame.symm.trans hone⟩
    refine ⟨iff_of_true ⟨values, rfl⟩ hreadable, fun sorted hsorted => ?_⟩
    obtain rfl := pure_eq_ok.mp hsorted
    refine ⟨hlength.trans hsame, ?_⟩
    split_ifs with hone
    · rfl
    · have hzero : names = [] := List.length_eq_zero_iff.mp (by omega)
      have hzero' : order = [] := List.length_eq_zero_iff.mp (by omega)
      rw [hzero, hzero']
  · have hsort (sorted : List (element K)) : sort (make_ordering order) (elements names values) = .ok sorted ↔ _ :=
      sort_eq_ok_iff (show 2 ≤ (elements names values).length by omega)
    have hknown : (∀ t ∈ elements names values, t.name ∈ order) ↔ names ⊆ order := by
      rw [← List.forall_mem_map (f := element.name) (P := (· ∈ order)), map_name_elements hlength]
      rfl
    have hperm (h : names ⊆ order) : names.Perm order :=
      (List.subperm_of_subset hn h).perm_of_length_le hsame.ge
    simp only [bind_eq_ok, pure_eq_ok, hsort, hknown]
    constructor
    · constructor
      · rintro ⟨_, _, ⟨hsub, -⟩, -⟩
        exact .inl (hperm hsub)
      · rintro (h | ⟨hone, -⟩)
        · exact ⟨_, _, ⟨h.subset, rfl⟩, rfl⟩
        · omega
    · rintro _ ⟨_, ⟨hsub, rfl⟩, rfl⟩
      have hnames := map_name_mergeSort ho ((map_name_elements hlength).symm ▸ hperm hsub)
      refine ⟨by rw [List.length_map, List.length_mergeSort, hl, hsame], ?_⟩
      rw [if_neg (by omega)]
      -- the sorted list has the names in their order
      nth_rewrite 1 [← hnames]
      rw [elements_map]
      exact List.mergeSort_perm _ _

end ByName

/-! ### Reading packages -/

open named_list

theorem exists_write_elements (js : Doubles K) (l : List (element K)) :
    ∃ v, writeList (write_element js) l = .ok v ∧ readList (read_element js) v = .ok l := by
  refine readList_writeList fun t _ => ?_
  have hseparate : Separate ([([CPPTRANSPORT_NODE_PARAMS_NAME], Value.string t.name),
      ([CPPTRANSPORT_NODE_PARAMS_VALUE], js.double t.value)].map (·.1)) :=
    show Separate [[CPPTRANSPORT_NODE_PARAMS_NAME], [CPPTRANSPORT_NODE_PARAMS_VALUE]] by decide
  obtain ⟨v, hwrite, hreads⟩ := read_writeAll hseparate
  simp only [reads_cons] at hreads
  refine ⟨v, hwrite, ?_⟩
  rw [read_element, get_of_read hreads.1, get_of_read hreads.2.1, js.asDouble_double]
  rfl

/-- What is read of parameters that have been written, for whatever model. -/
theorem exists_serialize_params (js : Doubles K) (p : parameters K) : ∃ v, p.serialize js = .ok v ∧
    ∀ m, parameters.deserialize js m v = (do
      let params ← values_in_order CPPTRANSPORT_BADLY_FORMED_PARAMS m.get_param_names
        (elements p.mdl.get_param_names p.params)
      parameters.validated p.M_Planck params m) := by
  obtain ⟨array, hwrite, hread⟩ := exists_write_elements js (elements p.mdl.get_param_names p.params)
  have hseparate : Separate ([([CPPTRANSPORT_NODE_PARAMS_MPLANCK], js.double p.M_Planck),
      ([CPPTRANSPORT_NODE_PARAMS_VALUES], array)].map (·.1)) :=
    show Separate [[CPPTRANSPORT_NODE_PARAMS_MPLANCK], [CPPTRANSPORT_NODE_PARAMS_VALUES]] by decide
  obtain ⟨v, hv, hreads⟩ := read_writeAll hseparate
  simp only [reads_cons] at hreads
  refine ⟨v, ?_, fun m => ?_⟩
  · simp only [parameters.serialize, p.length_params, if_true]
    rw [hwrite, ok_bind, hv]
  · rw [parameters.deserialize, get_of_read hreads.1, get_of_read hreads.2.1, js.asDouble_double, hread, ok_bind,
      ok_bind]

/-- What is read of a package that has been written, with whatever manager. -/
theorem exists_serialize (js : Doubles K) (p : initial_conditions K) : ∃ v, p.serialize js = .ok v ∧
    ∀ nm f m, model_manager.get f p.mdl.get_identity_string p.mdl.get_revision = .ok m →
      initial_conditions.deserialize js nm v f = (do
        let params ← values_in_order CPPTRANSPORT_BADLY_FORMED_PARAMS m.get_param_names
          (elements p.mdl.get_param_names p.params.params)
        let params ← parameters.validated p.params.M_Planck params m
        let ics ← values_in_order CPPTRANSPORT_BADLY_FORMED_ICS m.get_state_names
          (elements p.mdl.get_state_names p.ics)
        initial_conditions.validated nm params ics p.N_init p.N_sub_horizon) := by
  obtain ⟨array, hwrite, hread⟩ := exists_write_elements js (elements p.mdl.get_state_names p.ics)
  obtain ⟨params, hparams, hreadParams⟩ := exists_serialize_params js p.params
  have hseparate : Separate ([
      ([CPPTRANSPORT_NODE_ICS_MODEL, CPPTRANSPORT_NODE_ICS_MODEL_UID], Value.string p.mdl.get_identity_string),
      ([CPPTRANSPORT_NODE_ICS_MODEL, CPPTRANSPORT_NODE_ICS_MODEL_REVISION], Value.int (p.mdl.get_revision : ℕ)),
      ([CPPTRANSPORT_NODE_ICS_N_SUB_HORIZON], js.double p.N_sub_horizon),
      ([CPPTRANSPORT_NODE_ICS_N_INIT], js.double p.N_init), ([CPPTRANSPORT_NODE_ICS_VALUES], array),
      ([CPPTRANSPORT_NODE_ICS_PARAMETERS], params)].map (·.1)) :=
    show Separate [[CPPTRANSPORT_NODE_ICS_MODEL, CPPTRANSPORT_NODE_ICS_MODEL_UID],
      [CPPTRANSPORT_NODE_ICS_MODEL, CPPTRANSPORT_NODE_ICS_MODEL_REVISION], [CPPTRANSPORT_NODE_ICS_N_SUB_HORIZON],
      [CPPTRANSPORT_NODE_ICS_N_INIT], [CPPTRANSPORT_NODE_ICS_VALUES], [CPPTRANSPORT_NODE_ICS_PARAMETERS]] by decide
  obtain ⟨v, hv, hreads⟩ := read_writeAll hseparate
  simp only [reads_cons] at hreads
  obtain ⟨huid, hrevision, hsub, hinit, hvalues, hpar, -⟩ := hreads
  refine ⟨v, ?_, fun nm f m hget => ?_⟩
  · rw [initial_conditions.serialize, hwrite, ok_bind, hparams, ok_bind, hv]
  · rw [initial_conditions.deserialize, get_of_read huid, get_of_read hrevision, get_of_read hinit, get_of_read hsub,
      get_of_read hvalues, asUInt_int, js.asDouble_double, js.asDouble_double, hread]
    simp only [asString, ok_bind, hget, get_of_read hpar, hreadParams, bind_assoc]
    rfl

theorem parameters.validated_eq {Mp : K} {vs : List K} {m : model K} (h : vs.length = m.get_param_names.length) :
    parameters.validated Mp vs m = .ok ⟨Mp, m, vs, h⟩ := by
  have hvalid : m.validate_params vs = .ok vs := if_pos h
  rw [parameters.validated]
  split
  · rename_i e herror
    cases hvalid.symm.trans herror
  · rename_i params hok
    obtain rfl := Except.ok.inj (hvalid.symm.trans hok)
    rfl

/-- As many values as there are names are taken as they are. -/
theorem initial_conditions.validated_eq {nm : String} {p : parameters K} {i : List K} {N N' : K}
    (h : i.length = p.mdl.get_state_names.length) :
    initial_conditions.validated nm p i N N' = .ok ⟨nm, p, i, N, N', h⟩ := by
  have hlength := h.trans p.mdl.length_state_names
  have hvalid : p.mdl.validate_ics p.M_Planck p.params i = .ok i := by
    rw [model.validate_ics]
    split_ifs with hfields
    · -- there are no fields at all
      have hnil : p.mdl.sr_velocity p.M_Planck p.params i = [] :=
        List.length_eq_zero_iff.mp (by rw [p.mdl.length_sr_velocity]; omega)
      rw [hnil, List.append_nil]
    · rfl
  rw [initial_conditions.validated]
  split
  · rename_i e herror
    cases hvalid.symm.trans herror
  · rename_i ics hok
    obtain rfl := Except.ok.inj (hvalid.symm.trans hok)
    rfl

/-- Values that agree with others under the same names are the same. -/
theorem eq_of_agree {names : List String} {values sorted : List K} (hn : names.Nodup)
    (hlength : values.length = names.length) (h : Agree names values names sorted) : sorted = values := by
  obtain ⟨hlength', h⟩ := h
  split_ifs at h
  · exact h
  · have hpairwise : ∀ {vs : List K}, vs.length = names.length →
        (elements names vs).Pairwise fun a b => rank names a.name ≤ rank names b.name := by
      intro vs hvs
      have hsorted := pairwise_rank hn
      nth_rewrite 3 [← map_name_elements hvs] at hsorted
      exact List.Pairwise.of_map element.name (fun _ _ h => h) hsorted
    have hkeys : ((elements names sorted).map (·.name)).Nodup := by
      rw [map_name_elements hlength']
      exact hn
    have hmem {t : element K} (ht : t ∈ elements names sorted) : t.name ∈ names := by
      have := List.mem_map_of_mem (f := element.name) ht
      rwa [map_name_elements hlength'] at this
    have heq := h.eq_of_pairwise (fun a b ha hb hab hba => List.inj_on_of_nodup_map hkeys ha (h.mem_iff.mpr hb)
      (rank_inj hn (hmem ha) (hmem (h.mem_iff.mpr hb)) (le_antisymm hab hba))) (hpairwise hlength') (hpairwise hlength)
    have hvalues := congrArg (List.map element.value) heq
    rwa [map_value_elements hlength', map_value_elements hlength] at hvalues

/-- What reading with a model gives, where it is successful. -/
structure ReadWith (p : initial_conditions K) (nm : String) (m : model K) (p' : initial_conditions K) : Prop where
  name : p'.name = nm
  mdl : p'.mdl = m
  M_Planck : p'.params.M_Planck = p.params.M_Planck
  N_init : p'.N_init = p.N_init
  N_sub_horizon : p'.N_sub_horizon = p.N_sub_horizon
  params : Agree p.mdl.get_param_names p.params.params m.get_param_names p'.params.params
  ics : Agree p.mdl.get_state_names p.ics m.get_state_names p'.ics

theorem exists_read_with (js : Doubles K) (p : initial_conditions K) : ∃ v, p.serialize js = .ok v ∧
    ∀ nm f m, model_manager.get f p.mdl.get_identity_string p.mdl.get_revision = .ok m →
      ((∃ p', initial_conditions.deserialize js nm v f = .ok p') ↔
        Readable p.mdl.get_param_names m.get_param_names ∧ Readable p.mdl.get_state_names m.get_state_names) ∧
      ∀ p', initial_conditions.deserialize js nm v f = .ok p' → ReadWith p nm m p' := by
  obtain ⟨v, hwrite, hread⟩ := exists_serialize js p
  refine ⟨v, hwrite, fun nm f m hget => ?_⟩
  obtain ⟨hparams, hagree⟩ := values_in_order_elements CPPTRANSPORT_BADLY_FORMED_PARAMS
    p.mdl.nodup_param_names m.nodup_param_names p.params.length_params
  obtain ⟨hics, hagree'⟩ := values_in_order_elements CPPTRANSPORT_BADLY_FORMED_ICS
    p.mdl.nodup_state_names m.nodup_state_names p.length_ics
  rw [hread nm f m hget]
  constructor
  · rw [← hparams, ← hics]
    constructor
    · rintro ⟨p', hp'⟩
      obtain ⟨params, hp, hp'⟩ := bind_eq_ok.mp hp'
      obtain ⟨validated, -, hp'⟩ := bind_eq_ok.mp hp'
      obtain ⟨ics, hi, -⟩ := bind_eq_ok.mp hp'
      exact ⟨⟨params, hp⟩, ⟨ics, hi⟩⟩
    · rintro ⟨⟨params, hp⟩, ⟨ics, hi⟩⟩
      rw [hp, ok_bind, parameters.validated_eq (hagree params hp).1, ok_bind, hi, ok_bind]
      exact ⟨_, initial_conditions.validated_eq (hagree' ics hi).1⟩
  · intro p' hp'
    obtain ⟨params, hp, hp'⟩ := bind_eq_ok.mp hp'
    rw [parameters.validated_eq (hagree params hp).1, ok_bind] at hp'
    obtain ⟨ics, hi, hp'⟩ := bind_eq_ok.mp hp'
    rw [initial_conditions.validated_eq (hagree' ics hi).1] at hp'
    obtain rfl := Except.ok.inj hp'
    exact ⟨rfl, rfl, rfl, rfl, rfl, hagree params hp, hagree' ics hi⟩

/-- **Newer revisions**: a package is read with the model that the manager finds just if that has the same names,
in whatever order, or a single name in place of a single one; and then every name keeps its value. -/
theorem newer_revision (js : Doubles K) (p : initial_conditions K) {f : model_db K} {m : model K}
    (hget : model_manager.get f p.mdl.get_identity_string p.mdl.get_revision = .ok m) (nm : String) :
    ∃ v, p.serialize js = .ok v ∧
      ((∃ p', initial_conditions.deserialize js nm v f = .ok p') ↔
        Readable p.mdl.get_param_names m.get_param_names ∧ Readable p.mdl.get_state_names m.get_state_names) ∧
      ∀ p', initial_conditions.deserialize js nm v f = .ok p' → ReadWith p nm m p' := by
  obtain ⟨v, hwrite, hread⟩ := exists_read_with js p
  exact ⟨v, hwrite, hread nm f m hget⟩

/-- Numbers that are stored as they are. -/
def integers : Doubles ℤ where
  double := .int
  asDouble
    | .int i => .ok i
    | _ => .error "Value is not convertible to double."
  asDouble_double _ := rfl

/-- A model with one field and two parameters. -/
def quadratic : model ℤ where
  get_identity_string := "quadratic"
  get_revision := 1
  get_translator_version := 201701
  number_fields := 1
  get_param_names := ["m", "lambda"]
  get_state_names := ["phi", "__dphi"]
  sr_velocity _ _ _ := [0]
  length_state_names := rfl
  length_sr_velocity _ _ _ := rfl
  nodup_param_names := by decide
  nodup_state_names := by decide

/-- Its next revision, with the parameters the other way round. -/
def reordered : model ℤ :=
  { quadratic with
    get_revision := 2
    get_param_names := ["lambda", "m"]
    nodup_param_names := by decide }

def quadratic_package : initial_conditions ℤ where
  name := "ics"
  params := ⟨1, quadratic, [7, 11], rfl⟩
  ics := [4, 9]
  N_init := 0
  N_sub_horizon := 12
  length_ics := rfl

theorem newer_revision_reordered : ∃ v p', quadratic_package.serialize integers = .ok v ∧
    initial_conditions.deserialize integers "ics" v [reordered] = .ok p' ∧
      (elements ["lambda", "m"] p'.params.params).Perm (elements ["m", "lambda"] [7, 11]) := by
  obtain ⟨v, hwrite, hiff, hwith⟩ := newer_revision integers quadratic_package
    (show model_manager.get [reordered] "quadratic" 1 = .ok reordered from rfl) "ics"
  obtain ⟨p', hread⟩ := hiff.mpr ⟨.inl (List.Perm.swap _ _ _), .inl (.refl _)⟩
  exact ⟨v, p', hwrite, hread, (hwith p' hread).params.2⟩

/-- **Packages** are read back as they were by every manager with which their model has been registered, whatever else
has been. -/
theorem package_round_trip (js : Doubles K) (p : initial_conditions K) {attempts : List (model K)}
    (h : p.mdl ∈ model_manager.after attempts) : ∃ v, p.serialize js = .ok v ∧
      initial_conditions.deserialize js p.name v (model_manager.after attempts) = .ok p := by
  obtain ⟨v, hwrite, hread⟩ := exists_read_with js p
  have hget := (model_manager.registered_after attempts).get_eq_ok_iff.mpr
    ⟨h, ⟨rfl, le_refl _⟩, fun m' _ hm' => hm'.2⟩
  obtain ⟨hiff, hwith⟩ := hread p.name _ _ hget
  obtain ⟨p', hp'⟩ := hiff.mpr ⟨.inl (.refl _), .inl (.refl _)⟩
  refine ⟨v, hwrite, ?_⟩
  rw [hp']
  obtain ⟨hname, hmdl, hMp, hN, hN', hparams, hics⟩ := hwith p' hp'
  have hparams' := eq_of_agree p.mdl.nodup_param_names p.params.length_params hparams
  have hics' := eq_of_agree p.mdl.nodup_state_names p.length_ics hics
  obtain ⟨name, ⟨Mp, mdl, params, hlength⟩, ics, N, N', hlength'⟩ := p
  obtain ⟨name', ⟨Mp', mdl', params', hlength₁⟩, ics', N₁, N₁', hlength₂⟩ := p'
  simp only [initial_conditions.mdl] at *
  subst hname hmdl hMp hN hN' hparams' hics'
  rfl

theorem package_round_trip_quadratic : ∃ v, quadratic_package.serialize integers = .ok v ∧
    initial_conditions.deserialize integers "ics" v (model_manager.after [quadratic, reordered]) =
      .ok quadratic_package := by
  have hafter : model_manager.after [quadratic, reordered] = [quadratic, reordered] := rfl
  exact package_round_trip integers quadratic_package (hafter ▸ List.mem_cons_self)

end CppTransport.Runtime.Packages
