import CppTransport.Library.JsonParts
import Mathlib.Data.List.FinRange

/-!
# What lines of derived products are made of

A line of a plot or of a table inherits virtually from `derived_line`, and from what it is about (a two-point function,
the bispectrum of ζ, ...) and what it runs over (times or wavenumbers); it holds the queries that select its
configurations, and often a selection of indices. Each of these has a serializer of its own, which writes into the
object of the line, and a constructor that reads its own members back.

Tasks are stored by name. `Repository` is what the constructors know of the tasks: they find each task by its name.

## What is proved

Each part of a line is read back as it was written (`derived_line.reads_back` and the laws of the parts). The one
exception are two-point queries that are read by `SQL_query_helper`: it compares the type of the query with a key
(`SQL_query_helper.deserialize_iff`).
-/

namespace CppTransport.Runtime.DerivedLines

open Library Json Value

/-! ### Keys -/

def CPPTRANSPORT_NODE_PRODUCT_DERIVED_LINE_TYPE : String := "derived-line-type"

def CPPTRANSPORT_NODE_PRODUCT_DERIVED_LINE_ROOT : String := "derived-line"
def CPPTRANSPORT_NODE_PRODUCT_DERIVED_LINE_TASK_NAME : String := "task-name"
def CPPTRANSPORT_NODE_PRODUCT_DERIVED_LINE_PRECISION : String := "precision"
def CPPTRANSPORT_NODE_PRODUCT_DERIVED_LINE_LABEL_SET : String := "label-set"
def CPPTRANSPORT_NODE_PRODUCT_DERIVED_LINE_LABEL_LATEX : String := "label-latex"
def CPPTRANSPORT_NODE_PRODUCT_DERIVED_LINE_LABEL_NONLATEX : String := "label-nonlatex"
def CPPTRANSPORT_NODE_PRODUCT_DERIVED_LINE_LABEL_USE_TAGS : String := "label-tags"
def CPPTRANSPORT_NODE_PRODUCT_DERIVED_LINE_X_AXIS_CLASS : String := "axis-class"
def CPPTRANSPORT_NODE_PRODUCT_DERIVED_LINE_SUPPORTED_X_AXES : String := "supported-axes"
def CPPTRANSPORT_NODE_PRODUCT_DERIVED_LINE_CURRENT_X_AXIS_VALUE : String := "x-axis-current"
def CPPTRANSPORT_NODE_PRODUCT_DERIVED_LINE_DOT_TYPE : String := "threepf-momenta"
def CPPTRANSPORT_NODE_PRODUCT_DERIVED_LINE_KLABEL_TYPE : String := "k-label-type"

def CPPTRANSPORT_NODE_PRODUCT_DERIVED_LINE_K_QUERY : String := "kconfig-query"
def CPPTRANSPORT_NODE_PRODUCT_DERIVED_LINE_T_QUERY : String := "time-query"

def CPPTRANSPORT_NODE_PRODUCT_DERIVED_LINE_THREEPF_LABEL_KT : String := "use-kt-label"
def CPPTRANSPORT_NODE_PRODUCT_DERIVED_LINE_THREEPF_LABEL_ALPHA : String := "use-alpha-label"
def CPPTRANSPORT_NODE_PRODUCT_DERIVED_LINE_THREEPF_LABEL_BETA : String := "use-beta-label"

def CPPTRANSPORT_NODE_SQL_QUERY_TYPE : String := "sql-query-type"
def CPPTRANSPORT_NODE_SQL_TIME_QUERY_TYPE : String := "time-query"
def CPPTRANSPORT_NODE_SQL_TIME_QUERY : String := "sql"
def CPPTRANSPORT_NODE_SQL_TWOPF_KCONFIG_QUERY_TYPE : String := "twopf-query"
def CPPTRANSPORT_NODE_SQL_TWOPF_KCONFIG_QUERY : String := "sql"
def CPPTRANSPORT_NODE_SQL_THREEPF_KCONFIG_QUERY_TYPE : String := "threepf-query"
def CPPTRANSPORT_NODE_SQL_THREEPF_KCONFIG_QUERY : String := "sql"
def CPPTRANSPORT_NODE_SQL_THREEPF_KCONFIG_QUERY_CONFIG : String := "config"

def CPPTRANSPORT_NODE_INDEX_ROOT : String := "index-selection"
def CPPTRANSPORT_NODE_INDEX_RANGE : String := "index-range"
def CPPTRANSPORT_NODE_INDEX_FIELDS : String := "num-fields"
def CPPTRANSPORT_NODE_INDEX_TOGGLES : String := "enabled-indices"

def CPPTRANSPORT_NODE_PRODUCT_DERIVED_TWOPF_LINE_ROOT : String := "twopf-line-settings"
def CPPTRANSPORT_NODE_PRODUCT_DERIVED_TWOPF_LINE_TYPE : String := "components"
def CPPTRANSPORT_NODE_PRODUCT_DERIVED_TWOPF_LINE_DIMENSIONLESS : String := "dimensionless"
def CPPTRANSPORT_NODE_PRODUCT_DERIVED_THREEPF_LINE_ROOT : String := "threepf-line-settings"
def CPPTRANSPORT_NODE_PRODUCT_DERIVED_THREEPF_LINE_DIMENSIONLESS : String := "dimensionless"
def CPPTRANSPORT_NODE_PRODUCT_DERIVED_TENSOR_TWOPF_LINE_ROOT : String := "tensor-twopf-line-settings"
def CPPTRANSPORT_NODE_PRODUCT_DERIVED_TENSOR_TWOPF_LINE_DIMENSIONLESS : String := "dimensionless"
def CPPTRANSPORT_NODE_PRODUCT_ZETA_TWOPF_LINE_ROOT : String := "zeta-twopf-line-settings"
def CPPTRANSPORT_NODE_PRODUCT_ZETA_TWOPF_LINE_DIMENSIONLESS : String := "dimensionless"
def CPPTRANSPORT_NODE_PRODUCT_ZETA_THREEPF_LINE_ROOT : String := "zeta-threepf-line-settings"
def CPPTRANSPORT_NODE_PRODUCT_ZETA_THREEPF_LINE_DIMENSIONLESS : String := "dimensionless"
def CPPTRANSPORT_NODE_PRODUCT_FNL_TEMPLATE : String := "template"
def CPPTRANSPORT_NODE_PRODUCT_WAVENUMBER_SERIES_ROOT : String := "momentum-configuration-series"
def CPPTRANSPORT_NODE_PRODUCT_WAVENUMBER_SERIES_SPECTRAL_INDEX : String := "spectral-index"
def CPPTRANSPORT_NODE_PRODUCT_DERIVED_U3_LINE_ROOT : String := "u3-line-settings"
def CPPTRANSPORT_NODE_PRODUCT_DERIVED_LARGEST_U3_LINE_ROOT : String := "u3-line-settings"
def CPPTRANSPORT_NODE_PRODUCT_BACKGROUND_LINE_TYPE : String := "type"
def CPPTRANSPORT_NODE_PRODUCT_INTEGRATION_COST_TYPE : String := "type"
def CPPTRANSPORT_NODE_PRODUCT_INTEGRATION_COST_METRIC : String := "metric"

/-! ### Messages -/

def CPPTRANSPORT_PRODUCT_DERIVED_LINE_UNKNOWN_X_AXIS_CLASS : String := "derived_line error: unknown x-axis class"
def CPPTRANSPORT_PRODUCT_DERIVED_LINE_UNKNOWN_X_AXIS_VALUE : String := "derived_line error: unknown x-axis value"
def CPPTRANSPORT_PRODUCT_DERIVED_LINE_NO_AXIS_TYPES : String := "derived_line error: no supported axis types"
def CPPTRANSPORT_PRODUCT_DERIVED_LINE_UNSUPPORTED_X_AXIS_TYPE : String :=
  "derived_line error: attempt to set x-axis to unsupported type"
def CPPTRANSPORT_PRODUCT_DERIVED_LINE_X_AXIS_NOT_SUPPORTED : String := "derived_line error: unsupported x-axis type"
def CPPTRANSPORT_PRODUCT_DERIVED_LINE_DOT_TYPE_UNKNOWN : String := "derived_line error: unknown dot meaning"
def CPPTRANSPORT_PRODUCT_DERIVED_LINE_KLABEL_TYPE_UNKNOWN : String := "derived_line error: unknown klabel meaning"
def CPPTRANSPORT_PRODUCT_DERIVED_LINE_TWOPF_TYPE_UNKNOWN : String :=
  "Internal error: Unknown twopf type in 'derived_line'"
def CPPTRANSPORT_PRODUCT_DERIVED_LINE_CONTENT_TYPE_UNKNOWN : String :=
  "Internal error: Cannot deserialize unknown 'derived_line' content type"
def CPPTRANSPORT_PRODUCT_FNL_LINE_UNKNOWN_TEMPLATE : String := "fNL_line error: unknown bispectrum template type"
def CPPTRANSPORT_INDEX_UNKNOWN_RANGE_TYPE : String := "Internal error: Unknown 'index_selector' range type"
def CPPTRANSPORT_INDEX_PRESET_MISMATCH : String :=
  "Internal error: Mismatched number of presets provided to 'index_selector'; expected"
def CPPTRANSPORT_INDEX_PRESET_MISMATCH_A : String := "received"
def CPPTRANSPORT_SQL_QUERY_UNKNOWN_TYPE : String := "Internal error: unknown SQL query type"
def CPPTRANSPORT_REPO_TASK_NOT_INTEGRATION : String :=
  "Repository error: derived product requires an integration task"

/-! ### Tasks -/

inductive task_type where
  | integration
  | postintegration
  | output
deriving DecidableEq

/-- The tasks of a repository, and what lines use of them. -/
structure Repository (Task : Type) where
  get_name : Task → String
  get_type : Task → task_type
  /-- The task that a postintegration task reads. -/
  get_parent_task : Task → Option Task
  /-- The number of fields of the model that a task integrates. -/
  get_N_fields : Task → UInt
  /-- `task_finder`. -/
  finder : String → Except String Task
  found : ∀ t, finder (get_name t) = .ok t

variable {Task : Type} (R : Repository Task)

/-- The integration task that a line takes its data from. -/
structure integration_task_gadget (Task : Type) where
  itk : Task
  N_fields : UInt

/-- The gadget of a line that is constructed for a task. -/
def integration_task_gadget.of (tk : Task) : integration_task_gadget Task :=
  { itk := tk, N_fields := R.get_N_fields tk }

def integration_task_gadget.set_task (tk : Task) : Except String (integration_task_gadget Task) := do
  let tk_rec ← R.finder (R.get_name tk)
  if R.get_type tk_rec = .integration then
    return { itk := tk_rec, N_fields := R.get_N_fields tk_rec }
  else
    throw CPPTRANSPORT_REPO_TASK_NOT_INTEGRATION

theorem integration_task_gadget.set_task_eq {tk : Task} (h : R.get_type tk = .integration) :
    integration_task_gadget.set_task R tk = .ok (integration_task_gadget.of R tk) := by
  rw [set_task, R.found, ok_bind, if_pos h]
  rfl

/-! ### Enumerations -/

inductive axis_class where
  | time
  | wavenumber
  | threepf_kconfig
deriving DecidableEq

def axis_class.text : axis_class → String
  | time => "time-axis"
  | wavenumber => "k-axis"
  | threepf_kconfig => "threepf-axis"

def axis_class.texts : List (String × axis_class) := named text [time, wavenumber, threepf_kconfig]

inductive axis_value where
  | efolds
  | k
  | efolds_exit
  | alpha
  | beta
  | squeeze_k1
  | squeeze_k2
  | squeeze_k3
  | unset
deriving DecidableEq

/-- The text of a value that a line can have. -/
def axis_value.text : axis_value → Except String String
  | efolds => .ok "efolds"
  | k => .ok "k-value"
  | efolds_exit => .ok "efolds-exit"
  | alpha => .ok "alpha"
  | beta => .ok "beta"
  | squeeze_k1 => .ok "squeezing-fraction-k1"
  | squeeze_k2 => .ok "squeezing-fraction-k2"
  | squeeze_k3 => .ok "squeezing-fraction-k3"
  | unset => .error CPPTRANSPORT_PRODUCT_DERIVED_LINE_UNKNOWN_X_AXIS_VALUE

def axis_value.texts : List (String × axis_value) :=
  [("efolds", efolds), ("k-value", k), ("efolds-exit", efolds_exit), ("alpha", alpha), ("beta", beta),
    ("squeezing-fraction-k1", squeeze_k1), ("squeezing-fraction-k2", squeeze_k2),
    ("squeezing-fraction-k3", squeeze_k3)]

inductive dot_type where
  | derivatives
  | momenta
deriving DecidableEq

def dot_type.text : dot_type → String
  | derivatives => "derivatives"
  | momenta => "momenta"

inductive klabel_type where
  | conventional
  | comoving
deriving DecidableEq

def klabel_type.text : klabel_type → String
  | conventional => "conventional"
  | comoving => "comoving"

inductive twopf_type where
  | real
  | imaginary
deriving DecidableEq

def twopf_type.text : twopf_type → String
  | real => "real"
  | imaginary => "imaginary"

inductive bispectrum_template where
  | local
  | equilateral
  | orthogonal
  | DBI
deriving DecidableEq

def bispectrum_template.text : bispectrum_template → String
  | .local => "local"
  | equilateral => "equilateral"
  | orthogonal => "orthogonal"
  | DBI => "DBI"

inductive background_quantity where
  | epsilon
  | eta
  | Hubble
  | aHubble
  | mass_spectrum
  | norm_mass_spectrum
deriving DecidableEq

def background_quantity.text : background_quantity → String
  | epsilon => "epsilon"
  | eta => "eta"
  | Hubble => "hubble"
  | aHubble => "a-hubble"
  | mass_spectrum => "mass-spectrum"
  | norm_mass_spectrum => "normalized-mass-spectrum"

inductive analysis_type where
  | twopf
  | threepf
deriving DecidableEq

def analysis_type.text : analysis_type → String
  | twopf => "twopf"
  | threepf => "threepf"

inductive cost_metric where
  | time
  | steps
deriving DecidableEq

def cost_metric.text : cost_metric → String
  | time => "time"
  | steps => "steps"

inductive SQL_config_type where
  | kconfig
  | k1_config
  | k2_config
  | k3_config
deriving DecidableEq

def SQL_config_type.text : SQL_config_type → String
  | kconfig => "threepf"
  | k1_config => "k1"
  | k2_config => "k2"
  | k3_config => "k3"

inductive index_range where
  | fields
  | all
deriving DecidableEq

def index_range.text : index_range → String
  | fields => "field"
  | all => "all"

/-- A chain of comparisons that ends in an assertion. -/
def assert_false (_ : String) : String := "false"

/-! ### Index selections -/

section IndexSelector

/-- The number of values of each index. Products are those of unsigned integers of 32 bits. -/
def index_count (N_fields : UInt) (range : index_range) : UInt := (if range = .all then 2 else 1) * N_fields

/-- The number of toggles, one factor for each index. -/
def toggle_count (indices : ℕ) (N_fields : UInt) (range : index_range) : UInt :=
  (· * index_count N_fields range)^[indices] 1

/-- Toggles for the components of an object with several indices. Both constructors compute the number of components
from the number of fields and from the range; nothing changes it afterwards. -/
structure index_selector (indices : ℕ) where
  N_fields : UInt
  range : index_range
  enabled : List Bool
  enabled_size : enabled.length = toggle_count indices N_fields range

variable {indices : ℕ}

namespace index_selector

def size (s : index_selector indices) : UInt := toggle_count indices s.N_fields s.range

/-- The displacement of an index into the toggles. -/
def displacement (s : index_selector indices) (i : Fin indices) : UInt :=
  (· * index_count s.N_fields s.range)^[indices - i - 1] 1

/-- A selection with all toggles on. -/
def new (indices : ℕ) (N_f : UInt) (r : index_range) : index_selector indices where
  N_fields := N_f
  range := r
  enabled := List.replicate (toggle_count indices N_f r) true
  enabled_size := List.length_replicate

def none (s : index_selector indices) : index_selector indices :=
  { s with enabled := List.replicate s.size false, enabled_size := List.length_replicate }

def all (s : index_selector indices) : index_selector indices :=
  { s with enabled := List.replicate s.size true, enabled_size := List.length_replicate }

/-- The toggle of a combination of indices. -/
def index (s : index_selector indices) (which : Fin indices → UInt) : Except String (Fin s.enabled.length) :=
  if ∀ i, which i < index_count s.N_fields s.range then
    let index := (List.finRange indices).foldl (fun index i => index + s.displacement i * which i) 0
    if h : index < s.size then .ok ⟨index, by rw [s.enabled_size]; exact h⟩ else .error "index < this->size"
  else .error "which[i] < (this->range == index_range::all ? 2 : 1) * this->N_fields"

def set (s : index_selector indices) (which : Fin indices → UInt) (on : Bool) :
    Except String (index_selector indices) := do
  let index ← s.index which
  return { s with enabled := s.enabled.set index on, enabled_size := by rw [List.length_set, s.enabled_size] }

def set_on (s : index_selector indices) (which : Fin indices → UInt) : Except String (index_selector indices) :=
  s.set which true

def set_off (s : index_selector indices) (which : Fin indices → UInt) : Except String (index_selector indices) :=
  s.set which false

def is_on (s : index_selector indices) (which : Fin indices → UInt) : Except String Bool := do
  let index ← s.index which
  return s.enabled.get index

def serialize (s : index_selector indices) : Log :=
  [([CPPTRANSPORT_NODE_INDEX_ROOT, CPPTRANSPORT_NODE_INDEX_RANGE], .string s.range.text),
    ([CPPTRANSPORT_NODE_INDEX_ROOT, CPPTRANSPORT_NODE_INDEX_FIELDS], .int s.N_fields.val),
    ([CPPTRANSPORT_NODE_INDEX_ROOT, CPPTRANSPORT_NODE_INDEX_TOGGLES], .array (s.enabled.map .bool))]

def deserialize (reader : Value) : Except String (index_selector indices) := do
  let range ← get [CPPTRANSPORT_NODE_INDEX_ROOT, CPPTRANSPORT_NODE_INDEX_RANGE]
    (asNamed (named index_range.text [.all, .fields]) (unknown CPPTRANSPORT_INDEX_UNKNOWN_RANGE_TYPE)) reader
  let N_fields ← get [CPPTRANSPORT_NODE_INDEX_ROOT, CPPTRANSPORT_NODE_INDEX_FIELDS] asUInt reader
  let enabled ← get [CPPTRANSPORT_NODE_INDEX_ROOT, CPPTRANSPORT_NODE_INDEX_TOGGLES] (readList asBool) reader
  let size := toggle_count indices N_fields range
  if h : enabled.length = size then
    return { N_fields, range, enabled, enabled_size := h }
  else
    throw (CPPTRANSPORT_INDEX_PRESET_MISMATCH ++ toString size ++ ", " ++
      CPPTRANSPORT_INDEX_PRESET_MISMATCH_A ++ toString enabled.length)

theorem deserialize_of_reads {s : index_selector indices} {v : Value} (h : Reads v s.serialize) :
    deserialize v = .ok s := by
  simp only [serialize, reads_cons] at h
  obtain ⟨hrange, hfields, htoggles, -⟩ := h
  have hread : readList asBool (.array (s.enabled.map .bool)) = .ok s.enabled := by
    simp only [readList, asArray, ok_bind]
    induction s.enabled with
    | nil => rfl
    | cons b bs ih => rw [List.map_cons, List.mapM_cons, ih]; rfl
  have hname : (named index_range.text [.all, .fields]).lookup s.range.text = some s.range := by
    cases s.range <;> rfl
  simp only [deserialize, get_of_read hrange, get_of_read hfields, get_of_read htoggles, asNamed_string hname,
    asUInt_int, hread, ok_bind, s.enabled_size, dite_true]
  rfl

end index_selector

end IndexSelector

/-! ### Queries -/

structure SQL_time_query where
  query : String

def SQL_time_query.serialize (q : SQL_time_query) : Log :=
  [([CPPTRANSPORT_NODE_SQL_QUERY_TYPE], .string CPPTRANSPORT_NODE_SQL_TIME_QUERY_TYPE),
    ([CPPTRANSPORT_NODE_SQL_TIME_QUERY], .string q.query)]

def SQL_time_query.deserialize (reader : Value) : Except String SQL_time_query := do
  return { query := ← get [CPPTRANSPORT_NODE_SQL_TIME_QUERY] asString reader }

structure SQL_twopf_query where
  query : String

def SQL_twopf_query.serialize (q : SQL_twopf_query) : Log :=
  [([CPPTRANSPORT_NODE_SQL_QUERY_TYPE], .string CPPTRANSPORT_NODE_SQL_TWOPF_KCONFIG_QUERY_TYPE),
    ([CPPTRANSPORT_NODE_SQL_TWOPF_KCONFIG_QUERY], .string q.query)]

def SQL_twopf_query.deserialize (reader : Value) : Except String SQL_twopf_query := do
  return { query := ← get [CPPTRANSPORT_NODE_SQL_TWOPF_KCONFIG_QUERY] asString reader }

structure SQL_threepf_query where
  query : String
  config : SQL_config_type

def SQL_threepf_query.serialize (q : SQL_threepf_query) : Log :=
  [([CPPTRANSPORT_NODE_SQL_QUERY_TYPE], .string CPPTRANSPORT_NODE_SQL_THREEPF_KCONFIG_QUERY_TYPE),
    ([CPPTRANSPORT_NODE_SQL_THREEPF_KCONFIG_QUERY], .string q.query),
    ([CPPTRANSPORT_NODE_SQL_THREEPF_KCONFIG_QUERY_CONFIG], .string q.config.text)]

def SQL_threepf_query.deserialize (reader : Value) : Except String SQL_threepf_query := do
  let query ← get [CPPTRANSPORT_NODE_SQL_THREEPF_KCONFIG_QUERY] asString reader
  let config ← get [CPPTRANSPORT_NODE_SQL_THREEPF_KCONFIG_QUERY_CONFIG]
    (asNamed (named SQL_config_type.text [.kconfig, .k1_config, .k2_config, .k3_config]) assert_false) reader
  return { query, config }

/-- A query of any class. -/
inductive SQL_query where
  | time (q : SQL_time_query)
  | twopf (q : SQL_twopf_query)
  | threepf (q : SQL_threepf_query)

def SQL_query.serialize : SQL_query → Log
  | time q => q.serialize
  | twopf q => q.serialize
  | threepf q => q.serialize

/-- `SQL_query_helper::deserialize`. The second comparison is with the key of the query, not with its type. -/
def SQL_query_helper.deserialize (reader : Value) : Except String SQL_query := do
  let type ← get [CPPTRANSPORT_NODE_SQL_QUERY_TYPE] asString reader
  if type = CPPTRANSPORT_NODE_SQL_TIME_QUERY_TYPE then
    return .time (← SQL_time_query.deserialize reader)
  else if type = CPPTRANSPORT_NODE_SQL_TWOPF_KCONFIG_QUERY then
    return .twopf (← SQL_twopf_query.deserialize reader)
  else if type = CPPTRANSPORT_NODE_SQL_THREEPF_KCONFIG_QUERY_TYPE then
    return .threepf (← SQL_threepf_query.deserialize reader)
  else
    throw (unknown CPPTRANSPORT_SQL_QUERY_UNKNOWN_TYPE type)

/-- Two-point queries are the ones that the helper does not read. -/
def SQL_query.HasReader : SQL_query → Prop
  | time _ => True
  | twopf _ => False
  | threepf _ => True

section Queries

variable {v : Value}

theorem SQL_time_query.deserialize_of_reads {q : SQL_time_query} (h : Reads v q.serialize) :
    SQL_time_query.deserialize v = .ok q := by
  simp only [serialize, reads_cons] at h
  obtain ⟨-, hquery, -⟩ := h
  rw [deserialize, get_of_read hquery]
  rfl

theorem SQL_twopf_query.deserialize_of_reads {q : SQL_twopf_query} (h : Reads v q.serialize) :
    SQL_twopf_query.deserialize v = .ok q := by
  simp only [serialize, reads_cons] at h
  obtain ⟨-, hquery, -⟩ := h
  rw [deserialize, get_of_read hquery]
  rfl

theorem SQL_threepf_query.deserialize_of_reads {q : SQL_threepf_query} (h : Reads v q.serialize) :
    SQL_threepf_query.deserialize v = .ok q := by
  simp only [serialize, reads_cons] at h
  obtain ⟨-, hquery, hconfig, -⟩ := h
  have hname : (named SQL_config_type.text [.kconfig, .k1_config, .k2_config, .k3_config]).lookup q.config.text =
      some q.config := by
    cases q.config <;> rfl
  rw [deserialize, get_of_read hquery, get_of_read hconfig, asNamed_string hname]
  rfl

/-- The helper reads the queries that it has a comparison for. -/
theorem SQL_query_helper.deserialize_iff {q : SQL_query} (h : Reads v q.serialize) :
    SQL_query_helper.deserialize v = .ok q ↔ q.HasReader := by
  cases q with
  | time q =>
    have hread := SQL_time_query.deserialize_of_reads h
    simp only [SQL_query.serialize, SQL_time_query.serialize, reads_cons] at h
    rw [SQL_query_helper.deserialize, get_of_read h.1, asString, ok_bind, if_pos rfl, hread]
    exact iff_of_true rfl trivial
  | twopf q =>
    simp only [SQL_query.serialize, SQL_twopf_query.serialize, reads_cons] at h
    rw [SQL_query_helper.deserialize, get_of_read h.1, asString, ok_bind, if_neg (by decide), if_neg (by decide),
      if_neg (by decide)]
    exact iff_of_false (fun hok => by cases hok) id
  | threepf q =>
    have hread := SQL_threepf_query.deserialize_of_reads h
    simp only [SQL_query.serialize, SQL_threepf_query.serialize, reads_cons] at h
    rw [SQL_query_helper.deserialize, get_of_read h.1, asString, ok_bind, if_neg (by decide), if_neg (by decide),
      if_pos rfl, hread]
    exact iff_of_true rfl trivial

/-! The members of a line that hold its queries. -/

variable {C : Type}

def time_query : Part C SQL_time_query :=
  Part.member CPPTRANSPORT_NODE_PRODUCT_DERIVED_LINE_T_QUERY SQL_time_query.serialize SQL_time_query.deserialize
    [[CPPTRANSPORT_NODE_SQL_QUERY_TYPE], [CPPTRANSPORT_NODE_SQL_TIME_QUERY]] (fun _ => True) (fun _ h => by cases h)
    (fun _ => .refl _) fun _ _ h => iff_of_true (SQL_time_query.deserialize_of_reads h) trivial

def twopf_query : Part C SQL_twopf_query :=
  Part.member CPPTRANSPORT_NODE_PRODUCT_DERIVED_LINE_K_QUERY SQL_twopf_query.serialize SQL_twopf_query.deserialize
    [[CPPTRANSPORT_NODE_SQL_QUERY_TYPE], [CPPTRANSPORT_NODE_SQL_TWOPF_KCONFIG_QUERY]] (fun _ => True)
    (fun _ h => by cases h) (fun _ => .refl _)
    fun _ _ h => iff_of_true (SQL_twopf_query.deserialize_of_reads h) trivial

def threepf_query : Part C SQL_threepf_query :=
  Part.member CPPTRANSPORT_NODE_PRODUCT_DERIVED_LINE_K_QUERY SQL_threepf_query.serialize SQL_threepf_query.deserialize
    [[CPPTRANSPORT_NODE_SQL_QUERY_TYPE], [CPPTRANSPORT_NODE_SQL_THREEPF_KCONFIG_QUERY],
      [CPPTRANSPORT_NODE_SQL_THREEPF_KCONFIG_QUERY_CONFIG]] (fun _ => True)
    (fun _ h => by cases h) (fun _ => .refl _)
    fun _ _ h => iff_of_true (SQL_threepf_query.deserialize_of_reads h) trivial

/-- What the serializers of queries write: those of the first two classes leave out the configuration. -/
def SQL_query.paths : List (List String) :=
  [[CPPTRANSPORT_NODE_SQL_QUERY_TYPE], [CPPTRANSPORT_NODE_SQL_THREEPF_KCONFIG_QUERY],
    [CPPTRANSPORT_NODE_SQL_THREEPF_KCONFIG_QUERY_CONFIG]]

theorem SQL_query.serialize_paths : ∀ q : SQL_query, (q.serialize.map (·.1)).Sublist SQL_query.paths
  | time _ => List.take_sublist 2 paths
  | twopf _ => List.take_sublist 2 paths
  | threepf _ => .refl _

/-- A query that is read by the helper. -/
def kconfig_query : Part C SQL_query :=
  Part.member CPPTRANSPORT_NODE_PRODUCT_DERIVED_LINE_K_QUERY SQL_query.serialize SQL_query_helper.deserialize
    SQL_query.paths SQL_query.HasReader (fun q h => by cases q <;> cases h) SQL_query.serialize_paths
    fun _ _ h => SQL_query_helper.deserialize_iff h

end Queries

/-! ### The base class -/

structure derived_line (Task : Type) where
  x_class : axis_class
  x_type : axis_value
  supported_x_axes : List axis_value
  LaTeX_label : String
  non_LaTeX_label : String
  label_set : Bool
  use_tags : Bool
  parent_task : Task
  dot_meaning : dot_type
  klabel_meaning : klabel_type
  precision : UInt

namespace derived_line

/-- The user-facing constructor. -/
def new (tk : Task) (at_ : axis_class) (sax : List axis_value) (prec : UInt) : Except String (derived_line Task) :=
  match sax with
  | [] => throw CPPTRANSPORT_PRODUCT_DERIVED_LINE_NO_AXIS_TYPES
  | front :: rest =>
    return {
      x_class := at_
      x_type := front
      supported_x_axes := front :: rest
      LaTeX_label := ""
      non_LaTeX_label := ""
      label_set := false
      use_tags := true
      parent_task := tk
      dot_meaning := .momenta
      klabel_meaning := .conventional
      precision := prec }

def set_current_x_axis_value (d : derived_line Task) (v : axis_value) : Except String (derived_line Task) :=
  if v ∈ d.supported_x_axes then .ok { d with x_type := v }
  else .error CPPTRANSPORT_PRODUCT_DERIVED_LINE_UNSUPPORTED_X_AXIS_TYPE

/-- What is written, with the array of the supported axes and the text of the current one. -/
def log (d : derived_line Task) (supported : Value) (current : String) : Log :=
  let root := CPPTRANSPORT_NODE_PRODUCT_DERIVED_LINE_ROOT
  [([root, CPPTRANSPORT_NODE_PRODUCT_DERIVED_LINE_TASK_NAME], .string (R.get_name d.parent_task)),
    ([root, CPPTRANSPORT_NODE_PRODUCT_DERIVED_LINE_PRECISION], .int d.precision.val),
    ([root, CPPTRANSPORT_NODE_PRODUCT_DERIVED_LINE_LABEL_SET], .bool d.label_set),
    ([root, CPPTRANSPORT_NODE_PRODUCT_DERIVED_LINE_LABEL_LATEX], .string d.LaTeX_label),
    ([root, CPPTRANSPORT_NODE_PRODUCT_DERIVED_LINE_LABEL_NONLATEX], .string d.non_LaTeX_label),
    ([root, CPPTRANSPORT_NODE_PRODUCT_DERIVED_LINE_LABEL_USE_TAGS], .bool d.use_tags),
    ([root, CPPTRANSPORT_NODE_PRODUCT_DERIVED_LINE_X_AXIS_CLASS], .string d.x_class.text),
    ([root, CPPTRANSPORT_NODE_PRODUCT_DERIVED_LINE_SUPPORTED_X_AXES], supported),
    ([root, CPPTRANSPORT_NODE_PRODUCT_DERIVED_LINE_CURRENT_X_AXIS_VALUE], .string current),
    ([root, CPPTRANSPORT_NODE_PRODUCT_DERIVED_LINE_DOT_TYPE], .string d.dot_meaning.text),
    ([root, CPPTRANSPORT_NODE_PRODUCT_DERIVED_LINE_KLABEL_TYPE], .string d.klabel_meaning.text)]

def serialize (d : derived_line Task) : Except String Log := do
  let supported ← writeList (fun value => return .string (← value.text)) d.supported_x_axes
  let current ← d.x_type.text
  return d.log R supported current

/-- The task of a name, as a task that lines can be derived from. -/
def find_parent_task (parent_task_name : String) : Except String Task := do
  let tk ← R.finder parent_task_name
  if R.get_type tk = .output then throw "parent_task != nullptr" else return tk

/-- The text of a value of the x-axis. -/
def read_axis_value (v : Value) : Except String axis_value :=
  asNamed axis_value.texts (unknown CPPTRANSPORT_PRODUCT_DERIVED_LINE_UNKNOWN_X_AXIS_VALUE) v

/-- The loop over the supported axes: a value that is there already is not added. -/
def read_supported_axes (v : Value) : Except String (List axis_value) := do
  (← v.asArray).foldlM (fun supported_x_axes t => do
    let value ← read_axis_value t
    return if value ∈ supported_x_axes then supported_x_axes else supported_x_axes ++ [value]) []

/-- The current value of the x-axis, which must be one of the supported ones. -/
def read_x_type (supported_x_axes : List axis_value) (v : Value) : Except String axis_value := do
  let x_type ← read_axis_value v
  if x_type ∈ supported_x_axes then return x_type
  else throw (unknown CPPTRANSPORT_PRODUCT_DERIVED_LINE_X_AXIS_NOT_SUPPORTED (← v.asString))

def deserialize (reader : Value) : Except String (derived_line Task) := do
  let root := CPPTRANSPORT_NODE_PRODUCT_DERIVED_LINE_ROOT
  let precision ← get [root, CPPTRANSPORT_NODE_PRODUCT_DERIVED_LINE_PRECISION] asUInt reader
  let label_set ← get [root, CPPTRANSPORT_NODE_PRODUCT_DERIVED_LINE_LABEL_SET] asBool reader
  let LaTeX_label ← get [root, CPPTRANSPORT_NODE_PRODUCT_DERIVED_LINE_LABEL_LATEX] asString reader
  let non_LaTeX_label ← get [root, CPPTRANSPORT_NODE_PRODUCT_DERIVED_LINE_LABEL_NONLATEX] asString reader
  let use_tags ← get [root, CPPTRANSPORT_NODE_PRODUCT_DERIVED_LINE_LABEL_USE_TAGS] asBool reader
  let parent_task_name ← get [root, CPPTRANSPORT_NODE_PRODUCT_DERIVED_LINE_TASK_NAME] asString reader
  let parent_task ← find_parent_task R parent_task_name
  let x_class ← get [root, CPPTRANSPORT_NODE_PRODUCT_DERIVED_LINE_X_AXIS_CLASS]
    (asNamed axis_class.texts (unknown CPPTRANSPORT_PRODUCT_DERIVED_LINE_UNKNOWN_X_AXIS_CLASS)) reader
  let supported_x_axes ← get [root, CPPTRANSPORT_NODE_PRODUCT_DERIVED_LINE_SUPPORTED_X_AXES] read_supported_axes reader
  let x_type ← get [root, CPPTRANSPORT_NODE_PRODUCT_DERIVED_LINE_CURRENT_X_AXIS_VALUE]
    (read_x_type supported_x_axes) reader
  let dot_meaning ← get [root, CPPTRANSPORT_NODE_PRODUCT_DERIVED_LINE_DOT_TYPE]
    (asNamed (named dot_type.text [.derivatives, .momenta])
      (unknown CPPTRANSPORT_PRODUCT_DERIVED_LINE_DOT_TYPE_UNKNOWN)) reader
  let klabel_meaning ← get [root, CPPTRANSPORT_NODE_PRODUCT_DERIVED_LINE_KLABEL_TYPE]
    (asNamed (named klabel_type.text [.conventional, .comoving])
      (unknown CPPTRANSPORT_PRODUCT_DERIVED_LINE_KLABEL_TYPE_UNKNOWN)) reader
  return {
    x_class, x_type, supported_x_axes, LaTeX_label, non_LaTeX_label, label_set, use_tags, parent_task, dot_meaning,
    klabel_meaning, precision }

/-- What holds of the base of each line that a constructor has made with these axes, whatever has been set since. -/
structure Constructed (cls : axis_class) (axes : List axis_value) (d : derived_line Task) : Prop where
  x_class_eq : d.x_class = cls
  supported_x_axes_eq : d.supported_x_axes = axes
  x_type_mem : d.x_type ∈ axes
  derivable : R.get_type d.parent_task ≠ .output

variable {R} {cls : axis_class} {axes : List axis_value} {d d' : derived_line Task}

theorem constructed_of_new {tk : Task} {prec : UInt} (htk : R.get_type tk ≠ .output)
    (h : new tk cls axes prec = .ok d) : d.Constructed R cls axes := by
  cases axes with
  | nil => cases h
  | cons front rest =>
    obtain rfl := Except.ok.inj h
    exact ⟨rfl, rfl, List.mem_cons_self, htk⟩

theorem Constructed.set_current_x_axis_value {v : axis_value} (h : d.Constructed R cls axes)
    (hset : d.set_current_x_axis_value v = .ok d') : d'.Constructed R cls axes := by
  rw [derived_line.set_current_x_axis_value] at hset
  split at hset
  case isTrue hmem =>
    obtain rfl := Except.ok.inj hset
    exact { h with x_type_mem := h.supported_x_axes_eq ▸ hmem }
  case isFalse => cases hset

/-- Axes that constructors pass: each once, and each a value that has a text. -/
def Proper (axes : List axis_value) : Prop := axes.Nodup ∧ .unset ∉ axes

instance : DecidablePred Proper := fun _ => inferInstanceAs (Decidable (_ ∧ _))

theorem text_ok {a : axis_value} (h : a ≠ .unset) :
    ∃ s, a.text = .ok s ∧ read_axis_value (.string s) = .ok a := by
  cases a
  case unset => exact absurd rfl h
  all_goals exact ⟨_, rfl, by rw [read_axis_value, asNamed_string rfl]⟩

/-- The supported axes are read back in their order. -/
theorem supported_axes_round_trip (h : Proper axes) :
    ∃ v, writeList (fun value : axis_value => return .string (← value.text)) axes = .ok v ∧
      read_supported_axes v = .ok axes := by
  -- the elements are read one by one, onto those that have been read before
  have hloop : ∀ rest done : List axis_value, (done ++ rest).Nodup → .unset ∉ rest → ∃ vs,
      rest.mapM (fun value : axis_value => (return .string (← value.text) : Except String Value)) = .ok vs ∧
        vs.foldlM (fun supported_x_axes t => do
          let value ← read_axis_value t
          return if value ∈ supported_x_axes then supported_x_axes else supported_x_axes ++ [value]) done =
            .ok (done ++ rest) := by
    intro rest
    induction rest with
    | nil => exact fun done _ _ => ⟨[], rfl, by rw [List.append_nil]; rfl⟩
    | cons a rest ih =>
      intro done hnodup hset
      obtain ⟨s, htext, hread⟩ := text_ok (fun ha : a = .unset => hset (ha ▸ List.mem_cons_self))
      have hnew : a ∉ done := fun ha => (List.nodup_append.mp hnodup).2.2 a ha a List.mem_cons_self rfl
      obtain ⟨vs, hwrite, hrest⟩ := ih (done ++ [a]) (by simpa using hnodup) fun h => hset (List.mem_cons_of_mem _ h)
      refine ⟨.string s :: vs, by rw [List.mapM_cons, htext, hwrite]; rfl, ?_⟩
      rw [List.foldlM_cons, hread, ok_bind, if_neg hnew]
      simpa using hrest
  obtain ⟨vs, hwrite, hread⟩ := hloop axes [] h.1 h.2
  exact ⟨.array vs, by rw [writeList, hwrite]; rfl, hread⟩

def paths : List (List String) :=
  [CPPTRANSPORT_NODE_PRODUCT_DERIVED_LINE_TASK_NAME, CPPTRANSPORT_NODE_PRODUCT_DERIVED_LINE_PRECISION,
    CPPTRANSPORT_NODE_PRODUCT_DERIVED_LINE_LABEL_SET, CPPTRANSPORT_NODE_PRODUCT_DERIVED_LINE_LABEL_LATEX,
    CPPTRANSPORT_NODE_PRODUCT_DERIVED_LINE_LABEL_NONLATEX, CPPTRANSPORT_NODE_PRODUCT_DERIVED_LINE_LABEL_USE_TAGS,
    CPPTRANSPORT_NODE_PRODUCT_DERIVED_LINE_X_AXIS_CLASS, CPPTRANSPORT_NODE_PRODUCT_DERIVED_LINE_SUPPORTED_X_AXES,
    CPPTRANSPORT_NODE_PRODUCT_DERIVED_LINE_CURRENT_X_AXIS_VALUE, CPPTRANSPORT_NODE_PRODUCT_DERIVED_LINE_DOT_TYPE,
    CPPTRANSPORT_NODE_PRODUCT_DERIVED_LINE_KLABEL_TYPE].map fun k => [CPPTRANSPORT_NODE_PRODUCT_DERIVED_LINE_ROOT, k]

/-- The base of a line is read back. -/
theorem reads_back (h : d.Constructed R cls axes) (haxes : Proper axes) :
    ∃ log, d.serialize R = .ok log ∧ log.map (·.1) = paths ∧
      ∀ v, Reads v log → derived_line.deserialize R v = .ok d := by
  obtain ⟨supported, hsupported, hread⟩ := supported_axes_round_trip haxes
  obtain ⟨current, htext, hcurrent⟩ := text_ok (fun hx : d.x_type = .unset => haxes.2 (hx ▸ h.x_type_mem))
  refine ⟨d.log R supported current, ?_, rfl, fun v hv => ?_⟩
  · rw [derived_line.serialize, h.supported_x_axes_eq, hsupported, htext]
    rfl
  simp only [derived_line.log, reads_cons] at hv
  obtain ⟨h₁, h₂, h₃, h₄, h₅, h₆, h₇, h₈, h₉, h₁₀, h₁₁, -⟩ := hv
  have hparent : find_parent_task R (R.get_name d.parent_task) = .ok d.parent_task := by
    rw [find_parent_task, R.found, ok_bind, if_neg h.derivable]
    rfl
  have hclass : axis_class.texts.lookup d.x_class.text = some d.x_class := by cases d.x_class <;> rfl
  have hx_type : read_x_type axes (.string current) = .ok d.x_type := by
    rw [read_x_type, hcurrent, ok_bind, if_pos h.x_type_mem]
    rfl
  have hdot : (named dot_type.text [.derivatives, .momenta]).lookup d.dot_meaning.text = some d.dot_meaning := by
    cases d.dot_meaning <;> rfl
  have hklabel : (named klabel_type.text [.conventional, .comoving]).lookup d.klabel_meaning.text =
      some d.klabel_meaning := by
    cases d.klabel_meaning <;> rfl
  simp only [derived_line.deserialize, get_of_read h₁, get_of_read h₂, get_of_read h₃, get_of_read h₄, get_of_read h₅,
    get_of_read h₆, get_of_read h₇, get_of_read h₈, get_of_read h₉, get_of_read h₁₀, get_of_read h₁₁, asUInt_int,
    asBool, asString, hparent, asNamed_string hclass, hread, hx_type, asNamed_string hdot, asNamed_string hklabel,
    ok_bind]
  rw [← h.supported_x_axes_eq]
  rfl

end derived_line

/-! ### What lines are about -/

/-- Which parameters the labels of a line for a three-point function name. -/
structure threepf_labels where
  use_kt_label : Bool
  use_alpha_label : Bool
  use_beta_label : Bool

namespace threepf_labels

def serialize (root : List String) (l : threepf_labels) : Log :=
  [(root ++ [CPPTRANSPORT_NODE_PRODUCT_DERIVED_LINE_THREEPF_LABEL_KT], .bool l.use_kt_label),
    (root ++ [CPPTRANSPORT_NODE_PRODUCT_DERIVED_LINE_THREEPF_LABEL_ALPHA], .bool l.use_alpha_label),
    (root ++ [CPPTRANSPORT_NODE_PRODUCT_DERIVED_LINE_THREEPF_LABEL_BETA], .bool l.use_beta_label)]

def deserialize (root : List String) (reader : Value) : Except String threepf_labels := do
  return {
    use_kt_label := ← get (root ++ [CPPTRANSPORT_NODE_PRODUCT_DERIVED_LINE_THREEPF_LABEL_KT]) asBool reader
    use_alpha_label := ← get (root ++ [CPPTRANSPORT_NODE_PRODUCT_DERIVED_LINE_THREEPF_LABEL_ALPHA]) asBool reader
    use_beta_label := ← get (root ++ [CPPTRANSPORT_NODE_PRODUCT_DERIVED_LINE_THREEPF_LABEL_BETA]) asBool reader }

def paths (root : List String) : List (List String) :=
  [CPPTRANSPORT_NODE_PRODUCT_DERIVED_LINE_THREEPF_LABEL_KT, CPPTRANSPORT_NODE_PRODUCT_DERIVED_LINE_THREEPF_LABEL_ALPHA,
    CPPTRANSPORT_NODE_PRODUCT_DERIVED_LINE_THREEPF_LABEL_BETA].map fun k => root ++ [k]

theorem deserialize_of_reads {root : List String} {l : threepf_labels} {v : Value} (h : Reads v (l.serialize root)) :
    deserialize root v = .ok l := by
  simp only [serialize, reads_cons] at h
  obtain ⟨hkt, halpha, hbeta, -⟩ := h
  simp only [deserialize, get_of_read hkt, get_of_read halpha, get_of_read hbeta, asBool, ok_bind]
  rfl

end threepf_labels

/-- The gadget of a line holds the task of the line, which is an integration task. -/
def UsesParent (base : derived_line Task) (gadget : integration_task_gadget Task) : Prop :=
  R.get_type base.parent_task = .integration ∧ gadget = .of R base.parent_task

theorem UsesParent.set_task {base : derived_line Task} {gadget : integration_task_gadget Task}
    (h : UsesParent R base gadget) : integration_task_gadget.set_task R base.parent_task = .ok gadget := by
  rw [integration_task_gadget.set_task_eq R h.1, h.2]

structure twopf_line (Task : Type) where
  gadget : integration_task_gadget Task
  active_indices : index_selector 2
  twopf_meaning : twopf_type
  dimensionless : Bool

def twopf_line.serialize (l : twopf_line Task) : Log :=
  l.active_indices.serialize ++
  [([CPPTRANSPORT_NODE_PRODUCT_DERIVED_TWOPF_LINE_ROOT, CPPTRANSPORT_NODE_PRODUCT_DERIVED_TWOPF_LINE_TYPE],
      .string l.twopf_meaning.text),
    ([CPPTRANSPORT_NODE_PRODUCT_DERIVED_TWOPF_LINE_ROOT, CPPTRANSPORT_NODE_PRODUCT_DERIVED_TWOPF_LINE_DIMENSIONLESS],
      .bool l.dimensionless)]

def twopf_line.deserialize (base : derived_line Task) (reader : Value) : Except String (twopf_line Task) := do
  let active_indices ← index_selector.deserialize reader
  let gadget ← integration_task_gadget.set_task R base.parent_task
  let dimensionless ← get [CPPTRANSPORT_NODE_PRODUCT_DERIVED_TWOPF_LINE_ROOT,
    CPPTRANSPORT_NODE_PRODUCT_DERIVED_TWOPF_LINE_DIMENSIONLESS] asBool reader
  let twopf_meaning ← get [CPPTRANSPORT_NODE_PRODUCT_DERIVED_TWOPF_LINE_ROOT,
    CPPTRANSPORT_NODE_PRODUCT_DERIVED_TWOPF_LINE_TYPE] (asNamed (named twopf_type.text [.real, .imaginary])
      (unknown CPPTRANSPORT_PRODUCT_DERIVED_LINE_TWOPF_TYPE_UNKNOWN)) reader
  return { gadget, active_indices, twopf_meaning, dimensionless }

/-- Where index selections are written. -/
def index_selector.paths : List (List String) :=
  [CPPTRANSPORT_NODE_INDEX_RANGE, CPPTRANSPORT_NODE_INDEX_FIELDS, CPPTRANSPORT_NODE_INDEX_TOGGLES].map
    fun k => [CPPTRANSPORT_NODE_INDEX_ROOT, k]

def twopf_line.part : Part (derived_line Task) (twopf_line Task) :=
  Part.ofReads twopf_line.serialize (twopf_line.deserialize R)
    (index_selector.paths ++
      [CPPTRANSPORT_NODE_PRODUCT_DERIVED_TWOPF_LINE_TYPE,
        CPPTRANSPORT_NODE_PRODUCT_DERIVED_TWOPF_LINE_DIMENSIONLESS].map
          fun k => [CPPTRANSPORT_NODE_PRODUCT_DERIVED_TWOPF_LINE_ROOT, k])
    (fun base l => UsesParent R base l.gadget) (fun _ => rfl) fun base l v h hreads => by
      simp only [twopf_line.serialize, reads_append, reads_cons] at hreads
      obtain ⟨hindices, htype, hdimensionless, -⟩ := hreads
      have hname : (named twopf_type.text [.real, .imaginary]).lookup l.twopf_meaning.text = some l.twopf_meaning := by
        cases l.twopf_meaning <;> rfl
      simp only [twopf_line.deserialize, index_selector.deserialize_of_reads hindices, h.set_task, get_of_read htype,
        get_of_read hdimensionless, asNamed_string hname, asBool, ok_bind]
      rfl

structure threepf_line (Task : Type) where
  gadget : integration_task_gadget Task
  active_indices : index_selector 3
  labels : threepf_labels
  dimensionless : Bool

def threepf_line.serialize (l : threepf_line Task) : Log :=
  l.active_indices.serialize ++ l.labels.serialize [CPPTRANSPORT_NODE_PRODUCT_DERIVED_THREEPF_LINE_ROOT] ++
  [([CPPTRANSPORT_NODE_PRODUCT_DERIVED_THREEPF_LINE_ROOT,
      CPPTRANSPORT_NODE_PRODUCT_DERIVED_THREEPF_LINE_DIMENSIONLESS], .bool l.dimensionless)]

def threepf_line.deserialize (base : derived_line Task) (reader : Value) : Except String (threepf_line Task) := do
  let active_indices ← index_selector.deserialize reader
  let gadget ← integration_task_gadget.set_task R base.parent_task
  let labels ← threepf_labels.deserialize [CPPTRANSPORT_NODE_PRODUCT_DERIVED_THREEPF_LINE_ROOT] reader
  let dimensionless ← get [CPPTRANSPORT_NODE_PRODUCT_DERIVED_THREEPF_LINE_ROOT,
    CPPTRANSPORT_NODE_PRODUCT_DERIVED_THREEPF_LINE_DIMENSIONLESS] asBool reader
  return { gadget, active_indices, labels, dimensionless }

def threepf_line.part : Part (derived_line Task) (threepf_line Task) :=
  Part.ofReads threepf_line.serialize (threepf_line.deserialize R)
    (index_selector.paths ++ threepf_labels.paths [CPPTRANSPORT_NODE_PRODUCT_DERIVED_THREEPF_LINE_ROOT] ++
      [[CPPTRANSPORT_NODE_PRODUCT_DERIVED_THREEPF_LINE_ROOT,
        CPPTRANSPORT_NODE_PRODUCT_DERIVED_THREEPF_LINE_DIMENSIONLESS]])
    (fun base l => UsesParent R base l.gadget) (fun _ => rfl) fun base l v h hreads => by
      simp only [threepf_line.serialize, reads_append, reads_cons] at hreads
      obtain ⟨⟨hindices, hlabels⟩, hdimensionless, -⟩ := hreads
      simp only [threepf_line.deserialize, index_selector.deserialize_of_reads hindices, h.set_task,
        threepf_labels.deserialize_of_reads hlabels, get_of_read hdimensionless, asBool, ok_bind]
      rfl

structure tensor_twopf_line (Task : Type) where
  gadget : integration_task_gadget Task
  active_indices : index_selector 2
  dimensionless : Bool

def tensor_twopf_line.serialize (l : tensor_twopf_line Task) : Log :=
  l.active_indices.serialize ++
  [([CPPTRANSPORT_NODE_PRODUCT_DERIVED_TENSOR_TWOPF_LINE_ROOT,
      CPPTRANSPORT_NODE_PRODUCT_DERIVED_TENSOR_TWOPF_LINE_DIMENSIONLESS], .bool l.dimensionless)]

def tensor_twopf_line.deserialize (base : derived_line Task) (reader : Value) :
    Except String (tensor_twopf_line Task) := do
  let active_indices ← index_selector.deserialize reader
  let gadget ← integration_task_gadget.set_task R base.parent_task
  let dimensionless ← get [CPPTRANSPORT_NODE_PRODUCT_DERIVED_TENSOR_TWOPF_LINE_ROOT,
    CPPTRANSPORT_NODE_PRODUCT_DERIVED_TENSOR_TWOPF_LINE_DIMENSIONLESS] asBool reader
  return { gadget, active_indices, dimensionless }

def tensor_twopf_line.part : Part (derived_line Task) (tensor_twopf_line Task) :=
  Part.ofReads tensor_twopf_line.serialize (tensor_twopf_line.deserialize R)
    (index_selector.paths ++ [[CPPTRANSPORT_NODE_PRODUCT_DERIVED_TENSOR_TWOPF_LINE_ROOT,
      CPPTRANSPORT_NODE_PRODUCT_DERIVED_TENSOR_TWOPF_LINE_DIMENSIONLESS]])
    (fun base l => UsesParent R base l.gadget) (fun _ => rfl) fun base l v h hreads => by
      simp only [tensor_twopf_line.serialize, reads_append, reads_cons] at hreads
      obtain ⟨hindices, hdimensionless, -⟩ := hreads
      simp only [tensor_twopf_line.deserialize, index_selector.deserialize_of_reads hindices, h.set_task,
        get_of_read hdimensionless, asBool, ok_bind]
      rfl

structure zeta_twopf_line where
  dimensionless : Bool

def zeta_twopf_line.serialize (l : zeta_twopf_line) : Log :=
  [([CPPTRANSPORT_NODE_PRODUCT_ZETA_TWOPF_LINE_ROOT, CPPTRANSPORT_NODE_PRODUCT_ZETA_TWOPF_LINE_DIMENSIONLESS],
    .bool l.dimensionless)]

def zeta_twopf_line.deserialize (reader : Value) : Except String zeta_twopf_line := do
  return { dimensionless := ← get [CPPTRANSPORT_NODE_PRODUCT_ZETA_TWOPF_LINE_ROOT,
    CPPTRANSPORT_NODE_PRODUCT_ZETA_TWOPF_LINE_DIMENSIONLESS] asBool reader }

structure zeta_threepf_line where
  labels : threepf_labels
  dimensionless : Bool

def zeta_threepf_line.serialize (l : zeta_threepf_line) : Log :=
  l.labels.serialize [CPPTRANSPORT_NODE_PRODUCT_ZETA_THREEPF_LINE_ROOT] ++
  [([CPPTRANSPORT_NODE_PRODUCT_ZETA_THREEPF_LINE_ROOT, CPPTRANSPORT_NODE_PRODUCT_ZETA_THREEPF_LINE_DIMENSIONLESS],
    .bool l.dimensionless)]

def zeta_threepf_line.deserialize (reader : Value) : Except String zeta_threepf_line := do
  let labels ← threepf_labels.deserialize [CPPTRANSPORT_NODE_PRODUCT_ZETA_THREEPF_LINE_ROOT] reader
  let dimensionless ← get [CPPTRANSPORT_NODE_PRODUCT_ZETA_THREEPF_LINE_ROOT,
    CPPTRANSPORT_NODE_PRODUCT_ZETA_THREEPF_LINE_DIMENSIONLESS] asBool reader
  return { labels, dimensionless }

/-- The labels are written into the object of the line itself. -/
structure zeta_reduced_bispectrum_line where
  labels : threepf_labels

def zeta_reduced_bispectrum_line.serialize (l : zeta_reduced_bispectrum_line) : Log := l.labels.serialize []

def zeta_reduced_bispectrum_line.deserialize (reader : Value) : Except String zeta_reduced_bispectrum_line := do
  return { labels := ← threepf_labels.deserialize [] reader }

/-- A line for the ratio of tensors to scalars. -/
structure r_line (Task : Type) where
  gadget : integration_task_gadget Task

def r_line.serialize (_ : r_line Task) : Log := []

/-- The integration task is the one that the parent task of the line reads. -/
def r_line.deserialize (base : derived_line Task) : Except String (r_line Task) := do
  match R.get_parent_task base.parent_task with
  | some tk => return { gadget := ← integration_task_gadget.set_task R tk }
  | none => throw "ptk != nullptr"

/-- The gadget of a line for `r` holds the integration task that the task of the line reads. -/
def UsesGrandparent (base : derived_line Task) (l : r_line Task) : Prop :=
  ∃ tk, R.get_parent_task base.parent_task = some tk ∧ R.get_type tk = .integration ∧ l.gadget = .of R tk

section Concepts

variable {C : Type}

def zeta_twopf_line.part : Part C zeta_twopf_line :=
  Part.ofReads zeta_twopf_line.serialize (fun _ => zeta_twopf_line.deserialize)
    [[CPPTRANSPORT_NODE_PRODUCT_ZETA_TWOPF_LINE_ROOT, CPPTRANSPORT_NODE_PRODUCT_ZETA_TWOPF_LINE_DIMENSIONLESS]]
    (fun _ _ => True) (fun _ => rfl) fun _ l v _ hreads => by
      simp only [zeta_twopf_line.serialize, reads_cons] at hreads
      rw [zeta_twopf_line.deserialize, get_of_read hreads.1]
      rfl

def zeta_threepf_line.part : Part C zeta_threepf_line :=
  Part.ofReads zeta_threepf_line.serialize (fun _ => zeta_threepf_line.deserialize)
    (threepf_labels.paths [CPPTRANSPORT_NODE_PRODUCT_ZETA_THREEPF_LINE_ROOT] ++
      [[CPPTRANSPORT_NODE_PRODUCT_ZETA_THREEPF_LINE_ROOT, CPPTRANSPORT_NODE_PRODUCT_ZETA_THREEPF_LINE_DIMENSIONLESS]])
    (fun _ _ => True) (fun _ => rfl) fun _ l v _ hreads => by
      simp only [zeta_threepf_line.serialize, reads_append, reads_cons] at hreads
      obtain ⟨hlabels, hdimensionless, -⟩ := hreads
      rw [zeta_threepf_line.deserialize, threepf_labels.deserialize_of_reads hlabels, get_of_read hdimensionless]
      rfl

def zeta_reduced_bispectrum_line.part : Part C zeta_reduced_bispectrum_line :=
  Part.ofReads zeta_reduced_bispectrum_line.serialize (fun _ => zeta_reduced_bispectrum_line.deserialize)
    (threepf_labels.paths []) (fun _ _ => True) (fun _ => rfl) fun _ l v _ hreads => by
      rw [zeta_reduced_bispectrum_line.deserialize, threepf_labels.deserialize_of_reads hreads]
      rfl

/-- A line for the amplitude of a template. -/
def fNL_line : Part C bispectrum_template :=
  Part.text [CPPTRANSPORT_NODE_PRODUCT_FNL_TEMPLATE] bispectrum_template.text
    (named bispectrum_template.text [.local, .equilateral, .orthogonal, .DBI])
    (unknown CPPTRANSPORT_PRODUCT_FNL_LINE_UNKNOWN_TEMPLATE) fun t => by cases t <;> rfl

def r_line.part : Part (derived_line Task) (r_line Task) :=
  Part.ofReads r_line.serialize (fun base _ => r_line.deserialize R base) [] (UsesGrandparent R) (fun _ => rfl)
    fun base l v h _ => by
      obtain ⟨tk, hparent, htype, hgadget⟩ := h
      rw [r_line.deserialize, hparent]
      simp only [integration_task_gadget.set_task_eq R htype, ok_bind, ← hgadget]
      rfl

/-! ### What lines run over -/

def time_series : Part C Unit := Part.nothing

/-- Whether the spectral index is computed. -/
structure wavenumber_series where
  compute_index : Bool

def wavenumber_series.part : Part C wavenumber_series :=
  Part.field [CPPTRANSPORT_NODE_PRODUCT_WAVENUMBER_SERIES_ROOT,
      CPPTRANSPORT_NODE_PRODUCT_WAVENUMBER_SERIES_SPECTRAL_INDEX]
    (fun l => .bool l.compute_index) (fun v => return { compute_index := ← v.asBool }) fun _ => rfl

/-! ### Members of other lines -/

/-- A gadget that is found again by the task of the line. -/
def gadget : Part (derived_line Task) (integration_task_gadget Task) :=
  Part.ofReads (fun _ => []) (fun base _ => integration_task_gadget.set_task R base.parent_task) [] (UsesParent R)
    (fun _ => rfl) fun _ _ _ h _ => h.set_task

def active_indices (indices : ℕ) : Part C (index_selector indices) :=
  Part.ofReads index_selector.serialize (fun _ => index_selector.deserialize) index_selector.paths (fun _ _ => True)
    (fun _ => rfl) fun _ _ _ _ => index_selector.deserialize_of_reads

def labels (root : List String) : Part C threepf_labels :=
  Part.ofReads (threepf_labels.serialize root) (fun _ => threepf_labels.deserialize root) (threepf_labels.paths root)
    (fun _ _ => True) (fun _ => rfl) fun _ _ _ _ => threepf_labels.deserialize_of_reads

def background_type : Part C background_quantity :=
  Part.text [CPPTRANSPORT_NODE_PRODUCT_BACKGROUND_LINE_TYPE] background_quantity.text
    (named background_quantity.text [.epsilon, .eta, .Hubble, .aHubble, .mass_spectrum, .norm_mass_spectrum])
    assert_false fun t => by cases t <;> rfl

def cost_type : Part C analysis_type :=
  Part.text [CPPTRANSPORT_NODE_PRODUCT_INTEGRATION_COST_TYPE] analysis_type.text
    (named analysis_type.text [.twopf, .threepf]) assert_false fun t => by cases t <;> rfl

def metric : Part C cost_metric :=
  Part.text [CPPTRANSPORT_NODE_PRODUCT_INTEGRATION_COST_METRIC] cost_metric.text
    (named cost_metric.text [.time, .steps]) assert_false fun t => by cases t <;> rfl

end Concepts

end CppTransport.Runtime.DerivedLines
