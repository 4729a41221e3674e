import CppTransport.Runtime.DerivedLines

/-!
# The classes of lines

A line is an object of one of 22 classes. The serializer of a class calls those of its bases and members one after the
other; its deserialization constructor first reads the base class `derived_line`, whose task the others look at. Which
error is reported when several members cannot be read is not followed.

## What is proved

No two serializers of a line write to the same member (`separate`), so a line is read back as it was written
(`line_round_trip`), with the exception of lines for the cost of an integration that select their configurations by a
two-point query: these are never read back.
-/

namespace CppTransport.Runtime.DerivedLines

open Library Json Value

variable {Task : Type} (R : Repository Task)

/-! ### Classes -/

inductive derived_line_type where
  | background
  | twopf_time
  | threepf_time
  | tensor_twopf_time
  | zeta_twopf_time
  | zeta_threepf_time
  | zeta_redbsp_time
  | twopf_wavenumber
  | threepf_wavenumber
  | tensor_twopf_wavenumber
  | zeta_twopf_wavenumber
  | zeta_threepf_wavenumber
  | zeta_redbsp_wavenumber
  | fNL_time
  | r_time
  | r_wavenumber
  | background_line
  | u2
  | u3
  | largest_u2
  | largest_u3
  | integration_cost

def derived_line_type.text : derived_line_type → String
  | background => "background"
  | twopf_time => "twopf-time-series"
  | threepf_time => "threepf-time-series"
  | tensor_twopf_time => "tensor-twopf-time-series"
  | zeta_twopf_time => "zeta-twopf-time-series"
  | zeta_threepf_time => "zeta-threepf-time-series"
  | zeta_redbsp_time => "zeta-reduced-bispectrum-time-series"
  | twopf_wavenumber => "twopf-k-series"
  | threepf_wavenumber => "threepf-k-series"
  | tensor_twopf_wavenumber => "tensor-twopf-k-series"
  | zeta_twopf_wavenumber => "zeta-twopf-k-series"
  | zeta_threepf_wavenumber => "zeta-threepf-k-series"
  | zeta_redbsp_wavenumber => "zeta-reduced-bispectrum-k-series"
  | fNL_time => "fNL-time-series"
  | r_time => "r-time-series"
  | r_wavenumber => "r-k-series"
  | background_line => "background-line"
  | u2 => "u2-line"
  | u3 => "u3-line"
  | largest_u2 => "largest-u2-line"
  | largest_u3 => "largest-u3-line"
  | integration_cost => "integration-cost"

/-- A class of lines: what its serializer writes before and after what the base class writes, and what its constructors
pass to the base class. -/
structure line_class (Task : Type) where
  type : derived_line_type
  {First Second : Type}
  before : Part (derived_line Task) First
  after : Part (derived_line Task) Second
  x_class : axis_class
  supported_x_axes : First → List axis_value

/-- An object of a class. -/
structure line_class.Object (c : line_class Task) where
  base : derived_line Task
  first : c.First
  second : c.Second

namespace line_class

variable (c : line_class Task)

def serialize (l : c.Object) : Except String Log := do
  let before ← c.before.serialize l.first
  let base ← l.base.serialize R
  let after ← c.after.serialize l.second
  return ([CPPTRANSPORT_NODE_PRODUCT_DERIVED_LINE_TYPE], .string c.type.text) :: before ++ base ++ after

/-- The deserialization constructor: the base class comes first, because the others look at its task. -/
def deserialize (reader : Value) : Except String c.Object := do
  let base ← derived_line.deserialize R reader
  let second ← c.after.deserialize base reader
  let first ← c.before.deserialize base reader
  return { base, first, second }

/-- What holds of lines that the constructors of the class have made, whatever has been set since. -/
structure Constructed (l : c.Object) : Prop where
  base : l.base.Constructed R c.x_class (c.supported_x_axes l.first)
  first : c.before.Fits l.base l.first
  second : c.after.Fits l.base l.second

/-- Whether the constructor reads back what a line writes. -/
def HasReader (l : c.Object) : Prop := c.before.Readable l.first ∧ c.after.Readable l.second

/-- Where the serializers of a line write. -/
def paths : List (List String) :=
  [CPPTRANSPORT_NODE_PRODUCT_DERIVED_LINE_TYPE] :: c.before.paths ++ derived_line.paths ++ c.after.paths

variable {R c}

theorem deserialize_eq_ok {l : c.Object} {v : Value} : c.deserialize R v = .ok l ↔
    derived_line.deserialize R v = .ok l.base ∧ c.after.deserialize l.base v = .ok l.second ∧
      c.before.deserialize l.base v = .ok l.first := by
  obtain ⟨base, first, second⟩ := l
  simp only [deserialize, bind_eq_ok, pure_eq_ok, Object.mk.injEq]
  grind

/-- The serializers of a line write to the paths of its class, and what they have written is read back if the line has
a reader. -/
theorem lawful {l : c.Object} (h : c.Constructed R l) (haxes : derived_line.Proper (c.supported_x_axes l.first)) :
    ∃ log, c.serialize R l = .ok log ∧ (log.map (·.1)).Sublist c.paths ∧ ∀ v, Reads v log →
      read [CPPTRANSPORT_NODE_PRODUCT_DERIVED_LINE_TYPE] v = .ok (.string c.type.text) ∧
        (c.deserialize R v = .ok l ↔ c.HasReader l) := by
  obtain ⟨before, hbefore, before_paths, before_reads⟩ := c.before.lawful h.first
  obtain ⟨base, hbase, base_paths, base_reads⟩ := derived_line.reads_back h.base haxes
  obtain ⟨after, hafter, after_paths, after_reads⟩ := c.after.lawful h.second
  refine ⟨_, by rw [line_class.serialize, hbefore, hbase, hafter]; rfl, ?_, fun v hv => ?_⟩
  · rw [List.cons_append, List.cons_append, List.map_cons, List.map_append, List.map_append, base_paths, paths,
      List.cons_append, List.cons_append]
    exact .cons_cons _ ((before_paths.append (.refl _)).append after_paths)
  · simp only [List.cons_append, reads_cons, reads_append] at hv
    obtain ⟨htype, ⟨hv₁, hv₂⟩, hv₃⟩ := hv
    refine ⟨htype, ?_⟩
    rw [deserialize_eq_ok, before_reads v hv₁, after_reads v hv₃, HasReader, and_iff_right (base_reads v hv₂), and_comm]

end line_class

/-! The axes that constructors pass to the base class. -/

def time_axes : List axis_value := [.efolds]

def twopf_axes : List axis_value := [.k, .efolds_exit]

def threepf_axes : List axis_value := [.k, .efolds_exit, .alpha, .beta, .squeeze_k1, .squeeze_k2, .squeeze_k3]

/-- The classes for correlation functions at a series of times: the queries come first, then the base class, what the
line is about and the series. -/
def correlation_time_series {Query Line : Type} (type : derived_line_type) (kquery : Part (derived_line Task) Query)
    (line : Part (derived_line Task) Line) : line_class Task where
  type := type
  before := time_query.and kquery
  after := line.and time_series
  x_class := .time
  supported_x_axes _ := time_axes

/-- The classes for correlation functions at a series of wavenumbers. -/
def correlation_wavenumber_series {Query Line : Type} (type : derived_line_type)
    (kquery : Part (derived_line Task) Query) (line : Part (derived_line Task) Line) (axes : List axis_value) :
    line_class Task where
  type := type
  before := time_query.and kquery
  after := line.and wavenumber_series.part
  x_class := .wavenumber
  supported_x_axes _ := axes

def twopf_time_series : line_class Task :=
  correlation_time_series .twopf_time twopf_query (twopf_line.part R)

def threepf_time_series : line_class Task :=
  correlation_time_series .threepf_time threepf_query (threepf_line.part R)

def tensor_twopf_time_series : line_class Task :=
  correlation_time_series .tensor_twopf_time twopf_query (tensor_twopf_line.part R)

def zeta_twopf_time_series : line_class Task :=
  correlation_time_series .zeta_twopf_time twopf_query zeta_twopf_line.part

def zeta_threepf_time_series : line_class Task :=
  correlation_time_series .zeta_threepf_time threepf_query zeta_threepf_line.part

def zeta_reduced_bispectrum_time_series : line_class Task :=
  correlation_time_series .zeta_redbsp_time threepf_query zeta_reduced_bispectrum_line.part

def r_time_series : line_class Task :=
  correlation_time_series .r_time twopf_query (r_line.part R)

def twopf_wavenumber_series : line_class Task :=
  correlation_wavenumber_series .twopf_wavenumber twopf_query (twopf_line.part R) twopf_axes

def threepf_wavenumber_series : line_class Task :=
  correlation_wavenumber_series .threepf_wavenumber threepf_query (threepf_line.part R) threepf_axes

def tensor_twopf_wavenumber_series : line_class Task :=
  correlation_wavenumber_series .tensor_twopf_wavenumber twopf_query (tensor_twopf_line.part R) twopf_axes

def zeta_twopf_wavenumber_series : line_class Task :=
  correlation_wavenumber_series .zeta_twopf_wavenumber twopf_query zeta_twopf_line.part twopf_axes

def zeta_threepf_wavenumber_series : line_class Task :=
  correlation_wavenumber_series .zeta_threepf_wavenumber threepf_query zeta_threepf_line.part threepf_axes

def zeta_reduced_bispectrum_wavenumber_series : line_class Task :=
  correlation_wavenumber_series .zeta_redbsp_wavenumber threepf_query zeta_reduced_bispectrum_line.part threepf_axes

def r_wavenumber_series : line_class Task :=
  correlation_wavenumber_series .r_wavenumber twopf_query (r_line.part R) twopf_axes

def background_time_series : line_class Task where
  type := .background
  before := (active_indices 1).and (time_query.and (time_series.and (gadget R)))
  after := Part.nothing
  x_class := .time
  supported_x_axes _ := time_axes

def fNL_time_series : line_class Task where
  type := .fNL_time
  before := time_query
  after := fNL_line.and time_series
  x_class := .time
  supported_x_axes _ := time_axes

def background_line : line_class Task where
  type := .background_line
  before := time_query.and (background_type.and (time_series.and (gadget R)))
  after := Part.nothing
  x_class := .time
  supported_x_axes _ := time_axes

def u2_line : line_class Task where
  type := .u2
  before := time_query.and (twopf_query.and ((active_indices 2).and (time_series.and (gadget R))))
  after := Part.nothing
  x_class := .time
  supported_x_axes _ := time_axes

def u3_line : line_class Task where
  type := .u3
  before := time_query.and (threepf_query.and ((active_indices 3).and
    ((labels [CPPTRANSPORT_NODE_PRODUCT_DERIVED_U3_LINE_ROOT]).and (time_series.and (gadget R)))))
  after := Part.nothing
  x_class := .time
  supported_x_axes _ := time_axes

def largest_u2_line : line_class Task where
  type := .largest_u2
  before := time_query.and (twopf_query.and (time_series.and (gadget R)))
  after := Part.nothing
  x_class := .time
  supported_x_axes _ := time_axes

def largest_u3_line : line_class Task where
  type := .largest_u3
  before := time_query.and (threepf_query.and
    ((labels [CPPTRANSPORT_NODE_PRODUCT_DERIVED_LARGEST_U3_LINE_ROOT]).and (time_series.and (gadget R))))
  after := Part.nothing
  x_class := .time
  supported_x_axes _ := time_axes

/-- The axes that the two constructors of lines for the cost of an integration pass: there is one for each class of
query for wavenumbers. -/
def cost_axes : SQL_query → List axis_value
  | .time _ => []
  | .twopf _ => twopf_axes
  | .threepf _ => threepf_axes

def cost_wavenumber : line_class Task where
  type := .integration_cost
  before := kconfig_query.and (cost_type.and (metric.and (wavenumber_series.part.and (gadget R))))
  after := Part.nothing
  x_class := .wavenumber
  supported_x_axes first := cost_axes first.1

/-- The class of each type of line. -/
def derived_line_type.cls : derived_line_type → line_class Task
  | background => background_time_series R
  | twopf_time => twopf_time_series R
  | threepf_time => threepf_time_series R
  | tensor_twopf_time => tensor_twopf_time_series R
  | zeta_twopf_time => zeta_twopf_time_series
  | zeta_threepf_time => zeta_threepf_time_series
  | zeta_redbsp_time => zeta_reduced_bispectrum_time_series
  | twopf_wavenumber => twopf_wavenumber_series R
  | threepf_wavenumber => threepf_wavenumber_series R
  | tensor_twopf_wavenumber => tensor_twopf_wavenumber_series R
  | zeta_twopf_wavenumber => zeta_twopf_wavenumber_series
  | zeta_threepf_wavenumber => zeta_threepf_wavenumber_series
  | zeta_redbsp_wavenumber => zeta_reduced_bispectrum_wavenumber_series
  | fNL_time => fNL_time_series
  | r_time => r_time_series R
  | r_wavenumber => r_wavenumber_series R
  | background_line => DerivedLines.background_line R
  | u2 => u2_line R
  | u3 => u3_line R
  | largest_u2 => largest_u2_line R
  | largest_u3 => largest_u3_line R
  | integration_cost => cost_wavenumber R

/-! ### Lines -/

/-- A line of any class. -/
abbrev line : Type := (t : derived_line_type) × (t.cls R).Object

/-- An element of the array of lines. -/
def line.serialize (l : line R) : Except String Value := do writeAll (← (l.1.cls R).serialize R l.2) (.object [])

/-- The types, in the order in which they are compared. -/
def derived_line_helper.types : List (String × derived_line_type) :=
  named derived_line_type.text [.background, .twopf_time, .threepf_time, .tensor_twopf_time, .zeta_twopf_time,
    .zeta_threepf_time, .zeta_redbsp_time, .twopf_wavenumber, .threepf_wavenumber, .tensor_twopf_wavenumber,
    .zeta_twopf_wavenumber, .zeta_threepf_wavenumber, .zeta_redbsp_wavenumber, .fNL_time, .r_time, .r_wavenumber,
    .background_line, .u2, .u3, .largest_u2, .largest_u3, .integration_cost]

/-- `derived_line_helper::deserialize`. -/
def derived_line_helper.deserialize (reader : Value) : Except String (line R) := do
  let type ← get [CPPTRANSPORT_NODE_PRODUCT_DERIVED_LINE_TYPE]
    (asNamed types (unknown CPPTRANSPORT_PRODUCT_DERIVED_LINE_CONTENT_TYPE_UNKNOWN)) reader
  return ⟨type, ← (type.cls R).deserialize R reader⟩

/-- What holds of each line that has been made by a constructor. -/
def line.Constructed (l : line R) : Prop := (l.1.cls R).Constructed R l.2

/-- Lines that are read back: all but those for the cost of an integration with a two-point query. -/
def line.HasReader : line R → Prop
  | ⟨.integration_cost, l⟩ => SQL_query.HasReader l.first.1
  | _ => True

variable {R}

theorem cls_type (t : derived_line_type) : (t.cls R).type = t := by cases t <;> rfl

theorem lookup_type (t : derived_line_type) : derived_line_helper.types.lookup t.text = some t := by cases t <;> rfl

theorem proper_axes (t : derived_line_type) (first : (t.cls R).First) :
    derived_line.Proper ((t.cls R).supported_x_axes first) := by
  have htime : derived_line.Proper time_axes := by decide
  have htwopf : derived_line.Proper twopf_axes := by decide
  have hthreepf : derived_line.Proper threepf_axes := by decide
  have hcost : ∀ q, derived_line.Proper (cost_axes q)
    | .time _ => ⟨List.nodup_nil, List.not_mem_nil⟩
    | .twopf _ => htwopf
    | .threepf _ => hthreepf
  cases t <;> first | exact htime | exact htwopf | exact hthreepf | exact hcost _

/-- **No two serializers of a line write to the same member.** -/
theorem separate (t : derived_line_type) : Separate (t.cls R).paths := by
  cases t <;> exact of_decide_eq_true rfl

theorem hasReader_iff (l : line R) : (l.1.cls R).HasReader l.2 ↔ l.HasReader := by
  obtain ⟨t, l⟩ := l
  cases t
  case integration_cost => exact ⟨fun h => h.1.1, fun h => ⟨⟨h, trivial, trivial, trivial, trivial⟩, trivial⟩⟩
  all_goals
    refine iff_of_true ?_ trivial
    repeat' first | exact trivial | refine ⟨?_, ?_⟩

/-- **Round trip of a line**: its serializers keep out of one another's way, and it is read back as it was, in all its
settings, if and only if it has a reader. -/
theorem line_round_trip {l : line R} (h : l.Constructed) : ∃ log v, (l.1.cls R).serialize R l.2 = .ok log ∧
    Separate (log.map (·.1)) ∧ l.serialize R = .ok v ∧ (derived_line_helper.deserialize R v = .ok l ↔ l.HasReader) := by
  obtain ⟨log, hlog, hpaths, hreads⟩ := line_class.lawful h (proper_axes l.1 l.2.first)
  have hseparate : Separate (log.map (·.1)) := List.Pairwise.sublist hpaths (separate l.1)
  obtain ⟨v, hv, hall⟩ := read_writeAll hseparate
  obtain ⟨htype, hiff⟩ := hreads v hall
  refine ⟨log, v, hlog, hseparate, by rw [line.serialize, hlog, ok_bind, hv], ?_⟩
  rw [cls_type] at htype
  rw [← hasReader_iff, ← hiff, derived_line_helper.deserialize, get_of_read htype, asNamed_string (lookup_type l.1),
    ok_bind, bind_eq_ok]
  obtain ⟨t, l⟩ := l
  simp [pure_eq_ok]

end CppTransport.Runtime.DerivedLines
