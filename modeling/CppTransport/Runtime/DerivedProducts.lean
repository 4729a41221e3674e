import CppTransport.Runtime.LineClasses

/-!
# Derived products

A derived product is a collection of lines with the attributes of a plot or of a table. Lines are added one by one, or
several at once; a line whose x-axis is not that of the first one is refused, and what has been added before it stays.
A product is written as one JSON object, with an array of its lines, and read back from it under its name.

## What is proved

Whatever calls have been made on a product, it is read back as it is, with the same attributes and with equal lines in
the same order, if and only if none of its lines is one for the cost of an integration with a two-point query and its
legend, if it is a plot, is neither at the centre above nor at the centre below (`product_round_trips_iff`). The
constructor of plots takes each of these two positions for the other one.
-/

namespace CppTransport.Runtime.DerivedProducts

open Library Json Value DerivedLines

/-! ### Keys and messages -/

def CPPTRANSPORT_NODE_DERIVED_PRODUCT_TYPE : String := "derived-product-type"
def CPPTRANSPORT_NODE_DERIVED_PRODUCT_LINE_PLOT2D : String := "line-plot2d"
def CPPTRANSPORT_NODE_DERIVED_PRODUCT_LINE_ASCIITABLE : String := "line-asciitable"
def CPPTRANSPORT_NODE_DERIVED_PRODUCT_FILENAME : String := "filename"
def CPPTRANSPORT_NODE_DERIVED_PRODUCT_DESCRIPTION : String := "description"

def CPPTRANSPORT_NODE_PRODUCT_LINE_COLLECTION_ROOT : String := "line-collection"
def CPPTRANSPORT_NODE_PRODUCT_LINE_COLLECTION_LOGX : String := "log-x"
def CPPTRANSPORT_NODE_PRODUCT_LINE_COLLECTION_LOGY : String := "log-y"
def CPPTRANSPORT_NODE_PRODUCT_LINE_COLLECTION_ABSY : String := "abs-y"
def CPPTRANSPORT_NODE_PRODUCT_LINE_COLLECTION_LATEX : String := "latex"
def CPPTRANSPORT_NODE_PRODUCT_LINE_COLLECTION_LINE_ARRAY : String := "line-array"

def CPPTRANSPORT_NODE_PRODUCT_LINE_PLOT2D_ROOT : String := "line-plot2d"
def CPPTRANSPORT_NODE_PRODUCT_LINE_PLOT2D_REVERSEX : String := "reverse-x"
def CPPTRANSPORT_NODE_PRODUCT_LINE_PLOT2D_REVERSEY : String := "reverse-y"
def CPPTRANSPORT_NODE_PRODUCT_LINE_PLOT2D_XLABEL : String := "x-label"
def CPPTRANSPORT_NODE_PRODUCT_LINE_PLOT2D_XLABEL_TEXT : String := "x-label-text"
def CPPTRANSPORT_NODE_PRODUCT_LINE_PLOT2D_YLABEL : String := "y-label"
def CPPTRANSPORT_NODE_PRODUCT_LINE_PLOT2D_YLABEL_TEXT : String := "y-label-text"
def CPPTRANSPORT_NODE_PRODUCT_LINE_PLOT2D_TITLE : String := "title"
def CPPTRANSPORT_NODE_PRODUCT_LINE_PLOT2D_TITLE_TEXT : String := "title-text"
def CPPTRANSPORT_NODE_PRODUCT_LINE_PLOT2D_LEGEND : String := "legend"
def CPPTRANSPORT_NODE_PRODUCT_LINE_PLOT2D_LEGEND_POS : String := "legend-position"
def CPPTRANSPORT_NODE_PRODUCT_LINE_PLOT2D_DASH_SECOND : String := "dash-second-axis"
def CPPTRANSPORT_NODE_PRODUCT_LINE_PLOT2D_X_LABEL_SET : String := "x-label-set"
def CPPTRANSPORT_NODE_PRODUCT_LINE_PLOT2D_Y_LABEL_SET : String := "y-label-set"
def CPPTRANSPORT_NODE_PRODUCT_LINE_PLOT2D_TITLE_SET : String := "title-set"
def CPPTRANSPORT_NODE_PRODUCT_LINE_PLOT2D_TYPESET_LATEX : String := "typeset-with-latex"
def CPPTRANSPORT_NODE_PRODUCT_LINE_PLOT2D_LEGEND_TR : String := "top-right"
def CPPTRANSPORT_NODE_PRODUCT_LINE_PLOT2D_LEGEND_BR : String := "bottom-right"
def CPPTRANSPORT_NODE_PRODUCT_LINE_PLOT2D_LEGEND_BL : String := "bottom-left"
def CPPTRANSPORT_NODE_PRODUCT_LINE_PLOT2D_LEGEND_TL : String := "top-left"
def CPPTRANSPORT_NODE_PRODUCT_LINE_PLOT2D_LEGEND_R : String := "right"
def CPPTRANSPORT_NODE_PRODUCT_LINE_PLOT2D_LEGEND_CR : String := "centre-right"
def CPPTRANSPORT_NODE_PRODUCT_LINE_PLOT2D_LEGEND_CL : String := "centre-left"
def CPPTRANSPORT_NODE_PRODUCT_LINE_PLOT2D_LEGEND_UC : String := "upper-centre"
def CPPTRANSPORT_NODE_PRODUCT_LINE_PLOT2D_LEGEND_LC : String := "lower-centre"
def CPPTRANSPORT_NODE_PRODUCT_LINE_PLOT2D_LEGEND_C : String := "centre"

def CPPTRANSPORT_NODE_PRODUCT_LINE_ASCIITABLE_ROOT : String := "line-asciitable"
def CPPTRANSPORT_NODE_PRODUCT_LINE_ASCIITABLE_PRECISION : String := "precision"
def CPPTRANSPORT_NODE_PRODUCT_LINE_ASCIITABLE_X_LABEL : String := "x-label"
def CPPTRANSPORT_NODE_PRODUCT_LINE_ASCIITABLE_X_LABEL_SET : String := "x-label-set"
def CPPTRANSPORT_NODE_PRODUCT_LINE_ASCIITABLE_FORMAT : String := "format"

def CPPTRANSPORT_PRODUCT_LINE_COLLECTION_AXIS_MISMATCH : String :=
  "line_collection: attempt to add new line group with axis type which doesn't agree with existing axes"
def CPPTRANSPORT_PRODUCT_LINE_PLOT2D_UNKNOWN_LEG_POS : String := "Internal error: unknown legend position"
def CPPTRANSPORT_PRODUCT_LINE_ASCIITABLE_UNSUPPORTED_TYPE : String := "line_asciitable error: Unknown table type"
def CPPTRANSPORT_PRODUCT_UNKNOWN_TYPE : String := "Internal error: Unknown derived-product type"

variable {Task : Type} (R : Repository Task)

/-! ### Products and collections -/

/-- The name of a product is kept in its record, not in what is written here. -/
structure derived_product where
  name : String
  description : String
  filename : String

def derived_product.serialize (p : derived_product) : Log :=
  [([CPPTRANSPORT_NODE_DERIVED_PRODUCT_DESCRIPTION], .string p.description),
    ([CPPTRANSPORT_NODE_DERIVED_PRODUCT_FILENAME], .string p.filename)]

def derived_product.deserialize (name : String) (reader : Value) : Except String derived_product := do
  let description ← get [CPPTRANSPORT_NODE_DERIVED_PRODUCT_DESCRIPTION] asString reader
  let filename ← get [CPPTRANSPORT_NODE_DERIVED_PRODUCT_FILENAME] asString reader
  return { name, description, filename }

structure line_collection extends derived_product where
  log_x : Bool
  log_y : Bool
  abs_y : Bool
  use_LaTeX : Bool
  lines : List (line R)

/-- The value that the x-axis of a line shows. -/
def get_current_x_axis_value (l : line R) : axis_value := l.2.base.x_type

namespace line_collection

variable {R}

/-- A copy of a line is added, if its x-axis is that of the first line. -/
def add_line (c : line_collection R) (l : line R) : Except String (line_collection R) :=
  match c.lines with
  | [] => .ok { c with lines := [l] }
  | front :: rest =>
    if get_current_x_axis_value R l ≠ get_current_x_axis_value R front then
      .error CPPTRANSPORT_PRODUCT_LINE_COLLECTION_AXIS_MISMATCH
    else .ok { c with lines := front :: rest ++ [l] }

/-- What a call of `add_line` leaves: a collection that refuses the line is as it was. -/
def after_add_line (c : line_collection R) (l : line R) : line_collection R :=
  match c.add_line l with
  | .ok c' => c'
  | .error _ => c

/-- What `+=` leaves of a collection: the first line that is refused ends the loop. -/
def after_add_lines (c : line_collection R) : List (line R) → line_collection R
  | [] => c
  | l :: ls =>
    match c.add_line l with
    | .ok c' => c'.after_add_lines ls
    | .error _ => c

variable (R)

/-- What is written, with the array of the lines. -/
def log (c : line_collection R) (line_array : Value) : Log :=
  let root := CPPTRANSPORT_NODE_PRODUCT_LINE_COLLECTION_ROOT
  [([root, CPPTRANSPORT_NODE_PRODUCT_LINE_COLLECTION_LOGX], .bool c.log_x),
    ([root, CPPTRANSPORT_NODE_PRODUCT_LINE_COLLECTION_LOGY], .bool c.log_y),
    ([root, CPPTRANSPORT_NODE_PRODUCT_LINE_COLLECTION_ABSY], .bool c.abs_y),
    ([root, CPPTRANSPORT_NODE_PRODUCT_LINE_COLLECTION_LATEX], .bool c.use_LaTeX),
    ([root, CPPTRANSPORT_NODE_PRODUCT_LINE_COLLECTION_LINE_ARRAY], line_array)] ++ c.toderived_product.serialize

def serialize (c : line_collection R) : Except String Log := do
  return c.log R (← writeList (line.serialize R) c.lines)

def deserialize (name : String) (reader : Value) : Except String (line_collection R) := do
  let root := CPPTRANSPORT_NODE_PRODUCT_LINE_COLLECTION_ROOT
  let product ← derived_product.deserialize name reader
  let log_x ← get [root, CPPTRANSPORT_NODE_PRODUCT_LINE_COLLECTION_LOGX] asBool reader
  let log_y ← get [root, CPPTRANSPORT_NODE_PRODUCT_LINE_COLLECTION_LOGY] asBool reader
  let abs_y ← get [root, CPPTRANSPORT_NODE_PRODUCT_LINE_COLLECTION_ABSY] asBool reader
  let use_LaTeX ← get [root, CPPTRANSPORT_NODE_PRODUCT_LINE_COLLECTION_LATEX] asBool reader
  let lines ← get [root, CPPTRANSPORT_NODE_PRODUCT_LINE_COLLECTION_LINE_ARRAY]
    (readList (derived_line_helper.deserialize R)) reader
  return { toderived_product := product, log_x, log_y, abs_y, use_LaTeX, lines }

end line_collection

/-! ### Plots -/

inductive legend_pos where
  | top_left
  | top_right
  | bottom_left
  | bottom_right
  | right
  | centre_right
  | centre_left
  | upper_centre
  | lower_centre
  | centre
deriving DecidableEq

def legend_pos.text : legend_pos → String
  | top_left => CPPTRANSPORT_NODE_PRODUCT_LINE_PLOT2D_LEGEND_TL
  | top_right => CPPTRANSPORT_NODE_PRODUCT_LINE_PLOT2D_LEGEND_TR
  | bottom_left => CPPTRANSPORT_NODE_PRODUCT_LINE_PLOT2D_LEGEND_BL
  | bottom_right => CPPTRANSPORT_NODE_PRODUCT_LINE_PLOT2D_LEGEND_BR
  | right => CPPTRANSPORT_NODE_PRODUCT_LINE_PLOT2D_LEGEND_R
  | centre_right => CPPTRANSPORT_NODE_PRODUCT_LINE_PLOT2D_LEGEND_CR
  | centre_left => CPPTRANSPORT_NODE_PRODUCT_LINE_PLOT2D_LEGEND_CL
  | upper_centre => CPPTRANSPORT_NODE_PRODUCT_LINE_PLOT2D_LEGEND_UC
  | lower_centre => CPPTRANSPORT_NODE_PRODUCT_LINE_PLOT2D_LEGEND_LC
  | centre => CPPTRANSPORT_NODE_PRODUCT_LINE_PLOT2D_LEGEND_C

/-- The comparisons of the deserialization constructor. -/
def legend_pos.texts : List (String × legend_pos) :=
  [(CPPTRANSPORT_NODE_PRODUCT_LINE_PLOT2D_LEGEND_TL, top_left),
    (CPPTRANSPORT_NODE_PRODUCT_LINE_PLOT2D_LEGEND_TR, top_right),
    (CPPTRANSPORT_NODE_PRODUCT_LINE_PLOT2D_LEGEND_BL, bottom_left),
    (CPPTRANSPORT_NODE_PRODUCT_LINE_PLOT2D_LEGEND_BR, bottom_right),
    (CPPTRANSPORT_NODE_PRODUCT_LINE_PLOT2D_LEGEND_R, right),
    (CPPTRANSPORT_NODE_PRODUCT_LINE_PLOT2D_LEGEND_CR, centre_right),
    (CPPTRANSPORT_NODE_PRODUCT_LINE_PLOT2D_LEGEND_CL, centre_left),
    -- these two are the other way round
    (CPPTRANSPORT_NODE_PRODUCT_LINE_PLOT2D_LEGEND_UC, lower_centre),
    (CPPTRANSPORT_NODE_PRODUCT_LINE_PLOT2D_LEGEND_LC, upper_centre),
    (CPPTRANSPORT_NODE_PRODUCT_LINE_PLOT2D_LEGEND_C, centre)]

structure line_plot2d extends line_collection R where
  reverse_x : Bool
  reverse_y : Bool
  x_label : Bool
  x_label_text : String
  y_label : Bool
  y_label_text : String
  title : Bool
  title_text : String
  legend : Bool
  position : legend_pos
  dash_second_axis : Bool
  x_label_set : Bool
  y_label_set : Bool
  title_set : Bool
  typeset_with_LaTeX : Bool

namespace line_plot2d

/-- What the serializer of plots writes itself. -/
def log (p : line_plot2d R) : Log :=
  let root := CPPTRANSPORT_NODE_PRODUCT_LINE_PLOT2D_ROOT
  [([CPPTRANSPORT_NODE_DERIVED_PRODUCT_TYPE], .string CPPTRANSPORT_NODE_DERIVED_PRODUCT_LINE_PLOT2D),
    ([root, CPPTRANSPORT_NODE_PRODUCT_LINE_PLOT2D_REVERSEX], .bool p.reverse_x),
    ([root, CPPTRANSPORT_NODE_PRODUCT_LINE_PLOT2D_REVERSEY], .bool p.reverse_y),
    ([root, CPPTRANSPORT_NODE_PRODUCT_LINE_PLOT2D_XLABEL], .bool p.x_label),
    ([root, CPPTRANSPORT_NODE_PRODUCT_LINE_PLOT2D_XLABEL_TEXT], .string p.x_label_text),
    ([root, CPPTRANSPORT_NODE_PRODUCT_LINE_PLOT2D_YLABEL], .bool p.y_label),
    ([root, CPPTRANSPORT_NODE_PRODUCT_LINE_PLOT2D_YLABEL_TEXT], .string p.y_label_text),
    ([root, CPPTRANSPORT_NODE_PRODUCT_LINE_PLOT2D_TITLE], .bool p.title),
    ([root, CPPTRANSPORT_NODE_PRODUCT_LINE_PLOT2D_TITLE_TEXT], .string p.title_text),
    ([root, CPPTRANSPORT_NODE_PRODUCT_LINE_PLOT2D_LEGEND], .bool p.legend),
    ([root, CPPTRANSPORT_NODE_PRODUCT_LINE_PLOT2D_DASH_SECOND], .bool p.dash_second_axis),
    ([root, CPPTRANSPORT_NODE_PRODUCT_LINE_PLOT2D_X_LABEL_SET], .bool p.x_label_set),
    ([root, CPPTRANSPORT_NODE_PRODUCT_LINE_PLOT2D_Y_LABEL_SET], .bool p.y_label_set),
    ([root, CPPTRANSPORT_NODE_PRODUCT_LINE_PLOT2D_TITLE_SET], .bool p.title_set),
    ([root, CPPTRANSPORT_NODE_PRODUCT_LINE_PLOT2D_LEGEND_POS], .string p.position.text),
    ([root, CPPTRANSPORT_NODE_PRODUCT_LINE_PLOT2D_TYPESET_LATEX], .bool p.typeset_with_LaTeX)]

def serialize (p : line_plot2d R) : Except String Log := do
  return p.log R ++ (← p.toline_collection.serialize R)

def deserialize (name : String) (reader : Value) : Except String (line_plot2d R) := do
  let root := CPPTRANSPORT_NODE_PRODUCT_LINE_PLOT2D_ROOT
  let collection ← line_collection.deserialize R name reader
  let reverse_x ← get [root, CPPTRANSPORT_NODE_PRODUCT_LINE_PLOT2D_REVERSEX] asBool reader
  let reverse_y ← get [root, CPPTRANSPORT_NODE_PRODUCT_LINE_PLOT2D_REVERSEY] asBool reader
  let x_label ← get [root, CPPTRANSPORT_NODE_PRODUCT_LINE_PLOT2D_XLABEL] asBool reader
  let x_label_text ← get [root, CPPTRANSPORT_NODE_PRODUCT_LINE_PLOT2D_XLABEL_TEXT] asString reader
  let y_label ← get [root, CPPTRANSPORT_NODE_PRODUCT_LINE_PLOT2D_YLABEL] asBool reader
  let y_label_text ← get [root, CPPTRANSPORT_NODE_PRODUCT_LINE_PLOT2D_YLABEL_TEXT] asString reader
  let title ← get [root, CPPTRANSPORT_NODE_PRODUCT_LINE_PLOT2D_TITLE] asBool reader
  let title_text ← get [root, CPPTRANSPORT_NODE_PRODUCT_LINE_PLOT2D_TITLE_TEXT] asString reader
  let legend ← get [root, CPPTRANSPORT_NODE_PRODUCT_LINE_PLOT2D_LEGEND] asBool reader
  let dash_second_axis ← get [root, CPPTRANSPORT_NODE_PRODUCT_LINE_PLOT2D_DASH_SECOND] asBool reader
  let x_label_set ← get [root, CPPTRANSPORT_NODE_PRODUCT_LINE_PLOT2D_X_LABEL_SET] asBool reader
  let y_label_set ← get [root, CPPTRANSPORT_NODE_PRODUCT_LINE_PLOT2D_Y_LABEL_SET] asBool reader
  let title_set ← get [root, CPPTRANSPORT_NODE_PRODUCT_LINE_PLOT2D_TITLE_SET] asBool reader
  let position ← get [root, CPPTRANSPORT_NODE_PRODUCT_LINE_PLOT2D_LEGEND_POS]
    (asNamed legend_pos.texts (unknown CPPTRANSPORT_PRODUCT_LINE_PLOT2D_UNKNOWN_LEG_POS)) reader
  let typeset_with_LaTeX ← get [root, CPPTRANSPORT_NODE_PRODUCT_LINE_PLOT2D_TYPESET_LATEX] asBool reader
  return {
    toline_collection := collection, reverse_x, reverse_y, x_label, x_label_text, y_label, y_label_text, title,
    title_text, legend, position, dash_second_axis, x_label_set, y_label_set, title_set, typeset_with_LaTeX }

end line_plot2d

/-! ### Tables -/

inductive table_format where
  | justified
  | csv
  | tsv
deriving DecidableEq

def table_format.text : table_format → String
  | justified => "justified"
  | csv => "csv"
  | tsv => "tsv"

structure line_asciitable extends line_collection R where
  precision : UInt
  x_label : String
  x_label_set : Bool
  format : table_format

namespace line_asciitable

/-- What the serializer of tables writes itself. -/
def log (t : line_asciitable R) : Log :=
  let root := CPPTRANSPORT_NODE_PRODUCT_LINE_ASCIITABLE_ROOT
  [([CPPTRANSPORT_NODE_DERIVED_PRODUCT_TYPE], .string CPPTRANSPORT_NODE_DERIVED_PRODUCT_LINE_ASCIITABLE),
    ([root, CPPTRANSPORT_NODE_PRODUCT_LINE_ASCIITABLE_PRECISION], .int t.precision.val),
    ([root, CPPTRANSPORT_NODE_PRODUCT_LINE_ASCIITABLE_X_LABEL], .string t.x_label),
    ([root, CPPTRANSPORT_NODE_PRODUCT_LINE_ASCIITABLE_X_LABEL_SET], .bool t.x_label_set),
    ([root, CPPTRANSPORT_NODE_PRODUCT_LINE_ASCIITABLE_FORMAT], .string t.format.text)]

def serialize (t : line_asciitable R) : Except String Log := do
  return t.log R ++ (← t.toline_collection.serialize R)

def deserialize (name : String) (reader : Value) : Except String (line_asciitable R) := do
  let root := CPPTRANSPORT_NODE_PRODUCT_LINE_ASCIITABLE_ROOT
  let collection ← line_collection.deserialize R name reader
  let precision ← get [root, CPPTRANSPORT_NODE_PRODUCT_LINE_ASCIITABLE_PRECISION] asUInt reader
  let x_label ← get [root, CPPTRANSPORT_NODE_PRODUCT_LINE_ASCIITABLE_X_LABEL] asString reader
  let x_label_set ← get [root, CPPTRANSPORT_NODE_PRODUCT_LINE_ASCIITABLE_X_LABEL_SET] asBool reader
  let format ← get [root, CPPTRANSPORT_NODE_PRODUCT_LINE_ASCIITABLE_FORMAT]
    (asNamed (named table_format.text [.justified, .csv, .tsv])
      (unknown CPPTRANSPORT_PRODUCT_LINE_ASCIITABLE_UNSUPPORTED_TYPE)) reader
  return { toline_collection := collection, precision, x_label, x_label_set, format }

end line_asciitable

/-! ### Products of both kinds -/

inductive product where
  | line_plot2d (p : line_plot2d R)
  | line_asciitable (t : line_asciitable R)

namespace product

variable {R} in
def collection : product R → line_collection R
  | line_plot2d p => p.toline_collection
  | line_asciitable t => t.toline_collection

def serialize : product R → Except String Log
  | line_plot2d p => p.serialize R
  | line_asciitable t => t.serialize R

end product

/-- `derived_product_helper::deserialize`. -/
def derived_product_helper.deserialize (name : String) (reader : Value) : Except String (product R) := do
  let type ← get [CPPTRANSPORT_NODE_DERIVED_PRODUCT_TYPE] asString reader
  if type = CPPTRANSPORT_NODE_DERIVED_PRODUCT_LINE_PLOT2D then
    return .line_plot2d (← line_plot2d.deserialize R name reader)
  else if type = CPPTRANSPORT_NODE_DERIVED_PRODUCT_LINE_ASCIITABLE then
    return .line_asciitable (← line_asciitable.deserialize R name reader)
  else
    throw (unknown CPPTRANSPORT_PRODUCT_UNKNOWN_TYPE type)

/-! ### Calls -/

/-- A line that has been made by a constructor. -/
abbrev made_line : Type := {l : line R // l.Constructed}

/-- What is done with a product: lines are added, one or several at a time, and attributes are set, also by the classes
that choose labels when lines are added. -/
inductive Call where
  | add_line (l : made_line R)
  | add_lines (list : List (made_line R))
  | set (attributes : product R)

namespace product

variable {R}

def map_collection (f : line_collection R → line_collection R) : product R → product R
  | line_plot2d p => line_plot2d { p with toline_collection := f p.toline_collection }
  | line_asciitable t => line_asciitable { t with toline_collection := f t.toline_collection }

/-- A product as its constructor leaves it: without lines. -/
def empty (p : product R) : product R := p.map_collection fun c => { c with lines := [] }

/-- All attributes of a product, but not its lines, are those of another one of its class. -/
def set : product R → product R → product R
  | line_plot2d p, line_plot2d attributes => line_plot2d { attributes with lines := p.lines }
  | line_asciitable t, line_asciitable attributes => line_asciitable { attributes with lines := t.lines }
  | p, _ => p

def call (p : product R) : Call R → product R
  | .add_line l => p.map_collection (·.after_add_line l.1)
  | .add_lines list => p.map_collection (·.after_add_lines (list.map (·.1)))
  | .set attributes => p.set attributes

def run (p : product R) (history : List (Call R)) : product R := history.foldl call p

end product

section Lines

variable {R}

/-- The lines of a collection have been made by constructors. -/
def line_collection.Constructed (c : line_collection R) : Prop := ∀ l ∈ c.lines, l.Constructed

theorem line_collection.Constructed.add_line {c c' : line_collection R} {l : line R} (h : c.Constructed)
    (hl : l.Constructed) (hadd : c.add_line l = .ok c') : c'.Constructed := by
  have hlines : ∀ l' ∈ c'.lines, l' ∈ c.lines ∨ l' = l := by
    rw [line_collection.add_line] at hadd
    split at hadd
    case h_1 =>
      obtain rfl := Except.ok.inj hadd
      exact fun l' hl' => .inr (List.mem_singleton.mp hl')
    case h_2 front rest heq =>
      split at hadd
      case isTrue => cases hadd
      case isFalse =>
        obtain rfl := Except.ok.inj hadd
        intro l' hl'
        rw [heq]
        exact (List.mem_append.mp hl').imp_right List.mem_singleton.mp
  intro l' hl'
  obtain hl' | rfl := hlines l' hl'
  · exact h l' hl'
  · exact hl

theorem line_collection.Constructed.after_add_line {c : line_collection R} {l : line R} (h : c.Constructed)
    (hl : l.Constructed) : (c.after_add_line l).Constructed := by
  rw [line_collection.after_add_line]
  split
  case h_1 hadd => exact h.add_line hl hadd
  case h_2 => exact h

theorem line_collection.Constructed.after_add_lines {ls : List (line R)} {c : line_collection R} (h : c.Constructed)
    (hls : ∀ l ∈ ls, l.Constructed) : (c.after_add_lines ls).Constructed := by
  induction ls generalizing c with
  | nil => exact h
  | cons l ls ih =>
    obtain ⟨hl, hls⟩ := List.forall_mem_cons.mp hls
    rw [line_collection.after_add_lines]
    split
    case h_1 hadd => exact ih (h.add_line hl hadd) hls
    case h_2 => exact h

theorem collection_map_collection (p : product R) (f : line_collection R → line_collection R) :
    (p.map_collection f).collection = f p.collection := by
  cases p <;> rfl

theorem lines_set (p attributes : product R) : (p.set attributes).collection.lines = p.collection.lines := by
  cases p <;> cases attributes <;> rfl

theorem constructed_call {p : product R} (h : p.collection.Constructed) (call : Call R) :
    (p.call call).collection.Constructed := by
  cases call with
  | add_line l =>
    rw [product.call, collection_map_collection]
    exact h.after_add_line l.2
  | add_lines list =>
    rw [product.call, collection_map_collection]
    exact h.after_add_lines (List.forall_mem_map.mpr fun l _ => l.2)
  | set attributes =>
    intro l hl
    rw [product.call, lines_set] at hl
    exact h l hl

/-- After any calls, the lines of a product are lines that have been made by constructors. -/
theorem constructed_run (p : product R) (history : List (Call R)) : (p.empty.run history).collection.Constructed := by
  have hrun : ∀ q : product R, q.collection.Constructed → (q.run history).collection.Constructed := by
    induction history with
    | nil => exact fun q hq => hq
    | cons call history ih => exact fun q hq => ih _ (constructed_call hq call)
  refine hrun _ fun l hl => ?_
  rw [product.empty, collection_map_collection] at hl
  cases hl

end Lines

/-! ### Reading back -/

section Read

variable {R}

def line_collection.paths : List (List String) :=
  [CPPTRANSPORT_NODE_PRODUCT_LINE_COLLECTION_LOGX, CPPTRANSPORT_NODE_PRODUCT_LINE_COLLECTION_LOGY,
    CPPTRANSPORT_NODE_PRODUCT_LINE_COLLECTION_ABSY, CPPTRANSPORT_NODE_PRODUCT_LINE_COLLECTION_LATEX,
    CPPTRANSPORT_NODE_PRODUCT_LINE_COLLECTION_LINE_ARRAY].map
      (fun k => [CPPTRANSPORT_NODE_PRODUCT_LINE_COLLECTION_ROOT, k]) ++
  [[CPPTRANSPORT_NODE_DERIVED_PRODUCT_DESCRIPTION], [CPPTRANSPORT_NODE_DERIVED_PRODUCT_FILENAME]]

theorem derived_product.deserialize_of_reads {p : derived_product} {v : Value} (h : Reads v p.serialize) :
    derived_product.deserialize p.name v = .ok p := by
  simp only [derived_product.serialize, reads_cons] at h
  obtain ⟨hdescription, hfilename, -⟩ := h
  rw [derived_product.deserialize, get_of_read hdescription, get_of_read hfilename]
  rfl

/-- A collection is read back if each of its lines is. -/
theorem line_collection.lawful {c : line_collection R} (h : c.Constructed) :
    ∃ log, c.serialize R = .ok log ∧ log.map (·.1) = line_collection.paths ∧ ∀ v, Reads v log →
      (line_collection.deserialize R c.name v = .ok c ↔ ∀ l ∈ c.lines, l.HasReader) := by
  have hlines : ∀ l ∈ c.lines, ∃ v, l.serialize R = .ok v ∧
      (derived_line_helper.deserialize R v = .ok l ↔ l.HasReader) := fun l hl => by
    obtain ⟨_, v, -, -, hv, hread⟩ := line_round_trip (h l hl)
    exact ⟨v, hv, hread⟩
  obtain ⟨line_array, hwrite, hiff⟩ := list_round_trip hlines
  refine ⟨c.log R line_array, by rw [line_collection.serialize, hwrite]; rfl, rfl, fun v hv => ?_⟩
  simp only [line_collection.log, reads_append, reads_cons] at hv
  obtain ⟨⟨h₁, h₂, h₃, h₄, h₅, -⟩, hproduct⟩ := hv
  rw [← hiff]
  simp only [line_collection.deserialize, derived_product.deserialize_of_reads hproduct, get_of_read h₁,
    get_of_read h₂, get_of_read h₃, get_of_read h₄, get_of_read h₅, asBool, ok_bind, bind_eq_ok, pure_eq_ok]
  constructor
  · rintro ⟨lines, hread, hc⟩
    obtain rfl : c.lines = lines := congrArg line_collection.lines hc
    exact hread
  · exact fun hlines => ⟨c.lines, hlines, rfl⟩

/-- The position that the deserialization constructor takes a legend to have. -/
def legend_pos.reread : legend_pos → legend_pos
  | upper_centre => lower_centre
  | lower_centre => upper_centre
  | pos => pos

theorem lookup_legend_pos (pos : legend_pos) : legend_pos.texts.lookup pos.text = some pos.reread := by
  cases pos <;> rfl

theorem reread_eq_self {pos : legend_pos} : pos.reread = pos ↔ pos ≠ .upper_centre ∧ pos ≠ .lower_centre := by
  cases pos <;> decide

/-- A plot is read back if its lines are and its legend is not in one of the two places that are mixed up. -/
theorem line_plot2d.lawful {p : line_plot2d R} (h : p.toline_collection.Constructed) :
    ∃ log, p.serialize R = .ok log ∧ log.map (·.1) = (p.log R).map (·.1) ++ line_collection.paths ∧
      ∀ v, Reads v log → read [CPPTRANSPORT_NODE_DERIVED_PRODUCT_TYPE] v =
          .ok (.string CPPTRANSPORT_NODE_DERIVED_PRODUCT_LINE_PLOT2D) ∧
        (line_plot2d.deserialize R p.name v = .ok p ↔
          (∀ l ∈ p.lines, l.HasReader) ∧ p.position ≠ .upper_centre ∧ p.position ≠ .lower_centre) := by
  obtain ⟨log, hlog, hpaths, hreads⟩ := line_collection.lawful h
  refine ⟨p.log R ++ log, by rw [line_plot2d.serialize, hlog]; rfl, by rw [List.map_append, hpaths], fun v hv => ?_⟩
  obtain ⟨hown, hcollection⟩ := reads_append.mp hv
  simp only [line_plot2d.log, reads_cons] at hown
  obtain ⟨htype, h₁, h₂, h₃, h₄, h₅, h₆, h₇, h₈, h₉, h₁₀, h₁₁, h₁₂, h₁₃, h₁₄, h₁₅, -⟩ := hown
  refine ⟨htype, ?_⟩
  rw [← hreads v hcollection, ← reread_eq_self]
  simp only [line_plot2d.deserialize, get_of_read h₁, get_of_read h₂, get_of_read h₃, get_of_read h₄, get_of_read h₅,
    get_of_read h₆, get_of_read h₇, get_of_read h₈, get_of_read h₉, get_of_read h₁₀, get_of_read h₁₁, get_of_read h₁₂,
    get_of_read h₁₃, get_of_read h₁₄, get_of_read h₁₅, asNamed_string (lookup_legend_pos _), asBool, asString, ok_bind,
    bind_eq_ok, pure_eq_ok]
  constructor
  · rintro ⟨collection, hread, hp⟩
    have hcollection : p.toline_collection = collection := congrArg line_plot2d.toline_collection hp
    exact ⟨hcollection ▸ hread, (congrArg line_plot2d.position hp).symm⟩
  · rintro ⟨hread, hposition⟩
    exact ⟨p.toline_collection, hread, by rw [hposition]⟩

/-- A table is read back if its lines are. -/
theorem line_asciitable.lawful {t : line_asciitable R} (h : t.toline_collection.Constructed) :
    ∃ log, t.serialize R = .ok log ∧ log.map (·.1) = (t.log R).map (·.1) ++ line_collection.paths ∧
      ∀ v, Reads v log → read [CPPTRANSPORT_NODE_DERIVED_PRODUCT_TYPE] v =
          .ok (.string CPPTRANSPORT_NODE_DERIVED_PRODUCT_LINE_ASCIITABLE) ∧
        (line_asciitable.deserialize R t.name v = .ok t ↔ ∀ l ∈ t.lines, l.HasReader) := by
  obtain ⟨log, hlog, hpaths, hreads⟩ := line_collection.lawful h
  refine ⟨t.log R ++ log, by rw [line_asciitable.serialize, hlog]; rfl, by rw [List.map_append, hpaths], fun v hv => ?_⟩
  obtain ⟨hown, hcollection⟩ := reads_append.mp hv
  simp only [line_asciitable.log, reads_cons] at hown
  obtain ⟨htype, h₁, h₂, h₃, h₄, -⟩ := hown
  refine ⟨htype, ?_⟩
  have hformat : (named table_format.text [.justified, .csv, .tsv]).lookup t.format.text = some t.format := by
    cases t.format <;> rfl
  rw [← hreads v hcollection]
  simp only [line_asciitable.deserialize, get_of_read h₁, get_of_read h₂, get_of_read h₃, get_of_read h₄,
    asNamed_string hformat, asUInt_int, asBool, asString, ok_bind, bind_eq_ok, pure_eq_ok]
  constructor
  · rintro ⟨collection, hread, hp⟩
    have hcollection : t.toline_collection = collection := congrArg line_asciitable.toline_collection hp
    exact hcollection ▸ hread
  · exact fun hread => ⟨t.toline_collection, hread, rfl⟩

namespace product

def name (p : product R) : String := p.collection.name

def lines (p : product R) : List (line R) := p.collection.lines

/-- Products that are read back. -/
def HasReader (p : product R) : Prop :=
  (∀ l ∈ p.lines, l.HasReader) ∧
    match p with
    | line_plot2d p => p.position ≠ .upper_centre ∧ p.position ≠ .lower_centre
    | line_asciitable _ => True

/-- A product is read back as it was, and on the way no serializer, of the product or of one of its lines, writes to or
through a member that another one has written. -/
def RoundTrips (p : product R) : Prop :=
  (∀ l ∈ p.lines, ∃ log, (l.1.cls R).serialize R l.2 = .ok log ∧ Separate (log.map (·.1))) ∧
    ∃ log writer, p.serialize R = .ok log ∧ Separate (log.map (·.1)) ∧ writeAll log (.object []) = .ok writer ∧
      derived_product_helper.deserialize R p.name writer = .ok p

end product

/-- What the serializer of a product has written is read back as the same product if and only if it has a reader. -/
theorem product_lawful {p : product R} (h : p.collection.Constructed) :
    ∃ log, p.serialize R = .ok log ∧ Separate (log.map (·.1)) ∧ ∀ v, Reads v log →
      (derived_product_helper.deserialize R p.name v = .ok p ↔ p.HasReader) := by
  cases p with
  | line_plot2d p =>
    obtain ⟨log, hlog, hpaths, hreads⟩ := line_plot2d.lawful h
    refine ⟨log, hlog, hpaths ▸ of_decide_eq_true rfl, fun v hv => ?_⟩
    obtain ⟨htype, hiff⟩ := hreads v hv
    rw [derived_product_helper.deserialize, get_of_read htype, asString, ok_bind, if_pos rfl, bind_eq_ok]
    simp only [pure_eq_ok, product.line_plot2d.injEq, exists_eq_right']
    exact hiff
  | line_asciitable t =>
    obtain ⟨log, hlog, hpaths, hreads⟩ := line_asciitable.lawful h
    refine ⟨log, hlog, hpaths ▸ of_decide_eq_true rfl, fun v hv => ?_⟩
    obtain ⟨htype, hiff⟩ := hreads v hv
    rw [derived_product_helper.deserialize, get_of_read htype, asString, ok_bind, if_neg (by decide), if_pos rfl,
      bind_eq_ok]
    simp only [pure_eq_ok, product.line_asciitable.injEq, exists_eq_right']
    exact hiff.trans (and_iff_left trivial).symm

/-- A product whose lines have been made by constructors makes the round trip if and only if it has a reader. -/
theorem roundTrips_iff_of_constructed {p : product R} (h : p.collection.Constructed) :
    p.RoundTrips ↔ p.HasReader := by
  obtain ⟨log, hlog, hseparate, hreads⟩ := product_lawful h
  obtain ⟨writer, hwriter, hall⟩ := read_writeAll hseparate
  constructor
  · rintro ⟨-, log', writer', hlog', -, hwriter', hread⟩
    obtain rfl := Except.ok.inj (hlog.symm.trans hlog')
    obtain rfl := Except.ok.inj (hwriter.symm.trans hwriter')
    exact (hreads writer hall).mp hread
  · intro hreader
    refine ⟨fun l hl => ?_, log, writer, hlog, hseparate, hwriter, (hreads writer hall).mpr hreader⟩
    obtain ⟨line_log, _, hline, hline_separate, -⟩ := line_round_trip (h l hl)
    exact ⟨line_log, hline, hline_separate⟩

end Read

/-- **Round trip of derived products.** Whatever calls have been made, a product is read back with the same attributes
and with the same lines in the same order, each equal in all its settings, if and only if none of its lines shows the
cost of an integration with a two-point query and it has no legend at the centre above or below. -/
theorem product_round_trips_iff (p : product R) (history : List (Call R)) :
    (p.empty.run history).RoundTrips ↔ (p.empty.run history).HasReader :=
  roundTrips_iff_of_constructed (constructed_run p history)

/-! ### Two products that change on the way -/

/-- A repository with one integration task. -/
def one_task : Repository Unit where
  get_name _ := "task"
  get_type _ := .integration
  get_parent_task _ := none
  get_N_fields _ := 2
  finder _ := .ok ()
  found _ := rfl

/-- The members of a line for the time that each wavenumber has taken. -/
def cost_members : SQL_query × analysis_type × cost_metric × wavenumber_series × integration_task_gadget Unit :=
  (.twopf { query := "1=1" }, .twopf, .time, { compute_index := false }, .of one_task ())

def cost_line : line one_task :=
  ⟨.integration_cost, {
    base := {
      x_class := .wavenumber
      x_type := .k
      supported_x_axes := twopf_axes
      LaTeX_label := ""
      non_LaTeX_label := ""
      label_set := false
      use_tags := true
      parent_task := ()
      dot_meaning := .momenta
      klabel_meaning := .conventional
      precision := 3 }
    first := cost_members
    second := () }⟩

theorem cost_line_constructed : cost_line.Constructed where
  base := ⟨rfl, rfl, List.mem_cons_self, by decide⟩
  first := ⟨trivial, trivial, trivial, trivial, rfl, rfl⟩
  second := trivial

def no_lines : line_collection one_task where
  name := "product"
  description := ""
  filename := "product"
  log_x := false
  log_y := false
  abs_y := false
  use_LaTeX := false
  lines := []

def cost_table : product one_task :=
  .line_asciitable { no_lines with precision := 6, x_label := "", x_label_set := false, format := .justified }

def upper_legend_plot : product one_task :=
  .line_plot2d { no_lines with
    reverse_x := false
    reverse_y := false
    x_label := false
    x_label_text := ""
    y_label := false
    y_label_text := ""
    title := false
    title_text := ""
    legend := true
    position := .upper_centre
    dash_second_axis := true
    x_label_set := false
    y_label_set := false
    title_set := false
    typeset_with_LaTeX := false }

/-- A table with a line for the cost of an integration cannot be read, and a plot does not keep its legend in its
place. -/
theorem query_and_legend_lost :
    ¬ (cost_table.empty.run [.add_line ⟨cost_line, cost_line_constructed⟩]).RoundTrips ∧
      ¬ (upper_legend_plot.empty.run []).RoundTrips := by
  constructor
  · rw [roundTrips_iff_of_constructed (constructed_run _ _)]
    exact fun h => h.1 cost_line List.mem_cons_self
  · rw [roundTrips_iff_of_constructed (constructed_run _ _)]
    exact fun h => h.2.1 rfl

end CppTransport.Runtime.DerivedProducts
