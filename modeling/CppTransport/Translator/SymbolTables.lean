import CppTransport.Library.KeyedRows
import CppTransport.Library.OrderedMaps
import CppTransport.Translator.ExpressionGrammar
import Mathlib.Data.List.Sort
import Mathlib.Data.String.Basic

/-!
# Declarations of a model file

A model file declares fields, parameters and subexpressions, and specifies a model by a potential and
possibly a metric. Declarations go into symbol tables; once the specification has begun there can be no
others. A statement that is rejected is reported, counted as an error, and reading goes on.

## The model

`step` is what the parser does when it has read a statement. The tables are maps in the order of the
names; lists in the order of the declarations come from sorting by unique numbers. `symbol_factory` makes
one symbol for a name. The values of expressions are those of `expression`, with the symbols that are
declared when the expression is read; the algebra and the metrics are parameters. After a syntax error
nothing more is read.

The `outline` of a model file is what it is for: names, in the order in which they were declared, with
what each is. It knows nothing of symbols, tables and values.

## What is proved

`represents_script`: after every model file the tables, the lists made of them and the number of errors
are those of its outline. `distinct_symbols_iff`: the symbols of the model are pairwise different if and
only if no declared name is the name of the momentum of a field or of the Planck mass.
`values_generated`: expressions are made of the Planck mass and of the fields and parameters declared
before them.
-/

namespace CppTransport.Translator.Script

open Library Library.OrderedMap Expressions

def DERIV_PREFIX : String := "__d"
def MPLANCK_SYMBOL : String := "__Mp"
def MPLANCK_LATEX_SYMBOL : String := "M_\x7b\\mathrm\x7bP\x7d\x7d"
def MPLANCK_TEXT_NAME : String := "M_P"
def ERROR_SYMBOL_EXISTS : String := "Redefinition of existing symbol"
def NOTIFY_DUPLICATE_SYMBOL_DEFN_WAS : String := "Note: location of original definition for symbol"
def ERROR_MODEL_SPECIFICATION_STARTED : String := "Model properties must be declared before the model is specified"
def WARNING_SPECIFICATION_START_WAS : String := "Model specification began here:"
def ERROR_POTENTIAL_REDECLARATION : String := "Redeclaration of potential"
def ERROR_METRIC_REDECLARATION : String := "Redeclaration of field-space metric"
def ERROR_LAGRANGIAN_TYPE_REDECLARATION : String := "Redeclaration of Lagrangian type"
def ERROR_LATEX_REDECLARATION : String := "Redeclaration of 'latex' attribute"
def ERROR_VALUE_REDECLARATION : String := "Redeclaration of 'value' attribute"
def ERROR_METRIC_REQUIRES_NONTRIVIAL : String :=
  "To assign a field-space metric, the Lagrangian type must be 'nontrivial_metric'"
def ERROR_METRIC_SETTING_WAS : String := "Lagrangian type was set here:"
def NOTIFY_DUPLICATION_DECLARATION_WAS : String := "Note: location of original declaration was"
def ERROR_NO_POTENTIAL : String := "Model specification requires a potential"
def ERROR_NO_METRIC : String := "Model specification requires a field-space metric"

/-! ### Symbols and declarations -/

/-- A symbol of the algebra. Symbols are told apart by their serial numbers. -/
structure ginac_symbol where
  name : String
  latex : String
  serial : ℕ
deriving DecidableEq, Repr

structure symbol_factory where
  /-- The symbols in the order in which they were made. -/
  cache : List ginac_symbol
deriving DecidableEq, Repr

/-- The symbol with a name; it is made if there is none. -/
def symbol_factory.get_real_symbol (f : symbol_factory) (name latex : String) : ginac_symbol × symbol_factory :=
  match f.cache.find? (·.name = name) with
  | some sym => (sym, f)
  | none =>
    let sym : ginac_symbol := ⟨name, latex, f.cache.length⟩
    (sym, ⟨f.cache ++ [sym]⟩)

/-- The kinds of declarations. -/
inductive kind where
  | field
  | parameter
  | subexpr
deriving DecidableEq, Repr

/-- A declaration, with the expression that stands for its name. -/
structure declaration (V : Type) where
  name : String
  symbol : ginac_symbol
  latex : String
  my_id : ℕ
  expression : V
deriving DecidableEq, Repr

def declaration.get_latex_name {V : Type} (d : declaration V) : String :=
  if d.latex.length = 0 then d.name else d.latex

/-- Declarations in the order of their names. -/
abbrev symbol_table (V : Type) := List (declaration V)

/-- Sort a symbol table by unique numbers, and return a list of some values. -/
def UnzipSortedZipList {V α : Type} (table : symbol_table V) (get : declaration V → α) : List α :=
  ((table.map fun t => (t.my_id, get t)).mergeSort fun a b => a.1 ≤ b.1).map (·.2)

inductive model_type where
  | canonical
  | nontrivial_metric
deriving DecidableEq, Repr

structure lagrangian_block (V M : Type) where
  fields : symbol_table V
  parameters : symbol_table V
  reserved : symbol_table V
  subexprs : symbol_table V
  symbols_frozen : Bool
  type : Option model_type
  potential : Option V
  metric : Option M
  deriv_symbols : List ginac_symbol
  M_Planck : ginac_symbol

namespace lagrangian_block

variable {V M : Type} (b : lagrangian_block V M)

def check_symbol_exists (nm : String) : Option (declaration V) :=
  b.fields.find? (·.name = nm) <|> b.parameters.find? (·.name = nm) <|> b.reserved.find? (·.name = nm) <|>
    b.subexprs.find? (·.name = nm)

def get_field_name_list : List String := UnzipSortedZipList b.fields (·.name)

def get_field_latex_list : List String := UnzipSortedZipList b.fields (·.get_latex_name)

def get_param_name_list : List String := UnzipSortedZipList b.parameters (·.name)

def get_param_latex_list : List String := UnzipSortedZipList b.parameters (·.get_latex_name)

def get_field_symbols : List ginac_symbol := UnzipSortedZipList b.fields (·.symbol)

def get_param_symbols : List ginac_symbol := UnzipSortedZipList b.parameters (·.symbol)

/-- What is missing when the file has been read. -/
def validate : List String :=
  let potential := if b.potential.isSome then [] else [ERROR_NO_POTENTIAL]
  match b.type with
  | some .nontrivial_metric => potential ++ if b.metric.isSome then [] else [ERROR_NO_METRIC]
  | _ => potential

end lagrangian_block

/-! ### Statements -/

/-- The lexemes of an expression, up to its semicolon. -/
structure expression_text where
  tokens : List token
  unfinished : Lexer.value.character .semicolon ∉ tokens

inductive subexpr_item where
  | latex (str : String)
  | value (e : expression_text)

/-- A statement of a model file; `M` are the metrics. -/
inductive statement (M : Type) where
  | field (name : String) (latex : List String)
  | parameter (name : String) (latex : List String)
  | subexpr (name : String) (items : List subexpr_item)
  | potential (e : expression_text)
  | metric (f : M)
  | lagrangian (t : model_type)

/-- The algebra of expressions. -/
structure algebra (V : Type) where
  driver : expression_tree_driver V
  /-- A symbol is an expression. -/
  symbol : ginac_symbol → V

structure model_descriptor (V M : Type) where
  model : lagrangian_block V M
  sym_factory : symbol_factory
  current_id : ℕ
  err_count : ℕ
  /-- Errors and warnings. -/
  reports : List (Bool × String)
  /-- The parser has met a syntax error. -/
  stopped : Bool

section Reading

variable {V M : Type} (alg : algebra V)

def quote (n : String) : String := " '" ++ n ++ "'"

namespace model_descriptor

variable (s : model_descriptor V M)

def report (more : List (Bool × String)) : model_descriptor V M := { s with reports := s.reports ++ more }

def report_error : model_descriptor V M := { s with err_count := s.err_count + 1 }

/-- A statement is carried out; if the exception of the parser is thrown, an error is counted. -/
def catch_parse_error (r : Except (model_descriptor V M) (model_descriptor V M)) : model_descriptor V M :=
  match r with
  | .ok s => s
  | .error s => s.report_error

/-- A value is set, unless it has been set before. -/
def SetContextedValue {α : Type} (data : Option α) (set : model_descriptor V M) (err_msg : String) :
    Except (model_descriptor V M) (model_descriptor V M) :=
  match data with
  | some _ => .error (s.report [(true, err_msg), (false, NOTIFY_DUPLICATION_DECLARATION_WAS)])
  | none => .ok set

/-- An attribute of a block is set, unless it has been set before. -/
def set_attribute {α : Type} (err_msg : String) (data : Option α) (value : α) : model_descriptor V M × Option α :=
  match data with
  | some old => ((s.report [(true, err_msg), (false, NOTIFY_DUPLICATION_DECLARATION_WAS)]).report_error, some old)
  | none => (s, some value)

/-- The attributes of a field or a parameter. -/
def read_attributes : model_descriptor V M → Option String → List String → model_descriptor V M × Option String
  | s, latex, [] => (s, latex)
  | s, latex, str :: rest =>
    let r := s.set_attribute ERROR_LATEX_REDECLARATION latex str
    read_attributes r.1 r.2 rest

/-- The driver, with the symbols that are declared. -/
def driver : expression_tree_driver V :=
  { alg.driver with
    check_symbol_exists := fun id => (s.model.check_symbol_exists (.ofList id)).map (·.expression) }

/-- An expression is read; after a syntax error there is no value. -/
def read_expression (e : expression_text) : model_descriptor V M × Option V :=
  match expression (s.driver alg) (e.tokens ++ [.character .semicolon]) with
  | (.accepted v _, reports) => (s.report (reports.map (true, ·)), some v)
  | (.syntax_error _, reports) => ({ s.report (reports.map (true, ·)) with stopped := true }, none)

/-- The block of a subexpression. -/
def read_items : model_descriptor V M → Option String → Option V → List subexpr_item →
    model_descriptor V M × Option String × Option V
  | s, latex, v, [] => (s, latex, v)
  | s, latex, v, .latex str :: rest =>
    let r := s.set_attribute ERROR_LATEX_REDECLARATION latex str
    read_items r.1 r.2 v rest
  | s, latex, v, .value e :: rest =>
    match s.read_expression alg e with
    | (s, none) => (s, latex, v)
    | (s, some x) =>
      let r := s.set_attribute ERROR_VALUE_REDECLARATION v x
      read_items r.1 latex r.2 rest

def report_frozen : Except (model_descriptor V M) (model_descriptor V M) :=
  .error (s.report [(true, ERROR_MODEL_SPECIFICATION_STARTED), (false, WARNING_SPECIFICATION_START_WAS)])

/-- A declaration is inserted if its name is new. -/
def GenericInsertSymbol (n : String) (insert : model_descriptor V M) :
    Except (model_descriptor V M) (model_descriptor V M) :=
  match s.model.check_symbol_exists n with
  | some _ =>
    .error (s.report [(true, ERROR_SYMBOL_EXISTS ++ quote n), (false, NOTIFY_DUPLICATE_SYMBOL_DEFN_WAS ++ quote n)])
  | none => .ok insert

/-- A declaration is put into the table of its kind. A field also gets a symbol for its momentum. -/
def insert (k : kind) (d : declaration V) : model_descriptor V M :=
  let s := { s with current_id := s.current_id + 1 }
  match k with
  | .field =>
    let r := s.sym_factory.get_real_symbol (DERIV_PREFIX ++ d.symbol.name) ""
    { s with
      model := { s.model with
        fields := OrderedMap.insert (·.name) s.model.fields d
        deriv_symbols := s.model.deriv_symbols ++ [r.1] }
      sym_factory := r.2 }
  | .parameter =>
    { s with model := { s.model with parameters := OrderedMap.insert (·.name) s.model.parameters d } }
  | .subexpr => { s with model := { s.model with subexprs := OrderedMap.insert (·.name) s.model.subexprs d } }

/-- `add_field`, `add_parameter` and `add_subexpr` of the driver: a symbol is fetched, and the block adds the
declaration. A subexpression stands for its value, the others for their symbols. -/
def add (k : kind) (n latex : String) (v : V) : model_descriptor V M :=
  let r := s.sym_factory.get_real_symbol n latex
  let s := { s with sym_factory := r.2 }
  let e := if k = .subexpr then v else alg.symbol r.1
  catch_parse_error <|
    if s.model.symbols_frozen then s.report_frozen
    else s.GenericInsertSymbol n (s.insert k ⟨n, r.1, latex, s.current_id, e⟩)

def add_field (n latex : String) : model_descriptor V M := s.add alg .field n latex (alg.driver.integer 0)

def add_parameter (n latex : String) : model_descriptor V M := s.add alg .parameter n latex (alg.driver.integer 0)

def add_subexpr (n latex : String) (v : V) : model_descriptor V M := s.add alg .subexpr n latex v

def freeze_tables : model_descriptor V M := { s with model := { s.model with symbols_frozen := true } }

def set_potential (v : V) : model_descriptor V M :=
  let s := s.freeze_tables
  catch_parse_error <|
    s.SetContextedValue s.model.potential { s with model := { s.model with potential := some v } }
      ERROR_POTENTIAL_REDECLARATION

def set_metric (f : M) : model_descriptor V M :=
  if s.model.type = some .nontrivial_metric then
    let s := s.freeze_tables
    catch_parse_error <|
      s.SetContextedValue s.model.metric { s with model := { s.model with metric := some f } }
        ERROR_METRIC_REDECLARATION
  else
    catch_parse_error <| .error <| s.report <| (true, ERROR_METRIC_REQUIRES_NONTRIVIAL) ::
      if s.model.type.isSome then [(true, ERROR_METRIC_SETTING_WAS)] else []

def set_lagrangian_type (t : model_type) : model_descriptor V M :=
  catch_parse_error <|
    s.SetContextedValue s.model.type { s with model := { s.model with type := some t } }
      ERROR_LAGRANGIAN_TYPE_REDECLARATION

/-- What the parser does with a statement. -/
def step (st : statement M) : model_descriptor V M :=
  if s.stopped then s
  else
    match st with
    | .field n latex =>
      let r := s.read_attributes none latex
      r.1.add_field alg n (r.2.getD "")
    | .parameter n latex =>
      let r := s.read_attributes none latex
      r.1.add_parameter alg n (r.2.getD "")
    | .subexpr n items =>
      let r := s.read_items alg none none items
      if r.1.stopped then r.1 else r.1.add_subexpr alg n (r.2.1.getD "") (r.2.2.getD (alg.driver.integer 0))
    | .potential e =>
      match s.read_expression alg e with
      | (s, none) => s
      | (s, some v) => s.set_potential v
    | .metric f => s.set_metric f
    | .lagrangian t => s.set_lagrangian_type t

/-- Nothing has been read; the Planck mass is declared. -/
def start : model_descriptor V M :=
  let r := (symbol_factory.mk []).get_real_symbol MPLANCK_SYMBOL MPLANCK_LATEX_SYMBOL
  { model :=
      { fields := [], parameters := [], subexprs := [], symbols_frozen := false, type := none, potential := none,
        metric := none, deriv_symbols := [], M_Planck := r.1,
        reserved := [⟨MPLANCK_TEXT_NAME, r.1, MPLANCK_LATEX_SYMBOL, 0, alg.symbol r.1⟩] }
    sym_factory := r.2, current_id := 1, err_count := 0, reports := [], stopped := false }

/-- A model file is read. -/
def script (statements : List (statement M)) : model_descriptor V M := statements.foldl (step alg) (start alg)

end model_descriptor

end Reading

/-! ### The outline of a model file -/

/-- The text is an expression. -/
def expression_text.IsSentence (e : expression_text) : Prop :=
  ∃ t : tree, t.WellFormed y_grammar ∧ Spells e.tokens t.yield

/-- What is declared: kind, name and the LaTeX name that was given. -/
structure entry where
  kind : kind
  name : String
  latex : String

structure outline where
  /-- In the order in which it was declared. -/
  declared : List entry
  /-- The specification of the model has begun. -/
  started : Bool
  type : Option model_type
  potential : Bool
  metric : Bool
  /-- The number of rejected statements and attributes. -/
  rejected : ℕ
  stopped : Bool

namespace outline

variable {M : Type} (o : outline)

/-- The names that are taken. -/
def names : List String := MPLANCK_TEXT_NAME :: o.declared.map (·.name)

def reject (n : ℕ) : outline := { o with rejected := o.rejected + n }

/-- Something is declared, unless the specification has begun or the name is taken. -/
def declare (k : kind) (n latex : String) : outline :=
  if o.started ∨ n ∈ o.names then o.reject 1 else { o with declared := o.declared ++ [⟨k, n, latex⟩] }

/-- What a block says: the LaTeX names and the number of values, up to a value that is no expression. -/
noncomputable def items : List subexpr_item → List String × ℕ × Bool
  | [] => ([], 0, false)
  | .latex str :: rest =>
    let r := items rest
    (str :: r.1, r.2)
  | .value e :: rest =>
    open Classical in
    if e.IsSentence then
      let r := items rest
      (r.1, r.2.1 + 1, r.2.2)
    else ([], 0, true)

/-- A statement. Of repeated attributes the first one counts, and so does the first potential, the first metric and the
first type. -/
noncomputable def step (st : statement M) : outline :=
  if o.stopped then o
  else
    match st with
    | .field n latex => (o.reject (latex.length - 1)).declare .field n (latex.headD "")
    | .parameter n latex => (o.reject (latex.length - 1)).declare .parameter n (latex.headD "")
    | .subexpr n is =>
      let r := items is
      let o := o.reject (r.1.length - 1 + (r.2.1 - 1))
      if r.2.2 then { o with stopped := true } else o.declare .subexpr n (r.1.headD "")
    | .potential e =>
      open Classical in
      if e.IsSentence then
        if o.potential then { o with started := true }.reject 1 else { o with started := true, potential := true }
      else { o with stopped := true }
    | .metric _ =>
      if o.type = some .nontrivial_metric then
        if o.metric then { o with started := true }.reject 1 else { o with started := true, metric := true }
      else o.reject 1
    | .lagrangian t => if o.type.isSome then o.reject 1 else { o with type := some t }

def start : outline := ⟨[], false, none, false, false, 0, false⟩

noncomputable def script (statements : List (statement M)) : outline := statements.foldl step start

end outline

open model_descriptor

section Reading

variable {V M : Type} {alg : algebra V} {s : model_descriptor V M} {o : outline}

/-- The declarations of a kind, among all in the order in which they were made. -/
def of_kind (k : kind) (ds : List (kind × declaration V)) : List (declaration V) :=
  (ds.filter (·.1 = k)).map (·.2)

/-- The tables hold these declarations, made in this order. -/
structure Holds (alg : algebra V) (s : model_descriptor V M) (ds : List (kind × declaration V)) : Prop where
  fields : s.model.fields = ofList (·.name) (of_kind .field ds)
  parameters : s.model.parameters = ofList (·.name) (of_kind .parameter ds)
  subexprs : s.model.subexprs = ofList (·.name) (of_kind .subexpr ds)
  reserved : s.model.reserved =
    [⟨MPLANCK_TEXT_NAME, s.model.M_Planck, MPLANCK_LATEX_SYMBOL, 0, alg.symbol s.model.M_Planck⟩]
  ids : (ds.map (·.2.my_id)).Pairwise (· < ·)
  below : ∀ d ∈ ds, d.2.my_id < s.current_id
  names : (MPLANCK_TEXT_NAME :: ds.map (·.2.name)).Nodup
  /-- Symbols come from the factory. -/
  symbols : ∀ d ∈ ds, d.2.symbol ∈ s.sym_factory.cache ∧ d.2.symbol.name = d.2.name
  planck : s.model.M_Planck ∈ s.sym_factory.cache ∧ s.model.M_Planck.name = MPLANCK_SYMBOL
  derivs : s.model.deriv_symbols.map (·.name) = (of_kind .field ds).map fun d => DERIV_PREFIX ++ d.name
  derivs_made : ∀ sym ∈ s.model.deriv_symbols, sym ∈ s.sym_factory.cache
  /-- A name stands for a symbol, other than that of a subexpression. -/
  expressions : ∀ d ∈ ds, d.1 ≠ .subexpr → d.2.expression = alg.symbol d.2.symbol

/-- The factory has one symbol for a name. -/
structure symbol_factory.Sound (f : symbol_factory) : Prop where
  names : (f.cache.map (·.name)).Nodup
  serials : f.cache.map (·.serial) = List.range f.cache.length

theorem get_real_symbol_sound {f : symbol_factory} (h : f.Sound) (n latex : String) :
    (f.get_real_symbol n latex).2.Sound ∧ (f.get_real_symbol n latex).1 ∈ (f.get_real_symbol n latex).2.cache ∧
      (f.get_real_symbol n latex).1.name = n ∧ f.cache ⊆ (f.get_real_symbol n latex).2.cache := by
  rw [symbol_factory.get_real_symbol]
  cases hfind : f.cache.find? (·.name = n) with
  | some sym => exact ⟨h, List.mem_of_find?_eq_some hfind, by simpa using List.find?_some hfind, List.Subset.refl _⟩
  | none =>
    have hfresh : n ∉ f.cache.map (·.name) := by
      rintro hmem
      obtain ⟨sym, hsym, rfl⟩ := List.mem_map.mp hmem
      simpa using List.find?_eq_none.mp hfind sym hsym
    refine ⟨⟨?_, ?_⟩, List.mem_append_right _ (List.mem_singleton_self _), rfl, List.subset_append_left _ _⟩
    · rw [List.map_append]
      exact List.nodup_append'.mpr ⟨h.names, List.nodup_singleton _, by simpa using hfresh⟩
    · rw [List.map_append, h.serials, List.length_append, List.length_singleton, List.range_succ]
      rfl

/-- Symbols of the factory are the same if their names are. -/
theorem symbol_factory.Sound.serial_eq_iff {f : symbol_factory} (h : f.Sound) {a b : ginac_symbol} (ha : a ∈ f.cache)
    (hb : b ∈ f.cache) : a.serial = b.serial ↔ a.name = b.name := by
  have hserials : (f.cache.map (·.serial)).Nodup := h.serials ▸ List.nodup_range
  constructor
  · intro heq
    rw [List.inj_on_of_nodup_map hserials ha hb heq]
  · intro heq
    rw [List.inj_on_of_nodup_map h.names ha hb heq]

theorem mem_of_kind {k : kind} {ds : List (kind × declaration V)} {d : declaration V} :
    d ∈ of_kind k ds ↔ (k, d) ∈ ds := by
  simp [of_kind]

/-- A declaration is put at the end of those of its kind. -/
theorem of_kind_concat_self (ds : List (kind × declaration V)) (k : kind) (d : declaration V) :
    of_kind k (ds ++ [(k, d)]) = of_kind k ds ++ [d] := by
  simp [of_kind]

theorem of_kind_concat_of_ne {k k' : kind} (h : k' ≠ k) (ds : List (kind × declaration V)) (d : declaration V) :
    of_kind k (ds ++ [(k', d)]) = of_kind k ds := by
  simp [of_kind, h]

theorem of_kind_sublist (k : kind) (ds : List (kind × declaration V)) : (of_kind k ds).Sublist (ds.map (·.2)) :=
  List.filter_sublist.map _

/-- A list that is made of a table has the order in which the declarations were made. -/
theorem unzip_ofList {α : Type} {ds : List (declaration V)} (hids : (ds.map (·.my_id)).Pairwise (· < ·))
    (hnames : (ds.map (·.name)).Nodup) (get : declaration V → α) :
    UnzipSortedZipList (ofList (·.name) ds) get = ds.map get := by
  have hperm : (ofList (·.name) ds).Perm ds := by
    refine (List.perm_ext_iff_of_nodup ?_ (List.Nodup.of_map _ hnames)).mpr fun d => mem_ofList hnames
    refine List.nodup_iff_pairwise_ne.mpr ((pairwise_ofList (·.name) ds).imp fun hlt heq => ?_)
    exact hlt.ne (congrArg declaration.name heq)
  have hsorted : (ds.map fun t => (t.my_id, get t)).Pairwise fun a b => a.1 < b.1 :=
    List.pairwise_map.mpr (List.pairwise_map.mp hids)
  have hkeys : (((ofList (·.name) ds).map fun t => (t.my_id, get t)).map (·.1)).Nodup := by
    rw [List.map_map]
    exact ((hperm.map _).nodup_iff).mpr (hids.imp fun hlt => hlt.ne)
  have heq : ((ofList (·.name) ds).map fun t => (t.my_id, get t)).mergeSort (fun a b => a.1 ≤ b.1) =
      ds.map fun t => (t.my_id, get t) := by
    refine List.Perm.eq_of_pairwise (fun a b _ _ hab hba => absurd hab hba.asymm)
      (Rows.pairwise_lt_mergeSort hkeys) hsorted ?_
    exact (List.mergeSort_perm _ _).trans (hperm.map _)
  rw [UnzipSortedZipList, heq, List.map_map]
  rfl

/-- The part of the state of which `Holds` speaks. -/
def model_descriptor.tables (s : model_descriptor V M) :=
  (s.model.fields, s.model.parameters, s.model.subexprs, s.model.reserved, s.model.deriv_symbols, s.model.M_Planck,
    s.sym_factory, s.current_id)

variable {s' : model_descriptor V M} {ds : List (kind × declaration V)}

theorem Holds.congr (h : Holds alg s ds) (hsame : s'.tables = s.tables) : Holds alg s' ds := by
  simp only [model_descriptor.tables, Prod.mk.injEq] at hsame
  obtain ⟨hf, hp, hs, hr, hd, hm, hfac, hid⟩ := hsame
  exact ⟨hf ▸ h.fields, hp ▸ h.parameters, hs ▸ h.subexprs, by rw [hr, hm, h.reserved], h.ids, hid ▸ h.below, h.names,
    hfac ▸ h.symbols, by rw [hm, hfac]; exact h.planck, hd ▸ h.derivs, by rw [hd, hfac]; exact h.derivs_made,
    h.expressions⟩

/-- A larger factory does no harm. -/
theorem Holds.mono (h : Holds alg s ds) {f : symbol_factory} (hsub : s.sym_factory.cache ⊆ f.cache) :
    Holds alg { s with sym_factory := f } ds :=
  { h with
    symbols := fun d hd => ⟨hsub (h.symbols d hd).1, (h.symbols d hd).2⟩
    planck := ⟨hsub h.planck.1, h.planck.2⟩
    derivs_made := fun sym hsym => hsub (h.derivs_made sym hsym) }

theorem Holds.nodup_of_kind (h : Holds alg s ds) (k : kind) : ((of_kind k ds).map (·.name)).Nodup := by
  have hnames := (List.nodup_cons.mp h.names).2
  have hsub := (of_kind_sublist k ds).map (·.name)
  rw [List.map_map] at hsub
  exact hnames.sublist hsub

theorem Holds.ids_of_kind (h : Holds alg s ds) (k : kind) :
    ((of_kind k ds).map (·.my_id)).Pairwise (· < ·) := by
  have hsub := (of_kind_sublist k ds).map (·.my_id)
  rw [List.map_map] at hsub
  exact h.ids.sublist hsub

theorem find_table {ds : List (declaration V)} (hnames : (ds.map (·.name)).Nodup) {n : String} :
    ((ofList (·.name) ds).find? fun d => d.name = n) = none ↔ n ∉ ds.map (·.name) := by
  simp only [List.find?_eq_none, decide_eq_true_eq, mem_ofList hnames, List.mem_map, not_exists, not_and]

/-- A symbol exists if its name has been declared, or is that of the Planck mass. -/
theorem Holds.check_eq_none_iff (h : Holds alg s ds) {n : String} :
    s.model.check_symbol_exists n = none ↔ n ∉ MPLANCK_TEXT_NAME :: ds.map (·.2.name) := by
  have hreserved : (s.model.reserved.find? fun d => d.name = n) = none ↔ n ≠ MPLANCK_TEXT_NAME := by
    simp [h.reserved, eq_comm]
  have hall : n ∈ ds.map (·.2.name) ↔ n ∈ (of_kind .field ds).map (·.name) ∨ n ∈ (of_kind .parameter ds).map (·.name) ∨
      n ∈ (of_kind .subexpr ds).map (·.name) := by
    simp only [List.mem_map, mem_of_kind]
    constructor
    · rintro ⟨⟨k, d⟩, hd, rfl⟩
      cases k
      · exact .inl ⟨d, hd, rfl⟩
      · exact .inr (.inl ⟨d, hd, rfl⟩)
      · exact .inr (.inr ⟨d, hd, rfl⟩)
    · rintro (⟨d, hd, rfl⟩ | ⟨d, hd, rfl⟩ | ⟨d, hd, rfl⟩) <;> exact ⟨_, hd, rfl⟩
  rw [lagrangian_block.check_symbol_exists, Option.orElse_eq_none, Option.orElse_eq_none, Option.orElse_eq_none,
    hreserved, h.fields, h.parameters, h.subexprs, find_table (h.nodup_of_kind _), find_table (h.nodup_of_kind _),
    find_table (h.nodup_of_kind _), List.mem_cons, hall]
  tauto

/-- What is found is the Planck mass or has been declared under the name. -/
theorem Holds.mem_of_check (h : Holds alg s ds) {n : String} {d : declaration V}
    (hd : s.model.check_symbol_exists n = some d) :
    d = ⟨MPLANCK_TEXT_NAME, s.model.M_Planck, MPLANCK_LATEX_SYMBOL, 0, alg.symbol s.model.M_Planck⟩ ∨
      ∃ k, (k, d) ∈ ds := by
  have htable (k : kind) (hd : ((ofList (·.name) (of_kind k ds)).find? fun d => d.name = n) = some d) : (k, d) ∈ ds :=
    mem_of_kind.mp ((mem_ofList (h.nodup_of_kind k)).mp (List.mem_of_find?_eq_some hd))
  rw [lagrangian_block.check_symbol_exists, h.fields, h.parameters, h.subexprs] at hd
  rcases (Option.orElse_eq_some _ _ _).mp hd with hd | ⟨-, hd⟩
  · exact .inr ⟨_, htable .field hd⟩
  rcases (Option.orElse_eq_some _ _ _).mp hd with hd | ⟨-, hd⟩
  · exact .inr ⟨_, htable .parameter hd⟩
  rcases (Option.orElse_eq_some _ _ _).mp hd with hd | ⟨-, hd⟩
  · rw [h.reserved] at hd
    exact .inl (List.mem_singleton.mp (List.mem_of_find?_eq_some hd))
  · exact .inr ⟨_, htable .subexpr hd⟩

theorem ofList_append {ds : List (declaration V)} (d : declaration V) :
    ofList (·.name) (ds ++ [d]) = OrderedMap.insert (·.name) (ofList (·.name) ds) d := by
  rw [ofList, List.foldl_append]
  rfl

theorem pairwise_append_singleton {ids : List ℕ} {i : ℕ} (h : ids.Pairwise (· < ·)) (hi : ∀ j ∈ ids, j < i) :
    (ids ++ [i]).Pairwise (· < ·) :=
  List.pairwise_append.mpr ⟨h, List.pairwise_singleton _ _, fun j hj _ hk => List.mem_singleton.mp hk ▸ hi j hj⟩

/-- A new declaration comes last. -/
theorem Holds.insert (h : Holds alg s ds) (hsound : s.sym_factory.Sound) {k : kind} {d : declaration V}
    (hname : d.name ∉ MPLANCK_TEXT_NAME :: ds.map (·.2.name)) (hid : d.my_id = s.current_id)
    (hsymbol : d.symbol ∈ s.sym_factory.cache ∧ d.symbol.name = d.name)
    (hexpr : k ≠ .subexpr → d.expression = alg.symbol d.symbol) :
    Holds alg (s.insert k d) (ds ++ [(k, d)]) ∧ (s.insert k d).sym_factory.Sound := by
  obtain ⟨hsound', hmem, hsym, hsub⟩ := get_real_symbol_sound hsound (DERIV_PREFIX ++ d.symbol.name) ""
  have hids : ((ds ++ [(k, d)]).map (·.2.my_id)).Pairwise (· < ·) := by
    rw [List.map_append]
    refine pairwise_append_singleton h.ids fun j hj => ?_
    obtain ⟨e, he, rfl⟩ := List.mem_map.mp hj
    exact (h.below e he).trans_eq hid.symm
  have hbelow : ∀ e ∈ ds ++ [(k, d)], e.2.my_id < s.current_id + 1 := by
    refine List.forall_mem_append.mpr ⟨fun e he => (h.below e he).trans (Nat.lt_succ_self _), ?_⟩
    rw [List.forall_mem_singleton, hid]
    exact Nat.lt_succ_self _
  have hnames : (MPLANCK_TEXT_NAME :: (ds ++ [(k, d)]).map (·.2.name)).Nodup := by
    rw [List.map_append, ← List.cons_append]
    exact List.nodup_append'.mpr ⟨h.names, List.nodup_singleton _, by simpa using hname⟩
  have hsymbols : ∀ e ∈ ds ++ [(k, d)], e.2.symbol ∈ s.sym_factory.cache ∧ e.2.symbol.name = e.2.name :=
    List.forall_mem_append.mpr ⟨h.symbols, List.forall_mem_singleton.mpr hsymbol⟩
  have hexpressions : ∀ e ∈ ds ++ [(k, d)], e.1 ≠ .subexpr → e.2.expression = alg.symbol e.2.symbol :=
    List.forall_mem_append.mpr ⟨h.expressions, List.forall_mem_singleton.mpr hexpr⟩
  cases k with
  | field =>
    refine ⟨⟨?_, ?_, ?_, h.reserved, hids, hbelow, hnames, ?_, ?_, ?_, ?_, hexpressions⟩, hsound'⟩
    · rw [of_kind_concat_self, ofList_append, ← h.fields]
      rfl
    · rw [of_kind_concat_of_ne (by decide)]
      exact h.parameters
    · rw [of_kind_concat_of_ne (by decide)]
      exact h.subexprs
    · exact fun e he => ⟨hsub (hsymbols e he).1, (hsymbols e he).2⟩
    · exact ⟨hsub h.planck.1, h.planck.2⟩
    · rw [hsymbol.2] at hsym
      rw [of_kind_concat_self, List.map_append, ← h.derivs]
      simp [model_descriptor.insert, hsym, hsymbol.2]
    · intro sym hmem'
      rcases List.mem_append.mp hmem' with hold | hnew
      · exact hsub (h.derivs_made sym hold)
      · rw [List.mem_singleton.mp hnew]
        exact hmem
  | parameter =>
    refine ⟨⟨?_, ?_, ?_, h.reserved, hids, hbelow, hnames, hsymbols, h.planck, ?_, h.derivs_made, hexpressions⟩, hsound⟩
    · rw [of_kind_concat_of_ne (by decide)]
      exact h.fields
    · rw [of_kind_concat_self, ofList_append, ← h.parameters]
      rfl
    · rw [of_kind_concat_of_ne (by decide)]
      exact h.subexprs
    · rw [of_kind_concat_of_ne (by decide)]
      exact h.derivs
  | subexpr =>
    refine ⟨⟨?_, ?_, ?_, h.reserved, hids, hbelow, hnames, hsymbols, h.planck, ?_, h.derivs_made, hexpressions⟩, hsound⟩
    · rw [of_kind_concat_of_ne (by decide)]
      exact h.fields
    · rw [of_kind_concat_of_ne (by decide)]
      exact h.parameters
    · rw [of_kind_concat_self, ofList_append, ← h.subexprs]
      rfl
    · rw [of_kind_concat_of_ne (by decide)]
      exact h.derivs

/-- A set of expressions that nothing leads out of. -/
structure Closed (d : expression_tree_driver V) (P : V → Prop) : Prop where
  integer : ∀ z, P (d.integer z)
  decimal : ∀ q, P (d.decimal q)
  add : ∀ x y, P x → P y → P (d.add x y)
  sub : ∀ x y, P x → P y → P (d.sub x y)
  mul : ∀ x y, P x → P y → P (d.mul x y)
  div : ∀ x y, P x → P y → P (d.div x y)
  pow : ∀ x y, P x → P y → P (d.pow x y)
  unary_minus : ∀ x, P x → P (d.unary_minus x)
  function : ∀ k args, (∀ x ∈ args, P x) → P (d.function k args)

/-- An expression is made of the symbols of these fields and parameters and of the Planck mass. -/
def Generated (alg : algebra V) (ds : List (kind × declaration V)) (planck : ginac_symbol) (v : V) : Prop :=
  ∀ P : V → Prop, Closed alg.driver P → P (alg.symbol planck) →
    (∀ e ∈ ds, e.1 ≠ .subexpr → P (alg.symbol e.2.symbol)) → P v

theorem Generated.mono {ds' : List (kind × declaration V)} {planck : ginac_symbol} {v : V}
    (h : Generated alg ds planck v) (hsub : ds ⊆ ds') : Generated alg ds' planck v :=
  fun P hP hplanck hsymbols => h P hP hplanck fun e he => hsymbols e (hsub he)

/-- Where the symbols lie in a closed set, so do the values of expressions. -/
theorem Closed.value {d : expression_tree_driver V} {P : V → Prop} (hP : Closed d P)
    (hsymbols : ∀ id e, d.check_symbol_exists id = some e → P e) {t : tree} (ht : t.WellFormed y_grammar) :
    P (t.value d.actions) := by
  have hidentifier (x : token) : P (d.get_identifier x).1 := by
    cases x with
    | identifier id =>
      rw [expression_tree_driver.get_identifier]
      cases hid : d.check_symbol_exists id with
      | some e => exact hsymbols id e hid
      | none => exact hP.integer 1
    | _ => exact hP.integer 1
  induction ht with
  | atom x =>
    cases x with
    | integer z => exact hP.integer z
    | decimal q => exact hP.decimal q
    | _ => exact hidentifier _
  | @binary l r op _ _ ihl ihr =>
    cases op with
    | plus => exact hP.add _ _ ihl ihr
    | binary_minus => exact hP.sub _ _ ihl ihr
    | star => exact hP.mul _ _ ihl ihr
    | foreslash => exact hP.div _ _ ihl ihr
    | circumflex => exact hP.pow _ _ ihl ihr
  | negative _ ih => exact hP.unary_minus _ ih
  | bracket _ ih => exact ih
  | @call f args _ _ _ ih =>
    have hargs : ∀ x ∈ OperatorPrecedence.ParseTree.values d.actions args, P x := by
      rw [OperatorPrecedence.ParseTree.values_eq_map]
      intro x hx
      obtain ⟨t, ht, rfl⟩ := List.mem_map.mp hx
      exact ih t ht
    rw [OperatorPrecedence.ParseTree.value]
    generalize OperatorPrecedence.ParseTree.values d.actions args = vs at hargs
    show P (d.built_in_function f vs)
    unfold expression_tree_driver.built_in_function
    split
    · exact hP.pow _ _ (hargs _ (by simp)) (hargs _ (by simp))
    · exact hP.function _ _ hargs

/-- The state follows the outline. -/
structure Follows (alg : algebra V) (s : model_descriptor V M) (o : outline) (ds : List (kind × declaration V)) :
    Prop where
  holds : Holds alg s ds
  sound : s.sym_factory.Sound
  declared : o.declared = ds.map fun d => ⟨d.1, d.2.name, d.2.latex⟩
  started : s.model.symbols_frozen = o.started
  type : s.model.type = o.type
  potential : s.model.potential.isSome = o.potential
  metric : s.model.metric.isSome = o.metric
  rejected : s.err_count = o.rejected
  stopped : s.stopped = o.stopped
  /-- The value of a subexpression is made of what was declared before it. -/
  generated : ∀ e ∈ ds, e.1 = .subexpr →
    Generated alg (ds.filter fun d => d.2.my_id < e.2.my_id) s.model.M_Planck e.2.expression
  specified : ∀ v ∈ s.model.potential, Generated alg ds s.model.M_Planck v

theorem Follows.names (h : Follows alg s o ds) : o.names = MPLANCK_TEXT_NAME :: ds.map (·.2.name) := by
  rw [outline.names, h.declared, List.map_map]
  rfl

/-- Reports are not part of the outline. -/
theorem Follows.report (h : Follows alg s o ds) (more : List (Bool × String)) : Follows alg (s.report more) o ds :=
  { h with holds := h.holds.congr rfl }

/-- An error that is counted. -/
theorem Follows.reject (h : Follows alg s o ds) (more : List (Bool × String)) :
    Follows alg (s.report more).report_error (o.reject 1) ds :=
  { h with
    holds := h.holds.congr rfl
    rejected := congrArg (· + 1) h.rejected }

theorem Follows.reject_zero (h : Follows alg s o ds) : Follows alg s (o.reject 0) ds := h

/-- Where the state has an expression for a name, it is made of declared symbols. -/
theorem Follows.value (h : Follows alg s o ds) {t : tree} (ht : t.WellFormed y_grammar) :
    Generated alg ds s.model.M_Planck (t.value (s.driver alg).actions) := by
  intro P hP hplanck hsymbols
  have hclosed : Closed (s.driver alg) P :=
    ⟨hP.integer, hP.decimal, hP.add, hP.sub, hP.mul, hP.div, hP.pow, hP.unary_minus, hP.function⟩
  refine hclosed.value (fun id e he => ?_) ht
  obtain ⟨d, hd, rfl⟩ := Option.map_eq_some_iff.mp he
  obtain rfl | ⟨k, hk⟩ := h.holds.mem_of_check hd
  · exact hplanck
  by_cases hkind : k = .subexpr
  · subst hkind
    exact h.generated _ hk rfl P hP hplanck fun e he => hsymbols e (List.mem_filter.mp he).1
  · rw [h.holds.expressions _ hk hkind]
    exact hsymbols _ hk hkind

/-- A declaration is accepted or rejected as in the outline. -/
theorem Follows.add (h : Follows alg s o ds) (k : kind) (n latex : String) {v : V}
    (hv : k = .subexpr → Generated alg ds s.model.M_Planck v) :
    ∃ ds', Follows alg (s.add alg k n latex v) (o.declare k n latex) ds' := by
  obtain ⟨hsound, hmem, hname, hsub⟩ := get_real_symbol_sound h.sound n latex
  have hmore : Follows alg { s with sym_factory := (s.sym_factory.get_real_symbol n latex).2 } o ds :=
    { h with
      holds := h.holds.mono hsub
      sound := hsound }
  rw [model_descriptor.add, outline.declare]
  by_cases hfrozen : s.model.symbols_frozen = true
  · rw [if_pos hfrozen, if_pos (.inl (h.started ▸ hfrozen))]
    exact ⟨ds, hmore.reject _⟩
  rw [if_neg hfrozen, GenericInsertSymbol]
  cases hcheck : s.model.check_symbol_exists n with
  | some d =>
    have htaken : n ∈ o.names := by
      rw [h.names]
      by_contra hfree
      rw [h.holds.check_eq_none_iff.mpr hfree] at hcheck
      cases hcheck
    rw [if_pos (show o.started = true ∨ n ∈ o.names from .inr htaken)]
    exact ⟨ds, hmore.reject _⟩
  | none =>
    have hfree := h.holds.check_eq_none_iff.mp hcheck
    have hnot : ¬ (o.started = true ∨ n ∈ o.names) := by
      rw [h.names, ← h.started]
      exact not_or.mpr ⟨hfrozen, hfree⟩
    rw [if_neg hnot]
    obtain ⟨hholds, hsound'⟩ := hmore.holds.insert (k := k)
      (d := ⟨n, (s.sym_factory.get_real_symbol n latex).1, latex, s.current_id,
        if k = .subexpr then v else alg.symbol (s.sym_factory.get_real_symbol n latex).1⟩)
      hsound hfree rfl ⟨hmem, hname⟩ fun hk => if_neg hk
    have hfilter (e : kind × declaration V) (he : e ∈ ds) (d : kind × declaration V) (hd : d.2.my_id = s.current_id) :
        (ds ++ [d]).filter (fun d => d.2.my_id < e.2.my_id) = ds.filter fun d => d.2.my_id < e.2.my_id := by
      have hlt := h.holds.below e he
      rw [List.filter_append, List.filter_singleton, hd, decide_eq_false hlt.not_gt, cond_false, List.append_nil]
    refine ⟨_, hholds, hsound', ?_, ?_, ?_, ?_, ?_, ?_, ?_, ?_, ?_⟩
    · rw [List.map_append, ← h.declared]
      rfl
    · cases k <;> exact h.started
    · cases k <;> exact h.type
    · cases k <;> exact h.potential
    · cases k <;> exact h.metric
    · cases k <;> exact h.rejected
    · cases k <;> exact h.stopped
    · intro e he hkind
      have hplanck (d : declaration V) : ({ s with sym_factory := (s.sym_factory.get_real_symbol n latex).2 }.insert k
          d).model.M_Planck = s.model.M_Planck := by cases k <;> rfl
      simp only [catch_parse_error, hplanck]
      rcases List.mem_append.mp he with he | he
      · rw [hfilter e he _ rfl]
        exact h.generated e he hkind
      · obtain rfl := List.mem_singleton.mp he
        obtain rfl : k = .subexpr := hkind
        refine (hv rfl).mono fun d hd => List.mem_filter.mpr ⟨List.mem_append_left _ hd, ?_⟩
        exact decide_eq_true (h.holds.below d hd)
    · intro w hw
      have hold : w ∈ s.model.potential := by cases k <;> exact hw
      cases k <;> exact (h.specified w hold).mono (List.subset_append_left _ _)

@[simp] theorem reject_reject (o : outline) (a b : ℕ) : (o.reject a).reject b = o.reject (a + b) := by
  rw [outline.reject, outline.reject, outline.reject, Nat.add_assoc]

/-- An attribute that is given again is an error. -/
theorem Follows.set_attribute {α : Type} (h : Follows alg s o ds) (err_msg : String) (data : Option α) (value : α) :
    Follows alg (s.set_attribute err_msg data value).1 (o.reject (if data.isSome then 1 else 0)) ds ∧
      (s.set_attribute err_msg data value).2 = some (data.getD value) := by
  cases data with
  | none => exact ⟨h, rfl⟩
  | some old => exact ⟨h.reject _, rfl⟩

theorem Follows.read_attributes (h : Follows alg s o ds) (latex : Option String) (strs : List String) :
    Follows alg (model_descriptor.read_attributes s latex strs).1
      (o.reject (if latex.isSome then strs.length else strs.length - 1)) ds ∧
      (model_descriptor.read_attributes s latex strs).2 = latex.or strs.head? := by
  induction strs generalizing s o latex with
  | nil =>
    rw [model_descriptor.read_attributes]
    exact ⟨by simpa using h.reject_zero, by simp⟩
  | cons str strs ih =>
    obtain ⟨hset, hvalue⟩ := h.set_attribute ERROR_LATEX_REDECLARATION latex str
    obtain ⟨hrest, hlatex⟩ := ih hset (s.set_attribute ERROR_LATEX_REDECLARATION latex str).2
    rw [model_descriptor.read_attributes]
    refine ⟨?_, ?_⟩
    · rw [reject_reject, hvalue] at hrest
      rw [hvalue]
      cases latex <;> simpa [Nat.add_comm] using hrest
    · rw [hlatex, hvalue]
      cases latex <;> rfl

/-- The reading of an expression ends at its semicolon. -/
theorem accepted_iff (d : expression_tree_driver V) (e : expression_text) {v : V} {rest : List token}
    {reports : List String} :
    expression d (e.tokens ++ [.character .semicolon]) = (.accepted v rest, reports) ↔
      rest = [] ∧ e.tokens.flatMap d.reports = reports ∧
        ∃ t : tree, Spells e.tokens t.yield ∧ t.Resolved y_grammar ∧ t.value d.actions = v := by
  rw [expression, read_on_accepted_iff]
  constructor
  · rintro ⟨xs, ss, htokens, hspells, hreports, hparse⟩
    obtain ⟨rfl, -, rfl⟩ := (List.append_cons_inj_of_notMem e.unfinished List.not_mem_nil).mp htokens
    obtain ⟨t, hres, rfl, hvalue⟩ := OperatorPrecedence.Grammar.parse_eq_some_iff.mp hparse
    exact ⟨rfl, hreports, t, hspells, hres, hvalue⟩
  · rintro ⟨rfl, hreports, t, hspells, hres, rfl⟩
    exact ⟨e.tokens, t.yield, rfl, hspells, hreports, OperatorPrecedence.Grammar.parse_yield hres⟩

/-- An expression has a value if it is one, and then the value is that of a resolved tree. -/
theorem read_expression_cases (s : model_descriptor V M) (alg : algebra V) (e : expression_text) :
    (e.IsSentence ∧ ∃ more, ∃ t : tree, t.WellFormed y_grammar ∧
      s.read_expression alg e = (s.report more, some (t.value (s.driver alg).actions))) ∨
    (¬ e.IsSentence ∧ ∃ more, s.read_expression alg e = ({ s.report more with stopped := true }, none)) := by
  rw [model_descriptor.read_expression]
  rcases hexpr : expression (s.driver alg) (e.tokens ++ [.character .semicolon]) with ⟨out, reports⟩
  cases out with
  | accepted v rest =>
    obtain ⟨-, -, t, hspells, hres, rfl⟩ := (accepted_iff _ e).mp hexpr
    exact .inl ⟨⟨t, hres.wellFormed, hspells⟩, _, t, hres.wellFormed, by rw [hexpr]⟩
  | syntax_error rest =>
    refine .inr ⟨?_, _, by rw [hexpr]⟩
    rintro ⟨t, hwf, hspells⟩
    obtain ⟨v, hv⟩ := Option.isSome_iff_exists.mp
      (OperatorPrecedence.Grammar.parse_isSome_iff (a := (s.driver alg).actions).mpr ⟨t, hwf, rfl⟩)
    obtain ⟨t', hres, hyield, rfl⟩ := OperatorPrecedence.Grammar.parse_eq_some_iff.mp hv
    rw [(accepted_iff _ e).mpr ⟨rfl, rfl, t', hyield ▸ hspells, hres, rfl⟩] at hexpr
    cases hexpr

/-- The errors of a block of which these attributes are known. -/
def repeated (latex : Bool) (v : Bool) (r : List String × ℕ × Bool) : ℕ :=
  (if latex then r.1.length else r.1.length - 1) + if v then r.2.1 else r.2.1 - 1

theorem repeated_latex (latex v : Bool) (str : String) (r : List String × ℕ × Bool) :
    (if latex then 1 else 0) + repeated true v r = repeated latex v (str :: r.1, r.2) := by
  cases latex <;> simp only [repeated, ite_true, Bool.false_eq_true, if_false, List.length_cons] <;> omega

theorem repeated_value (latex v : Bool) (r : List String × ℕ × Bool) :
    (if v then 1 else 0) + repeated latex true r = repeated latex v (r.1, r.2.1 + 1, r.2.2) := by
  cases v <;> simp only [repeated, ite_true, Bool.false_eq_true, if_false] <;> omega

theorem Follows.stop (h : Follows alg s o ds) {n : ℕ} (hn : n = 0) :
    Follows alg { s with stopped := true } { o.reject n with stopped := true } ds := by
  subst hn
  exact { h with
    holds := h.holds.congr rfl
    stopped := rfl }

theorem set_attribute_model {α : Type} (s : model_descriptor V M) (err_msg : String) (data : Option α) (value : α) :
    (s.set_attribute err_msg data value).1.model = s.model := by
  cases data <;> rfl

/-- The block of a subexpression. -/
theorem Follows.read_items (h : Follows alg s o ds) (hgo : s.stopped = false) (latex : Option String) (v : Option V)
    (hv : ∀ w ∈ v, Generated alg ds s.model.M_Planck w) (is : List subexpr_item) :
    Follows alg (model_descriptor.read_items alg s latex v is).1
      { o.reject (repeated latex.isSome v.isSome (outline.items is)) with stopped := (outline.items is).2.2 } ds ∧
      (model_descriptor.read_items alg s latex v is).2.1 = latex.or (outline.items is).1.head? ∧
      ∀ w ∈ (model_descriptor.read_items alg s latex v is).2.2,
        Generated alg ds (model_descriptor.read_items alg s latex v is).1.model.M_Planck w := by
  induction is generalizing s o latex v with
  | nil =>
    refine ⟨{ h with rejected := ?_, stopped := hgo }, by simp [model_descriptor.read_items, outline.items], hv⟩
    cases latex <;> cases v <;> exact h.rejected
  | cons i is ih =>
    cases i with
    | latex str =>
      obtain ⟨hset, hvalue⟩ := h.set_attribute ERROR_LATEX_REDECLARATION latex str
      have hgo' : (s.set_attribute ERROR_LATEX_REDECLARATION latex str).1.stopped = false :=
        hset.stopped.trans (h.stopped.symm.trans hgo)
      obtain ⟨hrest, hlatex, hvalues⟩ := ih hset hgo' (s.set_attribute ERROR_LATEX_REDECLARATION latex str).2 v
        (by rwa [set_attribute_model])
      rw [reject_reject, hvalue, Option.isSome_some, repeated_latex _ _ str] at hrest
      rw [hvalue] at hvalues
      rw [model_descriptor.read_items, outline.items, hlatex, hvalue]
      exact ⟨hrest, by cases latex <;> rfl, hvalues⟩
    | value e =>
      rw [model_descriptor.read_items, outline.items]
      obtain ⟨hsentence, more, t, hwf, hread⟩ | ⟨hno, more, hread⟩ := read_expression_cases s alg e
      · rw [hread, if_pos hsentence]
        obtain ⟨hset, hvalue⟩ :=
          (h.report more).set_attribute ERROR_VALUE_REDECLARATION v (t.value (s.driver alg).actions)
        have hgo' := hset.stopped.trans (h.stopped.symm.trans hgo)
        have hkept : ∀ w ∈ ((s.report more).set_attribute ERROR_VALUE_REDECLARATION v
            (t.value (s.driver alg).actions)).2, Generated alg ds s.model.M_Planck w := by
          rw [hvalue]
          rintro w ⟨rfl⟩
          cases v with
          | none => exact h.value hwf
          | some old => exact hv old rfl
        obtain ⟨hrest, hlatex, hvalues⟩ := ih hset hgo' latex
          ((s.report more).set_attribute ERROR_VALUE_REDECLARATION v (t.value (s.driver alg).actions)).2
          (by rwa [set_attribute_model])
        rw [reject_reject, hvalue, Option.isSome_some, repeated_value, ← hvalue] at hrest
        exact ⟨hrest, hlatex, hvalues⟩
      · rw [hread, if_neg hno]
        refine ⟨(h.report more).stop ?_, by simp, hv⟩
        cases latex <;> cases v <;> rfl

theorem Option.or_none_getD (l : List String) : ((none : Option String).or l.head?).getD "" = l.headD "" := by
  cases l <;> rfl

/-- A statement does to the state what it does to the outline. -/
theorem Follows.step (h : Follows alg s o ds) (st : statement M) :
    ∃ ds', Follows alg (s.step alg st) (o.step st) ds' := by
  unfold model_descriptor.step outline.step
  by_cases hstopped : s.stopped = true
  · rw [if_pos hstopped, if_pos (h.stopped ▸ hstopped)]
    exact ⟨ds, h⟩
  have hgo : s.stopped = false := Bool.eq_false_iff.mpr hstopped
  have hogo : o.stopped = false := h.stopped.symm.trans hgo
  rw [if_neg hstopped, if_neg (h.stopped ▸ hstopped)]
  cases st with
  | field n latex =>
    obtain ⟨hread, hlatex⟩ := h.read_attributes none latex
    simp only [hlatex, Option.or_none_getD]
    exact hread.add .field n _ nofun
  | parameter n latex =>
    obtain ⟨hread, hlatex⟩ := h.read_attributes none latex
    simp only [hlatex, Option.or_none_getD]
    exact hread.add .parameter n _ nofun
  | subexpr n is =>
    obtain ⟨hread, hlatex, hvalues⟩ := h.read_items hgo none none nofun is
    simp only [hlatex, Option.or_none_getD]
    cases hend : (outline.items is).2.2 with
    | true =>
      rw [hend] at hread
      rw [if_pos hread.stopped, if_pos rfl]
      exact ⟨ds, hread⟩
    | false =>
      have hread' : Follows alg (model_descriptor.read_items alg s none none is).1
          (o.reject (repeated false false (outline.items is))) ds :=
        { hread with stopped := hread.stopped.trans (hend.trans hogo.symm) }
      rw [if_neg (by rw [hread.stopped, hend]; exact Bool.false_ne_true), if_neg Bool.false_ne_true]
      refine hread'.add .subexpr n _ fun _ => ?_
      cases hv : (model_descriptor.read_items alg s none none is).2.2 with
      | some w => exact hvalues w hv
      | none => exact fun P hP _ _ => hP.integer 0
  | potential e =>
    dsimp only
    obtain ⟨hsentence, more, t, hwf, hread⟩ | ⟨hno, more, hread⟩ := read_expression_cases s alg e
    · rw [hread]
      simp only [if_pos hsentence]
      have hmore := h.report more
      have hsame : (s.report more).freeze_tables.model.potential = s.model.potential := rfl
      rw [set_potential, hsame, ← h.potential]
      cases hpotential : s.model.potential with
      | some old =>
        refine ⟨ds, Follows.reject (s := (s.report more).freeze_tables) ?_ _⟩
        exact { hmore with
          holds := hmore.holds.congr rfl
          started := rfl
          potential := congrArg Option.isSome (hsame.trans hpotential) }
      | none =>
        refine ⟨ds, { hmore with holds := hmore.holds.congr rfl, started := rfl, potential := rfl, specified := ?_ }⟩
        rintro w ⟨rfl⟩
        exact h.value hwf
    · rw [hread]
      simp only [if_neg hno]
      exact ⟨ds, (h.report more).stop rfl⟩
  | metric f =>
    dsimp only
    rw [set_metric, ← h.type]
    by_cases htype : s.model.type = some .nontrivial_metric
    · simp only [if_pos htype]
      have hsame : s.freeze_tables.model.metric = s.model.metric := rfl
      rw [hsame, ← h.metric]
      cases hmetric : s.model.metric with
      | some old =>
        refine ⟨ds, Follows.reject (s := s.freeze_tables) ?_ _⟩
        exact { h with
          holds := h.holds.congr rfl
          started := rfl
          type := rfl
          metric := congrArg Option.isSome (hsame.trans hmetric) }
      | none => exact ⟨ds, { h with holds := h.holds.congr rfl, started := rfl, type := rfl, metric := rfl }⟩
    · simp only [if_neg htype]
      exact ⟨ds, h.reject _⟩
  | lagrangian t =>
    dsimp only
    rw [set_lagrangian_type, ← h.type]
    cases s.model.type with
    | some old => exact ⟨ds, h.reject _⟩
    | none => exact ⟨ds, { h with holds := h.holds.congr rfl, type := rfl }⟩

theorem follows_start : Follows alg (start alg : model_descriptor V M) outline.start [] := by
  refine ⟨⟨rfl, rfl, rfl, rfl, .nil, ?_, List.nodup_singleton _, ?_, ⟨List.mem_singleton_self _, rfl⟩, rfl, ?_, ?_⟩,
    ⟨List.nodup_singleton _, rfl⟩, rfl, rfl, rfl, rfl, rfl, rfl, rfl, ?_, fun v hv => nomatch hv⟩ <;>
  exact fun d hd => absurd hd List.not_mem_nil

theorem follows_script (alg : algebra V) (statements : List (statement M)) :
    ∃ ds, Follows alg (script alg statements) (outline.script statements) ds := by
  have hrun : ∀ (s : model_descriptor V M) (o : outline) (ds : List (kind × declaration V)), Follows alg s o ds →
      ∃ ds', Follows alg (statements.foldl (model_descriptor.step alg) s) (statements.foldl outline.step o) ds' := by
    induction statements with
    | nil => exact fun s o ds h => ⟨ds, h⟩
    | cons st statements ih =>
      intro s o ds h
      obtain ⟨ds', h'⟩ := h.step st
      exact ih _ _ ds' h'
  exact hrun _ _ [] follows_start

/-! ### What the rest of the translator sees -/

/-- The entries of a kind. -/
def outline.entries (o : outline) (k : kind) : List entry := o.declared.filter (·.kind = k)

/-- The LaTeX name of an entry is its own name if there is no other. -/
def entry.latex_name (e : entry) : String := if e.latex.length = 0 then e.name else e.latex

/-- What a model of this outline lacks. -/
def outline.missing (o : outline) : List String :=
  (if o.potential then [] else [ERROR_NO_POTENTIAL]) ++
    if o.type = some .nontrivial_metric ∧ ¬ o.metric then [ERROR_NO_METRIC] else []

/-- The answers of a state are those of an outline. -/
structure Represents (s : model_descriptor V M) (o : outline) : Prop where
  field_names : s.model.get_field_name_list = (o.entries .field).map (·.name)
  field_latex : s.model.get_field_latex_list = (o.entries .field).map (·.latex_name)
  param_names : s.model.get_param_name_list = (o.entries .parameter).map (·.name)
  param_latex : s.model.get_param_latex_list = (o.entries .parameter).map (·.latex_name)
  field_symbols : s.model.get_field_symbols.map (·.name) = (o.entries .field).map (·.name)
  deriv_symbols : s.model.deriv_symbols.map (·.name) = (o.entries .field).map fun e => DERIV_PREFIX ++ e.name
  param_symbols : s.model.get_param_symbols.map (·.name) = (o.entries .parameter).map (·.name)
  check_symbol_exists : ∀ n, (s.model.check_symbol_exists n).isSome ↔ n ∈ o.names
  frozen : s.model.symbols_frozen = o.started
  errors : s.err_count = o.rejected
  validate : s.model.validate = o.missing
  stopped : s.stopped = o.stopped

theorem Follows.entries (h : Follows alg s o ds) (k : kind) :
    o.entries k = (of_kind k ds).map fun d => ⟨k, d.name, d.latex⟩ := by
  rw [outline.entries, h.declared, of_kind, List.filter_map, List.map_map]
  refine List.map_congr_left fun d hd => ?_
  obtain rfl : d.1 = k := of_decide_eq_true (List.mem_filter.mp hd).2
  rfl

theorem Follows.unzip_fields (h : Follows alg s o ds) {α : Type} (get : declaration V → α) :
    UnzipSortedZipList s.model.fields get = (of_kind .field ds).map get := by
  rw [h.holds.fields, unzip_ofList (h.holds.ids_of_kind _) (h.holds.nodup_of_kind _)]

theorem Follows.unzip_parameters (h : Follows alg s o ds) {α : Type} (get : declaration V → α) :
    UnzipSortedZipList s.model.parameters get = (of_kind .parameter ds).map get := by
  rw [h.holds.parameters, unzip_ofList (h.holds.ids_of_kind _) (h.holds.nodup_of_kind _)]

theorem Follows.symbol_names (h : Follows alg s o ds) (k : kind) :
    (of_kind k ds).map (·.symbol.name) = (o.entries k).map (·.name) := by
  rw [h.entries, List.map_map]
  exact List.map_congr_left fun d hd => (h.holds.symbols _ (mem_of_kind.mp hd)).2

theorem Follows.represents (h : Follows alg s o ds) : Represents s o where
  field_names := by rw [lagrangian_block.get_field_name_list, h.unzip_fields, h.entries, List.map_map]; rfl
  field_latex := by rw [lagrangian_block.get_field_latex_list, h.unzip_fields, h.entries, List.map_map]; rfl
  param_names := by rw [lagrangian_block.get_param_name_list, h.unzip_parameters, h.entries, List.map_map]; rfl
  param_latex := by rw [lagrangian_block.get_param_latex_list, h.unzip_parameters, h.entries, List.map_map]; rfl
  field_symbols := by
    rw [lagrangian_block.get_field_symbols, h.unzip_fields, List.map_map, ← h.symbol_names]; rfl
  deriv_symbols := by rw [h.holds.derivs, h.entries, List.map_map]; rfl
  param_symbols := by
    rw [lagrangian_block.get_param_symbols, h.unzip_parameters, List.map_map, ← h.symbol_names]; rfl
  check_symbol_exists n := by
    rw [h.names, ← not_iff_not, ← h.holds.check_eq_none_iff, Bool.not_eq_true, Option.isSome_eq_false_iff,
      Option.isNone_iff_eq_none]
  frozen := h.started
  errors := h.rejected
  validate := by
    rw [lagrangian_block.validate, outline.missing, ← h.potential, ← h.type, ← h.metric]
    rcases s.model.type with _ | _ | _ <;> cases s.model.metric <;> simp
  stopped := h.stopped

/-- **The tables hold what the model file says**: after every file, the names and symbols in the order of their
declarations, which names exist, what is missing and the number of errors are those of the outline; and no name is
declared twice, or is that of the Planck mass. -/
theorem represents_script (alg : algebra V) (statements : List (statement M)) :
    Represents (script alg statements) (outline.script statements) ∧ (outline.script statements).names.Nodup := by
  obtain ⟨ds, h⟩ := follows_script alg statements
  exact ⟨h.represents, h.names ▸ h.holds.names⟩

/-! ### Different symbols -/

theorem planck_ne_deriv (n : String) : MPLANCK_SYMBOL ≠ DERIV_PREFIX ++ n := by
  intro heq
  have hlist := congrArg String.toList heq
  simp [MPLANCK_SYMBOL, DERIV_PREFIX] at hlist

theorem deriv_injective {m n : String} (h : DERIV_PREFIX ++ m = DERIV_PREFIX ++ n) : m = n := by
  have hlist := congrArg String.toList h
  rw [String.toList_append, String.toList_append, List.append_cancel_left_eq] at hlist
  exact String.toList_inj.mp hlist

/-- Names with those of momenta and of the Planck mass are different. -/
theorem nodup_symbol_names {fields params : List String} (h : (fields ++ params).Nodup) :
    (MPLANCK_SYMBOL :: (fields ++ (fields.map (DERIV_PREFIX ++ ·) ++ params))).Nodup ↔
      ∀ n ∈ fields ++ params, n ≠ MPLANCK_SYMBOL ∧ ∀ f ∈ fields, n ≠ DERIV_PREFIX ++ f := by
  obtain ⟨hf, hp, hdisj⟩ := List.nodup_append'.mp h
  have hd : (fields.map (DERIV_PREFIX ++ ·)).Nodup := hf.map fun m n heq => deriv_injective heq
  constructor
  · intro hall n hn
    obtain ⟨hplanck, hrest⟩ := List.nodup_cons.mp hall
    obtain ⟨-, hrest', hfields⟩ := List.nodup_append'.mp hrest
    obtain ⟨-, -, hparams⟩ := List.nodup_append'.mp hrest'
    refine ⟨?_, fun f hmem heq => ?_⟩
    · rintro rfl
      refine hplanck ?_
      rcases List.mem_append.mp hn with hn | hn
      · exact List.mem_append_left _ hn
      · exact List.mem_append_right _ (List.mem_append_right _ hn)
    · have hderiv : n ∈ fields.map (DERIV_PREFIX ++ ·) := heq ▸ List.mem_map_of_mem hmem
      rcases List.mem_append.mp hn with hn | hn
      · exact hfields hn (List.mem_append_left _ hderiv)
      · exact hparams hderiv hn
  · intro hall
    refine List.nodup_cons.mpr ⟨fun hmem => ?_, List.nodup_append'.mpr ⟨hf, List.nodup_append'.mpr ⟨hd, hp, ?_⟩, ?_⟩⟩
    · rcases List.mem_append.mp hmem with hmem | hmem
      · exact (hall _ (List.mem_append_left _ hmem)).1 rfl
      rcases List.mem_append.mp hmem with hmem | hmem
      · obtain ⟨f, -, heq⟩ := List.mem_map.mp hmem
        exact planck_ne_deriv f heq.symm
      · exact (hall _ (List.mem_append_right _ hmem)).1 rfl
    · intro n hderiv hn
      obtain ⟨f, hf', rfl⟩ := List.mem_map.mp hderiv
      exact (hall _ (List.mem_append_right _ hn)).2 f hf' rfl
    · intro n hn hrest
      rcases List.mem_append.mp hrest with hderiv | hparam
      · obtain ⟨f, hf', rfl⟩ := List.mem_map.mp hderiv
        exact (hall _ (List.mem_append_left _ hn)).2 f hf' rfl
      · exact hdisj hn hparam

/-- The symbols of a model: the Planck mass, the fields, their momenta and the parameters. -/
def lagrangian_block.model_symbols (b : lagrangian_block V M) : List ginac_symbol :=
  b.M_Planck :: (b.get_field_symbols ++ (b.deriv_symbols ++ b.get_param_symbols))

theorem Follows.nodup_names (h : Follows alg s o ds) :
    ((o.entries .field).map (·.name) ++ (o.entries .parameter).map (·.name)).Nodup := by
  have hname (k : kind) : (o.entries k).map (·.name) = (of_kind k ds).map (·.name) := by
    rw [h.entries, List.map_map]
    rfl
  rw [hname, hname]
  refine List.nodup_append'.mpr ⟨h.holds.nodup_of_kind _, h.holds.nodup_of_kind _, fun n hn hn' => ?_⟩
  obtain ⟨d, hd, rfl⟩ := List.mem_map.mp hn
  obtain ⟨d', hd', heq⟩ := List.mem_map.mp hn'
  have hsame := List.inj_on_of_nodup_map (List.nodup_cons.mp h.holds.names).2 (mem_of_kind.mp hd) (mem_of_kind.mp hd')
    heq.symm
  cases hsame

/-- **The symbols of a model are different** from each other if and only if no field and no parameter has the name
under which the factory keeps the Planck mass or the momentum of a field. -/
theorem distinct_symbols_iff (alg : algebra V) (statements : List (statement M)) :
    ((script alg statements).model.model_symbols.map (·.serial)).Nodup ↔
      ∀ e ∈ (outline.script statements).declared, e.kind ≠ .subexpr → e.name ≠ MPLANCK_SYMBOL ∧
        ∀ f ∈ (outline.script statements).declared, f.kind = .field → e.name ≠ DERIV_PREFIX ++ f.name := by
  obtain ⟨ds, h⟩ := follows_script alg statements
  generalize script alg statements = s at h
  generalize outline.script statements = o at h
  have hr := h.represents
  have hmade : ∀ sym ∈ s.model.model_symbols, sym ∈ s.sym_factory.cache := by
    intro sym hsym
    rw [lagrangian_block.model_symbols, lagrangian_block.get_field_symbols, h.unzip_fields,
      lagrangian_block.get_param_symbols, h.unzip_parameters] at hsym
    rcases List.mem_cons.mp hsym with rfl | hsym
    · exact h.holds.planck.1
    rcases List.mem_append.mp hsym with hsym | hsym
    · obtain ⟨d, hd, rfl⟩ := List.mem_map.mp hsym
      exact (h.holds.symbols _ (mem_of_kind.mp hd)).1
    rcases List.mem_append.mp hsym with hsym | hsym
    · exact h.holds.derivs_made sym hsym
    · obtain ⟨d, hd, rfl⟩ := List.mem_map.mp hsym
      exact (h.holds.symbols _ (mem_of_kind.mp hd)).1
  have hserials : (s.model.model_symbols.map (·.serial)).Nodup ↔ (s.model.model_symbols.map (·.name)).Nodup := by
    rw [List.nodup_iff_pairwise_ne, List.nodup_iff_pairwise_ne, List.pairwise_map, List.pairwise_map]
    exact List.Pairwise.iff_of_mem fun ha hb => not_congr (h.sound.serial_eq_iff (hmade _ ha) (hmade _ hb))
  have hnames : s.model.model_symbols.map (·.name) = MPLANCK_SYMBOL :: ((o.entries .field).map (·.name) ++
      (((o.entries .field).map (·.name)).map (DERIV_PREFIX ++ ·) ++ (o.entries .parameter).map (·.name))) := by
    rw [lagrangian_block.model_symbols, List.map_cons, List.map_append, List.map_append, hr.field_symbols,
      hr.deriv_symbols, hr.param_symbols, h.holds.planck.2, List.map_map]
    rfl
  rw [hserials, hnames, nodup_symbol_names h.nodup_names]
  simp only [List.mem_append, List.mem_map, outline.entries, List.mem_filter, decide_eq_true_eq]
  constructor
  · intro hall e he hkind
    have hn : (∃ e' ∈ o.declared, e'.kind = .field ∧ e'.name = e.name) ∨
        ∃ e' ∈ o.declared, e'.kind = .parameter ∧ e'.name = e.name := by
      cases hk : e.kind with
      | field => exact .inl ⟨e, he, hk, rfl⟩
      | parameter => exact .inr ⟨e, he, hk, rfl⟩
      | subexpr => exact absurd hk hkind
    have hboth := hall e.name (by simpa only [and_assoc] using hn)
    exact ⟨hboth.1, fun f hf hfield => hboth.2 _ ⟨f, ⟨hf, hfield⟩, rfl⟩⟩
  · rintro hall n (⟨e, ⟨he, hkind⟩, rfl⟩ | ⟨e, ⟨he, hkind⟩, rfl⟩)
    all_goals
      have hboth := hall e he (by rw [hkind]; decide)
      refine ⟨hboth.1, ?_⟩
      rintro _ ⟨f, ⟨hf, hfield⟩, rfl⟩
      exact hboth.2 f hf hfield

/-- The serial numbers of the symbols in an expression. -/
def occurrences : algebra (List ℕ) where
  driver :=
    { check_symbol_exists := fun _ => none, integer := fun _ => [], decimal := fun _ => [], add := (· ++ ·),
      sub := (· ++ ·), mul := (· ++ ·), div := (· ++ ·), pow := (· ++ ·), unary_minus := id,
      function := fun _ args => args.flatten }
  symbol sym := [sym.serial]

/-- A field with the name of the momentum of another one is accepted, and has its symbol. -/
example :
    let s : model_descriptor (List ℕ) Unit := script occurrences [.field "x" [], .field "__dx" []]
    s.model.fields.map (fun d => (d.name, d.symbol.serial)) = [("__dx", 2), ("x", 1)] ∧
      s.model.deriv_symbols.map (·.serial) = [2, 3] := by
  decide +kernel

/-- **What expressions are made of**: the value of a subexpression of the Planck mass and of fields and parameters that
were declared before it, and the potential of those that are declared. -/
theorem values_generated (alg : algebra V) (statements : List (statement M)) {P : V → Prop}
    (hP : Closed alg.driver P) (hplanck : P (alg.symbol (script alg statements).model.M_Planck)) :
    (∀ d ∈ (script alg statements).model.subexprs,
      (∀ e ∈ (script alg statements).model.fields ++ (script alg statements).model.parameters,
        e.my_id < d.my_id → P (alg.symbol e.symbol)) → P d.expression) ∧
    ∀ v ∈ (script alg statements).model.potential,
      (∀ e ∈ (script alg statements).model.fields ++ (script alg statements).model.parameters,
        P (alg.symbol e.symbol)) → P v := by
  obtain ⟨ds, h⟩ := follows_script alg statements
  generalize script alg statements = s at h hplanck
  have htables : ∀ e ∈ ds, e.1 ≠ .subexpr → e.2 ∈ s.model.fields ++ s.model.parameters := by
    rintro ⟨k, e⟩ he hk
    rw [h.holds.fields, h.holds.parameters, List.mem_append, mem_ofList (h.holds.nodup_of_kind _),
      mem_ofList (h.holds.nodup_of_kind _), mem_of_kind, mem_of_kind]
    cases k with
    | field => exact .inl he
    | parameter => exact .inr he
    | subexpr => exact absurd rfl hk
  constructor
  · intro d hd hsymbols
    rw [h.holds.subexprs, mem_ofList (h.holds.nodup_of_kind _), mem_of_kind] at hd
    refine h.generated _ hd rfl P hP hplanck fun e he hk => ?_
    obtain ⟨he, hlt⟩ := List.mem_filter.mp he
    exact hsymbols e.2 (htables e he hk) (of_decide_eq_true hlt)
  · exact fun v hv hsymbols => h.specified v hv P hP hplanck fun e he hk => hsymbols e.2 (htables e he hk)

/-- `x * M_P` -/
def linear_potential : expression_text where
  tokens := [.identifier ['x'], .character .star, .identifier ['M', '_', 'P']]
  unfinished := by decide

theorem values_generated_linear :
    ((script (M := Unit) occurrences [.field "x" [], .potential linear_potential]).model.potential.all fun v =>
      v.all (· ≤ 1)) = true := by
  have hclosed : Closed occurrences.driver fun v => ∀ n ∈ v, n ≤ 1 := by
    constructor
    case function =>
      intro k args hargs n hn
      obtain ⟨v, hv, hn⟩ := List.mem_flatten.mp hn
      exact hargs v hv n hn
    all_goals simp_all [occurrences, or_imp]
  rw [Option.all_eq_true]
  intro v hv
  have hle := (values_generated occurrences _ hclosed (by decide +kernel)).2 v hv (by decide +kernel)
  simpa using hle

end Reading

end CppTransport.Translator.Script
