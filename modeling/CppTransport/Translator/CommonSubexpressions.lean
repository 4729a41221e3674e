import CppTransport.Library.Infix

/-!
# Common subexpressions

Expressions are printed as C++ by a `cse` worker (`language_concepts/cse.cpp`,
`languages/cpp/cpp_cse.cpp`), which gives each subexpression a temporary. `parse` enters
the subexpressions into a table, by the text that they print as, where the operands are
printed as their temporaries; `get_symbol_with_use_count` returns the temporary of an
expression, and deposits the declarations that it needs.
-/

namespace CppTransport.Translator

open Library Library.Infix

namespace Cse

/-- A text that is printed. -/
abbrev Text := List Token

/-! ### Expressions -/

/-- The class of a compound expression. -/
inductive Operation where
  | add
  | mul
  | power
  | function (name : String)
  deriving DecidableEq

/-- A GiNaC expression. -/
inductive ex where
  | numeric (q : ℚ)
  | symbol (name : String)
  | node (op : Operation) (ops : List ex)

namespace ex

/-- `is_a<add>`. -/
def is_add : ex → Bool
  | node .add _ => true
  | _ => false

/-- Whether brackets can be left out. -/
def simple : ex → Bool
  | symbol _ => true
  | node (.function _) _ => true
  | _ => false

mutual

/-- The subexpressions, operands first. -/
def postorder : ex → List ex
  | numeric q => [numeric q]
  | symbol name => [symbol name]
  | node op ops => postorders ops ++ [node op ops]

/-- The subexpressions of some expressions. -/
def postorders : List ex → List ex
  | [] => []
  | e :: es => postorder e ++ postorders es

end

/-- **Induction** over expressions. -/
@[elab_as_elim]
theorem induct {P : ex → Prop} (numeric : ∀ q, P (numeric q)) (symbol : ∀ name, P (symbol name))
    (node : ∀ op ops, (∀ e ∈ ops, P e) → P (node op ops)) : ∀ e, P e
  | .numeric q => numeric q
  | .symbol name => symbol name
  | .node op ops => node op ops fun e _ => induct numeric symbol node e

theorem postorders_eq_flatMap (es : List ex) : postorders es = es.flatMap postorder := by
  induction es with
  | nil => rfl
  | cons e es ih => rw [postorders, ih, List.flatMap_cons]

end ex

/-! ### The table -/

/-- A subexpression and its temporary. -/
structure symbol_record where
  /-- The text the symbol resolves to. -/
  target : Text
  symbol : String
  /-- Has it been written to the declarations? -/
  written : Bool
  deriving DecidableEq

/-- The worker. -/
structure cse where
  /-- Keyed by `target`. -/
  symbols : List symbol_record
  /-- Symbols and what they are declared to be. -/
  decls : List (String × Text)
  /-- The names for which a symbol of the table has been declared. -/
  named_symbols : List String
  temporary_name_kernel : String
  /-- Serial number of the current pool. -/
  serial_number : ℕ
  /-- Counter within the current pool. -/
  symbol_counter : ℕ

/-- The name of a temporary. -/
def temporary (kernel : String) (serial_number symbol_counter : ℕ) : String :=
  kernel ++ "_" ++ toString serial_number ++ "_" ++ toString symbol_counter

namespace cse

/-- A worker is made. -/
def initial (kernel : String) (serial_number : ℕ) : cse := ⟨[], [], [], kernel, serial_number, 0⟩

variable (c : cse)

def find (e : Text) : Option symbol_record := c.symbols.find? fun r => r.target = e

/-- `emplace` on the table, for a text that it does not contain. -/
def emplace (r : symbol_record) : cse := { c with symbols := c.symbols ++ [r] }

/-- `mark_written` on a record of the table. -/
def mark_written (r : symbol_record) : cse :=
  { c with symbols := c.symbols.map fun x => if x.target = r.target then { x with written := true } else x }

/-- `deposit`. -/
def deposit (r : symbol_record) : cse :=
  if r.written then c else { c.mark_written r with decls := c.decls ++ [(r.symbol, r.target)] }

/-- A name is declared to be a symbol of the table. -/
def assign (name symbol : String) : cse :=
  { c with decls := c.decls ++ [(name, [.var symbol])], named_symbols := name :: c.named_symbols }

/-- `make_symbol`. -/
def make_symbol : String × cse :=
  (temporary c.temporary_name_kernel c.serial_number c.symbol_counter,
    { c with symbol_counter := c.symbol_counter + 1 })

/-- The symbol of a new record. -/
def symbol_name (name : Option String) (last_subexpr : Bool) : String × cse :=
  match name, last_subexpr with
  | some n, true => (n, c)
  | _, _ => c.make_symbol

/-- `clear`. -/
def clear : cse := { c with symbols := [], decls := [], serial_number := c.serial_number + 1, symbol_counter := 0 }

end cse

/-! ### Printing -/

/-- C++ names of functions. -/
def func_convert : List (String × String) :=
  [("abs", "std::abs"), ("sqrt", "std::sqrt"), ("sin", "std::sin"), ("cos", "std::cos"), ("tan", "std::tan"),
    ("asin", "std::asin"), ("acos", "std::acos"), ("atan", "std::atan"), ("atan2", "std::atan2"),
    ("sinh", "std::sinh"), ("cosh", "std::cosh"), ("tanh", "std::tanh"), ("asinh", "std::asinh"),
    ("acosh", "std::acosh"), ("atanh", "std::atanh"), ("exp", "std::exp"), ("log", "std::log"), ("pow", "std::pow"),
    ("tgamma", "std::tgamma"), ("lgamma", "std::lgamma")]

/-- What printing an expression does: the text, and the worker afterwards; `none` is an exception. -/
abbrev Action := StateT cse Option Text

/-- The values of an `int`. -/
def Fits (n : ℤ) : Prop := -2 ^ 31 ≤ n ∧ n < 2 ^ 31

instance (n : ℤ) : Decidable (Fits n) := inferInstanceAs (Decidable (_ ∧ _))

/-- `to_int` throws if the integer does not fit. -/
def to_int (n : ℤ) : StateT cse Option ℤ := if Fits n then pure n else failure

/-- An operand, in brackets if need be. -/
def print_operand (op : Token) (arg : ex × Action) : Action := do
  let text ← arg.2
  return if op ≠ .comma ∧ arg.1.is_add then [.opening] ++ text ++ [.closing] else text

/-- `print_operands`; each operand comes with what printing it does. -/
def print_operands (op : Token) (args : List (ex × Action)) : Action := do
  let texts ← args.mapM (print_operand op)
  return List.intercalate [op] texts

/-- `unwrap_power`. -/
def unwrap_power (base_str : Text) (base_expr : ex) (factors : ℕ) : Text :=
  List.intercalate [.times]
    (List.replicate factors (if base_expr.simple then base_str else [.opening] ++ base_str ++ [.closing]))

/-- An integer power, unrolled if it is small. -/
def print_integer_power (base : Text) (base_expr : ex) : ℤ → Text
  | 0 => [.lit 1]
  | 1 => unwrap_power base base_expr 1
  | 2 => [.opening] ++ unwrap_power base base_expr 2 ++ [.closing]
  | 3 => [.opening] ++ unwrap_power base base_expr 3 ++ [.closing]
  | 4 => [.opening] ++ unwrap_power base base_expr 4 ++ [.closing]
  | -1 => [.lit 1, .divide] ++ unwrap_power base base_expr 1
  | -2 => [.lit 1, .divide] ++ ([.opening] ++ unwrap_power base base_expr 2 ++ [.closing])
  | -3 => [.lit 1, .divide] ++ ([.opening] ++ unwrap_power base base_expr 3 ++ [.closing])
  | -4 => [.lit 1, .divide] ++ ([.opening] ++ unwrap_power base base_expr 4 ++ [.closing])
  | n => [.call "std::pow"] ++ base ++ [.comma] ++ [.lit n] ++ [.closing]

/-- `print_power`. -/
def print_power : List (ex × Action) → Action
  | [(base_expr, get_base), (exponent_expr, get_exponent)] => do
    let exponent ← get_exponent
    match exponent_expr with
    | .numeric q =>
      let base ← get_base
      if q.den = 1 then
        let n ← to_int q.num
        return print_integer_power base base_expr n
      else
        return [.call "std::pow"] ++ base ++ [.comma] ++ exponent ++ [.closing]
    -- nothing is written for other exponents
    | _ => return []
  | args => do
    let _ ← print_operands .comma args
    return []

/-- `print` for a compound expression. -/
def print_node (op : Operation) (args : List (ex × Action)) : Action :=
  match op with
  | .add => print_operands .plus args
  | .mul => print_operands .times args
  | .power => print_power args
  | .function name =>
    match func_convert.lookup name with
    | some f => do
      let text ← print_operands .comma args
      return [.call f] ++ text ++ [.closing]
    | none => return []

/-- What a text resolves to; its declaration is deposited if uses are counted. -/
def resolve (use_count : Bool) (e : Text) : Action := fun c =>
  match c.find e with
  | none => some (e, c)
  | some r => some ([.var r.symbol], if use_count then c.deposit r else c)

mutual

/-- `get_symbol_with_use_count` and `get_symbol_without_use_count`. -/
def get_symbol (use_count : Bool) : ex → Action
  | .numeric q => resolve use_count [.lit q]
  | .symbol name => resolve use_count [.var name]
  | .node op ops => do
    let e ← print_node op (get_symbols use_count ops)
    resolve use_count e

/-- Expressions, with what printing them does. -/
def get_symbols (use_count : Bool) : List ex → List (ex × Action)
  | [] => []
  | e :: es => (e, get_symbol use_count e) :: get_symbols use_count es

end

/-- `print`. -/
def print (use_count : Bool) : ex → Action
  | .numeric q => pure [.lit q]
  | .symbol name => pure [.var name]
  | .node op ops => print_node op (get_symbols use_count ops)

/-- What `parse` does with the text of a subexpression. -/
def enter (name : Option String) (last_subexpr : Bool) (target : Text) (c : cse) : cse :=
  match c.find target with
  | none =>
    let (symbol, c) := c.symbol_name name last_subexpr
    let r : symbol_record := ⟨target, symbol, false⟩
    let c := c.emplace r
    if name.isSome then c.deposit r else c
  | some r =>
    match name with
    | some n =>
      let c := c.deposit r
      if last_subexpr ∧ r.symbol ≠ n ∧ n ∉ c.named_symbols then c.assign n r.symbol else c
    | none => c

/-- The loop of `parse`. -/
def parse_loop (name : Option String) : List ex → cse → Option cse
  | [], c => some c
  | t :: ts, c => do
    let (target, c) ← print false t c
    parse_loop name ts (enter name ts.isEmpty target c)

/-- `parse`. -/
def parse (expr : ex) (name : Option String) (c : cse) : Option cse := parse_loop name expr.postorder c

theorem get_symbol_eq (use_count : Bool) (e : ex) :
    get_symbol use_count e = (print use_count e >>= resolve use_count) := by
  cases e <;> rfl

theorem get_symbols_eq_map (use_count : Bool) (es : List ex) :
    get_symbols use_count es = es.map fun e => (e, get_symbol use_count e) := by
  induction es with
  | nil => rfl
  | cons e es ih => rw [get_symbols, ih, List.map_cons]

/-! ### What is printed depends on the table only -/

/-- The operands that are printed, in the order in which they are. -/
def visited : Operation → List ex → List ex
  | .power, [b, x] =>
    match x with
    | .numeric q => [.numeric q, b]
    | x => [x]
  | .function name, ops => if (func_convert.lookup name).isSome then ops else []
  | _, ops => ops

/-- An operand, in brackets if need be. -/
def bracketed (op : Token) (e : ex) (text : Text) : Text :=
  if op ≠ .comma ∧ e.is_add then [.opening] ++ text ++ [.closing] else text

/-- The text of a compound expression, from those of the operands that are printed. -/
def layout (op : Operation) (ops : List ex) (texts : List Text) : Option Text :=
  match op, ops, texts with
  | .add, ops, texts => some (List.intercalate [.plus] (List.zipWith (bracketed .plus) ops texts))
  | .mul, ops, texts => some (List.intercalate [.times] (List.zipWith (bracketed .times) ops texts))
  | .power, [b, x], texts =>
    match x, texts with
    | .numeric q, [exponent, base] =>
      if q.den = 1 then
        if Fits q.num then some (print_integer_power base b q.num) else none
      else some ([.call "std::pow"] ++ base ++ [.comma] ++ exponent ++ [.closing])
    | _, _ => some []
  | .power, _, _ => some []
  | .function name, _, texts =>
    match func_convert.lookup name with
    | some f => some ([.call f] ++ List.intercalate [.comma] texts ++ [.closing])
    | none => some []

theorem mem_visited {op : Operation} {ops : List ex} {e : ex} (h : e ∈ visited op ops) : e ∈ ops := by
  unfold visited at h
  split at h
  · split at h <;> simp_all [or_comm]
  · split at h
    · exact h
    · cases h
  · exact h

/-- The text that a text resolves to, and the texts resolved on the way. -/
def finish (look : Text → Option String) (r : Text × List Text) : Text × List Text :=
  ((look r.1).elim r.1 fun symbol => [.var symbol], r.2 ++ [r.1])

/-- What `print` gives for a table, and the texts that it resolves. -/
def printed (look : Text → Option String) : ex → Option (Text × List Text)
  | .numeric q => some ([.lit q], [])
  | .symbol name => some ([.var name], [])
  | .node op ops => do
    let rs ← (visited op ops).attach.mapM fun e => (printed look e.1).map (finish look)
    let e ← layout op ops (rs.map Prod.fst)
    return (e, rs.flatMap Prod.snd)
termination_by e => e
decreasing_by
  have := List.sizeOf_lt_of_mem (mem_visited e.2)
  simp only [ex.node.sizeOf_spec]
  omega

/-- What `get_symbol` gives. -/
def shown (look : Text → Option String) (e : ex) : Option (Text × List Text) := (printed look e).map (finish look)

theorem printed_numeric (look : Text → Option String) (q : ℚ) :
    printed look (.numeric q) = some ([.lit q], []) := by
  rw [printed]

theorem printed_symbol (look : Text → Option String) (name : String) :
    printed look (.symbol name) = some ([.var name], []) := by
  rw [printed]

theorem printed_node (look : Text → Option String) (op : Operation) (ops : List ex) :
    printed look (.node op ops) = (do
    let rs ← (visited op ops).mapM (shown look)
    let e ← layout op ops (rs.map Prod.fst)
    return (e, rs.flatMap Prod.snd)) := by
  rw [printed, List.mapM_subtype (g := shown look) (fun _ _ => rfl), List.unattach_attach]

namespace cse

variable (c : cse)

/-- The symbol that a text resolves to. -/
def look (e : Text) : Option String := (c.find e).map (·.symbol)

/-- Declarations are deposited for texts of the table. -/
def deposits (ds : List Text) : cse :=
  ds.foldl (fun c e => match c.find e with
    | some r => c.deposit r
    | none => c) c

/-- The worker after texts have been resolved. -/
def count (use_count : Bool) (ds : List Text) : cse := if use_count then c.deposits ds else c

theorem find_mark_written (r : symbol_record) (e : Text) : (c.mark_written r).find e =
    (c.find e).map fun x => if x.target = r.target then { x with written := true } else x := by
  rw [find, find, mark_written, List.find?_map]
  congr 2
  funext x
  simp only [Function.comp]
  split_ifs <;> rfl

theorem look_deposit (r : symbol_record) : (c.deposit r).look = c.look := by
  funext e
  rw [deposit]
  split_ifs
  · rfl
  · change ((c.mark_written r).find e).map _ = _
    rw [find_mark_written, Option.map_map, look]
    congr 1
    funext x
    simp only [Function.comp]
    split_ifs <;> rfl

theorem look_deposits (ds : List Text) : (c.deposits ds).look = c.look := by
  induction ds generalizing c with
  | nil => rfl
  | cons e ds ih =>
    rw [deposits, List.foldl_cons, ← deposits, ih]
    cases c.find e with
    | none => rfl
    | some r => exact c.look_deposit r

@[simp] theorem look_count (use_count : Bool) (ds : List Text) : (c.count use_count ds).look = c.look := by
  cases use_count with
  | false => rfl
  | true => exact c.look_deposits ds

theorem count_append (use_count : Bool) (ds ds' : List Text) :
    c.count use_count (ds ++ ds') = (c.count use_count ds).count use_count ds' := by
  cases use_count with
  | false => rfl
  | true => exact List.foldl_append

end cse

theorem resolve_eq (use_count : Bool) (e : Text) (c : cse) :
    resolve use_count e c = some ((c.look e).elim e fun symbol => [.var symbol], c.count use_count [e]) := by
  rw [resolve, cse.look, cse.count, cse.deposits]
  cases h : c.find e <;> simp [h]

section Print

variable (f : ex → Action)

theorem bind_apply {α β : Type} (x : StateT cse Option α) (g : α → StateT cse Option β) (c : cse) :
    (x >>= g) c = (x c).bind fun r => g r.1 r.2 := rfl

theorem pure_apply {α : Type} (a : α) (c : cse) : (pure a : StateT cse Option α) c = some (a, c) := rfl

theorem mapM_print_operand (op : Token) (ops : List ex) (c : cse) :
    (ops.map fun e => (e, f e)).mapM (print_operand op) c =
      (ops.mapM f c).map fun r => (List.zipWith (bracketed op) ops r.1, r.2) := by
  induction ops generalizing c with
  | nil => rfl
  | cons e ops ih =>
    simp only [List.map_cons, List.mapM_cons, bind_apply, pure_apply, print_operand, ih, Option.bind_assoc,
      Option.map_bind, Option.bind_map, Option.bind_some, Function.comp_def, Option.map_some, bracketed,
      List.zipWith_cons_cons]

theorem print_operands_eq (op : Token) (ops : List ex) (c : cse) :
    print_operands op (ops.map fun e => (e, f e)) c = (ops.mapM f c).map fun r =>
      (List.intercalate [op] (List.zipWith (bracketed op) ops r.1), r.2) := by
  rw [print_operands, bind_apply, mapM_print_operand, Option.bind_map, Option.map_eq_bind]
  rfl

theorem print_arguments_eq (ops : List ex) (c : cse) :
    print_operands .comma (ops.map fun e => (e, f e)) c = (ops.mapM f c).map fun r =>
      (List.intercalate [.comma] r.1, r.2) := by
  have same : (ops.map fun e => (e, f e)).mapM (print_operand .comma) = ops.mapM f := by
    rw [List.mapM_map]
    congr 1
    funext e
    simp [print_operand]
  rw [print_operands, bind_apply, same, Option.map_eq_bind]
  rfl

/-- The operands are printed one after the other, and then put together. -/
theorem print_node_eq (op : Operation) (ops : List ex) (c : cse) :
    print_node op (ops.map fun e => (e, f e)) c = ((visited op ops).mapM f c).bind fun r =>
      (layout op ops r.1).map fun e => (e, r.2) := by
  cases op with
  | add =>
    rw [print_node, print_operands_eq, Option.map_eq_bind]
    rfl
  | mul =>
    rw [print_node, print_operands_eq, Option.map_eq_bind]
    rfl
  | power =>
    rw [print_node]
    match ops with
    | [b, .numeric q] =>
      simp only [List.map_cons, List.map_nil, print_power, visited, List.mapM_cons, List.mapM_nil, bind_apply,
        pure_apply, Option.bind_assoc, Option.bind_some, layout]
      refine Option.bind_congr fun r _ => Option.bind_congr fun r' _ => ?_
      split_ifs with hden hfits
      · have gives : to_int q.num = pure q.num := if_pos hfits
        rw [bind_apply, gives]
        rfl
      · have throws : to_int q.num = failure := if_neg hfits
        rw [bind_apply, throws]
        rfl
      · rfl
    | [b, .symbol name] =>
      simp [print_power, visited, bind_apply, pure_apply, layout, Option.bind_assoc]
    | [b, .node op ops] =>
      simp [print_power, visited, bind_apply, pure_apply, layout, Option.bind_assoc]
    | [] => rfl
    | [b] =>
      change (print_operands .comma ([b].map fun e => (e, f e)) >>= fun _ => pure []) c = _
      rw [bind_apply, print_arguments_eq, Option.bind_map]
      rfl
    | b :: x :: y :: ops =>
      change (print_operands .comma ((b :: x :: y :: ops).map fun e => (e, f e)) >>= fun _ => pure []) c = _
      rw [bind_apply, print_arguments_eq, Option.bind_map]
      rfl
  | function name =>
    rw [print_node]
    cases h : func_convert.lookup name with
    | none => simp [visited, h, layout, pure_apply]
    | some g =>
      simp only [visited, h, layout, bind_apply, print_arguments_eq, Option.bind_map, Option.isSome_some, if_true]
      rfl

end Print

section Show

variable {use_count : Bool} {look : Text → Option String} {c : cse}

theorem resolve_map (r : Option (Text × List Text)) (h : c.look = look) :
    ((r.map fun r => (r.1, c.count use_count r.2)).bind fun r => resolve use_count r.1 r.2) =
      (r.map (finish look)).map fun r => (r.1, c.count use_count r.2) := by
  cases r with
  | none => rfl
  | some r => simp [resolve_eq, finish, cse.count_append, h]

theorem mapM_get_symbol {es : List ex} (h : ∀ e ∈ es, ∀ c : cse, c.look = look →
    get_symbol use_count e c = (shown look e).map fun r => (r.1, c.count use_count r.2)) (hc : c.look = look) :
    es.mapM (get_symbol use_count) c = (es.mapM (shown look)).map fun rs =>
      (rs.map Prod.fst, c.count use_count (rs.flatMap Prod.snd)) := by
  induction es generalizing c with
  | nil =>
    cases use_count <;> rfl
  | cons e es ih =>
    have ih := fun c hc => ih (c := c) (fun e he => h e (List.mem_cons_of_mem _ he)) hc
    simp only [List.mapM_cons, bind_apply, pure_apply, h e List.mem_cons_self c hc, Option.bind_map,
      Function.comp_def]
    cases shown look e with
    | none => rfl
    | some r =>
      have hr : (c.count use_count r.2).look = look := (c.look_count use_count r.2).trans hc
      simp only [Option.bind_some, ih _ hr, Option.bind_eq_bind, Option.pure_def]
      cases es.mapM (shown look) with
      | none => rfl
      | some rs => simp [cse.count_append]

theorem print_node_eq_printed {op : Operation} {ops : List ex} (h : ∀ e ∈ ops, ∀ c : cse, c.look = look →
    get_symbol use_count e c = (shown look e).map fun r => (r.1, c.count use_count r.2)) (hc : c.look = look) :
    print use_count (.node op ops) c = (printed look (.node op ops)).map fun r => (r.1, c.count use_count r.2) := by
  rw [print, get_symbols_eq_map, print_node_eq, mapM_get_symbol (fun e he => h e (mem_visited he)) hc, printed_node,
    Option.bind_map]
  cases (visited op ops).mapM (shown look) with
  | none => rfl
  | some rs =>
    simp only [Option.bind_some, Function.comp, Option.bind_eq_bind, Option.pure_def]
    cases layout op ops (rs.map Prod.fst) <;> rfl

theorem print_numeric_eq (q : ℚ) : print use_count (.numeric q) c =
    (printed look (.numeric q)).map fun r => (r.1, c.count use_count r.2) := by
  rw [printed_numeric]
  cases use_count <;> rfl

theorem print_symbol_eq (name : String) : print use_count (.symbol name) c =
    (printed look (.symbol name)).map fun r => (r.1, c.count use_count r.2) := by
  rw [printed_symbol]
  cases use_count <;> rfl

theorem get_symbol_of_print {e : ex} (hc : c.look = look)
    (h : print use_count e c = (printed look e).map fun r => (r.1, c.count use_count r.2)) :
    get_symbol use_count e c = (shown look e).map fun r => (r.1, c.count use_count r.2) := by
  rw [get_symbol_eq, bind_apply, h, resolve_map _ hc, shown]

/-- **Printing**: the text depends on what texts resolve to only, and the declarations that are deposited are those
of the texts that are resolved. -/
theorem get_symbol_eq_shown (e : ex) (hc : c.look = look) :
    get_symbol use_count e c = (shown look e).map fun r => (r.1, c.count use_count r.2) := by
  induction e using ex.induct generalizing c with
  | numeric q => exact get_symbol_of_print hc (print_numeric_eq q)
  | symbol name => exact get_symbol_of_print hc (print_symbol_eq name)
  | node op ops ih => exact get_symbol_of_print hc (print_node_eq_printed (fun e he c hc => ih e he hc) hc)

theorem print_eq_printed (e : ex) (hc : c.look = look) :
    print use_count e c = (printed look e).map fun r => (r.1, c.count use_count r.2) := by
  cases e with
  | numeric q => exact print_numeric_eq q
  | symbol name => exact print_symbol_eq name
  | node op ops => exact print_node_eq_printed (fun e _ c hc => get_symbol_eq_shown e hc) hc

end Show

/-- `parse` deposits nothing while it prints. -/
theorem parse_loop_cons (name : Option String) (t : ex) (ts : List ex) (c : cse) :
    parse_loop name (t :: ts) c =
      (printed c.look t).bind fun r => parse_loop name ts (enter name ts.isEmpty r.1 c) := by
  rw [parse_loop, print_eq_printed t rfl, Option.bind_eq_bind, Option.bind_map]
  rfl

end Cse

end CppTransport.Translator
