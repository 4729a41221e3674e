import CppTransport.Library.OperatorPrecedence
import CppTransport.Translator.LexerRoundTrip

/-!
# Expressions of model files

The potential, the values of subexpressions and the components of a metric are expressions. The parser
generator makes a shift-reduce parser of an ambiguous grammar with declarations of precedence; where
rules are reduced, the driver builds symbolic expressions.

## The model

The grammar is an instance of an operator-precedence grammar: `y_grammar` has the levels and sides of
the `%left` and `%right` declarations, the unary minus has the highest precedence, and a built-in
function has as many arguments as its productions give it. `expression` reads lexemes up to the
semicolon. The symbolic algebra is a parameter, `expression_tree_driver`. An identifier that is not
declared is reported, and the reading goes on with `1`.

## What is proved

`expression_accepted_iff`: an expression is accepted with a value iff that is the value of the resolved
derivation tree of the lexemes in front of the semicolon, and every sentence of the ambiguous grammar is
accepted. `words_round_trip`: an expression that is printed with brackets only where they are necessary, and
with one sign for both kinds of minus, is read back with its value.
-/

namespace CppTransport.Translator.Expressions

open Library Library.OperatorPrecedence Lexer

/-! ### The grammar -/

/-- What the lexical analyser returns to the parser. -/
abbrev token := Lexer.value keyword_type character_type

/-- The binary operators of expressions. -/
inductive operator where
  | plus
  | binary_minus
  | star
  | foreslash
  | circumflex
deriving DecidableEq, Repr

/-- With how many arguments the productions of `built_in_function` have a keyword. -/
def built_in_arities : keyword_type → List ℕ
  | .abs | .step | .sqrt | .sin | .cos | .tan | .asin | .acos | .atan | .sinh | .cosh | .tanh | .asinh | .acosh
  | .atanh | .exp | .log | .Li2 | .tgamma | .lgamma | .factorial => [1]
  | .atan2 | .pow | .Li | .H | .zetaderiv | .beta | .binomial => [2]
  | .zeta | .psi => [1, 2]
  | .G => [2, 3]
  | .S => [3]
  | _ => []

/-- The declarations of precedence. -/
def y_grammar : Grammar operator keyword_type where
  level
    | .plus | .binary_minus => 1
    | .star | .foreslash => 2
    | .circumflex => 3
  right level := level = 3
  arities := built_in_arities

abbrev symbol_type := Terminal token operator keyword_type

abbrev tree := ParseTree token operator keyword_type

/-- What a lexeme is in an expression. -/
def symbol : token → Option symbol_type
  | .integer z => some (.atom (.integer z))
  | .decimal d => some (.atom (.decimal d))
  | .identifier id => some (.atom (.identifier id))
  | .keyword k => if built_in_arities k = [] then none else some (.function k)
  | .character .plus => some (.operator .plus)
  | .character .binary_minus => some (.operator .binary_minus)
  | .character .star => some (.operator .star)
  | .character .foreslash => some (.operator .foreslash)
  | .character .circumflex => some (.operator .circumflex)
  | .character .unary_minus => some .negative
  | .character .open_bracket => some .opening
  | .character .close_bracket => some .closing
  | .character .comma => some .comma
  | _ => none

/-! ### The driver -/

def ERROR_IDENTIFIER_LOOKUP : String := "Lookup of identifier name failed"
def ERROR_INTEGER_LOOKUP : String := "Lookup of integer literal value failed"
def ERROR_DECIMAL_LOOKUP : String := "Lookup of decimal literal value failed"
def ERROR_UNKNOWN_IDENTIFIER : String := "Undeclared identifier"

/-- The symbolic algebra, and the expressions of the declared symbols. -/
structure expression_tree_driver (V : Type) where
  /-- The expression of a declared symbol. -/
  check_symbol_exists : List Char → Option V
  integer : ℤ → V
  decimal : ℚ → V
  add : V → V → V
  sub : V → V → V
  mul : V → V → V
  div : V → V → V
  pow : V → V → V
  unary_minus : V → V
  /-- The functions other than `pow`. -/
  function : keyword_type → List V → V

namespace expression_tree_driver

variable {V : Type} (d : expression_tree_driver V)

def get_integer : token → V × List String
  | .integer z => (d.integer z, [])
  | _ => (d.integer 1, [ERROR_INTEGER_LOOKUP])

def get_decimal : token → V × List String
  | .decimal q => (d.decimal q, [])
  | _ => (d.decimal 1, [ERROR_DECIMAL_LOOKUP])

def get_identifier : token → V × List String
  | .identifier id =>
    match d.check_symbol_exists id with
    | some e => (e, [])
    | none => (d.integer 1, [ERROR_UNKNOWN_IDENTIFIER ++ quoted id])
  | _ => (d.integer 1, [ERROR_IDENTIFIER_LOOKUP])

/-- The production of a leaf is chosen by the type of the lexeme. -/
def leaf (t : token) : V × List String :=
  match t with
  | .integer _ => d.get_integer t
  | .decimal _ => d.get_decimal t
  | _ => d.get_identifier t

/-- `pow(x, y)` is what `x^y` is. -/
def built_in_function : keyword_type → List V → V
  | .pow, [x, y] => d.pow x y
  | k, args => d.function k args

/-- The actions of the productions. -/
def actions : Actions token operator keyword_type V where
  atom t := (d.leaf t).1
  binary
    | .plus => d.add
    | .binary_minus => d.sub
    | .star => d.mul
    | .foreslash => d.div
    | .circumflex => d.pow
  negative := d.unary_minus
  bracket e := e
  call := d.built_in_function

/-- What is reported when a lexeme is read. -/
def reports (t : token) : List String :=
  match symbol t with
  | some (.atom t) => (d.leaf t).2
  | _ => []

end expression_tree_driver

/-- How the reading of an expression ends, and the lexemes that come next. -/
inductive outcome (V : Type) where
  | accepted (e : V) (rest : List token)
  | syntax_error (rest : List token)
deriving DecidableEq, Repr

section Reading

variable {V : Type} (d : expression_tree_driver V)

/-- Lexemes are read up to the semicolon behind an expression. -/
def read_on (stack : List (Frame operator keyword_type V)) (mode : Mode keyword_type V) :
    List token → outcome V × List String
  | [] => (.syntax_error [], [])
  | t :: rest =>
    if t = .character .semicolon then
      match y_grammar.finish d.actions stack mode with
      | some e => (.accepted e rest, [])
      | none => (.syntax_error (t :: rest), [])
    else
      match (symbol t).bind (y_grammar.shift d.actions stack mode) with
      | some s =>
        let r := read_on s.1 s.2 rest
        (r.1, d.reports t ++ r.2)
      | none => (.syntax_error (t :: rest), [])

/-- An expression and a semicolon. -/
def expression (tokens : List token) : outcome V × List String := read_on d [] .operand tokens

variable {d} {stack : List (Frame operator keyword_type V)} {mode : Mode keyword_type V} {tokens rest : List token}
  {v : V} {reports : List String}

/-- A list of lexemes is what is written for symbols of the grammar. -/
def Spells (xs : List token) (ss : List symbol_type) : Prop := xs.map symbol = ss.map some

theorem Spells.cons_inv {x : token} {xs : List token} {ss : List symbol_type} (h : Spells (x :: xs) ss) :
    ∃ s ss', ss = s :: ss' ∧ symbol x = some s ∧ Spells xs ss' := by
  cases ss with
  | nil => cases h
  | cons s ss' =>
    obtain ⟨hx, hxs⟩ := List.cons.inj h
    exact ⟨s, ss', rfl, hx, hxs⟩

theorem symbol_semicolon : symbol (.character .semicolon) = none := rfl

/-- The loop ends with a value if the symbols up to a semicolon are read and the expression can end there. -/
theorem read_on_accepted_iff :
    read_on d stack mode tokens = (.accepted v rest, reports) ↔
      ∃ xs ss, tokens = xs ++ .character .semicolon :: rest ∧ Spells xs ss ∧ xs.flatMap d.reports = reports ∧
        (y_grammar.run d.actions stack mode ss).bind (fun s => y_grammar.finish d.actions s.1 s.2) = some v := by
  constructor
  · intro h
    induction tokens generalizing stack mode reports with
    | nil => cases h
    | cons t tokens ih =>
      rw [read_on] at h
      split at h
      · rename_i ht
        subst ht
        split at h
        · rename_i e hfinish
          obtain ⟨⟨rfl, rfl⟩, rfl⟩ : (e = v ∧ tokens = rest) ∧ [] = reports := by
            simpa only [Prod.mk.injEq, outcome.accepted.injEq] using h
          exact ⟨[], [], rfl, rfl, rfl, hfinish⟩
        · cases h
      · split at h
        · rename_i s hs
          obtain ⟨sym, hsym, hshift⟩ := Option.bind_eq_some_iff.mp hs
          obtain ⟨hout, hreports⟩ := Prod.mk.inj h
          obtain ⟨xs, ss, rfl, hspells, hmore, hrun⟩ := ih (Prod.ext hout rfl)
          refine ⟨t :: xs, sym :: ss, rfl, ?_, ?_, ?_⟩
          · rw [Spells, List.map_cons, List.map_cons, hsym, hspells]
          · rw [List.flatMap_cons, hmore, hreports]
          · rw [Grammar.run, hshift]
            exact hrun
        · cases h
  · rintro ⟨xs, ss, rfl, hspells, rfl, hrun⟩
    induction xs generalizing stack mode ss with
    | nil =>
      obtain rfl : ss = [] := by
        cases ss with
        | nil => rfl
        | cons _ _ => cases hspells
      have hfinish : y_grammar.finish d.actions stack mode = some v := hrun
      rw [List.nil_append, read_on, if_pos rfl, hfinish]
      rfl
    | cons x xs ih =>
      obtain ⟨s, ss, rfl, hs, hspells⟩ := hspells.cons_inv
      have hx : x ≠ .character .semicolon := by
        rintro rfl
        rw [symbol_semicolon] at hs
        cases hs
      obtain ⟨⟨stack', mode'⟩, hrun, hfinish⟩ := Option.bind_eq_some_iff.mp hrun
      obtain ⟨s', hshift, hrun⟩ := Option.bind_eq_some_iff.mp hrun
      rw [List.cons_append, read_on, if_neg hx, hs, Option.bind_some, hshift]
      have hrest := ih ss hspells (by rw [hrun]; exact hfinish)
      simp only [hrest, List.flatMap_cons]

/-- **Expressions are read as precedence and associativity say**: an expression is accepted with a value if and only if
this is the value of a resolved derivation tree for the lexemes in front of the semicolon, and these have one such tree
whenever they have a derivation tree at all. -/
theorem expression_accepted_iff (d : expression_tree_driver V) :
    (∀ (tokens rest : List token) (v : V) (reports : List String),
      expression d tokens = (.accepted v rest, reports) ↔
        ∃ (xs : List token) (t : tree), tokens = xs ++ .character .semicolon :: rest ∧ Spells xs t.yield ∧
          xs.flatMap d.reports = reports ∧ t.Resolved y_grammar ∧ t.value d.actions = v) ∧
    ∀ t : tree, t.WellFormed y_grammar → ∃! t' : tree, t'.Resolved y_grammar ∧ t'.yield = t.yield := by
  refine ⟨fun tokens rest v reports => ?_, fun t ht => ?_⟩
  · rw [expression, read_on_accepted_iff]
    constructor
    · rintro ⟨xs, ss, htokens, hspells, hreports, hparse⟩
      obtain ⟨t, hres, rfl, hvalue⟩ := Grammar.parse_eq_some_iff.mp hparse
      exact ⟨xs, t, htokens, hspells, hreports, hres, hvalue⟩
    · rintro ⟨xs, t, htokens, hspells, hreports, hres, rfl⟩
      exact ⟨xs, t.yield, htokens, hspells, hreports, Grammar.parse_yield hres⟩
  · have hsome := Grammar.parse_isSome_iff (a := d.actions).mpr ⟨t, ht, rfl⟩
    obtain ⟨v, hv⟩ := Option.isSome_iff_exists.mp hsome
    obtain ⟨t', hres, hyield, -⟩ := Grammar.parse_eq_some_iff.mp hv
    exact ⟨t', ⟨hres, hyield⟩, fun u hu => hu.1.unique hres (hu.2.trans hyield.symm)⟩

/-- The unary minus binds more tightly than a power, and powers associate to the right: `-a^b^c` is `(-a)^(b^c)`. -/
example (a b c : token) : (ParseTree.binary (.negative (.atom a)) .circumflex
    (.binary (.atom b) .circumflex (.atom c)) : tree).Resolved y_grammar :=
  .binary (.negative (.atom a) trivial) (.binary (.atom b) (.atom c) trivial trivial) trivial
    (by simp [ParseTree.After, Grammar.reduces, y_grammar])

end Reading

/-! ### Minus signs -/

/-- A word of the lexical analyser. -/
abbrev word := List Char × buffer_type

/-- Can the word be read as a lexeme, if a minus sign is what it has to be? -/
def StandsFor (w : word) (x : token) : Prop := ∃ context, (classify y_tables w.1 w.2 context).1 = x

/-- Words are read one after another; each says how a minus sign behind it is read. -/
def read_words (context : minus_context) : List word → List token × minus_context
  | [] => ([], context)
  | w :: rest =>
    let r := classify y_tables w.1 w.2 context
    let s := read_words r.2.1 rest
    (r.1 :: s.1, s.2)

/-- The context in which a symbol has to stand, if it is a minus sign. -/
def Expects (context : minus_context) : symbol_type → Prop
  | .operator .binary_minus => context = .binary
  | .negative => context = .unary
  | _ => True

instance (context : minus_context) (s : symbol_type) : Decidable (Expects context s) := by
  unfold Expects
  split <;> infer_instance

/-- The context that a symbol leaves. -/
def left_by : symbol_type → minus_context
  | .atom _ => .binary
  | .closing => .binary
  | _ => .unary

/-- Every minus sign of an expression stands where it is expected. -/
inductive Minuses : minus_context → List symbol_type → minus_context → Prop where
  | nil (context : minus_context) : Minuses context [] context
  | cons {context context' : minus_context} {s : symbol_type} {ss : List symbol_type} (h : Expects context s)
      (hrest : Minuses (left_by s) ss context') : Minuses context (s :: ss) context'

theorem Minuses.append {context₁ context₂ context₃ : minus_context} {ss ss' : List symbol_type}
    (h : Minuses context₁ ss context₂) (h' : Minuses context₂ ss' context₃) :
    Minuses context₁ (ss ++ ss') context₃ := by
  induction h with
  | nil => exact h'
  | cons hs _ ih => exact .cons hs (ih h')

theorem minuses_yields {args : List tree} (hne : args ≠ [])
    (h : ∀ t ∈ args, Minuses .unary t.yield .binary) : Minuses .unary (ParseTree.yields args) .binary := by
  induction args with
  | nil => exact (hne rfl).elim
  | cons t args ih =>
    cases args with
    | nil => exact h t List.mem_cons_self
    | cons t' args =>
      rw [ParseTree.yields]
      refine (h t List.mem_cons_self).append (.cons trivial ?_)
      exact ih (List.cons_ne_nil _ _) fun u hu => h u (List.mem_cons_of_mem _ hu)

/-- In a sentence of the grammar a minus sign is unary where no operand stands in front of it, and binary behind one. -/
theorem minuses_yield {t : tree} (h : t.WellFormed y_grammar) : Minuses .unary t.yield .binary := by
  induction h with
  | atom x => exact .cons trivial (.nil _)
  | @binary l r op _ _ ihl ihr =>
    rw [ParseTree.yield]
    refine ihl.append (.cons ?_ ihr)
    cases op <;> trivial
  | negative _ ih => exact .cons rfl ih
  | bracket _ ih => exact .cons trivial (ih.append (.cons trivial (.nil _)))
  | call hne _ _ ih =>
    rw [ParseTree.yield]
    exact .cons trivial (.cons trivial ((minuses_yields hne ih).append (.cons trivial (.nil _))))

/-- A number that is a symbol of an expression is a leaf. -/
theorem symbol_convert_number {text : List Char} {s : symbol_type}
    (h : symbol (convert_number text : token) = some s) : ∃ x, s = .atom x := by
  have hinteger (n : Option ℕ) (h : symbol (integer_or_unknown n : token) = some s) : ∃ x, s = .atom x := by
    cases n with
    | none => cases h
    | some n => exact ⟨_, (Option.some.inj h).symm⟩
  rw [convert_number] at h
  split at h
  · exact hinteger _ h
  · split at h
    · exact hinteger _ h
    · cases hi : scan_i text with
      | some n =>
        rw [hi] at h
        exact ⟨_, (Option.some.inj h).symm⟩
      | none =>
        rw [hi] at h
        cases hd : scan_lf text with
        | some q =>
          rw [hd] at h
          exact ⟨_, (Option.some.inj h).symm⟩
        | none =>
          rw [hd] at h
          cases h

/-- What a symbol of the table is in an expression, it is in every context in which it can stand there. -/
theorem classify_symbols : ∀ e ∈ y_tables.symbols, ∀ c ∈ [minus_context.unary, .binary],
    ∀ c' ∈ [minus_context.unary, .binary], ∀ s ∈ symbol (classify y_tables (untagged e.1) .character c).1,
      Expects c' s → (classify y_tables (untagged e.1) .character c').1 =
        (classify y_tables (untagged e.1) .character c).1 ∧
        (classify y_tables (untagged e.1) .character c').2.1 = left_by s := by
  decide +kernel

/-- A word is read as what it stands for where this is expected. -/
theorem classify_expected {w : word} {x : token} {s : symbol_type} {context : minus_context} (hw : StandsFor w x)
    (hx : symbol x = some s) (hexpects : Expects context s) :
    (classify y_tables w.1 w.2 context).1 = x ∧ (classify y_tables w.1 w.2 context).2.1 = left_by s := by
  obtain ⟨c, rfl⟩ := hw
  obtain ⟨text, type⟩ := w
  have hmem (c : minus_context) : c ∈ [minus_context.unary, .binary] := by cases c <;> decide
  cases type with
  | string =>
    simp only [classify] at hx ⊢
    cases hlookup : y_tables.keywords.lookup text with
    | some k =>
      simp only [hlookup, symbol, Option.ite_none_left_eq_some] at hx ⊢
      obtain ⟨-, rfl⟩ := hx.imp_right Option.some.inj
      exact ⟨trivial, rfl⟩
    | none =>
      simp only [hlookup, symbol] at hx ⊢
      obtain rfl := Option.some.inj hx
      exact ⟨trivial, rfl⟩
  | number =>
    obtain ⟨y, rfl⟩ := symbol_convert_number hx
    exact ⟨rfl, rfl⟩
  | character =>
    cases hfind : y_tables.symbols.find? fun e => symbol_matches e.1 text c with
    | none =>
      simp only [classify, hfind] at hx
      cases hx
    | some e =>
      obtain rfl : untagged e.1 = text := untagged_of_matches (List.find?_some hfind :)
      exact classify_symbols e (List.mem_of_find?_eq_some hfind) c (hmem c) context (hmem context) s hx hexpects
  | string_literal => cases hx

theorem read_words_minuses {ws : List word} {xs : List token} {ss : List symbol_type} {context context' : minus_context}
    (hws : List.Forall₂ StandsFor ws xs) (hspells : Spells xs ss) (h : Minuses context ss context') :
    read_words context ws = (xs, context') := by
  induction h generalizing ws xs with
  | nil context =>
    cases hws with
    | nil => rfl
    | cons _ _ => cases hspells
  | @cons context context' s ss hs _ ih =>
    cases hws with
    | nil => cases hspells
    | @cons w x ws xs hw hws =>
      obtain ⟨hx, hxs⟩ := List.cons.inj hspells
      obtain ⟨hvalue, hcontext⟩ := classify_expected hw hx hs
      simp only [read_words, hvalue, hcontext, ih hws hxs]

/-- **Printing and reading expressions**: a minus sign is printed as the same sign, unary or binary, and brackets stand
only around operands that would be read differently. Behind an equals sign the words are read as the lexemes that were
printed, and the expression has its value. -/
theorem words_round_trip {V : Type} (d : expression_tree_driver V) {t : tree} (ht : t.WellFormed y_grammar)
    {xs : List token} (hxs : Spells xs (t.bracketed y_grammar).yield) {ws : List word}
    (hws : List.Forall₂ StandsFor ws xs) (rest : List token) :
    read_words .unary ws = (xs, .binary) ∧
      expression d (xs ++ .character .semicolon :: rest) =
        (.accepted (t.value d.actions) rest, xs.flatMap d.reports) := by
  have hres := ht.bracketed_resolved
  refine ⟨read_words_minuses hws hxs (minuses_yield hres.wellFormed), ?_⟩
  refine read_on_accepted_iff.mpr ⟨xs, _, rfl, hxs, rfl, ?_⟩
  rw [← ht.value_bracketed (a := d.actions) fun _ => rfl]
  exact Grammar.parse_yield hres

/-- Expressions of numbers. -/
def numbers : expression_tree_driver ℚ where
  check_symbol_exists _ := none
  integer z := z
  decimal q := q
  add := (· + ·)
  sub := (· - ·)
  mul := (· * ·)
  div := (· / ·)
  pow x y := x ^ y.num
  unary_minus x := -x
  function _ _ := 0

/-- `2*(3--4)` -/
def product : tree :=
  .binary (.atom (.integer 2)) .star (.binary (.atom (.integer 3)) .binary_minus (.negative (.atom (.integer 4))))

def product_lexemes : List token :=
  [.integer 2, .character .star, .character .open_bracket, .integer 3, .character .binary_minus,
    .character .unary_minus, .integer 4, .character .close_bracket]

def product_words : List word :=
  [(['2'], .number), (['*'], .character), (['('], .character), (['3'], .number), (['-'], .character),
    (['-'], .character), (['4'], .number), ([')'], .character)]

theorem words_round_trip_product : read_words .unary product_words = (product_lexemes, .binary) ∧
    expression numbers (product_lexemes ++ .character .semicolon :: []) = (.accepted 14 [], []) := by
  have hwf : product.WellFormed y_grammar := .binary _ (.atom _) (.binary _ (.atom _) (.negative (.atom _)))
  have hvalue : product.value numbers.actions = 14 := by decide +kernel
  have hwords : List.Forall₂ StandsFor product_words product_lexemes := by
    refine .cons ⟨.unary, ?_⟩ (.cons ⟨.unary, ?_⟩ (.cons ⟨.unary, ?_⟩ (.cons ⟨.unary, ?_⟩ (.cons ⟨.binary, ?_⟩
      (.cons ⟨.unary, ?_⟩ (.cons ⟨.unary, ?_⟩ (.cons ⟨.unary, ?_⟩ .nil))))))) <;> decide +kernel
  have hspells : Spells product_lexemes (product.bracketed y_grammar).yield := rfl
  rw [← hvalue]
  exact words_round_trip numbers hwf hspells hwords []

end CppTransport.Translator.Expressions
