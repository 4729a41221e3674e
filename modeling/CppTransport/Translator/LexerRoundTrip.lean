import CppTransport.Library.RelatedLists
import CppTransport.Translator.NumberLiterals
import CppTransport.Translator.Splicing

/-!
# Printing lexemes and reading them back

Lexemes are printed in order, with white space and comments between them, and the text is read. For
the lexer white space is a blank, a tabulator or a new line; a string literal without characters is a
word without characters, which is what it finds at the end of the file.

## What is proved

`lexemes_round_trip_iff`: the lexemes of a printed text are those that were printed if and only if no string
is empty, no number has a hexadecimal digit `C` and no integer needs 32 bits, and outside comments
there are only blanks, tabulators and new lines. A minus sign is one symbol here, of which the lexer
makes a unary or a binary one.
-/

namespace CppTransport.Translator.Lexer

open Library lexstream

/-! ### The input language -/

inductive keyword_type where
  | metadata | require_version | lagrangian | canonical | nontrivial_metric | name | author | citeguide
  | description | license | revision | references | urls | email | institute | field | potential | metric
  | subexpr | value | parameter | latex | templates | settings | core | impl | model | abserr | relerr
  | stepper | stepsize | background | perturbations | indexorder | left | right | abs | step | sqrt | sin
  | cos | tan | asin | acos | atan | atan2 | sinh | cosh | tanh | asinh | acosh | atanh | exp | log | pow
  | Li2 | Li | G | S | H | zeta | zetaderiv | tgamma | lgamma | beta | psi | factorial | binomial
deriving DecidableEq, Repr

inductive character_type where
  | open_brace | close_brace | open_bracket | close_bracket | open_square | close_square | comma | period
  | colon | semicolon | equals | plus | binary_minus | unary_minus | star | backslash | foreslash | tilde
  | ampersand | circumflex | ampersat | ellipsis | rightarrow
deriving DecidableEq, Repr

/-- The keywords of model files. -/
def keywords : List (String × keyword_type) :=
    [("metadata", .metadata), ("require_version", .require_version), ("lagrangian", .lagrangian),
    ("canonical", .canonical), ("nontrivial_metric", .nontrivial_metric), ("name", .name), ("author", .author),
    ("citeguide", .citeguide), ("description", .description), ("license", .license), ("revision", .revision),
    ("references", .references), ("urls", .urls), ("email", .email), ("institute", .institute), ("field", .field),
    ("potential", .potential), ("metric", .metric), ("subexpr", .subexpr), ("value", .value),
    ("parameter", .parameter), ("latex", .latex), ("templates", .templates), ("settings", .settings), ("core", .core),
    ("implementation", .impl), ("model", .model), ("abserr", .abserr), ("relerr", .relerr), ("stepper", .stepper),
    ("stepsize", .stepsize), ("background", .background), ("perturbations", .perturbations),
    ("indexorder", .indexorder), ("left", .left), ("right", .right), ("abs", .abs), ("step", .step), ("sqrt", .sqrt),
    ("sin", .sin), ("cos", .cos), ("tan", .tan), ("asin", .asin), ("acos", .acos), ("atan", .atan), ("atan2", .atan2),
    ("sinh", .sinh), ("cosh", .cosh), ("tanh", .tanh), ("asinh", .asinh), ("acosh", .acosh), ("atanh", .atanh),
    ("exp", .exp), ("log", .log), ("pow", .pow), ("Li2", .Li2), ("Li", .Li), ("G_func", .G), ("S_func", .S),
    ("H_func", .H), ("zeta_func", .zeta), ("zetaderiv", .zetaderiv), ("tgamma_func", .tgamma),
    ("lgamma_func", .lgamma), ("beta_func", .beta), ("psi_func", .psi), ("factorial", .factorial),
    ("binomial", .binomial)]

/-- The symbols of model files; with each stands whether it can precede a unary minus. -/
def symbols : List (String × character_type × Bool) :=
    [("\x7b", .open_brace, true), ("\x7d", .close_brace, true), ("(", .open_bracket, true),
    (")", .close_bracket, false), ("[", .open_square, true), ("]", .close_square, true), (",", .comma, true),
    (".", .period, true), (":", .colon, true), (";", .semicolon, true), ("=", .equals, true), ("+", .plus, true),
    ("-@binary", .binary_minus, true), ("-@unary", .unary_minus, true), ("*", .star, true), ("\\", .backslash, true),
    ("/", .foreslash, true), ("~", .tilde, true), ("&", .ampersand, true), ("^", .circumflex, true),
    ("@", .ampersat, true), ("...", .ellipsis, true), ("->", .rightarrow, true)]

/-- The data of the lexical analyser. -/
def y_tables : Tables keyword_type character_type where
  keywords := keywords.map fun k => (k.1.toList, k.2)
  symbols := symbols.map fun s => (s.1.toList, s.2)

/-- The text of a symbol, without tags. -/
def untagged (key : List Char) : List Char := (erase_tag BINARY_TAG (erase_tag UNARY_TAG key).1).1

/-! ### Printing -/

/-- The characters of white space. -/
def white_space : List Char := [' ', '\t', '\n', '\x0b', '\x0c', '\r']

/-- What may stand between lexemes. -/
inductive Blank where
  | space (c : Char) (h : c ∈ white_space)
  | comment (text : List Char) (h : '\n' ∉ text)

def Blank.text : Blank → List Char
  | .space c _ => [c]
  | .comment text _ => '%' :: (text ++ ['\n'])

/-- Is it white space for the lexer, or a comment? -/
def Blank.Skipped : Blank → Prop
  | .space c _ => c = ' ' ∨ c = '\t' ∨ c = '\n'
  | .comment _ _ => True

/-- A lexeme that is printed. -/
inductive Token where
  | keyword (text : List Char) (k : keyword_type) (h : (text, k) ∈ y_tables.keywords)
  | identifier (c : Char) (rest : List Char) (hfirst : (isalpha c || c = '_' || c = '$') = true)
      (hrest : ∀ d ∈ rest, is_word d = true) (hnot : y_tables.keywords.lookup (c :: rest) = none)
  | number (text : List Char) (v : Number) (h : IsLiteral text v) (hfits : v.Fits)
  | string (content : List Char) (hquote : '"' ∉ content) (hline : '\n' ∉ content)
  | symbol (text : List Char) (h : text ∈ y_tables.symbols.map fun s => untagged s.1)

def Token.text : Token → List Char
  | .keyword text _ _ => text
  | .identifier c rest _ _ _ => c :: rest
  | .number text _ _ _ => text
  | .string content _ _ => '"' :: (content ++ ['"'])
  | .symbol text _ => text

/-- Is this the lexeme that was printed? -/
def Token.Matches : Token → value keyword_type character_type → Prop
  | .keyword _ k _, v => v = .keyword k
  | .identifier c rest _ _ _, v => v = .identifier (c :: rest)
  | .number _ n _ _, v => v = n.meaning
  | .string content _ _, v => v = .string content
  | .symbol text _, v => ∃ s ∈ y_tables.symbols, untagged s.1 = text ∧ v = .character s.2.1

/-- Is the lexeme one that is read back? -/
def Token.Kept : Token → Prop
  | .number text v _ _ => v.Kept text
  | .string content _ _ => content ≠ []
  | _ => True

/-- The text of white space and comments. -/
def blank_text (blanks : List Blank) : List Char := blanks.flatMap Blank.text

/-- A printed list of lexemes: each with what stands in front of it, and what stands at the end. -/
structure Printed where
  items : List (List Blank × Token)
  trailing : List Blank
  separated : ∀ item ∈ items.tail, item.1 ≠ []

def items_text (items : List (List Blank × Token)) : List Char :=
  items.flatMap fun item => blank_text item.1 ++ item.2.text

def Printed.text (p : Printed) : List Char := items_text p.items ++ blank_text p.trailing

def Printed.tokens (p : Printed) : List Token := p.items.map (·.2)

/-- Is everything read as it was printed? -/
def KeptItem (item : List Blank × Token) : Prop := (∀ b ∈ item.1, b.Skipped) ∧ item.2.Kept

def Printed.Kept (p : Printed) : Prop := (∀ item ∈ p.items, KeptItem item) ∧ ∀ b ∈ p.trailing, b.Skipped

/-- The construction of a stream for the file ends, with the lexemes that were printed. -/
def RoundTrips {P D : Type} [DecidableEq D] (env : Environment P D keyword_type character_type) (file : List Char)
    (paths : List D) (p : Printed) : Prop :=
  ∃ rounds s, construct env file paths rounds = some (.ok ⟨⟩ s) ∧ List.Forall₂ Token.Matches p.tokens s.values

/-! ### Words -/

/-- The character stops the words that do not end by themselves. -/
def Stops (after : List Char) : Prop := ∀ d, after.head? = some d → d ∈ white_space ∨ d = '%'

theorem Stops.not_word {after : List Char} (h : Stops after) {d : Char} (hd : after.head? = some d) :
    is_word d = false := by
  obtain hspace | rfl := h d hd
  · have hall : ∀ d ∈ white_space, is_word d = false := List.forall_iff_forall_mem.mp (by decide)
    exact hall d hspace
  · decide

theorem Stops.ne {after : List Char} (h : Stops after) {d c : Char} (hd : after.head? = some d)
    (hc : c ∉ '%' :: white_space) : d ≠ c := by
  rintro rfl
  exact hc (List.mem_cons.mpr (h d hd).symm)

/-- A word is cut off at what stops it. -/
theorem takeWhile_word {rest after : List Char} (hrest : ∀ d ∈ rest, is_word d = true) (h : Stops after) :
    (rest ++ after).takeWhile is_word = rest ∧ (rest ++ after).dropWhile is_word = after := by
  rw [List.takeWhile_append_of_pos hrest, List.dropWhile_append_of_pos hrest]
  cases after with
  | nil => simp
  | cons d after =>
    have hd : is_word d = false := h.not_word rfl
    simp [hd]

/-- The first word of a text that does not begin with white space or a comment. -/
theorem first_word_cons {c : Char} (h : c ∉ ['%', ' ', '\t', '\n']) (rest : List Char) :
    first_word (c :: rest) = some (find_word c rest) := by
  simp only [List.mem_cons, List.not_mem_nil, or_false, not_or] at h
  simp [first_word, skip_blank, h]

theorem find_word_identifier {c : Char} (hfirst : (isalpha c || c = '_' || c = '$') = true) {rest after : List Char}
    (hrest : ∀ d ∈ rest, is_word d = true) (h : Stops after) :
    find_word c (rest ++ after) = ⟨c :: rest, .string, after, none⟩ := by
  obtain ⟨htake, hdrop⟩ := takeWhile_word hrest h
  simp only [find_word, if_pos hfirst, htake, hdrop]

/-- Nothing that begins a word begins white space or a comment. -/
theorem not_blank_of_first {c : Char} (hfirst : (isalpha c || c = '_' || c = '$') = true) :
    c ∉ ['%', ' ', '\t', '\n'] := by
  intro hmem
  have hall : ∀ c ∈ ['%', ' ', '\t', '\n'], (isalpha c || c = '_' || c = '$') = false :=
    List.forall_iff_forall_mem.mp (by decide)
  rw [hall c hmem] at hfirst
  cases hfirst

theorem first_word_identifier {c : Char} (hfirst : (isalpha c || c = '_' || c = '$') = true) {rest after : List Char}
    (hrest : ∀ d ∈ rest, is_word d = true) (h : Stops after) :
    first_word (c :: rest ++ after) = some ⟨c :: rest, .string, after, none⟩ := by
  rw [List.cons_append, first_word_cons (not_blank_of_first hfirst), find_word_identifier hfirst hrest h]

theorem first_word_string {content : List Char} (hquote : '"' ∉ content) (after : List Char) :
    first_word ('"' :: (content ++ ['"']) ++ after) = some ⟨content, .string_literal, after, none⟩ := by
  have hall : ∀ c ∈ content, decide (c ≠ '"') = true := by
    intro c hc
    rw [decide_eq_true_eq]
    rintro rfl
    exact hquote hc
  have htake : (content ++ '"' :: after).takeWhile (· ≠ '"') = content := by
    rw [List.takeWhile_append_of_pos hall]
    simp
  have hdrop : (content ++ '"' :: after).dropWhile (· ≠ '"') = '"' :: after := by
    rw [List.dropWhile_append_of_pos hall]
    simp
  have hfind : find_word '"' (content ++ '"' :: after) = string_literal (content ++ '"' :: after) := rfl
  rw [List.cons_append, List.append_assoc, first_word_cons (by decide), List.cons_append, List.nil_append, hfind,
    string_literal, htake, hdrop]
  rfl

/-- Is the character a word by itself, whatever follows it? -/
def alone (c : Char) : Bool := !(isalpha c || isdigit c || ['_', '$', '-', '.', '"', '%', ' ', '\t', '\n'].contains c)

theorem first_word_alone {c : Char} (h : alone c = true) (rest : List Char) :
    first_word (c :: rest) = some ⟨[c], .character, rest, none⟩ := by
  simp only [alone, Bool.not_eq_true', Bool.or_eq_false_iff, List.contains_eq_mem, decide_eq_false_iff_not,
    List.mem_cons, List.not_mem_nil, or_false, not_or] at h
  rw [first_word_cons (by simp [h])]
  simp [find_word, h]

theorem symbol_cases {text : List Char} (h : text ∈ y_tables.symbols.map fun s => untagged s.1) :
    text = ['-'] ∨ text = ['-', '>'] ∨ text = ['.'] ∨ text = ['.', '.', '.'] ∨
      ∃ c ∈ text, text = [c] ∧ alone c = true := by
  have hall : ∀ text ∈ y_tables.symbols.map fun s => untagged s.1,
      text = ['-'] ∨ text = ['-', '>'] ∨ text = ['.'] ∨ text = ['.', '.', '.'] ∨
        text.any (fun c => text = [c] ∧ alone c = true) = true := by decide
  simpa only [List.any_eq_true, decide_eq_true_eq] using hall text h

theorem first_word_symbol {text : List Char} (h : text ∈ y_tables.symbols.map fun s => untagged s.1)
    {after : List Char} (hstops : Stops after) :
    first_word (text ++ after) = some ⟨text, .character, after, none⟩ := by
  obtain rfl | rfl | rfl | rfl | ⟨c, -, rfl, hc⟩ := symbol_cases h
  · cases after with
    | nil => rfl
    | cons d after =>
      have hd : d ≠ '>' := hstops.ne rfl (by decide)
      rw [List.cons_append, first_word_cons (by decide)]
      simp [find_word, hd, isalpha, isdigit]
  · rfl
  · cases after with
    | nil => rfl
    | cons d after =>
      have hd : d ≠ '.' := hstops.ne rfl (by decide)
      rw [List.cons_append, first_word_cons (by decide)]
      simp [find_word, hd, isalpha, isdigit]
  · rfl
  · exact first_word_alone hc after

theorem takes_blank (s : number_state) {d : Char} (h : d ∈ white_space ∨ d = '%') : s.takes d = false := by
  have hall : ∀ d ∈ '%' :: white_space, isdigit d = false ∧ d ∉ ['.', 'x', 'e', 'E', '+', '-', 'a', 'b', 'c', 'd', 'f',
      'A', 'B', 'D', 'F'] :=
    List.forall_iff_forall_mem.mp (by decide)
  obtain ⟨hdigit, hmarks⟩ := hall d (List.mem_cons.mpr h.symm)
  simp only [List.mem_cons, List.not_mem_nil, or_false, not_or] at hmarks
  simp [number_state.takes, hdigit, hmarks]

theorem first_word_digit {c : Char} (hc : isdigit c = true) (tail : List Char) :
    first_word (c :: tail) = some ⟨c :: (scan_number {} tail).1, .number, (scan_number {} tail).2, none⟩ := by
  rw [first_word_cons, find_word_digit hc]
  intro hmem
  have hall : ∀ m ∈ ['%', ' ', '\t', '\n'], isdigit m = false := List.forall_iff_forall_mem.mp (by decide)
  rw [hall c hmem] at hc
  cases hc

/-- A number without the digit `C`. -/
theorem first_word_number {text : List Char} {v : Number} (h : IsLiteral text v) (hC : 'C' ∉ text) {after : List Char}
    (hstops : Stops after) : first_word (text ++ after) = some ⟨text, .number, after, none⟩ := by
  obtain ⟨c, tail, rfl, hc, htakes, -⟩ := scan_literal h
  have hscan : scan_number {} (tail ++ after) = (tail, after) :=
    (scan_number_eq_iff {} tail after).mpr ⟨htakes.mpr hC, fun d hd => takes_blank _ (hstops d hd)⟩
  rw [List.cons_append, first_word_digit hc, hscan]

theorem is_word_of_isxdigit {c : Char} (h : isxdigit c = true) : is_word c = true := by
  obtain hdigit | hlower | hupper := isxdigit_cases h
  · have halnum : isalnum c = true := by
      simp only [isdigit] at hdigit
      simp [isalnum, Char.isAlphanum, hdigit]
    simp [is_word, halnum]
  · have hall : ∀ c ∈ ['a', 'b', 'c', 'd', 'e', 'f'], is_word c = true := List.forall_iff_forall_mem.mp (by decide)
    exact hall c hlower
  · have hall : ∀ c ∈ ['A', 'B', 'C', 'D', 'E', 'F'], is_word c = true := List.forall_iff_forall_mem.mp (by decide)
    exact hall c hupper

/-- A number with the digit `C` is read as two words: the scanner stops in front of it. -/
theorem first_word_cut {text : List Char} {v : Number} (h : IsLiteral text v) (hC : 'C' ∈ text) (after : List Char) :
    ∃ number rest, text = number ++ 'C' :: rest ∧ number ≠ [] ∧ (∀ d ∈ rest, is_word d = true) ∧
      first_word (number ++ ('C' :: rest ++ after)) = some ⟨number, .number, 'C' :: rest ++ after, none⟩ := by
  cases h with
  | decimal _ hdigits _ => exact absurd hC (not_mem_of_digits hdigits (by decide))
  | octal _ hoctal =>
    refine absurd hC (not_mem_of_digits (List.forall_mem_cons.mpr ⟨by decide, digits_of_octal hoctal⟩) (by decide))
  | real _ hwhole hfraction _ => exact absurd hC (not_mem_real hwhole hfraction (by decide) (by decide))
  | @hexadecimal digits hne hdigits =>
    have hmem : 'C' ∈ digits := by simpa using hC
    obtain ⟨before, rest, rfl, hbefore⟩ := List.eq_append_cons_of_mem hmem
    have hscan : scan_number {} ('x' :: before ++ ('C' :: rest ++ after)) = ('x' :: before, 'C' :: rest ++ after) := by
      rw [scan_number_eq_iff]
      refine ⟨⟨by decide, (takesAll_hex_iff rfl fun d hd => hdigits d (by simp [hd])).mpr hbefore⟩, fun d hd => ?_⟩
      obtain rfl : 'C' = d := by simpa using hd
      simp [number_state.takes, isdigit, Char.isDigit]
    refine ⟨'0' :: 'x' :: before, rest, by simp, by simp, ?_, ?_⟩
    · exact fun d hd => is_word_of_isxdigit (hdigits d (by simp [hd]))
    · rw [List.cons_append, first_word_digit (by decide), hscan]

/-! ### Reading -/

section Reading

variable {P D : Type} [DecidableEq D] {env : Environment P D keyword_type character_type} {paths : List D}
  {context context' context'' : minus_context} {rest rest' after : List Char}
  {out values values' : List (value keyword_type character_type)} {e e' : ℕ}

theorem ne_nil_of_first_word {word : found} (h : first_word rest = some word) : rest ≠ [] := by
  rintro rfl
  cases h

/-- White space and comments are skipped. -/
theorem lexes_of_first_word (hne : rest ≠ []) (hfirst : first_word rest = first_word rest')
    (h : Lexes env paths context rest' out e paths) : Lexes env paths context rest out e paths := by
  have hturn (paths : List D) (context : minus_context) :
      turn env paths context rest = turn env paths context rest' := by rw [turn, hfirst, turn]
  cases h with
  | done =>
    have hnothing : turn env paths context rest = (.nothing, 0, context, []) := by rw [hturn]; rfl
    exact .nothing hne hnothing .done
  | nothing _ h' h => exact .nothing hne ((hturn _ _).trans h') h
  | lexeme _ h' h => exact .lexeme hne ((hturn _ _).trans h') h
  | enter _ h' hinner h => exact .enter hne ((hturn _ _).trans h') hinner h

/-- A text is read as these lexemes, with so many errors, when what follows is read then. -/
def ReadAs (env : Environment P D keyword_type character_type) (context : minus_context) (text after : List Char)
    (values : List (value keyword_type character_type)) (e : ℕ) (context' : minus_context) : Prop :=
  ∀ paths out e', Lexes env paths context' after out e' paths →
    Lexes env paths context (text ++ after) (values ++ out) (e + e') paths

theorem ReadAs.append {a b : List Char} (h : ReadAs env context a (b ++ after) values e context')
    (h' : ReadAs env context' b after values' e' context'') :
    ReadAs env context (a ++ b) after (values ++ values') (e + e') context'' := by
  intro paths out e'' hafter
  have hall := h paths _ _ (h' paths out e'' hafter)
  rwa [← List.append_assoc, ← List.append_assoc, ← Nat.add_assoc] at hall

/-- A word that is not empty is a lexeme. -/
theorem readAs_word (htables : env.tables = y_tables) {text buffer : List Char} {type : buffer_type}
    {v : value keyword_type character_type} {reports : List (Bool × String)}
    (hfirst : first_word (text ++ after) = some ⟨buffer, type, after, none⟩) (hne : buffer ≠ [])
    (hhash : buffer ≠ ['#'] ∨ type ≠ .character)
    (hclassify : classify y_tables buffer type context = (v, context', reports)) :
    ReadAs env context text after [v] (reports.countP (·.1)) context' := by
  intro paths out e' hafter
  refine .lexeme (ne_nil_of_first_word hfirst) ?_ hafter
  rw [turn, hfirst]
  simp only [if_neg hne, htables, hclassify]
  rw [if_neg (by tauto)]
  simp [word_errors]

/-- A string literal without characters is not a lexeme. -/
theorem readAs_empty : ReadAs env context ['"', '"'] after [] 0 context := by
  intro paths out e' hafter
  have hfirst : first_word (['"', '"'] ++ after) = some ⟨[], .string_literal, after, none⟩ :=
    first_word_string List.not_mem_nil after
  refine .nothing (ne_nil_of_first_word hfirst) ?_ hafter
  rw [turn, hfirst]
  rfl

/-- A comment goes up to the end of its line. -/
theorem skip_comment {text : List Char} (h : '\n' ∉ text) (after : List Char) :
    skip_blank true (text ++ '\n' :: after) = skip_blank false after := by
  induction text with
  | nil => rfl
  | cons c text ih =>
    rw [List.mem_cons, not_or] at h
    have hc : decide (c ≠ '\n') = true := decide_eq_true fun heq => h.1 heq.symm
    rw [List.cons_append, skip_blank, hc, ih h.2]

theorem first_word_blank {b : Blank} (h : b.Skipped) (after : List Char) :
    first_word (b.text ++ after) = first_word after := by
  cases b with
  | space c hc =>
    obtain rfl | rfl | rfl := h <;> rfl
  | comment text htext =>
    have hskip : skip_blank false ('%' :: (text ++ ['\n']) ++ after) = skip_blank false after := by
      rw [List.cons_append, List.append_assoc]
      exact skip_comment htext after
    rw [first_word, Blank.text, hskip, first_word]

theorem untagged_of_matches {key buffer : List Char} (h : symbol_matches key buffer context = true) :
    untagged key = buffer := by
  simp only [symbol_matches, Bool.and_eq_true, decide_eq_true_eq] at h
  exact h.1.1

/-- White space that is not skipped is an unknown character. -/
theorem readAs_space (htables : env.tables = y_tables) {b : Blank} (h : ¬ b.Skipped) :
    ReadAs env context b.text after [.unknown] 1 .unary := by
  cases b with
  | comment => exact absurd trivial h
  | space c hc =>
    have hodd : c ∈ ['\x0b', '\x0c', '\r'] := by
      simp only [white_space, List.mem_cons, List.not_mem_nil, or_false] at hc ⊢
      simp only [Blank.Skipped] at h
      tauto
    have hall : ∀ c ∈ ['\x0b', '\x0c', '\r'], alone c = true ∧ c ≠ '#' ∧
        ∀ s ∈ y_tables.symbols, untagged s.1 ≠ [c] := List.forall_iff_forall_mem.mp (by decide)
    obtain ⟨halone, hhash, hnot⟩ := hall c hodd
    have hnone : y_tables.symbols.find? (fun s => symbol_matches s.1 [c] context) = none := by
      rw [List.find?_eq_none]
      exact fun s hs hmatches => hnot s hs (untagged_of_matches hmatches)
    have hclassify : classify y_tables [c] .character context =
        (.unknown, .unary, [(true, ERROR_UNRECOGNIZED_SYMBOL ++ quoted [c])]) := by
      rw [classify, hnone]
    exact readAs_word htables (first_word_alone halone after) (by simp) (.inl (by simpa using hhash)) hclassify

/-- White space and comments: each character of white space that is not skipped is a lexeme. -/
theorem readAs_blanks (htables : env.tables = y_tables) (blanks : List Blank) (context : minus_context)
    (after : List Char) :
    ∃ unknown e context', ReadAs env context (blank_text blanks) after unknown e context' ∧
      (∀ v ∈ unknown, v = .unknown) ∧ ((∀ b ∈ blanks, b.Skipped) ↔ unknown = []) ∧ (unknown = [] → e = 0) := by
  induction blanks generalizing context with
  | nil =>
    refine ⟨[], 0, context, fun paths out e' h => ?_, by simp, by simp, fun _ => rfl⟩
    rwa [Nat.zero_add]
  | cons b blanks ih =>
    have htext : blank_text (b :: blanks) = b.text ++ blank_text blanks := rfl
    rw [htext]
    by_cases hb : b.Skipped
    · obtain ⟨unknown, e, context', hread, hall, hskipped, hnone⟩ := ih context
      refine ⟨unknown, e, context', fun paths out e' h => ?_, hall, by simp [hb, hskipped], hnone⟩
      rw [List.append_assoc]
      refine lexes_of_first_word ?_ (first_word_blank hb _) (hread paths out e' h)
      cases b <;> simp [Blank.text]
    · obtain ⟨unknown, e, context', hread, hall, -, -⟩ := ih .unary
      refine ⟨[.unknown] ++ unknown, 1 + e, context', (readAs_space htables hb).append hread, ?_, by simp [hb],
        by simp⟩
      simpa using hall

/-- A keyword is read as a word, and it is found. -/
theorem keyword_word {text : List Char} {k : keyword_type} (h : (text, k) ∈ y_tables.keywords) :
    y_tables.keywords.lookup text = some k ∧ ∃ c rest, text = c :: rest ∧
      (isalpha c || c = '_' || c = '$') = true ∧ ∀ d ∈ rest, is_word d = true := by
  have hall : ∀ p ∈ y_tables.keywords, y_tables.keywords.lookup p.1 = some p.2 ∧
      p.1.head?.any (fun c => isalpha c || c = '_' || c = '$') = true ∧ p.1.tail.all is_word = true := by
    decide +kernel
  obtain ⟨hlookup, hhead, hrest⟩ := hall (text, k) h
  obtain ⟨c, hc, hfirst⟩ := (Option.any_eq_true _ _).mp hhead
  refine ⟨hlookup, c, text.tail, ?_, hfirst, List.all_eq_true.mp hrest⟩
  exact List.eq_cons_of_mem_head? hc

/-- A symbol of the table is found, whatever a minus sign is. -/
theorem symbol_found {text : List Char} (h : text ∈ y_tables.symbols.map fun s => untagged s.1)
    (context : minus_context) :
    ∃ s ∈ y_tables.symbols, untagged s.1 = text ∧
      y_tables.symbols.find? (fun s => symbol_matches s.1 text context) = some s := by
  have hall : ∀ text ∈ y_tables.symbols.map fun s => untagged s.1,
      (y_tables.symbols.find? fun s => symbol_matches s.1 text .unary).isSome = true ∧
        (y_tables.symbols.find? fun s => symbol_matches s.1 text .binary).isSome = true := by decide +kernel
  have hsome : (y_tables.symbols.find? fun s => symbol_matches s.1 text context).isSome = true := by
    cases context
    · exact (hall text h).1
    · exact (hall text h).2
  obtain ⟨s, hs⟩ := Option.isSome_iff_exists.mp hsome
  exact ⟨s, List.mem_of_find?_eq_some hs, untagged_of_matches (List.find?_some hs :), hs⟩

theorem convert_number_ne_string (text str : List Char) :
    (convert_number text : value keyword_type character_type) ≠ .string str := by
  have hinteger (n : Option ℕ) : (integer_or_unknown n : value keyword_type character_type) ≠ .string str := by
    cases n <;> simp [integer_or_unknown]
  rw [convert_number]
  split
  · exact hinteger _
  · split
    · exact hinteger _
    · cases scan_i text with
      | some n => simp
      | none => cases scan_lf text <;> simp

/-- The lexemes that are made of a printed one. -/
theorem readAs_token (htables : env.tables = y_tables) (t : Token) (hstops : Stops after) (context : minus_context) :
    ∃ values e context', ReadAs env context t.text after values e context' ∧ .string [] ∉ values ∧
      (¬ t.Matches (.string []) → values ≠ []) ∧ (∀ v, values = [v] → t.Matches v → t.Kept) ∧
      (t.Kept → e = 0 ∧ ∃ v, values = [v] ∧ t.Matches v) := by
  cases t with
  | keyword text k h =>
    obtain ⟨hlookup, c, rest, rfl, hfirst, hrest⟩ := keyword_word h
    have hclassify : classify y_tables (c :: rest) .string context = (.keyword k, .unary, []) := by
      rw [classify, hlookup]
    have hfirst := first_word_identifier hfirst hrest hstops
    exact ⟨_, _, _, readAs_word htables hfirst (by simp) (.inr (by simp)) hclassify,
      by simp, by simp, fun _ _ _ => trivial, fun _ => ⟨rfl, .keyword k, rfl, rfl⟩⟩
  | identifier c rest hfirst hrest hnot =>
    have hclassify : classify y_tables (c :: rest) .string context = (.identifier (c :: rest), .binary, []) := by
      rw [classify, hnot]
    have hfirst := first_word_identifier hfirst hrest hstops
    exact ⟨_, _, _, readAs_word htables hfirst (by simp) (.inr (by simp)) hclassify,
      by simp, by simp, fun _ _ _ => trivial, fun _ => ⟨rfl, .identifier (c :: rest), rfl, rfl⟩⟩
  | number text v h hfits =>
    by_cases hC : 'C' ∈ text
    · obtain ⟨number, rest, rfl, hne, hrest, hfirst⟩ := first_word_cut h hC after
      have hword := first_word_identifier (c := 'C') (by decide) hrest hstops
      refine ⟨_, _, _, (readAs_word htables hfirst hne (.inr (by simp)) rfl).append
        (readAs_word htables hword (by simp) (.inr (by simp)) rfl), ?_, by simp, by simp, fun hkept => ?_⟩
      · simp only [List.cons_append, List.nil_append, List.mem_cons, List.not_mem_nil, or_false, not_or]
        exact ⟨(convert_number_ne_string _ _).symm, by simp⟩
      · cases v with
        | integer n => exact absurd hC hkept.1
        | decimal d => exact absurd hC h.not_mem_decimal
    · have hconvert : (convert_number text : value keyword_type character_type) = v.converted := convert_literal h
      have hclassify : classify y_tables text .number context = (v.converted, .binary, []) := by
        rw [classify, hconvert]
        cases v <;> rfl
      have hne : text ≠ [] := by
        obtain ⟨c, tail, rfl, -⟩ := scan_literal h
        exact List.cons_ne_nil _ _
      have hmatches : (v.converted : value keyword_type character_type) = v.meaning ↔ v.Kept text := by
        cases v with
        | integer n =>
          simp only [Number.converted, Number.meaning, value.integer.injEq, to_int_eq_iff hfits, Number.Kept, hC,
            not_false_eq_true, true_and]
        | decimal d => simp [Number.converted, Number.meaning, Number.Kept]
      refine ⟨_, _, _, readAs_word htables (first_word_number h hC hstops) hne (.inr (by simp)) hclassify, ?_, by simp,
        ?_, fun hkept => ⟨rfl, v.converted, rfl, hmatches.mpr hkept⟩⟩
      · cases v <;> simp [Number.converted]
      · rintro w ⟨rfl⟩ hw
        exact hmatches.mp hw
  | string content hquote hline =>
    by_cases hempty : content = []
    · subst hempty
      exact ⟨[], 0, context, readAs_empty, by simp, fun hne => absurd rfl hne, by simp, fun hkept => absurd rfl hkept⟩
    · refine ⟨_, _, _, readAs_word htables (first_word_string hquote after) hempty (.inr (by simp)) rfl,
        by simpa using Ne.symm hempty, by simp, fun _ _ _ => hempty, fun _ => ⟨rfl, .string content, rfl, rfl⟩⟩
  | symbol text h =>
    obtain ⟨s, hmem, huntagged, hfind⟩ := symbol_found h context
    have hall : ∀ text ∈ y_tables.symbols.map fun s => untagged s.1, text ≠ [] ∧ text ≠ ['#'] := by decide
    obtain ⟨hne, hhash⟩ := hall text h
    have hclassify : classify y_tables text .character context =
        (.character s.2.1, if s.2.2 then .unary else .binary, []) := by
      rw [classify, hfind]
    exact ⟨_, _, _, readAs_word htables (first_word_symbol h hstops) hne (.inl hhash) hclassify,
      by simp, by simp, fun _ _ _ => trivial, fun _ => ⟨rfl, .character s.2.1, rfl, s, hmem, huntagged, rfl⟩⟩

theorem stops_blank_text {blanks : List Blank} (h : blanks = [] → after = []) :
    Stops (blank_text blanks ++ after) := by
  intro d hd
  cases blanks with
  | nil =>
    rw [h rfl] at hd
    cases hd
  | cons b blanks =>
    cases b with
    | space c hc =>
      obtain rfl : c = d := by simpa [blank_text, Blank.text] using hd
      exact .inl hc
    | comment text htext =>
      obtain rfl : '%' = d := by simpa [blank_text, Blank.text] using hd
      exact .inr rfl

/-- What stands behind a lexeme stops it. -/
theorem stops_items_text {items : List (List Blank × Token)} {trailing : List Blank}
    (h : ∀ item ∈ items, item.1 ≠ []) : Stops (items_text items ++ blank_text trailing) := by
  cases items with
  | nil =>
    have hstops : Stops (blank_text trailing ++ []) := stops_blank_text fun _ => rfl
    rwa [List.append_nil] at hstops
  | cons item items =>
    have htext : items_text (item :: items) ++ blank_text trailing =
        blank_text item.1 ++ (item.2.text ++ items_text items ++ blank_text trailing) := by simp [items_text]
    rw [htext]
    exact stops_blank_text fun hnil => absurd hnil (h item List.mem_cons_self)

/-- What is read of a printed list: there is no lexeme of an empty string, every other one makes at least one, and if
they match, then everything is read as it was printed. -/
theorem lexes_items (htables : env.tables = y_tables) (items : List (List Blank × Token)) (trailing : List Blank)
    (hseparated : ∀ item ∈ items.tail, item.1 ≠ []) (context : minus_context) :
    ∃ out e, (∀ paths, Lexes env paths context (items_text items ++ blank_text trailing) out e paths) ∧
      .string [] ∉ out ∧
      ((∀ item ∈ items, ¬ item.2.Matches (.string [])) → items.length ≤ out.length ∧
        (List.Forall₂ Token.Matches (items.map (·.2)) out →
          (∀ item ∈ items, KeptItem item) ∧ ∀ b ∈ trailing, b.Skipped)) ∧
      ((∀ item ∈ items, KeptItem item) → (∀ b ∈ trailing, b.Skipped) →
        e = 0 ∧ List.Forall₂ Token.Matches (items.map (·.2)) out) := by
  induction items generalizing context with
  | nil =>
    obtain ⟨unknown, e, context', hread, hall, hskipped, hnone⟩ := readAs_blanks htables trailing context []
    refine ⟨unknown, e, fun paths => ?_, fun hmem => absurd (hall _ hmem) (by simp), fun _ => ⟨by simp, fun h => ?_⟩,
      fun _ h => ⟨hnone (hskipped.mp h), ?_⟩⟩
    · simpa [items_text] using hread paths [] 0 .done
    · exact ⟨by simp, hskipped.mpr (by simpa using h)⟩
    · rw [hskipped.mp h]
      exact .nil
  | cons item items ih =>
    have hbehind : ∀ item ∈ items.tail, item.1 ≠ [] := fun i hi => hseparated i (List.mem_of_mem_tail hi)
    have hstops : Stops (items_text items ++ blank_text trailing) := stops_items_text hseparated
    obtain ⟨unknown, e₁, context₁, hblank, hunknown, hskipped, hnone⟩ :=
      readAs_blanks htables item.1 context (item.2.text ++ (items_text items ++ blank_text trailing))
    obtain ⟨values, e₂, context₂, htoken, hempty, hsome, hkept, hmatches⟩ :=
      readAs_token htables item.2 hstops context₁
    obtain ⟨out, e₃, hrest, hempty', hback, hforth⟩ := ih hbehind context₂
    have htext : items_text (item :: items) ++ blank_text trailing =
        blank_text item.1 ++ item.2.text ++ (items_text items ++ blank_text trailing) := by simp [items_text]
    refine ⟨unknown ++ values ++ out, e₁ + e₂ + e₃, fun paths => ?_, ?_, fun hstrings => ?_,
      fun hitems htrailing => ?_⟩
    · rw [htext]
      exact (hblank.append htoken) paths out e₃ (hrest paths)
    · simp only [List.mem_append, not_or]
      exact ⟨⟨fun hmem => absurd (hunknown _ hmem) (by simp), hempty⟩, hempty'⟩
    · obtain ⟨hlength, hback⟩ := hback fun i hi => hstrings i (List.mem_cons_of_mem _ hi)
      have hone : 1 ≤ values.length :=
        List.length_pos_iff.mpr (hsome (hstrings item List.mem_cons_self))
      refine ⟨by simp only [List.length_append, List.length_cons]; omega, fun hall => ?_⟩
      -- there is no room for a lexeme of white space, or for a second one of a number
      have hequal := hall.length_eq
      simp only [List.length_append, List.length_map, List.length_cons] at hequal
      obtain rfl : unknown = [] := List.length_eq_zero_iff.mp (by omega)
      obtain ⟨v, rfl⟩ := List.length_eq_one_iff.mp (show values.length = 1 by omega)
      obtain ⟨hv, hout⟩ := List.forall₂_cons.mp hall
      obtain ⟨hitems, htrailing⟩ := hback hout
      exact ⟨List.forall_mem_cons.mpr ⟨⟨hskipped.mpr rfl, hkept v rfl hv⟩, hitems⟩, htrailing⟩
    · obtain ⟨⟨hblanks, hitem⟩, hitems⟩ := List.forall_mem_cons.mp hitems
      obtain rfl := hskipped.mp hblanks
      obtain rfl := hnone rfl
      obtain ⟨rfl, v, rfl, hv⟩ := hmatches hitem
      obtain ⟨rfl, hout⟩ := hforth hitems htrailing
      exact ⟨rfl, .cons hv hout⟩

end Reading

/-! ### The theorem -/

theorem Token.eq_of_matches_empty {t : Token} {v : value keyword_type character_type} (h : t.Matches (.string []))
    (hv : t.Matches v) : v = .string [] := by
  cases t with
  | keyword => simp [Matches] at h
  | identifier => simp [Matches] at h
  | number _ n => cases n <;> simp [Matches, Number.meaning] at h
  | string => exact hv.trans h.symm
  | symbol => simp [Matches] at h

section RoundTrip

variable {P D : Type} [DecidableEq D] {env : Environment P D keyword_type character_type} {file : List Char}
  {paths : List D} {path : P} {p : Printed}

/-- **Printing** lexemes and reading them gives them back if and only if everything is kept: no string is empty,
numbers are without `C` and integers below 2³¹, and white space is made of blanks, tabulators and new lines. -/
theorem lexemes_round_trip_iff (htables : env.tables = y_tables) (hlines : env.max_lines = none)
    (hfile : resolve env paths file = .found path) (htext : env.text path = p.text) :
    RoundTrips env file paths p ↔ p.Kept := by
  have hopened : opened env path = items_text p.items ++ blank_text p.trailing := by
    simp only [opened, lexfile.open, hlines, htext, Printed.text]
  obtain ⟨out, e, hlexes, hempty, hback, hforth⟩ := lexes_items htables p.items p.trailing p.separated .unary
  have hlexes := hlexes (add_path paths (env.parent_path path))
  rw [← hopened] at hlexes
  have hread (hfew : e ≤ DEFAULT_MAX_ERROR_COUNT) : ∃ s, s.values = out ∧
      Ends Finished (step env) (entered env { paths } path) (.ok ⟨⟩ s) := by
    obtain ⟨n, s, hrounds, hstack, -, -, hvalues⟩ :=
      hlexes.rounds (s := entered env { paths } path) rfl rfl rfl ((Nat.zero_add e).trans_le hfew)
    exact ⟨s, hvalues, hrounds.ends_iff.mpr (.of_done hstack)⟩
  constructor
  · rintro ⟨rounds, s, hconstruct, hall⟩
    rw [construct_found env hfile] at hconstruct
    have hends : Ends Finished (step env) (entered env { paths } path) (.ok ⟨⟩ s) := ⟨rounds, hconstruct⟩
    obtain rfl : s.values = out := by
      by_cases hfew : e ≤ DEFAULT_MAX_ERROR_COUNT
      · obtain ⟨s', rfl, hends'⟩ := hread hfew
        cases hends.unique hends'
        rfl
      · obtain ⟨s', hends'⟩ := hlexes.exits (s := entered env { paths } path) rfl rfl rfl (Nat.zero_le _)
          ((not_le.mp hfew).trans_eq (Nat.zero_add e).symm)
        cases hends.unique hends'
    refine (hback fun item hitem hmatches => ?_).2 hall
    -- there is no lexeme for an empty string
    obtain ⟨v, hv, hmatch⟩ := mem_left_of_forall₂ hall (List.mem_map_of_mem hitem)
    exact hempty (Token.eq_of_matches_empty hmatches hmatch ▸ hv)
  · rintro ⟨hitems, htrailing⟩
    obtain ⟨rfl, hall⟩ := hforth hitems htrailing
    obtain ⟨s, rfl, rounds, hends⟩ := hread (Nat.zero_le _)
    exact ⟨rounds, s, (construct_found env hfile rounds).trans hends, hall⟩

end RoundTrip

/-- One file, which is found under every name. -/
def one_file (text : List Char) : Environment Unit Unit keyword_type character_type where
  text _ := text
  parent_path _ := none
  exists_in _ _ := some ()
  is_absolute _ := true
  canonical _ := some ()
  max_lines := none
  tables := y_tables

/-- A keyword and a string literal, with a comment between them. -/
def field_line : Printed where
  items := [([], .keyword "name".toList .name (by decide)),
    ([.space ' ' (by decide), .comment ['a'] (by decide)], .string ['b'] (by decide) (by decide))]
  trailing := [.space '\n' (by decide)]
  separated := by simp

theorem round_trips_field_line : RoundTrips (one_file field_line.text) [] [] field_line := by
  refine (lexemes_round_trip_iff rfl rfl rfl rfl).mpr ⟨?_, ?_⟩
  · simp [field_line, KeptItem, Token.Kept, Blank.Skipped]
  · simp [field_line, Blank.Skipped]

/-- A string without characters. -/
def empty_string : Printed where
  items := [([], .string [] (by decide) (by decide))]
  trailing := []
  separated := by simp

/-- It is not read back. -/
theorem empty_string_lost : ¬ RoundTrips (one_file empty_string.text) [] [] empty_string := by
  rintro ⟨rounds, s, hconstruct, hall⟩
  have hfound : resolve (one_file empty_string.text) [] [] = .found () := rfl
  rw [construct_found _ hfound] at hconstruct
  have hread : ∃ s', s'.values = [] ∧ Ends Finished (step (one_file empty_string.text))
      (entered (one_file empty_string.text) { paths := [] } ()) (.ok ⟨⟩ s') := ⟨_, rfl, 2, rfl⟩
  obtain ⟨s', hvalues, hends⟩ := hread
  cases hends.unique ⟨rounds, hconstruct⟩
  rw [hvalues] at hall
  cases hall

end CppTransport.Translator.Lexer
