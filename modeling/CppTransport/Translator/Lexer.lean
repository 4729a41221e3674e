import Mathlib.Algebra.Order.Field.Rat
import Mathlib.Data.Rat.Defs

/-!
# The lexical analyser

Model files and the first lines of templates are read as lexemes. `get_lexeme` finds the next word of
a file, behind white space and comments, by its first character; the constructor of `lexeme` decides
what the word stands for. Here a file is the text that has not been read; a stream that ends after a
number of lines is one with the rest cut off.

Numbers are converted by `sscanf` with `%n`, and a conversion counts only if it has used the whole
word; so it is modelled by what the whole word stands for. Decimal numbers are rational here: `double`
rounds them.
-/

namespace CppTransport.Translator.Lexer

/-! ### Characters -/

def isdigit (c : Char) : Bool := c.isDigit

def isalpha (c : Char) : Bool := c.isAlpha

def isalnum (c : Char) : Bool := c.isAlphanum

/-- The characters of an identifier. -/
def is_word (c : Char) : Bool := isalnum c || c = '_' || c = '$'

/-! ### Files -/

/-- A place in a file. -/
structure position where
  line : ℕ := 1
  char_pos : ℕ := 0
deriving DecidableEq, Repr

/-- The position behind a text. -/
def position.move (p : position) (text : List Char) : position :=
  text.foldl (fun p c => if c = '\n' then ⟨p.line + 1, 0⟩ else ⟨p.line, p.char_pos + 1⟩) p

/-- A file that is being read. -/
structure lexfile where
  /-- What has not been read. -/
  rest : List Char
  position : position := {}
deriving DecidableEq, Repr

/-- Lines of a text, with the character that ends the last one. -/
def first_lines : ℕ → List Char → List Char
  | _, [] => []
  | 0, _ => []
  | n + 1, c :: rest => c :: first_lines (if c = '\n' then n else n + 1) rest

/-- A file is opened. When there is a limit to the number of lines, at least one is read. -/
def lexfile.open (text : List Char) (max_lines : Option ℕ) : lexfile where
  rest := match max_lines with
    | none => text
    | some n => first_lines (max n 1) text

/-- Read on up to a later part of the text. -/
def lexfile.to (f : lexfile) (rest : List Char) : lexfile :=
  ⟨rest, f.position.move (f.rest.take (f.rest.length - rest.length))⟩

/-- An error or a warning, with the part of a line that it is about. -/
structure Report where
  error : Bool
  msg : String
  line : ℕ
  start_pos : ℕ
  end_pos : ℕ
deriving DecidableEq, Repr

/-! ### Words -/

inductive buffer_type where
  | string
  | number
  | character
  | string_literal
deriving DecidableEq, Repr

/-- A word of the input. Its type is not initialized when no word has been found. -/
structure lexeme_buffer where
  buffer : List Char := []
  type : Option buffer_type := none
  line : ℕ := 0
  start_pos : ℕ := 0
  end_pos : ℕ := 0
deriving DecidableEq, Repr

/-- What is left behind white space and comments; in a comment everything is skipped up to the end of the line. -/
def skip_blank : Bool → List Char → List Char
  | _, [] => []
  | true, c :: rest => skip_blank (c ≠ '\n') rest
  | false, c :: rest =>
    if c = '%' then skip_blank true rest
    else if c = ' ' || c = '\t' || c = '\n' then skip_blank false rest
    else c :: rest

/-- What has been seen of a number. -/
structure number_state where
  /-- Does the number have a decimal point? -/
  dot : Bool := false
  /-- Is it in hexadecimal? -/
  hex : Bool := false
  /-- Is a sign of an exponent expected? -/
  eng : Bool := false
deriving DecidableEq, Repr

/-- Does a character go on with the number? -/
def number_state.takes (s : number_state) (c : Char) : Bool :=
  isdigit c || (!s.dot && c = '.') || (!s.hex && !s.dot && c = 'x')
    || (s.hex && (c = 'a' || c = 'b' || c = 'c' || c = 'd' || c = 'e' || c = 'f'
      || c = 'A' || c = 'B' || c = 'D' || c = 'E' || c = 'F'))
    || (!s.hex && (c = 'e' || c = 'E')) || (s.eng && (c = '+' || c = '-'))

def number_state.next (s : number_state) (c : Char) : number_state where
  dot := s.dot || c = '.'
  hex := s.hex || c = 'x'
  eng := (c = 'e' || c = 'E') && !s.hex

/-- Split off the characters that go on with a number. -/
def scan_number : number_state → List Char → List Char × List Char
  | _, [] => ([], [])
  | s, c :: rest =>
    if s.takes c then
      let (digits, rest) := scan_number (s.next c) rest
      (c :: digits, rest)
    else ([], c :: rest)

def ERROR_EXPECTED_ELLIPSIS : String := "Expected '...', not '..'"

def ERROR_EXPECTED_CLOSE_QUOTE : String := "Unterminated string literal"

/-- What is found at the beginning of a text. -/
structure found where
  buffer : List Char
  type : buffer_type
  rest : List Char
  error : Option String := none
deriving DecidableEq, Repr

/-- Text in quotes, behind the opening one. -/
def string_literal (rest : List Char) : found where
  buffer := rest.takeWhile (· ≠ '"')
  type := .string_literal
  rest := (rest.dropWhile (· ≠ '"')).tail
  error := if (rest.dropWhile (· ≠ '"')).isEmpty then some ERROR_EXPECTED_CLOSE_QUOTE else none

/-- The word that begins with a character. -/
def find_word (c : Char) (rest : List Char) : found :=
  if isalpha c || c = '_' || c = '$' then ⟨c :: rest.takeWhile is_word, .string, rest.dropWhile is_word, none⟩
  else if isdigit c then
    let (digits, rest) := scan_number {} rest
    ⟨c :: digits, .number, rest, none⟩
  else if c = '-' then
    match rest with
    | '>' :: rest => ⟨['-', '>'], .character, rest, none⟩
    | rest => ⟨['-'], .character, rest, none⟩
  else if c = '.' then
    match rest with
    | '.' :: '.' :: rest => ⟨['.', '.', '.'], .character, rest, none⟩
    | '.' :: rest => ⟨['.', '.', '.'], .character, rest, some ERROR_EXPECTED_ELLIPSIS⟩
    | rest => ⟨['.'], .character, rest, none⟩
  else if c = '"' then string_literal rest
  else ⟨[c], .character, rest, none⟩

/-- Find the next word. It is empty at the end of the file. -/
def get_lexeme (input : lexfile) : lexeme_buffer × lexfile × List Report :=
  let input := input.to (skip_blank false input.rest)
  match input.rest with
  | [] => ({}, input, [])
  | c :: rest =>
    let word := find_word c rest
    let after := input.to word.rest
    (⟨word.buffer, some word.type, input.position.line, input.position.char_pos, after.position.char_pos⟩, after,
      word.error.toList.map fun msg =>
        ⟨true, msg, input.position.line, input.position.char_pos, after.position.char_pos⟩)

/-- Behind white space and comments the next word is found. -/
theorem get_lexeme_eq {f : lexfile} {c : Char} {rest : List Char} (h : skip_blank false f.rest = c :: rest) :
    ∃ word input reports, get_lexeme f = (word, input, reports) ∧ word.buffer = (find_word c rest).buffer ∧
      word.type = some (find_word c rest).type ∧ input.rest = (find_word c rest).rest ∧
      reports.map (fun r => (r.error, r.msg)) = (find_word c rest).error.toList.map fun msg => (true, msg) := by
  simp only [get_lexeme, lexfile.to, h]
  refine ⟨_, _, _, rfl, rfl, rfl, rfl, ?_⟩
  rw [List.map_map]
  rfl

theorem get_lexeme_end {f : lexfile} (h : skip_blank false f.rest = []) :
    ∃ input, get_lexeme f = ({}, input, []) ∧ input.rest = [] := by
  simp only [get_lexeme, lexfile.to, h]
  exact ⟨_, rfl, rfl⟩

/-! ### Lexemes -/

/-- What a lexeme is; `K` are the keywords and `S` the symbols. -/
inductive value (K S : Type) where
  | keyword (k : K)
  | character (s : S)
  | identifier (id : List Char)
  | integer (z : ℤ)
  | decimal (d : ℚ)
  | string (str : List Char)
  | unknown
deriving DecidableEq, Repr

structure lexeme (K S : Type) where
  value : value K S
  unique : ℕ
  line : ℕ
  start_pos : ℕ
  end_pos : ℕ
deriving DecidableEq, Repr

/-- Is a minus sign unary or binary? -/
inductive minus_context where
  | unary
  | binary
deriving DecidableEq, Repr

/-- The keywords and symbols of an input language. With a symbol stands whether a unary minus may follow it. -/
structure Tables (K S : Type) where
  keywords : List (List Char × K)
  symbols : List (List Char × S × Bool)

section Numbers

/-- The value of a digit. -/
def digit_value (c : Char) : ℕ :=
  if isdigit c then c.toNat - '0'.toNat
  else if 'a' ≤ c ∧ c ≤ 'f' then c.toNat - 'a'.toNat + 10
  else if 'A' ≤ c ∧ c ≤ 'F' then c.toNat - 'A'.toNat + 10
  else 0

def is_octal (c : Char) : Bool := '0' ≤ c ∧ c ≤ '7'

def isxdigit (c : Char) : Bool := isdigit c || ('a' ≤ c ∧ c ≤ 'f') || ('A' ≤ c ∧ c ≤ 'F')

/-- The number that digits stand for. -/
def number_of (base : ℕ) (digits : List Char) : ℕ := digits.foldl (fun n c => base * n + digit_value c) 0

/-- The digits of one kind, if there are only such digits. -/
def read_digits (base : ℕ) (is_digit : Char → Bool) (text : List Char) : Option ℕ :=
  if text ≠ [] ∧ text.all is_digit then some (number_of base text) else none

/-- `sscanf` with `%x`. -/
def scan_x (text : List Char) : Option ℕ :=
  match text with
  | '0' :: 'x' :: digits => read_digits 16 isxdigit digits
  | digits => read_digits 16 isxdigit digits

/-- `sscanf` with `%o`. -/
def scan_o (text : List Char) : Option ℕ := read_digits 8 is_octal text

/-- `sscanf` with `%i`. -/
def scan_i (text : List Char) : Option ℕ :=
  match text with
  | '0' :: 'x' :: digits => read_digits 16 isxdigit digits
  | '0' :: _ => read_digits 8 is_octal text
  | digits => read_digits 10 isdigit digits

/-- An exponent, behind its letter. -/
def scan_exponent (text : List Char) : Option ℤ :=
  match text with
  | '-' :: digits => (read_digits 10 isdigit digits).map fun n : ℕ => -(n : ℤ)
  | '+' :: digits => (read_digits 10 isdigit digits).map fun n : ℕ => (n : ℤ)
  | digits => (read_digits 10 isdigit digits).map fun n : ℕ => (n : ℤ)

/-- The number that digits before and behind the decimal point stand for. -/
def mantissa (whole fraction : List Char) : ℚ := number_of 10 (whole ++ fraction) / 10 ^ fraction.length

/-- The letter of an exponent and what follows it. -/
def scale (m : ℚ) (text : List Char) : Option ℚ :=
  match text with
  | [] => some m
  | c :: digits => if c = 'e' || c = 'E' then (scan_exponent digits).map fun k => m * 10 ^ k else none

/-- `sscanf` with `%lf`, which converts as `%lg` and `%lG` do. -/
def scan_lf (text : List Char) : Option ℚ :=
  let whole := text.takeWhile isdigit
  match text.dropWhile isdigit with
  | '.' :: rest =>
    let fraction := rest.takeWhile isdigit
    if whole = [] ∧ fraction = [] then none else scale (mantissa whole fraction) (rest.dropWhile isdigit)
  | rest => if whole = [] then none else scale (mantissa whole []) rest

/-- An `unsigned int` is kept as an `int`. -/
def to_int (n : ℕ) : ℤ :=
  let kept : ℕ := n % 2 ^ 32
  if kept < 2 ^ 31 then (kept : ℤ) else (kept : ℤ) - 2 ^ 32

variable {K S : Type}

def integer_or_unknown (n : Option ℕ) : value K S := (n.map fun n => .integer (to_int n)).getD .unknown

/-- What a number stands for. -/
def convert_number (text : List Char) : value K S :=
  if ['0', 'x'].isPrefixOf text then integer_or_unknown (scan_x text)
  else if text.length > 1 ∧ ['0'].isPrefixOf text ∧ ¬ text.any (fun c => c = '.' || c = 'e' || c = 'E') then
    integer_or_unknown (scan_o text)
  else
    match scan_i text with
    | some n => .integer (to_int n)
    | none =>
      match scan_lf text with
      | some d => .decimal d
      | none => .unknown

end Numbers

def WARNING_HEX_CONVERSION_A : String := "Leading '0x' in "
def WARNING_HEX_CONVERSION_B : String := "indicates hex, but did not convert"
def WARNING_OCTAL_CONVERSION_A : String := "Leading '0' in "
def WARNING_OCTAL_CONVERSION_B : String := "indicates octal, but did not convert"
def ERROR_UNRECOGNIZED_NUMBER : String := "Unrecognized numeric literal"
def ERROR_UNRECOGNIZED_SYMBOL : String := "Unrecognized character"

/-- A text in quotation marks. -/
def quoted (text : List Char) : String := " '" ++ .ofList text ++ "'"

/-- What is reported when a number does not convert. -/
def number_reports (text : List Char) : List (Bool × String) :=
  let warning :=
    if ['0', 'x'].isPrefixOf text then
      [(false, WARNING_HEX_CONVERSION_A ++ quoted text ++ " " ++ WARNING_HEX_CONVERSION_B)]
    else if text.length > 1 ∧ ['0'].isPrefixOf text ∧ ¬ text.any (fun c => c = '.' || c = 'e' || c = 'E') then
      [(false, WARNING_OCTAL_CONVERSION_A ++ quoted text ++ " " ++ WARNING_OCTAL_CONVERSION_B)]
    else []
  warning ++ [(true, ERROR_UNRECOGNIZED_NUMBER ++ quoted text)]

def UNARY_TAG : List Char := ['@', 'u', 'n', 'a', 'r', 'y']

def BINARY_TAG : List Char := ['@', 'b', 'i', 'n', 'a', 'r', 'y']

/-- Take a tag out of a text, if it is there. -/
def erase_tag (tag : List Char) : List Char → List Char × Bool
  | [] => ([], false)
  | c :: rest =>
    if tag.isPrefixOf (c :: rest) then ((c :: rest).drop tag.length, true)
    else
      let (text, erased) := erase_tag tag rest
      (c :: text, erased)

/-- Does a symbol of the table stand for a text? A tag says how a minus sign has to be read. -/
def symbol_matches (key buffer : List Char) (context : minus_context) : Bool :=
  let (text, unary) := erase_tag UNARY_TAG key
  let (text, binary) := erase_tag BINARY_TAG text
  text = buffer && (!unary || context = .unary) && (!binary || context = .binary)

section Lexemes

variable {K S : Type} (t : Tables K S)

/-- What a word stands for, how a minus sign behind it is read, and what is reported. -/
def classify (text : List Char) (type : buffer_type) (context : minus_context) :
    value K S × minus_context × List (Bool × String) :=
  match type with
  | .string =>
    match t.keywords.lookup text with
    | some k => (.keyword k, .unary, [])
    | none => (.identifier text, .binary, [])
  | .number =>
    let v : value K S := convert_number text
    (v, .binary, if v matches .unknown then number_reports text else [])
  | .character =>
    match t.symbols.find? fun s => symbol_matches s.1 text context with
    | some (_, s, precedes) => (.character s, if precedes then .unary else .binary, [])
    | none => (.unknown, .unary, [(true, ERROR_UNRECOGNIZED_SYMBOL ++ quoted text)])
  | .string_literal => (.string text, .unary, [])

/-- The constructor of a lexeme. -/
def lexeme.construct (word : lexeme_buffer) (type : buffer_type) (context : minus_context) (unique : ℕ) :
    lexeme K S × minus_context × List Report :=
  let (v, next, reports) := classify t word.buffer type context
  (⟨v, unique, word.line, word.start_pos, word.end_pos⟩, next,
    reports.map fun r => ⟨r.1, r.2, word.line, word.start_pos, word.end_pos⟩)

end Lexemes

end CppTransport.Translator.Lexer
