import CppTransport.Library.Iteration
import CppTransport.Translator.Lexer
import Mathlib.Data.Fintype.Defs

/-!
# The stream of lexemes

A `lexstream` turns a file into lexemes. `parse` finds the file and `lexicalize` reads it; for a
directive `#include` the reader calls `parse` again, from the middle of its loop. Here the calls that
have not returned are the stack of files, the same that error messages show, and `step` is one round
of the loop for the file on top of it: the end of a file is the return to the file that included it.

Errors go to the handler of the translation unit, which throws `exit_parse` when there are too many.
What the file system finds is a parameter. A path that is absolute is made canonical before it is
known to exist, which throws.
-/

namespace CppTransport.Translator.Lexer

open Library

/-- What a stream is set up with: `P` are the canonical paths of the model files, `D` directories. -/
structure Environment (P D K S : Type) where
  /-- The text of a file. -/
  text : P → List Char
  /-- The directory of a file. -/
  parent_path : P → Option D
  /-- The file that a name stands for in a directory, if there is one. -/
  exists_in : D → List Char → Option P
  is_absolute : List Char → Bool
  /-- The file that an absolute name stands for, if there is one. -/
  canonical : List Char → Option P
  max_lines : Option ℕ
  tables : Tables K S

/-- What ends the construction of a stream other than the end of the input. -/
inductive Failure where
  /-- There are too many errors. -/
  | exit_parse
  /-- `boost::filesystem::canonical` throws. -/
  | filesystem_error (leaf : List Char)
  /-- Something is used that has not been initialized. -/
  | undefined
deriving DecidableEq, Repr

/-- A file that is being read. -/
structure frame (P : Type) where
  path : P
  input : lexfile
  context : minus_context

structure lexstream (P D K S : Type) where
  /-- The files that are being read, the last one first. -/
  stack : List (frame P) := []
  lexeme_list : List (lexeme K S) := []
  unique : ℕ := 1
  /-- The search paths of the finder. -/
  paths : List D
  reports : List Report := []

def DEFAULT_MAX_ERROR_COUNT : ℕ := 20

def ERROR_INCLUDE_FILE : String := "Could not open included file"
def ERROR_INCLUDE_DIRECTIVE : String := "Expected filename following #include directive; received"
def ERROR_UNKNOWN_DIRECTIVE : String := "Unknown directive"
def ERROR_OPEN_TOPLEVEL : String := "Could not open top-level file"

namespace lexstream

variable {P D K S : Type}

/-- How many errors have been reported. -/
def errors (s : lexstream P D K S) : ℕ := s.reports.countP (·.error)

/-- Computations of a stream. -/
abbrev M (P D K S : Type) := EStateM Failure (lexstream P D K S)

/-- The handlers for errors and warnings. -/
def report (r : Report) : M P D K S PUnit := do
  modify fun s => { s with reports := s.reports ++ [r] }
  let s ← get
  if r.error ∧ s.errors > DEFAULT_MAX_ERROR_COUNT then throw .exit_parse

/-- The handlers are called one after the other. -/
def report_all : List Report → M P D K S PUnit
  | [] => pure ⟨⟩
  | r :: rest => do
    report r
    report_all rest

section

variable [DecidableEq D] (env : Environment P D K S)

/-- `finder::find` -/
def find (leaf : List Char) : M P D K S (Option P) := do
  if env.is_absolute leaf then
    match env.canonical leaf with
    | some path => return some path
    | none => throw (.filesystem_error leaf)
  else
    let s ← get
    return s.paths.findSome? fun directory => env.exists_in directory leaf

/-- `finder::add` -/
def add_path (paths : List D) (path : Option D) : List D :=
  match path with
  | some directory => if directory ∈ paths then paths else paths ++ [directory]
  | none => paths

/-- Begin to read a file that has been found. -/
def enter (path : P) : M P D K S PUnit :=
  modify fun s => { s with
    paths := add_path s.paths (env.parent_path path)
    stack := ⟨path, .open (env.text path) env.max_lines, .unary⟩ :: s.stack }

/-- Parse a file. Its lexemes are read in the rounds to come. -/
def parse (file : List Char) : M P D K S Bool := do
  match ← find env file with
  | none => return false
  | some path =>
    enter env path
    return true

/-- Get the next word of the file on top of the stack. -/
def next_word : M P D K S lexeme_buffer := do
  let s ← get
  match s.stack with
  | [] => return {}
  | top :: below =>
    let (word, input, reports) := get_lexeme top.input
    set { s with stack := { top with input } :: below }
    report_all reports
    return word

/-- An error about a word. -/
def word_error (msg : String) (word : lexeme_buffer) : M P D K S PUnit :=
  report ⟨true, msg, word.line, word.start_pos, word.end_pos⟩

/-- The directive for inclusion; `word` is its name. -/
def handle_include (word : lexeme_buffer) : M P D K S PUnit := do
  let file ← next_word
  match file.type with
  -- the type of an empty word is not initialized
  | none => throw .undefined
  | some .string_literal =>
    if !(← parse env file.buffer) then word_error (ERROR_INCLUDE_FILE ++ quoted file.buffer) file
  | some _ => word_error (ERROR_INCLUDE_DIRECTIVE ++ quoted word.buffer) word

/-- Identify and handle a directive. -/
def handle_directive : M P D K S PUnit := do
  let word ← next_word
  if word.buffer = ['i', 'n', 'c', 'l', 'u', 'd', 'e'] then handle_include env word
  else
    match word.type with
    -- and neither is its line
    | none => throw .undefined
    | some _ => word_error (ERROR_UNKNOWN_DIRECTIVE ++ quoted word.buffer) word

/-- Add the lexeme of a word to the list. -/
def emplace (word : lexeme_buffer) (type : buffer_type) : M P D K S PUnit := do
  let s ← get
  match s.stack with
  | [] => return
  | top :: below =>
    let (lex, context, reports) := lexeme.construct env.tables word type top.context s.unique
    set { s with unique := s.unique + 1, stack := { top with context } :: below }
    report_all reports
    modify fun s => { s with lexeme_list := s.lexeme_list ++ [lex] }

/-- A round of the loop in `lexicalize`. -/
def round : M P D K S PUnit := do
  let word ← next_word
  -- if no token read, skip
  if word.buffer = [] then return
  match word.type with
  | none => return
  | some .character => if word.buffer = ['#'] then handle_directive env else emplace env word .character
  | some type => emplace env word type

/-- A round of the loop, or the return from `parse` at the end of a file. -/
def step : M P D K S PUnit := do
  let s ← get
  match s.stack with
  | [] => return
  | top :: below => if top.input.rest = [] then set { s with stack := below } else round env

/-- Has the call of `parse` for the first file returned? -/
def Finished (s : lexstream P D K S) : Prop := s.stack = []

instance : DecidablePred (Finished : lexstream P D K S → Prop) := fun _ => decidable_of_iff _ List.isEmpty_iff

/-- The constructor, up to where the first file is begun. -/
def start (file : List Char) : M P D K S PUnit := do
  if !(← parse env file) then report ⟨true, ERROR_OPEN_TOPLEVEL ++ quoted file, 0, 0, 0⟩

/-- The constructor. It is tried with so many rounds. -/
def construct (file : List Char) (paths : List D) (rounds : ℕ) :
    Option (EStateM.Result Failure (lexstream P D K S) PUnit) :=
  match start env file { paths } with
  | .ok _ s => repeatUntil Finished (step env) rounds s
  | .error e s => some (.error e s)

end

/-! ### Reports -/

section Reports

variable {s : lexstream P D K S}

/-- The handlers have been called. -/
def reported (s : lexstream P D K S) (reports : List Report) : lexstream P D K S :=
  { s with reports := s.reports ++ reports }

theorem errors_reported (reports : List Report) :
    (s.reported reports).errors = s.errors + reports.countP (·.error) := by
  rw [errors, reported, List.countP_append, errors]

theorem report_eq (r : Report) :
    report r s =
      if r.error ∧ (s.reported [r]).errors > DEFAULT_MAX_ERROR_COUNT then .error .exit_parse (s.reported [r])
      else .ok ⟨⟩ (s.reported [r]) := by
  have hreport : report r s =
      (if r.error ∧ (s.reported [r]).errors > DEFAULT_MAX_ERROR_COUNT then throw .exit_parse
        else pure ⟨⟩ : M P D K S _) (s.reported [r]) := rfl
  rw [hreport]
  split <;> rfl

theorem report_all_cons (r : Report) (reports : List Report) :
    report_all (r :: reports) s =
      if r.error ∧ (s.reported [r]).errors > DEFAULT_MAX_ERROR_COUNT then .error .exit_parse (s.reported [r])
      else report_all reports (s.reported [r]) := by
  by_cases hmany : r.error ∧ (s.reported [r]).errors > DEFAULT_MAX_ERROR_COUNT
  · simp only [report_all, bind, EStateM.bind, report_eq, if_pos hmany]
  · simp only [report_all, bind, EStateM.bind, report_eq, if_neg hmany]

theorem reported_nil : s.reported [] = s := by
  rw [reported, List.append_nil]

theorem reported_cons (r : Report) (reports : List Report) :
    s.reported (r :: reports) = (s.reported [r]).reported reports := by
  simp [reported]

/-- Reports are made as long as there are not too many errors. -/
theorem report_all_of_le {reports : List Report} (h : (s.reported reports).errors ≤ DEFAULT_MAX_ERROR_COUNT) :
    report_all reports s = .ok ⟨⟩ (s.reported reports) := by
  induction reports generalizing s with
  | nil =>
    rw [reported_nil]
    rfl
  | cons r reports ih =>
    rw [reported_cons] at h ⊢
    have hone := h
    rw [errors_reported] at hone
    rw [report_all_cons, if_neg (by omega)]
    exact ih h

theorem report_all_of_lt {reports : List Report} (hs : s.errors ≤ DEFAULT_MAX_ERROR_COUNT)
    (h : DEFAULT_MAX_ERROR_COUNT < (s.reported reports).errors) :
    ∃ s', report_all reports s = .error .exit_parse s' := by
  induction reports generalizing s with
  | nil =>
    rw [reported_nil] at h
    omega
  | cons r reports ih =>
    rw [report_all_cons]
    split
    · exact ⟨_, rfl⟩
    · rename_i hfew
      rw [reported_cons] at h
      refine ih ?_ h
      cases hr : r.error with
      | false =>
        rw [errors_reported]
        simpa [hr] using hs
      | true => exact not_lt.mp fun hlt => hfew ⟨hr, hlt⟩

end Reports

/-! ### What a round does

A round depends on the text that is left of the file on top of the stack, on how a minus sign is read
and on the search paths. `turn` says what comes of it.
-/

/-- The next word of a text. -/
def first_word (rest : List Char) : Option found :=
  match skip_blank false rest with
  | [] => none
  | c :: rest => some (find_word c rest)

/-- How many errors are reported when a word is read. -/
def word_errors (word : found) : ℕ := word.error.toList.length

/-- What comes of a round. -/
inductive event (P K S : Type) where
  | nothing
  | lexeme (v : value K S)
  | enter (path : P)
  | fail (f : Failure)

/-- Where a file is found. -/
inductive resolved (P : Type) where
  | found (path : P)
  | missing
  | throws
deriving DecidableEq

def resolve (env : Environment P D K S) (paths : List D) (leaf : List Char) : resolved P :=
  if env.is_absolute leaf then (env.canonical leaf).elim .throws .found
  else (paths.findSome? fun directory => env.exists_in directory leaf).elim .missing .found

section Turns

variable (env : Environment P D K S) (paths : List D)

/-- What comes of the name of a file to include, with the number of errors and what is left of the text. -/
def inclusion (rest : List Char) : event P K S × ℕ × List Char :=
  match first_word rest with
  | none => (.fail .undefined, 0, [])
  | some file =>
    if file.type = .string_literal then
      match resolve env paths file.buffer with
      | .found path => (.enter path, word_errors file, file.rest)
      | .missing => (.nothing, word_errors file + 1, file.rest)
      | .throws => (.fail (.filesystem_error file.buffer), word_errors file, file.rest)
    else (.nothing, word_errors file + 1, file.rest)

/-- What comes of a directive, with the number of errors and what is left of the text. -/
def directive (rest : List Char) : event P K S × ℕ × List Char :=
  match first_word rest with
  | none => (.fail .undefined, 0, [])
  | some word =>
    if word.buffer = ['i', 'n', 'c', 'l', 'u', 'd', 'e'] then
      let (event, errors, rest) := inclusion env paths word.rest
      (event, word_errors word + errors, rest)
    else (.nothing, word_errors word + 1, word.rest)

/-- What comes of a round, with the number of errors, how a minus sign is read then and what is left of the text. -/
def turn (context : minus_context) (rest : List Char) : event P K S × ℕ × minus_context × List Char :=
  match first_word rest with
  | none => (.nothing, 0, context, [])
  | some word =>
    if word.buffer = [] then (.nothing, word_errors word, context, word.rest)
    else if word.type = .character ∧ word.buffer = ['#'] then
      let (event, errors, rest) := directive env paths word.rest
      (event, word_errors word + errors, context, rest)
    else
      let (v, next, reports) := classify env.tables word.buffer word.type context
      (.lexeme v, word_errors word + reports.countP (·.1), next, word.rest)

/-- A file is begun. -/
def entered [DecidableEq D] (s : lexstream P D K S) (path : P) : lexstream P D K S :=
  { s with
    paths := add_path s.paths (env.parent_path path)
    stack := ⟨path, .open (env.text path) env.max_lines, .unary⟩ :: s.stack }

/-- What has been read has this result. -/
def Follows [DecidableEq D] (s₁ : lexstream P D K S) :
    event P K S → EStateM.Result Failure (lexstream P D K S) PUnit → Prop
  | .nothing, r => r = .ok ⟨⟩ s₁
  | .lexeme v, r => ∃ lex : lexeme K S, lex.value = v ∧
      r = .ok ⟨⟩ { s₁ with unique := s₁.unique + 1, lexeme_list := s₁.lexeme_list ++ [lex] }
  | .enter path, r => r = .ok ⟨⟩ (entered env s₁ path)
  | .fail f, r => ∃ s', r = .error f s'

end Turns

/-- The computation does this, unless there are too many errors: with `s₁` they have been reported. -/
structure Does {α : Type} (m : M P D K S α) (s s₁ : lexstream P D K S)
    (post : EStateM.Result Failure (lexstream P D K S) α → Prop) : Prop where
  of_le : s₁.errors ≤ DEFAULT_MAX_ERROR_COUNT → post (m s)
  of_lt : s.errors ≤ DEFAULT_MAX_ERROR_COUNT → DEFAULT_MAX_ERROR_COUNT < s₁.errors →
    ∃ s', m s = .error .exit_parse s'

/-- The file on top of the stack has been read on, with so many errors. -/
def ReadOn (s : lexstream P D K S) (path : P) (below : List (frame P)) (context : minus_context) (rest : List Char)
    (errors : ℕ) (s₁ : lexstream P D K S) : Prop :=
  ∃ input reports, input.rest = rest ∧ reports.countP (·.error) = errors ∧
    s₁ = { s with stack := ⟨path, input, context⟩ :: below }.reported reports

section Rounds

variable {α β : Type} {s s₁ s₂ : lexstream P D K S} {top : frame P} {path : P} {below : List (frame P)}
  {context context' : minus_context} {rest rest' : List Char} {e e' : ℕ}

/-- A computation that reports nothing. -/
theorem Does.of_post {m : M P D K S α} {post : EStateM.Result Failure (lexstream P D K S) α → Prop} (h : post (m s)) :
    Does m s s post where
  of_le _ := h
  of_lt hle hlt := absurd hlt (not_lt.mpr hle)

/-- The rule for computations in sequence. -/
theorem Does.bind {m : M P D K S α} {k : α → M P D K S β} {a : α}
    {post : EStateM.Result Failure (lexstream P D K S) β → Prop} (hm : Does m s s₁ (· = .ok a s₁))
    (hk : Does (k a) s₁ s₂ post) (hle : s₁.errors ≤ s₂.errors) : Does (m >>= k) s s₂ post where
  of_le h := by
    have hok : m s = .ok a s₁ := hm.of_le (hle.trans h)
    have hbind : (m >>= k) s = k a s₁ := by simp only [Bind.bind, EStateM.bind, hok]
    rw [hbind]
    exact hk.of_le h
  of_lt hs h := by
    by_cases hfew : s₁.errors ≤ DEFAULT_MAX_ERROR_COUNT
    · have hbind : (m >>= k) s = k a s₁ := by simp only [Bind.bind, EStateM.bind, hm.of_le hfew]
      rw [hbind]
      exact hk.of_lt hfew h
    · obtain ⟨s', herror⟩ := hm.of_lt hs (not_le.mp hfew)
      exact ⟨s', by simp only [Bind.bind, EStateM.bind, herror]⟩

theorem report_all_does (reports : List Report) :
    Does (report_all reports) s (s.reported reports) (· = .ok ⟨⟩ (s.reported reports)) :=
  ⟨report_all_of_le, report_all_of_lt⟩

theorem ReadOn.errors (h : ReadOn s path below context rest e s₁) : s₁.errors = s.errors + e := by
  obtain ⟨input, reports, _, rfl, rfl⟩ := h
  exact errors_reported reports

theorem ReadOn.stack (h : ReadOn s path below context rest e s₁) :
    ∃ input, input.rest = rest ∧ s₁.stack = ⟨path, input, context⟩ :: below := by
  obtain ⟨input, reports, hrest, _, rfl⟩ := h
  exact ⟨input, hrest, rfl⟩

theorem ReadOn.same (h : ReadOn s path below context rest e s₁) :
    s₁.lexeme_list = s.lexeme_list ∧ s₁.unique = s.unique ∧ s₁.paths = s.paths := by
  obtain ⟨input, reports, _, _, rfl⟩ := h
  exact ⟨rfl, rfl, rfl⟩

theorem ReadOn.trans (h : ReadOn s path below context rest e s₁) (h' : ReadOn s₁ path below context' rest' e' s₂) :
    ReadOn s path below context' rest' (e + e') s₂ := by
  obtain ⟨input, reports, _, rfl, rfl⟩ := h
  obtain ⟨input', reports', hrest', rfl, rfl⟩ := h'
  refine ⟨input', reports ++ reports', hrest', List.countP_append, ?_⟩
  simp [reported]

/-- The next word is read. -/
theorem next_word_some {word : found} (h : s.stack = top :: below) (hword : first_word top.input.rest = some word) :
    ∃ buffer s₁, buffer.buffer = word.buffer ∧ buffer.type = some word.type ∧
      ReadOn s top.path below top.context word.rest (word_errors word) s₁ ∧
      Does next_word s s₁ (· = .ok buffer s₁) := by
  rw [first_word] at hword
  cases hskip : skip_blank false top.input.rest with
  | nil =>
    rw [hskip] at hword
    cases hword
  | cons c tail =>
    rw [hskip] at hword
    cases hword
    obtain ⟨buffer, input, reports, hget, hbuffer, htype, hrest, hreports⟩ := get_lexeme_eq hskip
    have herrors : reports.countP (·.error) = word_errors (find_word c tail) := by
      have hall : reports.countP (·.error) = (reports.map fun r => (r.error, r.msg)).countP (·.1) := by
        rw [List.countP_map]
        rfl
      rw [hall, hreports, List.countP_map, word_errors]
      exact List.countP_eq_length.mpr fun _ _ => rfl
    refine ⟨buffer, _, hbuffer, htype, ⟨input, reports, hrest, herrors, rfl⟩, ?_⟩
    have hnext : (next_word : M P D K S _) s =
        (do report_all reports; return buffer : M P D K S _)
          { s with stack := ⟨top.path, input, top.context⟩ :: below } := by
      simp only [next_word, Bind.bind, EStateM.bind, get_run, h, hget]
      rfl
    let s₀ := { s with stack := ⟨top.path, input, top.context⟩ :: below }
    have hdoes : Does (do report_all reports; return buffer : M P D K S _) s₀ (s₀.reported reports)
        (· = .ok buffer (s₀.reported reports)) := (report_all_does reports).bind (.of_post rfl) le_rfl
    refine ⟨fun hfew => ?_, fun hs hmany => ?_⟩
    · rw [hnext]
      exact hdoes.of_le hfew
    · rw [hnext]
      exact hdoes.of_lt hs hmany

/-- At the end of the file there is no next word. -/
theorem next_word_none (h : s.stack = top :: below) (hword : first_word top.input.rest = none) :
    ∃ s₁, ReadOn s top.path below top.context [] 0 s₁ ∧ Does next_word s s₁ (· = .ok {} s₁) := by
  rw [first_word] at hword
  cases hskip : skip_blank false top.input.rest with
  | nil =>
    obtain ⟨input, hget, hrest⟩ := get_lexeme_end hskip
    let s₁ : lexstream P D K S := { s with stack := ⟨top.path, input, top.context⟩ :: below }
    have hread : ReadOn s top.path below top.context [] 0 s₁ := ⟨input, [], hrest, rfl, reported_nil.symm⟩
    have hnext : (next_word : M P D K S _) s = .ok {} s₁ := by
      simp only [next_word, Bind.bind, EStateM.bind, get_run, h, hget]
      rfl
    exact ⟨s₁, hread, fun _ => hnext, fun hs hmany => absurd hmany (not_lt.mpr (hread.errors.trans_le hs))⟩
  | cons c tail =>
    rw [hskip] at hword
    cases hword

end Rounds

section Directives

variable [DecidableEq D] (env : Environment P D K S) {s s₁ : lexstream P D K S} {top : frame P}
  {below : List (frame P)}

omit [DecidableEq D] in
theorem find_eq (leaf : List Char) :
    find env leaf s =
      match resolve env s.paths leaf with
      | .found path => .ok (some path) s
      | .missing => .ok none s
      | .throws => .error (.filesystem_error leaf) s := by
  by_cases habsolute : env.is_absolute leaf
  · rw [find, if_pos habsolute, resolve, if_pos habsolute]
    cases env.canonical leaf <;> rfl
  · rw [find, if_neg habsolute, resolve, if_neg habsolute]
    simp only [Bind.bind, EStateM.bind, get_run]
    cases s.paths.findSome? fun directory => env.exists_in directory leaf <;> rfl

theorem parse_eq (leaf : List Char) :
    parse env leaf s =
      match resolve env s.paths leaf with
      | .found path => .ok true (entered env s path)
      | .missing => .ok false s
      | .throws => .error (.filesystem_error leaf) s := by
  simp only [parse, Bind.bind, EStateM.bind, find_eq]
  cases resolve env s.paths leaf <;> rfl

/-- An error is reported at the end of a round. -/
theorem word_error_does {path : P} {context : minus_context} {rest : List Char} (msg : String) (word : lexeme_buffer)
    {input : lexfile} (hstack : s.stack = ⟨path, input, context⟩ :: below) (hrest : input.rest = rest) :
    ∃ s₁, ReadOn s path below context rest 1 s₁ ∧ Does (word_error msg word) s s₁ (Follows env s₁ .nothing) := by
  let r : Report := ⟨true, msg, word.line, word.start_pos, word.end_pos⟩
  have hone : s.reported [r] = { s with stack := ⟨path, input, context⟩ :: below }.reported [r] := by
    rw [← hstack]
  have hall : report_all [r] s = word_error msg word s := by
    rw [report_all_cons, word_error, report_eq]
    rfl
  refine ⟨s.reported [r], ⟨input, [r], hrest, rfl, hone⟩, fun hle => ?_, fun hs hlt => ?_⟩
  · rw [← hall]
    exact report_all_of_le hle
  · rw [← hall]
    exact report_all_of_lt hs hlt

/-- What comes of the name behind `#include`. -/
def included (paths : List D) (rest : List Char) : event P K S × ℕ × List Char :=
  match first_word rest with
  | none => (.fail .undefined, 0, [])
  | some file =>
    if file.type = .string_literal then
      match resolve env paths file.buffer with
      | .found path => (.enter path, word_errors file, file.rest)
      | .missing => (.nothing, word_errors file + 1, file.rest)
      | .throws => (.fail (.filesystem_error file.buffer), word_errors file, file.rest)
    else (.nothing, word_errors file + 1, file.rest)

/-- What comes of a directive for inclusion. -/
theorem handle_include_does (word : lexeme_buffer) (h : s.stack = top :: below) :
    ∃ s₁, ReadOn s top.path below top.context (inclusion env s.paths top.input.rest).2.2
        (inclusion env s.paths top.input.rest).2.1 s₁ ∧
      Does (handle_include env word) s s₁ (Follows env s₁ (inclusion env s.paths top.input.rest).1) := by
  rw [inclusion, handle_include]
  cases hfile : first_word top.input.rest with
  | none =>
    obtain ⟨s₁, hread, hdoes⟩ := next_word_none h hfile
    exact ⟨s₁, hread, hdoes.bind (.of_post ⟨s₁, rfl⟩) le_rfl⟩
  | some file =>
    obtain ⟨buffer, s₁, hbuffer, htype, hread, hdoes⟩ := next_word_some h hfile
    obtain ⟨input, hrest, hstack⟩ := hread.stack
    have hpaths : s₁.paths = s.paths := hread.same.2.2
    by_cases hliteral : file.type = .string_literal
    · simp only [if_pos hliteral]
      have hparse := parse_eq env (s := s₁) buffer.buffer
      rw [hpaths, hbuffer] at hparse
      cases hresolve : resolve env s.paths file.buffer with
      | found path =>
        refine ⟨s₁, hread, hdoes.bind (.of_post ?_) le_rfl⟩
        simp only [htype, hliteral, Bind.bind, EStateM.bind, hbuffer, hparse, hresolve]
        rfl
      | missing =>
        obtain ⟨s₂, hread₂, hdoes₂⟩ :=
          word_error_does env (ERROR_INCLUDE_FILE ++ quoted buffer.buffer) buffer hstack hrest
        have hle : s₁.errors ≤ s₂.errors := hread₂.errors.symm ▸ Nat.le_add_right _ _
        have hfalse : Does (parse env buffer.buffer) s₁ s₁ (· = .ok false s₁) :=
          .of_post (by rw [hbuffer, hparse, hresolve])
        refine ⟨s₂, hread.trans hread₂, hdoes.bind ?_ hle⟩
        simp only [htype, hliteral]
        exact hfalse.bind hdoes₂ hle
      | throws =>
        refine ⟨s₁, hread, hdoes.bind (.of_post ⟨s₁, ?_⟩) le_rfl⟩
        simp only [htype, hliteral, Bind.bind, EStateM.bind, hbuffer, hparse, hresolve]
    · simp only [if_neg hliteral]
      obtain ⟨s₂, hread₂, hdoes₂⟩ :=
        word_error_does env (ERROR_INCLUDE_DIRECTIVE ++ quoted word.buffer) word hstack hrest
      refine ⟨s₂, hread.trans hread₂, hdoes.bind ?_ (hread₂.errors.symm ▸ Nat.le_add_right _ _)⟩
      cases htype' : file.type with
      | string_literal => exact absurd htype' hliteral
      | string | number | character =>
        rw [htype'] at htype
        simp only [htype]
        exact hdoes₂

/-- What comes of a directive. -/
theorem handle_directive_does (h : s.stack = top :: below) :
    ∃ s₁, ReadOn s top.path below top.context (directive env s.paths top.input.rest).2.2
        (directive env s.paths top.input.rest).2.1 s₁ ∧
      Does (handle_directive env) s s₁ (Follows env s₁ (directive env s.paths top.input.rest).1) := by
  rw [directive, handle_directive]
  cases hword : first_word top.input.rest with
  | none =>
    obtain ⟨s₁, hread, hdoes⟩ := next_word_none h hword
    exact ⟨s₁, hread, hdoes.bind (.of_post ⟨s₁, rfl⟩) le_rfl⟩
  | some word =>
    obtain ⟨buffer, s₁, hbuffer, htype, hread, hdoes⟩ := next_word_some h hword
    obtain ⟨input, hrest, hstack⟩ := hread.stack
    by_cases hinclude : word.buffer = ['i', 'n', 'c', 'l', 'u', 'd', 'e']
    · obtain ⟨s₂, hread₂, hdoes₂⟩ := handle_include_does env buffer hstack
      rw [hrest, hread.same.2.2] at hread₂ hdoes₂
      simp only [if_pos hinclude]
      refine ⟨s₂, hread.trans hread₂, hdoes.bind ?_ (hread₂.errors.symm ▸ Nat.le_add_right _ _)⟩
      rw [if_pos (hbuffer.trans hinclude)]
      exact hdoes₂
    · obtain ⟨s₂, hread₂, hdoes₂⟩ :=
        word_error_does env (ERROR_UNKNOWN_DIRECTIVE ++ quoted buffer.buffer) buffer hstack hrest
      simp only [if_neg hinclude]
      refine ⟨s₂, hread.trans hread₂, hdoes.bind ?_ (hread₂.errors.symm ▸ Nat.le_add_right _ _)⟩
      rw [if_neg (hbuffer ▸ hinclude), htype]
      exact hdoes₂

/-- What comes of the lexeme of a word. -/
theorem emplace_does {word : lexeme_buffer} {type : buffer_type} {v : value K S} {next : minus_context}
    {reports : List (Bool × String)} (h : s.stack = top :: below)
    (hclassify : classify env.tables word.buffer type top.context = (v, next, reports)) :
    ∃ s₁, ReadOn s top.path below next top.input.rest (reports.countP (·.1)) s₁ ∧
      Does (emplace env word type) s s₁ (Follows env s₁ (.lexeme v)) := by
  let made : List Report := reports.map fun r => ⟨r.1, r.2, word.line, word.start_pos, word.end_pos⟩
  let s₀ : lexstream P D K S := { s with unique := s.unique + 1, stack := ⟨top.path, top.input, next⟩ :: below }
  let s₁ : lexstream P D K S := { s with stack := ⟨top.path, top.input, next⟩ :: below }.reported made
  have hmade : made.countP (·.error) = reports.countP (·.1) := by
    rw [List.countP_map]
    rfl
  refine ⟨s₁, ⟨top.input, made, rfl, hmade, rfl⟩, ?_⟩
  have hemplace : emplace env word type s =
      (do
        report_all made
        modify fun s => { s with
          lexeme_list := s.lexeme_list ++ [⟨v, s₁.unique, word.line, word.start_pos, word.end_pos⟩] } :
        M P D K S _) s₀ := by
    simp only [emplace, Bind.bind, EStateM.bind, get_run, h, lexeme.construct,
      hclassify]
    rfl
  have hdoes : Does (do
      report_all made
      modify fun s => { s with
        lexeme_list := s.lexeme_list ++ [⟨v, s₁.unique, word.line, word.start_pos, word.end_pos⟩] } :
      M P D K S _) s₀ (s₀.reported made) (Follows env s₁ (.lexeme v)) :=
    (report_all_does made).bind (.of_post ⟨_, rfl, rfl⟩) le_rfl
  refine ⟨fun hle => ?_, fun hs hlt => ?_⟩
  · rw [hemplace]
    exact hdoes.of_le hle
  · rw [hemplace]
    exact hdoes.of_lt hs hlt

/-- What comes of a round. -/
theorem round_does (h : s.stack = top :: below) :
    ∃ s₁, ReadOn s top.path below (turn env s.paths top.context top.input.rest).2.2.1
        (turn env s.paths top.context top.input.rest).2.2.2 (turn env s.paths top.context top.input.rest).2.1 s₁ ∧
      Does (round env) s s₁ (Follows env s₁ (turn env s.paths top.context top.input.rest).1) := by
  rw [turn, round]
  cases hword : first_word top.input.rest with
  | none =>
    obtain ⟨s₁, hread, hdoes⟩ := next_word_none h hword
    exact ⟨s₁, hread, hdoes.bind (.of_post rfl) le_rfl⟩
  | some word =>
    obtain ⟨buffer, s₁, hbuffer, htype, hread, hdoes⟩ := next_word_some h hword
    obtain ⟨input, hrest, hstack⟩ := hread.stack
    by_cases hempty : word.buffer = []
    · simp only [if_pos hempty]
      refine ⟨s₁, hread, hdoes.bind (.of_post ?_) le_rfl⟩
      rw [if_pos (hbuffer.trans hempty)]
      rfl
    by_cases hdirective : word.type = .character ∧ word.buffer = ['#']
    · obtain ⟨s₂, hread₂, hdoes₂⟩ := handle_directive_does env hstack
      rw [hrest, hread.same.2.2] at hread₂ hdoes₂
      simp only [if_neg hempty, if_pos hdirective]
      refine ⟨s₂, hread.trans hread₂, hdoes.bind ?_ (hread₂.errors.symm ▸ Nat.le_add_right _ _)⟩
      rw [if_neg (hbuffer ▸ hempty), htype, hdirective.1, if_pos (hbuffer.trans hdirective.2)]
      exact hdoes₂
    · have hclassify : classify env.tables buffer.buffer word.type top.context =
          classify env.tables word.buffer word.type top.context := by rw [hbuffer]
      obtain ⟨s₂, hread₂, hdoes₂⟩ := emplace_does env hstack hclassify
      rw [hrest] at hread₂
      simp only [if_neg hempty, if_neg hdirective]
      refine ⟨s₂, hread.trans hread₂, hdoes.bind ?_ (hread₂.errors.symm ▸ Nat.le_add_right _ _)⟩
      rw [if_neg (hbuffer ▸ hempty), htype]
      cases hkind : word.type with
      | character =>
        rw [hkind] at hdoes₂
        rw [if_neg fun hhash => hdirective ⟨hkind, hbuffer.symm.trans hhash⟩]
        exact hdoes₂
      | string | number | string_literal =>
        rw [hkind] at hdoes₂
        exact hdoes₂

end Directives

end lexstream

end CppTransport.Translator.Lexer
