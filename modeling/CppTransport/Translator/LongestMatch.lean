import CppTransport.Translator.TokenList

/-!
# The longest macro

Behind the prefix, `token_list::match_macro_or_index` grows a candidate character by character, as
long as it is the beginning of some name in its tables of rules, and then asks what the candidate is
the name of. If it is no name, or if a `std::runtime_error` is thrown while the token is built, the
first character is taken for an index literal.

## What is proved

The candidate is the longest beginning of a name that the text continues with (`le_grow_length`). It
is not remembered whether a shorter candidate was a name. `longest_iff`: the token is the one for the
longest name with which the text begins, or an error is reported for that name, if and only if no
longer name goes on like the text for at least one character more, and the rule is not at fault when
it is applied to what follows the name.
-/

namespace CppTransport.Translator.Tokenizer

open Library

namespace Config

variable (c : Config)

/-- The names in all tables. -/
def names (s : State) : List (List Char) := (c.tables s.local_rules).flatten

/-- Names are made of letters, digits and underscores, two of them at least. -/
def WellNamed (s : State) : Prop := ∀ name ∈ c.names s, 2 ≤ name.length ∧ ∀ a ∈ name, isalnum a ∨ a = '_'

/-- The longest name with which the text at a position begins. -/
structure Longest (s : State) (position : ℕ) (name : List Char) : Prop where
  mem : name ∈ c.names s
  begins : name <+: c.input.drop position
  longest : ∀ other ∈ c.names s, other <+: c.input.drop position → other.length ≤ name.length

/-- A longer name goes on like the text for one character more at least. -/
def Overshoots (s : State) (position : ℕ) (name : List Char) : Prop :=
  ∃ other ∈ c.names s, name.length < other.length ∧ other.take (name.length + 1) <+: c.input.drop position

/-- What comes of tokenizing. -/
abbrev Result := EStateM.Result Failure State (Option generic_token × ℕ)

/-- The token is one for the name, or an error has been reported for the name, or an exception that is not caught ends
the tokenizing of the line. -/
def Matched (s : State) (position : ℕ) (name : List Char) : Result → Prop
  | .ok (some t, _) _ => t.kind.name = some name
  | .ok (none, _) s' => ∃ msg, s'.errors = s.errors ++ [⟨msg, (position, position + name.length)⟩]
  | .error (.fault (.other _)) _ => True
  | .error _ _ => False

/-! ### Faults of rules -/

/-- The fault of an index rule that is asked about the index list behind its name. -/
def index_fault (rules : List index_rule) (s : State) (position : ℕ) (name : List Char) : Option Fault :=
  if s.tokens.any (·.kind.is_directive) then none
  else
    match rules.find? (·.name = name), c.get_index_list name (position + name.length) true s with
    | some rule, .ok (list, _) _ =>
      match rule.get_unroll list with
      | .error f => some f
      | .ok _ => none
    | _, _ => none

/-- The fault of applying a directive, if it is a simple one. -/
def simple_fault : Applied → Option Fault
  | .index_mismatch what _ => some (.runtime_error what)
  | .fails f => some f
  | _ => none

/-- The fault of a simple directive that is applied to the arguments behind its name. -/
def simple_directive_fault (s : State) (position : ℕ) (name : List Char) : Option Fault :=
  if s.tokens.any (·.kind.is_rule) then none
  else
    match c.simp_dir.find? (·.name = name) with
    | none => none
    | some rule =>
      let read_arguments : M (List macro_argument × ℕ) := do
        let current ← c.check_no_index_list name (position + name.length)
        c.expected_arguments name rule.num_args current
      match read_arguments s with
      | .ok (args, _) s' => simple_fault (rule.apply s'.applications args)
      | .error _ _ => none

/-- The fault of applying a directive, if it has indices. -/
def indexed_fault : Applied → Option Fault
  | .fails f => some f
  | _ => none

/-- The fault of an index directive that is applied to the indices and arguments behind its name. -/
def index_directive_fault (s : State) (position : ℕ) (name : List Char) : Option Fault :=
  if s.tokens.any (·.kind.is_rule) then none
  else
    match c.ind_dir.find? (·.name = name) with
    | none => none
    | some rule =>
      let read_lists : M (List index_literal × List macro_argument) := do
        let (list, current) ← c.directive_indices name rule.num_indices (position + name.length)
        let (args, _) ← c.expected_arguments name rule.num_args current
        return (list, args)
      match read_lists s with
      | .ok (list, args) s' => indexed_fault (rule.apply s'.applications args list)
      | .error _ _ => none

/-- The fault of the rule with this name, in the first table that has it. -/
def rule_fault (s : State) (position : ℕ) (name : List Char) : Option Fault :=
  if check_for_match name (c.pre.map (·.name)) false then none
  else if check_for_match name (c.post.map (·.name)) false then none
  else if check_for_match name (c.index.map (·.name)) false then c.index_fault c.index s position name
  else if check_for_match name (s.local_rules.map (·.name)) false then c.index_fault s.local_rules s position name
  else if check_for_match name (c.simp_dir.map (·.name)) false then c.simple_directive_fault s position name
  else c.index_directive_fault s position name

/-- The rule returns, or throws an exception that is not caught. -/
def Sound (s : State) (position : ℕ) (name : List Char) : Prop :=
  ∀ f, c.rule_fault s position name = some f → ∃ what, f = .other what

/-! ### The candidate -/

variable {c} {s : State}

theorem check_for_match_false {candidate : List Char} {names : List (List Char)} :
    check_for_match candidate names false = true ↔ candidate ∈ names := by
  simp [check_for_match]

/-- A candidate is possible just if it is the beginning of a name. -/
theorem possible_match_iff {candidate : List Char} :
    c.possible_match s.local_rules candidate = true ↔ ∃ name ∈ c.names s, candidate <+: name := by
  have hcheck : ∀ names : List (List Char), check_for_match candidate names true = true ↔
      ∃ name ∈ names, candidate <+: name := by
    intro names
    simp only [check_for_match, if_true, List.any_eq_true, decide_eq_true_eq, List.prefix_iff_eq_take]
    exact exists_congr fun name => and_congr_right fun _ => eq_comm
  simp only [possible_match, List.any_eq_true, hcheck, names, List.mem_flatten]
  tauto

/-- What is matched is the beginning of a name. -/
theorem grow_possible {candidate rest : List Char} (h : c.possible_match s.local_rules candidate = true) :
    c.possible_match s.local_rules (c.grow s.local_rules candidate rest) = true := by
  induction rest generalizing candidate with
  | nil => exact h
  | cons a rest ih =>
    rw [grow]
    split
    · rename_i hcond
      exact ih (Bool.and_eq_true_iff.mp hcond).2
    · exact h

/-- **The candidate** is as long as any beginning of a name that the text continues with. -/
theorem le_grow_length (hnames : c.WellNamed s) {candidate more rest name : List Char} (hname : name ∈ c.names s)
    (hbegins : candidate ++ more <+: name) (hmore : more <+: rest) :
    (candidate ++ more).length ≤ (c.grow s.local_rules candidate rest).length := by
  induction rest generalizing candidate more with
  | nil =>
    rw [List.prefix_nil] at hmore
    simp [grow, hmore]
  | cons a rest ih =>
    cases more with
    | nil =>
      obtain ⟨k, -, heq⟩ := c.grow_eq s.local_rules candidate (a :: rest)
      simp [heq]
    | cons b more =>
      obtain ⟨rfl, hrest⟩ := List.cons_prefix_cons.mp hmore
      have hnext : candidate ++ [b] ++ more <+: name := by simpa using hbegins
      have hchar : isalnum b ∨ b = '_' :=
        (hnames name hname).2 b (hnext.subset (by simp))
      have hbracket : b ≠ '[' ∧ b ≠ '\x7b' := by
        constructor
        all_goals
          rintro rfl
          revert hchar
          decide
      have hpossible : c.possible_match s.local_rules (candidate ++ [b]) = true :=
        possible_match_iff.mpr ⟨name, hname, (List.prefix_append _ _).trans hnext⟩
      have hcond : (b ≠ '[' && b ≠ '\x7b' && (isalnum b || b = '_') &&
          c.possible_match s.local_rules (candidate ++ [b])) = true := by
        simp [hbracket, hpossible, hchar]
      rw [grow, if_pos hcond]
      simpa using ih hnext hrest

/-! ### Building a token -/

/-- Where a rule is at fault the builder of a token fails, else it builds a token for the name or reports an error for
the name. -/
def Built (s : State) (position : ℕ) (name : List Char) (fault : Option Fault) : Result → Prop
  | .ok (some t, _) _ => t.kind.name = some name ∧ fault = none
  | .ok (none, _) s' => (∃ msg, s'.errors = s.errors ++ [⟨msg, (position, position + name.length)⟩]) ∧ fault = none
  | .error e s' => (∃ new, s'.errors = s.errors ++ new) ∧ ∃ f, e = .fault f ∧ fault = some f

theorem find?_of_match {α : Type} {rules : List α} {f : α → List Char} {name : List Char}
    (h : check_for_match name (rules.map f) false = true) :
    ∃ rule, rules.find? (fun r => f r = name) = some rule := by
  rw [check_for_match_false, List.mem_map] at h
  obtain ⟨rule, hmem, hname⟩ := h
  have hsome : (rules.find? fun r => f r = name).isSome = true := by
    rw [List.find?_isSome]
    exact ⟨rule, hmem, by simpa using hname⟩
  exact Option.isSome_iff_exists.mp hsome

/-- A builder that is not allowed here reports an error for the name. -/
theorem built_of_validate {position : ℕ} {name : List Char} {fault : Option Fault} {conflict : Bool} {msg : String}
    {m : M (Option generic_token × ℕ)} (hfault : conflict = true → fault = none)
    (hm : conflict = false → Built s position name fault (m s)) {validate : M Bool}
    (hvalidate : validate s = if conflict then
        .ok false { s with errors := s.errors ++ [⟨msg, (position, position + name.length)⟩] } else .ok true s) :
    Built s position name fault
      ((do if ← validate then m else return (none, position + name.length) : M (Option generic_token × ℕ)) s) := by
  cases hconflict : conflict with
  | true =>
    rw [hconflict, if_pos rfl] at hvalidate
    simp only [bind, EStateM.bind, hvalidate]
    exact ⟨⟨msg, rfl⟩, hfault hconflict⟩
  | false =>
    rw [hconflict, if_neg (by simp)] at hvalidate
    simp only [bind, EStateM.bind, hvalidate]
    exact hm hconflict

theorem validate_replacement_rule_eq (name : List Char) (position : ℕ) (s : State) :
    validate_replacement_rule name position s = if s.tokens.any (·.kind.is_directive) then
      .ok false { s with errors := s.errors ++ [⟨ERROR_RULE_AFTER_DIRECTIVE, (position, position + name.length)⟩] }
      else .ok true s := by
  cases h : s.tokens.any (·.kind.is_directive) <;>
    simp [validate_replacement_rule, bind, EStateM.bind, get_run, h, error, pure,
      EStateM.pure, modify_run]

theorem validate_directive_eq (name : List Char) (position : ℕ) (s : State) :
    validate_directive name position s = if s.tokens.any (·.kind.is_rule) then
      .ok false { s with errors := s.errors ++ [⟨ERROR_DIRECTIVE_AFTER_RULE, (position, position + name.length)⟩] }
      else .ok true s := by
  cases h : s.tokens.any (·.kind.is_rule) <;>
    simp [validate_directive, bind, EStateM.bind, get_run, h, error, pure,
      EStateM.pure, modify_run]

/-- A builder has built a token just if its run ends well. -/
theorem built_iff {position : ℕ} {name : List Char} {fault : Option Fault} {m : M (Option generic_token × ℕ)} :
    Built s position name fault (m s) ↔
      wp m (fun r s' => Built s position name fault (.ok r s'))
        (fun e s' => Built s position name fault (.error e s')) s := by
  rw [wp]
  cases m s <;> rfl

section Builders

variable {position : ℕ} {name : List Char}

theorem built_simple_macro_token {rules : List simple_rule} (type : simple_macro_type)
    (h : check_for_match name (rules.map (·.name)) false = true) (hlength : position + name.length ≤ c.input.length) :
    Built s position name none (c.make_simple_macro_token name position rules type s) := by
  obtain ⟨rule, hrule⟩ := find?_of_match h
  refine built_of_validate (fun _ => rfl) (fun _ => ?_) (validate_replacement_rule_eq name position s)
  rw [hrule, built_iff]
  obtain ⟨current, s₁, hrun, -, -, -, -, hcurrent⟩ := (spec_check_no_index_list name hlength).returns s
  obtain ⟨r, s₂, hrun', -⟩ := (spec_expected_arguments name rule.num_args hcurrent).returns s₁
  rw [wp_bind_of_ok hrun, wp_bind_of_ok hrun']
  exact ⟨rfl, rfl⟩

theorem built_index_macro_token {rules : List index_rule} (h : check_for_match name (rules.map (·.name)) false = true)
    (hlength : position + name.length ≤ c.input.length) :
    Built s position name (c.index_fault rules s position name) (c.make_index_macro_token name position rules s) := by
  obtain ⟨rule, hrule⟩ := find?_of_match h
  refine built_of_validate (fun hconflict => ?_) (fun hconflict => ?_) (validate_replacement_rule_eq name position s)
  · rw [index_fault, if_pos hconflict]
  · obtain ⟨r, s₁, hrun, -, new, herrors, -, hr⟩ := (spec_get_index_list name true hlength).returns s
    obtain ⟨q, s₂, hrun', -, more, herrors', -, hq⟩ := (spec_expected_arguments name rule.num_args hr).returns s₁
    rw [index_fault, if_neg (by simp [hconflict]), hrule, hrun, built_iff]
    dsimp only
    rw [wp_bind_of_ok hrun, wp_bind_of_ok hrun']
    cases hunroll : rule.get_unroll r.1 with
    | error f => exact ⟨⟨new ++ more, by rw [herrors', herrors, List.append_assoc]⟩, f, rfl, rfl⟩
    | ok status =>
      obtain ⟨current, s₃, hrun'', -⟩ := (spec_find_unroll_policy name status hq).returns s₂
      rw [wp_bind_of_ok hrun'']
      exact ⟨rfl, rfl⟩

/-- What comes of applying a directive decides whether its token is built. -/
theorem wp_apply_simple (rule : simple_directive) (args : List macro_argument) (start stop : ℕ) :
    wp (apply_simple rule args start stop) (fun _ _ => simple_fault (rule.apply s.applications args) = none)
      (fun e s' => s'.errors = s.errors ∧ ∃ f, e = .fault f ∧ simple_fault (rule.apply s.applications args) = some f)
      s := by
  rw [apply_simple, wp_bind, count_application, wp_bind, wp_get, wp_bind, wp_modify, wp_pure]
  cases rule.apply s.applications args with
  | returns conversion injected => rfl
  | argument_mismatch what => rfl
  | rule_apply_fail what => rfl
  | index_mismatch what span => exact ⟨rfl, _, rfl, rfl⟩
  | fails f => exact ⟨rfl, _, rfl, rfl⟩

theorem wp_apply_index (rule : index_directive) (args : List macro_argument) (list : List index_literal)
    (start stop : ℕ) :
    wp (apply_index rule args list start stop)
      (fun _ _ => indexed_fault (rule.apply s.applications args list) = none)
      (fun e s' => s'.errors = s.errors ∧
        ∃ f, e = .fault f ∧ indexed_fault (rule.apply s.applications args list) = some f) s := by
  rw [apply_index, wp_bind, count_application, wp_bind, wp_get, wp_bind, wp_modify, wp_pure]
  cases rule.apply s.applications args list with
  | returns conversion injected => rfl
  | argument_mismatch what => rfl
  | rule_apply_fail what => rfl
  | index_mismatch what span => rfl
  | fails f => exact ⟨rfl, _, rfl, rfl⟩

theorem built_simple_directive_token (h : check_for_match name (c.simp_dir.map (·.name)) false = true)
    (hlength : position + name.length ≤ c.input.length) :
    Built s position name (c.simple_directive_fault s position name)
      (c.make_simple_directive name position c.simp_dir s) := by
  obtain ⟨rule, hrule⟩ := find?_of_match h
  refine built_of_validate (fun hconflict => ?_) (fun hconflict => ?_) (validate_directive_eq name position s)
  · rw [simple_directive_fault, if_pos hconflict]
  · obtain ⟨current, s₁, hrun, -, new, herrors, -, hcurrent⟩ := (spec_check_no_index_list name hlength).returns s
    obtain ⟨q, s₂, hrun', -, more, herrors', -⟩ := (spec_expected_arguments name rule.num_args hcurrent).returns s₁
    have hread : (do
        let current ← c.check_no_index_list name (position + name.length)
        c.expected_arguments name rule.num_args current : M (List macro_argument × ℕ)) s = .ok q s₂ := by
      simp only [bind, EStateM.bind, hrun, hrun']
    rw [simple_directive_fault, if_neg (by simp [hconflict]), hrule, built_iff]
    dsimp only
    rw [hread, wp_bind_of_ok hrun, wp_bind_of_ok hrun', wp_bind]
    refine wp_imp (wp_apply_simple rule q.1 position q.2) (fun _ _ hnone => ⟨rfl, hnone⟩) ?_
    rintro e s₃ ⟨hsame, hfault⟩
    exact ⟨⟨new ++ more, by rw [hsame, herrors', herrors, List.append_assoc]⟩, hfault⟩

theorem built_index_directive_token (h : check_for_match name (c.ind_dir.map (·.name)) false = true)
    (hlength : position + name.length ≤ c.input.length) :
    Built s position name (c.index_directive_fault s position name)
      (c.make_index_directive name position c.ind_dir s) := by
  obtain ⟨rule, hrule⟩ := find?_of_match h
  refine built_of_validate (fun hconflict => ?_) (fun hconflict => ?_) (validate_directive_eq name position s)
  · rw [index_directive_fault, if_pos hconflict]
  · obtain ⟨r, s₁, hrun, -, new, herrors, -, hr⟩ := (spec_directive_indices name rule.num_indices hlength).returns s
    obtain ⟨q, s₂, hrun', -, more, herrors', -⟩ := (spec_expected_arguments name rule.num_args hr).returns s₁
    have hread : (do
        let (list, current) ← c.directive_indices name rule.num_indices (position + name.length)
        let (args, _) ← c.expected_arguments name rule.num_args current
        return (list, args) : M (List index_literal × List macro_argument)) s = .ok (r.1, q.1) s₂ := by
      simp only [bind, EStateM.bind, hrun, hrun', pure, EStateM.pure]
    rw [index_directive_fault, if_neg (by simp [hconflict]), hrule, built_iff]
    dsimp only
    rw [hread, wp_bind_of_ok hrun, wp_bind_of_ok hrun', wp_bind]
    refine wp_imp (wp_apply_index rule q.1 r.1 position q.2) (fun _ _ hnone => ⟨rfl, hnone⟩) ?_
    rintro e s₃ ⟨hsame, hfault⟩
    exact ⟨⟨new ++ more, by rw [hsame, herrors', herrors, List.append_assoc]⟩, hfault⟩

/-- **Building a token** for a name fails just if its rule is at fault. -/
theorem built_make_token (hname : name ∈ c.names s) (hlength : position + name.length ≤ c.input.length) :
    Built s position name (c.rule_fault s position name) (c.make_token name position s) := by
  have hget : c.make_token name position s =
      (if check_for_match name (c.pre.map (·.name)) false then c.make_simple_macro_token name position c.pre .pre
      else if check_for_match name (c.post.map (·.name)) false then c.make_simple_macro_token name position c.post .post
      else if check_for_match name (c.index.map (·.name)) false then c.make_index_macro_token name position c.index
      else if check_for_match name (s.local_rules.map (·.name)) false then
        c.make_index_macro_token name position s.local_rules
      else if check_for_match name (c.simp_dir.map (·.name)) false then
        c.make_simple_directive name position c.simp_dir
      else if check_for_match name (c.ind_dir.map (·.name)) false then
        c.make_index_directive name position c.ind_dir
      else c.make_index_literal position) s := rfl
  rw [hget, rule_fault]
  split
  · exact built_simple_macro_token _ ‹_› hlength
  split
  · exact built_simple_macro_token _ ‹_› hlength
  split
  · exact built_index_macro_token ‹_› hlength
  split
  · exact built_index_macro_token ‹_› hlength
  split
  · exact built_simple_directive_token ‹_› hlength
  split
  · exact built_index_directive_token ‹_› hlength
  · simp only [names, tables, List.flatten_cons, List.flatten_nil, List.append_nil, List.mem_append] at hname
    simp only [check_for_match_false] at *
    tauto

/-! ### Matching a macro -/

/-- An index literal is not for a name, whatever has been reported before it. -/
theorem not_matched_index_literal {s₁ : State} (hname : 2 ≤ name.length) (hposition : position < c.input.length) :
    ¬ Matched s position name (c.make_index_literal position s₁) := by
  have hliteral : wp (c.make_index_literal position) (fun r s' => ¬ Matched s position name (.ok r s'))
      (fun _ _ => False) s₁ := by
    obtain ⟨-, hskip⟩ := c.skip_le (fun a => a = '^' || a = '_') hposition.le
    rw [make_index_literal]
    split
    · -- the span of the error is too short for the name
      rintro ⟨msg, hmsg⟩
      have hlast := congrArg List.getLast? hmsg
      simp only [List.getLast?_concat, Option.some.injEq, ErrorReport.mk.injEq, Prod.mk.injEq] at hlast
      omega
    · obtain ⟨label, s₂, hrun, -⟩ := (spec_read hskip).returns s₁
      obtain ⟨l, s₃, hrun', -⟩ := (c.spec_declare_index label
        (written_variance (c.slice position (c.skip (fun a => a = '^' || a = '_') position))) position
        (c.skip (fun a => a = '^' || a = '_') position + 1)).returns s₂
      rw [wp_bind_of_ok hrun, wp_bind_of_ok hrun']
      simp [Matched, token_kind.name]
  cases hrun : c.make_index_literal position s₁ with
  | ok r s' =>
    have hok := wp_ok hliteral hrun
    exact hok
  | error e s' =>
    have herror := wp_error hliteral hrun
    exact herror.elim

/-- What is in no table is taken for an index literal. -/
theorem make_token_of_not_mem {candidate : List Char} (h : candidate ∉ c.names s) :
    c.make_token candidate position s = c.make_index_literal position s := by
  simp only [names, tables, List.flatten_cons, List.flatten_nil, List.append_nil, List.mem_append, not_or] at h
  obtain ⟨hpre, hpost, hindex, hlocal, hsimp, hind⟩ := h
  have hget : c.make_token candidate position s =
      (if check_for_match candidate (c.pre.map (·.name)) false then
        c.make_simple_macro_token candidate position c.pre .pre
      else if check_for_match candidate (c.post.map (·.name)) false then
        c.make_simple_macro_token candidate position c.post .post
      else if check_for_match candidate (c.index.map (·.name)) false then
        c.make_index_macro_token candidate position c.index
      else if check_for_match candidate (s.local_rules.map (·.name)) false then
        c.make_index_macro_token candidate position s.local_rules
      else if check_for_match candidate (c.simp_dir.map (·.name)) false then
        c.make_simple_directive candidate position c.simp_dir
      else if check_for_match candidate (c.ind_dir.map (·.name)) false then
        c.make_index_directive candidate position c.ind_dir
      else c.make_index_literal position) s := rfl
  rw [hget]
  simp only [check_for_match_false, hpre, hpost, hindex, hlocal, hsimp, hind, if_false]

/-- What is matched, when the next two characters begin a name. -/
theorem match_macro_or_index_eq {a b : Char} {rest : List Char} (htext : c.input.drop position = a :: b :: rest)
    (hpossible : c.possible_match s.local_rules [a, b] = true) :
    c.match_macro_or_index position s =
      tryCatchWhen is_runtime_error (c.make_token (c.grow s.local_rules [a, b] rest) position)
        (c.make_index_literal position) s := by
  have hat : ∀ i, (c.input.drop position)[i]? = c.input[position + i]? := fun i => List.getElem?_drop
  have hread : ∀ {i : ℕ} {x : Char}, c.input[i]? = some x → c.read i s = .ok x s := by
    intro i x hx
    obtain ⟨hlt, heq⟩ := List.getElem?_eq_some_iff.mp hx
    rw [read, dif_pos hlt, heq]
    rfl
  have ha : c.input[position]? = some a := by
    have h := hat 0
    rw [htext] at h
    exact h.symm
  have hb : c.input[position + 1]? = some b := by
    have h := hat 1
    rw [htext] at h
    exact h.symm
  have hrest : c.input.drop (position + 2) = rest := by
    rw [← List.drop_drop, htext]
    rfl
  simp only [match_macro_or_index, bind, EStateM.bind, hread ha, if_pos (lt_of_getElem? hb), hread hb, hrest]
  change (if c.possible_match s.local_rules [a, b] = true then _ else _ : M _) s = _
  rw [if_pos hpossible]

/-- The candidate is the longest name, unless it overshoots. -/
theorem grow_eq_of_longest {a b : Char} {rest : List Char} (hnames : c.WellNamed s) (h : c.Longest s position name)
    (htext : c.input.drop position = a :: b :: rest) (hovershoots : ¬ c.Overshoots s position name)
    (hpossible : c.possible_match s.local_rules [a, b] = true) {more : List Char} (hname : name = [a, b] ++ more)
    (hmore : more <+: rest) : c.grow s.local_rules [a, b] rest = name := by
  have hle : name.length ≤ (c.grow s.local_rules [a, b] rest).length := by
    rw [hname]
    exact le_grow_length hnames h.mem (hname ▸ List.prefix_refl _) hmore
  obtain ⟨k, -, hgrow⟩ := c.grow_eq s.local_rules [a, b] rest
  have hbegins : c.grow s.local_rules [a, b] rest <+: c.input.drop position := by
    rw [hgrow, htext]
    simpa using List.take_prefix k rest
  have hsame : name <+: c.grow s.local_rules [a, b] rest := List.prefix_of_prefix_length_le h.begins hbegins hle
  obtain hlt | heq := hle.lt_or_eq
  · -- a longer candidate is the beginning of a longer name
    obtain ⟨other, hother, hcandidate⟩ := possible_match_iff.mp (@grow_possible _ _ _ rest hpossible)
    refine absurd ⟨other, hother, hlt.trans_le hcandidate.length_le, ?_⟩ hovershoots
    have htake : other.take (name.length + 1) <+: c.grow s.local_rules [a, b] rest :=
      List.prefix_of_prefix_length_le (List.take_prefix _ _) hcandidate (by rw [List.length_take]; omega)
    exact htake.trans hbegins
  · exact (hsame.eq_of_length heq).symm

/-- If a longer name goes on like the text, the candidate is no name. -/
theorem grow_not_mem_of_overshoots {a b : Char} {rest : List Char} (hnames : c.WellNamed s)
    (h : c.Longest s position name) (htext : c.input.drop position = a :: b :: rest)
    (hovershoots : c.Overshoots s position name) : c.grow s.local_rules [a, b] rest ∉ c.names s := by
  intro hmem
  obtain ⟨k, -, hgrow⟩ := c.grow_eq s.local_rules [a, b] rest
  have hbegins : c.grow s.local_rules [a, b] rest <+: c.input.drop position := by
    rw [hgrow, htext]
    simpa using List.take_prefix k rest
  have hle := h.longest _ hmem hbegins
  obtain ⟨other, hother, hlt, htake⟩ := hovershoots
  have htwo := (hnames name h.mem).1
  -- the shared part of the longer name is a beginning that the text continues with
  obtain ⟨more, hmore⟩ : [a, b] <+: other.take (name.length + 1) := by
    refine List.prefix_of_prefix_length_le (by rw [htext]; exact ⟨rest, rfl⟩) htake ?_
    rw [List.length_take, List.length_cons, List.length_cons, List.length_nil]
    omega
  have hrest : more <+: rest := by
    rw [← hmore, htext] at htake
    simpa using htake
  have hlong := le_grow_length hnames hother (hmore ▸ List.take_prefix _ _) hrest
  rw [hmore, List.length_take] at hlong
  omega

/-- A token is built for the candidate, and an index literal takes its place when a `std::runtime_error` is thrown. -/
theorem matched_tryCatch_iff (hname : 2 ≤ name.length) (hmem : name ∈ c.names s)
    (hlength : position + name.length ≤ c.input.length) :
    Matched s position name
        (tryCatchWhen is_runtime_error (c.make_token name position) (c.make_index_literal position) s) ↔
      c.Sound s position name := by
  have hbuilt := built_make_token hmem hlength
  rw [tryCatchWhen, Sound]
  cases hrun : c.make_token name position s with
  | ok r s' =>
    rw [hrun] at hbuilt
    obtain ⟨tok, next⟩ := r
    cases tok with
    | none => exact iff_of_true hbuilt.1 (by simp [hbuilt.2])
    | some t => exact iff_of_true hbuilt.1 (by simp [hbuilt.2])
  | error e s' =>
    rw [hrun] at hbuilt
    obtain ⟨-, f, rfl, hfault⟩ := hbuilt
    cases f with
    | runtime_error what =>
      refine iff_of_false (not_matched_index_literal hname (by omega)) fun h => ?_
      obtain ⟨what', h⟩ := h _ hfault
      cases h
    | other what => simp [is_runtime_error, Matched, hfault]
    | undefined =>
      refine iff_of_false id fun h => ?_
      obtain ⟨what', h⟩ := h _ hfault
      cases h

/-- **Longest match**: where the text begins with a name, the token is one for the longest such name, or an error is
reported for it, if and only if no longer name goes on like the text for one character more, and the rule is not at
fault. -/
theorem longest_iff (hnames : c.WellNamed s) (h : c.Longest s position name) :
    Matched s position name (c.match_macro_or_index position s) ↔
      ¬ c.Overshoots s position name ∧ c.Sound s position name := by
  obtain ⟨htwo, -⟩ := hnames name h.mem
  have hlength := h.begins.length_le
  rw [List.length_drop] at hlength
  obtain ⟨a, b, more, hname⟩ : ∃ a b more, name = a :: b :: more := by
    match name, htwo with
    | a :: b :: more, _ => exact ⟨a, b, more, rfl⟩
  obtain ⟨rest, htext⟩ : ∃ rest, c.input.drop position = a :: b :: rest := by
    obtain ⟨tail, htail⟩ := h.begins
    exact ⟨more ++ tail, by rw [← htail, hname]; rfl⟩
  have hpossible : c.possible_match s.local_rules [a, b] = true :=
    possible_match_iff.mpr ⟨name, h.mem, by rw [hname]; exact ⟨more, rfl⟩⟩
  have hmore : more <+: rest := by
    have hbegins := h.begins
    rw [hname, htext] at hbegins
    simpa using hbegins
  rw [match_macro_or_index_eq htext hpossible]
  by_cases hovershoots : c.Overshoots s position name
  · refine iff_of_false ?_ fun h' => h'.1 hovershoots
    have hnot := grow_not_mem_of_overshoots hnames h htext hovershoots
    rw [tryCatchWhen, make_token_of_not_mem hnot]
    have hposition : position < c.input.length := by omega
    have hliteral : ¬ Matched s position name (c.make_index_literal position s) :=
      not_matched_index_literal htwo hposition
    obtain ⟨r, s', hrun, -⟩ := (spec_make_index_literal hposition.le).returns s
    rwa [hrun] at hliteral ⊢
  · rw [grow_eq_of_longest hnames h htext hovershoots hpossible hname hmore,
      matched_tryCatch_iff htwo h.mem (by omega)]
    exact (and_iff_right hovershoots).symm

end Builders

end Config

/-- Macros `AB` and `ABCD`. -/
def overlapping (input : List Char) : Config where
  input := input
  pfx := ['$']
  pre := [⟨['A', 'B'], 0⟩, ⟨['A', 'B', 'C', 'D'], 0⟩]

theorem overlapping_wellNamed (input : List Char) : (overlapping input).WellNamed { local_rules := [] } := by
  simp [Config.WellNamed, Config.names, Config.tables, overlapping, isalnum]

/-- In front of a space the text `AB` is the macro. -/
theorem overlapping_matched :
    (overlapping ['A', 'B', ' ']).Longest { local_rules := [] } 0 ['A', 'B'] ∧
      Config.Matched { local_rules := [] } 0 ['A', 'B']
        ((overlapping ['A', 'B', ' ']).match_macro_or_index 0 { local_rules := [] }) := by
  have hlongest : (overlapping ['A', 'B', ' ']).Longest { local_rules := [] } 0 ['A', 'B'] :=
    ⟨by decide, by decide, by decide⟩
  refine ⟨hlongest, (Config.longest_iff (overlapping_wellNamed _) hlongest).mpr ⟨?_, ?_⟩⟩
  · rw [Config.Overshoots]
    decide
  · intro f hf
    cases hf

/-- In front of `C` it is not, and an index literal takes its place. -/
theorem overlapping_not_matched : ¬ ∀ (c : Config) (s : State) (position : ℕ) (name : List Char),
    c.WellNamed s → c.Longest s position name → Config.Matched s position name (c.match_macro_or_index position s) := by
  intro h
  have hmatched := h (overlapping ['A', 'B', 'C', 'X']) { local_rules := [] } 0 ['A', 'B'] (overlapping_wellNamed _)
    ⟨by decide, by decide, by decide⟩
  have hrun : (overlapping ['A', 'B', 'C', 'X']).match_macro_or_index 0 { local_rules := [] } =
      .ok (some ⟨.index_literal_token ⟨'A', .none, (0, 1)⟩, ['A'], (0, 1)⟩, 1) {
        local_rules := []
        index_decls := [⟨'A', .none, (0, 1)⟩] } := rfl
  rw [hrun] at hmatched
  cases hmatched

end CppTransport.Translator.Tokenizer
