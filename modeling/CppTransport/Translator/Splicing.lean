import CppTransport.Translator.Lexstream

/-!
# Lexemes of included files

`Lexes` describes what is read from a text: its lexemes in order, with those of an included file in
the place of the directive, and how many errors there are. A file is read from the beginning of its
own, whatever the file that includes it has been reading; but the search paths that reading it adds
stay.

## What is proved

The rounds of a stream read what `Lexes` says, as long as there are not too many errors (`Lexes.rounds`,
`Lexes.exits`), and when they come to an end it is so (`lexes_of_rounds`).
-/

namespace CppTransport.Translator.Lexer

open Library

namespace lexstream

variable {P D K S : Type} [DecidableEq D] (env : Environment P D K S)

/-- What is left of a file when it is begun. -/
def opened (path : P) : List Char := (lexfile.open (env.text path) env.max_lines).rest

/-- With these search paths a text is read, where a minus sign is read in this way; there are lexemes and errors,
and then there are these search paths. -/
inductive Lexes : List D → minus_context → List Char → List (value K S) → ℕ → List D → Prop where
  | done {paths : List D} {context : minus_context} : Lexes paths context [] [] 0 paths
  | nothing {paths paths' : List D} {context context' : minus_context} {rest rest' : List Char}
      {out : List (value K S)} {e e' : ℕ} (hne : rest ≠ [])
      (hturn : turn env paths context rest = (.nothing, e, context', rest'))
      (h : Lexes paths context' rest' out e' paths') : Lexes paths context rest out (e + e') paths'
  | lexeme {paths paths' : List D} {context context' : minus_context} {rest rest' : List Char}
      {out : List (value K S)} {v : value K S} {e e' : ℕ} (hne : rest ≠ [])
      (hturn : turn env paths context rest = (.lexeme v, e, context', rest'))
      (h : Lexes paths context' rest' out e' paths') : Lexes paths context rest (v :: out) (e + e') paths'
  | enter {paths paths₁ paths' : List D} {context context' : minus_context} {rest rest' : List Char}
      {inner out : List (value K S)} {path : P} {e e₁ e' : ℕ} (hne : rest ≠ [])
      (hturn : turn env paths context rest = (.enter path, e, context', rest'))
      (hinner : Lexes (add_path paths (env.parent_path path)) .unary (opened env path) inner e₁ paths₁)
      (h : Lexes paths₁ context' rest' out e' paths') : Lexes paths context rest (inner ++ out) (e + e₁ + e') paths'

/-- What the lexemes of a stream are. -/
def values (s : lexstream P D K S) : List (value K S) := s.lexeme_list.map (·.value)

/-! ### Steps -/

section Steps

variable {s s' : lexstream P D K S} {top : frame P} {below : List (frame P)}

omit [DecidableEq D] in
theorem not_finished (h : s.stack = top :: below) : ¬ Finished s := by
  rw [Finished, h]
  exact List.cons_ne_nil _ _

/-- At the end of a file. -/
theorem step_of_end (h : s.stack = top :: below) (hrest : top.input.rest = []) :
    step env s = .ok ⟨⟩ { s with stack := below } := by
  simp only [step, Bind.bind, EStateM.bind, get_run, h, if_pos hrest]
  rfl

theorem step_of_rest (h : s.stack = top :: below) (hrest : top.input.rest ≠ []) : step env s = round env s := by
  simp only [step, Bind.bind, EStateM.bind, get_run, h, if_neg hrest]

/-- What comes of a step that is not at the end of a file. -/
theorem step_does {path : P} {input : lexfile} {context context' : minus_context} {rest rest' : List Char}
    {ev : event P K S} {e : ℕ} (h : s.stack = ⟨path, input, context⟩ :: below) (hrest : input.rest = rest)
    (hne : rest ≠ []) (hturn : turn env s.paths context rest = (ev, e, context', rest')) :
    ∃ s₁, ReadOn s path below context' rest' e s₁ ∧ Does (step env) s s₁ (Follows env s₁ ev) := by
  obtain ⟨s₁, hread, hdoes⟩ := round_does env h
  have hstep := step_of_rest env h (hrest.symm ▸ hne)
  rw [hrest, hturn] at hread hdoes
  refine ⟨s₁, hread, fun hle => ?_, fun hs hlt => ?_⟩
  · rw [hstep]
    exact hdoes.of_le hle
  · rw [hstep]
    exact hdoes.of_lt hs hlt

end Steps

/-! ### Reading what is there -/

section Reading

variable {env} {paths paths' : List D} {context : minus_context} {rest : List Char} {out : List (value K S)} {e : ℕ}

omit [DecidableEq D] in
theorem ReadOn.values {s s₁ : lexstream P D K S} {path : P} {below : List (frame P)}
    (h : ReadOn s path below context rest e s₁) : s₁.values = s.values := by
  rw [lexstream.values, h.same.1, lexstream.values]

omit [DecidableEq D] in
theorem values_append (s : lexstream P D K S) (lex : lexeme K S) :
    { s with unique := s.unique + 1, lexeme_list := s.lexeme_list ++ [lex] }.values = s.values ++ [lex.value] := by
  simp [values]

/-- A text is read to the end of the file. -/
theorem Lexes.rounds (h : Lexes env paths context rest out e paths') {s : lexstream P D K S} {path : P}
    {input : lexfile} {below : List (frame P)} (hstack : s.stack = ⟨path, input, context⟩ :: below)
    (hrest : input.rest = rest) (hpaths : s.paths = paths) (hfew : s.errors + e ≤ DEFAULT_MAX_ERROR_COUNT) :
    ∃ n s', Rounds Finished (step env) n s s' ∧ s'.stack = below ∧ s'.paths = paths' ∧ s'.errors = s.errors + e ∧
      s'.values = s.values ++ out := by
  induction h generalizing s path input below with
  | done =>
    refine ⟨1, _, .single (not_finished hstack) (step_of_end env hstack hrest), rfl, hpaths, rfl, ?_⟩
    rw [List.append_nil]
    rfl
  | @nothing _ _ _ _ _ _ _ e _ hne hturn _ ih =>
    obtain ⟨s₁, hread, hdoes⟩ := step_does env hstack hrest hne (hpaths ▸ hturn)
    have herrors := hread.errors
    obtain ⟨input₁, hrest₁, hstack₁⟩ := hread.stack
    have hstep : step env s = .ok ⟨⟩ s₁ := hdoes.of_le (by omega)
    obtain ⟨n, s', hrounds, hbelow, hpaths', herrors', hvalues⟩ :=
      ih hstack₁ hrest₁ (hread.same.2.2.trans hpaths) (by omega)
    refine ⟨n + 1, s', .head (not_finished hstack) hstep hrounds, hbelow, hpaths', by omega, ?_⟩
    rw [hvalues, hread.values]
  | @lexeme _ _ _ _ _ _ out v e _ hne hturn _ ih =>
    obtain ⟨s₁, hread, hdoes⟩ := step_does env hstack hrest hne (hpaths ▸ hturn)
    have herrors := hread.errors
    obtain ⟨input₁, hrest₁, hstack₁⟩ := hread.stack
    obtain ⟨lex, hlex, hstep⟩ := hdoes.of_le (by omega)
    obtain ⟨n, s', hrounds, hbelow, hpaths', herrors', hvalues⟩ :=
      ih (s := { s₁ with unique := s₁.unique + 1, lexeme_list := s₁.lexeme_list ++ [lex] }) hstack₁ hrest₁
        (hread.same.2.2.trans hpaths) (by simp only [errors] at herrors hfew ⊢; omega)
    refine ⟨n + 1, s', .head (not_finished hstack) hstep hrounds, hbelow, hpaths', ?_, ?_⟩
    · simp only [errors] at herrors herrors' ⊢
      omega
    · rw [hvalues, values_append, hread.values, hlex, List.append_assoc]
      rfl
  | @enter paths paths₁ _ _ _ _ _ inner out path₁ e e₁ _ hne hturn _ _ ih ih' =>
    obtain ⟨s₁, hread, hdoes⟩ := step_does env hstack hrest hne (hpaths ▸ hturn)
    have herrors := hread.errors
    obtain ⟨input₁, hrest₁, hstack₁⟩ := hread.stack
    have hstep : step env s = .ok ⟨⟩ (entered env s₁ path₁) := hdoes.of_le (by omega)
    have hentered : (entered env s₁ path₁).errors = s₁.errors := rfl
    obtain ⟨n, s₂, hrounds, hbelow, hpaths₂, herrors₂, hvalues₂⟩ :=
      ih (s := entered env s₁ path₁) rfl rfl (by rw [← hpaths, ← hread.same.2.2]; rfl) (by omega)
    obtain ⟨m, s', hrounds', hbelow', hpaths', herrors', hvalues'⟩ :=
      ih' (hbelow.trans hstack₁) hrest₁ hpaths₂ (by omega)
    refine ⟨n + m + 1, s', .head (not_finished hstack) hstep (hrounds.trans hrounds'), hbelow', hpaths', by omega, ?_⟩
    rw [hvalues', hvalues₂, List.append_assoc]
    exact congrArg (· ++ (inner ++ out)) hread.values

/-- When there are too many errors in a text, reading it ends with `exit_parse`. -/
theorem Lexes.exits (h : Lexes env paths context rest out e paths') {s : lexstream P D K S} {path : P}
    {input : lexfile} {below : List (frame P)} (hstack : s.stack = ⟨path, input, context⟩ :: below)
    (hrest : input.rest = rest) (hpaths : s.paths = paths) (hs : s.errors ≤ DEFAULT_MAX_ERROR_COUNT)
    (hmany : DEFAULT_MAX_ERROR_COUNT < s.errors + e) :
    ∃ s', Ends Finished (step env) s (.error .exit_parse s') := by
  induction h generalizing s path input below with
  | done => omega
  | @nothing _ _ _ _ _ _ _ e _ hne hturn _ ih =>
    obtain ⟨s₁, hread, hdoes⟩ := step_does env hstack hrest hne (hpaths ▸ hturn)
    have herrors := hread.errors
    by_cases hfew : s₁.errors ≤ DEFAULT_MAX_ERROR_COUNT
    · have hstep : step env s = .ok ⟨⟩ s₁ := hdoes.of_le hfew
      obtain ⟨input₁, hrest₁, hstack₁⟩ := hread.stack
      obtain ⟨s', hends⟩ := ih hstack₁ hrest₁ (hread.same.2.2.trans hpaths) hfew (by omega)
      exact ⟨s', (Rounds.single (not_finished hstack) hstep).ends_iff.mpr hends⟩
    · obtain ⟨s', herror⟩ := hdoes.of_lt hs (not_le.mp hfew)
      exact ⟨s', .of_error (not_finished hstack) herror⟩
  | @lexeme _ _ _ _ _ _ _ v e _ hne hturn _ ih =>
    obtain ⟨s₁, hread, hdoes⟩ := step_does env hstack hrest hne (hpaths ▸ hturn)
    have herrors := hread.errors
    by_cases hfew : s₁.errors ≤ DEFAULT_MAX_ERROR_COUNT
    · obtain ⟨lex, -, hstep⟩ := hdoes.of_le hfew
      obtain ⟨input₁, hrest₁, hstack₁⟩ := hread.stack
      obtain ⟨s', hends⟩ :=
        ih (s := { s₁ with unique := s₁.unique + 1, lexeme_list := s₁.lexeme_list ++ [lex] }) hstack₁ hrest₁
          (hread.same.2.2.trans hpaths) hfew (by simp only [errors] at herrors hmany ⊢; omega)
      exact ⟨s', (Rounds.single (not_finished hstack) hstep).ends_iff.mpr hends⟩
    · obtain ⟨s', herror⟩ := hdoes.of_lt hs (not_le.mp hfew)
      exact ⟨s', .of_error (not_finished hstack) herror⟩
  | @enter paths paths₁ _ _ _ _ _ _ _ path₁ e e₁ _ hne hturn hinner _ ih ih' =>
    obtain ⟨s₁, hread, hdoes⟩ := step_does env hstack hrest hne (hpaths ▸ hturn)
    have herrors := hread.errors
    by_cases hfew : s₁.errors ≤ DEFAULT_MAX_ERROR_COUNT
    · have hstep : step env s = .ok ⟨⟩ (entered env s₁ path₁) := hdoes.of_le hfew
      obtain ⟨input₁, hrest₁, hstack₁⟩ := hread.stack
      have hentered : (entered env s₁ path₁).errors = s₁.errors := rfl
      have hpaths₁ : (entered env s₁ path₁).paths = add_path paths (env.parent_path path₁) := by
        rw [← hpaths, ← hread.same.2.2]
        rfl
      by_cases hinside : s₁.errors + e₁ ≤ DEFAULT_MAX_ERROR_COUNT
      · obtain ⟨n, s₂, hrounds, hbelow, hpaths₂, herrors₂, -⟩ := hinner.rounds rfl rfl hpaths₁ (by omega)
        obtain ⟨s', hends⟩ := ih' (hbelow.trans hstack₁) hrest₁ hpaths₂ (by omega) (by omega)
        exact ⟨s', (Rounds.head (not_finished hstack) hstep hrounds).ends_iff.mpr hends⟩
      · obtain ⟨s', hends⟩ := ih rfl rfl hpaths₁ (by omega) (by omega)
        exact ⟨s', (Rounds.single (not_finished hstack) hstep).ends_iff.mpr hends⟩
    · obtain ⟨s', herror⟩ := hdoes.of_lt hs (not_le.mp hfew)
      exact ⟨s', .of_error (not_finished hstack) herror⟩

/-- What comes of a step that throws nothing. -/
theorem step_ok {s s' : lexstream P D K S} {path : P} {input : lexfile} {below : List (frame P)}
    (hstack : s.stack = ⟨path, input, context⟩ :: below) (hne : input.rest ≠ [])
    (hs : s.errors ≤ DEFAULT_MAX_ERROR_COUNT) (hstep : step env s = .ok ⟨⟩ s') :
    ∃ ev e context' rest' s₁, turn env s.paths context input.rest = (ev, e, context', rest') ∧
      ReadOn s path below context' rest' e s₁ ∧ s₁.errors ≤ DEFAULT_MAX_ERROR_COUNT ∧
      Follows env s₁ ev (.ok ⟨⟩ s') := by
  obtain ⟨s₁, hread, hdoes⟩ := step_does env hstack rfl hne rfl
  have hfew : s₁.errors ≤ DEFAULT_MAX_ERROR_COUNT := by
    by_contra hmany
    obtain ⟨s'', herror⟩ := hdoes.of_lt hs (not_le.mp hmany)
    rw [hstep] at herror
    cases herror
  exact ⟨_, _, _, _, s₁, rfl, hread, hfew, hstep ▸ hdoes.of_le hfew⟩

/-- When a stream has come to its end, the file on top of the stack has been read. -/
theorem lexes_of_rounds {n : ℕ} {s s' : lexstream P D K S} {path : P} {input : lexfile} {below : List (frame P)}
    (hstack : s.stack = ⟨path, input, context⟩ :: below) (hs : s.errors ≤ DEFAULT_MAX_ERROR_COUNT)
    (h : Rounds Finished (step env) n s s') (hdone : Finished s') :
    ∃ k < n, ∃ s₁ out e, Lexes env s.paths context input.rest out e s₁.paths ∧ Rounds Finished (step env) k s₁ s' ∧
      s₁.stack = below ∧ s₁.errors = s.errors + e ∧ s₁.errors ≤ DEFAULT_MAX_ERROR_COUNT ∧
      s₁.values = s.values ++ out := by
  induction n using Nat.strong_induction_on generalizing s path input context below with
  | _ n ih =>
    cases h with
    | refl => exact absurd hdone (not_finished hstack)
    | @head n _ s₂ _ _ hstep hrest =>
      by_cases hend : input.rest = []
      · rw [step_of_end env hstack hend] at hstep
        cases hstep
        refine ⟨n, Nat.lt_succ_self n, _, [], 0, ?_, hrest, rfl, rfl, hs, (List.append_nil _).symm⟩
        rw [hend]
        exact .done
      obtain ⟨ev, e, context', rest', s₁, hturn, hread, hfew, hfollows⟩ := step_ok hstack hend hs hstep
      have herrors := hread.errors
      have hpaths := hread.same.2.2
      obtain ⟨input₁, rfl, hstack₁⟩ := hread.stack
      cases ev with
      | nothing =>
        cases hfollows
        obtain ⟨k, hk, s₃, out, e', hlexes, hrounds, hbelow, herrors', hfew', hvalues⟩ :=
          ih n (Nat.lt_succ_self n) hstack₁ hfew hrest
        refine ⟨k, hk.trans (Nat.lt_succ_self n), s₃, out, e + e', .nothing hend hturn (hpaths ▸ hlexes), hrounds,
          hbelow, by omega, hfew', ?_⟩
        rw [hvalues, hread.values]
      | lexeme v =>
        obtain ⟨lex, rfl, hok⟩ := hfollows
        cases hok
        obtain ⟨k, hk, s₃, out, e', hlexes, hrounds, hbelow, herrors', hfew', hvalues⟩ :=
          ih n (Nat.lt_succ_self n)
            (s := { s₁ with unique := s₁.unique + 1, lexeme_list := s₁.lexeme_list ++ [lex] }) hstack₁ hfew hrest
        refine ⟨k, hk.trans (Nat.lt_succ_self n), s₃, lex.value :: out, e + e', .lexeme hend hturn (hpaths ▸ hlexes),
          hrounds, hbelow, ?_, hfew', ?_⟩
        · simp only [errors] at herrors herrors' ⊢
          omega
        · rw [hvalues, values_append, hread.values, List.append_assoc]
          rfl
      | enter path₁ =>
        cases hfollows
        have hentered : (entered env s₁ path₁).errors = s₁.errors := rfl
        obtain ⟨k, hk, s₃, inner, e₁, hinner, hrounds, hbelow, herrors₃, hfew₃, hvalues₃⟩ :=
          ih n (Nat.lt_succ_self n) (s := entered env s₁ path₁) rfl hfew hrest
        obtain ⟨m, hm, s₄, out, e', hlexes, hrounds', hbelow', herrors', hfew', hvalues⟩ :=
          ih k (hk.trans (Nat.lt_succ_self n)) (hbelow.trans hstack₁) hfew₃ hrounds
        have hlexes' : Lexes env s.paths context input.rest (inner ++ out) (e + e₁ + e') s₄.paths := by
          refine .enter hend hturn ?_ hlexes
          rw [← hpaths]
          exact hinner
        refine ⟨m, (hm.trans hk).trans (Nat.lt_succ_self n), s₄, inner ++ out, e + e₁ + e', hlexes', hrounds', hbelow',
          by omega, hfew', ?_⟩
        rw [hvalues, hvalues₃, List.append_assoc]
        exact congrArg (· ++ (inner ++ out)) hread.values
      | fail f =>
        obtain ⟨_, herror⟩ := hfollows
        cases herror

end Reading

/-! ### The first file -/

/-- When the first file is found, it is begun. -/
theorem construct_found {file : List Char} {paths : List D} {path : P} (h : resolve env paths file = .found path)
    (rounds : ℕ) :
    construct env file paths rounds = repeatUntil Finished (step env) rounds (entered env { paths } path) := by
  have hparse := parse_eq env (s := { paths }) file
  have hstart : start env file { paths } = .ok ⟨⟩ (entered env { paths } path) := by
    simp only [start, Bind.bind, EStateM.bind, hparse, h]
    rfl
  rw [construct, hstart]

end lexstream

end CppTransport.Translator.Lexer
