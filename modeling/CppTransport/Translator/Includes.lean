import CppTransport.Translator.Splicing
import Mathlib.Data.Fintype.Card

/-!
# Files that include files

Nothing keeps a file from being included while it is being read. It is then read from its beginning
again, with the same search paths as before or more, and comes to the same directive, unless there has
been an error; and only so many errors are permitted.

## What is proved

`settles_iff`: for finitely many files the construction of a stream ends, with the lexemes of the included
files in place or with a reported error, if and only if no file is included while it is being read and no
error has been reported since it was begun, no absolute name of a file that does not exist is looked up,
and no directive stops at the end of a file.
-/

namespace CppTransport.Translator.Lexer

open Library

namespace lexstream

/-! ### Turns -/

section Turns

variable {P D K S : Type} (env : Environment P D K S) {paths paths' : List D} {context context' : minus_context}
  {rest rest' leaf : List Char} {ev : event P K S} {path : P} {f : Failure}

theorem skip_blank_length (comment : Bool) (rest : List Char) : (skip_blank comment rest).length ≤ rest.length := by
  induction rest generalizing comment with
  | nil => simp [skip_blank]
  | cons c rest ih =>
    cases comment with
    | true => exact (ih _).trans (Nat.le_succ _)
    | false =>
      rw [skip_blank]
      split_ifs
      · exact (ih _).trans (Nat.le_succ _)
      · exact (ih _).trans (Nat.le_succ _)
      · exact le_rfl

theorem scan_number_length (s : number_state) (rest : List Char) : (scan_number s rest).2.length ≤ rest.length := by
  induction rest generalizing s with
  | nil => simp [scan_number]
  | cons c rest ih =>
    rw [scan_number]
    split
    · exact (ih _).trans (Nat.le_succ _)
    · exact le_rfl

theorem find_word_length (c : Char) (rest : List Char) : (find_word c rest).rest.length ≤ rest.length := by
  have hdrop (p : Char → Bool) : (rest.dropWhile p).length ≤ rest.length := (List.dropWhile_suffix p).length_le
  unfold find_word
  split
  · exact hdrop is_word
  split
  · exact scan_number_length {} rest
  split
  · split
    · exact Nat.le_succ _
    · exact le_rfl
  split
  · split
    · exact (Nat.le_succ _).trans (Nat.le_succ _)
    · exact Nat.le_succ _
    · exact le_rfl
  split
  · rw [string_literal, List.length_tail]
    exact (Nat.sub_le _ _).trans (hdrop _)
  · exact le_rfl

/-- A word uses up some of the text. -/
theorem first_word_length {word : found} (h : first_word rest = some word) : word.rest.length < rest.length := by
  rw [first_word] at h
  have hskip := skip_blank_length false rest
  cases hrest : skip_blank false rest with
  | nil =>
    rw [hrest] at h
    cases h
  | cons c tail =>
    rw [hrest] at h hskip
    cases h
    exact (find_word_length c tail).trans_lt hskip

theorem inclusion_length (hne : rest ≠ []) : (inclusion env paths rest).2.2.length < rest.length := by
  rw [inclusion]
  cases hfile : first_word rest with
  | none => exact List.length_pos_iff.mpr hne
  | some file =>
    simp only
    split
    · cases resolve env paths file.buffer <;> exact first_word_length hfile
    · exact first_word_length hfile

theorem directive_length (hne : rest ≠ []) : (directive env paths rest).2.2.length < rest.length := by
  rw [directive]
  cases hword : first_word rest with
  | none => exact List.length_pos_iff.mpr hne
  | some word =>
    have hlt := first_word_length hword
    simp only
    split
    · by_cases hword' : word.rest = []
      · rw [hword']
        exact List.length_pos_iff.mpr hne
      · exact (inclusion_length env hword').trans hlt
    · exact hlt

/-- A round uses up some of the text. -/
theorem turn_length (hne : rest ≠ []) : (turn env paths context rest).2.2.2.length < rest.length := by
  rw [turn]
  cases hword : first_word rest with
  | none => exact List.length_pos_iff.mpr hne
  | some word =>
    have hlt := first_word_length hword
    simp only
    split
    · exact hlt
    · split
      · by_cases hword' : word.rest = []
        · rw [hword']
          exact List.length_pos_iff.mpr hne
        · exact (directive_length env hword').trans hlt
      · exact hlt

/-- A file that has been found is found again when there are more search paths. -/
theorem resolve_mono (h : paths <+: paths') (hfound : resolve env paths leaf = .found path) :
    resolve env paths' leaf = .found path := by
  obtain ⟨more, rfl⟩ := h
  by_cases habsolute : env.is_absolute leaf
  · rwa [resolve, if_pos habsolute] at hfound ⊢
  · rw [resolve, if_neg habsolute] at hfound ⊢
    rw [List.findSome?_append]
    cases hpath : paths.findSome? fun directory => env.exists_in directory leaf with
    | none =>
      rw [hpath] at hfound
      cases hfound
    | some p =>
      rw [hpath] at hfound
      exact hfound

theorem inclusion_mono (h : paths <+: paths') (herrors : (inclusion env paths rest).2.1 = 0)
    (hfail : ∀ f, (inclusion env paths rest).1 ≠ .fail f) : inclusion env paths' rest = inclusion env paths rest := by
  rw [inclusion] at herrors hfail ⊢
  rw [inclusion]
  cases hfile : first_word rest with
  | none => rfl
  | some file =>
    simp only [hfile] at herrors hfail ⊢
    by_cases hliteral : file.type = .string_literal
    · simp only [if_pos hliteral] at herrors hfail ⊢
      cases hresolve : resolve env paths file.buffer with
      | found path => rw [resolve_mono env h hresolve]
      | missing => simp [hresolve] at herrors
      | throws => simp [hresolve] at hfail
    · simp only [if_neg hliteral]

theorem directive_mono (h : paths <+: paths') (herrors : (directive env paths rest).2.1 = 0)
    (hfail : ∀ f, (directive env paths rest).1 ≠ .fail f) : directive env paths' rest = directive env paths rest := by
  rw [directive] at herrors hfail ⊢
  rw [directive]
  cases hword : first_word rest with
  | none => rfl
  | some word =>
    simp only [hword] at herrors hfail ⊢
    by_cases hinclude : word.buffer = ['i', 'n', 'c', 'l', 'u', 'd', 'e']
    · simp only [if_pos hinclude] at herrors hfail ⊢
      rw [inclusion_mono env h (Nat.eq_zero_of_add_eq_zero_left herrors) hfail]
    · simp only [if_neg hinclude]

/-- With more search paths a round does the same, if there is no error. -/
theorem turn_mono (h : paths <+: paths') {e : ℕ} (hturn : turn env paths context rest = (ev, e, context', rest'))
    (herrors : e = 0) (hfail : ∀ f, ev ≠ .fail f) : turn env paths' context rest = (ev, e, context', rest') := by
  rw [← hturn]
  have herrors' : (turn env paths context rest).2.1 = 0 := by rw [hturn, herrors]
  have hfail' : ∀ f, (turn env paths context rest).1 ≠ .fail f := by rwa [hturn]
  rw [turn] at herrors' hfail' ⊢
  rw [turn]
  cases hword : first_word rest with
  | none => rfl
  | some word =>
    simp only [hword] at herrors' hfail' ⊢
    by_cases hempty : word.buffer = []
    · simp only [if_pos hempty]
    · by_cases hdirective : word.type = .character ∧ word.buffer = ['#']
      · simp only [if_neg hempty, if_pos hdirective] at herrors' hfail' ⊢
        rw [directive_mono env h (Nat.eq_zero_of_add_eq_zero_left herrors') hfail']
      · simp only [if_neg hempty, if_neg hdirective]

/-- A round does not fail for too many errors of its own accord. -/
theorem turn_ne_exit : (turn env paths context rest).1 ≠ .fail .exit_parse := by
  have hinclusion (rest : List Char) : (inclusion env paths rest).1 ≠ .fail .exit_parse := by
    rw [inclusion]
    cases first_word rest with
    | none => simp
    | some file =>
      simp only
      split
      · cases resolve env paths file.buffer <;> simp
      · simp
  have hdirective (rest : List Char) : (directive env paths rest).1 ≠ .fail .exit_parse := by
    rw [directive]
    cases first_word rest with
    | none => simp
    | some word =>
      simp only
      split
      · exact hinclusion word.rest
      · simp
  rw [turn]
  cases first_word rest with
  | none => simp
  | some word =>
    simp only
    split
    · simp
    · split
      · exact hdirective word.rest
      · simp

end Turns

/-! ### Runs -/

variable {P D K S : Type} [DecidableEq D] (env : Environment P D K S)

/-- Rounds in which at least so many files are being read. -/
inductive Above (depth : ℕ) : ℕ → lexstream P D K S → lexstream P D K S → Prop where
  | refl {s : lexstream P D K S} (h : depth ≤ s.stack.length) : Above depth 0 s s
  | head {n : ℕ} {s s₁ s' : lexstream P D K S} (h : depth ≤ s.stack.length) (hdone : ¬ Finished s)
      (hstep : step env s = .ok ⟨⟩ s₁) (hrest : Above depth n s₁ s') : Above depth (n + 1) s s'

/-- The file has just been begun. -/
def Begun (s : lexstream P D K S) (path : P) (below : List (frame P)) : Prop :=
  s.stack = ⟨path, .open (env.text path) env.max_lines, .unary⟩ :: below

/-- The file is being read, and no error has been reported since it was begun. -/
def Quiet (start s : lexstream P D K S) (path : P) : Prop :=
  ∃ n k s₀ below, Rounds Finished (step env) n start s₀ ∧ Begun env s₀ path below ∧
    Above env (below.length + 1) k s₀ s ∧ s.errors = s₀.errors

/-- What comes of the next step, with the number of errors. -/
def next (s : lexstream P D K S) : event P K S × ℕ :=
  match s.stack with
  | [] => (.nothing, 0)
  | top :: _ =>
    if top.input.rest = [] then (.nothing, 0)
    else
      let (ev, e, _) := turn env s.paths top.context top.input.rest
      (ev, e)

/-- In every state of the run, no file that is being read without an error since it was begun is included again, and
the next step does not throw, unless there are too many errors. -/
def Orderly (start : lexstream P D K S) : Prop :=
  ∀ n s, Rounds Finished (step env) n start s →
    (∀ path, next env s = (.enter path, 0) → ¬ Quiet env start s path) ∧
      ∀ f e, next env s = (.fail f, e) → DEFAULT_MAX_ERROR_COUNT < s.errors + e

/-- The construction of a stream ends, with the lexemes of included files in place of the directives or with a
reported error. -/
def Settles (file : List Char) (paths : List D) : Prop :=
  ∃ rounds r, construct env file paths rounds = some r ∧
    match r with
    | .ok _ s => 0 < s.errors ∨ ∃ path e paths', resolve env paths file = .found path ∧
        Lexes env (add_path paths (env.parent_path path)) .unary (opened env path) s.values e paths'
    | .error f _ => f = .exit_parse

section Above

variable {env} {s s₁ s' : lexstream P D K S} {d d' n k : ℕ}

theorem Above.rounds (h : Above env d n s s') : Rounds Finished (step env) n s s' := by
  induction h with
  | refl => exact .refl _
  | head _ hdone hstep _ ih => exact .head hdone hstep ih

theorem Above.le_length (h : Above env d n s s') : d ≤ s'.stack.length := by
  induction h with
  | refl h => exact h
  | head _ _ _ _ ih => exact ih

theorem Above.trans (h : Above env d n s s₁) (h' : Above env d k s₁ s') : Above env d (n + k) s s' := by
  induction h with
  | refl => rwa [Nat.zero_add]
  | head hle hdone hstep _ ih =>
    rw [Nat.succ_add]
    exact .head hle hdone hstep (ih h')

theorem Above.mono (h : Above env d n s s') (hle : d' ≤ d) : Above env d' n s s' := by
  induction h with
  | refl h => exact .refl (hle.trans h)
  | head h hdone hstep _ ih => exact .head (hle.trans h) hdone hstep ih

/-- The stack and the search paths after a step; `below` has the file that has been read on. -/
def Goes (env : Environment P D K S) (s' : lexstream P D K S) (below : List (frame P)) (paths : List D) :
    event P K S → Prop
  | .nothing => s'.stack = below ∧ s'.paths = paths
  | .lexeme _ => s'.stack = below ∧ s'.paths = paths
  | .enter path => Begun env s' path below ∧ s'.paths = add_path paths (env.parent_path path)
  | .fail _ => False

section Step

variable {path : P} {input : lexfile} {context : minus_context} {below : List (frame P)}

theorem step_goes (hstack : s.stack = ⟨path, input, context⟩ :: below) (hne : input.rest ≠ [])
    (hs : s.errors ≤ DEFAULT_MAX_ERROR_COUNT) (hstep : step env s = .ok ⟨⟩ s') :
    ∃ ev e context' input', turn env s.paths context input.rest = (ev, e, context', input'.rest) ∧
      s'.errors = s.errors + e ∧ s'.errors ≤ DEFAULT_MAX_ERROR_COUNT ∧
      Goes env s' (⟨path, input', context'⟩ :: below) s.paths ev := by
  obtain ⟨ev, e, context', rest', s₁, hturn, hread, hfew, hfollows⟩ := step_ok hstack hne hs hstep
  obtain ⟨input', rfl, hstack₁⟩ := hread.stack
  have hpaths := hread.same.2.2
  refine ⟨ev, e, context', input', hturn, ?_⟩
  cases ev with
  | nothing =>
    cases hfollows
    exact ⟨hread.errors, hfew, hstack₁, hpaths⟩
  | lexeme v =>
    obtain ⟨lex, -, hok⟩ := hfollows
    cases hok
    exact ⟨hread.errors, hfew, hstack₁, hpaths⟩
  | enter p =>
    cases hfollows
    refine ⟨hread.errors, hfew, ?_, ?_⟩
    · rw [Begun, ← hstack₁]
      rfl
    · rw [← hpaths]
      rfl
  | fail f =>
    obtain ⟨_, herror⟩ := hfollows
    cases herror

theorem exists_step (hstack : s.stack = ⟨path, input, context⟩ :: below) (hne : input.rest ≠ [])
    {ev : event P K S} {e : ℕ} {context' : minus_context} {rest' : List Char}
    (hturn : turn env s.paths context input.rest = (ev, e, context', rest')) (hfail : ∀ f, ev ≠ .fail f)
    (hfew : s.errors + e ≤ DEFAULT_MAX_ERROR_COUNT) : ∃ s', step env s = .ok ⟨⟩ s' := by
  obtain ⟨s₁, hread, hdoes⟩ := step_does env hstack rfl hne hturn
  have hfollows := hdoes.of_le (hread.errors.trans_le hfew)
  cases ev with
  | nothing => exact ⟨_, hfollows⟩
  | lexeme v =>
    obtain ⟨lex, -, hok⟩ := hfollows
    exact ⟨_, hok⟩
  | enter p => exact ⟨_, hfollows⟩
  | fail f => exact absurd rfl (hfail f)

end Step

omit [DecidableEq D] in
theorem exists_top (hdone : ¬ Finished s) :
    ∃ path input context below, s.stack = (⟨path, input, context⟩ : frame P) :: below := by
  obtain ⟨⟨path, input, context⟩, below, h⟩ := List.exists_cons_of_ne_nil hdone
  exact ⟨path, input, context, below, h⟩

theorem paths_add_path (paths : List D) (path : Option D) : paths <+: add_path paths path := by
  cases path with
  | none => exact List.prefix_rfl
  | some directory =>
    rw [add_path]
    split
    · exact List.prefix_rfl
    · exact List.prefix_append _ _

/-- A step adds errors and search paths. -/
theorem step_grows (hs : s.errors ≤ DEFAULT_MAX_ERROR_COUNT) (hdone : ¬ Finished s) (hstep : step env s = .ok ⟨⟩ s') :
    s.errors ≤ s'.errors ∧ s'.errors ≤ DEFAULT_MAX_ERROR_COUNT ∧ s.paths <+: s'.paths := by
  obtain ⟨path, input, context, below, hstack⟩ := exists_top hdone
  by_cases hend : input.rest = []
  · rw [step_of_end env hstack hend] at hstep
    cases hstep
    exact ⟨le_rfl, hs, List.prefix_rfl⟩
  · obtain ⟨ev, e, context', input', hturn, herrors, hfew, hgoes⟩ := step_goes hstack hend hs hstep
    refine ⟨by omega, hfew, ?_⟩
    cases ev with
    | nothing | lexeme => rw [hgoes.2]
    | enter p =>
      rw [hgoes.2]
      exact paths_add_path _ _
    | fail => cases hgoes

theorem rounds_grow (h : Rounds Finished (step env) n s s') (hs : s.errors ≤ DEFAULT_MAX_ERROR_COUNT) :
    s.errors ≤ s'.errors ∧ s'.errors ≤ DEFAULT_MAX_ERROR_COUNT ∧ s.paths <+: s'.paths := by
  induction h with
  | refl => exact ⟨le_rfl, hs, List.prefix_rfl⟩
  | head hdone hstep _ ih =>
    obtain ⟨hle, hfew, hpaths⟩ := step_grows hs hdone hstep
    obtain ⟨hle', hfew', hpaths'⟩ := ih hfew
    exact ⟨hle.trans hle', hfew', hpaths.trans hpaths'⟩

end Above

/-! ### Runs that end -/

section Ending

variable {env} {start s s₁ : lexstream P D K S} {path : P} {n k : ℕ}

/-- What is being read without an error still is. -/
theorem Quiet.above (h : Quiet env start s path) (habove : Above env s.stack.length k s s₁)
    (herrors : s₁.errors = s.errors) : Quiet env start s₁ path := by
  obtain ⟨n, j, s₀, below, hrounds, hbegun, hreading, hsame⟩ := h
  exact ⟨n, j + k, s₀, below, hrounds, hbegun, hreading.trans (habove.mono hreading.le_length), herrors.trans hsame⟩

section Counting

open Classical in
/-- How many files are not being read, or have been begun before an error. -/
noncomputable def unread [Fintype P] (env : Environment P D K S) (start s : lexstream P D K S) : ℕ :=
  (Finset.univ.filter fun path => ¬ Quiet env start s path).card

variable [Fintype P]

theorem unread_le (habove : Above env s.stack.length k s s₁) (herrors : s₁.errors = s.errors) :
    unread env start s₁ ≤ unread env start s := by
  classical
  refine Finset.card_le_card fun p hp => ?_
  rw [Finset.mem_filter] at hp ⊢
  exact ⟨hp.1, fun hquiet => hp.2 (hquiet.above habove herrors)⟩

theorem unread_lt (habove : Above env s.stack.length k s s₁) (herrors : s₁.errors = s.errors)
    (hnot : ¬ Quiet env start s path) (hquiet : Quiet env start s₁ path) :
    unread env start s₁ < unread env start s := by
  classical
  refine Finset.card_lt_card ⟨fun p hp => ?_, fun hsubset => ?_⟩
  · rw [Finset.mem_filter] at hp ⊢
    exact ⟨hp.1, fun hquiet => hp.2 (hquiet.above habove herrors)⟩
  · exact (Finset.mem_filter.mp (hsubset (Finset.mem_filter.mpr ⟨Finset.mem_univ path, hnot⟩))).2 hquiet

/-- In an orderly run every file is read to its end, or there are too many errors. The induction is on the errors that
are still permitted, then on the files that are not being read, then on what is left of the file. -/
theorem returns (horderly : Orderly env start) {E F L : ℕ} {input : lexfile} {context : minus_context}
    {below : List (frame P)} (hreach : Rounds Finished (step env) n start s)
    (hstack : s.stack = ⟨path, input, context⟩ :: below) (hs : s.errors ≤ DEFAULT_MAX_ERROR_COUNT)
    (hE : DEFAULT_MAX_ERROR_COUNT - s.errors = E) (hF : unread env start s = F) (hL : input.rest.length = L) :
    (∃ s', Ends Finished (step env) s (.error .exit_parse s')) ∨
      ∃ k s', Above env below.length k s s' ∧ s'.stack = below := by
  induction E using Nat.strong_induction_on generalizing F L n s path input context below with
  | _ E ihE =>
  induction F using Nat.strong_induction_on generalizing L n s path input context below with
  | _ F ihF =>
  induction L using Nat.strong_induction_on generalizing n s path input context below with
  | _ L ihL =>
    have hdone := not_finished hstack
    have hlength : s.stack.length = below.length + 1 := by rw [hstack, List.length_cons]
    by_cases hend : input.rest = []
    · exact .inr ⟨1, _, .head (by omega) hdone (step_of_end env hstack hend) (.refl le_rfl), rfl⟩
    -- the rest of the file, from a later state in which it is on top
    have hcontinue : ∀ k s₁ input' context', Above env s.stack.length k s s₁ →
        s₁.stack = ⟨path, input', context'⟩ :: below → input'.rest.length < input.rest.length →
        (∃ s', Ends Finished (step env) s (.error .exit_parse s')) ∨
          ∃ k s', Above env below.length k s s' ∧ s'.stack = below := by
      intro k s₁ input' context' habove hstack₁ hless
      obtain ⟨hle, hfew, -⟩ := rounds_grow habove.rounds hs
      have hreach₁ := hreach.trans habove.rounds
      have hrest : (∃ s', Ends Finished (step env) s₁ (.error .exit_parse s')) ∨
          ∃ k s', Above env below.length k s₁ s' ∧ s'.stack = below := by
        by_cases hsame : s₁.errors = s.errors
        · have hunread : unread env start s₁ ≤ unread env start s := unread_le habove hsame
          obtain hlt | heq := hunread.lt_or_eq
          · exact ihF _ (hF ▸ hlt) hreach₁ hstack₁ hfew (by omega) rfl rfl
          · exact ihL _ (hL ▸ hless) hreach₁ hstack₁ hfew (by omega) (heq.trans hF) rfl
        · exact ihE _ (by omega) hreach₁ hstack₁ hfew rfl rfl rfl
      obtain ⟨s', hexit⟩ | ⟨j, s', hreturn, hbelow⟩ := hrest
      · exact .inl ⟨s', habove.rounds.ends_iff.mpr hexit⟩
      · exact .inr ⟨k + j, s', (habove.mono (by omega)).trans hreturn, hbelow⟩
    rcases hturn : turn env s.paths context input.rest with ⟨ev, e, context', rest'⟩
    have hnext : next env s = (ev, e) := by simp only [next, hstack, if_neg hend, hturn]
    by_cases hfew : s.errors + e ≤ DEFAULT_MAX_ERROR_COUNT
    · have hfail : ∀ f, ev ≠ .fail f := by
        rintro f rfl
        exact absurd ((horderly n s hreach).2 f e hnext) (not_lt.mpr hfew)
      obtain ⟨s₁, hstep⟩ := exists_step hstack hend hturn hfail hfew
      obtain ⟨_, _, _, input', hturn', herrors, hfew₁, hgoes⟩ := step_goes hstack hend hs hstep
      have hless : (turn env s.paths context input.rest).2.2.2.length < input.rest.length := turn_length env hend
      rw [hturn'] at hless
      cases hturn.symm.trans hturn'
      have hreach₁ := hreach.concat hdone hstep
      cases ev with
      | nothing | lexeme =>
        refine hcontinue 1 s₁ input' context' (.head le_rfl hdone hstep (.refl ?_)) hgoes.1 hless
        rw [hgoes.1, hlength, List.length_cons]
      | enter p =>
        obtain ⟨hbegun, -⟩ := hgoes
        have hlength₁ : s₁.stack.length = below.length + 2 := by
          rw [hbegun, List.length_cons, List.length_cons]
        have habove₁ : Above env s.stack.length 1 s s₁ := .head le_rfl hdone hstep (.refl (by omega))
        -- the file that is included is read first
        have hinner : (∃ s', Ends Finished (step env) s₁ (.error .exit_parse s')) ∨
            ∃ k s', Above env (⟨path, input', context'⟩ :: below).length k s₁ s' ∧
              s'.stack = ⟨path, input', context'⟩ :: below := by
          by_cases hsame : e = 0
          · subst hsame
            have hquiet : Quiet env start s₁ p := ⟨_, 0, s₁, _, hreach₁, hbegun, .refl (by rw [hbegun]; rfl), rfl⟩
            have hnot : ¬ Quiet env start s p := (horderly n s hreach).1 p hnext
            exact ihF _ (hF ▸ unread_lt habove₁ herrors hnot hquiet) hreach₁ hbegun hfew₁ (by omega) rfl rfl
          · exact ihE _ (by omega) hreach₁ hbegun hfew₁ rfl rfl rfl
        obtain ⟨s', hexit⟩ | ⟨j, s₂, hreturn, hbelow⟩ := hinner
        · exact .inl ⟨s', (Rounds.single hdone hstep).ends_iff.mpr hexit⟩
        · refine hcontinue (1 + j) s₂ input' context' (habove₁.trans (hreturn.mono ?_)) hbelow hless
          rw [hlength, List.length_cons]
      | fail f => cases hgoes
    · obtain ⟨s₁, hread, hdoes⟩ := step_does env hstack rfl hend hturn
      obtain ⟨s', herror⟩ := hdoes.of_lt hs (hread.errors ▸ not_le.mp hfew)
      exact .inl ⟨s', .of_error hdone herror⟩

end Counting

end Ending

/-! ### Runs that do not end -/

section Repeating

variable {env} {s s₁ s' t : lexstream P D K S} {path : P} {n k : ℕ} {below below' : List (frame P)}

omit [DecidableEq D] in
/-- What is being read, but for the position in the file. -/
def key (f : frame P) : P × List Char × minus_context := (f.path, f.input.rest, f.context)

/-- On top of other files the second stream is reading the same as the first one; it has all search paths that the
first one comes to have. -/
structure Mirrors (last : List D) (below below' : List (frame P)) (s t : lexstream P D K S) : Prop where
  tops : ∃ tops tops', tops ≠ [] ∧ s.stack = tops ++ below ∧ t.stack = tops' ++ below' ∧ tops.map key = tops'.map key
  paths : last <+: t.paths
  errors : s.errors = t.errors

variable {last : List D}

omit [DecidableEq D] in
theorem Mirrors.length (h : Mirrors last below below' s t) : below'.length + 1 ≤ t.stack.length := by
  obtain ⟨tops, tops', hne, -, hT, hkeys⟩ := h.tops
  have hlength := congrArg List.length hkeys
  rw [List.length_map, List.length_map] at hlength
  have hpos := List.length_pos_iff.mpr hne
  rw [hT, List.length_append]
  omega

theorem add_path_of_mem {paths paths' : List D} {path : Option D} (h : add_path paths path <+: last)
    (h' : last <+: paths') : add_path paths' path = paths' := by
  cases path with
  | none => rfl
  | some directory =>
    have hmem : directory ∈ add_path paths (some directory) := by
      rw [add_path]
      split
      · assumption
      · simp
    rw [add_path, if_pos (h'.subset (h.subset hmem))]

omit [DecidableEq D] in
/-- The file on top is the same. -/
theorem Mirrors.top (h : Mirrors last below below' s t) {input : lexfile} {context : minus_context}
    {rest : List (frame P)} (hstack : s.stack = ⟨path, input, context⟩ :: rest) :
    ∃ tops tops' input', rest = tops ++ below ∧ t.stack = ⟨path, input', context⟩ :: (tops' ++ below') ∧
      input'.rest = input.rest ∧ tops.map key = tops'.map key := by
  obtain ⟨tops, tops', hne, hS, hT, hkeys⟩ := h.tops
  cases tops with
  | nil => exact absurd rfl hne
  | cons f tops =>
    cases tops' with
    | nil => cases hkeys
    | cons g tops' =>
      rw [hS, List.cons_append, List.cons.injEq] at hstack
      obtain ⟨rfl, rfl⟩ := hstack
      rw [List.map_cons, List.map_cons, List.cons.injEq] at hkeys
      obtain ⟨hkey, hkeys⟩ := hkeys
      obtain ⟨p, input', c⟩ := g
      simp only [key, Prod.mk.injEq] at hkey
      obtain ⟨rfl, hrest, rfl⟩ := hkey
      exact ⟨tops, tops', input', rfl, hT, hrest.symm, hkeys⟩

/-- The second stream does the same step, if there is no error. -/
theorem Mirrors.step (h : Mirrors last below below' s t) (hs : s.errors ≤ DEFAULT_MAX_ERROR_COUNT)
    (hdone : ¬ Finished s) (hstep : step env s = .ok ⟨⟩ s₁) (herrors : s₁.errors = s.errors)
    (hlast : s₁.paths <+: last) (hlength : below.length < s₁.stack.length) :
    ∃ t₁, step env t = .ok ⟨⟩ t₁ ∧ Mirrors last below below' s₁ t₁ := by
  obtain ⟨path, input, context, rest, hstack⟩ := exists_top hdone
  obtain ⟨tops, tops', input', rfl, hT, hrest, hkeys⟩ := h.top hstack
  by_cases hend : input.rest = []
  · rw [step_of_end env hstack hend] at hstep
    cases hstep
    refine ⟨_, step_of_end env hT (hrest.trans hend), ⟨⟨tops, tops', ?_, rfl, rfl, hkeys⟩, h.paths, h.errors⟩⟩
    rintro rfl
    exact lt_irrefl _ hlength
  · obtain ⟨ev, e, context', input₁, hturn, herrors₁, -, hgoes⟩ := step_goes hstack hend hs hstep
    obtain rfl : e = 0 := by omega
    have hpaths : s.paths <+: t.paths := (step_grows hs hdone hstep).2.2.trans (hlast.trans h.paths)
    have hfail : ∀ f, ev ≠ .fail f := by
      rintro f rfl
      exact hgoes
    have hturn' : turn env t.paths context input'.rest = (ev, 0, context', input₁.rest) := by
      rw [hrest]
      exact turn_mono env hpaths hturn rfl hfail
    have hend' : input'.rest ≠ [] := hrest.symm ▸ hend
    have hfew : t.errors ≤ DEFAULT_MAX_ERROR_COUNT := h.errors ▸ hs
    obtain ⟨t₁, hstep'⟩ := exists_step hT hend' hturn' hfail hfew
    obtain ⟨_, _, _, input₂, hturn₂, herrors₂, -, hgoes'⟩ := step_goes hT hend' hfew hstep'
    rw [hturn', Prod.mk.injEq, Prod.mk.injEq, Prod.mk.injEq] at hturn₂
    obtain ⟨rfl, rfl, rfl, hrest₂⟩ := hturn₂
    have hkeys' : (⟨path, input₁, context'⟩ :: tops : List (frame P)).map key =
        (⟨path, input₂, context'⟩ :: tops').map key := by
      rw [List.map_cons, List.map_cons, hkeys, key, key, hrest₂]
    have herrors' : s₁.errors = t₁.errors := by
      have hsame := h.errors
      omega
    refine ⟨t₁, hstep', ?_⟩
    cases ev with
    | nothing | lexeme =>
      exact ⟨⟨_, _, List.cons_ne_nil _ _, hgoes.1, hgoes'.1, hkeys'⟩, hgoes'.2 ▸ h.paths, herrors'⟩
    | enter p =>
      obtain ⟨hbegun, hadd⟩ := hgoes
      obtain ⟨hbegun', hadd'⟩ := hgoes'
      refine ⟨⟨_ :: ⟨path, input₁, context'⟩ :: tops, _ :: ⟨path, input₂, context'⟩ :: tops', List.cons_ne_nil _ _,
        hbegun, hbegun', ?_⟩, ?_, herrors'⟩
      · exact congrArg (key _ :: ·) hkeys'
      · rw [hadd', add_path_of_mem (hadd ▸ hlast) h.paths]
        exact h.paths
    | fail f => exact absurd rfl (hfail f)

/-- The second stream goes on in the same way. -/
theorem Mirrors.above (h : Mirrors last below below' s t) (habove : Above env (below.length + 1) n s s')
    (hs : s.errors ≤ DEFAULT_MAX_ERROR_COUNT) (herrors : s'.errors = s.errors) (hlast : s'.paths <+: last) :
    ∃ t', Above env (below'.length + 1) n t t' ∧ Mirrors last below below' s' t' := by
  induction habove generalizing t with
  | refl => exact ⟨t, .refl h.length, h⟩
  | @head n s s₁ s' _ hdone hstep hrest ih =>
    obtain ⟨hle, hfew, -⟩ := step_grows hs hdone hstep
    obtain ⟨hle', -, hpaths⟩ := rounds_grow hrest.rounds hfew
    have hlength : below.length + 1 ≤ s₁.stack.length := by cases hrest <;> assumption
    obtain ⟨t₁, hstep', hmirrors⟩ := h.step hs hdone hstep (by omega) (hpaths.trans hlast) hlength
    obtain ⟨t', habove', hmirrors'⟩ := ih hmirrors hfew (by omega) hlast
    have hdone' : ¬ Finished t := by
      intro hfinished
      have hlength := h.length
      rw [Finished] at hfinished
      simp [hfinished] at hlength
    exact ⟨t', .head h.length hdone' hstep' habove', hmirrors'⟩

omit [DecidableEq D] in
theorem next_of_turn {p : P} {input : lexfile} {context context' : minus_context} {rest : List (frame P)}
    {ev : event P K S} {e : ℕ} {rest' : List Char} (hstack : s.stack = ⟨p, input, context⟩ :: rest)
    (hend : input.rest ≠ []) (hturn : turn env s.paths context input.rest = (ev, e, context', rest')) :
    next env s = (ev, e) := by
  simp only [next, hstack, if_neg hend, hturn]

omit [DecidableEq D] in
/-- What is read when a file is about to be begun. -/
theorem turn_of_next (h : next env s = (.enter path, 0)) :
    ∃ p input context rest context' rest', s.stack = (⟨p, input, context⟩ : frame P) :: rest ∧ input.rest ≠ [] ∧
      turn env s.paths context input.rest = (.enter path, 0, context', rest') := by
  rw [next] at h
  split at h
  · cases h
  · rename_i top rest hstack
    split at h
    · cases h
    · rename_i hend
      rcases hturn : turn env s.paths top.context top.input.rest with ⟨ev, e, context', rest'⟩
      rw [hturn] at h
      cases h
      exact ⟨_, _, _, rest, context', rest', hstack, hend, hturn⟩

/-- A file is included while it is being read, without an error since it was begun. -/
def Repeats (env : Environment P D K S) (s₀ : lexstream P D K S) : Prop :=
  s₀.errors ≤ DEFAULT_MAX_ERROR_COUNT ∧ ∃ k s path below, Begun env s₀ path below ∧
    Above env (below.length + 1) k s₀ s ∧ s.errors = s₀.errors ∧ next env s = (.enter path, 0)

/-- Then it is begun again, and the same happens again. -/
theorem Repeats.again (h : Repeats env s) : ∃ k s', Rounds Finished (step env) (k + 1) s s' ∧ Repeats env s' := by
  obtain ⟨hs, k, s', path, below, hbegun, habove, herrors, hnext⟩ := h
  obtain ⟨p, input, context, rest, context', rest', hstack, hend, hturn⟩ := turn_of_next hnext
  have hs' : s'.errors ≤ DEFAULT_MAX_ERROR_COUNT := herrors.trans_le hs
  have hdone := not_finished hstack
  obtain ⟨s₁, hstep⟩ := exists_step hstack hend hturn (by simp) hs'
  obtain ⟨_, _, _, input₁, hturn₁, herrors₁, hfew, hgoes⟩ := step_goes hstack hend hs' hstep
  cases hturn.symm.trans hturn₁
  have hpaths := (step_grows hs' hdone hstep).2.2
  have hmirrors : Mirrors s₁.paths below _ s s₁ :=
    ⟨⟨[_], [_], List.cons_ne_nil _ _, hbegun, hgoes.1, rfl⟩, List.prefix_rfl, by omega⟩
  obtain ⟨t, habove', hmirrors'⟩ := hmirrors.above habove hs herrors hpaths
  obtain ⟨tops, tops', input', rfl, hT, hrest, -⟩ := hmirrors'.top hstack
  have hturn' := turn_mono env (hpaths.trans hmirrors'.paths) hturn rfl (by simp)
  rw [← hrest] at hturn'
  refine ⟨k, s₁, habove.rounds.concat hdone hstep, hfew, k, t, path, _, hgoes.1, habove', ?_, ?_⟩
  · have hsame := hmirrors'.errors
    omega
  · exact next_of_turn hT (hrest.symm ▸ hend) hturn'

end Repeating

/-! ### The theorem -/

section Settling

variable {env} {file : List Char} {paths : List D} {path : P} {start s : lexstream P D K S} {n : ℕ}

/-- A step that throws ends the run. -/
theorem ends_of_fail {f : Failure} {e : ℕ} (h : next env s = (.fail f, e))
    (hfew : s.errors + e ≤ DEFAULT_MAX_ERROR_COUNT) :
    ∃ s', Ends Finished (step env) s (.error f s') ∧ f ≠ .exit_parse := by
  rw [next] at h
  split at h
  · cases h
  · rename_i top below hstack
    split at h
    · cases h
    · rename_i hend
      rcases hturn : turn env s.paths top.context top.input.rest with ⟨ev, e', context', rest'⟩
      rw [hturn] at h
      cases h
      obtain ⟨s₁, hread, hdoes⟩ := step_does env hstack rfl hend hturn
      obtain ⟨s', herror⟩ := hdoes.of_le (hread.errors.trans_le hfew)
      refine ⟨s', .of_error (not_finished hstack) herror, ?_⟩
      rintro rfl
      exact turn_ne_exit env (by rw [hturn])

/-- A run that comes to an end with `exit_parse` or without an exception is orderly. -/
theorem orderly_of_ends {r : EStateM.Result Failure (lexstream P D K S) PUnit}
    (hstart : start.errors ≤ DEFAULT_MAX_ERROR_COUNT) (h : Ends Finished (step env) start r)
    (hr : ∀ f s', r = .error f s' → f = .exit_parse) : Orderly env start := by
  intro n s hreach
  refine ⟨fun path hnext hquiet => ?_, fun f e hnext => ?_⟩
  · obtain ⟨m, k, s₀, below, hrounds, hbegun, hreading, hsame⟩ := hquiet
    have hs₀ := (rounds_grow hrounds hstart).2.1
    have hrepeats : Repeats env s₀ := ⟨hs₀, k, s, path, below, hbegun, hreading, hsame, hnext⟩
    exact not_ends (fun _ h => h.again) hrepeats (hrounds.ends_iff.mp h)
  · by_contra hfew
    obtain ⟨s', hends, hne⟩ := ends_of_fail hnext (not_lt.mp hfew)
    exact hne (hr f s' ((hreach.ends_iff.mp h).unique hends))

/-- An orderly run comes to an end. -/
theorem ends_of_orderly [Fintype P] (h : Orderly env (entered env { paths } path)) :
    (∃ s', Ends Finished (step env) (entered env { paths } path) (.error .exit_parse s')) ∨
      ∃ s' e paths', Ends Finished (step env) (entered env { paths } path) (.ok ⟨⟩ s') ∧
        Lexes env (add_path paths (env.parent_path path)) .unary (opened env path) s'.values e paths' := by
  obtain hexit | ⟨k, s', habove, hdone⟩ := returns h (.refl _) rfl (Nat.zero_le _) rfl rfl rfl
  · exact .inl hexit
  · obtain ⟨j, -, s₁, out, e, hlexes, hrounds, hstack, -, -, hvalues⟩ :=
      lexes_of_rounds (s := entered env { paths } path) rfl (Nat.zero_le _) habove.rounds hdone
    cases hrounds with
    | refl =>
      obtain rfl : s'.values = out := hvalues
      exact .inr ⟨s', e, _, habove.rounds.ends_iff.mpr (.of_done hdone), hlexes⟩
    | head hdone' => exact absurd hstack hdone'

end Settling

/-- **Including files** ends, with the lexemes of the included files in place or with a reported error, if and only if
the first file does not throw and the run is orderly: no file is included while it is being read and no error has been
reported since it was begun, and no step throws before there are too many errors. -/
theorem settles_iff [Fintype P] (file : List Char) (paths : List D) :
    Settles env file paths ↔ resolve env paths file ≠ .throws ∧
      ∀ path, resolve env paths file = .found path → Orderly env (entered env { paths } path) := by
  have hparse := parse_eq env (s := { paths }) file
  cases hresolve : resolve env paths file with
  | throws =>
    refine iff_of_false ?_ fun h => h.1 rfl
    rintro ⟨rounds, r, hconstruct, hr⟩
    have hstart : start env file { paths } = .error (.filesystem_error file) { paths } := by
      simp only [start, Bind.bind, EStateM.bind, hparse, hresolve]
    rw [construct, hstart] at hconstruct
    cases hconstruct
    cases hr
  | missing =>
    refine iff_of_true ?_ ⟨by simp, by simp⟩
    let s₁ : lexstream P D K S := reported { paths } [⟨true, ERROR_OPEN_TOPLEVEL ++ quoted file, 0, 0, 0⟩]
    have hstart : start env file { paths } = .ok ⟨⟩ s₁ := by
      simp only [start, Bind.bind, EStateM.bind, hparse, hresolve]
      rfl
    refine ⟨0, .ok ⟨⟩ s₁, ?_, .inl Nat.zero_lt_one⟩
    rw [construct, hstart]
    rfl
  | found path =>
    have hconstruct := construct_found env hresolve
    constructor
    · rintro ⟨rounds, r, hr, hpost⟩
      rw [hconstruct] at hr
      refine ⟨by simp, fun _ hpath => ?_⟩
      cases hpath
      refine orderly_of_ends (Nat.zero_le _) ⟨rounds, hr⟩ ?_
      rintro f s' rfl
      exact hpost
    · rintro ⟨-, horderly⟩
      obtain ⟨s', rounds, hends⟩ | ⟨s', e, paths', ⟨rounds, hends⟩, hlexes⟩ := ends_of_orderly (horderly path rfl)
      · exact ⟨rounds, _, (hconstruct rounds).trans hends, rfl⟩
      · exact ⟨rounds, _, (hconstruct rounds).trans hends, .inr ⟨path, e, paths', hresolve, hlexes⟩⟩

/-- One file, which is found under every name. -/
def only_file (text : List Char) : Environment Unit Unit Unit Unit where
  text _ := text
  parent_path _ := none
  exists_in _ _ := some ()
  is_absolute _ := true
  canonical _ := some ()
  max_lines := none
  tables := ⟨[], []⟩

/-- A file that includes itself is read for ever. -/
theorem self_included_not_settles : ¬ Settles (only_file "#include \"a\"".toList) "a".toList [] := by
  rintro ⟨rounds, r, hconstruct, -⟩
  have hresolve : resolve (only_file "#include \"a\"".toList) [] "a".toList = .found () := rfl
  rw [construct_found _ hresolve] at hconstruct
  have hrepeats : Repeats (only_file "#include \"a\"".toList)
      (entered (only_file "#include \"a\"".toList) { paths := [] } ()) :=
    ⟨Nat.zero_le _, 0, _, (), [], rfl, .refl le_rfl, rfl, rfl⟩
  exact not_ends (fun _ h => h.again) hrepeats ⟨rounds, hconstruct⟩

end lexstream

end CppTransport.Translator.Lexer
