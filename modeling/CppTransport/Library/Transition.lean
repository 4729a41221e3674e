import Mathlib.Data.List.Induction

/-!
# Labelled transition systems

The general vocabulary for a component that takes one step after another:
its runs, the states they reach, and the rule by which a property of the
initial states that every step preserves holds wherever a run leads. Runs all of
whose steps meet a side condition are runs of a restricted system. `Inevitable`
says that a property is reached along every run that does not stop early, and is
established by a measure that every step decreases. `StatesSatisfy` and `StepsSatisfy`
are about the states and the steps along the run of a given list of labels.
-/

namespace CppTransport.Library

/-- A transition system with states `σ` and labels `ℓ`. -/
structure System (σ ℓ : Type*) where
  /-- The states a run may start in. -/
  init : σ → Prop
  /-- `step s l s'`: from `s`, the system may go to `s'` with label `l`. -/
  step : σ → ℓ → σ → Prop

namespace System

variable {σ ℓ : Type*} {S : System σ ℓ}

/-- `Run s ls s'`: the steps labelled `ls`, in order, lead from `s` to `s'`. -/
inductive Run (S : System σ ℓ) (s : σ) : List ℓ → σ → Prop where
  /-- No step. -/
  | nil : Run S s [] s
  /-- One more step at the end. -/
  | snoc {ls : List ℓ} {l : ℓ} {s₁ s₂ : σ} : Run S s ls s₁ → S.step s₁ l s₂ → Run S s (ls ++ [l]) s₂

/-- Some run from an initial state leads to `s`. -/
def Reachable (S : System σ ℓ) (s : σ) : Prop := ∃ s₀ ls, S.init s₀ ∧ S.Run s₀ ls s

theorem Reachable.of_init {s : σ} (h : S.init s) : S.Reachable s := ⟨s, [], h, .nil⟩

theorem Reachable.step {s s' : σ} {l : ℓ} (h : S.Reachable s) (hs : S.step s l s') :
    S.Reachable s' := by
  obtain ⟨s₀, ls, h₀, hr⟩ := h
  exact ⟨s₀, ls ++ [l], h₀, hr.snoc hs⟩

/-- A property that holds initially and is preserved by every step. -/
structure Invariant (S : System σ ℓ) (I : σ → Prop) : Prop where
  /-- It holds initially. -/
  init : ∀ s, S.init s → I s
  /-- A step preserves it. -/
  step : ∀ s l s', I s → S.step s l s' → I s'

/-- **The invariant rule along one run**. -/
theorem Run.invariant {I : σ → Prop} {s s' : σ} {ls : List ℓ}
    (step : ∀ s l s', I s → S.step s l s' → I s') (h : S.Run s ls s') (h₀ : I s) : I s' := by
  induction h with
  | nil => exact h₀
  | snoc _ hs ih => exact step _ _ _ ih hs

/-- **The invariant rule**: an invariant holds in every reachable state. -/
theorem Invariant.reachable {I : σ → Prop} (h : S.Invariant I) {s : σ} (hs : S.Reachable s) : I s := by
  obtain ⟨s₀, ls, h₀, hr⟩ := hs
  exact hr.invariant h.step (h.init _ h₀)

/-- A run of one system is a run of any system with at least its steps. -/
theorem Run.mono {T : System σ ℓ} (hle : ∀ s l s', S.step s l s' → T.step s l s') {s s' : σ} {ls : List ℓ}
    (h : S.Run s ls s') : T.Run s ls s' := by
  induction h with
  | nil => exact .nil
  | snoc _ hs ih => exact ih.snoc (hle _ _ _ hs)

/-! ### Deterministic steps and side conditions -/

/-- The system whose steps are computed by a partial function. -/
def ofNext (init : σ → Prop) (next : σ → ℓ → Option σ) : System σ ℓ where
  init := init
  step s l s' := next s l = some s'

/-- A run of computed steps is a fold. -/
theorem run_ofNext_of_foldlM {init : σ → Prop} {next : σ → ℓ → Option σ} {s s' : σ} {ls : List ℓ}
    (h : ls.foldlM next s = some s') : (ofNext init next).Run s ls s' := by
  induction ls using List.reverseRecOn generalizing s' with
  | nil =>
    obtain rfl : s = s' := by simpa using h
    exact .nil
  | append_singleton ls l ih =>
    obtain ⟨s₁, h₁, h₂⟩ : ∃ s₁, ls.foldlM next s = some s₁ ∧ next s₁ l = some s' := by
      simpa [List.foldlM_append, Option.bind_eq_some_iff] using h
    exact (ih h₁).snoc h₂

/-- The system with only the steps that satisfy `C`. -/
def restrict (S : System σ ℓ) (C : σ → ℓ → Prop) : System σ ℓ where
  init := S.init
  step s l s' := C s l ∧ S.step s l s'

theorem Reachable.of_restrict {C : σ → ℓ → Prop} {s : σ} (h : (S.restrict C).Reachable s) :
    S.Reachable s := by
  obtain ⟨s₀, ls, h₀, hr⟩ := h
  exact ⟨s₀, ls, h₀, Run.mono (S := S.restrict C) (fun _ _ _ hs => hs.2) hr⟩

/-- A run of computed steps that satisfy `C` is a fold. -/
theorem run_restrict_of_foldlM {init : σ → Prop} {next : σ → ℓ → Option σ} {C : σ → ℓ → Bool} {s s' : σ}
    {ls : List ℓ} (h : ls.foldlM (fun s l => if C s l then next s l else none) s = some s') :
    ((ofNext init next).restrict fun s l => C s l = true).Run s ls s' := by
  refine Run.mono (fun s l s' hs => ?_) (show (ofNext init _).Run s ls s' from run_ofNext_of_foldlM h)
  simpa [ofNext, restrict] using hs

/-! ### Along the run of a list of labels -/

section Along

variable (next : σ → ℓ → Option σ) (P : σ → Prop) (C : σ → ℓ → Prop)

/-- `P` holds in every state that the run goes through. -/
def StatesSatisfy (s : σ) : List ℓ → Prop
  | [] => P s
  | l :: ls => P s ∧ ∀ s', next s l = some s' → StatesSatisfy s' ls

/-- `C` holds of every step that the run takes. -/
def StepsSatisfy (s : σ) : List ℓ → Prop
  | [] => True
  | l :: ls => C s l ∧ ∀ s', next s l = some s' → StepsSatisfy s' ls

variable {next P C}

/-- A side condition that implies another where an invariant holds implies it along runs, if steps that satisfy it
keep the invariant. -/
theorem StepsSatisfy.imp_of_invariant {I : σ → Prop} {C' : σ → ℓ → Prop} (imp : ∀ s l, I s → C s l → C' s l)
    (keeps : ∀ s l s', I s → C s l → next s l = some s' → I s') {s : σ} {ls : List ℓ} (hI : I s)
    (h : StepsSatisfy next C s ls) : StepsSatisfy next C' s ls := by
  induction ls generalizing s with
  | nil => trivial
  | cons l ls ih => exact ⟨imp s l hI h.1, fun s' hs => ih (keeps s l s' hI h.1 hs) (h.2 s' hs)⟩

/-- Side conditions that agree where an invariant holds agree along runs, if steps that satisfy them keep it. -/
theorem stepsSatisfy_congr {I : σ → Prop} {C' : σ → ℓ → Prop} (same : ∀ s l, I s → (C s l ↔ C' s l))
    (keeps : ∀ s l s', I s → C' s l → next s l = some s' → I s') {s : σ} {ls : List ℓ} (hI : I s) :
    StepsSatisfy next C s ls ↔ StepsSatisfy next C' s ls :=
  ⟨.imp_of_invariant (fun s l hI => (same s l hI).mp) (fun s l s' hI hC => keeps s l s' hI ((same s l hI).mp hC)) hI,
    .imp_of_invariant (fun s l hI => (same s l hI).mpr) keeps hI⟩

/-- A side condition that every label meets is met along the run. -/
theorem stepsSatisfy_of_forall_mem {s : σ} {ls : List ℓ} (h : ∀ l ∈ ls, ∀ s, C s l) : StepsSatisfy next C s ls := by
  induction ls generalizing s with
  | nil => trivial
  | cons l ls ih => exact ⟨h l List.mem_cons_self s, fun s' _ => ih fun l' hl' => h l' (List.mem_cons_of_mem l hl')⟩

/-- A side condition that every step meets is met along every run. -/
theorem stepsSatisfy_of_forall (h : ∀ s l, C s l) (s : σ) (ls : List ℓ) : StepsSatisfy next C s ls :=
  stepsSatisfy_of_forall_mem fun l _ s => h s l

theorem StatesSatisfy.imp {Q : σ → Prop} (imp : ∀ s, P s → Q s) {s : σ} {ls : List ℓ} (h : StatesSatisfy next P s ls) :
    StatesSatisfy next Q s ls := by
  induction ls generalizing s with
  | nil => exact imp s h
  | cons l ls ih => exact ⟨imp s h.1, fun s' hs => ih (h.2 s' hs)⟩

/-- What steps keep if they meet a side condition holds along every run whose steps meet it. -/
theorem statesSatisfy_of_stepsSatisfy (step : ∀ s l s', P s → C s l → next s l = some s' → P s') {s : σ} {ls : List ℓ}
    (hP : P s) (h : StepsSatisfy next C s ls) : StatesSatisfy next P s ls := by
  induction ls generalizing s with
  | nil => exact hP
  | cons l ls ih => exact ⟨hP, fun s' hs => ih (step s l s' hP h.1 hs) (h.2 s' hs)⟩

/-- **The exact side condition**: if a step from where `P` holds keeps it just if `C` holds of the step, then
`P` holds all along a run just if `C` holds of all its steps. -/
theorem statesSatisfy_iff_of_foldlM {I : σ → Prop}
    (step : ∀ s l s', I s → next s l = some s' → I s' ∧ (P s → (P s' ↔ C s l)))
    {s t : σ} {ls : List ℓ} (defined : ls.foldlM next s = some t) (hI : I s) (hP : P s) :
    StatesSatisfy next P s ls ↔ StepsSatisfy next C s ls := by
  induction ls generalizing s with
  | nil => exact ⟨fun _ => trivial, fun _ => hP⟩
  | cons l ls ih =>
    obtain ⟨s', hs, hrest⟩ := Option.bind_eq_some_iff.mp (List.foldlM_cons (m := Option) ▸ defined)
    obtain ⟨hI', hiff⟩ := step s l s' hI hs
    constructor
    · rintro ⟨-, rest⟩
      have along := rest s' hs
      have hP' : P s' := by
        cases ls with
        | nil => exact along
        | cons => exact along.1
      refine ⟨(hiff hP).mp hP', fun s₁ h₁ => ?_⟩
      obtain rfl := Option.some.inj (hs.symm.trans h₁)
      exact (ih hrest hI' hP').mp along
    · rintro ⟨hC, rest⟩
      refine ⟨hP, fun s₁ h₁ => ?_⟩
      obtain rfl := Option.some.inj (hs.symm.trans h₁)
      exact (ih hrest hI' ((hiff hP).mpr hC)).mpr (rest s' hs)

/-- Steps that are always defined make up runs. -/
theorem exists_foldlM {I : σ → Prop} (step : ∀ s l, I s → ∃ s', next s l = some s' ∧ I s') {s : σ} (hI : I s)
    (ls : List ℓ) : ∃ s', ls.foldlM next s = some s' ∧ I s' := by
  induction ls generalizing s with
  | nil => exact ⟨s, rfl, hI⟩
  | cons l ls ih =>
    obtain ⟨s₁, h₁, hI₁⟩ := step s l hI
    obtain ⟨s', h', hI'⟩ := ih hI₁
    exact ⟨s', by rw [List.foldlM_cons, h₁]; exact h', hI'⟩

/-- The same where every step is defined. -/
theorem statesSatisfy_iff {I : σ → Prop}
    (step : ∀ s l, I s → ∃ s', next s l = some s' ∧ I s' ∧ (P s → (P s' ↔ C s l)))
    {s : σ} {ls : List ℓ} (hI : I s) (hP : P s) :
    StatesSatisfy next P s ls ↔ StepsSatisfy next C s ls := by
  have step' : ∀ s l s', I s → next s l = some s' → I s' ∧ (P s → (P s' ↔ C s l)) := fun s l s' hI hs => by
    obtain ⟨s₁, h₁, keeps⟩ := step s l hI
    obtain rfl := Option.some.inj (h₁.symm.trans hs)
    exact keeps
  obtain ⟨t, ht, -⟩ := exists_foldlM (fun s l hI => (step s l hI).imp fun _ h => ⟨h.1, h.2.1⟩) hI ls
  exact statesSatisfy_iff_of_foldlM step' ht hI hP

end Along

/-! ### Progress -/

/-- Along every run from the state that goes on as long as it can, `P` comes to hold. -/
inductive Inevitable (S : System σ ℓ) (P : σ → Prop) : σ → Prop where
  /-- It holds now. -/
  | done {s : σ} : P s → Inevitable S P s
  /-- Some step is possible, and it is inevitable after each. -/
  | step {s : σ} : (∃ l s', S.step s l s') → (∀ l s', S.step s l s' → Inevitable S P s') →
      Inevitable S P s

/-- **The measure rule**: if an invariant rules out getting stuck before `P`, and every step keeps it
and decreases a measure, then `P` is inevitable. -/
theorem inevitable_of_measure {I P : σ → Prop} (m : σ → ℕ)
    (progress : ∀ s, I s → ¬ P s → ∃ l s', S.step s l s')
    (decrease : ∀ s l s', I s → ¬ P s → S.step s l s' → I s' ∧ m s' < m s) {s : σ} (h : I s) :
    S.Inevitable P s := by
  induction hn : m s using Nat.strongRecOn generalizing s with
  | _ n ih =>
    by_cases hP : P s
    · exact .done hP
    · refine .step (progress s h hP) fun l s' hs => ?_
      obtain ⟨h', hlt⟩ := decrease s l s' h hP hs
      exact ih (m s') (hn ▸ hlt) h' rfl

end System

end CppTransport.Library
