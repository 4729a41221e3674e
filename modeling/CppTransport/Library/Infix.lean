import Mathlib.Algebra.BigOperators.Group.List.Basic
import Mathlib.Algebra.Field.Defs

/-!
# Expressions in infix notation

An expression is a list of tokens: literals, variables, function calls, brackets, `+`, `*`
and `/`. It is read from left to right, by a machine that keeps the sum of the terms that
are complete, what the next factor is to be multiplied into or divided from, and a stack of
the brackets that are open. So `*` and `/` bind more tightly than `+`, and operators of the
same precedence are evaluated from the left.

Variables may be declared, one after the other, to be expressions. The lemmas say how texts
compose: `Reads` is for texts that may stand as one operand, and `Evaluates` for texts that
may stand between brackets.
-/

namespace CppTransport.Library

namespace Infix

/-- A token. -/
inductive Token where
  | lit (q : ℚ)
  | var (name : String)
  /-- The name of a function and the bracket that opens its arguments. -/
  | call (name : String)
  | plus
  | times
  | divide
  | comma
  | opening
  | closing
  deriving DecidableEq

variable {K : Type*} [Field K]

/-- What the next factor is for. -/
inductive Pending (K : Type*) where
  /-- It begins a term. -/
  | start
  | times (a : K)
  | divide (a : K)

/-- The term so far, with the next factor. -/
def Pending.apply : Pending K → K → K
  | start, x => x
  | times a, x => a * x
  | divide a, x => a / x

/-- What has been read since a bracket was opened. -/
structure Level (K : Type*) where
  /-- The function whose arguments are read. -/
  call : Option String
  /-- The arguments that are complete. -/
  args : List K
  /-- The sum of the terms that are complete. -/
  sum : K
  pending : Pending K

/-- Nothing has been read. -/
def Level.initial (call : Option String) : Level K := ⟨call, [], 0, .start⟩

/-- The state of the machine. -/
structure Machine (K : Type*) where
  level : Level K
  /-- The brackets that enclose it. -/
  outer : List (Level K)
  /-- The term so far, if an operand was read last. -/
  term : Option K

variable (fn : String → List K → K) (ρ : String → Option K)

/-- The value of a bracket that is closed. -/
def Level.close (l : Level K) (term : K) : K :=
  match l.call with
  | none => l.sum + term
  | some f => fn f (l.args ++ [l.sum + term])

/-- One token. -/
def step (m : Machine K) : Token → Option (Machine K)
  | .lit q =>
    match m.term with
    | none => some { m with term := some (m.level.pending.apply q) }
    | some _ => none
  | .var name =>
    match m.term with
    | none => (ρ name).map fun v => { m with term := some (m.level.pending.apply v) }
    | some _ => none
  | .call f =>
    match m.term with
    | none => some ⟨.initial (some f), m.level :: m.outer, none⟩
    | some _ => none
  | .opening =>
    match m.term with
    | none => some ⟨.initial none, m.level :: m.outer, none⟩
    | some _ => none
  | .plus => m.term.map fun v => ⟨{ m.level with sum := m.level.sum + v, pending := .start }, m.outer, none⟩
  | .times => m.term.map fun v => ⟨{ m.level with pending := .times v }, m.outer, none⟩
  | .divide => m.term.map fun v => ⟨{ m.level with pending := .divide v }, m.outer, none⟩
  | .comma =>
    match m.term, m.level.call with
    | some v, some f => some ⟨⟨some f, m.level.args ++ [m.level.sum + v], 0, .start⟩, m.outer, none⟩
    | _, _ => none
  | .closing =>
    match m.term, m.outer with
    | some v, l :: outer => some ⟨l, outer, some (l.pending.apply (m.level.close fn v))⟩
    | _, _ => none

/-- The value of an expression, if it has one. -/
def eval (ts : List Token) : Option K :=
  match ts.foldlM (step fn ρ) ⟨.initial none, [], none⟩ with
  | some ⟨l, [], some v⟩ => some (l.sum + v)
  | _ => none

/-- The variables of an expression. -/
def vars (ts : List Token) : List String := ts.filterMap fun
  | .var name => some name
  | _ => none

/-! ### The environment -/

section Environment

variable {fn ρ} {σ : String → Option K} {ts us : List Token} {x : String} {v : K}

theorem mem_vars : x ∈ vars ts ↔ .var x ∈ ts := by
  simp only [vars, List.mem_filterMap]
  constructor
  · rintro ⟨t, ht, h⟩
    cases t <;> simp_all
  · exact fun h => ⟨_, h, rfl⟩

theorem mem_vars_cons {t : Token} : x ∈ vars (t :: ts) ↔ t = .var x ∨ x ∈ vars ts := by
  rw [mem_vars, mem_vars, List.mem_cons, eq_comm]

/-- A value depends on the variables only. -/
theorem eval_congr (h : ∀ x ∈ vars ts, ρ x = σ x) : eval fn ρ ts = eval fn σ ts := by
  have run : ∀ m : Machine K, ts.foldlM (step fn ρ) m = ts.foldlM (step fn σ) m := by
    induction ts with
    | nil => exact fun _ => rfl
    | cons t ts ih =>
      intro m
      have same : step fn ρ m t = step fn σ m t := by
        cases t with
        | var x => simp only [step, h x (mem_vars_cons.mpr (.inl rfl))]
        | _ => rfl
      rw [List.foldlM_cons, List.foldlM_cons, same]
      exact bind_congr fun m' => ih (fun x hx => h x (mem_vars_cons.mpr (.inr hx))) m'
  rw [eval, eval, run]

/-- Variables that come to have values change no value that is there. -/
theorem eval_mono (h : ∀ x v, ρ x = some v → σ x = some v) (hv : eval fn ρ ts = some v) :
    eval fn σ ts = some v := by
  have run : ∀ m m' : Machine K, ts.foldlM (step fn ρ) m = some m' → ts.foldlM (step fn σ) m = some m' := by
    clear hv
    induction ts with
    | nil => exact fun _ _ h => h
    | cons t ts ih =>
      intro m m' hm
      obtain ⟨m₁, h₁, hm⟩ := Option.bind_eq_some_iff.mp hm
      have same : step fn σ m t = some m₁ := by
        cases t with
        | var x =>
          obtain ⟨level, outer, term⟩ := m
          cases term with
          | none =>
            obtain ⟨v, hv, rfl⟩ := Option.map_eq_some_iff.mp h₁
            simp [step, h x v hv]
          | some _ => cases h₁
        | _ => exact h₁
      exact Option.bind_eq_some_iff.mpr ⟨m₁, same, ih m₁ m' hm⟩
  rw [eval] at hv ⊢
  cases hm : ts.foldlM (step fn ρ) ⟨.initial none, [], none⟩ with
  | none => rw [hm] at hv; cases hv
  | some m => rwa [run _ _ hm, ← hm]

end Environment

/-! ### Declarations -/

section Declarations

/-- Variables are declared one after the other, each of them once. -/
def declare : List (String × List Token) → (String → Option K) → Option (String → Option K)
  | [], ρ => some ρ
  | (x, ts) :: ds, ρ =>
    if (ρ x).isSome then none else (eval fn ρ ts).bind fun v => declare ds (Function.update ρ x (some v))

variable {fn ρ} {ρ' : String → Option K} {ds : List (String × List Token)} {ts : List Token} {x y : String} {v : K}

theorem declare_append (ds' : List (String × List Token)) :
    declare fn (ds ++ ds') ρ = (declare fn ds ρ).bind fun ρ' => declare fn ds' ρ' := by
  induction ds generalizing ρ with
  | nil => rfl
  | cons d ds ih =>
    rw [List.cons_append, declare, declare]
    split_ifs
    · rfl
    · rw [Option.bind_assoc]
      exact Option.bind_congr fun v _ => ih

theorem declare_concat (h : declare fn ds ρ = some ρ') (hx : ρ' x = none) (hv : eval fn ρ' ts = some v) :
    declare fn (ds ++ [(x, ts)]) ρ = some (Function.update ρ' x (some v)) := by
  rw [declare_append, h, Option.bind_some, declare, hx, hv]
  rfl

/-- What has a value afterwards. -/
theorem isSome_of_declare (h : declare fn ds ρ = some ρ') :
    (ρ' y).isSome ↔ (ρ y).isSome ∨ y ∈ ds.map Prod.fst := by
  induction ds generalizing ρ with
  | nil =>
    cases h
    simp
  | cons d ds ih =>
    rw [declare] at h
    split_ifs at h
    obtain ⟨v, -, h⟩ := Option.bind_eq_some_iff.mp h
    rw [ih h, List.map_cons, List.mem_cons]
    by_cases hy : y = d.1
    · simp [hy]
    · simp [hy]

/-- Every declaration has a value. -/
theorem ne_nil_of_declare (h : declare fn ds ρ = some ρ') (hx : (x, ts) ∈ ds) : ts ≠ [] := by
  induction ds generalizing ρ with
  | nil => cases hx
  | cons d ds ih =>
    rw [declare] at h
    split_ifs at h
    obtain ⟨v, hv, h⟩ := Option.bind_eq_some_iff.mp h
    rcases List.mem_cons.mp hx with rfl | hx
    · rintro rfl
      cases hv
    · exact ih h hx

theorem eq_some_of_declare (h : declare fn ds ρ = some ρ') (hy : ρ y = some v) : ρ' y = some v := by
  induction ds generalizing ρ with
  | nil =>
    cases h
    exact hy
  | cons d ds ih =>
    rw [declare] at h
    split_ifs at h with hd
    obtain ⟨w, -, h⟩ := Option.bind_eq_some_iff.mp h
    refine ih h ?_
    rw [Function.update_of_ne, hy]
    rintro rfl
    exact hd (by rw [hy]; rfl)

/-- What is declared has had no value before. -/
theorem eq_none_of_declare (h : declare fn ds ρ = some ρ') (hy : y ∈ ds.map Prod.fst) : ρ y = none := by
  induction ds generalizing ρ with
  | nil => cases hy
  | cons d ds ih =>
    rw [declare] at h
    split_ifs at h with hd
    obtain ⟨w, -, h⟩ := Option.bind_eq_some_iff.mp h
    by_cases hyd : y = d.1
    · simpa [hyd] using hd
    · rw [← ih h ((List.mem_cons.mp hy).resolve_left hyd), Function.update_of_ne hyd]

/-- No variable is declared twice. -/
theorem nodup_of_declare (h : declare fn ds ρ = some ρ') : (ds.map Prod.fst).Nodup := by
  induction ds generalizing ρ with
  | nil => exact List.nodup_nil
  | cons d ds ih =>
    rw [declare] at h
    split_ifs at h
    obtain ⟨w, -, h⟩ := Option.bind_eq_some_iff.mp h
    refine List.nodup_cons.mpr ⟨fun hd => ?_, ih h⟩
    have hnone := eq_none_of_declare h hd
    rw [Function.update_self] at hnone
    cases hnone

/-- A variable has the value of the expression that it is declared to be. -/
theorem eval_of_mem_declare (h : declare fn ds ρ = some ρ') (hx : (x, ts) ∈ ds) : eval fn ρ' ts = ρ' x := by
  induction ds generalizing ρ with
  | nil => cases hx
  | cons d ds ih =>
    have hmono : ∀ y v, ρ y = some v → ρ' y = some v := fun y v => eq_some_of_declare h
    rw [declare] at h
    split_ifs at h
    obtain ⟨w, hw, h⟩ := Option.bind_eq_some_iff.mp h
    obtain rfl | hx := List.mem_cons.mp hx
    · rw [eval_mono hmono hw, eq_some_of_declare h (Function.update_self ..)]
    · exact ih h hx

end Declarations

/-! ### How texts compose -/

section Compose

/-- A text that may stand as an operand. -/
def Reads (ts : List Token) (v : K) : Prop :=
  ∀ level outer, ts.foldlM (step fn ρ) ⟨level, outer, none⟩ = some ⟨level, outer, some (level.pending.apply v)⟩

/-- A text that may stand between brackets, or between the commas of a call. -/
def Evaluates (ts : List Token) (v : K) : Prop :=
  ∀ call args outer, ∃ sum pending w,
    ts.foldlM (step fn ρ) ⟨⟨call, args, 0, .start⟩, outer, none⟩ =
        some ⟨⟨call, args, sum, pending⟩, outer, some w⟩ ∧
      sum + w = v

variable {fn ρ} {ts us : List Token} {tss : List (List Token)} {u v : K} {vs : List K} {x f : String}

theorem reads_lit (q : ℚ) : Reads fn ρ [.lit q] (q : K) := fun _ _ => rfl

theorem reads_var (h : ρ x = some v) : Reads fn ρ [.var x] v := fun _ _ => by simp [step, h]

theorem Reads.evaluates (h : Reads fn ρ ts v) : Evaluates fn ρ ts v := fun _ _ _ =>
  ⟨0, .start, v, h _ _, zero_add v⟩

theorem Evaluates.eval (h : Evaluates fn ρ ts v) : eval fn ρ ts = some v := by
  obtain ⟨sum, pending, w, hrun, rfl⟩ := h none [] []
  rw [Infix.eval, show Level.initial none = (⟨none, [], 0, .start⟩ : Level K) from rfl, hrun]

theorem Evaluates.bracket (h : Evaluates fn ρ ts v) : Reads fn ρ ([.opening] ++ ts ++ [.closing]) v := by
  intro level outer
  obtain ⟨sum, pending, w, hrun, rfl⟩ := h none [] (level :: outer)
  simp only [List.foldlM_append, List.foldlM_cons, List.foldlM_nil, step, Level.initial, Option.bind_eq_bind,
    Option.bind_some, bind_pure, hrun, Level.close]

theorem evaluates_sum (h : List.Forall₂ (Reads fn ρ) (ts :: tss) (v :: vs)) :
    Evaluates fn ρ (List.intercalate [.plus] (ts :: tss)) (v :: vs).sum := by
  suffices ∀ call args a outer, ∃ sum w, (List.intercalate [.plus] (ts :: tss)).foldlM (step fn ρ)
      ⟨⟨call, args, a, .start⟩, outer, none⟩ = some ⟨⟨call, args, sum, .start⟩, outer, some w⟩ ∧
        sum + w = a + (v :: vs).sum by
    intro call args outer
    obtain ⟨sum, w, hrun, hv⟩ := this call args 0 outer
    exact ⟨sum, .start, w, hrun, hv.trans (zero_add _)⟩
  induction tss generalizing ts v vs with
  | nil =>
    obtain ⟨ht, h⟩ := List.forall₂_cons.mp h
    obtain rfl := List.forall₂_nil_left_iff.mp h
    intro call args a outer
    exact ⟨a, v, by simpa [Pending.apply] using ht ⟨call, args, a, .start⟩ outer, by simp⟩
  | cons us tss ih =>
    obtain ⟨ht, h⟩ := List.forall₂_cons.mp h
    obtain ⟨u, us', -, -, rfl⟩ := List.forall₂_cons_left_iff.mp h
    intro call args a outer
    obtain ⟨sum, w, hrun, hw⟩ := ih h call args (a + v) outer
    refine ⟨sum, w, ?_, by rw [hw, List.sum_cons, List.sum_cons, List.sum_cons, add_assoc]⟩
    rw [List.intercalate_cons_cons, List.foldlM_append, List.foldlM_append, ht]
    exact hrun

theorem evaluates_prod (h : List.Forall₂ (Reads fn ρ) (ts :: tss) (v :: vs)) :
    Evaluates fn ρ (List.intercalate [.times] (ts :: tss)) (v :: vs).prod := by
  suffices ∀ level outer, ∃ pending, (List.intercalate [.times] (ts :: tss)).foldlM (step fn ρ)
      ⟨level, outer, none⟩ =
        some ⟨{ level with pending := pending }, outer, some (level.pending.apply v * vs.prod)⟩ by
    intro call args outer
    obtain ⟨pending, hrun⟩ := this ⟨call, args, 0, .start⟩ outer
    exact ⟨0, pending, _, hrun, by simp [Pending.apply]⟩
  induction tss generalizing ts v vs with
  | nil =>
    obtain ⟨ht, h⟩ := List.forall₂_cons.mp h
    obtain rfl := List.forall₂_nil_left_iff.mp h
    intro level outer
    exact ⟨level.pending, by simpa using ht level outer⟩
  | cons us tss ih =>
    obtain ⟨ht, h⟩ := List.forall₂_cons.mp h
    obtain ⟨u, us', -, -, rfl⟩ := List.forall₂_cons_left_iff.mp h
    intro level outer
    obtain ⟨pending, hrun⟩ := ih h { level with pending := .times (level.pending.apply v) } outer
    refine ⟨pending, ?_⟩
    rw [List.intercalate_cons_cons, List.foldlM_append, List.foldlM_append, ht, List.prod_cons, ← mul_assoc]
    exact hrun

theorem evaluates_div (ht : Reads fn ρ ts u) (hu : Reads fn ρ us v) :
    Evaluates fn ρ (ts ++ [.divide] ++ us) (u / v) := by
  intro call args outer
  refine ⟨0, .divide u, u / v, ?_, zero_add _⟩
  rw [List.foldlM_append, List.foldlM_append, ht]
  exact hu _ _

theorem reads_call (h : List.Forall₂ (Evaluates fn ρ) (ts :: tss) (v :: vs)) :
    Reads fn ρ ([.call f] ++ List.intercalate [.comma] (ts :: tss) ++ [.closing]) (fn f (v :: vs)) := by
  have run : ∀ args outer, ∃ args' sum pending w, (List.intercalate [.comma] (ts :: tss)).foldlM (step fn ρ)
      ⟨⟨some f, args, 0, .start⟩, outer, none⟩ = some ⟨⟨some f, args', sum, pending⟩, outer, some w⟩ ∧
        args' ++ [sum + w] = args ++ v :: vs := by
    induction tss generalizing ts v vs with
    | nil =>
      obtain ⟨ht, h⟩ := List.forall₂_cons.mp h
      obtain rfl := List.forall₂_nil_left_iff.mp h
      intro args outer
      obtain ⟨sum, pending, w, hrun, rfl⟩ := ht (some f) args outer
      exact ⟨args, sum, pending, w, by simpa using hrun, rfl⟩
    | cons us tss ih =>
      obtain ⟨ht, rest⟩ := List.forall₂_cons.mp h
      obtain ⟨u, us', -, -, rfl⟩ := List.forall₂_cons_left_iff.mp rest
      intro args outer
      obtain ⟨sum, pending, w, hrun, rfl⟩ := ht (some f) args outer
      obtain ⟨args', sum', pending', w', hrun', hargs⟩ := ih rest (args ++ [sum + w]) outer
      refine ⟨args', sum', pending', w', ?_, by rw [hargs, List.append_assoc, List.singleton_append]⟩
      rw [List.intercalate_cons_cons, List.foldlM_append, List.foldlM_append, hrun]
      exact hrun'
  intro level outer
  obtain ⟨args, sum, pending, w, hrun, hargs⟩ := run [] (level :: outer)
  have hrun' : [Token.call f].foldlM (step fn ρ) ⟨level, outer, none⟩ =
      some (⟨⟨some f, [], 0, .start⟩, level :: outer, none⟩ : Machine K) := rfl
  rw [List.foldlM_append, List.foldlM_append, hrun']
  simp only [Option.bind_eq_bind, Option.bind_some, hrun, List.foldlM_cons, List.foldlM_nil, step, Level.close,
    bind_pure]
  rw [hargs, List.nil_append]

end Compose

end Infix

end CppTransport.Library
