import Mathlib.Logic.Basic

/-!
# What an object answers

An object takes requests one at a time; each request has an answer and leads to a
new state, or is undefined. Two states behave alike if every sequence of requests
gets the same answers from both, up to the first that is undefined. A bisimulation,
a relation that every request keeps with equal answers, shows that they do.
-/

namespace CppTransport.Library

variable {σ ι ω : Type*}

/-- The answers to a sequence of requests; `none` is the answer to a request that is undefined. -/
def answers (request : σ → ι → Option (ω × σ)) (s : σ) : List ι → List (Option ω)
  | [] => []
  | i :: is =>
    match request s i with
    | none => [none]
    | some (o, s') => some o :: answers request s' is

/-- Every sequence of requests gets the same answers. -/
def SameAnswers (request : σ → ι → Option (ω × σ)) (s s' : σ) : Prop :=
  ∀ is, answers request s is = answers request s' is

variable {request : σ → ι → Option (ω × σ)} {s s' : σ}

/-- The relation holds after the request, with the same answer, if the request is defined on either side. -/
def Corresponds (R : σ → σ → Prop) : Option (ω × σ) → Option (ω × σ) → Prop
  | none, none => True
  | some (o, t), some (o', t') => o = o' ∧ R t t'
  | _, _ => False

section

variable {α : Type*} {R : σ → σ → Prop} (x : Option α)

/-- The same result, continued in two ways that correspond. -/
theorem Corresponds.bind {f g : α → Option (ω × σ)} (h : ∀ a, Corresponds R (f a) (g a)) :
    Corresponds R (x.bind f) (x.bind g) := by
  cases x with
  | none => trivial
  | some a => exact h a

/-- The same result, delivered in two ways that correspond. -/
theorem Corresponds.map {f g : α → ω × σ} (h : ∀ a, (f a).1 = (g a).1 ∧ R (f a).2 (g a).2) :
    Corresponds R (x.map f) (x.map g) := by
  rw [Option.map_eq_bind, Option.map_eq_bind]
  exact .bind x h

end

/-- **Bisimulation**: related states behave alike. -/
theorem sameAnswers_of_bisimulation {R : σ → σ → Prop}
    (step : ∀ s s' i, R s s' → Corresponds R (request s i) (request s' i)) (h : R s s') :
    SameAnswers request s s' := by
  intro is
  induction is generalizing s s' with
  | nil => rfl
  | cons i is ih =>
    have hstep := step s s' i h
    rw [answers, answers]
    revert hstep
    cases request s i with
    | none =>
      cases request s' i with
      | none => exact fun _ => rfl
      | some => exact False.elim
    | some a =>
      cases request s' i with
      | none => exact False.elim
      | some b =>
        rintro ⟨ho, ht⟩
        simp only [ho, ih ht]

/-- The first answers agree. -/
theorem SameAnswers.head (h : SameAnswers request s s') (i : ι) :
    (request s i).map Prod.fst = (request s' i).map Prod.fst := by
  have h := h [i]
  revert h
  rw [answers, answers]
  cases request s i <;> cases request s' i <;> simp [answers]

end CppTransport.Library
