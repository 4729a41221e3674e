import Mathlib.Init

/-!
# Computations with state and exceptions

A computation in `EStateM` returns a value or throws an exception, and what it has done to the
state stays done in either case. `wp` is what must hold for a computation to end as wanted:
`Q` of the value and the state, if it returns, and `E` of the exception and the state, if it
throws. There is one rule for each way to build a computation.
-/

namespace CppTransport.Library

universe u

variable {ε σ α β : Type u} {Q Q' : α → σ → Prop} {E E' : ε → σ → Prop} {m : EStateM ε σ α} {s : σ}

theorem get_run (s : σ) : (get : EStateM ε σ σ) s = .ok s s := rfl

theorem modify_run (f : σ → σ) (s : σ) : (modify f : EStateM ε σ PUnit) s = .ok ⟨⟩ (f s) := rfl

/-- The computation, begun in `s`, returns with `Q` or throws with `E`. -/
def wp (m : EStateM ε σ α) (Q : α → σ → Prop) (E : ε → σ → Prop) (s : σ) : Prop :=
  match m s with
  | .ok a s' => Q a s'
  | .error e s' => E e s'

@[simp] theorem wp_pure (a : α) : wp (pure a : EStateM ε σ α) Q E s ↔ Q a s := .rfl

@[simp] theorem wp_throw (e : ε) : wp (throw e : EStateM ε σ α) Q E s ↔ E e s := .rfl

@[simp] theorem wp_bind (f : α → EStateM ε σ β) {R : β → σ → Prop} :
    wp (m >>= f) R E s ↔ wp m (fun a s' => wp (f a) R E s') E s := by
  simp only [wp, bind, EStateM.bind]
  cases m s <;> rfl

/-- Two computations, one after the other, return if both do. -/
theorem bind_returns_iff {f : α → EStateM ε σ β} {b : β} {s' : σ} :
    (m >>= f) s = .ok b s' ↔ ∃ a s₁, m s = .ok a s₁ ∧ f a s₁ = .ok b s' := by
  simp only [bind, EStateM.bind]
  cases m s with
  | ok a s₁ => simp [and_assoc]
  | error e s₁ => simp

/-- When the first computation returns, the second goes on. -/
theorem wp_bind_of_ok {f : α → EStateM ε σ β} {R : β → σ → Prop} {a : α} {s' : σ} (h : m s = .ok a s') :
    wp (m >>= f) R E s ↔ wp (f a) R E s' := by
  rw [wp_bind, wp, h]

@[simp] theorem wp_get {Q : σ → σ → Prop} : wp (get : EStateM ε σ σ) Q E s ↔ Q s s := .rfl

@[simp] theorem wp_modify {Q : PUnit → σ → Prop} (f : σ → σ) :
    wp (modify f : EStateM ε σ PUnit) Q E s ↔ Q ⟨⟩ (f s) := .rfl

/-- A computation that ends as wanted also ends as wanted less. -/
theorem wp_imp (h : wp m Q E s) (hQ : ∀ a s', Q a s' → Q' a s') (hE : ∀ e s', E e s' → E' e s') : wp m Q' E' s := by
  unfold wp at *
  cases hm : m s with
  | ok a s' => simpa [hm] using hQ a s' (by simpa [hm] using h)
  | error e s' => simpa [hm] using hE e s' (by simpa [hm] using h)

/-- What is known of a run that returns. -/
theorem wp_ok {a : α} {s' : σ} (h : wp m Q E s) (hm : m s = .ok a s') : Q a s' := by
  rw [wp, hm] at h
  exact h

/-- What is known of a run that throws. -/
theorem wp_error {e : ε} {s' : σ} (h : wp m Q E s) (hm : m s = .error e s') : E e s' := by
  rw [wp, hm] at h
  exact h

theorem wp_iff_of_ok {a : α} {s' : σ} (hm : m s = .ok a s') : wp m Q E s ↔ Q a s' := by
  rw [wp, hm]

theorem wp_iff_of_error {e : ε} {s' : σ} (hm : m s = .error e s') : wp m Q E s ↔ E e s' := by
  rw [wp, hm]

/-- Try a computation; if it throws what `catches`, go on with another, in the state in which it has thrown. -/
def tryCatchWhen (catches : ε → Bool) (m handler : EStateM ε σ α) : EStateM ε σ α := fun s =>
  match m s with
  | .ok a s' => .ok a s'
  | .error e s' => if catches e then handler s' else .error e s'

@[simp] theorem wp_tryCatchWhen (catches : ε → Bool) (handler : EStateM ε σ α) :
    wp (tryCatchWhen catches m handler) Q E s ↔
      wp m Q (fun e s' => if catches e then wp handler Q E s' else E e s') s := by
  simp only [wp, tryCatchWhen]
  cases m s with
  | ok a s' => rfl
  | error e s' => cases h : catches e <;> simp [h]

/-- Try a computation; if it throws what there is a handler for, go on with that, in the state in which it has
thrown. -/
def tryCatchSome (handler : ε → Option (EStateM ε σ α)) (m : EStateM ε σ α) : EStateM ε σ α := fun s =>
  match m s with
  | .ok a s' => .ok a s'
  | .error e s' =>
    match handler e with
    | some h => h s'
    | none => .error e s'

theorem tryCatchSome_ok {handler : ε → Option (EStateM ε σ α)} {a : α} {s' : σ} (h : m s = .ok a s') :
    tryCatchSome handler m s = .ok a s' := by
  rw [tryCatchSome, h]

theorem tryCatchSome_error {handler : ε → Option (EStateM ε σ α)} {e : ε} {s' : σ} (h : m s = .error e s') :
    tryCatchSome handler m s =
      match handler e with
      | some h => h s'
      | none => .error e s' := by
  rw [tryCatchSome, h]

end CppTransport.Library
