import CppTransport.Library.StateExceptions
import Mathlib.Data.Nat.Notation
import Mathlib.Tactic.Common

/-!
# Repeating a computation

A computation with state and exceptions is repeated until a condition on the state holds or it
throws. `repeatUntil` tries with a given number of rounds, and `Ends` says that some number is
enough. What a few rounds do (`Rounds`) can be taken off the beginning.
-/

namespace CppTransport.Library

universe u

variable {ε σ : Type u} (done : σ → Prop) [DecidablePred done] (m : EStateM ε σ PUnit)

/-- Repeat a computation until it is done, in at most so many rounds. -/
def repeatUntil : ℕ → σ → Option (EStateM.Result ε σ PUnit)
  | 0, s => if done s then some (.ok ⟨⟩ s) else none
  | n + 1, s =>
    if done s then some (.ok ⟨⟩ s)
    else
      match m s with
      | .ok _ s' => repeatUntil n s'
      | .error e s' => some (.error e s')

/-- The repetition ends. -/
def Ends (s : σ) (r : EStateM.Result ε σ PUnit) : Prop := ∃ n, repeatUntil done m n s = some r

omit [DecidablePred done] in
/-- So many rounds lead from one state to another. -/
inductive Rounds : ℕ → σ → σ → Prop where
  | refl (s : σ) : Rounds 0 s s
  | head {n : ℕ} {s s₁ s' : σ} (hdone : ¬ done s) (hm : m s = .ok ⟨⟩ s₁) (hrest : Rounds n s₁ s') : Rounds (n + 1) s s'

variable {done m} {n k : ℕ} {s s₁ s₂ s' : σ} {r r' : EStateM.Result ε σ PUnit}

omit [DecidablePred done] in
theorem Rounds.single (hdone : ¬ done s) (hm : m s = .ok ⟨⟩ s') : Rounds done m 1 s s' := .head hdone hm (.refl s')

omit [DecidablePred done] in
theorem Rounds.trans (h : Rounds done m n s s₁) (h' : Rounds done m k s₁ s₂) : Rounds done m (n + k) s s₂ := by
  induction h with
  | refl s => rwa [Nat.zero_add]
  | head hdone hm _ ih =>
    rw [Nat.succ_add]
    exact .head hdone hm (ih h')

/-- The first rounds can be left out. -/
theorem repeatUntil_rounds (h : Rounds done m k s s') (n : ℕ) :
    repeatUntil done m (k + n) s = repeatUntil done m n s' := by
  induction h with
  | refl s => rw [Nat.zero_add]
  | head hdone hm _ ih =>
    rw [Nat.succ_add, repeatUntil, if_neg hdone, hm]
    exact ih

theorem repeatUntil_of_done (n : ℕ) (h : done s) : repeatUntil done m n s = some (.ok ⟨⟩ s) := by
  cases n <;> rw [repeatUntil, if_pos h]

/-- More rounds do not change the result. -/
theorem repeatUntil_succ (h : repeatUntil done m n s = some r) : repeatUntil done m (n + 1) s = some r := by
  induction n generalizing s with
  | zero =>
    by_cases hdone : done s
    · rwa [repeatUntil_of_done _ hdone] at h ⊢
    · rw [repeatUntil, if_neg hdone] at h
      cases h
  | succ n ih =>
    by_cases hdone : done s
    · rwa [repeatUntil_of_done _ hdone] at h ⊢
    · rw [repeatUntil, if_neg hdone] at h ⊢
      cases hm : m s with
      | ok a s₁ =>
        rw [hm] at h
        exact ih h
      | error e s₁ =>
        rw [hm] at h
        exact h

theorem repeatUntil_mono (h : repeatUntil done m n s = some r) (hle : n ≤ k) : repeatUntil done m k s = some r := by
  induction hle with
  | refl => exact h
  | step _ ih => exact repeatUntil_succ ih

theorem Ends.unique (h : Ends done m s r) (h' : Ends done m s r') : r = r' := by
  obtain ⟨n, hn⟩ := h
  obtain ⟨k, hk⟩ := h'
  have hmax := repeatUntil_mono hn (Nat.le_max_left n k)
  rw [repeatUntil_mono hk (Nat.le_max_right n k)] at hmax
  exact (Option.some.inj hmax).symm

theorem Ends.of_done (h : done s) : Ends done m s (.ok ⟨⟩ s) := ⟨0, by rw [repeatUntil, if_pos h]⟩

theorem Ends.of_error {e : ε} (hdone : ¬ done s) (hm : m s = .error e s') : Ends done m s (.error e s') :=
  ⟨1, by rw [repeatUntil, if_neg hdone, hm]⟩

theorem Rounds.ends_iff (h : Rounds done m k s s') : Ends done m s r ↔ Ends done m s' r := by
  constructor
  · rintro ⟨n, hn⟩
    refine ⟨n, ?_⟩
    rw [← repeatUntil_rounds h]
    exact repeatUntil_mono hn (Nat.le_add_left n k)
  · rintro ⟨n, hn⟩
    exact ⟨k + n, by rw [repeatUntil_rounds h, hn]⟩

/-- A repetition that ends without an exception has gone through so many rounds. -/
theorem Ends.rounds (h : Ends done m s (.ok ⟨⟩ s')) : ∃ n, Rounds done m n s s' ∧ done s' := by
  obtain ⟨n, hn⟩ := h
  induction n generalizing s with
  | zero =>
    by_cases hdone : done s
    · rw [repeatUntil_of_done _ hdone] at hn
      cases hn
      exact ⟨0, .refl _, hdone⟩
    · rw [repeatUntil, if_neg hdone] at hn
      cases hn
  | succ n ih =>
    by_cases hdone : done s
    · rw [repeatUntil_of_done _ hdone] at hn
      cases hn
      exact ⟨0, .refl _, hdone⟩
    · rw [repeatUntil, if_neg hdone] at hn
      cases hm : m s with
      | ok a s₁ =>
        rw [hm] at hn
        obtain ⟨k, hk, hdone'⟩ := ih hn
        exact ⟨k + 1, .head hdone hm hk, hdone'⟩
      | error e s₁ =>
        rw [hm] at hn
        cases hn

omit [DecidablePred done] in
theorem Rounds.concat (h : Rounds done m n s s₁) (hdone : ¬ done s₁) (hm : m s₁ = .ok ⟨⟩ s') :
    Rounds done m (n + 1) s s' := h.trans (.single hdone hm)

/-- Fewer rounds do not come to the end. -/
theorem repeatUntil_of_lt (h : Rounds done m k s s') (hlt : n < k) : repeatUntil done m n s = none := by
  induction h generalizing n with
  | refl => cases hlt
  | head hdone hm _ ih =>
    cases n with
    | zero => rw [repeatUntil, if_neg hdone]
    | succ n =>
      rw [repeatUntil, if_neg hdone, hm]
      exact ih (Nat.lt_of_succ_lt_succ hlt)

/-- The rule for repetitions that do not end: from every state of some kind rounds lead to another one. -/
theorem not_ends {I : σ → Prop} (hI : ∀ s, I s → ∃ k s', Rounds done m (k + 1) s s' ∧ I s') (h : I s) :
    ¬ Ends done m s r := by
  rintro ⟨n, hn⟩
  induction n using Nat.strongRecOn generalizing s with
  | ind n ih =>
    obtain ⟨k, s', hrounds, hs'⟩ := hI s h
    by_cases hlt : n < k + 1
    · rw [repeatUntil_of_lt hrounds hlt] at hn
      cases hn
    · obtain ⟨j, rfl⟩ := Nat.exists_eq_add_of_le (Nat.not_lt.mp hlt)
      rw [repeatUntil_rounds hrounds] at hn
      exact ih j (by omega) hs' hn

/-- The rule for repetitions that end: every round keeps an invariant, and makes a measure smaller unless it is the
last one. -/
theorem ends_of_measure {I : σ → Prop} (measure : σ → ℕ)
    (hI : ∀ s, I s → ¬ done s → ∃ s', m s = .ok ⟨⟩ s' ∧ I s' ∧ (done s' ∨ measure s' < measure s)) (h : I s) :
    ∃ s', Ends done m s (.ok ⟨⟩ s') ∧ I s' := by
  induction hμ : measure s using Nat.strongRecOn generalizing s with
  | ind n ih =>
    by_cases hdone : done s
    · exact ⟨s, .of_done hdone, h⟩
    obtain ⟨s₁, hm, hI₁, hless⟩ := hI s h hdone
    have hround : Rounds done m 1 s s₁ := .single hdone hm
    by_cases hdone₁ : done s₁
    · exact ⟨s₁, hround.ends_iff.mpr (.of_done hdone₁), hI₁⟩
    obtain ⟨s', hends, hI'⟩ := ih (measure s₁) (hμ ▸ hless.resolve_left hdone₁) hI₁ rfl
    exact ⟨s', hround.ends_iff.mpr hends, hI'⟩

end CppTransport.Library
