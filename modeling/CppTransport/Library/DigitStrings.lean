import Mathlib.Data.List.Lex
import Mathlib.Tactic.IntervalCases

/-!
# Numbers of a fixed number of digits

A number written with leading zeros, so that it takes a given number of characters. Among such
texts the order of strings is the order of numbers (`decimal_lt_decimal`), whatever comes behind
(`decimal_append_lt`): so a list of numbers, each with its own width, can be compared as a text.
-/

namespace CppTransport.Library

/-- `n` in decimal, in `w` characters: what does not fit is cut off at the front. -/
def decimal : ℕ → ℕ → List Char
  | 0, _ => []
  | w + 1, n => decimal w (n / 10) ++ [Nat.digitChar (n % 10)]

@[simp] theorem length_decimal (w n : ℕ) : (decimal w n).length = w := by
  induction w generalizing n with
  | zero => rfl
  | succ w ih => rw [decimal, List.length_append, ih, List.length_singleton]

theorem digitChar_lt_digitChar {a b : ℕ} (h : a < b) (hb : b < 10) : Nat.digitChar a < Nat.digitChar b := by
  interval_cases b <;> interval_cases a <;> decide

/-- Every character is a digit. -/
theorem isDigit_of_mem_decimal {w n : ℕ} {c : Char} (h : c ∈ decimal w n) : c.isDigit := by
  induction w generalizing n with
  | zero => simp [decimal] at h
  | succ w ih =>
    rcases List.mem_append.mp h with h | h
    · exact ih h
    · rw [List.mem_singleton.mp h]
      have small : n % 10 < 10 := Nat.mod_lt n (by decide)
      interval_cases n % 10 <;> decide

section Order

variable {α : Type*} [LT α] {l₁ l₂ : List α}

/-- If neither of two lists is the start of the other, it does not matter what comes behind. -/
theorem append_lt_append_of_lt (h : l₁ < l₂) (length : l₁.length = l₂.length) (t₁ t₂ : List α) : l₁ ++ t₁ < l₂ ++ t₂ := by
  induction l₁ generalizing l₂ with
  | nil =>
    cases l₂ with
    | nil => exact absurd h (List.not_lt_nil [])
    | cons => simp at length
  | cons a l₁ ih =>
    cases l₂ with
    | nil => simp at length
    | cons b l₂ =>
      rw [List.cons_append, List.cons_append, List.cons_lt_cons_iff]
      rcases List.cons_lt_cons_iff.mp h with hab | ⟨rfl, rest⟩
      · exact .inl hab
      · exact .inr ⟨rfl, ih rest (by simpa using length)⟩

theorem append_lt_append_left_of_lt {t₁ t₂ : List α} (l : List α) (h : t₁ < t₂) : l ++ t₁ < l ++ t₂ := by
  induction l with
  | nil => exact h
  | cons a l ih => exact List.cons_lt_cons_iff.mpr (.inr ⟨rfl, ih⟩)

end Order

/-- **The order of texts is the order of numbers**. -/
theorem decimal_lt_decimal {w n m : ℕ} (h : n < m) (hm : m < 10 ^ w) : decimal w n < decimal w m := by
  induction w generalizing n m with
  | zero => omega
  | succ w ih =>
    rw [decimal, decimal]
    have hm' : m / 10 < 10 ^ w := by
      rw [Nat.div_lt_iff_lt_mul (by decide), ← pow_succ]
      exact hm
    rcases Nat.lt_or_ge (n / 10) (m / 10) with front | front
    · exact append_lt_append_of_lt (ih front hm') (by simp) _ _
    · -- the last digit decides
      have same : n / 10 = m / 10 := by omega
      have last : n % 10 < m % 10 := by omega
      rw [same]
      exact append_lt_append_left_of_lt _
        (List.cons_lt_cons_iff.mpr (.inl (digitChar_lt_digitChar last (Nat.mod_lt m (by decide)))))

/-- One number, and what comes behind it. -/
theorem decimal_append_lt {w n m : ℕ} {s t : List Char} (h : n < m ∨ n = m ∧ s < t) (hm : m < 10 ^ w) :
    decimal w n ++ s < decimal w m ++ t := by
  rcases h with h | ⟨rfl, h⟩
  · exact append_lt_append_of_lt (decimal_lt_decimal h hm) (by simp) s t
  · exact append_lt_append_left_of_lt _ h

end CppTransport.Library
