import Mathlib.Data.Nat.ModEq
import Mathlib.Data.Set.Defs
import Mathlib.Order.Notation

/-!
# Runs of numbers that wrap around

Each key has a run of `n` consecutive numbers, and the runs are apart from one another, in the order of the keys.
Reduced by a modulus, the numbers still increase along all the runs just if no multiple of it falls inside a run, and
two runs that have multiples between them are at least as far apart as the multiples.
-/

namespace CppTransport.Library.WrappedRuns

/-- Reduced by a modulus, two numbers keep their order just if they are further apart than the multiples between
them. -/
theorem mod_lt_mod_iff {M a b : ℕ} (hab : a < b) : a % M < b % M ↔ (b / M - a / M) * M < b - a := by
  have le : a / M * M ≤ b / M * M := Nat.mul_le_mul_right M (Nat.div_le_div_right hab.le)
  have ha := Nat.div_add_mod a M
  have hb := Nat.div_add_mod b M
  rw [Nat.mul_comm] at ha hb
  rw [Nat.sub_mul]
  omega

variable {κ : Type*} [LT κ]

/-- Each run ends before the next one starts. -/
def Apart (n : ℕ) (first : κ → ℕ) (keys : Set κ) : Prop :=
  ∀ k ∈ keys, ∀ k' ∈ keys, k < k' → first k + n ≤ first k'

/-- The reduced numbers increase with their keys, and within a run. -/
def Increasing (M n : ℕ) (first : κ → ℕ) (keys : Set κ) : Prop :=
  ∀ k ∈ keys, ∀ k' ∈ keys, ∀ o < n, ∀ o' < n, k < k' ∨ k = k' ∧ o < o' → (first k + o) % M < (first k' + o') % M

structure Fits (M n : ℕ) (first : κ → ℕ) (keys : Set κ) : Prop where
  /-- No multiple falls inside a run. -/
  within : ∀ k ∈ keys, first k % M + n ≤ M
  /-- Multiples between two runs are made up for by the numbers between them. -/
  between : ∀ k ∈ keys, ∀ k' ∈ keys, k < k' → (first k' / M - first k / M) * M ≤ first k' - (first k + n)

variable {M n : ℕ} {first : κ → ℕ} {keys : Set κ}

/-- Inside a run that no multiple falls into there is no wrap. -/
theorem inside {a o : ℕ} (fits : a % M + n ≤ M) (ho : o < n) : (a + o) % M = a % M + o ∧ (a + o) / M = a / M := by
  have split := Nat.div_add_mod a M
  have sum : a + o = a % M + o + M * (a / M) := by omega
  rw [sum, Nat.add_mul_mod_self_left, Nat.add_mul_div_left _ _ (by omega), Nat.mod_eq_of_lt (by omega),
    Nat.div_eq_of_lt (by omega), Nat.zero_add]
  exact ⟨rfl, rfl⟩

theorem Fits.increasing (h : Fits M n first keys) (apart : Apart n first keys) : Increasing M n first keys := by
  rintro k hk k' hk' o ho o' ho' (hlt | ⟨rfl, hlt⟩)
  · have hapart := apart k hk k' hk' hlt
    have hbetween := h.between k hk k' hk' hlt
    rw [mod_lt_mod_iff (by omega), (inside (h.within k hk) ho).2, (inside (h.within k' hk') ho').2]
    omega
  · rw [(inside (h.within k hk) ho).1, (inside (h.within k hk) ho').1]
    omega

/-- The last number before a multiple cannot be followed by the multiple. -/
theorem Increasing.within (h : Increasing M n first keys) (pos : 0 < M) {k : κ} (hk : k ∈ keys) :
    first k % M + n ≤ M := by
  by_contra beyond
  have last := Nat.mod_lt (first k) pos
  have split := Nat.div_add_mod (first k) M
  have step := h k hk k hk (M - first k % M - 1) (by omega) (M - first k % M) (by omega) (.inr ⟨rfl, by omega⟩)
  have multiple : first k + (M - first k % M) = M * (first k / M + 1) := by
    rw [Nat.mul_add]
    omega
  rw [multiple, Nat.mul_mod_right] at step
  exact absurd step (Nat.not_lt_zero _)

/-- **Runs that wrap around** increase just if they fit. -/
theorem increasing_iff (pos : 0 < M) (some : 0 < n) (apart : Apart n first keys) :
    Increasing M n first keys ↔ Fits M n first keys := by
  refine ⟨fun h => ⟨fun k hk => h.within pos hk, fun k hk k' hk' hlt => ?_⟩, fun h => h.increasing apart⟩
  have hapart := apart k hk k' hk' hlt
  -- the last number of the one run, and the first of the other
  have step := h k hk k' hk' (n - 1) (by omega) 0 some (.inl hlt)
  rw [Nat.add_zero, mod_lt_mod_iff (by omega), (inside (h.within pos hk) (by omega)).2] at step
  omega

/-- Without a wrap they increase. -/
theorem increasing_of_le (h : ∀ k ∈ keys, first k + n ≤ M) (apart : Apart n first keys) :
    Increasing M n first keys := by
  intro k hk k' hk' o ho o' ho' before
  have below := h k hk
  have below' := h k' hk'
  rw [Nat.mod_eq_of_lt (by omega), Nat.mod_eq_of_lt (by omega)]
  rcases before with hlt | ⟨rfl, hlt⟩
  · have := apart k hk k' hk' hlt
    omega
  · omega

end CppTransport.Library.WrappedRuns
