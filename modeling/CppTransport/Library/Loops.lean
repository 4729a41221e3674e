import Mathlib.Algebra.BigOperators.Group.Finset.Basic
import Mathlib.Data.List.GetD

/-!
# Counted loops

A loop `for(i = 0; i < n; ++i)` is `Nat.fold n`: its body gets the counter, the
fact that the counter is in range, and the state so far. What a loop body does is
stated by a predicate that the whole loop satisfies again, with the rounds put
together, so that nested loops need one use of the rule at each level.

* `Adds`: a body that adds a term to an accumulator; the loop adds their sum.
* `AddsAt`: a body that adds a term to one entry of a vector.
* `Writes`: a body that either assigns a value to one entry of a vector or leaves
  the entry alone; the loop assigns it if some round does.
-/

namespace CppTransport.Library

variable {M : Type*} {n : ℕ}

/-! ### Loops that accumulate -/

section Sum

variable [AddCommMonoid M] {L p : ℕ} {c : M}

/-- `f` adds `c` to an accumulator. -/
def Adds (c : M) (f : M → M) : Prop := ∀ s, f s = s + c

theorem Adds.fold {f : (i : ℕ) → i < n → M → M} {g : ℕ → M} (h : ∀ i hi, Adds (g i) (f i hi)) :
    Adds (∑ i ∈ Finset.range n, g i) (fun s => n.fold f s) := by
  intro s
  induction n with
  | zero => simp
  | succ n ih =>
    have before : n.fold (fun i hi => f i (by omega)) s = _ := ih fun i hi => h i (by omega)
    simp only [Nat.fold_succ, Finset.sum_range_succ]
    rw [h n (by omega), before, add_assoc]

/-- `f` keeps the length `L` of a vector and adds `c` to the entry at `p`. -/
def AddsAt (L p : ℕ) (c : M) (f : List M → List M) : Prop :=
  ∀ v, v.length = L → (f v).length = L ∧ (f v).getD p 0 = v.getD p 0 + c

/-- A round that works entry by entry, in the entry in question by an addition. -/
theorem AddsAt.mapIdx {f : ℕ → M → M} (hp : p < L) (hf : Adds c (f p)) :
    AddsAt L p c (fun v => v.mapIdx f) := by
  intro v hv
  refine ⟨by simp [hv], ?_⟩
  simp [hv, hp, hf _]

/-- What is added to a vector of zeros. -/
theorem AddsAt.getD_replicate_zero {f : List M → List M} (h : AddsAt L p c f) (hp : p < L) :
    (f (List.replicate L 0)).getD p 0 = c := by
  have zero : (List.replicate L (0 : M)).getD p 0 = 0 := by simp [hp]
  obtain ⟨-, sum⟩ := h (List.replicate L 0) (by simp)
  rw [sum, zero, zero_add]

theorem AddsAt.comp {c₁ c₂ : M} {f₁ f₂ : List M → List M} (h₂ : AddsAt L p c₂ f₂)
    (h₁ : AddsAt L p c₁ f₁) : AddsAt L p (c₁ + c₂) (fun v => f₂ (f₁ v)) := by
  intro v hv
  obtain ⟨len, add⟩ := h₁ v hv
  obtain ⟨len', add'⟩ := h₂ _ len
  exact ⟨len', by rw [add', add, add_assoc]⟩

theorem AddsAt.fold {f : (i : ℕ) → i < n → List M → List M} {g : ℕ → M}
    (h : ∀ i hi, AddsAt L p (g i) (f i hi)) :
    AddsAt L p (∑ i ∈ Finset.range n, g i) (fun v => n.fold f v) := by
  intro v hv
  induction n with
  | zero => simp [hv]
  | succ n ih =>
    obtain ⟨len, add⟩ := ih (f := fun i hi => f i (by omega)) fun i hi => h i (by omega)
    obtain ⟨len', add'⟩ := h n (by omega) _ len
    simp only [Nat.fold_succ, Finset.sum_range_succ]
    exact ⟨len', by rw [add', add, add_assoc]⟩

end Sum

/-! ### Loops that fill a vector -/

section Fill

variable {L p : ℕ} {x d : M}

/-- `f` keeps the length `L` of a vector and, if `A`, leaves `x` at place `p`, otherwise what was
there. Places beyond the end read as `d`. -/
def Writes (L p : ℕ) (x d : M) (A : Prop) (f : List M → List M) : Prop :=
  ∀ v, v.length = L → (f v).length = L
    ∧ (A → (f v).getD p d = x) ∧ (¬ A → (f v).getD p d = v.getD p d)

/-- One assignment `v[q] = y`, where `y` is the value expected if `q` is the place in question. -/
theorem Writes.set {q : ℕ} {y : M} (hp : p < L) (hy : q = p → y = x) :
    Writes L p x d (q = p) (fun v => v.set q y) := by
  intro v hv
  refine ⟨by simp [hv], ?_, ?_⟩
  · rintro rfl
    simp [hv, hp, hy]
  · intro hq
    simp [List.getD_eq_getElem?_getD, List.getElem?_set_ne hq]

/-- A loop writes the place if one of its rounds does. -/
theorem Writes.fold {f : (i : ℕ) → i < n → List M → List M} {A : ℕ → Prop}
    (h : ∀ i hi, Writes L p x d (A i) (f i hi)) :
    Writes L p x d (∃ i < n, A i) (fun v => n.fold f v) := by
  intro v hv
  induction n with
  | zero => simp [hv]
  | succ n ih =>
    obtain ⟨len, written, kept⟩ := ih (f := fun i hi => f i (by omega)) fun i hi => h i (by omega)
    obtain ⟨len', written', kept'⟩ := h n (by omega) _ len
    simp only [Nat.fold_succ]
    refine ⟨len', ?_, ?_⟩
    · rintro ⟨i, hi, ha⟩
      by_cases hn : A n
      · exact written' hn
      · have hlt : i < n := by
          rcases Nat.lt_succ_iff_lt_or_eq.mp hi with h | rfl
          · exact h
          · exact absurd ha hn
        rw [kept' hn]
        exact written ⟨i, hlt, ha⟩
    · intro none
      have hn : ¬ A n := fun ha => none ⟨n, by omega, ha⟩
      rw [kept' hn]
      apply kept
      rintro ⟨i, hi, ha⟩
      exact none ⟨i, by omega, ha⟩

end Fill

end CppTransport.Library
