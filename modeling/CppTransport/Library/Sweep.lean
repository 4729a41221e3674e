import Mathlib.Data.List.Basic

/-!
# Sweeps

A store is swept: one item after another is examined, and removed if it may be, which may depend on
what is still there. A sweep removes what may be removed when it is examined (`not_holds_run_iff`),
and two sweeps that agree on what they find along the run of one of them have the same run
(`agree_trace_iff`).
-/

namespace CppTransport.Library

/-- How items are removed from a store, and which may be. -/
structure Sweep (σ ι : Type*) where
  remove : σ → ι → σ
  can : σ → ι → Bool

namespace Sweep

variable {σ ι : Type*}

/-- An item is examined. -/
def step (w : Sweep σ ι) (s : σ) (i : ι) : σ := if w.can s i then w.remove s i else s

/-- The items are examined, one after the other. -/
def run (w : Sweep σ ι) (s : σ) (l : List ι) : σ := l.foldl w.step s

/-- The items, each with the store when it is examined. -/
def trace (w : Sweep σ ι) : σ → List ι → List (ι × σ)
  | _, [] => []
  | s, i :: l => (i, s) :: w.trace (w.step s i) l

variable {w w' : Sweep σ ι} {s : σ} {i : ι} {l m : List ι}

@[simp] theorem run_nil : w.run s [] = s := rfl

@[simp] theorem run_cons : w.run s (i :: l) = w.run (w.step s i) l := rfl

@[simp] theorem trace_nil : w.trace s [] = [] := rfl

@[simp] theorem trace_cons : w.trace s (i :: l) = (i, s) :: w.trace (w.step s i) l := rfl

theorem run_append : w.run s (l ++ m) = w.run (w.run s l) m := List.foldl_append

theorem trace_append : w.trace s (l ++ m) = w.trace s l ++ w.trace (w.run s l) m := by
  induction l generalizing s with
  | nil => rfl
  | cons i l ih => simp [ih]

@[simp] theorem map_fst_trace : (w.trace s l).map Prod.fst = l := by
  induction l generalizing s with
  | nil => rfl
  | cons i l ih => simp [ih]

/-- Do two sweeps remove the same of what is examined? -/
def Agree (w w' : Sweep σ ι) (examined : List (ι × σ)) : Prop := ∀ e ∈ examined, w.can e.2 e.1 = w'.can e.2 e.1

theorem trace_eq_of_agree (hremove : w.remove = w'.remove) (h : Agree w w' (w.trace s l)) :
    w.trace s l = w'.trace s l := by
  induction l generalizing s with
  | nil => rfl
  | cons i l ih =>
    obtain ⟨hi, hl⟩ := List.forall_mem_cons.mp h
    have hstep : w.step s i = w'.step s i := by rw [step, step, hi, hremove]
    rw [trace_cons, trace_cons, ih hl, hstep]

/-- Sweeps agree along the run of one if they do along the run of the other. -/
theorem agree_trace_iff (hremove : w.remove = w'.remove) :
    Agree w w' (w.trace s l) ↔ Agree w w' (w'.trace s l) := by
  constructor
  · intro h
    rwa [← trace_eq_of_agree hremove h]
  · intro h
    have hsymm : Agree w' w (w'.trace s l) := fun e he => (h e he).symm
    rwa [← trace_eq_of_agree hremove.symm hsymm]

section Holds

variable {Holds : σ → ι → Prop} (hremove : ∀ s i j, Holds s i → (Holds (w.remove s i) j ↔ Holds s j ∧ j ≠ i))
include hremove

theorem holds_step (hi : Holds s i) {j : ι} : Holds (w.step s i) j ↔ Holds s j ∧ (j = i → w.can s i = false) := by
  rw [step]
  by_cases hcan : w.can s i = true
  · rw [if_pos hcan, hremove s i j hi, hcan]
    simp
  · rw [if_neg hcan]
    simp [hcan]

/-- What is not examined stays. -/
theorem holds_run (hl : ∀ i ∈ l, Holds s i) (hnodup : l.Nodup) {j : ι} (hj : j ∉ l) :
    Holds (w.run s l) j ↔ Holds s j := by
  induction l generalizing s with
  | nil => rfl
  | cons i l ih =>
    obtain ⟨hi, hl⟩ := List.forall_mem_cons.mp hl
    obtain ⟨hnot, hnodup⟩ := List.nodup_cons.mp hnodup
    rw [List.mem_cons, not_or] at hj
    rw [run_cons, ih ?_ hnodup hj.2, holds_step hremove hi]
    · simp [hj.1]
    · exact fun k hk => (holds_step hremove hi).mpr ⟨hl k hk, fun heq => absurd (heq ▸ hk) hnot⟩

/-- **What is removed** is what may be when it is examined. -/
theorem not_holds_run_iff (hl : ∀ i ∈ l, Holds s i) (hnodup : l.Nodup) {e : ι × σ} (he : e ∈ w.trace s l) :
    ¬ Holds (w.run s l) e.1 ↔ w.can e.2 e.1 = true := by
  induction l generalizing s with
  | nil => simp at he
  | cons i l ih =>
    obtain ⟨hi, hl⟩ := List.forall_mem_cons.mp hl
    obtain ⟨hnot, hnodup⟩ := List.nodup_cons.mp hnodup
    have hl' : ∀ k ∈ l, Holds (w.step s i) k := fun k hk =>
      (holds_step hremove hi).mpr ⟨hl k hk, fun heq => absurd (heq ▸ hk) hnot⟩
    rcases List.mem_cons.mp he with rfl | he
    · rw [run_cons, holds_run hremove hl' hnodup hnot, holds_step hremove hi]
      simp [hi]
    · exact ih hl' hnodup he

end Holds

end Sweep

end CppTransport.Library
