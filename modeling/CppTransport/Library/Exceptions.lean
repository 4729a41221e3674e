import Mathlib.Control.Basic
import Mathlib.Data.List.Forall2

/-!
# Computations that may throw

A sequence of calls, each of which may throw, returns if and only if each call returns.
-/

namespace CppTransport.Library

universe u v w

variable {ε : Type u} {α β : Type v} {ι : Type w}

@[simp] theorem ok_bind (a : α) (f : α → Except ε β) : (Except.ok a >>= f) = f a := rfl

@[simp] theorem error_bind (e : ε) (f : α → Except ε β) : (Except.error e >>= f) = .error e := rfl

theorem bind_eq_ok {x : Except ε α} {f : α → Except ε β} {b : β} :
    x >>= f = .ok b ↔ ∃ a, x = .ok a ∧ f a = .ok b := by
  cases x with
  | error e => simp [bind, Except.bind]
  | ok a => simp [bind, Except.bind]

theorem bind_eq_error {x : Except ε α} {f : α → Except ε β} {e : ε} :
    x >>= f = .error e ↔ x = .error e ∨ ∃ a, x = .ok a ∧ f a = .error e := by
  cases x with
  | error e => simp [bind, Except.bind]
  | ok a => simp [bind, Except.bind]

theorem pure_eq_ok {a b : α} : (pure a : Except ε α) = .ok b ↔ b = a := by
  simp [pure, Except.pure, eq_comm]

theorem forM_eq_ok {l : List ι} {f : ι → Except ε PUnit.{v + 1}} :
    forM l f = .ok ⟨⟩ ↔ ∀ i ∈ l, f i = .ok ⟨⟩ := by
  induction l with
  | nil => simp [pure, Except.pure]
  | cons i l ih =>
    rw [List.forM_cons, bind_eq_ok, List.forall_mem_cons, ← ih]
    exact ⟨fun ⟨_, hi, hl⟩ => ⟨hi, hl⟩, fun ⟨hi, hl⟩ => ⟨⟨⟩, hi, hl⟩⟩

/-- **Loops**: what each round establishes of the state that it leaves, and what it finds established, holds of what has
been gone through. `R a l b` says that the rounds for `l` lead from `a` to `b`. -/
theorem foldlM_eq_ok {R : β → List ι → β → Prop} {f : β → ι → Except ε β} {l : List ι} {a b : β}
    (nil : ∀ b, R b [] b) (cons : ∀ i l a b c, f a i = .ok b → R b l c → R a (i :: l) c) (h : l.foldlM f a = .ok b) :
    R a l b := by
  induction l generalizing a with
  | nil =>
    obtain rfl : a = b := by simpa [pure, Except.pure] using h
    exact nil a
  | cons i l ih =>
    rw [List.foldlM_cons] at h
    obtain ⟨c, first, rest⟩ := bind_eq_ok.mp h
    exact cons i l a c b first (ih rest)

/-- A list all of whose elements are mapped. -/
theorem exists_of_mapM_eq_ok {f : ι → Except ε α} {l : List ι} {as : List α} (h : l.mapM f = .ok as) :
    ∀ i ∈ l, ∃ a, f i = .ok a := by
  induction l generalizing as with
  | nil => exact fun _ hi => by cases hi
  | cons i l ih =>
    rw [List.mapM_cons] at h
    obtain ⟨a, first, rest⟩ := bind_eq_ok.mp h
    obtain ⟨as, later, -⟩ := bind_eq_ok.mp rest
    exact List.forall_mem_cons.mpr ⟨⟨a, first⟩, ih later⟩

/-- What a list is mapped to. -/
theorem forall₂_of_mapM_eq_ok {f : ι → Except ε α} {l : List ι} {as : List α} (h : l.mapM f = .ok as) :
    List.Forall₂ (fun i a => f i = .ok a) l as := by
  induction l generalizing as with
  | nil =>
    obtain rfl : as = [] := by simpa [pure_eq_ok] using h
    exact .nil
  | cons i l ih =>
    rw [List.mapM_cons] at h
    obtain ⟨a, first, rest⟩ := bind_eq_ok.mp h
    obtain ⟨as, later, rest⟩ := bind_eq_ok.mp rest
    obtain rfl := pure_eq_ok.mp rest
    exact .cons first (ih later)

/-- If a list is not mapped, one of its elements is not. -/
theorem exists_of_mapM_eq_error {f : ι → Except ε α} {l : List ι} {e : ε} (h : l.mapM f = .error e) :
    ∃ i ∈ l, f i = .error e := by
  induction l with
  | nil => cases h
  | cons i l ih =>
    rw [List.mapM_cons] at h
    rcases bind_eq_error.mp h with first | ⟨a, -, rest⟩
    · exact ⟨i, List.mem_cons_self, first⟩
    · rcases bind_eq_error.mp rest with later | ⟨as, -, done⟩
      · obtain ⟨j, hj, hfails⟩ := ih later
        exact ⟨j, List.mem_cons_of_mem _ hj, hfails⟩
      · cases done

/-- A list is mapped if each of its elements is. -/
theorem exists_mapM_eq_ok {f : ι → Except ε α} {R : ι → α → Prop} {l : List ι}
    (h : ∀ i ∈ l, ∃ a, f i = .ok a ∧ R i a) : ∃ as, l.mapM f = .ok as ∧ List.Forall₂ R l as := by
  induction l with
  | nil => exact ⟨[], rfl, .nil⟩
  | cons i l ih =>
    obtain ⟨a, first, related⟩ := h i List.mem_cons_self
    obtain ⟨as, later, all⟩ := ih fun i hi => h i (List.mem_cons_of_mem _ hi)
    exact ⟨a :: as, by rw [List.mapM_cons, first, ok_bind, later]; rfl, .cons related all⟩

end CppTransport.Library
