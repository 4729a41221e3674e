import Mathlib.Data.List.Destutter
import Mathlib.Data.List.Sort

/-!
# Sets kept as sorted lists

A list without repetitions, in increasing order, stands for a finite set. `sortedUnion` adds
elements to it: sort them, merge the two lists, and drop what repeats its neighbour. What comes of
a sequence of unions is in increasing order (`pairwise_sortedUnions`), and has just the elements of
the lists added (`mem_sortedUnions`), so it depends neither on their order nor on how often an
element occurs.
-/

namespace CppTransport.Library

variable {α : Type*} [LinearOrder α]

/-- Add elements to a sorted list. -/
def sortedUnion (l new : List α) : List α :=
  (List.merge l (new.insertionSort (· ≤ ·)) fun a b => decide (a ≤ b)).destutter (· ≠ ·)

/-- Add one list after another. -/
def sortedUnions (lists : List (List α)) : List α := lists.foldl sortedUnion []

variable {l new : List α} {lists : List (List α)} {a : α}

/-- No element is lost when neighbours that are equal are dropped. -/
theorem mem_destutter'_ne {b : α} : a ∈ l.destutter' (· ≠ ·) b ↔ a = b ∨ a ∈ l := by
  induction l generalizing b with
  | nil => simp
  | cons c l ih =>
    by_cases h : b = c
    · subst h
      rw [List.destutter'_cons_neg _ (by simp), ih, List.mem_cons]
      tauto
    · rw [List.destutter'_cons_pos _ h, List.mem_cons, ih, List.mem_cons]

theorem mem_destutter_ne : a ∈ l.destutter (· ≠ ·) ↔ a ∈ l := by
  cases l with
  | nil => rfl
  | cons b l => rw [List.destutter_cons', mem_destutter'_ne, List.mem_cons]

@[simp] theorem mem_sortedUnion : a ∈ sortedUnion l new ↔ a ∈ l ∨ a ∈ new := by
  simp [sortedUnion, mem_destutter_ne, List.mem_merge]

/-- A sorted list without equal neighbours increases. -/
theorem pairwise_lt_of_isChain_ne (hsorted : l.Pairwise (· ≤ ·)) (hne : l.IsChain (· ≠ ·)) : l.Pairwise (· < ·) := by
  have hchain : l.IsChain (· < ·) := by
    induction l with
    | nil => exact .nil
    | cons a l ih =>
      rw [List.pairwise_cons] at hsorted
      rw [List.isChain_cons] at hne ⊢
      refine ⟨fun b hb => ?_, ih hsorted.2 hne.2⟩
      exact lt_of_le_of_ne (hsorted.1 b (List.mem_of_mem_head? hb)) (hne.1 b hb)
  exact List.isChain_iff_pairwise.mp hchain

theorem pairwise_sortedUnion (h : l.Pairwise (· < ·)) : (sortedUnion l new).Pairwise (· < ·) := by
  have hmerge : (List.merge l (new.insertionSort (· ≤ ·)) fun a b => decide (a ≤ b)).Pairwise (· ≤ ·) := by
    have hboth := @List.pairwise_merge α (fun a b => decide (a ≤ b))
      (fun a b c hab hbc => by simpa using le_trans (of_decide_eq_true hab) (of_decide_eq_true hbc))
      (fun a b => by simpa using le_total a b) l (new.insertionSort (· ≤ ·))
      (h.imp fun hab => by simpa using hab.le)
      ((List.pairwise_insertionSort (· ≤ ·) new).imp fun hab => by simpa using hab)
    exact hboth.imp fun hab => by simpa using hab
  exact pairwise_lt_of_isChain_ne (hmerge.sublist (List.destutter_sublist _ _)) (List.isChain_destutter _ _)

theorem mem_foldl_sortedUnion : a ∈ lists.foldl sortedUnion l ↔ a ∈ l ∨ ∃ new ∈ lists, a ∈ new := by
  induction lists generalizing l with
  | nil => simp
  | cons new lists ih =>
    rw [List.foldl_cons, ih, mem_sortedUnion]
    simp only [List.mem_cons, exists_eq_or_imp, or_assoc]

@[simp] theorem mem_sortedUnions : a ∈ sortedUnions lists ↔ ∃ new ∈ lists, a ∈ new := by
  simp [sortedUnions, mem_foldl_sortedUnion]

theorem pairwise_sortedUnions (lists : List (List α)) : (sortedUnions lists).Pairwise (· < ·) := by
  have hfold : ∀ l : List α, l.Pairwise (· < ·) → (lists.foldl sortedUnion l).Pairwise (· < ·) := by
    induction lists with
    | nil => exact fun l h => h
    | cons new lists ih => exact fun l h => ih _ (pairwise_sortedUnion h)
  exact hfold [] .nil

/-- The result is empty just if nothing has been added. -/
theorem sortedUnions_eq_nil_iff : sortedUnions lists = [] ↔ ∀ new ∈ lists, new = [] := by
  simp only [List.eq_nil_iff_forall_not_mem, mem_sortedUnions, not_exists, not_and]
  exact ⟨fun h new hnew a => h a new hnew, fun h a new hnew => h new hnew a⟩

/-- The result is one element just if that, and no other, has been added. -/
theorem sortedUnions_eq_singleton_iff :
    sortedUnions lists = [a] ↔ (∃ new ∈ lists, a ∈ new) ∧ ∀ new ∈ lists, ∀ b ∈ new, b = a := by
  constructor
  · intro h
    have hmem : ∀ b, (∃ new ∈ lists, b ∈ new) ↔ b = a := by
      intro b
      rw [← mem_sortedUnions, h, List.mem_singleton]
    exact ⟨(hmem a).mpr rfl, fun new hnew b hb => (hmem b).mp ⟨new, hnew, hb⟩⟩
  · rintro ⟨ha, hall⟩
    have hmem : ∀ b ∈ sortedUnions lists, b = a := by
      intro b hb
      obtain ⟨new, hnew, hb⟩ := mem_sortedUnions.mp hb
      exact hall new hnew b hb
    -- in increasing order no two elements are equal
    match hresult : sortedUnions lists, pairwise_sortedUnions lists, hmem with
    | [], _, _ => simp [← mem_sortedUnions, hresult] at ha
    | [b], _, hmem => rw [hmem b (by simp)]
    | b :: c :: _, hlt, hmem =>
      have hbc : b < c := (List.pairwise_cons.mp hlt).1 c (by simp)
      rw [hmem b (by simp), hmem c (by simp)] at hbc
      exact absurd hbc (lt_irrefl a)

end CppTransport.Library
