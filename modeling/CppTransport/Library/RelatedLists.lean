import Mathlib.Data.List.Forall2

/-!
# Lists whose items are related

Items of two lists that correspond are related: what follows for one item of them, and lists that
come from a computation that may fail.
-/

namespace CppTransport.Library

variable {α β : Type*} {R : α → β → Prop} {as : List α} {bs : List β}

theorem forall₂_of_mapM {f : α → Option β} (h : as.mapM f = some bs) :
    List.Forall₂ (fun a b => f a = some b) as bs := by
  induction as generalizing bs with
  | nil =>
    cases h
    exact .nil
  | cons a as ih =>
    rw [List.mapM_cons] at h
    obtain ⟨b, hb, h⟩ := Option.bind_eq_some_iff.mp h
    obtain ⟨bs', hbs, heq⟩ := Option.bind_eq_some_iff.mp h
    cases heq
    exact .cons hb (ih hbs)

theorem mem_right_of_forall₂ {b : β} (h : List.Forall₂ R as bs) (hb : b ∈ bs) : ∃ a ∈ as, R a b := by
  induction h with
  | nil => cases hb
  | @cons a b' as bs hr _ ih =>
    rcases List.mem_cons.mp hb with rfl | hb
    · exact ⟨a, List.mem_cons_self, hr⟩
    · exact (ih hb).imp fun a ⟨ha, hr⟩ => ⟨List.mem_cons_of_mem _ ha, hr⟩

theorem mem_left_of_forall₂ {a : α} (h : List.Forall₂ R as bs) (ha : a ∈ as) : ∃ b ∈ bs, R a b :=
  mem_right_of_forall₂ h.flip ha

theorem flatMap_eq_of_forall₂ {γ : Type*} {f : α → List γ} {g : β → List γ} (h : List.Forall₂ R as bs)
    (heq : ∀ a ∈ as, ∀ b ∈ bs, R a b → f a = g b) : as.flatMap f = bs.flatMap g := by
  induction h with
  | nil => rfl
  | @cons a b as bs hr _ ih =>
    rw [List.flatMap_cons, List.flatMap_cons, heq a List.mem_cons_self b List.mem_cons_self hr]
    exact congrArg _ (ih fun a ha b hb => heq a (List.mem_cons_of_mem _ ha) b (List.mem_cons_of_mem _ hb))

theorem map_eq_map_of_forall₂ {γ : Type*} {f : α → γ} {g : β → γ} (h : List.Forall₂ R as bs)
    (heq : ∀ a b, R a b → f a = g b) : as.map f = bs.map g := by
  induction h with
  | nil => rfl
  | cons hr _ ih => rw [List.map_cons, List.map_cons, heq _ _ hr, ih]

theorem forall₂_and {S : α → β → Prop} (h : List.Forall₂ R as bs) (h' : List.Forall₂ S as bs) :
    List.Forall₂ (fun a b => R a b ∧ S a b) as bs := by
  induction h with
  | nil => exact .nil
  | cons hr _ ih =>
    cases h' with
    | cons hs h' => exact .cons ⟨hr, hs⟩ (ih h')

theorem forall₂_and_mem (h : List.Forall₂ R as bs) : List.Forall₂ (fun a b => R a b ∧ b ∈ bs) as bs := by
  induction h with
  | nil => exact .nil
  | cons hr _ ih =>
    exact .cons ⟨hr, List.mem_cons_self⟩ (ih.imp fun a b ⟨h, hb⟩ => ⟨h, List.mem_cons_of_mem _ hb⟩)

end CppTransport.Library
