import Mathlib.Data.List.Nodup
import Mathlib.Logic.Function.Basic

/-!
# Staged documents

A new version of a document is staged beside the old one, and put in its place later; a version
that is staged replaces one that has been staged before. `emplaces_isSome_iff` says when several
staged versions can be put in place one after the other: if no document is among them twice.
-/

namespace CppTransport.Library

/-- Documents, and the versions of them that are staged; a document `d` has its content in `C d`. -/
@[ext]
structure Staging {ι : Type*} (C : ι → Type*) where
  docs : ∀ d, Option (C d)
  temp : ∀ d, Option (C d)

namespace Staging

variable {ι : Type*} {C : ι → Type*} [DecidableEq ι] (s : Staging C) {s' : Staging C} {d : ι} {l : List ι}

/-- A version is staged. -/
def stage (d : ι) (c : C d) : Staging C := { s with temp := Function.update s.temp d (some c) }

/-- The version that is staged is put in place. -/
def emplace (d : ι) : Option (Staging C) :=
  if (s.temp d).isSome then some ⟨Function.update s.docs d (s.temp d), Function.update s.temp d none⟩ else none

/-- Several, one after the other. -/
def emplaces (l : List ι) : Option (Staging C) := l.foldlM emplace s

@[simp] theorem docs_stage (d : ι) (c : C d) : (s.stage d c).docs = s.docs := rfl

@[simp] theorem temp_stage_self (d : ι) (c : C d) : (s.stage d c).temp d = some c := Function.update_self ..

theorem temp_stage_of_ne {d' : ι} (h : d' ≠ d) (c : C d) : (s.stage d c).temp d' = s.temp d' :=
  Function.update_of_ne h ..

variable {s}

theorem emplace_eq_some_iff : s.emplace d = some s' ↔
    (s.temp d).isSome ∧ s' = ⟨Function.update s.docs d (s.temp d), Function.update s.temp d none⟩ := by
  rw [emplace, Option.ite_none_right_eq_some, Option.some_inj, eq_comm (a := s')]

/-- A document of which nothing is staged cannot be put in place, whatever comes before it. -/
theorem emplaces_eq_none (missing : s.temp d = none) (h : d ∈ l) : s.emplaces l = none := by
  induction l generalizing s with
  | nil => exact absurd h List.not_mem_nil
  | cons a l ih =>
    rw [emplaces, List.foldlM_cons, emplace]
    split_ifs with there
    · have ne : d ≠ a := by
        rintro rfl
        simp [missing] at there
      refine ih (s := ⟨_, Function.update s.temp a none⟩) ?_ ((List.mem_cons.mp h).resolve_left ne)
      exact (Function.update_of_ne ne ..).trans missing
    · rfl

/-- **Emplacing**: staged versions can be put in place if no document is among them twice. -/
theorem emplaces_isSome_iff (staged : ∀ d ∈ l, (s.temp d).isSome) : (s.emplaces l).isSome ↔ l.Nodup := by
  induction l generalizing s with
  | nil => simp [emplaces]
  | cons d l ih =>
    obtain ⟨here, rest⟩ := List.forall_mem_cons.mp staged
    rw [emplaces, List.foldlM_cons, emplace, if_pos here, List.nodup_cons]
    by_cases again : d ∈ l
    · refine iff_of_false (fun all => ?_) fun h => h.1 again
      -- the second time there is nothing to put in place
      have none : emplaces ⟨Function.update s.docs d (s.temp d), Function.update s.temp d none⟩ l = none :=
        emplaces_eq_none (Function.update_self ..) again
      rw [emplaces] at none
      simp [none] at all
    · have staged' : ∀ d' ∈ l, (Function.update s.temp d none d').isSome := by
        intro d' hd'
        have ne : d' ≠ d := fun eq => again (eq ▸ hd')
        rw [Function.update_of_ne ne]
        exact rest d' hd'
      exact (ih staged').trans (and_iff_right again).symm

/-- Then each of the documents is what has been staged, and the others are what they have been. -/
theorem docs_emplaces (h : s.emplaces l = some s') (distinct : l.Nodup) (d : ι) :
    s'.docs d = if d ∈ l then s.temp d else s.docs d := by
  induction l generalizing s with
  | nil =>
    obtain rfl : s = s' := by simpa [emplaces] using h
    simp
  | cons a l ih =>
    obtain ⟨again, distinct⟩ := List.nodup_cons.mp distinct
    rw [emplaces, List.foldlM_cons] at h
    obtain ⟨s₁, first, h⟩ := Option.bind_eq_some_iff.mp h
    obtain ⟨-, rfl⟩ := emplace_eq_some_iff.mp first
    rw [ih h distinct]
    by_cases eq : d = a
    · subst eq
      simp [again]
    · simp [eq]

end Staging

end CppTransport.Library
