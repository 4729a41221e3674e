import CppTransport.Runtime.WorkerScheduler
import Mathlib.Order.Defs.Unbundled

/-!
# The order of workers

A pool of CPUs is sorted before work is assigned, by the mean time that a worker has taken for an item. Workers that
have not worked yet should come first. `MeanTimeComparator` therefore puts such a worker before every other one, and
so before itself.

## What is proved

The comparator is transitive, and so is being incomparable (`meanTimeComparator_trans`, `incomparable_trans`), for all
workers. It is a strict weak order of a set of workers, as `std::list::sort` requires, if and only if all of them have
worked (`ordered_iff`). At the beginning of a task none has (`not_ordered_at_first`).
-/

namespace CppTransport.Runtime

namespace WorkerSchedulingData

variable {A B C : WorkerSchedulingData}

/-- What the comparator means. -/
theorem meanTimeComparator_iff : A.meanTimeComparator B ↔
    A.time = 0 ∨ B.time ≠ 0 ∧ A.meanTimePerWorkItem < B.meanTimePerWorkItem := by
  unfold meanTimeComparator
  split_ifs with hA hB
  · simp [hA]
  · simp [hA, hB]
  · simp [hA, hB]

theorem meanTimeComparator_trans (hAB : A.meanTimeComparator B) (hBC : B.meanTimeComparator C) :
    A.meanTimeComparator C := by
  rw [meanTimeComparator_iff] at hAB hBC ⊢
  rcases hAB with idle | ⟨worked, faster⟩
  · exact .inl idle
  · obtain ⟨worked', faster'⟩ := hBC.resolve_left worked
    exact .inr ⟨worked', faster.trans faster'⟩

/-- Incomparable workers have worked, equally fast. -/
theorem incomparable_iff : ¬ A.meanTimeComparator B ∧ ¬ B.meanTimeComparator A ↔
    A.time ≠ 0 ∧ B.time ≠ 0 ∧ A.meanTimePerWorkItem = B.meanTimePerWorkItem := by
  rw [meanTimeComparator_iff, meanTimeComparator_iff]
  constructor
  · rintro ⟨hAB, hBA⟩
    obtain ⟨workedA, notFaster⟩ := not_or.mp hAB
    obtain ⟨workedB, notSlower⟩ := not_or.mp hBA
    refine ⟨workedA, workedB, le_antisymm ?_ ?_⟩
    · exact not_lt.mp fun slower => notSlower ⟨workedA, slower⟩
    · exact not_lt.mp fun faster => notFaster ⟨workedB, faster⟩
  · rintro ⟨workedA, workedB, equal⟩
    simp [workedA, workedB, equal]

theorem incomparable_trans (hAB : ¬ A.meanTimeComparator B ∧ ¬ B.meanTimeComparator A)
    (hBC : ¬ B.meanTimeComparator C ∧ ¬ C.meanTimeComparator B) :
    ¬ A.meanTimeComparator C ∧ ¬ C.meanTimeComparator A := by
  rw [incomparable_iff] at hAB hBC ⊢
  exact ⟨hAB.1, hBC.2.1, hAB.2.2.trans hBC.2.2⟩

/-- A worker that has not worked is before itself. -/
theorem meanTimeComparator_self : A.meanTimeComparator A ↔ A.time = 0 := by
  rw [meanTimeComparator_iff]
  simp

/-- The comparator on a set of workers. -/
def Before (S : Set WorkerSchedulingData) (A B : S) : Prop := A.1.meanTimeComparator B.1

/-- **The comparator is a strict weak order** if and only if all workers have worked. -/
theorem ordered_iff (S : Set WorkerSchedulingData) : IsStrictWeakOrder S (Before S) ↔ ∀ w ∈ S, w.time ≠ 0 := by
  constructor
  · intro h w hw idle
    exact h.irrefl ⟨w, hw⟩ (meanTimeComparator_self.mpr idle)
  · intro worked
    exact
      { irrefl := fun A before => worked A.1 A.2 (meanTimeComparator_self.mp before)
        trans := fun _ _ _ => meanTimeComparator_trans
        incomp_trans := fun _ _ _ => incomparable_trans }

/-- Two workers at the beginning of a task: each is before the other. -/
theorem not_ordered_of_two : ¬∀ S : Set WorkerSchedulingData, (∀ w ∈ S, 0 ≤ w.time) →
    IsStrictWeakOrder S (Before S) := by
  intro h
  have two := h {{ number := 0 }, { number := 1 }} (by rintro w (rfl | rfl) <;> decide)
  exact two.irrefl ⟨{ number := 0 }, .inl rfl⟩ (meanTimeComparator_self.mpr rfl)

end WorkerSchedulingData

namespace WorkerScheduler

open WorkerSchedulingData

theorem idle_initializeWorker {s : WorkerScheduler} (idle : ∀ w ∈ s.workerData, w.time = 0) (worker : ℕ)
    (payload : WorkerInformation) : ∀ w ∈ (s.initializeWorker worker payload).workerData, w.time = 0 := by
  unfold initializeWorker
  split
  case h_1 => exact idle
  case h_2 w hw =>
    split_ifs
    · exact idle
    · intro v hv
      rcases List.mem_or_eq_of_mem_set hv with hv | rfl
      · exact idle v hv
      · exact idle w (List.mem_of_getElem? hw)

theorem idle_initializeWorkers {s : WorkerScheduler} (idle : ∀ w ∈ s.workerData, w.time = 0)
    (ids : List (ℕ × WorkerInformation)) : ∀ w ∈ (s.initializeWorkers ids).workerData, w.time = 0 := by
  unfold initializeWorkers
  induction ids generalizing s with
  | nil => exact idle
  | cons id ids ih => exact ih (idle_initializeWorker idle id.1 id.2)

/-- **The first sort of a task** has a comparator that is not a strict weak order. -/
theorem not_ordered_at_first (s : WorkerScheduler) (ids : List (ℕ × WorkerInformation))
    (some_worker : (s.reset.initializeWorkers ids).unassignedWorkers ≠ []) :
    ¬ IsStrictWeakOrder {w | w ∈ (s.reset.initializeWorkers ids).unassignedWorkers} (Before _) := by
  have fresh : ∀ w ∈ s.reset.workerData, w.time = 0 := by
    intro w hw
    rw [List.eq_of_mem_replicate hw]
  obtain ⟨w, hw⟩ := List.exists_mem_of_ne_nil _ some_worker
  intro h
  refine h.irrefl ⟨w, hw⟩ (meanTimeComparator_self.mpr ?_)
  exact idle_initializeWorkers fresh ids w (List.mem_filter.mp hw).1

end WorkerScheduler

end CppTransport.Runtime
