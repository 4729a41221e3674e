import CppTransport.Runtime.WorkerScheduler
import Mathlib.Data.List.Perm.Subperm

/-!
# Errors of the scheduler

When `mark_assigned`, `mark_unassigned` or `mark_inactive` throws, the scheduler should be as it was before. Each
of them makes some checks first, then updates the record of the worker and the counters, and makes one more check
on the way.

## What is proved

`atomic_iff`: an operation that throws leaves the scheduler as it was if and only if it is not the last check that
fails. The records and counters that have been updated by then are not restored.
-/

namespace CppTransport.Runtime.WorkerScheduler

/-- What the master does with the scheduler. -/
inductive Marking where
  | assigned (assignment : WorkAssignment)
  | unassigned (worker : ℕ) (time : ℤ) (items : ℕ)
  | inactive (worker : ℕ)

namespace Marking

def run : Marking → WorkerScheduler → Outcome
  | assigned assignment, s => s.markAssigned assignment
  | unassigned worker time items, s => s.markUnassigned worker time items
  | inactive worker, s => s.markInactive worker

/-- **An error changes nothing.** -/
def Atomic (m : Marking) (s : WorkerScheduler) : Prop := ∀ e s', m.run s = (.error e, s') → s' = s

/-- One of the first checks fails. -/
def RefusedAtOnce (s : WorkerScheduler) : Marking → Prop
  | assigned assignment => s.unassigned = 0 ∨ ∀ w, s.workerData[assignment.worker]? = some w → w.assigned = true
  | unassigned worker _ _ => ∀ w, s.workerData[worker]? = some w → w.assigned = false
  | inactive worker => ∀ w, s.workerData[worker]? = some w → w.active = false

/-- What the last check is about: the items are in the queue, or in flight, or no items are left when the last worker
closes down. -/
def Fulfilled (s : WorkerScheduler) : Marking → Prop
  | assigned assignment => assignment.items.Subperm s.queue
  | unassigned _ _ items => items ≤ s.workItemsInFlight
  | inactive _ => s.active = 1 → s.workItemsInFlight = 0

end Marking

variable {s : WorkerScheduler}

/-- The loop of `mark_assigned` goes to its end if all items are in the queue. -/
theorem takeItems_spec (worker : ℕ) (items : List ℕ) : (takeItems worker items s).2.workerData = s.workerData ∧
    ((takeItems worker items s).1 = .ok () ↔ items.Subperm s.queue) := by
  induction items generalizing s with
  | nil => exact ⟨rfl, iff_of_true rfl (List.nil_subperm)⟩
  | cons item items ih =>
    rw [takeItems]
    split_ifs with hmem
    · obtain ⟨hdata, hok⟩ := ih (s := { s with
        queue := s.queue.erase item, workItemsInFlight := s.workItemsInFlight + 1 })
      refine ⟨hdata, hok.trans ?_⟩
      rw [← List.subperm_cons item]
      have hperm := List.perm_cons_erase hmem
      exact ⟨fun h => h.trans hperm.symm.subperm, fun h => h.trans hperm.subperm⟩
    · exact ⟨rfl, iff_of_false (by simp) fun h => hmem (h.subset List.mem_cons_self)⟩

/-- A record that has been changed is not what it was. -/
theorem ne_of_set {s' : WorkerScheduler} {worker : ℕ} {w v : WorkerSchedulingData}
    (hw : s.workerData[worker]? = some w) (hdata : s'.workerData = s.workerData.set worker v) (hne : v ≠ w) :
    s' ≠ s := by
  rintro rfl
  have hget := congrArg (fun l => l[worker]?) hdata
  simp only [hw, List.getElem?_set_self (List.getElem?_eq_some_iff.mp hw).1] at hget
  exact hne (Option.some.inj hget).symm

namespace Marking

/-- An operation that throws in the state it has begun in. -/
theorem atomic_of_eq {m : Marking} {r : Except SchedulingError Unit} (h : m.run s = (r, s)) : m.Atomic s := by
  intro e s' hrun
  rw [h] at hrun
  exact (Prod.mk.inj hrun).2.symm

/-- An operation that throws in another state. -/
theorem not_atomic_of_ne {m : Marking} {s' : WorkerScheduler} (h : (m.run s).2 = s') (hne : s' ≠ s) {e : SchedulingError}
    (he : (m.run s).1 = .error e) : ¬ m.Atomic s := fun hatomic =>
  hne (hatomic e s' (Prod.ext he h))

theorem atomic_of_ok {m : Marking} (h : (m.run s).1 = .ok ()) : m.Atomic s := by
  intro e s' hrun
  rw [hrun] at h
  cases h

theorem assigned_atomic_iff (assignment : WorkAssignment) :
    (assigned assignment).Atomic s ↔ RefusedAtOnce s (assigned assignment) ∨ Fulfilled s (assigned assignment) := by
  by_cases hnone : s.unassigned = 0
  · exact iff_of_true (atomic_of_eq (by rw [run, markAssigned, if_pos hnone])) (.inl (.inl hnone))
  cases hw : s.workerData[assignment.worker]? with
  | none =>
    refine iff_of_true (atomic_of_eq (r := .error .fault) ?_) (.inl (.inr (by simp [hw])))
    simp only [run, markAssigned, if_neg hnone, hw]
  | some w =>
    by_cases hassigned : w.assigned = true
    · refine iff_of_true (atomic_of_eq (r := .error .alreadyAssigned) ?_) (.inl (.inr (by simp [hw, hassigned])))
      simp only [run, markAssigned, if_neg hnone, hw, if_pos hassigned]
    · have hrefused : ¬ RefusedAtOnce s (assigned assignment) := by simp [RefusedAtOnce, hnone, hw, hassigned]
      have hrun : (assigned assignment).run s = takeItems assignment.worker assignment.items
          { s with
            workerData := s.workerData.set assignment.worker { w with assigned := true }
            unassigned := unsignedPred s.unassigned } := by
        simp only [run, markAssigned, if_neg hnone, hw, if_neg hassigned]
      obtain ⟨hdata, hok⟩ := takeItems_spec (s := { s with
        workerData := s.workerData.set assignment.worker { w with assigned := true }
        unassigned := unsignedPred s.unassigned }) assignment.worker assignment.items
      rw [← hrun] at hdata hok
      by_cases hitems : assignment.items.Subperm s.queue
      · exact iff_of_true (atomic_of_ok (hok.mpr hitems)) (.inr hitems)
      · refine iff_of_false ?_ (not_or_intro hrefused hitems)
        cases hresult : ((assigned assignment).run s).1 with
        | ok => exact absurd (hok.mp hresult) hitems
        | error e =>
          refine not_atomic_of_ne rfl (ne_of_set hw hdata fun heq => hassigned ?_) hresult
          exact (congrArg WorkerSchedulingData.assigned heq).symm

theorem unassigned_atomic_iff (worker : ℕ) (time : ℤ) (items : ℕ) : (unassigned worker time items).Atomic s ↔
    RefusedAtOnce s (unassigned worker time items) ∨ Fulfilled s (unassigned worker time items) := by
  cases hw : s.workerData[worker]? with
  | none =>
    refine iff_of_true (atomic_of_eq (r := .error .indexOutOfRange) ?_) (.inl (by simp [RefusedAtOnce, hw]))
    simp only [run, markUnassigned, hw]
  | some w =>
    by_cases hassigned : w.assigned = true
    · have hrefused : ¬ RefusedAtOnce s (unassigned worker time items) := by simp [RefusedAtOnce, hw, hassigned]
      by_cases hitems : items ≤ s.workItemsInFlight
      · refine iff_of_true (atomic_of_ok ?_) (.inr hitems)
        rw [run, markUnassigned_ok time hw hassigned hitems]
      · refine iff_of_false ?_ (not_or_intro hrefused hitems)
        have hrun : (unassigned worker time items).run s = (.error .overreleaseInflight, { s with
            workerData := s.workerData.set worker { w.updateTimingData time items with assigned := false }
            unassigned := s.unassigned + 1
            workItemsCompleted := s.workItemsCompleted + items }) := by
          simp [run, markUnassigned, hw, hassigned, hitems]
        refine not_atomic_of_ne (congrArg Prod.snd hrun) (ne_of_set hw rfl fun heq => ?_) (congrArg Prod.fst hrun)
        rw [← heq] at hassigned
        cases hassigned
    · have hrefused : RefusedAtOnce s (unassigned worker time items) := by simp [RefusedAtOnce, hw, hassigned]
      refine iff_of_true (atomic_of_eq (r := .error .notAlreadyAssigned) ?_) (.inl hrefused)
      simp [run, markUnassigned, hw, hassigned]

theorem unsignedPred_eq_zero_iff (n : ℕ) : unsignedPred n = 0 ↔ n = 1 := by
  unfold unsignedPred
  split <;> omega

theorem inactive_atomic_iff (worker : ℕ) :
    (inactive worker).Atomic s ↔ RefusedAtOnce s (inactive worker) ∨ Fulfilled s (inactive worker) := by
  cases hw : s.workerData[worker]? with
  | none =>
    refine iff_of_true (atomic_of_eq (r := .error .indexOutOfRange) ?_) (.inl (by simp [RefusedAtOnce, hw]))
    simp only [run, markInactive, hw]
  | some w =>
    by_cases hactive : w.active = true
    · have hrefused : ¬ RefusedAtOnce s (inactive worker) := by simp [RefusedAtOnce, hw, hactive]
      by_cases hflight : s.active = 1 ∧ s.workItemsInFlight > 0
      · refine iff_of_false ?_ (not_or_intro hrefused fun h => hflight.2.ne' (h hflight.1))
        have hrun : (inactive worker).run s = (.error .underInflight, { s with
            workerData := s.workerData.set worker { w with active := false }
            active := unsignedPred s.active }) := by
          simp [run, markInactive, hw, hactive, unsignedPred_eq_zero_iff, hflight]
        refine not_atomic_of_ne (congrArg Prod.snd hrun) (ne_of_set hw rfl fun heq => ?_) (congrArg Prod.fst hrun)
        rw [← heq] at hactive
        cases hactive
      · refine iff_of_true (atomic_of_ok ?_) (.inr fun hlast => ?_)
        · simp [run, markInactive, hw, hactive, unsignedPred_eq_zero_iff, hflight]
        · exact Nat.eq_zero_of_not_pos fun hpos => hflight ⟨hlast, hpos⟩
    · have hrefused : RefusedAtOnce s (inactive worker) := by simp [RefusedAtOnce, hw, hactive]
      refine iff_of_true (atomic_of_eq (r := .error .alreadyInactive) ?_) (.inl hrefused)
      simp [run, markInactive, hw, hactive]

/-- **Errors are atomic** if and only if it is not the last check that fails. -/
theorem atomic_iff (m : Marking) (s : WorkerScheduler) : m.Atomic s ↔ RefusedAtOnce s m ∨ Fulfilled s m := by
  cases m with
  | assigned assignment => exact assigned_atomic_iff assignment
  | unassigned worker time items => exact unassigned_atomic_iff worker time items
  | inactive worker => exact inactive_atomic_iff worker

/-- One worker with an item in flight. -/
def oneWorker : WorkerScheduler where
  numberWorkers := 1
  workerData := [{ number := 0, initialized := true, assigned := true }]
  active := 1
  hasCpus := true
  workItemsInFlight := 1

/-- The worker reports two items. That is an error, but then it is unassigned and two items are completed. -/
theorem report_not_atomic : ¬ (unassigned 0 5 2).Atomic oneWorker := by
  intro h
  have heq := h .overreleaseInflight _ rfl
  exact absurd heq (by decide)

end Marking

end CppTransport.Runtime.WorkerScheduler
