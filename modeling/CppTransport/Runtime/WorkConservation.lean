import CppTransport.Library.Transition
import CppTransport.Runtime.WorkerScheduler
import Mathlib.Data.Nat.Sqrt

/-!
# Work conservation in the scheduler

The caller of a `worker_scheduler` prepares a queue, initializes the workers,
and then goes back and forth: it takes a round of assignments and marks each of
them as sent, and it marks workers as unassigned when they report. Reports may
arrive while a round is half sent.

## The model

`Caller` is the scheduler with what its caller knows: the assignments of the
current round not yet sent (`pending`), the assignments being worked on (`held`)
and the items reported done (`completed`). `schedulingSystem` lets it make any
call its situation allows, in any order, for any source of work, any number of
workers of one kind and any platform; a call that throws is recorded.

## What is proved

`Conserved` holds in every reachable state (`conserved_of_reachable`): nothing
throws, the queue, the items held and the items completed partition the work
items, and each counter counts what it is meant to count.
-/

namespace CppTransport.Runtime

open CppTransport.Library WorkerScheduler

/-- The scheduler and its caller's view of the work. -/
structure Caller where
  /-- The scheduler. -/
  sched : WorkerScheduler
  /-- Assignments of the current round, not yet marked. -/
  pending : List WorkAssignment := []
  /-- Assignments marked and not yet reported. -/
  held : List WorkAssignment := []
  /-- Items reported done. -/
  completed : List ℕ := []
  /-- The exception that ended the run, if any. -/
  thrown : Option SchedulingError := none
deriving DecidableEq

/-- The calls made once the scheduler is set up. -/
inductive Call where
  /-- Take a new round of assignments. -/
  | assignWork
  /-- Mark an assignment of the round as sent. -/
  | markAssigned (a : WorkAssignment)
  /-- A worker reports its assignment done. -/
  | markUnassigned (a : WorkAssignment) (time : ℤ)
  /-- Advise the time one aggregation took. -/
  | reportAggregation (time : ℤ)

namespace Caller

/-- When the caller makes a call. -/
def Enabled (c : Caller) : Call → Prop
  | .assignWork => c.pending = [] ∧ c.sched.assignable = true
  | .markAssigned a => a ∈ c.pending
  | .markUnassigned a time => a ∈ c.held ∧ 0 ≤ time
  | .reportAggregation time => 0 ≤ time

/-- A call and what its caller then knows. -/
def perform (P : Platform) (c : Caller) : Call → Caller
  | .assignWork =>
    match c.sched.assignWork P with
    | .ok l => { c with pending := l }
    | .error e => { c with thrown := some e }
  | .markAssigned a =>
    match c.sched.markAssigned a with
    | (.ok (), s) => { c with sched := s, pending := c.pending.erase a, held := a :: c.held }
    | (.error e, s) => { c with sched := s, thrown := some e }
  | .markUnassigned a time =>
    match c.sched.markUnassigned a.worker time a.items.length with
    | (.ok (), s) =>
      { c with sched := s, held := c.held.erase a, completed := a.items ++ c.completed }
    | (.error e, s) => { c with sched := s, thrown := some e }
  | .reportAggregation time => { c with sched := c.sched.reportAggregation time }

end Caller

/-- A scheduler whose queue was prepared from `src` and whose workers, all of type `kind`, have
identified themselves. -/
def SetUp (P : Platform) (kind : WorkerType) (src : WorkSource) (s : WorkerScheduler) : Prop :=
  ∃ (s₀ : WorkerScheduler) (ids : List (ℕ × WorkerInformation)), (∀ p ∈ ids, p.2.type = kind) ∧
    ((s₀.prepareQueue P src).reset.initializeWorkers ids).isReady = true ∧
    s = ((s₀.prepareQueue P src).reset.initializeWorkers ids).completeQueueSetup

/-- The runs of a scheduler under its caller. -/
def schedulingSystem (P : Platform) (kind : WorkerType) (src : WorkSource) : System Caller Call where
  init c := ∃ s, SetUp P kind src s ∧ c = { sched := s }
  step c call c' := c.thrown = none ∧ c.Enabled call ∧ c' = c.perform P call

/-- **The invariant**: work is conserved, and records and counters agree. -/
structure Conserved (kind : WorkerType) (src : WorkSource) (c : Caller) : Prop where
  /-- Nothing was thrown. -/
  not_thrown : c.thrown = none
  /-- The counters of workers agree with their records. -/
  consistent : Consistent kind c.sched
  /-- An assignment held is held by an assigned worker. -/
  held_assigned : ∀ a ∈ c.held, ∃ w, c.sched.workerData[a.worker]? = some w ∧ w.assigned = true
  /-- An assigned worker holds an assignment. -/
  assigned_held : ∀ {i : ℕ} {w : WorkerSchedulingData}, c.sched.workerData[i]? = some w →
    w.assigned = true → i ∈ c.held.map (·.worker)
  /-- No worker holds two. -/
  held_nodup : (c.held.map (·.worker)).Nodup
  /-- The items held are counted. -/
  inFlight_eq : c.sched.workItemsInFlight = (c.held.flatMap (·.items)).length
  /-- Every work item is in the queue, held or completed, once. -/
  partition : (c.sched.queue ++ c.held.flatMap (·.items) ++ c.completed).Perm (src.items.sort (· ≤ ·))
  /-- The workers of the round are distinct. -/
  pending_nodup : (c.pending.map (·.worker)).Nodup
  /-- They are unassigned. -/
  pending_unassigned : ∀ a ∈ c.pending, ∃ w, c.sched.workerData[a.worker]? = some w ∧ w.assigned = false
  /-- Their items are still in the queue. -/
  pending_items : ∃ rest, (c.pending.flatMap (·.items) ++ rest).Perm c.sched.queue

/-! ### The initial state -/

theorem queue_initializeWorkers (s : WorkerScheduler) (ids : List (ℕ × WorkerInformation)) :
    (s.initializeWorkers ids).queue = s.queue ∧
      (s.initializeWorkers ids).workItemsInFlight = s.workItemsInFlight := by
  unfold initializeWorkers
  induction ids generalizing s with
  | nil => exact ⟨rfl, rfl⟩
  | cons p ids ih =>
    obtain ⟨h1, h2⟩ := ih (s.initializeWorker p.1 p.2)
    rw [List.foldl_cons, h1, h2]
    unfold initializeWorker
    split
    · exact ⟨rfl, rfl⟩
    · split <;> exact ⟨rfl, rfl⟩

/-- What setting up establishes. -/
theorem SetUp.spec {P : Platform} {kind : WorkerType} {src : WorkSource} {s : WorkerScheduler}
    (h : SetUp P kind src s) :
    Consistent kind s ∧ s.queue.Perm (src.items.sort (· ≤ ·)) ∧ s.workItemsInFlight = 0 ∧
      ∀ {i : ℕ} {w : WorkerSchedulingData}, s.workerData[i]? = some w →
        w.assigned = false ∧ w.active = true := by
  obtain ⟨s₀, ids, hids, hready, rfl⟩ := h
  have hinit := (initializing_reset kind (s₀.prepareQueue P src)).initializeWorkers hids
  obtain ⟨hq, hf⟩ := queue_initializeWorkers (s₀.prepareQueue P src).reset ids
  have hc := hinit.consistent hready
  refine ⟨⟨hc.numbered, hc.unassigned_eq, hc.active_eq, hc.hasCpus_eq, hc.hasGpus_eq⟩, ?_, hf,
    hinit.fresh⟩
  show ((s₀.prepareQueue P src).reset.initializeWorkers ids).queue.Perm _
  rw [hq]
  exact prepareQueue_perm P s₀ src

theorem Conserved.of_setUp {P : Platform} {kind : WorkerType} {src : WorkSource} {s : WorkerScheduler}
    (h : SetUp P kind src s) : Conserved kind src { sched := s } := by
  obtain ⟨hc, hq, hf, hfresh⟩ := h.spec
  exact {
    not_thrown := rfl
    consistent := hc
    held_assigned := by simp
    assigned_held := fun hw has => by simp [(hfresh hw).1] at has
    held_nodup := List.nodup_nil
    inFlight_eq := hf
    partition := by simpa using hq
    pending_nodup := List.nodup_nil
    pending_unassigned := by simp
    pending_items := ⟨s.queue, List.Perm.refl _⟩ }

/-! ### One call -/

section Step

variable {P : Platform} {kind : WorkerType} {src : WorkSource} {c : Caller}

theorem Conserved.assignWork (h : Conserved kind src c) (ha : c.sched.assignable = true) :
    Conserved kind src (c.perform P .assignWork) := by
  obtain ⟨l, hl, hround⟩ := assignWork_spec P h.consistent ha
  have hperf : c.perform P .assignWork = { c with pending := l } := by
    simp only [Caller.perform, hl]
  rw [hperf]
  obtain ⟨rest, hrest⟩ := hround.items_prefix
  exact { h with
    pending_nodup := hround.workers_nodup
    pending_unassigned := hround.unassigned
    pending_items := ⟨rest, hrest ▸ List.Perm.refl _⟩ }

theorem Conserved.markAssigned (h : Conserved kind src c) {a : WorkAssignment} (ha : a ∈ c.pending) :
    Conserved kind src (c.perform P (.markAssigned a)) := by
  obtain ⟨w, hw, hun⟩ := h.pending_unassigned a ha
  obtain ⟨rest, hrest⟩ := h.pending_items
  have hpend : c.pending.Perm (a :: c.pending.erase a) := List.perm_cons_erase ha
  have hitems : (a.items ++ ((c.pending.erase a).flatMap (·.items) ++ rest)).Perm c.sched.queue := by
    have hflat := hpend.flatMap_right (·.items)
    rw [List.flatMap_cons] at hflat
    rw [← List.append_assoc]
    exact (hflat.symm.append_right rest).trans hrest
  obtain ⟨q, hq, hmark⟩ := markAssigned_ok h.consistent hw hun hitems
  have hpos : 0 < c.sched.unassigned := by
    rw [h.consistent.unassigned_eq]
    exact countP_pos_of_getElem? hw (by simp [hun])
  have hother : ∀ b ∈ c.held, b.worker ≠ a.worker := by
    intro b hb hba
    obtain ⟨v, hv, has⟩ := h.held_assigned b hb
    rw [hba, hw] at hv
    cases hv
    rw [hun] at has
    cases has
  have hnodup := (hpend.map (·.worker)).nodup_iff.mp h.pending_nodup
  rw [List.map_cons, List.nodup_cons] at hnodup
  simp only [Caller.perform, hmark]
  exact {
    not_thrown := h.not_thrown
    consistent := by
      refine h.consistent.set hw (v := { w with assigned := true }) rfl rfl ?_ ?_ rfl rfl
      · simp only [hun, if_true, Bool.false_eq_true, if_false]
        omega
      · rfl
    held_assigned := by
      intro b hb
      rcases List.mem_cons.mp hb with rfl | hb
      · exact ⟨_, (getElem?_set_eq_some_iff hw).mpr (Or.inl ⟨rfl, rfl⟩), rfl⟩
      · obtain ⟨v, hv, has⟩ := h.held_assigned b hb
        exact ⟨v, (getElem?_set_eq_some_iff hw).mpr (Or.inr ⟨hother b hb, hv⟩), has⟩
    assigned_held := by
      intro i v hv has
      rcases (getElem?_set_eq_some_iff hw).mp hv with ⟨rfl, -⟩ | ⟨-, hv⟩
      · simp
      · exact List.mem_cons_of_mem _ (h.assigned_held hv has)
    held_nodup := by
      refine List.nodup_cons.mpr ⟨fun hmem => ?_, h.held_nodup⟩
      obtain ⟨b, hb, hba⟩ := List.mem_map.mp hmem
      exact hother b hb hba
    inFlight_eq := by
      rw [List.flatMap_cons, List.length_append, ← h.inFlight_eq, Nat.add_comm]
    partition := by
      refine List.Perm.trans ?_ h.partition
      refine List.perm_iff_count.mpr fun x => ?_
      have h1 := hq.count_eq x
      have h2 := hitems.count_eq x
      simp only [List.flatMap_cons, List.count_append] at h1 h2 ⊢
      omega
    pending_nodup := hnodup.2
    pending_unassigned := by
      intro b hb
      obtain ⟨v, hv, hvun⟩ := h.pending_unassigned b (List.mem_of_mem_erase hb)
      have hne : b.worker ≠ a.worker := fun hba => hnodup.1 (List.mem_map.mpr ⟨b, hb, hba⟩)
      exact ⟨v, (getElem?_set_eq_some_iff hw).mpr (Or.inr ⟨hne, hv⟩), hvun⟩
    pending_items := ⟨rest, hq.symm⟩ }

theorem Conserved.markUnassigned (h : Conserved kind src c) {a : WorkAssignment} (ha : a ∈ c.held)
    (time : ℤ) : Conserved kind src (c.perform P (.markUnassigned a time)) := by
  obtain ⟨w, hw, has⟩ := h.held_assigned a ha
  have hheld : c.held.Perm (a :: c.held.erase a) := List.perm_cons_erase ha
  have hflat := hheld.flatMap_right (·.items)
  rw [List.flatMap_cons] at hflat
  have hlen := hflat.length_eq
  rw [← h.inFlight_eq, List.length_append] at hlen
  have hmark := markUnassigned_ok time hw has (show a.items.length ≤ c.sched.workItemsInFlight by omega)
  have hnodup := (hheld.map (·.worker)).nodup_iff.mp h.held_nodup
  rw [List.map_cons, List.nodup_cons] at hnodup
  simp only [Caller.perform, hmark]
  exact {
    not_thrown := h.not_thrown
    consistent := by
      refine h.consistent.set hw
        (v := { w.updateTimingData time a.items.length with assigned := false }) rfl rfl ?_ ?_ rfl rfl
      · simp [updateEstimatedCompletion, has]
      · rfl
    held_assigned := by
      intro b hb
      obtain ⟨v, hv, hvas⟩ := h.held_assigned b (List.mem_of_mem_erase hb)
      have hne : b.worker ≠ a.worker := fun hba => hnodup.1 (List.mem_map.mpr ⟨b, hb, hba⟩)
      exact ⟨v, (getElem?_set_eq_some_iff hw).mpr (Or.inr ⟨hne, hv⟩), hvas⟩
    assigned_held := by
      intro i v hv hvas
      rcases (getElem?_set_eq_some_iff hw).mp hv with ⟨-, rfl⟩ | ⟨hne, hv⟩
      · cases hvas
      · have hmem := (hheld.map (·.worker)).mem_iff.mp (h.assigned_held hv hvas)
        exact (List.mem_cons.mp hmem).resolve_left hne
    held_nodup := hnodup.2
    inFlight_eq := by
      simp only [updateEstimatedCompletion]
      omega
    partition := by
      refine List.Perm.trans ?_ h.partition
      refine List.perm_iff_count.mpr fun x => ?_
      have h1 := hflat.count_eq x
      simp only [updateEstimatedCompletion, List.count_append] at h1 ⊢
      omega
    pending_nodup := h.pending_nodup
    pending_unassigned := by
      intro b hb
      obtain ⟨v, hv, hvun⟩ := h.pending_unassigned b hb
      have hne : b.worker ≠ a.worker := by
        intro hba
        rw [hba, hw] at hv
        cases hv
        rw [has] at hvun
        cases hvun
      exact ⟨v, (getElem?_set_eq_some_iff hw).mpr (Or.inr ⟨hne, hv⟩), hvun⟩
    pending_items := h.pending_items }

theorem Conserved.reportAggregation (h : Conserved kind src c) (time : ℤ) :
    Conserved kind src (c.perform P (.reportAggregation time)) :=
  { h with
    consistent := ⟨h.consistent.numbered, h.consistent.unassigned_eq, h.consistent.active_eq,
      h.consistent.hasCpus_eq, h.consistent.hasGpus_eq⟩ }

/-- **Step lemma**: a call the caller may make keeps the invariant. -/
theorem Conserved.perform (h : Conserved kind src c) {call : Call} (hen : c.Enabled call) :
    Conserved kind src (c.perform P call) := by
  cases call with
  | assignWork => exact h.assignWork hen.2
  | markAssigned a => exact h.markAssigned hen
  | markUnassigned a time => exact h.markUnassigned hen.1 time
  | reportAggregation time => exact h.reportAggregation time

end Step

/-- **Run lemma**: the invariant holds in every reachable state. -/
theorem conserved_of_reachable {P : Platform} {kind : WorkerType} {src : WorkSource} {c : Caller}
    (hc : (schedulingSystem P kind src).Reachable c) : Conserved kind src c := by
  refine System.Invariant.reachable (I := Conserved kind src) ⟨?_, ?_⟩ hc
  · rintro _ ⟨s, hs, rfl⟩
    exact Conserved.of_setUp hs
  · rintro c call _ h ⟨-, hen, rfl⟩
    exact h.perform hen

/-- A platform with a stable sort, a shuffle that changes nothing, and exact arithmetic. -/
def exactPlatform : Platform where
  sort cmp l := l.insertionSort fun a b => cmp b a = false
  sort_perm _ l := List.perm_insertionSort _ l
  shuffle l := l
  shuffle_perm l := List.Perm.refl l
  fairShare q u n := Nat.sqrt (q * q / (u * n))
  floorToUnsigned t := t.toNat

end CppTransport.Runtime
