import CppTransport.Library.StateExceptions
import CppTransport.Runtime.SchedulerErrors

/-!
# Requests for messages

To push assignments to the workers, the master sends a message to each of them without waiting, and at the end waits
for all. A send returns a request, which has to be kept for the wait: it also keeps what is sent alive. There is a
vector of requests, one for each assignment, and a position in it.

## The model

A request is the number of the message it is for. The elements of the vector are default-constructed at first, `none`
here, and a write outside the vector is `SchedulingError.fault`. `marked` is a record of the calls of `mark_assigned`
that return. Log messages, timers and the journal entry of the whole function are left out.

## What is proved

`push_ok`: for assignments that the scheduler accepts, of whatever number, every message is sent and every worker is
marked. But the position never moves, so that each request replaces the one before. `tracked_iff`: all messages are
tracked if and only if there is at most one, which the scheduler accepts.
-/

namespace CppTransport.Runtime.AssignmentRequests

open Library WorkerScheduler

/-- `worker_rank` -/
def worker_rank (worker : ℕ) : ℕ := worker + 1

/-- A message with the tag `NEW_WORK_ASSIGNMENT`. -/
structure Message where
  rank : ℕ
  items : List ℕ
deriving DecidableEq, Repr

/-- The variables of `assign_work_to_workers` and what it has done. -/
structure Master where
  work_scheduler : WorkerScheduler
  /-- The messages whose sends have been started. -/
  sends : List Message := []
  msg_status : List (Option ℕ)
  /-- The position in the vector. -/
  c : ℕ := 0
  marked : List WorkAssignment := []
  /-- The requests that are waited for. -/
  waited : List (Option ℕ) := []

abbrev Step := EStateM SchedulingError Master

/-- `isend` to the worker; the request is assigned to the element of the vector. -/
def isend (assgn : WorkAssignment) : Step Unit := fun m =>
  if m.c < m.msg_status.length then
    .ok () { m with
      sends := m.sends ++ [⟨worker_rank assgn.worker, assgn.items⟩]
      msg_status := m.msg_status.set m.c (some m.sends.length) }
  else .error .fault m

/-- `mark_assigned` of the scheduler. -/
def mark_assigned (assgn : WorkAssignment) : Step Unit := fun m =>
  match m.work_scheduler.markAssigned assgn with
  | (.ok (), s) => .ok () { m with work_scheduler := s, marked := m.marked ++ [assgn] }
  | (.error e, s) => .error e { m with work_scheduler := s }

/-- The body of the loop. -/
def push (assgn : WorkAssignment) : Step Unit := do
  isend assgn
  mark_assigned assgn

/-- `wait_all` over the whole vector. -/
def wait_all : Step Unit := modify fun m => { m with waited := m.msg_status }

/-- `assign_work_to_workers`, once there is a list of assignments. -/
def push_assignments (work : List WorkAssignment) (s : WorkerScheduler) : EStateM.Result SchedulingError Master Unit :=
  (do work.forM push; wait_all : Step Unit) ⟨s, [], List.replicate work.length none, 0, [], []⟩

/-- **Every message is tracked**: its request has an element of the vector for itself, which is waited for. -/
structure Tracked (work : List WorkAssignment) (m : Master) : Prop where
  sent : m.sends = work.map fun a => ⟨worker_rank a.worker, a.items⟩
  slots : ∀ n < m.sends.length, ∃! i : ℕ, m.waited[i]? = some (some n)
  initialized : none ∉ m.waited
  marked : m.marked = work
  assigned : ∀ a ∈ work, ∃ w, m.work_scheduler.workerData[a.worker]? = some w ∧ w.assigned = true

/-- The scheduler accepts the assignment. -/
structure Accepts (s : WorkerScheduler) (a : WorkAssignment) : Prop where
  unassigned : s.unassigned ≠ 0
  worker : ∃ w, s.workerData[a.worker]? = some w ∧ w.assigned = false
  items : a.items.Subperm s.queue

variable {s : WorkerScheduler} {a : WorkAssignment} {work : List WorkAssignment} {m m' : Master}

/-! ### One assignment -/

/-- What `mark_assigned` does to the records. -/
theorem markAssigned_eq_ok_iff : (s.markAssigned a).1 = .ok () ↔ Accepts s a := by
  unfold markAssigned
  split_ifs with none_left
  · exact iff_of_false (by simp) fun h => h.unassigned none_left
  split
  case h_1 missing =>
    refine iff_of_false (by simp) ?_
    rintro ⟨-, ⟨w, hw, -⟩, -⟩
    rw [missing] at hw
    cases hw
  case h_2 w hw =>
    split_ifs with busy
    · refine iff_of_false (by simp) ?_
      rintro ⟨-, ⟨w', hw', idle⟩, -⟩
      rw [hw] at hw'
      cases hw'
      rw [busy] at idle
      cases idle
    · rw [(takeItems_spec a.worker a.items).2]
      exact ⟨fun h => ⟨none_left, ⟨w, hw, by simpa using busy⟩, h⟩, fun h => h.items⟩

theorem workerData_markAssigned (h : Accepts s a) : ∃ w, s.workerData[a.worker]? = some w ∧
    (s.markAssigned a).2.workerData = s.workerData.set a.worker { w with assigned := true } := by
  obtain ⟨w, hw, idle⟩ := h.worker
  refine ⟨w, hw, ?_⟩
  simp only [markAssigned, if_neg h.unassigned, hw, idle, Bool.false_eq_true, if_false]
  exact (takeItems_spec a.worker a.items).1

/-- The body of the loop, where it returns. -/
theorem push_eq_ok_iff : push a m = .ok () m' ↔ m.c < m.msg_status.length ∧ Accepts m.work_scheduler a ∧
    m' = { m with
      work_scheduler := (m.work_scheduler.markAssigned a).2
      sends := m.sends ++ [⟨worker_rank a.worker, a.items⟩]
      msg_status := m.msg_status.set m.c (some m.sends.length)
      marked := m.marked ++ [a] } := by
  rw [push, bind_returns_iff, ← markAssigned_eq_ok_iff]
  constructor
  · rintro ⟨⟨⟩, m₁, hsend, hmark⟩
    unfold isend at hsend
    split_ifs at hsend with within
    · cases hsend
      unfold mark_assigned at hmark
      cases hresult : m.work_scheduler.markAssigned a with
      | mk outcome s' =>
        rw [hresult] at hmark
        cases outcome with
        | error e => cases hmark
        | ok u =>
          cases hmark
          exact ⟨within, rfl, rfl⟩
  · rintro ⟨within, accepted, rfl⟩
    refine ⟨(), _, by rw [isend, if_pos within], ?_⟩
    unfold mark_assigned
    cases hresult : m.work_scheduler.markAssigned a with
    | mk outcome s' =>
      rw [hresult] at accepted
      cases accepted
      rfl

/-! ### The loop -/

/-- The scheduler accepts the assignments one after the other. -/
def AcceptsAll : List WorkAssignment → WorkerScheduler → Prop
  | [], _ => True
  | a :: work, s => Accepts s a ∧ AcceptsAll work (s.markAssigned a).2

/-- The element of the vector in which one request after the other is stored, and the elements around it. -/
def overwrite (slots : List (Option ℕ)) (c first count : ℕ) : List (Option ℕ) :=
  if count = 0 then slots else slots.set c (some (first + count - 1))

theorem overwrite_set (slots : List (Option ℕ)) (c first count : ℕ) :
    overwrite (slots.set c (some first)) c (first + 1) count = overwrite slots c first (count + 1) := by
  cases count with
  | zero => rfl
  | succ count =>
    rw [overwrite, overwrite, if_neg count.succ_ne_zero, if_neg (count + 1).succ_ne_zero, List.set_set,
      Nat.add_right_comm, Nat.add_assoc]

/-- **The loop**, where it returns: all is done for each assignment, but the requests replace each other. -/
theorem forM_push_eq_ok_iff (within : m.c < m.msg_status.length ∨ work = []) :
    work.forM push m = .ok () m' ↔ AcceptsAll work m.work_scheduler ∧ m' = { m with
      work_scheduler := work.foldl (fun s a => (s.markAssigned a).2) m.work_scheduler
      sends := m.sends ++ work.map fun a => ⟨worker_rank a.worker, a.items⟩
      msg_status := overwrite m.msg_status m.c m.sends.length work.length
      marked := m.marked ++ work } := by
  induction work generalizing m with
  | nil =>
    simp only [AcceptsAll, List.foldl_nil, List.map_nil, List.append_nil, List.length_nil, overwrite,
      if_true, true_and]
    exact ⟨fun h => by cases h; rfl, fun h => by rw [h]; rfl⟩
  | cons a work ih =>
    have inside : m.c < m.msg_status.length := within.resolve_right (List.cons_ne_nil _ _)
    change (push a >>= fun _ => work.forM push) m = _ ↔ _
    rw [bind_returns_iff]
    constructor
    · rintro ⟨⟨⟩, m₁, hpush, hrest⟩
      obtain ⟨-, accepted, rfl⟩ := push_eq_ok_iff.mp hpush
      obtain ⟨all, rfl⟩ := (ih (.inl (by simpa using inside))).mp hrest
      refine ⟨⟨accepted, all⟩, ?_⟩
      simp [overwrite_set]
    · rintro ⟨⟨accepted, all⟩, rfl⟩
      have first := push_eq_ok_iff.mpr ⟨inside, accepted, rfl⟩
      refine ⟨(), _, first, (ih (.inl (by simpa using inside))).mpr ⟨all, ?_⟩⟩
      simp [overwrite_set]

/-- **All assignments** are sent and marked when the scheduler accepts them; of the requests only the last is waited
for. -/
theorem push_ok : push_assignments work s = .ok () m ↔ AcceptsAll work s ∧ m = {
    work_scheduler := work.foldl (fun s a => (s.markAssigned a).2) s
    sends := work.map fun a => ⟨worker_rank a.worker, a.items⟩
    msg_status := overwrite (List.replicate work.length none) 0 0 work.length
    c := 0
    marked := work
    waited := overwrite (List.replicate work.length none) 0 0 work.length } := by
  have within : 0 < (List.replicate work.length (none : Option ℕ)).length ∨ work = [] := by
    rw [List.length_replicate, List.length_pos_iff]
    exact (em (work = [])).symm
  rw [push_assignments, bind_returns_iff]
  constructor
  · rintro ⟨⟨⟩, m₁, hloop, hwait⟩
    obtain ⟨all, rfl⟩ := (forM_push_eq_ok_iff within).mp hloop
    cases hwait
    exact ⟨all, by simp⟩
  · rintro ⟨all, rfl⟩
    refine ⟨(), _, (forM_push_eq_ok_iff within).mpr ⟨all, rfl⟩, ?_⟩
    simp [wait_all, modify_run]

/-! ### The requests -/

/-- With two assignments or more, an element of the vector stays as it was constructed. -/
theorem length_le_one_of_initialized {n : ℕ} (h : none ∉ overwrite (List.replicate n none) 0 0 n) : n ≤ 1 := by
  by_contra beyond
  obtain ⟨k, rfl⟩ : ∃ k, n = k + 2 := ⟨n - 2, by omega⟩
  exact h (by simp [overwrite, List.replicate_succ])

/-- The function returns, and every message is tracked. -/
def Tracks (work : List WorkAssignment) (s : WorkerScheduler) : Prop :=
  ∃ m, push_assignments work s = .ok () m ∧ Tracked work m

theorem tracks_nil : Tracks [] s := by
  refine ⟨_, push_ok.mpr ⟨trivial, rfl⟩, ?_⟩
  constructor <;> simp [overwrite]

theorem tracks_singleton (h : Accepts s a) : Tracks [a] s := by
  refine ⟨_, push_ok.mpr ⟨⟨h, trivial⟩, rfl⟩, ⟨rfl, ?_, ?_, rfl, ?_⟩⟩
  · intro n hn
    obtain rfl : n = 0 := by simpa using hn
    refine ⟨0, rfl, fun i hi => ?_⟩
    cases i with
    | zero => rfl
    | succ i => cases hi
  · simp [overwrite]
  · intro b hb
    obtain rfl := List.mem_singleton.mp hb
    obtain ⟨w, hw, hdata⟩ := workerData_markAssigned h
    refine ⟨{ w with assigned := true }, ?_, rfl⟩
    rw [List.foldl_cons, List.foldl_nil, hdata, List.getElem?_set_self (List.getElem?_eq_some_iff.mp hw).1]

/-- **Every message is tracked** if and only if there is at most one, and the scheduler accepts the assignment. -/
theorem tracked_iff (work : List WorkAssignment) (s : WorkerScheduler) :
    Tracks work s ↔ work.length ≤ 1 ∧ ∀ a ∈ work, Accepts s a := by
  constructor
  · rintro ⟨m, hpush, tracked⟩
    obtain ⟨all, hm⟩ := push_ok.mp hpush
    have initialized := tracked.initialized
    rw [hm] at initialized
    have few : work.length ≤ 1 := length_le_one_of_initialized initialized
    refine ⟨few, fun a ha => ?_⟩
    obtain ⟨b, rfl⟩ := List.length_eq_one_iff.mp (le_antisymm few (List.length_pos_of_mem ha))
    rw [List.mem_singleton.mp ha]
    exact all.1
  · rintro ⟨few, accepted⟩
    rcases Nat.le_one_iff_eq_zero_or_eq_one.mp few with none_left | one
    · rw [List.length_eq_zero_iff.mp none_left]
      exact tracks_nil
    · obtain ⟨a, rfl⟩ := List.length_eq_one_iff.mp one
      exact tracks_singleton (accepted a (List.mem_singleton_self a))

/-! ### Rounds -/

/-- The scheduler accepts the assignments that it has proposed. -/
theorem acceptsAll_of_round {kind : WorkerType} (hs : Consistent kind s) (hround : Round s work) :
    AcceptsAll work s := by
  obtain ⟨-, distinct, idle, -, rest, queued⟩ := hround
  have queued : (work.flatMap (·.items) ++ rest).Perm s.queue := queued ▸ List.Perm.refl _
  clear * - hs distinct idle queued
  induction work generalizing s with
  | nil => trivial
  | cons a work ih =>
    obtain ⟨notLater, distinct⟩ := List.nodup_cons.mp distinct
    obtain ⟨w, hw, free⟩ := idle a List.mem_cons_self
    rw [List.flatMap_cons, List.append_assoc] at queued
    obtain ⟨q, hq, marked⟩ := markAssigned_ok hs hw free queued
    have accepted : Accepts s a := markAssigned_eq_ok_iff.mp (by rw [marked])
    refine ⟨accepted, ih ?_ distinct ?_ ?_⟩
    · rw [marked]
      have one : 0 < s.unassigned := Nat.pos_of_ne_zero accepted.unassigned
      exact hs.set hw (v := { w with assigned := true }) rfl rfl (by simp [free]; omega) rfl rfl rfl
    · intro b hb
      obtain ⟨v, hv, free'⟩ := idle b (List.mem_cons_of_mem _ hb)
      have other : a.worker ≠ b.worker := fun same =>
        notLater (List.mem_map.mpr ⟨b, hb, same.symm⟩)
      exact ⟨v, by rw [marked, List.getElem?_set_ne other, hv], free'⟩
    · rw [marked]
      exact hq.symm

/-- **Rounds of the scheduler**: the messages of a round are tracked if and only if there is only one. -/
theorem round_tracked_iff {kind : WorkerType} (hs : Consistent kind s) (hround : Round s work) :
    Tracks work s ↔ work.length = 1 := by
  have all := acceptsAll_of_round hs hround
  rw [tracked_iff]
  match work, hround.ne_nil, all with
  | [a], _, all => exact iff_of_true ⟨le_rfl, fun b hb => List.mem_singleton.mp hb ▸ all.1⟩ rfl
  | a :: b :: work, _, _ => simp

/-- Two workers, and two items for them. -/
def twoWorkers : WorkerScheduler where
  numberWorkers := 2
  workerData := [{ number := 0, initialized := true }, { number := 1, initialized := true }]
  unassigned := 2
  active := 2
  hasCpus := true
  queue := [0, 1]

/-- The request of the first message is lost. -/
theorem two_messages_not_tracked :
    ¬∀ (work : List WorkAssignment) (s : WorkerScheduler), AcceptsAll work s → Tracks work s := by
  intro h
  obtain ⟨m, hpush, tracked⟩ := h [⟨0, [0]⟩, ⟨1, [1]⟩] twoWorkers
    ⟨markAssigned_eq_ok_iff.mp (by decide), markAssigned_eq_ok_iff.mp (by decide), trivial⟩
  obtain ⟨-, rfl⟩ := push_ok.mp hpush
  obtain ⟨i, slot, -⟩ := tracked.slots 0 (by decide)
  have none_left : some 0 ∉ overwrite (List.replicate 2 none) 0 0 2 := by decide
  exact none_left (List.mem_of_getElem? slot)

end CppTransport.Runtime.AssignmentRequests
