import CppTransport.Runtime.PollWorkers
import Mathlib.Algebra.Ring.Nat

/-!
# Progress of the poll loop

The scheduler raises its count of items in flight by the length of each
assignment, and lowers it by the number of items the worker reports; it checks
the count when the last worker closes down. A worker whose assignment throws
part-way reports the items it got through.

## What is proved

`Polling` is the invariant of runs in which workers follow `workerProtocol`: at
every moment each worker holds exactly one assignment (on its way to it, being
processed, or reported and on its way back) iff the scheduler has it down as
assigned, end-of-work is the last message to a worker and close-down its last
message, and the items in flight are those of the assignments out plus those
missing from reports. The scheduler throws only if items are missing
(`polling_of_reachable`), and then `poll_workers` cannot return
(`unreported_eq_zero_of_returned`). If none are missing, then once all workers
have closed down `poll_workers` returns, with `false` iff an assignment failed
(`full_reports_complete`).
-/

namespace CppTransport.Runtime

open CppTransport.Library WorkerScheduler

/-! ### What a worker owes -/

/-- Items of the assignment a message carries. -/
def ToWorker.load : ToWorker → ℕ
  | .newWorkAssignment items => items.length
  | .endOfWork => 0

/-- Items of the assignment being processed. -/
def WorkerState.load : WorkerState → ℕ
  | .working items => items.length
  | _ => 0

/-- Items a message reports. -/
def ToMaster.load : ToMaster → ℕ
  | .finished _ _ payload => payload.itemsProcessed
  | _ => 0

/-- Is the message an assignment? -/
def ToWorker.isTask : ToWorker → Bool
  | .newWorkAssignment _ => true
  | .endOfWork => false

/-- Is the message a report? -/
def ToMaster.isReport : ToMaster → Bool
  | .finished _ _ _ => true
  | _ => false

/-- Number of assignments being processed. -/
def WorkerState.tasks : WorkerState → ℕ
  | .working _ => 1
  | _ => 0

/-- The worker has not taken the end-of-work message. -/
def WorkerState.isOpen : WorkerState → Bool
  | .idle | .working _ => true
  | .closing | .closed => false

/-- Items the scheduler will see reported for the assignments out. -/
def Link.load (L : Link) : ℕ :=
  (L.inbox.map ToWorker.load).sum + L.state.load + (L.outbox.map ToMaster.load).sum

/-- Number of assignments out: on their way, being processed, or reported. -/
def Link.tasks (L : Link) : ℕ :=
  L.inbox.countP ToWorker.isTask + L.state.tasks + L.outbox.countP ToMaster.isReport

/-- Number of failed assignments reported and not received. -/
def Link.fails (L : Link) : ℕ := L.outbox.countP ToMaster.isFail

/-- What holds between a worker, its channels and its record. -/
structure LinkOk (aggs : Aggregators) (sent : Bool) (v : WorkerSchedulingData) (L : Link) : Prop where
  /-- One assignment is out iff the worker is marked as assigned. -/
  tasks_eq : L.tasks = if v.assigned then 1 else 0
  /-- Assignments precede end-of-work, which is there from when it was sent until it is taken. -/
  inbox_eq : ∃ works : List (List ℕ), L.inbox = works.map ToWorker.newWorkAssignment ++
    (if sent && L.state.isOpen then [.endOfWork] else [])
  /-- A worker that has taken end-of-work gets no more messages. -/
  shut : L.state.isOpen = false → sent = true ∧ L.inbox = []
  /-- Close-down is the last message, there from when the worker closed until it is received. -/
  outbox_eq : ∃ body, .workerCloseDown ∉ body ∧ L.outbox = body ++
    (if L.state = .closed ∧ v.active = true then [.workerCloseDown] else [])
  /-- A worker marked as inactive has closed down and all its messages were received. -/
  inactive : v.active = false → L.state = .closed ∧ L.outbox = []
  /-- The master can receive every message. -/
  known : ∀ msg ∈ L.outbox, World.refuses aggs msg = false

/-- What `workerProtocol` lets a worker do. -/
theorem workerProtocol_cases {aggs : Aggregators} {s s' : WorkerState} {msg : ToMaster}
    (h : workerProtocol aggs s msg s' = true) :
    (∃ items kind failed payload, s = .working items ∧ msg = .finished kind failed payload ∧ s' = .idle ∧
      payload.itemsProcessed ≤ items.length) ∨
    (s = .closing ∧ msg = .workerCloseDown ∧ s' = .closed) ∨
    (s' = s ∧ s ≠ .closed ∧ msg ≠ .workerCloseDown ∧ msg.load = 0 ∧ msg.isReport = false ∧
      msg.isFail = false ∧ World.refuses aggs msg = false) := by
  cases msg with
  | newWorkAcknowledgment => cases s <;> cases s' <;> simp [workerProtocol] at h
  | finished kind failed payload =>
    cases s <;> cases s' <;> simp [workerProtocol] at h
    exact Or.inl ⟨_, kind, failed, payload, rfl, rfl, rfl, h.1.1⟩
  | workerCloseDown =>
    cases s <;> cases s' <;> simp [workerProtocol] at h
    exact Or.inr (Or.inl ⟨rfl, rfl, rfl⟩)
  | dataReady kind container =>
    have h' : s = s' ∧ s ≠ .closed ∧ aggs kind = true := by
      cases s <;> cases s' <;> simp_all [workerProtocol]
    exact Or.inr (Or.inr ⟨h'.1.symm, h'.2.1, by simp, rfl, rfl, rfl, by simp [World.refuses, h'.2.2]⟩)
  | reportError message =>
    have h' : s = s' ∧ s ≠ .closed := by cases s <;> cases s' <;> simp_all [workerProtocol]
    exact Or.inr (Or.inr ⟨h'.1.symm, h'.2, by simp, rfl, rfl, rfl, rfl⟩)
  | unexpected tag =>
    have h' : s = s' ∧ s ≠ .closed := by cases s <;> cases s' <;> simp_all [workerProtocol]
    exact Or.inr (Or.inr ⟨h'.1.symm, h'.2, by simp, rfl, rfl, rfl, rfl⟩)

section Link

variable {aggs : Aggregators} {sent : Bool} {v : WorkerSchedulingData} {L : Link}

/-- While a worker has not closed down its channel holds no close-down message. -/
theorem LinkOk.not_mem_of_ne_closed (h : LinkOk aggs sent v L) (hs : L.state ≠ .closed) :
    .workerCloseDown ∉ L.outbox := by
  obtain ⟨body, hbody, hout⟩ := h.outbox_eq
  simpa [hout, hs] using hbody

theorem LinkOk.active_of_ne_closed (h : LinkOk aggs sent v L) (hs : L.state ≠ .closed) :
    v.active = true := by
  cases ha : v.active with
  | true => rfl
  | false => exact absurd (h.inactive ha).1 hs

/-- A worker sends a message its protocol allows. -/
theorem LinkOk.emit (h : LinkOk aggs sent v L) {msg : ToMaster} {state : WorkerState}
    (hrule : workerProtocol aggs L.state msg state = true) :
    LinkOk aggs sent v (L.emit msg state) ∧
      (L.emit msg state).load + L.state.shortfall msg = L.load ∧
      (L.emit msg state).fails = L.fails + (if msg.isFail then 1 else 0) := by
  have htasks := h.tasks_eq
  simp only [Link.tasks] at htasks
  rcases workerProtocol_cases hrule with ⟨items, kind, failed, payload, hs, rfl, rfl, hle⟩ |
    ⟨hs, rfl, rfl⟩ | ⟨rfl, hs, hmsg, hload, hrep, hfail, href⟩
  · have hne : L.state ≠ .closed := by simp [hs]
    have hout := h.not_mem_of_ne_closed hne
    refine ⟨⟨?_, ?_, by simp [Link.emit, WorkerState.isOpen], ?_, fun ha => ?_, ?_⟩, ?_, ?_⟩
    · simp only [hs, WorkerState.tasks] at htasks
      simp only [Link.emit, Link.tasks, WorkerState.tasks, List.countP_append, List.countP_singleton,
        ToMaster.isReport, if_true]
      omega
    · have hin := h.inbox_eq
      simpa [Link.emit, hs, WorkerState.isOpen] using hin
    · exact ⟨L.outbox ++ [.finished kind failed payload], by simp [hout], by simp [Link.emit]⟩
    · exact absurd (h.inactive ha).1 hne
    · intro m hm
      rcases List.mem_append.mp hm with hm | hm
      · exact h.known m hm
      · rw [List.mem_singleton.mp hm]
        rfl
    · simp only [Link.load, Link.emit, hs, WorkerState.load, WorkerState.shortfall, List.map_append,
        List.map_singleton, List.sum_append, List.sum_singleton, ToMaster.load]
      omega
    · simp [Link.fails, Link.emit, List.countP_append, List.countP_singleton]
  · have hne : L.state ≠ .closed := by simp [hs]
    have hout := h.not_mem_of_ne_closed hne
    obtain ⟨hsent, hin⟩ := h.shut (by simp [hs, WorkerState.isOpen])
    refine ⟨⟨?_, ⟨[], by simp [Link.emit, WorkerState.isOpen, hin]⟩, fun _ => ⟨hsent, hin⟩, ?_,
      fun ha => ?_, ?_⟩, ?_, ?_⟩
    · simp only [hs, WorkerState.tasks] at htasks
      simpa [Link.emit, Link.tasks, WorkerState.tasks, ToMaster.isReport] using htasks
    · exact ⟨L.outbox, hout, by simp [Link.emit, h.active_of_ne_closed hne]⟩
    · exact absurd (h.inactive ha).1 hne
    · intro m hm
      rcases List.mem_append.mp hm with hm | hm
      · exact h.known m hm
      · rw [List.mem_singleton.mp hm]
        rfl
    · simp [Link.load, Link.emit, hs, WorkerState.load, WorkerState.shortfall, ToMaster.load]
    · simp [Link.fails, Link.emit, ToMaster.isFail]
  · have hout := h.not_mem_of_ne_closed hs
    refine ⟨⟨?_, h.inbox_eq, h.shut, ?_, fun ha => ?_, ?_⟩, ?_, ?_⟩
    · simpa [Link.emit, Link.tasks, hrep] using htasks
    · exact ⟨L.outbox ++ [msg], by simp [hout, Ne.symm hmsg], by simp [Link.emit, hs]⟩
    · exact absurd (h.inactive ha).1 hs
    · intro m hm
      rcases List.mem_append.mp hm with hm | hm
      · exact h.known m hm
      · rw [List.mem_singleton.mp hm]
        exact href
    · have hshort : L.state.shortfall msg = 0 := by
        cases msg <;> cases L.state <;> simp_all [WorkerState.shortfall, ToMaster.isReport]
      simp [Link.load, Link.emit, hload, hshort]
    · simp [Link.fails, Link.emit, hfail]

/-- A worker takes an assignment and acknowledges it. -/
theorem LinkOk.acceptAssignment (h : LinkOk aggs sent v L) {items : List ℕ} {inbox : List ToWorker}
    (hs : L.state = .idle) (hin : L.inbox = .newWorkAssignment items :: inbox) :
    LinkOk aggs sent v { L.emit .newWorkAcknowledgment (.working items) with inbox := inbox } ∧
      Link.load { L.emit .newWorkAcknowledgment (.working items) with inbox := inbox } = L.load ∧
      Link.fails { L.emit .newWorkAcknowledgment (.working items) with inbox := inbox } = L.fails := by
  have hne : L.state ≠ .closed := by simp [hs]
  have hout := h.not_mem_of_ne_closed hne
  have htasks := h.tasks_eq
  simp only [Link.tasks, hs, hin, WorkerState.tasks, List.countP_cons, ToWorker.isTask, if_true] at htasks
  obtain ⟨works, hworks⟩ := h.inbox_eq
  refine ⟨⟨?_, ?_, by simp [Link.emit, WorkerState.isOpen], ?_, fun ha => ?_, ?_⟩, ?_, ?_⟩
  · simp only [Link.emit, Link.tasks, WorkerState.tasks, List.countP_append, List.countP_singleton,
      ToMaster.isReport, Bool.false_eq_true, if_false]
    omega
  · rw [hin, hs] at hworks
    cases works with
    | nil => cases sent <;> simp [WorkerState.isOpen] at hworks
    | cons x works =>
      refine ⟨works, ?_⟩
      simpa [Link.emit, WorkerState.isOpen] using (List.cons.inj hworks).2
  · exact ⟨L.outbox ++ [.newWorkAcknowledgment], by simp [hout], by simp [Link.emit]⟩
  · exact absurd (h.inactive ha).1 hne
  · intro m hm
    rcases List.mem_append.mp hm with hm | hm
    · exact h.known m hm
    · rw [List.mem_singleton.mp hm]
      rfl
  · simp only [Link.load, Link.emit, hs, hin, WorkerState.load, ToWorker.load, ToMaster.load,
      List.map_cons, List.sum_cons, List.map_append, List.sum_append, List.map_nil, List.sum_nil]
    omega
  · simp [Link.fails, Link.emit, ToMaster.isFail]

/-- A worker takes end-of-work: nothing else is on its way to it. -/
theorem LinkOk.acceptEndOfWork (h : LinkOk aggs sent v L) {inbox : List ToWorker}
    (hs : L.state = .idle) (hin : L.inbox = .endOfWork :: inbox) :
    LinkOk aggs sent v { L with inbox := inbox, state := .closing } ∧
      Link.load { L with inbox := inbox, state := .closing } = L.load := by
  have hne : L.state ≠ .closed := by simp [hs]
  have hout := h.not_mem_of_ne_closed hne
  have htasks := h.tasks_eq
  simp only [Link.tasks, hs, hin, WorkerState.tasks, List.countP_cons, ToWorker.isTask,
    Bool.false_eq_true, if_false] at htasks
  obtain ⟨works, hworks⟩ := h.inbox_eq
  rw [hin, hs] at hworks
  obtain ⟨rfl, hsent⟩ : inbox = [] ∧ sent = true := by
    cases works with
    | nil => cases sent <;> simp_all [WorkerState.isOpen]
    | cons x works => simp at hworks
  refine ⟨⟨?_, ⟨[], by simp [WorkerState.isOpen]⟩, fun _ => ⟨hsent, rfl⟩, ⟨L.outbox, hout, by simp⟩,
    fun ha => absurd (h.inactive ha).1 hne, h.known⟩, ?_⟩
  · simpa [Link.tasks, WorkerState.tasks] using htasks
  · simp [Link.load, hs, hin, WorkerState.load, ToWorker.load]

/-- End-of-work is sent. -/
theorem LinkOk.sendClosedown (h : LinkOk aggs false v L) :
    LinkOk aggs true v { L with inbox := L.inbox ++ [.endOfWork] } := by
  have hopen : L.state.isOpen = true := by
    cases ho : L.state.isOpen with
    | true => rfl
    | false => cases (h.shut ho).1
  obtain ⟨works, hworks⟩ := h.inbox_eq
  have htasks := h.tasks_eq
  refine ⟨?_, ⟨works, ?_⟩, fun hs => ?_, h.outbox_eq, h.inactive, h.known⟩
  · simpa [Link.tasks, ToWorker.isTask] using htasks
  · simpa [hopen] using hworks
  · rw [hopen] at hs
    cases hs

/-- An assignment is sent to a worker, which is marked as assigned. -/
theorem LinkOk.sendAssignment (h : LinkOk aggs false v L) (hun : v.assigned = false) (items : List ℕ) :
    LinkOk aggs false { v with assigned := true }
      { L with inbox := L.inbox ++ [.newWorkAssignment items] } := by
  have htasks := h.tasks_eq
  obtain ⟨works, hworks⟩ := h.inbox_eq
  refine ⟨?_, ⟨works ++ [items], ?_⟩, fun hs => ?_, h.outbox_eq, h.inactive, h.known⟩
  · simp only [hun, Link.tasks, Bool.false_eq_true, if_false] at htasks
    simp only [Link.tasks, List.countP_append, List.countP_singleton, ToWorker.isTask, if_true]
    omega
  · simpa using hworks
  · cases (h.shut hs).1

/-- A message other than close-down is received. -/
theorem LinkOk.receive (h : LinkOk aggs sent v L) {msg : ToMaster} {outbox : List ToMaster}
    (hout : L.outbox = msg :: outbox) (hmsg : msg ≠ .workerCloseDown) {v' : WorkerSchedulingData}
    (hact : v'.active = v.active)
    (has : (if v'.assigned then 1 else 0) + (if msg.isReport then 1 else 0) = if v.assigned then 1 else 0) :
    LinkOk aggs sent v' { L with outbox := outbox } := by
  have htasks := h.tasks_eq
  obtain ⟨body, hbody, hbodyeq⟩ := h.outbox_eq
  refine ⟨?_, h.inbox_eq, h.shut, ?_, fun ha => ?_, fun m hm => h.known m (hout ▸ List.mem_cons_of_mem _ hm)⟩
  · simp only [Link.tasks, hout, List.countP_cons] at htasks ⊢
    omega
  · cases body with
    | nil =>
      rw [hout, List.nil_append] at hbodyeq
      split at hbodyeq
      · exact absurd (List.cons.inj hbodyeq).1 hmsg
      · cases hbodyeq
    | cons b body =>
      rw [hout, List.cons_append] at hbodyeq
      exact ⟨body, fun hm => hbody (List.mem_cons_of_mem _ hm), by rw [hact]; exact (List.cons.inj hbodyeq).2⟩
  · have := (h.inactive (hact ▸ ha)).2
    rw [hout] at this
    cases this

/-- The close-down message is received: it is the last one, and nothing is left to do. -/
theorem LinkOk.receiveCloseDown (h : LinkOk aggs sent v L) {outbox : List ToMaster}
    (hout : L.outbox = .workerCloseDown :: outbox) :
    v.active = true ∧ L.load = 0 ∧ L.fails = 0 ∧ outbox = [] ∧
      LinkOk aggs sent { v with active := false } { L with outbox := outbox } := by
  obtain ⟨body, hbody, hbodyeq⟩ := h.outbox_eq
  have hnil : body = [] := by
    cases body with
    | nil => rfl
    | cons b body =>
      rw [hout, List.cons_append] at hbodyeq
      exact absurd ((List.cons.inj hbodyeq).1 ▸ List.mem_cons_self) hbody
  rw [hout, hnil, List.nil_append] at hbodyeq
  split at hbodyeq
  · rename_i hclosed
    obtain rfl : outbox = [] := (List.cons.inj hbodyeq).2
    obtain ⟨-, hin⟩ := h.shut (by simp [hclosed.1, WorkerState.isOpen])
    have htasks := h.tasks_eq
    simp only [Link.tasks, hclosed.1, hin, hout] at htasks
    refine ⟨hclosed.2, ?_, ?_, rfl, ?_, h.inbox_eq, h.shut, ⟨[], by simp, by simp⟩,
      fun _ => ⟨hclosed.1, rfl⟩, by simp⟩
    · simp [Link.load, hclosed.1, hin, hout, WorkerState.load, ToMaster.load]
    · simp [Link.fails, hout, ToMaster.isFail]
    · simpa [Link.tasks, hclosed.1, hin, ToMaster.isReport] using htasks
  · cases hbodyeq

/-- An inactive worker owes nothing. -/
theorem LinkOk.load_eq_zero (h : LinkOk aggs sent v L) (ha : v.active = false) :
    L.load = 0 ∧ L.fails = 0 := by
  obtain ⟨hs, hout⟩ := h.inactive ha
  obtain ⟨-, hin⟩ := h.shut (by simp [hs, WorkerState.isOpen])
  simp [Link.load, Link.fails, hs, hin, hout, WorkerState.load]

end Link

/-! ### The invariant -/

/-- **The invariant** of the poll loop with workers that follow the protocol, while nothing was
thrown. -/
structure Polling (kind : WorkerType) (aggs : Aggregators) (w : World) : Prop where
  /-- Nothing was thrown. -/
  not_thrown : ∀ e, w.phase ≠ .thrown e
  /-- Counters and records of the scheduler agree. -/
  consistent : Consistent kind w.sched
  /-- Every worker has its channels. -/
  length_eq : w.links.length = w.sched.workerData.length
  /-- Every worker and its channels are in order. -/
  links : ∀ {i : ℕ} {L : Link} {v : WorkerSchedulingData}, w.links[i]? = some L →
    w.sched.workerData[i]? = some v → LinkOk aggs w.sentClosedown v L
  /-- The items in flight are those that will be reported, and those missing from reports. -/
  inFlight_eq : w.sched.workItemsInFlight = (w.links.map Link.load).sum + w.unreported
  /-- End-of-work is sent when the queue is exhausted. -/
  queue_eq : w.sentClosedown = true → w.sched.queue = []
  /-- The rest of a round can be marked. -/
  round : ∀ work, w.phase = .sending work → (work.map (·.worker)).Nodup ∧
    (∀ a ∈ work, ∃ v, w.sched.workerData[a.worker]? = some v ∧ v.assigned = false) ∧
    (∀ a ∈ work, a.items ≠ []) ∧ ∃ rest, (work.flatMap (·.items) ++ rest).Perm w.sched.queue
  /-- When the last worker closed down no item was in flight. -/
  drained : w.sched.active = 0 → w.sched.workItemsInFlight = 0
  /-- The loop ends when no worker is active. -/
  exhausted : (w.phase = .draining ∨ ∃ b, w.phase = .returned b) → w.sched.active = 0
  /-- The value returned. -/
  returned : ∀ b, w.phase = .returned b → b = w.success
  /-- A failure reported was noted, or its report is on its way. -/
  failures_iff : w.failures = true ↔ w.success = false ∨ 0 < (w.links.map Link.fails).sum

/-- The invariant holds, or the scheduler has thrown and items are missing from reports. -/
def PollingUnlessMissing (kind : WorkerType) (aggs : Aggregators) (w : World) : Prop :=
  ((∃ e, w.phase = .thrown e) ∧ 0 < w.unreported) ∨ Polling kind aggs w

section Events

variable {P : Platform} {kind : WorkerType} {aggs : Aggregators} {w : World} {i : ℕ} {L M : Link}

/-- Every worker has a record. -/
theorem Polling.exists_record (h : Polling kind aggs w) (hL : w.links[i]? = some L) :
    ∃ v, w.sched.workerData[i]? = some v := by
  have hlt : i < w.sched.workerData.length := h.length_eq ▸ (List.getElem?_eq_some_iff.mp hL).1
  exact ⟨_, List.getElem?_eq_getElem hlt⟩

/-- Every record has its channels. -/
theorem Polling.exists_link (h : Polling kind aggs w) {v : WorkerSchedulingData}
    (hv : w.sched.workerData[i]? = some v) : ∃ L, w.links[i]? = some L := by
  have hlt : i < w.links.length := h.length_eq ▸ (List.getElem?_eq_some_iff.mp hv).1
  exact ⟨_, List.getElem?_eq_getElem hlt⟩

/-- Changing the channels of one worker and its record. -/
theorem Polling.links_set (h : Polling kind aggs w) {v v' : WorkerSchedulingData} (hL : w.links[i]? = some L)
    (hv : w.sched.workerData[i]? = some v) (hM : LinkOk aggs w.sentClosedown v' M) {j : ℕ} {N : Link}
    {u : WorkerSchedulingData} (hN : (w.links.set i M)[j]? = some N)
    (hu : (w.sched.workerData.set i v')[j]? = some u) : LinkOk aggs w.sentClosedown u N := by
  obtain ⟨rfl, rfl⟩ | ⟨hne, hN⟩ := (getElem?_set_eq_some_iff hL).mp hN
  · obtain ⟨-, rfl⟩ | ⟨hne, -⟩ := (getElem?_set_eq_some_iff hv).mp hu
    · exact hM
    · exact absurd rfl hne
  · obtain ⟨rfl, -⟩ | ⟨-, hu⟩ := (getElem?_set_eq_some_iff hv).mp hu
    · exact absurd rfl hne
    · exact h.links hN hu

/-- Changing the channels of one worker. -/
theorem Polling.setLink (h : Polling kind aggs w) (hL : w.links[i]? = some L) {failures : Bool}
    {unreported : ℕ}
    (hok : ∀ v, LinkOk aggs w.sentClosedown v L → LinkOk aggs w.sentClosedown v M)
    (hload : M.load + unreported = L.load + w.unreported)
    (hfails : L.fails ≤ M.fails ∧ (failures = true ↔ w.failures = true ∨ L.fails < M.fails)) :
    Polling kind aggs { w with
      links := w.links.set i M, failures := failures, unreported := unreported } := by
  have hsum := sum_map_set_add (b := M) hL Link.load
  have hsumf := sum_map_set_add (b := M) hL Link.fails
  exact {
    not_thrown := h.not_thrown
    consistent := h.consistent
    length_eq := by
      rw [List.length_set]
      exact h.length_eq
    links := fun hN hv => by
      rcases (getElem?_set_eq_some_iff hL).mp hN with ⟨rfl, rfl⟩ | ⟨-, hN⟩
      · exact hok _ (h.links hL hv)
      · exact h.links hN hv
    inFlight_eq := by
      have := h.inFlight_eq
      show w.sched.workItemsInFlight = ((w.links.set i M).map Link.load).sum + unreported
      omega
    queue_eq := h.queue_eq
    round := h.round
    drained := h.drained
    exhausted := h.exhausted
    returned := h.returned
    failures_iff := by
      have := h.failures_iff
      show failures = true ↔ w.success = false ∨ 0 < ((w.links.set i M).map Link.fails).sum
      rw [hfails.2, this]
      constructor
      · rintro ((hs | hpos) | hlt)
        · exact Or.inl hs
        · right; omega
        · right; omega
      · rintro (hs | hpos)
        · exact Or.inl (Or.inl hs)
        · by_cases hlt : L.fails < M.fails
          · exact Or.inr hlt
          · left; right; omega }

/-- Moving on to a phase inside the loop. -/
theorem Polling.setPhase (h : Polling kind aggs w) {phase : Phase} (ht : ∀ e, phase ≠ .thrown e)
    (hs : ∀ work, phase ≠ .sending work) (hd : phase ≠ .draining) (hr : ∀ b, phase ≠ .returned b) :
    Polling kind aggs { w with phase := phase } :=
  { h with
    not_thrown := ht
    round := fun work hp => absurd hp (hs work)
    exhausted := fun hp => by
      rcases hp with hp | ⟨b, hp⟩
      · exact absurd hp hd
      · exact absurd hp (hr b)
    returned := fun b hp => absurd hp (hr b) }

theorem Polling.sendClosedown (h : Polling kind aggs w) (hfin : w.sched.isFinished = true)
    (hsent : w.sentClosedown = false) (hphase : w.phase = .top) : Polling kind aggs w.sendClosedown := by
  have hlinks := @h.links
  rw [hsent] at hlinks
  exact {
    not_thrown := h.not_thrown
    consistent := h.consistent
    length_eq := by
      rw [World.sendClosedown, List.length_map]
      exact h.length_eq
    links := fun hN hv => by
      simp only [World.sendClosedown, List.getElem?_map, Option.map_eq_some_iff] at hN
      obtain ⟨N, hN, rfl⟩ := hN
      exact (hlinks hN hv).sendClosedown
    inFlight_eq := by
      rw [World.sendClosedown, List.map_map]
      refine h.inFlight_eq.trans ?_
      congr 3
      funext N
      simp [Link.load, ToWorker.load]
    queue_eq := fun _ => by simpa [isFinished, World.sendClosedown] using hfin
    round := fun work hp => by simp [World.sendClosedown, hphase] at hp
    drained := h.drained
    exhausted := h.exhausted
    returned := h.returned
    failures_iff := by
      rw [World.sendClosedown, List.map_map]
      exact h.failures_iff }

theorem Polling.loopHead (h : Polling kind aggs w) (hphase : w.phase = .top) :
    Polling kind aggs (w.loopHead P) := by
  unfold World.loopHead
  split
  · rename_i hall
    exact { h with
      not_thrown := by simp
      round := by simp
      exhausted := fun _ => by simpa [allInactive] using hall
      returned := by simp }
  · have hsend : Polling kind aggs (if w.sched.isFinished && !w.sentClosedown then w.sendClosedown else w) := by
      split
      · rename_i hcond
        rw [Bool.and_eq_true, Bool.not_eq_true'] at hcond
        exact h.sendClosedown hcond.1 hcond.2 hphase
      · exact h
    dsimp only
    generalize (if w.sched.isFinished && !w.sentClosedown then w.sendClosedown else w) = u at hsend
    split
    · rename_i hassign
      obtain ⟨l, hl, hround⟩ := assignWork_spec P hsend.consistent hassign
      rw [hl]
      obtain ⟨rest, hrest⟩ := hround.items_prefix
      exact { hsend with
        not_thrown := by simp
        round := fun work hp => by
          obtain rfl : l = work := by simpa using hp
          exact ⟨hround.workers_nodup, hround.unassigned, hround.items_ne_nil, rest,
            hrest ▸ List.Perm.refl _⟩
        exhausted := by simp
        returned := by simp }
    · exact hsend.setPhase (by simp) (by simp) (by simp) (by simp)

theorem Polling.sendAssignment (h : Polling kind aggs w) {a : WorkAssignment} {work : List WorkAssignment}
    (hphase : w.phase = .sending (a :: work)) : Polling kind aggs (w.sendAssignment a work) := by
  obtain ⟨hnodup, hun, hitems, rest, hrest⟩ := h.round _ hphase
  obtain ⟨v, hv, hvun⟩ := hun a (by simp)
  obtain ⟨L, hL⟩ := h.exists_link hv
  rw [List.flatMap_cons, List.append_assoc] at hrest
  obtain ⟨q, hq, hmark⟩ := markAssigned_ok h.consistent hv hvun hrest
  have hsent : w.sentClosedown = false := by
    cases hs : w.sentClosedown with
    | false => rfl
    | true =>
      rw [h.queue_eq hs, List.perm_nil, List.append_eq_nil_iff] at hrest
      exact absurd hrest.1 (hitems a (by simp))
  have hlink := h.links hL hv
  rw [hsent] at hlink
  have hact : v.active = true := hlink.active_of_ne_closed fun hs => by
    cases (hlink.shut (by simp [hs, WorkerState.isOpen])).1
  have hactive : w.sched.active ≠ 0 := by
    rw [h.consistent.active_eq]
    exact (countP_pos_of_getElem? hv hact).ne'
  have hpos : 0 < w.sched.unassigned := by
    rw [h.consistent.unassigned_eq]
    exact countP_pos_of_getElem? hv (by simp [hvun])
  rw [List.map_cons, List.nodup_cons] at hnodup
  unfold World.sendAssignment
  simp only [hmark, hL]
  generalize hM : ({ L with inbox := L.inbox ++ [.newWorkAssignment a.items] } : Link) = M
  have hload : M.load = L.load + a.items.length := by
    simp only [← hM, Link.load, List.map_append, List.sum_append, List.map_singleton,
      List.sum_singleton, ToWorker.load]
    omega
  have hfails : M.fails = L.fails := by rw [← hM]; rfl
  have hsum := sum_map_set_add (b := M) hL Link.load
  have hsumf := sum_map_set_add (b := M) hL Link.fails
  exact {
    not_thrown := by simp
    consistent := by
      refine h.consistent.set hv (v := { v with assigned := true }) rfl rfl ?_ ?_ rfl rfl
      · simp only [hvun, if_true, Bool.false_eq_true, if_false]
        omega
      · rfl
    length_eq := by simpa using h.length_eq
    links := h.links_set hL hv (hsent.symm ▸ hM ▸ hlink.sendAssignment hvun a.items)
    inFlight_eq := by
      have := h.inFlight_eq
      show w.sched.workItemsInFlight + a.items.length =
        ((w.links.set a.worker M).map Link.load).sum + w.unreported
      omega
    queue_eq := fun hs => by
      dsimp only at hs
      rw [hsent] at hs
      cases hs
    round := fun work' hp => by
      obtain rfl : work = work' := by simpa using hp
      refine ⟨hnodup.2, fun b hb => ?_, fun b hb => hitems b (List.mem_cons_of_mem _ hb), rest, hq.symm⟩
      obtain ⟨u, hu, huun⟩ := hun b (List.mem_cons_of_mem _ hb)
      have hne : b.worker ≠ a.worker := fun hba => hnodup.1 (List.mem_map.mpr ⟨b, hb, hba⟩)
      exact ⟨u, (getElem?_set_eq_some_iff hv).mpr (Or.inr ⟨hne, hu⟩), huun⟩
    drained := fun ha => absurd ha hactive
    exhausted := by simp
    returned := by simp
    failures_iff := by
      have hsame : ((w.links.set a.worker M).map Link.fails).sum = (w.links.map Link.fails).sum := by omega
      exact h.failures_iff.trans (by rw [hsame]) }

/-- Only the workers can owe items: with all of them inactive none are left. -/
theorem Polling.load_sum_eq_zero (h : Polling kind aggs w) (j : ℕ)
    (hj : ∀ L, w.links[j]? = some L → L.load = 0)
    (hothers : ∀ i v, i ≠ j → w.sched.workerData[i]? = some v → v.active = false) :
    (w.links.map Link.load).sum = 0 := by
  rw [List.sum_eq_zero_iff_forall_eq_nat]
  intro x hx
  obtain ⟨N, hN, rfl⟩ := List.mem_map.mp hx
  obtain ⟨i, hi⟩ := List.mem_iff_getElem?.mp hN
  by_cases hij : i = j
  · subst hij
    exact hj N hi
  · obtain ⟨v, hv⟩ := h.exists_record hi
    exact ((h.links hi hv).load_eq_zero (hothers i v hij hv)).1

/-- The last active worker is the only one. -/
theorem inactive_of_active_eq_one {s : WorkerScheduler} (hs : Consistent kind s) (h1 : s.active = 1) {j : ℕ}
    {v : WorkerSchedulingData} (hv : s.workerData[j]? = some v) (hact : v.active = true) {i : ℕ}
    {u : WorkerSchedulingData} (hij : i ≠ j) (hu : s.workerData[i]? = some u) : u.active = false := by
  have hcount := countP_set_add (b := { v with active := false }) hv fun w => w.active
  rw [← hs.active_eq, h1] at hcount
  simp only [hact, if_true, Bool.false_eq_true, if_false] at hcount
  have hzero := List.countP_eq_zero.mp (Nat.succ.inj hcount)
  have hmem : u ∈ s.workerData.set j { v with active := false } :=
    List.mem_of_getElem? ((getElem?_set_eq_some_iff hv).mpr (Or.inr ⟨hij, hu⟩))
  simpa using hzero u hmem

/-- What the master only keeps for later does not matter. -/
theorem Polling.bookkeeping (h : Polling kind aggs w) (failedSerials : List ℕ) (alerts : List String)
    (aggregationCounter : ℕ) (aggregationQueue aggregated received : List AggregationRecord) :
    Polling kind aggs { w with
      failedSerials := failedSerials, alerts := alerts, aggregationCounter := aggregationCounter,
      aggregationQueue := aggregationQueue, aggregated := aggregated, received := received } :=
  ⟨h.not_thrown, h.consistent, h.length_eq, h.links, h.inFlight_eq, h.queue_eq, h.round, h.drained,
    h.exhausted, h.returned, h.failures_iff⟩

theorem Polling.aggregate (h : Polling kind aggs w) (time : Option ℤ) : Polling kind aggs (w.aggregate time) := by
  unfold World.aggregate
  split
  · exact h
  · have hc := h.consistent
    cases time with
    | none => exact h.bookkeeping _ _ _ _ _ _
    | some t =>
      exact ⟨h.not_thrown, ⟨hc.numbered, hc.unassigned_eq, hc.active_eq, hc.hasCpus_eq, hc.hasGpus_eq⟩,
        h.length_eq, h.links, h.inFlight_eq, h.queue_eq, h.round, h.drained, h.exhausted, h.returned,
        h.failures_iff⟩

/-- A message that is neither a report nor a close-down leaves its channel. -/
theorem Polling.receive_other (h : Polling kind aggs w) (hL : w.links[i]? = some L) {msg : ToMaster}
    {outbox : List ToMaster} (hout : L.outbox = msg :: outbox) (hclose : msg ≠ .workerCloseDown)
    (hreport : msg.isReport = false) :
    Polling kind aggs { w with links := w.links.set i { L with outbox := outbox } } := by
  have hmsg : msg.load = 0 ∧ msg.isFail = false := by
    cases msg <;> simp_all [ToMaster.load, ToMaster.isFail, ToMaster.isReport]
  refine h.setLink hL (fun v hv => hv.receive hout hclose rfl (by simp [hreport])) ?_ ⟨?_, ?_⟩
  · simp [Link.load, hout, hmsg.1]
  · simp [Link.fails, hout, hmsg.2]
  · simp [Link.fails, hout, hmsg.2]

/-- A report is received. -/
theorem Polling.receive_finished (h : Polling kind aggs w) (hL : w.links[i]? = some L)
    {content : ContentKind} {failed : Bool} {payload : FinishedPayload} {outbox : List ToMaster}
    (hout : L.outbox = .finished content failed payload :: outbox) (hphase : w.phase = .probing) :
    Polling kind aggs (({ w with links := w.links.set i { L with outbox := outbox } }).handleFinished i
      content failed payload) := by
  obtain ⟨v, hv⟩ := h.exists_record hL
  have hlink := h.links hL hv
  have has : v.assigned = true := by
    have htasks := hlink.tasks_eq
    simp only [Link.tasks, hout, List.countP_cons, ToMaster.isReport, if_true] at htasks
    cases ha : v.assigned with
    | true => rfl
    | false => simp [ha] at htasks
  generalize hM : ({ L with outbox := outbox } : Link) = M
  have hload : M.load + payload.itemsProcessed = L.load := by
    simp only [← hM, Link.load, hout, List.map_cons, List.sum_cons, ToMaster.load]
    omega
  have hfails : M.fails + (if failed then 1 else 0) = L.fails := by
    simp only [← hM, Link.fails, hout, List.countP_cons, ToMaster.isFail]
    cases failed <;> rfl
  have hsum := sum_map_set_add (b := M) hL Link.load
  have hsumf := sum_map_set_add (b := M) hL Link.fails
  have hflight := h.inFlight_eq
  have hmark := markUnassigned_ok payload.wallclockTime hv has
    (show payload.itemsProcessed ≤ w.sched.workItemsInFlight by omega)
  have hM' : LinkOk aggs w.sentClosedown
      { v.updateTimingData payload.wallclockTime payload.itemsProcessed with assigned := false } M := by
    refine hM ▸ hlink.receive hout (by simp) rfl ?_
    simp [has, ToMaster.isReport]
  simp only [World.handleFinished, hmark]
  exact {
    not_thrown := h.not_thrown
    consistent := by
      refine h.consistent.set hv
        (v := { v.updateTimingData payload.wallclockTime payload.itemsProcessed with assigned := false })
        rfl rfl ?_ ?_ rfl rfl
      · simp [updateEstimatedCompletion, has]
      · rfl
    length_eq := by simpa [updateEstimatedCompletion] using h.length_eq
    links := h.links_set hL hv hM'
    inFlight_eq := by
      show w.sched.workItemsInFlight - payload.itemsProcessed =
        ((w.links.set i M).map Link.load).sum + w.unreported
      omega
    queue_eq := h.queue_eq
    round := fun work hp => by
      dsimp only at hp
      rw [hphase] at hp
      cases hp
    drained := fun ha => by
      have := h.drained ha
      show w.sched.workItemsInFlight - payload.itemsProcessed = 0
      omega
    exhausted := fun hp => by
      dsimp only at hp
      rw [hphase] at hp
      simp at hp
    returned := fun b hp => by
      dsimp only at hp
      rw [hphase] at hp
      cases hp
    failures_iff := by
      show w.failures = true ↔ (w.success && !failed) = false ∨ 0 < ((w.links.set i M).map Link.fails).sum
      rw [h.failures_iff]
      cases failed with
      | false =>
        simp only [Bool.false_eq_true, if_false, add_zero] at hfails
        have hsame : ((w.links.set i M).map Link.fails).sum = (w.links.map Link.fails).sum := by omega
        rw [hsame, Bool.not_false, Bool.and_true]
      | true =>
        simp only [if_true] at hfails
        have hpos : 0 < (w.links.map Link.fails).sum := by omega
        simp [hpos] }

/-- A close-down message is received: unless items are missing the scheduler does not throw. -/
theorem Polling.receive_closeDown (h : Polling kind aggs w) (hL : w.links[i]? = some L)
    {outbox : List ToMaster} (hout : L.outbox = .workerCloseDown :: outbox) (hphase : w.phase = .probing) :
    PollingUnlessMissing kind aggs
      (({ w with links := w.links.set i { L with outbox := outbox } }).handle i .workerCloseDown) := by
  obtain ⟨v, hv⟩ := h.exists_record hL
  have hlink := h.links hL hv
  obtain ⟨hact, hload, hfails, rfl, hM⟩ := hlink.receiveCloseDown hout
  have hone : w.sched.active = 1 → w.sched.workItemsInFlight = w.unreported := by
    intro h1
    have hothers := fun i' u (hne : i' ≠ i) hu =>
      inactive_of_active_eq_one (i := i') (u := u) h.consistent h1 hv hact hne hu
    have hzero := h.load_sum_eq_zero i (fun N hN => by
      rw [hL] at hN
      cases hN
      exact hload) hothers
    rw [h.inFlight_eq, hzero, Nat.zero_add]
  by_cases hmissing : w.sched.active = 1 ∧ 0 < w.unreported
  · left
    obtain ⟨s', hs'⟩ := markInactive_underInflight hv hact hmissing.1 (hone hmissing.1 ▸ hmissing.2)
    simp only [World.handle, hs']
    exact ⟨⟨_, rfl⟩, hmissing.2⟩
  · right
    have hlast : w.sched.active = 1 → w.sched.workItemsInFlight = 0 := by
      intro h1
      rw [hone h1]
      have := not_and.mp hmissing h1
      omega
    have hpos : w.sched.active ≠ 0 := by
      rw [h.consistent.active_eq]
      exact (countP_pos_of_getElem? hv hact).ne'
    generalize hMeq : ({ L with outbox := [] } : Link) = M at hM ⊢
    have hMload : M.load = L.load := by simp [← hMeq, Link.load, hout, ToMaster.load]
    have hMfails : M.fails = L.fails := by simp [← hMeq, Link.fails, hout, ToMaster.isFail]
    have hsum := sum_map_set_add (b := M) hL Link.load
    have hsumf := sum_map_set_add (b := M) hL Link.fails
    have hflight := h.inFlight_eq
    simp only [World.handle, markInactive_ok h.consistent hv hact hlast]
    exact {
      not_thrown := h.not_thrown
      consistent := by
        refine h.consistent.set hv (v := { v with active := false }) rfl rfl ?_ ?_ rfl rfl
        · rfl
        · simp only [hact, if_true, Bool.false_eq_true, if_false]
          omega
      length_eq := by simpa using h.length_eq
      links := h.links_set hL hv hM
      inFlight_eq := by
        show w.sched.workItemsInFlight = ((w.links.set i M).map Link.load).sum + w.unreported
        omega
      queue_eq := h.queue_eq
      round := fun work hp => by
        dsimp only at hp
        rw [hphase] at hp
        cases hp
      drained := fun ha => hlast (by dsimp only at ha; omega)
      exhausted := fun hp => by
        dsimp only at hp
        rw [hphase] at hp
        simp at hp
      returned := fun b hp => by
        dsimp only at hp
        rw [hphase] at hp
        cases hp
      failures_iff := by
        have hsame : ((w.links.set i M).map Link.fails).sum = (w.links.map Link.fails).sum := by omega
        exact h.failures_iff.trans (by rw [hsame]) }

/-- **Step lemma**: an event keeps the invariant, or makes the scheduler throw, and then items are
missing from reports. -/
theorem Polling.next (h : Polling kind aggs w) {e : Event} {w' : World}
    (hn : w.next P aggs (workerProtocol aggs) e = some w') : PollingUnlessMissing kind aggs w' := by
  cases e with
  | loop =>
    simp only [World.next, Option.ite_none_right_eq_some, Option.some.injEq] at hn
    obtain ⟨hphase, rfl⟩ := hn
    exact Or.inr (h.loopHead hphase)
  | send =>
    simp only [World.next] at hn
    split at hn
    · obtain rfl := Option.some.inj hn
      exact Or.inr (h.setPhase (by simp) (by simp) (by simp) (by simp))
    · rename_i a rest hphase
      obtain rfl := Option.some.inj hn
      exact Or.inr (h.sendAssignment hphase)
    · cases hn
  | receive worker =>
    simp only [World.next] at hn
    split at hn
    · rename_i hphase
      split at hn
      · rename_i L hL
        split at hn
        · cases hn
        · rename_i msg outbox hout
          split at hn
          · obtain rfl := Option.some.inj hn
            exact Or.inr h
          · obtain rfl := Option.some.inj hn
            cases msg with
            | finished content failed payload => exact Or.inr (h.receive_finished hL hout hphase)
            | workerCloseDown => exact h.receive_closeDown hL hout hphase
            | newWorkAcknowledgment => exact Or.inr (h.receive_other hL hout (by simp) rfl)
            | unexpected tag => exact Or.inr (h.receive_other hL hout (by simp) rfl)
            | dataReady content container =>
              exact Or.inr ((h.receive_other hL hout (by simp) rfl).bookkeeping _ _ _ _ _ _)
            | reportError message =>
              exact Or.inr ((h.receive_other hL hout (by simp) rfl).bookkeeping _ _ _ _ _ _)
      · cases hn
    · cases hn
  | noMessage =>
    simp only [World.next, Option.ite_none_right_eq_some, Option.some.injEq] at hn
    obtain ⟨-, rfl⟩ := hn
    exact Or.inr (h.setPhase (by simp) (by simp) (by simp) (by simp))
  | idle early =>
    simp only [World.next, Option.ite_none_right_eq_some, Option.some.injEq] at hn
    obtain ⟨-, rfl⟩ := hn
    cases early with
    | none => exact Or.inr (h.setPhase (by simp) (by simp) (by simp) (by simp))
    | some time => exact Or.inr ((h.aggregate time).setPhase (by simp) (by simp) (by simp) (by simp))
  | drain time =>
    simp only [World.next, Option.ite_none_right_eq_some, Option.some.injEq] at hn
    obtain ⟨-, rfl⟩ := hn
    exact Or.inr (h.aggregate time)
  | finish =>
    simp only [World.next, Option.ite_none_right_eq_some, Option.some.injEq] at hn
    obtain ⟨⟨hphase, -⟩, rfl⟩ := hn
    exact Or.inr { h with
      not_thrown := by simp
      round := by simp
      exhausted := fun _ => h.exhausted (Or.inl hphase)
      returned := fun b hb => by simpa using hb.symm }
  | accept worker =>
    simp only [World.next] at hn
    split at hn
    · rename_i L hL
      obtain ⟨v, hv⟩ := h.exists_record hL
      split at hn
      · rename_i items inbox hstate hin
        obtain rfl := Option.some.inj hn
        obtain ⟨-, hload, hfails⟩ := (h.links hL hv).acceptAssignment hstate hin
        exact Or.inr (h.setLink hL (fun u hu => (hu.acceptAssignment hstate hin).1) (by rw [hload])
          ⟨hfails.ge, by simp [hfails]⟩)
      · rename_i inbox hstate hin
        obtain rfl := Option.some.inj hn
        obtain ⟨-, hload⟩ := (h.links hL hv).acceptEndOfWork hstate hin
        exact Or.inr (h.setLink hL (fun u hu => (hu.acceptEndOfWork hstate hin).1) (by rw [hload])
          ⟨le_rfl, by simp [Link.fails]⟩)
      · cases hn
    · cases hn
  | emit worker msg state =>
    simp only [World.next] at hn
    split at hn
    · rename_i L hL
      obtain ⟨v, hv⟩ := h.exists_record hL
      split at hn
      · rename_i hrule
        obtain rfl := Option.some.inj hn
        obtain ⟨-, hload, hfails⟩ := (h.links hL hv).emit hrule
        refine Or.inr (h.setLink hL (fun u hu => (hu.emit hrule).1) (by omega) ⟨by omega, ?_⟩)
        cases hf : msg.isFail <;> simp [hf] at hfails <;> simp [hfails]
      · cases hn
    · cases hn

end Events

/-- **Run lemma**: in every run of workers that follow the protocol the invariant holds, unless items
are missing from reports and the scheduler has thrown. -/
theorem polling_of_reachable {P : Platform} {aggs : Aggregators} {kind : WorkerType} {src : WorkSource}
    {w : World} (hw : (pollSystem P aggs (workerProtocol aggs) kind src).Reachable w) :
    PollingUnlessMissing kind aggs w := by
  refine System.Invariant.reachable (I := PollingUnlessMissing kind aggs) ⟨?_, ?_⟩ hw
  · rintro _ ⟨s, hs, rfl⟩
    obtain ⟨hc, -, hflight, hfresh⟩ := hs.spec
    exact Or.inr {
      not_thrown := by simp
      consistent := hc
      length_eq := List.length_replicate
      links := fun hL hv => by
        obtain ⟨-, rfl⟩ := List.mem_replicate.mp (List.mem_of_getElem? hL)
        obtain ⟨has, hact⟩ := hfresh hv
        refine ⟨?_, ⟨[], rfl⟩, by simp [WorkerState.isOpen], ⟨[], by simp, rfl⟩, by simp [hact], by simp⟩
        simp [has, Link.tasks, WorkerState.tasks]
      inFlight_eq := by simp [hflight, Link.load, WorkerState.load]
      queue_eq := by simp
      round := by simp
      drained := fun _ => hflight
      exhausted := by simp
      returned := by simp
      failures_iff := by simp [Link.fails] }
  · rintro w e w' (⟨⟨ex, hthrown⟩, hmissing⟩ | h) hn
    · obtain ⟨hp, hle⟩ := phase_of_thrown hthrown hn
      exact Or.inl ⟨⟨ex, hp⟩, hmissing.trans_le hle⟩
    · exact h.next hn

/-- `poll_workers` returns only from runs in which every report counted all items. -/
theorem unreported_eq_zero_of_returned {P : Platform} {aggs : Aggregators} {kind : WorkerType}
    {src : WorkSource} {w : World} {success : Bool}
    (hw : (pollSystem P aggs (workerProtocol aggs) kind src).Reachable w)
    (hr : w.phase = .returned success) : w.unreported = 0 := by
  rcases polling_of_reachable hw with ⟨⟨e, he⟩, -⟩ | h
  · rw [hr] at he
    cases he
  · have hzero := h.drained (h.exhausted (Or.inr ⟨success, hr⟩))
    have := h.inFlight_eq
    omega

/-! ### Runs in which every report counts all items -/

/-- A report counts all items of the assignment it is about. -/
def fullReports (w : World) : Event → Bool
  | .emit worker msg _ => w.links[worker]?.all fun L => L.state.shortfall msg = 0
  | _ => true

theorem unreported_eq_zero {P : Platform} {aggs : Aggregators} {kind : WorkerType} {src : WorkSource}
    {w : World}
    (hw : ((pollSystem P aggs (workerProtocol aggs) kind src).restrict fun w e => fullReports w e = true).Reachable w) :
    w.unreported = 0 := by
  refine System.Invariant.reachable (I := fun w => w.unreported = 0) ⟨?_, ?_⟩ hw
  · rintro _ ⟨s, -, rfl⟩
    rfl
  · rintro w e w' h ⟨hfull, hn⟩
    cases hm : e.byMaster with
    | true => exact (sameWorkers_next hm hn).unreported.trans h
    | false =>
      cases e with
      | accept worker =>
        simp only [pollSystem, System.ofNext, World.next] at hn
        split at hn
        · split at hn <;> cases hn <;> exact h
        · cases hn
      | emit worker msg state =>
        simp only [pollSystem, System.ofNext, World.next] at hn
        split at hn
        · rename_i L hL
          split at hn <;> cases hn
          have hshort : L.state.shortfall msg = 0 := by simpa [fullReports, hL] using hfull
          simp [h, hshort]
        · cases hn
      | _ => cases hm

/-- `iprobe` reports no message only when none is waiting. -/
def Truthful (w : World) : Event → Prop
  | .noMessage => ∀ L ∈ w.links, L.outbox = []
  | _ => True

/-- Messages waiting for the master. -/
def World.waiting (w : World) : ℕ := (w.links.map (·.outbox.length)).sum

/-- A bound on the number of steps to return once the workers are closed. -/
def World.remaining (w : World) : ℕ :=
  match w.phase with
  | .returned _ | .thrown _ => 0
  | .draining => w.aggregationQueue.length + 2 * w.waiting + 1
  | .top => w.aggregationQueue.length + 2 * w.waiting + if w.waiting = 0 then 2 else 6
  | .idle => w.aggregationQueue.length + 2 * w.waiting + if w.waiting = 0 then 3 else 7
  | .probing => w.aggregationQueue.length + 2 * w.waiting + 4
  | .sending _ => w.aggregationQueue.length + 2 * w.waiting + 5

/-- All workers have closed down, and no items were missing from their reports. -/
structure Settled (kind : WorkerType) (aggs : Aggregators) (failures : Bool) (w : World) : Prop where
  /-- The invariant of the loop. -/
  polling : Polling kind aggs w
  /-- Every report counted all items. -/
  unreported_eq : w.unreported = 0
  /-- All workers have closed down. -/
  closed : ∀ L ∈ w.links, L.state = .closed
  /-- Whether an assignment failed is known. -/
  failures_eq : w.failures = failures

section Settled

variable {P : Platform} {kind : WorkerType} {aggs : Aggregators} {failures : Bool} {w : World}

theorem waiting_eq_zero_iff : w.waiting = 0 ↔ ∀ L ∈ w.links, L.outbox = [] := by
  simp [World.waiting, List.sum_eq_zero_iff_forall_eq_nat]

/-- With a worker in the pool, end-of-work was sent and the queue is exhausted. -/
theorem Settled.queue_eq (h : Settled kind aggs failures w) {i : ℕ} {v : WorkerSchedulingData}
    (hv : w.sched.workerData[i]? = some v) : w.sentClosedown = true ∧ w.sched.queue = [] := by
  obtain ⟨L, hL⟩ := h.polling.exists_link hv
  have hs := h.closed L (List.mem_of_getElem? hL)
  obtain ⟨hsent, -⟩ := (h.polling.links hL hv).shut (by simp [hs, WorkerState.isOpen])
  exact ⟨hsent, h.polling.queue_eq hsent⟩

theorem Settled.not_assignable (h : Settled kind aggs failures w) : w.sched.assignable = false := by
  by_contra hassign
  obtain ⟨hq, hun⟩ : w.sched.queue ≠ [] ∧ w.sched.unassigned ≠ 0 := by simpa [assignable] using hassign
  rw [h.polling.consistent.unassigned_eq, ← Nat.pos_iff_ne_zero, List.countP_pos_iff] at hun
  obtain ⟨v, hv, -⟩ := hun
  obtain ⟨i, hi⟩ := List.mem_iff_getElem?.mp hv
  exact hq (h.queue_eq hi).2

theorem Settled.work_eq_nil (h : Settled kind aggs failures w) {work : List WorkAssignment}
    (hphase : w.phase = .sending work) : work = [] := by
  cases work with
  | nil => rfl
  | cons a work =>
    obtain ⟨-, hun, hitems, rest, hrest⟩ := h.polling.round _ hphase
    obtain ⟨v, hv, -⟩ := hun a (by simp)
    rw [(h.queue_eq hv).2, List.perm_nil, List.flatMap_cons, List.append_assoc, List.append_eq_nil_iff] at hrest
    exact absurd hrest.1 (hitems a (by simp))

/-- All workers are inactive iff all messages were received. -/
theorem Settled.active_eq_zero_iff (h : Settled kind aggs failures w) :
    w.sched.active = 0 ↔ w.waiting = 0 := by
  rw [waiting_eq_zero_iff, h.polling.consistent.active_eq, List.countP_eq_zero]
  constructor
  · intro hinactive L hmem
    obtain ⟨i, hL⟩ := List.mem_iff_getElem?.mp hmem
    obtain ⟨v, hv⟩ := h.polling.exists_record hL
    have hv' : v.active = false := by simpa using hinactive v (List.mem_of_getElem? hv)
    exact ((h.polling.links hL hv).inactive hv').2
  · intro hempty v hmem hact
    obtain ⟨i, hv⟩ := List.mem_iff_getElem?.mp hmem
    obtain ⟨L, hL⟩ := h.polling.exists_link hv
    obtain ⟨body, -, hout⟩ := (h.polling.links hL hv).outbox_eq
    have hmem' := List.mem_of_getElem? hL
    rw [hempty L hmem', h.closed L hmem'] at hout
    simp [hact] at hout

theorem Settled.loopHead (h : Settled kind aggs failures w) :
    w.loopHead P = { w with phase := if w.waiting = 0 then .draining else .probing } := by
  unfold World.loopHead
  by_cases hM : w.waiting = 0
  · simp [allInactive, h.active_eq_zero_iff.mpr hM, hM]
  · have hact : w.sched.active ≠ 0 := fun ha => hM (h.active_eq_zero_iff.mp ha)
    have hsent : w.sentClosedown = true := by
      rw [h.polling.consistent.active_eq, ← Nat.pos_iff_ne_zero, List.countP_pos_iff] at hact
      obtain ⟨v, hv, -⟩ := hact
      obtain ⟨i, hi⟩ := List.mem_iff_getElem?.mp hv
      exact (h.queue_eq hi).1
    simp [allInactive, hact, hsent, h.not_assignable, hM]

/-- Receiving a message of worker `i` leaves one fewer waiting, and the queue of aggregations at most
one longer. -/
theorem waiting_handle {i : ℕ} {L : Link} {msg : ToMaster} {outbox : List ToMaster}
    (hL : w.links[i]? = some L) (hout : L.outbox = msg :: outbox) :
    let w' := ({ w with links := w.links.set i { L with outbox := outbox } }).handle i msg
    w'.waiting + 1 = w.waiting ∧ w'.aggregationQueue.length ≤ w.aggregationQueue.length + 1 ∧
      (w'.phase = w.phase ∨ ∃ e, w'.phase = .thrown e) := by
  have hsum := sum_map_set_add (b := { L with outbox := outbox }) hL (·.outbox.length)
  have hwait : ({ w with links := w.links.set i { L with outbox := outbox } } : World).waiting + 1 = w.waiting := by
    simp only [hout, List.length_cons] at hsum
    simp only [World.waiting]
    omega
  cases msg with
  | newWorkAcknowledgment | reportError | unexpected => exact ⟨hwait, Nat.le_succ _, Or.inl rfl⟩
  | dataReady kind container => exact ⟨hwait, by simp [World.handle], Or.inl rfl⟩
  | finished kind failed payload =>
    simp only [World.handle, World.handleFinished]
    split
    · exact ⟨hwait, Nat.le_succ _, Or.inl rfl⟩
    · exact ⟨hwait, Nat.le_succ _, Or.inr ⟨_, rfl⟩⟩
  | workerCloseDown =>
    simp only [World.handle]
    split
    · exact ⟨hwait, Nat.le_succ _, Or.inl rfl⟩
    · exact ⟨hwait, Nat.le_succ _, Or.inr ⟨_, rfl⟩⟩

theorem waiting_aggregate (time : Option ℤ) :
    (w.aggregate time).waiting = w.waiting ∧ (w.aggregate time).phase = w.phase ∧
      (w.aggregate time).aggregationQueue = w.aggregationQueue.tail := by
  unfold World.aggregate
  split
  · rename_i hq
    simp [hq]
  · rename_i record queue hq
    exact ⟨rfl, rfl, by simp [hq]⟩

/-- With all workers closed the master is never stuck. -/
theorem Settled.progress (h : Settled kind aggs failures w) (hr : ∀ b, w.phase ≠ .returned b) :
    ∃ e w', Truthful w e ∧ w.next P aggs (workerProtocol aggs) e = some w' := by
  cases hphase : w.phase with
  | top => exact ⟨.loop, _, trivial, by simp only [World.next, hphase, if_true]; rfl⟩
  | sending work =>
    obtain rfl := h.work_eq_nil hphase
    exact ⟨.send, _, trivial, by simp only [World.next, hphase]; rfl⟩
  | probing =>
    by_cases hM : w.waiting = 0
    · exact ⟨.noMessage, _, waiting_eq_zero_iff.mp hM, by simp only [World.next, hphase, if_true]; rfl⟩
    · rw [waiting_eq_zero_iff] at hM
      push Not at hM
      obtain ⟨L, hmem, hne⟩ := hM
      obtain ⟨i, hL⟩ := List.mem_iff_getElem?.mp hmem
      obtain ⟨msg, outbox, hout⟩ := List.exists_cons_of_ne_nil hne
      obtain ⟨v, hv⟩ := h.polling.exists_record hL
      have hknown := (h.polling.links hL hv).known msg (by simp [hout])
      refine ⟨.receive i, ({ w with links := w.links.set i { L with outbox := outbox } }).handle i msg,
        trivial, ?_⟩
      simp [World.next, hphase, hL, hout, hknown]
  | idle => exact ⟨.idle none, _, trivial, by simp only [World.next, hphase, if_true]; rfl⟩
  | draining =>
    by_cases hq : w.aggregationQueue = []
    · exact ⟨.finish, _, trivial, by simp only [World.next, hphase, hq, and_self, if_true]; rfl⟩
    · refine ⟨.drain none, w.aggregate none, trivial, ?_⟩
      simp [World.next, hphase, hq]
  | returned b => exact absurd hphase (hr b)
  | thrown e => exact absurd hphase (h.polling.not_thrown e)

/-- Closed workers do nothing. -/
theorem Settled.byMaster (h : Settled kind aggs failures w) {e : Event} {w' : World}
    (hn : w.next P aggs (workerProtocol aggs) e = some w') : e.byMaster = true := by
  cases e with
  | accept worker =>
    simp only [World.next] at hn
    split at hn
    · rename_i L hL
      rw [h.closed L (List.mem_of_getElem? hL)] at hn
      cases hn
    · cases hn
  | emit worker msg state =>
    simp only [World.next] at hn
    split at hn
    · rename_i L hL
      split at hn
      · rename_i hrule
        have hs := h.closed L (List.mem_of_getElem? hL)
        rcases workerProtocol_cases hrule with ⟨_, _, _, _, h', -⟩ | ⟨h', -⟩ | ⟨-, h', -⟩
        · rw [hs] at h'
          cases h'
        · rw [hs] at h'
          cases h'
        · exact absurd hs h'
      · cases hn
    · cases hn
  | _ => rfl

/-- A step leaves the workers closed. -/
theorem Settled.next (h : Settled kind aggs failures w) {e : Event} {w' : World}
    (hn : w.next P aggs (workerProtocol aggs) e = some w') : Settled kind aggs failures w' := by
  have hsame := sameWorkers_next (h.byMaster hn) hn
  have hunreported := hsame.unreported.trans h.unreported_eq
  refine ⟨(h.polling.next hn).resolve_left fun hmissing => ?_, hunreported, fun L hL => ?_,
    hsame.failures.trans h.failures_eq⟩
  · exact absurd hmissing.2 (by omega)
  · have hmem : L.state ∈ w'.links.map (·.state) := List.mem_map_of_mem hL
    rw [hsame.states] at hmem
    obtain ⟨M, hM, hstate⟩ := List.mem_map.mp hmem
    rw [← hstate, h.closed M hM]

/-- Every step brings the return nearer. -/
theorem Settled.decrease (h : Settled kind aggs failures w) {e : Event} {w' : World} (ht : Truthful w e)
    (hn : w.next P aggs (workerProtocol aggs) e = some w') : w'.remaining < w.remaining := by
  have hnext := h.next hn
  have hmaster := h.byMaster hn
  cases e with
  | accept | emit => cases hmaster
  | loop =>
    simp only [World.next, Option.ite_none_right_eq_some, Option.some.injEq] at hn
    obtain ⟨hphase, rfl⟩ := hn
    rw [h.loopHead]
    by_cases hM : w.waiting = 0
    · simp only [World.remaining, hphase, hM, if_true]
      simp only [World.waiting] at hM ⊢
      omega
    · simp only [World.remaining, hphase, hM, if_false]
      simp only [World.waiting]
      omega
  | send =>
    simp only [World.next] at hn
    split at hn
    · rename_i hphase
      obtain rfl := Option.some.inj hn
      simp only [World.remaining, hphase]
      simp only [World.waiting]
      omega
    · rename_i hphase
      cases h.work_eq_nil hphase
    · cases hn
  | receive worker =>
    simp only [World.next] at hn
    split at hn
    · rename_i hphase
      split at hn
      · rename_i L hL
        obtain ⟨v, hv⟩ := h.polling.exists_record hL
        split at hn
        · cases hn
        · rename_i msg outbox hout
          rw [(h.polling.links hL hv).known msg (by simp [hout])] at hn
          obtain rfl := Option.some.inj hn
          have hstep := waiting_handle hL hout
          generalize ({ w with links := w.links.set worker { L with outbox := outbox } } : World).handle
            worker msg = u at hstep hnext ⊢
          obtain ⟨hwait, hqueue, hsame | ⟨e, hthrown⟩⟩ := hstep
          · simp only [World.remaining, hsame, hphase]
            omega
          · exact absurd hthrown (hnext.polling.not_thrown e)
      · cases hn
    · cases hn
  | noMessage =>
    simp only [World.next, Option.ite_none_right_eq_some, Option.some.injEq] at hn
    obtain ⟨hphase, rfl⟩ := hn
    have hM : w.waiting = 0 := waiting_eq_zero_iff.mpr ht
    have hM' : ({ w with phase := .idle } : World).waiting = 0 := hM
    simp only [World.remaining, hphase, hM, hM', if_true]
    omega
  | idle early =>
    simp only [World.next, Option.ite_none_right_eq_some, Option.some.injEq] at hn
    obtain ⟨hphase, rfl⟩ := hn
    have hearly : (early.elim w w.aggregate).waiting = w.waiting ∧
        (early.elim w w.aggregate).aggregationQueue.length ≤ w.aggregationQueue.length := by
      cases early with
      | none => exact ⟨rfl, le_rfl⟩
      | some time =>
        obtain ⟨h1, -, h3⟩ := waiting_aggregate (w := w) time
        exact ⟨h1, by simp [h3]⟩
    generalize early.elim w w.aggregate = u at hearly
    obtain ⟨hwait, hqueue⟩ := hearly
    have hwait' : ({ u with phase := .top } : World).waiting = w.waiting := hwait
    simp only [World.remaining, hphase, hwait']
    split <;> omega
  | drain time =>
    simp only [World.next, Option.ite_none_right_eq_some, Option.some.injEq] at hn
    obtain ⟨⟨hphase, hq⟩, rfl⟩ := hn
    obtain ⟨h1, h2, h3⟩ := waiting_aggregate (w := w) time
    have hpos := List.length_pos_of_ne_nil hq
    simp only [World.remaining, h2, hphase, h1, h3, List.length_tail]
    omega
  | finish =>
    simp only [World.next, Option.ite_none_right_eq_some, Option.some.injEq] at hn
    obtain ⟨⟨hphase, -⟩, rfl⟩ := hn
    simp only [World.remaining, hphase]
    omega

/-- When all messages were received, success and failure were noted. -/
theorem Settled.returned_eq (h : Settled kind aggs failures w) {success : Bool}
    (hr : w.phase = .returned success) : success = !failures := by
  have hwait := h.active_eq_zero_iff.mp (h.polling.exhausted (Or.inr ⟨success, hr⟩))
  rw [waiting_eq_zero_iff] at hwait
  have hzero : (w.links.map Link.fails).sum = 0 := by
    rw [List.sum_eq_zero_iff_forall_eq_nat]
    intro x hx
    obtain ⟨L, hL, rfl⟩ := List.mem_map.mp hx
    simp [Link.fails, hwait L hL]
  have hiff := h.polling.failures_iff
  rw [hzero, h.failures_eq] at hiff
  rw [h.polling.returned success hr]
  cases hs : w.success <;> cases hf : failures <;> simp_all

end Settled

/-- **Completion**: in every run in which each report counts all items of its assignment, no
operation of the scheduler throws, and once all workers have closed down `poll_workers` inevitably
returns, with `false` iff some assignment failed. -/
theorem full_reports_complete {P : Platform} {aggs : Aggregators} {kind : WorkerType} {src : WorkSource}
    {w : World}
    (hw : ((pollSystem P aggs (workerProtocol aggs) kind src).restrict fun w e => fullReports w e = true).Reachable w) :
    (∀ e, w.phase ≠ .thrown e) ∧
      ((∀ L ∈ w.links, L.state = .closed) →
        ((pollSystem P aggs (workerProtocol aggs) kind src).restrict Truthful).Inevitable
          (fun w' => w'.phase = .returned (!w.failures)) w) := by
  have hzero := unreported_eq_zero hw
  have h : Polling kind aggs w := (polling_of_reachable hw.of_restrict).resolve_left fun hmissing =>
    absurd hmissing.2 (by omega)
  refine ⟨h.not_thrown, fun hclosed => ?_⟩
  have hsettled : Settled kind aggs w.failures w := ⟨h, hzero, hclosed, rfl⟩
  refine System.inevitable_of_measure (I := Settled kind aggs w.failures) World.remaining ?_ ?_ hsettled
  · intro u hu hreturned
    refine (hu.progress fun b hb => ?_).imp fun e he => he
    exact hreturned (hu.returned_eq hb ▸ hb)
  · rintro u e u' hu - ⟨ht, hn⟩
    exact ⟨hu.next hn, hu.decrease ht hn⟩

/-- One worker whose assignment of one item fails before any item is processed, and which then closes
down: the scheduler throws, and `poll_workers` does not return. -/
theorem short_report_throws :
    ∃ w : World, (pollSystem exactPlatform (fun _ => true) (workerProtocol fun _ => true) .cpu
        (.database [7])).Reachable w ∧
      (∀ L ∈ w.links, L.state = .closed) ∧ w.phase = .thrown .underInflight := by
  let events := oneWorkerEvents [.finished .integration true ⟨40, 0, []⟩]
  have hrun : (events.foldlM (World.next exactPlatform (fun _ => true) (workerProtocol fun _ => true))
      oneWorkerTask).map (fun w => (w.links.map (·.state), w.phase)) =
        some ([.closed], .thrown .underInflight) := by decide
  obtain ⟨w, hw, hval⟩ := Option.map_eq_some_iff.mp hrun
  obtain ⟨hstates, hphase⟩ := Prod.mk.inj hval
  refine ⟨w, ⟨_, _, oneWorkerTask_init _ _, System.run_ofNext_of_foldlM hw⟩, fun L hL => ?_, hphase⟩
  have hmem : L.state ∈ w.links.map (·.state) := List.mem_map_of_mem hL
  rw [hstates] at hmem
  exact List.mem_singleton.mp hmem

/-- With a failure after all items were processed, `poll_workers` comes to return `false`. -/
theorem full_reports_complete_oneWorker :
    ∃ w : World, (∀ L ∈ w.links, L.state = .closed) ∧
      ((pollSystem exactPlatform (fun _ => true) (workerProtocol fun _ => true) .cpu
        (.database [7])).restrict Truthful).Inevitable (fun w' => w'.phase = .returned false) w := by
  let events := oneWorkerEvents [.finished .integration true ⟨40, 1, []⟩]
  have hrun : (events.foldlM (fun w e => if fullReports w e then
        World.next exactPlatform (fun _ => true) (workerProtocol fun _ => true) w e else none)
      oneWorkerTask).map (fun w => (w.links.map (·.state), w.failures)) = some ([.closed], true) := by decide
  obtain ⟨w, hw, hval⟩ := Option.map_eq_some_iff.mp hrun
  obtain ⟨hstates, hfailures⟩ := Prod.mk.inj hval
  have hclosed : ∀ L ∈ w.links, L.state = .closed := by
    intro L hL
    have hmem : L.state ∈ w.links.map (·.state) := List.mem_map_of_mem hL
    rw [hstates] at hmem
    exact List.mem_singleton.mp hmem
  have hreach : ((pollSystem exactPlatform (fun _ => true) (workerProtocol fun _ => true) .cpu
      (.database [7])).restrict fun w e => fullReports w e = true).Reachable w :=
    ⟨_, _, oneWorkerTask_init (fun _ => true) (workerProtocol fun _ => true),
      System.run_restrict_of_foldlM hw⟩
  have hcomplete := (full_reports_complete hreach).2 hclosed
  rw [hfailures] at hcomplete
  exact ⟨w, hclosed, hcomplete⟩

end CppTransport.Runtime
