import CppTransport.Library.Table
import Mathlib.Data.Finset.Sort
import Mathlib.Data.List.Dedup
import Mathlib.Data.List.Destutter
import Mathlib.Data.List.Sort

/-!
# The worker scheduler

The master process hands out the work items of a task through a
`worker_scheduler`: it keeps a queue of the serial numbers still to be assigned,
one record per worker, and counters of unassigned workers, active workers and
items in flight. `assign_work` proposes a list of assignments without changing
anything; `mark_assigned`, `mark_unassigned` and `mark_inactive` update the
state as assignments are sent out, reported and as workers close down.

## The model

`WorkerScheduler` has the members of the class except those no operation
modelled here reads (the state size, the wall clock and the completion estimate
derived from it). An operation that can throw returns the exception, if any,
*with* the state it leaves behind, since the source updates some members before
it throws. Counters are natural numbers; a decrement of a zero counter wraps, as
`unsigned int` does. Times are integers, divided with truncation.

What the source leaves to the platform is a parameter, `Platform`: the order
`std::list::sort` and `std::shuffle` produce (any rearrangement) and the values
of two floating-point expressions (any number).

## What is proved

Each operation has one lemma saying what it does when it does not throw
(`markAssigned_ok`, `markUnassigned_ok`, `markInactive_ok`), and a round of
assignments is well formed (`assignWork_spec`): distinct unassigned workers,
non-empty lists of items, cut one after another from the front of the queue.
-/

namespace CppTransport.Runtime

/-- `worker_type`. -/
inductive WorkerType where
  | cpu
  | gpu
deriving DecidableEq, Repr

/-- `work_assignment`: a worker and the items it is to process. -/
structure WorkAssignment where
  /-- Worker number. -/
  worker : ℕ
  /-- Work items. -/
  items : List ℕ
deriving DecidableEq, Repr

/-- `worker_scheduling_data`: what the scheduler knows about one worker. -/
structure WorkerSchedulingData where
  /-- Worker number; indeterminate in the source before `set_data`. -/
  number : ℕ := 0
  /-- Are integrations on this worker limited by memory? -/
  type : WorkerType := .cpu
  /-- Memory capacity. -/
  capacity : ℕ := 0
  /-- Priority. -/
  priority : ℕ := 0
  /-- Initialization data received? -/
  initialized : Bool := false
  /-- Currently assigned? -/
  assigned : Bool := false
  /-- Currently active? -/
  active : Bool := true
  /-- Total time used to process items. -/
  time : ℤ := 0
  /-- Total number of items processed. -/
  items : ℕ := 0
deriving DecidableEq, Repr

namespace WorkerSchedulingData

/-- `set_data`. -/
def setData (w : WorkerSchedulingData) (n : ℕ) (t : WorkerType) (c p : ℕ) : WorkerSchedulingData :=
  { w with number := n, type := t, capacity := c, priority := p, initialized := true }

/-- `get_mean_time_per_work_item`. -/
def meanTimePerWorkItem (w : WorkerSchedulingData) : ℤ :=
  if w.items > 0 then w.time.tdiv w.items else w.time

/-- `update_timing_data`. -/
def updateTimingData (w : WorkerSchedulingData) (t : ℤ) (n : ℕ) : WorkerSchedulingData :=
  { w with time := w.time + t, items := w.items + n }

/-- `MeanTimeComparator`: workers that have not worked yet come first, then the fastest. -/
def meanTimeComparator (A B : WorkerSchedulingData) : Bool :=
  if A.time = 0 then true
  else if B.time = 0 then false
  else A.meanTimePerWorkItem < B.meanTimePerWorkItem

end WorkerSchedulingData

/-- `slave_information_payload`: how a worker identifies itself. -/
structure WorkerInformation where
  /-- Its type. -/
  type : WorkerType
  /-- Its memory. -/
  capacity : ℕ
  /-- Its priority. -/
  priority : ℕ
deriving DecidableEq, Repr

/-- What scheduling leaves to the platform. -/
structure Platform where
  /-- `std::list::sort` with a comparator. -/
  sort : (WorkerSchedulingData → WorkerSchedulingData → Bool) → List WorkerSchedulingData →
    List WorkerSchedulingData
  /-- Sorting relinks the nodes of the list. -/
  sort_perm : ∀ cmp l, (sort cmp l).Perm l
  /-- `std::shuffle`. -/
  shuffle : List ℕ → List ℕ
  /-- Shuffling permutes the elements. -/
  shuffle_perm : ∀ l, (shuffle l).Perm l
  /-- `floor(queue/sqrt(unassigned*workers))` as an `unsigned int`, in this order of arguments. -/
  fairShare : ℕ → ℕ → ℕ → ℕ
  /-- `floor` of a quotient of times as an `unsigned int`. -/
  floorToUnsigned : ℤ → ℕ

/-- The exceptions of the scheduler. -/
inductive SchedulingError where
  /-- A worker number past the end of the table. -/
  | indexOutOfRange
  /-- Work scheduled to a worker that has some. -/
  | alreadyAssigned
  /-- A report from a worker that had no work. -/
  | notAlreadyAssigned
  /-- More items reported than are in flight. -/
  | overreleaseInflight
  /-- Work scheduled with every worker busy. -/
  | noUnassigned
  /-- An assigned item is not in the queue. -/
  | assignNotExist (item worker : ℕ)
  /-- Unassigned workers and their counter disagree. -/
  | unassignedMismatch
  /-- A worker closes down twice. -/
  | alreadyInactive
  /-- All workers closed down and items are still in flight. -/
  | underInflight
  /-- Scheduling on a pool of CPUs and GPUs. -/
  | mixedStrategy
  /-- A failed `assert`, or undefined behaviour: no exception of the program. -/
  | fault
deriving DecidableEq, Repr

/-- The text an exception carries. -/
def SchedulingError.message : SchedulingError → String
  | .indexOutOfRange => "Internal error: worker index out of range in worker scheduler"
  | .alreadyAssigned => "Internal error: attempt to schedule work to an already-assigned worker process"
  | .notAlreadyAssigned => "Internal error: attempt to de-assign a worker which is not already assigned"
  | .overreleaseInflight => "Internal error: over-release of number of in-flight work items"
  | .noUnassigned => "Internal error: attempt to schedule work, but no unassigned workers"
  | .assignNotExist item worker =>
    "Internal error: attempt to assign non-existent work item " ++ item.repr ++ ", to worker " ++ worker.repr
  | .unassignedMismatch => "Internal error: mismatch in number of unassigned workers"
  | .alreadyInactive => "Internal error: attempt to deactivate a worker which is already inactive"
  | .underInflight => "Internal error: under-release of number of in-flight work items"
  | .mixedStrategy => "Mixed CPU/GPU scheduling is not yet implemented"
  | .fault => ""

/-- `CPPTRANSPORT_DEFAULT_SCHEDULING_GRANULARITY`: one minute in nanoseconds. -/
def defaultGranularity : ℤ := 60 * 1000 * 1000 * 1000

/-- `worker_scheduler`. -/
structure WorkerScheduler where
  /-- Number of workers in the pool. -/
  numberWorkers : ℕ
  /-- Information about workers. -/
  workerData : List WorkerSchedulingData := []
  /-- Workers still to be initialized. -/
  waitingForSetup : ℕ := 0
  /-- Workers currently unassigned. -/
  unassigned : ℕ := 0
  /-- Workers currently active. -/
  active : ℕ := 0
  /-- CPUs in the pool? -/
  hasCpus : Bool := false
  /-- GPUs in the pool? -/
  hasGpus : Bool := false
  /-- Queue of work items. -/
  queue : List ℕ := []
  /-- Maximum number of work items allocated in one shot. -/
  maxWorkAllocation : ℕ := 1
  /-- Current scheduling granularity. -/
  currentGranularity : ℤ := defaultGranularity
  /-- Total time spent aggregating. -/
  totalAggregationTime : ℤ := 0
  /-- Number of aggregations. -/
  numberAggregations : ℕ := 0
  /-- Total time spent doing work. -/
  totalWorkTime : ℤ := 0
  /-- Estimate of the total time the task will need. -/
  estimatedCpuTime : ℤ := 0
  /-- Items fully processed. -/
  workItemsCompleted : ℕ := 0
  /-- Items still in flight. -/
  workItemsInFlight : ℕ := 0
deriving DecidableEq, Repr

/-- The result of an operation that may throw: the exception, and the state left behind. -/
abbrev Outcome := Except SchedulingError Unit × WorkerScheduler

/-- `--n` on an `unsigned int`. -/
def unsignedPred (n : ℕ) : ℕ := if n = 0 then 2 ^ 32 - 1 else n - 1

namespace WorkerScheduler

open CppTransport.Library

/-! ### Initialization and the queue -/

/-- `reset`: forget all workers and statistics; the queue and its limits stay. -/
def reset (s : WorkerScheduler) : WorkerScheduler :=
  { s with
    workerData := List.replicate s.numberWorkers {}
    waitingForSetup := s.numberWorkers
    unassigned := 0
    active := 0
    hasCpus := false
    hasGpus := false
    totalAggregationTime := 0
    totalWorkTime := 0
    numberAggregations := 0
    workItemsCompleted := 0
    workItemsInFlight := 0 }

/-- `is_ready`. -/
def isReady (s : WorkerScheduler) : Bool := s.waitingForSetup = 0

/-- `initialize_worker`; a second identification is logged and ignored. Both this log entry and a
worker number past the end, undefined in the source, leave the state unchanged. -/
def initializeWorker (s : WorkerScheduler) (worker : ℕ) (payload : WorkerInformation) :
    WorkerScheduler :=
  match s.workerData[worker]? with
  | none => s
  | some w =>
    if w.initialized then s
    else
      { s with
        hasCpus := s.hasCpus || payload.type = .cpu
        hasGpus := s.hasGpus || payload.type = .gpu
        workerData :=
          s.workerData.set worker (w.setData worker payload.type payload.capacity payload.priority)
        waitingForSetup := unsignedPred s.waitingForSetup
        unassigned := s.unassigned + 1
        active := s.active + 1 }

/-- Where the work items of a task come from. -/
inductive WorkSource where
  /-- The serial numbers of a database of configurations or of a list of output elements. -/
  | database (serials : List ℕ)
  /-- A set of serial numbers, iterated in ascending order, when a task is seeded. -/
  | set (list : List ℕ) (ascending : list.Pairwise (· < ·))

/-- The distinct work items a source gives. -/
def WorkSource.items : WorkSource → Finset ℕ
  | .database serials => serials.toFinset
  | .set list _ => list.toFinset

/-- `prepare_queue`: from a database, sort, drop duplicates and shuffle; from a set, shuffle. -/
def prepareQueue (P : Platform) (s : WorkerScheduler) : WorkSource → WorkerScheduler
  | .database serials =>
    { s with queue := P.shuffle ((serials.insertionSort (· ≤ ·)).destutter (· ≠ ·)) }
  | .set list _ => { s with queue := P.shuffle list }

/-- `complete_queue_setup`. -/
def completeQueueSetup (s : WorkerScheduler) : WorkerScheduler :=
  { s with
    maxWorkAllocation :=
      if s.workerData ≠ [] then max (s.queue.length / (5 * s.workerData.length)) 1 else 1 }

/-- `is_finished`: the queue is exhausted. -/
def isFinished (s : WorkerScheduler) : Bool := s.queue.isEmpty

/-- `all_inactive`. -/
def allInactive (s : WorkerScheduler) : Bool := s.active = 0

/-! ### Proposing assignments -/

/-- `assignable`: there are unassigned workers, and items for them. -/
def assignable (s : WorkerScheduler) : Bool := !s.queue.isEmpty && s.unassigned > 0

/-- The loop both strategies end with: give the `c`-th worker the next `share c w` items, until the
queue is used up. -/
def handOut (share : ℕ → WorkerSchedulingData → ℕ) :
    ℕ → List WorkerSchedulingData → List ℕ → List WorkAssignment
  | _, [], _ => []
  | _, _ :: _, [] => []
  | c, w :: ws, item :: q =>
    ⟨w.number, (item :: q).take (share c w)⟩ ::
      handOut share (c + 1) ws ((item :: q).drop (share c w))

/-- Workers without an assignment. -/
def unassignedWorkers (s : WorkerScheduler) : List WorkerSchedulingData :=
  s.workerData.filter fun w => !w.assigned

/-- Number of items the CPU strategy gives a worker: one to a worker that has not worked yet,
otherwise enough to fill the granularity, within both caps. -/
def cpuShare (P : Platform) (s : WorkerScheduler) (maxAllocationPerWorker : ℕ)
    (w : WorkerSchedulingData) : ℕ :=
  if w.time = 0 then 1
  else
    let timePerItem := w.meanTimePerWorkItem
    let itemsPerGranularity := if timePerItem > 0 then s.currentGranularity.tdiv timePerItem else 1
    let unitOfWork := min s.maxWorkAllocation (max 1 (P.floorToUnsigned itemsPerGranularity))
    min (if unitOfWork = 0 then 1 else unitOfWork) maxAllocationPerWorker

/-- `assign_work_cpu_only_strategy`. -/
def assignWorkCpuOnlyStrategy (P : Platform) (s : WorkerScheduler) :
    Except SchedulingError (List WorkAssignment) :=
  let workers := P.sort WorkerSchedulingData.meanTimeComparator s.unassignedWorkers
  if workers = [] then .error .fault
  else
    let maxAllocationPerWorker :=
      max 1 (P.fairShare s.queue.length workers.length s.workerData.length)
    .ok (handOut (fun _ w => s.cpuShare P maxAllocationPerWorker w) 0 workers s.queue)

/-- `assign_work_gpu_only_strategy`: an equal part for each worker, the first ones taking what is
left over. -/
def assignWorkGpuOnlyStrategy (s : WorkerScheduler) :
    Except SchedulingError (List WorkAssignment) :=
  let workers := s.unassignedWorkers
  if workers.length ≠ s.unassigned then .error .unassignedMismatch
  else if workers = [] then .error .fault
  else
    let itemsPerWorker := s.queue.length / workers.length
    let itemsLeftOver := s.queue.length % workers.length
    .ok (handOut (fun c _ => itemsPerWorker + if c < itemsLeftOver then 1 else 0) 0 workers s.queue)

/-- `assign_work`. -/
def assignWork (P : Platform) (s : WorkerScheduler) : Except SchedulingError (List WorkAssignment) :=
  if s.hasCpus && !s.hasGpus then s.assignWorkCpuOnlyStrategy P
  else if s.hasGpus && !s.hasCpus then s.assignWorkGpuOnlyStrategy
  else .error .mixedStrategy

/-! ### Keeping track of assignments -/

/-- The loop of `mark_assigned`: move items from the queue into flight, one by one. -/
def takeItems (worker : ℕ) : List ℕ → WorkerScheduler → Outcome
  | [], s => (.ok (), s)
  | item :: items, s =>
    if item ∈ s.queue then
      takeItems worker items
        { s with queue := s.queue.erase item, workItemsInFlight := s.workItemsInFlight + 1 }
    else (.error (.assignNotExist item worker), s)

/-- `mark_assigned`. -/
def markAssigned (s : WorkerScheduler) (a : WorkAssignment) : Outcome :=
  if s.unassigned = 0 then (.error .noUnassigned, s)
  else
    match s.workerData[a.worker]? with
    | none => (.error .fault, s)
    | some w =>
      if w.assigned then (.error .alreadyAssigned, s)
      else
        takeItems a.worker a.items
          { s with
            workerData := s.workerData.set a.worker { w with assigned := true }
            unassigned := unsignedPred s.unassigned }

/-- `get_mean_time_per_item`. -/
def meanTimePerItem (s : WorkerScheduler) : ℤ :=
  if s.workItemsCompleted > 0 then s.totalWorkTime.tdiv s.workItemsCompleted else s.totalWorkTime

/-- `update_estimated_completion`. -/
def updateEstimatedCompletion (s : WorkerScheduler) : WorkerScheduler :=
  { s with
    estimatedCpuTime :=
      s.totalWorkTime + s.meanTimePerItem * (s.workItemsInFlight + s.queue.length : ℕ) }

/-- `mark_unassigned`: a worker reports `items` items done in time `time`. -/
def markUnassigned (s : WorkerScheduler) (worker : ℕ) (time : ℤ) (items : ℕ) : Outcome :=
  match s.workerData[worker]? with
  | none => (.error .indexOutOfRange, s)
  | some w =>
    if !w.assigned then (.error .notAlreadyAssigned, s)
    else
      let s' := { s with
        workerData := s.workerData.set worker { w.updateTimingData time items with assigned := false }
        unassigned := s.unassigned + 1
        workItemsCompleted := s.workItemsCompleted + items }
      if s.workItemsInFlight ≥ items then
        (.ok (), updateEstimatedCompletion
          { s' with
            workItemsInFlight := s.workItemsInFlight - items
            totalWorkTime := s.totalWorkTime + time })
      else (.error .overreleaseInflight, s')

/-- `mark_inactive`: a worker has closed down. -/
def markInactive (s : WorkerScheduler) (worker : ℕ) : Outcome :=
  match s.workerData[worker]? with
  | none => (.error .indexOutOfRange, s)
  | some w =>
    if !w.active then (.error .alreadyInactive, s)
    else
      let s' := { s with
        workerData := s.workerData.set worker { w with active := false }
        active := unsignedPred s.active }
      if s'.active = 0 ∧ s'.workItemsInFlight > 0 then (.error .underInflight, s') else (.ok (), s')

/-- `report_aggregation`: the granularity is ten mean aggregation times, but at least the default. -/
def reportAggregation (s : WorkerScheduler) (time : ℤ) : WorkerScheduler :=
  let total := s.totalAggregationTime + time
  let mean := total.tdiv (s.numberAggregations + 1)
  { s with
    totalAggregationTime := total
    numberAggregations := s.numberAggregations + 1
    currentGranularity := if 10 * mean > defaultGranularity then 10 * mean else defaultGranularity }

/-! ### The counters agree with the records -/

/-- The worker records of a pool of workers of one kind, and the counters and flags kept beside
them, agree. -/
structure Consistent (kind : WorkerType) (s : WorkerScheduler) : Prop where
  /-- A worker's record stands at its number. -/
  numbered : ∀ {i : ℕ} {w : WorkerSchedulingData}, s.workerData[i]? = some w → w.number = i
  /-- `unassigned` counts the workers without an assignment. -/
  unassigned_eq : s.unassigned = s.workerData.countP fun w => !w.assigned
  /-- `active` counts the active workers. -/
  active_eq : s.active = s.workerData.countP fun w => w.active
  /-- CPUs are noted iff the pool is one of CPUs. -/
  hasCpus_eq : s.workerData ≠ [] → s.hasCpus = decide (kind = .cpu)
  /-- GPUs are noted iff the pool is one of GPUs. -/
  hasGpus_eq : s.workerData ≠ [] → s.hasGpus = decide (kind = .gpu)

/-- What initialization has established so far: `Consistent` for the workers heard from. -/
structure Initializing (kind : WorkerType) (s : WorkerScheduler) : Prop where
  /-- No worker has been given work or has closed down. -/
  fresh : ∀ {i : ℕ} {w : WorkerSchedulingData}, s.workerData[i]? = some w → w.assigned = false ∧ w.active = true
  /-- A worker heard from has its number. -/
  numbered : ∀ {i : ℕ} {w : WorkerSchedulingData}, s.workerData[i]? = some w → w.initialized = true → w.number = i
  /-- `waiting_for_setup` counts the workers not heard from. -/
  waiting_eq : s.waitingForSetup = s.workerData.countP fun w => !w.initialized
  /-- `unassigned` counts the workers heard from. -/
  unassigned_eq : s.unassigned = s.workerData.countP fun w => w.initialized
  /-- So does `active`. -/
  active_eq : s.active = s.workerData.countP fun w => w.initialized
  /-- CPUs are noted once a CPU was heard from. -/
  hasCpus_eq : s.hasCpus = decide (0 < (s.workerData.countP fun w => w.initialized) ∧ kind = .cpu)
  /-- GPUs are noted once a GPU was heard from. -/
  hasGpus_eq : s.hasGpus = decide (0 < (s.workerData.countP fun w => w.initialized) ∧ kind = .gpu)

theorem getElem?_reset_eq_some {s : WorkerScheduler} {i : ℕ} {w : WorkerSchedulingData} :
    s.reset.workerData[i]? = some w ↔ i < s.numberWorkers ∧ w = {} := by
  rw [reset, List.getElem?_replicate]
  split <;> simp_all [eq_comm]

/-- After `reset` no worker has been heard from. -/
theorem initializing_reset (kind : WorkerType) (s : WorkerScheduler) : Initializing kind s.reset where
  fresh h := by
    obtain ⟨-, rfl⟩ := getElem?_reset_eq_some.mp h
    exact ⟨rfl, rfl⟩
  numbered h hi := by
    obtain ⟨-, rfl⟩ := getElem?_reset_eq_some.mp h
    cases hi
  waiting_eq := by simp [reset, List.countP_replicate]
  unassigned_eq := by simp [reset, List.countP_replicate]
  active_eq := by simp [reset, List.countP_replicate]
  hasCpus_eq := by simp [reset, List.countP_replicate]
  hasGpus_eq := by simp [reset, List.countP_replicate]

/-- One identification. -/
theorem Initializing.initializeWorker {kind : WorkerType} {s : WorkerScheduler}
    (h : Initializing kind s) (worker : ℕ) {payload : WorkerInformation} (hp : payload.type = kind) :
    Initializing kind (s.initializeWorker worker payload) := by
  unfold WorkerScheduler.initializeWorker
  split
  · exact h
  · rename_i w hw
    split
    · exact h
    · rename_i hi
      have hi : w.initialized = false := by simpa using hi
      generalize hw' : w.setData worker payload.type payload.capacity payload.priority = w'
      have hset : w'.initialized = true ∧ w'.number = worker ∧ w'.assigned = w.assigned ∧
          w'.active = w.active := by simp [← hw', WorkerSchedulingData.setData]
      have hinit := countP_set_add (b := w') hw fun w => w.initialized
      have hwait := countP_set_add (b := w') hw fun w => !w.initialized
      have hpos : 0 < s.workerData.countP fun w => !w.initialized :=
        countP_pos_of_getElem? hw (by simp [hi])
      simp only [hi, hset.1, Bool.not_false, Bool.not_true, if_true, Bool.false_eq_true, if_false,
        add_zero] at hinit hwait
      constructor
      · intro i v hv
        rcases (getElem?_set_eq_some_iff hw).mp hv with ⟨-, rfl⟩ | ⟨-, hv⟩
        · rw [hset.2.2.1, hset.2.2.2]
          exact h.fresh hw
        · exact h.fresh hv
      · intro i v hv hvi
        rcases (getElem?_set_eq_some_iff hw).mp hv with ⟨rfl, rfl⟩ | ⟨-, hv⟩
        · exact hset.2.1
        · exact h.numbered hv hvi
      · simp only [unsignedPred, h.waiting_eq, hpos.ne', if_false]
        omega
      · simp only [h.unassigned_eq, hinit]
      · simp only [h.active_eq, hinit]
      · simp only [h.hasCpus_eq, hp, hinit, Nat.zero_lt_succ, true_and]
        by_cases hk : kind = .cpu <;> simp [hk]
      · simp only [h.hasGpus_eq, hp, hinit, Nat.zero_lt_succ, true_and]
        by_cases hk : kind = .gpu <;> simp [hk]

/-- Identifications arriving in any order, some of them perhaps twice. -/
def initializeWorkers (s : WorkerScheduler) (ids : List (ℕ × WorkerInformation)) : WorkerScheduler :=
  ids.foldl (fun s p => s.initializeWorker p.1 p.2) s

theorem Initializing.initializeWorkers {kind : WorkerType} {s : WorkerScheduler}
    (h : Initializing kind s) {ids : List (ℕ × WorkerInformation)} (hids : ∀ p ∈ ids, p.2.type = kind) :
    Initializing kind (s.initializeWorkers ids) := by
  unfold WorkerScheduler.initializeWorkers
  induction ids generalizing s with
  | nil => exact h
  | cons p ids ih =>
    exact ih (h.initializeWorker p.1 (hids p (by simp))) fun q hq => hids q (by simp [hq])

/-- Once the scheduler is ready, counters and records agree. -/
theorem Initializing.consistent {kind : WorkerType} {s : WorkerScheduler} (h : Initializing kind s)
    (hr : s.isReady = true) : Consistent kind s := by
  have hzero : s.workerData.countP (fun w => !w.initialized) = 0 := by
    simpa [isReady, h.waiting_eq] using hr
  have hall : ∀ w ∈ s.workerData, w.initialized = true := by simpa using hzero
  have hcount : s.workerData.countP (fun w => w.initialized) = s.workerData.length :=
    List.countP_eq_length.mpr hall
  refine ⟨fun hw => h.numbered hw (hall _ (List.mem_of_getElem? hw)), ?_, ?_, fun hne => ?_, fun hne => ?_⟩
  · rw [h.unassigned_eq, hcount, eq_comm, List.countP_eq_length]
    intro w hw
    obtain ⟨i, hi⟩ := List.mem_iff_getElem?.mp hw
    simp [(h.fresh hi).1]
  · rw [h.active_eq, hcount, eq_comm, List.countP_eq_length]
    intro w hw
    obtain ⟨i, hi⟩ := List.mem_iff_getElem?.mp hw
    exact (h.fresh hi).2
  · have hpos : 0 < s.workerData.length := List.length_pos_of_ne_nil hne
    simp [h.hasCpus_eq, hcount, hpos]
  · have hpos : 0 < s.workerData.length := List.length_pos_of_ne_nil hne
    simp [h.hasGpus_eq, hcount, hpos]

/-- The queue holds each work item of the source once. -/
theorem prepareQueue_perm (P : Platform) (s : WorkerScheduler) (src : WorkSource) :
    (s.prepareQueue P src).queue.Perm (src.items.sort (· ≤ ·)) := by
  cases src with
  | set list ascending =>
    have hnodup : list.Nodup := ascending.imp fun h => h.ne
    refine (P.shuffle_perm _).trans ((List.perm_ext_iff_of_nodup hnodup (Finset.sort_nodup _ _)).mpr ?_)
    simp [WorkSource.items]
  | database serials =>
    have hsorted : (serials.insertionSort (· ≤ ·)).Pairwise (· ≤ ·) :=
      List.pairwise_insertionSort _ serials
    refine (P.shuffle_perm _).trans ?_
    rw [hsorted.destutter_eq_dedup]
    refine (List.perm_ext_iff_of_nodup (List.nodup_dedup _) (Finset.sort_nodup _ _)).mpr ?_
    simp [WorkSource.items]

/-! ### A round of assignments -/

section HandOut

variable {share : ℕ → WorkerSchedulingData → ℕ} {c : ℕ} {ws : List WorkerSchedulingData} {q : List ℕ}

/-- Items are handed out from the front of the queue, in order. -/
theorem handOut_items_prefix : (handOut share c ws q).flatMap (·.items) <+: q := by
  fun_induction handOut share c ws q with
  | case1 | case2 => simp
  | case3 c w ws item q ih =>
    rw [List.flatMap_cons]
    conv_rhs => rw [← List.take_append_drop (share c w) (item :: q)]
    exact (List.prefix_append_right_inj _).mpr ih

/-- Workers are served in order, each at most once. -/
theorem handOut_workers_prefix : (handOut share c ws q).map (·.worker) <+: ws.map (·.number) := by
  fun_induction handOut share c ws q with
  | case1 | case2 => simp
  | case3 c w ws item q ih => exact List.cons_prefix_cons.mpr ⟨rfl, ih⟩

theorem handOut_ne_nil (hws : ws ≠ []) (hq : q ≠ []) : handOut share c ws q ≠ [] := by
  cases ws with
  | nil => exact absurd rfl hws
  | cons w ws => cases q with
    | nil => exact absurd rfl hq
    | cons item q => simp [handOut]

/-- No worker gets an empty list, if an invariant of the loop forces every share to be positive. -/
theorem handOut_items_ne_nil (I : ℕ → List WorkerSchedulingData → List ℕ → Prop)
    (hI : ∀ {c w ws q}, q ≠ [] → I c (w :: ws) q → 0 < share c w ∧ I (c + 1) ws (q.drop (share c w)))
    (h₀ : I c ws q) : ∀ a ∈ handOut share c ws q, a.items ≠ [] := by
  fun_induction handOut share c ws q with
  | case1 | case2 => simp
  | case3 c w ws item q ih =>
    obtain ⟨hpos, hnext⟩ := hI (List.cons_ne_nil item q) h₀
    intro a ha
    rcases List.mem_cons.mp ha with rfl | ha
    · simp [hpos.ne']
    · exact ih hnext a ha

end HandOut

/-- What a round of assignments looks like. -/
structure Round (s : WorkerScheduler) (l : List WorkAssignment) : Prop where
  /-- Some assignment is made. -/
  ne_nil : l ≠ []
  /-- The workers are distinct. -/
  workers_nodup : (l.map (·.worker)).Nodup
  /-- Each is unassigned. -/
  unassigned : ∀ a ∈ l, ∃ w, s.workerData[a.worker]? = some w ∧ w.assigned = false
  /-- Each gets some work. -/
  items_ne_nil : ∀ a ∈ l, a.items ≠ []
  /-- The items are the front of the queue. -/
  items_prefix : l.flatMap (·.items) <+: s.queue

theorem cpuShare_pos (P : Platform) (s : WorkerScheduler) {m : ℕ} (hm : 0 < m)
    (w : WorkerSchedulingData) : 0 < s.cpuShare P m w := by
  unfold cpuShare
  split
  · omega
  · refine lt_min ?_ hm
    generalize min s.maxWorkAllocation _ = unitOfWork
    split <;> omega

/-- The lists of a round are pairwise disjoint. -/
theorem Round.items_disjoint {s : WorkerScheduler} {l : List WorkAssignment} (h : Round s l)
    (hq : s.queue.Nodup) : l.Pairwise fun a b => a.items.Disjoint b.items :=
  (List.nodup_flatMap.mp (h.items_prefix.sublist.nodup hq)).2

/-- Handing the queue out to rearranged unassigned workers makes a round. -/
theorem round_handOut {kind : WorkerType} {s : WorkerScheduler} (hs : Consistent kind s)
    {share : ℕ → WorkerSchedulingData → ℕ} {ws : List WorkerSchedulingData}
    (hws : ws.Perm s.unassignedWorkers) (hne : ws ≠ []) (hq : s.queue ≠ [])
    (hitems : ∀ a ∈ handOut share 0 ws s.queue, a.items ≠ []) :
    Round s (handOut share 0 ws s.queue) := by
  have hnum : (s.workerData.map (·.number)) = List.range s.workerData.length := by
    refine List.ext_getElem? fun i => ?_
    cases hw : s.workerData[i]? with
    | none => simp_all
    | some w =>
      rw [List.getElem?_map, hw, Option.map_some, hs.numbered hw,
        List.getElem?_range (List.getElem?_eq_some_iff.mp hw).1]
  refine ⟨handOut_ne_nil hne hq, ?_, fun a ha => ?_, hitems, handOut_items_prefix⟩
  · refine handOut_workers_prefix.sublist.nodup ((hws.map _).nodup_iff.mpr ?_)
    have hsub : (s.unassignedWorkers.map (·.number)).Sublist (s.workerData.map (·.number)) :=
      List.filter_sublist.map _
    exact (hnum ▸ hsub).nodup List.nodup_range
  · have hmem : a.worker ∈ ws.map (·.number) :=
      handOut_workers_prefix.subset (List.mem_map_of_mem ha)
    obtain ⟨w, hw, hwa⟩ := List.mem_map.mp hmem
    have hw' : w ∈ s.workerData ∧ (!w.assigned) = true := List.mem_filter.mp (hws.mem_iff.mp hw)
    obtain ⟨i, hi⟩ := List.mem_iff_getElem?.mp hw'.1
    have := hs.numbered hi
    exact ⟨w, by rw [← hwa, this, hi], by simpa using hw'.2⟩

/-- **A round**: when work is assignable, `assign_work` does not throw and proposes a round. -/
theorem assignWork_spec (P : Platform) {kind : WorkerType} {s : WorkerScheduler}
    (hs : Consistent kind s) (ha : s.assignable = true) :
    ∃ l, s.assignWork P = .ok l ∧ Round s l := by
  obtain ⟨hq, hun⟩ : s.queue ≠ [] ∧ 0 < s.unassigned := by simpa [assignable] using ha
  have hlen : s.unassignedWorkers.length = s.unassigned := by
    rw [hs.unassigned_eq, unassignedWorkers, List.countP_eq_length_filter]
  have hne : s.unassignedWorkers ≠ [] := by
    rw [← List.length_pos_iff, hlen]
    exact hun
  have hdata : s.workerData ≠ [] := by
    rintro h
    simp [unassignedWorkers, h] at hne
  unfold assignWork
  rw [hs.hasCpus_eq hdata, hs.hasGpus_eq hdata]
  cases kind with
  | cpu =>
    have hperm := P.sort_perm WorkerSchedulingData.meanTimeComparator s.unassignedWorkers
    have hsort : P.sort WorkerSchedulingData.meanTimeComparator s.unassignedWorkers ≠ [] := by
      rintro h
      exact hne (List.nil_perm.mp (h ▸ hperm))
    simp only [decide_true, reduceCtorEq, decide_false, Bool.not_false, Bool.and_self, if_true,
      assignWorkCpuOnlyStrategy, hsort, if_false]
    refine ⟨_, rfl, round_handOut hs hperm hsort hq ?_⟩
    exact handOut_items_ne_nil (fun _ _ _ => True)
      (fun _ _ => ⟨cpuShare_pos P s (by omega) _, trivial⟩) trivial
  | gpu =>
    simp only [decide_true, reduceCtorEq, decide_false, Bool.not_true, Bool.not_false, Bool.and_self,
      Bool.false_eq_true, if_true, if_false, assignWorkGpuOnlyStrategy, hlen, ne_eq,
      not_true_eq_false, hne]
    refine ⟨_, rfl, round_handOut hs (List.Perm.refl _) hne hq ?_⟩
    -- what is left in the queue is exactly what the workers still to come will get
    refine handOut_items_ne_nil (fun c ws q =>
      q.length = s.queue.length / s.unassigned * ws.length + (s.queue.length % s.unassigned - c)) ?_ ?_
    · intro c w ws q hq hlen
      have hqpos : 0 < q.length := List.length_pos_of_ne_nil hq
      rw [List.length_cons, Nat.mul_succ] at hlen
      generalize s.queue.length / s.unassigned = per at *
      generalize s.queue.length % s.unassigned = left at *
      have hzero : per = 0 → per * ws.length = 0 := by rintro rfl; simp
      rw [List.length_drop]
      split <;> omega
    · rw [hlen, Nat.sub_zero, Nat.div_add_mod']

/-! ### Sending, reporting and closing down -/

/-- Items all in the queue are moved into flight. -/
theorem takeItems_ok {s : WorkerScheduler} {items rest : List ℕ} (worker : ℕ)
    (h : (items ++ rest).Perm s.queue) :
    ∃ q, q.Perm rest ∧ takeItems worker items s =
      (.ok (), { s with queue := q, workItemsInFlight := s.workItemsInFlight + items.length }) := by
  induction items generalizing s with
  | nil => exact ⟨s.queue, h.symm, rfl⟩
  | cons item items ih =>
    have hmem : item ∈ s.queue := h.mem_iff.mp (by simp)
    have herase : (items ++ rest).Perm (s.queue.erase item) := by
      simpa using h.erase item
    obtain ⟨q, hq, heq⟩ := ih (s := { s with
      queue := s.queue.erase item, workItemsInFlight := s.workItemsInFlight + 1 }) herase
    refine ⟨q, hq, ?_⟩
    simp only [takeItems, hmem, if_true, heq, List.length_cons]
    simp [Nat.add_assoc, Nat.add_comm 1]

/-- **`mark_assigned`** on an unassigned worker and items of the queue. -/
theorem markAssigned_ok {kind : WorkerType} {s : WorkerScheduler} (hs : Consistent kind s)
    {a : WorkAssignment} {w : WorkerSchedulingData} {rest : List ℕ}
    (hw : s.workerData[a.worker]? = some w) (hun : w.assigned = false)
    (hq : (a.items ++ rest).Perm s.queue) :
    ∃ q, q.Perm rest ∧ s.markAssigned a =
      (.ok (), { s with
        workerData := s.workerData.set a.worker { w with assigned := true }
        unassigned := s.unassigned - 1
        queue := q
        workItemsInFlight := s.workItemsInFlight + a.items.length }) := by
  have hpos : s.unassigned ≠ 0 := by
    rw [hs.unassigned_eq]
    exact (countP_pos_of_getElem? hw (by simp [hun])).ne'
  simp only [markAssigned, hpos, if_false, hw, hun, Bool.false_eq_true, unsignedPred]
  exact takeItems_ok a.worker hq

/-- **`mark_unassigned`** on an assigned worker that reports no more items than are in flight. -/
theorem markUnassigned_ok {s : WorkerScheduler} {worker : ℕ} {w : WorkerSchedulingData} (time : ℤ)
    {items : ℕ} (hw : s.workerData[worker]? = some w) (has : w.assigned = true)
    (hitems : items ≤ s.workItemsInFlight) :
    s.markUnassigned worker time items =
      (.ok (), updateEstimatedCompletion { s with
        workerData := s.workerData.set worker { w.updateTimingData time items with assigned := false }
        unassigned := s.unassigned + 1
        workItemsCompleted := s.workItemsCompleted + items
        workItemsInFlight := s.workItemsInFlight - items
        totalWorkTime := s.totalWorkTime + time }) := by
  simp [markUnassigned, hw, has, hitems]

/-- **`mark_inactive`** on an active worker, unless it is the last and items are in flight. -/
theorem markInactive_ok {kind : WorkerType} {s : WorkerScheduler} (hs : Consistent kind s)
    {worker : ℕ} {w : WorkerSchedulingData} (hw : s.workerData[worker]? = some w)
    (hact : w.active = true) (hlast : s.active = 1 → s.workItemsInFlight = 0) :
    s.markInactive worker =
      (.ok (), { s with
        workerData := s.workerData.set worker { w with active := false }
        active := s.active - 1 }) := by
  have hpos : s.active ≠ 0 := by
    rw [hs.active_eq]
    exact (countP_pos_of_getElem? hw hact).ne'
  have hcond : ¬ (s.active - 1 = 0 ∧ s.workItemsInFlight > 0) := by
    rintro ⟨h1, h2⟩
    have := hlast (by omega)
    omega
  simp [markInactive, hw, hact, unsignedPred, hpos, hcond]

/-- **`mark_inactive`** on the last active worker while items are in flight. -/
theorem markInactive_underInflight {s : WorkerScheduler} {worker : ℕ} {w : WorkerSchedulingData}
    (hw : s.workerData[worker]? = some w) (hact : w.active = true) (hlast : s.active = 1)
    (hflight : 0 < s.workItemsInFlight) :
    ∃ s', s.markInactive worker = (.error .underInflight, s') := by
  simp [markInactive, hw, hact, unsignedPred, hlast, hflight]

/-- Replacing a record by one with the same number, with the counters moved accordingly, keeps
records and counters in agreement. -/
theorem Consistent.set {kind : WorkerType} {s s' : WorkerScheduler} (hs : Consistent kind s)
    {worker : ℕ} {w v : WorkerSchedulingData} (hw : s.workerData[worker]? = some w)
    (hnum : v.number = w.number) (hdata : s'.workerData = s.workerData.set worker v)
    (hun : s'.unassigned + (if w.assigned then 0 else 1) = s.unassigned + (if v.assigned then 0 else 1))
    (hact : s'.active + (if w.active then 1 else 0) = s.active + (if v.active then 1 else 0))
    (hcpu : s'.hasCpus = s.hasCpus) (hgpu : s'.hasGpus = s.hasGpus) : Consistent kind s' := by
  have hne : s'.workerData ≠ [] → s.workerData ≠ [] := by
    rw [hdata]
    exact fun h h' => h (by simp [h'])
  refine ⟨fun {i x} hx => ?_, ?_, ?_, fun h => hcpu ▸ hs.hasCpus_eq (hne h),
    fun h => hgpu ▸ hs.hasGpus_eq (hne h)⟩
  · rw [hdata] at hx
    rcases (getElem?_set_eq_some_iff hw).mp hx with ⟨rfl, rfl⟩ | ⟨-, hx⟩
    · rw [hnum, hs.numbered hw]
    · exact hs.numbered hx
  · have hcount := countP_set_add (b := v) hw fun w => !w.assigned
    rw [hdata, ← Nat.add_right_cancel_iff (n := if w.assigned then 0 else 1), hun, hs.unassigned_eq]
    rw [show (if w.assigned then 0 else 1) = if (!w.assigned) = true then 1 else 0 by
      cases w.assigned <;> rfl, hcount]
    cases v.assigned <;> rfl
  · have hcount := countP_set_add (b := v) hw fun w => w.active
    rw [hdata, ← Nat.add_right_cancel_iff (n := if w.active then 1 else 0), hact, hs.active_eq]
    exact hcount.symm

end WorkerScheduler

end CppTransport.Runtime
