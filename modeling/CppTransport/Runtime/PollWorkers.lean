import CppTransport.Runtime.WorkConservation

/-!
# The poll loop of the master and its workers

`master_controller::poll_workers` runs one task: it sends work assignments to
the workers, consumes the messages they send back, queues the containers they
announce for aggregation and aggregates them, and returns when every worker has
closed down.

## The model

The master and the workers exchange messages over channels that are first-in
first-out in each direction (`Link`). `World.next` performs one event: a step of
the loop (`loop`, `send`, `receive`, `noMessage`, `idle`, `drain`, `finish`), or
something a worker does (`accept` the next message of the master, `emit` a
message of its own). A worker follows a `WorkerRule`, which says what it may
send in which state; `workerProtocol` is the rule of the slave controllers, and
`announcesBeforeClosing` asks only that announcements come before the close-down
message. The order of events is arbitrary.

Whether the master finds itself idle for long enough to aggregate early, which
worker's message `iprobe` returns and whether it returns one, and how long
anything takes is left open. An exception that the scheduler throws ends the
loop (`Phase.thrown`); exceptions of an aggregation other than the trapped
container errors also end it, as a run that goes no further. Performance
metadata and log entries, which nothing here reads, are left out.

The fields `announced`, `received`, `failures` and `unreported` are for
observation only: no step reads them.
-/

namespace CppTransport.Runtime

open CppTransport.Library WorkerScheduler

/-- What a task produces: integration data, derived content or postintegration data. -/
inductive ContentKind where
  | integration
  | derivedContent
  | postintegration
deriving DecidableEq, Repr

/-- What the loop reads of the payload of a report. -/
structure FinishedPayload where
  /-- Time spent on the assignment. -/
  wallclockTime : ℤ
  /-- Number of items processed. -/
  itemsProcessed : ℕ
  /-- Serial numbers of failed integrations. -/
  failedSerials : List ℕ
deriving DecidableEq, Repr

/-- Messages to a worker. -/
inductive ToWorker where
  /-- `NEW_WORK_ASSIGNMENT`. -/
  | newWorkAssignment (items : List ℕ)
  /-- `END_OF_WORK`. -/
  | endOfWork
deriving DecidableEq, Repr

/-- Messages to the master. -/
inductive ToMaster where
  /-- `INTEGRATION_DATA_READY`, `DERIVED_CONTENT_READY` or `POSTINTEGRATION_DATA_READY`. -/
  | dataReady (kind : ContentKind) (container : String)
  /-- `NEW_WORK_ACKNOWLEDGMENT`. -/
  | newWorkAcknowledgment
  /-- `FINISHED_…` or, with `failed`, `…_FAIL`. -/
  | finished (kind : ContentKind) (failed : Bool) (payload : FinishedPayload)
  /-- `WORKER_CLOSE_DOWN`. -/
  | workerCloseDown
  /-- `REPORT_ERROR`. -/
  | reportError (message : String)
  /-- Any other tag. -/
  | unexpected (tag : ℕ)
deriving DecidableEq, Repr

/-- What a message announces. -/
def ToMaster.announcement : ToMaster → Option (ContentKind × String)
  | .dataReady kind container => some (kind, container)
  | _ => none

/-- Does a message report a failed assignment? -/
def ToMaster.isFail : ToMaster → Bool
  | .finished _ failed _ => failed
  | _ => false

/-- What a worker is doing. -/
inductive WorkerState where
  /-- Waiting for a message. -/
  | idle
  /-- Processing an assignment. -/
  | working (items : List ℕ)
  /-- Closing its batcher after end-of-work. -/
  | closing
  /-- Closed down. -/
  | closed
deriving DecidableEq, Repr

/-- The items missing from the count of a report. -/
def WorkerState.shortfall : WorkerState → ToMaster → ℕ
  | .working items, .finished _ _ payload => items.length - payload.itemsProcessed
  | _, _ => 0

/-- A worker and its channels. -/
structure Link where
  /-- Messages on their way to the worker. -/
  inbox : List ToWorker := []
  /-- The worker. -/
  state : WorkerState := .idle
  /-- Messages on their way to the master. -/
  outbox : List ToMaster := []
  /-- The announcements the worker has sent so far. -/
  announced : List (ContentKind × String) := []
deriving DecidableEq, Repr

/-- The worker sends a message and goes to `state`. -/
def Link.emit (L : Link) (msg : ToMaster) (state : WorkerState) : Link :=
  { L with
    state := state
    outbox := L.outbox ++ [msg]
    announced := L.announced ++ msg.announcement.toList }

/-- `aggregation_record`: a container waiting for aggregation. -/
structure AggregationRecord where
  /-- The worker that announced it. -/
  worker : ℕ
  /-- Its number in order of receipt. -/
  id : ℕ
  /-- What it holds, and its path. -/
  content : ContentKind × String
deriving DecidableEq, Repr

/-- Where the master is in `poll_workers`. -/
inductive Phase where
  /-- At the head of the loop. -/
  | top
  /-- Sending the assignments of a round. -/
  | sending (work : List WorkAssignment)
  /-- Consuming messages. -/
  | probing
  /-- No message was waiting. -/
  | idle
  /-- After the loop, processing the remaining aggregations. -/
  | draining
  /-- Returned. -/
  | returned (success : Bool)
  /-- Left by an exception of the scheduler. -/
  | thrown (e : SchedulingError)
deriving DecidableEq, Repr

/-- The master, its workers and the messages in flight. -/
structure World where
  /-- The scheduler. -/
  sched : WorkerScheduler
  /-- The workers, by number. -/
  links : List Link
  /-- Where the master is. -/
  phase : Phase := .top
  /-- Has the close-down instruction been sent? -/
  sentClosedown : Bool := false
  /-- No assignment was reported as failed. -/
  success : Bool := true
  /-- The failure list of the writer. -/
  failedSerials : List ℕ := []
  /-- Errors reported by workers. -/
  alerts : List String := []
  /-- Number of the next aggregation. -/
  aggregationCounter : ℕ := 0
  /-- Containers waiting for aggregation. -/
  aggregationQueue : List AggregationRecord := []
  /-- Containers handed to their aggregator, in order. -/
  aggregated : List AggregationRecord := []
  /-- Announcements received, in order. -/
  received : List AggregationRecord := []
  /-- Some worker has reported a failed assignment. -/
  failures : Bool := false
  /-- Items assigned and missing from the count of the report on their assignment. -/
  unreported : ℕ := 0
deriving DecidableEq

/-- The content kinds for which the master was given an aggregator. -/
abbrev Aggregators := ContentKind → Bool

/-- What a worker in a given state may send, and the state it goes to. -/
abbrev WorkerRule := WorkerState → ToMaster → WorkerState → Bool

/-- The slave controllers: one report for each assignment, on all of its items unless it failed;
announcements of the kinds the task produces, errors and messages the master discards at any time
before close-down; close-down once, on end-of-work. -/
def workerProtocol (aggs : Aggregators) : WorkerRule
  | .working items, .finished _ failed payload, .idle =>
    payload.itemsProcessed ≤ items.length && (failed || payload.itemsProcessed = items.length) &&
      0 ≤ payload.wallclockTime
  | .closing, .workerCloseDown, .closed => true
  | s, .dataReady kind _, s' => s = s' && s ≠ .closed && aggs kind
  | s, .reportError _, s' => s = s' && s ≠ .closed
  | s, .unexpected _, s' => s = s' && s ≠ .closed
  | _, _, _ => false

/-- Any behaviour in which announcements are of the kinds expected and precede close-down. -/
def announcesBeforeClosing (aggs : Aggregators) : WorkerRule
  | .closed, .dataReady _ _, _ => false
  | .closed, _, s' => s' = .closed
  | _, .dataReady kind _, _ => aggs kind
  | _, .workerCloseDown, s' => s' = .closed
  | _, _, _ => true

/-- One event. -/
inductive Event where
  /-- The head of the loop, up to the first message or assignment. -/
  | loop
  /-- Send the next assignment of the round. -/
  | send
  /-- `iprobe` finds a message of `worker`, which is consumed. -/
  | receive (worker : ℕ)
  /-- `iprobe` finds no message. -/
  | noMessage
  /-- Go round the loop again; after a long idle time, aggregate one container first, in the time
  given or, with `none`, failing. -/
  | idle (early : Option (Option ℤ))
  /-- Aggregate one of the remaining containers. -/
  | drain (time : Option ℤ)
  /-- Return. -/
  | finish
  /-- `worker` takes the next message of the master. -/
  | accept (worker : ℕ)
  /-- `worker` sends a message and goes to `state`. -/
  | emit (worker : ℕ) (message : ToMaster) (state : WorkerState)
deriving DecidableEq, Repr

namespace World

/-- `send_closedown`: end-of-work for every worker. -/
def sendClosedown (w : World) : World :=
  { w with
    sentClosedown := true
    links := w.links.map fun L => { L with inbox := L.inbox ++ [.endOfWork] } }

/-- The head of the loop. -/
def loopHead (P : Platform) (w : World) : World :=
  if w.sched.allInactive then { w with phase := .draining }
  else
    let w := if w.sched.isFinished && !w.sentClosedown then w.sendClosedown else w
    if w.sched.assignable then
      match w.sched.assignWork P with
      | .ok l => { w with phase := .sending l }
      | .error e => { w with phase := .thrown e }
    else { w with phase := .probing }

/-- `assign_work_to_workers`, one assignment: send it to its worker and mark it. -/
def sendAssignment (w : World) (a : WorkAssignment) (rest : List WorkAssignment) : World :=
  let links := match w.links[a.worker]? with
    | none => w.links
    | some L => w.links.set a.worker { L with inbox := L.inbox ++ [.newWorkAssignment a.items] }
  match w.sched.markAssigned a with
  | (.ok (), s) => { w with links := links, sched := s, phase := .sending rest }
  | (.error e, s) => { w with links := links, sched := s, phase := .thrown e }

/-- `unassign_worker` with the bookkeeping of a report. -/
def handleFinished (w : World) (worker : ℕ) (kind : ContentKind) (failed : Bool)
    (payload : FinishedPayload) : World :=
  match w.sched.markUnassigned worker payload.wallclockTime payload.itemsProcessed with
  | (.ok (), s) =>
    { w with
      sched := s
      failedSerials :=
        if kind = .integration then w.failedSerials ++ payload.failedSerials else w.failedSerials
      success := w.success && !failed }
  | (.error e, s) => { w with sched := s, phase := .thrown e }

/-- The switch on the tag of a message, once it is received. -/
def handle (w : World) (worker : ℕ) : ToMaster → World
  | .dataReady kind container =>
    let record := ⟨worker, w.aggregationCounter, (kind, container)⟩
    { w with
      aggregationCounter := w.aggregationCounter + 1
      aggregationQueue := w.aggregationQueue ++ [record]
      received := w.received ++ [record] }
  | .newWorkAcknowledgment => w
  | .finished kind failed payload => w.handleFinished worker kind failed payload
  | .workerCloseDown =>
    match w.sched.markInactive worker with
    | (.ok (), s) => { w with sched := s }
    | (.error e, s) => { w with sched := s, phase := .thrown e }
  | .reportError message => { w with alerts := w.alerts ++ [message] }
  | .unexpected _ => w

/-- Is the message left in its channel? Only an announcement no aggregator was given for is. -/
def refuses (aggs : Aggregators) : ToMaster → Bool
  | .dataReady kind _ => !aggs kind
  | _ => false

/-- Aggregate the container at the front of the queue. -/
def aggregate (w : World) (time : Option ℤ) : World :=
  match w.aggregationQueue with
  | [] => w
  | record :: queue =>
    { w with
      aggregationQueue := queue
      aggregated := w.aggregated ++ [record]
      sched := time.elim w.sched w.sched.reportAggregation }

/-- One event, if it can happen. -/
def next (P : Platform) (aggs : Aggregators) (rule : WorkerRule) (w : World) : Event → Option World
  | .loop => if w.phase = .top then some (w.loopHead P) else none
  | .send =>
    match w.phase with
    | .sending [] => some { w with phase := .probing }
    | .sending (a :: rest) => some (w.sendAssignment a rest)
    | _ => none
  | .receive worker =>
    if w.phase = .probing then
      match w.links[worker]? with
      | some L =>
        match L.outbox with
        | [] => none
        | msg :: outbox =>
          if refuses aggs msg then some w
          else some (({ w with links := w.links.set worker { L with outbox := outbox } }).handle worker msg)
      | none => none
    else none
  | .noMessage => if w.phase = .probing then some { w with phase := .idle } else none
  | .idle early =>
    if w.phase = .idle then some { early.elim w w.aggregate with phase := .top } else none
  | .drain time =>
    if w.phase = .draining ∧ w.aggregationQueue ≠ [] then some (w.aggregate time) else none
  | .finish =>
    if w.phase = .draining ∧ w.aggregationQueue = [] then some { w with phase := .returned w.success }
    else none
  | .accept worker =>
    match w.links[worker]? with
    | some L =>
      match L.state, L.inbox with
      | .idle, .newWorkAssignment items :: inbox =>
        some { w with
          links := w.links.set worker
            { L.emit .newWorkAcknowledgment (.working items) with inbox := inbox } }
      | .idle, .endOfWork :: inbox =>
        some { w with links := w.links.set worker { L with inbox := inbox, state := .closing } }
      | _, _ => none
    | none => none
  | .emit worker msg state =>
    match w.links[worker]? with
    | some L =>
      if rule L.state msg state then
        some { w with
          links := w.links.set worker (L.emit msg state)
          failures := w.failures || msg.isFail
          unreported := w.unreported + L.state.shortfall msg }
      else none
    | none => none

end World

/-- The runs of `poll_workers` with workers that follow `rule`, on a task whose work items are those
of `src`, for workers of one kind. -/
def pollSystem (P : Platform) (aggs : Aggregators) (rule : WorkerRule) (kind : WorkerType)
    (src : WorkSource) : System World Event :=
  .ofNext
    (fun w => ∃ s, SetUp P kind src s ∧ w = { sched := s, links := List.replicate s.workerData.length {} })
    (World.next P aggs rule)

/-- Once the scheduler has thrown the master does nothing more, and missing items stay missing. -/
theorem phase_of_thrown {P : Platform} {aggs : Aggregators} {rule : WorkerRule} {w w' : World}
    {ex : SchedulingError} {e : Event} (h : w.phase = .thrown ex)
    (hn : w.next P aggs rule e = some w') : w'.phase = .thrown ex ∧ w.unreported ≤ w'.unreported := by
  cases e with
  | loop | receive | noMessage | idle | drain | finish => simp [World.next, h] at hn
  | send => simp [World.next, h] at hn
  | accept worker =>
    simp only [World.next] at hn
    split at hn
    · split at hn <;> cases hn <;> exact ⟨h, le_rfl⟩
    · cases hn
  | emit worker msg state =>
    simp only [World.next] at hn
    split at hn
    · split at hn <;> cases hn
      exact ⟨h, Nat.le_add_right _ _⟩
    · cases hn

/-! ### What the master leaves alone -/

/-- The two worlds agree on what the workers are doing and have reported. -/
structure SameWorkers (w w' : World) : Prop where
  /-- The states of the workers. -/
  states : w'.links.map (·.state) = w.links.map (·.state)
  /-- The items missing from reports. -/
  unreported : w'.unreported = w.unreported
  /-- The failures reported. -/
  failures : w'.failures = w.failures

theorem SameWorkers.refl (w : World) : SameWorkers w w := ⟨rfl, rfl, rfl⟩

theorem sameWorkers_sendClosedown (w : World) : SameWorkers w w.sendClosedown := by
  refine ⟨?_, rfl, rfl⟩
  rw [World.sendClosedown, List.map_map]
  rfl

theorem sameWorkers_loopHead (P : Platform) (w : World) : SameWorkers w (w.loopHead P) := by
  unfold World.loopHead
  split
  · exact ⟨rfl, rfl, rfl⟩
  · have hsend : SameWorkers w (if w.sched.isFinished && !w.sentClosedown then w.sendClosedown else w) := by
      split
      · exact sameWorkers_sendClosedown w
      · exact SameWorkers.refl w
    dsimp only
    generalize (if w.sched.isFinished && !w.sentClosedown then w.sendClosedown else w) = u at hsend
    split
    · split <;> exact ⟨hsend.states, hsend.unreported, hsend.failures⟩
    · exact ⟨hsend.states, hsend.unreported, hsend.failures⟩

theorem sameWorkers_sendAssignment (w : World) (a : WorkAssignment) (rest : List WorkAssignment) :
    SameWorkers w (w.sendAssignment a rest) := by
  unfold World.sendAssignment
  cases hL : w.links[a.worker]? with
  | none => dsimp only; split <;> exact ⟨rfl, rfl, rfl⟩
  | some L => dsimp only; split <;> exact ⟨map_set_of_eq hL rfl, rfl, rfl⟩

theorem sameWorkers_handle (w : World) (worker : ℕ) (msg : ToMaster) :
    SameWorkers w (w.handle worker msg) := by
  cases msg with
  | dataReady | newWorkAcknowledgment | reportError | unexpected => exact ⟨rfl, rfl, rfl⟩
  | finished kind failed payload =>
    simp only [World.handle, World.handleFinished]
    split <;> exact ⟨rfl, rfl, rfl⟩
  | workerCloseDown =>
    simp only [World.handle]
    split <;> exact ⟨rfl, rfl, rfl⟩

theorem sameWorkers_aggregate (w : World) (time : Option ℤ) : SameWorkers w (w.aggregate time) := by
  unfold World.aggregate
  split <;> exact ⟨rfl, rfl, rfl⟩

/-- The events that are steps of the master. -/
def Event.byMaster : Event → Bool
  | .accept _ | .emit _ _ _ => false
  | _ => true

/-- A step of the master leaves the workers alone. -/
theorem sameWorkers_next {P : Platform} {aggs : Aggregators} {rule : WorkerRule} {w w' : World} {e : Event}
    (he : e.byMaster = true) (hn : w.next P aggs rule e = some w') : SameWorkers w w' := by
  cases e with
  | accept | emit => cases he
  | loop =>
    simp only [World.next, Option.ite_none_right_eq_some, Option.some.injEq] at hn
    exact hn.2 ▸ sameWorkers_loopHead P w
  | send =>
    simp only [World.next] at hn
    split at hn
    · exact Option.some.inj hn ▸ ⟨rfl, rfl, rfl⟩
    · exact Option.some.inj hn ▸ sameWorkers_sendAssignment w _ _
    · cases hn
  | receive worker =>
    simp only [World.next] at hn
    split at hn
    · split at hn
      · rename_i L hL
        split at hn
        · cases hn
        · rename_i msg outbox hout
          split at hn
          · exact Option.some.inj hn ▸ SameWorkers.refl w
          · obtain ⟨h1, h2, h3⟩ :=
              sameWorkers_handle { w with links := w.links.set worker { L with outbox := outbox } } worker msg
            exact Option.some.inj hn ▸ ⟨h1.trans (map_set_of_eq hL rfl), h2, h3⟩
      · cases hn
    · cases hn
  | noMessage | finish =>
    simp only [World.next, Option.ite_none_right_eq_some, Option.some.injEq] at hn
    exact hn.2 ▸ ⟨rfl, rfl, rfl⟩
  | idle early =>
    simp only [World.next, Option.ite_none_right_eq_some, Option.some.injEq] at hn
    obtain ⟨-, rfl⟩ := hn
    cases early with
    | none => exact ⟨rfl, rfl, rfl⟩
    | some time =>
      obtain ⟨h1, h2, h3⟩ := sameWorkers_aggregate w time
      exact ⟨h1, h2, h3⟩
  | drain time =>
    simp only [World.next, Option.ite_none_right_eq_some, Option.some.injEq] at hn
    exact hn.2 ▸ sameWorkers_aggregate w time

/-- A scheduler set up for one CPU worker and the work item 7. -/
def oneWorkerScheduler : WorkerScheduler :=
  ((({ numberWorkers := 1 } : WorkerScheduler).prepareQueue exactPlatform (.database [7])).reset
    |>.initializeWorkers [(0, ⟨.cpu, 0, 1⟩)]).completeQueueSetup

/-- The task with one worker and one work item, at its start. -/
def oneWorkerTask : World := { sched := oneWorkerScheduler, links := [{}] }

theorem oneWorkerTask_init (aggs : Aggregators) (rule : WorkerRule) :
    (pollSystem exactPlatform aggs rule .cpu (.database [7])).init oneWorkerTask :=
  ⟨oneWorkerScheduler, ⟨_, [(0, ⟨.cpu, 0, 1⟩)], by simp, by decide, rfl⟩, by decide⟩

/-- The assignment is sent, worked on and reported by `messages`, the worker closes down, and the
master has received all of its messages. -/
def oneWorkerEvents (messages : List ToMaster) : List Event :=
  [.loop, .send, .send, .noMessage, .accept 0] ++
    (messages.map fun msg => .emit 0 msg (match msg with | .finished _ _ _ => .idle | _ => .working [7])) ++
    [.idle none, .loop] ++ (List.replicate (messages.length + 1) (.receive 0)) ++
    [.noMessage, .idle none, .loop, .accept 0, .emit 0 .workerCloseDown .closed, .receive 0]

end CppTransport.Runtime
