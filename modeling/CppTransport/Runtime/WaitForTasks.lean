import CppTransport.Library.Transition

/-!
# A worker that waits for tasks

`slave_controller::wait_for_tasks` is the outermost loop of a worker: it probes for a message
of the master, receives it by its tag and acts on it, until it is told to terminate.

## The model

The messages of the master arrive in the order in which they are sent (`Network.inbox`), at any
time. `slave_controller` holds what the loop and its handlers read and write, and `Location` says
where in the loop the worker is: a receive takes the first message with its tag, and waits when
there is none. `Network.next` performs one event of the master or of the worker. The master sends
a list of messages, and waits for the answer to a query before it sends anything else, as
`compute_worker_loads` does.

What the repository does, and how a task fares once it has been dispatched, is not determined
here: `Services` gives the outcomes, which may depend on how many messages came before. The
messages exchanged while a task is processed, the busy and idle timers, and what the answer to a
query says are left out.

## What is proved

`protocol_iff`: the worker follows the protocol, under every interleaving, if and only if no
message but the last before `TERMINATE` is a query, and no handler throws. The case for
`QUERY_PERFORMANCE_DATA` has no `break`: the worker goes on into the case for `TERMINATE` and
waits for that message, whatever was sent in between.
-/

namespace CppTransport.Runtime.SlaveController

open CppTransport.Library

/-- What a `runtime_exception` is about. -/
inductive exception_type where
  | FATAL_ERROR
  | RUNTIME_ERROR
  | SCHEDULING_ERROR
  | TASK_STRUCTURE_ERROR
  | MPI_ERROR
  | RECORD_NOT_FOUND
  | REPO_NOT_FOUND
  | REPOSITORY_ERROR
  | REPOSITORY_BACKEND_ERROR
  | TRANSACTION_ERROR
  | DATA_CONTAINER_ERROR
  | DATA_MANAGER_BACKEND_ERROR
  | MISSING_MODEL_INSTANCE
  | INTEGRATION_FAILURE
  | REFINEMENT_FAILURE
  | STORAGE_ERROR
  | BACKEND_ERROR
  | SERIALIZATION_ERROR
  | DATAPIPE_ERROR
  | DERIVED_PRODUCT_ERROR
  | JOURNAL_ERROR
  | SPLINE_ERROR
  | REPORTING_ERROR
  | SEEDING_ERROR
deriving DecidableEq, Repr

/-- An exception. -/
inductive exception where
  /-- A `runtime_exception`. -/
  | runtime_exception (type : exception_type) (what : String)
  /-- Any other. -/
  | other (what : String)
deriving DecidableEq, Repr

def CPPTRANSPORT_REPO_NOT_SET : String :=
  "Internal error: attempt to access repository when unset in 'task_manager'"

def CPPTRANSPORT_REPO_MISSING_RECORD : String := "Repository error: Could not find database record"

def CPPTRANSPORT_REPO_SKIPPING_TASK : String := "; skipping this task"

def CPPTRANSPORT_REPO_FOR_TASK : String := "while processing task"

def CPPTRANSPORT_UNEXPECTED_MPI : String := "Internal error: unexpected MPI message received"

/-! ### Messages -/

/-- The types of task. -/
inductive task_type where
  | integration
  | output
  | postintegration
deriving DecidableEq, Repr

/-- The payload of `WORKER_SETUP`, with an argument cache in `A`. -/
structure slave_setup_payload (A : Type) where
  /-- Path to the repository. -/
  repository : String
  /-- Argument cache. -/
  arg_cache : A
deriving DecidableEq

/-- The tags of messages. -/
inductive Tag where
  | NEW_INTEGRATION
  | NEW_DERIVED_CONTENT
  | NEW_POSTINTEGRATION
  | WORKER_SETUP
  | SET_LOCAL_CHECKPOINT
  | UNSET_LOCAL_CHECKPOINT
  | QUERY_PERFORMANCE_DATA
  | TERMINATE
  /-- Any other. -/
  | other (tag : ℕ)
deriving DecidableEq, Repr

/-- A message of the master. A task instruction has the name of the task. -/
inductive message (A : Type) where
  | NEW_INTEGRATION (task_name : String)
  | NEW_DERIVED_CONTENT (task_name : String)
  | NEW_POSTINTEGRATION (task_name : String)
  | WORKER_SETUP (payload : slave_setup_payload A)
  | SET_LOCAL_CHECKPOINT (payload : ℕ)
  | UNSET_LOCAL_CHECKPOINT
  | QUERY_PERFORMANCE_DATA
  | TERMINATE
  /-- Any other. -/
  | other (tag : ℕ)
deriving DecidableEq

variable {R A : Type}

/-- The tag of a message. -/
def message.tag : message A → Tag
  | .NEW_INTEGRATION _ => .NEW_INTEGRATION
  | .NEW_DERIVED_CONTENT _ => .NEW_DERIVED_CONTENT
  | .NEW_POSTINTEGRATION _ => .NEW_POSTINTEGRATION
  | .WORKER_SETUP _ => .WORKER_SETUP
  | .SET_LOCAL_CHECKPOINT _ => .SET_LOCAL_CHECKPOINT
  | .UNSET_LOCAL_CHECKPOINT => .UNSET_LOCAL_CHECKPOINT
  | .QUERY_PERFORMANCE_DATA => .QUERY_PERFORMANCE_DATA
  | .TERMINATE => .TERMINATE
  | .other tag => .other tag

@[simp] theorem message.tag_eq_terminate {m : message A} : m.tag = .TERMINATE ↔ m = .TERMINATE := by
  cases m <;> simp [tag]

@[simp] theorem message.tag_eq_query {m : message A} :
    m.tag = .QUERY_PERFORMANCE_DATA ↔ m = .QUERY_PERFORMANCE_DATA := by
  cases m <;> simp [tag]

/-- The loop has a case for the tag. -/
def Tag.known : Tag → Bool
  | .other _ => false
  | _ => true

/-- What the master sends to a worker that waits for tasks, before `TERMINATE`. -/
def message.Instruction (m : message A) : Prop := m.tag.known = true ∧ m ≠ .TERMINATE

/-! ### The handlers -/

/-- Outcomes that are not determined here, with a repository in `R`. They may depend on the number of messages
received before. -/
structure Services (R A : Type) where
  /-- `repository_factory`, on a path. -/
  repository_factory : ℕ → String → Except exception R
  /-- `query_task`: the type of the task with a name. -/
  query_task : ℕ → R → String → Except exception task_type
  /-- `dispatch_integration_task`, `schedule_output` or `dispatch_postintegration_task`. -/
  dispatch : ℕ → task_type → String → Except exception Unit

/-- The worker. -/
structure slave_controller (R A : Type) where
  /-- The repository, once it has been set up. -/
  repo : Option R
  /-- Argument cache. -/
  arg_cache : A
  /-- The local checkpoint interval of the data manager. -/
  local_checkpoint : Option ℕ
  /-- The errors reported so far. -/
  err : List String
deriving DecidableEq

variable (E : Services R A) (n : ℕ)

namespace slave_controller

/-- Set up the repository. -/
def initialize_repository (w : slave_controller R A) (payload : slave_setup_payload A) :
    Except exception (slave_controller R A) :=
  match E.repository_factory n payload.repository with
  | .ok repo => .ok { w with
      repo := some repo
      arg_cache := payload.arg_cache }
  | .error (.runtime_exception .REPO_NOT_FOUND what) => .ok { w with
      repo := none
      err := w.err ++ [what] }
  | .error xe => .error xe

/-- Process a task, which has to be of the given type. -/
def process_task (w : slave_controller R A) (type : task_type) (task_name : String) :
    Except exception (slave_controller R A) :=
  match w.repo with
  | none => .error (.runtime_exception .RUNTIME_ERROR CPPTRANSPORT_REPO_NOT_SET)
  | some repo =>
    let outcome : Except exception Unit := do
      let found ← E.query_task n repo task_name
      if found = type then E.dispatch n type task_name
      else throw (.runtime_exception .RECORD_NOT_FOUND task_name)
    match outcome with
    | .ok () => .ok w
    | .error (.runtime_exception .RECORD_NOT_FOUND what) => .ok { w with
        err := w.err ++
          [CPPTRANSPORT_REPO_MISSING_RECORD ++ " '" ++ what ++ "'" ++ CPPTRANSPORT_REPO_SKIPPING_TASK] }
    | .error (.runtime_exception .MISSING_MODEL_INSTANCE what)
    | .error (.runtime_exception .REPOSITORY_BACKEND_ERROR what) => .ok { w with
        err := w.err ++
          [what ++ " " ++ CPPTRANSPORT_REPO_FOR_TASK ++ " '" ++ task_name ++ "'" ++ CPPTRANSPORT_REPO_SKIPPING_TASK] }
    | .error xe => .error xe

/-- What the loop does with a message it has received. -/
def handle (w : slave_controller R A) : message A → Except exception (slave_controller R A)
  | .NEW_INTEGRATION task_name => w.process_task E n .integration task_name
  | .NEW_DERIVED_CONTENT task_name => w.process_task E n .output task_name
  | .NEW_POSTINTEGRATION task_name => w.process_task E n .postintegration task_name
  | .WORKER_SETUP payload => w.initialize_repository E n payload
  | .SET_LOCAL_CHECKPOINT payload => .ok { w with local_checkpoint := some payload }
  | .UNSET_LOCAL_CHECKPOINT => .ok { w with local_checkpoint := none }
  | .QUERY_PERFORMANCE_DATA | .TERMINATE | .other _ => .ok w

/-- The handlers of some messages, one after another. -/
def handle_all (w : slave_controller R A) (ms : List (message A)) : Except exception (slave_controller R A) :=
  ms.zipIdx.foldlM (fun w m => w.handle E m.2 m.1) w

@[simp] theorem handle_all_nil (w : slave_controller R A) : w.handle_all E [] = .ok w := rfl

/-- If all handlers return, so do the first ones. -/
theorem handle_all_prefix {w w' : slave_controller R A} {ms rest : List (message A)}
    (h : w.handle_all E (ms ++ rest) = .ok w') : ∃ w₁, w.handle_all E ms = .ok w₁ := by
  cases hms : w.handle_all E ms with
  | ok w₁ => exact ⟨w₁, rfl⟩
  | error xe =>
    rw [handle_all] at hms
    rw [handle_all, List.zipIdx_append, List.foldlM_append, hms] at h
    cases h

theorem handle_all_snoc (w : slave_controller R A) (ms : List (message A)) (m : message A) :
    w.handle_all E (ms ++ [m]) = w.handle_all E ms >>= fun w' => w'.handle E ms.length m := by
  simp [handle_all, List.zipIdx_append, List.foldlM_append]

end slave_controller

/-! ### The loop -/

/-- Where in the loop a worker is. -/
inductive Location where
  /-- It probes for a message. -/
  | probe
  /-- It receives a message with a tag. -/
  | recv (tag : Tag)
  /-- It has left the loop. -/
  | finished
  /-- An exception has left the loop. -/
  | thrown (xe : exception)
deriving DecidableEq, Repr

/-- The worker has left the loop. -/
def Location.Left : Location → Prop
  | .finished | .thrown _ => True
  | _ => False

/-- The master, a worker and the messages between them. -/
structure Network (R A : Type) where
  /-- The messages the master has still to send. -/
  to_send : List (message A)
  /-- The master waits for `REPORT_PERFORMANCE_DATA`. -/
  awaiting : Bool
  /-- Messages on their way to the worker. -/
  inbox : List (message A)
  /-- How many answers are on their way to the master. -/
  outbox : ℕ
  /-- The worker. -/
  worker : slave_controller R A
  /-- Where the worker is. -/
  location : Location
  /-- The messages the worker has received so far. -/
  received : List (message A)
  /-- How many answers it has sent so far. -/
  reported : ℕ

/-- What may happen. -/
inductive Event where
  /-- The master sends its next message. -/
  | send
  /-- The master receives an answer. -/
  | collect
  /-- The worker finds a message. -/
  | probe
  /-- The worker receives a message, and acts on it. -/
  | receive
deriving DecidableEq, Repr

namespace Network

/-- The worker has received a message: the first with its tag. -/
def arrive (s : Network R A) (m : message A) : Network R A :=
  { s with
    inbox := s.inbox.eraseP (·.tag = m.tag)
    received := s.received ++ [m] }

/-- The case of the loop for a message that has been received. -/
def act (s : Network R A) (n : ℕ) (m : message A) : Network R A :=
  match s.worker.handle E n m with
  | .error xe => { s with location := .thrown xe }
  | .ok w =>
    match m with
    | .QUERY_PERFORMANCE_DATA =>
      -- no `break`: the next case is that of `TERMINATE`
      { s with
        worker := w
        outbox := s.outbox + 1
        reported := s.reported + 1
        location := .recv .TERMINATE }
    | .TERMINATE => { s with
        worker := w
        location := .finished }
    | _ => { s with
        worker := w
        location := .probe }

/-- One event. -/
def next (s : Network R A) : Event → Option (Network R A)
  | .send =>
    match s.to_send with
    | m :: to_send =>
      if s.awaiting then none
      else some { s with
        to_send := to_send
        inbox := s.inbox ++ [m]
        awaiting := m.tag = .QUERY_PERFORMANCE_DATA }
    | [] => none
  | .collect =>
    match s.outbox with
    | outbox + 1 => some { s with
        outbox := outbox
        awaiting := false }
    | 0 => none
  | .probe =>
    match s.location, s.inbox with
    | .probe, m :: _ => some { s with
        location :=
          if m.tag.known then .recv m.tag
          else .thrown (.runtime_exception .MPI_ERROR CPPTRANSPORT_UNEXPECTED_MPI) }
    | _, _ => none
  | .receive =>
    match s.location with
    | .recv tag => (s.inbox.find? (·.tag = tag)).map fun m => (s.arrive m).act E s.received.length m
    | _ => none

/-- The master has some messages to send, and the worker enters the loop. -/
def start (w : slave_controller R A) (script : List (message A)) : Network R A where
  to_send := script
  awaiting := false
  inbox := []
  outbox := 0
  worker := w
  location := .probe
  received := []
  reported := 0

/-- The messages the worker has not received, in the order in which the master sends them. -/
def ahead (s : Network R A) : List (message A) := s.inbox ++ s.to_send

end Network

/-- The runs of a worker while the master sends some messages. -/
def runs (w : slave_controller R A) (script : List (message A)) : System (Network R A) Event :=
  System.ofNext (· = Network.start w script) (Network.next E)

/-! ### The protocol -/

/-- What the protocol asks of a state. -/
structure InProtocol (script : List (message A)) (s : Network R A) : Prop where
  /-- The messages are received in order. -/
  order : s.received ++ s.ahead = script
  /-- The worker receives with the tag of the message that comes next. -/
  own_tag : ∀ tag, s.location = .recv tag → ∃ m rest, s.ahead = m :: rest ∧ m.tag = tag
  /-- Every query is answered once. -/
  answered : s.reported = s.received.countP (·.tag = .QUERY_PERFORMANCE_DATA)
  /-- The worker has left the loop just if it has received `TERMINATE`. -/
  leaves : s.location.Left ↔ .TERMINATE ∈ s.received

/-- The worker follows the protocol, and does not stop before it has left the loop with every message received. -/
def FollowsProtocol (w : slave_controller R A) (script : List (message A)) : Prop :=
  (∀ s, (runs E w script).Reachable s → InProtocol script s) ∧
    (runs E w script).Inevitable (fun s => s.location = .finished ∧ s.received = script) (Network.start w script)

/-! ### Events -/

section Events

variable {E} {n : ℕ} {s s' : Network R A} {m : message A} {rest : List (message A)} {tag : Tag}
  {w w' : slave_controller R A}

theorem act_query (h : s.worker.handle E n .QUERY_PERFORMANCE_DATA = .ok w) :
    s.act E n .QUERY_PERFORMANCE_DATA = { s with
      worker := w
      outbox := s.outbox + 1
      reported := s.reported + 1
      location := .recv .TERMINATE } := by
  simp only [Network.act, h]

theorem act_terminate (h : s.worker.handle E n .TERMINATE = .ok w) :
    s.act E n .TERMINATE = { s with
      worker := w
      location := .finished } := by
  simp only [Network.act, h]

theorem act_other (h : s.worker.handle E n m = .ok w) (hquery : m ≠ .QUERY_PERFORMANCE_DATA) (hterm : m ≠ .TERMINATE) :
    s.act E n m = { s with
      worker := w
      location := .probe } := by
  simp only [Network.act, h]

theorem act_error {xe : exception} (h : s.worker.handle E n m = .error xe) :
    s.act E n m = { s with location := .thrown xe } := by
  simp only [Network.act, h]

theorem next_send (h : s.next E .send = some s') :
    ∃ m to_send, s.to_send = m :: to_send ∧ s.awaiting = false ∧
      s' = { s with
        to_send := to_send
        inbox := s.inbox ++ [m]
        awaiting := m.tag = .QUERY_PERFORMANCE_DATA } := by
  rw [Network.next] at h
  split at h
  · rename_i m to_send heq
    split at h
    · cases h
    · rename_i hawaiting
      exact ⟨m, to_send, heq, by simpa using hawaiting, (Option.some.inj h).symm⟩
  · cases h

theorem next_collect (h : s.next E .collect = some s') :
    ∃ outbox, s.outbox = outbox + 1 ∧ s' = { s with
      outbox := outbox
      awaiting := false } := by
  rw [Network.next] at h
  split at h
  · rename_i outbox heq
    exact ⟨outbox, heq, (Option.some.inj h).symm⟩
  · cases h

theorem next_probe (h : s.next E .probe = some s') :
    s.location = .probe ∧ ∃ m inbox, s.inbox = m :: inbox ∧ s' = { s with
      location :=
        if m.tag.known then .recv m.tag
        else .thrown (.runtime_exception .MPI_ERROR CPPTRANSPORT_UNEXPECTED_MPI) } := by
  rw [Network.next] at h
  split at h
  · rename_i m inbox hloc heq
    exact ⟨hloc, m, inbox, heq, (Option.some.inj h).symm⟩
  · cases h

/-- The worker receives the message that comes next. -/
theorem next_receive_iff (hloc : s.location = .recv tag) (hahead : s.ahead = m :: rest) (hm : m.tag = tag) :
    s.next E .receive = some s' ↔ s.inbox = m :: (s.arrive m).inbox ∧ (s.arrive m).ahead = rest ∧
      s' = (s.arrive m).act E s.received.length m := by
  cases hin : s.inbox with
  | nil => simp [Network.next, hloc, hin]
  | cons m' inbox =>
    obtain ⟨rfl, rfl⟩ : m' = m ∧ inbox ++ s.to_send = rest := by simpa [Network.ahead, hin] using hahead
    simp [Network.next, hloc, hin, Network.arrive, Network.ahead, hm, eq_comm]

end Events

/-! ### Queries only at the end -/

section Protocol

variable {E} {w w' : slave_controller R A} {ms : List (message A)} {s s' : Network R A}

/-- No message but the last is a query. -/
def QueryOnlyLast (ms : List (message A)) : Prop := ∀ m ∈ ms.dropLast, m ≠ .QUERY_PERFORMANCE_DATA

/-- What fits the place of the worker in the loop. -/
def Network.Placed (s : Network R A) : Location → Prop
  | .probe => s.ahead ≠ [] ∧ .QUERY_PERFORMANCE_DATA ∉ s.received
  | .recv tag => ∃ m rest, s.ahead = m :: rest ∧ m.tag = tag ∧
      (.QUERY_PERFORMANCE_DATA ∈ s.received → m = .TERMINATE)
  | .finished => s.ahead = []
  | .thrown _ => False

theorem Network.Placed.congr {l : Location} (h : s.Placed l) (hahead : s'.ahead = s.ahead)
    (hreceived : s'.received = s.received) : s'.Placed l := by
  cases l with
  | thrown => exact h
  | _ => simpa only [Network.Placed, hahead, hreceived] using h

/-- What holds throughout, when only the last message before `TERMINATE` may be a query. -/
structure Follows (E : Services R A) (w : slave_controller R A) (ms : List (message A)) (s : Network R A) : Prop where
  /-- The messages are received in order. -/
  order : s.received ++ s.ahead = ms ++ [.TERMINATE]
  /-- The handlers of the messages received have been run. -/
  handled : w.handle_all E s.received = .ok s.worker
  /-- Every query is answered once. -/
  answered : s.reported = s.received.countP (·.tag = .QUERY_PERFORMANCE_DATA)
  /-- The place of the worker. -/
  placed : s.Placed s.location
  /-- When the master waits for an answer, the answer or the query is on its way. -/
  owed : s.awaiting = true → 0 < s.outbox ∨ .QUERY_PERFORMANCE_DATA ∈ s.inbox

theorem Follows.at_probe (h : Follows E w ms s) (hloc : s.location = .probe) :
    s.ahead ≠ [] ∧ .QUERY_PERFORMANCE_DATA ∉ s.received := by
  have hplaced := h.placed
  rwa [hloc] at hplaced

theorem Follows.at_recv (h : Follows E w ms s) {tag : Tag} (hloc : s.location = .recv tag) :
    ∃ m rest, s.ahead = m :: rest ∧ m.tag = tag ∧ (.QUERY_PERFORMANCE_DATA ∈ s.received → m = .TERMINATE) := by
  have hplaced := h.placed
  rwa [hloc] at hplaced

theorem Follows.at_finished (h : Follows E w ms s) (hloc : s.location = .finished) : s.ahead = [] := by
  have hplaced := h.placed
  rwa [hloc] at hplaced

theorem Follows.not_thrown (h : Follows E w ms s) {xe : exception} : s.location ≠ .thrown xe := by
  intro hloc
  have hplaced := h.placed
  rwa [hloc] at hplaced

theorem follows_start : Follows E w ms (Network.start w (ms ++ [.TERMINATE])) where
  order := rfl
  handled := rfl
  answered := rfl
  placed := by simp [Network.start, Network.Placed, Network.ahead]
  owed := by simp [Network.start]

section Split

variable {m : message A} {before rest : List (message A)}

/-- The last message is `TERMINATE`, and no other is. -/
theorem terminate_iff (hms : ∀ m ∈ ms, m.Instruction) (h : before ++ m :: rest = ms ++ [.TERMINATE]) :
    m = .TERMINATE ↔ rest = [] := by
  rcases List.eq_nil_or_concat rest with rfl | ⟨rest, last, rfl⟩
  · have heq := List.append_inj_right' h rfl
    simpa using heq
  · rw [List.concat_eq_append, ← List.cons_append, ← List.append_assoc] at h
    have heq := (List.append_inj_left' h rfl).symm
    simpa using (hms m (heq ▸ by simp)).2

theorem terminate_mem_iff (hms : ∀ m ∈ ms, m.Instruction) (h : before ++ rest = ms ++ [.TERMINATE]) :
    .TERMINATE ∈ before ↔ rest = [] := by
  constructor
  · intro hmem
    obtain ⟨front, back, rfl⟩ := List.append_of_mem hmem
    rw [List.append_assoc, List.cons_append] at h
    exact (List.append_eq_nil_iff.mp ((terminate_iff hms h).mp rfl)).2
  · rintro rfl
    rw [List.append_nil] at h
    simp [h]

/-- A query is followed by `TERMINATE`. -/
theorem QueryOnlyLast.rest_eq (hq : QueryOnlyLast ms)
    (h : before ++ .QUERY_PERFORMANCE_DATA :: rest = ms ++ [.TERMINATE]) : rest = [.TERMINATE] := by
  rcases List.eq_nil_or_concat rest with rfl | ⟨rest, last, rfl⟩
  · have heq := List.append_inj_right' h rfl
    simp at heq
  · rw [List.concat_eq_append, ← List.cons_append, ← List.append_assoc] at h
    obtain rfl : last = .TERMINATE := by simpa using List.append_inj_right' h rfl
    have heq := List.append_inj_left' h rfl
    cases rest with
    | nil => rfl
    | cons m rest =>
      refine absurd rfl (hq .QUERY_PERFORMANCE_DATA ?_)
      rw [← heq, List.dropLast_append_of_ne_nil (List.cons_ne_nil _ _), List.dropLast_cons_cons]
      simp

/-- The loop has a case for every message. -/
theorem known_of_split (hms : ∀ m ∈ ms, m.Instruction) (h : before ++ m :: rest = ms ++ [.TERMINATE]) :
    m.tag.known = true := by
  have hmem : m ∈ ms ++ [.TERMINATE] := h ▸ by simp
  rcases List.mem_append.mp hmem with hm | hm
  · exact (hms m hm).1
  · rw [List.mem_singleton.mp hm]
    rfl

end Split

/-- The worker receives a message and acts on it. -/
theorem Follows.receive (h : Follows E w ms s) (hms : ∀ m ∈ ms, m.Instruction) (hq : QueryOnlyLast ms)
    (hw : w.handle_all E ms = .ok w') {tag : Tag} (hloc : s.location = .recv tag) (hs : s.next E .receive = some s') :
    Follows E w ms s' := by
  obtain ⟨m, rest, hahead, hm, hlast⟩ := h.at_recv hloc
  obtain ⟨hin, hrest, rfl⟩ := (next_receive_iff hloc hahead hm).mp hs
  have horder := h.order
  rw [hahead] at horder
  have horder' : (s.received ++ [m]) ++ rest = ms ++ [.TERMINATE] := by simpa using horder
  -- none of the handlers throws
  have hall : w.handle_all E (ms ++ [.TERMINATE]) = .ok w' := by
    rw [slave_controller.handle_all_snoc, hw]
    rfl
  obtain ⟨w₁, hw₁⟩ := slave_controller.handle_all_prefix E (horder' ▸ hall)
  have hthis : (s.arrive m).worker.handle E s.received.length m = .ok w₁ := by
    rw [slave_controller.handle_all_snoc, h.handled] at hw₁
    exact hw₁
  have order : (s.arrive m).received ++ (s.arrive m).ahead = ms ++ [.TERMINATE] := hrest ▸ horder'
  have answered : (s.arrive m).received.countP (·.tag = .QUERY_PERFORMANCE_DATA) =
      (s.arrive m).reported + [m].countP (·.tag = .QUERY_PERFORMANCE_DATA) := by
    change (s.received ++ [m]).countP _ = s.reported + _
    rw [h.answered, List.countP_append]
  have owed : m ≠ .QUERY_PERFORMANCE_DATA → s.awaiting = true →
      0 < s.outbox ∨ .QUERY_PERFORMANCE_DATA ∈ (s.arrive m).inbox := by
    intro hm ha
    refine (h.owed ha).imp_right fun hmem => ?_
    rw [hin] at hmem
    exact (List.mem_cons.mp hmem).resolve_left (Ne.symm hm)
  by_cases hterm : m = .TERMINATE
  · obtain rfl := (terminate_iff hms horder).mp hterm
    subst hterm
    rw [act_terminate hthis]
    exact ⟨order, hw₁, by simp [answered], hrest, owed (by simp)⟩
  · by_cases hquery : m = .QUERY_PERFORMANCE_DATA
    · subst hquery
      obtain rfl := hq.rest_eq horder
      rw [act_query hthis]
      refine ⟨order, hw₁, by simp [answered], ?_, fun _ => .inl (Nat.succ_pos _)⟩
      exact ⟨.TERMINATE, [], hrest, rfl, fun _ => rfl⟩
    · rw [act_other hthis hquery hterm]
      refine ⟨order, hw₁, by simp [answered, hquery], ⟨?_, ?_⟩, owed hquery⟩
      · exact fun hnil => hterm ((terminate_iff hms horder).mpr (hrest ▸ hnil))
      · intro hmem
        rcases List.mem_append.mp hmem with hmem | hmem
        · exact hterm (hlast hmem)
        · exact hquery (List.mem_singleton.mp hmem).symm

/-- Every event keeps it. -/
theorem Follows.next (h : Follows E w ms s) (hms : ∀ m ∈ ms, m.Instruction) (hq : QueryOnlyLast ms)
    (hw : w.handle_all E ms = .ok w') {e : Event} (hs : s.next E e = some s') : Follows E w ms s' := by
  cases e with
  | send =>
    obtain ⟨m, to_send, hto, -, rfl⟩ := next_send hs
    have hahead : (s.inbox ++ [m]) ++ to_send = s.ahead := by simp [Network.ahead, hto]
    refine ⟨(congrArg (s.received ++ ·) hahead).trans h.order, h.handled, h.answered, h.placed.congr hahead rfl,
      fun ha => .inr ?_⟩
    obtain rfl : m = .QUERY_PERFORMANCE_DATA := by simpa using ha
    exact List.mem_append_right _ (List.mem_singleton_self _)
  | collect =>
    obtain ⟨outbox, -, rfl⟩ := next_collect hs
    exact ⟨h.order, h.handled, h.answered, h.placed, fun ha => absurd ha Bool.false_ne_true⟩
  | probe =>
    obtain ⟨hloc, m, inbox, hin, rfl⟩ := next_probe hs
    have hahead : s.ahead = m :: (inbox ++ s.to_send) := by simp [Network.ahead, hin]
    have horder := h.order
    rw [hahead] at horder
    refine ⟨h.order, h.handled, h.answered, ?_, h.owed⟩
    simp only [known_of_split hms horder, if_true]
    exact ⟨m, _, hahead, rfl, fun hmem => absurd hmem (h.at_probe hloc).2⟩
  | receive =>
    cases hloc : s.location with
    | recv tag => exact h.receive hms hq hw hloc hs
    | probe => simp [Network.next, hloc] at hs
    | finished => simp [Network.next, hloc] at hs
    | thrown xe => simp [Network.next, hloc] at hs

/-- It is what the protocol asks. -/
theorem Follows.inProtocol (h : Follows E w ms s) (hms : ∀ m ∈ ms, m.Instruction) :
    InProtocol (ms ++ [.TERMINATE]) s := by
  have hmem := terminate_mem_iff hms h.order
  refine ⟨h.order, fun tag hloc => ?_, h.answered, ?_⟩
  · obtain ⟨m, rest, hahead, hm, -⟩ := h.at_recv hloc
    exact ⟨m, rest, hahead, hm⟩
  · cases hloc : s.location with
    | probe => simpa [Location.Left, hmem] using (h.at_probe hloc).1
    | recv tag =>
      obtain ⟨m, rest, hahead, -⟩ := h.at_recv hloc
      simp [Location.Left, hmem, hahead]
    | finished => simpa [Location.Left, hmem] using h.at_finished hloc
    | thrown xe => exact absurd hloc h.not_thrown

/-- When messages are left, something can happen. -/
theorem Follows.progress (h : Follows E w ms s) (hahead : s.ahead ≠ []) : ∃ e s', s.next E e = some s' := by
  cases hin : s.inbox with
  | nil =>
    -- the master sends its next message, unless it waits for an answer
    obtain ⟨m, to_send, hto⟩ : ∃ m to_send, s.to_send = m :: to_send :=
      List.exists_cons_of_ne_nil (by simpa [Network.ahead, hin] using hahead)
    cases ha : s.awaiting with
    | false => exact ⟨.send, by simp [Network.next, hto, ha]⟩
    | true =>
      have hout : 0 < s.outbox := by simpa [hin] using h.owed ha
      obtain ⟨outbox, hout⟩ := Nat.exists_eq_add_one_of_ne_zero (Nat.ne_of_gt hout)
      exact ⟨.collect, by simp [Network.next, hout]⟩
  | cons m inbox =>
    cases hloc : s.location with
    | probe => exact ⟨.probe, by simp [Network.next, hloc, hin]⟩
    | recv tag =>
      obtain ⟨m', rest, hahead', hm, -⟩ := h.at_recv hloc
      obtain ⟨rfl, -⟩ : m = m' ∧ inbox ++ s.to_send = rest := by simpa [Network.ahead, hin] using hahead'
      exact ⟨.receive, by simp [Network.next, hloc, hin, hm]⟩
    | finished => exact absurd (h.at_finished hloc) hahead
    | thrown xe => exact absurd hloc h.not_thrown

/-- A message takes at most four events. -/
def Network.remaining (s : Network R A) : ℕ :=
  4 * s.to_send.length + 3 * s.inbox.length + s.outbox + if s.location = .probe then 1 else 0

theorem Follows.remaining_lt (h : Follows E w ms s) {e : Event} (hs : s.next E e = some s') :
    s'.remaining < s.remaining := by
  cases e with
  | send =>
    obtain ⟨m, to_send, hto, -, rfl⟩ := next_send hs
    simp [Network.remaining, hto]
    omega
  | collect =>
    obtain ⟨outbox, hout, rfl⟩ := next_collect hs
    simp [Network.remaining, hout]
  | probe =>
    obtain ⟨hloc, m, inbox, hin, rfl⟩ := next_probe hs
    have hne : (if m.tag.known = true then Location.recv m.tag
        else .thrown (.runtime_exception .MPI_ERROR CPPTRANSPORT_UNEXPECTED_MPI)) ≠ .probe := by
      split <;> simp
    simp [Network.remaining, hloc, hne]
  | receive =>
    cases hloc : s.location with
    | recv tag =>
      obtain ⟨m, rest, hahead, hm, -⟩ := h.at_recv hloc
      obtain ⟨hin, -, rfl⟩ := (next_receive_iff hloc hahead hm).mp hs
      have hlen : s.inbox.length = (s.arrive m).inbox.length + 1 := by rw [hin, List.length_cons]
      have hact : ((s.arrive m).act E s.received.length m).remaining ≤
          4 * s.to_send.length + 3 * (s.arrive m).inbox.length + s.outbox + 1 := by
        rw [Network.act]
        split
        · simp [Network.remaining, Network.arrive]
        · split
          · simp [Network.remaining, Network.arrive, Nat.add_assoc]
          · simp [Network.remaining, Network.arrive]
          · simp [Network.remaining, Network.arrive]
      have hs : s.remaining = 4 * s.to_send.length + 3 * s.inbox.length + s.outbox := by
        simp [Network.remaining, hloc]
      omega
    | probe => simp [Network.next, hloc] at hs
    | finished => simp [Network.next, hloc] at hs
    | thrown xe => simp [Network.next, hloc] at hs

/-- The protocol is followed when only the last message may be a query and no handler throws. -/
theorem followsProtocol_of_queryOnlyLast (hms : ∀ m ∈ ms, m.Instruction) (hq : QueryOnlyLast ms)
    (hw : w.handle_all E ms = .ok w') : FollowsProtocol E w (ms ++ [.TERMINATE]) := by
  have inv : (runs E w (ms ++ [.TERMINATE])).Invariant (Follows E w ms) :=
    ⟨fun s hs => hs ▸ follows_start, fun s e s' h hs => h.next hms hq hw hs⟩
  refine ⟨fun s hs => (inv.reachable hs).inProtocol hms,
    System.inevitable_of_measure Network.remaining (fun s h hdone => ?_) (fun s e s' h _ hs =>
      ⟨h.next hms hq hw hs, h.remaining_lt hs⟩) follows_start⟩
  refine h.progress fun hahead => hdone ?_
  have horder : s.received = ms ++ [.TERMINATE] := by simpa [hahead] using h.order
  refine ⟨?_, horder⟩
  cases hloc : s.location with
  | probe => exact absurd hahead (h.at_probe hloc).1
  | recv tag =>
    obtain ⟨m, rest, hahead', -⟩ := h.at_recv hloc
    rw [hahead] at hahead'
    cases hahead'
  | finished => rfl
  | thrown xe => exact absurd hloc h.not_thrown

/-! ### The converse -/

/-- The worker has received some messages and probes again, while the master has others to send. -/
def Network.between (w : slave_controller R A) (received to_send : List (message A)) : Network R A :=
  { Network.start w to_send with received := received }

/-- The master sends one message more, and the worker receives it. -/
theorem reachable_act {script received rest : List (message A)} {w₁ : slave_controller R A} {m : message A}
    (h : (runs E w script).Reachable (Network.between w₁ received (m :: rest))) (hm : m.tag.known = true) :
    (runs E w script).Reachable (Network.act E
      { Network.between w₁ (received ++ [m]) rest with
        awaiting := m.tag = .QUERY_PERFORMANCE_DATA
        location := .recv m.tag } received.length m) := by
  have sent := h.step (show Network.next E _ .send = some _ from rfl)
  have probed := sent.step (show Network.next E _ .probe = some _ from rfl)
  refine probed.step (l := .receive) ?_
  simp [runs, System.ofNext, Network.next, Network.between, Network.start, Network.arrive, hm]

/-- In a run that keeps to the protocol no handler throws. -/
theorem handle_ok {script received rest : List (message A)} {w₁ : slave_controller R A} {m : message A}
    (hp : ∀ s, (runs E w script).Reachable s → InProtocol script s)
    (h : (runs E w script).Reachable (Network.between w₁ received (m :: rest)))
    (hreceived : ∀ m ∈ received, m.Instruction) (hm : m.Instruction) :
    ∃ w₂, w₁.handle E received.length m = .ok w₂ := by
  cases hw : w₁.handle E received.length m with
  | ok w₂ => exact ⟨w₂, rfl⟩
  | error xe =>
    have hact := reachable_act h hm.1
    rw [act_error hw] at hact
    have hterm : .TERMINATE ∈ received ++ [m] := (hp _ hact).leaves.mp trivial
    rcases List.mem_append.mp hterm with hterm | hterm
    · exact absurd rfl (hreceived _ hterm).2
    · exact absurd (List.mem_singleton.mp hterm).symm hm.2

/-- A run that keeps to the protocol goes through messages one after another, none of which is a query. -/
theorem consumes (hms : ∀ m ∈ ms, m.Instruction)
    (hp : ∀ s, (runs E w (ms ++ [.TERMINATE])).Reachable s → InProtocol (ms ++ [.TERMINATE]) s)
    {received rest : List (message A)} (h : ms = received ++ rest) (hrest : rest ≠ []) :
    .QUERY_PERFORMANCE_DATA ∉ received ∧ ∃ w₁, w.handle_all E received = .ok w₁ ∧
      (runs E w (ms ++ [.TERMINATE])).Reachable (Network.between w₁ received (rest ++ [.TERMINATE])) := by
  induction received using List.reverseRecOn generalizing rest with
  | nil => exact ⟨List.not_mem_nil, w, rfl, h ▸ .of_init rfl⟩
  | append_singleton received m ih =>
    rw [List.append_assoc] at h
    obtain ⟨hquery, w₁, hw₁, hreach⟩ := ih h (List.cons_ne_nil m rest)
    have hm : m.Instruction := hms m (h ▸ by simp)
    obtain ⟨w₂, hw₂⟩ := handle_ok hp hreach (fun x hx => hms x (h ▸ List.mem_append_left _ hx)) hm
    have hact := reachable_act hreach hm.1
    have hne : m ≠ .QUERY_PERFORMANCE_DATA := by
      rintro rfl
      rw [act_query hw₂] at hact
      -- the worker waits for `TERMINATE`, and another message comes next
      obtain ⟨next, rest', hnext, htag⟩ := (hp _ hact).own_tag .TERMINATE rfl
      obtain ⟨m', rest, rfl⟩ := List.exists_cons_of_ne_nil hrest
      obtain rfl : m' = next := (List.cons.inj hnext).1
      exact (hms m' (h ▸ by simp)).2 (message.tag_eq_terminate.mp htag)
    rw [act_other hw₂ hne hm.2] at hact
    have hawaiting : decide (m.tag = .QUERY_PERFORMANCE_DATA) = false := by simpa using hne
    rw [hawaiting] at hact
    refine ⟨by simp [hquery, Ne.symm hne], w₂, ?_, hact⟩
    rw [slave_controller.handle_all_snoc, hw₁]
    exact hw₂

/-- **The idle-worker protocol**: it is followed if and only if no message but the last before `TERMINATE` is a query,
and no handler throws. -/
theorem protocol_iff (hms : ∀ m ∈ ms, m.Instruction) :
    FollowsProtocol E w (ms ++ [.TERMINATE]) ↔ QueryOnlyLast ms ∧ ∃ w', w.handle_all E ms = .ok w' := by
  refine ⟨fun ⟨hp, _⟩ => ?_, fun ⟨hq, w', hw⟩ => followsProtocol_of_queryOnlyLast hms hq hw⟩
  rcases List.eq_nil_or_concat ms with rfl | ⟨front, last, rfl⟩
  · exact ⟨fun m hm => absurd hm List.not_mem_nil, w, rfl⟩
  · rw [List.concat_eq_append] at hms hp ⊢
    obtain ⟨hquery, w₁, hw₁, hreach⟩ := consumes hms hp rfl (List.cons_ne_nil last [])
    obtain ⟨w₂, hw₂⟩ := handle_ok hp hreach (fun x hx => hms x (List.mem_append_left _ hx)) (hms last (by simp))
    refine ⟨fun m hm hm' => hquery (hm' ▸ by simpa using hm), w₂, ?_⟩
    rw [slave_controller.handle_all_snoc, hw₁]
    exact hw₂

end Protocol

/-- A repository with one integration task, that goes well. -/
def oneTask : Services Unit Unit where
  repository_factory _ _ := .ok ()
  query_task _ _ _ := .ok .integration
  dispatch _ _ _ := .ok ()

/-- A worker that has not been set up. -/
def newWorker : slave_controller Unit Unit := ⟨none, (), none, []⟩

theorem protocol_iff_one_task :
    (∀ m ∈ [message.WORKER_SETUP ⟨"repo", ()⟩, .NEW_INTEGRATION "tk", .QUERY_PERFORMANCE_DATA],
      message.Instruction m) ∧
    FollowsProtocol oneTask newWorker
      ([.WORKER_SETUP ⟨"repo", ()⟩, .NEW_INTEGRATION "tk", .QUERY_PERFORMANCE_DATA] ++ [.TERMINATE]) := by
  have hms : ∀ m ∈ [message.WORKER_SETUP ⟨"repo", ()⟩, .NEW_INTEGRATION "tk", .QUERY_PERFORMANCE_DATA],
      message.Instruction m := by simp [message.Instruction, message.tag, Tag.known]
  exact ⟨hms, (protocol_iff hms).mpr ⟨by simp [QueryOnlyLast], ⟨some (), (), none, []⟩, rfl⟩⟩

/-- Asked twice for its performance, the worker answers once and waits for `TERMINATE`. -/
theorem second_query_ignored :
    ¬ FollowsProtocol oneTask newWorker
      ([.QUERY_PERFORMANCE_DATA, .QUERY_PERFORMANCE_DATA] ++ [.TERMINATE]) := by
  rintro ⟨hp, -⟩
  have asked : (runs oneTask newWorker ([.QUERY_PERFORMANCE_DATA, .QUERY_PERFORMANCE_DATA] ++ [.TERMINATE])).Reachable
      (Network.between newWorker [] [.QUERY_PERFORMANCE_DATA, .QUERY_PERFORMANCE_DATA, .TERMINATE]) := .of_init rfl
  obtain ⟨m, rest, hahead, htag⟩ := (hp _ (reachable_act asked rfl)).own_tag .TERMINATE rfl
  obtain rfl : message.QUERY_PERFORMANCE_DATA = m := (List.cons.inj hahead).1
  cases htag

end CppTransport.Runtime.SlaveController
