import Mathlib.Data.List.Sort
import Mathlib.Data.List.Range

/-!
# The work journal

The master keeps a journal of what it and the workers do, in the order in which it hears of it, with timestamps of one
second. For a Gantt chart the events that delimit durations are taken out of the journal, sorted by their timestamps,
and paired, with a bar for each pair. The two functions that do so, for the master and for each worker, differ in the
kinds of duration only: `Pairing` holds these differences.

## The model

An event has what the functions look at. Timestamps are seconds. `std::list::sort` is stable, as is `List.mergeSort`;
the comparison of the source is strict.

## What is proved

* `pair_eq_ok_iff`: pairing succeeds exactly on begin and end events in turn, and what it makes of them;
* `bin_sorted`: sorting changes nothing where the timestamps do not decrease, whatever ties there are;
* `bin_slave_bars_eq`: a bar for each assignment of each worker, however the workers are interleaved.
-/

namespace CppTransport.Runtime.WorkJournal

def CPPTRANSPORT_JOURNAL_UNEXPECTED_EVENT : String := "Unexpected event in work journal"

/-! ### Bars -/

structure Gantt_bar where
  begin_time : ℤ
  end_time : ℤ
  colour : String
deriving DecidableEq, Repr

/-- What differs between the functions: events of type `α` delimit durations of the kinds `κ`. -/
structure Pairing (α κ : Type*) where
  timestamp : α → ℤ
  /-- The `case` labels. -/
  begins : α → Option κ
  ends : κ → α → Bool
  too_few : κ → String
  end_missing : κ → String
  colour : κ → String

namespace Pairing

variable {α κ : Type*} (p : Pairing α κ)

/-- `WorkItemSorter`. -/
def sorter (a b : α) : Bool := p.timestamp a < p.timestamp b

def bar (kind : κ) (b e : α) : Gantt_bar := ⟨p.timestamp b, p.timestamp e, p.colour kind⟩

/-- The loop that pairs events; its iterator goes one further inside the body. -/
def pair : List α → Except String (List Gantt_bar)
  | [] => .ok []
  | b :: rest =>
    match p.begins b with
    | none => .error CPPTRANSPORT_JOURNAL_UNEXPECTED_EVENT
    | some kind =>
      match rest with
      | [] => .error (p.too_few kind)
      | e :: rest =>
        if p.ends kind e then do
          let bars ← pair rest
          .ok (p.bar kind b e :: bars)
        else .error (p.end_missing kind)

/-- Sort and pair. -/
def bin (events : List α) : Except String (List Gantt_bar) :=
  p.pair (events.mergeSort fun a b => !p.sorter b a)

/-- Begin and end events in turn, with the bars for them. -/
inductive Alternates : List α → List Gantt_bar → Prop where
  | nil : Alternates [] []
  | duration {b e : α} {kind : κ} {events : List α} {bars : List Gantt_bar} (begins : p.begins b = some kind)
      (ends : p.ends kind e = true) : Alternates events bars →
        Alternates (b :: e :: events) (p.bar kind b e :: bars)

variable {p} {events : List α} {bars : List Gantt_bar}

theorem Alternates.pair_eq (h : p.Alternates events bars) : p.pair events = .ok bars := by
  induction h with
  | nil => rfl
  | duration begins ends _ ih =>
    rw [pair, begins]
    simp only [if_pos ends, ih]
    rfl

theorem alternates_of_pair (h : p.pair events = .ok bars) : p.Alternates events bars := by
  fun_induction pair generalizing bars with
  | case1 =>
    cases h
    exact .nil
  | case2 => cases h
  | case3 => cases h
  | case4 b kind begins e rest ends ih =>
    cases hrest : p.pair rest with
    | error what =>
      rw [hrest] at h
      cases h
    | ok later =>
      rw [hrest] at h
      cases h
      exact .duration begins ends (ih hrest)
  | case5 => cases h

/-- **Pairing** succeeds exactly on events that alternate. -/
theorem pair_eq_ok_iff : p.pair events = .ok bars ↔ p.Alternates events bars :=
  ⟨alternates_of_pair, Alternates.pair_eq⟩

/-- **Ties** are kept in the order of arrival. -/
theorem bin_sorted (sorted : events.Pairwise fun a b => p.timestamp a ≤ p.timestamp b) :
    p.bin events = p.pair events := by
  rw [bin, List.mergeSort_of_pairwise]
  exact sorted.imp fun h => by simpa [sorter] using h

end Pairing

/-! ### Events -/

/-- `master_work_event::event_type`, with the kind of duration beside its begin and its end. -/
inductive MasterDuration where
  | aggregate
  | MPI
  | database
deriving DecidableEq

/-- `master_work_event`. -/
inductive master_event_type where
  | begin (kind : MasterDuration)
  | end (kind : MasterDuration)
deriving DecidableEq

structure master_work_event where
  type : master_event_type
  timestamp : ℤ
deriving DecidableEq

/-- Kinds of assignment. -/
inductive AssignmentKind where
  | twopf
  | threepf
  | zeta_twopf
  | zeta_threepf
  | fNL
  | output
deriving DecidableEq

/-- `slave_work_event::event_type`. -/
inductive slave_event_type where
  | begin_assignment (kind : AssignmentKind)
  | end_assignment (kind : AssignmentKind)
  | integration_aggregation
  | postintegration_aggregation
  | derived_content_aggregation
deriving DecidableEq

structure slave_work_event where
  worker_number : ℕ
  type : slave_event_type
  timestamp : ℤ
deriving DecidableEq

/-- An entry of the journal. -/
inductive work_event where
  | master (event : master_work_event)
  | slave (event : slave_work_event)
deriving DecidableEq

def slave_event_type.is_duration_delimiter : slave_event_type → Bool
  | begin_assignment _ | end_assignment _ => true
  | integration_aggregation | postintegration_aggregation | derived_content_aggregation => false

def master_bars : Pairing master_work_event MasterDuration where
  timestamp := master_work_event.timestamp
  begins event :=
    match event.type with
    | .begin kind => some kind
    | .end _ => none
  ends kind event := event.type = .end kind
  too_few
    | .aggregate => "Too few items in journal: Missing end-aggregation event"
    | .MPI => "Too few items in journal: Missing end-mpi event"
    | .database => "Too few items in journal: Missing end-database event"
  end_missing
    | .aggregate => "Expected end-aggregation event following begin-aggregation"
    | .MPI => "Expected end-mpi event following begin-mpi"
    | .database => "Expected end-database event following begin-database"
  colour
    | .aggregate => "black"
    | .MPI => "darkgoldenrod"
    | .database => "aquamarine"

def slave_bars : Pairing slave_work_event AssignmentKind where
  timestamp := slave_work_event.timestamp
  begins event :=
    match event.type with
    | .begin_assignment kind => some kind
    | _ => none
  ends kind event := event.type = .end_assignment kind
  too_few
    | .twopf => "Too few items in journal: Missing end-twopf event"
    | .threepf => "Too few items in journal: Missing end-threepf event"
    | .zeta_twopf => "Too few items in journal: Missing end-zeta-twopf event"
    | .zeta_threepf => "Too few items in journal: Missing end-zeta-threepf event"
    | .fNL => "Too few items in journal: Missing end-fNL event"
    | .output => "Too few items in journal: Missing end-output event"
  end_missing
    | .twopf => "Expected end-twopf event following begin-twopf"
    | .threepf => "Expected end-threepf event following begin-threepf"
    | .zeta_twopf => "Expected end-zeta-twopf event following begin-zeta-twopf"
    | .zeta_threepf => "Expected end-zeta-threepf event following begin-zeta-threepf"
    | .fNL => "Expected end-fBL event following begin-fNL"
    | .output => "Expected end-output event following begin-output"
  colour
    | .twopf => "red"
    | .threepf => "orangered"
    | .zeta_twopf => "green"
    | .zeta_threepf => "limegreen"
    | .fNL => "royalblue"
    | .output => "orchid"

/-! ### Binning -/

/-- The events of the master; all of them delimit durations. -/
def master_events (journal : List work_event) : List master_work_event :=
  journal.filterMap fun
    | .master event => some event
    | .slave _ => none

/-- The events of a worker that delimit durations. -/
def worker_events (journal : List work_event) (i : ℕ) : List slave_work_event :=
  journal.filterMap fun
    | .master _ => none
    | .slave event => if event.worker_number = i ∧ event.type.is_duration_delimiter then some event else none

def bin_master_bars (journal : List work_event) (list : List (List Gantt_bar)) :
    Except String (List (List Gantt_bar)) := do
  let bars ← master_bars.bin (master_events journal)
  .ok (list ++ [bars])

def bin_slave_bars (N_workers : ℕ) (journal : List work_event) (list : List (List Gantt_bar)) :
    Except String (List (List Gantt_bar)) :=
  (List.range N_workers).foldlM (fun list i => do
    let bars ← slave_bars.bin (worker_events journal i)
    .ok (list ++ [bars])) list

/-- The bars of the master: what it does one thing after the other, once its events are sorted. -/
theorem bin_master_bars_eq_ok_iff {journal : List work_event} {list bins : List (List Gantt_bar)} :
    bin_master_bars journal list = .ok bins ↔
      ∃ bars, master_bars.Alternates ((master_events journal).mergeSort fun a b => !master_bars.sorter b a) bars ∧
        bins = list ++ [bars] := by
  simp only [← Pairing.pair_eq_ok_iff, bin_master_bars, Pairing.bin]
  cases master_bars.pair ((master_events journal).mergeSort fun a b => !master_bars.sorter b a) with
  | error what => simp [bind, Except.bind]
  | ok bars => simp [bind, Except.bind, eq_comm]

/-- Workers whose events make these bars are binned one after the other. -/
theorem bin_slave_bars_of_bin {journal : List work_event} {bars : ℕ → List Gantt_bar} (list : List (List Gantt_bar))
    {N_workers : ℕ} (h : ∀ i < N_workers, slave_bars.bin (worker_events journal i) = .ok (bars i)) :
    bin_slave_bars N_workers journal list = .ok (list ++ (List.range N_workers).map bars) := by
  rw [bin_slave_bars]
  induction N_workers with
  | zero => simp [pure, Except.pure]
  | succ n ih =>
    have before := ih fun i hi => h i (by omega)
    rw [List.range_succ, List.foldlM_append, before]
    simp [bind, Except.bind, pure, Except.pure, h n (by omega)]

/-! ### Valid runs -/

/-- An assignment of a worker. -/
structure Assignment where
  kind : AssignmentKind
  begin_time : ℤ
  end_time : ℤ
deriving DecidableEq

namespace Assignment

/-- What a worker tells of an assignment. -/
def events (worker : ℕ) (a : Assignment) : List slave_work_event :=
  [⟨worker, .begin_assignment a.kind, a.begin_time⟩, ⟨worker, .end_assignment a.kind, a.end_time⟩]

def bar (a : Assignment) : Gantt_bar := ⟨a.begin_time, a.end_time, slave_bars.colour a.kind⟩

theorem alternates_events (worker : ℕ) (assignments : List Assignment) :
    slave_bars.Alternates (assignments.flatMap (events worker)) (assignments.map bar) := by
  induction assignments with
  | nil => exact .nil
  | cons a assignments ih =>
    have begins : slave_bars.begins ⟨worker, .begin_assignment a.kind, a.begin_time⟩ = some a.kind := rfl
    have ends : slave_bars.ends a.kind ⟨worker, .end_assignment a.kind, a.end_time⟩ = true :=
      decide_eq_true rfl
    exact .duration begins ends ih

end Assignment

/-- The duration events of each worker are those of its assignments, in order; whatever else is in the journal, and
however the workers are interleaved. -/
structure ValidRun (N_workers : ℕ) (journal : List work_event) (assignments : ℕ → List Assignment) : Prop where
  alternate : ∀ i < N_workers, worker_events journal i = (assignments i).flatMap (Assignment.events i)
  /-- Timestamps do not decrease. -/
  nondecreasing : ∀ i < N_workers, (worker_events journal i).Pairwise fun a b => a.timestamp ≤ b.timestamp

/-- **Gantt binning** of a valid run: one bar for each assignment of each worker, in order. -/
theorem bin_slave_bars_eq {N_workers : ℕ} {journal : List work_event} {assignments : ℕ → List Assignment}
    (valid : ValidRun N_workers journal assignments) (list : List (List Gantt_bar)) :
    bin_slave_bars N_workers journal list =
      .ok (list ++ (List.range N_workers).map fun i => (assignments i).map Assignment.bar) := by
  refine bin_slave_bars_of_bin list fun i hi => ?_
  rw [Pairing.bin_sorted (valid.nondecreasing i hi), valid.alternate i hi]
  exact (Assignment.alternates_events i (assignments i)).pair_eq

/-- Two workers: one ends an assignment, and begins and ends another, in the second in which the other one begins. -/
theorem bin_slave_bars_eq_ties :
    bin_slave_bars 2
      [.slave ⟨0, .begin_assignment .twopf, 1⟩, .slave ⟨1, .begin_assignment .zeta_twopf, 3⟩,
        .master ⟨.begin .aggregate, 2⟩, .slave ⟨0, .end_assignment .twopf, 3⟩,
        .slave ⟨0, .begin_assignment .zeta_twopf, 3⟩, .slave ⟨0, .integration_aggregation, 3⟩,
        .slave ⟨1, .end_assignment .zeta_twopf, 4⟩, .slave ⟨0, .end_assignment .zeta_twopf, 3⟩] [] =
      .ok [[⟨1, 3, "red"⟩, ⟨3, 3, "green"⟩], [⟨3, 4, "green"⟩]] := by
  have valid : ValidRun 2
      [.slave ⟨0, .begin_assignment .twopf, 1⟩, .slave ⟨1, .begin_assignment .zeta_twopf, 3⟩,
        .master ⟨.begin .aggregate, 2⟩, .slave ⟨0, .end_assignment .twopf, 3⟩,
        .slave ⟨0, .begin_assignment .zeta_twopf, 3⟩, .slave ⟨0, .integration_aggregation, 3⟩,
        .slave ⟨1, .end_assignment .zeta_twopf, 4⟩, .slave ⟨0, .end_assignment .zeta_twopf, 3⟩]
      (fun i => if i = 0 then [⟨.twopf, 1, 3⟩, ⟨.zeta_twopf, 3, 3⟩] else [⟨.zeta_twopf, 3, 4⟩]) := by
    constructor
    case alternate => decide
    case nondecreasing => decide
  exact bin_slave_bars_eq valid []

end CppTransport.Runtime.WorkJournal
