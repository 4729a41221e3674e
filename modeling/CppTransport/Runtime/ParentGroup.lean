import CppTransport.Library.SortedUnion
import CppTransport.Runtime.PostintegrationSchedule
import Mathlib.Data.String.Basic

/-!
# The parent group of a postintegration

The data of a postintegration task that is not paired come from content groups of its parent task.
Each worker attaches its datapipe to such a group for every assignment, and reports its name with
the assignment (`slave_controller::schedule_postintegration`). The master collects the names while
it polls the workers (`update_content_group_list`), refuses to go on if there are several, and
records the first as the parent group (`master_controller::postintegration_task_to_workers`).

## The model

In a `Run` each worker handles its assignments on a datapipe of its own, and the reports arrive in
any order. Whatever else may throw while the master polls is given (`interrupted`), and a worker
that an exception has ended is waited for forever. Metadata, aggregation and the integrity check
do not touch the parent group, and are left out.

## What is proved

An assignment that fails before a group has been attached reports the empty name, which counts as a
group like any other. `recorded_iff`: the parent group is recorded, and the list of names is read
only when it is not empty, if and only if there is an assignment and, in a run that is to be
committed, no assignment fails before attaching unless none attaches or several groups are attached.
-/

namespace CppTransport.Runtime.ParentGroup

open Library Datapipe
open SlaveController (exception)

def CPPTRANSPORT_POSTINTEGRATION_MULTIPLE_GROUPS : String :=
  "Error: backends chose multiple, different content groups during postintegration processing"

variable {P : Type}

/-! ### What a worker reports -/

/-- What the master reads of the payload of `FINISHED_POSTINTEGRATION` and `POSTINTEGRATION_FAIL`. -/
structure finished_postintegration_payload where
  /-- The names of content groups. -/
  content_groups : List String
deriving DecidableEq, Repr

/-- A report to the master. -/
inductive Report where
  /-- `FINISHED_POSTINTEGRATION`. -/
  | finished (payload : finished_postintegration_payload)
  /-- `POSTINTEGRATION_FAIL`. -/
  | fail (payload : finished_postintegration_payload)
deriving DecidableEq, Repr

namespace Report

/-- Its payload. -/
def payload : Report → finished_postintegration_payload
  | finished payload => payload
  | fail payload => payload

/-- Is the assignment finished? -/
def success : Report → Bool
  | finished _ => true
  | fail _ => false

end Report

/-- An exception has come out of the assignment. -/
def escapes (h : Handled P) : Bool :=
  match h.outcome.thrown with
  | some (.other _) => true
  | _ => false

/-- What is reported about an assignment. -/
def report (h : Handled P) : Report :=
  if h.outcome.success then .finished ⟨[h.outcome.group]⟩ else .fail ⟨[h.outcome.group]⟩

/-- The content group that was attached for an assignment. -/
def attachment (tk : derivable_task) (h : Handled P) : Option String :=
  match (attach h.assignment tk).run h.before with
  | .ok group _ => some group
  | .error _ _ => none

/-! ### What the master does -/

/-- A run of a postintegration task. -/
structure Run (P : Type) where
  /-- The parent task. -/
  parent : derivable_task
  /-- The assignments of each worker. -/
  workers : List (List (Assignment P))
  /-- The reports in the order in which they are received. -/
  arrivals : List Report
  /-- Each report about an assignment is received once. -/
  received : arrivals.Perm
    (((workers.flatMap (schedule_postintegration parent {})).filter (! escapes ·)).map report)
  /-- What else is thrown while the workers are polled. -/
  interrupted : Option exception
  /-- Are content groups with failures to be committed? -/
  commit_failed : Bool

/-- How the polling of the workers ends. -/
inductive Ending where
  /-- The master waits for a worker that is gone. -/
  | waits
  /-- An exception is thrown. -/
  | thrown (e : exception)
  /-- The first element of an empty list is read. -/
  | undefined
  /-- The writer is left with this parent group. -/
  | ended (parent_group : String) (success : Bool)
deriving DecidableEq, Repr

/-- A content group in the repository. -/
structure postintegration_payload where
  /-- Name of its parent group. -/
  parent_group : String
deriving DecidableEq, Repr

/-- Add the names of a report. -/
def update_content_group_list (groups : List String) (payload : finished_postintegration_payload) : List String :=
  sortedUnion groups payload.content_groups

namespace Run

variable (run : Run P)

/-- The assignments that are handled. -/
def handled : List (Handled P) := run.workers.flatMap (schedule_postintegration run.parent {})

/-- What `poll_workers` returns. -/
def success : Bool := run.arrivals.all Report.success

/-- The names that are collected by `poll_workers`. -/
def content_groups : List String :=
  (run.arrivals.map Report.payload).foldl update_content_group_list []

/-- Poll the workers and set the parent group. -/
def postintegration_task_to_workers : Ending :=
  if run.handled.any escapes then .waits
  else
    match run.interrupted with
    | some e => .thrown e
    | none =>
      if run.content_groups.length > 1 then
        .thrown (.runtime_exception .RUNTIME_ERROR CPPTRANSPORT_POSTINTEGRATION_MULTIPLE_GROUPS)
      else
        match run.content_groups with
        | [] => .undefined
        | front :: _ => .ended front run.success

/-- The record that is committed. -/
def schedule_postintegration : Option postintegration_payload :=
  match run.postintegration_task_to_workers with
  | .ended parent_group success => if success || run.commit_failed then some ⟨parent_group⟩ else none
  | _ => none

/-- The workers are polled to the end. -/
def Ends : Prop := (∀ h ∈ run.handled, escapes h = false) ∧ run.interrupted = none

/-- The output is to be committed. -/
def Commits : Prop := (∀ h ∈ run.handled, h.outcome.success = true) ∨ run.commit_failed = true

/-- Some assignment attaches the group `g`, and none another group. -/
def Attaches (g : String) : Prop :=
  (∃ h ∈ run.handled, attachment run.parent h = some g) ∧
    ∀ h ∈ run.handled, ∀ g', attachment run.parent h = some g' → g' = g

/-- Every assignment that is handled attaches a group. -/
def AllAttach : Prop := ∀ h ∈ run.handled, attachment run.parent h ≠ none

/-- The record that is committed names the group that was attached, and the list of groups is read only when it is not
empty. -/
def Recorded : Prop :=
  (∀ g, run.Attaches g → run.Ends → run.Commits → run.schedule_postintegration = some ⟨g⟩) ∧
    run.postintegration_task_to_workers ≠ .undefined

end Run

/-! ### What is reported -/

section Reports

variable {tk : derivable_task} {p : datapipe} {as : List (Assignment P)} {h : Handled P}

/-- The outcome of an assignment names the group that was attached, and is empty if there is none. -/
theorem perform_group (tk : derivable_task) (p : datapipe) (a : Assignment P) :
    (perform tk p a).2.group = (attachment tk ⟨a, p, (perform tk p a).2⟩).getD "" := by
  rw [attachment, perform]
  cases hattach : (attach a tk).run p with
  | error e p' => rfl
  | ok group p' =>
    cases hthrown : (a.handler p').2 with
    | some e => simp [hthrown]
    | none => cases hdetach : (detach a).run p' <;> simp [hthrown, hdetach]

theorem group_of_mem_schedule (hmem : h ∈ schedule_postintegration tk p as) :
    h.outcome.group = (attachment tk h).getD "" := by
  induction as generalizing p with
  | nil => simp [schedule_postintegration] at hmem
  | cons a as ih =>
    rw [schedule_cons, List.mem_cons] at hmem
    obtain rfl | hmem := hmem
    · exact perform_group tk p a
    · split at hmem
      · simp at hmem
      · exact ih hmem

theorem schedule_eq_nil_iff : schedule_postintegration tk p as = [] ↔ as = [] := by
  cases as with
  | nil => simp [schedule_postintegration]
  | cons a as => simp [schedule_cons]

@[simp] theorem report_payload : (report h).payload = ⟨[h.outcome.group]⟩ := by
  unfold report
  split <;> rfl

@[simp] theorem report_success : (report h).success = h.outcome.success := by
  unfold report
  split <;> simp_all [Report.success]

end Reports

/-! ### What the master records -/

namespace Run

variable {run : Run P} {g : String}

theorem group_of_mem_handled {h : Handled P} (hmem : h ∈ run.handled) :
    h.outcome.group = (attachment run.parent h).getD "" := by
  obtain ⟨as, -, hmem⟩ := List.mem_flatMap.mp hmem
  exact group_of_mem_schedule hmem

theorem handled_ne_nil_iff : run.handled ≠ [] ↔ ∃ as ∈ run.workers, as ≠ [] := by
  simp [handled, schedule_eq_nil_iff]

/-- In a run that ends all assignments are reported. -/
theorem arrivals_perm (hends : run.Ends) : run.arrivals.Perm (run.handled.map report) := by
  have hall : run.handled.filter (! escapes ·) = run.handled := by
    rw [List.filter_eq_self]
    intro h hmem
    simp [hends.1 h hmem]
  have hreceived := run.received
  rwa [← handled, hall] at hreceived

/-- Names are collected in a sorted list. -/
theorem content_groups_eq (run : Run P) :
    run.content_groups = sortedUnions (run.arrivals.map fun r => r.payload.content_groups) := by
  simp only [content_groups, sortedUnions, List.foldl_map]
  rfl

theorem success_eq_true_iff (hends : run.Ends) :
    run.success = true ↔ ∀ h ∈ run.handled, h.outcome.success = true := by
  rw [success, (arrivals_perm hends).all_eq]
  simp

/-- The names collected are those of the outcomes. -/
theorem content_groups_eq_singleton_iff (hends : run.Ends) :
    run.content_groups = [g] ↔ run.handled ≠ [] ∧ ∀ h ∈ run.handled, h.outcome.group = g := by
  rw [content_groups_eq, sortedUnions_eq_singleton_iff]
  have hmem : ∀ r, r ∈ run.arrivals ↔ ∃ h ∈ run.handled, report h = r := by
    intro r
    rw [(arrivals_perm hends).mem_iff, List.mem_map]
  constructor
  · rintro ⟨⟨new, hnew, hg⟩, hall⟩
    have hall' : ∀ h ∈ run.handled, h.outcome.group = g := by
      intro h hh
      exact hall _ (List.mem_map_of_mem ((hmem _).mpr ⟨h, hh, rfl⟩)) _ (by simp)
    obtain ⟨r, hr, -⟩ := List.mem_map.mp hnew
    obtain ⟨h, hh, -⟩ := (hmem r).mp hr
    exact ⟨List.ne_nil_of_mem hh, hall'⟩
  · rintro ⟨hne, hall⟩
    obtain ⟨h, hh⟩ := List.exists_mem_of_ne_nil _ hne
    refine ⟨⟨_, List.mem_map_of_mem ((hmem _).mpr ⟨h, hh, rfl⟩), by simp [hall h hh]⟩, ?_⟩
    intro new hnew b hb
    obtain ⟨r, hr, rfl⟩ := List.mem_map.mp hnew
    obtain ⟨h', hh', rfl⟩ := (hmem r).mp hr
    simpa [hall h' hh'] using hb

theorem content_groups_eq_nil_iff (hends : run.Ends) : run.content_groups = [] ↔ run.handled = [] := by
  rw [content_groups_eq, sortedUnions_eq_nil_iff]
  have hperm := arrivals_perm hends
  constructor
  · intro hall
    by_contra hne
    obtain ⟨h, hh⟩ := List.exists_mem_of_ne_nil _ hne
    have hr : report h ∈ run.arrivals := hperm.mem_iff.mpr (List.mem_map_of_mem hh)
    simpa using hall _ (List.mem_map_of_mem hr)
  · intro hnil
    rw [hnil, List.map_nil] at hperm
    simp [hperm.eq_nil]

/-- The polling of a run that ends. -/
theorem polling_eq (hends : run.Ends) :
    run.postintegration_task_to_workers =
      if run.content_groups.length > 1 then
        .thrown (.runtime_exception .RUNTIME_ERROR CPPTRANSPORT_POSTINTEGRATION_MULTIPLE_GROUPS)
      else
        match run.content_groups with
        | [] => .undefined
        | front :: _ => .ended front run.success := by
  have hany : run.handled.any escapes = false := by
    simpa using hends.1
  rw [postintegration_task_to_workers, hany, hends.2]
  rfl

theorem polling_eq_undefined_iff (hends : run.Ends) :
    run.postintegration_task_to_workers = .undefined ↔ run.handled = [] := by
  rw [← content_groups_eq_nil_iff hends, polling_eq hends]
  cases run.content_groups with
  | nil => simp
  | cons front rest => split <;> simp

/-- A group is recorded just if it is the only name collected. -/
theorem schedule_eq_some_iff (hends : run.Ends) (hcommits : run.Commits) :
    run.schedule_postintegration = some ⟨g⟩ ↔ run.content_groups = [g] := by
  have hcommit : (run.success || run.commit_failed) = true := by
    rw [Bool.or_eq_true, success_eq_true_iff hends]
    exact hcommits
  rw [schedule_postintegration, polling_eq hends]
  match run.content_groups with
  | [] => simp
  | [front] => simp [hcommit]
  | front :: next :: rest => simp

/-- All outcomes name the group attached just if no assignment fails before attaching, or the name is empty. -/
theorem outcomes_name_iff (hattaches : run.Attaches g) :
    (∀ h ∈ run.handled, h.outcome.group = g) ↔ run.AllAttach ∨ g = "" := by
  obtain ⟨-, hagree⟩ := hattaches
  constructor
  · intro hall
    by_cases hg : g = ""
    · exact .inr hg
    · refine .inl fun h hh hnone => hg ?_
      rw [← hall h hh, group_of_mem_handled hh, hnone]
      rfl
  · intro hcases h hh
    rw [group_of_mem_handled hh]
    cases hattachment : attachment run.parent h with
    | some g' => exact hagree h hh g' hattachment
    | none =>
      obtain hall | rfl := hcases
      · exact absurd hattachment (hall h hh)
      · rfl

/-- **Recorded parent group**: the record names the group that was attached, and the list of groups is read only when it
is not empty, if and only if the run does not end, or there is an assignment and, if the output is to be committed, no
assignment fails before attaching (or the group attached has the empty name). -/
theorem recorded_iff (run : Run P) :
    run.Recorded ↔ (run.Ends → (∃ as ∈ run.workers, as ≠ []) ∧
      (run.Commits → ∀ g, run.Attaches g → run.AllAttach ∨ g = "")) := by
  by_cases hends : run.Ends
  · have hnonempty : run.postintegration_task_to_workers ≠ .undefined ↔ ∃ as ∈ run.workers, as ≠ [] := by
      rw [ne_eq, polling_eq_undefined_iff hends]
      exact handled_ne_nil_iff
    have hnames : ∀ g, run.Attaches g → run.Commits →
        (run.schedule_postintegration = some ⟨g⟩ ↔ run.AllAttach ∨ g = "") := by
      intro g hattaches hcommits
      have hsome : run.handled ≠ [] := List.ne_nil_of_mem hattaches.1.choose_spec.1
      rw [schedule_eq_some_iff hends hcommits, content_groups_eq_singleton_iff hends, ← outcomes_name_iff hattaches]
      exact and_iff_right hsome
    rw [Recorded, hnonempty]
    constructor
    · rintro ⟨hrecords, hsome⟩ -
      exact ⟨hsome, fun hcommits g hattaches =>
        (hnames g hattaches hcommits).mp (hrecords g hattaches hends hcommits)⟩
    · intro h
      obtain ⟨hsome, hall⟩ := h hends
      exact ⟨fun g hattaches _ hcommits => (hnames g hattaches hcommits).mpr (hall hcommits g hattaches), hsome⟩
  · have hread : run.postintegration_task_to_workers ≠ .undefined := by
      intro hundefined
      rw [postintegration_task_to_workers] at hundefined
      split at hundefined
      · cases hundefined
      · rename_i hany
        cases hinterrupted : run.interrupted with
        | some e => simp [hinterrupted] at hundefined
        | none => exact hends ⟨by simpa using hany, hinterrupted⟩
    exact iff_of_true ⟨fun _ _ h => absurd h hends, hread⟩ fun h => absurd h hends

end Run

/-- An assignment for which no content group is found. -/
def lost : Assignment ℕ :=
  { smooth with find := .error (.runtime_exception .REPOSITORY_ERROR "no content group") }

/-- Two workers, one of which finds no content group. -/
def mixed : Run ℕ where
  parent := .integration "tk" 2
  workers := [[smooth], [lost]]
  arrivals := [.finished ⟨["group"]⟩, .fail ⟨[""]⟩]
  received := by decide
  interrupted := none
  commit_failed := true

/-- One assignment attaches a group and the other none: no record is committed. -/
theorem mixed_not_recorded : ¬ ∀ run : Run ℕ, run.Recorded := by
  intro h
  have hattaches : mixed.Attaches "group" :=
    ⟨⟨_, List.mem_cons_self, rfl⟩, by decide⟩
  have hends : mixed.Ends := ⟨by decide, rfl⟩
  have hcommits : mixed.Commits := .inr rfl
  have hrecord := (h mixed).1 "group" hattaches hends hcommits
  have hgroups := (Run.schedule_eq_some_iff hends hcommits).mp hrecord
  have houtcomes := ((Run.content_groups_eq_singleton_iff hends).mp hgroups).2
  exact absurd (houtcomes _ (.tail _ List.mem_cons_self)) (by decide)

end CppTransport.Runtime.ParentGroup
