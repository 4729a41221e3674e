import CppTransport.Library.Transition
import CppTransport.Runtime.IntegrationMetadata
import CppTransport.Runtime.PairedContainers
import CppTransport.Runtime.WaitForTasks

/-!
# The failure flag of a writer

A writer is marked as failed when a temporary container cannot be aggregated, when a worker
reports failed configurations, and when the integrity check finds data missing. The first and
the last of these set the flag; merging a list of failures computes it anew, from all
failures reported so far, and would clear it if there were none.

## The model

The steps of the master that reach a writer: messages from workers, integrity checks, and the
synchronization of paired writers, in any order and any number. What aggregation makes of a
container is left open. A worker reports what its batcher has of an assignment; of several
reports of one configuration, which make the payload throw, no message comes.

## What is proved

* `Writer.Recalls`: what a writer knows of failures is not forgotten by any step;
* `payload_nonempty`: a report that is merged lists failures, for the batcher that counts a
  failure also lists it;
* `failure_never_forgotten`: for all runs of all tasks.
-/

namespace CppTransport.Runtime

open Library
open SlaveController (exception exception_type)
open IntegrationMetadata (integration_batcher finished_integration_payload)

variable {V : Type*}

/-! ### Writers -/

namespace Writer

/-- What `w` knows of failures is known to `w'`. -/
structure Recalls (w w' : Writer) : Prop where
  fail : w.fail = true → w'.fail = true
  failed_serials : w.failed_serials ⊆ w'.failed_serials
  /-- No configuration is listed as missing by a writer that is not marked. -/
  missing : (w.missing_serials.Nonempty → w.fail = true) → w'.missing_serials.Nonempty → w'.fail = true

variable {w w' w'' : Writer} {failed : Finset ℕ}

theorem Recalls.refl (w : Writer) : w.Recalls w := ⟨id, subset_rfl, id⟩

theorem Recalls.trans (h : w.Recalls w') (h' : w'.Recalls w'') : w.Recalls w'' :=
  ⟨fun fail => h'.fail (h.fail fail), h.failed_serials.trans h'.failed_serials,
    fun known => h'.missing (h.missing known)⟩

/-- `set_fail(true)`. -/
theorem recalls_set_fail (w : Writer) : w.Recalls { w with fail := true } := ⟨fun _ => rfl, subset_rfl, fun _ _ => rfl⟩

theorem fail_merge_failure_list (some : failed.Nonempty) : (w.merge_failure_list failed).fail = true := by
  simp [merge_failure_list, Finset.union_eq_empty, some.ne_empty]

/-- Only an empty list can clear the flag. -/
theorem recalls_merge_failure_list (some : failed.Nonempty) : w.Recalls (w.merge_failure_list failed) where
  fail _ := fail_merge_failure_list some
  failed_serials := Finset.subset_union_left
  missing _ _ := fail_merge_failure_list some

/-- What the checks of all containers do with what they find missing. -/
theorem recalls_advise (w : Writer) (total : Finset ℕ) :
    w.Recalls (w.advise_missing_content.set_missing_serials total) := ⟨fun _ => rfl, subset_rfl, fun _ _ => rfl⟩

end Writer

section Handlers

variable {α β σ : Type*} [Fintype α] [Fintype β] {collects : σ → Bool}

theorem integrity_handler_recalls (db : ConfigDatabase) (w : Writer) (c : Container α β σ V) :
    w.Recalls (integrity_handler collects db w c).1 := by
  rw [integrity_handler]
  split
  case isTrue => exact w.recalls_advise _
  case isFalse => exact .refl w

theorem twopf_integrity_handler_recalls (db : TwopfConfigDatabase) (w : Writer) (c : TwopfContainer β σ V) :
    w.Recalls (twopf_integrity_handler collects db w c).1 := by
  rw [twopf_integrity_handler]
  split
  case isTrue => exact w.recalls_advise _
  case isFalse => exact .refl w

end Handlers

/-! ### Tasks -/

/-- An integration task, with its database of configurations. -/
inductive IntegrationTask where
  | twopf (db : TwopfConfigDatabase)
  | threepf (db : ConfigDatabase)

/-- A postintegration task. -/
inductive PostintegrationTask where
  | zeta_twopf (db : TwopfConfigDatabase)
  | zeta_threepf (db : ConfigDatabase)
  | fNL

namespace IntegrationTask

/-- The container that an integration task fills. -/
def Container (V : Type*) : IntegrationTask → Type _
  | twopf _ => TwopfContainer TwopfTaskTable TwopfSideTable V
  | threepf _ => Runtime.Container ThreepfTable TwopfTable SideTable V

/-- `check_integrity`: the handler that `initialize_writer` sets. -/
def check_integrity : (tk : IntegrationTask) → IntegrationWriter → tk.Container V →
    IntegrationWriter × tk.Container V
  | twopf db => check_twopf_integrity_handler db
  | threepf db => check_threepf_integrity_handler db

theorem recalls_check_integrity (tk : IntegrationTask) (w : IntegrationWriter) (c : tk.Container V) :
    w.toWriter.Recalls (tk.check_integrity w c).1.toWriter := by
  cases tk with
  | twopf db => exact twopf_integrity_handler_recalls db w.toWriter c
  | threepf db => exact integrity_handler_recalls db w.toWriter c

end IntegrationTask

namespace PostintegrationTask

/-- The container that a postintegration task fills; of one for fNL nothing is checked. -/
def Container (V : Type*) : PostintegrationTask → Type _
  | zeta_twopf _ => TwopfContainer ZetaTwopfTable Empty V
  | zeta_threepf _ => Runtime.Container ZetaThreepfTable ZetaTwopfTable Empty V
  | fNL => List (Row V)

/-- `check_integrity`; `check_fNL_integrity_handler` only prints to the log. -/
def check_integrity : (tk : PostintegrationTask) → Writer → tk.Container V → Writer × tk.Container V
  | zeta_twopf db => check_zeta_twopf_integrity_handler db
  | zeta_threepf db => check_zeta_threepf_integrity_handler db
  | fNL => fun w c => (w, c)

theorem recalls_check_integrity (tk : PostintegrationTask) (w : Writer) (c : tk.Container V) :
    w.Recalls (tk.check_integrity w c).1 := by
  cases tk with
  | zeta_twopf db => exact twopf_integrity_handler_recalls db w c
  | zeta_threepf db => exact integrity_handler_recalls db w c
  | fNL => exact .refl w

end PostintegrationTask

/-! ### Reports of workers -/

/-- What the batcher of a worker has when an assignment ends. -/
def batcher_of (events : List IntegrationMetadata.Event) : integration_batcher :=
  events.foldl IntegrationMetadata.Event.handle .begin_assignment

/-- A batcher that has counted a failure has listed one. -/
theorem failures_of_failed_serials (events : List IntegrationMetadata.Event) :
    (batcher_of events).failed_serials = ∅ → (batcher_of events).failures = 0 := by
  rw [batcher_of]
  induction events using List.reverseRecOn with
  | nil => exact fun _ => rfl
  | append_singleton events e ih =>
    rw [List.foldl_append]
    cases e with
    | success integration batching => exact ih
    | failure kserial => exact fun none => absurd none (Finset.insert_ne_empty _ _)
    | refinement => exact ih

theorem failed_serials_nonempty {events : List IntegrationMetadata.Event} {kserial : ℕ}
    (h : .failure kserial ∈ events) : (batcher_of events).failed_serials.Nonempty := by
  rw [batcher_of]
  induction events using List.reverseRecOn with
  | nil => cases h
  | append_singleton events e ih =>
    rw [List.foldl_append]
    cases e with
    | failure kserial => exact Finset.insert_nonempty _ _
    | success integration batching => exact ih (by simpa using h)
    | refinement => exact ih (by simpa using h)

/-- **A report that is merged** lists failures. -/
theorem payload_nonempty {events : List IntegrationMetadata.Event} {payload : finished_integration_payload}
    (h : finished_integration_payload.create (batcher_of events) = .ok payload) (some : 0 < payload.num_failures) :
    payload.failed_serials.Nonempty := by
  rw [finished_integration_payload.create] at h
  split_ifs at h
  cases h
  rw [Finset.nonempty_iff_ne_empty]
  exact fun none => some.ne' (failures_of_failed_serials events none)

/-- A report of an assignment with failures is merged. -/
theorem num_failures_pos {events : List IntegrationMetadata.Event} {payload : finished_integration_payload}
    (h : finished_integration_payload.create (batcher_of events) = .ok payload) {kserial : ℕ}
    (failed : .failure kserial ∈ events) : 0 < payload.num_failures := by
  have some := failed_serials_nonempty failed
  rw [finished_integration_payload.create] at h
  split_ifs at h with mismatch
  cases h
  have agree : (batcher_of events).failed_serials.card = (batcher_of events).failures := by
    by_contra differ
    exact mismatch ⟨some.ne_empty, differ⟩
  exact agree ▸ Finset.card_pos.mpr some

/-! ### Steps of the master -/

/-- The function of the master that executes a task. -/
inductive Execution where
  | integration
  | postintegration
  | paired
deriving DecidableEq

/-- One of the writers of a task. -/
inductive Target where
  | integration
  | postintegration
deriving DecidableEq

/-- The writer that is passed to `poll_workers`. -/
def Execution.polled : Execution → Target
  | integration | paired => .integration
  | postintegration => .postintegration

/-- The aggregators that are set up. -/
def Execution.aggregator : Execution → Target → Bool
  | integration, .integration | postintegration, .postintegration | paired, _ => true
  | integration, .postintegration | postintegration, .integration => false

/-- The writers of a task, with their containers. -/
structure Writers (V : Type*) (itk : IntegrationTask) (ptk : PostintegrationTask) where
  integration : IntegrationWriter × itk.Container V
  postintegration : Writer × ptk.Container V

variable {itk : IntegrationTask} {ptk : PostintegrationTask}

namespace Writers

/-- What a writer knows of failures. -/
def writer (s : Writers V itk ptk) : Target → Writer
  | .integration => s.integration.1.toWriter
  | .postintegration => s.postintegration.1

/-- Replace what a writer knows of failures. -/
def set_writer (s : Writers V itk ptk) (w : Writer) : Target → Writers V itk ptk
  | .integration => { s with integration := ({ s.integration.1 with toWriter := w }, s.integration.2) }
  | .postintegration => { s with postintegration := (w, s.postintegration.2) }

theorem recalls_set_writer {s : Writers V itk ptk} {w : Writer} {t : Target} (h : (s.writer t).Recalls w)
    (u : Target) : (s.writer u).Recalls ((s.set_writer w t).writer u) := by
  cases t <;> cases u
  · exact h
  · exact .refl _
  · exact .refl _
  · exact h

@[simp] theorem writer_set_writer (s : Writers V itk ptk) (w : Writer) (t : Target) :
    (s.set_writer w t).writer t = w := by
  cases t <;> rfl

end Writers

/-- What reaches the writers. -/
inductive MasterStep (V : Type*) (itk : IntegrationTask) (ptk : PostintegrationTask) where
  /-- A temporary container is aggregated, which leaves a container and may raise an exception. -/
  | aggregate_integration (container : itk.Container V) (raised : Option exception)
  | aggregate_postprocess (container : ptk.Container V) (raised : Option exception)
  /-- The messages `FINISHED_INTEGRATION` and `INTEGRATION_FAIL`, after these events. -/
  | finished_integration (events : List IntegrationMetadata.Event)
  | check_integration
  | check_postintegration
  | synchronize_missing_serials

/-- What `aggregate_integration` and `aggregate_postprocess` do with an exception. -/
def trap (s : Writers V itk ptk) (t : Target) : Option exception → Option (Writers V itk ptk)
  | none => some s
  | some (.runtime_exception .DATA_CONTAINER_ERROR _) => some (s.set_writer { s.writer t with fail := true } t)
  | some _ => none

namespace MasterStep

/-- One step of the master; none if it throws, and the task ends without a commit. -/
def next (e : Execution) (s : Writers V itk ptk) : MasterStep V itk ptk → Option (Writers V itk ptk)
  | aggregate_integration container raised =>
    if e.aggregator .integration then
      trap { s with integration := (s.integration.1, container) } .integration raised
    else some s
  | aggregate_postprocess container raised =>
    if e.aggregator .postintegration then
      trap { s with postintegration := (s.postintegration.1, container) } .postintegration raised
    else some s
  | finished_integration events =>
    match finished_integration_payload.create (batcher_of events) with
    | .error _ => none
    | .ok payload =>
      some <|
        if 0 < payload.num_failures then
          s.set_writer ((s.writer e.polled).merge_failure_list payload.failed_serials) e.polled
        else s
  | check_integration => some { s with integration := itk.check_integrity s.integration.1 s.integration.2 }
  | check_postintegration =>
    some { s with postintegration := ptk.check_integrity s.postintegration.1 s.postintegration.2 }
  | synchronize_missing_serials =>
    let r := Runtime.synchronize_missing_serials itk.check_integrity ptk.check_integrity s.integration
      s.postintegration
    some ⟨r.1, r.2⟩

/-- The step tells of lost data that should be in the container of a writer. -/
def Loses (e : Execution) (t : Target) : MasterStep V itk ptk → Prop
  | aggregate_integration _ raised => t = .integration ∧ e.aggregator .integration = true ∧ raised.isSome = true
  | aggregate_postprocess _ raised =>
    t = .postintegration ∧ e.aggregator .postintegration = true ∧ raised.isSome = true
  | finished_integration events => t = e.polled ∧ ∃ kserial, .failure kserial ∈ events
  | _ => False

/-- `close_writer`, for each of the functions that execute a task. -/
def close_writer : Execution → List (MasterStep V itk ptk)
  | .integration => [check_integration]
  | .postintegration => [check_postintegration]
  | .paired => [check_integration, check_postintegration, synchronize_missing_serials]

/-- Paired writers are closed one step after the other. -/
theorem close_writer_paired (s : Writers V itk ptk) :
    (close_writer .paired).foldlM (next .paired) s =
      let r := Runtime.close_writer itk.check_integrity ptk.check_integrity s.integration s.postintegration
      some ⟨r.1, r.2⟩ := rfl

/-! ### Nothing is forgotten -/

variable {e : Execution} {s s' : Writers V itk ptk} {l : MasterStep V itk ptk} {t : Target}

theorem recalls_trap {raised : Option exception} (h : trap s t raised = some s') (u : Target) :
    (s.writer u).Recalls (s'.writer u) := by
  unfold trap at h
  split at h
  case h_1 =>
    cases h
    exact .refl _
  case h_2 =>
    cases h
    exact Writers.recalls_set_writer (Writer.recalls_set_fail _) u
  case h_3 => cases h

/-- Writers that are synchronized have more failures merged, if at all, and are checked again. -/
theorem recalls_synchronize (s : Writers V itk ptk) (i : IntegrationWriter × itk.Container V)
    (p : Writer × ptk.Container V) (h : Runtime.synchronize_missing_serials itk.check_integrity ptk.check_integrity
      s.integration s.postintegration = (i, p)) (u : Target) :
    (s.writer u).Recalls ((⟨i, p⟩ : Writers V itk ptk).writer u) := by
  rw [Runtime.synchronize_missing_serials] at h
  obtain ⟨rfl, rfl⟩ := Prod.mk.inj h
  cases u with
  | integration =>
    show s.integration.1.toWriter.Recalls _
    dsimp only [Writers.writer]
    split_ifs with some
    · have merged := Writer.recalls_merge_failure_list (w := s.integration.1.toWriter) (Finset.card_pos.mp some)
      exact merged.trans (itk.recalls_check_integrity (s.integration.1.merge_failure_list _) _)
    · exact .refl _
  | postintegration =>
    show s.postintegration.1.Recalls _
    dsimp only [Writers.writer]
    split_ifs with some
    · exact (Writer.recalls_merge_failure_list (Finset.card_pos.mp some)).trans (ptk.recalls_check_integrity _ _)
    · exact .refl _

/-- **One step** of the master. -/
theorem recalls_next (h : l.next e s = some s') (u : Target) : (s.writer u).Recalls (s'.writer u) := by
  cases l with
  | aggregate_integration container raised =>
    rw [next] at h
    split_ifs at h with able
    · have recalls := recalls_trap h u
      cases u <;> exact recalls
    · cases h
      exact .refl _
  | aggregate_postprocess container raised =>
    rw [next] at h
    split_ifs at h with able
    · have recalls := recalls_trap h u
      cases u <;> exact recalls
    · cases h
      exact .refl _
  | finished_integration events =>
    rw [next] at h
    split at h
    case h_1 => cases h
    case h_2 payload created =>
      split_ifs at h with some
      · cases h
        exact Writers.recalls_set_writer (Writer.recalls_merge_failure_list (payload_nonempty created some)) u
      · cases h
        exact .refl _
  | check_integration =>
    cases h
    cases u with
    | integration => exact itk.recalls_check_integrity _ _
    | postintegration => exact .refl _
  | check_postintegration =>
    cases h
    cases u with
    | integration => exact .refl _
    | postintegration => exact ptk.recalls_check_integrity _ _
  | synchronize_missing_serials =>
    cases h
    exact recalls_synchronize s _ _ rfl u

theorem fail_trap {raised : Option exception} (h : trap s t raised = some s') (some : raised.isSome = true) :
    (s'.writer t).fail = true := by
  unfold trap at h
  split at h
  case h_1 => cases some
  case h_2 =>
    cases h
    simp
  case h_3 => cases h

/-- A step that tells of lost data marks the writer. -/
theorem Loses.fail (loses : l.Loses e t) (h : l.next e s = some s') : (s'.writer t).fail = true := by
  cases l with
  | aggregate_integration container raised =>
    obtain ⟨rfl, able, some⟩ := loses
    rw [next, if_pos able] at h
    exact fail_trap h some
  | aggregate_postprocess container raised =>
    obtain ⟨rfl, able, some⟩ := loses
    rw [next, if_pos able] at h
    exact fail_trap h some
  | finished_integration events =>
    obtain ⟨rfl, kserial, failed⟩ := loses
    rw [next] at h
    split at h
    case h_1 => cases h
    case h_2 payload created =>
      have some := num_failures_pos created failed
      rw [if_pos some] at h
      cases h
      rw [Writers.writer_set_writer]
      exact Writer.fail_merge_failure_list (payload_nonempty created some)
  | check_integration => exact loses.elim
  | check_postintegration => exact loses.elim
  | synchronize_missing_serials => exact loses.elim

end MasterStep

/-! ### Runs -/

/-- The steps of the master, in any order, from any state of the writers. -/
def master (V : Type*) (itk : IntegrationTask) (ptk : PostintegrationTask) (e : Execution) :
    System (Writers V itk ptk) (MasterStep V itk ptk) := .ofNext (fun _ => True) fun s l => l.next e s

variable {e : Execution} {s s' : Writers V itk ptk} {ls : List (MasterStep V itk ptk)}

/-- **Runs** of the master. -/
theorem recalls_run (h : (master V itk ptk e).Run s ls s') (t : Target) : (s.writer t).Recalls (s'.writer t) := by
  induction h with
  | nil => exact .refl _
  | snoc _ step ih => exact ih.trans (MasterStep.recalls_next step t)

theorem fail_of_loses (h : (master V itk ptk e).Run s ls s') {t : Target} {l : MasterStep V itk ptk} (hl : l ∈ ls)
    (loses : l.Loses e t) : (s'.writer t).fail = true := by
  induction h with
  | nil => cases hl
  | snoc _ step ih =>
    rcases List.mem_append.mp hl with before | last
    · exact (MasterStep.recalls_next step t).fail (ih before)
    · cases List.mem_singleton.mp last
      exact loses.fail step

/-- What the record of a content group has of the failures. -/
structure RecordedFailures where
  /-- The group is not complete. -/
  fail : Bool
  failed_serials : Finset ℕ

/-- `commit`, through `close_integration_writer` or `close_postintegration_writer`. -/
def Writer.commit (w : Writer) : RecordedFailures where
  fail := w.fail
  failed_serials := w.missing_serials

/-- **A failure is never forgotten**: from whatever state of the writers, whatever comes before the commit. A writer
that was marked commits a group that is not complete; so does one that was told of lost data, and one with data
missing. -/
theorem failure_never_forgotten (h : (master V itk ptk e).Run s ls s') (t : Target) :
    ((s.writer t).fail = true → (s'.writer t).commit.fail = true) ∧
    ((∃ l ∈ ls, l.Loses e t) → (s'.writer t).commit.fail = true) ∧
    ((s.writer t).missing_serials = ∅ → (s'.writer t).commit.failed_serials.Nonempty →
      (s'.writer t).commit.fail = true) := by
  have recalls := recalls_run h t
  refine ⟨recalls.fail, ?_, fun fresh => recalls.missing ?_⟩
  · rintro ⟨l, hl, loses⟩
    exact fail_of_loses h hl loses
  · simp [fresh]

/-- The writers of a paired task of no configurations. -/
def idle_writers : Writers Unit (.twopf ⟨[], .nil⟩) (.zeta_twopf ⟨[], .nil⟩) where
  integration := (⟨⟨false, ∅, ∅⟩, false, false⟩, ⟨[], fun _ => [], fun _ => []⟩)
  postintegration := (⟨false, ∅, ∅⟩, ⟨[], fun _ => [], fun _ => []⟩)

/-- A container cannot be aggregated, and the report after it has no failures, so that its list is not merged. -/
def failed_aggregation : List (MasterStep Unit (.twopf ⟨[], .nil⟩) (.zeta_twopf ⟨[], .nil⟩)) :=
  .aggregate_integration idle_writers.integration.2
      (some (.runtime_exception .DATA_CONTAINER_ERROR "constraint")) ::
    .finished_integration [.success 1 1] :: MasterStep.close_writer .paired

theorem failure_never_forgotten_paired :
    ∃ s', (master Unit (.twopf ⟨[], .nil⟩) (.zeta_twopf ⟨[], .nil⟩) .paired).Run idle_writers failed_aggregation s' ∧
      (s'.writer .integration).commit.fail = true := by
  obtain ⟨s', fold⟩ : ∃ s', failed_aggregation.foldlM (fun s l => MasterStep.next .paired s l) idle_writers = some s' :=
    ⟨_, rfl⟩
  have run : (master Unit (.twopf ⟨[], .nil⟩) (.zeta_twopf ⟨[], .nil⟩) .paired).Run idle_writers failed_aggregation s' :=
    System.run_ofNext_of_foldlM fold
  exact ⟨s', run, (failure_never_forgotten run .integration).2.1 ⟨_, List.mem_cons_self, rfl, rfl, rfl⟩⟩

end CppTransport.Runtime
