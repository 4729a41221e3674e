import CppTransport.Runtime.WaitForTasks

/-!
# Postintegration assignments on one datapipe

A worker processes the assignments of a postintegration task one after another
(`slave_controller::schedule_postintegration`). For each it attaches the datapipe to a content
group, processes the work items, and detaches the datapipe. A `runtime_exception` on the way makes
the assignment fail, and the worker goes on to the next.

## The model

`datapipe` holds what `attach` and `detach` set and clear, and they run in `EStateM`: what was
done before an exception stays done. The steps that may throw are given for each assignment
(`Assignment`): what the finder returns, whether the container can be opened, an exception at each
later `Point`, and what the handler pushes to the batcher before it returns or throws. Pointers to
cache tables are modelled by the path of the container they belong to. Assertions are compiled
out; log texts and statistics are left out.

## What is proved

`unpoisoned_iff`: every assignment begins with the datapipe unattached, with an outcome that
depends only on its own steps, if and only if no assignment with others behind it fails after a
content group has been attached. The handler of the exception does not detach the datapipe, so
after such a failure no later assignment succeeds (`all_fail_of_attached`).
-/

namespace CppTransport.Runtime.Datapipe

open SlaveController (exception exception_type)

def CPPTRANSPORT_DATAMGR_ATTACH_PIPE_ALREADY_ATTACHED : String :=
  "Data manager error: Attempt to attach datapipe, but content group already attached"

def CPPTRANSPORT_DATAMGR_DETACH_PIPE_NOT_ATTACHED : String :=
  "Data manager error: Attempt to detach datapipe, but no content group is attached"

def CPPTRANSPORT_DATAMGR_UNKNOWN_DERIVABLE_TASK : String :=
  "Data manager error: Attempt to attach datapipe to derivable task of unknown type: task name"

/-- What sort of group is attached? -/
inductive attachment_type where
  | none_attached
  | integration_attached
  | postintegration_attached
deriving DecidableEq, Repr

/-- A content group. -/
structure content_group_record where
  /-- Its name. -/
  name : String
  /-- Path to its container. -/
  container : String
deriving DecidableEq, Repr

/-- A datapipe. -/
structure datapipe where
  /-- The container that the data manager has open for it. -/
  manager_handle : Option String := none
  /-- What sort of group is attached. -/
  type : attachment_type := .none_attached
  /-- The integration group attached. -/
  attached_integration_group : Option content_group_record := none
  /-- The postintegration group attached. -/
  attached_postintegration_group : Option content_group_record := none
  /-- The number of fields of the group attached. -/
  N_fields : ℕ := 0
  /-- Attachment points of the caches. -/
  time_config_cache_table : Option String := none
  /-- The same, for configurations of the two-point function. -/
  twopf_kconfig_cache_table : Option String := none
  /-- The same, for configurations of the three-point function. -/
  threepf_kconfig_cache_table : Option String := none
  /-- The same, for statistics. -/
  statistics_cache_table : Option String := none
  /-- The same, for data. -/
  data_cache_table : Option String := none
deriving DecidableEq, Repr

/-- A task whose content a datapipe can be attached to. -/
inductive derivable_task where
  /-- An integration task, with the number of fields of its model. -/
  | integration (name : String) (N_fields : ℕ)
  /-- A postintegration task. -/
  | postintegration (name : String)
  /-- A task of any other type. -/
  | other (name : String)
deriving DecidableEq, Repr

/-- Where an exception may arise once a content group has been attached. -/
inductive Point where
  /-- The number of fields is asked for. -/
  | N_fields
  /-- The cache tables are asked for. -/
  | time_config
  | twopf_kconfig
  | threepf_kconfig
  | statistics
  | data
  /-- The attachment is written to the log. -/
  | log_attach
  /-- The container is closed. -/
  | datapipe_detach
  /-- The detachment is written to the log. -/
  | log_detach
deriving DecidableEq, Repr

/-- The steps of an assignment, with the items pushed to the batcher in `P`. -/
structure Assignment (P : Type) where
  /-- The content group that the finder returns. -/
  find : Except exception content_group_record
  /-- Why its container cannot be opened. -/
  open_container : Option exception
  /-- What is thrown later. -/
  fault : Point → Option exception
  /-- What the handler pushes, and what it throws. -/
  handler : datapipe → List P × Option exception

variable {P : Type}

/-! ### The datapipe -/

namespace datapipe

/-- Is nothing attached? -/
def validate_unattached (p : datapipe) : Bool :=
  p.type = .none_attached && (p.attached_integration_group.isNone && p.attached_postintegration_group.isNone) &&
    (p.time_config_cache_table.isNone && p.twopf_kconfig_cache_table.isNone && p.threepf_kconfig_cache_table.isNone &&
      p.statistics_cache_table.isNone && p.data_cache_table.isNone)

/-- Is a content group attached? -/
def validate_attached (p : datapipe) : Bool :=
  (match p.type with
    | .none_attached => false
    | .integration_attached => p.attached_integration_group.isSome
    | .postintegration_attached => p.attached_postintegration_group.isSome) &&
  (p.time_config_cache_table.isSome && p.twopf_kconfig_cache_table.isSome && p.threepf_kconfig_cache_table.isSome &&
    p.statistics_cache_table.isSome && p.data_cache_table.isSome)

end datapipe

/-- Throw an exception, if there is one. -/
def raise (e : Option exception) : EStateM exception datapipe Unit :=
  match e with
  | none => pure ()
  | some e => throw e

section Methods

variable (a : Assignment P)

/-- Find a content group, and open its container. -/
def datapipe_attach_content : EStateM exception datapipe content_group_record := do
  match a.find with
  | .error e => throw e
  | .ok group =>
    raise a.open_container
    modify fun p => { p with manager_handle := some group.container }
    return group

/-- Attach cache tables. -/
def attach_cache_tables (path : String) : EStateM exception datapipe Unit := do
  raise (a.fault .time_config)
  modify fun p => { p with time_config_cache_table := some path }
  raise (a.fault .twopf_kconfig)
  modify fun p => { p with twopf_kconfig_cache_table := some path }
  raise (a.fault .threepf_kconfig)
  modify fun p => { p with threepf_kconfig_cache_table := some path }
  raise (a.fault .statistics)
  modify fun p => { p with statistics_cache_table := some path }
  raise (a.fault .data)
  modify fun p => { p with data_cache_table := some path }

/-- Attach a content group of the task. -/
def attach (tk : derivable_task) : EStateM exception datapipe String := do
  if !(← get).validate_unattached then
    throw (.runtime_exception .DATAPIPE_ERROR CPPTRANSPORT_DATAMGR_ATTACH_PIPE_ALREADY_ATTACHED)
  match tk with
  | .integration _ N_fields =>
    let group ← datapipe_attach_content a
    modify fun p => { p with attached_integration_group := some group }
    modify fun p => { p with type := .integration_attached }
    raise (a.fault .N_fields)
    modify fun p => { p with N_fields := N_fields }
    attach_cache_tables a group.container
    raise (a.fault .log_attach)
    return group.name
  | .postintegration _ =>
    let group ← datapipe_attach_content a
    modify fun p => { p with attached_postintegration_group := some group }
    modify fun p => { p with type := .postintegration_attached }
    modify fun p => { p with N_fields := 0 }
    attach_cache_tables a group.container
    raise (a.fault .log_attach)
    return group.name
  | .other name =>
    throw (.runtime_exception .DATAPIPE_ERROR (CPPTRANSPORT_DATAMGR_UNKNOWN_DERIVABLE_TASK ++ " '" ++ name ++ "'"))

/-- Detach the content group. -/
def detach : EStateM exception datapipe Unit := do
  if !(← get).validate_attached then
    throw (.runtime_exception .DATAPIPE_ERROR CPPTRANSPORT_DATAMGR_DETACH_PIPE_NOT_ATTACHED)
  raise (a.fault .datapipe_detach)
  raise (a.fault .log_detach)
  modify fun p => { p with
    attached_integration_group := none
    attached_postintegration_group := none
    type := .none_attached
    time_config_cache_table := none
    twopf_kconfig_cache_table := none
    threepf_kconfig_cache_table := none
    statistics_cache_table := none
    data_cache_table := none }

end Methods

/-! ### Assignments -/

/-- How an assignment went. -/
structure Outcome (P : Type) where
  /-- The content group that was attached. -/
  group : String
  /-- What has been pushed to the batcher. -/
  pushed : List P
  /-- What has been thrown. -/
  thrown : Option exception
deriving DecidableEq

/-- The assignment has succeeded. -/
def Outcome.success (o : Outcome P) : Bool := o.thrown.isNone

/-- Perform the task for one assignment: the body of the `try` block. -/
def perform (tk : derivable_task) (p : datapipe) (a : Assignment P) : datapipe × Outcome P :=
  match (attach a tk).run p with
  | .error e p' => (p', ⟨"", [], some e⟩)
  | .ok group p' =>
    let (pushed, thrown) := a.handler p'
    match thrown with
    | some e => (p', ⟨group, pushed, some e⟩)
    | none =>
      match (detach a).run p' with
      | .error e p'' => (p'', ⟨group, pushed, some e⟩)
      | .ok () p'' => (p'', ⟨group, pushed, none⟩)

/-- An assignment that has been handled. -/
structure Handled (P : Type) where
  /-- The assignment. -/
  assignment : Assignment P
  /-- The datapipe when it began. -/
  before : datapipe
  /-- How it went. -/
  outcome : Outcome P

/-- Handle some assignments. Only a `runtime_exception` is caught: any other ends the loop. -/
def schedule_postintegration (tk : derivable_task) (p : datapipe) : List (Assignment P) → List (Handled P)
  | [] => []
  | a :: as =>
    let (p', outcome) := perform tk p a
    ⟨a, p, outcome⟩ ::
      match outcome.thrown with
      | some (.other _) => []
      | _ => schedule_postintegration tk p' as

/-! ### What an assignment does on its own -/

namespace Assignment

variable (a : Assignment P) (tk : derivable_task)

/-- The content group that is found and opened. -/
def content : Except exception content_group_record :=
  match a.find, a.open_container with
  | .error e, _ => .error e
  | .ok _, some e => .error e
  | .ok group, none => .ok group

/-- The content group that is attached. -/
def found : Except exception content_group_record :=
  match tk with
  | .other name =>
    .error (.runtime_exception .DATAPIPE_ERROR (CPPTRANSPORT_DATAMGR_UNKNOWN_DERIVABLE_TASK ++ " '" ++ name ++ "'"))
  | _ => a.content

/-- What is thrown while cache tables are attached. -/
def table_fault : Option exception :=
  [Point.time_config, .twopf_kconfig, .threepf_kconfig, .statistics, .data].findSome? a.fault

/-- What is thrown by `attach` once a content group has been attached. -/
def attach_fault : Option exception :=
  (match tk with
    | .integration _ _ => a.fault .N_fields
    | _ => none).or (a.table_fault.or (a.fault .log_attach))

/-- What is thrown by `detach`. -/
def detach_fault : Option exception := (a.fault .datapipe_detach).or (a.fault .log_detach)

end Assignment

/-- The datapipe, with a content group attached. -/
def attached (tk : derivable_task) (group : content_group_record) : datapipe where
  manager_handle := some group.container
  type :=
    match tk with
    | .integration _ _ => .integration_attached
    | .postintegration _ => .postintegration_attached
    | .other _ => .none_attached
  attached_integration_group :=
    match tk with
    | .integration _ _ => some group
    | _ => none
  attached_postintegration_group :=
    match tk with
    | .postintegration _ => some group
    | _ => none
  N_fields :=
    match tk with
    | .integration _ N_fields => N_fields
    | _ => 0
  time_config_cache_table := some group.container
  twopf_kconfig_cache_table := some group.container
  threepf_kconfig_cache_table := some group.container
  statistics_cache_table := some group.container
  data_cache_table := some group.container

namespace Assignment

variable (a : Assignment P) (tk : derivable_task)

/-- What is thrown once the content group has been attached. -/
def failure (group : content_group_record) : Option exception :=
  (a.attach_fault tk).or ((a.handler (attached tk group)).2.or a.detach_fault)

/-- How the assignment goes on a datapipe that is not attached. -/
def expected : Outcome P :=
  match a.found tk with
  | .error e => ⟨"", [], some e⟩
  | .ok group =>
    match a.attach_fault tk with
    | some e => ⟨"", [], some e⟩
    | none =>
      let (pushed, thrown) := a.handler (attached tk group)
      ⟨group.name, pushed, thrown.or a.detach_fault⟩

/-- The assignment fails after its content group has been attached. -/
def FailsAttached : Prop :=
  ∃ group type what, a.found tk = .ok group ∧ a.failure tk group = some (.runtime_exception type what)

/-- An exception that is not caught comes out of the assignment. -/
def Escapes : Prop :=
  ∃ what, a.found tk = .error (.other what) ∨ ∃ group, a.found tk = .ok group ∧ a.failure tk group = some (.other what)

end Assignment

/-! ### `attach` and `detach` -/

section Attach

variable {a : Assignment P} {tk : derivable_task} {p : datapipe} {group : content_group_record} {e : exception}

@[simp] theorem run_raise_none : (raise none).run p = .ok () p := rfl

@[simp] theorem run_raise_some : (raise (some e)).run p = .error e p := rfl

@[simp] theorem run_throw {α : Type} : (throw e : EStateM exception datapipe α).run p = .error e p := rfl

/-- An unattached datapipe remembers only the container that was open last, and its number of fields. -/
theorem eq_of_unattached (h : p.validate_unattached = true) :
    p = { manager_handle := p.manager_handle, N_fields := p.N_fields } := by
  obtain ⟨handle, type, g₁, g₂, n, t₁, t₂, t₃, t₄, t₅⟩ := p
  simp only [datapipe.validate_unattached, Bool.and_eq_true, decide_eq_true_eq, Option.isNone_iff_eq_none] at h
  obtain ⟨⟨rfl, rfl, rfl⟩, ⟨⟨⟨rfl, rfl⟩, rfl⟩, rfl⟩, rfl⟩ := h
  rfl

theorem not_unattached_of_type (h : p.type ≠ .none_attached) : p.validate_unattached = false := by
  simp [datapipe.validate_unattached, h]

theorem attach_cache_tables_ok {path : String} (h : a.table_fault = none) :
    (attach_cache_tables a path).run p = .ok () { p with
      time_config_cache_table := some path
      twopf_kconfig_cache_table := some path
      threepf_kconfig_cache_table := some path
      statistics_cache_table := some path
      data_cache_table := some path } := by
  simp only [Assignment.table_fault, List.findSome?_eq_none_iff, List.forall_mem_cons] at h
  obtain ⟨h₁, h₂, h₃, h₄, h₅, -⟩ := h
  simp [attach_cache_tables, h₁, h₂, h₃, h₄, h₅]

/-- The program throws, and leaves the type of the attachment as it is. -/
def Throws {α : Type} (x : EStateM exception datapipe α) (e : exception) : Prop :=
  ∀ p, ∃ p', x.run p = .error e p' ∧ p'.type = p.type

theorem throws_raise {α : Type} {k : Unit → EStateM exception datapipe α} : Throws (raise (some e) >>= k) e :=
  fun p => ⟨p, rfl, rfl⟩

theorem Throws.step {α : Type} {g : datapipe → datapipe} {k : EStateM exception datapipe α} {f : Option exception}
    (h : Throws k e) (hf : f = none) (hg : ∀ p, (g p).type = p.type) :
    Throws (do raise f; modify g; k) e := by
  intro p
  obtain ⟨p', hrun, htype⟩ := h (g p)
  exact ⟨p', hf ▸ hrun, htype.trans (hg p)⟩

/-- An exception while cache tables are attached leaves the group attached. -/
theorem throws_attach_cache_tables (path : String) (h : a.table_fault = some e) :
    Throws (attach_cache_tables a path) e := by
  simp only [Assignment.table_fault, List.findSome?_cons] at h
  rw [attach_cache_tables]
  cases h₁ : a.fault .time_config with
  | some e₁ =>
    obtain rfl : e₁ = e := by simpa [h₁] using h
    exact throws_raise
  | none =>
    refine .step ?_ rfl fun _ => rfl
    cases h₂ : a.fault .twopf_kconfig with
    | some e₂ =>
      obtain rfl : e₂ = e := by simpa [h₁, h₂] using h
      exact throws_raise
    | none =>
      refine .step ?_ rfl fun _ => rfl
      cases h₃ : a.fault .threepf_kconfig with
      | some e₃ =>
        obtain rfl : e₃ = e := by simpa [h₁, h₂, h₃] using h
        exact throws_raise
      | none =>
        refine .step ?_ rfl fun _ => rfl
        cases h₄ : a.fault .statistics with
        | some e₄ =>
          obtain rfl : e₄ = e := by simpa [h₁, h₂, h₃, h₄] using h
          exact throws_raise
        | none =>
          refine .step ?_ rfl fun _ => rfl
          cases h₅ : a.fault .data with
          | none => simp [h₁, h₂, h₃, h₄, h₅] at h
          | some e₅ =>
            obtain rfl : e₅ = e := by simpa [h₁, h₂, h₃, h₄, h₅] using h
            exact throws_raise

theorem run_content : (datapipe_attach_content a).run p =
    match a.content with
    | .error e => .error e p
    | .ok group => .ok group { p with manager_handle := some group.container } := by
  rw [datapipe_attach_content, Assignment.content]
  cases hf : a.find with
  | error e => rfl
  | ok group => cases ho : a.open_container <;> rfl

/-- `attach`, when there is no content group. -/
theorem attach_of_not_found (hp : p.validate_unattached = true) (h : a.found tk = .error e) :
    (attach a tk).run p = .error e p := by
  cases tk with
  | other name =>
    obtain rfl := Except.error.inj h
    simp [attach, hp]
  | integration name n =>
    replace h : a.content = .error e := h
    simp [attach, hp, run_content, h]
  | postintegration name =>
    replace h : a.content = .error e := h
    simp [attach, hp, run_content, h]

/-- The end of `attach`. -/
def finish_attach (a : Assignment P) (group : content_group_record) : EStateM exception datapipe String := do
  attach_cache_tables a group.container
  raise (a.fault .log_attach)
  return group.name

/-- `attach`, for an integration task, once the content group has been attached. -/
theorem attach_integration {name : String} {n : ℕ} (hp : p.validate_unattached = true) (h : a.content = .ok group) :
    (attach a (.integration name n)).run p =
      (do raise (a.fault .N_fields)
          modify fun p => { p with N_fields := n }
          finish_attach a group : EStateM exception datapipe String).run { p with
        manager_handle := some group.container
        type := .integration_attached
        attached_integration_group := some group } := by
  simp [-bind_pure_comp, attach, finish_attach, hp, run_content, h]

/-- `attach`, for a postintegration task, once the content group has been attached. -/
theorem attach_postintegration {name : String} (hp : p.validate_unattached = true) (h : a.content = .ok group) :
    (attach a (.postintegration name)).run p =
      (finish_attach a group).run { p with
        manager_handle := some group.container
        type := .postintegration_attached
        attached_postintegration_group := some group
        N_fields := 0 } := by
  simp [-bind_pure_comp, attach, finish_attach, hp, run_content, h]

theorem finish_attach_ok (htables : a.table_fault = none) (hlog : a.fault .log_attach = none) :
    (finish_attach a group).run p = .ok group.name { p with
      time_config_cache_table := some group.container
      twopf_kconfig_cache_table := some group.container
      threepf_kconfig_cache_table := some group.container
      statistics_cache_table := some group.container
      data_cache_table := some group.container } := by
  simp [-bind_pure_comp, finish_attach, attach_cache_tables_ok htables, hlog]

theorem throws_finish_attach (group : content_group_record) (h : a.table_fault.or (a.fault .log_attach) = some e) :
    Throws (finish_attach a group) e := by
  intro p
  cases htables : a.table_fault with
  | some e' =>
    obtain rfl : e' = e := by simpa [htables] using h
    obtain ⟨p', hrun, htype⟩ := throws_attach_cache_tables group.container htables p
    exact ⟨p', by simp [finish_attach, hrun], htype⟩
  | none =>
    replace h : a.fault .log_attach = some e := by simpa [htables] using h
    simp only [finish_attach, EStateM.run_bind, attach_cache_tables_ok htables, h, run_raise_some]
    exact ⟨_, rfl, rfl⟩

/-- `attach`, when nothing goes wrong. -/
theorem attach_ok (hp : p.validate_unattached = true) (h : a.found tk = .ok group) (hf : a.attach_fault tk = none) :
    (attach a tk).run p = .ok group.name (attached tk group) := by
  simp only [Assignment.attach_fault, Option.or_eq_none_iff] at hf
  obtain ⟨hfields, htables, hlog⟩ := hf
  have heq := eq_of_unattached hp
  cases tk with
  | other name => cases h
  | integration name n =>
    replace hfields : a.fault .N_fields = none := hfields
    rw [attach_integration hp h, hfields, heq]
    exact finish_attach_ok htables hlog
  | postintegration name =>
    rw [attach_postintegration hp h, heq]
    exact finish_attach_ok htables hlog

/-- `attach`, when an exception is thrown after the content group has been attached: it stays attached. -/
theorem attach_error (hp : p.validate_unattached = true) (h : a.found tk = .ok group)
    (hf : a.attach_fault tk = some e) :
    ∃ p', (attach a tk).run p = .error e p' ∧ p'.validate_unattached = false := by
  cases tk with
  | other name => cases h
  | integration name n =>
    have throws : Throws (do
        raise (a.fault .N_fields)
        modify fun p => { p with N_fields := n }
        finish_attach a group) e := by
      cases hfields : a.fault .N_fields with
      | some e' =>
        obtain rfl : e' = e := by simpa [Assignment.attach_fault, hfields] using hf
        exact throws_raise
      | none =>
        refine .step (throws_finish_attach group ?_) rfl fun _ => rfl
        simpa [Assignment.attach_fault, hfields] using hf
    obtain ⟨p', hrun, htype⟩ := throws _
    exact ⟨p', (attach_integration hp h).trans hrun, not_unattached_of_type (by simp [htype])⟩
  | postintegration name =>
    obtain ⟨p', hrun, htype⟩ := throws_finish_attach group hf _
    exact ⟨p', (attach_postintegration hp h).trans hrun, not_unattached_of_type (by simp [htype])⟩

/-- A datapipe with something attached cannot be attached. -/
theorem attach_of_attached (hp : p.validate_unattached = false) :
    (attach a tk).run p =
      .error (.runtime_exception .DATAPIPE_ERROR CPPTRANSPORT_DATAMGR_ATTACH_PIPE_ALREADY_ATTACHED) p := by
  simp [attach, hp]

/-- `detach` fails, or leaves nothing attached. -/
theorem detach_attached (h : a.found tk = .ok group) :
    ∃ p', (detach a).run (attached tk group) =
        (match a.detach_fault with
          | some e => .error e p'
          | none => .ok () p') ∧
      (p'.validate_unattached = true ↔ a.detach_fault = none) := by
  have hvalid : (attached tk group).validate_attached = true := by
    cases tk with
    | other name => cases h
    | integration name n => rfl
    | postintegration name => rfl
  have htype : (attached tk group).type ≠ .none_attached := by
    cases tk with
    | other name => cases h
    | integration name n => simp [attached]
    | postintegration name => simp [attached]
  have hunattached := not_unattached_of_type htype
  rw [Assignment.detach_fault]
  cases hclose : a.fault .datapipe_detach with
  | some e => exact ⟨attached tk group, by simp [detach, hvalid, hclose], by simp [hunattached]⟩
  | none =>
    cases hlog : a.fault .log_detach with
    | some e => exact ⟨attached tk group, by simp [detach, hvalid, hclose, hlog], by simp [hunattached]⟩
    | none => exact ⟨_, by simp [detach, hvalid, hclose, hlog]; rfl, by simp [datapipe.validate_unattached]⟩

end Attach

/-! ### Assignments on one datapipe -/

section Schedule

variable {a : Assignment P} {tk : derivable_task} {p : datapipe} {group : content_group_record}
  {as : List (Assignment P)}

/-- **One assignment**: on a datapipe that is not attached it goes as its own steps go, and it leaves the datapipe
unattached unless it fails after a content group has been attached. -/
theorem perform_spec (tk : derivable_task) (a : Assignment P) (hp : p.validate_unattached = true) :
    (perform tk p a).2 = a.expected tk ∧
      ((perform tk p a).1.validate_unattached = true ↔
        ∀ group, a.found tk = .ok group → a.failure tk group = none) := by
  cases hfound : a.found tk with
  | error e => simp [perform, attach_of_not_found hp hfound, Assignment.expected, hfound, hp]
  | ok group =>
    cases hattach : a.attach_fault tk with
    | some e =>
      obtain ⟨p', hrun, hp'⟩ := attach_error hp hfound hattach
      simp [perform, hrun, Assignment.expected, Assignment.failure, hfound, hattach, hp']
    | none =>
      have hrun := attach_ok hp hfound hattach
      obtain ⟨p', hdetach, hp'⟩ := detach_attached hfound
      have hstill : (attached tk group).validate_unattached = false := by
        cases tk with
        | other name => cases hfound
        | integration name n => rfl
        | postintegration name => rfl
      cases hthrown : (a.handler (attached tk group)).2 with
      | some e => simp [perform, hrun, Assignment.expected, Assignment.failure, hfound, hattach, hthrown, hstill]
      | none =>
        cases hdf : a.detach_fault with
        | some e =>
          rw [hdf] at hdetach hp'
          simp [perform, hrun, hdetach, Assignment.expected, Assignment.failure, hfound, hattach, hthrown, hdf, hp']
        | none =>
          rw [hdf] at hdetach hp'
          simp [perform, hrun, hdetach, Assignment.expected, Assignment.failure, hfound, hattach, hthrown, hdf, hp']

/-- The first assignment is handled, and the others if it does not let an exception out. -/
theorem schedule_cons (tk : derivable_task) (p : datapipe) (a : Assignment P) (as : List (Assignment P)) :
    schedule_postintegration tk p (a :: as) = ⟨a, p, (perform tk p a).2⟩ ::
      match (perform tk p a).2.thrown with
      | some (.other _) => []
      | _ => schedule_postintegration tk (perform tk p a).1 as := rfl

/-- What comes out of an assignment that is not attached. -/
theorem expected_thrown (h : a.found tk = .ok group) : (a.expected tk).thrown = a.failure tk group := by
  cases hattach : a.attach_fault tk <;> simp [Assignment.expected, Assignment.failure, h, hattach]

/-- **Poison**: on a datapipe with something attached every assignment fails, and nothing is pushed. -/
theorem all_fail_of_attached (hp : p.validate_unattached = false) :
    ∀ h ∈ schedule_postintegration tk p as, h.outcome =
      ⟨"", [], some (.runtime_exception .DATAPIPE_ERROR CPPTRANSPORT_DATAMGR_ATTACH_PIPE_ALREADY_ATTACHED)⟩ := by
  induction as with
  | nil => simp [schedule_postintegration]
  | cons a as ih =>
    have hperform : perform tk p a = (p,
        ⟨"", [], some (.runtime_exception .DATAPIPE_ERROR CPPTRANSPORT_DATAMGR_ATTACH_PIPE_ALREADY_ATTACHED)⟩) := by
      simp [perform, attach_of_attached hp]
    rw [schedule_cons, hperform]
    exact List.forall_mem_cons.mpr ⟨rfl, ih⟩

/-- Every assignment begins with the datapipe unattached, and goes as it would on a new one. -/
def Unpoisoned (tk : derivable_task) (hs : List (Handled P)) : Prop :=
  ∀ h ∈ hs, h.before.validate_unattached = true ∧ h.outcome = (perform tk {} h.assignment).2

/-- No assignment with others behind it fails after its content group has been attached. (Those after an exception that
is not caught are not handled.) -/
def Contained (tk : derivable_task) : List (Assignment P) → Prop
  | [] => True
  | a :: as => (a.FailsAttached tk → as = []) ∧ (¬ a.Escapes tk → Contained tk as)

theorem escapes_iff : a.Escapes tk ↔ ∃ what, (a.expected tk).thrown = some (.other what) := by
  cases hfound : a.found tk with
  | error e => simp [Assignment.Escapes, Assignment.expected, hfound]
  | ok group => simp [Assignment.Escapes, expected_thrown hfound, hfound]

/-- After an assignment that lets no exception out, the datapipe is attached just if the assignment failed attached. -/
theorem unattached_perform_iff (hp : p.validate_unattached = true) (hescapes : ¬ a.Escapes tk) :
    (perform tk p a).1.validate_unattached = true ↔ ¬ a.FailsAttached tk := by
  rw [(perform_spec tk a hp).2]
  constructor
  · rintro h ⟨group, type, what, hfound, hfailure⟩
    rw [h group hfound] at hfailure
    cases hfailure
  · intro h group hfound
    cases hfailure : a.failure tk group with
    | none => rfl
    | some e =>
      cases e with
      | runtime_exception type what => exact absurd ⟨group, type, what, hfound, hfailure⟩ h
      | other what => exact absurd ⟨what, .inr ⟨group, hfound, hfailure⟩⟩ hescapes

theorem unpoisoned_schedule_iff (hp : p.validate_unattached = true) :
    Unpoisoned tk (schedule_postintegration tk p as) ↔ Contained tk as := by
  induction as generalizing p with
  | nil => simp [schedule_postintegration, Unpoisoned, Contained]
  | cons a as ih =>
    obtain ⟨houtcome, -⟩ := perform_spec tk a hp
    have hnew : (perform tk {} a).2 = a.expected tk := (perform_spec tk a rfl).1
    rw [schedule_cons, Unpoisoned, List.forall_mem_cons, Contained, houtcome, hnew]
    simp only [hp, true_and]
    by_cases hescapes : a.Escapes tk
    · obtain ⟨what, hthrown⟩ := escapes_iff.mp hescapes
      have hfails : ¬ a.FailsAttached tk := by
        rintro ⟨group, type, what', hfound, hfailure⟩
        rw [expected_thrown hfound, hfailure] at hthrown
        cases hthrown
      simp [hthrown, hfails, hescapes]
    · have hrest : (match (a.expected tk).thrown with
          | some (.other _) => []
          | _ => schedule_postintegration tk (perform tk p a).1 as) =
          schedule_postintegration tk (perform tk p a).1 as := by
        split
        · rename_i what hthrown
          exact absurd (escapes_iff.mpr ⟨what, hthrown⟩) hescapes
        · rfl
      rw [hrest]
      have hafter := unattached_perform_iff hp hescapes
      by_cases hfails : a.FailsAttached tk
      · -- the next assignment finds the datapipe attached
        have hattached : (perform tk p a).1.validate_unattached = false := by
          simpa [hfails] using hafter
        cases as with
        | nil => simp [schedule_postintegration, Contained]
        | cons b bs =>
          refine iff_of_false (fun h => ?_) fun h => List.cons_ne_nil b bs (h.1 hfails)
          have hb := (h _ List.mem_cons_self).1
          rw [hattached] at hb
          cases hb
      · simpa [hfails, hescapes, Unpoisoned] using ih (hafter.mpr hfails)

/-- **A failed assignment does not poison later ones** if and only if, of the assignments handled, none but the last
fails after a content group has been attached. -/
theorem unpoisoned_iff (tk : derivable_task) (as : List (Assignment P)) :
    Unpoisoned tk (schedule_postintegration tk {} as) ↔ Contained tk as := unpoisoned_schedule_iff rfl

end Schedule

/-- An assignment whose work items are processed. -/
def smooth : Assignment ℕ where
  find := .ok ⟨"group", "container.sqlite"⟩
  open_container := none
  fault _ := none
  handler _ := ([1, 2], none)

/-- An assignment that fails while it is processed. -/
def failing : Assignment ℕ :=
  { smooth with handler := fun _ => ([1], some (.runtime_exception .DATAPIPE_ERROR "no data")) }

/-- After an assignment that fails, the same work that would succeed fails. -/
theorem failure_poisons :
    ¬ Unpoisoned (.integration "tk" 2) (schedule_postintegration (.integration "tk" 2) {} [failing, smooth]) := by
  intro h
  have before : (perform (.integration "tk" 2) {} failing).1.validate_unattached = true :=
    (h _ (List.mem_cons_of_mem _ (List.mem_singleton_self _))).1
  exact absurd before (by decide)

end CppTransport.Runtime.Datapipe
