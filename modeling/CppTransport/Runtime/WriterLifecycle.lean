import CppTransport.Library.DirectoryTree
import CppTransport.Runtime.InflightWriters

/-!
# The life of a writer

A writer that has been registered is committed or not, and then destroyed; if it has not been
committed, the destructor aborts it. To commit is to store a content group, to abort is to move
the output to the directory for failures; either way the writer is deregistered, and all of it is
one transaction.

## The model

* `Repository`: the database, the content groups that the record of each task lists, and the disk;
* `close_*_writer`, `abort_*_writer`, `deregister_writer`: what the callbacks do inside their
  transaction;
* `transaction`: a transaction that throws, or whose commit fails, is rolled back in the database
  and in the records, but not on the disk;
* `finish`: the end of a writer.

## What is proved

* `commit_writer_iff`, `abort_iff`: when the callbacks return, and with what;
* `lawful_iff`: when a writer ends as it should.
-/

namespace CppTransport.Runtime.Lifecycle

open Library ContentNames Inflight

def CPPTRANSPORT_REPO_TASKOUTPUT_LEAF : String := "output"
def CPPTRANSPORT_REPO_FAILURE_LEAF : String := "failed"

def CPPTRANSPORT_REPO_RECORD_CAST_FAILED : String := "Internal error: dynamic cast of repository record failed"
def CPPTRANSPORT_REPO_OUTPUT_EXISTS : String := "Repository error: attempt to insert duplicate output record"
def CPPTRANSPORT_REPO_COMMIT_OUTPUT_NOT_RESERVED : String :=
  "Repository error: attempt to commit content group for unreserved name"
def CPPTRANSPORT_REPO_CANT_WRITE_FAILURE_PATH : String :=
  "Repository error: Error while attempting to move content group to failure cache"

/-- What is thrown. -/
inductive Raised where
  | repository_error (message : String)
  | repository_backend_error (message : String)
  | record_not_found (name : String)
  | transaction_error
  | filesystem_error
deriving DecidableEq

/-- `query_task`: the kind of the task. -/
def query_task (db : Database) (name : String) : Except Raised GroupTable :=
  if name ∈ db.tasks .integration then .ok .integration
  else if name ∈ db.tasks .postintegration then .ok .postintegration
  else if name ∈ db.tasks .output then .ok .output
  else .error (.record_not_found name)

/-- A repository. -/
structure Repository where
  db : Database
  /-- The content groups that are listed in the record of a task. -/
  content_groups : GroupTable → String → List String
  disk : DirectoryTree String

/-- What a transaction meets. -/
structure Env where
  /-- It gets the lock, and can begin. -/
  opens : Bool
  /-- It still has the lock when it is committed, and `COMMIT` succeeds. -/
  commits : Bool

namespace Repository

variable (r : Repository)

/-! ### Committing -/

/-- `commit_first`, for the record of a content group. -/
def commit_first (table : GroupTable) (group : ContentGroup) : Except Raised Repository :=
  if 0 < r.db.tables.count_groups group.name then
    .error (.repository_error (CPPTRANSPORT_REPO_OUTPUT_EXISTS ++ " '" ++ group.name ++ "'"))
  else
    match r.db.tables.store_group table ⟨group.name, group.task, group.creation_time⟩ with
    | some tables => .ok { r with db := { r.db with tables } }
    | none =>
      .error (.repository_backend_error (CPPTRANSPORT_REPO_COMMIT_OUTPUT_NOT_RESERVED ++ " '" ++ group.name ++ "'"))

/-- `add_new_content_group`, and the commit of the record of the task. -/
def add_new_content_group (table : GroupTable) (task name : String) : Repository :=
  { r with
    content_groups :=
      Function.update r.content_groups table
        (Function.update (r.content_groups table) task (r.content_groups table task ++ [name])) }

/-- What closing a writer of a task of some kind does to the repository. -/
def close_task_writer (table : GroupTable) (writer : Inflight.Writer) : Except Raised Repository := do
  if (← query_task r.db writer.task_name) ≠ table then
    throw (.repository_error CPPTRANSPORT_REPO_RECORD_CAST_FAILED)
  let r ← r.commit_first table (Inflight.close_writer writer)
  return r.add_new_content_group table writer.task_name writer.name

def close_integration_writer (writer : Inflight.Writer) : Except Raised Repository :=
  r.close_task_writer .integration writer

def close_postintegration_writer (writer : Inflight.Writer) : Except Raised Repository :=
  r.close_task_writer .postintegration writer

def close_derived_content_writer (writer : Inflight.Writer) : Except Raised Repository :=
  r.close_task_writer .output writer

/-- The function that closes a writer of its kind. -/
def close (writer : Inflight.Writer) : Except Raised Repository :=
  match writer.attributes with
  | .integration .. => r.close_integration_writer writer
  | .postintegration .. => r.close_postintegration_writer writer
  | .output _ => r.close_derived_content_writer writer

end Repository

/-! ### Aborting -/

/-- The directory for failures of the task of a writer. -/
def fail_path (writer : Inflight.Writer) : Path := [CPPTRANSPORT_REPO_FAILURE_LEAF, writer.task_name]

/-- Where the output of a writer is moved. -/
def abs_dest (writer : Inflight.Writer) : Path := fail_path writer ++ [writer.paths.output.getLastD ""]

section Disk

variable (disk : DirectoryTree String) (writer : Inflight.Writer)

/-- The directory for failures is made if it does not exist. -/
def make_fail_path : Option (DirectoryTree String) := disk.ensure (fail_path writer)

/-- The output is moved. -/
def move_output : DirectoryTree String × Option Raised :=
  match disk.rename writer.paths.output (abs_dest writer) with
  | some disk => (disk, none)
  | none => (disk, some (.repository_error CPPTRANSPORT_REPO_CANT_WRITE_FAILURE_PATH))

/-- What aborting a writer does, unless it is one of a postintegration. -/
def abort_task_writer : DirectoryTree String × Option Raised :=
  match make_fail_path disk writer with
  | none => (disk, some .filesystem_error)
  | some disk =>
    if fail_path writer ∉ disk.directories then
      (disk, some (.repository_error CPPTRANSPORT_REPO_CANT_WRITE_FAILURE_PATH))
    else move_output disk writer

def abort_integration_writer : DirectoryTree String × Option Raised := abort_task_writer disk writer

def abort_derived_content_writer : DirectoryTree String × Option Raised := abort_task_writer disk writer

/-- Here the test is the other way round: it throws if the path is a directory. -/
def abort_postintegration_writer : DirectoryTree String × Option Raised :=
  match make_fail_path disk writer with
  | none => (disk, some .filesystem_error)
  | some disk =>
    if fail_path writer ∈ disk.directories then
      (disk, some (.repository_error CPPTRANSPORT_REPO_CANT_WRITE_FAILURE_PATH))
    else move_output disk writer

/-- The function that aborts a writer of its kind. -/
def abort : DirectoryTree String × Option Raised :=
  match writer.attributes with
  | .integration .. => abort_integration_writer disk writer
  | .postintegration .. => abort_postintegration_writer disk writer
  | .output _ => abort_derived_content_writer disk writer

end Disk

namespace Repository

variable (r : Repository)

/-! ### Deregistering -/

/-- `deregister_writer`; a reserved name to which a writer of another kind refers cannot be withdrawn. -/
def deregister_writer (table : GroupTable) (name : String) : Except Raised Repository :=
  let writers :=
    Function.update r.db.writers table ((r.db.writers table).filter fun row => Row.content_group row ≠ name)
  if [.integration, .postintegration, .output].any fun table => name ∈ (writers table).map Row.content_group then
    .error (.repository_backend_error name)
  else .ok { r with db := { r.db with writers, tables := r.db.tables.deregister_content_group name } }

/-! ### Callbacks -/

/-- A transaction with a body. -/
def transaction (env : Env) (body : Repository → Repository × Option Raised) : Repository × Option Raised :=
  if env.opens then
    match body r with
    | (r', none) => if env.commits then (r', none) else ({ r with disk := r'.disk }, some .transaction_error)
    | (r', some e) => ({ r with disk := r'.disk }, some e)
  else (r, some .transaction_error)

/-- What has no effect where it throws. -/
def attempt (f : Repository → Except Raised Repository) : Repository × Option Raised :=
  match f r with
  | .ok r => (r, none)
  | .error e => (r, some e)

/-- `repository_*_writer_commit::operator()`. -/
def commit_writer (writer : Inflight.Writer) (env : Env) : Repository × Option Raised :=
  r.transaction env fun r => r.attempt fun r => do
    let r ← r.close writer
    r.deregister_writer writer.attributes.table writer.name

/-- `repository_*_writer_abort::operator()`. -/
def abort_writer (writer : Inflight.Writer) (env : Env) : Repository × Option Raised :=
  r.transaction env fun r =>
    match abort r.disk writer with
    | (disk, none) => { r with disk }.attempt fun r => r.deregister_writer writer.attributes.table writer.name
    | (disk, some e) => ({ r with disk }, some e)

/-- `commit` of a writer, where it is called, and then its destructor: whether it has been committed, the
repository, and what leaves the destructor. -/
def finish (writer : Inflight.Writer) (commit : Option Env) (destruction : Env) : Bool × Repository × Option Raised :=
  match commit.map (r.commit_writer writer) with
  | some (r', none) => (true, r', none)
  | some (r', some _) => (false, r'.abort_writer writer destruction)
  | none => (false, r.abort_writer writer destruction)

/-! ### How a writer should end -/

/-- Nothing is in flight under the name. -/
structure Forgets (name : String) : Prop where
  reserved : name ∉ r.db.tables.reserved.map (·.name)
  writers : ∀ table, name ∉ (r.db.writers table).map Row.content_group

/-- One content group has been added, which its task lists once. -/
structure Committed (r' : Repository) (writer : Inflight.Writer) : Prop where
  added : ∃ row, row.name = writer.name ∧ row.task = writer.task_name ∧
    r'.db.tables.groups = Function.update r.db.tables.groups writer.attributes.table
      (r.db.tables.groups writer.attributes.table ++ [row])
  once : ∀ table, ((r'.db.tables.groups table).map (·.name)).count writer.name =
    if table = writer.attributes.table then 1 else 0
  listed : (r'.content_groups writer.attributes.table writer.task_name).count writer.name = 1
  forgotten : r'.Forgets writer.name

/-- The output has been moved below the directory for failures, and no content group has been added. -/
structure Aborted (r' : Repository) (writer : Inflight.Writer) : Prop where
  moved : r.disk.Moved r'.disk writer.paths.output [CPPTRANSPORT_REPO_FAILURE_LEAF, writer.task_name, writer.name]
  groups : r'.db.tables.groups = r.db.tables.groups
  forgotten : r'.Forgets writer.name

/-- The end of the writer is as it should be. -/
def Lawful (writer : Inflight.Writer) (commit : Option Env) (destruction : Env) : Prop :=
  match r.finish writer commit destruction with
  | (true, r', _) => r.Committed r' writer
  | (false, r', thrown) => thrown = none ∧ r.Aborted r' writer

/-- The keys of the tables, and tasks that list content groups only. -/
structure Consistent : Prop where
  reserved : Rows.Keyed (·.name) r.db.tables.reserved
  groups : ∀ table, Rows.Keyed (·.name) (r.db.tables.groups table)
  listed : ∀ table task, ∀ name ∈ r.content_groups table task, name ∈ (r.db.tables.groups table).map (·.name)

/-- The writer is registered, as one of its kind only, and has its output. -/
structure Registered (writer : Inflight.Writer) : Prop extends r.Consistent where
  reserved_name : writer.name ∈ r.db.tables.reserved.map (·.name)
  row : writer.name ∈ (r.db.writers writer.attributes.table).map Row.content_group
  alone : ∀ table ≠ writer.attributes.table, writer.name ∉ (r.db.writers table).map Row.content_group
  task : query_task r.db writer.task_name = .ok writer.attributes.table
  output : writer.paths.output = [CPPTRANSPORT_REPO_TASKOUTPUT_LEAF, writer.task_name, writer.name]
  directory : writer.paths.output ∈ r.disk.directories

/-- No content group has the name. -/
def Unused (name : String) : Prop := ∀ table, name ∉ (r.db.tables.groups table).map (·.name)

/-- Nothing stands at the path, or an empty directory. -/
def Free (disk : DirectoryTree String) (p : Path) : Prop := ∀ q ∈ disk.paths, p <+: q → q = p ∧ q ∈ disk.directories

/-- The writer is not one of a postintegration, and its output can be moved. -/
structure Discardable (writer : Inflight.Writer) : Prop where
  kind : writer.attributes.table ≠ .postintegration
  failed : [CPPTRANSPORT_REPO_FAILURE_LEAF] ∉ r.disk.files
  failed_task : fail_path writer ∉ r.disk.files
  room : Free r.disk (fail_path writer ++ [writer.name])

variable {r} {r' : Repository} {writer : Inflight.Writer} {env : Env}

/-! ### Committing -/

section Counts

variable {ρ : Type} {column : ρ → String} {rows : List ρ} {value : String}

/-- In a column that is a key, a value is there once or not at all. -/
theorem internal_count_of_keyed (h : Rows.Keyed column rows) :
    Tables.internal_count rows column value = if value ∈ rows.map column then 1 else 0 := by
  have count : (rows.filter fun row => column row = value).length = (rows.map column).count value := by
    rw [List.count, List.countP_map, ← List.countP_eq_length_filter]
    refine List.countP_congr fun row _ => ?_
    simp
  rw [Tables.internal_count, count, h.count]
  split_ifs <;> rfl

end Counts

/-- The count says whether some content group has the name. -/
theorem count_groups_pos_iff {tables : Tables} (keyed : ∀ table, Rows.Keyed (·.name) (tables.groups table))
    (name : String) : 0 < tables.count_groups name ↔ ∃ table, name ∈ (tables.groups table).map (·.name) := by
  simp only [Tables.count_groups, internal_count_of_keyed (keyed _)]
  constructor
  · intro pos
    by_contra none
    simp only [not_exists] at none
    simp [none] at pos
  · rintro ⟨table, ht⟩
    cases table <;> simp only [ht, if_true] <;> split_ifs <;> omega

theorem Consistent.count_groups_pos_iff (h : r.Consistent) (name : String) :
    0 < r.db.tables.count_groups name ↔ ¬ r.Unused name := by
  rw [Repository.count_groups_pos_iff h.groups, Unused]
  simp only [not_forall, not_not]

/-- What closing a writer leaves: a content group more, which the task lists. -/
def closed (r : Repository) (writer : Inflight.Writer) : Repository where
  db := { r.db with
    tables := { r.db.tables with
      groups := Function.update r.db.tables.groups writer.attributes.table
        (r.db.tables.groups writer.attributes.table ++ [⟨writer.name, writer.task_name, writer.creation_time⟩]) } }
  content_groups := Function.update r.content_groups writer.attributes.table
    (Function.update (r.content_groups writer.attributes.table) writer.task_name
      (r.content_groups writer.attributes.table writer.task_name ++ [writer.name]))
  disk := r.disk

theorem close_eq (r : Repository) (writer : Inflight.Writer) :
    r.close writer = r.close_task_writer writer.attributes.table writer := by
  rw [close]
  cases h : writer.attributes <;> rfl

theorem close_of_kind (h : query_task r.db writer.task_name = .ok writer.attributes.table) :
    r.close writer = (r.commit_first writer.attributes.table (Inflight.close_writer writer)).map fun r =>
      r.add_new_content_group writer.attributes.table writer.task_name writer.name := by
  rw [close_eq, close_task_writer, h]
  simp only [bind, Except.bind, ne_eq, not_true_eq_false, if_false]
  cases r.commit_first writer.attributes.table (Inflight.close_writer writer) <;> rfl

/-- **Closing**: a name that a content group has is refused. -/
theorem Registered.close_writer (h : r.Registered writer) :
    (r.Unused writer.name → r.close writer = .ok (closed r writer)) ∧
      (¬ r.Unused writer.name → ∃ e, r.close writer = .error e) := by
  have refused := h.count_groups_pos_iff writer.name
  have name : (Inflight.close_writer writer).name = writer.name := rfl
  rw [close_of_kind h.task, commit_first, name]
  constructor
  · intro unused
    have stored : r.db.tables.store_group writer.attributes.table
        ⟨writer.name, writer.task_name, writer.creation_time⟩ = some (closed r writer).db.tables := by
      have one : Tables.internal_count r.db.tables.reserved (·.name) writer.name = 1 := by
        rw [internal_count_of_keyed h.reserved, if_pos h.reserved_name]
      rw [Tables.store_group, if_pos one, Rows.insert, if_neg (unused _)]
      rfl
    rw [if_neg (by simpa [refused] using unused)]
    simp only [Inflight.close_writer, stored]
    rfl
  · intro used
    exact ⟨_, by rw [if_pos (refused.mpr used)]; rfl⟩

/-- What deregistering a writer leaves. -/
def deregistered (r : Repository) (table : GroupTable) (name : String) : Repository where
  db := { r.db with
    writers := Function.update r.db.writers table ((r.db.writers table).filter fun row => Row.content_group row ≠ name)
    tables := r.db.tables.deregister_content_group name }
  content_groups := r.content_groups
  disk := r.disk

theorem mem_writers_deregistered {table table' : GroupTable} {name name' : String} :
    name' ∈ ((deregistered r table name).db.writers table').map Row.content_group ↔
      name' ∈ (r.db.writers table').map Row.content_group ∧ (table' = table → name' ≠ name) := by
  by_cases ht : table' = table
  · subst ht
    simp only [deregistered, Function.update_self, List.mem_map, List.mem_filter, decide_eq_true_eq]
    constructor
    · rintro ⟨row, ⟨hrow, ne⟩, rfl⟩
      exact ⟨⟨row, hrow, rfl⟩, fun _ => ne⟩
    · rintro ⟨⟨row, hrow, rfl⟩, ne⟩
      exact ⟨row, ⟨hrow, ne trivial⟩, rfl⟩
  · simp [deregistered, ht]

/-- Nothing is left of a name that only one writer has. -/
theorem forgets_deregistered {table : GroupTable} {name : String}
    (alone : ∀ table' ≠ table, name ∉ (r.db.writers table').map Row.content_group) :
    (deregistered r table name).Forgets name where
  reserved := by simp [deregistered, Tables.deregister_content_group]
  writers table' h := by
    obtain ⟨hmem, ne⟩ := mem_writers_deregistered.mp h
    exact ne (by_contra fun ht => alone table' ht hmem) rfl

/-- **Deregistering**: a name that only one writer has is withdrawn. -/
theorem deregister_writer_eq {table : GroupTable} {name : String}
    (alone : ∀ table' ≠ table, name ∉ (r.db.writers table').map Row.content_group) :
    r.deregister_writer table name = .ok (deregistered r table name) := by
  have forgotten := (forgets_deregistered alone).writers
  have unused : ¬ [GroupTable.integration, .postintegration, .output].any fun table' =>
      name ∈ ((deregistered r table name).db.writers table').map Row.content_group := by
    rw [List.any_eq_true]
    rintro ⟨table', -, h⟩
    exact forgotten table' (by simpa using h)
  exact if_neg unused

/-- **Committing** -/
theorem Registered.commit_writer (h : r.Registered writer) (env : Env) :
    (env.opens = true ∧ env.commits = true ∧ r.Unused writer.name →
      r.commit_writer writer env = (deregistered (closed r writer) writer.attributes.table writer.name, none)) ∧
    (¬ (env.opens = true ∧ env.commits = true ∧ r.Unused writer.name) →
      ∃ e, r.commit_writer writer env = (r, some e)) := by
  have alone : ∀ table' ≠ writer.attributes.table,
      writer.name ∉ ((closed r writer).db.writers table').map Row.content_group := h.alone
  rw [Repository.commit_writer, transaction]
  by_cases opens : env.opens = true
  · by_cases unused : r.Unused writer.name
    · rw [if_pos opens]
      simp only [h.close_writer.1 unused, attempt, bind, Except.bind, deregister_writer_eq alone]
      cases commits : env.commits <;> simp [opens, unused, closed, deregistered]
    · obtain ⟨e, he⟩ := h.close_writer.2 unused
      simp [attempt, he, bind, Except.bind, opens, unused]
  · simp [opens]

/-! ### Aborting -/

theorem abs_dest_eq (h : writer.paths.output = [CPPTRANSPORT_REPO_TASKOUTPUT_LEAF, writer.task_name, writer.name]) :
    abs_dest writer = fail_path writer ++ [writer.name] := by
  simp [abs_dest, h]

/-- Nothing is below the directories for output and for failures at once. -/
theorem output_apart (h : writer.paths.output = [CPPTRANSPORT_REPO_TASKOUTPUT_LEAF, writer.task_name, writer.name])
    (p : Path) : ¬ writer.paths.output <+: CPPTRANSPORT_REPO_FAILURE_LEAF :: p := by
  rw [h]
  intro below
  exact absurd (List.cons_prefix_cons.mp below).1 (by decide)

variable {disk disk' : DirectoryTree String}

/-- The directory for failures is there, or can be made, unless a file is in the way. -/
theorem make_fail_path_iff (disk : DirectoryTree String) (writer : Inflight.Writer) :
    (∃ disk', make_fail_path disk writer = some disk' ∧ fail_path writer ∈ disk'.directories) ↔
      [CPPTRANSPORT_REPO_FAILURE_LEAF] ∉ disk.files ∧ fail_path writer ∉ disk.files := by
  constructor
  · rintro ⟨disk', made, directory⟩
    refine ⟨(DirectoryTree.ensure_isSome_iff.mp (Option.isSome_of_eq_some made)) _ ?_ (by simp [fail_path]), ?_⟩
    · exact List.prefix_append _ [writer.task_name]
    · obtain ⟨files, -⟩ := DirectoryTree.ensure_eq_some made
      exact files ▸ disk'.not_mem_files directory
  · rintro ⟨failed, no_file⟩
    have made : (disk.ensure (fail_path writer)).isSome := by
      refine DirectoryTree.ensure_isSome_iff.mpr fun q above ne => ?_
      have : q ∈ (fail_path writer).inits := (List.mem_inits ..).mpr above
      simp only [fail_path, List.inits, List.map_cons, List.map_nil, List.mem_cons, List.not_mem_nil, or_false] at this
      rcases this with rfl | rfl | rfl
      · exact disk.not_mem_files disk.root
      · exact failed
      · exact absurd rfl ne
    obtain ⟨disk', made⟩ := Option.isSome_iff_exists.mp made
    obtain ⟨-, ⟨file, -⟩ | ⟨-, directories⟩⟩ := DirectoryTree.ensure_eq_some made
    · exact absurd file no_file
    · exact ⟨disk', made, (directories _).mpr (.inr List.prefix_rfl)⟩

/-- Nothing else changes on the disk. -/
theorem make_fail_path_eq_some (h : make_fail_path disk writer = some disk')
    (directory : fail_path writer ∈ disk'.directories) :
    disk'.files = disk.files ∧ ∀ q, q ∈ disk'.directories ↔ q ∈ disk.directories ∨ q <+: fail_path writer := by
  obtain ⟨files, ⟨file, -⟩ | ⟨-, directories⟩⟩ := DirectoryTree.ensure_eq_some h
  · exact absurd (files ▸ file) (disk'.not_mem_files directory)
  · exact ⟨files, directories⟩

/-- The output can be moved where there is room for it. -/
theorem movable_iff_free (h : make_fail_path disk writer = some disk') (made : fail_path writer ∈ disk'.directories)
    (output : writer.paths.output = [CPPTRANSPORT_REPO_TASKOUTPUT_LEAF, writer.task_name, writer.name])
    (directory : writer.paths.output ∈ disk.directories) :
    disk'.Movable writer.paths.output (abs_dest writer) ↔ Free disk (fail_path writer ++ [writer.name]) := by
  obtain ⟨files, directories⟩ := make_fail_path_eq_some h made
  have apart : ∀ q, fail_path writer ++ [writer.name] <+: q → ¬ q <+: fail_path writer := by
    intro q below above
    have := (below.trans above).length_le
    rw [List.length_append, List.length_singleton] at this
    omega
  have same : ∀ q, fail_path writer ++ [writer.name] <+: q → (q ∈ disk'.paths ↔ q ∈ disk.paths) := by
    intro q below
    rw [disk.mem_paths, disk'.mem_paths, files, directories, or_iff_left (apart q below)]
  rw [abs_dest_eq output]
  constructor
  · intro movable q hq below
    have eq := movable.eq_of_below ((same q below).mpr hq) below
    subst eq
    refine ⟨rfl, ?_⟩
    rcases movable.room with none | ⟨-, empty, -⟩ | ⟨file, -⟩
    · exact absurd ((same _ below).mpr hq) none
    · exact ((directories _).mp empty).resolve_right (apart _ below)
    · exact absurd (files ▸ file) (disk.not_mem_files directory)
  · intro free
    have output_there : writer.paths.output ∈ disk'.directories := (directories _).mpr (.inl directory)
    refine ⟨disk'.mem_paths.mpr (.inl output_there), ?_, output_apart output _, ?_⟩
    · simpa using made
    · by_cases there : fail_path writer ++ [writer.name] ∈ disk.paths
      · refine .inr (.inl ⟨output_there, (directories _).mpr (.inl (free _ there List.prefix_rfl).2), ?_⟩)
        exact fun q hq below => (free q ((same q below).mp hq) below).1
      · exact .inl fun hmem => there ((same _ List.prefix_rfl).mp hmem)

theorem output_ne_abs_dest
    (output : writer.paths.output = [CPPTRANSPORT_REPO_TASKOUTPUT_LEAF, writer.task_name, writer.name]) :
    writer.paths.output ≠ abs_dest writer := by
  intro eq
  have below : writer.paths.output <+: abs_dest writer := by
    rw [← eq]
  exact output_apart output _ below

theorem move_output_iff (ne : writer.paths.output ≠ abs_dest writer) :
    (move_output disk writer).2 = none ↔ disk.Movable writer.paths.output (abs_dest writer) := by
  rw [← disk.rename_isSome_iff ne, move_output]
  cases disk.rename writer.paths.output (abs_dest writer) <;> simp

theorem moved_of_move_output (ne : writer.paths.output ≠ abs_dest writer) (h : (move_output disk writer).2 = none) :
    disk.Moved (move_output disk writer).1 writer.paths.output (abs_dest writer) := by
  rw [move_output] at h ⊢
  cases renamed : disk.rename writer.paths.output (abs_dest writer) with
  | none => simp [renamed] at h
  | some disk' =>
    obtain ⟨movable, rfl⟩ := DirectoryTree.movable_of_rename renamed ne
    exact movable.moved

/-- **Moving the output**, unless the writer is one of a postintegration. -/
theorem abort_task_writer_iff
    (output : writer.paths.output = [CPPTRANSPORT_REPO_TASKOUTPUT_LEAF, writer.task_name, writer.name])
    (directory : writer.paths.output ∈ disk.directories) :
    (abort_task_writer disk writer).2 = none ↔ ([CPPTRANSPORT_REPO_FAILURE_LEAF] ∉ disk.files ∧
      fail_path writer ∉ disk.files) ∧ Free disk (fail_path writer ++ [writer.name]) := by
  rw [← make_fail_path_iff disk writer, abort_task_writer]
  cases made : make_fail_path disk writer with
  | none => simp
  | some disk₁ =>
    by_cases there : fail_path writer ∈ disk₁.directories
    · have room := movable_iff_free made there output directory
      simp [there, move_output_iff (output_ne_abs_dest output), room]
    · simp [there]

/-- What is moved. -/
theorem moved_of_abort_task_writer
    (output : writer.paths.output = [CPPTRANSPORT_REPO_TASKOUTPUT_LEAF, writer.task_name, writer.name])
    (h : (abort_task_writer disk writer).2 = none) :
    disk.Moved (abort_task_writer disk writer).1 writer.paths.output (fail_path writer ++ [writer.name]) := by
  rw [abort_task_writer] at h ⊢
  cases made : make_fail_path disk writer with
  | none => simp [made] at h
  | some disk₁ =>
    by_cases there : fail_path writer ∈ disk₁.directories
    · simp only [made, there, not_true_eq_false, if_false] at h ⊢
      have moved := abs_dest_eq output ▸ moved_of_move_output (output_ne_abs_dest output) h
      obtain ⟨files, directories⟩ := make_fail_path_eq_some made there
      -- what is moved has not been made for it
      refine ⟨fun q => (moved.directories q).trans ?_, fun q => files ▸ moved.files q, moved.left⟩
      exact (directories _).trans (or_iff_left fun above =>
        output_apart output [writer.task_name] ((List.prefix_append _ q).trans above))
    · simp [made, there] at h

/-- A writer of a postintegration is never moved: the path has to be a directory to be moved to. -/
theorem abort_postintegration_writer_throws (disk : DirectoryTree String)
    (output : writer.paths.output = [CPPTRANSPORT_REPO_TASKOUTPUT_LEAF, writer.task_name, writer.name]) :
    (abort_postintegration_writer disk writer).2 ≠ none := by
  rw [abort_postintegration_writer]
  cases made : make_fail_path disk writer with
  | none => simp
  | some disk₁ =>
    by_cases there : fail_path writer ∈ disk₁.directories
    · simp [there]
    · simp only [there, if_false, ne_eq, move_output_iff (output_ne_abs_dest output)]
      intro movable
      have above := movable.above
      rw [abs_dest_eq output, List.dropLast_concat] at above
      exact there above

theorem abort_eq (disk : DirectoryTree String) (writer : Inflight.Writer) :
    abort disk writer = if writer.attributes.table = .postintegration then abort_postintegration_writer disk writer
      else abort_task_writer disk writer := by
  rw [abort]
  cases writer.attributes <;> rfl

/-- **Aborting** -/
theorem Registered.abort_iff (h : r.Registered writer) : (abort r.disk writer).2 = none ↔ r.Discardable writer := by
  rw [abort_eq]
  split_ifs with kind
  · exact iff_of_false (abort_postintegration_writer_throws r.disk h.output) fun d => d.kind kind
  · rw [abort_task_writer_iff h.output h.directory]
    exact ⟨fun ⟨⟨failed, task⟩, room⟩ => ⟨kind, failed, task, room⟩, fun d => ⟨⟨d.failed, d.failed_task⟩, d.room⟩⟩

/-- The transaction of a destructor that aborts. -/
theorem Registered.abort_writer (h : r.Registered writer) (env : Env) :
    ((r.abort_writer writer env).2 = none ∧ r.Aborted (r.abort_writer writer env).1 writer) ↔
      r.Discardable writer ∧ env.opens = true ∧ env.commits = true := by
  rw [← h.abort_iff, Repository.abort_writer, transaction]
  by_cases opens : env.opens = true
  · rcases aborted : abort r.disk writer with ⟨disk, _ | e⟩
    · have alone : ∀ table' ≠ writer.attributes.table,
          writer.name ∉ (({ r with disk } : Repository).db.writers table').map Row.content_group := h.alone
      simp only [opens, if_true, attempt, deregister_writer_eq alone, true_and]
      cases commits : env.commits with
      | false => simp
      | true =>
        simp only [if_true, true_and, iff_true]
        refine ⟨?_, rfl, forgets_deregistered alone⟩
        have kind := (h.abort_iff.mp (by rw [aborted])).kind
        rw [abort_eq, if_neg kind] at aborted
        have moved := moved_of_abort_task_writer h.output (congrArg Prod.snd aborted)
        rwa [aborted] at moved
    · simp [opens]
  · simp [opens]

/-- A writer that is committed is committed as it should be. -/
theorem Registered.committed (h : r.Registered writer) (unused : r.Unused writer.name) :
    r.Committed (deregistered (closed r writer) writer.attributes.table writer.name) writer where
  added := ⟨_, rfl, rfl, rfl⟩
  once table := by
    by_cases ht : table = writer.attributes.table
    · subst ht
      simp [deregistered, closed, Tables.deregister_content_group, List.count_eq_zero_of_not_mem (unused _)]
    · simp [deregistered, closed, Tables.deregister_content_group, List.count_eq_zero_of_not_mem (unused table), ht]
  listed := by
    have new : writer.name ∉ r.content_groups writer.attributes.table writer.task_name :=
      fun listed => unused _ (h.listed _ _ _ listed)
    simp [deregistered, closed, List.count_eq_zero_of_not_mem new]
  forgotten := forgets_deregistered h.alone

theorem Registered.lawful_none_iff (h : r.Registered writer) (destruction : Env) :
    r.Lawful writer none destruction ↔
      r.Discardable writer ∧ destruction.opens = true ∧ destruction.commits = true := by
  rw [← h.abort_writer destruction]
  rfl

/-- **The life of a writer**: it ends as it should if it is committed, or if it can be discarded. -/
theorem lawful_iff (h : r.Registered writer) (commit : Option Env) (destruction : Env) :
    r.Lawful writer commit destruction ↔
      (∃ env, commit = some env ∧ env.opens = true ∧ env.commits = true ∧ r.Unused writer.name) ∨
        (r.Discardable writer ∧ destruction.opens = true ∧ destruction.commits = true) := by
  cases commit with
  | none => simpa using h.lawful_none_iff destruction
  | some env =>
    rw [Lawful, finish]
    by_cases ok : env.opens = true ∧ env.commits = true ∧ r.Unused writer.name
    · rw [Option.map_some, (h.commit_writer env).1 ok]
      exact iff_of_true (h.committed ok.2.2) (.inl ⟨env, rfl, ok⟩)
    · obtain ⟨e, he⟩ := (h.commit_writer env).2 ok
      rw [Option.map_some, he]
      refine (h.abort_writer destruction).trans (or_iff_right ?_).symm
      rintro ⟨_, eq, ok'⟩
      cases eq
      exact ok ok'

/-! ### A postintegration that is not committed -/

/-- A disk with the output of one writer. -/
def seeded_disk : DirectoryTree String where
  directories := {[], ["output"], ["output", "zeta"], ["output", "zeta", "20160102T000100"]}
  files := ∅
  root := by decide
  disjoint := by decide
  parent := by
    intro p a h
    have above : ∀ q ∈ ({[], ["output"], ["output", "zeta"], ["output", "zeta", "20160102T000100"]} : Finset Path) ∪ ∅,
        q.dropLast ∈ ({[], ["output"], ["output", "zeta"], ["output", "zeta", "20160102T000100"]} : Finset Path) := by
      decide
    simpa using above _ h

/-- A repository in which the writer is registered. -/
def seeded_repository : Repository where
  db := { seeded_db with
    tasks := fun table => if table = .postintegration then ["zeta"] else []
    writers := fun table => if table = .postintegration then [seeded.row] else [] }
  content_groups := fun table task => if table = .postintegration ∧ task = "zeta" then ["20160101T000001"] else []
  disk := seeded_disk

theorem registered_seeded : seeded_repository.Registered seeded where
  reserved := List.nodup_singleton _
  groups _ := List.nodup_singleton _
  listed table task name h := by
    simp only [seeded_repository] at h
    split_ifs at h
    · cases List.mem_singleton.mp h
      exact List.mem_singleton.mpr rfl
    · cases h
  reserved_name := by decide
  row := by decide
  alone table ht := by cases table <;> first | decide | exact absurd rfl ht
  task := rfl
  output := rfl
  directory := by decide

/-- When it is destroyed without having been committed, an exception leaves the destructor. -/
theorem not_lawful_seeded : seeded_repository.Registered seeded ∧ ¬ seeded_repository.Lawful seeded none ⟨true, true⟩ :=
  ⟨registered_seeded, fun lawful => ((registered_seeded.lawful_none_iff _).mp lawful).1.kind rfl⟩

/-- When it is committed, all is well. -/
theorem lawful_seeded : seeded_repository.Lawful seeded (some ⟨true, true⟩) ⟨true, true⟩ :=
  (lawful_iff registered_seeded _ _).mpr (.inl ⟨_, rfl, rfl, rfl, fun table => by cases table <;> decide⟩)

end Repository

end CppTransport.Runtime.Lifecycle
