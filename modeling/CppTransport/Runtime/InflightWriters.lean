import CppTransport.Runtime.ContentNames
import Mathlib.Data.List.Destutter
import Mathlib.Data.Finset.Basic

/-!
# In-flight writers

A writer that has been registered has a row in the table of its kind. After a crash the rows are
enumerated, and a new writer is made from each, which is committed in place of the first.

## The model

* `Writer`: what a commit reads of a writer of each kind;
* `Row`: the values that are bound to the columns of a table, by number, with the conversions of
  SQLite between them and the types of the program;
* `register_writer`, the three `enumerate_inflight_*` functions, `recovery_writer`;
* `close_writer`: the record of the content group that a commit stores.

A column that holds a path holds its text; here it holds the path.

## What is proved

* `recovery_writer_register`: the writer that comes back from a row;
* `restores_iff`: a recovered writer commits the same as the one that was registered if and only
  if that had no tags and, for a postintegration, was paired and not seeded.
-/

namespace CppTransport.Runtime.Inflight

open Library ContentNames

/-- A path, as its components. -/
abbrev Path := List String

/-- The paths of a writer, relative to the root of the repository. -/
structure PathsGroup where
  output : Path
  /-- The container, where there is one. -/
  data : Path
  log : Path
  temp : Path
deriving DecidableEq

/-- What writers of one kind have that others have not. -/
inductive Attributes where
  /-- The seed group is there if the writer `is_seeded`. -/
  | integration (workgroup_number : BitVec 32) (seed_group : Option String)
      (collect_statistics collect_initial_conditions : Bool)
  | postintegration (paired : Bool) (parent_group : String) (seed_group : Option String)
  | output (content_groups : List String)
deriving DecidableEq

/-- A writer. -/
structure Writer where
  name : String
  task_name : String
  tags : List String
  creation_time : Timestamp
  paths : PathsGroup
  missing_serials : Finset ℕ
  attributes : Attributes
deriving DecidableEq

/-- The table of content groups in which a commit stores its group. -/
def Attributes.table : Attributes → GroupTable
  | .integration .. => .integration
  | .postintegration .. => .postintegration
  | .output .. => .output

/-- The seed group of a writer, which has to be a content group of the same kind. -/
def Attributes.seed_group : Attributes → Option String
  | .integration _ seed_group _ _ => seed_group
  | .postintegration _ _ seed_group => seed_group
  | .output _ => none

/-! ### Committing -/

/-- The payload of a content group, up to its metadata. -/
inductive Payload where
  | integration (container : Path) (workgroup_number : BitVec 32) (seed_group : Option String)
      (statistics initial_conditions : Bool)
  | postintegration (container : Path) (paired : Bool) (parent_group : String) (seed_group : Option String)
  | output
deriving DecidableEq

/-- The record of a content group. -/
structure ContentGroup where
  name : String
  task : String
  output : Path
  tags : List String
  creation_time : Timestamp
  failed_serials : Finset ℕ
  content_groups_summary : List String
  payload : Payload
deriving DecidableEq

/-- `sort` and `unique`. -/
def sort_unique (tags : List String) : List String := (tags.mergeSort fun a b => a ≤ b).destutter (· ≠ ·)

/-- The record that `close_integration_writer`, `close_postintegration_writer` and `close_derived_content_writer`
commit. -/
def close_writer (writer : Writer) : ContentGroup where
  name := writer.name
  task := writer.task_name
  output := writer.paths.output
  tags := sort_unique writer.tags
  creation_time := writer.creation_time
  failed_serials := writer.missing_serials
  content_groups_summary :=
    match writer.attributes with
    | .output content_groups => content_groups
    | _ => []
  payload :=
    match writer.attributes with
    | .integration workgroup_number seed_group statistics initial_conditions =>
      .integration writer.paths.data workgroup_number seed_group statistics initial_conditions
    | .postintegration paired parent_group seed_group =>
      .postintegration writer.paths.data paired parent_group seed_group
    | .output _ => .output

/-! ### Rows -/

/-- A value in a column. -/
inductive SqlValue where
  | null
  | integer (i : ℤ)
  | text (s : String)
  | path (p : Path)
deriving DecidableEq

namespace SqlValue

/-- `sqlite3_bind_int` of a flag. -/
def of_bool (b : Bool) : SqlValue := .integer (if b then 1 else 0)

/-- `sqlite3_column_text`. -/
def column_text : SqlValue → Option String
  | null => none
  | integer i => some (toString i)
  | text s => some s
  | path p => some ("/".intercalate p)

/-- `sqlite3_column_int`; no column of integers holds a text. -/
def column_int : SqlValue → ℤ
  | integer i => i
  | _ => 0

/-- The path that is made from `sqlite3_column_text`. -/
def column_path : SqlValue → Path
  | path p => p
  | _ => []

end SqlValue

/-- A row, as the list of its values. -/
abbrev Row := List SqlValue

namespace Row

variable (row : Row)

def column_text (n : ℕ) : Option String := (row.getD n .null).column_text

def column_int (n : ℕ) : ℤ := (row.getD n .null).column_int

def column_path (n : ℕ) : Path := (row.getD n .null).column_path

/-- The primary key of the three tables. -/
def content_group : String := (Row.column_text row 0).getD ""

end Row

/-- The row of a writer: `register_integration_writer`, `register_postintegration_writer` and
`register_derived_content_writer`. -/
def Writer.row (writer : Writer) : Row :=
  match writer.attributes with
  | .integration workgroup_number seed_group collect_statistics collect_initial_conditions =>
    [.text writer.name, .text writer.task_name, .path writer.paths.output, .path writer.paths.data,
      .path writer.paths.log, .path writer.paths.temp, .integer workgroup_number.toInt, .of_bool seed_group.isSome,
      (seed_group.map .text).getD .null, .of_bool collect_statistics, .of_bool collect_initial_conditions]
  | .postintegration paired parent_group seed_group =>
    [.text writer.name, .text writer.task_name, .path writer.paths.output, .path writer.paths.data,
      .path writer.paths.log, .path writer.paths.temp, .of_bool paired, .text parent_group, .of_bool seed_group.isSome,
      (seed_group.map .text).getD .null]
  | .output _ =>
    [.text writer.name, .text writer.task_name, .path writer.paths.output, .path writer.paths.log,
      .path writer.paths.temp]

/-- `inflight_integration`, `inflight_postintegration` or `inflight_derived_content`: what is read of a row. -/
structure InflightWriter where
  content_group : String
  task_name : String
  paths : PathsGroup
  attributes : Attributes

/-- `enumerate_inflight_integrations`, for one row. -/
def read_inflight_integration (row : Row) : InflightWriter :=
  let is_seeded := row.column_int 7 ≠ 0
  { content_group := (row.column_text 0).getD ""
    task_name := (row.column_text 1).getD ""
    paths := ⟨row.column_path 2, row.column_path 3, row.column_path 4, row.column_path 5⟩
    attributes := .integration (.ofInt 32 (row.column_int 6)) (if is_seeded then (row.column_text 8).getD "" else none)
      (row.column_int 9 ≠ 0) (row.column_int 10 ≠ 0) }

/-- `enumerate_inflight_postintegrations`, for one row. -/
def read_inflight_postintegration (row : Row) : InflightWriter :=
  let is_seeded := row.column_int 8 ≠ 0
  { content_group := (row.column_text 0).getD ""
    task_name := (row.column_text 1).getD ""
    paths := ⟨row.column_path 2, row.column_path 3, row.column_path 4, row.column_path 5⟩
    -- the seed group is read from the column that says whether there is one
    attributes := .postintegration (row.column_int 6 ≠ 0) ((row.column_text 7).getD "")
      (if is_seeded then (row.column_text 8).getD "" else none) }

/-- `enumerate_inflight_derived_content`, for one row. -/
def read_inflight_derived_content (row : Row) : InflightWriter where
  content_group := (row.column_text 0).getD ""
  task_name := (row.column_text 1).getD ""
  paths := ⟨row.column_path 2, [], row.column_path 3, row.column_path 4⟩
  attributes := .output []

/-- One row of the table of a kind. -/
def read_inflight : GroupTable → Row → InflightWriter
  | .integration => read_inflight_integration
  | .postintegration => read_inflight_postintegration
  | .output => read_inflight_derived_content

/-- `get_integration_recovery_writer` and its siblings, before the container has been checked. -/
def InflightWriter.recovery_writer (data : InflightWriter) (now : Timestamp) : Writer where
  name := data.content_group
  task_name := data.task_name
  tags := []
  creation_time := now
  paths := data.paths
  missing_serials := ∅
  attributes := data.attributes

/-! ### The database -/

/-- The tables of content groups, the names of the tasks, and the tables of writers. -/
structure Database where
  tables : Tables
  tasks : GroupTable → List String
  writers : GroupTable → List Row

namespace Database

variable (db : Database)

/-- `register_writer`; nothing is registered if a foreign or primary key is violated. -/
def register_writer (writer : Writer) : Option Database :=
  let table := writer.attributes.table
  if writer.name ∈ db.tables.reserved.map (·.name) ∧ writer.task_name ∈ db.tasks table ∧
      ∀ seed ∈ writer.attributes.seed_group, seed ∈ (db.tables.groups table).map (·.name) then
    (Rows.insert Row.content_group (db.writers table) writer.row).map fun rows =>
      { db with writers := Function.update db.writers table rows }
  else none

/-- `enumerate_inflight_integrations` and its siblings. -/
def enumerate_inflight (table : GroupTable) : List InflightWriter := (db.writers table).map (read_inflight table)

/-- The writer that recovery makes for a content group. -/
def recovery_writer (table : GroupTable) (name : String) (now : Timestamp) : Option Writer :=
  ((db.enumerate_inflight table).find? fun data => data.content_group = name).map (·.recovery_writer now)

end Database

/-! ### What comes back -/

/-- What comes back from the row of a writer: a seed group of a postintegration has become the flag that says that
there is one. -/
def Attributes.restored : Attributes → Attributes
  | .integration workgroup_number seed_group statistics initial_conditions =>
    .integration workgroup_number seed_group statistics initial_conditions
  | .postintegration paired parent_group seed_group => .postintegration paired parent_group (seed_group.map fun _ => "1")
  | .output _ => .output []

/-- The paths that a row has columns for. -/
def Writer.restored_paths (writer : Writer) : PathsGroup :=
  match writer.attributes with
  | .output _ => { writer.paths with data := [] }
  | _ => writer.paths

variable {writer : Writer} {db db' : Database}

@[simp] theorem content_group_row (writer : Writer) : Row.content_group writer.row = writer.name := by
  rw [Writer.row]
  split <;> rfl

section Columns

attribute [local simp] read_inflight Attributes.table Row.column_text Row.column_int Row.column_path SqlValue.of_bool
  SqlValue.column_int SqlValue.column_text SqlValue.column_path Writer.restored_paths Attributes.restored

theorem repr_one : Int.repr 1 = "1" := by decide

/-- **The columns**: each column comes back as what was bound to it, but for one. -/
theorem read_inflight_row (writer : Writer) :
    read_inflight writer.attributes.table writer.row =
      ⟨writer.name, writer.task_name, writer.restored_paths, writer.attributes.restored⟩ := by
  cases h : writer.attributes with
  | integration workgroup_number seed_group statistics initial_conditions =>
    cases seed_group <;> cases statistics <;> cases initial_conditions <;>
      simp [Writer.row, h, read_inflight_integration]
  | postintegration paired parent_group seed_group =>
    cases seed_group <;> cases paired <;> simp [Writer.row, h, read_inflight_postintegration, repr_one]
  | output content_groups => simp [Writer.row, h, read_inflight_derived_content]

end Columns

/-- **Recovery**: what comes back from the row of a writer that has been registered. -/
theorem recovery_writer_register (h : db.register_writer writer = some db') (now : Timestamp) :
    db'.recovery_writer writer.attributes.table writer.name now =
      some ⟨writer.name, writer.task_name, [], now, writer.restored_paths, ∅, writer.attributes.restored⟩ := by
  rw [Database.register_writer] at h
  split_ifs at h
  obtain ⟨rows, hrows, rfl⟩ := Option.map_eq_some_iff.mp h
  rw [Rows.insert, content_group_row] at hrows
  split_ifs at hrows with used
  cases hrows
  -- no other row has its name
  have others : ∀ row ∈ db.writers writer.attributes.table,
      (read_inflight writer.attributes.table row).content_group ≠ writer.name := by
    intro row hrow eq
    refine used (List.mem_map.mpr ⟨row, hrow, ?_⟩)
    rw [← eq]
    cases writer.attributes.table <;> rfl
  have rows : (Function.update db.writers writer.attributes.table
      (db.writers writer.attributes.table ++ [writer.row])) writer.attributes.table =
        db.writers writer.attributes.table ++ [writer.row] := Function.update_self ..
  simp only [Database.recovery_writer, Database.enumerate_inflight, rows, List.map_append, List.find?_append]
  rw [List.find?_eq_none.mpr (by simpa using others)]
  simp [read_inflight_row, InflightWriter.recovery_writer]

/-! ### What is committed -/

/-- The writer at the time of its registration: the parent group of a postintegration that is not paired is set when
its workers have finished. -/
def Writer.at_registration (writer : Writer) : Writer :=
  { writer with
    attributes :=
      match writer.attributes with
      | .postintegration false _ seed_group => .postintegration false "" seed_group
      | attributes => attributes }

/-- The records agree on the task, tags and paths, on the workgroup, on pairing, parent group and seed group, and on
the flags for statistics and initial conditions. -/
structure SameProvenance (a b : ContentGroup) : Prop where
  task : a.task = b.task
  tags : a.tags = b.tags
  output : a.output = b.output
  payload : a.payload = b.payload

/-- What a commit of the recovered writer records agrees with what a commit of the writer would have recorded. -/
def Restores (db' : Database) (writer : Writer) (now : Timestamp) : Prop :=
  ∃ recovered, db'.recovery_writer writer.attributes.table writer.name now = some recovered ∧
    SameProvenance (close_writer recovered) (close_writer writer)

/-- There are no tags; a postintegration is paired, or has no parent group, and has no seed group but `"1"`. -/
def Restorable (writer : Writer) : Prop :=
  writer.tags = [] ∧
    match writer.attributes with
    | .postintegration paired parent_group seed_group =>
      (paired = true ∨ parent_group = "") ∧ ∀ seed ∈ seed_group, seed = "1"
    | _ => True

theorem sort_unique_eq_nil {tags : List String} : sort_unique tags = [] ↔ tags = [] := by
  rw [sort_unique, List.destutter_eq_nil]
  constructor
  · intro h
    have := congrArg List.length h
    simpa [List.length_mergeSort] using this
  · rintro rfl
    exact List.mergeSort_nil

@[simp] theorem table_at_registration (writer : Writer) :
    writer.at_registration.attributes.table = writer.attributes.table := by
  rw [Writer.at_registration]
  cases writer.attributes with
  | postintegration paired => cases paired <;> rfl
  | _ => rfl

/-- **Restoration**: for every writer that has been registered, beside whatever others there are. -/
theorem restores_iff (h : db.register_writer writer.at_registration = some db') (now : Timestamp) :
    Restores db' writer now ↔ Restorable writer := by
  have recovered := recovery_writer_register h now
  rw [table_at_registration] at recovered
  have no_tags : sort_unique [] = [] := sort_unique_eq_nil.mpr rfl
  constructor
  · rintro ⟨_, found, same⟩
    cases recovered.symm.trans found
    refine ⟨sort_unique_eq_nil.mp (same.tags.symm.trans no_tags), ?_⟩
    have payload := same.payload
    cases ha : writer.attributes with
    | integration => trivial
    | output => trivial
    | postintegration paired parent_group seed_group =>
      cases paired <;> cases seed_group <;>
        simp_all [close_writer, Writer.at_registration, Attributes.restored, Writer.restored_paths]
  · rintro ⟨tags, attributes⟩
    have paths : (writer.at_registration.restored_paths).output = writer.paths.output := by
      rw [Writer.restored_paths]
      split <;> rfl
    refine ⟨_, recovered, rfl, no_tags.trans (sort_unique_eq_nil.mpr tags).symm, paths, ?_⟩
    cases ha : writer.attributes with
    | integration =>
      simp [close_writer, Writer.at_registration, Attributes.restored, Writer.restored_paths, ha]
    | output => simp [close_writer, Writer.at_registration, Attributes.restored, ha]
    | postintegration paired parent_group seed_group =>
      cases paired <;> cases seed_group <;>
        simp_all [close_writer, Writer.at_registration, Attributes.restored, Writer.restored_paths]

/-! ### A seeded writer -/

/-- A minute past midnight. -/
def start : Timestamp := ⟨"20160102T000100", by decide⟩

/-- A postintegration of a pair that takes over what an earlier one has found. -/
def seeded : Writer where
  name := "20160102T000100"
  task_name := "zeta"
  tags := []
  creation_time := start
  paths := ⟨["output", "zeta", "20160102T000100"], ["data.sqlite"], ["logs"], ["temp"]⟩
  missing_serials := ∅
  attributes := .postintegration true "20160102T000100-paired" (some "20160101T000001")

/-- The database when it is registered. -/
def seeded_db : Database where
  tables := ⟨[⟨"20160102T000100", "zeta", start⟩], fun _ => [⟨"20160101T000001", "zeta", Tables.midnight⟩]⟩
  tasks := fun _ => ["zeta"]
  writers := fun _ => []

/-- There is a database that has registered it. -/
theorem register_seeded : ∃ db', seeded_db.register_writer seeded.at_registration = some db' := by
  rw [← Option.isSome_iff_exists]
  decide

/-- It comes back with another seed group. -/
theorem not_restores_seeded : ∃ db', seeded_db.register_writer seeded.at_registration = some db' ∧
    ¬ Restores db' seeded start := by
  obtain ⟨db', h⟩ := register_seeded
  refine ⟨db', h, ?_⟩
  rintro ⟨_, found, same⟩
  cases (recovery_writer_register h start).symm.trans found
  exact absurd same.payload (by decide)

/-- The same without a seed group. -/
def unseeded : Writer := { seeded with attributes := .postintegration true "20160102T000100-paired" none }

/-- It comes back as it was. -/
theorem restores_unseeded : ∃ db', seeded_db.register_writer unseeded.at_registration = some db' ∧
    (Restores db' unseeded start ↔ Restorable unseeded) := by
  have h : ∃ db', seeded_db.register_writer unseeded.at_registration = some db' := by
    rw [← Option.isSome_iff_exists]
    decide
  obtain ⟨db', h⟩ := h
  exact ⟨db', h, restores_iff h start⟩

end CppTransport.Runtime.Inflight
