import CppTransport.Library.Exceptions
import CppTransport.Library.Staging
import CppTransport.Library.Transition
import CppTransport.Runtime.WriterLifecycle

/-!
# Updates of records

The records of tasks and of content groups are documents. An update inside a transaction reads the
document as it is, and journals a new version, which takes its place when the transaction is
committed. The rows of the database change at once, and the output of a content group that is
deleted is moved to the trash with the journal.

## The model

* `Records`, `State`: the database, the documents, and the disk;
* `Pending`: a transaction that is under way, with the versions that are staged and its journal;
* `Update`, `Pending.perform`: what is done through a transaction;
* `commit`: the journal, and then the database. Where a record of the journal throws, the database
  is rolled back. The lock is taken to be kept;
* `Update.apply`: what an update is for, on the records themselves.

## What is proved

* `lawful_iff_permitted`: a transaction does what its updates are for if and only if it updates no
  document twice, and what it deletes can be moved to the trash;
* `history_lawful_iff`: the same along every history.
-/

namespace CppTransport.Runtime.RecordUpdates

open Library Library.System ContentNames Inflight Lifecycle

def CPPTRANSPORT_REPO_TRASH_LEAF : String := "trash"

def CPPTRANSPORT_REPO_DESERIALIZE_CANT_OPEN : String := "Repository error: could not locate database record for"
def CPPTRANSPORT_REPO_GROUP_IS_LOCKED : String := "Repository error: attempt to delete locked content group"
def CPPTRANSPORT_REPO_DELETE_OUTPUT_FAIL : String := "Repository error: failed to delete content group record"
def CPPTRANSPORT_REPO_EXTRACT_DERIVED_NOT_INTGRTN : String :=
  "Repository error: attempt to enumerate derived contents for non-integration task"
def CPPTRANSPORT_REPO_EXTRACT_DERIVED_NOT_POSTINT : String :=
  "Repository error: attempt to enumerate derived contents for non-postintegration task"

/-! ### Documents -/

/-- What a document is the record of. -/
inductive Document where
  | task (name : String)
  | group (name : String)
deriving DecidableEq

/-- Where the document is. -/
def Document.path : Document → String
  | .task name => "repository/tasks/" ++ name ++ ".json"
  | .group name => "repository/output/" ++ name ++ ".json"

/-- What the record of a content group says. -/
structure GroupRecord where
  output : Path
  locked : Bool
  tags : List String
  notes : List String
deriving DecidableEq

/-- The record of a task lists its content groups. -/
abbrev Document.Content : Document → Type
  | .task _ => List String
  | .group _ => GroupRecord

/-- A change of the record of a content group. -/
inductive Edit where
  | add_tag (tag : String)
  | remove_tag (tag : String)
  | add_note (note : String)
  | remove_note (number : ℕ)
  | set_lock_status (locked : Bool)

/-- `add_tag`, `remove_tag`, `add_note`, `remove_note`, `set_lock_status`. -/
def GroupRecord.edit (group : GroupRecord) : Edit → GroupRecord
  | .add_tag tag => { group with tags := sort_unique (group.tags ++ [tag]) }
  | .remove_tag tag => { group with tags := group.tags.erase tag }
  | .add_note note => { group with notes := group.notes ++ [note] }
  | .remove_note number => { group with notes := group.notes.eraseIdx number }
  | .set_lock_status locked => { group with locked }

/-- Several changes. -/
def GroupRecord.edit_all (group : GroupRecord) (edits : List Edit) : GroupRecord := edits.foldl edit group

/-- The database and the documents. -/
structure Records where
  db : Database
  documents : ∀ d : Document, Option d.Content

/-- A repository between transactions. -/
structure State extends Records where
  disk : DirectoryTree String

/-! ### Inside a transaction -/

/-- A test that may throw. -/
def throw_if (c : Prop) [Decidable c] (e : Raised) : Except Raised Unit := if c then .error e else .ok ()

/-- A record of the journal. -/
inductive Entry where
  | emplace (d : Document)
  | move (source target : Path)
deriving DecidableEq

/-- A transaction that is under way. -/
structure Pending where
  db : Database
  documents : Staging Document.Content
  disk : DirectoryTree String
  journal : List Entry

/-- The document that is put in place. -/
def Entry.document : Entry → Option Document
  | emplace d => some d
  | move .. => none

/-- What is moved, and where. -/
def Entry.ends : Entry → Option (Path × Path)
  | emplace _ => none
  | move source target => some (source, target)

/-- What is done through a transaction. -/
inductive Update where
  /-- A content group is tagged, noted or locked. -/
  | edit (table : GroupTable) (name : String) (edits : List Edit)
  | delete (table : GroupTable) (name : String)
  /-- A writer is closed. -/
  | store (table : GroupTable) (row : GroupRow) (tags notes : List String)
  | reserve (tk : String) (time : Timestamp) (suffix : Suffix)
  | deregister (name : String)

/-- The seed groups of the writers of a kind, in column 8 or 9. -/
def seeds (db : Database) : GroupTable → List String
  | .integration => (db.writers .integration).filterMap fun row => Row.column_text row 8
  | .postintegration => (db.writers .postintegration).filterMap fun row => Row.column_text row 9
  | .output => []

/-- `delete_group`; a group that is the seed of a writer cannot be deleted. -/
def delete_group (db : Database) (table : GroupTable) (name task : String) : Option Database :=
  if name ∈ seeds db table then none else (db.tables.delete_group table name task).map fun tables => { db with tables }

/-- The message when a task is not of the kind of a content group; that of an output task is another's. -/
def extract_derived_not : GroupTable → String
  | .integration => CPPTRANSPORT_REPO_EXTRACT_DERIVED_NOT_INTGRTN
  | .postintegration => CPPTRANSPORT_REPO_EXTRACT_DERIVED_NOT_POSTINT
  | .output => CPPTRANSPORT_REPO_EXTRACT_DERIVED_NOT_POSTINT

/-- The directory in the trash for a task. -/
def trash_path (task : String) : Path := [CPPTRANSPORT_REPO_TRASH_LEAF, task]

/-- Where the output of a writer is. -/
def output_path (task name : String) : Path := [CPPTRANSPORT_REPO_TASKOUTPUT_LEAF, task, name]

namespace Pending

variable (p : Pending)

/-- The document as it is; what is staged is not read. -/
def deserialize_JSON_document (d : Document) : Except Raised d.Content :=
  match p.documents.docs d with
  | some c => .ok c
  | none => .error (.repository_error (CPPTRANSPORT_REPO_DESERIALIZE_CANT_OPEN ++ " '" ++ d.path ++ "'"))

/-- A new version of a document. -/
def commit_JSON_document (d : Document) (c : d.Content) : Pending :=
  { p with documents := p.documents.stage d c, journal := p.journal ++ [.emplace d] }

/-- The row of a content group. -/
def find_group (table : GroupTable) (name : String) : Except Raised GroupRow :=
  match (p.db.tables.groups table).find? fun row => row.name = name with
  | some row => .ok row
  | none => .error (.record_not_found name)

/-- `query_integration_content` and its siblings. -/
def query_content (table : GroupTable) (name : String) : Except Raised GroupRecord := do
  let _ ← p.find_group table name
  p.deserialize_JSON_document (.group name)

def edit_content (table : GroupTable) (name : String) (edits : List Edit) : Except Raised Pending := do
  let group ← p.query_content table name
  return p.commit_JSON_document (.group name) (group.edit_all edits)

/-- The end of `delete_content`: the output is to be moved to the trash, if that is a directory. -/
def journal_trash (task name : String) (output : Path) : Except Raised Pending :=
  match p.disk.ensure (trash_path task) with
  | none => .error .filesystem_error
  | some disk =>
    if trash_path task ∈ disk.directories then
      .ok { p with disk, journal := p.journal ++ [.move output (trash_path task ++ [name])] }
    else .ok { p with disk }

/-- `delete_integration_content` and its siblings, for the task that the group belongs to. -/
def delete_content (table : GroupTable) (name : String) : Except Raised Pending := do
  let row ← p.find_group table name
  let kind ← query_task p.db row.task
  throw_if (kind ≠ table) (.repository_error (extract_derived_not table ++ " '" ++ name ++ "'"))
  let content_groups ← p.deserialize_JSON_document (.task row.task)
  let group ← p.query_content table name
  throw_if group.locked (.repository_error (CPPTRANSPORT_REPO_GROUP_IS_LOCKED ++ " '" ++ name ++ "'"))
  let p := p.commit_JSON_document (.task row.task) (List.erase content_groups name)
  match delete_group p.db table name row.task with
  | some db => ({ p with db } : Pending).journal_trash row.task name group.output
  | none => .error (.repository_backend_error (CPPTRANSPORT_REPO_DELETE_OUTPUT_FAIL ++ " '" ++ name ++ "'"))

/-- `close_integration_writer` and its siblings. -/
def store_content (table : GroupTable) (row : GroupRow) (tags notes : List String) : Except Raised Pending := do
  let kind ← query_task p.db row.task
  throw_if (kind ≠ table) (.repository_error CPPTRANSPORT_REPO_RECORD_CAST_FAILED)
  let content_groups ← p.deserialize_JSON_document (.task row.task)
  throw_if (0 < p.db.tables.count_groups row.name)
    (.repository_error (CPPTRANSPORT_REPO_OUTPUT_EXISTS ++ " '" ++ row.name ++ "'"))
  match p.db.tables.store_group table row with
  | some tables =>
    let p := { p with db := { p.db with tables } }
    let p := p.commit_JSON_document (.group row.name) ⟨output_path row.task row.name, false, sort_unique tags, notes⟩
    .ok (p.commit_JSON_document (.task row.task) (List.append content_groups [row.name]))
  | none => .error (.repository_backend_error (CPPTRANSPORT_REPO_COMMIT_OUTPUT_NOT_RESERVED ++ " '" ++ row.name ++ "'"))

/-- The name of a new content group is reserved. -/
def reserve_content_name (tk : String) (time : Timestamp) (suffix : Suffix) : Except Raised Pending :=
  match p.db.tables.reserve_content_name tk time suffix with
  | some (_, tables) => .ok { p with db := { p.db with tables } }
  | none => .error (.repository_backend_error tk)

/-- One update. -/
def perform : Update → Except Raised Pending
  | .edit table name edits => p.edit_content table name edits
  | .delete table name => p.delete_content table name
  | .store table row tags notes => p.store_content table row tags notes
  | .reserve tk time suffix => p.reserve_content_name tk time suffix
  | .deregister name => .ok { p with db := { p.db with tables := p.db.tables.deregister_content_group name } }

/-! ### Committing -/

/-- `journal_record::commit`. -/
def commit_record : Entry → Option Pending
  | .emplace d => (p.documents.emplace d).map fun documents => { p with documents }
  | .move source target => (p.disk.rename source target).map fun disk => { p with disk }

/-- The journal, up to the first record that throws. -/
def commit_journal (p : Pending) : List Entry → Pending × Option Raised
  | [] => (p, none)
  | e :: es =>
    match p.commit_record e with
    | some p' => p'.commit_journal es
    | none => (p, some .filesystem_error)

end Pending

namespace State

variable (s : State)

/-- A transaction begins. -/
def begin : Pending := ⟨s.db, ⟨s.documents, fun _ => none⟩, s.disk, []⟩

/-- Several updates. -/
def perform_all (tx : List Update) : Except Raised Pending := tx.foldlM (fun p u => p.perform u) s.begin

/-- `transaction_manager::commit`, and the rollback of the destructor if it throws. -/
def commit (p : Pending) : State × Option Raised :=
  match p.commit_journal p.journal with
  | (p, none) => (⟨⟨p.db, p.documents.docs⟩, p.disk⟩, none)
  | (p, some e) => (⟨⟨s.db, p.documents.docs⟩, p.disk⟩, some e)

/-- A transaction through which all updates were made. -/
def next (tx : List Update) : Option State :=
  match s.perform_all tx with
  | .ok p => some (s.commit p).1
  | .error _ => none

end State

/-! ### What the updates are for -/

/-- A document is changed, if it is there. -/
def modify (documents : ∀ d : Document, Option d.Content) (d : Document) (f : d.Content → d.Content) :
    ∀ d : Document, Option d.Content :=
  Function.update documents d ((documents d).map f)

/-- What an update is for. -/
def Update.apply (r : Records) : Update → Records
  | .edit _ name edits =>
    { r with documents := modify r.documents (.group name) fun group => GroupRecord.edit_all group edits }
  | .delete table name =>
    match (r.db.tables.groups table).find? fun row => row.name = name with
    | some row =>
      { db := (delete_group r.db table name row.task).getD r.db
        documents := modify r.documents (.task row.task) fun content_groups => List.erase content_groups name }
    | none => r
  | .store table row tags notes =>
    { db := { r.db with tables := (r.db.tables.store_group table row).getD r.db.tables }
      documents := modify (Function.update r.documents (.group row.name) (some
        (⟨output_path row.task row.name, false, sort_unique tags, notes⟩ : GroupRecord))) (.task row.task)
          fun content_groups => List.append content_groups [row.name] }
  | .reserve tk time suffix =>
    { r with db := { r.db with
        tables := ((r.db.tables.reserve_content_name tk time suffix).map (·.2)).getD r.db.tables } }
  | .deregister name => { r with db := { r.db with tables := r.db.tables.deregister_content_group name } }

/-- The updates of a transaction, one after the other. -/
def apply_all (r : Records) (tx : List Update) : Records := tx.foldl Update.apply r

/-! ### When a transaction should go well -/

/-- The documents that an update is about. -/
def Update.documents (r : Records) : Update → List Document
  | .edit _ name _ => [.group name]
  | .delete table name =>
    ((r.db.tables.groups table).find? fun row => row.name = name).toList.map fun row => .task row.task
  | .store _ row _ _ => [.group row.name, .task row.task]
  | .reserve .. => []
  | .deregister _ => []

/-- The documents that the updates of a transaction are about. -/
def updated (r : Records) : List Update → List Document
  | [] => []
  | u :: us => u.documents r ++ updated (u.apply r) us

/-- What an update moves to the trash, and where, unless a file is in place of the directory. -/
def Update.moves (s : State) (r : Records) : Update → List (Path × Path)
  | .delete table name =>
    match (r.db.tables.groups table).find? fun row => row.name = name with
    | some row =>
      if trash_path row.task ∈ s.disk.files then []
      else (s.documents (.group name)).toList.map fun group : GroupRecord =>
        (group.output, trash_path row.task ++ [name])
    | none => []
  | _ => []

/-- What the updates of a transaction move to the trash. -/
def trashed (s : State) (r : Records) : List Update → List (Path × Path)
  | [] => []
  | u :: us => u.moves s r ++ trashed s (u.apply r) us

/-- Every task lists its content groups. -/
def Records.Matched (r : Records) : Prop :=
  ∀ table task, query_task r.db task = .ok table → ∃ content_groups : List String,
    r.documents (.task task) = some content_groups ∧ content_groups.Nodup ∧
      ∀ name, name ∈ content_groups ↔ ∃ row ∈ r.db.tables.groups table, row.name = name ∧ row.task = task

/-- If all updates are made, the transaction is committed, does what they are for, and every task lists its content
groups. -/
def State.Lawful (s : State) (tx : List Update) : Prop :=
  ∀ p, s.perform_all tx = .ok p → (s.commit p).2 = none ∧
    (s.commit p).1.toRecords = apply_all s.toRecords tx ∧ (s.commit p).1.Matched

/-- If all updates are made, no two are about one document, and what is moved to the trash is there and finds room. -/
def State.Permitted (s : State) (tx : List Update) : Prop :=
  ∀ p, s.perform_all tx = .ok p → (updated s.toRecords tx).Nodup ∧
    ∀ m ∈ trashed s s.toRecords tx, m.1 ∈ s.disk.paths ∧ s.disk.Room m.1 m.2

/-- The records hold together: rows have keys, tasks and documents, and tasks list their content groups. -/
structure Records.Consistent (r : Records) : Prop where
  keyed : ∀ table, Rows.Keyed (·.name) (r.db.tables.groups table)
  task : ∀ table, ∀ row ∈ r.db.tables.groups table, query_task r.db row.task = .ok table
  document : ∀ table, ∀ row ∈ r.db.tables.groups table, ∃ group : GroupRecord,
    r.documents (.group row.name) = some group ∧ group.output = output_path row.task row.name
  matched : r.Matched

theorem modify_eq {documents : ∀ d : Document, Option d.Content} {d : Document} {c : d.Content}
    (h : documents d = some c) (f : d.Content → d.Content) :
    modify documents d f = Function.update documents d (some (f c)) := by
  rw [modify, h]
  rfl

/-! ### Inversion -/

theorem throw_if_eq_ok {c : Prop} [Decidable c] {e : Raised} {u : Unit} : throw_if c e = .ok u ↔ ¬ c := by
  rw [throw_if]
  split_ifs with h <;> simp [h]

namespace Pending

variable {p p' : Pending} {table : GroupTable} {name : String}

theorem deserialize_eq_ok {d : Document} {c : d.Content} :
    p.deserialize_JSON_document d = .ok c ↔ p.documents.docs d = some c := by
  rw [deserialize_JSON_document]
  split <;> simp [*]

theorem find_group_eq_ok {row : GroupRow} :
    p.find_group table name = .ok row ↔ (p.db.tables.groups table).find? (fun row => row.name = name) = some row := by
  rw [find_group]
  split <;> simp [*]

theorem query_content_eq_ok {group : GroupRecord} : p.query_content table name = .ok group ↔
    ((p.db.tables.groups table).find? fun row => row.name = name).isSome ∧
      p.documents.docs (.group name) = some group := by
  rw [query_content, bind_eq_ok]
  simp only [find_group_eq_ok]
  rw [Option.isSome_iff_exists]
  constructor
  · rintro ⟨row, hrow, h⟩
    exact ⟨⟨row, hrow⟩, deserialize_eq_ok.mp h⟩
  · rintro ⟨⟨row, hrow⟩, h⟩
    exact ⟨row, hrow, deserialize_eq_ok.mpr h⟩

theorem edit_content_eq_ok {edits : List Edit} : p.edit_content table name edits = .ok p' ↔
    ∃ group : GroupRecord, ((p.db.tables.groups table).find? fun row => row.name = name).isSome ∧
      p.documents.docs (.group name) = some group ∧ p' = p.commit_JSON_document (.group name) (group.edit_all edits) := by
  rw [edit_content, bind_eq_ok]
  refine exists_congr fun group => ?_
  rw [query_content_eq_ok, and_assoc]
  exact and_congr_right fun _ => and_congr_right fun _ => ⟨fun h => (Except.ok.inj h).symm, fun h => congrArg _ h.symm⟩

/-- What is in place when a content group is deleted. -/
theorem delete_content_eq_ok (h : p.delete_content table name = .ok p') :
    ∃ (row : GroupRow) (content_groups : List String) (group : GroupRecord) (db : Database),
      (p.db.tables.groups table).find? (fun row => row.name = name) = some row ∧ query_task p.db row.task = .ok table ∧
      p.documents.docs (.task row.task) = some content_groups ∧ p.documents.docs (.group name) = some group ∧
      group.locked = false ∧ delete_group p.db table name row.task = some db ∧
      ({ p.commit_JSON_document (.task row.task) (List.erase content_groups name) with
          db := db } : Pending).journal_trash
        row.task name group.output = .ok p' := by
  obtain ⟨row, found, h⟩ := bind_eq_ok.mp h
  obtain ⟨kind, task, h⟩ := bind_eq_ok.mp h
  obtain ⟨_, same, h⟩ := bind_eq_ok.mp h
  obtain ⟨content_groups, listed, h⟩ := bind_eq_ok.mp h
  obtain ⟨group, queried, h⟩ := bind_eq_ok.mp h
  obtain ⟨_, unlocked, h⟩ := bind_eq_ok.mp h
  obtain rfl := not_not.mp (throw_if_eq_ok.mp same)
  have unlocked := throw_if_eq_ok.mp unlocked
  dsimp only at h
  split at h
  · rename_i db deleted
    exact ⟨row, content_groups, group, db, find_group_eq_ok.mp found, task, deserialize_eq_ok.mp listed,
      (query_content_eq_ok.mp queried).2, by simpa using unlocked, deleted, h⟩
  · cases h

/-- What is in place when a content group is stored. -/
theorem store_content_eq_ok {row : GroupRow} {tags notes : List String}
    (h : p.store_content table row tags notes = .ok p') :
    ∃ (content_groups : List String) (tables : Tables), query_task p.db row.task = .ok table ∧
      p.documents.docs (.task row.task) = some content_groups ∧ p.db.tables.count_groups row.name = 0 ∧
      p.db.tables.store_group table row = some tables ∧
      p' = (({ p with db := { p.db with tables } } : Pending).commit_JSON_document (.group row.name)
        ⟨output_path row.task row.name, false, sort_unique tags, notes⟩).commit_JSON_document (.task row.task)
          (List.append content_groups [row.name]) := by
  obtain ⟨kind, task, h⟩ := bind_eq_ok.mp h
  obtain ⟨_, same, h⟩ := bind_eq_ok.mp h
  obtain ⟨content_groups, listed, h⟩ := bind_eq_ok.mp h
  obtain ⟨_, unused, h⟩ := bind_eq_ok.mp h
  obtain rfl := not_not.mp (throw_if_eq_ok.mp same)
  have unused := Nat.eq_zero_of_not_pos (throw_if_eq_ok.mp unused)
  split at h
  · rename_i tables stored
    exact ⟨content_groups, tables, task, deserialize_eq_ok.mp listed, unused, stored, (Except.ok.inj h).symm⟩
  · cases h

/-- The move to the trash is journalled unless a file is in place of the directory. -/
theorem journal_trash_eq_ok {task : String} {output : Path} (h : p.journal_trash task name output = .ok p') :
    p'.db = p.db ∧ p'.documents = p.documents ∧ p'.disk.files = p.disk.files ∧
      ((trash_path task ∈ p.disk.files ∧ p'.disk = p.disk ∧ p'.journal = p.journal) ∨
        (trash_path task ∉ p.disk.files ∧
          (∀ q, q ∈ p'.disk.directories ↔ q ∈ p.disk.directories ∨ q <+: trash_path task) ∧
          p'.journal = p.journal ++ [.move output (trash_path task ++ [name])])) := by
  rw [journal_trash] at h
  split at h
  · cases h
  · rename_i disk ensured
    obtain ⟨files, ⟨file, rfl⟩ | ⟨no_file, directories⟩⟩ := DirectoryTree.ensure_eq_some ensured
    · have : trash_path task ∉ p.disk.directories := fun directory => p.disk.not_mem_files directory file
      rw [if_neg this] at h
      cases h
      exact ⟨rfl, rfl, rfl, .inl ⟨file, rfl, rfl⟩⟩
    · rw [if_pos ((directories _).mpr (.inr List.prefix_rfl))] at h
      cases h
      exact ⟨rfl, rfl, files, .inr ⟨no_file, directories, rfl⟩⟩

/-! ### What is pending -/

/-- The transaction has come from `s` by updates that make `r` of the records, are about the documents `ds`, and move
`ms` to the trash. -/
structure Follows (s : State) (p : Pending) (r : Records) (ds : List Document) (ms : List (Path × Path)) : Prop where
  db : p.db = r.db
  read : p.documents.docs = s.documents
  emplaced : p.journal.filterMap Entry.document = ds
  temp : ∀ d, (p.documents.temp d).isSome ↔ d ∈ ds
  moved : p.journal.filterMap Entry.ends = ms
  files : p.disk.files = s.disk.files
  directories : ∀ q, q ∈ p.disk.directories ↔ q ∈ s.disk.directories ∨ ∃ m ∈ ms, q <+: m.2.dropLast
  /-- While no document has been updated twice, what is staged is what it is to be. -/
  staged : ds.Nodup → ∀ d, r.documents d = if d ∈ ds then p.documents.temp d else s.documents d

variable {s : State} {r : Records} {ds : List Document} {ms : List (Path × Path)}

theorem follows_begin (s : State) : Follows s s.begin s.toRecords [] [] where
  db := rfl
  read := rfl
  emplaced := rfl
  temp d := by simp [State.begin]
  moved := rfl
  files := rfl
  directories q := by simp [State.begin]
  staged _ d := by simp

/-- One more version is staged. -/
theorem Follows.stage (h : Follows s p r ds ms) {d : Document} (c : d.Content) {r' : Records} (db : r'.db = r.db)
    (documents : (ds ++ [d]).Nodup → r'.documents = Function.update r.documents d (some c)) :
    Follows s (p.commit_JSON_document d c) r' (ds ++ [d]) ms where
  db := h.db.trans db.symm
  read := h.read
  emplaced := by simp [commit_JSON_document, h.emplaced, Entry.document]
  temp d' := by
    by_cases eq : d' = d
    · subst eq
      simp [commit_JSON_document]
    · simp [commit_JSON_document, Staging.temp_stage_of_ne _ eq, h.temp, eq]
  moved := by simp [commit_JSON_document, h.moved, Entry.ends]
  files := h.files
  directories := h.directories
  staged distinct d' := by
    rw [documents distinct]
    by_cases eq : d' = d
    · subst eq
      simp [commit_JSON_document]
    · rw [Function.update_of_ne eq, h.staged (List.nodup_append.mp distinct).1]
      simp [commit_JSON_document, Staging.temp_stage_of_ne _ eq, eq]

/-- A document that has not been updated is read as it is to be. -/
theorem Follows.documents_of_not_mem (h : Follows s p r ds ms) {d : Document} (distinct : (ds ++ [d]).Nodup) :
    r.documents d = p.documents.docs d := by
  have new : d ∉ ds := by
    intro old
    exact (List.nodup_append.mp distinct).2.2 d old d (List.mem_singleton_self d) rfl
  rw [h.staged (List.nodup_append.mp distinct).1, if_neg new, h.read]

/-- The rows change alone. -/
theorem Follows.change_db (h : Follows s p r ds ms) (db : Database) :
    Follows s { p with db } { r with db } ds ms :=
  { h with db := rfl }

theorem Follows.trash (h : Follows s p r ds ms) {task : String} {output : Path}
    (journalled : p.journal_trash task name output = .ok p') :
    Follows s p' r ds
      (ms ++ if trash_path task ∈ s.disk.files then [] else [(output, trash_path task ++ [name])]) := by
  obtain ⟨db, documents, files, ⟨file, disk, journal⟩ | ⟨no_file, directories, journal⟩⟩ := journal_trash_eq_ok journalled
  · rw [if_pos (h.files ▸ file), List.append_nil]
    exact ⟨db.trans h.db, documents ▸ h.read, journal ▸ h.emplaced, documents ▸ h.temp, journal ▸ h.moved,
      files.trans h.files, disk ▸ h.directories, documents ▸ h.staged⟩
  · rw [if_neg (h.files ▸ no_file)]
    refine ⟨db.trans h.db, documents ▸ h.read, ?_, documents ▸ h.temp, ?_, files.trans h.files, fun q => ?_,
      documents ▸ h.staged⟩
    · simp [journal, h.emplaced, Entry.document]
    · simp [journal, h.moved, Entry.ends]
    · rw [directories, h.directories, or_assoc]
      simp [or_and_right, exists_or]

/-- **One update**. -/
theorem Follows.perform (h : Follows s p r ds ms) {u : Update} (done : p.perform u = .ok p') :
    Follows s p' (u.apply r) (ds ++ u.documents r) (ms ++ u.moves s r) := by
  cases u with
  | edit table name edits =>
    obtain ⟨group, -, read, rfl⟩ := edit_content_eq_ok.mp done
    simp only [Update.moves, List.append_nil]
    refine h.stage (d := .group name) (group.edit_all edits) rfl fun distinct => ?_
    exact modify_eq ((h.documents_of_not_mem distinct).trans read) _
  | delete table name =>
    obtain ⟨row, content_groups, group, db, found, -, listed, read, -, deleted, trashed⟩ := delete_content_eq_ok done
    rw [h.db] at found deleted
    have read' : s.documents (.group name) = some group := h.read ▸ read
    simp only [Update.apply, Update.documents, Update.moves, found, deleted, read', Option.toList_some, List.map_cons,
      List.map_nil, Option.getD_some]
    have staged : Follows s (p.commit_JSON_document (.task row.task) (List.erase content_groups name))
        { r with documents := modify r.documents (.task row.task) fun content_groups => List.erase content_groups name }
        (ds ++ [.task row.task]) ms := by
      refine h.stage (d := .task row.task) (List.erase content_groups name) rfl fun distinct => ?_
      exact modify_eq ((h.documents_of_not_mem distinct).trans listed) _
    exact (staged.change_db db).trash trashed
  | store table row tags notes =>
    obtain ⟨content_groups, tables, -, listed, -, stored, rfl⟩ := store_content_eq_ok done
    rw [h.db] at stored
    simp only [Update.moves, List.append_nil, Update.documents, Update.apply, stored, Option.getD_some]
    rw [List.append_cons, h.db]
    have first : Follows s _ ⟨{ r.db with tables }, Function.update r.documents (.group row.name) (some
        (⟨output_path row.task row.name, false, sort_unique tags, notes⟩ : GroupRecord))⟩ _ ms :=
      (h.change_db { r.db with tables }).stage (d := .group row.name)
        ⟨output_path row.task row.name, false, sort_unique tags, notes⟩ rfl fun _ => rfl
    refine first.stage (d := .task row.task) (List.append content_groups [row.name]) rfl fun distinct => ?_
    exact modify_eq ((first.documents_of_not_mem distinct).trans listed) _
  | reserve tk time suffix =>
    simp only [Pending.perform, reserve_content_name] at done
    split at done
    · rename_i tables reserved
      cases done
      rw [h.db] at reserved
      simp only [Update.moves, Update.documents, List.append_nil, Update.apply, reserved, h.db]
      exact h.change_db _
    · cases done
  | deregister name =>
    cases done
    simp only [Update.moves, Update.documents, List.append_nil, Update.apply, h.db]
    exact h.change_db _

theorem follows_perform_all {tx : List Update} (done : s.perform_all tx = .ok p) :
    Follows s p (apply_all s.toRecords tx) (updated s.toRecords tx) (trashed s s.toRecords tx) := by
  have run : ∀ {p₀ r ds ms}, Follows s p₀ r ds ms → tx.foldlM (fun p u => p.perform u) p₀ = .ok p →
      Follows s p (apply_all r tx) (ds ++ updated r tx) (ms ++ trashed s r tx) := by
    clear done
    induction tx with
    | nil =>
      intro p₀ r ds ms h done
      cases done
      simpa [apply_all, updated, trashed] using h
    | cons u tx ih =>
      intro p₀ r ds ms h done
      rw [List.foldlM_cons] at done
      obtain ⟨p₁, first, done⟩ := bind_eq_ok.mp done
      have rest := ih (h.perform first) done
      rwa [List.append_assoc, List.append_assoc] at rest
  exact run (follows_begin s) done

/-! ### The journal -/

variable {es : List Entry}

/-- The journal puts documents in place and moves directories, and the one does not bear on the other. -/
theorem commit_journal_eq {staging : Staging Document.Content} {disk : DirectoryTree String}
    (emplaced : p.documents.emplaces (es.filterMap Entry.document) = some staging)
    (moved : p.disk.renames (es.filterMap Entry.ends) = some disk) :
    p.commit_journal es = (⟨p.db, staging, disk, p.journal⟩, none) := by
  induction es generalizing p with
  | nil =>
    cases emplaced
    cases moved
    rfl
  | cons e es ih =>
    cases e with
    | emplace d =>
      obtain ⟨staging₁, first, emplaced⟩ := Option.bind_eq_some_iff.mp emplaced
      simp only [commit_journal, commit_record, first, Option.map_some]
      exact ih emplaced moved
    | move source target =>
      obtain ⟨disk₁, first, moved⟩ := Option.bind_eq_some_iff.mp moved
      simp only [commit_journal, commit_record, first, Option.map_some]
      exact ih emplaced moved

theorem commit_journal_eq_none (h : (p.commit_journal es).2 = none) :
    (p.documents.emplaces (es.filterMap Entry.document)).isSome ∧ (p.disk.renames (es.filterMap Entry.ends)).isSome := by
  induction es generalizing p with
  | nil => exact ⟨rfl, rfl⟩
  | cons e es ih =>
    rw [commit_journal] at h
    split at h
    · rename_i p' committed
      cases e with
      | emplace d =>
        obtain ⟨staging, first, rfl⟩ := Option.map_eq_some_iff.mp committed
        obtain ⟨emplaced, moved⟩ := ih h
        refine ⟨?_, moved⟩
        simp only [List.filterMap_cons, Entry.document, Staging.emplaces, List.foldlM_cons, first]
        exact emplaced
      | move source target =>
        obtain ⟨disk, first, rfl⟩ := Option.map_eq_some_iff.mp committed
        obtain ⟨emplaced, moved⟩ := ih h
        refine ⟨emplaced, ?_⟩
        simp only [List.filterMap_cons, Entry.ends, DirectoryTree.renames, List.foldlM_cons, first]
        exact moved
    · cases h

end Pending

/-! ### What is moved -/

/-- A row is old, or its task is among the documents that have been updated. -/
def Old (s : State) (r : Records) (ds : List Document) : Prop :=
  ∀ table, ∀ row ∈ r.db.tables.groups table, row ∈ s.db.tables.groups table ∨ Document.task row.task ∈ ds

variable {s : State} {r : Records} {ds : List Document} {u : Update} {tx : List Update}

section Tables

variable {table table' : GroupTable} {name task : String} {row row' : GroupRow} {db db' : Database} {tables : Tables}

theorem delete_group_eq_some (h : delete_group db table name task = some db') :
    db'.tasks = db.tasks ∧ ∀ table' row', row' ∈ db'.tables.groups table' ↔
      row' ∈ db.tables.groups table' ∧ ¬ (table' = table ∧ row'.name = name ∧ row'.task = task) := by
  rw [delete_group] at h
  split_ifs at h
  obtain ⟨tables, deleted, rfl⟩ := Option.map_eq_some_iff.mp h
  rw [Tables.delete_group] at deleted
  split_ifs at deleted
  cases deleted
  refine ⟨rfl, fun table' row' => ?_⟩
  by_cases ht : table' = table
  · subst ht
    simp only [Function.update_self, List.mem_filter, decide_eq_true_eq, true_and]
  · simp [ht]

theorem store_group_eq_some (h : db.tables.store_group table row = some tables) : ∀ table' row',
    row' ∈ tables.groups table' ↔ row' ∈ db.tables.groups table' ∨ (table' = table ∧ row' = row) := by
  rw [Tables.store_group] at h
  split_ifs at h
  obtain ⟨rows, inserted, rfl⟩ := Option.map_eq_some_iff.mp h
  rw [Rows.insert] at inserted
  split_ifs at inserted
  cases inserted
  intro table' row'
  by_cases ht : table' = table
  · subst ht
    simp
  · simp [ht]

theorem keyed_delete_group (h : delete_group db table name task = some db')
    (keyed : ∀ table, Rows.Keyed (·.name) (db.tables.groups table)) (table' : GroupTable) :
    Rows.Keyed (·.name) (db'.tables.groups table') := by
  rw [delete_group] at h
  split_ifs at h
  obtain ⟨tables, deleted, rfl⟩ := Option.map_eq_some_iff.mp h
  rw [Tables.delete_group] at deleted
  split_ifs at deleted
  cases deleted
  by_cases ht : table' = table
  · subst ht
    simpa using (keyed table').filter _
  · simpa [ht] using keyed table'

theorem keyed_store_group (h : db.tables.store_group table row = some tables)
    (keyed : ∀ table, Rows.Keyed (·.name) (db.tables.groups table)) (table' : GroupTable) :
    Rows.Keyed (·.name) (tables.groups table') := by
  rw [Tables.store_group] at h
  split_ifs at h
  obtain ⟨rows, inserted, rfl⟩ := Option.map_eq_some_iff.mp h
  rw [Rows.insert] at inserted
  split_ifs at inserted with unused
  cases inserted
  by_cases ht : table' = table
  · subst ht
    have new : Rows.Keyed (·.name) (db.tables.groups table' ++ [row]) :=
      Rows.keyed_append.mpr ⟨keyed table', List.nodup_singleton _, fun x hx y hy eq => unused (by
        rw [← List.mem_singleton.mp hy, ← eq]
        exact List.mem_map_of_mem hx)⟩
    simpa using new
  · simpa [ht] using keyed table'

/-- The kind of a task depends on the tables of tasks only. -/
theorem query_task_congr (h : db'.tasks = db.tasks) (name : String) : query_task db' name = query_task db name := by
  rw [query_task, query_task, h]

theorem groups_reserve (db : Database) (tk : String) (time : Timestamp) (suffix : Suffix) :
    (((db.tables.reserve_content_name tk time suffix).map (·.2)).getD db.tables).groups = db.tables.groups := by
  rw [Tables.reserve_content_name_eq]
  cases Rows.insert (·.name) db.tables.reserved ⟨time.text ++ db.tables.label time suffix, tk, time⟩ <;> rfl

end Tables

/-- Rows are left out, or a new row comes, with its document. -/
theorem mem_groups_apply {table : GroupTable} {row : GroupRow} (h : row ∈ (u.apply r).db.tables.groups table) :
    row ∈ r.db.tables.groups table ∨ Document.task row.task ∈ u.documents r := by
  cases u with
  | edit => exact .inl h
  | delete table' name =>
    rw [Update.apply] at h
    split at h
    · rename_i found _
      cases deleted : delete_group r.db table' name found.task with
      | none =>
        rw [deleted] at h
        exact .inl h
      | some db =>
        rw [deleted] at h
        exact .inl (((delete_group_eq_some deleted).2 _ _).mp h).1
    · exact .inl h
  | store table' new tags notes =>
    rw [Update.apply] at h
    cases stored : r.db.tables.store_group table' new with
    | none =>
      rw [stored] at h
      exact .inl h
    | some tables =>
      rw [stored] at h
      rcases (store_group_eq_some stored _ _).mp h with old | ⟨-, rfl⟩
      · exact .inl old
      · exact .inr (by simp [Update.documents])
  | reserve tk time suffix =>
    have same := congrFun (groups_reserve r.db tk time suffix) table
    exact .inl (same ▸ h)
  | deregister => exact .inl h

theorem Old.apply (h : Old s r ds) (u : Update) : Old s (u.apply r) (ds ++ u.documents r) := by
  intro table row hrow
  rcases mem_groups_apply hrow with old | new
  · exact (h table row old).imp_right (List.mem_append_left _)
  · exact .inr (List.mem_append_right _ new)

/-- The output of a content group of a task that has not been updated goes to the trash of that task. -/
theorem moves_eq (h : s.Consistent) (old : Old s r ds) (distinct : (ds ++ u.documents r).Nodup) :
    ∃ pairs : List (String × String),
      u.moves s r = pairs.map (fun x => (output_path x.1 x.2, trash_path x.1 ++ [x.2])) ∧
        (pairs.map fun x => Document.task x.1).Sublist (u.documents r) := by
  cases u with
  | delete table name =>
    cases found : (r.db.tables.groups table).find? fun row => row.name = name with
    | none => exact ⟨[], by simp [Update.moves, found]⟩
    | some row =>
      obtain rfl : row.name = name := by simpa using List.find?_some found
      have updated : (Update.delete table row.name).documents r = [.task row.task] := by
        simp [Update.documents, found]
      have here := (old table row (List.mem_of_find?_eq_some found)).resolve_right fun again =>
        (List.nodup_append.mp distinct).2.2 _ again _ (updated ▸ List.mem_singleton_self _) rfl
      obtain ⟨group, read, output⟩ := h.document table row here
      simp only [Update.moves, found, read, Option.toList_some, List.map_cons, List.map_nil, output, updated]
      split_ifs
      · exact ⟨[], by simp⟩
      · exact ⟨[(row.task, row.name)], by simp⟩
  | _ => exact ⟨[], rfl, List.nil_sublist _⟩

theorem trashed_eq (h : s.Consistent) (old : Old s r ds) (distinct : (ds ++ updated r tx).Nodup) :
    ∃ pairs : List (String × String),
      trashed s r tx = pairs.map (fun x => (output_path x.1 x.2, trash_path x.1 ++ [x.2])) ∧
        (pairs.map fun x => Document.task x.1).Sublist (updated r tx) := by
  induction tx generalizing r ds with
  | nil => exact ⟨[], rfl, List.nil_sublist _⟩
  | cons u tx ih =>
    rw [updated, ← List.append_assoc] at distinct
    obtain ⟨first, eq, sub⟩ := moves_eq h old (List.nodup_append.mp distinct).1
    obtain ⟨rest, eq', sub'⟩ := ih (old.apply u) distinct
    exact ⟨first ++ rest, by rw [trashed, eq, eq', List.map_append], by
      rw [List.map_append]
      exact sub.append sub'⟩

/-! ### Records stay consistent -/

theorem output_edit_all (group : GroupRecord) (edits : List Edit) : (group.edit_all edits).output = group.output := by
  induction edits generalizing group with
  | nil => rfl
  | cons e edits ih =>
    rw [GroupRecord.edit_all, List.foldl_cons]
    refine (ih _).trans ?_
    cases e <;> rfl

namespace Records.Consistent

variable {table : GroupTable} {name : String}

theorem edit (h : r.Consistent) (table : GroupTable) (name : String) (edits : List Edit) :
    (Update.apply r (.edit table name edits)).Consistent where
  keyed := h.keyed
  task := h.task
  document table' row hrow := by
    obtain ⟨group, read, output⟩ := h.document table' row hrow
    by_cases same : row.name = name
    · subst same
      exact ⟨group.edit_all edits, by simp [Update.apply, modify, read], (output_edit_all ..).trans output⟩
    · exact ⟨group, by simpa [Update.apply, modify, same] using read, output⟩
  matched table' task kind := by
    obtain ⟨content_groups, read, rest⟩ := h.matched table' task kind
    exact ⟨content_groups, by simpa [Update.apply, modify] using read, rest⟩

/-- The rows, tasks and documents are the same. -/
theorem of_groups {r' : Records} (h : r.Consistent) (groups : r'.db.tables.groups = r.db.tables.groups)
    (tasks : r'.db.tasks = r.db.tasks) (documents : r'.documents = r.documents) : r'.Consistent where
  keyed := groups ▸ h.keyed
  task table row hrow := (query_task_congr tasks _).trans (h.task table row (groups ▸ hrow))
  document table row hrow := documents ▸ h.document table row (groups ▸ hrow)
  matched table task kind := by
    rw [groups, documents]
    exact h.matched table task ((query_task_congr tasks _).symm.trans kind)

theorem delete (h : r.Consistent) {row : GroupRow} {db : Database}
    (found : (r.db.tables.groups table).find? (fun row => row.name = name) = some row)
    (deleted : delete_group r.db table name row.task = some db) :
    (Update.apply r (.delete table name)).Consistent := by
  obtain ⟨tasks, groups⟩ := delete_group_eq_some deleted
  have kind := h.task table row (List.mem_of_find?_eq_some found)
  obtain rfl : row.name = name := by simpa using List.find?_some found
  simp only [Update.apply, found, deleted, Option.getD_some]
  refine ⟨keyed_delete_group deleted h.keyed, fun table' row' hrow' => ?_, fun table' row' hrow' => ?_,
    fun table' task' kind' => ?_⟩
  · exact (query_task_congr tasks _).trans (h.task table' row' ((groups _ _).mp hrow').1)
  · obtain ⟨group, read, output⟩ := h.document table' row' ((groups _ _).mp hrow').1
    exact ⟨group, by simpa [modify] using read, output⟩
  · have kind₀ := (query_task_congr tasks _).symm.trans kind'
    obtain ⟨content_groups, read, distinct, listed⟩ := h.matched table' task' kind₀
    by_cases same : task' = row.task
    · subst same
      obtain rfl := Except.ok.inj (kind.symm.trans kind₀)
      refine ⟨content_groups.erase row.name, by simp [modify, read], distinct.erase _, fun name' => ?_⟩
      rw [distinct.mem_erase_iff, listed]
      simp only [groups]
      constructor
      · rintro ⟨ne, row', hrow', rfl, task⟩
        exact ⟨row', ⟨hrow', fun gone => ne gone.2.1⟩, rfl, task⟩
      · rintro ⟨row', ⟨hrow', stays⟩, rfl, task⟩
        exact ⟨fun eq => stays ⟨trivial, eq, task⟩, row', hrow', rfl, task⟩
    · refine ⟨content_groups, by simpa [modify, same] using read, distinct, fun name' => ?_⟩
      rw [listed]
      simp only [groups]
      constructor
      · rintro ⟨row', hrow', rfl, rfl⟩
        exact ⟨row', ⟨hrow', fun gone => same gone.2.2⟩, rfl, rfl⟩
      · rintro ⟨row', ⟨hrow', -⟩, rfl, rfl⟩
        exact ⟨row', hrow', rfl, rfl⟩

theorem store (h : r.Consistent) {row : GroupRow} {tables : Tables} (tags notes : List String)
    (kind : query_task r.db row.task = .ok table) (unused : r.db.tables.count_groups row.name = 0)
    (stored : r.db.tables.store_group table row = some tables) :
    (Update.apply r (.store table row tags notes)).Consistent := by
  have groups := store_group_eq_some stored
  have new : ∀ table' row', row' ∈ r.db.tables.groups table' → row'.name ≠ row.name := by
    intro table' row' hrow' eq
    have pos :=
      (Lifecycle.Repository.count_groups_pos_iff h.keyed row.name).mpr ⟨table', eq ▸ List.mem_map_of_mem hrow'⟩
    omega
  simp only [Update.apply, stored, Option.getD_some]
  refine ⟨keyed_store_group stored h.keyed, fun table' row' hrow' => ?_, fun table' row' hrow' => ?_,
    fun table' task' kind' => ?_⟩
  · rcases (groups _ _).mp hrow' with old | ⟨rfl, rfl⟩
    · exact h.task table' row' old
    · exact kind
  · rcases (groups _ _).mp hrow' with old | ⟨rfl, rfl⟩
    · obtain ⟨group, read, output⟩ := h.document table' row' old
      exact ⟨group, by simpa [modify, new _ _ old] using read, output⟩
    · exact ⟨⟨output_path _ _, false, sort_unique tags, notes⟩, by simp [modify], rfl⟩
  · obtain ⟨content_groups, read, distinct, listed⟩ := h.matched table' task' kind'
    by_cases same : task' = row.task
    · subst same
      obtain rfl := Except.ok.inj (kind.symm.trans kind')
      refine ⟨content_groups ++ [row.name], by simp [modify, read], ?_, fun name' => ?_⟩
      · refine List.nodup_append.mpr ⟨distinct, List.nodup_singleton _, fun name' old _ hname eq => ?_⟩
        obtain ⟨row', hrow', rfl, -⟩ := (listed name').mp old
        exact new _ _ hrow' (eq.trans (List.mem_singleton.mp hname))
      · rw [List.mem_append, List.mem_singleton, listed]
        simp only [groups]
        constructor
        · rintro (⟨row', hrow', rfl, task⟩ | rfl)
          · exact ⟨row', .inl hrow', rfl, task⟩
          · exact ⟨row, .inr ⟨trivial, rfl⟩, rfl, rfl⟩
        · rintro ⟨row', hrow' | ⟨-, rfl⟩, rfl, task⟩
          · exact .inl ⟨row', hrow', rfl, task⟩
          · exact .inr rfl
    · refine ⟨content_groups, by simpa [modify, same] using read, distinct, fun name' => ?_⟩
      rw [listed]
      simp only [groups]
      constructor
      · rintro ⟨row', hrow', rfl, rfl⟩
        exact ⟨row', .inl hrow', rfl, rfl⟩
      · rintro ⟨row', hrow' | ⟨-, rfl⟩, rfl, rfl⟩
        · exact ⟨row', hrow', rfl, rfl⟩
        · exact absurd rfl same

/-- An update that is made keeps the records consistent. -/
theorem perform (h : r.Consistent) {p p' : Pending} (db : p.db = r.db) (done : p.perform u = .ok p') :
    (u.apply r).Consistent := by
  cases u with
  | edit table name edits => exact h.edit table name edits
  | delete table name =>
    obtain ⟨row, _, _, _, found, -, -, -, -, deleted, -⟩ := Pending.delete_content_eq_ok done
    rw [db] at found deleted
    exact h.delete found deleted
  | store table row tags notes =>
    obtain ⟨_, tables, kind, -, unused, stored, -⟩ := Pending.store_content_eq_ok done
    rw [db] at kind unused stored
    exact h.store tags notes kind unused stored
  | reserve tk time suffix => exact h.of_groups (groups_reserve r.db tk time suffix) rfl rfl
  | deregister name => exact h.of_groups rfl rfl rfl

end Records.Consistent

/-- A transaction through which all updates are made keeps the records consistent. -/
theorem consistent_apply_all {p : Pending} (h : s.Consistent) (done : s.perform_all tx = .ok p) :
    (apply_all s.toRecords tx).Consistent := by
  have run : ∀ {p₀ : Pending} {r ds ms}, p₀.Follows s r ds ms → r.Consistent →
      tx.foldlM (fun p u => p.perform u) p₀ = .ok p → (apply_all r tx).Consistent := by
    clear done
    induction tx with
    | nil => exact fun _ h _ => h
    | cons u tx ih =>
      intro p₀ r ds ms follows h done
      rw [List.foldlM_cons] at done
      obtain ⟨p₁, first, done⟩ := bind_eq_ok.mp done
      exact ih (follows.perform first) (h.perform follows.db first) done
  exact run (Pending.follows_begin s) h done

/-! ### One transaction -/

section Commit

variable {p : Pending}

/-- The commit puts the documents in place, and makes the moves. -/
theorem commit_iff (done : s.perform_all tx = .ok p) :
    (s.commit p).2 = none ↔ (updated s.toRecords tx).Nodup ∧ (p.disk.renames (trashed s s.toRecords tx)).isSome := by
  have follows := Pending.follows_perform_all done
  have emplaces : (p.documents.emplaces (updated s.toRecords tx)).isSome ↔ (updated s.toRecords tx).Nodup :=
    Staging.emplaces_isSome_iff fun d hd => (follows.temp d).mpr hd
  rw [← emplaces]
  constructor
  · intro committed
    have journal : (p.commit_journal p.journal).2 = none := by
      rw [State.commit] at committed
      split at committed
      · rename_i eq
        rw [eq]
      · cases committed
    have both := Pending.commit_journal_eq_none journal
    rwa [follows.emplaced, follows.moved] at both
  · rintro ⟨emplaced, moved⟩
    obtain ⟨staging, emplaced⟩ := Option.isSome_iff_exists.mp emplaced
    obtain ⟨disk, moved⟩ := Option.isSome_iff_exists.mp moved
    rw [State.commit, Pending.commit_journal_eq (follows.emplaced.symm ▸ emplaced) (follows.moved.symm ▸ moved)]

/-- Then the records are what the updates are for. -/
theorem records_commit (done : s.perform_all tx = .ok p) (committed : (s.commit p).2 = none) :
    (s.commit p).1.toRecords = apply_all s.toRecords tx := by
  have follows := Pending.follows_perform_all done
  obtain ⟨distinct, moved⟩ := (commit_iff done).mp committed
  have emplaced := (Staging.emplaces_isSome_iff fun d hd => (follows.temp d).mpr hd).mpr distinct
  obtain ⟨staging, emplaced⟩ := Option.isSome_iff_exists.mp emplaced
  obtain ⟨disk, moved⟩ := Option.isSome_iff_exists.mp moved
  rw [State.commit, Pending.commit_journal_eq (follows.emplaced.symm ▸ emplaced) (follows.moved.symm ▸ moved)]
  have documents : staging.docs = (apply_all s.toRecords tx).documents := by
    funext d
    rw [Staging.docs_emplaces emplaced distinct, follows.staged distinct, follows.read]
  exact congrArg₂ Records.mk follows.db documents

/-- Paths of three names that differ in one of the first two are apart. -/
theorem apart_of_ne {a b c a' b' c' : String} (h : a ≠ a' ∨ b ≠ b') : DirectoryTree.Apart [a, b, c] [a', b', c'] := by
  constructor <;> simp only [List.cons_prefix_cons, not_and] <;> rintro rfl rfl <;> simp at h

/-- What is moved to the trash can be moved if it is there and finds room. -/
theorem renames_trashed_iff (h : s.Consistent) (done : s.perform_all tx = .ok p)
    (distinct : (updated s.toRecords tx).Nodup) :
    (p.disk.renames (trashed s s.toRecords tx)).isSome ↔
      ∀ m ∈ trashed s s.toRecords tx, m.1 ∈ s.disk.paths ∧ s.disk.Room m.1 m.2 := by
  have follows := Pending.follows_perform_all done
  have old : Old s s.toRecords [] := fun _ _ hrow => .inl hrow
  obtain ⟨pairs, eq, sub⟩ := trashed_eq h old (by simpa using distinct)
  have tasks : (pairs.map fun x => Document.task x.1).Nodup := distinct.sublist sub
  have independent : (trashed s s.toRecords tx).Pairwise DirectoryTree.Independent := by
    rw [eq, List.pairwise_map]
    refine (List.pairwise_map.mp tasks).imp fun {x y} ne => ?_
    have ne : x.1 ≠ y.1 := fun eq => ne (congrArg _ eq)
    exact ⟨apart_of_ne (.inr ne), apart_of_ne (.inr ne), apart_of_ne (.inr ne), apart_of_ne (.inr ne)⟩
  have output_apart : ∀ t n t' n', DirectoryTree.Apart (output_path t n) (trash_path t' ++ [n']) := fun _ _ _ _ =>
    apart_of_ne (.inl (by decide))
  -- the directories that have been made for it are above where it goes
  have made : ∀ q, q ∈ p.disk.directories ↔ q ∈ s.disk.directories ∨ ∃ x ∈ pairs, q <+: trash_path x.1 := by
    intro q
    rw [follows.directories, eq]
    simp
  rw [DirectoryTree.renames_isSome_iff independent]
  · refine forall₂_congr fun m hm => ?_
    rw [eq] at hm
    obtain ⟨x, hx, rfl⟩ := List.mem_map.mp hm
    have source : DirectoryTree.AgreeAt s.disk p.disk (output_path x.1 x.2) := by
      refine ⟨(made _).trans (or_iff_left ?_), by rw [follows.files]⟩
      rintro ⟨y, -, above⟩
      exact (output_apart x.1 x.2 y.1 "").1 (above.trans (List.prefix_append ..))
    have target : ∀ q, trash_path x.1 ++ [x.2] <+: q → DirectoryTree.AgreeAt s.disk p.disk q := by
      intro q below
      refine ⟨(made q).trans (or_iff_left ?_), by rw [follows.files]⟩
      rintro ⟨y, -, above⟩
      have := (below.trans above).length_le
      simp [trash_path] at this
    have above : (trash_path x.1 ++ [x.2]).dropLast ∈ p.disk.directories := by
      rw [List.dropLast_concat]
      exact (made _).mpr (.inr ⟨x, hx, List.prefix_rfl⟩)
    rw [DirectoryTree.movable_iff, source.mem_paths_iff, DirectoryTree.room_congr source target]
    exact ⟨fun ⟨there, _, _, room⟩ => ⟨there, room⟩, fun ⟨there, room⟩ =>
      ⟨there, above, (output_apart ..).1, room⟩⟩
  · intro m hm same
    rw [eq] at hm
    obtain ⟨x, -, rfl⟩ := List.mem_map.mp hm
    have same : output_path x.1 x.2 = trash_path x.1 ++ [x.2] := same
    exact (output_apart x.1 x.2 x.1 x.2).1 (by rw [same])

end Commit

/-- **One transaction**: it does what its updates are for if and only if no two are about one document, and what is
moved to the trash is there and finds room. -/
theorem lawful_iff_permitted (h : s.Consistent) (tx : List Update) : s.Lawful tx ↔ s.Permitted tx := by
  refine forall₂_congr fun p done => ?_
  constructor
  · rintro ⟨committed, -, -⟩
    obtain ⟨distinct, moved⟩ := (commit_iff done).mp committed
    exact ⟨distinct, (renames_trashed_iff h done distinct).mp moved⟩
  · rintro ⟨distinct, moved⟩
    have committed := (commit_iff done).mpr ⟨distinct, (renames_trashed_iff h done distinct).mpr moved⟩
    have records := records_commit done committed
    exact ⟨committed, records, records ▸ (consistent_apply_all h done).matched⟩

/-- **Histories**: along every history of transactions, each does what its updates are for if and only if each of them
is permitted. -/
theorem history_lawful_iff (h : s.Consistent) (history : List (List Update)) :
    StepsSatisfy State.next State.Lawful s history ↔ StepsSatisfy State.next State.Permitted s history := by
  refine stepsSatisfy_congr (I := fun s => s.Consistent) (fun s tx h => lawful_iff_permitted h tx) ?_ h
  intro s tx s' h permitted next
  rw [State.next] at next
  split at next
  · rename_i p done
    cases next
    obtain ⟨-, records, -⟩ := (lawful_iff_permitted h tx).mpr permitted p done
    exact records ▸ consistent_apply_all h done
  · cases next

/-! ### Two content groups of one task -/

/-- A disk with the output of two content groups. -/
def two_disk : DirectoryTree String where
  directories := {[], ["output"], ["output", "zeta"], ["output", "zeta", "one"], ["output", "zeta", "two"]}
  files := ∅
  root := by decide
  disjoint := by decide
  parent := by
    intro p a h
    have above : ∀ q ∈ ({[], ["output"], ["output", "zeta"], ["output", "zeta", "one"], ["output", "zeta", "two"]} :
        Finset Path) ∪ ∅, q.dropLast ∈ ({[], ["output"], ["output", "zeta"], ["output", "zeta", "one"],
          ["output", "zeta", "two"]} : Finset Path) := by
      decide
    simpa using above _ h

/-- A repository with two content groups of one task. -/
def two : State where
  db := {
    tables := ⟨[], fun table =>
      if table = .integration then [⟨"one", "zeta", Tables.midnight⟩, ⟨"two", "zeta", Tables.midnight⟩] else []⟩
    tasks := fun table => if table = .integration then ["zeta"] else []
    writers := fun _ => [] }
  documents
    | .task name => if name = "zeta" then some ["one", "two"] else none
    | .group name => some ⟨output_path "zeta" name, false, [], []⟩
  disk := two_disk

theorem groups_two {table : GroupTable} {row : GroupRow} (h : row ∈ two.db.tables.groups table) :
    table = .integration ∧ row.task = "zeta" := by
  simp only [two] at h
  split_ifs at h with ht
  · refine ⟨ht, ?_⟩
    rcases List.mem_pair.mp h with rfl | rfl <;> rfl
  · cases h

theorem query_task_two {table : GroupTable} {task : String} (h : query_task two.db task = .ok table) :
    table = .integration ∧ task = "zeta" := by
  have none : ∀ table ≠ GroupTable.integration, task ∉ two.db.tasks table := by
    intro table ht
    simp [two, ht]
  rw [query_task, if_neg (none .postintegration (by decide)), if_neg (none .output (by decide))] at h
  split_ifs at h with there
  exact ⟨(Except.ok.inj h).symm, List.mem_singleton.mp there⟩

theorem consistent_two : two.Consistent where
  keyed table := by cases table <;> simp [two, Rows.Keyed]
  task table row hrow := by
    obtain ⟨rfl, task⟩ := groups_two hrow
    rw [task]
    rfl
  document table row hrow := by
    obtain ⟨rfl, task⟩ := groups_two hrow
    exact ⟨_, rfl, by rw [task]⟩
  matched table task kind := by
    obtain ⟨rfl, rfl⟩ := query_task_two kind
    exact ⟨["one", "two"], rfl, by decide, fun name => by simp [two, eq_comm]⟩

/-- Both are deleted in one transaction. -/
def delete_both : List Update := [.delete .integration "one", .delete .integration "two"]

/-- The commit throws. -/
theorem not_lawful_two : two.Consistent ∧ ¬ StepsSatisfy State.next State.Lawful two [delete_both] := by
  refine ⟨consistent_two, fun ⟨lawful, _⟩ => ?_⟩
  have made : (two.perform_all delete_both).toBool = true := by decide
  cases done : two.perform_all delete_both with
  | error e =>
    rw [done] at made
    cases made
  | ok p => exact absurd ((commit_iff done).mp (lawful p done).1).1 (by decide)

/-- One is deleted and the other tagged. -/
theorem lawful_two : StepsSatisfy State.next State.Lawful two
    [[.delete .integration "one", .edit .integration "two" [.add_tag "kept"]]] :=
  (history_lawful_iff consistent_two _).mpr ⟨fun _ _ => ⟨by decide, by decide⟩, fun _ _ => trivial⟩

end CppTransport.Runtime.RecordUpdates
