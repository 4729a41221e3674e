import CppTransport.Library.Memo
import CppTransport.Runtime.CommitDependencies
import CppTransport.Runtime.RecordUpdates

/-!
# The record caches

A repository remembers the records that it has read, each under its name, in a cache for packages,
one for tasks, one for derived products and one for each kind of content group. A record holds the
records that it refers to, which are read in the same way. The caches are in use while no
transaction is counted, and are flushed when one begins, is committed or is aborted.

## The model

* `Loaded`: a record that has been read;
* `View.query_package` and its siblings: how it is read, where records that it refers to are asked for;
* `State`, `Event`: a repository object, its transaction, and what is done with them. A
  `transaction_manager` is local to the function that opens it, which another such function does
  not call: no other is constructed before it is destroyed;
* `State.query`: a query, through the caches.

## What is proved

* `answered_of_readable`: what a record refers to is there, so that it is read;
* `inv_after`: the caches hold what is in the database and the documents while no transaction is under way;
* `query_reads`: a query gives what is read directly, and misses a record only if there is no row.
-/

namespace CppTransport.Runtime.RecordCache

open Library Library.System RecordStore

def CPPTRANSPORT_REPO_SEARCH_MULTIPLE_RETURN : String :=
  "Repository error: database search returned multiple matches"
def CPPTRANSPORT_REPO_FAIL_KCONFIG_DATABASE_OPEN : String :=
  "Repository error: failed to open kconfiguration database for task"
def CPPTRANSPORT_REPO_TASK_DESERIALIZE_FAIL : String := "Repository error: failed to deserialize task"
def CPPTRANSPORT_REPO_ZETA_TASK_NOT_DERIVABLE : String :=
  "Repository error: task named in zeta task is not of derivable-type"
def CPPTRANSPORT_REPO_TASK_NOT_INTEGRATION : String :=
  "Repository error: derived product requires an integration task"
def CPPTRANSPORT_REPO_DELETE_OUTPUT_UNSTORED : String :=
  "Repository error: attempt to delete content group for unstored name"

/-! ### Records that are read -/

/-- The kinds of content groups. -/
abbrev Payload := ContentNames.GroupTable

/-- The table of the content groups of a kind. -/
def Payload.kind : Payload → Kind
  | .integration => .integration_group
  | .postintegration => .postintegration_group
  | .output => .output_group

/-- The table of the tasks that they belong to. -/
def Payload.task_kind : Payload → Kind
  | .integration => .integration_task
  | .postintegration => .postintegration_task
  | .output => .output_task

/-- The caches. -/
inductive Target where
  | package
  | task
  | derived_product
  | content (payload : Payload)
deriving DecidableEq

/-- What names of records of this cache are told apart by. -/
def Target.category : Target → Category
  | package => .package
  | task => .task
  | derived_product => .product
  | content _ => .group

/-- A cache, and a name. -/
abbrev Key := Target × String

/-- What is looked for under a key. -/
def Key.need (k : Key) : Need := (k.1.category, k.2)

variable {δ : Type}

/-- A record that has been read, with the database of configurations and the records that it holds. -/
inductive Loaded (δ : Type) where
  | mk (kind : Kind) (json : Json δ) (kconfig : Option (Json δ)) (found : List (Loaded δ))

def Loaded.kind : Loaded δ → Kind
  | mk kind .. => kind

def Loaded.json : Loaded δ → Json δ
  | mk _ json .. => json

/-- A program that reads, and asks for other records. -/
abbrev Read (δ α : Type) := Inquiry Key (Loaded δ) Raised α

/-- The database, and the documents in their places. -/
structure View (δ : Type) where
  tables : Tables
  documents : Document → Option (Json δ)

/-- `internal_find`. -/
def internal_find (t : Tables) (k : Kind) (name : String) : Except Raised RecordStore.Row :=
  match (t k).filter fun row => row.name = name with
  | [] => .error (.record_not_found name)
  | [row] => .ok row
  | rows => .error (.repository_backend_error
      (CPPTRANSPORT_REPO_SEARCH_MULTIPLE_RETURN ++ " (" ++ toString rows.length ++ ")"))

/-- The hint for `query_task`. -/
inductive query_task_hint where
  | integration
  | postintegration
  | output
  | no_hint
deriving DecidableEq

/-- A document of another kind cannot be read. -/
def malformed {α : Type} : Read δ α := .done (.error (.serialization_error CPPTRANSPORT_REPO_TASK_DESERIALIZE_FAIL))

namespace View

variable (v : View δ)

/-- The document of the record in this row. -/
def deserialize_JSON_document (k : Kind) (row : RecordStore.Row) : Except Raised (Json δ) :=
  match v.documents (.record k.category row.name) with
  | some json => .ok json
  | none => .error (.repository_error
      (RecordUpdates.CPPTRANSPORT_REPO_DESERIALIZE_CANT_OPEN ++ " '" ++ row.path ++ "'"))

/-- The row of the record, and its document. -/
def find_document (k : Kind) (name : String) : Except Raised (Json δ) := do
  let row ← internal_find v.tables k name
  v.deserialize_JSON_document k row

/-- `sqlite3_open_v2` of the database of configurations. -/
def open_kconfig_database (name : String) : Except Raised (Json δ) :=
  match v.documents (.kconfig_database name) with
  | some kconfig => .ok kconfig
  | none => .error (.repository_backend_error (CPPTRANSPORT_REPO_FAIL_KCONFIG_DATABASE_OPEN ++ " '" ++ name ++ "'"))

/-- `package_record_factory`. -/
def package_record_factory (json : Json δ) : Read δ (Loaded δ) := .done (.ok ⟨.package, json, none, []⟩)

/-- `integration_task_record_factory`: the package is looked for by the finder. -/
def integration_task_record_factory (name : String) : Json δ → Read δ (Loaded δ)
  | .integration_task pkg data => do
    let kconfig ← Inquiry.done (v.open_kconfig_database name)
    let record ← Inquiry.find (.package, pkg)
    .done (.ok ⟨.integration_task, .integration_task pkg data, some kconfig, [record]⟩)
  | _ => malformed

/-- `postintegration_task_record_factory`: the parent is to be a task that products can be derived from. -/
def postintegration_task_record_factory : Json δ → Read δ (Loaded δ)
  | .postintegration_task parent data => do
    let record ← Inquiry.find (.task, parent)
    if record.kind = .output_task then
      .done (.error (.repository_error (CPPTRANSPORT_REPO_ZETA_TASK_NOT_DERIVABLE ++ " '" ++ parent ++ "'")))
    else .done (.ok ⟨.postintegration_task, .postintegration_task parent data, none, [record]⟩)
  | _ => malformed

/-- `output_task_record_factory`: the products are looked for. -/
def output_task_record_factory : Json δ → Read δ (Loaded δ)
  | .output_task products data => do
    let records ← Inquiry.collect (fun name => do
      let record ← Inquiry.find (.derived_product, name)
      .done (.ok [record])) products
    .done (.ok ⟨.output_task, .output_task products data, none, records⟩)
  | _ => malformed

/-- `integration_task_gadget::set_task`. -/
def set_task (name : String) : Read δ (List (Loaded δ)) := do
  let record ← Inquiry.find (.task, name)
  if record.kind ≠ .integration_task then .done (.error (.repository_error CPPTRANSPORT_REPO_TASK_NOT_INTEGRATION))
  else .done (.ok [record])

/-- The constructors of lines: the parent task, and what the gadget is set to. -/
def derived_line (line : String × Gadget) : Read δ (List (Loaded δ)) := do
  let record ← Inquiry.find (.task, line.1)
  if record.kind = .output_task then .done (.error .assertion)
  else
    match line.2 with
    | .none => .done (.ok [record])
    | .task => do
      let gadget ← set_task line.1
      .done (.ok (record :: gadget))
    | .parent =>
      match record.json with
      | .postintegration_task parent _ => do
        let gadget ← set_task parent
        .done (.ok (record :: gadget))
      | _ => .done (.error .assertion)

/-- `derived_product_record_factory`. -/
def derived_product_record_factory : Json δ → Read δ (Loaded δ)
  | .derived_product lines data => do
    let records ← Inquiry.collect derived_line lines
    .done (.ok ⟨.derived_product, .derived_product lines data, none, records⟩)
  | _ => malformed

/-- `content_group_record_factory`. -/
def content_group_record_factory (payload : Payload) (json : Json δ) : Read δ (Loaded δ) :=
  .done (.ok ⟨payload.kind, json, none, []⟩)

/-- `query_package`. -/
def query_package (name : String) : Read δ (Loaded δ) := do
  let root ← Inquiry.done (v.find_document .package name)
  package_record_factory root

/-- `query_task`. -/
def query_task (name : String) (hint : query_task_hint) : Read δ (Loaded δ) :=
  if hint = .integration ∨ hint = .no_hint ∧ 0 < internal_count v.tables .integration_task name then do
    let root ← Inquiry.done (v.find_document .integration_task name)
    v.integration_task_record_factory name root
  else if hint = .postintegration ∨ hint = .no_hint ∧ 0 < internal_count v.tables .postintegration_task name then do
    let root ← Inquiry.done (v.find_document .postintegration_task name)
    postintegration_task_record_factory root
  else if hint = .output ∨ hint = .no_hint ∧ 0 < internal_count v.tables .output_task name then do
    let root ← Inquiry.done (v.find_document .output_task name)
    output_task_record_factory root
  else .done (.error (.record_not_found name))

/-- `query_derived_product`. -/
def query_derived_product (name : String) : Read δ (Loaded δ) := do
  let root ← Inquiry.done (v.find_document .derived_product name)
  derived_product_record_factory root

/-- `query_content_group`. -/
def query_content_group (payload : Payload) (name : String) : Read δ (Loaded δ) := do
  let root ← Inquiry.done (v.find_document payload.kind name)
  content_group_record_factory payload root

/-- How what is under a key is read; records that are held are looked for without a hint. -/
def program : Key → Read δ (Loaded δ)
  | (.package, name) => v.query_package name
  | (.task, name) => v.query_task name .no_hint
  | (.derived_product, name) => v.query_derived_product name
  | (.content payload, name) => v.query_content_group payload name

end View

/-! ### Queries -/

/-- A query; `enumerate_tasks` gives a hint, since it has the name from one of the tables. -/
inductive Query where
  | query_package (name : String)
  | query_task (name : String) (hint : query_task_hint)
  | query_derived_product (name : String)
  | query_content (payload : Payload) (name : String)
deriving DecidableEq

namespace Query

/-- The cache that is looked into, and the name. -/
def key : Query → Key
  | query_package name => (.package, name)
  | query_task name _ => (.task, name)
  | query_derived_product name => (.derived_product, name)
  | query_content payload name => (.content payload, name)

/-- How the record is read. -/
def read (v : View δ) : Query → Read δ (Loaded δ)
  | query_package name => v.query_package name
  | query_task name hint => v.query_task name hint
  | query_derived_product name => v.query_derived_product name
  | query_content payload name => v.query_content_group payload name

/-- The tables that have a row of the record, if there is one. -/
def kinds : Query → List Kind
  | query_package _ => [.package]
  | query_task .. => [.integration_task, .postintegration_task, .output_task]
  | query_derived_product _ => [.derived_product]
  | query_content payload _ => [payload.kind]

/-- There is a row of the record. -/
def HasRow (t : Tables) (q : Query) : Prop := ∃ k ∈ q.kinds, 0 < internal_count t k q.key.2

/-- A hint says what is so. -/
def Hinted (t : Tables) : Query → Prop
  | query_task name .integration => 0 < internal_count t .integration_task name
  | query_task name .postintegration => 0 < internal_count t .postintegration_task name
  | query_task name .output => 0 < internal_count t .output_task name
  | _ => True

end Query

/-! ### Transactions -/

/-- What is done through a transaction. -/
inductive Update (δ : Type) where
  /-- An object is committed. -/
  | commit (x : Object δ)
  /-- A writer stores a content group. -/
  | store_content (payload : Payload) (name task : String) (data : δ)
  /-- A record that has been read is committed with other data, and with a modified database of configurations. -/
  | replace (k : Kind) (name : String) (data : δ) (kconfig : Option δ)
  /-- A content group is deleted, and taken out of the record of its task; it may be locked. -/
  | delete_content (payload : Payload) (name task : String) (locked : Bool) (data : δ)

/-- The document with other data. -/
def with_data (data : δ) : Json δ → Json δ
  | .package _ => .package data
  | .integration_task pkg _ => .integration_task pkg data
  | .postintegration_task parent _ => .postintegration_task parent data
  | .output_task products _ => .output_task products data
  | .derived_product lines _ => .derived_product lines data
  | .content_group task _ => .content_group task data
  | .kconfig_database _ => .kconfig_database data

/-- `generic_delete_group`. -/
def generic_delete_group (t : Tables) (k : Kind) (name task : String) : Except Raised Tables :=
  if internal_count t k name ≠ 1 then
    .error (.repository_backend_error (CPPTRANSPORT_REPO_DELETE_OUTPUT_UNSTORED ++ " '" ++ name ++ "'"))
  else .ok (Function.update t k ((t k).filter fun row => ¬(row.name = name ∧ row.reference = some task)))

namespace Update

variable (p : Pending δ)

/-- What can be read inside a transaction: what is staged is not. Here only the document of the record itself is read;
where a record that it holds cannot be read, the function ends as it does when an update throws. -/
def view : View δ := ⟨p.tables, p.documents.docs⟩

/-- `commit_replace`, and `commit_integration_replace` for integration tasks, of a record that has been read. -/
def commit_replace (k : Kind) (name : String) (data : δ) (kconfig : Option δ) : Except Raised (Pending δ) := do
  let json ← (view p).find_document k name
  if p.readwrite then
    let p := p.commit_JSON_document (.record k.category name) (with_data data json)
    .ok (if k = .integration_task then p.commit_kconfig_database ⟨k, name, json, kconfig⟩ else p)
  else .error (.repository_error (CPPTRANSPORT_REPO_COMMIT_READONLY ++ " '" ++ name ++ "'"))

/-- `delete_content`, of a content group of the task. The output is moved to the trash with the journal. -/
def delete (payload : Payload) (name task : String) (locked : Bool) (data : δ) : Except Raised (Pending δ) := do
  let _ ← (view p).find_document payload.task_kind task
  let _ ← (view p).find_document payload.kind name
  if locked then
    .error (.repository_error (RecordUpdates.CPPTRANSPORT_REPO_GROUP_IS_LOCKED ++ " '" ++ name ++ "'"))
  else
    let p ← commit_replace p payload.task_kind task data none
    let tables ← generic_delete_group p.tables payload.kind name task
    .ok { p with tables }

/-- What is done through a transaction. -/
def perform : Update δ → Except Raised (Pending δ)
  | commit x => p.perform x
  | store_content payload name task data => p.commit_record ⟨payload.kind, name, .content_group task data, none⟩
  | replace k name data kconfig => commit_replace p k name data kconfig
  | delete_content payload name task locked data => delete p payload name task locked data

end Update

/-- A `transaction_manager`. -/
structure Manager where
  journal : List Document
  committed : Bool
  dead : Bool
deriving DecidableEq

/-- A repository object, with the database and the documents. -/
structure State (δ : Type) where
  readwrite : Bool
  tables : Tables
  /-- What the tables go back to, if the database is in a transaction. -/
  saved : Option Tables
  documents : Staging fun _ : Document => Json δ
  caches : Cache Key (Loaded δ)
  transactions : ℕ
  /-- The manager that has been constructed, and not destroyed. -/
  manager : Option Manager

/-- What a commit meets with. -/
inductive Ending where
  /-- The lockfile is not there, or it is another's. -/
  | lock_lost
  /-- After so many records of the journal, one cannot be renamed. -/
  | journal_fails (records : ℕ)
  | commit_fails
  | committed
deriving DecidableEq

namespace State

variable (s : State δ)

/-- What can be read. -/
def view : View δ := ⟨s.tables, s.documents.docs⟩

/-- A query, with so many nested calls: the caches are in use while no transaction is counted. -/
def query (n : ℕ) (q : Query) : Option (Except Raised (Loaded δ) × Cache Key (Loaded δ)) :=
  consult (s.transactions = 0) q.key ((q.read s.view).run_cached (lookup s.view.program (s.transactions = 0) n))
    s.caches

def flush_caches : State δ := { s with caches := fun _ => none }

/-- `begin_transaction`. -/
def begin_transaction : State δ := { s with saved := some s.tables }.flush_caches

/-- `commit_transaction`. -/
def commit_transaction : State δ := { s with saved := none }.flush_caches

/-- `abort_transaction`; it fails outside a transaction. -/
def abort_transaction : Option (State δ) := s.saved.map fun t => { s with tables := t, saved := none }.flush_caches

/-- `release_transaction`. -/
def release_transaction : State δ := { s with transactions := s.transactions - 1 }

/-- `transaction_factory`: the counter goes up first, and then there may be no lock, or `BEGIN` may fail. -/
def transaction_factory (locked begin_fails : Bool) : State δ :=
  if 0 < s.transactions then s
  else
    let s := { s with transactions := s.transactions + 1 }
    if locked || begin_fails then s else { s.begin_transaction with manager := some ⟨[], false, false⟩ }

/-- `transaction_manager::commit`. -/
def commit (m : Manager) : Ending → State δ
  | .lock_lost => (s.abort_transaction.map release_transaction).getD s
  | .journal_fails n => { s with documents := (commit_journal s.documents (m.journal.take n)).1 }
  | .commit_fails => { s with documents := (commit_journal s.documents m.journal).1 }
  | .committed =>
    match commit_journal s.documents m.journal with
    | (documents, some _) => { s with documents }
    | (documents, none) =>
      ({ s with documents, manager := some { m with committed := true } }.commit_transaction).release_transaction

/-- The records of the journal are rolled back: what is staged is removed. -/
def rollback_journal (m : Manager) : State δ :=
  { s with documents := { s.documents with temp := fun d => if d ∈ m.journal then none else s.documents.temp d } }

/-- `transaction_manager::rollback`. -/
def rollback (m : Manager) : State δ :=
  match (s.rollback_journal m).abort_transaction with
  | some s => { s with manager := some { m with dead := true } }.release_transaction
  | none => s.rollback_journal m

/-- `transaction_manager::~transaction_manager`. -/
def destroy (m : Manager) : State δ :=
  { (if !m.committed && !m.dead then s.rollback m else s) with manager := none }

/-- An update; one that throws ends the function, and the manager is destroyed. -/
def update (m : Manager) (u : Update δ) : State δ :=
  match u.perform ⟨s.readwrite, s.tables, s.documents, m.journal⟩ with
  | .ok p => { s with tables := p.tables, documents := p.documents, manager := some { m with journal := p.journal } }
  | .error _ => s.destroy m

/-- A repository object is constructed, for what the last one has left. -/
def reopen (readwrite : Bool) : State δ :=
  ⟨readwrite, s.saved.getD s.tables, none, s.documents, fun _ => none, 0, none⟩

/-- A repository in which nothing is stored. -/
def empty (readwrite : Bool) : State δ :=
  ⟨readwrite, fun _ => [], none, ⟨fun _ => none, fun _ => none⟩, fun _ => none, 0, none⟩

end State

/-- What is done with a repository. -/
inductive Event (δ : Type) where
  | query (fuel : ℕ) (q : Query)
  | transaction_factory (locked begin_fails : Bool)
  | update (u : Update δ)
  | commit (e : Ending)
  | rollback
  | destroy
  | reopen (readwrite : Bool)

namespace State

variable (s : State δ)

/-- The manager, if there is one whose transaction is under way. -/
def underway : Option Manager := if s.saved.isSome then s.manager else none

/-- The state after an event; a manager is local to a function, and one whose transaction has ended is destroyed. -/
def after : Event δ → State δ
  | .query fuel q => ((s.query fuel q).map fun result => { s with caches := result.2 }).getD s
  | .transaction_factory locked begin_fails =>
    if s.manager.isSome then s else s.transaction_factory locked begin_fails
  | .update u => (s.underway.map fun m => s.update m u).getD s
  | .commit e => (s.underway.map fun m => s.commit m e).getD s
  | .rollback => (s.underway.map fun m => s.rollback m).getD s
  | .destroy => (s.manager.map fun m => s.destroy m).getD s
  | .reopen readwrite => s.reopen readwrite

end State

/-- The histories of a repository in which nothing is stored at first. -/
def system (δ : Type) : System (State δ) (Event δ) :=
  .ofNext (fun s => ∃ readwrite, s = .empty readwrite) fun s e => some (s.after e)

/-! ### What is there can be read -/

/-- Some record is not found. -/
def Missing (e : Raised) : Prop := ∃ name, e = .record_not_found name

/-- A record has a row, and its document; and so have the records that it refers to. -/
inductive Readable (t : Tables) (docs : Document → Option (Json δ)) : Need → Prop where
  | intro (need : Need) (k : Kind) (json : Json δ) : k.category = need.1 → need.2 ∈ (t k).map (·.name) →
      docs (.record need.1 need.2) = some json → json.IsOf k →
      (∀ need' ∈ json.needs, Readable t docs need') → Readable t docs need

/-- Every record can be read. -/
def Sound (t : Tables) (docs : Document → Option (Json δ)) : Prop :=
  ∀ k, ∀ row ∈ t k, Readable t docs (k.category, row.name)

/-- No name is there twice. -/
def Once (t : Tables) : Prop := ∀ need, count t need ≤ 1

section Reading

variable {v : View δ} {t : Tables} {need : Need} {k : Kind} {name : String} {json : Json δ}

theorem internal_count_pos : 0 < internal_count t k name ↔ name ∈ (t k).map (·.name) := by
  simp [internal_count, List.countP_pos_iff]

/-- Tables of one category do not share names. -/
theorem internal_count_eq_zero (once : Once t) (k k' : Kind) (ne : k ≠ k') (category : k.category = k'.category)
    (h : 0 < internal_count t k name) : internal_count t k' name = 0 := by
  have := once (k.category, name)
  cases k <;> cases k' <;> simp_all [Kind.category, count, count_tasks, count_groups] <;> omega

theorem internal_count_le_one (once : Once t) : internal_count t k name ≤ 1 := by
  have := once (k.category, name)
  cases k <;> simp_all [Kind.category, count, count_packages, count_tasks, count_products, count_groups] <;> omega

theorem internal_find_eq_ok (once : Once t) (h : name ∈ (t k).map (·.name)) :
    ∃ row, internal_find t k name = .ok row ∧ row.name = name := by
  obtain ⟨row, mem, same⟩ := List.mem_map.mp h
  have one : ((t k).filter fun row => row.name = name).length = 1 := by
    rw [← List.countP_eq_length_filter]
    have : internal_count t k name ≤ 1 := internal_count_le_one once
    have := internal_count_pos.mpr h
    rw [internal_count] at *
    omega
  obtain ⟨row', eq⟩ := List.length_eq_one_iff.mp one
  have mem' : row' ∈ (t k).filter fun row => row.name = name := eq ▸ List.mem_singleton_self _
  exact ⟨row', by rw [internal_find, eq], of_decide_eq_true (List.mem_filter.mp mem').2⟩

theorem internal_find_eq_missing (h : ¬ 0 < internal_count t k name) :
    internal_find t k name = .error (.record_not_found name) := by
  have none : (t k).filter (fun row => row.name = name) = [] := by
    rw [← List.length_eq_zero_iff, ← List.countP_eq_length_filter]
    rw [internal_count] at h
    omega
  rw [internal_find, none]

/-- The document of a record that has a row. -/
theorem find_document_eq_ok (once : Once v.tables) (h : name ∈ (v.tables k).map (·.name))
    (there : v.documents (.record k.category name) = some json) : v.find_document k name = .ok json := by
  obtain ⟨row, found, same⟩ := internal_find_eq_ok once h
  simp [View.find_document, found, View.deserialize_JSON_document, same, there, bind, Except.bind]

theorem find_document_eq_missing (h : ¬ 0 < internal_count v.tables k name) :
    v.find_document k name = .error (.record_not_found name) := by
  simp [View.find_document, internal_find_eq_missing h, bind, Except.bind]

/-! ### Tasks -/

/-- A hint that is right changes nothing. -/
theorem query_task_hint_eq (once : Once v.tables) {hint : query_task_hint}
    (hinted : (Query.query_task name hint).Hinted v.tables) :
    v.query_task name hint = v.query_task name .no_hint := by
  cases hint with
  | no_hint => rfl
  | integration =>
    rw [Query.Hinted] at hinted
    simp [View.query_task, hinted]
  | postintegration =>
    rw [Query.Hinted] at hinted
    have integration := internal_count_eq_zero once .postintegration_task .integration_task (by simp) rfl hinted
    simp [View.query_task, hinted, integration]
  | output =>
    rw [Query.Hinted] at hinted
    have integration := internal_count_eq_zero once .output_task .integration_task (by simp) rfl hinted
    have post := internal_count_eq_zero once .output_task .postintegration_task (by simp) rfl hinted
    simp [View.query_task, hinted, integration, post]

/-- The counts tell which table to look into. -/
theorem query_task_eq (once : Once v.tables) (h : name ∈ (v.tables k).map (·.name)) (category : k.category = .task)
    (there : v.documents (.record .task name) = some json) :
    v.query_task name .no_hint = match k with
      | .integration_task => v.integration_task_record_factory name json
      | .postintegration_task => View.postintegration_task_record_factory json
      | _ => View.output_task_record_factory json := by
  have pos := internal_count_pos.mpr h
  have found := find_document_eq_ok once h (category ▸ there)
  have others : ∀ k', k' ≠ k → k'.category = .task → internal_count v.tables k' name = 0 := fun k' ne category' =>
    internal_count_eq_zero once k k' ne.symm (category.trans category'.symm) pos
  cases k with
  | integration_task =>
    simp only [View.query_task, pos, found]
    rfl
  | postintegration_task =>
    simp only [View.query_task, others .integration_task (by simp) rfl, pos, found]
    rfl
  | output_task =>
    simp only [View.query_task, others .integration_task (by simp) rfl, others .postintegration_task (by simp) rfl,
      pos, found]
    rfl
  | _ => cases category

/-- A task that is in none of the tables is missed. -/
theorem query_task_eq_missing (hint : query_task_hint)
    (h : ∀ k : Kind, k.category = .task → ¬ 0 < internal_count v.tables k name) :
    v.query_task name hint = .done (.error (.record_not_found name)) := by
  have integration := find_document_eq_missing (h .integration_task rfl)
  have post := find_document_eq_missing (h .postintegration_task rfl)
  have output := find_document_eq_missing (h .output_task rfl)
  have none := h .integration_task rfl
  have none' := h .postintegration_task rfl
  have none'' := h .output_task rfl
  cases hint <;> simp_all [View.query_task] <;> rfl

/-- A hint that is wrong leads to a table in which there is no row. -/
theorem query_task_eq_of_not_hinted {hint : query_task_hint} (h : ¬ (Query.query_task name hint).Hinted v.tables) :
    v.query_task name hint = .done (.error (.record_not_found name)) := by
  cases hint with
  | no_hint => exact absurd trivial h
  | integration =>
    simp only [View.query_task, find_document_eq_missing h]
    rfl
  | postintegration =>
    simp only [View.query_task, find_document_eq_missing h]
    rfl
  | output =>
    simp only [View.query_task, find_document_eq_missing h]
    rfl

/-! ### What is read -/

/-- A record is what its document says. -/
def Says (v : View δ) (key : Key) (record : Loaded δ) : Prop :=
  v.documents (.record key.need.1 key.need.2) = some record.json

/-- What is under the key is read, and if that fails then not for a record that is missed. -/
abbrev Given (v : View δ) (key : Key) : Prop := Answered v.program (Says v) (fun e => ¬ Missing e) key

/-- The programs that ask only for what is read, and miss no record themselves. -/
abbrev Reads (v : View δ) {α : Type} (ends : α → Prop) (q : Read δ α) : Prop :=
  q.Always (Given v) (Says v) (fun e => ¬ Missing e) ends

theorem reads_malformed {α : Type} {ends : α → Prop} : Reads v ends malformed := by
  simp [malformed, Inquiry.Always, Missing]

theorem reads_integration_task (there : v.documents (.record .task name) = some json)
    (pkg : ∀ need' ∈ json.needs, need'.1 = .package → Given v (.package, need'.2)) :
    Reads v (Says v (.task, name)) (v.integration_task_record_factory name json) := by
  cases json with
  | integration_task p data =>
    rw [View.integration_task_record_factory, View.open_kconfig_database]
    cases v.documents (.kconfig_database name) with
    | none => simp [bind, Inquiry.bind, Inquiry.Always, Missing]
    | some kconfig =>
      show Reads v _ (Inquiry.find (.package, p) >>= _)
      exact Inquiry.always_bind (Inquiry.always_find (pkg (.package, p) (by simp [Json.needs]) rfl)) fun _ _ => there
  | _ => exact reads_malformed

theorem reads_postintegration_task (there : v.documents (.record .task name) = some json)
    (parent : ∀ need' ∈ json.needs, need'.1 = .task → Given v (.task, need'.2)) :
    Reads v (Says v (.task, name)) (View.postintegration_task_record_factory json) := by
  cases json with
  | postintegration_task p data =>
    refine Inquiry.always_bind (Inquiry.always_find (parent (.task, p) (by simp [Json.needs]) rfl)) fun record _ => ?_
    split_ifs
    · simp [Inquiry.Always, Missing]
    · exact there
  | _ => exact reads_malformed

theorem reads_output_task (there : v.documents (.record .task name) = some json)
    (products : ∀ need' ∈ json.needs, need'.1 = .product → Given v (.derived_product, need'.2)) :
    Reads v (Says v (.task, name)) (View.output_task_record_factory json) := by
  cases json with
  | output_task names data =>
    refine Inquiry.always_bind (Inquiry.always_collect fun name' mem => ?_) fun _ _ => there
    refine Inquiry.always_bind (Inquiry.always_find (products (.product, name') ?_ rfl)) fun _ _ => trivial
    exact List.mem_map_of_mem mem
  | _ => exact reads_malformed

theorem reads_set_task (given : Given v (.task, name)) : Reads v (fun _ => True) (View.set_task name : Read δ _) := by
  refine Inquiry.always_bind (Inquiry.always_find given) fun record _ => ?_
  split_ifs
  · simp [Inquiry.Always, Missing]
  · trivial

/-- A line reads its parent task, and perhaps the parent of that. -/
theorem reads_derived_line {line : String × Gadget} (given : Given v (.task, line.1))
    (parent : ∀ json, v.documents (.record .task line.1) = some json → ∀ need' ∈ json.needs, need'.1 = .task →
      Given v (.task, need'.2)) : Reads v (fun _ => True) (View.derived_line line : Read δ _) := by
  obtain ⟨name, gadget⟩ := line
  refine Inquiry.always_bind (Inquiry.always_find given) fun record told => ?_
  split_ifs
  · simp [Inquiry.Always, Missing]
  · cases gadget with
    | none => trivial
    | task => exact Inquiry.always_bind (reads_set_task given) fun _ _ => trivial
    | parent =>
      cases json : record.json with
      | postintegration_task p data =>
        refine Inquiry.always_bind (reads_set_task ?_) fun _ _ => trivial
        exact parent record.json told (.task, p) (by simp [json, Json.needs]) rfl
      | _ => simp [Inquiry.Always, Missing]

theorem reads_derived_product (there : v.documents (.record .product name) = some json)
    (tasks : ∀ need' ∈ json.needs, need'.1 = .task → Given v (.task, need'.2))
    (parents : ∀ need' ∈ json.needs, ∀ json', v.documents (.record need'.1 need'.2) = some json' →
      ∀ need'' ∈ json'.needs, need''.1 = .task → Given v (.task, need''.2)) :
    Reads v (Says v (.derived_product, name)) (View.derived_product_record_factory json) := by
  cases json with
  | derived_product lines data =>
    refine Inquiry.always_bind (Inquiry.always_collect fun line mem => ?_) fun _ _ => there
    have mem' : (Category.task, line.1) ∈ (Json.derived_product lines data).needs :=
      List.mem_map.mpr ⟨line, mem, rfl⟩
    exact reads_derived_line (tasks _ mem' rfl) (parents _ mem')
  | _ => exact reads_malformed

/-- The cache for what is looked for by other records. -/
def target : Category → Option Target
  | .package => some .package
  | .task => some .task
  | .product => some .derived_product
  | .group => none

/-- **What is there is read**, with what it refers to. -/
theorem answered_of_readable (once : Once v.tables) (h : Readable v.tables v.documents need) :
    (∀ c ∈ target need.1, Given v (c, need.2)) ∧
      ∀ json, v.documents (.record need.1 need.2) = some json → ∀ need' ∈ json.needs, ∀ c ∈ target need'.1,
        Given v (c, need'.2) := by
  induction h with
  | intro need k json category named there isOf needs ih =>
    obtain ⟨category', name⟩ := need
    have deps : ∀ need' ∈ json.needs, ∀ c ∈ target need'.1, Given v (c, need'.2) := fun need' mem => (ih need' mem).1
    have deps_of : ∀ {c : Category} {c' : Target}, target c = some c' → ∀ need' ∈ json.needs, need'.1 = c →
        Given v (c', need'.2) := fun eq need' mem same => deps need' mem _ (same ▸ eq)
    refine ⟨fun c hc => ?_, fun json' there' => ?_⟩
    · apply answered_of_always
      cases category' with
      | package =>
        obtain rfl := Option.some.inj hc
        cases k with
        | package =>
          rw [View.program, View.query_package, find_document_eq_ok once named there]
          exact there
        | _ => cases category
      | task =>
        obtain rfl := Option.some.inj hc
        rw [View.program, query_task_eq once named category there]
        cases k with
        | integration_task => exact reads_integration_task there (deps_of rfl)
        | postintegration_task => exact reads_postintegration_task there (deps_of rfl)
        | output_task => exact reads_output_task there (deps_of rfl)
        | _ => cases category
      | product =>
        obtain rfl := Option.some.inj hc
        cases k with
        | derived_product =>
          rw [View.program, View.query_derived_product, find_document_eq_ok once named there]
          refine reads_derived_product there (deps_of rfl) fun need' mem json' there' need'' mem' same => ?_
          exact (ih need' mem).2 json' there' need'' mem' _ (same ▸ rfl)
        | _ => cases category
      | group => cases hc
    · obtain rfl := Option.some.inj (there.symm.trans there')
      exact deps

end Reading

/-! ### Documents that are replaced -/

/-- Documents that refer to the same records, and are of the same kinds. -/
def Alike (json json' : Json δ) : Prop := json.needs = json'.needs ∧ ∀ k, json.IsOf k ↔ json'.IsOf k

theorem Alike.refl (json : Json δ) : Alike json json := ⟨rfl, fun _ => Iff.rfl⟩

theorem alike_with_data (data : δ) (json : Json δ) : Alike (with_data data json) json := by
  cases json <;> exact ⟨rfl, fun _ => Iff.rfl⟩

/-- The records of content groups refer to none. -/
theorem needs_of_group {json : Json δ} {k : Kind} (isOf : json.IsOf k) (group : k.category = .group) :
    json.needs = [] := by
  cases json with
  | content_group => rfl
  | kconfig_database => rfl
  | _ => cases isOf; cases group

theorem alike_of_group {json json' : Json δ} {k k' : Kind} (isOf : json.IsOf k) (isOf' : json'.IsOf k')
    (group : k.category = .group) (group' : k'.category = .group) : Alike json json' := by
  cases json with
  | content_group =>
    cases json' with
    | content_group => exact ⟨rfl, fun _ => Iff.rfl⟩
    | kconfig_database => exact isOf'.elim
    | _ => cases isOf'; cases group'
  | kconfig_database => exact isOf.elim
  | _ => cases isOf; cases group

theorem needs_ne_group {json : Json δ} {need : Need} (h : need ∈ json.needs) : need.1 ≠ .group := by
  cases json <;> simp only [Json.needs, List.mem_map, List.mem_singleton, List.not_mem_nil] at h
  case integration_task => simp [h]
  case postintegration_task => simp [h]
  all_goals
    obtain ⟨_, -, rfl⟩ := h
    simp

section Soundness

variable {t t' : Tables} {docs docs' : Document → Option (Json δ)} {need : Need} {k : Kind} {name : String}

/-- What can be read, can be read where there are more rows, and documents are replaced by others that are alike. -/
theorem Readable.mono {P : Need → Prop} (closed : ∀ need, need.1 ≠ .group → P need)
    (rows : ∀ k name, P (k.category, name) → name ∈ (t k).map (·.name) → name ∈ (t' k).map (·.name))
    (alike : ∀ need json, P need → Named t need → docs (.record need.1 need.2) = some json →
      ∃ json', docs' (.record need.1 need.2) = some json' ∧ Alike json' json)
    (h : Readable t docs need) (hP : P need) : Readable t' docs' need := by
  induction h with
  | intro need k json category named there isOf needs ih =>
    obtain ⟨json', there', same, kinds⟩ := alike need json hP (named_iff.mpr ⟨k, category, named⟩) there
    refine .intro need k json' category (rows k need.2 (category ▸ hP) named) there' ((kinds k).mpr isOf) ?_
    intro need' mem
    rw [same] at mem
    exact ih need' mem (closed need' (needs_ne_group mem))

theorem Sound.readable (h : Sound t docs) (named : Named t need) : Readable t docs need := by
  obtain ⟨k, category, mem⟩ := named_iff.mp named
  obtain ⟨row, hrow, name⟩ := List.mem_map.mp mem
  have readable := h k row hrow
  rwa [category, name] at readable

/-- The document of a record that can be read. -/
theorem Readable.exists_document (h : Readable t docs need) : ∃ k json, k.category = need.1 ∧
    docs (.record need.1 need.2) = some json ∧ json.IsOf k := by
  obtain ⟨_, k, json, category, -, there, isOf, -⟩ := h
  exact ⟨k, json, category, there, isOf⟩

/-- Where documents are replaced by others that are alike. -/
theorem Sound.of_alike (h : Sound t docs)
    (alike : ∀ need json, Named t need → docs (.record need.1 need.2) = some json →
      ∃ json', docs' (.record need.1 need.2) = some json' ∧ Alike json' json) : Sound t docs' := fun k row mem =>
  (h k row mem).mono (P := fun _ => True) (fun _ _ => trivial) (fun _ _ _ => id)
    (fun need json _ => alike need json) trivial

/-- New records can be read, if what they refer to is known. -/
theorem readable_of_settled {known : Need → Prop} {new : List (Record δ)}
    (base : ∀ need, known need → Readable t docs need) (settled : RecordStore.Settled known new)
    (there : ∀ rec ∈ new, rec.name ∈ (t rec.kind).map (·.name) ∧
      docs (.record rec.kind.category rec.name) = some rec.json ∧ rec.json.IsOf rec.kind) :
    ∀ rec ∈ new, Readable t docs rec.key := by
  induction new generalizing known with
  | nil => simp
  | cons rec new ih =>
    obtain ⟨needs, rest⟩ := settled
    obtain ⟨⟨named, document, isOf⟩, others⟩ := List.forall_mem_cons.mp there
    have readable : Readable t docs rec.key :=
      .intro rec.key rec.kind rec.json rfl named document isOf fun need mem => base need (needs need mem)
    refine List.forall_mem_cons.mpr ⟨readable, ih ?_ rest others⟩
    rintro need (known | rfl)
    · exact base need known
    · exact readable

end Soundness

/-! ### A transaction that is under way -/

/-- What the documents are when the journal has gone through. -/
def final (p : Pending δ) (d : Document) : Option (Json δ) :=
  if d ∈ p.journal then (p.documents.temp d).or (p.documents.docs d) else p.documents.docs d

/-- A transaction that has begun with the tables `t`. -/
structure Live (t : Tables) (p : Pending δ) : Prop where
  once : Once t
  /-- If the tables go back, then every record can be read. -/
  sound : Sound t p.documents.docs
  /-- Only content groups are deleted. -/
  kept : ∀ k, k.category ≠ .group → ∀ row ∈ t k, row ∈ p.tables k
  unique : Once p.tables
  /-- What is to replace a document is like it. -/
  alike : ∀ need, Named t need → .record need.1 need.2 ∈ p.journal →
    ∀ json, p.documents.temp (.record need.1 need.2) = some json →
      ∃ json', p.documents.docs (.record need.1 need.2) = some json' ∧ Alike json json'
  /-- If the journal goes through, then every record can be read. -/
  sound_final : p.journal.Nodup → Sound p.tables (final p)

namespace Live

variable {t : Tables} {p p' : Pending δ} {new : List (Record δ)}

theorem begin {readwrite : Bool} {t : Tables} {documents : Staging fun _ : Document => Json δ} (once : Once t)
    (sound : Sound t documents.docs) : Live t ⟨readwrite, t, documents, []⟩ where
  once := once
  sound := sound
  kept _ _ _ := id
  unique := once
  alike _ _ h := by cases h
  sound_final _ := by
    have same : final ⟨readwrite, t, documents, []⟩ = documents.docs := by
      funext d
      simp [final]
    rwa [same]

/-- Records are stored. -/
theorem stores (live : Live t p) (h : p.Stores new p') (isOf : ∀ rec ∈ new, rec.json.IsOf rec.kind) : Live t p' := by
  -- the documents that are written for the new records
  have written : ∀ {need : Need} {rec : Record δ}, rec ∈ new →
      Document.record need.1 need.2 ∈ rec.writes.map (·.1) →
      rec.key = need ∧ p'.documents.temp (.record need.1 need.2) = some rec.json := by
    intro need rec hrec mem
    obtain ⟨w, hw, same⟩ := List.mem_map.mp mem
    have staged := h.staged rec hrec w hw
    simp only [Record.writes, List.mem_cons, List.mem_ite_nil_right, List.mem_map] at hw
    obtain rfl | ⟨-, data, -, rfl⟩ := hw
    · injection same with category name
      exact ⟨Prod.ext category name, by rw [← category, ← name]; exact staged⟩
    · cases same
  have others : ∀ {need : Need}, Named p.tables need → ∀ rec ∈ new,
      Document.record need.1 need.2 ∉ rec.writes.map (·.1) :=
    fun named rec hrec mem => h.fresh rec hrec ((written hrec mem).1 ▸ named)
  refine ⟨live.once, h.docs ▸ live.sound, fun k group row mem => ?_, h.count_le_one live.unique, ?_, ?_⟩
  · rw [h.tables]
    exact List.mem_append_left _ (live.kept k group row mem)
  · intro need named journalled json staged
    rw [h.docs]
    by_cases fresh : ∃ rec ∈ new, Document.record need.1 need.2 ∈ rec.writes.map (·.1)
    · obtain ⟨rec, hrec, mem⟩ := fresh
      obtain ⟨rfl, staged'⟩ := written hrec mem
      obtain rfl := Option.some.inj (staged'.symm.trans staged)
      obtain ⟨k, category, name⟩ := named_iff.mp named
      obtain ⟨k', json', category', there, isOf'⟩ := (live.sound.readable named).exists_document
      -- a name that was there before is only free if it is that of a content group
      by_cases group : rec.kind.category = .group
      · exact ⟨json', there, alike_of_group (isOf rec hrec) isOf' group (category'.trans group)⟩
      · obtain ⟨row, hrow, same⟩ := List.mem_map.mp name
        refine absurd (named_iff.mpr ⟨k, category, ?_⟩) (h.fresh rec hrec)
        exact same ▸ List.mem_map_of_mem (live.kept k (category ▸ group) row hrow)
    · push Not at fresh
      rw [h.others _ fresh] at staged
      refine live.alike need named ?_ json staged
      rw [h.journal] at journalled
      refine (List.mem_append.mp journalled).resolve_right fun mem => ?_
      obtain ⟨rec, hrec, mem⟩ := List.mem_flatMap.mp mem
      exact fresh rec hrec mem
  · intro distinct
    rw [h.journal] at distinct
    have sound := live.sound_final distinct.of_append_left
    have same : ∀ need, Named p.tables need → final p' (.record need.1 need.2) = final p (.record need.1 need.2) := by
      intro need named
      have notin : Document.record need.1 need.2 ∉ new.flatMap fun rec => rec.writes.map (·.1) := by
        intro mem
        obtain ⟨rec, hrec, mem⟩ := List.mem_flatMap.mp mem
        exact others named rec hrec mem
      simp only [final, h.journal, List.mem_append, notin, or_false, h.docs, h.others _ (others named)]
    have base : ∀ need, Named p.tables need → Readable p'.tables (final p') need := by
      intro need named
      refine (sound.readable named).mono (P := fun _ => True) (fun _ _ => trivial) ?_ ?_ trivial
      · intro k name _ mem
        rw [h.tables, List.map_append]
        exact List.mem_append_left _ mem
      · intro need json _ named there
        exact ⟨json, (same need named).trans there, .refl json⟩
    have there : ∀ rec ∈ new, rec.name ∈ (p'.tables rec.kind).map (·.name) ∧
        final p' (.record rec.kind.category rec.name) = some rec.json ∧ rec.json.IsOf rec.kind := by
      intro rec hrec
      have hw : (Document.record rec.kind.category rec.name, rec.json) ∈ rec.writes := List.mem_cons_self ..
      refine ⟨?_, ?_, isOf rec hrec⟩
      · rw [h.tables, List.map_append, List.map_map]
        exact List.mem_append_right _ (List.mem_map.mpr ⟨rec, List.mem_filter.mpr ⟨hrec, decide_eq_true rfl⟩, rfl⟩)
      · have mem : Document.record rec.kind.category rec.name ∈ p'.journal := by
          rw [h.journal]
          exact List.mem_append_right _ (List.mem_flatMap.mpr ⟨rec, hrec, List.mem_map_of_mem hw⟩)
        rw [final, if_pos mem, h.staged rec hrec _ hw]
        rfl
    have readable := readable_of_settled base h.settled there
    intro k row mem
    rw [h.tables] at mem
    rcases List.mem_append.mp mem with mem | mem
    · exact base _ (named_iff.mpr ⟨k, rfl, List.mem_map_of_mem mem⟩)
    · obtain ⟨rec, hrec, rfl⟩ := List.mem_map.mp mem
      obtain ⟨hrec, kind⟩ := List.mem_filter.mp hrec
      rw [← of_decide_eq_true kind]
      exact readable rec hrec

theorem temp_commit_self {d : Document} {json : Json δ} :
    (p.commit_JSON_document d json).documents.temp d = some json := Staging.temp_stage_self ..

theorem temp_commit_of_ne {d d' : Document} {json : Json δ} (h : d' ≠ d) :
    (p.commit_JSON_document d json).documents.temp d' = p.documents.temp d' := Staging.temp_stage_of_ne _ h _

/-- A document is staged that is like the one that it is to replace. -/
theorem commit_JSON_document (live : Live t p) {d : Document} {json : Json δ}
    (alike : ∀ category name, d = .record category name →
      ∃ json', p.documents.docs d = some json' ∧ Alike json json') : Live t (p.commit_JSON_document d json) := by
  refine ⟨live.once, live.sound, live.kept, live.unique, ?_, ?_⟩
  · intro need named journalled json₁ staged
    by_cases same : Document.record need.1 need.2 = d
    · subst same
      rw [temp_commit_self] at staged
      exact Option.some.inj staged ▸ alike _ _ rfl
    · rw [temp_commit_of_ne same] at staged
      refine live.alike need named ?_ json₁ staged
      exact (List.mem_append.mp journalled).resolve_right fun mem => same (List.mem_singleton.mp mem)
  · intro distinct
    have fresh : d ∉ p.journal := fun mem => List.disjoint_of_nodup_append distinct mem (List.mem_singleton_self d)
    refine (live.sound_final distinct.of_append_left).of_alike fun need json₁ named there => ?_
    by_cases same : Document.record need.1 need.2 = d
    · obtain ⟨json', before, like⟩ := alike _ _ same.symm
      rw [same, final, if_neg fresh, before] at there
      obtain rfl := Option.some.inj there
      refine ⟨json, ?_, like⟩
      have mem : d ∈ (p.commit_JSON_document d json).journal := List.mem_append_right _ (List.mem_singleton_self d)
      rw [same, final, if_pos mem, temp_commit_self]
      rfl
    · refine ⟨json₁, ?_, .refl json₁⟩
      rw [← there, final, final, temp_commit_of_ne same]
      simp [Pending.commit_JSON_document, same]

theorem find_document_document {k : Kind} {name : String} {json : Json δ} {v : View δ}
    (h : v.find_document k name = .ok json) : v.documents (.record k.category name) = some json := by
  obtain ⟨row, found, h⟩ := bind_eq_ok.mp h
  have same : row.name = name := by
    rw [internal_find] at found
    split at found
    · cases found
    · next row' rows =>
      obtain rfl := Except.ok.inj found
      have mem : row' ∈ (v.tables k).filter fun row => row.name = name := rows ▸ List.mem_singleton_self _
      exact of_decide_eq_true (List.mem_filter.mp mem).2
    · cases found
  rw [View.deserialize_JSON_document, same] at h
  cases there : v.documents (.record k.category name) with
  | none => simp [there] at h
  | some json' =>
    rw [there] at h
    exact congrArg some (Except.ok.inj h)

/-- A record is replaced. -/
theorem replace (live : Live t p) {k : Kind} {name : String} {data : δ} {kconfig : Option δ}
    (h : Update.commit_replace p k name data kconfig = .ok p') : Live t p' := by
  obtain ⟨json, found, h⟩ := bind_eq_ok.mp h
  have there : p.documents.docs (.record k.category name) = some json := find_document_document found
  have first : Live t (p.commit_JSON_document (.record k.category name) (with_data data json)) :=
    live.commit_JSON_document fun _ _ _ => ⟨json, there, alike_with_data data json⟩
  dsimp only at h
  split_ifs at h with readwrite kind
  · rw [← Except.ok.inj h, Pending.commit_kconfig_database]
    cases kconfig with
    | none => exact first
    | some data => exact first.commit_JSON_document fun _ _ other => by cases other
  · exact Except.ok.inj h ▸ first

/-- Rows of content groups are deleted. -/
theorem generic_delete_group (live : Live t p) {payload : Payload} {name task : String} {tables : Tables}
    (h : generic_delete_group p.tables payload.kind name task = .ok tables) : Live t { p with tables } := by
  have group : payload.kind.category = .group := by cases payload <;> rfl
  rw [RecordCache.generic_delete_group] at h
  split_ifs at h
  obtain rfl := Except.ok.inj h
  have less : ∀ k, (Function.update p.tables payload.kind ((p.tables payload.kind).filter fun row =>
      ¬(row.name = name ∧ row.reference = some task)) k).Sublist (p.tables k) := by
    intro k
    by_cases same : k = payload.kind
    · subst same
      rw [Function.update_self]
      exact List.filter_sublist
    · rw [Function.update_of_ne same]
  have kept : ∀ k, k.category ≠ .group → Function.update p.tables payload.kind
      ((p.tables payload.kind).filter fun row => ¬(row.name = name ∧ row.reference = some task)) k = p.tables k :=
    fun k other =>
    Function.update_of_ne (fun same => other ((congrArg Kind.category same).trans group)) ..
  refine ⟨live.once, live.sound, fun k other row mem => ?_, ?_, live.alike, fun distinct k row mem => ?_⟩
  · dsimp only
    rw [kept k other]
    exact live.kept k other row mem
  · rintro ⟨c, name⟩
    have all := live.unique (c, name)
    have fewer := fun k => (less k).countP_le (p := fun row => row.name = name)
    cases c
    · exact (fewer .package).trans all
    · exact (Nat.add_le_add (Nat.add_le_add (fewer .integration_task) (fewer .postintegration_task))
        (fewer .output_task)).trans all
    · exact (fewer .derived_product).trans all
    · exact (Nat.add_le_add (Nat.add_le_add (fewer .integration_group) (fewer .postintegration_group))
        (fewer .output_group)).trans all
  · have readable := live.sound_final distinct k row ((less k).subset mem)
    by_cases other : k.category = .group
    · -- a content group that is left needs nothing else
      obtain ⟨k', json, category, there, isOf⟩ := readable.exists_document
      refine .intro _ k json rfl (List.mem_map_of_mem mem) there ?_ fun need mem => ?_
      · cases json with
        | content_group => exact other
        | kconfig_database => exact isOf.elim
        | _ => cases isOf; rw [other] at category; cases category
      · rw [needs_of_group isOf (category.trans other)] at mem
        cases mem
    · refine readable.mono (P := fun need => need.1 ≠ .group) (fun _ => id) ?_ ?_ other
      · intro k name other mem
        dsimp only
        rwa [kept k other]
      · exact fun need json _ _ there => ⟨json, there, .refl json⟩

/-- **One update** of a transaction. -/
theorem perform (live : Live t p) {u : Update δ} (h : u.perform p = .ok p') : Live t p' := by
  cases u with
  | commit x =>
    obtain ⟨new, stores, sub⟩ := Pending.stores_of_perform h
    exact live.stores stores fun rec hrec => RecordStore.Repository.isOf_of_mem sub hrec
  | store_content payload name task data =>
    have group : payload.kind.category = .group := by cases payload <;> rfl
    refine live.stores (Pending.stores_of_commit_record h (by simp [Json.needs])) fun rec hrec => ?_
    rw [List.mem_singleton.mp hrec]
    exact group
  | replace k name data kconfig => exact live.replace h
  | delete_content payload name task locked data =>
    obtain ⟨_, -, h⟩ := bind_eq_ok.mp h
    obtain ⟨_, -, h⟩ := bind_eq_ok.mp h
    split_ifs at h
    obtain ⟨p₁, replaced, h⟩ := bind_eq_ok.mp h
    obtain ⟨tables, deleted, h⟩ := bind_eq_ok.mp h
    exact Except.ok.inj h ▸ (live.replace replaced).generic_delete_group deleted

/-- A document is put in its place. -/
theorem emplace (live : Live t p) {d : Document} (journalled : d ∈ p.journal)
    {documents : Staging fun _ : Document => Json δ} (h : p.documents.emplace d = some documents) :
    Live t { p with documents } := by
  obtain ⟨staged, rfl⟩ := Staging.emplace_eq_some_iff.mp h
  obtain ⟨json, temp⟩ := Option.isSome_iff_exists.mp staged
  have same : final { p with documents := ⟨Function.update p.documents.docs d (p.documents.temp d),
      Function.update p.documents.temp d none⟩ } = final p := by
    funext d'
    by_cases eq : d' = d
    · subst eq
      simp [final, journalled, temp]
    · simp [final, eq]
  refine ⟨live.once, ?_, live.kept, live.unique, ?_, fun distinct => same ▸ live.sound_final distinct⟩
  · refine live.sound.of_alike fun need json₁ named there => ?_
    by_cases eq : Document.record need.1 need.2 = d
    · subst eq
      obtain ⟨json', before, like⟩ := live.alike need named journalled json temp
      obtain rfl := Option.some.inj (before.symm.trans there)
      exact ⟨json, (Function.update_self ..).trans temp, like⟩
    · exact ⟨json₁, (Function.update_of_ne eq ..).trans there, .refl json₁⟩
  · intro need named mem json₁ staged
    by_cases eq : Document.record need.1 need.2 = d
    · simp [eq] at staged
    · dsimp only at staged ⊢
      rw [Function.update_of_ne eq] at staged ⊢
      exact live.alike need named mem json₁ staged

/-- The journal, or a part of it. -/
theorem commit_journal (live : Live t p) {l : List Document} (sub : l ⊆ p.journal) :
    Live t { p with documents := (commit_journal p.documents l).1 } := by
  induction l generalizing p with
  | nil => exact live
  | cons d l ih =>
    obtain ⟨mem, rest⟩ := List.cons_subset.mp sub
    rw [RecordStore.commit_journal]
    cases emplaced : p.documents.emplace d with
    | none => exact live
    | some documents => exact ih (live.emplace mem emplaced) rest

/-- If all of the journal goes through, then every record can be read. -/
theorem sound_of_commit_journal (live : Live t p) {documents : Staging fun _ : Document => Json δ}
    (h : RecordStore.commit_journal p.documents p.journal = (documents, none)) : Sound p.tables documents.docs := by
  have emplaced := RecordStore.Repository.commit_journal_eq_none_iff.mp h
  have staged : ∀ d ∈ p.journal, (p.documents.temp d).isSome := by
    intro d mem
    by_contra missing
    have none := Staging.emplaces_eq_none (Option.not_isSome_iff_eq_none.mp missing) mem
    rw [none] at emplaced
    cases emplaced
  have distinct := (Staging.emplaces_isSome_iff staged).mp (Option.isSome_iff_exists.mpr ⟨documents, emplaced⟩)
  have same : documents.docs = final p := by
    funext d
    rw [Staging.docs_emplaces emplaced distinct, final]
    split_ifs with mem
    · obtain ⟨json, temp⟩ := Option.isSome_iff_exists.mp (staged d mem)
      simp [temp]
    · rfl
  exact same ▸ live.sound_final distinct

end Live

/-! ### The invariant -/

/-- While no transaction is under way, every record can be read, and the caches hold what is there. -/
structure Idle (s : State δ) : Prop where
  once : Once s.tables
  sound : Sound s.tables s.documents.docs
  coherent : s.caches.Coherent s.view.program

/-- While one is, it is counted, and the caches are empty. -/
structure Busy (s : State δ) (t : Tables) (m : Manager) : Prop where
  manager : s.manager = some m
  open_ : m.committed = false ∧ m.dead = false
  counted : 0 < s.transactions
  empty : s.caches = fun _ => none
  live : Live t ⟨s.readwrite, s.tables, s.documents, m.journal⟩

/-- What holds after every history. -/
structure Inv (s : State δ) : Prop where
  idle : s.saved = none → Idle s
  busy : ∀ t, s.saved = some t → ∃ m, Busy s t m

namespace State

variable {s : State δ} {q : Query} {t : Tables} {m : Manager}

theorem inv_of_idle (saved : s.saved = none) (idle : Idle s) : Inv s :=
  ⟨fun _ => idle, fun t h => (by cases saved.symm.trans h)⟩

theorem inv_of_busy (saved : s.saved = some t) (busy : Busy s t m) : Inv s :=
  ⟨fun h => (by cases saved.symm.trans h), fun t' h => ⟨m, Option.some.inj (saved.symm.trans h) ▸ busy⟩⟩

/-- A transaction that is rolled back. -/
theorem idle_rollback (busy : Busy s t m) (saved : s.saved = some t) :
    (s.rollback m).saved = none ∧ Idle (s.rollback m) := by
  have abort : (s.rollback_journal m).abort_transaction =
      some { s.rollback_journal m with tables := t, saved := none }.flush_caches := by
    rw [abort_transaction]
    simp [rollback_journal, saved]
  rw [rollback, abort]
  exact ⟨rfl, busy.live.once, busy.live.sound, Cache.coherent_empty⟩

/-- A manager is destroyed. -/
theorem inv_destroy (inv : Inv s) (there : s.manager = some m) : Inv (s.destroy m) := by
  cases saved : s.saved with
  | none =>
    obtain ⟨once, sound, coherent⟩ := inv.idle saved
    have same : (s.rollback_journal m).abort_transaction = none := by
      simp [abort_transaction, rollback_journal, saved]
    rw [destroy]
    split_ifs
    · rw [rollback, same]
      exact inv_of_idle saved ⟨once, sound, coherent⟩
    · exact inv_of_idle saved ⟨once, sound, coherent⟩
  | some t =>
    obtain ⟨m', busy⟩ := inv.busy t saved
    obtain rfl := Option.some.inj (there.symm.trans busy.manager)
    obtain ⟨ended, idle⟩ := idle_rollback busy saved
    rw [destroy, busy.open_.1, busy.open_.2, if_pos (by simp)]
    exact inv_of_idle ended ⟨idle.once, idle.sound, idle.coherent⟩

/-- A transaction begins, or it does not. -/
theorem inv_transaction_factory (inv : Inv s) (none : s.manager = none) (locked begin_fails : Bool) :
    Inv (s.transaction_factory locked begin_fails) := by
  have saved : s.saved = Option.none := by
    by_contra busy
    obtain ⟨t, saved⟩ := Option.ne_none_iff_exists'.mp busy
    obtain ⟨m, busy⟩ := inv.busy t saved
    cases none.symm.trans busy.manager
  obtain ⟨once, sound, coherent⟩ := inv.idle saved
  rw [transaction_factory]
  split_ifs
  · exact inv
  · exact inv_of_idle saved ⟨once, sound, coherent⟩
  · exact inv_of_busy (t := s.tables) (m := ⟨[], false, false⟩) rfl
      ⟨rfl, ⟨rfl, rfl⟩, Nat.succ_pos _, rfl, .begin once sound⟩

/-- An update of a transaction that is under way. -/
theorem inv_update (busy : Busy s t m) (saved : s.saved = some t) (u : Update δ) : Inv (s.update m u) := by
  rw [update]
  cases performed : u.perform ⟨s.readwrite, s.tables, s.documents, m.journal⟩ with
  | error e => exact inv_destroy (inv_of_busy saved busy) busy.manager
  | ok p =>
    obtain ⟨manager, open_, counted, empty, live⟩ := busy
    have after := live.perform performed
    exact inv_of_busy (m := { m with journal := p.journal }) saved ⟨rfl, open_, counted, empty,
      after.once, after.sound, after.kept, after.unique, after.alike, after.sound_final⟩

/-- A transaction that is under way is to be committed. -/
theorem inv_commit (busy : Busy s t m) (saved : s.saved = some t) (e : Ending) : Inv (s.commit m e) := by
  obtain ⟨manager, open_, counted, empty, live⟩ := busy
  cases e with
  | lock_lost =>
    have abort : s.abort_transaction = some { s with tables := t, saved := none }.flush_caches := by
      rw [abort_transaction, saved]
      rfl
    rw [commit, abort]
    exact inv_of_idle rfl ⟨live.once, live.sound, Cache.coherent_empty⟩
  | journal_fails n =>
    exact inv_of_busy saved ⟨manager, open_, counted, empty, live.commit_journal (List.take_subset n m.journal)⟩
  | commit_fails =>
    exact inv_of_busy saved ⟨manager, open_, counted, empty, live.commit_journal (List.Subset.refl m.journal)⟩
  | committed =>
    rw [commit]
    have part := live.commit_journal (List.Subset.refl m.journal)
    cases committed : commit_journal s.documents m.journal with
    | mk documents thrown =>
      cases thrown with
      | some e =>
        rw [committed] at part
        exact inv_of_busy saved ⟨manager, open_, counted, empty, part⟩
      | none => exact inv_of_idle rfl ⟨live.unique, live.sound_of_commit_journal committed, Cache.coherent_empty⟩

/-- Another repository object. -/
theorem inv_reopen (inv : Inv s) (readwrite : Bool) : Inv (s.reopen readwrite) := by
  refine inv_of_idle rfl ?_
  rw [reopen]
  cases saved : s.saved with
  | none => exact ⟨(inv.idle saved).once, (inv.idle saved).sound, Cache.coherent_empty⟩
  | some t =>
    obtain ⟨m, busy⟩ := inv.busy t saved
    exact ⟨busy.live.once, busy.live.sound, Cache.coherent_empty⟩

theorem inv_empty (readwrite : Bool) : Inv (.empty readwrite : State δ) := by
  refine inv_of_idle rfl ⟨?_, fun _ _ h => (by cases h), Cache.coherent_empty⟩
  rintro ⟨c, name⟩
  cases c <;> simp [empty, count, count_packages, count_tasks, count_products, count_groups, internal_count]

/-! ### Queries -/

theorem category_of_mem_kinds {q : Query} {k : Kind} (h : k ∈ q.kinds) : k.category = q.key.need.1 := by
  cases q with
  | query_package name => rw [List.mem_singleton.mp h]; rfl
  | query_task name hint =>
    simp only [Query.kinds, List.mem_cons, List.not_mem_nil, or_false] at h
    obtain rfl | rfl | rfl := h <;> rfl
  | query_derived_product name => rw [List.mem_singleton.mp h]; rfl
  | query_content payload name =>
    rw [List.mem_singleton.mp h]
    cases payload <;> rfl

/-- A query without a row misses the record. -/
theorem read_eq_missing {v : View δ} (h : ¬ q.HasRow v.tables) :
    q.read v = .done (.error (.record_not_found q.key.2)) := by
  have none : ∀ k ∈ q.kinds, v.find_document k q.key.2 = .error (.record_not_found q.key.2) := fun k mem =>
    find_document_eq_missing fun pos => h ⟨k, mem, pos⟩
  cases q with
  | query_package name =>
    have missing : v.find_document .package name = _ := none .package (List.mem_singleton_self _)
    rw [Query.read, View.query_package, missing]
    rfl
  | query_task name hint =>
    refine query_task_eq_missing hint fun k category pos => h ⟨k, ?_, pos⟩
    cases k with
    | integration_task => simp [Query.kinds]
    | postintegration_task => simp [Query.kinds]
    | output_task => simp [Query.kinds]
    | _ => cases category
  | query_derived_product name =>
    have missing : v.find_document .derived_product name = _ := none .derived_product (List.mem_singleton_self _)
    rw [Query.read, View.query_derived_product, missing]
    rfl
  | query_content payload name =>
    have missing : v.find_document payload.kind name = _ := none payload.kind (List.mem_singleton_self _)
    rw [Query.read, View.query_content_group, missing]
    rfl

/-- A query without a wrong hint reads what is under its key. -/
theorem read_eq_program {v : View δ} (once : Once v.tables) (hinted : q.Hinted v.tables) :
    q.read v = v.program q.key := by
  cases q with
  | query_task name hint => exact query_task_hint_eq once hinted
  | _ => rfl

/-- What has a row is read. -/
theorem given_of_hasRow {v : View δ} (once : Once v.tables) (sound : Sound v.tables v.documents)
    (h : q.HasRow v.tables) : Given v q.key := by
  obtain ⟨k, mem, pos⟩ := h
  have named : Named v.tables q.key.need := named_iff.mpr ⟨k, category_of_mem_kinds mem, internal_count_pos.mp pos⟩
  have readable := sound.readable named
  cases q with
  | query_content payload name =>
    obtain rfl := List.mem_singleton.mp mem
    obtain ⟨k, json, category, there, isOf⟩ := readable.exists_document
    apply answered_of_always
    have group : payload.kind.category = .group := by cases payload <;> rfl
    have found : v.find_document payload.kind name = .ok json :=
      find_document_eq_ok once (internal_count_pos.mp pos) (by rw [group]; exact there)
    show Reads v _ (v.query_content_group payload name)
    rw [View.query_content_group, found]
    exact there
  | _ => exact (answered_of_readable once readable).1 _ rfl

/-- **Direct reading**: it ends, and misses a record just if there is no row. -/
theorem exists_read {v : View δ} (once : Once v.tables) (sound : Sound v.tables v.documents)
    (hinted : q.Hinted v.tables) :
    ∃ n m result, (q.read v).run (evaluate v.program n) = some result ∧ evaluate v.program m q.key = some result ∧
      ((∃ name, result = .error (.record_not_found name)) ↔ ¬ q.HasRow v.tables) := by
  have same := read_eq_program once hinted
  by_cases row : q.HasRow v.tables
  · have found : ∃ m result, evaluate v.program m q.key = some result ∧
        ¬ ∃ name, result = .error (.record_not_found name) := by
      obtain ⟨m, ⟨r, found, -⟩ | ⟨e, found, other⟩⟩ := given_of_hasRow once sound row
      · exact ⟨m, _, found, by simp⟩
      · exact ⟨m, _, found, fun ⟨name, missing⟩ => other ⟨name, Except.error.inj missing⟩⟩
    obtain ⟨m, result, found, other⟩ := found
    cases m with
    | zero => cases found
    | succ m => exact ⟨m, m + 1, result, same ▸ found, found, iff_of_false other (not_not.mpr row)⟩
  · have missing := read_eq_missing row
    refine ⟨0, 1, .error (.record_not_found q.key.2), by rw [missing]; rfl, ?_, iff_of_true ⟨_, rfl⟩ row⟩
    rw [evaluate, ← same, missing]
    rfl

/-- A query through the caches, if they hold what is there. -/
theorem query_of_read (coherent : s.caches.Coherent s.view.program) {n m : ℕ} {result : Except Raised (Loaded δ)}
    (ran : (q.read s.view).run (evaluate s.view.program n) = some result)
    (there : evaluate s.view.program m q.key = some result) {l : ℕ} (le : n ≤ l) :
    ∃ caches, s.query l q = some (result, caches) ∧ caches.Coherent s.view.program := by
  obtain ⟨caches, looked, coherent, -⟩ := consult_of_evaluate (decide (s.transactions = 0)) coherent there ran
  exact ⟨caches, consult_mono le looked, coherent⟩

/-- The caches hold what is there after a query. -/
theorem coherent_query (idle : Idle s) {l : ℕ} {result : Except Raised (Loaded δ)} {caches : Cache Key (Loaded δ)}
    (h : s.query l q = some (result, caches)) : caches.Coherent s.view.program := by
  by_cases hinted : q.Hinted s.tables
  · obtain ⟨n, m, result', ran, there, -⟩ := exists_read (v := s.view) idle.once idle.sound hinted
    obtain ⟨caches', looked, coherent⟩ := query_of_read idle.coherent ran there (le_max_left n l)
    have more : s.query (max n l) q = some (result, caches) := consult_mono (le_max_right n l) h
    obtain ⟨-, rfl⟩ := Prod.mk.inj (Option.some.inj (looked.symm.trans more))
    exact coherent
  · -- a wrong hint misses the record, which is not remembered
    cases q with
    | query_task name hint =>
      have missing : (Query.query_task name hint).read s.view = _ := query_task_eq_of_not_hinted hinted
      rw [query, missing, consult] at h
      split_ifs at h
      · cases known : s.caches (Query.query_task name hint).key with
        | some r =>
          rw [known] at h
          exact (Prod.mk.inj (Option.some.inj h)).2 ▸ idle.coherent
        | none =>
          rw [known] at h
          exact (Prod.mk.inj (Option.some.inj h)).2 ▸ idle.coherent
      · exact (Prod.mk.inj (Option.some.inj h)).2 ▸ idle.coherent
    | _ => exact absurd trivial hinted

/-- What holds is kept by a query. -/
theorem inv_query (inv : Inv s) {l : ℕ} {result : Except Raised (Loaded δ)} {caches : Cache Key (Loaded δ)}
    (h : s.query l q = some (result, caches)) : Inv { s with caches } := by
  by_cases saved : s.saved = none
  · have idle := inv.idle saved
    exact inv_of_idle saved ⟨idle.once, idle.sound, coherent_query idle h⟩
  · obtain ⟨t, saved⟩ := Option.ne_none_iff_exists'.mp saved
    obtain ⟨m, busy⟩ := inv.busy t saved
    have disabled : decide (s.transactions = 0) = false := by simpa using Nat.pos_iff_ne_zero.mp busy.counted
    rw [query, disabled] at h
    rw [consult_disabled h]
    exact inv

/-- **One event** keeps the invariant. -/
theorem inv_after (inv : Inv s) (e : Event δ) : Inv (s.after e) := by
  have ended : ∀ f : Manager → State δ, (∀ t m, s.saved = some t → Busy s t m → Inv (f m)) →
      Inv ((s.underway.map f).getD s) := by
    intro f keeps
    rw [underway]
    cases saved : s.saved with
    | none => exact inv
    | some t =>
      obtain ⟨m, busy⟩ := inv.busy t saved
      simp only [Option.isSome_some, if_true, busy.manager, Option.map_some, Option.getD_some]
      exact keeps t m saved busy
  cases e with
  | query fuel q =>
    rw [after]
    cases answer : s.query fuel q with
    | none => exact inv
    | some x => exact inv_query inv answer
  | transaction_factory locked begin_fails =>
    rw [after]
    split_ifs with there
    · exact inv
    · exact inv_transaction_factory inv (Option.not_isSome_iff_eq_none.mp there) locked begin_fails
  | update u => exact ended _ fun t m saved busy => inv_update busy saved u
  | commit e => exact ended _ fun t m saved busy => inv_commit busy saved e
  | rollback =>
    refine ended _ fun t m saved busy => ?_
    obtain ⟨ended, idle⟩ := idle_rollback busy saved
    exact inv_of_idle ended idle
  | destroy =>
    rw [after]
    cases there : s.manager with
    | none => exact inv
    | some m => exact inv_destroy inv there
  | reopen readwrite => exact inv_reopen inv readwrite

end State

theorem inv_reachable {s : State δ} (h : (system δ).Reachable s) : Inv s := by
  refine Invariant.reachable (S := system δ) (I := Inv) ⟨?_, ?_⟩ h
  · rintro s ⟨readwrite, rfl⟩
    exact State.inv_empty readwrite
  · intro s e s' inv step
    exact Option.some.inj step ▸ State.inv_after inv e

/-- **The caches are coherent**: outside a transaction, a query gives what is read directly from the row and the
documents, and misses a record just if there is no row of it. -/
theorem query_reads {s : State δ} (reached : (system δ).Reachable s) (outside : s.saved = none) {q : Query}
    (hinted : q.Hinted s.tables) :
    ∃ n result, (q.read s.view).run (evaluate s.view.program n) = some result ∧
      (∀ m ≥ n, ∃ caches, s.query m q = some (result, caches)) ∧
      ((∃ name, result = .error (.record_not_found name)) ↔ ¬ q.HasRow s.tables) := by
  have idle := (inv_reachable reached).idle outside
  obtain ⟨n, m, result, ran, there, missing⟩ := State.exists_read (v := s.view) idle.once idle.sound hinted
  refine ⟨n, result, ran, fun l le => ?_, missing⟩
  obtain ⟨caches, looked, -⟩ := State.query_of_read idle.coherent ran there le
  exact ⟨caches, looked⟩

theorem reachable_foldl (readwrite : Bool) (events : List (Event δ)) :
    (system δ).Reachable (events.foldl State.after (.empty readwrite)) := by
  refine ⟨_, events, ⟨readwrite, rfl⟩, run_ofNext_of_foldlM ?_⟩
  exact List.foldlM_pure (m := Option)

/-- A task has been committed and read, and then a commit of another has lost the lock. -/
theorem query_reads_lock_lost :
    let zeta : DerivableTask Unit := .integration "zeta" true ⟨"package", ()⟩ (some ()) ()
    let s : State Unit := [.transaction_factory false false, .update (.commit (.task zeta)), .commit .committed,
      .destroy, .query 3 (.query_task "zeta" .no_hint), .transaction_factory false false,
      .update (.commit (.task (.postintegration "fNL" true zeta ()))),
      .commit .lock_lost].foldl State.after (.empty true)
    ∃ n result, ((Query.query_task "zeta" .integration).read s.view).run (evaluate s.view.program n) = some result ∧
      (∀ m ≥ n, ∃ caches, s.query m (.query_task "zeta" .integration) = some (result, caches)) ∧
      ((∃ name, result = .error (.record_not_found name)) ↔
        ¬ (Query.query_task "zeta" .integration).HasRow s.tables) := by
  exact query_reads (reachable_foldl true _) rfl (by decide : 0 < _)

end CppTransport.Runtime.RecordCache
