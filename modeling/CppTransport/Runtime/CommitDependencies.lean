import CppTransport.Library.Exceptions
import CppTransport.Library.Staging
import CppTransport.Library.Transition
import Mathlib.Data.List.Destutter
import Mathlib.Data.List.Sort

/-!
# Commits of packages, tasks and products

What a user commits is an object that holds the objects it depends on: an integration task its
package, a postintegration task its parent, a derived product the tasks that its lines read, an output
task its products. Their records refer to each other by name. To commit an object is to commit first
what it depends on, unless something of that name is stored, all in one transaction.

## The model

* `DerivableTask`, `DerivedProduct`, `OutputTask`: the objects;
* `Record`, `Json`: their records, and the documents, where the rest of the contents is of any type;
* `Pending`: a transaction that is under way;
* `commit_first`, `commit_task`, `commit_product`, `commit_output_task`: the overloads of `commit`;
* `Repository.commit`: with a transaction of its own, and how that may end (`Outcome`).

## What is proved

* `stores_of_perform`: what a commit stores, and in which order;
* `lawful_of_sound`: one commit;
* `commits_keep_closed`: every record that is stored has what it depends on, along every history of
  commits in which no task that is looked for bears the name of an output task.
-/

namespace CppTransport.Runtime.RecordStore

open Library Library.System

def CPPTRANSPORT_REPO_PACKAGE_EXISTS : String := "Repository error: attempt to insert duplicate package record"
def CPPTRANSPORT_REPO_TASK_EXISTS : String := "Repository error: attempt to insert duplicate task record"
def CPPTRANSPORT_REPO_PRODUCT_EXISTS : String := "Repository error: attempt to insert duplicate derived product record"
def CPPTRANSPORT_REPO_OUTPUT_EXISTS : String := "Repository error: attempt to insert duplicate output record"
def CPPTRANSPORT_REPO_PACKAGE_DUPLICATE : String :=
  "Repository error: attempt to add record for already existing package"
def CPPTRANSPORT_REPO_TASK_DUPLICATE : String := "Repository error: attempt to add record for already existing task"
def CPPTRANSPORT_REPO_PRODUCT_DUPLICATE : String :=
  "Repository error: attempt to add record for already existing derived product"
def CPPTRANSPORT_REPO_STORE_PACKAGE_FAIL : String := "Repository error: failed to store package record"
def CPPTRANSPORT_REPO_STORE_TASK_FAIL : String := "Repository error: failed to store task record"
def CPPTRANSPORT_REPO_STORE_PRODUCT_FAIL : String := "Repository error: failed to store derived product record"
def CPPTRANSPORT_REPO_STORE_OUTPUT_FAIL : String := "Repository error: failed to store content group record"
def CPPTRANSPORT_REPO_BACKEND_FAIL : String := "(backend code="
def CPPTRANSPORT_REPO_COMMIT_READONLY : String := "Internal error: Attempt to commit read-only record"
def CPPTRANSPORT_TASK_NOT_SERIALIZABLE : String := "Internal error: serializable is not allowed for task"
def CPPTRANSPORT_TRANSACTION_NO_LOCK : String :=
  "Repository error: transaction manager cannot gain exclusive repository lock"
def CPPTRANSPORT_TRANSACTION_LOST_LOCK : String := "Repository error: transaction manager lost exclusive lock"

/-- What is thrown. -/
inductive Raised where
  | runtime_error (message : String)
  | repository_error (message : String)
  | repository_backend_error (message : String)
  | transaction_error (message : String)
  | record_not_found (name : String)
  | serialization_error (message : String)
  | filesystem_error
  /-- An assertion fails. -/
  | assertion
deriving DecidableEq

/-! ### Records -/

/-- The tables of records. -/
inductive Kind where
  | package
  | integration_task
  | postintegration_task
  | output_task
  | derived_product
  | integration_group
  | postintegration_group
  | output_group
deriving DecidableEq

/-- Names are told apart by what they are names of. -/
inductive Category where
  | package
  | task
  | product
  | group
deriving DecidableEq

def Kind.category : Kind → Category
  | package => .package
  | integration_task => .task
  | postintegration_task => .task
  | output_task => .task
  | derived_product => .product
  | integration_group => .group
  | postintegration_group => .group
  | output_group => .group

/-- The table that the reference of a row is a foreign key into. -/
def Kind.foreign_key : Kind → Option Kind
  | integration_task => some .package
  | integration_group => some .integration_task
  | postintegration_group => some .postintegration_task
  | output_group => some .output_task
  | _ => none

/-- A record that is looked for. -/
abbrev Need := Category × String

/-- A row of one of the tables. -/
structure Row where
  name : String
  /-- The column `package` of an integration task, `parent` of a postintegration task, `task` of a content group. -/
  reference : Option String
  path : String
deriving DecidableEq

abbrev Tables := Kind → List Row

/-- What a line of a derived product reads besides its parent task: the integration task that is its parent task, or
the parent of that. -/
inductive Gadget where
  | none
  | task
  | parent
deriving DecidableEq

/-- The documents of a repository. -/
inductive Document where
  | record (category : Category) (name : String)
  | kconfig_database (task : String)
deriving DecidableEq

variable {δ : Type}

/-- What a document says: the names of other records, and the rest. -/
inductive Json (δ : Type) where
  | package (data : δ)
  | integration_task (pkg : String) (data : δ)
  | postintegration_task (parent : String) (data : δ)
  | output_task (products : List String) (data : δ)
  | derived_product (lines : List (String × Gadget)) (data : δ)
  | content_group (task : String) (data : δ)
  | kconfig_database (data : δ)
deriving DecidableEq

/-- The records that a document refers to. -/
def Json.needs : Json δ → List Need
  | package _ => []
  | integration_task pkg _ => [(.package, pkg)]
  | postintegration_task parent _ => [(.task, parent)]
  | output_task products _ => products.map fun name => (.product, name)
  | derived_product lines _ => lines.map fun line => (.task, line.1)
  | content_group .. => []
  | kconfig_database _ => []

/-- What a row says of it. -/
def Json.reference : Json δ → Option String
  | integration_task pkg _ => some pkg
  | postintegration_task parent _ => some parent
  | content_group task _ => some task
  | _ => none

/-- A record that is to be stored. -/
structure Record (δ : Type) where
  kind : Kind
  name : String
  json : Json δ
  /-- The database of configurations, if it is to be written. -/
  kconfig : Option δ

/-- What it is looked for by. -/
def Record.key (rec : Record δ) : Need := (rec.kind.category, rec.name)

/-! ### Objects -/

structure InitialConditions (δ : Type) where
  name : String
  data : δ

/-- Integration tasks, and postintegration tasks over them. -/
inductive DerivableTask (δ : Type) where
  | integration (name : String) (serializable : Bool) (ics : InitialConditions δ) (kconfig : Option δ) (data : δ)
  | postintegration (name : String) (serializable : Bool) (parent : DerivableTask δ) (data : δ)

structure DerivedLine (δ : Type) where
  parent_task : DerivableTask δ
  gadget : Gadget

structure DerivedProduct (δ : Type) where
  name : String
  lines : List (DerivedLine δ)
  data : δ

structure OutputTask (δ : Type) where
  name : String
  serializable : Bool
  elements : List (DerivedProduct δ)
  data : δ

/-- What can be committed. -/
inductive Object (δ : Type) where
  | package (ics : InitialConditions δ)
  | task (tk : DerivableTask δ)
  | product (d : DerivedProduct δ)
  | output (tk : OutputTask δ)

def DerivableTask.name : DerivableTask δ → String
  | integration name .. => name
  | postintegration name .. => name

def DerivableTask.serializable : DerivableTask δ → Bool
  | integration _ serializable .. => serializable
  | postintegration _ serializable .. => serializable

/-- `get_task_list`: the tasks of the lines, by name. -/
def DerivedProduct.get_task_list (d : DerivedProduct δ) : List (DerivableTask δ) :=
  ((d.lines.map (·.parent_task)).insertionSort fun s t => s.name ≤ t.name).destutter fun s t => s.name ≠ t.name

def InitialConditions.record (ics : InitialConditions δ) : Record δ := ⟨.package, ics.name, .package ics.data, none⟩

def DerivableTask.record : DerivableTask δ → Record δ
  | integration name _ ics kconfig data => ⟨.integration_task, name, .integration_task ics.name data, kconfig⟩
  | postintegration name _ parent data => ⟨.postintegration_task, name, .postintegration_task parent.name data, none⟩

def DerivedProduct.record (d : DerivedProduct δ) : Record δ :=
  ⟨.derived_product, d.name, .derived_product (d.lines.map fun line => (line.parent_task.name, line.gadget)) d.data,
    none⟩

def OutputTask.record (tk : OutputTask δ) : Record δ :=
  ⟨.output_task, tk.name, .output_task (tk.elements.map (·.name)) tk.data, none⟩

def Object.record : Object δ → Record δ
  | package ics => ics.record
  | task tk => tk.record
  | product d => d.record
  | output tk => tk.record

/-! ### Inside a transaction -/

/-- A transaction that is under way. -/
structure Pending (δ : Type) where
  /-- The repository is in read/write mode. -/
  readwrite : Bool
  tables : Tables
  documents : Staging fun _ : Document => Json δ
  journal : List Document

/-- `internal_count`. -/
def internal_count (t : Tables) (k : Kind) (name : String) : ℕ := (t k).countP fun row => row.name = name

def count_packages (t : Tables) (name : String) : ℕ := internal_count t .package name

def count_tasks (t : Tables) (name : String) : ℕ :=
  internal_count t .integration_task name + internal_count t .postintegration_task name +
    internal_count t .output_task name

def count_products (t : Tables) (name : String) : ℕ := internal_count t .derived_product name

def count_groups (t : Tables) (name : String) : ℕ :=
  internal_count t .integration_group name + internal_count t .postintegration_group name +
    internal_count t .output_group name

/-- The counter of a record. -/
def count (t : Tables) : Need → ℕ
  | (.package, name) => count_packages t name
  | (.task, name) => count_tasks t name
  | (.product, name) => count_products t name
  | (.group, name) => count_groups t name

/-- The message if a record is there already. -/
def Category.exists_err : Category → String
  | package => CPPTRANSPORT_REPO_PACKAGE_EXISTS
  | task => CPPTRANSPORT_REPO_TASK_EXISTS
  | product => CPPTRANSPORT_REPO_PRODUCT_EXISTS
  | group => CPPTRANSPORT_REPO_OUTPUT_EXISTS

/-- The message if a row cannot be inserted. -/
def Category.store_fail : Category → String
  | package => CPPTRANSPORT_REPO_STORE_PACKAGE_FAIL
  | task => CPPTRANSPORT_REPO_STORE_TASK_FAIL
  | product => CPPTRANSPORT_REPO_STORE_PRODUCT_FAIL
  | group => CPPTRANSPORT_REPO_STORE_OUTPUT_FAIL

/-- Where the documents are. -/
def Category.store_root : Category → String
  | package => "repository/packages"
  | task => "repository/tasks"
  | product => "repository/products"
  | group => "repository/output"

/-- The row of a record. -/
def Record.row (rec : Record δ) : Row :=
  ⟨rec.name, rec.json.reference, rec.kind.category.store_root ++ "/" ++ rec.name ++ ".json"⟩

/-- The statements `INSERT` of `store_package` and its siblings: names are primary keys. -/
def insert_row (t : Tables) (rec : Record δ) : Option Tables :=
  if 0 < internal_count t rec.kind rec.name then none
  else if rec.kind.foreign_key.any fun k => rec.json.reference.any fun name => internal_count t k name = 0 then none
  else some (Function.update t rec.kind (t rec.kind ++ [rec.row]))

namespace Pending

variable (p : Pending δ)

/-- Nothing of this name is stored. -/
def check_duplicate (need : Need) (message : String) : Except Raised Unit :=
  if 0 < count p.tables need then .error (.repository_error (message ++ " '" ++ need.2 ++ "'")) else .ok ()

def check_package_duplicate (name : String) : Except Raised Unit :=
  p.check_duplicate (.package, name) CPPTRANSPORT_REPO_PACKAGE_DUPLICATE

def check_task_duplicate (name : String) : Except Raised Unit :=
  p.check_duplicate (.task, name) CPPTRANSPORT_REPO_TASK_DUPLICATE

def check_product_duplicate (name : String) : Except Raised Unit :=
  p.check_duplicate (.product, name) CPPTRANSPORT_REPO_PRODUCT_DUPLICATE

def commit_JSON_document (d : Document) (json : Json δ) : Pending δ :=
  { p with documents := p.documents.stage d json, journal := p.journal ++ [d] }

/-- The database of configurations is written if it has been modified. -/
def commit_kconfig_database (rec : Record δ) : Pending δ :=
  match rec.kconfig with
  | some data => p.commit_JSON_document (.kconfig_database rec.name) (.kconfig_database data)
  | none => p

/-- `commit_first`, and `commit_integration_first` for integration tasks. -/
def commit_first (rec : Record δ) : Except Raised (Pending δ) :=
  if 0 < count p.tables rec.key then
    .error (.repository_error (rec.kind.category.exists_err ++ " '" ++ rec.name ++ "'"))
  else
    match insert_row p.tables rec with
    | none => .error (.repository_backend_error
        (rec.kind.category.store_fail ++ " '" ++ rec.name ++ "' " ++ CPPTRANSPORT_REPO_BACKEND_FAIL))
    | some tables =>
      let p := { p with tables }.commit_JSON_document (.record rec.kind.category rec.name) rec.json
      .ok (if rec.kind = .integration_task then p.commit_kconfig_database rec else p)

/-- `repository_record::commit` of a new record. -/
def commit_record (rec : Record δ) : Except Raised (Pending δ) :=
  if p.readwrite then p.commit_first rec
  else .error (.repository_error (CPPTRANSPORT_REPO_COMMIT_READONLY ++ " '" ++ rec.name ++ "'"))

/-- A task that cannot be serialized is not committed. -/
def check_serializable (serializable : Bool) (name : String) : Except Raised Unit :=
  if serializable then .ok () else .error (.runtime_error (CPPTRANSPORT_TASK_NOT_SERIALIZABLE ++ " '" ++ name ++ "'"))

/-- What an object depends on is committed, unless something of its name is stored. -/
def commit_missing (need : Need) (commit : Pending δ → Except Raised (Pending δ)) : Except Raised (Pending δ) :=
  if count p.tables need = 0 then commit p else .ok p

/-- `commit` of a package. -/
def commit_package (ics : InitialConditions δ) : Except Raised (Pending δ) := do
  p.check_package_duplicate ics.name
  p.commit_record ics.record

/-- `commit_integration_task` and `commit_postintegration_task`; `autocommit` chooses between them. -/
def commit_task (p : Pending δ) : DerivableTask δ → Except Raised (Pending δ)
  | .integration name serializable ics kconfig data => do
    check_serializable serializable name
    p.check_task_duplicate name
    let p ← p.commit_missing (.package, ics.name) fun p => p.commit_package ics
    p.commit_record (DerivableTask.integration name serializable ics kconfig data).record
  | .postintegration name serializable parent data => do
    check_serializable serializable name
    p.check_task_duplicate name
    let p ← p.commit_missing (.task, parent.name) fun p => p.commit_task parent
    p.commit_record (DerivableTask.postintegration name serializable parent data).record

/-- `commit` of a derived product. -/
def commit_product (d : DerivedProduct δ) : Except Raised (Pending δ) := do
  p.check_product_duplicate d.name
  let p ← d.get_task_list.foldlM
    (fun p tk => p.commit_missing (.task, tk.name) fun p => p.commit_task tk) p
  p.commit_record d.record

/-- `commit` of an output task. -/
def commit_output_task (tk : OutputTask δ) : Except Raised (Pending δ) := do
  check_serializable tk.serializable tk.name
  p.check_task_duplicate tk.name
  let p ← tk.elements.foldlM
    (fun p d => p.commit_missing (.product, d.name) fun p => p.commit_product d) p
  p.commit_record tk.record

/-- The overload for an object. -/
def perform : Object δ → Except Raised (Pending δ)
  | .package ics => p.commit_package ics
  | .task tk => p.commit_task tk
  | .product d => p.commit_product d
  | .output tk => p.commit_output_task tk

end Pending

/-! ### With a transaction of its own -/

/-- A repository between transactions. -/
structure Repository (δ : Type) where
  readwrite : Bool
  tables : Tables
  documents : Document → Option (Json δ)

/-- How a transaction may go. -/
inductive Outcome where
  /-- It does not get the lock. -/
  | not_locked
  /-- The lock is lost before it is committed. -/
  | lock_lost
  /-- After so many records of the journal, one cannot be renamed. -/
  | journal_fails (records : ℕ)
  | commit_fails
  | committed
deriving DecidableEq

/-- The records of the journal, up to the first that throws. -/
def commit_journal (s : Staging fun _ : Document => Json δ) :
    List Document → (Staging fun _ : Document => Json δ) × Option Raised
  | [] => (s, none)
  | d :: ds =>
    match s.emplace d with
    | some s => commit_journal s ds
    | none => (s, some .filesystem_error)

namespace Repository

variable (r : Repository δ)

/-- A repository in which nothing is stored. -/
def empty (readwrite : Bool) : Repository δ := ⟨readwrite, fun _ => [], fun _ => none⟩

/-- A transaction begins. -/
def begin : Pending δ := ⟨r.readwrite, r.tables, ⟨r.documents, fun _ => none⟩, []⟩

/-- `transaction_manager::commit`, and the rollback if it throws. -/
def finish (p : Pending δ) : Outcome → Repository δ × Option Raised
  | .not_locked => (r, some (.transaction_error CPPTRANSPORT_TRANSACTION_NO_LOCK))
  | .lock_lost => (r, some (.transaction_error CPPTRANSPORT_TRANSACTION_LOST_LOCK))
  | .journal_fails records =>
    ({ r with documents := (commit_journal p.documents (p.journal.take records)).1.docs }, some .filesystem_error)
  | .commit_fails =>
    match commit_journal p.documents p.journal with
    | (s, some e) => ({ r with documents := s.docs }, some e)
    | (s, none) => ({ r with documents := s.docs }, some (.repository_backend_error "COMMIT"))
  | .committed =>
    match commit_journal p.documents p.journal with
    | (s, some e) => ({ r with documents := s.docs }, some e)
    | (s, none) => ({ r with tables := p.tables, documents := s.docs }, none)

/-- An object is committed. -/
def commit (x : Object δ) (o : Outcome) : Repository δ × Option Raised :=
  if o = .not_locked then (r, some (.transaction_error CPPTRANSPORT_TRANSACTION_NO_LOCK))
  else
    match r.begin.perform x with
    | .ok p => r.finish p o
    | .error e => (r, some e)

end Repository

/-! ### What a commit should do -/

/-- A record of this name is stored. -/
def Named (t : Tables) (need : Need) : Prop := 0 < count t need

instance (t : Tables) (need : Need) : Decidable (Named t need) := inferInstanceAs (Decidable (_ < _))

/-- Something that can be what is needed is stored: output tasks are no parents, and have no content to read. -/
def Met (t : Tables) (need : Need) : Prop :=
  ∃ k : Kind, k.category = need.1 ∧ k ≠ .output_task ∧ need.2 ∈ (t k).map (·.name)

/-- The document of a record of some kind. -/
def Json.IsOf : Json δ → Kind → Prop
  | package _, k => k = .package
  | integration_task .., k => k = .integration_task
  | postintegration_task .., k => k = .postintegration_task
  | output_task .., k => k = .output_task
  | derived_product .., k => k = .derived_product
  | content_group .., k => k.category = .group
  | kconfig_database _, _ => False

/-- Records to be stored, unless one of the name is. -/
def unless_named (t : Tables) (need : Need) (records : List (Record δ)) : List (Record δ) :=
  if Named t need then [] else records

/-- What a task depends on, as far as nothing of the name is there. -/
def DerivableTask.dependencies (t : Tables) : DerivableTask δ → List (Record δ)
  | integration _ _ ics _ _ => unless_named t (.package, ics.name) [ics.record]
  | postintegration _ _ parent _ => unless_named t (.task, parent.name) (parent.dependencies t ++ [parent.record])

/-- What a product depends on. -/
def DerivedProduct.dependencies (t : Tables) (d : DerivedProduct δ) : List (Record δ) :=
  d.get_task_list.flatMap fun tk => unless_named t (.task, tk.name) (tk.dependencies t ++ [tk.record])

/-- What an output task depends on. -/
def OutputTask.dependencies (t : Tables) (tk : OutputTask δ) : List (Record δ) :=
  tk.elements.flatMap fun d => unless_named t (.product, d.name) (d.dependencies t ++ [d.record])

/-- What an object depends on. -/
def Object.dependencies (t : Tables) : Object δ → List (Record δ)
  | package _ => []
  | task tk => tk.dependencies t
  | product d => d.dependencies t
  | output tk => tk.dependencies t

/-- What each of the records depends on is known when its turn comes. -/
def Settled (known : Need → Prop) : List (Record δ) → Prop
  | [] => True
  | rec :: new => (∀ need ∈ rec.json.needs, known need) ∧ Settled (fun need => known need ∨ rec.key = need) new

namespace Repository

variable (r : Repository δ)

/-- Every name is there once. -/
def Unique : Prop := ∀ need, count r.tables need ≤ 1

/-- Every record has its document, and everything it depends on is stored. -/
def Closed : Prop :=
  ∀ k, ∀ row ∈ r.tables k, ∃ json, r.documents (.record k.category row.name) = some json ∧ json.IsOf k ∧
    json.reference = row.reference ∧ ∀ need ∈ json.needs, Met r.tables need

/-- The records `new` have been stored with an object, and no others: the last is its own, the others are what it depends
on; none was there, no two have one name, and what they depend on comes before them. -/
structure Stored (x : Object δ) (new : List (Record δ)) (r' : Repository δ) : Prop where
  dependencies : ∀ rec ∈ new, rec ∈ x.dependencies r.tables
  tables : ∀ k, r'.tables k = r.tables k ++ ((new ++ [x.record]).filter fun rec => rec.kind = k).map (·.row)
  documents : ∀ rec ∈ new ++ [x.record], r'.documents (.record rec.kind.category rec.name) = some rec.json
  fresh : ∀ rec ∈ new ++ [x.record], ¬ Named r.tables rec.key
  once : ((new ++ [x.record]).map (·.key)).Nodup
  settled : Settled (Named r.tables) (new ++ [x.record])

/-- One commit: an object whose name is there is rejected, and if anything is rejected then nothing is changed; a commit
that throws stores nothing; one that succeeds stores what the object depends on, as far as it is missing, and then the
object. -/
structure Lawful (l : Object δ × Outcome) : Prop where
  rejected : (Named r.tables l.1.record.key ∨ ∃ e, r.begin.perform l.1 = .error e) →
    (r.commit l.1 l.2).1 = r ∧ (r.commit l.1 l.2).2 ≠ none
  failed : (r.commit l.1 l.2).2 ≠ none → (r.commit l.1 l.2).1.tables = r.tables
  stored : (r.commit l.1 l.2).2 = none → ∃ new, r.Stored l.1 new (r.commit l.1 l.2).1

/-- No task that is looked for bears the name of an output task. -/
def Permitted (l : Object δ × Outcome) : Prop :=
  ∀ rec ∈ l.1.dependencies r.tables ++ [l.1.record], ∀ need ∈ rec.json.needs, need.1 = .task →
    need.2 ∉ (r.tables .output_task).map (·.name)

instance (l : Object δ × Outcome) : Decidable (r.Permitted l) := inferInstanceAs (Decidable (∀ rec ∈ _, _))

/-- The next repository. -/
def next (l : Object δ × Outcome) : Option (Repository δ) := some (r.commit l.1 l.2).1

end Repository

/-! ### Names -/

theorem DerivableTask.key_record (tk : DerivableTask δ) : tk.record.key = (.task, tk.name) := by cases tk <;> rfl

theorem DerivedProduct.key_record (d : DerivedProduct δ) : d.record.key = (.product, d.name) := rfl

@[simp] theorem count_concat (t : Tables) (k : Kind) (row : Row) (need : Need) :
    count (Function.update t k (t k ++ [row])) need =
      count t need + if (k.category, row.name) = need then 1 else 0 := by
  obtain ⟨c, name⟩ := need
  cases c <;> cases k <;>
    simp [count, count_packages, count_tasks, count_products, count_groups, internal_count, Kind.category,
      List.countP_append, List.countP_singleton, Function.update, Prod.mk.injEq] <;> split_ifs <;> omega

/-- Something of the name is in one of the tables of its category. -/
theorem named_iff {t : Tables} {need : Need} :
    Named t need ↔ ∃ k : Kind, k.category = need.1 ∧ need.2 ∈ (t k).map (·.name) := by
  have mem : ∀ k name, 0 < internal_count t k name ↔ name ∈ (t k).map (·.name) := by
    intro k name
    simp [internal_count, List.countP_pos_iff]
  obtain ⟨c, name⟩ := need
  simp only [Named, ← mem]
  constructor
  · intro named
    cases c with
    | package => exact ⟨.package, rfl, named⟩
    | task =>
      simp only [count, count_tasks, Nat.add_pos_iff_pos_or_pos] at named
      rcases named with (named | named) | named
      · exact ⟨.integration_task, rfl, named⟩
      · exact ⟨.postintegration_task, rfl, named⟩
      · exact ⟨.output_task, rfl, named⟩
    | product => exact ⟨.derived_product, rfl, named⟩
    | group =>
      simp only [count, count_groups, Nat.add_pos_iff_pos_or_pos] at named
      rcases named with (named | named) | named
      · exact ⟨.integration_group, rfl, named⟩
      · exact ⟨.postintegration_group, rfl, named⟩
      · exact ⟨.output_group, rfl, named⟩
  · rintro ⟨k, rfl, named⟩
    cases k <;> simp [count, count_packages, count_tasks, count_products, count_groups, Kind.category] at named ⊢ <;>
      omega

theorem settled_append {known : Need → Prop} {new new' : List (Record δ)} :
    Settled known (new ++ new') ↔
      Settled known new ∧ Settled (fun need => known need ∨ ∃ rec ∈ new, rec.key = need) new' := by
  induction new generalizing known with
  | nil => simp [Settled]
  | cons rec new ih => simp [Settled, ih, and_assoc, or_assoc]

/-- What one of the records depends on is known from the beginning, or it is one of those before the last. -/
theorem known_of_settled {known : Need → Prop} {new : List (Record δ)} {last rec : Record δ}
    (h : Settled known (new ++ [last])) (hrec : rec ∈ new ++ [last]) {need : Need} (hneed : need ∈ rec.json.needs) :
    known need ∨ ∃ d ∈ new, d.key = need := by
  induction new generalizing known with
  | nil =>
    obtain rfl := List.mem_singleton.mp hrec
    exact .inl (h.1 need hneed)
  | cons first new ih =>
    rcases List.mem_cons.mp hrec with rfl | hrec
    · exact .inl (h.1 need hneed)
    · rcases ih h.2 hrec with (known | same) | ⟨d, hd, key⟩
      · exact .inl known
      · exact .inr ⟨first, List.mem_cons_self .., same⟩
      · exact .inr ⟨d, List.mem_cons_of_mem _ hd, key⟩

/-! ### What is stored inside a transaction -/

/-- What is written for a record. -/
def Record.writes (rec : Record δ) : List (Document × Json δ) :=
  (.record rec.kind.category rec.name, rec.json) ::
    if rec.kind = .integration_task then
      rec.kconfig.toList.map fun data => (.kconfig_database rec.name, .kconfig_database data)
    else []

/-- The documents of records of different names differ. -/
theorem Record.not_mem_writes {rec rec' : Record δ} (ne : rec.key ≠ rec'.key) {w : Document × Json δ}
    (hw : w ∈ rec.writes) : w.1 ∉ rec'.writes.map (·.1) := by
  intro again
  obtain ⟨w', hw', same⟩ := List.mem_map.mp again
  simp only [writes, List.mem_cons, List.mem_ite_nil_right, List.mem_map, Option.mem_toList] at hw hw'
  rcases hw with rfl | ⟨kind, data, -, rfl⟩ <;> rcases hw' with rfl | ⟨kind', data', -, rfl⟩ <;> simp at same
  · exact ne (Prod.ext same.1.symm same.2.symm)
  · exact ne (Prod.ext (by rw [Record.key, Record.key, kind, kind']) same.symm)

/-- No document is written twice for a record. -/
theorem Record.nodup_writes (rec : Record δ) : (rec.writes.map (·.1)).Nodup := by
  rw [writes]
  split_ifs
  · cases rec.kconfig <;> simp
  · simp

namespace Pending

variable {p p' p'' : Pending δ} {new new' : List (Record δ)}

/-- The transaction goes on from `p` to `p'` by storing the records `new`, in this order. -/
structure Stores (p : Pending δ) (new : List (Record δ)) (p' : Pending δ) : Prop where
  readwrite : p'.readwrite = p.readwrite
  tables : ∀ k, p'.tables k = p.tables k ++ (new.filter fun rec => rec.kind = k).map (·.row)
  count : ∀ need, count p'.tables need = count p.tables need + new.countP fun rec => rec.key = need
  docs : p'.documents.docs = p.documents.docs
  journal : p'.journal = p.journal ++ new.flatMap fun rec => rec.writes.map (·.1)
  staged : ∀ rec ∈ new, ∀ w ∈ rec.writes, p'.documents.temp w.1 = some w.2
  others : ∀ d, (∀ rec ∈ new, d ∉ rec.writes.map (·.1)) → p'.documents.temp d = p.documents.temp d
  fresh : ∀ rec ∈ new, ¬ Named p.tables rec.key
  once : (new.map (·.key)).Nodup
  settled : Settled (Named p.tables) new

theorem Stores.refl (p : Pending δ) : Stores p [] p where
  readwrite := rfl
  tables := by simp
  count := by simp
  docs := rfl
  journal := by simp
  staged := by simp
  others := fun _ _ => rfl
  fresh := by simp
  once := by simp
  settled := trivial

theorem Stores.named_iff (h : Stores p new p') {need : Need} :
    Named p'.tables need ↔ Named p.tables need ∨ ∃ rec ∈ new, rec.key = need := by
  rw [Named, Named, h.count, Nat.add_pos_iff_pos_or_pos, List.countP_pos_iff]
  simp

/-- Names stay unique. -/
theorem Stores.count_le_one (h : Stores p new p') (once : ∀ need, RecordStore.count p.tables need ≤ 1) (need : Need) :
    RecordStore.count p'.tables need ≤ 1 := by
  rw [h.count]
  have before := once need
  by_cases named : Named p.tables need
  · have none : new.countP (fun rec => rec.key = need) = 0 := by
      rw [List.countP_eq_zero]
      intro rec hrec same
      exact h.fresh rec hrec (of_decide_eq_true same ▸ named)
    omega
  · have one : new.countP (fun rec => rec.key = need) ≤ 1 := by
      simpa [List.count_eq_countP, List.countP_map, Function.comp_def, beq_eq_decide] using
        List.nodup_iff_count_le_one.mp h.once need
    rw [Named] at named
    omega

theorem Stores.trans (h : Stores p new p') (h' : Stores p' new' p'') : Stores p (new ++ new') p'' := by
  have apart : ∀ rec ∈ new, ∀ rec' ∈ new', rec.key ≠ rec'.key := fun rec hrec rec' hrec' same =>
    h'.fresh rec' hrec' (h.named_iff.mpr (.inr ⟨rec, hrec, same⟩))
  exact {
    readwrite := h'.readwrite.trans h.readwrite
    tables := fun k => by rw [h'.tables, h.tables, List.filter_append, List.map_append, List.append_assoc]
    count := fun need => by rw [h'.count, h.count, List.countP_append, Nat.add_assoc]
    docs := h'.docs.trans h.docs
    journal := by rw [h'.journal, h.journal, List.flatMap_append, List.append_assoc]
    staged := by
      intro rec hrec w hw
      rcases List.mem_append.mp hrec with hrec | hrec
      · rw [h'.others _ fun rec' hrec' => Record.not_mem_writes (apart rec hrec rec' hrec') hw]
        exact h.staged rec hrec w hw
      · exact h'.staged rec hrec w hw
    others := fun d hd => by
      rw [h'.others d fun rec hrec => hd rec (List.mem_append_right _ hrec),
        h.others d fun rec hrec => hd rec (List.mem_append_left _ hrec)]
    fresh := by
      intro rec hrec
      rcases List.mem_append.mp hrec with hrec | hrec
      · exact h.fresh rec hrec
      · exact fun named => h'.fresh rec hrec (h.named_iff.mpr (.inl named))
    once := by
      rw [List.map_append, List.nodup_append']
      refine ⟨h.once, h'.once, fun key hkey hkey' => ?_⟩
      obtain ⟨rec, hrec, rfl⟩ := List.mem_map.mp hkey
      obtain ⟨rec', hrec', same⟩ := List.mem_map.mp hkey'
      exact apart rec hrec rec' hrec' same.symm
    settled := by
      refine settled_append.mpr ⟨h.settled, ?_⟩
      have known : (fun need => Named p.tables need ∨ ∃ rec ∈ new, rec.key = need) = Named p'.tables := by
        funext need
        exact propext h.named_iff.symm
      rw [known]
      exact h'.settled }

/-- Several documents. -/
def commit_documents (p : Pending δ) (writes : List (Document × Json δ)) : Pending δ :=
  writes.foldl (fun p w => p.commit_JSON_document w.1 w.2) p

/-- Documents that differ are all staged. -/
theorem commit_documents_spec {writes : List (Document × Json δ)} (distinct : (writes.map (·.1)).Nodup) :
    (p.commit_documents writes).readwrite = p.readwrite ∧ (p.commit_documents writes).tables = p.tables ∧
      (p.commit_documents writes).documents.docs = p.documents.docs ∧
      (p.commit_documents writes).journal = p.journal ++ writes.map (·.1) ∧
      (∀ w ∈ writes, (p.commit_documents writes).documents.temp w.1 = some w.2) ∧
      ∀ d ∉ writes.map (·.1), (p.commit_documents writes).documents.temp d = p.documents.temp d := by
  induction writes generalizing p with
  | nil => simp [commit_documents]
  | cons w writes ih =>
    obtain ⟨again, distinct⟩ := List.nodup_cons.mp distinct
    obtain ⟨readwrite, tables, docs, journal, staged, others⟩ := ih (p := p.commit_JSON_document w.1 w.2) distinct
    refine ⟨readwrite, tables, docs, journal.trans (List.append_assoc ..), ?_, ?_⟩
    · rintro w' (_ | ⟨_, hw'⟩)
      · exact (others _ again).trans (Staging.temp_stage_self ..)
      · exact staged _ hw'
    · intro d hd
      rw [List.map_cons, List.mem_cons, not_or] at hd
      exact (others d hd.2).trans (Staging.temp_stage_of_ne _ hd.1 _)

/-- What is in place when a record is committed. -/
theorem commit_record_eq_ok {rec : Record δ} (h : p.commit_record rec = .ok p') : ¬ Named p.tables rec.key ∧
    p' = ({ p with tables := Function.update p.tables rec.kind (p.tables rec.kind ++ [rec.row]) } :
      Pending δ).commit_documents rec.writes := by
  rw [commit_record] at h
  split_ifs at h
  rw [commit_first] at h
  by_cases there : 0 < count p.tables rec.key
  · rw [if_pos there] at h
    cases h
  rw [if_neg there] at h
  refine ⟨there, ?_⟩
  cases inserted : insert_row p.tables rec with
  | none => simp [inserted] at h
  | some tables =>
    simp only [inserted, Except.ok.injEq] at h
    rw [insert_row] at inserted
    split_ifs at inserted
    obtain rfl := Option.some.inj inserted
    subst h
    rw [Record.writes, commit_documents, List.foldl_cons]
    split_ifs with kind
    · cases kconfig : rec.kconfig <;> simp [commit_kconfig_database, kconfig]
    · rfl

/-- A record that is committed is stored, with its documents. -/
theorem stores_of_commit_record {rec : Record δ} (h : p.commit_record rec = .ok p')
    (needs : ∀ need ∈ rec.json.needs, Named p.tables need) : Stores p [rec] p' := by
  obtain ⟨fresh, rfl⟩ := commit_record_eq_ok h
  obtain ⟨readwrite, tables, docs, journal, staged, others⟩ := commit_documents_spec
    (p := { p with tables := Function.update p.tables rec.kind (p.tables rec.kind ++ [rec.row]) }) rec.nodup_writes
  exact {
    readwrite
    tables := by
      intro k
      rw [tables]
      by_cases same : k = rec.kind
      · subst same
        simp
      · simp [Function.update_of_ne same, Ne.symm same]
    count := by
      intro need
      rw [tables, count_concat, List.countP_singleton]
      by_cases key : rec.key = need <;> simp_all [Record.key, Record.row]
    docs
    journal := by simpa using journal
    staged := by simpa using staged
    others := fun d hd => others d (hd rec (List.mem_singleton_self _))
    fresh := by simpa using fresh
    once := List.nodup_singleton _
    settled := ⟨needs, trivial⟩ }

/-! ### The overloads -/

/-- A commit that stores `rec` last, and before it some of the records `dependencies`. -/
def StoresLast (p : Pending δ) (dependencies : List (Record δ)) (rec : Record δ) (p' : Pending δ) : Prop :=
  ∃ new, Stores p (new ++ [rec]) p' ∧ new ⊆ dependencies

theorem Stores.last {rec : Record δ} {dependencies : List (Record δ)} (h : Stores p new p') (sub : new ⊆ dependencies)
    (committed : p'.commit_record rec = .ok p'') (needs : ∀ need ∈ rec.json.needs, Named p'.tables need) :
    StoresLast p dependencies rec p'' :=
  ⟨new, h.trans (stores_of_commit_record committed needs), sub⟩

theorem unless_named_subset {t t' : Tables} (le : ∀ need, Named t need → Named t' need)
    {dependencies dependencies' : List (Record δ)} (sub : dependencies' ⊆ dependencies) (rec : Record δ) (need : Need) :
    unless_named t' need (dependencies' ++ [rec]) ⊆ unless_named t need (dependencies ++ [rec]) := by
  rw [unless_named, unless_named]
  split_ifs with there here
  · exact List.nil_subset _
  · exact List.nil_subset _
  · exact absurd (le _ ‹_›) there
  · exact List.append_subset.mpr ⟨List.Subset.trans sub (List.subset_append_left ..), List.subset_append_right ..⟩

/-- What an object depends on is there after it has been seen to. -/
theorem stores_of_commit_missing {need : Need} {commit : Pending δ → Except Raised (Pending δ)} {rec : Record δ}
    {dependencies : List (Record δ)} (h : p.commit_missing need commit = .ok p') (key : rec.key = need)
    (step : commit p = .ok p' → StoresLast p dependencies rec p') :
    ∃ new, Stores p new p' ∧ new ⊆ unless_named p.tables need (dependencies ++ [rec]) ∧ Named p'.tables need := by
  rw [commit_missing] at h
  split_ifs at h with missing
  · obtain ⟨new, stores, sub⟩ := step h
    have missing : ¬ Named p.tables need := by
      rw [Named]
      omega
    refine ⟨new ++ [rec], stores, ?_, stores.named_iff.mpr (.inr ⟨rec, by simp, key⟩)⟩
    rw [unless_named, if_neg missing]
    exact List.append_subset.mpr ⟨List.Subset.trans sub (List.subset_append_left ..), List.subset_append_right ..⟩
  · cases h
    exact ⟨[], .refl p, List.nil_subset _, Nat.pos_of_ne_zero missing⟩

/-- The same for each of several. -/
theorem stores_of_foldlM {ι : Type} {need : ι → Need} {step : Pending δ → ι → Except Raised (Pending δ)}
    {R : Tables → ι → List (Record δ)} {l : List ι}
    (anti : ∀ t t' i, (∀ need, Named t need → Named t' need) → R t' i ⊆ R t i)
    (round : ∀ p p' i, step p i = .ok p' →
      ∃ new, Stores p new p' ∧ new ⊆ R p.tables i ∧ Named p'.tables (need i))
    (h : l.foldlM step p = .ok p') :
    ∃ new, Stores p new p' ∧ new ⊆ l.flatMap (R p.tables) ∧ ∀ i ∈ l, Named p'.tables (need i) := by
  refine foldlM_eq_ok (R := fun p l p' => ∃ new, Stores p new p' ∧ new ⊆ l.flatMap (R p.tables) ∧
    ∀ i ∈ l, Named p'.tables (need i)) (fun p => ⟨[], .refl p, by simp, by simp⟩) ?_ h
  rintro i l p p' p'' first ⟨new', stores', sub', named'⟩
  obtain ⟨new, stores, sub, named⟩ := round _ _ _ first
  refine ⟨new ++ new', stores.trans stores', ?_, ?_⟩
  · rw [List.flatMap_cons]
    refine List.append_subset.mpr ⟨List.Subset.trans sub (List.subset_append_left ..), List.Subset.trans sub' ?_⟩
    refine List.Subset.trans ?_ (List.subset_append_right ..)
    intro rec hrec
    obtain ⟨j, hj, hrec⟩ := List.mem_flatMap.mp hrec
    exact List.mem_flatMap.mpr ⟨j, hj, anti _ _ _ (fun _ named => stores.named_iff.mpr (.inl named)) hrec⟩
  · rintro j (_ | ⟨_, hj⟩)
    · exact stores'.named_iff.mpr (.inl named)
    · exact named' j hj

theorem stores_of_commit_package {ics : InitialConditions δ} (h : p.commit_package ics = .ok p') :
    StoresLast p [] ics.record p' := by
  rw [commit_package] at h
  obtain ⟨_, -, h⟩ := bind_eq_ok.mp h
  exact (Stores.refl p).last (List.nil_subset _) h (by simp [InitialConditions.record, Json.needs])

theorem stores_of_commit_task {tk : DerivableTask δ} (h : p.commit_task tk = .ok p') :
    StoresLast p (tk.dependencies p.tables) tk.record p' := by
  induction tk generalizing p p' with
  | integration name serializable ics kconfig data =>
    rw [commit_task] at h
    obtain ⟨_, -, h⟩ := bind_eq_ok.mp h
    obtain ⟨_, -, h⟩ := bind_eq_ok.mp h
    obtain ⟨p₁, package, h⟩ := bind_eq_ok.mp h
    obtain ⟨new, stores, sub, named⟩ := stores_of_commit_missing package rfl stores_of_commit_package
    refine stores.last sub h ?_
    simpa [DerivableTask.record, Json.needs] using named
  | postintegration name serializable parent data ih =>
    rw [commit_task] at h
    obtain ⟨_, -, h⟩ := bind_eq_ok.mp h
    obtain ⟨_, -, h⟩ := bind_eq_ok.mp h
    obtain ⟨p₁, first, h⟩ := bind_eq_ok.mp h
    obtain ⟨new, stores, sub, named⟩ := stores_of_commit_missing first parent.key_record ih
    refine stores.last sub h ?_
    simpa [DerivableTask.record, Json.needs] using named

end Pending

/-- Every task that is read by a line is in the list, by name. -/
theorem DerivedProduct.exists_mem_get_task_list {d : DerivedProduct δ} {line : DerivedLine δ} (h : line ∈ d.lines) :
    ∃ tk ∈ d.get_task_list, tk.name = line.parent_task.name := by
  have first : ∀ (l : List (DerivableTask δ)) (a : DerivableTask δ), ∀ b ∈ a :: l,
      ∃ c ∈ l.destutter' (fun s t : DerivableTask δ => s.name ≠ t.name) a, c.name = b.name := by
    intro l
    induction l with
    | nil => simp [List.destutter']
    | cons a' l ih =>
      intro a b hb
      rw [List.destutter']
      split_ifs with ne
      · rcases List.mem_cons.mp hb with rfl | hb
        · exact ⟨b, List.mem_cons_self .., rfl⟩
        · obtain ⟨c, hc, name⟩ := ih a' b hb
          exact ⟨c, List.mem_cons_of_mem _ hc, name⟩
      · rcases List.mem_cons.mp hb with rfl | hb
        · exact ih b b (List.mem_cons_self ..)
        · rcases List.mem_cons.mp hb with rfl | hb
          · obtain ⟨c, hc, name⟩ := ih a a (List.mem_cons_self ..)
            exact ⟨c, hc, name.trans (not_not.mp ne)⟩
          · exact ih a b (List.mem_cons_of_mem _ hb)
  have mem : line.parent_task ∈ (d.lines.map (·.parent_task)).insertionSort fun s t => s.name ≤ t.name :=
    (List.mem_insertionSort _).mpr (List.mem_map_of_mem h)
  rw [get_task_list]
  cases sorted : (d.lines.map (·.parent_task)).insertionSort fun s t => s.name ≤ t.name with
  | nil => simp [sorted] at mem
  | cons a l =>
    rw [sorted] at mem
    exact first l a _ mem

namespace Pending

variable {p p' : Pending δ}

/-- More names, fewer dependencies. -/
theorem dependencies_task_anti {t t' : Tables} (le : ∀ need, Named t need → Named t' need) (tk : DerivableTask δ) :
    tk.dependencies t' ⊆ tk.dependencies t := by
  induction tk with
  | integration name serializable ics => exact unless_named_subset le (List.Subset.refl []) ics.record _
  | postintegration name serializable parent data ih => exact unless_named_subset le ih parent.record _

theorem dependencies_product_anti {t t' : Tables} (le : ∀ need, Named t need → Named t' need) (d : DerivedProduct δ) :
    d.dependencies t' ⊆ d.dependencies t := by
  intro rec hrec
  obtain ⟨tk, htk, hrec⟩ := List.mem_flatMap.mp hrec
  exact List.mem_flatMap.mpr ⟨tk, htk, unless_named_subset le (dependencies_task_anti le tk) _ _ hrec⟩

theorem stores_of_commit_product {d : DerivedProduct δ} (h : p.commit_product d = .ok p') :
    StoresLast p (d.dependencies p.tables) d.record p' := by
  rw [commit_product] at h
  obtain ⟨_, -, h⟩ := bind_eq_ok.mp h
  obtain ⟨p₁, tasks, h⟩ := bind_eq_ok.mp h
  obtain ⟨new, stores, sub, named⟩ := stores_of_foldlM
    (R := fun t (tk : DerivableTask δ) => unless_named t (.task, tk.name) (tk.dependencies t ++ [tk.record]))
    (fun t t' tk le => unless_named_subset le (dependencies_task_anti le tk) _ _)
    (fun p p' tk h => stores_of_commit_missing h tk.key_record stores_of_commit_task) tasks
  refine stores.last sub h fun need hneed => ?_
  simp only [DerivedProduct.record, Json.needs, List.map_map, List.mem_map, Function.comp_apply] at hneed
  obtain ⟨line, hline, rfl⟩ := hneed
  obtain ⟨tk, htk, name⟩ := DerivedProduct.exists_mem_get_task_list hline
  exact name ▸ named tk htk

theorem stores_of_commit_output_task {tk : OutputTask δ} (h : p.commit_output_task tk = .ok p') :
    StoresLast p (tk.dependencies p.tables) tk.record p' := by
  rw [commit_output_task] at h
  obtain ⟨_, -, h⟩ := bind_eq_ok.mp h
  obtain ⟨_, -, h⟩ := bind_eq_ok.mp h
  obtain ⟨p₁, products, h⟩ := bind_eq_ok.mp h
  obtain ⟨new, stores, sub, named⟩ := stores_of_foldlM
    (R := fun t (d : DerivedProduct δ) => unless_named t (.product, d.name) (d.dependencies t ++ [d.record]))
    (fun t t' d le => unless_named_subset le (dependencies_product_anti le d) _ _)
    (fun p p' d h => stores_of_commit_missing h d.key_record stores_of_commit_product) products
  refine stores.last sub h fun need hneed => ?_
  simp only [OutputTask.record, Json.needs, List.map_map, List.mem_map, Function.comp_apply] at hneed
  obtain ⟨d, hd, rfl⟩ := hneed
  exact named d hd

/-- **What a commit stores**: what the object depends on, as far as it is missing, and then the object. -/
theorem stores_of_perform {x : Object δ} (h : p.perform x = .ok p') :
    StoresLast p (x.dependencies p.tables) x.record p' := by
  cases x with
  | package ics => exact stores_of_commit_package h
  | task tk => exact stores_of_commit_task h
  | product d => exact stores_of_commit_product h
  | output tk => exact stores_of_commit_output_task h

end Pending

/-! ### The end of a transaction -/

namespace Repository

variable {r : Repository δ} {p : Pending δ} {new : List (Record δ)} {x : Object δ} {o : Outcome}

/-- No document is in the journal twice. -/
theorem nodup_journal (stores : r.begin.Stores new p) : p.journal.Nodup := by
  rw [stores.journal]
  refine List.nodup_flatMap.mpr ⟨fun rec _ => rec.nodup_writes, ?_⟩
  refine (List.pairwise_map.mp stores.once).imp fun ne d hd hd' => ?_
  obtain ⟨w, hw, rfl⟩ := List.mem_map.mp hd
  exact Record.not_mem_writes ne hw hd'

/-- What is in the journal is staged. -/
theorem staged_journal (stores : r.begin.Stores new p) {d : Document} (h : d ∈ p.journal) :
    (p.documents.temp d).isSome := by
  rw [stores.journal, begin, List.nil_append] at h
  obtain ⟨rec, hrec, hd⟩ := List.mem_flatMap.mp h
  obtain ⟨w, hw, rfl⟩ := List.mem_map.mp hd
  simp [stores.staged rec hrec w hw]

/-- The journal goes through if all that is in it can be put in place, one after the other. -/
theorem commit_journal_eq_none_iff {s s' : Staging fun _ : Document => Json δ} {l : List Document} :
    commit_journal s l = (s', none) ↔ s.emplaces l = some s' := by
  induction l generalizing s with
  | nil => simp [commit_journal, Staging.emplaces]
  | cons d l ih =>
    rw [commit_journal, Staging.emplaces, List.foldlM_cons]
    cases s.emplace d with
    | none => simp
    | some s₁ => exact ih

/-- The journal up to some record: what is in it is put in place. -/
theorem commit_journal_take (stores : r.begin.Stores new p) (n : ℕ) :
    ∃ s, commit_journal p.documents (p.journal.take n) = (s, none) ∧
      ∀ d, s.docs d = if d ∈ p.journal.take n then p.documents.temp d else r.documents d := by
  have distinct : (p.journal.take n).Nodup := (nodup_journal stores).sublist (List.take_sublist ..)
  have all := (Staging.emplaces_isSome_iff fun d hd => staged_journal stores (List.mem_of_mem_take hd)).mpr distinct
  obtain ⟨s, emplaced⟩ := Option.isSome_iff_exists.mp all
  refine ⟨s, commit_journal_eq_none_iff.mpr emplaced, fun d => ?_⟩
  rw [Staging.docs_emplaces emplaced distinct, stores.docs, begin]

theorem commit_journal_all (stores : r.begin.Stores new p) :
    ∃ s, commit_journal p.documents p.journal = (s, none) ∧
      ∀ d, s.docs d = if d ∈ p.journal then p.documents.temp d else r.documents d := by
  have := commit_journal_take stores p.journal.length
  rwa [List.take_length] at this

theorem finish_committed (stores : r.begin.Stores new p) : ∃ documents, r.finish p .committed =
    (⟨r.readwrite, p.tables, documents⟩, none) ∧
      ∀ d, documents d = if d ∈ p.journal then p.documents.temp d else r.documents d := by
  obtain ⟨s, committed, docs⟩ := commit_journal_all stores
  exact ⟨s.docs, by rw [finish, committed], docs⟩

/-- The document of a record that has been stored. -/
theorem document_committed (stores : r.begin.Stores new p) {documents : Document → Option (Json δ)}
    (docs : ∀ d, documents d = if d ∈ p.journal then p.documents.temp d else r.documents d) {rec : Record δ}
    (h : rec ∈ new) : documents (.record rec.kind.category rec.name) = some rec.json := by
  have hw : (Document.record rec.kind.category rec.name, rec.json) ∈ rec.writes := List.mem_cons_self ..
  have journalled : Document.record rec.kind.category rec.name ∈ p.journal := by
    rw [stores.journal]
    exact List.mem_append_right _ (List.mem_flatMap.mpr ⟨rec, h, List.mem_map_of_mem hw⟩)
  rw [docs, if_pos journalled]
  exact stores.staged rec h _ hw

/-- A transaction that fails stores nothing; it may leave documents of what it would have stored. -/
theorem finish_failed (stores : r.begin.Stores new p) (failed : o ≠ .committed) :
    ∃ documents e, r.finish p o = (⟨r.readwrite, r.tables, documents⟩, some e) ∧
      ∀ d ∉ p.journal, documents d = r.documents d := by
  cases o with
  | not_locked => exact ⟨r.documents, _, rfl, fun _ _ => rfl⟩
  | lock_lost => exact ⟨r.documents, _, rfl, fun _ _ => rfl⟩
  | journal_fails n =>
    obtain ⟨s, committed, docs⟩ := commit_journal_take stores n
    refine ⟨s.docs, _, by rw [finish, committed], fun d hd => ?_⟩
    rw [docs, if_neg fun h => hd (List.mem_of_mem_take h)]
  | commit_fails =>
    obtain ⟨s, committed, docs⟩ := commit_journal_all stores
    refine ⟨s.docs, _, by rw [finish, committed], fun d hd => ?_⟩
    rw [docs, if_neg hd]
  | committed => exact absurd rfl failed

/-- What a commit does. -/
theorem commit_cases (r : Repository δ) (x : Object δ) (o : Outcome) :
    (∃ e, r.commit x o = (r, some e)) ∨ ∃ new p, new ⊆ x.dependencies r.tables ∧ r.begin.perform x = .ok p ∧
      r.begin.Stores (new ++ [x.record]) p ∧ r.commit x o = r.finish p o := by
  rw [commit]
  split_ifs with locked
  · exact .inl ⟨_, rfl⟩
  · cases performed : r.begin.perform x with
    | error e => exact .inl ⟨e, rfl⟩
    | ok p =>
      obtain ⟨new, stores, sub⟩ := Pending.stores_of_perform performed
      exact .inr ⟨new, p, sub, rfl, stores, rfl⟩

/-- **One commit** does what it should. -/
theorem lawful (r : Repository δ) (l : Object δ × Outcome) : r.Lawful l := by
  obtain ⟨x, o⟩ := l
  obtain ⟨e, eq⟩ | ⟨new, p, sub, performed, stores, eq⟩ := commit_cases r x o
  · exact ⟨fun _ => by simp [eq], fun _ => by simp [eq], fun none => by simp [eq] at none⟩
  · have fresh : ¬ Named r.tables x.record.key := stores.fresh _ (by simp)
    refine ⟨?_, ?_, ?_⟩
    · rintro (named | ⟨e, error⟩)
      · exact absurd named fresh
      · rw [performed] at error
        cases error
    · intro failed
      by_cases committed : o = .committed
      · subst committed
        obtain ⟨documents, finished, -⟩ := finish_committed stores
        simp [eq, finished] at failed
      · obtain ⟨documents, e, finished, -⟩ := finish_failed stores committed
        simp [eq, finished]
    · intro none
      by_cases committed : o = .committed
      · subst committed
        obtain ⟨documents, finished, docs⟩ := finish_committed stores
        refine ⟨new, sub, ?_, ?_, stores.fresh, stores.once, stores.settled⟩
        · intro k
          rw [eq, finished]
          exact stores.tables k
        · intro rec hrec
          rw [eq, finished]
          exact document_committed stores docs hrec
      · obtain ⟨documents, e, finished, -⟩ := finish_failed stores committed
        simp [eq, finished] at none

/-! ### Runs -/

theorem unique_commit (unique : r.Unique) (x : Object δ) (o : Outcome) : (r.commit x o).1.Unique := by
  obtain ⟨e, eq⟩ | ⟨new, p, sub, performed, stores, eq⟩ := commit_cases r x o
  · rwa [eq]
  · rw [eq]
    by_cases committed : o = .committed
    · subst committed
      obtain ⟨documents, finished, -⟩ := finish_committed stores
      rw [finished]
      exact stores.count_le_one unique
    · obtain ⟨documents, e, finished, -⟩ := finish_failed stores committed
      rwa [finished]

/-- What an object depends on. -/
theorem mem_dependencies {t : Tables} {rec : Record δ} (h : rec ∈ x.dependencies t) :
    (∃ ics : InitialConditions δ, rec = ics.record) ∨ (∃ tk : DerivableTask δ, rec = tk.record) ∨
      ∃ d : DerivedProduct δ, rec = d.record := by
  have named : ∀ {need : Need} {l : List (Record δ)}, rec ∈ unless_named t need l → rec ∈ l := by
    intro need l hl
    rw [unless_named] at hl
    split_ifs at hl
    · cases hl
    · exact hl
  have task : ∀ tk : DerivableTask δ, rec ∈ tk.dependencies t ++ [tk.record] →
      (∃ ics : InitialConditions δ, rec = ics.record) ∨ ∃ tk : DerivableTask δ, rec = tk.record := by
    intro tk
    induction tk with
    | integration name serializable ics kconfig data =>
      intro h
      rcases List.mem_append.mp h with h | h
      · exact .inl ⟨ics, List.mem_singleton.mp (named h)⟩
      · exact .inr ⟨_, List.mem_singleton.mp h⟩
    | postintegration name serializable parent data ih =>
      intro h
      rcases List.mem_append.mp h with h | h
      · exact ih (named h)
      · exact .inr ⟨_, List.mem_singleton.mp h⟩
  have product : ∀ d : DerivedProduct δ, rec ∈ d.dependencies t ++ [d.record] →
      (∃ ics : InitialConditions δ, rec = ics.record) ∨ (∃ tk : DerivableTask δ, rec = tk.record) ∨
        ∃ d : DerivedProduct δ, rec = d.record := by
    intro d h
    rcases List.mem_append.mp h with h | h
    · obtain ⟨tk, -, h⟩ := List.mem_flatMap.mp h
      exact (task tk (named h)).imp_right .inl
    · exact .inr (.inr ⟨d, List.mem_singleton.mp h⟩)
  cases x with
  | package ics => cases h
  | task tk => exact (task tk (List.mem_append_left _ h)).imp_right .inl
  | product d => exact product d (List.mem_append_left _ h)
  | output tk =>
    obtain ⟨d, -, h⟩ := List.mem_flatMap.mp h
    exact product d (named h)

/-- An object depends on no output task. -/
theorem kind_of_mem_dependencies {t : Tables} {rec : Record δ} (h : rec ∈ x.dependencies t) :
    rec.kind ≠ .output_task := by
  obtain ⟨ics, rfl⟩ | ⟨tk, rfl⟩ | ⟨d, rfl⟩ := mem_dependencies h
  · simp [InitialConditions.record]
  · cases tk <;> simp [DerivableTask.record]
  · simp [DerivedProduct.record]

/-- The documents are of their kinds. -/
theorem isOf_of_mem {t : Tables} {new : List (Record δ)} (sub : new ⊆ x.dependencies t) {rec : Record δ}
    (h : rec ∈ new ++ [x.record]) : rec.json.IsOf rec.kind := by
  have task : ∀ tk : DerivableTask δ, tk.record.json.IsOf tk.record.kind := fun tk => by cases tk <;> rfl
  rcases List.mem_append.mp h with h | h
  · obtain ⟨ics, rfl⟩ | ⟨tk, rfl⟩ | ⟨d, rfl⟩ := mem_dependencies (sub h)
    · rfl
    · exact task tk
    · rfl
  · rw [List.mem_singleton.mp h]
    cases x with
    | package ics => rfl
    | task tk => exact task tk
    | product d => rfl
    | output tk => rfl

/-- Documents of what is stored are not in the journal. -/
theorem not_mem_journal (stores : r.begin.Stores new p) {k : Kind} {row : Row} (h : row ∈ r.tables k) :
    Document.record k.category row.name ∉ p.journal := by
  intro journalled
  rw [stores.journal, begin, List.nil_append] at journalled
  obtain ⟨rec, hrec, hd⟩ := List.mem_flatMap.mp journalled
  obtain ⟨w, hw, same⟩ := List.mem_map.mp hd
  have key : rec.key = (k.category, row.name) := by
    simp only [Record.writes, List.mem_cons, List.mem_ite_nil_right, List.mem_map] at hw
    obtain rfl | ⟨-, data, -, rfl⟩ := hw
    · injection same with category name
      exact Prod.ext category name
    · cases same
  exact stores.fresh rec hrec (key ▸ named_iff.mpr ⟨k, rfl, List.mem_map_of_mem h⟩)

/-- If no task that is looked for bears the name of an output task, then everything has what it depends on. -/
theorem closed_commit (closed : r.Closed) (permitted : r.Permitted (x, o)) : (r.commit x o).1.Closed := by
  obtain ⟨e, eq⟩ | ⟨new, p, sub, performed, stores, eq⟩ := commit_cases r x o
  · rwa [eq]
  · rw [eq]
    by_cases committed : o = .committed
    · subst committed
      obtain ⟨documents, finished, docs⟩ := finish_committed stores
      rw [finished]
      -- what is looked for is there, and is not an output task
      have met : ∀ rec ∈ new ++ [x.record], ∀ need ∈ rec.json.needs, Met p.tables need := by
        intro rec hrec need hneed
        have allowed : rec ∈ x.dependencies r.tables ++ [x.record] := by
          rcases List.mem_append.mp hrec with h | h
          · exact List.mem_append_left _ (sub h)
          · exact List.mem_append_right _ h
        rcases known_of_settled stores.settled hrec hneed with named | ⟨d, hd, key⟩
        · obtain ⟨k, category, name⟩ := named_iff.mp named
          refine ⟨k, category, fun output => ?_, ?_⟩
          · subst output
            exact permitted rec allowed need hneed category.symm name
          · show need.2 ∈ (p.tables k).map (·.name)
            rw [stores.tables, List.map_append]
            exact List.mem_append_left _ name
        · refine ⟨d.kind, congrArg Prod.fst key, kind_of_mem_dependencies (sub hd), ?_⟩
          show need.2 ∈ (p.tables d.kind).map (·.name)
          rw [stores.tables, List.map_append, List.map_map]
          refine List.mem_append_right _ (List.mem_map.mpr ⟨d, ?_, congrArg Prod.snd key⟩)
          exact List.mem_filter.mpr ⟨List.mem_append_left _ hd, decide_eq_true rfl⟩
      intro k row hrow
      rw [show (⟨r.readwrite, p.tables, documents⟩ : Repository δ).tables k = p.tables k from rfl, stores.tables] at hrow
      rcases List.mem_append.mp hrow with hrow | hrow
      · obtain ⟨json, document, isOf, reference, needs⟩ := closed k row hrow
        refine ⟨json, ?_, isOf, reference, fun need hneed => ?_⟩
        · exact (docs _).trans ((if_neg (not_mem_journal stores hrow)).trans document)
        · obtain ⟨k', category, kind, name⟩ := needs need hneed
          refine ⟨k', category, kind, ?_⟩
          show need.2 ∈ (p.tables k').map (·.name)
          rw [stores.tables, List.map_append]
          exact List.mem_append_left _ name
      · obtain ⟨rec, hrec, rfl⟩ := List.mem_map.mp hrow
        obtain ⟨there, kind⟩ := List.mem_filter.mp hrec
        obtain rfl := of_decide_eq_true kind
        exact ⟨rec.json, document_committed stores docs there, isOf_of_mem sub there, rfl, met rec there⟩
    · obtain ⟨documents, e, finished, docs⟩ := finish_failed stores committed
      rw [finished]
      intro k row hrow
      obtain ⟨json, document, rest⟩ := closed k row hrow
      exact ⟨json, (docs _ (not_mem_journal stores hrow)).trans document, rest⟩

theorem unique_empty (readwrite : Bool) : (empty readwrite : Repository δ).Unique := by
  rintro ⟨c, name⟩
  cases c <;> simp [empty, count, count_packages, count_tasks, count_products, count_groups, internal_count]

theorem closed_empty (readwrite : Bool) : (empty readwrite : Repository δ).Closed := fun _ _ h => by simp [empty] at h

end Repository

/-- **Commits keep dependencies closed**: along every history of commits, each does what it should, and names stay unique;
if no commit looks for a task of the name of an output task that is stored, then everything that is stored has what it
depends on. -/
theorem commits_keep_closed (readwrite : Bool) (history : List (Object δ × Outcome)) :
    StepsSatisfy Repository.next Repository.Lawful (.empty readwrite) history ∧
      StatesSatisfy Repository.next Repository.Unique (.empty readwrite) history ∧
      (StepsSatisfy Repository.next Repository.Permitted (.empty readwrite) history →
        StatesSatisfy Repository.next Repository.Closed (.empty readwrite) history) := by
  refine ⟨stepsSatisfy_of_forall Repository.lawful _ _, ?_, fun permitted => ?_⟩
  · refine statesSatisfy_of_stepsSatisfy (C := fun _ _ => True) ?_ (Repository.unique_empty readwrite)
      (stepsSatisfy_of_forall (fun _ _ => trivial) _ _)
    rintro r l r' unique - next
    exact Option.some.inj next ▸ Repository.unique_commit unique l.1 l.2
  · refine statesSatisfy_of_stepsSatisfy ?_ (Repository.closed_empty readwrite) permitted
    rintro r l r' closed permitted next
    exact Option.some.inj next ▸ Repository.closed_commit closed permitted

/-! ### A parent that bears the name of an output task -/

/-- A postintegration task over an integration task. -/
def fNL_over_zeta : Object Unit :=
  .task (.postintegration "fNL" true (.integration "zeta" true ⟨"package", ()⟩ none ()) ())

/-- If there is an output task of the name of the integration task, that is taken for the parent. -/
theorem not_closed_same_name : ¬ StatesSatisfy Repository.next Repository.Closed (.empty true)
    [(.output ⟨"zeta", true, [], ()⟩, .committed), (fNL_over_zeta, .committed)] := by
  rintro ⟨-, h⟩
  obtain ⟨-, h⟩ := h _ rfl
  have closed := h _ rfl
  obtain ⟨json, document, -, -, needs⟩ := closed .postintegration_task
    ⟨"fNL", some "zeta", "repository/tasks/fNL.json"⟩ (by decide)
  have parent : json = .postintegration_task "zeta" () := (Option.some.inj document).symm
  obtain ⟨k, category, output, there⟩ := needs (.task, "zeta") (by simp [parent, Json.needs])
  cases k with
  | integration_task => exact absurd there (by decide)
  | postintegration_task => exact absurd there (by decide)
  | output_task => exact output rfl
  | _ => cases category

/-- If the output task is of another name, the parent is stored. -/
theorem closed_other_name : StatesSatisfy Repository.next Repository.Closed (.empty true)
    [(.output ⟨"plots", true, [], ()⟩, .committed), (fNL_over_zeta, .committed)] := by
  refine (commits_keep_closed true _).2.2 ⟨by decide, fun r next => ⟨?_, fun _ _ => trivial⟩⟩
  obtain rfl := Option.some.inj next
  decide

end CppTransport.Runtime.RecordStore
