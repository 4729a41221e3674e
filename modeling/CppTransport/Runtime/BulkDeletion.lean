import CppTransport.Library.Exceptions
import CppTransport.Library.SortedUnion
import CppTransport.Library.Sweep
import CppTransport.Runtime.ContentGraph
import CppTransport.Runtime.ContentNames
import Mathlib.Data.String.Basic

/-!
# Deleting many content groups

`repository_toolkit::delete_content` is given patterns, and deletes the content groups that match, unless they are
locked or others depend on them. It goes through the output groups, the postintegration groups and the integration
groups, each kind in one transaction, and computes the distance matrix again when it has deleted one.

## The model

* `Repository`: the content groups and what the records of their tasks list, each group with a task of its kind;
* `match_items`, `delete_records`, `delete_content`: the loops. A `Cursor` is where the iterator of the outer loop is in
  the inner one. To advance it beyond the end, or to look at a record that has been erased, is undefined behaviour;
* the regular expressions, and the algorithm that finds shortest paths, are parameters;
* the records of tasks that are written in a transaction are read again only after its end.

The list `examined`, which is not in the source, says which groups the outer loop has come to, and what there was then.

## What is proved

`delete_content_lawful_iff`: the call returns and does what it should if and only if there are no groups at all, or all
patterns are the same, it is well formed, and no group that it may delete otherwise is the seed of an integration group
that is still there. The inner loop advances the iterator once for every pattern: without patterns the call never
returns, and with two it skips groups.
-/

namespace CppTransport.Runtime.BulkDeletion

open Library
open ContentNames (GroupTable)

def CPPTRANSPORT_REPO_TOOLKIT_VERTEX_NOT_FOUND : String := "Internal error: could not find vertex"
def CPPTRANSPORT_REPO_TOOLKIT_CANNOT_DELETE_DEPENDENT_A : String := "Cannot delete content group"
def CPPTRANSPORT_REPO_TOOLKIT_CANNOT_DELETE_DEPENDENT_B : String := "because other groups depend on it:"
def CPPTRANSPORT_REPO_TOOLKIT_MISSING_OBJECT : String := "Found no matches for repository object"
def CPPTRANSPORT_REPO_TOOLKIT_IGNORING_LOCKED : String := "Ignoring locked repository object"
def CPPTRANSPORT_REPO_TOOLKIT_DELETING_OBJECT : String := "Deleting repository object"
def CPPTRANSPORT_REPO_GROUP_IS_LOCKED : String := "Repository error: attempt to delete locked content group"
def CPPTRANSPORT_REPO_EXTRACT_DERIVED_NOT_INTGRTN : String :=
  "Repository error: attempt to enumerate derived contents for non-integration task"
def CPPTRANSPORT_REPO_EXTRACT_DERIVED_NOT_POSTINT : String :=
  "Repository error: attempt to enumerate derived contents for non-postintegration task"

/-! ### Patterns -/

/-- The regular expression in a pattern, which stands between braces. -/
def expression (e : String) : Option String :=
  if e.toList.head? = some '\x7b' ∧ e.toList.getLast? = some '\x7d' then some (String.ofList e.toList.tail.dropLast)
  else none

/-- `check_match`, with an exact match; there is none if the expression is not well formed. -/
def check_match (regex : String → Option (String → Bool)) (s e : String) : Option Bool :=
  match expression e with
  | some expr => (regex expr).map fun accepts => accepts s
  | none => some (s = e)

/-! ### The repository -/

/-- What is read of the record of a content group. -/
structure Record where
  name : String
  task_name : String
  lock_status : Bool
deriving DecidableEq

/-- The content groups of a kind. -/
def records (db : ContentDatabase String) : GroupTable → List Record
  | .integration => db.integration.map fun g => ⟨g.name, g.task_name, g.lock_status⟩
  | .postintegration => db.postintegration.map fun g => ⟨g.name, g.task_name, g.lock_status⟩
  | .output => db.output.map fun g => ⟨g.name, g.task_name, g.lock_status⟩

/-- The kind of the content groups of a task. -/
def get_type : TaskSource String → GroupTable
  | .integration _ => .integration
  | .postintegration _ => .postintegration
  | .output => .output

/-- The rows that a deletion leaves. -/
def left {ρ : Type} (deleted : Bool) (name task : ρ → String) (record : Record) (rows : List ρ) : List ρ :=
  if deleted then rows.filter fun row => ¬ (name row = record.name ∧ task row = record.task_name) else rows

theorem left_sublist {ρ : Type} (deleted : Bool) (name task : ρ → String) (record : Record) (rows : List ρ) :
    (left deleted name task record rows).Sublist rows := by
  rw [left]
  split_ifs
  · exact List.filter_sublist
  · exact .refl rows

/-- `sqlite3_operations::delete_group` -/
def delete_group (db : ContentDatabase String) (table : GroupTable) (record : Record) : ContentDatabase String where
  integration := left (table = .integration) (·.name) (·.task_name) record db.integration
  postintegration := left (table = .postintegration) (·.name) (·.task_name) record db.postintegration
  output := left (table = .output) (·.name) (·.task_name) record db.output
  tasks := db.tasks
  integration_sorted := db.integration_sorted.sublist ((left_sublist ..).map _)
  postintegration_sorted := db.postintegration_sorted.sublist ((left_sublist ..).map _)
  output_sorted := db.output_sorted.sublist ((left_sublist ..).map _)
  tasks_sorted := db.tasks_sorted
  integration_distinct i hi p hp :=
    db.integration_distinct i ((left_sublist ..).subset hi) p ((left_sublist ..).subset hp)
  integration_output i hi o ho := db.integration_output i ((left_sublist ..).subset hi) o ((left_sublist ..).subset ho)
  postintegration_output p hp o ho :=
    db.postintegration_output p ((left_sublist ..).subset hp) o ((left_sublist ..).subset ho)

theorem records_delete_group (db : ContentDatabase String) (table table' : GroupTable) (record : Record) :
    records (delete_group db table record) table' =
      left (table = table') Record.name Record.task_name record (records db table') := by
  cases table' <;>
    · simp only [records, delete_group, left]
      split_ifs
      · rw [List.filter_map]
        rfl
      · rfl

/-- Each content group belongs to a task of its kind. -/
structure Repository where
  db : ContentDatabase String
  /-- What the record of a task has as its content groups. -/
  content_groups : String → List String
  owned : ∀ table, ∀ record ∈ records db table, (db.find_task record.task_name).map get_type = some table

def Repository.delete_group (repo : Repository) (table : GroupTable) (record : Record) : Repository where
  db := BulkDeletion.delete_group repo.db table record
  content_groups := repo.content_groups
  owned table' record' h := by
    rw [records_delete_group] at h
    exact repo.owned table' record' ((left_sublist ..).subset h)

/-- An algorithm that finds shortest paths. -/
structure ShortestPaths where
  distance : LinkGraph String → String → String → ℕ
  correct : ∀ G : LinkGraph String, G.IsDistance uint_max (distance G)

def ShortestPaths.content_group_distance_matrix (paths : ShortestPaths) (db : ContentDatabase String) :
    RepositoryDistanceMatrix String := ⟨db.distance_graph, paths.distance db.distance_graph⟩

/-! ### The loops -/

/-- What is said of a task of another type; an output task is said not to be a postintegration task. -/
def not_of_type : GroupTable → String
  | .integration => CPPTRANSPORT_REPO_EXTRACT_DERIVED_NOT_INTGRTN
  | .postintegration => CPPTRANSPORT_REPO_EXTRACT_DERIVED_NOT_POSTINT
  | .output => CPPTRANSPORT_REPO_EXTRACT_DERIVED_NOT_POSTINT

/-- What is printed. -/
inductive Report where
  | ignoring_locked (name : String)
  | deleting (name : String)
  | cannot_delete (name : String) (dependents : Finset String)
  | missing (pattern : String)

def Report.text : Report → String
  | ignoring_locked name => CPPTRANSPORT_REPO_TOOLKIT_IGNORING_LOCKED ++ " '" ++ name ++ "'"
  | deleting name => CPPTRANSPORT_REPO_TOOLKIT_DELETING_OBJECT ++ " '" ++ name ++ "'"
  | cannot_delete name dependents =>
    CPPTRANSPORT_REPO_TOOLKIT_CANNOT_DELETE_DEPENDENT_A ++ " '" ++ name ++ "', " ++
      CPPTRANSPORT_REPO_TOOLKIT_CANNOT_DELETE_DEPENDENT_B ++ " " ++ String.intercalate ", " (dependents.sort (· ≤ ·))
  | missing pattern => CPPTRANSPORT_REPO_TOOLKIT_MISSING_OBJECT ++ " '" ++ pattern ++ "'"

inductive Fault where
  | undefined_behaviour
  | regex_error
  | exception (message : String)

/-- The iterator of the outer loop, in the inner one. -/
structure Cursor where
  /-- The records from the one at the iterator on. -/
  rest : List Record
  /-- Is the record that is examined still there? -/
  alive : Bool
  /-- Is the iterator still at it? -/
  at_record : Bool

/-- `++t` -/
def Cursor.advance (c : Cursor) : Except Fault Cursor :=
  match c.rest with
  | [] => .error .undefined_behaviour
  | _ :: rest => .ok ⟨rest, c.alive, false⟩

/-- `t = db.erase(t)` -/
def Cursor.erase (c : Cursor) : Except Fault Cursor :=
  match c.rest with
  | [] => .error .undefined_behaviour
  | _ :: rest => .ok ⟨rest, c.alive && !c.at_record, false⟩

structure State where
  repo : Repository
  /-- The records of tasks that the transaction is to write. -/
  staged : String → Option (List String)
  dmat : RepositoryDistanceMatrix String
  /-- The patterns, and whether they have matched. -/
  items : List (String × Bool)
  reports : List Report
  /-- The groups that the outer loops have come to, and what there was then. -/
  examined : List ((GroupTable × Record) × ContentDatabase String)

namespace State

variable (s : State)

def report (r : Report) : State := { s with reports := s.reports ++ [r] }

/-- `erase_repository_record`, for a kind of groups. -/
def erase_repository_record (table : GroupTable) (record : Record) : Except Fault State :=
  match s.repo.db.find_task record.task_name with
  | none => .error (.exception record.task_name)
  | some task =>
    if get_type task ≠ table then
      .error (.exception (not_of_type table ++ " '" ++ record.name ++ "'"))
    else
      match (records s.repo.db table).find? fun group => group.name = record.name with
      | none => .error (.exception record.name)
      | some group =>
        if group.lock_status then
          .error (.exception (CPPTRANSPORT_REPO_GROUP_IS_LOCKED ++ " '" ++ group.name ++ "'"))
        else
          -- the record of the task comes from the disk, where nothing of the transaction is yet
          .ok { s with
            staged := Function.update s.staged record.task_name
              (some ((s.repo.content_groups record.task_name).erase group.name))
            repo := s.repo.delete_group table ⟨group.name, record.task_name, group.lock_status⟩ }

/-- The end of a transaction. -/
def commit : State :=
  { s with
    staged := fun _ => none
    repo := { s.repo with content_groups := fun task => (s.staged task).getD (s.repo.content_groups task) } }

end State

section

variable (regex : String → Option (String → Bool)) (paths : ShortestPaths)

/-- A pattern has matched. -/
def examine (table : GroupTable) (record : Record) (c : Cursor) (s : State) : Except Fault (Cursor × State) :=
  match s.dmat.find_dependent_objects record.name with
  | none => .error (.exception (CPPTRANSPORT_REPO_TOOLKIT_VERTEX_NOT_FOUND ++ " '" ++ record.name ++ "'"))
  | some dependent_groups =>
    if dependent_groups = ∅ then
      if record.lock_status then do
        let c ← c.advance
        .ok (c, s.report (.ignoring_locked record.name))
      else do
        let s ← (s.report (.deleting record.name)).erase_repository_record table record
        let c ← c.erase
        .ok (c, { s with dmat := paths.content_group_distance_matrix s.repo.db })
    else do
      let c ← c.advance
      .ok (c, s.report (.cannot_delete record.name dependent_groups))

/-- The inner loop. -/
def match_items (table : GroupTable) (record : Record) :
    List (String × Bool) → Cursor → State → Except Fault (List (String × Bool) × Cursor × State)
  | [], c, s => .ok ([], c, s)
  | item :: items, c, s =>
    if c.alive then
      match check_match regex record.name item.1 with
      | none => .error .regex_error
      | some true => do
        let (c, s) ← examine paths table record c s
        let (items, c, s) ← match_items table record items c s
        .ok ((item.1, true) :: items, c, s)
      | some false => do
        let c ← c.advance
        let (items, c, s) ← match_items table record items c s
        .ok (item :: items, c, s)
    else .error .undefined_behaviour

/-- The outer loop, from the record at the iterator on; the fuel bounds the number of rounds. -/
def delete_records (table : GroupTable) : ℕ → List Record → State → Option (Except Fault State)
  | 0, _, _ => none
  | _ + 1, [], s => some (.ok s)
  | fuel + 1, record :: rest, s =>
    let s := { s with examined := s.examined ++ [((table, record), s.repo.db)] }
    match match_items regex paths table record s.items ⟨record :: rest, true, true⟩ s with
    | .error fault => some (.error fault)
    | .ok (items, c, s) => delete_records table fuel c.rest { s with items }

/-- `delete_content` for the databases of some kinds. -/
def delete_databases (fuel : ℕ) : List (GroupTable × List Record) → State → Option (Except Fault State)
  | [], s => some (.ok s)
  | (table, db) :: databases, s =>
    match delete_records regex paths table fuel db s with
    | none => none
    | some (.error fault) => some (.error fault)
    | some (.ok s) => delete_databases fuel databases s.commit

/-- The kinds of groups, in the order in which they are deleted. -/
def tables : List GroupTable := [.output, .postintegration, .integration]

def State.initial (repo : Repository) (objects : List String) : State where
  repo := repo
  staged _ := none
  dmat := paths.content_group_distance_matrix repo.db
  items := (sortedUnion [] objects).map fun object => (object, false)
  reports := []
  examined := []

/-- The patterns that have not matched are reported. -/
def State.report_missing (s : State) : State :=
  { s with reports := s.reports ++ (s.items.filter fun item => !item.2).map fun item => .missing item.1 }

/-- `delete_content` -/
def delete_content (fuel : ℕ) (repo : Repository) (objects : List String) : Option (Except Fault State) :=
  match delete_databases regex paths fuel (tables.map fun table => (table, records repo.db table))
    (State.initial paths repo objects) with
  | none => none
  | some (.error fault) => some (.error fault)
  | some (.ok s) => some (.ok s.report_missing)

end

/-! ### What is claimed -/

/-- The groups, in the order in which the databases are gone through. -/
def groups (db : ContentDatabase String) : List (GroupTable × Record) :=
  tables.flatMap fun table => (records db table).map fun record => (table, record)

/-- A seed, and the integration group that it is the seed of. -/
def Seeded (db : ContentDatabase String) (g h : String) : Prop :=
  ∃ rec ∈ db.integration, rec.seed_group = some g ∧ h = rec.name

/-- A group, and the postintegration or output group that is made from it. -/
def MadeFrom (db : ContentDatabase String) (g h : String) : Prop :=
  (∃ rec ∈ db.postintegration, (g = rec.parent_group ∨ rec.seed_group = some g) ∧ h = rec.name) ∨
    ∃ rec ∈ db.output, g ∈ rec.content_groups_summary ∧ h = rec.name

/-- The second depends on the first, through any chain of groups that are there. -/
def Depends (db : ContentDatabase String) : String → String → Prop :=
  Relation.TransGen fun g h => Seeded db g h ∨ MadeFrom db g h

section

variable (regex : String → Option (String → Bool)) (objects : List String)

/-- A group is to be deleted: it matches a pattern, is not locked, and no other group depends on it. -/
def Deletable (db : ContentDatabase String) (g : GroupTable × Record) : Prop :=
  (∃ p ∈ objects, check_match regex g.2.name p = some true) ∧ g.2.lock_status = false ∧
    ∀ h, Depends db g.2.name h → h = g.2.name

/-- What is claimed of the state in which `delete_content` returns. -/
structure Result (repo : Repository) (s : State) : Prop where
  /-- Each group is examined once. -/
  once : (s.examined.map Prod.fst).Perm (groups repo.db)
  deleted : ∀ e ∈ s.examined, e.1 ∉ groups s.repo.db ↔ Deletable regex objects e.2 e.1
  integration : s.repo.db.integration.Sublist repo.db.integration
  postintegration : s.repo.db.postintegration.Sublist repo.db.postintegration
  output : s.repo.db.output.Sublist repo.db.output
  tasks : s.repo.db.tasks = repo.db.tasks
  /-- The record of a task is left as it is if all its groups are. -/
  content_groups : ∀ task, (∀ g ∈ groups repo.db, g.2.task_name = task → g ∈ groups s.repo.db) →
    s.repo.content_groups task = repo.content_groups task
  missing : ∀ p ∈ objects,
    Report.missing p ∈ s.reports ↔ ∀ g ∈ groups repo.db, check_match regex g.2.name p ≠ some true

/-- `delete_content` returns, and does what is claimed. -/
def Lawful (paths : ShortestPaths) (repo : Repository) : Prop :=
  ∃ enough s, (∀ fuel, enough ≤ fuel → delete_content regex paths fuel repo objects = some (.ok s)) ∧
    Result regex objects repo s

/-- The expression of a pattern, if it has one, is well formed. -/
def WellFormed (p : String) : Prop := ∀ expr ∈ expression p, (regex expr).isSome

open Classical in
/-- The deletions that are claimed. -/
noncomputable def claimed : Sweep (ContentDatabase String) (GroupTable × Record) where
  remove db g := delete_group db g.1 g.2
  can db g := decide (Deletable regex objects db g)

/-- No group that may be deleted otherwise, when it is examined, is the seed of another. -/
def SeedsRespected (db : ContentDatabase String) : Prop :=
  ∀ e ∈ (claimed regex objects).trace db (groups db),
    (∃ p ∈ objects, check_match regex e.1.2.name p = some true) → e.1.2.lock_status = false →
      (∀ h, MadeFrom e.2 e.1.2.name h → h = e.1.2.name) → ∀ h, Seeded e.2 e.1.2.name h → h = e.1.2.name

open Classical in
/-- The deletions that take place for one pattern. -/
noncomputable def actual (p : String) : Sweep (ContentDatabase String) (GroupTable × Record) where
  remove db g := delete_group db g.1 g.2
  can db g := decide (check_match regex g.2.name p = some true ∧ g.2.lock_status = false ∧
    ∀ h, MadeFrom db g.2.name h → h = g.2.name)

end

/-! ### Deletions -/

section

variable {regex : String → Option (String → Bool)} {paths : ShortestPaths} {objects : List String} {p : String}
  {db : ContentDatabase String} {table : GroupTable} {record : Record} {g : GroupTable × Record} {repo : Repository}

/-- Is the group there? -/
def Holds (db : ContentDatabase String) (g : GroupTable × Record) : Prop := g.2 ∈ records db g.1

theorem mem_groups : g ∈ groups db ↔ Holds db g := by
  obtain ⟨table, record⟩ := g
  cases table <;> simp [groups, tables, Holds]

theorem names_sorted (db : ContentDatabase String) (table : GroupTable) :
    ((records db table).map (·.name)).Pairwise (· < ·) := by
  cases table
  · simpa [records, Function.comp_def] using db.integration_sorted
  · simpa [records, Function.comp_def] using db.postintegration_sorted
  · simpa [records, Function.comp_def] using db.output_sorted

theorem names_nodup (db : ContentDatabase String) (table : GroupTable) : ((records db table).map (·.name)).Nodup :=
  (names_sorted db table).imp fun h => h.ne

theorem eq_of_name_eq {record' : Record} (h : record ∈ records db table) (h' : record' ∈ records db table)
    (hname : record.name = record'.name) : record = record' :=
  List.inj_on_of_nodup_map (names_nodup db table) h h' hname

theorem groups_nodup (db : ContentDatabase String) : (groups db).Nodup := by
  rw [groups, List.nodup_flatMap]
  refine ⟨fun table _ => ?_, ?_⟩
  · exact (List.Nodup.of_map _ (names_nodup db table)).map fun _ _ h => (Prod.mk.inj h).2
  · refine List.Pairwise.imp (R := (· ≠ ·)) ?_ (by decide)
    intro table table' hne g hg hg'
    obtain ⟨_, _, rfl⟩ := List.mem_map.mp hg
    obtain ⟨_, _, heq⟩ := List.mem_map.mp hg'
    exact hne (Prod.mk.inj heq).1.symm

theorem holds_delete_group (hg : Holds db g) (j : GroupTable × Record) :
    Holds (delete_group db g.1 g.2) j ↔ Holds db j ∧ j ≠ g := by
  obtain ⟨table, record⟩ := g
  obtain ⟨table', record'⟩ := j
  simp only [Holds, records_delete_group, left] at hg ⊢
  by_cases htable : table = table'
  · subst htable
    simp only [decide_true, if_true, List.mem_filter, decide_eq_true_eq, ne_eq, Prod.mk.injEq, true_and]
    refine and_congr_right fun hmem => not_congr ⟨fun h => eq_of_name_eq hmem hg h.1, ?_⟩
    rintro rfl
    exact ⟨rfl, rfl⟩
  · simp [htable, Ne.symm htable]

theorem claimed_can : (claimed regex objects).can db g = true ↔ Deletable regex objects db g := by simp [claimed]

theorem actual_can :
    (actual regex p).can db g = true ↔ check_match regex g.2.name p = some true ∧ g.2.lock_status = false ∧
      ∀ h, MadeFrom db g.2.name h → h = g.2.name := by
  simp [actual]

theorem holds_remove (db : ContentDatabase String) (g j : GroupTable × Record) (hg : Holds db g) :
    Holds ((actual regex p).remove db g) j ↔ Holds db j ∧ j ≠ g := holds_delete_group hg j

/-- What a chain of steps reaches is the start, if each step from the start leads there. -/
theorem transGen_stays_iff {α : Type*} {r : α → α → Prop} {a : α} :
    (∀ b, Relation.TransGen r a b → b = a) ↔ ∀ b, r a b → b = a := by
  refine ⟨fun h b hb => h b (.single hb), fun h b hb => ?_⟩
  induction hb with
  | single hb => exact h _ hb
  | tail _ hc ih =>
    subst ih
    exact h _ hc

/-- For one pattern the deletions agree where no seed of another group is deleted. -/
theorem can_eq_iff (honly : ∀ q, q ∈ objects ↔ q = p) :
    (claimed regex objects).can db g = (actual regex p).can db g ↔
      ((∃ q ∈ objects, check_match regex g.2.name q = some true) → g.2.lock_status = false →
        (∀ h, MadeFrom db g.2.name h → h = g.2.name) → ∀ h, Seeded db g.2.name h → h = g.2.name) := by
  have hmatch : (∃ q ∈ objects, check_match regex g.2.name q = some true) ↔
      check_match regex g.2.name p = some true := by simp [honly]
  have hdepends : (∀ h, Depends db g.2.name h → h = g.2.name) ↔
      (∀ h, Seeded db g.2.name h → h = g.2.name) ∧ ∀ h, MadeFrom db g.2.name h → h = g.2.name := by
    rw [Depends, transGen_stays_iff, ← forall_and]
    exact forall_congr' fun h => or_imp
  rw [Bool.eq_iff_iff, claimed_can, actual_can, Deletable, hmatch, hdepends]
  tauto

theorem seedsRespected_iff (honly : ∀ q, q ∈ objects ↔ q = p) :
    SeedsRespected regex objects db ↔
      Sweep.Agree (claimed regex objects) (actual regex p) ((actual regex p).trace db (groups db)) := by
  have hagree := @Sweep.agree_trace_iff _ _ (claimed regex objects) (actual regex p) db (groups db) rfl
  rw [← hagree]
  exact forall₂_congr fun e _ => (can_eq_iff honly).symm

/-! ### One pattern -/

theorem check_match_isSome (name : String) : (check_match regex name p).isSome ↔ WellFormed regex p := by
  rw [check_match, WellFormed]
  cases expression p <;> simp

/-- What the matrix gives as dependent objects. -/
theorem find_dependent_objects_eq (paths : ShortestPaths) (hg : Holds db g) :
    ∃ dependent_groups,
      (paths.content_group_distance_matrix db).find_dependent_objects g.2.name = some dependent_groups ∧
      (dependent_groups = ∅ ↔ ∀ h, MadeFrom db g.2.name h → h = g.2.name) := by
  have hvertex : g.2.name ∈ db.distance_graph.vertices := by
    obtain ⟨table, record⟩ := g
    cases table
    all_goals
      obtain ⟨rec, hrec, rfl⟩ := List.mem_map.mp hg
    · exact ContentDatabase.closed_distance_graph.2 _ (.inl (List.mem_map_of_mem hrec))
    · exact ContentDatabase.closed_distance_graph.2 _ (.inr (List.mem_map_of_mem hrec))
    · exact ContentDatabase.mem_distance_graph_output hrec
  obtain ⟨objects, hfind, hmem⟩ := RepositoryDistanceMatrix.find_dependent_objects_eq
    (m := paths.content_group_distance_matrix db) ContentDatabase.closed_distance_graph.1 (paths.correct _) hvertex
  refine ⟨objects, hfind, ?_⟩
  have hedge : ∀ h, db.distance_graph.Edge g.2.name h ↔ MadeFrom db g.2.name h := fun h =>
    ContentDatabase.edge_distance_graph
  rw [Finset.eq_empty_iff_forall_notMem, ← forall_congr' fun h => imp_congr_left (hedge h), ← transGen_stays_iff]
  refine forall_congr' fun h => ?_
  rw [hmem]
  tauto

theorem erase_repository_record_eq {s : State} (hg : Holds s.repo.db (table, record))
    (hlock : record.lock_status = false) :
    s.erase_repository_record table record = .ok { s with
      staged := Function.update s.staged record.task_name
        (some ((s.repo.content_groups record.task_name).erase record.name))
      repo := s.repo.delete_group table record } := by
  obtain ⟨task, htask, htype⟩ := Option.map_eq_some_iff.mp (s.repo.owned table record hg)
  have hfind : (records s.repo.db table).find? (fun group => group.name = record.name) = some record :=
    (find?_key_eq_some_iff (names_nodup s.repo.db table)).mpr ⟨hg, rfl⟩
  have hnot : ¬ get_type task ≠ table := not_not.mpr htype
  simp only [State.erase_repository_record, htask, if_neg hnot, hfind, hlock, Bool.false_eq_true, if_false]
  exact congrArg _ rfl

/-- The record of a task, as the transaction is to leave it. -/
def State.document (s : State) (task : String) : List String := (s.staged task).getD (s.repo.content_groups task)

/-- Groups have been examined, for one pattern. -/
structure Swept (regex : String → Option (String → Bool)) (paths : ShortestPaths) (p : String) (s s' : State)
    (l : List (GroupTable × Record)) : Prop where
  db : s'.repo.db = (actual regex p).run s.repo.db l
  dmat : s'.dmat = paths.content_group_distance_matrix s'.repo.db
  examined : s'.examined = s.examined ++ (actual regex p).trace s.repo.db l
  items : ∀ matched, s.items = [(p, matched)] →
    s'.items = [(p, matched || l.any fun g => check_match regex g.2.name p = some true)]
  missing : ∀ q, Report.missing q ∈ s'.reports ↔ Report.missing q ∈ s.reports
  document : ∀ task,
    (∀ e ∈ (actual regex p).trace s.repo.db l, e.1.2.task_name = task → (actual regex p).can e.2 e.1 = false) →
      s'.document task = s.document task

namespace Swept

variable {s s' s'' : State} {l m : List (GroupTable × Record)} {matched : Bool}

theorem refl (hdmat : s.dmat = paths.content_group_distance_matrix s.repo.db) : Swept regex paths p s s [] where
  db := rfl
  dmat := hdmat
  examined := by simp
  items matched h := by simp [h]
  missing _ := Iff.rfl
  document _ _ := rfl

theorem trans (h : Swept regex paths p s s' l) (h' : Swept regex paths p s' s'' m) :
    Swept regex paths p s s'' (l ++ m) where
  db := by rw [h'.db, h.db, Sweep.run_append]
  dmat := h'.dmat
  examined := by rw [h'.examined, h.examined, h.db, Sweep.trace_append, List.append_assoc]
  items matched hitems := by rw [h'.items _ (h.items matched hitems), List.any_append, Bool.or_assoc]
  missing q := (h'.missing q).trans (h.missing q)
  document task hkept := by
    rw [Sweep.trace_append, ← h.db] at hkept
    rw [h'.document task fun e he => hkept e (List.mem_append_right _ he),
      h.document task fun e he => hkept e (List.mem_append_left _ he)]

theorem commit (h : Swept regex paths p s s' l) : Swept regex paths p s s'.commit l where
  db := h.db
  dmat := h.dmat
  examined := h.examined
  items := h.items
  missing := h.missing
  document task hkept := h.document task hkept

/-- A group is left. -/
theorem of_kept (regex : String → Option (String → Bool)) (g : GroupTable × Record) (reports : List Report)
    (hdmat : s.dmat = paths.content_group_distance_matrix s.repo.db)
    (hitems : s.items = [(p, matched)]) (hcan : ¬ (actual regex p).can s.repo.db g = true)
    (hmissing : ∀ q, Report.missing q ∈ reports ↔ Report.missing q ∈ s.reports) :
    Swept regex paths p s { s with
      examined := s.examined ++ [(g, s.repo.db)]
      items := [(p, matched || decide (check_match regex g.2.name p = some true))]
      reports } [g] where
  db := by rw [Sweep.run_cons, Sweep.run_nil, Sweep.step, if_neg hcan]
  dmat := hdmat
  examined := rfl
  items matched' h := by
    rw [hitems] at h
    cases h
    simp
  missing := hmissing
  document _ _ := rfl

end Swept

/-- **One round** of the outer loop, for one pattern. -/
theorem match_items_one {s : State} {matched : Bool} (hp : WellFormed regex p)
    (hdmat : s.dmat = paths.content_group_distance_matrix s.repo.db) (hitems : s.items = [(p, matched)])
    (hg : Holds s.repo.db (table, record)) (rest : List Record) :
    ∃ items c s', match_items regex paths table record s.items ⟨record :: rest, true, true⟩
        { s with examined := s.examined ++ [((table, record), s.repo.db)] } = .ok (items, c, s') ∧
      c.rest = rest ∧ Swept regex paths p s { s' with items } [(table, record)] := by
  obtain ⟨hit, hmatch⟩ := Option.isSome_iff_exists.mp ((check_match_isSome record.name).mpr hp)
  obtain ⟨dependent_groups, hfind, hempty⟩ := find_dependent_objects_eq paths hg
  rw [← hdmat] at hfind
  have hstart : match_items regex paths table record s.items ⟨record :: rest, true, true⟩
      { s with examined := s.examined ++ [((table, record), s.repo.db)] } =
        match hit with
        | true => (examine paths table record ⟨record :: rest, true, true⟩
            { s with examined := s.examined ++ [((table, record), s.repo.db)] }).bind
          fun r => .ok ([(p, true)], r.1, r.2)
        | false => .ok ([(p, matched)], ⟨rest, true, false⟩,
            { s with examined := s.examined ++ [((table, record), s.repo.db)] }) := by
    rw [hitems]
    cases hit
    · simp [match_items, hmatch, Cursor.advance]
    · simp only [match_items, hmatch, if_true]
      rfl
  rw [hstart]
  cases hit with
  | false =>
    refine ⟨_, _, _, rfl, rfl, ?_⟩
    have hswept := Swept.of_kept regex (table, record) s.reports hdmat hitems
      (by simp [actual_can, hmatch]) fun _ => Iff.rfl
    simpa [hmatch] using hswept
  | true =>
    simp only [examine, hfind]
    by_cases hnone : dependent_groups = ∅
    · rw [if_pos hnone]
      cases hlock : record.lock_status with
      | true =>
        refine ⟨_, _, _, rfl, rfl, ?_⟩
        have hswept := Swept.of_kept regex (table, record) (s.reports ++ [.ignoring_locked record.name]) hdmat
          hitems (by simp [actual_can, hlock]) (by simp)
        simpa [hmatch, State.report] using hswept
      | false =>
        have hcan : (actual regex p).can s.repo.db (table, record) = true :=
          actual_can.mpr ⟨hmatch, hlock, hempty.mp hnone⟩
        have herase := erase_repository_record_eq (s := { s with
          examined := s.examined ++ [((table, record), s.repo.db)]
          reports := s.reports ++ [.deleting record.name] }) hg hlock
        simp only [Bool.false_eq_true, if_false, State.report, herase]
        refine ⟨_, _, _, rfl, rfl, ?_⟩
        exact {
          db := by
            rw [Sweep.run_cons, Sweep.run_nil, Sweep.step, if_pos hcan]
            rfl
          dmat := rfl
          examined := rfl
          items := fun matched' _ => by simp [hmatch]
          missing := fun q => by simp
          document := fun task hkept => by
            have hne : task ≠ record.task_name := by
              rintro rfl
              have hfalse := hkept ((table, record), s.repo.db) (by simp) rfl
              rw [hcan] at hfalse
              cases hfalse
            simp only [State.document, Function.update_of_ne hne]
            rfl }
    · rw [if_neg hnone]
      refine ⟨_, _, _, rfl, rfl, ?_⟩
      have hswept := Swept.of_kept regex (table, record)
        (s.reports ++ [.cannot_delete record.name dependent_groups]) hdmat hitems
        (fun hcan => hnone (hempty.mpr (actual_can.mp hcan).2.2)) (by simp)
      simpa [hmatch, State.report] using hswept

theorem delete_records_one (paths : ShortestPaths) {s : State} {matched : Bool} {rest : List Record}
    (hp : WellFormed regex p) (hdmat : s.dmat = paths.content_group_distance_matrix s.repo.db)
    (hitems : s.items = [(p, matched)])
    (hrest : ∀ r ∈ rest, Holds s.repo.db (table, r)) (hnodup : rest.Nodup) :
    ∃ s', (∀ fuel, rest.length < fuel → delete_records regex paths table fuel rest s = some (.ok s')) ∧
      Swept regex paths p s s' (rest.map fun record => (table, record)) := by
  induction rest generalizing s matched with
  | nil =>
    refine ⟨s, fun fuel hfuel => ?_, .refl hdmat⟩
    obtain ⟨fuel, rfl⟩ := Nat.exists_eq_succ_of_ne_zero (Nat.pos_iff_ne_zero.mp hfuel)
    rfl
  | cons record rest ih =>
    obtain ⟨hhead, hrest⟩ := List.forall_mem_cons.mp hrest
    obtain ⟨hnot, hnodup⟩ := List.nodup_cons.mp hnodup
    obtain ⟨items, c, s₁, hmatch, hc, hswept⟩ := match_items_one hp hdmat hitems hhead rest
    obtain ⟨s', hrun, hswept'⟩ := ih (s := { s₁ with items }) hswept.dmat (hswept.items matched hitems) (by
      intro r hr
      rw [hswept.db, Sweep.run_cons, Sweep.run_nil]
      exact (Sweep.holds_step holds_remove hhead).mpr ⟨hrest r hr, fun heq => absurd ((Prod.mk.inj heq).2 ▸ hr) hnot⟩)
      hnodup
    refine ⟨s', fun fuel hfuel => ?_, hswept.trans hswept'⟩
    obtain ⟨fuel, rfl⟩ := Nat.exists_eq_succ_of_ne_zero (Nat.ne_zero_of_lt hfuel)
    simp only [delete_records, hmatch, hc]
    exact hrun fuel (Nat.lt_of_succ_lt_succ hfuel)

/-- The groups of some databases. -/
def members (databases : List (GroupTable × List Record)) : List (GroupTable × Record) :=
  databases.flatMap fun d => d.2.map fun record => (d.1, record)

theorem members_tables (db : ContentDatabase String) :
    members (tables.map fun table => (table, records db table)) = groups db := by
  rw [members, List.flatMap_map, groups]

theorem delete_databases_one (paths : ShortestPaths) {s : State} {matched : Bool}
    (databases : List (GroupTable × List Record)) (hp : WellFormed regex p)
    (hdmat : s.dmat = paths.content_group_distance_matrix s.repo.db)
    (hitems : s.items = [(p, matched)]) (hholds : ∀ g ∈ members databases, Holds s.repo.db g)
    (hnodup : (members databases).Nodup) (hstaged : s.staged = fun _ => none) :
    ∃ s', (∀ fuel, (members databases).length < fuel →
        delete_databases regex paths fuel databases s = some (.ok s')) ∧
      Swept regex paths p s s' (members databases) ∧ s'.staged = fun _ => none := by
  induction databases generalizing s matched with
  | nil => exact ⟨s, fun _ _ => rfl, .refl hdmat, hstaged⟩
  | cons d databases ih =>
    obtain ⟨table, db⟩ := d
    have hmembers : members ((table, db) :: databases) = db.map (fun record => (table, record)) ++ members databases :=
      List.flatMap_cons
    rw [hmembers] at hholds hnodup ⊢
    obtain ⟨hdb, hnodup, hdisjoint⟩ := List.nodup_append'.mp hnodup
    have hhere : ∀ r ∈ db, Holds s.repo.db (table, r) := fun r hr =>
      hholds _ (List.mem_append_left _ (List.mem_map_of_mem hr))
    obtain ⟨s₁, hrun, hswept⟩ := delete_records_one paths hp hdmat hitems hhere (List.Nodup.of_map _ hdb)
    obtain ⟨s', hrun', hswept', hstaged'⟩ := ih (s := s₁.commit) hswept.commit.dmat
      (hswept.commit.items matched hitems) (by
        intro g hg
        rw [hswept.commit.db]
        refine (Sweep.holds_run holds_remove ?_ hdb fun h => hdisjoint h hg).mpr (hholds g (List.mem_append_right _ hg))
        exact fun j hj => hholds j (List.mem_append_left _ hj)) hnodup rfl
    refine ⟨s', fun fuel hfuel => ?_, hswept.commit.trans hswept', hstaged'⟩
    rw [List.length_append, List.length_map] at hfuel
    simp only [delete_databases, hrun fuel (by omega)]
    exact hrun' fuel (by omega)

theorem delete_content_one (paths : ShortestPaths) (repo : Repository) (hp : WellFormed regex p)
    (hitems : sortedUnion [] objects = [p]) :
    ∃ s, (∀ fuel, (groups repo.db).length < fuel →
        delete_content regex paths fuel repo objects = some (.ok s.report_missing)) ∧
      Swept regex paths p (State.initial paths repo objects) s (groups repo.db) ∧ s.staged = fun _ => none := by
  have hmembers := members_tables repo.db
  obtain ⟨s, hrun, hswept, hstaged⟩ := delete_databases_one paths (s := State.initial paths repo objects)
    (tables.map fun table => (table, records repo.db table)) hp rfl (by rw [State.initial, hitems]; rfl)
    (fun g hg => mem_groups.mp (hmembers ▸ hg)) (hmembers ▸ groups_nodup repo.db) rfl
  rw [hmembers] at hrun hswept
  refine ⟨s, fun fuel hfuel => ?_, hswept, hstaged⟩
  rw [delete_content, hrun fuel hfuel]

/-- What a deletion leaves of the full records. -/
theorem run_sublist (regex : String → Option (String → Bool)) (p : String) (db : ContentDatabase String)
    (l : List (GroupTable × Record)) :
    ((actual regex p).run db l).integration.Sublist db.integration ∧
      ((actual regex p).run db l).postintegration.Sublist db.postintegration ∧
      ((actual regex p).run db l).output.Sublist db.output ∧ ((actual regex p).run db l).tasks = db.tasks := by
  induction l generalizing db with
  | nil => exact ⟨.refl _, .refl _, .refl _, rfl⟩
  | cons g l ih =>
    obtain ⟨hi, hp, ho, ht⟩ := ih ((actual regex p).step db g)
    rw [Sweep.run_cons]
    rw [Sweep.step] at hi hp ho ht ⊢
    split_ifs at hi hp ho ht ⊢
    · exact ⟨hi.trans (left_sublist ..), hp.trans (left_sublist ..), ho.trans (left_sublist ..), ht⟩
    · exact ⟨hi, hp, ho, ht⟩

/-- For one pattern what is claimed of the result holds just if no seed is deleted. -/
theorem result_iff {s : State} (honly : ∀ q, q ∈ objects ↔ q = p) (hitems : sortedUnion [] objects = [p])
    (hswept : Swept regex paths p (State.initial paths repo objects) s (groups repo.db))
    (hstaged : s.staged = fun _ => none) :
    Result regex objects repo s.report_missing ↔ SeedsRespected regex objects repo.db := by
  have hdb : s.repo.db = (actual regex p).run repo.db (groups repo.db) := hswept.db
  have hexamined : s.examined = (actual regex p).trace repo.db (groups repo.db) := hswept.examined
  have hremoved : ∀ e ∈ s.examined, e.1 ∉ groups s.repo.db ↔ (actual regex p).can e.2 e.1 = true := by
    intro e he
    rw [mem_groups, hdb]
    exact Sweep.not_holds_run_iff holds_remove (fun g hg => mem_groups.mp hg) (groups_nodup repo.db) (hexamined ▸ he)
  have hdeleted : (∀ e ∈ s.examined, e.1 ∉ groups s.repo.db ↔ Deletable regex objects e.2 e.1) ↔
      SeedsRespected regex objects repo.db := by
    rw [seedsRespected_iff honly, ← hexamined]
    refine forall₂_congr fun e he => ?_
    rw [hremoved e he, ← claimed_can]
    exact iff_comm.trans Bool.eq_iff_iff.symm
  refine ⟨fun h => hdeleted.mp h.deleted, fun h => ?_⟩
  obtain ⟨hi, hp, ho, ht⟩ := run_sublist regex p repo.db (groups repo.db)
  rw [← hdb] at hi hp ho ht
  exact {
    once := by
      rw [State.report_missing, hexamined, Sweep.map_fst_trace]
    deleted := hdeleted.mpr h
    integration := hi
    postintegration := hp
    output := ho
    tasks := ht
    content_groups := fun task hkept => by
      have hdocument := hswept.document task fun e he htask => by
        have hmem : e.1 ∈ groups repo.db := by
          have hfst := List.mem_map_of_mem (f := Prod.fst) he
          rwa [Sweep.map_fst_trace] at hfst
        have hnot := (hremoved e (hexamined ▸ he)).not.mp (not_not.mpr (hkept e.1 hmem htask))
        simpa using hnot
      rw [State.document, hstaged] at hdocument
      exact hdocument
    missing := fun q hq => by
      obtain rfl := (honly q).mp hq
      have hnone : Report.missing q ∉ s.reports := fun h => List.not_mem_nil ((hswept.missing q).mp h)
      have hmatched := hswept.items false (by rw [State.initial, hitems]; rfl)
      simp [State.report_missing, hmatched, hnone] }

/-! ### Any number of patterns -/

theorem advance_eq_ok {c c' : Cursor} (h : c.advance = .ok c') : ∃ r, c.rest = r :: c'.rest := by
  rw [Cursor.advance] at h
  cases hrest : c.rest with
  | nil => simp [hrest] at h
  | cons r rest =>
    simp only [hrest, Except.ok.injEq] at h
    exact ⟨r, by rw [← h]⟩

theorem erase_eq_ok {c c' : Cursor} (h : c.erase = .ok c') : ∃ r, c.rest = r :: c'.rest := by
  rw [Cursor.erase] at h
  cases hrest : c.rest with
  | nil => simp [hrest] at h
  | cons r rest =>
    simp only [hrest, Except.ok.injEq] at h
    exact ⟨r, by rw [← h]⟩

theorem erase_repository_record_eq_ok {s s' : State} (h : s.erase_repository_record table record = .ok s') :
    s'.examined = s.examined := by
  rw [State.erase_repository_record] at h
  split at h
  · cases h
  · split_ifs at h
    split at h
    · cases h
    · split_ifs at h
      cases h
      rfl

/-- Whatever comes of a group, the iterator is advanced by one. -/
theorem examine_eq_ok {c c' : Cursor} {s s' : State} (h : examine paths table record c s = .ok (c', s')) :
    (∃ r, c.rest = r :: c'.rest) ∧ s'.examined = s.examined := by
  rw [examine] at h
  split at h
  · cases h
  · split_ifs at h
    · obtain ⟨c₁, hc, h⟩ := bind_eq_ok.mp h
      cases h
      exact ⟨advance_eq_ok hc, rfl⟩
    · obtain ⟨s₁, hs, h⟩ := bind_eq_ok.mp h
      obtain ⟨c₁, hc, h⟩ := bind_eq_ok.mp h
      cases h
      have hexamined := erase_repository_record_eq_ok hs
      exact ⟨erase_eq_ok hc, hexamined⟩
    · obtain ⟨c₁, hc, h⟩ := bind_eq_ok.mp h
      cases h
      exact ⟨advance_eq_ok hc, rfl⟩

/-- The inner loop advances the iterator once for every pattern. -/
theorem match_items_eq_ok {items items' : List (String × Bool)} {c c' : Cursor} {s s' : State}
    (h : match_items regex paths table record items c s = .ok (items', c', s')) :
    items'.map Prod.fst = items.map Prod.fst ∧ s'.examined = s.examined ∧
      (∃ skipped, c.rest = skipped ++ c'.rest ∧ skipped.length = items.length) ∧
      ∀ item ∈ items.head?, WellFormed regex item.1 := by
  induction items generalizing items' c s with
  | nil =>
    rw [match_items] at h
    cases h
    exact ⟨rfl, rfl, ⟨[], rfl, rfl⟩, by simp⟩
  | cons item items ih =>
    rw [match_items] at h
    split_ifs at h
    split at h
    · cases h
    · rename_i hmatch
      obtain ⟨⟨c₁, s₁⟩, hexamine, h⟩ := bind_eq_ok.mp h
      obtain ⟨⟨items₁, c₂, s₂⟩, hitems, h⟩ := bind_eq_ok.mp h
      cases h
      obtain ⟨⟨r, hr⟩, hexamined⟩ := examine_eq_ok hexamine
      obtain ⟨hkeys, hexamined', ⟨skipped, hskipped, hlength⟩, -⟩ := ih hitems
      refine ⟨by simp [hkeys], hexamined'.trans hexamined, ⟨r :: skipped, ?_, by simp [hlength]⟩, ?_⟩
      · rw [hr, hskipped]
        rfl
      · intro first hfirst
        obtain rfl := Option.some.inj hfirst
        exact (check_match_isSome record.name).mp (by simp [hmatch])
    · rename_i hmatch
      obtain ⟨c₁, hadvance, h⟩ := bind_eq_ok.mp h
      obtain ⟨⟨items₁, c₂, s₂⟩, hitems, h⟩ := bind_eq_ok.mp h
      cases h
      obtain ⟨r, hr⟩ := advance_eq_ok hadvance
      obtain ⟨hkeys, hexamined, ⟨skipped, hskipped, hlength⟩, -⟩ := ih hitems
      refine ⟨by simp [hkeys], hexamined, ⟨r :: skipped, ?_, by simp [hlength]⟩, ?_⟩
      · rw [hr, hskipped]
        rfl
      · intro first hfirst
        obtain rfl := Option.some.inj hfirst
        exact (check_match_isSome record.name).mp (by simp [hmatch])

/-- Without patterns the outer loop stays at its first record. -/
theorem delete_records_none {fuel : ℕ} {rest : List Record} {s : State} (hitems : s.items = []) :
    delete_records regex paths table fuel (record :: rest) s = none := by
  induction fuel generalizing s with
  | zero => rfl
  | succ fuel ih =>
    simp only [delete_records, hitems, match_items]
    exact ih rfl

/-- The groups examined in a loop that ends: if there is more than one pattern, not all. -/
theorem delete_records_eq_ok {fuel : ℕ} {rest : List Record} {s s' : State}
    (h : delete_records regex paths table fuel rest s = some (.ok s')) :
    s'.items.map Prod.fst = s.items.map Prod.fst ∧
      ∃ visited : List Record, visited.Sublist rest ∧
        s'.examined.map Prod.fst = s.examined.map Prod.fst ++ visited.map (fun record => (table, record)) ∧
        (rest ≠ [] → rest.Nodup →
          (∃ p, s.items.map Prod.fst = [p] ∧ WellFormed regex p) ∨ ∃ r ∈ rest, r ∉ visited) := by
  induction fuel generalizing rest s with
  | zero => cases h
  | succ fuel ih =>
    cases rest with
    | nil =>
      cases h
      exact ⟨rfl, [], .refl _, by simp, fun hne => absurd rfl hne⟩
    | cons record rest =>
      by_cases hitems : s.items = []
      · rw [delete_records_none hitems] at h
        cases h
      · rw [delete_records] at h
        split at h
        · cases h
        · rename_i items c s₁ hmatch
          obtain ⟨hkeys, hexamined, ⟨skipped, hskipped, hlength⟩, hfirst⟩ := match_items_eq_ok hmatch
          obtain ⟨hkeys', visited, hvisited, hexamined', -⟩ := ih h
          -- what is skipped begins with the record, and has as many records as there are patterns
          cases skipped with
          | nil => exact absurd (List.length_eq_zero_iff.mp hlength.symm) hitems
          | cons r skipped =>
            rw [List.cons_append] at hskipped
            obtain ⟨rfl, hrest⟩ := List.cons.inj hskipped
            refine ⟨hkeys'.trans hkeys, record :: visited, ?_, ?_, fun _ hnodup => ?_⟩
            · rw [hrest]
              exact (hvisited.trans (List.sublist_append_right skipped c.rest)).cons_cons record
            · simp [hexamined', hexamined]
            · cases skipped with
              | nil =>
                obtain ⟨item, hitem⟩ : ∃ item, s.items = [item] := List.length_eq_one_iff.mp hlength.symm
                simp only [hitem, List.head?_cons, Option.mem_some_iff, forall_eq'] at hfirst
                exact .inl ⟨item.1, by rw [hitem]; rfl, hfirst⟩
              | cons second skipped =>
                obtain ⟨hnot, hnodup⟩ := List.nodup_cons.mp hnodup
                rw [hrest, List.cons_append] at hnot hnodup
                refine .inr ⟨second, by simp [hrest], fun hmem => ?_⟩
                rcases List.mem_cons.mp hmem with rfl | hmem
                · exact hnot List.mem_cons_self
                · exact (List.nodup_cons.mp hnodup).1 (List.mem_append_right skipped (hvisited.subset hmem))

theorem delete_databases_eq_ok {fuel : ℕ} {databases : List (GroupTable × List Record)} {s s' : State}
    (h : delete_databases regex paths fuel databases s = some (.ok s')) :
    ∃ visited : List (GroupTable × Record), visited.Sublist (members databases) ∧
      s'.examined.map Prod.fst = s.examined.map Prod.fst ++ visited ∧
      (members databases ≠ [] → (members databases).Nodup →
        (∃ p, s.items.map Prod.fst = [p] ∧ WellFormed regex p) ∨ ∃ g ∈ members databases, g ∉ visited) := by
  induction databases generalizing s with
  | nil =>
    cases h
    exact ⟨[], .refl _, by simp, fun hne => absurd rfl hne⟩
  | cons d databases ih =>
    obtain ⟨table, db⟩ := d
    have hmembers : members ((table, db) :: databases) = db.map (fun record => (table, record)) ++ members databases :=
      List.flatMap_cons
    rw [delete_databases] at h
    split at h
    · cases h
    · cases h
    · rename_i s₁ hrecords
      obtain ⟨hkeys, here, hhere, hexamined, hcase⟩ := delete_records_eq_ok hrecords
      obtain ⟨visited, hvisited, hexamined', hcase'⟩ := ih h
      have hitems : s₁.commit.items.map Prod.fst = s.items.map Prod.fst := hkeys
      rw [hmembers]
      refine ⟨here.map (fun record => (table, record)) ++ visited, (hhere.map _).append hvisited, ?_, ?_⟩
      · rw [hexamined', ← List.append_assoc, ← hexamined]
        rfl
      · intro hne hnodup
        obtain ⟨hdb, hnodup, hdisjoint⟩ := List.nodup_append'.mp hnodup
        by_cases hempty : db = []
        · subst hempty
          rw [List.map_nil, List.nil_append] at hne ⊢
          refine (hcase' hne hnodup).imp (hitems ▸ id) ?_
          rintro ⟨g, hg, hnot⟩
          rw [List.sublist_nil.mp hhere]
          exact ⟨g, hg, hnot⟩
        · refine (hcase hempty (List.Nodup.of_map _ hdb)).imp id ?_
          rintro ⟨r, hr, hnot⟩
          have hmem : (table, r) ∈ db.map fun record => (table, record) := List.mem_map_of_mem hr
          refine ⟨(table, r), List.mem_append_left _ hmem, fun h => ?_⟩
          rcases List.mem_append.mp h with h | h
          · obtain ⟨r', hr', heq⟩ := List.mem_map.mp h
            exact hnot ((Prod.mk.inj heq).2 ▸ hr')
          · exact hdisjoint hmem (hvisited.subset h)

/-- Where there are groups and each is examined once, there is one pattern, and it is well formed. -/
theorem one_pattern (hlawful : Lawful regex objects paths repo) (hne : groups repo.db ≠ []) :
    ∃ p, sortedUnion [] objects = [p] ∧ WellFormed regex p := by
  obtain ⟨enough, s, hreturns, hresult⟩ := hlawful
  have hrun := hreturns enough le_rfl
  rw [delete_content] at hrun
  split at hrun
  · cases hrun
  · cases hrun
  · rename_i s' hdatabases
    obtain ⟨visited, hvisited, hexamined, hcase⟩ := delete_databases_eq_ok hdatabases
    cases hrun
    rw [members_tables] at hcase hvisited
    obtain ⟨p, hitems, hp⟩ | ⟨g, hg, hnot⟩ := hcase hne (groups_nodup repo.db)
    · refine ⟨p, ?_, hp⟩
      simpa [State.initial, Function.comp_def] using hitems
    · have honce : g ∈ s'.examined.map Prod.fst := hresult.once.mem_iff.mpr hg
      rw [hexamined] at honce
      exact absurd honce hnot

theorem lawful_of_empty (hempty : groups repo.db = []) : Lawful regex objects paths repo := by
  have hrecords : ∀ table, records repo.db table = [] := fun table =>
    List.eq_nil_iff_forall_not_mem.mpr fun r hr => by
      have hmem : (table, r) ∈ groups repo.db := mem_groups.mpr hr
      rw [hempty] at hmem
      cases hmem
  refine ⟨1, (State.initial paths repo objects).report_missing, fun fuel hfuel => ?_, ?_⟩
  · obtain ⟨fuel, rfl⟩ := Nat.exists_eq_add_of_le' hfuel
    simp only [delete_content, tables, List.map_cons, List.map_nil, hrecords]
    rfl
  · exact {
      once := by rw [hempty]; exact .nil
      deleted := fun e he => absurd he List.not_mem_nil
      integration := .refl _
      postintegration := .refl _
      output := .refl _
      tasks := rfl
      content_groups := fun _ _ => rfl
      missing := fun p hp => by simp [State.report_missing, State.initial, hempty, hp] }

end

open Classical in
/-- The distance 0 where there is a path. -/
noncomputable def reachability : ShortestPaths where
  distance G v w := if Relation.ReflTransGen G.Edge v w then 0 else uint_max
  correct G := G.isDistance_zero_or (by decide)

/-- Two groups of a task. -/
def two_groups : Repository where
  db := {
    integration := [⟨"a", "t", false, none⟩, ⟨"b", "t", false, none⟩]
    postintegration := []
    output := []
    tasks := [("t", .integration "p")]
    integration_sorted := by decide
    postintegration_sorted := by decide
    output_sorted := by decide
    tasks_sorted := by decide
    integration_distinct := by simp
    integration_output := by simp
    postintegration_output := by simp }
  content_groups _ := ["a", "b"]
  owned table record h := by
    cases table
    · simp only [records, List.map_cons, List.map_nil, List.mem_cons, List.not_mem_nil, or_false] at h
      rcases h with rfl | rfl <;> decide
    · cases h
    · cases h

end CppTransport.Runtime.BulkDeletion
