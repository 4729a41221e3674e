import CppTransport.Library.DigitStrings
import CppTransport.Library.OrderedMaps
import CppTransport.Runtime.ContentNames
import Mathlib.Data.String.Basic

/-!
# The most recent content of a task

Where a task needs the output of another one, and the user has not said which, the repository looks
for the most recent content group of that task that has not failed and bears the tags asked for. It
takes the last one in the order of names, since names begin with the time at which they were
reserved.

## The model

* `ptime`, `to_iso_string`: times to the second, and the texts with which names begin;
* `repository`: the tasks, the reserved names, and the content groups with what their records say
  of the task, the time of creation, failure and tags. Names are reserved, stored and withdrawn as
  `CppTransport.Runtime.ContentNames` has it (`repository.tables`);
* `find_integration_task_output`, `find_postintegration_task_output`;
* `Event`: a history of tasks, reservations, commits, recoveries, withdrawals, deletions and changes of tags.

## What is proved

The time of creation of a group is that of its reservation, except that a group that is committed
after a crash gets the time of the recovery, and keeps its name. `finds_latest`: what is found is
the latest group as long as recoveries do not put the times of a task's groups in another order
than their names.
-/

namespace CppTransport.Runtime.RecentContent

open Library Library.System ContentNames

def CPPTRANSPORT_REPO_EXTRACT_DERIVED_NOT_INTGRTN : String :=
  "Repository error: attempt to enumerate derived contents for non-integration task"

def CPPTRANSPORT_REPO_EXTRACT_DERIVED_NOT_POSTINT : String :=
  "Repository error: attempt to enumerate derived contents for non-postintegration task"

def CPPTRANSPORT_REPO_NO_MATCHING_CONTENT_GROUPS : String := "Repository error: no matching content groups for task"

/-! ### Times -/

/-- A time, as `second_clock` gives it. -/
@[ext]
structure ptime where
  year : ℕ
  month : ℕ
  day : ℕ
  hours : ℕ
  minutes : ℕ
  seconds : ℕ
  year_lt : year < 10000
  month_le : month ≤ 12
  day_le : day ≤ 31
  hours_lt : hours < 24
  minutes_lt : minutes < 60
  seconds_lt : seconds < 60
deriving DecidableEq

namespace ptime

/-- Years count before months, and so on. -/
def fields (t : ptime) : List ℕ := [t.year, t.month, t.day, t.hours, t.minutes, t.seconds]

theorem fields_injective : Function.Injective fields := by
  intro s t h
  simp only [fields, List.cons.injEq, and_true] at h
  exact ptime.ext h.1 h.2.1 h.2.2.1 h.2.2.2.1 h.2.2.2.2.1 h.2.2.2.2.2

instance : LinearOrder ptime := LinearOrder.lift' fields fields_injective

theorem lt_iff {s t : ptime} : s < t ↔ s.fields < t.fields := Iff.rfl

/-- The characters of `to_iso_string`: `YYYYMMDDTHHMMSS`. -/
def iso_characters (t : ptime) : List Char :=
  decimal 4 t.year ++ (decimal 2 t.month ++ (decimal 2 t.day ++
    'T' :: (decimal 2 t.hours ++ (decimal 2 t.minutes ++ decimal 2 t.seconds))))

def to_iso_string (t : ptime) : String := String.ofList t.iso_characters

theorem toList_to_iso_string (t : ptime) : t.to_iso_string.toList = t.iso_characters := String.toList_ofList

theorem length_iso_characters (t : ptime) : t.iso_characters.length = 15 := by
  simp [iso_characters]

theorem dash_not_mem (t : ptime) : '-' ∉ t.to_iso_string.toList := by
  have digit : ∀ w n, '-' ∉ decimal w n := fun w n h => absurd (isDigit_of_mem_decimal h) (by decide)
  simp [toList_to_iso_string, iso_characters, digit]

/-- The time as it stands in names and tables. -/
def timestamp (t : ptime) : Timestamp := ⟨t.to_iso_string, t.dash_not_mem⟩

/-- Texts are in the order of the times. -/
theorem iso_characters_lt {s t : ptime} (h : s < t) : s.iso_characters < t.iso_characters := by
  have := t.month_le
  have := t.day_le
  have := t.hours_lt
  have := t.minutes_lt
  simp only [lt_iff, fields, List.cons_lt_cons_iff] at h
  refine decimal_append_lt (h.imp_right fun h => ⟨h.1, ?_⟩) t.year_lt
  refine decimal_append_lt (h.2.imp_right fun h => ⟨h.1, ?_⟩) (by omega)
  refine decimal_append_lt (h.2.imp_right fun h => ⟨h.1, ?_⟩) (by omega)
  refine List.cons_lt_cons_iff.mpr (.inr ⟨rfl, ?_⟩)
  refine decimal_append_lt (h.2.imp_right fun h => ⟨h.1, ?_⟩) (by omega)
  refine decimal_append_lt (h.2.imp_right fun h => ⟨h.1, ?_⟩) (by omega)
  have seconds : t.seconds < 10 ^ 2 := by
    have := t.seconds_lt
    omega
  exact decimal_lt_decimal (h.2.resolve_right fun h => List.not_lt_nil _ h.2) seconds

/-- So are names that begin with them. -/
theorem lt_of_prefix {s t : ptime} (h : s < t) {x y : String} (hx : s.iso_characters <+: x.toList)
    (hy : t.iso_characters <+: y.toList) : x < y := by
  obtain ⟨u, hu⟩ := hx
  obtain ⟨v, hv⟩ := hy
  rw [String.lt_iff_toList_lt, ← hu, ← hv]
  exact append_lt_append_of_lt (iso_characters_lt h) (by simp [length_iso_characters]) u v

end ptime

/-! ### The repository -/

/-- What the record of a content group says of it. -/
structure content_group_record where
  name : String
  task : String
  creation_time : ptime
  failed : Bool
  tags : List String
deriving DecidableEq

/-- A tag matches a tag of the group, or the group's name. -/
def content_group_record.check_tags (g : content_group_record) (match_tags : List String) : Bool :=
  match_tags.all fun tag => tag ∈ g.tags || tag = g.name

/-- A reserved name. -/
structure reserved_name where
  name : String
  task : String
  posix_time : ptime
deriving DecidableEq

structure repository where
  tasks : GroupTable → List String
  reserved : List reserved_name
  groups : GroupTable → List content_group_record

namespace repository

variable (db : repository)

/-- The tables that names are kept in. -/
def tables : Tables where
  reserved := db.reserved.map fun row => ⟨row.name, row.task, row.posix_time.timestamp⟩
  groups := fun table => (db.groups table).map fun g => ⟨g.name, g.task, g.creation_time.timestamp⟩

/-! ### Tasks and names -/

/-- `query_task`: the type of a task. -/
def query_task (name : String) : Except String GroupTable :=
  if name ∈ db.tasks .integration then .ok .integration
  else if name ∈ db.tasks .postintegration then .ok .postintegration
  else if name ∈ db.tasks .output then .ok .output
  else .error name

/-- A new task; there is no other of its name. -/
def commit_task (type : GroupTable) (name : String) : Option repository :=
  if (db.query_task name).isOk then none
  else some { db with tasks := Function.update db.tasks type (db.tasks type ++ [name]) }

def reserve_content_name (tk : String) (now : ptime) (suffix : Suffix) : Option (String × repository) :=
  (db.tables.reserve_content_name tk now.timestamp suffix).map fun reservation =>
    (reservation.1, { db with reserved := db.reserved ++ [⟨reservation.1, tk, now⟩] })

def deregister_content_group (name : String) : repository :=
  { db with reserved := db.reserved.filter fun row => row.name ≠ name }

/-! ### Content groups -/

/-- `commit_first` of a content group. -/
def commit_first (table : GroupTable) (g : content_group_record) : Option repository :=
  if 0 < db.tables.count_groups g.name then none
  else
    (db.tables.store_group table ⟨g.name, g.task, g.creation_time.timestamp⟩).map fun _ =>
      { db with groups := Function.update db.groups table (db.groups table ++ [g]) }

/-- Commit a writer: `close_integration_writer` or one of its siblings, and the name is withdrawn. -/
def close_writer (table : GroupTable) (g : content_group_record) : Option repository :=
  if db.query_task g.task = .ok table then
    (db.commit_first table g).map fun db => db.deregister_content_group g.name
  else none

/-- A new writer has the time of its reservation. A group of an output task that is committed has not failed. -/
def new_writer (table : GroupTable) (row : reserved_name) (failed : Bool) (tags : List String) : content_group_record :=
  ⟨row.name, row.task, row.posix_time, failed && table ≠ .output, tags⟩

/-- `base_recover_integration_task_content` and its sibling: a recovered writer has the time of the recovery, and no
tags. -/
def recovery_writer (row : reserved_name) (now : ptime) (failed : Bool) : content_group_record :=
  ⟨row.name, row.task, now, failed, []⟩

def commit (table : GroupTable) (name : String) (failed : Bool) (tags : List String) : Option repository := do
  let row ← db.reserved.find? fun row => row.name = name
  db.close_writer table (new_writer table row failed tags)

/-- `perform_recovery`, for one group. What an output task has left behind is moved to the failure cache. -/
def recover (table : GroupTable) (name : String) (now : ptime) (failed : Bool) : Option repository := do
  let row ← db.reserved.find? fun row => row.name = name
  if table = .output then some (db.deregister_content_group name)
  else db.close_writer table (recovery_writer row now failed)

def delete_content (table : GroupTable) (name task : String) : Option repository :=
  (db.tables.delete_group table name task).map fun _ =>
    { db with
      groups := Function.update db.groups table ((db.groups table).filter fun g => ¬ (g.name = name ∧ g.task = task)) }

/-- Tags are changed in the record of a group. -/
def update_tags (table : GroupTable) (name : String) (tags : List String) : repository :=
  { db with
    groups := Function.update db.groups table
      ((db.groups table).map fun g => if g.name = name then { g with tags } else g) }

/-! ### Finding content -/

/-- `enumerate_content_groups`, in a map by name; an empty name of a task is that of all tasks. -/
def enumerate_content_groups (table : GroupTable) (name : String) : List content_group_record :=
  OrderedMap.ofList (·.name) ((db.groups table).filter fun g => 0 < name.length → g.task = name)

/-- `enumerate_integration_task_content` and its sibling. -/
def enumerate_task_content (table : GroupTable) (msg name : String) : Except String (List content_group_record) := do
  let type ← db.query_task name
  if type ≠ table then throw (msg ++ " '" ++ name ++ "'")
  else return db.enumerate_content_groups table name

/-- `find_integration_task_output` and its sibling. -/
def find_task_output (table : GroupTable) (msg name : String) (tags : List String) :
    Except String content_group_record := do
  let content ← db.enumerate_task_content table msg name
  let content := content.filter fun g => ¬ g.failed
  let content := content.filter fun g => g.check_tags tags
  match content.getLast? with
  | none => throw (CPPTRANSPORT_REPO_NO_MATCHING_CONTENT_GROUPS ++ " '" ++ name ++ "'")
  | some g => return g

def find_integration_task_output : String → List String → Except String content_group_record :=
  db.find_task_output .integration CPPTRANSPORT_REPO_EXTRACT_DERIVED_NOT_INTGRTN

def find_postintegration_task_output : String → List String → Except String content_group_record :=
  db.find_task_output .postintegration CPPTRANSPORT_REPO_EXTRACT_DERIVED_NOT_POSTINT

/-! ### Histories -/

/-- What happens to a repository. -/
inductive Event where
  | commit_task (type : GroupTable) (name : String)
  | reserve (tk : String) (now : ptime) (suffix : Suffix)
  | commit (table : GroupTable) (name : String) (failed : Bool) (tags : List String)
  | recover (table : GroupTable) (name : String) (now : ptime) (failed : Bool)
  | deregister (name : String)
  | delete (table : GroupTable) (name task : String)
  | update_tags (table : GroupTable) (name : String) (tags : List String)

/-- The repository after an event; nothing changes if it throws. -/
def after : Event → repository
  | .commit_task type name => (db.commit_task type name).getD db
  | .reserve tk now suffix => ((db.reserve_content_name tk now suffix).map (·.2)).getD db
  | .commit table name failed tags => (db.commit table name failed tags).getD db
  | .recover table name now failed => (db.recover table name now failed).getD db
  | .deregister name => db.deregister_content_group name
  | .delete table name task => (db.delete_content table name task).getD db
  | .update_tags table name tags => db.update_tags table name tags

/-- A new repository. -/
def empty : repository := ⟨fun _ => [], [], fun _ => []⟩

/-! ### What is to be found -/

/-- A group of the task that has not failed and matches all the tags. -/
structure Matches (table : GroupTable) (task : String) (tags : List String) (g : content_group_record) : Prop where
  stored : g ∈ db.groups table
  task_eq : g.task = task
  not_failed : g.failed = false
  tagged : ∀ tag ∈ tags, tag ∈ g.tags ∨ tag = g.name

/-- A group that matches is returned such that no other was created later, and there is an exception exactly if no
group matches. -/
def FindsLatest (table : GroupTable) (find : String → List String → Except String content_group_record) : Prop :=
  ∀ task tags,
    (∀ g, find task tags = .ok g → db.Matches table task tags g ∧
      ∀ other, db.Matches table task tags other → other.creation_time ≤ g.creation_time) ∧
    ((∃ msg, find task tags = .error msg) ↔ ¬ ∃ g, db.Matches table task tags g)

/-- Both functions find the latest content. -/
def Right : Prop :=
  db.FindsLatest .integration db.find_integration_task_output ∧
    db.FindsLatest .postintegration db.find_postintegration_task_output

end repository

namespace content_group_record

variable {g g' c : content_group_record}

/-- The name begins with the time of creation: so does every name of a group that has not been recovered. -/
def Dated (g : content_group_record) : Prop := g.creation_time.iso_characters <+: g.name.toList

instance : Decidable g.Dated := inferInstanceAs (Decidable (_ <+: _))

/-- Two groups of one task that have not failed have been created in the order of their names. -/
def InStep (c g : content_group_record) : Prop :=
  g.task = c.task → g.failed = false → c.failed = false → OrderedMap.InOrder (·.name) (·.creation_time) c g

instance : Decidable (c.InStep g) := inferInstanceAs (Decidable (_ → _ → _ → _))

theorem InStep.symm (h : c.InStep g) : g.InStep c := fun task hc hg => (h task.symm hg hc).symm

theorem inStep_self (g : content_group_record) : g.InStep g :=
  fun _ _ _ => ⟨fun h => absurd h (lt_irrefl _), fun h => absurd h (lt_irrefl _)⟩

/-- **Dated groups are in step**, as a later time makes for a later name. -/
theorem Dated.inStep (hc : c.Dated) (hg : g.Dated) : c.InStep g := by
  refine fun _ _ _ => ⟨fun h => ?_, fun h => ?_⟩
  · exact not_lt.mp fun later => lt_asymm h (ptime.lt_of_prefix later hg hc)
  · exact not_lt.mp fun later => lt_asymm h (ptime.lt_of_prefix later hc hg)

/-- What changes of tags leave as it is. -/
def untagged (g : content_group_record) : content_group_record := { g with tags := [] }

theorem inStep_congr {c' : content_group_record} (hc : c.untagged = g.untagged) (hg : c'.untagged = g'.untagged) :
    c.InStep c' ↔ g.InStep g' := by
  have fields : ∀ {a b : content_group_record}, a.untagged = b.untagged →
      a.name = b.name ∧ a.task = b.task ∧ a.creation_time = b.creation_time ∧ a.failed = b.failed := fun h =>
    ⟨congrArg (·.name) h, congrArg (·.task) h, congrArg (·.creation_time) h, congrArg (·.failed) h⟩
  obtain ⟨name, task, time, failed⟩ := fields hc
  obtain ⟨name', task', time', failed'⟩ := fields hg
  simp only [InStep, OrderedMap.InOrder, name, task, time, failed, name', task', time', failed']

end content_group_record

namespace repository

variable (db : repository)

/-- The times of a task's groups stay in the order of their names: a recovery does not commit a group that has not
failed across another of its task, and later groups do not come before recovered ones. A task has a name. -/
def Clear : Event → Prop
  | .commit_task _ name => name ≠ ""
  | .commit table name failed tags =>
    ∀ row ∈ db.reserved, row.name = name →
      ∀ g ∈ db.groups table, g.Dated ∨ (new_writer table row failed tags).InStep g
  | .recover table name now failed =>
    table ≠ .output → ∀ row ∈ db.reserved, row.name = name →
      ∀ g ∈ db.groups table, (recovery_writer row now failed).InStep g
  | _ => True

instance : (e : Event) → Decidable (db.Clear e)
  | .commit_task _ name => inferInstanceAs (Decidable (name ≠ ""))
  | .commit _ _ _ _ => inferInstanceAs (Decidable (∀ row ∈ db.reserved, _ → ∀ g ∈ _, _ ∨ _))
  | .recover _ _ _ _ => inferInstanceAs (Decidable (_ → ∀ row ∈ db.reserved, _ → ∀ g ∈ _, _))
  | .reserve _ _ _ | .deregister _ | .delete _ _ _ | .update_tags _ _ _ => isTrue trivial

variable {db} {db' : repository} {table : GroupTable} {g : content_group_record} {name : String}

/-! ### Finding -/

/-- What holds of every repository that has come about by events that meet the condition. -/
structure Inv (db : repository) : Prop where
  /-- Reserved names begin with their times. -/
  dated : ∀ row ∈ db.reserved, row.posix_time.iso_characters <+: row.name.toList
  keyed : ∀ table, ((db.groups table).map (·.name)).Nodup
  task_known : ∀ table, ∀ g ∈ db.groups table, db.query_task g.task = .ok table
  task_named : ∀ type, db.query_task "" ≠ .ok type
  in_step : ∀ table, ∀ g ∈ db.groups table, ∀ g' ∈ db.groups table, g.InStep g'

theorem mem_enumerate_content_groups (keyed : ((db.groups table).map (·.name)).Nodup) {task : String} (named : task ≠ "") :
    g ∈ db.enumerate_content_groups table task ↔ g ∈ db.groups table ∧ g.task = task := by
  have length : 0 < task.length := by
    rwa [Nat.pos_iff_ne_zero, ne_eq, String.length_eq_zero_iff]
  rw [enumerate_content_groups, OrderedMap.mem_ofList (keyed.sublist (List.filter_sublist.map _)), List.mem_filter]
  simp [length]

/-- The groups that a search does not remove. -/
def candidates (db : repository) (table : GroupTable) (task : String) (tags : List String) : List content_group_record :=
  ((db.enumerate_content_groups table task).filter fun g => ¬ g.failed).filter fun g => g.check_tags tags

theorem mem_candidates (h : db.Inv) {task : String} (named : task ≠ "") (tags : List String) :
    g ∈ db.candidates table task tags ↔ db.Matches table task tags g := by
  rw [candidates, List.mem_filter, List.mem_filter, mem_enumerate_content_groups (h.keyed table) named]
  simp only [Bool.not_eq_true, decide_eq_true_eq, content_group_record.check_tags, List.all_eq_true,
    Bool.or_eq_true]
  exact ⟨fun ⟨⟨⟨stored, task⟩, failed⟩, tagged⟩ => ⟨stored, task, failed, tagged⟩,
    fun m => ⟨⟨⟨m.stored, m.task_eq⟩, m.not_failed⟩, m.tagged⟩⟩

/-- A search among the groups of another kind of task throws, as one for an unknown task does. -/
theorem find_task_output_of_ne {task : String} (h : db.query_task task ≠ .ok table) (msg : String) (tags : List String) :
    ∃ e, db.find_task_output table msg task tags = .error e := by
  have enumeration : ∃ e, db.enumerate_task_content table msg task = .error e := by
    rw [enumerate_task_content]
    cases known : db.query_task task with
    | error e => exact ⟨e, rfl⟩
    | ok type => exact ⟨_, if_pos fun eq : type = table => h (eq ▸ known)⟩
  obtain ⟨e, he⟩ := enumeration
  exact ⟨e, by rw [find_task_output, he]; rfl⟩

theorem find_task_output_eq {task : String} (h : db.query_task task = .ok table) (msg : String) (tags : List String) :
    db.find_task_output table msg task tags =
      match (db.candidates table task tags).getLast? with
      | none => .error (CPPTRANSPORT_REPO_NO_MATCHING_CONTENT_GROUPS ++ " '" ++ task ++ "'")
      | some g => .ok g := by
  have enumeration : db.enumerate_task_content table msg task = .ok (db.enumerate_content_groups table task) := by
    rw [enumerate_task_content, h]
    exact if_neg (not_not.mpr rfl)
  rw [find_task_output, enumeration]
  rfl

/-- **One search**: in the order of names the last group is the latest. -/
theorem Inv.findsLatest (h : db.Inv) (table : GroupTable) (msg : String) :
    db.FindsLatest table (db.find_task_output table msg) := by
  intro task tags
  by_cases known : db.query_task task = .ok table
  · have named : task ≠ "" := by
      rintro rfl
      exact h.task_named table known
    have mem : ∀ g, g ∈ db.candidates table task tags ↔ db.Matches table task tags g := fun g =>
      mem_candidates h named tags
    rw [find_task_output_eq known]
    cases last : (db.candidates table task tags).getLast? with
    | none =>
      have nothing : ¬ ∃ g, db.Matches table task tags g := by
        rintro ⟨g, hg⟩
        rw [← mem, List.getLast?_eq_none_iff.mp last] at hg
        exact List.not_mem_nil hg
      exact ⟨fun g found => (nomatch found), ⟨fun _ => nothing, fun _ => ⟨_, rfl⟩⟩⟩
    | some r =>
      have found : db.Matches table task tags r := (mem r).mp (List.mem_of_getLast? last)
      have sorted : (db.candidates table task tags).Pairwise fun a b => a.name < b.name :=
        ((OrderedMap.pairwise_ofList _ _).filter _).filter _
      have in_order : ∀ a ∈ db.candidates table task tags, ∀ b ∈ db.candidates table task tags,
          OrderedMap.InOrder (·.name) (·.creation_time) a b := by
        intro a ha b hb
        have ha := (mem a).mp ha
        have hb := (mem b).mp hb
        exact h.in_step table a ha.stored b hb.stored (hb.task_eq.trans ha.task_eq.symm) hb.not_failed ha.not_failed
      refine ⟨fun g hg => ?_, ⟨fun ⟨e, he⟩ => (nomatch he), fun none => absurd ⟨r, found⟩ none⟩⟩
      cases hg
      exact ⟨found, fun other ho => OrderedMap.date_le_of_getLast? sorted in_order last ((mem other).mpr ho)⟩
  · obtain ⟨e, throws⟩ := find_task_output_of_ne known msg tags
    have nothing : ¬ ∃ g, db.Matches table task tags g := by
      rintro ⟨g, hg⟩
      exact known (hg.task_eq ▸ h.task_known table g hg.stored)
    rw [throws]
    exact ⟨fun g found => (nomatch found), ⟨fun _ => nothing, fun _ => ⟨e, rfl⟩⟩⟩

theorem Inv.right (h : db.Inv) : db.Right := ⟨h.findsLatest _ _, h.findsLatest _ _⟩

/-! ### One event -/

/-- The group that an event is to commit. -/
def pending (db : repository) : Event → Option (GroupTable × content_group_record)
  | .commit table name failed tags =>
    (db.reserved.find? fun row => row.name = name).map fun row => (table, new_writer table row failed tags)
  | .recover table name now failed =>
    if table = .output then none
    else (db.reserved.find? fun row => row.name = name).map fun row => (table, recovery_writer row now failed)
  | _ => none

theorem close_writer_eq_some (h : db.close_writer table g = some db') :
    db.query_task g.task = .ok table ∧ g.name ∉ (db.groups table).map (·.name) ∧ db'.tasks = db.tasks ∧
      db'.groups = Function.update db.groups table (db.groups table ++ [g]) ∧ ∀ row ∈ db'.reserved, row ∈ db.reserved := by
  rw [close_writer] at h
  split_ifs at h with known
  rw [commit_first] at h
  split_ifs at h
  · cases h
  obtain ⟨_, committed, rfl⟩ := Option.map_eq_some_iff.mp h
  obtain ⟨_, stored, rfl⟩ := Option.map_eq_some_iff.mp committed
  refine ⟨known, fun there => ?_, rfl, rfl, fun row hrow => List.mem_of_mem_filter hrow⟩
  -- the name is a primary key
  rw [Tables.store_group] at stored
  split_ifs at stored
  obtain ⟨_, inserted, -⟩ := Option.map_eq_some_iff.mp stored
  rw [Rows.insert, if_pos] at inserted
  · cases inserted
  · simpa [tables, Function.comp_def] using there

/-- **What an event does to the groups**: it adds the one it commits, or it removes some and changes tags. -/
theorem groups_after (db : repository) (e : Event) :
    (∃ table g, db.pending e = some (table, g) ∧ db.query_task g.task = .ok table ∧
      g.name ∉ (db.groups table).map (·.name) ∧
      (db.after e).groups = Function.update db.groups table (db.groups table ++ [g])) ∨
    ∀ table, (((db.after e).groups table).map (·.untagged)).Sublist ((db.groups table).map (·.untagged)) := by
  have kept : ∀ {db' : repository}, db'.groups = db.groups →
      ∀ table, ((db'.groups table).map (·.untagged)).Sublist ((db.groups table).map (·.untagged)) := fun h table => by
    rw [h]
  have kept_update : ∀ {table : GroupTable} {l : List content_group_record},
      (l.map (·.untagged)).Sublist ((db.groups table).map (·.untagged)) → ∀ table',
        ((Function.update db.groups table l table').map (·.untagged)).Sublist ((db.groups table').map (·.untagged)) := by
    intro table l h table'
    by_cases same : table' = table
    · subst same
      rwa [Function.update_self]
    · rw [Function.update_of_ne same]
  cases e with
  | commit_task type name =>
    rw [after, commit_task]
    split_ifs <;> exact .inr (kept rfl)
  | reserve tk now suffix =>
    rw [after, reserve_content_name]
    cases db.tables.reserve_content_name tk now.timestamp suffix <;> exact .inr (kept rfl)
  | commit table name failed tags =>
    rw [after]
    cases committed : db.commit table name failed tags with
    | none => exact .inr (kept rfl)
    | some db' =>
      obtain ⟨row, hrow, closed⟩ := Option.bind_eq_some_iff.mp committed
      obtain ⟨known, fresh, -, groups, -⟩ := close_writer_eq_some closed
      exact .inl ⟨table, _, by rw [pending, hrow]; rfl, known, fresh, groups⟩
  | recover table name now failed =>
    rw [after]
    cases recovered : db.recover table name now failed with
    | none => exact .inr (kept rfl)
    | some db' =>
      obtain ⟨row, hrow, closed⟩ := Option.bind_eq_some_iff.mp recovered
      split_ifs at closed with output
      · cases closed
        exact .inr (kept rfl)
      · obtain ⟨known, fresh, -, groups, -⟩ := close_writer_eq_some closed
        exact .inl ⟨table, _, by rw [pending, if_neg output, hrow]; rfl, known, fresh, groups⟩
  | deregister name => exact .inr (kept rfl)
  | delete table name task =>
    rw [after, delete_content]
    cases db.tables.delete_group table name task with
    | none => exact .inr (kept rfl)
    | some _ => exact .inr (kept_update (List.filter_sublist.map _))
  | update_tags table name tags =>
    have same : ((db.groups table).map fun g => if g.name = name then { g with tags } else g).map (·.untagged) =
        (db.groups table).map (·.untagged) := by
      rw [List.map_map]
      refine List.map_congr_left fun g _ => ?_
      simp only [Function.comp_apply]
      split_ifs <;> rfl
    exact .inr (kept_update (by rw [same]))

theorem mem_groups_of_update {c : content_group_record} {table' : GroupTable}
    (groups : db'.groups = Function.update db.groups table (db.groups table ++ [c])) (hg : g ∈ db'.groups table') :
    g ∈ db.groups table' ∨ table' = table ∧ g = c := by
  rw [groups] at hg
  by_cases same : table' = table
  · subst same
    rw [Function.update_self] at hg
    exact (List.mem_append.mp hg).imp_right fun hg => ⟨rfl, List.mem_singleton.mp hg⟩
  · rw [Function.update_of_ne same] at hg
    exact .inl hg

theorem mem_groups_of_sublist
    (kept : ∀ table, ((db'.groups table).map (·.untagged)).Sublist ((db.groups table).map (·.untagged)))
    (hg : g ∈ db'.groups table) : ∃ g₀ ∈ db.groups table, g₀.untagged = g.untagged :=
  List.mem_map.mp ((kept table).subset (List.mem_map_of_mem hg))

theorem query_task_congr (h : ∀ type, name ∈ db'.tasks type ↔ name ∈ db.tasks type) :
    db'.query_task name = db.query_task name := by
  simp only [query_task, h]

/-- The tasks and the reserved names after an event. -/
theorem rows_after (db : repository) (e : Event) :
    ((∃ type name, e = .commit_task type name) ∨ (db.after e).tasks = db.tasks) ∧
      ∀ row ∈ (db.after e).reserved, row ∈ db.reserved ∨ row.posix_time.iso_characters <+: row.name.toList := by
  have commits : ∀ {table : GroupTable} {g : content_group_record} {db' : repository},
      db.close_writer table g = some db' → db'.tasks = db.tasks ∧ ∀ row ∈ db'.reserved, row ∈ db.reserved := fun h =>
    ⟨(close_writer_eq_some h).2.2.1, (close_writer_eq_some h).2.2.2.2⟩
  cases e with
  | commit_task type name =>
    refine ⟨.inl ⟨type, name, rfl⟩, fun row hrow => .inl ?_⟩
    rw [after, commit_task] at hrow
    split_ifs at hrow <;> exact hrow
  | reserve tk now suffix =>
    rw [after, reserve_content_name, Tables.reserve_content_name_eq]
    cases Rows.insert (·.name) db.tables.reserved
        ⟨now.timestamp.text ++ db.tables.label now.timestamp suffix, tk, now.timestamp⟩ with
    | none => exact ⟨.inr rfl, fun row hrow => .inl hrow⟩
    | some _ =>
      refine ⟨.inr rfl, fun row hrow => ?_⟩
      rcases List.mem_append.mp hrow with old | new
      · exact .inl old
      · obtain rfl := List.mem_singleton.mp new
        refine .inr ⟨(db.tables.label now.timestamp suffix).toList, ?_⟩
        rw [← now.toList_to_iso_string, ← String.toList_append]
        rfl
  | commit table name failed tags =>
    rw [after]
    cases committed : db.commit table name failed tags with
    | none => exact ⟨.inr rfl, fun row hrow => .inl hrow⟩
    | some db' =>
      obtain ⟨row, -, closed⟩ := Option.bind_eq_some_iff.mp committed
      exact ⟨.inr (commits closed).1, fun row hrow => .inl ((commits closed).2 row hrow)⟩
  | recover table name now failed =>
    rw [after]
    cases recovered : db.recover table name now failed with
    | none => exact ⟨.inr rfl, fun row hrow => .inl hrow⟩
    | some db' =>
      obtain ⟨row, -, closed⟩ := Option.bind_eq_some_iff.mp recovered
      split_ifs at closed
      · cases closed
        exact ⟨.inr rfl, fun row hrow => .inl (List.mem_of_mem_filter hrow)⟩
      · exact ⟨.inr (commits closed).1, fun row hrow => .inl ((commits closed).2 row hrow)⟩
  | deregister name => exact ⟨.inr rfl, fun row hrow => .inl (List.mem_of_mem_filter hrow)⟩
  | delete table name task =>
    rw [after, delete_content]
    cases db.tables.delete_group table name task <;> exact ⟨.inr rfl, fun row hrow => .inl hrow⟩
  | update_tags table name tags => exact ⟨.inr rfl, fun row hrow => .inl hrow⟩

/-- Only a new task changes what is known of its name. -/
theorem query_task_after {e : Event} (h : ∀ type, e ≠ .commit_task type name) :
    (db.after e).query_task name = db.query_task name := by
  rcases (db.rows_after e).1 with ⟨type, other, rfl⟩ | same
  · rw [after, commit_task]
    split_ifs
    · rfl
    · have ne : name ≠ other := fun eq => h type (eq ▸ rfl)
      refine query_task_congr fun type' => ?_
      by_cases here : type' = type
      · subst here
        simp [ne]
      · simp [here]
  · exact query_task_congr fun type => by rw [same]

/-- Tasks stay what they are. -/
theorem query_task_kept {type : GroupTable} (h : db.query_task name = .ok type) (e : Event) :
    (db.after e).query_task name = .ok type := by
  by_cases new : ∃ type', e = .commit_task type' name
  · obtain ⟨type', rfl⟩ := new
    have refused : db.commit_task type' name = none := by
      rw [commit_task, h]
      rfl
    rwa [after, refused]
  · rw [query_task_after fun type' eq => new ⟨type', eq⟩, h]

/-- Under the condition, what is committed is in step with the groups that are there. -/
theorem Inv.inStep_of_pending (h : db.Inv) {e : Event} (clear : db.Clear e) (pending : db.pending e = some (table, g)) :
    ∀ g' ∈ db.groups table, g.InStep g' := by
  intro g' hg'
  cases e with
  | commit table₁ name failed tags =>
    obtain ⟨row, hrow, eq⟩ := Option.map_eq_some_iff.mp pending
    cases eq
    have reserved := List.mem_of_find?_eq_some hrow
    have name_eq : row.name = name := by simpa using List.find?_some hrow
    rcases clear row reserved name_eq g' hg' with dated | in_step
    · exact content_group_record.Dated.inStep (h.dated row reserved) dated
    · exact in_step
  | recover table₁ name now failed =>
    rw [repository.pending] at pending
    split_ifs at pending with output
    obtain ⟨row, hrow, eq⟩ := Option.map_eq_some_iff.mp pending
    cases eq
    have name_eq : row.name = name := by simpa using List.find?_some hrow
    exact clear output row (List.mem_of_find?_eq_some hrow) name_eq g' hg'
  | commit_task | reserve | deregister | delete | update_tags => cases pending

/-- **The condition keeps the groups in step**. -/
theorem Inv.after (h : db.Inv) {e : Event} (clear : db.Clear e) : (db.after e).Inv := by
  have dated : ∀ row ∈ (db.after e).reserved, row.posix_time.iso_characters <+: row.name.toList := fun row hrow =>
    ((db.rows_after e).2 row hrow).elim (h.dated row) id
  have task_named : ∀ type, (db.after e).query_task "" ≠ .ok type := by
    intro type
    rw [query_task_after]
    · exact h.task_named type
    · rintro type' rfl
      exact clear rfl
  rcases db.groups_after e with ⟨table, c, pending, known, fresh, groups⟩ | kept
  · have in_step := h.inStep_of_pending clear pending
    have mem : ∀ table', ∀ g ∈ (db.after e).groups table', g ∈ db.groups table' ∨ table' = table ∧ g = c :=
      fun _ _ => mem_groups_of_update groups
    refine ⟨dated, fun table' => ?_, fun table' g hg => ?_, task_named, fun table' g hg g' hg' => ?_⟩
    · rw [groups]
      by_cases same : table' = table
      · subst same
        rw [Function.update_self, List.map_append, List.map_singleton, List.nodup_append]
        refine ⟨h.keyed table', List.nodup_singleton _, fun a ha b hb eq => fresh ?_⟩
        rwa [← List.mem_singleton.mp hb, ← eq]
      · rw [Function.update_of_ne same]
        exact h.keyed table'
    · rcases mem table' g hg with old | ⟨rfl, rfl⟩
      · exact query_task_kept (h.task_known table' g old) e
      · exact query_task_kept known e
    · rcases mem table' g hg with old | ⟨rfl, rfl⟩ <;> rcases mem _ g' hg' with old' | ⟨same, rfl⟩
      · exact h.in_step table' g old g' old'
      · subst same
        exact (in_step g old).symm
      · exact in_step g' old'
      · exact g'.inStep_self
  · have mem : ∀ table, ∀ g ∈ (db.after e).groups table, ∃ g₀ ∈ db.groups table, g₀.untagged = g.untagged :=
      fun _ _ => mem_groups_of_sublist kept
    refine ⟨dated, fun table => ?_, fun table g hg => ?_, task_named, fun table g hg g' hg' => ?_⟩
    · have names : ∀ l : List content_group_record, l.map (·.name) = (l.map (·.untagged)).map (·.name) := fun l => by
        rw [List.map_map]
        rfl
      rw [names]
      exact (names _ ▸ h.keyed table).sublist ((kept table).map _)
    · obtain ⟨g₀, hg₀, eq⟩ := mem table g hg
      have task : g.task = g₀.task := congrArg (·.task) eq.symm
      exact query_task_kept (task ▸ h.task_known table g₀ hg₀) e
    · obtain ⟨g₀, hg₀, eq⟩ := mem table g hg
      obtain ⟨g₀', hg₀', eq'⟩ := mem table g' hg'
      exact (content_group_record.inStep_congr eq eq').mp (h.in_step table g₀ hg₀ g₀' hg₀')

theorem inv_empty : empty.Inv := by
  refine ⟨fun row hrow => ?_, fun table => ?_, fun table g hg => ?_, fun type => ?_, fun table g hg => ?_⟩
  · cases hrow
  · exact List.nodup_nil
  · cases hg
  · simp [query_task, empty]
  · cases hg

/-! ### All events -/

/-- A second of the first minute of a year. -/
def second (s : ℕ) (h : s < 60) : ptime :=
  ⟨2016, 1, 1, 0, 0, s, by decide, by decide, by decide, by decide, by decide, h⟩

def no_suffix : Suffix := ⟨"", by decide⟩

/-- **The latest content is found** all along a history in which no recovery commits a group across another. -/
theorem finds_latest (history : List Event)
    (clear : StepsSatisfy (fun db e => some (db.after e)) Clear empty history) :
    StatesSatisfy (fun db e => some (db.after e)) Right empty history :=
  (statesSatisfy_of_stepsSatisfy (P := Inv) (fun _ _ _ h clear hs => Option.some.inj hs ▸ h.after clear) inv_empty
    clear).imp fun _ => Inv.right

/-- A recovery before there is another group of the task, and a group that is created after it. -/
def recovery : List Event :=
  [.commit_task .integration "task", .reserve "task" (second 1 (by decide)) no_suffix,
    .recover .integration "20160101T000001" (second 2 (by decide)) false,
    .reserve "task" (second 3 (by decide)) no_suffix, .commit .integration "20160101T000003" false []]

/-- After the recovery, the groups are found that it has committed and that are created later. -/
theorem finds_latest_recovery : StatesSatisfy (fun db e => some (db.after e)) Right empty recovery := by
  refine finds_latest recovery ⟨by decide, fun _ h₁ => ?_⟩
  cases h₁
  refine ⟨by decide, fun _ h₂ => ?_⟩
  cases h₂
  refine ⟨by decide, fun _ h₃ => ?_⟩
  cases h₃
  refine ⟨by decide, fun _ h₄ => ?_⟩
  cases h₄
  exact ⟨by decide, fun _ _ => trivial⟩

/-- One content group is reserved, and another one later; the second is committed, and the first recovered. -/
def crash : List Event :=
  [.commit_task .integration "task", .reserve "task" (second 1 (by decide)) no_suffix,
    .reserve "task" (second 2 (by decide)) no_suffix, .commit .integration "20160101T000002" false [],
    .recover .integration "20160101T000001" (second 3 (by decide)) false]

/-- The group that has been created last, in the recovery, is not found. -/
theorem recovered_not_found : ¬ StatesSatisfy (fun db e => some (db.after e)) Right empty crash := by
  rintro ⟨-, h⟩
  obtain ⟨-, h⟩ := h _ rfl
  obtain ⟨-, h⟩ := h _ rfl
  obtain ⟨-, h⟩ := h _ rfl
  obtain ⟨-, h⟩ := h _ rfl
  obtain ⟨latest, -⟩ := (h _ rfl).1 "task" []
  obtain ⟨-, latest⟩ := latest ⟨"20160101T000002", "task", second 2 (by decide), false, []⟩ (by decide)
  have recovered := latest ⟨"20160101T000001", "task", second 3 (by decide), false, []⟩
    ⟨by decide, rfl, rfl, by simp⟩
  exact absurd recovered (by decide)

/-- The names of all groups and reservations begin with their times. -/
def AllDated (db : repository) : Prop :=
  (∀ row ∈ db.reserved, row.posix_time.iso_characters <+: row.name.toList) ∧ ∀ table, ∀ g ∈ db.groups table, g.Dated

/-- There is no recovery, and tasks have names. -/
def Event.Ordinary : Event → Prop
  | .commit_task _ name => name ≠ ""
  | .recover _ _ _ _ => False
  | _ => True

theorem AllDated.clear (h : db.AllDated) {e : Event} (ordinary : e.Ordinary) : db.Clear e := by
  cases e with
  | commit_task type name => exact ordinary
  | commit table name failed tags => exact fun _ _ _ g hg => .inl (h.2 table g hg)
  | recover => exact ordinary.elim
  | reserve | deregister | delete | update_tags => trivial

theorem AllDated.after (h : db.AllDated) {e : Event} (ordinary : e.Ordinary) : (db.after e).AllDated := by
  refine ⟨fun row hrow => ((db.rows_after e).2 row hrow).elim (h.1 row) id, fun table g hg => ?_⟩
  rcases db.groups_after e with ⟨table', c, pending, -, -, groups⟩ | kept
  · have dated : c.Dated := by
      cases e with
      | commit table₁ name failed tags =>
        obtain ⟨row, hrow, eq⟩ := Option.map_eq_some_iff.mp pending
        cases eq
        exact h.1 row (List.mem_of_find?_eq_some hrow)
      | recover => exact ordinary.elim
      | commit_task | reserve | deregister | delete | update_tags => cases pending
    rcases mem_groups_of_update groups hg with old | ⟨-, rfl⟩
    · exact h.2 table g old
    · exact dated
  · obtain ⟨g₀, hg₀, eq⟩ := mem_groups_of_sublist kept hg
    have name : g₀.name = g.name := congrArg (·.name) eq
    have time : g₀.creation_time = g.creation_time := congrArg (·.creation_time) eq
    have dated : g₀.Dated := h.2 table g₀ hg₀
    rwa [content_group_record.Dated, name, time] at dated

/-- Without recoveries, nothing can go wrong. -/
theorem clear_of_ordinary {history : List Event} (ordinary : ∀ e ∈ history, e.Ordinary) :
    StepsSatisfy (fun db e => some (db.after e)) Clear empty history := by
  have labels : StepsSatisfy (fun db e => some (db.after e)) (fun _ e => e.Ordinary) empty history :=
    stepsSatisfy_of_forall_mem fun e he _ => ordinary e he
  refine labels.imp_of_invariant (I := AllDated) (fun _ _ h ordinary => h.clear ordinary)
    (fun _ _ _ h ordinary hs => Option.some.inj hs ▸ h.after ordinary) ⟨fun row hrow => ?_, fun table g hg => ?_⟩
  · cases hrow
  · cases hg

end repository

end CppTransport.Runtime.RecentContent
