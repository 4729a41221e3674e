import CppTransport.Library.KeyedRows
import CppTransport.Library.Transition

/-!
# Names of content groups

A name is reserved for a content group before it is written. The name is the time of the
reservation, to the second, with a number in between if there are already groups or
reservations with this time, and with a suffix.

## The model

* `Tables`: the reserved names and the three tables of content groups;
* `reserve_content_name`, `store_group`, `deregister_content_group`, `delete_group`: the
  operations on them. A call that throws returns `none`, and is rolled back;
* `Event`: a history of reservations, completions, withdrawals and deletions.

## What is proved

* `fresh_iff_clear`: a reservation returns a name that nothing else bears, if and only if
  the suffix, or the number without a suffix, is not in use with its time;
* `names_fresh_iff`: the same along every history.
-/

namespace CppTransport.Runtime.ContentNames

open Library Library.System

/-! ### Tables -/

/-- A time as `to_iso_string` writes it, without dashes. -/
structure Timestamp where
  text : String
  plain : '-' ∉ text.toList
deriving DecidableEq

/-- A suffix, which the queries put between quotes: it has none (`Char.ofNat 39`) of its own. -/
structure Suffix where
  text : String
  quotable : Char.ofNat 39 ∉ text.toList
deriving DecidableEq

/-- The tables of content groups. -/
inductive GroupTable where
  | integration
  | postintegration
  | output
deriving DecidableEq

/-- A row of the table of reserved names. -/
structure ReservedRow where
  name : String
  task : String
  posix_time : Timestamp
deriving DecidableEq

/-- A row of a table of content groups. -/
structure GroupRow where
  name : String
  task : String
  posix_time : Timestamp
deriving DecidableEq

/-- The reserved names, and the content groups. -/
structure Tables where
  reserved : List ReservedRow
  groups : GroupTable → List GroupRow

namespace Tables

/-- `internal_count`: the number of rows as an `unsigned int`. -/
def internal_count {ρ : Type} (rows : List ρ) (column : ρ → String) (value : String) : ℕ :=
  (rows.filter fun row => column row = value).length % 2 ^ 32

variable (db : Tables)

/-- `count_groups`. -/
def count_groups (name : String) : ℕ :=
  (internal_count (db.groups .integration) (·.name) name + internal_count (db.groups .postintegration) (·.name) name
    + internal_count (db.groups .output) (·.name) name) % 2 ^ 32

/-- `reserve_content_name`; there is no name if the insertion throws. -/
def reserve_content_name (tk : String) (posix_time_string : Timestamp) (suffix : Suffix) :
    Option (String × Tables) :=
  let filename := posix_time_string.text
  let filename := if 0 < suffix.text.length then filename ++ ("-" ++ suffix.text) else filename
  let count_inflight := internal_count db.reserved (·.posix_time.text) filename
  let count_integration := internal_count (db.groups .integration) (·.posix_time.text) filename
  let count_postintegration := internal_count (db.groups .postintegration) (·.posix_time.text) filename
  let count_output := internal_count (db.groups .output) (·.posix_time.text) filename
  let count := (count_inflight + count_integration + count_postintegration + count_output) % 2 ^ 32
  let filename :=
    if 0 < count then
      let filename := posix_time_string.text
      let filename := filename ++ ("-" ++ toString count)
      if 0 < suffix.text.length then filename ++ ("-" ++ suffix.text) else filename
    else filename
  (Rows.insert (·.name) db.reserved ⟨filename, tk, posix_time_string⟩).map fun reserved =>
    (filename, { db with reserved })

/-- `deregister_content_group`, as far as it is about reserved names. -/
def deregister_content_group (name : String) : Tables :=
  { db with reserved := db.reserved.filter fun row => row.name ≠ name }

/-- `store_group`. -/
def store_group (table : GroupTable) (row : GroupRow) : Option Tables :=
  if internal_count db.reserved (·.name) row.name = 1 then
    (Rows.insert (·.name) (db.groups table) row).map fun rows =>
      { db with groups := Function.update db.groups table rows }
  else none

/-- `delete_group`. -/
def delete_group (table : GroupTable) (name task : String) : Option Tables :=
  if internal_count (db.groups table) (·.name) name = 1 then
    some { db with
      groups := Function.update db.groups table
        ((db.groups table).filter fun row => ¬ (row.name = name ∧ row.task = task)) }
  else none

/-- A reservation is completed: its group is stored, as `commit_first` does it, and its name withdrawn. -/
def complete (table : GroupTable) (name : String) : Option Tables := do
  let row ← db.reserved.find? fun row => row.name = name
  if 0 < db.count_groups name then none
  else
    let db ← db.store_group table ⟨name, row.task, row.posix_time⟩
    some (db.deregister_content_group name)

/-! ### Histories -/

/-- What happens to names. -/
inductive Event where
  | reserve (tk : String) (time : Timestamp) (suffix : Suffix)
  | complete (table : GroupTable) (name : String)
  | deregister (name : String)
  | delete (table : GroupTable) (name task : String)

/-- The tables after an event; nothing changes if it throws. -/
def after : Event → Tables
  | .reserve tk time suffix => ((db.reserve_content_name tk time suffix).map (·.2)).getD db
  | .complete table name => (db.complete table name).getD db
  | .deregister name => db.deregister_content_group name
  | .delete table name task => (db.delete_group table name task).getD db

/-- The tables of a new repository. -/
def empty : Tables := ⟨[], fun _ => []⟩

/-- Names and times of all reservations and content groups. -/
def entries : List (String × Timestamp) :=
  db.reserved.map (fun row => (row.name, row.posix_time)) ++
    ((db.groups .integration).map (fun row => (row.name, row.posix_time)) ++
      ((db.groups .postintegration).map (fun row => (row.name, row.posix_time)) ++
        (db.groups .output).map (fun row => (row.name, row.posix_time))))

/-- The names of all reservations and content groups. -/
def names : List String := db.entries.map (·.1)

/-- A reservation returns a name that no reservation and no content group bears. -/
def Fresh : Event → Prop
  | .reserve tk time suffix =>
    ∃ name db', db.reserve_content_name tk time suffix = some (name, db') ∧ name ∉ db.names
  | _ => True

/-- How many reservations and content groups have this time. -/
def stamped (time : Timestamp) : ℕ := (db.entries.filter fun entry => entry.2 = time).length

/-- A reservation or content group of this time bears this label behind it. -/
def InUse (time : Timestamp) (label : String) : Prop := (time.text ++ label, time) ∈ db.entries

instance (time : Timestamp) (label : String) : Decidable (db.InUse time label) :=
  inferInstanceAs (Decidable (_ ∈ _))

/-- The suffix of a reservation is not in use with its time; without a suffix, the number of those that have its
time is not. -/
def Clear : Event → Prop
  | .reserve _ time suffix =>
    if 0 < suffix.text.length then ¬ db.InUse time ("-" ++ suffix.text)
    else if 0 < db.stamped time % 2 ^ 32 then ¬ db.InUse time ("-" ++ toString (db.stamped time % 2 ^ 32))
    else ¬ db.InUse time ""
  | _ => True

end Tables

/-! ### Times and labels -/

/-- What may stand behind a time in a name: nothing, or a dash and more. -/
def IsLabel (label : String) : Prop := label = "" ∨ ∃ x, label = "-" ++ x

theorem Timestamp.text_injective {T T' : Timestamp} (h : T.text = T'.text) : T = T' := by
  cases T
  cases T'
  cases h
  rfl

/-- A name starts with its time: the part before the first dash. -/
theorem Timestamp.takeWhile_name (T : Timestamp) {label : String} (h : IsLabel label) :
    (T.text ++ label).toList.takeWhile (· ≠ '-') = T.text.toList := by
  have plain : ∀ c ∈ T.text.toList, decide (c ≠ '-') = true := fun c hc => by
    simp only [ne_eq, decide_not, Bool.not_eq_eq_eq_not, Bool.not_true, decide_eq_false_iff_not]
    rintro rfl
    exact T.plain hc
  rw [String.toList_append, List.takeWhile_append_of_pos plain]
  rcases h with rfl | ⟨x, rfl⟩ <;> simp

/-- The name says the time. -/
theorem Timestamp.eq_of_name_eq {T T' : Timestamp} {label label' : String} (h : IsLabel label)
    (h' : IsLabel label') (eq : T.text ++ label = T'.text ++ label') : T = T' := by
  have := congrArg (fun name : String => name.toList.takeWhile (· ≠ '-')) eq
  simp only [T.takeWhile_name h, T'.takeWhile_name h'] at this
  exact text_injective (String.toList_injective this)

/-- No time has a label. -/
theorem Timestamp.ne_append_dash (T T' : Timestamp) (x : String) : T.text ≠ T'.text ++ ("-" ++ x) := by
  intro eq
  refine T.plain ?_
  rw [eq]
  simp

namespace Tables

variable {db : Tables} {tk : String} {time : Timestamp} {suffix : Suffix}

/-! ### One reservation -/

/-- Every name is a time with a label behind it. -/
def Labelled (db : Tables) : Prop :=
  ∀ entry ∈ db.entries, ∃ label, IsLabel label ∧ entry.1 = entry.2.text ++ label

/-- The label that a reservation puts behind its time. -/
def label (db : Tables) (time : Timestamp) (suffix : Suffix) : String :=
  if 0 < suffix.text.length then "-" ++ suffix.text
  else if 0 < db.stamped time % 2 ^ 32 then "-" ++ toString (db.stamped time % 2 ^ 32) else ""

theorem isLabel_label (db : Tables) (time : Timestamp) (suffix : Suffix) : IsLabel (db.label time suffix) := by
  rw [label]
  split_ifs
  · exact .inr ⟨_, rfl⟩
  · exact .inr ⟨_, rfl⟩
  · exact .inl rfl

/-- The sum of the four counts. -/
theorem sum_internal_count (db : Tables) (value : String) :
    (internal_count db.reserved (·.posix_time.text) value
      + internal_count (db.groups .integration) (·.posix_time.text) value
      + internal_count (db.groups .postintegration) (·.posix_time.text) value
      + internal_count (db.groups .output) (·.posix_time.text) value) % 2 ^ 32 =
      (db.entries.filter fun entry => entry.2.text = value).length % 2 ^ 32 := by
  simp only [internal_count, entries, List.filter_append, List.filter_map, List.length_append, List.length_map,
    Function.comp_def]
  omega

/-- **The name**: a suffix stands directly behind the time, whatever is in use. -/
theorem reserve_content_name_eq (db : Tables) (tk : String) (time : Timestamp) (suffix : Suffix) :
    db.reserve_content_name tk time suffix =
      (Rows.insert (·.name) db.reserved ⟨time.text ++ db.label time suffix, tk, time⟩).map fun reserved =>
        (time.text ++ db.label time suffix, { db with reserved }) := by
  rw [reserve_content_name, label]
  by_cases hs : 0 < suffix.text.length
  · -- the count looks for a time with a suffix, and there is none
    have none : (db.entries.filter fun entry => entry.2.text = time.text ++ ("-" ++ suffix.text)) = [] := by
      refine List.filter_eq_nil_iff.mpr fun entry _ => ?_
      simpa using entry.2.ne_append_dash time suffix.text
    simp only [hs, if_true, sum_internal_count, none]
    rfl
  · have same : (db.entries.filter fun entry => entry.2.text = time.text).length = db.stamped time := by
      rw [stamped]
      congr 1
      refine List.filter_congr fun entry _ => ?_
      exact decide_eq_decide.mpr ⟨Timestamp.text_injective, fun h => h ▸ rfl⟩
    simp only [hs, if_false, sum_internal_count, same]
    split_ifs <;> simp

/-- A name is in use if its label is in use with its time. -/
theorem mem_names_iff (h : db.Labelled) {label : String} (hl : IsLabel label) :
    time.text ++ label ∈ db.names ↔ db.InUse time label := by
  rw [names, List.mem_map]
  constructor
  · rintro ⟨⟨name, time'⟩, hmem, rfl⟩
    obtain ⟨label', hl', eq⟩ := h _ hmem
    obtain rfl : time = time' := Timestamp.eq_of_name_eq hl hl' eq
    exact hmem
  · exact fun hmem => ⟨_, hmem, rfl⟩

theorem mem_names_of_reserved {row : ReservedRow} (h : row ∈ db.reserved) : row.name ∈ db.names :=
  List.mem_map.mpr ⟨_, List.mem_append_left _ (List.mem_map_of_mem h), rfl⟩

/-- **One reservation**: the name is that of nothing else if and only if the suffix, or the number, is not in use
with the time. -/
theorem fresh_iff_clear (h : db.Labelled) (e : Event) : db.Fresh e ↔ db.Clear e := by
  cases e with
  | reserve tk time suffix =>
    have clear : db.Clear (.reserve tk time suffix) ↔ ¬ db.InUse time (db.label time suffix) := by
      rw [Clear, label]
      split_ifs <;> rfl
    rw [clear, ← mem_names_iff h (db.isLabel_label time suffix), Fresh, reserve_content_name_eq]
    constructor
    · rintro ⟨name, db', eq, fresh⟩
      obtain ⟨reserved, -, eq⟩ := Option.map_eq_some_iff.mp eq
      cases eq
      exact fresh
    · intro fresh
      have not_reserved : time.text ++ db.label time suffix ∉ db.reserved.map (·.name) := by
        intro hmem
        obtain ⟨row, hrow, eq⟩ := List.mem_map.mp hmem
        exact fresh (eq ▸ mem_names_of_reserved hrow)
      exact ⟨_, _, by rw [Rows.insert, if_neg not_reserved]; rfl, fresh⟩
  | _ => exact Iff.rfl

/-! ### All reservations -/

theorem mem_entries_iff {entry : String × Timestamp} :
    entry ∈ db.entries ↔ (∃ row ∈ db.reserved, (row.name, row.posix_time) = entry) ∨
      ∃ table, ∃ row ∈ db.groups table, (row.name, row.posix_time) = entry := by
  simp only [entries, List.mem_append, List.mem_map]
  refine or_congr_right ⟨?_, ?_⟩
  · rintro (h | h | h)
    · exact ⟨_, h⟩
    · exact ⟨_, h⟩
    · exact ⟨_, h⟩
  · rintro ⟨table, h⟩
    cases table
    · exact .inl h
    · exact .inr (.inl h)
    · exact .inr (.inr h)

theorem mem_entries_deregister {name : String} {entry : String × Timestamp}
    (h : entry ∈ (db.deregister_content_group name).entries) : entry ∈ db.entries := by
  rcases mem_entries_iff.mp h with ⟨row, hrow, eq⟩ | ⟨table, row, hrow, eq⟩
  · exact mem_entries_iff.mpr (.inl ⟨row, List.mem_of_mem_filter hrow, eq⟩)
  · exact mem_entries_iff.mpr (.inr ⟨table, row, hrow, eq⟩)

theorem mem_entries_delete {table : GroupTable} {name task : String} {db' : Tables} {entry : String × Timestamp}
    (hd : db.delete_group table name task = some db') (h : entry ∈ db'.entries) : entry ∈ db.entries := by
  rw [delete_group] at hd
  split_ifs at hd
  cases hd
  rcases mem_entries_iff.mp h with reserved | ⟨table', row, hrow, eq⟩
  · exact mem_entries_iff.mpr (.inl reserved)
  · refine mem_entries_iff.mpr (.inr ⟨table', row, ?_, eq⟩)
    by_cases same : table' = table
    · subst same
      simp only [Function.update_self] at hrow
      exact List.mem_of_mem_filter hrow
    · simpa only [Function.update_of_ne same] using hrow

theorem mem_entries_store {table : GroupTable} {row : GroupRow} {db' : Tables} {entry : String × Timestamp}
    (hs : db.store_group table row = some db') (h : entry ∈ db'.entries) :
    entry ∈ db.entries ∨ entry = (row.name, row.posix_time) := by
  rw [store_group] at hs
  split_ifs at hs
  obtain ⟨rows, hrows, rfl⟩ := Option.map_eq_some_iff.mp hs
  rw [Rows.insert] at hrows
  split_ifs at hrows
  cases hrows
  rcases mem_entries_iff.mp h with reserved | ⟨table', row', hrow, rfl⟩
  · exact .inl (mem_entries_iff.mpr (.inl reserved))
  · by_cases same : table' = table
    · subst same
      simp only [Function.update_self, List.mem_append, List.mem_singleton] at hrow
      rcases hrow with hrow | rfl
      · exact .inl (mem_entries_iff.mpr (.inr ⟨table', row', hrow, rfl⟩))
      · exact .inr rfl
    · simp only [Function.update_of_ne same] at hrow
      exact .inl (mem_entries_iff.mpr (.inr ⟨table', row', hrow, rfl⟩))

theorem mem_entries_complete {table : GroupTable} {name : String} {db' : Tables} {entry : String × Timestamp}
    (hc : db.complete table name = some db') (h : entry ∈ db'.entries) : entry ∈ db.entries := by
  obtain ⟨row, hrow, hc⟩ := Option.bind_eq_some_iff.mp hc
  have hname : row.name = name := by simpa using List.find?_some hrow
  split_ifs at hc
  obtain ⟨stored, hstored, hc⟩ := Option.bind_eq_some_iff.mp hc
  cases hc
  rcases mem_entries_store hstored (mem_entries_deregister h) with old | rfl
  · exact old
  · -- the group has the name and the time of its reservation
    exact mem_entries_iff.mpr (.inl ⟨row, List.mem_of_find?_eq_some hrow, by rw [hname]⟩)

/-- An event adds nothing but what a reservation returns. -/
theorem mem_entries_after {e : Event} {entry : String × Timestamp} (h : entry ∈ (db.after e).entries) :
    entry ∈ db.entries ∨ ∃ time suffix, entry = (time.text ++ db.label time suffix, time) := by
  cases e with
  | reserve tk time suffix =>
    rw [after, reserve_content_name_eq, Rows.insert] at h
    split_ifs at h
    · exact .inl h
    · rcases mem_entries_iff.mp h with ⟨row, hrow, rfl⟩ | groups
      · rcases List.mem_append.mp hrow with hrow | hrow
        · exact .inl (mem_entries_iff.mpr (.inl ⟨row, hrow, rfl⟩))
        · cases List.mem_singleton.mp hrow
          exact .inr ⟨time, suffix, rfl⟩
      · exact .inl (mem_entries_iff.mpr (.inr groups))
  | complete table name =>
    rw [after] at h
    cases hc : db.complete table name with
    | none => exact .inl (by simpa [hc] using h)
    | some db' => exact .inl (mem_entries_complete hc (by simpa [hc] using h))
  | deregister name => exact .inl (mem_entries_deregister h)
  | delete table name task =>
    rw [after] at h
    cases hd : db.delete_group table name task with
    | none => exact .inl (by simpa [hd] using h)
    | some db' => exact .inl (mem_entries_delete hd (by simpa [hd] using h))

theorem Labelled.after (h : db.Labelled) (e : Event) : (db.after e).Labelled := by
  intro entry hentry
  rcases mem_entries_after hentry with old | ⟨time, suffix, rfl⟩
  · exact h entry old
  · exact ⟨_, db.isLabel_label time suffix, rfl⟩

theorem labelled_empty : empty.Labelled := by
  intro entry h
  simp [entries, empty] at h

/-- **Names are unique**: along a history of a repository every reservation returns a name that nothing else bears,
if and only if before each of them its suffix, or the number, is not in use with its time. -/
theorem names_fresh_iff (history : List Event) :
    StepsSatisfy (fun db e => some (db.after e)) Fresh empty history ↔
      StepsSatisfy (fun db e => some (db.after e)) Clear empty history :=
  stepsSatisfy_congr (I := Labelled) (fun _ e h => fresh_iff_clear h e)
    (fun _ e _ h _ hs => Option.some.inj hs ▸ h.after e) labelled_empty

/-- The suffix of the writers of a paired integration. -/
def paired : Suffix := ⟨"paired", by decide⟩

/-- A second past midnight. -/
def midnight : Timestamp := ⟨"20160101T000001", by decide⟩

/-- A paired integration is completed in the second in which it was started, and a second one is started: it gets
the name of the first. -/
theorem second_paired_not_fresh :
    ¬ StepsSatisfy (fun db e => some (db.after e)) Fresh empty
      [.reserve "task" midnight paired, .complete .integration "20160101T000001-paired",
        .reserve "task" midnight paired] := by
  rintro ⟨-, second⟩
  obtain ⟨-, third⟩ := second _ rfl
  obtain ⟨fresh, -⟩ := third _ rfl
  have clear := (fresh_iff_clear ((labelled_empty.after _).after _) _).mp fresh
  exact clear (by decide)

end Tables

end CppTransport.Runtime.ContentNames
