import CppTransport.Library.Table
import Mathlib.Data.Finset.Sort
import Mathlib.Data.Finset.Union
import Mathlib.Data.Fintype.Sets

/-!
# The integrity check of a container of three-point data

A container holds several tables of rows that are indexed by the serial number of
a threepf configuration, and several that are indexed by the serial number of a
twopf configuration. When an integration has finished, the data manager looks for
configurations that some table lacks, adds those that the workers reported as
failed, and drops rows until the tables agree. A twopf configuration is stored
by the threepf configuration that is flagged for it, so that a hole in a
twopf-indexed table costs a threepf configuration, which in turn costs the other
twopf configurations it was flagged to store.

## The model

* a table is the list of its rows, of which the check sees only the column
  `kserial`; a database is the list of the records in the order in which its map
  gives them;
* `integrity_handler`: the body which `check_threepf_integrity_handler` and
  `check_zeta_threepf_integrity_handler` share; the two handlers give it their own
  tables. The tables that are dropped from but not checked (statistics and initial
  conditions) are `side_tables`.

## What is proved

* `compute_twopf_drop_list` and `map_twopf_to_threepf_serials` are, on sets,
  the two directions of the relation `Stores` (`mem_compute_twopf_drop_list`,
  `mem_map_twopf_to_threepf_serials`);
* `integrity_handlers_repair`: whatever is missing and whatever failed, either
  handler leaves the tables consistent with the list of missing serials, removes
  nothing else, and changes nothing when it is run again.
-/

namespace CppTransport.Runtime

open Library

/-! ### Configuration databases -/

/-- `threepf_kconfig_record`: a threepf configuration, its three legs, and which data it stores. -/
structure ThreepfRecord where
  /-- Serial number of the threepf configuration. -/
  serial : ℕ
  /-- Serial number of the twopf configuration of the first leg. -/
  k1_serial : ℕ
  /-- Serial number of the twopf configuration of the second leg. -/
  k2_serial : ℕ
  /-- Serial number of the twopf configuration of the third leg. -/
  k3_serial : ℕ
  /-- The twopf of the first leg is stored by this configuration. -/
  store_twopf_k1 : Bool
  /-- The twopf of the second leg is stored by this configuration. -/
  store_twopf_k2 : Bool
  /-- The twopf of the third leg is stored by this configuration. -/
  store_twopf_k3 : Bool

/-- The record is flagged to store the twopf configuration `j`. -/
def ThreepfRecord.Stores (u : ThreepfRecord) (j : ℕ) : Prop :=
  (u.store_twopf_k1 ∧ u.k1_serial = j) ∨ (u.store_twopf_k2 ∧ u.k2_serial = j)
    ∨ (u.store_twopf_k3 ∧ u.k3_serial = j)

instance (u : ThreepfRecord) (j : ℕ) : Decidable (u.Stores j) :=
  inferInstanceAs (Decidable (_ ∨ _ ∨ _))

/-- The configuration databases of a task: maps from serial number to record, listed in order. -/
structure ConfigDatabase where
  /-- Serial numbers of `twopf_kconfig_database`. -/
  twopf : List ℕ
  /-- Records of `threepf_kconfig_database`. -/
  threepf : List ThreepfRecord
  /-- A map holds one record for each serial number and gives them in ascending order. -/
  threepf_sorted : (threepf.map (·.serial)).Pairwise (· < ·)

namespace ConfigDatabase

/-- Serial numbers of the threepf configurations. -/
def threepf_serials (db : ConfigDatabase) : List ℕ := db.threepf.map (·.serial)

/-- Each twopf configuration is flagged as stored by exactly one threepf configuration. -/
def FlaggedOnce (db : ConfigDatabase) : Prop :=
  ∀ j ∈ db.twopf, ∃! u, u ∈ db.threepf ∧ u.Stores j

/-- No twopf configuration is flagged as stored by two threepf configurations. -/
def FlaggedAtMostOnce (db : ConfigDatabase) : Prop :=
  ∀ j ∈ db.twopf, ∀ u ∈ db.threepf, ∀ v ∈ db.threepf, u.Stores j → v.Stores j → u = v

variable {db : ConfigDatabase} {u v : ThreepfRecord}

/-- A serial number determines its record. -/
theorem eq_of_serial_eq (hu : u ∈ db.threepf) (hv : v ∈ db.threepf) (h : u.serial = v.serial) :
    u = v := by
  have nodup : (db.threepf.map (·.serial)).Nodup := db.threepf_sorted.imp fun h => h.ne
  exact List.inj_on_of_nodup_map nodup hu hv h

theorem FlaggedOnce.eq {j : ℕ} (h : db.FlaggedOnce) (hj : j ∈ db.twopf) (hu : u ∈ db.threepf)
    (hv : v ∈ db.threepf) (su : u.Stores j) (sv : v.Stores j) : u = v :=
  (h j hj).unique ⟨hu, su⟩ ⟨hv, sv⟩

theorem FlaggedOnce.atMostOnce (h : db.FlaggedOnce) : db.FlaggedAtMostOnce :=
  fun _ hj _ hu _ hv su sv => h.eq hj hu hv su sv

/-- `RecordFinder`: the first record with a given serial number. -/
def find (db : ConfigDatabase) (serial : ℕ) : Option ThreepfRecord :=
  db.threepf.find? fun u => u.serial = serial

theorem find_eq_some_iff {s : ℕ} : db.find s = some u ↔ u ∈ db.threepf ∧ u.serial = s :=
  find?_key_eq_some_iff (db.threepf_sorted.imp fun h => h.ne)

end ConfigDatabase

/-! ### Tables and writers -/

variable {V : Type*}

/-- A row of a table of correlation functions; the check looks at its serial number only. -/
structure Row (V : Type*) where
  /-- The configuration the row belongs to. -/
  kserial : ℕ
  /-- The other columns. -/
  values : V

/-- The serial numbers present in a table: `SELECT DISTINCT kserial FROM table`. -/
def stored_serials (table : List (Row V)) : Finset ℕ := (table.map (·.kserial)).toFinset

@[simp] theorem mem_stored_serials {table : List (Row V)} {s : ℕ} :
    s ∈ stored_serials table ↔ ∃ row ∈ table, row.kserial = s := by simp [stored_serials]

/-- What an `integration_writer` and a `postintegration_writer` both keep for the check. -/
structure Writer where
  /-- Some data are missing. -/
  fail : Bool
  /-- Serial numbers that the workers reported as failed. -/
  failed_serials : Finset ℕ
  /-- Serial numbers that the check found missing. -/
  missing_serials : Finset ℕ
deriving DecidableEq

/-- `set_fail(true)` from `advise_missing_content`, which otherwise prints to the log. -/
def Writer.advise_missing_content (w : Writer) : Writer := { w with fail := true }

/-- `set_missing_serials`. -/
def Writer.set_missing_serials (w : Writer) (s : Finset ℕ) : Writer := { w with missing_serials := s }

/-- `integration_writer`: it also knows what the integration was told to collect. -/
structure IntegrationWriter extends Writer where
  /-- Per-configuration statistics are collected. -/
  collect_statistics : Bool
  /-- Initial conditions are collected. -/
  collect_initial_conditions : Bool
deriving DecidableEq

/-! ### The queries of the sqlite3 backend -/

/-- `SELECT serial FROM samples WHERE serial NOT IN (SELECT DISTINCT kserial FROM table)`. -/
def get_missing_serials (samples : List ℕ) (table : List (Row V)) : Finset ℕ :=
  samples.toFinset \ stored_serials table

/-- `drop_k_configurations`, `drop_statistics`, `drop_ics`: one `DELETE FROM table WHERE kserial=..`
for each serial number of the list that is in the database. -/
def drop_k_configurations (drop_list : Finset ℕ) (dbase : List ℕ) (table : List (Row V)) :
    List (Row V) :=
  drop_list.sort.foldl
    (fun table s => if s ∈ dbase then table.filter (fun row => row.kserial ≠ s) else table) table

/-- `drop_.._configurations` for a table that is checked: serials already missing are not dropped. -/
def drop_configurations (serials missing : Finset ℕ) (dbase : List ℕ) (table : List (Row V)) :
    List (Row V) :=
  drop_k_configurations (serials \ missing) dbase table

/-- `drop_statistics_configurations` and `drop_initial_conditions_configurations`: only the
serials that are present are dropped. -/
def drop_side_configurations (serials : Finset ℕ) (dbase : List ℕ) (table : List (Row V)) :
    List (Row V) :=
  drop_k_configurations (serials ∩ stored_serials table) dbase table

@[simp] theorem mem_get_missing_serials {samples : List ℕ} {table : List (Row V)} {s : ℕ} :
    s ∈ get_missing_serials samples table ↔ s ∈ samples ∧ s ∉ stored_serials table := by
  simp [get_missing_serials]

/-- The deletions, in one filter. -/
theorem drop_k_configurations_eq (drop_list : Finset ℕ) (dbase : List ℕ) (table : List (Row V)) :
    drop_k_configurations drop_list dbase table
      = table.filter fun row => ¬ (row.kserial ∈ drop_list ∧ row.kserial ∈ dbase) := by
  have step : ∀ (t : List (Row V)) (s : ℕ),
      (if s ∈ dbase then t.filter (fun row => row.kserial ≠ s) else t)
        = t.filter fun row => ¬ (row.kserial = s ∧ s ∈ dbase) := by
    intro t s
    by_cases hs : s ∈ dbase <;> simp [hs]
  simp only [drop_k_configurations, step]
  rw [foldl_filter_eq fun s (row : Row V) => decide ¬ (row.kserial = s ∧ s ∈ dbase)]
  refine List.filter_congr fun row _ => ?_
  rw [Bool.eq_iff_iff]
  simp only [List.all_eq_true, Finset.mem_sort, decide_eq_true_eq]
  constructor
  · intro h ⟨hd, hb⟩
    exact h _ hd ⟨rfl, hb⟩
  · rintro h s hs ⟨rfl, hb⟩
    exact h ⟨hs, hb⟩

/-- On a table of the database, dropping `serials` leaves the rows of the others, no matter what was
known to be missing. -/
theorem drop_configurations_eq {serials missing : Finset ℕ} {dbase : List ℕ} {table : List (Row V)}
    (sub : ∀ row ∈ table, row.kserial ∈ dbase) (absent : ∀ row ∈ table, row.kserial ∉ missing) :
    drop_configurations serials missing dbase table
      = table.filter fun row => row.kserial ∉ serials := by
  rw [drop_configurations, drop_k_configurations_eq]
  refine List.filter_congr fun row hrow => ?_
  simp [sub row hrow, absent row hrow]

theorem drop_side_configurations_eq {serials : Finset ℕ} {dbase : List ℕ} {table : List (Row V)}
    (sub : ∀ row ∈ table, row.kserial ∈ dbase) :
    drop_side_configurations serials dbase table
      = table.filter fun row => row.kserial ∉ serials := by
  rw [drop_side_configurations, drop_k_configurations_eq]
  refine List.filter_congr fun row hrow => ?_
  have : row.kserial ∈ stored_serials table := mem_stored_serials.mpr ⟨row, hrow, rfl⟩
  simp only [Finset.mem_inter, this, sub row hrow, and_true]

/-! ### The handler -/

/-- The serial numbers reported as failed which are not among `serials`. -/
def find_failed_but_undropped_serials (w : Writer) (serials : Finset ℕ) : Finset ℕ :=
  serials.sort.foldl (fun advised_list s => advised_list.erase s) w.failed_serials

/-- Insert a serial number if a flag is set. -/
def insert_if (flag : Bool) (s : ℕ) (acc : Finset ℕ) : Finset ℕ := if flag then insert s acc else acc

/-- The twopf configurations stored by the given threepf configurations. -/
def compute_twopf_drop_list (serials : Finset ℕ) (db : ConfigDatabase) : Finset ℕ :=
  serials.sort.foldl (fun drop_serials serial =>
    match db.find serial with
    | some u => insert_if u.store_twopf_k3 u.k3_serial (insert_if u.store_twopf_k2 u.k2_serial
        (insert_if u.store_twopf_k1 u.k1_serial drop_serials))
    | none => drop_serials) ∅

/-- The threepf configurations that store the given twopf configurations: the inner loop breaks at
the first record that is flagged for one of its legs. -/
def map_twopf_to_threepf_serials (twopf_list : Finset ℕ) (db : ConfigDatabase) : Finset ℕ :=
  twopf_list.sort.foldl (fun threepf_list twopf_serial =>
    match db.threepf.find? fun u => decide (u.Stores twopf_serial) with
    | some u => insert u.serial threepf_list
    | none => threepf_list) ∅

/-- The tables of a container: `α` and `β` name the tables that the check compares, indexed by
threepf and by twopf configurations; `σ` names the other tables indexed by threepf configurations. -/
structure Container (α β σ V : Type*) where
  /-- Serial numbers in the sample table of twopf configurations. -/
  twopf_samples : List ℕ
  /-- Serial numbers in the sample table of threepf configurations. -/
  threepf_samples : List ℕ
  /-- Tables indexed by threepf configurations. -/
  threepf_tables : α → List (Row V)
  /-- Tables indexed by twopf configurations. -/
  twopf_tables : β → List (Row V)
  /-- Tables of statistics and initial conditions. -/
  side_tables : σ → List (Row V)

section Handler

variable {α β σ : Type*} [Fintype α] [Fintype β]

/-- The missing threepf serials of all tables, those advised as failed, and those that store a
twopf serial which some table lacks. -/
def total_missing (db : ConfigDatabase) (w : Writer) (c : Container α β σ V) : Finset ℕ :=
  let threepf_missing := Finset.univ.biUnion fun a =>
    get_missing_serials c.threepf_samples (c.threepf_tables a)
  let twopf_missing := Finset.univ.biUnion fun b =>
    get_missing_serials c.twopf_samples (c.twopf_tables b)
  let failed := find_failed_but_undropped_serials w threepf_missing
  threepf_missing ∪ failed ∪ map_twopf_to_threepf_serials twopf_missing db

/-- The body shared by the two handlers; `collects` tells which side tables are dropped from. -/
def integrity_handler (collects : σ → Bool) (db : ConfigDatabase) (w : Writer)
    (c : Container α β σ V) : Writer × Container α β σ V :=
  let total := total_missing db w c
  if 0 < total.card then
    let twopf_drop := compute_twopf_drop_list total db
    ((w.advise_missing_content).set_missing_serials total,
      { c with
        threepf_tables := fun a => drop_configurations total
          (get_missing_serials c.threepf_samples (c.threepf_tables a)) db.threepf_serials
          (c.threepf_tables a)
        side_tables := fun i =>
          if collects i then drop_side_configurations total db.threepf_serials (c.side_tables i)
          else c.side_tables i
        twopf_tables := fun b => drop_configurations twopf_drop
          (get_missing_serials c.twopf_samples (c.twopf_tables b)) db.twopf (c.twopf_tables b) })
  else (w, c)

end Handler

/-- Tables of a threepf container that are indexed by threepf configurations. -/
inductive ThreepfTable where
  /-- Values of the correlation function of momenta. -/
  | threepf_momentum
  /-- Values with the last momentum replaced by the time derivative. -/
  | threepf_Nderiv
deriving DecidableEq

instance : Fintype ThreepfTable where
  elems := {.threepf_momentum, .threepf_Nderiv}
  complete := by intro t; cases t <;> decide

/-- Tables of a threepf container that are indexed by twopf configurations. -/
inductive TwopfTable where
  /-- Real parts. -/
  | twopf_re
  /-- Imaginary parts. -/
  | twopf_im
  /-- Tensor modes. -/
  | tensor_twopf
deriving DecidableEq

instance : Fintype TwopfTable where
  elems := {.twopf_re, .twopf_im, .tensor_twopf}
  complete := by intro t; cases t <;> decide

/-- Tables of metadata of a threepf container. -/
inductive SideTable where
  /-- Per-configuration statistics. -/
  | stats
  /-- Initial conditions at the exit of the smallest leg. -/
  | ics
  /-- Initial conditions at the exit of the total wavenumber. -/
  | kt_ics
deriving DecidableEq

/-- Tables of a zeta threepf container that are indexed by threepf configurations. -/
inductive ZetaThreepfTable where
  /-- Three-point function and reduced bispectrum. -/
  | zeta_threepf
  /-- Second-order gauge transformation, legs 1, 2, 3. -/
  | gauge_xfm2_123
  /-- Second-order gauge transformation, legs 2, 1, 3. -/
  | gauge_xfm2_213
  /-- Second-order gauge transformation, legs 3, 1, 2. -/
  | gauge_xfm2_312
deriving DecidableEq

instance : Fintype ZetaThreepfTable where
  elems := {.zeta_threepf, .gauge_xfm2_123, .gauge_xfm2_213, .gauge_xfm2_312}
  complete := by intro t; cases t <;> decide

/-- Tables of a zeta threepf container that are indexed by twopf configurations. -/
inductive ZetaTwopfTable where
  /-- Two-point function. -/
  | zeta_twopf
  /-- First-order gauge transformation. -/
  | gauge_xfm1
deriving DecidableEq

instance : Fintype ZetaTwopfTable where
  elems := {.zeta_twopf, .gauge_xfm1}
  complete := by intro t; cases t <;> decide

/-- Which metadata an integration collects. -/
def IntegrationWriter.collects (w : IntegrationWriter) : SideTable → Bool
  | .stats => w.collect_statistics
  | .ics => w.collect_initial_conditions
  | .kt_ics => w.collect_initial_conditions

/-- `check_threepf_integrity_handler`. -/
def check_threepf_integrity_handler (db : ConfigDatabase) (w : IntegrationWriter)
    (c : Container ThreepfTable TwopfTable SideTable V) :
    IntegrationWriter × Container ThreepfTable TwopfTable SideTable V :=
  let r := integrity_handler w.collects db w.toWriter c
  ({ w with toWriter := r.1 }, r.2)

/-- `check_zeta_threepf_integrity_handler`: there are no metadata to drop. -/
def check_zeta_threepf_integrity_handler (db : ConfigDatabase) (w : Writer)
    (c : Container ZetaThreepfTable ZetaTwopfTable Empty V) :
    Writer × Container ZetaThreepfTable ZetaTwopfTable Empty V :=
  integrity_handler Empty.elim db w c

/-! ### What the auxiliary functions compute -/

theorem mem_find_failed_but_undropped_serials {w : Writer} {serials : Finset ℕ} {s : ℕ} :
    s ∈ find_failed_but_undropped_serials w serials ↔ s ∈ w.failed_serials ∧ s ∉ serials := by
  have step : ∀ (acc : Finset ℕ) (k x : ℕ), x ∈ acc.erase k ↔ x ∈ acc ∧ ¬ x = k := by
    intro acc k x
    rw [Finset.mem_erase, and_comm]
  rw [find_failed_but_undropped_serials, mem_foldl_iff_of_removes step]
  simp only [Finset.mem_sort]
  refine and_congr_right fun _ => ⟨fun h hs => h s hs rfl, ?_⟩
  rintro h k hk rfl
  exact h hk

@[simp] theorem mem_insert_if {flag : Bool} {s x : ℕ} {acc : Finset ℕ} :
    x ∈ insert_if flag s acc ↔ x ∈ acc ∨ (flag ∧ s = x) := by
  cases flag <;> simp [insert_if, or_comm, eq_comm]

theorem mem_compute_twopf_drop_list {serials : Finset ℕ} {db : ConfigDatabase} {j : ℕ} :
    j ∈ compute_twopf_drop_list serials db
      ↔ ∃ u ∈ db.threepf, u.serial ∈ serials ∧ u.Stores j := by
  rw [compute_twopf_drop_list,
    mem_foldl_iff_of_adds (P := fun serial j => ∃ u, db.find serial = some u ∧ u.Stores j)]
  · simp only [Finset.notMem_empty, Finset.mem_sort, ConfigDatabase.find_eq_some_iff, false_or]
    constructor
    · rintro ⟨s, hs, u, ⟨hu, rfl⟩, hj⟩
      exact ⟨u, hu, hs, hj⟩
    · rintro ⟨u, hu, hs, hj⟩
      exact ⟨u.serial, hs, u, ⟨hu, rfl⟩, hj⟩
  · intro acc serial x
    cases db.find serial with
    | none => simp
    | some u => simp [ThreepfRecord.Stores, or_assoc]

/-- Where no two records store the same twopf configuration, the first that does is the only one. -/
theorem mem_map_twopf_to_threepf_serials {twopf_list : Finset ℕ} {db : ConfigDatabase} {s : ℕ}
    (sub : ∀ j ∈ twopf_list, j ∈ db.twopf) (flagged : db.FlaggedAtMostOnce) :
    s ∈ map_twopf_to_threepf_serials twopf_list db
      ↔ ∃ u ∈ db.threepf, u.serial = s ∧ ∃ j ∈ twopf_list, u.Stores j := by
  rw [map_twopf_to_threepf_serials, mem_foldl_iff_of_adds (P := fun j s =>
    ∃ u, db.threepf.find? (fun u => decide (u.Stores j)) = some u ∧ u.serial = s)]
  · simp only [Finset.notMem_empty, Finset.mem_sort, false_or]
    constructor
    · rintro ⟨j, hj, u, hfind, hs⟩
      have stores : u.Stores j := by simpa using List.find?_some hfind
      exact ⟨u, List.mem_of_find?_eq_some hfind, hs, j, hj, stores⟩
    · rintro ⟨u, hu, hs, j, hj, stores⟩
      obtain ⟨v, hv⟩ : ∃ v, db.threepf.find? (fun u => decide (u.Stores j)) = some v :=
        Option.isSome_iff_exists.mp (List.find?_isSome.mpr ⟨u, hu, by simpa using stores⟩)
      have : v = u := flagged j (sub j hj) v (List.mem_of_find?_eq_some hv) u hu
        (by simpa using List.find?_some hv) stores
      exact ⟨j, hj, v, hv, by rw [this, hs]⟩
  · intro acc j x
    cases db.threepf.find? (fun u => decide (u.Stores j)) with
    | none => simp
    | some u => simp [or_comm, eq_comm]

/-! ### A container with the missing configurations taken out -/

section Repair

variable {α β σ : Type*} {db : ConfigDatabase} {collects : σ → Bool} {w : Writer}
  {c : Container α β σ V} {u : ThreepfRecord}

/-- Every table holds what it should of the configuration: its own rows, and those of the twopf
configurations that it is flagged to store. -/
def Complete (db : ConfigDatabase) (c : Container α β σ V) (u : ThreepfRecord) : Prop :=
  (∀ a, u.serial ∈ stored_serials (c.threepf_tables a))
    ∧ ∀ j ∈ db.twopf, u.Stores j → ∀ b, j ∈ stored_serials (c.twopf_tables b)

/-- The container without the rows of the configurations `M` and of the twopf configurations that
they store, in each table that the check drops from. -/
def Container.without (c : Container α β σ V) (collects : σ → Bool) (db : ConfigDatabase)
    (M : Finset ℕ) : Container α β σ V :=
  { c with
    threepf_tables := fun a => (c.threepf_tables a).filter fun row => row.kserial ∉ M
    twopf_tables := fun b => (c.twopf_tables b).filter fun row =>
      ¬ ∃ u ∈ db.threepf, u.serial ∈ M ∧ u.Stores row.kserial
    side_tables := fun i =>
      if collects i then (c.side_tables i).filter fun row => row.kserial ∉ M else c.side_tables i }

theorem mem_stored_serials_filter {table : List (Row V)} (p : ℕ → Prop) [DecidablePred p] {s : ℕ} :
    s ∈ stored_serials (table.filter fun row => p row.kserial)
      ↔ s ∈ stored_serials table ∧ p s := by
  simp only [mem_stored_serials, List.mem_filter, decide_eq_true_eq]
  constructor
  · rintro ⟨row, ⟨hrow, hp⟩, rfl⟩
    exact ⟨⟨row, hrow, rfl⟩, hp⟩
  · rintro ⟨⟨row, hrow, rfl⟩, hp⟩
    exact ⟨row, ⟨hrow, hp⟩, rfl⟩

@[simp] theorem mem_threepf_without {M : Finset ℕ} {a : α} {s : ℕ} :
    s ∈ stored_serials ((c.without collects db M).threepf_tables a)
      ↔ s ∈ stored_serials (c.threepf_tables a) ∧ s ∉ M :=
  mem_stored_serials_filter fun s => s ∉ M

@[simp] theorem mem_twopf_without {M : Finset ℕ} {b : β} {j : ℕ} :
    j ∈ stored_serials ((c.without collects db M).twopf_tables b)
      ↔ j ∈ stored_serials (c.twopf_tables b) ∧ ¬ ∃ u ∈ db.threepf, u.serial ∈ M ∧ u.Stores j :=
  mem_stored_serials_filter fun j => ¬ ∃ u ∈ db.threepf, u.serial ∈ M ∧ u.Stores j

theorem mem_side_without {M : Finset ℕ} {i : σ} {s : ℕ} (hi : collects i) :
    s ∈ stored_serials ((c.without collects db M).side_tables i)
      ↔ s ∈ stored_serials (c.side_tables i) ∧ s ∉ M := by
  simp only [Container.without, hi, if_true]
  exact mem_stored_serials_filter fun s => s ∉ M

/-- Taking out some configurations, and then these and others, is taking out all at once. -/
theorem Container.without_without_of_subset {M N : Finset ℕ} (sub : M ⊆ N) :
    (c.without collects db M).without collects db N = c.without collects db N := by
  have rows : ∀ row : Row V, (decide (row.kserial ∉ N) && decide (row.kserial ∉ M)) = decide (row.kserial ∉ N) :=
    fun row => by
      rw [← Bool.decide_and, decide_eq_decide]
      exact and_iff_left_of_imp fun hN hM => hN (sub hM)
  have twopf : ∀ row : Row V,
      (decide (¬ ∃ u ∈ db.threepf, u.serial ∈ N ∧ u.Stores row.kserial) &&
        decide (¬ ∃ u ∈ db.threepf, u.serial ∈ M ∧ u.Stores row.kserial)) =
      decide (¬ ∃ u ∈ db.threepf, u.serial ∈ N ∧ u.Stores row.kserial) := fun row => by
    rw [← Bool.decide_and, decide_eq_decide]
    exact and_iff_left_of_imp fun hN ⟨u, hu, hM, hj⟩ => hN ⟨u, hu, sub hM, hj⟩
  simp only [Container.without, List.filter_filter, rows, twopf]
  congr 1
  funext i
  split
  · simp only [List.filter_filter, rows]
  · rfl

/-- Taking out the same configurations twice is taking them out once. -/
theorem Container.without_without (M : Finset ℕ) :
    (c.without collects db M).without collects db M = c.without collects db M :=
  Container.without_without_of_subset (Finset.Subset.refl M)

/-! ### The check repairs a container -/

/-- A container of the task, whatever rows it has. -/
structure OfTask (db : ConfigDatabase) (c : Container α β σ V) : Prop where
  /-- The sample tables were made from the databases of the task. -/
  twopf_samples : c.twopf_samples = db.twopf
  /-- The sample tables were made from the databases of the task. -/
  threepf_samples : c.threepf_samples = db.threepf_serials
  /-- The rows belong to configurations of the task. -/
  threepf_rows : ∀ a, ∀ row ∈ c.threepf_tables a, row.kserial ∈ db.threepf_serials
  /-- The rows belong to configurations of the task. -/
  twopf_rows : ∀ b, ∀ row ∈ c.twopf_tables b, row.kserial ∈ db.twopf
  /-- The rows belong to configurations of the task. -/
  side_rows : ∀ i, ∀ row ∈ c.side_tables i, row.kserial ∈ db.threepf_serials

/-- The list of missing serials, empty at first, names nothing that is complete and did not fail. -/
def Listed (db : ConfigDatabase) (w : Writer) (c : Container α β σ V) : Prop :=
  ∀ s ∈ w.missing_serials,
    s ∈ w.failed_serials ∨ ∃ u ∈ db.threepf, u.serial = s ∧ ¬ Complete db c u

theorem OfTask.without (h : OfTask db c) (M : Finset ℕ) : OfTask db (c.without collects db M) := by
  constructor
  case twopf_samples => exact h.twopf_samples
  case threepf_samples => exact h.threepf_samples
  case threepf_rows => exact fun a row hrow => h.threepf_rows a row (List.mem_of_mem_filter hrow)
  case twopf_rows => exact fun b row hrow => h.twopf_rows b row (List.mem_of_mem_filter hrow)
  case side_rows =>
    intro i row hrow
    refine h.side_rows i row ?_
    simp only [Container.without] at hrow
    split at hrow
    · exact List.mem_of_mem_filter hrow
    · exact hrow

/-- What is true of the writer `w'` and the container `c'` after the check of `w` and `c`. -/
structure Repaired (collects : σ → Bool) (db : ConfigDatabase) (w : Writer) (c : Container α β σ V)
    (w' : Writer) (c' : Container α β σ V) : Prop where
  /-- Every threepf-indexed table has the configurations that are not listed as missing. -/
  threepf : ∀ a, stored_serials (c'.threepf_tables a)
    = db.threepf_serials.toFinset \ w'.missing_serials
  /-- A twopf configuration whose storing configuration was kept is in every twopf-indexed table. -/
  twopf_kept : ∀ u ∈ db.threepf, u.serial ∉ w'.missing_serials →
    ∀ j ∈ db.twopf, u.Stores j → ∀ b, j ∈ stored_serials (c'.twopf_tables b)
  /-- One whose storing configuration was not kept is in none. -/
  twopf_dropped : ∀ u ∈ db.threepf, u.serial ∈ w'.missing_serials →
    ∀ j, u.Stores j → ∀ b, j ∉ stored_serials (c'.twopf_tables b)
  /-- No configuration reported as failed is present. -/
  failed_dropped : ∀ s ∈ w.failed_serials, (∀ a, s ∉ stored_serials (c'.threepf_tables a))
    ∧ ∀ i, collects i → s ∉ stored_serials (c'.side_tables i)
  /-- Only rows of the missing configurations were removed. -/
  nothing_else : c' = c.without collects db w'.missing_serials
  /-- A configuration is missing if it failed or was not complete, and for no other reason. -/
  missing_iff : ∀ s, s ∈ w'.missing_serials
    ↔ s ∈ w.failed_serials ∨ ∃ u ∈ db.threepf, u.serial = s ∧ ¬ Complete db c u
  /-- The lists of failures are the same. -/
  failed_eq : w'.failed_serials = w.failed_serials

/-- After the check a configuration is complete exactly if it is not listed. -/
theorem Repaired.complete_iff [Nonempty α] {w' : Writer} {c' : Container α β σ V}
    (h : Repaired collects db w c w' c') (hu : u ∈ db.threepf) :
    Complete db c' u ↔ u.serial ∉ w'.missing_serials := by
  constructor
  · intro complete
    have hrow := complete.1 (Classical.arbitrary α)
    rw [h.threepf, Finset.mem_sdiff] at hrow
    exact hrow.2
  · intro hs
    refine ⟨fun a => ?_, h.twopf_kept u hu hs⟩
    rw [h.threepf, Finset.mem_sdiff, List.mem_toFinset]
    exact ⟨List.mem_map.mpr ⟨u, hu, rfl⟩, hs⟩

/-- Rows of other configurations are not needed to be complete. -/
theorem Complete.without (flagged : db.FlaggedAtMostOnce) (hu : u ∈ db.threepf) (h : Complete db c u) {M : Finset ℕ}
    (hs : u.serial ∉ M) : Complete db (c.without collects db M) u := by
  refine ⟨fun a => mem_threepf_without.mpr ⟨h.1 a, hs⟩, fun j hj stores b => ?_⟩
  refine mem_twopf_without.mpr ⟨h.2 j hj stores b, ?_⟩
  -- the only configuration that stores `j` is `u` itself, which is not listed
  rintro ⟨v, hv, hvs, vstores⟩
  exact hs (flagged j hj v hv u hu vstores stores ▸ hvs)

variable [Fintype α] [Fintype β]

theorem mem_total_missing (flagged : db.FlaggedAtMostOnce) (h : OfTask db c) (s : ℕ) :
    s ∈ total_missing db w c
      ↔ s ∈ w.failed_serials ∨ ∃ u ∈ db.threepf, u.serial = s ∧ ¬ Complete db c u := by
  have sub : ∀ j ∈ Finset.univ.biUnion fun b =>
      get_missing_serials c.twopf_samples (c.twopf_tables b), j ∈ db.twopf := by
    intro j hj
    simp only [Finset.mem_biUnion, mem_get_missing_serials, h.twopf_samples] at hj
    obtain ⟨b, -, hj, -⟩ := hj
    exact hj
  simp only [total_missing, Finset.mem_union, mem_find_failed_but_undropped_serials,
    mem_map_twopf_to_threepf_serials sub flagged]
  simp only [Finset.mem_biUnion, Finset.mem_univ, true_and, mem_get_missing_serials,
    h.twopf_samples, h.threepf_samples, ConfigDatabase.threepf_serials, List.mem_map]
  constructor
  · rintro ((⟨a, ⟨u, hu, rfl⟩, ha⟩ | ⟨hs, -⟩) | ⟨u, hu, rfl, j, ⟨b, hj, hb⟩, stores⟩)
    · exact .inr ⟨u, hu, rfl, fun complete => ha (complete.1 a)⟩
    · exact .inl hs
    · exact .inr ⟨u, hu, rfl, fun complete => hb (complete.2 j hj stores b)⟩
  · rintro (hs | ⟨u, hu, rfl, incomplete⟩)
    · by_cases hm : ∃ a, (∃ u ∈ db.threepf, u.serial = s) ∧ s ∉ stored_serials (c.threepf_tables a)
      · exact .inl (.inl hm)
      · exact .inl (.inr ⟨hs, hm⟩)
    · by_cases ha : ∀ a, u.serial ∈ stored_serials (c.threepf_tables a)
      · simp only [Complete, not_and, not_forall] at incomplete
        obtain ⟨j, hj, stores, b, hb⟩ := incomplete ha
        exact .inr ⟨u, hu, rfl, j, ⟨b, hj, hb⟩, stores⟩
      · obtain ⟨a, ha⟩ := not_forall.mp ha
        exact .inl (.inl ⟨a, ⟨u, hu, rfl⟩, ha⟩)

/-- The handler takes the missing configurations out of the container and lists them. -/
theorem integrity_handler_eq (h : OfTask db c) :
    integrity_handler collects db w c
      = (if (total_missing db w c).Nonempty
          then { w with fail := true, missing_serials := total_missing db w c } else w,
        c.without collects db (total_missing db w c)) := by
  rw [integrity_handler]
  simp only [Finset.card_pos]
  by_cases hm : (total_missing db w c).Nonempty
  · have threepf : ∀ a, drop_configurations (total_missing db w c)
        (get_missing_serials c.threepf_samples (c.threepf_tables a)) db.threepf_serials
        (c.threepf_tables a)
          = (c.threepf_tables a).filter fun row => row.kserial ∉ total_missing db w c := by
      intro a
      refine drop_configurations_eq (h.threepf_rows a) fun row hrow => ?_
      simp only [mem_get_missing_serials, not_and, not_not]
      exact fun _ => mem_stored_serials.mpr ⟨row, hrow, rfl⟩
    have twopf : ∀ b, drop_configurations (compute_twopf_drop_list (total_missing db w c) db)
        (get_missing_serials c.twopf_samples (c.twopf_tables b)) db.twopf (c.twopf_tables b)
          = (c.twopf_tables b).filter fun row =>
            ¬ ∃ u ∈ db.threepf, u.serial ∈ total_missing db w c ∧ u.Stores row.kserial := by
      intro b
      rw [drop_configurations_eq (h.twopf_rows b) fun row hrow => ?_]
      · simp only [mem_compute_twopf_drop_list]
      · simp only [mem_get_missing_serials, not_and, not_not]
        exact fun _ => mem_stored_serials.mpr ⟨row, hrow, rfl⟩
    simp only [if_pos hm, threepf, twopf, drop_side_configurations_eq (h.side_rows _)]
    rfl
  · have none : total_missing db w c = ∅ := Finset.not_nonempty_iff_eq_empty.mp hm
    rw [if_neg hm, if_neg hm, none]
    simp [Container.without]

/-- So the list of missing serials is up to date even where the handler finds nothing to do. -/
theorem missing_serials_handler (flagged : db.FlaggedAtMostOnce) (h : OfTask db c)
    (listed : Listed db w c) :
    (integrity_handler collects db w c).1.missing_serials = total_missing db w c := by
  rw [integrity_handler_eq h]
  by_cases hm : (total_missing db w c).Nonempty
  · rw [if_pos hm]
  · rw [if_neg hm]
    ext s
    constructor
    · intro hs
      exact (mem_total_missing flagged h s).mpr (listed s hs)
    · intro hs
      exact absurd ⟨s, hs⟩ hm

theorem failed_serials_handler (collects : σ → Bool) (db : ConfigDatabase) (w : Writer)
    (c : Container α β σ V) :
    (integrity_handler collects db w c).1.failed_serials = w.failed_serials := by
  rw [integrity_handler]
  split <;> rfl

/-- A configuration that is not listed is complete, before the rows are dropped and after. -/
theorem complete_of_not_missing (flagged : db.FlaggedAtMostOnce) (h : OfTask db c)
    (hu : u ∈ db.threepf) (hs : u.serial ∉ total_missing db w c) :
    Complete db (c.without collects db (total_missing db w c)) u := by
  have complete : Complete db c u := by
    by_contra hc
    exact hs ((mem_total_missing flagged h _).mpr (.inr ⟨u, hu, rfl, hc⟩))
  exact complete.without flagged hu hs

/-- **One check repairs the container.** -/
theorem integrity_handler_repaired (flagged : db.FlaggedAtMostOnce) (h : OfTask db c)
    (listed : Listed db w c) :
    Repaired collects db w c (integrity_handler collects db w c).1
      (integrity_handler collects db w c).2 := by
  have container : (integrity_handler collects db w c).2
      = c.without collects db (total_missing db w c) := by rw [integrity_handler_eq h]
  rw [container]
  constructor
  case threepf =>
    intro a
    rw [missing_serials_handler flagged h listed]
    ext s
    rw [mem_threepf_without, Finset.mem_sdiff, List.mem_toFinset]
    refine and_congr_left fun hs => ⟨?_, fun hd => ?_⟩
    · intro present
      obtain ⟨row, hrow, rfl⟩ := mem_stored_serials.mp present
      exact h.threepf_rows a row hrow
    · obtain ⟨u, hu, rfl⟩ := List.mem_map.mp hd
      have complete : Complete db (c.without collects db _) u := complete_of_not_missing flagged h hu hs
      exact (mem_threepf_without.mp (complete.1 a)).1
  case twopf_kept =>
    intro u hu hs
    rw [missing_serials_handler flagged h listed] at hs
    exact (complete_of_not_missing flagged h hu hs).2
  case twopf_dropped =>
    intro u hu hs j stores b hb
    rw [missing_serials_handler flagged h listed] at hs
    exact (mem_twopf_without.mp hb).2 ⟨u, hu, hs, stores⟩
  case failed_dropped =>
    intro s hs
    have missing : s ∈ total_missing db w c := (mem_total_missing flagged h s).mpr (.inl hs)
    exact ⟨fun a ha => (mem_threepf_without.mp ha).2 missing,
      fun i hi hrow => ((mem_side_without hi).mp hrow).2 missing⟩
  case nothing_else => rw [missing_serials_handler flagged h listed]
  case missing_iff =>
    intro s
    rw [missing_serials_handler flagged h listed]
    exact mem_total_missing flagged h s
  case failed_eq => exact failed_serials_handler collects db w c

/-- A second check, by a writer with more failures, finds these and what the first check found. -/
theorem Repaired.total_missing_union [Nonempty α] (flagged : db.FlaggedAtMostOnce) (h : OfTask db c)
    {w' w₂ : Writer} {c' : Container α β σ V} (hr : Repaired collects db w c w' c') {D : Finset ℕ}
    (hw : w₂.failed_serials = w.failed_serials ∪ D) : total_missing db w₂ c' = w'.missing_serials ∪ D := by
  have h' : OfTask db c' := hr.nothing_else ▸ h.without _
  ext s
  rw [mem_total_missing flagged h', hw, Finset.mem_union, Finset.mem_union]
  constructor
  · rintro ((hs | hs) | ⟨u, hu, rfl, incomplete⟩)
    · exact .inl ((hr.missing_iff s).mpr (.inl hs))
    · exact .inr hs
    · rw [hr.complete_iff hu, not_not] at incomplete
      exact .inl incomplete
  · rintro (hs | hs)
    · obtain failed | ⟨u, hu, rfl, -⟩ := (hr.missing_iff s).mp hs
      · exact .inl (.inl failed)
      · exact .inr ⟨u, hu, rfl, by rwa [hr.complete_iff hu, not_not]⟩
    · exact .inl (.inr hs)

/-- One by a writer with the same failures finds what the first check found. -/
theorem Repaired.total_missing_eq [Nonempty α] (flagged : db.FlaggedAtMostOnce) (h : OfTask db c)
    {w' w₂ : Writer} {c' : Container α β σ V} (hr : Repaired collects db w c w' c')
    (hw : w₂.failed_serials = w.failed_serials) : total_missing db w₂ c' = w'.missing_serials := by
  simpa using hr.total_missing_union flagged h (D := ∅) (by simpa using hw)

/-- **A repaired container is left as it is.** -/
theorem Repaired.container_again [Nonempty α] (flagged : db.FlaggedAtMostOnce) (h : OfTask db c)
    {w' w₂ : Writer} {c' : Container α β σ V} (hr : Repaired collects db w c w' c')
    (hw : w₂.failed_serials = w.failed_serials) : (integrity_handler collects db w₂ c').2 = c' := by
  have h' : OfTask db c' := hr.nothing_else ▸ h.without _
  calc (integrity_handler collects db w₂ c').2
      = c'.without collects db (total_missing db w₂ c') := by rw [integrity_handler_eq h']
    _ = c'.without collects db w'.missing_serials := by rw [hr.total_missing_eq flagged h hw]
    _ = c' := by rw [hr.nothing_else, Container.without_without]

/-- **Running the check again changes nothing**, in the container or in the writer. -/
theorem integrity_handler_again [Nonempty α] (flagged : db.FlaggedAtMostOnce) (h : OfTask db c)
    (listed : Listed db w c) :
    integrity_handler collects db (integrity_handler collects db w c).1
        (integrity_handler collects db w c).2 = integrity_handler collects db w c := by
  have hr : Repaired collects db w c _ _ := integrity_handler_repaired flagged h listed
  have total : total_missing db (integrity_handler collects db w c).1
      (integrity_handler collects db w c).2 = total_missing db w c := by
    rw [hr.total_missing_eq flagged h hr.failed_eq, missing_serials_handler flagged h listed]
  have h' : OfTask db (integrity_handler collects db w c).2 := hr.nothing_else ▸ h.without _
  refine Prod.ext ?_ (hr.container_again flagged h hr.failed_eq)
  rw [integrity_handler_eq h', total, integrity_handler_eq h]
  split <;> rfl

end Repair

/-! ### Both handlers -/

/-- What is asked of a handler, for every container of the task and every list of failures: one run
repairs the container; the same writer's next run changes nothing, nor does the run of another
writer with the same failures. -/
def Repairs {α β σ W : Type*} (handler : W → Container α β σ V → W × Container α β σ V)
    (lists : W → Writer) (collects : W → σ → Bool) (db : ConfigDatabase) : Prop :=
  ∀ w c, OfTask db c → Listed db (lists w) c →
    Repaired (collects w) db (lists w) c (lists (handler w c).1) (handler w c).2
      ∧ handler (handler w c).1 (handler w c).2 = handler w c
      ∧ ∀ w₂, (lists w₂).failed_serials = (lists w).failed_serials → collects w₂ = collects w →
          (handler w₂ (handler w c).2).2 = (handler w c).2

/-- **The integrity check**: both handlers leave every container consistent with the writer's list
of missing serials, remove nothing else, and have nothing to do when they are run again. -/
theorem integrity_handlers_repair (V : Type*) (db : ConfigDatabase) (flagged : db.FlaggedOnce) :
    Repairs (V := V) (check_threepf_integrity_handler db) IntegrationWriter.toWriter
        IntegrationWriter.collects db
      ∧ Repairs (V := V) (check_zeta_threepf_integrity_handler db) id (fun _ => Empty.elim) db := by
  have : Nonempty ThreepfTable := ⟨.threepf_momentum⟩
  have : Nonempty ZetaThreepfTable := ⟨.zeta_threepf⟩
  constructor
  · intro w c h listed
    have hr : Repaired w.collects db w.toWriter c _ _ := integrity_handler_repaired flagged.atMostOnce h listed
    refine ⟨hr, ?_, fun w₂ hw hc => ?_⟩
    · have again : integrity_handler w.collects db _ _ = integrity_handler w.collects db w.toWriter c :=
        integrity_handler_again flagged.atMostOnce h listed
      exact congrArg (fun r => ({ w with toWriter := r.1 }, r.2)) again
    · simp only [check_threepf_integrity_handler, hc]
      exact hr.container_again flagged.atMostOnce h hw
  · intro w c h listed
    have hr : Repaired Empty.elim db w c _ _ := integrity_handler_repaired flagged.atMostOnce h listed
    exact ⟨hr, integrity_handler_again flagged.atMostOnce h listed,
      fun w₂ hw _ => hr.container_again flagged.atMostOnce h hw⟩

/-- Two squeezed configurations, `0` storing three twopf configurations and `1` one more. -/
def twoTriangles : ConfigDatabase where
  twopf := [0, 1, 2, 3]
  threepf := [⟨0, 0, 1, 2, true, true, true⟩, ⟨1, 1, 2, 3, false, false, true⟩]
  threepf_sorted := by decide

/-- A container of `twoTriangles` in which the imaginary part of twopf configuration `3` is missing. -/
def holedContainer : Container ThreepfTable TwopfTable SideTable Unit where
  twopf_samples := [0, 1, 2, 3]
  threepf_samples := [0, 1]
  threepf_tables _ := [⟨0, ()⟩, ⟨1, ()⟩]
  twopf_tables
    | .twopf_im => [⟨0, ()⟩, ⟨1, ()⟩, ⟨2, ()⟩]
    | _ => [⟨0, ()⟩, ⟨1, ()⟩, ⟨2, ()⟩, ⟨3, ()⟩]
  side_tables _ := []

theorem twoTriangles_flaggedOnce : twoTriangles.FlaggedOnce := by
  have stored : ∀ j ∈ twoTriangles.twopf, ∃ u ∈ twoTriangles.threepf, u.Stores j
      ∧ ∀ v ∈ twoTriangles.threepf, v.Stores j → v.serial = u.serial := by decide
  intro j hj
  obtain ⟨u, hu, stores, unique⟩ := stored j hj
  exact ⟨u, ⟨hu, stores⟩, fun v hv => ConfigDatabase.eq_of_serial_eq hv.1 hu (unique v hv.1 hv.2)⟩

theorem integrity_handlers_repair_holedContainer :
    Repaired (fun _ => true) twoTriangles ⟨false, ∅, ∅⟩ holedContainer
      (check_threepf_integrity_handler twoTriangles ⟨⟨false, ∅, ∅⟩, true, true⟩ holedContainer).1.toWriter
      (check_threepf_integrity_handler twoTriangles ⟨⟨false, ∅, ∅⟩, true, true⟩ holedContainer).2 := by
  have collects : IntegrationWriter.collects ⟨⟨false, ∅, ∅⟩, true, true⟩ = fun _ => true := by
    funext i
    cases i <;> rfl
  rw [← collects]
  refine ((integrity_handlers_repair Unit twoTriangles twoTriangles_flaggedOnce).1
    ⟨⟨false, ∅, ∅⟩, true, true⟩ holedContainer ?_ ?_).1
  · constructor
    case twopf_samples => rfl
    case threepf_samples => rfl
    case threepf_rows => exact fun _ => by simp [holedContainer, twoTriangles, ConfigDatabase.threepf_serials]
    case twopf_rows => intro b; cases b <;> simp [holedContainer, twoTriangles]
    case side_rows => simp [holedContainer]
  · simp [Listed]

end CppTransport.Runtime
