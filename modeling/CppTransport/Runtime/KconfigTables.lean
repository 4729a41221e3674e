import CppTransport.Runtime.ThreepfDatabase

/-!
# Configuration databases in an sqlite container

A threepf task keeps its two configuration databases in a container of their own.
`write` makes a table and inserts one row for each record; a constructor runs over the rows
of a table and builds a database. The rows have neither the index, nor the extremes and
the next serial number, nor the wavenumbers on the legs of a triangle: the constructors
work these out, the last from the twopf records whose serial numbers the row has.

## The model

A table is the list of its rows in the order of their primary keys, and a query returns
them in this order, as they were inserted. An `INSERT` fails if the primary key is there,
or if a foreign key is not. Where a constructor dereferences an iterator to a record that
is not there it has no result. Of the assertion that a record read is new, which always
holds of a table with a primary key, and of the texts of the statements, nothing is modelled.

## What is proved

* `twopf_kconfig_database.read_rows`, `threepf_kconfig_database.read_rows`: what is built
  from the rows of any list of records;
* `roundTrips_iff`: for databases in good order, writing and reading back gives the same
  databases if and only if each record has a place in the index and each leg of a triangle
  has just the wavenumber of its record.
-/

set_option linter.unusedSectionVars false

namespace CppTransport.Runtime

open Library

namespace Kconfig

variable {K : Type*} [Field K] [LinearOrder K] [IsStrictOrderedRing K]

/-- A `bool` as it is bound to a statement. -/
def int_of_flag (b : Bool) : ℤ := if b then 1 else 0

/-- A row of `twopf_kconfig`. -/
structure twopf_row (K : Type*) where
  serial : ℕ
  conventional : K
  comoving : K
  t_exit : K
  t_massless : K
  store_bg : ℤ
  is_stored : ℤ
  deriving DecidableEq

/-- A row of `threepf_kconfig`. -/
structure threepf_row (K : Type*) where
  serial : ℕ
  kt_conventional : K
  kt_comoving : K
  alpha : K
  beta : K
  wavenumber1 : ℕ
  wavenumber2 : ℕ
  wavenumber3 : ℕ
  t_exit_kt : K
  t_massless : K
  store_bg : ℤ
  store_k1 : ℤ
  store_k2 : ℤ
  store_k3 : ℤ
  deriving DecidableEq

/-! ### The twopf database -/

/-- The values that `write` binds for a record. -/
def twopf_kconfig_record.row (r : twopf_kconfig_record K) : twopf_row K where
  serial := r.serial
  conventional := r.k_conventional
  comoving := r.k_comoving
  t_exit := r.t_exit
  t_massless := r.t_massless
  store_bg := int_of_flag r.store_background
  is_stored := int_of_flag r.stored

/-- The record that the constructor makes of a row, before it is marked as stored. -/
def twopf_row.record (row : twopf_row K) : twopf_kconfig_record K where
  serial := row.serial
  k_conventional := row.conventional
  k_comoving := row.comoving
  t_exit := row.t_exit
  t_massless := row.t_massless
  store_background := row.store_bg ≠ 0
  stored := false

namespace twopf_kconfig_database

/-- `write`: the table, and the database afterwards. -/
def write (db : twopf_kconfig_database K) : Option (List (twopf_row K) × twopf_kconfig_database K) :=
  (db.database.foldlM (fun table r => insertByKey (·.serial) table r.row) []).map fun table =>
    (table, { db with modified := false })

/-- One round of the loop of the constructor that reads a container. -/
def read_row (db : twopf_kconfig_database K) (row : twopf_row K) : twopf_kconfig_database K :=
  let r := row.record
  let db := { db with
    serial := if r.serial + 1 > db.serial then r.serial + 1 else db.serial
    toExtremes := db.toExtremes.update r.k_conventional r.k_comoving
    database := emplaceBySerial (·.serial) r db.database }
  let db := if row.is_stored ≠ 0 then db.set_stored r.serial else db
  { db with index_on_k := TolerantIndex.emplace ReverseKLookupComparator r.k_conventional r.serial db.index_on_k }

/-- The constructor that reads a container. -/
def read (cn : K) (table : List (twopf_row K)) : twopf_kconfig_database K :=
  table.foldl read_row
    { toExtremes := .initial
      database := []
      index_on_k := []
      serial := 0
      modified := false
      store_background := false
      comoving_normalization := cn }

variable {db : twopf_kconfig_database K} {l : List (twopf_kconfig_record K)} {r : twopf_kconfig_record K}

theorem flag_ne_zero (b : Bool) : decide (int_of_flag b ≠ 0) = b := by cases b <;> simp [int_of_flag]

theorem flag_pos (b : Bool) : decide (int_of_flag b > 0) = b := by cases b <;> simp [int_of_flag]

theorem write_eq (sorted : db.database.Pairwise fun r r' => r.serial < r'.serial) :
    db.write = some (db.database.map (·.row), { db with modified := false }) := by
  have inserted : ∀ l : List (twopf_kconfig_record K), (l.Pairwise fun r r' => r.serial < r'.serial) →
      l.foldlM (fun table r => insertByKey (·.serial) table r.row) [] = some (l.map (·.row)) := by
    intro l sorted
    induction l using List.reverseRecOn with
    | nil => rfl
    | append_singleton l r ih =>
      obtain ⟨sorted, -, below⟩ := List.pairwise_append.mp sorted
      have above : ∀ x ∈ l.map (·.row), x.serial < r.row.serial := fun x hx => by
        obtain ⟨r', hr', rfl⟩ := List.mem_map.mp hx
        exact below r' hr' r (List.mem_singleton.mpr rfl)
      rw [List.foldlM_append, ih sorted, List.map_append]
      simp only [Option.bind_eq_bind, Option.bind_some, List.foldlM_cons, List.foldlM_nil,
        insertByKey_eq_append above, List.map_cons, List.map_nil, Option.pure_def]
  rw [write, inserted _ sorted]
  rfl

theorem record_row (r : twopf_kconfig_record K) : r.row.record = { r with stored := false } := by
  have flag := flag_ne_zero r.store_background
  rw [twopf_row.record, ← flag]
  rfl

/-- Marking a record that has just been put at the end. -/
theorem set_stored_append {l : List (twopf_kconfig_record K)} (above : ∀ x ∈ l, x.serial < r.serial) :
    (l ++ [r]).map (fun x => if x.serial = r.serial then { x with stored := true } else x) =
      l ++ [{ r with stored := true }] := by
  have fixed : l.map (fun x => if x.serial = r.serial then { x with stored := true } else x) = l :=
    (List.map_congr_left fun x hx => if_neg (above x hx).ne).trans (List.map_id _)
  rw [List.map_append, fixed, List.map_singleton, if_pos rfl]

/-- The row of a record, read after those of smaller serial numbers, gives the record back. -/
theorem read_row_row (above : ∀ x ∈ db.database, x.serial < r.serial) : db.read_row r.row =
    { db with
      serial := if r.serial ≥ db.serial then r.serial + 1 else db.serial
      toExtremes := db.toExtremes.update r.k_conventional r.k_comoving
      database := db.database ++ [r]
      index_on_k := TolerantIndex.emplace ReverseKLookupComparator r.k_conventional r.serial db.index_on_k } := by
  have appended : emplaceBySerial (·.serial) { r with stored := false } db.database =
      db.database ++ [{ r with stored := false }] := emplaceBySerial_eq_append above
  have marked := set_stored_append (r := { r with stored := false }) above
  obtain ⟨serial, k_comoving, k_conventional, t_exit, t_massless, store_background, stored⟩ := r
  cases stored with
  | true =>
    simp only [read_row, record_row, appended]
    simp only [twopf_kconfig_record.row, int_of_flag, if_true, ne_eq, one_ne_zero, not_false_eq_true, set_stored,
      marked, gt_iff_lt, Nat.lt_succ_iff, ge_iff_le]
  | false =>
    simp only [read_row, record_row, appended]
    simp only [twopf_kconfig_record.row, int_of_flag, ne_eq, not_true_eq_false, if_false, Bool.false_eq_true,
      gt_iff_lt, Nat.lt_succ_iff, ge_iff_le]

/-- **What is read** from the rows of a list of records. -/
theorem read_rows (cn : K) (sorted : l.Pairwise fun r r' => r.serial < r'.serial) : read cn (l.map (·.row)) =
    { toExtremes := extremes_of l .initial
      database := l
      index_on_k := TolerantIndex.insert_all ReverseKLookupComparator (l.map entry)
      serial := next_serial l 0
      modified := false
      store_background := false
      comoving_normalization := cn } := by
  induction l using List.reverseRecOn with
  | nil => rfl
  | append_singleton l r ih =>
    obtain ⟨sorted, -, below⟩ := List.pairwise_append.mp sorted
    have ih := ih sorted
    rw [read] at ih ⊢
    rw [List.map_append, List.foldl_append, ih, List.map_singleton, List.foldl_cons, List.foldl_nil,
      read_row_row fun x hx => below x hx r (List.mem_singleton.mpr rfl)]
    simp only [List.map_append, List.map_singleton, TolerantIndex.insert_all_concat, extremes_of, next_serial,
      List.foldl_append, List.foldl_cons, List.foldl_nil, entry]
    rfl

/-- What holds of a database that was built by additions and deletions. -/
structure Built (cn : K) (db : twopf_kconfig_database K) : Prop where
  /-- Keys of the index are told apart by the comparator, -/
  separated : TolerantIndex.Separated ReverseKLookupComparator db.index_on_k
  /-- and each is that of a record. -/
  index : db.index_on_k ⊆ db.entries
  sorted : db.database.Pairwise fun r r' => r.serial < r'.serial
  extremes : db.toExtremes = extremes_of db.database .initial
  serial : db.serial = next_serial db.database 0
  normalization : db.comoving_normalization = cn
  comoving : ∀ r ∈ db.database, r.k_comoving = r.k_conventional * cn

/-- Each record has a place in the index: an entry of its own, or one of an earlier record within the tolerance. -/
def Represented (db : twopf_kconfig_database K) : Prop :=
  ∀ e ∈ db.entries, TolerantIndex.Represents ReverseKLookupComparator db.index_on_k e

theorem entries_sorted (sorted : db.database.Pairwise fun r r' => r.serial < r'.serial) :
    db.entries.Pairwise fun e e' => e.2 < e'.2 := List.pairwise_map.mpr sorted

/-- **Index**: reading the records gives it back just if each of them has a place in it. -/
theorem Built.insert_all_eq_iff {cn : K} (h : Built cn db) :
    TolerantIndex.insert_all ReverseKLookupComparator db.entries = db.index_on_k ↔ Represented db :=
  TolerantIndex.insert_all_eq_iff tolerant_comparator h.separated h.index (entries_sorted h.sorted)

theorem Built.lookup_iff {cn : K} (h : Built cn db) {s : ℕ} :
    db.lookup s = some r ↔ r ∈ db.database ∧ r.serial = s :=
  find?_key_eq_some_iff (List.pairwise_map.mpr (h.sorted.imp fun h => Nat.ne_of_lt h))

end twopf_kconfig_database

/-! ### The threepf database -/

/-- The values that `write` binds for a record. -/
def threepf_kconfig_record.row (t : threepf_kconfig_record K) : threepf_row K where
  serial := t.record.serial
  kt_conventional := t.record.kt_conventional
  kt_comoving := t.record.kt_comoving
  alpha := t.record.alpha
  beta := t.record.beta
  wavenumber1 := t.record.k1_serial
  wavenumber2 := t.record.k2_serial
  wavenumber3 := t.record.k3_serial
  t_exit_kt := t.record.t_exit
  t_massless := t.record.t_massless
  store_bg := int_of_flag t.store_background
  store_k1 := int_of_flag t.store_twopf_k1
  store_k2 := int_of_flag t.store_twopf_k2
  store_k3 := int_of_flag t.store_twopf_k3

/-- The record that the constructor makes of a row, where it is defined: the wavenumbers on the legs are those
of the twopf records. -/
def threepf_row.record (twopf_db : twopf_kconfig_database K) (row : threepf_row K) :
    Option (threepf_kconfig_record K) := do
  let k1 ← twopf_db.lookup row.wavenumber1
  let k2 ← twopf_db.lookup row.wavenumber2
  let k3 ← twopf_db.lookup row.wavenumber3
  return {
    record := {
      serial := row.serial
      kt_conventional := row.kt_conventional
      kt_comoving := row.kt_comoving
      alpha := row.alpha
      beta := row.beta
      t_exit := row.t_exit_kt
      t_massless := row.t_massless
      k1_serial := row.wavenumber1
      k2_serial := row.wavenumber2
      k3_serial := row.wavenumber3
      k1_conventional := k1.k_conventional
      k1_comoving := k1.k_comoving
      k2_conventional := k2.k_conventional
      k2_comoving := k2.k_comoving
      k3_conventional := k3.k_conventional
      k3_comoving := k3.k_comoving }
    store_background := row.store_bg > 0
    store_twopf_k1 := row.store_k1 > 0
    store_twopf_k2 := row.store_k2 > 0
    store_twopf_k3 := row.store_k3 > 0 }

namespace threepf_kconfig_database

open twopf_kconfig_database

/-- `INSERT INTO threepf_kconfig`: the wavenumbers are foreign keys into `twopf_kconfig`. -/
def insert_row (twopf_table : List (twopf_row K)) (table : List (threepf_row K)) (row : threepf_row K) :
    Option (List (threepf_row K)) :=
  if ∀ j ∈ [row.wavenumber1, row.wavenumber2, row.wavenumber3], j ∈ twopf_table.map (·.serial) then
    insertByKey (·.serial) table row
  else none

/-- `write`, into a container that has the twopf table: the table, and the database afterwards. -/
def write (db : threepf_kconfig_database K) (twopf_table : List (twopf_row K)) :
    Option (List (threepf_row K) × threepf_kconfig_database K) :=
  (db.database.foldlM (fun table t => insert_row twopf_table table t.row) []).map fun table =>
    (table, { db with modified := false })

/-- The rest of a round of the loop of the constructor. -/
def read_record (db : threepf_kconfig_database K) (t : threepf_kconfig_record K) : threepf_kconfig_database K :=
  { db with
    serial := if t.record.serial + 1 > db.serial then t.record.serial + 1 else db.serial
    kt := db.kt.update t.record.kt_conventional t.record.kt_comoving
    k_2pf := update_2pf db.k_2pf t.record
    database := emplaceBySerial (·.record.serial) t db.database }

/-- The database that the constructor starts from. -/
def unread (cn : K) : threepf_kconfig_database K where
  database := []
  serial := 0
  modified := false
  store_background := false
  comoving_normalization := cn
  kt := .initial
  k_2pf := .initial

/-- The constructor that reads a container, where it is defined. -/
def read (cn : K) (twopf_db : twopf_kconfig_database K) (table : List (threepf_row K)) :
    Option (threepf_kconfig_database K) :=
  table.foldlM (fun db row => (row.record twopf_db).map db.read_record) (unread cn)

/-- The extremes of `k_t` over a list of records, taken one by one. -/
def kt_of (l : List (threepf_kconfig_record K)) (e : Extremes K) : Extremes K :=
  l.foldl (fun e t => e.update t.record.kt_conventional t.record.kt_comoving) e

/-- The extremes of the wavenumbers on the legs. -/
def k_2pf_of (l : List (threepf_kconfig_record K)) (e : Extremes K) : Extremes K :=
  l.foldl (fun e t => update_2pf e t.record) e

/-- The serial number after those of a list of records. -/
def next_serial (l : List (threepf_kconfig_record K)) (serial : ℕ) : ℕ :=
  l.foldl (fun s t => if t.record.serial + 1 > s then t.record.serial + 1 else s) serial

variable {db d : threepf_kconfig_database K} {w : twopf_kconfig_database K} {cn : K}
  {l : List (threepf_kconfig_record K)} {t : threepf_kconfig_record K} {twopf_table : List (twopf_row K)}

/-- The legs refer to rows of the twopf table. -/
def References (twopf_table : List (twopf_row K)) (t : threepf_kconfig_record K) : Prop :=
  ∀ leg ∈ t.record.legs, leg.2 ∈ twopf_table.map (·.serial)

theorem write_eq (sorted : db.database.Pairwise fun t t' => t.record.serial < t'.record.serial)
    (refs : ∀ t ∈ db.database, References twopf_table t) :
    db.write twopf_table = some (db.database.map (·.row), { db with modified := false }) := by
  have inserted : ∀ l : List (threepf_kconfig_record K),
      (l.Pairwise fun t t' => t.record.serial < t'.record.serial) → (∀ t ∈ l, References twopf_table t) →
      l.foldlM (fun table t => insert_row twopf_table table t.row) [] = some (l.map (·.row)) := by
    intro l sorted refs
    induction l using List.reverseRecOn with
    | nil => rfl
    | append_singleton l t ih =>
      obtain ⟨sorted, -, below⟩ := List.pairwise_append.mp sorted
      have above : ∀ x ∈ l.map (·.row), x.serial < t.row.serial := fun x hx => by
        obtain ⟨t', ht', rfl⟩ := List.mem_map.mp hx
        exact below t' ht' t (List.mem_singleton.mpr rfl)
      have keys : ∀ j ∈ [t.row.wavenumber1, t.row.wavenumber2, t.row.wavenumber3],
          j ∈ twopf_table.map (·.serial) := by
        simpa [References, threepf_kconfig.legs, threepf_kconfig_record.row] using refs t (by simp)
      rw [List.foldlM_append, ih sorted fun t ht => refs t (List.mem_append_left _ ht), List.map_append]
      simp only [Option.bind_eq_bind, Option.bind_some, List.foldlM_cons, List.foldlM_nil, insert_row, if_pos keys,
        insertByKey_eq_append above, List.map_cons, List.map_nil, Option.pure_def]
  rw [write, inserted _ sorted refs]
  rfl

/-- If `write` succeeds, no foreign key is missing. -/
theorem references_of_write {x : List (threepf_row K) × threepf_kconfig_database K}
    (h : db.write twopf_table = some x) :
    ∀ t ∈ db.database, References twopf_table t := by
  obtain ⟨table, h, -⟩ := Option.map_eq_some_iff.mp h
  generalize db.database = l at h ⊢
  induction l using List.reverseRecOn generalizing table with
  | nil => simp
  | append_singleton l t ih =>
    simp only [List.foldlM_append, List.foldlM_cons, List.foldlM_nil, Option.bind_eq_bind, Option.bind_eq_some_iff,
      insert_row] at h
    obtain ⟨before, hl, after, ht, -⟩ := h
    have keys := (Option.ite_none_right_eq_some.mp ht).1
    intro x hx
    rcases List.mem_append.mp hx with hx | hx
    · exact ih before hl x hx
    · obtain rfl := List.mem_singleton.mp hx
      simpa [References, threepf_kconfig.legs, threepf_kconfig_record.row] using keys

/-- The constructor makes records of all rows, and goes on with them. -/
theorem read_eq (cn : K) (w : twopf_kconfig_database K) (table : List (threepf_row K)) :
    read cn w table = (table.mapM (threepf_row.record w)).map fun l => l.foldl read_record (unread cn) :=
  foldlM_map_eq_mapM _ _ _ _

/-- **What is read**, from records in the order of their serial numbers. -/
theorem foldl_read_record (sorted : l.Pairwise fun t t' => t.record.serial < t'.record.serial) :
    l.foldl read_record (unread cn) =
      { unread cn with
        database := l
        serial := next_serial l 0
        kt := kt_of l .initial
        k_2pf := k_2pf_of l .initial } := by
  induction l using List.reverseRecOn with
  | nil => rfl
  | append_singleton l t ih =>
    obtain ⟨sorted, -, below⟩ := List.pairwise_append.mp sorted
    have appended : emplaceBySerial (·.record.serial) t l = l ++ [t] :=
      emplaceBySerial_eq_append fun x hx => below x hx t (List.mem_singleton.mpr rfl)
    rw [List.foldl_append, ih sorted, List.foldl_cons, List.foldl_nil]
    simp only [read_record, appended, next_serial, kt_of, k_2pf_of, List.foldl_append, List.foldl_cons,
      List.foldl_nil]
    rfl

theorem serial_record {row : threepf_row K} (h : row.record w = some t) :
    t.record.serial = row.serial := by
  simp only [threepf_row.record, Option.bind_eq_bind, Option.bind_eq_some_iff, Option.pure_def,
    Option.some.injEq] at h
  obtain ⟨_, -, _, -, _, -, rfl⟩ := h
  rfl

/-- The legs have the comoving wavenumbers that belong to the conventional ones. -/
def Normalized (cn : K) (config : threepf_kconfig K) : Prop :=
  config.k1_comoving = config.k1_conventional * cn ∧ config.k2_comoving = config.k2_conventional * cn ∧
    config.k3_comoving = config.k3_conventional * cn

/-- A leg comes back just if it has the wavenumber of its record. -/
theorem mem_entries_iff (hw : w.Built cn) {k : K} {s : ℕ} :
    (k, s) ∈ w.entries ↔ ∃ r, w.lookup s = some r ∧ r.k_conventional = k ∧ r.k_comoving = k * cn := by
  simp only [entries, List.mem_map, entry, Prod.mk.injEq]
  constructor
  · rintro ⟨r, hr, rfl, rfl⟩
    exact ⟨r, hw.lookup_iff.mpr ⟨hr, rfl⟩, rfl, hw.comoving r hr⟩
  · rintro ⟨r, hr, rfl, -⟩
    obtain ⟨held, hs⟩ := hw.lookup_iff.mp hr
    exact ⟨r, held, rfl, hs⟩

/-- **One triangle** comes back just if all its legs do. -/
theorem record_row_iff (hw : w.Built cn) (ht : Normalized cn t.record) :
    t.row.record w = some t ↔ t.record.legs ⊆ w.entries := by
  obtain ⟨h₁, h₂, h₃⟩ := ht
  have legs : t.record.legs ⊆ w.entries ↔ (t.record.k1_conventional, t.record.k1_serial) ∈ w.entries ∧
      (t.record.k2_conventional, t.record.k2_serial) ∈ w.entries ∧
      (t.record.k3_conventional, t.record.k3_serial) ∈ w.entries := by
    simp [threepf_kconfig.legs, List.subset_def]
  rw [legs, mem_entries_iff hw, mem_entries_iff hw, mem_entries_iff hw]
  simp only [threepf_row.record, threepf_kconfig_record.row, Option.bind_eq_bind, Option.bind_eq_some_iff,
    Option.pure_def, Option.some.injEq]
  constructor
  · rintro ⟨r₁, l₁, r₂, l₂, r₃, l₃, heq⟩
    have same := congrArg (·.record) heq
    rw [← h₁, ← h₂, ← h₃]
    exact ⟨⟨r₁, l₁, congrArg (·.k1_conventional) same, congrArg (·.k1_comoving) same⟩,
      ⟨r₂, l₂, congrArg (·.k2_conventional) same, congrArg (·.k2_comoving) same⟩,
      ⟨r₃, l₃, congrArg (·.k3_conventional) same, congrArg (·.k3_comoving) same⟩⟩
  · rintro ⟨⟨r₁, l₁, k₁, c₁⟩, ⟨r₂, l₂, k₂, c₂⟩, ⟨r₃, l₃, k₃, c₃⟩⟩
    refine ⟨r₁, l₁, r₂, l₂, r₃, l₃, ?_⟩
    simp only [k₁, k₂, k₃, c₁, c₂, c₃, ← h₁, ← h₂, ← h₃]
    obtain ⟨record, store_background, store₁, store₂, store₃⟩ := t
    congr <;> exact flag_pos _

end threepf_kconfig_database

/-! ### Both databases -/

/-- The tables of a container. -/
structure KconfigTables (K : Type*) where
  twopf_kconfig : List (twopf_row K)
  threepf_kconfig : List (threepf_row K)

namespace State

open twopf_kconfig_database threepf_kconfig_database

/-- `write_kconfig_database` of a threepf task: the container, and the databases afterwards. -/
def write_kconfig_database (s : State K) : Option (KconfigTables K × State K) := do
  let (twopf_kconfig, twopf_db) ← s.twopf_db.write
  let (threepf_kconfig, threepf_db) ← s.threepf_db.write twopf_kconfig
  return (⟨twopf_kconfig, threepf_kconfig⟩, ⟨threepf_db, twopf_db⟩)

/-- The databases that the constructor of a threepf task reads, where it is defined. -/
def read (cn : K) (tables : KconfigTables K) : Option (State K) :=
  let twopf_db := twopf_kconfig_database.read cn tables.twopf_kconfig
  (threepf_kconfig_database.read cn twopf_db tables.threepf_kconfig).map fun threepf_db =>
    ⟨threepf_db, twopf_db⟩

/-- The databases have the same records, and the same of what is kept beside them. -/
structure SameDatabases (r s : State K) : Prop where
  twopf_records : r.twopf_db.database = s.twopf_db.database
  index_on_k : r.twopf_db.index_on_k = s.twopf_db.index_on_k
  twopf_extremes : r.twopf_db.toExtremes = s.twopf_db.toExtremes
  twopf_serial : r.twopf_db.serial = s.twopf_db.serial
  threepf_records : r.threepf_db.database = s.threepf_db.database
  kt : r.threepf_db.kt = s.threepf_db.kt
  k_2pf : r.threepf_db.k_2pf = s.threepf_db.k_2pf
  threepf_serial : r.threepf_db.serial = s.threepf_db.serial

/-- The databases can be written, and what is read from the container is the same. -/
def RoundTrips (cn : K) (s : State K) : Prop :=
  ∃ tables written r, s.write_kconfig_database = some (tables, written) ∧ read cn tables = some r ∧
    SameDatabases r s

/-- What holds of databases that were built by additions and deletions. -/
structure Built (cn : K) (s : State K) : Prop where
  twopf : s.twopf_db.Built cn
  sorted : s.threepf_db.database.Pairwise fun t t' => t.record.serial < t'.record.serial
  serial : s.threepf_db.serial = threepf_kconfig_database.next_serial s.threepf_db.database 0
  kt : s.threepf_db.kt = kt_of s.threepf_db.database .initial
  k_2pf : s.threepf_db.k_2pf = k_2pf_of s.threepf_db.database .initial
  normalization : s.threepf_db.comoving_normalization = cn
  comoving : ∀ t ∈ s.threepf_db.database, Normalized cn t.record

variable {s r : State K} {cn : K}

/-- The legs of all triangles refer to the twopf table if they are among the entries. -/
theorem references_of_subset (h : s.threepf_db.legs ⊆ s.twopf_db.entries) :
    ∀ t ∈ s.threepf_db.database, References (s.twopf_db.database.map (·.row)) t := by
  intro t ht leg hleg
  obtain ⟨r, hr, rfl⟩ := List.mem_map.mp (h (List.mem_flatMap.mpr ⟨t, ht, hleg⟩))
  exact List.mem_map_of_mem (List.mem_map_of_mem hr)

/-- The container that is written, if the legs are in it. -/
theorem Built.write_eq (h : Built cn s)
    (refs : ∀ t ∈ s.threepf_db.database, References (s.twopf_db.database.map (·.row)) t) :
    s.write_kconfig_database = some (⟨s.twopf_db.database.map (·.row), s.threepf_db.database.map (·.row)⟩,
      ⟨{ s.threepf_db with modified := false }, { s.twopf_db with modified := false }⟩) := by
  rw [write_kconfig_database, twopf_kconfig_database.write_eq h.twopf.sorted]
  simp only [Option.bind_eq_bind, Option.bind_some, threepf_kconfig_database.write_eq h.sorted refs]
  rfl

/-- What is read from it: the records that the rows of the triangles stand for. -/
theorem Built.read_eq_some_iff (h : Built cn s) :
    read cn ⟨s.twopf_db.database.map (·.row), s.threepf_db.database.map (·.row)⟩ = some r ↔
      ∃ l, (s.threepf_db.database.map (·.row)).mapM (threepf_row.record s.twopf_db) = some l ∧
        r = ⟨l.foldl read_record (unread cn),
          twopf_kconfig_database.read cn (s.twopf_db.database.map (·.row))⟩ := by
  have same : threepf_row.record (twopf_kconfig_database.read cn (s.twopf_db.database.map (·.row))) =
      threepf_row.record s.twopf_db := by
    funext row
    simp only [threepf_row.record, twopf_kconfig_database.lookup,
      twopf_kconfig_database.read_rows cn h.twopf.sorted]
  simp only [read, threepf_kconfig_database.read_eq, same, Option.map_eq_some_iff]
  constructor
  · rintro ⟨d, ⟨l, hl, rfl⟩, rfl⟩
    exact ⟨l, hl, rfl⟩
  · rintro ⟨l, hl, rfl⟩
    exact ⟨_, ⟨l, hl, rfl⟩, rfl⟩

/-- All triangles come back just if their legs are among the entries. -/
theorem Built.mapM_eq_iff (h : Built cn s) :
    (s.threepf_db.database.map (·.row)).mapM (threepf_row.record s.twopf_db) = some s.threepf_db.database ↔
      s.threepf_db.legs ⊆ s.twopf_db.entries := by
  rw [List.mapM_map, mapM_eq_some_self_iff]
  constructor
  · intro back leg hleg
    obtain ⟨t, ht, hleg⟩ := List.mem_flatMap.mp hleg
    exact (record_row_iff h.twopf (h.comoving t ht)).mp (back t ht) hleg
  · intro sub t ht
    exact (record_row_iff h.twopf (h.comoving t ht)).mpr fun leg hleg =>
      sub (List.mem_flatMap.mpr ⟨t, ht, hleg⟩)

/-- **Round trip**: what is read is what was written just if each twopf record has a place in the index, and each
leg has the wavenumber of its record. -/
theorem roundTrips_iff (h : Built cn s) :
    RoundTrips cn s ↔ Represented s.twopf_db ∧ s.threepf_db.legs ⊆ s.twopf_db.entries := by
  have twopf_read := twopf_kconfig_database.read_rows cn h.twopf.sorted
  constructor
  · rintro ⟨tables, written, r, hwrite, hread, same⟩
    have refs : ∀ t ∈ s.threepf_db.database, References (s.twopf_db.database.map (·.row)) t := by
      rw [write_kconfig_database, twopf_kconfig_database.write_eq h.twopf.sorted] at hwrite
      simp only [Option.bind_eq_bind, Option.bind_some] at hwrite
      obtain ⟨x, hx, -⟩ := Option.bind_eq_some_iff.mp hwrite
      exact references_of_write hx
    obtain ⟨rfl, -⟩ : _ = tables ∧ _ = written :=
      Prod.mk.injEq _ _ _ _ ▸ Option.some.inj ((h.write_eq refs).symm.trans hwrite)
    obtain ⟨l, hl, rfl⟩ := h.read_eq_some_iff.mp hread
    -- the serial numbers of the records read are those written, so the records read are in their order
    have serials : l.map (·.record.serial) = s.threepf_db.database.map (·.record.serial) :=
      (map_eq_of_mapM (fun _ _ => serial_record) hl).trans (by rw [List.map_map]; rfl)
    have sorted : l.Pairwise fun t t' => t.record.serial < t'.record.serial := by
      have ordered := List.pairwise_map.mpr h.sorted
      rw [← serials] at ordered
      exact List.pairwise_map.mp ordered
    have records : l = s.threepf_db.database := by
      simpa only [foldl_read_record sorted] using same.threepf_records
    have index := same.index_on_k
    rw [twopf_read] at index
    exact ⟨h.twopf.insert_all_eq_iff.mp index, h.mapM_eq_iff.mp (records ▸ hl)⟩
  · rintro ⟨represented, sub⟩
    refine ⟨_, _, _, h.write_eq (references_of_subset sub),
      h.read_eq_some_iff.mpr ⟨_, h.mapM_eq_iff.mpr sub, rfl⟩, ?_⟩
    rw [foldl_read_record h.sorted, twopf_read]
    exact ⟨rfl, h.twopf.insert_all_eq_iff.mpr represented, h.twopf.extremes.symm, h.twopf.serial.symm, rfl,
      h.kt.symm, h.k_2pf.symm, h.serial.symm⟩

end State

end Kconfig

end CppTransport.Runtime
