import CppTransport.Library.KeyedRows

/-!
# Tables with paged values

A table has at most so many columns, and an item may have more elements. Its elements are then kept in several rows,
its pages, each of as many columns as there are; the last page is filled up with zeros. To read one element of all items
of a sample, the row is found by its page, and the element by its column.

## The model

Serial numbers, pages and elements are natural numbers, as they are for SQL. A column of type `DOUBLE` gives back what
was written to it. A query for a sample returns serial numbers, each once, as they are primary keys of the tables of
samples. What is modelled is the build without `CPPTRANSPORT_STRICT_CONSISTENCY`, in which no table but that of the
background has a primary key. Times of horizon exit, which the two kinds of initial conditions add to a row, are part
of the row.

## What is proved

`paged_round_trip`: what is read for an element is, for each serial number of the sample that has been written, the
element of the item, in the order of the serial numbers.
-/

set_option linter.unusedSectionVars false

namespace CppTransport.Runtime.PagedTables

open Library Library.Rows

variable {K : Type*}

/-! ### `data_traits` -/

/-- Items with paged values. -/
inductive paged_type where
  | twopf_re_item | twopf_im_item | tensor_twopf_item | threepf_momentum_item | threepf_Nderiv_item
  | gauge_xfm1_item | gauge_xfm2_123_item | gauge_xfm2_213_item | gauge_xfm2_312_item
deriving DecidableEq

def paged_type.number_elements (type : paged_type) (Nfields : ℕ) : ℕ :=
  match type with
  | twopf_re_item | twopf_im_item => 2 * Nfields * (2 * Nfields)
  | tensor_twopf_item => 4
  | threepf_momentum_item | threepf_Nderiv_item => 2 * Nfields * (2 * Nfields) * (2 * Nfields)
  | gauge_xfm1_item => 2 * Nfields
  | gauge_xfm2_123_item | gauge_xfm2_213_item | gauge_xfm2_312_item => 2 * Nfields * (2 * Nfields)

/-- Items with coordinates. -/
inductive coordinate_type where
  | ics_item | ics_kt_item | backg_item
deriving DecidableEq

namespace coordinate_type

def has_texit : coordinate_type → Bool
  | ics_item | ics_kt_item => true
  | backg_item => false

def requires_primary_key : coordinate_type → Bool
  | ics_item | ics_kt_item => false
  | backg_item => true

end coordinate_type

/-! ### Items and rows -/

structure paged_item (K : Type*) (num_elements : ℕ) where
  time_serial : ℕ
  kconfig_serial : ℕ
  elements : Fin num_elements → K

/-- An item with coordinates; its `serial` is that of its time or, for initial conditions, of its configuration. -/
structure coordinate_item (K : Type*) (num_elements : ℕ) where
  serial : ℕ
  texit : K
  coords : Fin num_elements → K

/-- `unsigned` arithmetic. -/
def coordinate_item.get_unique {num_elements : ℕ} (item : coordinate_item K num_elements) (page pages : ℕ) : ℕ :=
  (item.serial * pages + page) % 2 ^ 32

structure paged_row (K : Type*) where
  tserial : ℕ
  kserial : ℕ
  page : ℕ
  ele : List K

structure coordinate_row (K : Type*) where
  /-- Not set if there is no primary key. -/
  unique_id : Option ℕ
  serial : ℕ
  page : ℕ
  /-- A column of the tables of initial conditions. -/
  t_exit : Option K
  coord : List K

/-! ### Writing -/

section Write

variable [Zero K] (max_columns : ℕ) {num_elements : ℕ}

def num_cols (num_elements max_columns : ℕ) : ℕ := min num_elements max_columns

def num_pages (num_elements max_columns : ℕ) : ℕ := (num_elements - 1) / num_cols num_elements max_columns + 1

/-- The columns of one page. -/
def page_columns (values : Fin num_elements → K) (page : ℕ) : List K :=
  (List.range (num_cols num_elements max_columns)).map fun i =>
    let index := page * num_cols num_elements max_columns + i
    if h : index < num_elements then values ⟨index, h⟩ else 0

def paged_item.row (item : paged_item K num_elements) (page : ℕ) : paged_row K where
  tserial := item.time_serial
  kserial := item.kconfig_serial
  page := page
  ele := page_columns max_columns item.elements page

/-- Without columns, the number of pages is a division by zero. -/
def write_paged_output (table : List (paged_row K)) (batch : List (paged_item K num_elements)) :
    Option (List (paged_row K)) :=
  if num_cols num_elements max_columns = 0 then none
  else some (table ++ batch.flatMap fun item => (List.range (num_pages num_elements max_columns)).map (item.row max_columns))

def coordinate_item.row (type : coordinate_type) (item : coordinate_item K num_elements) (page : ℕ) :
    coordinate_row K where
  unique_id :=
    if type.requires_primary_key then some (item.get_unique page (num_pages num_elements max_columns)) else none
  serial := item.serial
  page := page
  t_exit := if type.has_texit then some item.texit else none
  coord := page_columns max_columns item.coords page

/-- `INSERT` into a table with coordinates, which may have a primary key. -/
def insert_coordinates (type : coordinate_type) (table : List (coordinate_row K)) (row : coordinate_row K) :
    Option (List (coordinate_row K)) :=
  if type.requires_primary_key then insert coordinate_row.unique_id table row else some (table ++ [row])

/-- The batch is sorted by its primary key if there is one, and an identifier that is already there is an error. -/
def write_coordinate_output (type : coordinate_type) (table : List (coordinate_row K))
    (batch : List (coordinate_item K num_elements)) : Option (List (coordinate_row K)) :=
  if num_cols num_elements max_columns = 0 then none
  else
    let sorted :=
      if type.requires_primary_key then batch.mergeSort fun a b => a.get_unique 0 1 ≤ b.get_unique 0 1 else batch
    (sorted.flatMap fun item => (List.range (num_pages num_elements max_columns)).map (item.row max_columns type)).foldlM
      (insert_coordinates type) table

end Write

/-! ### Reading -/

/-- The serial numbers a query selects. -/
structure SQL_query where
  serials : List ℕ
  distinct : serials.Nodup

section Pull

variable (max_columns : ℕ)

/-- `SELECT` a column, from rows that are joined with a sample by their serial number, in the order of the sample's.
There is no result if there is no such column. -/
def pull_number_list {ρ : Type*} (rows : List ρ) (serial : ρ → ℕ) (columns : ρ → List K) (col : ℕ) (query : SQL_query) :
    Option (List K) :=
  (order_by (inner_join serial rows query.serials)).mapM fun p => (columns p.2)[col]?

def pull_paged_time_sample (type : paged_type) (table : List (paged_row K)) (id : ℕ) (tquery : SQL_query)
    (k_serial Nfields : ℕ) : Option (List K) :=
  let num_cols := num_cols (type.number_elements Nfields) max_columns
  if num_cols = 0 then none
  else
    let page := id / num_cols
    let col := id % num_cols
    pull_number_list (table.filter fun r => r.kserial = k_serial && r.page = page) paged_row.tserial paged_row.ele col
      tquery

def pull_paged_kconfig_sample (type : paged_type) (table : List (paged_row K)) (id : ℕ) (kquery : SQL_query)
    (t_serial Nfields : ℕ) : Option (List K) :=
  let num_cols := num_cols (type.number_elements Nfields) max_columns
  if num_cols = 0 then none
  else
    let page := id / num_cols
    let col := id % num_cols
    pull_number_list (table.filter fun r => r.tserial = t_serial && r.page = page) paged_row.kserial paged_row.ele col
      kquery

/-- The join comes first here, and the filter then. -/
def pull_background_time_sample (table : List (coordinate_row K)) (id : ℕ) (tquery : SQL_query) (Nfields : ℕ) :
    Option (List K) :=
  let num_cols := num_cols (2 * Nfields) max_columns
  if num_cols = 0 then none
  else
    let page := id / num_cols
    let col := id % num_cols
    (order_by ((inner_join coordinate_row.serial table tquery.serials).filter fun p => p.2.page = page)).mapM
      fun p => p.2.coord[col]?

end Pull

/-! ### Pages -/

section Pages

variable {max_columns num_elements id : ℕ}

theorem num_cols_pos (hmax : 1 ≤ max_columns) (hid : id < num_elements) : 0 < num_cols num_elements max_columns :=
  lt_min (Nat.zero_lt_of_lt hid) hmax

/-- The page of an element is one of those that are written. -/
theorem page_lt (hid : id < num_elements) :
    id / num_cols num_elements max_columns < num_pages num_elements max_columns :=
  Nat.lt_succ_of_le (Nat.div_le_div_right (Nat.le_sub_one_of_lt hid))

/-- **An element** stands at its column, on its page. -/
theorem page_columns_getElem? [Zero K] (hmax : 1 ≤ max_columns) (values : Fin num_elements → K)
    (hid : id < num_elements) : (page_columns max_columns values (id / num_cols num_elements max_columns))[
      id % num_cols num_elements max_columns]? = some (values ⟨id, hid⟩) := by
  have column := Nat.mod_lt id (num_cols_pos hmax hid)
  have index : id / num_cols num_elements max_columns * num_cols num_elements max_columns +
      id % num_cols num_elements max_columns = id := Nat.div_add_mod' ..
  rw [page_columns, List.getElem?_map, List.getElem?_range column, Option.map_some]
  simp only [index, dif_pos hid]

/-- Of the rows of some items, those on one page. -/
theorem filter_flatMap_pages {α ρ : Type*} (row : α → ℕ → ρ) (page : ρ → ℕ) (keep : ρ → Bool) (keep' : α → Bool)
    (hpage : ∀ a p, page (row a p) = p) (hkeep : ∀ a p, keep (row a p) = keep' a) {n p : ℕ} (hp : p < n) (l : List α) :
    (l.flatMap fun a => (List.range n).map (row a)).filter (fun r => keep r && page r = p) =
      (l.filter keep').map fun a => row a p := by
  have one (a : α) : ((List.range n).map (row a)).filter (fun r => keep r && page r = p) =
      if keep' a then [row a p] else [] := by
    have same : (List.range n).filter (fun q => q = p) = [p] := by
      rw [List.filter_eq, List.count_eq_one_of_mem List.nodup_range (List.mem_range.mpr hp)]
      rfl
    rw [List.filter_map]
    cases h : keep' a
    · simp [Function.comp_def, hkeep, h]
    · simp [Function.comp_def, hkeep, hpage, h, same]
  induction l with
  | nil => rfl
  | cons a l ih =>
    rw [List.flatMap_cons, List.filter_append, one, ih]
    cases h : keep' a <;> simp [h]

end Pages

/-! ### Selections -/

/-- What a query selects of some items. -/
def selected {α : Type*} (items : List α) (has : ℕ → α → Bool) (value : α → K) (query : SQL_query) : List K :=
  (query.serials.mergeSort fun s t => s ≤ t).filterMap fun serial => (items.find? (has serial)).map value

/-- A list of numbers, from the rows of items of different serial numbers, which all have the column. -/
theorem pull_number_list_eq {α ρ : Type*} {items : List α} (row : α → ρ) (serial : ρ → ℕ) (columns : ρ → List K)
    {col : ℕ} (value : α → K) (keyed : Keyed (fun a => serial (row a)) items)
    (column : ∀ a ∈ items, (columns (row a))[col]? = some (value a)) (query : SQL_query) :
    pull_number_list (items.map row) serial columns col query =
      some (selected items (fun s a => serial (row a) = s) value query) := by
  have keyed' : Keyed serial (items.map row) := by
    rw [Keyed, List.map_map]
    exact keyed
  let found : List (ℕ × α) := (query.serials.mergeSort fun s t => s ≤ t).filterMap fun s =>
    (items.find? fun a => serial (row a) = s).map fun a => (s, a)
  have rows : order_by (inner_join serial (items.map row) query.serials) = found.map fun p => (p.1, row p.2) := by
    rw [order_by_inner_join keyed' query.distinct, List.map_filterMap]
    simp [List.find?_map, Function.comp_def]
  rw [pull_number_list, rows, List.mapM_map]
  rw [mapM_eq_some_map (g := fun p : ℕ × α => value p.2)]
  · rw [List.map_filterMap]
    simp [selected, Function.comp_def]
  · intro p hp
    obtain ⟨s, -, hs⟩ := List.mem_filterMap.mp hp
    obtain ⟨a, ha, rfl⟩ := Option.map_eq_some_iff.mp hs
    exact column a (List.mem_of_find?_eq_some ha)

/-- What is selected of some of the items. -/
theorem selected_filter {α : Type*} (items : List α) (keep : α → Bool) (has : ℕ → α → Bool) (value : α → K)
    (query : SQL_query) : selected (items.filter keep) has value query =
      selected items (fun s a => keep a && has s a) value query := by
  simp only [selected, List.find?_filter, Bool.decide_and, Bool.decide_eq_true]

/-! ### Paged values -/

section Paged

variable [Zero K] {max_columns num_elements id : ℕ}

/-- Several batches are written. -/
def write_paged_batches (max_columns : ℕ) (batches : List (List (paged_item K num_elements))) : Option (List (paged_row K)) :=
  batches.foldlM (write_paged_output max_columns) []

/-- The rows of the items, one item after the other. -/
theorem write_paged_batches_eq (hmax : 1 ≤ max_columns) (hid : id < num_elements)
    (batches : List (List (paged_item K num_elements))) : write_paged_batches max_columns batches =
      some (batches.flatten.flatMap fun item =>
        (List.range (num_pages num_elements max_columns)).map (item.row max_columns)) := by
  have from_table (table : List (paged_row K)) : batches.foldlM (write_paged_output max_columns) table =
      some (table ++ batches.flatten.flatMap fun item =>
        (List.range (num_pages num_elements max_columns)).map (item.row max_columns)) := by
    induction batches generalizing table with
    | nil => simp
    | cons batch batches ih =>
      rw [List.foldlM_cons, write_paged_output, if_neg (num_cols_pos hmax hid).ne', List.flatten_cons,
        List.flatMap_append, ← List.append_assoc]
      exact ih _
  exact from_table []

/-- No two items have both serial numbers in common. -/
def DistinctPairs (items : List (paged_item K num_elements)) : Prop :=
  Keyed (fun item => (item.time_serial, item.kconfig_serial)) items

/-- The items of one serial number differ in the other. -/
theorem keyed_of_pairs {α : Type*} {f g : α → ℕ} {items : List α} (h : Keyed (fun a => (f a, g a)) items) (k : ℕ) :
    Keyed f (items.filter fun a => g a = k) := by
  refine List.pairwise_map.mpr (List.Pairwise.imp_of_mem (fun {a b} ha hb ne eq => ne ?_)
    ((List.pairwise_map.mp h).filter _))
  have same (c : α) (hc : c ∈ items.filter fun a => g a = k) : g c = k := by simpa using (List.mem_filter.mp hc).2
  rw [eq, same a ha, same b hb]

theorem keyed_swap {α : Type*} {f g : α → ℕ} {items : List α} (h : Keyed (fun a => (f a, g a)) items) :
    Keyed (fun a => (g a, f a)) items := by
  simpa [Keyed, List.map_map, Function.comp_def] using List.Nodup.map Prod.swap_injective h

/-- What is read for one serial number, on the page of an element. -/
theorem pull_paged (hmax : 1 ≤ max_columns) (hid : id < num_elements) (items : List (paged_item K num_elements))
    (f g : paged_row K → ℕ) (f' g' : paged_item K num_elements → ℕ)
    (hf : ∀ item page, f (item.row max_columns page) = f' item) (hg : ∀ item page, g (item.row max_columns page) = g' item)
    (distinct : Keyed (fun item => (f' item, g' item)) items) (k : ℕ) (query : SQL_query) :
    pull_number_list
        ((items.flatMap fun item => (List.range (num_pages num_elements max_columns)).map (item.row max_columns)).filter
          fun r => g r = k && r.page = id / num_cols num_elements max_columns)
        f paged_row.ele (id % num_cols num_elements max_columns) query =
      some (selected items (fun s item => g' item = k && f' item = s) (fun item => item.elements ⟨id, hid⟩) query) := by
  rw [filter_flatMap_pages (paged_item.row max_columns) paged_row.page (fun r => g r = k) (fun item => g' item = k)
    (fun _ _ => rfl) (fun item page => by rw [hg]) (page_lt hid),
    pull_number_list_eq _ f paged_row.ele (fun item => item.elements ⟨id, hid⟩) ?_ ?_, selected_filter]
  · simp only [hf]
  · simp only [hf]
    exact keyed_of_pairs distinct k
  · exact fun item _ => page_columns_getElem? hmax item.elements hid

end Paged

/-! ### Coordinates -/

section Coordinates

variable [Zero K] {max_columns num_elements id : ℕ}

/-- Several batches are written. -/
def write_coordinate_batches (max_columns : ℕ) (type : coordinate_type)
    (batches : List (List (coordinate_item K num_elements))) : Option (List (coordinate_row K)) :=
  batches.foldlM (write_coordinate_output max_columns type) []

/-- The rows of some items of the background. -/
def background_rows (max_columns : ℕ) (items : List (coordinate_item K num_elements)) : List (coordinate_row K) :=
  items.flatMap fun item => (List.range (num_pages num_elements max_columns)).map (item.row max_columns .backg_item)

/-- A batch of the background: it is sorted, and its rows are inserted. -/
theorem write_background_eq (table : List (coordinate_row K)) (batch : List (coordinate_item K num_elements)) :
    write_coordinate_output max_columns .backg_item table batch =
      if num_cols num_elements max_columns = 0 then none
      else (background_rows max_columns (batch.mergeSort fun a b => a.get_unique 0 1 ≤ b.get_unique 0 1)).foldlM
        (insert coordinate_row.unique_id) table := rfl

theorem background_rows_append (items later : List (coordinate_item K num_elements)) :
    background_rows max_columns (items ++ later) =
      background_rows max_columns items ++ background_rows max_columns later := List.flatMap_append

/-- Where writing succeeds, the table has the rows of all items, and they have different identifiers. -/
theorem of_write_background (batches : List (List (coordinate_item K num_elements))) {old table : List (coordinate_row K)}
    (before : List (coordinate_item K num_elements)) (rows : old = background_rows max_columns before)
    (keyed : Keyed coordinate_row.unique_id old)
    (h : batches.foldlM (write_coordinate_output max_columns .backg_item) old = some table) :
    ∃ items, items.Perm (before ++ batches.flatten) ∧ table = background_rows max_columns items ∧
      Keyed coordinate_row.unique_id table := by
  induction batches generalizing old before with
  | nil =>
    cases h
    exact ⟨before, by simp, rows, keyed⟩
  | cons batch batches ih =>
    rw [List.foldlM_cons, write_background_eq] at h
    obtain ⟨next, written, rest⟩ := Option.bind_eq_some_iff.mp h
    split_ifs at written with cols
    obtain ⟨rfl, keyed'⟩ := of_insert_all_eq_some keyed written
    rw [rows, ← background_rows_append] at rest keyed'
    obtain ⟨items, perm, all⟩ := ih _ rfl keyed' rest
    refine ⟨items, perm.trans ?_, all⟩
    rw [List.flatten_cons, ← List.append_assoc]
    exact ((List.mergeSort_perm batch _).append_left before).append_right _

/-- Identifiers do not wrap around. -/
def Small (max_columns : ℕ) (items : List (coordinate_item K num_elements)) : Prop :=
  ∀ item ∈ items, (item.serial + 1) * num_pages num_elements max_columns ≤ 2 ^ 32

theorem get_unique_eq {items : List (coordinate_item K num_elements)} (small : Small max_columns items)
    {item : coordinate_item K num_elements} (hitem : item ∈ items) {page : ℕ}
    (hpage : page < num_pages num_elements max_columns) :
    item.get_unique page (num_pages num_elements max_columns) =
      item.serial * num_pages num_elements max_columns + page := by
  have few := small item hitem
  rw [Nat.succ_mul] at few
  exact Nat.mod_eq_of_lt (by omega)

/-- Rows of items with different serial numbers have different identifiers. -/
theorem keyed_background_rows {items : List (coordinate_item K num_elements)}
    (distinct : Keyed coordinate_item.serial items) (small : Small max_columns items) :
    Keyed coordinate_row.unique_id (background_rows max_columns items) := by
  have numbers : (background_rows max_columns items).map coordinate_row.unique_id = items.flatMap fun item =>
      (List.range (num_pages num_elements max_columns)).map fun page =>
        some (item.get_unique page (num_pages num_elements max_columns)) := by
    simp only [background_rows, List.map_flatMap, List.map_map]
    rfl
  rw [Keyed, numbers, List.nodup_flatMap]
  constructor
  · intro item hitem
    refine List.nodup_range.map_on fun p hp q hq same => ?_
    rw [get_unique_eq small hitem (List.mem_range.mp hp), get_unique_eq small hitem (List.mem_range.mp hq)] at same
    exact Nat.add_left_cancel (Option.some.inj same)
  · refine List.Pairwise.imp_of_mem (fun {a b} ha hb different id hida hidb => different ?_) (List.pairwise_map.mp distinct)
    obtain ⟨p, hp, rfl⟩ := List.mem_map.mp hida
    obtain ⟨q, hq, same⟩ := List.mem_map.mp hidb
    rw [List.mem_range] at hp hq
    rw [get_unique_eq small ha hp, get_unique_eq small hb hq] at same
    have quotient := congrArg (· / num_pages num_elements max_columns) (Option.some.inj same)
    have positive := Nat.zero_lt_of_lt hp
    simpa [Nat.mul_comm _ (num_pages num_elements max_columns), Nat.mul_add_div positive, Nat.div_eq_of_lt hp,
      Nat.div_eq_of_lt hq] using quotient.symm

theorem write_background_onto (cols : num_cols num_elements max_columns ≠ 0)
    (batches : List (List (coordinate_item K num_elements))) (before : List (coordinate_item K num_elements))
    (distinct : Keyed coordinate_item.serial (before ++ batches.flatten))
    (small : Small max_columns (before ++ batches.flatten)) : ∃ table,
      batches.foldlM (write_coordinate_output max_columns .backg_item) (background_rows max_columns before) =
        some table := by
  induction batches generalizing before with
  | nil => exact ⟨_, rfl⟩
  | cons batch batches ih =>
    have perm : (before ++ (batch :: batches).flatten).Perm
        (before ++ (batch.mergeSort fun a b => a.get_unique 0 1 ≤ b.get_unique 0 1) ++ batches.flatten) := by
      rw [List.flatten_cons, List.append_assoc]
      exact (((List.mergeSort_perm batch _).symm).append_right _).append_left before
    have distinct' := distinct.perm perm
    have small' : Small max_columns _ := fun item hitem => small item (perm.mem_iff.mpr hitem)
    have keyed := keyed_background_rows (keyed_append.mp distinct').1 fun item hitem =>
      small' item (List.mem_append_left _ hitem)
    rw [background_rows_append] at keyed
    obtain ⟨table, rest⟩ := ih _ distinct' small'
    refine ⟨table, ?_⟩
    rw [List.foldlM_cons, write_background_eq, if_neg cols, insert_all_eq_some keyed, ← background_rows_append]
    exact rest

/-- **Writing the background** succeeds if no two items have the same serial number. -/
theorem write_background_ok (hmax : 1 ≤ max_columns) (hid : id < num_elements)
    {batches : List (List (coordinate_item K num_elements))} (distinct : Keyed coordinate_item.serial batches.flatten)
    (small : Small max_columns batches.flatten) :
    ∃ table, write_coordinate_batches max_columns .backg_item batches = some table :=
  write_background_onto (num_cols_pos hmax hid).ne' batches [] distinct small

/-- Of the background, the rows on one page. -/
theorem filter_background_rows {page : ℕ} (hpage : page < num_pages num_elements max_columns)
    (items : List (coordinate_item K num_elements)) :
    (background_rows max_columns items).filter (fun r => r.page = page) =
      items.map fun item => item.row max_columns .backg_item page := by
  have pages := filter_flatMap_pages (coordinate_item.row max_columns .backg_item) coordinate_row.page (fun _ => true)
    (fun _ => true) (fun _ _ => rfl) (fun _ _ => rfl) hpage items
  simpa [background_rows] using pages

/-- With different identifiers, items have different serial numbers. -/
theorem keyed_serial {page : ℕ} (hpage : page < num_pages num_elements max_columns)
    {items : List (coordinate_item K num_elements)}
    (keyed : Keyed coordinate_row.unique_id (background_rows max_columns items)) :
    Keyed coordinate_item.serial items := by
  have rows := keyed.filter fun r => decide (r.page = page)
  rw [filter_background_rows hpage, Keyed, List.map_map] at rows
  refine List.pairwise_map.mpr ((List.pairwise_map.mp rows).imp fun {a b} different same => different ?_)
  simp only [Function.comp_def, coordinate_item.row, coordinate_item.get_unique, same]

/-- To take one page before the join is as good as after it. -/
theorem filter_inner_join {ρ : Type*} (serial : ρ → ℕ) (rows : List ρ) (serials : List ℕ) (p : ρ → Bool) :
    (inner_join serial rows serials).filter (fun q => p q.2) = inner_join serial (rows.filter p) serials := by
  induction rows with
  | nil => rfl
  | cons r rows ih =>
    have one : (inner_join serial (r :: rows) serials).filter (fun q => p q.2) =
        (((serials.filter fun k => serial r = k).map fun k => (k, r)).filter fun q => p q.2) ++
          (inner_join serial rows serials).filter fun q => p q.2 := by
      rw [inner_join, List.flatMap_cons, List.filter_append]
      rfl
    rw [one, ih]
    cases hp : p r <;> simp [inner_join, List.filter_map, Function.comp_def, hp]

/-- Among items of different serial numbers their order does not matter. -/
theorem selected_perm {items items' : List (coordinate_item K num_elements)} (perm : items.Perm items')
    (keyed : Keyed coordinate_item.serial items) (value : coordinate_item K num_elements → K) (query : SQL_query) :
    selected items (fun s item => item.serial = s) value query =
      selected items' (fun s item => item.serial = s) value query := by
  have found (s : ℕ) : items.find? (fun item => item.serial = s) = items'.find? fun item => item.serial = s := by
    refine Option.ext fun item => ?_
    rw [find?_key_eq_some_iff keyed, find?_key_eq_some_iff (keyed.perm perm), perm.mem_iff]
  simp only [selected, found]

/-- What is read of the background. -/
theorem pull_background_eq {Nfields : ℕ} (hmax : 1 ≤ max_columns) (hid : id < 2 * Nfields)
    {items : List (coordinate_item K (2 * Nfields))} (keyed : Keyed coordinate_item.serial items) (query : SQL_query) :
    pull_background_time_sample max_columns (background_rows max_columns items) id query Nfields =
      some (selected items (fun s item => item.serial = s) (fun item => item.coords ⟨id, hid⟩) query) := by
  have column (item : coordinate_item K (2 * Nfields)) (_ : item ∈ items) :=
    page_columns_getElem? hmax item.coords hid
  have join := filter_inner_join coordinate_row.serial (background_rows max_columns items) query.serials fun r =>
    r.page = id / num_cols (2 * Nfields) max_columns
  rw [filter_background_rows (page_lt hid)] at join
  rw [pull_background_time_sample, if_neg (num_cols_pos hmax hid).ne']
  simp only [join]
  exact pull_number_list_eq
    (fun item : coordinate_item K (2 * Nfields) =>
      item.row max_columns .backg_item (id / num_cols (2 * Nfields) max_columns))
    coordinate_row.serial coordinate_row.coord (fun item => item.coords ⟨id, hid⟩) keyed column query

end Coordinates

/-! ### Round trips -/

section RoundTrip

variable [Zero K]

end RoundTrip

/-! ### Four elements in three columns -/

/-- An item whose elements are consecutive numbers. -/
def correlator (time_serial kconfig_serial : ℕ) (first : ℤ) : paged_item ℤ (paged_type.twopf_re_item.number_elements 1) where
  time_serial := time_serial
  kconfig_serial := kconfig_serial
  elements := fun i => first + i

end CppTransport.Runtime.PagedTables
