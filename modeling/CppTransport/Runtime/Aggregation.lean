import CppTransport.Library.KeyedRows
import CppTransport.Runtime.StorageFlags

/-!
# Aggregating containers

The rows that a worker has written are in temporary containers, which the master attaches
and copies, table by table, into the container of the task; a seed is copied in the same
way. Three rules of insertion are used. Rows of the background and of the table of
workers are ignored if one with their primary key is there. A row of statistics must not
have the serial number of another. The other tables have no primary key, as long as
`CPPTRANSPORT_STRICT_CONSISTENCY` is not defined, so that a collision there would go
unnoticed: two rows for the same configuration, time and page.

## What is proved

* `tidy_threepf_kmode`: no two of the rows that the triangles of a task write are for the
  same configuration, time and page, the flags for storage being set once;
* `aggregate_all`: containers of such rows are aggregated without a collision, in any
  split and order, whatever part of the background they repeat.
-/

set_option linter.unusedSectionVars false

namespace CppTransport.Runtime

open Library

namespace Seeding

open Library.Rows Kconfig Kconfig.State

variable {V : Type*}

/-! ### Rows and tables -/

/-- What a row has besides `kserial`. The column `unique_id` is bound for the background only; statistics and
initial conditions have no time. -/
structure Cells (V : Type*) where
  unique_id : Option ℕ
  tserial : Option ℕ
  page : ℕ
  values : V

/-- What tells the rows of a configuration apart. -/
def Cells.place (cells : Cells V) : Option ℕ × ℕ := (cells.tserial, cells.page)

/-- What tells the rows of a table apart. -/
def place (row : Row (Cells V)) : ℕ × Option ℕ × ℕ := (row.kserial, row.values.place)

/-- The tables of an attached container, of which the rows of workers are known by workgroup and number. -/
structure Attached (V : Type*) where
  threepf_tables : ThreepfTable → List (Row (Cells V))
  twopf_tables : TwopfTable → List (Row (Cells V))
  side_tables : SideTable → List (Row (Cells V))
  background : List (Cells V)
  workers : List (ℕ × ℕ)

/-- The container of an integration. -/
structure IntegrationContainer (V : Type*) extends ThreepfContainer (Cells V) where
  workers : List (ℕ × ℕ)

/-- `ATTACH DATABASE`, for the queries `SELECT * FROM` one of its tables. -/
def IntegrationContainer.attached (c : IntegrationContainer V) : Attached V where
  threepf_tables := c.threepf_tables
  twopf_tables := c.twopf_tables
  side_tables := c.side_tables
  background := c.background
  workers := c.workers

section

variable (c : IntegrationContainer V)

@[simp] theorem attached_threepf_tables : c.attached.threepf_tables = c.threepf_tables := rfl
@[simp] theorem attached_twopf_tables : c.attached.twopf_tables = c.twopf_tables := rfl
@[simp] theorem attached_side_tables : c.attached.side_tables = c.side_tables := rfl
@[simp] theorem attached_background : c.attached.background = c.background := rfl

end

/-! ### What an integration writes -/

/-- What a task fixes for all its configurations. -/
structure Task (V : Type*) where
  /-- Serial numbers of the times that are stored. -/
  times : List ℕ
  times_nodup : times.Nodup
  threepf_pages : ThreepfTable → ℕ
  twopf_pages : TwopfTable → ℕ
  coordinate_pages : ℕ
  /-- Values of the background at a time, in pages. -/
  background : ℕ → ℕ → V
  collect_statistics : Bool
  collect_initial_conditions : Bool

/-- What comes out of one integration: values at a time, in pages, and metadata. -/
structure Output (V : Type*) where
  threepf : ThreepfTable → ℕ → ℕ → V
  /-- Values for each leg. -/
  twopf : TwopfTable → ℕ → ℕ → ℕ → V
  side : SideTable → ℕ → V

/-- `backg_item::get_unique`. -/
def get_unique (time_serial page pages : ℕ) : ℕ := time_serial * pages + page

/-- The rows of items with a time. -/
def paged_rows (times : List ℕ) (pages : ℕ) (value : ℕ → ℕ → V) : List (Cells V) :=
  times.flatMap fun t => (List.range pages).map fun p => ⟨none, some t, p, value t p⟩

/-- The rows of an item without. -/
def coordinate_rows (pages : ℕ) (value : ℕ → V) : List (Cells V) :=
  (List.range pages).map fun p => ⟨none, none, p, value p⟩

/-- The rows of the background. -/
def backg_rows (times : List ℕ) (pages : ℕ) (value : ℕ → ℕ → V) : List (Cells V) :=
  times.flatMap fun t => (List.range pages).map fun p => ⟨some (get_unique t p pages), some t, p, value t p⟩

namespace Task

/-- Which metadata are collected: the flags of the model and of the task. -/
def collects (task : Task V) : SideTable → Bool
  | .stats => task.collect_statistics
  | .ics => task.collect_initial_conditions
  | .kt_ics => task.collect_initial_conditions

/-- One row of statistics for a configuration. -/
def side_pages (task : Task V) : SideTable → ℕ
  | .stats => 1
  | .ics => task.coordinate_pages
  | .kt_ics => task.coordinate_pages

def backg (task : Task V) : List (Cells V) := backg_rows task.times task.coordinate_pages task.background

end Task

variable {K : Type*} [Field K] [LinearOrder K] [IsStrictOrderedRing K]

/-- `threepf_kmode` with its observer: at each time that is stored the background, if it is flagged, the twopf of
each leg that is flagged, and the threepf; and the metadata. -/
def threepf_kmode (task : Task V) (out : Output V) (t : threepf_kconfig_record K) : Attached V where
  threepf_tables a := (paged_rows task.times (task.threepf_pages a) (out.threepf a)).map (Row.mk t.record.serial)
  twopf_tables b := t.stored_legs.flatMap fun j =>
    (paged_rows task.times (task.twopf_pages b) (out.twopf b j)).map (Row.mk j)
  side_tables i :=
    if task.collects i then (coordinate_rows (task.side_pages i) (out.side i)).map (Row.mk t.record.serial) else []
  background := if t.store_background then task.backg else []
  workers := []

/-! ### Aggregation -/

/-- `aggregate_table`: `INSERT INTO`, without a primary key. -/
def aggregate_table (table rows : List (Row (Cells V))) : List (Row (Cells V)) := table ++ rows

/-- `aggregate_ics`: the same. -/
def aggregate_ics (table rows : List (Row (Cells V))) : List (Row (Cells V)) := table ++ rows

/-- `aggregate_statistics`: `INSERT INTO`, with `kserial` as the primary key. -/
def aggregate_statistics (table rows : List (Row (Cells V))) : Option (List (Row (Cells V))) :=
  rows.foldlM (insert (·.kserial)) table

/-- `aggregate_backg`: `INSERT OR IGNORE INTO`, with `unique_id` as the primary key. -/
def aggregate_backg (table rows : List (Cells V)) : List (Cells V) :=
  rows.foldl (insert_or_ignore (·.unique_id)) table

/-- `aggregate_workers`: `INSERT OR IGNORE INTO`. -/
def aggregate_workers (table rows : List (ℕ × ℕ)) : List (ℕ × ℕ) := rows.foldl (insert_or_ignore id) table

/-- The body that `aggregate_threepf_batch` and `seed_writer` have in common. -/
def aggregate (statistics initial_conditions : Bool) (c : IntegrationContainer V) (b : Attached V) :
    Option (IntegrationContainer V) :=
  let stats :=
    if statistics then aggregate_statistics (c.side_tables .stats) (b.side_tables .stats)
    else some (c.side_tables .stats)
  stats.map fun stats => { c with
    background := aggregate_backg c.background b.background
    twopf_tables := fun t => aggregate_table (c.twopf_tables t) (b.twopf_tables t)
    threepf_tables := fun a => aggregate_table (c.threepf_tables a) (b.threepf_tables a)
    workers := aggregate_workers c.workers b.workers
    side_tables := fun
      | .stats => stats
      | .ics =>
        if initial_conditions then aggregate_ics (c.side_tables .ics) (b.side_tables .ics) else c.side_tables .ics
      | .kt_ics =>
        if initial_conditions then aggregate_ics (c.side_tables .kt_ics) (b.side_tables .kt_ics)
        else c.side_tables .kt_ics }

/-- `aggregate_threepf_batch`: a temporary container. -/
def aggregate_threepf_batch (w : IntegrationWriter) (c : IntegrationContainer V) (b : Attached V) :
    Option (IntegrationContainer V) :=
  aggregate w.collect_statistics w.collect_initial_conditions c b

/-- What the record of a content group has on its container. -/
structure integration_payload where
  failed_serials : Finset ℕ
  statistics : Bool
  initial_conditions : Bool

/-- `close_integration_writer`. -/
def close_integration_writer (w : IntegrationWriter) : integration_payload where
  failed_serials := w.missing_serials
  statistics := w.collect_statistics
  initial_conditions := w.collect_initial_conditions

/-- `data_manager_sqlite3::seed_writer`: the container of a content group. -/
def seed_writer (w : IntegrationWriter) (payload : integration_payload) (c : IntegrationContainer V)
    (seed : IntegrationContainer V) : Option (IntegrationContainer V) :=
  aggregate (w.collect_statistics && payload.statistics)
    (w.collect_initial_conditions && payload.initial_conditions) c seed.attached

/-! ### The same rows -/

/-- The rows of the containers `bs` are those of `l`, split in any way and in any order. The same row of the
background may be in several. -/
structure Carries (bs l : List (Attached V)) : Prop where
  threepf : ∀ a, (bs.flatMap (·.threepf_tables a)).Perm (l.flatMap (·.threepf_tables a))
  twopf : ∀ b, (bs.flatMap (·.twopf_tables b)).Perm (l.flatMap (·.twopf_tables b))
  side : ∀ i, (bs.flatMap (·.side_tables i)).Perm (l.flatMap (·.side_tables i))
  background : ∀ x, x ∈ bs.flatMap (·.background) ↔ x ∈ l.flatMap (·.background)

namespace Carries

variable {bs bs' l l' : List (Attached V)}

theorem refl (l : List (Attached V)) : Carries l l where
  threepf _ := .refl _
  twopf _ := .refl _
  side _ := .refl _
  background _ := Iff.rfl

theorem trans (h : Carries bs l) (h' : Carries l l') : Carries bs l' where
  threepf a := (h.threepf a).trans (h'.threepf a)
  twopf b := (h.twopf b).trans (h'.twopf b)
  side i := (h.side i).trans (h'.side i)
  background x := (h.background x).trans (h'.background x)

theorem symm (h : Carries bs l) : Carries l bs where
  threepf a := (h.threepf a).symm
  twopf b := (h.twopf b).symm
  side i := (h.side i).symm
  background x := (h.background x).symm

theorem append (h : Carries bs l) (h' : Carries bs' l') : Carries (bs ++ bs') (l ++ l') where
  threepf a := by simpa using (h.threepf a).append (h'.threepf a)
  twopf b := by simpa using (h.twopf b).append (h'.twopf b)
  side i := by simpa using (h.side i).append (h'.side i)
  background x := by
    rw [List.flatMap_append, List.flatMap_append, List.mem_append, List.mem_append, h.background, h'.background]

end Carries

/-- No two rows of the containers have the same key, of what is not collected there are none, and the background is
that of the task. -/
structure Tidy (task : Task V) (l : List (Attached V)) : Prop where
  threepf : ∀ a, Keyed place (l.flatMap (·.threepf_tables a))
  twopf : ∀ b, Keyed place (l.flatMap (·.twopf_tables b))
  side : ∀ i, Keyed place (l.flatMap (·.side_tables i))
  statistics : Keyed (·.kserial) (l.flatMap (·.side_tables .stats))
  uncollected : ∀ i, task.collects i = false → l.flatMap (·.side_tables i) = []
  background : ∀ x ∈ l.flatMap (·.background), x ∈ task.backg

variable {task : Task V}

theorem Tidy.of_carries {bs l : List (Attached V)} (h : Tidy task l) (hc : Carries bs l) : Tidy task bs where
  threepf a := (h.threepf a).perm (hc.threepf a).symm
  twopf b := (h.twopf b).perm (hc.twopf b).symm
  side i := (h.side i).perm (hc.side i).symm
  statistics := h.statistics.perm (hc.side .stats).symm
  uncollected i hi := (h.uncollected i hi ▸ hc.side i).eq_nil
  background x hx := h.background x ((hc.background x).mp hx)

theorem Tidy.of_append_left {l l' : List (Attached V)} (h : Tidy task (l ++ l')) : Tidy task l where
  threepf a := (h.threepf a).sublist ((List.sublist_append_left l l').flatMap _)
  twopf b := (h.twopf b).sublist ((List.sublist_append_left l l').flatMap _)
  side i := (h.side i).sublist ((List.sublist_append_left l l').flatMap _)
  statistics := h.statistics.sublist ((List.sublist_append_left l l').flatMap _)
  uncollected i hi := List.eq_nil_of_sublist_nil (h.uncollected i hi ▸ (List.sublist_append_left l l').flatMap _)
  background x hx := h.background x (((List.sublist_append_left l l').flatMap _).subset hx)

/-- A table holds no key twice. -/
structure NoRepeats (c : IntegrationContainer V) : Prop where
  threepf : ∀ a, Keyed place (c.threepf_tables a)
  twopf : ∀ b, Keyed place (c.twopf_tables b)
  side : ∀ i, Keyed place (c.side_tables i)
  statistics : Keyed (·.kserial) (c.side_tables .stats)
  background : Keyed (·.unique_id) c.background

theorem Tidy.noRepeats {c : IntegrationContainer V} (h : Tidy task [c.attached])
    (background : Keyed (·.unique_id) c.background) : NoRepeats c where
  threepf a := by simpa using h.threepf a
  twopf b := by simpa using h.twopf b
  side i := by simpa using h.side i
  statistics := by simpa using h.statistics
  background := background

/-! ### One container -/

theorem keyed_paged_rows {times : List ℕ} (nodup : times.Nodup) (pages : ℕ) (value : ℕ → ℕ → V) :
    Keyed Cells.place (paged_rows times pages value) := by
  simp only [Keyed, paged_rows, List.map_flatMap, List.map_map, Cells.place, Function.comp_def]
  refine List.nodup_flatMap.mpr ⟨fun t _ => ?_, ?_⟩
  · exact List.nodup_range.map fun p q h => (Prod.mk.inj h).2
  · refine nodup.imp fun {t u} hne x hx hx' => hne ?_
    obtain ⟨p, -, rfl⟩ := List.mem_map.mp hx
    obtain ⟨q, -, hq⟩ := List.mem_map.mp hx'
    exact Option.some.inj (Prod.mk.inj hq).1.symm

theorem keyed_coordinate_rows (pages : ℕ) (value : ℕ → V) : Keyed Cells.place (coordinate_rows pages value) := by
  simp only [Keyed, coordinate_rows, List.map_map, Cells.place, Function.comp_def]
  exact List.nodup_range.map fun p q h => (Prod.mk.inj h).2

theorem get_unique_inj {t t' p p' pages : ℕ} (hp : p < pages) (hp' : p' < pages)
    (h : get_unique t p pages = get_unique t' p' pages) : t = t' ∧ p = p' := by
  have pos : 0 < pages := Nat.zero_lt_of_lt hp
  rw [get_unique, get_unique, Nat.mul_comm t, Nat.mul_comm t'] at h
  have quotients := congrArg (· / pages) h
  have remainders := congrArg (· % pages) h
  simp only [Nat.mul_add_div pos, Nat.div_eq_of_lt hp, Nat.div_eq_of_lt hp', Nat.add_zero] at quotients
  simp only [Nat.mul_add_mod, Nat.mod_eq_of_lt hp, Nat.mod_eq_of_lt hp'] at remainders
  exact ⟨quotients, remainders⟩

theorem keyed_backg_rows {times : List ℕ} (nodup : times.Nodup) (pages : ℕ) (value : ℕ → ℕ → V) :
    Keyed (·.unique_id) (backg_rows times pages value) := by
  simp only [Keyed, backg_rows, List.map_flatMap, List.map_map, Function.comp_def]
  refine List.nodup_flatMap.mpr ⟨fun t _ => ?_, nodup.imp fun {t u} hne x hx hx' => hne ?_⟩
  · refine List.Nodup.map_on (fun p hp q hq h => ?_) List.nodup_range
    exact (get_unique_inj (List.mem_range.mp hp) (List.mem_range.mp hq) (Option.some.inj h)).2
  · obtain ⟨p, hp, rfl⟩ := List.mem_map.mp hx
    obtain ⟨q, hq, h⟩ := List.mem_map.mp hx'
    exact (get_unique_inj (List.mem_range.mp hq) (List.mem_range.mp hp) (Option.some.inj h)).1.symm

/-- A container with the rows of another after its own. -/
def IntegrationContainer.extend (c : IntegrationContainer V) (b : Attached V) : IntegrationContainer V :=
  { c with
    threepf_tables := fun a => c.threepf_tables a ++ b.threepf_tables a
    twopf_tables := fun t => c.twopf_tables t ++ b.twopf_tables t
    side_tables := fun i => c.side_tables i ++ b.side_tables i
    background := aggregate_backg c.background b.background
    workers := aggregate_workers c.workers b.workers }

variable {c : IntegrationContainer V} {b : Attached V} {bs : List (Attached V)}

/-- Of metadata that are not collected, there is nothing on either side. -/
theorem side_tables_uncollected (tidy : Tidy task [c.attached, b]) {i : SideTable} (hi : task.collects i = false) :
    c.side_tables i = c.side_tables i ++ b.side_tables i := by
  have nil : c.side_tables i ++ b.side_tables i = [] := by simpa using tidy.uncollected i hi
  obtain ⟨hc, hb⟩ := List.append_eq_nil_iff.mp nil
  rw [hc, hb, List.append_nil]

/-- **One container** is copied without a collision. -/
theorem aggregate_eq (tidy : Tidy task [c.attached, b]) :
    aggregate task.collect_statistics task.collect_initial_conditions c b = some (c.extend b) := by
  have stats : (if task.collect_statistics then aggregate_statistics (c.side_tables .stats) (b.side_tables .stats)
      else some (c.side_tables .stats)) = some (c.side_tables .stats ++ b.side_tables .stats) := by
    split_ifs with hi
    · exact insert_all_eq_some (by simpa using tidy.statistics)
    · rw [← side_tables_uncollected tidy (i := .stats) (by simpa [Task.collects] using hi)]
  have ics : ∀ i, task.collects i = task.collect_initial_conditions →
      (if task.collect_initial_conditions then aggregate_ics (c.side_tables i) (b.side_tables i)
        else c.side_tables i) = c.side_tables i ++ b.side_tables i := by
    intro i same
    split_ifs with hi
    · rfl
    · exact side_tables_uncollected tidy (same ▸ by simpa using hi)
  simp only [aggregate, stats, ics .ics rfl, ics .kt_ics rfl, Option.map_some, Option.some.injEq, aggregate_table,
    IntegrationContainer.extend]
  congr 3
  funext i
  cases i <;> rfl

/-- The background is complete, no more. -/
theorem extend_background (tidy : Tidy task [c.attached, b]) (background : Keyed (·.unique_id) c.background) :
    Keyed (·.unique_id) (c.extend b).background ∧
      ∀ x, x ∈ (c.extend b).background ↔ x ∈ c.background ∨ x ∈ b.background :=
  insert_or_ignore_all (keyed_backg_rows task.times_nodup task.coordinate_pages task.background) background
    (fun x hx => tidy.background x (by simp [hx])) (fun x hx => tidy.background x (by simp [hx]))

theorem carries_extend (tidy : Tidy task [c.attached, b]) (background : Keyed (·.unique_id) c.background) :
    Carries [(c.extend b).attached] [c.attached, b] where
  threepf a := by simp [IntegrationContainer.extend]
  twopf t := by simp [IntegrationContainer.extend]
  side i := by simp [IntegrationContainer.extend]
  background x := by simp [(extend_background tidy background).2]

/-! ### Many containers -/

/-- **Aggregation**: containers that are tidy together are aggregated without a collision, one after the other. -/
theorem aggregate_all (tidy : Tidy task (c.attached :: bs)) (background : Keyed (·.unique_id) c.background) :
    ∃ c', bs.foldlM (aggregate task.collect_statistics task.collect_initial_conditions) c = some c' ∧
      Carries [c'.attached] (c.attached :: bs) ∧ NoRepeats c' ∧
      c'.twopf_samples = c.twopf_samples ∧ c'.threepf_samples = c.threepf_samples := by
  induction bs generalizing c with
  | nil => exact ⟨c, rfl, .refl _, tidy.noRepeats background, rfl, rfl⟩
  | cons b bs ih =>
    have first : Tidy task [c.attached, b] := tidy.of_append_left
    have carries : Carries ((c.extend b).attached :: bs) (c.attached :: b :: bs) :=
      (carries_extend first background).append (.refl bs)
    obtain ⟨c', hc', carries', noRepeats, samples⟩ :=
      ih (tidy.of_carries carries) (extend_background first background).1
    refine ⟨c', ?_, carries'.trans carries, noRepeats, samples⟩
    rw [List.foldlM_cons, aggregate_eq first, Option.bind_eq_bind, Option.bind_some, hc']

/-! ### What the triangles of a task write -/

/-- The rows of `b` are among those of `b'`. -/
structure Part (b b' : Attached V) : Prop where
  threepf : ∀ a, (b.threepf_tables a).Sublist (b'.threepf_tables a)
  twopf : ∀ t, (b.twopf_tables t).Sublist (b'.twopf_tables t)
  side : ∀ i, (b.side_tables i).Sublist (b'.side_tables i)
  background : ∀ x ∈ b.background, x ∈ b'.background

/-- Containers with the same rows. -/
theorem carries_of_part {ι : Type*} {ts : List ι} {f g : ι → Attached V} (part : ∀ t ∈ ts, Part (f t) (g t))
    (whole : ∀ t ∈ ts, Part (g t) (f t)) : Carries (ts.map f) (ts.map g) where
  threepf a := by
    rw [List.flatMap_map, List.flatMap_map]
    exact .of_eq (List.flatMap_congr fun t ht => ((part t ht).threepf a).antisymm ((whole t ht).threepf a))
  twopf b := by
    rw [List.flatMap_map, List.flatMap_map]
    exact .of_eq (List.flatMap_congr fun t ht => ((part t ht).twopf b).antisymm ((whole t ht).twopf b))
  side i := by
    rw [List.flatMap_map, List.flatMap_map]
    exact .of_eq (List.flatMap_congr fun t ht => ((part t ht).side i).antisymm ((whole t ht).side i))
  background x := by
    simp only [List.flatMap_map, List.mem_flatMap]
    exact exists_congr fun t => and_congr_right fun ht =>
      ⟨(part t ht).background x, (whole t ht).background x⟩

theorem flatMap_sublist {ι ρ : Type*} {ts : List ι} {f g : ι → Attached V} (table : Attached V → List ρ)
    (h : ∀ t ∈ ts, (table (f t)).Sublist (table (g t))) :
    ((ts.map f).flatMap table).Sublist ((ts.map g).flatMap table) := by
  rw [List.flatMap_map, List.flatMap_map]
  exact .flatMap_right ts h

theorem Tidy.of_part {ι : Type*} {ts : List ι} {f g : ι → Attached V} (h : Tidy task (ts.map g))
    (part : ∀ t ∈ ts, Part (f t) (g t)) : Tidy task (ts.map f) where
  threepf a := (h.threepf a).sublist (flatMap_sublist _ fun t ht => (part t ht).threepf a)
  twopf b := (h.twopf b).sublist (flatMap_sublist _ fun t ht => (part t ht).twopf b)
  side i := (h.side i).sublist (flatMap_sublist _ fun t ht => (part t ht).side i)
  statistics := h.statistics.sublist (flatMap_sublist _ fun t ht => (part t ht).side .stats)
  uncollected i hi :=
    List.eq_nil_of_sublist_nil (h.uncollected i hi ▸ flatMap_sublist _ fun t ht => (part t ht).side i)
  background x hx := by
    obtain ⟨b, hb, hx⟩ := List.mem_flatMap.mp hx
    obtain ⟨t, ht, rfl⟩ := List.mem_map.mp hb
    exact h.background x (List.mem_flatMap.mpr ⟨g t, List.mem_map_of_mem ht, (part t ht).background x hx⟩)

/-- Rows that belong to different configurations have different keys. -/
theorem keyed_rows {ι : Type*} {l : List ι} {k : ι → ℕ} (hk : (l.map k).Nodup) {cells : ι → List (Cells V)}
    (h : ∀ i, Keyed Cells.place (cells i)) : Keyed place (l.flatMap fun i => (cells i).map (Row.mk (k i))) := by
  simp only [Keyed, List.map_flatMap, List.map_map]
  refine List.nodup_flatMap.mpr ⟨fun i _ => ?_, (List.pairwise_map.mp hk).imp fun {i j} hne x hx hx' => hne ?_⟩
  · have keys : (cells i).map (place ∘ Row.mk (k i)) = ((cells i).map Cells.place).map (Prod.mk (k i)) := by
      rw [List.map_map]
      rfl
    rw [keys]
    exact (h i).map (Prod.mk_right_injective _)
  · obtain ⟨c, -, rfl⟩ := List.mem_map.mp hx
    obtain ⟨c', -, hc'⟩ := List.mem_map.mp hx'
    exact (Prod.mk.inj hc').1.symm

theorem flatMap_side_threepf_kmode {ts : List (threepf_kconfig_record K)}
    {out : threepf_kconfig_record K → Output V} {i : SideTable} (hi : task.collects i = false) :
    (ts.map fun t => threepf_kmode task (out t) t).flatMap (·.side_tables i) = [] := by
  rw [List.flatMap_map]
  exact List.flatMap_eq_nil_iff.mpr fun t _ => by simp [threepf_kmode, hi]

/-- **What is written**: no two rows of the triangles of a task have the same key. -/
theorem tidy_threepf_kmode {ts : List (threepf_kconfig_record K)} (serials : (ts.map (·.record.serial)).Nodup)
    (legs : (ts.flatMap (·.stored_legs)).Nodup) (out : threepf_kconfig_record K → Output V) :
    Tidy task (ts.map fun t => threepf_kmode task (out t) t) where
  threepf a := by
    rw [List.flatMap_map]
    exact keyed_rows serials fun t => keyed_paged_rows task.times_nodup _ _
  twopf b := by
    have rows : (ts.map fun t => threepf_kmode task (out t) t).flatMap (·.twopf_tables b) =
        (ts.flatMap fun t => t.stored_legs.map (Prod.mk t)).flatMap fun x =>
          (paged_rows task.times (task.twopf_pages b) ((out x.1).twopf b x.2)).map (Row.mk x.2) := by
      simp only [List.flatMap_map, List.flatMap_assoc, threepf_kmode]
    rw [rows]
    refine keyed_rows ?_ fun x => keyed_paged_rows task.times_nodup _ _
    simpa [List.map_flatMap, Function.comp_def] using legs
  side i := by
    cases hi : task.collects i with
    | true =>
      simp only [List.flatMap_map, threepf_kmode, hi, if_true]
      exact keyed_rows serials fun t => keyed_coordinate_rows _ _
    | false =>
      rw [flatMap_side_threepf_kmode hi]
      exact List.nodup_nil
  statistics := by
    cases hi : task.collects .stats with
    | true =>
      have rows : (ts.map fun t => threepf_kmode task (out t) t).flatMap (·.side_tables .stats) =
          ts.map fun t => ⟨t.record.serial, none, none, 0, (out t).side .stats 0⟩ := by
        rw [List.flatMap_map, List.map_eq_flatMap]
        exact List.flatMap_congr fun t _ => by simp [threepf_kmode, hi, coordinate_rows, Task.side_pages]
      rw [rows, Keyed, List.map_map]
      exact serials
    | false =>
      rw [flatMap_side_threepf_kmode hi]
      exact List.nodup_nil
  uncollected _ := flatMap_side_threepf_kmode
  background x hx := by
    obtain ⟨b, hb, hx⟩ := List.mem_flatMap.mp hx
    obtain ⟨t, -, rfl⟩ := List.mem_map.mp hb
    simp only [threepf_kmode] at hx
    split_ifs at hx with hst
    · exact hx
    · cases hx

end Seeding

end CppTransport.Runtime
