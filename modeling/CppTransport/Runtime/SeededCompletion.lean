import CppTransport.Runtime.Aggregation
import CppTransport.Runtime.PairedContainers

/-!
# Completing an integration from a seed

When some triangles of a threepf task have failed, the integrity check takes what they
wrote out of the container, and their serial numbers become the list of failures of the
content group. A new integration may be seeded from the group: its container begins with
the rows of the seed, and its work queue holds just the serial numbers of the list.

## The model

A `Pass` is one integration of some triangles, up to the check: what each gives, which
fail, and the temporary containers, with the rows split between them in any way. What a
triangle that fails had in the batcher may have been flushed, in part, since the failure is
reported before the rows are unbatched. Content groups are `Obtained` from a pass over all
triangles, and from passes that are seeded from a group.

## What is proved

* `Pass.exists_container`, `Pass.exists_seeded`: a pass never meets a row that is there, or
  meets it only in the background;
* `seeded_completion`: if no triangle of a seeded pass fails, the container has the rows of
  one pass over all triangles in which none fails.
-/

set_option linter.unusedSectionVars false

namespace CppTransport.Runtime

open Library

namespace Seeding

open Library.Rows Kconfig Kconfig.State

variable {V : Type*} {K : Type*} [Field K] [LinearOrder K] [IsStrictOrderedRing K]

/-! ### Passes -/

/-- `create_tables`: the sample tables are filled from the databases. -/
def create_tables (s : State K) : IntegrationContainer V where
  twopf_samples := s.twopf_db.database.map (·.serial)
  threepf_samples := s.threepf_db.database.map (·.record.serial)
  threepf_tables _ := []
  twopf_tables _ := []
  side_tables _ := []
  background := []
  workers := []

/-- The writer of a new content group. -/
def Task.writer (task : Task V) : IntegrationWriter where
  fail := false
  failed_serials := ∅
  missing_serials := ∅
  collect_statistics := task.collect_statistics
  collect_initial_conditions := task.collect_initial_conditions

/-- The triangles with the given serial numbers: a queue is shuffled, and split among the workers. -/
def prepare_queue (s : State K) (serials : Finset ℕ) : List (threepf_kconfig_record K) :=
  s.threepf_db.database.filter fun t => t.record.serial ∈ serials

/-- The integration of some triangles. -/
structure Pass (task : Task V) (ts : List (threepf_kconfig_record K)) where
  /-- What each triangle gives, -/
  out : threepf_kconfig_record K → Output V
  /-- those that fail, -/
  failed : Finset ℕ
  /-- those that the workers report, -/
  reported : Finset ℕ
  /-- what of the rows of each triangle reaches a temporary container, -/
  left : threepf_kconfig_record K → Attached V
  /-- and these containers, in the order in which they are aggregated. -/
  batches : List (Attached V)
  part : ∀ t ∈ ts, Part (left t) (threepf_kmode task (out t) t)
  whole : ∀ t ∈ ts, t.record.serial ∉ failed → Part (threepf_kmode task (out t) t) (left t)
  /-- A failure is reported, or leaves a table without rows of the triangle. -/
  known : ∀ t ∈ ts, t.record.serial ∈ failed → t.record.serial ∈ reported ∨ ∃ a, (left t).threepf_tables a = []
  split : Carries batches (ts.map left)

/-- The container of a content group, and its record. -/
structure ContentGroup (V : Type*) where
  payload : integration_payload
  container : IntegrationContainer V

section Pass

variable {task : Task V} {ts : List (threepf_kconfig_record K)}

/-- None of the triangles fails. -/
def Pass.Succeeds (p : Pass task ts) : Prop := ∀ t ∈ ts, t.record.serial ∉ p.failed

/-- Aggregation of the temporary containers. -/
def Pass.integrate (p : Pass task ts) (c : IntegrationContainer V) : Option (IntegrationContainer V) :=
  p.batches.foldlM (aggregate_threepf_batch task.writer) c

/-- `close_writer` and `close_integration_writer`: failures that were reported have been merged. -/
def Pass.close (p : Pass task ts) (db : ConfigDatabase) (c : IntegrationContainer V) : ContentGroup V :=
  let r := check db (task.writer.merge_failure_list p.reported) c.toThreepfContainer
  { payload := close_integration_writer r.1
    container := { c with toThreepfContainer := r.2 } }

/-- `schedule_integration` with a seed. -/
def Pass.integrate_seeded (s : State K) (seed : ContentGroup V) (p : Pass task ts) :
    Option (IntegrationContainer V) := do
  let c ← seed_writer task.writer seed.payload (create_tables s) seed.container
  p.integrate c

end Pass

/-- What the triangles gave of which those in `M` were integrated once more. -/
def combine (M : Finset ℕ) (out out' : threepf_kconfig_record K → Output V) (t : threepf_kconfig_record K) :
    Output V :=
  if t.record.serial ∈ M then out' t else out t

/-- Content groups of a task, with what its triangles gave. -/
inductive Obtained {s : State K} (h : Flagged s) (task : Task V) :
    (threepf_kconfig_record K → Output V) → ContentGroup V → Prop
  | unseeded (p : Pass task s.threepf_db.database) {c : IntegrationContainer V}
      (hc : p.integrate (create_tables s) = some c) :
      Obtained h task p.out (p.close h.config_database c)
  | seeded {out : threepf_kconfig_record K → Output V} {seed : ContentGroup V}
      (hseed : Obtained h task out seed) (p : Pass task (prepare_queue s seed.payload.failed_serials))
      {c : IntegrationContainer V} (hc : p.integrate_seeded s seed = some c) :
      Obtained h task (combine seed.payload.failed_serials out p.out) (p.close h.config_database c)

/-- Two containers that hold the same rows. -/
structure SameRows (c c' : IntegrationContainer V) : Prop where
  threepf : ∀ a, (c.threepf_tables a).Perm (c'.threepf_tables a)
  twopf : ∀ b, (c.twopf_tables b).Perm (c'.twopf_tables b)
  side : ∀ i, (c.side_tables i).Perm (c'.side_tables i)
  background : c.background.Perm c'.background

/-! ### What a container holds -/

variable {s : State K} {task : Task V} {out out' : threepf_kconfig_record K → Output V}
  {failed failed' : Finset ℕ} {left left' : threepf_kconfig_record K → Attached V} {c c' : IntegrationContainer V}

/-- The container of a pass, or of one after another: it holds what is `left` of the triangles, and that is all
that each wrote unless it has `failed`. -/
structure Holds (s : State K) (task : Task V) (out : threepf_kconfig_record K → Output V) (failed : Finset ℕ)
    (left : threepf_kconfig_record K → Attached V) (c : IntegrationContainer V) : Prop where
  twopf_samples : c.twopf_samples = s.twopf_db.database.map (·.serial)
  threepf_samples : c.threepf_samples = s.threepf_db.database.map (·.record.serial)
  carries : Carries [c.attached] (s.threepf_db.database.map left)
  part : ∀ t ∈ s.threepf_db.database, Part (left t) (threepf_kmode task (out t) t)
  whole : ∀ t ∈ s.threepf_db.database, t.record.serial ∉ failed → Part (threepf_kmode task (out t) t) (left t)
  noRepeats : NoRepeats c

theorem threepf_kserial {out : Output V} {b : Attached V} {t : threepf_kconfig_record K}
    (h : Part b (threepf_kmode task out t)) {a : ThreepfTable} {row : Row (Cells V)}
    (hrow : row ∈ b.threepf_tables a) : row.kserial = t.record.serial := by
  obtain ⟨_, -, rfl⟩ := List.mem_map.mp ((h.threepf a).subset hrow)
  rfl

theorem twopf_kserial {out : Output V} {b : Attached V} {t : threepf_kconfig_record K}
    (h : Part b (threepf_kmode task out t)) {a : TwopfTable} {row : Row (Cells V)}
    (hrow : row ∈ b.twopf_tables a) : t.Stores row.kserial := by
  obtain ⟨j, hj, hrow⟩ := List.mem_flatMap.mp ((h.twopf a).subset hrow)
  obtain ⟨_, -, rfl⟩ := List.mem_map.mp hrow
  exact mem_stored_legs.mp hj

theorem side_kserial {out : Output V} {b : Attached V} {t : threepf_kconfig_record K}
    (h : Part b (threepf_kmode task out t)) {i : SideTable} {row : Row (Cells V)}
    (hrow : row ∈ b.side_tables i) : row.kserial = t.record.serial := by
  have hrow := (h.side i).subset hrow
  simp only [threepf_kmode] at hrow
  split_ifs at hrow
  · obtain ⟨_, -, rfl⟩ := List.mem_map.mp hrow
    rfl
  · cases hrow

/-- No two rows that the triangles leave have the same key. -/
theorem tidy_left (h : Flagged s) (legs : (s.threepf_db.database.flatMap (·.stored_legs)).Nodup)
    (part : ∀ t ∈ s.threepf_db.database, Part (left t) (threepf_kmode task (out t) t)) :
    Tidy task (s.threepf_db.database.map left) :=
  (tidy_threepf_kmode (h.sorted.imp fun h => Nat.ne_of_lt h) legs out).of_part part

/-- **Aggregation** of what is left of the triangles, into a new container. -/
theorem exists_holds (h : Flagged s) (legs : (s.threepf_db.database.flatMap (·.stored_legs)).Nodup)
    {bs : List (Attached V)} (carries : Carries bs (s.threepf_db.database.map left))
    (part : ∀ t ∈ s.threepf_db.database, Part (left t) (threepf_kmode task (out t) t))
    (whole : ∀ t ∈ s.threepf_db.database, t.record.serial ∉ failed → Part (threepf_kmode task (out t) t) (left t)) :
    ∃ c, bs.foldlM (aggregate task.collect_statistics task.collect_initial_conditions) (create_tables s) =
        some c ∧ Holds s task out failed left c := by
  have nothing : Carries ((create_tables s : IntegrationContainer V).attached :: bs) bs := by
    constructor <;> simp [create_tables]
  have tidy := (tidy_left h legs part).of_carries (nothing.trans carries)
  obtain ⟨c, hc, carries', noRepeats, twopf_samples, threepf_samples⟩ := aggregate_all tidy List.nodup_nil
  exact ⟨c, hc, twopf_samples, threepf_samples, (carries'.trans nothing).trans carries, part, whole, noRepeats⟩

/-- Containers of triangles none of which failed hold the same rows. -/
theorem Holds.sameRows (hc : Holds s task out failed left c) (hc' : Holds s task out' failed' left' c')
    (ok : ∀ t ∈ s.threepf_db.database, t.record.serial ∉ failed)
    (ok' : ∀ t ∈ s.threepf_db.database, t.record.serial ∉ failed')
    (same : ∀ t ∈ s.threepf_db.database, out' t = out t) : SameRows c c' := by
  have all : Carries [c.attached] (s.threepf_db.database.map fun t => threepf_kmode task (out t) t) :=
    hc.carries.trans (carries_of_part hc.part fun t ht => hc.whole t ht (ok t ht))
  have all' : Carries [c'.attached] (s.threepf_db.database.map fun t => threepf_kmode task (out t) t) := by
    refine hc'.carries.trans (carries_of_part (fun t ht => ?_) fun t ht => ?_)
    · exact same t ht ▸ hc'.part t ht
    · exact same t ht ▸ hc'.whole t ht (ok' t ht)
  have rows := all.trans all'.symm
  constructor
  case threepf => exact fun a => by simpa using rows.threepf a
  case twopf => exact fun b => by simpa using rows.twopf b
  case side => exact fun i => by simpa using rows.side i
  case background =>
    exact hc.noRepeats.background.perm_of_mem_iff hc'.noRepeats.background fun x => by simpa using rows.background x

/-! ### The check -/

/-- What is left of a triangle that is taken out: rows of the background. -/
def Attached.backg_only (b : Attached V) : Attached V where
  threepf_tables _ := []
  twopf_tables _ := []
  side_tables _ := []
  background := b.background
  workers := b.workers

/-- What the check keeps. -/
def kept (M : Finset ℕ) (left : threepf_kconfig_record K → Attached V) (t : threepf_kconfig_record K) :
    Attached V :=
  if t.record.serial ∈ M then (left t).backg_only else left t

theorem part_kept (part : ∀ t ∈ s.threepf_db.database, Part (left t) (threepf_kmode task (out t) t))
    (M : Finset ℕ) : ∀ t ∈ s.threepf_db.database, Part (kept M left t) (threepf_kmode task (out t) t) := by
  intro t ht
  rw [kept]
  split_ifs
  · exact ⟨fun _ => List.nil_sublist _, fun _ => List.nil_sublist _, fun _ => List.nil_sublist _,
      (part t ht).background⟩
  · exact part t ht

/-- Rows of which a triangle has all or none are kept together. -/
theorem filter_flatMap_left {ρ : Type*} {ts : List (threepf_kconfig_record K)} {M : Finset ℕ}
    {rows : threepf_kconfig_record K → List ρ} {p : ρ → Bool}
    (h : ∀ t ∈ ts, ∀ row ∈ rows t, p row = decide (t.record.serial ∉ M)) :
    (ts.flatMap rows).filter p = ts.flatMap fun t => if t.record.serial ∈ M then [] else rows t := by
  rw [List.filter_flatMap]
  refine List.flatMap_congr fun t ht => ?_
  split_ifs with hM
  · exact List.filter_eq_nil_iff.mpr fun row hrow => by simp [h t ht row hrow, hM]
  · exact List.filter_eq_self.mpr fun row hrow => by simp [h t ht row hrow, hM]

theorem threepf_serials_config_database (h : Flagged s) :
    h.config_database.threepf_serials = s.threepf_db.database.map (·.record.serial) := by
  simp [Flagged.config_database, ConfigDatabase.threepf_serials, threepf_record, Function.comp_def]

theorem Holds.mem_threepf (hc : Holds s task out failed left c) {a : ThreepfTable} {row : Row (Cells V)} :
    row ∈ c.threepf_tables a ↔ ∃ t ∈ s.threepf_db.database, row ∈ (left t).threepf_tables a := by
  simpa using (hc.carries.threepf a).mem_iff

theorem Holds.ofTask (hc : Holds s task out failed left c) (h : Flagged s) :
    OfTask h.config_database c.toContainer where
  twopf_samples := hc.twopf_samples
  threepf_samples := hc.threepf_samples.trans (threepf_serials_config_database h).symm
  threepf_rows a row hrow := by
    obtain ⟨t, ht, hrow⟩ := hc.mem_threepf.mp hrow
    rw [threepf_kserial (hc.part t ht) hrow, threepf_serials_config_database]
    exact List.mem_map_of_mem ht
  twopf_rows b row hrow := by
    have hrow : row ∈ s.threepf_db.database.flatMap fun t => (left t).twopf_tables b := by
      simpa [List.flatMap_map] using (hc.carries.twopf b).mem_iff.mp (by simpa using hrow)
    obtain ⟨t, ht, hrow⟩ := List.mem_flatMap.mp hrow
    obtain ⟨r, hr, hs, -⟩ := (h.stored_iff _).mpr ⟨t, ht, twopf_kserial (hc.part t ht) hrow⟩
    exact List.mem_map.mpr ⟨r, hr, hs⟩
  side_rows i row hrow := by
    have hrow : row ∈ s.threepf_db.database.flatMap fun t => (left t).side_tables i := by
      simpa [List.flatMap_map] using (hc.carries.side i).mem_iff.mp (by simpa using hrow)
    obtain ⟨t, ht, hrow⟩ := List.mem_flatMap.mp hrow
    rw [side_kserial (hc.part t ht) hrow, threepf_serials_config_database]
    exact List.mem_map_of_mem ht

/-- A content group: of the triangles on its list of failures, the container has no rows. -/
structure Closed (s : State K) (task : Task V) (out : threepf_kconfig_record K → Output V) (g : ContentGroup V) :
    Prop where
  statistics : g.payload.statistics = task.collect_statistics
  initial_conditions : g.payload.initial_conditions = task.collect_initial_conditions
  holds : ∃ left, Holds s task out g.payload.failed_serials left g.container ∧
    ∀ t ∈ s.threepf_db.database, t.record.serial ∈ g.payload.failed_serials → Part (left t) (left t).backg_only

/-- What a triangle stores is taken out if and only if the triangle is. -/
theorem taken_iff (h : Flagged s) {M : Finset ℕ} {t : threepf_kconfig_record K} (ht : t ∈ s.threepf_db.database)
    {j : ℕ} (hj : t.Stores j) :
    (∃ u ∈ h.config_database.threepf, u.serial ∈ M ∧ u.Stores j) ↔ t.record.serial ∈ M := by
  constructor
  · rintro ⟨u, hu, hM, hj'⟩
    obtain ⟨t', ht', rfl⟩ := List.mem_map.mp hu
    exact h.once t ht t' ht' j hj hj' ▸ hM
  · exact fun hM => ⟨_, List.mem_map_of_mem ht, hM, hj⟩

theorem kept_threepf_tables (M : Finset ℕ) (t : threepf_kconfig_record K) (a : ThreepfTable) :
    (kept M left t).threepf_tables a = if t.record.serial ∈ M then [] else (left t).threepf_tables a := by
  rw [kept]
  split_ifs <;> rfl

theorem kept_twopf_tables (M : Finset ℕ) (t : threepf_kconfig_record K) (b : TwopfTable) :
    (kept M left t).twopf_tables b = if t.record.serial ∈ M then [] else (left t).twopf_tables b := by
  rw [kept]
  split_ifs <;> rfl

theorem kept_side_tables (M : Finset ℕ) (t : threepf_kconfig_record K) (i : SideTable) :
    (kept M left t).side_tables i = if t.record.serial ∈ M then [] else (left t).side_tables i := by
  rw [kept]
  split_ifs <;> rfl

theorem kept_background (M : Finset ℕ) (t : threepf_kconfig_record K) :
    (kept M left t).background = (left t).background := by
  rw [kept]
  split_ifs <;> rfl

/-- Taking out the triangles `M`, with what they store, leaves what is `kept`. -/
theorem Holds.carries_without (hc : Holds s task out failed left c) (h : Flagged s) (M : Finset ℕ)
    {g : IntegrationContainer V} (hbg : g.background = c.background)
    (hg : g.toContainer = c.toContainer.without task.collects h.config_database M) :
    Carries [g.attached] (s.threepf_db.database.map (kept M left)) := by
  constructor
  case threepf =>
    intro a
    have table : g.threepf_tables a = (c.threepf_tables a).filter fun row => row.kserial ∉ M :=
      congrArg (fun g => g.threepf_tables a) hg
    have rows : (c.threepf_tables a).Perm (s.threepf_db.database.flatMap fun t => (left t).threepf_tables a) := by
      simpa [List.flatMap_map] using hc.carries.threepf a
    simp only [List.flatMap_singleton, attached_threepf_tables, List.flatMap_map, table, kept_threepf_tables]
    refine (rows.filter _).trans (.of_eq (filter_flatMap_left fun t ht row hrow => ?_))
    rw [threepf_kserial (hc.part t ht) hrow]
  case twopf =>
    intro b
    have table : g.twopf_tables b = (c.twopf_tables b).filter fun row =>
        ¬ ∃ u ∈ h.config_database.threepf, u.serial ∈ M ∧ u.Stores row.kserial :=
      congrArg (fun g => g.twopf_tables b) hg
    have rows : (c.twopf_tables b).Perm (s.threepf_db.database.flatMap fun t => (left t).twopf_tables b) := by
      simpa [List.flatMap_map] using hc.carries.twopf b
    simp only [List.flatMap_singleton, attached_twopf_tables, List.flatMap_map, table, kept_twopf_tables]
    refine (rows.filter _).trans (.of_eq (filter_flatMap_left fun t ht row hrow => ?_))
    rw [decide_eq_decide, taken_iff h ht (twopf_kserial (hc.part t ht) hrow)]
  case side =>
    intro i
    have rows : (c.side_tables i).Perm (s.threepf_db.database.flatMap fun t => (left t).side_tables i) := by
      simpa [List.flatMap_map] using hc.carries.side i
    have table : g.side_tables i = if task.collects i then (c.side_tables i).filter fun row => row.kserial ∉ M
        else c.side_tables i := congrArg (fun g => g.side_tables i) hg
    simp only [List.flatMap_singleton, attached_side_tables, List.flatMap_map, table, kept_side_tables]
    split_ifs with hi
    · refine (rows.filter _).trans (.of_eq (filter_flatMap_left fun t ht row hrow => ?_))
      rw [side_kserial (hc.part t ht) hrow]
    · refine rows.trans (.of_eq (List.flatMap_congr fun t ht => ?_))
      have none : (left t).side_tables i = [] :=
        List.eq_nil_of_sublist_nil (by simpa [threepf_kmode, hi] using (hc.part t ht).side i)
      rw [none, ite_self]
  case background =>
    intro x
    have rows := hc.carries.background x
    simp only [List.flatMap_singleton, attached_background, List.flatMap_map] at rows
    simp only [List.flatMap_singleton, attached_background, List.flatMap_map, hbg, rows, kept_background]

/-- Triangles that failed are found missing. -/
theorem Holds.failed_missing (hc : Holds s task out failed left c) (h : Flagged s) {w w' : Writer}
    {collects : SideTable → Bool} {c' : Container ThreepfTable TwopfTable SideTable (Cells V)}
    (hr : Repaired collects h.config_database w c.toContainer w' c') {t : threepf_kconfig_record K}
    (ht : t ∈ s.threepf_db.database)
    (known : t.record.serial ∈ w.failed_serials ∨ ∃ a, (left t).threepf_tables a = []) :
    t.record.serial ∈ w'.missing_serials := by
  rw [hr.missing_iff]
  rcases known with reported | ⟨a, none⟩
  · exact .inl reported
  · refine .inr ⟨threepf_record t, List.mem_map_of_mem ht, rfl, fun complete => ?_⟩
    -- the rows that it would have to have are no other's
    obtain ⟨row, hrow, hserial⟩ := mem_stored_serials.mp (complete.1 a)
    obtain ⟨t', ht', hrow⟩ := hc.mem_threepf.mp hrow
    have serials : (s.threepf_db.database.map (·.record.serial)).Nodup := h.sorted.imp fun h => Nat.ne_of_lt h
    obtain rfl : t' = t :=
      List.inj_on_of_nodup_map serials ht' ht ((threepf_kserial (hc.part t' ht') hrow).symm.trans hserial)
    rw [none] at hrow
    cases hrow

/-- **The check** leaves what is kept, and lists the rest. -/
theorem Holds.closed {ts : List (threepf_kconfig_record K)} (hc : Holds s task out failed left c) (h : Flagged s)
    (legs : (s.threepf_db.database.flatMap (·.stored_legs)).Nodup) (p : Pass task ts)
    (known : ∀ t ∈ s.threepf_db.database, t.record.serial ∈ failed →
      t.record.serial ∈ p.reported ∨ ∃ a, (left t).threepf_tables a = []) :
    Closed s task out (p.close h.config_database c) := by
  have : Nonempty ThreepfTable := ⟨.threepf_momentum⟩
  have listed : Listed h.config_database (task.writer.merge_failure_list p.reported).toWriter c.toContainer := by
    simp [Listed, IntegrationWriter.merge_failure_list, Writer.merge_failure_list, Task.writer]
  have hr : Repaired task.collects h.config_database _ c.toContainer _ _ :=
    integrity_handler_repaired h.flaggedAtMostOnce (hc.ofTask h) listed
  have collects : (task.writer.merge_failure_list p.reported).collects = task.collects := by
    funext i
    cases i <;> rfl
  have missing : (p.close h.config_database c).payload.failed_serials = (integrity_handler task.collects
      h.config_database (task.writer.merge_failure_list p.reported).toWriter c.toContainer).1.missing_serials := by
    rw [← collects]
    rfl
  have container : (p.close h.config_database c).container.toContainer = (integrity_handler task.collects
      h.config_database (task.writer.merge_failure_list p.reported).toWriter c.toContainer).2 := by
    rw [← collects]
    rfl
  have taken : (p.close h.config_database c).container.toContainer = c.toContainer.without task.collects
      h.config_database (p.close h.config_database c).payload.failed_serials := by
    rw [container, missing, ← hr.nothing_else]
  have carries := hc.carries_without h _ (g := (p.close h.config_database c).container) rfl taken
  have part := part_kept hc.part (p.close h.config_database c).payload.failed_serials
  refine ⟨rfl, rfl, kept (p.close h.config_database c).payload.failed_serials left, ?_, fun t ht hM => ?_⟩
  · constructor
    case twopf_samples => exact (congrArg (fun g => g.twopf_samples) taken).trans hc.twopf_samples
    case threepf_samples => exact (congrArg (fun g => g.threepf_samples) taken).trans hc.threepf_samples
    case carries => exact carries
    case part => exact part
    case whole =>
      intro t ht hM
      rw [kept, if_neg hM]
      refine hc.whole t ht fun hfail => hM ?_
      have reported : t.record.serial ∈ (task.writer.merge_failure_list p.reported).failed_serials ∨
          ∃ a, (left t).threepf_tables a = [] := by
        simpa [IntegrationWriter.merge_failure_list, Writer.merge_failure_list, Task.writer] using known t ht hfail
      rw [missing]
      exact hc.failed_missing h hr ht reported
    case noRepeats => exact ((tidy_left h legs part).of_carries carries).noRepeats hc.noRepeats.background
  · rw [kept, if_pos hM]
    exact ⟨fun _ => .refl _, fun _ => .refl _, fun _ => .refl _, fun _ => id⟩

/-! ### A seeded pass -/

/-- The rows of two containers. -/
def Attached.append (b b' : Attached V) : Attached V where
  threepf_tables a := b.threepf_tables a ++ b'.threepf_tables a
  twopf_tables t := b.twopf_tables t ++ b'.twopf_tables t
  side_tables i := b.side_tables i ++ b'.side_tables i
  background := b.background ++ b'.background
  workers := b.workers ++ b'.workers

/-- What is left after a pass over the triangles in `M`, seeded from a container where `left` is. -/
def onto (M : Finset ℕ) (left left' : threepf_kconfig_record K → Attached V) (t : threepf_kconfig_record K) :
    Attached V :=
  if t.record.serial ∈ M then (left t).append (left' t) else left t

theorem perm_onto {ρ : Type*} (table : Attached V → List ρ)
    (append : ∀ b b' : Attached V, table (b.append b') = table b ++ table b') (M : Finset ℕ) :
    ((s.threepf_db.database.map left ++ (prepare_queue s M).map left').flatMap table).Perm
      ((s.threepf_db.database.map (onto M left left')).flatMap table) := by
  have queue : (prepare_queue s M).flatMap (fun t => table (left' t)) =
      s.threepf_db.database.flatMap fun t => if t.record.serial ∈ M then table (left' t) else [] := by
    rw [prepare_queue]
    induction s.threepf_db.database with
    | nil => rfl
    | cons t ts ih => by_cases ht : t.record.serial ∈ M <;> simp [ht, ih]
  rw [List.flatMap_append, List.flatMap_map, List.flatMap_map, List.flatMap_map, queue]
  refine (List.flatMap_append_perm _ _ _).trans (.of_eq (List.flatMap_congr fun t _ => ?_))
  rw [onto]
  split_ifs
  · rw [append]
  · rw [List.append_nil]

theorem carries_onto (M : Finset ℕ) : Carries (s.threepf_db.database.map left ++ (prepare_queue s M).map left')
    (s.threepf_db.database.map (onto M left left')) where
  threepf _ := perm_onto _ (fun _ _ => rfl) M
  twopf _ := perm_onto _ (fun _ _ => rfl) M
  side _ := perm_onto _ (fun _ _ => rfl) M
  background _ := (perm_onto _ (fun _ _ => rfl) M).mem_iff

/-- Rows of the background apart, `b` has none. -/
theorem Part.append_of_empty {b b' b'' : Attached V} (empty : Part b b.backg_only) (h : Part b' b'')
    (background : ∀ x ∈ b.background, x ∈ b''.background) : Part (b.append b') b'' where
  threepf a := by simpa [Attached.append, List.eq_nil_of_sublist_nil (empty.threepf a)] using h.threepf a
  twopf t := by simpa [Attached.append, List.eq_nil_of_sublist_nil (empty.twopf t)] using h.twopf t
  side i := by simpa [Attached.append, List.eq_nil_of_sublist_nil (empty.side i)] using h.side i
  background x hx := (List.mem_append.mp hx).elim (background x) (h.background x)

theorem Part.append_right {b' b'' : Attached V} (h : Part b'' b') (b : Attached V) : Part b'' (b.append b') where
  threepf a := (h.threepf a).trans (List.sublist_append_right _ _)
  twopf t := (h.twopf t).trans (List.sublist_append_right _ _)
  side i := (h.side i).trans (List.sublist_append_right _ _)
  background x hx := List.mem_append_right _ (h.background x hx)

variable {seed : ContentGroup V}

theorem mem_prepare_queue {M : Finset ℕ} {t : threepf_kconfig_record K} :
    t ∈ prepare_queue s M ↔ t ∈ s.threepf_db.database ∧ t.record.serial ∈ M := by
  simp [prepare_queue]

/-- **A seeded pass** aggregates what it leaves onto the seed, without a collision. -/
theorem Closed.exists_holds (hseed : Closed s task out seed) (h : Flagged s)
    (legs : (s.threepf_db.database.flatMap (·.stored_legs)).Nodup)
    (p : Pass task (prepare_queue s seed.payload.failed_serials)) :
    ∃ c left, p.integrate_seeded s seed = some c ∧
      Holds s task (combine seed.payload.failed_serials out p.out) (p.failed ∩ seed.payload.failed_serials) left c ∧
      ∀ t ∈ s.threepf_db.database, t.record.serial ∈ p.failed ∩ seed.payload.failed_serials →
        t.record.serial ∈ p.reported ∨ ∃ a, (left t).threepf_tables a = [] := by
  obtain ⟨left, holds, emptied⟩ := hseed.holds
  have part : ∀ t ∈ s.threepf_db.database, Part (onto seed.payload.failed_serials left p.left t)
      (threepf_kmode task (combine seed.payload.failed_serials out p.out t) t) := by
    intro t ht
    rw [onto, combine]
    split_ifs with hM
    · exact (emptied t ht hM).append_of_empty (p.part t (mem_prepare_queue.mpr ⟨ht, hM⟩))
        (holds.part t ht).background
    · exact holds.part t ht
  have whole : ∀ t ∈ s.threepf_db.database, t.record.serial ∉ p.failed ∩ seed.payload.failed_serials →
      Part (threepf_kmode task (combine seed.payload.failed_serials out p.out t) t)
        (onto seed.payload.failed_serials left p.left t) := by
    intro t ht ok
    rw [onto, combine]
    split_ifs with hM
    · refine (p.whole t (mem_prepare_queue.mpr ⟨ht, hM⟩) fun hfail => ok ?_).append_right _
      exact Finset.mem_inter.mpr ⟨hfail, hM⟩
    · exact holds.whole t ht hM
  have carries : Carries (seed.container.attached :: p.batches)
      (s.threepf_db.database.map (onto seed.payload.failed_serials left p.left)) :=
    (holds.carries.append p.split).trans (carries_onto _)
  obtain ⟨c, hc, holds'⟩ := Seeding.exists_holds h legs carries part whole
  refine ⟨c, _, ?_, holds', fun t ht hfail => ?_⟩
  · rw [List.foldlM_cons] at hc
    rw [Pass.integrate_seeded, seed_writer, hseed.statistics, hseed.initial_conditions]
    simp only [Task.writer, Bool.and_self]
    exact hc
  · obtain ⟨hfail, hM⟩ := Finset.mem_inter.mp hfail
    refine (p.known t (mem_prepare_queue.mpr ⟨ht, hM⟩) hfail).imp_right fun ⟨a, ha⟩ => ⟨a, ?_⟩
    simp only [onto, if_pos hM, Attached.append, ha, List.append_nil]
    exact List.eq_nil_of_sublist_nil ((emptied t ht hM).threepf a)

theorem Pass.exists_holds (p : Pass task s.threepf_db.database) (h : Flagged s)
    (legs : (s.threepf_db.database.flatMap (·.stored_legs)).Nodup) :
    ∃ c, p.integrate (create_tables s) = some c ∧ Holds s task p.out p.failed p.left c :=
  Seeding.exists_holds h legs p.split p.part p.whole

/-- Every content group is closed. -/
theorem Obtained.closed {h : Flagged s} (legs : (s.threepf_db.database.flatMap (·.stored_legs)).Nodup)
    {g : ContentGroup V} (obtained : Obtained h task out g) : Closed s task out g := by
  induction obtained with
  | unseeded p hc =>
    obtain ⟨c', hc', holds⟩ := p.exists_holds h legs
    obtain rfl := Option.some.inj (hc'.symm.trans hc)
    exact holds.closed h legs p p.known
  | seeded _ p hc ih =>
    obtain ⟨c', left, hc', holds, known⟩ := ih.exists_holds h legs p
    obtain rfl := Option.some.inj (hc'.symm.trans hc)
    exact holds.closed h legs p known

/-- **Seeded completion**: whatever fails in the passes over the triangles of a task, none of them meets a row that is
there, and if none of those fails that a seed lacks, the container has the rows of one pass in which none fails. -/
theorem seeded_completion {cn : K} (h : (runs cn).Reachable s) (task : Task V) :
    (∀ p : Pass task s.threepf_db.database, ∃ c, p.integrate (create_tables s) = some c ∧ NoRepeats c) ∧
    ∀ out (seed : ContentGroup V), Obtained (flagged_of_reachable h).2 task out seed →
      ∀ p : Pass task (prepare_queue s seed.payload.failed_serials),
        ∃ c, p.integrate_seeded s seed = some c ∧ NoRepeats c ∧
          (p.Succeeds → ∀ full : Pass task s.threepf_db.database, full.Succeeds →
            (∀ t ∈ s.threepf_db.database, full.out t = combine seed.payload.failed_serials out p.out t) →
            ∃ c', full.integrate (create_tables s) = some c' ∧ SameRows c c') := by
  have flagged := (flagged_of_reachable h).2
  have legs := nodup_stored_legs_of_reachable h
  refine ⟨fun p => ?_, fun out seed obtained p => ?_⟩
  · obtain ⟨c, hc, holds⟩ := p.exists_holds flagged legs
    exact ⟨c, hc, holds.noRepeats⟩
  · obtain ⟨c, left, hc, holds, -⟩ := (obtained.closed legs).exists_holds flagged legs p
    refine ⟨c, hc, holds.noRepeats, fun succeeds full full_succeeds same => ?_⟩
    obtain ⟨c', hc', holds'⟩ := full.exists_holds flagged legs
    refine ⟨c', hc', holds.sameRows holds' (fun t ht hfail => ?_) full_succeeds same⟩
    obtain ⟨hfail, hM⟩ := Finset.mem_inter.mp hfail
    exact succeeds t (mem_prepare_queue.mpr ⟨ht, hM⟩) hfail

/-- A pass in which triangles that fail are reported, and leave their rows of the background. -/
def pass (task : Task V) (out : threepf_kconfig_record K → Output V) (ts : List (threepf_kconfig_record K))
    (failed : Finset ℕ) : Pass task ts where
  out := out
  failed := failed
  reported := failed
  left := kept failed fun t => threepf_kmode task (out t) t
  batches := ts.map (kept failed fun t => threepf_kmode task (out t) t)
  part t _ := by
    rw [kept]
    split_ifs
    · exact ⟨fun _ => List.nil_sublist _, fun _ => List.nil_sublist _, fun _ => List.nil_sublist _, fun _ => id⟩
    · exact ⟨fun _ => .refl _, fun _ => .refl _, fun _ => .refl _, fun _ => id⟩
  whole t _ ok := by
    rw [kept, if_neg ok]
    exact ⟨fun _ => .refl _, fun _ => .refl _, fun _ => .refl _, fun _ => id⟩
  known _ _ hfail := .inl hfail
  split := .refl _

/-- A task with two times and one page. -/
def twoTimes : Task Unit where
  times := [3, 4]
  times_nodup := by decide
  threepf_pages _ := 1
  twopf_pages _ := 1
  coordinate_pages := 1
  background _ _ := ()
  collect_statistics := true
  collect_initial_conditions := true

/-- Integrations that all give the same. -/
def unitOutput (_ : threepf_kconfig_record ℚ) : Output Unit where
  threepf _ _ _ := ()
  twopf _ _ _ _ := ()
  side _ _ := ()

/-- The first of two triangles fails, which stores the background and a leg of the other, and then succeeds. -/
theorem seeded_completion_sharing : ∃ c c' c'',
    (pass twoTimes unitOutput sharing.threepf_db.database {0}).integrate (create_tables sharing) = some c ∧
    (pass twoTimes unitOutput (prepare_queue sharing ((pass twoTimes unitOutput sharing.threepf_db.database {0}).close
      (flagged_of_reachable reachable_sharing).2.config_database c).payload.failed_serials) ∅).integrate_seeded
        sharing ((pass twoTimes unitOutput sharing.threepf_db.database {0}).close
          (flagged_of_reachable reachable_sharing).2.config_database c) = some c' ∧
    (pass twoTimes unitOutput sharing.threepf_db.database ∅).integrate (create_tables sharing) = some c'' ∧
    NoRepeats c' ∧ SameRows c' c'' := by
  obtain ⟨unseeded, seeded⟩ := seeded_completion reachable_sharing twoTimes
  obtain ⟨c, hc, -⟩ := unseeded (pass twoTimes unitOutput sharing.threepf_db.database {0})
  obtain ⟨c', hc', noRepeats, completes⟩ := seeded _ _ (.unseeded _ hc) (pass twoTimes unitOutput _ ∅)
  obtain ⟨c'', hc'', sameRows⟩ := completes (fun _ _ => Finset.notMem_empty _)
    (pass twoTimes unitOutput sharing.threepf_db.database ∅) (fun _ _ => Finset.notMem_empty _)
    fun t _ => by rw [combine]; exact (ite_self _).symm
  exact ⟨c, c', c'', hc, hc', hc'', noRepeats, sameRows⟩

end Seeding

end CppTransport.Runtime
