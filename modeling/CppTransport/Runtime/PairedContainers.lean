import CppTransport.Runtime.KeptConfigurations

/-!
# Paired containers

A paired integration fills two containers, one with the correlation functions and one with
those of the curvature perturbation. When they are closed each is checked by itself, and
then `synchronize_missing_serials` makes the two lists of missing configurations equal:
what is missing from one container only is put on the list of failures of the other, which
is checked again.

## The model

Each writer goes with its container. The check of a writer is the handler for the type of
its task; the handlers for threepf tasks are those of `CppTransport.Runtime.Integrity`,
the handlers for twopf tasks are here. A table of metadata exists only if it is collected.

## What is proved

* `twopf_integrity_handler_eq`: for the check, a twopf container is a threepf container
  whose configurations store no twopf data;
* `Absorbs`: after a check, checking again with more failures finds these and no others;
* `paired_containers_synchronized`: for both types of task, whatever is present and whatever
  failed, the lists agree afterwards, on the union of those before, both containers are
  consistent with it, and synchronizing again changes nothing.
-/

set_option linter.unusedSectionVars false

namespace CppTransport.Runtime

open Library

variable {V : Type*}

/-! ### Containers of twopf tasks -/

/-- The configuration database of a twopf task: serial numbers, in the order of its map. -/
structure TwopfConfigDatabase where
  serials : List ℕ
  sorted : serials.Pairwise (· < ·)

/-- A container of a twopf task: `β` names the tables that the check compares, `σ` the others. -/
structure TwopfContainer (β σ V : Type*) where
  /-- Serial numbers in the sample table. -/
  samples : List ℕ
  tables : β → List (Row V)
  /-- Tables of statistics and initial conditions. -/
  side_tables : σ → List (Row V)

section Handler

variable {β σ : Type*} [Fintype β]

/-- The missing serials of all tables and those advised as failed. -/
def twopf_total_missing (w : Writer) (c : TwopfContainer β σ V) : Finset ℕ :=
  let total := Finset.univ.biUnion fun b => get_missing_serials c.samples (c.tables b)
  total ∪ find_failed_but_undropped_serials w total

/-- The body shared by the two handlers. -/
def twopf_integrity_handler (collects : σ → Bool) (db : TwopfConfigDatabase) (w : Writer)
    (c : TwopfContainer β σ V) : Writer × TwopfContainer β σ V :=
  let total := twopf_total_missing w c
  if 0 < total.card then
    ((w.advise_missing_content).set_missing_serials total,
      { c with
        tables := fun b =>
          drop_configurations total (get_missing_serials c.samples (c.tables b)) db.serials (c.tables b)
        side_tables := fun i =>
          if collects i then drop_side_configurations total db.serials (c.side_tables i) else c.side_tables i })
  else (w, c)

end Handler

/-- Tables of a twopf container that the check compares. -/
inductive TwopfTaskTable where
  | twopf_re
  | tensor_twopf
  deriving DecidableEq

instance : Fintype TwopfTaskTable where
  elems := {.twopf_re, .tensor_twopf}
  complete := by intro t; cases t <;> decide

/-- Tables of metadata of a twopf container. -/
inductive TwopfSideTable where
  | stats
  | ics
  deriving DecidableEq

/-- Which metadata a twopf integration collects. -/
def IntegrationWriter.twopf_collects (w : IntegrationWriter) : TwopfSideTable → Bool
  | .stats => w.collect_statistics
  | .ics => w.collect_initial_conditions

/-- `check_twopf_integrity_handler`. -/
def check_twopf_integrity_handler (db : TwopfConfigDatabase) (w : IntegrationWriter)
    (c : TwopfContainer TwopfTaskTable TwopfSideTable V) :
    IntegrationWriter × TwopfContainer TwopfTaskTable TwopfSideTable V :=
  let r := twopf_integrity_handler w.twopf_collects db w.toWriter c
  ({ w with toWriter := r.1 }, r.2)

/-- `check_zeta_twopf_integrity_handler`: there are no metadata to drop. -/
def check_zeta_twopf_integrity_handler (db : TwopfConfigDatabase) (w : Writer)
    (c : TwopfContainer ZetaTwopfTable Empty V) : Writer × TwopfContainer ZetaTwopfTable Empty V :=
  twopf_integrity_handler Empty.elim db w c

/-! ### Synchronization -/

/-- `merge_failure_list`. -/
def Writer.merge_failure_list (w : Writer) (failed : Finset ℕ) : Writer :=
  let failed_serials := w.failed_serials ∪ failed
  { w with
    failed_serials := failed_serials
    fail := failed_serials ≠ ∅ }

/-- `merge_failure_list` of an integration writer. -/
def IntegrationWriter.merge_failure_list (w : IntegrationWriter) (failed : Finset ℕ) : IntegrationWriter :=
  { w with toWriter := w.toWriter.merge_failure_list failed }

section Synchronize

variable {C D : Type*}

/-- `synchronize_missing_serials`; `i_check` and `p_check` are the integrity checks of the writers. -/
def synchronize_missing_serials (i_check : IntegrationWriter → C → IntegrationWriter × C)
    (p_check : Writer → D → Writer × D) (i_writer : IntegrationWriter × C) (p_writer : Writer × D) :
    (IntegrationWriter × C) × (Writer × D) :=
  let integration_missing := i_writer.1.missing_serials
  let postintegration_missing := p_writer.1.missing_serials
  let total_missing := integration_missing ∪ postintegration_missing
  let integration_discrepant := total_missing \ integration_missing
  let i_writer :=
    if 0 < integration_discrepant.card then
      i_check (i_writer.1.merge_failure_list integration_discrepant) i_writer.2
    else i_writer
  let postintegration_discrepant := total_missing \ postintegration_missing
  let p_writer :=
    if 0 < postintegration_discrepant.card then
      p_check (p_writer.1.merge_failure_list postintegration_discrepant) p_writer.2
    else p_writer
  (i_writer, p_writer)

/-- `close_writer` for a pair of writers, up to their finalization. -/
def close_writer (i_check : IntegrationWriter → C → IntegrationWriter × C) (p_check : Writer → D → Writer × D)
    (i_writer : IntegrationWriter × C) (p_writer : Writer × D) : (IntegrationWriter × C) × (Writer × D) :=
  synchronize_missing_serials i_check p_check (i_check i_writer.1 i_writer.2) (p_check p_writer.1 p_writer.2)

/-- After the check of a writer, which leaves `w` and `c`, checking again with more failures lists these beside
what was listed, and what is left is `without` them. -/
structure Absorbs {W : Type*} (lists : W → Writer) (merge : W → Finset ℕ → W) (check : W → C → W × C)
    (without : Finset ℕ → C) (w : W) (c : C) : Prop where
  container : c = without (lists w).missing_serials
  missing : ∀ D : Finset ℕ, D.Nonempty →
    (lists (check (merge w D) c).1).missing_serials = (lists w).missing_serials ∪ D
  container_again : ∀ D : Finset ℕ, D.Nonempty →
    (check (merge w D) c).2 = without ((lists w).missing_serials ∪ D)

/-- Merging what another list has beside and checking again, if there is anything. -/
theorem Absorbs.discrepant {W : Type*} {lists : W → Writer} {merge : W → Finset ℕ → W} {check : W → C → W × C}
    {without : Finset ℕ → C} {w : W} {c : C} (h : Absorbs lists merge check without w c) {T : Finset ℕ}
    (sub : (lists w).missing_serials ⊆ T) {r : W × C}
    (hr : r = if 0 < (T \ (lists w).missing_serials).card then
      check (merge w (T \ (lists w).missing_serials)) c else (w, c)) :
    (lists r.1).missing_serials = T ∧ r.2 = without T := by
  have union : (lists w).missing_serials ∪ (T \ (lists w).missing_serials) = T := Finset.union_sdiff_of_subset sub
  split_ifs at hr with some
  · have some := Finset.card_pos.mp some
    rw [hr, h.missing _ some, h.container_again _ some, union]
    exact ⟨rfl, rfl⟩
  · have same : (lists w).missing_serials = T := by
      have none : T \ (lists w).missing_serials = ∅ := by simpa using some
      rw [none, Finset.union_empty] at union
      exact union
    rw [hr, ← same]
    exact ⟨rfl, h.container⟩

variable {i_check : IntegrationWriter → C → IntegrationWriter × C} {p_check : Writer → D → Writer × D}
  {i_without : Finset ℕ → C} {p_without : Finset ℕ → D} {i : IntegrationWriter × C} {p : Writer × D}

/-- **Fixed point**: two writers with the same list have nothing to synchronize. -/
theorem synchronize_of_eq (h : i.1.missing_serials = p.1.missing_serials) :
    synchronize_missing_serials i_check p_check i p = (i, p) := by
  simp [synchronize_missing_serials, h]

/-- **Synchronization** of writers that have been checked. -/
theorem synchronize_spec
    (hi : Absorbs IntegrationWriter.toWriter IntegrationWriter.merge_failure_list i_check i_without i.1 i.2)
    (hp : Absorbs id Writer.merge_failure_list p_check p_without p.1 p.2) :
    ∃ i' p', synchronize_missing_serials i_check p_check i p = (i', p') ∧
      i'.1.missing_serials = i.1.missing_serials ∪ p.1.missing_serials ∧
      p'.1.missing_serials = i.1.missing_serials ∪ p.1.missing_serials ∧
      i'.2 = i_without (i.1.missing_serials ∪ p.1.missing_serials) ∧
      p'.2 = p_without (i.1.missing_serials ∪ p.1.missing_serials) := by
  obtain ⟨mi, ci⟩ := hi.discrepant Finset.subset_union_left rfl
  obtain ⟨mp, cp⟩ := hp.discrepant Finset.subset_union_right rfl
  exact ⟨_, _, rfl, mi, mp, ci, cp⟩

/-- What is asked of closing the writers `i` and `p`: `i_consistent` and `p_consistent` say when a container has
nothing of the given configurations. -/
structure Synchronized (i_check : IntegrationWriter → C → IntegrationWriter × C) (p_check : Writer → D → Writer × D)
    (i_consistent : Finset ℕ → C → Prop) (p_consistent : Finset ℕ → D → Prop) (i : IntegrationWriter × C)
    (p : Writer × D) : Prop where
  integration_missing : (close_writer i_check p_check i p).1.1.missing_serials =
    (i_check i.1 i.2).1.missing_serials ∪ (p_check p.1 p.2).1.missing_serials
  postintegration_missing : (close_writer i_check p_check i p).2.1.missing_serials =
    (i_check i.1 i.2).1.missing_serials ∪ (p_check p.1 p.2).1.missing_serials
  integration_consistent : i_consistent (close_writer i_check p_check i p).1.1.missing_serials
    (close_writer i_check p_check i p).1.2
  postintegration_consistent : p_consistent (close_writer i_check p_check i p).2.1.missing_serials
    (close_writer i_check p_check i p).2.2
  again : synchronize_missing_serials i_check p_check (close_writer i_check p_check i p).1
    (close_writer i_check p_check i p).2 = close_writer i_check p_check i p

/-- Checks that absorb what is merged are synchronized, if it is consistent to be without more than they list. -/
theorem Absorbs.synchronized {i_consistent : Finset ℕ → C → Prop} {p_consistent : Finset ℕ → D → Prop}
    (hi : Absorbs IntegrationWriter.toWriter IntegrationWriter.merge_failure_list i_check i_without
      (i_check i.1 i.2).1 (i_check i.1 i.2).2)
    (hp : Absorbs id Writer.merge_failure_list p_check p_without (p_check p.1 p.2).1 (p_check p.1 p.2).2)
    (ci : ∀ M, (i_check i.1 i.2).1.missing_serials ⊆ M → i_consistent M (i_without M))
    (cp : ∀ M, (p_check p.1 p.2).1.missing_serials ⊆ M → p_consistent M (p_without M)) :
    Synchronized i_check p_check i_consistent p_consistent i p := by
  obtain ⟨i', p', h, mi, mp, hi', hp'⟩ := synchronize_spec hi hp
  have closed : close_writer i_check p_check i p = (i', p') := h
  constructor
  case integration_missing => rw [closed, mi]
  case postintegration_missing => rw [closed, mp]
  case integration_consistent =>
    rw [closed, mi, hi']
    exact ci _ Finset.subset_union_left
  case postintegration_consistent =>
    rw [closed, mp, hp']
    exact cp _ Finset.subset_union_right
  case again =>
    rw [closed]
    exact synchronize_of_eq (mi.trans mp.symm)

end Synchronize

/-! ### Checking again with more failures -/

section Threepf

variable {α β σ : Type*} [Fintype α] [Fintype β] {db : ConfigDatabase} {collects : σ → Bool} {w : Writer}
  {c : Container α β σ V}

/-- **Absorption**: the discrepant configurations are taken out, and cost no others. -/
theorem integrity_handler_absorbs [Nonempty α] (flagged : db.FlaggedAtMostOnce) (h : OfTask db c)
    (fresh : w.missing_serials = ∅) :
    Absorbs id Writer.merge_failure_list (integrity_handler collects db) (fun M => c.without collects db M)
      (integrity_handler collects db w c).1 (integrity_handler collects db w c).2 := by
  have hr : Repaired collects db w c _ _ := integrity_handler_repaired flagged h (by simp [Listed, fresh])
  have h' : OfTask db (integrity_handler collects db w c).2 := hr.nothing_else ▸ h.without _
  have total : ∀ D : Finset ℕ,
      total_missing db ((integrity_handler collects db w c).1.merge_failure_list D)
        (integrity_handler collects db w c).2 =
      (integrity_handler collects db w c).1.missing_serials ∪ D := fun D =>
    hr.total_missing_union flagged h (by simp [Writer.merge_failure_list, hr.failed_eq])
  refine ⟨hr.nothing_else, fun D some => ?_, fun D some => ?_⟩
  · have nonempty : ((integrity_handler collects db w c).1.missing_serials ∪ D).Nonempty :=
      some.mono Finset.subset_union_right
    simp only [id, integrity_handler_eq h', total, if_pos nonempty]
  · rw [integrity_handler_eq h', total]
    conv_lhs => rw [hr.nothing_else]
    exact Container.without_without_of_subset Finset.subset_union_left

/-- No rows of the configurations `M`, nor of what they store, are in any table, and all others are complete. -/
structure Container.Consistent (collects : σ → Bool) (db : ConfigDatabase) (M : Finset ℕ)
    (c : Container α β σ V) : Prop where
  threepf : ∀ a, ∀ s ∈ M, s ∉ stored_serials (c.threepf_tables a)
  twopf : ∀ u ∈ db.threepf, u.serial ∈ M → ∀ j, u.Stores j → ∀ b, j ∉ stored_serials (c.twopf_tables b)
  side : ∀ i, collects i → ∀ s ∈ M, s ∉ stored_serials (c.side_tables i)
  complete : ∀ u ∈ db.threepf, u.serial ∉ M → Complete db c u

/-- A container without at least what the check takes out. -/
theorem consistent_without (flagged : db.FlaggedAtMostOnce) (h : OfTask db c) (fresh : w.missing_serials = ∅)
    {M : Finset ℕ} (sub : (integrity_handler collects db w c).1.missing_serials ⊆ M) :
    (c.without collects db M).Consistent collects db M := by
  have listed : Listed db w c := by simp [Listed, fresh]
  refine ⟨fun a s hs hrow => (mem_threepf_without.mp hrow).2 hs,
    fun u hu hs j stores b hrow => (mem_twopf_without.mp hrow).2 ⟨u, hu, hs, stores⟩,
    fun i hi s hs hrow => ((mem_side_without hi).mp hrow).2 hs, fun u hu hs => ?_⟩
  refine Complete.without flagged hu ?_ hs
  by_contra incomplete
  refine hs (sub ?_)
  rw [missing_serials_handler flagged h listed]
  exact (mem_total_missing flagged h _).mpr (.inr ⟨u, hu, rfl, incomplete⟩)

end Threepf

/-! ### A twopf container as a threepf container -/

/-- Configurations that store no twopf data. -/
def TwopfConfigDatabase.toConfigDatabase (db : TwopfConfigDatabase) : ConfigDatabase where
  twopf := []
  threepf := db.serials.map fun s => ⟨s, 0, 0, 0, false, false, false⟩
  threepf_sorted := by simpa [Function.comp_def] using db.sorted

theorem TwopfConfigDatabase.threepf_serials (db : TwopfConfigDatabase) :
    db.toConfigDatabase.threepf_serials = db.serials := by
  simp [ConfigDatabase.threepf_serials, toConfigDatabase, Function.comp_def]

section Twopf

variable {β σ : Type*} {db : TwopfConfigDatabase} {collects : σ → Bool} {w : Writer} {c c' : TwopfContainer β σ V}

/-- The tables that are checked stand in for the threepf tables. -/
def TwopfContainer.toContainer (c : TwopfContainer β σ V) : Container β Empty σ V where
  twopf_samples := []
  threepf_samples := c.samples
  threepf_tables := c.tables
  twopf_tables := Empty.elim
  side_tables := c.side_tables

theorem TwopfContainer.toContainer_inj (h : c.toContainer = c'.toContainer) : c = c' := by
  obtain ⟨samples, tables, side_tables⟩ := c
  obtain ⟨samples', tables', side_tables'⟩ := c'
  simpa [toContainer] using h

/-- The container without the rows of the configurations `M`. -/
def TwopfContainer.without (c : TwopfContainer β σ V) (collects : σ → Bool) (M : Finset ℕ) :
    TwopfContainer β σ V :=
  { c with
    tables := fun b => (c.tables b).filter fun row => row.kserial ∉ M
    side_tables := fun i =>
      if collects i then (c.side_tables i).filter fun row => row.kserial ∉ M else c.side_tables i }

theorem TwopfContainer.toContainer_without (db : TwopfConfigDatabase) (M : Finset ℕ) :
    (c.without collects M).toContainer = c.toContainer.without collects db.toConfigDatabase M := by
  simp only [toContainer, TwopfContainer.without, Container.without, Container.mk.injEq, true_and]
  refine ⟨?_, trivial⟩
  funext b
  exact b.elim

/-- A container of the task, whatever rows it has. -/
structure TwopfContainer.OfTask (db : TwopfConfigDatabase) (c : TwopfContainer β σ V) : Prop where
  samples : c.samples = db.serials
  rows : ∀ b, ∀ row ∈ c.tables b, row.kserial ∈ db.serials
  side_rows : ∀ i, ∀ row ∈ c.side_tables i, row.kserial ∈ db.serials

theorem TwopfContainer.OfTask.toContainer (h : c.OfTask db) :
    Runtime.OfTask db.toConfigDatabase c.toContainer where
  twopf_samples := rfl
  threepf_samples := h.samples.trans db.threepf_serials.symm
  threepf_rows a row hrow := db.threepf_serials ▸ h.rows a row hrow
  twopf_rows b := b.elim
  side_rows i row hrow := db.threepf_serials ▸ h.side_rows i row hrow

variable [Fintype β]

theorem twopf_total_missing_eq : total_missing db.toConfigDatabase w c.toContainer = twopf_total_missing w c := by
  simp [total_missing, twopf_total_missing, TwopfContainer.toContainer, map_twopf_to_threepf_serials]

/-- **The check of a twopf container** is that of a threepf container whose configurations store no twopf data. -/
theorem twopf_integrity_handler_eq : integrity_handler collects db.toConfigDatabase w c.toContainer =
    ((twopf_integrity_handler collects db w c).1, (twopf_integrity_handler collects db w c).2.toContainer) := by
  rw [integrity_handler, twopf_integrity_handler, twopf_total_missing_eq]
  split
  · simp only [TwopfContainer.toContainer, db.threepf_serials, Prod.mk.injEq, Container.mk.injEq, true_and]
    refine ⟨?_, trivial⟩
    funext b
    exact b.elim
  · rfl

theorem flaggedAtMostOnce_toConfigDatabase (db : TwopfConfigDatabase) :
    db.toConfigDatabase.FlaggedAtMostOnce := fun _ hj => absurd hj List.not_mem_nil

theorem twopf_integrity_handler_absorbs [Nonempty β] (h : c.OfTask db) (fresh : w.missing_serials = ∅) :
    Absorbs id Writer.merge_failure_list (twopf_integrity_handler collects db) (fun M => c.without collects M)
      (twopf_integrity_handler collects db w c).1 (twopf_integrity_handler collects db w c).2 := by
  have absorbs : Absorbs id Writer.merge_failure_list (integrity_handler collects db.toConfigDatabase)
      (fun M => c.toContainer.without collects db.toConfigDatabase M) _ _ :=
    integrity_handler_absorbs (flaggedAtMostOnce_toConfigDatabase db) h.toContainer fresh
  rw [twopf_integrity_handler_eq] at absorbs
  refine ⟨TwopfContainer.toContainer_inj ?_, fun D some => ?_, fun D some => TwopfContainer.toContainer_inj ?_⟩
  · rw [TwopfContainer.toContainer_without db]
    exact absorbs.container
  · have missing := absorbs.missing D some
    rwa [twopf_integrity_handler_eq] at missing
  · have again := absorbs.container_again D some
    rw [twopf_integrity_handler_eq] at again
    rw [TwopfContainer.toContainer_without db]
    exact again

/-- No rows of the configurations `M` are in any table, and all others are in every table that is checked. -/
structure TwopfContainer.Consistent (collects : σ → Bool) (db : TwopfConfigDatabase) (M : Finset ℕ)
    (c : TwopfContainer β σ V) : Prop where
  tables : ∀ b, ∀ s ∈ M, s ∉ stored_serials (c.tables b)
  side : ∀ i, collects i → ∀ s ∈ M, s ∉ stored_serials (c.side_tables i)
  complete : ∀ s ∈ db.serials, s ∉ M → ∀ b, s ∈ stored_serials (c.tables b)

theorem twopf_consistent_without (h : c.OfTask db) (fresh : w.missing_serials = ∅) {M : Finset ℕ}
    (sub : (twopf_integrity_handler collects db w c).1.missing_serials ⊆ M) :
    (c.without collects M).Consistent collects db M := by
  have consistent : (c.toContainer.without collects db.toConfigDatabase M).Consistent collects
      db.toConfigDatabase M :=
    consistent_without (flaggedAtMostOnce_toConfigDatabase db) h.toContainer fresh
      (by rwa [twopf_integrity_handler_eq])
  rw [← TwopfContainer.toContainer_without db] at consistent
  refine ⟨consistent.threepf, consistent.side, fun s hs hM b => ?_⟩
  exact (consistent.complete _ (List.mem_map_of_mem hs) hM).1 b

end Twopf

/-! ### Both types of task -/

section Paired

variable {db : ConfigDatabase} {w : IntegrationWriter} {p : Writer}

/-- The check of an integration writer absorbs what its handler absorbs: what it collects is not changed. -/
theorem Absorbs.integration {C κ : Type*} (handler : κ → Writer → C → Writer × C) {collects : IntegrationWriter → κ}
    (same : ∀ (w : IntegrationWriter) (x : Writer), collects { w with toWriter := x } = collects w)
    {without : Finset ℕ → C} {x : Writer} {c : C}
    (h : Absorbs id Writer.merge_failure_list (handler (collects w)) without x c) :
    Absorbs IntegrationWriter.toWriter IntegrationWriter.merge_failure_list
      (fun w c => ({ w with toWriter := (handler (collects w) w.toWriter c).1 },
        (handler (collects w) w.toWriter c).2))
      without { w with toWriter := x } c := by
  refine ⟨h.container, fun D some => ?_, fun D some => ?_⟩
  · have missing := h.missing D some
    simpa only [IntegrationWriter.merge_failure_list, same, id] using missing
  · have again := h.container_again D some
    simpa only [IntegrationWriter.merge_failure_list, same, id] using again

theorem check_threepf_absorbs {c : Container ThreepfTable TwopfTable SideTable V} (flagged : db.FlaggedAtMostOnce)
    (h : OfTask db c) (fresh : w.missing_serials = ∅) :
    Absorbs IntegrationWriter.toWriter IntegrationWriter.merge_failure_list (check_threepf_integrity_handler db)
      (fun M => c.without w.collects db M) (check_threepf_integrity_handler db w c).1
      (check_threepf_integrity_handler db w c).2 := by
  have : Nonempty ThreepfTable := ⟨.threepf_momentum⟩
  have same : ∀ (w : IntegrationWriter) (x : Writer),
      IntegrationWriter.collects { w with toWriter := x } = w.collects := fun _ _ => rfl
  have absorbs : Absorbs id Writer.merge_failure_list (integrity_handler w.collects db)
      (fun M => c.without w.collects db M) _ _ := integrity_handler_absorbs flagged h fresh
  exact Absorbs.integration (fun collects => integrity_handler collects db) same absorbs

theorem check_twopf_absorbs {db : TwopfConfigDatabase} {c : TwopfContainer TwopfTaskTable TwopfSideTable V}
    (h : c.OfTask db) (fresh : w.missing_serials = ∅) :
    Absorbs IntegrationWriter.toWriter IntegrationWriter.merge_failure_list (check_twopf_integrity_handler db)
      (fun M => c.without w.twopf_collects M) (check_twopf_integrity_handler db w c).1
      (check_twopf_integrity_handler db w c).2 := by
  have : Nonempty TwopfTaskTable := ⟨.twopf_re⟩
  have same : ∀ (w : IntegrationWriter) (x : Writer),
      IntegrationWriter.twopf_collects { w with toWriter := x } = w.twopf_collects := fun _ _ => rfl
  have absorbs : Absorbs id Writer.merge_failure_list (twopf_integrity_handler w.twopf_collects db)
      (fun M => c.without w.twopf_collects M) _ _ := twopf_integrity_handler_absorbs h fresh
  exact Absorbs.integration (fun collects => twopf_integrity_handler collects db) same absorbs

/-- The writers of a twopf task. -/
theorem twopf_synchronized {db : TwopfConfigDatabase} {c : TwopfContainer TwopfTaskTable TwopfSideTable V}
    {z : TwopfContainer ZetaTwopfTable Empty V} (hc : c.OfTask db) (hz : z.OfTask db)
    (fresh : w.missing_serials = ∅) (fresh' : p.missing_serials = ∅) :
    Synchronized (check_twopf_integrity_handler db) (check_zeta_twopf_integrity_handler db)
      (fun M => TwopfContainer.Consistent w.twopf_collects db M)
      (fun M => TwopfContainer.Consistent Empty.elim db M) (w, c) (p, z) := by
  have : Nonempty ZetaTwopfTable := ⟨.zeta_twopf⟩
  have hp : Absorbs id Writer.merge_failure_list (check_zeta_twopf_integrity_handler db)
      (fun M => z.without Empty.elim M) (check_zeta_twopf_integrity_handler db p z).1
      (check_zeta_twopf_integrity_handler db p z).2 := twopf_integrity_handler_absorbs hz fresh'
  have ci : ∀ M, (check_twopf_integrity_handler db w c).1.missing_serials ⊆ M →
      (c.without w.twopf_collects M).Consistent w.twopf_collects db M := fun _ =>
    twopf_consistent_without hc fresh
  have cp : ∀ M, (check_zeta_twopf_integrity_handler db p z).1.missing_serials ⊆ M →
      (z.without Empty.elim M).Consistent Empty.elim db M := fun _ => twopf_consistent_without hz fresh'
  exact Absorbs.synchronized (i := (w, c)) (p := (p, z)) (check_twopf_absorbs hc fresh) hp ci cp

/-- The writers of a threepf task. -/
theorem threepf_synchronized (flagged : db.FlaggedAtMostOnce)
    {c : Container ThreepfTable TwopfTable SideTable V} {z : Container ZetaThreepfTable ZetaTwopfTable Empty V}
    (hc : OfTask db c) (hz : OfTask db z) (fresh : w.missing_serials = ∅) (fresh' : p.missing_serials = ∅) :
    Synchronized (check_threepf_integrity_handler db) (check_zeta_threepf_integrity_handler db)
      (fun M => Container.Consistent w.collects db M) (fun M => Container.Consistent Empty.elim db M)
      (w, c) (p, z) := by
  have : Nonempty ZetaThreepfTable := ⟨.zeta_threepf⟩
  have hp : Absorbs id Writer.merge_failure_list (check_zeta_threepf_integrity_handler db)
      (fun M => z.without Empty.elim db M) (check_zeta_threepf_integrity_handler db p z).1
      (check_zeta_threepf_integrity_handler db p z).2 := integrity_handler_absorbs flagged hz fresh'
  have ci : ∀ M, (check_threepf_integrity_handler db w c).1.missing_serials ⊆ M →
      (c.without w.collects db M).Consistent w.collects db M := fun _ => consistent_without flagged hc fresh
  have cp : ∀ M, (check_zeta_threepf_integrity_handler db p z).1.missing_serials ⊆ M →
      (z.without Empty.elim db M).Consistent Empty.elim db M := fun _ => consistent_without flagged hz fresh'
  exact Absorbs.synchronized (i := (w, c)) (p := (p, z)) (check_threepf_absorbs flagged hc fresh) hp ci cp

end Paired

namespace Kconfig

namespace State

variable {K : Type*} [Field K] [LinearOrder K] [IsStrictOrderedRing K]

/-- **Synchronization of paired containers**: for twopf tasks, and for threepf tasks with databases that were filled
by any sequence of calls, whatever rows the containers have and whatever failed. -/
theorem paired_containers_synchronized (V : Type*) (cn : K) :
    (∀ (db : TwopfConfigDatabase) (w : IntegrationWriter) (p : Writer)
      (c : TwopfContainer TwopfTaskTable TwopfSideTable V) (z : TwopfContainer ZetaTwopfTable Empty V),
      w.missing_serials = ∅ → p.missing_serials = ∅ → c.OfTask db → z.OfTask db →
        Synchronized (check_twopf_integrity_handler db) (check_zeta_twopf_integrity_handler db)
          (fun M => TwopfContainer.Consistent w.twopf_collects db M)
          (fun M => TwopfContainer.Consistent Empty.elim db M) (w, c) (p, z)) ∧
    ∀ (s : State K) (h : (runs cn).Reachable s) (w : IntegrationWriter) (p : Writer)
      (c : Container ThreepfTable TwopfTable SideTable V) (z : Container ZetaThreepfTable ZetaTwopfTable Empty V),
      w.missing_serials = ∅ → p.missing_serials = ∅ →
      OfTask (flagged_of_reachable h).2.config_database c → OfTask (flagged_of_reachable h).2.config_database z →
        Synchronized (check_threepf_integrity_handler (flagged_of_reachable h).2.config_database)
          (check_zeta_threepf_integrity_handler (flagged_of_reachable h).2.config_database)
          (fun M => Container.Consistent w.collects (flagged_of_reachable h).2.config_database M)
          (fun M => Container.Consistent Empty.elim (flagged_of_reachable h).2.config_database M)
          (w, c) (p, z) := by
  constructor
  · intro db w p c z fresh fresh' hc hz
    exact twopf_synchronized hc hz fresh fresh'
  · intro s h w p c z fresh fresh' hc hz
    exact threepf_synchronized (flagged_of_reachable h).2.flaggedAtMostOnce hc hz fresh fresh'

/-- The database of a twopf task with two configurations. -/
def twoWavenumbers : TwopfConfigDatabase where
  serials := [0, 1]
  sorted := by decide

/-- A container of `twoWavenumbers` in which one of the tables lacks a configuration. -/
def halfWritten : TwopfContainer TwopfTaskTable TwopfSideTable Unit where
  samples := [0, 1]
  tables
    | .twopf_re => [⟨0, ()⟩]
    | .tensor_twopf => [⟨0, ()⟩, ⟨1, ()⟩]
  side_tables _ := []

/-- A zeta container with every row of a database. -/
def filled (db : ConfigDatabase) : Container ZetaThreepfTable ZetaTwopfTable Empty Unit where
  twopf_samples := db.twopf
  threepf_samples := db.threepf_serials
  threepf_tables _ := db.threepf_serials.map fun s => ⟨s, ()⟩
  twopf_tables _ := db.twopf.map fun j => ⟨j, ()⟩
  side_tables := Empty.elim

theorem ofTask_filled (db : ConfigDatabase) : OfTask db (filled db) where
  twopf_samples := rfl
  threepf_samples := rfl
  threepf_rows := by simp [filled]
  twopf_rows := by simp [filled]
  side_rows i := i.elim

/-- A configuration that one table lacks goes from the other container, and so does a triangle that failed. -/
theorem paired_containers_synchronized_sharing :
    Synchronized (check_twopf_integrity_handler twoWavenumbers) (check_zeta_twopf_integrity_handler twoWavenumbers)
      (fun M => TwopfContainer.Consistent (IntegrationWriter.twopf_collects ⟨⟨false, ∅, ∅⟩, true, true⟩)
        twoWavenumbers M)
      (fun M => TwopfContainer.Consistent Empty.elim twoWavenumbers M)
      (⟨⟨false, ∅, ∅⟩, true, true⟩, halfWritten)
      (⟨false, ∅, ∅⟩, ⟨[0, 1], fun _ => [⟨0, ()⟩, ⟨1, ()⟩], Empty.elim⟩) ∧
    Synchronized (check_threepf_integrity_handler (flagged_of_reachable reachable_sharing).2.config_database)
      (check_zeta_threepf_integrity_handler (flagged_of_reachable reachable_sharing).2.config_database)
      (fun M => Container.Consistent (IntegrationWriter.collects ⟨⟨false, {0}, ∅⟩, true, true⟩)
        (flagged_of_reachable reachable_sharing).2.config_database M)
      (fun M => Container.Consistent Empty.elim (flagged_of_reachable reachable_sharing).2.config_database M)
      (⟨⟨false, {0}, ∅⟩, true, true⟩, (integrate sharing {0} ()).toContainer)
      (⟨false, ∅, ∅⟩, filled (flagged_of_reachable reachable_sharing).2.config_database) := by
  obtain ⟨twopf, threepf⟩ := paired_containers_synchronized Unit (1 : ℚ)
  constructor
  · refine twopf _ _ _ _ _ rfl rfl ?_ ?_
    · constructor
      case samples => rfl
      case rows => intro b; cases b <;> simp [halfWritten, twoWavenumbers]
      case side_rows => simp [halfWritten]
    · constructor
      case samples => rfl
      case rows => simp [twoWavenumbers]
      case side_rows => exact fun i => i.elim
  · exact threepf _ reachable_sharing _ _ _ _ rfl rfl
      (written_integrate (flagged_of_reachable reachable_sharing).2 {0} ()).ofTask (ofTask_filled _)

end State

end Kconfig

end CppTransport.Runtime
