import CppTransport.Runtime.Integrity
import CppTransport.Runtime.ThreepfDatabase

/-!
# What is left for the configurations that are kept

Each triangle of a threepf integration writes its own rows, but the twopf of a leg is
written by the one triangle that is flagged for it, and so is the background. When some
triangles fail, the integrity check drops their rows. What `zeta_timeseries_compute`
reads for a triangle that is kept may have been another's to write.

## The model

The databases are those that a sequence of calls to `add_k1k2k3_record` and
`add_alphabeta_record` builds. `Written` is the container after an integration in
which some triangles failed and each of the others wrote what it is flagged to store.
The background is a table that the check does not look at. Which of the failed
triangles the workers reported makes no difference.

## What is proved

* `Flagged`: each leg of a triangle is stored by exactly one triangle, and the
  background by exactly one, whatever was accepted and rejected;
* `kept_iff`: the check keeps exactly the triangles that did not fail;
* `self_sufficient_iff`: all that are kept have what is read for them if and only if none
  of the failed triangles was to store the background or a leg of one that did not fail.
-/

set_option linter.unusedSectionVars false

namespace CppTransport.Runtime

open Library

namespace Kconfig

variable {K : Type*} [Field K] [LinearOrder K] [IsStrictOrderedRing K]

namespace State

open twopf_kconfig_database threepf_kconfig_database

/-! ### The flags -/

instance (t : threepf_kconfig_record K) (j : ℕ) : Decidable (t.Stores j) :=
  inferInstanceAs (Decidable (_ ∨ _ ∨ _))

/-- What a triangle stores belongs to one of its legs. -/
theorem exists_leg_of_stores {t : threepf_kconfig_record K} {j : ℕ} (h : t.Stores j) :
    ∃ leg ∈ t.record.legs, leg.2 = j := by
  rcases h with ⟨-, rfl⟩ | ⟨-, rfl⟩ | ⟨-, rfl⟩
  · exact ⟨(t.record.k1_conventional, t.record.k1_serial), by simp [threepf_kconfig.legs], rfl⟩
  · exact ⟨(t.record.k2_conventional, t.record.k2_serial), by simp [threepf_kconfig.legs], rfl⟩
  · exact ⟨(t.record.k3_conventional, t.record.k3_serial), by simp [threepf_kconfig.legs], rfl⟩

/-- Who stores what. -/
structure Flagged (s : State K) : Prop where
  /-- Triangles are in the order of their serial numbers. -/
  sorted : (s.threepf_db.database.map (·.record.serial)).Pairwise (· < ·)
  /-- A twopf configuration is marked as stored if some triangle stores it. -/
  stored_iff : ∀ j, s.twopf_db.Stored j ↔ ∃ t ∈ s.threepf_db.database, t.Stores j
  /-- No two triangles store it. -/
  once : ∀ t ∈ s.threepf_db.database, ∀ t' ∈ s.threepf_db.database, ∀ j, t.Stores j → t'.Stores j → t = t'
  /-- Legs are stored. -/
  legs : ∀ leg ∈ s.threepf_db.legs, s.twopf_db.Stored leg.2
  /-- As long as the background is to be stored there is no triangle. -/
  background_open : s.threepf_db.store_background = true → s.threepf_db.database = []
  /-- Afterwards one triangle stores it. -/
  background_closed : s.threepf_db.store_background = false →
    ∃ t ∈ s.threepf_db.database, t.store_background = true ∧
      ∀ t' ∈ s.threepf_db.database, t'.store_background = true → t' = t

theorem flagged_create (cn : K) : Flagged (create cn) := by
  constructor <;> simp [create, threepf_kconfig_database.create, twopf_kconfig_database.create, Stored, legs]

variable {s s' : State K} {p : Populated K} {new : List ℕ} {outcome : storage_outcome}

/-- **Flags**: a call keeps them in order, whatever the policy decides. -/
theorem Flagged.applied (h : Flagged s) (hs : Sound s) (ext : Extends s.twopf_db p.twopf_db new)
    (hserial : p.config.serial = s.threepf_db.serial) (applied : Applied s p outcome s') : Flagged s' := by
  have marks : ∀ j, p.twopf_db.Stored j ↔ s.twopf_db.Stored j := fun j => ext.stored_iff
  cases applied with
  | @reject_remove w hi hdb =>
    have same : ∀ j, w.Stored j ↔ s.twopf_db.Stored j := fun j => by rw [Stored, Stored, hdb]
    exact ⟨h.sorted, fun j => (same j).trans (h.stored_iff j), h.once, fun leg hleg => (same _).mpr (h.legs leg hleg),
      h.background_open, h.background_closed⟩
  | reject_retain =>
    exact ⟨h.sorted, fun j => (marks j).trans (h.stored_iff j), h.once,
      fun leg hleg => (marks _).mpr (h.legs leg hleg), h.background_open, h.background_closed⟩
  | @accept w t hi same ht hdb stores stored bg =>
    simp only [marks] at stores stored
    -- what the new triangle stores, no other does
    have fresh : ∀ u ∈ s.threepf_db.database, ∀ j, u.Stores j → ¬ t.Stores j := fun u hu j hj hj' =>
      ((stores j).mp hj').2 ((h.stored_iff j).mpr ⟨u, hu, hj⟩)
    constructor
    case sorted =>
      rw [hdb, List.map_append]
      refine List.pairwise_append.mpr ⟨h.sorted, by simp, fun a ha b hb => ?_⟩
      obtain ⟨u, hu, rfl⟩ := List.mem_map.mp ha
      obtain rfl : b = t.record.serial := by simpa using hb
      rw [ht, hserial]
      exact hs.serial u hu
    case stored_iff =>
      intro j
      rw [stored, h.stored_iff, hdb]
      constructor
      · rintro (⟨u, hu, hj⟩ | hj)
        · exact ⟨u, List.mem_append_left _ hu, hj⟩
        · by_cases old : ∃ u ∈ s.threepf_db.database, u.Stores j
          · obtain ⟨u, hu, hj⟩ := old
            exact ⟨u, List.mem_append_left _ hu, hj⟩
          · exact ⟨t, by simp, (stores j).mpr ⟨hj, fun hst => old ((h.stored_iff j).mp hst)⟩⟩
      · rintro ⟨u, hu, hj⟩
        rcases List.mem_append.mp hu with hu | hu
        · exact .inl ⟨u, hu, hj⟩
        · obtain rfl := List.mem_singleton.mp hu
          exact .inr ((stores j).mp hj).1
    case once =>
      rw [hdb]
      intro u hu v hv j hj hj'
      rcases List.mem_append.mp hu with hu | hu <;> rcases List.mem_append.mp hv with hv | hv
      · exact h.once u hu v hv j hj hj'
      · exact absurd (List.mem_singleton.mp hv ▸ hj') (fresh u hu j hj)
      · exact absurd (List.mem_singleton.mp hu ▸ hj) (fresh v hv j hj')
      · rw [List.mem_singleton.mp hu, List.mem_singleton.mp hv]
    case legs =>
      rw [legs_insert_record hdb, ht]
      intro leg hleg
      rw [stored]
      rcases List.mem_append.mp hleg with hleg | hleg
      · exact .inl (h.legs leg hleg)
      · exact .inr (List.mem_map_of_mem hleg)
    case background_open =>
      intro hopen
      cases hopen
    case background_closed =>
      rintro -
      rw [hdb]
      cases hbg : s.threepf_db.store_background with
      | true =>
        rw [h.background_open hbg]
        exact ⟨t, by simp, bg.trans hbg, by simp⟩
      | false =>
        obtain ⟨u, hu, hst, only⟩ := h.background_closed hbg
        refine ⟨u, List.mem_append_left _ hu, hst, fun v hv hv' => ?_⟩
        rcases List.mem_append.mp hv with hv | hv
        · exact only v hv hv'
        · rw [List.mem_singleton.mp hv, bg, hbg] at hv'
          cases hv'

theorem flagged_of_reachable {cn : K} (h : (runs cn).Reachable s) : Sound s ∧ Flagged s := by
  refine System.Invariant.reachable (I := fun s => Sound s ∧ Flagged s) ⟨?_, ?_⟩ h
  · rintro _ rfl
    exact ⟨sound_create cn, flagged_create cn⟩
  · rintro s c s' ⟨sound, flagged⟩ hs
    obtain ⟨s₁, h₁, sound', -⟩ := exists_apply sound c
    obtain ⟨p, new, s₂, -, ext, -, hserial, h₂, applied⟩ := exists_applied sound c
    obtain rfl : s₁ = s' := Option.some.inj (h₁.symm.trans hs)
    obtain rfl : s₂ = s₁ := Option.some.inj (h₂.symm.trans hs)
    exact ⟨sound', flagged.applied sound ext hserial applied⟩

/-! ### The integration and the check -/

variable {V : Type*}

/-- A record as the integrity check sees it. -/
def threepf_record (t : threepf_kconfig_record K) : ThreepfRecord where
  serial := t.record.serial
  k1_serial := t.record.k1_serial
  k2_serial := t.record.k2_serial
  k3_serial := t.record.k3_serial
  store_twopf_k1 := t.store_twopf_k1
  store_twopf_k2 := t.store_twopf_k2
  store_twopf_k3 := t.store_twopf_k3

/-- The databases as the integrity check sees them. -/
def Flagged.config_database (h : Flagged s) : ConfigDatabase where
  twopf := s.twopf_db.database.map (·.serial)
  threepf := s.threepf_db.database.map threepf_record
  threepf_sorted := by simpa [threepf_record, Function.comp_def] using h.sorted

theorem Flagged.flaggedAtMostOnce (h : Flagged s) : h.config_database.FlaggedAtMostOnce := by
  intro j _ u hu v hv su sv
  obtain ⟨t, ht, rfl⟩ := List.mem_map.mp hu
  obtain ⟨t', ht', rfl⟩ := List.mem_map.mp hv
  rw [h.once t ht t' ht' j su sv]

/-- A container of threepf data, with the table of the background. -/
structure ThreepfContainer (V : Type*) extends Container ThreepfTable TwopfTable SideTable V where
  background : List V

/-- `check_threepf_integrity_handler`; it leaves the background alone. -/
def check (db : ConfigDatabase) (w : IntegrationWriter) (c : ThreepfContainer V) :
    IntegrationWriter × ThreepfContainer V :=
  let r := check_threepf_integrity_handler db w c.toContainer
  (r.1, { c with toContainer := r.2 })

/-- The container after an integration in which the triangles `failed` have failed. -/
structure Written (h : Flagged s) (failed : Finset ℕ) (c : ThreepfContainer V) : Prop where
  /-- The sample tables were made from the databases of the task. -/
  twopf_samples : c.twopf_samples = h.config_database.twopf
  threepf_samples : c.threepf_samples = h.config_database.threepf_serials
  /-- Each of the others has written its own rows, -/
  threepf : ∀ a i, i ∈ stored_serials (c.threepf_tables a) ↔
    ∃ t ∈ s.threepf_db.database, t.record.serial ∉ failed ∧ t.record.serial = i
  /-- the twopf rows of the legs it is flagged to store, -/
  twopf : ∀ b j, j ∈ stored_serials (c.twopf_tables b) ↔
    ∃ t ∈ s.threepf_db.database, t.record.serial ∉ failed ∧ t.Stores j
  /-- and the background if it is flagged to store it. -/
  background : c.background ≠ [] ↔
    ∃ t ∈ s.threepf_db.database, t.record.serial ∉ failed ∧ t.store_background = true
  /-- Metadata belong to triangles of the task. -/
  side : ∀ i, ∀ row ∈ c.side_tables i, row.kserial ∈ h.config_database.threepf_serials

/-- The container of an integration in which every row and the background have the value `v`. -/
def integrate (s : State K) (failed : Finset ℕ) (v : V) : ThreepfContainer V :=
  let done := s.threepf_db.database.filter fun t => t.record.serial ∉ failed
  { twopf_samples := s.twopf_db.database.map (·.serial)
    threepf_samples := s.threepf_db.database.map (·.record.serial)
    threepf_tables := fun _ => done.map fun t => ⟨t.record.serial, v⟩
    twopf_tables := fun _ => done.flatMap fun t =>
      (t.record.legs.filter fun leg => t.Stores leg.2).map fun leg => ⟨leg.2, v⟩
    side_tables := fun _ => []
    background := (done.filter (·.store_background)).map fun _ => v }

/-- What `zeta_timeseries_compute::threepf` reads for a configuration is there: the background, the threepf rows
(with derivatives), and real and imaginary parts of the twopf of each leg. -/
structure SelfSufficient (c : ThreepfContainer V) (config : threepf_kconfig K) : Prop where
  background : c.background ≠ []
  threepf : config.serial ∈ stored_serials (c.threepf_tables .threepf_Nderiv)
  twopf : ∀ leg ∈ config.legs,
    leg.2 ∈ stored_serials (c.twopf_tables .twopf_re) ∧ leg.2 ∈ stored_serials (c.twopf_tables .twopf_im)

variable {failed : Finset ℕ} {c : ThreepfContainer V} {w : IntegrationWriter}

theorem written_integrate (h : Flagged s) (failed : Finset ℕ) (v : V) : Written h failed (integrate s failed v) where
  twopf_samples := rfl
  threepf_samples := by
    simp [integrate, Flagged.config_database, ConfigDatabase.threepf_serials, threepf_record, Function.comp_def]
  threepf a i := by simp [integrate, and_assoc]
  twopf b j := by
    simp only [integrate, mem_stored_serials, List.mem_flatMap, List.mem_map, List.mem_filter, decide_eq_true_eq]
    constructor
    · rintro ⟨_, ⟨t, ⟨ht, ok⟩, leg, ⟨-, hj⟩, rfl⟩, rfl⟩
      exact ⟨t, ht, ok, hj⟩
    · rintro ⟨t, ht, ok, hj⟩
      obtain ⟨leg, hleg, rfl⟩ := exists_leg_of_stores hj
      exact ⟨_, ⟨t, ⟨ht, ok⟩, leg, ⟨hleg, hj⟩, rfl⟩, rfl⟩
  background := by simp [integrate, and_comm]
  side := by simp [integrate]

theorem Written.ofTask {h : Flagged s} (written : Written h failed c) :
    OfTask h.config_database c.toContainer := by
  refine ⟨written.twopf_samples, written.threepf_samples, fun a row hrow => ?_, fun b row hrow => ?_, written.side⟩
  · obtain ⟨t, ht, -, hi⟩ := (written.threepf a _).mp (mem_stored_serials.mpr ⟨row, hrow, rfl⟩)
    exact List.mem_map.mpr ⟨_, List.mem_map_of_mem ht, hi⟩
  · -- what a triangle stores is one of its legs, and these are live
    obtain ⟨t, ht, -, hj⟩ := (written.twopf b _).mp (mem_stored_serials.mpr ⟨row, hrow, rfl⟩)
    obtain ⟨r, hr, hs, -⟩ := (h.stored_iff _).mpr ⟨t, ht, hj⟩
    exact List.mem_map.mpr ⟨r, hr, hs⟩

/-- **Kept**: of the triangles of the task, the check lists those that failed, and takes them and what they store
out of the container. -/
theorem kept_iff (h : Flagged s) (written : Written h failed c)
    (reported : w.failed_serials ⊆ failed) (hw : w.missing_serials = ∅) :
    ∃ M : Finset ℕ, (check h.config_database w c).1.missing_serials = M ∧
      (check h.config_database w c).2.toContainer =
        c.toContainer.without w.collects h.config_database M ∧
      ∀ t ∈ s.threepf_db.database, t.record.serial ∈ M ↔ t.record.serial ∈ failed := by
  have task := written.ofTask
  refine ⟨total_missing h.config_database w.toWriter c.toContainer, ?_, ?_, fun t ht => ?_⟩
  · rw [check, check_threepf_integrity_handler, integrity_handler_eq task]
    split_ifs with hm
    · rfl
    · rw [Finset.not_nonempty_iff_eq_empty.mp hm]
      exact hw
  · rw [check, check_threepf_integrity_handler, integrity_handler_eq task]
  · rw [mem_total_missing h.flaggedAtMostOnce task]
    constructor
    · rintro (hfail | ⟨u, hu, hserial, incomplete⟩)
      · exact reported hfail
      · obtain ⟨t', ht', rfl⟩ := List.mem_map.mp hu
        by_contra hok
        rw [← hserial] at hok
        exact incomplete ⟨fun a => (written.threepf a _).mpr ⟨t', ht', hok, rfl⟩,
          fun j _ hj b => (written.twopf b j).mpr ⟨t', ht', hok, hj⟩⟩
    · intro hfail
      refine .inr ⟨_, List.mem_map_of_mem ht, rfl, fun complete => ?_⟩
      obtain ⟨t', -, hok, hserial⟩ := (written.threepf .threepf_Nderiv _).mp (complete.1 .threepf_Nderiv)
      exact hok (hserial ▸ hfail)

/-- A twopf configuration that is marked as stored survives unless the triangle that stores it failed. -/
theorem Written.mem_twopf_without_iff {h : Flagged s} (written : Written h failed c) {collects : SideTable → Bool}
    {M : Finset ℕ} (hM : ∀ t ∈ s.threepf_db.database, t.record.serial ∈ M ↔ t.record.serial ∈ failed)
    {j : ℕ} (stored : s.twopf_db.Stored j) (b : TwopfTable) :
    j ∈ stored_serials ((c.toContainer.without collects h.config_database M).twopf_tables b) ↔
      ∀ t ∈ s.threepf_db.database, t.Stores j → t.record.serial ∉ failed := by
  rw [mem_twopf_without, written.twopf]
  constructor
  · rintro ⟨-, kept⟩ t ht hj hfail
    exact kept ⟨threepf_record t, List.mem_map_of_mem ht, (hM t ht).mpr hfail, hj⟩
  · intro ok
    obtain ⟨t, ht, hj⟩ := (h.stored_iff j).mp stored
    refine ⟨⟨t, ht, ok t ht hj, hj⟩, ?_⟩
    rintro ⟨u, hu, hserial, stores⟩
    obtain ⟨t', ht', rfl⟩ := List.mem_map.mp hu
    exact ok t' ht' stores ((hM t' ht').mp hserial)

/-- The background is there unless the triangle that stores it failed. -/
theorem Written.background_iff {h : Flagged s} (written : Written h failed c) (some : s.threepf_db.database ≠ []) :
    c.background ≠ [] ↔ ∀ t ∈ s.threepf_db.database, t.store_background = true → t.record.serial ∉ failed := by
  have closed : s.threepf_db.store_background = false := by
    rw [← Bool.not_eq_true]
    exact fun hopen => some (h.background_open hopen)
  obtain ⟨t, ht, hst, only⟩ := h.background_closed closed
  rw [written.background]
  constructor
  · rintro ⟨t', ht', ok, hst'⟩ u hu hu'
    rwa [only u hu hu', ← only t' ht' hst']
  · intro ok
    exact ⟨t, ht, ok t ht hst, hst⟩

/-- **Self-sufficiency**: after the check, every triangle that is kept has what is read for it if and only if no
triangle that failed was to store the background or a leg of one that did not fail. -/
theorem self_sufficient_iff {cn : K} (h : (runs cn).Reachable s) (failed : Finset ℕ) (w : IntegrationWriter)
    (reported : w.failed_serials ⊆ failed) (hw : w.missing_serials = ∅) (c : ThreepfContainer V)
    (written : Written (flagged_of_reachable h).2 failed c) :
    (∀ t ∈ s.threepf_db.database,
      t.record.serial ∉ (check (flagged_of_reachable h).2.config_database w c).1.missing_serials →
        SelfSufficient (check (flagged_of_reachable h).2.config_database w c).2 t.record) ↔
    ∀ t ∈ s.threepf_db.database, t.record.serial ∉ failed → ∀ t' ∈ s.threepf_db.database,
      (t'.store_background = true ∨ ∃ leg ∈ t.record.legs, t'.Stores leg.2) → t'.record.serial ∉ failed := by
  have flagged := (flagged_of_reachable h).2
  obtain ⟨M, hM, hc, hkept⟩ := kept_iff flagged written reported hw
  rw [hM]
  refine forall₂_congr fun t ht => imp_congr_ctx (not_congr (hkept t ht)) fun ok => ?_
  have some : s.threepf_db.database ≠ [] := List.ne_nil_of_mem ht
  have stored : ∀ leg ∈ t.record.legs, s.twopf_db.Stored leg.2 := fun leg hleg =>
    flagged.legs leg (List.mem_flatMap.mpr ⟨t, ht, hleg⟩)
  constructor
  · intro self t' ht' shared
    rcases shared with hst | ⟨leg, hleg, hj⟩
    · exact (written.background_iff some).mp self.background t' ht' hst
    · have present := (self.twopf leg hleg).1
      rw [hc] at present
      exact (written.mem_twopf_without_iff hkept (stored leg hleg) .twopf_re).mp present t' ht' hj
  · intro shared
    have present : ∀ leg ∈ t.record.legs, ∀ b,
        leg.2 ∈ stored_serials ((check flagged.config_database w c).2.twopf_tables b) := fun leg hleg b => by
      rw [hc, written.mem_twopf_without_iff hkept (stored leg hleg)]
      exact fun t' ht' hj => shared t' ht' (.inr ⟨leg, hleg, hj⟩)
    refine ⟨?_, ?_, fun leg hleg => ⟨present leg hleg .twopf_re, present leg hleg .twopf_im⟩⟩
    · exact (written.background_iff some).mpr fun t' ht' hst => shared t' ht' (.inl hst)
    · rw [hc, mem_threepf_without]
      exact ⟨(written.threepf .threepf_Nderiv _).mpr ⟨t, ht, ok, rfl⟩, fun hin => ok ((hkept t ht).mp hin)⟩

/-- Two triangles with a leg in common, which the first of them stores. -/
def triangles : List (Call ℚ) := [.k1k2k3 1 1 1 fun _ => .accept, .k1k2k3 1 2 2 fun _ => .accept]

/-- The databases of the two triangles. -/
def sharing : State ℚ := (triangles.foldlM apply (create 1)).getD (create 1)

theorem reachable_sharing : (runs (1 : ℚ)).Reachable sharing := by
  have defined : (triangles.foldlM apply (create 1)).isSome := by decide +kernel
  obtain ⟨s, hs⟩ := Option.isSome_iff_exists.mp defined
  have heq : sharing = s := by rw [sharing, hs, Option.getD_some]
  exact heq ▸ ⟨create 1, triangles, rfl, System.run_ofNext_of_foldlM hs⟩

/-- If it is the second that fails, the first has everything. -/
theorem self_sufficient_iff_sharing :
    Written (flagged_of_reachable reachable_sharing).2 {1} (integrate sharing {1} ()) ∧
    ∀ t ∈ sharing.threepf_db.database,
      t.record.serial ∉ (check (flagged_of_reachable reachable_sharing).2.config_database
        ⟨⟨false, {1}, ∅⟩, true, true⟩ (integrate sharing {1} ())).1.missing_serials →
      SelfSufficient (check (flagged_of_reachable reachable_sharing).2.config_database
        ⟨⟨false, {1}, ∅⟩, true, true⟩ (integrate sharing {1} ())).2 t.record := by
  have written := written_integrate (flagged_of_reachable reachable_sharing).2 {1} ()
  refine ⟨written, (self_sufficient_iff reachable_sharing {1} ⟨⟨false, {1}, ∅⟩, true, true⟩ ?_ rfl _ written).mpr ?_⟩
  · exact Finset.Subset.refl _
  · decide +kernel

/-- If it is the first, the second is kept without the twopf of the leg. -/
theorem leg_lost : Written (flagged_of_reachable reachable_sharing).2 {0} (integrate sharing {0} ()) ∧
    ∃ t ∈ sharing.threepf_db.database,
      t.record.serial ∉ (check (flagged_of_reachable reachable_sharing).2.config_database
        ⟨⟨false, {0}, ∅⟩, true, true⟩ (integrate sharing {0} ())).1.missing_serials ∧
      ¬ SelfSufficient (check (flagged_of_reachable reachable_sharing).2.config_database
        ⟨⟨false, {0}, ∅⟩, true, true⟩ (integrate sharing {0} ())).2 t.record := by
  have flagged := (flagged_of_reachable reachable_sharing).2
  have written := written_integrate flagged {0} ()
  refine ⟨written, ?_⟩
  obtain ⟨M, hM, hc, hkept⟩ :=
    kept_iff (w := ⟨⟨false, {0}, ∅⟩, true, true⟩) flagged written (Finset.Subset.refl _) rfl
  have found : ∃ t ∈ sharing.threepf_db.database, t.record.serial ∉ ({0} : Finset ℕ) ∧
      ∃ leg ∈ t.record.legs, ∃ t' ∈ sharing.threepf_db.database,
        t'.Stores leg.2 ∧ t'.record.serial ∈ ({0} : Finset ℕ) := by decide +kernel
  obtain ⟨t, ht, ok, leg, hleg, t', ht', hj, hfail⟩ := found
  refine ⟨t, ht, ?_, fun self => ?_⟩
  · rw [hM, hkept t ht]
    exact ok
  · have present := (self.twopf leg hleg).1
    have stored : sharing.twopf_db.Stored leg.2 := (flagged.stored_iff _).mpr ⟨t', ht', hj⟩
    rw [hc, written.mem_twopf_without_iff hkept stored] at present
    exact present t' ht' hj hfail

end State

end Kconfig

end CppTransport.Runtime
