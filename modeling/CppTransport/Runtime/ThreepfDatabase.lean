import CppTransport.Library.Numerals
import CppTransport.Runtime.TwopfDatabase

/-!
# The database of threepf configurations

A `threepf_kconfig_database` (`configuration-database/threepf_config_database.h`) holds one
record for each triangle of wavenumbers. The legs of a triangle are records of a
`twopf_kconfig_database`: `add_record` attaches each leg to the record that a search by
wavenumber finds, or to a new one, and then asks a storage policy whether to keep the
triangle. `threepf_task` later fetches the data of a leg by another search.

## The model

As for the twopf database, whose iterators are serial numbers. A storage policy is a
function of the configuration. A call that dereferences an iterator to a record that is
not there has no result. Reading and writing the sqlite file is left out.

## What is proved

* `exists_apply`: every call is defined, and the legs of every triangle kept stay attached
  to a live record within the tolerance;
* `linked_iff`: a search for a leg finds that record all along a run if and only if no
  call adds, below the record a leg is attached to, a wavenumber within the tolerance of
  that leg.
-/

set_option linter.unusedSectionVars false

namespace CppTransport.Runtime

open Library
open scoped Library.Numerals

namespace Kconfig

variable {K : Type*} [Field K] [LinearOrder K] [IsStrictOrderedRing K]

/-! ### Records and the database -/

/-- What a storage policy may decide. -/
inductive storage_outcome where
  | accept
  | reject_retain
  | reject_remove
  deriving DecidableEq

/-- A threepf configuration. -/
structure threepf_kconfig (K : Type*) where
  serial : ℕ
  /-- Serial numbers of `k1`, `k2`, `k3` in the list of twopf configurations. -/
  k1_serial : ℕ
  k2_serial : ℕ
  k3_serial : ℕ
  /-- Coordinates `(k1,k2,k3)`. -/
  k1_comoving : K
  k2_comoving : K
  k3_comoving : K
  k1_conventional : K
  k2_conventional : K
  k3_conventional : K
  /-- Fergusson-Shellard coordinates. -/
  kt_comoving : K
  kt_conventional : K
  alpha : K
  beta : K
  /-- Horizon-exit time for `k_t/3`, to be filled in later. -/
  t_exit : K
  /-- Time where the massless approximation is marginal, to be filled in later. -/
  t_massless : K
  deriving DecidableEq

/-- The legs of a triangle: conventional wavenumber and twopf serial number. -/
def threepf_kconfig.legs (config : threepf_kconfig K) : List (K × ℕ) :=
  [(config.k1_conventional, config.k1_serial), (config.k2_conventional, config.k2_serial),
    (config.k3_conventional, config.k3_serial)]

/-- A record in the database. -/
structure threepf_kconfig_record (K : Type*) where
  record : threepf_kconfig K
  /-- Store the background for this configuration? -/
  store_background : Bool
  /-- Store the twopf of each leg for this configuration? -/
  store_twopf_k1 : Bool
  store_twopf_k2 : Bool
  store_twopf_k3 : Bool
  deriving DecidableEq

/-- The record is flagged to store the twopf configuration `j`. -/
def threepf_kconfig_record.Stores (t : threepf_kconfig_record K) (j : ℕ) : Prop :=
  (t.store_twopf_k1 ∧ t.record.k1_serial = j) ∨ (t.store_twopf_k2 ∧ t.record.k2_serial = j) ∨
    (t.store_twopf_k3 ∧ t.record.k3_serial = j)

/-- The database. -/
structure threepf_kconfig_database (K : Type*) where
  /-- The records. -/
  database : List (threepf_kconfig_record K)
  /-- Serial number for the next inserted item. -/
  serial : ℕ
  /-- Is the database in a modified state? -/
  modified : Bool
  /-- Is the background still to be stored? -/
  store_background : Bool
  /-- Normalization from conventional to comoving wavenumbers. -/
  comoving_normalization : K
  /-- Extremes of `k_t`. -/
  kt : Extremes K
  /-- Extremes of the wavenumbers on the legs. -/
  k_2pf : Extremes K

namespace threepf_kconfig_database

/-- The constructor. -/
def create (cn : K) : threepf_kconfig_database K where
  database := []
  serial := 0
  modified := true
  store_background := true
  comoving_normalization := cn
  kt := .initial
  k_2pf := .initial

variable (db : threepf_kconfig_database K)

/-- `clear`. -/
def clear : threepf_kconfig_database K := { db with database := [], serial := 0, store_background := true }

/-- `lookup`. -/
def lookup (serial : ℕ) : Option (threepf_kconfig_record K) := db.database.find? fun t => t.record.serial = serial

def get_kmax_conventional : Extremum K := db.kt.kmax_conventional

def get_kmax_comoving : Extremum K := db.kt.kmax_comoving

def get_kmin_conventional : Extremum K := db.kt.kmin_conventional

def get_kmin_comoving : Extremum K := db.kt.kmin_comoving

def get_kmax_2pf_conventional : Extremum K := db.k_2pf.kmax_conventional

def get_kmax_2pf_comoving : Extremum K := db.k_2pf.kmax_comoving

def get_kmin_2pf_conventional : Extremum K := db.k_2pf.kmin_conventional

def get_kmin_2pf_comoving : Extremum K := db.k_2pf.kmin_comoving

/-! ### Adding a record -/

/-- The reverse lookup for one leg: the twopf database, the serial number of the leg, and the flag `new_insert`. -/
def find_or_add (twopf_db : twopf_kconfig_database K) (k : K) : Option (twopf_kconfig_database K × ℕ × Bool) :=
  match twopf_db.find k with
  | some s => (twopf_db.lookup s).map fun r => (twopf_db, r.serial, false)
  | none => some (twopf_db.add_record k, twopf_db.serial, true)

/-- A twopf database, a configuration with its serial numbers, and the flags `new_insert` of the legs. -/
structure Populated (K : Type*) where
  twopf_db : twopf_kconfig_database K
  config : threepf_kconfig K
  k1_new_insert : Bool
  k2_new_insert : Bool
  k3_new_insert : Bool

/-- The first part of `add_record`: it populates the serial numbers. -/
def populate (twopf_db : twopf_kconfig_database K) (config : threepf_kconfig K) : Option (Populated K) := do
  let (twopf_db, k1_serial, k1_new_insert) ← find_or_add twopf_db config.k1_conventional
  let (twopf_db, k2_serial, k2_new_insert) ← find_or_add twopf_db config.k2_conventional
  let (twopf_db, k3_serial, k3_new_insert) ← find_or_add twopf_db config.k3_conventional
  return {
    twopf_db := twopf_db
    config := { config with
      serial := db.serial
      k1_serial := k1_serial
      k2_serial := k2_serial
      k3_serial := k3_serial }
    k1_new_insert := k1_new_insert
    k2_new_insert := k2_new_insert
    k3_new_insert := k3_new_insert }

/-- Undoing the insertion of one leg, if there was one. -/
def unwind (twopf_db : twopf_kconfig_database K) (serial : ℕ) (new_insert : Bool) :
    Option (twopf_kconfig_database K) :=
  if new_insert then twopf_db.delete_record serial else some twopf_db

/-- `store = !rec->is_stored(); if(store) rec->set_stored();` for one leg. -/
def store_leg (twopf_db : twopf_kconfig_database K) (serial : ℕ) : Option (twopf_kconfig_database K × Bool) :=
  (twopf_db.lookup serial).map fun r => (if r.stored then twopf_db else twopf_db.set_stored serial, !r.stored)

/-- The comparisons with the extremes of the legs. -/
def update_2pf (e : Extremes K) (config : threepf_kconfig K) : Extremes K where
  kmax_conventional :=
    raise e.kmax_conventional (max (max config.k1_conventional config.k2_conventional) config.k3_conventional)
  kmin_conventional :=
    lower e.kmin_conventional (min (min config.k1_conventional config.k2_conventional) config.k3_conventional)
  kmax_comoving := raise e.kmax_comoving (max (max config.k1_comoving config.k2_comoving) config.k3_comoving)
  kmin_comoving := lower e.kmin_comoving (min (min config.k1_comoving config.k2_comoving) config.k3_comoving)

/-- The database with a record that the policy has confirmed. -/
def insert_record (t : threepf_kconfig_record K) : threepf_kconfig_database K :=
  { db with
    kt := db.kt.update t.record.kt_conventional t.record.kt_comoving
    k_2pf := update_2pf db.k_2pf t.record
    database := emplaceBySerial (·.record.serial) t db.database
    serial := db.serial + 1
    store_background := false
    modified := !db.database.any fun x => x.record.serial = t.record.serial }

/-- The last part of `add_record`: the policy has confirmed the configuration. -/
def retain (twopf_db : twopf_kconfig_database K) (config : threepf_kconfig K) :
    Option (threepf_kconfig_database K × twopf_kconfig_database K × Option ℕ) := do
  let (twopf_db, k1_store) ← store_leg twopf_db config.k1_serial
  let (twopf_db, k2_store) ← store_leg twopf_db config.k2_serial
  let (twopf_db, k3_store) ← store_leg twopf_db config.k3_serial
  return (db.insert_record {
    record := config
    store_background := db.store_background
    store_twopf_k1 := k1_store
    store_twopf_k2 := k2_store
    store_twopf_k3 := k3_store }, twopf_db, some config.serial)

/-- `add_record`, where it is defined: both databases, and the iterator it returns. -/
def add_record (twopf_db : twopf_kconfig_database K) (config : threepf_kconfig K)
    (policy : threepf_kconfig K → storage_outcome) :
    Option (threepf_kconfig_database K × twopf_kconfig_database K × Option ℕ) := do
  let p ← db.populate twopf_db config
  match policy p.config with
  | .reject_remove =>
    let twopf_db ← unwind p.twopf_db p.config.k1_serial p.k1_new_insert
    let twopf_db ← unwind twopf_db p.config.k2_serial p.k2_new_insert
    let twopf_db ← unwind twopf_db p.config.k3_serial p.k3_new_insert
    return (db, twopf_db, none)
  | .reject_retain => return (db, p.twopf_db, none)
  | .accept => db.retain p.twopf_db p.config

/-- The configuration that `add_k1k2k3_record` adds. -/
def config_k1k2k3 (k1_conventional k2_conventional k3_conventional : K) : threepf_kconfig K :=
  let kt_conventional := k1_conventional + k2_conventional + k3_conventional
  let beta := 1 - 2 * k3_conventional / kt_conventional
  { serial := 0
    k1_serial := 0
    k2_serial := 0
    k3_serial := 0
    k1_conventional := k1_conventional
    k2_conventional := k2_conventional
    k3_conventional := k3_conventional
    k1_comoving := k1_conventional * db.comoving_normalization
    k2_comoving := k2_conventional * db.comoving_normalization
    k3_comoving := k3_conventional * db.comoving_normalization
    kt_conventional := kt_conventional
    kt_comoving := kt_conventional * db.comoving_normalization
    beta := beta
    alpha := 4 * k2_conventional / kt_conventional - 1 - beta
    t_exit := 0
    t_massless := 0 }

/-- The configuration that `add_alphabeta_record` adds. -/
def config_alphabeta (kt_conventional alpha beta : K) : threepf_kconfig K :=
  let k1_conventional := kt_conventional / 4 * (1 + alpha + beta)
  let k2_conventional := kt_conventional / 4 * (1 - alpha + beta)
  let k3_conventional := kt_conventional / 2 * (1 - beta)
  { serial := 0
    k1_serial := 0
    k2_serial := 0
    k3_serial := 0
    k1_conventional := k1_conventional
    k2_conventional := k2_conventional
    k3_conventional := k3_conventional
    k1_comoving := k1_conventional * db.comoving_normalization
    k2_comoving := k2_conventional * db.comoving_normalization
    k3_comoving := k3_conventional * db.comoving_normalization
    kt_conventional := kt_conventional
    kt_comoving := kt_conventional * db.comoving_normalization
    beta := beta
    alpha := alpha
    t_exit := 0
    t_massless := 0 }

/-- `add_k1k2k3_record`. -/
def add_k1k2k3_record (twopf_db : twopf_kconfig_database K) (k1_conventional k2_conventional k3_conventional : K)
    (policy : threepf_kconfig K → storage_outcome) :
    Option (threepf_kconfig_database K × twopf_kconfig_database K × Option ℕ) :=
  db.add_record twopf_db (db.config_k1k2k3 k1_conventional k2_conventional k3_conventional) policy

/-- `add_alphabeta_record`. -/
def add_alphabeta_record (twopf_db : twopf_kconfig_database K) (kt_conventional alpha beta : K)
    (policy : threepf_kconfig K → storage_outcome) :
    Option (threepf_kconfig_database K × twopf_kconfig_database K × Option ℕ) :=
  db.add_record twopf_db (db.config_alphabeta kt_conventional alpha beta) policy

end threepf_kconfig_database

/-! ### Wavenumbers attached to records -/

namespace twopf_kconfig_database

/-- The wavenumbers and serial numbers of the records. -/
def entries (db : twopf_kconfig_database K) : List (K × ℕ) := db.database.map entry

/-- Among the entries `held`, the leg's serial number has a wavenumber within the tolerance, and no entry that
is `known` has a smaller one. -/
def Attached (known held : List (K × ℕ)) (leg : K × ℕ) : Prop :=
  ∃ e ∈ held, e.2 = leg.2 ∧ Within e.1 leg.1 ∧
    ∀ e' ∈ known, e'.1 < e.1 → ReverseKLookupComparator e'.1 leg.1 = true

/-- No entry that is new lies below the one the leg is attached to, and within the tolerance of the leg. -/
def NotUndercut (before after : List (K × ℕ)) (leg : K × ℕ) : Prop :=
  ∀ e' ∈ after, e' ∉ before → ∀ e ∈ after, e.2 = leg.2 → e'.1 < e.1 → ReverseKLookupComparator e'.1 leg.1 = true

variable {db w w' : twopf_kconfig_database K} {before after : List (K × ℕ)} {leg : K × ℕ} {k : K} {s : ℕ}
  {new rest : List ℕ}

theorem Attached.mono {known known' held held' : List (K × ℕ)} (h : Attached known held leg) (hk : known' ⊆ known)
    (hh : held ⊆ held') : Attached known' held' leg := by
  obtain ⟨e, he, hs, hw, least⟩ := h
  exact ⟨e, hh he, hs, hw, fun e' he' => least e' (hk he')⟩

/-- Entries that arrive keep a leg attached just if none undercuts it. -/
theorem Attached.after_iff (h : Attached before after leg)
    (unique : ∀ e ∈ after, ∀ e' ∈ after, e.2 = e'.2 → e = e') :
    Attached after after leg ↔ NotUndercut before after leg := by
  obtain ⟨e, he, hs, hw, least⟩ := h
  constructor
  · rintro ⟨e₁, he₁, hs₁, -, least₁⟩ e' he' - e₂ he₂ hs₂ hlt
    obtain rfl := unique e₂ he₂ e₁ he₁ (hs₂.trans hs₁.symm)
    exact least₁ e' he' hlt
  · intro h
    refine ⟨e, he, hs, hw, fun e' he' hlt => ?_⟩
    by_cases hb : e' ∈ before
    · exact least e' hb hlt
    · exact h e' he' hb e he hs hlt

namespace Indexed

theorem entries_unique (h : Indexed db) : ∀ e ∈ db.entries, ∀ e' ∈ db.entries, e.2 = e'.2 → e = e' := by
  intro e he e' he' hs
  obtain ⟨r, hr, rfl⟩ := List.mem_map.mp he
  obtain ⟨r', hr', rfl⟩ := List.mem_map.mp he'
  rw [h.eq_of_serial_eq hr hr' hs]

/-- A search finds the record a leg is attached to just if no record is below it and within the tolerance. -/
theorem find_iff_attached (h : Indexed db) : db.find leg.1 = some leg.2 ↔ Attached db.entries db.entries leg := by
  constructor
  · intro hf
    obtain ⟨r, hr, hs, hw⟩ := h.exists_of_find hf
    obtain ⟨-, least⟩ := (h.find_eq_some_iff hr).mp (hs ▸ hf)
    refine ⟨entry r, List.mem_map_of_mem hr, hs, hw, fun e' he' => ?_⟩
    obtain ⟨r', hr', rfl⟩ := List.mem_map.mp he'
    exact least r' hr'
  · rintro ⟨e, he, hs, hw, least⟩
    obtain ⟨r, hr, rfl⟩ := List.mem_map.mp he
    rw [← hs]
    exact (h.find_eq_some_iff hr).mpr ⟨hw, fun r' hr' => least (entry r') (List.mem_map_of_mem hr')⟩

theorem set_stored (h : Indexed db) (s : ℕ) : Indexed (db.set_stored s) := by
  have same : ∀ r : twopf_kconfig_record K,
      (if r.serial = s then { r with stored := true } else r).serial = r.serial ∧
        entry (if r.serial = s then { r with stored := true } else r) = entry r := by
    intro r
    split_ifs <;> exact ⟨rfl, rfl⟩
  refine ⟨h.separated, ?_, ?_, ?_⟩
  · rw [twopf_kconfig_database.set_stored, List.map_map]
    exact h.entries.trans (List.Perm.of_eq (List.map_congr_left fun r _ => ((same r).2).symm))
  · refine List.pairwise_map.mpr (h.sorted.imp fun {a b} hab => ?_)
    rwa [(same a).1, (same b).1]
  · intro r' hr'
    obtain ⟨r, hr, rfl⟩ := List.mem_map.mp hr'
    exact (same r).1.trans_lt (h.serial r hr)

end Indexed

/-- The record with this serial number is marked as stored. -/
def Stored (db : twopf_kconfig_database K) (s : ℕ) : Prop := ∃ r ∈ db.database, r.serial = s ∧ r.stored = true

theorem stored_set_stored {j : ℕ} (hs : s ∈ db.entries.map Prod.snd) :
    (db.set_stored s).Stored j ↔ db.Stored j ∨ j = s := by
  constructor
  · rintro ⟨r', hr', rfl, hst⟩
    obtain ⟨r, hr, rfl⟩ := List.mem_map.mp hr'
    split_ifs at hst ⊢ with h
    · exact .inr h
    · exact .inl ⟨r, hr, rfl, hst⟩
  · rintro (⟨r, hr, rfl, hst⟩ | rfl)
    · refine ⟨_, List.mem_map_of_mem hr, ?_⟩
      split_ifs
      · exact ⟨rfl, rfl⟩
      · exact ⟨rfl, hst⟩
    · obtain ⟨e, he, rfl⟩ := List.mem_map.mp hs
      obtain ⟨r, hr, rfl⟩ := List.mem_map.mp he
      exact ⟨_, List.mem_map_of_mem hr, by simp [entry]⟩

theorem entries_set_stored (db : twopf_kconfig_database K) (s : ℕ) : (db.set_stored s).entries = db.entries := by
  rw [entries, entries, set_stored, List.map_map]
  refine List.map_congr_left fun r _ => ?_
  simp only [Function.comp]
  split_ifs <;> rfl

/-! ### Records added by a call, and taken back -/

/-- `w'` is `w` with records of the serial numbers `new` added, which are not stored. -/
structure Extends (w w' : twopf_kconfig_database K) (new : List ℕ) : Prop where
  indexed : Indexed w'
  added : ∃ l, w'.database = w.database ++ l ∧ l.map (·.serial) = new ∧ ∀ r ∈ l, r.stored = false

/-- The serial number that a leg adds. -/
def fresh (new_insert : Bool) (s : ℕ) : List ℕ := if new_insert then [s] else []

namespace Extends

theorem refl (h : Indexed w) : Extends w w [] := ⟨h, [], by simp, rfl, by simp⟩

theorem entries_subset (h : Extends w w' new) : w.entries ⊆ w'.entries := by
  obtain ⟨l, hl, -⟩ := h.added
  rw [entries, entries, hl]
  exact List.map_subset _ (List.subset_append_left _ _)

theorem stored_iff (h : Extends w w' new) {j : ℕ} : w'.Stored j ↔ w.Stored j := by
  obtain ⟨l, hl, -, hst⟩ := h.added
  constructor
  · rintro ⟨r, hr, hs, hr'⟩
    rw [hl] at hr
    rcases List.mem_append.mp hr with hr | hr
    · exact ⟨r, hr, hs, hr'⟩
    · rw [hst r hr] at hr'
      cases hr'
  · rintro ⟨r, hr, h⟩
    exact ⟨r, hl ▸ List.mem_append_left _ hr, h⟩

theorem database_eq (h : Extends w w' []) : w'.database = w.database := by
  obtain ⟨l, hl, hnil, -⟩ := h.added
  rw [hl, List.map_eq_nil_iff.mp hnil, List.append_nil]

theorem add_record (h : Extends w w' new) (hf : w'.find k = none) :
    Extends w (w'.add_record k) (new ++ [w'.serial]) := by
  obtain ⟨l, hl, rfl, hst⟩ := h.added
  refine ⟨h.indexed.add_record hf, l ++ [w'.new_record k], ?_, by simp [new_record], ?_⟩
  · rw [database_add_record h.indexed.serial, hl, List.append_assoc]
  · intro r hr
    rcases List.mem_append.mp hr with hr | hr
    · exact hst r hr
    · rw [List.mem_singleton.mp hr]
      rfl

/-- Deleting the first of the records added. -/
theorem delete_record (h : Extends w w' (s :: rest)) :
    ∃ w'', w'.delete_record s = some w'' ∧ Extends w w'' rest := by
  obtain ⟨l, hl, hs, hst⟩ := h.added
  obtain ⟨r, l, rfl, rfl, rfl⟩ := List.map_eq_cons_iff.mp hs
  have sorted := h.indexed.sorted
  rw [hl] at sorted
  obtain ⟨-, tail, below⟩ := List.pairwise_append.mp sorted
  have above := (List.pairwise_cons.mp tail).1
  have hr : r ∈ w'.database := by simp [hl]
  refine ⟨_, h.indexed.delete_record_eq hr, h.indexed.of_delete_record _, l, ?_, rfl,
    fun x hx => hst x (List.mem_cons_of_mem _ hx)⟩
  have left : w.database.filter (fun x => x.serial ≠ r.serial) = w.database :=
    List.filter_eq_self.mpr fun x hx => by simpa using (below x hx r List.mem_cons_self).ne
  have right : l.filter (fun x => x.serial ≠ r.serial) = l :=
    List.filter_eq_self.mpr fun x hx => by simpa using (above x hx).ne'
  rw [rebuild_cache_eq]
  simp only
  rw [hl, List.filter_append, List.filter_cons_of_neg (by simp), left, right]

end Extends

end twopf_kconfig_database

namespace threepf_kconfig_database

open twopf_kconfig_database

variable {db : threepf_kconfig_database K} {w w' : twopf_kconfig_database K} {k : K} {s : ℕ} {b : Bool}
  {new rest : List ℕ}

theorem find_or_add_spec (h : Extends w w' new) (k : K) :
    ∃ w'' s b, find_or_add w' k = some (w'', s, b) ∧ Extends w w'' (new ++ fresh b s) ∧
      w'.entries ⊆ w''.entries ∧ Attached w'.entries w''.entries (k, s) := by
  cases hf : w'.find k with
  | some s =>
    obtain ⟨r, hr, hs, -⟩ := h.indexed.exists_of_find hf
    have attached : Attached w'.entries w'.entries (k, s) := h.indexed.find_iff_attached.mp hf
    refine ⟨w', s, false, ?_, by simpa [fresh] using h, List.Subset.refl _, attached⟩
    rw [find_or_add, hf]
    simp only [h.indexed.lookup_eq_some_iff.mpr ⟨hr, hs⟩, Option.map_some, hs]
  | none =>
    have hdb := database_add_record h.indexed.serial k
    have old : w'.entries ⊆ (w'.add_record k).entries := by
      rw [entries, entries, hdb]
      exact List.map_subset _ (List.subset_append_left _ _)
    have self : Within k k := by
      have := TolerantIndex.not_before_self tolerant_comparator k
      exact ⟨this, this⟩
    have added : Extends w (w'.add_record k) (new ++ fresh true w'.serial) := by
      simpa [fresh] using h.add_record hf
    refine ⟨w'.add_record k, w'.serial, true, by rw [find_or_add, hf], added, old, (k, w'.serial), ?_, rfl, self, ?_⟩
    · rw [entries, hdb, List.map_append]
      exact List.mem_append_right _ (List.mem_singleton.mpr rfl)
    · -- a smaller wavenumber within the tolerance would have been found
      intro e he hlt
      obtain ⟨r, hr, rfl⟩ := List.mem_map.mp he
      by_contra hw
      have after : ReverseKLookupComparator k r.k_conventional = false := by
        cases hc : ReverseKLookupComparator k r.k_conventional with
        | false => rfl
        | true => exact absurd (tolerant_comparator.lt_of_before hc) (lt_asymm hlt)
      have := h.indexed.find_isSome hr ⟨by simpa [entry] using hw, after⟩
      rw [hf] at this
      cases this

/-- **Legs**: each leg is attached to a record that is there. -/
theorem populate_spec (db : threepf_kconfig_database K) (h : Indexed w) (config : threepf_kconfig K) :
    ∃ p, db.populate w config = some p ∧
      Extends w p.twopf_db (fresh p.k1_new_insert p.config.k1_serial ++ (fresh p.k2_new_insert p.config.k2_serial ++
        (fresh p.k3_new_insert p.config.k3_serial ++ []))) ∧
      (∀ leg ∈ p.config.legs, Attached w.entries p.twopf_db.entries leg) ∧ p.config.serial = db.serial := by
  obtain ⟨w₁, s₁, b₁, h₁, e₁, -, a₁⟩ := find_or_add_spec (Extends.refl h) config.k1_conventional
  obtain ⟨w₂, s₂, b₂, h₂, e₂, i₂, a₂⟩ := find_or_add_spec e₁ config.k2_conventional
  obtain ⟨w₃, s₃, b₃, h₃, e₃, i₃, a₃⟩ := find_or_add_spec e₂ config.k3_conventional
  refine ⟨⟨w₃, { config with serial := db.serial, k1_serial := s₁, k2_serial := s₂, k3_serial := s₃ }, b₁, b₂, b₃⟩,
    ?_, ?_, ?_, rfl⟩
  · rw [populate, h₁]
    simp only [Option.bind_eq_bind, Option.bind_some, h₂, h₃]
    rfl
  · simpa using e₃
  · intro leg hleg
    simp only [threepf_kconfig.legs, List.mem_cons, List.not_mem_nil, or_false] at hleg
    rcases hleg with rfl | rfl | rfl
    · exact a₁.mono (List.Subset.refl _) (List.Subset.trans i₂ i₃)
    · exact a₂.mono e₁.entries_subset i₃
    · exact a₃.mono e₂.entries_subset (List.Subset.refl _)

theorem unwind_spec (h : Extends w w' (fresh b s ++ rest)) :
    ∃ w'', unwind w' s b = some w'' ∧ Extends w w'' rest := by
  cases b with
  | false => exact ⟨w', rfl, h⟩
  | true => exact h.delete_record

/-- A leg is stored by this triangle if it was not stored before. -/
theorem store_leg_spec (h : Indexed w) (hs : s ∈ w.entries.map Prod.snd) :
    ∃ w' b, store_leg w s = some (w', b) ∧ Indexed w' ∧ w'.entries = w.entries ∧ (b = true ↔ ¬ w.Stored s) ∧
      ∀ j, w'.Stored j ↔ w.Stored j ∨ j = s := by
  obtain ⟨e, he, rfl⟩ := List.mem_map.mp hs
  obtain ⟨r, hr, rfl⟩ := List.mem_map.mp he
  have hl : w.lookup (entry r).2 = some r := h.lookup_eq_some_iff.mpr ⟨hr, rfl⟩
  have stored : w.Stored (entry r).2 ↔ r.stored = true := by
    constructor
    · rintro ⟨r', hr', hs', hst⟩
      rwa [h.eq_of_serial_eq hr' hr hs'] at hst
    · exact fun hst => ⟨r, hr, rfl, hst⟩
  rw [store_leg, hl]
  refine ⟨_, _, rfl, ?_⟩
  split_ifs with hst
  · have hst' := stored.mpr hst
    refine ⟨h, rfl, by simp [hst, hst'], fun j => ⟨.inl, ?_⟩⟩
    rintro (hj | rfl)
    · exact hj
    · exact hst'
  · refine ⟨h.set_stored _, entries_set_stored w _, by simp [stored, hst], fun j => stored_set_stored hs⟩

/-- A triangle that is confirmed goes to the end, if its serial number is above all others. It stores those of its
legs that were not stored before, and the background if it was still to be stored. -/
theorem retain_spec (h : Indexed w) (serial : ∀ t ∈ db.database, t.record.serial < db.serial)
    {config : threepf_kconfig K} (hs : config.serial = db.serial)
    (held : ∀ leg ∈ config.legs, leg.2 ∈ w.entries.map Prod.snd) :
    ∃ w' t, db.retain w config = some (db.insert_record t, w', some config.serial) ∧ Indexed w' ∧
      w'.entries = w.entries ∧ t.record = config ∧ (db.insert_record t).database = db.database ++ [t] ∧
      (∀ j, t.Stores j ↔ j ∈ config.legs.map Prod.snd ∧ ¬ w.Stored j) ∧
      (∀ j, w'.Stored j ↔ w.Stored j ∨ j ∈ config.legs.map Prod.snd) ∧ t.store_background = db.store_background := by
  have held₁ : config.k1_serial ∈ w.entries.map Prod.snd :=
    held (config.k1_conventional, config.k1_serial) (by simp [threepf_kconfig.legs])
  have held₂ : config.k2_serial ∈ w.entries.map Prod.snd :=
    held (config.k2_conventional, config.k2_serial) (by simp [threepf_kconfig.legs])
  have held₃ : config.k3_serial ∈ w.entries.map Prod.snd :=
    held (config.k3_conventional, config.k3_serial) (by simp [threepf_kconfig.legs])
  obtain ⟨w₁, b₁, h₁, i₁, e₁, f₁, s₁⟩ := store_leg_spec h held₁
  obtain ⟨w₂, b₂, h₂, i₂, e₂, f₂, s₂⟩ := store_leg_spec (s := config.k2_serial) i₁ (by rwa [e₁])
  obtain ⟨w₃, b₃, h₃, i₃, e₃, f₃, s₃⟩ := store_leg_spec (s := config.k3_serial) i₂ (by rwa [e₂, e₁])
  simp only [s₁] at s₂ f₂
  simp only [s₂] at s₃ f₃
  refine ⟨w₃, ⟨config, db.store_background, b₁, b₂, b₃⟩, ?_, i₃, e₃.trans (e₂.trans e₁), rfl, ?_, ?_, ?_, rfl⟩
  · rw [retain, h₁]
    simp only [Option.bind_eq_bind, Option.bind_some, h₂, h₃]
    rfl
  · exact emplaceBySerial_eq_append fun x hx => by simpa [hs] using serial x hx
  · intro j
    simp only [threepf_kconfig_record.Stores, f₁, f₂, f₃, threepf_kconfig.legs, List.map_cons, List.map_nil,
      List.mem_cons, List.not_mem_nil, or_false]
    constructor
    · rintro (⟨hn, rfl⟩ | ⟨hn, rfl⟩ | ⟨hn, rfl⟩) <;> simp_all
    · rintro ⟨hj, hn⟩
      by_cases j₁ : j = config.k1_serial
      · exact .inl (j₁ ▸ ⟨hn, rfl⟩)
      by_cases j₂ : j = config.k2_serial
      · exact .inr (.inl (by subst j₂; exact ⟨by simp [hn, j₁], rfl⟩))
      · have j₃ : j = config.k3_serial := by simpa [j₁, j₂] using hj
        exact .inr (.inr (by subst j₃; exact ⟨by simp [hn, j₁, j₂], rfl⟩))
  · intro j
    simp only [s₃, threepf_kconfig.legs, List.map_cons, List.map_nil, List.mem_cons, List.not_mem_nil, or_false,
      or_assoc]

/-- The legs of the triangles kept. -/
def legs (db : threepf_kconfig_database K) : List (K × ℕ) := db.database.flatMap fun t => t.record.legs

theorem legs_insert_record {t : threepf_kconfig_record K}
    (h : (db.insert_record t).database = db.database ++ [t]) :
    (db.insert_record t).legs = db.legs ++ t.record.legs := by
  rw [legs, h, List.flatMap_append]
  simp [legs]

end threepf_kconfig_database

/-! ### Sequences of calls -/

/-- A threepf database and its twopf database. -/
structure State (K : Type*) where
  threepf_db : threepf_kconfig_database K
  twopf_db : twopf_kconfig_database K

/-- A call that adds a triangle. -/
inductive Call (K : Type*) where
  /-- `add_k1k2k3_record`. -/
  | k1k2k3 (k1_conventional k2_conventional k3_conventional : K) (policy : threepf_kconfig K → storage_outcome)
  /-- `add_alphabeta_record`. -/
  | alphabeta (kt_conventional alpha beta : K) (policy : threepf_kconfig K → storage_outcome)

namespace Call

def policy : Call K → threepf_kconfig K → storage_outcome
  | k1k2k3 _ _ _ policy => policy
  | alphabeta _ _ _ policy => policy

/-- The configuration that is added. -/
def config (db : threepf_kconfig_database K) : Call K → threepf_kconfig K
  | k1k2k3 k₁ k₂ k₃ _ => db.config_k1k2k3 k₁ k₂ k₃
  | alphabeta kt alpha beta _ => db.config_alphabeta kt alpha beta

end Call

namespace State

open twopf_kconfig_database threepf_kconfig_database

/-- Two new databases. -/
def create (cn : K) : State K := ⟨.create cn, .create cn⟩

/-- The databases after a call, where it is defined. -/
def apply (s : State K) : Call K → Option (State K)
  | .k1k2k3 k₁ k₂ k₃ policy =>
    (s.threepf_db.add_k1k2k3_record s.twopf_db k₁ k₂ k₃ policy).map fun r => ⟨r.1, r.2.1⟩
  | .alphabeta kt alpha beta policy =>
    (s.threepf_db.add_alphabeta_record s.twopf_db kt alpha beta policy).map fun r => ⟨r.1, r.2.1⟩

theorem apply_eq (s : State K) (c : Call K) : s.apply c =
    (s.threepf_db.add_record s.twopf_db (c.config s.threepf_db) c.policy).map fun r => ⟨r.1, r.2.1⟩ := by
  cases c <;> rfl

/-- Each leg of each triangle kept belongs to a live record within the tolerance, and a search for the leg
finds that record. -/
def Linked (s : State K) : Prop :=
  ∀ t ∈ s.threepf_db.database, ∀ leg ∈ t.record.legs,
    ∃ r, s.twopf_db.lookup leg.2 = some r ∧ Within r.k_conventional leg.1 ∧ s.twopf_db.find leg.1 = some leg.2

/-- Unless the policy takes its records back, the call adds none that undercuts a leg of a triangle kept
before or, if the policy accepts it, of its own. -/
def Undisturbed (s : State K) (c : Call K) : Prop :=
  ∀ p, s.threepf_db.populate s.twopf_db (c.config s.threepf_db) = some p →
    match c.policy p.config with
    | .reject_remove => True
    | .reject_retain => ∀ leg ∈ s.threepf_db.legs, NotUndercut s.twopf_db.entries p.twopf_db.entries leg
    | .accept =>
      ∀ leg ∈ s.threepf_db.legs ++ p.config.legs, NotUndercut s.twopf_db.entries p.twopf_db.entries leg

/-- What holds after every call. -/
structure Sound (s : State K) : Prop where
  indexed : Indexed s.twopf_db
  serial : ∀ t ∈ s.threepf_db.database, t.record.serial < s.threepf_db.serial
  /-- Legs are attached to a live record. -/
  attached : ∀ leg ∈ s.threepf_db.legs, Attached [] s.twopf_db.entries leg

theorem sound_create (cn : K) : Sound (create cn) where
  indexed := indexed_create cn
  serial := by simp [create, threepf_kconfig_database.create]
  attached := by simp [create, threepf_kconfig_database.create, legs]

theorem linked_create (cn : K) : Linked (create cn) := by simp [Linked, create, threepf_kconfig_database.create]

variable {s s' : State K} {c : Call K}

theorem Sound.linked_iff_attached (h : Sound s) :
    Linked s ↔ ∀ leg ∈ s.threepf_db.legs, Attached s.twopf_db.entries s.twopf_db.entries leg := by
  constructor
  · intro hl leg hleg
    obtain ⟨t, ht, hleg⟩ := List.mem_flatMap.mp hleg
    obtain ⟨r, -, -, hf⟩ := hl t ht leg hleg
    exact h.indexed.find_iff_attached.mp hf
  · intro ha t ht leg hleg
    have hf := h.indexed.find_iff_attached.mpr (ha leg (List.mem_flatMap.mpr ⟨t, ht, hleg⟩))
    obtain ⟨r, hr, hs, hw⟩ := h.indexed.exists_of_find hf
    exact ⟨r, h.indexed.lookup_eq_some_iff.mpr ⟨hr, hs⟩, hw, hf⟩

/-- If all legs were attached without the new records, they stay linked just if none is undercut. -/
theorem Sound.linked_iff_notUndercut (h : Sound s') {before : List (K × ℕ)}
    (attached : ∀ leg ∈ s'.threepf_db.legs, Attached before s'.twopf_db.entries leg) :
    Linked s' ↔ ∀ leg ∈ s'.threepf_db.legs, NotUndercut before s'.twopf_db.entries leg := by
  rw [h.linked_iff_attached]
  exact forall₂_congr fun leg hleg => (attached leg hleg).after_iff h.indexed.entries_unique

/-- What a call does, when it has populated the serial numbers and the policy has decided. -/
inductive Applied (s : State K) (p : Populated K) : storage_outcome → State K → Prop where
  /-- The records added are taken back. -/
  | reject_remove {w : twopf_kconfig_database K} : Indexed w → w.database = s.twopf_db.database →
      Applied s p .reject_remove ⟨s.threepf_db, w⟩
  /-- They stay. -/
  | reject_retain : Applied s p .reject_retain ⟨s.threepf_db, p.twopf_db⟩
  /-- The triangle is kept, and stores those of its legs that were not stored. -/
  | accept {w : twopf_kconfig_database K} {t : threepf_kconfig_record K} : Indexed w →
      w.entries = p.twopf_db.entries → t.record = p.config →
      (s.threepf_db.insert_record t).database = s.threepf_db.database ++ [t] →
      (∀ j, t.Stores j ↔ j ∈ p.config.legs.map Prod.snd ∧ ¬ p.twopf_db.Stored j) →
      (∀ j, w.Stored j ↔ p.twopf_db.Stored j ∨ j ∈ p.config.legs.map Prod.snd) →
      t.store_background = s.threepf_db.store_background →
      Applied s p .accept ⟨s.threepf_db.insert_record t, w⟩

/-- **One call** is defined: it attaches the legs and then does what the policy decides. -/
theorem exists_applied (h : Sound s) (c : Call K) :
    ∃ p new s', s.threepf_db.populate s.twopf_db (c.config s.threepf_db) = some p ∧
      Extends s.twopf_db p.twopf_db new ∧
      (∀ leg ∈ p.config.legs, Attached s.twopf_db.entries p.twopf_db.entries leg) ∧
      p.config.serial = s.threepf_db.serial ∧ s.apply c = some s' ∧ Applied s p (c.policy p.config) s' := by
  obtain ⟨p, hp, ext, own, hserial⟩ := s.threepf_db.populate_spec h.indexed (c.config s.threepf_db)
  suffices ∃ s', s.apply c = some s' ∧ Applied s p (c.policy p.config) s' by
    obtain ⟨s', happly, applied⟩ := this
    exact ⟨p, _, s', hp, ext, own, hserial, happly, applied⟩
  rw [apply_eq, threepf_kconfig_database.add_record, hp]
  simp only [Option.bind_eq_bind, Option.bind_some]
  cases hpol : c.policy p.config with
  | reject_remove =>
    obtain ⟨w₁, h₁, e₁⟩ := unwind_spec ext
    obtain ⟨w₂, h₂, e₂⟩ := unwind_spec e₁
    obtain ⟨w₃, h₃, e₃⟩ := unwind_spec e₂
    exact ⟨⟨s.threepf_db, w₃⟩, by simp [h₁, h₂, h₃], .reject_remove e₃.indexed e₃.database_eq⟩
  | reject_retain => exact ⟨⟨s.threepf_db, p.twopf_db⟩, by simp, .reject_retain⟩
  | accept =>
    have held : ∀ leg ∈ p.config.legs, leg.2 ∈ p.twopf_db.entries.map Prod.snd := fun leg hleg => by
      obtain ⟨e, he, hs, -⟩ := own leg hleg
      exact hs ▸ List.mem_map_of_mem he
    obtain ⟨w', t, hr, hi, same, ht, hdb, stores, stored, bg⟩ := retain_spec ext.indexed h.serial hserial held
    exact ⟨⟨s.threepf_db.insert_record t, w'⟩, by simp [hr], .accept hi same ht hdb stores stored bg⟩

/-- A call keeps the databases sound, and keeps the legs linked if and only if it is undisturbed. -/
theorem exists_apply (h : Sound s) (c : Call K) :
    ∃ s', s.apply c = some s' ∧ Sound s' ∧ (Linked s → (Linked s' ↔ Undisturbed s c)) := by
  obtain ⟨p, new, s', hp, ext, own, hserial, happly, applied⟩ := exists_applied h c
  have kept : ∀ leg ∈ s.threepf_db.legs, Attached [] p.twopf_db.entries leg := fun leg hleg =>
    (h.attached leg hleg).mono (List.Subset.refl _) ext.entries_subset
  have kept_linked : Linked s → ∀ leg ∈ s.threepf_db.legs, Attached s.twopf_db.entries p.twopf_db.entries leg :=
    fun hl leg hleg => (h.linked_iff_attached.mp hl leg hleg).mono (List.Subset.refl _) ext.entries_subset
  have undisturbed : Undisturbed s c ↔ match c.policy p.config with
      | .reject_remove => True
      | .reject_retain => ∀ leg ∈ s.threepf_db.legs, NotUndercut s.twopf_db.entries p.twopf_db.entries leg
      | .accept =>
        ∀ leg ∈ s.threepf_db.legs ++ p.config.legs, NotUndercut s.twopf_db.entries p.twopf_db.entries leg := by
    simp [Undisturbed, hp]
  refine ⟨s', happly, ?_⟩
  rw [undisturbed]
  generalize c.policy p.config = outcome at applied ⊢
  cases applied with
  | @reject_remove w hi hdb =>
    have same : w.entries = s.twopf_db.entries := congrArg (List.map entry) hdb
    have sound : Sound ⟨s.threepf_db, w⟩ := ⟨hi, h.serial, fun leg hleg => same ▸ h.attached leg hleg⟩
    refine ⟨sound, fun hl => iff_of_true ?_ trivial⟩
    refine sound.linked_iff_attached.mpr fun leg hleg => ?_
    simpa only [same] using h.linked_iff_attached.mp hl leg hleg
  | reject_retain =>
    have sound : Sound ⟨s.threepf_db, p.twopf_db⟩ := ⟨ext.indexed, h.serial, kept⟩
    exact ⟨sound, fun hl => sound.linked_iff_notUndercut (kept_linked hl)⟩
  | @accept w t hi same ht hdb =>
    have hlegs : (s.threepf_db.insert_record t).legs = s.threepf_db.legs ++ p.config.legs :=
      ht ▸ legs_insert_record hdb
    have attached : ∀ leg ∈ s.threepf_db.legs ++ p.config.legs, Attached [] p.twopf_db.entries leg := fun leg hleg =>
      (List.mem_append.mp hleg).elim (kept leg) fun hleg =>
        (own leg hleg).mono (List.nil_subset _) (List.Subset.refl _)
    have sound : Sound ⟨s.threepf_db.insert_record t, w⟩ := by
      refine ⟨hi, ?_, by simpa only [hlegs, same] using attached⟩
      intro x hx
      simp only [hdb, List.mem_append, List.mem_singleton] at hx
      rcases hx with hx | rfl
      · exact Nat.lt_succ_of_lt (h.serial x hx)
      · rw [ht, hserial]
        exact Nat.lt_succ_self _
    refine ⟨sound, fun hl => ?_⟩
    have all_linked : ∀ leg ∈ s.threepf_db.legs ++ p.config.legs,
        Attached s.twopf_db.entries p.twopf_db.entries leg :=
      fun leg hleg => (List.mem_append.mp hleg).elim (kept_linked hl leg) (own leg)
    simpa only [hlegs, same] using
      sound.linked_iff_notUndercut (by simpa only [hlegs, same] using all_linked)

/-- **Links**: along every sequence of calls, the legs of all triangles kept are linked if and only if no call
disturbs them. -/
theorem linked_iff (cn : K) (calls : List (Call K)) :
    System.StatesSatisfy apply Linked (create cn) calls ↔ System.StepsSatisfy apply Undisturbed (create cn) calls :=
  System.statesSatisfy_iff (I := Sound) (fun _ c hs => exists_apply hs c) (sound_create cn) (linked_create cn)

/-- Sequences of calls. -/
def runs (cn : K) : System (State K) (Call K) := System.ofNext (· = create cn) apply

/-- A triangle with two legs attached to the wavenumber of the third, which is above them but within the tolerance,
and a triangle whose wavenumber is within the tolerance of the two legs only. -/
def undercutting : List (Call ℚ) :=
  [.k1k2k3 1.000006 1 1 fun _ => .accept, .k1k2k3 0.999995 0.999995 0.999995 fun _ => .accept]

theorem linked_iff_undercutting : System.StatesSatisfy apply Linked (create 1) undercutting ↔
    System.StepsSatisfy apply Undisturbed (create 1) undercutting := linked_iff 1 undercutting

/-- Afterwards a search for the two legs finds the record of the second triangle. -/
theorem leg_undercut : (∀ c ∈ undercutting, ∀ leg ∈ (c.config (.create 1)).legs, 0 < leg.1) ∧
    ∃ s, undercutting.foldlM apply (create 1) = some s ∧ ¬ Linked s := by
  refine ⟨by decide +kernel, ?_⟩
  have found : (undercutting.foldlM apply (create 1)).any (fun s => s.threepf_db.database.any fun t =>
      t.record.legs.any fun leg => s.twopf_db.find leg.1 ≠ some leg.2) = true := by decide +kernel
  obtain ⟨s, hs, hany⟩ := (Option.any_eq_true _ _).mp found
  refine ⟨s, hs, fun linked => ?_⟩
  simp only [List.any_eq_true, decide_eq_true_eq] at hany
  obtain ⟨t, ht, leg, hleg, hne⟩ := hany
  obtain ⟨r, -, -, hf⟩ := linked t ht leg hleg
  exact hne hf

end State

end Kconfig

end CppTransport.Runtime
