import CppTransport.Library.Behaviour
import CppTransport.Runtime.ThreepfDatabase

/-!
# Clearing a database

`clear()` empties the records of a configuration database, and sets the serial number
and the flag for the background back. It leaves the index by wavenumber and the cached
extremes as they are.

## The model

A request is one call of the interface: adding, searching, looking up and deleting
records, the getters of the extremes, and iterating over the records. An iterator that
a call returns is answered by the record it points to. The twopf database that a call to
a threepf database receives is part of the request, and is part of the answer
afterwards. A request that the C++ code leaves undefined, as using an index entry whose
record has been destroyed, has no answer.

## What is proved

* `clear_iff`: after `clear`, a database answers every sequence of requests as a new one
  does if and only if the index was empty and the extremes that its getters read were
  those of a new one before;
* `Pristine.iff_empty`: after proper histories of a twopf database, this means that there
  was no record to clear.
-/

set_option linter.unusedSectionVars false

namespace CppTransport.Runtime

open Library

namespace Kconfig

variable {K : Type*} [Field K] [LinearOrder K] [IsStrictOrderedRing K]

/-! ### The twopf database -/

namespace twopf_kconfig_database

/-- A call to the database. -/
inductive Request (K : Type*) where
  | add_record (k_conventional : K)
  | find (k_conventional : K)
  | lookup (serial : ℕ)
  | delete_record (serial : ℕ)
  | get_kmax_conventional
  | get_kmax_comoving
  | get_kmin_conventional
  | get_kmin_comoving
  /-- Iteration from `record_begin` to `record_end`. -/
  | records

/-- What a call returns. -/
inductive Answer (K : Type*) where
  | done
  /-- An iterator: the record it points to, if it is not `record_end`. -/
  | iterator (r : Option (twopf_kconfig_record K))
  | extremum (x : Extremum K)
  | records (l : List (twopf_kconfig_record K))
  deriving DecidableEq

/-- The answer to a call, and the database afterwards. -/
def request (db : twopf_kconfig_database K) : Request K → Option (Answer K × twopf_kconfig_database K)
  | .add_record k =>
    let db' := db.add_record k
    (db'.lookup db.serial).map fun r => (.iterator (some r), db')
  | .find k =>
    match db.find k with
    | none => some (.iterator none, db)
    | some s => (db.lookup s).map fun r => (.iterator (some r), db)
  | .lookup serial => some (.iterator (db.lookup serial), db)
  | .delete_record serial => (db.delete_record serial).map fun db' => (.done, db')
  | .get_kmax_conventional => some (.extremum db.get_kmax_conventional, db)
  | .get_kmax_comoving => some (.extremum db.get_kmax_comoving, db)
  | .get_kmin_conventional => some (.extremum db.get_kmin_conventional, db)
  | .get_kmin_comoving => some (.extremum db.get_kmin_comoving, db)
  | .records => some (.records db.database, db)

/-- The databases agree on what some call reads. -/
structure Alike (db db' : twopf_kconfig_database K) : Prop where
  database : db.database = db'.database
  index_on_k : db.index_on_k = db'.index_on_k
  serial : db.serial = db'.serial
  store_background : db.store_background = db'.store_background
  comoving_normalization : db.comoving_normalization = db'.comoving_normalization
  kmax_conventional : db.kmax_conventional = db'.kmax_conventional
  kmin_conventional : db.kmin_conventional = db'.kmin_conventional
  kmax_comoving : db.kmax_comoving = db'.kmax_comoving

variable {db db' : twopf_kconfig_database K}

theorem Alike.rebuild_cache (h : Alike db db') : Alike db.rebuild_cache db'.rebuild_cache := by
  rw [rebuild_cache_eq, rebuild_cache_eq, ← h.database]
  exact ⟨rfl, h.index_on_k, rfl, h.store_background, h.comoving_normalization, rfl, rfl, rfl⟩

theorem Alike.add_record (h : Alike db db') (k : K) : Alike (db.add_record k) (db'.add_record k) := by
  obtain ⟨h₁, h₂, h₃, h₄, h₅, h₆, h₇, h₈⟩ := h
  have hr : db.new_record k = db'.new_record k := by simp only [new_record, h₃, h₄, h₅]
  constructor <;>
    simp only [twopf_kconfig_database.add_record, Extremes.update, hr, h₁, h₂, h₃, h₅, h₆, h₇, h₈]

theorem Alike.find (h : Alike db db') (k : K) : db.find k = db'.find k := by
  rw [twopf_kconfig_database.find, twopf_kconfig_database.find, h.index_on_k]

theorem Alike.lookup (h : Alike db db') (s : ℕ) : db.lookup s = db'.lookup s := by
  rw [twopf_kconfig_database.lookup, twopf_kconfig_database.lookup, h.database]

/-- **Simulation**: databases that agree on what is read return the same, and still agree. -/
theorem Alike.request (h : Alike db db') (i : Request K) : Corresponds Alike (db.request i) (db'.request i) := by
  cases i with
  | add_record k =>
    rw [twopf_kconfig_database.request, twopf_kconfig_database.request, (h.add_record k).lookup, h.serial]
    exact .map _ fun r => ⟨rfl, h.add_record k⟩
  | find k =>
    rw [twopf_kconfig_database.request, twopf_kconfig_database.request, h.find]
    cases db'.find k with
    | none => exact ⟨rfl, h⟩
    | some s =>
      simp only [h.lookup]
      exact .map _ fun r => ⟨rfl, h⟩
  | lookup serial => exact ⟨congrArg _ (h.lookup serial), h⟩
  | delete_record serial =>
    rw [twopf_kconfig_database.request, twopf_kconfig_database.request, delete_record, delete_record, h.lookup]
    cases db'.lookup serial with
    | none => trivial
    | some t =>
      simp only [h.find]
      cases db'.find t.k_conventional with
      | none => trivial
      | some _ =>
        refine ⟨rfl, Alike.rebuild_cache ?_⟩
        rw [h.database, h.index_on_k]
        exact ⟨rfl, rfl, h.serial, h.store_background, h.comoving_normalization, h.kmax_conventional,
          h.kmin_conventional, h.kmax_comoving⟩
  | get_kmax_conventional => exact ⟨congrArg Answer.extremum h.kmax_conventional, h⟩
  | get_kmax_comoving => exact ⟨congrArg Answer.extremum h.kmax_comoving, h⟩
  | get_kmin_conventional => exact ⟨congrArg Answer.extremum h.kmin_conventional, h⟩
  | get_kmin_comoving => exact ⟨congrArg Answer.extremum h.kmax_comoving, h⟩
  | records => exact ⟨congrArg Answer.records h.database, h⟩

/-- The index and the extremes that the getters read are those of a new database. -/
structure Pristine (db : twopf_kconfig_database K) : Prop where
  index_on_k : db.index_on_k = []
  kmax_conventional : db.kmax_conventional = ⊥
  kmin_conventional : db.kmin_conventional = ⊤
  kmax_comoving : db.kmax_comoving = ⊥

theorem sameAnswers_clear_iff (db : twopf_kconfig_database K) :
    SameAnswers request db.clear (create db.comoving_normalization) ↔ db.Pristine := by
  constructor
  · intro h
    refine ⟨?_, ?_, ?_, ?_⟩
    · -- the first key of the index would be found
      cases hidx : db.index_on_k with
      | nil => rfl
      | cons e idx =>
        have self := TolerantIndex.not_before_self tolerant_comparator e.1
        have found : db.clear.find e.1 = some e.2 := by simp [find, clear, hidx, TolerantIndex.find, self]
        have gone : db.clear.request (.find e.1) = none := by
          rw [request, found]
          rfl
        have head := h.head (.find e.1)
        rw [gone] at head
        cases head
    · simpa [request, clear, create, get_kmax_conventional, Extremes.initial] using h.head .get_kmax_conventional
    · simpa [request, clear, create, get_kmin_conventional, Extremes.initial] using h.head .get_kmin_conventional
    · simpa [request, clear, create, get_kmax_comoving, Extremes.initial] using h.head .get_kmax_comoving
  · intro h
    refine sameAnswers_of_bisimulation (R := Alike) (fun _ _ i hr => hr.request i) ?_
    exact ⟨rfl, h.index_on_k, rfl, rfl, rfl, h.kmax_conventional, h.kmin_conventional, h.kmax_comoving⟩

/-- After a proper history, there was no record. -/
theorem Pristine.iff_empty {cn : K} (h : (histories cn).Reachable db) : db.Pristine ↔ db.database = [] := by
  have entries := (indexed_of_reachable h).entries
  constructor
  · intro hp
    rw [hp.index_on_k] at entries
    exact List.map_eq_nil_iff.mp entries.nil_eq.symm
  · intro hnil
    rw [hnil] at entries
    have extremes : db.toExtremes = .initial := by
      have cached : Cached db := System.Invariant.reachable
        ⟨by rintro _ rfl; exact cached_create cn, fun _ _ _ hc hs => hc.apply hs⟩ h.of_restrict
      rw [cached.extremes, hnil]
      rfl
    exact ⟨entries.eq_nil, congrArg Extremes.kmax_conventional extremes,
      congrArg Extremes.kmin_conventional extremes, congrArg Extremes.kmax_comoving extremes⟩

end twopf_kconfig_database

/-! ### The threepf database -/

namespace threepf_kconfig_database

/-- A call to the database, with the twopf database that it is given. -/
inductive Request (K : Type*) where
  | add_k1k2k3_record (twopf_db : twopf_kconfig_database K) (k1_conventional k2_conventional k3_conventional : K)
      (policy : threepf_kconfig K → storage_outcome)
  | add_alphabeta_record (twopf_db : twopf_kconfig_database K) (kt_conventional alpha beta : K)
      (policy : threepf_kconfig K → storage_outcome)
  | add_record (twopf_db : twopf_kconfig_database K) (config : threepf_kconfig K)
      (policy : threepf_kconfig K → storage_outcome)
  | lookup (serial : ℕ)
  | get_kmax_conventional
  | get_kmax_comoving
  | get_kmin_conventional
  | get_kmin_comoving
  | get_kmax_2pf_conventional
  | get_kmax_2pf_comoving
  | get_kmin_2pf_conventional
  | get_kmin_2pf_comoving
  /-- Iteration from `record_begin` to `record_end`. -/
  | records

/-- What a call returns. -/
inductive Answer (K : Type*) where
  /-- The twopf database afterwards, and the record that was added. -/
  | added (twopf_db : twopf_kconfig_database K) (r : Option (threepf_kconfig_record K))
  /-- An iterator: the record it points to, if it is not `record_end`. -/
  | iterator (r : Option (threepf_kconfig_record K))
  | extremum (x : Extremum K)
  | records (l : List (threepf_kconfig_record K))

/-- The answer to a call that adds. -/
def added (r : threepf_kconfig_database K × twopf_kconfig_database K × Option ℕ) :
    Answer K × threepf_kconfig_database K :=
  (.added r.2.1 (r.2.2.bind r.1.lookup), r.1)

/-- The answer to a call, and the database afterwards. -/
def request (db : threepf_kconfig_database K) : Request K → Option (Answer K × threepf_kconfig_database K)
  | .add_k1k2k3_record w k₁ k₂ k₃ policy => (db.add_k1k2k3_record w k₁ k₂ k₃ policy).map added
  | .add_alphabeta_record w kt alpha beta policy => (db.add_alphabeta_record w kt alpha beta policy).map added
  | .add_record w config policy => (db.add_record w config policy).map added
  | .lookup serial => some (.iterator (db.lookup serial), db)
  | .get_kmax_conventional => some (.extremum db.get_kmax_conventional, db)
  | .get_kmax_comoving => some (.extremum db.get_kmax_comoving, db)
  | .get_kmin_conventional => some (.extremum db.get_kmin_conventional, db)
  | .get_kmin_comoving => some (.extremum db.get_kmin_comoving, db)
  | .get_kmax_2pf_conventional => some (.extremum db.get_kmax_2pf_conventional, db)
  | .get_kmax_2pf_comoving => some (.extremum db.get_kmax_2pf_comoving, db)
  | .get_kmin_2pf_conventional => some (.extremum db.get_kmin_2pf_conventional, db)
  | .get_kmin_2pf_comoving => some (.extremum db.get_kmin_2pf_comoving, db)
  | .records => some (.records db.database, db)

/-- The databases agree on what some call reads: on all but `modified`. -/
def Alike (db db' : threepf_kconfig_database K) : Prop := ∃ m, db' = { db with modified := m }

variable {db db' : threepf_kconfig_database K}

theorem Alike.add_record (h : Alike db db') (w : twopf_kconfig_database K) (config : threepf_kconfig K)
    (policy : threepf_kconfig K → storage_outcome) :
    Corresponds Alike ((db.add_record w config policy).map added) ((db'.add_record w config policy).map added) := by
  obtain ⟨m, rfl⟩ := h
  have populated : populate { db with modified := m } w config = db.populate w config := rfl
  rw [threepf_kconfig_database.add_record, threepf_kconfig_database.add_record, populated]
  cases db.populate w config with
  | none => trivial
  | some p =>
    simp only [Option.bind_eq_bind, Option.bind_some]
    cases policy p.config with
    | reject_remove =>
      simp only [Option.map_bind, Function.comp_def]
      refine .bind _ fun w₁ => .bind _ fun w₂ => .bind _ fun w₃ => ?_
      exact ⟨rfl, m, rfl⟩
    | reject_retain => exact ⟨rfl, m, rfl⟩
    | accept =>
      have retained : retain { db with modified := m } p.twopf_db p.config = db.retain p.twopf_db p.config := rfl
      rw [retained]
      exact .map _ fun r => ⟨rfl, r.1.modified, rfl⟩

/-- **Simulation**: databases that agree on what is read return the same, and still agree. -/
theorem Alike.request (h : Alike db db') (i : Request K) : Corresponds Alike (db.request i) (db'.request i) := by
  cases i with
  | add_k1k2k3_record w k₁ k₂ k₃ policy =>
    have same : db'.config_k1k2k3 k₁ k₂ k₃ = db.config_k1k2k3 k₁ k₂ k₃ := by
      obtain ⟨m, rfl⟩ := h
      rfl
    rw [threepf_kconfig_database.request, threepf_kconfig_database.request, add_k1k2k3_record, add_k1k2k3_record,
      same]
    exact h.add_record _ _ _
  | add_alphabeta_record w kt alpha beta policy =>
    have same : db'.config_alphabeta kt alpha beta = db.config_alphabeta kt alpha beta := by
      obtain ⟨m, rfl⟩ := h
      rfl
    rw [threepf_kconfig_database.request, threepf_kconfig_database.request, add_alphabeta_record,
      add_alphabeta_record, same]
    exact h.add_record _ _ _
  | add_record w config policy => exact h.add_record _ _ _
  | _ =>
    -- what the other calls read is the same
    obtain ⟨m, rfl⟩ := h
    exact ⟨rfl, m, rfl⟩

theorem sameAnswers_clear_iff (db : threepf_kconfig_database K) :
    SameAnswers request db.clear (create db.comoving_normalization) ↔ db.kt = .initial ∧ db.k_2pf = .initial := by
  constructor
  · intro h
    have extremum {x y : Extremum K} (hxy : some (Answer.extremum x) = some (Answer.extremum y)) : x = y := by
      cases hxy
      rfl
    have kt : ∀ e : Extremes K, e.kmax_conventional = ⊥ → e.kmin_conventional = ⊤ → e.kmax_comoving = ⊥ →
        e.kmin_comoving = ⊤ → e = .initial := by
      rintro ⟨_, _, _, _⟩ rfl rfl rfl rfl
      rfl
    constructor
    · exact kt _ (extremum (h.head .get_kmax_conventional)) (extremum (h.head .get_kmin_conventional))
        (extremum (h.head .get_kmax_comoving)) (extremum (h.head .get_kmin_comoving))
    · exact kt _ (extremum (h.head .get_kmax_2pf_conventional)) (extremum (h.head .get_kmin_2pf_conventional))
        (extremum (h.head .get_kmax_2pf_comoving)) (extremum (h.head .get_kmin_2pf_comoving))
  · rintro ⟨hkt, hk⟩
    refine sameAnswers_of_bisimulation (R := Alike) (fun _ _ i hr => hr.request i) ⟨true, ?_⟩
    rw [clear, hkt, hk]
    rfl

end threepf_kconfig_database

/-- **Clearing**: a cleared database answers every sequence of calls as a new one if and only if what `clear`
leaves alone was as in a new one: for a twopf database the index and the extremes that the getters read, for a
threepf database all extremes. -/
theorem clear_iff :
    (∀ db : twopf_kconfig_database K,
      SameAnswers twopf_kconfig_database.request db.clear (.create db.comoving_normalization) ↔ db.Pristine) ∧
    ∀ db : threepf_kconfig_database K,
      SameAnswers threepf_kconfig_database.request db.clear (.create db.comoving_normalization) ↔
        db.kt = .initial ∧ db.k_2pf = .initial :=
  ⟨twopf_kconfig_database.sameAnswers_clear_iff, threepf_kconfig_database.sameAnswers_clear_iff⟩

/-- Wavenumbers are rational numbers, and the database is new. -/
theorem clear_iff_create : SameAnswers twopf_kconfig_database.request (twopf_kconfig_database.create (3 : ℚ)).clear
    (.create 3) :=
  (clear_iff.1 (twopf_kconfig_database.create (3 : ℚ))).mpr ⟨rfl, rfl, rfl, rfl⟩

/-- One record is added and the database cleared; `get_kmax_conventional` still gives its wavenumber. -/
theorem stale_after_clear : ¬ ∀ (cn : ℚ) (ops : List (twopf_kconfig_database.Op ℚ)) (db : twopf_kconfig_database ℚ),
    ops.foldlM twopf_kconfig_database.apply (.create cn) = some db →
      SameAnswers twopf_kconfig_database.request db.clear (.create cn) := by
  intro h
  have differ := (h 3 [.add 1] _ rfl).head .get_kmax_conventional
  exact absurd differ (by decide +kernel)

end Kconfig

end CppTransport.Runtime
