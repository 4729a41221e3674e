import CppTransport.Library.Table
import CppTransport.Library.TolerantIndex
import CppTransport.Library.Transition
import Mathlib.Algebra.Order.Field.Basic
import Mathlib.Algebra.Order.Field.Rat
import Mathlib.Order.WithBot
import Mathlib.Tactic.Linarith
import Mathlib.Tactic.NormNum

/-!
# The database of twopf configurations

A `twopf_kconfig_database` (`configuration-database/twopf_config_database.h`) holds one
record for each wavenumber, under a serial number, and beside the records an index by
wavenumber, the extreme wavenumbers, and the next serial number. The index compares
wavenumbers with a relative tolerance.

## The model

Wavenumbers are elements of a linearly ordered field, so arithmetic is exact; they may be
zero or negative, as they are for some triangles that a storage policy then rejects. A
`std::map` is the list of its entries in the order of their keys, and an iterator into
the map of records is the serial number it points to. A cached extreme is a wavenumber or
one of the values `∓DBL_MAX` that the code starts from, which are `⊥` and `⊤`. Serial
numbers are not bounded: they stay below the number of records ever held. A deletion
that the C++ code leaves undefined (no such serial number, or no index entry) has no
result. Reading and writing the sqlite file is left out.

## What is proved

* `metadata_iff`: the extremes are those of the records held, and the next serial number
  is new, after every history, except that `get_kmin_comoving` gives the largest comoving
  wavenumber: it is right just if all records have the same one;
* `index_consistent`: if a wavenumber is added only where `find` fails, the index and the
  records correspond one to one, `find` finds what is within the tolerance, and a deletion
  removes one record and its entry.
-/

set_option linter.unusedSectionVars false

namespace CppTransport.Runtime

open Library

namespace Kconfig

variable {K : Type*} [Field K] [LinearOrder K] [IsStrictOrderedRing K]

/-! ### Cached extremes -/

/-- A cached extreme wavenumber: `-DBL_MAX`, a wavenumber, or `DBL_MAX`. -/
abbrev Extremum (K : Type*) := WithBot (WithTop K)

/-- A wavenumber as a value of a cache. -/
def wavenumber (k : K) : Extremum K := ((k : WithTop K) : WithBot (WithTop K))

theorem wavenumber_le_iff {k k' : K} : wavenumber k ≤ wavenumber k' ↔ k ≤ k' := by simp [wavenumber]

theorem wavenumber_lt_top (k : K) : wavenumber k < ⊤ := WithBot.coe_lt_coe.mpr (WithTop.coe_lt_top k)

theorem wavenumber_inj {k k' : K} : wavenumber k = wavenumber k' ↔ k = k' := by simp [wavenumber]

/-- `if(k > cache) cache = k`. -/
def raise (cache : Extremum K) (k : K) : Extremum K := if cache < wavenumber k then wavenumber k else cache

/-- `if(k < cache) cache = k`. -/
def lower (cache : Extremum K) (k : K) : Extremum K := if wavenumber k < cache then wavenumber k else cache

/-- The four extremes that a database caches together. -/
structure Extremes (K : Type*) where
  kmax_conventional : Extremum K
  kmin_conventional : Extremum K
  kmax_comoving : Extremum K
  kmin_comoving : Extremum K

namespace Extremes

/-- The values the constructor sets. -/
def initial : Extremes K where
  kmax_conventional := ⊥
  kmin_conventional := ⊤
  kmax_comoving := ⊥
  kmin_comoving := ⊤

/-- The four comparisons for one more pair of wavenumbers. -/
def update (e : Extremes K) (conventional comoving : K) : Extremes K where
  kmax_conventional := raise e.kmax_conventional conventional
  kmin_conventional := lower e.kmin_conventional conventional
  kmax_comoving := raise e.kmax_comoving comoving
  kmin_comoving := lower e.kmin_comoving comoving

end Extremes

/-! ### Records and the database -/

/-- Relative precision to which wavenumbers are told apart. -/
def CPPTRANSPORT_DEFAULT_KCONFIG_SEARCH_PRECISION : K := 1 / 100000

/-- Should return true if `a < b`; elements are considered equal if neither is less. -/
def ReverseKLookupComparator (a b : K) : Bool :=
  -- dividing by zero gives an infinity with the sign of `b`, or no number
  if a = 0 then decide (0 < b) else decide ((b - a) / |a| > CPPTRANSPORT_DEFAULT_KCONFIG_SEARCH_PRECISION)

/-- A twopf configuration in the database. -/
structure twopf_kconfig_record (K : Type*) where
  /-- Serial number. -/
  serial : ℕ
  /-- Comoving-normalized wavenumber. -/
  k_comoving : K
  /-- Conventionally normalized wavenumber. -/
  k_conventional : K
  /-- Time of horizon exit, to be filled in later. -/
  t_exit : K
  /-- Time where the massless approximation is marginal, to be filled in later. -/
  t_massless : K
  /-- Store the background for this configuration? -/
  store_background : Bool
  /-- Is this twopf stored, by a threepf configuration? -/
  stored : Bool
  deriving DecidableEq

/-- The database. -/
structure twopf_kconfig_database (K : Type*) extends Extremes K where
  /-- The records. -/
  database : List (twopf_kconfig_record K)
  /-- Index by wavenumber: the serial number of the record each entry points to. -/
  index_on_k : List (K × ℕ)
  /-- Serial number for the next inserted item. -/
  serial : ℕ
  /-- Is the database in a modified state? -/
  modified : Bool
  /-- Is the background still to be stored? -/
  store_background : Bool
  /-- Normalization from conventional to comoving wavenumbers. -/
  comoving_normalization : K

namespace twopf_kconfig_database

/-- The constructor. -/
def create (cn : K) : twopf_kconfig_database K where
  toExtremes := .initial
  database := []
  index_on_k := []
  serial := 0
  modified := true
  store_background := true
  comoving_normalization := cn

variable (db : twopf_kconfig_database K)

/-- `clear`. -/
def clear : twopf_kconfig_database K := { db with database := [], serial := 0, store_background := true }

/-- The record that `add_record` inserts. -/
def new_record (k_conventional : K) : twopf_kconfig_record K where
  serial := db.serial
  k_comoving := k_conventional * db.comoving_normalization
  k_conventional := k_conventional
  t_exit := 0
  t_massless := 0
  store_background := db.store_background
  stored := false

/-- `add_record`; the iterator it returns points to the serial number `db.serial`. -/
def add_record (k_conventional : K) : twopf_kconfig_database K :=
  let r := db.new_record k_conventional
  { db with
    toExtremes := db.toExtremes.update r.k_conventional r.k_comoving
    database := emplaceBySerial (·.serial) r db.database
    index_on_k := TolerantIndex.emplace ReverseKLookupComparator r.k_conventional r.serial db.index_on_k
    serial := db.serial + 1
    store_background := false
    modified := !db.database.any fun x => x.serial = r.serial }

/-- `lookup`. -/
def lookup (serial : ℕ) : Option (twopf_kconfig_record K) := db.database.find? fun r => r.serial = serial

/-- `find`: the serial number of the record found; `none` is `record_end()`. -/
def find (k_conventional : K) : Option ℕ :=
  (TolerantIndex.find ReverseKLookupComparator k_conventional db.index_on_k).map Prod.snd

/-- One round of the loop of `rebuild_cache`. -/
def cache_record (r : twopf_kconfig_record K) : twopf_kconfig_database K :=
  { db with
    toExtremes := db.toExtremes.update r.k_conventional r.k_comoving
    serial := if r.serial ≥ db.serial then r.serial + 1 else db.serial }

/-- `rebuild_cache`. -/
def rebuild_cache : twopf_kconfig_database K :=
  db.database.foldl cache_record { db with toExtremes := .initial, serial := 0 }

/-- `delete_record`, where it is defined. -/
def delete_record (serial : ℕ) : Option (twopf_kconfig_database K) :=
  match db.lookup serial with
  | none => none
  | some t =>
    match db.find t.k_conventional with
    | none => none
    | some _ =>
      some (rebuild_cache
        { db with
          database := db.database.filter fun r => r.serial ≠ serial
          index_on_k := TolerantIndex.erase ReverseKLookupComparator t.k_conventional db.index_on_k })

/-- `set_stored` on the record that an iterator points to. -/
def set_stored (serial : ℕ) : twopf_kconfig_database K :=
  { db with database := db.database.map fun r => if r.serial = serial then { r with stored := true } else r }

def get_kmax_conventional : Extremum K := db.kmax_conventional

def get_kmax_comoving : Extremum K := db.kmax_comoving

def get_kmin_conventional : Extremum K := db.kmin_conventional

/-- It reads the other cache. -/
def get_kmin_comoving : Extremum K := db.kmax_comoving

/-! ### Extremes and serial numbers over a list of records -/

/-- `x` is the largest value of `f` on the records. -/
def IsLargest (f : twopf_kconfig_record K → K) (l : List (twopf_kconfig_record K)) (x : Extremum K) : Prop :=
  ∃ r ∈ l, x = wavenumber (f r) ∧ ∀ r' ∈ l, f r' ≤ f r

/-- `x` is the smallest value of `f` on the records. -/
def IsSmallest (f : twopf_kconfig_record K → K) (l : List (twopf_kconfig_record K)) (x : Extremum K) : Prop :=
  ∃ r ∈ l, x = wavenumber (f r) ∧ ∀ r' ∈ l, f r ≤ f r'

section Extremes

variable {f : twopf_kconfig_record K → K} {l : List (twopf_kconfig_record K)}

theorem isLargest_foldl_raise (hne : l ≠ []) : IsLargest f l (l.foldl (fun c r => raise c (f r)) ⊥) := by
  induction l using List.reverseRecOn with
  | nil => exact absurd rfl hne
  | append_singleton l a ih =>
    rw [List.foldl_append, List.foldl_cons, List.foldl_nil]
    cases l with
    | nil => exact ⟨a, by simp, by simp [raise, wavenumber], by simp⟩
    | cons b l =>
      obtain ⟨r, hr, hx, hmax⟩ := ih (by simp)
      rw [hx, raise]
      split_ifs with hlt
      · refine ⟨a, by simp, rfl, fun r' hr' => ?_⟩
        have hra : f r < f a := lt_of_not_ge fun h => absurd (wavenumber_le_iff.mpr h) (not_le.mpr hlt)
        rcases List.mem_append.mp hr' with h | h
        · exact (hmax r' h).trans hra.le
        · rw [List.mem_singleton.mp h]
      · refine ⟨r, List.mem_append_left _ hr, rfl, fun r' hr' => ?_⟩
        rcases List.mem_append.mp hr' with h | h
        · exact hmax r' h
        · rw [List.mem_singleton.mp h]
          exact wavenumber_le_iff.mp (not_lt.mp hlt)

theorem isSmallest_foldl_lower (hne : l ≠ []) : IsSmallest f l (l.foldl (fun c r => lower c (f r)) ⊤) := by
  induction l using List.reverseRecOn with
  | nil => exact absurd rfl hne
  | append_singleton l a ih =>
    rw [List.foldl_append, List.foldl_cons, List.foldl_nil]
    cases l with
    | nil => exact ⟨a, by simp, by simp [lower, wavenumber_lt_top], by simp⟩
    | cons b l =>
      obtain ⟨r, hr, hx, hmin⟩ := ih (by simp)
      rw [hx, lower]
      split_ifs with hlt
      · refine ⟨a, by simp, rfl, fun r' hr' => ?_⟩
        have har : f a < f r := lt_of_not_ge fun h => absurd (wavenumber_le_iff.mpr h) (not_le.mpr hlt)
        rcases List.mem_append.mp hr' with h | h
        · exact har.le.trans (hmin r' h)
        · rw [List.mem_singleton.mp h]
      · refine ⟨r, List.mem_append_left _ hr, rfl, fun r' hr' => ?_⟩
        rcases List.mem_append.mp hr' with h | h
        · exact hmin r' h
        · rw [List.mem_singleton.mp h]
          exact wavenumber_le_iff.mp (not_lt.mp hlt)

/-- The extremes of a list of records, taken one by one. -/
def extremes_of (l : List (twopf_kconfig_record K)) (e : Extremes K) : Extremes K :=
  l.foldl (fun e r => e.update r.k_conventional r.k_comoving) e

theorem kmax_conventional_extremes_of (e : Extremes K) : (extremes_of l e).kmax_conventional =
    l.foldl (fun c r => raise c r.k_conventional) e.kmax_conventional :=
  (List.foldl_hom Extremes.kmax_conventional fun _ _ => rfl).symm

theorem kmin_conventional_extremes_of (e : Extremes K) : (extremes_of l e).kmin_conventional =
    l.foldl (fun c r => lower c r.k_conventional) e.kmin_conventional :=
  (List.foldl_hom Extremes.kmin_conventional fun _ _ => rfl).symm

theorem kmax_comoving_extremes_of (e : Extremes K) : (extremes_of l e).kmax_comoving =
    l.foldl (fun c r => raise c r.k_comoving) e.kmax_comoving :=
  (List.foldl_hom Extremes.kmax_comoving fun _ _ => rfl).symm

/-- The serial number that the loop of `rebuild_cache` arrives at. -/
def next_serial (l : List (twopf_kconfig_record K)) (serial : ℕ) : ℕ :=
  l.foldl (fun s r => if r.serial ≥ s then r.serial + 1 else s) serial

theorem lt_next_serial (serial : ℕ) : serial ≤ next_serial l serial ∧ ∀ r ∈ l, r.serial < next_serial l serial := by
  induction l generalizing serial with
  | nil => simp [next_serial]
  | cons a l ih =>
    obtain ⟨hle, hlt⟩ := ih (if a.serial ≥ serial then a.serial + 1 else serial)
    have hstep : next_serial (a :: l) serial =
        next_serial l (if a.serial ≥ serial then a.serial + 1 else serial) := rfl
    rw [hstep]
    refine ⟨?_, ?_⟩
    · split_ifs at hle ⊢ <;> omega
    · intro r hr
      rcases List.mem_cons.mp hr with rfl | hr
      · split_ifs at hle ⊢ <;> omega
      · exact hlt r hr

theorem foldl_cache_record (l : List (twopf_kconfig_record K)) (db : twopf_kconfig_database K) :
    l.foldl cache_record db =
      { db with toExtremes := extremes_of l db.toExtremes, serial := next_serial l db.serial } := by
  induction l generalizing db with
  | nil => rfl
  | cons r l ih => exact ih (db.cache_record r)

end Extremes

theorem rebuild_cache_eq : db.rebuild_cache =
    { db with toExtremes := extremes_of db.database .initial, serial := next_serial db.database 0 } :=
  foldl_cache_record _ _

/-! ### Histories -/

/-- An operation that changes the database. -/
inductive Op (K : Type*) where
  /-- `add_record`. -/
  | add (k_conventional : K)
  /-- `delete_record`. -/
  | delete (serial : ℕ)

/-- The database after an operation, where it is defined. -/
def apply (db : twopf_kconfig_database K) : Op K → Option (twopf_kconfig_database K)
  | .add k => some (db.add_record k)
  | .delete serial => db.delete_record serial

/-- A deletion that is defined removes the record, and searches the index for its wavenumber. -/
theorem delete_record_eq_some {serial : ℕ} {db' : twopf_kconfig_database K} (h : db.delete_record serial = some db') :
    ∃ t, db.lookup serial = some t ∧ (db.find t.k_conventional).isSome ∧
      db' = rebuild_cache
        { db with
          database := db.database.filter fun r => r.serial ≠ serial
          index_on_k := TolerantIndex.erase ReverseKLookupComparator t.k_conventional db.index_on_k } := by
  unfold delete_record at h
  split at h
  · cases h
  · rename_i t ht
    split at h
    · cases h
    · rename_i s hs
      exact ⟨t, ht, by rw [hs]; rfl, by simpa using h.symm⟩

/-! ### The metadata -/

/-- The extremes are those of the records, and the next serial number is above all. -/
structure Cached : Prop where
  extremes : db.toExtremes = extremes_of db.database .initial
  serial : ∀ r ∈ db.database, r.serial < db.serial

variable {db}

theorem cached_create (cn : K) : Cached (create cn) := ⟨rfl, by simp [create]⟩

theorem cached_rebuild_cache : Cached db.rebuild_cache := by
  rw [rebuild_cache_eq]
  exact ⟨rfl, (lt_next_serial 0).2⟩

/-- With a new serial number, the record goes to the end. -/
theorem database_add_record (h : ∀ r ∈ db.database, r.serial < db.serial) (k : K) :
    (db.add_record k).database = db.database ++ [db.new_record k] := emplaceBySerial_eq_append h

theorem Cached.add_record (h : Cached db) (k : K) : Cached (db.add_record k) := by
  have hdb := database_add_record h.serial k
  refine ⟨?_, ?_⟩
  · rw [hdb, extremes_of, List.foldl_append]
    exact congrArg (fun e : Extremes K => e.update _ _) h.extremes
  · intro r hr
    rw [hdb] at hr
    rcases List.mem_append.mp hr with hr | hr
    · exact Nat.lt_succ_of_lt (h.serial r hr)
    · rw [List.mem_singleton.mp hr]
      exact Nat.lt_succ_self _

theorem Cached.apply (h : Cached db) {o : Op K} {db' : twopf_kconfig_database K} (ho : db.apply o = some db') :
    Cached db' := by
  cases o with
  | add k =>
    obtain rfl : db.add_record k = db' := Option.some.inj ho
    exact h.add_record k
  | delete serial =>
    obtain ⟨t, -, -, rfl⟩ := delete_record_eq_some db ho
    exact cached_rebuild_cache

theorem cached_of_history {cn : K} {ops : List (Op K)} (h : ops.foldlM apply (create cn) = some db) : Cached db :=
  System.Run.invariant (S := System.ofNext (· = create cn) apply) (fun _ _ _ hc hs => hc.apply hs)
    (System.run_ofNext_of_foldlM h) (cached_create cn)

/-- What the getters and the serial number should say of the records held. -/
structure Metadata (db : twopf_kconfig_database K) : Prop where
  kmax_conventional : IsLargest (·.k_conventional) db.database db.get_kmax_conventional
  kmax_comoving : IsLargest (·.k_comoving) db.database db.get_kmax_comoving
  kmin_conventional : IsSmallest (·.k_conventional) db.database db.get_kmin_conventional
  kmin_comoving : IsSmallest (·.k_comoving) db.database db.get_kmin_comoving
  serial : ∀ r ∈ db.database, r.serial < db.serial

/-- **Metadata**: after every history that leaves a record, the getters and the next serial number are
right if and only if all records have the same comoving wavenumber. -/
theorem metadata_iff (cn : K) (ops : List (Op K)) (h : ops.foldlM apply (create cn) = some db)
    (hne : db.database ≠ []) :
    db.Metadata ↔ ∀ r ∈ db.database, ∀ r' ∈ db.database, r.k_comoving = r'.k_comoving := by
  have hc := cached_of_history h
  have largest : IsLargest (·.k_comoving) db.database db.kmax_comoving := by
    rw [hc.extremes, kmax_comoving_extremes_of]
    exact isLargest_foldl_raise hne
  constructor
  · intro hm r hr r' hr'
    obtain ⟨a, -, ha, hmax⟩ := hm.kmax_comoving
    obtain ⟨b, -, hb, hmin⟩ := hm.kmin_comoving
    have hab : a.k_comoving = b.k_comoving := wavenumber_inj.mp (ha.symm.trans hb)
    have hle : ∀ x ∈ db.database, ∀ y ∈ db.database, x.k_comoving ≤ y.k_comoving := fun x hx y hy =>
      (hmax x hx).trans (hab.le.trans (hmin y hy))
    exact le_antisymm (hle r hr r' hr') (hle r' hr' r hr)
  · intro same
    refine ⟨?_, largest, ?_, ?_, hc.serial⟩
    · rw [get_kmax_conventional, hc.extremes, kmax_conventional_extremes_of]
      exact isLargest_foldl_raise hne
    · rw [get_kmin_conventional, hc.extremes, kmin_conventional_extremes_of]
      exact isSmallest_foldl_lower hne
    · obtain ⟨a, ha, hx, -⟩ := largest
      exact ⟨a, ha, hx, fun r hr => (same a ha r hr).le⟩

theorem metadata_iff_sameWavenumber : Metadata (((create (3 : ℚ)).add_record 1).add_record 1) :=
  (metadata_iff 3 [.add 1, .add 1] rfl (by decide +kernel)).mpr (by decide +kernel)

/-- Two records with wavenumbers `1` and `2`: the smallest comoving wavenumber is said to be `2`. -/
theorem kmin_comoving_is_kmax : ∃ db : twopf_kconfig_database ℚ,
    [Op.add 1, .add 2].foldlM apply (create 1) = some db ∧ db.database ≠ [] ∧ ¬ db.Metadata := by
  refine ⟨((create 1).add_record 1).add_record 2, rfl, by decide +kernel, fun h => ?_⟩
  obtain ⟨r, -, hx, hmin⟩ := h.kmin_comoving
  have two : r.k_comoving = 2 := wavenumber_inj.mp (hx.symm.trans (by decide +kernel))
  have one : r.k_comoving ≤ ((create 1).new_record 1).k_comoving := hmin _ (by decide +kernel)
  rw [two] at one
  exact absurd one (by decide +kernel)

/-! ### The comparator -/

section Comparator

variable {a b : K}

theorem comparator_iff : ReverseKLookupComparator a b = true ↔
    |a| * CPPTRANSPORT_DEFAULT_KCONFIG_SEARCH_PRECISION < b - a := by
  rw [ReverseKLookupComparator]
  split_ifs with ha
  · simp [ha]
  · rw [decide_eq_true_eq, gt_iff_lt, lt_div_iff₀ (abs_pos.mpr ha), mul_comm]

theorem precision_pos : (0 : K) < CPPTRANSPORT_DEFAULT_KCONFIG_SEARCH_PRECISION := by
  unfold CPPTRANSPORT_DEFAULT_KCONFIG_SEARCH_PRECISION
  norm_num

theorem precision_le_one : (CPPTRANSPORT_DEFAULT_KCONFIG_SEARCH_PRECISION : K) ≤ 1 := by
  unfold CPPTRANSPORT_DEFAULT_KCONFIG_SEARCH_PRECISION
  norm_num

/-- The comparator is a strict comparison with a tolerance. -/
theorem tolerant_comparator : Tolerant (ReverseKLookupComparator (K := K)) where
  lt_of_before := by
    intro a b h
    have hlt := comparator_iff.mp h
    have := mul_nonneg (abs_nonneg a) precision_pos.le
    linarith
  mono := by
    intro a a' b b' hle hle' h
    have hlt := comparator_iff.mp h
    -- the tolerance grows by less than the distance does
    have grows : |a'| - |a| ≤ a - a' := by
      rw [← abs_of_nonneg (sub_nonneg.mpr hle), abs_sub_comm a a']
      exact abs_sub_abs_le_abs_sub a' a
    have := mul_le_mul_of_nonneg_right grows precision_pos.le
    have := mul_le_of_le_one_right (sub_nonneg.mpr hle) (precision_le_one (K := K))
    exact comparator_iff.mpr (by linarith)

end Comparator

/-! ### The index -/

/-- Neither wavenumber is less than the other, as far as the comparator can tell. -/
def Within (a b : K) : Prop := ReverseKLookupComparator a b = false ∧ ReverseKLookupComparator b a = false

/-- The index entry that belongs to a record. -/
def entry (r : twopf_kconfig_record K) : K × ℕ := (r.k_conventional, r.serial)

/-- The index and the records belong together. -/
structure Indexed (db : twopf_kconfig_database K) : Prop where
  /-- Keys are told apart by the comparator. -/
  separated : TolerantIndex.Separated ReverseKLookupComparator db.index_on_k
  /-- One entry for each record. -/
  entries : db.index_on_k.Perm (db.database.map entry)
  /-- Serial numbers ascend. -/
  sorted : db.database.Pairwise fun r r' => r.serial < r'.serial
  /-- The next serial number is above all. -/
  serial : ∀ r ∈ db.database, r.serial < db.serial

theorem indexed_create (cn : K) : Indexed (create cn) := by
  constructor <;> simp [create, TolerantIndex.Separated]

namespace Indexed

variable {r r' : twopf_kconfig_record K}

theorem mem_index_iff (h : Indexed db) {e : K × ℕ} : e ∈ db.index_on_k ↔ ∃ r ∈ db.database, entry r = e := by
  rw [h.entries.mem_iff, List.mem_map]

theorem lookup_eq_some_iff (h : Indexed db) {s : ℕ} : db.lookup s = some r ↔ r ∈ db.database ∧ r.serial = s :=
  find?_key_eq_some_iff (List.pairwise_map.mpr (h.sorted.imp fun h => Nat.ne_of_lt h))

theorem eq_of_serial_eq (h : Indexed db) (hr : r ∈ db.database) (hr' : r' ∈ db.database)
    (hs : r.serial = r'.serial) : r = r' :=
  Option.some.inj ((h.lookup_eq_some_iff.mpr ⟨hr, hs⟩).symm.trans (h.lookup_eq_some_iff.mpr ⟨hr', rfl⟩))

/-- Two records with the same wavenumber are the same. -/
theorem eq_of_wavenumber_eq (h : Indexed db) (hr : r ∈ db.database) (hr' : r' ∈ db.database)
    (hk : r.k_conventional = r'.k_conventional) : r = r' := by
  rcases h.separated.eq_or_before (h.mem_index_iff.mpr ⟨r, hr, rfl⟩) (h.mem_index_iff.mpr ⟨r', hr', rfl⟩)
    with he | hlt | hlt
  · exact h.eq_of_serial_eq hr hr' (congrArg Prod.snd he)
  · exact absurd hk (tolerant_comparator.lt_of_before hlt).ne
  · exact absurd hk (tolerant_comparator.lt_of_before hlt).ne'

/-- **Search**: it finds the record with the smallest equivalent wavenumber. -/
theorem find_eq_some_iff (h : Indexed db) {k : K} (hr : r ∈ db.database) : db.find k = some r.serial ↔
    Within r.k_conventional k ∧
      ∀ r' ∈ db.database, r'.k_conventional < r.k_conventional →
        ReverseKLookupComparator r'.k_conventional k = true := by
  have hfind := TolerantIndex.find_eq_some_iff (k := k) (e := entry r) tolerant_comparator h.separated
  have hmem : entry r ∈ db.index_on_k := h.mem_index_iff.mpr ⟨r, hr, rfl⟩
  constructor
  · intro hf
    obtain ⟨e, he, hs⟩ := Option.map_eq_some_iff.mp hf
    obtain ⟨r₁, hr₁, rfl⟩ := h.mem_index_iff.mp (TolerantIndex.find_eq_some he).1
    obtain rfl := h.eq_of_serial_eq hr₁ hr hs
    obtain ⟨-, h₁, h₂, least⟩ := hfind.mp he
    exact ⟨⟨h₁, h₂⟩, fun r' hr' => least (entry r') (h.mem_index_iff.mpr ⟨r', hr', rfl⟩)⟩
  · rintro ⟨⟨h₁, h₂⟩, least⟩
    have he := hfind.mpr ⟨hmem, h₁, h₂, fun e' he' hlt => ?_⟩
    · rw [find, he]
      rfl
    · obtain ⟨r', hr', rfl⟩ := h.mem_index_iff.mp he'
      exact least r' hr' hlt

theorem exists_of_find (h : Indexed db) {k : K} {s : ℕ} (hf : db.find k = some s) :
    ∃ r ∈ db.database, r.serial = s ∧ Within r.k_conventional k := by
  obtain ⟨e, he, rfl⟩ := Option.map_eq_some_iff.mp hf
  obtain ⟨hmem, h₁, h₂⟩ := TolerantIndex.find_eq_some he
  obtain ⟨r, hr, rfl⟩ := h.mem_index_iff.mp hmem
  exact ⟨r, hr, rfl, h₁, h₂⟩

theorem find_isSome (h : Indexed db) {k : K} (hr : r ∈ db.database) (hw : Within r.k_conventional k) :
    (db.find k).isSome := by
  rw [find, Option.isSome_map]
  exact TolerantIndex.find_isSome tolerant_comparator h.separated (h.mem_index_iff.mpr ⟨r, hr, rfl⟩)
    hw.1 hw.2

theorem add_record (h : Indexed db) {k : K} (hf : db.find k = none) : Indexed (db.add_record k) := by
  have hdb := database_add_record h.serial k
  have hnone : TolerantIndex.find ReverseKLookupComparator k db.index_on_k = none := Option.map_eq_none_iff.mp hf
  refine ⟨h.separated.emplace tolerant_comparator hnone, ?_, ?_, ?_⟩
  · rw [hdb, List.map_append]
    exact ((TolerantIndex.emplace_perm hnone).trans (h.entries.cons _)).trans (List.perm_append_singleton _ _).symm
  · rw [hdb]
    refine List.pairwise_append.mpr ⟨h.sorted, by simp, fun r hr r' hr' => ?_⟩
    rw [List.mem_singleton.mp hr']
    exact h.serial r hr
  · intro r hr
    rw [hdb] at hr
    rcases List.mem_append.mp hr with hr | hr
    · exact Nat.lt_succ_of_lt (h.serial r hr)
    · rw [List.mem_singleton.mp hr]
      exact Nat.lt_succ_self _

/-- **Deletion**: it is defined for a record that is held, and removes it and its own entry. -/
theorem delete_record_eq (h : Indexed db) {t : twopf_kconfig_record K} (ht : t ∈ db.database) :
    db.delete_record t.serial = some (rebuild_cache
      { db with
        database := db.database.filter fun r => r.serial ≠ t.serial
        index_on_k := db.index_on_k.filter fun e => e.2 ≠ t.serial }) := by
  have hmem : entry t ∈ db.index_on_k := h.mem_index_iff.mpr ⟨t, ht, rfl⟩
  have herase : TolerantIndex.erase ReverseKLookupComparator t.k_conventional db.index_on_k =
      db.index_on_k.filter fun e => e.2 ≠ t.serial := by
    rw [show t.k_conventional = (entry t).1 from rfl,
      TolerantIndex.erase_key tolerant_comparator h.separated hmem]
    refine List.filter_congr fun e he => ?_
    obtain ⟨r, hr, rfl⟩ := h.mem_index_iff.mp he
    have : r.k_conventional = t.k_conventional ↔ r.serial = t.serial :=
      ⟨fun hk => by rw [h.eq_of_wavenumber_eq hr ht hk], fun hs => by rw [h.eq_of_serial_eq hr ht hs]⟩
    exact decide_eq_decide.mpr (not_congr this)
  have hfind : db.find t.k_conventional = some t.serial := by
    rw [find, show t.k_conventional = (entry t).1 from rfl,
      TolerantIndex.find_key tolerant_comparator h.separated hmem]
    rfl
  rw [delete_record, h.lookup_eq_some_iff.mpr ⟨ht, rfl⟩]
  simp only [hfind, herase]

theorem of_delete_record (h : Indexed db) (s : ℕ) : Indexed (rebuild_cache
    { db with
      database := db.database.filter fun r => r.serial ≠ s
      index_on_k := db.index_on_k.filter fun e => e.2 ≠ s }) := by
  rw [rebuild_cache_eq]
  refine ⟨h.separated.filter _, ?_, h.sorted.filter _, (lt_next_serial 0).2⟩
  have entries := h.entries.filter fun e => decide (e.2 ≠ s)
  rwa [List.filter_map] at entries

end Indexed

/-- A wavenumber is added where it is not found, and deletions are of serial numbers held. -/
def Proper (db : twopf_kconfig_database K) : Op K → Prop
  | .add k => db.find k = none
  | .delete serial => ∃ r ∈ db.database, r.serial = serial

/-- Sequences of proper operations on a new database. -/
def histories (cn : K) : System (twopf_kconfig_database K) (Op K) :=
  (System.ofNext (· = create cn) apply).restrict Proper

theorem indexed_of_reachable {cn : K} (h : (histories cn).Reachable db) : Indexed db := by
  refine System.Invariant.reachable ⟨?_, ?_⟩ h
  · rintro db rfl
    exact indexed_create cn
  · rintro db o db' hi ⟨hp, ho⟩
    cases o with
    | add k =>
      obtain rfl : db.add_record k = db' := Option.some.inj ho
      exact hi.add_record hp
    | delete serial =>
      obtain ⟨r, hr, rfl⟩ := hp
      obtain rfl := Option.some.inj ((hi.delete_record_eq hr).symm.trans ho)
      exact hi.of_delete_record r.serial

/-- What the index and the operations that use it should do. -/
structure IndexConsistent (db : twopf_kconfig_database K) : Prop where
  /-- The comparator tells any two keys apart. -/
  separated : db.index_on_k.Pairwise fun a b =>
    ReverseKLookupComparator a.1 b.1 = true ∨ ReverseKLookupComparator b.1 a.1 = true
  /-- Each entry points to the live record with its wavenumber, and each record has one. -/
  entries : db.index_on_k.Perm (db.database.map fun r => (r.k_conventional, r.serial))
  /-- No two records share a serial number. -/
  nodup : (db.database.map (·.serial)).Nodup
  /-- `find` gives a live record within the tolerance. -/
  find_live : ∀ k s, db.find k = some s → ∃ r, db.lookup s = some r ∧ Within r.k_conventional k
  /-- It gives one if there is one. -/
  find_complete : ∀ k, ∀ r ∈ db.database, Within r.k_conventional k → ∃ s, db.find k = some s
  /-- `delete_record` removes the record named and its own entry. -/
  delete : ∀ r ∈ db.database, ∃ db', db.delete_record r.serial = some db' ∧
    db'.database = db.database.filter (fun x => x.serial ≠ r.serial) ∧
    db'.index_on_k = db.index_on_k.filter (fun e => e.2 ≠ r.serial)

/-- **Index**: it is consistent after every sequence of proper operations. -/
theorem index_consistent {cn : K} (h : (histories cn).Reachable db) : db.IndexConsistent := by
  have hi := indexed_of_reachable h
  refine ⟨hi.separated.imp .inl, hi.entries, ?_, ?_, ?_, ?_⟩
  · exact List.pairwise_map.mpr (hi.sorted.imp fun h => Nat.ne_of_lt h)
  · intro k s hf
    obtain ⟨r, hr, hs, hw⟩ := hi.exists_of_find hf
    exact ⟨r, hi.lookup_eq_some_iff.mpr ⟨hr, hs⟩, hw⟩
  · intro k r hr hw
    exact Option.isSome_iff_exists.mp (hi.find_isSome hr hw)
  · intro r hr
    refine ⟨_, hi.delete_record_eq hr, ?_, ?_⟩ <;> rw [rebuild_cache_eq]

/-- Wavenumbers `1` and `2`, of which the first is deleted again. -/
theorem index_consistent_deleted : ∃ db : twopf_kconfig_database ℚ,
    (((create 3).add_record 1).add_record 2).delete_record 0 = some db ∧ db.IndexConsistent := by
  obtain ⟨db, hdb⟩ := Option.isSome_iff_exists.mp
    (show ((((create (3 : ℚ)).add_record 1).add_record 2).delete_record 0).isSome by decide +kernel)
  have start : (histories (3 : ℚ)).Reachable (create 3) := .of_init rfl
  have first : (histories (3 : ℚ)).Reachable ((create 3).add_record 1) :=
    start.step (l := .add 1) ⟨(by decide +kernel : (create (3 : ℚ)).find 1 = none), rfl⟩
  have second : (histories (3 : ℚ)).Reachable (((create 3).add_record 1).add_record 2) :=
    first.step (l := .add 2) ⟨(by decide +kernel : ((create (3 : ℚ)).add_record 1).find 2 = none), rfl⟩
  have held : ∃ r ∈ (((create (3 : ℚ)).add_record 1).add_record 2).database, r.serial = 0 := by decide +kernel
  exact ⟨db, hdb, index_consistent (second.step (l := .delete 0) ⟨held, hdb⟩)⟩

end twopf_kconfig_database

end Kconfig

end CppTransport.Runtime
