import CppTransport.Library.Exceptions
import CppTransport.Library.Table
import Mathlib.Algebra.Ring.Int.Defs
import Mathlib.Data.Int.Order.Basic
import Mathlib.Order.Defs.LinearOrder
import Mathlib.Order.Lattice
import Mathlib.Tactic.Push

/-!
# The databases of sample times

A task with a database of wavenumbers has one database of the times that are stored, and a database for each mode
with the times that its integration steps through. This begins at the initial time of the mode, under a serial number
of its own; then come sample times that are not stored, and those that are.

## The model

Times are elements of any linear order with a subtraction, and serial numbers wrap around. A `std::map` is the list of
its records in the order of their serial numbers. How a wavenumber is found in its database is a parameter.

## What is proved

`times_match_iff`: the database of a mode has the stored times, begins where it should and increases, exactly when the
initial time is not a sample time before the earliest that is recorded. Otherwise the initial time is there twice.
-/

namespace CppTransport.Runtime.TimeDatabases

open Library

def CPPTRANSPORT_TIME_DATABASE_LOWEST_SERIAL : ℕ := 1

def CPPTRANSPORT_TIME_DATABASE_SPECIAL_SERIAL : ℕ := 0

/-! ### Databases of times -/

structure time_config (α : Type) where
  serial : ℕ
  t : α
deriving DecidableEq, Repr

structure time_config_record (α : Type) where
  record : time_config α
  /-- Whether the configuration is stored in the database. -/
  store : Bool
deriving DecidableEq, Repr

abbrev time_config_database (α : Type) := List (time_config_record α)

variable {α κ : Type} [LinearOrder α]

omit [LinearOrder α] in
def add_record (t : α) (store : Bool) (serial : ℕ) (database : time_config_database α) : time_config_database α :=
  emplaceBySerial (·.record.serial) ⟨⟨serial, t⟩, store⟩ database

/-! ### Tasks -/

/-- A range of times, whose size is an unsigned number. -/
structure grid (α : Type) [LinearOrder α] where
  times : List α
  increasing : times.Pairwise (· < ·)
  size_lt : times.length < 2 ^ 32

structure twopf_kconfig (α : Type) where
  t_massless : α

structure twopf_db_task (α κ : Type) [LinearOrder α] where
  times : grid α
  adaptive_ics : Bool
  adaptive_efolds : α
  N_initial : α
  /-- `find` in the database of wavenumbers. -/
  find : κ → Option (twopf_kconfig α)

inductive Thrown (κ : Type) where
  | database_miss (k : κ)
  | no_times
  | assertion
deriving DecidableEq, Repr

/-- `++serial` -/
def next_serial (serial : ℕ) : ℕ := (serial + 1) % 2 ^ 32

/-- The loop of `build_time_config_database`. -/
def build_loop (Nbegin earliest_recordable : α) :
    List α → ℕ → Bool → time_config_database α → time_config_database α
  | [], _, _, time_db => time_db
  | t :: ts, serial, first, time_db =>
    if t ≥ Nbegin then
      if t ≥ earliest_recordable then
        let time_db := if first ∧ Nbegin < t then
          add_record Nbegin false CPPTRANSPORT_TIME_DATABASE_SPECIAL_SERIAL time_db else time_db
        build_loop Nbegin earliest_recordable ts (next_serial serial) false (add_record t true serial time_db)
      else build_loop Nbegin earliest_recordable ts (next_serial serial) first (add_record t false serial time_db)
    else build_loop Nbegin earliest_recordable ts (next_serial serial) first time_db

/-- The loop of `cache_stored_time_config_database`. -/
def cache_loop (earliest_recordable : α) : List α → ℕ → time_config_database α → time_config_database α
  | [], _, stored_time_db => stored_time_db
  | t :: ts, serial, stored_time_db =>
    if t ≥ earliest_recordable then
      cache_loop earliest_recordable ts (next_serial serial) (add_record t true serial stored_time_db)
    else cache_loop earliest_recordable ts (next_serial serial) stored_time_db

namespace twopf_db_task

variable [Sub α] (tk : twopf_db_task α κ)

def get_initial_time (config : twopf_kconfig α) : α :=
  if tk.adaptive_ics then config.t_massless - tk.adaptive_efolds else tk.N_initial

def get_earliest_recordable_time (largest_conventional_k : κ) : Except (Thrown κ) α :=
  match tk.find largest_conventional_k with
  | none => .error (.database_miss largest_conventional_k)
  | some rec => .ok (tk.get_initial_time rec)

def build_time_config_database (Nbegin : α) (largest_conventional_k : κ) :
    Except (Thrown κ) (time_config_database α) := do
  let earliest_recordable ← tk.get_earliest_recordable_time largest_conventional_k
  let raw_times := tk.times.times
  if raw_times.length = 0 then .error .no_times
  else
    let time_db := build_loop Nbegin earliest_recordable raw_times CPPTRANSPORT_TIME_DATABASE_LOWEST_SERIAL true []
    if time_db.length > 0 then .ok time_db else .error .assertion

def cache_stored_time_config_database (largest_conventional_k : κ) : Except (Thrown κ) (time_config_database α) := do
  let earliest_recordable ← tk.get_earliest_recordable_time largest_conventional_k
  return cache_loop earliest_recordable tk.times.times CPPTRANSPORT_TIME_DATABASE_LOWEST_SERIAL []

end twopf_db_task

/-! ### What the loops leave -/

section

omit [LinearOrder α]

variable {t : α} {store : Bool} {serial : ℕ} {database : time_config_database α}

theorem add_record_eq_append (h : ∀ r ∈ database, r.record.serial < serial) :
    add_record t store serial database = database ++ [⟨⟨serial, t⟩, store⟩] :=
  emplaceBySerial_eq_append h

/-- A serial number below all others goes to the front. -/
theorem add_record_eq_cons (h : ∀ r ∈ database, serial < r.record.serial) :
    add_record t store serial database = ⟨⟨serial, t⟩, store⟩ :: database := by
  have hfresh : database.any (fun r => r.record.serial = serial) = false := by
    simp only [List.any_eq_false, decide_eq_true_eq]
    exact fun r hr => (h r hr).ne'
  rw [add_record, emplaceBySerial, hfresh, if_neg Bool.false_ne_true]
  cases database with
  | nil => rfl
  | cons r database =>
    have hhead : ¬r.record.serial < serial := (h r List.mem_cons_self).not_gt
    rw [List.takeWhile_cons_of_neg (by simpa using hhead), List.dropWhile_cons_of_neg (by simpa using hhead)]
    rfl

/-- A loop that has not ended goes on with the next serial number. -/
theorem apply_next_serial {β : Type} {f : List α → ℕ → β} (hnil : ∀ s s', f [] s = f [] s') {ts : List α}
    (h : serial + (ts.length + 1) ≤ 2 ^ 32) : f ts (next_serial serial) = f ts (serial + 1) := by
  cases ts with
  | nil => exact hnil _ _
  | cons t ts =>
    rw [List.length_cons] at h
    rw [next_serial, Nat.mod_eq_of_lt (by omega)]

theorem forall_mem_append_record (h : ∀ r ∈ database, r.record.serial < serial) :
    ∀ r ∈ database ++ [⟨⟨serial, t⟩, store⟩], r.record.serial < serial + 1 := by
  intro r hr
  rcases List.mem_append.mp hr with hr | hr
  · exact Nat.lt_succ_of_lt (h r hr)
  · rw [List.mem_singleton.mp hr]
    exact Nat.lt_succ_self serial

end

/-- The records of the sample times from `start` on, numbered from `serial`. -/
def sampled (start earliest_recordable : α) : List α → ℕ → time_config_database α
  | [], _ => []
  | t :: ts, serial =>
    if start ≤ t then ⟨⟨serial, t⟩, earliest_recordable ≤ t⟩ :: sampled start earliest_recordable ts (serial + 1)
    else sampled start earliest_recordable ts (serial + 1)

variable {Nbegin earliest_recordable : α}

theorem cache_loop_eq {ts : List α} {serial : ℕ} {stored_time_db : time_config_database α}
    (hserial : serial + ts.length ≤ 2 ^ 32) (hbelow : ∀ r ∈ stored_time_db, r.record.serial < serial) :
    cache_loop earliest_recordable ts serial stored_time_db =
      stored_time_db ++ sampled earliest_recordable earliest_recordable ts serial := by
  induction ts generalizing serial stored_time_db with
  | nil => exact (List.append_nil _).symm
  | cons t ts ih =>
    rw [List.length_cons] at hserial
    have hnext : ∀ db, cache_loop earliest_recordable ts (next_serial serial) db =
        cache_loop earliest_recordable ts (serial + 1) db := fun db =>
      apply_next_serial (f := fun ts serial => cache_loop earliest_recordable ts serial db) (fun _ _ => rfl) hserial
    rw [cache_loop, sampled, hnext, hnext]
    by_cases ht : earliest_recordable ≤ t
    · rw [if_pos ht, if_pos ht, add_record_eq_append hbelow, ih (by omega) (forall_mem_append_record hbelow),
        List.append_assoc, List.singleton_append, decide_eq_true ht]
    · rw [if_neg ht, if_neg ht, ih (by omega) fun r hr => Nat.lt_succ_of_lt (hbelow r hr)]

/-- After the first recorded time. -/
theorem build_loop_eq_of_recorded {ts : List α} {serial : ℕ}
    {time_db : time_config_database α} (hserial : serial + ts.length ≤ 2 ^ 32)
    (hbelow : ∀ r ∈ time_db, r.record.serial < serial) :
    build_loop Nbegin earliest_recordable ts serial false time_db =
      time_db ++ sampled Nbegin earliest_recordable ts serial := by
  induction ts generalizing serial time_db with
  | nil => exact (List.append_nil _).symm
  | cons t ts ih =>
    rw [List.length_cons] at hserial
    have hnext : ∀ db, build_loop Nbegin earliest_recordable ts (next_serial serial) false db =
        build_loop Nbegin earliest_recordable ts (serial + 1) false db := fun db =>
      apply_next_serial (f := fun ts serial => build_loop Nbegin earliest_recordable ts serial false db)
        (fun _ _ => rfl) hserial
    rw [build_loop, sampled]
    simp only [hnext, Bool.false_eq_true, false_and, if_false, ge_iff_le, add_record_eq_append hbelow]
    rw [ih (by omega) (forall_mem_append_record hbelow), ih (by omega) (forall_mem_append_record hbelow),
      ih (by omega) fun r hr => Nat.lt_succ_of_lt (hbelow r hr)]
    by_cases hbegin : Nbegin ≤ t <;> by_cases ht : earliest_recordable ≤ t <;> simp [hbegin, ht]

/-- The initial time, unless it is the first recorded time itself. -/
def special (Nbegin earliest_recordable : α) (ts : List α) : time_config_database α :=
  if (ts.find? (earliest_recordable ≤ ·)).any (Nbegin < ·) then
    [⟨⟨CPPTRANSPORT_TIME_DATABASE_SPECIAL_SERIAL, Nbegin⟩, false⟩]
  else []

/-- Before the first recorded time: the initial time will be put in front of all others. -/
theorem build_loop_eq (hstart : Nbegin ≤ earliest_recordable) {ts : List α} {serial : ℕ}
    {time_db : time_config_database α} (hserial : serial + ts.length ≤ 2 ^ 32)
    (hpos : CPPTRANSPORT_TIME_DATABASE_SPECIAL_SERIAL < serial) (hbelow : ∀ r ∈ time_db, r.record.serial < serial)
    (habove : ∀ r ∈ time_db, CPPTRANSPORT_TIME_DATABASE_SPECIAL_SERIAL < r.record.serial) :
    build_loop Nbegin earliest_recordable ts serial true time_db =
      special Nbegin earliest_recordable ts ++ time_db ++ sampled Nbegin earliest_recordable ts serial := by
  induction ts generalizing serial time_db with
  | nil => exact (List.append_nil _).symm
  | cons t ts ih =>
    rw [List.length_cons] at hserial
    have hnext : ∀ first db, build_loop Nbegin earliest_recordable ts (next_serial serial) first db =
        build_loop Nbegin earliest_recordable ts (serial + 1) first db := fun first db =>
      apply_next_serial (f := fun ts serial => build_loop Nbegin earliest_recordable ts serial first db)
        (fun _ _ => rfl) hserial
    rw [build_loop, sampled]
    simp only [hnext, ge_iff_le, true_and]
    by_cases ht : earliest_recordable ≤ t
    · have hbegin : Nbegin ≤ t := hstart.trans ht
      have hspecial : special Nbegin earliest_recordable (t :: ts) =
          if Nbegin < t then [⟨⟨CPPTRANSPORT_TIME_DATABASE_SPECIAL_SERIAL, Nbegin⟩, false⟩] else [] := by
        rw [special, List.find?_cons_of_pos (by simpa using ht)]
        simp
      rw [if_pos hbegin, if_pos ht, if_pos hbegin, hspecial, decide_eq_true ht]
      have hstep : ∀ db : time_config_database α, (∀ r ∈ db, r.record.serial < serial) →
          build_loop Nbegin earliest_recordable ts (serial + 1) false (add_record t true serial db) =
            db ++ ⟨⟨serial, t⟩, true⟩ :: sampled Nbegin earliest_recordable ts (serial + 1) := by
        intro db hdb
        rw [add_record_eq_append hdb, build_loop_eq_of_recorded (by omega) (forall_mem_append_record hdb),
          List.append_assoc, List.singleton_append]
      by_cases hlt : Nbegin < t
      · rw [if_pos hlt, if_pos hlt, add_record_eq_cons habove, hstep, List.singleton_append]
        rintro r (_ | ⟨_, hr⟩)
        · exact hpos
        · exact hbelow r hr
      · rw [if_neg hlt, if_neg hlt, hstep time_db hbelow, List.nil_append]
    · have hspecial : special Nbegin earliest_recordable (t :: ts) = special Nbegin earliest_recordable ts := by
        rw [special, special, List.find?_cons_of_neg (by simpa using ht)]
      rw [if_neg ht, hspecial, decide_eq_false ht]
      by_cases hbegin : Nbegin ≤ t
      · rw [if_pos hbegin, if_pos hbegin, add_record_eq_append hbelow,
          ih (by omega) (Nat.lt_succ_of_lt hpos) (forall_mem_append_record hbelow)]
        · simp
        · intro r hr
          rcases List.mem_append.mp hr with hr | hr
          · exact habove r hr
          · rw [List.mem_singleton.mp hr]
            exact hpos
      · rw [if_neg hbegin, if_neg hbegin,
          ih (by omega) (Nat.lt_succ_of_lt hpos) (fun r hr => Nat.lt_succ_of_lt (hbelow r hr)) habove]

/-! ### The databases of a task -/

theorem map_t_sampled (start : α) (ts : List α) (serial : ℕ) :
    (sampled start earliest_recordable ts serial).map (·.record.t) = ts.filter (start ≤ ·) := by
  induction ts generalizing serial with
  | nil => rfl
  | cons t ts ih =>
    rw [sampled]
    by_cases ht : start ≤ t
    · rw [if_pos ht, List.map_cons, ih, List.filter_cons_of_pos (by simpa using ht)]
    · rw [if_neg ht, ih, List.filter_cons_of_neg (by simpa using ht)]

/-- The stored records do not depend on where the mode begins. -/
theorem filter_store_sampled (hstart : Nbegin ≤ earliest_recordable) (ts : List α) (serial : ℕ) :
    (sampled Nbegin earliest_recordable ts serial).filter (·.store) =
      sampled earliest_recordable earliest_recordable ts serial := by
  induction ts generalizing serial with
  | nil => rfl
  | cons t ts ih =>
    rw [sampled, sampled]
    by_cases ht : earliest_recordable ≤ t
    · rw [if_pos (hstart.trans ht), if_pos ht, List.filter_cons_of_pos (by simpa using ht), ih]
    · rw [if_neg ht]
      split
      · rw [List.filter_cons_of_neg (by simpa using ht), ih]
      · exact ih _

/-- **The database of a mode matches the stored one**: the stored serial numbers and times are the same, the first
time is that where the mode begins, and the times increase. -/
structure Matches (Nbegin : α) (time_db stored_time_db : time_config_database α) : Prop where
  stored : (time_db.filter (·.store)).map (·.record) = (stored_time_db.filter (·.store)).map (·.record)
  first : (time_db.head?).map (·.record.t) = some Nbegin
  increasing : (time_db.map (·.record.t)).Pairwise (· < ·)

/-- The first recorded time is where the mode begins, if that is a sample time and recorded. -/
theorem find?_eq_some_of_mem {ts : List α} (hts : ts.Pairwise (· < ·)) (hmem : earliest_recordable ∈ ts) :
    ts.find? (earliest_recordable ≤ ·) = some earliest_recordable := by
  obtain ⟨before, after, rfl⟩ := List.append_of_mem hmem
  rw [List.find?_append, List.find?_eq_none.mpr]
  · simp
  · intro t ht
    have hlt := (List.pairwise_append.mp hts).2.2 t ht _ List.mem_cons_self
    simpa using hlt

theorem special_eq_nil {ts : List α} (hts : ts.Pairwise (· < ·)) (hmem : earliest_recordable ∈ ts) :
    special earliest_recordable earliest_recordable ts = [] := by
  rw [special, find?_eq_some_of_mem hts hmem]
  simp

/-- Any other initial time is put in front. -/
theorem special_eq_cons (hstart : Nbegin ≤ earliest_recordable) {ts : List α}
    (hrecorded : ∃ t ∈ ts, earliest_recordable ≤ t) (hne : Nbegin ∉ ts ∨ Nbegin ≠ earliest_recordable) :
    special Nbegin earliest_recordable ts = [⟨⟨CPPTRANSPORT_TIME_DATABASE_SPECIAL_SERIAL, Nbegin⟩, false⟩] := by
  obtain ⟨t, hfind⟩ : ∃ t, ts.find? (earliest_recordable ≤ ·) = some t := by
    rw [← Option.isSome_iff_exists, List.find?_isSome]
    simpa using hrecorded
  have hmem := List.mem_of_find?_eq_some hfind
  have hle : earliest_recordable ≤ t := by simpa using List.find?_some hfind
  have hlt : Nbegin < t := by
    refine lt_of_le_of_ne (hstart.trans hle) ?_
    rintro rfl
    rcases hne with hnot | hne
    · exact hnot hmem
    · exact hne (le_antisymm hstart hle)
  rw [special, hfind]
  exact if_pos (decide_eq_true hlt)

theorem matches_iff (hstart : Nbegin ≤ earliest_recordable) {ts : List α} (hts : ts.Pairwise (· < ·))
    (hrecorded : ∃ t ∈ ts, earliest_recordable ≤ t) (serial : ℕ) :
    Matches Nbegin (special Nbegin earliest_recordable ts ++ sampled Nbegin earliest_recordable ts serial)
        (sampled earliest_recordable earliest_recordable ts serial) ↔
      (Nbegin ∈ ts → Nbegin = earliest_recordable) := by
  have hincreasing : (ts.filter (Nbegin ≤ ·)).Pairwise (· < ·) := hts.filter _
  have hstored : ((sampled earliest_recordable earliest_recordable ts serial).filter (·.store)) =
      sampled earliest_recordable earliest_recordable ts serial := filter_store_sampled le_rfl ts serial
  by_cases heq : Nbegin ∈ ts ∧ Nbegin = earliest_recordable
  · obtain ⟨hmem, rfl⟩ := heq
    rw [special_eq_nil hts hmem, List.nil_append]
    refine iff_of_true ⟨rfl, ?_, ?_⟩ fun _ => rfl
    · rw [← List.head?_map, map_t_sampled, List.head?_filter, find?_eq_some_of_mem hts hmem]
    · rwa [map_t_sampled]
  · rw [special_eq_cons hstart hrecorded (not_and_or.mp heq), List.singleton_append]
    constructor
    · rintro ⟨-, -, h⟩ hmem
      -- the initial time would be there twice
      rw [List.map_cons, map_t_sampled, List.pairwise_cons] at h
      exact absurd (h.1 Nbegin (List.mem_filter.mpr ⟨hmem, decide_eq_true le_rfl⟩)) (lt_irrefl _)
    · intro h
      have hmem : Nbegin ∉ ts := fun hmem => heq ⟨hmem, h hmem⟩
      refine ⟨?_, rfl, ?_⟩
      · rw [List.filter_cons_of_neg Bool.false_ne_true, filter_store_sampled hstart, hstored]
      · rw [List.map_cons, map_t_sampled, List.pairwise_cons]
        refine ⟨fun t ht => ?_, hincreasing⟩
        obtain ⟨ht, hle⟩ := List.mem_filter.mp ht
        refine lt_of_le_of_ne (of_decide_eq_true hle) ?_
        rintro rfl
        exact hmem ht

/-- What both functions return, if some sample time is recorded. -/
theorem databases_eq [Sub α] (tk : twopf_db_task α κ) {k : κ}
    (hk : tk.get_earliest_recordable_time k = .ok earliest_recordable) (hstart : Nbegin ≤ earliest_recordable)
    (hrecorded : ∃ t ∈ tk.times.times, earliest_recordable ≤ t) :
    tk.build_time_config_database Nbegin k =
        .ok (special Nbegin earliest_recordable tk.times.times ++
          sampled Nbegin earliest_recordable tk.times.times CPPTRANSPORT_TIME_DATABASE_LOWEST_SERIAL) ∧
      tk.cache_stored_time_config_database k =
        .ok (sampled earliest_recordable earliest_recordable tk.times.times
          CPPTRANSPORT_TIME_DATABASE_LOWEST_SERIAL) := by
  have hserial : CPPTRANSPORT_TIME_DATABASE_LOWEST_SERIAL + tk.times.times.length ≤ 2 ^ 32 := by
    have hsize := tk.times.size_lt
    rw [CPPTRANSPORT_TIME_DATABASE_LOWEST_SERIAL]
    omega
  have hno : ∀ n : ℕ, ∀ r ∈ ([] : time_config_database α), r.record.serial < n := fun _ _ hr =>
    absurd hr List.not_mem_nil
  obtain ⟨t, ht, hrec⟩ := hrecorded
  have hne : ¬tk.times.times.length = 0 := (List.length_pos_of_mem ht).ne'
  have hloop : build_loop Nbegin earliest_recordable tk.times.times CPPTRANSPORT_TIME_DATABASE_LOWEST_SERIAL true [] =
      _ :=
    build_loop_eq hstart hserial (by decide) (hno _) fun _ hr => absurd hr List.not_mem_nil
  rw [List.append_nil] at hloop
  have hmem : t ∈ (sampled Nbegin earliest_recordable tk.times.times CPPTRANSPORT_TIME_DATABASE_LOWEST_SERIAL).map
      (·.record.t) := by
    rw [map_t_sampled]
    exact List.mem_filter.mpr ⟨ht, decide_eq_true (hstart.trans hrec)⟩
  have hpos := List.length_pos_of_mem hmem
  rw [List.length_map] at hpos
  constructor
  · simp only [twopf_db_task.build_time_config_database, hk, ok_bind, if_neg hne, hloop]
    refine if_pos ?_
    rw [List.length_append]
    omega
  · simp only [twopf_db_task.cache_stored_time_config_database, hk, ok_bind]
    rw [cache_loop_eq hserial (hno _)]
    rfl

/-- **The databases of times**: that of a mode matches the stored one exactly when the initial time of the mode is not
a sample time before the earliest that is recorded. -/
theorem times_match_iff [Sub α] (tk : twopf_db_task α κ) {k : κ}
    (hk : tk.get_earliest_recordable_time k = .ok earliest_recordable) (hstart : Nbegin ≤ earliest_recordable)
    (hrecorded : ∃ t ∈ tk.times.times, earliest_recordable ≤ t) :
    (∃ time_db stored_time_db, tk.build_time_config_database Nbegin k = .ok time_db ∧
        tk.cache_stored_time_config_database k = .ok stored_time_db ∧ Matches Nbegin time_db stored_time_db) ↔
      (Nbegin ∈ tk.times.times → Nbegin = earliest_recordable) := by
  obtain ⟨hbuild, hcache⟩ := databases_eq tk hk hstart hrecorded
  rw [← matches_iff hstart tk.times.increasing hrecorded CPPTRANSPORT_TIME_DATABASE_LOWEST_SERIAL, hbuild, hcache]
  constructor
  · rintro ⟨_, _, ⟨⟩, ⟨⟩, h⟩
    exact h
  · intro h
    exact ⟨_, _, rfl, rfl, h⟩

/-- Times 0 to 3, and modes that begin one before they become massless. -/
def adaptive_task : twopf_db_task ℤ ℕ :=
  { times := ⟨[0, 1, 2, 3], by decide, by decide⟩
    adaptive_ics := true
    adaptive_efolds := 1
    N_initial := 0
    find := fun k => if k = 1 then some ⟨3⟩ else none }

theorem times_match_between :
    ∃ time_db stored_time_db, adaptive_task.build_time_config_database (-1) 1 = .ok time_db ∧
      adaptive_task.cache_stored_time_config_database 1 = .ok stored_time_db ∧
      Matches (-1) time_db stored_time_db := by
  have hk : adaptive_task.get_earliest_recordable_time 1 = .ok 2 := rfl
  exact (times_match_iff adaptive_task hk (by decide) ⟨2, by decide, by decide⟩).mpr fun h => absurd h (by decide)

/-- A mode that begins at a sample time that is not recorded. -/
theorem initial_time_twice :
    ¬∀ (tk : twopf_db_task ℤ ℕ) (k : ℕ) (Nbegin earliest_recordable : ℤ),
      tk.get_earliest_recordable_time k = .ok earliest_recordable → Nbegin ≤ earliest_recordable →
      (∃ t ∈ tk.times.times, earliest_recordable ≤ t) →
      ∃ time_db stored_time_db, tk.build_time_config_database Nbegin k = .ok time_db ∧
        tk.cache_stored_time_config_database k = .ok stored_time_db ∧ Matches Nbegin time_db stored_time_db := by
  intro h
  obtain ⟨time_db, stored_time_db, hbuild, -, hmatches⟩ :=
    h adaptive_task 1 0 2 rfl (by decide) ⟨2, by decide, by decide⟩
  cases hbuild
  exact absurd hmatches.increasing (by decide)

end CppTransport.Runtime.TimeDatabases
