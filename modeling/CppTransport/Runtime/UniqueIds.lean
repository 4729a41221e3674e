import CppTransport.Library.WrappedRuns
import Mathlib.Data.UInt

/-!
# Unique identifiers of stored items

A row of a table with paged values has an identifier, which an item works out from its serial numbers and the page
of the row: rows of one item follow one another, items of one configuration follow one another in the order of their
times, and then come those of the next configuration. The table has a primary key for it.

## The model

An item is what its identifier depends on. Operands are unsigned numbers of 32 bits, and so are the intermediate
results; what is returned has 64. The times of a job have consecutive serial numbers.

## What is proved

`unique_keys_iff`: identifiers are distinct and increase with the serial numbers and the page, exactly when no multiple
of 2^32 falls inside the identifiers of a configuration, and those between two configurations are made up for by the
numbers that no row of the table has.
-/

namespace CppTransport.Runtime.UniqueIds

open Library

/-! ### Items -/

/-- What the items with paged values have in common. -/
structure paged_item where
  time_serial : UInt32
  kconfig_serial : UInt32
  /-- Number of time serial numbers in the job. -/
  time_items : UInt32

/-- Make unique identifier. -/
def paged_item.get_unique (item : paged_item) (page pages : UInt32) : UInt64 :=
  (item.kconfig_serial * item.time_items * pages + item.time_serial * pages + page).toUInt64

abbrev twopf_re_item := paged_item
abbrev twopf_im_item := paged_item
abbrev tensor_twopf_item := paged_item
abbrev threepf_momentum_item := paged_item
abbrev threepf_Nderiv_item := paged_item

theorem toNat_get_unique (item : paged_item) (page pages : UInt32) : (item.get_unique page pages).toNat =
    ((item.kconfig_serial.toNat * item.time_items.toNat + item.time_serial.toNat) * pages.toNat + page.toNat) %
      2 ^ 32 := by
  rw [paged_item.get_unique, UInt32.toNat_toUInt64, UInt32.toNat_add, UInt32.toNat_add, UInt32.toNat_mul,
    UInt32.toNat_mul, UInt32.toNat_mul, Nat.add_mul]
  simp only [Nat.mod_mul_mod, Nat.mod_add_mod, Nat.add_mod_mod]

/-! ### Rows of a table -/

structure Job where
  time_items : UInt32
  /-- Serial number of the first time. -/
  first : UInt32
  serials : first.toNat + time_items.toNat ≤ 2 ^ 32

/-- What tells the rows of a table apart. -/
structure Row where
  kconfig_serial : UInt32
  time_serial : UInt32
  page : UInt32
deriving DecidableEq

/-- The order of rows, by one after the other. -/
def Row.Before (a b : Row) : Prop :=
  a.kconfig_serial < b.kconfig_serial ∨ a.kconfig_serial = b.kconfig_serial ∧
    (a.time_serial < b.time_serial ∨ a.time_serial = b.time_serial ∧ a.page < b.page)

namespace Job

variable (job : Job) (pages : UInt32) (kserials : Set UInt32)

def unique_id (row : Row) : UInt64 :=
  paged_item.get_unique
    { time_serial := row.time_serial, kconfig_serial := row.kconfig_serial, time_items := job.time_items }
    row.page pages

/-- The rows of a table with some configurations. -/
structure InTable (row : Row) : Prop where
  kconfig_serial : row.kconfig_serial ∈ kserials
  first : job.first.toNat ≤ row.time_serial.toNat
  last : row.time_serial.toNat < job.first.toNat + job.time_items.toNat
  page : row.page < pages

structure UniqueKeys : Prop where
  distinct : ∀ a b, job.InTable pages kserials a → job.InTable pages kserials b → a ≠ b →
    job.unique_id pages a ≠ job.unique_id pages b
  increasing : ∀ a b, job.InTable pages kserials a → job.InTable pages kserials b → a.Before b →
    job.unique_id pages a < job.unique_id pages b

/-- How many rows a configuration has. -/
def rows : ℕ := job.time_items.toNat * pages.toNat

/-- The number that the rows of a configuration are counted from. -/
def start (kserial : UInt32) : ℕ := (kserial.toNat * job.time_items.toNat + job.first.toNat) * pages.toNat

/-- The place of a row among those of its configuration. -/
def place (row : Row) : ℕ := (row.time_serial.toNat - job.first.toNat) * pages.toNat + row.page.toNat

variable {job pages kserials} {a b : Row}

theorem toNat_unique_id (h : job.InTable pages kserials a) :
    (job.unique_id pages a).toNat = (job.start pages a.kconfig_serial + job.place pages a) % 2 ^ 32 := by
  have time : a.time_serial.toNat = job.first.toNat + (a.time_serial.toNat - job.first.toNat) :=
    (Nat.add_sub_cancel' h.first).symm
  rw [unique_id, toNat_get_unique, start, place]
  simp only
  conv_lhs => rw [time]
  rw [← Nat.add_assoc, Nat.add_mul, Nat.add_assoc]

theorem place_lt (h : job.InTable pages kserials a) : job.place pages a < job.rows pages := by
  have page := UInt32.lt_iff_toNat_lt.mp h.page
  have time : a.time_serial.toNat - job.first.toNat + 1 ≤ job.time_items.toNat := by
    have := h.first
    have := h.last
    omega
  have step := Nat.mul_le_mul_right pages.toNat time
  rw [Nat.add_mul, Nat.one_mul] at step
  rw [place, rows]
  omega

/-- Of one configuration, the earlier row is in front. -/
theorem place_lt_iff (ha : job.InTable pages kserials a) (hb : job.InTable pages kserials b) :
    job.place pages a < job.place pages b ↔
      a.time_serial < b.time_serial ∨ a.time_serial = b.time_serial ∧ a.page < b.page := by
  have page := UInt32.lt_iff_toNat_lt.mp ha.page
  have page' := UInt32.lt_iff_toNat_lt.mp hb.page
  have first := ha.first
  have first' := hb.first
  rw [UInt32.lt_iff_toNat_lt, UInt32.lt_iff_toNat_lt, ← UInt32.toNat_inj, place, place]
  rcases Nat.lt_trichotomy a.time_serial.toNat b.time_serial.toNat with hlt | heq | hgt
  · have step := Nat.mul_le_mul_right pages.toNat
      (show a.time_serial.toNat - job.first.toNat + 1 ≤ b.time_serial.toNat - job.first.toNat by omega)
    rw [Nat.add_mul, Nat.one_mul] at step
    exact iff_of_true (by omega) (.inl hlt)
  · rw [heq]
    omega
  · have step := Nat.mul_le_mul_right pages.toNat
      (show b.time_serial.toNat - job.first.toNat + 1 ≤ a.time_serial.toNat - job.first.toNat by omega)
    rw [Nat.add_mul, Nat.one_mul] at step
    exact iff_of_false (by omega) (by omega)

/-- Each place is that of a row. -/
theorem exists_row {k : UInt32} (hk : k ∈ kserials) {o : ℕ} (ho : o < job.rows pages) :
    ∃ row, job.InTable pages kserials row ∧ row.kconfig_serial = k ∧ job.place pages row = o := by
  have pos : 0 < pages.toNat := Nat.pos_of_ne_zero fun zero => by
    rw [rows, zero, Nat.mul_zero] at ho
    exact absurd ho (Nat.not_lt_zero _)
  have time : o / pages.toNat < job.time_items.toNat := Nat.div_lt_of_lt_mul (by rwa [rows, Nat.mul_comm] at ho)
  have page := Nat.mod_lt o pos
  have serials := job.serials
  have bound := pages.toNat_lt
  have time_toNat : (UInt32.ofNat (job.first.toNat + o / pages.toNat)).toNat = job.first.toNat + o / pages.toNat :=
    UInt32.toNat_ofNat_of_lt' (by rw [UInt32.size]; omega)
  have page_toNat : (UInt32.ofNat (o % pages.toNat)).toNat = o % pages.toNat :=
    UInt32.toNat_ofNat_of_lt' (by rw [UInt32.size]; omega)
  refine ⟨⟨k, .ofNat (job.first.toNat + o / pages.toNat), .ofNat (o % pages.toNat)⟩, ⟨hk, ?_, ?_, ?_⟩, rfl, ?_⟩
  · rw [time_toNat]
    exact Nat.le_add_right _ _
  · rw [time_toNat]
    omega
  · rw [UInt32.lt_iff_toNat_lt, page_toNat]
    exact page
  · rw [place, time_toNat, page_toNat, Nat.add_sub_cancel_left, Nat.div_add_mod']

theorem apart : WrappedRuns.Apart (job.rows pages) (job.start pages) kserials := by
  intro k _ k' _ hlt
  have step := Nat.mul_le_mul_right job.time_items.toNat (Nat.succ_le_of_lt (UInt32.lt_iff_toNat_lt.mp hlt))
  rw [Nat.succ_mul] at step
  rw [start, start, rows, ← Nat.add_mul]
  exact Nat.mul_le_mul_right _ (by omega)

/-- The identifiers increase just if the numbers of the runs do. -/
theorem increasing_iff :
    (∀ a b, job.InTable pages kserials a → job.InTable pages kserials b → a.Before b →
      job.unique_id pages a < job.unique_id pages b) ↔
    WrappedRuns.Increasing (2 ^ 32) (job.rows pages) (job.start pages) kserials := by
  constructor
  · intro h k hk k' hk' o ho o' ho' before
    obtain ⟨a, ha, rfl, rfl⟩ := exists_row hk ho
    obtain ⟨b, hb, rfl, rfl⟩ := exists_row hk' ho'
    have step := h a b ha hb (before.imp_right fun ⟨same, hlt⟩ => ⟨same, (place_lt_iff ha hb).mp hlt⟩)
    rwa [UInt64.lt_iff_toNat_lt, toNat_unique_id ha, toNat_unique_id hb] at step
  · intro h a b ha hb before
    rw [UInt64.lt_iff_toNat_lt, toNat_unique_id ha, toNat_unique_id hb]
    exact h _ ha.kconfig_serial _ hb.kconfig_serial _ (place_lt ha) _ (place_lt hb)
      (before.imp_right fun ⟨same, hlt⟩ => ⟨same, (place_lt_iff ha hb).mpr hlt⟩)

/-- Different rows are in order one way or the other. -/
theorem before_or_before (ne : a ≠ b) : a.Before b ∨ b.Before a := by
  obtain ⟨k, t, p⟩ := a
  obtain ⟨k', t', p'⟩ := b
  simp only [Row.Before, UInt32.lt_iff_toNat_lt, ← UInt32.toNat_inj]
  by_contra same
  refine ne ?_
  congr <;> (rw [← UInt32.toNat_inj]; omega)

theorem uniqueKeys_iff_increasing : job.UniqueKeys pages kserials ↔
    WrappedRuns.Increasing (2 ^ 32) (job.rows pages) (job.start pages) kserials := by
  refine ⟨fun h => increasing_iff.mp h.increasing, fun h => ?_⟩
  have increasing := increasing_iff.mpr h
  refine ⟨fun a b ha hb ne => ?_, increasing⟩
  rcases before_or_before ne with before | before
  · exact UInt64.ne_of_lt (increasing a b ha hb before)
  · exact (UInt64.ne_of_lt (increasing b a hb ha before)).symm

/-- Without a wrap the keys are as they should be. -/
theorem uniqueKeys_of_le (h : ∀ k ∈ kserials,
    (k.toNat * job.time_items.toNat + job.first.toNat + job.time_items.toNat) * pages.toNat ≤ 2 ^ 32) :
    job.UniqueKeys pages kserials := by
  rw [uniqueKeys_iff_increasing]
  refine WrappedRuns.increasing_of_le (fun k hk => ?_) apart
  rw [start, rows, ← Nat.add_mul]
  exact h k hk

/-- **Primary keys**: they are distinct and in order just if the identifiers of each configuration are not wrapped,
and those between two configurations that no row has make up for the wraps between them. -/
theorem unique_keys_iff (job : Job) (pages : UInt32) (kserials : Set UInt32) :
    job.UniqueKeys pages kserials ↔
      WrappedRuns.Fits (2 ^ 32) (job.rows pages) (job.start pages) kserials := by
  rw [uniqueKeys_iff_increasing]
  rcases Nat.eq_zero_or_pos (job.rows pages) with none | some
  · -- there is nothing to identify
    refine iff_of_true (fun k _ k' _ o ho => ?_) ⟨fun k _ => ?_, fun k _ k' _ _ => ?_⟩
    · rw [none] at ho
      exact absurd ho (Nat.not_lt_zero _)
    · rw [none, Nat.add_zero]
      exact (Nat.mod_lt _ (by decide)).le
    · have same : job.start pages k' = job.start pages k := by
        rw [rows, Nat.mul_eq_zero] at none
        rcases none with none | none <;> rw [start, start, none, Nat.mul_zero, Nat.mul_zero]
      rw [same, Nat.sub_self, Nat.zero_mul]
      exact Nat.zero_le _
  · exact WrappedRuns.increasing_iff (by decide) some apart

end Job

/-- 500 times, and tables of nine pages. -/
def long_job : Job where
  time_items := 500
  first := 1
  serials := by decide

/-- The first row of all, and one of configuration 954437, have the same key. -/
theorem long_job_collision : ¬ long_job.UniqueKeys 9 {0, 954437} := by
  intro h
  refine h.distinct ⟨0, 1, 0⟩ ⟨954437, 89, 4⟩ ?_ ?_ (by decide) (by decide)
  · exact ⟨.inl rfl, by decide, by decide, by decide⟩
  · exact ⟨.inr rfl, by decide, by decide, by decide⟩

end CppTransport.Runtime.UniqueIds
