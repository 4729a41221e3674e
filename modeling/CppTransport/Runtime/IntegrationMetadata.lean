import CppTransport.Library.Exceptions
import Mathlib.Algebra.Ring.Nat
import Mathlib.Data.Finset.Card
import Mathlib.Data.List.Induction
import Mathlib.Tactic.Push

/-!
# The metadata of an integration

A batcher adds up what happens to the work items of an assignment, and keeps the longest and the shortest times. At
the end of the assignment a worker reports these numbers, and the master adds up the reports. Zero stands for an
extreme that is not known yet, in both places.

## The model

Times are natural numbers of nanoseconds, and their sums are signed numbers of 64 bits, which wrap around. The counts
are unsigned numbers of 32 bits. An assignment is what happens in it, one event after the other, and no work item
fails twice. The reports are listed as they reach the master, whichever workers send them; wallclock times, load
averages, statistics of single configurations and flushing are left out.

## What is proved

`accurate_iff`: the metadata are accurate exactly when the sums fit and both shortest times are kept. A report without
a success, and a success that takes no time, make the master forget the shortest time so far.
-/

namespace CppTransport.Runtime.IntegrationMetadata

open Library

def CPPTRANSPORT_FAILED_SERIALS_MISMATCH : String := 
  "Internal error: list of failed serial numbers and reported failures do not agree"

/-! ### Numbers -/

/-- An `unsigned int`. -/
def unsigned (n : ℕ) : ℕ := n % 2 ^ 32

/-- A sum that is a `nanosecond_type`. -/
def nanosecond (t : ℤ) : ℤ := t.bmod (2 ^ 64)

/-- `if(longest == 0 || time > longest) longest = time` -/
def longest (m time : ℕ) : ℕ := if m = 0 ∨ time > m then time else m

/-- `if(shortest == 0 || time < shortest) shortest = time` -/
def shortest (m time : ℕ) : ℕ := if m = 0 ∨ time < m then time else m

/-! ### The batcher -/

structure integration_batcher where
  num_integrations : ℕ
  integration_time : ℤ
  max_integration_time : ℕ
  min_integration_time : ℕ
  batching_time : ℤ
  max_batching_time : ℕ
  min_batching_time : ℕ
  failures : ℕ
  refinements : ℕ
  failed_serials : Finset ℕ

namespace integration_batcher

def begin_assignment : integration_batcher := ⟨0, 0, 0, 0, 0, 0, 0, 0, 0, ∅⟩

variable (b : integration_batcher)

def report_integration_success (integration batching : ℕ) : integration_batcher :=
  { b with
    integration_time := nanosecond (b.integration_time + integration)
    batching_time := nanosecond (b.batching_time + batching)
    num_integrations := unsigned (b.num_integrations + 1)
    max_integration_time := longest b.max_integration_time integration
    min_integration_time := shortest b.min_integration_time integration
    max_batching_time := longest b.max_batching_time batching
    min_batching_time := shortest b.min_batching_time batching }

def report_integration_failure (kserial : ℕ) : integration_batcher :=
  { b with
    failed_serials := insert kserial b.failed_serials
    failures := unsigned (b.failures + 1) }

def report_refinement : integration_batcher := { b with refinements := unsigned (b.refinements + 1) }

end integration_batcher

/-- What the integration of a work item tells the batcher. -/
inductive Event where
  | success (integration batching : ℕ)
  | failure (kserial : ℕ)
  | refinement
deriving DecidableEq, Repr

namespace Event

def integration : Event → Option ℕ
  | success integration _ => some integration
  | _ => none

def batching : Event → Option ℕ
  | success _ batching => some batching
  | _ => none

def kserial : Event → Option ℕ
  | failure kserial => some kserial
  | _ => none

def handle (b : integration_batcher) : Event → integration_batcher
  | success integration batching => b.report_integration_success integration batching
  | failure kserial => b.report_integration_failure kserial
  | refinement => b.report_refinement

end Event

/-- An assignment of work: what happens in it. -/
structure Assignment where
  events : List Event
  /-- A work item that fails is not tried again. -/
  once : (events.filterMap Event.kserial).Nodup

def Assignment.batcher (a : Assignment) : integration_batcher := a.events.foldl Event.handle .begin_assignment

/-! ### Reports -/

structure finished_integration_payload where
  integration_time : ℤ
  max_integration_time : ℕ
  min_integration_time : ℕ
  batching_time : ℤ
  max_batching_time : ℕ
  min_batching_time : ℕ
  num_success : ℕ
  num_refinements : ℕ
  num_failures : ℕ
  failed_serials : Finset ℕ

/-- The value constructor, from what the batcher has when the assignment ends. -/
def finished_integration_payload.create (b : integration_batcher) : Except String finished_integration_payload :=
  if b.failed_serials ≠ ∅ ∧ b.failed_serials.card ≠ b.failures then .error CPPTRANSPORT_FAILED_SERIALS_MISMATCH
  else .ok
    { integration_time := b.integration_time
      max_integration_time := b.max_integration_time
      min_integration_time := b.min_integration_time
      batching_time := b.batching_time
      max_batching_time := b.max_batching_time
      min_batching_time := b.min_batching_time
      num_success := b.num_integrations
      num_refinements := b.refinements
      num_failures := b.failures
      failed_serials := b.failed_serials }

structure integration_metadata where
  total_integration_time : ℤ
  global_min_integration_time : ℕ
  global_max_integration_time : ℕ
  total_batching_time : ℤ
  global_min_batching_time : ℕ
  global_max_batching_time : ℕ
  total_configurations : ℕ
  total_failures : ℕ
  total_refinements : ℕ

/-- The null constructor. -/
def integration_metadata.create : integration_metadata := ⟨0, 0, 0, 0, 0, 0, 0, 0, 0⟩

def update_integration_metadata (payload : finished_integration_payload) (metadata : integration_metadata) :
    integration_metadata :=
  { total_integration_time := nanosecond (metadata.total_integration_time + payload.integration_time)
    global_max_integration_time := longest metadata.global_max_integration_time payload.max_integration_time
    global_min_integration_time := shortest metadata.global_min_integration_time payload.min_integration_time
    total_batching_time := nanosecond (metadata.total_batching_time + payload.batching_time)
    global_max_batching_time := longest metadata.global_max_batching_time payload.max_batching_time
    global_min_batching_time := shortest metadata.global_min_batching_time payload.min_batching_time
    total_configurations := unsigned (metadata.total_configurations + payload.num_success)
    total_failures := unsigned (metadata.total_failures + payload.num_failures)
    total_refinements := unsigned (metadata.total_refinements + payload.num_refinements) }

/-- The metadata when the reports of these assignments have reached the master, in this order. -/
def collect (assignments : List Assignment) : Except String integration_metadata :=
  assignments.foldlM
    (fun metadata a => return update_integration_metadata (← finished_integration_payload.create a.batcher) metadata)
    .create

/-! ### Extremes with zero for none -/

theorem longest_eq_max (m time : ℕ) : longest m time = max m time := by
  rw [longest]
  split <;> omega

@[simp] theorem shortest_zero_left (time : ℕ) : shortest 0 time = time := if_pos (.inl rfl)

/-- A time of zero makes the shortest time unknown. -/
@[simp] theorem shortest_zero_right (m : ℕ) : shortest m 0 = 0 := by
  rw [shortest]
  split <;> omega

theorem shortest_eq_zero {m time : ℕ} : shortest m time = 0 ↔ time = 0 := by
  rw [shortest]
  split <;> omega

theorem shortest_of_ne_zero {m : ℕ} (hm : m ≠ 0) (time : ℕ) : shortest m time = min m time := by
  rw [shortest]
  split <;> omega

theorem foldl_longest (l : List ℕ) : l.foldl longest 0 = l.max?.getD 0 := by
  rw [show longest = max from funext₂ longest_eq_max]
  cases l with
  | nil => rfl
  | cons time l => rw [List.foldl_cons, Nat.zero_max, List.max?_cons', Option.getD_some]

theorem longest_foldl (m : ℕ) (l : List ℕ) : longest m (l.foldl longest 0) = l.foldl longest m := by
  rw [show longest = max from funext₂ longest_eq_max]
  have hassoc : l.foldl max (max m 0) = max m (l.foldl max 0) := List.foldl_assoc
  rw [← hassoc, Nat.max_zero]

/-- Without a time of zero the shortest time is right. -/
theorem foldl_shortest {l : List ℕ} (hl : 0 ∉ l) : l.foldl shortest 0 = l.min?.getD 0 := by
  cases l with
  | nil => rfl
  | cons time l =>
    rw [List.foldl_cons, shortest_zero_left, List.min?_cons', Option.getD_some]
    rw [List.mem_cons, not_or] at hl
    obtain ⟨htime, hl⟩ := hl
    induction l generalizing time with
    | nil => rfl
    | cons time' l ih =>
      rw [List.mem_cons, not_or] at hl
      have hne : min time time' ≠ 0 := by omega
      rw [List.foldl_cons, List.foldl_cons, shortest_of_ne_zero (Ne.symm htime), ih _ (Ne.symm hne) hl.2]

/-- What comes before a time of zero is forgotten. -/
theorem foldl_shortest_append_zero (m : ℕ) (before after : List ℕ) :
    (before ++ 0 :: after).foldl shortest m = after.foldl shortest 0 := by
  rw [List.foldl_append, List.foldl_cons, shortest_zero_right]

theorem foldl_shortest_eq_zero {l : List ℕ} : l.foldl shortest 0 = 0 ↔ ∀ time, l.getLast? = some time → time = 0 := by
  induction l using List.reverseRecOn with
  | nil => simp
  | append_singleton l time => simp [shortest_eq_zero]

theorem foldl_shortest_mem (l : List ℕ) : l.foldl shortest 0 = 0 ∨ l.foldl shortest 0 ∈ l := by
  induction l using List.reverseRecOn with
  | nil => exact .inl rfl
  | append_singleton l time ih =>
    rw [List.foldl_append, List.foldl_cons, List.foldl_nil, shortest]
    split
    · exact .inr (List.mem_append_right _ (List.mem_singleton_self _))
    · exact ih.imp_right (List.mem_append_left _)

/-! ### The shortest time of several reports -/

/-- **When the shortest time is kept**, for the times of the successes that the reports count: if some time is zero
then the last report has no success or its last time is zero, and otherwise a report without a success is followed by
one with the shortest time. -/
def Kept (lists : List (List ℕ)) : Prop :=
  (0 ∈ lists.flatten → ∀ last, lists.getLast? = some last → ∀ time, last.getLast? = some time → time = 0) ∧
    (0 ∉ lists.flatten → ∀ before after, lists = before ++ [] :: after →
      ∀ time, lists.flatten.min? = some time → time ∈ after.flatten)

theorem min?_eq_some_zero {l : List ℕ} : l.min? = some 0 ↔ 0 ∈ l := by
  rw [List.min?_eq_some_iff]
  exact ⟨fun h => h.1, fun h => ⟨h, fun _ _ => Nat.zero_le _⟩⟩

theorem exists_last_mem {β : Type} [DecidableEq β] {b : β} {l : List β} (h : b ∈ l) :
    ∃ before after, l = before ++ b :: after ∧ b ∉ after := by
  obtain ⟨before, after, hl, hb⟩ := List.eq_append_cons_of_mem (List.mem_reverse.mpr h)
  refine ⟨after.reverse, before.reverse, ?_, fun hmem => hb (List.mem_reverse.mp hmem)⟩
  rw [← List.reverse_reverse l, hl]
  simp

/-- The shortest time that a report with a success and without a time of zero has. -/
theorem foldl_shortest_spec {l : List ℕ} (hne : l ≠ []) (hzero : 0 ∉ l) :
    l.foldl shortest 0 ∈ l ∧ ∀ time ∈ l, l.foldl shortest 0 ≤ time := by
  obtain ⟨least, hleast⟩ : ∃ least, l.min? = some least :=
    Option.ne_none_iff_exists'.mp (mt List.min?_eq_none_iff.mp hne)
  rw [foldl_shortest hzero, hleast, Option.getD_some]
  exact List.min?_eq_some_iff.mp hleast

/-- Reports that all have a success, and no time of zero. -/
theorem foldl_shortest_map {lists : List (List ℕ)} (hne : [] ∉ lists) (hzero : 0 ∉ lists.flatten) :
    (lists.map (·.foldl shortest 0)).foldl shortest 0 = lists.flatten.min?.getD 0 := by
  have hspec : ∀ l ∈ lists, l.foldl shortest 0 ∈ l ∧ ∀ time ∈ l, l.foldl shortest 0 ≤ time := fun l hl =>
    foldl_shortest_spec (fun h => hne (h ▸ hl)) fun hmem => hzero (List.mem_flatten_of_mem hl hmem)
  have hreports : 0 ∉ lists.map (·.foldl shortest 0) := by
    rintro hmem
    obtain ⟨l, hl, heq⟩ := List.mem_map.mp hmem
    exact hzero (List.mem_flatten_of_mem hl (heq ▸ (hspec l hl).1))
  rw [foldl_shortest hreports]
  rcases hmin : lists.flatten.min? with _ | least
  · cases lists with
    | nil => rfl
    | cons l lists =>
      rw [List.min?_eq_none_iff, List.flatten_cons, List.append_eq_nil_iff] at hmin
      exact absurd (hmin.1 ▸ List.mem_cons_self) hne
  · obtain ⟨hmem, hle⟩ := List.min?_eq_some_iff.mp hmin
    obtain ⟨l, hl, hleast⟩ := List.mem_flatten.mp hmem
    have heq : l.foldl shortest 0 = least :=
      le_antisymm ((hspec l hl).2 least hleast) (hle _ (List.mem_flatten_of_mem hl (hspec l hl).1))
    have hreport : (lists.map (·.foldl shortest 0)).min? = some least := by
      refine List.min?_eq_some_iff.mpr ⟨List.mem_map.mpr ⟨l, hl, heq⟩, ?_⟩
      intro time htime
      obtain ⟨l', hl', rfl⟩ := List.mem_map.mp htime
      exact hle _ (List.mem_flatten_of_mem hl' (hspec l' hl').1)
    rw [hreport]

/-- A report without a success makes the master forget. -/
theorem foldl_shortest_map_append (before after : List (List ℕ)) :
    ((before ++ [] :: after).map (·.foldl shortest 0)).foldl shortest 0 =
      (after.map (·.foldl shortest 0)).foldl shortest 0 := by
  rw [List.map_append, List.map_cons, List.foldl_nil, foldl_shortest_append_zero]

/-- **The shortest time of the reports is right exactly when it is kept**. -/
theorem foldl_shortest_map_iff (lists : List (List ℕ)) :
    (∀ time, lists.flatten.min? = some time → (lists.map (·.foldl shortest 0)).foldl shortest 0 = time) ↔
      Kept lists := by
  by_cases hzero : 0 ∈ lists.flatten
  · have hlast : (lists.map (·.foldl shortest 0)).foldl shortest 0 = 0 ↔
        ∀ last, lists.getLast? = some last → ∀ time, last.getLast? = some time → time = 0 := by
      rw [foldl_shortest_eq_zero, List.getLast?_map]
      constructor
      · intro h last hlast
        exact foldl_shortest_eq_zero.mp (h _ (Option.map_eq_some_iff.mpr ⟨last, hlast, rfl⟩))
      · intro h time htime
        obtain ⟨last, hlast, rfl⟩ := Option.map_eq_some_iff.mp htime
        exact foldl_shortest_eq_zero.mpr (h last hlast)
    rw [Kept, min?_eq_some_zero.mpr hzero]
    constructor
    · intro h
      exact ⟨fun _ => hlast.mp (h 0 rfl), fun hno => absurd hzero hno⟩
    · intro h time htime
      rw [← Option.some.inj htime]
      exact hlast.mpr (h.1 hzero)
  · constructor
    · intro h
      refine ⟨fun hmem => absurd hmem hzero, ?_⟩
      rintro - before after rfl time htime
      have hmem := (List.min?_eq_some_iff.mp htime).1
      have hfold := h time htime
      rw [foldl_shortest_map_append] at hfold
      rcases foldl_shortest_mem (after.map (·.foldl shortest 0)) with hforgot | hreport
      · rw [hforgot] at hfold
        exact absurd (hfold ▸ hmem) hzero
      · rw [hfold] at hreport
        obtain ⟨l, hl, heq⟩ := List.mem_map.mp hreport
        rcases foldl_shortest_mem l with hempty | htime'
        · rw [← heq, hempty] at hmem
          exact absurd hmem hzero
        · exact List.mem_flatten_of_mem hl (heq ▸ htime')
    · rintro ⟨-, h⟩ time htime
      by_cases hempty : [] ∈ lists
      · obtain ⟨before, after, rfl, hafter⟩ := exists_last_mem hempty
        have hmem := h hzero before after rfl time htime
        have hsub : ∀ time' ∈ after.flatten, time' ∈ (before ++ [] :: after).flatten := fun time' htime' => by
          simp [htime']
        have hmin : after.flatten.min? = some time :=
          List.min?_eq_some_iff.mpr ⟨hmem, fun time' htime' =>
            (List.min?_eq_some_iff.mp htime).2 time' (hsub time' htime')⟩
        rw [foldl_shortest_map_append, foldl_shortest_map hafter fun hmem' => hzero (hsub 0 hmem'), hmin]
        rfl
      · rw [foldl_shortest_map hempty hzero, htime]
        rfl

/-! ### Sums that wrap around -/

@[simp] theorem unsigned_zero : unsigned 0 = 0 := rfl

@[simp] theorem nanosecond_zero : nanosecond 0 = 0 := rfl

theorem unsigned_add (m n : ℕ) : unsigned (unsigned m + unsigned n) = unsigned (m + n) := (Nat.add_mod ..).symm

theorem unsigned_succ (n : ℕ) : unsigned (unsigned n + 1) = unsigned (n + 1) := Nat.mod_add_mod ..

theorem nanosecond_add (s t : ℤ) : nanosecond (nanosecond s + nanosecond t) = nanosecond (s + t) :=
  (Int.add_bmod ..).symm

theorem nanosecond_add_left (s t : ℤ) : nanosecond (nanosecond s + t) = nanosecond (s + t) := Int.bmod_add_bmod

theorem unsigned_eq_iff {n : ℕ} : unsigned n = n ↔ n < 2 ^ 32 := by
  rw [unsigned, Nat.mod_eq_iff_lt (by decide)]

theorem nanosecond_eq_iff {n : ℕ} : nanosecond n = n ↔ n < 2 ^ 63 := by
  rw [nanosecond]
  constructor
  · intro h
    have hlt := Int.bmod_lt (x := n) (m := 2 ^ 64) (by decide)
    rw [h] at hlt
    exact_mod_cast hlt
  · intro h
    apply Int.bmod_eq_of_le <;> omega

/-! ### The batcher at the end of an assignment -/

namespace Assignment

variable (a : Assignment)

/-- The times of the integrations that succeed. -/
def integration_times : List ℕ := a.events.filterMap Event.integration

def batching_times : List ℕ := a.events.filterMap Event.batching

def failed : List ℕ := a.events.filterMap Event.kserial

def refined : ℕ := a.events.count .refinement

theorem batcher_eq : a.batcher =
    { num_integrations := unsigned a.integration_times.length
      integration_time := nanosecond a.integration_times.sum
      max_integration_time := a.integration_times.foldl longest 0
      min_integration_time := a.integration_times.foldl shortest 0
      batching_time := nanosecond a.batching_times.sum
      max_batching_time := a.batching_times.foldl longest 0
      min_batching_time := a.batching_times.foldl shortest 0
      failures := unsigned a.failed.length
      refinements := unsigned a.refined
      failed_serials := a.failed.toFinset } := by
  rw [batcher, integration_times, batching_times, failed, refined]
  generalize a.events = events
  induction events using List.reverseRecOn with
  | nil => rfl
  | append_singleton events e ih =>
    rw [List.foldl_append, ih]
    cases e with
    | success integration batching =>
      simp [Event.handle, Event.integration, Event.batching, Event.kserial, List.filterMap_cons,
        integration_batcher.report_integration_success, unsigned_succ, nanosecond_add_left]
    | failure kserial =>
      simp [Event.handle, Event.integration, Event.batching, Event.kserial, List.filterMap_cons,
        integration_batcher.report_integration_failure, unsigned_succ]
    | refinement =>
      simp [Event.handle, Event.integration, Event.batching, Event.kserial, List.filterMap_cons,
        integration_batcher.report_refinement, unsigned_succ]

/-- The report is made, unless the number of failures does not fit. -/
theorem create_batcher_eq_ok {payload : finished_integration_payload} :
    finished_integration_payload.create a.batcher = .ok payload ↔
      (a.failed = [] ∨ a.failed.length < 2 ^ 32) ∧ payload =
        { integration_time := nanosecond a.integration_times.sum
          max_integration_time := a.integration_times.foldl longest 0
          min_integration_time := a.integration_times.foldl shortest 0
          batching_time := nanosecond a.batching_times.sum
          max_batching_time := a.batching_times.foldl longest 0
          min_batching_time := a.batching_times.foldl shortest 0
          num_success := unsigned a.integration_times.length
          num_refinements := unsigned a.refined
          num_failures := unsigned a.failed.length
          failed_serials := a.failed.toFinset } := by
  have hcard : a.failed.toFinset.card = a.failed.length := List.toFinset_card_of_nodup a.once
  have hfits : unsigned a.failed.length = a.failed.length ↔ a.failed.length < 2 ^ 32 := unsigned_eq_iff
  rw [finished_integration_payload.create, batcher_eq]
  simp only [ne_eq, List.toFinset_eq_empty_iff, hcard]
  split
  · rename_i h
    rw [← hfits]
    constructor
    · intro heq
      cases heq
    · rintro ⟨hempty | hlength, -⟩
      · exact absurd hempty h.1
      · exact absurd hlength.symm h.2
  · rename_i h
    rw [not_and_or, not_not, not_not, @eq_comm _ a.failed.length, hfits] at h
    simp only [h, true_and, Except.ok.injEq]
    exact eq_comm

end Assignment

/-! ### The metadata -/

/-- What all assignments have, in the order of the reports. -/
def gather (f : Assignment → List ℕ) (assignments : List Assignment) : List ℕ := (assignments.map f).flatten

theorem gather_append_singleton (f : Assignment → List ℕ) (assignments : List Assignment) (a : Assignment) :
    gather f (assignments ++ [a]) = gather f assignments ++ f a := by
  simp [gather]

/-- The sums and the extremes of the master: exactly when the failures of every assignment fit. -/
theorem collect_eq_ok {assignments : List Assignment} {m : integration_metadata} :
    collect assignments = .ok m ↔
      (∀ a ∈ assignments, a.failed = [] ∨ a.failed.length < 2 ^ 32) ∧ m =
        { total_integration_time := nanosecond (gather Assignment.integration_times assignments).sum
          global_min_integration_time := (assignments.map (·.integration_times.foldl shortest 0)).foldl shortest 0
          global_max_integration_time := (gather Assignment.integration_times assignments).foldl longest 0
          total_batching_time := nanosecond (gather Assignment.batching_times assignments).sum
          global_min_batching_time := (assignments.map (·.batching_times.foldl shortest 0)).foldl shortest 0
          global_max_batching_time := (gather Assignment.batching_times assignments).foldl longest 0
          total_configurations := unsigned (gather Assignment.integration_times assignments).length
          total_failures := unsigned (gather Assignment.failed assignments).length
          total_refinements := unsigned (assignments.map (·.refined)).sum } := by
  rw [collect]
  induction assignments using List.reverseRecOn generalizing m with
  | nil => simp [pure_eq_ok, integration_metadata.create, gather]
  | append_singleton assignments a ih =>
    rw [List.foldlM_append]
    simp only [bind_eq_ok, ih, List.foldlM_cons, List.foldlM_nil, Assignment.create_batcher_eq_ok, pure_eq_ok,
      List.forall_mem_append, List.forall_mem_singleton]
    constructor
    · rintro ⟨metadata, ⟨hfits, rfl⟩, rest, ⟨payload, ⟨hfit, rfl⟩, rfl⟩, rfl⟩
      refine ⟨⟨hfits, hfit⟩, ?_⟩
      simp [update_integration_metadata, gather_append_singleton, unsigned_add, nanosecond_add, longest_foldl]
    · rintro ⟨⟨hfits, hfit⟩, rfl⟩
      refine ⟨_, ⟨hfits, rfl⟩, _, ⟨_, ⟨hfit, rfl⟩, rfl⟩, ?_⟩
      simp [update_integration_metadata, gather_append_singleton, unsigned_add, nanosecond_add, longest_foldl]

/-- **The metadata are accurate**: true sums, and true extremes over the integrations that succeed. -/
structure Accurate (assignments : List Assignment) (m : integration_metadata) : Prop where
  integration_total : m.total_integration_time = (gather Assignment.integration_times assignments).sum
  integration_longest :
    ∀ time, (gather Assignment.integration_times assignments).max? = some time → m.global_max_integration_time = time
  integration_shortest :
    ∀ time, (gather Assignment.integration_times assignments).min? = some time → m.global_min_integration_time = time
  batching_total : m.total_batching_time = (gather Assignment.batching_times assignments).sum
  batching_longest :
    ∀ time, (gather Assignment.batching_times assignments).max? = some time → m.global_max_batching_time = time
  batching_shortest :
    ∀ time, (gather Assignment.batching_times assignments).min? = some time → m.global_min_batching_time = time
  configurations : m.total_configurations = (gather Assignment.integration_times assignments).length
  failures : m.total_failures = (gather Assignment.failed assignments).length
  refinements : m.total_refinements = (assignments.map (·.refined)).sum

/-- The true sums fit into their types. -/
structure Fits (assignments : List Assignment) : Prop where
  integration : (gather Assignment.integration_times assignments).sum < 2 ^ 63
  batching : (gather Assignment.batching_times assignments).sum < 2 ^ 63
  configurations : (gather Assignment.integration_times assignments).length < 2 ^ 32
  failures : (gather Assignment.failed assignments).length < 2 ^ 32
  refinements : (assignments.map (·.refined)).sum < 2 ^ 32

theorem length_le_gather {f : Assignment → List ℕ} {assignments : List Assignment} {a : Assignment}
    (ha : a ∈ assignments) : (f a).length ≤ (gather f assignments).length := by
  obtain ⟨before, after, rfl⟩ := List.append_of_mem ha
  simp only [gather, List.map_append, List.map_cons, List.flatten_append, List.flatten_cons, List.length_append]
  omega

/-- **The metadata of an integration**, for all assignments and orders of their reports, are accurate exactly when the
sums fit and both shortest times are kept. -/
theorem accurate_iff (assignments : List Assignment) :
    (∃ m, collect assignments = .ok m ∧ Accurate assignments m) ↔
      Fits assignments ∧ Kept (assignments.map (·.integration_times)) ∧ Kept (assignments.map (·.batching_times)) := by
  have hintegration := foldl_shortest_map_iff (assignments.map (·.integration_times))
  have hbatching := foldl_shortest_map_iff (assignments.map (·.batching_times))
  rw [List.map_map] at hintegration hbatching
  constructor
  · rintro ⟨m, hm, h⟩
    obtain ⟨-, rfl⟩ := collect_eq_ok.mp hm
    refine ⟨⟨?_, ?_, ?_, ?_, ?_⟩, ?_, ?_⟩
    · rw [← nanosecond_eq_iff]
      simpa only using h.integration_total
    · rw [← nanosecond_eq_iff]
      simpa only using h.batching_total
    · exact unsigned_eq_iff.mp h.configurations
    · exact unsigned_eq_iff.mp h.failures
    · exact unsigned_eq_iff.mp h.refinements
    · exact hintegration.mp h.integration_shortest
    · exact hbatching.mp h.batching_shortest
  · rintro ⟨hfits, hkept, hkept'⟩
    refine ⟨_, collect_eq_ok.mpr ⟨fun a ha => ?_, rfl⟩, ⟨?_, ?_, ?_, ?_, ?_, ?_, ?_, ?_, ?_⟩⟩
    · exact .inr (lt_of_le_of_lt (length_le_gather ha) hfits.failures)
    · simpa only using nanosecond_eq_iff.mpr hfits.integration
    · intro time htime
      show (gather Assignment.integration_times assignments).foldl longest 0 = time
      rw [foldl_longest, htime, Option.getD_some]
    · exact hintegration.mpr hkept
    · simpa only using nanosecond_eq_iff.mpr hfits.batching
    · intro time htime
      show (gather Assignment.batching_times assignments).foldl longest 0 = time
      rw [foldl_longest, htime, Option.getD_some]
    · exact hbatching.mpr hkept'
    · exact unsigned_eq_iff.mpr hfits.configurations
    · exact unsigned_eq_iff.mpr hfits.failures
    · exact unsigned_eq_iff.mpr hfits.refinements

/-- One assignment succeeds, and in the next everything fails: the shortest times are zero in the end. -/
theorem failures_forget_shortest :
    ¬∀ assignments : List Assignment, ∃ m, collect assignments = .ok m ∧ Accurate assignments m := by
  intro h
  obtain ⟨m, hm, haccurate⟩ := h [⟨[.success 5 7], by decide⟩, ⟨[.failure 1], by decide⟩]
  have hshortest := haccurate.integration_shortest 5 (by decide)
  cases hm
  cases hshortest

end CppTransport.Runtime.IntegrationMetadata
