import CppTransport.Runtime.IntegrationBatcher
import Mathlib.Data.List.Nodup
import Mathlib.Data.List.Flatten

/-!
# What the integration batchers deliver

A backend integrates the configurations of a work list one after another, with
flushes delayed. An attempt that throws `std::overflow_error` is unwound and made
again at the next level of refinement; one that throws a `runtime_exception` is
reported as a failure and then unwound. The containers should end with the items of
the last attempt of each configuration that succeeded, each once, and no others.

## The model

* a work item comes with what its integration does at each level of refinement: the
  calls of `push_` functions it makes, and how it ends. `attempts` has one entry for
  each level that the task permits; past them the integrator throws a
  `REFINEMENT_FAILURE`;
* `integrate` runs the attempts up to a success or a `runtime_exception`,
  `process_configuration` adds what the handler of that exception does, and
  `backend_process_queue` is the loop over a work list;
* a worker processes any number of work lists with one batcher, and closes it.

## What is proved

* an attempt that is unwound leaves no trace (`Pushed.unbatch`), and a report of success
  delivers the items of the attempt that succeeded (`delivers_report_success`);
* the handler of a failure reports it before it unwinds the attempt, and a report may
  flush; the batchers deliver exactly what they should if and only if no such flush
  finds an item of the failed configuration (`exactly_once_iff`).
-/

set_option linter.unusedSectionVars false

namespace CppTransport.Runtime

open Library StagedBuffer
open IntegrationKind (stats)

/-! ### Work lists -/

/-- How an attempt to integrate a configuration ends. -/
inductive Ending where
  /-- The observer reports success, with the times and the number of steps that it measured. -/
  | completed (s : Statistics) (expired : Expired)
  /-- The integrator throws. -/
  | throws (e : Thrown)

/-- An attempt to integrate a configuration at some level of refinement. -/
structure Attempt (P : Type*) where
  /-- The calls of `push_` functions. -/
  pushes : List P
  /-- What happens after them. -/
  ending : Ending

/-- An entry of a work list. -/
structure Configuration (P : Type*) where
  /-- Serial number. -/
  serial : ℕ
  /-- What integration does at refinement level `0, 1, …` up to the largest permitted. -/
  attempts : List (Attempt P)
  /-- Answers of the checkpoint timers to a report of failure. -/
  expired : Expired

/-- The work lists given to one worker; the scheduler gives each configuration out once. -/
structure Assignments (P : Type*) where
  /-- The work lists, in the order in which they are processed. -/
  queues : List (List (Configuration P))
  /-- No configuration is given out twice. -/
  distinct : (queues.flatten.map (·.serial)).Nodup

section Model

variable {κ π K P : Type*} [IntegrationKind κ] [DecidableEq κ] [Fintype κ] [DecidableEq π] [Fintype π]
variable (request : P → Request κ π K)

/-- The calls of an attempt, up to the first that throws. -/
def push_all (serial : ℕ) :
    List P → IntegrationBatcher κ π K → IntegrationBatcher κ π K × Option Thrown
  | [], b => (b, none)
  | p :: ps, b =>
    match b.push serial (request p) with
    | .ok b' => push_all serial ps b'
    | .error e => (b, some e)

/-- `twopf_kmode` or `threepf_kmode`: one attempt, with what it throws. -/
def kmode (serial refinement_level : ℕ) (a : Attempt P) (b : IntegrationBatcher κ π K) :
    IntegrationBatcher κ π K × Option Thrown :=
  match push_all request serial a.pushes b with
  | (b', some e) => (b', some e)
  | (b', none) =>
    match a.ending with
    | .completed s expired => (b'.report_integration_success serial s refinement_level expired, none)
    | .throws e => (b', some e)

/-- Attempts until one succeeds (`true`) or a `runtime_exception` is caught (`false`). -/
def integrate (serial : ℕ) :
    ℕ → List (Attempt P) → IntegrationBatcher κ π K → IntegrationBatcher κ π K × Bool
  -- refinement level too deep: a `runtime_exception` before anything is pushed
  | _, [], b => (b, false)
  | refinement_level, a :: rest, b =>
    match kmode request serial refinement_level a b with
    | (b', none) => (b', true)
    | (b', some .runtime_exception) => (b', false)
    | (b', some .overflow_error) =>
      let b' := if refinement_level = 0 then b'.report_refinement else b'
      integrate serial (refinement_level + 1) rest (b'.unbatch serial)

/-- The body of the loop over a work list. -/
def process_configuration (b : IntegrationBatcher κ π K) (c : Configuration P) :
    IntegrationBatcher κ π K :=
  match integrate request c.serial 0 c.attempts b with
  | (b', true) => b'
  | (b', false) => (b'.report_integration_failure c.serial c.expired).unbatch c.serial

/-- `backend_process_queue`: flushes are delayed, so that failed integrations can be unwound. -/
def backend_process_queue (b : IntegrationBatcher κ π K) (list : List (Configuration P)) :
    IntegrationBatcher κ π K :=
  list.foldl (process_configuration request) (b.set_flush_mode .flush_delayed)

/-- A worker processes its work lists and closes its batcher. -/
def run_worker (b : IntegrationBatcher κ π K) (work : Assignments P) : IntegrationBatcher κ π K :=
  (work.queues.foldl (backend_process_queue request) b).close

end Model

/-! ### What should be delivered -/

section Delivered

variable {κ π K P : Type*} [IntegrationKind κ] [DecidableEq κ] [DecidableEq π]
variable (request : P → Request κ π K)

/-- The items among `l` of kind `k`, pushed by the integration `serial`. -/
def items {κ : Type*} [DecidableEq κ] (serial : ℕ) (l : List (κ × Payload K)) (k : κ) : List (Item K) :=
  (l.filter (·.1 = k)).map fun e => ⟨serial, e.2⟩

/-- The items of some calls for the batcher itself. -/
def own_items (serial : ℕ) (ps : List P) (k : κ) : List (Item K) :=
  ps.flatMap fun p => if (request p).enabled then items serial (request p).own k else []

/-- The items of some calls for the paired batcher. -/
def zeta_items (serial : ℕ) (ps : List P) (k : π) : List (Item K) :=
  ps.flatMap fun p => if (request p).enabled then items serial (request p).zeta k else []

/-- No call of the attempt has an argument of the wrong size. -/
def Attempt.Fits (a : Attempt P) : Prop := ∀ p ∈ a.pushes, (request p).size = (request p).required

instance (a : Attempt P) : Decidable (a.Fits request) :=
  inferInstanceAs (Decidable (∀ _ ∈ _, _))

/-- The attempt that succeeds, if there is one, with its level and its statistics. -/
def final_attempt : ℕ → List (Attempt P) → Option (ℕ × Attempt P × Statistics)
  | _, [] => none
  | level, a :: rest =>
    if a.Fits request then
      match a.ending with
      | .completed s _ => some (level, a, s)
      | .throws .overflow_error => final_attempt (level + 1) rest
      | .throws .runtime_exception => none
    else none

/-- The statistics of a successful integration, where they are collected. -/
def stats_items (kept : κ → Bool) (serial level : ℕ) (s : Statistics) (k : κ) : List (Item K) :=
  if kept k ∧ k = stats then [⟨serial, .statistics s.integration s.batching level s.steps⟩] else []

/-- What a configuration should add to the containers of the batcher. -/
def delivered (kept : κ → Bool) (c : Configuration P) (k : κ) : List (Item K) :=
  match final_attempt request 0 c.attempts with
  | some (level, a, s) =>
    (if kept k then own_items request c.serial a.pushes k else []) ++ stats_items kept c.serial level s k
  | none => []

/-- What a configuration should add to the containers of the paired batcher. -/
def delivered_zeta (kept : π → Bool) (c : Configuration P) (k : π) : List (Item K) :=
  match final_attempt request 0 c.attempts with
  | some (_, a, _) => if kept k then zeta_items request c.serial a.pushes k else []
  | none => []

end Delivered

/-- The containers hold the items that should be delivered, each once, when the worker is done. -/
def ExactlyOnce {κ π K P : Type*} [IntegrationKind κ] [DecidableEq κ] [Fintype κ] [DecidableEq π] [Fintype π]
    (request : P → Request κ π K) (b : IntegrationBatcher κ π K) (work : Assignments P) : Prop :=
  (∀ k, ((run_worker request b work).main.written k).Perm
    (work.queues.flatten.flatMap fun c => delivered request b.main.kept c k)) ∧
  ∀ p ∈ (run_worker request b work).paired, ∀ k, (p.written k).Perm
    (work.queues.flatten.flatMap fun c => delivered_zeta request p.kept c k)

/-- No flush that a report of failure makes finds an item of the failed integration. -/
structure ReportKeeps {κ π K : Type*} [Fintype κ] (serial : ℕ) (expired : Expired)
    (b : IntegrationBatcher κ π K) : Prop where
  /-- The batcher flushes if a flush is due, if it is full, or if its interval has expired. -/
  main : b.main.flush_due ∨ b.main.capacity < b.main.storage ∨ expired.first →
    ∀ k, ∀ x ∈ b.main.pending k, x.source_serial ≠ serial
  /-- The paired batcher flushes if a flush is due or its interval has expired. -/
  paired : ∀ p ∈ b.paired, p.flush_due ∨ expired.paired → ∀ k, ∀ x ∈ p.pending k, x.source_serial ≠ serial

/-- The failure of a configuration, if one is reported, keeps the failed items out. -/
def FailureKeeps {κ π K P : Type*} [IntegrationKind κ] [DecidableEq κ] [Fintype κ] [DecidableEq π] [Fintype π]
    (request : P → Request κ π K) (b : IntegrationBatcher κ π K) (c : Configuration P) : Prop :=
  (integrate request c.serial 0 c.attempts b).2 = false →
    ReportKeeps c.serial c.expired (integrate request c.serial 0 c.attempts b).1

/-- Every report of failure made on the way through a list keeps the failed items out. -/
def ReportsKeep {κ π K P : Type*} [IntegrationKind κ] [DecidableEq κ] [Fintype κ] [DecidableEq π] [Fintype π]
    (request : P → Request κ π K) : IntegrationBatcher κ π K → List (Configuration P) → Prop
  | _, [] => True
  | b, c :: cs =>
    FailureKeeps request b c ∧ ReportsKeep request (process_configuration request b c) cs

/-! ### One batcher -/

namespace Batcher

variable {κ K : Type*} {b b₁ b₂ : Batcher κ K} {added more : κ → List (Item K)}

/-- `b₁` has batched `added` on top of `b`, and written nothing. -/
structure Batched (b b₁ : Batcher κ K) (added : κ → List (Item K)) : Prop where
  /-- The flushing mode is the same. -/
  mode : b₁.mode = b.mode
  /-- What is collected is pending. -/
  staged : Extends b.toStagedBuffer b₁.toStagedBuffer fun k => if b.kept k then added k else []

theorem Batched.refl (b : Batcher κ K) : Batched b b fun _ => [] :=
  ⟨rfl, (Extends.refl _).congr fun k => by split_ifs <;> rfl⟩

theorem Batched.congr (h : Batched b b₁ added) (same : ∀ k, added k = more k) : Batched b b₁ more :=
  ⟨h.mode, h.staged.congr fun k => by rw [same]⟩

theorem Batched.trans (h : Batched b b₁ added) (h' : Batched b₁ b₂ more) :
    Batched b b₂ fun k => added k ++ more k := by
  refine ⟨h'.mode.trans h.mode, (h.staged.trans h'.staged).congr fun k => ?_⟩
  rw [h.staged.kept]
  split_ifs <;> rfl

theorem batched_emplace_back [DecidableEq κ] (b : Batcher κ K) (k : κ) (it : Item K) :
    Batched b (b.emplace_back k it) fun j => if j = k then [it] else [] := by
  refine ⟨rfl, (Extends.stage b.toStagedBuffer k it).congr fun j => ?_⟩
  by_cases hj : b.kept j <;> simp [hj]

theorem batched_check_for_flush [Fintype κ] (h : b.mode = .flush_delayed) :
    Batched b b.check_for_flush fun _ => [] := by
  unfold check_for_flush
  split_ifs
  · simp only [h]
    exact ⟨h.symm, (Batched.refl b).staged⟩
  · exact Batched.refl b

/-- In delayed mode a full batcher only notes that a flush is due. -/
theorem flush_due_check_for_flush [Fintype κ] (h : b.mode = .flush_delayed) :
    b.check_for_flush.flush_due ↔ b.flush_due ∨ b.capacity < b.storage := by
  unfold check_for_flush
  split_ifs with full <;> simp [h, full]

theorem flush_if_due_of_due {expired : Bool} (h : b.flush_due ∨ expired) :
    (b.flush_if_due expired).toStagedBuffer = b.commit := by
  unfold flush_if_due
  by_cases due : b.flush_due
  · rw [if_pos due]
    rfl
  · rw [if_neg due, if_pos (h.resolve_left due)]
    rfl

theorem flush_if_due_of_not {expired : Bool} (h : ¬ (b.flush_due ∨ expired)) :
    b.flush_if_due expired = b := by
  rw [not_or] at h
  rw [flush_if_due, if_neg h.1, if_neg h.2]

@[simp] theorem mode_flush_if_due (b : Batcher κ K) (expired : Bool) :
    (b.flush_if_due expired).mode = b.mode := by
  unfold flush_if_due
  split_ifs <;> rfl

theorem settles_flush_if_due (b : Batcher κ K) (expired : Bool) :
    Settles b.toStagedBuffer (b.flush_if_due expired).toStagedBuffer := by
  by_cases h : b.flush_due ∨ expired
  · exact .inr (flush_if_due_of_due h)
  · exact .inl (by rw [flush_if_due_of_not h])

/-- No item in the batcher or in its containers stems from the integration `serial`. -/
def Foreign (b : Batcher κ K) (serial : ℕ) : Prop := ∀ k, ∀ x ∈ b.total k, x.source_serial ≠ serial

theorem Foreign.pending {serial : ℕ} (h : b.Foreign serial) (k : κ) :
    ∀ x ∈ b.pending k, x.source_serial ≠ serial :=
  fun x hx => h k x (List.mem_append_right _ hx)

/-- Unwinding an integration undoes what it has batched. -/
theorem Batched.unbatch (h : Batched b b₁ added) {kinds : κ → Bool} {serial : ℕ}
    (own : ∀ k, ∀ x ∈ added k, kinds k ∧ x.source_serial = serial) (foreign : b.Foreign serial) :
    Batched b (b₁.unbatch kinds serial) fun _ => [] := by
  refine ⟨h.mode, (h.staged.discard (fun k x hx => ?_) fun k x hx => ?_).congr fun k => by split_ifs <;> rfl⟩
  · have hx : x ∈ added k := by
      split_ifs at hx
      · exact hx
      · simp at hx
    simpa using own k x hx
  · simpa using foreign.pending k x hx

/-- `b₁` has the items of `b` and `added`; what `b` has written stays written. -/
structure Supplies (b b₁ : Batcher κ K) (added : κ → List (Item K)) : Prop where
  /-- The flushing mode is the same. -/
  mode : b₁.mode = b.mode
  /-- The same kinds are collected. -/
  kept : b₁.kept = b.kept
  /-- The additions are written or pending. -/
  total : ∀ k, b₁.total k = b.total k ++ added k
  /-- Containers only grow. -/
  written : ∀ k, b.written k <+: b₁.written k

theorem Supplies.refl (b : Batcher κ K) : Supplies b b fun _ => [] :=
  ⟨rfl, rfl, by simp, fun _ => List.prefix_refl _⟩

theorem Supplies.trans (h : Supplies b b₁ added) (h' : Supplies b₁ b₂ more) :
    Supplies b b₂ fun k => added k ++ more k where
  mode := h'.mode.trans h.mode
  kept := h'.kept.trans h.kept
  total k := by rw [h'.total, h.total, List.append_assoc]
  written k := (h.written k).trans (h'.written k)

theorem Supplies.congr (h : Supplies b b₁ added) (same : ∀ k, added k = more k) : Supplies b b₁ more :=
  ⟨h.mode, h.kept, fun k => by rw [h.total, same], h.written⟩

theorem Batched.supplies (h : Batched b b₁ added) : Supplies b b₁ fun k => if b.kept k then added k else [] :=
  ⟨h.mode, h.staged.kept, h.staged.total, fun k => by rw [h.staged.written]⟩

theorem supplies_flush_if_due (b : Batcher κ K) (expired : Bool) :
    Supplies b (b.flush_if_due expired) fun _ => [] where
  mode := mode_flush_if_due b expired
  kept := (settles_flush_if_due b expired).kept
  total k := by rw [(settles_flush_if_due b expired).total, List.append_nil]
  written := (settles_flush_if_due b expired).written_le

/-- The items of the integration `serial` that a report would write. -/
def leaked (b : Batcher κ K) (expired : Bool) (serial : ℕ) (k : κ) : List (Item K) :=
  if b.flush_due ∨ expired then (b.pending k).filter (·.source_serial = serial) else []

theorem leaked_eq_nil_iff {expired : Bool} {serial : ℕ} :
    (∀ k, b.leaked expired serial k = []) ↔
      (b.flush_due ∨ expired → ∀ k, ∀ x ∈ b.pending k, x.source_serial ≠ serial) := by
  unfold leaked
  split_ifs with due <;> simp [List.filter_eq_nil_iff, due]

/-- What a report writes cannot be unwound any more. -/
theorem mem_written_of_leaked {expired : Bool} {serial : ℕ} (kinds : κ → Bool) {k : κ} {x : Item K}
    (h : x ∈ b.leaked expired serial k) :
    x.source_serial = serial ∧ x ∈ ((b.flush_if_due expired).unbatch kinds serial).written k := by
  unfold leaked at h
  split_ifs at h with due
  · rw [List.mem_filter] at h
    refine ⟨by simpa using h.2, ?_⟩
    rw [unbatch, written_discard, flush_if_due_of_due due, written_commit]
    exact List.mem_append_right _ h.1
  · simp at h

/-- A failed integration that is reported, and unwound after that, supplies what leaks. -/
theorem Batched.supplies_leaked (h : Batched b b₁ added) {kinds : κ → Bool} {serial : ℕ} (expired : Bool)
    (own : ∀ k, ∀ x ∈ added k, kinds k ∧ x.source_serial = serial) (foreign : b.Foreign serial) :
    Supplies b ((b₁.flush_if_due expired).unbatch kinds serial) (b₁.leaked expired serial) := by
  refine ⟨(mode_flush_if_due b₁ expired).trans h.mode, ?_, fun k => ?_, fun k => ?_⟩
  · exact (settles_flush_if_due b₁ expired).kept.trans h.staged.kept
  · by_cases due : b₁.flush_due ∨ expired
    · have others : (b.pending k).filter (·.source_serial = serial) = [] :=
        List.filter_eq_nil_iff.mpr fun x hx => by simpa using foreign.pending k x hx
      have mine : (if b.kept k then added k else []).filter (·.source_serial = serial) =
          if b.kept k then added k else [] := by
        refine List.filter_eq_self.mpr fun x hx => ?_
        split_ifs at hx
        · simpa using (own k x hx).2
        · simp at hx
      calc ((b₁.flush_if_due expired).unbatch kinds serial).total k
          = (b₁.commit.discard kinds fun it => it.source_serial = serial).total k := by
            rw [Batcher.unbatch, flush_if_due_of_due due]
        _ = b₁.total k := by simp [StagedBuffer.total, pending_discard]
        _ = b.total k ++ b₁.leaked expired serial k := by
            rw [leaked, if_pos due, h.staged.total, h.staged.pending, List.filter_append, others, mine,
              List.nil_append]
    · rw [flush_if_due_of_not due, leaked, if_neg due, (h.unbatch own foreign).supplies.total]
      simp
  · have written := (settles_flush_if_due b₁ expired).written_le k
    rwa [h.staged.written] at written

end Batcher

/-! ### A batcher and its partner -/

section Items

variable {α κ π K P : Type*} [DecidableEq α] [DecidableEq κ] [DecidableEq π] [IntegrationKind κ]
variable {request : P → Request κ π K} {serial : ℕ} {ps : List P}

theorem items_cons (e : α × Payload K) (l : List (α × Payload K)) (k : α) :
    items serial (e :: l) k = (if k = e.1 then [⟨serial, e.2⟩] else []) ++ items serial l k := by
  unfold items
  by_cases h : e.1 = k
  · simp [h]
  · rw [List.filter_cons_of_neg (by simpa using h), if_neg (Ne.symm h), List.nil_append]

theorem mem_items {l : List (α × Payload K)} {k : α} {x : Item K} (h : x ∈ items serial l k) :
    x.source_serial = serial ∧ ∃ e ∈ l, e.1 = k := by
  obtain ⟨e, he, rfl⟩ := List.mem_map.mp h
  rw [List.mem_filter] at he
  exact ⟨rfl, e, he.1, by simpa using he.2⟩

theorem mem_own_items {k : κ} {x : Item K} (h : x ∈ own_items request serial ps k) :
    k ≠ stats ∧ x.source_serial = serial := by
  obtain ⟨p, -, hx⟩ := List.mem_flatMap.mp h
  split_ifs at hx
  · obtain ⟨same, e, he, rfl⟩ := mem_items hx
    exact ⟨(request p).no_stats e he, same⟩
  · simp at hx

theorem mem_zeta_items {k : π} {x : Item K} (h : x ∈ zeta_items request serial ps k) :
    x.source_serial = serial := by
  obtain ⟨p, -, hx⟩ := List.mem_flatMap.mp h
  split_ifs at hx
  · exact (mem_items hx).1
  · simp at hx

end Items

namespace IntegrationBatcher

open Batcher

variable {κ π K P : Type*}
variable {b b₁ b₂ : IntegrationBatcher κ π K} {own own' : κ → List (Item K)} {zeta zeta' : π → List (Item K)}

/-- Flushes are delayed, on both sides. -/
structure Delayed (b : IntegrationBatcher κ π K) : Prop where
  /-- On the side of the batcher. -/
  main : b.main.mode = .flush_delayed
  /-- On the side of its partner. -/
  paired : ∀ p ∈ b.paired, p.mode = .flush_delayed

/-- No item on either side stems from the integration `serial`. -/
structure Foreign (b : IntegrationBatcher κ π K) (serial : ℕ) : Prop where
  /-- On the side of the batcher. -/
  main : b.main.Foreign serial
  /-- On the side of its partner. -/
  paired : ∀ p ∈ b.paired, p.Foreign serial

/-- What some calls have batched on both sides, without a flush. -/
structure Pushed (b b₁ : IntegrationBatcher κ π K) (own : κ → List (Item K)) (zeta : π → List (Item K)) :
    Prop where
  /-- On the side of the batcher. -/
  main : Batched b.main b₁.main own
  /-- On the side of its partner. -/
  paired : Option.Rel (fun p p₁ => Batched p p₁ zeta) b.paired b₁.paired

theorem Pushed.refl (b : IntegrationBatcher κ π K) : Pushed b b (fun _ => []) fun _ => [] :=
  ⟨Batched.refl _, by simpa using rel_map (f := id) fun p _ => Batched.refl p⟩

theorem Pushed.trans (h : Pushed b b₁ own zeta) (h' : Pushed b₁ b₂ own' zeta') :
    Pushed b b₂ (fun k => own k ++ own' k) fun k => zeta k ++ zeta' k :=
  ⟨h.main.trans h'.main, rel_comp (fun _ _ _ hp hq => hp.trans hq) h.paired h'.paired⟩

theorem Pushed.congr (h : Pushed b b₁ own zeta) (same : ∀ k, own k = own' k)
    (same' : ∀ k, zeta k = zeta' k) : Pushed b b₁ own' zeta' :=
  ⟨h.main.congr same, rel_imp (fun _ _ _ _ hp => hp.congr same') h.paired⟩

theorem Pushed.delayed (h : Pushed b b₁ own zeta) (delayed : b.Delayed) : b₁.Delayed := by
  refine ⟨h.main.mode.trans delayed.main, fun p hp => ?_⟩
  obtain ⟨q, hq, hqp⟩ := exists_of_rel_right h.paired hp
  exact hqp.mode.trans (delayed.paired q hq)

/-- `b₁` has the items of `b`, and what the two sides collect of `supply` and `supply'`. -/
structure Delivers (b b₁ : IntegrationBatcher κ π K) (supply : (κ → Bool) → κ → List (Item K))
    (supply' : (π → Bool) → π → List (Item K)) : Prop where
  /-- On the side of the batcher. -/
  main : Supplies b.main b₁.main (supply b.main.kept)
  /-- On the side of its partner. -/
  paired : Option.Rel (fun p p₁ => Supplies p p₁ (supply' p.kept)) b.paired b₁.paired

variable {supply more : (κ → Bool) → κ → List (Item K)} {supply' more' : (π → Bool) → π → List (Item K)}

theorem Delivers.refl (b : IntegrationBatcher κ π K) : Delivers b b (fun _ _ => []) fun _ _ => [] :=
  ⟨Supplies.refl _, by simpa using rel_map (f := id) fun p _ => Supplies.refl p⟩

theorem Delivers.trans (h : Delivers b b₁ supply supply') (h' : Delivers b₁ b₂ more more') :
    Delivers b b₂ (fun kept k => supply kept k ++ more kept k) fun kept k => supply' kept k ++ more' kept k :=
  ⟨h.main.trans (h.main.kept ▸ h'.main),
    rel_comp (fun _ _ _ hp hq => hp.trans (hp.kept ▸ hq)) h.paired h'.paired⟩

theorem Delivers.congr (h : Delivers b b₁ supply supply') (same : ∀ kept k, supply kept k = more kept k)
    (same' : ∀ kept k, supply' kept k = more' kept k) : Delivers b b₁ more more' :=
  ⟨h.main.congr fun k => same _ k, rel_imp (fun _ _ _ _ hp => hp.congr fun k => same' _ k) h.paired⟩

theorem Pushed.delivers (h : Pushed b b₁ own zeta) :
    Delivers b b₁ (fun kept k => if kept k then own k else []) fun kept k => if kept k then zeta k else [] :=
  ⟨h.main.supplies, rel_imp (fun _ _ _ _ hp => hp.supplies) h.paired⟩

theorem Delivers.delayed (h : Delivers b b₁ supply supply') (delayed : b.Delayed) : b₁.Delayed := by
  refine ⟨h.main.mode.trans delayed.main, fun p hp => ?_⟩
  obtain ⟨q, hq, hqp⟩ := exists_of_rel_right h.paired hp
  exact hqp.mode.trans (delayed.paired q hq)

/-- Deliveries of other integrations leave a batcher foreign to this one. -/
theorem Delivers.foreign {serial : ℕ} (h : Delivers b b₁ supply supply') (foreign : b.Foreign serial)
    (other : ∀ kept k, ∀ x ∈ supply kept k, x.source_serial ≠ serial)
    (other' : ∀ kept k, ∀ x ∈ supply' kept k, x.source_serial ≠ serial) : b₁.Foreign serial := by
  refine ⟨fun k x hx => ?_, fun p hp k x hx => ?_⟩
  · rw [h.main.total, List.mem_append] at hx
    exact hx.elim (foreign.main k x) (other _ k x)
  · obtain ⟨q, hq, hqp⟩ := exists_of_rel_right h.paired hp
    rw [hqp.total, List.mem_append] at hx
    exact hx.elim (foreign.paired q hq k x) (other' _ k x)

variable [IntegrationKind κ] [DecidableEq κ] [Fintype κ] [DecidableEq π] [Fintype π]
variable {request : P → Request κ π K} {serial : ℕ}

theorem batched_emplace {κ : Type*} [DecidableEq κ] (serial : ℕ) (l : List (κ × Payload K)) (m : Batcher κ K) :
    Batched m (l.foldl (fun m e => m.emplace_back e.1 ⟨serial, e.2⟩) m) (items serial l) := by
  induction l generalizing m with
  | nil => exact Batched.refl m
  | cons e l ih =>
    exact ((batched_emplace_back m e.1 ⟨serial, e.2⟩).trans (ih _)).congr fun k => (items_cons e l k).symm

theorem batched_push_paired (l : List (π × Payload K)) (p : Batcher π K) (h : p.mode = .flush_delayed) :
    Batched p (l.foldl (fun p e => p.push e.1 ⟨serial, e.2⟩) p) (items serial l) := by
  induction l generalizing p with
  | nil => exact Batched.refl p
  | cons e l ih =>
    have first : Batched p (p.push e.1 ⟨serial, e.2⟩) fun k => if k = e.1 then [⟨serial, e.2⟩] else [] :=
      ((batched_emplace_back p e.1 ⟨serial, e.2⟩).trans (batched_check_for_flush h)).congr fun k => by simp
    exact (first.trans (ih _ (first.mode.trans h))).congr fun k => (items_cons e l k).symm

/-- A call whose argument has the right size batches its items, on both sides. -/
theorem push_spec (serial : ℕ) (delayed : b.Delayed) {p : P} (h : (request p).size = (request p).required) :
    ∃ b₁, b.push serial (request p) = .ok b₁ ∧
      Pushed b b₁ (own_items request serial [p]) (zeta_items request serial [p]) := by
  unfold push
  rw [if_neg (by simpa using h)]
  by_cases enabled : (request p).enabled
  · rw [if_pos enabled]
    refine ⟨_, rfl, ?_, ?_⟩
    · have own := batched_emplace serial (request p).own b.main
      refine (own.trans (batched_check_for_flush (own.mode.trans delayed.main))).congr fun k => ?_
      simp [own_items, enabled]
    · refine rel_map fun q hq => (batched_push_paired _ q (delayed.paired q hq)).congr fun k => ?_
      simp [zeta_items, enabled]
  · rw [if_neg enabled]
    refine ⟨b, rfl, (Pushed.refl b).congr (fun k => ?_) fun k => ?_⟩
    · simp [own_items, enabled]
    · simp [zeta_items, enabled]

variable (request serial) in
/-- The calls of an attempt batch the items of a part of them: of all, if none throws. -/
theorem push_all_spec (ps : List P) (delayed : b.Delayed) :
    ∃ qs, Pushed b (push_all request serial ps b).1 (own_items request serial qs)
        (zeta_items request serial qs) ∧
      ((∀ p ∈ ps, (request p).size = (request p).required) ∧ qs = ps ∧
          (push_all request serial ps b).2 = none ∨
        ¬ (∀ p ∈ ps, (request p).size = (request p).required) ∧
          (push_all request serial ps b).2 = some .runtime_exception) := by
  induction ps generalizing b with
  | nil => exact ⟨[], Pushed.refl b, .inl ⟨by simp, rfl, rfl⟩⟩
  | cons p ps ih =>
    by_cases fits : (request p).size = (request p).required
    · obtain ⟨b₁, hb, first⟩ := push_spec serial delayed fits
      obtain ⟨qs, rest, ends⟩ := ih (first.delayed delayed)
      have run : push_all request serial (p :: ps) b = push_all request serial ps b₁ := by
        rw [push_all, hb]
      rw [run]
      refine ⟨p :: qs, (first.trans rest).congr (fun k => ?_) (fun k => ?_), ?_⟩
      · simp [own_items]
      · simp [zeta_items]
      · simpa [fits] using ends
    · have run : push_all request serial (p :: ps) b = (b, some .runtime_exception) := by
        rw [push_all, push, if_pos fits]
      rw [run]
      exact ⟨[], Pushed.refl b, .inr ⟨fun h => fits (h p (by simp)), rfl⟩⟩

/-- **An attempt that is unwound leaves no trace** on either side. -/
theorem Pushed.unbatch {qs : List P}
    (h : Pushed b b₁ (own_items request serial qs) (zeta_items request serial qs))
    (foreign : b.Foreign serial) :
    Pushed b (b₁.unbatch serial) (fun _ => []) fun _ => [] := by
  refine ⟨h.main.unbatch (fun k x hx => by simpa using mem_own_items hx) foreign.main, ?_⟩
  refine rel_comp (R := fun p p₁ => p.Foreign serial ∧ Batched p p₁ (zeta_items request serial qs))
    (S := fun p₁ p₂ => p₂ = p₁.unbatch (fun _ => true) serial) ?_
    (rel_imp (fun p hp _ _ hq => ⟨foreign.paired p hp, hq⟩) h.paired) (rel_map fun _ _ => rfl)
  rintro p p₁ _ ⟨hf, hp⟩ rfl
  exact hp.unbatch (fun k x hx => ⟨rfl, mem_zeta_items hx⟩) hf

/-- **A report of success delivers** what the integration has batched, and its statistics. -/
theorem delivers_report_success {ps : List P}
    (h : Pushed b b₁ (own_items request serial ps) (zeta_items request serial ps)) (s : Statistics)
    (level : ℕ) (expired : Expired) :
    Delivers b (b₁.report_integration_success serial s level expired)
      (fun kept k => (if kept k then own_items request serial ps k else []) ++
        stats_items kept serial level s k)
      fun kept k => if kept k then zeta_items request serial ps k else [] := by
  refine ⟨?_, ?_⟩
  · have before := h.main.supplies.trans (supplies_flush_if_due b₁.main expired.first)
    let it : Item K := ⟨serial, .statistics s.integration s.batching level s.steps⟩
    have stored : Supplies b.main
        (if b₁.main.kept stats then (b₁.main.flush_if_due expired.first).emplace_back stats it
          else b₁.main.flush_if_due expired.first)
        fun k => (if b.main.kept k then own_items request serial ps k else []) ++
          stats_items b.main.kept serial level s k := by
      have kept : b₁.main.kept = b.main.kept := h.main.staged.kept
      rw [kept]
      split_ifs with collects
      · refine (before.trans (batched_emplace_back _ stats it).supplies).congr fun k => ?_
        rw [before.kept, stats_items]
        by_cases hk : k = stats <;> simp [hk, collects, it]
      · refine before.congr fun k => ?_
        have uncollected : ¬ (b.main.kept k ∧ k = stats) := by
          rintro ⟨hk, rfl⟩
          exact collects hk
        rw [stats_items, if_neg uncollected]
    exact (stored.trans (supplies_flush_if_due _ expired.second)).congr fun k => by rw [List.append_nil]
  · refine rel_comp (S := fun p₁ p₂ => p₂ = p₁.flush_if_due expired.paired) ?_ h.paired
      (rel_map fun _ _ => rfl)
    rintro p p₁ _ hp rfl
    exact (hp.supplies.trans (supplies_flush_if_due p₁ _)).congr fun k => by rw [List.append_nil]

variable (request) in
/-- What the attempts of an integration leave: either a success that is delivered, or the items
of an attempt that failed, not yet unwound. -/
theorem integrate_spec (attempts : List (Attempt P)) (level : ℕ) (delayed : b.Delayed)
    (foreign : b.Foreign serial) :
    ((integrate request serial level attempts b).2 = false ∧
        final_attempt request level attempts = none ∧
        ∃ qs, Pushed b (integrate request serial level attempts b).1 (own_items request serial qs)
          (zeta_items request serial qs)) ∨
      ((integrate request serial level attempts b).2 = true ∧
        ∃ last a s, final_attempt request level attempts = some (last, a, s) ∧
          Delivers b (integrate request serial level attempts b).1
            (fun kept k => (if kept k then own_items request serial a.pushes k else []) ++
              stats_items kept serial last s k)
            fun kept k => if kept k then zeta_items request serial a.pushes k else []) := by
  induction attempts generalizing level b with
  | nil => exact .inl ⟨rfl, rfl, [], Pushed.refl b⟩
  | cons a rest ih =>
    obtain ⟨qs, pushed, ⟨fits, rfl, ends⟩ | ⟨unfit, ends⟩⟩ :=
      push_all_spec request serial a.pushes delayed
    · generalize hb₁ : (push_all request serial a.pushes b).1 = b₁ at pushed
      have all : push_all request serial a.pushes b = (b₁, none) := by rw [← hb₁, ← ends]
      have fits : a.Fits request := fits
      cases ending : a.ending with
      | completed s expired =>
        refine .inr ⟨?_, level, a, s, ?_, ?_⟩
        · simp [integrate, kmode, all, ending]
        · simp [final_attempt, fits, ending]
        · have success := delivers_report_success pushed s level expired
          simpa [integrate, kmode, all, ending] using success
      | throws e =>
        cases e with
        | runtime_exception =>
          refine .inl ⟨?_, ?_, a.pushes, ?_⟩
          · simp [integrate, kmode, all, ending]
          · simp [final_attempt, fits, ending]
          · simpa [integrate, kmode, all, ending] using pushed
        | overflow_error =>
          -- the attempt is unwound, and the rest starts from where it began
          let b₂ := if level = 0 then b₁.report_refinement else b₁
          have noted : Pushed b b₂ (own_items request serial a.pushes) (zeta_items request serial a.pushes) := by
            show Pushed b (if level = 0 then b₁.report_refinement else b₁) _ _
            split_ifs
            · exact ⟨pushed.main, pushed.paired⟩
            · exact pushed
          have unwound := noted.unbatch foreign
          have again : integrate request serial level (a :: rest) b =
              integrate request serial (level + 1) rest (b₂.unbatch serial) := by
            simp [integrate, kmode, all, ending, b₂]
          have final : final_attempt request level (a :: rest) = final_attempt request (level + 1) rest := by
            simp [final_attempt, fits, ending]
          have still : (b₂.unbatch serial).Foreign serial :=
            unwound.delivers.foreign foreign (by simp) (by simp)
          rw [again, final]
          obtain ⟨failed, none_final, qs, rest_pushed⟩ | ⟨success, last, a', s, some_final, rest_delivers⟩ :=
            ih (level + 1) (unwound.delayed delayed) still
          · exact .inl ⟨failed, none_final, qs,
              (unwound.trans rest_pushed).congr (fun k => by simp) fun k => by simp⟩
          · exact .inr ⟨success, last, a', s, some_final,
              (unwound.delivers.trans rest_delivers).congr (fun kept k => by simp) fun kept k => by simp⟩
    · generalize hb₁ : (push_all request serial a.pushes b).1 = b₁ at pushed
      have all : push_all request serial a.pushes b = (b₁, some .runtime_exception) := by rw [← hb₁, ← ends]
      have unfit : ¬ a.Fits request := unfit
      refine .inl ⟨?_, ?_, qs, ?_⟩
      · simp [integrate, kmode, all]
      · simp [final_attempt, unfit]
      · simpa [integrate, kmode, all] using pushed

/-- Some container holds an item of the integration `serial`. -/
def Leaks (b : IntegrationBatcher κ π K) (serial : ℕ) : Prop :=
  (∃ k, ∃ x ∈ b.main.written k, x.source_serial = serial) ∨
    ∃ p ∈ b.paired, ∃ k, ∃ x ∈ p.written k, x.source_serial = serial

theorem Delivers.leaks (h : Delivers b b₁ supply supply') (leaks : b.Leaks serial) : b₁.Leaks serial := by
  obtain ⟨k, x, hx, same⟩ | ⟨p, hp, k, x, hx, same⟩ := leaks
  · exact .inl ⟨k, x, (h.main.written k).subset hx, same⟩
  · obtain ⟨q, hq, hpq⟩ := exists_of_rel_left h.paired hp
    exact .inr ⟨q, hq, k, x, (hpq.written k).subset hx, same⟩

/-- What the two sides write when the failure of `serial` is reported. -/
def leaked (b : IntegrationBatcher κ π K) (serial : ℕ) (expired : Expired) : κ → List (Item K) :=
  b.main.check_for_flush.leaked expired.first serial

/-- What the partner writes when the failure of `serial` is reported. -/
def leaked_zeta (b : IntegrationBatcher κ π K) (serial : ℕ) (expired : Expired) (k : π) : List (Item K) :=
  match b.paired with
  | some p => p.leaked expired.paired serial k
  | none => []

theorem Pushed.report_failure {qs : List P}
    (h : Pushed b b₁ (own_items request serial qs) (zeta_items request serial qs)) (delayed : b.Delayed)
    (foreign : b.Foreign serial) (expired : Expired) :
    Delivers b ((b₁.report_integration_failure serial expired).unbatch serial)
      (fun _ => b₁.leaked serial expired) fun _ => b₁.leaked_zeta serial expired := by
  refine ⟨?_, ?_⟩
  · have checked := h.main.trans (batched_check_for_flush (h.main.mode.trans delayed.main))
    apply checked.supplies_leaked expired.first (fun k x hx => ?_) foreign.main
    rw [List.append_nil] at hx
    simpa using mem_own_items hx
  · refine rel_comp (R := fun p p₁ => b₁.paired = some p₁ ∧ p.Foreign serial ∧
        Batched p p₁ (zeta_items request serial qs))
      (S := fun p₁ p₂ => p₂ = (p₁.flush_if_due expired.paired).unbatch (fun _ => true) serial) ?_
      (rel_imp (fun p hp q hq hpq => ⟨hq, foreign.paired p hp, hpq⟩) h.paired) ?_
    · rintro p p₁ _ ⟨hp₁, hf, hp⟩ rfl
      have leaked_eq : b₁.leaked_zeta serial expired = p₁.leaked expired.paired serial := by
        funext k
        rw [leaked_zeta, hp₁]
      rw [leaked_eq]
      exact hp.supplies_leaked expired.paired (fun k x hx => ⟨rfl, mem_zeta_items hx⟩) hf
    · simp only [IntegrationBatcher.unbatch, report_integration_failure, Option.map_map]
      exact rel_map fun _ _ => rfl

/-- A report keeps the failed items out if and only if nothing leaks. -/
theorem reportKeeps_iff (delayed : b.Delayed) {expired : Expired} :
    ReportKeeps serial expired b ↔
      (∀ k, b.leaked serial expired k = []) ∧ ∀ k, b.leaked_zeta serial expired k = [] := by
  have main : (∀ k, b.leaked serial expired k = []) ↔
      (b.main.flush_due ∨ b.main.capacity < b.main.storage ∨ expired.first →
        ∀ k, ∀ x ∈ b.main.pending k, x.source_serial ≠ serial) := by
    unfold leaked
    rw [leaked_eq_nil_iff, flush_due_check_for_flush delayed.main, or_assoc]
    simp [(batched_check_for_flush delayed.main).staged.pending]
  have paired : (∀ k, b.leaked_zeta serial expired k = []) ↔
      ∀ p ∈ b.paired, p.flush_due ∨ expired.paired →
        ∀ k, ∀ x ∈ p.pending k, x.source_serial ≠ serial := by
    unfold leaked_zeta
    cases b.paired with
    | none => simp
    | some p => simpa using leaked_eq_nil_iff
  rw [main, paired]
  exact ⟨fun h => ⟨h.main, h.paired⟩, fun h => ⟨h.1, h.2⟩⟩

theorem leaks_of_not_reportKeeps (delayed : b.Delayed) {expired : Expired}
    (h : ¬ ReportKeeps serial expired b) :
    ((b.report_integration_failure serial expired).unbatch serial).Leaks serial := by
  rw [reportKeeps_iff delayed, not_and_or, not_forall, not_forall] at h
  obtain ⟨k, hk⟩ | ⟨k, hk⟩ := h
  · obtain ⟨x, hx⟩ := List.exists_mem_of_ne_nil _ hk
    obtain ⟨same, written⟩ := mem_written_of_leaked (· ≠ stats) hx
    exact .inl ⟨k, x, written, same⟩
  · unfold leaked_zeta at hk
    cases hp : b.paired with
    | none => simp [hp] at hk
    | some p =>
      obtain ⟨x, hx⟩ := List.exists_mem_of_ne_nil _ hk
      rw [hp] at hx
      obtain ⟨same, written⟩ := mem_written_of_leaked (fun _ => true) hx
      exact .inr ⟨_, by simp [IntegrationBatcher.unbatch, report_integration_failure, hp], k, x, written, same⟩

/-! ### A work list -/

/-- What a configuration supplies has its serial number. -/
theorem mem_delivered {kept : κ → Bool} {c : Configuration P} {k : κ} {x : Item K}
    (h : x ∈ delivered request kept c k) :
    x.source_serial = c.serial ∧ final_attempt request 0 c.attempts ≠ none := by
  unfold delivered at h
  split at h
  · next final =>
    refine ⟨?_, by simp [final]⟩
    rw [List.mem_append] at h
    obtain h | h := h
    · split_ifs at h
      · exact (mem_own_items h).2
      · simp at h
    · unfold stats_items at h
      split_ifs at h
      · obtain rfl := List.mem_singleton.mp h
        rfl
      · simp at h
  · simp at h

theorem mem_delivered_zeta {kept : π → Bool} {c : Configuration P} {k : π} {x : Item K}
    (h : x ∈ delivered_zeta request kept c k) :
    x.source_serial = c.serial ∧ final_attempt request 0 c.attempts ≠ none := by
  unfold delivered_zeta at h
  split at h
  · next final =>
    refine ⟨?_, by simp [final]⟩
    split_ifs at h
    · exact mem_zeta_items h
    · simp at h
  · simp at h

variable (request) in
/-- **One configuration**: it delivers what it should if its failure, should it be reported, keeps
the failed items out; otherwise it leaks, and has not succeeded. -/
theorem process_configuration_spec (c : Configuration P) (delayed : b.Delayed)
    (foreign : b.Foreign c.serial) :
    ∃ (supply : (κ → Bool) → κ → List (Item K)) (supply' : (π → Bool) → π → List (Item K)),
      Delivers b (process_configuration request b c) supply supply' ∧
      (∀ kept k, ∀ x ∈ supply kept k, x.source_serial = c.serial) ∧
      (∀ kept k, ∀ x ∈ supply' kept k, x.source_serial = c.serial) ∧
      (FailureKeeps request b c ∧ (∀ kept k, supply kept k = delivered request kept c k) ∧
          (∀ kept k, supply' kept k = delivered_zeta request kept c k) ∨
        ¬ FailureKeeps request b c ∧ final_attempt request 0 c.attempts = none ∧
          (process_configuration request b c).Leaks c.serial) := by
  unfold FailureKeeps
  have run : ∀ ok, (integrate request c.serial 0 c.attempts b).2 = ok →
      process_configuration request b c = match ok with
        | true => (integrate request c.serial 0 c.attempts b).1
        | false => ((integrate request c.serial 0 c.attempts b).1.report_integration_failure c.serial
            c.expired).unbatch c.serial := by
    rintro ok rfl
    unfold process_configuration
    split <;> simp_all
  obtain ⟨failed, none_final, qs, pushed⟩ | ⟨success, last, a, s, some_final, delivers⟩ :=
    integrate_spec request c.attempts 0 delayed foreign
  · generalize (integrate request c.serial 0 c.attempts b).1 = b₁ at pushed run ⊢
    rw [run false failed, failed]
    have delayed₁ := pushed.delayed delayed
    refine ⟨_, _, pushed.report_failure delayed foreign c.expired, fun _ k x hx => ?_, fun _ k x hx => ?_, ?_⟩
    · exact (mem_written_of_leaked (fun _ => true) hx).1
    · unfold leaked_zeta at hx
      split at hx
      · exact (mem_written_of_leaked (fun _ => true) hx).1
      · simp at hx
    · by_cases keeps : ReportKeeps c.serial c.expired b₁
      · obtain ⟨main, paired⟩ := (reportKeeps_iff delayed₁).mp keeps
        refine .inl ⟨fun _ => keeps, fun kept k => ?_, fun kept k => ?_⟩
        · rw [main, delivered, none_final]
        · rw [paired, delivered_zeta, none_final]
      · exact .inr ⟨fun h => keeps (h rfl), none_final, leaks_of_not_reportKeeps delayed₁ keeps⟩
  · rw [run true success]
    refine ⟨(delivered request · c), (delivered_zeta request · c), ?_, fun _ k x hx => (mem_delivered hx).1,
      fun _ k x hx => (mem_delivered_zeta hx).1, .inl ⟨by simp [success], fun _ _ => rfl, fun _ _ => rfl⟩⟩
    refine delivers.congr (fun kept k => ?_) fun kept k => ?_
    · rw [delivered, some_final]
    · rw [delivered_zeta, some_final]

variable (request) in
/-- **A list of configurations**: the batchers go on delivering, exactly what they should as long as
reports keep failed items out; a report that does not leaves a leak for good. -/
theorem process_all_spec (cs : List (Configuration P)) (delayed : b.Delayed)
    (foreign : ∀ c ∈ cs, b.Foreign c.serial) (distinct : (cs.map (·.serial)).Nodup) :
    (∃ (supply : (κ → Bool) → κ → List (Item K)) (supply' : (π → Bool) → π → List (Item K)),
      Delivers b (cs.foldl (process_configuration request) b) supply supply' ∧
      (∀ kept k, ∀ x ∈ supply kept k, ∃ c ∈ cs, x.source_serial = c.serial) ∧
      ∀ kept k, ∀ x ∈ supply' kept k, ∃ c ∈ cs, x.source_serial = c.serial) ∧
    (ReportsKeep request b cs →
      Delivers b (cs.foldl (process_configuration request) b)
        (fun kept k => cs.flatMap fun c => delivered request kept c k)
        fun kept k => cs.flatMap fun c => delivered_zeta request kept c k) ∧
    (¬ ReportsKeep request b cs → ∃ c ∈ cs, final_attempt request 0 c.attempts = none ∧
      (cs.foldl (process_configuration request) b).Leaks c.serial) := by
  induction cs generalizing b with
  | nil =>
    exact ⟨⟨_, _, Delivers.refl b, by simp, by simp⟩, fun _ => Delivers.refl b,
      fun h => absurd trivial h⟩
  | cons c cs ih =>
    rw [List.map_cons, List.nodup_cons] at distinct
    obtain ⟨supply, supply', first, own, own', keeps⟩ :=
      process_configuration_spec request c delayed (foreign c (by simp))
    have later : ∀ c' ∈ cs, (process_configuration request b c).Foreign c'.serial := by
      intro c' hc'
      have ne : c.serial ≠ c'.serial := fun h => distinct.1 (h ▸ List.mem_map_of_mem hc')
      exact first.foreign (foreign c' (by simp [hc'])) (fun kept k x hx => own kept k x hx ▸ ne)
        fun kept k x hx => own' kept k x hx ▸ ne
    obtain ⟨⟨more, more', rest, mine, mine'⟩, safe, leak⟩ := ih (first.delayed delayed) later distinct.2
    refine ⟨⟨_, _, first.trans rest, fun kept k x hx => ?_, fun kept k x hx => ?_⟩, ?_, ?_⟩
    · obtain hx | hx := List.mem_append.mp hx
      · exact ⟨c, by simp, own kept k x hx⟩
      · obtain ⟨c', hc', same⟩ := mine kept k x hx
        exact ⟨c', by simp [hc'], same⟩
    · obtain hx | hx := List.mem_append.mp hx
      · exact ⟨c, by simp, own' kept k x hx⟩
      · obtain ⟨c', hc', same⟩ := mine' kept k x hx
        exact ⟨c', by simp [hc'], same⟩
    · rintro ⟨keep, keeps_rest⟩
      obtain ⟨-, same, same'⟩ | ⟨lost, -⟩ := keeps
      · exact (first.trans (safe keeps_rest)).congr (fun kept k => by simp [same])
          fun kept k => by simp [same']
      · exact absurd keep lost
    · intro broken
      obtain ⟨keep, -⟩ | ⟨-, failed, leaks⟩ := keeps
      · obtain ⟨c', hc', failed, leaks⟩ := leak fun h => broken ⟨keep, h⟩
        exact ⟨c', by simp [hc'], failed, leaks⟩
      · exact ⟨c, by simp, failed, rest.leaks leaks⟩

/-- Where flushes are delayed already, the start of a work list changes nothing. -/
theorem Delayed.set_flush_mode (h : b.Delayed) : b.set_flush_mode .flush_delayed = b := by
  have main : b.main.set_flush_mode .flush_delayed = b.main := by
    rw [Batcher.set_flush_mode, ← h.main]
  have paired : b.paired.map (·.set_flush_mode .flush_delayed) = b.paired := by
    have same : ∀ p ∈ b.paired, p.set_flush_mode .flush_delayed = id p := by
      intro p hp
      rw [Batcher.set_flush_mode, ← h.paired p hp, id]
    rw [Option.map_congr same, Option.map_id, id]
  rw [IntegrationBatcher.set_flush_mode, main, paired]

/-- The division into work lists does not matter. -/
theorem foldl_backend_process_queue (queues : List (List (Configuration P))) (delayed : b.Delayed)
    (foreign : ∀ c ∈ queues.flatten, b.Foreign c.serial)
    (distinct : (queues.flatten.map (·.serial)).Nodup) :
    queues.foldl (backend_process_queue request) b =
      queues.flatten.foldl (process_configuration request) b := by
  induction queues generalizing b with
  | nil => rfl
  | cons q queues ih =>
    rw [List.flatten_cons, List.map_append, List.nodup_append] at distinct
    obtain ⟨distinct_q, distinct_rest, apart⟩ := distinct
    have foreign_q : ∀ c ∈ q, b.Foreign c.serial := fun c hc => foreign c (by simp [hc])
    obtain ⟨⟨supply, supply', first, own, own'⟩, -, -⟩ :=
      process_all_spec request q delayed foreign_q distinct_q
    have start : backend_process_queue request b q = q.foldl (process_configuration request) b := by
      rw [backend_process_queue, delayed.set_flush_mode]
    rw [List.foldl_cons, start, List.flatten_cons, List.foldl_append]
    refine ih (first.delayed delayed) (fun c hc => ?_) distinct_rest
    have ne : ∀ c' ∈ q, c'.serial ≠ c.serial := fun c' hc' =>
      apart _ (List.mem_map_of_mem hc') _ (List.mem_map_of_mem hc)
    refine first.foreign (foreign c ?_) (fun kept k x hx => ?_) fun kept k x hx => ?_
    · rw [List.flatten_cons, List.mem_append]
      exact .inr hc
    · obtain ⟨c', hc', same⟩ := own kept k x hx
      exact same ▸ ne c' hc'
    · obtain ⟨c', hc', same⟩ := own' kept k x hx
      exact same ▸ ne c' hc'

/-- A batcher that has not been used. -/
structure Fresh (b : IntegrationBatcher κ π K) : Prop where
  /-- Nothing is batched or written. -/
  main : ∀ k, b.main.total k = []
  /-- Nor is it by the partner. -/
  paired : ∀ p ∈ b.paired, ∀ k, p.total k = []

end IntegrationBatcher

/-! ### Whole runs -/

section Runs

open Batcher IntegrationBatcher

variable {κ π K P : Type*} [IntegrationKind κ] [DecidableEq κ] [Fintype κ] [DecidableEq π] [Fintype π]
variable {request : P → Request κ π K} {b b₁ : IntegrationBatcher κ π K} {work : Assignments P}

/-- The condition on a run: no report of failure writes an item of the failed integration. -/
def RunKeeps (request : P → Request κ π K) (b : IntegrationBatcher κ π K) (work : Assignments P) : Prop :=
  ReportsKeep request (b.set_flush_mode .flush_delayed) work.queues.flatten

theorem delayed_set_flush_mode (b : IntegrationBatcher κ π K) : (b.set_flush_mode .flush_delayed).Delayed := by
  refine ⟨rfl, fun p hp => ?_⟩
  obtain ⟨q, -, rfl⟩ := Option.map_eq_some_iff.mp hp
  rfl

theorem IntegrationBatcher.Fresh.foreign (h : b.Fresh) (serial : ℕ) :
    (b.set_flush_mode .flush_delayed).Foreign serial := by
  refine ⟨fun k x hx => ?_, fun p hp k x hx => ?_⟩
  · have none_main : (b.set_flush_mode .flush_delayed).main.total k = [] := h.main k
    simp [none_main] at hx
  · obtain ⟨q, hq, rfl⟩ := Option.map_eq_some_iff.mp hp
    have none_paired : (q.set_flush_mode .flush_delayed).total k = [] := h.paired q hq k
    simp [none_paired] at hx

variable (request) in
/-- A run over at least one work list is a run over their concatenation. -/
theorem run_worker_eq (fresh : b.Fresh) (some_list : work.queues ≠ []) :
    run_worker request b work = (work.queues.flatten.foldl (process_configuration request)
      (b.set_flush_mode .flush_delayed)).close := by
  have delayed := delayed_set_flush_mode b
  have distinct := work.distinct
  rw [← foldl_backend_process_queue work.queues delayed (fun c _ => fresh.foreign c.serial) distinct,
    run_worker]
  cases hq : work.queues with
  | nil => exact absurd hq some_list
  | cons q queues =>
    rw [List.foldl_cons, List.foldl_cons, backend_process_queue, backend_process_queue,
      delayed.set_flush_mode]

/-- Closing a batcher writes all that is pending. -/
theorem exactlyOnce_of_delivers (fresh : b.Fresh) (run : run_worker request b work = b₁.close)
    (h : Delivers (b.set_flush_mode .flush_delayed) b₁
      (fun kept k => work.queues.flatten.flatMap fun c => delivered request kept c k)
      fun kept k => work.queues.flatten.flatMap fun c => delivered_zeta request kept c k) :
    ExactlyOnce request b work := by
  rw [ExactlyOnce, run]
  refine ⟨fun k => List.Perm.of_eq ?_, fun p hp k => List.Perm.of_eq ?_⟩
  · have none_main : (b.set_flush_mode .flush_delayed).main.total k = [] := fresh.main k
    calc b₁.close.main.written k = b₁.main.total k := rfl
      _ = _ := by rw [h.main.total, none_main, List.nil_append]; rfl
  · obtain ⟨q, hq, rfl⟩ := Option.map_eq_some_iff.mp hp
    obtain ⟨q₀, hq₀, supplied⟩ := exists_of_rel_right h.paired hq
    obtain ⟨q', hq', rfl⟩ := Option.map_eq_some_iff.mp hq₀
    have none_paired : (q'.set_flush_mode .flush_delayed).total k = [] := fresh.paired q' hq' k
    have kept : q.flush.kept = (q'.set_flush_mode .flush_delayed).kept := supplied.kept
    calc q.flush.written k = q.total k := rfl
      _ = _ := by rw [supplied.total, none_paired, List.nil_append, kept]

theorem IntegrationBatcher.Leaks.close {serial : ℕ} (h : b.Leaks serial) : b.close.Leaks serial := by
  obtain ⟨k, x, hx, same⟩ | ⟨p, hp, k, x, hx, same⟩ := h
  · exact .inl ⟨k, x, List.mem_append_left _ hx, same⟩
  · exact .inr ⟨p.flush, Option.map_eq_some_iff.mpr ⟨p, hp, rfl⟩, k, x, List.mem_append_left _ hx, same⟩

/-- An item of a configuration that has failed belongs in no container. -/
theorem not_exactlyOnce_of_leaks {c : Configuration P} (hc : c ∈ work.queues.flatten)
    (failed : final_attempt request 0 c.attempts = none)
    (leaks : (run_worker request b work).Leaks c.serial) : ¬ ExactlyOnce request b work := by
  rintro ⟨main, paired⟩
  have one : ∀ c' ∈ work.queues.flatten, c'.serial = c.serial → c' = c := fun c' hc' same =>
    List.inj_on_of_nodup_map work.distinct hc' hc same
  obtain ⟨k, x, hx, same⟩ | ⟨p, hp, k, x, hx, same⟩ := leaks
  · obtain ⟨c', hc', hx⟩ := List.mem_flatMap.mp ((main k).subset hx)
    obtain ⟨same', final⟩ := mem_delivered hx
    exact final (one c' hc' (same'.symm.trans same) ▸ failed)
  · obtain ⟨c', hc', hx⟩ := List.mem_flatMap.mp ((paired p hp k).subset hx)
    obtain ⟨same', final⟩ := mem_delivered_zeta hx
    exact final (one c' hc' (same'.symm.trans same) ▸ failed)

/-- **Exactly once, exactly when**: a new batcher delivers what it should over a run if and only if
no report of failure writes an item of the failed integration. -/
theorem exactlyOnce_iff_runKeeps (fresh : b.Fresh) (work : Assignments P) :
    ExactlyOnce request b work ↔ RunKeeps request b work := by
  have delayed := delayed_set_flush_mode b
  obtain ⟨-, safe, leak⟩ := process_all_spec request work.queues.flatten delayed
    (fun c _ => fresh.foreign c.serial) work.distinct
  by_cases some_list : work.queues = []
  · have idle : run_worker request b work = b.close := by rw [run_worker, some_list, List.foldl_nil]
    have keeps : RunKeeps request b work := by
      rw [RunKeeps, some_list]
      exact trivial
    refine iff_of_true ⟨fun k => ?_, fun p hp k => ?_⟩ keeps
    · rw [idle, some_list]
      exact List.Perm.of_eq (fresh.main k)
    · rw [idle] at hp
      obtain ⟨q, hq, rfl⟩ := Option.map_eq_some_iff.mp hp
      rw [some_list]
      exact List.Perm.of_eq (fresh.paired q hq k)
  · have run := run_worker_eq request fresh some_list
    constructor
    · intro once
      by_contra broken
      obtain ⟨c, hc, failed, leaks⟩ := leak broken
      exact not_exactlyOnce_of_leaks hc failed (run ▸ leaks.close) once
    · intro keeps
      exact exactlyOnce_of_delivers fresh run (safe keeps)

end Runs

section Tasks

variable {K : Type*} (c : Setup) (agent : ComputeAgent K) (is_paired : Bool)

theorem TwopfBatcher.fresh_create :
    (TwopfBatcher.create c is_paired : IntegrationBatcher TwopfKind ZetaTwopfKind K).Fresh := by
  refine ⟨fun k => ?_, fun p hp k => ?_⟩
  · exact Batcher.total_create _ _ _ k
  · cases is_paired with
    | true =>
      obtain rfl := Option.mem_some_iff.mp hp
      exact Batcher.total_create _ _ _ k
    | false => cases hp

theorem ThreepfBatcher.fresh_create :
    (ThreepfBatcher.create c is_paired : IntegrationBatcher ThreepfKind ZetaThreepfKind K).Fresh := by
  refine ⟨fun k => ?_, fun p hp k => ?_⟩
  · exact Batcher.total_create _ _ _ k
  · cases is_paired with
    | true =>
      obtain rfl := Option.mem_some_iff.mp hp
      exact Batcher.total_create _ _ _ k
    | false => cases hp

/-- **Delivery by the integration batchers**, of twopf and threepf tasks, paired or not. -/
theorem exactly_once_iff :
    (∀ work : Assignments (TwopfBatcher.Push K),
      ExactlyOnce (TwopfBatcher.request c agent) (TwopfBatcher.create c is_paired) work ↔
        RunKeeps (TwopfBatcher.request c agent) (TwopfBatcher.create c is_paired) work) ∧
    ∀ work : Assignments (ThreepfBatcher.Push K),
      ExactlyOnce (ThreepfBatcher.request c agent) (ThreepfBatcher.create c is_paired) work ↔
        RunKeeps (ThreepfBatcher.request c agent) (ThreepfBatcher.create c is_paired) work :=
  ⟨exactlyOnce_iff_runKeeps (TwopfBatcher.fresh_create c is_paired),
    exactlyOnce_iff_runKeeps (ThreepfBatcher.fresh_create c is_paired)⟩

/-! ### A failure that is written -/

/-- One field, no statistics, no initial conditions, and room for many items. -/
def smallSetup : Setup where
  Nfields := 1
  capacity := 1048576
  zeta_capacity := 1048576
  collect_statistics := false
  collect_initial_conditions := false
  sizeof_unsigned_int := 4
  sizeof_size_t := 8
  sizeof_nanosecond_type := 8
  sizeof_number := 8

/-- A gauge transformation that does not matter here. -/
def zeroAgent : ComputeAgent ℤ := ⟨fun _ _ => (0, []), fun _ => [], fun _ => (0, 0, [], [], [])⟩

/-- One configuration, which stores a background sample, throws a `runtime_exception`, and is reported
when the checkpoint interval has expired. -/
def expiredFailure : Assignments (TwopfBatcher.Push ℤ) where
  queues := [[⟨7, [⟨[.backg 0 [1, 0]], .throws .runtime_exception⟩], ⟨true, false, false⟩⟩]]
  distinct := by decide

/-- The background sample of the failed configuration stays in the container. -/
theorem expiredFailure_delivers :
    (run_worker (TwopfBatcher.request smallSetup zeroAgent) (TwopfBatcher.create smallSetup false)
      expiredFailure).main.written .backg = [⟨7, .background 0 [1, 0]⟩] ∧
    ¬ ExactlyOnce (TwopfBatcher.request smallSetup zeroAgent) (TwopfBatcher.create smallSetup false)
      expiredFailure := by
  have written : (run_worker (TwopfBatcher.request smallSetup zeroAgent)
      (TwopfBatcher.create smallSetup false) expiredFailure).main.written .backg =
        [⟨7, .background 0 [1, 0]⟩] := by decide
  have expected : (expiredFailure.queues.flatten.flatMap fun c =>
      delivered (TwopfBatcher.request smallSetup zeroAgent) (TwopfBatcher.kept smallSetup) c .backg) = [] := by
    decide
  refine ⟨written, fun once => ?_⟩
  have perm := once.1 .backg
  rw [written] at perm
  exact absurd (perm.trans (List.Perm.of_eq expected)).length_eq (by decide)

end Tasks

end CppTransport.Runtime
