import CppTransport.Library.Transition
import CppTransport.Runtime.TransactionManager

/-!
# The transaction counter

A repository counts its open transactions, and opens none while one is open. The counter
goes up in `generate_transaction_manager` before the `transaction_manager` is constructed,
and down when the manager releases its handler.

## The model

* `State`: the counter, the lockfile, whether the database is in a transaction, and all
  managers that have been constructed;
* `transaction_factory`, `commit`, `rollback`, `destroy`: they return the state that they
  leave and what they throw. As in SQLite, `COMMIT` and `ROLLBACK` fail outside a transaction,
  and `BEGIN` fails inside one;
* `Event`: what the program calls, and what other processes do to the lockfile.

## What is proved

* `step_iff`: what one call must not do for the counter to stay the number of managers that
  are open, and for a failed opening to leave no trace;
* `counter_exact_iff`: the same along every history.
-/

namespace CppTransport.Runtime.TransactionCounter

open Library Library.System Transactions

def CPPTRANSPORT_TRANSACTION_UNDERWAY : String :=
  "Repository error: attempt to begin a new transaction while one is already underway"

def CPPTRANSPORT_TRANSACTION_OVER_RELEASE : String := "Internal error: over-release of transaction"

/-- A `transaction_manager`, and whether it has been destroyed. -/
structure Manager where
  magic_string : String
  committed : Bool
  dead : Bool
  /-- Its `release` has returned. -/
  released : Bool
  live : Bool
deriving DecidableEq

/-- A repository, its managers in the order of construction, and the lockfile. -/
structure State where
  /-- Where the lockfile is. -/
  path : String
  transactions : ℕ
  /-- The first word of the lockfile, if it is there. -/
  lockfile : Option String
  in_transaction : Bool
  managers : List Manager
deriving DecidableEq

/-- What the program does not decide when it opens a transaction. -/
structure Opening where
  /-- Before this look at the lockfile, another process removes it. -/
  freed : Option ℕ
  /-- The clock. -/
  now : String
  begin_fails : Bool

namespace State

variable (s : State)

/-! ### The handler -/

/-- `begin_transaction`. -/
def begin_transaction (fails : Bool) : Option State :=
  if s.in_transaction || fails then none else some { s with in_transaction := true }

/-- `commit_transaction`. -/
def commit_transaction (fails : Bool) : Option State :=
  if !s.in_transaction || fails then none else some { s with in_transaction := false }

/-- `abort_transaction`. -/
def abort_transaction : Option State :=
  if !s.in_transaction then none else some { s with in_transaction := false }

/-- `release_transaction`. -/
def release_transaction : Except Transactions.Thrown State :=
  if s.transactions = 0 then .error (.transaction_error CPPTRANSPORT_TRANSACTION_OVER_RELEASE)
  else .ok { s with transactions := s.transactions - 1 }

/-! ### Opening -/

/-- The lockfile at one of the looks of the constructor. -/
def looked (o : Opening) (look : ℕ) : Option String := if o.freed.any (· ≤ look) then none else s.lockfile

/-- Some look of the constructor finds no lockfile. -/
def finds_unlocked (o : Opening) : Bool :=
  (List.range CPPTRANSPORT_DEFAULT_LOCKFILE_ATTEMPTS).any fun look => (s.looked o look).isNone

/-- `transaction_manager::transaction_manager`. -/
def construct (o : Opening) : State × Option Transactions.Thrown :=
  if s.finds_unlocked o then
    let s := { s with lockfile := some o.now }
    match s.begin_transaction o.begin_fails with
    | some s => ({ s with managers := s.managers ++ [⟨o.now, false, false, false, true⟩] }, none)
    | none => (s, some .handler_error)
  else (s, some (.transaction_error CPPTRANSPORT_TRANSACTION_NO_LOCK))

/-- `transaction_factory`, through `generate_transaction_manager`. -/
def transaction_factory (o : Opening) : State × Option Transactions.Thrown :=
  if 0 < s.transactions then (s, some (.transaction_error CPPTRANSPORT_TRANSACTION_UNDERWAY))
  else { s with transactions := s.transactions + 1 }.construct o

/-! ### Ending -/

/-- The manager `m` becomes `u`. -/
def update (m : ℕ) (u : Manager) : State := { s with managers := s.managers.set m u }

/-- `release` of the manager `m`, which is `u`; the rest follows if it does not throw. -/
def release (m : ℕ) (u : Manager) (rest : State → State × Option Transactions.Thrown) :
    State × Option Transactions.Thrown :=
  match s.release_transaction with
  | .ok s => rest (s.update m { u with released := true })
  | .error e => (s.update m u, some e)

/-- `transaction_manager::commit` where the lock is lost. -/
def lost_lock (m : ℕ) (u : Manager) (message : String) : State × Option Transactions.Thrown :=
  match s.abort_transaction with
  | some s => s.release m u fun s => (s, some (.transaction_error message))
  | none => (s, some .handler_error)

/-- `transaction_manager::commit`. -/
def commit (m : ℕ) (u : Manager) (journal_fails commit_fails : Bool) : State × Option Transactions.Thrown :=
  if s.lockfile = none then s.lost_lock m u (CPPTRANSPORT_TRANSACTION_LOST_LOCK ++ " [" ++ s.path ++ "]\n")
  else if s.lockfile ≠ some u.magic_string then s.lost_lock m u CPPTRANSPORT_TRANSACTION_LOST_LOCK
  else if journal_fails then (s, some .filesystem_error)
  else
    match s.commit_transaction commit_fails with
    | some s => s.release m { u with committed := true } fun s => ({ s with lockfile := none }, none)
    | none => (s, some .handler_error)

/-- `transaction_manager::rollback`. -/
def rollback (m : ℕ) (u : Manager) : State × Option Transactions.Thrown :=
  match s.abort_transaction with
  | some s => s.release m { u with dead := true } fun s =>
      if s.lockfile ≠ some u.magic_string then (s, some (.transaction_error CPPTRANSPORT_TRANSACTION_LOST_LOCK))
      else ({ s with lockfile := none }, none)
  | none => (s, some .handler_error)

/-- `transaction_manager::~transaction_manager`; what `rollback` throws is swallowed. -/
def destroy (m : ℕ) (u : Manager) : State :=
  (if !u.committed && !u.dead then (s.rollback m u).1 else s).update m { u with live := false }

end State

/-! ### Histories -/

/-- A call, or a step of another process. -/
inductive Event where
  | transaction_factory (o : Opening)
  | commit (m : ℕ) (journal_fails commit_fails : Bool)
  | rollback (m : ℕ)
  | destroy (m : ℕ)
  /-- Another process creates, replaces or removes the lockfile. -/
  | other (lockfile : Option String)

namespace State

variable (s : State)

/-- The manager `m`, if it has not been destroyed. -/
def manager (m : ℕ) : Option Manager := s.managers[m]?.filter (·.live)

/-- The state after an event; there is nothing to call on a manager that is no more. -/
def after : Event → State
  | .transaction_factory o => (s.transaction_factory o).1
  | .commit m journal_fails commit_fails =>
    ((s.manager m).map fun u => (s.commit m u journal_fails commit_fails).1).getD s
  | .rollback m => ((s.manager m).map fun u => (s.rollback m u).1).getD s
  | .destroy m => ((s.manager m).map fun u => s.destroy m u).getD s
  | .other lockfile => { s with lockfile := lockfile }

/-- A repository object with the lockfile that it finds. -/
def start (path : String) (lockfile : Option String) : State := ⟨path, 0, lockfile, false, []⟩

end State

/-- The transaction of the manager has not been released. -/
def Manager.is_open (u : Manager) : Bool := u.live && !u.released

namespace State

variable (s : State)

/-- How many transactions have not been released. -/
def unreleased : ℕ := s.managers.countP Manager.is_open

/-- The counter is the number of open transactions, of which there is one at most. -/
def Exact : Prop := s.transactions = s.unreleased ∧ s.unreleased ≤ 1

/-- When no other process holds the lock, and `BEGIN` succeeds, a transaction can be opened. -/
def Retries : Prop := ∀ now, ({ s with lockfile := none }.transaction_factory ⟨none, now, false⟩).2 = none

/-- After the event the counter is exact; an opening that fails leaves counter and lockfile as they were, and
can be tried again. -/
def Meets : Event → Prop
  | .transaction_factory o => (s.after (.transaction_factory o)).Exact ∧
      ((s.transaction_factory o).2 ≠ none →
        (s.transaction_factory o).1.transactions = s.transactions ∧
          (s.transaction_factory o).1.lockfile = s.lockfile ∧
          (s.transactions = 0 → (s.transaction_factory o).1.Retries))
  | e => (s.after e).Exact

/-- An opening finds no lockfile, and its `BEGIN` succeeds. A manager whose transaction has ended is not used again
while another transaction is open: not to commit (unless the commit throws before it has ended the other one, which
takes the same text in the lockfile), not to roll back, and not to be destroyed after it lost the lock. -/
def Permits : Event → Prop
  | .transaction_factory o => s.transactions = 0 → s.finds_unlocked o = true ∧ o.begin_fails = false
  | .commit m journal_fails commit_fails => ∀ u, s.manager m = some u → u.released = true → s.transactions ≠ 0 →
      s.lockfile = some u.magic_string ∧ (journal_fails = true ∨ commit_fails = true)
  | .rollback m => ∀ u, s.manager m = some u → u.released = true → s.transactions = 0
  | .destroy m => ∀ u, s.manager m = some u → u.released = true → s.transactions ≠ 0 →
      u.committed = true ∨ u.dead = true
  | .other _ => True

/-! ### One event -/

/-- What holds before and after events that are permitted. -/
structure Consistent (s : State) : Prop where
  exact : s.Exact
  /-- The database is in a transaction while one is open. -/
  database : s.in_transaction = true ↔ s.transactions = 1
  /-- A transaction that has been committed or rolled back has been released. -/
  released : ∀ u ∈ s.managers, u.committed = true ∨ u.dead = true → u.is_open = false

variable {s} {m : ℕ} {u v : Manager}

theorem manager_eq_some_iff : s.manager m = some u ↔ s.managers[m]? = some u ∧ u.live = true := by
  rw [manager, Option.filter_eq_some_iff]

/-- Changing one manager changes the number of open transactions by that one. -/
theorem unreleased_update (h : s.managers[m]? = some u) :
    (s.update m v).unreleased + (if u.is_open then 1 else 0) = s.unreleased + if v.is_open then 1 else 0 := by
  obtain ⟨lt, eq⟩ := List.getElem?_eq_some_iff.mp h
  have hu : (if u.is_open then 1 else 0) ≤ s.unreleased := by
    split_ifs with open_
    · exact List.countP_pos_iff.mpr ⟨u, List.mem_of_getElem? h, open_⟩
    · exact Nat.zero_le _
  rw [unreleased, update, List.countP_set lt, eq]
  simp only [unreleased] at hu ⊢
  omega

/-- Changing a manager that is not open matters only if it is open afterwards. -/
theorem exact_update_iff (h : s.managers[m]? = some u) (closed : u.is_open = false) (closed' : v.is_open = false) :
    (s.update m v).Exact ↔ s.Exact := by
  have same := unreleased_update (v := v) h
  simp only [closed, closed', Bool.false_eq_true, if_false, Nat.add_zero] at same
  rw [Exact, Exact, same]
  rfl

/-- The database after the transaction of `m` has ended. -/
def ended (s : State) (m : ℕ) (u : Manager) (committed dead : Bool) (lockfile : Option String) : State :=
  { s with transactions := 0, lockfile := lockfile, in_transaction := false }.update m
    { u with committed := committed, dead := dead, released := true }

/-- Outside a transaction, a commit throws at once. -/
theorem commit_of_no_transaction (h : s.in_transaction = false) (journal_fails commit_fails : Bool) :
    (s.commit m u journal_fails commit_fails).1 = s := by
  simp only [commit, lost_lock, abort_transaction, commit_transaction, h]
  split_ifs <;> simp_all

theorem rollback_of_no_transaction (h : s.in_transaction = false) : (s.rollback m u).1 = s := by
  simp [rollback, abort_transaction, h]

theorem lost_lock_of_transaction (h : s.in_transaction = true) (one : s.transactions = 1) (message : String) :
    (s.lost_lock m u message).1 = s.ended m u u.committed u.dead s.lockfile := by
  simp [lost_lock, abort_transaction, release, release_transaction, h, one, ended, update]

/-- A commit ends the transaction that is open, unless the journal or `COMMIT` throws. -/
theorem commit_of_transaction (h : s.in_transaction = true) (one : s.transactions = 1)
    (journal_fails commit_fails : Bool) :
    ((s.lockfile = some u.magic_string ∧ (journal_fails = true ∨ commit_fails = true)) ∧
        (s.commit m u journal_fails commit_fails).1 = s) ∨
      (¬ (s.lockfile = some u.magic_string ∧ (journal_fails = true ∨ commit_fails = true)) ∧
        ∃ committed lockfile,
          (s.commit m u journal_fails commit_fails).1 = s.ended m u committed u.dead lockfile) := by
  by_cases gone : s.lockfile = none
  · refine .inr ⟨by simp [gone], u.committed, s.lockfile, ?_⟩
    rw [← lost_lock_of_transaction h one, commit, if_pos gone]
  by_cases own : s.lockfile = some u.magic_string
  · cases journal_fails with
    | true => exact .inl ⟨⟨own, .inl rfl⟩, by simp [commit, own]⟩
    | false =>
      cases commit_fails with
      | true => exact .inl ⟨⟨own, .inr rfl⟩, by simp [commit, own, commit_transaction]⟩
      | false =>
        refine .inr ⟨by simp, true, none, ?_⟩
        simp [commit, own, commit_transaction, h, release, release_transaction, one, ended, update]
  · refine .inr ⟨by simp [own], u.committed, s.lockfile, ?_⟩
    rw [← lost_lock_of_transaction h one, commit, if_neg gone, if_pos own]

/-- A rollback ends the transaction that is open. -/
theorem rollback_of_transaction (h : s.in_transaction = true) (one : s.transactions = 1) :
    ∃ lockfile, (s.rollback m u).1 = s.ended m u u.committed true lockfile := by
  by_cases own : s.lockfile = some u.magic_string
  · refine ⟨none, ?_⟩
    simp [rollback, abort_transaction, h, release, release_transaction, one, ended, update, own]
  · refine ⟨s.lockfile, ?_⟩
    simp [rollback, abort_transaction, h, release, release_transaction, one, ended, update, own]

theorem getElem?_ended (h : s.managers[m]? = some u) (committed dead : Bool) (lockfile : Option String) :
    (s.ended m u committed dead lockfile).managers[m]? =
      some { u with committed := committed, dead := dead, released := true } := by
  obtain ⟨lt, -⟩ := List.getElem?_eq_some_iff.mp h
  simp [ended, update, lt]

/-- The end of a transaction takes the manager off the open ones, if it was one of them. -/
theorem unreleased_ended (h : s.managers[m]? = some u) (committed dead : Bool) (lockfile : Option String) :
    (s.ended m u committed dead lockfile).unreleased + (if u.is_open then 1 else 0) = s.unreleased := by
  have := unreleased_update (v := { u with committed := committed, dead := dead, released := true }) h
  simp only [Manager.is_open, Bool.not_true, Bool.and_false] at this
  exact this

namespace Consistent

theorem transactions_le (h : s.Consistent) : s.transactions ≤ 1 := h.exact.1 ▸ h.exact.2

theorem no_transaction (h : s.Consistent) (zero : s.transactions = 0) : s.in_transaction = false := by
  simpa [zero] using h.database

/-- While a manager is open, it is the only one. -/
theorem open_iff (h : s.Consistent) (hu : s.managers[m]? = some u) (open_ : u.is_open = true) :
    s.unreleased = 1 ∧ s.transactions = 1 ∧ s.in_transaction = true := by
  have pos : 0 < s.unreleased := List.countP_pos_iff.mpr ⟨u, List.mem_of_getElem? hu, open_⟩
  have one : s.unreleased = 1 := by
    have := h.exact.2
    omega
  exact ⟨one, h.exact.1.trans one, h.database.mpr (h.exact.1.trans one)⟩

/-- Changing a manager that is not open keeps the state consistent, if it is not open afterwards. -/
theorem update (h : s.Consistent) (hu : s.managers[m]? = some u) (closed : u.is_open = false)
    (closed' : v.is_open = false) : (s.update m v).Consistent := by
  refine ⟨(exact_update_iff hu closed closed').mpr h.exact, h.database, fun w hw ended => ?_⟩
  rcases List.mem_or_eq_of_mem_set hw with old | rfl
  · exact h.released w old ended
  · exact closed'

/-- The end of the one open transaction keeps the state consistent; an end that closes no transaction does not. -/
theorem ended (h : s.Consistent) (hu : s.managers[m]? = some u) (one : s.transactions = 1)
    (committed dead : Bool) (lockfile : Option String) :
    ((s.ended m u committed dead lockfile).Exact ↔ u.is_open = true) ∧
      (u.is_open = true → (s.ended m u committed dead lockfile).Consistent) := by
  have count := unreleased_ended hu committed dead lockfile
  have unreleased : s.unreleased = 1 := h.exact.1.symm.trans one
  have exact_iff : (s.ended m u committed dead lockfile).Exact ↔ u.is_open = true := by
    have zero : (s.ended m u committed dead lockfile).transactions = 0 := rfl
    rw [Exact, zero]
    cases hopen : u.is_open
    · simp only [hopen, Bool.false_eq_true, if_false, iff_false] at count ⊢
      omega
    · simp only [hopen, if_true, iff_true] at count ⊢
      omega
  refine ⟨exact_iff, fun open_ => ⟨exact_iff.mpr open_, ?_, fun w hw flags => ?_⟩⟩
  · simp [State.ended, State.update]
  · rcases List.mem_or_eq_of_mem_set hw with old | rfl
    · exact h.released w old flags
    · simp [Manager.is_open]

/-- What is permitted of an opening is that it does not fail, unless another transaction is open. -/
theorem transaction_factory (h : s.Consistent) (o : Opening) :
    (s.Meets (.transaction_factory o) ↔ s.Permits (.transaction_factory o)) ∧
      (s.Permits (.transaction_factory o) → (s.after (.transaction_factory o)).Consistent) := by
  rcases Nat.le_one_iff_eq_zero_or_eq_one.mp h.transactions_le with zero | one
  · by_cases permitted : s.finds_unlocked o = true ∧ o.begin_fails = false
    · have opened : s.transaction_factory o = ({ s with
          transactions := 1, lockfile := some o.now, in_transaction := true,
          managers := s.managers ++ [⟨o.now, false, false, false, true⟩] }, none) := by
        rw [State.transaction_factory, zero, if_neg (Nat.lt_irrefl 0), construct]
        have unlocked : ({ s with transactions := 0 + 1 } : State).finds_unlocked o = true := permitted.1
        rw [if_pos unlocked]
        simp [begin_transaction, permitted.2, h.no_transaction zero]
      have none_open : s.unreleased = 0 := h.exact.1 ▸ zero
      have consistent : (s.after (.transaction_factory o)).Consistent := by
        rw [after, opened]
        refine ⟨?_, by simp, fun w hw flags => ?_⟩
        · have one : (s.managers ++ [(⟨o.now, false, false, false, true⟩ : Manager)]).countP Manager.is_open = 1 := by
            rw [unreleased] at none_open
            rw [List.countP_append, none_open]
            rfl
          exact ⟨one.symm, Nat.le_of_eq one⟩
        · rcases List.mem_append.mp hw with old | new
          · exact h.released w old flags
          · rw [List.mem_singleton.mp new] at flags
            simp at flags
      refine ⟨⟨fun _ _ => permitted, fun _ => ⟨consistent.exact, fun failed => ?_⟩⟩, fun _ => consistent⟩
      exact absurd (congrArg (·.2) opened) failed
    · -- the counter has gone up, and nothing takes it down again
      have fails : (s.transaction_factory o).2 ≠ none ∧ (s.transaction_factory o).1.transactions = 1 := by
        rw [State.transaction_factory, zero, if_neg (Nat.lt_irrefl 0), construct]
        by_cases unlocked : ({ s with transactions := 0 + 1 } : State).finds_unlocked o = true
        · have begin_fails : o.begin_fails = true := by
            by_contra begins
            exact permitted ⟨unlocked, Bool.not_eq_true _ ▸ begins⟩
          simp [unlocked, begin_transaction, begin_fails]
        · simp [unlocked]
      refine ⟨⟨fun meets => ?_, fun permits => absurd (permits zero) permitted⟩,
        fun permits => absurd (permits zero) permitted⟩
      have := (meets.2 fails.1).1
      rw [fails.2, zero] at this
      exact absurd this Nat.one_ne_zero
  · have underway : s.transaction_factory o = (s, some (.transaction_error CPPTRANSPORT_TRANSACTION_UNDERWAY)) := by
      rw [State.transaction_factory, if_pos (by omega)]
    have not_zero : s.transactions ≠ 0 := by omega
    rw [Meets, Permits, after, underway]
    exact ⟨⟨fun _ zero => absurd zero not_zero,
      fun _ => ⟨h.exact, fun _ => ⟨rfl, rfl, fun zero => absurd zero not_zero⟩⟩⟩, fun _ => h⟩

/-- What is permitted of a commit. -/
theorem commit (h : s.Consistent) (m : ℕ) (journal_fails commit_fails : Bool) :
    (s.Meets (.commit m journal_fails commit_fails) ↔ s.Permits (.commit m journal_fails commit_fails)) ∧
      (s.Permits (.commit m journal_fails commit_fails) →
        (s.after (.commit m journal_fails commit_fails)).Consistent) := by
  cases hm : s.manager m with
  | none =>
    simp only [Meets, Permits, after, hm, Option.map_none, Option.getD_none]
    exact ⟨⟨fun _ _ none => by simp at none, fun _ => h.exact⟩, fun _ => h⟩
  | some u =>
    obtain ⟨hu, live⟩ := manager_eq_some_iff.mp hm
    simp only [Meets, Permits, after, hm, Option.map_some, Option.getD_some, Option.some.injEq, forall_eq']
    rcases Nat.le_one_iff_eq_zero_or_eq_one.mp h.transactions_le with zero | one
    · rw [commit_of_no_transaction (h.no_transaction zero)]
      exact ⟨⟨fun _ _ nonzero => absurd zero nonzero, fun _ => h.exact⟩, fun _ => h⟩
    · rcases commit_of_transaction (m := m) (u := u) (h.database.mpr one) one journal_fails commit_fails with
        ⟨throws, eq⟩ | ⟨goes_on, committed, lockfile, eq⟩
      · rw [eq]
        exact ⟨⟨fun _ _ _ => throws, fun _ => h.exact⟩, fun _ => h⟩
      · have ends := h.ended hu one committed u.dead lockfile
        have open_iff : u.is_open = true ↔ (u.released = true → s.transactions ≠ 0 →
            s.lockfile = some u.magic_string ∧ (journal_fails = true ∨ commit_fails = true)) := by
          cases hr : u.released <;> simp [Manager.is_open, live, hr, goes_on, one]
        rw [eq, ends.1, open_iff]
        exact ⟨Iff.rfl, fun permitted => ends.2 (open_iff.mpr permitted)⟩

/-- What is permitted of a rollback. -/
theorem rollback (h : s.Consistent) (m : ℕ) :
    (s.Meets (.rollback m) ↔ s.Permits (.rollback m)) ∧
      (s.Permits (.rollback m) → (s.after (.rollback m)).Consistent) := by
  cases hm : s.manager m with
  | none =>
    simp only [Meets, Permits, after, hm, Option.map_none, Option.getD_none]
    exact ⟨⟨fun _ _ none => by simp at none, fun _ => h.exact⟩, fun _ => h⟩
  | some u =>
    obtain ⟨hu, live⟩ := manager_eq_some_iff.mp hm
    simp only [Meets, Permits, after, hm, Option.map_some, Option.getD_some, Option.some.injEq, forall_eq']
    rcases Nat.le_one_iff_eq_zero_or_eq_one.mp h.transactions_le with zero | one
    · rw [rollback_of_no_transaction (h.no_transaction zero)]
      exact ⟨⟨fun _ _ => zero, fun _ => h.exact⟩, fun _ => h⟩
    · obtain ⟨lockfile, eq⟩ := rollback_of_transaction (m := m) (u := u) (h.database.mpr one) one
      have ends := h.ended hu one u.committed true lockfile
      have open_iff : u.is_open = true ↔ (u.released = true → s.transactions = 0) := by
        cases hr : u.released <;> simp [Manager.is_open, live, hr, one]
      rw [eq, ends.1, open_iff]
      exact ⟨Iff.rfl, fun permitted => ends.2 (open_iff.mpr permitted)⟩

/-- What is permitted of a destruction. -/
theorem destroy (h : s.Consistent) (m : ℕ) :
    (s.Meets (.destroy m) ↔ s.Permits (.destroy m)) ∧
      (s.Permits (.destroy m) → (s.after (.destroy m)).Consistent) := by
  cases hm : s.manager m with
  | none =>
    simp only [Meets, Permits, after, hm, Option.map_none, Option.getD_none]
    exact ⟨⟨fun _ _ none => by simp at none, fun _ => h.exact⟩, fun _ => h⟩
  | some u =>
    obtain ⟨hu, live⟩ := manager_eq_some_iff.mp hm
    simp only [Meets, Permits, after, hm, Option.map_some, Option.getD_some, Option.some.injEq, forall_eq']
    by_cases flags : u.committed = true ∨ u.dead = true
    · -- the transaction has ended in order
      have quiet : s.destroy m u = s.update m { u with live := false } := by
        rcases flags with flag | flag <;> simp [State.destroy, flag]
      have closed := h.update (v := { u with live := false }) hu (h.released u (List.mem_of_getElem? hu) flags) rfl
      rw [quiet]
      exact ⟨⟨fun _ _ _ => flags, fun _ => closed.exact⟩, fun _ => closed⟩
    · have rolls_back : s.destroy m u = (s.rollback m u).1.update m { u with live := false } := by
        rw [not_or, Bool.not_eq_true, Bool.not_eq_true] at flags
        simp [State.destroy, flags.1, flags.2]
      rw [rolls_back]
      rcases Nat.le_one_iff_eq_zero_or_eq_one.mp h.transactions_le with zero | one
      · have closed : u.is_open = false := by
          by_contra open_
          have := (h.open_iff hu (Bool.not_eq_false _ ▸ open_)).2.1
          omega
        rw [rollback_of_no_transaction (h.no_transaction zero)]
        have after := h.update (v := { u with live := false }) hu closed rfl
        exact ⟨⟨fun _ _ nonzero => absurd zero nonzero, fun _ => after.exact⟩, fun _ => after⟩
      · obtain ⟨lockfile, eq⟩ := rollback_of_transaction (m := m) (u := u) (h.database.mpr one) one
        have ends := h.ended hu one u.committed true lockfile
        have hu' := getElem?_ended hu u.committed true lockfile
        have open_iff : u.is_open = true ↔
            (u.released = true → s.transactions ≠ 0 → u.committed = true ∨ u.dead = true) := by
          cases hr : u.released <;> simp [Manager.is_open, live, hr, one, flags]
        have exact_iff : ((s.ended m u u.committed true lockfile).update m { u with live := false }).Exact ↔
            (s.ended m u u.committed true lockfile).Exact :=
          exact_update_iff hu' (by simp [Manager.is_open]) rfl
        rw [eq, exact_iff, ends.1, open_iff]
        exact ⟨Iff.rfl, fun permitted => (ends.2 (open_iff.mpr permitted)).update hu' (by simp [Manager.is_open]) rfl⟩

/-- **One event**: it does what it should if and only if it is permitted, and then the state stays consistent. -/
theorem step_iff (h : s.Consistent) (e : Event) :
    (s.Meets e ↔ s.Permits e) ∧ (s.Permits e → (s.after e).Consistent) := by
  cases e with
  | transaction_factory o => exact h.transaction_factory o
  | commit m journal_fails commit_fails => exact h.commit m journal_fails commit_fails
  | rollback m => exact h.rollback m
  | destroy m => exact h.destroy m
  | other lockfile =>
    have consistent : (s.after (.other lockfile)).Consistent := ⟨h.exact, h.database, h.released⟩
    exact ⟨⟨fun _ => trivial, fun _ => consistent.exact⟩, fun _ => consistent⟩

end Consistent

theorem consistent_start (path : String) (lockfile : Option String) : (start path lockfile).Consistent :=
  ⟨⟨rfl, Nat.zero_le 1⟩, by simp [start], fun _ hu => absurd hu List.not_mem_nil⟩

/-- **The transaction counter**: along a history of a repository object the counter is the number of open
transactions, and a failed opening leaves no trace, if and only if every event is permitted. -/
theorem counter_exact_iff (path : String) (lockfile : Option String) (history : List Event) :
    StepsSatisfy (fun s e => some (s.after e)) Meets (start path lockfile) history ↔
      StepsSatisfy (fun s e => some (s.after e)) Permits (start path lockfile) history :=
  stepsSatisfy_congr (I := Consistent) (fun _ e h => (h.step_iff e).1)
    (fun _ e _ h permitted hs => Option.some.inj hs ▸ (h.step_iff e).2 permitted) (consistent_start path lockfile)

/-- Another process holds the lock for longer than an opening waits: the counter stays up, and after the lock is gone
the repository refuses to open a transaction. -/
theorem no_lock_leaves_counter :
    ¬ StepsSatisfy (fun s e => some (s.after e)) Meets (start "lock" (some "20160101T000001"))
        [.transaction_factory ⟨none, "20160101T000002", false⟩] ∧
      (((start "lock" (some "20160101T000001")).after (.transaction_factory ⟨none, "20160101T000002", false⟩)).after
          (.other none)).transaction_factory ⟨none, "20160101T000102", false⟩ =
        (⟨"lock", 1, none, false, []⟩, some (.transaction_error CPPTRANSPORT_TRANSACTION_UNDERWAY)) := by
  refine ⟨fun meets => ?_, by decide⟩
  have left := (meets.1.2 (by decide)).1
  exact absurd left (by decide)

end State

end CppTransport.Runtime.TransactionCounter
