import CppTransport.Library.FileSystem

/-!
# Transactions

A `transaction_manager` (`transactions/transaction_manager.h`) takes the repository
lockfile, keeps a journal of file operations and owns a `transaction_handler`, which
stands for the database. `commit` checks that the lockfile is still its own, applies the
journal, and commits the handler; `rollback` undoes the journal; the destructor rolls
back what was neither committed nor rolled back.

## The model

`Env` holds what the process does not decide: what the lockfile contains at each moment
the process looks at it, which renames the operating system refuses, and whether the
handler throws in `open` or `commit`. An operation returns the state it leaves and, if it
throws, the exception; the state keeps the changes made before the throw. `State` adds
to the members of the class what happens outside: the files, the calls the handler
received, and the renames made. Removing a file, and the handler's `rollback` and
`release`, are taken not to throw. Paths are not nested, and a file has one name.

## What is proved

The handler receives `open`, one of `commit` and `rollback`, and `release`, unless
`commit` finds the lock lost, or the handler throws in `commit`: then the destructor
rolls back a second time (`follows_protocol_iff`). A commit is all-or-nothing only if it
fails before its first rename; if it returns, every target has its file exactly when no
record takes the target of an earlier one (`all_or_nothing_iff`).
-/

set_option linter.unusedSectionVars false

namespace CppTransport.Runtime

open Library

namespace Transactions

/-! ### Data -/

/-- Attempts the constructor makes to find no lockfile. -/
def CPPTRANSPORT_DEFAULT_LOCKFILE_ATTEMPTS : ℕ := 50

def CPPTRANSPORT_TRANSACTION_NO_LOCK : String :=
  "Repository error: transaction manager cannot gain exclusive repository lock"

def CPPTRANSPORT_TRANSACTION_LOST_LOCK : String := "Repository error: transaction manager lost exclusive lock"

def CPPTRANSPORT_TRANSACTION_COMMITTED : String :=
  "Repository error: attempt to add to a transaction which has already been committed"

def CPPTRANSPORT_TRANSACTION_DEAD : String :=
  "Repository error: attempt to add to a transaction which has been rolled back"

/-- What an operation may throw. -/
inductive Thrown where
  /-- A `runtime_exception` of type `TRANSACTION_ERROR`. -/
  | transaction_error (message : String)
  /-- The operating system refused a rename. -/
  | filesystem_error
  /-- The handler threw. -/
  | handler_error
  deriving DecidableEq

/-- A call that the handler receives. -/
inductive Call where
  | open_
  | commit
  | rollback
  | release
  deriving DecidableEq

/-- A journal record. -/
inductive JournalRecord (P : Type*) where
  /-- `emplace_record`: on commit `journal` becomes `target`, on rollback it is removed. -/
  | emplace (journal target : P)
  /-- `move_record`: on commit `source` becomes `target`, on rollback nothing happens. -/
  | move (source target : P)
  deriving DecidableEq

namespace JournalRecord

variable {P : Type*}

/-- The journalled file, or the object to be moved. -/
def source : JournalRecord P → P
  | emplace journal _ => journal
  | move source _ => source

/-- Where it goes. -/
def target : JournalRecord P → P
  | emplace _ target => target
  | move _ target => target

/-- The rename that the record stands for. -/
def renames (r : JournalRecord P) : P × P := (r.source, r.target)

end JournalRecord

/-- What the process does not decide. -/
structure Env where
  /-- The first word of the lockfile at the `n`-th look at it, if the file is there. -/
  lock : ℕ → Option String
  /-- The clock, as the constructor reads it. -/
  now : String
  /-- Does the operating system allow the `n`-th rename of a commit? -/
  rename_ok : ℕ → Bool
  /-- The handler's `open` throws. -/
  open_throws : Bool
  /-- The handler's `commit` throws, and nothing is committed. -/
  commit_throws : Bool

/-- The members of the class, and what happens outside. -/
structure State (P F : Type*) where
  /-- Lockfile location. -/
  lockfile : String
  /-- Magic string written to the lockfile. -/
  magic_string : String
  /-- Has this transaction been committed? -/
  committed : Bool
  /-- Has this transaction been rolled back? -/
  dead : Bool
  /-- The journal. -/
  journal : List (JournalRecord P)
  /-- The files. -/
  fs : FileSystem P F
  /-- How often the process has looked at the lockfile. -/
  looks : ℕ
  /-- How often it has removed the lockfile. -/
  unlocks : ℕ
  /-- Calls the handler received, oldest first. -/
  calls : List Call
  /-- How often the handler has committed. -/
  commits : ℕ
  /-- Journal records whose rename was made, oldest first. -/
  renamed : List (JournalRecord P)

namespace State

variable {P F : Type*} [DecidableEq P] (env : Env) (s : State P F)

/-- A call of the handler. -/
def call (c : Call) : State P F := { s with calls := s.calls ++ [c] }

/-- One more look at the lockfile. -/
def look : State P F := { s with looks := s.looks + 1 }

/-- `boost::filesystem::exists(lockfile)`, at this moment. -/
def lockfile_exists : Bool := (env.lock s.looks).isSome

/-- What `lock_stream >> read_magic` reads at this moment. -/
def read_magic : String := (env.lock s.looks).getD ""

/-! ### Construction and journalling -/

/-- The loop of the constructor: how often it has looked when it finds no lockfile. -/
def find_unlocked (looks : ℕ) : ℕ → Option ℕ
  | 0 => none
  | attempts + 1 => if (env.lock looks).isSome then find_unlocked (looks + 1) attempts else some (looks + 1)

/-- The constructor. -/
def construct (lockfile : String) (fs : FileSystem P F) : Except Thrown (State P F) :=
  match find_unlocked env 0 CPPTRANSPORT_DEFAULT_LOCKFILE_ATTEMPTS with
  | none => .error (.transaction_error CPPTRANSPORT_TRANSACTION_NO_LOCK)
  | some looks =>
    if env.open_throws then .error .handler_error
    else .ok {
      lockfile := lockfile, magic_string := env.now, committed := false, dead := false, journal := [], fs := fs,
      looks := looks, unlocks := 0, calls := [.open_], commits := 0, renamed := [] }

/-- `journal_deposit` and `journal_move`. -/
def journal_record (r : JournalRecord P) : Except Thrown (State P F) :=
  if s.committed then .error (.transaction_error CPPTRANSPORT_TRANSACTION_COMMITTED)
  else if s.dead then .error (.transaction_error CPPTRANSPORT_TRANSACTION_DEAD)
  else .ok { s with journal := s.journal ++ [r] }

/-! ### Commit, rollback and destruction -/

/-- `journal_record::commit`, for either kind of record. -/
def commit_record (r : JournalRecord P) : Except Thrown (State P F) :=
  if env.rename_ok s.renamed.length then
    match s.fs.rename r.source r.target with
    | some fs => .ok { s with fs := fs, renamed := s.renamed ++ [r] }
    | none => .error .filesystem_error
  else .error .filesystem_error

/-- The records are committed in order, up to the first that throws. -/
def commit_journal (s : State P F) : List (JournalRecord P) → State P F × Option Thrown
  | [] => (s, none)
  | r :: rs =>
    match s.commit_record env r with
    | .ok s' => commit_journal s' rs
    | .error e => (s, some e)

/-- The lockfile is removed if it is there. -/
def release_lock : State P F :=
  if s.lockfile_exists env then { s.look with unlocks := s.unlocks + 1 } else s.look

/-- The end of `commit`, after the journal. -/
def commit_handler : State P F × Option Thrown :=
  if env.commit_throws then (s.call .commit, some .handler_error)
  else
    let s := { s.call .commit with commits := s.commits + 1, committed := true }
    ((s.call .release).release_lock env, none)

/-- `transaction_manager::commit`. -/
def commit : State P F × Option Thrown :=
  if !s.lockfile_exists env then
    ((s.look.call .rollback).call .release,
      some (.transaction_error (CPPTRANSPORT_TRANSACTION_LOST_LOCK ++ " [" ++ s.lockfile ++ "]\n")))
  else if s.look.read_magic env ≠ s.magic_string then
    ((s.look.look.call .rollback).call .release, some (.transaction_error CPPTRANSPORT_TRANSACTION_LOST_LOCK))
  else
    match commit_journal env s.look.look s.journal with
    | (s, some e) => (s, some e)
    | (s, none) => s.commit_handler env

/-- `journal_record::rollback`. -/
def rollback_record : JournalRecord P → State P F
  | .emplace journal _ => { s with fs := s.fs.remove journal }
  | .move _ _ => s

/-- `transaction_manager::rollback`. -/
def rollback : State P F × Option Thrown :=
  let s := s.journal.foldl rollback_record s
  let s := ({ s.call .rollback with dead := true }).call .release
  if !s.lockfile_exists env then (s.look, some (.transaction_error CPPTRANSPORT_TRANSACTION_LOST_LOCK))
  else if s.look.read_magic env ≠ s.magic_string then
    (s.look.look, some (.transaction_error CPPTRANSPORT_TRANSACTION_LOST_LOCK))
  else (s.look.look.release_lock env, none)

/-- The destructor; an exception of `rollback` is swallowed. -/
def destroy : State P F := if !s.committed && !s.dead then (s.rollback env).1 else s

/-- How a transaction is ended before it is destroyed. -/
inductive Action where
  | commit
  | rollback
  | neither
  deriving DecidableEq

/-- The action, and then the destructor. -/
def finish : Action → State P F
  | .commit => (s.commit env).1.destroy env
  | .rollback => (s.rollback env).1.destroy env
  | .neither => s.destroy env

/-- Several journal operations. -/
def journal_all (rs : List (JournalRecord P)) : Except Thrown (State P F) := rs.foldlM journal_record s

/-! ### What the parts leave alone -/

section Frame

variable (c : Call)

@[simp] theorem calls_call : (s.call c).calls = s.calls ++ [c] := rfl

@[simp] theorem committed_call : (s.call c).committed = s.committed := rfl

@[simp] theorem dead_call : (s.call c).dead = s.dead := rfl

@[simp] theorem calls_look : s.look.calls = s.calls := rfl

@[simp] theorem committed_look : s.look.committed = s.committed := rfl

@[simp] theorem dead_look : s.look.dead = s.dead := rfl

theorem release_lock_eq : ∃ n, s.release_lock env = { s with looks := s.looks + 1, unlocks := n } := by
  unfold release_lock look
  split_ifs
  · exact ⟨_, rfl⟩
  · exact ⟨s.unlocks, rfl⟩

/-- Rolling the journal back changes the files only. -/
theorem foldl_rollback_record_eq (rs : List (JournalRecord P)) :
    ∃ fs, rs.foldl rollback_record s = { s with fs := fs } := by
  induction rs generalizing s with
  | nil => exact ⟨s.fs, rfl⟩
  | cons r rs ih =>
    obtain ⟨fs, h⟩ := ih (s.rollback_record r)
    refine ⟨fs, ?_⟩
    rw [List.foldl_cons, h]
    cases r <;> rfl

/-- The files after the journal was rolled back. -/
def unwound : FileSystem P F := (s.journal.foldl rollback_record s).fs

/-- A rollback: the handler rolls back and is released, whatever the lockfile says, and the transaction
is dead. -/
theorem rollback_eq : ∃ looks unlocks, (s.rollback env).1 =
    { s with fs := s.unwound, calls := s.calls ++ [.rollback, .release], dead := true, looks := looks,
             unlocks := unlocks } := by
  obtain ⟨fs, h⟩ := s.foldl_rollback_record_eq s.journal
  simp only [rollback, unwound, h]
  split_ifs
  · exact ⟨s.looks + 1, s.unlocks, by simp [call, look]⟩
  · exact ⟨s.looks + 2, s.unlocks, by simp [call, look]⟩
  · obtain ⟨n, hn⟩ := release_lock_eq env
      (({ ({ s with fs := fs } : State P F).call .rollback with dead := true }).call .release).look.look
    exact ⟨s.looks + 3, n, by rw [hn]; simp [call, look]⟩

theorem destroy_of_committed (h : s.committed = true) : s.destroy env = s := by simp [destroy, h]

theorem destroy_of_dead (h : s.dead = true) : s.destroy env = s := by simp [destroy, h]

theorem destroy_of_open (hc : s.committed = false) (hd : s.dead = false) : ∃ looks unlocks, s.destroy env =
    { s with fs := s.unwound, calls := s.calls ++ [.rollback, .release], dead := true, looks := looks,
             unlocks := unlocks } := by
  obtain ⟨looks, unlocks, h⟩ := s.rollback_eq env
  exact ⟨looks, unlocks, by rw [← h]; simp [destroy, hc, hd]⟩

end Frame

/-! ### What a commit does -/

/-- The renames of the records `done` can be made one after the other, and lead to the files `fs'`. -/
structure Makes (s : State P F) (done : List (JournalRecord P)) (fs' : FileSystem P F) : Prop where
  /-- The operating system allows them. -/
  allowed : ∀ k < done.length, env.rename_ok (s.renamed.length + k) = true
  /-- Each finds its source. -/
  made : s.fs.renames (done.map (·.renames)) = some fs'

theorem makes_nil : Makes env s [] s.fs := ⟨by simp, rfl⟩

theorem commit_record_eq_ok_iff {r : JournalRecord P} {s' : State P F} :
    s.commit_record env r = .ok s' ↔ env.rename_ok s.renamed.length = true ∧
      ∃ fs', s.fs.rename r.source r.target = some fs' ∧ s' = { s with fs := fs', renamed := s.renamed ++ [r] } := by
  unfold commit_record
  cases env.rename_ok s.renamed.length with
  | false => simp
  | true => cases s.fs.rename r.source r.target <;> simp [eq_comm]

theorem commit_record_eq_error {r : JournalRecord P} {e : Thrown} (h : s.commit_record env r = .error e) :
    e = .filesystem_error := by
  unfold commit_record at h
  split_ifs at h
  · split at h
    · cases h
    · cases h; rfl
  · cases h; rfl

theorem makes_cons_iff {r : JournalRecord P} {rs : List (JournalRecord P)} {fs' : FileSystem P F} :
    Makes env s (r :: rs) fs' ↔ ∃ s', s.commit_record env r = .ok s' ∧ Makes env s' rs fs' := by
  constructor
  · rintro ⟨allowed, made⟩
    obtain ⟨fs₁, h₁, h₂⟩ : ∃ fs₁, s.fs.rename r.source r.target = some fs₁ ∧
        fs₁.renames (rs.map (·.renames)) = some fs' := by
      simpa [FileSystem.renames, Option.bind_eq_some_iff, JournalRecord.renames] using made
    refine ⟨_, (s.commit_record_eq_ok_iff env).mpr ⟨allowed 0 (by simp), fs₁, h₁, rfl⟩, ?_, h₂⟩
    intro k hk
    have := allowed (k + 1) (by simpa using hk)
    simpa [Nat.add_assoc, Nat.add_comm 1 k] using this
  · rintro ⟨s', hs', allowed, made⟩
    obtain ⟨ok, fs₁, h₁, rfl⟩ := (s.commit_record_eq_ok_iff env).mp hs'
    refine ⟨?_, by simpa [FileSystem.renames, h₁, JournalRecord.renames] using made⟩
    intro k hk
    cases k with
    | zero => exact ok
    | succ k =>
      have := allowed k (by simpa using hk)
      simpa [Nat.add_assoc, Nat.add_comm 1 k] using this

theorem Makes.of_append {s : State P F} {l₁ l₂ : List (JournalRecord P)} {fs' : FileSystem P F}
    (h : Makes env s (l₁ ++ l₂) fs') : ∃ fs₁, Makes env s l₁ fs₁ := by
  obtain ⟨fs₁, h₁, -⟩ : ∃ fs₁, s.fs.renames (l₁.map (·.renames)) = some fs₁ ∧
      fs₁.renames (l₂.map (·.renames)) = some fs' := by
    simpa [FileSystem.renames, List.foldlM_append, Option.bind_eq_some_iff] using h.made
  exact ⟨fs₁, fun k hk => h.allowed k (by rw [List.length_append]; omega), h₁⟩

/-- The loop over the journal: all records are committed, or those before the first that throws. -/
theorem commit_journal_cases (s : State P F) (rs : List (JournalRecord P)) :
    (∃ fs', Makes env s rs fs' ∧
      commit_journal env s rs = ({ s with fs := fs', renamed := s.renamed ++ rs }, none)) ∨
    (∃ done r rest fs', rs = done ++ r :: rest ∧ Makes env s done fs' ∧ (∀ fs'', ¬ Makes env s (done ++ [r]) fs'') ∧
      commit_journal env s rs =
        ({ s with fs := fs', renamed := s.renamed ++ done }, some .filesystem_error)) := by
  induction rs generalizing s with
  | nil => exact .inl ⟨s.fs, s.makes_nil env, by simp [commit_journal]⟩
  | cons r rs ih =>
    cases h : s.commit_record env r with
    | error e =>
      obtain rfl := s.commit_record_eq_error env h
      refine .inr ⟨[], r, rs, s.fs, rfl, s.makes_nil env, ?_, by simp [commit_journal, h]⟩
      intro fs'' hm
      obtain ⟨s', hs', -⟩ := (s.makes_cons_iff env).mp hm
      rw [h] at hs'
      cases hs'
    | ok s' =>
      have cons : ∀ {l fs'}, Makes env s (r :: l) fs' ↔ Makes env s' l fs' := by
        intro l fs'
        rw [makes_cons_iff, h]
        simp
      obtain ⟨-, fs₁, -, rfl⟩ := (s.commit_record_eq_ok_iff env).mp h
      rcases ih _ with ⟨fs', hm, hrun⟩ | ⟨done, r', rest, fs', rfl, hm, stuck, hrun⟩
      · exact .inl ⟨fs', cons.mpr hm, by simp [commit_journal, h, hrun]⟩
      · refine .inr ⟨r :: done, r', rest, fs', rfl, cons.mpr hm, fun fs'' hm' => ?_, by simp [commit_journal, h, hrun]⟩
        exact stuck fs'' (cons.mp hm')

/-- At each of its two looks, a commit finds the lockfile with its own magic string. -/
def HoldsLock : Prop := s.lockfile_exists env = true ∧ s.look.read_magic env = s.magic_string

/-- All journalled renames can be made. -/
def Applies : Prop := ∃ fs', Makes env s s.journal fs'

theorem not_applies_of_stuck {s : State P F} {done rest : List (JournalRecord P)} {r : JournalRecord P}
    (hj : s.journal = done ++ r :: rest) (stuck : ∀ fs', ¬ Makes env s (done ++ [r]) fs') : ¬ s.Applies env := by
  rintro ⟨fs', hm⟩
  rw [hj, List.append_cons] at hm
  obtain ⟨fs₁, hm₁⟩ := hm.of_append
  exact stuck fs₁ hm₁

/-- **Commit**: the lock is lost and the handler rolled back; or some record throws; or the handler
throws; or all is committed. -/
inductive CommitCases : State P F × Option Thrown → Prop where
  /-- The lock is lost. -/
  | lost (looks : ℕ) (message : String) : ¬ s.HoldsLock env → CommitCases
      ({ s with calls := s.calls ++ [.rollback, .release], looks := looks }, some (.transaction_error message))
  /-- A record cannot be committed. -/
  | stuck (looks : ℕ) (done : List (JournalRecord P)) (r : JournalRecord P) (rest : List (JournalRecord P))
      (fs' : FileSystem P F) : s.HoldsLock env → s.journal = done ++ r :: rest → Makes env s done fs' →
      (∀ fs'', ¬ Makes env s (done ++ [r]) fs'') → CommitCases
      ({ s with fs := fs', renamed := s.renamed ++ done, looks := looks }, some .filesystem_error)
  /-- The handler throws. -/
  | thrown (looks : ℕ) (fs' : FileSystem P F) : s.HoldsLock env → Makes env s s.journal fs' →
      env.commit_throws = true → CommitCases
      ({ s with fs := fs', renamed := s.renamed ++ s.journal, looks := looks, calls := s.calls ++ [.commit] },
        some .handler_error)
  /-- The transaction is committed. -/
  | done (looks unlocks : ℕ) (fs' : FileSystem P F) : s.HoldsLock env → Makes env s s.journal fs' →
      env.commit_throws = false → CommitCases
      ({ s with fs := fs', renamed := s.renamed ++ s.journal, looks := looks, unlocks := unlocks,
                calls := s.calls ++ [.commit, .release], commits := s.commits + 1, committed := true }, none)

theorem makes_look_iff {rs : List (JournalRecord P)} {fs' : FileSystem P F} :
    Makes env s.look rs fs' ↔ Makes env s rs fs' := ⟨fun h => ⟨h.1, h.2⟩, fun h => ⟨h.1, h.2⟩⟩

theorem commit_handler_eq : s.commit_handler env = if env.commit_throws then
      ({ s with calls := s.calls ++ [.commit] }, some .handler_error)
    else
      ({ s with calls := s.calls ++ [.commit, .release], commits := s.commits + 1, committed := true,
                looks := s.looks + 1, unlocks := s.unlocks + if s.lockfile_exists env then 1 else 0 }, none) := by
  unfold commit_handler release_lock
  cases env.commit_throws with
  | true => rfl
  | false =>
    cases h : (env.lock s.looks).isSome <;> simp [call, look, lockfile_exists, h]

theorem commit_cases : CommitCases env s (s.commit env) := by
  unfold commit
  split_ifs with present own
  · have h : CommitCases env s _ := .lost (s.looks + 1)
      (CPPTRANSPORT_TRANSACTION_LOST_LOCK ++ " [" ++ s.lockfile ++ "]\n") (fun held => by simp [held.1] at present)
    simpa [call, look] using h
  · have h : CommitCases env s _ := .lost (s.looks + 2) CPPTRANSPORT_TRANSACTION_LOST_LOCK
      (fun held => own held.2)
    simpa [call, look] using h
  · have held : s.HoldsLock env := ⟨by simpa using present, not_not.mp own⟩
    rcases commit_journal_cases env s.look.look s.journal with ⟨fs', hm, hrun⟩ |
      ⟨done, r, rest, fs', hj, hm, stuck, hrun⟩
    · rw [makes_look_iff, makes_look_iff] at hm
      rw [hrun]
      simp only [commit_handler_eq]
      cases ht : env.commit_throws with
      | true => exact CommitCases.thrown (s.looks + 2) fs' held hm ht
      | false => exact CommitCases.done (s.looks + 3) _ fs' held hm ht
    · simp only [makes_look_iff] at hm stuck
      rw [hrun]
      exact CommitCases.stuck (s.looks + 2) done r rest fs' held hj hm stuck

/-! ### An open transaction -/

/-- A transaction that was constructed, and has seen journal operations only. -/
structure IsOpen : Prop where
  committed : s.committed = false
  dead : s.dead = false
  calls : s.calls = [.open_]
  commits : s.commits = 0
  renamed : s.renamed = []

theorem isOpen_of_construct {lockfile : String} {fs : FileSystem P F} {s : State P F}
    (h : construct env lockfile fs = .ok s) : s.IsOpen := by
  unfold construct at h
  split at h
  · cases h
  · split_ifs at h
    cases h
    exact ⟨rfl, rfl, rfl, rfl, rfl⟩

theorem isOpen_of_journal_all {s : State P F} (hs : s.IsOpen) {rs : List (JournalRecord P)} {s' : State P F}
    (h : s.journal_all rs = .ok s') : s'.IsOpen := by
  induction rs generalizing s with
  | nil =>
    obtain rfl : s = s' := by simpa [journal_all, pure, Except.pure] using h
    exact hs
  | cons r rs ih =>
    have recorded : s.journal_record r = .ok { s with journal := s.journal ++ [r] } := by
      simp [journal_record, hs.committed, hs.dead]
    refine ih (s := { s with journal := s.journal ++ [r] }) ⟨hs.1, hs.2, hs.3, hs.4, hs.5⟩ ?_
    simpa [journal_all, recorded, bind, Except.bind] using h

/-! ### The handler's protocol -/

/-- `open` once, then one of `commit` and `rollback`, then `release`, and nothing else. -/
def FollowsProtocol (calls : List Call) : Prop :=
  calls = [.open_, .commit, .release] ∨ calls = [.open_, .rollback, .release]

/-- **Protocol**: the handler's protocol is kept by every use of a transaction except a commit that finds
the lock lost or whose handler throws. -/
theorem follows_protocol_iff (lockfile : String) (fs : FileSystem P F) (rs : List (JournalRecord P)) (a : Action)
    {s₀ s : State P F} (h₀ : construct env lockfile fs = .ok s₀) (h : s₀.journal_all rs = .ok s) :
    FollowsProtocol (s.finish env a).calls ↔
      (a = .commit → s.HoldsLock env ∧ ¬ (s.Applies env ∧ env.commit_throws = true)) := by
  have hopen := isOpen_of_journal_all (isOpen_of_construct env h₀) h
  cases a with
  | neither =>
    obtain ⟨looks, unlocks, hd⟩ := s.destroy_of_open env hopen.committed hopen.dead
    simp [finish, hd, FollowsProtocol, hopen.calls]
  | rollback =>
    obtain ⟨looks, unlocks, hr⟩ := s.rollback_eq env
    have hdead : (s.rollback env).1.dead = true := by rw [hr]
    rw [finish, destroy_of_dead env _ hdead, hr]
    simp [FollowsProtocol, hopen.calls]
  | commit =>
    have hcases := s.commit_cases env
    rw [finish]
    generalize s.commit env = result at hcases ⊢
    cases hcases with
    | lost looks message lost =>
      obtain ⟨looks', unlocks, hd⟩ := destroy_of_open env
        { s with calls := s.calls ++ [.rollback, .release], looks := looks } hopen.committed hopen.dead
      rw [hd]
      simp [FollowsProtocol, hopen.calls, lost]
    | stuck looks done r rest fs' held hj hm stuck =>
      have never := not_applies_of_stuck env hj stuck
      obtain ⟨looks', unlocks, hd⟩ := destroy_of_open env
        { s with fs := fs', renamed := s.renamed ++ done, looks := looks } hopen.committed hopen.dead
      rw [hd]
      simp [FollowsProtocol, hopen.calls, held, never]
    | thrown looks fs' held hm ht =>
      have applies : s.Applies env := ⟨fs', hm⟩
      obtain ⟨looks', unlocks, hd⟩ := destroy_of_open env
        { s with fs := fs', renamed := s.renamed ++ s.journal, looks := looks, calls := s.calls ++ [.commit] }
        hopen.committed hopen.dead
      rw [hd]
      simp [FollowsProtocol, hopen.calls, held, applies, ht]
    | done looks unlocks fs' held hm ht =>
      rw [destroy_of_committed env _ rfl]
      simp [FollowsProtocol, hopen.calls, held, ht]

/-- A process that keeps the lockfile it made, with an obliging operating system and handler. -/
def undisturbed : Env where
  lock := fun look => if look = 0 then none else some "20170101T000000"
  now := "20170101T000000"
  rename_ok := fun _ => true
  open_throws := false
  commit_throws := false

/-- A file system with file `1` at path `1` and file `2` at path `2`. -/
def twoFiles : FileSystem ℕ ℕ where
  read := fun p => if p = 1 ∨ p = 2 then some p else none
  distinct := by grind

theorem follows_protocol_iff_undisturbed :
    ∃ s, ((construct undisturbed "/repo/lockfile" twoFiles).bind (·.journal_all [.emplace 1 2])) = .ok s ∧
      FollowsProtocol (s.finish undisturbed .commit).calls :=
  ⟨_, rfl, (follows_protocol_iff undisturbed "/repo/lockfile" twoFiles [.emplace 1 2] .commit rfl rfl).mpr
    fun _ => ⟨⟨rfl, rfl⟩, by simp [undisturbed]⟩⟩

/-- A process whose lockfile is gone when it commits. -/
def lockGone : Env := { undisturbed with lock := fun _ => none }

/-- The handler is rolled back and released twice. -/
theorem lost_lock_breaks_protocol :
    ∃ s, construct lockGone "/repo/lockfile" twoFiles = .ok s ∧
      ¬ FollowsProtocol (s.finish lockGone .commit).calls :=
  ⟨_, rfl, by unfold FollowsProtocol; decide⟩

/-! ### All or nothing -/

/-- A journalled rename has replaced what stood at `p`. -/
def Replaced (p : P) : Prop := ∃ r ∈ s.renamed, r.target = p

/-- Commit, then destroy: if the commit throws, no target has been replaced and the handler has not
committed; if it returns, every target holds the file that stood at its source, and the handler has
committed once. -/
structure AllOrNothing : Prop where
  /-- After a throw. -/
  nothing : (s.commit env).2 ≠ none →
    (∀ r ∈ s.journal, ¬ (s.finish env .commit).Replaced r.target) ∧ (s.finish env .commit).commits = 0
  /-- After a return. -/
  all : (s.commit env).2 = none →
    s.fs.Delivers (s.finish env .commit).fs (s.journal.map (·.renames)) ∧ (s.finish env .commit).commits = 1

/-- The first journalled rename cannot be made, or there is none. -/
def FailsFirst : Prop :=
  ∀ r ∈ s.journal.head?, ¬ (env.rename_ok 0 = true ∧ (s.fs.read r.source).isSome = true)

/-- Then no rename has been made. -/
theorem IsOpen.eq_nil_of_failsFirst {s : State P F} (h : s.IsOpen) (hf : s.FailsFirst env)
    {done rest : List (JournalRecord P)} {fs' : FileSystem P F} (hj : s.journal = done ++ rest)
    (hm : Makes env s done fs') : done = [] := by
  cases done with
  | nil => rfl
  | cons r done =>
    obtain ⟨s', hs', -⟩ := (s.makes_cons_iff env).mp hm
    obtain ⟨ok, fs₁, h₁, -⟩ := (s.commit_record_eq_ok_iff env).mp hs'
    have found := (s.fs.rename_eq_some_iff.mp h₁).1
    exact absurd ⟨by simpa [h.renamed] using ok, found⟩ (hf r (by simp [hj]))

theorem IsOpen.failsFirst_of_not_makes {s : State P F} (h : s.IsOpen) {r : JournalRecord P}
    {rest : List (JournalRecord P)} (hj : s.journal = r :: rest) (stuck : ∀ fs', ¬ Makes env s [r] fs') :
    s.FailsFirst env := by
  rintro r' hr' ⟨ok, found⟩
  obtain rfl : r = r' := by simpa [hj] using hr'
  have made : s.commit_record env r =
      .ok { s with fs := s.fs.move r.source r.target, renamed := s.renamed ++ [r] } :=
    (s.commit_record_eq_ok_iff env).mpr
      ⟨by simpa [h.renamed] using ok, _, s.fs.rename_eq_some_iff.mpr ⟨found, rfl⟩, rfl⟩
  exact stuck _ ((s.makes_cons_iff env).mpr ⟨_, made, makes_nil env _⟩)

/-- A commit that throws is all-or-nothing if it has made no rename. -/
theorem allOrNothing_iff_of_throw {s s' : State P F} {e : Thrown} (hr : s.commit env = (s', some e))
    (hc : s'.committed = false) (hd : s'.dead = false) (commits : s'.commits = 0)
    (sub : ∀ r ∈ s'.renamed, r ∈ s.journal) : s.AllOrNothing env ↔ s'.renamed = [] := by
  obtain ⟨looks, unlocks, hdestroy⟩ := s'.destroy_of_open env hc hd
  have hfinish : s.finish env .commit = s'.destroy env := by rw [finish, hr]
  rw [hdestroy] at hfinish
  constructor
  · intro h
    refine List.eq_nil_iff_forall_not_mem.mpr fun r hmem => ?_
    have kept := (h.nothing (by rw [hr]; simp)).1 r (sub r hmem)
    exact kept ⟨r, by rw [hfinish]; exact hmem, rfl⟩
  · intro hnil
    refine ⟨fun _ => ⟨fun r _ => ?_, by rw [hfinish]; exact commits⟩, fun h => by rw [hr] at h; cases h⟩
    rintro ⟨r', hr', -⟩
    rw [hfinish] at hr'
    simp [hnil] at hr'

/-- **Atomicity**: a commit is all-or-nothing if and only if it finds the lock lost, or fails at its first
rename, or gets through and no record touches the target of an earlier one. -/
theorem all_or_nothing_iff (lockfile : String) (fs : FileSystem P F) (rs : List (JournalRecord P))
    {s₀ s : State P F} (h₀ : construct env lockfile fs = .ok s₀) (h : s₀.journal_all rs = .ok s) :
    s.AllOrNothing env ↔ ¬ s.HoldsLock env ∨ s.FailsFirst env ∨
      (s.Applies env ∧ env.commit_throws = false ∧ (s.journal.map (·.renames)).Pairwise FileSystem.Spares) := by
  have hopen := isOpen_of_journal_all (isOpen_of_construct env h₀) h
  have hcases := s.commit_cases env
  generalize hr : s.commit env = result at hcases
  cases hcases with
  | lost looks message lost =>
    rw [allOrNothing_iff_of_throw env hr hopen.committed hopen.dead hopen.commits (by simp [hopen.renamed])]
    simp [hopen.renamed, lost]
  | stuck looks done r rest fs' held hj hm stuck =>
    have sub : ∀ x ∈ s.renamed ++ done, x ∈ s.journal := by
      simp only [hopen.renamed, List.nil_append, hj]
      exact fun x hx => List.mem_append_left _ hx
    have never := not_applies_of_stuck env hj stuck
    rw [allOrNothing_iff_of_throw env hr hopen.committed hopen.dead hopen.commits sub]
    simp only [hopen.renamed, List.nil_append, held, never, not_true_eq_false, false_and, or_false, false_or]
    constructor
    · rintro rfl
      exact hopen.failsFirst_of_not_makes env hj stuck
    · intro first
      exact hopen.eq_nil_of_failsFirst env first hj hm
  | thrown looks fs' held hm ht =>
    have sub : ∀ x ∈ s.renamed ++ s.journal, x ∈ s.journal := by simp [hopen.renamed]
    rw [allOrNothing_iff_of_throw env hr hopen.committed hopen.dead hopen.commits sub]
    simp only [hopen.renamed, List.nil_append, held, ht, not_true_eq_false, Bool.true_eq_false, false_and, and_false,
      or_false, false_or]
    constructor
    · intro hnil
      simp [FailsFirst, hnil]
    · intro first
      exact hopen.eq_nil_of_failsFirst env first (List.append_nil _).symm hm
  | done looks unlocks fs' held hm ht =>
    have applies : s.Applies env := ⟨fs', hm⟩
    have delivers := FileSystem.renames_deliver_iff hm.made
    have hfinish := congrArg (fun result => result.1.destroy env) hr
    simp only [destroy, Bool.not_true, Bool.false_and, Bool.false_eq_true, if_false] at hfinish
    have hall : s.AllOrNothing env ↔ s.fs.Delivers fs' (s.journal.map (·.renames)) := by
      constructor
      · intro h
        have := (h.all (by rw [hr])).1
        rwa [finish, destroy, hfinish] at this
      · intro hdel
        refine ⟨fun h => absurd (by rw [hr]) h, fun _ => ?_⟩
        rw [finish, destroy, hfinish]
        exact ⟨hdel, by simp [hopen.commits]⟩
    rw [hall, delivers]
    simp only [held, applies, ht, not_true_eq_false, true_and, false_or]
    constructor
    · exact .inr
    · rintro (first | spares)
      · rw [hopen.eq_nil_of_failsFirst env first (List.append_nil _).symm hm]
        exact .nil
      · exact spares

theorem all_or_nothing_iff_undisturbed :
    ∃ s, ((construct undisturbed "/repo/lockfile" twoFiles).bind (·.journal_all [.emplace 1 10, .move 2 20])) = .ok s ∧
      s.AllOrNothing undisturbed :=
  ⟨_, rfl, (all_or_nothing_iff undisturbed "/repo/lockfile" twoFiles [.emplace 1 10, .move 2 20] rfl rfl).mpr
    (.inr (.inr ⟨⟨_, by simp [undisturbed], rfl⟩, rfl, by simp [FileSystem.Spares, JournalRecord.renames,
      JournalRecord.source, JournalRecord.target]⟩))⟩

/-- The operating system refuses the second rename of the commit. -/
def secondRefused : Env := { undisturbed with rename_ok := fun k => k = 0 }

/-- The first target has been replaced, and stays so. -/
theorem second_rename_fails :
    ∃ s, ((construct secondRefused "/repo/lockfile" twoFiles).bind (·.journal_all [.emplace 1 10, .emplace 2 20])) =
      .ok s ∧ ¬ s.AllOrNothing secondRefused := by
  refine ⟨_, rfl, fun h => ?_⟩
  exact (h.nothing (by decide)).1 (.emplace 1 10) (by decide) ⟨.emplace 1 10, by decide, rfl⟩

/-! ### Replaced targets hold other files -/

theorem read_foldl_rollback_record {s : State P F} {p : P} (rs : List (JournalRecord P))
    (hp : ∀ r ∈ rs, r.source ≠ p) : (rs.foldl rollback_record s).fs.read p = s.fs.read p := by
  induction rs generalizing s with
  | nil => rfl
  | cons r rs ih =>
    rw [List.foldl_cons, ih fun x hx => hp x (by simp [hx])]
    cases r with
    | emplace journal target =>
      exact s.fs.read_remove_of_ne (Ne.symm (hp (.emplace journal target) (by simp)))
    | move source target => rfl

/-- Where no journalled file stands at a target, renames that were made leave at some target another file
than before. -/
theorem Makes.exists_changed {s : State P F} {done : List (JournalRecord P)} {fs' : FileSystem P F}
    (hm : Makes env s done fs') (hne : done ≠ []) (apart : ∀ r ∈ done, ∀ r' ∈ done, r.source ≠ r'.target) :
    ∃ r ∈ done, fs'.read r.target ≠ s.fs.read r.target := by
  obtain ⟨init, r, rfl⟩ : ∃ init r, done = init ++ [r] := ⟨_, _, (List.dropLast_concat_getLast hne).symm⟩
  obtain ⟨fs₁, h₁, found, rfl⟩ : ∃ fs₁, s.fs.renames (init.map (·.renames)) = some fs₁ ∧
      (fs₁.read r.renames.1).isSome ∧ fs' = fs₁.move r.renames.1 r.renames.2 := by
    simpa [FileSystem.renames_append_singleton] using hm.made
  obtain ⟨f, hf⟩ := Option.isSome_iff_exists.mp found
  -- nothing arrives at a source, so the file that arrives was there from the start
  have there : s.fs.read r.source = some f := by
    refine FileSystem.read_of_no_arrival h₁ (fun x hx hx2 => ?_) hf
    obtain ⟨y, hy, rfl⟩ := List.mem_map.mp hx
    exact absurd hx2.symm (apart r (by simp) y (by simp [hy]))
  refine ⟨r, by simp, fun same => apart r (by simp) r (by simp) ?_⟩
  rw [show r.target = r.renames.2 from rfl, FileSystem.read_move_target, hf] at same
  exact s.fs.distinct there same.symm

/-- What a commit that throws leaves: the renames of some of the journal, and nothing committed. -/
theorem exists_makes_of_throw {s s' : State P F} {e : Thrown} (h : s.commit env = (s', some e)) :
    ∃ done, Makes env s done s'.fs ∧ s'.renamed = s.renamed ++ done ∧ (∀ r ∈ done, r ∈ s.journal) ∧
      s'.journal = s.journal ∧ s'.committed = s.committed ∧ s'.dead = s.dead := by
  have hcases := s.commit_cases env
  rw [h] at hcases
  cases hcases with
  | lost looks message lost => exact ⟨[], makes_nil env s, by simp, by simp, rfl, rfl, rfl⟩
  | stuck looks done r rest fs' held hj hm stuck =>
    exact ⟨done, hm, rfl, fun x hx => by rw [hj]; exact List.mem_append_left _ hx, rfl, rfl, rfl⟩
  | thrown looks fs' held hm ht => exact ⟨s.journal, hm, rfl, fun _ hx => hx, rfl, rfl, rfl⟩

/-- **Contents**: where no journalled file stands at a target, a commit that throws has replaced a target
just if some target holds something else after the destructor than before. -/
theorem changed_iff_replaced {s s' : State P F} (hopen : s.IsOpen)
    (apart : ∀ r ∈ s.journal, ∀ r' ∈ s.journal, r.source ≠ r'.target) {e : Thrown}
    (h : s.commit env = (s', some e)) :
    (∃ r ∈ s.journal, (s.finish env .commit).fs.read r.target ≠ s.fs.read r.target) ↔
      ∃ r ∈ s.journal, (s.finish env .commit).Replaced r.target := by
  obtain ⟨done, hm, renamed, sub, journal, committed, dead⟩ := exists_makes_of_throw env h
  obtain ⟨looks, unlocks, hd⟩ := s'.destroy_of_open env (committed.trans hopen.committed) (dead.trans hopen.dead)
  have hfinish : s.finish env .commit = s'.destroy env := by rw [finish, h]
  rw [hopen.renamed, List.nil_append] at renamed
  have contents : ∀ r ∈ s.journal, (s.finish env .commit).fs.read r.target = s'.fs.read r.target := by
    intro r hr
    rw [hfinish, hd]
    exact read_foldl_rollback_record _ fun x hx => apart x (journal ▸ hx) r hr
  constructor
  · rintro ⟨r, hr, changed⟩
    rw [contents r hr] at changed
    cases done with
    | nil =>
      have same : s.fs = s'.fs := by simpa [FileSystem.renames] using hm.made
      exact absurd (by rw [same]) changed
    | cons d done => exact ⟨d, sub d (by simp), d, by rw [hfinish, hd, renamed]; simp, rfl⟩
  · rintro ⟨-, -, d, hmem, -⟩
    rw [hfinish, hd, renamed] at hmem
    obtain ⟨r, hr, changed⟩ := hm.exists_changed env (List.ne_nil_of_mem hmem)
      fun x hx y hy => apart x (sub x hx) y (sub y hy)
    exact ⟨r, sub r hr, by rwa [contents r (sub r hr)]⟩

end State

end Transactions

end CppTransport.Runtime
