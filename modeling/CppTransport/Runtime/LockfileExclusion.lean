import CppTransport.Library.Transition
import CppTransport.Runtime.TransactionManager

/-!
# Several processes and one lockfile

Several processes run transactions on one repository. Each looks for the lockfile, creates
it, writes the time of day into it, and later looks at it and reads it again before it
commits or after it has rolled back, and removes it (`transactions/transaction_manager.h`).
Nothing makes the first look and the creation one step, and a process recognises its
lockfile by the text only.

## The model

A step is one step of one process: a file operation on the lockfile, the comparison of
what was read, a call of the handler, or a choice of the program that uses the
transaction. `Pc` says what a process does next. Opening for output truncates a lockfile
that exists and otherwise creates one; the text is written to the file that was opened,
whether or not it still stands at the lockfile's path, so files have identities. The clock
may read anything; the journal, or the handler, may throw.

## What is proved

As long as no process creates the lockfile while one is there, a lockfile belongs to the
one process that is between its creation and its removal (`heldByOwner_of_reachable`).
Then transactions that commit are never open together, and no process removes the
lockfile of another (`lock_excludes`). Without the condition, two processes that start in
the same second both commit (`two_processes_commit`).
-/

set_option linter.unusedSectionVars false

namespace CppTransport.Runtime

open Library

namespace Lockfile

/-- What a process does next. -/
inductive Pc where
  /-- Constructor: look for the lockfile, with this many attempts left. -/
  | look (attempts : ℕ)
  /-- Constructor: create or truncate the lockfile. -/
  | create
  /-- Constructor: write the magic string to the file that was opened. -/
  | write (file : ℕ)
  /-- Constructor: open the handler. -/
  | openHandler
  /-- Constructed: the program decides to commit, or to roll back or destroy. -/
  | live
  /-- `commit`: look for the lockfile. -/
  | commitExists
  /-- `commit`: read it. -/
  | commitRead
  /-- `commit`: compare what was read. -/
  | commitCompare (read_magic : String)
  /-- `commit`: commit the journal and the handler. -/
  | commitJournal
  /-- `commit`: look for the lockfile once more. -/
  | commitCheck
  /-- `commit`: remove it. -/
  | commitRemove
  /-- `rollback`, called by the program or the destructor: unwind the journal, roll back the handler. -/
  | rollback
  /-- `rollback`: look for the lockfile. -/
  | rollbackExists
  /-- `rollback`: read it. -/
  | rollbackRead
  /-- `rollback`: compare what was read. -/
  | rollbackCompare (read_magic : String)
  /-- `rollback`: look for the lockfile once more. -/
  | rollbackCheck
  /-- `rollback`: remove it. -/
  | rollbackRemove
  /-- The transaction has ended, or was not constructed. -/
  | closed
  deriving DecidableEq

namespace Pc

/-- Between the creation of the lockfile and the end of the transaction. -/
def holding : Pc → Bool
  | look _ | create | closed => false
  | _ => true

/-- The transaction is open: constructed, and not ended. -/
def is_open : Pc → Bool
  | look _ | create | write _ | openHandler | closed => false
  | _ => true

theorem holding_of_is_open {pc : Pc} (h : pc.is_open = true) : pc.holding = true := by
  cases pc <;> simp_all [is_open, holding]

/-- The next step removes the lockfile. -/
def removes (pc : Pc) : Prop := pc = commitRemove ∨ pc = rollbackRemove

theorem holding_of_removes {pc : Pc} (h : pc.removes) : pc.holding = true := by
  obtain rfl | rfl := h <;> rfl

end Pc

/-- One process. -/
structure Process where
  /-- What it does next. -/
  pc : Pc
  /-- The magic string it wrote. -/
  magic_string : String
  /-- Its journal and its handler have been committed. -/
  committed : Bool
  deriving DecidableEq

/-- The processes, and the lockfile they share. -/
structure Sys (ι : Type*) where
  /-- The processes. -/
  proc : ι → Process
  /-- The file at the lockfile's path. -/
  lock : Option ℕ
  /-- The text of each file. -/
  content : ℕ → String
  /-- The process that created each file. -/
  creator : ℕ → Option ι
  /-- The next file to be created. -/
  fresh : ℕ

/-- What is left open in a step. -/
inductive Choice where
  /-- The step goes through. -/
  | go
  /-- The step throws. -/
  | throws
  /-- The clock reads this. -/
  | clock (now : String)
  /-- The program calls `commit`. -/
  | commit
  /-- The program calls `rollback`, or destroys the transaction. -/
  | rollback

namespace Sys

variable {ι : Type*} [DecidableEq ι] (s : Sys ι) (p : ι)

/-- The process goes on with `pc`. -/
def goto (pc : Pc) : Sys ι := { s with proc := Function.update s.proc p { s.proc p with pc := pc } }

/-- `std::ofstream(lockfile, out | trunc)`. -/
def create : Sys ι :=
  match s.lock with
  | some file => { s.goto p (.write file) with content := Function.update s.content file "" }
  | none =>
    { s.goto p (.write s.fresh) with
      lock := some s.fresh, content := Function.update s.content s.fresh "",
      creator := Function.update s.creator s.fresh (some p), fresh := s.fresh + 1 }

/-- The magic string is the time, and is written to the open file. -/
def write (file : ℕ) (now : String) : Sys ι :=
  { s with
    proc := Function.update s.proc p { s.proc p with pc := .openHandler, magic_string := now },
    content := Function.update s.content file now }

/-- What is read from the lockfile: nothing if it is missing. -/
def read : String := (s.lock.map s.content).getD ""

/-- The lockfile is removed. -/
def remove : Sys ι := { s.goto p .closed with lock := none }

/-- Journal and handler are committed. -/
def commit : Sys ι :=
  { s with proc := Function.update s.proc p { s.proc p with pc := .commitCheck, committed := true } }

/-- The next step of process `p`. -/
def next (c : Choice) : Option (Sys ι) :=
  match (s.proc p).pc, c with
  | .look 0, .go => some (s.goto p .closed)
  | .look (attempts + 1), .go => some (s.goto p (if s.lock.isSome then .look attempts else .create))
  | .create, .go => some (s.create p)
  | .write file, .clock now => some (s.write p file now)
  | .openHandler, .go => some (s.goto p .live)
  -- the constructor is left by the exception, and nothing removes the lockfile
  | .openHandler, .throws => some (s.goto p .closed)
  | .live, .commit => some (s.goto p .commitExists)
  | .live, .rollback => some (s.goto p .rollback)
  -- with the lock lost, or a record or the handler throwing, `commit` throws and the destructor rolls back
  | .commitExists, .go => some (s.goto p (if s.lock.isSome then .commitRead else .rollback))
  | .commitRead, .go => some (s.goto p (.commitCompare s.read))
  | .commitCompare read_magic, .go =>
    some (s.goto p (if read_magic = (s.proc p).magic_string then .commitJournal else .rollback))
  | .commitJournal, .go => some (s.commit p)
  | .commitJournal, .throws => some (s.goto p .rollback)
  | .commitCheck, .go => some (s.goto p (if s.lock.isSome then .commitRemove else .closed))
  | .commitRemove, .go => some (s.remove p)
  | .rollback, .go => some (s.goto p .rollbackExists)
  | .rollbackExists, .go => some (s.goto p (if s.lock.isSome then .rollbackRead else .closed))
  | .rollbackRead, .go => some (s.goto p (.rollbackCompare s.read))
  | .rollbackCompare read_magic, .go =>
    some (s.goto p (if read_magic = (s.proc p).magic_string then .rollbackCheck else .closed))
  | .rollbackCheck, .go => some (s.goto p (if s.lock.isSome then .rollbackRemove else .closed))
  | .rollbackRemove, .go => some (s.remove p)
  | _, _ => none

/-- All processes are about to construct their transactions; there may be a lockfile that none of them
made. -/
structure Initial : Prop where
  proc : ∀ p, s.proc p = ⟨.look Transactions.CPPTRANSPORT_DEFAULT_LOCKFILE_ATTEMPTS, "", false⟩
  fresh : ∀ file ∈ s.lock, file < s.fresh

end Sys

/-- Any number of processes, in any order of steps. -/
def transactions (ι : Type*) [DecidableEq ι] : System (Sys ι) (ι × Choice) :=
  .ofNext Sys.Initial fun s l => s.next l.1 l.2

/-! ### What a step can do -/

namespace Sys

variable {ι : Type*} [DecidableEq ι] {s s' : Sys ι} {p : ι}

/-- A step of `p` that neither creates nor removes the lockfile. -/
structure Keeps (p : ι) (s s' : Sys ι) : Prop where
  lock : s'.lock = s.lock
  creator : s'.creator = s.creator
  proc : ∀ q, q ≠ p → s'.proc q = s.proc q
  /-- The process does not come to hold a lockfile. -/
  holding : (s'.proc p).pc.holding = true → (s.proc p).pc.holding = true

theorem keeps_goto {pc : Pc} (h : pc.holding = true → (s.proc p).pc.holding = true) : Keeps p s (s.goto p pc) where
  lock := rfl
  creator := rfl
  proc q hq := by simp [goto, hq]
  holding := by simpa [goto] using h

theorem keeps_of_holding (h : (s.proc p).pc.holding = true) (proc : ∀ q, q ≠ p → s'.proc q = s.proc q)
    (lock : s'.lock = s.lock) (creator : s'.creator = s.creator) : Keeps p s s' :=
  ⟨lock, creator, proc, fun _ => h⟩

/-- **A step**: the lockfile is created or truncated, or removed, or left where it is. -/
theorem next_cases {c : Choice} (h : s.next p c = some s') :
    ((s.proc p).pc = .create ∧ s' = s.create p) ∨ ((s.proc p).pc.removes ∧ s' = s.remove p) ∨ Keeps p s s' := by
  unfold next at h
  split at h <;> rename_i hpc <;> cases h
  case h_1 => exact .inr (.inr (keeps_goto (by simp [Pc.holding])))
  case h_2 =>
    refine .inr (.inr (keeps_goto ?_))
    split_ifs <;> simp [Pc.holding]
  case h_3 => exact .inl ⟨hpc, rfl⟩
  case h_4 =>
    exact .inr (.inr (keeps_of_holding (by rw [hpc]; rfl) (fun q hq => by simp [write, hq]) rfl rfl))
  case h_12 =>
    exact .inr (.inr (keeps_of_holding (by rw [hpc]; rfl) (fun q hq => by simp [commit, hq]) rfl rfl))
  case h_15 => exact .inr (.inl ⟨.inl hpc, rfl⟩)
  case h_21 => exact .inr (.inl ⟨.inr hpc, rfl⟩)
  all_goals exact .inr (.inr (keeps_goto fun _ => by rw [hpc]; rfl))

/-! ### A lockfile belongs to its creator -/

/-- Whoever holds a lockfile created the one that is there. -/
def HeldByOwner (s : Sys ι) : Prop :=
  ∀ p, (s.proc p).pc.holding = true → ∃ file, s.lock = some file ∧ s.creator file = some p

theorem HeldByOwner.eq (h : s.HeldByOwner) {p q : ι} (hp : (s.proc p).pc.holding = true)
    (hq : (s.proc q).pc.holding = true) : p = q := by
  obtain ⟨file, hf, hp⟩ := h p hp
  obtain ⟨file', hf', hq⟩ := h q hq
  obtain rfl : file = file' := Option.some.inj (hf.symm.trans hf')
  exact Option.some.inj (hp.symm.trans hq)

/-- The step does not create the lockfile while there is one. -/
def creates_fresh (s : Sys ι) (l : ι × Choice) : Bool := !((s.proc l.1).pc = .create && s.lock.isSome)

theorem HeldByOwner.create (h : s.HeldByOwner) (hlock : s.lock = none) : (s.create p).HeldByOwner := by
  intro q hq
  simp only [Sys.create, hlock, goto] at hq ⊢
  by_cases hqp : q = p
  · subst hqp
    exact ⟨s.fresh, rfl, by simp⟩
  · rw [Function.update_of_ne hqp] at hq
    obtain ⟨file, hf, -⟩ := h q hq
    rw [hlock] at hf
    cases hf

theorem HeldByOwner.remove (h : s.HeldByOwner) (hp : (s.proc p).pc.removes) : (s.remove p).HeldByOwner := by
  intro q hq
  exfalso
  simp only [Sys.remove, goto] at hq
  by_cases hqp : q = p
  · subst hqp
    simp [Pc.holding] at hq
  · rw [Function.update_of_ne hqp] at hq
    exact hqp (h.eq hq (Pc.holding_of_removes hp))

theorem HeldByOwner.keeps (h : s.HeldByOwner) (hk : Keeps p s s') : s'.HeldByOwner := by
  intro q hq
  rw [hk.lock, hk.creator]
  by_cases hqp : q = p
  · subst hqp
    exact h q (hk.holding hq)
  · rw [hk.proc q hqp] at hq
    exact h q hq

theorem HeldByOwner.step {l : ι × Choice} (h : s.HeldByOwner) (hc : s.creates_fresh l = true)
    (hs : s.next l.1 l.2 = some s') : s'.HeldByOwner := by
  rcases next_cases hs with ⟨hpc, rfl⟩ | ⟨hpc, rfl⟩ | hk
  · refine h.create ?_
    simpa [creates_fresh, hpc] using hc
  · exact h.remove hpc
  · exact h.keeps hk

end Sys

/-! ### Mutual exclusion -/

section Exclusion

variable {ι : Type*} [DecidableEq ι]

/-- In every run: transactions that commit are never open at the same time, and a process about to remove
the lockfile finds none that was created by another live transaction. -/
def Excludes (S : System (Sys ι) (ι × Choice)) : Prop :=
  ∀ s₀ ls₁ s₁ ls₂ s₂, S.init s₀ → S.Run s₀ ls₁ s₁ → S.Run s₁ ls₂ s₂ →
    (∀ p q, (s₂.proc p).committed = true → (s₂.proc q).committed = true →
      (s₁.proc p).pc.is_open = true → (s₁.proc q).pc.is_open = true → p = q) ∧
    (∀ p q file, (s₂.proc p).pc.removes → s₂.lock = some file → s₂.creator file = some q →
      (s₂.proc q).pc.holding = true → p = q)

theorem heldByOwner_of_reachable {s : Sys ι}
    (h : ((transactions ι).restrict fun s l => s.creates_fresh l = true).Reachable s) : s.HeldByOwner := by
  refine System.Invariant.reachable ⟨?_, ?_⟩ h
  · intro s hs p hp
    rw [hs.proc p] at hp
    simp [Pc.holding] at hp
  · rintro s l s' hown ⟨hc, hs⟩
    exact hown.step hc hs

/-- **Mutual exclusion**: it holds in every run in which no process creates the lockfile while there is
one. -/
theorem lock_excludes : Excludes ((transactions ι).restrict fun s l => s.creates_fresh l = true) := by
  intro s₀ ls₁ s₁ ls₂ s₂ h₀ h₁ h₂
  have own₁ := heldByOwner_of_reachable ⟨s₀, ls₁, h₀, h₁⟩
  have own₂ : s₂.HeldByOwner := by
    refine System.Run.invariant ?_ h₂ own₁
    rintro s l s' hown ⟨hc, hs⟩
    exact hown.step hc hs
  refine ⟨fun p q _ _ hp hq => ?_, fun p q file hp _ _ hq => ?_⟩
  · exact own₁.eq (Pc.holding_of_is_open hp) (Pc.holding_of_is_open hq)
  · exact own₂.eq (Pc.holding_of_removes hp) hq

end Exclusion

/-! ### Two processes in one second -/

/-- Two processes before their first step; there is no lockfile. -/
def twoProcesses : Sys Bool where
  proc := fun _ => ⟨.look Transactions.CPPTRANSPORT_DEFAULT_LOCKFILE_ATTEMPTS, "", false⟩
  lock := none
  content := fun _ => ""
  creator := fun _ => none
  fresh := 0

/-- Both look before either creates the lockfile, both read the same time of day, and both construct
their transactions. -/
def bothConstruct : List (Bool × Choice) :=
  [(false, .go), (true, .go), (false, .go), (true, .go), (false, .clock "20170101T000000"),
   (true, .clock "20170101T000000"), (false, .go), (true, .go)]

/-- Both commit. -/
def bothCommit : List (Bool × Choice) :=
  [(false, .commit), (false, .go), (false, .go), (false, .go), (true, .commit), (true, .go), (true, .go), (true, .go),
   (false, .go), (true, .go)]

/-- The state after these steps, if each is possible. -/
def Sys.after (s : Sys Bool) (ls : List (Bool × Choice)) : Sys Bool :=
  (ls.foldlM (fun (s : Sys Bool) l => s.next l.1 l.2) s).getD s

theorem two_processes_commit : ¬ Excludes (transactions Bool) := by
  intro h
  have constructed : (transactions Bool).Run twoProcesses bothConstruct (twoProcesses.after bothConstruct) :=
    System.run_ofNext_of_foldlM rfl
  have committed : (transactions Bool).Run (twoProcesses.after bothConstruct) bothCommit
      ((twoProcesses.after bothConstruct).after bothCommit) := System.run_ofNext_of_foldlM rfl
  have initial : twoProcesses.Initial := ⟨fun _ => rfl, by simp [twoProcesses]⟩
  have same := (h _ _ _ _ _ initial constructed committed).1 false true (by decide) (by decide) (by decide)
    (by decide)
  cases same

end Lockfile

end CppTransport.Runtime
