import Mathlib.Order.Lattice.Nat
import Mathlib.Logic.Function.Basic

/-!
# Look-ups with a cache

What is looked up under a key is built by a program that may look up other keys, and may fail
(`Inquiry`). `evaluate` does so without a cache, `lookup` with one, in which every success is
remembered. If what is in the cache is what `evaluate` gives (`Coherent`), then both give the
same (`lookup_of_evaluate`), and the cache stays so. The number of nested calls is bounded by a
fuel, and more fuel changes nothing. `Always` is the rule for what a program asks for: one that
asks only for what is answered ends (`exists_run`).
-/

namespace CppTransport.Library

universe u

variable {κ ε : Type*} {ρ α β : Type u}

/-- A program that asks for what is under some keys, one after the other. -/
inductive Inquiry (κ : Type*) (ρ : Type u) (ε : Type*) (α : Type u) where
  | done (result : Except ε α)
  | ask (k : κ) (next : ρ → Inquiry κ ρ ε α)

namespace Inquiry

def bind (f : α → Inquiry κ ρ ε β) : Inquiry κ ρ ε α → Inquiry κ ρ ε β
  | done (.ok a) => f a
  | done (.error e) => done (.error e)
  | ask k next => ask k fun r => (next r).bind f

instance : Monad (Inquiry κ ρ ε) where
  pure a := done (.ok a)
  bind q f := q.bind f

/-- What is under a key. -/
def find (k : κ) : Inquiry κ ρ ε ρ := ask k fun r => done (.ok r)

/-- The requests are answered by `look`, which may run out of fuel; a failure ends the program. -/
def run (look : κ → Option (Except ε ρ)) : Inquiry κ ρ ε α → Option (Except ε α)
  | done result => some result
  | ask k next =>
    match look k with
    | some (.ok r) => (next r).run look
    | some (.error e) => some (.error e)
    | none => none

/-- The same where `look` may change the cache. -/
def run_cached {C : Type*} (look : κ → C → Option (Except ε ρ × C)) :
    Inquiry κ ρ ε α → C → Option (Except ε α × C)
  | done result, c => some (result, c)
  | ask k next, c =>
    match look k c with
    | some (.ok r, c) => (next r).run_cached look c
    | some (.error e, c) => some (.error e, c)
    | none => none

/-- For each of several, one after the other; the results are joined. -/
def collect {ι : Type*} (f : ι → Inquiry κ ρ ε (List α)) : List ι → Inquiry κ ρ ε (List α)
  | [] => done (.ok [])
  | i :: l => do
    let first ← f i
    let rest ← collect f l
    done (.ok (first ++ rest))

/-- Whatever is asked for satisfies `asks`; and if every answer satisfies `answers`, then the result satisfies `ends`,
or the failure `fails`. -/
def Always (asks : κ → Prop) (answers : κ → ρ → Prop) (fails : ε → Prop) (ends : α → Prop) :
    Inquiry κ ρ ε α → Prop
  | done (.ok a) => ends a
  | done (.error e) => fails e
  | ask k next => asks k ∧ ∀ r, answers k r → (next r).Always asks answers fails ends

variable {asks : κ → Prop} {answers : κ → ρ → Prop} {fails : ε → Prop} {ends : α → Prop} {ends' : β → Prop}

theorem always_find {k : κ} (h : asks k) : (find k : Inquiry κ ρ ε ρ).Always asks answers fails (answers k) :=
  ⟨h, fun _ => id⟩

theorem always_bind {q : Inquiry κ ρ ε α} {f : α → Inquiry κ ρ ε β} (h : q.Always asks answers fails ends)
    (next : ∀ a, ends a → (f a).Always asks answers fails ends') : (q >>= f).Always asks answers fails ends' := by
  induction q with
  | done result =>
    cases result with
    | ok a => exact next a h
    | error e => exact h
  | ask k rest ih => exact ⟨h.1, fun r hr => ih r (h.2 r hr)⟩

theorem always_collect {ι : Type*} {f : ι → Inquiry κ ρ ε (List α)} {l : List ι}
    (h : ∀ i ∈ l, (f i).Always asks answers fails fun _ => True) :
    (collect f l).Always asks answers fails fun _ => True := by
  induction l with
  | nil => trivial
  | cons i l ih =>
    obtain ⟨first, rest⟩ := List.forall_mem_cons.mp h
    exact always_bind first fun _ _ => always_bind (ih rest) fun _ _ => trivial

theorem run_mono {look look' : κ → Option (Except ε ρ)} (le : ∀ k x, look k = some x → look' k = some x)
    {q : Inquiry κ ρ ε α} {x : Except ε α} (h : q.run look = some x) : q.run look' = some x := by
  induction q with
  | done result => exact h
  | ask k next ih =>
    rw [run] at h ⊢
    cases found : look k with
    | none => simp [found] at h
    | some y =>
      rw [le k y found]
      cases y with
      | ok r => exact ih r (by simpa [found] using h)
      | error e => simpa [found] using h

theorem run_cached_mono {C : Type*} {look look' : κ → C → Option (Except ε ρ × C)}
    (le : ∀ k c x, look k c = some x → look' k c = some x) {q : Inquiry κ ρ ε α} {c : C} {x : Except ε α × C}
    (h : q.run_cached look c = some x) : q.run_cached look' c = some x := by
  induction q generalizing c with
  | done result => exact h
  | ask k next ih =>
    rw [run_cached] at h ⊢
    cases found : look k c with
    | none => simp [found] at h
    | some y =>
      rw [le k c y found]
      obtain ⟨result, c'⟩ := y
      cases result with
      | ok r => exact ih r (by simpa [found] using h)
      | error e => simpa [found] using h

/-- What no call changes is not changed. -/
theorem run_cached_keeps {C : Type*} {look : κ → C → Option (Except ε ρ × C)}
    (keeps : ∀ k c x c', look k c = some (x, c') → c' = c) {q : Inquiry κ ρ ε α} {c c' : C} {x : Except ε α}
    (h : q.run_cached look c = some (x, c')) : c' = c := by
  induction q generalizing c with
  | done result => simpa [run_cached, eq_comm] using congrArg (Option.map Prod.snd) h
  | ask k next ih =>
    rw [run_cached] at h
    cases found : look k c with
    | none => simp [found] at h
    | some y =>
      obtain ⟨result, c₁⟩ := y
      have same := keeps k c result c₁ found
      cases result with
      | ok r => exact (ih r (by simpa [found] using h)).trans same
      | error e =>
        simp only [found, Option.some.injEq, Prod.mk.injEq] at h
        exact h.2.symm.trans same

end Inquiry

/-! ### Without a cache -/

variable (program : κ → Inquiry κ ρ ε ρ)

/-- What is under a key, with as many nested calls. -/
def evaluate : ℕ → κ → Option (Except ε ρ)
  | 0, _ => none
  | n + 1, k => (program k).run (evaluate n)

variable {program}

theorem evaluate_succ {n : ℕ} {k : κ} {x : Except ε ρ} (h : evaluate program n k = some x) :
    evaluate program (n + 1) k = some x := by
  induction n generalizing k x with
  | zero => cases h
  | succ n ih => exact Inquiry.run_mono (fun k x => ih) h

theorem evaluate_mono {n m : ℕ} (le : n ≤ m) {k : κ} {x : Except ε ρ} (h : evaluate program n k = some x) :
    evaluate program m k = some x := by
  induction m, le using Nat.le_induction with
  | base => exact h
  | succ m _ ih => exact evaluate_succ ih

variable (program) in
/-- What is under the key is found, and satisfies `answers`; or the failure satisfies `fails`. -/
def Answered (answers : κ → ρ → Prop) (fails : ε → Prop) (k : κ) : Prop :=
  ∃ n, (∃ r, evaluate program n k = some (.ok r) ∧ answers k r) ∨
    ∃ e, evaluate program n k = some (.error e) ∧ fails e

/-- Nested calls that all return make up one that returns. -/
theorem exists_run {answers : κ → ρ → Prop} {fails : ε → Prop} {ends : α → Prop} {q : Inquiry κ ρ ε α}
    (h : q.Always (Answered program answers fails) answers fails ends) :
    ∃ n, (∃ a, q.run (evaluate program n) = some (.ok a) ∧ ends a) ∨
      ∃ e, q.run (evaluate program n) = some (.error e) ∧ fails e := by
  induction q with
  | done result =>
    cases result with
    | ok a => exact ⟨0, .inl ⟨a, rfl, h⟩⟩
    | error e => exact ⟨0, .inr ⟨e, rfl, h⟩⟩
  | ask k next ih =>
    obtain ⟨⟨n, ⟨r, found, answer⟩ | ⟨e, found, fail⟩⟩, rest⟩ := h
    · have more : ∀ {m x}, (next r).run (evaluate program m) = some x →
          (Inquiry.ask k next).run (evaluate program (max n m)) = some x := by
        intro m x ran
        rw [Inquiry.run, evaluate_mono (le_max_left n m) found]
        exact Inquiry.run_mono (fun k x => evaluate_mono (le_max_right n m)) ran
      obtain ⟨m, ⟨a, ran, ended⟩ | ⟨e, ran, fail⟩⟩ := ih r (rest r answer)
      · exact ⟨max n m, .inl ⟨a, more ran, ended⟩⟩
      · exact ⟨max n m, .inr ⟨e, more ran, fail⟩⟩
    · exact ⟨n, .inr ⟨e, by rw [Inquiry.run, found], fail⟩⟩

/-- The same for the program of a key. -/
theorem answered_of_always {answers : κ → ρ → Prop} {fails : ε → Prop} {k : κ}
    (h : (program k).Always (Answered program answers fails) answers fails (answers k)) :
    Answered program answers fails k := by
  obtain ⟨n, ran⟩ := exists_run h
  exact ⟨n + 1, ran⟩

/-! ### With a cache -/

/-- What is remembered under the keys. -/
abbrev Cache (κ : Type*) (ρ : Type u) := κ → Option ρ

variable (program) in
/-- What is remembered is what is there. -/
def Cache.Coherent (c : Cache κ ρ) : Prop := ∀ k r, c k = some r → ∃ n, evaluate program n k = some (.ok r)

theorem Cache.coherent_empty : Cache.Coherent program (fun _ => none) := fun _ _ h => by cases h

variable [DecidableEq κ]

/-- What is there already is not replaced. -/
def Cache.insert (c : Cache κ ρ) (k : κ) (r : ρ) : Cache κ ρ :=
  if (c k).isSome then c else Function.update c k (some r)

/-- The cache is asked first, and told last, if it is in use. -/
def consult (enabled : Bool) (k : κ) (make : Cache κ ρ → Option (Except ε ρ × Cache κ ρ)) (c : Cache κ ρ) :
    Option (Except ε ρ × Cache κ ρ) :=
  if enabled then
    match c k with
    | some r => some (.ok r, c)
    | none =>
      match make c with
      | some (.ok r, c) => some (.ok r, c.insert k r)
      | some (.error e, c) => some (.error e, c)
      | none => none
  else make c

variable (program) in
/-- What is under a key, through the cache. -/
def lookup (enabled : Bool) : ℕ → κ → Cache κ ρ → Option (Except ε ρ × Cache κ ρ)
  | 0, _, _ => none
  | n + 1, k, c => consult enabled k ((program k).run_cached (lookup enabled n)) c

variable {enabled : Bool} {c c' : Cache κ ρ}

theorem Cache.Coherent.insert (h : c.Coherent program) {k : κ} {r : ρ} {n : ℕ}
    (there : evaluate program n k = some (.ok r)) : (c.insert k r).Coherent program := by
  intro k' r' h'
  rw [Cache.insert] at h'
  split_ifs at h' with known
  · exact h k' r' h'
  · by_cases same : k' = k
    · subst same
      rw [Function.update_self] at h'
      exact ⟨n, Option.some.inj h' ▸ there⟩
    · rw [Function.update_of_ne same] at h'
      exact h k' r' h'

theorem consult_of_le {k : κ} {make make' : Cache κ ρ → Option (Except ε ρ × Cache κ ρ)}
    (le : ∀ c y, make c = some y → make' c = some y) {x : Except ε ρ × Cache κ ρ}
    (h : consult enabled k make c = some x) : consult enabled k make' c = some x := by
  rw [consult] at h ⊢
  split_ifs at h ⊢
  · cases known : c k with
    | some r => simpa [known] using h
    | none =>
      rw [known] at h
      cases made : make c with
      | none => simp [made] at h
      | some y =>
        simp only [le c y made]
        simpa only [made] using h
  · exact le c x h

theorem lookup_succ {n : ℕ} {k : κ} {c : Cache κ ρ} {x : Except ε ρ × Cache κ ρ}
    (h : lookup program enabled n k c = some x) : lookup program enabled (n + 1) k c = some x := by
  induction n generalizing k c x with
  | zero => cases h
  | succ n ih => exact consult_of_le (fun c y => Inquiry.run_cached_mono fun k c x => ih) h

theorem lookup_mono {n m : ℕ} (le : n ≤ m) {k : κ} {x : Except ε ρ × Cache κ ρ}
    (h : lookup program enabled n k c = some x) : lookup program enabled m k c = some x := by
  induction m, le using Nat.le_induction with
  | base => exact h
  | succ m _ ih => exact lookup_succ ih

/-- A program that runs with calls that go through the cache. -/
theorem run_cached_of_run {n : ℕ}
    (step : ∀ k x (c : Cache κ ρ), c.Coherent program → evaluate program n k = some x →
      ∃ c', lookup program enabled n k c = some (x, c') ∧ c'.Coherent program ∧ (enabled = false → c' = c))
    {q : Inquiry κ ρ ε α} {x : Except ε α} {c : Cache κ ρ} (h : c.Coherent program)
    (ran : q.run (evaluate program n) = some x) :
    ∃ c', q.run_cached (lookup program enabled n) c = some (x, c') ∧ c'.Coherent program ∧
      (enabled = false → c' = c) := by
  induction q generalizing c with
  | done result => exact ⟨c, by rw [Inquiry.run_cached, Option.some.inj ran], h, fun _ => rfl⟩
  | ask k next ih =>
    rw [Inquiry.run] at ran
    cases found : evaluate program n k with
    | none => simp [found] at ran
    | some y =>
      obtain ⟨c₁, looked, coherent, same⟩ := step k y c h found
      rw [found] at ran
      cases y with
      | ok r =>
        obtain ⟨c₂, rest, coherent, same'⟩ := ih r coherent ran
        exact ⟨c₂, by simp only [Inquiry.run_cached, looked, rest], coherent, fun off => (same' off).trans (same off)⟩
      | error e =>
        obtain rfl := Option.some.inj ran
        exact ⟨c₁, by rw [Inquiry.run_cached, looked], coherent, same⟩

/-- A program that is run through the cache, if it gives what is under the key. -/
theorem consult_of_run {n m : ℕ}
    (step : ∀ k x (c : Cache κ ρ), c.Coherent program → evaluate program n k = some x →
      ∃ c', lookup program enabled n k c = some (x, c') ∧ c'.Coherent program ∧ (enabled = false → c' = c))
    {k : κ} {q : Inquiry κ ρ ε ρ} {x : Except ε ρ} {c : Cache κ ρ} (h : c.Coherent program)
    (there : evaluate program m k = some x) (ran : q.run (evaluate program n) = some x) :
    ∃ c', consult enabled k (q.run_cached (lookup program enabled n)) c = some (x, c') ∧
      c'.Coherent program ∧ (enabled = false → c' = c) := by
  rw [consult]
  split_ifs with on
  · cases known : c k with
    | some r =>
      obtain ⟨l, remembered⟩ := h k r known
      have same := (evaluate_mono (le_max_left l m) remembered).symm.trans (evaluate_mono (le_max_right l m) there)
      obtain rfl := Option.some.inj same
      exact ⟨c, rfl, h, fun _ => rfl⟩
    | none =>
      obtain ⟨c', ran, coherent, same⟩ := run_cached_of_run step h ran
      cases x with
      | ok r => exact ⟨c'.insert k r, by simp only [ran], coherent.insert there, fun off => by simp [on] at off⟩
      | error e => exact ⟨c', by simp only [ran], coherent, same⟩
  · exact run_cached_of_run step h ran

/-- **Look-ups**: what is there is what is found through a cache that is coherent, which it stays. -/
theorem lookup_of_evaluate {n : ℕ} {k : κ} {x : Except ε ρ} {c : Cache κ ρ} (h : c.Coherent program)
    (there : evaluate program n k = some x) : ∃ c', lookup program enabled n k c = some (x, c') ∧
      c'.Coherent program ∧ (enabled = false → c' = c) := by
  induction n generalizing k x c with
  | zero => cases there
  | succ n ih => exact consult_of_run (fun k x c h there => ih h there) h there there

variable (enabled) in
/-- The same for a program, which may give what is under a key without being the one for it. -/
theorem consult_of_evaluate {n m : ℕ} {k : κ} {q : Inquiry κ ρ ε ρ} {x : Except ε ρ} {c : Cache κ ρ}
    (h : c.Coherent program) (there : evaluate program m k = some x) (ran : q.run (evaluate program n) = some x) :
    ∃ c', consult enabled k (q.run_cached (lookup program enabled n)) c = some (x, c') ∧
      c'.Coherent program ∧ (enabled = false → c' = c) :=
  consult_of_run (fun _ _ _ h there => lookup_of_evaluate h there) h there ran

/-- More fuel changes nothing. -/
theorem consult_mono {n m : ℕ} (le : n ≤ m) {k : κ} {q : Inquiry κ ρ ε ρ} {x : Except ε ρ × Cache κ ρ}
    (h : consult enabled k (q.run_cached (lookup program enabled n)) c = some x) :
    consult enabled k (q.run_cached (lookup program enabled m)) c = some x :=
  consult_of_le (fun _ _ => Inquiry.run_cached_mono fun _ _ _ => lookup_mono le) h

/-- A cache that is not in use is not changed. -/
theorem lookup_disabled {n : ℕ} {k : κ} {x : Except ε ρ} (h : lookup program false n k c = some (x, c')) :
    c' = c := by
  induction n generalizing k c c' x with
  | zero => cases h
  | succ n ih => exact Inquiry.run_cached_keeps (fun k c x c' => ih) h

theorem consult_disabled {n : ℕ} {k : κ} {q : Inquiry κ ρ ε ρ} {x : Except ε ρ}
    (h : consult false k (q.run_cached (lookup program false n)) c = some (x, c')) : c' = c :=
  Inquiry.run_cached_keeps (fun _ _ _ _ => lookup_disabled) h

end CppTransport.Library
