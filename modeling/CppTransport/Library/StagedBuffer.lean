import Mathlib.Data.List.Basic

/-!
# Staged buffers

Records of several kinds are staged in a buffer, and from time to time everything
that is staged is written at once. Until then a producer can take back what it has
staged. What a buffer has in `total` is what it has written and what it would write
if it were committed now; staging adds to it, committing does not change it, and
discarding takes out of it only what is not yet written.
-/

namespace CppTransport.Library

/-- Records of the kinds `κ`, staged and written. -/
structure StagedBuffer (κ ι : Type*) where
  /-- The kinds that are written when the buffer is committed; the others are dropped. -/
  kept : κ → Bool
  /-- Records that wait for the next commit. -/
  staged : κ → List ι
  /-- Records written so far, oldest first. -/
  written : κ → List ι

namespace StagedBuffer

variable {κ ι : Type*} (b : StagedBuffer κ ι) (k : κ)

/-- What the next commit would write. -/
def pending : List ι := if b.kept k then b.staged k else []

/-- What is written, and what the next commit would write. -/
def total : List ι := b.written k ++ b.pending k

/-- Everything staged is written or dropped. -/
def commit : StagedBuffer κ ι :=
  { b with written := fun k => b.written k ++ b.pending k, staged := fun _ => [] }

/-- The staged records of some kinds that satisfy `p` are taken back. -/
def discard (kinds : κ → Bool) (p : ι → Bool) : StagedBuffer κ ι :=
  { b with staged := fun k => if kinds k then (b.staged k).filter (! p ·) else b.staged k }

@[simp] theorem kept_commit : b.commit.kept = b.kept := rfl

@[simp] theorem written_commit : b.commit.written k = b.written k ++ b.pending k := rfl

@[simp] theorem pending_commit : b.commit.pending k = [] := by
  unfold pending commit
  split_ifs <;> rfl

@[simp] theorem total_commit : b.commit.total k = b.total k := by simp [total]

@[simp] theorem kept_discard (kinds : κ → Bool) (p : ι → Bool) : (b.discard kinds p).kept = b.kept := rfl

@[simp] theorem written_discard (kinds : κ → Bool) (p : ι → Bool) :
    (b.discard kinds p).written = b.written := rfl

theorem pending_discard (kinds : κ → Bool) (p : ι → Bool) :
    (b.discard kinds p).pending k = if kinds k then (b.pending k).filter (! p ·) else b.pending k := by
  by_cases hk : kinds k <;> by_cases hb : b.kept k <;> simp [pending, discard, hk, hb]

section Stage

variable [DecidableEq κ]

/-- A record is staged. -/
def stage (x : ι) : StagedBuffer κ ι :=
  { b with staged := Function.update b.staged k (b.staged k ++ [x]) }

@[simp] theorem kept_stage (x : ι) : (b.stage k x).kept = b.kept := rfl

@[simp] theorem written_stage (x : ι) : (b.stage k x).written = b.written := rfl

theorem pending_stage (x : ι) (j : κ) :
    (b.stage k x).pending j = b.pending j ++ if b.kept j ∧ j = k then [x] else [] := by
  unfold pending stage
  by_cases hj : j = k
  · subst hj
    by_cases hk : b.kept j <;> simp [hk]
  · simp [hj]

end Stage

/-! ### Steps that add and steps that settle -/

variable {b} {b₁ b₂ : StagedBuffer κ ι} {added more : κ → List ι}

/-- `b₁` has staged `added` on top of `b`, and written nothing. -/
structure Extends (b b₁ : StagedBuffer κ ι) (added : κ → List ι) : Prop where
  /-- The same kinds are written. -/
  kept : b₁.kept = b.kept
  /-- Nothing is written. -/
  written : b₁.written = b.written
  /-- The additions stand after what was pending. -/
  pending : ∀ k, b₁.pending k = b.pending k ++ added k

theorem Extends.refl (b : StagedBuffer κ ι) : Extends b b fun _ => [] := ⟨rfl, rfl, by simp⟩

theorem Extends.trans (h : Extends b b₁ added) (h' : Extends b₁ b₂ more) :
    Extends b b₂ fun k => added k ++ more k :=
  ⟨h'.kept.trans h.kept, h'.written.trans h.written, fun k => by rw [h'.pending, h.pending, List.append_assoc]⟩

theorem Extends.congr (h : Extends b b₁ added) (same : ∀ k, added k = more k) : Extends b b₁ more :=
  ⟨h.kept, h.written, fun k => by rw [h.pending, same]⟩

theorem Extends.total (h : Extends b b₁ added) (k : κ) : b₁.total k = b.total k ++ added k := by
  rw [StagedBuffer.total, StagedBuffer.total, h.written, h.pending, List.append_assoc]

theorem Extends.stage [DecidableEq κ] (b : StagedBuffer κ ι) (k : κ) (x : ι) :
    Extends b (b.stage k x) fun j => if b.kept j ∧ j = k then [x] else [] :=
  ⟨rfl, rfl, pending_stage b k x⟩

/-- Discarding all that was added, and nothing that was there, undoes the addition. -/
theorem Extends.discard (h : Extends b b₁ added) {kinds : κ → Bool} {p : ι → Bool}
    (own : ∀ k, ∀ x ∈ added k, kinds k ∧ p x) (others : ∀ k, ∀ x ∈ b.pending k, ¬ p x) :
    Extends b (b₁.discard kinds p) fun _ => [] := by
  refine ⟨h.kept, h.written, fun k => ?_⟩
  rw [pending_discard, h.pending, List.append_nil]
  have keep : (b.pending k).filter (! p ·) = b.pending k :=
    List.filter_eq_self.mpr fun x hx => by simpa using others k x hx
  by_cases hk : kinds k
  · have drop : (added k).filter (! p ·) = [] :=
      List.filter_eq_nil_iff.mpr fun x hx => by simpa using (own k x hx).2
    rw [if_pos hk, List.filter_append, keep, drop, List.append_nil]
  · have none_added : added k = [] :=
      List.eq_nil_iff_forall_not_mem.mpr fun x hx => hk (own k x hx).1
    rw [if_neg hk, none_added, List.append_nil]

/-- A step that writes all or nothing of what is pending. -/
def Settles (b b₁ : StagedBuffer κ ι) : Prop := b₁ = b ∨ b₁ = b.commit

theorem Settles.kept (h : Settles b b₁) : b₁.kept = b.kept := by
  obtain rfl | rfl := h <;> rfl

theorem Settles.total (h : Settles b b₁) (k : κ) : b₁.total k = b.total k := by
  obtain rfl | rfl := h
  · rfl
  · exact total_commit b k

theorem Settles.written_le (h : Settles b b₁) (k : κ) : b.written k <+: b₁.written k := by
  obtain rfl | rfl := h
  · exact List.prefix_refl _
  · exact List.prefix_append _ _

end StagedBuffer

/-! ### A component that may be absent -/

section Partner

variable {α β γ : Type*} {R : α → β → Prop} {p : Option α} {q : Option β} {r : Option γ}

theorem rel_comp {S : β → γ → Prop} {T : α → γ → Prop} (hT : ∀ a b c, R a b → S b c → T a c)
    (h : Option.Rel R p q) (h' : Option.Rel S q r) : Option.Rel T p r := by
  cases h with
  | some hab =>
    cases h' with
    | some hbc => exact .some (hT _ _ _ hab hbc)
  | none =>
    cases h'
    exact .none

theorem rel_imp {S : α → β → Prop} (hS : ∀ a ∈ p, ∀ b ∈ q, R a b → S a b) (h : Option.Rel R p q) :
    Option.Rel S p q := by
  cases h with
  | some hab => exact .some (hS _ rfl _ rfl hab)
  | none => exact .none

theorem rel_map {f : α → β} (h : ∀ a ∈ p, R a (f a)) : Option.Rel R p (p.map f) := by
  cases p with
  | some a => exact .some (h a rfl)
  | none => exact .none

theorem exists_of_rel_right (h : Option.Rel R p q) {b : β} (hb : b ∈ q) : ∃ a ∈ p, R a b := by
  cases h with
  | some hab =>
    obtain rfl := Option.mem_some_iff.mp hb
    exact ⟨_, rfl, hab⟩
  | none => cases hb

theorem exists_of_rel_left (h : Option.Rel R p q) {a : α} (ha : a ∈ p) : ∃ b ∈ q, R a b := by
  cases h with
  | some hab =>
    obtain rfl := Option.mem_some_iff.mp ha
    exact ⟨_, rfl, hab⟩
  | none => cases ha

end Partner

end CppTransport.Library
