import Mathlib.Data.List.Induction
import Mathlib.Logic.Function.Basic

/-!
# File systems and sequences of renames

A file system says which file each path holds; no file stands at two paths. A rename
empties its source and replaces whatever its target held, and it fails if its source
holds nothing. When several renames are made one after the other, a file may be
overwritten or carried on by a later one: `renames_deliver_iff` says exactly when every
target ends up with the file that stood at the source before the first rename.
-/

namespace CppTransport.Library

/-- The files at the paths `P`. -/
structure FileSystem (P F : Type*) where
  /-- The file at a path. -/
  read : P → Option F
  /-- A file stands at one path only. -/
  distinct : ∀ {p q f}, read p = some f → read q = some f → p = q

namespace FileSystem

variable {P F : Type*} [DecidableEq P] (fs : FileSystem P F)

/-- The file system without what stands at `p`. -/
def remove (p : P) : FileSystem P F where
  read := Function.update fs.read p none
  distinct := by
    intro q r f hq hr
    have hqp : q ≠ p := by
      rintro rfl
      simp at hq
    have hrp : r ≠ p := by
      rintro rfl
      simp at hr
    rw [Function.update_of_ne hqp] at hq
    rw [Function.update_of_ne hrp] at hr
    exact fs.distinct hq hr

@[simp] theorem read_remove_self (p : P) : (fs.remove p).read p = none := by simp [remove]

theorem read_remove_of_ne {p q : P} (h : q ≠ p) : (fs.remove p).read q = fs.read q := by simp [remove, h]

/-- What stands at `p` is moved to `q`. -/
def move (p q : P) : FileSystem P F where
  read := Function.update (Function.update fs.read p none) q (fs.read p)
  distinct := by
    have back : ∀ {r f}, Function.update (Function.update fs.read p none) q (fs.read p) r = some f →
        (r = q ∧ fs.read p = some f) ∨ (r ≠ q ∧ r ≠ p ∧ fs.read r = some f) := by
      intro r f hr
      by_cases hq : r = q
      · subst hq
        simp only [Function.update_self] at hr
        exact .inl ⟨rfl, hr⟩
      · rw [Function.update_of_ne hq] at hr
        by_cases hp : r = p
        · subst hp
          simp at hr
        · rw [Function.update_of_ne hp] at hr
          exact .inr ⟨hq, hp, hr⟩
    intro r s f hr hs
    rcases back hr with ⟨hrq, hr⟩ | ⟨-, hrp, hr⟩ <;> rcases back hs with ⟨hsq, hs⟩ | ⟨-, hsp, hs⟩
    · rw [hrq, hsq]
    · exact absurd (fs.distinct hr hs).symm hsp
    · exact absurd (fs.distinct hr hs) hrp
    · exact fs.distinct hr hs

@[simp] theorem read_move_target (p q : P) : (fs.move p q).read q = fs.read p := by simp [move]

theorem read_move_source {p q : P} (h : p ≠ q) : (fs.move p q).read p = none := by simp [move, h]

theorem read_move_of_ne {p q r : P} (hp : r ≠ p) (hq : r ≠ q) : (fs.move p q).read r = fs.read r := by
  simp [move, hp, hq]

theorem read_move_self (p r : P) : (fs.move p p).read r = fs.read r := by
  by_cases h : r = p
  · subst h
    exact read_move_target fs r r
  · exact read_move_of_ne fs h h

/-- A rename fails if there is nothing at its source. -/
def rename (p q : P) : Option (FileSystem P F) := if (fs.read p).isSome then some (fs.move p q) else none

theorem rename_eq_some_iff {p q : P} {fs' : FileSystem P F} :
    fs.rename p q = some fs' ↔ (fs.read p).isSome ∧ fs' = fs.move p q := by
  rw [rename, Option.ite_none_right_eq_some, Option.some_inj, eq_comm (a := fs')]

/-- Several renames, one after the other, up to the first that fails. -/
def renames (l : List (P × P)) : Option (FileSystem P F) := l.foldlM (fun fs r => fs.rename r.1 r.2) fs

theorem renames_append_singleton {l : List (P × P)} {r : P × P} {fs' : FileSystem P F} :
    fs.renames (l ++ [r]) = some fs' ↔
      ∃ fs₁, fs.renames l = some fs₁ ∧ (fs₁.read r.1).isSome ∧ fs' = fs₁.move r.1 r.2 := by
  simp [renames, List.foldlM_append, Option.bind_eq_some_iff, rename_eq_some_iff]

/-! ### Where files arrive -/

variable {fs} {fs' : FileSystem P F} {l : List (P × P)} {p : P}

/-- Where no file arrives from elsewhere, a file found at the end was there at the start. -/
theorem read_of_no_arrival (h : fs.renames l = some fs') (arrive : ∀ r ∈ l, r.2 = p → r.1 = p) {f : F}
    (hf : fs'.read p = some f) : fs.read p = some f := by
  induction l using List.reverseRecOn generalizing fs' with
  | nil =>
    obtain rfl : fs = fs' := by simpa [renames] using h
    exact hf
  | append_singleton l r ih =>
    obtain ⟨fs₁, h₁, -, rfl⟩ := fs.renames_append_singleton.mp h
    refine ih h₁ (fun x hx => arrive x (by simp [hx])) ?_
    by_cases ht : p = r.2
    · rw [arrive r (by simp) ht.symm, ← ht, read_move_self] at hf
      exact hf
    · by_cases hs : p = r.1
      · rw [hs, read_move_source fs₁ (hs ▸ ht)] at hf
        cases hf
      · rwa [read_move_of_ne fs₁ hs ht] at hf

/-- A path that was emptied and holds a file at the end was the target of some rename. -/
theorem exists_arrival (h : fs.renames l = some fs') {r : P × P} (hr : r ∈ l) (hne : r.1 ≠ r.2)
    (hf : (fs'.read r.1).isSome) : ∃ m ∈ l, m.2 = r.1 := by
  by_contra none
  obtain ⟨before, after, rfl⟩ := List.append_of_mem hr
  obtain ⟨fs₁, h₁, h₂⟩ : ∃ fs₁, fs.renames (before ++ [r]) = some fs₁ ∧ fs₁.renames after = some fs' := by
    rw [List.append_cons, renames, List.foldlM_append] at h
    simpa [Option.bind_eq_some_iff, renames] using h
  obtain ⟨fs₀, -, -, rfl⟩ := fs.renames_append_singleton.mp h₁
  obtain ⟨f, hf⟩ := Option.isSome_iff_exists.mp hf
  have there := read_of_no_arrival h₂ (fun x hx hx2 => absurd ⟨x, by simp [hx], hx2⟩ none) hf
  rw [read_move_source fs₀ hne] at there
  cases there

/-! ### Delivery -/

/-- At the end every target holds the file that stood at its source at the start. -/
def Delivers (fs fs' : FileSystem P F) (l : List (P × P)) : Prop :=
  ∀ r ∈ l, ∃ f, fs.read r.1 = some f ∧ fs'.read r.2 = some f

/-- A later rename `b` leaves the target of `a` alone: it neither fills nor empties it, unless both leave
one file where it is. -/
def Spares (a b : P × P) : Prop := (b.2 ≠ a.2 ∧ b.1 ≠ a.2) ∨ (a.1 = a.2 ∧ b.1 = a.2 ∧ b.2 = a.2)

/-- The last of several renames: it has to spare the targets of all before it. -/
theorem delivers_append_singleton_iff {fs₁ : FileSystem P F} {r : P × P} (h : fs.renames l = some fs₁)
    (some_file : (fs₁.read r.1).isSome) :
    Delivers fs (fs₁.move r.1 r.2) (l ++ [r]) ↔ Delivers fs fs₁ l ∧ ∀ a ∈ l, Spares a r := by
  constructor
  · intro all
    have spares : ∀ a ∈ l, Spares a r := by
      intro a ha
      obtain ⟨f, hfa, hfa'⟩ := all a (by simp [ha])
      by_cases ht : r.2 = a.2
      · -- the two files are one, so the two sources are one path
        obtain ⟨g, hg, hg'⟩ := all r (by simp)
        obtain rfl : g = f := Option.some.inj (hg'.symm.trans (ht ▸ hfa'))
        have src : a.1 = r.1 := fs.distinct hfa hg
        by_cases hne : r.1 = r.2
        · exact .inr ⟨by rw [src, hne, ht], by rw [hne, ht], ht⟩
        · -- `a` emptied that path, so something arrived there since, and the last rename takes it away
          obtain ⟨m, hm, hm2⟩ := exists_arrival h ha (by rw [src, ← ht]; exact hne) (src ▸ some_file)
          obtain ⟨_, -, lost⟩ := all m (by simp [hm])
          rw [hm2, src, read_move_source fs₁ hne] at lost
          cases lost
      · by_cases hs : r.1 = a.2
        · rw [← hs, read_move_source fs₁ (hs ▸ Ne.symm ht)] at hfa'
          cases hfa'
        · exact .inl ⟨ht, hs⟩
    refine ⟨fun a ha => ?_, spares⟩
    obtain ⟨f, hfa, hfa'⟩ := all a (by simp [ha])
    refine ⟨f, hfa, ?_⟩
    rcases spares a ha with ⟨ht, hs⟩ | ⟨-, hs, ht⟩
    · rwa [read_move_of_ne fs₁ (Ne.symm hs) (Ne.symm ht)] at hfa'
    · rwa [hs, ht, read_move_self] at hfa'
  · rintro ⟨all, spares⟩ a ha
    rcases List.mem_append.mp ha with ha | ha
    · obtain ⟨f, hfa, hfa'⟩ := all a ha
      refine ⟨f, hfa, ?_⟩
      rcases spares a ha with ⟨ht, hs⟩ | ⟨-, hs, ht⟩
      · rwa [read_move_of_ne fs₁ (Ne.symm hs) (Ne.symm ht)]
      · rwa [hs, ht, read_move_self]
    · obtain rfl := List.mem_singleton.mp ha
      obtain ⟨f, hf⟩ := Option.isSome_iff_exists.mp some_file
      refine ⟨f, read_of_no_arrival h (fun m hm hm2 => ?_) hf, by rwa [read_move_target]⟩
      rcases spares m hm with ⟨-, hs⟩ | ⟨hm1, hs, -⟩
      · exact absurd hm2.symm hs
      · rw [hm1, ← hs]

/-- **Delivery**: renames that all succeed deliver every file if and only if each spares the targets of
those before it. -/
theorem renames_deliver_iff (h : fs.renames l = some fs') : Delivers fs fs' l ↔ l.Pairwise Spares := by
  induction l using List.reverseRecOn generalizing fs' with
  | nil => simp [Delivers]
  | append_singleton l r ih =>
    obtain ⟨fs₁, h₁, some_file, rfl⟩ := fs.renames_append_singleton.mp h
    rw [delivers_append_singleton_iff h₁ some_file, ih h₁, List.pairwise_append]
    simp

end FileSystem

end CppTransport.Library
