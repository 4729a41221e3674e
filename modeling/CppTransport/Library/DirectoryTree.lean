import Mathlib.Data.Finset.Image
import Mathlib.Data.List.Infix

/-!
# Trees of directories

A tree is a finite set of paths, at each of which there stands a directory or a file; whatever
has something below it is a directory. `create_directories` makes a directory and what is missing
above it, unless a file is in the way. `rename` moves what stands at a path, with all below it:
`rename_eq_some_iff` says when it succeeds, and `Movable.moved` and `Movable.elsewhere` what stands
where afterwards.
-/

namespace CppTransport.Library

/-- The directories and the files at the paths with names in `α`. -/
structure DirectoryTree (α : Type*) [DecidableEq α] where
  directories : Finset (List α)
  files : Finset (List α)
  root : [] ∈ directories
  disjoint : Disjoint directories files
  /-- What has something below it is a directory. -/
  parent : ∀ {p a}, p ++ [a] ∈ directories ∪ files → p ∈ directories

namespace DirectoryTree

variable {α : Type*} [DecidableEq α] (t : DirectoryTree α) {src dst p q : List α}

/-- The paths at which something stands. -/
def paths : Finset (List α) := t.directories ∪ t.files

theorem mem_paths : p ∈ t.paths ↔ p ∈ t.directories ∨ p ∈ t.files := Finset.mem_union

theorem not_mem_files (h : p ∈ t.directories) : p ∉ t.files := Finset.disjoint_left.mp t.disjoint h

/-- Whatever stands above something is a directory. -/
theorem mem_directories_of_below (hq : q ∈ t.paths) (h : p <+: q) (ne : p ≠ q) : p ∈ t.directories := by
  obtain ⟨r, rfl⟩ := h
  induction r using List.reverseRecOn with
  | nil => exact absurd (List.append_nil p).symm ne
  | append_singleton r a ih =>
    rw [← List.append_assoc] at hq
    have above := t.parent hq
    by_cases hr : p = p ++ r
    · exact hr ▸ above
    · exact ih (t.mem_paths.mpr (.inl above)) hr

/-! ### Making directories -/

/-- Makes a directory, and those above it that are missing. -/
def create_directories (p : List α) : Option (DirectoryTree α) :=
  if h : ∀ q ∈ p.inits, q ∉ t.files then
    some {
      directories := t.directories ∪ p.inits.toFinset
      files := t.files
      root := Finset.mem_union_left _ t.root
      disjoint := by
        rw [Finset.disjoint_left]
        intro q hq
        rcases Finset.mem_union.mp hq with hq | hq
        · exact t.not_mem_files hq
        · exact h q (List.mem_toFinset.mp hq)
      parent := by
        intro q a hq
        rcases Finset.mem_union.mp hq with hq | hq
        · rcases Finset.mem_union.mp hq with hq | hq
          · exact Finset.mem_union_left _ (t.parent (Finset.mem_union_left _ hq))
          · refine Finset.mem_union_right _ (List.mem_toFinset.mpr ((List.mem_inits ..).mpr ?_))
            exact (List.prefix_append q [a]).trans ((List.mem_inits ..).mp (List.mem_toFinset.mp hq))
        · exact Finset.mem_union_left _ (t.parent (Finset.mem_union_right _ hq)) }
  else none

/-- Directories are made unless a file is in the way. -/
theorem create_directories_isSome_iff : (t.create_directories p).isSome ↔ ∀ q, q <+: p → q ∉ t.files := by
  simp [create_directories]

variable {t} {t' : DirectoryTree α}

theorem mem_directories_create (h : t.create_directories p = some t') :
    q ∈ t'.directories ↔ q ∈ t.directories ∨ q <+: p := by
  rw [create_directories] at h
  split_ifs at h
  cases h
  simp

theorem files_create (h : t.create_directories p = some t') : t'.files = t.files := by
  rw [create_directories] at h
  split_ifs at h
  cases h
  rfl

variable (t) in
/-- Makes a directory unless something stands at the path. -/
def ensure (p : List α) : Option (DirectoryTree α) := if p ∈ t.paths then some t else t.create_directories p

/-- Where a directory has been ensured, it and those above it are there, and nothing else has changed. -/
theorem ensure_eq_some (h : t.ensure p = some t') :
    t'.files = t.files ∧
      ((p ∈ t.files ∧ t' = t) ∨ (p ∉ t.files ∧ ∀ q, q ∈ t'.directories ↔ q ∈ t.directories ∨ q <+: p)) := by
  rw [ensure] at h
  split_ifs at h with there
  · cases h
    refine ⟨rfl, ?_⟩
    by_cases file : p ∈ t.files
    · exact .inl ⟨file, rfl⟩
    · refine .inr ⟨file, fun q => (or_iff_left_of_imp fun above => ?_).symm⟩
      by_cases ne : q = p
      · exact ne ▸ (t.mem_paths.mp there).resolve_right file
      · exact t.mem_directories_of_below there above ne
  · exact ⟨files_create h, .inr ⟨fun file => there (t.mem_paths.mpr (.inr file)), fun q => mem_directories_create h⟩⟩

/-- A directory can be ensured unless there is a file above the path. -/
theorem ensure_isSome_iff : (t.ensure p).isSome ↔ ∀ q, q <+: p → q ≠ p → q ∉ t.files := by
  rw [ensure]
  split_ifs with there
  · exact iff_of_true rfl fun q above ne => t.not_mem_files (t.mem_directories_of_below there above ne)
  · rw [t.create_directories_isSome_iff]
    refine forall₂_congr fun q _ => ⟨fun h _ => h, fun h file => ?_⟩
    by_cases ne : q = p
    · exact there (t.mem_paths.mpr (.inr (ne ▸ file)))
    · exact h ne file

variable (t)

/-! ### Renaming -/

/-- There is room for what stands at `src`: nothing stands at `dst`, or a directory takes the place of an empty one, or
a file that of a file. -/
def Room (src dst : List α) : Prop :=
  dst ∉ t.paths ∨ (src ∈ t.directories ∧ dst ∈ t.directories ∧ ∀ q ∈ t.paths, dst <+: q → q = dst) ∨
    (src ∈ t.files ∧ dst ∈ t.files)

instance : Decidable (t.Room src dst) := inferInstanceAs (Decidable (_ ∨ _ ∨ _))

/-- What stands at `src` can be moved to `dst`. -/
structure Movable (src dst : List α) : Prop where
  source : src ∈ t.paths
  above : dst.dropLast ∈ t.directories
  /-- Nothing is moved below itself. -/
  outside : ¬ src <+: dst
  room : t.Room src dst

theorem movable_iff : t.Movable src dst ↔
    src ∈ t.paths ∧ dst.dropLast ∈ t.directories ∧ ¬ src <+: dst ∧ t.Room src dst :=
  ⟨fun h => ⟨h.source, h.above, h.outside, h.room⟩, fun ⟨source, above, outside, room⟩ =>
    ⟨source, above, outside, room⟩⟩

instance : Decidable (t.Movable src dst) := decidable_of_iff _ t.movable_iff.symm

/-- Where what stands at `p` is when `src` has been moved to `dst`. -/
def relocate (src dst p : List α) : List α := if src <+: p then dst ++ p.drop src.length else p

@[simp] theorem relocate_append (src dst r : List α) : relocate src dst (src ++ r) = dst ++ r := by
  simp [relocate]

theorem relocate_of_outside (h : ¬ src <+: p) : relocate src dst p = p := if_neg h

theorem mem_relocated : p ∈ (t.directories.erase dst).image (relocate src dst) ∪ (t.files.erase dst).image
    (relocate src dst) ↔ ∃ q ∈ t.paths, q ≠ dst ∧ relocate src dst q = p := by
  simp only [Finset.mem_union, Finset.mem_image, Finset.mem_erase, mem_paths]
  constructor
  · rintro (⟨q, ⟨ne, hq⟩, eq⟩ | ⟨q, ⟨ne, hq⟩, eq⟩)
    · exact ⟨q, .inl hq, ne, eq⟩
    · exact ⟨q, .inr hq, ne, eq⟩
  · rintro ⟨q, hq | hq, ne, eq⟩
    · exact .inl ⟨q, ⟨ne, hq⟩, eq⟩
    · exact .inr ⟨q, ⟨ne, hq⟩, eq⟩

namespace Movable

variable {t}

/-- Nothing stands below the target. -/
theorem eq_of_below (h : t.Movable src dst) (hq : q ∈ t.paths) (below : dst <+: q) : q = dst := by
  by_contra ne
  have directory := t.mem_directories_of_below hq below (Ne.symm ne)
  rcases h.room with none | ⟨-, -, empty⟩ | ⟨-, file⟩
  · exact none (t.mem_paths.mpr (.inl directory))
  · exact ne (empty q hq below)
  · exact t.not_mem_files directory file

/-- Something ends up below the target only if it has been below the source. -/
theorem relocate_eq_append (h : t.Movable src dst) (hq : q ∈ t.paths) (ne : q ≠ dst) {r : List α} :
    relocate src dst q = dst ++ r ↔ q = src ++ r := by
  constructor
  · intro eq
    by_cases below : src <+: q
    · obtain ⟨r', rfl⟩ := below
      rw [relocate_append] at eq
      rw [List.append_cancel_left eq]
    · rw [relocate_of_outside below] at eq
      exact absurd (h.eq_of_below hq (eq ▸ List.prefix_append ..)) ne
  · rintro rfl
    exact relocate_append ..

theorem injOn (h : t.Movable src dst) (hp : p ∈ t.paths) (hq : q ∈ t.paths) (p_ne : p ≠ dst) (q_ne : q ≠ dst)
    (eq : relocate src dst p = relocate src dst q) : p = q := by
  by_cases below : src <+: q
  · obtain ⟨r, rfl⟩ := below
    rw [relocate_append] at eq
    exact (h.relocate_eq_append hp p_ne).mp eq
  · by_cases below' : src <+: p
    · obtain ⟨r, rfl⟩ := below'
      rw [relocate_append] at eq
      exact ((h.relocate_eq_append hq q_ne).mp eq.symm).symm
    · rwa [relocate_of_outside below, relocate_of_outside below'] at eq

/-- What is above the target is not moved. -/
theorem above_mem (h : t.Movable src dst) : dst.dropLast ∈ (t.directories.erase dst).image (relocate src dst) := by
  have ne : dst.dropLast ≠ dst := by
    intro eq
    have nil : dst = [] := by
      by_contra ne
      have := congrArg List.length eq
      rw [List.length_dropLast] at this
      have := List.length_pos_iff.mpr ne
      omega
    subst nil
    exact h.outside ((h.eq_of_below h.source List.nil_prefix) ▸ List.prefix_rfl)
  refine Finset.mem_image.mpr ⟨_, Finset.mem_erase.mpr ⟨ne, h.above⟩, relocate_of_outside fun below => ?_⟩
  exact h.outside (below.trans ( List.dropLast_prefix dst))

/-- The tree when `src` has been moved. -/
def move (h : t.Movable src dst) : DirectoryTree α where
  directories := (t.directories.erase dst).image (relocate src dst)
  files := (t.files.erase dst).image (relocate src dst)
  root := by
    refine Finset.mem_image.mpr ⟨[], Finset.mem_erase.mpr ⟨?_, t.root⟩, relocate_of_outside fun below => ?_⟩
    · rintro rfl
      exact h.outside ((h.eq_of_below h.source List.nil_prefix) ▸ List.prefix_rfl)
    · exact h.outside (List.prefix_nil.mp below ▸ List.nil_prefix)
  disjoint := by
    rw [Finset.disjoint_left]
    intro x hd hf
    obtain ⟨p, hp, rfl⟩ := Finset.mem_image.mp hd
    obtain ⟨q, hq, eq⟩ := Finset.mem_image.mp hf
    obtain ⟨p_ne, hp⟩ := Finset.mem_erase.mp hp
    obtain ⟨q_ne, hq⟩ := Finset.mem_erase.mp hq
    have := h.injOn (t.mem_paths.mpr (.inr hq)) (t.mem_paths.mpr (.inl hp)) q_ne p_ne eq
    exact t.not_mem_files hp (this ▸ hq)
  parent := by
    intro p a hx
    obtain ⟨q, hq, q_ne, eq⟩ := t.mem_relocated.mp hx
    by_cases below : src <+: q
    · obtain ⟨r, rfl⟩ := below
      rw [relocate_append] at eq
      rcases List.eq_nil_or_concat r with rfl | ⟨r, b, rfl⟩
      · have : p = dst.dropLast := by rw [← List.append_nil dst, eq, List.dropLast_concat]
        exact this ▸ h.above_mem
      · rw [List.concat_eq_append, ← List.append_assoc] at eq hq
        obtain ⟨rfl, -⟩ := List.append_inj' eq rfl
        have ne : src ++ r ≠ dst := fun eq => h.outside (eq ▸ List.prefix_append ..)
        exact Finset.mem_image.mpr ⟨src ++ r, Finset.mem_erase.mpr ⟨ne, t.parent hq⟩, relocate_append ..⟩
    · rw [relocate_of_outside below] at eq
      subst eq
      have ne : p ≠ dst := by
        rintro rfl
        exact q_ne (h.eq_of_below hq (List.prefix_append ..))
      refine Finset.mem_image.mpr ⟨p, Finset.mem_erase.mpr ⟨ne, t.parent hq⟩, relocate_of_outside fun b => ?_⟩
      exact below (b.trans (List.prefix_append ..))

end Movable

/-- A rename; one of something to where it is does nothing. -/
def rename (src dst : List α) : Option (DirectoryTree α) :=
  if src = dst then if src ∈ t.paths then some t else none
  else if h : t.Movable src dst then some h.move
  else none

/-- **Renames** of something to elsewhere: when they succeed. -/
theorem rename_isSome_iff (ne : src ≠ dst) : (t.rename src dst).isSome ↔ t.Movable src dst := by
  rw [rename, if_neg ne]
  split_ifs with h <;> simp [h]

variable {t}

theorem movable_of_rename (h : t.rename src dst = some t') (ne : src ≠ dst) :
    ∃ movable : t.Movable src dst, t' = movable.move := by
  rw [rename, if_neg ne] at h
  split_ifs at h with movable
  exact ⟨movable, (Option.some.inj h).symm⟩

/-! ### Where things are afterwards -/

/-- What has stood at and below `src` stands at and below `dst`, and nothing at `src`. -/
structure Moved (t t' : DirectoryTree α) (src dst : List α) : Prop where
  directories : ∀ r, dst ++ r ∈ t'.directories ↔ src ++ r ∈ t.directories
  files : ∀ r, dst ++ r ∈ t'.files ↔ src ++ r ∈ t.files
  left : ∀ r, src ++ r ∉ t'.paths

/-- **What a rename moves**. -/
theorem Movable.moved (h : t.Movable src dst) : Moved t h.move src dst := by
  have arrives : ∀ {s : Finset (List α)}, s ⊆ t.paths → ∀ r, dst ++ r ∈ (s.erase dst).image (relocate src dst) ↔
      src ++ r ∈ s := by
    intro s sub r
    rw [Finset.mem_image]
    constructor
    · rintro ⟨q, hq, eq⟩
      obtain ⟨ne, hq⟩ := Finset.mem_erase.mp hq
      exact (h.relocate_eq_append (sub hq) ne).mp eq ▸ hq
    · intro hr
      exact ⟨_, Finset.mem_erase.mpr ⟨fun eq => h.outside (eq ▸ List.prefix_append ..), hr⟩, relocate_append ..⟩
  refine ⟨arrives Finset.subset_union_left, arrives Finset.subset_union_right, fun r hr => ?_⟩
  obtain ⟨q, -, -, eq⟩ := t.mem_relocated.mp hr
  by_cases below : src <+: q
  · obtain ⟨r', rfl⟩ := below
    rw [relocate_append] at eq
    -- a path below both ends would put one below the other
    rcases List.prefix_or_prefix_of_prefix (List.prefix_append src r) (eq ▸ List.prefix_append dst r') with sd | ds
    · exact h.outside sd
    · exact h.outside ((h.eq_of_below h.source ds) ▸ List.prefix_rfl)
  · rw [relocate_of_outside below] at eq
    exact below (eq ▸ List.prefix_append ..)

/-- The two trees agree about what stands at the path. -/
def AgreeAt (t t' : DirectoryTree α) (p : List α) : Prop :=
  (p ∈ t'.directories ↔ p ∈ t.directories) ∧ (p ∈ t'.files ↔ p ∈ t.files)

theorem AgreeAt.mem_paths_iff (h : AgreeAt t t' p) : p ∈ t'.paths ↔ p ∈ t.paths := by
  rw [mem_paths, mem_paths, h.1, h.2]

/-- **What a rename leaves alone**: whatever is neither below the source nor below the target. -/
theorem Movable.elsewhere (h : t.Movable src dst) (hs : ¬ src <+: p) (hd : ¬ dst <+: p) : AgreeAt t h.move p := by
  have stays : ∀ s : Finset (List α), p ∈ (s.erase dst).image (relocate src dst) ↔ p ∈ s := by
    intro s
    rw [Finset.mem_image]
    constructor
    · rintro ⟨q, hq, rfl⟩
      by_cases below : src <+: q
      · obtain ⟨r, rfl⟩ := below
        exact absurd (relocate_append src dst r ▸ List.prefix_append dst r) hd
      · rw [relocate_of_outside below]
        exact (Finset.mem_erase.mp hq).2
    · intro hp
      have ne : p ≠ dst := by
        rintro rfl
        exact hd List.prefix_rfl
      exact ⟨p, Finset.mem_erase.mpr ⟨ne, hp⟩, relocate_of_outside hs⟩
  exact ⟨stays _, stays _⟩

/-! ### Several renames -/

/-- Neither path is below the other. -/
def Apart (p q : List α) : Prop := ¬ p <+: q ∧ ¬ q <+: p

/-- Neither end of the one rename is below, or above, an end of the other. -/
structure Independent (a b : List α × List α) : Prop where
  sources : Apart a.1 b.1
  source_target : Apart a.1 b.2
  target_source : Apart a.2 b.1
  targets : Apart a.2 b.2

/-- Whether there is room does not depend on what stands elsewhere. -/
theorem room_congr (source : AgreeAt t t' src) (target : ∀ q, dst <+: q → AgreeAt t t' q) :
    t'.Room src dst ↔ t.Room src dst := by
  have at_target := target dst List.prefix_rfl
  have below : (∀ q ∈ t'.paths, dst <+: q → q = dst) ↔ ∀ q ∈ t.paths, dst <+: q → q = dst := by
    refine forall_congr' fun q => ?_
    constructor
    · exact fun h hq hd => h ((target q hd).mem_paths_iff.mpr hq) hd
    · exact fun h hq hd => h ((target q hd).mem_paths_iff.mp hq) hd
  rw [Room, Room, below, at_target.mem_paths_iff, source.1, source.2, at_target.1, at_target.2]

/-- Whether something can be moved does not depend on what stands elsewhere. -/
theorem movable_congr (source : AgreeAt t t' src) (above : dst.dropLast ∈ t'.directories ↔ dst.dropLast ∈ t.directories)
    (target : ∀ q, dst <+: q → AgreeAt t t' q) : t'.Movable src dst ↔ t.Movable src dst := by
  rw [movable_iff, movable_iff, source.mem_paths_iff, above, room_congr source target]

/-- Making an independent rename first does not matter. -/
theorem Movable.movable_iff_of_independent {a b : List α × List α} (h : t.Movable a.1 a.2) (ab : Independent a b) :
    h.move.Movable b.1 b.2 ↔ t.Movable b.1 b.2 := by
  refine movable_congr (h.elsewhere ab.sources.1 ab.target_source.1) (h.elsewhere ?_ ?_).1 fun q below => ?_
  · exact fun above => ab.source_target.1 (above.trans ( List.dropLast_prefix _))
  · exact fun above => ab.targets.1 (above.trans ( List.dropLast_prefix _))
  · refine h.elsewhere (fun above => ?_) fun above => ?_
    · rcases List.prefix_or_prefix_of_prefix above below with sd | ds
      · exact ab.source_target.1 sd
      · exact ab.source_target.2 ds
    · rcases List.prefix_or_prefix_of_prefix above below with sd | ds
      · exact ab.targets.1 sd
      · exact ab.targets.2 ds

/-- Several renames, one after the other. -/
def renames (t : DirectoryTree α) (l : List (List α × List α)) : Option (DirectoryTree α) :=
  l.foldlM (fun t r => t.rename r.1 r.2) t

/-- **Independent renames** succeed if each would. -/
theorem renames_isSome_iff {l : List (List α × List α)} (independent : l.Pairwise Independent)
    (ne : ∀ r ∈ l, r.1 ≠ r.2) : (t.renames l).isSome ↔ ∀ r ∈ l, t.Movable r.1 r.2 := by
  induction l generalizing t with
  | nil => simp [renames]
  | cons a l ih =>
    obtain ⟨apart, independent⟩ := List.pairwise_cons.mp independent
    rw [List.forall_mem_cons, ← t.rename_isSome_iff (ne a List.mem_cons_self), renames, List.foldlM_cons]
    cases renamed : t.rename a.1 a.2 with
    | none => simp
    | some t' =>
      obtain ⟨movable, rfl⟩ := movable_of_rename renamed (ne a List.mem_cons_self)
      refine (ih independent fun r hr => ne r (List.mem_cons_of_mem a hr)).trans ?_
      simp only [Option.isSome_some, true_and]
      exact forall₂_congr fun b hb => movable.movable_iff_of_independent (apart b hb)

end DirectoryTree

end CppTransport.Library
