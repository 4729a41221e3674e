import Mathlib.Data.List.Basic
import Mathlib.Data.List.Induction
import Mathlib.Order.Defs.LinearOrder
import Mathlib.Order.Basic
import Mathlib.Order.Lattice

/-!
# Indices whose keys are compared with a tolerance

An index is a list of entries in ascending order of their keys, as an ordered map keeps
them. The comparison `lt` may count two different keys as equivalent (neither before the
other), and this need not be transitive. A search goes to the first key that is not
before the key in question, and succeeds if that key is not after it. As long as the
keys are separated, no two of them being equivalent, the search finds the smallest
equivalent key; insertion and deletion keep the keys separated.

The last part is about building an index again from a list of entries. The list has an
entry for every key there is, equivalent or not; values are in ascending order, as serial
numbers are.
-/

namespace CppTransport.Library

variable {K V : Type*}

/-- A strict comparison with a tolerance. -/
structure Tolerant [LinearOrder K] (lt : K → K → Bool) : Prop where
  /-- What is before is less. -/
  lt_of_before : ∀ {a b}, lt a b = true → a < b
  /-- Moving two keys apart keeps the one before the other. -/
  mono : ∀ {a a' b b'}, a' ≤ a → b ≤ b' → lt a b = true → lt a' b' = true

namespace TolerantIndex

variable (lt : K → K → Bool)

/-- The entry whose key is equivalent to `k`, if a search finds one. -/
def find (k : K) : List (K × V) → Option (K × V)
  | [] => none
  | e :: idx => if lt e.1 k then find k idx else if lt k e.1 then none else some e

/-- An entry for `k`, unless there is one for an equivalent key. -/
def emplace (k : K) (v : V) : List (K × V) → List (K × V)
  | [] => [(k, v)]
  | e :: idx =>
    if lt e.1 k then e :: emplace k v idx else if lt k e.1 then (k, v) :: e :: idx else e :: idx

/-- The index without the entry that a search for `k` finds. -/
def erase (k : K) : List (K × V) → List (K × V)
  | [] => []
  | e :: idx => if lt e.1 k then e :: erase k idx else if lt k e.1 then e :: idx else idx

/-- The index after entries were inserted one after another. -/
def insert_all (l : List (K × V)) : List (K × V) := l.foldl (fun idx e => emplace lt e.1 e.2 idx) []

/-- The entry has a place in the index: its own, or that of an equivalent key with a smaller value. -/
def Represents [LE V] (idx : List (K × V)) (e : K × V) : Prop :=
  ∃ x ∈ idx, x.2 ≤ e.2 ∧ lt x.1 e.1 = false ∧ lt e.1 x.1 = false

/-- Keys in ascending order, no two equivalent. -/
def Separated (idx : List (K × V)) : Prop := idx.Pairwise fun a b => lt a.1 b.1 = true

variable {lt} {k : K} {v : V} {e : K × V} {idx : List (K × V)}

theorem find_eq_some (h : find lt k idx = some e) : e ∈ idx ∧ lt e.1 k = false ∧ lt k e.1 = false := by
  induction idx with
  | nil => cases h
  | cons x idx ih =>
    rw [find] at h
    split_ifs at h with hx hk
    · obtain ⟨he, hl⟩ := ih h
      exact ⟨List.mem_cons_of_mem _ he, hl⟩
    · cases h
      exact ⟨List.mem_cons_self, by simpa using hx, by simpa using hk⟩

theorem Separated.eq_or_before (sep : Separated lt idx) {a b : K × V} (ha : a ∈ idx) (hb : b ∈ idx) :
    a = b ∨ lt a.1 b.1 = true ∨ lt b.1 a.1 = true := by
  induction idx with
  | nil => cases ha
  | cons x idx ih =>
    obtain ⟨hx, sep⟩ := List.pairwise_cons.mp sep
    rcases List.mem_cons.mp ha with hax | ha <;> rcases List.mem_cons.mp hb with hbx | hb
    · exact .inl (hax.trans hbx.symm)
    · exact .inr (.inl (hax ▸ hx b hb))
    · exact .inr (.inr (hbx ▸ hx a ha))
    · exact ih sep ha hb

theorem Separated.filter (sep : Separated lt idx) (p : K × V → Bool) : Separated lt (idx.filter p) :=
  List.Pairwise.sublist List.filter_sublist sep

/-- **Insertion** where the search fails: the new entry and the old ones, in order. -/
theorem emplace_perm (h : find lt k idx = none) : (emplace lt k v idx).Perm ((k, v) :: idx) := by
  induction idx with
  | nil => exact List.Perm.refl _
  | cons x idx ih =>
    rw [find] at h
    rw [emplace]
    split_ifs at h ⊢
    · exact ((ih h).cons x).trans (List.Perm.swap _ _ _)
    · exact List.Perm.refl _

/-- Nothing happens where the search succeeds. -/
theorem emplace_of_find (h : find lt k idx = some e) : emplace lt k v idx = idx := by
  induction idx with
  | nil => cases h
  | cons x idx ih =>
    rw [find] at h
    rw [emplace]
    split_ifs at h ⊢
    · rw [ih h]
    · rfl

theorem erase_sublist (k : K) (idx : List (K × V)) : (erase lt k idx).Sublist idx := by
  induction idx with
  | nil => exact List.Sublist.refl _
  | cons x idx ih =>
    rw [erase]
    split_ifs
    · exact ih.cons_cons x
    · exact List.Sublist.refl _
    · exact List.sublist_cons_self x idx

theorem mem_emplace_iff (h : find lt k idx = none) : e ∈ emplace lt k v idx ↔ e = (k, v) ∨ e ∈ idx := by
  rw [(emplace_perm (v := v) h).mem_iff, List.mem_cons]

theorem mem_emplace_of_mem (he : e ∈ idx) : e ∈ emplace lt k v idx := by
  cases h : find lt k idx with
  | none => exact (mem_emplace_iff h).mpr (.inr he)
  | some x => rwa [emplace_of_find h]

theorem insert_all_concat (l : List (K × V)) (e : K × V) :
    insert_all lt (l ++ [e]) = emplace lt e.1 e.2 (insert_all lt l) := by
  rw [insert_all, List.foldl_append]
  rfl

theorem insert_all_subset_append (l l' : List (K × V)) : insert_all lt l ⊆ insert_all lt (l ++ l') := by
  induction l' using List.reverseRecOn with
  | nil => simp
  | append_singleton l' e ih =>
    rw [← List.append_assoc, insert_all_concat]
    exact fun x hx => mem_emplace_of_mem (ih hx)

theorem insert_all_subset (l : List (K × V)) : insert_all lt l ⊆ l := by
  induction l using List.reverseRecOn with
  | nil => simp [insert_all]
  | append_singleton l e ih =>
    rw [insert_all_concat]
    cases h : find lt e.1 (insert_all lt l) with
    | none =>
      intro x hx
      rcases (mem_emplace_iff h).mp hx with rfl | hx
      · simp
      · exact List.mem_append_left _ (ih hx)
    | some x =>
      rw [emplace_of_find h]
      exact fun x hx => List.mem_append_left _ (ih hx)

variable [LinearOrder K]

section Laws

variable (t : Tolerant lt)
include t

theorem not_before_self (a : K) : lt a a = false := by
  cases h : lt a a with
  | false => rfl
  | true => exact absurd (t.lt_of_before h) (lt_irrefl a)

/-- **Search**: it finds the smallest of the equivalent keys. -/
theorem find_eq_some_iff (sep : Separated lt idx) :
    find lt k idx = some e ↔
      e ∈ idx ∧ lt e.1 k = false ∧ lt k e.1 = false ∧ ∀ e' ∈ idx, e'.1 < e.1 → lt e'.1 k = true := by
  induction idx with
  | nil => simp [find]
  | cons x idx ih =>
    obtain ⟨hx, sep⟩ := List.pairwise_cons.mp sep
    have ih := ih sep
    have above : ∀ y ∈ idx, x.1 < y.1 := fun y hy => t.lt_of_before (hx y hy)
    rw [find]
    split_ifs with hxk hkx
    · rw [ih]
      constructor
      · rintro ⟨he, h₁, h₂, least⟩
        refine ⟨List.mem_cons_of_mem _ he, h₁, h₂, fun e' he' hlt => ?_⟩
        rcases List.mem_cons.mp he' with rfl | he'
        · exact hxk
        · exact least e' he' hlt
      · rintro ⟨he, h₁, h₂, least⟩
        rcases List.mem_cons.mp he with rfl | he
        · rw [hxk] at h₁
          cases h₁
        · exact ⟨he, h₁, h₂, fun e' he' => least e' (List.mem_cons_of_mem _ he')⟩
    · simp only [false_iff]
      rintro ⟨he, h₁, h₂, least⟩
      rcases List.mem_cons.mp he with rfl | he
      · rw [hkx] at h₂
        cases h₂
      · exact hxk (least x (by simp) (above e he))
    · constructor
      · rintro ⟨⟩
        refine ⟨by simp, by simpa using hxk, by simpa using hkx, fun e' he' hlt => ?_⟩
        rcases List.mem_cons.mp he' with rfl | he'
        · exact absurd hlt (lt_irrefl _)
        · exact absurd (above e' he') (lt_asymm hlt)
      · rintro ⟨he, h₁, h₂, least⟩
        rcases List.mem_cons.mp he with rfl | he
        · rfl
        · exact absurd (least x (by simp) (above e he)) hxk

/-- A search succeeds if there is an equivalent key. -/
theorem find_isSome (sep : Separated lt idx) (he : e ∈ idx)
    (h₁ : lt e.1 k = false) (h₂ : lt k e.1 = false) : (find lt k idx).isSome := by
  induction idx with
  | nil => cases he
  | cons x idx ih =>
    obtain ⟨hx, sep⟩ := List.pairwise_cons.mp sep
    rw [find]
    split_ifs with hxk hkx
    · rcases List.mem_cons.mp he with rfl | he
      · rw [hxk] at h₁
        cases h₁
      · exact ih sep he
    · exfalso
      rcases List.mem_cons.mp he with rfl | he
      · rw [hkx] at h₂
        cases h₂
      · have hxe := t.lt_of_before (hx e he)
        rw [t.mono le_rfl hxe.le hkx] at h₂
        cases h₂
    · rfl

/-- A key of the index is found itself. -/
theorem find_key (sep : Separated lt idx) (he : e ∈ idx) : find lt e.1 idx = some e := by
  have self := not_before_self t e.1
  refine (find_eq_some_iff t sep).mpr ⟨he, self, self, fun e' he' hlt => ?_⟩
  rcases sep.eq_or_before he' he with rfl | h | h
  · exact absurd hlt (lt_irrefl _)
  · exact h
  · exact absurd (t.lt_of_before h) (lt_asymm hlt)

/-! ### Insertion and deletion -/

theorem Separated.emplace (sep : Separated lt idx) (h : find lt k idx = none) :
    Separated lt (emplace lt k v idx) := by
  induction idx with
  | nil => simp [TolerantIndex.emplace, Separated]
  | cons x idx ih =>
    obtain ⟨hx, sep'⟩ := List.pairwise_cons.mp sep
    rw [find] at h
    rw [TolerantIndex.emplace]
    split_ifs at h ⊢ with hxk hkx
    · refine List.pairwise_cons.mpr ⟨fun e he => ?_, ih sep' h⟩
      rcases (mem_emplace_iff h).mp he with rfl | he
      · exact hxk
      · exact hx e he
    · refine List.pairwise_cons.mpr ⟨fun e he => ?_, sep⟩
      rcases List.mem_cons.mp he with rfl | he
      · exact hkx
      · have hxe := t.lt_of_before (hx e he)
        exact t.mono le_rfl (le_of_lt hxe) hkx

/-- **Deletion** of a key of the index: exactly its own entry goes. -/
theorem erase_key (sep : Separated lt idx) (he : e ∈ idx) :
    erase lt e.1 idx = idx.filter fun x => x.1 ≠ e.1 := by
  induction idx with
  | nil => cases he
  | cons x idx ih =>
    obtain ⟨hx, sep'⟩ := List.pairwise_cons.mp sep
    have above : ∀ y ∈ idx, x.1 < y.1 := fun y hy => t.lt_of_before (hx y hy)
    rw [erase]
    rcases List.mem_cons.mp he with rfl | he
    · rw [not_before_self t e.1]
      have rest : ∀ y ∈ idx, decide (y.1 ≠ e.1) = true := fun y hy => by simpa using (above y hy).ne'
      rw [if_neg (by simp), if_neg (by simp), List.filter_cons_of_neg (by simp), List.filter_eq_self.mpr rest]
    · rw [if_pos (hx e he), ih sep' he,
        List.filter_cons_of_pos (by simpa using (above e he).ne)]

/-! ### Building it again -/

/-- Separated indices with the same entries are the same. -/
theorem Separated.eq_of_mem_iff {idx' : List (K × V)} (sep : Separated lt idx) (sep' : Separated lt idx')
    (h : ∀ e, e ∈ idx ↔ e ∈ idx') : idx = idx' := by
  have nodup : ∀ {l : List (K × V)}, Separated lt l → l.Nodup := fun sep => sep.imp fun hab heq => by
    rw [heq, not_before_self t] at hab
    cases hab
  refine List.Perm.eq_of_pairwise (fun a b _ _ hab hba => ?_) sep sep'
    ((List.perm_ext_iff_of_nodup (nodup sep) (nodup sep')).mpr h)
  exact absurd (t.lt_of_before hab) (lt_asymm (t.lt_of_before hba))

variable [LinearOrder V] {l : List (K × V)}

/-- The list holds the entries with smaller values of an index whose entries it all holds. -/
theorem insert_all_eq_filter {m : List (K × V)} (sep : Separated lt idx) (sub : idx ⊆ l ++ m)
    (sorted : (l ++ m).Pairwise fun a b => a.2 < b.2) (h : ∀ e ∈ l, Represents lt idx e) :
    Separated lt (insert_all lt l) ∧ ∀ e, e ∈ insert_all lt l ↔ e ∈ idx ∧ e ∈ l := by
  induction l using List.reverseRecOn generalizing m with
  | nil => simp [insert_all, Separated]
  | append_singleton l e ih =>
    obtain ⟨sep', mem⟩ := ih (m := e :: m) (by simpa using sub) (by simpa using sorted)
      fun x hx => h x (List.mem_append_left _ hx)
    rw [List.append_assoc] at sorted sub
    obtain ⟨-, tail, below⟩ := List.pairwise_append.mp sorted
    have above : ∀ x ∈ m, e.2 < x.2 := (List.pairwise_cons.mp tail).1
    have new : e ∉ l := fun he => lt_irrefl _ (below e he e List.mem_cons_self)
    rw [insert_all_concat]
    cases hf : find lt e.1 (insert_all lt l) with
    | some x =>
      -- an equivalent key is there already, so the entry is not in the index
      obtain ⟨hx, h₁, h₂⟩ := find_eq_some hf
      have absent : e ∉ idx := fun he => by
        rcases sep.eq_or_before ((mem x).mp hx).1 he with rfl | hlt | hlt
        · exact new ((mem x).mp hx).2
        · rw [h₁] at hlt
          cases hlt
        · rw [h₂] at hlt
          cases hlt
      rw [emplace_of_find hf]
      refine ⟨sep', fun y => (mem y).trans ⟨fun ⟨hy, hl⟩ => ⟨hy, List.mem_append_left _ hl⟩, ?_⟩⟩
      rintro ⟨hy, hl⟩
      rcases List.mem_append.mp hl with hl | hl
      · exact ⟨hy, hl⟩
      · exact absurd (List.mem_singleton.mp hl ▸ hy) absent
    | none =>
      -- what represents the entry is not among the smaller ones, so it is the entry itself
      obtain ⟨x, hx, hle, h₁, h₂⟩ := h e (by simp)
      have present : e ∈ idx := by
        have hxl : x ∉ l := fun hl => by
          have found := find_isSome t sep' ((mem x).mpr ⟨hx, hl⟩) h₁ h₂
          rw [hf] at found
          cases found
        rcases List.mem_append.mp (sub hx) with hl | hl
        · exact absurd hl hxl
        · rcases List.mem_cons.mp hl with rfl | hm
          · exact hx
          · exact absurd hle (not_le.mpr (above x hm))
      refine ⟨sep'.emplace t hf, fun y => ?_⟩
      rw [mem_emplace_iff hf, mem, List.mem_append, List.mem_singleton]
      constructor
      · rintro (rfl | ⟨hy, hl⟩)
        · exact ⟨present, .inr rfl⟩
        · exact ⟨hy, .inl hl⟩
      · rintro ⟨hy, hl | rfl⟩
        · exact .inr ⟨hy, hl⟩
        · exact .inl rfl

/-- **Rebuilding**: the entries give an index back just if each has a place in it. -/
theorem insert_all_eq_iff (sep : Separated lt idx) (sub : idx ⊆ l) (sorted : l.Pairwise fun a b => a.2 < b.2) :
    insert_all lt l = idx ↔ ∀ e ∈ l, Represents lt idx e := by
  constructor
  · rintro rfl e he
    obtain ⟨l₁, l₂, rfl⟩ := List.append_of_mem he
    obtain ⟨-, -, below⟩ := List.pairwise_append.mp sorted
    have self := not_before_self t e.1
    rw [show l₁ ++ e :: l₂ = (l₁ ++ [e]) ++ l₂ by simp]
    cases hf : find lt e.1 (insert_all lt l₁) with
    | none =>
      refine ⟨e, insert_all_subset_append _ _ ?_, le_rfl, self, self⟩
      rw [insert_all_concat]
      exact (mem_emplace_iff hf).mpr (.inl rfl)
    | some x =>
      obtain ⟨hx, h₁, h₂⟩ := find_eq_some hf
      refine ⟨x, insert_all_subset_append _ _ ?_, (below x (insert_all_subset _ hx) e List.mem_cons_self).le, h₁, h₂⟩
      rw [insert_all_concat]
      exact mem_emplace_of_mem hx
  · intro h
    obtain ⟨sep', mem⟩ := insert_all_eq_filter t (m := []) sep (by simpa using sub) (by simpa using sorted) h
    exact sep'.eq_of_mem_iff t sep fun e => (mem e).trans ⟨And.left, fun he => ⟨he, sub he⟩⟩

end Laws

end TolerantIndex

end CppTransport.Library
