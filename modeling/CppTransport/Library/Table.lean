import Mathlib.Algebra.Ring.Nat
import Mathlib.Data.List.Induction
import Mathlib.Data.List.Nodup
import Mathlib.Data.List.TakeWhile

/-!
# Tables of records, and loops that collect or delete

A component that keeps one record per worker, task or row updates one entry at
a time and maintains counters beside the table. The first part has the facts such
an update needs: what the entries are afterwards, and how a count of entries
changes. The second part is about loops that run over a list of keys and, at each
key, collect elements into a set, take elements out of it, or delete rows. Between them
are records in the order of their serial numbers, and rows that are decoded.
-/

namespace CppTransport.Library

variable {α : Type*} {l : List α} {i j : ℕ} {a b c : α}

/-- The entries of a table after entry `i` was replaced by `b`. -/
theorem getElem?_set_eq_some_iff (h : l[i]? = some a) :
    (l.set i b)[j]? = some c ↔ (j = i ∧ c = b) ∨ (j ≠ i ∧ l[j]? = some c) := by
  have hlt : i < l.length := (List.getElem?_eq_some_iff.mp h).1
  by_cases hij : i = j
  · subst hij
    simp [hlt, eq_comm]
  · simp [hij, Ne.symm hij]

/-- A count loses the entry replaced and gains the new one. -/
theorem countP_set_add (h : l[i]? = some a) (p : α → Bool) :
    (l.set i b).countP p + (if p a then 1 else 0) = l.countP p + (if p b then 1 else 0) := by
  obtain ⟨hlt, rfl⟩ := List.getElem?_eq_some_iff.mp h
  rw [List.countP_set hlt]
  by_cases hp : p l[i] = true
  · have : 0 < l.countP p := List.countP_pos_iff.mpr ⟨l[i], List.getElem_mem hlt, hp⟩
    simp only [hp, if_true]
    omega
  · simp [hp]

/-- A column of the table that the new entry shares with the old one stays the same. -/
theorem map_set_of_eq {β : Type*} {f : α → β} (h : l[i]? = some a) (hf : f b = f a) :
    (l.set i b).map f = l.map f := by
  obtain ⟨hlt, rfl⟩ := List.getElem?_eq_some_iff.mp h
  rw [List.map_set, hf, ← List.getElem_map f (h := by simpa using hlt), List.set_getElem_self]

/-- A total over the entries loses the share of the entry replaced and gains that of the new one. -/
theorem sum_map_set_add (h : l[i]? = some a) (f : α → ℕ) :
    ((l.set i b).map f).sum + f a = (l.map f).sum + f b := by
  induction l generalizing i with
  | nil => simp at h
  | cons x l ih =>
    cases i with
    | zero =>
      obtain rfl : x = a := by simpa using h
      simp only [List.set_cons_zero, List.map_cons, List.sum_cons]
      omega
    | succ i =>
      have := ih (show l[i]? = some a by simpa using h)
      simp only [List.set_cons_succ, List.map_cons, List.sum_cons]
      omega

/-- An entry that counts makes the count positive. -/
theorem countP_pos_of_getElem? {p : α → Bool} (h : l[i]? = some a) (hp : p a = true) :
    0 < l.countP p :=
  List.countP_pos_iff.mpr ⟨a, List.mem_of_getElem? h, hp⟩

/-- Where no two records share a key, a search for a key finds the record that has it. -/
theorem find?_key_eq_some_iff {κ : Type*} [DecidableEq κ] {key : α → κ} (nodup : (l.map key).Nodup)
    {k : κ} : l.find? (fun x => key x = k) = some a ↔ a ∈ l ∧ key a = k := by
  constructor
  · intro h
    exact ⟨List.mem_of_find?_eq_some h, by simpa using List.find?_some h⟩
  · rintro ⟨ha, rfl⟩
    obtain ⟨b, hb⟩ : ∃ b, l.find? (fun x => key x = key a) = some b :=
      Option.isSome_iff_exists.mp (List.find?_isSome.mpr ⟨a, ha, by simp⟩)
    have same : key b = key a := by simpa using List.find?_some hb
    rw [hb, List.inj_on_of_nodup_map nodup (List.mem_of_find?_eq_some hb) ha same]

/-! ### Lists of lists -/

section Frame

variable {κ β : Type*} [DecidableEq κ] {key : α → κ}

/-- A list whose elements have different keys, without the element of one key. -/
theorem perm_cons_filter_key (nodup : (l.map key).Nodup) (ha : a ∈ l) :
    l.Perm (a :: l.filter fun x => key x ≠ key a) := by
  obtain ⟨l₁, l₂, rfl⟩ := List.append_of_mem ha
  rw [List.map_append, List.map_cons] at nodup
  obtain ⟨-, h₂, h₁⟩ := List.nodup_append.mp nodup
  have keep₁ : ∀ x ∈ l₁, decide (key x ≠ key a) = true := fun x hx => by
    simpa using h₁ _ (List.mem_map_of_mem hx) _ List.mem_cons_self
  have keep₂ : ∀ x ∈ l₂, decide (key x ≠ key a) = true := fun x hx => by
    simpa using ne_of_mem_of_not_mem (List.mem_map_of_mem hx) (List.nodup_cons.mp h₂).1
  rw [List.filter_append, List.filter_cons_of_neg (by simp), List.filter_eq_self.mpr keep₁,
    List.filter_eq_self.mpr keep₂]
  exact List.perm_middle

/-- **Frame**: what hangs on the one element with its key, and what hangs on all others and does not depend on it. -/
theorem exists_frame_map (nodup : (l.map key).Nodup) (ha : a ∈ l) (F : α → List β) :
    ∃ rest, (l.flatMap F).Perm (F a ++ rest) ∧
      ∀ u : α → α, ((l.map fun x => if key x = key a then u x else x).flatMap F).Perm (F (u a) ++ rest) := by
  obtain ⟨l₁, l₂, rfl⟩ := List.append_of_mem ha
  rw [List.map_append, List.map_cons] at nodup
  obtain ⟨-, h₂, h₁⟩ := List.nodup_append.mp nodup
  refine ⟨l₁.flatMap F ++ l₂.flatMap F, ?_, fun u => ?_⟩
  · rw [List.flatMap_append, List.flatMap_cons]
    exact List.perm_append_comm_assoc _ _ _
  · have same₁ : l₁.map (fun x => if key x = key a then u x else x) = l₁ :=
      (List.map_congr_left fun x hx => if_neg (h₁ _ (List.mem_map_of_mem hx) _ List.mem_cons_self)).trans
        (List.map_id _)
    have same₂ : l₂.map (fun x => if key x = key a then u x else x) = l₂ :=
      (List.map_congr_left fun x hx => if_neg
        (ne_of_mem_of_not_mem (List.mem_map_of_mem hx) (List.nodup_cons.mp h₂).1)).trans (List.map_id _)
    rw [List.map_append, List.map_cons, if_pos rfl, same₁, same₂, List.flatMap_append, List.flatMap_cons]
    exact List.perm_append_comm_assoc _ _ _

/-- The same where the parts belong to indices. -/
theorem exists_frame_update {ks : List κ} {k : κ} (nodup : ks.Nodup) (hk : k ∈ ks) (F : κ → List β) :
    ∃ rest, (ks.flatMap F).Perm (F k ++ rest) ∧ ∀ v, (ks.flatMap (Function.update F k v)).Perm (v ++ rest) := by
  obtain ⟨l₁, l₂, rfl⟩ := List.append_of_mem hk
  obtain ⟨-, h₂, h₁⟩ := List.nodup_append.mp nodup
  refine ⟨l₁.flatMap F ++ l₂.flatMap F, ?_, fun v => ?_⟩
  · rw [List.flatMap_append, List.flatMap_cons]
    exact List.perm_append_comm_assoc _ _ _
  · have same₁ : l₁.flatMap (Function.update F k v) = l₁.flatMap F :=
      List.flatMap_congr fun x hx => Function.update_of_ne (h₁ x hx k List.mem_cons_self) _ _
    have same₂ : l₂.flatMap (Function.update F k v) = l₂.flatMap F :=
      List.flatMap_congr fun x hx => Function.update_of_ne
        (ne_of_mem_of_not_mem hx (List.nodup_cons.mp h₂).1) _ _
    rw [List.flatMap_append, List.flatMap_cons, Function.update_self, same₁, same₂]
    exact List.perm_append_comm_assoc _ _ _

end Frame

/-! ### Records kept in the order of their serial numbers -/

section Serial

variable {serial : α → ℕ}

/-- `std::map::emplace`: nothing happens if the serial number is there. -/
def emplaceBySerial (serial : α → ℕ) (a : α) (l : List α) : List α :=
  if l.any (fun x => serial x = serial a) then l
  else l.takeWhile (fun x => serial x < serial a) ++ a :: l.dropWhile (fun x => serial x < serial a)

/-- A serial number above all others goes to the end. -/
theorem emplaceBySerial_eq_append (above : ∀ x ∈ l, serial x < serial a) : emplaceBySerial serial a l = l ++ [a] := by
  have fresh : l.any (fun x => serial x = serial a) = false := by
    simp only [List.any_eq_false, decide_eq_true_eq]
    exact fun x hx => Nat.ne_of_lt (above x hx)
  have all : ∀ x ∈ l, decide (serial x < serial a) = true := fun x hx => by simpa using above x hx
  rw [emplaceBySerial, fresh, if_neg (by simp), List.takeWhile_eq_self_iff.mpr all,
    List.dropWhile_eq_nil_iff.mpr all]

/-- `INSERT` into a table with a primary key: it fails if the key is there. -/
def insertByKey (serial : α → ℕ) (l : List α) (a : α) : Option (List α) :=
  if l.any (fun x => serial x = serial a) then none else some (emplaceBySerial serial a l)

theorem insertByKey_eq_append (above : ∀ x ∈ l, serial x < serial a) :
    insertByKey serial l a = some (l ++ [a]) := by
  have fresh : l.any (fun x => serial x = serial a) = false := by
    simp only [List.any_eq_false, decide_eq_true_eq]
    exact fun x hx => Nat.ne_of_lt (above x hx)
  rw [insertByKey, fresh, if_neg (by simp), emplaceBySerial_eq_append above]

end Serial

/-! ### Rows that are decoded one after another -/

section Decode

variable {β γ : Type*} {f : α → Option β} {l' : List β}

/-- A loop that decodes a row and goes on with the result decodes all rows first, as well. -/
theorem foldlM_map_eq_mapM (f : α → Option β) (g : γ → β → γ) (l : List α) (c : γ) :
    l.foldlM (fun c a => (f a).map (g c)) c = (l.mapM f).map fun l' => l'.foldl g c := by
  induction l generalizing c with
  | nil => rfl
  | cons a l ih =>
    rw [List.foldlM_cons, List.mapM_cons]
    cases f a with
    | none => rfl
    | some b =>
      simp only [Option.map_some, Option.bind_eq_bind, Option.bind_some, ih]
      cases l.mapM f <;> rfl

/-- A column that decoding keeps. -/
theorem map_eq_of_mapM {κ : Type*} {key : α → κ} {key' : β → κ} (hf : ∀ a b, f a = some b → key' b = key a)
    (h : l.mapM f = some l') : l'.map key' = l.map key := by
  induction l generalizing l' with
  | nil =>
    obtain rfl : [] = l' := Option.some.inj h
    rfl
  | cons a l ih =>
    simp only [List.mapM_cons, Option.bind_eq_bind, Option.bind_eq_some_iff, Option.pure_def, Option.some.injEq] at h
    obtain ⟨b, hb, l₁, h₁, rfl⟩ := h
    rw [List.map_cons, List.map_cons, hf a b hb, ih h₁]

theorem mapM_eq_some_map {f : α → Option β} {g : α → β} {l : List α} (h : ∀ a ∈ l, f a = some (g a)) :
    l.mapM f = some (l.map g) := by
  induction l with
  | nil => rfl
  | cons a l ih =>
    obtain ⟨first, rest⟩ := List.forall_mem_cons.mp h
    rw [List.mapM_cons, first, ih rest]
    rfl

/-- Decoding gives a list back just if it gives each of its elements back. -/
theorem mapM_eq_some_self_iff {f : α → Option α} : l.mapM f = some l ↔ ∀ a ∈ l, f a = some a := by
  induction l with
  | nil => simp
  | cons a l ih =>
    simp only [List.mapM_cons, Option.bind_eq_bind, Option.bind_eq_some_iff, Option.pure_def, Option.some.injEq,
      List.forall_mem_cons, ← ih, List.cons.injEq]
    constructor
    · rintro ⟨b, hb, l₁, h₁, rfl, rfl⟩
      exact ⟨hb, h₁⟩
    · rintro ⟨ha, hl⟩
      exact ⟨a, ha, l, hl, rfl, rfl⟩

end Decode

/-! ### Loops over a list of keys -/

section Loops

variable {κ γ ε : Type*} [Membership ε γ] {f : γ → κ → γ} {P : κ → ε → Prop}

/-- What a loop collects is what it started with and what some round of it adds. -/
theorem mem_foldl_iff_of_adds (hf : ∀ acc k x, x ∈ f acc k ↔ x ∈ acc ∨ P k x)
    (ks : List κ) (acc : γ) (x : ε) : x ∈ ks.foldl f acc ↔ x ∈ acc ∨ ∃ k ∈ ks, P k x := by
  induction ks generalizing acc with
  | nil => simp
  | cons k ks ih => simp [ih, hf, or_assoc]

/-- What a loop leaves is what it started with and what no round of it takes out. -/
theorem mem_foldl_iff_of_removes (hf : ∀ acc k x, x ∈ f acc k ↔ x ∈ acc ∧ ¬ P k x)
    (ks : List κ) (acc : γ) (x : ε) : x ∈ ks.foldl f acc ↔ x ∈ acc ∧ ∀ k ∈ ks, ¬ P k x := by
  induction ks generalizing acc with
  | nil => simp
  | cons k ks ih => simp [ih, hf, and_assoc]

/-- Rows deleted key by key: those that no key deletes are left, in their order. -/
theorem foldl_filter_eq (p : κ → α → Bool) (ks : List κ) (l : List α) :
    ks.foldl (fun t k => t.filter (p k)) l = l.filter fun r => ks.all fun k => p k r := by
  induction ks generalizing l with
  | nil => simp
  | cons k ks ih =>
    rw [List.foldl_cons, ih, List.filter_filter]
    refine List.filter_congr fun r _ => ?_
    simp [Bool.and_comm]

end Loops

end CppTransport.Library
