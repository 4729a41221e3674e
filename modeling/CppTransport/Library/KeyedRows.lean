import CppTransport.Library.Table
import Mathlib.Algebra.Group.WithOne.Basic
import Mathlib.Algebra.BigOperators.Group.List.Basic
import Mathlib.Algebra.Ring.Int.Defs
import Mathlib.Data.List.Perm.Basic
import Mathlib.Data.List.Sort

/-!
# Tables with a primary key

A table is the list of its rows, and a primary key is a function of the row that no two rows
share (`Keyed`). The statements of SQL that differ in what they do with a row whose key is
already there are `insert`, which fails, `insert_or_ignore` and `insert_or_replace`; `left_join`
pairs a row with the rows that match it, or with nothing.

The second part is about tables whose rows are totals. The `amount` of a table at a key is the
sum of the values of its rows with that key, with a zero adjoined that stands for no row at all:
so amounts also say which keys there are. Merging one table into another by adding values adds
the amounts.

The last part is about the join of a table with a column of numbers, in the order of the numbers.
-/

namespace CppTransport.Library.Rows

variable {ρ κ : Type*} (key : ρ → κ) {t u : List ρ} {r : ρ}

/-- No two rows share a key. -/
def Keyed (t : List ρ) : Prop := (t.map key).Nodup

/-- `LEFT JOIN`, where `on` says which rows match. -/
def left_join {σ : Type*} (on : ρ → σ → Bool) (t : List ρ) (u : List σ) : List (ρ × Option σ) :=
  t.flatMap fun r =>
    match u.filter (on r) with
    | [] => [(r, none)]
    | ss => ss.map fun s => (r, some s)

section Keys

variable {key}

theorem Keyed.perm (h : Keyed key t) (hp : t.Perm u) : Keyed key u := (hp.map key).nodup_iff.mp h

theorem Keyed.sublist (h : Keyed key u) (hs : t.Sublist u) : Keyed key t := List.Nodup.sublist (hs.map key) h

theorem Keyed.filter (h : Keyed key t) (p : ρ → Bool) : Keyed key (t.filter p) := h.sublist List.filter_sublist

theorem keyed_cons : Keyed key (r :: t) ↔ (∀ x ∈ t, key x ≠ key r) ∧ Keyed key t := by
  simp [Keyed]

/-- Tables with the same rows are the same up to order. -/
theorem Keyed.perm_of_mem_iff (ht : Keyed key t) (hu : Keyed key u) (h : ∀ r, r ∈ t ↔ r ∈ u) : t.Perm u :=
  (List.perm_ext_iff_of_nodup ht.of_map hu.of_map).mpr h

theorem keyed_append : Keyed key (t ++ u) ↔ Keyed key t ∧ Keyed key u ∧ ∀ x ∈ t, ∀ y ∈ u, key x ≠ key y := by
  simp [Keyed, List.nodup_append]

end Keys

variable [DecidableEq κ]

/-- `INSERT`: nothing is inserted if the key is there. -/
def insert (t : List ρ) (r : ρ) : Option (List ρ) := if key r ∈ t.map key then none else some (t ++ [r])

/-- `INSERT OR REPLACE`. -/
def insert_or_replace (t : List ρ) (r : ρ) : List ρ := t.filter (fun x => key x ≠ key r) ++ [r]

/-- `INSERT OR IGNORE`: the row that is there stays. -/
def insert_or_ignore (t : List ρ) (r : ρ) : List ρ := if key r ∈ t.map key then t else t ++ [r]

variable {key}

/-- Where no two rows to be inserted could differ, ignoring what is there loses nothing. -/
theorem insert_or_ignore_all {all : List ρ} (hall : Keyed key all) (ht : Keyed key t) (t_sub : ∀ x ∈ t, x ∈ all)
    (u_sub : ∀ x ∈ u, x ∈ all) : Keyed key (u.foldl (insert_or_ignore key) t) ∧
      ∀ x, x ∈ u.foldl (insert_or_ignore key) t ↔ x ∈ t ∨ x ∈ u := by
  induction u generalizing t with
  | nil => simpa using ht
  | cons r u ih =>
    have hr : r ∈ all := u_sub r List.mem_cons_self
    have u_sub' : ∀ x ∈ u, x ∈ all := fun x hx => u_sub x (List.mem_cons_of_mem r hx)
    rw [List.foldl_cons, insert_or_ignore]
    split_ifs with old
    · obtain ⟨y, hy, hkey⟩ := List.mem_map.mp old
      obtain rfl : y = r := List.inj_on_of_nodup_map hall (t_sub y hy) hr hkey
      refine ⟨(ih ht t_sub u_sub').1, fun x => ?_⟩
      rw [(ih ht t_sub u_sub').2, List.mem_cons]
      constructor
      · exact Or.imp_right .inr
      · rintro (hx | rfl | hx)
        · exact .inl hx
        · exact .inl hy
        · exact .inr hx
    · have ht' : Keyed key (t ++ [r]) := by
        refine keyed_append.mpr ⟨ht, by simp [Keyed], fun x hx y hy hkey => ?_⟩
        rw [List.mem_singleton.mp hy] at hkey
        exact old (hkey ▸ List.mem_map_of_mem hx)
      have t_sub' : ∀ x ∈ t ++ [r], x ∈ all := by
        intro x hx
        rcases List.mem_append.mp hx with hx | hx
        · exact t_sub x hx
        · exact List.mem_singleton.mp hx ▸ hr
      refine ⟨(ih ht' t_sub' u_sub').1, fun x => ?_⟩
      rw [(ih ht' t_sub' u_sub').2, List.mem_append, List.mem_singleton, List.mem_cons, or_assoc]

/-- Rows of different keys are all inserted, if none of the keys is there. -/
theorem insert_all_eq_some (h : Keyed key (t ++ u)) : u.foldlM (insert key) t = some (t ++ u) := by
  induction u generalizing t with
  | nil => simp
  | cons r u ih =>
    have hr : key r ∉ t.map key := by
      intro hmem
      obtain ⟨x, hx, hkey⟩ := List.mem_map.mp hmem
      exact (keyed_append.mp h).2.2 x hx r List.mem_cons_self hkey
    have happend : t ++ r :: u = (t ++ [r]) ++ u := by simp
    rw [List.foldlM_cons, insert, if_neg hr, happend]
    exact ih (happend ▸ h)

/-- What has been inserted row by row has different keys. -/
theorem of_insert_all_eq_some {v : List ρ} (ht : Keyed key t) (h : u.foldlM (insert key) t = some v) :
    v = t ++ u ∧ Keyed key v := by
  induction u generalizing t with
  | nil =>
    cases h
    exact ⟨(List.append_nil _).symm, ht⟩
  | cons r u ih =>
    rw [List.foldlM_cons] at h
    obtain ⟨t', inserted, rest⟩ := Option.bind_eq_some_iff.mp h
    unfold insert at inserted
    split_ifs at inserted with there
    cases inserted
    have keyed : Keyed key (t ++ [r]) := by
      refine keyed_append.mpr ⟨ht, List.nodup_singleton _, fun x hx y hy eq => there ?_⟩
      rw [List.mem_singleton.mp hy] at eq
      exact eq ▸ List.mem_map_of_mem hx
    obtain ⟨rfl, keyed'⟩ := ih keyed rest
    exact ⟨by simp, keyed'⟩

/-- Replacing rows of different keys: the others stay. -/
theorem insert_or_replace_all_eq (h : Keyed key u) :
    u.foldl (insert_or_replace key) t = t.filter (fun x => key x ∉ u.map key) ++ u := by
  induction u generalizing t with
  | nil => simp
  | cons r u ih =>
    obtain ⟨hr, hu⟩ := keyed_cons.mp h
    have hkept : [r].filter (fun x => key x ∉ u.map key) = [r] :=
      List.filter_eq_self.mpr fun x hx => by
        rw [List.mem_singleton.mp hx, decide_eq_true_eq, List.mem_map]
        rintro ⟨y, hy, hkey⟩
        exact hr y hy hkey
    rw [List.foldl_cons, ih hu, insert_or_replace, List.filter_append, hkept, List.filter_filter,
      List.append_assoc]
    congr 1
    refine List.filter_congr fun x _ => ?_
    by_cases hx : key x = key r <;> simp [hx]

/-- In a join with a keyed table a row has at most one match. -/
theorem left_join_eq {σ : Type*} {key' : σ → κ} {v : List σ} (h : Keyed key' v) (t : List ρ) :
    left_join (fun r s => key r = key' s) t v = t.map fun r => (r, v.find? fun s => key' s = key r) := by
  rw [List.map_eq_flatMap]
  refine List.flatMap_congr fun r _ => ?_
  cases hf : v.find? (fun s => key' s = key r) with
  | none =>
    have hnil : v.filter (fun s => key r = key' s) = [] := by
      refine List.filter_eq_nil_iff.mpr fun s hs => ?_
      simpa [eq_comm] using List.find?_eq_none.mp hf s hs
    rw [hnil]
  | some s =>
    obtain ⟨hs, hkey⟩ := (find?_key_eq_some_iff h).mp hf
    have hsame : v.filter (fun x => key r = key' x) = [s] := by
      refine List.perm_singleton.mp (((perm_cons_filter_key h hs).filter _).trans ?_)
      rw [List.filter_cons_of_pos (by simpa using hkey.symm), List.filter_filter]
      refine List.Perm.of_eq (congrArg _ (List.filter_eq_nil_iff.mpr fun x _ => ?_))
      simp [hkey, eq_comm]
    rw [hsame]
    rfl

/-! ### Totals -/

section Amounts

variable {V : Type*} [AddCommMonoid V] (key) (value : ρ → V) {k : κ}

/-- What the rows with a key add up to; zero if there is none. -/
def amount (t : List ρ) (k : κ) : WithZero V := ((t.filter fun r => key r = k).map fun r => (value r : WithZero V)).sum

/-- The rows of `new` are added to those of `old` that have their key. -/
def merge (add : ρ → Option ρ → ρ) (new old : List ρ) : List ρ :=
  ((left_join (fun r s => key r = key s) new old).map fun x => add x.1 x.2).foldl (insert_or_replace key) old

variable {key value}

@[simp] theorem amount_nil : amount key value [] k = 0 := rfl

theorem amount_cons : amount key value (r :: t) k = (if key r = k then ↑(value r) else 0) + amount key value t k := by
  by_cases h : key r = k <;> simp [amount, h]

theorem amount_append : amount key value (t ++ u) k = amount key value t k + amount key value u k := by
  simp [amount]

theorem amount_perm (h : t.Perm u) : amount key value t k = amount key value u k :=
  ((h.filter _).map _).sum_eq

/-- A key that some row has is told from one that none has. -/
theorem amount_eq (t : List ρ) (k : κ) : amount key value t k =
    if k ∈ t.map key then ↑((t.filter fun r => key r = k).map value).sum else 0 := by
  induction t with
  | nil => simp
  | cons r t ih =>
    rw [amount_cons, ih]
    by_cases hr : key r = k
    · by_cases ht : k ∈ t.map key
      · simp [hr, ht, ← WithZero.coe_add]
      · have hnil : t.filter (fun r => key r = k) = [] := by
          refine List.filter_eq_nil_iff.mpr fun x hx hkey => ht (List.mem_map.mpr ⟨x, hx, by simpa using hkey⟩)
        simp [hr, ht, hnil]
    · simp [hr, Ne.symm hr]

theorem amount_eq_zero_iff : amount key value t k = 0 ↔ k ∉ t.map key := by
  rw [amount_eq]
  split_ifs with h <;> simp [h]

/-- In a keyed table the row of a key is its total. -/
theorem Keyed.amount_eq_find (h : Keyed key t) :
    amount key value t k = (t.find? fun r => key r = k).elim 0 fun r => ↑(value r) := by
  cases hf : t.find? fun r => key r = k with
  | none =>
    refine amount_eq_zero_iff.mpr fun hmem => ?_
    obtain ⟨r, hr, hkey⟩ := List.mem_map.mp hmem
    simpa [hkey] using List.find?_eq_none.mp hf r hr
  | some r =>
    obtain ⟨hr, rfl⟩ := (find?_key_eq_some_iff h).mp hf
    have hrest : key r ∉ (t.filter fun x => key x ≠ key r).map key := by simp
    rw [amount_perm (perm_cons_filter_key h hr), amount_cons, if_pos rfl, amount_eq_zero_iff.mpr hrest, add_zero]
    rfl

theorem Keyed.amount_of_mem (value : ρ → V) (h : Keyed key t) (hr : r ∈ t) : amount key value t (key r) = value r := by
  rw [h.amount_eq_find, (find?_key_eq_some_iff h).mpr ⟨hr, rfl⟩]
  rfl

/-- Without the rows of some keys, the amounts of the other keys are the same. -/
theorem amount_filter (p : κ → Bool) :
    amount key value (t.filter fun r => p (key r)) k = if p k then amount key value t k else 0 := by
  induction t with
  | nil => simp
  | cons r t ih =>
    by_cases hr : key r = k
    · by_cases hp : p k <;> simp [amount_cons, hr, hp, ih]
    · by_cases hp : p (key r) <;> simp [amount_cons, hr, hp, ih]

variable {add : ρ → Option ρ → ρ} {new old : List ρ}

/-- What is written over the old rows: one row for each key of the new ones. -/
theorem merge_eq (hkey : ∀ r o, key (add r o) = key r) (hnew : Keyed key new) (hold : Keyed key old) :
    merge key add new old = old.filter (fun x => key x ∉ new.map key) ++
      new.map fun r => add r (old.find? fun s => key s = key r) := by
  have hkeys : (new.map fun r => add r (old.find? fun s => key s = key r)).map key = new.map key := by
    rw [List.map_map]
    exact List.map_congr_left fun r _ => hkey _ _
  have hjoin : (left_join (fun r s => key r = key s) new old).map (fun x => add x.1 x.2) =
      new.map fun r => add r (old.find? fun s => key s = key r) := by
    rw [left_join_eq hold, List.map_map]
    rfl
  rw [merge, hjoin, insert_or_replace_all_eq (by rwa [Keyed, hkeys]), hkeys]

/-- **Merging**: the table stays keyed, and the amounts are added. -/
theorem keyed_merge (hkey : ∀ r o, key (add r o) = key r)
    (hadd : ∀ r o, (value (add r o) : WithZero V) = value r + o.elim 0 fun s => ↑(value s))
    (hnew : Keyed key new) (hold : Keyed key old) :
    Keyed key (merge key add new old) ∧
      ∀ k, amount key value (merge key add new old) k = amount key value new k + amount key value old k := by
  have hkeys : (new.map fun r => add r (old.find? fun s => key s = key r)).map key = new.map key := by
    rw [List.map_map]
    exact List.map_congr_left fun r _ => hkey _ _
  have hmid : Keyed key (new.map fun r => add r (old.find? fun s => key s = key r)) := by rwa [Keyed, hkeys]
  rw [merge_eq hkey hnew hold]
  constructor
  · refine keyed_append.mpr ⟨hold.filter _, hmid, fun x hx y hy hxy => ?_⟩
    have hy' : key y ∈ new.map key := hkeys ▸ List.mem_map_of_mem hy
    rw [← hxy] at hy'
    simpa [hy'] using (List.mem_filter.mp hx).2
  · intro k
    rw [amount_append, amount_filter fun k => decide (k ∉ new.map key)]
    by_cases hk : k ∈ new.map key
    · obtain ⟨r, hr, rfl⟩ := List.mem_map.mp hk
      have hsum := hmid.amount_of_mem value (List.mem_map_of_mem hr)
      rw [hkey] at hsum
      rw [hsum, hadd, if_neg (by simpa using hk), zero_add, hnew.amount_of_mem value hr, hold.amount_eq_find]
    · have hk' : k ∉ (new.map fun r => add r (old.find? fun s => key s = key r)).map key := hkeys ▸ hk
      rw [amount_eq_zero_iff.mpr hk', amount_eq_zero_iff.mpr hk, if_pos (by simpa using hk), add_zero, zero_add]

end Amounts

/-! ### Joins in order -/

section InnerJoin

variable {ρ κ : Type*} [LinearOrder κ] (key : ρ → κ)

/-- `INNER JOIN` with a column of numbers, on the key. -/
def inner_join (t : List ρ) (u : List κ) : List (κ × ρ) :=
  t.flatMap fun r => (u.filter fun k => key r = k).map fun k => (k, r)

/-- `ORDER BY` this column. -/
def order_by (t : List (κ × ρ)) : List (κ × ρ) := t.mergeSort fun p q => p.1 ≤ q.1

variable {key} {t : List ρ} {u : List κ}

theorem mem_inner_join {p : κ × ρ} : p ∈ inner_join key t u ↔ p.2 ∈ t ∧ p.1 ∈ u ∧ key p.2 = p.1 := by
  obtain ⟨k, r⟩ := p
  simp only [inner_join, List.mem_flatMap, List.mem_map, List.mem_filter, decide_eq_true_eq, Prod.mk.injEq]
  constructor
  · rintro ⟨r', hr, k', ⟨hk, eq⟩, rfl, rfl⟩
    exact ⟨hr, hk, eq⟩
  · rintro ⟨hr, hk, eq⟩
    exact ⟨r, hr, k, ⟨hk, eq⟩, rfl, rfl⟩

/-- Where no two rows share a key, nor two numbers are the same, no number is matched twice. -/
theorem nodup_inner_join (ht : Keyed key t) (hu : u.Nodup) : ((inner_join key t u).map (·.1)).Nodup := by
  have joined : (inner_join key t u).map (·.1) = t.flatMap fun r => u.filter fun k => key r = k := by
    simp [inner_join, List.map_flatMap, Function.comp_def]
  rw [joined, List.nodup_flatMap]
  refine ⟨fun r _ => hu.filter _, (List.pairwise_map.mp ht).imp fun different k hk hk' => different ?_⟩
  simp only [List.mem_filter, decide_eq_true_eq] at hk hk'
  exact hk.2.trans hk'.2.symm

/-- Numbers that are different are in strict order once they are sorted. -/
theorem pairwise_lt_mergeSort {σ : Type*} {f : σ → κ} {l : List σ} (h : (l.map f).Nodup) :
    (l.mergeSort fun p q => f p ≤ f q).Pairwise fun p q => f p < f q := by
  have sorted : (l.mergeSort fun p q => f p ≤ f q).Pairwise fun p q => decide (f p ≤ f q) = true :=
    List.pairwise_mergeSort (fun a b c h h' => decide_eq_true ((of_decide_eq_true h).trans (of_decide_eq_true h')))
      (fun a b => by simpa using le_total (f a) (f b)) l
  have different : (l.mergeSort fun p q => f p ≤ f q).Pairwise fun p q => f p ≠ f q :=
    List.pairwise_map.mp (((List.mergeSort_perm l _).map f).nodup_iff.mpr h)
  exact (sorted.and different).imp fun ⟨le, ne⟩ => lt_of_le_of_ne (of_decide_eq_true le) ne

/-- **A join in order** goes through the numbers in order, each with the row that has it. -/
theorem order_by_inner_join (ht : Keyed key t) (hu : u.Nodup) : order_by (inner_join key t u) =
    (u.mergeSort fun k l => k ≤ l).filterMap fun k => (t.find? fun r => key r = k).map fun r => (k, r) := by
  let before (p q : κ × ρ) : Prop := p.1 < q.1
  have irrefl : Std.Irrefl before := ⟨fun p => lt_irrefl p.1⟩
  have antisymm : Std.Antisymm before := ⟨fun p q h h' => absurd h' h.asymm⟩
  have left : (order_by (inner_join key t u)).Pairwise before := pairwise_lt_mergeSort (nodup_inner_join ht hu)
  have numbers : (u.mergeSort fun k l => k ≤ l).Pairwise fun k l => k < l :=
    pairwise_lt_mergeSort (f := id) (by rwa [List.map_id])
  have right : ((u.mergeSort fun k l => k ≤ l).filterMap fun k =>
      (t.find? fun r => key r = k).map fun r => (k, r)).Pairwise before := by
    refine List.Pairwise.filterMap _ (fun k l lt p hp q hq => ?_) numbers
    obtain ⟨r, -, rfl⟩ := Option.map_eq_some_iff.mp hp
    obtain ⟨r', -, rfl⟩ := Option.map_eq_some_iff.mp hq
    exact lt
  refine left.eq_of_mem_iff right fun ⟨k, r⟩ => ?_
  rw [order_by, List.mem_mergeSort, mem_inner_join, List.mem_filterMap]
  constructor
  · rintro ⟨hr, hk, eq⟩
    exact ⟨k, List.mem_mergeSort.mpr hk, Option.map_eq_some_iff.mpr ⟨r, (find?_key_eq_some_iff ht).mpr ⟨hr, eq⟩, rfl⟩⟩
  · rintro ⟨k', hk, found⟩
    obtain ⟨r', first, eq⟩ := Option.map_eq_some_iff.mp found
    cases eq
    obtain ⟨hr, eq⟩ := (find?_key_eq_some_iff ht).mp first
    exact ⟨hr, List.mem_mergeSort.mp hk, eq⟩

end InnerJoin

end CppTransport.Library.Rows
