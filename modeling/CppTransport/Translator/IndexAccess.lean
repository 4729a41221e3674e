import CppTransport.Translator.IndexDatabase
import Mathlib.Data.Nat.Count

/-!
# Access by position

`operator[]` of an `index_database` checks the position against the number of keys in the map, and then steps an
iterator through the ordered list.

## The model

An iterator into the ordered list is what is left of the list, so that of the end is the empty list. Stepping the
iterator of the end, or reading through it, is `AccessError.undefined`. There are two versions of the operator, which
differ in constness only.

## What is proved

`access_iff`: an access does what it should at all positions but one. The check lets the position right after the last
index pass, where the loop has led to the end.
-/

namespace CppTransport.Translator.IndexDatabase

open Library
open AssignmentSet (abstract_index get_label)

def ERROR_INDEX_DATABASE_OUT_OF_RANGE : String := "Internal error: out of range access in index database"

/-- What ends an access. -/
inductive AccessError where
  | out_of_range (what : String)
  | undefined
deriving DecidableEq, Repr

namespace index_database

variable {α : Type}

/-- `operator++` -/
def increment : List Node → Except AccessError (List Node)
  | [] => .error .undefined
  | _ :: rest => .ok rest

/-- The loop of `operator[]`. -/
def advance : ℕ → List Node → Except AccessError (List Node)
  | 0, it => .ok it
  | i + 1, it => do advance i (← increment it)

variable (d : index_database α)

/-- How many keys the map has. -/
def size : ℕ := Nat.count (fun c => c.isValidChar ∧ (d.db (Char.ofNat c)).isSome) 0x110000

/-- `operator*` -/
def dereference : List Node → Except AccessError α
  | [] => .error .undefined
  | n :: _ =>
    match d.db n.key with
    | some r => .ok r
    | none => .error .undefined

/-- `operator[]` -/
def access (i : ℕ) : Except AccessError α :=
  if i > d.size then .error (.out_of_range ERROR_INDEX_DATABASE_OUT_OF_RANGE)
  else do d.dereference (← advance i d.order_db)

/-- **The `i`-th index in order**, or an exception. -/
structure Accesses (i : ℕ) : Prop where
  inside : i < d.size → ∃ r, d.entries[i]? = some r ∧ d.access i = .ok r
  outside : d.size ≤ i → d.access i = .error (.out_of_range ERROR_INDEX_DATABASE_OUT_OF_RANGE)

theorem advance_eq {i : ℕ} {order : List Node} (h : i ≤ order.length) : advance i order = .ok (order.drop i) := by
  induction i generalizing order with
  | zero => rfl
  | succ i ih =>
    cases order with
    | nil => exact absurd h (Nat.not_succ_le_zero i)
    | cons n rest => exact ih (Nat.le_of_succ_le_succ h)

theorem toNat_ofNat {c : ℕ} (valid : c.isValidChar) : (Char.ofNat c).toNat = c := by
  rw [Char.ofNat, dif_pos valid]
  rfl

theorem toNat_lt (k : Char) : k.toNat < 0x110000 := by
  rcases k.valid with h | h
  · exact h.trans (by decide)
  · exact h.2

namespace Valid

variable [Record α] {d : index_database α}

/-- The map and the ordered list have the same number of elements. -/
theorem size_eq (h : Valid d) : d.size = d.order_db.length := by
  have keys : (Finset.range 0x110000).filter (fun c => c.isValidChar ∧ (d.db (Char.ofNat c)).isSome) =
      ((d.order_db.map (·.key)).map Char.toNat).toFinset := by
    ext c
    rw [Finset.mem_filter, Finset.mem_range, List.mem_toFinset, List.mem_map]
    constructor
    · rintro ⟨-, valid, stored⟩
      exact ⟨Char.ofNat c, (h.keys _).mpr stored, toNat_ofNat valid⟩
    · rintro ⟨k, hk, rfl⟩
      rw [Char.ofNat_toNat]
      exact ⟨toNat_lt k, k.valid, (h.keys k).mp hk⟩
  have nodup : ((d.order_db.map (·.key)).map Char.toNat).Nodup := h.nodup.map fun _ _ => Char.toNat_inj.mp
  rw [size, Nat.count_eq_card_filter_range, keys, List.toFinset_card_of_nodup nodup, List.length_map, List.length_map]

theorem length_entries (h : Valid d) : d.entries.length = d.size := by
  rw [h.size_eq, ← List.length_map (f := get_label), h.map_get_label_entries, List.length_map]

/-- Through an iterator the record at its position is read. -/
theorem dereference_drop (h : Valid d) (i : ℕ) :
    d.dereference (d.order_db.drop i) = match d.entries[i]? with
      | some r => .ok r
      | none => .error .undefined := by
  have stored : ∀ n ∈ d.order_db, ∃ r, d.db n.key = some r := fun n => h.exists_of_mem
  rw [entries]
  generalize d.order_db = order at stored
  induction order generalizing i with
  | nil => simp [dereference]
  | cons n rest ih =>
    obtain ⟨r, hr⟩ := stored n List.mem_cons_self
    rw [List.map_cons, List.filterMap_cons_some hr]
    cases i with
    | zero => simp [dereference, hr]
    | succ i => exact ih i fun n' hn' => stored n' (List.mem_cons_of_mem _ hn')

/-- What `operator[]` does. -/
theorem access_eq (h : Valid d) (i : ℕ) :
    d.access i = if i > d.size then .error (.out_of_range ERROR_INDEX_DATABASE_OUT_OF_RANGE)
      else match d.entries[i]? with
        | some r => .ok r
        | none => .error .undefined := by
  unfold access
  split_ifs with beyond
  · rfl
  · have within : i ≤ d.order_db.length := h.size_eq ▸ not_lt.mp beyond
    rw [advance_eq within]
    exact h.dereference_drop i

/-- **Right after the last index** the iterator of the end is read through. -/
theorem access_size (h : Valid d) : d.access d.size = .error .undefined := by
  rw [h.access_eq, if_neg (lt_irrefl _), List.getElem?_eq_none h.length_entries.le]

theorem accesses_of_ne (h : Valid d) {i : ℕ} (hi : i ≠ d.size) : d.Accesses i where
  inside before := by
    have here : i < d.entries.length := h.length_entries.symm ▸ before
    refine ⟨d.entries[i], List.getElem?_eq_getElem here, ?_⟩
    rw [h.access_eq, if_neg before.asymm, List.getElem?_eq_getElem here]
  outside after := by
    rw [h.access_eq, if_pos (lt_of_le_of_ne after hi.symm)]

end Valid

variable [Record α]

/-- **Access by position** gives the index or throws, as it should, at all positions but the one right after the last
index. -/
theorem accesses_iff {s : List (index_database α)} (hs : (programs α).Reachable s) {d : index_database α} (hd : d ∈ s)
    (i : ℕ) : d.Accesses i ↔ i ≠ d.size := by
  have valid := valid_of_reachable hs d hd
  constructor
  · intro h hi
    have thrown := h.outside hi.ge
    rw [hi, valid.access_size] at thrown
    cases thrown
  · exact valid.accesses_of_ne

/-- Two indices, added one after the other. -/
def two_indices : List (Command abstract_index) :=
  [.create, .emplace_back 0 (field 'i'), .emplace_back 0 (field 'j')]

theorem exists_two_indices : ∃ d, two_indices.foldlM exec [] = .ok [d] ∧ (programs abstract_index).Reachable [d] ∧
    d.size = 2 := by
  obtain ⟨d, hd⟩ : ∃ d, two_indices.foldlM exec [] = .ok [d] := ⟨_, rfl⟩
  have reachable := reachable_of_foldlM hd
  refine ⟨d, hd, reachable, ?_⟩
  rw [(valid_of_reachable reachable d (List.mem_singleton_self d)).size_eq]
  cases hd
  rfl

theorem two_indices_accessed : ∃ d, two_indices.foldlM exec [] = .ok [d] ∧ d.Accesses 1 := by
  obtain ⟨d, hd, reachable, two⟩ := exists_two_indices
  exact ⟨d, hd, (accesses_iff reachable (List.mem_singleton_self d) 1).mpr (by rw [two]; decide)⟩

/-- The third of two indices. -/
theorem two_indices_not_accessed : ¬∀ s : List (index_database abstract_index), (programs abstract_index).Reachable s →
    ∀ d ∈ s, ∀ i, d.Accesses i := by
  intro h
  obtain ⟨d, -, reachable, two⟩ := exists_two_indices
  have member : d ∈ [d] := List.mem_singleton_self d
  have thrown := (h [d] reachable d member 2).outside two.le
  have undefined := (valid_of_reachable reachable d member).access_size
  rw [two, thrown] at undefined
  cases undefined

end index_database

end CppTransport.Translator.IndexDatabase
