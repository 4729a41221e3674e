import CppTransport.Library.Exceptions
import CppTransport.Library.Transition
import CppTransport.Translator.AssignmentSet
import Mathlib.Data.List.Find
import Mathlib.Data.List.Perm.Basic
import Mathlib.Logic.Function.Basic

/-!
# Databases of indices

An `index_database` keeps its records in a map from labels, the order in which they have been added in a list of
iterators into the map, and where each label stands in this list in a second map.

## The model

A `std::map` is what it holds for each key. The nodes of the ordered list have addresses, which come from a
counter, and hold a key for the iterator into the map; an iterator into the list is an address. Reading through an
iterator that leads nowhere is `Thrown.undefined`. The copy constructor is declared and the move constructor is
not, so that moving to a new database copies. A `std::map` that has been moved from is empty. Records that copies
share are not changed. Iteration backwards is left out.

## What is proved

A database represents a list of records with different labels (`AssignmentSet.index_database`), and the operations
do on it what they should: `databases_agree`, for all sequences of operations. `operator+` throws for an index that
is in both databases, and `operator-` for one that has another class in the second.
-/

namespace CppTransport.Translator.IndexDatabase

open Library
open Tokenizer (index_class)
open AssignmentSet (HasLabel get_label)

def ERROR_INDEX_DATABASE_EMPLACE_FAIL : String := "Internal error: emplacement in index database failed"

/-! ### The database -/

/-- What an `index_database` asks of its records. -/
class Record (α : Type) extends HasLabel α where
  get_class : α → index_class

export Record (get_class)

/-- What ends an operation. -/
inductive Thrown where
  | index_exception (label : Char)
  | runtime_error (what : String)
  | undefined
deriving DecidableEq, Repr

/-- A node of the ordered list: its address, and the key of the record that its iterator points to. -/
structure Node where
  address : ℕ
  key : Char
deriving DecidableEq, Repr

structure index_database (α : Type) where
  /-- The records, by label. -/
  db : Char → Option α
  /-- The order in which they have been added. -/
  order_db : List Node
  /-- Where a label stands in the ordered list. -/
  order_index : Char → Option ℕ
  /-- The address of the next node. -/
  next : ℕ

/-- `std::map::emplace`: an element that is there already stays. -/
def emplace {β : Type} (m : Char → Option β) (key : Char) (b : β) : (Char → Option β) × Bool :=
  if (m key).isSome then (m, false) else (Function.update m key (some b), true)

namespace index_database

variable {α : Type}

/-- The default constructor. -/
def create : index_database α := ⟨fun _ => none, [], fun _ => none, 0⟩

/-- The body of the loop in the copy constructor and in the move assignment. -/
def append_iterator (db : Char → Option α) (d : index_database α) (n : Node) : Except Thrown (index_database α) :=
  match db n.key with
  | some _ => .ok
    { d with
      order_db := d.order_db ++ [⟨d.next, n.key⟩]
      order_index := (emplace d.order_index n.key d.next).1
      next := d.next + 1 }
  | none => .error (.index_exception n.key)

/-- This loop, over the order of the other database. -/
def rebuild (db : Char → Option α) (order : List Node) : Except Thrown (index_database α) :=
  order.foldlM (append_iterator db) ⟨db, [], fun _ => none, 0⟩

variable (d : index_database α)

/-- The record that an iterator points to. -/
def deref (it : ℕ) : Option α := (d.order_db.find? (·.address = it)).bind fun n => d.db n.key

/-- `find`: an iterator, unless it is that of the end. -/
def find (key : Char) : Option ℕ := d.order_index key

/-- What an iteration from begin to end visits. -/
def records : Except Thrown (List α) :=
  d.order_db.mapM fun n =>
    match d.db n.key with
    | some r => .ok r
    | none => .error .undefined

/-- The copy constructor. -/
def copy : Except Thrown (index_database α) := rebuild d.db d.order_db

/-- `operator=`, for another database that is moved from: both of them. -/
def move_assign : Except Thrown (index_database α × index_database α) := do
  let assigned ← rebuild d.db d.order_db
  return (assigned, { d with db := fun _ => none, order_db := [], order_index := fun _ => none })

section

variable [Record α]

/-- Emplacing somewhere in the ordered list: the database, an iterator to the record with the key, and whether it is
new. -/
def emplace_at (place : Node → List Node → List Node) (key : Char) (r : α) :
    Except Thrown (index_database α × ℕ × Bool) :=
  let (db, emplaced) := emplace d.db key r
  match db key with
  | none => .error .undefined
  | some stored =>
    let d' := if emplaced then
        { db := db
          order_db := place ⟨d.next, key⟩ d.order_db
          order_index := (emplace d.order_index (get_label stored) d.next).1
          next := d.next + 1 }
      else d
    match d'.order_index (get_label stored) with
    | none => .error (.runtime_error ERROR_INDEX_DATABASE_EMPLACE_FAIL)
    | some it => .ok (d', it, emplaced)

def emplace_front (key : Char) (r : α) : Except Thrown (index_database α × ℕ × Bool) :=
  d.emplace_at (fun n order => n :: order) key r

def emplace_back (key : Char) (r : α) : Except Thrown (index_database α × ℕ × Bool) :=
  d.emplace_at (fun n order => order ++ [n]) key r

/-- The body of the loop in `operator-`. -/
def minus_record (r rval : index_database α) (idx : α) : Except Thrown (index_database α) :=
  match r.find (get_label idx) with
  | none => return (← rval.emplace_back (get_label idx) idx).1
  | some it =>
    match r.deref it with
    | none => .error .undefined
    | some other => if get_class idx ≠ get_class other then .error (.index_exception (get_label idx)) else .ok rval

/-- `operator-` -/
def minus (l r : index_database α) : Except Thrown (index_database α) := do
  let records ← l.records
  records.foldlM r.minus_record create

/-- The body of the loop in `operator+`. -/
def plus_record (rval : index_database α) (rec : α) : Except Thrown (index_database α) :=
  match rval.find (get_label rec) with
  | some _ => .error (.index_exception (get_label rec))
  | none => return (← rval.emplace_back (get_label rec) rec).1

/-- `operator+` -/
def plus (l r : index_database α) : Except Thrown (index_database α) := do
  let rval ← l.copy
  let records ← r.records
  records.foldlM plus_record rval

end

/-! ### What a database represents -/

/-- The ordered list and the map into it fit together. -/
structure Indexed (d : index_database α) : Prop where
  nodup : (d.order_db.map (·.key)).Nodup
  addresses : (d.order_db.map (·.address)).Nodup
  below : ∀ n ∈ d.order_db, n.address < d.next
  index : ∀ k a, d.order_index k = some a ↔ ⟨a, k⟩ ∈ d.order_db

theorem emplace_of_none {β : Type} {m : Char → Option β} {key : Char} (h : m key = none) (b : β) :
    emplace m key b = (Function.update m key (some b), true) := by
  rw [emplace, h]
  rfl

theorem emplace_of_some {β : Type} {m : Char → Option β} {key : Char} {stored : β} (h : m key = some stored) (b : β) :
    emplace m key b = (m, false) := by
  rw [emplace, h]
  rfl

/-- The records in order. -/
def entries (d : index_database α) : List α := (d.order_db.map (·.key)).filterMap d.db

namespace Indexed

variable {d : index_database α}

theorem isSome_iff (h : Indexed d) {k : Char} : (d.order_index k).isSome ↔ k ∈ d.order_db.map (·.key) := by
  rw [Option.isSome_iff_exists, List.mem_map]
  constructor
  · rintro ⟨a, ha⟩
    exact ⟨⟨a, k⟩, (h.index k a).mp ha, rfl⟩
  · rintro ⟨n, hn, rfl⟩
    exact ⟨n.address, (h.index n.key n.address).mpr hn⟩

/-- One more node, wherever it is placed. -/
theorem insert (h : Indexed d) {k : Char} (hk : k ∉ d.order_db.map (·.key)) {order : List Node}
    (hperm : order.Perm (⟨d.next, k⟩ :: d.order_db)) (db : Char → Option α) :
    Indexed ⟨db, order, (emplace d.order_index k d.next).1, d.next + 1⟩ := by
  have hnone : d.order_index k = none := by
    rw [← Option.not_isSome_iff_eq_none, h.isSome_iff]
    exact hk
  have hfresh : d.next ∉ d.order_db.map (·.address) := by
    rintro hmem
    obtain ⟨n, hn, ha⟩ := List.mem_map.mp hmem
    exact absurd (h.below n hn) (ha ▸ lt_irrefl _)
  rw [emplace_of_none hnone]
  constructor
  · exact (hperm.map _).nodup_iff.mpr (List.nodup_cons.mpr ⟨hk, h.nodup⟩)
  · exact (hperm.map _).nodup_iff.mpr (List.nodup_cons.mpr ⟨hfresh, h.addresses⟩)
  · intro n hn
    rcases List.mem_cons.mp (hperm.mem_iff.mp hn) with rfl | hn
    · exact Nat.lt_succ_self _
    · exact Nat.lt_succ_of_lt (h.below n hn)
  · intro k' a
    rw [hperm.mem_iff, List.mem_cons, Node.mk.injEq]
    by_cases heq : k' = k
    · subst heq
      have hno : (⟨a, k'⟩ : Node) ∉ d.order_db := fun hmem => hk (List.mem_map_of_mem hmem)
      simp only [Function.update_self, Option.some.injEq, hno, or_false, and_true]
      exact eq_comm
    · simp only [Function.update_of_ne heq, heq, and_false, false_or]
      exact h.index k' a

/-- An iterator into the ordered list leads to the record of its key. -/
theorem deref_of_index (h : Indexed d) {k : Char} {a : ℕ} (hindex : d.order_index k = some a) :
    d.deref a = d.db k := by
  have hmem := (h.index k a).mp hindex
  obtain ⟨n, hfind⟩ : ∃ n, d.order_db.find? (·.address = a) = some n := by
    rw [← Option.isSome_iff_exists, List.find?_isSome]
    exact ⟨_, hmem, decide_eq_true rfl⟩
  have hn : n = ⟨a, k⟩ := by
    have haddress : n.address = a := by simpa using List.find?_some hfind
    exact List.inj_on_of_nodup_map h.addresses (List.mem_of_find?_eq_some hfind) hmem haddress
  rw [deref, hfind, hn]
  rfl

end Indexed

variable [Record α]

/-- The ordered list has the keys of the map, and these are the labels. -/
structure Valid (d : index_database α) : Prop extends Indexed d where
  keys : ∀ k, k ∈ d.order_db.map (·.key) ↔ (d.db k).isSome
  labels : ∀ k r, d.db k = some r → get_label r = k

/-- **The database represents a list of records** with different labels. -/
structure Represents (d : index_database α) (a : AssignmentSet.index_database α) : Prop extends Valid d where
  entries : d.entries = a.records

namespace Valid

variable {d : index_database α}

theorem create : Valid (create : index_database α) where
  nodup := List.nodup_nil
  addresses := List.nodup_nil
  below _ h := absurd h List.not_mem_nil
  index _ _ := by simp [index_database.create]
  keys _ := by simp [index_database.create]
  labels _ _ h := by simp [index_database.create] at h

theorem exists_of_mem (h : Valid d) {n : Node} (hn : n ∈ d.order_db) : ∃ r, d.db n.key = some r :=
  Option.isSome_iff_exists.mp ((h.keys _).mp (List.mem_map_of_mem hn))

theorem mem_entries (h : Valid d) {r : α} : r ∈ d.entries ↔ d.db (get_label r) = some r := by
  rw [entries, List.mem_filterMap]
  constructor
  · rintro ⟨k, -, hr⟩
    rwa [h.labels k r hr]
  · intro hr
    exact ⟨_, (h.keys _).mpr (Option.isSome_iff_exists.mpr ⟨r, hr⟩), hr⟩

/-- The labels of the records are the keys of the ordered list. -/
theorem map_get_label_entries (h : Valid d) : d.entries.map get_label = d.order_db.map (·.key) := by
  have hkeys : ∀ k ∈ d.order_db.map (·.key), ∃ r, d.db k = some r := fun k hk =>
    Option.isSome_iff_exists.mp ((h.keys k).mp hk)
  rw [entries]
  generalize d.order_db.map (·.key) = keys at hkeys
  induction keys with
  | nil => rfl
  | cons k keys ih =>
    obtain ⟨r, hr⟩ := hkeys k List.mem_cons_self
    rw [List.filterMap_cons_some hr, List.map_cons, h.labels k r hr,
      ih fun k' hk' => hkeys k' (List.mem_cons_of_mem _ hk')]

theorem nodup_labels (h : Valid d) : (d.entries.map get_label).Nodup := h.map_get_label_entries ▸ h.nodup

theorem mem_labels (h : Valid d) {k : Char} : k ∈ d.entries.map get_label ↔ (d.db k).isSome := by
  rw [h.map_get_label_entries, h.keys]

/-- **An iteration visits every record once, in order**. -/
theorem records_eq (h : Valid d) : d.records = .ok d.entries := by
  have hstored : ∀ n ∈ d.order_db, ∃ r, d.db n.key = some r := fun n hn => h.exists_of_mem hn
  rw [records, entries]
  generalize d.order_db = order at hstored
  induction order with
  | nil => rfl
  | cons n order ih =>
    obtain ⟨r, hr⟩ := hstored n List.mem_cons_self
    rw [List.mapM_cons, hr, List.map_cons, List.filterMap_cons_some hr,
      ih fun n' hn' => hstored n' (List.mem_cons_of_mem _ hn')]
    rfl

/-- **`find` succeeds exactly for the labels that are stored**. -/
theorem isSome_find (h : Valid d) (k : Char) : (d.find k).isSome ↔ k ∈ d.entries.map get_label := by
  rw [find, h.isSome_iff, h.map_get_label_entries]

/-- The iterator that `find` returns leads to the record with the label. -/
theorem deref_find (h : Valid d) {k : Char} {it : ℕ} (hfind : d.find k = some it) :
    ∃ r ∈ d.entries, get_label r = k ∧ d.deref it = some r := by
  have hderef := h.deref_of_index hfind
  obtain ⟨r, hr⟩ := h.exists_of_mem ((h.index k it).mp hfind)
  have hlabel := h.labels k r hr
  exact ⟨r, h.mem_entries.mpr (hlabel.symm ▸ hr), hlabel, hderef.trans hr⟩

theorem exists_find (h : Valid d) {k : Char} {r : α} (hr : d.db k = some r) :
    ∃ it, d.find k = some it ∧ d.deref it = some r := by
  obtain ⟨it, hit⟩ := Option.isSome_iff_exists.mp
    ((h.isSome_find k).mpr (h.mem_labels.mpr (Option.isSome_iff_exists.mpr ⟨r, hr⟩)))
  exact ⟨it, hit, (h.deref_of_index hit).trans hr⟩

theorem find_eq_none (h : Valid d) {k : Char} : d.find k = none ↔ d.db k = none := by
  rw [← Option.not_isSome_iff_eq_none, h.isSome_find, h.mem_labels, Option.not_isSome_iff_eq_none]

/-! ### Emplacing -/

theorem insert (h : Valid d) {r : α} (hr : d.db (get_label r) = none) {order : List Node}
    (hperm : order.Perm (⟨d.next, get_label r⟩ :: d.order_db)) :
    Valid ⟨Function.update d.db (get_label r) (some r), order, (emplace d.order_index (get_label r) d.next).1,
      d.next + 1⟩ where
  toIndexed := by
    refine h.toIndexed.insert (fun hmem => ?_) hperm _
    rw [h.keys, hr] at hmem
    cases hmem
  keys k := by
    rw [(hperm.map _).mem_iff, List.map_cons, List.mem_cons, h.keys]
    by_cases hk : k = get_label r
    · simp [hk]
    · simp [hk]
  labels k r' hr' := by
    change Function.update d.db (get_label r) (some r) k = some r' at hr'
    by_cases hk : k = get_label r
    · subst hk
      rw [Function.update_self] at hr'
      rw [Option.some.inj hr']
    · rw [Function.update_of_ne hk] at hr'
      exact h.labels k r' hr'

/-- A record whose label is not stored: the new node is where it has been placed, and the iterator that is returned
leads to the new record. -/
theorem emplace_at_of_fresh (h : Valid d) {place : Node → List Node → List Node}
    (hperm : ∀ n order, (place n order).Perm (n :: order)) {r : α} (hr : get_label r ∉ d.entries.map get_label) :
    ∃ d', d.emplace_at place (get_label r) r = .ok (d', d.next, true) ∧ Valid d' ∧ d'.deref d.next = some r ∧
      d'.order_db = place ⟨d.next, get_label r⟩ d.order_db ∧
      d'.db = Function.update d.db (get_label r) (some r) := by
  have hnone : d.db (get_label r) = none := by
    rw [← Option.not_isSome_iff_eq_none, ← h.mem_labels]
    exact hr
  have hindex : d.order_index (get_label r) = none := by
    rw [← Option.not_isSome_iff_eq_none, h.isSome_iff, h.keys, hnone]
    exact Bool.false_ne_true
  have hvalid := h.insert hnone (hperm ⟨d.next, get_label r⟩ d.order_db)
  rw [emplace_of_none hindex] at hvalid
  refine ⟨_, ?_, hvalid, ?_, rfl, rfl⟩
  · simp only [emplace_at, emplace_of_none hnone, emplace_of_none hindex, Function.update_self, if_true]
  · rw [hvalid.deref_of_index (Function.update_self ..)]
    exact Function.update_self ..

/-- A record whose label is stored is not added, and the iterator leads to the one that is there. -/
theorem emplace_at_of_stored (h : Valid d) (place : Node → List Node → List Node) {r : α}
    (hr : get_label r ∈ d.entries.map get_label) :
    ∃ it, d.emplace_at place (get_label r) r = .ok (d, it, false) ∧
      ∃ stored ∈ d.entries, get_label stored = get_label r ∧ d.deref it = some stored := by
  obtain ⟨it, hit⟩ := Option.isSome_iff_exists.mp ((h.isSome_find _).mpr hr)
  obtain ⟨stored, hmem, hlabel, hderef⟩ := h.deref_find hit
  have hdb := h.mem_entries.mp hmem
  rw [hlabel] at hdb
  refine ⟨it, ?_, stored, hmem, hlabel, hderef⟩
  rw [find] at hit
  simp [emplace_at, emplace_of_some hdb, hdb, hlabel, hit]

omit [Record α] in
theorem filterMap_update {k : Char} {keys : List Char} (hk : k ∉ keys) (db : Char → Option α) (o : Option α) :
    keys.filterMap (Function.update db k o) = keys.filterMap db :=
  List.filterMap_congr fun _ hk' => Function.update_of_ne (ne_of_mem_of_not_mem hk' hk) ..

theorem emplace_front_of_fresh (h : Valid d) {r : α} (hr : get_label r ∉ d.entries.map get_label) :
    ∃ d', d.emplace_front (get_label r) r = .ok (d', d.next, true) ∧ Valid d' ∧ d'.deref d.next = some r ∧
      d'.entries = r :: d.entries := by
  obtain ⟨d', heq, hvalid, hderef, horder, hdb⟩ :=
    h.emplace_at_of_fresh (fun n order => List.Perm.refl (n :: order)) hr
  refine ⟨d', heq, hvalid, hderef, ?_⟩
  rw [h.map_get_label_entries] at hr
  rw [entries, horder, hdb, List.map_cons, List.filterMap_cons_some (Function.update_self ..), filterMap_update hr,
    entries]

theorem emplace_back_of_fresh (h : Valid d) {r : α} (hr : get_label r ∉ d.entries.map get_label) :
    ∃ d', d.emplace_back (get_label r) r = .ok (d', d.next, true) ∧ Valid d' ∧ d'.deref d.next = some r ∧
      d'.entries = d.entries ++ [r] := by
  obtain ⟨d', heq, hvalid, hderef, horder, hdb⟩ :=
    h.emplace_at_of_fresh (fun n order => List.perm_append_singleton n order) hr
  refine ⟨d', heq, hvalid, hderef, ?_⟩
  rw [h.map_get_label_entries] at hr
  rw [entries, horder, hdb, List.map_append, List.filterMap_append, filterMap_update hr, List.map_singleton,
    List.filterMap_cons_some (Function.update_self ..), List.filterMap_nil, entries]

theorem represents (h : Valid d) : Represents d ⟨d.entries, h.nodup_labels⟩ := ⟨h, rfl⟩

end Valid

namespace Represents

variable {d : index_database α} {a : AssignmentSet.index_database α}

/-- **Emplacing at the front** does not throw, and puts the record before the others unless its label is stored. -/
theorem emplace_front (h : Represents d a) (r : α) :
    ∃ d' it emplaced, d.emplace_front (get_label r) r = .ok (d', it, emplaced) ∧ Represents d' (a.emplace_front r) := by
  by_cases hr : get_label r ∈ d.entries.map get_label
  · obtain ⟨it, heq, -⟩ := h.emplace_at_of_stored (fun n order => n :: order) hr
    refine ⟨d, it, false, heq, ?_⟩
    rw [h.entries] at hr
    rwa [AssignmentSet.index_database.emplace_front, dif_pos hr]
  · obtain ⟨d', heq, hvalid, -, hentries⟩ := h.emplace_front_of_fresh hr
    refine ⟨d', d.next, true, heq, hvalid, ?_⟩
    rw [h.entries] at hr hentries
    rw [hentries, AssignmentSet.index_database.records_emplace_front hr]

/-- **Emplacing at the back** -/
theorem emplace_back (h : Represents d a) (r : α) :
    ∃ d' it emplaced, d.emplace_back (get_label r) r = .ok (d', it, emplaced) ∧ Represents d' (a.emplace_back r) := by
  by_cases hr : get_label r ∈ d.entries.map get_label
  · obtain ⟨it, heq, -⟩ := h.emplace_at_of_stored (fun n order => order ++ [n]) hr
    refine ⟨d, it, false, heq, ?_⟩
    rw [h.entries] at hr
    rwa [AssignmentSet.index_database.emplace_back, dif_pos hr]
  · obtain ⟨d', heq, hvalid, -, hentries⟩ := h.emplace_back_of_fresh hr
    refine ⟨d', d.next, true, heq, hvalid, ?_⟩
    rw [h.entries] at hr hentries
    rw [hentries, AssignmentSet.index_database.records_emplace_back hr]

end Represents

namespace Valid

variable {d : index_database α}

/-! ### Copying -/

omit [Record α] in
/-- The loop over the nodes of the other database: the keys are added at the back. -/
theorem foldlM_rebuild {db : Char → Option α} {order : List Node} (hstored : ∀ n ∈ order, ∃ r, db n.key = some r)
    {d : index_database α} (h : Indexed d) (hdb : d.db = db)
    (hnodup : (d.order_db.map (·.key) ++ order.map (·.key)).Nodup) :
    ∃ d', order.foldlM (append_iterator db) d = .ok d' ∧
      Indexed d' ∧ d'.db = db ∧ d'.order_db.map (·.key) = d.order_db.map (·.key) ++ order.map (·.key) := by
  induction order generalizing d with
  | nil => exact ⟨d, rfl, h, hdb, (List.append_nil _).symm⟩
  | cons n order ih =>
    obtain ⟨r, hr⟩ := hstored n List.mem_cons_self
    rw [List.map_cons, List.append_cons] at hnodup
    have hfresh : n.key ∉ d.order_db.map (·.key) := fun hmem =>
      (List.nodup_append.mp hnodup.of_append_left).2.2 _ hmem _ (List.mem_singleton_self _) rfl
    have hindexed := h.insert hfresh (List.perm_append_singleton ⟨d.next, n.key⟩ d.order_db) d.db
    rw [List.foldlM_cons, append_iterator, hr]
    obtain ⟨d', hd', hindexed', hdb', hkeys⟩ := ih (fun n' hn' => hstored n' (List.mem_cons_of_mem _ hn')) hindexed hdb
      (by simpa using hnodup)
    refine ⟨d', hd', hindexed', hdb', hkeys.trans ?_⟩
    simp

theorem exists_rebuild (h : Valid d) :
    ∃ d', rebuild d.db d.order_db = .ok d' ∧ Valid d' ∧ d'.entries = d.entries := by
  obtain ⟨d', heq, hindexed, hdb, hkeys⟩ := foldlM_rebuild (d := ⟨d.db, [], fun _ => none, 0⟩)
    (fun n hn => h.exists_of_mem hn) ⟨List.nodup_nil, List.nodup_nil, by simp, by simp⟩ rfl (by simpa using h.nodup)
  rw [List.map_nil, List.nil_append] at hkeys
  refine ⟨d', heq, ⟨hindexed, ?_, ?_⟩, ?_⟩
  · rw [hkeys, hdb]
    exact h.keys
  · rw [hdb]
    exact h.labels
  · rw [entries, hkeys, hdb, entries]

/-- **A copy has the same records in the same order**. -/
theorem exists_copy (h : Valid d) : ∃ d', d.copy = .ok d' ∧ Valid d' ∧ d'.entries = d.entries := h.exists_rebuild

/-- **Assignment by moving**: the records are in the new database, and the other is empty. -/
theorem exists_move_assign (h : Valid d) :
    ∃ d' moved, d.move_assign = .ok (d', moved) ∧ Valid d' ∧ d'.entries = d.entries ∧ Valid moved ∧
      moved.entries = [] := by
  obtain ⟨d', heq, hvalid, hentries⟩ := h.exists_rebuild
  refine ⟨d', { d with db := fun _ => none, order_db := [], order_index := fun _ => none }, ?_, hvalid, hentries,
    ⟨⟨List.nodup_nil, List.nodup_nil, ?_, ?_⟩, ?_, ?_⟩, rfl⟩
  · rw [move_assign, heq]
    rfl
  all_goals simp

/-! ### The operators -/

/-- `operator-` throws for a record of `l` for which `r` has another class. -/
def mismatch (r : index_database α) (idx : α) : Bool := (r.db (get_label idx)).any (get_class idx ≠ get_class ·)

theorem minus_record_of_mismatch {r rval : index_database α} (hr : Valid r) {idx : α} (hidx : mismatch r idx = true) :
    r.minus_record rval idx = .error (.index_exception (get_label idx)) := by
  obtain ⟨other, hother, hclass⟩ := (Option.any_eq_true _ _).mp hidx
  obtain ⟨it, hit, hderef⟩ := hr.exists_find hother
  simp only [minus_record, hit, hderef]
  exact if_pos (of_decide_eq_true hclass)

/-- Any other record is added at the back if it is not in `r`. -/
theorem minus_record_of_not_mismatch {r rval : index_database α} (hr : Valid r) (h : Valid rval) {idx : α}
    (hidx : mismatch r idx = false) (hnew : get_label idx ∉ rval.entries.map get_label) :
    ∃ d, r.minus_record rval idx = .ok d ∧ Valid d ∧
      d.entries = rval.entries ++ [idx].filter fun idx => (r.db (get_label idx)).isNone := by
  rcases hdb : r.db (get_label idx) with _ | other
  · have hit := hr.find_eq_none.mpr hdb
    obtain ⟨d, heq, hvalid, -, hentries⟩ := h.emplace_back_of_fresh hnew
    refine ⟨d, ?_, hvalid, ?_⟩
    · rw [minus_record, hit]
      simp only [heq]
      rfl
    · rw [hentries, List.filter_singleton, hdb]
      rfl
  · obtain ⟨it, hit, hderef⟩ := hr.exists_find hdb
    have hclass : get_class idx = get_class other := by
      simpa [mismatch, hdb] using hidx
    refine ⟨rval, ?_, h, ?_⟩
    · simp only [minus_record, hit, hderef]
      exact if_neg (not_not.mpr hclass)
    · rw [List.filter_singleton, hdb]
      exact (List.append_nil _).symm

/-- The loop of `operator-`, over records that are not in the new database. -/
theorem foldlM_minus_record {r : index_database α} (hr : Valid r) {records : List α} {rval : index_database α}
    (h : Valid rval) (hnodup : ((rval.entries ++ records).map get_label).Nodup) :
    match records.find? (mismatch r) with
    | some idx => records.foldlM r.minus_record rval = .error (.index_exception (get_label idx))
    | none => ∃ d, records.foldlM r.minus_record rval = .ok d ∧ Valid d ∧
        d.entries = rval.entries ++ records.filter fun idx => (r.db (get_label idx)).isNone := by
  induction records generalizing rval with
  | nil => exact ⟨rval, rfl, h, (List.append_nil _).symm⟩
  | cons idx records ih =>
    rw [List.append_cons] at hnodup
    rw [List.foldlM_cons, List.find?_cons]
    rcases hidx : mismatch r idx
    · have hnew : get_label idx ∉ rval.entries.map get_label := by
        rw [List.map_append, List.map_append] at hnodup
        exact fun hmem => (List.nodup_append.mp hnodup.of_append_left).2.2 _ hmem _ (List.mem_singleton_self _) rfl
      obtain ⟨d, heq, hvalid, hentries⟩ := minus_record_of_not_mismatch hr h hidx hnew
      have hsub : ((d.entries ++ records).map get_label).Nodup := by
        refine hnodup.sublist (List.Sublist.map _ ?_)
        rw [hentries]
        exact ((List.Sublist.refl _).append List.filter_sublist).append (List.Sublist.refl _)
      have hrest := ih hvalid hsub
      rw [heq, hentries, List.append_assoc, ← List.filter_append, List.singleton_append] at *
      exact hrest
    · rw [minus_record_of_mismatch hr hidx]
      rfl

/-- **`operator-`** throws for the first index of `l` that has another class in `r`; without one it lists the indices
of `l` that are not in `r`, in order. -/
theorem minus_eq {l r : index_database α} (hl : Valid l) (hr : Valid r) :
    match l.entries.find? (mismatch r) with
    | some idx => l.minus r = .error (.index_exception (get_label idx))
    | none => ∃ d, l.minus r = .ok d ∧ Valid d ∧
        d.entries = l.entries.filter fun idx => (r.db (get_label idx)).isNone := by
  have hnodup : (((index_database.create (α := α)).entries ++ l.entries).map get_label).Nodup := hl.nodup_labels
  have hloop := foldlM_minus_record hr Valid.create hnodup
  rw [minus, hl.records_eq]
  exact hloop

/-- The loop of `operator+`, over records with different labels. -/
theorem foldlM_plus_record {records : List α} (hnodup : (records.map get_label).Nodup) {rval : index_database α}
    (h : Valid rval) :
    match records.find? fun rec => (rval.db (get_label rec)).isSome with
    | some rec => records.foldlM plus_record rval = .error (.index_exception (get_label rec))
    | none => ∃ d, records.foldlM plus_record rval = .ok d ∧ Valid d ∧ d.entries = rval.entries ++ records := by
  induction records generalizing rval with
  | nil => exact ⟨rval, rfl, h, (List.append_nil _).symm⟩
  | cons rec records ih =>
    rw [List.foldlM_cons, List.find?_cons]
    rcases hdb : rval.db (get_label rec) with _ | stored
    · have hnew : get_label rec ∉ rval.entries.map get_label := by
        rw [h.mem_labels, hdb]
        exact Bool.false_ne_true
      obtain ⟨d, heq, hvalid, -, hentries⟩ := h.emplace_back_of_fresh hnew
      have hbody : plus_record rval rec = .ok d := by
        simp only [plus_record, h.find_eq_none.mpr hdb, heq]
        rfl
      -- the other labels are in the new database exactly when they were in the old
      have hsame : ∀ rec' ∈ records, (d.db (get_label rec')).isSome = (rval.db (get_label rec')).isSome := by
        intro rec' hrec'
        have hne : get_label rec' ≠ get_label rec := by
          rintro heq
          exact (List.nodup_cons.mp hnodup).1 (heq ▸ List.mem_map_of_mem hrec')
        rw [Bool.eq_iff_iff, ← hvalid.mem_labels, ← h.mem_labels, hentries]
        simp [hne]
      have hrest := ih (List.nodup_cons.mp hnodup).2 hvalid
      rw [hentries, List.append_assoc, List.singleton_append, List.find?_congr hsame] at hrest
      rw [hbody]
      exact hrest
    · obtain ⟨it, hit, -⟩ := h.exists_find hdb
      simp only [plus_record, hit]
      rfl

/-- **`operator+`** throws for the first index of `r` that is in `l` too; without one it lists the indices of `l` and
then those of `r`. -/
theorem plus_eq {l r : index_database α} (hl : Valid l) (hr : Valid r) :
    match r.entries.find? fun rec => (l.db (get_label rec)).isSome with
    | some rec => l.plus r = .error (.index_exception (get_label rec))
    | none => ∃ d, l.plus r = .ok d ∧ Valid d ∧ d.entries = l.entries ++ r.entries := by
  obtain ⟨rval, hcopy, hvalid, hentries⟩ := hl.exists_copy
  have hsame : ∀ rec ∈ r.entries, (rval.db (get_label rec)).isSome = (l.db (get_label rec)).isSome := by
    intro rec _
    rw [Bool.eq_iff_iff, ← hvalid.mem_labels, ← hl.mem_labels, hentries]
  have hloop := foldlM_plus_record hr.nodup_labels hvalid
  rw [hentries, List.find?_congr hsame] at hloop
  rw [plus, hcopy, hr.records_eq]
  exact hloop

end Valid

/-! ### Sequences of operations -/

/-- An operation on databases, which are numbered in the order in which they have been made. -/
inductive Command (α : Type) where
  | create
  | emplace_front (i : ℕ) (r : α)
  | emplace_back (i : ℕ) (r : α)
  /-- Construction from another database, which copies also where it is moved from. -/
  | construct (i : ℕ)
  /-- `operator=`, from the second. -/
  | assign (i j : ℕ)
  | plus (i j : ℕ)
  | minus (i j : ℕ)

/-- The databases after an operation; one on a database that there is not does nothing. -/
def exec (s : List (index_database α)) : Command α → Except Thrown (List (index_database α))
  | .create => .ok (s ++ [create])
  | .emplace_front i r =>
    match s[i]? with
    | some d => return s.set i (← d.emplace_front (get_label r) r).1
    | none => .ok s
  | .emplace_back i r =>
    match s[i]? with
    | some d => return s.set i (← d.emplace_back (get_label r) r).1
    | none => .ok s
  | .construct i =>
    match s[i]? with
    | some d => return s ++ [← d.copy]
    | none => .ok s
  | .assign i j =>
    match s[j]? with
    | some d =>
      if i ≠ j then do
        let (assigned, moved) ← d.move_assign
        return (s.set i assigned).set j moved
      else .ok s
    | none => .ok s
  | .plus i j =>
    match s[i]?, s[j]? with
    | some l, some r => return s ++ [← l.plus r]
    | _, _ => .ok s
  | .minus i j =>
    match s[i]?, s[j]? with
    | some l, some r => return s ++ [← l.minus r]
    | _, _ => .ok s

/-- Programs that use databases; an operator that throws leaves its operands as they are. -/
def programs (α : Type) [Record α] : System (List (index_database α)) (Command α) where
  init s := s = []
  step s c s' := exec s c = .ok s' ∨ (∃ e, exec s c = .error e) ∧ s' = s

theorem forall_mem_append_singleton {s : List (index_database α)} (hs : ∀ d ∈ s, Valid d) {d : index_database α}
    (hd : Valid d) : ∀ d' ∈ s ++ [d], Valid d' := by
  intro d' hd'
  rcases List.mem_append.mp hd' with hmem | hmem
  · exact hs d' hmem
  · rwa [List.mem_singleton.mp hmem]

theorem forall_mem_set {s : List (index_database α)} (hs : ∀ d ∈ s, Valid d) (i : ℕ) {d : index_database α}
    (hd : Valid d) : ∀ d' ∈ s.set i d, Valid d' := by
  intro d' hd'
  rcases List.mem_or_eq_of_mem_set hd' with hmem | rfl
  · exact hs d' hmem
  · exact hd

/-- Every operation leaves databases whose maps and lists fit together; only the operators throw, and only for an
index. -/
theorem exec_cases {s : List (index_database α)} (hs : ∀ d ∈ s, Valid d) (c : Command α) :
    (∃ s', exec s c = .ok s' ∧ ∀ d ∈ s', Valid d) ∨
      ∃ i j label, (c = .plus i j ∨ c = .minus i j) ∧ exec s c = .error (.index_exception label) := by
  have hmem : ∀ {i : ℕ} {d : index_database α}, s[i]? = some d → Valid d := fun h => hs _ (List.mem_of_getElem? h)
  cases c with
  | create => exact .inl ⟨_, rfl, forall_mem_append_singleton hs Valid.create⟩
  | emplace_front i r =>
    cases hd : s[i]? with
    | none => exact .inl ⟨s, by simp only [exec, hd], hs⟩
    | some d =>
      obtain ⟨d', it, emplaced, hok, hd'⟩ := (hmem hd).represents.emplace_front r
      exact .inl ⟨s.set i d', by simp only [exec, hd, hok]; rfl, forall_mem_set hs i hd'.toValid⟩
  | emplace_back i r =>
    cases hd : s[i]? with
    | none => exact .inl ⟨s, by simp only [exec, hd], hs⟩
    | some d =>
      obtain ⟨d', it, emplaced, hok, hd'⟩ := (hmem hd).represents.emplace_back r
      exact .inl ⟨s.set i d', by simp only [exec, hd, hok]; rfl, forall_mem_set hs i hd'.toValid⟩
  | construct i =>
    cases hd : s[i]? with
    | none => exact .inl ⟨s, by simp only [exec, hd], hs⟩
    | some d =>
      obtain ⟨d', hok, hvalid, -⟩ := (hmem hd).exists_copy
      exact .inl ⟨s ++ [d'], by simp only [exec, hd, hok]; rfl, forall_mem_append_singleton hs hvalid⟩
  | assign i j =>
    cases hd : s[j]? with
    | none => exact .inl ⟨s, by simp only [exec, hd], hs⟩
    | some d =>
      by_cases hij : i ≠ j
      · obtain ⟨assigned, moved, hok, hassigned, -, hmoved, -⟩ := (hmem hd).exists_move_assign
        refine .inl ⟨(s.set i assigned).set j moved, ?_, forall_mem_set (forall_mem_set hs i hassigned) j hmoved⟩
        simp only [exec, hd, if_pos hij, hok]
        rfl
      · exact .inl ⟨s, by simp only [exec, hd, if_neg hij], hs⟩
  | plus i j =>
    cases hl : s[i]? with
    | none => exact .inl ⟨s, by simp only [exec, hl], hs⟩
    | some l =>
      cases hr : s[j]? with
      | none => exact .inl ⟨s, by simp only [exec, hl, hr], hs⟩
      | some r =>
        have hplus := (hmem hl).plus_eq (hmem hr)
        split at hplus
        · exact .inr ⟨i, j, _, .inl rfl, by simp only [exec, hl, hr, hplus]; rfl⟩
        · obtain ⟨d, hok, hvalid, -⟩ := hplus
          exact .inl ⟨s ++ [d], by simp only [exec, hl, hr, hok]; rfl, forall_mem_append_singleton hs hvalid⟩
  | minus i j =>
    cases hl : s[i]? with
    | none => exact .inl ⟨s, by simp only [exec, hl], hs⟩
    | some l =>
      cases hr : s[j]? with
      | none => exact .inl ⟨s, by simp only [exec, hl, hr], hs⟩
      | some r =>
        have hminus := (hmem hl).minus_eq (hmem hr)
        split at hminus
        · exact .inr ⟨i, j, _, .inr rfl, by simp only [exec, hl, hr, hminus]; rfl⟩
        · obtain ⟨d, hok, hvalid, -⟩ := hminus
          exact .inl ⟨s ++ [d], by simp only [exec, hl, hr, hok]; rfl, forall_mem_append_singleton hs hvalid⟩

theorem valid_of_exec {s s' : List (index_database α)} {c : Command α} (hs : ∀ d ∈ s, Valid d)
    (heq : exec s c = .ok s') : ∀ d ∈ s', Valid d := by
  obtain ⟨s'', hok, hvalid⟩ | ⟨_, _, _, -, herror⟩ := exec_cases hs c
  · rw [hok] at heq
    cases heq
    exact hvalid
  · rw [herror] at heq
    cases heq

theorem index_exception_of_exec {s : List (index_database α)} {c : Command α} {e : Thrown} (hs : ∀ d ∈ s, Valid d)
    (heq : exec s c = .error e) :
    ∃ i j label, (c = .plus i j ∨ c = .minus i j) ∧ e = .index_exception label := by
  obtain ⟨s', hok, -⟩ | ⟨i, j, label, hoperator, herror⟩ := exec_cases hs c
  · rw [hok] at heq
    cases heq
  · rw [herror] at heq
    cases heq
    exact ⟨i, j, label, hoperator, rfl⟩

theorem valid_of_reachable {s : List (index_database α)} (hs : (programs α).Reachable s) : ∀ d ∈ s, Valid d := by
  refine System.Invariant.reachable (I := fun s => ∀ d ∈ s, Valid d) ⟨?_, ?_⟩ hs
  · rintro _ rfl d hd
    exact absurd hd List.not_mem_nil
  · rintro s c s' ih (heq | ⟨-, rfl⟩)
    · exact valid_of_exec ih heq
    · exact ih

theorem reachable_of_foldlM {s : List (index_database α)} {cs : List (Command α)} (h : cs.foldlM exec [] = .ok s) :
    (programs α).Reachable s := by
  have hinit : (programs α).Reachable [] := .of_init rfl
  generalize ([] : List (index_database α)) = s₀ at h hinit
  induction cs generalizing s₀ with
  | nil =>
    cases h
    exact hinit
  | cons c cs ih =>
    obtain ⟨s₁, hc, hcs⟩ := bind_eq_ok.mp h
    exact ih s₁ hcs (hinit.step (l := c) (Or.inl hc))

/-- The ordered list has the keys of the map, each once, an iteration visits their records in this order, and `find`
leads to the record with the label if there is one. -/
structure Agrees (d : index_database α) : Prop where
  nodup : (d.order_db.map (·.key)).Nodup
  keys : ∀ k, k ∈ d.order_db.map (·.key) ↔ (d.db k).isSome
  visits : d.records = .ok d.entries
  order : d.entries.map get_label = d.order_db.map (·.key)
  stored : ∀ r ∈ d.entries, d.db (get_label r) = some r
  find : ∀ k, (d.find k).isSome ↔ (d.db k).isSome
  deref : ∀ k it, d.find k = some it → d.deref it = d.db k

theorem Valid.agrees {d : index_database α} (h : Valid d) : Agrees d where
  nodup := h.nodup
  keys := h.keys
  visits := h.records_eq
  order := h.map_get_label_entries
  stored _ hr := h.mem_entries.mp hr
  find k := by rw [h.isSome_find, h.mem_labels]
  deref _ _ hit := h.deref_of_index hit

/-- **After every sequence of operations** the databases agree with themselves, and only the operators throw.
`operator+` lists the indices of the first and then those of the second, but throws for the first of these that the
first holds too; `operator-` lists the indices of the first that are not in the second, but throws for the first of
another class there. -/
theorem databases_agree {s : List (index_database α)} (hs : (programs α).Reachable s) :
    (∀ d ∈ s, Agrees d) ∧
      (∀ c e, exec s c = .error e → ∃ i j label, (c = .plus i j ∨ c = .minus i j) ∧ e = .index_exception label) ∧
      ∀ l ∈ s, ∀ r ∈ s,
        (match r.entries.find? fun rec => (l.db (get_label rec)).isSome with
          | some rec => l.plus r = .error (.index_exception (get_label rec))
          | none => ∃ d, l.plus r = .ok d ∧ Agrees d ∧ d.entries = l.entries ++ r.entries) ∧
        (match l.entries.find? (Valid.mismatch r) with
          | some idx => l.minus r = .error (.index_exception (get_label idx))
          | none => ∃ d, l.minus r = .ok d ∧ Agrees d ∧
              d.entries = l.entries.filter fun idx => (r.db (get_label idx)).isNone) := by
  have hvalid := valid_of_reachable hs
  refine ⟨fun d hd => (hvalid d hd).agrees, fun c e => index_exception_of_exec hvalid, fun l hl r hr => ⟨?_, ?_⟩⟩
  · have hplus := (hvalid l hl).plus_eq (hvalid r hr)
    split
    · rename_i rec hfind
      rwa [hfind] at hplus
    · rename_i hfind
      rw [hfind] at hplus
      obtain ⟨d, heq, hd, hentries⟩ := hplus
      exact ⟨d, heq, hd.agrees, hentries⟩
  · have hminus := (hvalid l hl).minus_eq (hvalid r hr)
    split
    · rename_i idx hfind
      rwa [hfind] at hminus
    · rename_i hfind
      rw [hfind] at hminus
      obtain ⟨d, heq, hd, hentries⟩ := hminus
      exact ⟨d, heq, hd.agrees, hentries⟩

end index_database

instance : Record AssignmentSet.abstract_index := ⟨AssignmentSet.abstract_index.classification⟩

namespace index_database

open AssignmentSet (abstract_index)

def field (label : Char) : abstract_index := ⟨label, .field_only, 2, 1⟩

/-- Two databases, with `j`, `i` and `k`. -/
def made : List (index_database abstract_index) :=
  match [Command.create, .emplace_back 0 (field 'i'), .emplace_front 0 (field 'j'), .create,
    .emplace_back 1 (field 'k')].foldlM exec [] with
  | .ok s => s
  | .error _ => []

theorem databases_agree_made :
    made.map (·.entries.map get_label) = [['j', 'i'], ['k']] ∧ ∀ d ∈ made, Agrees d := by
  have hmade : [Command.create, .emplace_back 0 (field 'i'), .emplace_front 0 (field 'j'), .create,
      .emplace_back 1 (field 'k')].foldlM exec [] = .ok made := rfl
  exact ⟨by decide, (databases_agree (reachable_of_foldlM hmade)).1⟩

/-- Two databases with an index of the same label: their sum is an exception. -/
theorem plus_of_shared_index :
    ¬∀ s : List (index_database abstract_index), (programs abstract_index).Reachable s → ∀ l ∈ s, ∀ r ∈ s,
      ∃ d, l.plus r = .ok d ∧
        d.records = .ok (l.entries ++ r.entries.filter fun rec => (l.db (get_label rec)).isNone) := by
  intro h
  obtain ⟨s, hs⟩ : ∃ s, [Command.create, .emplace_back 0 (field 'a'), .construct 0].foldlM exec [] = .ok s := ⟨_, rfl⟩
  have hreachable := reachable_of_foldlM hs
  cases hs
  obtain ⟨d, heq, -⟩ := h _ hreachable _ List.mem_cons_self _ (List.mem_cons_of_mem _ (List.mem_singleton_self _))
  cases heq

end index_database

end CppTransport.Translator.IndexDatabase
