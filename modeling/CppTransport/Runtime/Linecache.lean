import CppTransport.Library.Table
import CppTransport.Library.Transition
import Mathlib.Data.List.FinRange
import Mathlib.Data.UInt
import Mathlib.Tactic.Linarith

/-!
# The line cache of the datapipe

A `linecache::cache` (`utilities/linecache.h`) keeps what was read from the database. It
holds a table for each file, a table holds a group for each query, and a group is a hash
table whose lines are lists of data items, one for each tag. A lookup that finds no item
pulls the data from the database and inserts an item; if the sizes of the items then
exceed the capacity, items are evicted.

## The model

Objects are told apart by their addresses, which come from a counter, and a reference is
an address, or the addresses on the way to an object. Only tables and groups that are
still empty are copied, so copying is left out. The data items are held by the lines of
the groups, as in the code, and each has the back-pointer to its line that an eviction
uses. Sizes are 32-bit words. Times are read from outside. Where `10*data_size`
overflows, which the C++ code leaves undefined, the model takes two's complement; no
result of this module depends on it. Tags and queries are compared by the code's own
`==`; `pull` gives the same for equal tags and for equal queries.

## What is proved

* `lookup_tag_spec`: a lookup through a reference that was handed out is defined, and the
  data it returns a reference to is there and is what `pull` gives;
* `transparent_and_accounted`: this holds in all sequences of calls, and as long as at
  every miss the items held and the new one stay below `2^32` bytes in total, `data_size`
  is that total.
-/

namespace CppTransport.Runtime.Linecache

open Library

/-! ### The cache -/

/-- What the cache is used with. -/
structure Source (Data Tag Query : Type*) (HashSize : ℕ) [BEq Tag] [BEq Query] where
  /-- `tag.hash()`; the code asserts that it is below `HashSize`. -/
  hash : Tag → Fin HashSize
  /-- `tag.pull(query, data)`, for a tag that reads from a file. -/
  pull : String → Query → Tag → Data
  sizeof_container_element : UInt32
  elementsof_container : Data → UInt32
  /-- What is pulled depends on the tag up to `==`. -/
  pull_tag : ∀ file q {t t'}, (t == t') = true → pull file q t = pull file q t'
  /-- It depends on the query up to `==`. -/
  pull_query : ∀ file {q q'} t, (q == q') = true → pull file q t = pull file q' t

/-- A reference to a group: the addresses of its table and of the group. -/
structure Handle where
  table : ℕ
  group : ℕ
  deriving DecidableEq

/-- A pointer to a line of a group. -/
structure Line (HashSize : ℕ) where
  handle : Handle
  hash : Fin HashSize
  deriving DecidableEq

structure data_item (Data Tag : Type*) (HashSize : ℕ) where
  address : ℕ
  data : Data
  tag : Tag
  /-- Parent list, used when evicting this item. -/
  parent_list : Line HashSize
  /-- Last access time for this item. -/
  last_access : ℤ
  /-- Marks this item as not evictable. -/
  locked : Bool
  deriving DecidableEq

structure serial_group (Data Tag Query : Type*) (HashSize : ℕ) where
  address : ℕ
  /-- The query object that identifies this group. -/
  query : Query
  /-- The lines of the hash table. -/
  cache : Fin HashSize → List (data_item Data Tag HashSize)

structure table (Data Tag Query : Type*) (HashSize : ℕ) where
  address : ℕ
  /-- The file this table belongs to. -/
  filename : String
  groups : List (serial_group Data Tag Query HashSize)

structure cache (Data Tag Query : Type*) (HashSize : ℕ) where
  capacity : UInt32
  /-- Current memory usage. -/
  data_size : UInt32
  hit_counter : UInt32
  unload_counter : UInt32
  tables : List (table Data Tag Query HashSize)
  /-- The address of the next object. -/
  next : ℕ

variable {Data Tag Query : Type*} {HashSize : ℕ}

namespace cache

/-- The constructor. -/
def create (cap : UInt32) : cache Data Tag Query HashSize where
  capacity := cap
  data_size := 0
  hit_counter := 0
  unload_counter := 0
  tables := []
  next := 0

variable (c : cache Data Tag Query HashSize)

/-- `get_table_handle`: a reference to the table. -/
def get_table_handle (name : String) : cache Data Tag Query HashSize × ℕ :=
  match c.tables.find? fun t => t.filename == name with
  | some t => (c, t.address)
  | none => ({ c with tables := ⟨c.next, name, []⟩ :: c.tables, next := c.next + 1 }, c.next)

/-- The table and the group that a reference points to. -/
def find_group (h : Handle) : Option (table Data Tag Query HashSize × serial_group Data Tag Query HashSize) :=
  (c.tables.find? fun t => t.address = h.table).bind fun t =>
    (t.groups.find? fun g => g.address = h.group).map fun g => (t, g)

/-- The line that a pointer points to. -/
def find_line (l : Line HashSize) : Option (List (data_item Data Tag HashSize)) :=
  (c.find_group l.handle).map fun tg => tg.2.cache l.hash

/-- The cache with one line replaced. -/
def modify_line (l : Line HashSize) (f : List (data_item Data Tag HashSize) → List (data_item Data Tag HashSize)) :
    cache Data Tag Query HashSize :=
  { c with
    tables := c.tables.map fun t =>
      if t.address = l.handle.table then
        { t with
          groups := t.groups.map fun g =>
            if g.address = l.handle.group then { g with cache := Function.update g.cache l.hash (f (g.cache l.hash)) }
            else g }
      else t }

/-- The cache with one item replaced. -/
def modify_item (l : Line HashSize) (address : ℕ) (f : data_item Data Tag HashSize → data_item Data Tag HashSize) :
    cache Data Tag Query HashSize :=
  c.modify_line l (List.map fun it => if it.address = address then f it else it)

/-- A new item is put in front of its line. -/
def push_front (it : data_item Data Tag HashSize) : cache Data Tag Query HashSize :=
  { c.modify_line it.parent_list (it :: ·) with next := c.next + 1 }

/-- A new group is put in front of the groups of a table. -/
def push_group (a : ℕ) (q : Query) : cache Data Tag Query HashSize :=
  { c with
    tables := c.tables.map fun t =>
      if t.address = a then { t with groups := ⟨c.next, q, fun _ => []⟩ :: t.groups } else t
    next := c.next + 1 }

/-- `hit`. -/
def hit : cache Data Tag Query HashSize := { c with hit_counter := c.hit_counter + 1 }

/-- The data that a reference to an item of a line refers to. -/
def deref (r : Line HashSize × ℕ) : Option Data :=
  (c.find_line r.1).bind fun items => (items.find? fun it => it.address = r.2).map (·.data)

end cache

/-- The items of a group, line by line. -/
def serial_group.items (g : serial_group Data Tag Query HashSize) : List (data_item Data Tag HashSize) :=
  (List.finRange HashSize).flatMap g.cache

/-- The items of a table, group by group. -/
def table.items (t : table Data Tag Query HashSize) : List (data_item Data Tag HashSize) :=
  t.groups.flatMap serial_group.items

/-- The items of the cache, table by table. -/
def cache.items (c : cache Data Tag Query HashSize) : List (data_item Data Tag HashSize) :=
  c.tables.flatMap table.items

section Operations

variable [BEq Tag] [BEq Query] (src : Source Data Tag Query HashSize) (c : cache Data Tag Query HashSize)

/-- `get_size`, in bytes. -/
def Source.get_size (d : Data) : UInt32 := src.sizeof_container_element * src.elementsof_container d

namespace cache

/-- `get_serial_handle` of a table: a reference to the group. -/
def get_serial_handle (a : ℕ) (q : Query) : Option (cache Data Tag Query HashSize × Handle) :=
  (c.tables.find? fun t => t.address = a).map fun t =>
    match t.groups.find? fun g => g.query == q with
    | some g => (c, ⟨a, g.address⟩)
    | none => (c.push_group a q, ⟨a, c.next⟩)

/-- Evicting one item through the pointer to the list that owns it. -/
def erase (it : data_item Data Tag HashSize) : cache Data Tag Query HashSize :=
  { c.modify_line it.parent_list (List.filter fun x => x.address ≠ it.address) with
    data_size := c.data_size - src.get_size it.data
    unload_counter := c.unload_counter + 1 }

/-- The loop that works through the queue. -/
def evict (target_size : UInt32) (c : cache Data Tag Query HashSize) :
    List (data_item Data Tag HashSize) → cache Data Tag Query HashSize
  | [] => c
  | it :: queue =>
    if c.data_size > target_size then
      if it.locked then evict target_size c queue else evict target_size (c.erase src it) queue
    else c

/-- `clean_up_list`: every item gathered is put in front, and then the list is sorted. -/
def clean_up_list : List (data_item Data Tag HashSize) :=
  c.items.reverse.mergeSort fun a b => decide (b.last_access ≤ a.last_access)

/-- The size that evictions aim at. -/
def target_size : UInt32 := (max (c.capacity.toInt32 - 10 * c.data_size.toInt32) 0).toUInt32

/-- `advise_size_increase`. -/
def advise_size_increase (bytes : UInt32) : cache Data Tag Query HashSize :=
  let c := { c with data_size := c.data_size + bytes }
  if c.data_size > c.capacity then evict src c.target_size c c.clean_up_list else c

/-- The end of `lookup_tag`: `unlock` and `get_data`. -/
def release (l : Line HashSize) (address : ℕ) (now : ℤ) : cache Data Tag Query HashSize :=
  (c.modify_item l address fun it => { it with locked := false }).modify_item l address fun it =>
    { it with last_access := now }

/-- `lookup_tag` on a group: the cache, and a reference to the item whose data is returned. Time is read
twice. -/
def lookup_tag (h : Handle) (tag : Tag) (now₁ now₂ : ℤ) :
    Option (cache Data Tag Query HashSize × Line HashSize × ℕ) :=
  (c.find_group h).map fun tg =>
    let l : Line HashSize := ⟨h, src.hash tag⟩
    match (tg.2.cache l.hash).find? fun it => it.tag == tag with
    | some it =>
      let c := (c.modify_item l it.address fun it => { it with last_access := now₁ }).hit
      (c.release l it.address now₂, l, it.address)
    | none =>
      let it : data_item Data Tag HashSize := {
        address := c.next
        data := src.pull tg.1.filename tg.2.query tag
        tag := tag
        parent_list := l
        last_access := now₁
        locked := true }
      let c := (c.push_front it).advise_size_increase src (src.get_size it.data)
      (c.release l it.address now₂, l, it.address)

/-- The sizes of all items held. -/
def total : ℕ := (c.items.map fun it => (src.get_size it.data).toNat).sum

end cache

end Operations

/-! ### Tables and groups -/

namespace cache

variable {c : cache Data Tag Query HashSize} {h : Handle} {l l' : Line HashSize}
  {t : table Data Tag Query HashSize} {g : serial_group Data Tag Query HashSize}
  {f : List (data_item Data Tag HashSize) → List (data_item Data Tag HashSize)}

/-- The tables and groups without the items. -/
def skeleton (c : cache Data Tag Query HashSize) : List (ℕ × String × List (ℕ × Query)) :=
  c.tables.map fun t => (t.address, t.filename, t.groups.map fun g => (g.address, g.query))

@[simp] theorem skeleton_modify_line : (c.modify_line l f).skeleton = c.skeleton := by
  simp only [skeleton, modify_line, List.map_map]
  refine List.map_congr_left fun t _ => ?_
  simp only [Function.comp]
  split_ifs
  · simp only [List.map_map]
    refine congrArg (fun gs => (t.address, t.filename, gs)) (List.map_congr_left fun g _ => ?_)
    simp only [Function.comp]
    split_ifs <;> rfl
  · rfl

/-- Objects have different addresses, below the next one. -/
structure WellFormed (c : cache Data Tag Query HashSize) : Prop where
  tables : (c.skeleton.map Prod.fst).Nodup
  groups : ∀ t ∈ c.skeleton, (t.2.2.map Prod.fst).Nodup
  tables_below : ∀ t ∈ c.skeleton, t.1 < c.next
  groups_below : ∀ t ∈ c.skeleton, ∀ g ∈ t.2.2, g.1 < c.next

theorem WellFormed.tables_nodup (wf : c.WellFormed) : (c.tables.map (·.address)).Nodup := by
  simpa [skeleton, Function.comp_def] using wf.tables

theorem WellFormed.groups_nodup (wf : c.WellFormed) (ht : t ∈ c.tables) : (t.groups.map (·.address)).Nodup := by
  simpa [Function.comp_def] using wf.groups _ (List.mem_map_of_mem ht)

/-- A reference points to the one group with its addresses. -/
theorem WellFormed.find_group_eq_some_iff (wf : c.WellFormed) : c.find_group h = some (t, g) ↔
    (t ∈ c.tables ∧ t.address = h.table) ∧ g ∈ t.groups ∧ g.address = h.group := by
  rw [find_group, Option.bind_eq_some_iff]
  constructor
  · rintro ⟨t', ht', hg⟩
    obtain ⟨g', hg', he⟩ := Option.map_eq_some_iff.mp hg
    cases he
    have ht := (find?_key_eq_some_iff wf.tables_nodup).mp ht'
    exact ⟨ht, (find?_key_eq_some_iff (wf.groups_nodup ht.1)).mp hg'⟩
  · rintro ⟨ht, hg⟩
    refine ⟨t, (find?_key_eq_some_iff wf.tables_nodup).mpr ht, ?_⟩
    rw [(find?_key_eq_some_iff (wf.groups_nodup ht.1)).mpr hg]
    rfl

/-- **Frame**: a line holds its part of the items, and replacing it leaves the others alone. -/
theorem WellFormed.exists_frame (wf : c.WellFormed) (hg : c.find_group l.handle = some (t, g)) :
    ∃ rest, c.items.Perm (g.cache l.hash ++ rest) ∧
      ∀ f, (c.modify_line l f).items.Perm (f (g.cache l.hash) ++ rest) := by
  obtain ⟨⟨ht, hta⟩, hgt, hga⟩ := wf.find_group_eq_some_iff.mp hg
  obtain ⟨⟨ta, ga⟩, i⟩ := l
  obtain rfl : t.address = ta := hta
  obtain rfl : g.address = ga := hga
  obtain ⟨rest₁, e₁, u₁⟩ := exists_frame_map wf.tables_nodup ht table.items
  obtain ⟨rest₂, e₂, u₂⟩ := exists_frame_map (wf.groups_nodup ht) hgt serial_group.items
  obtain ⟨rest₃, e₃, u₃⟩ := exists_frame_update (List.nodup_finRange HashSize) (List.mem_finRange i) g.cache
  refine ⟨rest₃ ++ (rest₂ ++ rest₁), ?_, fun f => ?_⟩
  · have group : g.items.Perm (g.cache i ++ rest₃) := e₃
    have table : t.items.Perm (g.items ++ rest₂) := e₂
    have items := e₁.trans ((table.trans (group.append_right _)).append_right _)
    rwa [List.append_assoc, List.append_assoc] at items
  · have group := (u₂ fun g => { g with cache := Function.update g.cache i (f (g.cache i)) }).trans
      ((u₃ (f (g.cache i))).append_right rest₂)
    have items := (u₁ fun t => { t with
      groups := t.groups.map fun g' =>
        if g'.address = g.address then { g' with cache := Function.update g'.cache i (f (g'.cache i)) }
        else g' }).trans (group.append_right rest₁)
    rwa [List.append_assoc, List.append_assoc] at items

theorem WellFormed.of_skeleton {c' : cache Data Tag Query HashSize} (wf : c.WellFormed)
    (hs : c'.skeleton = c.skeleton) (hn : c.next ≤ c'.next) : c'.WellFormed where
  tables := hs ▸ wf.tables
  groups := hs ▸ wf.groups
  tables_below := fun t ht => (wf.tables_below t (hs ▸ ht)).trans_le hn
  groups_below := fun t ht g hg => (wf.groups_below t (hs ▸ ht) g hg).trans_le hn

/-- Replacing one line leaves the other lines alone. -/
theorem find_line_modify_line : (c.modify_line l f).find_line l' =
    if l' = l then (c.find_line l').map f else c.find_line l' := by
  have table_address (k : ℕ) (u : table Data Tag Query HashSize → table Data Tag Query HashSize)
      (hu : ∀ t, (u t).address = t.address) :
      ((fun t : table Data Tag Query HashSize => decide (t.address = k)) ∘ u) = fun t => decide (t.address = k) := by
    funext t
    simp only [Function.comp, hu]
  have group_address (k : ℕ) (u : serial_group Data Tag Query HashSize → serial_group Data Tag Query HashSize)
      (hu : ∀ g, (u g).address = g.address) :
      ((fun g : serial_group Data Tag Query HashSize => decide (g.address = k)) ∘ u) =
        fun g => decide (g.address = k) := by
    funext g
    simp only [Function.comp, hu]
  rw [find_line, find_line, find_group, find_group, modify_line]
  simp only [List.find?_map]
  rw [table_address _ _ fun t => by split_ifs <;> rfl]
  cases ht : c.tables.find? fun t => decide (t.address = l'.handle.table) with
  | none => simp
  | some t =>
    have hta : t.address = l'.handle.table := by simpa using List.find?_some ht
    simp only [Option.map_some, Option.bind_some]
    by_cases h₁ : t.address = l.handle.table
    · simp only [h₁, if_true, List.find?_map]
      rw [group_address _ _ fun g => by split_ifs <;> rfl]
      cases hg : t.groups.find? fun g => decide (g.address = l'.handle.group) with
      | none => simp
      | some g =>
        have hga : g.address = l'.handle.group := by simpa using List.find?_some hg
        simp only [Option.map_some]
        by_cases h₂ : g.address = l.handle.group
        · have same : l'.handle = l.handle := by
            rw [← (show ⟨t.address, g.address⟩ = l'.handle by rw [hta, hga])]
            rw [h₁, h₂]
          by_cases h₃ : l'.hash = l.hash
          · have : l' = l := by
              cases l
              cases l'
              simp_all
            simp [h₂, this]
          · have : l' ≠ l := fun he => h₃ (congrArg Line.hash he)
            simp [h₂, h₃, this]
        · have : l' ≠ l := by
            rintro rfl
            exact h₂ hga
          simp only [if_neg h₂, if_neg this]
    · have : l' ≠ l := by
        rintro rfl
        exact h₁ hta
      simp only [if_neg h₁, if_neg this]

/-! ### Items -/

theorem mem_items {it : data_item Data Tag HashSize} :
    it ∈ c.items ↔ ∃ t ∈ c.tables, ∃ g ∈ t.groups, ∃ i, it ∈ g.cache i := by
  simp [items, table.items, serial_group.items]

/-- The line holds the item. -/
def Holds (c : cache Data Tag Query HashSize) (l : Line HashSize) (it : data_item Data Tag HashSize) : Prop :=
  ∃ items, c.find_line l = some items ∧ it ∈ items

theorem Holds.modify_line {it it' : data_item Data Tag HashSize} (h : c.Holds l' it)
    (hf : l' = l → ∀ items, it ∈ items → it' ∈ f items) (hne : l' ≠ l → it' = it) :
    (c.modify_line l f).Holds l' it' := by
  obtain ⟨items, hl, hit⟩ := h
  rw [Holds, find_line_modify_line]
  split_ifs with he
  · exact ⟨f items, by rw [hl]; rfl, hf he items hit⟩
  · exact ⟨items, hl, hne he ▸ hit⟩

/-- What an update of an item leaves alone stays the same all over the cache. -/
theorem WellFormed.perm_map_modify_item {β : Type*} (wf : c.WellFormed) (hg : c.find_group l.handle = some (t, g))
    (a : ℕ) {u : data_item Data Tag HashSize → data_item Data Tag HashSize} {k : data_item Data Tag HashSize → β}
    (hk : ∀ x, k (u x) = k x) : ((c.modify_item l a u).items.map k).Perm (c.items.map k) := by
  obtain ⟨rest, before, after⟩ := wf.exists_frame hg
  have same : ((g.cache l.hash).map fun x => if x.address = a then u x else x).map k = (g.cache l.hash).map k := by
    rw [List.map_map]
    refine List.map_congr_left fun x _ => ?_
    simp only [Function.comp]
    split_ifs
    · exact hk x
    · rfl
  have after := (after (List.map fun x => if x.address = a then u x else x)).map k
  rw [List.map_append, same, ← List.map_append] at after
  exact after.trans (before.map k).symm

/-- A reference points to the group of a query in the table of a file. -/
def Refers (c : cache Data Tag Query HashSize) (h : Handle) (file : String) (q : Query) : Prop :=
  ∃ t g, c.find_group h = some (t, g) ∧ t.filename = file ∧ g.query = q

theorem WellFormed.refers_iff (wf : c.WellFormed) {file : String} {q : Query} :
    c.Refers h file q ↔ ∃ s ∈ c.skeleton, s.1 = h.table ∧ s.2.1 = file ∧ (h.group, q) ∈ s.2.2 := by
  constructor
  · rintro ⟨t, g, hg, rfl, rfl⟩
    obtain ⟨⟨ht, hta⟩, hgt, hga⟩ := wf.find_group_eq_some_iff.mp hg
    exact ⟨_, List.mem_map_of_mem ht, hta, rfl, List.mem_map.mpr ⟨g, hgt, by rw [hga]⟩⟩
  · rintro ⟨s, hs, hta, rfl, hgq⟩
    obtain ⟨t, ht, rfl⟩ := List.mem_map.mp hs
    obtain ⟨g, hg, he⟩ := List.mem_map.mp hgq
    obtain ⟨hga, rfl⟩ := Prod.mk.inj he
    exact ⟨t, g, wf.find_group_eq_some_iff.mpr ⟨⟨ht, hta⟩, hg, hga⟩, rfl, rfl⟩

variable [BEq Tag] [BEq Query] {src : Source Data Tag Query HashSize} {it : data_item Data Tag HashSize}

/-- An item in a line points back to the line, and has the data of its tag. -/
structure Placed (src : Source Data Tag Query HashSize) (t : table Data Tag Query HashSize)
    (g : serial_group Data Tag Query HashSize) (i : Fin HashSize) (it : data_item Data Tag HashSize) : Prop where
  parent_list : it.parent_list = ⟨⟨t.address, g.address⟩, i⟩
  data : it.data = src.pull t.filename g.query it.tag

/-- What holds of the cache between two steps. -/
structure Sound (src : Source Data Tag Query HashSize) (c : cache Data Tag Query HashSize) : Prop
    extends WellFormed c where
  placed : ∀ t ∈ c.tables, ∀ g ∈ t.groups, ∀ i, ∀ it ∈ g.cache i, Placed src t g i it
  /-- Items have different addresses, below the next one. -/
  nodup : (c.items.map (·.address)).Nodup
  below : ∀ it ∈ c.items, it.address < c.next
  /-- The counter is the total, as far as it can count. -/
  size : c.data_size = UInt32.ofNat (c.total src)

theorem placed_modify_line (placed : ∀ t ∈ c.tables, ∀ g ∈ t.groups, ∀ i, ∀ it ∈ g.cache i, Placed src t g i it)
    (hf : ∀ t ∈ c.tables, ∀ g ∈ t.groups, l.handle = ⟨t.address, g.address⟩ →
      ∀ it ∈ f (g.cache l.hash), Placed src t g l.hash it) :
    ∀ t ∈ (c.modify_line l f).tables, ∀ g ∈ t.groups, ∀ i, ∀ it ∈ g.cache i, Placed src t g i it := by
  intro t' ht' g' hg' i it hit
  obtain ⟨t, ht, rfl⟩ := List.mem_map.mp ht'
  split_ifs at hg' ⊢ with h₁
  · obtain ⟨g, hg, rfl⟩ := List.mem_map.mp hg'
    split_ifs at hit ⊢ with h₂
    · have handle : l.handle = ⟨t.address, g.address⟩ := by rw [h₁, h₂]
      by_cases hi : i = l.hash
      · subst hi
        have := hf t ht g hg handle it (by simpa using hit)
        exact ⟨this.parent_list, this.data⟩
      · have := placed t ht g hg i it (by simpa [hi] using hit)
        exact ⟨this.parent_list, this.data⟩
    · have := placed t ht g hg i it hit
      exact ⟨this.parent_list, this.data⟩
  · exact placed t ht g' hg' i it hit

/-- Items held are in their line. -/
theorem Sound.find_group_parent_list (hs : c.Sound src) (hit : it ∈ c.items) :
    ∃ t g, c.find_group it.parent_list.handle = some (t, g) ∧ it ∈ g.cache it.parent_list.hash := by
  obtain ⟨t, ht, g, hg, i, hi⟩ := mem_items.mp hit
  have hp := (hs.placed t ht g hg i it hi).parent_list
  refine ⟨t, g, hs.find_group_eq_some_iff.mpr ?_, ?_⟩
  · rw [hp]
    exact ⟨⟨ht, rfl⟩, hg, rfl⟩
  · rwa [hp]

theorem Sound.mem_items_of_holds (hs : c.Sound src) (hl : c.Holds l it) : it ∈ c.items := by
  obtain ⟨items, hl, hit⟩ := hl
  obtain ⟨⟨t, g⟩, hg, rfl⟩ := Option.map_eq_some_iff.mp hl
  obtain ⟨⟨ht, -⟩, hgt, -⟩ := hs.find_group_eq_some_iff.mp hg
  exact mem_items.mpr ⟨t, ht, g, hgt, _, hit⟩

theorem Sound.eq_of_address_eq {it' : data_item Data Tag HashSize} (hs : c.Sound src) (hit : it ∈ c.items)
    (hit' : it' ∈ c.items) (ha : it.address = it'.address) : it = it' :=
  List.inj_on_of_nodup_map hs.nodup hit hit' ha

theorem Sound.deref_eq (hs : c.Sound src) (hl : c.Holds l it) : c.deref (l, it.address) = some it.data := by
  have hmem := hs.mem_items_of_holds hl
  obtain ⟨items, hl, hit⟩ := hl
  obtain ⟨⟨t, g⟩, hg, rfl⟩ := Option.map_eq_some_iff.mp hl
  obtain ⟨⟨ht, -⟩, hgt, -⟩ := hs.find_group_eq_some_iff.mp hg
  have found : (g.cache l.hash).find? (fun x => x.address = it.address) = some it := by
    cases hf : (g.cache l.hash).find? (fun x => x.address = it.address) with
    | none => exact absurd (List.find?_eq_none.mp hf it hit) (by simp)
    | some x =>
      have hx := List.mem_of_find?_eq_some hf
      have := hs.eq_of_address_eq (mem_items.mpr ⟨t, ht, g, hgt, _, hx⟩) hmem (by simpa using List.find?_some hf)
      rw [this]
  rw [deref, hl]
  simp [found]

theorem total_eq_of_perm {c' : cache Data Tag Query HashSize}
    (h : (c'.items.map (·.data)).Perm (c.items.map (·.data))) : c'.total src = c.total src := by
  have := (h.map fun d => (src.get_size d).toNat).sum_nat
  rwa [List.map_map, List.map_map] at this

theorem total_eq_add_of_perm (src : Source Data Tag Query HashSize) {c' : cache Data Tag Query HashSize}
    (h : c'.items.Perm (it :: c.items)) :
    c'.total src = c.total src + (src.get_size it.data).toNat := by
  have := (h.map fun x => (src.get_size x.data).toNat).sum_nat
  rw [List.map_cons, List.sum_cons, Nat.add_comm] at this
  exact this

/-! ### Eviction -/

/-- Erasing an item that is held takes it, and nothing else, out of the cache. -/
theorem Sound.erase_spec (hs : c.Sound src) (hit : it ∈ c.items) :
    (c.erase src it).Sound src ∧ c.items.Perm (it :: (c.erase src it).items) := by
  obtain ⟨t, g, hg, hgi⟩ := hs.find_group_parent_list hit
  obtain ⟨rest, before, after⟩ := hs.exists_frame hg
  have nodup : ((g.cache it.parent_list.hash).map (·.address)).Nodup := by
    have := (before.map (·.address)).nodup_iff.mp hs.nodup
    rw [List.map_append] at this
    exact (List.nodup_append.mp this).1
  have taken : c.items.Perm (it :: (c.erase src it).items) :=
    (before.trans ((perm_cons_filter_key nodup hgi).append_right rest)).trans
      ((after (List.filter fun x => x.address ≠ it.address)).symm.cons it)
  have subset : ∀ x ∈ (c.erase src it).items, x ∈ c.items := fun x hx => taken.mem_iff.mpr (List.mem_cons_of_mem _ hx)
  refine ⟨⟨hs.of_skeleton skeleton_modify_line le_rfl, ?_, ?_, fun x hx => hs.below x (subset x hx), ?_⟩, taken⟩
  · exact placed_modify_line hs.placed fun t ht g hg _ x hx => hs.placed t ht g hg _ x (List.mem_of_mem_filter hx)
  · have := (taken.map (·.address)).nodup_iff.mp hs.nodup
    exact (List.nodup_cons.mp this).2
  · calc c.data_size - src.get_size it.data
        = UInt32.ofNat ((c.erase src it).total src + (src.get_size it.data).toNat) - src.get_size it.data := by
          rw [hs.size, total_eq_add_of_perm src taken]
      _ = UInt32.ofNat ((c.erase src it).total src) := by
          rw [UInt32.ofNat_add, UInt32.ofNat_toNat, UInt32.add_sub_cancel]

/-- What an eviction keeps: tables and groups, the next address, and locked items. -/
structure Keeps (src : Source Data Tag Query HashSize) (c c' : cache Data Tag Query HashSize) : Prop where
  sound : c'.Sound src
  skeleton : c'.skeleton = c.skeleton
  next : c'.next = c.next
  total : c'.total src ≤ c.total src
  locked : ∀ l it, it.locked = true → c.Holds l it → c'.Holds l it

theorem Keeps.refl (hs : c.Sound src) : Keeps src c c := ⟨hs, rfl, rfl, le_rfl, fun _ _ _ h => h⟩

/-- **Eviction**: it never takes a locked item. -/
theorem Sound.evict_spec {target : UInt32} {queue : List (data_item Data Tag HashSize)} (hs : c.Sound src)
    (held : ∀ it ∈ queue, it ∈ c.items) (nodup : (queue.map (·.address)).Nodup) :
    Keeps src c (evict src target c queue) := by
  have stop := Keeps.refl hs
  induction queue generalizing c with
  | nil => exact stop
  | cons it queue ih =>
    obtain ⟨hne, nodup⟩ := List.nodup_cons.mp nodup
    have hit := held it List.mem_cons_self
    have held : ∀ x ∈ queue, x ∈ c.items := fun x hx => held x (List.mem_cons_of_mem _ hx)
    rw [cache.evict]
    split_ifs with hsize hlocked
    · exact ih hs held nodup stop
    · obtain ⟨sound, taken⟩ := hs.erase_spec hit
      have held' : ∀ x ∈ queue, x ∈ (c.erase src it).items := fun x hx => by
        rcases List.mem_cons.mp (taken.mem_iff.mp (held x hx)) with rfl | hx'
        · exact absurd (List.mem_map_of_mem hx) hne
        · exact hx'
      have rest := ih sound held' nodup (.refl sound)
      have total := total_eq_add_of_perm src taken
      refine ⟨rest.sound, rest.skeleton.trans skeleton_modify_line, rest.next, rest.total.trans (by omega),
        fun l x hx hl => rest.locked l x hx ?_⟩
      have ne : x.address ≠ it.address := fun ha => by
        rw [hs.eq_of_address_eq (hs.mem_items_of_holds hl) hit ha] at hx
        exact hlocked hx
      exact hl.modify_line (fun _ items hx => List.mem_filter.mpr ⟨hx, by simpa using ne⟩) fun _ => rfl
    · exact stop

theorem Sound.evict_clean_up_list (hs : c.Sound src) (target : UInt32) :
    Keeps src c (evict src target c c.clean_up_list) := by
  -- what was gathered are the items held, each once
  have perm : c.clean_up_list.Perm c.items := (List.mergeSort_perm _ _).trans (List.reverse_perm _)
  exact hs.evict_spec (fun _ hit => perm.mem_iff.mp hit) ((perm.map (·.address)).nodup_iff.mpr hs.nodup)

/-! ### Insertion and access -/

theorem Sound.hit (hs : c.Sound src) : c.hit.Sound src :=
  ⟨⟨hs.tables, hs.groups, hs.tables_below, hs.groups_below⟩, hs.placed, hs.nodup, hs.below, hs.size⟩

/-- A new item that is put in front of its line joins the items held; when its size has been counted, the cache is
sound again. -/
theorem Sound.push_front_spec (hs : c.Sound src) (it : data_item Data Tag HashSize)
    (hg : c.find_group it.parent_list.handle = some (t, g)) (hd : it.data = src.pull t.filename g.query it.tag)
    (hn : it.address = c.next) :
    (c.push_front it).items.Perm (it :: c.items) ∧
      Sound src { c.push_front it with data_size := c.data_size + src.get_size it.data } ∧
      (c.push_front it).Holds it.parent_list it := by
  obtain ⟨⟨ht, hta⟩, hgt, hga⟩ := hs.find_group_eq_some_iff.mp hg
  have hp : Placed src t g it.parent_list.hash it := ⟨by rw [hta, hga], hd⟩
  obtain ⟨rest, before, after⟩ := hs.exists_frame hg
  have arrived : (c.push_front it).items.Perm (it :: c.items) := (after (it :: ·)).trans (before.symm.cons it)
  refine ⟨arrived, ⟨hs.of_skeleton skeleton_modify_line (Nat.le_succ _), ?_, ?_, ?_, ?_⟩, ?_⟩
  · refine placed_modify_line hs.placed fun t' ht' g' hg' hl x hx => ?_
    rcases List.mem_cons.mp hx with rfl | hx
    · -- the table and the group of the line are the only ones with their addresses
      have same := hs.find_group_eq_some_iff.mpr
        ⟨⟨ht', (congrArg Handle.table hl).symm⟩, hg', (congrArg Handle.group hl).symm⟩
      rw [hg] at same
      cases same
      exact hp
    · exact hs.placed t' ht' g' hg' _ x hx
  · refine (arrived.map (·.address)).nodup_iff.mpr (List.nodup_cons.mpr ⟨fun hmem => ?_, hs.nodup⟩)
    obtain ⟨x, hx, ha⟩ := List.mem_map.mp hmem
    exact absurd (hs.below x hx) (by rw [show x.address = c.next from ha.trans hn]; exact lt_irrefl _)
  · intro x hx
    rcases List.mem_cons.mp (arrived.mem_iff.mp hx) with rfl | hx
    · exact hn ▸ Nat.lt_succ_self _
    · exact Nat.lt_succ_of_lt (hs.below x hx)
  · calc c.data_size + src.get_size it.data
        = UInt32.ofNat (c.total src + (src.get_size it.data).toNat) := by
          rw [UInt32.ofNat_add, UInt32.ofNat_toNat, hs.size]
      _ = UInt32.ofNat ((c.push_front it).total src) := by rw [total_eq_add_of_perm src arrived]
  · have line : (c.push_front it).find_line it.parent_list = some (it :: g.cache it.parent_list.hash) := by
      rw [show (c.push_front it).find_line it.parent_list =
        (c.modify_line it.parent_list (it :: ·)).find_line it.parent_list from rfl,
        find_line_modify_line, if_pos rfl, find_line, hg]
      rfl
    exact ⟨_, line, List.mem_cons_self⟩

/-- **Insertion**: when the size of a new item has been advised, with the evictions this may cause, the item is
still held. -/
theorem Sound.insert_spec (hs : c.Sound src) (it : data_item Data Tag HashSize)
    (hg : c.find_group it.parent_list.handle = some (t, g)) (hd : it.data = src.pull t.filename g.query it.tag)
    (hn : it.address = c.next) (hlocked : it.locked = true) :
    ∃ c', (c.push_front it).advise_size_increase src (src.get_size it.data) = c' ∧ c'.Sound src ∧
      c'.skeleton = c.skeleton ∧ c'.total src ≤ c.total src + (src.get_size it.data).toNat ∧
      c'.Holds it.parent_list it := by
  obtain ⟨arrived, sound, held⟩ := hs.push_front_spec it hg hd hn
  have total := total_eq_add_of_perm src arrived
  have keeps : Keeps src { c.push_front it with data_size := c.data_size + src.get_size it.data }
      ((c.push_front it).advise_size_increase src (src.get_size it.data)) := by
    rw [advise_size_increase]
    split_ifs
    · exact sound.evict_clean_up_list _
    · exact .refl sound
  exact ⟨_, rfl, keeps.sound, keeps.skeleton.trans skeleton_modify_line, keeps.total.trans total.le,
    keeps.locked _ it hlocked held⟩

/-- Updating an item's access time or unlocking it. -/
theorem Sound.modify_item_spec (hs : c.Sound src) {file : String} {q : Query} (hr : c.Refers l.handle file q) (a : ℕ)
    {u : data_item Data Tag HashSize → data_item Data Tag HashSize}
    (hu : ∀ x, (u x).address = x.address ∧ (u x).data = x.data ∧ (u x).tag = x.tag ∧
      (u x).parent_list = x.parent_list) :
    (c.modify_item l a u).Sound src ∧ (c.modify_item l a u).total src = c.total src ∧
      ∀ it, c.Holds l it → (c.modify_item l a u).Holds l (if it.address = a then u it else it) := by
  obtain ⟨t, g, hg, -, -⟩ := hr
  have total : (c.modify_item l a u).total src = c.total src :=
    total_eq_of_perm (hs.perm_map_modify_item hg a fun x => (hu x).2.1)
  have addresses : ((c.modify_item l a u).items.map (·.address)).Perm (c.items.map (·.address)) :=
    hs.perm_map_modify_item hg a fun x => (hu x).1
  refine ⟨⟨hs.of_skeleton skeleton_modify_line le_rfl, ?_, addresses.nodup_iff.mpr hs.nodup, ?_, ?_⟩, total, ?_⟩
  · refine placed_modify_line hs.placed fun t' ht' g' hg' _ x hx => ?_
    obtain ⟨y, hy, rfl⟩ := List.mem_map.mp hx
    have hp := hs.placed t' ht' g' hg' _ y hy
    split_ifs
    · obtain ⟨-, hd, htag, hpl⟩ := hu y
      exact ⟨hpl.trans hp.parent_list, by rw [hd, htag, hp.data]⟩
    · exact hp
  · intro x hx
    obtain ⟨y, hy, hya⟩ := List.mem_map.mp (addresses.mem_iff.mp (List.mem_map_of_mem hx))
    exact hya ▸ hs.below y hy
  · rw [total]
    exact hs.size
  · intro it hl
    refine hl.modify_line (fun _ items hit => List.mem_map.mpr ⟨it, hit, rfl⟩) fun hne => ?_
    exact absurd rfl hne

theorem Sound.release_spec (hs : c.Sound src) {file : String} {q : Query} (hr : c.Refers l.handle file q)
    (hl : c.Holds l it) (now : ℤ) :
    (c.release l it.address now).Sound src ∧ (c.release l it.address now).skeleton = c.skeleton ∧
      (c.release l it.address now).total src = c.total src ∧
      (c.release l it.address now).deref (l, it.address) = some it.data := by
  obtain ⟨s₁, t₁, k₁⟩ := hs.modify_item_spec hr it.address (u := fun it => { it with locked := false })
    fun _ => ⟨rfl, rfl, rfl, rfl⟩
  have hr₁ := s₁.refers_iff.mpr (skeleton_modify_line (c := c) ▸ hs.refers_iff.mp hr)
  obtain ⟨s₂, t₂, k₂⟩ := s₁.modify_item_spec hr₁ it.address (u := fun it => { it with last_access := now })
    fun _ => ⟨rfl, rfl, rfl, rfl⟩
  have hl₂ := k₂ _ (k₁ it hl)
  rw [if_pos rfl, if_pos rfl] at hl₂
  have found := s₂.deref_eq hl₂
  exact ⟨s₂, skeleton_modify_line.trans skeleton_modify_line, t₂.trans t₁, found⟩

/-- The code finds no item for the tag, and the new one fits below `2^32` bytes beside those held. -/
def Fits (src : Source Data Tag Query HashSize) (c : cache Data Tag Query HashSize) (h : Handle) (tag : Tag) : Prop :=
  ∀ t g, c.find_group h = some (t, g) → ((g.cache (src.hash tag)).find? fun it => it.tag == tag) = none →
    c.total src + (src.get_size (src.pull t.filename g.query tag)).toNat < 2 ^ 32

/-- **Lookup**: through a reference to the group of a query in the table of a file, it gives a reference to what
would be pulled for them, and the cache stays sound. -/
theorem Sound.lookup_tag_spec (hs : c.Sound src) {file : String} {q : Query} (hr : c.Refers h file q) (tag : Tag)
    (now₁ now₂ : ℤ) :
    ∃ c' r, c.lookup_tag src h tag now₁ now₂ = some (c', r) ∧ c'.Sound src ∧ c'.skeleton = c.skeleton ∧
      c'.deref r = some (src.pull file q tag) ∧
      (c.total src < 2 ^ 32 → Fits src c h tag → c'.total src < 2 ^ 32) := by
  have hr' := hr
  obtain ⟨t, g, hg, rfl, rfl⟩ := hr
  obtain ⟨⟨ht, hta⟩, hgt, hga⟩ := hs.find_group_eq_some_iff.mp hg
  have lines : c.find_line ⟨h, src.hash tag⟩ = some (g.cache (src.hash tag)) := by rw [find_line, hg]; rfl
  rw [lookup_tag, hg]
  simp only [Option.map_some]
  cases hf : (g.cache (src.hash tag)).find? fun it => it.tag == tag with
  | some it =>
    have hit := List.mem_of_find?_eq_some hf
    have htag : (it.tag == tag) = true := by simpa using List.find?_some hf
    have data : it.data = src.pull t.filename g.query tag :=
      (hs.placed t ht g hgt _ it hit).data.trans (src.pull_tag _ _ htag)
    obtain ⟨s₁, t₁, k₁⟩ := hs.modify_item_spec (l := ⟨h, src.hash tag⟩) hr' it.address
      (u := fun it => { it with last_access := now₁ }) fun _ => ⟨rfl, rfl, rfl, rfl⟩
    have hr₁ := s₁.hit.refers_iff.mpr (skeleton_modify_line (c := c) ▸ hs.refers_iff.mp hr')
    have hl₁ := k₁ it ⟨_, lines, hit⟩
    rw [if_pos rfl] at hl₁
    obtain ⟨s₂, k₂, t₂, d₂⟩ := s₁.hit.release_spec (l := ⟨h, src.hash tag⟩) hr₁ hl₁ now₂
    refine ⟨_, _, rfl, s₂, k₂.trans skeleton_modify_line, d₂.trans (congrArg some data), fun hlt _ => ?_⟩
    exact (t₂.trans t₁).trans_lt hlt
  | none =>
    obtain ⟨c₁, hc₁, s₁, k₁, t₁, h₁⟩ := hs.insert_spec
      ⟨c.next, src.pull t.filename g.query tag, tag, ⟨h, src.hash tag⟩, now₁, true⟩ hg rfl rfl rfl
    have hr₁ := s₁.refers_iff.mpr (k₁ ▸ hs.refers_iff.mp hr')
    obtain ⟨s₂, k₂, t₂, d₂⟩ := s₁.release_spec (l := ⟨h, src.hash tag⟩) hr₁ h₁ now₂
    refine ⟨_, _, rfl, ?_⟩
    simp only [hc₁]
    refine ⟨s₂, k₂.trans k₁, d₂, fun _ fits => ?_⟩
    exact t₂.trans_lt (t₁.trans_lt (fits t g hg hf))

/-! ### Handles -/

/-- A reference points to a table for the file. -/
def HasTable (c : cache Data Tag Query HashSize) (a : ℕ) (file : String) : Prop :=
  ∃ s ∈ c.skeleton, s.1 = a ∧ s.2.1 = file

/-- Tables and groups stay, and may be joined by others. -/
def Grows (c c' : cache Data Tag Query HashSize) : Prop :=
  ∀ s ∈ c.skeleton, ∃ s' ∈ c'.skeleton, s'.1 = s.1 ∧ s'.2.1 = s.2.1 ∧ s.2.2 ⊆ s'.2.2

section Grows

variable {c' : cache Data Tag Query HashSize} {file : String} {q : Query}

omit [BEq Tag] [BEq Query]

theorem Grows.of_subset (h : c.skeleton ⊆ c'.skeleton) : Grows c c' :=
  fun s hs => ⟨s, h hs, rfl, rfl, List.Subset.refl _⟩

theorem Grows.hasTable (h : Grows c c') {a : ℕ} (ht : c.HasTable a file) : c'.HasTable a file := by
  obtain ⟨s, hs, rfl, rfl⟩ := ht
  obtain ⟨s', hs', ha, hf, -⟩ := h s hs
  exact ⟨s', hs', ha, hf⟩

theorem Grows.refers (h : Grows c c') (wf : c.WellFormed) (wf' : c'.WellFormed) {r : Handle}
    (hr : c.Refers r file q) : c'.Refers r file q := by
  obtain ⟨s, hs, ha, hf, hg⟩ := wf.refers_iff.mp hr
  obtain ⟨s', hs', ha', hf', hsub⟩ := h s hs
  exact wf'.refers_iff.mpr ⟨s', hs', ha'.trans ha, hf'.trans hf, hsub hg⟩

end Grows

/-- A table handle is a reference to a table for the file. -/
theorem Sound.get_table_handle_spec (hs : c.Sound src) (name : String) :
    ∃ c' a, c.get_table_handle name = (c', a) ∧ c'.Sound src ∧ c'.total src = c.total src ∧ Grows c c' ∧
      c'.HasTable a name := by
  rw [get_table_handle]
  split
  · rename_i t ht
    have hname : t.filename = name := by simpa using List.find?_some ht
    exact ⟨c, _, rfl, hs, rfl, .of_subset (List.Subset.refl _),
      _, List.mem_map_of_mem (List.mem_of_find?_eq_some ht), rfl, hname⟩
  · refine ⟨_, _, rfl, ⟨⟨?_, ?_, ?_, ?_⟩, ?_, hs.nodup, ?_, hs.size⟩, rfl, .of_subset (List.subset_cons_self _ _),
      _, List.mem_cons_self, rfl, rfl⟩
    · refine List.nodup_cons.mpr ⟨fun hmem => ?_, hs.tables⟩
      obtain ⟨s, hmem, ha⟩ := List.mem_map.mp hmem
      exact absurd (hs.tables_below s hmem) (ha ▸ lt_irrefl _)
    · exact List.forall_mem_cons.mpr ⟨List.nodup_nil, hs.groups⟩
    · exact List.forall_mem_cons.mpr ⟨Nat.lt_succ_self _, fun s hmem => Nat.lt_succ_of_lt (hs.tables_below s hmem)⟩
    · exact List.forall_mem_cons.mpr
        ⟨fun g hg => absurd hg List.not_mem_nil, fun s hmem g hg => Nat.lt_succ_of_lt (hs.groups_below s hmem g hg)⟩
    · exact List.forall_mem_cons.mpr ⟨fun g hg => absurd hg List.not_mem_nil, hs.placed⟩
    · exact fun it hit => Nat.lt_succ_of_lt (hs.below it hit)

section PushGroup

variable {a : ℕ} {q : Query}

omit [BEq Tag] [BEq Query]

theorem skeleton_push_group : (c.push_group a q).skeleton =
    c.skeleton.map fun s => if s.1 = a then (s.1, s.2.1, (c.next, q) :: s.2.2) else s := by
  rw [skeleton, skeleton, push_group, List.map_map, List.map_map]
  refine List.map_congr_left fun t _ => ?_
  simp only [Function.comp]
  split_ifs <;> rfl

theorem items_push_group : (c.push_group a q).items = c.items := by
  rw [items, push_group, List.flatMap_map]
  refine List.flatMap_congr fun t _ => ?_
  split_ifs
  · simp [table.items, serial_group.items]
  · rfl

theorem WellFormed.push_group (wf : c.WellFormed) : (c.push_group a q).WellFormed := by
  refine ⟨?_, ?_, ?_, ?_⟩ <;> rw [skeleton_push_group]
  · rw [List.map_map]
    refine (List.map_congr_left fun s _ => ?_).symm ▸ wf.tables
    simp only [Function.comp]
    split_ifs <;> rfl
  · intro s' hs'
    obtain ⟨s, hs, rfl⟩ := List.mem_map.mp hs'
    split_ifs
    · refine List.nodup_cons.mpr ⟨fun hmem => ?_, wf.groups s hs⟩
      obtain ⟨g, hg, he⟩ := List.mem_map.mp hmem
      exact absurd (wf.groups_below s hs g hg) (he ▸ lt_irrefl _)
    · exact wf.groups s hs
  · intro s' hs'
    obtain ⟨s, hs, rfl⟩ := List.mem_map.mp hs'
    have := Nat.lt_succ_of_lt (wf.tables_below s hs)
    split_ifs <;> exact this
  · intro s' hs'
    obtain ⟨s, hs, rfl⟩ := List.mem_map.mp hs'
    have below : ∀ g ∈ s.2.2, g.1 < c.next + 1 := fun g hg => Nat.lt_succ_of_lt (wf.groups_below s hs g hg)
    split_ifs
    · exact List.forall_mem_cons.mpr ⟨Nat.lt_succ_self _, below⟩
    · exact below

theorem grows_push_group : Grows c (c.push_group a q) := by
  intro s hs
  refine ⟨_, skeleton_push_group ▸ List.mem_map_of_mem hs, ?_⟩
  split_ifs
  · exact ⟨rfl, rfl, List.subset_cons_self _ _⟩
  · exact ⟨rfl, rfl, List.Subset.refl _⟩

end PushGroup

/-- A serial handle of a table is a reference to a group that pulls the same as the query would. -/
theorem Sound.get_serial_handle_spec (hs : c.Sound src) {a : ℕ} {file : String} (ht : c.HasTable a file) (q : Query) :
    ∃ c' h q', c.get_serial_handle a q = some (c', h) ∧ c'.Sound src ∧ c'.total src = c.total src ∧ Grows c c' ∧
      c'.Refers h file q' ∧ ∀ tag, src.pull file q' tag = src.pull file q tag := by
  obtain ⟨_, hmem, rfl, rfl⟩ := ht
  obtain ⟨t, ht, rfl⟩ := List.mem_map.mp hmem
  have found : c.tables.find? (fun x => x.address = t.address) = some t :=
    (find?_key_eq_some_iff hs.tables_nodup).mpr ⟨ht, rfl⟩
  rw [get_serial_handle]
  simp only [found, Option.map_some]
  split
  · rename_i g hg
    have hq : (g.query == q) = true := by simpa using List.find?_some hg
    exact ⟨c, _, g.query, rfl, hs, rfl, .of_subset (List.Subset.refl _),
      ⟨t, g, hs.find_group_eq_some_iff.mpr ⟨⟨ht, rfl⟩, List.mem_of_find?_eq_some hg, rfl⟩, rfl, rfl⟩,
      fun tag => src.pull_query _ _ hq⟩
  · have wf := hs.push_group (a := t.address) (q := q)
    have total : (c.push_group t.address q).total src = c.total src := by
      rw [cache.total, cache.total, items_push_group]
    refine ⟨_, _, q, rfl, ⟨wf, ?_, ?_, ?_, by rw [total]; exact hs.size⟩, total, grows_push_group, ?_, fun _ => rfl⟩
    · intro t' ht' g hg i it hit
      obtain ⟨u, hu, rfl⟩ := List.mem_map.mp ht'
      have placed : ∀ g ∈ u.groups, it ∈ g.cache i → Placed src u g i it := fun g hg => hs.placed u hu g hg i it
      split_ifs at hg ⊢
      · rcases List.mem_cons.mp hg with rfl | hg
        · cases hit
        · have := placed g hg hit
          exact ⟨this.parent_list, this.data⟩
      · exact placed g hg hit
    · rw [items_push_group]
      exact hs.nodup
    · rw [items_push_group]
      exact fun it hit => Nat.lt_succ_of_lt (hs.below it hit)
    · refine wf.refers_iff.mpr ⟨_, skeleton_push_group ▸ List.mem_map_of_mem hmem, ?_⟩
      rw [if_pos rfl]
      exact ⟨rfl, rfl, List.mem_cons_self⟩

end cache

/-! ### Sequences of calls -/

/-- A call of a client; it passes references that it was given. -/
inductive Call (Tag Query : Type*) where
  | get_table_handle (name : String)
  | get_serial_handle (table : ℕ) (q : Query)
  | lookup_tag (group : Handle) (tag : Tag) (now₁ now₂ : ℤ)

/-- The cache, and the references that were handed out, with what was asked for. -/
structure Session (Data Tag Query : Type*) (HashSize : ℕ) where
  cache : cache Data Tag Query HashSize
  tables : List (ℕ × String)
  groups : List (Handle × String × Query)

section Sessions

variable [BEq Tag] [BEq Query] (src : Source Data Tag Query HashSize)

/-- One call. -/
inductive Step : Session Data Tag Query HashSize → Call Tag Query → Session Data Tag Query HashSize → Prop where
  | get_table_handle {s name c a} : s.cache.get_table_handle name = (c, a) →
      Step s (.get_table_handle name) { s with cache := c, tables := (a, name) :: s.tables }
  | get_serial_handle {s a file q c h} : (a, file) ∈ s.tables → s.cache.get_serial_handle a q = some (c, h) →
      Step s (.get_serial_handle a q) { s with cache := c, groups := (h, file, q) :: s.groups }
  | lookup_tag {s h file q tag now₁ now₂ c r} : (h, file, q) ∈ s.groups →
      s.cache.lookup_tag src h tag now₁ now₂ = some (c, r) →
      Step s (.lookup_tag h tag now₁ now₂) { s with cache := c }

/-- All sequences of calls on a new cache. -/
def sessions (cap : UInt32) : System (Session Data Tag Query HashSize) (Call Tag Query) where
  init := (· = ⟨.create cap, [], []⟩)
  step := Step src

/-- A lookup that finds no item leaves the items held and the new one below `2^32` bytes. -/
def FitsCall (s : Session Data Tag Query HashSize) : Call Tag Query → Prop
  | .lookup_tag h tag _ _ => cache.Fits src s.cache h tag
  | _ => True

/-- A lookup with any reference handed out returns a reference to what would be pulled. -/
def Transparent (s : Session Data Tag Query HashSize) : Prop :=
  ∀ h file q, (h, file, q) ∈ s.groups → ∀ tag now₁ now₂,
    ∃ c r, s.cache.lookup_tag src h tag now₁ now₂ = some (c, r) ∧ c.deref r = some (src.pull file q tag)

variable {src} {s s' : Session Data Tag Query HashSize} {call : Call Tag Query}

/-- The cache is sound, and references point to what was asked for. -/
structure Valid (src : Source Data Tag Query HashSize) (s : Session Data Tag Query HashSize) : Prop where
  sound : s.cache.Sound src
  tables : ∀ a file, (a, file) ∈ s.tables → s.cache.HasTable a file
  groups : ∀ h file q, (h, file, q) ∈ s.groups →
    ∃ q', s.cache.Refers h file q' ∧ ∀ tag, src.pull file q' tag = src.pull file q tag

theorem valid_create (cap : UInt32) : Valid src ⟨.create cap, [], []⟩ := by
  refine ⟨⟨⟨?_, ?_, ?_, ?_⟩, ?_, ?_, ?_, ?_⟩, by simp, by simp⟩ <;>
    simp [cache.create, cache.skeleton, cache.items, cache.total]

theorem Valid.grow {c : cache Data Tag Query HashSize} (h : Valid src s) (hs : c.Sound src)
    (hg : cache.Grows s.cache c) : Valid src { s with cache := c } where
  sound := hs
  tables := fun a file hmem => hg.hasTable (h.tables a file hmem)
  groups := fun r file q hmem => by
    obtain ⟨q', hr, hq⟩ := h.groups r file q hmem
    exact ⟨q', hg.refers h.sound.toWellFormed hs.toWellFormed hr, hq⟩

/-- **One call**: references stay valid, and if the new item fits, so do all. -/
theorem Valid.step (h : Valid src s) (hs : Step src s call s') :
    Valid src s' ∧ (s.cache.total src < 2 ^ 32 → FitsCall src s call → s'.cache.total src < 2 ^ 32) := by
  cases hs with
  | get_table_handle hget =>
    obtain ⟨c, a, hc, sound, total, grows, table⟩ := h.sound.get_table_handle_spec _
    cases hget.symm.trans hc
    have grown := h.grow sound grows
    refine ⟨⟨sound, fun a' file hmem => ?_, grown.groups⟩, fun hlt _ => total.trans_lt hlt⟩
    rcases List.mem_cons.mp hmem with he | hmem
    · cases he
      exact table
    · exact grown.tables a' file hmem
  | get_serial_handle hmem hget =>
    obtain ⟨c, r, q', hc, sound, total, grows, refers, same⟩ := h.sound.get_serial_handle_spec (h.tables _ _ hmem) _
    cases hget.symm.trans hc
    have grown := h.grow sound grows
    refine ⟨⟨sound, grown.tables, fun r' file q hmem => ?_⟩, fun hlt _ => total.trans_lt hlt⟩
    rcases List.mem_cons.mp hmem with he | hmem
    · cases he
      exact ⟨q', refers, same⟩
    · exact grown.groups r' file q hmem
  | lookup_tag hmem hget =>
    obtain ⟨q', refers, -⟩ := h.groups _ _ _ hmem
    obtain ⟨c, r, hc, sound, skeleton, -, fits⟩ := h.sound.lookup_tag_spec refers _ _ _
    cases hget.symm.trans hc
    exact ⟨h.grow sound (.of_subset (skeleton ▸ List.Subset.refl _)), fits⟩

theorem Valid.transparent (h : Valid src s) : Transparent src s := by
  intro r file q hmem tag now₁ now₂
  obtain ⟨q', refers, same⟩ := h.groups r file q hmem
  obtain ⟨c, i, hc, -, -, hd, -⟩ := h.sound.lookup_tag_spec refers tag now₁ now₂
  exact ⟨c, i, hc, hd.trans (congrArg some (same tag))⟩

/-- **Transparency and accounting**: in every sequence of calls, each lookup is transparent; and if at every miss
the items held and the new one stay below `2^32` bytes, `data_size` is the total size of the items held. -/
theorem transparent_and_accounted (src : Source Data Tag Query HashSize) (cap : UInt32) :
    (∀ s, (sessions src cap).Reachable s → Transparent src s) ∧
    ∀ s, ((sessions src cap).restrict (FitsCall src)).Reachable s →
      s.cache.data_size.toNat = s.cache.total src := by
  constructor
  · intro s hs
    refine Valid.transparent (System.Invariant.reachable ⟨?_, fun s l s' h hs => (h.step hs).1⟩ hs)
    rintro _ rfl
    exact valid_create cap
  · intro s hs
    have inv : Valid src s ∧ s.cache.total src < 2 ^ 32 := by
      refine System.Invariant.reachable (I := fun s => Valid src s ∧ s.cache.total src < 2 ^ 32) ⟨?_, ?_⟩ hs
      · rintro _ rfl
        exact ⟨valid_create cap, by simp [cache.create, cache.total, cache.items]⟩
      · rintro s l s' ⟨h, hlt⟩ ⟨hfits, hstep⟩
        exact ⟨(h.step hstep).1, (h.step hstep).2 hlt hfits⟩
    rw [inv.1.sound.size, UInt32.toNat_ofNat', Nat.mod_eq_of_lt inv.2]

end Sessions

/-- Every item has `2^31` bytes. -/
def halves : Source ℕ ℕ ℕ 2 where
  hash := fun t => Fin.ofNat 2 t
  pull := fun _ q t => q + t
  sizeof_container_element := 2 ^ 31
  elementsof_container := fun _ => 1
  pull_tag := fun _ q {t t'} h => by rw [eq_of_beq h]
  pull_query := fun _ {q q'} t h => by rw [eq_of_beq h]

/-- A cache of the largest capacity, with a table for a file and a group for a query. -/
def opened : cache ℕ ℕ ℕ 2 := ((cache.create 4294967295).get_table_handle "file").1.push_group 0 7

theorem reachable_opened : ((sessions halves 4294967295).restrict (FitsCall halves)).Reachable
    ⟨opened, [(0, "file")], [(⟨0, 1⟩, "file", 7)]⟩ := by
  have start : ((sessions halves 4294967295).restrict (FitsCall halves)).Reachable
    ⟨.create 4294967295, [], []⟩ := .of_init rfl
  have table := start.step (l := Call.get_table_handle "file") ⟨trivial, .get_table_handle rfl⟩
  exact table.step (l := Call.get_serial_handle 0 7) ⟨trivial, .get_serial_handle List.mem_cons_self rfl⟩

theorem transparent_and_accounted_opened : ∃ c r, opened.lookup_tag halves ⟨0, 1⟩ 5 1 2 = some (c, r) ∧
    c.data_size.toNat = c.total halves := by
  obtain ⟨⟨c, r⟩, hc⟩ := Option.isSome_iff_exists.mp
    (show (opened.lookup_tag halves ⟨0, 1⟩ 5 1 2).isSome by decide +kernel)
  have fits : FitsCall halves ⟨opened, [(0, "file")], [(⟨0, 1⟩, "file", 7)]⟩ (.lookup_tag ⟨0, 1⟩ 5 1 2) := by
    intro t g _ _
    have size : (halves.get_size (halves.pull t.filename g.query 5)).toNat = 2 ^ 31 := rfl
    rw [size]
    decide +kernel
  exact ⟨c, r, hc, (transparent_and_accounted halves 4294967295).2 _
    (reachable_opened.step ⟨fits, .lookup_tag List.mem_cons_self hc⟩)⟩

/-- After two lookups for different tags the counter has wrapped to `0`, and both items are held. -/
theorem data_size_wraps : ¬ ∀ s, (sessions halves 4294967295).Reachable s →
    s.cache.data_size.toNat = s.cache.total halves := by
  intro h
  have wraps : (((opened.lookup_tag halves ⟨0, 1⟩ 5 1 2).bind fun r₁ => r₁.1.lookup_tag halves ⟨0, 1⟩ 6 3 4).any
      fun r₂ => r₂.1.data_size.toNat ≠ r₂.1.total halves) = true := by decide +kernel
  obtain ⟨⟨c₂, r₂⟩, h₂, hne⟩ := (Option.any_eq_true _ _).mp wraps
  obtain ⟨⟨c₁, r₁⟩, h₁, h₂⟩ := Option.bind_eq_some_iff.mp h₂
  have first := reachable_opened.of_restrict.step (.lookup_tag List.mem_cons_self h₁)
  have second := first.step (.lookup_tag List.mem_cons_self h₂)
  exact absurd (h _ second) (by simpa using hne)

end CppTransport.Runtime.Linecache
